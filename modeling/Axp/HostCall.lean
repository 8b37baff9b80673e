import Axp.Cancel
import Axp.Discovery

/-!
# A host call and its child

A component's `invoke` runs a command and hands its standard output back. The
call waits for two things, the exit of the child and the end of its pipe, and
they come in either order; meanwhile it looks for a cancellation on every tick,
and for output beyond the cap on every read. `hostSystem` interleaves its steps
with those of the child and of the cancelling party, which does no more than
set a flag.

What was read and written is taken from the labels of the run. `Phase` says
what they have to do with the state of the call, at each point of it; the
output it returns is then all the child's side has written, and not only what
happened to be there when the child exited.

`invoke_spawns_iff` ties the call to the `invoke` that makes it, by the first
steps of the call (`hostRun_begin_iff`) and what they need of the host
(`spawnHost_ok_iff`).
-/

namespace Axp

open Lts

/-! ## The call -/

/-- `std::process::ExitStatus`: the wait status. -/
structure ExitStatus where
  raw : Int
deriving DecidableEq, Repr

def ExitStatus.success (self : ExitStatus) : Bool := self.raw = 0

/-- The child of a host call; `sigkilled` records that `start_kill` was called. -/
structure HostChild where
  exit : Option ExitStatus
  stdout : PipeEnd
  sigkilled : Bool
deriving DecidableEq

def HostChild.start : HostChild := { exit := none, stdout := ⟨[], true⟩, sigkilled := false }

/-- The arguments of `run_resolved_command`, without the flag. -/
structure HostArgs where
  resolved : ResolvedCommand
  cwd : PathBuf
  stdoutByteCap : Usize
  policy : SandboxPolicy

/-- The `Display` of an exit status, and of the error of `String::from_utf8`. -/
structure HostTexts where
  exitStatus : ExitStatus → String
  utf8Error : List UInt8 → String

/-- The variables of the loop. -/
structure HostLoop where
  bytes : Bytes
  stdoutDone : Bool
  killed : Bool
  status : Option ExitStatus

/-- Where the call is: before its look at the flag, before the spawn, at the
`select!`, between the two halves of a tick, past the loop, or over. -/
inductive HostPc where
  | checking
  | spawning
  | selecting (loop : HostLoop)
  | ticking (loop : HostLoop)
  | leaving (loop : HostLoop)
  | returned (answer : Result String)
  /-- The buffer has outgrown what a `Vec` can hold. -/
  | panicked

/-- How a branch of the loop ends, and whether it has called `start_kill`. -/
structure HostMove where
  kill : Bool
  pc : HostPc

/-- `usize::saturating_add`. -/
def saturatingAdd (a b : Nat) : Nat := min (a + b) (2 ^ 64 - 1)

def cancelledError : Error := .jobSpawn "capability command cancelled"

namespace HostLoop

def start : HostLoop := { bytes := .empty, stdoutDone := false, killed := false, status := none }

/-- The end of a turn: `break` once the child has exited and its pipe has
ended. -/
def next (l : HostLoop) : HostPc :=
  if l.status.isSome && l.stdoutDone then .leaving l else .selecting l

/-- The first half of a tick looks at the flag. -/
def onTick (l : HostLoop) (cancelled : Bool) : HostMove :=
  if !l.killed && cancelled then ⟨true, .ticking { l with killed := true }⟩
  else ⟨false, .ticking l⟩

/-- The second half looks at the child. -/
def onTryWait (l : HostLoop) : Except ErrorText (Option ExitStatus) → HostMove
  | .ok (some es) => ⟨false, { l with status := some es }.next⟩
  | .ok none => ⟨false, l.next⟩
  | .error e => ⟨true, .returned (.error (.jobSpawn e))⟩

/-- A read; of no bytes, it is the end of the pipe. -/
def onRead (cap : Usize) (l : HostLoop) : Except ErrorText (List UInt8) → HostMove
  | .ok [] => ⟨false, { l with stdoutDone := true }.next⟩
  | .ok chunk =>
      if cap.toNat < saturatingAdd l.bytes.len chunk.length then
        ⟨true, .returned (.error (.logBufferOverflow cap))⟩
      else
        match Bytes.ofList? (l.bytes.toList ++ chunk) with
        | some bytes => ⟨false, { l with bytes := bytes }.next⟩
        | none => ⟨false, .panicked⟩
  | .error e => ⟨true, .returned (.error (.jobSpawn e))⟩

/-- What comes after the loop. -/
def answer (texts : HostTexts) (l : HostLoop) (cancelled : Bool) : Result String := do
  let status ← okOr l.status (.jobSpawn "capability command status was not available")
  if l.killed || cancelled then .error cancelledError
  else if !status.success then
    .error (.jobSpawn ("capability command exited with " ++ texts.exitStatus status))
  else
    match String.fromUTF8? ⟨⟨l.bytes.toList⟩⟩ with
    | some s => .ok s
    | none => .error (.jobSpawn
        ("capability stdout was not valid UTF-8: " ++ texts.utf8Error l.bytes.toList))

end HostLoop

/-- The spawn, with the sandbox policy applied to the command before it. -/
def spawnHost (env : Env) (args : HostArgs) : Result Unit := do
  let cmd ← applyPolicy env args.policy (hostCommand args.cwd args.resolved)
  (env.spawn cmd).mapError .jobSpawn
  if cmd.stdout = .piped then .ok ()
  else .error (.jobSpawn "capability stdout pipe was not available")

/-! ## The call, its child and its flag -/

/-- `cancelled` is the job's `HostCapabilityCancelState`. -/
structure HostCall where
  pc : HostPc
  cancelled : Bool
  child : Option HostChild

inductive HostLabel where
  /-- Somebody sets the flag. -/
  | cancel
  | childWrite (bytes : List UInt8)
  | childClose
  | childExit (status : ExitStatus)
  | check
  | spawn (env : Env)
  | tick
  | tryWait (failure : Option ErrorText)
  | read (result : Except ErrorText (List UInt8))
  | finish

/-- What a read of at most one buffer can return now. -/
def PipeEnd.offers (p : PipeEnd) : Except ErrorText (List UInt8) → Bool
  | .ok [] => p.buffered.isEmpty && !p.writable
  | .ok chunk => chunk.length ≤ drainBufSize && chunk.isPrefixOf p.buffered
  | .error _ => true

/-- The pipe after a read. -/
def PipeEnd.consume (p : PipeEnd) : Except ErrorText (List UInt8) → PipeEnd
  | .ok chunk => { p with buffered := p.buffered.drop chunk.length }
  | .error _ => p

namespace HostCall

/-- A branch of the loop, with its `start_kill`. -/
def move (s : HostCall) (child : HostChild) (m : HostMove) : HostCall :=
  { s with pc := m.pc, child := some { child with sigkilled := child.sigkilled || m.kill } }

def step (texts : HostTexts) (args : HostArgs) (s : HostCall) : HostLabel → Option HostCall
  | .cancel => some { s with cancelled := true }
  | .childWrite bytes =>
      match s.child with
      | some child =>
          if child.stdout.writable = true then
            some { s with child := some { child with
              stdout := { child.stdout with buffered := child.stdout.buffered ++ bytes } } }
          else none
      | none => none
  | .childClose =>
      match s.child with
      | some child => some { s with child := some { child with
          stdout := { child.stdout with writable := false } } }
      | none => none
  | .childExit status =>
      match s.child with
      | some child =>
          if child.exit = none then
            some { s with child := some { child with exit := some status } }
          else none
      | none => none
  | .check =>
      match s.pc with
      | .checking => some { s with
          pc := if s.cancelled then .returned (.error cancelledError) else .spawning }
      | _ => none
  | .spawn env =>
      match s.pc with
      | .spawning =>
          match spawnHost env args with
          | .ok () => some { s with pc := .selecting .start, child := some .start }
          | .error e => some { s with pc := .returned (.error e) }
      | _ => none
  | .tick =>
      match s.pc, s.child with
      | .selecting l, some child => some (s.move child (l.onTick s.cancelled))
      | _, _ => none
  | .tryWait failure =>
      match s.pc, s.child with
      | .ticking l, some child =>
          some (s.move child (l.onTryWait
            (match failure with
              | some e => .error e
              | none => .ok child.exit)))
      | _, _ => none
  | .read result =>
      match s.pc, s.child with
      | .selecting l, some child =>
          if l.stdoutDone = false ∧ child.stdout.offers result = true then
            some (s.move { child with stdout := child.stdout.consume result }
              (l.onRead args.stdoutByteCap result))
          else none
      | _, _ => none
  | .finish =>
      match s.pc with
      | .leaving l => some { s with pc := .returned (l.answer texts s.cancelled) }
      | _ => none

end HostCall

/-- A call of `run_resolved_command`, whose flag may already be set. -/
def hostSystem (texts : HostTexts) (args : HostArgs) : System HostCall HostLabel where
  init s := s.pc = .checking ∧ s.child = none
  step := HostCall.step texts args

/-! ## What a step does -/

/-- The steps, each with what it found. -/
inductive HostEffect (texts : HostTexts) (args : HostArgs) (s : HostCall) :
    HostLabel → HostCall → Prop
  | cancel : HostEffect texts args s .cancel { s with cancelled := true }
  | childWrite (child : HostChild) (bytes : List UInt8) : s.child = some child →
      child.stdout.writable = true → HostEffect texts args s (.childWrite bytes)
        { s with child := some { child with
          stdout := { child.stdout with buffered := child.stdout.buffered ++ bytes } } }
  | childClose (child : HostChild) : s.child = some child → HostEffect texts args s .childClose
      { s with child := some { child with stdout := { child.stdout with writable := false } } }
  | childExit (child : HostChild) (status : ExitStatus) : s.child = some child →
      child.exit = none → HostEffect texts args s (.childExit status)
        { s with child := some { child with exit := some status } }
  | check : s.pc = .checking → HostEffect texts args s .check
      { s with pc := if s.cancelled then .returned (.error cancelledError) else .spawning }
  | spawned (env : Env) : s.pc = .spawning → spawnHost env args = .ok () →
      HostEffect texts args s (.spawn env)
        { s with pc := .selecting .start, child := some .start }
  | refused (env : Env) (e : Error) : s.pc = .spawning → spawnHost env args = .error e →
      HostEffect texts args s (.spawn env) { s with pc := .returned (.error e) }
  | tick (l : HostLoop) (child : HostChild) : s.pc = .selecting l → s.child = some child →
      HostEffect texts args s .tick (s.move child (l.onTick s.cancelled))
  | waited (l : HostLoop) (child : HostChild) : s.pc = .ticking l → s.child = some child →
      HostEffect texts args s (.tryWait none) (s.move child (l.onTryWait (.ok child.exit)))
  | waitFailed (l : HostLoop) (child : HostChild) (e : ErrorText) : s.pc = .ticking l →
      s.child = some child →
      HostEffect texts args s (.tryWait (some e)) (s.move child (l.onTryWait (.error e)))
  | read (l : HostLoop) (child : HostChild) (result : Except ErrorText (List UInt8)) :
      s.pc = .selecting l → s.child = some child → l.stdoutDone = false →
      child.stdout.offers result = true →
      HostEffect texts args s (.read result)
        (s.move { child with stdout := child.stdout.consume result }
          (l.onRead args.stdoutByteCap result))
  | finish (l : HostLoop) : s.pc = .leaving l → HostEffect texts args s .finish
      { s with pc := .returned (l.answer texts s.cancelled) }

theorem hostStep_effect {texts : HostTexts} {args : HostArgs} {s s' : HostCall} {label : HostLabel}
    (h : (hostSystem texts args).step s label = some s') : HostEffect texts args s label s' := by
  simp only [hostSystem] at h
  cases label with
  | cancel =>
      obtain rfl := Option.some.inj h
      exact .cancel
  | childWrite bytes =>
      simp only [HostCall.step] at h
      split at h
      · next child hchild =>
          obtain ⟨hopen, rfl⟩ := guard_eq_some.mp h
          exact .childWrite child bytes hchild hopen
      · cases h
  | childClose =>
      simp only [HostCall.step] at h
      split at h
      · next child hchild =>
          obtain rfl := Option.some.inj h
          exact .childClose child hchild
      · cases h
  | childExit status =>
      simp only [HostCall.step] at h
      split at h
      · next child hchild =>
          obtain ⟨hexit, rfl⟩ := guard_eq_some.mp h
          exact .childExit child status hchild hexit
      · cases h
  | check =>
      simp only [HostCall.step] at h
      split at h
      · next hpc =>
          obtain rfl := Option.some.inj h
          exact .check hpc
      · cases h
  | spawn env =>
      simp only [HostCall.step] at h
      split at h
      · next hpc =>
          split at h
          · next hok =>
              obtain rfl := Option.some.inj h
              exact .spawned env hpc hok
          · next e he =>
              obtain rfl := Option.some.inj h
              exact .refused env e hpc he
      · cases h
  | tick =>
      simp only [HostCall.step] at h
      split at h
      · next l child hpc hchild =>
          obtain rfl := Option.some.inj h
          exact .tick l child hpc hchild
      · cases h
  | tryWait failure =>
      simp only [HostCall.step] at h
      split at h
      · next l child hpc hchild =>
          obtain rfl := Option.some.inj h
          cases failure with
          | none => exact .waited l child hpc hchild
          | some e => exact .waitFailed l child e hpc hchild
      · cases h
  | read result =>
      simp only [HostCall.step] at h
      split at h
      · next l child hpc hchild =>
          obtain ⟨⟨hdone, hoffers⟩, rfl⟩ := guard_eq_some.mp h
          exact .read l child result hpc hchild hdone hoffers
      · cases h
  | finish =>
      simp only [HostCall.step] at h
      split at h
      · next l hpc =>
          obtain rfl := Option.some.inj h
          exact .finish l hpc
      · cases h

/-! ## What was written and what was read -/

/-- The bytes the reads have returned. -/
def stdoutRead (ls : List HostLabel) : List UInt8 :=
  ls.flatMap fun
    | .read (.ok chunk) => chunk
    | _ => []

/-- The bytes that went into the pipe. -/
def stdoutWritten (ls : List HostLabel) : List UInt8 :=
  ls.flatMap fun
    | .childWrite bytes => bytes
    | _ => []

theorem stdoutRead_concat (ls : List HostLabel) (l : HostLabel) :
    stdoutRead (ls ++ [l]) = stdoutRead ls ++ stdoutRead [l] := List.flatMap_append

theorem stdoutWritten_concat (ls : List HostLabel) (l : HostLabel) :
    stdoutWritten (ls ++ [l]) = stdoutWritten ls ++ stdoutWritten [l] := List.flatMap_append

/-- The flag was set, before the call or during it. -/
def Flagged (s₀ : HostCall) (ls : List HostLabel) : Prop :=
  s₀.cancelled = true ∨ HostLabel.cancel ∈ ls

theorem flagged_concat {s₀ : HostCall} {ls : List HostLabel} {l : HostLabel} :
    Flagged s₀ (ls ++ [l]) ↔ Flagged s₀ ls ∨ l = .cancel := by
  rw [Flagged, Flagged, List.mem_append, List.mem_singleton, or_assoc, @eq_comm _ l]

/-! ## The phases of a call -/

/-- The variables of the loop beside the child and what has happened to it. -/
structure HostLoop.Sound (cap : Usize) (l : HostLoop) (child : HostChild) (ls : List HostLabel) :
    Prop where
  bytes_eq : l.bytes.toList = stdoutRead ls
  fits : (stdoutRead ls).length ≤ cap.toNat
  written : stdoutWritten ls = stdoutRead ls ++ child.stdout.buffered
  done : l.stdoutDone = true → .read (.ok []) ∈ ls ∧ child.stdout = ⟨[], false⟩
  exited : ∀ status, l.status = some status → child.exit = some status

/-- An answer that is all of the output of a child that has exited well, and
was given with the flag unset. -/
structure Delivered (cap : Usize) (s₀ : HostCall) (ls : List HostLabel) (child : HostChild)
    (text : String) : Prop where
  exited : ∃ status, child.exit = some status ∧ status.success = true
  ended : .read (.ok []) ∈ ls ∧ child.stdout = ⟨[], false⟩
  text_eq : utf8 text = stdoutRead ls
  whole : stdoutWritten ls = stdoutRead ls
  fits : (stdoutRead ls).length ≤ cap.toNat
  final : ∃ before after, ls = before ++ .finish :: after ∧ ¬Flagged s₀ before

/-- Nothing has been spawned, so nothing written or read. -/
structure Untouched (ls : List HostLabel) (child : Option HostChild) : Prop where
  child_eq : child = none
  read : stdoutRead ls = []
  written : stdoutWritten ls = []

/-- What a run has to do with the state it leads to, by where the call is. -/
def Phase (cap : Usize) (s₀ : HostCall) (ls : List HostLabel) (child : Option HostChild) :
    HostPc → Prop
  | .checking => Untouched ls child
  | .spawning => Untouched ls child
  | .selecting l => ∃ c, child = some c ∧ l.Sound cap c ls
  | .ticking l => ∃ c, child = some c ∧ l.Sound cap c ls
  | .leaving l => ∃ c, child = some c ∧ l.Sound cap c ls
      ∧ l.status.isSome = true ∧ l.stdoutDone = true
  | .returned (.ok text) => ∃ c, child = some c ∧ Delivered cap s₀ ls c text
  | .returned (.error e) => cap.toNat < (stdoutRead ls).length ↔ e = .logBufferOverflow cap
  | .panicked => (stdoutRead ls).length ≤ cap.toNat

/-- A step that the call has no part in, for its child: what is in the pipe is
joined by what is written, a pipe that has ended stays ended, and an exit is
final. -/
structure HostChild.Follows (child : HostChild) (label : HostLabel) (child' : HostChild) :
    Prop where
  buffered : child'.stdout.buffered = child.stdout.buffered ++ stdoutWritten [label]
  ended : child.stdout = ⟨[], false⟩ → child'.stdout = ⟨[], false⟩
  exited : ∀ status, child.exit = some status → child'.exit = some status

section

variable {cap : Usize} {s₀ s s' : HostCall} {ls : List HostLabel} {label : HostLabel}
  {l : HostLoop} {child child' : HostChild} {text : String}

theorem HostLoop.Sound.follow (h : l.Sound cap child ls) (hread : stdoutRead [label] = [])
    (hchild : child.Follows label child') : l.Sound cap child' (ls ++ [label]) where
  bytes_eq := by rw [stdoutRead_concat, hread, List.append_nil, h.bytes_eq]
  fits := by
    rw [stdoutRead_concat, hread, List.append_nil]
    exact h.fits
  written := by
    rw [stdoutRead_concat, stdoutWritten_concat, hread, List.append_nil, h.written,
      hchild.buffered, List.append_assoc]
  done hdone := ⟨List.mem_append_left _ (h.done hdone).1, hchild.ended (h.done hdone).2⟩
  exited status hstatus := hchild.exited status (h.exited status hstatus)

theorem Delivered.follow (h : Delivered cap s₀ ls child text) (hread : stdoutRead [label] = [])
    (hchild : child.Follows label child') : Delivered cap s₀ (ls ++ [label]) child' text where
  exited := by
    obtain ⟨status, hexit, hsuccess⟩ := h.exited
    exact ⟨status, hchild.exited status hexit, hsuccess⟩
  ended := ⟨List.mem_append_left _ h.ended.1, hchild.ended h.ended.2⟩
  text_eq := by rw [stdoutRead_concat, hread, List.append_nil, h.text_eq]
  whole := by
    have hwritten : stdoutWritten [label] = [] := by
      have hbuffered := hchild.buffered
      rw [h.ended.2, hchild.ended h.ended.2] at hbuffered
      exact hbuffered.symm
    rw [stdoutRead_concat, stdoutWritten_concat, hread, hwritten, h.whole]
  fits := by
    rw [stdoutRead_concat, hread, List.append_nil]
    exact h.fits
  final := by
    obtain ⟨before, after, hls, hflag⟩ := h.final
    exact ⟨before, after ++ [label], by rw [hls, List.append_assoc, List.cons_append], hflag⟩

theorem Untouched.follow {child child' : Option HostChild} (h : Untouched ls child)
    (hread : stdoutRead [label] = [])
    (hnone : child = none → child' = none ∧ stdoutWritten [label] = []) :
    Untouched (ls ++ [label]) child' where
  child_eq := (hnone h.child_eq).1
  read := by rw [stdoutRead_concat, h.read, hread, List.append_nil]
  written := by rw [stdoutWritten_concat, h.written, (hnone h.child_eq).2, List.append_nil]

namespace Phase

variable {pc : HostPc} {child child' : Option HostChild}

/-- A step that the call has no part in. -/
theorem frame (h : Phase cap s₀ ls child pc) (hread : stdoutRead [label] = [])
    (hnone : child = none → child' = none ∧ stdoutWritten [label] = [])
    (hsome : ∀ c, child = some c → ∃ c', child' = some c' ∧ c.Follows label c') :
    Phase cap s₀ (ls ++ [label]) child' pc := by
  have hsame : stdoutRead (ls ++ [label]) = stdoutRead ls := by
    rw [stdoutRead_concat, hread, List.append_nil]
  cases pc with
  | checking => exact h.follow hread hnone
  | spawning => exact h.follow hread hnone
  | selecting l =>
      obtain ⟨c, hchild, hsound⟩ := h
      obtain ⟨c', hchild', hfollow⟩ := hsome c hchild
      exact ⟨c', hchild', hsound.follow hread hfollow⟩
  | ticking l =>
      obtain ⟨c, hchild, hsound⟩ := h
      obtain ⟨c', hchild', hfollow⟩ := hsome c hchild
      exact ⟨c', hchild', hsound.follow hread hfollow⟩
  | leaving l =>
      obtain ⟨c, hchild, hsound, hboth⟩ := h
      obtain ⟨c', hchild', hfollow⟩ := hsome c hchild
      exact ⟨c', hchild', hsound.follow hread hfollow, hboth⟩
  | returned answer =>
      cases answer with
      | ok text =>
          obtain ⟨c, hchild, hdelivered⟩ := h
          obtain ⟨c', hchild', hfollow⟩ := hsome c hchild
          exact ⟨c', hchild', hdelivered.follow hread hfollow⟩
      | error e =>
          unfold Phase
          rw [hsame]
          exact h
  | panicked =>
      unfold Phase
      rw [hsame]
      exact h

/-- The end of a turn. -/
theorem turn {c : HostChild} (hsound : l.Sound cap c ls) : Phase cap s₀ ls (some c) l.next := by
  unfold HostLoop.next
  split
  · next hboth => exact ⟨c, rfl, hsound, Bool.and_eq_true_iff.mp hboth⟩
  · exact ⟨c, rfl, hsound⟩

/-- An error other than the overflow, when what was read fits. -/
theorem fail {e : Error} (hfits : (stdoutRead ls).length ≤ cap.toNat)
    (he : ∀ cap, e ≠ .logBufferOverflow cap) : Phase cap s₀ ls child (.returned (.error e)) :=
  iff_of_false (Nat.not_lt.mpr hfits) (he cap)

/-- What was read fits, except where the call has returned the overflow. -/
theorem overflow_iff (h : Phase cap s₀ ls child pc) :
    cap.toNat < (stdoutRead ls).length ↔ pc = .returned (.error (.logBufferOverflow cap)) := by
  have hfit : (stdoutRead ls).length ≤ cap.toNat →
      pc ≠ .returned (.error (.logBufferOverflow cap)) →
      (cap.toNat < (stdoutRead ls).length ↔ pc = .returned (.error (.logBufferOverflow cap))) :=
    fun hfits hne => iff_of_false (Nat.not_lt.mpr hfits) hne
  cases pc with
  | checking => exact hfit (by rw [h.read]; exact Nat.zero_le _) nofun
  | spawning => exact hfit (by rw [h.read]; exact Nat.zero_le _) nofun
  | selecting l =>
      obtain ⟨c, -, hsound⟩ := h
      exact hfit hsound.fits nofun
  | ticking l =>
      obtain ⟨c, -, hsound⟩ := h
      exact hfit hsound.fits nofun
  | leaving l =>
      obtain ⟨c, -, hsound, -⟩ := h
      exact hfit hsound.fits nofun
  | returned answer =>
      cases answer with
      | ok text =>
          obtain ⟨c, -, hdelivered⟩ := h
          exact hfit hdelivered.fits nofun
      | error e => exact h.trans (by rw [HostPc.returned.injEq, Except.error.injEq])
  | panicked => exact hfit h nofun

end Phase

end

/-! ## Answers -/

theorem utf8_of_fromUTF8? {bytes : List UInt8} {text : String}
    (h : String.fromUTF8? ⟨⟨bytes⟩⟩ = some text) : utf8 text = bytes := by
  unfold String.fromUTF8? at h
  split at h
  · obtain rfl := Option.some.inj h
    rfl
  · cases h

theorem saturatingAdd_of_lt {a b : Nat} (h : a + b < 2 ^ 64) : saturatingAdd a b = a + b := by
  rw [saturatingAdd]
  omega

namespace HostLoop

variable {texts : HostTexts} {l : HostLoop} {cancelled : Bool} {text : String} {e : Error}

/-- An answer that is not an error. -/
theorem answer_ok (h : l.answer texts cancelled = .ok text) :
    (∃ status, l.status = some status ∧ status.success = true) ∧ cancelled = false
      ∧ utf8 text = l.bytes.toList := by
  obtain ⟨status, hstatus, h⟩ := bind_eq_ok.mp h
  obtain ⟨hcancel, h⟩ := ite_error_eq_ok.mp h
  obtain ⟨hsuccess, h⟩ := ite_error_eq_ok.mp h
  rw [Bool.not_eq_true, Bool.not_eq_false'] at hsuccess
  rw [Bool.not_eq_true, Bool.or_eq_false_iff] at hcancel
  refine ⟨⟨status, okOr_eq_ok.mp hstatus, hsuccess⟩, hcancel.2, ?_⟩
  split at h
  · next s hs =>
      obtain rfl := Except.ok.inj h
      exact utf8_of_fromUTF8? hs
  · cases h

/-- The errors after the loop are `JobSpawn`. -/
theorem answer_error (h : l.answer texts cancelled = .error e) (cap : Usize) :
    e ≠ .logBufferOverflow cap := by
  rintro rfl
  unfold answer at h
  cases hstatus : l.status with
  | none =>
      rw [hstatus] at h
      cases Except.error.inj h
  | some status =>
      simp only [hstatus, okOr, bind, Except.bind] at h
      split at h
      · cases Except.error.inj h
      split at h
      · cases Except.error.inj h
      split at h
      · cases h
      · cases Except.error.inj h

theorem answer_cancelled {status : ExitStatus} (hstatus : l.status = some status) :
    l.answer texts true = .error cancelledError := by
  simp only [answer, hstatus, okOr, bind, Except.bind, Bool.or_true, if_true]

end HostLoop

/-- No spawn fails with an overflow. -/
theorem spawnHost_error {env : Env} {args : HostArgs} {e : Error}
    (h : spawnHost env args = .error e) (cap : Usize) : e ≠ .logBufferOverflow cap := by
  rintro rfl
  unfold spawnHost at h
  cases happly : applyPolicy env args.policy (hostCommand args.cwd args.resolved) with
  | error e =>
      rw [happly] at h
      obtain rfl := Except.error.inj h
      unfold applyPolicy at happly
      cases hmap : args.policy.apply env.toKernel (hostCommand args.cwd args.resolved) with
      | ok cmd => rw [hmap] at happly; cases happly
      | error e => rw [hmap] at happly; cases e <;> cases Except.error.inj happly
  | ok cmd =>
      rw [happly] at h
      simp only [bind, Except.bind] at h
      cases hspawn : env.spawn cmd with
      | error e => rw [hspawn] at h; cases Except.error.inj h
      | ok u =>
          rw [hspawn] at h
          simp only [Except.mapError] at h
          split at h
          · cases h
          · cases Except.error.inj h

/-! ## The invariant -/

/-- What a run from `s₀` has to do with the state it leads to. -/
structure HostInv (cap : Usize) (s₀ : HostCall) (ls : List HostLabel) (s : HostCall) : Prop where
  flag : s.cancelled = true ↔ Flagged s₀ ls
  phase : Phase cap s₀ ls s.child s.pc

/-- The loop's own steps leave pipe and exit of the child alone. -/
theorem HostChild.follows_kill (child : HostChild) (kill : Bool) (label : HostLabel)
    (hwritten : stdoutWritten [label] = []) :
    child.Follows label { child with sigkilled := child.sigkilled || kill } where
  buffered := by rw [hwritten, List.append_nil]
  ended := id
  exited _ := id

namespace HostInv

variable {texts : HostTexts} {args : HostArgs} {s₀ s s' : HostCall} {ls : List HostLabel}
  {label : HostLabel} {cap : Usize}

theorem init (h : (hostSystem texts args).init s₀) : HostInv cap s₀ [] s₀ where
  flag := by simp [Flagged]
  phase := by
    obtain ⟨hpc, hchild⟩ := h
    rw [hpc]
    exact ⟨hchild, rfl, rfl⟩

/-- A step that does not set the flag. -/
theorem of_phase (h : HostInv cap s₀ ls s) (hcancelled : s'.cancelled = s.cancelled)
    (hlabel : label ≠ .cancel) (hphase : Phase cap s₀ (ls ++ [label]) s'.child s'.pc) :
    HostInv cap s₀ (ls ++ [label]) s' where
  flag := by
    rw [hcancelled, h.flag, flagged_concat, or_iff_left hlabel]
  phase := hphase

variable {l : HostLoop} {child child' : HostChild}

/-- A step of the child. -/
theorem child_step (h : HostInv cap s₀ ls s) (hchild : s.child = some child)
    (hlabel : label ≠ .cancel) (hread : stdoutRead [label] = [])
    (hfollow : child.Follows label child') :
    HostInv cap s₀ (ls ++ [label]) { s with child := some child' } := by
  refine h.of_phase rfl hlabel (h.phase.frame hread ?_ ?_)
  · rw [hchild]
    nofun
  · intro c hc
    obtain rfl := Option.some.inj (hchild.symm.trans hc)
    exact ⟨child', rfl, hfollow⟩

/-- Before the spawn. -/
theorem untouched (h : HostInv cap s₀ ls s) (hpc : s.pc = .checking ∨ s.pc = .spawning)
    (hread : stdoutRead [label] = []) (hwritten : stdoutWritten [label] = []) :
    Untouched (ls ++ [label]) s.child := by
  have hphase := h.phase
  have hbefore : Untouched ls s.child := by
    rcases hpc with hpc | hpc
    · rw [hpc] at hphase
      exact hphase
    · rw [hpc] at hphase
      exact hphase
  exact hbefore.follow hread fun hnone => ⟨hnone, hwritten⟩

/-- In the loop. -/
theorem sound (h : HostInv cap s₀ ls s) (hpc : s.pc = .selecting l ∨ s.pc = .ticking l)
    (hchild : s.child = some child) : l.Sound cap child ls := by
  have hphase := h.phase
  have hloop : ∃ c, s.child = some c ∧ l.Sound cap c ls := by
    rcases hpc with hpc | hpc
    · rw [hpc] at hphase
      exact hphase
    · rw [hpc] at hphase
      exact hphase
  obtain ⟨c, hc, hsound⟩ := hloop
  obtain rfl := Option.some.inj (hchild.symm.trans hc)
  exact hsound

/-- A read, which may end the call. -/
theorem read (h : HostInv cap s₀ ls s) {result : Except ErrorText (List UInt8)}
    (hpc : s.pc = .selecting l)
    (hchild : s.child = some child) (hdone : l.stdoutDone = false)
    (hoffers : child.stdout.offers result = true) :
    HostInv cap s₀ (ls ++ [.read result])
      (s.move { child with stdout := child.stdout.consume result } (l.onRead cap result)) := by
  refine h.of_phase rfl nofun ?_
  have hsound := h.sound (Or.inl hpc) hchild
  have hwritten : stdoutWritten (ls ++ [.read result]) = stdoutWritten ls := by
    rw [stdoutWritten_concat]
    exact List.append_nil _
  cases result with
  | error e =>
      have hread : stdoutRead (ls ++ [.read (.error e)]) = stdoutRead ls := by
        rw [stdoutRead_concat]
        exact List.append_nil _
      exact Phase.fail (by rw [hread]; exact hsound.fits) nofun
  | ok chunk =>
      have hread : stdoutRead (ls ++ [.read (.ok chunk)]) = stdoutRead ls ++ chunk := by
        rw [stdoutRead_concat]
        exact congrArg (stdoutRead ls ++ ·) (List.append_nil chunk)
      cases chunk with
      | nil =>
          -- The end of the pipe: nobody can write any more.
          obtain ⟨hempty, hclosed⟩ := Bool.and_eq_true_iff.mp hoffers
          rw [List.isEmpty_iff] at hempty
          rw [Bool.not_eq_true'] at hclosed
          rw [List.append_nil] at hread
          refine Phase.turn ⟨?_, ?_, ?_, fun _ => ⟨?_, ?_⟩, hsound.exited⟩
          · rw [hread, hsound.bytes_eq]
          · rw [hread]
            exact hsound.fits
          · rw [hread, hwritten, hsound.written]
            rfl
          · exact List.mem_append_right _ (List.mem_singleton_self _)
          · exact congrArg₂ PipeEnd.mk (by rw [hempty]; rfl) hclosed
      | cons b chunk =>
          obtain ⟨hsize, hbuffered⟩ := Bool.and_eq_true_iff.mp hoffers
          rw [decide_eq_true_eq] at hsize
          obtain ⟨rest, hrest⟩ := List.isPrefixOf_iff_prefix.mp hbuffered
          have hlen : l.bytes.len = (stdoutRead ls).length := by
            rw [← hsound.bytes_eq, Bytes.len]
          have hadd : saturatingAdd l.bytes.len (b :: chunk).length
              = (stdoutRead ls ++ b :: chunk).length := by
            rw [saturatingAdd_of_lt, List.length_append, hlen]
            have := l.bytes.len_lt
            simp only [drainBufSize] at hsize
            omega
          simp only [HostCall.move, HostLoop.onRead, hadd]
          split
          · next hover =>
              rw [← hread] at hover
              exact iff_of_true hover rfl
          · next hfits =>
              rw [Nat.not_lt] at hfits
              split
              · next bytes hbytes =>
                  have hbytes : bytes.toList = l.bytes.toList ++ b :: chunk := by
                    unfold Bytes.ofList? at hbytes
                    split at hbytes
                    · rw [← Option.some.inj hbytes]
                    · cases hbytes
                  refine Phase.turn ⟨?_, ?_, ?_, ?_, hsound.exited⟩
                  · rw [hread, hbytes, hsound.bytes_eq]
                  · rw [hread]
                    exact hfits
                  · have hconsume : (child.stdout.consume (.ok (b :: chunk))).buffered = rest := by
                      simp only [PipeEnd.consume, ← hrest]
                      exact List.drop_left
                    rw [hread, hwritten, hsound.written, ← hrest, hconsume, List.append_assoc]
                  · intro hdone'
                    exact absurd (hdone.symm.trans hdone') Bool.false_ne_true
              · exact (congrArg List.length hread).trans_le hfits

/-- A turn of the loop begins. -/
theorem tick (h : HostInv cap s₀ ls s) (hpc : s.pc = .selecting l)
    (hchild : s.child = some child) :
    HostInv cap s₀ (ls ++ [.tick]) (s.move child (l.onTick s.cancelled)) := by
  refine h.of_phase rfl nofun ?_
  have hsound := (h.sound (Or.inl hpc) hchild).follow rfl
    (child.follows_kill (l.onTick s.cancelled).kill .tick rfl)
  unfold HostCall.move HostLoop.onTick at *
  split
  · next hkill =>
      rw [if_pos hkill] at hsound
      exact ⟨_, rfl, hsound.bytes_eq, hsound.fits, hsound.written, hsound.done, hsound.exited⟩
  · next hkill =>
      rw [if_neg hkill] at hsound
      exact ⟨_, rfl, hsound⟩

/-- The exit of the child is noted, if there is one. -/
theorem waited (h : HostInv cap s₀ ls s) (hpc : s.pc = .ticking l)
    (hchild : s.child = some child) :
    HostInv cap s₀ (ls ++ [.tryWait none]) (s.move child (l.onTryWait (.ok child.exit))) := by
  refine h.of_phase rfl nofun ?_
  have hsound := (h.sound (Or.inr hpc) hchild).follow rfl
    (child.follows_kill (l.onTryWait (.ok child.exit)).kill (.tryWait none) rfl)
  unfold HostCall.move
  cases hexit : child.exit with
  | none =>
      rw [hexit] at hsound
      exact Phase.turn hsound
  | some es =>
      rw [hexit] at hsound
      exact Phase.turn ⟨hsound.bytes_eq, hsound.fits, hsound.written, hsound.done, fun _ => id⟩

/-- The answer after the loop. -/
theorem finish (h : HostInv cap s₀ ls s) (hpc : s.pc = .leaving l) :
    HostInv cap s₀ (ls ++ [.finish])
      { s with pc := .returned (l.answer texts s.cancelled) } := by
  refine h.of_phase rfl nofun ?_
  have hphase := h.phase
  rw [hpc] at hphase
  obtain ⟨c, hchild, hsound, -, hdone⟩ := hphase
  have hfollow : c.Follows .finish c := ⟨(List.append_nil _).symm, id, fun _ => id⟩
  have hsound := hsound.follow rfl hfollow
  dsimp only
  cases hanswer : l.answer texts s.cancelled with
  | error e => exact Phase.fail hsound.fits (HostLoop.answer_error hanswer)
  | ok text =>
      obtain ⟨⟨status, hstatus, hsuccess⟩, hunset, htext⟩ := HostLoop.answer_ok hanswer
      obtain ⟨hended, hclosed⟩ := hsound.done hdone
      refine ⟨c, hchild, ⟨status, hsound.exited status hstatus, hsuccess⟩, ⟨hended, hclosed⟩,
        htext.trans hsound.bytes_eq, ?_, hsound.fits, ls, [], rfl, ?_⟩
      · rw [hsound.written, hclosed, List.append_nil]
      · rw [← h.flag, hunset]
        exact Bool.false_ne_true

theorem step (h : HostInv args.stdoutByteCap s₀ ls s)
    (hs : (hostSystem texts args).step s label = some s') :
    HostInv args.stdoutByteCap s₀ (ls ++ [label]) s' := by
  cases hostStep_effect hs with
  | cancel =>
      refine ⟨iff_of_true rfl (flagged_concat.mpr (Or.inr rfl)), ?_⟩
      refine h.phase.frame rfl (fun hnone => ⟨hnone, rfl⟩) fun c hc => ⟨c, hc, ?_⟩
      exact ⟨(List.append_nil _).symm, id, fun _ => id⟩
  | childWrite child bytes hchild hopen =>
      refine h.child_step hchild nofun rfl ⟨?_, fun hclosed => ?_, fun _ => id⟩
      · exact congrArg (_ ++ ·) (List.append_nil bytes).symm
      · rw [hclosed] at hopen
        cases hopen
  | childClose child hchild =>
      refine h.child_step hchild nofun rfl ⟨?_, fun hclosed => ?_, fun _ => id⟩
      · exact (List.append_nil _).symm
      · rw [hclosed]
  | childExit child status hchild hexit =>
      refine h.child_step hchild nofun rfl ⟨?_, id, fun es hes => ?_⟩
      · exact (List.append_nil _).symm
      · rw [hexit] at hes
        cases hes
  | check hpc =>
      have huntouched : Untouched (ls ++ [.check]) s.child := h.untouched (Or.inl hpc) rfl rfl
      refine h.of_phase rfl nofun ?_
      cases s.cancelled with
      | true => exact Phase.fail (by rw [huntouched.read]; exact Nat.zero_le _) nofun
      | false => exact huntouched
  | spawned env hpc hspawn =>
      have huntouched : Untouched (ls ++ [.spawn env]) s.child := h.untouched (Or.inr hpc) rfl rfl
      refine h.of_phase rfl nofun ⟨.start, rfl, ?_, ?_, ?_, nofun, nofun⟩
      · rw [huntouched.read]
        rfl
      · rw [huntouched.read]
        exact Nat.zero_le _
      · rw [huntouched.read, huntouched.written]
        rfl
  | refused env e hpc hspawn =>
      have huntouched : Untouched (ls ++ [.spawn env]) s.child := h.untouched (Or.inr hpc) rfl rfl
      refine h.of_phase rfl nofun (Phase.fail ?_ (spawnHost_error hspawn))
      rw [huntouched.read]
      exact Nat.zero_le _
  | tick l child hpc hchild => exact h.tick hpc hchild
  | waited l child hpc hchild => exact h.waited hpc hchild
  | waitFailed l child e hpc hchild =>
      have hsound := (h.sound (Or.inr hpc) hchild).follow rfl
        (child.follows_kill true (.tryWait (some e)) rfl)
      exact h.of_phase rfl nofun (Phase.fail hsound.fits nofun)
  | read l child result hpc hchild hdone hoffers => exact h.read hpc hchild hdone hoffers
  | finish l hpc => exact h.finish hpc

theorem run (h₀ : (hostSystem texts args).init s₀)
    (hrun : (hostSystem texts args).run s₀ ls = some s) :
    HostInv args.stdoutByteCap s₀ ls s :=
  System.run_history (init h₀) (fun _ _ _ _ hinv hs => hinv.step hs) hrun

end HostInv

/-! ## What a call returns -/

namespace HostCall

variable {texts : HostTexts} {args : HostArgs} {s₀ s s' : HostCall} {ls : List HostLabel}
  {label : HostLabel}

/-- An answer is final. -/
theorem returned_step {answer : Result String} (h : s.pc = .returned answer)
    (hs : (hostSystem texts args).step s label = some s') : s'.pc = .returned answer := by
  cases hostStep_effect hs with
  | cancel => exact h
  | childWrite child bytes hchild hopen => exact h
  | childClose child hchild => exact h
  | childExit child status hchild hexit => exact h
  | check hpc => cases hpc.symm.trans h
  | spawned env hpc hspawn => cases hpc.symm.trans h
  | refused env e hpc hspawn => cases hpc.symm.trans h
  | tick l child hpc hchild => cases hpc.symm.trans h
  | waited l child hpc hchild => cases hpc.symm.trans h
  | waitFailed l child e hpc hchild => cases hpc.symm.trans h
  | read l child result hpc hchild hdone hoffers => cases hpc.symm.trans h
  | finish l hpc => cases hpc.symm.trans h

/-- A call whose flag is set from the start. -/
structure Refused (s : HostCall) : Prop where
  cancelled : s.cancelled = true
  child : s.child = none
  pc : s.pc = .checking ∨ s.pc = .returned (.error cancelledError)

theorem Refused.step (h : s.Refused) (hs : (hostSystem texts args).step s label = some s') :
    s'.Refused := by
  obtain ⟨hcancelled, hnone, hpc⟩ := h
  have hno : ∀ child, s.child ≠ some child := by
    rw [hnone]
    nofun
  cases hostStep_effect hs with
  | cancel => exact ⟨rfl, hnone, hpc⟩
  | childWrite child bytes hchild hopen => exact absurd hchild (hno child)
  | childClose child hchild => exact absurd hchild (hno child)
  | childExit child status hchild hexit => exact absurd hchild (hno child)
  | check hcheck => exact ⟨hcancelled, hnone, Or.inr (by rw [hcancelled]; rfl)⟩
  | spawned env hspawning hspawn => rw [hspawning] at hpc; simp at hpc
  | refused env e hspawning hspawn => rw [hspawning] at hpc; simp at hpc
  | tick l child hselect hchild => exact absurd hchild (hno child)
  | waited l child htick hchild => exact absurd hchild (hno child)
  | waitFailed l child e htick hchild => exact absurd hchild (hno child)
  | read l child result hselect hchild hdone hoffers => exact absurd hchild (hno child)
  | finish l hleave => rw [hleave] at hpc; simp at hpc

end HostCall

/-- What a run of a host call over the labels `ls` has come to. -/
structure HostOutcome (texts : HostTexts) (args : HostArgs) (s₀ : HostCall) (ls : List HostLabel)
    (s : HostCall) : Prop where
  /-- An output is all of the output of a child that has exited well. -/
  delivered : ∀ text, s.pc = .returned (.ok text) → ∃ child, s.child = some child
    ∧ Delivered args.stdoutByteCap s₀ ls child text
  overflow : args.stdoutByteCap.toNat < (stdoutRead ls).length
    ↔ s.pc = .returned (.error (.logBufferOverflow args.stdoutByteCap))
  /-- With the flag set before the call nothing is spawned, and the first step
  is its end. -/
  refused : s₀.cancelled = true → s.child = none
    ∧ (s.pc = .checking ∨ s.pc = .returned (.error cancelledError))
    ∧ (hostSystem texts args).step s₀ .check
      = some { s₀ with pc := .returned (.error cancelledError) }
  /-- With the flag set before the final look at it the call is cancelled. -/
  late : ∀ before after, ls = before ++ .finish :: after → Flagged s₀ before →
    s.pc = .returned (.error cancelledError)

/-- Every run of `run_resolved_command`, however its ticks, its reads, the exit
of its child and a cancellation are interleaved: it returns an output only if
the child has exited successfully and its pipe has ended, and then all of it,
within the cap; beyond the cap it returns the overflow; and it returns no
output under a flag that was set before the call or before its final look. -/
theorem host_call_is_whole {texts : HostTexts} {args : HostArgs} {s₀ s : HostCall}
    {ls : List HostLabel} (h₀ : (hostSystem texts args).init s₀)
    (hrun : (hostSystem texts args).run s₀ ls = some s) : HostOutcome texts args s₀ ls s := by
  have hinv := HostInv.run h₀ hrun
  refine ⟨?_, ?_, ?_, ?_⟩
  · intro text hpc
    have hphase := hinv.phase
    rw [hpc] at hphase
    exact hphase
  · exact hinv.phase.overflow_iff
  · intro hset
    obtain ⟨hpc, hnone⟩ := h₀
    have hrefused : s.Refused := by
      refine run_invariant (fun t l t' ht hs => HostCall.Refused.step ht hs) ?_ hrun
      exact ⟨hset, hnone, Or.inl hpc⟩
    refine ⟨hrefused.child, hrefused.pc, ?_⟩
    simp only [hostSystem, HostCall.step, hpc, hset]
    rfl
  · intro before after hls hflag
    rw [hls] at hrun
    obtain ⟨m, hbefore, hafter⟩ := System.run_append.mp hrun
    obtain ⟨m', hfinish, hrest⟩ := System.run_cons.mp hafter
    have hinv := HostInv.run h₀ hbefore
    have hstays : m'.pc = .returned (.error cancelledError) := by
      have hset := hinv.flag.mpr hflag
      have hphase := hinv.phase
      cases hostStep_effect hfinish with
      | finish l hpc =>
          rw [hpc] at hphase
          obtain ⟨c, -, -, hstatus, -⟩ := hphase
          obtain ⟨status, hstatus⟩ := Option.isSome_iff_exists.mp hstatus
          rw [hset, HostLoop.answer_cancelled hstatus]
    exact run_invariant (fun t l t' ht hs => HostCall.returned_step ht hs) hstays hrest

/-- A command of a call with a cap of four bytes. -/
def echoArgs : HostArgs where
  resolved := { program := "echo", args := ["hi"] }
  cwd := .ofString "/proj"
  stdoutByteCap := 4
  policy := ⟨.devNone, [], [], true, false⟩

def plainTexts : HostTexts := ⟨fun _ => "exit status: 1", fun _ => "invalid utf-8 sequence"⟩

/-- The child exits before its output is read, and the flag is set after the
last look at it. -/
def echoRun : List HostLabel :=
  [.check, .spawn plainHost, .childWrite (utf8 "hi"), .childExit ⟨0⟩, .childClose, .tick,
    .tryWait none, .read (.ok (utf8 "h")), .read (.ok (utf8 "i")), .read (.ok []), .finish, .cancel]

/-- What the call has returned, if it is an output. -/
def HostPc.output : HostPc → Option String
  | .returned (.ok text) => some text
  | _ => none

theorem HostPc.output_eq_some {pc : HostPc} {text : String} (h : pc.output = some text) :
    pc = .returned (.ok text) := by
  unfold output at h
  split at h
  · rw [Option.some.inj h]
  · cases h

/-- The output is whole. -/
theorem host_call_is_whole_exited_first : ∃ s child,
    (hostSystem plainTexts echoArgs).run ⟨.checking, false, none⟩ echoRun = some s
      ∧ s.child = some child ∧ s.cancelled = true
      ∧ Delivered 4 ⟨.checking, false, none⟩ echoRun child "hi" := by
  have hend : ((hostSystem plainTexts echoArgs).run ⟨.checking, false, none⟩ echoRun).map
      (fun s => (s.pc.output, s.cancelled)) = some (some "hi", true) := by decide +kernel
  obtain ⟨s, hs, hend⟩ := Option.map_eq_some_iff.mp hend
  obtain ⟨houtput, hcancelled⟩ := Prod.mk.inj hend
  obtain ⟨child, hchild, hdelivered⟩ :=
    (host_call_is_whole ⟨rfl, rfl⟩ hs).delivered "hi" (HostPc.output_eq_some houtput)
  exact ⟨s, child, hs, hchild, hcancelled, hdelivered⟩

/-! ## The call of a component -/

/-- The call an `invoke` makes. -/
def CodeCapabilityContext.hostArgs (self : CodeCapabilityContext) (resolved : ResolvedCommand)
    (policy : SandboxPolicy) : HostArgs where
  resolved := resolved
  cwd := self.cwd
  stdoutByteCap := self.stdoutByteCap
  policy := policy

/-- The pipe of a spawned child is always there. -/
theorem spawnHost_ok_iff {env : Env} {args : HostArgs} : spawnHost env args = .ok () ↔
    ∃ cmd, applyPolicy env args.policy (hostCommand args.cwd args.resolved) = .ok cmd
      ∧ env.spawn cmd = .ok () := by
  constructor
  · intro h
    obtain ⟨cmd, happly, h⟩ := bind_eq_ok.mp h
    obtain ⟨⟨⟩, hspawn, -⟩ := bind_eq_ok.mp h
    exact ⟨cmd, happly, mapError_eq_ok.mp hspawn⟩
  · rintro ⟨cmd, happly, hspawn⟩
    have hpiped : cmd.stdout = .piped := by
      rw [applyPolicy_frame happly]
      rfl
    refine bind_eq_ok.mpr ⟨cmd, happly, bind_eq_ok.mpr ⟨(), mapError_eq_ok.mpr hspawn, ?_⟩⟩
    rw [if_pos hpiped]

/-- The first two steps of a call get to the loop. -/
theorem hostRun_begin_iff {env : Env} {args : HostArgs} {texts : HostTexts} {cancelled : Bool} :
    (hostSystem texts args).run ⟨.checking, cancelled, none⟩ [.check, .spawn env]
        = some ⟨.selecting .start, cancelled, some .start⟩
      ↔ cancelled = false ∧ spawnHost env args = .ok () := by
  cases cancelled with
  | true => exact iff_of_false nofun fun h => nomatch h.1
  | false =>
      cases hspawn : spawnHost env args with
      | ok u => simp [System.run, hostSystem, HostCall.step, hspawn]
      | error e => simp [System.run, hostSystem, HostCall.step, hspawn]

/-- An invoke gets as far as a spawned child exactly if it has its runtime and
its call gets to the loop. -/
theorem invoke_spawns_iff {env : Env} {registry : ProviderRegistry}
    {context : CodeCapabilityContext} {texts : HostTexts} {cancelled : Bool}
    {name paramsJson : String} {policy : SandboxPolicy} :
    (∃ cmd, invokeCodeCapability env registry context cancelled name paramsJson
        = .ok (cmd, policy))
      ↔ env.newRuntime = .ok () ∧ ∃ resolved,
        resolveInvocation env registry context name paramsJson = .ok (resolved, policy)
        ∧ (hostSystem texts (context.hostArgs resolved policy)).run ⟨.checking, cancelled, none⟩
          [.check, .spawn env] = some ⟨.selecting .start, cancelled, some .start⟩ := by
  simp only [hostRun_begin_iff, spawnHost_ok_iff]
  constructor
  · rintro ⟨cmd, h⟩
    obtain ⟨⟨resolved, policy'⟩, hresolved, h⟩ := bind_eq_ok.mp h
    obtain ⟨⟨⟩, hruntime, h⟩ := bind_eq_ok.mp h
    obtain ⟨hunset, h⟩ := ite_error_eq_ok.mp h
    obtain ⟨cmd', happly, h⟩ := bind_eq_ok.mp h
    obtain ⟨⟨⟩, hspawn, h⟩ := bind_eq_ok.mp h
    obtain ⟨rfl, rfl⟩ := Prod.mk.inj (Except.ok.inj h)
    exact ⟨mapError_eq_ok.mp hruntime, resolved, hresolved, Bool.eq_false_iff.mpr hunset, cmd',
      happly, mapError_eq_ok.mp hspawn⟩
  · rintro ⟨hruntime, resolved, hresolved, rfl, cmd, happly, hspawn⟩
    refine ⟨cmd, bind_eq_ok.mpr ⟨(resolved, policy), hresolved, ?_⟩⟩
    refine bind_eq_ok.mpr ⟨(), mapError_eq_ok.mpr hruntime, ?_⟩
    exact bind_eq_ok.mpr ⟨cmd, happly, bind_eq_ok.mpr ⟨(), mapError_eq_ok.mpr hspawn, rfl⟩⟩

end Axp
