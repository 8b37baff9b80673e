import Axp.Discovery
import Axp.Hierarchy
import Axp.PolicyGrants

/-!
# Confined children

The hooks that `apply` leaves on a command restrict the child before it runs
its program. What a hook brings about is the kernel's business: `Enforcer` is
Landlock and seccomp as far as a process can tell, and `Enforcer.Documented`
what their documentation promises.

`may_iff` says what a policy comes to there: the rules of its one ruleset are
the paths that could be opened, with the rights that make sense on each, and
they grant what is at or beneath them. `Grants.confined` says what the grants
of a session come to, by the places that their paths open, and where no path
leads elsewhere, by name. A command that comes back from `apply` with a tier
that is to be enforced has both hooks; there is no other way for it to come
back (`apply_eq_ok`).
-/

namespace Axp

/-! ## The kernel of the child -/

/-- Landlock and seccomp where the child runs: the place of what a path opens,
what the hooks leave a process to do at a place, and the system calls they deny
it. -/
structure Enforcer where
  place : PathBuf → List (List UInt8)
  may : List PreExec → List (List UInt8) → AccessFs → Prop
  denies : List PreExec → Syscall → Prop

/-- A path's rule, where `place` is the place that a path opens. -/
def PathRule.toRule (place : PathBuf → List (List UInt8)) (rule : PathRule) :
    Hierarchy.Rule (List UInt8) AccessFs where
  place := place rule.path
  rights := rule.rights

/-- What is documented of the two. A ruleset leaves the rights alone that it
does not handle, and of those it handles only what a rule grants at the place
or above it; rulesets stack, and so do filters. -/
structure Enforcer.Documented (e : Enforcer) : Prop where
  may_nil : ∀ x right, e.may [] x right
  may_restrictSelf : ∀ hooks handled rules x right,
    e.may (hooks ++ [.restrictSelf handled rules]) x right ↔ e.may hooks x right
      ∧ (right ∈ handled → Hierarchy.Grants (rules.map (·.toRule e.place)) x right)
  may_applyFilter : ∀ hooks denied x right,
    e.may (hooks ++ [.applyFilter denied]) x right ↔ e.may hooks x right
  denies_nil : ∀ c, ¬e.denies [] c
  denies_restrictSelf : ∀ hooks handled rules c,
    e.denies (hooks ++ [.restrictSelf handled rules]) c ↔ e.denies hooks c
  denies_applyFilter : ∀ hooks denied c,
    e.denies (hooks ++ [.applyFilter denied]) c ↔ e.denies hooks c ∨ c ∈ denied

/-! ## What `apply` builds -/

namespace Kernel

/-- The rights of `handle_access`. -/
def handled (k : Kernel) : List AccessFs := k.fromRead ++ k.fromWrite

/-- The path can be opened. -/
def Opens (k : Kernel) (path : PathBuf) : Prop := k.openPath path = .ok ()

instance (k : Kernel) (path : PathBuf) : Decidable (k.Opens path) :=
  match h : k.openPath path with
  | .ok () => .isTrue h
  | .error _ => .isFalse fun hok => by cases h.symm.trans hok

/-- The rule of a path. -/
def pathRule (k : Kernel) (rights : List AccessFs) (path : PathBuf) : PathRule where
  path := path
  rights := if k.isDir path then rights else rights.filter (· ∈ fileRights)

/-- The rules of the paths that can be opened. -/
def pathRules (k : Kernel) (rights : List AccessFs) (paths : List PathBuf) : List PathRule :=
  (paths.filter (k.Opens ·)).map (k.pathRule rights)

/-- The ruleset of a policy. -/
def ruleset (k : Kernel) (policy : SandboxPolicy) : List PathRule :=
  k.pathRules k.fromRead baselineReadPaths ++ k.pathRules k.fromRead policy.fsRead
    ++ k.pathRules k.fromWrite policy.fsWrite

/-- Nothing keeps the host from enforcing the policy: Landlock is there, every
path of the policy can be opened, and the ruleset and the filter can be made. -/
structure Enforces (k : Kernel) (policy : SandboxPolicy) : Prop where
  available : k.landlockAvailable = true
  handles : k.handleAccess k.handled = .ok ()
  creates : k.createRuleset = .ok ()
  opens : ∀ path ∈ policy.fsRead ++ policy.fsWrite, k.Opens path
  adds : ∀ rule ∈ k.ruleset policy, k.addRule rule = .ok ()
  arch : k.targetArch = .ok ()
  builds : k.buildFilter deniedSyscalls = .ok ()
  compiles : k.compileFilter deniedSyscalls = .ok ()

end Kernel

section

variable {k : Kernel} {rights : List AccessFs} {required : Bool} {rules rules' : List PathRule}
  {path : PathBuf} {paths : List PathBuf} {policy : SandboxPolicy} {cmd cmd' : Command}

theorem applyErr_eq_ok {α : Type} {what : String} {x : Except ErrorText α} {a : α} :
    applyErr what x = .ok a ↔ x = .ok a := mapError_eq_ok

theorem addPathRule_opens (h : k.Opens path) :
    addPathRule k rights required rules path = .ok rules' ↔
      k.addRule (k.pathRule rights path) = .ok () ∧ rules' = rules ++ [k.pathRule rights path] := by
  unfold addPathRule
  rw [h]
  simp only [bind_eq_ok, applyErr_eq_ok]
  exact ⟨fun ⟨⟨⟩, hadd, heq⟩ => ⟨hadd, (Except.ok.inj heq).symm⟩,
    fun ⟨hadd, heq⟩ => ⟨(), hadd, congrArg _ heq.symm⟩⟩

theorem addPathRule_skips (h : ¬k.Opens path) :
    addPathRule k rights required rules path = .ok rules' ↔ required = false ∧ rules' = rules := by
  unfold addPathRule
  cases hopen : k.openPath path with
  | ok u => exact absurd hopen h
  | error e => cases required <;> simp [eq_comm]

/-- The loops over the paths: each that can be opened has its rule, and the
others have to be of the kind that need not be there. -/
theorem foldlM_addPathRule_eq_ok :
    paths.foldlM (addPathRule k rights required) rules = .ok rules' ↔
      (∀ p ∈ paths, required = true → k.Opens p)
        ∧ (∀ rule ∈ k.pathRules rights paths, k.addRule rule = .ok ())
        ∧ rules' = rules ++ k.pathRules rights paths := by
  induction paths generalizing rules with
  | nil => simp [Kernel.pathRules, pure, Except.pure, eq_comm]
  | cons path paths ih =>
      rw [List.foldlM_cons, bind_eq_ok]
      by_cases hopen : k.Opens path
      · have hrules : k.pathRules rights (path :: paths)
            = k.pathRule rights path :: k.pathRules rights paths := by
          simp [Kernel.pathRules, hopen]
        simp only [addPathRule_opens hopen, ih, hrules, List.forall_mem_cons]
        constructor
        · rintro ⟨_, ⟨hadd, rfl⟩, hall, hadds, rfl⟩
          exact ⟨⟨fun _ => hopen, hall⟩, ⟨hadd, hadds⟩, by simp⟩
        · rintro ⟨⟨-, hall⟩, ⟨hadd, hadds⟩, rfl⟩
          exact ⟨_, ⟨hadd, rfl⟩, hall, hadds, by simp⟩
      · have hrules : k.pathRules rights (path :: paths) = k.pathRules rights paths := by
          simp [Kernel.pathRules, hopen]
        simp only [addPathRule_skips hopen, ih, hrules, List.forall_mem_cons]
        constructor
        · rintro ⟨_, ⟨hreq, rfl⟩, hall, hadds, rfl⟩
          exact ⟨⟨fun h => absurd (hreq.symm.trans h) (by decide), hall⟩, hadds, rfl⟩
        · rintro ⟨⟨hreq, hall⟩, hadds, rfl⟩
          exact ⟨_, ⟨Bool.eq_false_iff.mpr fun h => hopen (hreq h), rfl⟩, hall, hadds, rfl⟩

theorem enforce_eq_ok : enforce k policy cmd = .ok cmd' ↔
    k.landlockAvailable = true ∧ k.handleAccess k.handled = .ok ()
      ∧ k.createRuleset = .ok () ∧ (∀ path ∈ policy.fsRead ++ policy.fsWrite, k.Opens path)
      ∧ (∀ rule ∈ k.ruleset policy, k.addRule rule = .ok ())
      ∧ cmd' = { cmd with
          preExec := cmd.preExec ++ [.restrictSelf k.handled (k.ruleset policy)] } := by
  unfold enforce
  rw [← Kernel.handled]
  simp only [ite_error_eq_ok, bind_eq_ok, applyErr_eq_ok, foldlM_addPathRule_eq_ok,
    List.forall_mem_append, Kernel.ruleset, Bool.not_eq_false]
  constructor
  · rintro ⟨havail, ⟨⟩, hhandle, ⟨⟩, hcreate, _, ⟨-, hbase, rfl⟩, _, ⟨hread, hadd, rfl⟩, _,
      ⟨hwrite, hadd', rfl⟩, heq⟩
    obtain rfl := Except.ok.inj heq
    exact ⟨havail, hhandle, hcreate,
      ⟨fun p hp => hread p hp trivial, fun p hp => hwrite p hp trivial⟩, ⟨⟨hbase, hadd⟩, hadd'⟩,
      rfl⟩
  · rintro ⟨havail, hhandle, hcreate, ⟨hread, hwrite⟩, ⟨⟨hbase, hadd⟩, hadd'⟩, rfl⟩
    exact ⟨havail, (), hhandle, (), hcreate, _, ⟨fun _ _ h => absurd h (by decide), hbase, rfl⟩, _,
      ⟨fun p hp _ => hread p hp, hadd, rfl⟩, _, ⟨fun p hp _ => hwrite p hp, hadd', rfl⟩, rfl⟩

/-- The ways for a command to come back from `apply`: as it was, where nothing
is to be enforced, or with both hooks. -/
theorem apply_eq_ok : policy.apply k cmd = .ok cmd' ↔
    (policy.tier = .devNone ∧ cmd' = cmd) ∨
      (policy.tier = .kernelLsm ∧ k.Enforces policy
        ∧ cmd' = { cmd with preExec := cmd.preExec ++
            [.restrictSelf k.handled (k.ruleset policy), .applyFilter deniedSyscalls] }) := by
  unfold SandboxPolicy.apply
  cases htier : policy.tier with
  | devNone => simp [eq_comm]
  | container => simp
  | processToken => simp
  | kernelLsm =>
      simp only [bind_eq_ok, enforce_eq_ok, applySeccomp, applyErr_eq_ok, reduceCtorEq, false_and,
        false_or, true_and]
      constructor
      · rintro ⟨_, ⟨havail, hhandle, hcreate, hopens, hadds, rfl⟩, ⟨⟩, harch, ⟨⟩, hbuild, ⟨⟩,
          hcompile, heq⟩
        obtain rfl := Except.ok.inj heq
        exact ⟨⟨havail, hhandle, hcreate, hopens, hadds, harch, hbuild, hcompile⟩, by simp⟩
      · rintro ⟨h, rfl⟩
        exact ⟨_, ⟨h.available, h.handles, h.creates, h.opens, h.adds, rfl⟩, (), h.arch, (),
          h.builds, (), h.compiles, by simp [pure, Except.pure]⟩

end

/-! ## What the child may do -/

/-- The right is for a place at or beneath what one of the paths opens; beneath
a path that is no directory there is only the file. -/
def Kernel.Reaches (k : Kernel) (place : PathBuf → List (List UInt8)) (paths : PathBuf → Prop)
    (x : List (List UInt8)) (right : AccessFs) : Prop :=
  ∃ p, paths p ∧ k.Opens p ∧ place p <+: x ∧ (k.isDir p = true ∨ right ∈ fileRights)

section

variable {k : Kernel} {place : PathBuf → List (List UInt8)} {x : List (List UInt8)}
  {right : AccessFs}

theorem grants_pathRules_iff {rights : List AccessFs} {paths : List PathBuf} :
    Hierarchy.Grants ((k.pathRules rights paths).map (·.toRule place)) x right ↔
      right ∈ rights ∧ k.Reaches place (· ∈ paths) x right := by
  have hmem : ∀ p, right ∈ (k.pathRule rights p).rights ↔
      right ∈ rights ∧ (k.isDir p = true ∨ right ∈ fileRights) := by
    intro p
    cases hdir : k.isDir p <;> simp [Kernel.pathRule, hdir]
  simp only [Kernel.pathRules, List.map_map, Hierarchy.grants_map, List.mem_filter,
    decide_eq_true_eq, Function.comp_apply, PathRule.toRule, hmem, Kernel.Reaches]
  constructor
  · rintro ⟨p, ⟨hp, hopen⟩, hbeneath, hright, hkind⟩
    exact ⟨hright, p, hp, hopen, hbeneath, hkind⟩
  · rintro ⟨hright, p, hp, hopen, hbeneath, hkind⟩
    exact ⟨p, ⟨hp, hopen⟩, hbeneath, hright, hkind⟩

theorem reaches_or {paths paths' : PathBuf → Prop} :
    k.Reaches place (fun p => paths p ∨ paths' p) x right ↔
      k.Reaches place paths x right ∨ k.Reaches place paths' x right := by
  simp only [Kernel.Reaches, or_and_right, exists_or]

variable {e : Enforcer} {policy : SandboxPolicy} {cmd cmd' : Command}

/-- A command without hooks has the two hooks of its policy, if that is to be
enforced. -/
theorem apply_hooks (happly : policy.apply k cmd = .ok cmd') (htier : policy.tier = .kernelLsm)
    (hbare : cmd.preExec = []) : k.Enforces policy ∧ cmd'.preExec
      = [] ++ [.restrictSelf k.handled (k.ruleset policy)] ++ [.applyFilter deniedSyscalls] := by
  obtain ⟨hnone, -⟩ | ⟨-, henforces, rfl⟩ := apply_eq_ok.mp happly
  · rw [htier] at hnone
    cases hnone
  · exact ⟨henforces, by rw [hbare]; rfl⟩

/-- What a policy comes to in the kernel. Of the rights that are handled: one to
read at what is at or beneath the system's paths and the policy's paths to read,
and one to write at what is at or beneath its paths to write. -/
theorem may_iff (he : e.Documented) (happly : policy.apply k cmd = .ok cmd')
    (htier : policy.tier = .kernelLsm) (hbare : cmd.preExec = []) :
    e.may cmd'.preExec x right ↔ (right ∈ k.handled →
      (right ∈ k.fromRead
          ∧ k.Reaches e.place (fun p => p ∈ baselineReadPaths ∨ p ∈ policy.fsRead) x right)
        ∨ (right ∈ k.fromWrite ∧ k.Reaches e.place (· ∈ policy.fsWrite) x right)) := by
  rw [(apply_hooks happly htier hbare).2, he.may_applyFilter, he.may_restrictSelf,
    and_iff_right (he.may_nil x right), Kernel.ruleset, List.map_append, List.map_append,
    Hierarchy.grants_append, Hierarchy.grants_append, grants_pathRules_iff, grants_pathRules_iff,
    grants_pathRules_iff, ← and_or_left, reaches_or]

/-- The system calls of the filter, and no others, are denied. -/
theorem denies_iff (he : e.Documented) (happly : policy.apply k cmd = .ok cmd')
    (htier : policy.tier = .kernelLsm) (hbare : cmd.preExec = []) {c : Syscall} :
    e.denies cmd'.preExec c ↔ c ∈ deniedSyscalls := by
  rw [(apply_hooks happly htier hbare).2, he.denies_applyFilter, he.denies_restrictSelf,
    or_iff_right (he.denies_nil c)]

end

/-! ## What the grants of a session come to -/

/-- What a session has been given when it was opened. -/
structure Grants where
  workspace : Workspace
  tier : EnforcementTier
  capabilities : CapabilitySet

def Session.grants (self : Session) : Grants := ⟨self.workspace, self.tier, self.capabilities⟩

namespace Grants

/-- The workspace and the paths granted to be read. -/
def Reads (self : Grants) (p : PathBuf) : Prop :=
  p = self.workspace.root ∨ .fsRead p ∈ self.capabilities.grants

/-- The paths granted to be written. -/
def Writes (self : Grants) (p : PathBuf) : Prop := .fsWrite p ∈ self.capabilities.grants

/-- The right is one to read, at or beneath what a path of the system, the
workspace or a path granted to be read opens, or one to write, at or beneath
what a path granted to be written opens. -/
def Allows (self : Grants) (k : Kernel) (place : PathBuf → List (List UInt8))
    (x : List (List UInt8)) (right : AccessFs) : Prop :=
  (right ∈ k.fromRead
      ∧ k.Reaches place (fun p => p ∈ baselineReadPaths ∨ self.Reads p) x right)
    ∨ (right ∈ k.fromWrite ∧ k.Reaches place self.Writes x right)

/-- A system path that is there, and what is beneath it where it is opened. -/
def System (k : Kernel) (place : PathBuf → List (List UInt8)) (q : PathBuf) : Prop :=
  ∃ p ∈ baselineReadPaths, k.Opens p ∧ place p <+: q.place

/-- The right is one to read and the path is the system's, the workspace's or
permitted to be read, or one to write and the path is permitted to be written. -/
def Permits (self : Grants) (k : Kernel) (place : PathBuf → List (List UInt8)) (q : PathBuf)
    (right : AccessFs) : Prop :=
  (right ∈ k.fromRead
      ∧ (System k place q ∨ self.workspace.contains q = true
        ∨ self.capabilities.permits (.fsRead q) = true))
    ∨ (right ∈ k.fromWrite ∧ self.capabilities.permits (.fsWrite q) = true)

/-- No path of the grants leads elsewhere when it is opened; the workspace is
plain, as `canonicalize` gives it. -/
structure Direct (g : Grants) (place : PathBuf → List (List UInt8)) : Prop where
  root : g.workspace.root.Plain
  direct : ∀ p, g.Reads p ∨ g.Writes p → place p = p.place

/-- What the hooks leave a child on the host `k`. -/
structure Confined (g : Grants) (k : Kernel) (e : Enforcer) (hooks : List PreExec) : Prop where
  opens : ∀ p, g.Reads p ∨ g.Writes p → k.Opens p
  /-- Of the rights that are handled, exactly what the grants allow. -/
  may : ∀ x right, e.may hooks x right ↔ (right ∈ k.handled → g.Allows k e.place x right)
  /-- By name: nothing but what the grants permit, and all that they permit of
  what can be done with a file. -/
  named : g.Direct e.place → ∀ q : PathBuf, q.Plain → ∀ right ∈ k.handled,
    (e.may hooks q.place right → g.Permits k e.place q right)
      ∧ (right ∈ fileRights → g.Permits k e.place q right → e.may hooks q.place right)
  denies : ∀ c, e.denies hooks c ↔ c ∈ deniedSyscalls

/-- The granted paths do not go back. -/
def Plain (g : Grants) : Prop :=
  ∀ p, (.fsRead p ∈ g.capabilities.grants ∨ .fsWrite p ∈ g.capabilities.grants) → p.Plain

/-- The policy opens the workspace and the paths of the grants. -/
structure Policy (g : Grants) (policy : SandboxPolicy) : Prop where
  tier : policy.tier = g.tier
  fsRead : policy.fsRead = (buildSandboxPolicy g.tier g.workspace g.capabilities).fsRead
  fsWrite : policy.fsWrite = (buildSandboxPolicy g.tier g.workspace g.capabilities).fsWrite

namespace Policy

variable {g : Grants} {policy : SandboxPolicy} {p : PathBuf}

theorem mem_fsRead (h : g.Policy policy) : p ∈ policy.fsRead ↔ g.Reads p := by
  rw [h.fsRead, mem_buildSandboxPolicy_fsRead, Reads]

theorem mem_fsWrite (h : g.Policy policy) : p ∈ policy.fsWrite ↔ g.Writes p := by
  rw [h.fsWrite, mem_buildSandboxPolicy_fsWrite, Writes]

end Policy

end Grants

section

variable {g : Grants} {k : Kernel} {place : PathBuf → List (List UInt8)} {q : PathBuf}
  {right : AccessFs}

/-- Among plain paths that are opened where they lead, beneath is by the
components. -/
theorem reaches_plain {paths : PathBuf → Prop} (hplain : ∀ p, paths p → p.Plain)
    (hplace : ∀ p, paths p → place p = p.place) (hq : q.Plain) :
    k.Reaches place paths q.place right ↔
      ∃ p, paths p ∧ k.Opens p ∧ p.components <+: q.components
        ∧ (k.isDir p = true ∨ right ∈ fileRights) := by
  refine exists_congr fun p => and_congr_right fun hp => and_congr_right fun _ => ?_
  rw [hplace p hp, PathBuf.place_prefix_iff (hplain p hp) hq]

/-- Where no path leads elsewhere, what the grants allow is what they permit. -/
theorem Grants.allows_direct (hplain : g.Plain) (hdirect : g.Direct place)
    (hopens : ∀ p, g.Reads p ∨ g.Writes p → k.Opens p) (hq : q.Plain) :
    (g.Allows k place q.place right → g.Permits k place q right)
      ∧ (right ∈ fileRights → g.Permits k place q right → g.Allows k place q.place right) := by
  have hreads : ∀ p, g.Reads p → p.Plain := by
    rintro p (rfl | hp)
    · exact hdirect.root
    · exact hplain p (.inl hp)
  have hread : k.Reaches place g.Reads q.place right ↔ ∃ p, g.Reads p ∧ k.Opens p
      ∧ p.components <+: q.components ∧ (k.isDir p = true ∨ right ∈ fileRights) :=
    reaches_plain hreads (fun p hp => hdirect.direct p (.inl hp)) hq
  have hwrite : k.Reaches place g.Writes q.place right ↔ ∃ p, g.Writes p ∧ k.Opens p
      ∧ p.components <+: q.components ∧ (k.isDir p = true ∨ right ∈ fileRights) :=
    reaches_plain (fun p hp => hplain p (.inr hp)) (fun p hp => hdirect.direct p (.inr hp)) hq
  have hreadable : (∃ p, g.Reads p ∧ p.components <+: q.components) ↔
      g.workspace.contains q = true ∨ g.capabilities.permits (.fsRead q) = true := by
    refine Iff.trans ?_ (@fsRead_components_iff g.tier g.workspace g.capabilities q)
    simp only [mem_buildSandboxPolicy_fsRead, Reads]
  have hwritable : (∃ p, g.Writes p ∧ p.components <+: q.components) ↔
      g.capabilities.permits (.fsWrite q) = true := CapabilitySet.permits_fsWrite_iff.symm
  simp only [Grants.Allows, Grants.Permits, reaches_or, hread, hwrite, ← hreadable, ← hwritable]
  constructor
  · rintro (⟨hright, ⟨p, hp, hopen, hpre, -⟩ | ⟨p, hp, -, hpre, -⟩⟩ | ⟨hright, p, hp, -, hpre, -⟩)
    · exact .inl ⟨hright, .inl ⟨p, hp, hopen, hpre⟩⟩
    · exact .inl ⟨hright, .inr ⟨p, hp, hpre⟩⟩
    · exact .inr ⟨hright, p, hp, hpre⟩
  · rintro hfile (⟨hright, ⟨p, hp, hopen, hpre⟩ | ⟨p, hp, hpre⟩⟩ | ⟨hright, p, hp, hpre⟩)
    · exact .inl ⟨hright, .inl ⟨p, hp, hopen, hpre, .inr hfile⟩⟩
    · exact .inl ⟨hright, .inr ⟨p, hp, hopens p (.inl hp), hpre, .inr hfile⟩⟩
    · exact .inr ⟨hright, p, hp, hopens p (.inr hp), hpre, .inr hfile⟩

/-- What the grants allow is what the child may do. -/
theorem Grants.confined {e : Enforcer} (he : e.Documented) {policy : SandboxPolicy}
    {cmd cmd' : Command} (hpolicy : g.Policy policy) (hplain : g.Plain)
    (happly : policy.apply k cmd = .ok cmd') (htier : g.tier = .kernelLsm)
    (hbare : cmd.preExec = []) : g.Confined k e cmd'.preExec := by
  have htier' : policy.tier = .kernelLsm := hpolicy.tier.trans htier
  have hopens : ∀ p, g.Reads p ∨ g.Writes p → k.Opens p := by
    intro p hp
    rw [← hpolicy.mem_fsRead, ← hpolicy.mem_fsWrite, ← List.mem_append] at hp
    exact (apply_hooks happly htier' hbare).1.opens p hp
  have hmay : ∀ x right, e.may cmd'.preExec x right ↔
      (right ∈ k.handled → g.Allows k e.place x right) := by
    intro x right
    rw [may_iff he happly htier' hbare]
    simp only [hpolicy.mem_fsRead, hpolicy.mem_fsWrite]
    rfl
  refine ⟨hopens, hmay, fun hdirect q hq right hright => ?_, fun c => ?_⟩
  · have hnamed : (g.Allows k e.place q.place right → g.Permits k e.place q right)
        ∧ (right ∈ fileRights → g.Permits k e.place q right → g.Allows k e.place q.place right) :=
      allows_direct hplain hdirect hopens hq
    refine ⟨fun h => hnamed.1 ((hmay _ _).mp h hright), fun hfile h => ?_⟩
    exact (hmay _ _).mpr fun _ => hnamed.2 hfile h
  · exact denies_iff he happly htier' hbare

end

end Axp
