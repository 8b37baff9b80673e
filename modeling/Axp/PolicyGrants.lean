import Axp.Authority

/-!
# The policy and the grants

The grants of a session are read twice. The engine asks `permits`; the kernel
is handed lists of paths, and grants what is beneath them. `build_sandbox_policy`
translates the one into the other, verb by verb.

What is beneath a path is again read twice: off its components, as the code
does, and off the directories the path leads through, as the kernel does, for
which `..` goes back. On plain paths the two agree (`components_of_plain`), and
the grammar lets no others into a grant.
-/

namespace Axp

/-! ## Where a path leads -/

/-- An absolute path that does not go back. -/
structure PathBuf.Plain (p : PathBuf) : Prop where
  absolute : p.isAbsolute = true
  forward : .parentDir ∉ p.components

/-- From a directory, given by the names from the root, one component on. -/
def Component.follow (place : List (List UInt8)) : Component → List (List UInt8)
  | .rootDir => []
  | .curDir => place
  | .parentDir => place.dropLast
  | .normal name => place ++ [name]

/-- Where an absolute path leads. -/
def PathBuf.place (p : PathBuf) : List (List UInt8) := p.components.foldl Component.follow []

namespace PathBuf

theorem foldl_follow (names : List (List UInt8)) (place : List (List UInt8)) :
    (names.map Component.normal).foldl Component.follow place = place ++ names := by
  induction names generalizing place with
  | nil => exact (List.append_nil place).symm
  | cons name names ih =>
      rw [List.map_cons, List.foldl_cons, ih, Component.follow, List.append_assoc]
      rfl

/-- A segment stands for a name, unless it goes back. -/
theorem segComponent?_normal {seg : List UInt8} {c : Component} (h : segComponent? seg = some c)
    (hc : c ≠ .parentDir) : ∃ name, Component.normal name = c := by
  unfold segComponent? at h
  split at h
  · cases h
  split at h
  · cases h
  split at h
  · obtain rfl := Option.some.inj h
    exact absurd rfl hc
  · exact ⟨seg, Option.some.inj h⟩

/-- The components of a plain path are the root and the names it leads through. -/
theorem components_of_plain {p : PathBuf} (h : p.Plain) :
    p.components = .rootDir :: p.place.map .normal := by
  obtain ⟨habs, hforward⟩ := h
  have hcomponents : p.components
      = .rootDir :: (p.bytes.splitOn sep).filterMap segComponent? := by
    simp [components, habs]
  have hnormal : (p.bytes.splitOn sep).filterMap segComponent? ∈ Set.range
      (List.map Component.normal) := by
    rw [Set.range_list_map]
    intro c hc
    obtain ⟨seg, -, hseg⟩ := List.mem_filterMap.mp hc
    refine segComponent?_normal hseg fun hparent => hforward ?_
    rw [hcomponents, ← hparent]
    exact List.mem_cons_of_mem _ hc
  obtain ⟨names, hnames⟩ := hnormal
  rw [← hnames] at hcomponents
  have hplace : p.place = names := by
    rw [place, hcomponents, List.foldl_cons, foldl_follow]
    rfl
  rw [hcomponents, hplace]

/-- For plain paths, beneath is beneath: by the components, and by the places. -/
theorem place_prefix_iff {p q : PathBuf} (hp : p.Plain) (hq : q.Plain) :
    p.place <+: q.place ↔ p.components <+: q.components := by
  rw [components_of_plain hp, components_of_plain hq, List.prefix_cons_inj]
  refine ⟨fun h => h.map _, fun h => ?_⟩
  exact (List.prefix_map_iff_of_injective fun a b hab => Component.normal.inj hab).mp h

end PathBuf

namespace RuntimeCapability

theorem mem_under_iff {p q : PathBuf} (hq : q.isAbsolute = true) :
    .path q ∈ under p ↔ p.components <+: q.components := by
  constructor
  · rintro ⟨q', hsame, -, hpre⟩
    rw [Target.path.inj hsame]
    exact hpre
  · exact fun hpre => ⟨q, rfl, hq, hpre⟩

theorem Parsed.plain {c : RuntimeCapability} (h : c.Parsed) {p : PathBuf}
    (hc : c = .fsRead p ∨ c = .fsWrite p) : p.Plain := by
  have hscope := h.scopeParsed
  rcases hc with rfl | rfl
  · obtain ⟨raw, original, hpath⟩ := hscope
    exact ⟨parseAbsPath_absolute hpath, parseAbsPath_no_parent hpath⟩
  · obtain ⟨raw, original, hpath⟩ := hscope
    exact ⟨parseAbsPath_absolute hpath, parseAbsPath_no_parent hpath⟩

end RuntimeCapability

/-! ## The loop over the grants -/

namespace SandboxPolicy

variable {policy : SandboxPolicy} {grants : List RuntimeCapability}

theorem allowProcSpawn_foldl : (grants.foldl addGrant policy).allowProcSpawn = true ↔
    policy.allowProcSpawn = true ∨ .procSpawn ∈ grants := by
  have hadd : ∀ (policy : SandboxPolicy) g, (addGrant policy g).allowProcSpawn = true ↔
      policy.allowProcSpawn = true ∨ g = .procSpawn := by
    intro policy g
    cases g <;> simp [addGrant]
  rw [foldl_addGrant_iff (P := (·.allowProcSpawn = true)) hadd, exists_eq_right]

theorem allowNetwork_foldl : (grants.foldl addGrant policy).allowNetwork = true ↔
    policy.allowNetwork = true ∨ ∃ d, .netConnect d ∈ grants := by
  have hadd : ∀ (policy : SandboxPolicy) g, (addGrant policy g).allowNetwork = true ↔
      policy.allowNetwork = true ∨ ∃ d, g = .netConnect d := by
    intro policy g
    cases g <;> simp [addGrant]
  rw [foldl_addGrant_iff (P := (·.allowNetwork = true)) hadd]
  refine or_congr_right ⟨?_, ?_⟩
  · rintro ⟨_, hg, d, rfl⟩
    exact ⟨d, hg⟩
  · rintro ⟨d, hd⟩
    exact ⟨_, hd, d, rfl⟩

end SandboxPolicy

/-! ## Exactly the grants -/

namespace CapabilitySet

variable {self : CapabilitySet} {q : PathBuf}

/-- A path is permitted by the grants for paths that it is beneath. -/
theorem permits_path_iff {c : RuntimeCapability} {verb : PathBuf → RuntimeCapability}
    (hgrant : ∀ g, g.permits c = true ↔ ∃ p, verb p = g ∧ q.startsWith p = true) :
    self.permits c = true ↔ ∃ p, verb p ∈ self.grants ∧ p.components <+: q.components := by
  rw [permits_iff]
  constructor
  · rintro ⟨g, hg, hpermits⟩
    obtain ⟨p, rfl, hpre⟩ := (hgrant g).mp hpermits
    exact ⟨p, hg, PathBuf.startsWith_iff.mp hpre⟩
  · rintro ⟨p, hp, hpre⟩
    exact ⟨_, hp, (hgrant _).mpr ⟨p, rfl, PathBuf.startsWith_iff.mpr hpre⟩⟩

theorem permits_fsWrite_iff : self.permits (.fsWrite q) = true ↔
    ∃ p, .fsWrite p ∈ self.grants ∧ p.components <+: q.components := by
  refine permits_path_iff fun g => ?_
  cases g <;> simp [RuntimeCapability.permits]

theorem permits_fsRead_iff : self.permits (.fsRead q) = true ↔
    ∃ p, .fsRead p ∈ self.grants ∧ p.components <+: q.components := by
  refine permits_path_iff fun g => ?_
  cases g <;> simp [RuntimeCapability.permits]

end CapabilitySet

variable {tier : EnforcementTier} {workspace : Workspace} {capabilities : CapabilitySet}
  {q : PathBuf}

/-- The paths a policy opens for writing, by their components. -/
theorem fsWrite_components_iff :
    (∃ p ∈ (buildSandboxPolicy tier workspace capabilities).fsWrite,
        p.components <+: q.components) ↔ capabilities.permits (.fsWrite q) = true := by
  rw [CapabilitySet.permits_fsWrite_iff]
  simp only [mem_buildSandboxPolicy_fsWrite]

/-- The paths a policy opens for reading, by their components. -/
theorem fsRead_components_iff :
    (∃ p ∈ (buildSandboxPolicy tier workspace capabilities).fsRead,
        p.components <+: q.components)
      ↔ workspace.contains q = true ∨ capabilities.permits (.fsRead q) = true := by
  rw [CapabilitySet.permits_fsRead_iff, Workspace.contains, PathBuf.startsWith_iff]
  simp only [mem_buildSandboxPolicy_fsRead, or_and_right, exists_or, exists_eq_left]

/-- What the policy of a set of grants opens is what the grants permit: a plain
path is beneath one of its write paths exactly if writing it is permitted, and
beneath one of its read paths exactly if it is in the workspace or reading it
is permitted; spawning and the network are allowed exactly if they are granted.
For a workspace and grants with plain paths, as `Workspace::new` and the
grammar make them, beneath may also be read along the directories. -/
theorem policy_grants_exactly (tier : EnforcementTier) (workspace : Workspace)
    (capabilities : CapabilitySet) :
    (∀ q : PathBuf, q.Plain →
        ((∃ p ∈ (buildSandboxPolicy tier workspace capabilities).fsWrite,
          .path q ∈ RuntimeCapability.under p) ↔ capabilities.permits (.fsWrite q) = true)
        ∧ ((∃ p ∈ (buildSandboxPolicy tier workspace capabilities).fsRead,
          .path q ∈ RuntimeCapability.under p)
            ↔ workspace.contains q = true ∨ capabilities.permits (.fsRead q) = true))
      ∧ ((buildSandboxPolicy tier workspace capabilities).allowProcSpawn = true
        ↔ capabilities.permits .procSpawn = true)
      ∧ ((buildSandboxPolicy tier workspace capabilities).allowNetwork = true
        ↔ ∃ d, .netConnect d ∈ capabilities.grants)
      ∧ (workspace.root.Plain → (∀ g ∈ capabilities.grants, g.Parsed) → ∀ q : PathBuf, q.Plain →
        ((∃ p ∈ (buildSandboxPolicy tier workspace capabilities).fsWrite, p.place <+: q.place)
          ↔ capabilities.permits (.fsWrite q) = true)
        ∧ ((∃ p ∈ (buildSandboxPolicy tier workspace capabilities).fsRead, p.place <+: q.place)
          ↔ workspace.contains q = true ∨ capabilities.permits (.fsRead q) = true)) := by
  refine ⟨?_, ?_, ?_, ?_⟩
  · intro q hq
    rw [← fsWrite_components_iff, ← fsRead_components_iff]
    simp only [RuntimeCapability.mem_under_iff hq.absolute]
    exact ⟨Iff.rfl, Iff.rfl⟩
  · rw [buildSandboxPolicy, SandboxPolicy.allowProcSpawn_foldl,
      CapabilitySet.permits_procSpawn_iff, Bool.false_eq_true, false_or]
  · rw [buildSandboxPolicy, SandboxPolicy.allowNetwork_foldl, Bool.false_eq_true, false_or]
  · intro hroot hparsed q hq
    have hwrite : ∀ p ∈ (buildSandboxPolicy tier workspace capabilities).fsWrite, p.Plain := by
      intro p hp
      have hgrant := mem_buildSandboxPolicy_fsWrite.mp hp
      exact (hparsed _ hgrant).plain (Or.inr rfl)
    have hread : ∀ p ∈ (buildSandboxPolicy tier workspace capabilities).fsRead, p.Plain := by
      intro p hp
      rcases mem_buildSandboxPolicy_fsRead.mp hp with rfl | hgrant
      · exact hroot
      · exact (hparsed _ hgrant).plain (Or.inl rfl)
    rw [← fsWrite_components_iff, ← fsRead_components_iff]
    constructor
    · refine exists_congr fun p => and_congr_right fun hp => ?_
      exact PathBuf.place_prefix_iff (hwrite p hp) hq
    · refine exists_congr fun p => and_congr_right fun hp => ?_
      exact PathBuf.place_prefix_iff (hread p hp) hq

/-- Grants that overlap, one of them twice: what lies beside them is not
opened, and writing does not include reading. -/
theorem policy_grants_exactly_overlapping : ∃ policy,
    policy = buildSandboxPolicy .processToken ⟨.ofString "/proj"⟩
        ⟨[.fsWrite (.ofString "/out/a"), .fsWrite (.ofString "/out"),
          .fsWrite (.ofString "/out"), .netConnect "example.com"]⟩
      ∧ (∃ p ∈ policy.fsWrite, .path (.ofString "/out/a/b") ∈ RuntimeCapability.under p)
      ∧ (¬∃ p ∈ policy.fsWrite, .path (.ofString "/output") ∈ RuntimeCapability.under p)
      ∧ (¬∃ p ∈ policy.fsRead, .path (.ofString "/out/a/b") ∈ RuntimeCapability.under p)
      ∧ policy.allowNetwork = true ∧ policy.allowProcSpawn = false
      ∧ ∃ p ∈ policy.fsWrite, p.place <+: (PathBuf.ofString "/out/a/b").place := by
  have hb : (PathBuf.ofString "/out/a/b").Plain := ⟨by decide +kernel, by decide +kernel⟩
  have hside : (PathBuf.ofString "/output").Plain := ⟨by decide +kernel, by decide +kernel⟩
  obtain ⟨hpaths, hspawn, hnetwork, hplaces⟩ := policy_grants_exactly .processToken
    ⟨.ofString "/proj"⟩ ⟨[.fsWrite (.ofString "/out/a"), .fsWrite (.ofString "/out"),
      .fsWrite (.ofString "/out"), .netConnect "example.com"]⟩
  refine ⟨_, rfl, (hpaths _ hb).1.mpr (by decide +kernel), ?_, ?_,
    hnetwork.mpr ⟨"example.com", by decide +kernel⟩, ?_, ?_⟩
  · exact fun hexists => absurd ((hpaths _ hside).1.mp hexists) (by decide +kernel)
  · exact fun hexists => absurd ((hpaths _ hb).2.mp hexists) (by decide +kernel)
  · rw [← Bool.not_eq_true]
    exact fun hallow => absurd (hspawn.mp hallow) (by decide +kernel)
  · refine (hplaces ⟨by decide +kernel, by decide +kernel⟩ ?_ _ hb).1.mpr (by decide +kernel)
    intro g hg
    simp only [List.mem_cons, List.not_mem_nil, or_false] at hg
    rcases hg with rfl | rfl | rfl | rfl
    · exact ⟨"fs.write(/out/a)", by decide +kernel⟩
    · exact ⟨"fs.write(/out)", by decide +kernel⟩
    · exact ⟨"fs.write(/out)", by decide +kernel⟩
    · exact ⟨"net.connect(example.com)", by decide +kernel⟩

end Axp
