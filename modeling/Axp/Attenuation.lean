import Mathlib.Data.Set.Basic
import Axp.CapabilityGrammar
import Axp.Engine
import Axp.Segments

/-!
# Attenuation

What a grant denotes is the set of things it lets its holder reach: the
absolute paths under a path, the domains under a domain, or, for the grants
without a scope, just themselves. `permits` decides inclusion of these sets
within one verb (`permits_iff_denotes`), although it never forms them: it
compares path components, and strips one domain from the end of another.

So it is an order, and a request that is checked grant by grant
(`validate_job_capabilities`) is a request for no more than the session has.
-/

namespace Axp

/-! ## What a grant denotes -/

inductive Verb where
  | fsRead
  | fsWrite
  | netConnect
  | procSpawn
  | ptyOpen
  | tool
deriving DecidableEq, Repr

/-- What a grant can reach. -/
inductive Target where
  | path (path : PathBuf)
  | domain (name : String)
  | itself (grant : RuntimeCapability)

/-- The labels of a domain, between its dots. -/
def labels (domain : String) : List (List Char) := domain.toList.splitOn '.'

/-- A string the grammar takes for a domain. -/
def IsDomain (domain : String) : Prop := ∃ original, parseDomain domain original = .ok domain

namespace RuntimeCapability

def verb : RuntimeCapability → Verb
  | .fsRead _ => .fsRead
  | .fsWrite _ => .fsWrite
  | .netConnect _ => .netConnect
  | .procSpawn => .procSpawn
  | .ptyOpen => .ptyOpen
  | .tool _ => .tool

/-- The absolute paths whose components start with the path's. -/
def under (path : PathBuf) : Set Target :=
  { t | ∃ q : PathBuf, t = .path q ∧ q.isAbsolute = true ∧ path.components <+: q.components }

/-- The domains whose labels end in the domain's. -/
def within (domain : String) : Set Target :=
  { t | ∃ d, t = .domain d ∧ IsDomain d ∧ labels domain <:+ labels d }

def denotes : RuntimeCapability → Set Target
  | .fsRead path => under path
  | .fsWrite path => under path
  | .netConnect domain => within domain
  | c => {.itself c}

/-- A grant that some string of the grammar stands for. -/
def Parsed (c : RuntimeCapability) : Prop := ∃ s, parseStr s = .ok c

/-! ## Parsed grants -/

/-- What the grammar guarantees of a scope. -/
def WellScoped : RuntimeCapability → Prop
  | .fsRead path => path.isAbsolute = true
  | .fsWrite path => path.isAbsolute = true
  | .netConnect domain => IsDomain domain
  | _ => True

theorem parseAbsPath_absolute {raw original : String} {path : PathBuf}
    (h : parseAbsPath raw original = .ok path) : path.isAbsolute = true := by
  obtain ⟨htext, rfl⟩ := parseAbsPath_eq_ok.mp h
  obtain ⟨rest, hrest⟩ := startsWith_iff.mp htext.absolute
  have hraw : raw = "/" ++ .ofList rest := by
    rw [← String.toList_inj, String.toList_append, ← hrest]
    simp
  have hbytes : utf8 raw = sep :: utf8 (.ofList rest) := by
    rw [hraw, utf8_append]
    rfl
  simp [PathBuf.isAbsolute, PathBuf.ofString, hbytes]

theorem parseAbsPath_no_parent {raw original : String} {path : PathBuf}
    (h : parseAbsPath raw original = .ok path) : .parentDir ∉ path.components := by
  obtain ⟨htext, rfl⟩ := parseAbsPath_eq_ok.mp h
  exact htext.forward

theorem parseDomain_self {raw original domain : String}
    (h : parseDomain raw original = .ok domain) : IsDomain domain := by
  obtain ⟨htext, rfl⟩ := parseDomain_eq_ok.mp h
  exact ⟨original, parseDomain_eq_ok.mpr ⟨htext, rfl⟩⟩

/-- The scope has come out of its own parser. -/
def ScopeParsed : RuntimeCapability → Prop
  | .fsRead path => ∃ raw original, parseAbsPath raw original = .ok path
  | .fsWrite path => ∃ raw original, parseAbsPath raw original = .ok path
  | .netConnect domain => ∃ raw original, parseDomain raw original = .ok domain
  | _ => True

theorem Parsed.scopeParsed {c : RuntimeCapability} (h : c.Parsed) : c.ScopeParsed := by
  obtain ⟨_, h⟩ := h
  cases parseStr_iff.mp h with
  | @fsRead raw htext => exact ⟨raw, raw, parseAbsPath_eq_ok.mpr ⟨htext, rfl⟩⟩
  | @fsWrite raw htext => exact ⟨raw, raw, parseAbsPath_eq_ok.mpr ⟨htext, rfl⟩⟩
  | @netConnect domain htext => exact ⟨domain, domain, parseDomain_eq_ok.mpr ⟨htext, rfl⟩⟩
  | procSpawn => trivial
  | ptyOpen => trivial
  | tool hne => trivial
  | bare hbare => trivial

theorem Parsed.wellScoped {c : RuntimeCapability} (h : c.Parsed) : c.WellScoped := by
  have hscope := h.scopeParsed
  cases c with
  | fsRead path =>
      obtain ⟨raw, original, hpath⟩ := hscope
      exact parseAbsPath_absolute hpath
  | fsWrite path =>
      obtain ⟨raw, original, hpath⟩ := hscope
      exact parseAbsPath_absolute hpath
  | netConnect domain =>
      obtain ⟨raw, original, hdomain⟩ := hscope
      exact parseDomain_self hdomain
  | _ => trivial

/-! ## Permitting is inclusion -/

/-- Stripping one domain from the end of another compares their labels. -/
theorem permits_netConnect_iff {p c : String} :
    permits (.netConnect p) (.netConnect c) = true ↔ labels p <:+ labels c := by
  unfold labels
  rw [Segments.splitOn_suffix_iff]
  simp only [permits, Bool.or_eq_true, decide_eq_true_eq, Option.any_eq_true,
    stripSuffix_eq_some, endsWith, List.isSuffixOf_iff_suffix]
  refine or_congr String.toList_inj.symm ⟨?_, ?_⟩
  · rintro ⟨front, hfront, zs, hzs⟩
    refine ⟨zs, ?_⟩
    rw [hfront, ← hzs]
    simp
  · rintro ⟨zs, hzs⟩
    refine ⟨.ofList (zs ++ ['.']), ?_, ⟨zs, ?_⟩⟩
    · rw [hzs, String.toList_ofList]
      simp
    · simp

/-- A path reaches what another does exactly if its components are a start of
the other's. -/
theorem under_subset_iff {p c : PathBuf} (hc : c.isAbsolute = true) :
    under c ⊆ under p ↔ p.components <+: c.components := by
  constructor
  · intro h
    obtain ⟨q, hq, -, hpre⟩ := h ⟨c, rfl, hc, List.prefix_refl _⟩
    rw [Target.path.inj hq]
    exact hpre
  · rintro h _ ⟨q, rfl, hq, hpre⟩
    exact ⟨q, rfl, hq, h.trans hpre⟩

theorem within_subset_iff {p c : String} (hc : IsDomain c) :
    within c ⊆ within p ↔ labels p <:+ labels c := by
  constructor
  · intro h
    obtain ⟨d, hd, -, hsuf⟩ := h ⟨c, rfl, hc, List.suffix_refl _⟩
    rw [Target.domain.inj hd]
    exact hsuf
  · rintro h _ ⟨d, rfl, hd, hsuf⟩
    exact ⟨d, rfl, hd, h.trans hsuf⟩

theorem permits_iff_denotes {p c : RuntimeCapability} (hc : c.WellScoped) :
    p.permits c = true ↔ p.verb = c.verb ∧ c.denotes ⊆ p.denotes := by
  cases p <;> cases c <;>
    simp only [permits, verb, denotes, true_and, false_and, reduceCtorEq, Bool.false_eq_true,
      Set.singleton_subset_iff, Set.mem_singleton_iff, Set.Subset.refl, decide_eq_true_eq]
  case fsRead.fsRead p c => rw [PathBuf.startsWith_iff, under_subset_iff hc]
  case fsWrite.fsWrite p c => rw [PathBuf.startsWith_iff, under_subset_iff hc]
  case netConnect.netConnect p c => rw [within_subset_iff hc, ← permits_netConnect_iff, permits]
  case tool.tool p c => simp [eq_comm]

theorem permits_refl (c : RuntimeCapability) : c.permits c = true := by
  cases c <;> simp [permits, PathBuf.startsWith_refl]

theorem permits_trans {p q r : RuntimeCapability} (hpq : p.permits q = true)
    (hqr : q.permits r = true) : p.permits r = true := by
  cases p <;> cases q <;> simp only [permits, Bool.false_eq_true] at hpq <;>
    cases r <;> simp only [permits, Bool.false_eq_true] at hqr
  case fsRead.fsRead.fsRead => exact PathBuf.startsWith_trans hqr hpq
  case fsWrite.fsWrite.fsWrite => exact PathBuf.startsWith_trans hqr hpq
  case netConnect.netConnect.netConnect p q r =>
    exact permits_netConnect_iff.mpr
      ((permits_netConnect_iff.mp hpq).trans (permits_netConnect_iff.mp hqr))
  case procSpawn.procSpawn.procSpawn => rfl
  case ptyOpen.ptyOpen.ptyOpen => rfl
  case tool.tool.tool p q r =>
    rw [of_decide_eq_true hpq, permits]
    exact hqr

end RuntimeCapability

/-! ## Requests -/

/-- A list that passes the check consists of grants the session permits. -/
theorem validateJobCapabilities_ok {S : CapabilitySet} {wire : List WireCapability}
    (h : validateJobCapabilities S wire = .ok ()) :
    ∃ R, CapabilitySet.fromWire wire = .ok R ∧ ∀ g ∈ R.grants, S.permits g = true := by
  induction wire with
  | nil => exact ⟨⟨[]⟩, rfl, fun g hg => absurd hg List.not_mem_nil⟩
  | cons w wire ih =>
      obtain ⟨g, hg, h⟩ := bind_eq_ok.mp h
      by_cases hpermits : S.permits g = true
      · rw [if_pos hpermits] at h
        obtain ⟨R, hR, hall⟩ := ih h
        refine ⟨⟨g :: R.grants⟩, ?_, ?_⟩
        · obtain ⟨grants, hgrants, hret⟩ := bind_eq_ok.mp hR
          obtain rfl := Except.ok.inj hret
          refine bind_eq_ok.mpr ⟨g :: grants, ?_, rfl⟩
          rw [List.mapM_cons]
          exact bind_eq_ok.mpr ⟨g, hg, bind_eq_ok.mpr ⟨grants, hgrants, rfl⟩⟩
        · intro g' hg'
          rcases List.mem_cons.mp hg' with rfl | hg'
          · exact hpermits
          · exact hall g' hg'
      · rw [if_neg hpermits] at h
        cases h

/-- The grants of one set permit no more than those of a set that permits
them. -/
theorem CapabilitySet.permits_of_grants {S R : CapabilitySet}
    (h : ∀ g ∈ R.grants, S.permits g = true) {c : RuntimeCapability}
    (hc : R.permits c = true) : S.permits c = true := by
  obtain ⟨g, hg, hgc⟩ := permits_iff.mp hc
  obtain ⟨g', hg', hpermits⟩ := permits_iff.mp (h g hg)
  exact permits_iff.mpr ⟨g', hg', RuntimeCapability.permits_trans hpermits hgc⟩

open RuntimeCapability in
/-- A grant permits another exactly if both have the same verb and it denotes
everything the other does; so permitting is reflexive and transitive, and a
request that passes the check permits nothing its session does not. -/
theorem permits_is_inclusion :
    (∀ p c, Parsed p → Parsed c →
        (p.permits c = true ↔ p.verb = c.verb ∧ c.denotes ⊆ p.denotes))
      ∧ (∀ c : RuntimeCapability, c.permits c = true)
      ∧ (∀ p q r : RuntimeCapability, p.permits q = true → q.permits r = true →
          p.permits r = true)
      ∧ ∀ (S : CapabilitySet) (wire : List WireCapability),
          validateJobCapabilities S wire = .ok () →
            ∃ R, CapabilitySet.fromWire wire = .ok R
              ∧ ∀ c, R.permits c = true → S.permits c = true := by
  refine ⟨fun p c _ hc => permits_iff_denotes hc.wellScoped, permits_refl,
    fun p q r hpq hqr => permits_trans hpq hqr, fun S wire h => ?_⟩
  obtain ⟨R, hR, hall⟩ := validateJobCapabilities_ok h
  exact ⟨R, hR, fun c hc => CapabilitySet.permits_of_grants hall hc⟩

open RuntimeCapability in
/-- A domain that only looks like a subdomain reaches elsewhere. -/
theorem permits_is_inclusion_evil :
    ¬(RuntimeCapability.netConnect "evil-example.com").denotes
        ⊆ (RuntimeCapability.netConnect "example.com").denotes
      ∧ (RuntimeCapability.netConnect "api.example.com").denotes
        ⊆ (RuntimeCapability.netConnect "example.com").denotes := by
  have hparent : Parsed (.netConnect "example.com") :=
    ⟨"net.connect(example.com)", by decide +kernel⟩
  have hevil := permits_is_inclusion.1 _ (.netConnect "evil-example.com") hparent
    ⟨"net.connect(evil-example.com)", by decide +kernel⟩
  have hapi := permits_is_inclusion.1 _ (.netConnect "api.example.com") hparent
    ⟨"net.connect(api.example.com)", by decide +kernel⟩
  refine ⟨fun hsub => ?_, (hapi.mp (by decide +kernel)).2⟩
  exact absurd (hevil.mpr ⟨rfl, hsub⟩) (by decide +kernel)

end Axp
