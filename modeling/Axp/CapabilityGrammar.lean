import Axp.Capability

/-!
# The capability grammar

The strings that stand for a grant, written down as they read (`Spells`): a
verb and its scope in parentheses, a word, or a tool name with or without
`tool:`. The parser takes exactly these (`parseStr_iff`), though it never looks
for the parenthesis that matches the one it opened: it drops the last one of
the string, so what a scope may hold is all that limits what stands between.

A grant is displayed as it was written, except that a tool gets its `tool:`.
-/

namespace Axp

/-! ## Prefixes -/

theorem startsWith_iff {s pre : String} : startsWith s pre = true ↔ pre.toList <+: s.toList := by
  rw [startsWith, List.isPrefixOf_iff_prefix]

theorem startsWith_append (pre rest : String) : startsWith (pre ++ rest) pre = true := by
  rw [startsWith_iff, String.toList_append]
  exact List.prefix_append _ _

theorem stripPrefix_eq_some {s pre rest : String} :
    stripPrefix s pre = some rest ↔ s = pre ++ rest := by
  rw [stripPrefix, Option.map_eq_some_iff]
  simp only [List.isPrefixOf?_eq_some_iff_append_eq]
  constructor
  · rintro ⟨cs, hcs, rfl⟩
    rw [← String.toList_inj, String.toList_append, String.toList_ofList, hcs]
  · rintro rfl
    exact ⟨rest.toList, String.toList_append.symm, String.ofList_toList⟩

theorem stripPrefix_eq_none {s pre : String} :
    stripPrefix s pre = none ↔ ¬startsWith s pre = true := by
  rw [startsWith_iff, Option.eq_none_iff_forall_ne_some]
  constructor
  · rintro h ⟨cs, hcs⟩
    refine h (.ofList cs) (stripPrefix_eq_some.mpr ?_)
    rw [← String.toList_inj, String.toList_append, String.toList_ofList, hcs]
  · rintro h rest hrest
    rw [stripPrefix_eq_some.mp hrest, String.toList_append] at h
    exact h (List.prefix_append _ _)

/-- A string does not start in two ways, neither of which starts the other. -/
theorem startsWith_exclusive {s p q : String} (hp : startsWith s p = true)
    (hpq : (startsWith p q || startsWith q p) = false) : ¬startsWith s q = true := by
  intro hq
  rcases List.prefix_or_prefix_of_prefix (startsWith_iff.mp hp) (startsWith_iff.mp hq) with h | h
  · rw [startsWith_iff.mpr h, Bool.or_true] at hpq
    cases hpq
  · rw [startsWith_iff.mpr h, Bool.true_or] at hpq
    cases hpq

theorem extractParenInner_eq_some {s pre inner : String} :
    extractParenInner s pre = some inner ↔ s = pre ++ inner ++ ")" := by
  simp only [extractParenInner, Option.bind_eq_bind, Option.bind_eq_some_iff,
    stripPrefix_eq_some, stripSuffix_eq_some, ← String.toList_append, String.toList_inj]
  constructor
  · rintro ⟨_, rfl, rfl⟩
    exact (String.append_assoc).symm
  · rintro rfl
    exact ⟨inner ++ ")", String.append_assoc, rfl⟩

/-! ## Scopes -/

/-- The text of a path a grant may be scoped to. -/
structure PathText (raw : String) : Prop where
  absolute : startsWith raw "/" = true
  forward : .parentDir ∉ (PathBuf.ofString raw).components

/-- The text of a domain a grant may be scoped to. -/
structure DomainText (raw : String) : Prop where
  nonempty : raw ≠ ""
  slash : '/' ∉ raw.toList
  unbroken : ∀ c ∈ raw.toList, isWhitespace c = false
  colon : ':' ∉ raw.toList

theorem parseAbsPath_eq_ok {raw original : String} {path : PathBuf} :
    parseAbsPath raw original = .ok path ↔ PathText raw ∧ path = .ofString raw := by
  simp only [parseAbsPath, ite_error_eq_ok, Bool.not_eq_true, Bool.not_eq_false',
    List.contains_eq_mem, decide_eq_false_iff_not, Except.ok.injEq]
  constructor
  · rintro ⟨habs, hforward, rfl⟩
    exact ⟨⟨habs, hforward⟩, rfl⟩
  · rintro ⟨h, rfl⟩
    exact ⟨h.absolute, h.forward, rfl⟩

theorem parseDomain_eq_ok {raw original domain : String} :
    parseDomain raw original = .ok domain ↔ DomainText raw ∧ domain = raw := by
  simp only [parseDomain, ite_error_eq_ok, Except.ok.injEq, Bool.not_eq_true,
    String.isEmpty_eq_false_iff, List.contains_eq_mem, decide_eq_false_iff_not, List.any_eq_false]
  constructor
  · rintro ⟨hne, hslash, hblank, -, hcolon, rfl⟩
    exact ⟨⟨hne, hslash, hblank, hcolon⟩, rfl⟩
  · rintro ⟨h, rfl⟩
    -- A URL has a slash, so this check never decides.
    have hurl : ¬"://".toList <:+: domain.toList := fun hurl =>
      h.slash (hurl.subset (by decide))
    exact ⟨h.nonempty, h.slash, h.unbroken, hurl, h.colon, rfl⟩

/-! ## Written forms -/

/-- The openings after which a string is a scoped grant or an error. -/
def verbPrefixes : List String := ["fs.read(", "fs.write(", "net.connect("]

/-- A tool name that needs no `tool:`, since it reads as nothing else. -/
structure BareName (s : String) : Prop where
  nonempty : s ≠ ""
  unbroken : ∀ c ∈ s.toList, isWhitespace c = false
  verb : ∀ pre ∈ verbPrefixes, ¬startsWith s pre = true
  word : s ≠ "proc.spawn" ∧ s ≠ "pty.open"
  untagged : ¬startsWith s "tool:" = true

namespace RuntimeCapability

/-- The string is a way to write the grant. -/
inductive Spells : String → RuntimeCapability → Prop
  | fsRead {raw : String} (h : PathText raw) :
      Spells ("fs.read(" ++ raw ++ ")") (.fsRead (.ofString raw))
  | fsWrite {raw : String} (h : PathText raw) :
      Spells ("fs.write(" ++ raw ++ ")") (.fsWrite (.ofString raw))
  | netConnect {raw : String} (h : DomainText raw) :
      Spells ("net.connect(" ++ raw ++ ")") (.netConnect raw)
  | procSpawn : Spells "proc.spawn" .procSpawn
  | ptyOpen : Spells "pty.open" .ptyOpen
  | tool {name : String} (h : name ≠ "") : Spells ("tool:" ++ name) (.tool name)
  | bare {s : String} (h : BareName s) : Spells s (.tool s)

/-! ## The parser takes the written forms -/

/-- A verb's scope is what stands between its opening and the last parenthesis. -/
theorem scoped_eq_ok {α : Type} {s pre : String} {e : Error} {parseScope : String → Result α}
    {grant : α → RuntimeCapability} {c : RuntimeCapability} :
    (do
      let inner ← okOr (extractParenInner s pre) e
      let scope ← parseScope inner
      return grant scope) = Except.ok c ↔
      ∃ raw scope, s = pre ++ raw ++ ")" ∧ parseScope raw = .ok scope ∧ grant scope = c := by
  simp only [bind_eq_ok, okOr_eq_ok, extractParenInner_eq_some]
  constructor
  · rintro ⟨raw, hs, scope, hscope, h⟩
    exact ⟨raw, scope, hs, hscope, Except.ok.inj h⟩
  · rintro ⟨raw, scope, hs, hscope, rfl⟩
    exact ⟨raw, hs, scope, hscope, rfl⟩

theorem spells_of_parseStr {s : String} {c : RuntimeCapability} (h : parseStr s = .ok c) :
    Spells s c := by
  unfold parseStr at h
  dsimp only at h
  split at h
  · obtain ⟨raw, path, rfl, hpath, rfl⟩ := scoped_eq_ok.mp h
    obtain ⟨htext, rfl⟩ := parseAbsPath_eq_ok.mp hpath
    exact .fsRead htext
  next hread =>
  split at h
  · obtain ⟨raw, path, rfl, hpath, rfl⟩ := scoped_eq_ok.mp h
    obtain ⟨htext, rfl⟩ := parseAbsPath_eq_ok.mp hpath
    exact .fsWrite htext
  next hwrite =>
  split at h
  · obtain ⟨raw, domain, rfl, hdomain, rfl⟩ := scoped_eq_ok.mp h
    obtain ⟨htext, rfl⟩ := parseDomain_eq_ok.mp hdomain
    exact .netConnect htext
  next hnet =>
  split at h
  · obtain rfl := Except.ok.inj h
    subst s
    exact .procSpawn
  next hspawn =>
  split at h
  · obtain rfl := Except.ok.inj h
    subst s
    exact .ptyOpen
  next hpty =>
  split at h
  · next name hname =>
    obtain ⟨hne, h⟩ := ite_error_eq_ok.mp h
    obtain rfl := Except.ok.inj h
    rw [stripPrefix_eq_some.mp hname]
    exact .tool fun hempty => hne (String.isEmpty_iff.mpr hempty)
  · next hname =>
    obtain ⟨hne, h⟩ := ite_error_eq_ok.mp h
    obtain ⟨hblank, h⟩ := ite_error_eq_ok.mp h
    obtain rfl := Except.ok.inj h
    refine .bare ⟨fun hempty => hne (String.isEmpty_iff.mpr hempty), ?_, ?_, ⟨hspawn, hpty⟩,
      stripPrefix_eq_none.mp hname⟩
    · intro c hc
      exact Bool.eq_false_iff.mpr fun hwhite => hblank (List.any_eq_true.mpr ⟨c, hc, hwhite⟩)
    · simp only [verbPrefixes, List.forall_mem_cons]
      exact ⟨hread, hwrite, hnet, List.forall_mem_nil _⟩

theorem startsWith_scoped (pre raw : String) : startsWith (pre ++ raw ++ ")") pre = true := by
  rw [String.append_assoc]
  exact startsWith_append pre (raw ++ ")")

theorem parseStr_of_spells {s : String} {c : RuntimeCapability} (h : Spells s c) :
    parseStr s = .ok c := by
  unfold parseStr
  dsimp only
  cases h with
  | @fsRead raw htext =>
      have hopen := startsWith_scoped "fs.read(" raw
      rw [if_pos hopen, scoped_eq_ok]
      exact ⟨raw, .ofString raw, rfl, parseAbsPath_eq_ok.mpr ⟨htext, rfl⟩, rfl⟩
  | @fsWrite raw htext =>
      have hopen := startsWith_scoped "fs.write(" raw
      rw [if_neg (startsWith_exclusive hopen rfl), if_pos hopen, scoped_eq_ok]
      exact ⟨raw, .ofString raw, rfl, parseAbsPath_eq_ok.mpr ⟨htext, rfl⟩, rfl⟩
  | @netConnect domain htext =>
      have hopen := startsWith_scoped "net.connect(" domain
      rw [if_neg (startsWith_exclusive hopen rfl),
        if_neg (startsWith_exclusive hopen rfl), if_pos hopen, scoped_eq_ok]
      exact ⟨domain, domain, rfl, parseDomain_eq_ok.mpr ⟨htext, rfl⟩, rfl⟩
  | procSpawn => rfl
  | ptyOpen => rfl
  | @tool name hne =>
      have htag := startsWith_append "tool:" name
      have hword (w : String) (hw : startsWith w "tool:" = false) : ¬"tool:" ++ name = w :=
        fun heq => Bool.eq_false_iff.mp hw (heq ▸ htag)
      rw [if_neg (startsWith_exclusive htag rfl),
        if_neg (startsWith_exclusive htag rfl),
        if_neg (startsWith_exclusive htag rfl),
        if_neg (hword _ rfl), if_neg (hword _ rfl), stripPrefix_eq_some.mpr rfl]
      exact if_neg (mt String.isEmpty_iff.mp hne)
  | bare h =>
      rw [if_neg (h.verb _ (.head _)), if_neg (h.verb _ (.tail _ (.head _))),
        if_neg (h.verb _ (.tail _ (.tail _ (.head _)))), if_neg h.word.1, if_neg h.word.2,
        stripPrefix_eq_none.mpr h.untagged]
      refine ite_error_eq_ok.mpr ⟨mt String.isEmpty_iff.mp h.nonempty,
        ite_error_eq_ok.mpr ⟨?_, rfl⟩⟩
      rw [Bool.not_eq_true, List.any_eq_false]
      exact fun c hc => Bool.not_eq_true _ ▸ h.unbroken c hc

theorem parseStr_iff {s : String} {c : RuntimeCapability} : parseStr s = .ok c ↔ Spells s c :=
  ⟨spells_of_parseStr, parseStr_of_spells⟩

/-! ## Displaying -/

/-- A path that was a string shows it. -/
theorem display_ofString (lossy : List UInt8 → String) (s : String) :
    (PathBuf.ofString s).display lossy = s := by
  have hbytes : (⟨⟨utf8 s⟩⟩ : ByteArray) = s.toByteArray := rfl
  have hvalid : String.fromUTF8? s.toByteArray = some s := by
    rw [String.fromUTF8?, dif_pos s.isValidUTF8]
    rfl
  rw [PathBuf.display, PathBuf.ofString, hbytes, hvalid, Option.getD_some]

/-- A grant is displayed as it was written, unless that was a bare name. -/
theorem Spells.display_eq {s : String} {c : RuntimeCapability} (h : Spells s c)
    (lossy : List UInt8 → String) (hbare : ¬BareName s) : c.display lossy = s := by
  cases h with
  | fsRead htext => rw [display, display_ofString]
  | fsWrite htext => rw [display, display_ofString]
  | netConnect htext => rfl
  | procSpawn => rfl
  | ptyOpen => rfl
  | tool hne => rfl
  | bare h => exact absurd h hbare

/-- A bare name stands for the tool of that name only. -/
theorem Spells.eq_tool {s : String} {c : RuntimeCapability} (h : Spells s c)
    (hbare : BareName s) : c = .tool s := by
  cases h with
  | fsRead htext => exact absurd (startsWith_scoped _ _) (hbare.verb _ (.head _))
  | fsWrite htext => exact absurd (startsWith_scoped _ _) (hbare.verb _ (.tail _ (.head _)))
  | netConnect htext =>
      exact absurd (startsWith_scoped _ _) (hbare.verb _ (.tail _ (.tail _ (.head _))))
  | procSpawn => exact absurd rfl hbare.word.1
  | ptyOpen => exact absurd rfl hbare.word.2
  | tool hne => exact absurd (startsWith_append _ _) hbare.untagged
  | bare h => rfl

/-- What is displayed is again a way to write the grant. -/
theorem Spells.canonical {s : String} {c : RuntimeCapability} (h : Spells s c)
    (lossy : List UInt8 → String) : Spells (c.display lossy) c := by
  by_cases hbare : BareName s
  · rw [h.eq_tool hbare]
    exact .tool hbare.nonempty
  · rw [h.display_eq lossy hbare]
    exact h

/-- What opens a parenthesis with a verb is not a tool. -/
theorem Spells.not_tool {s name pre : String} (hpre : pre ∈ verbPrefixes)
    (hs : startsWith s pre = true) : ¬Spells s (.tool name) := by
  intro h
  cases h with
  | tool hne =>
      have hexcl : ∀ pre ∈ verbPrefixes,
          (startsWith "tool:" pre || startsWith pre "tool:") = false := by decide
      exact startsWith_exclusive (startsWith_append _ _) (hexcl pre hpre) hs
  | bare h => exact h.verb pre hpre hs

end RuntimeCapability

/-! ## The round trip -/

open RuntimeCapability in
/-- A string that stands for a grant: the grant's display stands for it again,
and is the string itself unless that is a bare tool name, which gets its
`tool:`. A string that opens a parenthesis with a verb never names a tool. -/
theorem capability_round_trip (lossy : List UInt8 → String) (s : String) :
    (∀ c, parseStr s = .ok c →
        parseStr (c.display lossy) = .ok c ∧ parse (c.toWire lossy) = .ok c
          ∧ (¬BareName s → c.display lossy = s)
          ∧ (BareName s → c.display lossy = "tool:" ++ s))
      ∧ ∀ pre ∈ verbPrefixes, startsWith s pre = true →
          ∀ name, parseStr s ≠ .ok (.tool name) := by
  constructor
  · intro c hc
    have hspells := parseStr_iff.mp hc
    have hagain := parseStr_iff.mpr (hspells.canonical lossy)
    refine ⟨hagain, hagain, hspells.display_eq lossy, fun hbare => ?_⟩
    rw [hspells.eq_tool hbare]
    rfl
  · intro pre hpre hs name htool
    exact Spells.not_tool hpre hs (parseStr_iff.mp htool)

open RuntimeCapability in
/-- A parenthesis in the path is part of it, whoever closes it. -/
theorem capability_round_trip_parens :
    parseStr ((RuntimeCapability.fsRead (.ofString "/a (b)")).display fun _ => "?")
        = .ok (.fsRead (.ofString "/a (b)"))
      ∧ (∀ name, parseStr "fs.read(a)" ≠ .ok (.tool name))
      ∧ (RuntimeCapability.tool "git)").display (fun _ => "?") = "tool:git)" := by
  have hpath := (capability_round_trip (fun _ => "?") "fs.read(/a (b))").1
    (.fsRead (.ofString "/a (b)")) (by decide +kernel)
  have hopen : startsWith "fs.read(a)" "fs.read(" = true := by decide +kernel
  have htool := (capability_round_trip (fun _ => "?") "git)").1 (.tool "git)") (by decide +kernel)
  have hunbroken : "git)".toList.any isWhitespace = false := by decide +kernel
  have hbare : BareName "git)" := by
    refine ⟨?_, fun c hc => ?_, ?_, ⟨?_, ?_⟩, ?_⟩
    case refine_2 => exact Bool.eq_false_iff.mpr (List.any_eq_false.mp hunbroken c hc)
    all_goals decide +kernel
  exact ⟨hpath.1, (capability_round_trip (fun _ => "?") "fs.read(a)").2 _ (.head _) hopen,
    htool.2.2.2 hbare⟩

end Axp
