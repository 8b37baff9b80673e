import Mathlib.Data.List.DropRight
import Axp.Discovery

/-!
# Published descriptions

A description is checked without the whitespace around it and published with
it. So the rules hold of what is published when that whitespace does no harm:
there is none, or it has no line break, leaves the description short enough,
and does not make it the name of a capability that has such whitespace itself
(`described_iff`). Promoting an entry takes its description along, and a
registry never holds another (`Entered.sound`), so what is true of the
accepted listings is true of the index (`published_well`).
-/

namespace Axp

/-! ## The code -/

/-- The whole catalog. -/
def ProviderRegistry.index (self : ProviderRegistry) : Result IndexResponse :=
  .ok ⟨self.catalog.entries.map fun x => ⟨x.1, x.2.desc⟩⟩

/-! ## The rules -/

/-- The documented rules for a description, with `lower` for
`str::to_lowercase`. -/
structure Described (lower : String → String) (name desc : String) : Prop where
  long : descMinLen ≤ desc.utf8ByteSize
  short : desc.utf8ByteSize ≤ descMaxLen
  noNewline : '\n' ∉ desc.toList
  noReturn : '\r' ∉ desc.toList
  notName : lower desc ≠ lower name
  notSpaced : lower desc ≠ lower (replace name '_' ' ')

/-- An entry of the index, or of the part of it some grants show. -/
def Indexed (reg : ProviderRegistry) (entry : IndexEntry) : Prop :=
  (∃ resp, reg.index = .ok resp ∧ entry ∈ resp.entries)
    ∨ ∃ C resp, reg.indexForCapabilities C = .ok resp ∧ entry ∈ resp.entries

/-- Every published description obeys the rules for the local name that its
entry stands for. -/
def PublishedWell (lower : String → String) (reg : ProviderRegistry) : Prop :=
  ∀ entry, Indexed reg entry → ∀ e, reg.catalog.lookup entry.name = some e →
    Described lower e.localName entry.desc

/-! ## What trimming takes off -/

/-- The whitespace in front. -/
def leading (s : String) : String := .ofList (s.toList.takeWhile isWhitespace)

/-- The whitespace behind; there is none where all of it is in front. -/
def trailing (s : String) : String :=
  .ofList ((s.toList.dropWhile isWhitespace).rtakeWhile isWhitespace)

theorem trim_parts (s : String) : leading s ++ (trim s ++ trailing s) = s := by
  have hback : (s.toList.dropWhile isWhitespace).rdropWhile isWhitespace
      ++ (s.toList.dropWhile isWhitespace).rtakeWhile isWhitespace
      = s.toList.dropWhile isWhitespace := List.rdropWhile_append_rtakeWhile ..
  refine String.toList_injective ?_
  rw [String.toList_append, String.toList_append]
  calc (leading s).toList ++ ((trim s).toList ++ (trailing s).toList)
      = s.toList.takeWhile isWhitespace ++ s.toList.dropWhile isWhitespace := by
        rw [← hback]
        simp only [leading, trim, trailing, String.toList_ofList, List.rdropWhile]
    _ = s.toList := List.takeWhile_append_dropWhile

theorem mem_trim_parts {s : String} {c : Char} :
    c ∈ s.toList ↔ c ∈ (trim s).toList ∨ c ∈ (leading s ++ trailing s).toList := by
  conv_lhs => rw [← trim_parts s]
  simp only [String.toList_append, List.mem_append]
  exact or_left_comm

theorem trim_utf8ByteSize_le (s : String) : (trim s).utf8ByteSize ≤ s.utf8ByteSize := by
  conv_rhs => rw [← trim_parts s]
  rw [String.utf8ByteSize_append, String.utf8ByteSize_append]
  omega

/-! ## One listing -/

/-- The whitespace around the description does no harm. -/
def Tidy (lower : String → String) (l : CapabilityListing) : Prop :=
  trim l.desc = l.desc
    ∨ ((leading l.desc ++ trailing l.desc).utf8ByteSize + (trim l.desc).utf8ByteSize ≤ descMaxLen
      ∧ '\n' ∉ (leading l.desc ++ trailing l.desc).toList
      ∧ '\r' ∉ (leading l.desc ++ trailing l.desc).toList
      ∧ lower l.desc ≠ lower l.name ∧ lower l.desc ≠ lower (replace l.name '_' ' '))

instance (lower : String → String) (l : CapabilityListing) : Decidable (Tidy lower l) :=
  inferInstanceAs (Decidable (_ ∨ _))

variable {lower : String → String}

/-- The check applies the rules to the trimmed description. -/
theorem checkDescriptionQuality_ok {provider name desc : String}
    (h : checkDescriptionQuality lower provider name desc = .ok ()) :
    Described lower name (trim desc) := by
  obtain ⟨-, h⟩ := ite_error_eq_ok.mp h
  obtain ⟨hlong, h⟩ := ite_error_eq_ok.mp h
  obtain ⟨hshort, h⟩ := ite_error_eq_ok.mp h
  obtain ⟨hecho, h⟩ := ite_error_eq_ok.mp h
  obtain ⟨hline, -⟩ := ite_error_eq_ok.mp h
  rw [Bool.or_eq_true, List.contains_iff_mem, List.contains_iff_mem, not_or] at hline
  rw [not_or] at hecho
  exact ⟨not_lt.mp hlong, not_lt.mp hshort, hline.1, hline.2, hecho.1, hecho.2⟩

/-- What passes the check obeys the rules exactly if it is tidy. -/
theorem described_iff {l : CapabilityListing} (h : Described lower l.name (trim l.desc)) :
    Described lower l.name l.desc ↔ Tidy lower l := by
  have hsize : l.desc.utf8ByteSize
      = (leading l.desc ++ trailing l.desc).utf8ByteSize + (trim l.desc).utf8ByteSize := by
    conv_lhs => rw [← trim_parts l.desc]
    simp only [String.utf8ByteSize_append]
    omega
  constructor
  · intro hd
    refine Or.inr ⟨hsize ▸ hd.short, fun hc => ?_, fun hc => ?_, hd.notName, hd.notSpaced⟩
    · exact hd.noNewline (mem_trim_parts.mpr (Or.inr hc))
    · exact hd.noReturn (mem_trim_parts.mpr (Or.inr hc))
  · rintro (htrim | ⟨hshort, hnewline, hreturn, hname, hspaced⟩)
    · rw [htrim] at h
      exact h
    · refine ⟨h.long.trans (trim_utf8ByteSize_le _), hsize ▸ hshort, fun hc => ?_, fun hc => ?_,
        hname, hspaced⟩
      · exact (mem_trim_parts.mp hc).elim h.noNewline hnewline
      · exact (mem_trim_parts.mp hc).elim h.noReturn hreturn

/-! ## The index -/

theorem indexed_iff {reg : ProviderRegistry} {entry : IndexEntry} :
    Indexed reg entry ↔ ∃ e, reg.catalog.lookup entry.name = some e ∧ entry.desc = e.desc := by
  constructor
  · rintro (⟨resp, hresp, hmem⟩ | ⟨C, resp, hresp, hmem⟩)
    · obtain rfl := Except.ok.inj hresp
      obtain ⟨x, hx, rfl⟩ := List.mem_map.mp hmem
      exact ⟨x.2, AList.mem_lookup_iff.mpr hx, rfl⟩
    · obtain rfl := Except.ok.inj hresp
      obtain ⟨x, hx, rfl⟩ := List.mem_map.mp hmem
      exact ⟨x.2, AList.mem_lookup_iff.mpr (List.mem_filter.mp hx).1, rfl⟩
  · rintro ⟨e, he, hdesc⟩
    refine Or.inl ⟨_, rfl, List.mem_map.mpr ⟨⟨entry.name, e⟩, AList.mem_lookup_iff.mp he, ?_⟩⟩
    rw [← hdesc]

/-- What is published is what the catalog holds. -/
theorem publishedWell_iff {reg : ProviderRegistry} :
    PublishedWell lower reg ↔
      ∀ name e, reg.catalog.lookup name = some e → Described lower e.localName e.desc := by
  constructor
  · intro h name e he
    exact h ⟨name, e.desc⟩ (indexed_iff.mpr ⟨e, he, rfl⟩) e he
  · intro h entry hentry e he
    obtain ⟨e', he', hdesc⟩ := indexed_iff.mp hentry
    obtain rfl := Option.some.inj (he.symm.trans he')
    rw [hdesc]
    exact h _ _ he

/-! ## Runs -/

/-- The listings of the calls that are accepted. -/
def AllTidy (lower : String → String) (calls : List Provider) : Prop :=
  ∀ m ∈ accepted lower calls, ∀ l ∈ m.listings, Tidy lower l

instance (lower : String → String) (calls : List Provider) : Decidable (AllTidy lower calls) :=
  inferInstanceAs (Decidable (∀ m ∈ accepted lower calls, ∀ l ∈ m.listings, Tidy lower l))

variable {calls before : List Provider}

theorem accept_extends (acc : List Mounted) (p : Provider) : acc <+: accept lower acc p := by
  unfold accept
  split
  · exact List.prefix_refl acc
  · exact List.prefix_append acc _

theorem accepted_extends (h : before <+: calls) :
    accepted lower before <+: accepted lower calls := by
  obtain ⟨later, rfl⟩ := h
  induction later using List.reverseRecOn with
  | nil => rw [List.append_nil]
  | append_singleton later p ih =>
      rw [← List.append_assoc, accepted, accepted, List.foldl_concat, ← accepted, ← accepted]
      exact ih.trans (accept_extends _ p)

/-- Every accepted listing has passed the check. -/
theorem accepted_checked {m : Mounted} (hm : m ∈ accepted lower calls) {l : CapabilityListing}
    (hl : l ∈ m.listings) : Described lower l.name (trim l.desc) := by
  obtain ⟨-, known, hvalid⟩ := accepted_validated hm
  exact checkDescriptionQuality_ok ((validate_eq_ok.mp hvalid).2.2.2 l hl)

/-- An entry of the catalog obeys the rules if the listing it was made of is
tidy. -/
theorem described_of_tidy (htidy : AllTidy lower calls) {name : String} {e : CatalogEntry}
    (he : (ProviderRegistry.registerAll lower calls).catalog.lookup name = some e) :
    Described lower e.localName e.desc := by
  have hlisted := (RegistryInv.registerAll lower calls).entered.sound name e he
  obtain ⟨m, hm, hentry⟩ := List.mem_flatMap.mp hlisted
  obtain ⟨l, hl, rfl⟩ := List.mem_map.mp hentry
  exact (described_iff (accepted_checked hm hl)).mpr (htidy m hm l hl)

/-- What the index publishes obeys the rules after every call of a run whose
accepted listings are tidy; where no two listings are due the same name, so
that none is overwritten, it does not otherwise. -/
theorem published_well (lower : String → String) (calls : List Provider) :
    (AllTidy lower calls → ∀ before, before <+: calls →
        PublishedWell lower (ProviderRegistry.registerAll lower before))
      ∧ (NeverClash (allListed (accepted lower calls)) →
        (PublishedWell lower (ProviderRegistry.registerAll lower calls)
          ↔ AllTidy lower calls)) := by
  have hrun : AllTidy lower calls → ∀ before, before <+: calls →
      PublishedWell lower (ProviderRegistry.registerAll lower before) := by
    intro htidy before hpre
    refine publishedWell_iff.mpr fun name e he => described_of_tidy (fun m hm => ?_) he
    exact htidy m ((accepted_extends hpre).subset hm)
  refine ⟨hrun, fun hclash => ⟨fun hwell m hm l hl => ?_, fun htidy => ?_⟩⟩
  · have hinv := RegistryInv.registerAll lower calls
    rcases hinv.entered.directory with ⟨-, hnames⟩ | ⟨hnot, -⟩
    · have hentry := (hinv.route hnames hm hl).1
      have hdescribed := publishedWell_iff.mp hwell _ _ hentry
      exact (described_iff (accepted_checked hm hl)).mp hdescribed
    · exact absurd hclash hnot
  · exact hrun htidy calls (List.prefix_refl calls)

/-- The calls of a server that mounts one tool, `search`, of a configuration
file. -/
def searchCalls (provider desc : String) : List Provider :=
  let config : McpConfigFile :=
    { provider := provider
      bridgeProgram := "axp-mcp-bridge"
      bridgeArgs := ["call"]
      tools := [⟨"search", desc, .object []⟩] }
  match config.intoMount with
  | .ok mount => (mount.toProvider fun _ => .ok "{}").toOption.toList
  | .error _ => []

/-- The blank in front does no harm, also when the entry is promoted. The line
break behind does. -/
theorem published_well_promoted :
    PublishedWell asciiLower (ProviderRegistry.registerAll asciiLower
        (searchCalls "docs" " Search the documentation index"
          ++ searchCalls "web" "Search the web for a page"))
      ∧ ¬PublishedWell asciiLower (ProviderRegistry.registerAll asciiLower
        (searchCalls "docs" "Search the documentation index\n"
          ++ searchCalls "web" "Search the web for a page")) := by
  refine ⟨(published_well _ _).1 (by decide +kernel) _ (List.prefix_refl _), ?_⟩
  rw [(published_well _ _).2
    (neverClash_of_no_colon (RegistryInv.registerAll _ _).pairs (by decide +kernel))]
  decide +kernel

/-- A description with a line break behind it is published with it. -/
theorem published_with_newline :
    ¬PublishedWell asciiLower (ProviderRegistry.registerAll asciiLower
      (searchCalls "docs" "Search the documentation index\n")) := by
  obtain ⟨e, hlook, hline⟩ : ∃ e, (ProviderRegistry.registerAll asciiLower
      (searchCalls "docs" "Search the documentation index\n")).catalog.lookup "search" = some e
        ∧ '\n' ∈ e.desc.toList :=
    ⟨⟨"docs", "search", "Search the documentation index\n"⟩, by decide +kernel⟩
  intro hwell
  exact (publishedWell_iff.mp hwell _ _ hlook).noNewline hline

end Axp
