import Mathlib.Data.List.Induction
import Axp.Directory
import Axp.Provider
import Axp.Segments

/-!
# The provider registry

Registering a provider checks its listings and then enters them one by one.
A local name that one provider lists is exposed as it is; when a second
provider lists it, the entry already there is moved to its qualified name
`<id>:<name>`, and from then on everybody's is qualified.

`exposedName` is the closed form: the name an entry is due, given everything
listed so far. The catalog is a directory of what has been listed under these
names (`Directory.Names`) as long as no two entries are ever due the same
name at once (`NeverClash`). Bare and qualified names share one table of
strings, and neither ids nor names are kept from containing the separator, so
they can meet. An entry that is overwritten is lost for good, which makes the
condition exact (`catalog_correct_iff`); `neverClash_of_no_colon` is the
simple way to meet it.
-/

namespace Axp

open Directory

/-! ## The code -/

/-- What an exposed name leads back to. -/
structure CatalogEntry where
  providerId : String
  localName : String
  desc : String
deriving DecidableEq, Repr

/-- `format!("{id}:{n}")`. -/
def CatalogEntry.qualified (e : CatalogEntry) : String := e.providerId ++ ":" ++ e.localName

def CapabilityListing.entry (id : String) (listing : CapabilityListing) : CatalogEntry :=
  ⟨id, listing.name, listing.desc⟩

structure ProviderRegistry where
  providers : HashMap String Provider
  catalog : HashMap String CatalogEntry
  nameCounts : HashMap String Nat

def descMinLen : Nat := 10

def descMaxLen : Nat := 120

/-- Validate a description; `lower` is `str::to_lowercase`. -/
def checkDescriptionQuality (lower : String → String) (provider capName desc : String) :
    Result Unit :=
  let trimmed := trim desc
  let err (reason : String) : Error := .descriptionQuality provider capName reason
  if trimmed.isEmpty then .error (err "description must not be empty")
  else if trimmed.utf8ByteSize < descMinLen then
    .error (err ("description is too short (" ++ toString trimmed.utf8ByteSize
      ++ " chars); minimum is " ++ toString descMinLen))
  else if trimmed.utf8ByteSize > descMaxLen then
    .error (err ("description is too long (" ++ toString trimmed.utf8ByteSize
      ++ " chars); maximum is " ++ toString descMaxLen))
  else if lower trimmed = lower capName ∨ lower trimmed = lower (replace capName '_' ' ') then
    .error (err "description must not merely echo the capability name")
  else if trimmed.toList.contains '\n' || trimmed.toList.contains '\r' then
    .error (err "description must be a single line (no \\n or \\r)")
  else .ok ()

/-- The first local name listed twice is an error. -/
def checkDuplicates (id : String) : List String → List CapabilityListing → Result Unit
  | _, [] => .ok ()
  | seen, listing :: listings =>
      if listing.name ∈ seen then .error (.duplicateCapability id listing.name)
      else checkDuplicates id (listing.name :: seen) listings

/-- Steps 1 to 4 of `register`: everything that can reject a provider. -/
def validate (lower : String → String) (known : String → Bool) (provider : Provider) :
    Result (List CapabilityListing) :=
  if known provider.id then .error (.duplicateProvider provider.id)
  else do
    let listings ← provider.index
    checkDuplicates provider.id [] listings
    listings.forM fun l => checkDescriptionQuality lower provider.id l.name l.desc
    return listings

namespace ProviderRegistry

def new : ProviderRegistry := ⟨∅, ∅, ∅⟩

/-- Step 5 of `register`, for one listing. -/
def expose (id : String) (self : ProviderRegistry) (listing : CapabilityListing) :
    ProviderRegistry :=
  let n := listing.name
  let count := (self.nameCounts.lookup n).getD 0 + 1
  let entry := listing.entry id
  let catalog :=
    match count with
    | 1 => self.catalog.insert n entry
    | 2 =>
        -- Promote the previous bare entry to its qualified form.
        let promoted :=
          match self.catalog.lookup n with
          | some prev => (self.catalog.erase n).insert prev.qualified prev
          | none => self.catalog
        promoted.insert entry.qualified entry
    | _ => self.catalog.insert entry.qualified entry
  { self with catalog := catalog, nameCounts := self.nameCounts.insert n count }

/-- Register a provider. -/
def register (lower : String → String) (self : ProviderRegistry) (provider : Provider) :
    Result Unit × ProviderRegistry :=
  match validate lower (· ∈ self.providers) provider with
  | .error e => (.error e, self)
  | .ok listings =>
      let self := listings.foldl (expose provider.id) self
      (.ok (), { self with providers := self.providers.insert provider.id provider })

/-- Full detail of an exposed name. -/
def describe (self : ProviderRegistry) (name : String) : Result CapabilityDetail := do
  let entry ← okOr (self.catalog.lookup name) (.capabilityNotFound name)
  let provider ← okOr (self.providers.lookup entry.providerId) (.capabilityNotFound name)
  provider.describe entry.localName

/-- The command an invocation of an exposed name resolves to. -/
def resolve (self : ProviderRegistry) (name : String) (params : Value) :
    Result ResolvedCommand := do
  let entry ← okOr (self.catalog.lookup name) (.capabilityNotFound name)
  let provider ← okOr (self.providers.lookup entry.providerId) (.capabilityNotFound name)
  provider.resolve entry.localName params

theorem describe_of_route {self : ProviderRegistry} {name : String} {e : CatalogEntry}
    {p : Provider} (he : self.catalog.lookup name = some e)
    (hp : self.providers.lookup e.providerId = some p) :
    self.describe name = p.describe e.localName := by
  simp [describe, he, hp, okOr, bind, Except.bind]

theorem resolve_of_route {self : ProviderRegistry} {name : String} {e : CatalogEntry}
    {p : Provider} (he : self.catalog.lookup name = some e)
    (hp : self.providers.lookup e.providerId = some p) (params : Value) :
    self.resolve name params = p.resolve e.localName params := by
  simp [resolve, he, hp, okOr, bind, Except.bind]

/-- The registry after a sequence of calls. -/
def registerAll (lower : String → String) (calls : List Provider) : ProviderRegistry :=
  calls.foldl (fun self p => (self.register lower p).2) new

end ProviderRegistry

/-! ## The name an entry is due -/

/-- Its local name as long as no other provider lists that name, and its
qualified name otherwise. -/
def exposedName (listed : List CatalogEntry) (e : CatalogEntry) : String :=
  if ∃ o ∈ listed, o.localName = e.localName ∧ o.providerId ≠ e.providerId then e.qualified
  else e.localName

/-- Provider and local name, which is what a catalog entry stands for. -/
def CatalogEntry.pair (e : CatalogEntry) : String × String := (e.providerId, e.localName)

def PairsDistinct (listed : List CatalogEntry) : Prop := (listed.map (·.pair)).Nodup

/-- The entries of a list. -/
abbrev entriesOf (listed : List CatalogEntry) : Set CatalogEntry := { e | e ∈ listed }

/-- However much of the list has been entered, no two of its entries are due
the same name. -/
def NeverClash (listed : List CatalogEntry) : Prop :=
  ∀ early, early <+: listed → Set.InjOn (exposedName early) (entriesOf early)

variable {listed : List CatalogEntry} {e a d : CatalogEntry}

theorem exposedName_concat (listed : List CatalogEntry) (e a : CatalogEntry) :
    exposedName (listed ++ [e]) a =
      if e.localName = a.localName ∧ e.providerId ≠ a.providerId then a.qualified
      else exposedName listed a := by
  unfold exposedName
  simp only [List.mem_append, List.mem_singleton, or_and_right, exists_or, exists_eq_left]
  split
  · next h =>
      rcases h with h | h
      · simp [h]
      · simp [h]
  · next h =>
      rw [not_or] at h
      simp [h.1, h.2]

theorem entriesOf_concat (listed : List CatalogEntry) (e : CatalogEntry) :
    entriesOf (listed ++ [e]) = insert e (entriesOf listed) := by
  ext a
  simp [or_comm]

theorem neverClash_nil : NeverClash [] := by
  intro early hpre
  obtain rfl := List.prefix_nil.mp hpre
  intro a ha
  cases ha

theorem neverClash_concat : NeverClash (listed ++ [e]) ↔
    NeverClash listed
      ∧ Set.InjOn (exposedName (listed ++ [e])) (entriesOf (listed ++ [e])) := by
  constructor
  · intro h
    exact ⟨fun early hpre => h early (hpre.trans (List.prefix_append ..)), h _ (List.prefix_refl _)⟩
  · rintro ⟨hold, hnew⟩ early hpre
    rcases List.prefix_concat_iff.mp hpre with rfl | hpre
    · exact hnew
    · exact hold early hpre

namespace PairsDistinct

theorem concat_iff : PairsDistinct (listed ++ [e]) ↔
    PairsDistinct listed ∧ ∀ a ∈ listed, a.pair ≠ e.pair := by
  unfold PairsDistinct
  rw [List.map_append, List.nodup_append_comm, List.map_singleton, List.singleton_append,
    List.nodup_cons, List.mem_map, and_comm]
  simp only [not_exists, not_and, ne_eq]

theorem eq_of_pair (h : PairsDistinct listed) (ha : a ∈ listed) (hd : d ∈ listed)
    (hpair : a.pair = d.pair) : a = d := List.inj_on_of_nodup_map h ha hd hpair

end PairsDistinct

/-! ### A way never to clash -/

theorem exposedName_cases (listed : List CatalogEntry) (e : CatalogEntry) :
    exposedName listed e = e.qualified
      ∨ (exposedName listed e = e.localName
        ∧ ∀ o ∈ listed, o.localName = e.localName → o.providerId = e.providerId) := by
  by_cases h : ∃ o ∈ listed, o.localName = e.localName ∧ o.providerId ≠ e.providerId
  · exact Or.inl (if_pos h)
  · refine Or.inr ⟨if_neg h, fun o ho hname => ?_⟩
    by_contra hid
    exact h ⟨o, ho, hname, hid⟩

theorem qualified_toList (e : CatalogEntry) :
    e.qualified.toList = e.providerId.toList ++ ':' :: e.localName.toList := by
  simp [CatalogEntry.qualified, String.toList_append]

theorem colon_mem_qualified (e : CatalogEntry) : ':' ∈ e.qualified.toList := by
  rw [qualified_toList]
  exact List.mem_append_right _ List.mem_cons_self

/-- Without a separator in the local name, a qualified name determines its
entry. -/
theorem pair_of_qualified (ha : ':' ∉ a.localName.toList) (he : ':' ∉ e.localName.toList)
    (h : a.qualified = e.qualified) : a.pair = e.pair := by
  have hlist := congrArg String.toList h
  rw [qualified_toList, qualified_toList] at hlist
  obtain ⟨hid, hname⟩ := Segments.append_cons_inj_last ha he hlist
  exact Prod.ext (String.toList_injective hid) (String.toList_injective hname)

/-- Names without the separator never clash, whatever the ids. -/
theorem neverClash_of_no_colon (hpairs : PairsDistinct listed)
    (h : ∀ e ∈ listed, ':' ∉ e.localName.toList) : NeverClash listed := by
  intro early hpre a ha b hb hname
  have hal := hpre.subset ha
  have hbl := hpre.subset hb
  refine hpairs.eq_of_pair hal hbl ?_
  rcases exposedName_cases early a with hqa | ⟨hqa, halone⟩ <;>
    rcases exposedName_cases early b with hqb | ⟨hqb, -⟩ <;>
      rw [hqa, hqb] at hname
  · exact pair_of_qualified (h a hal) (h b hbl) hname
  · exact absurd (hname ▸ colon_mem_qualified a) (h b hbl)
  · exact absurd (hname ▸ colon_mem_qualified b) (h a hal)
  · exact Prod.ext (halone b hb hname.symm).symm hname

/-! ## Entering one listing -/

/-- The entries that list the name. -/
def homonyms (listed : List CatalogEntry) (n : String) : List CatalogEntry :=
  listed.filter (·.localName = n)

theorem mem_homonyms {n : String} : a ∈ homonyms listed n ↔ a ∈ listed ∧ a.localName = n := by
  simp [homonyms]

namespace ProviderRegistry

variable {reg : ProviderRegistry} {id : String} {l : CapabilityListing}

/-- The table counts the providers that list a name. -/
def Counts (listed : List CatalogEntry) (reg : ProviderRegistry) : Prop :=
  ∀ n, (reg.nameCounts.lookup n).getD 0 = (homonyms listed n).length

theorem expose_counts (h : Counts listed reg) :
    Counts (listed ++ [l.entry id]) (reg.expose id l) := by
  intro n
  rw [homonyms, List.filter_append, List.length_append]
  by_cases hn : n = l.name
  · rw [hn, expose, AList.lookup_insert, ← homonyms, ← h l.name]
    simp [CapabilityListing.entry]
  · rw [expose, AList.lookup_insert_ne hn, ← homonyms, ← h n]
    simp [CapabilityListing.entry, Ne.symm hn]

theorem exposedName_of_other {o : CatalogEntry} (ho : o ∈ listed)
    (hname : o.localName = e.localName) (hid : o.providerId ≠ e.providerId) :
    exposedName listed e = e.qualified := if_pos ⟨o, ho, hname, hid⟩

theorem exposedName_of_alone
    (h : ∀ o ∈ listed, o.localName = e.localName → o.providerId = e.providerId) :
    exposedName listed e = e.localName :=
  if_neg fun ⟨o, ho, hname, hid⟩ => hid (h o ho hname)

/-- The entries of other local names keep the name they are due. -/
theorem exposedName_concat_of_ne (h : e.localName ≠ a.localName) :
    exposedName (listed ++ [e]) a = exposedName listed a := by
  rw [exposedName_concat, if_neg fun hc => h hc.1]

/-- The table is still a directory, or an entry has been lost, according to
whether the names are still distinct. -/
def Outcome (listed : List CatalogEntry) (catalog : HashMap String CatalogEntry) : Prop :=
  (Set.InjOn (exposedName listed) (entriesOf listed)
      ∧ Names (exposedName listed) (entriesOf listed) catalog)
    ∨ (¬Set.InjOn (exposedName listed) (entriesOf listed)
      ∧ ∃ a ∈ listed, Lost catalog a)

/-- A new entry filed under its name, where the others keep theirs. -/
theorem Outcome.file {name : CatalogEntry → String} {catalog : HashMap String CatalogEntry}
    (hnames : Names name (entriesOf listed) catalog) (he : e ∉ listed)
    (heq : ∀ a ∈ listed, name a = exposedName (listed ++ [e]) a) :
    Outcome (listed ++ [e]) (catalog.insert (exposedName (listed ++ [e]) e) e) := by
  unfold Outcome
  rw [entriesOf_concat]
  rcases (hnames.congr heq).insert_cases he with h | ⟨hinj, a, ha, hlost⟩
  · exact Or.inl h
  · exact Or.inr ⟨hinj, a, List.mem_append_left _ ha, hlost⟩

/-- A name nobody lists yet is entered as it is, and no other name changes. -/
theorem expose_first (hcounts : Counts listed reg) (he : l.entry id ∉ listed)
    (hnames : Names (exposedName listed) (entriesOf listed) reg.catalog)
    (hhom : homonyms listed l.name = []) :
    Outcome (listed ++ [l.entry id]) (reg.expose id l).catalog := by
  have hother : ∀ a ∈ listed, a.localName ≠ l.name := by
    intro a ha hname
    have hmem := mem_homonyms.mpr ⟨ha, hname⟩
    rw [hhom] at hmem
    cases hmem
  have hdue : exposedName (listed ++ [l.entry id]) (l.entry id) = l.name := by
    rw [exposedName_concat, if_neg fun hc => hc.2 rfl]
    exact exposedName_of_alone fun o ho hname => absurd hname (hother o ho)
  have hcatalog : (reg.expose id l).catalog
      = reg.catalog.insert (exposedName (listed ++ [l.entry id]) (l.entry id)) (l.entry id) := by
    simp only [expose, hcounts l.name, hhom, hdue, List.length_nil]
  rw [hcatalog]
  exact Outcome.file hnames he fun a ha =>
    (exposedName_concat_of_ne (Ne.symm (hother a ha))).symm

/-- The entry of the one provider that lists the name is promoted. -/
theorem expose_second (hcounts : Counts listed reg) (he : l.entry id ∉ listed)
    (hnames : Names (exposedName listed) (entriesOf listed) reg.catalog)
    (hhom : homonyms listed l.name = [d]) (hid : d.providerId ≠ id) :
    Outcome (listed ++ [l.entry id]) (reg.expose id l).catalog := by
  obtain ⟨hd, hdname⟩ := mem_homonyms.mp (hhom ▸ List.mem_singleton_self d)
  have hone : ∀ a ∈ listed, a.localName = l.name → a = d := by
    intro a ha hname
    have hmem := mem_homonyms.mpr ⟨ha, hname⟩
    rw [hhom] at hmem
    exact List.mem_singleton.mp hmem
  have hbare : exposedName listed d = l.name := by
    rw [← hdname]
    exact exposedName_of_alone fun o ho hname => by rw [hone o ho (hname.trans hdname)]
  have hpromoted : exposedName (listed ++ [l.entry id]) d = d.qualified :=
    exposedName_of_other (List.mem_append_right _ (List.mem_singleton_self _))
      hdname.symm (Ne.symm hid)
  have hdue : exposedName (listed ++ [l.entry id]) (l.entry id) = (l.entry id).qualified :=
    exposedName_of_other (List.mem_append_left _ hd) hdname hid
  have hlook : reg.catalog.lookup l.name = some d := by
    rw [← hbare]
    exact hnames.lookup hd
  have hcatalog : (reg.expose id l).catalog
      = ((reg.catalog.erase (exposedName listed d)).insert
          (exposedName (listed ++ [l.entry id]) d) d).insert
          (exposedName (listed ++ [l.entry id]) (l.entry id)) (l.entry id) := by
    simp only [expose, hcounts l.name, hhom, hdue, hbare, hpromoted, hlook,
      List.length_singleton]
  rw [hcatalog]
  have hkeep : ∀ a ∈ entriesOf listed, a ≠ d →
      exposedName listed a = exposedName (listed ++ [l.entry id]) a := by
    intro a ha hne
    exact (exposedName_concat_of_ne fun hname => hne (hone a ha hname.symm)).symm
  rcases hnames.rename_cases hd hkeep with ⟨-, hrenamed⟩ | ⟨hinj, a, ha, hlost⟩
  · exact Outcome.file hrenamed he fun _ _ => rfl
  · refine Or.inr ⟨fun hall => hinj (hall.mono fun x hx => List.mem_append_left _ hx), a,
      List.mem_append_left _ ha, hlost.insert ?_⟩
    rintro rfl
    exact he ha

/-- Where several providers list the name, their entries are qualified
already. -/
theorem expose_further {d' : CatalogEntry} {rest : List CatalogEntry}
    (hcounts : Counts listed reg) (he : l.entry id ∉ listed)
    (hnames : Names (exposedName listed) (entriesOf listed) reg.catalog)
    (hhom : homonyms listed l.name = d :: d' :: rest) (hid : d.providerId ≠ id)
    (hne : d.providerId ≠ d'.providerId) :
    Outcome (listed ++ [l.entry id]) (reg.expose id l).catalog := by
  obtain ⟨hd, hdname⟩ := mem_homonyms.mp (hhom ▸ List.mem_cons_self)
  obtain ⟨hd', hdname'⟩ := mem_homonyms.mp (hhom ▸ List.mem_cons_of_mem _ List.mem_cons_self)
  have hdue : exposedName (listed ++ [l.entry id]) (l.entry id) = (l.entry id).qualified :=
    exposedName_of_other (List.mem_append_left _ hd) hdname hid
  have hcatalog : (reg.expose id l).catalog
      = reg.catalog.insert (exposedName (listed ++ [l.entry id]) (l.entry id)) (l.entry id) := by
    simp only [expose, hcounts l.name, hhom, hdue, List.length_cons]
  rw [hcatalog]
  refine Outcome.file hnames he fun a ha => ?_
  rw [exposedName_concat]
  split
  · next hc =>
      by_cases hida : d.providerId = a.providerId
      · exact exposedName_of_other hd' (hdname'.trans hc.1) fun h => hne (hida.trans h.symm)
      · exact exposedName_of_other hd (hdname.trans hc.1) hida
  · rfl

theorem expose_catalog (hcounts : Counts listed reg)
    (hpairs : PairsDistinct (listed ++ [l.entry id]))
    (hnames : Names (exposedName listed) (entriesOf listed) reg.catalog) :
    Outcome (listed ++ [l.entry id]) (reg.expose id l).catalog := by
  obtain ⟨hpairs, hnew⟩ := PairsDistinct.concat_iff.mp hpairs
  have he : l.entry id ∉ listed := fun hmem => hnew _ hmem rfl
  have hprov : ∀ a ∈ homonyms listed l.name, a.providerId ≠ id := by
    intro a ha hid
    obtain ⟨ha, hname⟩ := mem_homonyms.mp ha
    exact hnew a ha (Prod.ext hid hname)
  have hdistinct : (homonyms listed l.name).Pairwise fun a d => a.providerId ≠ d.providerId := by
    refine ((List.pairwise_map.mp hpairs).filter _).imp_of_mem fun ha hd hne hid => hne ?_
    exact Prod.ext hid ((mem_homonyms.mp ha).2.trans (mem_homonyms.mp hd).2.symm)
  cases hhom : homonyms listed l.name with
  | nil => exact expose_first hcounts he hnames hhom
  | cons d rest =>
      have hid := hprov d (hhom ▸ List.mem_cons_self)
      cases rest with
      | nil => exact expose_second hcounts he hnames hhom hid
      | cons d' rest =>
          rw [hhom, List.pairwise_cons] at hdistinct
          exact expose_further hcounts he hnames hhom hid (hdistinct.1 d' List.mem_cons_self)

/-- What entering a listing does to the table, whatever is in it. -/
theorem expose_edit (reg : ProviderRegistry) (id : String) (l : CapabilityListing) :
    ∃ k, (reg.expose id l).catalog = reg.catalog.insert k (l.entry id)
      ∨ ∃ prev, reg.catalog.lookup l.name = some prev ∧ (reg.expose id l).catalog
          = ((reg.catalog.erase l.name).insert prev.qualified prev).insert k (l.entry id) := by
  simp only [expose]
  split
  · exact ⟨_, Or.inl rfl⟩
  · cases hlook : reg.catalog.lookup l.name with
    | none => exact ⟨_, Or.inl rfl⟩
    | some prev => exact ⟨_, Or.inr ⟨prev, rfl, rfl⟩⟩
  · exact ⟨_, Or.inl rfl⟩

theorem expose_lost (h : Lost reg.catalog a) (hne : a ≠ l.entry id) :
    Lost (reg.expose id l).catalog a := by
  obtain ⟨k, hedit | ⟨prev, hprev, hedit⟩⟩ := reg.expose_edit id l
  · rw [hedit]
    exact h.insert hne
  · rw [hedit]
    exact (h.erase.insert (h.ne_of_lookup hprev)).insert hne

/-- The registry after entries have been listed: its catalog holds nothing
else, and is a directory of them unless they have clashed. -/
structure Entered (listed : List CatalogEntry) (reg : ProviderRegistry) : Prop where
  counts : Counts listed reg
  sound : ∀ k a, reg.catalog.lookup k = some a → a ∈ listed
  directory :
    (NeverClash listed ∧ Names (exposedName listed) (entriesOf listed) reg.catalog)
      ∨ (¬NeverClash listed ∧ ∃ a ∈ listed, Lost reg.catalog a)

theorem foldl_expose_providers (id : String) (ls : List CapabilityListing) :
    ∀ reg : ProviderRegistry, (ls.foldl (expose id) reg).providers = reg.providers := by
  induction ls with
  | nil => intro reg; rfl
  | cons l ls ih => intro reg; exact ih _

namespace Entered

/-- The providers play no part in the catalog. -/
theorem withProviders (h : Entered listed reg) (providers : HashMap String Provider) :
    Entered listed { reg with providers := providers } :=
  ⟨h.counts, h.sound, h.directory⟩

theorem new : Entered [] ProviderRegistry.new := by
  refine ⟨fun n => ?_, fun k a h => ?_, Or.inl ⟨neverClash_nil, ?_⟩⟩
  · rfl
  · cases h
  · intro k a
    exact iff_of_false (fun h => by cases h) fun h => List.not_mem_nil h.1

theorem expose (h : Entered listed reg) (hpairs : PairsDistinct (listed ++ [l.entry id])) :
    Entered (listed ++ [l.entry id]) (reg.expose id l) := by
  refine ⟨expose_counts h.counts, fun k a hlook => ?_, ?_⟩
  · rw [List.mem_append, List.mem_singleton]
    obtain ⟨k', hedit | ⟨prev, hprev, hedit⟩⟩ := reg.expose_edit id l
    · rw [hedit, lookup_insert_iff] at hlook
      exact hlook.symm.imp (fun hold => h.sound k a hold.2) And.right
    · rw [hedit, lookup_insert_iff, lookup_insert_iff, lookup_erase_iff] at hlook
      rcases hlook with ⟨-, rfl⟩ | ⟨-, ⟨-, rfl⟩ | ⟨-, -, hold⟩⟩
      · exact Or.inr rfl
      · exact Or.inl (h.sound _ _ hprev)
      · exact Or.inl (h.sound k a hold)
  · rw [neverClash_concat]
    rcases h.directory with ⟨hclash, hnames⟩ | ⟨hclash, a, ha, hlost⟩
    · rcases expose_catalog h.counts hpairs hnames with ⟨hinj, hnames'⟩ | ⟨hinj, hlost⟩
      · exact Or.inl ⟨⟨hclash, hinj⟩, hnames'⟩
      · exact Or.inr ⟨fun hnew => hinj hnew.2, hlost⟩
    · refine Or.inr ⟨fun hnew => hclash hnew.1, a, List.mem_append_left _ ha,
        expose_lost hlost ?_⟩
      rintro rfl
      exact (PairsDistinct.concat_iff.mp hpairs).2 _ ha rfl

/-- All listings of one provider. -/
theorem foldl_expose {ls : List CapabilityListing} : ∀ {listed : List CatalogEntry}
    {reg : ProviderRegistry}, Entered listed reg →
      PairsDistinct (listed ++ ls.map (·.entry id)) →
      Entered (listed ++ ls.map (·.entry id)) (ls.foldl (ProviderRegistry.expose id) reg) := by
  induction ls with
  | nil =>
      intro listed reg h _
      rw [List.map_nil, List.append_nil]
      exact h
  | cons l ls ih =>
      intro listed reg h hpairs
      rw [List.map_cons, List.append_cons] at hpairs ⊢
      refine ih (h.expose ?_) hpairs
      unfold PairsDistinct at hpairs ⊢
      rw [List.map_append] at hpairs
      exact hpairs.of_append_left

end Entered

end ProviderRegistry

/-! ## Sequences of calls -/

/-- A provider that was accepted, with the listings it was accepted with. -/
structure Mounted where
  provider : Provider
  listings : List CapabilityListing

/-- The providers one more call leaves accepted. -/
def accept (lower : String → String) (accepted : List Mounted) (p : Provider) : List Mounted :=
  match validate lower (fun id => accepted.any (·.provider.id = id)) p with
  | .error _ => accepted
  | .ok listings => accepted ++ [⟨p, listings⟩]

/-- The providers a sequence of calls accepts. -/
def accepted (lower : String → String) (calls : List Provider) : List Mounted :=
  calls.foldl (accept lower) []

def Mounted.entries (m : Mounted) : List CatalogEntry := m.listings.map (·.entry m.provider.id)

/-- Everything the accepted providers list, in the order it is entered. -/
def allListed (accepted : List Mounted) : List CatalogEntry := accepted.flatMap (·.entries)

variable {lower : String → String} {acc : List Mounted} {reg : ProviderRegistry} {p : Provider}

theorem checkDuplicates_ok {id : String} {ls : List CapabilityListing} :
    ∀ {seen : List String}, checkDuplicates id seen ls = .ok () →
      (∀ l ∈ ls, l.name ∉ seen) ∧ (ls.map (·.name)).Nodup := by
  induction ls with
  | nil => intro seen _; simp
  | cons l ls ih =>
      intro seen h
      obtain ⟨hseen, hrest⟩ := ite_error_eq_ok.mp h
      obtain ⟨hnew, hnodup⟩ := ih hrest
      refine ⟨?_, ?_⟩
      · rintro l' hl' hmem
        rcases List.mem_cons.mp hl' with rfl | hl'
        · exact hseen hmem
        · exact hnew l' hl' (List.mem_cons_of_mem _ hmem)
      · rw [List.map_cons, List.nodup_cons, List.mem_map]
        refine ⟨?_, hnodup⟩
        rintro ⟨l', hl', hname⟩
        exact hnew l' hl' (hname ▸ List.mem_cons_self)

/-- All that the checks say of an accepted provider. -/
theorem validate_eq_ok {known : String → Bool} {ls : List CapabilityListing} :
    validate lower known p = .ok ls ↔ ¬known p.id = true ∧ p.index = .ok ls
      ∧ checkDuplicates p.id [] ls = .ok ()
      ∧ ∀ l ∈ ls, checkDescriptionQuality lower p.id l.name l.desc = .ok () := by
  unfold validate
  rw [ite_error_eq_ok]
  refine and_congr_right fun _ => ?_
  constructor
  · intro h
    obtain ⟨ls', hindex, h⟩ := bind_eq_ok.mp h
    obtain ⟨⟨⟩, hdup, h⟩ := bind_eq_ok.mp h
    obtain ⟨⟨⟩, hdesc, h⟩ := bind_eq_ok.mp h
    obtain rfl := Except.ok.inj h
    exact ⟨hindex, hdup, forM_eq_ok.mp hdesc⟩
  · rintro ⟨hindex, hdup, hdesc⟩
    rw [hindex]
    refine bind_eq_ok.mpr ⟨ls, rfl, bind_eq_ok.mpr ⟨(), hdup, ?_⟩⟩
    exact bind_eq_ok.mpr ⟨(), forM_eq_ok.mpr hdesc, rfl⟩

/-- An accepted provider has a new id and lists each name once. -/
theorem validate_ok {known : String → Bool} {ls : List CapabilityListing}
    (h : validate lower known p = .ok ls) :
    known p.id = false ∧ (ls.map (·.name)).Nodup := by
  obtain ⟨hknown, -, hdup, -⟩ := validate_eq_ok.mp h
  exact ⟨Bool.eq_false_iff.mpr hknown, (checkDuplicates_ok hdup).2⟩

/-- Each accepted provider comes from one of the calls, and was checked when
it was made. -/
theorem accepted_validated {calls : List Provider} {m : Mounted}
    (hm : m ∈ accepted lower calls) :
    m.provider ∈ calls ∧ ∃ known, validate lower known m.provider = .ok m.listings := by
  induction calls using List.reverseRecOn with
  | nil => cases hm
  | append_singleton calls p ih =>
      rw [accepted, List.foldl_concat, ← accepted, accept] at hm
      split at hm
      · exact (ih hm).imp_left (List.mem_append_left _)
      · next listings hvalid =>
          rcases List.mem_append.mp hm with hm | hm
          · exact (ih hm).imp_left (List.mem_append_left _)
          · obtain rfl := List.mem_singleton.mp hm
            exact ⟨List.mem_append_right _ (List.mem_singleton_self p), _, hvalid⟩

/-- The registry after the accepted providers. -/
structure RegistryInv (acc : List Mounted) (reg : ProviderRegistry) : Prop where
  providers : Names (·.id) { p | ∃ m ∈ acc, m.provider = p } reg.providers
  pairs : PairsDistinct (allListed acc)
  entered : reg.Entered (allListed acc)

namespace RegistryInv

theorem new : RegistryInv [] ProviderRegistry.new := by
  refine ⟨?_, List.nodup_nil, .new⟩
  intro k a
  refine iff_of_false (fun h => by cases h) ?_
  rintro ⟨⟨m, hm, -⟩, -⟩
  exact List.not_mem_nil hm

/-- The code and the accepted list agree on which ids are taken. -/
theorem known_iff (h : RegistryInv acc reg) (id : String) :
    id ∈ reg.providers ↔ acc.any (·.provider.id = id) = true := by
  rw [← AList.lookup_isSome, Option.isSome_iff_exists, List.any_eq_true]
  constructor
  · rintro ⟨p, hp⟩
    obtain ⟨⟨m, hm, rfl⟩, hid⟩ := (h.providers id p).mp hp
    exact ⟨m, hm, decide_eq_true hid⟩
  · rintro ⟨m, hm, hid⟩
    exact ⟨m.provider, (h.providers id m.provider).mpr ⟨⟨m, hm, rfl⟩, of_decide_eq_true hid⟩⟩

theorem mem_entries {m : Mounted} (ha : a ∈ m.entries) : a.providerId = m.provider.id := by
  obtain ⟨l, -, rfl⟩ := List.mem_map.mp ha
  rfl

theorem mount_pairs {ls : List CapabilityListing} (h : RegistryInv acc reg)
    (hknown : acc.any (·.provider.id = p.id) = false) (hnames : (ls.map (·.name)).Nodup) :
    PairsDistinct (allListed acc ++ (⟨p, ls⟩ : Mounted).entries) := by
  unfold PairsDistinct
  rw [List.map_append]
  refine h.pairs.append ?_ ?_
  · have hcomp : ((⟨p, ls⟩ : Mounted).entries).map (·.pair)
        = (ls.map (·.name)).map fun n => (p.id, n) := by
      simp [Mounted.entries, CapabilityListing.entry, CatalogEntry.pair]
    rw [hcomp]
    exact hnames.map fun n n' heq => (Prod.mk.inj heq).2
  · intro pair hacc hnew
    obtain ⟨a, ha, rfl⟩ := List.mem_map.mp hacc
    obtain ⟨d, hd, hpair⟩ := List.mem_map.mp hnew
    obtain ⟨m, hm, ham⟩ := List.mem_flatMap.mp ha
    have hid : m.provider.id = p.id := by
      rw [← mem_entries ham, ← mem_entries hd]
      exact (congrArg Prod.fst hpair).symm
    have := List.any_eq_false.mp hknown m hm
    simp [hid] at this

/-- Entering a provider's listings and then the provider itself. -/
theorem mount {ls : List CapabilityListing} (h : RegistryInv acc reg)
    (hknown : acc.any (·.provider.id = p.id) = false) (hnames : (ls.map (·.name)).Nodup) :
    RegistryInv (acc ++ [⟨p, ls⟩])
      { ls.foldl (ProviderRegistry.expose p.id) reg with
        providers := reg.providers.insert p.id p } := by
  have hpairs := h.mount_pairs hknown hnames
  have hlistings : allListed (acc ++ [⟨p, ls⟩])
      = allListed acc ++ (⟨p, ls⟩ : Mounted).entries := by
    simp [allListed]
  refine ⟨?_, ?_, ?_⟩
  · have hset : { q | ∃ m ∈ acc ++ [⟨p, ls⟩], m.provider = q }
        = insert p { q | ∃ m ∈ acc, m.provider = q } := by
      apply Set.ext
      intro q
      simp [or_and_right, exists_or, or_comm, eq_comm]
    rw [hset]
    refine h.providers.insert ?_
    rintro q ⟨m, hm, rfl⟩ hid
    exact List.any_eq_false.mp hknown m hm (decide_eq_true hid)
  · rw [hlistings]
    exact hpairs
  · rw [hlistings]
    exact (h.entered.foldl_expose hpairs).withProviders _

/-- A call is rejected and changes nothing, or enters all that the provider
lists. -/
theorem register_cases (h : RegistryInv acc reg) (lower : String → String) (p : Provider) :
    (∃ err, reg.register lower p = (.error err, reg) ∧ accept lower acc p = acc)
      ∨ ∃ ls, (reg.register lower p).1 = .ok () ∧ accept lower acc p = acc ++ [⟨p, ls⟩]
        ∧ RegistryInv (acc ++ [⟨p, ls⟩]) (reg.register lower p).2 := by
  have hsame : validate lower (· ∈ reg.providers) p
      = validate lower (fun id => acc.any (·.provider.id = id)) p := by
    simp only [validate, h.known_iff, Bool.decide_eq_true]
  unfold ProviderRegistry.register accept
  rw [hsame]
  cases hv : validate lower (fun id => acc.any (·.provider.id = id)) p with
  | error err => exact Or.inl ⟨err, rfl, rfl⟩
  | ok ls =>
      obtain ⟨hknown, hnames⟩ := validate_ok hv
      refine Or.inr ⟨ls, rfl, rfl, ?_⟩
      dsimp only
      rw [ProviderRegistry.foldl_expose_providers]
      exact h.mount hknown hnames

/-- The registry after any sequence of calls. -/
theorem registerAll (lower : String → String) (calls : List Provider) :
    RegistryInv (accepted lower calls) (ProviderRegistry.registerAll lower calls) := by
  induction calls using List.reverseRecOn with
  | nil => exact new
  | append_singleton calls p ih =>
      rw [accepted, ProviderRegistry.registerAll, List.foldl_concat, List.foldl_concat,
        ← accepted, ← ProviderRegistry.registerAll]
      rcases ih.register_cases lower p with ⟨err, hreg, hacc⟩ | ⟨ls, -, hacc, hinv⟩
      · rw [hreg, hacc]
        exact ih
      · rw [hacc]
        exact hinv

end RegistryInv

/-! ## The catalog -/

/-- The name a listing of an accepted provider is due. -/
def Mounted.exposed (acc : List Mounted) (m : Mounted) (l : CapabilityListing) : String :=
  exposedName (allListed acc) (l.entry m.provider.id)

/-- The catalog loses nothing and confuses nothing. -/
structure CatalogCorrect (lower : String → String) (calls : List Provider) : Prop where
  /-- Each listing is exposed under the name it is due, and under no other. -/
  exposed : ∀ m ∈ accepted lower calls, ∀ l ∈ m.listings, ∀ name,
    (∃ e, (ProviderRegistry.registerAll lower calls).catalog.lookup name = some e
      ∧ e.providerId = m.provider.id ∧ e.localName = l.name)
      ↔ name = m.exposed (accepted lower calls) l
  distinct : ∀ m ∈ accepted lower calls, ∀ l ∈ m.listings,
    ∀ m' ∈ accepted lower calls, ∀ l' ∈ m'.listings,
    m.exposed (accepted lower calls) l = m'.exposed (accepted lower calls) l' →
      m.provider.id = m'.provider.id ∧ l.name = l'.name
  describe : ∀ m ∈ accepted lower calls, ∀ l ∈ m.listings,
    (ProviderRegistry.registerAll lower calls).describe (m.exposed (accepted lower calls) l)
      = m.provider.describe l.name
  resolve : ∀ m ∈ accepted lower calls, ∀ l ∈ m.listings, ∀ params,
    (ProviderRegistry.registerAll lower calls).resolve (m.exposed (accepted lower calls) l) params
      = m.provider.resolve l.name params
  /-- A rejected call changes nothing. -/
  rejected : ∀ before p err, before ++ [p] <+: calls →
    ((ProviderRegistry.registerAll lower before).register lower p).1 = .error err →
      ((ProviderRegistry.registerAll lower before).register lower p).2
        = ProviderRegistry.registerAll lower before

theorem mem_allListed {m : Mounted} {l : CapabilityListing} (hm : m ∈ acc)
    (hl : l ∈ m.listings) : l.entry m.provider.id ∈ allListed acc :=
  List.mem_flatMap.mpr ⟨m, hm, List.mem_map.mpr ⟨l, hl, rfl⟩⟩

namespace RegistryInv

/-- An exposed name leads to its own provider. -/
theorem route (h : RegistryInv acc reg)
    (hnames : Names (exposedName (allListed acc)) (entriesOf (allListed acc)) reg.catalog)
    {m : Mounted} {l : CapabilityListing} (hm : m ∈ acc) (hl : l ∈ m.listings) :
    reg.catalog.lookup (m.exposed acc l) = some (l.entry m.provider.id)
      ∧ reg.providers.lookup m.provider.id = some m.provider :=
  ⟨hnames.lookup (mem_allListed hm hl), h.providers.lookup ⟨m, hm, rfl⟩⟩

end RegistryInv

/-- The catalog is correct after a sequence of calls exactly if no two
listings have been due the same name at once. -/
theorem catalog_correct_iff (lower : String → String) (calls : List Provider) :
    CatalogCorrect lower calls ↔ NeverClash (allListed (accepted lower calls)) := by
  have hinv := RegistryInv.registerAll lower calls
  constructor
  · intro hcorrect
    rcases hinv.entered.directory with ⟨hclash, -⟩ | ⟨-, a, ha, hlost⟩
    · exact hclash
    · obtain ⟨m, hm, ham⟩ := List.mem_flatMap.mp ha
      obtain ⟨l, hl, rfl⟩ := List.mem_map.mp ham
      obtain ⟨e, hlook, hid, hname⟩ := (hcorrect.exposed m hm l hl _).mpr rfl
      have he := hinv.entered.sound _ _ hlook
      obtain rfl := hinv.pairs.eq_of_pair he ha (Prod.ext hid hname)
      exact absurd hlook (hlost _)
  · intro hclash
    rcases hinv.entered.directory with ⟨-, hnames⟩ | ⟨hnot, -⟩
    · refine ⟨fun m hm l hl name => ?_, fun m hm l hl m' hm' l' hl' heq => ?_,
        fun m hm l hl => ?_, fun m hm l hl params => ?_, fun before p err _ herr => ?_⟩
      · constructor
        · rintro ⟨e, hlook, hid, hname⟩
          obtain ⟨he, rfl⟩ := (hnames name e).mp hlook
          obtain rfl := hinv.pairs.eq_of_pair he (mem_allListed hm hl) (Prod.ext hid hname)
          rfl
        · rintro rfl
          exact ⟨_, (hinv.route hnames hm hl).1, rfl, rfl⟩
      · have := hnames.injOn (mem_allListed hm hl) (mem_allListed hm' hl') heq
        exact ⟨congrArg CatalogEntry.providerId this, congrArg CatalogEntry.localName this⟩
      · obtain ⟨hentry, hprovider⟩ := hinv.route hnames hm hl
        exact ProviderRegistry.describe_of_route hentry hprovider
      · obtain ⟨hentry, hprovider⟩ := hinv.route hnames hm hl
        exact ProviderRegistry.resolve_of_route hentry hprovider params
      · rcases (RegistryInv.registerAll lower before).register_cases lower p with
          ⟨_, hreg, -⟩ | ⟨_, hok, -⟩
        · rw [hreg]
        · rw [hok] at herr
          cases herr
    · exact absurd hclash hnot

/-- A configuration file that mounts a tool of a built-in name, and one of the
name the built-in is promoted to. -/
def docsConfig : McpConfigFile where
  provider := "docs"
  bridgeProgram := "axp-mcp-bridge"
  bridgeArgs := ["call"]
  tools := [⟨"native:git_diff", "Search the documentation index", .object []⟩,
    ⟨"git_diff", "Compare two versions of a document", .object []⟩]

/-- The calls of a server started with that file. -/
def docsCalls : List Provider :=
  match nativeProvider, docsConfig.intoMount with
  | .ok native, .ok mount =>
      match mount.toProvider fun _ => .ok "{}" with
      | .ok docs => [native.toProvider, docs]
      | .error _ => []
  | _, _ => []

/-- ASCII lower case. -/
def asciiLower (s : String) : String := .ofList (s.toList.map Char.toLower)

/-- The built-in `git_diff` is exposed under no name, and its qualified name
runs the mounted bridge. -/
theorem mounted_tool_takes_qualified_name :
    ¬CatalogCorrect asciiLower docsCalls
      ∧ ((ProviderRegistry.registerAll asciiLower docsCalls).resolve "native:git_diff"
          (.object [])).toOption.map (·.program) = some "axp-mcp-bridge" := by
  obtain ⟨hany, hnone, hresolve⟩ :
      (accepted asciiLower docsCalls).any (fun m =>
        m.provider.id = "native" && m.listings.any (·.name = "git_diff")) = true
      ∧ (∀ x ∈ (ProviderRegistry.registerAll asciiLower docsCalls).catalog.entries,
        ¬(x.2.providerId = "native" ∧ x.2.localName = "git_diff"))
      ∧ ((ProviderRegistry.registerAll asciiLower docsCalls).resolve "native:git_diff"
          (.object [])).toOption.map (·.program) = some "axp-mcp-bridge" := by decide +kernel
  refine ⟨fun h => ?_, hresolve⟩
  obtain ⟨m, hm, hlists⟩ := List.any_eq_true.mp hany
  obtain ⟨hid, hlists⟩ := Bool.and_eq_true_iff.mp hlists
  obtain ⟨l, hl, hname⟩ := List.any_eq_true.mp hlists
  obtain ⟨e, hlook, heid, hename⟩ := (h.exposed m hm l hl _).mpr rfl
  exact hnone _ (AList.mem_lookup_iff.mp hlook)
    ⟨heid.trans (of_decide_eq_true hid), hename.trans (of_decide_eq_true hname)⟩

end Axp
