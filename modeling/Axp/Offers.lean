import Mathlib.Data.List.Forall2
import Axp.Descriptions

/-!
# What a registry serves

An `Offer` is a capability without its registry: how it is listed, and what
is answered about it. A registry whose providers have such lists of offers
answers as a search through all of them does, each under the name it is due
(`RegistryInv.serves`): no table, no counting of names and no promotion is left
in it, nor the order in which a provider happens to list what it has.
-/

namespace Axp

open Directory

/-! ## What a registry serves -/

/-- A capability that a provider has: how it is listed, and what the provider
answers about it. -/
structure Offer where
  providerId : String
  name : String
  desc : String
  detail : CapabilityDetail
  command : Value → Result ResolvedCommand

def Offer.entry (o : Offer) : CatalogEntry := ⟨o.providerId, o.name, o.desc⟩

/-- The name it is due among others: its own, unless another provider has that
name too. -/
def Offer.exposed (offers : List Offer) (o : Offer) : String :=
  if offers.any fun other => other.name = o.name && other.providerId ≠ o.providerId then
    o.providerId ++ ":" ++ o.name
  else o.name

/-- What has that name. -/
def offered (offers : List Offer) (name : String) : Option Offer :=
  offers.find? fun o => o.exposed offers = name

theorem of_offered {offers : List Offer} {name : String} {o : Offer}
    (h : offered offers name = some o) : o ∈ offers ∧ o.exposed offers = name := by
  unfold offered at h
  exact ⟨List.mem_of_find?_eq_some h, by simpa using List.find?_some h⟩

/-- The registry answers as a search through the list does. -/
structure Serves (reg : ProviderRegistry) (offers : List Offer) : Prop where
  distinct : (offers.map (·.exposed offers)).Nodup
  describe : ∀ name, reg.describe name
    = okOr ((offered offers name).map (·.detail)) (.capabilityNotFound name)
  resolve : ∀ name params, reg.resolve name params
    = match offered offers name with
      | some o => o.command params
      | none => .error (.capabilityNotFound name)
  index : ∃ resp, reg.index = .ok resp
    ∧ resp.entries.Perm (offers.map fun o => ⟨o.exposed offers, o.desc⟩)
  /-- What a session with these grants is shown. -/
  shown : ∀ capabilities, ∃ resp, reg.indexForCapabilities capabilities = .ok resp
    ∧ resp.entries.Perm
      ((offers.filter fun o => discoveryPermitted capabilities (o.exposed offers)).map
        fun o => ⟨o.exposed offers, o.desc⟩)

/-- The list has what an accepted provider was accepted with. -/
structure Mounted.Has (m : Mounted) (offers : List Offer) : Prop where
  entries : (offers.map (·.entry)).Perm m.entries
  describe : ∀ o ∈ offers, m.provider.describe o.name = .ok o.detail
  resolve : ∀ o ∈ offers, ∀ params, m.provider.resolve o.name params = o.command params

section Serving

variable {acc : List Mounted} {reg : ProviderRegistry} {all : List (List Offer)}

theorem flatten_entries (h : List.Forall₂ Mounted.Has acc all) :
    (all.flatten.map (·.entry)).Perm (allListed acc) := by
  induction h with
  | nil => exact .nil
  | cons hm _ ih =>
      rw [List.flatten_cons, List.map_append, allListed, List.flatMap_cons]
      exact hm.entries.append ih

theorem mounted_of_offer (h : List.Forall₂ Mounted.Has acc all) {o : Offer}
    (ho : o ∈ all.flatten) : ∃ m ∈ acc, m.provider.id = o.providerId
      ∧ m.provider.describe o.name = .ok o.detail
      ∧ ∀ params, m.provider.resolve o.name params = o.command params := by
  induction h with
  | nil => cases ho
  | @cons m offers acc all hm _ ih =>
      rw [List.flatten_cons, List.mem_append] at ho
      rcases ho with ho | ho
      · have hentry := hm.entries.mem_iff.mp (List.mem_map_of_mem (f := Offer.entry) ho)
        exact ⟨m, List.mem_cons_self, (RegistryInv.mem_entries hentry).symm,
          hm.describe o ho, hm.resolve o ho⟩
      · obtain ⟨m', hm', hrest⟩ := ih ho
        exact ⟨m', List.mem_cons_of_mem _ hm', hrest⟩

/-- The closed form of a name is the one the catalog files under. -/
theorem exposed_eq (h : List.Forall₂ Mounted.Has acc all) (o : Offer) :
    o.exposed all.flatten = exposedName (allListed acc) o.entry := by
  have hsame : (all.flatten.any fun other => other.name = o.name
        && other.providerId ≠ o.providerId) = true
      ↔ ∃ e ∈ allListed acc, e.localName = o.entry.localName
        ∧ e.providerId ≠ o.entry.providerId := by
    rw [List.any_eq_true]
    constructor
    · rintro ⟨other, hother, hcond⟩
      obtain ⟨hname, hid⟩ := Bool.and_eq_true_iff.mp hcond
      exact ⟨other.entry, (flatten_entries h).mem_iff.mp (List.mem_map_of_mem hother),
        of_decide_eq_true hname, of_decide_eq_true hid⟩
    · rintro ⟨e, he, hname, hid⟩
      obtain ⟨other, hother, rfl⟩ := List.mem_map.mp ((flatten_entries h).mem_iff.mpr he)
      exact ⟨other, hother, Bool.and_eq_true_iff.mpr
        ⟨decide_eq_true hname, decide_eq_true hid⟩⟩
  unfold Offer.exposed exposedName
  by_cases hc : ∃ e ∈ allListed acc, e.localName = o.entry.localName
      ∧ e.providerId ≠ o.entry.providerId
  · rw [if_pos hc, if_pos (hsame.mpr hc)]
    rfl
  · rw [if_neg hc, if_neg (mt hsame.mp hc)]
    rfl

/-- A registry serves what its providers have, as long as no two entries have
been due the same name at once. -/
theorem RegistryInv.serves (hinv : RegistryInv acc reg) (hclash : NeverClash (allListed acc))
    (h : List.Forall₂ Mounted.Has acc all) : Serves reg all.flatten := by
  obtain ⟨-, hnames⟩ | ⟨hnot, -⟩ := hinv.entered.directory
  swap
  · exact absurd hclash hnot
  have hperm := flatten_entries h
  have hnodup : (all.flatten.map (·.entry)).Nodup :=
    hperm.nodup_iff.mpr (List.Nodup.of_map _ hinv.pairs)
  -- What the table has under a name is what the list has under it.
  have hlook : ∀ name e, reg.catalog.lookup name = some e ↔
      ∃ o ∈ all.flatten, o.exposed all.flatten = name ∧ o.entry = e := by
    intro name e
    rw [hnames name e]
    constructor
    · rintro ⟨he, hdue⟩
      obtain ⟨o, ho, rfl⟩ := List.mem_map.mp (hperm.mem_iff.mpr he)
      exact ⟨o, ho, (exposed_eq h o).trans hdue, rfl⟩
    · rintro ⟨o, ho, hdue, rfl⟩
      exact ⟨hperm.mem_iff.mp (List.mem_map_of_mem ho), (exposed_eq h o).symm.trans hdue⟩
  have hmiss : ∀ name, offered all.flatten name = none → reg.catalog.lookup name = none := by
    intro name hnone
    refine Option.eq_none_iff_forall_ne_some.mpr fun e he => ?_
    obtain ⟨o, ho, hdue, -⟩ := (hlook name e).mp he
    exact List.find?_eq_none.mp hnone o ho (decide_eq_true hdue)
  have hroute : ∀ name o, offered all.flatten name = some o →
      reg.catalog.lookup name = some o.entry ∧ ∃ p, reg.providers.lookup o.providerId = some p
        ∧ p.describe o.name = .ok o.detail
        ∧ ∀ params, p.resolve o.name params = o.command params := by
    intro name o hfind
    obtain ⟨ho, hdue⟩ := of_offered hfind
    obtain ⟨m, hm, hid, hdescribe, hresolve⟩ := mounted_of_offer h ho
    exact ⟨(hlook name o.entry).mpr ⟨o, ho, hdue, rfl⟩, m.provider,
      hid ▸ hinv.providers.lookup ⟨m, hm, rfl⟩, hdescribe, hresolve⟩
  have hinj : ∀ o ∈ all.flatten, ∀ o' ∈ all.flatten,
      o.exposed all.flatten = o'.exposed all.flatten → o = o' := by
    intro o ho o' ho' heq
    rw [exposed_eq h, exposed_eq h] at heq
    exact List.inj_on_of_nodup_map hnodup ho ho'
      (hnames.injOn (hperm.mem_iff.mp (List.mem_map_of_mem ho))
        (hperm.mem_iff.mp (List.mem_map_of_mem ho')) heq)
  have hdistinct : (all.flatten.map (·.exposed all.flatten)).Nodup :=
    (List.Nodup.of_map _ hnodup).map_on hinj
  have hindex : (reg.catalog.entries.map fun x => (⟨x.1, x.2.desc⟩ : IndexEntry)).Perm
      (all.flatten.map fun o => ⟨o.exposed all.flatten, o.desc⟩) := by
    refine (List.perm_ext_iff_of_nodup ?_ ?_).mpr fun x => ?_
    · refine List.Nodup.of_map IndexEntry.name ?_
      rw [List.map_map]
      exact reg.catalog.keys_nodup
    · refine List.Nodup.of_map IndexEntry.name ?_
      rw [List.map_map]
      exact hdistinct
    · rw [List.mem_map, List.mem_map]
      constructor
      · rintro ⟨⟨name, e⟩, hmem, rfl⟩
        obtain ⟨o, ho, rfl, rfl⟩ := (hlook name e).mp (AList.mem_lookup_iff.mpr hmem)
        exact ⟨o, ho, rfl⟩
      · rintro ⟨o, ho, rfl⟩
        exact ⟨⟨_, o.entry⟩, AList.mem_lookup_iff.mp ((hlook _ _).mpr ⟨o, ho, rfl, rfl⟩), rfl⟩
  refine ⟨hdistinct, fun name => ?_, fun name params => ?_, ⟨_, rfl, hindex⟩,
    fun capabilities => ⟨_, rfl, ?_⟩⟩
  · cases hfind : offered all.flatten name with
    | none =>
        rw [ProviderRegistry.describe, hmiss name hfind]
        rfl
    | some o =>
        obtain ⟨hentry, p, hp, hdescribe, -⟩ := hroute name o hfind
        rw [ProviderRegistry.describe_of_route hentry hp]
        exact hdescribe
  · cases hfind : offered all.flatten name with
    | none =>
        rw [ProviderRegistry.resolve, hmiss name hfind]
        rfl
    | some o =>
        obtain ⟨hentry, p, hp, -, hresolve⟩ := hroute name o hfind
        rw [ProviderRegistry.resolve_of_route hentry hp]
        exact hresolve params
  · have hfiltered := hindex.filter fun x => discoveryPermitted capabilities x.name
    rw [List.filter_map, List.filter_map] at hfiltered
    exact hfiltered

end Serving

/-! ## Registering -/

theorem checkDuplicates_isOk {id : String} {ls : List CapabilityListing} :
    ∀ {seen : List String}, (∀ l ∈ ls, l.name ∉ seen) → (ls.map (·.name)).Nodup →
      checkDuplicates id seen ls = .ok () := by
  induction ls with
  | nil => intro seen _ _; rfl
  | cons l ls ih =>
      intro seen hseen hnodup
      obtain ⟨hl, hseen⟩ := List.forall_mem_cons.mp hseen
      rw [List.map_cons, List.nodup_cons, List.mem_map] at hnodup
      refine ite_error_eq_ok.mpr ⟨hl, ih (fun l' hl' hmem => ?_) hnodup.2⟩
      rcases List.mem_cons.mp hmem with hname | hmem
      · exact hnodup.1 ⟨l', hl', hname⟩
      · exact hseen l' hl' hmem

instance (lower : String → String) (name desc : String) :
    Decidable (Described lower name desc) :=
  decidable_of_iff (descMinLen ≤ desc.utf8ByteSize ∧ desc.utf8ByteSize ≤ descMaxLen
      ∧ '\n' ∉ desc.toList ∧ '\r' ∉ desc.toList ∧ lower desc ≠ lower name
      ∧ lower desc ≠ lower (replace name '_' ' '))
    ⟨fun ⟨hlong, hshort, hnewline, hreturn, hname, hspaced⟩ =>
      ⟨hlong, hshort, hnewline, hreturn, hname, hspaced⟩,
    fun h => ⟨h.long, h.short, h.noNewline, h.noReturn, h.notName, h.notSpaced⟩⟩

/-- What passes `check_description_quality`. -/
theorem checkDescriptionQuality_iff {lower : String → String} {provider name desc : String} :
    checkDescriptionQuality lower provider name desc = .ok () ↔
      Described lower name (trim desc) := by
  refine ⟨checkDescriptionQuality_ok, fun h => ?_⟩
  have hnonempty : ¬(trim desc).isEmpty := by
    intro hempty
    have hlong := h.long
    rw [String.isEmpty_iff.mp hempty] at hlong
    exact absurd hlong (by decide)
  unfold checkDescriptionQuality
  rw [ite_error_eq_ok, ite_error_eq_ok, ite_error_eq_ok, ite_error_eq_ok, ite_error_eq_ok]
  refine ⟨hnonempty, not_lt.mpr h.long, not_lt.mpr h.short, ?_, ?_, rfl⟩
  · exact not_or.mpr ⟨h.notName, h.notSpaced⟩
  · rw [Bool.or_eq_true, List.contains_iff_mem, List.contains_iff_mem, not_or]
    exact ⟨h.noNewline, h.noReturn⟩

section Registering

variable {lower : String → String} {acc : List Mounted} {reg reg' : ProviderRegistry}
  {p : Provider}

/-- A provider is accepted if its id is new, it lists each name once, and its
descriptions are good. -/
theorem RegistryInv.register_isOk (h : RegistryInv acc reg) {ls : List CapabilityListing}
    (hid : ∀ m ∈ acc, m.provider.id ≠ p.id) (hindex : p.index = .ok ls)
    (hnodup : (ls.map (·.name)).Nodup)
    (hdesc : ∀ l ∈ ls, Described lower l.name (trim l.desc)) :
    ∃ reg', reg.register lower p = (.ok (), reg') := by
  have hvalid : validate lower (· ∈ reg.providers) p = .ok ls := by
    refine validate_eq_ok.mpr ⟨?_, hindex, ?_, fun l hl => ?_⟩
    · rw [decide_eq_true_eq, h.known_iff, List.any_eq_true]
      rintro ⟨m, hm, heq⟩
      exact hid m hm (of_decide_eq_true heq)
    · exact checkDuplicates_isOk (fun l _ => List.not_mem_nil) hnodup
    · exact checkDescriptionQuality_iff.mpr (hdesc l hl)
  unfold ProviderRegistry.register
  rw [hvalid]
  exact ⟨_, rfl⟩

/-- What is known of one that was accepted. -/
theorem RegistryInv.of_register (h : RegistryInv acc reg)
    (hreg : reg.register lower p = (.ok (), reg')) :
    ∃ ls, p.index = .ok ls ∧ RegistryInv (acc ++ [⟨p, ls⟩]) reg'
      ∧ (∀ m ∈ acc, m.provider.id ≠ p.id)
      ∧ ∀ l ∈ ls, Described lower l.name (trim l.desc) := by
  rcases h.register_cases lower p with ⟨err, herr, -⟩ | ⟨ls, -, haccept, hinv⟩
  · rw [hreg] at herr
    cases herr
  · rw [hreg] at hinv
    unfold accept at haccept
    cases hvalid : validate lower (fun id => acc.any (·.provider.id = id)) p with
    | error e =>
        rw [hvalid] at haccept
        exact absurd haccept (by simp)
    | ok ls' =>
        rw [hvalid] at haccept
        obtain rfl : ls' = ls := by simpa using haccept
        obtain ⟨hnew, hindex, -, hdesc⟩ := validate_eq_ok.mp hvalid
        refine ⟨ls', hindex, hinv, fun m hm hid => ?_, fun l hl => ?_⟩
        · exact hnew (List.any_eq_true.mpr ⟨m, hm, decide_eq_true hid⟩)
        · exact checkDescriptionQuality_iff.mp (hdesc l hl)

end Registering

/-! ## The tables of the providers -/

/-- The entries of a directory have each name once. -/
theorem entries_names_nodup {α : Type} {name : α → String} {S : Set α} {table : HashMap String α}
    (h : Names name S table) : (table.entries.map fun x => name x.2).Nodup := by
  have hkeys : (table.entries.map fun x => name x.2) = table.keys := by
    refine List.map_congr_left fun x hx => ?_
    exact ((h x.1 x.2).mp (AList.mem_lookup_iff.mpr hx)).2
  rw [hkeys]
  exact table.keys_nodup

theorem mem_entries_iff {α : Type} {name : α → String} {S : Set α} {table : HashMap String α}
    (h : Names name S table) {a : α} : (∃ x ∈ table.entries, x.2 = a) ↔ a ∈ S := by
  constructor
  · rintro ⟨x, hx, rfl⟩
    exact ((h x.1 x.2).mp (AList.mem_lookup_iff.mpr hx)).1
  · intro ha
    exact ⟨⟨name a, a⟩, AList.mem_lookup_iff.mp (h.lookup ha), rfl⟩

namespace NativeProvider

theorem new_names {id : String} {descriptors : List CapabilityDescriptor} {p : NativeProvider}
    (h : NativeProvider.new id descriptors = .ok p) :
    p.id = id ∧ (descriptors.map (·.name)).Nodup
      ∧ Names (·.name) { d | d ∈ descriptors } p.descriptors := by
  obtain ⟨map, hfold, h⟩ := bind_eq_ok.mp h
  obtain rfl := Except.ok.inj h
  have hstep : ∀ (t : HashMap String CapabilityDescriptor) d t',
      (if d.name ∈ t then .error (Error.duplicateCapability id d.name) else .ok (t.insert d.name d)
        : Result _) = .ok t' ↔ True ∧ d.name ∉ t ∧ t' = t.insert d.name d := by
    intro t d t'
    rw [ite_error_eq_ok, true_and, Except.ok.injEq, eq_comm (a := t')]
  obtain ⟨-, hnodup, -, hnames⟩ := Names.of_foldlM hstep (.empty _) hfold
  rw [Set.empty_union] at hnames
  exact ⟨rfl, hnodup, hnames⟩

end NativeProvider

namespace McpToolProvider

variable {id : String} {tools : List McpToolDescriptor} {p : McpToolProvider}

theorem new_step (id : String) (t : HashMap String McpToolDescriptor) (tool : McpToolDescriptor)
    (t' : HashMap String McpToolDescriptor) :
    (if tool.providerId ≠ id then
        .error (Error.capabilityParse tool.providerId
          ("MCP tool provider id must match " ++ "`" ++ id ++ "`"))
      else if tool.name ∈ t then .error (.duplicateCapability id tool.name)
      else .ok (t.insert tool.name tool) : Result _) = .ok t' ↔
      tool.providerId = id ∧ tool.name ∉ t ∧ t' = t.insert tool.name tool := by
  rw [ite_error_eq_ok, ite_error_eq_ok, ne_eq, not_not, Except.ok.injEq, eq_comm (a := t')]

theorem new_names (h : McpToolProvider.new id tools = .ok p) :
    p.id = id ∧ (∀ tool ∈ tools, tool.providerId = id) ∧ (tools.map (·.name)).Nodup
      ∧ Names (·.name) { tool | tool ∈ tools } p.tools := by
  obtain ⟨map, hfold, h⟩ := bind_eq_ok.mp h
  obtain rfl := Except.ok.inj h
  obtain ⟨hids, hnodup, -, hnames⟩ := Names.of_foldlM (new_step id) (.empty _) hfold
  rw [Set.empty_union] at hnames
  exact ⟨rfl, hids, hnodup, hnames⟩

theorem new_isOk (hids : ∀ tool ∈ tools, tool.providerId = id)
    (hnodup : (tools.map (·.name)).Nodup) : ∃ p, McpToolProvider.new id tools = .ok p := by
  obtain ⟨map, hfold⟩ := Names.foldlM_isOk (new_step id) (.empty _) hids hnodup
    fun tool _ a ha => absurd ha (Set.notMem_empty a)
  exact ⟨⟨id, map⟩, bind_eq_ok.mpr ⟨map, hfold, rfl⟩⟩

end McpToolProvider

/-! ## What the two providers have -/

def NativeProvider.offers (self : NativeProvider) : List Offer :=
  self.descriptors.entries.map fun d =>
    { providerId := self.id
      name := d.2.name
      desc := d.2.desc
      detail := ⟨d.2.signature, d.2.schema⟩
      command := fun params => do
        let args ← d.2.exec.argsTemplate.mapM (·.bind params)
        return ⟨d.2.exec.program, args⟩ }

/-- What every server has. -/
def builtinOffers : List Offer :=
  match nativeProvider with
  | .ok native => native.offers
  | .error _ => []

def McpConfigMount.offers (toJson : Value → Except ErrorText String) (self : McpConfigMount) :
    List Offer :=
  self.tools.map fun tool =>
    { providerId := self.providerId
      name := tool.name
      desc := tool.desc
      detail := ⟨tool.name ++ "(input: object): string", tool.schema⟩
      command := fun params => do
        let serialized ← (toJson params).mapError fun err =>
          .capabilityParse tool.name ("failed to serialize MCP tool params: " ++ err)
        return ⟨self.bridgeProgram, self.bridgeArgs ++
          ["--provider", self.providerId, "--tool", tool.name, "--params", serialized]⟩ }

/-- What a server has, according to what it mounts. -/
def offers (toJson : Value → Except ErrorText String) (plan : Option McpConfigMount) :
    List Offer :=
  builtinOffers ++ plan.elim [] (·.offers toJson)

theorem NativeProvider.has {native : NativeProvider} {ds : List CapabilityDescriptor}
    (hnames : Names (·.name) { d | d ∈ ds } native.descriptors) {ls : List CapabilityListing}
    (hindex : native.toProvider.index = .ok ls) :
    (⟨native.toProvider, ls⟩ : Mounted).Has native.offers := by
  obtain rfl := Except.ok.inj hindex
  have hlook : ∀ o ∈ native.offers, ∃ d, native.descriptors.lookup o.name = some d
      ∧ o.detail = ⟨d.signature, d.schema⟩
      ∧ o.command = fun params => do
          let args ← d.exec.argsTemplate.mapM (·.bind params)
          return ⟨d.exec.program, args⟩ := by
    intro o ho
    obtain ⟨⟨name, d⟩, hd, rfl⟩ := List.mem_map.mp ho
    have hlook := AList.mem_lookup_iff.mpr hd
    obtain rfl := ((hnames name d).mp hlook).2
    exact ⟨d, hlook, rfl, rfl⟩
  refine ⟨?_, fun o ho => ?_, fun o ho params => ?_⟩
  · unfold NativeProvider.offers Mounted.entries
    rw [List.map_map, List.map_map]
    exact .refl _
  · obtain ⟨d, hd, hdetail, -⟩ := hlook o ho
    rw [hdetail]
    change (okOr (native.descriptors.lookup o.name) _ >>= _) = _
    rw [hd]
    rfl
  · obtain ⟨d, hd, -, hcommand⟩ := hlook o ho
    rw [hcommand]
    change (okOr (native.descriptors.lookup o.name) _ >>= _) = _
    rw [hd]
    rfl

namespace McpConfigMount

variable {toJson : Value → Except ErrorText String} {mount : McpConfigMount} {provider : Provider}

/-- The tool as the provider keeps it. -/
def descriptor (self : McpConfigMount) (tool : ToolConfig) : McpToolDescriptor :=
  ⟨self.providerId, tool.name, tool.desc, tool.schema, ⟨self.bridgeProgram, self.bridgeArgs⟩⟩

theorem toProvider_isOk (toJson : Value → Except ErrorText String)
    (h : (mount.tools.map (·.name)).Nodup) :
    ∃ provider, mount.toProvider toJson = .ok provider := by
  have hids : ∀ d ∈ mount.tools.map mount.descriptor, d.providerId = mount.providerId := by
    simp [descriptor]
  obtain ⟨p, hp⟩ := McpToolProvider.new_isOk hids (by rwa [List.map_map])
  exact ⟨p.toProvider toJson, bind_eq_ok.mpr ⟨p, hp, rfl⟩⟩

theorem of_toProvider (h : mount.toProvider toJson = .ok provider) :
    ∃ p : McpToolProvider, provider = p.toProvider toJson ∧ p.id = mount.providerId
      ∧ (mount.tools.map (·.name)).Nodup
      ∧ Names (·.name) { d | d ∈ mount.tools.map mount.descriptor } p.tools := by
  obtain ⟨p, hp, h⟩ := bind_eq_ok.mp h
  obtain rfl := Except.ok.inj h
  obtain ⟨hid, -, hnodup, hnames⟩ := McpToolProvider.new_names hp
  rw [List.map_map] at hnodup
  exact ⟨p, rfl, hid, hnodup, hnames⟩

/-- The provider lists the tools, in some order. -/
theorem listings_perm {p : McpToolProvider} (hnodup : (mount.tools.map (·.name)).Nodup)
    (hnames : Names (·.name) { d | d ∈ mount.tools.map mount.descriptor } p.tools)
    {ls : List CapabilityListing} (hindex : (p.toProvider toJson).index = .ok ls) :
    (mount.tools.map fun tool => ⟨tool.name, tool.desc⟩ : List CapabilityListing).Perm ls := by
  obtain rfl := Except.ok.inj hindex
  refine (List.perm_ext_iff_of_nodup ?_ ?_).mpr fun l => ?_
  · refine List.Nodup.of_map CapabilityListing.name ?_
    rwa [List.map_map]
  · refine List.Nodup.of_map CapabilityListing.name ?_
    rw [List.map_map]
    exact entries_names_nodup hnames
  · rw [List.mem_map, List.mem_map]
    constructor
    · rintro ⟨tool, htool, rfl⟩
      obtain ⟨x, hx, heq⟩ := (mem_entries_iff hnames).mpr (List.mem_map_of_mem htool)
      exact ⟨x, hx, by rw [heq]; rfl⟩
    · rintro ⟨x, hx, rfl⟩
      obtain ⟨tool, htool, heq⟩ := List.mem_map.mp ((mem_entries_iff hnames).mp ⟨x, hx, rfl⟩)
      exact ⟨tool, htool, by rw [← heq]; rfl⟩

theorem has (h : mount.toProvider toJson = .ok provider) {ls : List CapabilityListing}
    (hindex : provider.index = .ok ls) :
    (⟨provider, ls⟩ : Mounted).Has (mount.offers toJson) := by
  obtain ⟨p, rfl, hid, hnodup, hnames⟩ := of_toProvider h
  have hlook : ∀ tool ∈ mount.tools, p.tools.lookup tool.name = some (mount.descriptor tool) :=
    fun tool htool => hnames.lookup (List.mem_map_of_mem htool)
  refine ⟨?_, fun o ho => ?_, fun o ho params => ?_⟩
  · have hperm := (listings_perm hnodup hnames hindex).map
      (CapabilityListing.entry mount.providerId)
    rw [List.map_map] at hperm
    unfold McpConfigMount.offers Mounted.entries
    rw [List.map_map]
    change List.Perm _ (ls.map (·.entry p.id))
    rw [hid]
    exact hperm
  · obtain ⟨tool, htool, rfl⟩ := List.mem_map.mp ho
    change (okOr (p.tools.lookup tool.name) _ >>= _) = _
    rw [hlook tool htool]
    rfl
  · obtain ⟨tool, htool, rfl⟩ := List.mem_map.mp ho
    change (okOr (p.tools.lookup tool.name) _ >>= _) = _
    rw [hlook tool htool]
    rfl

end McpConfigMount

end Axp
