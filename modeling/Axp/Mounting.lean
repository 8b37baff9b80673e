import Axp.AppState
import Axp.Effects
import Axp.McpConfig
import Axp.Offers

/-!
# Mounting tools

How a server comes by its registry: from the flags and the configuration file
of `axp serve`, to the built-in provider and the provider of the mounted
tools.

It gets to listening exactly if what is asked for can be mounted
(`serve_starts_iff`), and then serves what the two providers have
(`served_catalog`). Whether the address can be bound is asked after that, and
is not here.
-/

namespace Axp

open Lts

/-! ## The flags -/

/-- The flags of `axp serve` that mount tools. -/
structure ServeArgs where
  mcpProvider : Option String
  mcpTool : Option String
  mcpDesc : Option String
  mcpBridge : Option String
  mcpConfig : Option String
deriving DecidableEq, Repr

structure ServeMcpTool where
  providerId : String
  toolName : String
  desc : String
  bridgeProgram : String
deriving DecidableEq, Repr

inductive ServeMcpMount where
  | tool (mount : ServeMcpTool)
  | config (mount : McpConfigMount)

def mcpMount (files : String → Except ErrorText (List UInt8)) (reader : BodyReader)
    (args : ServeArgs) : Except ErrorText (Option ServeMcpMount) :=
  let hasStaticFlag := args.mcpProvider.isSome || args.mcpTool.isSome || args.mcpDesc.isSome
    || args.mcpBridge.isSome
  if args.mcpConfig.isSome && hasStaticFlag then
    .error ("--mcp-config cannot be combined with --mcp-provider, --mcp-tool, --mcp-desc, " ++
      "or --mcp-bridge")
  else
    match args.mcpConfig with
    | some path => (load files reader path).map fun mount => some (.config mount)
    | none =>
        match args.mcpProvider, args.mcpTool, args.mcpDesc, args.mcpBridge with
        | none, none, none, none => .ok none
        | some providerId, some toolName, some desc, some bridgeProgram =>
            .ok (some (.tool ⟨providerId, toolName, desc, bridgeProgram⟩))
        | _, _, _, _ =>
            .error ("--mcp-provider, --mcp-tool, --mcp-desc, and --mcp-bridge must be " ++
              "supplied together")

/-! ## The state of a server -/

/-- `builtin_registry`. Its errors are panics, and there are none
(`builtinRegistry_isOk`). -/
def builtinRegistry (lower : String → String) : Result ProviderRegistry := do
  let native ← nativeProvider
  match ProviderRegistry.new.register lower native.toProvider with
  | (.ok (), registry) => .ok registry
  | (.error e, _) => .error e

namespace AppState

def withRegistry (registry : ProviderRegistry) : AppState where
  engine :=
    { sessions := .new
      jobs := .new
      nextId := 1
      cancels := ∅
      logByteCap := defaultLogByteCap
      registry := registry
      tasks := [] }
  sessionCounter := 1

/-- The server that starts in a state. -/
def launched (self : AppState) : Server where
  engine := self.engine
  sessionCounter := self.sessionCounter
  callCount := 0
  calls := ∅
  lives := ∅
  senders := ∅
  channels := 0
  sent := []
  streams := fun _ => none
  observed := .none

def new (lower : String → String) : Result AppState := (builtinRegistry lower).map withRegistry

def withMcpTools (lower : String → String) (toJson : Value → Except ErrorText String)
    (mount : McpConfigMount) : Result AppState := do
  let registry ← builtinRegistry lower
  let provider ← mount.toProvider toJson
  match registry.register lower provider with
  | (.ok (), registry) => .ok (withRegistry registry)
  | (.error e, _) => .error e

def withMcpTool (lower : String → String) (toJson : Value → Except ErrorText String)
    (mount : ServeMcpTool) : Result AppState :=
  withMcpTools lower toJson
    ⟨mount.providerId, mount.bridgeProgram, defaultBridgeArgs,
      [⟨mount.toolName, mount.desc, defaultSchema⟩]⟩

end AppState

/-- What `serve` builds before it binds its address; `display` is the text of an
error. -/
def serve (files : String → Except ErrorText (List UInt8)) (reader : BodyReader)
    (lower : String → String) (toJson : Value → Except ErrorText String)
    (display : Error → ErrorText) (args : ServeArgs) : Except ErrorText AppState := do
  match ← mcpMount files reader args with
  | some (.tool mount) => (AppState.withMcpTool lower toJson mount).mapError display
  | some (.config mount) => (AppState.withMcpTools lower toJson mount).mapError display
  | none => (AppState.new lower).mapError display

/-! ## The registries of a server -/

section Building

variable {lower : String → String} {toJson : Value → Except ErrorText String}
  {registry : ProviderRegistry}

/-- `str::is_ascii`. -/
def isAscii (s : String) : Bool := s.toList.all (·.toNat < 128)

/-- `str::to_lowercase` does to ASCII what is done to ASCII. -/
def LowersAscii (lower : String → String) : Prop :=
  ∀ s : String, isAscii s = true → lower s = asciiLower s

theorem of_builtinRegistry (h : builtinRegistry lower = .ok registry) :
    ∃ m : Mounted, RegistryInv [m] registry ∧ m.provider.id = "native"
      ∧ m.Has builtinOffers := by
  obtain ⟨native, hnative, h⟩ := bind_eq_ok.mp h
  obtain ⟨hid, -, hnames⟩ := NativeProvider.new_names hnative
  split at h
  · next reg hreg =>
      obtain rfl := Except.ok.inj h
      obtain ⟨ls, hindex, hinv, -⟩ := RegistryInv.new.of_register hreg
      refine ⟨⟨native.toProvider, ls⟩, hinv, hid, ?_⟩
      rw [builtinOffers, hnative]
      exact NativeProvider.has hnames hindex
  · cases h

/-- The descriptions of the built-in capabilities pass the check. -/
theorem builtin_described (hlower : LowersAscii lower) :
    ∀ o ∈ builtinOffers, Described lower o.name (trim o.desc) := by
  have hall : ∀ o ∈ builtinOffers, Described asciiLower o.name (trim o.desc)
      ∧ ∀ s ∈ [trim o.desc, o.name, replace o.name '_' ' '], isAscii s = true := by
    decide +kernel
  intro o ho
  obtain ⟨h, hascii⟩ := hall o ho
  have hsame : ∀ s ∈ [trim o.desc, o.name, replace o.name '_' ' '], lower s = asciiLower s :=
    fun s hs => hlower s (hascii s hs)
  simp only [List.forall_mem_cons] at hsame
  obtain ⟨hdesc, hname, hspaced, -⟩ := hsame
  refine { h with notName := ?_, notSpaced := ?_ }
  · rw [hdesc, hname]
    exact h.notName
  · rw [hdesc, hspaced]
    exact h.notSpaced

theorem builtinRegistry_isOk (hlower : LowersAscii lower) :
    ∃ registry, builtinRegistry lower = .ok registry := by
  obtain ⟨native, hnative⟩ : ∃ native, nativeProvider = .ok native := ⟨_, rfl⟩
  obtain ⟨-, -, hnames⟩ := NativeProvider.new_names hnative
  have hindex : native.toProvider.index = .ok (native.descriptors.entries.map fun d =>
      ⟨d.2.name, d.2.desc⟩) := rfl
  have hdesc : ∀ x ∈ native.descriptors.entries, Described lower x.2.name (trim x.2.desc) := by
    have hall := builtin_described hlower
    rw [builtinOffers, hnative] at hall
    exact fun x hx => hall _ (List.mem_map_of_mem hx)
  obtain ⟨registry, hreg⟩ : ∃ registry, ProviderRegistry.new.register lower native.toProvider
      = (.ok (), registry) := by
    refine RegistryInv.new.register_isOk (fun m hm => absurd hm List.not_mem_nil) hindex ?_
      (List.forall_mem_map.mpr hdesc)
    rw [List.map_map]
    exact entries_names_nodup hnames
  refine ⟨registry, bind_eq_ok.mpr ⟨native, hnative, ?_⟩⟩
  rw [hreg]

/-- A mount that a server can be started with. -/
structure McpConfigMount.Mountable (lower : String → String) (mount : McpConfigMount) :
    Prop where
  foreign : mount.providerId ≠ "native"
  distinct : (mount.tools.map (·.name)).Nodup
  described : ∀ tool ∈ mount.tools, Described lower tool.name (trim tool.desc)

instance (mount : McpConfigMount) : Decidable (mount.Mountable lower) :=
  decidable_of_iff (mount.providerId ≠ "native" ∧ (mount.tools.map (·.name)).Nodup
      ∧ ∀ tool ∈ mount.tools, Described lower tool.name (trim tool.desc))
    ⟨fun ⟨hforeign, hdistinct, hdescribed⟩ => ⟨hforeign, hdistinct, hdescribed⟩,
    fun h => ⟨h.foreign, h.distinct, h.described⟩⟩

theorem withMcpTools_isOk (hlower : LowersAscii lower) {mount : McpConfigMount}
    (h : mount.Mountable lower) :
    ∃ state, AppState.withMcpTools lower toJson mount = .ok state := by
  obtain ⟨registry, hbuiltin⟩ := builtinRegistry_isOk hlower
  obtain ⟨provider, hprovider⟩ := McpConfigMount.toProvider_isOk toJson h.distinct
  obtain ⟨m, hinv, hnative, -⟩ := of_builtinRegistry hbuiltin
  obtain ⟨p, rfl, hid, hnodup, hnames⟩ := McpConfigMount.of_toProvider hprovider
  have hindex : (p.toProvider toJson).index = .ok (p.tools.entries.map fun tool =>
      ⟨tool.2.name, tool.2.desc⟩) := rfl
  have hperm := McpConfigMount.listings_perm hnodup hnames hindex
  obtain ⟨registry', hreg⟩ : ∃ registry', registry.register lower (p.toProvider toJson)
      = (.ok (), registry') := by
    refine hinv.register_isOk (fun m' hm' => ?_) hindex ?_ fun l hl => ?_
    · obtain rfl := List.mem_singleton.mp hm'
      rw [hnative]
      exact fun hsame => h.foreign (hid.symm.trans hsame.symm)
    · rw [List.map_map]
      exact entries_names_nodup hnames
    · obtain ⟨tool, htool, rfl⟩ := List.mem_map.mp (hperm.mem_iff.mpr hl)
      exact h.described tool htool
  refine ⟨.withRegistry registry', bind_eq_ok.mpr ⟨registry, hbuiltin, ?_⟩⟩
  refine bind_eq_ok.mpr ⟨_, hprovider, ?_⟩
  rw [hreg]

theorem of_withMcpTools {mount : McpConfigMount} {state : AppState}
    (h : AppState.withMcpTools lower toJson mount = .ok state) :
    mount.Mountable lower ∧ ∃ acc registry, state = .withRegistry registry
      ∧ RegistryInv acc registry
      ∧ List.Forall₂ Mounted.Has acc [builtinOffers, mount.offers toJson] := by
  obtain ⟨registry, hbuiltin, h⟩ := bind_eq_ok.mp h
  obtain ⟨provider, hprovider, h⟩ := bind_eq_ok.mp h
  obtain ⟨m, hinv, hnative, hhas⟩ := of_builtinRegistry hbuiltin
  split at h
  · next registry' hreg =>
      obtain rfl := Except.ok.inj h
      obtain ⟨ls, hindex, hinv', hnew, hdesc⟩ := hinv.of_register hreg
      have hmounted := McpConfigMount.has hprovider hindex
      obtain ⟨p, rfl, hid, hnodup, hnames⟩ := McpConfigMount.of_toProvider hprovider
      have hperm := McpConfigMount.listings_perm hnodup hnames hindex
      refine ⟨⟨fun hsame => ?_, hnodup, fun tool htool => ?_⟩, _, registry', rfl, hinv',
        .cons hhas (.cons hmounted .nil)⟩
      · refine hnew m (List.mem_singleton_self m) ?_
        rw [hnative]
        exact (hid.trans hsame).symm
      · exact hdesc _ (hperm.mem_iff.mp (List.mem_map_of_mem htool))
  · cases h

end Building

/-! ## What a server is started with -/

section Serving

variable {files : String → Except ErrorText (List UInt8)} {reader : BodyReader}
  {lower : String → String} {toJson : Value → Except ErrorText String}
  {display : Error → ErrorText} {args : ServeArgs}

/-- What the command line asks to mount. -/
inductive Requested (files : String → Except ErrorText (List UInt8)) (reader : BodyReader) :
    ServeArgs → Option McpConfigMount → Prop
  | nothing : Requested files reader ⟨none, none, none, none, none⟩ none
  | flags (providerId toolName desc bridgeProgram : String) :
      Requested files reader
        ⟨some providerId, some toolName, some desc, some bridgeProgram, none⟩
        (some ⟨providerId, bridgeProgram, ["call"], [⟨toolName, desc, defaultSchema⟩]⟩)
  | file {path : String} {bytes : List UInt8} {document : Value} {config : McpConfigFile}
      (hopen : files path = .ok bytes) (hdocument : reader.document bytes = some document)
      (hconfig : document.asMcpConfigFile = some config) (hrules : config.WellFormed) :
      Requested files reader ⟨none, none, none, none, some path⟩ (some config.whole)

/-- How the state is built from what was asked for. -/
def build (lower : String → String) (toJson : Value → Except ErrorText String) :
    Option McpConfigMount → Result AppState
  | none => AppState.new lower
  | some mount => AppState.withMcpTools lower toJson mount

/-- Flags that say what to mount, and a file that keeps the rules, are all
that `serve` looks at. -/
theorem serve_eq_ok {state : AppState} :
    serve files reader lower toJson display args = .ok state ↔
      ∃ plan, Requested files reader args plan ∧ build lower toJson plan = .ok state := by
  obtain ⟨provider, tool, desc, bridge, config⟩ := args
  unfold serve mcpMount
  constructor
  · intro h
    obtain ⟨mount, hmount, h⟩ := bind_eq_ok.mp h
    obtain ⟨hflags, hmount⟩ := ite_error_eq_ok.mp hmount
    cases config with
    | some path =>
        obtain ⟨rfl, rfl, rfl, rfl⟩ : provider = none ∧ tool = none ∧ desc = none
            ∧ bridge = none := by
          simpa [and_assoc] using hflags
        cases hload : load files reader path with
        | error e =>
            dsimp only at hmount
            rw [hload] at hmount
            cases hmount
        | ok loaded =>
            dsimp only at hmount
            rw [hload] at hmount
            obtain rfl := Except.ok.inj hmount
            obtain ⟨bytes, document, config, hbytes, hdocument, hconfig, hrules, rfl⟩ :=
              load_eq_ok.mp hload
            exact ⟨_, .file hbytes hdocument hconfig hrules, mapError_eq_ok.mp h⟩
    | none =>
        dsimp only at hmount
        split at hmount
        · obtain rfl := Except.ok.inj hmount
          exact ⟨_, .nothing, mapError_eq_ok.mp h⟩
        · obtain rfl := Except.ok.inj hmount
          exact ⟨_, .flags .., mapError_eq_ok.mp h⟩
        · cases hmount
  · rintro ⟨plan, hplan, h⟩
    cases hplan with
    | nothing => exact bind_eq_ok.mpr ⟨_, rfl, mapError_eq_ok.mpr h⟩
    | flags => exact bind_eq_ok.mpr ⟨_, rfl, mapError_eq_ok.mpr h⟩
    | @file path bytes document config hbytes hdocument hconfig hrules =>
        have hload : load files reader path = .ok config.whole :=
          load_eq_ok.mpr ⟨bytes, document, config, hbytes, hdocument, hconfig, hrules, rfl⟩
        refine bind_eq_ok.mpr ⟨some (.config config.whole), ?_, mapError_eq_ok.mpr h⟩
        dsimp only
        rw [hload]
        rfl

/-- A file that mounts two tools, the first under a built-in name. -/
def docsDocument : Value :=
  .object [("provider", .string "docs"),
    ("bridge", .object [("program", .string "axp-mcp-bridge")]),
    ("tools", .array [
      .object [("name", .string "git_diff"), ("desc", .string "Compare two document versions")],
      .object [("desc", .string "Search the documentation index"), ("name", .string "search")]])]

def docsFile : McpConfigFile where
  provider := "docs"
  bridgeProgram := "axp-mcp-bridge"
  bridgeArgs := ["call"]
  tools := [⟨"git_diff", "Compare two document versions", defaultSchema⟩,
    ⟨"search", "Search the documentation index", defaultSchema⟩]

/-- A reader to which every text is that file. -/
def docsReader : BodyReader := ⟨fun _ => some docsDocument, fun _ => ""⟩

/-- A server with a file, or with the four flags. -/
def docsServe (args : ServeArgs) : Except ErrorText AppState :=
  serve (fun _ => .ok []) docsReader asciiLower (fun _ => .ok "\x7b\x7d") (fun _ => "") args

/-- A server gets to listening exactly when the command line asks for no tools,
for one by all four flags, or for those of a file that keeps the rules, and in
the latter cases the provider's id is not the built-in one, and each tool has a
name of its own and a good description. -/
theorem serve_starts_iff (hlower : LowersAscii lower) :
    (∃ state, serve files reader lower toJson display args = .ok state) ↔
      ∃ plan, Requested files reader args plan ∧ ∀ mount ∈ plan, mount.Mountable lower := by
  constructor
  · rintro ⟨state, hserve⟩
    obtain ⟨plan, hplan, hbuild⟩ := serve_eq_ok.mp hserve
    refine ⟨plan, hplan, fun mount hmount => ?_⟩
    obtain rfl := Option.mem_def.mp hmount
    exact (of_withMcpTools hbuild).1
  · rintro ⟨plan, hplan, hmountable⟩
    obtain ⟨state, hstate⟩ : ∃ state, build lower toJson plan = .ok state := by
      cases plan with
      | none =>
          obtain ⟨registry, hregistry⟩ := builtinRegistry_isOk hlower
          refine ⟨.withRegistry registry, ?_⟩
          rw [build, AppState.new, hregistry]
          rfl
      | some mount => exact withMcpTools_isOk hlower (hmountable mount rfl)
    exact ⟨state, serve_eq_ok.mpr ⟨plan, hplan, hstate⟩⟩

theorem docsFile_requested :
    Requested (fun _ => .ok []) docsReader ⟨none, none, none, none, some "mcp.json"⟩
      (some docsFile.whole) :=
  have hread : docsDocument.asMcpConfigFile = some docsFile := rfl
  .file rfl rfl hread (McpConfigFile.firstFault_eq_none.mp (by decide +kernel))

/-- It gets there with the file, and not with a provider of the built-in id. -/
theorem serve_starts_docs :
    (∃ state, docsServe ⟨none, none, none, none, some "mcp.json"⟩ = .ok state)
      ∧ ¬∃ state, docsServe ⟨some "native", some "search", some "Search the documentation index",
        some "axp-mcp-bridge", none⟩ = .ok state := by
  unfold docsServe
  rw [serve_starts_iff fun _ _ => rfl, serve_starts_iff fun _ _ => rfl]
  constructor
  · refine ⟨some docsFile.whole, docsFile_requested, fun mount hmount => ?_⟩
    obtain rfl := Option.some.inj hmount
    decide +kernel
  · rintro ⟨plan, hplan, hmountable⟩
    cases hplan
    exact (hmountable _ rfl).foreign rfl

theorem Requested.unique {plan plan' : Option McpConfigMount}
    (h : Requested files reader args plan) (h' : Requested files reader args plan') :
    plan = plan' := by
  cases h with
  | nothing => cases h'; rfl
  | flags => cases h'; rfl
  | file hopen hdocument hconfig hrules =>
      cases h' with
      | file hopen' hdocument' hconfig' hrules' =>
          obtain rfl := Except.ok.inj (hopen.symm.trans hopen')
          obtain rfl := Option.some.inj (hdocument.symm.trans hdocument')
          obtain rfl := Option.some.inj (hconfig.symm.trans hconfig')
          rfl

/-- No built-in name has the separator. -/
theorem builtin_no_colon : ∀ o ∈ builtinOffers, ':' ∉ o.name.toList := by decide +kernel

/-- What was built has what was asked for. -/
theorem of_build {plan : Option McpConfigMount} {state : AppState}
    (h : build lower toJson plan = .ok state) :
    ∃ acc registry all, state = .withRegistry registry ∧ RegistryInv acc registry
      ∧ List.Forall₂ Mounted.Has acc all ∧ all.flatten = offers toJson plan := by
  cases plan with
  | none =>
      cases hbuiltin : builtinRegistry lower with
      | error e =>
          rw [build, AppState.new, hbuiltin] at h
          cases h
      | ok registry =>
          rw [build, AppState.new, hbuiltin] at h
          obtain rfl := Except.ok.inj h
          obtain ⟨m, hinv, -, hhas⟩ := of_builtinRegistry hbuiltin
          exact ⟨_, registry, _, rfl, hinv, .cons hhas .nil, rfl⟩
  | some mount =>
      obtain ⟨-, acc, registry, rfl, hinv, hhas⟩ := of_withMcpTools h
      refine ⟨acc, registry, _, rfl, hinv, hhas, ?_⟩
      simp [offers]

theorem launched_init (registry : ProviderRegistry) (telling : Error → String) :
    (serverSystem telling).init (AppState.withRegistry registry).launched :=
  ⟨rfl, rfl, rfl, rfl, rfl, rfl, rfl, rfl, rfl, rfl, rfl, rfl, rfl, rfl⟩

/-- No step touches the registry. -/
theorem Server.step_registry {telling : Error → String} {s s' : Server} {l : ServerLabel}
    (hs : (serverSystem telling).step s l = some s') :
    s'.engine.registry = s.engine.registry := by
  cases Server.step_effect hs <;> rfl

/-- The state that `serve` has built is a server that has done nothing. In
every state of every run from there on, its catalog is what the two providers
have, each capability under the name it is due, as long as no mounted name has
the separator. A tool that is named as a built-in capability moves both to
their qualified names. -/
theorem served_catalog (telling : Error → String) {plan : Option McpConfigMount}
    {state : AppState}
    (hplan : Requested files reader args plan)
    (hserve : serve files reader lower toJson display args = .ok state)
    (hcolon : ∀ mount ∈ plan, ∀ tool ∈ mount.tools, ':' ∉ tool.name.toList) :
    (serverSystem telling).init state.launched ∧
      ∀ ls s, (serverSystem telling).run state.launched ls = some s →
        Serves s.engine.registry (offers toJson plan) := by
  obtain ⟨plan', hplan', hbuild⟩ := serve_eq_ok.mp hserve
  obtain rfl := hplan.unique hplan'
  obtain ⟨acc, registry, all, rfl, hinv, hhas, hall⟩ := of_build hbuild
  have hclash : NeverClash (allListed acc) := by
    refine neverClash_of_no_colon hinv.pairs fun e he => ?_
    obtain ⟨o, ho, rfl⟩ := List.mem_map.mp ((flatten_entries hhas).mem_iff.mpr he)
    rw [hall] at ho
    rcases List.mem_append.mp ho with ho | ho
    · exact builtin_no_colon o ho
    · cases plan with
      | none => cases ho
      | some mount =>
          obtain ⟨tool, htool, rfl⟩ := List.mem_map.mp ho
          exact hcolon mount rfl tool htool
  refine ⟨launched_init registry telling, fun ls s hrun => ?_⟩
  have hsame : s.engine.registry = registry :=
    run_invariant (I := fun s => s.engine.registry = registry)
      (fun _ _ _ hregistry hs => (Server.step_registry hs).trans hregistry) rfl hrun
  rw [hsame, ← hall]
  exact hinv.serves hclash hhas

/-- Both `git_diff` are served, under their qualified names. -/
theorem served_catalog_docs : ∃ state,
    docsServe ⟨none, none, none, none, some "mcp.json"⟩ = .ok state
      ∧ Serves state.engine.registry (offers (fun _ => .ok "\x7b\x7d") (some docsFile.whole))
      ∧ (offers (fun _ => .ok "\x7b\x7d") (some docsFile.whole)).map
          (·.exposed (offers (fun _ => .ok "\x7b\x7d") (some docsFile.whole)))
        = ["read_file", "git_log", "native:git_diff", "docs:git_diff", "search"] := by
  have hbuilt : (docsServe ⟨none, none, none, none, some "mcp.json"⟩).toBool = true := by
    decide +kernel
  cases hserve : docsServe ⟨none, none, none, none, some "mcp.json"⟩ with
  | error e =>
      rw [hserve] at hbuilt
      cases hbuilt
  | ok state =>
      have hcolon : ∀ mount ∈ some docsFile.whole, ∀ tool ∈ mount.tools,
          ':' ∉ tool.name.toList := by
        intro mount hmount
        obtain rfl := Option.some.inj hmount
        decide +kernel
      have hserves := served_catalog (fun _ => "") docsFile_requested hserve hcolon
      exact ⟨state, rfl, hserves.2 [] _ rfl, by decide +kernel⟩

end Serving

end Axp
