import Axp.Provider
import Axp.Serde

/-!
# The configuration file

How `axp serve` reads the file that says what tools to mount. The check goes
through it once and keeps a table of the names it has seen; `firstFault` says
without the table what it finds, and `WellFormed` when it finds nothing.
-/

namespace Axp

/-! ## The configuration file -/

/-- `default_schema`, and `static_mcp_schema`. -/
def defaultSchema : Value :=
  .object [("type", .string "object"), ("additionalProperties", .bool true)]

/-- `default_bridge_args`, and `static_mcp_bridge_args`. -/
def defaultBridgeArgs : List String := ["call"]

/-- `ToolConfig`, read from a text. -/
def Value.asToolConfig (v : Value) : Option ToolConfig := do
  let f ← v.asStruct 3
  let name ← readField none Value.asString (f.get "name" 0)
  let desc ← readField none Value.asString (f.get "desc" 1)
  let schema ← readField (some defaultSchema) some (f.get "schema" 2)
  return ⟨name, desc, schema⟩

/-- `BridgeConfig`, read from a text. -/
def Value.asBridgeConfig (v : Value) : Option McpBridgeCommand := do
  let f ← v.asStruct 2
  let program ← readField none Value.asString (f.get "program" 0)
  let args ← readField (some defaultBridgeArgs) (Value.asList Value.asString) (f.get "args" 1)
  return ⟨program, args⟩

/-- `McpConfigFile`, read from a text. -/
def Value.asMcpConfigFile (v : Value) : Option McpConfigFile := do
  let f ← v.asStruct 3
  let provider ← readField none Value.asString (f.get "provider" 0)
  let bridge ← readField none Value.asBridgeConfig (f.get "bridge" 1)
  let tools ← readField none (Value.asList Value.asToolConfig) (f.get "tools" 2)
  return ⟨provider, bridge.program, bridge.args, tools⟩

/-- `mcp_config::load`; `files` opens a file and reads it. -/
def load (files : String → Except ErrorText (List UInt8)) (reader : BodyReader) (path : String) :
    Except ErrorText McpConfigMount := do
  let file ← files path
  let config ← okOr ((reader.document file).bind Value.asMcpConfigFile)
    ("invalid MCP config JSON: " ++ reader.errorText file)
  config.intoMount

/-! ## What a configuration file is refused for -/

namespace McpConfigFile

/-- What the file mounts. -/
def whole (self : McpConfigFile) : McpConfigMount :=
  ⟨self.provider, self.bridgeProgram, self.bridgeArgs, self.tools⟩

/-- What is wrong with the tool at that position. -/
def toolFault (tools : List ToolConfig) (index : Nat) (tool : ToolConfig) : Option ErrorText :=
  let slot := "MCP config tool[" ++ toString index ++ "]"
  if (trim tool.name).isEmpty then some (slot ++ ".name must not be empty")
  else if (trim tool.desc).isEmpty then some (slot ++ ".desc must not be empty")
  else ((tools.take index).findIdx? (·.name = tool.name)).map fun first =>
    slot ++ ".name duplicates tool[" ++ toString first ++ "].name " ++ "`" ++ tool.name ++ "`"

/-- The first thing wrong with the file. -/
def firstFault (self : McpConfigFile) : Option ErrorText :=
  if (trim self.provider).isEmpty then some "MCP config provider must not be empty"
  else if (trim self.bridgeProgram).isEmpty then
    some "MCP config bridge.program must not be empty"
  else if self.tools.isEmpty then some "MCP config must define at least one tool"
  else self.tools.zipIdx.findSome? fun (tool, index) => toolFault self.tools index tool

/-- The table holds the position of the first tool of each name. -/
def Seen (seen : HashMap String Nat) (before : List ToolConfig) : Prop :=
  ∀ name, seen.lookup name = before.findIdx? (·.name = name)

theorem checkTool_eq {seen : HashMap String Nat} {before : List ToolConfig}
    (h : Seen seen before) (tool : ToolConfig) (rest : List ToolConfig) :
    checkTool seen before.length tool
      = match toolFault (before ++ tool :: rest) before.length tool with
        | some e => .error e
        | none => .ok (seen.insert tool.name before.length) := by
  unfold checkTool toolFault
  rw [List.take_left, ← h tool.name]
  dsimp only
  split
  · rfl
  · split
    · rfl
    · cases seen.lookup tool.name <;> rfl

/-- A tool of a new name is the first of it. -/
theorem Seen.insert {seen : HashMap String Nat} {before : List ToolConfig} {tool : ToolConfig}
    (h : Seen seen before) (hnew : before.findIdx? (·.name = tool.name) = none) :
    Seen (seen.insert tool.name before.length) (before ++ [tool]) := by
  intro name
  rw [List.findIdx?_append]
  by_cases hname : name = tool.name
  · rw [hname, AList.lookup_insert, hnew]
    simp
  · rw [AList.lookup_insert_ne hname, h name]
    simp [Ne.symm hname]

theorem toolFault_none {before rest : List ToolConfig} {tool : ToolConfig}
    (h : toolFault (before ++ tool :: rest) before.length tool = none) :
    before.findIdx? (·.name = tool.name) = none := by
  unfold toolFault at h
  rw [List.take_left] at h
  split at h
  · cases h
  · split at h
    · cases h
    · exact Option.map_eq_none_iff.mp h

/-- The loop over the tools stops at the first one with a fault. -/
theorem checkTools_eq (rest : List ToolConfig) : ∀ {seen : HashMap String Nat}
    {before : List ToolConfig}, Seen seen before →
      ((rest.zipIdx before.length).foldlM
          (fun seen (x : ToolConfig × Nat) => checkTool seen x.2 x.1) seen).map (fun _ => ())
        = match (rest.zipIdx before.length).findSome?
              (fun x => toolFault (before ++ rest) x.2 x.1) with
          | some e => .error e
          | none => .ok () := by
  induction rest with
  | nil => intro seen before _; rfl
  | cons tool rest ih =>
      intro seen before h
      rw [List.zipIdx_cons, List.foldlM_cons, List.findSome?_cons, checkTool_eq h tool rest]
      cases hfault : toolFault (before ++ tool :: rest) before.length tool with
      | some e => rfl
      | none =>
          have hrest := ih (h.insert (toolFault_none hfault))
          rw [List.length_append, List.length_singleton, List.append_assoc,
            List.singleton_append] at hrest
          exact hrest

/-- A file is mounted whole, or refused for the first thing wrong with it. -/
theorem intoMount_eq (self : McpConfigFile) :
    self.intoMount = match self.firstFault with
      | some e => .error e
      | none => .ok self.whole := by
  unfold intoMount firstFault rejectEmpty
  by_cases hprovider : (trim self.provider).isEmpty
  · rw [if_pos hprovider, if_pos hprovider]
    rfl
  · rw [if_neg hprovider, if_neg hprovider]
    by_cases hbridge : (trim self.bridgeProgram).isEmpty
    · rw [if_pos hbridge, if_pos hbridge]
      rfl
    · rw [if_neg hbridge, if_neg hbridge]
      by_cases htools : self.tools.isEmpty
      · rw [if_pos htools, if_pos htools]
        rfl
      · rw [if_neg htools, if_neg htools]
        have hloop := checkTools_eq self.tools (show Seen ∅ [] from fun _ => rfl)
        rw [List.length_nil, List.nil_append] at hloop
        cases hfold : self.tools.zipIdx.foldlM
            (fun seen (x : ToolConfig × Nat) => checkTool seen x.2 x.1) ∅ with
        | error e =>
            rw [hfold] at hloop
            cases hfault : self.tools.zipIdx.findSome?
                fun x => toolFault self.tools x.2 x.1 with
            | none =>
                rw [hfault] at hloop
                cases hloop
            | some e' =>
                rw [hfault] at hloop
                obtain rfl := Except.error.inj hloop
                rfl
        | ok seen =>
            rw [hfold] at hloop
            cases hfault : self.tools.zipIdx.findSome?
                fun x => toolFault self.tools x.2 x.1 with
            | none => rfl
            | some e =>
                rw [hfault] at hloop
                cases hloop

/-- The rules for a configuration file. -/
structure WellFormed (config : McpConfigFile) : Prop where
  provider : ¬(trim config.provider).isEmpty
  bridge : ¬(trim config.bridgeProgram).isEmpty
  nonempty : config.tools ≠ []
  named : ∀ tool ∈ config.tools, ¬(trim tool.name).isEmpty ∧ ¬(trim tool.desc).isEmpty
  distinct : (config.tools.map (·.name)).Nodup

theorem toolFault_eq_none {tools : List ToolConfig} {index : Nat} {tool : ToolConfig} :
    toolFault tools index tool = none ↔ (¬(trim tool.name).isEmpty ∧ ¬(trim tool.desc).isEmpty)
      ∧ ∀ other ∈ tools.take index, other.name ≠ tool.name := by
  unfold toolFault
  dsimp only
  split
  · next h => simp [h]
  · next hname =>
      split
      · next h => simp [h]
      · next hdesc =>
          rw [Option.map_eq_none_iff, List.findIdx?_eq_none_iff, and_iff_right ⟨hname, hdesc⟩]
          simp only [decide_eq_false_iff_not, ne_eq]

theorem distinct_iff {tools : List ToolConfig} : (tools.map (·.name)).Nodup ↔
    ∀ index tool, tools[index]? = some tool →
      ∀ other ∈ tools.take index, other.name ≠ tool.name := by
  rw [List.Nodup, List.pairwise_map, List.pairwise_iff_getElem]
  constructor
  · intro h index tool htool other hother
    obtain ⟨hindex, rfl⟩ := List.getElem?_eq_some_iff.mp htool
    obtain ⟨i, hi, rfl⟩ := List.mem_take_iff_getElem.mp hother
    exact h i index _ hindex (by omega)
  · intro h i j hi hj hij
    exact h j _ (List.getElem?_eq_getElem hj) _ (List.mem_take_iff_getElem.mpr ⟨i, by omega, rfl⟩)

/-- A file has nothing wrong with it exactly if it keeps the rules. -/
theorem firstFault_eq_none {self : McpConfigFile} : self.firstFault = none ↔ self.WellFormed := by
  have hloop : (self.tools.zipIdx.findSome? fun x => toolFault self.tools x.2 x.1) = none ↔
      (∀ tool ∈ self.tools, ¬(trim tool.name).isEmpty ∧ ¬(trim tool.desc).isEmpty)
        ∧ (self.tools.map (·.name)).Nodup := by
    rw [List.findSome?_eq_none_iff, distinct_iff]
    constructor
    · intro h
      refine ⟨fun tool htool => ?_, fun index tool htool => ?_⟩
      · obtain ⟨index, hindex⟩ := List.getElem?_of_mem htool
        exact (toolFault_eq_none.mp (h (tool, index)
          (List.mem_zipIdx_iff_getElem?.mpr hindex))).1
      · exact (toolFault_eq_none.mp (h (tool, index)
          (List.mem_zipIdx_iff_getElem?.mpr htool))).2
    · rintro ⟨hnamed, hdistinct⟩ ⟨tool, index⟩ hmem
      have htool := List.mem_zipIdx_iff_getElem?.mp hmem
      exact toolFault_eq_none.mpr
        ⟨hnamed tool (List.mem_of_getElem? htool), hdistinct index tool htool⟩
  unfold firstFault
  constructor
  · intro h
    split at h
    · cases h
    · next hprovider =>
        split at h
        · cases h
        · next hbridge =>
            split at h
            · cases h
            · next htools =>
                obtain ⟨hnamed, hdistinct⟩ := hloop.mp h
                exact ⟨hprovider, hbridge, fun hnil => htools (hnil ▸ rfl), hnamed, hdistinct⟩
  · rintro ⟨hprovider, hbridge, htools, hnamed, hdistinct⟩
    rw [if_neg hprovider, if_neg hbridge, if_neg (by simpa using htools)]
    exact hloop.mpr ⟨hnamed, hdistinct⟩

theorem intoMount_eq_ok {self : McpConfigFile} {mount : McpConfigMount} :
    self.intoMount = .ok mount ↔ self.WellFormed ∧ mount = self.whole := by
  rw [intoMount_eq, ← firstFault_eq_none]
  cases self.firstFault <;> simp [eq_comm]

end McpConfigFile

theorem load_eq_ok {files : String → Except ErrorText (List UInt8)} {reader : BodyReader}
    {path : String} {mount : McpConfigMount} :
    load files reader path = .ok mount ↔
      ∃ bytes document config, files path = .ok bytes ∧ reader.document bytes = some document
        ∧ document.asMcpConfigFile = some config ∧ config.WellFormed ∧ mount = config.whole := by
  unfold load
  simp only [bind_eq_ok, okOr_eq_ok, Option.bind_eq_some_iff, McpConfigFile.intoMount_eq_ok]
  constructor
  · rintro ⟨bytes, hbytes, config, ⟨document, hdocument, hconfig⟩, hrules, rfl⟩
    exact ⟨bytes, document, config, hbytes, hdocument, hconfig, hrules, rfl⟩
  · rintro ⟨bytes, document, config, hbytes, hdocument, hconfig, hrules, rfl⟩
    exact ⟨bytes, hbytes, config, ⟨document, hdocument, hconfig⟩, hrules, rfl⟩

end Axp
