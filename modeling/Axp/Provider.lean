import Axp.Error

/-!
# Capability providers

A `Provider` is an id and three answers: what it lists, the detail of one of
its capabilities, and the command an invocation of one resolves to. Names are
local to the provider.

Two kinds are built in. A `NativeProvider` binds parameters into an argument
template; an `McpToolProvider` hands the tool's name and the parameters to a
bridge program. The order in which either lists its capabilities is the
iteration order of a hash map, so no statement rests on it.
-/

namespace Axp

/-- A program and its arguments, ready for `Command::new`. -/
structure ResolvedCommand where
  program : String
  args : List String
deriving DecidableEq, Repr

/-- Local name and one-line description. -/
structure CapabilityListing where
  name : String
  desc : String
deriving DecidableEq, Repr

/-- Full detail for a single capability. -/
structure CapabilityDetail where
  signature : String
  schema : Value

/-- The `Provider` trait. -/
structure Provider where
  id : String
  index : Result (List CapabilityListing)
  describe : String → Result CapabilityDetail
  resolve : String → Value → Result ResolvedCommand

/-! ## Native capabilities -/

/-- One slot in an argument template. -/
inductive CapabilityArg where
  | literal (text : String)
  | param (field : String)
deriving DecidableEq, Repr

structure ExecutionSpec where
  program : String
  argsTemplate : List CapabilityArg
deriving DecidableEq, Repr

structure CapabilityDescriptor where
  name : String
  desc : String
  signature : String
  schema : Value
  exec : ExecutionSpec

/-- `params.get(field).and_then(|v| v.as_str())`. A repeated key has the value
of its last occurrence. -/
def Value.getStr? (params : Value) (field : String) : Option String :=
  match params with
  | .object fields =>
      match fields.reverse.lookup field with
      | some (.string s) => some s
      | _ => none
  | _ => none

/-- Bind one slot. -/
def CapabilityArg.bind (params : Value) : CapabilityArg → Result String
  | .literal s => .ok s
  | .param field =>
      okOr (params.getStr? field)
        (.capabilityParse field "missing or non-string capability param")

structure NativeProvider where
  id : String
  descriptors : HashMap String CapabilityDescriptor

namespace NativeProvider

/-- Reject a second descriptor of one name. -/
def new (id : String) (descriptors : List CapabilityDescriptor) : Result NativeProvider := do
  let map ← descriptors.foldlM (fun (map : HashMap String CapabilityDescriptor) d =>
    if d.name ∈ map then .error (.duplicateCapability id d.name)
    else .ok (map.insert d.name d)) ∅
  return ⟨id, map⟩

def toProvider (self : NativeProvider) : Provider where
  id := self.id
  index := .ok (self.descriptors.entries.map fun d => ⟨d.2.name, d.2.desc⟩)
  describe name := do
    let d ← okOr (self.descriptors.lookup name) (.capabilityNotFound name)
    return ⟨d.signature, d.schema⟩
  resolve name params := do
    let d ← okOr (self.descriptors.lookup name) (.capabilityNotFound name)
    let args ← d.exec.argsTemplate.mapM (·.bind params)
    return ⟨d.exec.program, args⟩

end NativeProvider

/-! ## Mounted tools -/

structure McpBridgeCommand where
  program : String
  args : List String
deriving DecidableEq, Repr

structure McpToolDescriptor where
  providerId : String
  name : String
  desc : String
  schema : Value
  bridge : McpBridgeCommand

structure McpToolProvider where
  id : String
  tools : HashMap String McpToolDescriptor

namespace McpToolProvider

/-- Reject a tool of another provider, and a second tool of one name. -/
def new (id : String) (tools : List McpToolDescriptor) : Result McpToolProvider := do
  let map ← tools.foldlM (fun (map : HashMap String McpToolDescriptor) tool =>
    if tool.providerId ≠ id then
      .error (.capabilityParse tool.providerId
        ("MCP tool provider id must match " ++ "`" ++ id ++ "`"))
    else if tool.name ∈ map then .error (.duplicateCapability id tool.name)
    else .ok (map.insert tool.name tool)) ∅
  return ⟨id, map⟩

/-- The provider; `toJson` is `serde_json::to_string`. -/
def toProvider (toJson : Value → Except ErrorText String) (self : McpToolProvider) : Provider where
  id := self.id
  index := .ok (self.tools.entries.map fun tool => ⟨tool.2.name, tool.2.desc⟩)
  describe name := do
    let tool ← okOr (self.tools.lookup name) (.capabilityNotFound name)
    return ⟨tool.name ++ "(input: object): string", tool.schema⟩
  resolve name params := do
    let tool ← okOr (self.tools.lookup name) (.capabilityNotFound name)
    let serialized ← (toJson params).mapError fun err =>
      .capabilityParse name ("failed to serialize MCP tool params: " ++ err)
    return ⟨tool.bridge.program, tool.bridge.args ++
      ["--provider", tool.providerId, "--tool", tool.name, "--params", serialized]⟩

end McpToolProvider

/-! ## Mounting tools from a configuration file -/

structure ToolConfig where
  name : String
  desc : String
  schema : Value

/-- The file's contents, with `bridge` in two fields. -/
structure McpConfigFile where
  provider : String
  bridgeProgram : String
  bridgeArgs : List String
  tools : List ToolConfig

structure McpConfigMount where
  providerId : String
  bridgeProgram : String
  bridgeArgs : List String
  tools : List ToolConfig

/-- `reject_empty`. -/
def rejectEmpty (field value : String) : Except ErrorText Unit :=
  if (trim value).isEmpty then .error ("MCP config " ++ field ++ " must not be empty")
  else .ok ()

namespace McpConfigFile

/-- Check one tool against those before it; `seen` holds their positions. -/
def checkTool (seen : HashMap String Nat) (index : Nat) (tool : ToolConfig) :
    Except ErrorText (HashMap String Nat) :=
  let slot := "MCP config tool[" ++ toString index ++ "]"
  if (trim tool.name).isEmpty then .error (slot ++ ".name must not be empty")
  else if (trim tool.desc).isEmpty then .error (slot ++ ".desc must not be empty")
  else
    match seen.lookup tool.name with
    | some first => .error (slot ++ ".name duplicates tool[" ++ toString first ++ "].name "
        ++ "`" ++ tool.name ++ "`")
    | none => .ok (seen.insert tool.name index)

def intoMount (self : McpConfigFile) : Except ErrorText McpConfigMount := do
  rejectEmpty "provider" self.provider
  rejectEmpty "bridge.program" self.bridgeProgram
  if self.tools.isEmpty then
    .error "MCP config must define at least one tool"
  else
    let _ ← self.tools.zipIdx.foldlM (fun seen (tool, index) => checkTool seen index tool) ∅
    return ⟨self.provider, self.bridgeProgram, self.bridgeArgs, self.tools⟩

end McpConfigFile

/-- The provider of `AppState::with_mcp_tools`. -/
def McpConfigMount.toProvider (toJson : Value → Except ErrorText String) (self : McpConfigMount) :
    Result Provider := do
  let bridge : McpBridgeCommand := ⟨self.bridgeProgram, self.bridgeArgs⟩
  let provider ← McpToolProvider.new self.providerId
    (self.tools.map fun tool => ⟨self.providerId, tool.name, tool.desc, tool.schema, bridge⟩)
  return provider.toProvider toJson

/-! ## The built-in provider -/

/-- `native_provider`. -/
def nativeProvider : Result NativeProvider :=
  let noParams : Value := .object [("type", .string "object"), ("properties", .object []),
    ("additionalProperties", .bool false)]
  NativeProvider.new "native"
    [{ name := "git_diff"
       desc := "Show uncommitted working-tree changes as a unified diff"
       signature := "git_diff(): string"
       schema := noParams
       exec := ⟨"git", [.literal "diff"]⟩ },
     { name := "git_log"
       desc := "List recent commits in compact one-line summary form"
       signature := "git_log(): string"
       schema := noParams
       exec := ⟨"git", [.literal "log", .literal "--oneline", .literal "-20"]⟩ },
     { name := "read_file"
       desc := "Read and output the contents of a file by path"
       signature := "read_file(path: string): string"
       schema := .object [("type", .string "object"),
         ("properties", .object [("path", .object [("type", .string "string")])]),
         ("additionalProperties", .bool false)]
       exec := ⟨"cat", [.param "path"]⟩ }]

end Axp
