import Axp.Server

/-!
# JSON-RPC envelopes

The request type, what a JSON value has to be to fit it, and the responses
with their error codes.

A request type derives how it is read, and so has two forms: an object with
its fields as members, none of them twice, or an array with its fields in
order. Three of the four fields have defaults; the version is any string.
-/

namespace Axp

namespace Jsonrpc

/-! ## Error codes -/

def parseError : Int := -32700
def invalidRequest : Int := -32600
def methodNotFound : Int := -32601
def invalidParams : Int := -32602
def internalError : Int := -32603
def notFound : Int := -32001
def denied : Int := -32002
def notImplemented : Int := -32003
def unauthorized : Int := -32004

end Jsonrpc

/-! ## Reading a field -/

/-- The members of that name, in order. -/
def Value.members (name : String) : Value → List Value
  | .object fields => (fields.filter (·.1 = name)).map (·.2)
  | _ => []

def Value.asString : Value → Option String
  | .string s => some s
  | _ => none

/-- An `Option<Value>`. -/
def Value.nonNull : Value → Option Value
  | .null => none
  | v => some v

/-- A field, from the members of its name: its default without any, an error
if there are several. -/
def readField {α : Type} (default : Option α) (read : Value → Option α) :
    List Value → Option α
  | [] => default
  | [v] => read v
  | _ => none

theorem readField_eq_some {α : Type} {default : Option α} {read : Value → Option α}
    {l : List Value} {a : α} :
    readField default read l = some a ↔
      (l = [] ∧ default = some a) ∨ ∃ v, l = [v] ∧ read v = some a := by
  match l with
  | [] => simp [readField]
  | [v] => simp [readField]
  | v :: w :: l => simp [readField]

theorem asString_eq_some {v : Value} {s : String} : v.asString = some s ↔ v = .string s := by
  cases v <;> simp [Value.asString]

theorem nonNull_getD (v : Value) : v.nonNull.getD .null = v := by
  cases v <;> rfl

theorem readField_string {default : Option String} {l : List Value} {s : String} :
    readField default Value.asString l = some s ↔
      (l = [] ∧ default = some s) ∨ l = [.string s] := by
  simp only [readField_eq_some, asString_eq_some, exists_eq_right]

theorem readField_nonNull {l : List Value} {o : Option Value} :
    readField (some none) (some ∘ Value.nonNull) l = some o ↔
      (l = [] ∧ none = o) ∨ ∃ v : Value, l = [v] ∧ v.nonNull = o := by
  simp only [readField_eq_some, Function.comp_apply, Option.some.injEq]

theorem readField_value {default : Option Value} {l : List Value} {v : Value} :
    readField default some l = some v ↔ (l = [] ∧ default = some v) ∨ l = [v] := by
  simp only [readField_eq_some, Option.some.injEq, exists_eq_right]

/-! ## Requests -/

/-- An inbound JSON-RPC 2.0 request object. -/
structure JsonRpcRequest where
  jsonrpc : String
  id : Option Value
  method : String
  params : Value

def defaultJsonrpc : String := "2.0"

namespace JsonRpcRequest

/-- The request with these members for its fields. -/
def ofMembers (jsonrpc id method params : List Value) : Option JsonRpcRequest := do
  let jsonrpc ← readField (some defaultJsonrpc) Value.asString jsonrpc
  let id ← readField (some none) (some ∘ Value.nonNull) id
  let method ← readField none Value.asString method
  let params ← readField (some .null) some params
  return { jsonrpc, id, method, params }

/-- The derived reader. -/
def deserialize (v : Value) : Option JsonRpcRequest :=
  match v with
  | .object _ =>
      ofMembers (v.members "jsonrpc") (v.members "id") (v.members "method") (v.members "params")
  | .array items =>
      if items.length ≤ 4 then
        ofMembers items[0]?.toList items[1]?.toList items[2]?.toList items[3]?.toList
      else none
  | _ => none

theorem ofMembers_eq_some {jsonrpc id method params : List Value} {req : JsonRpcRequest} :
    ofMembers jsonrpc id method params = some req ↔
      ((jsonrpc = [] ∧ defaultJsonrpc = req.jsonrpc) ∨ jsonrpc = [.string req.jsonrpc])
        ∧ ((id = [] ∧ none = req.id) ∨ ∃ v : Value, id = [v] ∧ v.nonNull = req.id)
        ∧ method = [.string req.method]
        ∧ ((params = [] ∧ .null = req.params) ∨ params = [req.params]) := by
  simp only [ofMembers, Option.bind_eq_bind, Option.bind_eq_some_iff, readField_string,
    readField_nonNull, readField_value, Option.pure_def, Option.some.injEq, reduceCtorEq,
    and_false, false_or]
  constructor
  · rintro ⟨_, hj, _, hi, _, hm, _, hp, rfl⟩
    exact ⟨hj, hi, hm, hp⟩
  · rintro ⟨hj, hi, hm, hp⟩
    exact ⟨_, hj, _, hi, _, hm, _, hp, rfl⟩

end JsonRpcRequest

/-! ## Responses -/

/-- A JSON-RPC 2.0 error object. -/
structure JsonRpcError where
  code : Int
  message : String
  data : Option Value

/-- The success/failure body of a response. -/
inductive JsonRpcBody where
  | success (result : Value)
  | failure (error : JsonRpcError)

/-- An outbound JSON-RPC 2.0 response object. -/
structure JsonRpcResponse where
  jsonrpc : String
  id : Value
  body : JsonRpcBody

namespace JsonRpcResponse

def success (id result : Value) : JsonRpcResponse := ⟨"2.0", id, .success result⟩

def error (id : Value) (error : JsonRpcError) : JsonRpcResponse := ⟨"2.0", id, .failure error⟩

/-- The error code of a failure. -/
def code (self : JsonRpcResponse) : Option Int :=
  match self.body with
  | .success _ => none
  | .failure e => some e.code

end JsonRpcResponse

/-! ## Errors of a handler -/

namespace TransportError

/-- The text of an error; `display` is `Error`'s. -/
def display (display : Error → String) : TransportError → String
  | .runtime e => display e
  | .parse reason => "parse error: " ++ reason
  | .invalidParams reason => "invalid params: " ++ reason
  | .unauthorized => "unauthorized"
  | .internal reason => "internal error: " ++ reason

/-- The code of an error. -/
def code : TransportError → Int
  | .parse _ => Jsonrpc.parseError
  | .invalidParams _ => Jsonrpc.invalidParams
  | .unauthorized => Jsonrpc.unauthorized
  | .internal _ => Jsonrpc.internalError
  | .runtime e =>
      match e with
      | .sessionNotFound _ | .jobNotFound _ | .capabilityNotFound _ => Jsonrpc.notFound
      | .capabilityDenied _ => Jsonrpc.denied
      | .notImplemented _ => Jsonrpc.notImplemented
      | .invalidWorkspace .. | .capabilityParse .. | .workspaceViolation _ =>
          Jsonrpc.invalidParams
      | _ => Jsonrpc.internalError

/-- The error object sent to the client. -/
def toJsonrpcError (displayCore : Error → String) (self : TransportError) : JsonRpcError :=
  ⟨self.code, self.display displayCore, none⟩

end TransportError

end Axp
