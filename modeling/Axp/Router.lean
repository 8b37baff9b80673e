import Axp.JsonRpc

/-!
# The router

`POST /` reads its body as a request and dispatches it on the method's name.
Eight names have a handler; `job.attach` is told where to connect instead.

The handlers are any functions of the shared state and the parameters, and
the JSON library is any reader: what a body is answered with is decided in
between. An answer keeps which handlers have run.
-/

namespace Axp

open JsonRpcRequest (ofMembers_eq_some)

/-! ## Dispatching -/

/-- The method handlers. -/
inductive Handler where
  | sessionOpen
  | sessionClose
  | sessionAudit
  | index
  | describe
  | jobStart
  | jobStatus
  | jobCancel
deriving DecidableEq, Repr

/-- The arms of `dispatch` that call a handler. -/
def Handler.ofMethod : String → Option Handler
  | "session.open" => some .sessionOpen
  | "session.close" => some .sessionClose
  | "session.audit" => some .sessionAudit
  | "axp.index" => some .index
  | "axp.describe" => some .describe
  | "job.start" => some .jobStart
  | "job.status" => some .jobStatus
  | "job.cancel" => some .jobCancel
  | _ => none

/-- What each handler makes of the state and of the parameters. -/
abbrev Handlers (σ : Type) := Handler → σ → Value → Except TransportError Value × σ

/-- A response, the state it leaves, and the handlers that ran for it. -/
structure Answered (σ : Type) where
  response : JsonRpcResponse
  state : σ
  ran : List Handler

variable {σ : Type}

/-- Route a request to its handler. -/
def dispatch (display : Error → String) (handlers : Handlers σ) (state : σ)
    (req : JsonRpcRequest) : Answered σ :=
  let id := req.id.getD .null
  match Handler.ofMethod req.method with
  | some h =>
      match handlers h state req.params with
      | (.ok v, state) => ⟨.success id v, state, [h]⟩
      | (.error te, state) => ⟨.error id (te.toJsonrpcError display), state, [h]⟩
  | none =>
      if req.method = "job.attach" then
        let error : JsonRpcError :=
          { code := Jsonrpc.invalidRequest
            message := "job.attach is a streaming endpoint; connect with GET /job/attach " ++
              "(text/event-stream)"
            data := none }
        ⟨.error id error, state, []⟩
      else
        let error : JsonRpcError :=
          { code := Jsonrpc.methodNotFound
            message := "method not found: " ++ req.method
            data := none }
        ⟨.error id error, state, []⟩

section Dispatch

variable (display : Error → String) (handlers : Handlers σ) (state : σ) (req : JsonRpcRequest)

variable {req}

variable (req)

end Dispatch

/-! ## Reading the body -/

/-- `serde_json`: the value a body spells, where it is JSON to it, and the text
of the error where it cannot be read as a request. -/
structure BodyReader where
  document : List UInt8 → Option Value
  errorText : List UInt8 → ErrorText

def BodyReader.fromSlice (reader : BodyReader) (body : List UInt8) :
    Except ErrorText JsonRpcRequest :=
  okOr ((reader.document body).bind JsonRpcRequest.deserialize) (reader.errorText body)

/-- `POST /`. -/
def rpcHandler (reader : BodyReader) (display : Error → String) (handlers : Handlers σ)
    (state : σ) (body : List UInt8) : Answered σ :=
  match reader.fromSlice body with
  | .ok req => dispatch display handlers state req
  | .error e =>
      let error : JsonRpcError :=
        { code := Jsonrpc.parseError, message := "parse error: " ++ e, data := none }
      ⟨.error .null error, state, []⟩

/-! ## What a body is -/

/-- A JSON-RPC 2.0 request: an object that names each field once at most, its
method with a string, and no other version than 2.0. -/
structure RpcRequest (v : Value) (id : Value) (method : String) : Prop where
  object : ∃ fields, v = .object fields
  version : v.members "jsonrpc" = [] ∨ v.members "jsonrpc" = [.string "2.0"]
  id : (v.members "id" = [] ∧ id = .null) ∨ v.members "id" = [id]
  method : v.members "method" = [.string method]
  params : (v.members "params").length ≤ 1

/-- The value has one of the two forms of the request type, with any version,
and that method. -/
inductive Value.Asks (method : String) : Value → Prop
  | object {fields : List (String × Value)}
      (hversion : (Value.object fields).members "jsonrpc" = []
        ∨ ∃ version, (Value.object fields).members "jsonrpc" = [.string version])
      (hid : ((Value.object fields).members "id").length ≤ 1)
      (hmethod : (Value.object fields).members "method" = [.string method])
      (hparams : ((Value.object fields).members "params").length ≤ 1) :
      Value.Asks method (.object fields)
  | array {version : String} {id : Value} {rest : List Value} (hrest : rest.length ≤ 1) :
      Value.Asks method (.array (.string version :: id :: .string method :: rest))

theorem length_le_one_iff {α : Type} {l : List α} : l.length ≤ 1 ↔ l = [] ∨ ∃ a, l = [a] := by
  match l with
  | [] => simp
  | [a] => simp
  | a :: b :: l => simp

/-- A field that is missing or there once has a value: its default, or that. -/
theorem exists_value {α : Type} {l : List Value} {value : α → Value} (default : α)
    (h : l = [] ∨ ∃ a, l = [value a]) : ∃ a, (l = [] ∧ default = a) ∨ l = [value a] := by
  rcases h with hnone | ⟨a, hone⟩
  · exact ⟨default, .inl ⟨hnone, rfl⟩⟩
  · exact ⟨a, .inr hone⟩

theorem Value.Asks.deserialize {v : Value} {method : String} (h : v.Asks method) :
    ∃ req, JsonRpcRequest.deserialize v = some req ∧ req.method = method := by
  cases h with
  | @object fields hversion hid hmethod hparams =>
      obtain ⟨version, hversion⟩ := exists_value defaultJsonrpc hversion
      obtain ⟨params, hparams⟩ := exists_value .null (length_le_one_iff.mp hparams)
      rcases length_le_one_iff.mp hid with hid | ⟨id, hid⟩
      · exact ⟨⟨version, none, method, params⟩,
          ofMembers_eq_some.mpr ⟨hversion, .inl ⟨hid, rfl⟩, hmethod, hparams⟩, rfl⟩
      · exact ⟨⟨version, id.nonNull, method, params⟩,
          ofMembers_eq_some.mpr ⟨hversion, .inr ⟨id, hid, rfl⟩, hmethod, hparams⟩, rfl⟩
  | @array version id rest hrest =>
      rcases length_le_one_iff.mp hrest with rfl | ⟨params, rfl⟩
      · exact ⟨⟨version, id.nonNull, method, .null⟩, rfl, rfl⟩
      · exact ⟨⟨version, id.nonNull, method, params⟩, rfl, rfl⟩

/-- A request is read as what it is. -/
theorem RpcRequest.deserialize {v id : Value} {method : String} (h : RpcRequest v id method) :
    ∃ req, JsonRpcRequest.deserialize v = some req ∧ req.method = method
      ∧ req.id.getD .null = id := by
  obtain ⟨fields, rfl⟩ := h.object
  have hasks : (Value.object fields).Asks method :=
    .object (h.version.imp_right fun hone => ⟨_, hone⟩)
      (length_le_one_iff.mpr (h.id.imp And.left fun hone => ⟨_, hone⟩)) h.method h.params
  obtain ⟨req, hreq, hmethod⟩ := hasks.deserialize
  refine ⟨req, hreq, hmethod, ?_⟩
  obtain ⟨-, hid, -, -⟩ := ofMembers_eq_some.mp hreq
  rcases h.id with ⟨hnone, rfl⟩ | hone
  · rcases hid with ⟨-, hid⟩ | ⟨w, hw, -⟩
    · rw [← hid]
      rfl
    · rw [hnone] at hw
      cases hw
  · rcases hid with ⟨hnone, -⟩ | ⟨w, hw, hid⟩
    · rw [hone] at hnone
      cases hnone
    · rw [← hid, nonNull_getD]
      exact List.singleton_inj.mp (hw.symm.trans hone)

/-! ## Every body gets its class of error -/

section RpcHandler

variable {reader : BodyReader} {body : List UInt8} (display : Error → String)
  (handlers : Handlers σ) (state : σ)

theorem rpcHandler_read {v : Value} {req : JsonRpcRequest} (hv : reader.document body = some v)
    (hreq : JsonRpcRequest.deserialize v = some req) :
    rpcHandler reader display handlers state body = dispatch display handlers state req := by
  rw [rpcHandler, BodyReader.fromSlice, hv, Option.bind_some, hreq]
  rfl

end RpcHandler

end Axp
