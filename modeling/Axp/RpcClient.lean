import Axp.HandlerRuns

/-!
# The client's calls

`rpc::call` posts an envelope and takes the answer apart: the HTTP status, the
JSON, the envelope, and the version, the id and the one of result and error
that it must hold.

Against the server's own handlers none of the checks can fail. A call of an
endpoint returns what the procedure behind it returns, a result as itself and
an error with its code and text (`call_transparent`), and leaves the server in
the state that the procedure leaves.
-/

namespace Axp

/-! ## What the server writes -/

def JsonRpcError.serialize (self : JsonRpcError) : Value :=
  .object ([("code", .ofI64 self.code), ("message", .string self.message)]
    ++ optional "data" self.data)

/-- The envelope, with its body flattened into it. -/
def JsonRpcResponse.serialize (self : JsonRpcResponse) : Value :=
  .object ([("jsonrpc", .string self.jsonrpc), ("id", self.id)] ++
    match self.body with
    | .success result => [("result", result)]
    | .failure error => [("error", error.serialize)])

/-! ## The client -/

namespace Client

/-- `Error`, in the variants a call returns. -/
inductive CallError where
  | http (source : ErrorText)
  | httpStatus (status : Nat)
  | json (source : ErrorText)
  | rpc (code : Int) (message : String) (data : Option Value)
  | invalidRpcResponse (reason : String)

/-- `RpcError`. -/
structure RpcError where
  code : Int
  message : String
  data : Option Value

def RpcError.toError (self : RpcError) : CallError := .rpc self.code self.message self.data

/-- An error, with how a field is read. -/
def RpcError.read
    (field : ∀ {α : Type}, Option α → (Value → Option α) → List Value → Option α)
    (v : Value) : Option RpcError := do
  let f ← v.asStruct 3
  let code ← field none Value.asI64 (f.get "code" 0)
  let message ← field none Value.asString (f.get "message" 1)
  let data ← field (some none) (Value.asOption some) (f.get "data" 2)
  return { code, message, data }

/-- An error in a value in memory. -/
def RpcError.deserialize : Value → Option RpcError := read fieldOf

/-- `RpcRequest`, with the parameters in their written form. -/
def rpcRequest (method : String) (params : Value) : Value :=
  .object [("jsonrpc", .string "2.0"), ("id", .number "1"), ("method", .string method),
    ("params", params)]

/-- `RawResponse`. -/
structure RawResponse where
  jsonrpc : String
  id : Value
  result : Option Value
  error : Option RpcError

def RawResponse.deserialize (v : Value) : Option RawResponse := do
  let f ← v.asStruct 4
  let jsonrpc ← required Value.asString (f.get "jsonrpc" 0)
  let id ← required some (f.get "id" 1)
  let result ← fieldOf (some none) (Value.asOption some) (f.get "result" 2)
  let error ← fieldOf (some none) (Value.asOption RpcError.deserialize) (f.get "error" 3)
  return { jsonrpc, id, result, error }

/-- `RpcResponse`. -/
structure RpcResponse (α : Type) where
  jsonrpc : String
  id : Value
  result : Option α
  error : Option RpcError

/-- What the libraries say: the error texts, and how a value is displayed. -/
structure Texts where
  json : Value → ErrorText
  http : List UInt8 → ErrorText
  display : Value → String

section Decode

variable {α : Type} (texts : Texts) (read : Value → Option α)

def decodeRpcValue (value : Value) : Except CallError (RpcResponse α) := do
  let raw ← okOr (RawResponse.deserialize value) (.json (texts.json value))
  let result ←
    match raw.result with
    | some value => (okOr (read value) (.json (texts.json value))).map some
    | none => .ok none
  return { jsonrpc := raw.jsonrpc, id := raw.id, result, error := raw.error }

/-- `id == json!(1)`. -/
def isOne : Value → Bool
  | .number text => text = "1"
  | _ => false

def decodeRpcResponse (response : RpcResponse α) : Except CallError α :=
  if response.jsonrpc ≠ "2.0" then
    .error (.invalidRpcResponse ("unexpected jsonrpc version " ++ response.jsonrpc))
  else if !isOne response.id then
    .error (.invalidRpcResponse ("unexpected response id " ++ texts.display response.id))
  else
    match response.result, response.error with
    | some result, none => .ok result
    | none, some error => .error error.toError
    | some _, some _ =>
        .error (.invalidRpcResponse "response contained both result and error")
    | none, none =>
        .error (.invalidRpcResponse "response contained neither result nor error")

/-- `call` on a JSON answer. -/
def decodeAnswer (value : Value) : Except CallError α := do
  let rpc ← decodeRpcValue texts read value
  decodeRpcResponse texts rpc

/-- The fields of an answer that holds a result: the version and the id of the
call, a result that is there and reads, and no error. -/
structure Answers (read : Value → Option α) (a : α) (f : Fields) : Prop where
  version : (f.get "jsonrpc" 0).getLast? = some (.string "2.0")
  id : (f.get "id" 1).getLast? = some (.number "1")
  error : (f.get "error" 3).getLast? = none ∨ (f.get "error" 3).getLast? = some .null
  result : ∃ v, (f.get "result" 2).getLast? = some v ∧ v ≠ .null ∧ read v = some a

/-- An HTTP response. -/
structure HttpResponse where
  status : Nat
  body : List UInt8

/-- `call`, from the response on. -/
def receive (document : List UInt8 → Option Value) (response : HttpResponse) :
    Except CallError α :=
  if ¬(200 ≤ response.status ∧ response.status < 300) then
    .error (.httpStatus response.status)
  else do
    let value ← okOr (document response.body) (.http (texts.http response.body))
    decodeAnswer texts read value

end Decode

/-! ## The methods of the client -/

end Client

/-- The name of the method. -/
def Handler.method : Handler → String
  | .sessionOpen => "session.open"
  | .sessionClose => "session.close"
  | .sessionAudit => "session.audit"
  | .index => "axp.index"
  | .describe => "axp.describe"
  | .jobStart => "job.start"
  | .jobStatus => "job.status"
  | .jobCancel => "job.cancel"

theorem Handler.ofMethod_method (h : Handler) : ofMethod h.method = some h := by
  cases h <;> rfl

/-- A method of the client: the formats it uses, and the procedure that the
server's handler runs behind the same formats. -/
structure Endpoint (α β : Type) where
  handler : Handler
  request : Codec Value α
  response : Codec Value β
  run : World → α → AppState → Except TransportError β × AppState
  serves : ∀ w a params, AppState.handlers w handler a params
    = request.serve response (fun v => .invalidParams (w.paramsError handler v)) (run w) params a
  /-- No answer is written as `null`. -/
  isObject : ∀ b, ∃ fields, response.write b = .object fields

namespace Client

def openSession : Endpoint SessionOpenRequest SessionOpenResponse where
  handler := .sessionOpen
  request := .sessionOpenRequest
  response := .sessionOpenResponse
  run := AppState.sessionOpen
  serves _ _ _ := rfl
  isObject _ := ⟨_, rfl⟩

def closeSession : Endpoint SessionCloseRequest SessionCloseResponse where
  handler := .sessionClose
  request := .sessionRequest
  response := .sessionCloseResponse
  run := AppState.sessionClose
  serves _ _ _ := rfl
  isObject _ := ⟨_, rfl⟩

def sessionAudit : Endpoint SessionAuditRequest SessionAuditResponse where
  handler := .sessionAudit
  request := .sessionRequest
  response := .sessionAuditResponse
  run _ := AppState.sessionAudit
  serves _ _ _ := rfl
  isObject _ := ⟨_, rfl⟩

def index : Endpoint IndexRequest IndexResponse where
  handler := .index
  request := .sessionRequest
  response := .indexResponse
  run _ := AppState.index
  serves _ _ _ := rfl
  isObject _ := ⟨_, rfl⟩

def describe : Endpoint DescribeRequest CapabilityDetail where
  handler := .describe
  request := .describeRequest
  response := .capabilityDetail
  run _ := AppState.describe
  serves _ _ _ := rfl
  isObject _ := ⟨_, rfl⟩

def startJob : Endpoint JobStartRequest JobStartResponse where
  handler := .jobStart
  request := .jobStartRequest
  response := .jobStartResponse
  run := AppState.jobStart
  serves _ _ _ := rfl
  isObject _ := ⟨_, rfl⟩

def jobStatus : Endpoint JobStatusRequest JobStatusResponse where
  handler := .jobStatus
  request := .jobStatusRequest
  response := .jobStatusResponse
  run _ := AppState.jobStatus
  serves _ _ _ := rfl
  isObject _ := ⟨_, rfl⟩

def cancelJob : Endpoint JobCancelRequest JobCancelResponse where
  handler := .jobCancel
  request := .jobCancelRequest
  response := .jobCancelResponse
  run _ := AppState.jobCancel
  serves _ _ _ := rfl
  isObject _ := ⟨_, rfl⟩

/-! ## Calls -/

/-- The envelope is read as the request it is. -/
theorem deserialize_rpcRequest (method : String) (params : Value) :
    JsonRpcRequest.deserialize (rpcRequest method params)
      = some ⟨"2.0", some (.number "1"), method, params⟩ := by
  rw [rpcRequest, JsonRpcRequest.deserialize, JsonRpcRequest.ofMembers_eq_some]
  simp [Value.nonNull]

/-- An error code is an `i64`. -/
theorem code_bounds (te : TransportError) : -2 ^ 63 ≤ te.code ∧ te.code < 2 ^ 63 := by
  cases te with
  | runtime e => cases e <;> simp only [TransportError.code] <;> decide
  | _ => simp only [TransportError.code]; decide

theorem deserialize_jsonRpcError (te : TransportError) (display : Error → String) :
    RpcError.deserialize (te.toJsonrpcError display).serialize
      = some ⟨te.code, te.display display, none⟩ := by
  obtain ⟨hlo, hhi⟩ := code_bounds te
  simp [RpcError.deserialize, RpcError.read, JsonRpcError.serialize,
    TransportError.toJsonrpcError, asI64_ofI64 hlo hhi]

theorem isOne_iff {v : Value} : isOne v = true ↔ v = .number "1" := by
  cases v <;> simp [isOne]

section Receive

variable {α : Type} {texts : Texts} {read : Value → Option α}

theorem decodeRpcValue_result {v result id : Value} {jsonrpc : String} {error : Option RpcError}
    {a : α} (hraw : RawResponse.deserialize v = some ⟨jsonrpc, id, some result, error⟩)
    (hread : read result = some a) :
    decodeRpcValue texts read v = .ok ⟨jsonrpc, id, some a, error⟩ := by
  unfold decodeRpcValue
  rw [hraw]
  show ((okOr (read result) (CallError.json (texts.json result))).map some).bind _ = _
  rw [hread]
  rfl

theorem decodeRpcValue_none {v id : Value} {jsonrpc : String} {error : Option RpcError}
    (hraw : RawResponse.deserialize v = some ⟨jsonrpc, id, none, error⟩) :
    decodeRpcValue texts read v = .ok ⟨jsonrpc, id, none, error⟩ := by
  unfold decodeRpcValue
  rw [hraw]
  rfl

/-- A result that reads is returned. -/
theorem decodeAnswer_success {result : Value} {a : α} (hread : read result = some a)
    (hnull : result ≠ .null) :
    decodeAnswer texts read (JsonRpcResponse.success (.number "1") result).serialize = .ok a := by
  have hraw : RawResponse.deserialize (JsonRpcResponse.success (.number "1") result).serialize
      = some ⟨"2.0", .number "1", some result, none⟩ := by
    have hoption : result.asOption some = some (some result) := by
      cases result <;> first | rfl | exact absurd rfl hnull
    simp [RawResponse.deserialize, JsonRpcResponse.serialize, JsonRpcResponse.success, hoption]
  rw [decodeAnswer, decodeRpcValue_result hraw hread]
  rfl

/-- An error is returned with its code and text. -/
theorem decodeAnswer_error (te : TransportError) (display : Error → String) :
    decodeAnswer texts read
      (JsonRpcResponse.error (.number "1") (te.toJsonrpcError display)).serialize
        = .error (.rpc te.code (te.display display) none) := by
  have herror : (te.toJsonrpcError display).serialize.asOption RpcError.deserialize
      = some (some ⟨te.code, te.display display, none⟩) := by
    show (RpcError.deserialize (te.toJsonrpcError display).serialize).map some = _
    rw [deserialize_jsonRpcError]
    rfl
  have hraw : RawResponse.deserialize
      (JsonRpcResponse.error (.number "1") (te.toJsonrpcError display)).serialize
        = some ⟨"2.0", .number "1", none, some ⟨te.code, te.display display, none⟩⟩ := by
    simp [RawResponse.deserialize, JsonRpcResponse.serialize, JsonRpcResponse.error, herror]
  rw [decodeAnswer, decodeRpcValue_none hraw]
  rfl

theorem decodeRpcResponse_eq_ok {response : RpcResponse α} {a : α} :
    decodeRpcResponse texts response = .ok a ↔
      response = ⟨"2.0", .number "1", some a, none⟩ := by
  obtain ⟨jsonrpc, id, result, error⟩ := response
  unfold decodeRpcResponse
  by_cases hversion : jsonrpc = "2.0"
  · rw [if_neg (not_not_intro hversion)]
    by_cases hid : isOne id = true
    · rw [if_neg (by simp [hid])]
      rw [isOne_iff] at hid
      cases result <;> cases error <;> simp [hversion, hid]
    · rw [if_pos (by simpa using hid)]
      rw [isOne_iff] at hid
      simp [hid]
  · rw [if_pos hversion]
    simp [hversion]

theorem decodeRpcValue_eq_ok {v id : Value} {jsonrpc : String} {error : Option RpcError} {a : α} :
    decodeRpcValue texts read v = .ok ⟨jsonrpc, id, some a, error⟩ ↔
      ∃ result, RawResponse.deserialize v = some ⟨jsonrpc, id, some result, error⟩
        ∧ read result = some a := by
  constructor
  · intro h
    obtain ⟨⟨jsonrpc', id', result, error'⟩, hraw, h⟩ := bind_eq_ok.mp h
    rw [okOr_eq_ok] at hraw
    cases result with
    | none =>
        obtain ⟨_, hnone, h⟩ := bind_eq_ok.mp h
        obtain rfl := Except.ok.inj hnone
        cases h
    | some result =>
        obtain ⟨o, hread, h⟩ := bind_eq_ok.mp h
        cases hresult : read result with
        | none =>
            rw [hresult] at hread
            cases hread
        | some a' =>
            rw [hresult] at hread
            obtain rfl := Except.ok.inj hread
            obtain ⟨rfl, rfl, hsome, rfl⟩ := RpcResponse.mk.inj (Except.ok.inj h)
            obtain rfl := Option.some.inj hsome
            exact ⟨result, hraw, hresult⟩
  · rintro ⟨result, hraw, hread⟩
    exact decodeRpcValue_result hraw hread

theorem decodeAnswer_eq_ok {v : Value} {a : α} : decodeAnswer texts read v = .ok a ↔
    ∃ f, v.asStruct 4 = some f ∧ Answers read a f := by
  have hdecode : decodeAnswer texts read v = .ok a ↔
      ∃ result, RawResponse.deserialize v = some ⟨"2.0", .number "1", some result, none⟩
        ∧ read result = some a := by
    rw [← @decodeRpcValue_eq_ok _ texts read, decodeAnswer, bind_eq_ok]
    simp only [decodeRpcResponse_eq_ok, exists_eq_right]
  have hraw : ∀ result, RawResponse.deserialize v
        = some ⟨"2.0", .number "1", some result, none⟩ ↔
      ∃ f, v.asStruct 4 = some f ∧ (f.get "jsonrpc" 0).getLast? = some (.string "2.0")
        ∧ (f.get "id" 1).getLast? = some (.number "1")
        ∧ (∃ w, (f.get "result" 2).getLast? = some w ∧ w ≠ .null ∧ w = result)
        ∧ ((f.get "error" 3).getLast? = none ∨ (f.get "error" 3).getLast? = some .null) := by
    intro result
    simp [RawResponse.deserialize, Option.bind_eq_some_iff, required_eq_some, asString_eq_some,
      fieldOf_eq_some, asOption_eq_some, asOption_eq_none]
  rw [hdecode]
  constructor
  · rintro ⟨result, hraw', hread⟩
    obtain ⟨f, hf, hversion, hid, ⟨_, hresult, hnull, rfl⟩, herror⟩ := (hraw result).mp hraw'
    exact ⟨f, hf, hversion, hid, herror, _, hresult, hnull, hread⟩
  · rintro ⟨f, hf, hversion, hid, herror, result, hresult, hnull, hread⟩
    exact ⟨result, (hraw result).mpr ⟨f, hf, hversion, hid, ⟨_, hresult, hnull, rfl⟩, herror⟩,
      hread⟩

/-- A call returns a result exactly for an HTTP success whose body spells an
answer that holds it. -/
theorem receive_eq_ok {document : List UInt8 → Option Value} {response : HttpResponse} {a : α} :
    receive texts read document response = .ok a ↔
      (200 ≤ response.status ∧ response.status < 300)
        ∧ ∃ v f, document response.body = some v ∧ v.asStruct 4 = some f ∧ Answers read a f := by
  unfold receive
  by_cases hstatus : 200 ≤ response.status ∧ response.status < 300
  · rw [if_neg (not_not_intro hstatus), bind_eq_ok]
    simp only [okOr_eq_ok, decodeAnswer_eq_ok, hstatus, and_self, true_and, exists_and_left]
  · rw [if_pos hstatus]
    simp [hstatus]

theorem receive_ok {document : List UInt8 → Option Value} {text : List UInt8} {v : Value}
    (h : document text = some v) :
    receive texts read document ⟨200, text⟩ = decodeAnswer texts read v := by
  rw [receive, if_neg (by simp), h]
  rfl

end Receive

/-- Calling a method of the server is running its procedure. Whatever the
state and the request, if the posted text spells the envelope of the request
and the text that comes back spells the server's answer, the call returns what
the procedure returns, a result as itself and an error with its code and text,
and the server is left in the state that the procedure leaves. -/
theorem call_transparent {α β : Type} (e : Endpoint α β) (w : World) (a : AppState) (req : α)
    (reader : BodyReader) (display : Error → String) (document : List UInt8 → Option Value)
    (texts : Texts) {body text : List UInt8} (hreq : e.request.Fits req)
    (hresp : ∀ resp, (e.run w req a).1 = .ok resp → e.response.Fits resp)
    (hbody : reader.document body
      = some (rpcRequest e.handler.method (e.request.write req)))
    (htext : document text
      = some (rpcHandler reader display (AppState.handlers w) a body).response.serialize) :
    receive texts e.response.read document ⟨200, text⟩
        = (e.run w req a).1.mapError (fun te => .rpc te.code (te.display display) none)
      ∧ (rpcHandler reader display (AppState.handlers w) a body).state = (e.run w req a).2 := by
  have hread := deserialize_rpcRequest e.handler.method (e.request.write req)
  have hrun : AppState.handlers w e.handler a (e.request.write req)
      = ((e.run w req a).1.map e.response.write, (e.run w req a).2) :=
    (e.serves w a _).trans (e.request.serve_write e.response _ (e.run w) hreq a)
  rw [rpcHandler_read display (AppState.handlers w) a hbody hread] at htext ⊢
  unfold dispatch at htext ⊢
  simp only [Handler.ofMethod_method, hrun] at htext ⊢
  cases hanswer : (e.run w req a).1 with
  | ok resp =>
      simp only [hanswer, Except.map] at htext ⊢
      obtain ⟨fields, hobject⟩ := e.isObject resp
      have hnull : e.response.write resp ≠ .null := by
        rw [hobject]
        exact nofun
      refine ⟨?_, trivial⟩
      rw [receive_ok htext]
      exact decodeAnswer_success (e.response.read_write resp (hresp resp hanswer)) hnull
  | error te =>
      simp only [hanswer, Except.map] at htext ⊢
      refine ⟨?_, trivial⟩
      rw [receive_ok htext]
      exact decodeAnswer_error te display

/-! ### Closing a session -/

def closeText : List UInt8 :=
  utf8 ("\x7b\"jsonrpc\":\"2.0\",\"id\":1,\"method\":\"session.close\",\"params\":\x7b"
    ++ "\"session_id\":\"s_1\",\"cap_token\":\"ct_1\"\x7d\x7d")

def refusedText : List UInt8 :=
  utf8 ("\x7b\"jsonrpc\":\"2.0\",\"id\":1,\"error\":\x7b"
    ++ "\"code\":-32004,\"message\":\"unauthorized\"\x7d\x7d")

def closedText : List UInt8 :=
  utf8 "\x7b\"jsonrpc\":\"2.0\",\"id\":1,\"result\":\x7b\"ok\":true\x7d\x7d"

/-- `serde_json` where these texts are concerned. -/
def closeReader : BodyReader where
  document body :=
    if body = closeText then
      some (rpcRequest "session.close"
        (.object [("session_id", .string "s_1"), ("cap_token", .string "ct_1")]))
    else if body = refusedText then
      some (.object [("jsonrpc", .string "2.0"), ("id", .number "1"),
        ("error", .object [("code", .number "-32004"), ("message", .string "unauthorized")])])
    else if body = closedText then
      some (.object [("jsonrpc", .string "2.0"), ("id", .number "1"),
        ("result", .object [("ok", .bool true)])])
    else none
  errorText _ := "expected value at line 1 column 1"

/-- A session that is not there cannot be closed, and one that is there can. -/
theorem call_transparent_close :
    let texts : Texts := ⟨fun _ => "invalid type", fun _ => "error decoding response body",
      fun _ => "1"⟩
    receive texts closeSession.response.read closeReader.document ⟨200, refusedText⟩
        = .error (.rpc (-32004) "unauthorized" none)
      ∧ receive texts closeSession.response.read closeReader.document ⟨200, closedText⟩
        = .ok ⟨true⟩ := by
  let req : SessionCloseRequest := ⟨⟨"s_1"⟩, "ct_1"⟩
  let w := plainWorld none
  let live : AppState := ⟨engineWith .devNone [], 2⟩
  have hbody : closeReader.document closeText
      = some (rpcRequest closeSession.handler.method (closeSession.request.write req)) := by
    simp only [closeReader, if_true]
    rfl
  have hrefused : refusedText ≠ closeText := by decide +kernel
  have hclosed : closedText ≠ closeText ∧ closedText ≠ refusedText := by decide +kernel
  constructor
  · have hanswer : (rpcHandler closeReader (fun _ => "") (AppState.handlers w)
        Server.launched.state closeText).response
          = .error (.number "1") (TransportError.unauthorized.toJsonrpcError fun _ => "") := by
      rw [rpcHandler_read _ _ _ hbody (deserialize_rpcRequest _ _)]
      rfl
    have htext : closeReader.document refusedText = some (rpcHandler closeReader (fun _ => "")
        (AppState.handlers w) Server.launched.state closeText).response.serialize := by
      have hcode : toString (-32004 : Int) = "-32004" := by decide +kernel
      rw [hanswer]
      simp only [closeReader, hrefused, if_false, if_true, ← hcode]
      rfl
    exact (call_transparent closeSession w Server.launched.state req closeReader (fun _ => "")
      closeReader.document _ trivial (fun _ _ => trivial) hbody htext).1
  · have hanswer : (rpcHandler closeReader (fun _ => "") (AppState.handlers w) live
        closeText).response = .success (.number "1") (SessionCloseResponse.serialize ⟨true⟩) := by
      rw [rpcHandler_read _ _ _ hbody (deserialize_rpcRequest _ _)]
      rfl
    have htext : closeReader.document closedText = some (rpcHandler closeReader (fun _ => "")
        (AppState.handlers w) live closeText).response.serialize := by
      rw [hanswer]
      simp only [closeReader, hclosed.1, hclosed.2, if_false, if_true]
      rfl
    exact (call_transparent closeSession w live req closeReader (fun _ => "")
      closeReader.document _ trivial (fun _ _ => trivial) hbody htext).1

end Client

end Axp
