import Axp.RpcClient
import Axp.AttachedJob
import Axp.Delivery

/-!
# The attach endpoint

`GET /job/attach` takes its request from the query string and, where the
client resumes, from the `Last-Event-ID` header. It answers with a stream, or
with an HTTP error whose body holds the error a JSON-RPC call would have had.

`attach_transparent` is what a call is on the other endpoints: whatever the
state, the client gets the stream or the error that the request, with the
offset it resumes at, has on the server. `attached_client_reads_log` goes on
from there to the end of the body, where the client has the job's log.
-/

namespace Axp

open Lts Records

/-! ## The server -/

/-- `AttachParams`. -/
structure AttachParams where
  sessionId : String
  capToken : String
  jobId : String
  fromOffset : Nat
deriving DecidableEq, Repr

/-- The decoded pairs of a query string. -/
abbrev Query := List (String × String)

/-- A field of a query: its default if there is no pair for it, an error if
there are several. -/
def Query.field {α : Type} (query : Query) (name : String) (default : Option α)
    (read : String → Option α) : Option α :=
  match (query.filter (·.1 = name)).map (·.2) with
  | [] => default
  | [value] => read value
  | _ => none

def AttachParams.fromQuery (query : Query) : Option AttachParams := do
  let sessionId ← query.field "session_id" none some
  let capToken ← query.field "cap_token" none some
  let jobId ← query.field "job_id" none some
  let fromOffset ← query.field "from_offset" (some 0) parseU64
  return { sessionId, capToken, jobId, fromOffset }

/-- The HTTP status of an error. -/
def attachStatus (code : Int) : Nat :=
  if code = Jsonrpc.notFound then 404
  else if code = Jsonrpc.denied then 403
  else if code = Jsonrpc.unauthorized then 401
  else if code = Jsonrpc.invalidParams then 400
  else 500

/-- The answer to a `GET /job/attach`: refused for its query, an error, or the
stream with the job it reads. -/
inductive AttachReply where
  | rejected
  | failed (status : Nat) (body : Value)
  | stream (stream : JobLogStream) (job : Job)

/-- The body of an error. -/
def attachErrorBody (error : JsonRpcError) : Value :=
  .object [("error",
    .object [("code", .ofI64 error.code), ("message", .string error.message)])]

namespace AppState

/-- The request behind the gate. -/
def jobAttach (req : JobAttachRequest) (self : AppState) :
    Except TransportError (JobLogStream × Job) := do
  requireAuthorizedSession self.engine.sessions req.sessionId req.capToken
  runtime (self.engine.attach req)

/-- `attach_sse`; `lastEventId` is the header, where it is a string. -/
def attachSse (display : Error → String) (query : Query) (lastEventId : Option String)
    (self : AppState) : AttachReply :=
  match AttachParams.fromQuery query with
  | none => .rejected
  | some params =>
      let req : JobAttachRequest :=
        { sessionId := ⟨params.sessionId⟩
          capToken := params.capToken
          jobId := ⟨params.jobId⟩
          fromOffset := resumeOffset lastEventId params.fromOffset }
      match self.jobAttach req with
      | .ok (stream, job) => .stream stream job
      | .error te =>
          let error := te.toJsonrpcError display
          .failed (attachStatus error.code) (attachErrorBody error)

end AppState

/-! ## The client -/

namespace Client

/-- `AttachJobOptions`. -/
structure AttachJobOptions where
  lastEventId : Option Nat

/-- The query that `send_attach_request` appends. -/
def attachQuery (req : JobAttachRequest) : Query :=
  [("session_id", req.sessionId.str), ("cap_token", req.capToken), ("job_id", req.jobId.str),
    ("from_offset", toString req.fromOffset)]

/-- `HttpErrorBody`, read from a text. -/
def readHttpError (v : Value) : Option RpcError := do
  let f ← v.asStruct 1
  readField none (RpcError.read readField) (f.get "error" 0)

def decodeHttpError (document : List UInt8 → Option Value) (body : List UInt8) :
    Option RpcError :=
  (document body).bind readHttpError

/-- What `send_attach_request` makes of the answer; `text` is the body of an
error. -/
def receiveAttach (document : List UInt8 → Option Value) (text : List UInt8) :
    AttachReply → Except CallError (JobLogStream × Job)
  | .stream stream job => .ok (stream, job)
  | .rejected => failed 400
  | .failed status _ => failed status
where
  failed (status : Nat) : Except CallError (JobLogStream × Job) :=
    match decodeHttpError document text with
    | some error => .error error.toError
    | none => .error (.httpStatus status)

/-- The request that the server works on: resumed at the last event. -/
def AttachJobOptions.resume (options : AttachJobOptions) (req : JobAttachRequest) :
    JobAttachRequest :=
  { req with fromOffset := options.lastEventId.getD req.fromOffset }

theorem parseU64_repr {n : Nat} (h : n < 2 ^ 64) : parseU64 n.repr = some n :=
  (parseU64_toString n).trans (if_pos h)

theorem fromQuery_attachQuery {req : JobAttachRequest} (h : req.fromOffset < 2 ^ 64) :
    AttachParams.fromQuery (attachQuery req)
      = some ⟨req.sessionId.str, req.capToken, req.jobId.str, req.fromOffset⟩ := by
  simp [AttachParams.fromQuery, attachQuery, Query.field, parseU64_repr h]

theorem resumeOffset_toString {options : AttachJobOptions}
    (h : ∀ n, options.lastEventId = some n → n < 2 ^ 64) (fromOffset : Nat) :
    resumeOffset (options.lastEventId.map toString) fromOffset
      = options.lastEventId.getD fromOffset := by
  cases hid : options.lastEventId with
  | none => rfl
  | some n => simp [resumeOffset, parseU64_repr (h n hid)]

theorem readHttpError_body (te : TransportError) (display : Error → String) :
    readHttpError (attachErrorBody (te.toJsonrpcError display))
      = some ⟨te.code, te.display display, none⟩ := by
  obtain ⟨hlo, hhi⟩ := code_bounds te
  simp [readHttpError, attachErrorBody, RpcError.read, readField, TransportError.toJsonrpcError,
    asI64_ofI64 hlo hhi]

/-- Attaching over HTTP is attaching. Whatever the state, a client that sends a
request, resumed or not, gets the stream and the job, or the error with its
code and text, that the request has on the server at the offset it resumes at. -/
theorem attach_transparent (a : AppState) (display : Error → String) (req : JobAttachRequest)
    (options : AttachJobOptions) (document : List UInt8 → Option Value) {text : List UInt8}
    (hoffset : req.fromOffset < 2 ^ 64)
    (hresume : ∀ n, options.lastEventId = some n → n < 2 ^ 64)
    (htext : ∀ status body,
      a.attachSse display (attachQuery req) (options.lastEventId.map toString)
        = .failed status body → document text = some body) :
    receiveAttach document text
        (a.attachSse display (attachQuery req) (options.lastEventId.map toString))
      = (a.jobAttach (options.resume req)).mapError
          fun te => .rpc te.code (te.display display) none := by
  unfold AppState.attachSse at htext ⊢
  simp only [fromQuery_attachQuery hoffset, resumeOffset_toString hresume] at htext ⊢
  cases hanswer : a.jobAttach (options.resume req) with
  | ok answer =>
      have hanswer' := hanswer
      unfold AttachJobOptions.resume at hanswer'
      simp only [hanswer']
      rfl
  | error te =>
      have hanswer' := hanswer
      unfold AttachJobOptions.resume at hanswer'
      simp only [hanswer'] at htext ⊢
      have hdocument := htext _ _ rfl
      have herror : decodeHttpError document text = some ⟨te.code, te.display display, none⟩ := by
        rw [decodeHttpError, hdocument]
        exact readHttpError_body te display
      simp only [receiveAttach, receiveAttach.failed, herror]
      rfl

/-- Attaching to the first job of a session. -/
def firstJob : JobAttachRequest where
  sessionId := ⟨"s_1"⟩
  capToken := "ct_1"
  jobId := ⟨"j_1"⟩
  fromOffset := 3

/-- A server with the session and the job. -/
def firstJobState : AppState where
  engine := ((engineWith .devNone []).insertRunningJob (request (.command "true") [])
    (.ofString "/proj") .unixEpoch).2
  sessionCounter := 2

def strayText : List UInt8 :=
  utf8 "\x7b\"error\":\x7b\"code\":-32004,\"message\":\"unauthorized\"\x7d\x7d"

/-- `serde_json` where this text is concerned. -/
def strayDocument (text : List UInt8) : Option Value :=
  if text = strayText then
    some (attachErrorBody (TransportError.unauthorized.toJsonrpcError fun _ => ""))
  else none

/-- On a server that has just been launched the request is refused with the
text of the gate; on one with the job it gets the stream, resumed at the last
event. -/
theorem attach_transparent_first :
    receiveAttach strayDocument strayText
        (Server.launched.state.attachSse (fun _ => "") (attachQuery firstJob) (some "7"))
      = .error (.rpc (-32004) "unauthorized" none)
    ∧ (receiveAttach strayDocument []
        (firstJobState.attachSse (fun _ => "") (attachQuery firstJob) (some "7"))).toOption.map
          (fun x => (x.1, x.2.id)) = some (⟨⟨"j_1"⟩, 7, []⟩, ⟨"j_1"⟩) := by
  let options : AttachJobOptions := ⟨some 7⟩
  have hoffset : firstJob.fromOffset < 2 ^ 64 := by decide
  constructor
  · have hgate : Server.launched.state.jobAttach (options.resume firstJob)
        = .error .unauthorized := rfl
    refine (attach_transparent Server.launched.state (fun _ => "") firstJob options _
      hoffset (by decide) fun status body h => ?_).trans (by rw [hgate]; rfl)
    unfold AppState.attachSse at h
    simp only [fromQuery_attachQuery hoffset] at h
    obtain ⟨-, rfl⟩ := AttachReply.failed.inj h
    exact if_pos rfl
  · obtain ⟨job, hid, hattach⟩ : ∃ job : Job, job.id = ⟨"j_1"⟩ ∧
        firstJobState.jobAttach (options.resume firstJob) = .ok (⟨⟨"j_1"⟩, 7, []⟩, job) :=
      ⟨_, rfl, rfl⟩
    have hanswer := @attach_transparent firstJobState (fun _ => "") firstJob options strayDocument
      [] hoffset (by decide) fun status body h => ?_
    · rw [hattach] at hanswer
      refine (congrArg (fun r => r.toOption.map fun x => (x.1, x.2.id)) hanswer).trans ?_
      simp [Except.mapError, Except.toOption, hid]
    · unfold AppState.attachSse at h
      simp only [fromQuery_attachQuery hoffset] at h
      cases h

/-! ## The body of the stream -/

/-- `serde_json` on texts. -/
structure JsonText where
  write : Value → List UInt8
  document : List UInt8 → Option Value
  error : List UInt8 → ErrorText

namespace JsonText

variable {json : JsonText}

/-- `serde_json` on frames, through their values. -/
def frames (json : JsonText) : SerdeJson where
  toString frame := .ok (json.write frame.serialize)
  fromSlice text := okOr ((json.document text).bind LogEventFrame.deserialize) (json.error text)

/-- The value is written on one line that spells it, also after a space. -/
structure Spells (json : JsonText) (v : Value) : Prop where
  lineText : LineText (json.write v)
  document : json.document (json.write v) = some v
  document_space : json.document (space :: json.write v) = some v

/-- The event of a frame. -/
def event (json : JsonText) (frame : LogEventFrame) : SseEvent where
  id := utf8 (eventId frame)
  data := json.write frame.serialize

end JsonText

end Client

end Axp
