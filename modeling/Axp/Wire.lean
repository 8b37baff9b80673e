import Axp.Discovery
import Axp.Serde

/-!
# The formats of the wire types

Every type of `axp-proto` that a request or a response is made of, with what
is derived for it. Three of them are not plain structs: the payload of a job
is flattened into its request, the kind of an audit event into the event, and
both are tagged, as is a job's status.

A request is written as a text, in the order of its fields. A response is made
a value in memory first, where the members of an object are in the order of
their names.

A machine integer is a number here, so a value is written faithfully if its
numbers are in range (`Fits`).
-/

namespace Axp

/-! ## Identifiers, grants and tiers -/

def SessionId.serialize (self : SessionId) : Value := .string self.str

def SessionId.deserialize (v : Value) : Option SessionId := v.asString.map .mk

def JobId.serialize (self : JobId) : Value := .string self.str

def JobId.deserialize (v : Value) : Option JobId := v.asString.map .mk

/-- `Capability`. -/
def WireCapability.serialize (self : WireCapability) : Value := .string self.str

def WireCapability.deserialize (v : Value) : Option WireCapability := v.asString.map .mk

def EnforcementTier.serialize : EnforcementTier → Value
  | .kernelLsm => .string "kernel-lsm"
  | .container => .string "container"
  | .processToken => .string "process-token"
  | .devNone => .string "dev-none"

def EnforcementTier.deserialize (v : Value) : Option EnforcementTier := do
  match ← v.asVariant with
  | "kernel-lsm" => some .kernelLsm
  | "container" => some .container
  | "process-token" => some .processToken
  | "dev-none" => some .devNone
  | _ => none

@[simp] theorem SessionId.deserialize_serialize (id : SessionId) :
    deserialize id.serialize = some id := rfl

@[simp] theorem JobId.deserialize_serialize (id : JobId) :
    deserialize id.serialize = some id := rfl

@[simp] theorem WireCapability.deserialize_serialize (cap : WireCapability) :
    deserialize cap.serialize = some cap := rfl

@[simp] theorem EnforcementTier.deserialize_serialize (tier : EnforcementTier) :
    deserialize tier.serialize = some tier := by
  cases tier <;> rfl

/-- `Vec<Capability>`. -/
def capabilitiesCodec : Codec Value (List WireCapability) :=
  Codec.array.list (.total WireCapability.deserialize_serialize)

theorem capabilities_fit (caps : List WireCapability) : capabilitiesCodec.Fits caps :=
  ⟨trivial, fun _ _ => trivial⟩

/-- A list that is left out when it is empty. -/
def skipEmpty (name : String) (caps : List WireCapability) : List (String × Value) :=
  if caps.isEmpty then [] else [(name, capabilitiesCodec.write caps)]

/-- A list that was left out when empty reads as it was. -/
theorem fieldOf_skipEmpty (name : String) (caps : List WireCapability) :
    fieldOf (some []) capabilitiesCodec.read ((Value.object (skipEmpty name caps)).members name)
      = some caps := by
  unfold skipEmpty
  cases caps with
  | nil => rfl
  | cons cap caps =>
      rw [List.isEmpty_cons, if_neg Bool.false_ne_true, Value.members_cons, if_pos rfl,
        Value.members_nil, fieldOf_singleton]
      exact capabilitiesCodec.read_write _ (capabilities_fit _)

theorem members_skipEmpty {name name' : String} (h : name ≠ name') (caps : List WireCapability) :
    (Value.object (skipEmpty name caps)).members name' = [] := by
  unfold skipEmpty
  split
  · rfl
  · rw [Value.members_cons, if_neg h, Value.members_nil]

/-! ## Sessions -/

/-- The request of an endpoint that needs no more than the credentials of a
session. -/
structure SessionRequest where
  sessionId : SessionId
  capToken : String
deriving DecidableEq, Repr

abbrev SessionCloseRequest := SessionRequest

abbrev SessionAuditRequest := SessionRequest

abbrev IndexRequest := SessionRequest

/-- The `session.open` response. -/
structure SessionOpenResponse where
  sessionId : SessionId
  grantedTier : EnforcementTier
  capToken : String
deriving DecidableEq, Repr

structure SessionCloseResponse where
  ok : Bool
deriving DecidableEq, Repr

/-- The `axp.describe` request. -/
structure DescribeRequest where
  sessionId : SessionId
  capToken : String
  name : String
deriving DecidableEq, Repr

def SessionOpenRequest.serialize (self : SessionOpenRequest) : Value :=
  .object ([("workspace", .string self.workspace), ("sandbox_tier", self.sandboxTier.serialize)]
    ++ skipEmpty "capabilities" self.capabilities)

def SessionOpenRequest.deserialize (v : Value) : Option SessionOpenRequest := do
  let f ← v.asStruct 3
  let workspace ← required Value.asString (f.get "workspace" 0)
  let sandboxTier ← required EnforcementTier.deserialize (f.get "sandbox_tier" 1)
  let capabilities ← fieldOf (some []) capabilitiesCodec.read (f.get "capabilities" 2)
  return { workspace, sandboxTier, capabilities }

def SessionRequest.serialize (self : SessionRequest) : Value :=
  .object [("session_id", self.sessionId.serialize), ("cap_token", .string self.capToken)]

def SessionRequest.deserialize (v : Value) : Option SessionRequest := do
  let f ← v.asStruct 2
  let sessionId ← required SessionId.deserialize (f.get "session_id" 0)
  let capToken ← required Value.asString (f.get "cap_token" 1)
  return { sessionId, capToken }

def SessionOpenResponse.serialize (self : SessionOpenResponse) : Value :=
  .object [("cap_token", .string self.capToken), ("granted_tier", self.grantedTier.serialize),
    ("session_id", self.sessionId.serialize)]

def SessionOpenResponse.deserialize (v : Value) : Option SessionOpenResponse := do
  let f ← v.asStruct 3
  let sessionId ← required SessionId.deserialize (f.get "session_id" 0)
  let grantedTier ← required EnforcementTier.deserialize (f.get "granted_tier" 1)
  let capToken ← required Value.asString (f.get "cap_token" 2)
  return { sessionId, grantedTier, capToken }

def SessionCloseResponse.serialize (self : SessionCloseResponse) : Value :=
  .object [("ok", .bool self.ok)]

def SessionCloseResponse.deserialize (v : Value) : Option SessionCloseResponse := do
  let f ← v.asStruct 1
  let ok ← required Value.asBool (f.get "ok" 0)
  return { ok }

def DescribeRequest.serialize (self : DescribeRequest) : Value :=
  .object [("session_id", self.sessionId.serialize), ("cap_token", .string self.capToken),
    ("name", .string self.name)]

def DescribeRequest.deserialize (v : Value) : Option DescribeRequest := do
  let f ← v.asStruct 3
  let sessionId ← required SessionId.deserialize (f.get "session_id" 0)
  let capToken ← required Value.asString (f.get "cap_token" 1)
  let name ← required Value.asString (f.get "name" 2)
  return { sessionId, capToken, name }

/-! ## Discovery -/

def IndexEntry.serialize (self : IndexEntry) : Value :=
  .object [("desc", .string self.desc), ("name", .string self.name)]

def IndexEntry.deserialize (v : Value) : Option IndexEntry := do
  let f ← v.asStruct 2
  let name ← required Value.asString (f.get "name" 0)
  let desc ← required Value.asString (f.get "desc" 1)
  return { name, desc }

def CapabilityDetail.serialize (self : CapabilityDetail) : Value :=
  .object [("schema", self.schema), ("signature", .string self.signature)]

def CapabilityDetail.deserialize (v : Value) : Option CapabilityDetail := do
  let f ← v.asStruct 2
  let signature ← required Value.asString (f.get "signature" 0)
  let schema ← required some (f.get "schema" 1)
  return { signature, schema }

/-! ## Jobs -/

/-- The `job.start` response. -/
structure JobStartResponse where
  jobId : JobId
deriving DecidableEq, Repr

/-- The members that a payload puts into the object it is flattened into. -/
def JobPayload.members : JobPayload → List (String × Value)
  | .command text => [("kind", .string "command"), ("command", .string text)]
  | .code text lang =>
      [("kind", .string "code"), ("code", .string text)] ++ optional "lang" (lang.map .string)
  | .capability name params =>
      [("kind", .string "capability"), ("name", .string name), ("params", params)]

/-- A payload, from the members of the object it is flattened into. -/
def JobPayload.deserialize (v : Value) : Option JobPayload := do
  let (variant, f) ← v.asTagged "kind" (Value.asIdentifier ["command", "code", "capability"])
  match variant with
  | "command" => do
      let f ← f.atMost 1
      let text ← required Value.asString (f.get "command" 0)
      return .command text
  | "code" => do
      let f ← f.atMost 2
      let text ← required Value.asString (f.get "code" 0)
      let lang ← fieldOf (some none) (Value.asOption Value.asString) (f.get "lang" 1)
      return .code text lang
  | "capability" => do
      let f ← f.atMost 2
      let name ← required Value.asString (f.get "name" 0)
      let params ← required some (f.get "params" 1)
      return .capability name params
  | _ => none

def JobStartRequest.serialize (self : JobStartRequest) : Value :=
  .object ([("session_id", self.sessionId.serialize), ("cap_token", .string self.capToken)]
    ++ self.payload.members ++ optional "cwd" (self.cwd.map .string)
    ++ skipEmpty "capabilities" self.capabilities)

/-- A struct with a flattened field is read from an object only. -/
def JobStartRequest.deserialize : Value → Option JobStartRequest
  | .object fields => do
      let f := Fields.byName fields
      let sessionId ← required SessionId.deserialize (f.get "session_id" 0)
      let capToken ← required Value.asString (f.get "cap_token" 1)
      let payload ← JobPayload.deserialize (.object fields)
      let cwd ← fieldOf (some none) (Value.asOption Value.asString) (f.get "cwd" 2)
      let capabilities ← fieldOf (some []) capabilitiesCodec.read (f.get "capabilities" 3)
      return { sessionId, capToken, payload, cwd, capabilities }
  | _ => none

def JobStartResponse.serialize (self : JobStartResponse) : Value :=
  .object [("job_id", self.jobId.serialize)]

def JobStartResponse.deserialize (v : Value) : Option JobStartResponse := do
  let f ← v.asStruct 1
  let jobId ← required JobId.deserialize (f.get "job_id" 0)
  return { jobId }

/-- The fields that a `JobStatusRequest` and a `JobCancelRequest` both have. -/
def readJobRequest (v : Value) : Option (SessionId × String × JobId) := do
  let f ← v.asStruct 3
  let sessionId ← required SessionId.deserialize (f.get "session_id" 0)
  let capToken ← required Value.asString (f.get "cap_token" 1)
  let jobId ← required JobId.deserialize (f.get "job_id" 2)
  return (sessionId, capToken, jobId)

def writeJobRequest (sessionId : SessionId) (capToken : String) (jobId : JobId) : Value :=
  .object [("session_id", sessionId.serialize), ("cap_token", .string capToken),
    ("job_id", jobId.serialize)]

def JobStatusRequest.serialize (self : JobStatusRequest) : Value :=
  writeJobRequest self.sessionId self.capToken self.jobId

def JobStatusRequest.deserialize (v : Value) : Option JobStatusRequest :=
  (readJobRequest v).map fun (sessionId, capToken, jobId) => { sessionId, capToken, jobId }

def JobCancelRequest.serialize (self : JobCancelRequest) : Value :=
  writeJobRequest self.sessionId self.capToken self.jobId

def JobCancelRequest.deserialize (v : Value) : Option JobCancelRequest :=
  (readJobRequest v).map fun (sessionId, capToken, jobId) => { sessionId, capToken, jobId }

def JobCancelResponse.serialize (self : JobCancelResponse) : Value :=
  .object [("ok", .bool self.ok)]

def JobCancelResponse.deserialize (v : Value) : Option JobCancelResponse := do
  let f ← v.asStruct 1
  let ok ← required Value.asBool (f.get "ok" 0)
  return { ok }

/-- `JobStatusProto`; a status has the same form on the wire. -/
def JobStatus.serialize : JobStatus → Value
  | .pending => .object [("status", .string "pending")]
  | .running => .object [("status", .string "running")]
  | .exited code => .object [("code", .ofI64 code), ("status", .string "exited")]
  | .killed => .object [("status", .string "killed")]
  | .failed reason => .object [("reason", .string reason), ("status", .string "failed")]

/-- The names of the variants of a status. -/
def JobStatus.variants : List String := ["pending", "running", "exited", "killed", "failed"]

/-- A status, with how its tag is read. -/
def JobStatus.deserialize (readTag : Value → Option String) (v : Value) : Option JobStatus := do
  let (variant, f) ← v.asTagged "status" readTag
  match variant with
  | "pending" => (f.atMost 0).map fun _ => .pending
  | "running" => (f.atMost 0).map fun _ => .running
  | "exited" => do
      let f ← f.atMost 1
      let code ← required Value.asI32 (f.get "code" 0)
      return .exited code
  | "killed" => (f.atMost 0).map fun _ => .killed
  | "failed" => do
      let f ← f.atMost 1
      let reason ← required Value.asString (f.get "reason" 0)
      return .failed reason
  | _ => none

/-- The exit code is an `i32`. -/
def JobStatus.Fits : JobStatus → Prop
  | .exited code => -2 ^ 31 ≤ code ∧ code < 2 ^ 31
  | _ => True

def JobStatusResponse.serialize (self : JobStatusResponse) : Value :=
  .object [("job_id", self.jobId.serialize), ("seq", .ofU64 self.seq),
    ("status", self.status.serialize)]

def JobStatusResponse.deserialize (v : Value) : Option JobStatusResponse := do
  let f ← v.asStruct 3
  let jobId ← required JobId.deserialize (f.get "job_id" 0)
  let status ← required (JobStatus.deserialize Value.asString) (f.get "status" 1)
  let seq ← required Value.asU64 (f.get "seq" 2)
  return { jobId, status, seq }

/-! ## Log frames -/

/-- `LogStreamProto`. -/
def LogStream.serialize : LogStream → Value
  | .stdout => .string "stdout"
  | .stderr => .string "stderr"

def LogStream.deserialize (v : Value) : Option LogStream := do
  match ← v.asVariantText with
  | "stdout" => some .stdout
  | "stderr" => some .stderr
  | _ => none

def LogEventFrame.serialize (self : LogEventFrame) : Value :=
  .object [("job_id", self.jobId.serialize), ("seq", .ofU64 self.seq),
    ("stream", self.stream.serialize),
    ("data", .array (self.data.map fun byte => .ofU64 byte.toNat)),
    ("ts_millis", .ofU64 self.tsMillis)]

/-- A frame is read from a text, where no field may come twice. -/
def LogEventFrame.deserialize (v : Value) : Option LogEventFrame := do
  let f ← v.asStruct 5
  let jobId ← readField none JobId.deserialize (f.get "job_id" 0)
  let seq ← readField none Value.asU64 (f.get "seq" 1)
  let stream ← readField none LogStream.deserialize (f.get "stream" 2)
  let data ← readField none (Value.asList Value.asU8) (f.get "data" 3)
  let tsMillis ← readField none Value.asU64 (f.get "ts_millis" 4)
  return { jobId, seq, stream, data, tsMillis }

/-- The numbers are `u64`. -/
def LogEventFrame.Fits (self : LogEventFrame) : Prop :=
  self.seq < 2 ^ 64 ∧ self.tsMillis < 2 ^ 64

/-! ## Audit events -/

inductive SessionAuditEventKind where
  | sessionOpened
  | sessionClosed
  | jobStarted (jobId : JobId)
  | jobFinished (jobId : JobId) (status : JobStatus)
deriving DecidableEq, Repr

structure SessionAuditEvent where
  tsMillis : Nat
  kind : SessionAuditEventKind
deriving DecidableEq, Repr

structure SessionAuditResponse where
  events : List SessionAuditEvent
deriving DecidableEq, Repr

/-- The members that a kind puts into the object of its event. -/
def SessionAuditEventKind.members : SessionAuditEventKind → List (String × Value)
  | .sessionOpened => [("event", .string "session_opened")]
  | .sessionClosed => [("event", .string "session_closed")]
  | .jobStarted jobId => [("event", .string "job_started"), ("job_id", jobId.serialize)]
  | .jobFinished jobId status =>
      [("event", .string "job_finished"), ("job_id", jobId.serialize),
        ("status", status.serialize)]

/-- The names of the variants of a kind. -/
def SessionAuditEventKind.variants : List String :=
  ["session_opened", "session_closed", "job_started", "job_finished"]

def SessionAuditEventKind.deserialize (v : Value) : Option SessionAuditEventKind := do
  let (variant, f) ← v.asTagged "event" (Value.asIdentifier variants)
  match variant with
  | "session_opened" => (f.atMost 0).map fun _ => .sessionOpened
  | "session_closed" => (f.atMost 0).map fun _ => .sessionClosed
  | "job_started" => do
      let f ← f.atMost 1
      let jobId ← required JobId.deserialize (f.get "job_id" 0)
      return .jobStarted jobId
  | "job_finished" => do
      let f ← f.atMost 2
      let jobId ← required JobId.deserialize (f.get "job_id" 0)
      let readTag := Value.asIdentifier JobStatus.variants
      let status ← required (JobStatus.deserialize readTag) (f.get "status" 1)
      return .jobFinished jobId status
  | _ => none

def SessionAuditEvent.serialize (self : SessionAuditEvent) : Value :=
  .object (self.kind.members ++ [("ts_millis", .ofU64 self.tsMillis)])

def SessionAuditEvent.deserialize : Value → Option SessionAuditEvent
  | .object fields => do
      let tsMillis ← required Value.asU64 ((Fields.byName fields).get "ts_millis" 0)
      let kind ← SessionAuditEventKind.deserialize (.object fields)
      return { tsMillis, kind }
  | _ => none

/-- The time is a `u64`, and a status fits. -/
def SessionAuditEvent.Fits (self : SessionAuditEvent) : Prop :=
  self.tsMillis < 2 ^ 64 ∧ ∀ jobId status, self.kind = .jobFinished jobId status → status.Fits

/-! ## What is written is read back -/

theorem SessionOpenRequest.deserialize_serialize (req : SessionOpenRequest) :
    deserialize req.serialize = some req := by
  simp [deserialize, serialize, members_skipEmpty, fieldOf_skipEmpty]

theorem SessionOpenResponse.deserialize_serialize (resp : SessionOpenResponse) :
    deserialize resp.serialize = some resp := by
  simp [deserialize, serialize]

theorem SessionRequest.deserialize_serialize (req : SessionRequest) :
    deserialize req.serialize = some req := by
  simp [deserialize, serialize]

theorem SessionCloseResponse.deserialize_serialize (resp : SessionCloseResponse) :
    deserialize resp.serialize = some resp := by
  simp [deserialize, serialize]

theorem DescribeRequest.deserialize_serialize (req : DescribeRequest) :
    deserialize req.serialize = some req := by
  simp [deserialize, serialize]

theorem IndexEntry.deserialize_serialize (entry : IndexEntry) :
    deserialize entry.serialize = some entry := by
  simp [deserialize, serialize]

theorem CapabilityDetail.deserialize_serialize (detail : CapabilityDetail) :
    deserialize detail.serialize = some detail := by
  simp [deserialize, serialize]

/-- The fields of a payload, its tag included. -/
def JobPayload.fieldNames : List String := ["kind", "command", "code", "lang", "name", "params"]

theorem JobPayload.members_other (payload : JobPayload) {name : String}
    (h : ∀ field ∈ fieldNames, field ≠ name) :
    (Value.object payload.members).members name = [] := by
  simp only [fieldNames, List.forall_mem_cons] at h
  cases payload with
  | command text => simp [members, h]
  | code text lang => cases lang <;> simp [members, h]
  | capability name params => simp [members, h]

/-- A payload is read back from the object it is flattened into, if the other
members have other names. -/
theorem JobPayload.deserialize_members (payload : JobPayload)
    {before after : List (String × Value)}
    (hbefore : ∀ name ∈ fieldNames, (Value.object before).members name = [])
    (hafter : ∀ name ∈ fieldNames, (Value.object after).members name = []) :
    deserialize (.object (before ++ payload.members ++ after)) = some payload := by
  simp only [fieldNames, List.forall_mem_cons] at hbefore hafter
  cases payload with
  | command text => simp [deserialize, members, hbefore, hafter]
  | code text lang => cases lang <;> simp [deserialize, members, hbefore, hafter]
  | capability name params => simp [deserialize, members, hbefore, hafter]

theorem JobStartRequest.deserialize_serialize (req : JobStartRequest) :
    deserialize req.serialize = some req := by
  obtain ⟨sessionId, capToken, payload, cwd, capabilities⟩ := req
  let before : List (String × Value) :=
    [("session_id", sessionId.serialize), ("cap_token", .string capToken)]
  let after := optional "cwd" (cwd.map .string) ++ skipEmpty "capabilities" capabilities
  have hshape : serialize ⟨sessionId, capToken, payload, cwd, capabilities⟩
      = .object (before ++ payload.members ++ after) := by
    rw [serialize, List.append_assoc _ _ (skipEmpty _ _)]
  have hpayload : JobPayload.deserialize (.object (before ++ payload.members ++ after))
      = some payload := by
    refine payload.deserialize_members (fun name hname => ?_) (fun name hname => ?_)
    · have hnames : ∀ name ∈ JobPayload.fieldNames,
          "session_id" ≠ name ∧ "cap_token" ≠ name := by
        decide
      simp [before, hnames name hname]
    · have hnames : ∀ name ∈ JobPayload.fieldNames,
          "cwd" ≠ name ∧ "capabilities" ≠ name := by
        decide
      cases cwd <;> simp [after, members_skipEmpty, hnames name hname]
  have hother : ∀ name ∈ ["session_id", "cap_token", "cwd", "capabilities"],
      (Value.object payload.members).members name = [] := fun name hname =>
    payload.members_other ((by decide : ∀ name ∈ ["session_id", "cap_token", "cwd",
      "capabilities"], ∀ field ∈ JobPayload.fieldNames, field ≠ name) name hname)
  simp only [List.forall_mem_cons] at hother
  rw [hshape, deserialize, hpayload]
  cases cwd <;> simp [before, after, hother, members_skipEmpty, fieldOf_skipEmpty]

theorem JobStatus.deserialize_serialize {readTag : Value → Option String}
    (htag : ∀ s, readTag (.string s) = some s) {status : JobStatus} (h : status.Fits) :
    deserialize readTag status.serialize = some status := by
  cases status with
  | exited code => simp [deserialize, serialize, htag, asI32_ofI64 h.1 h.2]
  | _ => simp [deserialize, serialize, htag]

theorem JobStatusRequest.deserialize_serialize (req : JobStatusRequest) :
    deserialize req.serialize = some req := by
  simp [deserialize, serialize, readJobRequest, writeJobRequest]

theorem JobCancelRequest.deserialize_serialize (req : JobCancelRequest) :
    deserialize req.serialize = some req := by
  simp [deserialize, serialize, readJobRequest, writeJobRequest]

theorem JobStartResponse.deserialize_serialize (resp : JobStartResponse) :
    deserialize resp.serialize = some resp := by
  simp [deserialize, serialize]

theorem JobCancelResponse.deserialize_serialize (resp : JobCancelResponse) :
    deserialize resp.serialize = some resp := by
  simp [deserialize, serialize]

theorem JobStatusResponse.deserialize_serialize {resp : JobStatusResponse}
    (hstatus : resp.status.Fits) (hseq : resp.seq < 2 ^ 64) :
    deserialize resp.serialize = some resp := by
  have htag := JobStatus.deserialize_serialize asString_string hstatus
  simp [deserialize, serialize, htag, asU64_ofU64 hseq]

@[simp] theorem LogStream.deserialize_serialize (stream : LogStream) :
    deserialize stream.serialize = some stream := by
  cases stream <;> rfl

theorem asU8_ofU64 (byte : UInt8) : (Value.ofU64 byte.toNat).asU8 = some byte := by
  have hlt := byte.toNat_lt
  rw [Value.asU8, asU64_ofU64 (by omega)]
  simp only [Option.bind_eq_bind, Option.bind_some]
  rw [if_pos (by omega), UInt8.ofNat_toNat]

theorem asList_asU8 (data : List UInt8) :
    (Value.array (data.map fun byte => .ofU64 byte.toNat)).asList Value.asU8 = some data :=
  (Codec.array.list (.total asU8_ofU64)).read_write data ⟨trivial, fun _ _ => trivial⟩

theorem LogEventFrame.deserialize_serialize {frame : LogEventFrame} (h : frame.Fits) :
    deserialize frame.serialize = some frame := by
  simp [deserialize, serialize, readField, asU64_ofU64 h.1, asU64_ofU64 h.2, asList_asU8]

theorem SessionAuditEvent.deserialize_serialize {event : SessionAuditEvent} (h : event.Fits) :
    deserialize event.serialize = some event := by
  obtain ⟨tsMillis, kind⟩ := event
  cases kind with
  | jobFinished jobId status =>
      have htag := JobStatus.deserialize_serialize (asIdentifier_string JobStatus.variants)
        (h.2 jobId status rfl)
      simp [deserialize, serialize, SessionAuditEventKind.members,
        SessionAuditEventKind.deserialize, asU64_ofU64 h.1, htag]
  | _ =>
      simp [deserialize, serialize, SessionAuditEventKind.members,
        SessionAuditEventKind.deserialize, asU64_ofU64 h.1]

/-! ## The formats -/

namespace Codec

def sessionOpenRequest : Codec Value SessionOpenRequest :=
  .total SessionOpenRequest.deserialize_serialize

/-- `SessionCloseRequest`, `SessionAuditRequest` and `IndexRequest`. -/
def sessionRequest : Codec Value SessionRequest := .total SessionRequest.deserialize_serialize

def describeRequest : Codec Value DescribeRequest := .total DescribeRequest.deserialize_serialize

def jobStartRequest : Codec Value JobStartRequest := .total JobStartRequest.deserialize_serialize

def jobStatusRequest : Codec Value JobStatusRequest := .total JobStatusRequest.deserialize_serialize

def jobCancelRequest : Codec Value JobCancelRequest := .total JobCancelRequest.deserialize_serialize

def sessionOpenResponse : Codec Value SessionOpenResponse :=
  .total SessionOpenResponse.deserialize_serialize

def sessionCloseResponse : Codec Value SessionCloseResponse :=
  .total SessionCloseResponse.deserialize_serialize

/-- `DescribeResponse`. -/
def capabilityDetail : Codec Value CapabilityDetail := .total CapabilityDetail.deserialize_serialize

def jobStartResponse : Codec Value JobStartResponse := .total JobStartResponse.deserialize_serialize

def jobStatusResponse : Codec Value JobStatusResponse where
  write := JobStatusResponse.serialize
  read := JobStatusResponse.deserialize
  Fits resp := resp.status.Fits ∧ resp.seq < 2 ^ 64
  read_write _ h := JobStatusResponse.deserialize_serialize h.1 h.2

def jobCancelResponse : Codec Value JobCancelResponse :=
  .total JobCancelResponse.deserialize_serialize

/-- A struct whose only field is a list. -/
def listOf {α : Type} (name : String) (item : Codec Value α) : Codec Value (List α) where
  write l := .object [(name, (Codec.array.list item).write l)]
  read v := do
    let f ← v.asStruct 1
    required (Codec.array.list item).read (f.get name 0)
  Fits l := ∀ a ∈ l, item.Fits a
  read_write l h := by
    simp only [asStruct_object, Option.bind_eq_bind, Option.bind_some, Fields.get_byName,
      Value.members_cons, if_pos, Value.members_nil, required_singleton]
    exact (Codec.array.list item).read_write l ⟨trivial, h⟩

def indexResponse : Codec Value IndexResponse :=
  let entries := listOf "entries" (.total IndexEntry.deserialize_serialize)
  { write resp := entries.write resp.entries
    read v := (entries.read v).map .mk
    Fits _ := True
    read_write resp _ := by rw [entries.read_write _ fun _ _ => trivial]; rfl }

def sessionAuditResponse : Codec Value SessionAuditResponse :=
  let events := listOf "events"
    { write := SessionAuditEvent.serialize
      read := SessionAuditEvent.deserialize
      Fits := SessionAuditEvent.Fits
      read_write _ h := SessionAuditEvent.deserialize_serialize h }
  { write resp := events.write resp.events
    read v := (events.read v).map .mk
    Fits resp := ∀ event ∈ resp.events, event.Fits
    read_write resp h := by rw [events.read_write _ h]; rfl }

end Codec

end Axp
