import Axp.RustStd

/-!
# Wire types

The requests and responses of `axp-proto` that the engine reads and writes,
field by field. Identifiers are opaque strings; a capability grant is the
string of its grammar, parsed only by the runtime.
-/

namespace Axp

/-- Opaque session identifier (e.g. `s_91`). -/
structure SessionId where
  str : String
deriving DecidableEq, Repr

/-- Opaque job identifier (e.g. `j_5`). -/
structure JobId where
  str : String
deriving DecidableEq, Repr

/-- The sandbox enforcement guarantee a session runs under. -/
inductive EnforcementTier where
  | kernelLsm
  | container
  | processToken
  | devNone
deriving DecidableEq, Repr

/-- A capability grant in wire form. -/
structure WireCapability where
  str : String
deriving DecidableEq, Repr

/-- A JSON value; numbers keep their text. -/
inductive Value where
  | null
  | bool (b : Bool)
  | number (text : String)
  | string (s : String)
  | array (items : List Value)
  | object (fields : List (String × Value))

/-- The `session.open` request. -/
structure SessionOpenRequest where
  workspace : String
  sandboxTier : EnforcementTier
  capabilities : List WireCapability

/-- The work a job runs. -/
inductive JobPayload where
  | command (command : String)
  | code (code : String) (lang : Option String)
  | capability (name : String) (params : Value)

/-- The `job.start` request. -/
structure JobStartRequest where
  sessionId : SessionId
  capToken : String
  payload : JobPayload
  cwd : Option String
  capabilities : List WireCapability

/-- Which standard stream a log chunk came from (`LogStream` and its wire
twin `LogStreamProto` have the same two values). -/
inductive LogStream where
  | stdout
  | stderr
deriving DecidableEq, Repr

/-- One log frame as `job.attach` delivers it. -/
structure LogEventFrame where
  jobId : JobId
  seq : Nat
  stream : LogStream
  data : List UInt8
  tsMillis : Nat
deriving DecidableEq, Repr

/-- The `job.status` request. -/
structure JobStatusRequest where
  sessionId : SessionId
  capToken : String
  jobId : JobId
deriving DecidableEq, Repr

/-- The `job.cancel` request. -/
structure JobCancelRequest where
  sessionId : SessionId
  capToken : String
  jobId : JobId
deriving DecidableEq, Repr

/-- The `job.cancel` response. -/
structure JobCancelResponse where
  ok : Bool
deriving DecidableEq, Repr

/-- The `job.attach` request. -/
structure JobAttachRequest where
  sessionId : SessionId
  capToken : String
  jobId : JobId
  fromOffset : Nat
deriving DecidableEq, Repr

end Axp
