import Axp.Token
import Axp.Wire

/-!
# The method handlers

Each handler reads its parameters, passes the gate if the method has one, asks
the engine or the registry, and writes the answer. What is between the reading
and the writing is a procedure on typed requests, and the handler is that
procedure behind the formats of its request and response (`Codec.serve`).

A handler runs here without interruption; `Axp.Server` has its steps.
-/

namespace Axp

open Axp.Codec

/-- The state that the handlers share. The engine has the session store and
the registry. -/
structure AppState where
  engine : JobEngine
  sessionCounter : Nat

/-- What the host and the libraries answer during one request: `entropy` is
what the operating system draws, and `paramsError` the text for parameters
that do not read. -/
structure World where
  env : Env
  now : SystemTime
  entropy : Option (Vector UInt8 tokenBytes)
  paramsError : Handler → Value → ErrorText

/-! ## Helpers -/

/-- Milliseconds since the epoch, within the range of a `u64`. -/
def systemTimeToMillis (timestamp : SystemTime) : Nat :=
  let millis :=
    match timestamp.durationSince .unixEpoch with
    | .ok duration => duration.asMillis
    | .error _ => 0
  if millis > 2 ^ 64 - 1 then 2 ^ 64 - 1 else millis

def auditEventToWire (event : AuditEvent) : SessionAuditEvent where
  tsMillis := systemTimeToMillis event.timestamp
  kind :=
    match event.kind with
    | .sessionOpened => .sessionOpened
    | .sessionClosed => .sessionClosed
    | .jobStarted jobId => .jobStarted jobId
    | .jobFinished jobId status => .jobFinished jobId status

/-- `?` on a result of `axp-core`. -/
def runtime {α : Type} (r : Result α) : Except TransportError α := r.mapError .runtime

namespace AppState

/-- What `next_session_id` leaves. -/
def mint (self : AppState) : AppState := { self with sessionCounter := self.sessionCounter + 1 }

def nextSessionId (self : AppState) : SessionId × AppState :=
  (mintedId self.sessionCounter, self.mint)

/-- Past the gate, or refused there. -/
def authorized {α : Type} (sid : SessionId) (capToken : String)
    (rest : AppState → Except TransportError α × AppState) (self : AppState) :
    Except TransportError α × AppState :=
  match requireAuthorizedSession self.engine.sessions sid capToken with
  | .ok () => rest self
  | .error e => (.error e, self)

/-- A handler that changes nothing. -/
def reading {α : Type} (r : AppState → Except TransportError α) (self : AppState) :
    Except TransportError α × AppState :=
  (r self, self)

/-! ## The procedures -/

def sessionOpen (w : World) (req : SessionOpenRequest) (self : AppState) :
    Except TransportError SessionOpenResponse × AppState :=
  match Workspace.new w.env.canonicalize (.ofString req.workspace) with
  | .error e => (.error (.runtime e), self)
  | .ok workspace =>
      match CapabilitySet.fromWire req.capabilities with
      | .error e => (.error (.runtime e), self)
      | .ok capabilities =>
          let (id, self) := self.nextSessionId
          match CapToken.generate w.entropy with
          | .error e => (.error (.runtime e), self)
          | .ok capToken =>
              let session : Session :=
                { id := id
                  workspace := workspace
                  tier := req.sandboxTier
                  capabilities := capabilities
                  capToken := capToken
                  auditEvents := [] }
              let sessions := self.engine.sessions.openSession session w.now
              (.ok { sessionId := id, grantedTier := req.sandboxTier, capToken := capToken.str },
                { self with engine := { self.engine with sessions := sessions } })

def sessionClose (w : World) (req : SessionCloseRequest) :
    AppState → Except TransportError SessionCloseResponse × AppState :=
  authorized req.sessionId req.capToken fun self =>
    match self.engine.sessions.close req.sessionId w.now with
    | (.ok (), sessions) =>
        (.ok { ok := true }, { self with engine := { self.engine with sessions := sessions } })
    | (.error _, sessions) =>
        (.error .unauthorized, { self with engine := { self.engine with sessions := sessions } })

def sessionAudit (req : SessionAuditRequest) :
    AppState → Except TransportError SessionAuditResponse × AppState :=
  authorized req.sessionId req.capToken <| reading fun self => do
    let session ← requireSession self.engine.sessions req.sessionId
    return { events := session.auditEvents.map auditEventToWire }

/-- `authenticated_session_capabilities`, past its gate. -/
def sessionCapabilities (sid : SessionId) (self : AppState) :
    Except TransportError CapabilitySet := do
  let session ← requireSession self.engine.sessions sid
  return session.capabilities

def index (req : IndexRequest) : AppState → Except TransportError IndexResponse × AppState :=
  authorized req.sessionId req.capToken <| reading fun self => do
    let capabilities ← self.sessionCapabilities req.sessionId
    runtime (self.engine.registry.indexForCapabilities capabilities)

def describe (req : DescribeRequest) :
    AppState → Except TransportError CapabilityDetail × AppState :=
  authorized req.sessionId req.capToken <| reading fun self => do
    let capabilities ← self.sessionCapabilities req.sessionId
    runtime (self.engine.registry.describeForCapabilities req.name capabilities)

def jobStart (w : World) (req : JobStartRequest) :
    AppState → Except TransportError JobStartResponse × AppState :=
  authorized req.sessionId req.capToken fun self =>
    let (r, engine) := self.engine.start w.env w.now req
    (runtime (r.map .mk), { self with engine := engine })

def jobStatus (req : JobStatusRequest) :
    AppState → Except TransportError JobStatusResponse × AppState :=
  authorized req.sessionId req.capToken <| reading fun self => runtime (self.engine.status req)

def jobCancel (req : JobCancelRequest) :
    AppState → Except TransportError JobCancelResponse × AppState :=
  authorized req.sessionId req.capToken fun self =>
    let (r, engine) := self.engine.cancel req
    (runtime r, { self with engine := engine })

/-! ## The handlers -/

/-- The handlers, each on its own parameters. -/
def handlers (w : World) : Handlers AppState := fun handler self params =>
  let refuse (v : Value) : TransportError := .invalidParams (w.paramsError handler v)
  match handler with
  | .sessionOpen =>
      sessionOpenRequest.serve sessionOpenResponse refuse (sessionOpen w) params self
  | .sessionClose =>
      sessionRequest.serve sessionCloseResponse refuse (sessionClose w) params self
  | .sessionAudit => sessionRequest.serve sessionAuditResponse refuse sessionAudit params self
  | .index => sessionRequest.serve indexResponse refuse index params self
  | .describe => describeRequest.serve capabilityDetail refuse describe params self
  | .jobStart => jobStartRequest.serve jobStartResponse refuse (jobStart w) params self
  | .jobStatus => jobStatusRequest.serve jobStatusResponse refuse jobStatus params self
  | .jobCancel => jobCancelRequest.serve jobCancelResponse refuse jobCancel params self

end AppState

end Axp
