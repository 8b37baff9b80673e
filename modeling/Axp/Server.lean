import Axp.Lifecycle

/-!
# The server, lock by lock

`Axp.Lifecycle` follows a session to its close. Here everything a client can
tell is in view, so the steps are finer: a request is cut wherever it gives up
one lock before it takes the next (`ServerCall`), a job from its insertion on
has a `Life`, which is first the rest of `start`, then its task with
`run_to_completion` or `run_code_to_completion` inside, then the rest of
`finish_job`, and attached streams run beside it.

A cancellation entry holds the sender of a channel. Sending and dropping the
sender both make the receiver ready, so the channel of every job is followed:
`senders` says whose sender the table holds, `sent` which channels carry a
signal.

`Observed` is not part of the code. It keeps what the callers have been told,
and with an answer what its caller knew when the call began.
-/

namespace Axp

open Lts

/-! ## Requests -/

/-- Failure modes of the transport. -/
inductive TransportError where
  | runtime (e : Error)
  | parse (reason : String)
  | invalidParams (reason : String)
  | unauthorized
  | internal (reason : String)
deriving DecidableEq, Repr

/-- A request to one of the authenticated endpoints, well formed. -/
inductive Request where
  | sessionClose (sessionId : SessionId) (capToken : String)
  | sessionAudit (sessionId : SessionId) (capToken : String)
  | index (sessionId : SessionId) (capToken : String)
  | describe (sessionId : SessionId) (capToken : String) (name : String)
  | jobStart (req : JobStartRequest)
  | jobStatus (req : JobStatusRequest)
  | jobCancel (req : JobCancelRequest)
  | jobAttach (req : JobAttachRequest)

namespace Request

def sessionId : Request → SessionId
  | .sessionClose sid _ => sid
  | .sessionAudit sid _ => sid
  | .index sid _ => sid
  | .describe sid _ _ => sid
  | .jobStart req => req.sessionId
  | .jobStatus req => req.sessionId
  | .jobCancel req => req.sessionId
  | .jobAttach req => req.sessionId

def capToken : Request → String
  | .sessionClose _ token => token
  | .sessionAudit _ token => token
  | .index _ token => token
  | .describe _ token _ => token
  | .jobStart req => req.capToken
  | .jobStatus req => req.capToken
  | .jobCancel req => req.capToken
  | .jobAttach req => req.capToken

end Request

/-- `require_authorized_session`, which `attach_sse` repeats in its own words. -/
def requireAuthorizedSession (sessions : SessionStore) (id : SessionId) (presented : String) :
    Except TransportError Unit :=
  if !sessions.authorize id presented then .error .unauthorized else .ok ()

/-- The second look at the session, after the gate, of the handlers that need
its data. -/
def requireSession (sessions : SessionStore) (id : SessionId) : Except TransportError Session :=
  okOr (sessions.get id) .unauthorized

/-! ## What callers have been told -/

/-- An answer of `session.audit`: the final statuses its caller had seen when
the call began, whether the session was still live, and the events. -/
structure AuditReport where
  sessionId : SessionId
  seen : List (JobId × JobStatus)
  live : Bool
  events : List AuditEvent

/-- An answer of `job.cancel`: whether its caller had been given a terminal
status of the job when the call began, and at the answer whether the job was
finished and whether an earlier call had signalled it. -/
structure CancelReport where
  sessionId : SessionId
  jobId : JobId
  told : Bool
  ok : Bool
  finished : Bool
  signalled : Bool
deriving DecidableEq

/-- One unit of what a `cancel_for_session` counts. -/
structure CountReport where
  call : Nat
  sessionId : SessionId
  jobId : JobId
deriving DecidableEq

/-- What a `cancel_for_session` has returned. -/
structure TotalReport where
  call : Nat
  sessionId : SessionId
  count : Nat

structure Observed where
  opened : List (SessionId × CapToken)
  closed : List SessionId
  statuses : List (SessionId × JobStatusResponse)
  ended : List (SessionId × JobId × JobStatus)
  audits : List AuditReport
  cancels : List CancelReport
  counted : List CountReport
  totals : List TotalReport
  /-- The jobs whose task has taken its cancellation branch. -/
  branches : List JobId

namespace Observed

def none : Observed := ⟨[], [], [], [], [], [], [], [], []⟩

/-- The jobs the session has seen finished: by a status, or by the end of a
stream. -/
def finished (self : Observed) (sid : SessionId) : List (JobId × JobStatus) :=
  (self.statuses.filter fun x => x.1 = sid ∧ x.2.status.isTerminal = true).map
      (fun x => (x.2.jobId, x.2.status))
    ++ (self.ended.filter (·.1 = sid)).map (·.2)

/-- The session has been given a terminal status of the job. -/
def told (self : Observed) (sid : SessionId) (id : JobId) : Bool :=
  self.statuses.any fun x => x.1 = sid && x.2.jobId = id && x.2.status.isTerminal

/-- The cancellations that reported success: by whom, or for whom, and of
which job. -/
def successes (self : Observed) : List (SessionId × JobId) :=
  (self.cancels.filter (·.ok)).map (fun r => (r.sessionId, r.jobId))
    ++ self.counted.map fun r => (r.sessionId, r.jobId)

def signalled (self : Observed) (id : JobId) : Bool := self.successes.any (·.2 = id)

end Observed

/-! ## Calls and lives -/

/-- Where a call is between two of its steps. Everything before its first
entry has been checked, its authorisation included. -/
inductive ServerCall where
  /-- A session id has been minted. -/
  | opening (session : Session)
  | closing (sid : SessionId)
  /-- The session is out of the map. -/
  | recordingClose (sid : SessionId)
  | auditing (sid : SessionId) (seen : List (JobId × JobStatus))
  | readingAudit (sid : SessionId) (seen : List (JobId × JobStatus))
  /-- `axp.index` or `axp.describe`. -/
  | catalog (sid : SessionId)
  | starting (req : JobStartRequest)
  | preparing (req : JobStartRequest) (session : Session)
  | inserting (req : JobStartRequest) (launch : Launch)
  | status (req : JobStatusRequest)
  /-- The caller owns the job. -/
  | readingStatus (req : JobStatusRequest)
  | cancelling (req : JobCancelRequest) (told : Bool)
  /-- The caller owns the job. -/
  | killing (req : JobCancelRequest) (told : Bool)
  /-- The loop of `cancel_for_session`: the jobs still to kill, and `n`. -/
  | killingAll (sid : SessionId) (rest : List JobId) (n : Nat)
  | attaching (req : JobAttachRequest)

/-- The session that a handler past the gate looks up once more. -/
def ServerCall.looksUp : ServerCall → Option SessionId
  | .closing sid => some sid
  | .auditing sid _ => some sid
  | .catalog sid => some sid
  | _ => none

/-- The local state of a job's task. -/
inductive TaskState where
  | drain (d : DrainState)
  | code (c : CodeState)
deriving DecidableEq

/-- How the task of a piece of work begins. -/
def Work.task : Work → TaskState
  | .child .. => .drain .start
  | .component .. => .code .running

/-- Where a job is between two steps: in the rest of `start`, at its task, or
in `finish_job`. -/
inductive LifePc where
  | registering
  | startAuditing
  /-- The session has been found. -/
  | startRecording
  | spawning
  | running (task : TaskState)
  | finishing (status : TerminalStatus)
  | notifying (status : TerminalStatus)
  | finishAuditing (status : TerminalStatus)
  /-- The session has been found. -/
  | finishRecording (status : TerminalStatus)
  | retiring (status : TerminalStatus)
  | erased (status : TerminalStatus)
deriving DecidableEq

/-- A job from its insertion on; `rx` is the channel its task listens to. -/
structure Life where
  sessionId : SessionId
  work : Work
  rx : Option Nat
  pc : LifePc

inductive LifeInput where
  | next
  | drain (input : DrainInput)
  | code (input : CodeInput)

/-! ## The state -/

structure Server where
  engine : JobEngine
  sessionCounter : Nat
  callCount : Nat
  calls : HashMap Nat ServerCall
  lives : HashMap JobId Life
  /-- The channel whose sender the job's cancellation entry holds. -/
  senders : HashMap JobId Nat
  channels : Nat
  sent : List Nat
  streams : Nat → Option (SessionId × Attached)
  observed : Observed

inductive ServerLabel where
  /-- `token` is what `CapToken::generate` returns. -/
  | sessionOpen (env : Env) (req : SessionOpenRequest) (token : Option CapToken)
  | request (r : Request)
  | cancelForSession (sid : SessionId)
  | advance (call : Nat) (env : Env) (now : SystemTime)
  | life (id : JobId) (input : LifeInput) (now : SystemTime)
  | stream (i : Nat) (act : StreamAct)

namespace Server

/-! ### Calls -/

/-- A call begins, and is given a number. -/
def begin (s : Server) (c : ServerCall) : Server :=
  { s with calls := s.calls.insert s.callCount c, callCount := s.callCount + 1 }

/-- A call has its next step before it. -/
def goOn (s : Server) (call : Nat) (c : ServerCall) : Server :=
  { s with calls := s.calls.insert call c }

/-- A call is over. -/
def endCall (s : Server) (call : Nat) : Server := { s with calls := s.calls.erase call }

/-- `session_open` up to the new id. -/
def sessionOpen (s : Server) (env : Env) (req : SessionOpenRequest) (token : Option CapToken) :
    Server :=
  match Workspace.new env.canonicalize (.ofString req.workspace),
      CapabilitySet.fromWire req.capabilities with
  | .ok workspace, .ok capabilities =>
      let minted := { s with sessionCounter := s.sessionCounter + 1 }
      match token with
      | some token =>
          minted.begin (.opening
            { id := mintedId s.sessionCounter
              workspace := workspace
              tier := req.sandboxTier
              capabilities := capabilities
              capToken := token
              auditEvents := [] })
      | none => minted
  | _, _ => s

/-- The gate of every authenticated endpoint. -/
def gate (s : Server) (r : Request) : Except TransportError Unit :=
  requireAuthorizedSession s.engine.sessions r.sessionId r.capToken

/-- The first step of a request past the gate. -/
def first (s : Server) : Request → ServerCall
  | .sessionClose sid _ => .closing sid
  | .sessionAudit sid _ => .auditing sid (s.observed.finished sid)
  | .index sid _ => .catalog sid
  | .describe sid _ _ => .catalog sid
  | .jobStart req => .starting req
  | .jobStatus req => .status req
  | .jobCancel req => .cancelling req (s.observed.told req.sessionId req.jobId)
  | .jobAttach req => .attaching req

/-- A request: past the gate, or answered there. -/
def request (s : Server) (r : Request) : Server :=
  match s.gate r with
  | .ok () => s.begin (s.first r)
  | .error _ => s

/-! ### Cancelling -/

/-- The entry has left the table, and its sender has sent. -/
def signal (s : Server) (id : JobId) (engine : JobEngine) : Server :=
  { s with
    engine := engine
    senders := s.senders.erase id
    sent := s.sent ++ (s.senders.lookup id).toList }

/-- `kill_job` with its channel. -/
def kill (s : Server) (id : JobId) : Result Unit × Server :=
  match s.engine.killJob id with
  | (.ok (), engine) => (.ok (), s.signal id engine)
  | (.error e, _) => (.error e, s)

/-- The answer of a `cancel` whose caller owns the job. -/
def cancelReport (s : Server) (req : JobCancelRequest) (told ok : Bool) : CancelReport where
  sessionId := req.sessionId
  jobId := req.jobId
  told := told
  ok := ok
  finished := (s.engine.jobs.get req.jobId).any (·.status.isTerminal)
  signalled := s.observed.signalled req.jobId

def reportCancel (s : Server) (req : JobCancelRequest) (told ok : Bool) : Observed :=
  { s.observed with cancels := s.observed.cancels ++ [s.cancelReport req told ok] }

/-- A receiver is ready once its sender has sent or is gone. -/
def ready (s : Server) : Option Nat → Bool
  | some ch => ch ∈ s.sent || !(s.senders.entries.any fun x => x.2 = ch)
  | none => false

/-! ### The steps of a call -/

/-- The next step of a call. -/
def advance (s : Server) (call : Nat) (env : Env) (now : SystemTime) : ServerCall → Server
  | .opening session =>
      { s.endCall call with
        engine := { s.engine with sessions := s.engine.sessions.openSession session now }
        observed :=
          { s.observed with
            opened := s.observed.opened ++ [(session.id, session.capToken)] } }
  | .closing sid =>
      match requireSession s.engine.sessions sid with
      | .ok _ =>
          { s.goOn call (.recordingClose sid) with
            engine := { s.engine with sessions := s.engine.sessions.remove sid }
            observed := { s.observed with closed := s.observed.closed ++ [sid] } }
      | .error _ => s.endCall call
  | .recordingClose sid =>
      { s.endCall call with
        engine := { s.engine with sessions := s.engine.sessions.write sid .sessionClosed now } }
  | .auditing sid seen =>
      match requireSession s.engine.sessions sid with
      | .ok _ => s.goOn call (.readingAudit sid seen)
      | .error _ => s.endCall call
  | .readingAudit sid seen =>
      match s.engine.sessions.behind sid with
      | some session =>
          { s.endCall call with
            observed :=
              { s.observed with
                audits := s.observed.audits ++
                  [{ sessionId := sid
                     seen := seen
                     live := (s.engine.sessions.get sid).isSome
                     events := session.auditEvents }] } }
      | none => s.endCall call
  | .catalog _ => s.endCall call
  | .starting req =>
      match s.engine.sessions.get req.sessionId with
      | some session => s.goOn call (.preparing req session)
      | none => s.endCall call
  | .preparing req session =>
      match prepare env s.engine.registry s.engine.logByteCap session req with
      | .ok launch => s.goOn call (.inserting req launch)
      | .error _ => s.endCall call
  | .inserting req launch =>
      let (id, engine) := s.engine.insertRunningJob req launch.cwd now
      { s.endCall call with
        engine := engine
        lives := s.lives.insert id
          { sessionId := req.sessionId, work := launch.work, rx := none, pc := .registering } }
  | .status req =>
      match s.engine.lookupOwned req.sessionId req.jobId with
      | .ok _ => s.goOn call (.readingStatus req)
      | .error _ => s.endCall call
  | .readingStatus req =>
      match s.engine.status req with
      | .ok response =>
          { s.endCall call with
            observed :=
              { s.observed with
                statuses := s.observed.statuses ++ [(req.sessionId, response)] } }
      | .error _ => s.endCall call
  | .cancelling req told =>
      match s.engine.lookupOwned req.sessionId req.jobId with
      | .ok _ => s.goOn call (.killing req told)
      | .error _ => s.endCall call
  | .killing req told =>
      match s.kill req.jobId with
      | (.ok (), s') => { s'.endCall call with observed := s.reportCancel req told true }
      | (.error (.jobNotFound _), s') =>
          { s'.endCall call with observed := s.reportCancel req told false }
      | (.error _, s') => s'.endCall call
  | .killingAll sid [] n =>
      { s.endCall call with
        observed := { s.observed with totals := s.observed.totals ++ [⟨call, sid, n⟩] } }
  | .killingAll sid (id :: rest) n =>
      match s.kill id with
      | (.ok (), s') =>
          { s'.goOn call (.killingAll sid rest (n + 1)) with
            observed := { s.observed with counted := s.observed.counted ++ [⟨call, sid, id⟩] } }
      | (.error _, s') => s'.goOn call (.killingAll sid rest n)
  | .attaching req =>
      match s.engine.attach req with
      | .ok (stream, _) =>
          { s.endCall call with
            streams := Function.update s.streams call (some (req.sessionId,
              { stream := stream
                pc := .idle
                woken := false
                offset := stream.cursor
                results := [] })) }
      | .error _ => s.endCall call

/-! ### The steps of a job -/

/-- A job has its next step before it. -/
def move (s : Server) (id : JobId) (life : Life) (pc : LifePc) : Server :=
  { s with lives := s.lives.insert id { life with pc := pc } }

/-- `notify_waiters` of the job's log. -/
def wake (s : Server) (id : JobId) : Nat → Option (SessionId × Attached) := fun i =>
  (s.streams i).map fun (sid, a) => (sid, if a.stream.jobId = id then a.wake else a)

/-- Write through the job's own lock. -/
def modifyJob (s : Server) (id : JobId) (f : Job → Job) : Server :=
  { s with engine := { s.engine with jobs := s.engine.jobs.modify id f } }

/-- Record an audit event through a handle on the session. -/
def writeAudit (s : Server) (sid : SessionId) (kind : AuditEventKind) (now : SystemTime) :
    Server :=
  { s with engine := { s.engine with sessions := s.engine.sessions.write sid kind now } }

/-- A push wakes the streams if it stored the event. -/
def pushLog (s : Server) (id : JobId) (job : Job) (event : AppendLogEvent) : Server :=
  { s.modifyJob id (fun job => (job.pushLog event).2) with
    streams :=
      match (job.pushLog event).1 with
      | .ok _ => s.wake id
      | .error _ => s.streams }

/-- A move of the job's task in a local state `σ`. -/
def act {σ : Type} (s : Server) (id : JobId) (life : Life) (job : Job) (wrap : σ → TaskState) :
    TaskAct σ → Server
  | .silent next => s.move id life (.running (wrap next))
  | .pushLog event resume =>
      (s.pushLog id job event).move id life (.running (wrap (resume (job.pushLog event).1)))
  | .finish status => s.move id life (.finishing status)

/-- The cancellation branch is taken. -/
def branch (s : Server) (id : JobId) : Server :=
  { s with observed := { s.observed with branches := s.observed.branches ++ [id] } }

/-- `run_to_completion`. Its first arm is polled first: what follows it is
only reached when the channel is not ready, or not polled any more. -/
def drain (s : Server) (id : JobId) (life : Life) (job : Job) (d : DrainState) :
    DrainInput → Option Server
  | .cancelReady =>
      if s.ready life.rx then
        (drainer.act d .cancelReady).map ((s.branch id).act id life job .drain)
      else none
  | .cancelPending =>
      if d.cancelled || !s.ready life.rx then
        (drainer.act d .cancelPending).map (s.act id life job .drain)
      else none
  | input => (drainer.act d input).map (s.act id life job .drain)

/-- `run_code_to_completion`. -/
def code (display : Error → String) (s : Server) (id : JobId) (life : Life) (job : Job)
    (c : CodeState) : CodeInput → Option Server
  | .cancelReady =>
      if s.ready life.rx then
        ((codeTask display).act c .cancelReady).map ((s.branch id).act id life job .code)
      else none
  | input => ((codeTask display).act c input).map (s.act id life job .code)

/-- The next step of a job. -/
def lifeStep (display : Error → String) (s : Server) (id : JobId) (life : Life) (job : Job)
    (now : SystemTime) : LifePc → LifeInput → Option Server
  | .registering, .next =>
      some
        { s with
          engine := s.engine.registerCancel id life.work.cancelEntry
          senders := s.senders.insert id s.channels
          channels := s.channels + 1
          lives := s.lives.insert id { life with rx := some s.channels, pc := .startAuditing } }
  | .startAuditing, .next =>
      match s.engine.sessions.get life.sessionId with
      | some _ => some (s.move id life .startRecording)
      | none => some (s.move id life .spawning)
  | .startRecording, .next =>
      some ((s.writeAudit life.sessionId (.jobStarted id) now).move id life .spawning)
  | .spawning, .next =>
      some
        { s.move id life (.running life.work.task) with
          engine := s.engine.spawnTask ⟨id, life.sessionId, life.work⟩ }
  | .running (.drain d), .drain input => s.drain id life job d input
  | .running (.code c), .code input => s.code display id life job c input
  | .finishing status, .next =>
      some ((s.modifyJob id (·.finish status.val now)).move id life (.notifying status))
  | .notifying status, .next =>
      some { s.move id life (.finishAuditing status) with streams := s.wake id }
  | .finishAuditing status, .next =>
      match s.engine.sessions.get life.sessionId with
      | some _ => some (s.move id life (.finishRecording status))
      | none => some (s.move id life (.retiring status))
  | .finishRecording status, .next =>
      some ((s.writeAudit life.sessionId (.jobFinished id status.val) now).move id life
        (.retiring status))
  | .retiring status, .next =>
      some
        { s.move id life (.erased status) with
          engine := { s.engine with cancels := s.engine.cancels.erase id }
          senders := s.senders.erase id }
  | _, _ => none

/-- A step of an attached stream; a read that ends it tells its client that
the job has finished. -/
def streamStep (s : Server) (i : Nat) (sid : SessionId) (a : Attached) (job : Job)
    (act : StreamAct) : Option Server :=
  (a.step false job act).map fun a' =>
    { s with
      streams := Function.update s.streams i (some (sid, a'))
      observed :=
        if act = .read ∧ a'.pc = .idle then
          { s.observed with
            ended := s.observed.ended ++ [(sid, a.stream.jobId, job.status)] }
        else s.observed }

end Server

/-- The server with any number of clients. `display` is `Error`'s
`to_string`. -/
def serverSystem (display : Error → String) : System Server ServerLabel where
  init s := s.engine.sessions = .new ∧ s.engine.jobs = .new ∧ s.engine.nextId = 1
    ∧ s.engine.cancels = ∅ ∧ s.engine.tasks = [] ∧ s.sessionCounter = 1 ∧ s.callCount = 0
    ∧ s.calls = ∅ ∧ s.lives = ∅ ∧ s.senders = ∅ ∧ s.channels = 0 ∧ s.sent = []
    ∧ s.streams = (fun _ => none) ∧ s.observed = .none
  step s
    | .sessionOpen env req token => some (s.sessionOpen env req token)
    | .request r => some (s.request r)
    | .cancelForSession sid =>
        some (s.begin (.killingAll sid (s.engine.jobs.listForSession sid) 0))
    | .advance call env now => (s.calls.lookup call).map (s.advance call env now)
    | .life id input now =>
        match s.lives.lookup id, s.engine.jobs.get id with
        | some life, some job => s.lifeStep display id life job now life.pc input
        | _, _ => none
    | .stream i act =>
        match s.streams i with
        | some (sid, a) => (s.engine.jobs.get a.stream.jobId).bind (s.streamStep i sid a · act)
        | none => none

/-- A server with no provider. -/
def Server.launched : Server where
  engine := ⟨.new, .new, 1, ∅, 64, .new, []⟩
  sessionCounter := 1
  callCount := 0
  calls := ∅
  lives := ∅
  senders := ∅
  channels := 0
  sent := []
  streams := fun _ => none
  observed := .none

theorem Server.launched_init (display : Error → String) :
    (serverSystem display).init .launched :=
  ⟨rfl, rfl, rfl, rfl, rfl, rfl, rfl, rfl, rfl, rfl, rfl, rfl, rfl, rfl⟩

/-- The session `s_1` is opened, by the call 0. -/
def openRun : List ServerLabel :=
  [.sessionOpen plainHost ⟨"/proj", .devNone, [⟨"proc.spawn"⟩]⟩ (some ⟨"ct_1"⟩),
    .advance 0 plainHost .unixEpoch]

/-- It starts a command by the call 1, up to the insertion of the job `j_1`. -/
def insertRun : List ServerLabel :=
  let next : ServerLabel := .advance 1 plainHost .unixEpoch
  openRun ++ [.request (.jobStart (request (.command "true") [])), next, next, next]

/-- The rest of `start`: the job's task is spawned. -/
def spawnRun : List ServerLabel := List.replicate 4 (.life ⟨"j_1"⟩ .next .unixEpoch)

/-- The child closes its pipes and exits: the task calls `finish_job`, up to
the terminal write. -/
def exitRun : List ServerLabel :=
  let drain (input : DrainInput) : ServerLabel := .life ⟨"j_1"⟩ (.drain input) .unixEpoch
  [drain .cancelPending, drain (.read .stdout .eof), drain .cancelPending,
    drain (.read .stderr .eof), drain (.reaped (.ok (some 0))), .life ⟨"j_1"⟩ .next .unixEpoch]

/-- What is left of `finish_job` after the terminal write. -/
def retireRun : List ServerLabel := List.replicate 4 (.life ⟨"j_1"⟩ .next .unixEpoch)

/-- The session asks for the job's status, by the call `call`. -/
def statusRun (call : Nat) : List ServerLabel :=
  [.request (.jobStatus ⟨⟨"s_1"⟩, "ct_1", ⟨"j_1"⟩⟩), .advance call plainHost .unixEpoch,
    .advance call plainHost .unixEpoch]

end Axp
