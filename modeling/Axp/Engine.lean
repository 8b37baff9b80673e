import Axp.Attach
import Axp.Registry
import Axp.Sandbox
import Axp.Session

/-!
# The job engine

`start` in the order of its steps: look the session up, check the request and
prepare what it runs (`prepare`, which has no effect on the engine and ends
with the child spawned or the component's runner built), insert the job,
register its cancellation, record the audit event, and hand the job's task to
the runtime. Each step is a function of its own, because between any two of
them another request can run (`Axp.Lifecycle`); `start` is all of them in a
row.

What lies outside is the `Env`: the kernel, the filesystem, process creation,
and the base64, JSON and WebAssembly libraries.
-/

namespace Axp

/-! ## The environment -/

/-- What the engine asks of the host and of third-party libraries. -/
structure Env extends Kernel where
  canonicalize : PathBuf → Except ErrorText PathBuf
  spawn : Command → Except ErrorText Unit
  decodeBase64 : String → Except ErrorText (List UInt8)
  parseJson : String → Except ErrorText Value
  /-- `wasmtime::Engine::new` for the runner's configuration. -/
  newEngine : Except ErrorText Unit
  /-- tokio's runtime for the current thread. -/
  newRuntime : Except ErrorText Unit

/-! ## Checks -/

/-- Resolve an optional working directory against the workspace. -/
def resolveCwd (env : Env) (rel : Option String) (workspace : Workspace) : Result PathBuf :=
  let base :=
    match rel with
    | none => workspace.root
    | some r => workspace.root.join r
  match env.canonicalize base with
  | .error _ => .error (.workspaceViolation base)
  | .ok canonical =>
      if workspace.contains canonical then .ok canonical
      else .error (.workspaceViolation canonical)

/-- Every requested capability must be permitted by the session's grants. -/
def validateJobCapabilities (capabilities : CapabilitySet) : List WireCapability → Result Unit
  | [] => .ok ()
  | wire :: rest => do
      let rc ← RuntimeCapability.parse wire
      if capabilities.permits rc then validateJobCapabilities capabilities rest
      else .error (.capabilityDenied wire.str)

def decodeCodePayload (env : Env) (code : String) (lang : Option String) :
    Result (List UInt8) :=
  let decoded := (env.decodeBase64 code).mapError fun e =>
    Error.invalidCodePayload ("invalid base64: " ++ e)
  match lang with
  | some lang =>
      if lang ≠ "wasm-component" then
        .error (.invalidCodePayload ("unsupported language " ++ "`" ++ lang ++ "`"))
      else decoded
  | none => decoded

/-- Invoking a capability needs its `tool:<name>` grant, or `proc.spawn`. -/
def authorizeTool (capabilities : CapabilitySet) (name : String) : Result Unit :=
  if !capabilities.permits (.tool name) && !capabilities.permits .procSpawn then
    .error (.capabilityDenied ("tool:" ++ name))
  else .ok ()

/-! ## The sandbox policy of a job -/

/-- One turn of the loop over the grants. -/
def SandboxPolicy.addGrant (policy : SandboxPolicy) : RuntimeCapability → SandboxPolicy
  | .fsRead p => { policy with fsRead := policy.fsRead ++ [p] }
  | .fsWrite p => { policy with fsWrite := policy.fsWrite ++ [p] }
  | .netConnect _ => { policy with allowNetwork := true }
  | .procSpawn => { policy with allowProcSpawn := true }
  | .ptyOpen => policy
  | .tool _ => policy

def buildSandboxPolicy (tier : EnforcementTier) (workspace : Workspace)
    (capabilities : CapabilitySet) : SandboxPolicy :=
  capabilities.grants.foldl SandboxPolicy.addGrant
    { tier := tier
      fsRead := [workspace.root]
      fsWrite := []
      allowProcSpawn := false
      allowNetwork := false }

/-- `policy.apply(&mut cmd).map_err(..)`. -/
def applyPolicy (env : Env) (policy : SandboxPolicy) (cmd : Command) : Result Command :=
  (policy.apply env.toKernel cmd).mapError fun
    | .unavailable tier reason => .sandboxUnavailable (.unavailable tier reason)
    | .apply reason => .sandboxApply (.apply reason)

/-! ## Preparing a job -/

/-- What a job runs: a shell string, or a resolved capability. -/
inductive Runnable where
  | shell (text : String)
  | argv (resolved : ResolvedCommand)

namespace Runnable

def command (cwd : PathBuf) (r : Runnable) : Command :=
  let base : Command :=
    match r with
    | .shell text => { Command.new "sh" with args := ["-c", text] }
    | .argv resolved => { Command.new resolved.program with args := resolved.args }
  { base with
    currentDir := some cwd
    stdin := .null
    stdout := .piped
    stderr := .piped
    killOnDrop := true }

/-- The policy of the session, with the one spawn a named tool needs. -/
def policy (session : Session) : Runnable → SandboxPolicy
  | .shell _ => buildSandboxPolicy session.tier session.workspace session.capabilities
  | .argv _ =>
      { buildSandboxPolicy session.tier session.workspace session.capabilities with
        allowProcSpawn := true }

end Runnable

/-- What `axp:capability/invoke` runs under. -/
structure CodeCapabilityContext where
  capabilities : CapabilitySet
  workspace : Workspace
  tier : EnforcementTier
  cwd : PathBuf
  stdoutByteCap : Usize

/-- The context of a component run for the session. -/
def Session.context (session : Session) (cwd : PathBuf) (stdoutByteCap : Usize) :
    CodeCapabilityContext where
  capabilities := session.capabilities
  workspace := session.workspace
  tier := session.tier
  cwd := cwd
  stdoutByteCap := stdoutByteCap

/-- The policy of a host call's command. -/
def CodeCapabilityContext.policy (self : CodeCapabilityContext) : SandboxPolicy :=
  { buildSandboxPolicy self.tier self.workspace self.capabilities with allowProcSpawn := true }

/-- What a job's task works on: a spawned child with the policy applied to it,
or a component with the context of its host calls. -/
inductive Work where
  | child (cmd : Command) (policy : SandboxPolicy)
  | component (bytes : List UInt8) (context : CodeCapabilityContext)

/-- Everything validated and ready, before the job exists. -/
structure Launch where
  cwd : PathBuf
  work : Work

/-- Steps 3 to 7 of `start`, for a child process. -/
def prepareChild (env : Env) (session : Session) (req : JobStartRequest) (runnable : Runnable) :
    Result Launch := do
  let cwd ← resolveCwd env req.cwd session.workspace
  validateJobCapabilities session.capabilities req.capabilities
  let policy := runnable.policy session
  let cmd ← applyPolicy env policy (runnable.command cwd)
  (env.spawn cmd).mapError .jobSpawn
  return ⟨cwd, .child cmd policy⟩

/-- The code payload: its checks, and the runner of `start_code_job`. -/
def prepareCode (env : Env) (logByteCap : Usize) (session : Session) (req : JobStartRequest)
    (code : String) (lang : Option String) : Result Launch := do
  let bytes ← decodeCodePayload env code lang
  let cwd ← resolveCwd env req.cwd session.workspace
  validateJobCapabilities session.capabilities req.capabilities
  env.newEngine.mapError .jobSpawn
  return ⟨cwd, .component bytes (session.context cwd logByteCap)⟩

/-- Step 2 of `start`, and what follows up to the job's creation. -/
def prepare (env : Env) (registry : ProviderRegistry) (logByteCap : Usize) (session : Session)
    (req : JobStartRequest) : Result Launch :=
  match req.payload with
  | .command command =>
      if !session.capabilities.permits .procSpawn then
        .error (.capabilityDenied "proc.spawn")
      else prepareChild env session req (.shell command)
  | .code code lang => prepareCode env logByteCap session req code lang
  | .capability name params => do
      authorizeTool session.capabilities name
      let resolved ← registry.resolve name params
      prepareChild env session req (.argv resolved)

/-- What `invoke_code_capability` runs, and under which policy. -/
def resolveInvocation (env : Env) (registry : ProviderRegistry)
    (context : CodeCapabilityContext) (name paramsJson : String) :
    Result (ResolvedCommand × SandboxPolicy) := do
  authorizeTool context.capabilities name
  let params ← (env.parseJson paramsJson).mapError fun e =>
    Error.capabilityParse paramsJson ("invalid params JSON: " ++ e)
  let resolved ← registry.resolve name params
  return (resolved, context.policy)

/-! ## The job store -/

structure JobStore where
  jobs : HashMap JobId Job
  bySession : HashMap SessionId (List JobId)

namespace JobStore

def new : JobStore := ⟨∅, ∅⟩

/-- Index a job by its id and under its session. -/
def insert (self : JobStore) (job : Job) : JobStore where
  jobs := self.jobs.insert job.id job
  bySession := self.bySession.insert job.sessionId
    ((self.bySession.lookup job.sessionId).getD [] ++ [job.id])

def get (self : JobStore) (id : JobId) : Option Job := self.jobs.lookup id

def listForSession (self : JobStore) (sid : SessionId) : List JobId :=
  (self.bySession.lookup sid).getD []

/-- Write through the job's own lock. -/
def modify (self : JobStore) (id : JobId) (f : Job → Job) : JobStore :=
  match self.get id with
  | some job => { self with jobs := self.jobs.insert id (f job) }
  | none => self

/-- Take a job out of the store, and its id out of the index of its session. -/
def remove (self : JobStore) (id : JobId) : Option Job × JobStore :=
  match self.jobs.lookup id with
  | none => (none, self)
  | some job =>
      (some job,
        { jobs := self.jobs.erase id
          bySession :=
            match self.bySession.lookup job.sessionId with
            | some ids => self.bySession.insert job.sessionId (ids.filter (· ≠ id))
            | none => self.bySession })

end JobStore

/-! ## The engine -/

/-- What else than the signal a cancellation reaches. -/
inductive CancelEntry where
  | child
  | component
deriving DecidableEq, Repr

/-- The entry a launch registers. -/
def Work.cancelEntry : Work → CancelEntry
  | .child .. => .child
  | .component .. => .component

/-- A task handed to the runtime. -/
structure SpawnedTask where
  jobId : JobId
  sessionId : SessionId
  work : Work

/-- The engine with the stores it shares. Job ids come from a 64-bit counter,
taken not to have wrapped. -/
structure JobEngine where
  sessions : SessionStore
  jobs : JobStore
  nextId : Nat
  cancels : HashMap JobId CancelEntry
  logByteCap : Usize
  registry : ProviderRegistry
  tasks : List SpawnedTask

namespace JobEngine

/-- `insert_running_job`. -/
def insertRunningJob (self : JobEngine) (req : JobStartRequest) (cwd : PathBuf)
    (now : SystemTime) : JobId × JobEngine :=
  let id : JobId := ⟨"j_" ++ toString self.nextId⟩
  let job := Job.launched id req.sessionId req.payload cwd self.logByteCap now
  (id, { self with nextId := self.nextId + 1, jobs := self.jobs.insert job })

/-- Register the cancellation channel. -/
def registerCancel (self : JobEngine) (id : JobId) (entry : CancelEntry) : JobEngine :=
  { self with cancels := self.cancels.insert id entry }

/-- `record_session_audit`. -/
def recordSessionAudit (self : JobEngine) (sid : SessionId) (kind : AuditEventKind)
    (now : SystemTime) : JobEngine :=
  { self with sessions := self.sessions.record sid kind now }

/-- Hand the task to the runtime. -/
def spawnTask (self : JobEngine) (task : SpawnedTask) : JobEngine :=
  { self with tasks := self.tasks ++ [task] }

/-- `kill_job`: take the entry, and with it the sender of the signal. -/
def killJob (self : JobEngine) (id : JobId) : Result Unit × JobEngine :=
  match self.cancels.lookup id with
  | some _ => (.ok (), { self with cancels := self.cancels.erase id })
  | none => (.error (.jobNotFound id), self)

/-- A job that is not the session's own is not found. -/
def lookupOwned (self : JobEngine) (sid : SessionId) (id : JobId) : Result Job := do
  let job ← okOr (self.jobs.get id) (.jobNotFound id)
  if job.sessionId = sid then .ok job else .error (.jobNotFound id)

/-- `status`. -/
def status (self : JobEngine) (req : JobStatusRequest) : Result JobStatusResponse := do
  let job ← self.lookupOwned req.sessionId req.jobId
  return { jobId := req.jobId, status := job.status, seq := job.replayLog.nextSeq }

/-- `attach`: the stream, and the job its handle refers to. -/
def attach (self : JobEngine) (req : JobAttachRequest) : Result (JobLogStream × Job) := do
  let job ← self.lookupOwned req.sessionId req.jobId
  return ({ jobId := req.jobId, cursor := req.fromOffset, pending := [] }, job)

/-- The effect of a `cancel` whose caller owns the job, and its answer. -/
def cancelOwned (self : JobEngine) (id : JobId) : Result JobCancelResponse × JobEngine :=
  match self.killJob id with
  | (.ok (), self) => (.ok { ok := true }, self)
  | (.error (.jobNotFound _), self) => (.ok { ok := false }, self)
  | (.error e, self) => (.error e, self)

/-- `cancel`. -/
def cancel (self : JobEngine) (req : JobCancelRequest) :
    Result JobCancelResponse × JobEngine :=
  match self.lookupOwned req.sessionId req.jobId with
  | .ok _ => self.cancelOwned req.jobId
  | .error e => (.error e, self)

/-- Start a job: validate, spawn the work, and launch its completion task. -/
def start (env : Env) (now : SystemTime) (self : JobEngine) (req : JobStartRequest) :
    Result JobId × JobEngine :=
  match self.sessions.get req.sessionId with
  | none => (.error (.sessionNotFound req.sessionId), self)
  | some session =>
      match prepare env self.registry self.logByteCap session req with
      | .error e => (.error e, self)
      | .ok launch =>
          let (id, self) := self.insertRunningJob req launch.cwd now
          let self := self.registerCancel id launch.work.cancelEntry
          let self := self.recordSessionAudit req.sessionId (.jobStarted id) now
          (.ok id, self.spawnTask ⟨id, req.sessionId, launch.work⟩)

end JobEngine

end Axp
