import Axp.Log

/-!
# Jobs and their tasks

A `Job` is the data shared behind one read-write lock. It is changed by a
single detached task, of which there are two: `drainer` reads a child
process's pipes (`run_to_completion`), `codeTask` waits for a component
(`run_code_to_completion`). Both reach the job through the same two calls,
`push_log` and `finish_job`, and both make the second one last.

`Task` is that common shape: a local state, and for each input from the
environment a silent move, a push with its continuation, or the final
`finish`, which has none. Whatever holds of every `Task` therefore holds of
both (`Axp.Attach`), and what is special to the drainer is proved about the
drainer (`Axp.Cancel`).
-/

namespace Axp

/-! ## The job -/

/-- Runtime job status. -/
inductive JobStatus where
  | pending
  | running
  | exited (code : Int)
  | killed
  | failed (reason : String)
deriving DecidableEq, Repr

def JobStatus.isTerminal : JobStatus → Bool
  | .exited _ => true
  | .killed => true
  | .failed _ => true
  | _ => false

/-- The statuses a job can end with. -/
abbrev TerminalStatus : Type := { status : JobStatus // status.isTerminal = true }

/-- The `job.status` response; the conversion to the wire keeps a status as it
is. -/
structure JobStatusResponse where
  jobId : JobId
  status : JobStatus
  seq : Nat
deriving DecidableEq, Repr

/-- A live job bound to a session. -/
structure Job where
  id : JobId
  sessionId : SessionId
  payload : JobPayload
  cwd : PathBuf
  status : JobStatus
  createdAt : SystemTime
  startedAt : Option SystemTime
  finishedAt : Option SystemTime
  replayLog : InMemoryJobReplayLog

namespace Job

/-- A new job in the `Pending` state. -/
def new (id : JobId) (sessionId : SessionId) (payload : JobPayload) (cwd : PathBuf)
    (replayLog : InMemoryJobReplayLog) (now : SystemTime) : Job where
  id := id
  sessionId := sessionId
  payload := payload
  cwd := cwd
  status := .pending
  createdAt := now
  startedAt := none
  finishedAt := none
  replayLog := replayLog

/-- The job `insert_running_job` stores. -/
def launched (id : JobId) (sessionId : SessionId) (payload : JobPayload) (cwd : PathBuf)
    (byteCap : Usize) (now : SystemTime) : Job :=
  { Job.new id sessionId payload cwd (InMemoryJobReplayLog.withCap byteCap) now with
    status := .running
    startedAt := some now }

/-- The body of `push_log`, under the write lock. -/
def pushLog (job : Job) (event : AppendLogEvent) : Result Nat × Job :=
  let (r, log) := job.replayLog.append event
  (r, { job with replayLog := log })

/-- The terminal write of `finish_job`, under the write lock. -/
def finish (job : Job) (status : JobStatus) (now : SystemTime) : Job :=
  { job with status := status, finishedAt := some now }

def events (job : Job) : List LogEvent := job.replayLog.events

/-- A push stores one event at the end, or is refused and leaves the job as
it was. -/
theorem pushLog_cases (job : Job) (e : AppendLogEvent) :
    ((job.pushLog e).1 = .ok job.events.length
        ∧ (job.pushLog e).2.events = job.events ++ [e.at job.events.length])
      ∨ ∃ err, (job.pushLog e).1 = .error err ∧ (job.pushLog e).2 = job := by
  rcases job.replayLog.append_cases e with ⟨hseq, hevents, -⟩ | hsame
  · exact Or.inl ⟨hseq, hevents⟩
  · refine Or.inr ⟨_, congrArg Prod.fst hsame, ?_⟩
    have hlog : (job.replayLog.append e).2 = job.replayLog := congrArg Prod.snd hsame
    simp only [pushLog, hlog]

end Job

/-! ## Frames -/

/-- Convert a buffered event into a wire frame. -/
def eventToFrame (jobId : JobId) (ev : LogEvent) : LogEventFrame where
  jobId := jobId
  seq := ev.seq
  stream := ev.stream
  data := ev.data.toList
  tsMillis :=
    match ev.timestamp.durationSince .unixEpoch with
    | .ok d => d.asMillis % 2 ^ 64
    | .error _ => 0

/-! ## Tasks -/

/-- What a task does next to its job. -/
inductive TaskAct (σ : Type) where
  | silent (next : σ)
  | pushLog (event : AppendLogEvent) (resume : Result Nat → σ)
  | finish (status : TerminalStatus)

/-- A job's task: its next action in a local state, under an input from its
environment; `none` where the task does not wait for that input. -/
structure Task (σ ι : Type) where
  act : σ → ι → Option (TaskAct σ)

/-! ### Draining a child process -/

/-- `DRAIN_BUF_SIZE`. -/
def drainBufSize : Nat := 8192

/-- A read of at most one buffer from a pipe. -/
inductive ReadOutcome where
  | data (chunk : Bytes) (now : SystemTime)
  | eof
  | failed

/-- What the `select!` finds, arm by arm: `cancel_rx` first, then a pipe, or
nothing ready; and after the loop the result of `child.wait()`, which is
`none` when the process was ended by a signal. -/
inductive DrainInput where
  | cancelReady
  | cancelPending
  | read (stream : LogStream) (outcome : ReadOutcome)
  | suspend
  | reaped (status : Except ErrorText (Option Int))

/-- Where the drainer is: at the head of the `select!`, past its first arm, or
waiting for the process. -/
inductive DrainPc where
  | top
  | polled
  | waiting
deriving DecidableEq, Repr

/-- The local state of `run_to_completion`; `killed` records that
`start_kill` has been called. -/
structure DrainState where
  pc : DrainPc
  outDone : Bool
  errDone : Bool
  cancelled : Bool
  overflowed : Bool
  killed : Bool
deriving DecidableEq, Repr

namespace DrainState

def start : DrainState :=
  { pc := .top, outDone := false, errDone := false, cancelled := false,
    overflowed := false, killed := false }

/-- The end of a loop turn: break once both pipes are done. -/
def turn (s : DrainState) : DrainState :=
  if s.outDone && s.errDone then { s with pc := .waiting } else { s with pc := .top }

def done (s : DrainState) : LogStream → Bool
  | .stdout => s.outDone
  | .stderr => s.errDone

def setDone (s : DrainState) : LogStream → DrainState
  | .stdout => { s with outDone := true }
  | .stderr => { s with errDone := true }

/-- The cancellation arm. -/
def onCancel (s : DrainState) : DrainState := { s with cancelled := true, killed := true }.turn

/-- After `push_log`: go on, or kill the child and stop reading. -/
def onPushed (s : DrainState) : Result Nat → DrainState
  | .ok _ => s.turn
  | .error _ =>
      { s with overflowed := true, killed := true, outDone := true, errDone := true }.turn

def finalStatus (s : DrainState) (status : Except ErrorText (Option Int)) :
    TerminalStatus :=
  if s.overflowed then ⟨.failed "log buffer overflow", rfl⟩
  else if s.cancelled then ⟨.killed, rfl⟩
  else
    match status with
    | .ok (some code) => ⟨.exited code, rfl⟩
    | .ok none => ⟨.killed, rfl⟩
    | .error reason => ⟨.failed reason, rfl⟩

end DrainState

/-- `run_to_completion`. -/
def drainer : Task DrainState DrainInput where
  act s input :=
    match s.pc, input with
    | .top, .cancelReady => if s.cancelled then none else some (.silent s.onCancel)
    | .top, .cancelPending => some (.silent { s with pc := .polled })
    | .polled, .suspend => some (.silent { s with pc := .top })
    | .polled, .read stream outcome =>
        if s.done stream then none
        else
          match outcome with
          | .data chunk now =>
              if 0 < chunk.len ∧ chunk.len ≤ drainBufSize then
                some (.pushLog { stream := stream, data := chunk, timestamp := now } s.onPushed)
              else none
          | .eof => some (.silent (s.setDone stream).turn)
          | .failed => some (.silent (s.setDone stream).turn)
    | .waiting, .reaped status => some (.finish (s.finalStatus status))
    | _, _ => none

/-! ### Waiting for a component -/

/-- How the component's run ends: its output, its error, or the failure of
the blocking task. -/
inductive CodeJoined where
  | output (result : Option Bytes)
  | failed (reason : String)
  | joinError (reason : String)

inductive CodeInput where
  | cancelReady
  | joined (result : CodeJoined) (now : SystemTime)
  | finish

inductive CodeState where
  | running
  | ending (status : TerminalStatus)
deriving DecidableEq

/-- The bytes of a text; no Rust string is longer than `isize::MAX` bytes. -/
def textBytes (s : String) : Bytes :=
  ⟨(utf8 s).take isizeMax, by rw [List.length_take]; omega⟩

/-- The text of a result, ended by a newline. -/
def textResult (text : Bytes) : Bytes :=
  if text.toList.getLast? = some 10 then text
  else ⟨(text.toList ++ [10]).take isizeMax, by rw [List.length_take]; omega⟩

/-- `run_code_to_completion`; `display` is the error's `to_string`. -/
def codeTask (display : Error → String) : Task CodeState CodeInput where
  act s input :=
    let pushText (stream : LogStream) (text : Bytes) (now : SystemTime) :=
      TaskAct.pushLog { stream := stream, data := textResult text, timestamp := now }
    match s, input with
    | .running, .cancelReady => some (.silent (.ending ⟨.killed, rfl⟩))
    | .running, .joined (.output (some text)) now =>
        some (pushText .stdout text now fun
          | .ok _ => .ending ⟨.exited 0, rfl⟩
          | .error e => .ending ⟨.failed (display e), rfl⟩)
    | .running, .joined (.output none) _ => some (.silent (.ending ⟨.exited 0, rfl⟩))
    | .running, .joined (.failed reason) now =>
        some (pushText .stderr (textBytes reason) now fun _ => .ending ⟨.failed reason, rfl⟩)
    | .running, .joined (.joinError reason) now =>
        some (pushText .stderr (textBytes reason) now fun _ => .ending ⟨.failed reason, rfl⟩)
    | .ending status, .finish => some (.finish status)
    | _, _ => none

end Axp
