import Axp.Attach

/-!
# Cancelling a running child

The drainer of one job together with what it listens to: the child process
with its two pipes, and the job's entry in the cancellation table. A cancel
removes the entry and sends its signal; the drainer sees the signal only when
it polls `cancel_rx`, the first arm of its `select!`.

`promised` is not part of the code. It records that a cancel has answered
`ok: true`, or counted the job, while the child had not exited; a caller is
then owed a killed child. The drainer keeps that promise as long as it is
still going to poll the channel: `cancel_takes_effect` proves it for all runs
in which no cancel arrives after the last poll (`Heard`), and
`cancel_after_eof_ignored` is the run in which one does, on a child that
closed its pipes and went on running.

The child adds nothing to what the log's readers can see: with it the drainer is
one of the tasks of `attachSystem` (`cancel_simulation`), so what holds of all
attached jobs holds of this one (`cancel_reach`).
-/

namespace Axp

open Lts

/-! ## The surroundings of a drainer -/

/-- The read end of a pipe: what is buffered in it, and whether anybody still
holds the write end. -/
structure PipeEnd where
  buffered : List UInt8
  writable : Bool
deriving DecidableEq, Repr

/-- A read would not block. -/
def PipeEnd.ready (p : PipeEnd) : Bool := !p.buffered.isEmpty || !p.writable

/-- The child process; `exit` is what `wait` reports once it has exited. -/
structure Child where
  exit : Option (Option Int)
  stdout : PipeEnd
  stderr : PipeEnd
deriving DecidableEq, Repr

namespace Child

def start : Child := { exit := none, stdout := ⟨[], true⟩, stderr := ⟨[], true⟩ }

def alive (c : Child) : Bool := c.exit.isNone

def pipe (c : Child) : LogStream → PipeEnd
  | .stdout => c.stdout
  | .stderr => c.stderr

def setPipe (c : Child) (p : PipeEnd) : LogStream → Child
  | .stdout => { c with stdout := p }
  | .stderr => { c with stderr := p }

end Child

/-- One job, its drainer, the child, and the job's slot in the cancellation
table: whether its entry is there, and whether its signal has been sent. -/
structure CancelState where
  job : Job
  drain : DrainState
  ended : Bool
  child : Child
  entry : Bool
  signalled : Bool
  promised : Bool

inductive CancelLabel where
  | childWrite (stream : LogStream) (bytes : List UInt8)
  | childClose (stream : LogStream)
  | childExit (code : Option Int)
  | drain (input : DrainInput) (now : SystemTime)
  | retire
  | cancel (caller : SessionId)
  | cancelForSession (session : SessionId)

namespace CancelState

/-- `kill_job` on this job's slot. -/
def killJob (s : CancelState) : Result Unit × CancelState :=
  if s.entry then (.ok (), { s with entry := false, signalled := true })
  else (.error (.jobNotFound s.job.id), s)

/-- `JobEngine::cancel` for this job. -/
def cancel (s : CancelState) (caller : SessionId) : Result JobCancelResponse × CancelState :=
  if s.job.sessionId = caller then
    match s.killJob with
    | (.ok (), s) => (.ok { ok := true }, s)
    | (.error (.jobNotFound _), s) => (.ok { ok := false }, s)
    | (.error e, s) => (.error e, s)
  else (.error (.jobNotFound s.job.id), s)

/-- This job's share in `JobEngine::cancel_for_session`: how often it is
counted. -/
def cancelForSession (s : CancelState) (session : SessionId) : Nat × CancelState :=
  if s.job.sessionId = session then
    match s.killJob with
    | (.ok (), s) => (1, s)
    | (.error _, s) => (0, s)
  else (0, s)

/-- The caller has been told that the job was signalled. -/
def promise (s : CancelState) (told : Bool) : CancelState :=
  { s with promised := s.promised || (told && s.child.alive) }

/-- What a read of a pipe can return now. -/
def offersRead (s : CancelState) (stream : LogStream) : ReadOutcome → Bool
  | .data chunk _ => chunk.toList.isPrefixOf (s.child.pipe stream).buffered
  | .eof => (s.child.pipe stream).buffered.isEmpty && !(s.child.pipe stream).writable
  | .failed => true

@[simp] theorem promise_false (s : CancelState) : s.promise false = s := by
  simp [promise]

/-- The state after a call that has signalled the job. -/
def signal (s : CancelState) : CancelState := { s with entry := false, signalled := true }

/-- A cancel, and what its caller is told. -/
def callCancel (s : CancelState) (caller : SessionId) : CancelState :=
  (s.cancel caller).2.promise ((s.cancel caller).1 = .ok { ok := true })

def callCancelForSession (s : CancelState) (session : SessionId) : CancelState :=
  (s.cancelForSession session).2.promise ((s.cancelForSession session).1 = 1)

/-- A cancel signals the job and says so, or does nothing and says that. -/
theorem callCancel_cases (s : CancelState) (caller : SessionId) :
    (s.job.sessionId = caller ∧ s.entry = true
        ∧ s.callCancel caller = s.signal.promise true) ∨ s.callCancel caller = s := by
  unfold callCancel cancel killJob
  by_cases howner : s.job.sessionId = caller
  · rw [if_pos howner]
    by_cases hentry : s.entry = true
    · rw [if_pos hentry]
      exact Or.inl ⟨howner, hentry, by simp [signal]⟩
    · rw [if_neg hentry]
      exact Or.inr (by simp)
  · rw [if_neg howner]
    exact Or.inr (by simp)

theorem callCancelForSession_cases (s : CancelState) (session : SessionId) :
    (s.job.sessionId = session ∧ s.entry = true
        ∧ s.callCancelForSession session = s.signal.promise true)
      ∨ s.callCancelForSession session = s := by
  unfold callCancelForSession cancelForSession killJob
  by_cases howner : s.job.sessionId = session
  · rw [if_pos howner]
    by_cases hentry : s.entry = true
    · rw [if_pos hentry]
      exact Or.inl ⟨howner, hentry, by simp [signal]⟩
    · rw [if_neg hentry]
      exact Or.inr (by simp)
  · rw [if_neg howner]
    exact Or.inr (by simp)

/-- The input is one the drainer can be given now. The arms of the `select!`
are tried in order, so standard error is read only if standard output is not
ready. -/
def offers (s : CancelState) : DrainInput → Bool
  | .cancelReady => s.signalled
  | .cancelPending => s.drain.cancelled || !s.signalled
  | .read .stdout outcome => s.offersRead .stdout outcome
  | .read .stderr outcome =>
      (s.drain.outDone || !s.child.stdout.ready) && s.offersRead .stderr outcome
  | .suspend => (s.drain.outDone || !s.child.stdout.ready)
      && (s.drain.errDone || !s.child.stderr.ready)
  | .reaped (.ok code) => s.child.exit = some code
  | .reaped (.error _) => true

/-- The pipes after the drainer has been given an input. -/
def consume (c : Child) : DrainInput → Child
  | .read stream (.data chunk _) =>
      let p := c.pipe stream
      c.setPipe { p with buffered := p.buffered.drop chunk.len } stream
  | _ => c

/-- One move of the drainer, with its `push_log` or `finish_job`. -/
def drainStep (s : CancelState) (input : DrainInput) (now : SystemTime) :
    Option CancelState :=
  if s.ended = false ∧ s.offers input = true then
    (drainer.act s.drain input).map fun
      | .silent d => { s with drain := d, child := consume s.child input }
      | .pushLog event resume =>
          let (r, job) := s.job.pushLog event
          { s with job := job, drain := resume r, child := consume s.child input }
      | .finish status => { s with job := s.job.finish status.val now, ended := true }
  else none

end CancelState

/-- A launched job whose entry is in the cancellation table. -/
def cancelSystem : System CancelState CancelLabel where
  init s := s.job.status.isTerminal = false ∧ s.drain = .start ∧ s.ended = false
    ∧ s.child = .start ∧ s.entry = true ∧ s.signalled = false ∧ s.promised = false
  step s
    | .childWrite stream bytes =>
        let p := s.child.pipe stream
        if p.writable = true then
          some { s with child := s.child.setPipe { p with buffered := p.buffered ++ bytes } stream }
        else none
    | .childClose stream =>
        let p := s.child.pipe stream
        some { s with child := s.child.setPipe { p with writable := false } stream }
    | .childExit code =>
        if s.child.alive = true then some { s with child := { s.child with exit := some code } }
        else none
    | .drain input now => s.drainStep input now
    | .retire => if s.ended = true then some { s with entry := false } else none
    | .cancel caller => some (s.callCancel caller)
    | .cancelForSession session => some (s.callCancelForSession session)

/-! ## The same job, attached -/

/-- The job, and the drainer where the attached system has it between its
calls into the job; nobody is attached. -/
def SameJob (s : CancelState) (t : AttachState DrainState) : Prop :=
  t.job = s.job ∧ t.writer = (if s.ended then .done else .running s.drain)
    ∧ ∀ i, t.streams i = none

theorem notifyWaiters_none {streams : Nat → Option Attached} (h : ∀ i, streams i = none)
    (i : Nat) : AttachState.notifyWaiters streams i = none := by
  rw [AttachState.notifyWaiters, h i]
  rfl

/-- `push_log` without interruption, on a job nobody is attached to. -/
theorem pushLog_run (task : Task DrainState DrainInput) (job : Job) (event : AppendLogEvent)
    (resume : Result Nat → DrainState) (now : SystemTime) {streams : Nat → Option Attached}
    (h : ∀ i, streams i = none) :
    ∃ t, (attachSystem task).run ⟨job, .appending event resume, streams⟩
        [.write now, .write now, .write now] = some t
      ∧ t.job = (job.pushLog event).2 ∧ t.writer = .running (resume (job.pushLog event).1)
      ∧ ∀ i, t.streams i = none := by
  cases hr : (job.pushLog event).1 with
  | ok seq =>
      refine ⟨⟨(job.pushLog event).2, .running (resume (.ok seq)),
        AttachState.notifyWaiters streams⟩, ?_, rfl, rfl, notifyWaiters_none h⟩
      simp [System.run, attachSystem, AttachState.writeStep, hr]
  | error e =>
      refine ⟨⟨(job.pushLog event).2, .running (resume (.error e)), streams⟩, ?_, rfl, rfl, h⟩
      simp [System.run, attachSystem, AttachState.writeStep, hr]

/-- `finish_job` without interruption. -/
theorem finish_run (task : Task DrainState DrainInput) (job : Job) (status : TerminalStatus)
    (now : SystemTime) (streams : Nat → Option Attached) :
    (attachSystem task).run ⟨job, .finishing status, streams⟩
        [.write now, .write now, .write now]
      = some ⟨job.finish status.val now, .done, AttachState.notifyWaiters streams⟩ := by
  simp [System.run, attachSystem, AttachState.writeStep]

/-- The drainer with its child is a task on an attached job: each of its
moves is the task's input there, followed by the effects of the call it makes
into the job. -/
theorem cancel_simulation : Simulation cancelSystem (attachSystem drainer) SameJob where
  init := by
    rintro s ⟨hrun, -, hended, -⟩
    refine ⟨⟨s.job, .running s.drain, fun _ => none⟩, ⟨hrun, ⟨_, rfl⟩, fun _ => rfl⟩,
      rfl, ?_, fun _ => rfl⟩
    rw [hended]
    rfl
  step := by
    rintro s l s' t ⟨hjob, hwriter, hnone⟩ hs
    cases l with
    | drain input now =>
        simp only [cancelSystem, CancelState.drainStep] at hs
        split at hs
        · rename_i hcond
          obtain ⟨job, writer, streams⟩ := t
          simp only [hcond.1, Bool.false_eq_true, if_false] at hjob hwriter hnone
          subst hjob hwriter
          obtain ⟨act, hact, rfl⟩ := Option.map_eq_some_iff.mp hs
          cases act with
          | silent d =>
              refine ⟨[.task input], ⟨s.job, .running d, streams⟩, ?_, rfl, ?_, hnone⟩
              · simp [System.run, attachSystem, AttachState.taskStep, hact]
              · simp [hcond.1]
          | pushLog event resume =>
              obtain ⟨t, hrun, hjob, hwriter, hnone'⟩ :=
                pushLog_run drainer s.job event resume now hnone
              refine ⟨.task input :: [.write now, .write now, .write now], t, ?_, hjob, ?_,
                hnone'⟩
              · refine System.run_cons.mpr ⟨⟨s.job, .appending event resume, streams⟩, ?_, hrun⟩
                simp [attachSystem, AttachState.taskStep, hact]
              · simp [hcond.1, hwriter]
          | finish status =>
              refine ⟨.task input :: [.write now, .write now, .write now],
                ⟨s.job.finish status.val now, .done, AttachState.notifyWaiters streams⟩,
                ?_, rfl, rfl, notifyWaiters_none hnone⟩
              refine System.run_cons.mpr ⟨⟨s.job, .finishing status, streams⟩, ?_,
                finish_run drainer s.job status now streams⟩
              simp [attachSystem, AttachState.taskStep, hact]
        · cases hs
    | childWrite stream bytes =>
        obtain ⟨-, rfl⟩ := guard_eq_some.mp hs
        exact ⟨[], t, rfl, hjob, hwriter, hnone⟩
    | childClose stream =>
        obtain rfl := Option.some.inj hs
        exact ⟨[], t, rfl, hjob, hwriter, hnone⟩
    | childExit code =>
        obtain ⟨-, rfl⟩ := guard_eq_some.mp hs
        exact ⟨[], t, rfl, hjob, hwriter, hnone⟩
    | retire =>
        obtain ⟨-, rfl⟩ := guard_eq_some.mp hs
        exact ⟨[], t, rfl, hjob, hwriter, hnone⟩
    | cancel caller =>
        obtain rfl : s.callCancel caller = s' := Option.some.inj hs
        rcases s.callCancel_cases caller with ⟨-, -, hcall⟩ | hcall
        · rw [hcall]
          exact ⟨[], t, rfl, hjob, hwriter, hnone⟩
        · rw [hcall]
          exact ⟨[], t, rfl, hjob, hwriter, hnone⟩
    | cancelForSession session =>
        obtain rfl : s.callCancelForSession session = s' := Option.some.inj hs
        rcases s.callCancelForSession_cases session with ⟨-, -, hcall⟩ | hcall
        · rw [hcall]
          exact ⟨[], t, rfl, hjob, hwriter, hnone⟩
        · rw [hcall]
          exact ⟨[], t, rfl, hjob, hwriter, hnone⟩

/-- Whatever a run with a child comes to, attached streams can come to with
it. -/
theorem cancel_reach {s : CancelState} (h : Reach cancelSystem s) :
    ∃ t, Reach (attachSystem drainer) t ∧ SameJob s t := cancel_simulation.reach h

/-! ## What the drainer can do -/

/-- The moves of `run_to_completion`, one per arm. -/
inductive Drains (d : DrainState) : DrainInput → TaskAct DrainState → Prop
  | cancel : d.pc = .top → d.cancelled = false → Drains d .cancelReady (.silent d.onCancel)
  | poll : d.pc = .top → Drains d .cancelPending (.silent { d with pc := .polled })
  | suspend : d.pc = .polled → Drains d .suspend (.silent { d with pc := .top })
  | data (stream : LogStream) (chunk : Bytes) (now : SystemTime) : d.pc = .polled →
      d.done stream = false → Drains d (.read stream (.data chunk now))
        (.pushLog { stream := stream, data := chunk, timestamp := now } d.onPushed)
  | endOfPipe (stream : LogStream) (outcome : ReadOutcome) : d.pc = .polled →
      outcome = .eof ∨ outcome = .failed →
      Drains d (.read stream outcome) (.silent (d.setDone stream).turn)
  | reaped (status : Except ErrorText (Option Int)) : d.pc = .waiting →
      Drains d (.reaped status) (.finish (d.finalStatus status))

theorem drainer_cases {d : DrainState} {input : DrainInput} {act : TaskAct DrainState}
    (h : drainer.act d input = some act) : Drains d input act := by
  simp only [drainer] at h
  split at h
  · rename_i hpc
    split at h
    · cases h
    · rename_i hc
      obtain rfl := Option.some.inj h
      exact .cancel hpc (Bool.eq_false_iff.mpr hc)
  · rename_i hpc
    obtain rfl := Option.some.inj h
    exact .poll hpc
  · rename_i hpc
    obtain rfl := Option.some.inj h
    exact .suspend hpc
  · rename_i stream outcome hpc
    split at h
    · cases h
    · rename_i hdone
      split at h
      · obtain ⟨-, rfl⟩ := guard_eq_some.mp h
        exact .data stream _ _ hpc (Bool.eq_false_iff.mpr hdone)
      · obtain rfl := Option.some.inj h
        exact .endOfPipe stream _ hpc (Or.inl rfl)
      · obtain rfl := Option.some.inj h
        exact .endOfPipe stream _ hpc (Or.inr rfl)
  · rename_i hpc
    obtain rfl := Option.some.inj h
    exact .reaped _ hpc
  · cases h

namespace DrainState

@[simp] theorem turn_cancelled (d : DrainState) : d.turn.cancelled = d.cancelled := by
  unfold turn
  split <;> rfl

@[simp] theorem turn_overflowed (d : DrainState) : d.turn.overflowed = d.overflowed := by
  unfold turn
  split <;> rfl

@[simp] theorem turn_killed (d : DrainState) : d.turn.killed = d.killed := by
  unfold turn
  split <;> rfl

/-- The loop goes on unless both pipes are done. -/
theorem turn_pc_ne_waiting {d : DrainState} (h : (d.outDone && d.errDone) = false) :
    d.turn.pc ≠ .waiting := by
  unfold turn
  rw [h]
  exact DrainPc.noConfusion

@[simp] theorem setDone_cancelled (d : DrainState) (stream : LogStream) :
    (d.setDone stream).cancelled = d.cancelled := by
  cases stream <;> rfl

@[simp] theorem setDone_overflowed (d : DrainState) (stream : LogStream) :
    (d.setDone stream).overflowed = d.overflowed := by
  cases stream <;> rfl

@[simp] theorem setDone_killed (d : DrainState) (stream : LogStream) :
    (d.setDone stream).killed = d.killed := by
  cases stream <;> rfl

theorem not_both_done {d : DrainState} {stream : LogStream} (h : d.done stream = false) :
    (d.outDone && d.errDone) = false := by
  cases stream with
  | stdout => rw [show d.outDone = false from h, Bool.false_and]
  | stderr => rw [show d.errDone = false from h, Bool.and_false]

/-- The read ends the loop: the last open pipe is at its end. -/
def lastRead (d : DrainState) : DrainInput → Bool
  | .read stream .eof => (d.setDone stream).outDone && (d.setDone stream).errDone
  | .read stream .failed => (d.setDone stream).outDone && (d.setDone stream).errDone
  | _ => false

theorem finalStatus_overflowed {d : DrainState} (h : d.overflowed = true)
    (status : Except ErrorText (Option Int)) :
    (d.finalStatus status).val = .failed "log buffer overflow" := by
  unfold finalStatus
  rw [if_pos h]

theorem finalStatus_cancelled {d : DrainState} (ho : d.overflowed = false)
    (h : d.cancelled = true) (status : Except ErrorText (Option Int)) :
    (d.finalStatus status).val = .killed := by
  unfold finalStatus
  rw [ho, if_neg Bool.false_ne_true, if_pos h]

/-- Somebody has been told that the child is being killed, and the child has
been, or the channel is still going to be polled. -/
structure Kept (d : DrainState) (signalled promised : Bool) : Prop where
  heard : promised = true →
    d.cancelled = true ∨ d.overflowed = true ∨ (signalled = true ∧ d.pc ≠ .waiting)
  killed : d.cancelled = true ∨ d.overflowed = true → d.killed = true

end DrainState

/-- A cancel reaches the drainer: one that is answered with success while the
child is alive comes before the drainer has left its loop, or after the log
has overflowed; and while such a signal is waiting, the drainer does not
leave the loop without polling the channel once more. -/
def Heard (s : CancelState) : CancelLabel → Prop
  | .cancel caller => s.job.sessionId = caller → s.entry = true → s.child.alive = true →
      s.drain.pc ≠ .waiting ∨ s.drain.overflowed = true
  | .cancelForSession session => s.job.sessionId = session → s.entry = true →
      s.child.alive = true → s.drain.pc ≠ .waiting ∨ s.drain.overflowed = true
  | .drain input _ => s.promised = true → s.drain.cancelled = false →
      s.drain.overflowed = false → s.drain.lastRead input = false
  | _ => True

instance (s : CancelState) (l : CancelLabel) : Decidable (Heard s l) := by
  cases l <;> unfold Heard <;> infer_instance

structure CancelInv (s : CancelState) : Prop where
  kept : s.drain.Kept s.signalled s.promised
  ended : s.ended = true → s.drain.pc = .waiting
    ∧ ∃ status, s.job.status = (s.drain.finalStatus status).val
  running : s.ended = false → s.job.status.isTerminal = false

namespace CancelInv

variable {s s' : CancelState}

theorem init (h : cancelSystem.init s) : CancelInv s := by
  obtain ⟨hrun, hdrain, hended, -, -, -, hpromised⟩ := h
  refine ⟨⟨fun hp => ?_, ?_⟩, fun he => ?_, fun _ => hrun⟩
  · rw [hpromised] at hp
    cases hp
  · rw [hdrain]
    decide
  · rw [hended] at he
    cases he

theorem drainStep {input : DrainInput} {now : SystemTime} (h : CancelInv s)
    (hheard : Heard s (.drain input now)) (hs : s.drainStep input now = some s') :
    CancelInv s' := by
  unfold CancelState.drainStep at hs
  split at hs
  · rename_i hcond
    obtain ⟨hended, hoffers⟩ := hcond
    have hrun := h.running hended
    obtain ⟨act, hact, rfl⟩ := Option.map_eq_some_iff.mp hs
    have hnot : ∀ {P : Prop}, s.ended = true → P := fun he => by
      rw [hended] at he
      cases he
    cases drainer_cases hact with
    | cancel hpc hc =>
        refine ⟨⟨fun _ => Or.inl ?_, fun _ => ?_⟩, hnot, fun _ => hrun⟩
        · simp [DrainState.onCancel]
        · simp [DrainState.onCancel]
    | poll hpc =>
        refine ⟨⟨fun hp => ?_, h.kept.killed⟩, hnot, fun _ => hrun⟩
        refine (h.kept.heard hp).imp_right (Or.imp_right fun hsig => ⟨hsig.1, ?_⟩)
        exact DrainPc.noConfusion
    | suspend hpc =>
        refine ⟨⟨fun hp => ?_, h.kept.killed⟩, hnot, fun _ => hrun⟩
        refine (h.kept.heard hp).imp_right (Or.imp_right fun hsig => ⟨hsig.1, ?_⟩)
        exact DrainPc.noConfusion
    | data stream chunk now' hpc hdone =>
        refine ⟨?_, hnot, fun _ => hrun⟩
        show DrainState.Kept (s.drain.onPushed _) _ _
        cases s.job.pushLog { stream := stream, data := chunk, timestamp := now' } |>.1 with
        | ok seq =>
            refine ⟨fun hp => ?_, ?_⟩
            · simp only [DrainState.onPushed, DrainState.turn_cancelled,
                DrainState.turn_overflowed]
              exact (h.kept.heard hp).imp_right (Or.imp_right fun hsig =>
                ⟨hsig.1, DrainState.turn_pc_ne_waiting (DrainState.not_both_done hdone)⟩)
            · simpa [DrainState.onPushed] using h.kept.killed
        | error e =>
            refine ⟨fun _ => Or.inr (Or.inl ?_), fun _ => ?_⟩
            · simp [DrainState.onPushed]
            · simp [DrainState.onPushed]
    | endOfPipe stream outcome hpc hout =>
        refine ⟨⟨fun hp => ?_, ?_⟩, hnot, fun _ => hrun⟩
        · simp only [DrainState.turn_cancelled, DrainState.turn_overflowed,
            DrainState.setDone_cancelled, DrainState.setDone_overflowed]
          rcases hc : s.drain.cancelled with _ | _
          · rcases ho : s.drain.overflowed with _ | _
            · have hlast : ((s.drain.setDone stream).outDone
                  && (s.drain.setDone stream).errDone) = false := by
                have := hheard hp hc ho
                rcases hout with rfl | rfl <;> exact this
              rcases h.kept.heard hp with hc' | ho' | hsig
              · rw [hc] at hc'; cases hc'
              · rw [ho] at ho'; cases ho'
              · exact Or.inr (Or.inr ⟨hsig.1, DrainState.turn_pc_ne_waiting hlast⟩)
            · exact Or.inr (Or.inl rfl)
          · exact Or.inl rfl
        · simpa using h.kept.killed
    | reaped status hpc =>
        refine ⟨h.kept, fun _ => ⟨hpc, status, rfl⟩, fun he => ?_⟩
        cases he
  · cases hs

/-- A call that signals the job makes a promise only while the child is alive,
and then the drainer is still to hear it. -/
theorem signal (h : CancelInv s)
    (hheard : s.child.alive = true → s.drain.pc ≠ .waiting ∨ s.drain.overflowed = true) :
    CancelInv (s.signal.promise true) := by
  refine ⟨⟨fun hp => ?_, h.kept.killed⟩, h.ended, h.running⟩
  have hp' : s.promised = true ∨ s.child.alive = true := by
    simpa [CancelState.promise, CancelState.signal] using hp
  rcases hp' with hold | halive
  · exact (h.kept.heard hold).imp_right (Or.imp_right fun hsig => ⟨rfl, hsig.2⟩)
  · rcases hheard halive with hpc | hover
    · exact Or.inr (Or.inr ⟨rfl, hpc⟩)
    · exact Or.inr (Or.inl hover)

/-- A step that leaves the job, the drainer and the signal alone. -/
theorem frame (h : CancelInv s) (child : Child) (entry : Bool) :
    CancelInv { s with child := child, entry := entry } :=
  ⟨h.kept, h.ended, h.running⟩

/-- Every step that is heard keeps the invariant. -/
theorem step {l : CancelLabel} (h : CancelInv s) (hheard : Heard s l)
    (hs : cancelSystem.step s l = some s') : CancelInv s' := by
  cases l with
  | childWrite stream bytes =>
      obtain ⟨-, rfl⟩ := guard_eq_some.mp hs
      exact h.frame _ _
  | childClose stream =>
      obtain rfl := Option.some.inj hs
      exact h.frame _ _
  | childExit code =>
      obtain ⟨-, rfl⟩ := guard_eq_some.mp hs
      exact h.frame _ _
  | drain input now => exact h.drainStep hheard hs
  | retire =>
      obtain ⟨-, rfl⟩ := guard_eq_some.mp hs
      exact h.frame _ _
  | cancel caller =>
      obtain rfl : s.callCancel caller = s' := Option.some.inj hs
      rcases s.callCancel_cases caller with ⟨howner, hentry, hcall⟩ | hcall
      · rw [hcall]
        exact h.signal (hheard howner hentry)
      · rw [hcall]
        exact h
  | cancelForSession session =>
      obtain rfl : s.callCancelForSession session = s' := Option.some.inj hs
      rcases s.callCancelForSession_cases session with ⟨howner, hentry, hcall⟩ | hcall
      · rw [hcall]
        exact h.signal (hheard howner hentry)
      · rw [hcall]
        exact h

theorem reach (h : ReachVia cancelSystem Heard s) : CancelInv s :=
  h.invariant (fun _ => init) fun _ _ _ hs hheard => hs.step hheard

end CancelInv

/-! ## The promise -/

/-- In every run in which each cancel is heard, a job whose cancel was
answered with success while its child was alive ends with its child killed:
`Killed`, or `Failed` for the overflow of its log. -/
theorem cancel_takes_effect {s : CancelState} (h : ReachVia cancelSystem Heard s)
    (hterm : s.job.status.isTerminal = true) (hpromised : s.promised = true) :
    s.drain.killed = true ∧
      (s.job.status = .killed
        ∨ (s.drain.overflowed = true ∧ s.job.status = .failed "log buffer overflow")) := by
  have hinv := CancelInv.reach h
  have hended : s.ended = true := by
    by_contra hnot
    rw [hinv.running (Bool.eq_false_iff.mpr hnot)] at hterm
    cases hterm
  obtain ⟨hpc, status, hstatus⟩ := hinv.ended hended
  rw [hstatus]
  cases hover : s.drain.overflowed with
  | true =>
      exact ⟨hinv.kept.killed (Or.inr hover),
        Or.inr ⟨rfl, DrainState.finalStatus_overflowed hover status⟩⟩
  | false =>
      rcases hinv.kept.heard hpromised with hcancelled | hover' | ⟨-, hloop⟩
      · exact ⟨hinv.kept.killed (Or.inl hcancelled),
          Or.inl (DrainState.finalStatus_cancelled hover hcancelled status)⟩
      · rw [hover] at hover'
        cases hover'
      · exact absurd hpc hloop

/-- A launched job with a child that has done nothing yet. -/
def CancelState.launched : CancelState where
  job := Job.launched ⟨"j_1"⟩ ⟨"s_1"⟩ (.command "exec sleep 30 >&- 2>&-") ⟨utf8 "/proj"⟩
    64 .unixEpoch
  drain := .start
  ended := false
  child := .start
  entry := true
  signalled := false
  promised := false

theorem CancelState.launched_init : cancelSystem.init launched :=
  ⟨rfl, rfl, rfl, rfl, rfl, rfl, rfl⟩

/-- A cancel that comes while the drainer is reading. -/
theorem cancel_takes_effect_reading :
    ∃ s, ReachVia cancelSystem Heard s ∧ s.promised = true ∧ s.drain.killed = true
      ∧ s.job.status = .killed := by
  obtain ⟨s, hs, hp⟩ := ReachVia.of_run (G := Heard) CancelState.launched_init
    [.drain .cancelPending .unixEpoch, .cancel ⟨"s_1"⟩, .drain .suspend .unixEpoch,
      .drain .cancelReady .unixEpoch, .childExit none, .childClose .stdout,
      .childClose .stderr, .drain .cancelPending .unixEpoch,
      .drain (.read .stdout .eof) .unixEpoch, .drain .cancelPending .unixEpoch,
      .drain (.read .stderr .eof) .unixEpoch, .drain (.reaped (.ok none)) .unixEpoch]
    (fun s => s.promised && s.job.status.isTerminal && !s.drain.overflowed)
    (by decide +kernel)
  simp only [Bool.and_eq_true, Bool.not_eq_eq_eq_not, Bool.not_true] at hp
  obtain ⟨⟨hpromised, hterm⟩, hover⟩ := hp
  obtain ⟨hkilled, hstatus | ⟨hover', -⟩⟩ := cancel_takes_effect hs hterm hpromised
  · exact ⟨s, hs, hpromised, hkilled, hstatus⟩
  · rw [hover] at hover'
    cases hover'

/-- A child that closes both pipes and lives on: the cancel that comes then
is answered with success, the child is not killed, and the job ends as
`Exited` when it exits by itself. -/
theorem cancel_after_eof_ignored :
    ∃ s, Reach cancelSystem s ∧ s.promised = true ∧ s.drain.killed = false
      ∧ s.drain.overflowed = false ∧ s.job.status = .exited 0 := by
  obtain ⟨s, hs, hp⟩ := ReachVia.of_run (G := fun _ _ => True)
    CancelState.launched_init
    [.childClose .stdout, .childClose .stderr, .drain .cancelPending .unixEpoch,
      .drain (.read .stdout .eof) .unixEpoch, .drain .cancelPending .unixEpoch,
      .drain (.read .stderr .eof) .unixEpoch, .cancel ⟨"s_1"⟩, .childExit (some 0),
      .drain (.reaped (.ok (some 0))) .unixEpoch]
    (fun s => s.promised && !s.drain.killed && !s.drain.overflowed
      && (s.job.status = .exited 0))
    (by decide +kernel)
  simp only [Bool.and_eq_true, Bool.not_eq_eq_eq_not, Bool.not_true,
    decide_eq_true_eq] at hp
  obtain ⟨⟨⟨hpromised, hkilled⟩, hover⟩, hstatus⟩ := hp
  exact ⟨s, hs, hpromised, hkilled, hover, hstatus⟩

end Axp
