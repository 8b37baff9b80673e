import Axp.Job
import Axp.Lts

/-!
# Attached log streams

Any number of `JobLogStream`s on one job, the job's task, and every
interleaving of their steps.

The job is data behind a read-write lock. `AttachState.job` is what a reader
that takes the lock finds; while the task holds the write lock it works on a
copy, kept in its program counter (`Writer`), which becomes the job when the
guard is dropped. `append` and its `notify_waiters` both happen under the
lock, the terminal write under a second one, and its `notify_waiters` after
that lock is released, as in `finish_job`.

A stream's `next()` is cut at each of its effects (`StreamPc`): popping the
queue, enabling the `Notified` future, the block under the read lock, and the
await. `notify_waiters` wakes exactly the streams whose future is enabled at
that moment and leaves no permit. A future may be dropped where it waits; the
next call then starts over.

`offset` and `results` are not part of the code: the first is the offset the
stream was attached with, the second everything its `next()` has returned.
-/

namespace Axp

open Lts

/-! ## One stream -/

/-- A reattachable, replay-then-live view over a job's log. -/
structure JobLogStream where
  jobId : JobId
  cursor : Nat
  pending : List LogEventFrame

/-- The loop of the block under the read lock: queue each replayed event and
move the cursor past it. -/
def JobLogStream.queue (s : JobLogStream) : List LogEvent → JobLogStream
  | [] => s
  | ev :: evs =>
      JobLogStream.queue
        { s with pending := s.pending ++ [eventToFrame s.jobId ev], cursor := ev.seq + 1 } evs

/-- The block under the read lock: the stream afterwards, and whether the job
is terminal. -/
def JobLogStream.readJob (s : JobLogStream) (job : Job) : JobLogStream × Bool :=
  (s.queue (job.replayLog.replayFrom s.cursor), job.status.isTerminal)

/-- Where a stream is: between two calls of `next()`, at the head of its loop,
with its future enabled, about to await it, or awaiting it. -/
inductive StreamPc where
  | idle
  | top
  | enabled
  | checked
  | parked
deriving DecidableEq, Repr

structure Attached where
  stream : JobLogStream
  pc : StreamPc
  woken : Bool
  offset : Nat
  results : List (Option LogEventFrame)

/-- The effects of a `next()` call, and its future being dropped. -/
inductive StreamAct where
  | call
  | pop
  | enable
  | read
  | park
  | resume
  | drop
deriving DecidableEq, Repr

namespace Attached

/-- `JobEngine::attach`. -/
def new (job : Job) (c : Nat) : Attached :=
  { stream := { jobId := job.id, cursor := c, pending := [] }
    pc := .idle, woken := false, offset := c, results := [] }

/-- `next()` returns. -/
def yield (a : Attached) (r : Option LogEventFrame) : Attached :=
  { a with pc := .idle, results := a.results ++ [r] }

/-- One effect of a stream; `locked` while the task holds the write lock. -/
def step (locked : Bool) (job : Job) (a : Attached) : StreamAct → Option Attached
  | .call => if a.pc = .idle then some { a with pc := .top } else none
  | .pop =>
      match a.pc, a.stream.pending with
      | .top, frame :: rest =>
          some ({ a with stream := { a.stream with pending := rest } }.yield (some frame))
      | _, _ => none
  | .enable =>
      if a.pc = .top ∧ a.stream.pending = [] then
        some { a with pc := .enabled, woken := false }
      else none
  | .read =>
      if a.pc = .enabled ∧ locked = false then
        let (stream, terminal) := a.stream.readJob job
        let a := { a with stream := stream }
        if stream.pending ≠ [] then some { a with pc := .top }
        else if terminal then some (a.yield none)
        else some { a with pc := .checked }
      else none
  | .park => if a.pc = .checked ∧ a.woken = false then some { a with pc := .parked } else none
  | .resume =>
      if (a.pc = .checked ∨ a.pc = .parked) ∧ a.woken = true then some { a with pc := .top }
      else none
  | .drop => if a.pc = .parked then some { a with pc := .idle } else none

/-- What `notify_waiters` does to a stream. -/
def wake (a : Attached) : Attached :=
  if a.pc = .enabled ∨ a.pc = .checked ∨ a.pc = .parked then { a with woken := true } else a

/-- The frames returned so far. -/
def returned (a : Attached) : List LogEventFrame := a.results.filterMap id

end Attached

/-! ## The system -/

/-- Where the job's task is with respect to the job. A state that holds the
write lock carries the guarded copy it works on. -/
inductive Writer (σ : Type) where
  | running (s : σ)
  | appending (event : AppendLogEvent) (resume : Result Nat → σ)
  | appended (work : Job) (result : Result Nat) (next : σ)
  | releasing (work : Job) (next : σ)
  | finishing (status : TerminalStatus)
  | finishReleasing (work : Job)
  | notifying
  | done

/-- The write lock is held. -/
def Writer.locked {σ : Type} : Writer σ → Bool
  | .appending _ _ => true
  | .appended _ _ _ => true
  | .releasing _ _ => true
  | .finishing _ => true
  | .finishReleasing _ => true
  | _ => false

structure AttachState (σ : Type) where
  job : Job
  writer : Writer σ
  streams : Nat → Option Attached

inductive AttachLabel (ι : Type) where
  | task (input : ι)
  | write (now : SystemTime)
  | attach (i : Nat) (c : Nat)
  | stream (i : Nat) (act : StreamAct)

namespace AttachState

variable {σ ι : Type}

/-- `notify_waiters`. -/
def notifyWaiters (streams : Nat → Option Attached) : Nat → Option Attached :=
  fun i => (streams i).map Attached.wake

/-- The task's next move outside its two calls into the job. -/
def taskStep (task : Task σ ι) (s : AttachState σ) (input : ι) : Option (AttachState σ) :=
  match s.writer with
  | .running t =>
      (task.act t input).map fun
        | .silent t' => { s with writer := .running t' }
        | .pushLog event resume => { s with writer := .appending event resume }
        | .finish status => { s with writer := .finishing status }
  | _ => none

/-- The next effect of `push_log` or `finish_job`. -/
def writeStep (s : AttachState σ) (now : SystemTime) : Option (AttachState σ) :=
  match s.writer with
  | .running _ => none
  | .appending event resume =>
      let (r, work) := s.job.pushLog event
      some { s with writer := .appended work r (resume r) }
  | .appended work (.ok _) next =>
      some { s with writer := .releasing work next, streams := notifyWaiters s.streams }
  | .appended work (.error _) next => some { s with writer := .releasing work next }
  | .releasing work next => some { s with job := work, writer := .running next }
  | .finishing status =>
      some { s with writer := .finishReleasing (s.job.finish status.val now) }
  | .finishReleasing work => some { s with job := work, writer := .notifying }
  | .notifying => some { s with writer := .done, streams := notifyWaiters s.streams }
  | .done => none

/-- Replace one stream. -/
def setStream (s : AttachState σ) (i : Nat) (a : Attached) : AttachState σ :=
  { s with streams := Function.update s.streams i (some a) }

theorem setStream_self (s : AttachState σ) (i : Nat) (a : Attached) :
    (s.setStream i a).streams i = some a := Function.update_self ..

theorem setStream_of_ne (s : AttachState σ) {i j : Nat} (a : Attached) (h : j ≠ i) :
    (s.setStream i a).streams j = s.streams j := Function.update_of_ne h ..

end AttachState

/-- Any task on a job that is not finished, with streams attached at any time
and to any offset. -/
def attachSystem {σ ι : Type} (task : Task σ ι) :
    System (AttachState σ) (AttachLabel ι) where
  init s := s.job.status.isTerminal = false ∧ (∃ t, s.writer = .running t)
    ∧ ∀ i, s.streams i = none
  step s
    | .task input => s.taskStep task input
    | .write now => s.writeStep now
    | .attach i c =>
        match s.streams i with
        | none => some (s.setStream i (Attached.new s.job c))
        | some _ => none
    | .stream i act =>
        match s.streams i with
        | none => none
        | some a => (a.step s.writer.locked s.job act).map (s.setStream i)

/-! ## What a read does -/

/-- The loop appends one frame per event and, over consecutively numbered
events, leaves the cursor just past the last one. -/
theorem JobLogStream.queue_eq : ∀ (evs : List LogEvent) (s : JobLogStream) (_ :
    evs.map LogEvent.seq = List.range' s.cursor evs.length),
    s.queue evs = { jobId := s.jobId, cursor := s.cursor + evs.length,
                    pending := s.pending ++ evs.map (eventToFrame s.jobId) }
  | [], s, _ => by simp [queue]
  | ev :: evs, s, h => by
      rw [List.map_cons, List.length_cons, List.range'_succ, List.cons.injEq] at h
      rw [queue, queue_eq evs _ (by simpa [h.1] using h.2)]
      simp only [h.1, List.length_cons, List.map_cons, List.append_assoc,
        List.singleton_append, JobLogStream.mk.injEq, true_and, and_true]
      omega

/-- Under the lock the stream takes every event from its cursor on. -/
theorem JobLogStream.readJob_eq (s : JobLogStream) (job : Job) :
    s.readJob job =
      ({ jobId := s.jobId, cursor := s.cursor + (job.events.drop s.cursor).length,
         pending := s.pending ++ (job.events.drop s.cursor).map (eventToFrame s.jobId) },
        job.status.isTerminal) := by
  rw [readJob, InMemoryJobReplayLog.replayFrom, EventBuffer.since_eq, queue_eq]
  · rfl
  · rw [EventBuffer.drop_seqs, List.length_drop]

/-! ## The stream invariant -/

/-- What is true of a stream whatever the job's task is doing: it has handed
out or queued exactly the events between its offset and its cursor, and once
it has returned `None` there is nothing left for it. -/
structure Attached.Inv (job : Job) (a : Attached) : Prop where
  jobId : a.stream.jobId = job.id
  delivered : ∃ n, a.stream.cursor = a.offset + n ∧ n ≤ job.events.length - a.offset
    ∧ a.returned ++ a.stream.pending
        = ((job.events.drop a.offset).take n).map (eventToFrame job.id)
  empty : a.pc ≠ .idle → a.pc ≠ .top → a.stream.pending = []
  ended : none ∈ a.results → job.status.isTerminal = true ∧ a.stream.pending = []
    ∧ job.events.length ≤ a.stream.cursor

namespace Attached

theorem new_inv (job : Job) (c : Nat) : (new job c).Inv job where
  jobId := rfl
  delivered := ⟨0, rfl, Nat.zero_le _, rfl⟩
  empty := fun _ _ => rfl
  ended := fun h => absurd h (List.not_mem_nil)

/-- The invariant survives what the task does: more events while the job
runs, and the terminal status. -/
theorem Inv.mono {job job' : Job} {a : Attached} (h : a.Inv job) (hid : job'.id = job.id)
    (hevents : job.events <+: job'.events)
    (hterm : job.status.isTerminal = true →
      job'.status.isTerminal = true ∧ job'.events = job.events) : a.Inv job' := by
  obtain ⟨more, hmore⟩ := hevents
  obtain ⟨n, hcursor, hle, hdeliv⟩ := h.delivered
  refine ⟨by rw [hid]; exact h.jobId, ⟨n, hcursor, ?_, ?_⟩, h.empty, ?_⟩
  · rw [← hmore, List.length_append]
    omega
  · rw [hdeliv, hid, ← hmore, List.drop_append,
      List.take_append_of_le_length (by rw [List.length_drop]; exact hle)]
  · intro hnone
    obtain ⟨ht, hpend, hcur⟩ := h.ended hnone
    obtain ⟨ht', hsame⟩ := hterm ht
    exact ⟨ht', hpend, by rw [hsame]; exact hcur⟩

@[simp] theorem wake_stream (a : Attached) : a.wake.stream = a.stream := by
  unfold wake
  split <;> rfl

@[simp] theorem wake_results (a : Attached) : a.wake.results = a.results := by
  unfold wake
  split <;> rfl

@[simp] theorem wake_pc (a : Attached) : a.wake.pc = a.pc := by
  unfold wake
  split <;> rfl

@[simp] theorem wake_offset (a : Attached) : a.wake.offset = a.offset := by
  unfold wake
  split <;> rfl

theorem Inv.wake {job : Job} {a : Attached} (h : a.Inv job) : a.wake.Inv job := by
  refine ⟨?_, ?_, ?_, ?_⟩
  · simpa using h.jobId
  · simpa [returned] using h.delivered
  · simpa using h.empty
  · simpa using h.ended

@[simp] theorem yield_stream (a : Attached) (r : Option LogEventFrame) :
    (a.yield r).stream = a.stream := rfl

@[simp] theorem yield_offset (a : Attached) (r : Option LogEventFrame) :
    (a.yield r).offset = a.offset := rfl

@[simp] theorem yield_results (a : Attached) (r : Option LogEventFrame) :
    (a.yield r).results = a.results ++ [r] := rfl

theorem yield_some_returned (a : Attached) (f : LogEventFrame) :
    (a.yield (some f)).returned = a.returned ++ [f] := by
  simp [returned]

theorem yield_none_returned (a : Attached) : (a.yield none).returned = a.returned := by
  simp [returned]

/-- Moving the program counter alone keeps the invariant, if the queue is
empty wherever it has to be. -/
theorem Inv.move {job : Job} {a : Attached} (h : a.Inv job) {pc : StreamPc} {woken : Bool}
    (hpc : pc = .idle ∨ pc = .top ∨ a.stream.pending = []) :
    Inv job { a with pc := pc, woken := woken } where
  jobId := h.jobId
  delivered := h.delivered
  empty := by
    intro hidle htop
    rcases hpc with rfl | rfl | hpend
    · exact absurd rfl hidle
    · exact absurd rfl htop
    · exact hpend
  ended := h.ended

/-- A returned frame moves from the queue to the results. -/
theorem Inv.pop {job : Job} {a : Attached} (h : a.Inv job) {frame : LogEventFrame}
    {rest : List LogEventFrame} (hpend : a.stream.pending = frame :: rest) :
    Inv job ({ a with stream := { a.stream with pending := rest } }.yield (some frame)) := by
  refine ⟨h.jobId, ?_, fun hidle _ => absurd rfl hidle, ?_⟩
  · obtain ⟨n, hcursor, hle, hdeliv⟩ := h.delivered
    refine ⟨n, hcursor, hle, ?_⟩
    rw [hpend] at hdeliv
    rw [yield_some_returned, List.append_assoc]
    exact hdeliv
  · intro hmem
    have hnone : none ∈ a.results := by simpa using hmem
    rw [(h.ended hnone).2.1] at hpend
    cases hpend

/-- A read from an empty queue takes every event that is there. -/
theorem Inv.read {job : Job} {a : Attached} (h : a.Inv job) (hpend : a.stream.pending = [])
    {pc : StreamPc} (hpc : pc = .top ∨ job.events.drop a.stream.cursor = []) :
    Inv job { a with stream := (a.stream.readJob job).1, pc := pc } := by
  obtain ⟨n, hcursor, hle, hdeliv⟩ := h.delivered
  rw [hpend, List.append_nil] at hdeliv
  rw [JobLogStream.readJob_eq]
  refine ⟨h.jobId, ⟨n + (job.events.drop a.stream.cursor).length, ?_, ?_, ?_⟩, ?_, ?_⟩
  · simp only [hcursor, Nat.add_assoc]
  · simp only [hcursor, List.length_drop]
    omega
  · have hall : (job.events.drop a.offset).take (n + (job.events.drop a.stream.cursor).length)
        = (job.events.drop a.offset).take n ++ job.events.drop a.stream.cursor := by
      rw [List.take_add, hcursor, ← List.drop_drop, List.take_length]
    rw [hall, List.map_append, ← hdeliv, hpend, List.nil_append, h.jobId]
    rfl
  · intro _ htop
    rcases hpc with rfl | hnil
    · exact absurd rfl htop
    · simp [hpend, hnil]
  · intro hnone
    obtain ⟨hterm, -, hcur⟩ := h.ended hnone
    have hnil : job.events.drop a.stream.cursor = [] := List.drop_of_length_le hcur
    exact ⟨hterm, by simp [hpend, hnil], by simpa [hnil] using hcur⟩

/-- A `next()` that finds the job terminal and nothing new ends the stream. -/
theorem Inv.finish {job : Job} {a : Attached} (h : a.Inv job) (hpend : a.stream.pending = [])
    (hterm : job.status.isTerminal = true) (hcur : job.events.length ≤ a.stream.cursor) :
    (a.yield none).Inv job where
  jobId := h.jobId
  delivered := by
    obtain ⟨n, hcursor, hle, hdeliv⟩ := h.delivered
    refine ⟨n, hcursor, hle, ?_⟩
    rw [yield_none_returned]
    exact hdeliv
  empty := fun hidle _ => absurd rfl hidle
  ended := fun _ => ⟨hterm, hpend, hcur⟩

/-- The three ways out of a read: frames to pop, the end of the stream, or
the wait. -/
theorem step_read_eq_some {locked : Bool} {job : Job} {a a' : Attached}
    (h : a.step locked job .read = some a') :
    a.pc = .enabled ∧ locked = false ∧
      let next := { a with stream := (a.stream.readJob job).1 }
      (next.stream.pending ≠ [] ∧ a' = { next with pc := .top })
        ∨ (next.stream.pending = [] ∧ job.status.isTerminal = true ∧ a' = next.yield none)
        ∨ (next.stream.pending = [] ∧ job.status.isTerminal = false
            ∧ a' = { next with pc := .checked }) := by
  simp only [step] at h
  split at h
  · rename_i hpc
    refine ⟨hpc.1, hpc.2, ?_⟩
    split at h
    · rename_i hpend
      exact Or.inl ⟨hpend, (Option.some.inj h).symm⟩
    · rename_i hpend
      rw [ne_eq, Decidable.not_not] at hpend
      split at h
      · rename_i hterm
        exact Or.inr (Or.inl ⟨hpend, hterm, (Option.some.inj h).symm⟩)
      · rename_i hterm
        exact Or.inr (Or.inr ⟨hpend, Bool.eq_false_iff.mpr hterm, (Option.some.inj h).symm⟩)
  · cases h

/-- A read that queues nothing found nothing. -/
theorem readJob_nothing {job : Job} {a : Attached}
    (h : (a.stream.readJob job).1.pending = []) : job.events.drop a.stream.cursor = [] := by
  rw [JobLogStream.readJob_eq] at h
  exact List.map_eq_nil_iff.mp (List.append_eq_nil_iff.mp h).2

/-- Every effect of a stream keeps the invariant. -/
theorem Inv.step {locked : Bool} {job : Job} {a a' : Attached} {act : StreamAct}
    (h : a.Inv job) (hs : a.step locked job act = some a') : a'.Inv job := by
  cases act with
  | call =>
      obtain ⟨hpc, rfl⟩ := guard_eq_some.mp hs
      exact h.move (Or.inr (Or.inl rfl))
  | pop =>
      simp only [Attached.step] at hs
      split at hs
      · rename_i hpend
        obtain rfl := Option.some.inj hs
        exact h.pop hpend
      · cases hs
  | enable =>
      obtain ⟨⟨-, hpend⟩, rfl⟩ := guard_eq_some.mp hs
      exact h.move (Or.inr (Or.inr hpend))
  | read =>
      obtain ⟨hpc, -, hcase⟩ := step_read_eq_some hs
      have hpend := h.empty (by rw [hpc]; decide) (by rw [hpc]; decide)
      rcases hcase with ⟨-, rfl⟩ | ⟨hnil, hterm, rfl⟩ | ⟨hnil, -, rfl⟩
      · exact h.read hpend (Or.inl rfl)
      · have hnothing := readJob_nothing hnil
        have hread : Inv job { a with stream := (a.stream.readJob job).1 } :=
          h.read hpend (Or.inr hnothing)
        refine hread.finish hnil hterm ?_
        rw [JobLogStream.readJob_eq, hnothing]
        exact List.drop_eq_nil_iff.mp hnothing
      · exact h.read hpend (Or.inr (readJob_nothing hnil))
  | park =>
      obtain ⟨⟨hpc, -⟩, rfl⟩ := guard_eq_some.mp hs
      exact h.move (Or.inr (Or.inr (h.empty (by rw [hpc]; decide) (by rw [hpc]; decide))))
  | resume =>
      obtain ⟨-, rfl⟩ := guard_eq_some.mp hs
      exact h.move (Or.inr (Or.inl rfl))
  | drop =>
      obtain ⟨-, rfl⟩ := guard_eq_some.mp hs
      exact h.move (Or.inl rfl)

/-! ### Results -/

/-- Results are only ever added. -/
theorem step_results {locked : Bool} {job : Job} {a a' : Attached} {act : StreamAct}
    (hs : a.step locked job act = some a') :
    a'.offset = a.offset ∧ ∃ more, a'.results = a.results ++ more := by
  cases act with
  | call =>
      obtain ⟨-, rfl⟩ := guard_eq_some.mp hs
      exact ⟨rfl, [], (List.append_nil _).symm⟩
  | pop =>
      simp only [Attached.step] at hs
      split at hs
      · obtain rfl := Option.some.inj hs
        exact ⟨rfl, _, rfl⟩
      · cases hs
  | enable =>
      obtain ⟨-, rfl⟩ := guard_eq_some.mp hs
      exact ⟨rfl, [], (List.append_nil _).symm⟩
  | read =>
      obtain ⟨-, -, ⟨-, rfl⟩ | ⟨-, -, rfl⟩ | ⟨-, -, rfl⟩⟩ := step_read_eq_some hs
      · exact ⟨rfl, [], (List.append_nil _).symm⟩
      · exact ⟨rfl, [none], rfl⟩
      · exact ⟨rfl, [], (List.append_nil _).symm⟩
  | park =>
      obtain ⟨-, rfl⟩ := guard_eq_some.mp hs
      exact ⟨rfl, [], (List.append_nil _).symm⟩
  | resume =>
      obtain ⟨-, rfl⟩ := guard_eq_some.mp hs
      exact ⟨rfl, [], (List.append_nil _).symm⟩
  | drop =>
      obtain ⟨-, rfl⟩ := guard_eq_some.mp hs
      exact ⟨rfl, [], (List.append_nil _).symm⟩


/-- Frames come back in order, from the offset on, with nothing left out. -/
theorem Inv.returned_initial {job : Job} {a : Attached} (h : a.Inv job) :
    a.returned <+: (job.events.drop a.offset).map (eventToFrame job.id) := by
  obtain ⟨n, -, -, hdeliv⟩ := h.delivered
  refine (List.prefix_append _ a.stream.pending).trans ?_
  rw [hdeliv]
  exact (List.take_prefix n _).map _

theorem Inv.returned_seqs {job : Job} {a : Attached} (h : a.Inv job) :
    a.returned.map LogEventFrame.seq = List.range' a.offset a.returned.length := by
  have hframes : ((job.events.drop a.offset).map (eventToFrame job.id)).map LogEventFrame.seq
      = List.range' a.offset (job.events.length - a.offset) := by
    rw [List.map_map]
    exact job.replayLog.drop_seqs a.offset
  have hpre := h.returned_initial.map LogEventFrame.seq
  rw [hframes] at hpre
  have hlen := hpre.length_le
  rw [List.length_map, List.length_range'] at hlen
  rw [List.prefix_iff_eq_take.mp hpre, List.length_map, List.take_range'_of_length_ge hlen]

/-- An ended stream has returned everything. -/
theorem Inv.returned_all {job : Job} {a : Attached} (h : a.Inv job)
    (hnone : none ∈ a.results) :
    a.returned = (job.events.drop a.offset).map (eventToFrame job.id) := by
  obtain ⟨-, hpend, hcur⟩ := h.ended hnone
  obtain ⟨n, hcursor, hle, hdeliv⟩ := h.delivered
  rw [hpend, List.append_nil] at hdeliv
  rw [hdeliv, List.take_of_length_le]
  rw [List.length_drop]
  omega

/-- A stream that has returned `None` goes on returning nothing else. -/
theorem Inv.step_ended {locked : Bool} {job : Job} {a a' : Attached} {act : StreamAct}
    (h : a.Inv job) (hnone : none ∈ a.results) (hs : a.step locked job act = some a') :
    a'.offset = a.offset ∧ ∃ k, a'.results = a.results ++ List.replicate k none := by
  obtain ⟨hoffset, more, hmore⟩ := step_results hs
  have hnone' : none ∈ a'.results := by
    rw [hmore]
    exact List.mem_append_left _ hnone
  have hall := (h.step hs).returned_all hnone'
  rw [hoffset, ← h.returned_all hnone, returned, hmore, List.filterMap_append] at hall
  have hnothing : more.filterMap id = [] := List.append_right_eq_self.mp hall
  refine ⟨hoffset, more.length, ?_⟩
  rw [hmore, ← List.eq_replicate_of_mem fun r hr => ?_]
  exact List.filterMap_eq_nil_iff.mp hnothing r hr

/-! ### Sleeping streams -/

/-- Past the check, with no wake-up delivered. -/
def Asleep (a : Attached) : Prop := (a.pc = .checked ∨ a.pc = .parked) ∧ a.woken = false

theorem wake_not_asleep (a : Attached) : ¬a.wake.Asleep := by
  unfold wake Asleep
  split
  · simp
  · rename_i hpc
    rintro ⟨hchecked | hparked, -⟩
    · exact hpc (Or.inr (Or.inl hchecked))
    · exact hpc (Or.inr (Or.inr hparked))

/-- A stream falls asleep only after a read that found a running job with
nothing at or past its cursor. -/
theorem step_asleep {locked : Bool} {job : Job} {a a' : Attached} {act : StreamAct}
    (hs : a.step locked job act = some a') (h : a'.Asleep) :
    (a.Asleep ∧ a'.stream = a.stream)
      ∨ (locked = false ∧ job.status.isTerminal = false
          ∧ job.events.length ≤ a'.stream.cursor) := by
  cases act with
  | call =>
      obtain ⟨-, rfl⟩ := guard_eq_some.mp hs
      simp [Asleep] at h
  | pop =>
      simp only [step] at hs
      split at hs
      · obtain rfl := Option.some.inj hs
        simp [Asleep, yield] at h
      · cases hs
  | enable =>
      obtain ⟨-, rfl⟩ := guard_eq_some.mp hs
      simp [Asleep] at h
  | read =>
      obtain ⟨-, hlocked, hcase⟩ := step_read_eq_some hs
      rcases hcase with ⟨-, rfl⟩ | ⟨-, -, rfl⟩ | ⟨hnil, hterm, rfl⟩
      · simp [Asleep] at h
      · simp [Asleep, yield] at h
      · have hnothing := readJob_nothing hnil
        refine Or.inr ⟨hlocked, hterm, ?_⟩
        simp only [JobLogStream.readJob_eq, hnothing]
        exact List.drop_eq_nil_iff.mp hnothing
  | park =>
      obtain ⟨⟨hpc, hwoken⟩, rfl⟩ := guard_eq_some.mp hs
      exact Or.inl ⟨⟨Or.inl hpc, hwoken⟩, rfl⟩
  | resume =>
      obtain ⟨-, rfl⟩ := guard_eq_some.mp hs
      simp [Asleep] at h
  | drop =>
      obtain ⟨-, rfl⟩ := guard_eq_some.mp hs
      simp [Asleep] at h

end Attached

end Axp
