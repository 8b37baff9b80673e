import Axp.Attach

/-!
# Delivery to attached streams

One invariant over the whole system (`AttachInv`): what the task's position
says about the job, what is true of every stream (`Attached.Inv`), and that a
stream asleep has nothing outstanding. Each move of the task falls under one
of three rules: it only moves the program counter (`setWriter`), it publishes
its copy (`publish`), or it wakes everybody (`notify`).

The two results are `attach_exactly_once` and `attach_no_lost_wakeup`.
-/

namespace Axp

open Lts

/-! ## The invariant of the system -/

/-- `work` is `job` after some pushes. -/
def Job.Extends (job work : Job) : Prop :=
  work.id = job.id ∧ work.status = job.status ∧ job.events <+: work.events

theorem Job.pushLog_extends (job : Job) (e : AppendLogEvent) :
    job.Extends (job.pushLog e).2 := by
  refine ⟨rfl, rfl, ?_⟩
  rcases job.pushLog_cases e with ⟨-, hevents⟩ | ⟨err, -, hsame⟩
  · exact ⟨_, hevents.symm⟩
  · exact ⟨[], by rw [hsame, List.append_nil]⟩

theorem Job.pushLog_error {job : Job} {e : AppendLogEvent} {err : Error}
    (h : (job.pushLog e).1 = .error err) : (job.pushLog e).2 = job := by
  rcases job.pushLog_cases e with ⟨hok, -⟩ | ⟨err', -, hsame⟩
  · rw [hok] at h
    cases h
  · exact hsame

/-- What the task's position says about the published job: it is terminal
exactly from the release of the terminal write on, and a guarded copy is what
the next release will publish. -/
def Writer.Inv {σ : Type} (job : Job) : Writer σ → Prop
  | .running _ => job.status.isTerminal = false
  | .appending _ _ => job.status.isTerminal = false
  | .appended work r _ => job.status.isTerminal = false ∧ job.Extends work
      ∧ ∀ e, r = .error e → work = job
  | .releasing work _ => job.status.isTerminal = false ∧ job.Extends work
  | .finishing _ => job.status.isTerminal = false
  | .finishReleasing work => job.status.isTerminal = false
      ∧ work.id = job.id ∧ work.events = job.events ∧ work.status.isTerminal = true
  | .notifying => job.status.isTerminal = true
  | .done => job.status.isTerminal = true

/-- The task has executed the `notify_waiters` of `finish_job`. -/
def Writer.isDone {σ : Type} : Writer σ → Bool
  | .done => true
  | _ => false

/-- The events whose `notify_waiters` has been executed: those published, and
the one just pushed while its guard is still held. -/
def AttachState.announced {σ : Type} (s : AttachState σ) : List LogEvent :=
  match s.writer with
  | .releasing work _ => work.events
  | _ => s.job.events

theorem AttachState.announced_seq_lt {σ : Type} {s : AttachState σ} {e : LogEvent}
    (h : e ∈ s.announced) : e.seq < s.announced.length := by
  unfold announced at h ⊢
  split
  · rename_i hw
    rw [hw] at h
    exact EventBuffer.seq_lt h
  · rename_i hw
    split at h
    · rename_i hw'
      exact absurd hw' (hw _ _)
    · exact EventBuffer.seq_lt h

structure AttachInv {σ : Type} (s : AttachState σ) : Prop where
  writer : s.writer.Inv s.job
  streams : ∀ i a, s.streams i = some a → a.Inv s.job
  awake : ∀ i a, s.streams i = some a → a.Asleep →
    s.announced.length ≤ a.stream.cursor ∧ s.writer.isDone = false

namespace AttachInv

variable {σ ι : Type} {s s' : AttachState σ}

theorem init {task : Task σ ι} (h : (attachSystem task).init s) : AttachInv s := by
  obtain ⟨hrun, ⟨t, ht⟩, hnone⟩ := h
  refine ⟨?_, fun i a ha => ?_, fun i a ha => ?_⟩
  · rw [ht]
    exact hrun
  · rw [hnone i] at ha
    cases ha
  · rw [hnone i] at ha
    cases ha

/-- The task moves on, with nothing announced and nobody woken. -/
theorem setWriter (h : AttachInv s) {w : Writer σ} (hw : w.Inv s.job)
    (hann : ({ s with writer := w } : AttachState σ).announced = s.announced)
    (hdone : w.isDone = false) : AttachInv { s with writer := w } := by
  refine ⟨hw, h.streams, fun i a ha hsleep => ?_⟩
  rw [hann]
  exact ⟨(h.awake i a ha hsleep).1, hdone⟩

/-- The task drops its guard and publishes `work`. -/
theorem publish (h : AttachInv s) {work : Job} {w : Writer σ} (hid : work.id = s.job.id)
    (hevents : s.job.events <+: work.events) (hrun : s.job.status.isTerminal = false)
    (hann : work.events = s.announced) (hw : w.Inv work)
    (hsame : ({ s with job := work, writer := w } : AttachState σ).announced = work.events)
    (hdone : w.isDone = false) : AttachInv { s with job := work, writer := w } := by
  refine ⟨hw, fun i a ha => ?_, fun i a ha hsleep => ?_⟩
  · refine (h.streams i a ha).mono hid hevents fun hterm => ?_
    rw [hrun] at hterm
    cases hterm
  · rw [hsame, hann]
    exact ⟨(h.awake i a ha hsleep).1, hdone⟩

/-- The task executes a `notify_waiters`: nobody is left asleep. -/
theorem notify (h : AttachInv s) {w : Writer σ} (hw : w.Inv s.job) :
    AttachInv { s with writer := w, streams := AttachState.notifyWaiters s.streams } := by
  refine ⟨hw, fun i a ha => ?_, fun i a ha hsleep => ?_⟩
  · obtain ⟨b, hb, rfl⟩ := Option.map_eq_some_iff.mp ha
    exact (h.streams i b hb).wake
  · obtain ⟨b, -, rfl⟩ := Option.map_eq_some_iff.mp ha
    exact absurd hsleep b.wake_not_asleep

theorem taskStep {task : Task σ ι} {input : ι} (h : AttachInv s)
    (hs : s.taskStep task input = some s') : AttachInv s' := by
  unfold AttachState.taskStep at hs
  split at hs
  · rename_i t hw
    have hrun := h.writer
    rw [hw] at hrun
    have hann : s.announced = s.job.events := by rw [AttachState.announced, hw]
    obtain ⟨act, -, rfl⟩ := Option.map_eq_some_iff.mp hs
    cases act with
    | silent t' => exact h.setWriter hrun hann.symm rfl
    | pushLog event resume => exact h.setWriter hrun hann.symm rfl
    | finish status => exact h.setWriter hrun hann.symm rfl
  · cases hs

theorem writeStep {now : SystemTime} (h : AttachInv s)
    (hs : s.writeStep now = some s') : AttachInv s' := by
  unfold AttachState.writeStep at hs
  have hinv := h.writer
  split at hs
  · cases hs
  · rename_i event resume hw
    rw [hw] at hinv
    obtain rfl := Option.some.inj hs
    exact h.setWriter ⟨hinv, s.job.pushLog_extends event, fun e he => Job.pushLog_error he⟩
      (by rw [AttachState.announced, AttachState.announced, hw]) rfl
  · rename_i work seq next hw
    rw [hw] at hinv
    obtain rfl := Option.some.inj hs
    exact h.notify ⟨hinv.1, hinv.2.1⟩
  · rename_i work e next hw
    rw [hw] at hinv
    obtain rfl := Option.some.inj hs
    refine h.setWriter ⟨hinv.1, hinv.2.1⟩ ?_ rfl
    rw [AttachState.announced, AttachState.announced, hw, hinv.2.2 e rfl]
  · rename_i work next hw
    rw [hw] at hinv
    obtain rfl := Option.some.inj hs
    obtain ⟨hrun, hid, hstatus, hevents⟩ := hinv
    refine h.publish hid hevents hrun ?_ ?_ rfl rfl
    · rw [AttachState.announced, hw]
    · exact (congrArg JobStatus.isTerminal hstatus).trans hrun
  · rename_i status hw
    rw [hw] at hinv
    obtain rfl := Option.some.inj hs
    exact h.setWriter ⟨hinv, rfl, rfl, status.property⟩
      (by rw [AttachState.announced, AttachState.announced, hw]) rfl
  · rename_i work hw
    rw [hw] at hinv
    obtain rfl := Option.some.inj hs
    obtain ⟨hrun, hid, hevents, hterm⟩ := hinv
    refine h.publish hid (hevents ▸ List.prefix_refl _) hrun ?_ hterm rfl rfl
    rw [AttachState.announced, hw, hevents]
  · rename_i hw
    rw [hw] at hinv
    obtain rfl := Option.some.inj hs
    exact h.notify hinv
  · cases hs

theorem setStream {i : Nat} {a : Attached} (h : AttachInv s) (ha : a.Inv s.job)
    (hawake : a.Asleep → s.announced.length ≤ a.stream.cursor ∧ s.writer.isDone = false) :
    AttachInv (s.setStream i a) := by
  refine ⟨h.writer, fun j b hb => ?_, fun j b hb hsleep => ?_⟩
  · by_cases hj : j = i
    · rw [hj, AttachState.setStream_self] at hb
      obtain rfl := Option.some.inj hb
      exact ha
    · rw [AttachState.setStream_of_ne _ _ hj] at hb
      exact h.streams j b hb
  · by_cases hj : j = i
    · rw [hj, AttachState.setStream_self] at hb
      obtain rfl := Option.some.inj hb
      exact hawake hsleep
    · rw [AttachState.setStream_of_ne _ _ hj] at hb
      exact h.awake j b hb hsleep

theorem streamStep {i : Nat} {a a' : Attached} {act : StreamAct} (h : AttachInv s)
    (ha : s.streams i = some a) (hs : a.step s.writer.locked s.job act = some a') :
    AttachInv (s.setStream i a') := by
  refine h.setStream ((h.streams i a ha).step hs) fun hsleep => ?_
  rcases Attached.step_asleep hs hsleep with ⟨hasleep, hstream⟩ | ⟨hlocked, hrun, hcur⟩
  · rw [hstream]
    exact h.awake i a ha hasleep
  · -- The lock was free and the job still running, so nothing is unannounced.
    have hw := h.writer
    cases hwriter : s.writer with
    | running t =>
        rw [AttachState.announced, hwriter]
        exact ⟨hcur, rfl⟩
    | notifying =>
        rw [hwriter] at hw
        rw [show s.job.status.isTerminal = true from hw] at hrun
        cases hrun
    | done =>
        rw [hwriter] at hw
        rw [show s.job.status.isTerminal = true from hw] at hrun
        cases hrun
    | appending _ _ => rw [hwriter] at hlocked; cases hlocked
    | appended _ _ _ => rw [hwriter] at hlocked; cases hlocked
    | releasing _ _ => rw [hwriter] at hlocked; cases hlocked
    | finishing _ => rw [hwriter] at hlocked; cases hlocked
    | finishReleasing _ => rw [hwriter] at hlocked; cases hlocked

/-- Every step keeps the invariant. -/
theorem step {task : Task σ ι} (h : AttachInv s) {l : AttachLabel ι}
    (hs : (attachSystem task).step s l = some s') : AttachInv s' := by
  cases l with
  | task input => exact h.taskStep hs
  | write now => exact h.writeStep hs
  | attach i c =>
      simp only [attachSystem] at hs
      split at hs
      · obtain rfl := Option.some.inj hs
        refine h.setStream (Attached.new_inv s.job c) fun hsleep => ?_
        simp [Attached.Asleep, Attached.new] at hsleep
      · cases hs
  | stream i act =>
      simp only [attachSystem] at hs
      split at hs
      · cases hs
      · rename_i a ha
        obtain ⟨a', ha', rfl⟩ := Option.map_eq_some_iff.mp hs
        exact h.streamStep ha ha'

theorem published_initial (h : AttachInv s) : s.job.events <+: s.announced := by
  have hw := h.writer
  unfold AttachState.announced
  split
  · rename_i hwriter
    rw [hwriter] at hw
    exact hw.2.2.2
  · exact List.prefix_refl _

theorem reach {task : Task σ ι} (h : Reach (attachSystem task) s) : AttachInv s :=
  h.invariant (fun _ => init) fun _ _ _ hs _ => hs.step

end AttachInv

/-! ## What a step leaves behind -/

section Steps

variable {σ ι : Type} {task : Task σ ι} {s s' : AttachState σ} {l : AttachLabel ι}

/-- The published job changes only where the task releases its guard. -/
theorem job_after (hs : (attachSystem task).step s l = some s') :
    s'.job = s.job ∨ ∃ work,
      ((∃ next, s.writer = .releasing work next) ∨ s.writer = .finishReleasing work)
        ∧ s'.job = work := by
  cases l with
  | task input =>
      simp only [attachSystem, AttachState.taskStep] at hs
      split at hs
      · obtain ⟨act, -, rfl⟩ := Option.map_eq_some_iff.mp hs
        cases act <;> exact Or.inl rfl
      · cases hs
  | write now =>
      simp only [attachSystem, AttachState.writeStep] at hs
      split at hs
      · cases hs
      · obtain rfl := Option.some.inj hs; exact Or.inl rfl
      · obtain rfl := Option.some.inj hs; exact Or.inl rfl
      · obtain rfl := Option.some.inj hs; exact Or.inl rfl
      · rename_i work next hw
        obtain rfl := Option.some.inj hs
        exact Or.inr ⟨work, Or.inl ⟨next, hw⟩, rfl⟩
      · obtain rfl := Option.some.inj hs; exact Or.inl rfl
      · rename_i work hw
        obtain rfl := Option.some.inj hs
        exact Or.inr ⟨work, Or.inr hw, rfl⟩
      · obtain rfl := Option.some.inj hs; exact Or.inl rfl
      · cases hs
  | attach i c =>
      simp only [attachSystem] at hs
      split at hs
      · obtain rfl := Option.some.inj hs; exact Or.inl rfl
      · cases hs
  | stream i act =>
      simp only [attachSystem] at hs
      split at hs
      · cases hs
      · obtain ⟨a', -, rfl⟩ := Option.map_eq_some_iff.mp hs
        exact Or.inl rfl

/-- A stream that is there stays, untouched, woken, or moved by one effect of
its own. -/
theorem stream_after (hs : (attachSystem task).step s l = some s') {i : Nat} {a : Attached}
    (ha : s.streams i = some a) :
    ∃ a', s'.streams i = some a'
      ∧ (a' = a ∨ a' = a.wake ∨ ∃ act, a.step s.writer.locked s.job act = some a') := by
  have hnotify : AttachState.notifyWaiters s.streams i = some a.wake := by
    rw [AttachState.notifyWaiters, ha]
    rfl
  cases l with
  | task input =>
      simp only [attachSystem, AttachState.taskStep] at hs
      split at hs
      · obtain ⟨act, -, rfl⟩ := Option.map_eq_some_iff.mp hs
        cases act <;> exact ⟨a, ha, Or.inl rfl⟩
      · cases hs
  | write now =>
      simp only [attachSystem, AttachState.writeStep] at hs
      split at hs
      · cases hs
      · obtain rfl := Option.some.inj hs; exact ⟨a, ha, Or.inl rfl⟩
      · obtain rfl := Option.some.inj hs; exact ⟨a.wake, hnotify, Or.inr (Or.inl rfl)⟩
      · obtain rfl := Option.some.inj hs; exact ⟨a, ha, Or.inl rfl⟩
      · obtain rfl := Option.some.inj hs; exact ⟨a, ha, Or.inl rfl⟩
      · obtain rfl := Option.some.inj hs; exact ⟨a, ha, Or.inl rfl⟩
      · obtain rfl := Option.some.inj hs; exact ⟨a, ha, Or.inl rfl⟩
      · obtain rfl := Option.some.inj hs; exact ⟨a.wake, hnotify, Or.inr (Or.inl rfl)⟩
      · cases hs
  | attach j c =>
      simp only [attachSystem] at hs
      split at hs
      · rename_i hj
        obtain rfl := Option.some.inj hs
        refine ⟨a, ?_, Or.inl rfl⟩
        rw [AttachState.setStream_of_ne _ _ fun hij => ?_]
        · exact ha
        · rw [← hij, ha] at hj
          cases hj
      · cases hs
  | stream j act =>
      simp only [attachSystem] at hs
      split at hs
      · cases hs
      · rename_i b hb
        obtain ⟨b', hb', rfl⟩ := Option.map_eq_some_iff.mp hs
        by_cases hij : i = j
        · subst hij
          obtain rfl := Option.some.inj (ha.symm.trans hb)
          exact ⟨b', AttachState.setStream_self .., Or.inr (Or.inr ⟨act, hb'⟩)⟩
        · exact ⟨a, (AttachState.setStream_of_ne _ _ hij).trans ha, Or.inl rfl⟩

/-- Nobody takes back what a stream has returned. -/
theorem returned_after (hs : (attachSystem task).step s l = some s') {i : Nat} {a : Attached}
    (ha : s.streams i = some a) :
    ∃ a', s'.streams i = some a' ∧ a'.offset = a.offset ∧ a.returned <+: a'.returned := by
  obtain ⟨a', ha', rfl | rfl | ⟨act, hact⟩⟩ := stream_after hs ha
  · exact ⟨a', ha', rfl, List.prefix_refl _⟩
  · exact ⟨a.wake, ha', a.wake_offset, by simp [Attached.returned]⟩
  · obtain ⟨hoffset, more, hresults⟩ := Attached.step_results hact
    refine ⟨a', ha', hoffset, ?_⟩
    rw [Attached.returned, Attached.returned, hresults, List.filterMap_append]
    exact List.prefix_append _ _

end Steps

/-! ## Delivery -/

namespace AttachInv

variable {σ ι : Type} {s s' : AttachState σ}

/-- After the terminal write the job does not change any more. -/
theorem step_terminal {task : Task σ ι} (h : AttachInv s)
    (hterm : s.job.status.isTerminal = true) {l : AttachLabel ι}
    (hs : (attachSystem task).step s l = some s') : s'.job = s.job := by
  rcases job_after hs with hsame | ⟨work, hpub, -⟩
  · exact hsame
  · have hw := h.writer
    rcases hpub with ⟨next, hwriter⟩ | hwriter
    · rw [hwriter] at hw
      rw [hw.1] at hterm
      cases hterm
    · rw [hwriter] at hw
      rw [hw.1] at hterm
      cases hterm

/-- The job only grows. -/
theorem step_grows {task : Task σ ι} (h : AttachInv s) {l : AttachLabel ι}
    (hs : (attachSystem task).step s l = some s') :
    s'.job.id = s.job.id ∧ s.job.events <+: s'.job.events := by
  rcases job_after hs with hsame | ⟨work, hpub, hjob⟩
  · rw [hsame]
    exact ⟨rfl, List.prefix_refl _⟩
  · have hw := h.writer
    rw [hjob]
    rcases hpub with ⟨next, hwriter⟩ | hwriter
    · rw [hwriter] at hw
      exact ⟨hw.2.1, hw.2.2.2⟩
    · rw [hwriter] at hw
      exact ⟨hw.2.1, hw.2.2.1 ▸ List.prefix_refl _⟩

/-- A step of anybody leaves an ended stream ended, with at most more `None`s. -/
theorem step_ended {task : Task σ ι} (h : AttachInv s) {i : Nat} {a : Attached}
    (ha : s.streams i = some a) (hnone : none ∈ a.results) {l : AttachLabel ι}
    (hs : (attachSystem task).step s l = some s') :
    ∃ a', s'.streams i = some a' ∧ a'.offset = a.offset
      ∧ ∃ k, a'.results = a.results ++ List.replicate k none := by
  obtain ⟨a', ha', rfl | rfl | ⟨act, hact⟩⟩ := stream_after hs ha
  · exact ⟨a', ha', rfl, 0, (List.append_nil _).symm⟩
  · exact ⟨a.wake, ha', a.wake_offset, 0, by simp⟩
  · exact ⟨a', ha', (h.streams i a ha).step_ended hnone hact⟩

/-- And so does a whole run. -/
theorem run_ended {task : Task σ ι} (h : AttachInv s) {i : Nat} {a : Attached}
    (ha : s.streams i = some a) (hnone : none ∈ a.results) {ls : List (AttachLabel ι)}
    (hrun : (attachSystem task).run s ls = some s') :
    AttachInv s' ∧ s'.job = s.job ∧
      ∃ a', s'.streams i = some a' ∧ a'.offset = a.offset
        ∧ ∃ k, a'.results = a.results ++ List.replicate k none := by
  have hterm := ((h.streams i a ha).ended hnone).1
  refine run_invariant (T := attachSystem task)
    (I := fun t => AttachInv t ∧ t.job = s.job ∧ ∃ a', t.streams i = some a'
      ∧ a'.offset = a.offset ∧ ∃ k, a'.results = a.results ++ List.replicate k none)
    ?_ ⟨h, rfl, a, ha, rfl, 0, (List.append_nil _).symm⟩ hrun
  rintro t l t' ⟨ht, hjob, b, hb, hoffset, k, hresults⟩ hstep
  have hnone' : none ∈ b.results := by
    rw [hresults]
    exact List.mem_append_left _ hnone
  obtain ⟨b', hb', hoffset', k', hresults'⟩ := ht.step_ended hb hnone' hstep
  refine ⟨ht.step hstep, (ht.step_terminal (hjob ▸ hterm) hstep).trans hjob, b', hb',
    hoffset'.trans hoffset, k + k', ?_⟩
  rw [hresults', hresults, List.append_assoc, List.replicate_append_replicate]

end AttachInv

/-- Whatever the task and the streams do, and in whatever order: a stream has
returned the job's events from its offset on, in order, up to some point; and
once it has returned `None` the job is terminal and in every later state the
stream has returned all events from its offset on, and nothing but further
`None`s besides. -/
theorem attach_exactly_once {σ ι : Type} {task : Task σ ι} {s : AttachState σ}
    (h : Reach (attachSystem task) s) {i : Nat} {a : Attached} (ha : s.streams i = some a) :
    a.returned <+: (s.job.events.drop a.offset).map (eventToFrame s.job.id)
      ∧ a.returned.map LogEventFrame.seq = List.range' a.offset a.returned.length
      ∧ (none ∈ a.results → s.job.status.isTerminal = true ∧
          ∀ ls s', (attachSystem task).run s ls = some s' →
            ∃ a', s'.streams i = some a' ∧ a'.offset = a.offset
              ∧ (∃ k, a'.results = a.results ++ List.replicate k none)
              ∧ a'.returned = (s'.job.events.drop a.offset).map (eventToFrame s'.job.id)) := by
  have hinv := AttachInv.reach h
  have hstream := hinv.streams i a ha
  refine ⟨hstream.returned_initial, hstream.returned_seqs, fun hnone =>
    ⟨(hstream.ended hnone).1, fun ls s' hrun => ?_⟩⟩
  obtain ⟨hinv', -, a', ha', hoffset, k, hresults⟩ := hinv.run_ended ha hnone hrun
  refine ⟨a', ha', hoffset, ⟨k, hresults⟩, ?_⟩
  have hnone' : none ∈ a'.results := by
    rw [hresults]
    exact List.mem_append_left _ hnone
  rw [(hinv'.streams i a' ha').returned_all hnone', hoffset]

/-- A job that has just been launched, and its drainer. -/
def AttachState.drainerStart : AttachState DrainState where
  job := Job.launched ⟨"j_1"⟩ ⟨"s_1"⟩ (.command "echo hi") ⟨utf8 "/proj"⟩ 64 .unixEpoch
  writer := .running .start
  streams := fun _ => none

theorem AttachState.drainerStart_init : (attachSystem drainer).init drainerStart :=
  ⟨rfl, ⟨.start, rfl⟩, fun _ => rfl⟩

/-- A stream that waits, is dropped, comes back for the output and sees the
end of the job. -/
theorem attach_exactly_once_drained :
    ∃ s a, Reach (attachSystem drainer) s ∧ s.streams 0 = some a
      ∧ a.results.length = 2 ∧ none ∈ a.results
      ∧ a.returned <+: (s.job.events.drop a.offset).map (eventToFrame s.job.id)
      ∧ s.job.status.isTerminal = true := by
  obtain ⟨s, hs, hp⟩ := ReachVia.of_run (G := fun _ _ => True)
    AttachState.drainerStart_init
    [.attach 0 0, .stream 0 .call, .stream 0 .enable, .stream 0 .read,
      .stream 0 .park, .task .cancelPending,
      .task (.read .stdout (.data ⟨[104, 105], by decide⟩ .unixEpoch)),
      .write .unixEpoch, .stream 0 .drop, .write .unixEpoch, .write .unixEpoch,
      .stream 0 .call, .stream 0 .enable, .stream 0 .read, .stream 0 .pop,
      .task .cancelPending, .task (.read .stdout .eof), .task .cancelPending,
      .task (.read .stderr .eof), .task (.reaped (.ok (some 0))),
      .write .unixEpoch, .write .unixEpoch, .write .unixEpoch,
      .stream 0 .call, .stream 0 .enable, .stream 0 .read]
    (fun s => (s.streams 0).any fun a => a.results.length = 2 ∧ none ∈ a.results)
    (by decide +kernel)
  simp only [Option.any_eq_true, decide_eq_true_eq] at hp
  obtain ⟨a, ha, hlen, hnone⟩ := hp
  obtain ⟨hinitial, -, hend⟩ := attach_exactly_once hs ha
  exact ⟨s, a, hs, ha, hlen, hnone, hinitial, (hend hnone).1⟩

/-- No stream is parked with its wake-up outstanding: a parked stream that
nobody has woken is past every event announced so far, and `finish_job` has
not run its `notify_waiters`. -/
theorem attach_no_lost_wakeup {σ ι : Type} {task : Task σ ι} {s : AttachState σ}
    (h : Reach (attachSystem task) s) {i : Nat} {a : Attached} (ha : s.streams i = some a)
    (hparked : a.pc = .parked) (hwoken : a.woken = false) :
    (∀ e ∈ s.job.events, e.seq < a.stream.cursor)
      ∧ (∀ e ∈ s.announced, e.seq < a.stream.cursor)
      ∧ ¬(s.job.status.isTerminal = true ∧ s.writer.isDone = true) := by
  have hinv := AttachInv.reach h
  obtain ⟨hcur, hdone⟩ := hinv.awake i a ha ⟨Or.inr hparked, hwoken⟩
  have hannounced : ∀ e ∈ s.announced, e.seq < a.stream.cursor := fun e he =>
    Nat.lt_of_lt_of_le (AttachState.announced_seq_lt he) hcur
  refine ⟨fun e he => hannounced e (hinv.published_initial.subset he), hannounced, ?_⟩
  rintro ⟨-, hdone'⟩
  rw [hdone] at hdone'
  cases hdone'

/-- A stream parked on a job that has written nothing. -/
theorem attach_no_lost_wakeup_quiet :
    ∃ s a, Reach (attachSystem drainer) s ∧ s.streams 0 = some a ∧ a.pc = .parked
      ∧ a.woken = false ∧ ∀ e ∈ s.announced, e.seq < a.stream.cursor := by
  obtain ⟨s, hs, hp⟩ := ReachVia.of_run (G := fun _ _ => True)
    AttachState.drainerStart_init
    [.attach 0 0, .stream 0 .call, .stream 0 .enable, .stream 0 .read, .stream 0 .park]
    (fun s => (s.streams 0).any fun a => a.pc = .parked ∧ a.woken = false) (by decide +kernel)
  simp only [Option.any_eq_true, decide_eq_true_eq] at hp
  obtain ⟨a, ha, hpc, hwoken⟩ := hp
  exact ⟨s, a, hs, ha, hpc, hwoken, (attach_no_lost_wakeup hs ha hpc hwoken).2.1⟩

end Axp
