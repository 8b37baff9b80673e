import Axp.Effects

/-!
# The life of a job

A job in the store is the data of exactly one `Life`, and where that life is
says what the job looks like (`Job.Follows`): it runs until the terminal write
of `finish_job`, and is finished from then on. Only a running task pushes, and
a life past its terminal write pushes no more, so `Job.Progress` is all that
any step can do to a job, and a job that is terminal does not change again.

`SeenInv` carries this over to what clients have been told: a terminal status,
and the end of a stream, stay true.
-/

namespace Axp

open Lts Directory

/-! ## A job and where its life is -/

/-- The status the job has been given, once it has one. -/
def LifePc.ended : LifePc → Option TerminalStatus
  | .notifying status => some status
  | .finishAuditing status => some status
  | .finishRecording status => some status
  | .retiring status => some status
  | .erased status => some status
  | _ => none

/-- What a job looks like at a point of its life. -/
structure Job.Follows (job : Job) (life : Life) : Prop where
  session : job.sessionId = life.sessionId
  started : job.startedAt.isSome = true
  running : life.pc.ended = none → job.status = .running ∧ job.finishedAt = none
  ended : ∀ status, life.pc.ended = some status →
    job.status = status.val ∧ job.finishedAt.isSome = true

/-- A job that runs or has ended, with the times that go with it. -/
structure Job.WellFormed (job : Job) : Prop where
  launched : job.status ≠ .pending
  started : job.startedAt.isSome = true
  finished : job.finishedAt.isSome = true ↔ job.status.isTerminal = true

theorem Job.Follows.wellFormed {job : Job} {life : Life} (h : job.Follows life) :
    job.WellFormed := by
  cases hpc : life.pc.ended with
  | none =>
      obtain ⟨hstatus, hfinished⟩ := h.running hpc
      refine ⟨?_, h.started, ?_⟩
      · rw [hstatus]
        exact fun heq => by cases heq
      · rw [hstatus, hfinished]
        decide
  | some status =>
      obtain ⟨hstatus, hfinished⟩ := h.ended status hpc
      refine ⟨?_, h.started, iff_of_true hfinished (by rw [hstatus]; exact status.property)⟩
      intro hpending
      have hterm := status.property
      rw [← hstatus, hpending] at hterm
      cases hterm

/-! ## Progress -/

/-- All that can happen to a job: a terminal job stays as it is, and a running
one keeps its start and may end. -/
structure Job.Progress (job job' : Job) : Prop where
  session : job'.sessionId = job.sessionId
  started : job'.startedAt = job.startedAt
  status : job'.status = job.status ∨ job.status = .running ∧ job'.status.isTerminal = true
  frozen : job.status.isTerminal = true → job' = job

namespace Job.Progress

variable {job job' job'' : Job}

theorem refl (job : Job) : job.Progress job := ⟨rfl, rfl, Or.inl rfl, fun _ => rfl⟩

theorem trans (h : job.Progress job') (h' : job'.Progress job'') : job.Progress job'' where
  session := h'.session.trans h.session
  started := h'.started.trans h.started
  status := by
    rcases h'.status with hsame | ⟨hrun, hterm⟩
    · rcases h.status with hsame' | ⟨hrun', hterm'⟩
      · exact Or.inl (hsame.trans hsame')
      · exact Or.inr ⟨hrun', by rw [hsame]; exact hterm'⟩
    · rcases h.status with hsame' | ⟨-, hterm'⟩
      · exact Or.inr ⟨hsame'.symm.trans hrun, hterm⟩
      · rw [hrun] at hterm'
        cases hterm'
  frozen := by
    intro hterm
    obtain rfl := h.frozen hterm
    exact h'.frozen hterm

/-- What a running job can become. -/
theorem ofRunning (hrun : job.status = .running) (hsession : job'.sessionId = job.sessionId)
    (hstarted : job'.startedAt = job.startedAt)
    (hstatus : job'.status = job.status ∨ job.status = .running ∧ job'.status.isTerminal = true) :
    job.Progress job' where
  session := hsession
  started := hstarted
  status := hstatus
  frozen := by
    intro hterm
    rw [hrun] at hterm
    cases hterm

end Job.Progress

/-- Every job is still there, and has made progress. -/
def Server.Progress (s s' : Server) : Prop :=
  ∀ id job, s.engine.jobs.get id = some job →
    ∃ job', s'.engine.jobs.get id = some job' ∧ job.Progress job'

theorem Server.Progress.owns {s s' : Server} (h : s.Progress s') {sid : SessionId} {id : JobId}
    (hown : s.engine.Owns sid id) : s'.engine.Owns sid id := by
  obtain ⟨job, hget, hsid⟩ := hown
  obtain ⟨job', hget', hprog⟩ := h id job hget
  exact ⟨job', hget', hprog.session.trans hsid⟩

/-! ## The store -/

namespace JobStore

theorem get_inserted (store : JobStore) (job : Job) (id : JobId) :
    (store.insert job).get id = if id = job.id then some job else store.get id := by
  split
  · next h =>
      rw [h]
      exact AList.lookup_insert _
  · next h => exact AList.lookup_insert_ne h

theorem get_modified (store : JobStore) (id id' : JobId) (f : Job → Job) :
    (store.modify id f).get id' = if id' = id then (store.get id).map f else store.get id' := by
  unfold modify
  cases h : store.get id with
  | none =>
      by_cases hid : id' = id
      · rw [if_pos hid, hid]
        exact h
      · rw [if_neg hid]
  | some job =>
      by_cases hid : id' = id
      · rw [if_pos hid, hid]
        exact AList.lookup_insert _
      · rw [if_neg hid]
        exact AList.lookup_insert_ne hid

theorem listForSession_inserted (store : JobStore) (job : Job) (sid : SessionId) :
    (store.insert job).listForSession sid
      = store.listForSession sid ++ if sid = job.sessionId then [job.id] else [] := by
  unfold listForSession insert
  by_cases hsid : sid = job.sessionId
  · rw [if_pos hsid, hsid, AList.lookup_insert, Option.getD_some]
  · rw [if_neg hsid, AList.lookup_insert_ne hsid, List.append_nil]

theorem mem_listForSession_inserted {store : JobStore} {job : Job} {sid : SessionId} {id : JobId}
    (h : id ∈ (store.insert job).listForSession sid) :
    id ∈ store.listForSession sid ∨ sid = job.sessionId ∧ id = job.id := by
  rw [listForSession_inserted, List.mem_append, List.mem_ite_nil_right, List.mem_singleton] at h
  exact h

@[simp] theorem listForSession_modified (store : JobStore) (id : JobId) (f : Job → Job)
    (sid : SessionId) : (store.modify id f).listForSession sid = store.listForSession sid := by
  unfold modify
  split <;> rfl

end JobStore

/-! ## The invariant -/

/-- `next_job_id`. -/
def mintedJob (n : Nat) : JobId := ⟨"j_" ++ toString n⟩

theorem mintedJob_injective {m n : Nat} (h : mintedJob m = mintedJob n) : m = n := by
  have hlist := congrArg String.toList (JobId.mk.inj h)
  rw [String.toList_append, String.toList_append] at hlist
  exact toString_injective (String.toList_injective (List.append_cancel_left hlist))

/-- Jobs and lives go together, under minted ids, and the index of a session
lists jobs of its own. -/
structure JobsInv (s : Server) : Prop where
  minted : ∀ id job, s.engine.jobs.get id = some job → ∃ k, k < s.engine.nextId ∧ id = mintedJob k
  lives : ∀ id life, s.lives.lookup id = some life →
    ∃ job, s.engine.jobs.get id = some job ∧ job.Follows life
  jobs : ∀ id job, s.engine.jobs.get id = some job → ∃ life, s.lives.lookup id = some life
  listed : ∀ sid id, id ∈ s.engine.jobs.listForSession sid → s.engine.Owns sid id

namespace JobsInv

variable {s s' : Server} {l : ServerLabel} {display : Error → String} {id : JobId} {life : Life}
  {job : Job}

theorem init (h : (serverSystem display).init s) : JobsInv s := by
  obtain ⟨-, hjobs, -, -, -, -, -, -, hlives, -⟩ := h
  have hget : ∀ id job, s.engine.jobs.get id ≠ some job := by
    intro id job hget
    rw [hjobs] at hget
    cases hget
  refine ⟨fun id job h => absurd h (hget id job), ?_, fun id job h => absurd h (hget id job), ?_⟩
  · intro id life hlife
    rw [hlives] at hlife
    cases hlife
  · intro sid id hmem
    rw [hjobs] at hmem
    cases hmem

/-- The id to be minted next is nobody's. -/
theorem fresh (h : JobsInv s) : s.engine.jobs.get (mintedJob s.engine.nextId) = none := by
  cases hget : s.engine.jobs.get (mintedJob s.engine.nextId) with
  | none => rfl
  | some job =>
      obtain ⟨k, hk, hid⟩ := h.minted _ job hget
      exact absurd (mintedJob_injective hid) (Nat.ne_of_gt hk)

/-- It has no life either. -/
theorem fresh_life (h : JobsInv s) : s.lives.lookup (mintedJob s.engine.nextId) = none := by
  cases hlife : s.lives.lookup (mintedJob s.engine.nextId) with
  | none => rfl
  | some life =>
      obtain ⟨job, hget, -⟩ := h.lives _ life hlife
      rw [h.fresh] at hget
      cases hget

/-- A job that still runs, by the point its life is at. -/
theorem running (h : JobsInv s) (hlife : s.lives.lookup id = some life)
    (hpc : life.pc.ended = none) (hjob : s.engine.jobs.get id = some job) :
    job.status = .running := by
  obtain ⟨job', hget, hfollows⟩ := h.lives id life hlife
  obtain rfl := Option.some.inj (hjob.symm.trans hget)
  exact (hfollows.running hpc).1

/-! ### Progress of a step -/

theorem progress_same (hjobs : s'.engine.jobs = s.engine.jobs) : s.Progress s' :=
  fun id job hget => ⟨job, by rw [hjobs]; exact hget, .refl job⟩

theorem progress_modify {f : Job → Job}
    (hjobs : s'.engine.jobs = s.engine.jobs.modify id f)
    (hf : ∀ job, s.engine.jobs.get id = some job → job.Progress (f job)) : s.Progress s' := by
  intro id' job' hget
  rw [hjobs, JobStore.get_modified]
  by_cases hid : id' = id
  · rw [hid] at hget
    rw [if_pos hid, hget]
    exact ⟨f job', rfl, hf job' hget⟩
  · rw [if_neg hid]
    exact ⟨job', hget, .refl job'⟩

/-- A step does no more to the jobs that are there than let them progress. -/
theorem progress (h : JobsInv s) (he : Effect s l s') : s.Progress s' := by
  cases he with
  | inserted cs call req launch env now hl hc =>
      intro id job hget
      refine ⟨job, ?_, .refl job⟩
      show (s.engine.jobs.insert _).get id = some job
      rw [JobStore.get_inserted, if_neg]
      · exact hget
      · rintro rfl
        exact absurd (h.fresh.symm.trans hget) (Option.some_ne_none job).symm
  | pushed id life task task' job event hlife hpc hjob =>
      refine progress_modify rfl fun job' hjob' => ?_
      exact .ofRunning (h.running hlife (by rw [hpc]; rfl) hjob') rfl rfl (Or.inl rfl)
  | terminal id life job status now hlife hpc hjob =>
      refine progress_modify rfl fun job' hjob' => ?_
      have hrun := h.running hlife (by rw [hpc]; rfl) hjob'
      exact .ofRunning hrun rfl rfl (Or.inr ⟨hrun, status.property⟩)
  | _ => exact progress_same rfl

/-- A job that was not there before runs, and has just been started. -/
theorem born (he : Effect s l s') (hnone : s.engine.jobs.get id = none)
    (hget : s'.engine.jobs.get id = some job) :
    job.status = .running ∧ job.startedAt.isSome = true ∧ job.finishedAt = none := by
  have hmodify : ∀ {target : JobId} {f : Job → Job},
      (s.engine.jobs.modify target f).get id = some job → False := by
    intro target f hget
    rw [JobStore.get_modified] at hget
    split at hget
    · next hid =>
        obtain ⟨job', hold, -⟩ := Option.map_eq_some_iff.mp hget
        rw [← hid, hnone] at hold
        cases hold
    · rw [hnone] at hget
      cases hget
  cases he with
  | inserted cs call req launch env now hl hc =>
      have hget' : (s.engine.jobs.insert _).get id = some job := hget
      rw [JobStore.get_inserted] at hget'
      split at hget'
      · obtain rfl := Option.some.inj hget'
        exact ⟨rfl, rfl, rfl⟩
      · rw [hnone] at hget'
        cases hget'
  | pushed id' life task task' job' event hlife hpc hjob => exact (hmodify hget).elim
  | terminal id' life job' status now hlife hpc hjob => exact (hmodify hget).elim
  | _ => exact absurd (hnone.symm.trans hget) (Option.some_ne_none job).symm

/-! ### Preservation -/

/-- The steps that leave the jobs and their lives alone. -/
theorem same (h : JobsInv s) (hjobs : s'.engine.jobs = s.engine.jobs)
    (hnext : s'.engine.nextId = s.engine.nextId) (hlives : s'.lives = s.lives) : JobsInv s' := by
  refine ⟨?_, ?_, ?_, ?_⟩
  · rw [hjobs, hnext]
    exact h.minted
  · rw [hjobs, hlives]
    exact h.lives
  · rw [hjobs, hlives]
    exact h.jobs
  · intro sid id hmem
    rw [hjobs] at hmem
    exact (progress_same hjobs).owns (h.listed sid id hmem)

/-- The steps of a life that leave its job alone. -/
theorem move (h : JobsInv s) {life' : Life} (hlife : s.lives.lookup id = some life)
    (hjobs : s'.engine.jobs = s.engine.jobs) (hnext : s'.engine.nextId = s.engine.nextId)
    (hlives : s'.lives = s.lives.insert id life') (hsid : life'.sessionId = life.sessionId)
    (hended : life'.pc.ended = life.pc.ended) : JobsInv s' := by
  refine ⟨?_, ?_, ?_, ?_⟩
  · rw [hjobs, hnext]
    exact h.minted
  · intro id' other hother
    rw [hlives] at hother
    rw [hjobs]
    rcases lookup_insert_iff.mp hother with ⟨rfl, rfl⟩ | ⟨-, hold⟩
    · obtain ⟨job, hget, hfollows⟩ := h.lives id' life hlife
      refine ⟨job, hget, hfollows.session.trans hsid.symm, hfollows.started, ?_, ?_⟩
      · rw [hended]
        exact hfollows.running
      · rw [hended]
        exact hfollows.ended
    · exact h.lives id' other hold
  · intro id' job hget
    rw [hjobs] at hget
    rw [hlives]
    by_cases hid : id' = id
    · exact ⟨life', by rw [hid]; exact AList.lookup_insert _⟩
    · obtain ⟨other, hother⟩ := h.jobs id' job hget
      exact ⟨other, (AList.lookup_insert_ne hid).trans hother⟩
  · intro sid id' hmem
    rw [hjobs] at hmem
    exact (progress_same hjobs).owns (h.listed sid id' hmem)

/-- The steps of a life that write its job. -/
theorem modify (h : JobsInv s) {life' : Life} {f : Job → Job}
    (hlife : s.lives.lookup id = some life)
    (hjobs : s'.engine.jobs = s.engine.jobs.modify id f)
    (hnext : s'.engine.nextId = s.engine.nextId) (hlives : s'.lives = s.lives.insert id life')
    (hprog : s.Progress s')
    (hf : ∀ job, s.engine.jobs.get id = some job → job.Follows life → (f job).Follows life') :
    JobsInv s' := by
  refine ⟨?_, ?_, ?_, ?_⟩
  · intro id' job' hget
    rw [hnext]
    rw [hjobs, JobStore.get_modified] at hget
    split at hget
    · next hid =>
        obtain ⟨job, hold, -⟩ := Option.map_eq_some_iff.mp hget
        rw [hid]
        exact h.minted id job hold
    · exact h.minted id' job' hget
  · intro id' other hother
    rw [hlives] at hother
    rw [hjobs, JobStore.get_modified]
    rcases lookup_insert_iff.mp hother with ⟨rfl, rfl⟩ | ⟨hne, hold⟩
    · obtain ⟨job, hget, hfollows⟩ := h.lives id' life hlife
      rw [if_pos rfl, hget]
      exact ⟨f job, rfl, hf job hget hfollows⟩
    · rw [if_neg hne]
      exact h.lives id' other hold
  · intro id' job' hget
    rw [hlives]
    by_cases hid : id' = id
    · exact ⟨life', by rw [hid]; exact AList.lookup_insert _⟩
    · rw [hjobs, JobStore.get_modified, if_neg hid] at hget
      obtain ⟨other, hother⟩ := h.jobs id' job' hget
      exact ⟨other, (AList.lookup_insert_ne hid).trans hother⟩
  · intro sid id' hmem
    rw [hjobs, JobStore.listForSession_modified] at hmem
    exact hprog.owns (h.listed sid id' hmem)

/-- A job is inserted under the id minted for it. -/
theorem insert (h : JobsInv s) (hid : job.id = mintedJob s.engine.nextId)
    (hjobs : s'.engine.jobs = s.engine.jobs.insert job)
    (hnext : s'.engine.nextId = s.engine.nextId + 1)
    (hlives : s'.lives = s.lives.insert job.id life) (hfollows : job.Follows life)
    (hprog : s.Progress s') : JobsInv s' := by
  refine ⟨?_, ?_, ?_, ?_⟩
  · intro id' job' hget
    rw [hnext]
    rw [hjobs, JobStore.get_inserted] at hget
    split at hget
    · next hsame => exact ⟨s.engine.nextId, Nat.lt_succ_self _, hsame.trans hid⟩
    · obtain ⟨k, hk, hid'⟩ := h.minted id' job' hget
      exact ⟨k, hk.trans (Nat.lt_succ_self _), hid'⟩
  · intro id' other hother
    rw [hlives] at hother
    rw [hjobs, JobStore.get_inserted]
    rcases lookup_insert_iff.mp hother with ⟨hsame, rfl⟩ | ⟨hne, hold⟩
    · rw [if_pos hsame]
      exact ⟨job, rfl, hfollows⟩
    · rw [if_neg hne]
      exact h.lives id' other hold
  · intro id' job' hget
    rw [hlives]
    by_cases hsame : id' = job.id
    · exact ⟨life, by rw [hsame]; exact AList.lookup_insert _⟩
    · rw [hjobs, JobStore.get_inserted, if_neg hsame] at hget
      obtain ⟨other, hother⟩ := h.jobs id' job' hget
      exact ⟨other, (AList.lookup_insert_ne hsame).trans hother⟩
  · intro sid id' hmem
    rw [hjobs] at hmem
    rcases JobStore.mem_listForSession_inserted hmem with hold | ⟨hsid, hsame⟩
    · exact hprog.owns (h.listed sid id' hold)
    · refine ⟨job, ?_, hsid.symm⟩
      rw [hjobs, JobStore.get_inserted, if_pos hsame]

theorem step (h : JobsInv s) (he : Effect s l s') : JobsInv s' := by
  have hprog := h.progress he
  cases he with
  | inserted cs call req launch env now hl hc =>
      refine h.insert rfl rfl rfl rfl ?_ hprog
      exact ⟨rfl, rfl, fun _ => ⟨rfl, rfl⟩, fun status hended => by cases hended⟩
  | registered id life hlife hpc =>
      exact h.move hlife rfl rfl rfl rfl (by rw [hpc]; rfl)
  | moved id life pc hlife hmove =>
      refine h.move hlife rfl rfl rfl rfl ?_
      show pc.ended = life.pc.ended
      cases hmove with
      | found session hpc hget => rw [hpc]; rfl
      | lost hpc hget => rw [hpc]; rfl
      | work task task' hpc => rw [hpc]; rfl
      | finish task status hpc => rw [hpc]; rfl
      | foundLast status session hpc hget => rw [hpc]; rfl
      | lostLast status hpc hget => rw [hpc]; rfl
  | startRecorded id life now hlife hpc => exact h.move hlife rfl rfl rfl rfl (by rw [hpc]; rfl)
  | spawned id life hlife hpc => exact h.move hlife rfl rfl rfl rfl (by rw [hpc]; rfl)
  | branched id life task task' hlife hpc hready =>
      exact h.move hlife rfl rfl rfl rfl (by rw [hpc]; rfl)
  | notified id life status hlife hpc => exact h.move hlife rfl rfl rfl rfl (by rw [hpc]; rfl)
  | finishRecorded id life status now hlife hpc =>
      exact h.move hlife rfl rfl rfl rfl (by rw [hpc]; rfl)
  | retired id life status hlife hpc => exact h.move hlife rfl rfl rfl rfl (by rw [hpc]; rfl)
  | pushed id life task task' job event hlife hpc hjob =>
      refine h.modify hlife rfl rfl rfl hprog fun job' _ hfollows => ?_
      have hrun := hfollows.running (by rw [hpc]; rfl)
      exact ⟨hfollows.session, hfollows.started, fun _ => hrun, nofun⟩
  | terminal id life job status now hlife hpc hjob =>
      refine h.modify hlife rfl rfl rfl hprog fun job' _ hfollows => ?_
      refine ⟨hfollows.session, hfollows.started, fun hended => (nomatch hended), ?_⟩
      intro status' hended
      obtain rfl := Option.some.inj hended
      exact ⟨rfl, rfl⟩
  | _ => exact h.same rfl rfl rfl

theorem reach (h : Reach (serverSystem display) s) : JobsInv s :=
  h.invariant (fun _ => init) fun _ _ _ hinv _ hs => hinv.step (Server.step_effect hs)

end JobsInv

/-! ## What has been told stays true -/

namespace JobLogStream

theorem queue_jobId (evs : List LogEvent) :
    ∀ s : JobLogStream, (s.queue evs).jobId = s.jobId := by
  induction evs with
  | nil => exact fun _ => rfl
  | cons ev evs ih => exact fun s => ih _

end JobLogStream

namespace Attached

variable {job : Job} {a a' : Attached} {act : StreamAct}

/-- A stream stays on its job. -/
theorem step_jobId (h : a.step false job act = some a') :
    a'.stream.jobId = a.stream.jobId := by
  cases act with
  | call =>
      obtain ⟨-, rfl⟩ := guard_eq_some.mp h
      rfl
  | pop =>
      simp only [Attached.step] at h
      split at h
      · obtain rfl := Option.some.inj h
        rfl
      · cases h
  | enable =>
      obtain ⟨-, rfl⟩ := guard_eq_some.mp h
      rfl
  | read =>
      have hread := JobLogStream.queue_jobId (job.replayLog.replayFrom a.stream.cursor) a.stream
      obtain ⟨-, -, ⟨-, rfl⟩ | ⟨-, -, rfl⟩ | ⟨-, -, rfl⟩⟩ := step_read_eq_some h
      · exact hread
      · exact hread
      · exact hread
  | park =>
      obtain ⟨-, rfl⟩ := guard_eq_some.mp h
      rfl
  | resume =>
      obtain ⟨-, rfl⟩ := guard_eq_some.mp h
      rfl
  | drop =>
      obtain ⟨-, rfl⟩ := guard_eq_some.mp h
      rfl

/-- A read that returns has found the job terminal. -/
theorem step_read_idle (h : a.step false job .read = some a') (hidle : a'.pc = .idle) :
    job.status.isTerminal = true := by
  obtain ⟨-, -, ⟨-, rfl⟩ | ⟨-, hterm, rfl⟩ | ⟨-, -, rfl⟩⟩ := step_read_eq_some h
  · cases hidle
  · exact hterm
  · cases hidle

end Attached

/-- The job is the session's, and has ended with the status. -/
def Server.Ended (s : Server) (sid : SessionId) (id : JobId) (status : JobStatus) : Prop :=
  status.isTerminal = true
    ∧ ∃ job, s.engine.jobs.get id = some job ∧ job.sessionId = sid ∧ job.status = status

theorem Server.Progress.ended {s s' : Server} (h : s.Progress s') {sid : SessionId} {id : JobId}
    {status : JobStatus} (hended : s.Ended sid id status) : s'.Ended sid id status := by
  obtain ⟨hterm, job, hget, hsid, hstatus⟩ := hended
  obtain ⟨job', hget', hprog⟩ := h id job hget
  obtain rfl := hprog.frozen (by rw [hstatus]; exact hterm)
  exact ⟨hterm, job', hget', hsid, hstatus⟩

/-- The answer is what the job, which has ended, will always say. -/
def Server.Last (s : Server) (response : JobStatusResponse) : Prop :=
  ∃ job, s.engine.jobs.get response.jobId = some job ∧ job.status = response.status
    ∧ job.replayLog.nextSeq = response.seq

theorem Server.Progress.last {s s' : Server} (h : s.Progress s') {response : JobStatusResponse}
    (hterm : response.status.isTerminal = true) (hlast : s.Last response) : s'.Last response := by
  obtain ⟨job, hget, hstatus, hseq⟩ := hlast
  obtain ⟨job', hget', hprog⟩ := h _ job hget
  obtain rfl := hprog.frozen (by rw [hstatus]; exact hterm)
  exact ⟨job', hget', hstatus, hseq⟩

/-- A push wakes the streams or leaves them alone. -/
theorem Server.pushLog_streams (s : Server) (id : JobId) (job : Job) (event : AppendLogEvent) :
    (s.pushLog id job event).streams = s.wake id
      ∨ (s.pushLog id job event).streams = s.streams := by
  unfold pushLog
  cases (job.pushLog event).1 with
  | ok seq => exact Or.inl rfl
  | error e => exact Or.inr rfl

/-- Streams are attached to jobs of their own session; terminal statuses and
ends of streams are told of jobs that have ended. -/
structure SeenInv (s : Server) : Prop where
  streams : ∀ i sid a, s.streams i = some (sid, a) → s.engine.Owns sid a.stream.jobId
  statuses : ∀ x ∈ s.observed.statuses, x.2.status.isTerminal = true →
    s.Ended x.1 x.2.jobId x.2.status ∧ s.Last x.2
  ended : ∀ x ∈ s.observed.ended, s.Ended x.1 x.2.1 x.2.2

namespace SeenInv

variable {s s' : Server} {l : ServerLabel} {display : Error → String}

theorem init (h : (serverSystem display).init s) : SeenInv s := by
  obtain ⟨-, -, -, -, -, -, -, -, -, -, -, -, hstreams, hobserved⟩ := h
  refine ⟨?_, ?_, ?_⟩
  · intro i sid a hstream
    rw [hstreams] at hstream
    cases hstream
  · intro x hmem
    rw [hobserved] at hmem
    cases hmem
  · intro x hmem
    rw [hobserved] at hmem
    cases hmem

/-- Where nothing new is told, and streams stay on the jobs of their session. -/
theorem frame (h : SeenInv s) (hprog : s.Progress s')
    (hstreams : ∀ i sid a, s'.streams i = some (sid, a) → s.engine.Owns sid a.stream.jobId)
    (hstatuses : s'.observed.statuses = s.observed.statuses)
    (hended : s'.observed.ended = s.observed.ended) : SeenInv s' := by
  refine ⟨?_, ?_, ?_⟩
  · exact fun i sid a hstream => hprog.owns (hstreams i sid a hstream)
  · intro x hmem hterm
    rw [hstatuses] at hmem
    obtain ⟨hfinal, hlast⟩ := h.statuses x hmem hterm
    exact ⟨hprog.ended hfinal, hprog.last hterm hlast⟩
  · intro x hmem
    rw [hended] at hmem
    exact hprog.ended (h.ended x hmem)

/-- Waking moves no stream. -/
theorem wake (h : SeenInv s) (id : JobId) (i : Nat) (sid : SessionId) (a : Attached)
    (hstream : s.wake id i = some (sid, a)) : s.engine.Owns sid a.stream.jobId := by
  obtain ⟨⟨sid', a'⟩, hold, heq⟩ := Option.map_eq_some_iff.mp hstream
  obtain ⟨rfl, rfl⟩ := Prod.mk.inj heq
  have hown := h.streams i sid' a' hold
  split
  · rw [Attached.wake_stream]
    exact hown
  · exact hown

theorem step_answered (h : SeenInv s) {cs : HashMap Nat ServerCall} {req : JobStatusRequest}
    {response : JobStatusResponse} (hstatus : s.engine.status req = .ok response) :
    SeenInv
      { s with
        calls := cs
        observed :=
          { s.observed with
            statuses := s.observed.statuses ++ [(req.sessionId, response)] } } := by
  refine ⟨h.streams, ?_, h.ended⟩
  intro x hmem hterm
  rcases List.mem_append.mp hmem with hold | hnew
  · exact h.statuses x hold hterm
  · obtain rfl := List.mem_singleton.mp hnew
    obtain ⟨job, hfound, heq⟩ := bind_eq_ok.mp hstatus
    obtain ⟨hget, hsid⟩ := JobEngine.lookupOwned_eq_ok.mp hfound
    obtain rfl := Except.ok.inj heq
    exact ⟨⟨hterm, job, hget, hsid, rfl⟩, job, hget, rfl, rfl⟩

/-- A stream that has moved is still its session's. -/
theorem update (h : SeenInv s) {i : Nat} {sid : SessionId} {a a' : Attached}
    (hown : s.engine.Owns sid a.stream.jobId) (hjobId : a'.stream.jobId = a.stream.jobId) :
    ∀ j sid' b, Function.update s.streams i (some (sid, a')) j = some (sid', b) →
      s.engine.Owns sid' b.stream.jobId := by
  intro j sid' b hb
  by_cases hj : j = i
  · rw [hj, Function.update_self] at hb
    obtain ⟨rfl, rfl⟩ := Prod.mk.inj (Option.some.inj hb)
    rw [hjobId]
    exact hown
  · rw [Function.update_of_ne hj] at hb
    exact h.streams j sid' b hb

theorem step (h : SeenInv s) (hprog : s.Progress s') (he : Effect s l s') : SeenInv s' := by
  cases he with
  | answered cs call req response hc hstatus => exact h.step_answered hstatus
  | streamed i sid a a' job act hstream hjob ha =>
      exact h.frame hprog (h.update (h.streams i sid a hstream) (Attached.step_jobId ha)) rfl rfl
  | streamEnded i sid a a' job hstream hjob ha hidle =>
      have hown := h.streams i sid a hstream
      have hframe : SeenInv { s with streams := Function.update s.streams i (some (sid, a')) } :=
        h.frame hprog (h.update hown (Attached.step_jobId ha)) rfl rfl
      refine ⟨hframe.streams, hframe.statuses, ?_⟩
      intro x hmem
      rcases List.mem_append.mp hmem with hold | hnew
      · exact h.ended x hold
      · obtain rfl := List.mem_singleton.mp hnew
        obtain ⟨job', hget, hsid⟩ := hown
        obtain rfl := Option.some.inj (hjob.symm.trans hget)
        exact ⟨Attached.step_read_idle ha hidle, job, hget, hsid, rfl⟩
  | attached cs call req job hget hsid =>
      refine h.frame hprog ?_ rfl rfl
      exact h.update (a := ⟨⟨req.jobId, req.fromOffset, []⟩, .idle, false, req.fromOffset, []⟩)
        ⟨job, hget, hsid⟩ rfl
  | notified id life status hlife hpc => exact h.frame hprog (h.wake id) rfl rfl
  | pushed id life task task' job event hlife hpc hjob =>
      refine h.frame hprog ?_ rfl rfl
      intro i sid a hstream
      rcases s.pushLog_streams id job event with hwoken | hsame
      · exact h.wake id i sid a (hwoken ▸ hstream)
      · exact h.streams i sid a (hsame ▸ hstream)
  | _ => exact h.frame hprog h.streams rfl rfl

theorem reach (h : Reach (serverSystem display) s) : SeenInv s := by
  have hboth : JobsInv s ∧ SeenInv s := by
    refine h.invariant (I := fun s => JobsInv s ∧ SeenInv s)
      (fun _ h0 => ⟨JobsInv.init h0, init h0⟩) fun _ _ _ hinv _ hs => ?_
    have he := Server.step_effect hs
    exact ⟨hinv.1.step he, hinv.2.step (hinv.1.progress he) he⟩
  exact hboth.2

end SeenInv

/-! ## One way -/

/-- Along a run every job is kept, and makes progress. -/
theorem run_progress {display : Error → String} {s s' : Server} {ls : List ServerLabel}
    (h : JobsInv s) (hrun : (serverSystem display).run s ls = some s') : s.Progress s' := by
  have hstep : ∀ t l t', JobsInv t ∧ s.Progress t → (serverSystem display).step t l = some t' →
      JobsInv t' ∧ s.Progress t' := by
    rintro t l t' ⟨hinv, hprog⟩ hs
    have he := Server.step_effect hs
    refine ⟨hinv.step he, fun id job hget => ?_⟩
    obtain ⟨job', hget', hprog'⟩ := hprog id job hget
    obtain ⟨job'', hget'', hprog''⟩ := hinv.progress he id job' hget'
    exact ⟨job'', hget'', hprog'.trans hprog''⟩
  exact (run_invariant hstep ⟨h, JobsInv.progress_same rfl⟩ hrun).2

/-- In every run: a job in the store is never pending, has a start, and has an
end exactly if its status is terminal; it is inserted running; from then on its
status changes at most once, to a terminal one, and once it is terminal the
whole job stays as it is, its log included; and a terminal status that has been
answered is the one the job keeps, with the count of events it keeps. -/
theorem job_life_is_one_way {display : Error → String} {s : Server}
    (hs : Reach (serverSystem display) s) :
    (∀ id job, s.engine.jobs.get id = some job → job.WellFormed)
      ∧ (∀ l s', (serverSystem display).step s l = some s' → ∀ id job,
        s.engine.jobs.get id = none → s'.engine.jobs.get id = some job →
        job.status = .running ∧ job.startedAt.isSome = true ∧ job.finishedAt = none)
      ∧ ∀ ls s', (serverSystem display).run s ls = some s' →
        (∀ id job, s.engine.jobs.get id = some job → ∃ job',
          s'.engine.jobs.get id = some job' ∧ job'.startedAt = job.startedAt
          ∧ (job'.status = job.status
            ∨ job.status = .running ∧ job'.status.isTerminal = true)
          ∧ (job.status.isTerminal = true → job' = job))
        ∧ ∀ x ∈ s.observed.statuses, x.2.status.isTerminal = true →
          ∃ job, s'.engine.jobs.get x.2.jobId = some job ∧ job.status = x.2.status
            ∧ job.replayLog.nextSeq = x.2.seq := by
  have hjobs := JobsInv.reach hs
  refine ⟨?_, ?_, ?_⟩
  · intro id job hget
    obtain ⟨life, hlife⟩ := hjobs.jobs id job hget
    obtain ⟨job', hget', hfollows⟩ := hjobs.lives id life hlife
    obtain rfl := Option.some.inj (hget.symm.trans hget')
    exact hfollows.wellFormed
  · exact fun l s' hstep id job => JobsInv.born (Server.step_effect hstep)
  · intro ls s' hrun
    have hprog := run_progress hjobs hrun
    refine ⟨fun id job hget => ?_, fun x hmem hterm => ?_⟩
    · obtain ⟨job', hget', hp⟩ := hprog id job hget
      exact ⟨job', hget', hp.started, hp.status, hp.frozen⟩
    · exact hprog.last hterm ((SeenInv.reach hs).statuses x hmem hterm).2

/-- A job that has exited, and whose status has been asked for. -/
theorem job_life_is_one_way_exited : ∃ s, Reach (serverSystem fun _ => "") s
    ∧ s.observed.statuses = [(⟨"s_1"⟩, ⟨⟨"j_1"⟩, .exited 0, 0⟩)]
    ∧ ∀ ls s', (serverSystem fun _ => "").run s ls = some s' →
      ∃ job, s'.engine.jobs.get ⟨"j_1"⟩ = some job ∧ job.status = .exited 0 := by
  obtain ⟨s, hs, hp⟩ := ReachVia.of_run (G := fun _ _ => True) (Server.launched_init fun _ => "")
    (insertRun ++ spawnRun ++ exitRun ++ statusRun 2)
    (fun s => s.observed.statuses = [(⟨"s_1"⟩, ⟨⟨"j_1"⟩, .exited 0, 0⟩)]) (by decide +kernel)
  have hstatuses := of_decide_eq_true hp
  refine ⟨s, hs, hstatuses, fun ls s' hrun => ?_⟩
  obtain ⟨job, hget, hstatus, -⟩ := ((job_life_is_one_way hs).2.2 ls s' hrun).2
    (⟨"s_1"⟩, ⟨⟨"j_1"⟩, .exited 0, 0⟩) (by rw [hstatuses]; exact List.mem_singleton_self _) rfl
  exact ⟨job, hget, hstatus⟩

end Axp
