import Axp.Engine
import Axp.Lts

/-!
# Sessions and each other's jobs

Jobs share one map and one cancellation table, under ids anybody can guess.
What separates the sessions is `lookup_owned`, which answers for a job of
another session as it does for no job at all.

The statement is about two runs. Two engines that agree on what a session owns
(`Agree`) answer every list of its requests alike, whatever else they hold,
because each request keeps them in agreement: it reads an owned job, or erases
the cancellation entry of one, or does nothing.
-/

namespace Axp

open Lts Directory

/-! ## The requests -/

/-- A request about one job. -/
inductive JobRequest where
  | status (req : JobStatusRequest)
  | cancel (req : JobCancelRequest)
  | attach (req : JobAttachRequest)

inductive JobAnswer where
  | status (r : Result JobStatusResponse)
  | cancel (r : Result JobCancelResponse)
  | attach (r : Result (JobLogStream × Job))

namespace JobRequest

def sessionId : JobRequest → SessionId
  | .status req => req.sessionId
  | .cancel req => req.sessionId
  | .attach req => req.sessionId

def jobId : JobRequest → JobId
  | .status req => req.jobId
  | .cancel req => req.jobId
  | .attach req => req.jobId

/-- The answer for a job that is not there. -/
def notFound : JobRequest → JobAnswer
  | .status req => .status (.error (.jobNotFound req.jobId))
  | .cancel req => .cancel (.error (.jobNotFound req.jobId))
  | .attach req => .attach (.error (.jobNotFound req.jobId))

end JobRequest

/-- The engine as a machine that is given requests about jobs. -/
def jobMachine : Machine JobEngine JobRequest JobAnswer where
  step e
    | .status req => (e, .status (e.status req))
    | .cancel req => ((e.cancel req).2, .cancel (e.cancel req).1)
    | .attach req => (e, .attach (e.attach req))

/-! ## What a session owns -/

namespace JobEngine

/-- The job exists and is the session's. -/
def Owns (self : JobEngine) (sid : SessionId) (id : JobId) : Prop :=
  ∃ job, self.jobs.get id = some job ∧ job.sessionId = sid

/-- Two engines that a session cannot tell apart by its own jobs. -/
structure Agree (sid : SessionId) (e e' : JobEngine) : Prop where
  jobs : ∀ id job, job.sessionId = sid →
    (e.jobs.get id = some job ↔ e'.jobs.get id = some job)
  cancels : ∀ id, e.Owns sid id → e.cancels.lookup id = e'.cancels.lookup id

/-- No job has disappeared or changed hands. -/
def KeepsOwners (e e' : JobEngine) : Prop := ∀ sid id, e.Owns sid id → e'.Owns sid id

variable {e e' : JobEngine} {sid : SessionId} {id : JobId} {job : Job}

theorem lookupOwned_eq_ok :
    e.lookupOwned sid id = .ok job ↔ e.jobs.get id = some job ∧ job.sessionId = sid := by
  rw [lookupOwned, bind_eq_ok]
  constructor
  · rintro ⟨found, hfound, hcheck⟩
    split at hcheck
    · next howner =>
        obtain rfl := Except.ok.inj hcheck
        exact ⟨okOr_eq_ok.mp hfound, howner⟩
    · cases hcheck
  · rintro ⟨hget, howner⟩
    exact ⟨job, okOr_eq_ok.mpr hget, if_pos howner⟩

/-- A job of another session is as good as none. -/
theorem lookupOwned_foreign (h : ¬e.Owns sid id) :
    e.lookupOwned sid id = .error (.jobNotFound id) := by
  unfold lookupOwned
  cases hget : e.jobs.get id with
  | none => rfl
  | some found => exact if_neg fun howner => h ⟨found, hget, howner⟩

theorem Agree.owns (h : Agree sid e e') : e.Owns sid id ↔ e'.Owns sid id := by
  constructor
  · rintro ⟨job, hget, howner⟩
    exact ⟨job, (h.jobs id job howner).mp hget, howner⟩
  · rintro ⟨job, hget, howner⟩
    exact ⟨job, (h.jobs id job howner).mpr hget, howner⟩

theorem Agree.lookupOwned (h : Agree sid e e') (id : JobId) :
    e.lookupOwned sid id = e'.lookupOwned sid id := by
  by_cases hown : e.Owns sid id
  · obtain ⟨job, hget, howner⟩ := hown
    have hget' := (h.jobs id job howner).mp hget
    rw [lookupOwned_eq_ok.mpr ⟨hget, howner⟩, lookupOwned_eq_ok.mpr ⟨hget', howner⟩]
  · rw [lookupOwned_foreign hown, lookupOwned_foreign (h.owns.not.mp hown)]

/-! ## What a cancel does -/

/-- The entry is taken and the answer is `ok: true`, or there is none and it is
`ok: false`. -/
theorem cancelOwned_cases (e : JobEngine) (id : JobId) :
    (e.cancels.lookup id ≠ none
        ∧ e.cancelOwned id = (.ok { ok := true }, { e with cancels := e.cancels.erase id }))
      ∨ (e.cancels.lookup id = none ∧ e.cancelOwned id = (.ok { ok := false }, e)) := by
  unfold cancelOwned killJob
  cases h : e.cancels.lookup id with
  | some entry => exact Or.inl ⟨Option.some_ne_none _, rfl⟩
  | none => exact Or.inr ⟨rfl, rfl⟩

theorem cancelOwned_jobs (e : JobEngine) (id : JobId) : (e.cancelOwned id).2.jobs = e.jobs := by
  rcases e.cancelOwned_cases id with ⟨-, h⟩ | ⟨-, h⟩
  · rw [h]
  · rw [h]

theorem cancelOwned_lookup (e : JobEngine) {id id' : JobId} (hne : id' ≠ id) :
    (e.cancelOwned id).2.cancels.lookup id' = e.cancels.lookup id' := by
  rcases e.cancelOwned_cases id with ⟨-, h⟩ | ⟨-, h⟩
  · rw [h]
    exact AList.lookup_erase_ne hne
  · rw [h]

/-- Cancelling the same owned job answers alike and keeps the agreement. -/
theorem Agree.cancelOwned (h : Agree sid e e') (hown : e.Owns sid id) :
    (e.cancelOwned id).1 = (e'.cancelOwned id).1
      ∧ Agree sid (e.cancelOwned id).2 (e'.cancelOwned id).2 := by
  have hentry := h.cancels id hown
  rcases e.cancelOwned_cases id with ⟨hsome, hc⟩ | ⟨hnone, hc⟩
  · rcases e'.cancelOwned_cases id with ⟨-, hc'⟩ | ⟨hnone', -⟩
    · rw [hc, hc']
      refine ⟨rfl, h.jobs, fun id' hown' => ?_⟩
      show (e.cancels.erase id).lookup id' = (e'.cancels.erase id).lookup id'
      by_cases hid : id' = id
      · rw [hid, AList.lookup_erase, AList.lookup_erase]
      · rw [AList.lookup_erase_ne hid, AList.lookup_erase_ne hid]
        exact h.cancels id' hown'
    · exact absurd (hentry.trans hnone') hsome
  · rcases e'.cancelOwned_cases id with ⟨hsome', -⟩ | ⟨-, hc'⟩
    · exact absurd (hentry.symm.trans hnone) hsome'
    · rw [hc, hc']
      exact ⟨rfl, h⟩

end JobEngine

/-! ## One request -/

section Request

open JobEngine

variable {e e' : JobEngine} {sid : SessionId}

theorem cancel_of_owns {req : JobCancelRequest} (h : e.Owns req.sessionId req.jobId) :
    e.cancel req = e.cancelOwned req.jobId := by
  obtain ⟨job, hget, howner⟩ := h
  rw [JobEngine.cancel, lookupOwned_eq_ok.mpr ⟨hget, howner⟩]

/-- For a job it does not own, a session is told that there is none. -/
theorem jobMachine_foreign (e : JobEngine) (r : JobRequest) (h : ¬e.Owns r.sessionId r.jobId) :
    jobMachine.step e r = (e, r.notFound) := by
  cases r with
  | status req =>
      have hnone := @lookupOwned_foreign e req.sessionId req.jobId h
      show (e, JobAnswer.status (e.status req)) = _
      rw [JobEngine.status, hnone]
      rfl
  | cancel req =>
      have hnone := @lookupOwned_foreign e req.sessionId req.jobId h
      show ((e.cancel req).2, JobAnswer.cancel (e.cancel req).1) = _
      rw [JobEngine.cancel, hnone]
      rfl
  | attach req =>
      have hnone := @lookupOwned_foreign e req.sessionId req.jobId h
      show (e, JobAnswer.attach (e.attach req)) = _
      rw [JobEngine.attach, hnone]
      rfl

/-- The step rule of the two runs. -/
theorem jobMachine_agree (r : JobRequest) (h : Agree sid e e') (hr : r.sessionId = sid) :
    (jobMachine.step e r).2 = (jobMachine.step e' r).2
      ∧ Agree sid (jobMachine.step e r).1 (jobMachine.step e' r).1 := by
  by_cases hown : e.Owns sid r.jobId
  · cases r with
    | status req =>
        obtain rfl : req.sessionId = sid := hr
        refine ⟨congrArg JobAnswer.status ?_, h⟩
        rw [JobEngine.status, JobEngine.status, h.lookupOwned]
    | cancel req =>
        obtain rfl : req.sessionId = sid := hr
        obtain ⟨hanswer, hagree⟩ := h.cancelOwned hown
        show JobAnswer.cancel (e.cancel req).1 = JobAnswer.cancel (e'.cancel req).1
          ∧ Agree _ (e.cancel req).2 (e'.cancel req).2
        rw [cancel_of_owns hown, cancel_of_owns (h.owns.mp hown)]
        exact ⟨congrArg JobAnswer.cancel hanswer, hagree⟩
    | attach req =>
        obtain rfl : req.sessionId = sid := hr
        refine ⟨congrArg JobAnswer.attach ?_, h⟩
        rw [JobEngine.attach, JobEngine.attach, h.lookupOwned]
  · subst hr
    rw [jobMachine_foreign e r hown, jobMachine_foreign e' r (h.owns.not.mp hown)]
    exact ⟨rfl, h⟩

/-- A request leaves the jobs alone, and the entries of all jobs that are not
its session's. -/
theorem jobMachine_frame (e : JobEngine) (r : JobRequest) :
    (jobMachine.step e r).1.jobs = e.jobs ∧ ∀ id, ¬e.Owns r.sessionId id →
      (jobMachine.step e r).1.cancels.lookup id = e.cancels.lookup id := by
  by_cases hown : e.Owns r.sessionId r.jobId
  · cases r with
    | status req => exact ⟨rfl, fun _ _ => rfl⟩
    | attach req => exact ⟨rfl, fun _ _ => rfl⟩
    | cancel req =>
        have hstep : (jobMachine.step e (.cancel req)).1 = (e.cancelOwned req.jobId).2 :=
          congrArg Prod.snd (cancel_of_owns hown)
        rw [hstep]
        refine ⟨e.cancelOwned_jobs _, fun id hid => e.cancelOwned_lookup ?_⟩
        rintro rfl
        exact hid hown
  · rw [jobMachine_foreign e r hown]
    exact ⟨rfl, fun _ _ => rfl⟩

end Request

/-! ## Isolation -/

/-- Two engines that agree on what a session owns answer any list of its
requests alike. A job of another session is answered as a missing one, in the
same state; no request changes a job, or the entry of a job the session does
not own, not even a cancel that takes effect later than its check, in whatever
state the other requests have left behind. -/
theorem sessions_are_isolated (sid : SessionId) {e e' : JobEngine}
    (h : JobEngine.Agree sid e e') :
    (∀ rs : List JobRequest, (∀ r ∈ rs, r.sessionId = sid) →
        jobMachine.outputs e rs = jobMachine.outputs e' rs)
      ∧ ∀ r : JobRequest, r.sessionId = sid →
        (¬e.Owns sid r.jobId → jobMachine.step e r = (e, r.notFound))
        ∧ (jobMachine.step e r).1.jobs = e.jobs
        ∧ (∀ id, ¬e.Owns sid id →
            (jobMachine.step e r).1.cancels.lookup id = e.cancels.lookup id)
        ∧ ∀ later later' : JobEngine, e.Owns sid r.jobId → e.KeepsOwners later →
            (later.cancelOwned r.jobId).2.jobs = later.jobs
            ∧ (∀ id, ¬later.Owns sid id →
                (later.cancelOwned r.jobId).2.cancels.lookup id = later.cancels.lookup id)
            ∧ (JobEngine.Agree sid later later' →
                (later.cancelOwned r.jobId).1 = (later'.cancelOwned r.jobId).1) := by
  refine ⟨fun rs hrs => ?_, fun r hr => ?_⟩
  · refine Machine.outputs_eq (R := JobEngine.Agree sid) (P := fun r => r.sessionId = sid)
      (Q := fun _ => True) (fun _ _ _ => trivial) ?_ h hrs trivial
    exact fun s t r hagree hr _ => jobMachine_agree r hagree hr
  · subst hr
    refine ⟨jobMachine_foreign e r, (jobMachine_frame e r).1, (jobMachine_frame e r).2, ?_⟩
    intro later later' hown hkeeps
    have hlater := hkeeps _ _ hown
    refine ⟨later.cancelOwned_jobs _, fun id hid => later.cancelOwned_lookup ?_,
      fun hagree => (hagree.cancelOwned hlater).1⟩
    rintro rfl
    exact hid hlater

/-- An engine with a running job of `s_1`. -/
def oneJob : JobEngine where
  sessions := .new
  jobs := JobStore.new.insert (Job.launched ⟨"j_1"⟩ ⟨"s_1"⟩ (.command "true") (.ofString "/") 64
    .unixEpoch)
  nextId := 2
  cancels := (∅ : HashMap JobId CancelEntry).insert ⟨"j_1"⟩ .child
  logByteCap := 64
  registry := .new
  tasks := []

/-- The same engine after a start by `s_2`. -/
def twoJobs : JobEngine :=
  let job := Job.launched ⟨"j_2"⟩ ⟨"s_2"⟩ (.command "true") (.ofString "/") 64 .unixEpoch
  { oneJob with jobs := oneJob.jobs.insert job }.registerCancel ⟨"j_2"⟩ .child

theorem twoJobs_agree : JobEngine.Agree ⟨"s_1"⟩ oneJob twoJobs where
  jobs := by
    intro id job howner
    constructor
    · intro hget
      obtain ⟨rfl, -⟩ | ⟨-, hnone⟩ := lookup_insert_iff.mp hget
      · exact hget
      · cases hnone
    · intro hget
      obtain ⟨rfl, rfl⟩ | ⟨-, hsame⟩ := lookup_insert_iff.mp hget
      · exact absurd howner (by decide)
      · exact hsame
  cancels := by
    rintro id ⟨job, hget, -⟩
    obtain ⟨rfl, -⟩ | ⟨-, hnone⟩ := lookup_insert_iff.mp hget
    · rfl
    · cases hnone

/-- `s_1` is told the same about the job of `s_2` as about no job, twice. -/
theorem sessions_are_isolated_guessing :
    jobMachine.outputs oneJob
        [.cancel ⟨⟨"s_1"⟩, "ct_1", ⟨"j_2"⟩⟩, .cancel ⟨⟨"s_1"⟩, "ct_1", ⟨"j_1"⟩⟩]
      = jobMachine.outputs twoJobs
        [.cancel ⟨⟨"s_1"⟩, "ct_1", ⟨"j_2"⟩⟩, .cancel ⟨⟨"s_1"⟩, "ct_1", ⟨"j_1"⟩⟩] :=
  (sessions_are_isolated ⟨"s_1"⟩ twoJobs_agree).1 _ (by
    intro r hr
    simp only [List.mem_cons, List.not_mem_nil, or_false] at hr
    rcases hr with rfl | rfl <;> rfl)

end Axp
