import Axp.Signals

/-!
# What a cancel answers

A cancel's answer is read off the cancellation table, a job's status off the
job. The table has the entry of a job from the step of `start` after the one
that inserts it until the last step of `finish_job`, three steps after the
terminal write, so at both ends of a job's life there is a window in which the
two tables disagree: a job that has been inserted is running and cannot be
cancelled, and a job that has been seen finished can.

`cancel_answers_iff` says that these windows are all there is: along a run the
answers agree with the statuses exactly if no cancel takes effect in one of
them.
-/

namespace Axp

open Lts

/-! ## Agreement, and when a job can be cancelled -/

/-- An answer agrees with the job's status: `ok: false` where the caller had
been told before the call that the job was finished, and where it is
`ok: false` the job is finished or an earlier call had signalled it. -/
structure CancelReport.Agrees (r : CancelReport) : Prop where
  finished : r.told = true → r.ok = false
  refused : r.ok = false → r.finished = true ∨ r.signalled = true

/-- Every answer of a `cancel` agrees with the job's status. -/
def CancelsAgree (s : Server) : Prop := ∀ r ∈ s.observed.cancels, r.Agrees

/-- The job is past its registration and, for a caller that has been told it
is finished, past `finish_job`, unless an earlier call has signalled it. -/
def Life.Cancellable (life : Life) (told signalled : Bool) : Prop :=
  life.pc.registered = true ∧ (told = true → life.pc.isErased = true ∨ signalled = true)

/-- The request that a call is about to kill a job for, and whether its caller
had been told. -/
def ServerCall.kills : ServerCall → Option (JobCancelRequest × Bool)
  | .killing req told => some (req, told)
  | _ => none

/-- A call that is about to kill a job does not do so in one of the windows. -/
def ServerCall.Timely (s : Server) (c : ServerCall) : Prop :=
  ∀ x ∈ c.kills, ∀ life ∈ s.lives.lookup x.1.jobId,
    life.Cancellable x.2 (s.observed.signalled x.1.jobId)

/-- A cancel does not take effect in one of the windows. -/
def Timely (s : Server) (l : ServerLabel) : Prop := s.Advances (·.Timely s) l

instance (life : Life) (told signalled : Bool) : Decidable (life.Cancellable told signalled) :=
  inferInstanceAs (Decidable (_ ∧ _))

instance (s : Server) (c : ServerCall) : Decidable (c.Timely s) :=
  inferInstanceAs (Decidable (∀ x ∈ c.kills, _))

instance (s : Server) (l : ServerLabel) : Decidable (Timely s l) :=
  inferInstanceAs (Decidable (s.Advances _ l))

/-! ## The step rule -/

variable {display : Error → String} {s s' : Server} {l : ServerLabel}

/-- Where the entry of a job is, by the point its life is at. -/
theorem CancelsInv.entry_cases (h : CancelsInv s) {id : JobId} {life : Life}
    (hlife : s.lives.lookup id = some life) :
    (s.engine.cancels.lookup id ≠ none ∧ life.pc.registered = true ∧ life.pc.isErased = false
        ∧ s.observed.signalled id = false)
      ∨ (s.engine.cancels.lookup id = none
        ∧ (life.pc.registered = false ∧ s.observed.signalled id = false
          ∨ life.pc.registered = true
            ∧ (s.observed.signalled id = true ∨ life.pc.isErased = true))) := by
  have hreports : s.observed.signalled id = false ↔ s.observed.reports id = 0 := by
    rw [← Bool.not_eq_true, Observed.signalled_iff, not_not]
  cases h.signals.armed id life hlife with
  | unregistered hpc hrx hsender hzero =>
      exact Or.inr ⟨(h.signals.table id).mpr hsender, Or.inl ⟨hpc, hreports.mpr hzero⟩⟩
  | held ch hpc hpc' hrx hsender hnot hzero =>
      refine Or.inl ⟨fun hnone => ?_, hpc, hpc', hreports.mpr hzero⟩
      rw [(h.signals.table id).mp hnone] at hsender
      cases hsender
  | signalled ch hpc hrx hsender hmem hone =>
      refine Or.inr ⟨(h.signals.table id).mpr hsender, Or.inr ⟨hpc, Or.inl ?_⟩⟩
      rw [Observed.signalled_iff, hone]
      exact one_ne_zero
  | dropped ch hpc hrx hsender hnot hzero =>
      refine Or.inr ⟨(h.signals.table id).mpr hsender, Or.inr ⟨?_, Or.inr hpc⟩⟩
      cases hlife : life.pc <;> rw [hlife] at hpc <;> first | rfl | cases hpc

/-- Whether the job is finished, by the point its life is at. -/
theorem CancelsInv.finished_eq (h : CancelsInv s) {id : JobId} {life : Life}
    (hlife : s.lives.lookup id = some life) :
    (s.engine.jobs.get id).any (·.status.isTerminal) = life.pc.ended.isSome := by
  obtain ⟨job, hget, hfollows⟩ := h.jobs.lives id life hlife
  rw [hget, Option.any_some]
  cases hended : life.pc.ended with
  | none =>
      rw [(hfollows.running hended).1]
      rfl
  | some status =>
      rw [(hfollows.ended status hended).1]
      exact status.property

/-- A cancel answers in agreement with the job's status exactly when it does
not take effect in one of the windows. -/
theorem CancelsInv.agrees_iff (h : CancelsInv s) (req : JobCancelRequest) (told : Bool)
    {life : Life} (hlife : s.lives.lookup req.jobId = some life) :
    (s.cancelReport req told (s.engine.cancels.lookup req.jobId).isSome).Agrees
      ↔ life.Cancellable told (s.observed.signalled req.jobId) := by
  have hfinished := h.finished_eq hlife
  rcases h.entry_cases hlife with ⟨hentry, hregistered, herased, hsignalled⟩
      | ⟨hentry, ⟨hregistered, hsignalled⟩ | ⟨hregistered, hover⟩⟩
  · -- The entry is there, and the answer `ok: true`.
    rw [Option.isSome_iff_ne_none.mpr hentry]
    constructor
    · intro hagrees
      exact ⟨hregistered, fun htold => (nomatch hagrees.finished htold)⟩
    · rintro ⟨-, htold⟩
      refine ⟨fun htold' => ?_, fun hfalse => (nomatch hfalse)⟩
      rcases htold htold' with h' | h'
      · rw [herased] at h'
        cases h'
      · rw [hsignalled] at h'
        cases h'
  · -- There is none yet.
    rw [hentry]
    constructor
    · intro hagrees
      have hpc : life.pc.ended = none := by
        cases hpc : life.pc <;> rw [hpc] at hregistered <;> first | rfl | cases hregistered
      rcases hagrees.refused rfl with h' | h'
      · have h'' := hfinished.symm.trans h'
        rw [hpc] at h''
        cases h''
      · cases hsignalled.symm.trans h'
    · rintro ⟨hregistered', -⟩
      rw [hregistered] at hregistered'
      cases hregistered'
  · -- There is none any more.
    rw [hentry]
    refine iff_of_true ⟨fun _ => rfl, fun _ => hover.symm.imp_left fun herased => ?_⟩
      ⟨hregistered, fun _ => hover.symm⟩
    refine hfinished.trans ?_
    cases hpc : life.pc <;> rw [hpc] at herased <;> first | rfl | cases herased

/-- The effect of a cancel on the answers. -/
theorem cancels_killing {call : Nat} {req : JobCancelRequest} {told : Bool} (env : Env)
    (now : SystemTime) : (s.advance call env now (.killing req told)).observed.cancels
      = s.observed.cancels
        ++ [s.cancelReport req told (s.engine.cancels.lookup req.jobId).isSome] := by
  rcases s.kill_cases req.jobId with ⟨hsome, hkill⟩ | ⟨hnone, hkill⟩
  · simp only [Server.advance, hkill, Option.isSome_iff_ne_none.mpr hsome]
    rfl
  · simp only [Server.advance, hkill, hnone]
    rfl

/-- A call is about to cancel a job. -/
def Kills (s : Server) (l : ServerLabel) : Prop :=
  ∃ call env now req told, l = .advance call env now
    ∧ s.calls.lookup call = some (.killing req told)

theorem timely_of_not_kills (h : ¬Kills s l) : Timely s l := by
  refine Server.advances_of_forall fun call env now c hl hc => ?_
  cases c with
  | killing req told => exact absurd ⟨call, env, now, req, told, hl, hc⟩ h
  | _ => exact fun x hx => (nomatch hx)

/-- No other step answers a cancel. -/
theorem cancels_same (h : ¬Kills s l) (he : Effect s l s') :
    s'.observed.cancels = s.observed.cancels := by
  cases he with
  | cancelled cs call req told env now hl hc => exact absurd ⟨call, env, now, req, told, hl, hc⟩ h
  | refused cs call req told env now hl hc => exact absurd ⟨call, env, now, req, told, hl, hc⟩ h
  | _ => rfl

/-- A step keeps the answers in agreement exactly if it is timely. -/
theorem CancelsInv.step_agrees (h : CancelsInv s) (hagree : CancelsAgree s)
    (hs : (serverSystem display).step s l = some s') : CancelsAgree s' ↔ Timely s l := by
  by_cases hkills : Kills s l
  · obtain ⟨call, env, now, req, told, rfl, hc⟩ := hkills
    obtain ⟨job, hget, -⟩ := h.owners.killing call req told hc
    obtain ⟨life, hlife⟩ := h.jobs.jobs req.jobId job hget
    have htimely : (ServerCall.killing req told).Timely s
        ↔ life.Cancellable told (s.observed.signalled req.jobId) := by
      constructor
      · exact fun hall => hall _ rfl life hlife
      · intro hcan x hx life' hlife'
        obtain rfl := Option.some.inj hx
        obtain rfl := Option.some.inj (hlife.symm.trans hlife')
        exact hcan
    rw [Timely, Server.advances_iff hc, htimely, ← h.agrees_iff req told hlife, CancelsAgree,
      Server.step_advance hc hs, cancels_killing]
    exact forall_mem_concat hagree
  · refine iff_of_true ?_ (timely_of_not_kills hkills)
    rw [CancelsAgree, cancels_same hkills (Server.step_effect hs)]
    exact hagree

/-! ## Runs -/

/-- Along every run from a start of the server, all answers of cancels agree
with the jobs' statuses if and only if every cancel is timely. -/
theorem cancel_answers_iff (display : Error → String) {s : Server}
    (hs : (serverSystem display).init s) (ls : List ServerLabel) :
    (serverSystem display).Always CancelsAgree s ls
      ↔ (serverSystem display).Throughout Timely s ls := by
  refine System.always_iff_of_step (fun s l s' hJ => hJ.step_agrees)
    (fun s l s' hJ => CancelsInv.step hJ) (fun r hmem => ?_) (.init hs) ls
  obtain ⟨-, -, -, -, -, -, -, -, -, -, -, -, -, hobserved⟩ := hs
  rw [hobserved] at hmem
  cases hmem

/-- The session cancels its job, by the call `call`. -/
def cancelRun (call : Nat) : List ServerLabel :=
  [.request (.jobCancel ⟨⟨"s_1"⟩, "ct_1", ⟨"j_1"⟩⟩), .advance call plainHost .unixEpoch,
    .advance call plainHost .unixEpoch]

/-- A job is cancelled while it runs, and again by a caller that has seen it
finished. -/
theorem cancel_answers_iff_twice : (serverSystem fun _ => "").Always CancelsAgree .launched
    (insertRun ++ spawnRun ++ cancelRun 2 ++ [.life ⟨"j_1"⟩ (.drain .cancelReady) .unixEpoch]
      ++ exitRun ++ statusRun 3 ++ cancelRun 4) := by
  obtain ⟨s, hrun⟩ := Option.isSome_iff_exists.mp
    (show ((serverSystem fun _ => "").runVia Timely .launched
      (insertRun ++ spawnRun ++ cancelRun 2 ++ [.life ⟨"j_1"⟩ (.drain .cancelReady) .unixEpoch]
        ++ exitRun ++ statusRun 3 ++ cancelRun 4)).isSome = true by decide +kernel)
  exact (cancel_answers_iff _ (Server.launched_init _) _).mpr (System.throughout_of_runVia hrun)

/-- A job that its owner has seen finished is cancelled with `ok: true`, before
`finish_job` has returned; and a job that has been inserted but not registered,
running and never signalled, answers `ok: false`. -/
theorem cancel_answers_disagree :
    (∃ s, Reach (serverSystem fun _ => "") s
        ∧ s.observed.statuses = [(⟨"s_1"⟩, ⟨⟨"j_1"⟩, .exited 0, 0⟩)]
        ∧ s.observed.cancels = [⟨⟨"s_1"⟩, ⟨"j_1"⟩, true, true, true, false⟩]
        ∧ ¬CancelsAgree s)
      ∧ ∃ s, Reach (serverSystem fun _ => "") s
        ∧ (s.engine.jobs.get ⟨"j_1"⟩).map (·.status) = some .running
        ∧ s.observed.cancels = [⟨⟨"s_1"⟩, ⟨"j_1"⟩, false, false, false, false⟩]
        ∧ ¬CancelsAgree s := by
  constructor
  · obtain ⟨s, hs, hp⟩ := ReachVia.of_run (G := fun _ _ => True)
      (Server.launched_init fun _ => "")
      (insertRun ++ spawnRun ++ exitRun ++ statusRun 2 ++ cancelRun 3)
      (fun s => s.observed.statuses = [(⟨"s_1"⟩, ⟨⟨"j_1"⟩, .exited 0, 0⟩)]
        && s.observed.cancels = [⟨⟨"s_1"⟩, ⟨"j_1"⟩, true, true, true, false⟩])
      (by decide +kernel)
    simp only [Bool.and_eq_true, decide_eq_true_eq] at hp
    refine ⟨s, hs, hp.1, hp.2, fun hagree => ?_⟩
    have hr := hagree _ (by rw [hp.2]; exact List.mem_singleton_self _)
    cases hr.finished rfl
  · obtain ⟨s, hs, hp⟩ := ReachVia.of_run (G := fun _ _ => True)
      (Server.launched_init fun _ => "") (insertRun ++ cancelRun 2)
      (fun s => (s.engine.jobs.get ⟨"j_1"⟩).map (·.status) = some .running
        && s.observed.cancels = [⟨⟨"s_1"⟩, ⟨"j_1"⟩, false, false, false, false⟩])
      (by decide +kernel)
    simp only [Bool.and_eq_true, decide_eq_true_eq] at hp
    refine ⟨s, hs, hp.1, hp.2, fun hagree => ?_⟩
    have hr := hagree _ (by rw [hp.2]; exact List.mem_singleton_self _)
    rcases hr.refused rfl with h | h
    · cases h
    · cases h

end Axp
