import Axp.AuditTrail

/-!
# What an audit answers

`finish_job` writes the terminal status, wakes the streams and then records the
end of the job in the audit log of its session, each under a lock of its own.
Between the first step and the last a client can see that the job is finished,
and the log does not say so yet.

`audit_answers_iff` says that this is all that can go wrong: along a run the
audits of live sessions have the ends of all the jobs that were seen finished
before, with the statuses seen, exactly if no audit reads the log while one of
them is between these steps.
-/

namespace Axp

open Lts Directory

/-! ## Agreement, and the steps without it -/

/-- An answer about a live session has the end of every job that the session
had seen finished when the call began, with the status seen. -/
def AuditReport.Agrees (r : AuditReport) : Prop :=
  r.live = true → ∀ x ∈ r.seen, .jobFinished x.1 x.2 ∈ r.events.map (·.kind)

/-- Every answer of a `session.audit` has the jobs seen finished. -/
def AuditsAgree (s : Server) : Prop := ∀ r ∈ s.observed.audits, r.Agrees

/-- `finish_job` is past its audit event. -/
def LifePc.audited : LifePc → Bool
  | .retiring _ => true
  | .erased _ => true
  | _ => false

/-- The session whose log a call is about to read, and what the session had
seen finished. -/
def ServerCall.reads : ServerCall → Option (SessionId × List (JobId × JobStatus))
  | .readingAudit sid seen => some (sid, seen)
  | _ => none

/-- A call that reads the log of a live session does not do so before
`finish_job` is past its audit event for a job that had been seen finished. -/
def ServerCall.Published (s : Server) (c : ServerCall) : Prop :=
  ∀ x ∈ c.reads, s.engine.sessions.get x.1 ≠ none →
    ∀ y ∈ x.2, ∀ life ∈ s.lives.lookup y.1, life.pc.audited = true

theorem ServerCall.published_iff {s : Server} {sid : SessionId}
    {seen : List (JobId × JobStatus)} : (ServerCall.readingAudit sid seen).Published s
      ↔ (s.engine.sessions.get sid ≠ none →
        ∀ x ∈ seen, ∀ life ∈ s.lives.lookup x.1, life.pc.audited = true) := by
  constructor
  · exact fun hall => hall _ rfl
  · intro hseen x hx
    obtain rfl := Option.some.inj hx
    exact hseen

/-- An audit does not read the log in the window. -/
def Published (s : Server) (l : ServerLabel) : Prop := s.Advances (·.Published s) l

instance (s : Server) (c : ServerCall) : Decidable (c.Published s) :=
  inferInstanceAs (Decidable (∀ x ∈ c.reads, _))

instance (s : Server) (l : ServerLabel) : Decidable (Published s l) :=
  inferInstanceAs (Decidable (s.Advances _ l))

/-! ## What an audit has been asked for -/

/-- The session that a call audits, and what it had seen. -/
def ServerCall.expects : ServerCall → Option (SessionId × List (JobId × JobStatus))
  | .auditing sid seen => some (sid, seen)
  | .readingAudit sid seen => some (sid, seen)
  | _ => none

/-- What has been seen finished has ended. -/
theorem SeenInv.finished {s : Server} (h : SeenInv s) {sid : SessionId} :
    ∀ x ∈ s.observed.finished sid, s.Ended sid x.1 x.2 := by
  intro x hmem
  rcases List.mem_append.mp hmem with hstatus | hended
  · obtain ⟨⟨sid', response⟩, hfiltered, rfl⟩ := List.mem_map.mp hstatus
    obtain ⟨hold, hboth⟩ := List.mem_filter.mp hfiltered
    obtain ⟨rfl, hterm⟩ := of_decide_eq_true hboth
    exact (h.statuses _ hold hterm).1
  · obtain ⟨⟨sid', ended⟩, hfiltered, rfl⟩ := List.mem_map.mp hended
    obtain ⟨hold, hsame⟩ := List.mem_filter.mp hfiltered
    obtain rfl := of_decide_eq_true hsame
    exact h.ended _ hold

/-- What the logs rest on, and that the calls expect the ends of jobs that
have ended. -/
structure AuditsInv (s : Server) : Prop where
  logs : AuditInv s
  seen : SeenInv s
  expected : ∀ call c sid seen, s.calls.lookup call = some c → c.expects = some (sid, seen) →
    ∀ x ∈ seen, s.Ended sid x.1 x.2

namespace AuditsInv

variable {s s' : Server} {l : ServerLabel} {display : Error → String} {sid : SessionId}

theorem init (h : (serverSystem display).init s) : AuditsInv s := by
  refine ⟨.init h, .init h, ?_⟩
  obtain ⟨-, -, -, -, -, -, -, hcalls, -⟩ := h
  intro call c sid seen hc
  rw [hcalls] at hc
  cases hc

theorem step (h : AuditsInv s) (hs : (serverSystem display).step s l = some s') :
    AuditsInv s' := by
  have he := Server.step_effect hs
  have hprog := h.logs.jobs.progress he
  refine ⟨h.logs.step hs, h.seen.step hprog he, ?_⟩
  intro call c sid seen hc hexpects x hmem
  refine hprog.ended ?_
  rcases Server.step_calls hs hc with hold | hnext
  · exact h.expected call c sid seen hold hexpects x hmem
  · cases hnext with
    | opening session hid hevents heq => cases hexpects
    | first r c hgate hfirst heq =>
        rw [hfirst] at hexpects
        cases r with
        | sessionAudit sid' token =>
            obtain ⟨rfl, rfl⟩ := Prod.mk.inj (Option.some.inj hexpects)
            exact h.seen.finished x hmem
        | _ => cases hexpects
    | killingAll sid' heq => cases hexpects
    | goes call before after hbefore hgoes =>
        cases hgoes with
        | auditing sid' seen' session hget =>
            exact h.expected call _ sid seen hbefore hexpects x hmem
        | _ => cases hexpects

end AuditsInv

/-! ## The step rule -/

/-- A life that has been given its status comes past the end exactly with the
audit event. -/
theorem LifePc.mem_recorded_iff {pc : LifePc} {last : TerminalStatus}
    (h : pc.ended = some last) (id : JobId) :
    .jobFinished id last.val ∈ pc.recorded id ↔ pc.audited = true := by
  cases pc with
  | retiring status =>
      obtain rfl := Option.some.inj h
      exact iff_of_true (List.mem_cons_of_mem _ List.mem_cons_self) rfl
  | erased status =>
      obtain rfl := Option.some.inj h
      exact iff_of_true (List.mem_cons_of_mem _ List.mem_cons_self) rfl
  | notifying status =>
      exact iff_of_false (fun hmem => nomatch List.mem_singleton.mp hmem) nofun
  | finishAuditing status =>
      exact iff_of_false (fun hmem => nomatch List.mem_singleton.mp hmem) nofun
  | finishRecording status =>
      exact iff_of_false (fun hmem => nomatch List.mem_singleton.mp hmem) nofun
  | _ => cases h

namespace AuditsInv

variable {s s' : Server} {l : ServerLabel} {display : Error → String} {sid : SessionId}
  {session : Session} {id : JobId} {status : JobStatus}

/-- The log of a live session has the end of a job that has ended exactly when
`finish_job` is past its audit event. -/
theorem finished_iff (h : AuditsInv s) (hget : s.engine.sessions.get sid = some session)
    (hended : s.Ended sid id status) : .jobFinished id status ∈ session.kinds
      ↔ ∀ life ∈ s.lives.lookup id, life.pc.audited = true := by
  obtain ⟨hterm, job, hjob, hsid, rfl⟩ := hended
  obtain ⟨life, hlife⟩ := h.logs.jobs.jobs id job hjob
  obtain ⟨job', hjob', hfollows⟩ := h.logs.jobs.lives id life hlife
  obtain rfl := Option.some.inj (hjob.symm.trans hjob')
  -- A terminal job has a life past its terminal write.
  obtain ⟨last, hlast⟩ : ∃ last, life.pc.ended = some last := by
    refine Option.ne_none_iff_exists'.mp fun hnone => ?_
    rw [(hfollows.running hnone).1] at hterm
    cases hterm
  have hhome : life.sessionId = sid := hfollows.session.symm.trans hsid
  have hwhole := (h.logs.trail.jobs id life hlife).whole
    (Or.inl (by rw [hhome, hget]; exact Option.some_ne_none _))
  rw [hhome, SessionStore.about_of_behind (SessionStore.behind_of_get hget)] at hwhole
  have hmem : .jobFinished id last.val ∈ session.kinds
      ↔ .jobFinished id last.val ∈ life.pc.recorded id := by
    rw [← hwhole, List.mem_filter]
    exact ⟨fun hmem => ⟨hmem, decide_eq_true rfl⟩, And.left⟩
  rw [(hfollows.ended last hlast).1, hmem, LifePc.mem_recorded_iff hlast]
  constructor
  · intro haudited other hother
    obtain rfl := Option.some.inj (hlife.symm.trans hother)
    exact haudited
  · exact fun hall => hall life hlife

/-- The answer that an audit would give agrees exactly when it does not read
the log in the window. -/
theorem agrees_iff (h : AuditsInv s) {seen : List (JobId × JobStatus)}
    (hsession : s.engine.sessions.behind sid = some session)
    (hseen : ∀ x ∈ seen, s.Ended sid x.1 x.2) :
    (AuditReport.mk sid seen (s.engine.sessions.get sid).isSome session.auditEvents).Agrees
      ↔ (ServerCall.readingAudit sid seen).Published s := by
  cases hget : s.engine.sessions.get sid with
  | none => exact iff_of_true nofun (ServerCall.published_iff.mpr fun hlive => absurd hget hlive)
  | some live =>
      obtain rfl := Option.some.inj ((SessionStore.behind_of_get hget).symm.trans hsession)
      have hfinished : ∀ x ∈ seen, _ := fun x hmem => h.finished_iff hget (hseen x hmem)
      constructor
      · intro hagrees
        exact ServerCall.published_iff.mpr fun _ x hmem =>
          (hfinished x hmem).mp (hagrees rfl x hmem)
      · intro hpublished _ x hmem
        refine (hfinished x hmem).mpr (ServerCall.published_iff.mp hpublished ?_ x hmem)
        rw [hget]
        exact Option.some_ne_none _

end AuditsInv

/-- A call is about to read an audit log. -/
def Reads (s : Server) (l : ServerLabel) : Prop :=
  ∃ call env now sid seen, l = .advance call env now
    ∧ s.calls.lookup call = some (.readingAudit sid seen)

theorem published_of_not_reads {s : Server} {l : ServerLabel} (h : ¬Reads s l) :
    Published s l := by
  refine Server.advances_of_forall fun call env now c hl hc => ?_
  cases c with
  | readingAudit sid seen => exact absurd ⟨call, env, now, sid, seen, hl, hc⟩ h
  | _ => exact fun x hx => (nomatch hx)

/-- No other step answers an audit. -/
theorem audits_same {s s' : Server} {l : ServerLabel} (h : ¬Reads s l) (he : Effect s l s') :
    s'.observed.audits = s.observed.audits := by
  cases he with
  | audited cs call sid seen session env now hl hc =>
      exact absurd ⟨call, env, now, sid, seen, hl, hc⟩ h
  | _ => rfl

namespace AuditsInv

variable {s s' : Server} {l : ServerLabel} {display : Error → String}

/-- A step keeps the answers in agreement exactly if it does not read a log in
the window. -/
theorem step_agrees (h : AuditsInv s) (hagree : AuditsAgree s)
    (hs : (serverSystem display).step s l = some s') : AuditsAgree s' ↔ Published s l := by
  by_cases hreads : Reads s l
  · obtain ⟨call, env, now, sid, seen, rfl, hc⟩ := hreads
    rw [Published, Server.advances_iff hc, Server.step_advance hc hs]
    cases hsession : s.engine.sessions.behind sid with
    | none =>
        have hnone := SessionStore.get_eq_none_of_behind hsession
        refine iff_of_true ?_ (ServerCall.published_iff.mpr fun hlive => absurd hnone hlive)
        simp only [AuditsAgree, Server.advance, hsession]
        exact hagree
    | some session =>
        rw [← h.agrees_iff hsession (h.expected call _ sid seen hc rfl)]
        simp only [AuditsAgree, Server.advance, hsession]
        exact forall_mem_concat hagree
  · refine iff_of_true ?_ (published_of_not_reads hreads)
    rw [AuditsAgree, audits_same hreads (Server.step_effect hs)]
    exact hagree

end AuditsInv

/-! ## Runs -/

/-- Along every run from a start of the server, every audit of a live session
has the ends of all jobs that its caller had seen finished, with the statuses
seen, if and only if no audit reads the log between a terminal write that has
been seen and the audit event of the same `finish_job`. -/
theorem audit_answers_iff (display : Error → String) {s : Server}
    (hs : (serverSystem display).init s) (ls : List ServerLabel) :
    (serverSystem display).Always AuditsAgree s ls
      ↔ (serverSystem display).Throughout Published s ls := by
  refine System.always_iff_of_step (fun s l s' hJ => hJ.step_agrees)
    (fun s l s' hJ => AuditsInv.step hJ) (fun r hmem => ?_) (.init hs) ls
  obtain ⟨-, -, -, -, -, -, -, -, -, -, -, -, -, hobserved⟩ := hs
  rw [hobserved] at hmem
  cases hmem

/-- The session reads its audit log, by the call `call`. -/
def auditRun (call : Nat) : List ServerLabel :=
  [.request (.sessionAudit ⟨"s_1"⟩ "ct_1"), .advance call plainHost .unixEpoch,
    .advance call plainHost .unixEpoch]

/-- The session attaches to its job, by the call `call`, and reads once. -/
def attachRun (call : Nat) : List ServerLabel :=
  [.request (.jobAttach ⟨⟨"s_1"⟩, "ct_1", ⟨"j_1"⟩, 0⟩), .advance call plainHost .unixEpoch,
    .stream call .call, .stream call .enable, .stream call .read]

/-- A job is audited after `finish_job` has returned, by a caller that has seen
it finished. -/
theorem audit_answers_iff_finished : (serverSystem fun _ => "").Always AuditsAgree .launched
    (insertRun ++ spawnRun ++ exitRun ++ statusRun 2 ++ retireRun ++ auditRun 3) := by
  obtain ⟨s, hrun⟩ := Option.isSome_iff_exists.mp
    (show ((serverSystem fun _ => "").runVia Published .launched
      (insertRun ++ spawnRun ++ exitRun ++ statusRun 2 ++ retireRun ++ auditRun 3)).isSome
        = true by decide +kernel)
  exact (audit_answers_iff _ (Server.launched_init _) _).mpr (System.throughout_of_runVia hrun)

/-- A live session has been given the terminal status of its job, or has seen a
stream of it end, and then audits itself: the job has no end in the log. -/
theorem audit_answers_disagree :
    (∃ s, Reach (serverSystem fun _ => "") s
        ∧ s.observed.statuses = [(⟨"s_1"⟩, ⟨⟨"j_1"⟩, .exited 0, 0⟩)]
        ∧ s.observed.audits.map (fun r => (r.live, r.seen, r.events.map (·.kind)))
          = [(true, [(⟨"j_1"⟩, .exited 0)], [.sessionOpened, .jobStarted ⟨"j_1"⟩])]
        ∧ ¬AuditsAgree s)
      ∧ ∃ s, Reach (serverSystem fun _ => "") s
        ∧ s.observed.ended = [(⟨"s_1"⟩, ⟨"j_1"⟩, .exited 0)]
        ∧ s.observed.audits.map (fun r => (r.live, r.seen, r.events.map (·.kind)))
          = [(true, [(⟨"j_1"⟩, .exited 0)], [.sessionOpened, .jobStarted ⟨"j_1"⟩])]
        ∧ ¬AuditsAgree s := by
  have hdisagree : ∀ s : Server,
      s.observed.audits.map (fun r => (r.live, r.seen, r.events.map (·.kind)))
        = [(true, [(⟨"j_1"⟩, .exited 0)], [.sessionOpened, .jobStarted ⟨"j_1"⟩])] →
      ¬AuditsAgree s := by
    intro s haudits hagree
    obtain ⟨r, hr, hparts⟩ := List.map_eq_singleton_iff.mp haudits
    obtain ⟨hlive, hparts⟩ := Prod.mk.inj hparts
    obtain ⟨hseen, hevents⟩ := Prod.mk.inj hparts
    have hmem := hagree r (by rw [hr]; exact List.mem_singleton_self _) hlive
      (⟨"j_1"⟩, .exited 0) (by rw [hseen]; exact List.mem_singleton_self _)
    rw [hevents] at hmem
    revert hmem
    decide
  constructor
  · obtain ⟨s, hs, hp⟩ := ReachVia.of_run (G := fun _ _ => True)
      (Server.launched_init fun _ => "")
      (insertRun ++ spawnRun ++ exitRun ++ statusRun 2 ++ auditRun 3)
      (fun s => s.observed.statuses = [(⟨"s_1"⟩, ⟨⟨"j_1"⟩, .exited 0, 0⟩)]
        && s.observed.audits.map (fun r => (r.live, r.seen, r.events.map (·.kind)))
          = [(true, [(⟨"j_1"⟩, .exited 0)], [.sessionOpened, .jobStarted ⟨"j_1"⟩])])
      (by decide +kernel)
    simp only [Bool.and_eq_true, decide_eq_true_eq] at hp
    exact ⟨s, hs, hp.1, hp.2, hdisagree s hp.2⟩
  · obtain ⟨s, hs, hp⟩ := ReachVia.of_run (G := fun _ _ => True)
      (Server.launched_init fun _ => "")
      (insertRun ++ spawnRun ++ exitRun ++ attachRun 2 ++ auditRun 3)
      (fun s => s.observed.ended = [(⟨"s_1"⟩, ⟨"j_1"⟩, .exited 0)]
        && s.observed.audits.map (fun r => (r.live, r.seen, r.events.map (·.kind)))
          = [(true, [(⟨"j_1"⟩, .exited 0)], [.sessionOpened, .jobStarted ⟨"j_1"⟩])])
      (by decide +kernel)
    simp only [Bool.and_eq_true, decide_eq_true_eq] at hp
    exact ⟨s, hs, hp.1, hp.2, hdisagree s hp.2⟩

end Axp
