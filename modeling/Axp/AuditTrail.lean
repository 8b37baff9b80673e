import Axp.Gate
import Axp.JobLife

/-!
# The audit trail

Three parties write the audit log of a session, and none of them waits for the
others: the handlers that open and close the session, `start`, and `finish_job`.
The last two skip a session that is gone, but a handle they have got outlives
its session's time in the map, so a job's event may follow the close.

`ClosingInv` is about the events of the session itself. `TrailInv` says what
the logs say of a job: in the log of its own session a beginning of what its
life has come past (`LifePc.recorded`), all of it while the session is live,
and in any other log nothing.
-/

namespace Axp

open Lts Directory

/-! ## Logs -/

namespace AuditEventKind

/-- The event is about the session itself. -/
def ofSession : AuditEventKind → Bool
  | .sessionOpened => true
  | .sessionClosed => true
  | _ => false

/-- The event is about the job. -/
def concerns (id : JobId) : AuditEventKind → Bool
  | .jobStarted id' => id' = id
  | .jobFinished id' _ => id' = id
  | _ => false

/-- The event is the job's end. -/
def finishes (id : JobId) : AuditEventKind → Bool
  | .jobFinished id' _ => id' = id
  | _ => false

theorem concerns_of_finishes {id : JobId} {kind : AuditEventKind} (h : kind.finishes id = true) :
    kind.concerns id = true := by
  cases kind with
  | jobFinished id' status => exact h
  | _ => cases h

end AuditEventKind

/-- The kinds of a session's audit events, in order. -/
def Session.kinds (self : Session) : List AuditEventKind := self.auditEvents.map (·.kind)

@[simp] theorem Session.kinds_recordAudit (self : Session) (kind : AuditEventKind)
    (now : SystemTime) : (self.recordAudit kind now).kinds = self.kinds ++ [kind] := by
  rw [Session.kinds, Session.recordAudit, List.map_append]
  rfl

namespace SessionStore

/-- What the log of the session says of the job. -/
def about (self : SessionStore) (sid : SessionId) (id : JobId) : List AuditEventKind :=
  (((self.behind sid).map (·.kinds)).getD []).filter (·.concerns id)

variable {store store' store'' : SessionStore} {sid : SessionId} {session : Session} {id : JobId}
  {kind : AuditEventKind} {now : SystemTime}

theorem about_of_behind (h : store.behind sid = some session) :
    store.about sid id = session.kinds.filter (·.concerns id) := by
  rw [about, h]
  rfl

theorem about_opened (hbehind : store.behind session.id = none)
    (hevents : session.auditEvents = []) :
    (store.openSession session now).about sid id = store.about sid id := by
  rw [about, behind_opened]
  split
  · next hsid =>
      rw [about, hsid, hbehind, Option.map_some, Session.kinds_recordAudit, Session.kinds, hevents]
      rfl
  · rfl

theorem about_remove (h : store.Distinct) (sid' : SessionId) :
    (store.remove sid').about sid id = store.about sid id := by
  rw [about, h.behind_remove, about]

/-- A write adds its event to what is said of the job it concerns. -/
theorem about_write (sid' : SessionId) (h : store.behind sid' ≠ none) :
    (store.write sid' kind now).about sid id
      = store.about sid id ++ if sid = sid' ∧ kind.concerns id = true then [kind] else [] := by
  obtain ⟨session, hsession⟩ := Option.ne_none_iff_exists'.mp h
  rw [about, behind_write]
  by_cases hsid : sid = sid'
  · rw [if_pos hsid, hsid, about_of_behind hsession, hsession, Option.map_some, Option.map_some,
      Option.getD_some, Session.kinds_recordAudit, List.filter_append, List.filter_singleton]
    cases kind.concerns id with
    | true => rw [if_pos ⟨rfl, rfl⟩, cond_true]
    | false => rw [cond_false, if_neg fun hboth => nomatch hboth.2]
  · rw [if_neg hsid, if_neg fun hboth => hsid hboth.1, List.append_nil]
    rfl

/-- What is said of jobs that the event does not concern stays the same. -/
theorem about_write_of_not (sid' : SessionId) (h : store.behind sid' ≠ none)
    (hnot : ¬(sid = sid' ∧ kind.concerns id = true)) :
    (store.write sid' kind now).about sid id = store.about sid id := by
  rw [about_write sid' h, if_neg hnot, List.append_nil]

theorem get_write_eq_none {sid' : SessionId} :
    (store.write sid' kind now).get sid = none ↔ store.get sid = none := by
  rw [get_write]
  split
  · next hsid => rw [hsid, Option.map_eq_none_iff]
  · exact Iff.rfl

/-! ### Growth -/

/-- Every session is still there, a log has grown at its end if at all, and
what was not live is not. -/
def Grows (store store' : SessionStore) : Prop :=
  ∀ sid session, store.behind sid = some session → ∃ session', store'.behind sid = some session'
    ∧ session.auditEvents <+: session'.auditEvents
    ∧ (store.get sid = none → store'.get sid = none)

namespace Grows

theorem refl (store : SessionStore) : store.Grows store :=
  fun _ session hsession => ⟨session, hsession, List.prefix_rfl, id⟩

theorem trans (h : store.Grows store') (h' : store'.Grows store'') : store.Grows store'' := by
  intro sid session hsession
  obtain ⟨session', hsession', hpre, hgone⟩ := h sid session hsession
  obtain ⟨session'', hsession'', hpre', hgone'⟩ := h' sid session' hsession'
  exact ⟨session'', hsession'', hpre.trans hpre', fun hnone => hgone' (hgone hnone)⟩

theorem known (h : store.Grows store') (hknown : store.behind sid ≠ none) :
    store'.behind sid ≠ none := by
  obtain ⟨session, hsession⟩ := Option.ne_none_iff_exists'.mp hknown
  obtain ⟨session', hsession', -⟩ := h sid session hsession
  rw [hsession']
  exact Option.some_ne_none _

theorem gone (h : store.Grows store') (hknown : store.behind sid ≠ none)
    (hnone : store.get sid = none) : store'.get sid = none := by
  obtain ⟨session, hsession⟩ := Option.ne_none_iff_exists'.mp hknown
  obtain ⟨-, -, -, hgone⟩ := h sid session hsession
  exact hgone hnone

theorem opened (h : store.behind session.id = none) :
    store.Grows (store.openSession session now) := by
  intro sid old hold
  have hne : sid ≠ session.id := by
    rintro rfl
    rw [h] at hold
    cases hold
  refine ⟨old, ?_, List.prefix_rfl, ?_⟩
  · rw [behind_opened, if_neg hne]
    exact hold
  · rw [get_opened, if_neg hne]
    exact id

theorem removed (h : store.Distinct) (sid' : SessionId) : store.Grows (store.remove sid') := by
  intro sid old hold
  refine ⟨old, ?_, List.prefix_rfl, ?_⟩
  · rw [h.behind_remove]
    exact hold
  · intro hnone
    rw [get_remove]
    split
    · rfl
    · exact hnone

theorem written (store : SessionStore) (sid' : SessionId) (kind : AuditEventKind)
    (now : SystemTime) : store.Grows (store.write sid' kind now) := by
  intro sid old hold
  rw [behind_write]
  by_cases hsid : sid = sid'
  · rw [if_pos hsid, ← hsid, hold]
    exact ⟨old.recordAudit kind now, rfl, List.prefix_append _ _, get_write_eq_none.mpr⟩
  · rw [if_neg hsid]
    exact ⟨old, hold, List.prefix_rfl, get_write_eq_none.mpr⟩

end Grows

end SessionStore

/-- A step keeps the sessions, and adds to the end of a log. -/
theorem SessionsInv.grows {s s' : Server} {l : ServerLabel} (h : SessionsInv s)
    (he : Effect s l s') : s.engine.sessions.Grows s'.engine.sessions := by
  cases he with
  | opened cs call session now hc hcs =>
      exact .opened (SessionStore.token_eq_none.mp (h.opening call session hc).2.1)
  | removed cs call sid session hc hget hcs => exact .removed h.distinct sid
  | recorded cs call sid now hc hcs => exact .written _ _ _ _
  | startRecorded id life now hlife hpc => exact .written _ _ _ _
  | finishRecorded id life status now hlife hpc => exact .written _ _ _ _
  | _ => exact .refl _

/-! ## The session's own events -/

/-- The log begins with the opening, and `own` is what it says of the session
itself. -/
structure Session.Framed (session : Session) (own : List AuditEventKind) : Prop where
  head : session.kinds.head? = some .sessionOpened
  own : session.kinds.filter (·.ofSession) = own

theorem Session.Framed.record {session : Session} {own : List AuditEventKind}
    (h : session.Framed own) (kind : AuditEventKind) (now : SystemTime) :
    (session.recordAudit kind now).Framed (own ++ [kind].filter (·.ofSession)) where
  head := by rw [kinds_recordAudit, List.head?_append, h.head, Option.some_or]
  own := by rw [kinds_recordAudit, List.filter_append, h.own]

/-- The log has one opening, and a closing only once the call that closes the
session is over. -/
def Server.Logged (s : Server) (sid : SessionId) (session : Session) : Prop :=
  session.Framed [.sessionOpened]
    ∨ session.Framed [.sessionOpened, .sessionClosed] ∧ s.engine.sessions.get sid = none
      ∧ ∀ call, s.calls.lookup call ≠ some (.recordingClose sid)

/-- A session that is being closed is out of the map, and closed by one call. -/
structure ClosingInv (s : Server) : Prop where
  closing : ∀ call sid, s.calls.lookup call = some (.recordingClose sid) →
    s.engine.sessions.get sid = none ∧ s.engine.sessions.behind sid ≠ none
  alone : ∀ call call' sid, s.calls.lookup call = some (.recordingClose sid) →
    s.calls.lookup call' = some (.recordingClose sid) → call = call'
  logs : ∀ sid session, s.engine.sessions.behind sid = some session → s.Logged sid session

namespace ClosingInv

variable {s s' : Server} {l : ServerLabel} {display : Error → String}

theorem init (h : (serverSystem display).init s) : ClosingInv s := by
  obtain ⟨hsessions, -, -, -, -, -, -, hcalls, -⟩ := h
  refine ⟨?_, ?_, ?_⟩
  · intro call sid hc
    rw [hcalls] at hc
    cases hc
  · intro call call' sid hc
    rw [hcalls] at hc
    cases hc
  · intro sid session hsession
    rw [hsessions] at hsession
    cases hsession

/-- The calls that close a session after a step: they did so before, or the
step has taken the session out of the map. -/
def Closings (s s' : Server) : Prop :=
  ∀ call sid, s'.calls.lookup call = some (.recordingClose sid) →
    s.calls.lookup call = some (.recordingClose sid)
      ∨ s.engine.sessions.get sid ≠ none ∧ s'.engine.sessions.get sid = none

theorem closings (hs : (serverSystem display).step s l = some s') : Closings s s' := by
  intro call sid hc
  rcases Server.step_calls hs hc with hold | hnext
  · exact Or.inl hold
  · cases hnext with
    | first r c hgate hfirst heq => cases r <;> cases hfirst
    | goes call c c' hc hgoes =>
        cases hgoes with
        | closing sid session hget hgone =>
            refine Or.inr ⟨?_, hgone⟩
            rw [hget]
            exact Option.some_ne_none _

/-- The steps that leave the calls that close a session where they are, or end
one. -/
theorem ofLogs (h : ClosingInv s) (hgrows : s.engine.sessions.Grows s'.engine.sessions)
    (hold : ∀ call sid, s'.calls.lookup call = some (.recordingClose sid) →
      s.calls.lookup call = some (.recordingClose sid))
    (hlogs : ∀ sid session, s'.engine.sessions.behind sid = some session → s'.Logged sid session) :
    ClosingInv s' := by
  refine ⟨?_, ?_, hlogs⟩
  · intro call sid hc
    obtain ⟨hnone, hknown⟩ := h.closing call sid (hold call sid hc)
    exact ⟨hgrows.gone hknown hnone, hgrows.known hknown⟩
  · exact fun call call' sid hc hc' => h.alone call call' sid (hold _ _ hc) (hold _ _ hc')

/-- A log that the step has not written. -/
theorem logged (h : ClosingInv s) (hgrows : s.engine.sessions.Grows s'.engine.sessions)
    {sid : SessionId} {session : Session} (hsession : s.engine.sessions.behind sid = some session)
    (hold : s.engine.sessions.get sid = none → ∀ call,
      s'.calls.lookup call = some (.recordingClose sid) →
        s.calls.lookup call = some (.recordingClose sid)) : s'.Logged sid session := by
  rcases h.logs sid session hsession with hopen | ⟨hclosed, hnone, hnot⟩
  · exact Or.inl hopen
  · have hknown := Option.ne_none_iff_exists'.mpr ⟨session, hsession⟩
    exact Or.inr ⟨hclosed, hgrows.gone hknown hnone, fun call hc => hnot call (hold hnone call hc)⟩

/-- Where no session has left the map, no call has come to close one. -/
theorem closings_old (hcalls : Closings s s')
    (hgone : ∀ sid, s'.engine.sessions.get sid = none → s.engine.sessions.get sid = none)
    (call : Nat) (sid : SessionId) (hc : s'.calls.lookup call = some (.recordingClose sid)) :
    s.calls.lookup call = some (.recordingClose sid) := by
  rcases hcalls call sid hc with hold | ⟨hlive, hnone⟩
  · exact hold
  · exact absurd (hgone sid hnone) hlive

theorem same (h : ClosingInv s) (hgrows : s.engine.sessions.Grows s'.engine.sessions)
    (hsessions : s'.engine.sessions = s.engine.sessions) (hcalls : Closings s s') :
    ClosingInv s' := by
  have hold := closings_old hcalls fun sid hnone => by rw [← hsessions]; exact hnone
  refine h.ofLogs hgrows hold fun sid session hsession => ?_
  rw [hsessions] at hsession
  exact h.logged hgrows hsession fun _ call hc => hold call sid hc

/-- The steps that record an event of a job. -/
theorem write (h : ClosingInv s) (hgrows : s.engine.sessions.Grows s'.engine.sessions)
    {id : SessionId} {kind : AuditEventKind} {now : SystemTime}
    (hsessions : s'.engine.sessions = s.engine.sessions.write id kind now)
    (hkind : kind.ofSession = false) (hcalls : Closings s s') : ClosingInv s' := by
  have hold := closings_old hcalls fun sid hnone => by
    rw [hsessions] at hnone
    exact SessionStore.get_write_eq_none.mp hnone
  refine h.ofLogs hgrows hold fun sid found hfound => ?_
  rw [hsessions, SessionStore.behind_write] at hfound
  split at hfound
  · next hsid =>
      obtain ⟨session, hsession, rfl⟩ := Option.map_eq_some_iff.mp hfound
      rw [← hsid] at hsession
      have hsame : ∀ own, session.Framed own → (session.recordAudit kind now).Framed own := by
        intro own hframed
        have hnew := hframed.record kind now
        rw [List.filter_singleton, hkind, cond_false, List.append_nil] at hnew
        exact hnew
      exact (h.logged hgrows hsession fun _ call hc => hold call sid hc).imp (hsame _)
        (And.imp_left (hsame _))
  · exact h.logged hgrows hfound fun _ call hc => hold call sid hc

theorem step_opened (h : ClosingInv s) (hgrows : s.engine.sessions.Grows s'.engine.sessions)
    {session : Session} {now : SystemTime} (hevents : session.auditEvents = [])
    (hsessions : s'.engine.sessions = s.engine.sessions.openSession session now)
    (hcalls : Closings s s') : ClosingInv s' := by
  have hold := closings_old hcalls fun sid hnone => by
    rw [hsessions, SessionStore.get_opened] at hnone
    split at hnone
    · cases hnone
    · exact hnone
  refine h.ofLogs hgrows hold fun sid found hfound => ?_
  rw [hsessions, SessionStore.behind_opened] at hfound
  split at hfound
  · obtain rfl := Option.some.inj hfound
    have hkinds : (session.recordAudit .sessionOpened now).kinds = [.sessionOpened] := by
      rw [Session.kinds_recordAudit, Session.kinds, hevents]
      rfl
    exact Or.inl ⟨by rw [hkinds]; rfl, by rw [hkinds]; rfl⟩
  · exact h.logged hgrows hfound fun _ call hc => hold call sid hc

theorem step_removed (h : ClosingInv s) (hdistinct : s.engine.sessions.Distinct)
    (hgrows : s.engine.sessions.Grows s'.engine.sessions) {call : Nat} {sid : SessionId}
    {session : Session} (hget : s.engine.sessions.get sid = some session)
    (hsessions : s'.engine.sessions = s.engine.sessions.remove sid)
    (hcs : s'.calls = s.calls.insert call (.recordingClose sid)) : ClosingInv s' := by
  have hnew : ∀ call' sid', s'.calls.lookup call' = some (.recordingClose sid') →
      call' = call ∧ sid' = sid
        ∨ s.calls.lookup call' = some (.recordingClose sid') ∧ sid' ≠ sid := by
    intro call' sid' hc
    rw [hcs] at hc
    rcases lookup_insert_iff.mp hc with ⟨hcall, hsame⟩ | ⟨-, hold⟩
    · exact Or.inl ⟨hcall, ServerCall.recordingClose.inj hsame⟩
    · refine Or.inr ⟨hold, ?_⟩
      rintro rfl
      have hnone := (h.closing call' sid' hold).1
      rw [hget] at hnone
      cases hnone
  refine ⟨?_, ?_, ?_⟩
  · intro call' sid' hc
    rcases hnew call' sid' hc with ⟨-, rfl⟩ | ⟨hold, -⟩
    · refine ⟨?_, hgrows.known ?_⟩
      · rw [hsessions, SessionStore.get_remove, if_pos rfl]
      · rw [SessionStore.behind_of_get hget]
        exact Option.some_ne_none _
    · obtain ⟨hnone, hknown⟩ := h.closing call' sid' hold
      exact ⟨hgrows.gone hknown hnone, hgrows.known hknown⟩
  · intro call' call'' sid' hc hc'
    rcases hnew call' sid' hc with ⟨hcall, rfl⟩ | ⟨hold, hne⟩
    · rcases hnew call'' sid' hc' with ⟨hcall', -⟩ | ⟨-, hne'⟩
      · exact hcall.trans hcall'.symm
      · exact absurd rfl hne'
    · rcases hnew call'' sid' hc' with ⟨-, hsame⟩ | ⟨hold', -⟩
      · exact absurd hsame hne
      · exact h.alone call' call'' sid' hold hold'
  · intro sid' found hfound
    rw [hsessions, hdistinct.behind_remove] at hfound
    refine h.logged hgrows hfound fun hnone call' hc => ?_
    rcases hnew call' sid' hc with ⟨-, rfl⟩ | ⟨hold, -⟩
    · rw [hget] at hnone
      cases hnone
    · exact hold

/-- The call that writes the closing is the only one for its session, and is
over then. -/
theorem step_recorded (h : ClosingInv s) (hgrows : s.engine.sessions.Grows s'.engine.sessions)
    {call : Nat} {sid : SessionId} {now : SystemTime}
    (hc : s.calls.lookup call = some (.recordingClose sid))
    (hsessions : s'.engine.sessions = s.engine.sessions.write sid .sessionClosed now)
    (hcs : s'.calls = s.calls.erase call) : ClosingInv s' := by
  have hold : ∀ call' sid', s'.calls.lookup call' = some (.recordingClose sid') →
      call' ≠ call ∧ s.calls.lookup call' = some (.recordingClose sid') := by
    intro call' sid' hc'
    rw [hcs] at hc'
    exact lookup_erase_iff.mp hc'
  refine h.ofLogs hgrows (fun call' sid' hc' => (hold call' sid' hc').2) ?_
  intro sid' found hfound
  rw [hsessions, SessionStore.behind_write] at hfound
  split at hfound
  · next hsid =>
      obtain ⟨session, hsession, rfl⟩ := Option.map_eq_some_iff.mp hfound
      obtain ⟨hnone, hknown⟩ := h.closing call sid hc
      rcases h.logs sid session hsession with hopen | ⟨-, -, hnot⟩
      · refine Or.inr ⟨hopen.record .sessionClosed now, ?_, fun call' hc' => ?_⟩
        · rw [hsid]
          exact hgrows.gone hknown hnone
        · obtain ⟨hne, hc''⟩ := hold call' sid' hc'
          rw [hsid] at hc''
          exact hne (h.alone call' call sid hc'' hc)
      · exact absurd hc (hnot call)
  · exact h.logged hgrows hfound fun _ call' hc' => (hold call' sid' hc').2

theorem step (h : ClosingInv s) (hsessions : SessionsInv s)
    (hs : (serverSystem display).step s l = some s') : ClosingInv s' := by
  have hcalls := closings hs
  have he := Server.step_effect hs
  have hgrows := hsessions.grows he
  cases he with
  | opened cs call session now hc hcs =>
      exact h.step_opened hgrows (hsessions.opening call session hc).2.2 rfl hcalls
  | removed cs call sid session hc hget hcs =>
      exact h.step_removed hsessions.distinct hgrows hget rfl hcs
  | recorded cs call sid now hc hcs => exact h.step_recorded hgrows hc rfl hcs
  | startRecorded id life now hlife hpc => exact h.write hgrows rfl rfl hcalls
  | finishRecorded id life status now hlife hpc => exact h.write hgrows rfl rfl hcalls
  | _ => exact h.same hgrows rfl hcalls

end ClosingInv

/-! ## The events of a job -/

/-- What a life has come past, as far as the audit log is concerned. -/
def LifePc.recorded (id : JobId) : LifePc → List AuditEventKind
  | .registering => []
  | .startAuditing => []
  | .startRecording => []
  | .retiring status => [.jobStarted id, .jobFinished id status.val]
  | .erased status => [.jobStarted id, .jobFinished id status.val]
  | _ => [.jobStarted id]

/-- The life has got hold of its session, to record the job's end. -/
def LifePc.holds : LifePc → Bool
  | .finishRecording _ => true
  | _ => false

/-- The events about a job at a point of its life: a beginning of what it has
come past, and all of it where the session is live or still held. -/
structure Trail (id : JobId) (pc : LifePc) (live : Prop) (events : List AuditEventKind) :
    Prop where
  part : events <+: pc.recorded id
  whole : live ∨ pc.holds = true → events = pc.recorded id

namespace Trail

variable {id : JobId} {pc pc' : LifePc} {live live' : Prop} {events : List AuditEventKind}

/-- Nothing is recorded, and nothing comes past. -/
theorem move (h : Trail id pc live events) (hrecorded : pc'.recorded id = pc.recorded id)
    (hlive : live' → live) (hholds : pc'.holds = true → live ∨ pc.holds = true) :
    Trail id pc' live' events where
  part := by
    rw [hrecorded]
    exact h.part
  whole := by
    rw [hrecorded]
    rintro (hlive' | hholds')
    · exact h.whole (Or.inl (hlive hlive'))
    · exact h.whole (hholds hholds')

/-- The session was gone when the life came past the event. -/
theorem lost (h : Trail id pc live events) (hpart : pc.recorded id <+: pc'.recorded id)
    (hlive : ¬live') (hholds : pc'.holds = false) : Trail id pc' live' events where
  part := h.part.trans hpart
  whole := by
    rintro (hlive' | hholds')
    · exact absurd hlive' hlive
    · rw [hholds] at hholds'
      cases hholds'

/-- The event is recorded. -/
theorem record {kind : AuditEventKind} (hwhole : events = pc.recorded id)
    (hrecorded : pc'.recorded id = pc.recorded id ++ [kind]) :
    Trail id pc' live' (events ++ [kind]) where
  part := by rw [hwhole, hrecorded]
  whole := by
    intro _
    rw [hwhole, hrecorded]

end Trail

/-- The session whose job a call is about to insert. -/
def ServerCall.starts : ServerCall → Option SessionId
  | .preparing req _ => some req.sessionId
  | .inserting req _ => some req.sessionId
  | _ => none

/-- What the logs say of the jobs. -/
structure TrailInv (s : Server) : Prop where
  starts : ∀ call c sid, s.calls.lookup call = some c → c.starts = some sid →
    s.engine.sessions.behind sid ≠ none
  homes : ∀ id life, s.lives.lookup id = some life →
    s.engine.sessions.behind life.sessionId ≠ none
  jobs : ∀ id life, s.lives.lookup id = some life →
    Trail id life.pc (s.engine.sessions.get life.sessionId ≠ none)
      (s.engine.sessions.about life.sessionId id)
  others : ∀ id sid, (∀ life, s.lives.lookup id = some life → life.sessionId ≠ sid) →
    s.engine.sessions.about sid id = []

namespace TrailInv

variable {s s' : Server} {l : ServerLabel} {display : Error → String} {id : JobId}
  {life life' : Life}

theorem init (h : (serverSystem display).init s) : TrailInv s := by
  obtain ⟨hsessions, -, -, -, -, -, -, hcalls, hlives, -⟩ := h
  refine ⟨?_, ?_, ?_, ?_⟩
  · intro call c sid hc
    rw [hcalls] at hc
    cases hc
  · intro id life hlife
    rw [hlives] at hlife
    cases hlife
  · intro id life hlife
    rw [hlives] at hlife
    cases hlife
  · intro id sid _
    rw [hsessions]
    rfl

/-- A call that is about to insert a job has found the session. -/
theorem starts_step (h : TrailInv s) (hgrows : s.engine.sessions.Grows s'.engine.sessions)
    (hs : (serverSystem display).step s l = some s') :
    ∀ call c sid, s'.calls.lookup call = some c → c.starts = some sid →
      s'.engine.sessions.behind sid ≠ none := by
  intro call c sid hc hstarts
  refine hgrows.known ?_
  rcases Server.step_calls hs hc with hold | hnext
  · exact h.starts call c sid hold hstarts
  · cases hnext with
    | opening session hid hevents heq => cases hstarts
    | first r c hgate hfirst heq =>
        rw [hfirst] at hstarts
        cases r <;> cases hstarts
    | killingAll sid' heq => cases hstarts
    | goes call before after hbefore hgoes =>
        cases hgoes with
        | starting req session hget =>
            obtain rfl := Option.some.inj hstarts
            rw [SessionStore.behind_of_get hget]
            exact Option.some_ne_none _
        | preparing req session launch => exact h.starts call _ sid hbefore hstarts
        | _ => cases hstarts

/-- A session that is live after a step, and was there before it, was live. -/
theorem live_of_live (h : TrailInv s) (hgrows : s.engine.sessions.Grows s'.engine.sessions)
    (hlife : s.lives.lookup id = some life)
    (hlive : s'.engine.sessions.get life.sessionId ≠ none) :
    s.engine.sessions.get life.sessionId ≠ none :=
  fun hnone => hlive (hgrows.gone (h.homes id life hlife) hnone)

/-- A life that the step does not move, of a job it records no event of. -/
theorem stay (h : TrailInv s) (hgrows : s.engine.sessions.Grows s'.engine.sessions)
    (hlife : s.lives.lookup id = some life)
    (habout : s'.engine.sessions.about life.sessionId id
      = s.engine.sessions.about life.sessionId id) :
    Trail id life.pc (s'.engine.sessions.get life.sessionId ≠ none)
      (s'.engine.sessions.about life.sessionId id) := by
  rw [habout]
  exact (h.jobs id life hlife).move rfl (h.live_of_live hgrows hlife) Or.inr

/-- The steps that move no life and record no event of a job. -/
theorem frame (h : TrailInv s) (hgrows : s.engine.sessions.Grows s'.engine.sessions)
    (hs : (serverSystem display).step s l = some s') (hlives : s'.lives = s.lives)
    (habout : ∀ sid id, s'.engine.sessions.about sid id = s.engine.sessions.about sid id) :
    TrailInv s' := by
  refine ⟨h.starts_step hgrows hs, ?_, ?_, ?_⟩
  · intro id life hlife
    rw [hlives] at hlife
    exact hgrows.known (h.homes id life hlife)
  · intro id life hlife
    rw [hlives] at hlife
    exact h.stay hgrows hlife (habout _ _)
  · intro id sid hnone
    rw [hlives] at hnone
    rw [habout]
    exact h.others id sid hnone

/-- The steps of a life, which record events of its own job only. -/
theorem move (h : TrailInv s) (hgrows : s.engine.sessions.Grows s'.engine.sessions)
    (hs : (serverSystem display).step s l = some s') (hlife : s.lives.lookup id = some life)
    (hlives : s'.lives = s.lives.insert id life') (hsid : life'.sessionId = life.sessionId)
    (habout : ∀ sid id', ¬(sid = life.sessionId ∧ id' = id) →
      s'.engine.sessions.about sid id' = s.engine.sessions.about sid id')
    (htrail : Trail id life'.pc (s'.engine.sessions.get life.sessionId ≠ none)
      (s'.engine.sessions.about life.sessionId id)) : TrailInv s' := by
  refine ⟨h.starts_step hgrows hs, ?_, ?_, ?_⟩
  · intro id' other hother
    rw [hlives] at hother
    rcases lookup_insert_iff.mp hother with ⟨-, rfl⟩ | ⟨-, hold⟩
    · rw [hsid]
      exact hgrows.known (h.homes id life hlife)
    · exact hgrows.known (h.homes id' other hold)
  · intro id' other hother
    rw [hlives] at hother
    rcases lookup_insert_iff.mp hother with ⟨rfl, rfl⟩ | ⟨hne, hold⟩
    · rw [hsid]
      exact htrail
    · exact h.stay hgrows hold (habout _ _ fun hboth => hne hboth.2)
  · intro id' sid hnone
    rw [hlives] at hnone
    by_cases hid : id' = id
    · have hother : life.sessionId ≠ sid := by
        rw [← hsid]
        exact hnone life' (by rw [hid]; exact AList.lookup_insert _)
      rw [habout _ _ fun hboth => hother hboth.1.symm]
      refine h.others id' sid fun other hold => ?_
      rw [hid, hlife] at hold
      obtain rfl := Option.some.inj hold
      exact hother
    · rw [habout _ _ fun hboth => hid hboth.2]
      refine h.others id' sid fun other hold => hnone other ?_
      rw [AList.lookup_insert_ne hid]
      exact hold

/-- The steps of a life that record nothing. -/
theorem quiet (h : TrailInv s) (hgrows : s.engine.sessions.Grows s'.engine.sessions)
    (hs : (serverSystem display).step s l = some s') (hlife : s.lives.lookup id = some life)
    (hlives : s'.lives = s.lives.insert id life') (hsid : life'.sessionId = life.sessionId)
    (hsessions : s'.engine.sessions = s.engine.sessions)
    (hrecorded : life'.pc.recorded id = life.pc.recorded id)
    (hholds : life'.pc.holds = true → s.engine.sessions.get life.sessionId ≠ none) :
    TrailInv s' := by
  refine h.move hgrows hs hlife hlives hsid (fun _ _ _ => by rw [hsessions]) ?_
  rw [hsessions]
  exact (h.jobs id life hlife).move hrecorded (fun hlive => hlive) fun hholds' =>
    Or.inl (hholds hholds')

/-- The steps of a life that record an event of its job. -/
theorem record (h : TrailInv s) (hgrows : s.engine.sessions.Grows s'.engine.sessions)
    (hs : (serverSystem display).step s l = some s') (hlife : s.lives.lookup id = some life)
    (hlives : s'.lives = s.lives.insert id life') (hsid : life'.sessionId = life.sessionId)
    {kind : AuditEventKind} {now : SystemTime}
    (hsessions : s'.engine.sessions = s.engine.sessions.write life.sessionId kind now)
    (hkind : ∀ id', kind.concerns id' = true ↔ id = id')
    (hwhole : s.engine.sessions.about life.sessionId id = life.pc.recorded id)
    (hrecorded : life'.pc.recorded id = life.pc.recorded id ++ [kind]) : TrailInv s' := by
  have hknown := h.homes id life hlife
  refine h.move hgrows hs hlife hlives hsid ?_ ?_
  · intro sid id' hnot
    rw [hsessions]
    exact SessionStore.about_write_of_not _ hknown fun hboth =>
      hnot ⟨hboth.1, ((hkind id').mp hboth.2).symm⟩
  · rw [hsessions, SessionStore.about_write _ hknown, if_pos ⟨rfl, (hkind id).mpr rfl⟩]
    exact .record hwhole hrecorded

/-- A job is inserted that no log knows of. -/
theorem insert (h : TrailInv s) (hgrows : s.engine.sessions.Grows s'.engine.sessions)
    (hs : (serverSystem display).step s l = some s') (hfresh : s.lives.lookup id = none)
    (hlives : s'.lives = s.lives.insert id life') (hpc : life'.pc = .registering)
    (hhome : s.engine.sessions.behind life'.sessionId ≠ none)
    (hsessions : s'.engine.sessions = s.engine.sessions) : TrailInv s' := by
  have hunknown : ∀ sid, s.engine.sessions.about sid id = [] := by
    refine fun sid => h.others id sid fun life hlife => ?_
    rw [hfresh] at hlife
    cases hlife
  refine ⟨h.starts_step hgrows hs, ?_, ?_, ?_⟩
  · intro id' other hother
    rw [hlives] at hother
    rcases lookup_insert_iff.mp hother with ⟨-, rfl⟩ | ⟨-, hold⟩
    · exact hgrows.known hhome
    · exact hgrows.known (h.homes id' other hold)
  · intro id' other hother
    rw [hlives] at hother
    rcases lookup_insert_iff.mp hother with ⟨rfl, rfl⟩ | ⟨-, hold⟩
    · rw [hsessions, hunknown, hpc]
      exact ⟨List.nil_prefix, fun _ => rfl⟩
    · exact h.stay hgrows hold (by rw [hsessions])
  · intro id' sid hnone
    rw [hlives] at hnone
    rw [hsessions]
    by_cases hid : id' = id
    · rw [hid]
      exact hunknown sid
    · refine h.others id' sid fun other hold => hnone other ?_
      rw [AList.lookup_insert_ne hid]
      exact hold

theorem step_moved (h : TrailInv s) (hgrows : s.engine.sessions.Grows s'.engine.sessions)
    (hs : (serverSystem display).step s l = some s') (hlife : s.lives.lookup id = some life)
    {pc : LifePc} (hmove : PcMove s life pc) (hs' : s' = s.move id life pc) : TrailInv s' := by
  subst hs'
  have hlost : s.engine.sessions.get life.sessionId = none →
      life.pc.recorded id <+: pc.recorded id → pc.holds = false →
      TrailInv (s.move id life pc) := by
    intro hnone hpart hholds
    refine h.move hgrows hs hlife rfl rfl (fun _ _ _ => rfl) ?_
    exact (h.jobs id life hlife).lost hpart (not_not.mpr hnone) hholds
  cases hmove with
  | found session hpc hget =>
      exact h.quiet hgrows hs hlife rfl rfl rfl (by rw [hpc]; rfl) nofun
  | lost hpc hnone =>
      refine hlost hnone ?_ rfl
      rw [hpc]
      exact List.nil_prefix
  | work task task' hpc =>
      exact h.quiet hgrows hs hlife rfl rfl rfl (by rw [hpc]; rfl) nofun
  | finish task status hpc =>
      exact h.quiet hgrows hs hlife rfl rfl rfl (by rw [hpc]; rfl) nofun
  | foundLast status session hpc hget =>
      refine h.quiet hgrows hs hlife rfl rfl rfl ?_ fun _ => ?_
      · rw [hpc]
        rfl
      · rw [hget]
        exact Option.some_ne_none _
  | lostLast status hpc hnone =>
      refine hlost hnone ?_ rfl
      rw [hpc]
      exact List.prefix_append [AuditEventKind.jobStarted id] [.jobFinished id status.val]

theorem step (h : TrailInv s) (hsessions : SessionsInv s) (hclosing : ClosingInv s)
    (hjobs : JobsInv s) (hs : (serverSystem display).step s l = some s') : TrailInv s' := by
  have he := Server.step_effect hs
  have hgrows := hsessions.grows he
  cases he with
  | opened cs call session now hc hcs =>
      obtain ⟨-, hfree, hevents⟩ := hsessions.opening call session hc
      exact h.frame hgrows hs rfl fun sid id =>
        SessionStore.about_opened (SessionStore.token_eq_none.mp hfree) hevents
  | removed cs call sid session hc hget hcs =>
      exact h.frame hgrows hs rfl fun _ _ => SessionStore.about_remove hsessions.distinct sid
  | recorded cs call sid now hc hcs =>
      refine h.frame hgrows hs rfl fun _ _ => ?_
      exact SessionStore.about_write_of_not sid (hclosing.closing call sid hc).2 fun hboth =>
        (nomatch hboth.2)
  | inserted cs call req launch env now hl hc =>
      exact h.insert hgrows hs hjobs.fresh_life rfl rfl (h.starts call _ req.sessionId hc rfl) rfl
  | registered id life hlife hpc =>
      exact h.quiet hgrows hs hlife rfl rfl rfl (by rw [hpc]; rfl) nofun
  | moved id life pc hlife hmove => exact h.step_moved hgrows hs hlife hmove rfl
  | startRecorded id life now hlife hpc =>
      have htrail := h.jobs id life hlife
      rw [hpc] at htrail
      refine h.record hgrows hs hlife rfl rfl rfl (fun id' => decide_eq_true_iff) ?_ ?_
      · rw [hpc]
        exact List.prefix_nil.mp htrail.part
      · rw [hpc]
        rfl
  | spawned id life hlife hpc =>
      exact h.quiet hgrows hs hlife rfl rfl rfl (by rw [hpc]; rfl) nofun
  | branched id life task task' hlife hpc hready =>
      exact h.quiet hgrows hs hlife rfl rfl rfl (by rw [hpc]; rfl) nofun
  | pushed id life task task' job event hlife hpc hjob =>
      exact h.quiet hgrows hs hlife rfl rfl rfl (by rw [hpc]; rfl) nofun
  | terminal id life job status now hlife hpc hjob =>
      exact h.quiet hgrows hs hlife rfl rfl rfl (by rw [hpc]; rfl) nofun
  | notified id life status hlife hpc =>
      exact h.quiet hgrows hs hlife rfl rfl rfl (by rw [hpc]; rfl) nofun
  | finishRecorded id life status now hlife hpc =>
      have htrail := h.jobs id life hlife
      rw [hpc] at htrail
      refine h.record hgrows hs hlife rfl rfl rfl (fun id' => decide_eq_true_iff) ?_ ?_
      · rw [hpc]
        exact htrail.whole (Or.inr rfl)
      · rw [hpc]
        rfl
  | retired id life status hlife hpc =>
      exact h.quiet hgrows hs hlife rfl rfl rfl (by rw [hpc]; rfl) nofun
  | _ => exact h.frame hgrows hs rfl fun _ _ => rfl

end TrailInv

/-- Everything the logs rest on. -/
structure AuditInv (s : Server) : Prop where
  sessions : SessionsInv s
  jobs : JobsInv s
  closing : ClosingInv s
  trail : TrailInv s

namespace AuditInv

variable {s s' : Server} {l : ServerLabel} {display : Error → String}

theorem init (h : (serverSystem display).init s) : AuditInv s :=
  ⟨.init h, .init h, .init h, .init h⟩

theorem step (h : AuditInv s) (hs : (serverSystem display).step s l = some s') : AuditInv s' where
  sessions := h.sessions.step hs
  jobs := h.jobs.step (Server.step_effect hs)
  closing := h.closing.step h.sessions hs
  trail := h.trail.step h.sessions h.closing h.jobs hs

theorem reach (h : Reach (serverSystem display) s) : AuditInv s :=
  h.invariant (fun _ => init) fun _ _ _ hinv _ hs => hinv.step hs

end AuditInv

/-- Along a run the sessions are kept, and their logs grow at their ends. -/
theorem run_grows {display : Error → String} {s s' : Server} {ls : List ServerLabel}
    (h : AuditInv s) (hrun : (serverSystem display).run s ls = some s') :
    s.engine.sessions.Grows s'.engine.sessions := by
  have hstep : ∀ t l t', AuditInv t ∧ s.engine.sessions.Grows t.engine.sessions →
      (serverSystem display).step t l = some t' →
      AuditInv t' ∧ s.engine.sessions.Grows t'.engine.sessions := by
    rintro t l t' ⟨hinv, hgrows⟩ hs
    exact ⟨hinv.step hs, hgrows.trans (hinv.sessions.grows (Server.step_effect hs))⟩
  exact (run_invariant hstep ⟨h, .refl _⟩ hrun).2

/-! ## Well-formed logs -/

/-- The store has the session, live or retired. -/
def SessionStore.Holds (self : SessionStore) (session : Session) : Prop :=
  (∃ sid, self.get sid = some session) ∨ session ∈ self.retired

/-- A session is held exactly if it is the one behind its id. -/
theorem SessionStore.Distinct.holds_iff {store : SessionStore} (h : store.Distinct)
    {session : Session} : store.Holds session ↔ store.behind session.id = some session := by
  constructor
  · rintro (⟨sid, hget⟩ | hretired)
    · rw [h.live sid session hget]
      exact behind_of_get hget
    · exact (h.retired session hretired).2
  · intro hbehind
    rcases Option.or_eq_some_iff.mp hbehind with hget | ⟨-, hfind⟩
    · exact Or.inl ⟨_, hget⟩
    · exact Or.inr (List.mem_of_find?_eq_some hfind)

theorem SessionStore.Distinct.behind_id {store : SessionStore} (h : store.Distinct)
    {sid : SessionId} {session : Session} (hbehind : store.behind sid = some session) :
    session.id = sid := by
  rcases Option.or_eq_some_iff.mp hbehind with hget | ⟨-, hfind⟩
  · exact h.live sid session hget
  · exact find?_id hfind

/-- A well-formed audit log. -/
structure Session.WellAudited (session : Session) (s : Server) : Prop where
  opened : ∃ rest, session.kinds = .sessionOpened :: rest ∧ .sessionOpened ∉ rest
  closed : session.kinds.count .sessionClosed ≤ 1
  owned : ∀ id, ∀ kind ∈ session.kinds, kind.concerns id = true → s.engine.Owns session.id id
  started : ∀ id, session.kinds.count (.jobStarted id) ≤ 1
  finished : ∀ id, session.kinds.countP (·.finishes id) ≤ 1
  ordered : ∀ id status before after, session.kinds = before ++ .jobFinished id status :: after →
    .jobStarted id ∈ before
  final : ∀ id status, .jobFinished id status ∈ session.kinds → s.Ended session.id id status

namespace Session

variable {session : Session} {own : List AuditEventKind} {id : JobId} {status : JobStatus}

theorem Framed.count (h : session.Framed own) {kind : AuditEventKind}
    (hkind : kind.ofSession = true) : session.kinds.count kind = own.count kind := by
  rw [← h.own]
  exact (List.count_filter hkind).symm

/-- A log with one opening, at its head. -/
theorem Framed.opened (h : session.Framed own) (hown : own.count .sessionOpened = 1) :
    ∃ rest, session.kinds = .sessionOpened :: rest ∧ .sessionOpened ∉ rest := by
  obtain ⟨rest, hrest⟩ := List.head?_eq_some_iff.mp h.head
  refine ⟨rest, hrest, fun hmem => ?_⟩
  have hcount : session.kinds.count .sessionOpened = own.count .sessionOpened := h.count rfl
  rw [hrest, hown, List.count_cons_self] at hcount
  exact absurd (List.count_pos_iff.mpr hmem) (by omega)

/-- What a log may say of a job, at most. -/
def Scripted (session : Session) (id : JobId) : Prop :=
  ∃ status, session.kinds.filter (·.concerns id) <+: [.jobStarted id, .jobFinished id status]

theorem Scripted.started (h : session.Scripted id) : session.kinds.count (.jobStarted id) ≤ 1 := by
  obtain ⟨status, hpart⟩ := h
  have hconcerns : AuditEventKind.concerns id (.jobStarted id) = true := decide_eq_true rfl
  have hle := hpart.sublist.count_le (.jobStarted id)
  rw [List.count_filter hconcerns] at hle
  simpa using hle

theorem Scripted.finished (h : session.Scripted id) :
    session.kinds.countP (·.finishes id) ≤ 1 := by
  obtain ⟨status, hpart⟩ := h
  have hle := hpart.sublist.countP_le (p := (·.finishes id))
  rw [List.countP_filter] at hle
  refine le_trans (List.countP_mono_left fun kind _ hkind => ?_) (hle.trans ?_)
  · rw [hkind, AuditEventKind.concerns_of_finishes hkind]
    rfl
  · simp [AuditEventKind.finishes]

/-- The end of a job is recorded after its start. -/
theorem Scripted.ordered (h : session.Scripted id) {before after : List AuditEventKind}
    (hkinds : session.kinds = before ++ .jobFinished id status :: after) :
    .jobStarted id ∈ before := by
  obtain ⟨last, hpart⟩ := h
  have hconcerns : AuditEventKind.concerns id (.jobFinished id status) = true := decide_eq_true rfl
  rw [hkinds, List.filter_append, List.filter_cons_of_pos hconcerns] at hpart
  cases hfilter : before.filter (·.concerns id) with
  | nil =>
      rw [hfilter, List.nil_append, List.cons_prefix_cons] at hpart
      cases hpart.1
  | cons kind rest =>
      rw [hfilter, List.cons_append, List.cons_prefix_cons] at hpart
      refine List.mem_of_mem_filter (p := (·.concerns id)) ?_
      rw [hfilter, hpart.1]
      exact List.mem_cons_self

end Session

namespace LifePc

/-- A life comes past a start and then past an end. -/
theorem recorded_part (pc : LifePc) (id : JobId) :
    ∃ status : JobStatus, pc.recorded id <+: [.jobStarted id, .jobFinished id status] := by
  cases pc with
  | registering => exact ⟨.killed, List.nil_prefix⟩
  | startAuditing => exact ⟨.killed, List.nil_prefix⟩
  | startRecording => exact ⟨.killed, List.nil_prefix⟩
  | retiring status => exact ⟨status.val, List.prefix_rfl⟩
  | erased status => exact ⟨status.val, List.prefix_rfl⟩
  | _ => exact ⟨.killed, List.prefix_append [AuditEventKind.jobStarted id] _⟩

/-- The end it comes past has the status the job was given. -/
theorem ended_of_recorded {pc : LifePc} {id : JobId} {status : JobStatus}
    (h : .jobFinished id status ∈ pc.recorded id) :
    ∃ last, pc.ended = some last ∧ last.val = status := by
  have hends : ∀ last : TerminalStatus,
      AuditEventKind.jobFinished id status ∈ [.jobStarted id, .jobFinished id last.val] →
        last.val = status := by
    intro last hmem
    simpa [eq_comm] using hmem
  cases pc with
  | registering => cases h
  | startAuditing => cases h
  | startRecording => cases h
  | retiring last => exact ⟨last, rfl, hends last h⟩
  | erased last => exact ⟨last, rfl, hends last h⟩
  | _ => cases List.mem_singleton.mp h

end LifePc

namespace AuditInv

variable {s : Server} {sid : SessionId} {session : Session} {id : JobId} {status : JobStatus}

/-- A log that says something of a job is that of the job's session. -/
theorem life_of_concerns (h : AuditInv s) (hsession : s.engine.sessions.behind sid = some session)
    {kind : AuditEventKind} (hmem : kind ∈ session.kinds) (hkind : kind.concerns id = true) :
    ∃ life, s.lives.lookup id = some life ∧ life.sessionId = sid := by
  by_contra hnone
  have hempty := h.trail.others id sid fun life hlife hsid => hnone ⟨life, hlife, hsid⟩
  rw [SessionStore.about_of_behind hsession] at hempty
  exact List.filter_eq_nil_iff.mp hempty kind hmem hkind

/-- What the log of its session says of a job. -/
theorem part_of_life (h : AuditInv s) (hsession : s.engine.sessions.behind sid = some session)
    {life : Life} (hlife : s.lives.lookup id = some life) (hsid : life.sessionId = sid) :
    session.kinds.filter (·.concerns id) <+: life.pc.recorded id := by
  have hpart := (h.trail.jobs id life hlife).part
  rw [hsid, SessionStore.about_of_behind hsession] at hpart
  exact hpart

theorem scripted (h : AuditInv s) (hsession : s.engine.sessions.behind sid = some session)
    (id : JobId) : session.Scripted id := by
  by_cases hany : ∃ kind ∈ session.kinds, kind.concerns id = true
  · obtain ⟨kind, hmem, hkind⟩ := hany
    obtain ⟨life, hlife, hsid⟩ := h.life_of_concerns hsession hmem hkind
    obtain ⟨status, hpart⟩ := life.pc.recorded_part id
    exact ⟨status, (h.part_of_life hsession hlife hsid).trans hpart⟩
  · have hempty : session.kinds.filter (·.concerns id) = [] :=
      List.filter_eq_nil_iff.mpr fun kind hmem hkind => hany ⟨kind, hmem, hkind⟩
    exact ⟨.killed, by rw [hempty]; exact List.nil_prefix⟩

/-- A job whose end is in the log has ended so. -/
theorem ended (h : AuditInv s) (hsession : s.engine.sessions.behind sid = some session)
    (hmem : .jobFinished id status ∈ session.kinds) : s.Ended sid id status := by
  have hconcerns : AuditEventKind.concerns id (.jobFinished id status) = true := decide_eq_true rfl
  obtain ⟨life, hlife, hsid⟩ := h.life_of_concerns hsession hmem hconcerns
  have hrecorded := (h.part_of_life hsession hlife hsid).subset
    (List.mem_filter.mpr ⟨hmem, hconcerns⟩)
  obtain ⟨last, hended, rfl⟩ := LifePc.ended_of_recorded hrecorded
  obtain ⟨job, hget, hfollows⟩ := h.jobs.lives id life hlife
  exact ⟨last.property, job, hget, hfollows.session.trans hsid, (hfollows.ended last hended).1⟩

theorem wellAudited (h : AuditInv s) (hsession : s.engine.sessions.behind sid = some session) :
    session.WellAudited s := by
  have hid := h.sessions.distinct.behind_id hsession
  have hscript := h.scripted hsession
  obtain ⟨own, hframed, hopened, hclosed⟩ : ∃ own, session.Framed own
      ∧ own.count .sessionOpened = 1 ∧ own.count .sessionClosed ≤ 1 := by
    rcases h.closing.logs sid session hsession with hopen | ⟨hclosed, -⟩
    · exact ⟨_, hopen, by decide, by decide⟩
    · exact ⟨_, hclosed, by decide, by decide⟩
  refine ⟨hframed.opened hopened, ?_, ?_, fun id => (hscript id).started,
    fun id => (hscript id).finished, fun id _ _ _ => (hscript id).ordered, ?_⟩
  · rw [hframed.count rfl]
    exact hclosed
  · intro id kind hmem hkind
    obtain ⟨life, hlife, hsid⟩ := h.life_of_concerns hsession hmem hkind
    obtain ⟨job, hget, hfollows⟩ := h.jobs.lives id life hlife
    exact ⟨job, hget, by rw [hfollows.session, hsid, hid]⟩
  · intro id status hmem
    rw [hid]
    exact h.ended hsession hmem

end AuditInv

/-- In every state of every run, each id stands for one session, live or
retired, and its audit log is well formed: it begins with the only opening and
has at most one closing; the jobs in it are the session's; each is started at
most once and finished at most once, after it was started, with the terminal
status it has kept. And along every run the session's log only grows at its
end. -/
theorem audit_logs_are_well_formed {display : Error → String} {s : Server}
    (hs : Reach (serverSystem display) s) :
    (∀ session session', s.engine.sessions.Holds session → s.engine.sessions.Holds session' →
        session.id = session'.id → session = session')
      ∧ (∀ session, s.engine.sessions.Holds session → session.WellAudited s)
      ∧ ∀ ls s', (serverSystem display).run s ls = some s' →
        ∀ session, s.engine.sessions.Holds session → ∃ session',
          s'.engine.sessions.Holds session' ∧ session'.id = session.id
            ∧ session.auditEvents <+: session'.auditEvents := by
  have hinv := AuditInv.reach hs
  have hdistinct := hinv.sessions.distinct
  refine ⟨?_, ?_, ?_⟩
  · intro session session' hheld hheld' hsame
    have hbehind := hdistinct.holds_iff.mp hheld
    rw [hsame, hdistinct.holds_iff.mp hheld'] at hbehind
    exact (Option.some.inj hbehind).symm
  · exact fun session hheld => hinv.wellAudited (hdistinct.holds_iff.mp hheld)
  · intro ls s' hrun session hheld
    have hdistinct' := (AuditInv.reach (hs.run hrun)).sessions.distinct
    obtain ⟨session', hbehind, hpart, -⟩ :=
      run_grows hinv hrun session.id session (hdistinct.holds_iff.mp hheld)
    have hid := hdistinct'.behind_id hbehind
    exact ⟨session', hdistinct'.holds_iff.mpr (by rw [hid]; exact hbehind), hid, hpart⟩

/-- A session is closed while `finish_job` holds it, and its log has the job's
end after the closing. -/
theorem audit_logs_are_well_formed_closed : ∃ s session, Reach (serverSystem fun _ => "") s
    ∧ s.engine.sessions.Holds session
    ∧ session.kinds = [.sessionOpened, .jobStarted ⟨"j_1"⟩, .sessionClosed,
      .jobFinished ⟨"j_1"⟩ (.exited 0)]
    ∧ session.WellAudited s := by
  let next : ServerLabel := .life ⟨"j_1"⟩ .next .unixEpoch
  obtain ⟨s, hs, hp⟩ := ReachVia.of_run (G := fun _ _ => True) (Server.launched_init fun _ => "")
    (insertRun ++ spawnRun ++ exitRun ++ [next, next]
      ++ [.request (.sessionClose ⟨"s_1"⟩ "ct_1"), .advance 2 plainHost .unixEpoch,
        .advance 2 plainHost .unixEpoch, next])
    (fun s => s.engine.sessions.retired.map (·.kinds) = [[.sessionOpened, .jobStarted ⟨"j_1"⟩,
      .sessionClosed, .jobFinished ⟨"j_1"⟩ (.exited 0)]]) (by decide +kernel)
  obtain ⟨session, hretired, hkinds⟩ := List.map_eq_singleton_iff.mp (of_decide_eq_true hp)
  have hheld : s.engine.sessions.Holds session :=
    Or.inr (by rw [hretired]; exact List.mem_singleton_self _)
  exact ⟨s, session, hs, hheld, hkinds, (audit_logs_are_well_formed hs).2.1 session hheld⟩

end Axp
