import Axp.AppState
import Axp.StartTrace

/-!
# The handlers and the server

`AppState` runs a request in one piece, `Axp.Server` lock by lock. From any
reachable state, whatever else is going on in it, a request that is not
interrupted is a run of the server: the server ends in the state that the
handler leaves (`Server.state`). What the handler answers is what these steps
have done (`Tells`): the one entry they add to what callers have been told, the
job they start, or, where they do neither, what the registry has for the
session. After an error nobody has been told anything new. So what holds of
every reachable server holds of what the handlers leave, and of what they
answer.
-/

namespace Axp

open Lts

/-- What the handlers share. -/
def Server.state (s : Server) : AppState := ⟨s.engine, s.sessionCounter⟩

/-! ## What an answer tells

The answers of the handlers, by the state before their steps and the state
after them. -/

namespace Tells

variable (s s' : Server)

/-- A session that was not there before is open, and its token has been told. -/
def sessionOpen (req : SessionOpenRequest) (resp : SessionOpenResponse) : Prop :=
  ∃ session : Session, s.engine.sessions.behind session.id = none
    ∧ s'.engine.sessions.get session.id = some session ∧ session.tier = req.sandboxTier
    ∧ resp = ⟨session.id, session.tier, session.capToken.str⟩
    ∧ s'.observed = { s.observed with
        opened := s.observed.opened ++ [(session.id, session.capToken)] }

/-- The session is gone, and that has been told. -/
def sessionClose (req : SessionCloseRequest) (resp : SessionCloseResponse) : Prop :=
  resp = ⟨true⟩ ∧ s'.engine.sessions.get req.sessionId = none
    ∧ s'.observed = { s.observed with closed := s.observed.closed ++ [req.sessionId] }

/-- A report on the session has been told. -/
def sessionAudit (req : SessionAuditRequest) (resp : SessionAuditResponse) : Prop :=
  ∃ report : AuditReport, report.sessionId = req.sessionId
    ∧ resp = ⟨report.events.map auditEventToWire⟩
    ∧ s'.observed = { s.observed with audits := s.observed.audits ++ [report] }

/-- It is what the registry lists for the session. -/
def index (req : IndexRequest) (resp : IndexResponse) : Prop :=
  (∃ session, s.engine.sessions.get req.sessionId = some session
      ∧ s.engine.registry.indexForCapabilities session.capabilities = .ok resp)
    ∧ s'.observed = s.observed

/-- It is what the registry has under the name for the session. -/
def describe (req : DescribeRequest) (resp : CapabilityDetail) : Prop :=
  (∃ session, s.engine.sessions.get req.sessionId = some session
      ∧ s.engine.registry.describeForCapabilities req.name session.capabilities = .ok resp)
    ∧ s'.observed = s.observed

/-- A job that was not there before has been started for the session, and is at
its task. -/
def jobStart (req : JobStartRequest) (resp : JobStartResponse) : Prop :=
  s.engine.Started req resp.jobId s'.engine ∧ s.lives.lookup resp.jobId = none
    ∧ (∃ life, s'.lives.lookup resp.jobId = some life ∧ life.sessionId = req.sessionId
      ∧ life.pc = .running life.work.task)
    ∧ s'.observed = s.observed

/-- It has been told. -/
def jobStatus (req : JobStatusRequest) (resp : JobStatusResponse) : Prop :=
  s'.observed = { s.observed with statuses := s.observed.statuses ++ [(req.sessionId, resp)] }

/-- A report on the cancellation has been told. -/
def jobCancel (req : JobCancelRequest) (resp : JobCancelResponse) : Prop :=
  ∃ report : CancelReport, report.sessionId = req.sessionId ∧ report.jobId = req.jobId
    ∧ resp = ⟨report.ok⟩
    ∧ s'.observed = { s.observed with cancels := s.observed.cancels ++ [report] }

end Tells

open Codec in
/-- The same of the parameters and the result that are sent. -/
def Tells (s s' : Server) (params result : Value) : Handler → Prop
  | .sessionOpen =>
      sessionOpenRequest.Relates sessionOpenResponse (Tells.sessionOpen s s') params result
  | .sessionClose =>
      sessionRequest.Relates sessionCloseResponse (Tells.sessionClose s s') params result
  | .sessionAudit =>
      sessionRequest.Relates sessionAuditResponse (Tells.sessionAudit s s') params result
  | .index => sessionRequest.Relates indexResponse (Tells.index s s') params result
  | .describe => describeRequest.Relates capabilityDetail (Tells.describe s s') params result
  | .jobStart => jobStartRequest.Relates jobStartResponse (Tells.jobStart s s') params result
  | .jobStatus => jobStatusRequest.Relates jobStatusResponse (Tells.jobStatus s s') params result
  | .jobCancel => jobCancelRequest.Relates jobCancelResponse (Tells.jobCancel s s') params result

/-! ## Runs -/

/-- Some run leads from one state to the other. -/
def Server.Runs (display : Error → String) (s s' : Server) : Prop :=
  ∃ ls, (serverSystem display).run s ls = some s'

namespace Server

variable {display : Error → String} {s m s' : Server}

theorem Runs.refl (s : Server) : s.Runs display s := ⟨[], rfl⟩

theorem Runs.head {l : ServerLabel} (h : (serverSystem display).step s l = some m)
    (hrest : m.Runs display s') : s.Runs display s' := by
  obtain ⟨ls, hls⟩ := hrest
  exact ⟨l :: ls, System.run_cons.mpr ⟨m, h, hls⟩⟩

theorem Runs.advance (w : World) {call : Nat} {c : ServerCall}
    (hc : s.calls.lookup call = some c) (h : s.advance call w.env w.now c = m)
    (hrest : m.Runs display s') : s.Runs display s' :=
  .head ((step_call hc).trans (congrArg some h)) hrest

theorem lookup_begin (s : Server) (c : ServerCall) :
    (s.begin c).calls.lookup s.callCount = some c := AList.lookup_insert _

theorem lookup_goOn (s : Server) (call : Nat) (c : ServerCall) :
    (s.goOn call c).calls.lookup call = some c := AList.lookup_insert _

/-- A request past the gate has begun. -/
theorem Runs.request {r : Request} (hgate : s.gate r = .ok ())
    (hrest : (s.begin (s.first r)).Runs display s') : s.Runs display s' := by
  refine .head (l := .request r) (congrArg some ?_) hrest
  rw [Server.request, hgate]

/-- The procedure with the answer `r` is a run from `s` to `s'`: it ends in the
state that the procedure leaves, an answer is as `tells` has it, and an error
leaves everybody with what they had been told. -/
structure Answers {α : Type} (display : Error → String) (s : Server)
    (r : Except TransportError α × AppState) (tells : Server → α → Prop) (s' : Server) : Prop where
  runs : s.Runs display s'
  state : s'.state = r.2
  ok : ∀ a, r.1 = .ok a → tells s' a
  error : ∀ e, r.1 = .error e → s'.observed = s.observed

namespace Answers

variable {α : Type} {r : Except TransportError α × AppState} {tells : Server → α → Prop}

theorem of_ok {a : α} (hr : r.1 = .ok a) (hruns : s.Runs display s') (hstate : s'.state = r.2)
    (htells : tells s' a) : Answers display s r tells s' := by
  refine ⟨hruns, hstate, fun a' h => ?_, fun e h => ?_⟩
  · obtain rfl := Except.ok.inj (hr.symm.trans h)
    exact htells
  · cases hr.symm.trans h

theorem of_error {e : TransportError} (hr : r.1 = .error e) (hruns : s.Runs display s')
    (hstate : s'.state = r.2) (htold : s'.observed = s.observed) :
    Answers display s r tells s' :=
  ⟨hruns, hstate, fun _ h => (by cases hr.symm.trans h), fun _ _ => htold⟩

/-- A procedure that does nothing but fail is no step. -/
theorem refused {e : TransportError} (hr : r = (.error e, s.state)) :
    Answers display s r tells s :=
  .of_error (by rw [hr]) (.refl s) (by rw [hr]) rfl

end Answers

/-- A procedure behind the gate: refused in a state that stays as it is, or
the rest of it. -/
theorem authorized_cases {α : Type} (a : AppState) (sid : SessionId) (capToken : String)
    (rest : AppState → Except TransportError α × AppState) :
    (requireAuthorizedSession a.engine.sessions sid capToken = .error .unauthorized
        ∧ AppState.authorized sid capToken rest a = (.error .unauthorized, a)) ∨
      (requireAuthorizedSession a.engine.sessions sid capToken = .ok ()
        ∧ AppState.authorized sid capToken rest a = rest a) := by
  unfold AppState.authorized requireAuthorizedSession
  by_cases h : a.engine.sessions.authorize sid capToken = true
  · simp [h]
  · simp [h]

/-! ## The counter

Only `session_open` draws on it: the steps of a call and of a job's start do
not. -/

theorem kill_counter (s : Server) (id : JobId) :
    (s.kill id).2.sessionCounter = s.sessionCounter := by
  unfold kill
  split <;> rfl

theorem advance_counter (s : Server) (call : Nat) (env : Env) (now : SystemTime)
    (c : ServerCall) : (s.advance call env now c).sessionCounter = s.sessionCounter := by
  cases c with
  | killing req told =>
      have hkill := s.kill_counter req.jobId
      simp only [advance]
      split <;> simp_all [endCall]
  | killingAll sid rest n =>
      cases rest with
      | nil => rfl
      | cons id rest =>
          have hkill := s.kill_counter id
          simp only [advance]
          split <;> simp_all [goOn]
  | _ =>
      simp only [advance]
      (repeat' split) <;> rfl

theorem life_counter {id : JobId} {life : Life} {job : Job} {now : SystemTime} {pc : LifePc}
    (h : s.lifeStep display id life job now pc .next = some s') :
    s'.sessionCounter = s.sessionCounter := by
  cases pc with
  | running task => cases task <;> cases h
  | startAuditing =>
      simp only [lifeStep] at h
      split at h <;> (obtain rfl := Option.some.inj h; rfl)
  | finishAuditing status =>
      simp only [lifeStep] at h
      split at h <;> (obtain rfl := Option.some.inj h; rfl)
  | erased status => cases h
  | _ =>
      obtain rfl := Option.some.inj h
      rfl

theorem step_counter {l : ServerLabel} {call : Nat} {env : Env} {now : SystemTime} {id : JobId}
    (hl : l = .advance call env now ∨ l = .life id .next now)
    (h : (serverSystem display).step s l = some s') : s'.sessionCounter = s.sessionCounter := by
  rcases hl with rfl | rfl
  · obtain ⟨c, -, rfl⟩ := Option.map_eq_some_iff.mp h
    exact s.advance_counter call env now c
  · simp only [serverSystem] at h
    split at h
    · exact life_counter h
    · cases h

theorem run_counter {ls : List ServerLabel} {call : Nat} {env : Env} {now : SystemTime}
    {id : JobId} (hls : ∀ l ∈ ls, l = .advance call env now ∨ l = .life id .next now) :
    ∀ {s : Server}, (serverSystem display).run s ls = some s' →
      s'.sessionCounter = s.sessionCounter := by
  induction ls with
  | nil =>
      intro s hrun
      obtain rfl := Option.some.inj hrun
      rfl
  | cons l ls ih =>
      intro s hrun
      obtain ⟨m, hm, hrest⟩ := System.run_cons.mp hrun
      obtain ⟨hl, hls⟩ := List.forall_mem_cons.mp hls
      rw [ih hls hrest, step_counter hl hm]

/-! ## One run for each procedure -/

variable (display)

theorem sessionOpen_runs (hs : Reach (serverSystem display) s) (w : World)
    (req : SessionOpenRequest) :
    ∃ s', Answers display s (s.state.sessionOpen w req)
      (fun s' => Tells.sessionOpen s s' req) s' := by
  let token := (CapToken.generate w.entropy).toOption
  have hstep : (serverSystem display).step s (.sessionOpen w.env req token)
      = some (s.sessionOpen w.env req token) := rfl
  unfold AppState.sessionOpen
  cases hworkspace : Workspace.new w.env.canonicalize (.ofString req.workspace) with
  | error e => exact ⟨s, .refused rfl⟩
  | ok workspace =>
      cases hcaps : CapabilitySet.fromWire req.capabilities with
      | error e => exact ⟨s, .refused rfl⟩
      | ok capabilities =>
          cases htoken : CapToken.generate w.entropy with
          | error e =>
              simp only [Server.sessionOpen, hworkspace, hcaps, token, htoken] at hstep
              exact ⟨_, .of_error rfl (.head hstep (.refl _)) rfl rfl⟩
          | ok capToken =>
              simp only [Server.sessionOpen, hworkspace, hcaps, token, htoken] at hstep
              let session : Session :=
                { id := mintedId s.sessionCounter
                  workspace := workspace
                  tier := req.sandboxTier
                  capabilities := capabilities
                  capToken := capToken
                  auditEvents := [] }
              refine ⟨_, .of_ok rfl (.head hstep (.advance w (lookup_begin _ _) rfl (.refl _))) rfl
                ⟨session.recordAudit .sessionOpened w.now, ?_, ?_, rfl, rfl, rfl⟩⟩
              · -- The minted id is known to nobody while the call is on its way.
                have hinv := SessionsInv.reach (hs.step _ trivial hstep)
                exact SessionStore.token_eq_none.mp (hinv.opening _ _ (lookup_begin _ _)).2.1
              · exact (s.engine.sessions.get_opened session w.now _).trans (if_pos rfl)

/-- Past the gate the session is there. -/
theorem get_of_authorized {store : SessionStore} {sid : SessionId} {capToken : String}
    (h : requireAuthorizedSession store sid capToken = .ok ()) :
    ∃ session, store.get sid = some session := by
  unfold requireAuthorizedSession SessionStore.authorize at h
  cases hget : store.get sid with
  | none => simp [hget] at h
  | some session => exact ⟨session, rfl⟩

/-- Closing a session is taking it out and then recording that. -/
theorem close_eq {store : SessionStore} (h : store.Distinct) {sid : SessionId} {session : Session}
    (hget : store.get sid = some session) (now : SystemTime) :
    store.close sid now = (.ok (), (store.remove sid).write sid .sessionClosed now) := by
  have hid := h.live sid session hget
  have hgone : (store.remove sid).get sid = none := by
    rw [SessionStore.get_remove, if_pos rfl]
  have hold : store.retired.map (fun old =>
      if old.id = sid then old.recordAudit .sessionClosed now else old) = store.retired := by
    refine (List.map_congr_left fun old hmem => if_neg fun hsame => ?_).trans (List.map_id _)
    have hnone := (h.retired old hmem).1
    rw [hsame, hget] at hnone
    cases hnone
  rw [SessionStore.write, hgone]
  simp only [SessionStore.close, SessionStore.remove, hget, List.map_append, hold, List.map_cons,
    List.map_nil, if_pos hid]

theorem sessionClose_runs (hs : Reach (serverSystem display) s) (w : World)
    (req : SessionCloseRequest) :
    ∃ s', Answers display s (s.state.sessionClose w req)
      (fun s' => Tells.sessionClose s s' req) s' := by
  unfold AppState.sessionClose
  rcases authorized_cases s.state req.sessionId req.capToken _ with ⟨-, hrefused⟩ | ⟨hgate, hrest⟩
  · exact ⟨s, .refused hrefused⟩
  · obtain ⟨session, hget⟩ := get_of_authorized hgate
    let begun := s.begin (.closing req.sessionId)
    let removed : Server := { begun.goOn s.callCount (.recordingClose req.sessionId) with
      engine := { s.engine with sessions := s.engine.sessions.remove req.sessionId }
      observed := { s.observed with closed := s.observed.closed ++ [req.sessionId] } }
    have hremove : begun.advance s.callCount w.env w.now (.closing req.sessionId) = removed := by
      have hfound : requireSession begun.engine.sessions req.sessionId = .ok session :=
        okOr_eq_ok.mpr hget
      simp only [Server.advance, hfound]
      rfl
    let recorded : Server := { removed.endCall s.callCount with
      engine := { removed.engine with
        sessions := removed.engine.sessions.write req.sessionId .sessionClosed w.now } }
    have hclose : s.state.engine.sessions.close req.sessionId w.now
        = (.ok (), recorded.engine.sessions) :=
      close_eq (SessionsInv.reach hs).distinct hget w.now
    have hgone : recorded.engine.sessions.get req.sessionId = none := by
      refine (SessionStore.get_write _ _ _ _ _).trans ?_
      rw [if_pos rfl, SessionStore.get_remove, if_pos rfl, Option.map_none]
    rw [hrest]
    refine ⟨recorded, .of_ok (a := ⟨true⟩) ?_ (.request
      (r := .sessionClose req.sessionId req.capToken) hgate (.advance w (lookup_begin s _) hremove
        (.advance w (lookup_goOn begun _ _) rfl (.refl _)))) ?_ ⟨rfl, hgone, rfl⟩⟩
    · simp only [hclose]
    · simp only [hclose]
      rfl

theorem sessionAudit_runs (s : Server) (w : World) (req : SessionAuditRequest) :
    ∃ s', Answers display s (s.state.sessionAudit req)
      (fun s' => Tells.sessionAudit s s' req) s' := by
  unfold AppState.sessionAudit
  rcases authorized_cases s.state req.sessionId req.capToken _ with ⟨-, hrefused⟩ | ⟨hgate, hrest⟩
  · exact ⟨s, .refused hrefused⟩
  · obtain ⟨session, hget⟩ := get_of_authorized hgate
    have hfound : requireSession s.state.engine.sessions req.sessionId = .ok session :=
      okOr_eq_ok.mpr hget
    let seen := s.observed.finished req.sessionId
    let begun := s.begin (.auditing req.sessionId seen)
    let reading := begun.goOn s.callCount (.readingAudit req.sessionId seen)
    have hread : begun.advance s.callCount w.env w.now (.auditing req.sessionId seen)
        = reading := by
      have hfound' : requireSession begun.engine.sessions req.sessionId = .ok session := hfound
      simp only [Server.advance, hfound']
      rfl
    let report : AuditReport :=
      { sessionId := req.sessionId
        seen := seen
        live := (s.engine.sessions.get req.sessionId).isSome
        events := session.auditEvents }
    let told : Server := { reading.endCall s.callCount with
      observed := { s.observed with audits := s.observed.audits ++ [report] } }
    have htell : reading.advance s.callCount w.env w.now (.readingAudit req.sessionId seen)
        = told := by
      have hbehind : reading.engine.sessions.behind req.sessionId = some session :=
        SessionStore.behind_of_get hget
      simp only [Server.advance, hbehind]
      rfl
    rw [hrest]
    refine ⟨told, .of_ok ?_ (.request (r := .sessionAudit req.sessionId req.capToken) hgate
      (.advance w (lookup_begin s _) hread
        (.advance w (lookup_goOn begun _ _) htell (.refl _)))) rfl ⟨report, rfl, rfl, rfl⟩⟩
    simp only [AppState.reading, hfound]
    rfl

theorem jobStatus_runs (s : Server) (w : World) (req : JobStatusRequest) :
    ∃ s', Answers display s (s.state.jobStatus req) (fun s' => Tells.jobStatus s s' req) s' := by
  unfold AppState.jobStatus
  rcases authorized_cases s.state req.sessionId req.capToken _ with ⟨-, hrefused⟩ | ⟨hgate, hrest⟩
  · exact ⟨s, .refused hrefused⟩
  · let begun := s.begin (.status req)
    rw [hrest]
    cases howned : s.engine.lookupOwned req.sessionId req.jobId with
    | error e =>
        have hend : begun.advance s.callCount w.env w.now (.status req)
            = begun.endCall s.callCount := by
          have howned' : begun.engine.lookupOwned req.sessionId req.jobId = .error e := howned
          simp only [Server.advance, howned']
        have hstatus : s.state.engine.status req = .error e := by
          show (s.engine.lookupOwned req.sessionId req.jobId).bind _ = _
          rw [howned]
          rfl
        refine ⟨_, .of_error (e := .runtime e) ?_ (.request (r := .jobStatus req) hgate
          (.advance w (lookup_begin s _) hend (.refl _))) rfl rfl⟩
        simp only [AppState.reading, hstatus]
        rfl
    | ok job =>
        let resp : JobStatusResponse :=
          { jobId := req.jobId, status := job.status, seq := job.replayLog.nextSeq }
        have hstatus : s.engine.status req = .ok resp := by
          show (s.engine.lookupOwned req.sessionId req.jobId).bind _ = _
          rw [howned]
          rfl
        let reading := begun.goOn s.callCount (.readingStatus req)
        have hfind : begun.advance s.callCount w.env w.now (.status req) = reading := by
          have howned' : begun.engine.lookupOwned req.sessionId req.jobId = .ok job := howned
          simp only [Server.advance, howned']
          rfl
        let told : Server := { reading.endCall s.callCount with
          observed := { s.observed with
            statuses := s.observed.statuses ++ [(req.sessionId, resp)] } }
        have htell : reading.advance s.callCount w.env w.now (.readingStatus req) = told := by
          have hstatus' : reading.engine.status req = .ok resp := hstatus
          simp only [Server.advance, hstatus']
          rfl
        refine ⟨told, .of_ok (a := resp) ?_ (.request (r := .jobStatus req) hgate
          (.advance w (lookup_begin s _) hfind
            (.advance w (lookup_goOn begun _ _) htell (.refl _)))) rfl rfl⟩
        have hstatus' : s.state.engine.status req = .ok resp := hstatus
        simp only [AppState.reading, hstatus']
        rfl

/-- The step that kills a job does what `cancelOwned` does, and tells its
answer. -/
theorem killing_tells (s : Server) (call : Nat) (env : Env) (now : SystemTime)
    (req : JobCancelRequest) (told : Bool) :
    ∃ report : CancelReport, report.sessionId = req.sessionId ∧ report.jobId = req.jobId
      ∧ s.engine.cancelOwned req.jobId
        = (.ok ⟨report.ok⟩, (s.advance call env now (.killing req told)).engine)
      ∧ (s.advance call env now (.killing req told)).observed
        = { s.observed with cancels := s.observed.cancels ++ [report] } := by
  cases hentry : s.engine.cancels.lookup req.jobId with
  | some entry =>
      have hkill : s.engine.killJob req.jobId
          = (.ok (), { s.engine with cancels := s.engine.cancels.erase req.jobId }) := by
        rw [JobEngine.killJob, hentry]
      simp only [JobEngine.cancelOwned, Server.advance, Server.kill, hkill]
      exact ⟨_, rfl, rfl, rfl, rfl⟩
  | none =>
      have hkill : s.engine.killJob req.jobId = (.error (.jobNotFound req.jobId), s.engine) := by
        rw [JobEngine.killJob, hentry]
      simp only [JobEngine.cancelOwned, Server.advance, Server.kill, hkill]
      exact ⟨_, rfl, rfl, rfl, rfl⟩

theorem jobCancel_runs (s : Server) (w : World) (req : JobCancelRequest) :
    ∃ s', Answers display s (s.state.jobCancel req) (fun s' => Tells.jobCancel s s' req) s' := by
  unfold AppState.jobCancel
  rcases authorized_cases s.state req.sessionId req.capToken _ with ⟨-, hrefused⟩ | ⟨hgate, hrest⟩
  · exact ⟨s, .refused hrefused⟩
  · let told := s.observed.told req.sessionId req.jobId
    let begun := s.begin (.cancelling req told)
    rw [hrest]
    cases howned : s.engine.lookupOwned req.sessionId req.jobId with
    | error e =>
        have hend : begun.advance s.callCount w.env w.now (.cancelling req told)
            = begun.endCall s.callCount := by
          have howned' : begun.engine.lookupOwned req.sessionId req.jobId = .error e := howned
          simp only [Server.advance, howned']
        have hcancel : s.state.engine.cancel req = (.error e, s.engine) := by
          show s.engine.cancel req = _
          rw [JobEngine.cancel, howned]
        refine ⟨_, .of_error (e := .runtime e) ?_ (.request (r := .jobCancel req) hgate
          (.advance w (lookup_begin s _) hend (.refl _))) ?_ rfl⟩
        · simp only [hcancel]
          rfl
        · simp only [hcancel]
          rfl
    | ok job =>
        let killing := begun.goOn s.callCount (.killing req told)
        have hfind : begun.advance s.callCount w.env w.now (.cancelling req told) = killing := by
          have howned' : begun.engine.lookupOwned req.sessionId req.jobId = .ok job := howned
          simp only [Server.advance, howned']
          rfl
        let told' : Server := killing.advance s.callCount w.env w.now (.killing req told)
        obtain ⟨report, hsid, hjob, howns, htold⟩ :=
          killing.killing_tells s.callCount w.env w.now req told
        have hcancel : s.state.engine.cancel req = (.ok ⟨report.ok⟩, told'.engine) := by
          refine Eq.trans ?_ howns
          show s.engine.cancel req = _
          rw [JobEngine.cancel, howned]
          rfl
        refine ⟨told', .of_ok (a := ⟨report.ok⟩) ?_ (.request (r := .jobCancel req) hgate
          (.advance w (lookup_begin s _) hfind
            (.advance w (lookup_goOn begun _ _) rfl (.refl _)))) ?_
          ⟨report, hsid, hjob, rfl, htold⟩⟩
        · simp only [hcancel]
          rfl
        · simp only [hcancel]
          show AppState.mk _ _ = _
          rw [killing.advance_counter]
          rfl

theorem jobStart_runs (hs : Reach (serverSystem display) s) (w : World) (req : JobStartRequest) :
    ∃ s', Answers display s (s.state.jobStart w req) (fun s' => Tells.jobStart s s' req) s' := by
  unfold AppState.jobStart
  rcases authorized_cases s.state req.sessionId req.capToken _ with ⟨-, hrefused⟩ | ⟨hgate, hrest⟩
  · exact ⟨s, .refused hrefused⟩
  · obtain ⟨ls, s', hls, hrun, -, htold, hengine, hlife⟩ :=
      @start_in_a_row _ display _ _ (lookup_begin s (.starting req)) w.env w.now
    have hruns : s.Runs display s' := .request (r := .jobStart req) hgate ⟨ls, hrun⟩
    have hstate : s'.state = { s.state with engine := (s.engine.start w.env w.now req).2 } := by
      rw [Server.state, hengine, run_counter hls hrun]
      rfl
    rw [hrest]
    rcases hstart : s.engine.start w.env w.now req with ⟨r, engine⟩
    have hstart' : s.state.engine.start w.env w.now req = (r, engine) := hstart
    rw [hstart] at hstate
    simp only [hstart']
    cases r with
    | error e => exact ⟨s', .of_error rfl hruns hstate htold⟩
    | ok id =>
        obtain ⟨hfresh, hstarted⟩ := started_of_reach hs hstart
        have hlives := hlife id (congrArg Prod.fst hstart)
        have hengine' : s'.engine = engine := hengine.trans (congrArg Prod.snd hstart)
        refine ⟨s', .of_ok rfl hruns hstate ⟨?_, hfresh, hlives, htold⟩⟩
        rw [hengine']
        exact hstarted

/-- A reading of the catalog takes one more step past the gate, and changes
nothing. -/
theorem catalog_runs {α : Type} {tells : Server → α → Prop} (s : Server) (w : World) {r : Request}
    (hfirst : s.first r = .catalog r.sessionId) {read : AppState → Except TransportError α}
    (hread : ∀ s' a, s'.observed = s.observed → read s.state = .ok a → tells s' a) :
    ∃ s', Answers display s
      (AppState.authorized r.sessionId r.capToken (AppState.reading read) s.state) tells s' := by
  rcases authorized_cases s.state r.sessionId r.capToken (AppState.reading read) with
    ⟨-, hrefused⟩ | ⟨hgate, hrest⟩
  · exact ⟨s, .refused hrefused⟩
  · let begun := s.begin (.catalog r.sessionId)
    have hended : begun.Runs display (begun.endCall s.callCount) :=
      .advance w (lookup_begin s _) rfl (.refl _)
    rw [hrest]
    exact ⟨begun.endCall s.callCount, .request hgate (by rw [hfirst]; exact hended), rfl,
      fun a h => hread _ a rfl h, fun _ _ => rfl⟩

/-- What is read for a session's capabilities. -/
theorem capabilities_read {α : Type} {a : AppState} {sid : SessionId} {x : α}
    {f : CapabilitySet → Result α}
    (h : (do let capabilities ← a.sessionCapabilities sid; runtime (f capabilities)) = .ok x) :
    ∃ session, a.engine.sessions.get sid = some session ∧ f session.capabilities = .ok x := by
  obtain ⟨capabilities, hcaps, h⟩ := bind_eq_ok.mp h
  obtain ⟨session, hsession, hsame⟩ := bind_eq_ok.mp hcaps
  obtain rfl := Except.ok.inj hsame
  exact ⟨session, requireSession_eq_ok.mp hsession, mapError_eq_ok.mp h⟩

theorem index_runs (s : Server) (w : World) (req : IndexRequest) :
    ∃ s', Answers display s (s.state.index req) (fun s' => Tells.index s s' req) s' :=
  catalog_runs display (r := .index req.sessionId req.capToken) s w rfl fun _ _ htold h =>
    ⟨capabilities_read h, htold⟩

theorem describe_runs (s : Server) (w : World) (req : DescribeRequest) :
    ∃ s', Answers display s (s.state.describe req) (fun s' => Tells.describe s s' req) s' :=
  catalog_runs display (r := .describe req.sessionId req.capToken req.name) s w rfl
    fun _ _ htold h => ⟨capabilities_read h, htold⟩

variable {display}

/-- A handler's procedure, once its parameters are read. -/
theorem serve_runs {α β : Type} (c : Codec Value α) (d : Codec Value β)
    (refuse : Value → TransportError) (f : α → AppState → Except TransportError β × AppState)
    {tells : Server → α → β → Prop} (params : Value)
    (hf : ∀ a, ∃ s', Answers display s (f a s.state) (fun s' => tells s' a) s') :
    ∃ s', Answers display s (c.serve d refuse f params s.state)
      (fun s' v => c.Relates d (tells s') params v) s' := by
  cases hread : c.read params with
  | none => exact ⟨s, .refused (c.serve_of_not_read d refuse f hread s.state)⟩
  | some a =>
      rw [c.serve_of_read d refuse f hread]
      obtain ⟨s', hanswers⟩ := hf a
      refine ⟨s', hanswers.runs, hanswers.state, fun v hv => ?_, fun e he => ?_⟩
      · obtain ⟨b, hb, rfl⟩ := map_eq_ok.mp hv
        exact ⟨a, b, hread, rfl, hanswers.ok b hb⟩
      · exact hanswers.error e (map_eq_error.mp he)

variable (display)

open Codec in
/-- A handler, on its own, is a run of the server. -/
theorem handler_runs (hs : Reach (serverSystem display) s) (w : World) (h : Handler)
    (params : Value) :
    ∃ s', Answers display s (AppState.handlers w h s.state params)
      (fun s' v => Tells s s' params v h) s' := by
  let refuse (h : Handler) (v : Value) : TransportError := .invalidParams (w.paramsError h v)
  cases h with
  | sessionOpen =>
      exact serve_runs sessionOpenRequest sessionOpenResponse (refuse .sessionOpen) _ params
        fun req => sessionOpen_runs display hs w req
  | sessionClose =>
      exact serve_runs sessionRequest sessionCloseResponse (refuse .sessionClose) _ params
        fun req => sessionClose_runs display hs w req
  | sessionAudit =>
      exact serve_runs sessionRequest sessionAuditResponse (refuse .sessionAudit) _ params
        fun req => sessionAudit_runs display s w req
  | index =>
      exact serve_runs sessionRequest indexResponse (refuse .index) _ params
        fun req => index_runs display s w req
  | describe =>
      exact serve_runs describeRequest capabilityDetail (refuse .describe) _ params
        fun req => describe_runs display s w req
  | jobStart =>
      exact serve_runs jobStartRequest jobStartResponse (refuse .jobStart) _ params
        fun req => jobStart_runs display hs w req
  | jobStatus =>
      exact serve_runs jobStatusRequest jobStatusResponse (refuse .jobStatus) _ params
        fun req => jobStatus_runs display s w req
  | jobCancel =>
      exact serve_runs jobCancelRequest jobCancelResponse (refuse .jobCancel) _ params
        fun req => jobCancel_runs display s w req

end Server

/-! ## What a failed request leaves -/

namespace AppState

/-- The state is as it was, but for a session id that was minted before the
operating system had no bytes for the token. -/
def Unchanged (w : World) (a a' : AppState) : Prop :=
  a' = a ∨ (w.entropy = none ∧ a' = a.mint)

theorem sessionOpen_error {a : AppState} {w : World} {req : SessionOpenRequest}
    {e : TransportError} (h : (a.sessionOpen w req).1 = .error e) :
    Unchanged w a (a.sessionOpen w req).2 := by
  unfold sessionOpen at h ⊢
  cases hworkspace : Workspace.new w.env.canonicalize (.ofString req.workspace) with
  | error e => exact .inl rfl
  | ok workspace =>
      cases hcaps : CapabilitySet.fromWire req.capabilities with
      | error e => exact .inl rfl
      | ok capabilities =>
          cases hentropy : w.entropy with
          | none => exact .inr ⟨hentropy, by rw [CapToken.generate]; rfl⟩
          | some bytes =>
              simp only [hworkspace, hcaps, hentropy, CapToken.generate] at h
              cases h

/-- Behind the gate, what holds of the rest holds of the procedure. -/
theorem authorized_error {α : Type} {sid : SessionId} {capToken : String}
    {rest : AppState → Except TransportError α × AppState} {a : AppState} {e : TransportError}
    (hrest : (rest a).1 = .error e → (rest a).2 = a)
    (h : (authorized sid capToken rest a).1 = .error e) :
    (authorized sid capToken rest a).2 = a := by
  rcases Server.authorized_cases a sid capToken rest with ⟨-, hrefused⟩ | ⟨-, hpassed⟩
  · rw [hrefused]
  · rw [hpassed] at h ⊢
    exact hrest h

theorem sessionClose_error {a : AppState} {w : World} {req : SessionCloseRequest}
    {e : TransportError} (h : (a.sessionClose w req).1 = .error e) :
    (a.sessionClose w req).2 = a := by
  refine authorized_error (fun herror => ?_) h
  unfold SessionStore.close at herror ⊢
  cases hget : a.engine.sessions.get req.sessionId with
  | none => rfl
  | some session =>
      rw [hget] at herror
      cases herror

theorem jobStart_error {a : AppState} {w : World} {req : JobStartRequest} {e : TransportError}
    (h : (a.jobStart w req).1 = .error e) : (a.jobStart w req).2 = a := by
  refine authorized_error (fun herror => ?_) h
  rcases hstart : a.engine.start w.env w.now req with ⟨r, engine⟩
  simp only [hstart] at herror ⊢
  cases r with
  | ok id => cases herror
  | error e =>
      obtain rfl := JobEngine.start_error hstart
      rfl

theorem jobCancel_error {a : AppState} {req : JobCancelRequest} {e : TransportError}
    (h : (a.jobCancel req).1 = .error e) : (a.jobCancel req).2 = a := by
  refine authorized_error (fun herror => ?_) h
  unfold JobEngine.cancel JobEngine.cancelOwned JobEngine.killJob at herror ⊢
  cases howned : a.engine.lookupOwned req.sessionId req.jobId with
  | error e => rfl
  | ok job =>
      rw [howned] at herror
      cases hentry : a.engine.cancels.lookup req.jobId with
      | none => rfl
      | some entry =>
          rw [hentry] at herror
          cases herror

theorem serve_error {α β : Type} {w : World} {c : Codec Value α} {d : Codec Value β}
    {refuse : Value → TransportError} {f : α → AppState → Except TransportError β × AppState}
    {params : Value} {a : AppState} {e : TransportError}
    (hf : ∀ req e, (f req a).1 = .error e → Unchanged w a (f req a).2)
    (h : (c.serve d refuse f params a).1 = .error e) :
    Unchanged w a (c.serve d refuse f params a).2 := by
  cases hread : c.read params with
  | none =>
      rw [c.serve_of_not_read d refuse f hread]
      exact .inl rfl
  | some req =>
      rw [c.serve_of_read d refuse f hread] at h ⊢
      cases hanswer : (f req a).1 with
      | error e => exact hf req e hanswer
      | ok b =>
          rw [hanswer] at h
          cases h

theorem handler_error {w : World} {h : Handler} {params : Value} {a : AppState}
    {e : TransportError} (herror : (handlers w h a params).1 = .error e) :
    Unchanged w a (handlers w h a params).2 := by
  cases h with
  | sessionOpen => exact serve_error (fun _ _ h => sessionOpen_error h) herror
  | sessionClose => exact serve_error (fun _ _ h => .inl (sessionClose_error h)) herror
  | jobStart => exact serve_error (fun _ _ h => .inl (jobStart_error h)) herror
  | jobCancel => exact serve_error (fun _ _ h => .inl (jobCancel_error h)) herror
  | _ => exact serve_error (fun _ _ h => .inl (authorized_error (fun _ => rfl) h)) herror

end AppState

/-! ## Bodies -/

section Posts

variable {reader : BodyReader} {display : Error → String} {w : World} {body : List UInt8}

/-- A body reaches a handler, or leaves the state as it is and is not
answered with a result. -/
theorem rpcHandler_cases (reader : BodyReader) (display : Error → String)
    (handlers : Handlers AppState) (a : AppState) (body : List UInt8) :
    ((rpcHandler reader display handlers a body).state = a
        ∧ (rpcHandler reader display handlers a body).response.code ≠ none) ∨
      ∃ req h, reader.fromSlice body = .ok req ∧ Handler.ofMethod req.method = some h
        ∧ (rpcHandler reader display handlers a body).state = (handlers h a req.params).2
        ∧ (rpcHandler reader display handlers a body).response.body
          = match (handlers h a req.params).1 with
            | .ok v => .success v
            | .error e => .failure (e.toJsonrpcError display) := by
  unfold rpcHandler
  cases hreq : reader.fromSlice body with
  | error e => exact .inl ⟨rfl, Option.some_ne_none _⟩
  | ok req =>
      cases hmethod : Handler.ofMethod req.method with
      | none =>
          left
          unfold dispatch
          dsimp only
          rw [hmethod]
          dsimp only
          split <;> exact ⟨rfl, Option.some_ne_none _⟩
      | some h =>
          right
          refine ⟨req, h, rfl, hmethod, ?_⟩
          unfold dispatch
          dsimp only
          rw [hmethod]
          dsimp only
          rcases hanswer : handlers h a req.params with ⟨r, a'⟩
          cases r <;> exact ⟨rfl, rfl⟩

/-- Whatever is posted, an answer that is an error leaves the sessions, the
jobs, the cancellations, the tasks and the registry as they were. Only an id
that was minted before the operating system failed to give bytes is lost. -/
theorem post_error_unchanged {a : AppState} {code : Int}
    (h : (rpcHandler reader display (AppState.handlers w) a body).response.code = some code) :
    AppState.Unchanged w a (rpcHandler reader display (AppState.handlers w) a body).state := by
  rcases rpcHandler_cases reader display (AppState.handlers w) a body with
    ⟨hsame, -⟩ | ⟨req, handler, -, -, hstate, hbody⟩
  · exact .inl hsame
  · rw [hstate]
    rw [JsonRpcResponse.code, hbody] at h
    cases hanswer : (AppState.handlers w handler a req.params).1 with
    | ok v =>
        rw [hanswer] at h
        cases h
    | error e => exact AppState.handler_error hanswer

/-- A `session.open` as it is posted. -/
def openText : List UInt8 :=
  utf8 ("\x7b\"jsonrpc\":\"2.0\",\"id\":1,\"method\":\"session.open\",\"params\":\x7b"
    ++ "\"workspace\":\"/proj\",\"sandbox_tier\":\"dev-none\",\"capabilities\":[]\x7d\x7d")

/-- `serde_json` where this text is concerned. -/
def openReader : BodyReader where
  document body :=
    if body = openText then
      some (.object [("jsonrpc", .string "2.0"), ("id", .number "1"),
        ("method", .string "session.open"),
        ("params", .object [("workspace", .string "/proj"),
          ("sandbox_tier", .string "dev-none"), ("capabilities", .array [])])])
    else none
  errorText _ := "expected value at line 1 column 1"

/-- A host on which nothing fails but, without a draw, the generator. -/
def plainWorld (entropy : Option (Vector UInt8 tokenBytes)) : World where
  env := plainHost
  now := .unixEpoch
  entropy := entropy
  paramsError _ _ := "invalid type"

/-- Without random bytes no session is opened, and an id is lost. -/
theorem post_error_unchanged_entropy :
    AppState.Unchanged (plainWorld none) Server.launched.state
      (rpcHandler openReader (fun _ => "") (AppState.handlers (plainWorld none))
        Server.launched.state openText).state := by
  have hcode : (rpcHandler openReader (fun _ => "") (AppState.handlers (plainWorld none))
      Server.launched.state openText).response.code = some Jsonrpc.internalError := by
    decide +kernel
  exact post_error_unchanged hcode

/-- From any reachable state of the server, a body that is posted and answered
without interruption is a run of the server: it ends in the state that the
answer leaves, a success tells what these steps have done, and after an error
everybody has been told what they had been told before. -/
theorem post_is_run {s : Server} (hs : Reach (serverSystem display) s) (reader : BodyReader)
    (w : World) (body : List UInt8) :
    ∃ s', s.Runs display s'
      ∧ s'.state = (rpcHandler reader display (AppState.handlers w) s.state body).state
      ∧ (∀ v, (rpcHandler reader display (AppState.handlers w) s.state body).response.body
          = .success v →
        ∃ req h, reader.fromSlice body = .ok req ∧ Handler.ofMethod req.method = some h
          ∧ Tells s s' req.params v h)
      ∧ ((rpcHandler reader display (AppState.handlers w) s.state body).response.code ≠ none →
        s'.observed = s.observed) := by
  rcases rpcHandler_cases reader display (AppState.handlers w) s.state body with
    ⟨hsame, hcode⟩ | ⟨req, handler, hreq, hmethod, hstate, hbody⟩
  · refine ⟨s, .refl s, hsame.symm, fun v hv => absurd ?_ hcode, fun _ => rfl⟩
    rw [JsonRpcResponse.code, hv]
  · obtain ⟨s', hanswers⟩ := Server.handler_runs display hs w handler req.params
    rw [JsonRpcResponse.code, hbody]
    refine ⟨s', hanswers.runs, hanswers.state.trans hstate.symm, fun v hv => ?_, fun hcode => ?_⟩
    · refine ⟨req, handler, hreq, hmethod, hanswers.ok v ?_⟩
      cases hanswer : (AppState.handlers w handler s.state req.params).1 with
      | ok v' =>
          rw [hanswer] at hv
          rw [JsonRpcBody.success.inj hv]
      | error e =>
          rw [hanswer] at hv
          cases hv
    · cases hanswer : (AppState.handlers w handler s.state req.params).1 with
      | ok v =>
          rw [hanswer] at hcode
          exact absurd rfl hcode
      | error e => exact hanswers.error e hanswer

/-- The text that an answer has under a name. -/
def JsonRpcBody.text (name : String) : JsonRpcBody → Option String
  | .success v => (v.members name).head?.bind Value.asString
  | .failure _ => none

/-- The first session of a server. -/
theorem post_is_run_opened : ∃ s token, Server.launched.Runs (fun _ => "") s
    ∧ s.sessionCounter = 2 ∧ s.observed.opened = [(⟨"s_1"⟩, token)] := by
  let w := plainWorld (some (.replicate _ 7))
  let answered := rpcHandler openReader (fun _ => "") (AppState.handlers w)
    Server.launched.state openText
  have hcounter : answered.state.sessionCounter = 2 := by decide +kernel
  have htext : answered.response.body.text "session_id" = some "s_1" := by decide +kernel
  have hhandler : (openReader.fromSlice openText).toOption.map (Handler.ofMethod ·.method)
      = some (some .sessionOpen) := by decide +kernel
  obtain ⟨s, hruns, hstate, htells, -⟩ := post_is_run
    (.init (Server.launched_init fun _ => "")) openReader w openText
  have hcounter' : s.sessionCounter = 2 := (congrArg AppState.sessionCounter hstate).trans hcounter
  cases hbody : answered.response.body with
  | failure e =>
      rw [hbody] at htext
      cases htext
  | success v =>
      rw [hbody] at htext
      obtain ⟨req, h, hreq, hmethod, hopened⟩ := htells v hbody
      rw [hreq] at hhandler
      obtain rfl := Option.some.inj (hmethod.symm.trans (Option.some.inj hhandler))
      obtain ⟨_, _, -, rfl, session, -, -, -, rfl, hobserved⟩ := hopened
      have hstr : session.id.str = "s_1" := by
        simpa [JsonRpcBody.text, Codec.sessionOpenResponse, Codec.total,
          SessionOpenResponse.serialize, SessionId.serialize] using htext
      have hid : session.id = ⟨"s_1"⟩ := congrArg SessionId.mk hstr
      refine ⟨s, session.capToken, hruns, hcounter', ?_⟩
      rw [hobserved, hid]
      rfl

end Posts

end Axp
