import Axp.Cancel
import Axp.Isolation
import Axp.Server

/-!
# What a step of the server can do

Two inversions of `serverSystem`, on which all its invariants rest. `Effect`
says what a step does to everything but the calls in flight, and from which
call or which point in a job's life it does it; `Next` says how a call comes to
be where it is.
-/

namespace Axp

open Lts Directory

/-- The moves of a job that touch nothing else. -/
inductive PcMove (s : Server) (life : Life) : LifePc → Prop
  | found (session : Session) : life.pc = .startAuditing →
      s.engine.sessions.get life.sessionId = some session → PcMove s life .startRecording
  | lost : life.pc = .startAuditing → s.engine.sessions.get life.sessionId = none →
      PcMove s life .spawning
  | work (task task' : TaskState) : life.pc = .running task → PcMove s life (.running task')
  | finish (task : TaskState) (status : TerminalStatus) : life.pc = .running task →
      PcMove s life (.finishing status)
  | foundLast (status : TerminalStatus) (session : Session) : life.pc = .finishAuditing status →
      s.engine.sessions.get life.sessionId = some session →
      PcMove s life (.finishRecording status)
  | lostLast (status : TerminalStatus) : life.pc = .finishAuditing status →
      s.engine.sessions.get life.sessionId = none → PcMove s life (.retiring status)

/-- The effects of a step, up to the calls in flight. -/
inductive Effect (s : Server) (l : ServerLabel) : Server → Prop
  | talk (cs : HashMap Nat ServerCall) (n k : Nat) : s.callCount ≤ n → s.sessionCounter ≤ k →
      Effect s l { s with calls := cs, callCount := n, sessionCounter := k }
  | opened (cs : HashMap Nat ServerCall) (call : Nat) (session : Session) (now : SystemTime) :
      s.calls.lookup call = some (.opening session) → cs = s.calls.erase call →
      Effect s l
        { s with
          calls := cs
          engine := { s.engine with sessions := s.engine.sessions.openSession session now }
          observed :=
            { s.observed with
              opened := s.observed.opened ++ [(session.id, session.capToken)] } }
  | removed (cs : HashMap Nat ServerCall) (call : Nat) (sid : SessionId) (session : Session) :
      s.calls.lookup call = some (.closing sid) → s.engine.sessions.get sid = some session →
      cs = s.calls.insert call (.recordingClose sid) →
      Effect s l
        { s with
          calls := cs
          engine := { s.engine with sessions := s.engine.sessions.remove sid }
          observed := { s.observed with closed := s.observed.closed ++ [sid] } }
  | recorded (cs : HashMap Nat ServerCall) (call : Nat) (sid : SessionId) (now : SystemTime) :
      s.calls.lookup call = some (.recordingClose sid) → cs = s.calls.erase call →
      Effect s l
        { s with
          calls := cs
          engine := { s.engine with sessions := s.engine.sessions.write sid .sessionClosed now } }
  | audited (cs : HashMap Nat ServerCall) (call : Nat) (sid : SessionId)
      (seen : List (JobId × JobStatus)) (session : Session) (env : Env) (now : SystemTime) :
      l = .advance call env now → s.calls.lookup call = some (.readingAudit sid seen) →
      s.engine.sessions.behind sid = some session →
      Effect s l
        { s with
          calls := cs
          observed :=
            { s.observed with
              audits := s.observed.audits ++
                [{ sessionId := sid
                   seen := seen
                   live := (s.engine.sessions.get sid).isSome
                   events := session.auditEvents }] } }
  | inserted (cs : HashMap Nat ServerCall) (call : Nat) (req : JobStartRequest) (launch : Launch)
      (env : Env) (now : SystemTime) : l = .advance call env now →
      s.calls.lookup call = some (.inserting req launch) →
      Effect s l
        { s with
          calls := cs
          engine := (s.engine.insertRunningJob req launch.cwd now).2
          lives := s.lives.insert (s.engine.insertRunningJob req launch.cwd now).1
            { sessionId := req.sessionId, work := launch.work, rx := none, pc := .registering } }
  | answered (cs : HashMap Nat ServerCall) (call : Nat) (req : JobStatusRequest)
      (response : JobStatusResponse) : s.calls.lookup call = some (.readingStatus req) →
      s.engine.status req = .ok response →
      Effect s l
        { s with
          calls := cs
          observed :=
            { s.observed with
              statuses := s.observed.statuses ++ [(req.sessionId, response)] } }
  | cancelled (cs : HashMap Nat ServerCall) (call : Nat) (req : JobCancelRequest) (told : Bool)
      (env : Env) (now : SystemTime) : l = .advance call env now →
      s.calls.lookup call = some (.killing req told) →
      s.engine.cancels.lookup req.jobId ≠ none →
      Effect s l
        { s.signal req.jobId
            { s.engine with cancels := s.engine.cancels.erase req.jobId } with
          calls := cs
          observed := s.reportCancel req told true }
  | refused (cs : HashMap Nat ServerCall) (call : Nat) (req : JobCancelRequest) (told : Bool)
      (env : Env) (now : SystemTime) : l = .advance call env now →
      s.calls.lookup call = some (.killing req told) →
      s.engine.cancels.lookup req.jobId = none →
      Effect s l { s with calls := cs, observed := s.reportCancel req told false }
  | counted (call : Nat) (sid : SessionId) (id : JobId) (rest : List JobId) (n : Nat) :
      s.calls.lookup call = some (.killingAll sid (id :: rest) n) →
      s.engine.cancels.lookup id ≠ none →
      Effect s l
        { s.signal id { s.engine with cancels := s.engine.cancels.erase id } with
          calls := s.calls.insert call (.killingAll sid rest (n + 1))
          observed := { s.observed with counted := s.observed.counted ++ [⟨call, sid, id⟩] } }
  | totalled (cs : HashMap Nat ServerCall) (call : Nat) (sid : SessionId) (n : Nat) :
      s.calls.lookup call = some (.killingAll sid [] n) → cs = s.calls.erase call →
      Effect s l
        { s with
          calls := cs
          observed := { s.observed with totals := s.observed.totals ++ [⟨call, sid, n⟩] } }
  | attached (cs : HashMap Nat ServerCall) (call : Nat) (req : JobAttachRequest) (job : Job) :
      s.engine.jobs.get req.jobId = some job → job.sessionId = req.sessionId →
      Effect s l
        { s with
          calls := cs
          streams := Function.update s.streams call (some (req.sessionId,
            { stream := { jobId := req.jobId, cursor := req.fromOffset, pending := [] }
              pc := .idle
              woken := false
              offset := req.fromOffset
              results := [] })) }
  | streamed (i : Nat) (sid : SessionId) (a a' : Attached) (job : Job) (act : StreamAct) :
      s.streams i = some (sid, a) → s.engine.jobs.get a.stream.jobId = some job →
      a.step false job act = some a' →
      Effect s l { s with streams := Function.update s.streams i (some (sid, a')) }
  | streamEnded (i : Nat) (sid : SessionId) (a a' : Attached) (job : Job) :
      s.streams i = some (sid, a) → s.engine.jobs.get a.stream.jobId = some job →
      a.step false job .read = some a' → a'.pc = .idle →
      Effect s l
        { s with
          streams := Function.update s.streams i (some (sid, a'))
          observed :=
            { s.observed with
              ended := s.observed.ended ++ [(sid, a.stream.jobId, job.status)] } }
  | registered (id : JobId) (life : Life) : s.lives.lookup id = some life →
      life.pc = .registering →
      Effect s l
        { s with
          engine := s.engine.registerCancel id life.work.cancelEntry
          senders := s.senders.insert id s.channels
          channels := s.channels + 1
          lives := s.lives.insert id { life with rx := some s.channels, pc := .startAuditing } }
  | moved (id : JobId) (life : Life) (pc : LifePc) : s.lives.lookup id = some life →
      PcMove s life pc → Effect s l (s.move id life pc)
  | startRecorded (id : JobId) (life : Life) (now : SystemTime) :
      s.lives.lookup id = some life → life.pc = .startRecording →
      Effect s l ((s.writeAudit life.sessionId (.jobStarted id) now).move id life .spawning)
  | spawned (id : JobId) (life : Life) : s.lives.lookup id = some life → life.pc = .spawning →
      Effect s l
        { s.move id life (.running life.work.task) with
          engine := s.engine.spawnTask ⟨id, life.sessionId, life.work⟩ }
  | branched (id : JobId) (life : Life) (task task' : TaskState) :
      s.lives.lookup id = some life → life.pc = .running task → s.ready life.rx = true →
      Effect s l ((s.branch id).move id life (.running task'))
  | pushed (id : JobId) (life : Life) (task task' : TaskState) (job : Job)
      (event : AppendLogEvent) : s.lives.lookup id = some life → life.pc = .running task →
      s.engine.jobs.get id = some job →
      Effect s l ((s.pushLog id job event).move id life (.running task'))
  | terminal (id : JobId) (life : Life) (job : Job) (status : TerminalStatus)
      (now : SystemTime) : s.lives.lookup id = some life → life.pc = .finishing status →
      s.engine.jobs.get id = some job →
      Effect s l ((s.modifyJob id (·.finish status.val now)).move id life (.notifying status))
  | notified (id : JobId) (life : Life) (status : TerminalStatus) :
      s.lives.lookup id = some life → life.pc = .notifying status →
      Effect s l { s.move id life (.finishAuditing status) with streams := s.wake id }
  | finishRecorded (id : JobId) (life : Life) (status : TerminalStatus) (now : SystemTime) :
      s.lives.lookup id = some life → life.pc = .finishRecording status →
      Effect s l ((s.writeAudit life.sessionId (.jobFinished id status.val) now).move id life
        (.retiring status))
  | retired (id : JobId) (life : Life) (status : TerminalStatus) :
      s.lives.lookup id = some life → life.pc = .retiring status →
      Effect s l
        { s.move id life (.erased status) with
          engine := { s.engine with cancels := s.engine.cancels.erase id }
          senders := s.senders.erase id }

/-- Numbers of calls are not given out twice. -/
theorem Effect.callCount_le {s s' : Server} {l : ServerLabel} (h : Effect s l s') :
    s.callCount ≤ s'.callCount := by
  cases h with
  | talk cs n k hn hk => exact hn
  | _ => exact le_rfl

/-- How the call `call` goes on. -/
inductive Goes (s s' : Server) (call : Nat) : ServerCall → ServerCall → Prop
  | closing (sid : SessionId) (session : Session) : s.engine.sessions.get sid = some session →
      s'.engine.sessions.get sid = none → Goes s s' call (.closing sid) (.recordingClose sid)
  | auditing (sid : SessionId) (seen : List (JobId × JobStatus)) (session : Session) :
      s.engine.sessions.get sid = some session →
      Goes s s' call (.auditing sid seen) (.readingAudit sid seen)
  | starting (req : JobStartRequest) (session : Session) :
      s.engine.sessions.get req.sessionId = some session →
      Goes s s' call (.starting req) (.preparing req session)
  | preparing (req : JobStartRequest) (session : Session) (launch : Launch) :
      Goes s s' call (.preparing req session) (.inserting req launch)
  | status (req : JobStatusRequest) : Goes s s' call (.status req) (.readingStatus req)
  | cancelling (req : JobCancelRequest) (told : Bool) : s.engine.Owns req.sessionId req.jobId →
      Goes s s' call (.cancelling req told) (.killing req told)
  | counting (sid : SessionId) (id : JobId) (rest : List JobId) (n : Nat) :
      s'.observed.counted = s.observed.counted ++ [⟨call, sid, id⟩] →
      Goes s s' call (.killingAll sid (id :: rest) n) (.killingAll sid rest (n + 1))
  | skipping (sid : SessionId) (id : JobId) (rest : List JobId) (n : Nat) :
      Goes s s' call (.killingAll sid (id :: rest) n) (.killingAll sid rest n)

/-- How a call comes to be where it is after a step. -/
inductive Next (s s' : Server) : Nat → ServerCall → Prop
  | opening (session : Session) : session.id = mintedId s.sessionCounter →
      session.auditEvents = [] →
      s' = { s with sessionCounter := s.sessionCounter + 1 }.begin (.opening session) →
      Next s s' s.callCount (.opening session)
  | first (r : Request) (c : ServerCall) : s.gate r = .ok () → c = s.first r → s' = s.begin c →
      Next s s' s.callCount c
  | killingAll (sid : SessionId) :
      s' = s.begin (.killingAll sid (s.engine.jobs.listForSession sid) 0) →
      Next s s' s.callCount (.killingAll sid (s.engine.jobs.listForSession sid) 0)
  | goes (call : Nat) (c c' : ServerCall) : s.calls.lookup call = some c → Goes s s' call c c' →
      Next s s' call c'

/-! ## The steps of a job -/

/-- The cancellation branch of either task is silent. -/
theorem drainer_cancelReady {d : DrainState} {act : TaskAct DrainState}
    (h : drainer.act d .cancelReady = some act) : act = .silent d.onCancel := by
  cases drainer_cases h with
  | cancel => rfl

theorem codeTask_cancelReady {display : Error → String} {c : CodeState}
    {act : TaskAct CodeState} (h : (codeTask display).act c .cancelReady = some act) :
    act = .silent (.ending ⟨.killed, rfl⟩) := by
  cases c with
  | running => exact (Option.some.inj h).symm
  | ending status => cases h

namespace Server

variable {s s' : Server} {l : ServerLabel} {id : JobId} {life : Life} {job : Job}
  {display : Error → String}

/-- A move of a task that is not its cancellation branch. -/
theorem act_effect {σ : Type} {wrap : σ → TaskState} {task : TaskState} (act : TaskAct σ)
    (hlife : s.lives.lookup id = some life) (hpc : life.pc = .running task)
    (hjob : s.engine.jobs.get id = some job) : Effect s l (s.act id life job wrap act) := by
  cases act with
  | silent next => exact .moved id life _ hlife (.work task _ hpc)
  | pushLog event resume => exact .pushed id life task _ job event hlife hpc hjob
  | finish status => exact .moved id life _ hlife (.finish task status hpc)

theorem drain_effect {d : DrainState} {input : DrainInput}
    (h : s.drain id life job d input = some s') (hlife : s.lives.lookup id = some life)
    (hpc : life.pc = .running (.drain d)) (hjob : s.engine.jobs.get id = some job) :
    Effect s l s' := by
  unfold drain at h
  split at h
  · split at h
    · next hready =>
        obtain ⟨act, hact, rfl⟩ := Option.map_eq_some_iff.mp h
        rw [drainer_cancelReady hact]
        exact .branched id life _ _ hlife hpc hready
    · cases h
  · split at h
    · obtain ⟨act, -, rfl⟩ := Option.map_eq_some_iff.mp h
      exact act_effect act hlife hpc hjob
    · cases h
  · obtain ⟨act, -, rfl⟩ := Option.map_eq_some_iff.mp h
    exact act_effect act hlife hpc hjob

theorem code_effect {c : CodeState} {input : CodeInput}
    (h : s.code display id life job c input = some s') (hlife : s.lives.lookup id = some life)
    (hpc : life.pc = .running (.code c)) (hjob : s.engine.jobs.get id = some job) :
    Effect s l s' := by
  unfold code at h
  split at h
  · split at h
    · next hready =>
        obtain ⟨act, hact, rfl⟩ := Option.map_eq_some_iff.mp h
        rw [codeTask_cancelReady hact]
        exact .branched id life _ _ hlife hpc hready
    · cases h
  · obtain ⟨act, -, rfl⟩ := Option.map_eq_some_iff.mp h
    exact act_effect act hlife hpc hjob

theorem lifeStep_effect {now : SystemTime} {input : LifeInput}
    (h : s.lifeStep display id life job now life.pc input = some s')
    (hlife : s.lives.lookup id = some life) (hjob : s.engine.jobs.get id = some job) :
    Effect s l s' := by
  unfold lifeStep at h
  split at h
  · next hpc =>
      obtain rfl := Option.some.inj h
      exact .registered id life hlife hpc
  · next hpc =>
      split at h
      · next session hget =>
          obtain rfl := Option.some.inj h
          exact .moved id life _ hlife (.found session hpc hget)
      · next hget =>
          obtain rfl := Option.some.inj h
          exact .moved id life _ hlife (.lost hpc hget)
  · next hpc =>
      obtain rfl := Option.some.inj h
      exact .startRecorded id life now hlife hpc
  · next hpc =>
      obtain rfl := Option.some.inj h
      exact .spawned id life hlife hpc
  · next hpc => exact drain_effect h hlife hpc hjob
  · next hpc => exact code_effect h hlife hpc hjob
  · next status hpc =>
      obtain rfl := Option.some.inj h
      exact .terminal id life job status now hlife hpc hjob
  · next status hpc =>
      obtain rfl := Option.some.inj h
      exact .notified id life status hlife hpc
  · next status hpc =>
      split at h
      · next session hget =>
          obtain rfl := Option.some.inj h
          exact .moved id life _ hlife (.foundLast status session hpc hget)
      · next hget =>
          obtain rfl := Option.some.inj h
          exact .moved id life _ hlife (.lostLast status hpc hget)
  · next status hpc =>
      obtain rfl := Option.some.inj h
      exact .finishRecorded id life status now hlife hpc
  · next status hpc =>
      obtain rfl := Option.some.inj h
      exact .retired id life status hlife hpc
  · cases h

/-! ## The steps of a call -/

/-- `kill_job` takes the entry and signals, or finds none. -/
theorem kill_cases (s : Server) (id : JobId) :
    (s.engine.cancels.lookup id ≠ none ∧ s.kill id
        = (.ok (), s.signal id { s.engine with cancels := s.engine.cancels.erase id }))
      ∨ (s.engine.cancels.lookup id = none ∧ s.kill id = (.error (.jobNotFound id), s)) := by
  unfold kill JobEngine.killJob
  cases s.engine.cancels.lookup id with
  | some entry => exact Or.inl ⟨Option.some_ne_none _, rfl⟩
  | none => exact Or.inr ⟨rfl, rfl⟩

theorem requireSession_eq_ok {sessions : SessionStore} {sid : SessionId} {session : Session} :
    requireSession sessions sid = .ok session ↔ sessions.get sid = some session := okOr_eq_ok

/-- A call that has been advanced, with nothing else done. -/
theorem goOn_effect (call : Nat) (c : ServerCall) : Effect s l (s.goOn call c) :=
  .talk _ _ _ le_rfl le_rfl

theorem endCall_effect (call : Nat) : Effect s l (s.endCall call) := .talk _ _ _ le_rfl le_rfl

theorem advance_effect {call : Nat} {c : ServerCall} (env : Env) (now : SystemTime)
    (hc : s.calls.lookup call = some c) :
    Effect s (.advance call env now) (s.advance call env now c) := by
  cases c with
  | opening session => exact .opened _ call session now hc rfl
  | closing sid =>
      simp only [advance]
      split
      · next session hget => exact .removed _ call sid session hc (requireSession_eq_ok.mp hget) rfl
      · exact endCall_effect call
  | recordingClose sid => exact .recorded _ call sid now hc rfl
  | auditing sid seen =>
      simp only [advance]
      split
      · exact goOn_effect call _
      · exact endCall_effect call
  | readingAudit sid seen =>
      simp only [advance]
      split
      · next session hget => exact .audited _ call sid seen session env now rfl hc hget
      · exact endCall_effect call
  | catalog sid => exact endCall_effect call
  | starting req =>
      simp only [advance]
      split
      · exact goOn_effect call _
      · exact endCall_effect call
  | preparing req session =>
      simp only [advance]
      split
      · exact goOn_effect call _
      · exact endCall_effect call
  | inserting req launch => exact .inserted _ call req launch env now rfl hc
  | status req =>
      simp only [advance]
      split
      · exact goOn_effect call _
      · exact endCall_effect call
  | readingStatus req =>
      simp only [advance]
      split
      · next response hstatus => exact .answered _ call req response hc hstatus
      · exact endCall_effect call
  | cancelling req told =>
      simp only [advance]
      split
      · exact goOn_effect call _
      · exact endCall_effect call
  | killing req told =>
      rcases s.kill_cases req.jobId with ⟨hsome, hkill⟩ | ⟨hnone, hkill⟩
      · simp only [advance, hkill]
        exact .cancelled _ call req told env now rfl hc hsome
      · simp only [advance, hkill]
        exact .refused _ call req told env now rfl hc hnone
  | killingAll sid rest n =>
      cases rest with
      | nil => exact .totalled _ call sid n hc rfl
      | cons id rest =>
          rcases s.kill_cases id with ⟨hsome, hkill⟩ | ⟨hnone, hkill⟩
          · simp only [advance, hkill]
            exact .counted call sid id rest n hc hsome
          · simp only [advance, hkill]
            exact goOn_effect call _
  | attaching req =>
      simp only [advance]
      split
      · next stream job hattach =>
          obtain ⟨found, hfound, heq⟩ := bind_eq_ok.mp hattach
          obtain ⟨hget, howner⟩ := JobEngine.lookupOwned_eq_ok.mp hfound
          obtain ⟨rfl, rfl⟩ := Prod.mk.inj (Except.ok.inj heq)
          exact .attached _ call req found hget howner
      · exact endCall_effect call

/-- `session_open` fails, or mints an id for nothing, or begins the call that
opens the session. -/
theorem sessionOpen_cases (s : Server) (env : Env) (req : SessionOpenRequest)
    (token : Option CapToken) :
    s.sessionOpen env req token = s
      ∨ s.sessionOpen env req token = { s with sessionCounter := s.sessionCounter + 1 }
      ∨ ∃ session : Session, session.id = mintedId s.sessionCounter ∧ session.auditEvents = []
        ∧ s.sessionOpen env req token
          = { s with sessionCounter := s.sessionCounter + 1 }.begin (.opening session) := by
  unfold sessionOpen
  split
  · split
    · exact Or.inr (Or.inr ⟨_, rfl, rfl, rfl⟩)
    · exact Or.inr (Or.inl rfl)
  · exact Or.inl rfl

/-- A request is past the gate, or changes nothing. -/
theorem request_cases (s : Server) (r : Request) :
    (s.gate r = .ok () ∧ s.request r = s.begin (s.first r))
      ∨ (s.gate r = .error .unauthorized ∧ s.request r = s) := by
  unfold request gate requireAuthorizedSession
  split
  · exact Or.inr ⟨rfl, rfl⟩
  · exact Or.inl ⟨rfl, rfl⟩

/-- A step of a job's life finds the job and its life. -/
theorem step_life_eq_some {id : JobId} {input : LifeInput} {now : SystemTime}
    (h : (serverSystem display).step s (.life id input now) = some s') :
    ∃ life job, s.lives.lookup id = some life ∧ s.engine.jobs.get id = some job
      ∧ s.lifeStep display id life job now life.pc input = some s' := by
  simp only [serverSystem] at h
  split at h
  · next life job hlife hjob => exact ⟨life, job, hlife, hjob, h⟩
  · cases h

/-- A step of a stream finds it and its job. -/
theorem step_stream_eq_some {i : Nat} {act : StreamAct}
    (h : (serverSystem display).step s (.stream i act) = some s') :
    ∃ sid a job, s.streams i = some (sid, a) ∧ s.engine.jobs.get a.stream.jobId = some job
      ∧ s.streamStep i sid a job act = some s' := by
  simp only [serverSystem] at h
  split at h
  · next sid a hstream =>
      obtain ⟨job, hjob, hstep⟩ := Option.bind_eq_some_iff.mp h
      exact ⟨sid, a, job, hstream, hjob, hstep⟩
  · cases h

/-- Every step has one of the effects. -/
theorem step_effect (h : (serverSystem display).step s l = some s') :
    Effect s l s' := by
  cases l with
  | sessionOpen env req token =>
      obtain rfl : s.sessionOpen env req token = s' := Option.some.inj h
      rcases s.sessionOpen_cases env req token with hs | hs | ⟨session, -, -, hs⟩
      · rw [hs]
        exact .talk _ _ _ le_rfl le_rfl
      · rw [hs]
        exact .talk _ _ _ le_rfl (Nat.le_succ _)
      · rw [hs]
        exact .talk _ _ _ (Nat.le_succ _) (Nat.le_succ _)
  | request r =>
      obtain rfl : s.request r = s' := Option.some.inj h
      rcases s.request_cases r with ⟨-, hs⟩ | ⟨-, hs⟩
      · rw [hs]
        exact .talk _ _ _ (Nat.le_succ _) le_rfl
      · rw [hs]
        exact .talk _ _ _ le_rfl le_rfl
  | cancelForSession sid =>
      obtain rfl := Option.some.inj h
      exact .talk _ _ _ (Nat.le_succ _) le_rfl
  | advance call env now =>
      obtain ⟨c, hc, rfl⟩ := Option.map_eq_some_iff.mp h
      exact advance_effect env now hc
  | life id input now =>
      obtain ⟨life, job, hlife, hjob, hstep⟩ := step_life_eq_some h
      exact lifeStep_effect hstep hlife hjob
  | stream i act =>
      obtain ⟨sid, a, job, hstream, hjob, hstep⟩ := step_stream_eq_some h
      obtain ⟨a', ha', rfl⟩ := Option.map_eq_some_iff.mp hstep
      by_cases hends : act = .read ∧ a'.pc = .idle
      · obtain ⟨rfl, hidle⟩ := hends
        rw [if_pos ⟨rfl, hidle⟩]
        exact .streamEnded i sid a a' job hstream hjob ha' hidle
      · rw [if_neg hends]
        exact .streamed i sid a a' job act hstream hjob ha'

/-! ## The calls in flight -/

theorem act_calls {σ : Type} {wrap : σ → TaskState} (act : TaskAct σ) :
    (s.act id life job wrap act).calls = s.calls := by
  cases act <;> rfl

theorem drain_calls {d : DrainState} {input : DrainInput}
    (h : s.drain id life job d input = some s') : s'.calls = s.calls := by
  unfold drain at h
  split at h
  · split at h
    · obtain ⟨act, -, rfl⟩ := Option.map_eq_some_iff.mp h
      exact act_calls act
    · cases h
  · split at h
    · obtain ⟨act, -, rfl⟩ := Option.map_eq_some_iff.mp h
      exact act_calls act
    · cases h
  · obtain ⟨act, -, rfl⟩ := Option.map_eq_some_iff.mp h
    exact act_calls act

theorem code_calls {c : CodeState} {input : CodeInput}
    (h : s.code display id life job c input = some s') : s'.calls = s.calls := by
  unfold code at h
  split at h
  · split at h
    · obtain ⟨act, -, rfl⟩ := Option.map_eq_some_iff.mp h
      exact act_calls act
    · cases h
  · obtain ⟨act, -, rfl⟩ := Option.map_eq_some_iff.mp h
    exact act_calls act

/-- A job's steps are no call's. -/
theorem lifeStep_calls {now : SystemTime} {pc : LifePc} {input : LifeInput}
    (h : s.lifeStep display id life job now pc input = some s') : s'.calls = s.calls := by
  unfold lifeStep at h
  split at h
  case h_5 => exact drain_calls h
  case h_6 => exact code_calls h
  -- The two looks at the session.
  case h_2 =>
      split at h
      · obtain rfl := Option.some.inj h
        rfl
      · obtain rfl := Option.some.inj h
        rfl
  case h_9 =>
      split at h
      · obtain rfl := Option.some.inj h
        rfl
      · obtain rfl := Option.some.inj h
        rfl
  case h_12 => cases h
  all_goals
    obtain rfl := Option.some.inj h
    rfl

/-- Where the calls are after one of them has been advanced. -/
theorem advance_calls {call : Nat} {c : ServerCall} (env : Env) (now : SystemTime)
    (hc : s.calls.lookup call = some c) {call' : Nat} {c' : ServerCall}
    (h : (s.advance call env now c).calls.lookup call' = some c') :
    s.calls.lookup call' = some c'
      ∨ call' = call ∧ Goes s (s.advance call env now c) call c c' := by
  have hover : ∀ t, (s.calls.erase call).lookup call' = some c' →
      s.calls.lookup call' = some c' ∨ call' = call ∧ Goes s t call c c' :=
    fun _ h => Or.inl (lookup_erase_iff.mp h).2
  have hgo : ∀ t d, Goes s t call c d → (s.calls.insert call d).lookup call' = some c' →
      s.calls.lookup call' = some c' ∨ call' = call ∧ Goes s t call c c' := by
    intro t d hd h
    rcases lookup_insert_iff.mp h with ⟨hcall, rfl⟩ | ⟨-, hsame⟩
    · exact Or.inr ⟨hcall, hd⟩
    · exact Or.inl hsame
  cases c with
  | opening session => exact hover _ h
  | closing sid =>
      simp only [advance] at h
      split at h
      · next session hget =>
          refine hgo _ _ (.closing sid session (requireSession_eq_ok.mp hget) ?_) h
          simp only [advance, hget]
          rw [SessionStore.get_remove, if_pos rfl]
      · exact hover _ h
  | recordingClose sid => exact hover _ h
  | auditing sid seen =>
      simp only [advance] at h
      split at h
      · next session hget =>
          exact hgo _ _ (.auditing sid seen session (requireSession_eq_ok.mp hget)) h
      · exact hover _ h
  | readingAudit sid seen =>
      simp only [advance] at h
      split at h
      · exact hover _ h
      · exact hover _ h
  | catalog sid => exact hover _ h
  | starting req =>
      simp only [advance] at h
      split at h
      · next session hget => exact hgo _ _ (.starting req session hget) h
      · exact hover _ h
  | preparing req session =>
      simp only [advance] at h
      split at h
      · next launch _ => exact hgo _ _ (.preparing req session launch) h
      · exact hover _ h
  | inserting req launch => exact hover _ h
  | status req =>
      simp only [advance] at h
      split at h
      · exact hgo _ _ (.status req) h
      · exact hover _ h
  | readingStatus req =>
      simp only [advance] at h
      split at h
      · exact hover _ h
      · exact hover _ h
  | cancelling req told =>
      simp only [advance] at h
      split at h
      · next job hfound =>
          exact hgo _ _ (.cancelling req told ⟨job, JobEngine.lookupOwned_eq_ok.mp hfound⟩) h
      · exact hover _ h
  | killing req told =>
      rcases s.kill_cases req.jobId with ⟨-, hkill⟩ | ⟨-, hkill⟩
      · simp only [advance, hkill] at h
        exact hover _ h
      · simp only [advance, hkill] at h
        exact hover _ h
  | killingAll sid rest n =>
      cases rest with
      | nil => exact hover _ h
      | cons id rest =>
          rcases s.kill_cases id with ⟨-, hkill⟩ | ⟨-, hkill⟩
          · simp only [advance, hkill] at h
            refine hgo _ _ (.counting sid id rest n ?_) h
            simp only [advance, hkill]
          · simp only [advance, hkill] at h
            exact hgo _ _ (.skipping sid id rest n) h
  | attaching req =>
      simp only [advance] at h
      split at h
      · exact hover _ h
      · exact hover _ h

theorem begin_calls {d : ServerCall} {call : Nat} {c : ServerCall}
    (h : (s.begin d).calls.lookup call = some c) :
    s.calls.lookup call = some c ∨ call = s.callCount ∧ c = d :=
  (lookup_insert_iff.mp h).symm.imp And.right id

/-- A call after a step was there before it, or has come to where it is. -/
theorem step_calls (h : (serverSystem display).step s l = some s') {call : Nat}
    {c : ServerCall} (hc : s'.calls.lookup call = some c) :
    s.calls.lookup call = some c ∨ Next s s' call c := by
  cases l with
  | sessionOpen env req token =>
      obtain rfl : s.sessionOpen env req token = s' := Option.some.inj h
      rcases s.sessionOpen_cases env req token with hs | hs | ⟨session, hid, hevents, hs⟩
      · rw [hs] at hc
        exact Or.inl hc
      · rw [hs] at hc
        exact Or.inl hc
      · rw [hs] at hc ⊢
        rcases begin_calls hc with hold | ⟨rfl, rfl⟩
        · exact Or.inl hold
        · exact Or.inr (.opening session hid hevents rfl)
  | request r =>
      obtain rfl : s.request r = s' := Option.some.inj h
      rcases s.request_cases r with ⟨hgate, hs⟩ | ⟨-, hs⟩
      · rw [hs] at hc ⊢
        rcases begin_calls hc with hold | ⟨rfl, rfl⟩
        · exact Or.inl hold
        · exact Or.inr (.first r _ hgate rfl rfl)
      · rw [hs] at hc
        exact Or.inl hc
  | cancelForSession sid =>
      obtain rfl := Option.some.inj h
      rcases begin_calls hc with hold | ⟨rfl, rfl⟩
      · exact Or.inl hold
      · exact Or.inr (.killingAll sid rfl)
  | advance call' env now =>
      obtain ⟨d, hd, rfl⟩ := Option.map_eq_some_iff.mp h
      rcases advance_calls env now hd hc with hold | ⟨rfl, hgoes⟩
      · exact Or.inl hold
      · exact Or.inr (.goes call d c hd hgoes)
  | life id input now =>
      obtain ⟨life, job, -, -, hstep⟩ := step_life_eq_some h
      exact Or.inl (lifeStep_calls hstep ▸ hc)
  | stream i act =>
      obtain ⟨sid, a, job, -, -, hstep⟩ := step_stream_eq_some h
      obtain ⟨a', -, rfl⟩ := Option.map_eq_some_iff.mp hstep
      exact Or.inl hc

/-! ## Guards on the call that is advanced -/

/-- Where the step is a call's, the call is at a point that meets `P`. -/
def Advances (s : Server) (P : ServerCall → Prop) : ServerLabel → Prop
  | .advance call _ _ => ∀ c ∈ s.calls.lookup call, P c
  | _ => True

instance (s : Server) (P : ServerCall → Prop) [DecidablePred P] (l : ServerLabel) :
    Decidable (s.Advances P l) := by
  cases l <;> unfold Advances <;> infer_instance

variable {P : ServerCall → Prop} {call : Nat} {c : ServerCall} {env : Env} {now : SystemTime}

theorem advances_iff (hc : s.calls.lookup call = some c) :
    s.Advances P (.advance call env now) ↔ P c := by
  constructor
  · exact fun hall => hall c hc
  · intro hP c' hc'
    obtain rfl := Option.some.inj (hc.symm.trans hc')
    exact hP

/-- A guard that fails is that of a call. -/
theorem advances_of_forall
    (h : ∀ call env now c, l = .advance call env now → s.calls.lookup call = some c → P c) :
    s.Advances P l := by
  cases l with
  | advance call env now => exact fun c hc => h call env now c rfl hc
  | _ => trivial

theorem step_advance (hc : s.calls.lookup call = some c)
    (hs : (serverSystem display).step s (.advance call env now) = some s') :
    s' = s.advance call env now c := by
  obtain ⟨c', hc', rfl⟩ := Option.map_eq_some_iff.mp hs
  obtain rfl := Option.some.inj (hc.symm.trans hc')
  rfl

end Server

end Axp
