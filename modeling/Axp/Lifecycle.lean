import Axp.Authority
import Axp.Directory
import Axp.Lts

/-!
# Sessions and jobs, interleaved

The server with its requests in flight. A request is a `Call` that says where
it is between two of its steps; a step takes one lock, so any call can move
between any two steps of another. A started job has a `TaskPhase`: its task
ends it at some point with some status, and then does the rest of
`finish_job` one step at a time.

`signalled` and `late` are not part of the code. They record the jobs whose
cancellation signal has been sent, and the sessions for which something was
inserted or spawned after they had been closed.

Closing a session only takes it out of the store. What is left behind is
whatever was going on at that moment: jobs that run on with nobody left to
cancel them, and starts that have looked the session up already. So a close
leaves nothing behind when there is nothing to leave (`Settled`), and
`close_leaves_nothing` proves that for all runs whose closes come at such
moments.
-/

namespace Axp

open Lts Directory

/-! ## Calls in flight -/

/-- Where a request is. Everything before its first entry has been checked,
its authorisation included. -/
inductive Call where
  /-- A session id has been minted. -/
  | opening (session : Session)
  | closing (sid : SessionId)
  | starting (req : JobStartRequest)
  /-- The session has been looked up and its data copied. -/
  | preparing (req : JobStartRequest) (session : Session)
  | inserting (req : JobStartRequest) (launch : Launch)
  | registering (req : JobStartRequest) (launch : Launch) (id : JobId)
  | auditing (req : JobStartRequest) (launch : Launch) (id : JobId)
  | spawning (req : JobStartRequest) (launch : Launch) (id : JobId)
  | cancelling (sid : SessionId) (id : JobId)
  /-- The caller owns the job. -/
  | killing (id : JobId)

/-- The session a start goes on with, once it has looked it up. -/
def Call.startOf : Call → Option SessionId
  | .preparing req _ => some req.sessionId
  | .inserting req _ => some req.sessionId
  | .registering req _ _ => some req.sessionId
  | .auditing req _ _ => some req.sessionId
  | .spawning req _ _ => some req.sessionId
  | _ => none

/-- The session a close is about to take out. -/
def Call.closingOf : Call → Option SessionId
  | .closing sid => some sid
  | _ => none

/-- Where a job's task is: at work, or in `finish_job` after the terminal
write, or after the audit event. -/
inductive TaskPhase where
  | running (sid : SessionId)
  | finished (sid : SessionId) (status : TerminalStatus)
  | audited

structure Runtime where
  engine : JobEngine
  sessionCounter : Nat
  calls : HashMap Nat Call
  phases : HashMap JobId TaskPhase
  signalled : List JobId
  late : List SessionId

inductive RuntimeLabel where
  /-- `token` is what `CapToken::generate` returns. -/
  | sessionOpen (call : Nat) (env : Env) (req : SessionOpenRequest) (token : Option CapToken)
  | sessionClose (call : Nat) (sid : SessionId) (token : String)
  | jobStart (call : Nat) (req : JobStartRequest)
  | jobCancel (call : Nat) (sid : SessionId) (token : String) (id : JobId)
  | advance (call : Nat) (env : Env) (now : SystemTime)
  | finish (id : JobId) (status : TerminalStatus) (now : SystemTime)
  | audit (id : JobId) (now : SystemTime)
  | retire (id : JobId)

/-- `next_session_id`; the counter is taken not to have wrapped. -/
def mintedId (n : Nat) : SessionId := ⟨"s_" ++ toString n⟩

namespace Runtime

/-- `session_open` up to the new id. -/
def sessionOpen (s : Runtime) (call : Nat) (env : Env) (req : SessionOpenRequest)
    (token : Option CapToken) : Runtime :=
  match Workspace.new env.canonicalize (.ofString req.workspace),
      CapabilitySet.fromWire req.capabilities with
  | .ok workspace, .ok capabilities =>
      let s' := { s with sessionCounter := s.sessionCounter + 1 }
      match token with
      | some token =>
          let session : Session :=
            { id := mintedId s.sessionCounter
              workspace := workspace
              tier := req.sandboxTier
              capabilities := capabilities
              capToken := token
              auditEvents := [] }
          { s' with calls := s.calls.insert call (.opening session) }
      | none => s'
  | _, _ => s

/-- A request that needs a token gets past the gate, or is answered. -/
def authorized (s : Runtime) (call : Nat) (sid : SessionId) (token : String) (next : Call) :
    Runtime :=
  if s.engine.sessions.authorize sid token then
    { s with calls := s.calls.insert call next }
  else s

/-- Something is started for the session: late, if it has been closed. -/
def noteStart (s : Runtime) (sid : SessionId) : List SessionId :=
  if s.engine.sessions.retired.any (·.id = sid) then s.late ++ [sid] else s.late

/-- The next step of a call, which is over where it leaves `calls`. -/
def advance (s : Runtime) (call : Nat) (env : Env) (now : SystemTime) : Call → Runtime
  | .opening session =>
      { s with
        engine := { s.engine with sessions := s.engine.sessions.openSession session now }
        calls := s.calls.erase call }
  | .closing sid =>
      { s with
        engine := { s.engine with sessions := (s.engine.sessions.close sid now).2 }
        calls := s.calls.erase call }
  | .starting req =>
      match s.engine.sessions.get req.sessionId with
      | some session => { s with calls := s.calls.insert call (.preparing req session) }
      | none => { s with calls := s.calls.erase call }
  | .preparing req session =>
      match prepare env s.engine.registry s.engine.logByteCap session req with
      | .ok launch =>
          { s with
            calls := s.calls.insert call (.inserting req launch)
            late :=
              match launch.work with
              | .child .. => s.noteStart req.sessionId
              | .component .. => s.late }
      | .error _ => { s with calls := s.calls.erase call }
  | .inserting req launch =>
      let (id, engine) := s.engine.insertRunningJob req launch.cwd now
      { s with
        engine := engine
        calls := s.calls.insert call (.registering req launch id)
        late := s.noteStart req.sessionId }
  | .registering req launch id =>
      { s with
        engine := s.engine.registerCancel id launch.work.cancelEntry
        calls := s.calls.insert call (.auditing req launch id) }
  | .auditing req launch id =>
      { s with
        engine := s.engine.recordSessionAudit req.sessionId (.jobStarted id) now
        calls := s.calls.insert call (.spawning req launch id) }
  | .spawning req launch id =>
      { s with
        engine := s.engine.spawnTask ⟨id, req.sessionId, launch.work⟩
        calls := s.calls.erase call
        phases := s.phases.insert id (.running req.sessionId)
        late := s.noteStart req.sessionId }
  | .cancelling sid id =>
      match s.engine.lookupOwned sid id with
      | .ok _ => { s with calls := s.calls.insert call (.killing id) }
      | .error _ => { s with calls := s.calls.erase call }
  | .killing id =>
      { s with
        engine := (s.engine.killJob id).2
        calls := s.calls.erase call
        signalled :=
          match (s.engine.killJob id).1 with
          | .ok () => s.signalled ++ [id]
          | .error _ => s.signalled }

/-- The terminal write of `finish_job`. -/
def finish (s : Runtime) (id : JobId) (sid : SessionId) (status : TerminalStatus)
    (now : SystemTime) : Runtime :=
  { s with
    engine := { s.engine with jobs := s.engine.jobs.modify id (·.finish status.val now) }
    phases := s.phases.insert id (.finished sid status) }

/-- The audit event of `finish_job`. -/
def audit (s : Runtime) (id : JobId) (sid : SessionId) (status : TerminalStatus)
    (now : SystemTime) : Runtime :=
  { s with
    engine := s.engine.recordSessionAudit sid (.jobFinished id status.val) now
    phases := s.phases.insert id .audited }

/-- The last step of `finish_job`. -/
def retire (s : Runtime) (id : JobId) : Runtime :=
  { s with
    engine := { s.engine with cancels := s.engine.cancels.erase id }
    phases := s.phases.erase id }

end Runtime

/-- The server with any number of clients. -/
def runtimeSystem : System Runtime RuntimeLabel where
  init s := s.engine.sessions = .new ∧ s.engine.jobs = .new ∧ s.engine.nextId = 1
    ∧ s.engine.cancels = ∅ ∧ s.engine.tasks = [] ∧ s.sessionCounter = 1 ∧ s.calls = ∅
    ∧ s.phases = ∅ ∧ s.signalled = [] ∧ s.late = []
  step s
    | .sessionOpen call env req token =>
        if call ∉ s.calls then some (s.sessionOpen call env req token) else none
    | .sessionClose call sid token =>
        if call ∉ s.calls then some (s.authorized call sid token (.closing sid)) else none
    | .jobStart call req =>
        if call ∉ s.calls then
          some (s.authorized call req.sessionId req.capToken (.starting req))
        else none
    | .jobCancel call sid token id =>
        if call ∉ s.calls then some (s.authorized call sid token (.cancelling sid id)) else none
    | .advance call env now => (s.calls.lookup call).map (s.advance call env now)
    | .finish id status now =>
        match s.phases.lookup id with
        | some (.running sid) => some (s.finish id sid status now)
        | _ => none
    | .audit id now =>
        match s.phases.lookup id with
        | some (.finished sid status) => some (s.audit id sid status now)
        | _ => none
    | .retire id =>
        match s.phases.lookup id with
        | some .audited => some (s.retire id)
        | _ => none

/-! ## What a close leaves behind -/

/-- A job that has ended, or has been told to. -/
def Runtime.Stopped (s : Runtime) (id : JobId) (job : Job) : Prop :=
  job.status.isTerminal = true ∨ id ∈ s.signalled

/-- Every job of a closed session has ended or has been told to, and nothing
has been inserted or spawned for one since. -/
structure NothingLeft (s : Runtime) : Prop where
  stopped : ∀ session ∈ s.engine.sessions.retired, ∀ id job,
    s.engine.jobs.get id = some job → job.sessionId = session.id → s.Stopped id job
  quiet : ∀ session ∈ s.engine.sessions.retired, session.id ∉ s.late

/-- Nothing of the session is going on: its jobs have all been stopped, and no
start is past looking it up. -/
def Runtime.Idle (s : Runtime) (sid : SessionId) : Prop :=
  (∀ x ∈ s.engine.jobs.jobs.entries, x.2.sessionId = sid → s.Stopped x.1 x.2)
    ∧ ∀ x ∈ s.calls.entries, x.2.startOf ≠ some sid

/-- A close takes its session out of the store when nothing of it is going
on. -/
def Settled (s : Runtime) : RuntimeLabel → Prop
  | .advance call _ _ => ∀ sid ∈ (s.calls.lookup call).bind Call.closingOf,
      (s.engine.sessions.get sid).isSome = true → s.Idle sid
  | _ => True

instance (s : Runtime) (id : JobId) (job : Job) : Decidable (s.Stopped id job) :=
  inferInstanceAs (Decidable (_ ∨ _))

instance (s : Runtime) (sid : SessionId) : Decidable (s.Idle sid) :=
  inferInstanceAs (Decidable (_ ∧ _))

instance (s : Runtime) (l : RuntimeLabel) : Decidable (Settled s l) := by
  cases l <;> unfold Settled <;> infer_instance

/-! ## The stores under each step -/

theorem mintedId_injective {m n : Nat} (h : mintedId m = mintedId n) : m = n := by
  have hlist := congrArg String.toList (SessionId.mk.inj h)
  rw [String.toList_append, String.toList_append] at hlist
  exact toString_injective (String.toList_injective (List.append_cancel_left hlist))

namespace SessionStore

variable {store : SessionStore} {sid sid' : SessionId} {session session' : Session}
  {now : SystemTime} {kind : AuditEventKind}

/-- An audit event changes no session's id. -/
theorem get_record (h : (store.record sid' kind now).get sid = some session') :
    ∃ session, store.get sid = some session ∧ session'.id = session.id := by
  unfold record at h
  split at h
  · next session hold =>
      rcases lookup_insert_iff.mp h with ⟨rfl, rfl⟩ | ⟨-, hsame⟩
      · exact ⟨session, hold, rfl⟩
      · exact ⟨session', hsame, rfl⟩
  · exact ⟨session', h, rfl⟩

@[simp] theorem record_retired : (store.record sid' kind now).retired = store.retired := by
  unfold record
  split <;> rfl

theorem get_openSession (h : (store.openSession session now).get sid = some session') :
    (sid = session.id ∧ session'.id = session.id)
      ∨ (sid ≠ session.id ∧ store.get sid = some session') :=
  (lookup_insert_iff.mp h).imp (fun ⟨hsid, hnew⟩ => ⟨hsid, by rw [hnew]; rfl⟩) id

/-- A close of a session that is not there changes nothing; otherwise the
session is moved to the retired ones. -/
theorem close_cases (store : SessionStore) (sid : SessionId) (now : SystemTime) :
    (store.get sid = none ∧ (store.close sid now).2 = store)
      ∨ ∃ session, store.get sid = some session ∧ (store.close sid now).2
          = ⟨store.live.erase sid, store.retired ++ [session.recordAudit .sessionClosed now]⟩ := by
  unfold close
  cases h : store.get sid with
  | none => exact Or.inl ⟨rfl, rfl⟩
  | some session => exact Or.inr ⟨session, rfl, rfl⟩

end SessionStore

namespace JobStore

variable {store : JobStore} {job new : Job} {id : JobId}

theorem get_insert (h : (store.insert new).get id = some job) :
    job = new ∨ store.get id = some job :=
  (lookup_insert_iff.mp h).imp And.right And.right

theorem get_modify {f : Job → Job} {target : JobId}
    (h : (store.modify target f).get id = some job) :
    (id = target ∧ ∃ old, store.get id = some old ∧ job = f old) ∨ store.get id = some job := by
  unfold modify at h
  split at h
  · next old hold =>
      rcases lookup_insert_iff.mp h with ⟨rfl, rfl⟩ | ⟨-, hsame⟩
      · exact Or.inl ⟨rfl, old, hold, rfl⟩
      · exact Or.inr hsame
  · exact Or.inr h

end JobStore

/-! ## The invariant -/

def Call.isOpening : Call → Bool
  | .opening _ => true
  | _ => false

/-- The id has been minted. -/
def Runtime.Minted (s : Runtime) (sid : SessionId) : Prop :=
  ∃ k, k < s.sessionCounter ∧ sid = mintedId k

/-- Ids are never shared between live, retired and opening sessions; no start
goes on for a retired one, and its jobs have been stopped. -/
structure RuntimeInv (s : Runtime) : Prop where
  live : ∀ sid session, s.engine.sessions.get sid = some session →
    session.id = sid ∧ s.Minted sid
  retired : ∀ session ∈ s.engine.sessions.retired,
    s.Minted session.id ∧ s.engine.sessions.get session.id = none
  opening : ∀ call session, s.calls.lookup call = some (.opening session) →
    s.Minted session.id ∧ s.engine.sessions.get session.id = none
      ∧ ∀ old ∈ s.engine.sessions.retired, old.id ≠ session.id
  apart : ∀ call call' session session', s.calls.lookup call = some (.opening session) →
    s.calls.lookup call' = some (.opening session') → session.id = session'.id → call = call'
  idle : ∀ call c, s.calls.lookup call = some c →
    ∀ session ∈ s.engine.sessions.retired, c.startOf ≠ some session.id
  stopped : ∀ session ∈ s.engine.sessions.retired, ∀ id job,
    s.engine.jobs.get id = some job → job.sessionId = session.id → s.Stopped id job
  late : s.late = []

namespace RuntimeInv

variable {s s' : Runtime}

theorem init (h : runtimeSystem.init s) : RuntimeInv s := by
  obtain ⟨hsessions, hjobs, -, -, -, -, hcalls, -, -, hlate⟩ := h
  refine ⟨?_, ?_, ?_, ?_, ?_, ?_, hlate⟩
  · intro sid session hget
    rw [hsessions] at hget
    cases hget
  · intro session hmem
    rw [hsessions] at hmem
    cases hmem
  · intro call session hcall
    rw [hcalls] at hcall
    cases hcall
  · intro call call' session session' hcall
    rw [hcalls] at hcall
    cases hcall
  · intro call c hcall
    rw [hcalls] at hcall
    cases hcall
  · intro session hmem
    rw [hsessions] at hmem
    cases hmem

/-- The steps that open no session and close none. -/
theorem frame (h : RuntimeInv s) (hcounter : s'.sessionCounter = s.sessionCounter)
    (hget : ∀ sid session', s'.engine.sessions.get sid = some session' →
      ∃ session, s.engine.sessions.get sid = some session ∧ session'.id = session.id)
    (hretired : s'.engine.sessions.retired = s.engine.sessions.retired)
    (hcalls : ∀ call c, s'.calls.lookup call = some c → s.calls.lookup call = some c
      ∨ (c.isOpening = false
        ∧ ∀ session ∈ s.engine.sessions.retired, c.startOf ≠ some session.id))
    (hstopped : ∀ session ∈ s.engine.sessions.retired, ∀ id job,
      s'.engine.jobs.get id = some job → job.sessionId = session.id → s'.Stopped id job)
    (hlate : s'.late = []) : RuntimeInv s' := by
  have hminted : ∀ sid, s'.Minted sid ↔ s.Minted sid := fun sid => by
    rw [Runtime.Minted, Runtime.Minted, hcounter]
  have hnone : ∀ sid, s.engine.sessions.get sid = none → s'.engine.sessions.get sid = none := by
    intro sid hold
    cases hnew : s'.engine.sessions.get sid with
    | none => rfl
    | some session' =>
        obtain ⟨session, hsome, -⟩ := hget sid session' hnew
        rw [hold] at hsome
        cases hsome
  have hopening : ∀ call session, s'.calls.lookup call = some (.opening session) →
      s.calls.lookup call = some (.opening session) := by
    intro call session hcall
    rcases hcalls call _ hcall with hold | ⟨hopen, -⟩
    · exact hold
    · cases hopen
  refine ⟨?_, ?_, ?_, ?_, ?_, ?_, hlate⟩
  · intro sid session' hnew
    obtain ⟨session, hold, hid⟩ := hget sid session' hnew
    obtain ⟨hkey, hmint⟩ := h.live sid session hold
    exact ⟨hid.trans hkey, (hminted sid).mpr hmint⟩
  · rw [hretired]
    intro session hmem
    obtain ⟨hmint, hgone⟩ := h.retired session hmem
    exact ⟨(hminted _).mpr hmint, hnone _ hgone⟩
  · rw [hretired]
    intro call session hcall
    obtain ⟨hmint, hgone, hold⟩ := h.opening call session (hopening call session hcall)
    exact ⟨(hminted _).mpr hmint, hnone _ hgone, hold⟩
  · intro call call' session session' hcall hcall'
    exact h.apart call call' session session' (hopening _ _ hcall) (hopening _ _ hcall')
  · rw [hretired]
    intro call c hcall
    rcases hcalls call c hcall with hold | ⟨-, hidle⟩
    · exact h.idle call c hold
    · exact hidle
  · rw [hretired]
    exact hstopped

/-! ### Minting and opening -/

theorem not_minted (s : Runtime) : ¬s.Minted (mintedId s.sessionCounter) := by
  rintro ⟨k, hk, hid⟩
  rw [mintedId_injective hid] at hk
  exact lt_irrefl _ hk

theorem mint (h : RuntimeInv s) :
    RuntimeInv { s with sessionCounter := s.sessionCounter + 1 } := by
  have hminted : ∀ {sid}, s.Minted sid →
      ({ s with sessionCounter := s.sessionCounter + 1 } : Runtime).Minted sid :=
    fun ⟨k, hk, hid⟩ => ⟨k, Nat.lt_succ_of_lt hk, hid⟩
  exact ⟨fun sid session hget => (h.live sid session hget).imp_right hminted,
    fun session hmem => (h.retired session hmem).imp_left hminted,
    fun call session hcall => (h.opening call session hcall).imp_left hminted,
    h.apart, h.idle, h.stopped, h.late⟩

theorem addOpening (h : RuntimeInv s) (call : Nat) {session : Session}
    (hid : session.id = mintedId s.sessionCounter) :
    RuntimeInv { s with
      sessionCounter := s.sessionCounter + 1
      calls := s.calls.insert call (.opening session) } := by
  have hm := h.mint
  have hnew : ¬s.Minted session.id := hid ▸ not_minted s
  refine ⟨hm.live, hm.retired, ?_, ?_, ?_, h.stopped, h.late⟩
  · intro call' session' hcall
    rcases lookup_insert_iff.mp hcall with ⟨-, heq⟩ | ⟨-, hold⟩
    · obtain rfl := Call.opening.inj heq
      refine ⟨⟨s.sessionCounter, Nat.lt_succ_self _, hid⟩, ?_, fun old hold hsame => ?_⟩
      · cases hget : s.engine.sessions.get session'.id with
        | none => rfl
        | some live => exact absurd (h.live _ live hget).2 hnew
      · exact hnew (hsame ▸ (h.retired old hold).1)
    · exact hm.opening call' session' hold
  · intro c c' old old' hc hc' hsame
    rcases lookup_insert_iff.mp hc with ⟨rfl, heq⟩ | ⟨-, hold⟩ <;>
      rcases lookup_insert_iff.mp hc' with ⟨rfl, heq'⟩ | ⟨-, hold'⟩
    · rfl
    · obtain rfl := Call.opening.inj heq
      exact absurd (hsame ▸ (h.opening c' old' hold').1) hnew
    · obtain rfl := Call.opening.inj heq'
      exact absurd (hsame ▸ (h.opening c old hold).1) hnew
    · exact h.apart c c' old old' hold hold' hsame
  · intro c entry hc
    rcases lookup_insert_iff.mp hc with ⟨-, rfl⟩ | ⟨-, hold⟩
    · exact fun _ _ hstart => by cases hstart
    · exact h.idle c entry hold

theorem sessionOpen (h : RuntimeInv s) (call : Nat) (env : Env) (req : SessionOpenRequest)
    (token : Option CapToken) : RuntimeInv (s.sessionOpen call env req token) := by
  unfold Runtime.sessionOpen
  split
  · cases token with
    | none => exact h.mint
    | some token => exact h.addOpening call rfl
  · exact h

theorem advance_opening (h : RuntimeInv s) {call : Nat} {session : Session}
    (hcall : s.calls.lookup call = some (.opening session)) (env : Env) (now : SystemTime) :
    RuntimeInv (s.advance call env now (.opening session)) := by
  obtain ⟨hmint, hgone, hfresh⟩ := h.opening call session hcall
  refine ⟨?_, ?_, ?_, ?_, ?_, h.stopped, h.late⟩
  · intro sid live hget
    rcases SessionStore.get_openSession hget with ⟨rfl, hid⟩ | ⟨-, hold⟩
    · exact ⟨hid, hmint⟩
    · exact h.live sid live hold
  · intro old hmem
    obtain ⟨hm, hnone⟩ := h.retired old hmem
    refine ⟨hm, ?_⟩
    cases hget : (s.engine.sessions.openSession session now).get old.id with
    | none => exact hget
    | some live =>
        rcases SessionStore.get_openSession hget with ⟨hsame, -⟩ | ⟨-, hsome⟩
        · exact absurd hsame (hfresh old hmem)
        · rw [hnone] at hsome
          cases hsome
  · intro call' other hother
    obtain ⟨hne, hold⟩ := lookup_erase_iff.mp hother
    obtain ⟨hm, hnone, hret⟩ := h.opening call' other hold
    refine ⟨hm, ?_, hret⟩
    cases hget : (s.engine.sessions.openSession session now).get other.id with
    | none => exact hget
    | some live =>
        rcases SessionStore.get_openSession hget with ⟨hsame, -⟩ | ⟨-, hsome⟩
        · exact absurd (h.apart call' call other session hold hcall hsame) hne
        · rw [hnone] at hsome
          cases hsome
  · intro c c' old old' hc hc'
    exact h.apart c c' old old' (lookup_erase_iff.mp hc).2 (lookup_erase_iff.mp hc').2
  · intro c entry hc
    exact h.idle c entry (lookup_erase_iff.mp hc).2

/-! ### Closing -/

theorem advance_closing (h : RuntimeInv s) (call : Nat) {sid : SessionId} (env : Env)
    (now : SystemTime) (hsettled : (s.engine.sessions.get sid).isSome = true → s.Idle sid) :
    RuntimeInv (s.advance call env now (.closing sid)) := by
  rcases s.engine.sessions.close_cases sid now with ⟨-, hclose⟩ | ⟨session, hget, hclose⟩
  · refine h.frame rfl ?_ ?_ ?_ ?_ h.late
    · intro sid' session hget
      rw [Runtime.advance, hclose] at hget
      exact ⟨session, hget, rfl⟩
    · rw [Runtime.advance, hclose]
    · exact fun c entry hc => Or.inl (lookup_erase_iff.mp hc).2
    · exact h.stopped
  · obtain ⟨hid, hmint⟩ := h.live sid session hget
    obtain ⟨hjobs, hcalls⟩ := hsettled (by rw [hget]; rfl)
    have hadvance : s.advance call env now (.closing sid) = { s with
        engine := { s.engine with
          sessions := ⟨s.engine.sessions.live.erase sid,
            s.engine.sessions.retired ++ [session.recordAudit .sessionClosed now]⟩ }
        calls := s.calls.erase call } := by
      rw [Runtime.advance, hclose]
    rw [hadvance]
    have hmem : ∀ {old : Session},
        old ∈ s.engine.sessions.retired ++ [session.recordAudit .sessionClosed now] →
          old ∈ s.engine.sessions.retired ∨ old.id = sid := by
      intro old hold
      rw [List.mem_append, List.mem_singleton] at hold
      exact hold.imp_right fun hnew => by rw [hnew]; exact hid
    refine ⟨?_, ?_, ?_, ?_, ?_, ?_, h.late⟩
    · intro sid' live hlive
      exact h.live sid' live (lookup_erase_iff.mp hlive).2
    · intro old hold
      rcases hmem hold with hold | hsame
      · obtain ⟨hm, hnone⟩ := h.retired old hold
        exact ⟨hm, lookup_erase_none hnone⟩
      · rw [hsame]
        exact ⟨hmint, AList.lookup_erase _ _⟩
    · intro call' other hother
      obtain ⟨hm, hnone, hret⟩ := h.opening call' other (lookup_erase_iff.mp hother).2
      refine ⟨hm, lookup_erase_none hnone, fun old hold hsame => ?_⟩
      rcases hmem hold with hold | hid'
      · exact hret old hold hsame
      · rw [← hsame, hid', hget] at hnone
        cases hnone
    · intro c c' old old' hc hc'
      exact h.apart c c' old old' (lookup_erase_iff.mp hc).2 (lookup_erase_iff.mp hc').2
    · intro c entry hc old hold
      rcases hmem hold with hold | hsame
      · exact h.idle c entry (lookup_erase_iff.mp hc).2 old hold
      · rw [hsame]
        exact hcalls ⟨c, entry⟩ (AList.mem_lookup_iff.mp (lookup_erase_iff.mp hc).2)
    · intro old hold id job hjob hsid
      rcases hmem hold with hold | hsame
      · exact h.stopped old hold id job hjob hsid
      · exact hjobs ⟨id, job⟩ (AList.mem_lookup_iff.mp hjob) (hsid.trans hsame)

/-! ### The other steps -/

/-- A call that goes on as one for which nothing is started, or for a session
that has not been closed. -/
theorem calls_insert (call : Nat) {next : Call} (hopen : next.isOpening = false)
    (hidle : ∀ session ∈ s.engine.sessions.retired, next.startOf ≠ some session.id) :
    ∀ c entry, (s.calls.insert call next).lookup c = some entry →
      s.calls.lookup c = some entry ∨ (entry.isOpening = false
        ∧ ∀ session ∈ s.engine.sessions.retired, entry.startOf ≠ some session.id) := by
  intro c entry hc
  rcases lookup_insert_iff.mp hc with ⟨-, rfl⟩ | ⟨-, hold⟩
  · exact Or.inr ⟨hopen, hidle⟩
  · exact Or.inl hold

theorem calls_erase (call : Nat) : ∀ c entry, (s.calls.erase call).lookup c = some entry →
    s.calls.lookup c = some entry ∨ (entry.isOpening = false
      ∧ ∀ session ∈ s.engine.sessions.retired, entry.startOf ≠ some session.id) :=
  fun _ _ hc => Or.inl (lookup_erase_iff.mp hc).2

theorem get_same : ∀ sid session', s.engine.sessions.get sid = some session' →
    ∃ session, s.engine.sessions.get sid = some session ∧ session'.id = session.id :=
  fun _ session' hget => ⟨session', hget, rfl⟩

/-- What is started for a session that has not been closed is not late. -/
theorem noteStart (h : RuntimeInv s) {sid : SessionId}
    (hidle : ∀ session ∈ s.engine.sessions.retired, some sid ≠ some session.id) :
    s.noteStart sid = [] := by
  unfold Runtime.noteStart
  rw [if_neg, h.late]
  rw [List.any_eq_true]
  rintro ⟨session, hmem, hid⟩
  exact hidle session hmem (by rw [of_decide_eq_true hid])

theorem authorized (h : RuntimeInv s) (call : Nat) (sid : SessionId) (token : String)
    {next : Call} (hopen : next.isOpening = false) (hstart : next.startOf = none) :
    RuntimeInv (s.authorized call sid token next) := by
  unfold Runtime.authorized
  split
  · refine h.frame rfl get_same rfl (calls_insert call hopen fun _ _ => ?_) h.stopped h.late
    rw [hstart]
    exact fun heq => by cases heq
  · exact h

theorem advance_starting (h : RuntimeInv s) (call : Nat) (req : JobStartRequest) (env : Env)
    (now : SystemTime) : RuntimeInv (s.advance call env now (.starting req)) := by
  simp only [Runtime.advance]
  cases hget : s.engine.sessions.get req.sessionId with
  | none => exact h.frame rfl get_same rfl (calls_erase call) h.stopped h.late
  | some session =>
      refine h.frame rfl get_same rfl (calls_insert call rfl fun old hold heq => ?_) h.stopped
        h.late
      -- A session that has been closed is not found.
      have hnone := (h.retired old hold).2
      rw [← Option.some.inj heq, hget] at hnone
      cases hnone

theorem advance_preparing (h : RuntimeInv s) {call : Nat} {req : JobStartRequest}
    {session : Session} (hcall : s.calls.lookup call = some (.preparing req session)) (env : Env)
    (now : SystemTime) : RuntimeInv (s.advance call env now (.preparing req session)) := by
  have hidle := h.idle call _ hcall
  simp only [Runtime.advance]
  cases prepare env s.engine.registry s.engine.logByteCap session req with
  | error e => exact h.frame rfl get_same rfl (calls_erase call) h.stopped h.late
  | ok launch =>
      refine h.frame rfl get_same rfl (calls_insert call rfl hidle) h.stopped ?_
      show (match launch.work with
        | .child .. => s.noteStart req.sessionId
        | .component .. => s.late) = []
      cases launch.work with
      | child cmd policy => exact h.noteStart hidle
      | component bytes context => exact h.late

theorem advance_inserting (h : RuntimeInv s) {call : Nat} {req : JobStartRequest}
    {launch : Launch} (hcall : s.calls.lookup call = some (.inserting req launch)) (env : Env)
    (now : SystemTime) : RuntimeInv (s.advance call env now (.inserting req launch)) := by
  have hidle := h.idle call _ hcall
  refine h.frame rfl get_same rfl (calls_insert call rfl hidle) ?_ (h.noteStart hidle)
  intro old hold id job hjob hsid
  rcases JobStore.get_insert hjob with rfl | hsame
  · exact absurd (congrArg some hsid) (hidle old hold)
  · exact h.stopped old hold id job hsame hsid

theorem advance_registering (h : RuntimeInv s) {call : Nat} {req : JobStartRequest}
    {launch : Launch} {id : JobId}
    (hcall : s.calls.lookup call = some (.registering req launch id)) (env : Env)
    (now : SystemTime) : RuntimeInv (s.advance call env now (.registering req launch id)) := by
  have hidle := h.idle call _ hcall
  exact h.frame rfl get_same rfl (calls_insert call rfl hidle) h.stopped h.late

theorem advance_auditing (h : RuntimeInv s) {call : Nat} {req : JobStartRequest}
    {launch : Launch} {id : JobId}
    (hcall : s.calls.lookup call = some (.auditing req launch id)) (env : Env)
    (now : SystemTime) : RuntimeInv (s.advance call env now (.auditing req launch id)) := by
  have hidle := h.idle call _ hcall
  exact h.frame rfl (fun _ _ => SessionStore.get_record) SessionStore.record_retired
    (calls_insert call rfl hidle) h.stopped h.late

theorem advance_spawning (h : RuntimeInv s) {call : Nat} {req : JobStartRequest}
    {launch : Launch} {id : JobId}
    (hcall : s.calls.lookup call = some (.spawning req launch id)) (env : Env)
    (now : SystemTime) : RuntimeInv (s.advance call env now (.spawning req launch id)) :=
  h.frame rfl get_same rfl (calls_erase call) h.stopped (h.noteStart (h.idle call _ hcall))

theorem advance_cancelling (h : RuntimeInv s) (call : Nat) (sid : SessionId) (id : JobId)
    (env : Env) (now : SystemTime) :
    RuntimeInv (s.advance call env now (.cancelling sid id)) := by
  simp only [Runtime.advance]
  cases s.engine.lookupOwned sid id with
  | ok job =>
      exact h.frame rfl get_same rfl (calls_insert call rfl fun _ _ heq => by cases heq)
        h.stopped h.late
  | error e => exact h.frame rfl get_same rfl (calls_erase call) h.stopped h.late

theorem advance_killing (h : RuntimeInv s) (call : Nat) (id : JobId) (env : Env)
    (now : SystemTime) : RuntimeInv (s.advance call env now (.killing id)) := by
  simp only [Runtime.advance, JobEngine.killJob]
  cases s.engine.cancels.lookup id with
  | none => exact h.frame rfl get_same rfl (calls_erase call) h.stopped h.late
  | some entry =>
      refine h.frame rfl get_same rfl (calls_erase call) ?_ h.late
      intro old hold id' job hjob hsid
      exact (h.stopped old hold id' job hjob hsid).imp_right (List.mem_append_left _)

theorem finish (h : RuntimeInv s) (id : JobId) (sid : SessionId) (status : TerminalStatus)
    (now : SystemTime) : RuntimeInv (s.finish id sid status now) := by
  refine h.frame rfl get_same rfl (fun _ _ => Or.inl) ?_ h.late
  intro old hold id' job hjob hsid
  rcases JobStore.get_modify hjob with ⟨-, job', -, rfl⟩ | hsame
  · exact Or.inl status.property
  · exact h.stopped old hold id' job hsame hsid

theorem audit (h : RuntimeInv s) (id : JobId) (sid : SessionId) (status : TerminalStatus)
    (now : SystemTime) : RuntimeInv (s.audit id sid status now) :=
  h.frame rfl (fun _ _ => SessionStore.get_record) SessionStore.record_retired
    (fun _ _ => Or.inl) h.stopped h.late

theorem retire (h : RuntimeInv s) (id : JobId) : RuntimeInv (s.retire id) :=
  h.frame rfl get_same rfl (fun _ _ => Or.inl) h.stopped h.late

/-- Every step whose close, if it is one, is settled. -/
theorem step {l : RuntimeLabel} (h : RuntimeInv s) (hsettled : Settled s l)
    (hs : runtimeSystem.step s l = some s') : RuntimeInv s' := by
  cases l with
  | sessionOpen call env req token =>
      obtain ⟨-, rfl⟩ := guard_eq_some.mp hs
      exact h.sessionOpen call env req token
  | sessionClose call sid token =>
      obtain ⟨-, rfl⟩ := guard_eq_some.mp hs
      exact h.authorized call sid token rfl rfl
  | jobStart call req =>
      obtain ⟨-, rfl⟩ := guard_eq_some.mp hs
      exact h.authorized call _ _ rfl rfl
  | jobCancel call sid token id =>
      obtain ⟨-, rfl⟩ := guard_eq_some.mp hs
      exact h.authorized call sid token rfl rfl
  | advance call env now =>
      obtain ⟨c, hcall, rfl⟩ := Option.map_eq_some_iff.mp hs
      cases c with
      | opening session => exact h.advance_opening hcall env now
      | closing sid =>
          refine h.advance_closing call env now (hsettled sid ?_)
          rw [hcall]
          rfl
      | starting req => exact h.advance_starting call req env now
      | preparing req session => exact h.advance_preparing hcall env now
      | inserting req launch => exact h.advance_inserting hcall env now
      | registering req launch id => exact h.advance_registering hcall env now
      | auditing req launch id => exact h.advance_auditing hcall env now
      | spawning req launch id => exact h.advance_spawning hcall env now
      | cancelling sid id => exact h.advance_cancelling call sid id env now
      | killing id => exact h.advance_killing call id env now
  | finish id status now =>
      simp only [runtimeSystem] at hs
      split at hs
      · obtain rfl := Option.some.inj hs
        exact h.finish id _ status now
      · cases hs
  | audit id now =>
      simp only [runtimeSystem] at hs
      split at hs
      · obtain rfl := Option.some.inj hs
        exact h.audit id _ _ now
      · cases hs
  | retire id =>
      simp only [runtimeSystem] at hs
      split at hs
      · obtain rfl := Option.some.inj hs
        exact h.retire id
      · cases hs

theorem reach (h : ReachVia runtimeSystem Settled s) : RuntimeInv s :=
  h.invariant (fun _ => init) fun _ _ _ hs hsettled => hs.step hsettled

end RuntimeInv

/-- In every run whose closes are settled, a closed session has left nothing
behind: each of its jobs has ended or has been told to, and nothing has been
inserted or spawned for it since. -/
theorem close_leaves_nothing {s : Runtime} (h : ReachVia runtimeSystem Settled s) :
    NothingLeft s := by
  have hinv := RuntimeInv.reach h
  refine ⟨hinv.stopped, fun session _ => ?_⟩
  rw [hinv.late]
  exact List.not_mem_nil

/-- A server with no provider. -/
def Runtime.launched : Runtime where
  engine := ⟨.new, .new, 1, ∅, 64, .new, []⟩
  sessionCounter := 1
  calls := ∅
  phases := ∅
  signalled := []
  late := []

theorem Runtime.launched_init : runtimeSystem.init .launched :=
  ⟨rfl, rfl, rfl, rfl, rfl, rfl, rfl, rfl, rfl, rfl⟩

/-- The session `s_1` is opened and starts a command, the job `j_1`. -/
def commandRuns : List RuntimeLabel :=
  let next : RuntimeLabel := .advance 0 plainHost .unixEpoch
  [.sessionOpen 0 plainHost ⟨"/proj", .devNone, [⟨"proc.spawn"⟩]⟩ (some ⟨"ct_1"⟩), next,
    .jobStart 0 (request (.command "sleep 30") []), next, next, next, next, next, next]

/-- A job that is cancelled before its session is closed. -/
theorem close_leaves_nothing_cancelled :
    ∃ s, ReachVia runtimeSystem Settled s ∧ (s.engine.sessions.retired.map (·.id)) = [⟨"s_1"⟩]
      ∧ (s.engine.jobs.get ⟨"j_1"⟩).map (·.status) = some .running
      ∧ ⟨"j_1"⟩ ∈ s.signalled := by
  obtain ⟨s, hs, hp⟩ := ReachVia.of_run (G := Settled) Runtime.launched_init
    (commandRuns ++ [.jobCancel 0 ⟨"s_1"⟩ "ct_1" ⟨"j_1"⟩, .advance 0 plainHost .unixEpoch,
      .advance 0 plainHost .unixEpoch, .sessionClose 0 ⟨"s_1"⟩ "ct_1",
      .advance 0 plainHost .unixEpoch])
    (fun s => (s.engine.sessions.retired.map (·.id)) = [⟨"s_1"⟩]
      && (s.engine.jobs.get ⟨"j_1"⟩).map (fun job => (job.sessionId, job.status))
        = some (⟨"s_1"⟩, .running))
    (by decide +kernel)
  simp only [Bool.and_eq_true, decide_eq_true_eq] at hp
  obtain ⟨hretired, hjob⟩ := hp
  obtain ⟨session, hmem, hid⟩ : ∃ session ∈ s.engine.sessions.retired, session.id = ⟨"s_1"⟩ := by
    rw [← List.mem_map, hretired]
    exact List.mem_singleton_self _
  obtain ⟨job, hget, hfields⟩ := Option.map_eq_some_iff.mp hjob
  obtain ⟨hsid, hstatus⟩ := Prod.mk.inj hfields
  have hstopped := (close_leaves_nothing hs).stopped session hmem _ job hget (hsid.trans hid.symm)
  refine ⟨s, hs, hretired, by rw [hget, ← hstatus]; rfl, ?_⟩
  rcases hstopped with hterminal | hsignalled
  · rw [hstatus] at hterminal
    cases hterminal
  · exact hsignalled

/-- A session is closed while its job runs and another start is past looking
it up: the job runs on and the start inserts a second one. -/
theorem close_leaves_job_running :
    ∃ s, Reach runtimeSystem s ∧ (s.engine.sessions.retired.map (·.id)) = [⟨"s_1"⟩]
      ∧ (s.engine.jobs.get ⟨"j_1"⟩).map (fun job => (job.sessionId, job.status))
        = some (⟨"s_1"⟩, .running)
      ∧ ⟨"j_1"⟩ ∉ s.signalled ∧ (s.engine.jobs.get ⟨"j_2"⟩).isSome = true
      ∧ ⟨"s_1"⟩ ∈ s.late ∧ ¬NothingLeft s := by
  obtain ⟨s, hs, hp⟩ := ReachVia.of_run (G := fun _ _ => True) Runtime.launched_init
    (commandRuns ++ [.jobStart 1 (request (.command "sleep 30") []),
      .advance 1 plainHost .unixEpoch, .sessionClose 0 ⟨"s_1"⟩ "ct_1",
      .advance 0 plainHost .unixEpoch, .advance 1 plainHost .unixEpoch,
      .advance 1 plainHost .unixEpoch])
    (fun s => (s.engine.sessions.retired.map (·.id)) = [⟨"s_1"⟩]
      && (s.engine.jobs.get ⟨"j_1"⟩).map (fun job => (job.sessionId, job.status))
        = some (⟨"s_1"⟩, .running)
      && (⟨"j_1"⟩ ∉ s.signalled) && (s.engine.jobs.get ⟨"j_2"⟩).isSome && (⟨"s_1"⟩ ∈ s.late))
    (by decide +kernel)
  simp only [Bool.and_eq_true, decide_eq_true_eq] at hp
  obtain ⟨⟨⟨⟨hretired, hjob⟩, hunsignalled⟩, hsecond⟩, hlate⟩ := hp
  refine ⟨s, hs, hretired, hjob, hunsignalled, hsecond, hlate, fun h => ?_⟩
  obtain ⟨session, hmem, hid⟩ : ∃ session ∈ s.engine.sessions.retired, session.id = ⟨"s_1"⟩ := by
    rw [← List.mem_map, hretired]
    exact List.mem_singleton_self _
  rw [← hid] at hlate
  exact h.quiet session hmem hlate

end Axp
