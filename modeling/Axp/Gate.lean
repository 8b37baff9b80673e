import Axp.Effects

/-!
# The authentication gate

Every authenticated endpoint begins with one lookup and one comparison. What
they decide is a fact about the history of the server: the session has been
opened, has not been closed, and the token is the one minted when it was
opened. `SessionsInv` connects the two, through the token of the session that
is live under an id, and of the session behind it, live or not.

A request that is stopped at the gate is answered by one constant, and the
state it leaves is the state it found.
-/

namespace Axp

open Lts

namespace SessionStore

/-- The token of the live session. -/
def liveToken (self : SessionStore) (sid : SessionId) : Option CapToken :=
  (self.get sid).map (·.capToken)

/-- The token of the session, live or not. -/
def token (self : SessionStore) (sid : SessionId) : Option CapToken :=
  (self.behind sid).map (·.capToken)

variable {store : SessionStore} {sid : SessionId}

theorem token_eq_none : store.token sid = none ↔ store.behind sid = none := Option.map_eq_none_iff

theorem token_of_live {token : CapToken} (h : store.liveToken sid = some token) :
    store.token sid = some token := by
  obtain ⟨session, hget, rfl⟩ := Option.map_eq_some_iff.mp h
  rw [SessionStore.token, behind_of_get hget, Option.map_some]

theorem liveToken_write (store : SessionStore) (id : SessionId) (kind : AuditEventKind)
    (now : SystemTime) (sid : SessionId) :
    (store.write id kind now).liveToken sid = store.liveToken sid := by
  rw [liveToken, get_write]
  split
  · next h =>
      rw [h, Option.map_map]
      rfl
  · rfl

theorem token_write (store : SessionStore) (id : SessionId) (kind : AuditEventKind)
    (now : SystemTime) (sid : SessionId) :
    (store.write id kind now).token sid = store.token sid := by
  rw [token, behind_write]
  split
  · next h =>
      rw [h, Option.map_map]
      rfl
  · rfl

/-- The gate compares with the live session's token. -/
theorem authorize_iff {presented : String} :
    store.authorize sid presented = true ↔
      ∃ token, store.liveToken sid = some token ∧ token.str = presented := by
  unfold authorize liveToken
  cases store.get sid with
  | none => simp
  | some session => simp [CapToken.verify_iff]

end SessionStore

/-! ## The invariant -/

/-- The id has been minted. -/
def Server.Minted (s : Server) (sid : SessionId) : Prop :=
  ∃ k, k < s.sessionCounter ∧ sid = mintedId k

/-- What the store holds and what has been seen of it: a session is opened
once, under an id of its own, and is live until it is closed. -/
structure SessionsInv (s : Server) : Prop where
  distinct : s.engine.sessions.Distinct
  minted : ∀ sid, s.engine.sessions.token sid ≠ none → s.Minted sid
  opening : ∀ call session, s.calls.lookup call = some (.opening session) →
    s.Minted session.id ∧ s.engine.sessions.token session.id = none ∧ session.auditEvents = []
  apart : ∀ call call' session session', s.calls.lookup call = some (.opening session) →
    s.calls.lookup call' = some (.opening session') → session.id = session'.id → call = call'
  opened : ∀ sid token, (sid, token) ∈ s.observed.opened →
    s.engine.sessions.token sid = some token
  live : ∀ sid token, s.engine.sessions.liveToken sid = some token →
    (sid, token) ∈ s.observed.opened ∧ sid ∉ s.observed.closed
  closed : ∀ sid token, (sid, token) ∈ s.observed.opened →
    s.engine.sessions.liveToken sid = none → sid ∈ s.observed.closed
  gone : ∀ sid ∈ s.observed.closed, s.engine.sessions.token sid ≠ none

namespace SessionsInv

variable {s s' : Server} {l : ServerLabel} {display : Error → String}

theorem init (h : (serverSystem display).init s) : SessionsInv s := by
  obtain ⟨hsessions, -, -, -, -, -, -, hcalls, -, -, -, -, -, hobserved⟩ := h
  have htoken : ∀ sid, s.engine.sessions.token sid = none := by
    intro sid
    rw [hsessions]
    rfl
  have hcall : ∀ call c, s.calls.lookup call ≠ some c := by
    intro call c hc
    rw [hcalls] at hc
    cases hc
  refine ⟨?_, ?_, ?_, ?_, ?_, ?_, ?_, ?_⟩
  · rw [hsessions]
    exact .new
  · exact fun sid hne => absurd (htoken sid) hne
  · exact fun call session hc => absurd hc (hcall call _)
  · exact fun call call' session session' hc => absurd hc (hcall call _)
  · intro sid token hmem
    rw [hobserved] at hmem
    cases hmem
  · intro sid token hlive
    rw [hsessions] at hlive
    cases hlive
  · intro sid token hmem
    rw [hobserved] at hmem
    cases hmem
  · intro sid hmem
    rw [hobserved] at hmem
    cases hmem

/-- The calls after a step: those that open a session did so before, or one
has minted its id just now. -/
def Openings (s s' : Server) : Prop :=
  ∀ call session, s'.calls.lookup call = some (.opening session) →
    s.calls.lookup call = some (.opening session)
      ∨ (session.id = mintedId s.sessionCounter ∧ s.sessionCounter < s'.sessionCounter
        ∧ session.auditEvents = [] ∧ call = s.callCount)

theorem openings (hs : (serverSystem display).step s l = some s') :
    Openings s s' := by
  intro call session hc
  rcases Server.step_calls hs hc with hold | hnext
  · exact Or.inl hold
  · cases hnext with
    | opening session hid hevents heq =>
        refine Or.inr ⟨hid, ?_, hevents, rfl⟩
        rw [heq]
        exact Nat.lt_succ_self _
    | first r c hgate hfirst heq => cases r <;> cases hfirst
    | goes call c c' hc hgoes => cases hgoes

theorem minted_mono (h : s.sessionCounter ≤ s'.sessionCounter) {sid : SessionId}
    (hmint : s.Minted sid) : s'.Minted sid := by
  obtain ⟨k, hk, rfl⟩ := hmint
  exact ⟨k, hk.trans_le h, rfl⟩

theorem minted_ne {sid : SessionId} (hmint : s.Minted sid) :
    sid ≠ mintedId s.sessionCounter := by
  obtain ⟨k, hk, rfl⟩ := hmint
  exact fun hsame => absurd (mintedId_injective hsame) (Nat.ne_of_lt hk)

/-- Openings keep to ids of their own. -/
theorem apart_step (h : SessionsInv s) (hcalls : Openings s s') :
    ∀ call call' session session', s'.calls.lookup call = some (.opening session) →
      s'.calls.lookup call' = some (.opening session') → session.id = session'.id →
      call = call' := by
  intro call call' session session' hc hc' hsame
  rcases hcalls call session hc with hold | ⟨hid, -, -, hcall⟩
  · rcases hcalls call' session' hc' with hold' | ⟨hid', -⟩
    · exact h.apart call call' session session' hold hold' hsame
    · exact absurd (hsame.trans hid') (minted_ne (h.opening call session hold).1)
  · rcases hcalls call' session' hc' with hold' | ⟨-, -, -, hcall'⟩
    · exact absurd (hsame.symm.trans hid) (minted_ne (h.opening call' session' hold').1)
    · exact hcall.trans hcall'.symm

/-- The steps that open no session and close none. -/
theorem frame (h : SessionsInv s) (hdistinct : s'.engine.sessions.Distinct)
    (hlive : ∀ sid, s'.engine.sessions.liveToken sid = s.engine.sessions.liveToken sid)
    (htoken : ∀ sid, s'.engine.sessions.token sid = s.engine.sessions.token sid)
    (hcounter : s.sessionCounter ≤ s'.sessionCounter)
    (hopened : s'.observed.opened = s.observed.opened)
    (hclosed : s'.observed.closed = s.observed.closed) (hcalls : Openings s s') :
    SessionsInv s' := by
  refine ⟨hdistinct, ?_, ?_, h.apart_step hcalls, ?_, ?_, ?_, ?_⟩
  · intro sid hne
    rw [htoken] at hne
    exact minted_mono hcounter (h.minted sid hne)
  · intro call session hc
    rw [htoken]
    rcases hcalls call session hc with hold | ⟨hid, hlt, hevents, -⟩
    · obtain ⟨hmint, hrest⟩ := h.opening call session hold
      exact ⟨minted_mono hcounter hmint, hrest⟩
    · refine ⟨⟨s.sessionCounter, hlt, hid⟩, ?_, hevents⟩
      by_contra hne
      exact minted_ne (h.minted _ hne) hid
  · intro sid token hmem
    rw [hopened] at hmem
    rw [htoken]
    exact h.opened sid token hmem
  · intro sid token hget
    rw [hlive] at hget
    rw [hopened, hclosed]
    exact h.live sid token hget
  · intro sid token hmem hnone
    rw [hopened] at hmem
    rw [hlive] at hnone
    rw [hclosed]
    exact h.closed sid token hmem hnone
  · intro sid hmem
    rw [hclosed] at hmem
    rw [htoken]
    exact h.gone sid hmem

/-- The steps that leave the sessions alone. -/
theorem same (h : SessionsInv s) (hsessions : s'.engine.sessions = s.engine.sessions)
    (hcounter : s.sessionCounter ≤ s'.sessionCounter)
    (hopened : s'.observed.opened = s.observed.opened)
    (hclosed : s'.observed.closed = s.observed.closed) (hcalls : Openings s s') :
    SessionsInv s' := by
  refine h.frame ?_ ?_ ?_ hcounter hopened hclosed hcalls
  · rw [hsessions]
    exact h.distinct
  · exact fun sid => by rw [hsessions]
  · exact fun sid => by rw [hsessions]

/-- The steps that write an audit event. -/
theorem write (h : SessionsInv s) {id : SessionId} {kind : AuditEventKind} {now : SystemTime}
    (hsessions : s'.engine.sessions = s.engine.sessions.write id kind now)
    (hcounter : s.sessionCounter ≤ s'.sessionCounter)
    (hopened : s'.observed.opened = s.observed.opened)
    (hclosed : s'.observed.closed = s.observed.closed) (hcalls : Openings s s') :
    SessionsInv s' := by
  refine h.frame ?_ ?_ ?_ hcounter hopened hclosed hcalls
  · rw [hsessions]
    exact h.distinct.write id kind now
  · exact fun sid => by rw [hsessions, SessionStore.liveToken_write]
  · exact fun sid => by rw [hsessions, SessionStore.token_write]

theorem step_opened (h : SessionsInv s) {call : Nat} {session : Session} {now : SystemTime}
    (hc : s.calls.lookup call = some (.opening session))
    (hsessions : s'.engine.sessions = s.engine.sessions.openSession session now)
    (hcounter : s'.sessionCounter = s.sessionCounter) (hcs : s'.calls = s.calls.erase call)
    (hopened : s'.observed.opened = s.observed.opened ++ [(session.id, session.capToken)])
    (hclosed : s'.observed.closed = s.observed.closed) (hcalls : Openings s s') :
    SessionsInv s' := by
  obtain ⟨hmint, hfree, -⟩ := h.opening call session hc
  have hbehind := SessionStore.token_eq_none.mp hfree
  have hlive : ∀ sid, s'.engine.sessions.liveToken sid
      = if sid = session.id then some session.capToken else s.engine.sessions.liveToken sid := by
    intro sid
    rw [hsessions, SessionStore.liveToken, SessionStore.get_opened]
    split
    · rfl
    · rfl
  have htoken : ∀ sid, s'.engine.sessions.token sid
      = if sid = session.id then some session.capToken else s.engine.sessions.token sid := by
    intro sid
    rw [hsessions, SessionStore.token, SessionStore.behind_opened]
    split
    · rfl
    · rfl
  have hmono : ∀ sid, s.Minted sid → s'.Minted sid := fun sid => minted_mono hcounter.ge
  refine ⟨?_, ?_, ?_, h.apart_step hcalls, ?_, ?_, ?_, ?_⟩
  · rw [hsessions]
    exact h.distinct.openSession hbehind
  · intro sid hne
    rw [htoken] at hne
    split at hne
    · next hsid =>
        rw [hsid]
        exact hmono _ hmint
    · exact hmono sid (h.minted sid hne)
  · intro call' other hc'
    -- The call that has opened its session is over.
    rw [hcs] at hc'
    obtain ⟨hne, hold⟩ := Directory.lookup_erase_iff.mp hc'
    obtain ⟨hmint', hfree', hevents⟩ := h.opening call' other hold
    rw [htoken, if_neg fun hsame => hne (h.apart call' call other session hold hc hsame)]
    exact ⟨hmono _ hmint', hfree', hevents⟩
  · intro sid token hmem
    rw [hopened, List.mem_append, List.mem_singleton] at hmem
    rw [htoken]
    rcases hmem with hold | hnew
    · have hsome := h.opened sid token hold
      rw [if_neg]
      · exact hsome
      · rintro rfl
        rw [hfree] at hsome
        cases hsome
    · obtain ⟨rfl, rfl⟩ := Prod.mk.inj hnew
      exact if_pos rfl
  · intro sid token hget
    rw [hlive] at hget
    rw [hopened, hclosed]
    split at hget
    · next hsid =>
        obtain rfl := Option.some.inj hget
        refine ⟨List.mem_append_right _ (by rw [hsid]; exact List.mem_singleton_self _), ?_⟩
        intro hmem
        rw [hsid] at hmem
        exact h.gone _ hmem hfree
    · exact (h.live sid token hget).imp_left (List.mem_append_left _)
  · intro sid token hmem hnone
    rw [hlive] at hnone
    rw [hclosed]
    split at hnone
    · cases hnone
    · next hsid =>
        rw [hopened, List.mem_append, List.mem_singleton] at hmem
        rcases hmem with hold | hnew
        · exact h.closed sid token hold hnone
        · exact absurd (Prod.mk.inj hnew).1 hsid
  · intro sid hmem
    rw [hclosed] at hmem
    rw [htoken]
    split
    · exact Option.some_ne_none _
    · exact h.gone sid hmem

theorem step_removed (h : SessionsInv s) {sid : SessionId} {session : Session}
    (hget : s.engine.sessions.get sid = some session)
    (hsessions : s'.engine.sessions = s.engine.sessions.remove sid)
    (hcounter : s'.sessionCounter = s.sessionCounter)
    (hopened : s'.observed.opened = s.observed.opened)
    (hclosed : s'.observed.closed = s.observed.closed ++ [sid]) (hcalls : Openings s s') :
    SessionsInv s' := by
  have hlive : ∀ sid', s'.engine.sessions.liveToken sid'
      = if sid' = sid then none else s.engine.sessions.liveToken sid' := by
    intro sid'
    rw [hsessions, SessionStore.liveToken, SessionStore.get_remove]
    split
    · rfl
    · rfl
  have htoken : ∀ sid', s'.engine.sessions.token sid' = s.engine.sessions.token sid' := by
    intro sid'
    rw [hsessions, SessionStore.token, h.distinct.behind_remove, SessionStore.token]
  have hmono : ∀ sid, s.Minted sid → s'.Minted sid := fun sid => minted_mono hcounter.ge
  refine ⟨?_, ?_, ?_, h.apart_step hcalls, ?_, ?_, ?_, ?_⟩
  · rw [hsessions]
    exact h.distinct.remove sid
  · intro sid' hne
    rw [htoken] at hne
    exact hmono sid' (h.minted sid' hne)
  · intro call other hc
    rw [htoken]
    rcases hcalls call other hc with hold | ⟨-, hlt, -⟩
    · exact (h.opening call other hold).imp_left (hmono _)
    · exact absurd hcounter.symm (Nat.ne_of_lt hlt)
  · intro sid' token hmem
    rw [hopened] at hmem
    rw [htoken]
    exact h.opened sid' token hmem
  · intro sid' token hsome
    rw [hlive] at hsome
    rw [hopened, hclosed]
    split at hsome
    · cases hsome
    · next hne =>
        obtain ⟨hmem, hnot⟩ := h.live sid' token hsome
        refine ⟨hmem, fun hin => ?_⟩
        rw [List.mem_append, List.mem_singleton] at hin
        exact hin.elim hnot hne
  · intro sid' token hmem hnone
    rw [hopened] at hmem
    rw [hlive] at hnone
    rw [hclosed, List.mem_append, List.mem_singleton]
    split at hnone
    · next hsame => exact Or.inr hsame
    · exact Or.inl (h.closed sid' token hmem hnone)
  · intro sid' hmem
    rw [htoken]
    rw [hclosed, List.mem_append, List.mem_singleton] at hmem
    rcases hmem with hold | rfl
    · exact h.gone sid' hold
    · intro hnone
      rw [SessionStore.token_eq_none] at hnone
      rw [SessionStore.behind_of_get hget] at hnone
      cases hnone

theorem step (h : SessionsInv s)
    (hs : (serverSystem display).step s l = some s') : SessionsInv s' := by
  have hcalls := openings hs
  cases Server.step_effect hs with
  | opened cs call session now hc hcs => exact h.step_opened hc rfl rfl hcs rfl rfl hcalls
  | removed cs call sid session hc hget => exact h.step_removed hget rfl rfl rfl rfl hcalls
  | recorded cs call sid now hc => exact h.write rfl le_rfl rfl rfl hcalls
  | startRecorded id life now hlife hpc => exact h.write rfl le_rfl rfl rfl hcalls
  | finishRecorded id life status now hlife hpc => exact h.write rfl le_rfl rfl rfl hcalls
  | talk cs n k hn hk => exact h.same rfl hk rfl rfl hcalls
  | _ => exact h.same rfl le_rfl rfl rfl hcalls

theorem reach (h : Reach (serverSystem display) s) : SessionsInv s :=
  h.invariant (fun _ => init) fun _ _ _ hs _ => hs.step

end SessionsInv

/-! ## The gate -/

/-- The gate is passed with the token of the live session. -/
theorem Server.gate_eq_ok {s : Server} {r : Request} :
    s.gate r = .ok () ↔ ∃ token, s.engine.sessions.liveToken r.sessionId = some token
      ∧ token.str = r.capToken := by
  rw [← SessionStore.authorize_iff, gate, requireAuthorizedSession]
  split
  · next h => simp_all
  · next h => simp_all

/-- In every state of every run, a request gets past the gate of its endpoint
if and only if its session has been opened, has not been closed, and the token
is byte for byte the one minted when it was opened. Every other request is
answered by the same `Unauthorized`, in a state that stays as it is. A request
past the gate whose session is closed before its handler looks it up once more
is answered by that error too, and only ends. -/
theorem gate_admits_exactly {display : Error → String} {s : Server}
    (hs : Reach (serverSystem display) s) (r : Request) :
    (s.gate r = .ok () ↔ ∃ token, (r.sessionId, token) ∈ s.observed.opened
        ∧ r.sessionId ∉ s.observed.closed ∧ utf8 token.str = utf8 r.capToken)
      ∧ (s.gate r ≠ .ok () → s.gate r = .error .unauthorized
        ∧ (serverSystem display).step s (.request r) = some s)
      ∧ ∀ call c sid e env now, s.calls.lookup call = some c → c.looksUp = some sid →
        requireSession s.engine.sessions sid = .error e → e = .unauthorized
          ∧ (serverSystem display).step s (.advance call env now) = some (s.endCall call) := by
  have hinv := SessionsInv.reach hs
  refine ⟨?_, ?_, ?_⟩
  · rw [Server.gate_eq_ok]
    constructor
    · rintro ⟨token, hlive, hstr⟩
      obtain ⟨hopened, hclosed⟩ := hinv.live _ _ hlive
      exact ⟨token, hopened, hclosed, congrArg utf8 hstr⟩
    · rintro ⟨token, hopened, hclosed, hbytes⟩
      cases hlive : s.engine.sessions.liveToken r.sessionId with
      | none => exact absurd (hinv.closed _ _ hopened hlive) hclosed
      | some token' =>
          -- A session has the one token it was opened with.
          have hsome := (hinv.opened _ _ hopened).symm.trans (SessionStore.token_of_live hlive)
          obtain rfl := Option.some.inj hsome
          exact ⟨token, rfl, utf8_injective hbytes⟩
  · intro hne
    rcases s.request_cases r with ⟨hok, -⟩ | ⟨herror, hsame⟩
    · exact absurd hok hne
    · exact ⟨herror, congrArg some hsame⟩
  · intro call c sid e env now hc hlooks herror
    have hstep : (serverSystem display).step s (.advance call env now)
        = some (s.advance call env now c) := by
      show (s.calls.lookup call).map (s.advance call env now) = _
      rw [hc, Option.map_some]
    have he : e = .unauthorized := by
      unfold requireSession okOr at herror
      split at herror
      · cases herror
      · exact (Except.error.inj herror).symm
    refine ⟨he, hstep.trans (congrArg some ?_)⟩
    cases c with
    | closing sid' =>
        obtain rfl := Option.some.inj hlooks
        simp only [Server.advance, herror]
    | auditing sid' seen =>
        obtain rfl := Option.some.inj hlooks
        simp only [Server.advance, herror]
    | catalog sid' => rfl
    | _ => cases hlooks

/-- The session `s_1`, with its token and with another one of the same
length. -/
theorem gate_admits_exactly_opened : ∃ s, Reach (serverSystem fun _ => "") s
    ∧ (s.gate (.sessionAudit ⟨"s_1"⟩ "ct_1") = .ok ())
    ∧ s.gate (.sessionAudit ⟨"s_1"⟩ "ct_2") = .error .unauthorized := by
  obtain ⟨s, hs, hp⟩ := ReachVia.of_run (G := fun _ _ => True) (Server.launched_init fun _ => "")
    openRun
    (fun s => s.observed.opened = [(⟨"s_1"⟩, ⟨"ct_1"⟩)] && s.observed.closed = [])
    (by decide +kernel)
  simp only [Bool.and_eq_true, decide_eq_true_eq] at hp
  obtain ⟨hopened, hclosed⟩ := hp
  refine ⟨s, hs, (gate_admits_exactly hs _).1.mpr ⟨⟨"ct_1"⟩, ?_, ?_, rfl⟩,
    ((gate_admits_exactly hs _).2.1 fun hok => ?_).1⟩
  · rw [hopened]
    exact List.mem_singleton_self _
  · rw [hclosed]
    exact List.not_mem_nil
  · obtain ⟨token, hmem, -, hbytes⟩ := (gate_admits_exactly hs _).1.mp hok
    rw [hopened, List.mem_singleton] at hmem
    rw [(Prod.mk.inj hmem).2] at hbytes
    exact absurd hbytes (by decide)

end Axp
