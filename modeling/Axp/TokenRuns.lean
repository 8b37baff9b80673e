import Axp.Gate
import Axp.Token

/-!
# Tokens over a run

A token is drawn when its session is opened, two steps before the session is
in the store, and other sessions are opened meanwhile. Every token that has
been given, or is about to be, is one that a label of the run has brought
(`GivenInv`), each to one session; so where no two draws of the operating
system are the same, a token opens the gate of its own session and of no
other, and of none once that session has been closed.
-/

namespace Axp

open Lts Directory

namespace Server

variable {s s' : Server} {l : ServerLabel} {display : Error → String} {sid : SessionId}
  {token : CapToken}

/-- The session has been opened with the token, or is being opened with it. -/
def Gives (s : Server) (sid : SessionId) (token : CapToken) : Prop :=
  (sid, token) ∈ s.observed.opened
    ∨ ∃ call session, s.calls.lookup call = some (.opening session) ∧ session.id = sid
      ∧ session.capToken = token

/-- A call that opens a session has come from the request to open it. -/
theorem step_opening (hs : (serverSystem display).step s l = some s') {call : Nat}
    {session : Session} (hc : s'.calls.lookup call = some (.opening session)) :
    s.calls.lookup call = some (.opening session)
      ∨ session.id = mintedId s.sessionCounter
        ∧ ∃ env req, l = .sessionOpen env req (some session.capToken) := by
  cases l with
  | sessionOpen env req token =>
      obtain rfl : s.sessionOpen env req token = s' := Option.some.inj hs
      unfold sessionOpen at hc
      split at hc
      · split at hc
        · rcases begin_calls hc with hold | ⟨-, heq⟩
          · exact .inl hold
          · obtain rfl := ServerCall.opening.inj heq
            exact .inr ⟨rfl, env, req, rfl⟩
        · exact .inl hc
      · exact .inl hc
  | request r =>
      obtain rfl : s.request r = s' := Option.some.inj hs
      rcases s.request_cases r with ⟨-, heq⟩ | ⟨-, heq⟩
      · rw [heq] at hc
        rcases begin_calls hc with hold | ⟨-, hfirst⟩
        · exact .inl hold
        · cases r <;> cases hfirst
      · rw [heq] at hc
        exact .inl hc
  | cancelForSession sid =>
      obtain rfl := Option.some.inj hs
      rcases begin_calls hc with hold | ⟨-, heq⟩
      · exact .inl hold
      · cases heq
  | advance call' env now =>
      obtain ⟨d, hd, rfl⟩ := Option.map_eq_some_iff.mp hs
      rcases advance_calls env now hd hc with hold | ⟨-, hgoes⟩
      · exact .inl hold
      · cases hgoes
  | life id input now =>
      obtain ⟨life, job, -, -, hstep⟩ := step_life_eq_some hs
      exact .inl (lifeStep_calls hstep ▸ hc)
  | stream i act =>
      obtain ⟨sid, a, job, -, -, hstep⟩ := step_stream_eq_some hs
      obtain ⟨a', -, rfl⟩ := Option.map_eq_some_iff.mp hstep
      exact .inl hc

/-- Nothing is given but what was, or what the label brings to a new session. -/
theorem step_gives (hs : (serverSystem display).step s l = some s') (h : s'.Gives sid token) :
    s.Gives sid token ∨ sid = mintedId s.sessionCounter
      ∧ ∃ env req, l = .sessionOpen env req (some token) := by
  rcases h with hopened | ⟨call, session, hc, rfl, rfl⟩
  · cases step_effect hs with
    | opened cs call session now hc hcs =>
        rcases List.mem_append.mp hopened with hold | hnew
        · exact .inl (.inl hold)
        · obtain ⟨rfl, rfl⟩ := Prod.mk.inj (List.mem_singleton.mp hnew)
          exact .inl (.inr ⟨call, session, hc, rfl, rfl⟩)
    | cancelled cs call req told env now hl hc hne => exact .inl (.inl hopened)
    | _ => exact .inl (.inl hopened)
  · rcases step_opening hs hc with hold | hnew
    · exact .inl (.inr ⟨call, session, hold, rfl, rfl⟩)
    · exact .inr hnew

end Server

/-- The token that a label brings. -/
def ServerLabel.token : ServerLabel → Option CapToken
  | .sessionOpen _ _ token => token
  | _ => none

/-- What the labels so far have brought is what has been given, each token to
one session. -/
structure GivenInv (done : List ServerLabel) (s : Server) : Prop where
  brought : ∀ sid token, s.Gives sid token → token ∈ done.filterMap ServerLabel.token
  once : (done.filterMap ServerLabel.token).Nodup → ∀ sid sid' token, s.Gives sid token →
    s.Gives sid' token → sid = sid'

namespace GivenInv

variable {s s' : Server} {display : Error → String} {done : List ServerLabel}

theorem init (h : (serverSystem display).init s) : GivenInv [] s := by
  obtain ⟨-, -, -, -, -, -, -, hcalls, -, -, -, -, -, hobserved⟩ := h
  have hnone : ∀ sid token, ¬s.Gives sid token := by
    rintro sid token (hopened | ⟨call, session, hc, -⟩)
    · rw [hobserved] at hopened
      cases hopened
    · rw [hcalls] at hc
      cases hc
  exact ⟨fun sid token h => absurd h (hnone sid token),
    fun _ sid _ token h => absurd h (hnone sid token)⟩

theorem step (h : GivenInv done s) {l : ServerLabel}
    (hs : (serverSystem display).step s l = some s') : GivenInv (done ++ [l]) s' := by
  refine ⟨fun sid token hgives => ?_, fun hnodup sid sid' token hgives hgives' => ?_⟩
  · rw [List.filterMap_append, List.mem_append]
    rcases Server.step_gives hs hgives with hold | ⟨-, env, req, rfl⟩
    · exact .inl (h.brought sid token hold)
    · exact .inr (List.mem_singleton_self token)
  · rw [List.filterMap_append] at hnodup
    -- A token that is new has not been brought before.
    have hfresh : ∀ sid env req, l = .sessionOpen env req (some token) →
        ¬s.Gives sid token := by
      rintro sid env req rfl hold
      exact List.disjoint_of_nodup_append hnodup (h.brought sid token hold)
        (List.mem_singleton_self token)
    rcases Server.step_gives hs hgives with hold | ⟨hid, env, req, hl⟩
    · rcases Server.step_gives hs hgives' with hold' | ⟨-, env, req, hl⟩
      · exact h.once hnodup.of_append_left sid sid' token hold hold'
      · exact absurd hold (hfresh sid env req hl)
    · rcases Server.step_gives hs hgives' with hold' | ⟨hid', -⟩
      · exact absurd hold' (hfresh sid' env req hl)
      · rw [hid, hid']

theorem run (h : (serverSystem display).init s) {ls : List ServerLabel}
    (hrun : (serverSystem display).run s ls = some s') : GivenInv ls s' :=
  System.run_history (Q := GivenInv) (init h) (fun _ _ _ _ hinv hs => hinv.step hs) hrun

end GivenInv

variable {s s' : Server} {display : Error → String} {ls : List ServerLabel}
  {draws : List (Vector UInt8 tokenBytes)}

/-- Distinct draws make distinct tokens. -/
theorem nodup_of_draws (hdraws : draws.Nodup) {tokens : List CapToken}
    (h : tokens.map .ok = draws.map fun bytes => CapToken.generate (some bytes)) :
    tokens.Nodup := by
  refine List.Nodup.of_map (fun token => (.ok token : Result CapToken)) ?_
  rw [h]
  exact List.Nodup.map_on (fun bytes _ bytes' _ heq => CapToken.generate_inj heq rfl) hdraws

/-- In every run in which the tokens are minted from distinct draws: a request
that gets past its gate shows the token of one of these draws, and one that
shows a token with which some session was opened, live or closed, gets past no
gate but that session's own. -/
theorem token_opens_one_session (hinit : (serverSystem display).init s)
    (hrun : (serverSystem display).run s ls = some s') (hdraws : draws.Nodup)
    (htokens : (ls.filterMap ServerLabel.token).map .ok
      = draws.map fun bytes => CapToken.generate (some bytes)) {r : Request}
    (hgate : s'.gate r = .ok ()) :
    (∃ bytes ∈ draws, CapToken.generate (some bytes) = .ok ⟨r.capToken⟩)
      ∧ ∀ sid token, (sid, token) ∈ s'.observed.opened → token.verify r.capToken = true →
        r.sessionId = sid := by
  have hinv := GivenInv.run hinit hrun
  have hsessions := SessionsInv.reach (Reach.run (.init hinit) hrun)
  obtain ⟨token, hlive, hstr⟩ := Server.gate_eq_ok.mp hgate
  have hopened := (hsessions.live _ _ hlive).1
  refine ⟨?_, fun sid token' hopened' hverify => ?_⟩
  · have hmem : (.ok token : Result CapToken) ∈ (ls.filterMap ServerLabel.token).map .ok :=
      List.mem_map_of_mem (hinv.brought _ _ (.inl hopened))
    rw [htokens] at hmem
    obtain ⟨bytes, hbytes, heq⟩ := List.mem_map.mp hmem
    exact ⟨bytes, hbytes, heq.trans (by rw [← hstr])⟩
  · have hsame : token = token' := by
      rw [CapToken.verify_iff] at hverify
      cases token
      cases token'
      exact congrArg CapToken.mk (hstr.trans hverify.symm)
    exact hinv.once (nodup_of_draws hdraws htokens) _ _ token (.inl hopened)
      (hsame ▸ .inl hopened')

/-- Two draws. -/
def twoDraws : List (Vector UInt8 tokenBytes) := [.replicate 32 0, .replicate 32 171]

/-- Two sessions are opened at the same time. -/
def twoSessions : List ServerLabel :=
  let opens (bytes : Vector UInt8 tokenBytes) : ServerLabel :=
    .sessionOpen plainHost ⟨"/proj", .devNone, []⟩ (CapToken.generate (some bytes)).toOption
  twoDraws.map opens ++ [.advance 1 plainHost .unixEpoch, .advance 0 plainHost .unixEpoch]

/-- The token of the second one is not for the first. -/
theorem token_opens_one_session_two : ∃ s token,
    (serverSystem fun _ => "").run .launched twoSessions = some s
      ∧ CapToken.generate (some (.replicate 32 171)) = .ok token
      ∧ s.gate (.sessionAudit ⟨"s_2"⟩ token.str) = .ok ()
      ∧ s.gate (.sessionAudit ⟨"s_1"⟩ token.str) ≠ .ok () := by
  have hall : ((serverSystem fun _ => "").run .launched twoSessions).any (fun s =>
      (CapToken.generate (some (.replicate 32 171))).toOption.any fun token =>
        (⟨"s_2"⟩, token) ∈ s.observed.opened
          && s.gate (.sessionAudit ⟨"s_2"⟩ token.str) = .ok ()) = true := by
    decide +kernel
  simp only [Option.any_eq_true, Bool.and_eq_true, decide_eq_true_eq] at hall
  obtain ⟨s, hrun, token, htoken, hopened, hgate⟩ := hall
  refine ⟨s, token, hrun, ?_, hgate, fun hcross => ?_⟩
  · rw [← Option.some.inj htoken]
    rfl
  · have hdraws : twoDraws.Nodup := by decide +kernel
    have hsid : (⟨"s_1"⟩ : SessionId) = ⟨"s_2"⟩ :=
      (token_opens_one_session (Server.launched_init _) hrun hdraws (by decide +kernel)
        hcross).2 _ _ hopened (CapToken.verify_iff.mpr rfl)
    exact absurd hsid (by decide)

end Axp
