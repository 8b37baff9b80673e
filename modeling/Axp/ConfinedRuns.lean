import Axp.Confinement
import Axp.Gate

/-!
# The children of a run

Between the opening of a session and the children of its jobs lie a lookup, a
check and a launch, each in a step of its own, with any other requests between
them. What a session was opened with never changes, live or not
(`step_grants`), and what a job was launched with is what its session still has
(`LaunchInv`). The host of the launch is the one whose answers the step had that
prepared it, and the run shows which that is (`Server.LaunchedOn`).

`children_are_confined`: whatever the requests and their order, every child
that a job of a session has, its own or that of a component's call, is confined
to the grants the session was opened with, by the paths of the host it is made
on, or its tier enforces nothing.
-/

namespace Axp

open Lts Directory

/-! ## Grants in the store -/

namespace SessionStore

/-- What the session was opened with, live or not. -/
def grants (self : SessionStore) (sid : SessionId) : Option Grants :=
  (self.behind sid).map (·.grants)

variable {store : SessionStore} {sid : SessionId}

theorem grants_of_get {session : Session} (h : store.get sid = some session) :
    store.grants sid = some session.grants := by
  rw [grants, behind_of_get h, Option.map_some]

theorem grants_write (store : SessionStore) (id : SessionId) (kind : AuditEventKind)
    (now : SystemTime) (sid : SessionId) :
    (store.write id kind now).grants sid = store.grants sid := by
  rw [grants, behind_write]
  split
  · next h =>
      rw [h, Option.map_map]
      rfl
  · rfl

theorem grants_opened (store : SessionStore) (session : Session) (now : SystemTime)
    (sid : SessionId) : (store.openSession session now).grants sid
      = if sid = session.id then some session.grants else store.grants sid := by
  rw [grants, behind_opened]
  split
  · rfl
  · rfl

end SessionStore

/-! ## What is launched -/

/-- The capabilities are those of some request. -/
def Grants.Parsed (g : Grants) : Prop := ∃ wire, CapabilitySet.fromWire wire = .ok g.capabilities

/-- The work of a job of a session with these grants, prepared on the host. -/
inductive Grants.Starts (g : Grants) (env : Env) : Work → Prop
  | child {session : Session} {runnable : Runnable} {cwd : PathBuf} {cmd : Command} :
      session.grants = g →
      applyPolicy env (runnable.policy session) (runnable.command cwd) = .ok cmd →
      Starts g env (.child cmd (runnable.policy session))
  | component {session : Session} {bytes : List UInt8} {cwd : PathBuf} {cap : Usize} :
      session.grants = g → Starts g env (.component bytes (session.context cwd cap))

theorem prepare_starts {env : Env} {registry : ProviderRegistry} {cap : Usize} {session : Session}
    {req : JobStartRequest} {launch : Launch}
    (h : prepare env registry cap session req = .ok launch) :
    session.grants.Starts env launch.work := by
  obtain ⟨-, ⟨-, runnable, cmd, happly, hwork⟩ | ⟨-, bytes, cwd, hwork⟩⟩ := prepare_ok h
  · rw [hwork]
    exact .child rfl happly
  · rw [hwork]
    exact .component rfl

namespace Server

/-- A step of the call, in the run so far, has prepared the launch on the
host. -/
inductive Prepared (display : Error → String) (s₀ : Server) (call : Nat) (req : JobStartRequest)
    (launch : Launch) (env : Env) : List ServerLabel → Prop
  | step {before after : List ServerLabel} {now : SystemTime} {s : Server} {session : Session} :
      (serverSystem display).run s₀ before = some s →
      s.calls.lookup call = some (.preparing req session) →
      prepare env s.engine.registry s.engine.logByteCap session req = .ok launch →
      Prepared display s₀ call req launch env (before ++ .advance call env now :: after)

/-- The job was launched on the host: a step of the run inserted it, of a call
that had been prepared there. -/
inductive LaunchedOn (display : Error → String) (s₀ : Server) (id : JobId) (life : Life)
    (env : Env) : List ServerLabel → Prop
  | step {before after : List ServerLabel} {call : Nat} {env' : Env} {now : SystemTime}
      {s : Server} {req : JobStartRequest} {launch : Launch} :
      (serverSystem display).run s₀ before = some s →
      s.calls.lookup call = some (.inserting req launch) →
      Prepared display s₀ call req launch env before →
      (s.engine.insertRunningJob req launch.cwd now).1 = id →
      life.sessionId = req.sessionId → life.work = launch.work →
      LaunchedOn display s₀ id life env (before ++ .advance call env' now :: after)

section

variable {display : Error → String} {s₀ : Server} {env : Env} {ls : List ServerLabel}

theorem Prepared.append {call : Nat} {req : JobStartRequest} {launch : Launch}
    (h : Prepared display s₀ call req launch env ls) (more : List ServerLabel) :
    Prepared display s₀ call req launch env (ls ++ more) := by
  cases h with
  | step hrun hcall hprepare =>
      rw [List.append_assoc, List.cons_append]
      exact .step hrun hcall hprepare

theorem LaunchedOn.append {id : JobId} {life life' : Life}
    (h : LaunchedOn display s₀ id life env ls) (hsid : life.sessionId = life'.sessionId)
    (hwork : life.work = life'.work) (more : List ServerLabel) :
    LaunchedOn display s₀ id life' env (ls ++ more) := by
  cases h with
  | step hrun hcall hprepared hid hreq hlaunch =>
      rw [List.append_assoc, List.cons_append]
      exact .step hrun hcall hprepared hid (hsid.symm.trans hreq) (hwork.symm.trans hlaunch)

/-- The host is that of a step of the run. -/
theorem LaunchedOn.mem {id : JobId} {life : Life} (h : LaunchedOn display s₀ id life env ls) :
    ∃ call now, .advance call env now ∈ ls := by
  cases h with
  | @step _ _ call _ _ _ _ _ _ _ hprepared =>
      cases hprepared with
      | @step before after now => exact ⟨call, now, by simp⟩

end

end Server

/-! ## Steps -/

namespace Server

variable {s s' : Server} {l : ServerLabel} {display : Error → String} {call : Nat}

/-- How a call comes to be where it is, with the checks of `session_open` and
the step of the call itself. -/
inductive Came (s s' : Server) (l : ServerLabel) (call : Nat) : ServerCall → Prop
  | opening (session : Session) : session.grants.Parsed → Came s s' l call (.opening session)
  | first (r : Request) : Came s s' l call (s.first r)
  | killingAll (sid : SessionId) (ids : List JobId) : Came s s' l call (.killingAll sid ids 0)
  | goes (env : Env) (now : SystemTime) (d c : ServerCall) : l = .advance call env now →
      s.calls.lookup call = some d → s' = s.advance call env now d → Goes s s' call d c →
      Came s s' l call c

theorem step_came (hs : (serverSystem display).step s l = some s') {c : ServerCall}
    (hc : s'.calls.lookup call = some c) :
    s.calls.lookup call = some c ∨ Came s s' l call c := by
  cases l with
  | sessionOpen env req token =>
      obtain rfl : s.sessionOpen env req token = s' := Option.some.inj hs
      unfold sessionOpen at hc
      split at hc
      · next workspace capabilities _ hparsed =>
          split at hc
          · rcases begin_calls hc with hold | ⟨-, rfl⟩
            · exact .inl hold
            · exact .inr (.opening _ ⟨req.capabilities, hparsed⟩)
          · exact .inl hc
      · exact .inl hc
  | request r =>
      obtain rfl : s.request r = s' := Option.some.inj hs
      rcases s.request_cases r with ⟨-, heq⟩ | ⟨-, heq⟩
      · rw [heq] at hc
        rcases begin_calls hc with hold | ⟨-, rfl⟩
        · exact .inl hold
        · exact .inr (.first r)
      · rw [heq] at hc
        exact .inl hc
  | cancelForSession sid =>
      obtain rfl := Option.some.inj hs
      rcases begin_calls hc with hold | ⟨-, rfl⟩
      · exact .inl hold
      · exact .inr (.killingAll sid _)
  | advance call' env now =>
      obtain ⟨d, hd, rfl⟩ := Option.map_eq_some_iff.mp hs
      rcases advance_calls env now hd hc with hold | ⟨rfl, hgoes⟩
      · exact .inl hold
      · exact .inr (.goes env now d c rfl hd rfl hgoes)
  | life id input now =>
      obtain ⟨life, job, -, -, hstep⟩ := step_life_eq_some hs
      exact .inl (lifeStep_calls hstep ▸ hc)
  | stream i act =>
      obtain ⟨sid, a, job, -, -, hstep⟩ := step_stream_eq_some hs
      obtain ⟨a', -, rfl⟩ := Option.map_eq_some_iff.mp hstep
      exact .inl hc

/-- A session about to be opened has been checked. -/
theorem Came.parsed {session : Session} (h : Came s s' l call (.opening session)) :
    session.grants.Parsed := by
  generalize hc : ServerCall.opening session = c at h
  cases h with
  | opening other hparsed =>
      obtain rfl := ServerCall.opening.inj hc
      exact hparsed
  | first r => cases r <;> cases hc
  | killingAll sid ids => cases hc
  | goes env now d c hl hd heq hgoes =>
      subst hc
      cases hgoes

/-- A launch is prepared for a session that was looked up before. -/
theorem Came.prepared {req : JobStartRequest} {session : Session}
    (h : Came s s' l call (.preparing req session)) :
    s.engine.sessions.get req.sessionId = some session := by
  generalize hc : ServerCall.preparing req session = c at h
  cases h with
  | opening other hparsed => cases hc
  | first r => cases r <;> cases hc
  | killingAll sid ids => cases hc
  | goes env now d c hl hd heq hgoes =>
      subst hc
      cases hgoes with
      | starting req session hget => exact hget

/-- A launch is what it was prepared for. -/
theorem Came.launched {req : JobStartRequest} {launch : Launch}
    (hc' : s'.calls.lookup call = some (.inserting req launch))
    (h : Came s s' l call (.inserting req launch)) :
    ∃ session env now, l = .advance call env now
      ∧ s.calls.lookup call = some (.preparing req session)
      ∧ prepare env s.engine.registry s.engine.logByteCap session req = .ok launch := by
  generalize hc : ServerCall.inserting req launch = c at h
  cases h with
  | opening other hparsed => cases hc
  | first r => cases r <;> cases hc
  | killingAll sid ids => cases hc
  | goes env now d c hl hd heq hgoes =>
      subst hc
      cases hgoes with
      | preparing req session launch =>
          refine ⟨session, env, now, hl, hd, ?_⟩
          rw [heq] at hc'
          simp only [advance] at hc'
          split at hc'
          · next launch' hprepare =>
              rcases lookup_insert_iff.mp hc' with ⟨-, hsame⟩ | ⟨hne, -⟩
              · obtain ⟨-, rfl⟩ := ServerCall.inserting.inj hsame
                exact hprepare
              · exact absurd rfl hne
          · exact absurd rfl (lookup_erase_iff.mp hc').1

/-- The work of a job is what was launched. -/
theorem step_lives (hs : (serverSystem display).step s l = some s') {id : JobId} {life : Life}
    (hlife : s'.lives.lookup id = some life) :
    (∃ old, s.lives.lookup id = some old ∧ old.sessionId = life.sessionId ∧ old.work = life.work)
      ∨ ∃ call env now req launch, l = .advance call env now
        ∧ s.calls.lookup call = some (.inserting req launch)
        ∧ (s.engine.insertRunningJob req launch.cwd now).1 = id
        ∧ life.sessionId = req.sessionId ∧ life.work = launch.work := by
  have hmove : ∀ {id' : JobId} {old : Life} {rx : Option Nat} {pc : LifePc},
      s.lives.lookup id' = some old →
      (s.lives.insert id' { old with rx := rx, pc := pc }).lookup id = some life →
      ∃ old, s.lives.lookup id = some old ∧ old.sessionId = life.sessionId
        ∧ old.work = life.work := by
    intro id' old rx pc hold hlook
    rcases lookup_insert_iff.mp hlook with ⟨rfl, rfl⟩ | ⟨-, hsame⟩
    · exact ⟨old, hold, rfl, rfl⟩
    · exact ⟨life, hsame, rfl, rfl⟩
  cases step_effect hs with
  | inserted cs call req launch env now hl hc =>
      rcases lookup_insert_iff.mp hlife with ⟨hid, rfl⟩ | ⟨-, hsame⟩
      · exact .inr ⟨call, env, now, req, launch, hl, hc, hid.symm, rfl, rfl⟩
      · exact .inl ⟨life, hsame, rfl, rfl⟩
  | registered id' old hold hpc => exact .inl (hmove hold hlife)
  | moved id' old pc hold hpc => exact .inl (hmove hold hlife)
  | startRecorded id' old now hold hpc => exact .inl (hmove hold hlife)
  | spawned id' old hold hpc => exact .inl (hmove hold hlife)
  | branched id' old task task' hold hpc hready => exact .inl (hmove hold hlife)
  | pushed id' old task task' job event hold hpc hjob => exact .inl (hmove hold hlife)
  | terminal id' old job status now hold hpc hjob => exact .inl (hmove hold hlife)
  | notified id' old status hold hpc => exact .inl (hmove hold hlife)
  | finishRecorded id' old status now hold hpc => exact .inl (hmove hold hlife)
  | retired id' old status hold hpc => exact .inl (hmove hold hlife)
  | _ => exact .inl ⟨life, hlife, rfl, rfl⟩

/-- What a session was opened with does not change; a session that was not
there has been opened in this step. -/
theorem step_grants (hsessions : SessionsInv s) (hs : (serverSystem display).step s l = some s')
    (sid : SessionId) :
    s'.engine.sessions.grants sid = s.engine.sessions.grants sid
      ∨ ∃ call session, s.calls.lookup call = some (.opening session)
        ∧ s.engine.sessions.grants sid = none
        ∧ s'.engine.sessions.grants sid = some session.grants := by
  cases step_effect hs with
  | opened cs call session now hc hcs =>
      have hfree := SessionStore.token_eq_none.mp (hsessions.opening call session hc).2.1
      show (s.engine.sessions.openSession session now).grants sid = _ ∨ _
      rw [SessionStore.grants_opened]
      by_cases hsid : sid = session.id
      · refine .inr ⟨call, session, hc, ?_, ?_⟩
        · rw [SessionStore.grants, hsid, hfree, Option.map_none]
        · exact if_pos hsid
      · exact .inl (if_neg hsid)
  | removed cs call sid' session hc hget =>
      left
      show (s.engine.sessions.remove sid').grants sid = _
      rw [SessionStore.grants, hsessions.distinct.behind_remove, SessionStore.grants]
  | recorded cs call sid' now hc => exact .inl (SessionStore.grants_write _ _ _ _ _)
  | startRecorded id life now hlife hpc => exact .inl (SessionStore.grants_write _ _ _ _ _)
  | finishRecorded id life status now hlife hpc => exact .inl (SessionStore.grants_write _ _ _ _ _)
  | _ => exact .inl rfl

end Server

/-! ## The invariants -/

/-- Wherever a session is on its way, it is with what it was opened with. -/
structure GrantsInv (s : Server) : Prop where
  sessions : SessionsInv s
  parsed : ∀ sid g, s.engine.sessions.grants sid = some g → g.Parsed
  opening : ∀ call session, s.calls.lookup call = some (.opening session) →
    session.grants.Parsed
  preparing : ∀ call req session, s.calls.lookup call = some (.preparing req session) →
    s.engine.sessions.grants req.sessionId = some session.grants

namespace GrantsInv

variable {s s' : Server} {l : ServerLabel} {display : Error → String}

theorem init (h : (serverSystem display).init s) : GrantsInv s := by
  obtain ⟨hsessions, -, -, -, -, -, -, hcalls, -⟩ := id h
  refine ⟨SessionsInv.init h, ?_, ?_, ?_⟩
  · intro sid g hg
    rw [hsessions] at hg
    cases hg
  · intro call session hc
    rw [hcalls] at hc
    cases hc
  · intro call req session hc
    rw [hcalls] at hc
    cases hc

/-- What a session was opened with stays. -/
theorem keeps (h : GrantsInv s) (hs : (serverSystem display).step s l = some s') {sid : SessionId}
    {g : Grants} (hg : s.engine.sessions.grants sid = some g) :
    s'.engine.sessions.grants sid = some g := by
  rcases Server.step_grants h.sessions hs sid with hsame | ⟨_, _, -, hnone, -⟩
  · exact hsame.trans hg
  · rw [hg] at hnone
    cases hnone

theorem step (h : GrantsInv s) (hs : (serverSystem display).step s l = some s') :
    GrantsInv s' := by
  refine ⟨h.sessions.step hs, ?_, ?_, ?_⟩
  · intro sid g hg
    rcases Server.step_grants h.sessions hs sid with hsame | ⟨call, session, hc, -, hnew⟩
    · exact h.parsed sid g (hsame.symm.trans hg)
    · obtain rfl := Option.some.inj (hg.symm.trans hnew)
      exact h.opening call session hc
  · intro call session hc
    rcases Server.step_came hs hc with hold | hcame
    · exact h.opening call session hold
    · exact hcame.parsed
  · intro call req session hc
    rcases Server.step_came hs hc with hold | hcame
    · exact h.keeps hs (h.preparing call req session hold)
    · exact h.keeps hs (SessionStore.grants_of_get hcame.prepared)

end GrantsInv

/-- What the run so far has to show for a launch on its way and for a job: the
host it was prepared on, and work of what its session was opened with. -/
structure LaunchInv (display : Error → String) (s₀ : Server) (ls : List ServerLabel)
    (s : Server) : Prop where
  run : (serverSystem display).run s₀ ls = some s
  grants : GrantsInv s
  inserting : ∀ call req launch, s.calls.lookup call = some (.inserting req launch) →
    ∃ env g, Server.Prepared display s₀ call req launch env ls
      ∧ s.engine.sessions.grants req.sessionId = some g ∧ g.Starts env launch.work
  lives : ∀ id life, s.lives.lookup id = some life →
    ∃ env g, Server.LaunchedOn display s₀ id life env ls
      ∧ s.engine.sessions.grants life.sessionId = some g ∧ g.Starts env life.work

namespace LaunchInv

variable {display : Error → String} {s₀ s s' : Server} {l : ServerLabel} {ls : List ServerLabel}

theorem init (h : (serverSystem display).init s) : LaunchInv display s [] s := by
  obtain ⟨-, -, -, -, -, -, -, hcalls, hlives, -⟩ := id h
  refine ⟨rfl, .init h, ?_, ?_⟩
  · intro call req launch hc
    rw [hcalls] at hc
    cases hc
  · intro id life hlife
    rw [hlives] at hlife
    cases hlife

theorem step (h : LaunchInv display s₀ ls s) (hs : (serverSystem display).step s l = some s') :
    LaunchInv display s₀ (ls ++ [l]) s' := by
  refine ⟨System.run_concat.mpr ⟨s, h.run, hs⟩, h.grants.step hs, ?_, ?_⟩
  · intro call req launch hc
    rcases Server.step_came hs hc with hold | hcame
    · obtain ⟨env, g, hprepared, hg, hstarts⟩ := h.inserting call req launch hold
      exact ⟨env, g, hprepared.append [l], h.grants.keeps hs hg, hstarts⟩
    · obtain ⟨session, env, now, rfl, hcall, hprepare⟩ := hcame.launched hc
      have hg := h.grants.preparing call req session hcall
      exact ⟨env, session.grants, .step h.run hcall hprepare, h.grants.keeps hs hg,
        prepare_starts hprepare⟩
  · intro id life hlife
    rcases Server.step_lives hs hlife with ⟨old, hold, hsid, hwork⟩ |
      ⟨call, env', now, req, launch, rfl, hcall, hid, hsid, hwork⟩
    · obtain ⟨env, g, hlaunched, hg, hstarts⟩ := h.lives id old hold
      exact ⟨env, g, hlaunched.append hsid hwork [l], h.grants.keeps hs (hsid ▸ hg),
        hwork ▸ hstarts⟩
    · obtain ⟨env, g, hprepared, hg, hstarts⟩ := h.inserting call req launch hcall
      exact ⟨env, g, .step h.run hcall hprepared hid hsid hwork, h.grants.keeps hs (hsid ▸ hg),
        hwork ▸ hstarts⟩

/-- In every run, by what its last step does. -/
theorem of_run (h₀ : (serverSystem display).init s₀)
    (hrun : (serverSystem display).run s₀ ls = some s) : LaunchInv display s₀ ls s :=
  System.run_history (init h₀) (fun _ _ _ _ h hs => h.step hs) hrun

end LaunchInv

/-! ## Confinement -/

/-- A command made on the host for a session with these grants: to be run as it
is, if nothing is to be enforced, or confined to what the grants come to there. -/
def Grants.Restrains (g : Grants) (k : Kernel) (e : Enforcer) (cmd : Command) : Prop :=
  (g.tier = .devNone ∧ cmd.preExec = []) ∨
    (g.tier = .kernelLsm ∧ g.Confined k e cmd.preExec)

namespace Grants

variable {g : Grants} {policy : SandboxPolicy} {cmd cmd' : Command}

theorem parsed_of_mapM {wire : List WireCapability} {grants : List RuntimeCapability}
    (h : wire.mapM RuntimeCapability.parse = .ok grants) : ∀ c ∈ grants, c.Parsed := by
  induction wire generalizing grants with
  | nil =>
      obtain rfl := Except.ok.inj h
      exact fun c hc => absurd hc List.not_mem_nil
  | cons w wire ih =>
      rw [List.mapM_cons] at h
      obtain ⟨c, hc, h⟩ := bind_eq_ok.mp h
      obtain ⟨rest, hrest, h⟩ := bind_eq_ok.mp h
      obtain rfl := Except.ok.inj h
      exact List.forall_mem_cons.mpr ⟨⟨w.str, hc⟩, ih hrest⟩

/-- The granted paths are plain: the grammar lets no others in. -/
theorem Parsed.plain (h : g.Parsed) : g.Plain := by
  obtain ⟨wire, hwire⟩ := h
  obtain ⟨grants, hgrants, heq⟩ := bind_eq_ok.mp hwire
  have hparsed : ∀ c ∈ g.capabilities.grants, c.Parsed := by
    rw [← Except.ok.inj heq]
    exact parsed_of_mapM hgrants
  intro p hp
  rcases hp with hread | hwrite
  · exact (hparsed _ hread).plain (.inl rfl)
  · exact (hparsed _ hwrite).plain (.inr rfl)

theorem restrains {env : Env} {e : Enforcer} (he : e.Documented) (hpolicy : g.Policy policy)
    (hplain : g.Plain) (happly : applyPolicy env policy cmd = .ok cmd')
    (hbare : cmd.preExec = []) : g.Restrains env.toKernel e cmd' := by
  have happly' := mapError_eq_ok.mp happly
  obtain ⟨htier, rfl⟩ | ⟨htier, -, -⟩ := apply_eq_ok.mp happly'
  · exact .inl ⟨hpolicy.tier.symm.trans htier, hbare⟩
  · have htier' : g.tier = .kernelLsm := hpolicy.tier.symm.trans htier
    exact .inr ⟨htier', Grants.confined he hpolicy hplain happly' htier' hbare⟩

end Grants

/-- A child of a component's call has the policy of the context. -/
theorem invokeCodeCapability_ok {env : Env} {registry : ProviderRegistry}
    {context : CodeCapabilityContext} {cancelled : Bool} {name paramsJson : String} {cmd : Command}
    {policy : SandboxPolicy}
    (h : invokeCodeCapability env registry context cancelled name paramsJson = .ok (cmd, policy)) :
    ∃ resolved, policy = context.policy
      ∧ applyPolicy env context.policy (hostCommand context.cwd resolved) = .ok cmd := by
  obtain ⟨⟨resolved, policy'⟩, hresolve, h⟩ := bind_eq_ok.mp h
  obtain ⟨⟨⟩, -, hresolve⟩ := bind_eq_ok.mp hresolve
  obtain ⟨params, -, hresolve⟩ := bind_eq_ok.mp hresolve
  obtain ⟨_, -, hresolve⟩ := bind_eq_ok.mp hresolve
  obtain ⟨rfl, rfl⟩ := Prod.mk.inj (Except.ok.inj hresolve)
  obtain ⟨⟨⟩, -, h⟩ := bind_eq_ok.mp h
  obtain ⟨-, h⟩ := ite_error_eq_ok.mp h
  obtain ⟨cmd', happly, h⟩ := bind_eq_ok.mp h
  obtain ⟨⟨⟩, -, h⟩ := bind_eq_ok.mp h
  obtain ⟨rfl, rfl⟩ := Prod.mk.inj (Except.ok.inj h)
  exact ⟨_, rfl, happly⟩

/-- In every state of every run: a job's child, and every child that a call of
a job's component gets, is restrained by the grants its session was opened
with, on the host it is made on. Where they are enforced, the child can read,
run and write exactly what the system's paths, the workspace and the paths
granted with that verb open, and has no system call of the filter's. -/
theorem children_are_confined {display : Error → String} {e : Enforcer} (he : e.Documented)
    {s₀ s : Server} {ls : List ServerLabel} (h₀ : (serverSystem display).init s₀)
    (hrun : (serverSystem display).run s₀ ls = some s) {id : JobId} {life : Life}
    (hlife : s.lives.lookup id = some life) :
    ∃ session env, s.engine.sessions.behind life.sessionId = some session
      ∧ Server.LaunchedOn display s₀ id life env ls
      ∧ (∀ cmd policy, life.work = .child cmd policy →
        session.grants.Restrains env.toKernel e cmd)
      ∧ ∀ bytes context, life.work = .component bytes context →
        ∀ env' registry cancelled name paramsJson cmd policy,
          invokeCodeCapability env' registry context cancelled name paramsJson = .ok (cmd, policy) →
            session.grants.Restrains env'.toKernel e cmd := by
  have hinv := LaunchInv.of_run h₀ hrun
  obtain ⟨env, g, hlaunched, hg, hstarts⟩ := hinv.lives id life hlife
  have hplain := (hinv.grants.parsed _ g hg).plain
  obtain ⟨session, hsession, rfl⟩ := Option.map_eq_some_iff.mp hg
  refine ⟨session, env, hsession, hlaunched, ?_⟩
  generalize hwork : life.work = work at hstarts
  cases hstarts with
  | @child other runnable cwd cmd hsame happly =>
      refine ⟨fun cmd' policy' heq => ?_, fun bytes context heq => (by cases heq)⟩
      obtain ⟨rfl, rfl⟩ := Work.child.inj heq
      have hpolicy : session.grants.Policy (runnable.policy other) := hsame ▸
        ⟨runnable.policy_tier other, runnable.policy_fsRead other, runnable.policy_fsWrite other⟩
      exact Grants.restrains he hpolicy hplain happly (by cases runnable <;> rfl)
  | @component other bytes cwd cap hsame =>
      refine ⟨fun cmd' policy' heq => (by cases heq), fun bytes' context heq => ?_⟩
      obtain ⟨-, rfl⟩ := Work.component.inj heq
      intro env' registry cancelled name paramsJson cmd policy hinvoke
      obtain ⟨resolved, rfl, happly⟩ := invokeCodeCapability_ok hinvoke
      exact Grants.restrains he (hsame ▸ ⟨SandboxPolicy.tier_foldl, rfl, rfl⟩) hplain happly rfl

/-! ### A child under Landlock -/

/-- A host with Landlock. -/
def landlockHost : Env := { plainHost with landlockAvailable := true }

/-- A kernel without links, in which rulesets and filters stack. -/
def stackingKernel : Enforcer where
  place := PathBuf.place
  may hooks x right := ∀ handled rules, .restrictSelf handled rules ∈ hooks → right ∈ handled →
    Hierarchy.Grants (rules.map (·.toRule PathBuf.place)) x right
  denies hooks c := ∃ denied, .applyFilter denied ∈ hooks ∧ c ∈ denied

theorem stackingKernel_documented : stackingKernel.Documented where
  may_nil x right := by simp [stackingKernel]
  may_restrictSelf hooks handled rules x right := by
    simp [stackingKernel, or_imp, forall_and]
  may_applyFilter hooks denied x right := by simp [stackingKernel]
  denies_nil c := by simp [stackingKernel]
  denies_restrictSelf hooks handled rules c := by simp [stackingKernel]
  denies_applyFilter hooks denied c := by
    simp [stackingKernel, or_and_right, exists_or]

/-- A session over `/proj`, with Landlock and no grant but to spawn, starts a
command. -/
def landlockRun : List ServerLabel :=
  let next (call : Nat) : ServerLabel := .advance call landlockHost .unixEpoch
  [.sessionOpen landlockHost ⟨"/proj", .kernelLsm, [⟨"proc.spawn"⟩]⟩ (some ⟨"ct_1"⟩), next 0,
    .request (.jobStart (request (.command "true") [])), next 1, next 1, next 1]

theorem landlockRun_host {call : Nat} {env : Env} {now : SystemTime}
    (h : .advance call env now ∈ landlockRun) : env = landlockHost := by
  simp only [landlockRun, List.mem_cons, List.not_mem_nil, reduceCtorEq, false_or, or_false,
    ServerLabel.advance.injEq] at h
  rcases h with ⟨-, rfl, -⟩ | ⟨-, rfl, -⟩ | ⟨-, rfl, -⟩ | ⟨-, rfl, -⟩ <;> rfl

/-- The work is a child's. -/
def Work.isChild : Work → Bool
  | .child _ _ => true
  | .component _ _ => false

/-- The command runs what the system has, reads the workspace and does not write
it, and cannot trace. -/
theorem children_are_confined_landlock : ∃ s life cmd policy,
    (serverSystem fun _ => "").run .launched landlockRun = some s
      ∧ s.lives.lookup ⟨"j_1"⟩ = some life ∧ life.work = .child cmd policy
      ∧ stackingKernel.may cmd.preExec (PathBuf.ofString "/usr/bin/env").place .execute
      ∧ stackingKernel.may cmd.preExec (PathBuf.ofString "/proj/a").place .readFile
      ∧ ¬stackingKernel.may cmd.preExec (PathBuf.ofString "/proj/a").place .writeFile
      ∧ stackingKernel.denies cmd.preExec .ptrace := by
  have hend : ((serverSystem fun _ => "").run .launched landlockRun).map (fun s =>
      (s.lives.lookup ⟨"j_1"⟩).any (fun life => life.sessionId = ⟨"s_1"⟩ && life.work.isChild)
      && decide ((s.engine.sessions.grants ⟨"s_1"⟩).map
          (fun g => (g.workspace.root, g.tier, g.capabilities.grants))
        = some (.ofString "/proj", .kernelLsm, [.procSpawn]))) = some true := by decide +kernel
  obtain ⟨s, hrun, hp⟩ := Option.map_eq_some_iff.mp hend
  simp only [Bool.and_eq_true, decide_eq_true_eq, Option.any_eq_true] at hp
  obtain ⟨⟨life, hlife, hsid, hchild⟩, hgrants⟩ := hp
  obtain ⟨session, env, hsession, hlaunched, hall, -⟩ := children_are_confined
    stackingKernel_documented (Server.launched_init fun _ => "") hrun hlife
  rw [SessionStore.grants, ← hsid, hsession, Option.map_some, Option.map_some,
    Option.some.injEq, Prod.mk.injEq, Prod.mk.injEq] at hgrants
  obtain ⟨hroot, htier, hcaps⟩ := hgrants
  obtain ⟨call, now, hmem⟩ := hlaunched.mem
  obtain rfl := landlockRun_host hmem
  have hproj : (PathBuf.ofString "/proj").Plain := ⟨by decide, by decide⟩
  have hq : (PathBuf.ofString "/proj/a").Plain := ⟨by decide, by decide⟩
  have henv : (PathBuf.ofString "/usr/bin/env").Plain := ⟨by decide, by decide⟩
  cases hwork : life.work with
  | component bytes context =>
      rw [hwork] at hchild
      cases hchild
  | child cmd policy =>
      refine ⟨s, life, cmd, policy, hrun, hlife, hwork, ?_⟩
      rcases hall cmd policy hwork with ⟨hnone, -⟩ | ⟨-, hconf⟩
      · exact absurd (htier.symm.trans hnone) (by decide)
      · have hnamed := hconf.named ⟨hroot ▸ hproj, fun _ _ => rfl⟩
        refine ⟨(hnamed _ henv _ (by decide)).2 (by decide) (.inl ⟨by decide, .inl ?_⟩),
          (hnamed _ hq _ (by decide)).2 (by decide) (.inl ⟨by decide, .inr (.inl ?_)⟩),
          fun hmay => ?_, (hconf.denies _).mpr (by decide)⟩
        · exact ⟨.ofString "/usr", by decide, rfl, by decide⟩
        · rw [Workspace.contains, hroot]
          decide
        · rcases (hnamed _ hq _ (by decide)).1 hmay with ⟨hread, -⟩ | ⟨-, hwrite⟩
          · exact absurd hread (by decide)
          · rw [CapabilitySet.permits, hcaps] at hwrite
            cases hwrite

end Axp
