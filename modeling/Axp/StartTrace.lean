import Axp.AuditTrail
import Axp.Signals

/-!
# A job exists iff it started

`start` touches the engine only once nothing can fail any more: up to and
including the spawn it works on what it has cloned out of the session, and from
the id on every step succeeds. `Started` lists what the steps after the spawn
leave behind in the four places they write to.

Other requests run between these steps. Of an engine that they share, the steps
before the insertion still change nothing; and when the task is spawned, what
`start` has written is still there, except what another request is entitled to
take away: a cancellation takes the entry, and a session that is gone gets no
event (`Launching`).
-/

namespace Axp

open Lts Directory

namespace SessionStore

variable {store : SessionStore} {sid : SessionId} {session : Session} {kind : AuditEventKind}
  {now : SystemTime}

/-- For a live session, recording is writing through a handle. -/
theorem record_of_get (h : store.get sid = some session) :
    store.record sid kind now = store.write sid kind now := by
  unfold record write
  rw [h]

theorem kinds_write (store : SessionStore) (sid sid' : SessionId) (kind : AuditEventKind)
    (now : SystemTime) : ((store.write sid kind now).behind sid').map (·.kinds)
      = (store.behind sid').map fun session =>
        session.kinds ++ if sid' = sid then [kind] else [] := by
  rw [behind_write]
  by_cases hsid : sid' = sid
  · rw [if_pos hsid, if_pos hsid, Option.map_map, hsid]
    exact Option.map_congr fun session _ => session.kinds_recordAudit kind now
  · simp only [if_neg hsid, List.append_nil]

end SessionStore

/-! ## A start in one piece -/

namespace JobEngine

/-- What a start that succeeds has done to an engine when its task is spawned:
the next id, which nothing knew before, has a running job of the session, one
entry in the cancel table and one event in the session's log, and nothing else
has changed. -/
structure Started (self : JobEngine) (req : JobStartRequest) (id : JobId) (self' : JobEngine) :
    Prop where
  fresh : self.jobs.get id = none ∧ self.cancels.lookup id = none
    ∧ ∀ sid, self.sessions.about sid id = []
  counter : id = mintedJob self.nextId ∧ self'.nextId = self.nextId + 1
  job : ∃ job, job.id = id ∧ job.sessionId = req.sessionId ∧ job.status = .running
    ∧ ∀ id', self'.jobs.get id' = if id' = id then some job else self.jobs.get id'
  index : ∀ sid, self'.jobs.listForSession sid
    = self.jobs.listForSession sid ++ if sid = req.sessionId then [id] else []
  cancel : ∃ entry, ∀ id', self'.cancels.lookup id'
    = if id' = id then some entry else self.cancels.lookup id'
  audit : ∀ sid, (self'.sessions.behind sid).map (·.kinds)
    = (self.sessions.behind sid).map fun session =>
      session.kinds ++ if sid = req.sessionId then [.jobStarted id] else []
  task : ∃ work, self'.tasks = self.tasks ++ [⟨id, req.sessionId, work⟩]

variable {env : Env} {now : SystemTime} {self self' : JobEngine} {req : JobStartRequest}
  {id : JobId} {session : Session} {launch : Launch}

/-- `start`, by what stands before the id. -/
theorem start_cases (self : JobEngine) (env : Env) (now : SystemTime) (req : JobStartRequest) :
    (∃ e, self.start env now req = (.error e, self)) ∨
      ∃ session launch, self.sessions.get req.sessionId = some session
        ∧ prepare env self.registry self.logByteCap session req = .ok launch
        ∧ self.start env now req = (.ok (mintedJob self.nextId),
          ((((self.insertRunningJob req launch.cwd now).2.registerCancel (mintedJob self.nextId)
            launch.work.cancelEntry).recordSessionAudit req.sessionId
              (.jobStarted (mintedJob self.nextId)) now).spawnTask
                ⟨mintedJob self.nextId, req.sessionId, launch.work⟩)) := by
  unfold start
  cases hsession : self.sessions.get req.sessionId with
  | none => exact Or.inl ⟨_, rfl⟩
  | some session =>
      cases hprepare : prepare env self.registry self.logByteCap session req with
      | error e => exact Or.inl ⟨e, by simp only [hprepare]⟩
      | ok launch => exact Or.inr ⟨session, launch, rfl, hprepare, by simp only [hprepare]; rfl⟩

/-- A start that fails has done nothing. -/
theorem start_error {e : Error} (h : self.start env now req = (.error e, self')) :
    self' = self := by
  rcases self.start_cases env now req with ⟨e', he⟩ | ⟨session, launch, -, -, hok⟩
  · exact (Prod.mk.inj (h.symm.trans he)).2
  · cases h.symm.trans hok

/-- A start that succeeds, on an engine that does not know the next id. -/
theorem started (hjob : self.jobs.get (mintedJob self.nextId) = none)
    (hcancel : self.cancels.lookup (mintedJob self.nextId) = none)
    (habout : ∀ sid, self.sessions.about sid (mintedJob self.nextId) = [])
    (h : self.start env now req = (.ok id, self')) : self.Started req id self' := by
  rcases self.start_cases env now req with ⟨e, he⟩ | ⟨session, launch, hget, -, hok⟩
  · cases h.symm.trans he
  · obtain ⟨hid, rfl⟩ := Prod.mk.inj (h.symm.trans hok)
    obtain rfl := Except.ok.inj hid
    refine ⟨⟨hjob, hcancel, habout⟩, ⟨rfl, rfl⟩, ?_, ?_, ?_, ?_, ?_⟩
    · exact ⟨_, rfl, rfl, rfl, self.jobs.get_inserted _⟩
    · exact self.jobs.listForSession_inserted _
    · refine ⟨launch.work.cancelEntry, fun id' => ?_⟩
      by_cases hid' : id' = mintedJob self.nextId
      · rw [if_pos hid', hid']
        exact AList.lookup_insert _
      · rw [if_neg hid']
        exact AList.lookup_insert_ne hid'
    · intro sid
      have hrecord : self.sessions.record req.sessionId (.jobStarted (mintedJob self.nextId)) now
          = self.sessions.write req.sessionId (.jobStarted (mintedJob self.nextId)) now :=
        SessionStore.record_of_get hget
      exact (congrArg (fun store : SessionStore => (store.behind sid).map (·.kinds)) hrecord).trans
        (self.sessions.kinds_write req.sessionId sid _ now)
    · exact ⟨launch.work, rfl⟩

end JobEngine

/-! ## A start lock by lock -/

namespace Server

variable {s : Server} {display : Error → String} {call : Nat} {req : JobStartRequest} {id : JobId}
  {life : Life} {env : Env} {now : SystemTime}

theorem step_life {job : Job} (hlife : s.lives.lookup id = some life)
    (hjob : s.engine.jobs.get id = some job) (input : LifeInput) :
    (serverSystem display).step s (.life id input now)
      = s.lifeStep display id life job now life.pc input := by
  simp only [serverSystem, hlife, hjob]

/-- The steps of `start` after the insertion, with no other step between them. -/
theorem launch_in_a_row {work : Work} {job : Job} {session : Session}
    (hlife : s.lives.lookup id = some ⟨req.sessionId, work, none, .registering⟩)
    (hjob : s.engine.jobs.get id = some job)
    (hsession : s.engine.sessions.get req.sessionId = some session) :
    ∃ s', (serverSystem display).run s (List.replicate 4 (.life id .next now)) = some s'
      ∧ s'.calls = s.calls ∧ s'.observed = s.observed
      ∧ s'.lives.lookup id = some ⟨req.sessionId, work, some s.channels, .running work.task⟩
      ∧ s'.engine = ((s.engine.registerCancel id work.cancelEntry).recordSessionAudit
        req.sessionId (.jobStarted id) now).spawnTask ⟨id, req.sessionId, work⟩ := by
  let life : Life := ⟨req.sessionId, work, some s.channels, .startAuditing⟩
  let registered : Server := { s with
    engine := s.engine.registerCancel id work.cancelEntry
    senders := s.senders.insert id s.channels
    channels := s.channels + 1
    lives := s.lives.insert id life }
  let found := registered.move id life .startRecording
  let recorded := (found.writeAudit req.sessionId (.jobStarted id) now).move id life .spawning
  let spawned : Server := { recorded.move id life (.running work.task) with
    engine := recorded.engine.spawnTask ⟨id, req.sessionId, work⟩ }
  have hregistered : registered.lives.lookup id = some life := AList.lookup_insert _
  have hfound : found.lives.lookup id = some { life with pc := .startRecording } :=
    AList.lookup_insert _
  have hrecorded : recorded.lives.lookup id = some { life with pc := .spawning } :=
    AList.lookup_insert _
  have hregister : (serverSystem display).step s (.life id .next now) = some registered :=
    step_life hlife hjob .next
  have hfind : (serverSystem display).step registered (.life id .next now) = some found := by
    have hknown : registered.engine.sessions.get life.sessionId = some session := hsession
    rw [step_life hregistered hjob .next]
    show registered.lifeStep display id life job now .startAuditing .next = some found
    rw [lifeStep, hknown]
  have hrecord : (serverSystem display).step found (.life id .next now) = some recorded :=
    step_life hfound hjob .next
  have hspawn : (serverSystem display).step recorded (.life id .next now) = some spawned :=
    step_life hrecorded hjob .next
  refine ⟨spawned, ?_, rfl, rfl, AList.lookup_insert _, ?_⟩
  · exact System.run_cons.mpr ⟨_, hregister, System.run_cons.mpr ⟨_, hfind,
      System.run_cons.mpr ⟨_, hrecord, System.run_cons.mpr ⟨_, hspawn, rfl⟩⟩⟩⟩
  · have hwrite : s.engine.sessions.record req.sessionId (.jobStarted id) now
        = s.engine.sessions.write req.sessionId (.jobStarted id) now :=
      SessionStore.record_of_get hsession
    exact (congrArg (fun store : SessionStore => JobEngine.spawnTask
      { s.engine.registerCancel id work.cancelEntry with sessions := store }
      ⟨id, req.sessionId, work⟩) hwrite).symm

theorem step_call {c : ServerCall} (hc : s.calls.lookup call = some c) :
    (serverSystem display).step s (.advance call env now) = some (s.advance call env now c) := by
  simp only [serverSystem, hc, Option.map_some]

/-- The steps of a start that fails, with no other step between them. -/
theorem fail_in_a_row {session : Session} {e : Error}
    (hc : s.calls.lookup call = some (.starting req))
    (hsession : s.engine.sessions.get req.sessionId = some session)
    (hprepare : prepare env s.engine.registry s.engine.logByteCap session req = .error e) :
    ∃ s', (serverSystem display).run s (List.replicate 2 (.advance call env now)) = some s'
      ∧ s'.calls.lookup call = none ∧ s'.observed = s.observed ∧ s'.engine = s.engine := by
  let found := s.goOn call (.preparing req session)
  have hfind : (serverSystem display).step s (.advance call env now) = some found := by
    rw [step_call hc]
    simp only [advance, hsession]
    rfl
  have hfail : (serverSystem display).step found (.advance call env now)
      = some (found.endCall call) := by
    have hfound : found.calls.lookup call = some (.preparing req session) := AList.lookup_insert _
    rw [step_call hfound]
    simp only [advance, found, goOn, hprepare]
  exact ⟨found.endCall call, System.run_cons.mpr ⟨_, hfind, System.run_cons.mpr ⟨_, hfail, rfl⟩⟩,
    AList.lookup_erase _ _, rfl, rfl⟩

/-- The steps of a start up to the insertion, with no other step between them. -/
theorem insert_in_a_row {session : Session} {launch : Launch}
    (hc : s.calls.lookup call = some (.starting req))
    (hsession : s.engine.sessions.get req.sessionId = some session)
    (hprepare : prepare env s.engine.registry s.engine.logByteCap session req = .ok launch) :
    ∃ s', (serverSystem display).run s (List.replicate 3 (.advance call env now)) = some s'
      ∧ s'.calls.lookup call = none ∧ s'.observed = s.observed
      ∧ s'.engine = (s.engine.insertRunningJob req launch.cwd now).2
      ∧ s'.lives.lookup (mintedJob s.engine.nextId)
        = some ⟨req.sessionId, launch.work, none, .registering⟩ := by
  let found := s.goOn call (.preparing req session)
  let prepared := found.goOn call (.inserting req launch)
  have hfind : (serverSystem display).step s (.advance call env now) = some found := by
    rw [step_call hc]
    simp only [advance, hsession]
    rfl
  have hprep : (serverSystem display).step found (.advance call env now) = some prepared := by
    have hfound : found.calls.lookup call = some (.preparing req session) := AList.lookup_insert _
    rw [step_call hfound]
    simp only [advance, found, goOn, hprepare]
    rfl
  have hprepared : prepared.calls.lookup call = some (.inserting req launch) :=
    AList.lookup_insert _
  exact ⟨_, System.run_cons.mpr ⟨_, hfind, System.run_cons.mpr ⟨_, hprep,
    System.run_cons.mpr ⟨_, step_call hprepared, rfl⟩⟩⟩, AList.lookup_erase _ _, rfl, rfl,
    AList.lookup_insert _⟩

/-- The steps of a start, with no other step between them, are `start`. They
tell the callers nothing, and the job whose id they answer is at its task. -/
theorem start_in_a_row (hc : s.calls.lookup call = some (.starting req)) (env : Env)
    (now : SystemTime) :
    ∃ ls s', (∀ l ∈ ls, l = .advance call env now
        ∨ l = .life (mintedJob s.engine.nextId) .next now)
      ∧ (serverSystem display).run s ls = some s' ∧ s'.calls.lookup call = none
      ∧ s'.observed = s.observed ∧ s'.engine = (s.engine.start env now req).2
      ∧ ∀ id, (s.engine.start env now req).1 = .ok id → ∃ life, s'.lives.lookup id = some life
        ∧ life.sessionId = req.sessionId ∧ life.pc = .running life.work.task := by
  cases hsession : s.engine.sessions.get req.sessionId with
  | none =>
      have hstart : s.engine.start env now req
          = (.error (.sessionNotFound req.sessionId), s.engine) := by
        simp only [JobEngine.start, hsession]
      refine ⟨[.advance call env now], s.endCall call,
        fun l hl => Or.inl (List.mem_singleton.mp hl), ?_, AList.lookup_erase _ _, rfl, ?_⟩
      · refine System.run_cons.mpr ⟨_, step_call hc, ?_⟩
        simp only [advance, hsession, System.run_nil]
      · rw [hstart]
        exact ⟨rfl, fun id h => by cases h⟩
  | some session =>
      cases hprepare : prepare env s.engine.registry s.engine.logByteCap session req with
      | error e =>
          have hstart : s.engine.start env now req = (.error e, s.engine) := by
            simp only [JobEngine.start, hsession, hprepare]
          obtain ⟨s', hrun, hended, htold, hengine⟩ := fail_in_a_row hc hsession hprepare
          refine ⟨_, s', fun l hl => Or.inl (List.eq_of_mem_replicate hl), hrun, hended, htold, ?_⟩
          rw [hstart]
          exact ⟨hengine, fun id h => by cases h⟩
      | ok launch =>
          obtain ⟨m, hrun, hended, htold, hengine, hlife⟩ := insert_in_a_row hc hsession hprepare
          have hsession' : m.engine.sessions.get req.sessionId = some session := by
            rw [hengine]
            exact hsession
          have hjob : m.engine.jobs.get (mintedJob s.engine.nextId)
              = some (Job.launched (mintedJob s.engine.nextId) req.sessionId req.payload launch.cwd
                s.engine.logByteCap now) := by
            rw [hengine]
            exact AList.lookup_insert _
          obtain ⟨s', hrun', hcalls, htold', hlife', hengine'⟩ :=
            launch_in_a_row hlife hjob hsession'
          refine ⟨_, s', ?_, System.run_append.mpr ⟨m, hrun, hrun'⟩, by rw [hcalls, hended],
            htold'.trans htold, ?_, fun id hid => ?_⟩
          · intro l hl
            exact (List.mem_append.mp hl).imp List.eq_of_mem_replicate List.eq_of_mem_replicate
          · simp only [JobEngine.start, hsession, hprepare]
            rw [hengine', hengine]
            rfl
          · simp only [JobEngine.start, hsession, hprepare] at hid
            obtain rfl := Except.ok.inj hid
            exact ⟨_, hlife', rfl, rfl⟩

/-- Up to the end of `prepare` a start changes nothing but its own call. -/
theorem prepare_unchanged (h : s.calls.lookup call = some (.starting req)
      ∨ ∃ session, s.calls.lookup call = some (.preparing req session)) (env : Env)
    (now : SystemTime) :
    ∃ s', (serverSystem display).step s (.advance call env now) = some s'
      ∧ s'.engine = s.engine ∧ s'.lives = s.lives := by
  rcases h with hc | ⟨session, hc⟩
  · refine ⟨_, step_call hc, ?_⟩
    cases hsession : s.engine.sessions.get req.sessionId <;> simp only [advance, hsession] <;>
      exact ⟨rfl, rfl⟩
  · refine ⟨_, step_call hc, ?_⟩
    cases hprepare : prepare env s.engine.registry s.engine.logByteCap session req <;>
      simp only [advance, hprepare] <;> exact ⟨rfl, rfl⟩

/-- What a start has left behind when its task is about to be spawned, in a
server where other requests have run in the meantime: a running job of the
session, its cancel entry unless a cancellation has succeeded, and, in a
session that is still live, one event. -/
structure Launching (s : Server) (id : JobId) (life : Life) : Prop where
  job : ∃ job, s.engine.jobs.get id = some job ∧ job.sessionId = life.sessionId
    ∧ job.status = .running
  cancel : s.engine.cancels.lookup id = none ↔ ∃ sid, (sid, id) ∈ s.observed.successes
  audit : s.engine.sessions.get life.sessionId ≠ none →
    s.engine.sessions.about life.sessionId id = [.jobStarted id]
  lost : s.engine.sessions.about life.sessionId id <+: [.jobStarted id]
  others : ∀ sid, sid ≠ life.sessionId → s.engine.sessions.about sid id = []

end Server

/-- A job whose cancellation is registered and that has not ended has its entry
unless a cancellation of it has succeeded. -/
theorem SignalInv.entry_iff {s : Server} (h : SignalInv s) {id : JobId} {life : Life}
    (hlife : s.lives.lookup id = some life) (hregistered : life.pc.registered = true)
    (herased : life.pc.isErased = false) :
    s.engine.cancels.lookup id = none ↔ ∃ sid, (sid, id) ∈ s.observed.successes := by
  have hsuccess : (∃ sid, (sid, id) ∈ s.observed.successes) ↔ s.observed.reports id ≠ 0 := by
    rw [← Observed.signalled_iff, Observed.signalled, List.any_eq_true]
    constructor
    · rintro ⟨sid, hmem⟩
      exact ⟨_, hmem, decide_eq_true rfl⟩
    · rintro ⟨⟨sid, id'⟩, hmem, hid⟩
      exact ⟨sid, of_decide_eq_true hid ▸ hmem⟩
  rw [h.table, hsuccess]
  cases h.armed id life hlife with
  | unregistered hpc _ _ _ => rw [hregistered] at hpc; cases hpc
  | held ch _ _ _ hsender _ hzero =>
      rw [hsender, hzero]
      exact iff_of_false (Option.some_ne_none ch) fun hne => hne rfl
  | signalled ch _ _ hsender _ hone =>
      rw [hsender, hone]
      exact iff_of_true rfl Nat.one_ne_zero
  | dropped ch hpc _ _ _ _ => rw [herased] at hpc; cases hpc

/-- A life at its spawn. -/
theorem Server.launching {s : Server} (hcancels : CancelsInv s) (haudit : AuditInv s) {id : JobId}
    {life : Life} (hlife : s.lives.lookup id = some life) (hpc : life.pc = .spawning) :
    s.Launching id life := by
  obtain ⟨job, hget, hfollows⟩ := hcancels.jobs.lives id life hlife
  have htrail := haudit.trail.jobs id life hlife
  rw [hpc] at htrail
  refine ⟨⟨job, hget, hfollows.session, ?_⟩, ?_, ?_, htrail.part, ?_⟩
  · exact (hfollows.running (by rw [hpc]; rfl)).1
  · exact hcancels.signals.entry_iff hlife (by rw [hpc]; rfl) (by rw [hpc]; rfl)
  · exact fun hlive => htrail.whole (Or.inl hlive)
  · intro sid hne
    refine haudit.trail.others id sid fun life' hlife' => ?_
    obtain rfl := Option.some.inj (hlife.symm.trans hlife')
    exact hne.symm

/-- No state of a run knows the next id, so a start there leaves just its
trace. -/
theorem Server.started_of_reach {display : Error → String} {s : Server}
    (hs : Reach (serverSystem display) s) {env : Env} {now : SystemTime} {req : JobStartRequest}
    {id : JobId} {self' : JobEngine} (h : s.engine.start env now req = (.ok id, self')) :
    s.lives.lookup id = none ∧ s.engine.Started req id self' := by
  have hcancels := CancelsInv.reach hs
  have hfresh := hcancels.jobs.fresh_life
  have hcancel : s.engine.cancels.lookup (mintedJob s.engine.nextId) = none :=
    (hcancels.signals.table _).mpr (hcancels.signals.idle _ hfresh).1
  have habout : ∀ sid, s.engine.sessions.about sid (mintedJob s.engine.nextId) = [] := by
    refine fun sid => (AuditInv.reach hs).trail.others _ sid fun life hlife => ?_
    rw [hfresh] at hlife
    cases hlife
  have hstarted := JobEngine.started hcancels.jobs.fresh hcancel habout h
  refine ⟨?_, hstarted⟩
  obtain ⟨-, ⟨rfl, -⟩, -⟩ := hstarted
  exact hfresh

/-- A start that fails leaves the engine as it was, whatever the engine. In
every state of every run, a start in one piece either fails or leaves exactly
the trace of its job; the steps of a start up to the end of its preparation,
at which it fails if it fails at all, leave the engine as it is while other
requests run; and when the task is about to be spawned, what the start has
written is in place. -/
theorem start_leaves_no_trace {display : Error → String} {s : Server}
    (hs : Reach (serverSystem display) s) :
    (∀ (self self' : JobEngine) env now req e,
        self.start env now req = (.error e, self') → self' = self)
      ∧ (∀ env now req, (∃ e, s.engine.start env now req = (.error e, s.engine))
        ∨ ∃ id self', s.engine.start env now req = (.ok id, self')
          ∧ s.engine.Started req id self')
      ∧ (∀ call req env now, s.calls.lookup call = some (.starting req)
          ∨ (∃ session, s.calls.lookup call = some (.preparing req session)) →
        ∃ s', (serverSystem display).step s (.advance call env now) = some s'
          ∧ s'.engine = s.engine ∧ s'.lives = s.lives)
      ∧ ∀ id life, s.lives.lookup id = some life → life.pc = .spawning → s.Launching id life := by
  have hcancels := CancelsInv.reach hs
  have haudit := AuditInv.reach hs
  refine ⟨fun self self' env now req e => JobEngine.start_error, ?_, ?_, ?_⟩
  · intro env now req
    cases hstart : s.engine.start env now req with
    | mk answer self' =>
        cases answer with
        | error e => exact Or.inl ⟨e, by rw [JobEngine.start_error hstart]⟩
        | ok id =>
            exact Or.inr ⟨id, self', rfl, (Server.started_of_reach hs hstart).2⟩
  · exact fun call req env now hc => Server.prepare_unchanged hc env now
  · exact fun id life hlife hpc => Server.launching hcancels haudit hlife hpc

/-- The first job of a session is about to be spawned, and a second is started. -/
theorem start_leaves_no_trace_second : ∃ s life self', Reach (serverSystem fun _ => "") s
    ∧ s.lives.lookup ⟨"j_1"⟩ = some life ∧ s.Launching ⟨"j_1"⟩ life
    ∧ s.engine.start plainHost .unixEpoch (request (.command "true") []) = (.ok ⟨"j_2"⟩, self')
    ∧ s.engine.Started (request (.command "true") []) ⟨"j_2"⟩ self' := by
  obtain ⟨s, hs, hp⟩ := ReachVia.of_run (G := fun _ _ => True) (Server.launched_init fun _ => "")
    (insertRun ++ List.replicate 3 (.life ⟨"j_1"⟩ .next .unixEpoch))
    (fun s => (s.lives.lookup ⟨"j_1"⟩).map (·.pc) = some .spawning
      ∧ (s.engine.start plainHost .unixEpoch (request (.command "true") [])).1 = .ok ⟨"j_2"⟩)
    (by decide +kernel)
  obtain ⟨hpc, hok⟩ := of_decide_eq_true hp
  obtain ⟨life, hlife, hspawning⟩ := Option.map_eq_some_iff.mp hpc
  obtain ⟨-, hatomic, -, hlaunching⟩ := start_leaves_no_trace hs
  rcases hatomic plainHost .unixEpoch (request (.command "true") []) with
    ⟨e, he⟩ | ⟨id, self', hstart, hstarted⟩
  · rw [he] at hok
    cases hok
  · rw [hstart] at hok
    obtain rfl := Except.ok.inj hok
    exact ⟨s, life, self', hs, hlife, hlaunching _ life hlife hspawning, hstart, hstarted⟩

end Axp
