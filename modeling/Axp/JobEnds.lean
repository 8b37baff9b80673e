import Axp.Output
import Axp.Potential
import Axp.Signals

/-!
# Every job ends

A job's steps are of three kinds: those of `start` and `finish_job`, which it
takes once; a turn of the drainer's loop, which reads something new, finds a
pipe at its end, or takes the cancellation; and a turn that finds nothing and
suspends. Only the last kind can be repeated for ever. What there is to read is
bounded by the room that is left in the log, as the child is killed when it has
written more.

`Server.rank` counts this. It is a potential that all steps of the job but the
suspensions lower, and as long as the job is not over there is such a step
(`jobs_end`).
-/

namespace Axp

open Lts Directory

/-! ## The drainer -/

/-- The bytes that still fit in the log. -/
def Job.room (job : Job) : Nat := job.replayLog.byteCap.toNat - job.replayLog.byteTotal

/-- A push fills its room, or finds too little. -/
theorem Job.pushLog_room (job : Job) (e : AppendLogEvent) :
    ((∃ seq, (job.pushLog e).1 = .ok seq) ∧ (job.pushLog e).2.room + e.data.len = job.room)
      ∨ ((∃ err, (job.pushLog e).1 = .error err) ∧ (job.pushLog e).2 = job) := by
  rcases Nat.lt_or_ge job.replayLog.byteCap.toNat (job.replayLog.byteTotal + e.data.len) with h | h
  · have happend := InMemoryJobReplayLog.append_of_lt h
    refine .inr ⟨⟨_, congrArg Prod.fst happend⟩, ?_⟩
    simp only [pushLog, happend]
  · obtain ⟨hseq, hevents, hcap⟩ := InMemoryJobReplayLog.append_of_le h
    refine .inl ⟨⟨_, hseq⟩, ?_⟩
    have htotal : (job.pushLog e).2.replayLog.byteTotal = job.replayLog.byteTotal + e.data.len := by
      show (job.replayLog.append e).2.byteTotal = _
      rw [(job.replayLog.append e).2.total_eq, hevents, job.replayLog.total_eq]
      simp [dataBytes, AppendLogEvent.at]
    have hcap' : (job.pushLog e).2.replayLog.byteCap = job.replayLog.byteCap := hcap
    rw [room, htotal, hcap', room]
    omega

/-- One for a flag that can still be set. -/
def unset (flag : Bool) : Nat := if flag then 0 else 1

namespace DrainState

/-- What can still be read, ended or taken. -/
def left (d : DrainState) (room : Nat) : Nat :=
  room + unset d.outDone + unset d.errDone + unset d.cancelled

/-- Two steps for each of them. -/
def rank (d : DrainState) (room : Nat) : Nat :=
  match d.pc with
  | .top => 2 * d.left room + 2
  | .polled => 2 * d.left room + 1
  | .waiting => 1

/-- A pipe that is not done is left. -/
theorem left_pos {d : DrainState} {stream : LogStream} (h : d.done stream = false) (room : Nat) :
    room + 1 ≤ d.left room := by
  have hflag : 1 ≤ unset d.outDone + unset d.errDone := by
    cases stream with
    | stdout =>
        rw [show d.outDone = false from h]
        exact Nat.le_add_right 1 _
    | stderr =>
        rw [show d.errDone = false from h]
        exact Nat.le_add_left 1 _
  unfold left
  omega

theorem left_setDone {d : DrainState} {stream : LogStream} (h : d.done stream = false)
    (room : Nat) : (d.setDone stream).left room + 1 = d.left room := by
  cases stream with
  | stdout =>
      show room + 0 + unset d.errDone + unset d.cancelled + 1 = d.left room
      rw [left, show unset d.outDone = 1 from congrArg unset h]
      omega
  | stderr =>
      show room + unset d.outDone + 0 + unset d.cancelled + 1 = d.left room
      rw [left, show unset d.errDone = 1 from congrArg unset h]
      omega

theorem left_cancelled {d : DrainState} (h : d.cancelled = false) (room : Nat) :
    ({ d with cancelled := true, killed := true } : DrainState).left room + 1 = d.left room := by
  show room + unset d.outDone + unset d.errDone + 0 + 1 = d.left room
  rw [left, h]
  rfl

theorem left_add (d : DrainState) (room n : Nat) : d.left (room + n) = d.left room + n := by
  unfold left
  omega

theorem rank_top {d : DrainState} (h : d.pc = .top) (room : Nat) :
    d.rank room = 2 * d.left room + 2 := by
  unfold rank
  rw [h]

theorem rank_polled {d : DrainState} (h : d.pc = .polled) (room : Nat) :
    d.rank room = 2 * d.left room + 1 := by
  unfold rank
  rw [h]

theorem rank_waiting {d : DrainState} (h : d.pc = .waiting) (room : Nat) : d.rank room = 1 := by
  unfold rank
  rw [h]

theorem rank_turn_le (d : DrainState) (room : Nat) : d.turn.rank room ≤ 2 * d.left room + 2 := by
  unfold turn
  split
  · exact Nat.le_add_left 1 _
  · exact Nat.le_refl _

end DrainState

/-- A step of a task: what it does next ranks lower, whatever comes of a
push. -/
def TaskAct.Lowers {σ : Type} (rank : σ → Nat → Nat) (job : Job) (n : Nat) : TaskAct σ → Prop
  | .silent next => rank next job.room < n
  | .pushLog event resume =>
      rank (resume (job.pushLog event).1) (job.pushLog event).2.room < n
  | .finish _ => 0 < n

/-- The input is the one that says that nothing is ready. -/
def DrainInput.isSuspend : DrainInput → Bool
  | .suspend => true
  | _ => false

/-- A step of the drainer is a suspension, which undoes its last one, or goes
down. -/
theorem drainer_lowers {d : DrainState} {input : DrainInput} {act : TaskAct DrainState}
    (h : drainer.act d input = some act) (job : Job) :
    act.Lowers DrainState.rank job (d.rank job.room)
      ∨ (input.isSuspend = true
        ∧ ∃ d', act = .silent d' ∧ d'.rank job.room = d.rank job.room + 1) := by
  unfold drainer at h
  simp only at h
  split at h
  · next hpc =>
      obtain ⟨hcancelled, h⟩ := Option.ite_none_left_eq_some.mp h
      obtain rfl := Option.some.inj h
      left
      show d.onCancel.rank job.room < d.rank job.room
      have hturn := DrainState.rank_turn_le { d with cancelled := true, killed := true } job.room
      have hleft := DrainState.left_cancelled (Bool.eq_false_iff.mpr hcancelled) job.room
      rw [DrainState.rank_top hpc, DrainState.onCancel]
      omega
  · next hpc =>
      obtain rfl := Option.some.inj h
      left
      show 2 * d.left job.room + 1 < d.rank job.room
      rw [DrainState.rank_top hpc]
      omega
  · next hpc =>
      obtain rfl := Option.some.inj h
      refine .inr ⟨rfl, _, rfl, ?_⟩
      show 2 * d.left job.room + 2 = d.rank job.room + 1
      rw [DrainState.rank_polled hpc]
  · next stream outcome hpc =>
      obtain ⟨hdone, h⟩ := Option.ite_none_left_eq_some.mp h
      have hopen := Bool.eq_false_iff.mpr hdone
      left
      rw [DrainState.rank_polled hpc]
      -- A pipe that is at its end, or fails, is one less.
      have hclosed : (d.setDone stream).turn.rank job.room < 2 * d.left job.room + 1 := by
        have hturn := DrainState.rank_turn_le (d.setDone stream) job.room
        have hleft := DrainState.left_setDone hopen job.room
        omega
      cases outcome with
      | data chunk now =>
          obtain ⟨⟨hchunk, -⟩, h⟩ := Option.ite_none_right_eq_some.mp h
          obtain rfl := Option.some.inj h
          rcases job.pushLog_room { stream := stream, data := chunk, timestamp := now } with
            ⟨⟨seq, hok⟩, hroom⟩ | ⟨⟨err, herr⟩, hsame⟩
          · show (d.onPushed _).rank _ < _
            change _ + chunk.len = _ at hroom
            have hturn := DrainState.rank_turn_le d
              (job.pushLog { stream := stream, data := chunk, timestamp := now }).2.room
            rw [← hroom, DrainState.left_add, hok, DrainState.onPushed]
            omega
          · show (d.onPushed _).rank _ < _
            have hpos := DrainState.left_pos hopen job.room
            rw [herr, hsame, DrainState.rank_waiting rfl]
            omega
      | eof =>
          obtain rfl := Option.some.inj h
          exact hclosed
      | failed =>
          obtain rfl := Option.some.inj h
          exact hclosed
  · next status hpc =>
      obtain rfl := Option.some.inj h
      left
      show 0 < d.rank job.room
      rw [DrainState.rank_waiting hpc]
      exact Nat.one_pos
  · cases h

/-! ## The other task, and the life around them -/

def CodeState.rank : CodeState → Nat
  | .running => 2
  | .ending _ => 1

/-- A step of the other task goes down: it has two. -/
theorem codeTask_lowers {display : Error → String} {c : CodeState} {input : CodeInput}
    {act : TaskAct CodeState} (h : (codeTask display).act c input = some act) (job : Job) :
    act.Lowers (fun c _ => c.rank) job c.rank := by
  unfold codeTask at h
  simp only at h
  split at h
  · obtain rfl := Option.some.inj h
    exact Nat.one_lt_two
  · obtain rfl := Option.some.inj h
    simp only [TaskAct.Lowers]
    split
    · exact Nat.one_lt_two
    · exact Nat.one_lt_two
  · obtain rfl := Option.some.inj h
    exact Nat.one_lt_two
  · obtain rfl := Option.some.inj h
    exact Nat.one_lt_two
  · obtain rfl := Option.some.inj h
    exact Nat.one_lt_two
  · obtain rfl := Option.some.inj h
    exact Nat.one_pos
  · cases h

def TaskState.rank (room : Nat) : TaskState → Nat
  | .drain d => d.rank room
  | .code c => c.rank

/-- The steps that are left of a life. -/
def LifePc.rank (work : Work) (room : Nat) : LifePc → Nat
  | .registering => work.task.rank room + 9
  | .startAuditing => work.task.rank room + 8
  | .startRecording => work.task.rank room + 7
  | .spawning => work.task.rank room + 6
  | .running task => task.rank room + 5
  | .finishing _ => 5
  | .notifying _ => 4
  | .finishAuditing _ => 3
  | .finishRecording _ => 2
  | .retiring _ => 1
  | .erased _ => 0

/-- In the loop a pipe is still open. -/
def DrainState.Looping (d : DrainState) : Prop :=
  d.pc ≠ .waiting → (d.outDone && d.errDone) = false

def LifePc.Looping : LifePc → Prop
  | .running (.drain d) => d.Looping
  | _ => True

/-- What a step of a task leads to, whatever comes of a push. -/
def TaskAct.Leads {σ : Type} (P : σ → Prop) : TaskAct σ → Prop
  | .silent next => P next
  | .pushLog _ resume => ∀ r, P (resume r)
  | .finish _ => True

theorem TaskAct.leads_true {σ : Type} (act : TaskAct σ) : act.Leads fun _ => True := by
  cases act with
  | silent next => trivial
  | pushLog event resume => exact fun _ => trivial
  | finish status => trivial

theorem drainer_looping {d : DrainState} {input : DrainInput} {act : TaskAct DrainState}
    (h : drainer.act d input = some act) (hloop : d.Looping) : act.Leads DrainState.Looping := by
  cases drainer_cases h with
  | cancel hpc hc => exact DrainState.turn_looping _
  | poll hpc => exact fun _ => hloop (by rw [hpc]; exact DrainPc.noConfusion)
  | suspend hpc => exact fun _ => hloop (by rw [hpc]; exact DrainPc.noConfusion)
  | data stream chunk now hpc hdone =>
      intro r
      cases r with
      | ok seq => exact DrainState.turn_looping _
      | error e => exact fun hne => absurd rfl hne
  | endOfPipe stream outcome hpc hout => exact DrainState.turn_looping _
  | reaped status hpc => trivial

def LifeInput.isSuspend : LifeInput → Bool
  | .drain input => input.isSuspend
  | _ => false

namespace Server

variable {s s' : Server} {id : JobId} {life : Life} {job : Job} {now : SystemTime}
  {display : Error → String}

/-- Where a job is, with its data. -/
structure At (s : Server) (id : JobId) (life : Life) (job : Job) : Prop where
  life : s.lives.lookup id = some life
  job : s.engine.jobs.get id = some job

theorem At.move (h : s.At id life job) (pc : LifePc) :
    (s.move id life pc).At id { life with pc := pc } job :=
  ⟨AList.lookup_insert _, h.job⟩

/-- Where a step of a job's life leads. -/
structure LifeMove (s' : Server) (id : JobId) (life : Life) (job : Job) (life' : Life)
    (job' : Job) : Prop where
  at' : s'.At id life' job'
  work : life'.work = life.work
  looping : life.pc.Looping → life'.pc.Looping

/-- The moves of a task. -/
theorem act_move {σ : Type} (P : σ → Prop) (wrap : σ → TaskState) (rank : σ → Nat → Nat)
    {act : TaskAct σ} (h : s.At id life job) (hlead : life.pc.Looping → act.Leads P)
    (hP : ∀ x, P x → (LifePc.running (wrap x)).Looping)
    (hrank : ∀ x room, (wrap x).rank room = rank x room) :
    ∃ life' job', LifeMove (s.act id life job wrap act) id life job life' job'
      ∧ (∀ n, act.Lowers rank job n → life'.pc.rank life.work job'.room < n + 5)
      ∧ ∀ next, act = .silent next →
        life'.pc.rank life.work job'.room = rank next job.room + 5 := by
  cases act with
  | silent next =>
      refine ⟨_, job, ⟨h.move (.running (wrap next)), rfl, fun hloop => hP _ (hlead hloop)⟩,
        fun n hlow => ?_, ?_⟩
      · rw [LifePc.rank, hrank]
        exact Nat.add_lt_add_right hlow 5
      · rintro _ ⟨⟩
        rw [LifePc.rank, hrank]
  | pushLog event resume =>
      refine ⟨{ life with pc := .running (wrap (resume (job.pushLog event).1)) },
        (job.pushLog event).2, ⟨⟨AList.lookup_insert _, ?_⟩, rfl,
          fun hloop => hP _ (hlead hloop _)⟩, fun n hlow => ?_, ?_⟩
      · show (s.engine.jobs.modify id _).get id = _
        rw [JobStore.get_modified, if_pos rfl, h.job]
        rfl
      · rw [LifePc.rank, hrank]
        exact Nat.add_lt_add_right hlow 5
      · rintro _ ⟨⟩
  | finish status =>
      refine ⟨_, job, ⟨h.move (.finishing status), rfl, fun _ => trivial⟩, fun n hlow => ?_, ?_⟩
      · exact Nat.lt_add_of_pos_left hlow
      · rintro _ ⟨⟩

theorem drain_move {d : DrainState} {input : DrainInput} (h : s.At id life job)
    (hpc : life.pc = .running (.drain d)) (hs : s.drain id life job d input = some s') :
    ∃ life' job', LifeMove s' id life job life' job'
      ∧ (life'.pc.rank life.work job'.room < d.rank job.room + 5
        ∨ input.isSuspend = true ∧ life'.pc.rank life.work job'.room = d.rank job.room + 6) := by
  have hmove : ∀ {t : Server} {act : TaskAct DrainState}, drainer.act d input = some act →
      t.At id life job → ∃ life' job',
        LifeMove (t.act id life job .drain act) id life job life' job'
        ∧ (life'.pc.rank life.work job'.room < d.rank job.room + 5
          ∨ input.isSuspend = true ∧ life'.pc.rank life.work job'.room = d.rank job.room + 6) := by
    intro t act hact ht
    obtain ⟨life', job', hmove, hlow, hsilent⟩ := act_move DrainState.Looping .drain
      DrainState.rank ht (fun hloop => drainer_looping hact (by rwa [hpc] at hloop))
      (fun _ hx => hx) fun _ _ => rfl
    refine ⟨life', job', hmove, ?_⟩
    rcases drainer_lowers hact job with hdown | ⟨hsuspend, d', rfl, hrank⟩
    · exact .inl (hlow _ hdown)
    · right
      rw [hsilent d' rfl, hrank]
      exact ⟨hsuspend, rfl⟩
  unfold drain at hs
  split at hs
  · obtain ⟨-, hs⟩ := Option.ite_none_right_eq_some.mp hs
    obtain ⟨act, hact, rfl⟩ := Option.map_eq_some_iff.mp hs
    exact hmove hact ⟨h.life, h.job⟩
  · obtain ⟨-, hs⟩ := Option.ite_none_right_eq_some.mp hs
    obtain ⟨act, hact, rfl⟩ := Option.map_eq_some_iff.mp hs
    exact hmove hact h
  · obtain ⟨act, hact, rfl⟩ := Option.map_eq_some_iff.mp hs
    exact hmove hact h

theorem code_move {c : CodeState} {input : CodeInput} (h : s.At id life job)
    (hs : s.code display id life job c input = some s') :
    ∃ life' job', LifeMove s' id life job life' job'
      ∧ life'.pc.rank life.work job'.room < c.rank + 5 := by
  have hmove : ∀ {t : Server} {act : TaskAct CodeState}, (codeTask display).act c input = some act →
      t.At id life job → ∃ life' job', LifeMove (t.act id life job .code act) id life job life' job'
        ∧ life'.pc.rank life.work job'.room < c.rank + 5 := by
    intro t act hact ht
    obtain ⟨life', job', hmove, hlow, -⟩ := act_move (fun _ => True) .code
      (fun c _ => c.rank) ht (fun _ => act.leads_true) (fun _ _ => trivial) fun _ _ => rfl
    exact ⟨life', job', hmove, hlow _ (codeTask_lowers hact job)⟩
  unfold code at hs
  split at hs
  · obtain ⟨-, hs⟩ := Option.ite_none_right_eq_some.mp hs
    obtain ⟨act, hact, rfl⟩ := Option.map_eq_some_iff.mp hs
    exact hmove hact ⟨h.life, h.job⟩
  · obtain ⟨act, hact, rfl⟩ := Option.map_eq_some_iff.mp hs
    exact hmove hact h

/-- A step of a job is a suspension of its drainer, or goes down. -/
theorem lifeStep_move {input : LifeInput} (h : s.At id life job)
    (hs : s.lifeStep display id life job now life.pc input = some s') :
    ∃ life' job', LifeMove s' id life job life' job'
      ∧ (life'.pc.rank life.work job'.room < life.pc.rank life.work job.room
        ∨ input.isSuspend = true
          ∧ life'.pc.rank life.work job'.room = life.pc.rank life.work job.room + 1) := by
  have hstep : ∀ {t : Server} {pc : LifePc}, t.engine.jobs = s.engine.jobs →
      t.lives = s.lives.insert id { life with pc := pc } → pc.Looping →
      pc.rank life.work job.room < life.pc.rank life.work job.room →
      ∃ life' job', LifeMove t id life job life' job'
        ∧ (life'.pc.rank life.work job'.room < life.pc.rank life.work job.room
          ∨ input.isSuspend = true
            ∧ life'.pc.rank life.work job'.room = life.pc.rank life.work job.room + 1) := by
    intro t pc hjobs hlives hloop hlt
    refine ⟨{ life with pc := pc }, job, ⟨⟨?_, ?_⟩, rfl, fun _ => hloop⟩, .inl hlt⟩
    · rw [hlives, AList.lookup_insert]
    · rw [hjobs]
      exact h.job
  unfold lifeStep at hs
  split at hs
  · next hpc =>
      obtain rfl := Option.some.inj hs
      refine ⟨_, job, ⟨⟨AList.lookup_insert _, h.job⟩, rfl, fun _ => trivial⟩, .inl ?_⟩
      rw [hpc]
      exact Nat.lt_succ_self _
  · next hpc =>
      split at hs
      · obtain rfl := Option.some.inj hs
        exact hstep rfl rfl trivial (by rw [hpc]; exact Nat.lt_succ_self _)
      · obtain rfl := Option.some.inj hs
        exact hstep rfl rfl trivial
          (by rw [hpc]; exact Nat.add_lt_add_left (by decide : 6 < 8) _)
  · next hpc =>
      obtain rfl := Option.some.inj hs
      exact hstep rfl rfl trivial (by rw [hpc]; exact Nat.lt_succ_self _)
  · next hpc =>
      obtain rfl := Option.some.inj hs
      refine hstep rfl rfl ?_ (by rw [hpc]; exact Nat.lt_succ_self _)
      cases life.work with
      | child cmd policy => exact fun _ => rfl
      | component bytes context => trivial
  · next d input hpc =>
      obtain ⟨life', job', hmove, hcase⟩ := drain_move h hpc hs
      rw [hpc]
      exact ⟨life', job', hmove, hcase⟩
  · next c input hpc =>
      obtain ⟨life', job', hmove, hdown⟩ := code_move h hs
      rw [hpc]
      exact ⟨life', job', hmove, .inl hdown⟩
  · next status hpc =>
      obtain rfl := Option.some.inj hs
      refine ⟨_, job.finish status.val now, ⟨⟨AList.lookup_insert _, ?_⟩, rfl, fun _ => trivial⟩,
        .inl ?_⟩
      · show (s.engine.jobs.modify id _).get id = _
        rw [JobStore.get_modified, if_pos rfl, h.job]
        rfl
      · rw [hpc]
        exact Nat.lt_succ_self 4
  · next status hpc =>
      obtain rfl := Option.some.inj hs
      exact hstep rfl rfl trivial (by rw [hpc]; exact Nat.lt_succ_self 3)
  · next status hpc =>
      split at hs
      · obtain rfl := Option.some.inj hs
        exact hstep rfl rfl trivial (by rw [hpc]; exact Nat.lt_succ_self 2)
      · obtain rfl := Option.some.inj hs
        exact hstep rfl rfl trivial (by rw [hpc]; show 1 < 3; decide)
  · next status hpc =>
      obtain rfl := Option.some.inj hs
      exact hstep rfl rfl trivial (by rw [hpc]; exact Nat.lt_succ_self 1)
  · next status hpc =>
      obtain rfl := Option.some.inj hs
      exact hstep rfl rfl trivial (by rw [hpc]; exact Nat.lt_succ_self 0)
  · cases hs

/-! ### Steps of the others -/

theorem act_at_ne {σ : Type} {wrap : σ → TaskState} (act : TaskAct σ) {id' : JobId} {life' : Life}
    {job' : Job} (h : s.At id life job) (hne : id ≠ id') :
    (s.act id' life' job' wrap act).At id life job := by
  cases act with
  | silent next => exact ⟨(AList.lookup_insert_ne hne).trans h.life, h.job⟩
  | pushLog event resume =>
      refine ⟨(AList.lookup_insert_ne hne).trans h.life, ?_⟩
      show (s.engine.jobs.modify id' _).get id = _
      rw [JobStore.get_modified, if_neg hne]
      exact h.job
  | finish status => exact ⟨(AList.lookup_insert_ne hne).trans h.life, h.job⟩

/-- A step of another job's life. -/
theorem lifeStep_at_ne {id' : JobId} {life' : Life} {job' : Job} {pc : LifePc} {input : LifeInput}
    (h : s.At id life job) (hne : id ≠ id')
    (hs : s.lifeStep display id' life' job' now pc input = some s') : s'.At id life job := by
  have hstep : ∀ {t : Server} {other : Life}, t.engine.jobs = s.engine.jobs →
      t.lives = s.lives.insert id' other → t.At id life job := by
    intro t other hjobs hlives
    refine ⟨?_, ?_⟩
    · rw [hlives, AList.lookup_insert_ne hne]
      exact h.life
    · rw [hjobs]
      exact h.job
  have hbranch : (s.branch id').At id life job := ⟨h.life, h.job⟩
  unfold lifeStep at hs
  split at hs
  · obtain rfl := Option.some.inj hs
    exact hstep rfl rfl
  · split at hs
    · obtain rfl := Option.some.inj hs
      exact hstep rfl rfl
    · obtain rfl := Option.some.inj hs
      exact hstep rfl rfl
  · obtain rfl := Option.some.inj hs
    exact hstep rfl rfl
  · obtain rfl := Option.some.inj hs
    exact hstep rfl rfl
  · unfold drain at hs
    split at hs
    · obtain ⟨act, -, rfl⟩ := Option.map_eq_some_iff.mp (Option.ite_none_right_eq_some.mp hs).2
      exact act_at_ne act hbranch hne
    · obtain ⟨act, -, rfl⟩ := Option.map_eq_some_iff.mp (Option.ite_none_right_eq_some.mp hs).2
      exact act_at_ne act h hne
    · obtain ⟨act, -, rfl⟩ := Option.map_eq_some_iff.mp hs
      exact act_at_ne act h hne
  · unfold code at hs
    split at hs
    · obtain ⟨act, -, rfl⟩ := Option.map_eq_some_iff.mp (Option.ite_none_right_eq_some.mp hs).2
      exact act_at_ne act hbranch hne
    · obtain ⟨act, -, rfl⟩ := Option.map_eq_some_iff.mp hs
      exact act_at_ne act h hne
  · obtain rfl := Option.some.inj hs
    refine ⟨(AList.lookup_insert_ne hne).trans h.life, ?_⟩
    show (s.engine.jobs.modify id' _).get id = _
    rw [JobStore.get_modified, if_neg hne]
    exact h.job
  · obtain rfl := Option.some.inj hs
    exact hstep rfl rfl
  · split at hs
    · obtain rfl := Option.some.inj hs
      exact hstep rfl rfl
    · obtain rfl := Option.some.inj hs
      exact hstep rfl rfl
  · obtain rfl := Option.some.inj hs
    exact hstep rfl rfl
  · obtain rfl := Option.some.inj hs
    exact hstep rfl rfl
  · cases hs

/-- A call can insert a job of another id. -/
theorem advance_at (hinv : JobsInv s) (h : s.At id life job) (call : Nat) (env : Env)
    (now : SystemTime) (c : ServerCall) : (s.advance call env now c).At id life job := by
  have hsame : ∀ {t : Server}, t.engine.jobs = s.engine.jobs → t.lives = s.lives →
      t.At id life job := by
    intro t hjobs hlives
    exact ⟨by rw [hlives]; exact h.life, by rw [hjobs]; exact h.job⟩
  cases c with
  | inserting req launch =>
      have hne : id ≠ mintedJob s.engine.nextId := by
        rintro rfl
        cases hinv.fresh.symm.trans h.job
      refine ⟨(AList.lookup_insert_ne hne).trans h.life, ?_⟩
      show (s.engine.jobs.insert _).get id = _
      rw [JobStore.get_inserted]
      exact (if_neg hne).trans h.job
  | killing req told =>
      rcases s.kill_cases req.jobId with ⟨-, hkill⟩ | ⟨-, hkill⟩
      · simp only [advance, hkill]
        exact hsame rfl rfl
      · simp only [advance, hkill]
        exact hsame rfl rfl
  | killingAll sid rest n =>
      cases rest with
      | nil => exact hsame rfl rfl
      | cons id' rest =>
          rcases s.kill_cases id' with ⟨-, hkill⟩ | ⟨-, hkill⟩
          · simp only [advance, hkill]
            exact hsame rfl rfl
          · simp only [advance, hkill]
            exact hsame rfl rfl
  | opening session => exact hsame rfl rfl
  | recordingClose sid => exact hsame rfl rfl
  | catalog sid => exact hsame rfl rfl
  | closing sid => simp only [advance]; split <;> exact hsame rfl rfl
  | auditing sid seen => simp only [advance]; split <;> exact hsame rfl rfl
  | readingAudit sid seen => simp only [advance]; split <;> exact hsame rfl rfl
  | starting req => simp only [advance]; split <;> exact hsame rfl rfl
  | preparing req session => simp only [advance]; split <;> exact hsame rfl rfl
  | status req => simp only [advance]; split <;> exact hsame rfl rfl
  | readingStatus req => simp only [advance]; split <;> exact hsame rfl rfl
  | cancelling req told => simp only [advance]; split <;> exact hsame rfl rfl
  | attaching req => simp only [advance]; split <;> exact hsame rfl rfl

/-- No other step is one of the job's. -/
theorem step_at_other (hinv : JobsInv s) (h : s.At id life job) {l : ServerLabel}
    (hs : (serverSystem display).step s l = some s') (hl : ∀ input now, l ≠ .life id input now) :
    s'.At id life job := by
  have hsame : ∀ {t : Server}, t.engine.jobs = s.engine.jobs → t.lives = s.lives →
      t.At id life job := fun hjobs hlives =>
    ⟨by rw [hlives]; exact h.life, by rw [hjobs]; exact h.job⟩
  cases l with
  | sessionOpen env req token =>
      obtain rfl : s.sessionOpen env req token = s' := Option.some.inj hs
      rcases s.sessionOpen_cases env req token with heq | heq | ⟨session, -, -, heq⟩
      · rw [heq]
        exact h
      · rw [heq]
        exact hsame rfl rfl
      · rw [heq]
        exact hsame rfl rfl
  | request r =>
      obtain rfl : s.request r = s' := Option.some.inj hs
      rcases s.request_cases r with ⟨-, heq⟩ | ⟨-, heq⟩
      · rw [heq]
        exact hsame rfl rfl
      · rw [heq]
        exact h
  | cancelForSession sid =>
      obtain rfl := Option.some.inj hs
      exact hsame rfl rfl
  | advance call env now =>
      obtain ⟨c, hc, rfl⟩ := Option.map_eq_some_iff.mp hs
      exact advance_at hinv h call env now c
  | life id' input now =>
      obtain ⟨life', job', hlife', hjob', hstep⟩ := step_life_eq_some hs
      have hne : id ≠ id' := fun heq => hl input now (by rw [heq])
      exact lifeStep_at_ne h hne hstep
  | stream i act =>
      obtain ⟨sid, a, job', -, -, hstep⟩ := step_stream_eq_some hs
      obtain ⟨a', -, rfl⟩ := Option.map_eq_some_iff.mp hstep
      exact hsame rfl rfl

/-! ### A step that is left -/

/-- Unless it is over, a job has a step that is no suspension, at the latest
when a pipe or the process has an answer. -/
theorem lifeStep_enabled (display : Error → String) (s : Server) (id : JobId) (job : Job)
    (now : SystemTime) (hloop : life.pc.Looping) (hpc : life.pc.isErased = false) :
    ∃ input s', input.isSuspend = false
      ∧ s.lifeStep display id life job now life.pc input = some s' := by
  cases hat : life.pc with
  | running task =>
      cases task with
      | drain d =>
          cases hd : d.pc with
          | top =>
              by_cases hready : d.cancelled = true ∨ s.ready life.rx = false
              · refine ⟨.drain .cancelPending,
                  s.act id life job .drain (.silent { d with pc := .polled }), rfl, ?_⟩
                have hcond : (d.cancelled || !s.ready life.rx) = true := by
                  rcases hready with h | h
                  · rw [h, Bool.true_or]
                  · rw [h, Bool.not_false, Bool.or_true]
                simp only [lifeStep, drain, if_pos hcond, drainer, hd, Option.map_some]
              · obtain ⟨hc, hr⟩ := not_or.mp hready
                refine ⟨.drain .cancelReady,
                  (s.branch id).act id life job .drain (.silent d.onCancel), rfl, ?_⟩
                rw [Bool.not_eq_false] at hr
                simp only [lifeStep, drain, if_pos hr, drainer, hd, if_neg hc, Option.map_some]
          | polled =>
              have hopen : ∃ stream, d.done stream = false := by
                rw [hat] at hloop
                have hnot := hloop (by rw [hd]; exact DrainPc.noConfusion)
                cases hout : d.outDone with
                | false => exact ⟨.stdout, hout⟩
                | true => exact ⟨.stderr, by rwa [hout, Bool.true_and] at hnot⟩
              obtain ⟨stream, hstream⟩ := hopen
              refine ⟨.drain (.read stream .eof),
                s.act id life job .drain (.silent (d.setDone stream).turn), rfl, ?_⟩
              have hnot : ¬d.done stream = true := by rw [hstream]; exact Bool.false_ne_true
              simp only [lifeStep, drain, drainer, hd, if_neg hnot, Option.map_some]
          | waiting =>
              refine ⟨.drain (.reaped (.ok none)),
                s.act id life job .drain (.finish (d.finalStatus (.ok none))), rfl, ?_⟩
              simp only [lifeStep, drain, drainer, hd, Option.map_some]
      | code c =>
          cases c with
          | running => exact ⟨.code (.joined (.output none) now), _, rfl, rfl⟩
          | ending status => exact ⟨.code .finish, _, rfl, rfl⟩
  | startAuditing =>
      refine ⟨.next, ?_⟩
      simp only [lifeStep]
      split
      · exact ⟨_, rfl, rfl⟩
      · exact ⟨_, rfl, rfl⟩
  | finishAuditing status =>
      refine ⟨.next, ?_⟩
      simp only [lifeStep]
      split
      · exact ⟨_, rfl, rfl⟩
      · exact ⟨_, rfl, rfl⟩
  | registering => exact ⟨.next, _, rfl, rfl⟩
  | startRecording => exact ⟨.next, _, rfl, rfl⟩
  | spawning => exact ⟨.next, _, rfl, rfl⟩
  | finishing status => exact ⟨.next, _, rfl, rfl⟩
  | notifying status => exact ⟨.next, _, rfl, rfl⟩
  | finishRecording status => exact ⟨.next, _, rfl, rfl⟩
  | retiring status => exact ⟨.next, _, rfl, rfl⟩
  | erased status =>
      rw [hat] at hpc
      cases hpc

/-- The steps that are left of a job, if it reads all it has room for. -/
def rank (s : Server) (id : JobId) : Nat :=
  match s.lives.lookup id, s.engine.jobs.get id with
  | some life, some job => life.pc.rank life.work job.room
  | _, _ => 0

theorem At.rank (h : s.At id life job) : s.rank id = life.pc.rank life.work job.room := by
  rw [Server.rank, h.life, h.job]

end Server

/-- The label is a step of the job, other than a suspension. -/
def ServerLabel.works (id : JobId) : ServerLabel → Nat
  | .life id' input _ => if id' = id ∧ input.isSuspend = false then 1 else 0
  | _ => 0

/-- The label is a suspension of the job. -/
def ServerLabel.suspends (id : JobId) : ServerLabel → Nat
  | .life id' input _ => if id' = id ∧ input.isSuspend = true then 1 else 0
  | _ => 0

/-- The job is there, with its life. -/
structure EndsInv (s : Server) (id : JobId) : Prop where
  jobs : JobsInv s
  signals : SignalInv s
  life : ∃ life job, s.At id life job
  looping : ∀ life, s.lives.lookup id = some life → life.pc.Looping

namespace EndsInv

variable {s s' : Server} {id : JobId} {l : ServerLabel} {display : Error → String}

/-- The step lemma. -/
theorem step (h : EndsInv s id) (hs : (serverSystem display).step s l = some s') :
    EndsInv s' id ∧ s'.rank id + l.works id ≤ s.rank id + l.suspends id := by
  have he := Server.step_effect hs
  obtain ⟨life, job, hat⟩ := h.life
  have hloop := h.looping life hat.life
  by_cases hl : ∃ input now, l = .life id input now
  · obtain ⟨input, now, rfl⟩ := hl
    obtain ⟨life', job', hlife', hjob', hstep⟩ := Server.step_life_eq_some hs
    obtain rfl := Option.some.inj (hat.life.symm.trans hlife')
    obtain rfl := Option.some.inj (hat.job.symm.trans hjob')
    obtain ⟨life', job', hmove, hrank⟩ := Server.lifeStep_move hat hstep
    refine ⟨⟨h.jobs.step he, h.signals.step h.jobs he, ⟨life', job', hmove.at'⟩, ?_⟩, ?_⟩
    · intro other hother
      obtain rfl := Option.some.inj (hmove.at'.life.symm.trans hother)
      exact hmove.looping hloop
    · rw [hmove.at'.rank, hmove.work, hat.rank]
      rcases hrank with hdown | ⟨hsuspend, hup⟩
      · have hwork : ServerLabel.works id (.life id input now) ≤ 1 := by
          simp only [ServerLabel.works]
          split
          · exact Nat.le_refl 1
          · exact Nat.zero_le 1
        omega
      · have hwork : ServerLabel.works id (.life id input now) = 0 :=
          if_neg fun hboth => by simp [hsuspend] at hboth
        have hgain : ServerLabel.suspends id (.life id input now) = 1 := if_pos ⟨rfl, hsuspend⟩
        omega
  · have hat' := Server.step_at_other h.jobs hat hs fun input now heq => hl ⟨input, now, heq⟩
    refine ⟨⟨h.jobs.step he, h.signals.step h.jobs he, ⟨life, job, hat'⟩, ?_⟩, ?_⟩
    · intro other hother
      obtain rfl := Option.some.inj (hat'.life.symm.trans hother)
      exact hloop
    · have hwork : l.works id = 0 := by
        cases l with
        | life id' input now =>
            exact if_neg fun hboth => hl ⟨input, now, by rw [hboth.1]⟩
        | _ => rfl
      rw [hat'.rank, hat.rank, hwork]
      exact Nat.le_add_right _ _

/-- A job that was not there has just been inserted. -/
theorem born (he : Effect s l s') {life : Life} (hnone : s.lives.lookup id = none)
    (hlife : s'.lives.lookup id = some life) : life.pc = .registering := by
  have hold : ∀ {id' : JobId} {old other : Life}, s.lives.lookup id' = some old →
      (s.lives.insert id' other).lookup id = some life → life.pc = .registering := by
    intro id' old other hold hlook
    rcases lookup_insert_iff.mp hlook with ⟨rfl, -⟩ | ⟨-, hsame⟩
    · cases hnone.symm.trans hold
    · cases hnone.symm.trans hsame
  cases he with
  | inserted cs call req launch env now hl hc =>
      rcases lookup_insert_iff.mp hlife with ⟨-, rfl⟩ | ⟨-, hsame⟩
      · rfl
      · cases hnone.symm.trans hsame
  | registered id' old hlife' hpc => exact hold hlife' hlife
  | moved id' old pc hlife' hpc => exact hold hlife' hlife
  | startRecorded id' old now hlife' hpc => exact hold hlife' hlife
  | spawned id' old hlife' hpc => exact hold hlife' hlife
  | branched id' old task task' hlife' hpc hready => exact hold hlife' hlife
  | pushed id' old task task' job event hlife' hpc hjob => exact hold hlife' hlife
  | terminal id' old job status now hlife' hpc hjob => exact hold hlife' hlife
  | notified id' old status hlife' hpc => exact hold hlife' hlife
  | finishRecorded id' old status now hlife' hpc => exact hold hlife' hlife
  | retired id' old status hlife' hpc => exact hold hlife' hlife
  | _ => cases hnone.symm.trans hlife

/-- It holds of every job there is. -/
theorem reach (hs : Reach (serverSystem display) s) {life : Life}
    (hlife : s.lives.lookup id = some life) : EndsInv s id := by
  have hall : CancelsInv s ∧ ∀ id life, s.lives.lookup id = some life → life.pc.Looping := by
    refine hs.invariant (I := fun s => CancelsInv s ∧ ∀ id life, s.lives.lookup id = some life →
      life.pc.Looping) (fun s h => ⟨.init h, fun id life hlife => ?_⟩) ?_
    · obtain ⟨-, -, -, -, -, -, -, -, hlives, -⟩ := h
      rw [hlives] at hlife
      cases hlife
    · rintro s l s' ⟨hinv, hloop⟩ - hs
      refine ⟨hinv.step hs, fun id life hlife => ?_⟩
      cases hold : s.lives.lookup id with
      | none =>
          rw [born (Server.step_effect hs) hold hlife]
          trivial
      | some old =>
          obtain ⟨job, hjob, -⟩ := hinv.jobs.lives id old hold
          have hends : EndsInv s id :=
            ⟨hinv.jobs, hinv.signals, ⟨old, job, hold, hjob⟩, hloop id⟩
          exact (hends.step hs).1.looping life hlife
  obtain ⟨hinv, hloop⟩ := hall
  obtain ⟨job, hjob, -⟩ := hinv.jobs.lives id life hlife
  exact ⟨hinv.jobs, hinv.signals, ⟨life, job, hlife, hjob⟩, hloop id⟩

theorem potential (display : Error → String) (id : JobId) :
    Potential (serverSystem display) (EndsInv · id) (Server.rank · id) (ServerLabel.works id)
      (ServerLabel.suspends id) where
  keep _ _ _ h hs := (h.step hs).1
  step _ _ _ h hs := (h.step hs).2

end EndsInv

/-- The rank of a job, by the room in its log. -/
theorem LifePc.rank_le {work : Work} {room : Nat} (pc : LifePc) :
    pc.rank work room ≤ 2 * room + 17 := by
  have hdrain : ∀ d : DrainState, d.rank room ≤ 2 * room + 8 := by
    intro d
    have hflag : ∀ flag, unset flag ≤ 1 := by decide
    have hleft : d.left room ≤ room + 3 := by
      have hout := hflag d.outDone
      have herr := hflag d.errDone
      have hcancelled := hflag d.cancelled
      unfold DrainState.left
      omega
    cases hpc : d.pc with
    | top => rw [DrainState.rank_top hpc]; omega
    | polled => rw [DrainState.rank_polled hpc]; omega
    | waiting => rw [DrainState.rank_waiting hpc]; omega
  have htask : ∀ task : TaskState, task.rank room ≤ 2 * room + 8 := by
    intro task
    cases task with
    | drain d => exact hdrain d
    | code c => cases c <;> simp [TaskState.rank, CodeState.rank]
  have hwork := htask work.task
  cases pc with
  | running task =>
      have hrunning := htask task
      simp only [rank]
      omega
  | _ => simp only [rank]; omega

/-- In every reachable state, a job that is not over has a step that is not a
suspension. Whatever runs on from there, and however the steps of others are
mixed in, it takes at most two such steps for every byte its log has room for,
seventeen more, and one for every suspension. And the job can be brought to its
end by its own steps: then its status is final, and its cancellation is gone. -/
theorem jobs_end {display : Error → String} {s : Server} (hs : Reach (serverSystem display) s)
    {id : JobId} {life : Life} {job : Job} (hlife : s.lives.lookup id = some life)
    (hjob : s.engine.jobs.get id = some job) :
    (life.pc.isErased = false → ∃ input now s', input.isSuspend = false
        ∧ (serverSystem display).step s (.life id input now) = some s')
      ∧ (∀ ls s', (serverSystem display).run s ls = some s' →
          (ls.map (ServerLabel.works id)).sum
            ≤ 2 * job.room + 17 + (ls.map (ServerLabel.suspends id)).sum)
      ∧ ∃ ls s' job' status, (∀ l ∈ ls, ∃ input now, l = .life id input now)
          ∧ ls.length ≤ 2 * job.room + 17 ∧ (serverSystem display).run s ls = some s'
          ∧ s'.engine.jobs.get id = some job' ∧ job'.status = status ∧ status.isTerminal = true
          ∧ s'.engine.cancels.lookup id = none := by
  have hinv := EndsInv.reach hs hlife
  have hat : s.At id life job := ⟨hlife, hjob⟩
  have hbound : s.rank id ≤ 2 * job.room + 17 := by
    rw [hat.rank]
    exact life.pc.rank_le
  -- A step that is left, and where it leads.
  have hdown : ∀ s, EndsInv s id → ∀ life, s.lives.lookup id = some life →
      life.pc.isErased = false → ∃ input now s', input.isSuspend = false
        ∧ (serverSystem display).step s (.life id input now) = some s' := by
    intro s hinv life hlife hpc
    obtain ⟨life', job, hat⟩ := hinv.life
    obtain rfl := Option.some.inj (hlife.symm.trans hat.life)
    obtain ⟨input, s', hinput, hstep⟩ := Server.lifeStep_enabled display s id job .unixEpoch
      (hinv.looping life hlife) hpc
    refine ⟨input, .unixEpoch, s', hinput, ?_⟩
    simp only [serverSystem, hat.life, hat.job]
    exact hstep
  refine ⟨hdown s hinv life hlife, fun ls s' hrun => ?_, ?_⟩
  · have hcost := (EndsInv.potential display id).run hinv hrun
    omega
  · have hnext : ∀ s, EndsInv s id →
        (¬∃ life status, s.lives.lookup id = some life ∧ life.pc = .erased status) →
        ∃ l s', (∃ input now, l = .life id input now) ∧ (serverSystem display).step s l = some s'
          ∧ EndsInv s' id ∧ s'.rank id < s.rank id := by
      intro s hinv hnot
      obtain ⟨life, job, hat⟩ := hinv.life
      have hpc : life.pc.isErased = false := by
        cases hpc : life.pc with
        | erased status => exact absurd ⟨life, status, hat.life, hpc⟩ hnot
        | _ => rfl
      obtain ⟨input, now, s', hinput, hstep⟩ := hdown s hinv life hat.life hpc
      obtain ⟨hinv', hrank⟩ := hinv.step hstep
      refine ⟨_, s', ⟨input, now, rfl⟩, hstep, hinv', ?_⟩
      have hwork : ServerLabel.works id (.life id input now) = 1 := if_pos ⟨rfl, hinput⟩
      have hgain : ServerLabel.suspends id (.life id input now) = 0 :=
        if_neg fun hboth => by simp [hinput] at hboth
      omega
    obtain ⟨ls, s', hls, hlen, hrun, hinv', life', status, hlife', hpc'⟩ :=
      exists_run_of_descent (serverSystem display) (Server.rank · id) hnext s hinv
    obtain ⟨job', hjob', hfollows⟩ := hinv'.jobs.lives id life' hlife'
    have hended := (hfollows.ended status (by rw [hpc']; rfl)).1
    refine ⟨ls, s', job', status.val, hls, hlen.trans hbound, hrun, hjob', hended,
      status.property, (hinv'.signals.table id).mpr ?_⟩
    cases hinv'.signals.armed id life' hlife' with
    | unregistered hreg => rw [hpc'] at hreg; cases hreg
    | held ch _ hnot => rw [hpc'] at hnot; cases hnot
    | signalled ch _ _ hnone => exact hnone
    | dropped ch _ _ hnone => exact hnone

/-- A job that has just been inserted, with a log of 64 bytes. -/
theorem jobs_end_inserted : ∃ s ls s' job', Reach (serverSystem fun _ => "") s
    ∧ (serverSystem fun _ => "").run s ls = some s' ∧ ls.length ≤ 145
    ∧ s'.engine.jobs.get ⟨"j_1"⟩ = some job' ∧ job'.status.isTerminal = true := by
  obtain ⟨s, hs, hp⟩ := ReachVia.of_run (G := fun _ _ => True) (Server.launched_init fun _ => "")
    insertRun
    (fun s => (s.lives.lookup ⟨"j_1"⟩).isSome
      && (s.engine.jobs.get ⟨"j_1"⟩).any (·.room = 64))
    (by decide +kernel)
  simp only [Bool.and_eq_true, decide_eq_true_eq, Option.any_eq_true,
    Option.isSome_iff_exists] at hp
  obtain ⟨⟨life, hlife⟩, job, hjob, hroom⟩ := hp
  obtain ⟨ls, s', job', status, -, hlen, hrun, hjob', hstatus, hterm, -⟩ :=
    (jobs_end hs hlife hjob).2.2
  rw [hroom] at hlen
  exact ⟨s, ls, s', job', hs, hrun, hlen, hjob', hstatus ▸ hterm⟩

end Axp
