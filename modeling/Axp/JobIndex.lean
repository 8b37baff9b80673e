import Axp.JobLife
import Axp.SecondaryIndex

/-!
# The indices of the job store

The job store finds a job by its id and lists the ids of a session. Both are
kept by `insert` and `remove`, and neither is computed from the other: a job is
inserted in two places, and a removal reads the session off the job it has
found, to know which list the id is in.

The rows of the store are its jobs' ids with their sessions. Each call does to
the store's two indices what it does to the rows, as long as ids are fresh and
what is written through a handle keeps the session.

The server's store comes from such calls (`Server.StoredBy.reach`), so a
`cancel_for_session` goes through the jobs that the session owns, once each
(`listForSession_owned`).
-/

namespace Axp

open SecondaryIndex Lts

namespace JobStore

/-! ## What a call does to the indices -/

/-- The session of a stored job. -/
def owner (self : JobStore) (id : JobId) : Option SessionId := (self.get id).map (·.sessionId)

variable (store : JobStore) (job : Job) (id : JobId)

theorem owner_inserted :
    (store.insert job).owner = Function.update store.owner job.id (some job.sessionId) := by
  funext id
  rw [owner, get_inserted, Function.update_apply]
  split <;> rfl

theorem listForSession_of_inserted :
    (store.insert job).listForSession =
      Function.update store.listForSession job.sessionId
        (store.listForSession job.sessionId ++ [job.id]) := by
  funext sid
  rw [listForSession_inserted, Function.update_apply]
  split
  · next hsid => rw [hsid]
  · exact List.append_nil _

theorem owner_modified {f : Job → Job} (hf : ∀ job, (f job).sessionId = job.sessionId) :
    (store.modify id f).owner = store.owner := by
  funext id'
  rw [owner, get_modified]
  split
  · next hid =>
    rw [hid, Option.map_map, owner]
    exact congrArg (Option.map · _) (funext hf)
  · rfl

/-- What is not there is not removed. -/
theorem remove_none (hget : store.get id = none) : store.remove id = (none, store) := by
  rw [get] at hget
  rw [remove, hget]

theorem remove_fst : (store.remove id).1 = store.get id := by
  rw [remove, get]
  split
  · next h => exact h.symm
  · next h => exact h.symm

theorem get_removed (id' : JobId) :
    (store.remove id).2.get id' = if id' = id then none else store.get id' := by
  cases hget : store.get id with
  | none =>
      rw [remove_none store id hget]
      split
      · next hid => rw [hid, hget]
      · rfl
  | some job =>
      have hlookup : store.jobs.lookup id = some job := hget
      rw [remove, hlookup]
      show (store.jobs.erase id).lookup id' = _
      split
      · next hid => rw [hid, AList.lookup_erase]
      · next hid => rw [AList.lookup_erase_ne hid]; rfl

theorem owner_removed : (store.remove id).2.owner = Function.update store.owner id none := by
  funext id'
  rw [owner, get_removed, Function.update_apply]
  split <;> rfl

/-- The id is taken out of the list of its session. -/
theorem listForSession_removed {job : Job} (hget : store.get id = some job) :
    (store.remove id).2.listForSession =
      Function.update store.listForSession job.sessionId
        ((store.listForSession job.sessionId).filter (· ≠ id)) := by
  have hlookup : store.jobs.lookup id = some job := hget
  funext sid
  rw [remove, hlookup]
  cases hids : store.bySession.lookup job.sessionId with
  | none =>
      by_cases hsid : sid = job.sessionId
      · rw [hsid, Function.update_self, listForSession, listForSession, hids]
        simp [hids]
      · rw [Function.update_of_ne hsid]
        simp only [hids]
        rfl
  | some ids =>
      simp only [hids]
      by_cases hsid : sid = job.sessionId
      · rw [hsid, Function.update_self, listForSession, listForSession, AList.lookup_insert, hids]
        rfl
      · rw [Function.update_of_ne hsid, listForSession, AList.lookup_insert_ne hsid]
        rfl

/-- As its session has the only list the id is in, it is then in none. -/
theorem listForSession_filtered {store : JobStore} {rows : List (JobId × SessionId)}
    (h : Indexes rows store.owner store.listForSession) (id : JobId) :
    (store.remove id).2.listForSession = fun sid => (store.listForSession sid).filter (· ≠ id) := by
  cases hget : store.get id with
  | none =>
      rw [remove_none store id hget]
      funext sid
      refine (List.filter_eq_self.mpr fun id' hid' => decide_eq_true ?_).symm
      rintro rfl
      have howner := h.mem_keys.mp hid'
      rw [owner, hget] at howner
      cases howner
  | some job =>
      rw [listForSession_removed store id hget]
      exact h.update_filter (congrArg (Option.map _) hget)

end JobStore

/-! ## Runs of calls -/

/-- A call on the store, or a write through the handle of a job, which never
changes the job's session. -/
inductive StoreCall where
  | insert (job : Job)
  | remove (id : JobId)
  | update (id : JobId) (f : { f : Job → Job // ∀ job, (f job).sessionId = job.sessionId })

namespace StoreCall

/-- The store after a call. -/
def apply (store : JobStore) : StoreCall → JobStore
  | .insert job => store.insert job
  | .remove id => (store.remove id).2
  | .update id f => store.modify id f.val

/-- The job a call inserts. -/
def insertion : StoreCall → Option Job
  | .insert job => some job
  | _ => none

/-- The rows of the store after a call. -/
def applyRows (rows : List (JobId × SessionId)) : StoreCall → List (JobId × SessionId)
  | .insert job => rows ++ [(job.id, job.sessionId)]
  | .remove id => rows.filter (·.1 ≠ id)
  | .update _ _ => rows

end StoreCall

def storeAfter (calls : List StoreCall) : JobStore := calls.foldl StoreCall.apply .new

def rowsAfter (calls : List StoreCall) : List (JobId × SessionId) :=
  calls.foldl StoreCall.applyRows []

/-- The jobs inserted, in order. -/
def insertions (calls : List StoreCall) : List Job := calls.filterMap StoreCall.insertion

/-- The job was inserted, and since then it was not removed. -/
def Held (id : JobId) (calls : List StoreCall) : Prop :=
  ∃ before job after, calls = before ++ .insert job :: after ∧ job.id = id
    ∧ .remove id ∉ after

section Runs

variable {calls : List StoreCall} {c : StoreCall} {id : JobId}

theorem storeAfter_append (calls : List StoreCall) (c : StoreCall) :
    storeAfter (calls ++ [c]) = c.apply (storeAfter calls) := by
  rw [storeAfter, List.foldl_concat]
  rfl

theorem rowsAfter_append (calls : List StoreCall) (c : StoreCall) :
    rowsAfter (calls ++ [c]) = c.applyRows (rowsAfter calls) := by
  rw [rowsAfter, List.foldl_concat]
  rfl

theorem insertions_append (calls : List StoreCall) (c : StoreCall) :
    insertions (calls ++ [c]) = insertions calls ++ c.insertion.toList := by
  rw [insertions, List.filterMap_append]
  cases h : c.insertion <;> simp [insertions, h]

/-! ### What is stored -/

theorem not_held_nil : ¬Held id [] := by
  rintro ⟨before, job, after, hcalls, -⟩
  exact List.append_ne_nil_of_right_ne_nil before (List.cons_ne_nil _ _) hcalls.symm

/-- A call makes a job held, or leaves it so. -/
theorem held_append :
    Held id (calls ++ [c]) ↔
      (∃ job, c = .insert job ∧ job.id = id) ∨ c ≠ .remove id ∧ Held id calls := by
  constructor
  · rintro ⟨before, job, after, hcalls, hid, hafter⟩
    rcases List.eq_nil_or_concat after with rfl | ⟨after, last, rfl⟩
    · obtain ⟨-, hc⟩ := List.append_inj' hcalls rfl
      exact .inl ⟨job, List.singleton_inj.mp hc, hid⟩
    · rw [List.concat_eq_append] at hcalls hafter
      rw [← List.cons_append, ← List.append_assoc] at hcalls
      obtain ⟨hinit, hc⟩ := List.append_inj' hcalls rfl
      obtain rfl := List.singleton_inj.mp hc
      rw [List.mem_append, List.mem_singleton, not_or] at hafter
      exact .inr ⟨Ne.symm hafter.2, before, job, after, hinit, hid, hafter.1⟩
  · rintro (⟨job, rfl, hid⟩ | ⟨hc, before, job, after, rfl, hid, hafter⟩)
    · exact ⟨calls, job, [], rfl, hid, List.not_mem_nil⟩
    · refine ⟨before, job, after ++ [c], List.append_assoc _ _ _, hid, ?_⟩
      rw [List.mem_append, List.mem_singleton, not_or]
      exact ⟨hafter, hc.symm⟩

theorem get_isSome_iff : ((storeAfter calls).get id).isSome = true ↔ Held id calls := by
  induction calls using List.reverseRecOn with
  | nil => exact iff_of_false Bool.false_ne_true not_held_nil
  | append_singleton calls c ih =>
      rw [storeAfter_append, held_append, ← ih]
      cases c with
      | insert job =>
          simp only [StoreCall.apply, JobStore.get_inserted, StoreCall.insert.injEq,
            exists_eq_left', ne_eq, reduceCtorEq, not_false_eq_true, true_and]
          by_cases hid : id = job.id
          · exact iff_of_true (by rw [if_pos hid]; rfl) (.inl hid.symm)
          · rw [if_neg hid]
            exact (or_iff_right (Ne.symm hid)).symm
      | remove id' =>
          simp only [StoreCall.apply, JobStore.get_removed, reduceCtorEq, false_and, exists_false,
            false_or, ne_eq, StoreCall.remove.injEq]
          by_cases hid : id = id'
          · rw [if_pos hid]
            exact iff_of_false Bool.false_ne_true fun h => h.1 hid.symm
          · rw [if_neg hid]
            exact (and_iff_right (Ne.symm hid)).symm
      | update id' f =>
          simp only [StoreCall.apply, JobStore.get_modified, reduceCtorEq, false_and, exists_false,
            false_or, ne_eq, not_false_eq_true, true_and]
          split
          · next hid => rw [hid, Option.isSome_map]
          · rfl

/-! ### What is listed -/

/-- The row of a job. -/
def Job.row (job : Job) : JobId × SessionId := (job.id, job.sessionId)

/-- Rows are taken out, never moved. -/
theorem rowsAfter_sublist (calls : List StoreCall) :
    (rowsAfter calls).Sublist ((insertions calls).map Job.row) := by
  induction calls using List.reverseRecOn with
  | nil => exact List.Sublist.refl _
  | append_singleton calls c ih =>
      rw [rowsAfter_append, insertions_append, List.map_append]
      cases c with
      | insert job => exact ih.append (List.Sublist.refl _)
      | remove id => exact List.filter_sublist.trans (ih.trans (List.sublist_append_left _ _))
      | update id f => exact ih.trans (List.sublist_append_left _ _)

theorem indexes_after (hfresh : ((insertions calls).map Job.id).Nodup) :
    Indexes (rowsAfter calls) (storeAfter calls).owner (storeAfter calls).listForSession := by
  induction calls using List.reverseRecOn with
  | nil => exact .empty
  | append_singleton calls c ih =>
      rw [insertions_append, List.map_append] at hfresh
      have hind := ih hfresh.of_append_left
      rw [rowsAfter_append, storeAfter_append]
      cases c with
      | insert job =>
          rw [StoreCall.apply, JobStore.owner_inserted, JobStore.listForSession_of_inserted]
          refine hind.append (Option.eq_none_iff_forall_ne_some.mpr fun sid hsid => ?_) _
          have hrow := (rowsAfter_sublist calls).subset ((hind.group_iff _ _).mp hsid)
          obtain ⟨old, hold, hrow⟩ := List.mem_map.mp hrow
          exact (List.nodup_append.mp hfresh).2.2 old.id (List.mem_map_of_mem hold) job.id
            List.mem_cons_self (congrArg Prod.fst hrow)
      | remove id =>
          rw [StoreCall.apply, JobStore.owner_removed, JobStore.listForSession_filtered hind]
          exact hind.remove id
      | update id f =>
          rw [StoreCall.apply, JobStore.owner_modified _ _ f.property,
            funext (JobStore.listForSession_modified _ id f.val)]
          exact hind

/-- The ids `next_job_id` mints are fresh. -/
theorem minted_nodup (ns : List Nat) (h : ns.Nodup) : (ns.map mintedJob).Nodup :=
  h.map fun _ _ => mintedJob_injective

/-- The ids of a session are those of the jobs inserted that it still owns. -/
theorem listForSession_after (hfresh : ((insertions calls).map Job.id).Nodup) (sid : SessionId) :
    (storeAfter calls).listForSession sid
      = ((insertions calls).filter fun job =>
          ((storeAfter calls).get job.id).any (·.sessionId = sid)).map Job.id := by
  have hids : ((insertions calls).map Job.row).map Prod.fst = (insertions calls).map Job.id := by
    rw [List.map_map]
    rfl
  have hkeys := (indexes_after hfresh).keys_of_added (rowsAfter_sublist calls)
    (by rw [hids]; exact hfresh) sid
  rw [hkeys, List.filter_map, List.map_map]
  refine congrArg (List.map Job.id) (List.filter_congr fun job _ => ?_)
  rw [Bool.eq_iff_iff, Function.comp_apply, decide_eq_true_eq, Option.any_eq_true, Job.row,
    JobStore.owner, Option.map_eq_some_iff]
  simp only [decide_eq_true_eq]

end Runs

/-- After any calls in which inserted ids are fresh and sessions stay: a job is
found exactly if it was inserted and not removed since; a session lists its
stored jobs, once each, as they were inserted; and a removal returns what was
stored and takes the id, and nothing else, out of both indices. -/
theorem job_indices_agree (calls : List StoreCall)
    (hfresh : ((insertions calls).map Job.id).Nodup) :
    let store := storeAfter calls
    (∀ id, (store.get id).isSome = true ↔ Held id calls)
      ∧ (∀ sid, store.listForSession sid
            = ((insertions calls).filter fun job =>
                (store.get job.id).any (·.sessionId = sid)).map Job.id
          ∧ (store.listForSession sid).Nodup)
      ∧ ∀ id, (store.remove id).1 = store.get id
          ∧ (store.remove id).2.get id = none
          ∧ (∀ id', id' ≠ id → (store.remove id).2.get id' = store.get id')
          ∧ ∀ sid, (store.remove id).2.listForSession sid
              = (store.listForSession sid).filter (· ≠ id) := by
  have hind := indexes_after hfresh
  refine ⟨fun id => get_isSome_iff, fun sid => ⟨listForSession_after hfresh sid, hind.keys_nodup⟩,
    fun id => ⟨JobStore.remove_fst _ id, ?_, fun id' hid => ?_, fun sid => ?_⟩⟩
  · rw [JobStore.get_removed, if_pos rfl]
  · rw [JobStore.get_removed, if_neg hid]
  · rw [JobStore.listForSession_filtered hind]

/-- Two sessions start three jobs, and the first one is removed. -/
def threeJobs : List StoreCall :=
  let job (n : Nat) (sid : SessionId) : Job :=
    .launched (mintedJob n) sid (.command "true") ⟨utf8 "/proj"⟩ 64 .unixEpoch
  [.insert (job 1 ⟨"s_1"⟩), .insert (job 2 ⟨"s_2"⟩), .insert (job 3 ⟨"s_1"⟩),
    .remove (mintedJob 1)]

theorem job_indices_agree_threeJobs :
    ((storeAfter threeJobs).get (mintedJob 3)).isSome = true
      ∧ (storeAfter threeJobs).listForSession ⟨"s_1"⟩ = [mintedJob 3] := by
  have h := job_indices_agree threeJobs (minted_nodup [1, 2, 3] (by decide))
  refine ⟨(h.1 _).mpr ⟨[_, _], _, [.remove (mintedJob 1)], rfl, rfl, ?_⟩, (h.2.1 _).1.trans ?_⟩
  · rw [List.mem_singleton, StoreCall.remove.injEq]
    exact fun heq => absurd (mintedJob_injective heq) (by decide)
  · decide +kernel

/-! ## The server's store -/

/-- The store has come from the calls, which inserted ids minted so far. -/
structure Server.StoredBy (s : Server) (calls : List StoreCall) : Prop where
  jobs : s.engine.jobs = storeAfter calls
  fresh : ((insertions calls).map Job.id).Nodup
  minted : ∀ id ∈ (insertions calls).map Job.id, ∃ k, k < s.engine.nextId ∧ id = mintedJob k

namespace Server.StoredBy

variable {s s' : Server} {l : ServerLabel} {display : Error → String} {calls : List StoreCall}

/-- The steps that leave the jobs alone. -/
theorem same (h : s.StoredBy calls) (hjobs : s'.engine.jobs = s.engine.jobs)
    (hnext : s'.engine.nextId = s.engine.nextId) : s'.StoredBy calls :=
  ⟨hjobs.trans h.jobs, h.fresh, by rw [hnext]; exact h.minted⟩

/-- The steps that write a job. -/
theorem update (h : s.StoredBy calls) {id : JobId} {f : Job → Job}
    (hf : ∀ job, (f job).sessionId = job.sessionId)
    (hjobs : s'.engine.jobs = s.engine.jobs.modify id f)
    (hnext : s'.engine.nextId = s.engine.nextId) :
    s'.StoredBy (calls ++ [.update id ⟨f, hf⟩]) := by
  have hsame : insertions (calls ++ [.update id ⟨f, hf⟩]) = insertions calls := by
    rw [insertions_append]
    exact List.append_nil _
  refine ⟨?_, by rw [hsame]; exact h.fresh, by rw [hsame, hnext]; exact h.minted⟩
  rw [hjobs, h.jobs, storeAfter_append]
  rfl

/-- The step that inserts a job, under the id just minted. -/
theorem insert (h : s.StoredBy calls) {job : Job} (hid : job.id = mintedJob s.engine.nextId)
    (hjobs : s'.engine.jobs = s.engine.jobs.insert job)
    (hnext : s'.engine.nextId = s.engine.nextId + 1) :
    s'.StoredBy (calls ++ [.insert job]) := by
  have hids : (insertions (calls ++ [.insert job])).map Job.id
      = (insertions calls).map Job.id ++ [mintedJob s.engine.nextId] := by
    rw [insertions_append, List.map_append, ← hid]
    rfl
  refine ⟨?_, ?_, ?_⟩
  · rw [hjobs, h.jobs, storeAfter_append]
    rfl
  · rw [hids, List.nodup_append_comm]
    refine List.nodup_cons.mpr ⟨fun hmem => ?_, h.fresh⟩
    obtain ⟨k, hk, heq⟩ := h.minted _ hmem
    exact absurd (mintedJob_injective heq) (Nat.ne_of_gt hk)
  · intro id hmem
    rw [hids, List.mem_append, List.mem_singleton] at hmem
    rw [hnext]
    rcases hmem with hold | rfl
    · obtain ⟨k, hk, heq⟩ := h.minted id hold
      exact ⟨k, hk.trans (Nat.lt_succ_self _), heq⟩
    · exact ⟨s.engine.nextId, Nat.lt_succ_self _, rfl⟩

theorem step (h : s.StoredBy calls) (he : Effect s l s') : ∃ calls, s'.StoredBy calls := by
  cases he with
  | inserted cs call req launch env now hl hc => exact ⟨_, h.insert rfl rfl rfl⟩
  | pushed id life task task' job event hlife hpc hjob =>
      exact ⟨_, h.update (f := fun job => (job.pushLog event).2) (fun _ => rfl) rfl rfl⟩
  | terminal id life job status now hlife hpc hjob =>
      exact ⟨_, h.update (f := (·.finish status.val now)) (fun _ => rfl) rfl rfl⟩
  | _ => exact ⟨calls, h.same rfl rfl⟩

theorem reach (h : Reach (serverSystem display) s) : ∃ calls, s.StoredBy calls := by
  refine h.invariant (I := fun s => ∃ calls, s.StoredBy calls) (fun s hinit => ?_) ?_
  · exact ⟨[], hinit.2.1, List.nodup_nil, fun id hmem => absurd hmem List.not_mem_nil⟩
  · rintro s l s' ⟨calls, hinv⟩ - hs
    exact hinv.step (Server.step_effect hs)

end Server.StoredBy

/-- So `cancel_for_session` goes through each job of the session, and once. -/
theorem listForSession_owned {display : Error → String} {s : Server}
    (h : Reach (serverSystem display) s) (sid : SessionId) :
    (s.engine.jobs.listForSession sid).Nodup
      ∧ ∀ id, id ∈ s.engine.jobs.listForSession sid ↔ s.engine.Owns sid id := by
  obtain ⟨calls, hcalls⟩ := Server.StoredBy.reach h
  have hind := indexes_after hcalls.fresh
  rw [← hcalls.jobs] at hind
  refine ⟨hind.keys_nodup, fun id => ?_⟩
  rw [hind.mem_keys, JobStore.owner, Option.map_eq_some_iff]
  rfl

end Axp
