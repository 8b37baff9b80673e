import Axp.Capability
import Axp.Directory
import Axp.Job

/-!
# Sessions

A session binds a workspace, a tier and a set of grants to a token. The store
holds the live ones; closing a session takes it out of the store, which is
all it takes to make its token worthless, because every request looks the
session up again. `retired` keeps the sessions that have been taken out, with
their audit logs.
-/

namespace Axp

/-- The root directory of a session: absolute and canonical. -/
structure Workspace where
  root : PathBuf
deriving DecidableEq, Repr

namespace Workspace

/-- Canonicalise and check a path. -/
def new (canonicalize : PathBuf → Except ErrorText PathBuf) (path : PathBuf) :
    Result Workspace :=
  match canonicalize path with
  | .error e => .error (.invalidWorkspace path e)
  | .ok canonical =>
      if !canonical.isAbsolute then
        .error (.invalidWorkspace path "canonicalized path is not absolute")
      else .ok ⟨canonical⟩

/-- The path is inside the workspace, or its root. -/
def contains (self : Workspace) (path : PathBuf) : Bool := path.startsWith self.root

end Workspace

/-- A session's credential. -/
structure CapToken where
  str : String
deriving DecidableEq, Repr

namespace CapToken

/-- The XORs of all byte pairs, gathered in an accumulator. -/
def difference (stored presented : List UInt8) : UInt8 :=
  (stored.zip presented).foldl (fun acc ab => acc ||| (ab.1 ^^^ ab.2)) 0

/-- Constant-time comparison: a length mismatch is `false` at once, and every
byte is looked at otherwise. -/
def verify (self : CapToken) (presented : String) : Bool :=
  let stored := utf8 self.str
  let presented := utf8 presented
  if stored.length ≠ presented.length then false else difference stored presented = 0

/-- The accumulator stays zero as long as the bytes are the same. -/
theorem foldl_xor_eq_zero {stored presented : List UInt8} {acc : UInt8}
    (hlen : stored.length = presented.length) :
    (stored.zip presented).foldl (fun acc ab => acc ||| (ab.1 ^^^ ab.2)) acc = 0
      ↔ acc = 0 ∧ stored = presented := by
  induction stored generalizing presented acc with
  | nil =>
      cases presented with
      | nil => simp
      | cons b presented => cases hlen
  | cons a stored ih =>
      cases presented with
      | nil => cases hlen
      | cons b presented =>
          rw [List.zip_cons_cons, List.foldl_cons, ih (Nat.succ.inj hlen), UInt8.or_eq_zero_iff,
            UInt8.xor_eq_zero_iff, List.cons.injEq, and_assoc]

/-- The comparison is equality, for tokens of any content and length. -/
theorem verify_iff {self : CapToken} {presented : String} :
    self.verify presented = true ↔ self.str = presented := by
  simp only [verify]
  split
  · next hlen =>
      constructor
      · intro h
        cases h
      · rintro rfl
        exact absurd rfl hlen
  · next hlen =>
      have hlen' := not_ne_iff.mp hlen
      rw [decide_eq_true_eq, difference, foldl_xor_eq_zero hlen']
      constructor
      · exact fun h => utf8_injective h.2
      · rintro rfl
        exact ⟨rfl, rfl⟩

end CapToken

/-- The kind of an audit event; a job's final status is kept in the form it
has on the job. -/
inductive AuditEventKind where
  | sessionOpened
  | sessionClosed
  | jobStarted (jobId : JobId)
  | jobFinished (jobId : JobId) (status : JobStatus)
deriving DecidableEq, Repr

structure AuditEvent where
  timestamp : SystemTime
  kind : AuditEventKind
deriving DecidableEq

/-- A live agent session. -/
structure Session where
  id : SessionId
  workspace : Workspace
  tier : EnforcementTier
  capabilities : CapabilitySet
  capToken : CapToken
  auditEvents : List AuditEvent

/-- `record_audit`. -/
def Session.recordAudit (self : Session) (kind : AuditEventKind) (now : SystemTime) : Session :=
  { self with auditEvents := self.auditEvents ++ [⟨now, kind⟩] }

structure SessionStore where
  live : HashMap SessionId Session
  retired : List Session

namespace SessionStore

def new : SessionStore := ⟨∅, []⟩

def get (self : SessionStore) (id : SessionId) : Option Session := self.live.lookup id

/-- Open a session that is called `session.id`. -/
def openSession (self : SessionStore) (session : Session) (now : SystemTime) : SessionStore :=
  { self with live := self.live.insert session.id (session.recordAudit .sessionOpened now) }

/-- The session exists and the token is its own. -/
def authorize (self : SessionStore) (id : SessionId) (presented : String) : Bool :=
  match self.get id with
  | some session => session.capToken.verify presented
  | none => false

/-- Record an audit event on a session, if it is still live. -/
def record (self : SessionStore) (id : SessionId) (kind : AuditEventKind) (now : SystemTime) :
    SessionStore :=
  match self.get id with
  | some session => { self with live := self.live.insert id (session.recordAudit kind now) }
  | none => self

/-- Take a session out of the store. -/
def close (self : SessionStore) (id : SessionId) (now : SystemTime) :
    Result Unit × SessionStore :=
  match self.get id with
  | some session => (.ok (),
      ⟨self.live.erase id, self.retired ++ [session.recordAudit .sessionClosed now]⟩)
  | none => (.error (.sessionNotFound id), self)

/-- The first step of `close`: out of the map. -/
def remove (self : SessionStore) (id : SessionId) : SessionStore :=
  match self.get id with
  | some session => ⟨self.live.erase id, self.retired ++ [session]⟩
  | none => self

/-- Record an audit event through a handle, which may have outlived the
session's time in the map. -/
def write (self : SessionStore) (id : SessionId) (kind : AuditEventKind) (now : SystemTime) :
    SessionStore :=
  match self.get id with
  | some session => { self with live := self.live.insert id (session.recordAudit kind now) }
  | none =>
      { self with
        retired := self.retired.map fun session =>
          if session.id = id then session.recordAudit kind now else session }

/-- The session behind a handle, live or not. -/
def behind (self : SessionStore) (id : SessionId) : Option Session :=
  (self.get id).or (self.retired.find? (·.id = id))

/-! ### What a lookup finds -/

variable {store : SessionStore} {id sid : SessionId} {session : Session} {kind : AuditEventKind}
  {now : SystemTime}

theorem behind_of_get (h : store.get sid = some session) : store.behind sid = some session := by
  rw [behind, h, Option.some_or]

theorem get_eq_none_of_behind (h : store.behind sid = none) : store.get sid = none :=
  (Option.or_eq_none_iff.mp h).1

theorem get_opened (store : SessionStore) (session : Session) (now : SystemTime)
    (sid : SessionId) : (store.openSession session now).get sid
      = if sid = session.id then some (session.recordAudit .sessionOpened now)
        else store.get sid := by
  split
  · next h =>
      rw [h]
      exact AList.lookup_insert _
  · next h => exact AList.lookup_insert_ne h

theorem behind_opened (store : SessionStore) (session : Session) (now : SystemTime)
    (sid : SessionId) : (store.openSession session now).behind sid
      = if sid = session.id then some (session.recordAudit .sessionOpened now)
        else store.behind sid := by
  rw [behind, get_opened]
  split
  · rw [Option.some_or]
  · rfl

theorem get_remove (store : SessionStore) (id sid : SessionId) :
    (store.remove id).get sid = if sid = id then none else store.get sid := by
  unfold remove
  cases h : store.get id with
  | none =>
      by_cases hsid : sid = id
      · rw [if_pos hsid, hsid]
        exact h
      · rw [if_neg hsid]
  | some session =>
      by_cases hsid : sid = id
      · rw [if_pos hsid, hsid]
        exact AList.lookup_erase _ _
      · rw [if_neg hsid]
        exact AList.lookup_erase_ne hsid

theorem get_write (store : SessionStore) (id sid : SessionId) (kind : AuditEventKind)
    (now : SystemTime) : (store.write id kind now).get sid
      = if sid = id then (store.get id).map (·.recordAudit kind now) else store.get sid := by
  unfold write
  cases h : store.get id with
  | none =>
      by_cases hsid : sid = id
      · rw [if_pos hsid, hsid]
        exact h
      · rw [if_neg hsid]
        rfl
  | some session =>
      by_cases hsid : sid = id
      · rw [if_pos hsid, hsid]
        exact AList.lookup_insert _
      · rw [if_neg hsid]
        exact AList.lookup_insert_ne hsid

theorem find?_id {sessions : List Session} (h : sessions.find? (·.id = sid) = some session) :
    session.id = sid := by
  simpa using List.find?_some h

/-- Looking for an id in sessions that keep theirs. -/
theorem find?_map_id {f : Session → Session} (hf : ∀ session, (f session).id = session.id)
    (sid : SessionId) (sessions : List Session) :
    (sessions.map f).find? (·.id = sid) = (sessions.find? (·.id = sid)).map f := by
  rw [List.find?_map]
  congr 2
  exact funext fun session => by rw [Function.comp_apply, hf]

/-- A write reaches the session behind the handle. -/
theorem behind_write (store : SessionStore) (id sid : SessionId) (kind : AuditEventKind)
    (now : SystemTime) : (store.write id kind now).behind sid
      = if sid = id then (store.behind id).map (·.recordAudit kind now)
        else store.behind sid := by
  rw [behind, get_write]
  unfold write
  cases h : store.get id with
  | some session =>
      by_cases hsid : sid = id
      · rw [if_pos hsid, if_pos hsid, behind, h]
        rfl
      · rw [if_neg hsid, if_neg hsid]
        rfl
  | none =>
      rw [find?_map_id (fun session => by split <;> rfl)]
      by_cases hsid : sid = id
      · rw [if_pos hsid, if_pos hsid, behind, h, hsid, Option.map_none, Option.none_or,
          Option.none_or]
        refine Option.map_congr fun session hmem => ?_
        rw [if_pos (find?_id hmem)]
      · rw [if_neg hsid, if_neg hsid, behind]
        congr 1
        cases hfind : store.retired.find? (·.id = sid) with
        | none => rfl
        | some session =>
            rw [Option.map_some, if_neg (by rw [find?_id hfind]; exact hsid)]

/-! ### Each id stands for one session -/

/-- No two sessions, live or retired, have the same id. -/
structure Distinct (store : SessionStore) : Prop where
  live : ∀ sid session, store.get sid = some session → session.id = sid
  retired : ∀ session ∈ store.retired,
    store.get session.id = none ∧ store.behind session.id = some session

namespace Distinct

theorem new : SessionStore.new.Distinct where
  live := by
    intro sid session h
    cases h
  retired := by
    intro session h
    cases h

/-- A session moves from the live ones to the retired ones. -/
theorem behind_remove (h : store.Distinct) (id sid : SessionId) :
    (store.remove id).behind sid = store.behind sid := by
  rw [behind, get_remove]
  unfold remove
  cases hget : store.get id with
  | none =>
      by_cases hsid : sid = id
      · rw [if_pos hsid, behind, hsid, hget]
      · rw [if_neg hsid, behind]
  | some session =>
      have hid := h.live id session hget
      rw [List.find?_append]
      by_cases hsid : sid = id
      · have hfree : store.retired.find? (·.id = sid) = none := by
          refine List.find?_eq_none.mpr fun old hold hsame => ?_
          have hnone := (h.retired old hold).1
          rw [of_decide_eq_true hsame, hsid, hget] at hnone
          cases hnone
        rw [if_pos hsid, hfree, behind, hsid, hget, Option.none_or, Option.none_or]
        simp [hid]
      · rw [if_neg hsid, behind]
        congr 1
        have hother : [session].find? (·.id = sid) = none := by
          rw [List.find?_singleton, if_neg]
          rw [hid, decide_eq_true_eq]
          exact fun heq => hsid heq.symm
        rw [hother, Option.or_none]

theorem openSession (h : store.Distinct) (hfresh : store.behind session.id = none) :
    (store.openSession session now).Distinct where
  live := by
    intro sid found hget
    rw [get_opened] at hget
    split at hget
    · next hsid =>
        obtain rfl := Option.some.inj hget
        exact hsid.symm
    · exact h.live sid found hget
  retired := by
    intro old hold
    have hne : old.id ≠ session.id := by
      intro hsame
      have hbehind := (h.retired old hold).2
      rw [hsame, hfresh] at hbehind
      cases hbehind
    rw [get_opened, behind_opened, if_neg hne, if_neg hne]
    exact h.retired old hold

theorem remove (h : store.Distinct) (id : SessionId) : (store.remove id).Distinct where
  live := by
    intro sid found hget
    rw [get_remove] at hget
    split at hget
    · cases hget
    · exact h.live sid found hget
  retired := by
    intro old hold
    rw [h.behind_remove, get_remove]
    have hcases : old ∈ store.retired ∨ store.get id = some old := by
      unfold SessionStore.remove at hold
      cases hget : store.get id with
      | none =>
          rw [hget] at hold
          exact Or.inl hold
      | some session =>
          rw [hget] at hold
          refine (List.mem_append.mp hold).imp_right fun hnew => ?_
          rw [List.mem_singleton.mp hnew]
    rcases hcases with hold | hlive
    · obtain ⟨hnone, hbehind⟩ := h.retired old hold
      refine ⟨?_, hbehind⟩
      split
      · rfl
      · exact hnone
    · have hid := h.live id old hlive
      rw [if_pos hid, hid]
      exact ⟨rfl, behind_of_get hlive⟩

theorem write (h : store.Distinct) (id : SessionId) (kind : AuditEventKind) (now : SystemTime) :
    (store.write id kind now).Distinct where
  live := by
    intro sid found hget
    rw [get_write] at hget
    split at hget
    · next hsid =>
        obtain ⟨session, hold, rfl⟩ := Option.map_eq_some_iff.mp hget
        exact (h.live id session hold).trans hsid.symm
    · exact h.live sid found hget
  retired := by
    intro old hold
    rw [behind_write, get_write]
    unfold SessionStore.write at hold
    cases hget : store.get id with
    | some session =>
        rw [hget] at hold
        obtain ⟨hnone, hbehind⟩ := h.retired old hold
        have hne : old.id ≠ id := by
          rintro rfl
          rw [hget] at hnone
          cases hnone
        rw [if_neg hne, if_neg hne]
        exact ⟨hnone, hbehind⟩
    | none =>
        rw [hget] at hold
        obtain ⟨session, hmem, rfl⟩ := List.mem_map.mp hold
        obtain ⟨hnone, hbehind⟩ := h.retired session hmem
        by_cases hid : session.id = id
        · rw [if_pos hid]
          have hid' : (session.recordAudit kind now).id = id := hid
          rw [if_pos hid', if_pos hid', ← hid, hbehind]
          exact ⟨rfl, rfl⟩
        · rw [if_neg hid, if_neg hid, if_neg hid]
          exact ⟨hnone, hbehind⟩

end Distinct

end SessionStore

end Axp
