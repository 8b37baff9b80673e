import Axp.FileLog

/-!
# The replay logs as machines

Both logs and the abstract one behind a single interface: the operations of
`LogOp`, which carry the choices of the operating system, and the answers of
`LogOut`. Reopening means something for the file log only, which then knows
nothing but the bytes of its file; the other two do nothing and report
success.

`memMachine_outputs_eq` compares the in-memory log with the abstract one on
all operations. `fileMachine_outputs_eq` adds the file log, on the runs in
which the operating system meets no fault and the file stays within the
longest that a file can be.
-/

namespace Axp

open Lts

/-! ## The interface -/

inductive LogOp where
  | append (event : AppendLogEvent) (io : WriteOutcome)
  | replayFrom (fromSeq : Nat)
  | nextSeq
  | len
  | reopen (io : OpenIo)

inductive LogOut where
  | appended (result : Result Nat)
  | replayed (events : List LogEvent)
  | number (n : Nat)
  | reopened (result : Result Unit)
  | notOpen
deriving DecidableEq

/-- `encode_timestamp` accepts the timestamps of an operation. -/
def LogOp.Encodable (path : PathBuf) : LogOp → Prop
  | .append event _ => ∃ fields, encodeTimestamp event.timestamp path 0 = .ok fields
  | _ => True

/-- The operating system meets no fault in an operation. -/
def LogOp.Clean : LogOp → Prop
  | .append _ io => io = .done
  | .reopen io => io = .clean
  | _ => True

/-! ## The machines -/

/-- The file log: the open log, if there is one, and the file, if there is
one. -/
def fileMachine (path : PathBuf) (byteCap : Usize) :
    Machine (Option FileJobReplayLog × Option Bytes) LogOp LogOut where
  step
    | (_, disk), .reopen io =>
        match FileJobReplayLog.withCap path byteCap io disk with
        | (.error e, disk) => ((none, disk), .reopened (.error e))
        | (.ok log, disk) => ((some log, disk), .reopened (.ok ()))
    | (some log, some disk), .append event io =>
        let (r, log, disk) := log.append event io disk
        ((some log, some disk), .appended r)
    | (some log, disk), .replayFrom c => ((some log, disk), .replayed (log.replayFrom c))
    | (some log, disk), .nextSeq => ((some log, disk), .number log.nextSeq)
    | (some log, disk), .len => ((some log, disk), .number log.len)
    | s, _ => (s, .notOpen)

/-- The in-memory log. -/
def memMachine : Machine InMemoryJobReplayLog LogOp LogOut where
  step log
    | .append event _ =>
        let (r, log) := log.append event
        (log, .appended r)
    | .replayFrom c => (log, .replayed (log.replayFrom c))
    | .nextSeq => (log, .number log.nextSeq)
    | .len => (log, .number log.len)
    | .reopen _ => (log, .reopened (.ok ()))

/-- The abstract log. -/
def absMachine : Machine AbsLog LogOp LogOut where
  step a
    | .append event _ =>
        let (r, a) := a.append event
        (a, .appended r)
    | .replayFrom c => (a, .replayed (a.replayFrom c))
    | .nextSeq => (a, .number a.accepted.length)
    | .len => (a, .number a.accepted.length)
    | .reopen _ => (a, .reopened (.ok ()))

/-! ## In memory -/

theorem memMachine_step {log : InMemoryJobReplayLog} {a : AbsLog} (h : log.Refines a)
    (op : LogOp) :
    (memMachine.step log op).2 = (absMachine.step a op).2
      ∧ (memMachine.step log op).1.Refines (absMachine.step a op).1 := by
  cases op with
  | append event io =>
      obtain ⟨hresult, hnext⟩ := h.append event
      exact ⟨congrArg LogOut.appended hresult, hnext⟩
  | replayFrom c => exact ⟨congrArg LogOut.replayed (h.replayFrom c), h⟩
  | nextSeq => exact ⟨congrArg LogOut.number h.nextSeq, h⟩
  | len => exact ⟨congrArg LogOut.number h.nextSeq, h⟩
  | reopen io => exact ⟨rfl, h⟩

/-- The in-memory log answers every sequence of operations as the abstract
one. -/
theorem memMachine_outputs_eq (cap : Usize) (ops : List LogOp) :
    memMachine.outputs (InMemoryJobReplayLog.withCap cap) ops
      = absMachine.outputs ⟨[], cap⟩ ops :=
  Machine.outputs_eq (R := InMemoryJobReplayLog.Refines) (P := fun _ => True)
    (Q := fun _ => True) (fun _ _ _ => trivial) (fun _ _ op h _ _ => memMachine_step h op)
    (InMemoryJobReplayLog.withCap_refines cap) (fun _ _ => trivial) trivial

/-! ## On disk -/

/-- A file has room for all that the abstract log has accepted. -/
def AbsLog.Room (a : AbsLog) : Prop := (fileBytes a.events).length ≤ isizeMax

/-- Events do not go away, so room that there is after a step was there
before it. -/
theorem AbsLog.room_of_step {a : AbsLog} {op : LogOp} (h : (absMachine.step a op).1.Room) :
    a.Room := by
  cases op with
  | append event io =>
      simp only [absMachine, AbsLog.append] at h
      split at h
      · refine Nat.le_trans ?_ h
        simp [AbsLog.events, fileBytes, List.mapIdx_append]
      · exact h
  | _ => exact h

/-- The file log is open, its file reads back, and it holds what the abstract
log has accepted. -/
def InStep (path : PathBuf) (byteCap : Usize)
    (s : Option FileJobReplayLog × Option Bytes) (a : AbsLog) : Prop :=
  ∃ log disk, s = (some log, some disk) ∧ log.path = path ∧ log.byteCap = byteCap
    ∧ FileState.ReadsBack ⟨log, disk⟩ ∧ InMemoryJobReplayLog.Refines ⟨log.toEventBuffer⟩ a

/-- Where a frame has room, a write with no fault is done whole. -/
theorem bytesWritten_done {disk : Bytes} {n : Nat} (h : disk.len + n ≤ isizeMax) :
    bytesWritten disk n .done = n :=
  Nat.min_eq_left (by omega)

/-- With no fault and with room in the file, an append does to the file log
what it does to the in-memory log. -/
theorem append_done {log : FileJobReplayLog} {disk : Bytes} {mem : InMemoryJobReplayLog}
    {event : AppendLogEvent} (hmem : mem.toEventBuffer = log.toEventBuffer)
    (hback : FileState.ReadsBack ⟨log, disk⟩) (hmin : event.timestamp.tvSec ≠ -2 ^ 63)
    (hroom : (fileBytes (mem.append event).2.events).length ≤ isizeMax) :
    (log.append event .done disk).1 = (mem.append event).1
      ∧ (log.append event .done disk).2.1.path = log.path
      ∧ (log.append event .done disk).2.1.byteCap = log.byteCap
      ∧ (log.append event .done disk).2.1.toEventBuffer = (mem.append event).2.toEventBuffer
      ∧ FileState.ReadsBack ⟨(log.append event .done disk).2.1,
          (log.append event .done disk).2.2⟩ := by
  have hdisk := FileState.readsBack_iff.mp hback
  have hlen : log.events.length < 2 ^ 64 :=
    Nat.lt_trans (FileState.events_length_lt hdisk) (by omega)
  rcases Nat.lt_or_ge log.byteCap.toNat (log.byteTotal + event.data.len) with hlt | hfits
  · have hover : ¬log.Reaches event := fun h => absurd h.1 (Nat.not_le_of_lt hlt)
    obtain ⟨e, hsame, ⟨-, rfl⟩ | hmin'⟩ :=
      FileJobReplayLog.append_refused hlen hover .done disk
    · rw [hsame, InMemoryJobReplayLog.append_of_lt (by rw [hmem]; exact hlt), hmem]
      exact ⟨rfl, rfl, rfl, rfl, hback⟩
    · exact absurd hmin' hmin
  · obtain ⟨hmseq, hmevents, hmcap⟩ :=
      InMemoryJobReplayLog.append_of_le (by rw [hmem]; exact hfits)
    have hwhole : bytesWritten disk (frameOf (event.at log.nextSeq)).length .done
        = (frameOf (event.at log.nextSeq)).length := by
      apply bytesWritten_done
      rw [hmevents, hmem, FileState.fileBytes_append, List.length_append] at hroom
      rw [Bytes.len, hdisk]
      exact hroom
    obtain ⟨-, ⟨-, hseq, hevents, hcap, hpath⟩ | ⟨source, herr, -⟩⟩ :=
      FileJobReplayLog.append_reaches hlen ⟨hfits, hmin⟩ .done disk
    · refine ⟨by rw [hseq, hmseq, hmem], hpath, hcap,
        EventBuffer.ext (by rw [hevents, hmevents, hmem]) (by rw [hcap, hmcap, hmem]), ?_⟩
      rw [frameOf_length] at hwhole
      exact (FileState.readsBack_append_iff hback (event, .done)).mpr fun _ =>
        Or.inl ⟨rfl, hwhole⟩
    · rw [writeAll_eq_ok.mpr ⟨rfl, hwhole⟩] at herr
      cases herr

theorem LogOp.Encodable.tvSec_ne {path : PathBuf} {event : AppendLogEvent} {io : WriteOutcome}
    (h : (LogOp.append event io).Encodable path) : event.timestamp.tvSec ≠ -2 ^ 63 := by
  obtain ⟨fields, hfields⟩ := h
  intro hmin
  rw [encodeTimestamp_eq, if_pos hmin] at hfields
  cases hfields

theorem fileMachine_reopen_ok {path : PathBuf} {cap : Usize} {io : OpenIo}
    {before disk : Option Bytes} {log : FileJobReplayLog}
    (h : FileJobReplayLog.withCap path cap io before = (.ok log, disk))
    (old : Option FileJobReplayLog) :
    (fileMachine path cap).step (old, before) (.reopen io)
      = ((some log, disk), .reopened (.ok ())) := by
  simp only [fileMachine, h]

/-- One operation, with no fault and with room in the file, keeps the file log
in step with the abstract one. -/
theorem fileMachine_step {path : PathBuf} {cap : Usize}
    {s : Option FileJobReplayLog × Option Bytes} {a : AbsLog} (h : InStep path cap s a)
    {op : LogOp} (henc : op.Encodable path) (hclean : op.Clean)
    (hroom : (absMachine.step a op).1.Room) :
    ((fileMachine path cap).step s op).2 = (absMachine.step a op).2
      ∧ InStep path cap ((fileMachine path cap).step s op).1 (absMachine.step a op).1 := by
  have h' := h
  obtain ⟨log, disk, rfl, hpath, hcap, hback, hrefines⟩ := h
  cases op with
  | append event io =>
      obtain rfl : io = .done := hclean
      obtain ⟨hresult, hnext⟩ := hrefines.append event
      have hfits : (fileBytes (InMemoryJobReplayLog.append ⟨log.toEventBuffer⟩
          event).2.events).length ≤ isizeMax := by
        rw [hnext.1]
        exact hroom
      obtain ⟨hsame, hpath', hcap', hbuf, hback'⟩ :=
        append_done rfl hback (LogOp.Encodable.tvSec_ne henc) hfits
      have hrefines' : InMemoryJobReplayLog.Refines
          ⟨(log.append event .done disk).2.1.toEventBuffer⟩ (a.append event).2 := by
        rw [hbuf]
        exact hnext
      exact ⟨congrArg LogOut.appended (hsame.trans hresult), _, _, rfl, hpath'.trans hpath,
        hcap'.trans hcap, hback', hrefines'⟩
  | replayFrom c => exact ⟨congrArg LogOut.replayed (hrefines.replayFrom c), h'⟩
  | nextSeq => exact ⟨congrArg LogOut.number hrefines.nextSeq, h'⟩
  | len => exact ⟨congrArg LogOut.number hrefines.nextSeq, h'⟩
  | reopen io =>
      obtain rfl : io = .clean := hclean
      subst hpath hcap
      rw [fileMachine_reopen_ok (FileJobReplayLog.withCap_reopens hback)]
      exact ⟨rfl, h'⟩

/-- Opened on a missing or empty file, and run with no fault of the operating
system and with room in the file, the file log answers every sequence of
operations, reopenings included, as the in-memory log and as the abstract
log. -/
theorem fileMachine_outputs_eq (path : PathBuf) (cap : Usize) {before : Option Bytes}
    (hbefore : before = none ∨ before = some .empty) (ops : List LogOp)
    (henc : ∀ op ∈ ops, op.Encodable path) (hclean : ∀ op ∈ ops, op.Clean)
    (hroom : (absMachine.run ⟨[], cap⟩ ops).1.Room) :
    (fileMachine path cap).outputs (none, before) (.reopen .clean :: ops)
        = memMachine.outputs (InMemoryJobReplayLog.withCap cap) (.reopen .clean :: ops)
      ∧ memMachine.outputs (InMemoryJobReplayLog.withCap cap) (.reopen .clean :: ops)
        = absMachine.outputs ⟨[], cap⟩ (.reopen .clean :: ops) := by
  have hmem := memMachine_outputs_eq cap (.reopen .clean :: ops)
  refine ⟨Eq.trans ?_ hmem.symm, hmem⟩
  have hempty : before.getD .empty = .empty := by
    rcases hbefore with rfl | rfl <;> rfl
  obtain ⟨disk, hopen⟩ := FileJobReplayLog.withCap_fresh path cap hempty
  have hstart : InStep path cap (some (FileJobReplayLog.fresh path cap), some disk) ⟨[], cap⟩ :=
    ⟨_, _, rfl, rfl, rfl, FileJobReplayLog.withCap_readsBack hopen,
      InMemoryJobReplayLog.withCap_refines cap⟩
  rw [Machine.outputs_cons, fileMachine_reopen_ok hopen, Machine.outputs_cons]
  refine congrArg _ (Machine.outputs_eq (R := InStep path cap)
    (P := fun op => op.Encodable path ∧ op.Clean) (Q := AbsLog.Room)
    (fun _ _ => AbsLog.room_of_step) (fun _ _ _ hR hP hQ => fileMachine_step hR hP.1 hP.2 hQ)
    hstart (fun op hop => ⟨henc op hop, hclean op hop⟩) hroom)

/-- A file log that is written before the epoch, closed and reopened. -/
theorem fileMachine_outputs_eq_reopened :
    let event : AppendLogEvent :=
      { stream := .stderr
        data := ⟨[104, 105], by decide⟩
        timestamp := ⟨-3, 250000000, by decide, by decide, by decide⟩ }
    let ops : List LogOp := [.append event .done, .reopen .clean, .nextSeq, .replayFrom 0]
    (fileMachine ⟨utf8 "job.log"⟩ 16).outputs (none, none) (.reopen .clean :: ops)
        = [.reopened (.ok ()), .appended (.ok 0), .reopened (.ok ()), .number 1,
            .replayed [event.at 0]]
      ∧ memMachine.outputs (InMemoryJobReplayLog.withCap 16) (.reopen .clean :: ops)
        = absMachine.outputs ⟨[], 16⟩ (.reopen .clean :: ops) := by
  intro event ops
  have hops : ∀ op ∈ ops, op.Encodable ⟨utf8 "job.log"⟩ ∧ op.Clean := by
    intro op hop
    simp only [ops, List.mem_cons, List.not_mem_nil, or_false] at hop
    rcases hop with rfl | rfl | rfl | rfl
    · exact ⟨⟨(-3, 250000000), by decide⟩, rfl⟩
    · exact ⟨trivial, rfl⟩
    · exact ⟨trivial, trivial⟩
    · exact ⟨trivial, trivial⟩
  have hroom : (absMachine.run ⟨[], 16⟩ ops).1.Room := by
    unfold AbsLog.Room
    decide +kernel
  have heq := fileMachine_outputs_eq ⟨utf8 "job.log"⟩ 16 (Or.inl rfl) ops
    (fun op hop => (hops op hop).1) (fun op hop => (hops op hop).2) hroom
  exact ⟨heq.1.trans (by decide +kernel), heq.2⟩

end Axp
