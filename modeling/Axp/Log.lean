import Axp.Error

/-!
# The replay log

`EventBuffer` is the part both log implementations keep in memory: the
events, the running byte total and the cap. Its three laws are fields, so
every buffer that exists obeys them: an event's sequence number is its
index, the total is the sum of the data lengths, and the total is within
the cap. `checkCap` is the byte-cap check both `append`s start with, and
`since` the slice both `replay_from`s return.

`InMemoryJobReplayLog` adds nothing to the buffer. `AbsLog` is the abstract
log, the list of accepted appends, which the in-memory log implements
(`InMemoryJobReplayLog.Refines`) and which the file log is compared with
in `Axp.FileLog`.
-/

namespace Axp

/-- One ordered log chunk from a job; `seq` is its position in the job's log,
from 0. -/
@[ext] structure LogEvent where
  seq : Nat
  stream : LogStream
  data : Bytes
  timestamp : SystemTime
deriving DecidableEq

/-- A log event before the log assigns its sequence number. -/
structure AppendLogEvent where
  stream : LogStream
  data : Bytes
  timestamp : SystemTime
deriving DecidableEq

/-- The event an append becomes at position `seq`. -/
def AppendLogEvent.at (e : AppendLogEvent) (seq : Nat) : LogEvent :=
  { seq := seq, stream := e.stream, data := e.data, timestamp := e.timestamp }

/-- `usize` on a 64-bit target. -/
abbrev Usize := UInt64

/-- Data bytes held by a list of events. -/
def dataBytes (events : List LogEvent) : Nat := (events.map fun e => e.data.len).sum

/-- Default log-buffer byte cap: 64 MiB. -/
def defaultLogByteCap : Usize := 64 * 1024 * 1024

/-! ## The event buffer -/

/-- Events, byte total and byte cap, with the laws that tie them together. -/
structure EventBuffer where
  events : List LogEvent
  byteTotal : Nat
  byteCap : Usize
  seq_eq : events.map LogEvent.seq = List.range events.length
  total_eq : byteTotal = dataBytes events
  total_le : byteTotal ≤ byteCap.toNat
deriving DecidableEq

namespace EventBuffer

/-- An empty buffer with an explicit byte cap. -/
def withCap (byteCap : Usize) : EventBuffer where
  events := []
  byteTotal := 0
  byteCap := byteCap
  seq_eq := rfl
  total_eq := rfl
  total_le := Nat.zero_le _

/-- The byte total is determined by the events. -/
@[ext] theorem ext {a b : EventBuffer} (he : a.events = b.events)
    (hc : a.byteCap = b.byteCap) : a = b := by
  have ht : a.byteTotal = b.byteTotal := by rw [a.total_eq, b.total_eq, he]
  cases a; cases b; simp only at he ht hc; subst he; subst ht; subst hc; rfl

def nextSeq (b : EventBuffer) : Nat := b.events.length

def len (b : EventBuffer) : Nat := b.events.length

/-- All events with `seq >= from_seq`, as the slice from that index. -/
def since (b : EventBuffer) (fromSeq : Nat) : List LogEvent :=
  b.events.drop (min fromSeq b.events.length)

/-- The byte total after `n` more bytes, or the overflow error. -/
def checkCap (b : EventBuffer) (n : Nat) : Result Nat := do
  let newTotal ← okOr (checkedAdd b.byteTotal n) (.logBufferOverflow b.byteCap)
  if b.byteCap.toNat < newTotal then .error (.logBufferOverflow b.byteCap)
  else .ok newTotal

theorem checkCap_of_le {b : EventBuffer} {n : Nat} (h : b.byteTotal + n ≤ b.byteCap.toNat) :
    b.checkCap n = .ok (b.byteTotal + n) := by
  have hcap := b.byteCap.toNat_lt
  rw [checkCap, checkedAdd_of_lt (Nat.lt_of_le_of_lt h hcap)]
  exact if_neg (Nat.not_lt.mpr h)

theorem checkCap_of_lt {b : EventBuffer} {n : Nat} (h : b.byteCap.toNat < b.byteTotal + n) :
    b.checkCap n = .error (.logBufferOverflow b.byteCap) := by
  unfold checkCap checkedAdd
  split
  · exact if_pos h
  · rfl

theorem checkCap_eq_ok {b : EventBuffer} {n t : Nat} (h : b.checkCap n = .ok t) :
    t = b.byteTotal + n ∧ b.byteTotal + n ≤ b.byteCap.toNat := by
  rcases Nat.lt_or_ge b.byteCap.toNat (b.byteTotal + n) with hlt | hle
  · rw [checkCap_of_lt hlt] at h; cases h
  · rw [checkCap_of_le hle] at h
    exact ⟨(Except.ok.inj h).symm, hle⟩

/-- Store an admitted event at the next position. -/
def push (b : EventBuffer) (e : AppendLogEvent) (newTotal : Nat)
    (h : b.checkCap e.data.len = .ok newTotal) : EventBuffer where
  events := b.events ++ [e.at b.nextSeq]
  byteTotal := newTotal
  byteCap := b.byteCap
  seq_eq := by
    simp [b.seq_eq, AppendLogEvent.at, nextSeq, List.range_succ]
  total_eq := by
    rw [(checkCap_eq_ok h).1, b.total_eq]
    simp [dataBytes, AppendLogEvent.at]
  total_le := by
    rw [(checkCap_eq_ok h).1]
    exact (checkCap_eq_ok h).2

theorem seq_at {b : EventBuffer} {i : Nat} {e : LogEvent} (h : b.events[i]? = some e) :
    e.seq = i := by
  have hi : i < b.events.length := (List.getElem?_eq_some_iff.mp h).1
  have hseq := congrArg (·[i]?) b.seq_eq
  simp only [List.getElem?_map, h, List.getElem?_range hi, Option.map_some,
    Option.some.injEq] at hseq
  exact hseq

theorem seq_lt {b : EventBuffer} {e : LogEvent} (h : e ∈ b.events) :
    e.seq < b.events.length := by
  obtain ⟨i, hi⟩ := List.mem_iff_getElem?.mp h
  rw [seq_at hi]
  exact (List.getElem?_eq_some_iff.mp hi).1

theorem since_eq (b : EventBuffer) (c : Nat) : b.since c = b.events.drop c := by
  rw [since]
  rcases Nat.le_total c b.events.length with h | h
  · rw [Nat.min_eq_left h]
  · rw [Nat.min_eq_right h, List.drop_length, List.drop_of_length_le h]

/-- The events from position `c` on are numbered `c`, `c + 1`, ... -/
theorem drop_seqs (b : EventBuffer) (c : Nat) :
    (b.events.drop c).map LogEvent.seq
      = List.range' c (b.events.length - c) := by
  rw [List.map_drop, b.seq_eq, List.range_eq_range', List.drop_range']
  simp

/-- Slicing from an index is selecting by sequence number. -/
theorem since_eq_filter (b : EventBuffer) (c : Nat) :
    b.since c = b.events.filter fun e => c ≤ e.seq := by
  have hbefore : (b.events.take c).filter (fun e => c ≤ e.seq) = [] := by
    rw [List.filter_eq_nil_iff]
    intro e he
    have hmem : e.seq ∈ (b.events.take c).map LogEvent.seq := List.mem_map_of_mem he
    rw [List.map_take, b.seq_eq, List.take_range, List.mem_range] at hmem
    have hlt := Nat.lt_of_lt_of_le hmem (Nat.min_le_left _ _)
    simpa using hlt
  have hafter : (b.events.drop c).filter (fun e => c ≤ e.seq) = b.events.drop c := by
    rw [List.filter_eq_self]
    intro e he
    have hmem : e.seq ∈ (b.events.drop c).map LogEvent.seq := List.mem_map_of_mem he
    rw [drop_seqs, List.mem_range'_1] at hmem
    simpa using hmem.1
  calc b.since c
      = (b.events.take c).filter (fun e => c ≤ e.seq)
          ++ (b.events.drop c).filter (fun e => c ≤ e.seq) := by
        rw [since_eq, hbefore, hafter, List.nil_append]
    _ = b.events.filter fun e => c ≤ e.seq := by
        rw [← List.filter_append, List.take_append_drop]

end EventBuffer

/-! ## The in-memory log -/

/-- In-memory implementation of the replay log. -/
structure InMemoryJobReplayLog extends EventBuffer
deriving DecidableEq

namespace InMemoryJobReplayLog

@[ext] theorem ext {a b : InMemoryJobReplayLog} (h : a.toEventBuffer = b.toEventBuffer) :
    a = b := by
  cases a; cases b; simp only at h; subst h; rfl

def withCap (byteCap : Usize) : InMemoryJobReplayLog := ⟨EventBuffer.withCap byteCap⟩

/-- Append an event and return its sequence number; a refused append
returns the log it was given. -/
def append (log : InMemoryJobReplayLog) (event : AppendLogEvent) :
    Result Nat × InMemoryJobReplayLog :=
  match h : log.checkCap event.data.len with
  | .error e => (.error e, log)
  | .ok newTotal => (.ok log.nextSeq, ⟨log.push event newTotal h⟩)

/-- All events with `seq >= from_seq`. -/
def replayFrom (log : InMemoryJobReplayLog) (fromSeq : Nat) : List LogEvent :=
  log.since fromSeq

theorem append_of_le {log : InMemoryJobReplayLog} {e : AppendLogEvent}
    (h : log.byteTotal + e.data.len ≤ log.byteCap.toNat) :
    (log.append e).1 = .ok log.nextSeq
      ∧ (log.append e).2.events = log.events ++ [e.at log.nextSeq]
      ∧ (log.append e).2.byteCap = log.byteCap := by
  have hcheck := EventBuffer.checkCap_of_le h
  unfold append
  split
  · rename_i heq; rw [hcheck] at heq; cases heq
  · exact ⟨rfl, rfl, rfl⟩

theorem append_of_lt {log : InMemoryJobReplayLog} {e : AppendLogEvent}
    (h : log.byteCap.toNat < log.byteTotal + e.data.len) :
    log.append e = (.error (.logBufferOverflow log.byteCap), log) := by
  have hcheck := EventBuffer.checkCap_of_lt h
  unfold append
  split
  · rename_i heq
    rw [hcheck] at heq
    rw [Except.error.inj heq]
  · rename_i heq; rw [hcheck] at heq; cases heq

/-- What an append can do: store the event at the end, or refuse and change
nothing. -/
theorem append_cases (log : InMemoryJobReplayLog) (e : AppendLogEvent) :
    ((log.append e).1 = .ok log.nextSeq
        ∧ (log.append e).2.events = log.events ++ [e.at log.nextSeq]
        ∧ (log.append e).2.byteCap = log.byteCap)
      ∨ log.append e = (.error (.logBufferOverflow log.byteCap), log) := by
  rcases Nat.lt_or_ge log.byteCap.toNat (log.byteTotal + e.data.len) with h | h
  · exact Or.inr (append_of_lt h)
  · exact Or.inl (append_of_le h)

end InMemoryJobReplayLog

/-! ## The abstract log -/

/-- The purpose of a replay log: the accepted appends, in order, with at most
`cap` bytes of data among them. -/
structure AbsLog where
  accepted : List AppendLogEvent
  cap : Usize

namespace AbsLog

/-- Data bytes accepted so far. -/
def total (a : AbsLog) : Nat := (a.accepted.map fun e => e.data.len).sum

/-- Accept an append that keeps the total within the cap. -/
def append (a : AbsLog) (e : AppendLogEvent) : Result Nat × AbsLog :=
  if a.total + e.data.len ≤ a.cap.toNat then
    (.ok a.accepted.length, { a with accepted := a.accepted ++ [e] })
  else (.error (.logBufferOverflow a.cap), a)

/-- The accepted appends, each at its position. -/
def events (a : AbsLog) : List LogEvent := a.accepted.mapIdx fun i e => e.at i

/-- The accepted events from position `c` on. -/
def replayFrom (a : AbsLog) (c : Nat) : List LogEvent :=
  a.events.filter fun e => c ≤ e.seq

@[simp] theorem events_length (a : AbsLog) : a.events.length = a.accepted.length := by
  simp [events]

theorem dataBytes_events (a : AbsLog) : dataBytes a.events = a.total := by
  have hlen : (a.events.map fun e => e.data.len) = a.accepted.map fun e => e.data.len :=
    List.ext_getElem (by simp) (by simp [events, AppendLogEvent.at])
  rw [dataBytes, hlen, total]

end AbsLog

/-- The in-memory log holds what the abstract one has accepted. -/
def InMemoryJobReplayLog.Refines (log : InMemoryJobReplayLog) (a : AbsLog) : Prop :=
  log.events = a.events ∧ log.byteCap = a.cap

namespace InMemoryJobReplayLog

variable {log : InMemoryJobReplayLog} {a : AbsLog}

theorem withCap_refines (cap : Usize) : (withCap cap).Refines ⟨[], cap⟩ := ⟨rfl, rfl⟩

theorem Refines.nextSeq (h : log.Refines a) : log.nextSeq = a.accepted.length := by
  rw [EventBuffer.nextSeq, h.1, AbsLog.events_length]

/-- An append answers as the abstract one and keeps the two in step. -/
theorem Refines.append (h : log.Refines a) (e : AppendLogEvent) :
    (log.append e).1 = (a.append e).1 ∧ (log.append e).2.Refines (a.append e).2 := by
  have htotal : log.byteTotal = a.total := by
    rw [log.total_eq, h.1, AbsLog.dataBytes_events]
  rcases Nat.lt_or_ge log.byteCap.toNat (log.byteTotal + e.data.len) with hlt | hle
  · have habs : a.append e = (.error (.logBufferOverflow a.cap), a) := by
      rw [AbsLog.append, if_neg (by rw [← htotal, ← h.2]; omega)]
    rw [append_of_lt hlt, habs]
    exact ⟨by rw [h.2], h⟩
  · have habs : a.append e
        = (.ok a.accepted.length, { a with accepted := a.accepted ++ [e] }) := by
      rw [AbsLog.append, if_pos (by rw [← htotal, ← h.2]; exact hle)]
    obtain ⟨hseq, hevents, hcap⟩ := append_of_le hle
    rw [habs]
    refine ⟨by rw [hseq, h.nextSeq], ?_, by rw [hcap, h.2]⟩
    rw [hevents, h.1, h.nextSeq]
    simp [AbsLog.events, List.mapIdx_append]

/-- A replay is the accepted events from the given position on. -/
theorem Refines.replayFrom (h : log.Refines a) (c : Nat) :
    log.replayFrom c = a.replayFrom c := by
  rw [InMemoryJobReplayLog.replayFrom, EventBuffer.since_eq_filter, AbsLog.replayFrom, ← h.1]

end InMemoryJobReplayLog

end Axp
