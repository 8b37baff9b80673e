import Axp.FileFormat
import Axp.Lts

/-!
# The file-backed replay log

`FileJobReplayLog` keeps the same buffer as the in-memory log and, beside it,
a file. The file's contents are the disk's: every operation takes the
contents it finds and returns those it leaves, together with the choices the
operating system makes (`WriteOutcome`, `OpenIo`).

Memory and disk are two copies of one log. `ReadsBack` says they coincide, and
`readsBack_append_iff` says exactly which appends keep it so: those whose write
reaches the file whole, or not at all. The run results below follow from it
by induction.

Opening a log is the same statement read the other way: `withCap_reopens`
says that a file which reads back as a log reopens as that log. What an append
that goes wrong costs is `torn_unreadable`: a write that stops inside a frame
leaves a file that can be opened under no cap.
-/

namespace Axp

open Lts

/-! ## The disk -/

/-- What the operating system does with one `write_all` and the sync after
it. -/
inductive WriteOutcome where
  | done
  | writeErr (written : Nat) (source : ErrorText)
  | syncErr (source : ErrorText)

/-- How many bytes of an `n`-byte buffer reach the file. A file never grows
past `isize::MAX` bytes, whatever the outcome asked for. -/
def bytesWritten (disk : Bytes) (n : Nat) : WriteOutcome → Nat
  | .writeErr written _ => min (min written n) (isizeMax - disk.len)
  | _ => min n (isizeMax - disk.len)

/-- The contents after appending to a file, up to its longest length. -/
def Bytes.extend (disk : Bytes) (more : List UInt8) : Bytes :=
  ⟨(disk.toList ++ more).take isizeMax, by rw [List.length_take]; omega⟩

theorem Bytes.extend_toList {disk : Bytes} {more : List UInt8}
    (h : disk.len + more.length ≤ isizeMax) :
    (disk.extend more).toList = disk.toList ++ more := by
  apply List.take_of_length_le
  rwa [List.length_append]

/-- `write_all` in append mode, then the sync: the result and the contents
left behind. -/
def writeAll (disk : Bytes) (buf : List UInt8) (io : WriteOutcome) :
    Except ErrorText Unit × Bytes :=
  let n := bytesWritten disk buf.length io
  let disk := disk.extend (buf.take n)
  match io with
  | .done => if n < buf.length then (.error "File too large", disk) else (.ok (), disk)
  | .writeErr _ source => (.error source, disk)
  | .syncErr source => (.error source, disk)

/-- Whatever happens, what is left is the contents and the bytes written. -/
theorem writeAll_contents (disk : Bytes) (buf : List UInt8) (io : WriteOutcome) :
    (writeAll disk buf io).2.toList
      = disk.toList ++ buf.take (bytesWritten disk buf.length io) := by
  have hfit : disk.len + (buf.take (bytesWritten disk buf.length io)).length ≤ isizeMax := by
    have := disk.len_le
    rw [List.length_take]
    cases io <;> simp only [bytesWritten] <;> omega
  rw [← Bytes.extend_toList hfit]
  cases io with
  | done =>
      simp only [writeAll]
      split <;> rfl
  | writeErr written source => rfl
  | syncErr source => rfl

/-- A write is reported as done exactly when no fault is met and everything
fits. -/
theorem writeAll_eq_ok {disk : Bytes} {buf : List UInt8} {io : WriteOutcome} :
    (writeAll disk buf io).1 = .ok () ↔
      io = .done ∧ bytesWritten disk buf.length io = buf.length := by
  cases io with
  | done =>
      have hle : bytesWritten disk buf.length .done ≤ buf.length := Nat.min_le_left _ _
      simp only [writeAll, true_and]
      split
      · simp only [reduceCtorEq, false_iff]
        omega
      · simp only [true_iff]
        omega
  | writeErr written source => simp [writeAll]
  | syncErr source => simp [writeAll]

/-- The faults met while opening: none, or the first one's cause. -/
structure OpenIo where
  openFile : Option ErrorText
  metadata : Option ErrorText
  header : WriteOutcome
  seekStart : Option ErrorText
  readToEnd : Option ErrorText
  seekEnd : Option ErrorText

/-- No fault. -/
def OpenIo.clean : OpenIo := ⟨none, none, .done, none, none, none⟩

/-- An I/O result, with its error mapped into the log's. -/
def ioCheck (path : PathBuf) : Option ErrorText → Result Unit
  | none => .ok ()
  | some source => .error (.replayLogIo path source)

/-! ## The log -/

/-- File-backed implementation of the replay log. -/
structure FileJobReplayLog extends EventBuffer where
  path : PathBuf
deriving DecidableEq

namespace FileJobReplayLog

@[ext] theorem ext {a b : FileJobReplayLog} (hp : a.path = b.path)
    (hb : a.toEventBuffer = b.toEventBuffer) : a = b := by
  cases a; cases b; simp only at hp hb; subst hp; subst hb; rfl

/-- The header of a new or empty file. -/
def writeHeader (path : PathBuf) (io : WriteOutcome) (contents : Bytes) :
    Result Unit × Bytes :=
  if contents.len = 0 then
    match writeAll contents fileLogMagic io with
    | (.error source, contents) => (.error (.replayLogIo path source), contents)
    | (.ok (), contents) => (.ok (), contents)
  else (.ok (), contents)

/-- The second half of opening: read everything and rebuild the buffer. -/
def readBack (path : PathBuf) (byteCap : Usize) (io : OpenIo) (contents : Bytes) :
    Result FileJobReplayLog := do
  ioCheck path io.seekStart
  ioCheck path io.readToEnd
  match h : decodeFileLog path contents byteCap with
  | .error e => .error e
  | .ok (events, byteTotal) => do
      ioCheck path io.seekEnd
      .ok
        { path := path
          events := events
          byteTotal := byteTotal
          byteCap := byteCap
          seq_eq := (decodeFileLog_eq_ok.mp h).2.1
          total_eq := (decodeFileLog_eq_ok.mp h).2.2.1
          total_le := (decodeFileLog_eq_ok.mp h).2.2.2 }

/-- Open or create a file-backed replay log with an explicit byte cap; the
second component is the file afterwards. -/
def withCap (path : PathBuf) (byteCap : Usize) (io : OpenIo) (disk : Option Bytes) :
    Result FileJobReplayLog × Option Bytes :=
  match ioCheck path io.openFile with
  | .error e => (.error e, disk)
  | .ok () =>
      let contents := disk.getD .empty
      match ioCheck path io.metadata with
      | .error e => (.error e, some contents)
      | .ok () =>
          match writeHeader path io.header contents with
          | (.error e, contents) => (.error e, some contents)
          | (.ok (), contents) => (readBack path byteCap io contents, some contents)

/-- The next sequence number and the frame of an event stored there. -/
def nextFrame (log : FileJobReplayLog) (event : AppendLogEvent) :
    Result (Nat × List UInt8) := do
  let seq ← seqFromLen log.events.length log.path log.events.length
  let frame ← encodeFrame log.path seq event
  .ok (seq, frame)

/-- Append an event: first to the file, then to the buffer. -/
def append (log : FileJobReplayLog) (event : AppendLogEvent) (io : WriteOutcome)
    (disk : Bytes) : Result Nat × FileJobReplayLog × Bytes :=
  match h : log.checkCap event.data.len with
  | .error e => (.error e, log, disk)
  | .ok newTotal =>
      match log.nextFrame event with
      | .error e => (.error e, log, disk)
      | .ok (seq, frame) =>
          match writeAll disk frame io with
          | (.error source, disk) => (.error (.replayLogIo log.path source), log, disk)
          | (.ok (), disk) =>
              (.ok seq, { log with toEventBuffer := log.push event newTotal h }, disk)

/-- All events with `seq >= from_seq`. -/
def replayFrom (log : FileJobReplayLog) (fromSeq : Nat) : List LogEvent :=
  log.since fromSeq

/-- The event gets as far as the file: within the cap, and its timestamp can
be encoded. -/
def Reaches (log : FileJobReplayLog) (event : AppendLogEvent) : Prop :=
  log.byteTotal + event.data.len ≤ log.byteCap.toNat ∧ event.timestamp.tvSec ≠ -2 ^ 63

theorem nextFrame_eq {log : FileJobReplayLog} {event : AppendLogEvent}
    (hlen : log.events.length < 2 ^ 64) :
    log.nextFrame event =
      if event.timestamp.tvSec = -2 ^ 63 then
        .error (.replayLogCorrupt log.path 0 "timestamp seconds exceed frame range")
      else .ok (log.nextSeq, frameOf (event.at log.nextSeq)) := by
  rw [nextFrame, seqFromLen, if_pos hlen]
  simp only [bind, Except.bind, encodeFrame_eq, EventBuffer.nextSeq]
  split
  · rename_i heq
    split at heq
    · rename_i hmin
      rw [if_pos hmin, Except.error.inj heq]
    · cases heq
  · rename_i heq
    split at heq
    · cases heq
    · rename_i hmin
      rw [if_neg hmin, Except.ok.inj heq]

/-- An append that does not reach the file changes nothing. -/
theorem append_refused {log : FileJobReplayLog} {event : AppendLogEvent}
    (hlen : log.events.length < 2 ^ 64) (h : ¬log.Reaches event) (io : WriteOutcome)
    (disk : Bytes) :
    ∃ e, log.append event io disk = (.error e, log, disk)
      ∧ ((log.byteCap.toNat < log.byteTotal + event.data.len
          ∧ e = .logBufferOverflow log.byteCap)
        ∨ event.timestamp.tvSec = -2 ^ 63) := by
  unfold append
  rcases Nat.lt_or_ge log.byteCap.toNat (log.byteTotal + event.data.len) with hlt | hle
  · have hcheck := EventBuffer.checkCap_of_lt hlt
    split
    · rename_i heq
      rw [hcheck] at heq
      exact ⟨_, rfl, Or.inl ⟨hlt, (Except.error.inj heq).symm⟩⟩
    · rename_i heq; rw [hcheck] at heq; cases heq
  · have hmin : event.timestamp.tvSec = -2 ^ 63 := by
      by_contra hne
      exact h ⟨hle, hne⟩
    have hcheck := EventBuffer.checkCap_of_le hle
    split
    · rename_i heq; rw [hcheck] at heq; cases heq
    · rw [nextFrame_eq hlen, if_pos hmin]
      exact ⟨_, rfl, Or.inr hmin⟩

/-- An append that reaches the file leaves the frame's written part there,
and stores the event exactly when the write is reported as done. -/
theorem append_reaches {log : FileJobReplayLog} {event : AppendLogEvent}
    (hlen : log.events.length < 2 ^ 64) (h : log.Reaches event) (io : WriteOutcome)
    (disk : Bytes) :
    let frame := frameOf (event.at log.nextSeq)
    (log.append event io disk).2.2 = (writeAll disk frame io).2
      ∧ (((writeAll disk frame io).1 = .ok ()
          ∧ (log.append event io disk).1 = .ok log.nextSeq
          ∧ (log.append event io disk).2.1.events
              = log.events ++ [event.at log.nextSeq]
          ∧ (log.append event io disk).2.1.byteCap = log.byteCap
          ∧ (log.append event io disk).2.1.path = log.path)
        ∨ ∃ source, (writeAll disk frame io).1 = .error source
          ∧ (log.append event io disk).1 = .error (.replayLogIo log.path source)
          ∧ (log.append event io disk).2.1 = log) := by
  have hcheck := EventBuffer.checkCap_of_le h.1
  unfold append
  split
  · rename_i heq; rw [hcheck] at heq; cases heq
  · rw [nextFrame_eq hlen, if_neg h.2]
    simp only
    rcases hw : writeAll disk (frameOf (event.at log.nextSeq)) io with ⟨_ | _, disk'⟩
    · exact ⟨rfl, Or.inr ⟨_, rfl, rfl, rfl⟩⟩
    · exact ⟨rfl, Or.inl ⟨rfl, rfl, rfl, rfl, rfl⟩⟩

end FileJobReplayLog

/-! ## Disk and memory under failing writes -/

/-- An open log and the contents of its file. -/
structure FileState where
  log : FileJobReplayLog
  disk : Bytes

namespace FileState

/-- The file decodes, under the log's cap, to exactly what the log holds. -/
def ReadsBack (s : FileState) : Prop :=
  decodeFileLog s.log.path s.disk s.log.byteCap = .ok (s.log.events, s.log.byteTotal)

instance (s : FileState) : Decidable s.ReadsBack := inferInstanceAs (Decidable (_ = _))

/-- One append, with what the operating system does with its write. -/
def append (s : FileState) (op : AppendLogEvent × WriteOutcome) : Result Nat × FileState :=
  let (r, log, disk) := s.log.append op.1 op.2 s.disk
  (r, ⟨log, disk⟩)

@[simp] theorem append_log (s : FileState) (op : AppendLogEvent × WriteOutcome) :
    (s.append op).2.log = (s.log.append op.1 op.2 s.disk).2.1 := rfl

@[simp] theorem append_disk (s : FileState) (op : AppendLogEvent × WriteOutcome) :
    (s.append op).2.disk = (s.log.append op.1 op.2 s.disk).2.2 := rfl

theorem readsBack_iff {s : FileState} :
    s.ReadsBack ↔ s.disk.toList = fileBytes s.log.events := by
  rw [ReadsBack, decodeFileLog_eq_ok]
  constructor
  · exact fun h => h.1
  · exact fun h => ⟨h, s.log.seq_eq, s.log.total_eq, s.log.total_le⟩

theorem length_le_frames : ∀ events : List LogEvent,
    events.length ≤ (events.flatMap frameOf).length
  | [] => Nat.le_refl _
  | e :: es => by
      have := length_le_frames es
      rw [List.flatMap_cons, List.length_append, List.length_cons, frameOf_length,
        fileLogFrameFixedLen]
      omega

/-- Frames are not empty, so a file holds fewer events than bytes. -/
theorem events_length_lt {disk : Bytes} {events : List LogEvent}
    (h : disk.toList = fileBytes events) : events.length < 2 ^ 63 := by
  have hdisk := disk.len_lt
  have hframes := length_le_frames events
  rw [Bytes.len, h, fileBytes, List.length_append] at hdisk
  omega

/-- The append leaves memory and disk in step: it stops before the file, or
its frame is written and synced whole, or none of the frame's bytes reach the
file. -/
def CleanAppend (s : FileState) (op : AppendLogEvent × WriteOutcome) : Prop :=
  s.log.Reaches op.1 →
    let n := fileLogFrameFixedLen + op.1.data.len
    (op.2 = .done ∧ bytesWritten s.disk n op.2 = n) ∨ bytesWritten s.disk n op.2 = 0

theorem fileBytes_append (events : List LogEvent) (e : LogEvent) :
    fileBytes (events ++ [e]) = fileBytes events ++ frameOf e := by
  simp [fileBytes]

/-- The step lemma: from a file that reads back, an append keeps it so
exactly when it is clean. -/
theorem readsBack_append_iff {s : FileState} (h : s.ReadsBack)
    (op : AppendLogEvent × WriteOutcome) :
    (s.append op).2.ReadsBack ↔ s.CleanAppend op := by
  have hdisk := readsBack_iff.mp h
  have hlen : s.log.events.length < 2 ^ 64 := by
    have := events_length_lt hdisk
    omega
  rw [readsBack_iff, append_log, append_disk]
  by_cases hreach : s.log.Reaches op.1
  · have hframe : (frameOf (op.1.at s.log.nextSeq)).length
        = fileLogFrameFixedLen + op.1.data.len := frameOf_length _
    have hcontents := writeAll_contents s.disk (frameOf (op.1.at s.log.nextSeq)) op.2
    obtain ⟨hafter, hcase⟩ := FileJobReplayLog.append_reaches hlen hreach op.2 s.disk
    rw [hafter, hcontents, hdisk, hframe]
    simp only [CleanAppend, hreach, true_imp_iff]
    rcases hcase with ⟨hok, -, hevents, -, -⟩ | ⟨source, herr, -, hlog⟩
    · have hdone := writeAll_eq_ok.mp hok
      rw [hframe] at hdone
      refine iff_of_true ?_ (Or.inl hdone)
      rw [hevents, fileBytes_append, hdone.2, ← hframe, List.take_length]
    · have hfault : ¬(op.2 = .done ∧ bytesWritten s.disk (fileLogFrameFixedLen
          + op.1.data.len) op.2 = fileLogFrameFixedLen + op.1.data.len) := by
        rw [← hframe]
        intro hdone
        rw [writeAll_eq_ok.mpr hdone] at herr
        cases herr
      have hne : frameOf (op.1.at s.log.nextSeq) ≠ [] := fun hnil => by
        rw [hnil, fileLogFrameFixedLen, List.length_nil] at hframe
        omega
      rw [or_iff_right hfault, hlog, List.append_right_eq_self, List.take_eq_nil_iff,
        or_iff_left hne]
  · obtain ⟨e, hstep, -⟩ := FileJobReplayLog.append_refused hlen hreach op.2 s.disk
    simp only [hstep, CleanAppend, hreach, false_imp_iff, hdisk]

/-- Runs of appends on an open log: any contents that `with_cap` accepts to
begin with. -/
def appends : System FileState (AppendLogEvent × WriteOutcome) where
  init s := ∃ io disk, FileJobReplayLog.withCap s.log.path s.log.byteCap io disk
    = (.ok s.log, some s.disk)
  step s op := some (s.append op).2

end FileState

/-! ### Opening -/

namespace FileJobReplayLog

/-- What `read_back` returns is what the decoder read. -/
theorem readBack_eq_ok {path : PathBuf} {cap : Usize} {io : OpenIo} {contents : Bytes}
    {log : FileJobReplayLog} (h : readBack path cap io contents = .ok log) :
    decodeFileLog path contents cap = .ok (log.events, log.byteTotal)
      ∧ log.path = path ∧ log.byteCap = cap := by
  unfold readBack at h
  simp only [bind_eq_ok] at h
  obtain ⟨_, -, _, -, h⟩ := h
  split at h
  · cases h
  · rename_i hdec
    rw [bind_eq_ok] at h
    obtain ⟨_, -, h⟩ := h
    obtain rfl := Except.ok.inj h
    exact ⟨hdec, rfl, rfl⟩

/-- A log that opens reads back, whatever the file held before. -/
theorem withCap_readsBack {path : PathBuf} {cap : Usize} {io : OpenIo}
    {before : Option Bytes} {log : FileJobReplayLog} {disk : Bytes}
    (h : withCap path cap io before = (.ok log, some disk)) :
    FileState.ReadsBack ⟨log, disk⟩ := by
  unfold withCap at h
  split at h
  · cases h
  · simp only at h
    split at h
    · cases h
    · split at h
      · cases h
      · obtain ⟨hread, hdisk⟩ := Prod.mk.inj h
        obtain rfl := Option.some.inj hdisk
        obtain ⟨hdec, hpath, hcap⟩ := readBack_eq_ok hread
        rw [FileState.ReadsBack]
        simp only
        rw [hpath, hcap, hdec]

theorem ioCheck_cases (path : PathBuf) (fault : Option ErrorText) :
    ioCheck path fault = .ok ()
      ∨ ∃ source, fault = some source
        ∧ ioCheck path fault = .error (.replayLogIo path source) := by
  cases fault with
  | none => exact Or.inl rfl
  | some source => exact Or.inr ⟨source, rfl, rfl⟩

/-- With nothing in the way, reading back a file that holds a log's events
rebuilds that log. -/
theorem readBack_eq_log {log : FileJobReplayLog} {disk : Bytes}
    (h : FileState.ReadsBack ⟨log, disk⟩) :
    readBack log.path log.byteCap .clean disk = .ok log := by
  unfold readBack
  simp only [OpenIo.clean, ioCheck, bind, Except.bind]
  split
  · rename_i hdec
    rw [h] at hdec
    cases hdec
  · rename_i hdec
    obtain ⟨hevents, -⟩ := Prod.mk.inj (Except.ok.inj (h.symm.trans hdec))
    exact congrArg Except.ok (FileJobReplayLog.ext rfl (EventBuffer.ext hevents.symm rfl))

/-- What opening comes to, once the file and its header are there. -/
theorem withCap_cases (path : PathBuf) (cap : Usize) (io : OpenIo) (before : Option Bytes) :
    (∃ disk, writeHeader path io.header (before.getD .empty) = (.ok (), disk)
        ∧ withCap path cap io before = (readBack path cap io disk, some disk))
      ∨ ∃ source, (withCap path cap io before).1 = .error (.replayLogIo path source) := by
  unfold withCap
  rcases ioCheck_cases path io.openFile with hopen | ⟨source, -, hopen⟩
  · rcases ioCheck_cases path io.metadata with hmeta | ⟨source, -, hmeta⟩
    · simp only [hopen, hmeta]
      split
      · rename_i e disk hheader
        refine Or.inr ?_
        unfold writeHeader at hheader
        split at hheader
        · split at hheader
          · rename_i source _ _
            exact ⟨source, congrArg Except.error (Except.error.inj (Prod.mk.inj hheader).1).symm⟩
          · cases hheader
        · cases hheader
      · rename_i disk hheader
        exact Or.inl ⟨disk, hheader, rfl⟩
    · simp only [hopen, hmeta]
      exact Or.inr ⟨source, rfl⟩
  · simp only [hopen]
    exact Or.inr ⟨source, rfl⟩

/-- The header, where nothing is in the way. -/
theorem writeHeader_done (path : PathBuf) (contents : Bytes) :
    (writeHeader path .done contents).1 = .ok ()
      ∧ (contents.toList = [] → (writeHeader path .done contents).2.toList = fileBytes [])
      ∧ (contents.toList ≠ [] → (writeHeader path .done contents).2 = contents) := by
  by_cases hempty : contents.len = 0
  · have hnil : contents.toList = [] := List.length_eq_zero_iff.mp hempty
    have hall : bytesWritten contents fileLogMagic.length .done = fileLogMagic.length := by
      show min _ (isizeMax - contents.len) = _
      rw [hempty]
      decide
    have hok := writeAll_eq_ok.mpr ⟨rfl, hall⟩
    have hcontents := writeAll_contents contents fileLogMagic .done
    rw [hall, hnil, List.nil_append, List.take_length] at hcontents
    rw [writeHeader, if_pos hempty]
    split
    · next heq =>
        rw [heq] at hok
        cases hok
    · next heq =>
        rw [heq] at hcontents
        exact ⟨rfl, fun _ => hcontents, fun hne => absurd hnil hne⟩
  · rw [writeHeader, if_neg hempty]
    exact ⟨rfl, fun hnil => absurd (List.length_eq_zero_iff.mpr hnil) hempty, fun _ => rfl⟩

/-- With nothing in the way, opening comes to reading back. -/
theorem withCap_clean_eq (path : PathBuf) (cap : Usize) (before : Option Bytes) :
    withCap path cap .clean before
      = (readBack path cap .clean (writeHeader path .done (before.getD .empty)).2,
          some (writeHeader path .done (before.getD .empty)).2) := by
  obtain ⟨hheader, -⟩ := writeHeader_done path (before.getD .empty)
  rcases hw : writeHeader path .done (before.getD .empty) with ⟨r, contents⟩
  rw [hw] at hheader
  cases hheader
  simp only [withCap, OpenIo.clean, ioCheck, hw]

/-- A file that reads back as a log reopens as that log. -/
theorem withCap_reopens {log : FileJobReplayLog} {disk : Bytes}
    (h : FileState.ReadsBack ⟨log, disk⟩) :
    withCap log.path log.byteCap .clean (some disk) = (.ok log, some disk) := by
  have hne : disk.toList ≠ [] := by
    rw [FileState.readsBack_iff.mp h, fileBytes, fileLogMagic]
    exact List.cons_ne_nil _ _
  obtain ⟨-, -, hsame⟩ := writeHeader_done log.path disk
  rw [withCap_clean_eq, Option.getD_some, hsame hne, readBack_eq_log h]

/-- A log with no events. -/
def fresh (path : PathBuf) (byteCap : Usize) : FileJobReplayLog :=
  { EventBuffer.withCap byteCap with path := path }

/-- A missing or empty file opens as a log with no events. -/
theorem withCap_fresh (path : PathBuf) (cap : Usize) {before : Option Bytes}
    (h : before.getD .empty = .empty) :
    ∃ disk, withCap path cap .clean before = (.ok (fresh path cap), some disk) := by
  obtain ⟨-, hnew, -⟩ := writeHeader_done path (before.getD .empty)
  have hback : FileState.ReadsBack
      ⟨fresh path cap, (writeHeader path .done (before.getD .empty)).2⟩ :=
    FileState.readsBack_iff.mpr (hnew (congrArg Bytes.toList h))
  exact ⟨_, (withCap_clean_eq path cap before).trans (congrArg (·, some _) (readBack_eq_log hback))⟩

end FileJobReplayLog

/-- The state right after a missing file has been opened. -/
def FileState.created (path : PathBuf) (cap : Usize) : FileState where
  log := FileJobReplayLog.fresh path cap
  disk := ⟨fileLogMagic, by decide⟩

theorem FileState.created_init (path : PathBuf) (cap : Usize) :
    appends.init (created path cap) := by
  have hback : (created path cap).ReadsBack := readsBack_iff.mpr rfl
  exact ⟨.clean, none,
    congrArg (·, some (created path cap).disk) (FileJobReplayLog.readBack_eq_log hback)⟩

/-- Over every run of appends on a log with any prior contents, the file reads
back as what is in memory after each of them exactly when every append is
clean. -/
theorem FileState.appends_readBack_iff {s : FileState} (h : appends.init s)
    (ops : List (AppendLogEvent × WriteOutcome)) :
    appends.Always ReadsBack s ops ↔ appends.Throughout CleanAppend s ops := by
  obtain ⟨io, before, hopen⟩ := h
  refine System.always_iff_of_step (J := fun _ => True) ?_ (fun _ _ _ _ _ => trivial)
    (FileJobReplayLog.withCap_readsBack hopen) trivial ops
  intro s op s' _ hs hstep
  obtain rfl := Option.some.inj hstep
  exact readsBack_append_iff hs op

/-- An append refused by a full device before its first byte, then retried. -/
theorem FileState.appends_readBack_retried :
    let event : AppendLogEvent :=
      { stream := .stdout, data := ⟨[104, 105], by decide⟩, timestamp := .unixEpoch }
    appends.Always ReadsBack (created ⟨utf8 "job.log"⟩ 16)
      [(event, .writeErr 0 "No space left on device"), (event, .done)] := by
  intro event
  refine (FileState.appends_readBack_iff (created_init _ _) _).mpr ?_
  refine System.throughout_cons.mpr fun m hm => ⟨fun _ => Or.inr (by decide), ?_⟩
  refine System.throughout_cons.mpr fun m' hm' =>
    ⟨fun _ => Or.inl ⟨rfl, ?_⟩, System.throughout_nil⟩
  obtain rfl := Option.some.inj hm
  decide +kernel

/-! ### A torn frame -/

/-- After a write that stopped inside a frame the file decodes under no cap
and no path: the log cannot be opened any more. -/
theorem FileState.torn_unreadable {s : FileState} (h : s.ReadsBack) {event : AppendLogEvent}
    {disk : Bytes} {k : Nat} (hpos : 0 < k)
    (hpart : k < fileLogFrameFixedLen + event.data.len)
    (hdisk : disk.toList
      = s.disk.toList ++ (frameOf (event.at s.log.nextSeq)).take k)
    (path : PathBuf) (cap : Usize) (read : List LogEvent × Nat) :
    decodeFileLog path disk cap ≠ .ok read := by
  intro hread
  obtain ⟨hbytes, hseqs, -, -⟩ := decodeFileLog_eq_ok.mp hread
  have hbefore := readsBack_iff.mp h
  have hlen := events_length_lt hbefore
  have hlen' := events_length_lt hbytes
  rw [hdisk, hbefore, fileBytes, fileBytes, List.append_assoc] at hbytes
  refine frame_prefixCode.torn (fun e he => ?_) (fun e he => ?_) ?_ hpos ?_
    (List.append_cancel_left hbytes)
  · exact Nat.lt_trans (EventBuffer.seq_lt he) (Nat.lt_trans hlen (by omega))
  · have hmem : e.seq ∈ read.1.map LogEvent.seq := List.mem_map_of_mem he
    rw [hseqs, List.mem_range] at hmem
    exact Nat.lt_trans hmem (Nat.lt_trans hlen' (by omega))
  · exact Nat.lt_trans hlen (by omega)
  · rw [frameOf_length]
    exact hpart

/-- A write that stops after one byte, and a sync that fails after the whole
frame: neither file reads back, and after the second one the next append is
accepted and the log no longer opens. -/
theorem FileState.failed_append_left_behind :
    let path : PathBuf := ⟨utf8 "job.log"⟩
    let event : AppendLogEvent :=
      { stream := .stdout, data := ⟨[104, 105], by decide⟩, timestamp := .unixEpoch }
    let unsynced := (created path 16).append (event, .syncErr "Input/output error")
    let next := unsynced.2.append (event, .done)
    appends.init (created path 16)
      ∧ ¬appends.Always ReadsBack (created path 16)
          [(event, .writeErr 1 "No space left on device")]
      ∧ ¬unsynced.2.ReadsBack ∧ next.1 = .ok 0
      ∧ (FileJobReplayLog.withCap path 16 .clean (some next.2.disk)).1
        = .error (.replayLogCorrupt path 42 "expected seq 1, found 0") := by
  intro path event unsynced next
  refine ⟨created_init _ _, fun h => ?_, ?_, ?_, ?_⟩
  · have htorn := h _ _ (List.prefix_refl _) rfl
    revert htorn
    decide +kernel
  · decide +kernel
  · decide +kernel
  · decide +kernel

end Axp
