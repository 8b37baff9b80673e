import Axp.FileLog

/-!
# The file log across crashes

The process that writes a file log can die at any moment, in the middle of a
write too: the bytes that have reached the file stay, and the next process
opens what it finds. An append has been acknowledged when it has returned its
sequence number.

`acknowledged_survive`: whatever opens, appends and deaths there have been, an
acknowledged event is at its sequence number in every log that opens the file
from then on, and every event there is acknowledged or was in flight when a
process died. What a death can do is to cut a frame (or the header) off
inside; such a file is never opened again and never changes (`cut_for_good`).
-/

namespace Axp

open Lts

/-! ## What a death leaves -/

/-- A header or a last frame that is there only in part. -/
inductive Cut (events : List LogEvent) : List UInt8 → Prop
  | header (k : Nat) : events = [] → 0 < k → k < fileLogHeaderLen →
      Cut events (fileLogMagic.take k)
  | frame (event : AppendLogEvent) (k : Nat) : 0 < k → k < fileLogFrameFixedLen + event.data.len →
      Cut events (fileBytes events ++ (frameOf (event.at events.length)).take k)

/-- The file holds these events: it is new and they are none, it holds them
and nothing else, or a cut follows them. -/
inductive OnDisk (events : List LogEvent) (bytes : List UInt8) : Prop
  | new : events = [] → bytes = [] → OnDisk events bytes
  | whole : bytes = fileBytes events → OnDisk events bytes
  | cut : Cut events bytes → OnDisk events bytes

/-- The events are numbered from 0. -/
def Numbered (events : List LogEvent) : Prop :=
  events.map LogEvent.seq = List.range events.length

section

variable {events events' : List LogEvent} {bytes : List UInt8}

theorem EventBuffer.numbered (b : EventBuffer) : Numbered b.events := b.seq_eq

theorem Numbered.append (h : Numbered events) (event : AppendLogEvent) :
    Numbered (events ++ [event.at events.length]) := by
  rw [Numbered, List.map_append, h, List.length_append, List.length_singleton, List.range_succ]
  rfl

theorem Numbered.seq_lt (h : Numbered events) {e : LogEvent} (he : e ∈ events) :
    e.seq < events.length := by
  have hmem : e.seq ∈ events.map LogEvent.seq := List.mem_map_of_mem he
  rwa [h, List.mem_range] at hmem

theorem fileBytes_ne_nil (events : List LogEvent) : fileBytes events ≠ [] :=
  List.append_ne_nil_of_left_ne_nil (by decide) _

/-- A file that holds events whole holds no others. -/
theorem fileBytes_inj (h : Numbered events) (h' : Numbered events') (hlen : events.length < 2 ^ 64)
    (hlen' : events'.length < 2 ^ 64) (heq : fileBytes events = fileBytes events') :
    events = events' := by
  have hframes : events.flatMap frameOf ++ [] = events'.flatMap frameOf := by
    rw [List.append_nil]
    exact List.append_cancel_left heq
  obtain ⟨more, rfl, hnil⟩ := frame_prefixCode.split
    (fun e he => Nat.lt_trans (h.seq_lt he) hlen) (fun e he => Nat.lt_trans (h'.seq_lt he) hlen')
    hframes
  cases more with
  | nil => rw [List.append_nil]
  | cons e more =>
      rw [List.flatMap_cons] at hnil
      have hne := congrArg List.length hnil
      rw [List.length_append, frameOf_length, fileLogFrameFixedLen, List.length_nil] at hne
      omega

/-- A file with a cut holds no events whole. -/
theorem Cut.ne_fileBytes (h : Cut events bytes) (hnum : Numbered events)
    (hnum' : Numbered events') (hlen : events.length < 2 ^ 64) (hlen' : events'.length < 2 ^ 64) :
    bytes ≠ fileBytes events' := by
  cases h with
  | header k hnil hpos hk =>
      intro heq
      have hle := congrArg List.length heq
      rw [fileBytes, List.length_append, List.length_take, ← fileLogHeaderLen] at hle
      omega
  | frame event k hpos hk =>
      intro heq
      rw [fileBytes, fileBytes, List.append_assoc] at heq
      refine frame_prefixCode.torn (fun e he => ?_) (fun e he => ?_) hlen hpos ?_
        (List.append_cancel_left heq)
      · exact Nat.lt_trans (hnum.seq_lt he) hlen
      · exact Nat.lt_trans (hnum'.seq_lt he) hlen'
      · rw [frameOf_length]
        exact hk

theorem OnDisk.length_lt {disk : Bytes} (h : OnDisk events disk.toList) :
    events.length < 2 ^ 63 := by
  cases h with
  | new hnil _ =>
      rw [hnil]
      decide
  | whole heq => exact FileState.events_length_lt heq
  | cut hcut =>
      generalize hbytes : disk.toList = bytes at hcut
      cases hcut with
      | header k hnil _ _ =>
          rw [hnil]
          decide
      | frame event k _ _ =>
          have hdisk := disk.len_lt
          have hframes := FileState.length_le_frames events
          rw [Bytes.len, hbytes, fileBytes, List.length_append, List.length_append] at hdisk
          omega

theorem Cut.ne_nil (h : Cut events bytes) : bytes ≠ [] := by
  cases h with
  | header k _ hpos hk =>
      intro hnil
      rcases List.take_eq_nil_iff.mp hnil with rfl | hmagic
      · exact Nat.lt_irrefl _ hpos
      · exact absurd hmagic (by decide)
  | frame event k _ _ => exact List.append_ne_nil_of_left_ne_nil (fileBytes_ne_nil _) _

end

/-! ## Opening what is there -/

namespace FileJobReplayLog

variable {path : PathBuf} {cap : Usize} {io : OpenIo} {events : List LogEvent} {disk : Option Bytes}

/-- The header is written to a new file, whole or in part, and nothing to
another. -/
theorem onDisk_writeHeader {contents : Bytes} (h : OnDisk events contents.toList)
    (path : PathBuf) (outcome : WriteOutcome) :
    OnDisk events (writeHeader path outcome contents).2.toList := by
  by_cases hempty : contents.len = 0
  · have hnil : contents.toList = [] := List.length_eq_zero_iff.mp hempty
    have hevents : events = [] := by
      cases h with
      | new hevents _ => exact hevents
      | whole heq => exact absurd (heq.symm.trans hnil) (fileBytes_ne_nil _)
      | cut hcut => exact absurd hnil hcut.ne_nil
    have hleft : (writeHeader path outcome contents).2.toList
        = fileLogMagic.take (bytesWritten contents fileLogMagic.length outcome) := by
      have hcontents := writeAll_contents contents fileLogMagic outcome
      rw [hnil, List.nil_append] at hcontents
      rw [writeHeader, if_pos hempty, ← hcontents]
      split
      · next heq => rw [heq]
      · next heq => rw [heq]
    rw [hleft]
    subst hevents
    generalize bytesWritten contents fileLogMagic.length outcome = k
    rcases Nat.eq_zero_or_pos k with rfl | hpos
    · exact .new rfl rfl
    · rcases Nat.lt_or_ge k fileLogHeaderLen with hlt | hge
      · exact .cut (.header k rfl hpos hlt)
      · refine .whole ?_
        rw [List.take_of_length_le hge]
        rfl
  · rw [writeHeader, if_neg hempty]
    exact h

/-- Whatever comes of opening a file, it holds what it held. -/
theorem onDisk_withCap (h : OnDisk events (disk.getD .empty).toList) (path : PathBuf)
    (cap : Usize) (io : OpenIo) :
    OnDisk events ((withCap path cap io disk).2.getD .empty).toList := by
  unfold withCap
  split
  · exact h
  · simp only
    split
    · exact h
    · have hheader := onDisk_writeHeader h path io.header
      split
      · next heq =>
          rw [heq] at hheader
          exact hheader
      · next heq =>
          rw [heq] at hheader
          exact hheader

/-- Opening writes nothing to a file that is not empty. -/
theorem withCap_contents (h : (disk.getD .empty).toList ≠ []) (path : PathBuf) (cap : Usize)
    (io : OpenIo) : (withCap path cap io disk).2.getD .empty = disk.getD .empty := by
  have hheader : writeHeader path io.header (disk.getD .empty) = (.ok (), disk.getD .empty) :=
    if_neg fun hempty => h (List.length_eq_zero_iff.mp hempty)
  unfold withCap
  split
  · rfl
  · simp only [hheader]
    split <;> rfl

/-- A log that opens has a file. -/
theorem withCap_eq_some {log : FileJobReplayLog} (h : (withCap path cap io disk).1 = .ok log) :
    ∃ contents, withCap path cap io disk = (.ok log, some contents) := by
  rcases withCap_cases path cap io disk with ⟨contents, -, hopen⟩ | ⟨source, herr⟩
  · rw [hopen] at h ⊢
    exact ⟨contents, by rw [← h]⟩
  · rw [herr] at h
    cases h

/-- A log that opens holds what the file holds. -/
theorem withCap_onDisk {log : FileJobReplayLog} (hnum : Numbered events)
    (h : OnDisk events (disk.getD .empty).toList) (hopen : (withCap path cap io disk).1 = .ok log) :
    log.events = events ∧ ∃ contents, (withCap path cap io disk).2 = some contents
      ∧ contents.toList = fileBytes events := by
  obtain ⟨contents, heq⟩ := withCap_eq_some hopen
  have hback : contents.toList = fileBytes log.events :=
    FileState.readsBack_iff.mp (withCap_readsBack heq)
  have hdisk := onDisk_withCap h path cap io
  rw [heq, Option.getD_some] at hdisk
  have hlen := hdisk.length_lt
  have hlen' := FileState.events_length_lt hback
  have hsame : log.events = events := by
    cases hdisk with
    | new _ hnil => exact absurd (hback.symm.trans hnil) (fileBytes_ne_nil _)
    | whole hwhole =>
        exact fileBytes_inj log.numbered hnum (by omega) (by omega) (hback.symm.trans hwhole)
    | cut hcut =>
        exact absurd hback (hcut.ne_fileBytes hnum log.numbered (by omega) (by omega))
  exact ⟨hsame, contents, by rw [heq], hsame ▸ hback⟩

/-- With nothing in the way, a file is read back when it decodes. -/
theorem readBack_clean {contents : Bytes} :
    (∃ log, readBack path cap .clean contents = .ok log)
      ↔ ∃ read, decodeFileLog path contents cap = .ok read := by
  constructor
  · rintro ⟨log, h⟩
    exact ⟨_, (readBack_eq_ok h).1⟩
  · rintro ⟨read, h⟩
    have hnum := decodeFileLog_eq_ok.mp h
    let log : FileJobReplayLog := ⟨⟨read.1, read.2, cap, hnum.2.1, hnum.2.2.1, hnum.2.2.2⟩, path⟩
    have hback : FileState.ReadsBack ⟨log, contents⟩ := h
    exact ⟨log, readBack_eq_log hback⟩

/-- A file that holds events whole decodes under the caps they are within. -/
theorem decodes_iff {contents : Bytes} (hnum : Numbered events)
    (h : contents.toList = fileBytes events) :
    (∃ read, decodeFileLog path contents cap = .ok read) ↔ dataBytes events ≤ cap.toNat := by
  constructor
  · rintro ⟨read, hread⟩
    obtain ⟨hbytes, hseqs, htotal, hle⟩ := decodeFileLog_eq_ok.mp hread
    have hlen := FileState.events_length_lt h
    have hlen' := FileState.events_length_lt hbytes
    have hsame : read.1 = events :=
      fileBytes_inj hseqs hnum (by omega) (by omega) (hbytes.symm.trans h)
    rwa [htotal, hsame] at hle
  · exact fun hle => ⟨(events, dataBytes events), decodeFileLog_eq_ok.mpr ⟨h, hnum, rfl, hle⟩⟩

/-- With nothing in the way, a file opens when it is not cut and what it holds
is within the cap. -/
theorem withCap_clean (hnum : Numbered events) (h : OnDisk events (disk.getD .empty).toList) :
    (∃ log, (withCap path cap .clean disk).1 = .ok log) ↔
      ¬Cut events (disk.getD .empty).toList ∧ dataBytes events ≤ cap.toNat := by
  obtain ⟨-, hnew, hsame⟩ := writeHeader_done path (disk.getD .empty)
  rw [withCap_clean_eq, readBack_clean]
  cases h with
  | new hevents hnil =>
      subst hevents
      rw [decodes_iff hnum (hnew hnil), iff_and_self]
      exact fun _ hcut => hcut.ne_nil hnil
  | whole hwhole =>
      have hlen := FileState.events_length_lt hwhole
      rw [hsame (hwhole ▸ fileBytes_ne_nil _), decodes_iff hnum hwhole, iff_and_self]
      exact fun _ hcut => hcut.ne_fileBytes hnum hnum (by omega) (by omega) hwhole
  | cut hcut =>
      have hlen := (OnDisk.cut hcut).length_lt
      refine iff_of_false ?_ fun hboth => hboth.1 hcut
      rintro ⟨read, hread⟩
      rw [hsame hcut.ne_nil] at hread
      obtain ⟨hbytes, hseqs, -, -⟩ := decodeFileLog_eq_ok.mp hread
      have hlen' := FileState.events_length_lt hbytes
      exact hcut.ne_fileBytes hnum hseqs (by omega) (by omega) hbytes

/-- An append that comes back with an error leaves the log as it was; one that
does not has stored the event at the next position. -/
theorem append_cases {log : FileJobReplayLog} (hlen : log.events.length < 2 ^ 64)
    (event : AppendLogEvent) (outcome : WriteOutcome) (contents : Bytes) :
    (∃ e, (log.append event outcome contents).1 = .error e
        ∧ (log.append event outcome contents).2.1 = log)
      ∨ ((log.append event outcome contents).1 = .ok log.nextSeq
        ∧ (log.append event outcome contents).2.1.path = log.path
        ∧ (log.append event outcome contents).2.1.events
          = log.events ++ [event.at log.nextSeq]) := by
  by_cases hreach : log.Reaches event
  · obtain ⟨-, ⟨-, hok, hevents, -, hpath⟩ | ⟨source, -, herr, hsame⟩⟩ :=
      append_reaches hlen hreach outcome contents
    · exact .inr ⟨hok, hpath, hevents⟩
    · exact .inl ⟨_, herr, hsame⟩
  · obtain ⟨e, heq, -⟩ := append_refused hlen hreach outcome contents
    exact .inl ⟨e, by rw [heq], by rw [heq]⟩

/-- A write that stops leaves the events as they were, with one more or with a
cut after them. -/
theorem onDisk_append {log : FileJobReplayLog} {contents : Bytes}
    (h : contents.toList = fileBytes log.events) (event : AppendLogEvent) (written : Nat)
    (source : ErrorText) :
    let left := (log.append event (.writeErr written source) contents).2.2.toList
    OnDisk log.events left ∨ left = fileBytes (log.events ++ [event.at log.nextSeq]) := by
  intro left
  have hlen := FileState.events_length_lt h
  by_cases hreach : log.Reaches event
  · have hleft : left = fileBytes log.events ++ (frameOf (event.at log.nextSeq)).take
        (bytesWritten contents (frameOf (event.at log.nextSeq)).length
          (.writeErr written source)) := by
      have hafter := (append_reaches (by omega) hreach (.writeErr written source) contents).1
      show (log.append event (.writeErr written source) contents).2.2.toList = _
      rw [hafter, writeAll_contents, h]
    rw [hleft]
    generalize bytesWritten contents _ (.writeErr written source) = k
    rcases Nat.eq_zero_or_pos k with rfl | hpos
    · exact .inl (.whole (List.append_nil _))
    · rcases Nat.lt_or_ge k (frameOf (event.at log.nextSeq)).length with hlt | hge
      · rw [frameOf_length] at hlt
        exact .inl (.cut (.frame event k hpos hlt))
      · right
        rw [List.take_of_length_le hge, FileState.fileBytes_append]
  · obtain ⟨e, heq, -⟩ := append_refused (by omega) hreach (.writeErr written source) contents
    refine .inl (.whole ?_)
    show (log.append event (.writeErr written source) contents).2.2.toList = _
    rw [heq]
    exact h

end FileJobReplayLog

/-! ## Processes that come and go -/

/-- A log's file, the process's log while one has it open, and what has been
told of appends: the events whose sequence number was returned, and those
whose append was never heard of again. -/
structure LogLives where
  path : PathBuf
  disk : Option Bytes
  log : Option FileJobReplayLog
  acked : List LogEvent
  inFlight : List LogEvent

/-- What happens to a log. A process that dies while it opens the log is one
whose opening fails. -/
inductive LogLabel where
  | opens (byteCap : Usize) (io : OpenIo)
  | appends (event : AppendLogEvent) (io : WriteOutcome)
  | dies
  /-- The process dies in an append, when it has written so many bytes. -/
  | diesWriting (event : AppendLogEvent) (written : Nat)

deriving instance DecidableEq for WriteOutcome

namespace LogLives

/-- The contents of the file; a missing file has none. -/
def contents (self : LogLives) : Bytes := self.disk.getD .empty

def opens (self : LogLives) (byteCap : Usize) (io : OpenIo) : LogLives :=
  let (log, disk) := FileJobReplayLog.withCap self.path byteCap io self.disk
  { self with log := log.toOption, disk := disk }

def appends (self : LogLives) (log : FileJobReplayLog) (event : AppendLogEvent)
    (io : WriteOutcome) : LogLives :=
  let (seq, log, disk) := log.append event io self.contents
  { self with
      log := some log
      disk := some disk
      acked := self.acked ++ (seq.toOption.map event.at).toList }

def diesWriting (self : LogLives) (log : FileJobReplayLog) (event : AppendLogEvent)
    (written : Nat) : LogLives :=
  { self with
      log := none
      disk := some (log.append event (.writeErr written "") self.contents).2.2
      inFlight := self.inFlight ++ [event.at log.nextSeq] }

/-- One process at a time, on a file that was not there or was empty. -/
def system : System LogLives LogLabel where
  init s := s.contents.toList = [] ∧ s.log = none ∧ s.acked = [] ∧ s.inFlight = []
  step s
    | .opens byteCap io => if s.log.isNone then some (s.opens byteCap io) else none
    | .appends event io => s.log.map (s.appends · event io)
    | .dies => s.log.map fun _ => { s with log := none }
    | .diesWriting event written => s.log.map (s.diesWriting · event written)

/-- An append is written whole or not at all. -/
def Clean (s : LogLives) : LogLabel → Prop
  | .appends event io => ∀ log ∈ s.log, FileState.CleanAppend ⟨log, s.contents⟩ (event, io)
  | _ => True

instance (s : FileState) (op : AppendLogEvent × WriteOutcome) : Decidable (s.CleanAppend op) :=
  inferInstanceAs (Decidable ((_ ∧ _) → ((_ ∧ _) ∨ _)))

instance (s : LogLives) : ∀ l, Decidable (s.Clean l)
  | .appends _ _ => inferInstanceAs (Decidable (∀ _ ∈ s.log, _))
  | .opens _ _ => inferInstanceAs (Decidable True)
  | .dies => inferInstanceAs (Decidable True)
  | .diesWriting _ _ => inferInstanceAs (Decidable True)

/-- The log is these events, wherever it is kept, and they are what has been
told. -/
structure Keeps (s : LogLives) (events : List LogEvent) : Prop where
  numbered : Numbered events
  acked : ∀ e ∈ s.acked, events[e.seq]? = some e
  known : ∀ e ∈ events, e ∈ s.acked ∨ e ∈ s.inFlight
  onDisk : OnDisk events s.contents.toList
  running : ∀ log, s.log = some log →
    log.events = events ∧ s.contents.toList = fileBytes events

variable {s s' : LogLives} {l : LogLabel} {events : List LogEvent}

theorem Keeps.init (h : system.init s) : s.Keeps [] := by
  obtain ⟨hnil, hlog, hacked, -⟩ := h
  refine ⟨rfl, ?_, fun e he => absurd he List.not_mem_nil, .new rfl hnil, ?_⟩
  · rw [hacked]
    exact fun e he => absurd he List.not_mem_nil
  · intro log hsome
    rw [hlog] at hsome
    cases hsome

theorem Keeps.opens (h : s.Keeps events) (byteCap : Usize) (io : OpenIo) :
    (s.opens byteCap io).Keeps events := by
  refine ⟨h.numbered, h.acked, h.known, ?_, fun log hlog => ?_⟩
  · exact FileJobReplayLog.onDisk_withCap h.onDisk s.path byteCap io
  · have hopen : (FileJobReplayLog.withCap s.path byteCap io s.disk).1 = .ok log := by
      cases hw : (FileJobReplayLog.withCap s.path byteCap io s.disk).1 with
      | error e =>
          replace hlog : (FileJobReplayLog.withCap s.path byteCap io s.disk).1.toOption = _ := hlog
          rw [hw] at hlog
          cases hlog
      | ok log' =>
          replace hlog : (FileJobReplayLog.withCap s.path byteCap io s.disk).1.toOption = _ := hlog
          rw [hw] at hlog
          exact congrArg _ (Option.some.inj hlog)
    obtain ⟨hevents, contents, hdisk, hwhole⟩ :=
      FileJobReplayLog.withCap_onDisk h.numbered h.onDisk hopen
    refine ⟨hevents, ?_⟩
    show ((FileJobReplayLog.withCap s.path byteCap io s.disk).2.getD .empty).toList = _
    rw [hdisk]
    exact hwhole

/-- One more event. -/
theorem getElem?_concat {e e' : LogEvent} (h : events[e.seq]? = some e) :
    (events ++ [e'])[e.seq]? = some e := by
  rw [List.getElem?_append_left (List.getElem?_eq_some_iff.mp h).1]
  exact h

theorem Keeps.appends (h : s.Keeps events) {log : FileJobReplayLog} (hlog : s.log = some log)
    {event : AppendLogEvent} {io : WriteOutcome}
    (hclean : FileState.CleanAppend ⟨log, s.contents⟩ (event, io)) :
    ∃ more, (s.appends log event io).Keeps (events ++ more) := by
  obtain ⟨rfl, hwhole⟩ := h.running log hlog
  have hlen : log.events.length < 2 ^ 64 :=
    Nat.lt_trans (FileState.events_length_lt hwhole) (by decide)
  have hback : FileState.ReadsBack ⟨log, s.contents⟩ := FileState.readsBack_iff.mpr hwhole
  have hafter := FileState.readsBack_iff.mp ((FileState.readsBack_append_iff hback _).mpr hclean)
  rw [FileState.append_disk, FileState.append_log] at hafter
  rcases FileJobReplayLog.append_cases hlen event io s.contents with
    ⟨e, herr, hsame⟩ | ⟨hok, -, hevents⟩
  · refine ⟨[], ?_⟩
    rw [List.append_nil]
    rw [hsame] at hafter
    have hacked : (s.appends log event io).acked = s.acked := by
      show s.acked ++ ((log.append event io s.contents).1.toOption.map event.at).toList = _
      rw [herr]
      exact List.append_nil _
    refine ⟨h.numbered, hacked ▸ h.acked, hacked ▸ h.known, .whole hafter, fun log' hlog' => ?_⟩
    obtain rfl : (log.append event io s.contents).2.1 = log' := Option.some.inj hlog'
    exact ⟨congrArg (·.events) hsame, hafter⟩
  · refine ⟨[event.at log.nextSeq], ?_⟩
    rw [hevents] at hafter
    have hacked : (s.appends log event io).acked = s.acked ++ [event.at log.nextSeq] := by
      show s.acked ++ ((log.append event io s.contents).1.toOption.map event.at).toList = _
      rw [hok]
      rfl
    refine ⟨h.numbered.append event, ?_, ?_, .whole hafter, fun log' hlog' => ?_⟩
    · rw [hacked, List.forall_mem_append, List.forall_mem_singleton]
      refine ⟨fun e he => getElem?_concat (h.acked e he), ?_⟩
      exact List.getElem?_concat_length
    · rw [hacked, List.forall_mem_append, List.forall_mem_singleton]
      refine ⟨fun e he => ?_, .inl List.mem_concat_self⟩
      exact (h.known e he).imp (List.mem_append_left _) id
    · obtain rfl : (log.append event io s.contents).2.1 = log' := Option.some.inj hlog'
      exact ⟨hevents, hafter⟩

theorem Keeps.diesWriting (h : s.Keeps events) {log : FileJobReplayLog} (hlog : s.log = some log)
    (event : AppendLogEvent) (written : Nat) :
    ∃ more, (s.diesWriting log event written).Keeps (events ++ more) := by
  obtain ⟨rfl, hwhole⟩ := h.running log hlog
  rcases FileJobReplayLog.onDisk_append hwhole event written "" with hdisk | hmore
  · refine ⟨[], ?_⟩
    rw [List.append_nil]
    refine ⟨h.numbered, h.acked, fun e he => ?_, hdisk, fun log' hlog' => (by cases hlog')⟩
    exact (h.known e he).imp id (List.mem_append_left _)
  · refine ⟨[event.at log.nextSeq], h.numbered.append event, ?_, ?_, .whole hmore,
      fun log' hlog' => (by cases hlog')⟩
    · exact fun e he => getElem?_concat (h.acked e he)
    · rw [List.forall_mem_append, List.forall_mem_singleton]
      exact ⟨fun e he => (h.known e he).imp id (List.mem_append_left _),
        .inr List.mem_concat_self⟩

/-- The step lemma: nothing that the log holds is lost or moved. -/
theorem Keeps.step (h : s.Keeps events) (hclean : s.Clean l) (hs : system.step s l = some s') :
    ∃ more, s'.Keeps (events ++ more) := by
  cases l with
  | opens byteCap io =>
      obtain ⟨-, heq⟩ := Option.ite_none_right_eq_some.mp hs
      obtain rfl := Option.some.inj heq
      exact ⟨[], (List.append_nil events).symm ▸ h.opens byteCap io⟩
  | appends event io =>
      obtain ⟨log, hlog, rfl⟩ := Option.map_eq_some_iff.mp hs
      exact h.appends hlog (hclean log hlog)
  | dies =>
      obtain ⟨log, hlog, rfl⟩ := Option.map_eq_some_iff.mp hs
      refine ⟨[], (List.append_nil events).symm ▸ ?_⟩
      exact ⟨h.numbered, h.acked, h.known, h.onDisk, fun log' hlog' => (by cases hlog')⟩
  | diesWriting event written =>
      obtain ⟨log, hlog, rfl⟩ := Option.map_eq_some_iff.mp hs
      exact h.diesWriting hlog event written

theorem Keeps.reach (h : ReachVia system Clean s) : ∃ events, s.Keeps events := by
  induction h with
  | init h0 => exact ⟨[], Keeps.init h0⟩
  | step l _ hclean hs ih =>
      obtain ⟨events, hkeeps⟩ := ih
      obtain ⟨more, hkeeps'⟩ := hkeeps.step hclean hs
      exact ⟨events ++ more, hkeeps'⟩

theorem Keeps.run (h : s.Keeps events) {ls : List LogLabel} (hclean : system.Throughout Clean s ls)
    (hrun : system.run s ls = some s') : ∃ more, s'.Keeps (events ++ more) := by
  induction ls generalizing s events with
  | nil =>
      obtain rfl := Option.some.inj hrun
      exact ⟨[], (List.append_nil events).symm ▸ h⟩
  | cons l ls ih =>
      obtain ⟨m, hm, hrest⟩ := System.run_cons.mp hrun
      obtain ⟨hfirst, hlater⟩ := System.throughout_cons.mp hclean m hm
      obtain ⟨more, hkeeps⟩ := h.step hfirst hm
      obtain ⟨more', hkeeps'⟩ := ih hkeeps hlater hrest
      exact ⟨more ++ more', (List.append_assoc events more more') ▸ hkeeps'⟩

/-- After any openings, clean appends and deaths, there is one list of events:
an acknowledged event is in it at its sequence number, and the others in it
were in flight when a process died. A process that has the log open has these
events, and so has every log that opens the file; it opens, if nothing is in
the way, unless the file is cut or the events are beyond the cap. However the
run goes on, the list only gets longer. -/
theorem acknowledged_survive (h : ReachVia system Clean s) : ∃ events, s.Keeps events
    ∧ (∀ cap io log, (FileJobReplayLog.withCap s.path cap io s.disk).1 = .ok log →
        log.events = events)
    ∧ (∀ cap, (∃ log, (FileJobReplayLog.withCap s.path cap .clean s.disk).1 = .ok log) ↔
        ¬Cut events s.contents.toList ∧ dataBytes events ≤ cap.toNat)
    ∧ ∀ ls s', system.Throughout Clean s ls → system.run s ls = some s' →
        ∃ more, s'.Keeps (events ++ more) := by
  obtain ⟨events, hkeeps⟩ := Keeps.reach h
  refine ⟨events, hkeeps, fun cap io log hopen => ?_, fun cap => ?_, fun ls s' hclean hrun => ?_⟩
  · exact (FileJobReplayLog.withCap_onDisk hkeeps.numbered hkeeps.onDisk hopen).1
  · exact FileJobReplayLog.withCap_clean hkeeps.numbered hkeeps.onDisk
  · exact hkeeps.run hclean hrun

/-! ### A cut file -/

/-- The last thing that was written to the file is not whole. -/
def IsCut (s : LogLives) : Prop := ∃ events, Numbered events ∧ Cut events s.contents.toList

/-- No opening gets through, and none writes. -/
theorem IsCut.opens (h : s.IsCut) (byteCap : Usize) (io : OpenIo) :
    (s.opens byteCap io).log = none ∧ (s.opens byteCap io).contents = s.contents := by
  obtain ⟨events, hnum, hcut⟩ := h
  have hsame := FileJobReplayLog.withCap_contents hcut.ne_nil s.path byteCap io
  refine ⟨?_, hsame⟩
  show (FileJobReplayLog.withCap s.path byteCap io s.disk).1.toOption = none
  cases hw : (FileJobReplayLog.withCap s.path byteCap io s.disk).1 with
  | error e => rfl
  | ok log =>
      obtain ⟨-, contents, hdisk, hwhole⟩ :=
        FileJobReplayLog.withCap_onDisk hnum (.cut hcut) hw
      rw [hdisk, Option.getD_some] at hsame
      have hlen := (OnDisk.cut hcut).length_lt
      exact absurd ((congrArg Bytes.toList hsame).symm.trans hwhole)
        (hcut.ne_fileBytes hnum hnum (by omega) (by omega))

/-- A file that has been cut stays as it is: in every run on from there no
process opens the log and nothing is written to it, though all that had been
acknowledged is in it. -/
theorem cut_for_good (h : ReachVia system Clean s) (hcut : s.IsCut) {ls : List LogLabel}
    (hrun : system.run s ls = some s') :
    s'.log = none ∧ s'.contents = s.contents ∧ s'.acked = s.acked := by
  obtain ⟨events, hkeeps⟩ := Keeps.reach h
  have hlog : s.log = none := by
    cases hsome : s.log with
    | none => rfl
    | some log =>
        obtain ⟨-, hwhole⟩ := hkeeps.running log hsome
        obtain ⟨other, hnum, hother⟩ := hcut
        have hlen := (OnDisk.cut hother).length_lt
        have hlen' := FileState.events_length_lt hwhole
        exact absurd hwhole (hother.ne_fileBytes hnum hkeeps.numbered (by omega) (by omega))
  refine run_invariant (I := fun m => m.log = none ∧ m.contents = s.contents
    ∧ m.acked = s.acked) ?_ ⟨hlog, rfl, rfl⟩ hrun
  rintro m l m' ⟨hnone, hsame, hacked⟩ hs
  have hcut' : m.IsCut := by rwa [IsCut, hsame]
  cases l with
  | opens byteCap io =>
      obtain rfl := Option.some.inj (Option.ite_none_right_eq_some.mp hs).2
      obtain ⟨hfails, hleft⟩ := hcut'.opens byteCap io
      exact ⟨hfails, hleft.trans hsame, hacked⟩
  | appends event io =>
      obtain ⟨log, hsome, -⟩ := Option.map_eq_some_iff.mp hs
      cases hnone.symm.trans hsome
  | dies =>
      obtain ⟨log, hsome, -⟩ := Option.map_eq_some_iff.mp hs
      cases hnone.symm.trans hsome
  | diesWriting event written =>
      obtain ⟨log, hsome, -⟩ := Option.map_eq_some_iff.mp hs
      cases hnone.symm.trans hsome

/-! ### Two deaths -/

def okEvent : AppendLogEvent where
  stream := .stdout
  data := ⟨[79, 75], by decide⟩
  timestamp := .unixEpoch

/-- A log whose file is not there. -/
def unopened : LogLives := ⟨⟨utf8 "job.log"⟩, none, none, [], []⟩

theorem unopened_init : system.init unopened := ⟨rfl, rfl, rfl, rfl⟩

/-- A process appends, and dies at the end of a second append. -/
def diesOnce : List LogLabel :=
  [.opens 16 .clean, .appends okEvent .done, .diesWriting okEvent 31]

/-- The next one dies inside an append. -/
def diesTwice : List LogLabel := diesOnce ++ [.opens 16 .clean, .diesWriting okEvent 30]

/-- After the first death the file opens, with the event of which nothing was
heard behind the other. -/
theorem acknowledged_survive_death : ∃ s log, ReachVia system Clean s
    ∧ s.acked = [okEvent.at 0] ∧ s.inFlight = [okEvent.at 1]
    ∧ (FileJobReplayLog.withCap s.path 16 .clean s.disk).1 = .ok log
    ∧ log.events[0]? = some (okEvent.at 0) := by
  obtain ⟨s, hs, hp⟩ := ReachVia.of_run (G := Clean) unopened_init diesOnce
    (fun s => s.acked = [okEvent.at 0] && s.inFlight = [okEvent.at 1]
      && (FileJobReplayLog.withCap s.path 16 .clean s.disk).1.toOption.isSome)
    (by decide +kernel)
  simp only [Bool.and_eq_true, decide_eq_true_eq, Option.isSome_iff_exists] at hp
  obtain ⟨⟨hacked, hflight⟩, log, hsome⟩ := hp
  obtain ⟨events, hkeeps, hopens, -⟩ := acknowledged_survive hs
  cases hopen : (FileJobReplayLog.withCap s.path 16 .clean s.disk).1 with
  | error e =>
      rw [hopen] at hsome
      cases hsome
  | ok log =>
      refine ⟨s, log, hs, hacked, hflight, hopen, ?_⟩
      rw [hopens _ _ _ hopen]
      exact hkeeps.acked (okEvent.at 0) (hacked ▸ List.mem_singleton_self _)

/-- After the second one no process opens it. -/
theorem cut_for_good_twice : ∃ s s', ReachVia system Clean s
    ∧ system.run s [.opens 16 .clean] = some s' ∧ s'.log = none
    ∧ s'.acked = [okEvent.at 0] := by
  obtain ⟨s, hs, hp⟩ := ReachVia.of_run (G := Clean) unopened_init diesTwice
    (fun s => s.acked = [okEvent.at 0] && s.log.isNone
      && s.contents.toList = fileBytes [okEvent.at 0, okEvent.at 1]
        ++ (frameOf (okEvent.at 2)).take 30)
    (by decide +kernel)
  simp only [Bool.and_eq_true, decide_eq_true_eq, Option.isNone_iff_eq_none] at hp
  obtain ⟨⟨hacked, hlog⟩, hcontents⟩ := hp
  have hcut : s.IsCut :=
    ⟨[okEvent.at 0, okEvent.at 1], rfl, hcontents ▸ .frame okEvent 30 (by decide) (by decide)⟩
  have hrun : system.run s [.opens 16 .clean] = some (s.opens 16 .clean) :=
    System.run_cons.mpr ⟨_, if_pos (Option.isNone_iff_eq_none.mpr hlog), rfl⟩
  obtain ⟨hnone, -, hsame⟩ := cut_for_good hs hcut hrun
  exact ⟨s, _, hs, hrun, hnone, hsame.trans hacked⟩

end LogLives

end Axp
