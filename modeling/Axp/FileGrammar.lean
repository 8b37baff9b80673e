import Mathlib.Data.List.Forall2
import Axp.FileLog

/-!
# The grammar of a file log

What the decoder accepts, said in the terms of the format: a header and
frames, each with its position, a stream tag, a time in seconds and
nanoseconds, a length and as many data bytes. `FrameFields` holds what the
file chooses of a frame, `layout` is the file of a list of them.

`decode_file_log_exact` says that the decoder accepts these files and no
others, that no read leaves the buffer and no sum overflows on any input
(`Panicking` is the decoder with Rust's panics in it), and what becomes of a
file that is cut short. `reencode_iff` says when writing the decoded events
again gives the file back: always, unless a frame is dated `i64::MIN` seconds,
a time the decoder takes and the encoder refuses.
-/

namespace Axp

open LittleEndian Coding

/-! ## The decoder with its panics -/

namespace Panicking

/-- A computation that returns a `Result`, or panics. -/
abbrev MayPanic (α : Type) := ExceptT Error Option α

def panics {α : Type} : MayPanic α := ExceptT.mk none

/-- A computation that cannot panic. -/
def ofResult {α : Type} (r : Result α) : MayPanic α := ExceptT.mk (some r)

/-- `&bytes[start..end]`. -/
def index (bytes : Bytes) (start stop : Nat) : MayPanic (List UInt8) :=
  if start ≤ stop ∧ stop ≤ bytes.len then
    ofResult (.ok ((bytes.toList.drop start).take (stop - start)))
  else panics

/-- `copy_from_slice` into an array of `w` bytes. -/
def copyFromSlice (w : Nat) (slice : List UInt8) : MayPanic (List UInt8) :=
  if slice.length = w then ofResult (.ok slice) else panics

/-- `+=` on a `usize`. -/
def add (a b : Nat) : MayPanic Nat :=
  if a + b < 2 ^ 64 then ofResult (.ok (a + b)) else panics

def readLe (w : Nat) (path : PathBuf) (bytes : Bytes) (offset : Nat) : MayPanic (Nat × Nat) := do
  let readEnd ← ofResult (checkedReadEnd path bytes offset w)
  let raw ← copyFromSlice w (← index bytes offset readEnd)
  ofResult (.ok (ofLe raw, readEnd))

def readU8 (path : PathBuf) (bytes : Bytes) (offset : Nat) : MayPanic (UInt8 × Nat) := do
  let value ← ofResult
    (okOr bytes.toList[offset]? (.replayLogCorrupt path offset "truncated frame"))
  let offset ← add offset 1
  ofResult (.ok (value, offset))

def readI64 (path : PathBuf) (bytes : Bytes) (offset : Nat) : MayPanic (I64 × Nat) := do
  let (word, offset) ← readLe 8 path bytes offset
  ofResult (.ok (toI64 word, offset))

/-- One turn of the decoding loop. -/
def decodeFrame (path : PathBuf) (bytes : Bytes) (byteCap : Usize) (count : Nat)
    (byteTotal frameStart : Nat) : MayPanic (LogEvent × Nat × Nat) := do
  let (seq, offset) ← readLe 8 path bytes frameStart
  let (tag, offset) ← readU8 path bytes offset
  let stream ← ofResult (decodeStream tag path frameStart)
  let (secs, offset) ← readI64 path bytes offset
  let (nanos, offset) ← readLe 4 path bytes offset
  let (dataLen, offset) ← readLe 8 path bytes offset
  let dataEnd ← ofResult (okOr (checkedAdd offset dataLen)
    (.replayLogCorrupt path frameStart "frame data length overflows file offset"))
  if bytes.len < dataEnd then
    ofResult (.error (.replayLogCorrupt path offset "truncated frame data"))
  else do
    let expectedSeq ← ofResult (seqFromLen count path frameStart)
    if seq ≠ expectedSeq then
      ofResult (.error (.replayLogCorrupt path frameStart
        s!"expected seq {expectedSeq}, found {seq}"))
    else do
      let byteTotal ← ofResult (okOr (checkedAdd byteTotal dataLen) (.logBufferOverflow byteCap))
      if byteCap.toNat < byteTotal then ofResult (.error (.logBufferOverflow byteCap))
      else do
        let _data ← index bytes offset dataEnd
        let timestamp ← ofResult (decodeTimestamp secs nanos path frameStart)
        ofResult (.ok ({ seq := seq, stream := stream, data := bytes.slice offset dataLen,
                         timestamp := timestamp }, byteTotal, dataEnd))

/-! ### No panic -/

variable {α β : Type} {path : PathBuf} {bytes : Bytes} {off w : Nat}

/-- A step that cannot panic, followed by what cannot either. -/
theorem ofResult_bind {x : Result α} {f : α → Result β} {g : α → MayPanic β}
    (h : ∀ a, x = .ok a → g a = ofResult (f a)) : (ofResult x >>= g) = ofResult (x >>= f) := by
  cases x with
  | error e => rfl
  | ok a => exact h a rfl

/-- A slice inside the buffer. -/
theorem index_eq {start stop : Nat} (h : start ≤ stop) (hstop : stop ≤ bytes.len) :
    index bytes start stop
      = ofResult (.ok ((bytes.toList.drop start).take (stop - start))) := if_pos ⟨h, hstop⟩

theorem readLe_eq : readLe w path bytes off = ofResult (Axp.readLe w path bytes off) := by
  refine ofResult_bind fun readEnd hend => ?_
  obtain ⟨rfl, hle⟩ := checkedReadEnd_eq_ok.mp hend
  have hlen : ((bytes.toList.drop off).take (off + w - off)).length = w := by
    simp only [Bytes.len] at hle
    rw [List.length_take, List.length_drop]
    omega
  rw [index_eq (Nat.le_add_right off w) hle]
  show copyFromSlice w _ >>= _ = _
  rw [copyFromSlice, if_pos hlen, Nat.add_sub_cancel_left]
  rfl

theorem readU8_eq : readU8 path bytes off = ofResult (Axp.readU8 path bytes off) := by
  have hbytes := bytes.len_lt
  refine ofResult_bind fun value hvalue => ?_
  obtain ⟨hlt, -⟩ := List.getElem?_eq_some_iff.mp (okOr_eq_ok.mp hvalue)
  simp only [Bytes.len] at hbytes
  rw [add, if_pos (by omega)]
  rfl

theorem readI64_eq : readI64 path bytes off = ofResult (Axp.readI64 path bytes off) := by
  rw [readI64, readLe_eq]
  exact ofResult_bind fun _ _ => rfl

/-- A turn of the loop never panics. -/
theorem decodeFrame_eq {cap : Usize} {count total : Nat} :
    decodeFrame path bytes cap count total off
      = ofResult (Axp.decodeFrame path bytes cap count total off) := by
  simp only [decodeFrame, readLe_eq, readU8_eq, readI64_eq]
  refine ofResult_bind fun seq _ => ofResult_bind fun tag _ => ofResult_bind fun stream _ =>
    ofResult_bind fun secs _ => ofResult_bind fun nanos _ => ofResult_bind fun dataLen _ =>
    ofResult_bind fun dataEnd hend => ?_
  obtain ⟨rfl, -⟩ := checkedAdd_eq_some.mp (okOr_eq_ok.mp hend)
  split
  · rfl
  · rename_i hfit
    refine ofResult_bind fun expected _ => ?_
    split
    · rfl
    · refine ofResult_bind fun byteTotal _ => ?_
      split
      · rfl
      · rw [index_eq (Nat.le_add_right _ _) (Nat.le_of_not_lt hfit)]
        exact ofResult_bind fun timestamp _ => rfl

/-- The decoding loop. -/
def decodeFrames (path : PathBuf) (bytes : Bytes) (byteCap : Usize)
    (events : List LogEvent) (byteTotal offset : Nat) : MayPanic (List LogEvent × Nat) :=
  if offset < bytes.len then
    match _h : (decodeFrame path bytes byteCap events.length byteTotal offset).run with
    | none => panics
    | some (.error e) => ofResult (.error e)
    | some (.ok (event, byteTotal, dataEnd)) =>
        decodeFrames path bytes byteCap (events ++ [event]) byteTotal dataEnd
  else ofResult (.ok (events, byteTotal))
termination_by bytes.len - offset
decreasing_by
  have hframe := _h
  rw [decodeFrame_eq] at hframe
  have := decodeFrame_offset_lt (Option.some.inj hframe)
  omega

def decodeFileLog (path : PathBuf) (bytes : Bytes) (byteCap : Usize) :
    MayPanic (List LogEvent × Nat) :=
  if fileLogMagic.isPrefixOf bytes.toList then
    decodeFrames path bytes byteCap [] 0 fileLogHeaderLen
  else ofResult (.error (.replayLogCorrupt path 0 "missing replay log magic header"))

theorem decodeFrames_eq {cap : Usize} {events : List LogEvent} {total : Nat} :
    decodeFrames path bytes cap events total off
      = ofResult (Axp.decodeFrames path bytes cap events total off) := by
  fun_induction Axp.decodeFrames path bytes cap events total off with
  | case1 events total off hlt e herr =>
      have hrun : (decodeFrame path bytes cap events.length total off).run = some (.error e) := by
        rw [decodeFrame_eq, herr]
        rfl
      rw [decodeFrames, if_pos hlt]
      split
      · next h => cases hrun.symm.trans h
      · next e' h => rw [Except.error.inj (Option.some.inj (hrun.symm.trans h))]
      · next h => cases hrun.symm.trans h
  | case2 events total off hlt e total' off' hok ih =>
      have hrun : (decodeFrame path bytes cap events.length total off).run
          = some (.ok (e, total', off')) := by
        rw [decodeFrame_eq, hok]
        rfl
      rw [decodeFrames, if_pos hlt]
      split
      · next h => cases hrun.symm.trans h
      · next h => cases hrun.symm.trans h
      · next h =>
          obtain ⟨rfl, htotal⟩ := Prod.mk.inj
            (Except.ok.inj (Option.some.inj (hrun.symm.trans h)))
          obtain ⟨rfl, rfl⟩ := Prod.mk.inj htotal
          exact ih
  | case3 events total off hge =>
      rw [decodeFrames, if_neg hge]

/-- **On no input does the decoder slice outside the buffer or overflow.** -/
theorem decodeFileLog_eq (path : PathBuf) (bytes : Bytes) (cap : Usize) :
    decodeFileLog path bytes cap = ofResult (Axp.decodeFileLog path bytes cap) := by
  unfold decodeFileLog Axp.decodeFileLog
  split
  · exact decodeFrames_eq
  · rfl

end Panicking

/-! ## The format -/

/-- What a file chooses of a frame. Its sequence number is its position. -/
structure FrameFields where
  tag : UInt8
  secs : Int
  nanos : Nat
  data : List UInt8
deriving DecidableEq, Repr

namespace FrameFields

/-- The frame at a position. -/
def bytes (f : FrameFields) (seq : Nat) : List UInt8 :=
  leBytes 8 seq ++ f.tag :: (leBytes 8 (twosComplement f.secs)
    ++ (leBytes 4 f.nanos ++ (leBytes 8 f.data.length ++ f.data)))

/-- A tag of one of the two streams, and a time: on Unix every signed 64-bit
number of seconds with a nanosecond part below a second is one. -/
structure Valid (f : FrameFields) : Prop where
  tag : f.tag = 1 ∨ f.tag = 2
  secs : -2 ^ 63 ≤ f.secs ∧ f.secs < 2 ^ 63
  nanos : f.nanos < 1000000000

/-- The event is the frame's, at that position. -/
structure Holds (f : FrameFields) (seq : Nat) (e : LogEvent) : Prop where
  seq : e.seq = seq
  stream : e.stream = if f.tag = 1 then .stdout else .stderr
  secs : e.timestamp.tvSec = f.secs
  nanos : e.timestamp.tvNsec = f.nanos
  data : e.data.toList = f.data

end FrameFields

/-- The file of a list of frames. -/
def layout (fields : List FrameFields) : List UInt8 :=
  fileLogMagic ++ fields.zipIdx.flatMap fun f => f.1.bytes f.2

/-- The data bytes of a list of frames. -/
def dataTotal (fields : List FrameFields) : Nat := (fields.map (·.data.length)).sum

/-- A file within the cap, with its events and the number of their data
bytes. -/
structure FileOf (cap : Usize) (bytes : List UInt8) (fields : List FrameFields)
    (events : List LogEvent) (total : Nat) : Prop where
  valid : ∀ f ∈ fields, f.Valid
  bytes_eq : bytes = layout fields
  length_eq : events.length = fields.length
  holds : ∀ (i : Nat) (f : FrameFields) (e : LogEvent), fields[i]? = some f →
    events[i]? = some e → f.Holds i e
  total_eq : total = dataTotal fields
  total_le : total ≤ cap.toNat

/-! ### Frames and events -/

/-- The fields of an event's frame. -/
def FrameFields.ofEvent (e : LogEvent) : FrameFields where
  tag := encodeStream e.stream
  secs := e.timestamp.tvSec
  nanos := e.timestamp.tvNsec
  data := e.data.toList

namespace FrameFields

variable {f : FrameFields} {seq : Nat} {e : LogEvent} {events : List LogEvent}

theorem ofEvent_valid (e : LogEvent) : (ofEvent e).Valid where
  tag := by
    cases hstream : e.stream with
    | stdout => exact Or.inl (by rw [ofEvent, hstream]; rfl)
    | stderr => exact Or.inr (by rw [ofEvent, hstream]; rfl)
  secs := ⟨e.timestamp.sec_ge, e.timestamp.sec_lt⟩
  nanos := e.timestamp.nsec_lt

theorem ofEvent_holds (e : LogEvent) : (ofEvent e).Holds e.seq e where
  seq := rfl
  stream := by
    cases hstream : e.stream with
    | stdout => rw [ofEvent, hstream]; rfl
    | stderr => rw [ofEvent, hstream]; rfl
  secs := rfl
  nanos := rfl
  data := rfl

/-- A valid frame is that of the event it holds. -/
theorem Holds.eq_ofEvent (h : f.Holds seq e) (hvalid : f.Valid) : f = ofEvent e := by
  have htag : f.tag = encodeStream e.stream := by
    rw [h.stream]
    rcases hvalid.tag with htag | htag
    · rw [htag]; rfl
    · rw [htag]; rfl
  cases f
  simp only [ofEvent, h.secs, h.nanos, h.data, ← htag]

end FrameFields

/-- The frames of consecutively numbered events. -/
theorem layout_ofEvent {events : List LogEvent}
    (hseqs : events.map LogEvent.seq = List.range events.length) :
    layout (events.map .ofEvent) = fileBytes events := by
  have hframes : ∀ (es : List LogEvent) (n : Nat), es.map LogEvent.seq = List.range' n es.length →
      ((es.map FrameFields.ofEvent).zipIdx n).flatMap (fun f => f.1.bytes f.2)
        = es.flatMap frameOf := by
    intro es
    induction es with
    | nil => intro n _; rfl
    | cons e es ih =>
        intro n hes
        rw [List.map_cons, List.length_cons, List.range'_succ] at hes
        obtain ⟨rfl, hrest⟩ := List.cons.inj hes
        rw [List.map_cons, List.zipIdx_cons, List.flatMap_cons, List.flatMap_cons,
          ih (e.seq + 1) hrest]
        rfl
  rw [layout, fileBytes, hframes events 0 (by rw [hseqs, List.range_eq_range'])]

theorem dataTotal_ofEvent (events : List LogEvent) :
    dataTotal (events.map .ofEvent) = dataBytes events := by
  rw [dataTotal, List.map_map]
  rfl

/-- The frames of a file are those of its events. -/
theorem fileOf_iff {cap : Usize} {bytes : List UInt8} {fields : List FrameFields}
    {events : List LogEvent} {total : Nat} :
    FileOf cap bytes fields events total ↔
      fields = events.map .ofEvent ∧ bytes = fileBytes events
        ∧ events.map LogEvent.seq = List.range events.length ∧ total = dataBytes events
        ∧ total ≤ cap.toNat := by
  constructor
  · intro h
    have hholds : ∀ (i : Nat) (hi : i < fields.length) (hi' : i < events.length),
        fields[i].Holds i events[i] := fun i hi hi' =>
      h.holds i _ _ (List.getElem?_eq_getElem hi) (List.getElem?_eq_getElem hi')
    have hfields : fields = events.map .ofEvent :=
      List.ext_getElem (by rw [List.length_map, h.length_eq]) fun i hi hi' => by
        rw [List.length_map] at hi'
        rw [List.getElem_map]
        exact (hholds i hi hi').eq_ofEvent (h.valid _ (List.getElem_mem hi))
    have hseqs : events.map LogEvent.seq = List.range events.length :=
      List.ext_getElem (by rw [List.length_map, List.length_range]) fun i hi _ => by
        rw [List.length_map] at hi
        rw [List.getElem_map, List.getElem_range]
        exact (hholds i (h.length_eq ▸ hi) hi).seq
    subst hfields
    exact ⟨rfl, h.bytes_eq.trans (layout_ofEvent hseqs), hseqs,
      h.total_eq.trans (dataTotal_ofEvent events), h.total_le⟩
  · rintro ⟨rfl, rfl, hseqs, rfl, hle⟩
    refine ⟨?_, (layout_ofEvent hseqs).symm, (List.length_map _).symm, ?_,
      (dataTotal_ofEvent events).symm, hle⟩
    · intro f hf
      obtain ⟨e, -, rfl⟩ := List.mem_map.mp hf
      exact FrameFields.ofEvent_valid e
    · intro i f e hf he
      have hseq : (events.map LogEvent.seq)[i]? = (List.range events.length)[i]? := by rw [hseqs]
      obtain ⟨hi, -⟩ := List.getElem?_eq_some_iff.mp he
      rw [List.getElem?_map, he, List.getElem?_range hi] at hseq
      rw [List.getElem?_map, he] at hf
      obtain rfl := Option.some.inj hf
      obtain rfl := Option.some.inj hseq
      exact FrameFields.ofEvent_holds e

/-! ## What the decoder accepts -/

/-- The decoder on one input. -/
structure DecodesExactly (path : PathBuf) (bytes : Bytes) (cap : Usize) : Prop where
  /-- It returns without a panic. -/
  total : Panicking.decodeFileLog path bytes cap
    = Panicking.ofResult (decodeFileLog path bytes cap)
  accepts : ∀ events n, decodeFileLog path bytes cap = .ok (events, n)
    ↔ ∃ fields, FileOf cap bytes.toList fields events n
  /-- A cut after the header and some frames leaves these frames. -/
  boundary : ∀ fields events n, FileOf cap bytes.toList fields events n →
    ∀ k < bytes.len, ∀ j, k = (layout (fields.take j)).length →
      decodeFileLog path (bytes.slice 0 k) cap
        = .ok (events.take j, dataTotal (fields.take j))
  /-- Any other cut leaves a file that is rejected. -/
  torn : ∀ fields events n, FileOf cap bytes.toList fields events n →
    ∀ k < bytes.len, (∀ j, k ≠ (layout (fields.take j)).length) →
      ∃ e, decodeFileLog path (bytes.slice 0 k) cap = .error e

variable {path : PathBuf} {bytes : Bytes} {cap : Usize} {fields : List FrameFields}
  {events : List LogEvent} {n : Nat}

theorem decodeFileLog_iff :
    decodeFileLog path bytes cap = .ok (events, n)
      ↔ ∃ fields, FileOf cap bytes.toList fields events n := by
  simp only [decodeFileLog_eq_ok, fileOf_iff, exists_eq_left]

theorem slice_zero_toList (bytes : Bytes) (k : Nat) :
    (bytes.slice 0 k).toList = bytes.toList.take k := by
  rw [Bytes.slice_toList, List.drop_zero]

/-- The file of the first events comes first in the file of all. -/
theorem fileBytes_take (events : List LogEvent) (j : Nat) :
    fileBytes events = fileBytes (events.take j) ++ (events.drop j).flatMap frameOf := by
  rw [fileBytes, fileBytes, List.append_assoc, ← List.flatMap_append, List.take_append_drop]

theorem dataBytes_take_le (events : List LogEvent) (j : Nat) :
    dataBytes (events.take j) ≤ dataBytes events := by
  have hsplit : dataBytes events = dataBytes (events.take j) + dataBytes (events.drop j) := by
    rw [dataBytes, dataBytes, dataBytes, ← List.sum_append, ← List.map_append,
      List.take_append_drop]
  omega

namespace FileOf

variable {list : List UInt8}

/-- The first frames of a file are a file. -/
theorem take (h : FileOf cap list fields events n) (j : Nat) :
    FileOf cap (layout (fields.take j)) (fields.take j) (events.take j)
      (dataTotal (fields.take j)) := by
  obtain ⟨rfl, -, hseqs, rfl, hle⟩ := fileOf_iff.mp h
  have htake : (events.take j).map LogEvent.seq = List.range (events.take j).length := by
    rw [List.map_take, hseqs, List.take_range, List.length_take]
  rw [← List.map_take]
  refine fileOf_iff.mpr ⟨rfl, layout_ofEvent htake, htake, dataTotal_ofEvent _, ?_⟩
  rw [dataTotal_ofEvent]
  exact (dataBytes_take_le events j).trans hle

/-- They come first in it. -/
theorem take_bytes (h : FileOf cap list fields events n) (j : Nat) :
    list.take (layout (fields.take j)).length = layout (fields.take j) := by
  obtain ⟨-, hbytes, -⟩ := fileOf_iff.mp h
  obtain ⟨-, htake, -⟩ := fileOf_iff.mp (h.take j)
  rw [htake, hbytes, fileBytes_take events j, List.take_left]

end FileOf

/-- Two files of which one starts the other: its events are the first ones. -/
theorem events_start {bytes bytes' : Bytes} {events events' : List LogEvent} {rest : List UInt8}
    (hbytes : bytes.toList = fileBytes events)
    (hseqs : events.map LogEvent.seq = List.range events.length)
    (hbytes' : bytes'.toList = fileBytes events')
    (hseqs' : events'.map LogEvent.seq = List.range events'.length)
    (hrest : bytes'.toList ++ rest = bytes.toList) : events' <+: events := by
  have hseq : ∀ (b : Bytes) (es : List LogEvent), b.toList = fileBytes es →
      es.map LogEvent.seq = List.range es.length → ∀ e ∈ es, e.seq < 2 ^ 64 := by
    intro b es hb hes e he
    have hlt := FileState.events_length_lt hb
    have hmem : e.seq ∈ es.map LogEvent.seq := List.mem_map_of_mem he
    rw [hes, List.mem_range] at hmem
    omega
  rw [hbytes, hbytes', fileBytes, fileBytes, List.append_assoc] at hrest
  obtain ⟨more, rfl, -⟩ := frame_prefixCode.split (hseq bytes' events' hbytes' hseqs')
    (hseq bytes events hbytes hseqs) (List.append_cancel_left hrest)
  exact List.prefix_append events' more

/-- **The decoder accepts exactly the files of the format, on no input panics,
and of a file that is cut short reads the frames before the cut or nothing.** -/
theorem decode_file_log_exact (path : PathBuf) (bytes : Bytes) (cap : Usize) :
    DecodesExactly path bytes cap where
  total := Panicking.decodeFileLog_eq path bytes cap
  accepts events n := decodeFileLog_iff
  boundary := by
    rintro fields events n h k - j rfl
    refine decodeFileLog_iff.mpr ⟨fields.take j, ?_⟩
    rw [slice_zero_toList, h.take_bytes j]
    exact h.take j
  torn := by
    intro fields events n h k hk hcut
    cases hread : decodeFileLog path (bytes.slice 0 k) cap with
    | error e => exact ⟨e, rfl⟩
    | ok read =>
        exfalso
        obtain ⟨hbytes', hseqs', -⟩ := decodeFileLog_eq_ok.mp hread
        obtain ⟨rfl, hbytes, hseqs, -⟩ := fileOf_iff.mp h
        have hrest : (bytes.slice 0 k).toList ++ bytes.toList.drop k = bytes.toList := by
          rw [slice_zero_toList, List.take_append_drop]
        have hstart := events_start hbytes hseqs hbytes' hseqs' hrest
        refine hcut read.1.length ?_
        rw [← List.map_take, ← List.prefix_iff_eq_take.mp hstart, layout_ofEvent hseqs',
          ← hbytes', slice_zero_toList, List.length_take]
        simp only [Bytes.len] at hk
        omega

/-! ## Writing the events again -/

/-- The header, and `encode_frame` of each event with its number. -/
def reencode (path : PathBuf) (events : List LogEvent) : Result (List UInt8) := do
  let frames ← events.mapM fun e =>
    encodeFrame path e.seq { stream := e.stream, data := e.data, timestamp := e.timestamp }
  .ok (fileLogMagic ++ frames.flatten)

/-- `i64::MIN`. -/
def i64Min : Int := -2 ^ 63

/-- A frame of the file is dated `i64::MIN` seconds. -/
def HasMinSeconds (bytes : List UInt8) : Prop :=
  ∃ fields, (∀ f ∈ fields, f.Valid) ∧ bytes = layout fields ∧ ∃ f ∈ fields, f.secs = i64Min

/-- Valid frames that fit in a buffer hold events. -/
theorem exists_events {fields : List FrameFields} (hvalid : ∀ f ∈ fields, f.Valid)
    (hfit : ∀ f ∈ fields, f.data.length ≤ isizeMax) (k : Nat) :
    ∃ events : List LogEvent, fields = events.map .ofEvent
      ∧ events.map LogEvent.seq = List.range' k events.length := by
  induction fields generalizing k with
  | nil => exact ⟨[], rfl, rfl⟩
  | cons f fields ih =>
      obtain ⟨events, rfl, hseqs⟩ := ih (fun g hg => hvalid g (List.mem_cons_of_mem _ hg))
        (fun g hg => hfit g (List.mem_cons_of_mem _ hg)) (k + 1)
      have hf := hvalid f List.mem_cons_self
      let e : LogEvent :=
        { seq := k
          stream := if f.tag = 1 then .stdout else .stderr
          data := ⟨f.data, hfit f List.mem_cons_self⟩
          timestamp :=
            { tvSec := f.secs
              tvNsec := f.nanos
              sec_ge := hf.secs.1
              sec_lt := hf.secs.2
              nsec_lt := hf.nanos } }
      have he : f.Holds k e := ⟨rfl, rfl, rfl, rfl, rfl⟩
      refine ⟨e :: events, ?_, ?_⟩
      · rw [List.map_cons, ← he.eq_ofEvent hf]
      · rw [List.map_cons, List.length_cons, List.range'_succ, hseqs]

/-- A frame is at least as long as its data. -/
theorem data_length_le {fields : List FrameFields} {f : FrameFields} (hf : f ∈ fields) :
    f.data.length ≤ (layout fields).length := by
  obtain ⟨i, hi, hget⟩ := List.mem_iff_getElem.mp hf
  have hmem : (f, i) ∈ fields.zipIdx :=
    List.mem_zipIdx_iff_getElem?.mpr (List.getElem?_eq_some_iff.mpr ⟨hi, hget⟩)
  obtain ⟨before, after, hsplit⟩ := List.append_of_mem hmem
  rw [layout, hsplit, List.flatMap_append, List.flatMap_cons, FrameFields.bytes]
  simp only [List.length_append, List.length_cons]
  omega

/-- A file has one reading. -/
theorem layout_unique {bytes : Bytes} {fields fields' : List FrameFields} {events : List LogEvent}
    {n : Nat} (h : FileOf cap bytes.toList fields events n) (hvalid : ∀ f ∈ fields', f.Valid)
    (hlayout : bytes.toList = layout fields') : fields' = fields := by
  obtain ⟨rfl, hbytes, hseqs, -⟩ := fileOf_iff.mp h
  have hfit : ∀ f ∈ fields', f.data.length ≤ isizeMax := fun f hf =>
    (data_length_le hf).trans (hlayout ▸ bytes.length_le)
  obtain ⟨events', rfl, hseqs'⟩ := exists_events hvalid hfit 0
  rw [← List.range_eq_range'] at hseqs'
  rw [layout_ofEvent hseqs'] at hlayout
  have hfirst := events_start hbytes hseqs hlayout hseqs' (List.append_nil _)
  have hsecond := events_start hlayout hseqs' hbytes hseqs (List.append_nil _)
  rw [hfirst.eq_of_length (Nat.le_antisymm hfirst.length_le hsecond.length_le)]

/-- The frames of the events, up to one that is refused. -/
theorem encodeFrames_eq (path : PathBuf) (events : List LogEvent) :
    (events.mapM fun e => encodeFrame path e.seq
        { stream := e.stream, data := e.data, timestamp := e.timestamp }) =
      if ∃ e ∈ events, e.timestamp.tvSec = i64Min then
        .error (.replayLogCorrupt path 0 "timestamp seconds exceed frame range")
      else .ok (events.map frameOf) := by
  induction events with
  | nil => simp [pure, Except.pure]
  | cons e events ih =>
      rw [List.mapM_cons, ih, encodeFrame_eq]
      by_cases he : e.timestamp.tvSec = -2 ^ 63
      · have hmin : ∃ e' ∈ e :: events, e'.timestamp.tvSec = i64Min :=
          ⟨e, List.mem_cons_self, he⟩
        rw [if_pos he, if_pos hmin]
        rfl
      · rw [if_neg he]
        by_cases hrest : ∃ e ∈ events, e.timestamp.tvSec = i64Min
        · obtain ⟨e', he', hmin⟩ := hrest
          rw [if_pos ⟨e', he', hmin⟩, if_pos ⟨e', List.mem_cons_of_mem _ he', hmin⟩]
          rfl
        · rw [if_neg hrest, if_neg (by simpa [i64Min] using ⟨he, by simpa [i64Min] using hrest⟩)]
          rfl

/-- The decoded events are written out unless one is dated `i64::MIN`. -/
theorem reencode_eq (path : PathBuf) (events : List LogEvent) :
    reencode path events =
      if ∃ e ∈ events, e.timestamp.tvSec = i64Min then
        .error (.replayLogCorrupt path 0 "timestamp seconds exceed frame range")
      else .ok (fileBytes events) := by
  rw [reencode, encodeFrames_eq]
  split
  · rfl
  · show Except.ok (fileLogMagic ++ (events.map frameOf).flatten) = _
    rw [← List.flatMap_def, fileBytes]

/-- **Writing the events of a file again gives the file back exactly if no
frame is dated `i64::MIN` seconds.** -/
theorem reencode_iff (h : decodeFileLog path bytes cap = .ok (events, n)) :
    reencode path events = .ok bytes.toList ↔ ¬HasMinSeconds bytes.toList := by
  obtain ⟨fields, hfile⟩ := decodeFileLog_iff.mp h
  obtain ⟨rfl, hbytes, -⟩ := fileOf_iff.mp hfile
  have hmin : HasMinSeconds bytes.toList ↔ ∃ e ∈ events, e.timestamp.tvSec = i64Min := by
    constructor
    · rintro ⟨fields', hvalid, hlayout, f, hf, hsecs⟩
      rw [layout_unique hfile hvalid hlayout] at hf
      obtain ⟨e, he, rfl⟩ := List.mem_map.mp hf
      exact ⟨e, he, hsecs⟩
    · rintro ⟨e, he, hsecs⟩
      exact ⟨_, hfile.valid, hfile.bytes_eq, _, List.mem_map_of_mem he, hsecs⟩
  rw [reencode_eq, hmin, hbytes]
  split
  · next hbad => exact iff_of_false (fun herr => nomatch herr) (not_not.mpr hbad)
  · next hgood => exact iff_of_true rfl hgood

/-- An event a second and a half before the epoch. -/
def earlyEvent : LogEvent where
  seq := 0
  stream := .stderr
  data := ⟨[111, 107], by decide⟩
  timestamp :=
    { tvSec := -2, tvNsec := 500000000, sec_ge := by decide, sec_lt := by decide,
      nsec_lt := by decide }

def earlyFile : Bytes := ⟨fileBytes [earlyEvent], by decide⟩

theorem earlyFile_decodes :
    decodeFileLog ⟨utf8 "job.log"⟩ earlyFile 16 = .ok ([earlyEvent], 2) :=
  decodeFileLog_eq_ok.mpr ⟨rfl, rfl, rfl, by decide⟩

theorem reencode_iff_early :
    reencode ⟨utf8 "job.log"⟩ [earlyEvent] = .ok earlyFile.toList := by
  refine (reencode_iff earlyFile_decodes).mpr ?_
  rintro ⟨fields, hvalid, hlayout, f, hf, hsecs⟩
  have hfile : FileOf 16 earlyFile.toList [.ofEvent earlyEvent] [earlyEvent] 2 :=
    fileOf_iff.mpr ⟨rfl, rfl, rfl, rfl, by decide⟩
  rw [layout_unique hfile hvalid hlayout, List.mem_singleton] at hf
  rw [hf] at hsecs
  revert hsecs
  decide

/-- The earliest time there is. -/
def firstEvent : LogEvent where
  seq := 0
  stream := .stdout
  data := ⟨[111, 107], by decide⟩
  timestamp :=
    { tvSec := -2 ^ 63, tvNsec := 1, sec_ge := by decide, sec_lt := by decide,
      nsec_lt := by decide }

/-- A frame that is read and cannot be written. -/
theorem reencode_refuses_min : ∃ bytes,
    decodeFileLog ⟨utf8 "job.log"⟩ bytes 16 = .ok ([firstEvent], 2)
      ∧ reencode ⟨utf8 "job.log"⟩ [firstEvent]
        = .error (.replayLogCorrupt ⟨utf8 "job.log"⟩ 0 "timestamp seconds exceed frame range") := by
  refine ⟨⟨fileBytes [firstEvent], by decide⟩, ?_, ?_⟩
  · exact decodeFileLog_eq_ok.mpr ⟨rfl, rfl, rfl, by decide⟩
  · decide +kernel

end Axp
