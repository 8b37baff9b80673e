import Axp.Log
import Axp.LittleEndian
import Axp.PrefixCode

/-!
# The on-disk log format

`encodeFrame` and `decodeFileLog` as the code computes them, and the format
they share: the magic header followed by one `frameOf` per event.

The decoder is described by a single equivalence, `decodeFileLog_eq_ok`: it
accepts exactly the header followed by the frames of a well-numbered list of
events whose data stays within the cap. It is assembled from one
equivalence per reader (`readLe_eq_ok`), then one for a frame
(`decodeFrame_eq_ok`), then an induction over the remaining bytes for the
loop. Frames form a prefix code (`frame_prefixCode`), so a file has one
reading, and one that ends inside a frame has none.
-/

namespace Axp

open LittleEndian Coding

/-! ## Constants -/

/-- `AXPJOBLOG1\n`. -/
def fileLogMagic : List UInt8 := [65, 88, 80, 74, 79, 66, 76, 79, 71, 49, 10]

def fileLogHeaderLen : Nat := fileLogMagic.length

/-- Sequence number, stream tag, seconds, nanoseconds, data length. -/
def fileLogFrameFixedLen : Nat := 8 + 1 + 8 + 4 + 8

def streamStdout : UInt8 := 1

def streamStderr : UInt8 := 2

/-- `i64`. -/
abbrev I64 : Type := { z : Int // -2 ^ 63 ≤ z ∧ z < 2 ^ 63 }

/-! ## Encoding -/

def seqFromLen (len : Nat) (path : PathBuf) (offset : Nat) : Result Nat :=
  if len < 2 ^ 64 then .ok len
  else .error (.replayLogCorrupt path offset "event count exceeds sequence range")

def encodeStream : LogStream → UInt8
  | .stdout => streamStdout
  | .stderr => streamStderr

def encodeTimestamp (timestamp : SystemTime) (path : PathBuf) (offset : Nat) :
    Result (Int × Nat) :=
  let corrupt := Error.replayLogCorrupt path offset "timestamp seconds exceed frame range"
  match timestamp.durationSince .unixEpoch with
  | .ok duration =>
      if duration.secs < 2 ^ 63 then .ok (duration.secs, duration.nanos)
      else .error corrupt
  | .error duration =>
      if duration.secs < 2 ^ 63 then
        if duration.nanos = 0 then .ok (-duration.secs, 0)
        else if duration.secs + 1 < 2 ^ 63 then
          .ok (-(duration.secs + 1 : Nat), nanosPerSec - duration.nanos)
        else .error corrupt
      else .error corrupt

/-- The bytes of one frame, from its fields. -/
def frameBytes (seq : Nat) (stream : LogStream) (secs : Int) (nanos : Nat)
    (data : Bytes) : List UInt8 :=
  leBytes 8 seq ++ encodeStream stream :: (leBytes 8 (twosComplement secs)
    ++ (leBytes 4 nanos ++ (leBytes 8 data.len ++ data.toList)))

def encodeFrame (path : PathBuf) (seq : Nat) (event : AppendLogEvent) :
    Result (List UInt8) := do
  let (secs, nanos) ← encodeTimestamp event.timestamp path 0
  if 2 ^ 64 ≤ event.data.len then
    .error (.replayLogCorrupt path 0 "log event data length exceeds frame range")
  else do
    let _frameCap ← okOr (checkedAdd fileLogFrameFixedLen event.data.len)
      (.replayLogCorrupt path 0 "frame length exceeds addressable memory")
    .ok (frameBytes seq event.stream secs nanos event.data)

/-! ## Decoding -/

def checkedReadEnd (path : PathBuf) (bytes : Bytes) (offset len : Nat) : Result Nat := do
  let readEnd ← okOr (checkedAdd offset len)
    (.replayLogCorrupt path offset "frame offset overflow")
  if bytes.len < readEnd then .error (.replayLogCorrupt path offset "truncated frame")
  else .ok readEnd

/-- Read a `w`-byte little-endian integer; the offset moves past it. -/
def readLe (w : Nat) (path : PathBuf) (bytes : Bytes) (offset : Nat) :
    Result (Nat × Nat) := do
  let readEnd ← checkedReadEnd path bytes offset w
  .ok (ofLe ((bytes.toList.drop offset).take w), readEnd)

def readU8 (path : PathBuf) (bytes : Bytes) (offset : Nat) : Result (UInt8 × Nat) := do
  let value ← okOr bytes.toList[offset]? (.replayLogCorrupt path offset "truncated frame")
  .ok (value, offset + 1)

def readU32 := readLe 4

def readU64 := readLe 8

/-- The signed reading of eight bytes. -/
def toI64 (n : Nat) : I64 :=
  ⟨signed (n % 2 ^ 64), signed_bounds (Nat.mod_lt _ (by omega))⟩

def readI64 (path : PathBuf) (bytes : Bytes) (offset : Nat) : Result (I64 × Nat) := do
  let (word, offset) ← readLe 8 path bytes offset
  .ok (toI64 word, offset)

def decodeStream (tag : UInt8) (path : PathBuf) (offset : Nat) : Result LogStream :=
  if tag = streamStdout then .ok .stdout
  else if tag = streamStderr then .ok .stderr
  else .error (.replayLogCorrupt path offset s!"invalid stream tag {tag}")

theorem I64.toNat_lt (n : I64) : n.val.toNat < 2 ^ 64 := by
  have := n.property
  omega

theorem I64.natAbs_lt (n : I64) : n.val.natAbs < 2 ^ 64 := by
  have := n.property
  omega

def decodeTimestamp (secs : I64) (nanos : Nat) (path : PathBuf) (offset : Nat) :
    Result SystemTime :=
  let outOfRange := Error.replayLogCorrupt path offset "timestamp exceeds system time range"
  if hn : nanosPerSec ≤ nanos then
    .error (.replayLogCorrupt path offset s!"invalid timestamp nanos {nanos}")
  else if 0 ≤ secs.val then
    okOr (SystemTime.unixEpoch.checkedAdd
      { secs := secs.val.toNat
        nanos := nanos
        secs_lt := secs.toNat_lt
        nanos_lt := Nat.lt_of_not_le hn }) outOfRange
  else if hz : nanos = 0 then
    okOr (SystemTime.unixEpoch.checkedSub
      { secs := secs.val.natAbs
        nanos := 0
        secs_lt := secs.natAbs_lt
        nanos_lt := nanosPerSec_pos }) outOfRange
  else if 1 ≤ secs.val.natAbs then
    okOr (SystemTime.unixEpoch.checkedSub
      { secs := secs.val.natAbs - 1
        nanos := nanosPerSec - nanos
        secs_lt := Nat.lt_of_le_of_lt (Nat.sub_le ..) secs.natAbs_lt
        nanos_lt := Nat.sub_lt nanosPerSec_pos (Nat.pos_of_ne_zero hz) }) outOfRange
  else .error outOfRange

/-- One turn of the decoding loop: the frame at `frameStart`, as the event
number `count`. Returns the event, the new byte total and the new offset. -/
def decodeFrame (path : PathBuf) (bytes : Bytes) (byteCap : Usize) (count : Nat)
    (byteTotal frameStart : Nat) : Result (LogEvent × Nat × Nat) := do
  let (seq, offset) ← readU64 path bytes frameStart
  let (tag, offset) ← readU8 path bytes offset
  let stream ← decodeStream tag path frameStart
  let (secs, offset) ← readI64 path bytes offset
  let (nanos, offset) ← readU32 path bytes offset
  let (dataLen, offset) ← readU64 path bytes offset
  let dataEnd ← okOr (checkedAdd offset dataLen)
    (.replayLogCorrupt path frameStart "frame data length overflows file offset")
  if bytes.len < dataEnd then
    .error (.replayLogCorrupt path offset "truncated frame data")
  else do
    let expectedSeq ← seqFromLen count path frameStart
    if seq ≠ expectedSeq then
      .error (.replayLogCorrupt path frameStart s!"expected seq {expectedSeq}, found {seq}")
    else do
      let byteTotal ← okOr (checkedAdd byteTotal dataLen) (.logBufferOverflow byteCap)
      if byteCap.toNat < byteTotal then .error (.logBufferOverflow byteCap)
      else do
        let timestamp ← decodeTimestamp secs nanos path frameStart
        .ok ({ seq := seq, stream := stream, data := bytes.slice offset dataLen,
               timestamp := timestamp }, byteTotal, dataEnd)

/-! ## What the readers accept -/

theorem checkedReadEnd_eq_ok {path : PathBuf} {bytes : Bytes} {off len e : Nat} :
    checkedReadEnd path bytes off len = .ok e ↔ e = off + len ∧ off + len ≤ bytes.len := by
  have hb := bytes.len_lt
  unfold checkedReadEnd
  simp only [bind_eq_ok, okOr_eq_ok, checkedAdd_eq_some, ite_error_eq_ok, Except.ok.injEq]
  constructor
  · rintro ⟨_, ⟨rfl, -⟩, hle, rfl⟩
    exact ⟨rfl, Nat.le_of_not_lt hle⟩
  · rintro ⟨rfl, hle⟩
    exact ⟨_, ⟨rfl, by omega⟩, Nat.not_lt.mpr hle, rfl⟩

/-- A reader succeeds exactly when its field is next, and then moves past
it. -/
theorem readLe_eq_ok {w : Nat} (hw : 0 < w) {path : PathBuf} {bytes : Bytes}
    {off v off' : Nat} :
    readLe w path bytes off = .ok (v, off') ↔
      off' = off + w ∧ v < 256 ^ w
        ∧ ∃ rest, bytes.toList.drop off = leBytes w v ++ rest := by
  unfold readLe
  rw [bind_eq_ok]
  constructor
  · rintro ⟨e, he, hv⟩
    obtain ⟨rfl, hle⟩ := checkedReadEnd_eq_ok.mp he
    obtain ⟨rfl, rfl⟩ := Prod.mk.inj (Except.ok.inj hv)
    have hlen : ((bytes.toList.drop off).take w).length = w := by
      rw [List.length_take, List.length_drop]
      simp only [Bytes.len] at hle
      omega
    have hfield := leBytes_ofLe ((bytes.toList.drop off).take w)
    rw [hlen] at hfield
    refine ⟨rfl, ?_, (bytes.toList.drop off).drop w, ?_⟩
    · have := ofLe_lt ((bytes.toList.drop off).take w)
      rwa [hlen] at this
    · rw [hfield, List.take_append_drop]
  · rintro ⟨rfl, hv, rest, hrest⟩
    have hlen := congrArg List.length hrest
    rw [List.length_drop, List.length_append, leBytes_length] at hlen
    refine ⟨off + w, checkedReadEnd_eq_ok.mpr ⟨rfl, ?_⟩, ?_⟩
    · simp only [Bytes.len]; omega
    · rw [hrest, List.take_left' (leBytes_length w v), ofLe_leBytes_of_lt hv]

theorem readU8_eq_ok {path : PathBuf} {bytes : Bytes} {off off' : Nat} {b : UInt8} :
    readU8 path bytes off = .ok (b, off') ↔
      off' = off + 1 ∧ ∃ rest, bytes.toList.drop off = b :: rest := by
  unfold readU8
  simp only [bind_eq_ok, okOr_eq_ok, Except.ok.injEq, Prod.mk.injEq]
  constructor
  · rintro ⟨_, hget, rfl, rfl⟩
    obtain ⟨hlt, rfl⟩ := List.getElem?_eq_some_iff.mp hget
    exact ⟨rfl, _, List.drop_eq_getElem_cons hlt⟩
  · rintro ⟨rfl, rest, hrest⟩
    refine ⟨b, ?_, rfl, rfl⟩
    rw [← List.head?_drop, hrest]
    rfl

theorem toI64_val {n : Nat} (h : n < 2 ^ 64) : (toI64 n).val = signed n := by
  simp only [toI64, Nat.mod_eq_of_lt h]

theorem readI64_eq_ok {path : PathBuf} {bytes : Bytes} {off off' : Nat} {z : I64} :
    readI64 path bytes off = .ok (z, off') ↔
      off' = off + 8
        ∧ ∃ rest, bytes.toList.drop off = leBytes 8 (twosComplement z.val) ++ rest := by
  unfold readI64
  rw [bind_eq_ok]
  constructor
  · rintro ⟨⟨word, e⟩, hread, hz⟩
    obtain ⟨rfl, hword, rest, hrest⟩ := (readLe_eq_ok (by omega)).mp hread
    obtain ⟨rfl, rfl⟩ := Prod.mk.inj (Except.ok.inj hz)
    refine ⟨rfl, rest, ?_⟩
    have hlt : word < 2 ^ 64 := by simpa using hword
    rw [toI64_val hlt, twosComplement_signed hlt, hrest]
  · rintro ⟨rfl, rest, hrest⟩
    have hlt := twosComplement_lt z.val
    refine ⟨(twosComplement z.val, off + 8),
      (readLe_eq_ok (by omega)).mpr ⟨rfl, by simpa using hlt, rest, hrest⟩, ?_⟩
    have hz : toI64 (twosComplement z.val) = z := by
      apply Subtype.ext
      rw [toI64_val hlt]
      exact signed_twosComplement z.property.1 z.property.2
    simp only [hz]

theorem decodeStream_eq_ok {tag : UInt8} {path : PathBuf} {off : Nat} {s : LogStream} :
    decodeStream tag path off = .ok s ↔ tag = encodeStream s := by
  unfold decodeStream
  split
  · rename_i h; subst h
    cases s <;> simp [encodeStream, streamStdout, streamStderr]
  · split
    · rename_i h; subst h
      cases s <;> simp [encodeStream, streamStdout, streamStderr]
    · cases s <;> simp_all [encodeStream]

/-! ## Timestamps -/

theorem toNanos_eq {t : SystemTime} {secs : Int} {nanos : Nat} (hn : nanos < nanosPerSec) :
    t.toNanos = secs * nanosPerSec + nanos ↔ t.tvSec = secs ∧ t.tvNsec = nanos := by
  have := t.nsec_lt
  simp only [SystemTime.toNanos, nanosPerSec] at *
  omega

theorem ofNanos?_eq_some {n : Int} {t : SystemTime} :
    SystemTime.ofNanos? n = some t ↔ t.toNanos = n := by
  constructor
  · exact SystemTime.toNanos_of_ofNanos?
  · rintro rfl; exact SystemTime.ofNanos?_toNanos t

/-- Decoding a timestamp reads its two fields back, whatever side of the
epoch it lies on. -/
theorem decodeTimestamp_eq_ok {secs : I64} {nanos : Nat} {path : PathBuf} {off : Nat}
    {t : SystemTime} :
    decodeTimestamp secs nanos path off = .ok t ↔ t.tvSec = secs.val ∧ t.tvNsec = nanos := by
  have hlt := t.nsec_lt
  have hsec := secs.property
  have hc : nanosPerSec = 1000000000 := rfl
  unfold decodeTimestamp
  by_cases hn : nanosPerSec ≤ nanos
  · rw [dif_pos hn]
    simp only [reduceCtorEq, false_iff]
    omega
  · rw [dif_neg hn, ← toNanos_eq (Nat.lt_of_not_le hn)]
    split
    · rw [okOr_eq_ok, SystemTime.checkedAdd, ofNanos?_eq_some]
      simp only [SystemTime.unixEpoch_toNanos, Duration.toNanos, nanosPerSec]
      omega
    · split
      · rw [okOr_eq_ok, SystemTime.checkedSub, ofNanos?_eq_some]
        simp only [SystemTime.unixEpoch_toNanos, Duration.toNanos, nanosPerSec]
        omega
      · split
        · rw [okOr_eq_ok, SystemTime.checkedSub, ofNanos?_eq_some]
          simp only [SystemTime.unixEpoch_toNanos, Duration.toNanos]
          simp only [nanosPerSec] at *
          omega
        · omega

theorem durationSince_epoch_of_nonneg {t : SystemTime} (h : 0 ≤ t.tvSec) :
    ∃ d, t.durationSince .unixEpoch = .ok d
      ∧ (d.secs : Int) = t.tvSec ∧ d.nanos = t.tvNsec := by
  have hn := t.nsec_lt
  have hle : SystemTime.unixEpoch.toNanos ≤ t.toNanos := by
    rw [SystemTime.unixEpoch_toNanos, SystemTime.toNanos]
    simp only [nanosPerSec]
    omega
  refine ⟨_, if_pos hle, ?_, ?_⟩ <;> simp only [Duration.ofNanos,
    SystemTime.unixEpoch_toNanos, Int.sub_zero] <;>
    simp only [SystemTime.toNanos, nanosPerSec] at * <;> omega

/-- Before the epoch the distance borrows a second unless the nanoseconds
are zero. -/
theorem durationSince_epoch_of_neg {t : SystemTime} (h : t.tvSec < 0) :
    ∃ d, t.durationSince .unixEpoch = .error d
      ∧ ((t.tvNsec = 0 ∧ (d.secs : Int) = -t.tvSec ∧ d.nanos = 0)
        ∨ (t.tvNsec ≠ 0 ∧ (d.secs : Int) = -t.tvSec - 1
          ∧ d.nanos = nanosPerSec - t.tvNsec)) := by
  have hn := t.nsec_lt
  have hlt : ¬SystemTime.unixEpoch.toNanos ≤ t.toNanos := by
    rw [SystemTime.unixEpoch_toNanos, SystemTime.toNanos]
    simp only [nanosPerSec] at *
    omega
  refine ⟨_, if_neg hlt, ?_⟩
  simp only [Duration.ofNanos, SystemTime.unixEpoch_toNanos, Int.zero_sub]
  simp only [SystemTime.toNanos, nanosPerSec] at *
  omega

/-- Encoding a timestamp writes its two fields, unless the seconds are
`i64::MIN`, whose distance from the epoch does not fit in an `i64`. -/
theorem encodeTimestamp_eq (t : SystemTime) (path : PathBuf) (off : Nat) :
    encodeTimestamp t path off =
      if t.tvSec = -2 ^ 63 then
        .error (.replayLogCorrupt path off "timestamp seconds exceed frame range")
      else .ok (t.tvSec, t.tvNsec) := by
  have h1 := t.sec_ge
  have h2 := t.sec_lt
  have h3 := t.nsec_lt
  unfold encodeTimestamp
  rcases lt_or_ge t.tvSec 0 with hneg | hpos
  · obtain ⟨d, hd, ⟨hz, hs, hn⟩ | ⟨hz, hs, hn⟩⟩ := durationSince_epoch_of_neg hneg
    · rw [hd]
      simp only [hn, if_true, hz]
      split_ifs <;> first | rfl | omega | skip
      simp only [Except.ok.injEq, Prod.mk.injEq, and_true]
      omega
    · have hnz : d.nanos ≠ 0 := by omega
      rw [hd]
      simp only [if_neg hnz]
      split_ifs <;> first | rfl | omega | skip
      simp only [Except.ok.injEq, Prod.mk.injEq]
      omega
  · obtain ⟨d, hd, hs, hn⟩ := durationSince_epoch_of_nonneg hpos
    rw [hd]
    simp only
    rw [if_pos (by omega), if_neg (by omega), hs, hn]

/-! ## Frames -/

/-- The bytes an event occupies in the file. -/
def frameOf (e : LogEvent) : List UInt8 :=
  frameBytes e.seq e.stream e.timestamp.tvSec e.timestamp.tvNsec e.data

theorem frameBytes_length (seq : Nat) (stream : LogStream) (secs : Int) (nanos : Nat)
    (data : Bytes) :
    (frameBytes seq stream secs nanos data).length = fileLogFrameFixedLen + data.len := by
  simp only [frameBytes, List.length_append, List.length_cons, leBytes_length,
    fileLogFrameFixedLen, Bytes.len]
  omega

theorem frameOf_length (e : LogEvent) :
    (frameOf e).length = fileLogFrameFixedLen + e.data.len := frameBytes_length ..

theorem encodeFrame_eq (path : PathBuf) (seq : Nat) (e : AppendLogEvent) :
    encodeFrame path seq e =
      if e.timestamp.tvSec = -2 ^ 63 then
        .error (.replayLogCorrupt path 0 "timestamp seconds exceed frame range")
      else .ok (frameOf (e.at seq)) := by
  have hlen := e.data.len_lt
  unfold encodeFrame
  rw [encodeTimestamp_eq]
  split
  · rfl
  · have hfit : fileLogFrameFixedLen + e.data.len < 2 ^ 64 := by
      simp only [fileLogFrameFixedLen]
      omega
    simp only [bind, Except.bind]
    rw [if_neg (by omega), checkedAdd_of_lt hfit]
    rfl

/-- After the field at `off`, the rest of the bytes. -/
theorem drop_past {l f rest : List UInt8} {off n : Nat} (hn : f.length = n)
    (h : l.drop off = f ++ rest) : l.drop (off + n) = rest := by
  rw [← List.drop_drop, h, List.drop_left' hn]

theorem seqFromLen_eq_ok {n : Nat} {path : PathBuf} {off : Nat} {s : Nat} :
    seqFromLen n path off = .ok s ↔ s = n ∧ n < 2 ^ 64 := by
  unfold seqFromLen
  split
  · rename_i h
    simp only [Except.ok.injEq, h, and_true, eq_comm]
  · rename_i h
    simp only [reduceCtorEq, h, and_false]

theorem slice_len {bytes : Bytes} {off n : Nat} (h : off + n ≤ bytes.len) :
    (bytes.slice off n).len = n := by
  simp only [Bytes.len, Bytes.slice_toList, List.length_take, List.length_drop] at h ⊢
  omega

/-- A turn of the decoding loop succeeds exactly when the frame of the event
it returns is next, numbered as expected and within the cap. -/
theorem decodeFrame_eq_ok {path : PathBuf} {bytes : Bytes} {cap : Usize}
    {count total off total' off' : Nat} {e : LogEvent} :
    decodeFrame path bytes cap count total off = .ok (e, total', off') ↔
      (∃ rest, bytes.toList.drop off = frameOf e ++ rest)
        ∧ e.seq = count ∧ count < 2 ^ 64
        ∧ total' = total + e.data.len ∧ total' ≤ cap.toNat
        ∧ off' = off + (frameOf e).length := by
  have hcap := cap.toNat_lt
  have hbytes := bytes.len_lt
  unfold decodeFrame
  simp only [bind_eq_ok, okOr_eq_ok, ite_error_eq_ok, checkedAdd_eq_some, seqFromLen_eq_ok]
  constructor
  · rintro ⟨⟨seq, o1⟩, h1, ⟨tag, o2⟩, h2, stream, h3, ⟨secs, o3⟩, h4,
      ⟨nanos, o4⟩, h5, ⟨dataLen, o5⟩, h6, _, ⟨rfl, -⟩, hfit, _, ⟨rfl, hcount⟩, hseq, _,
      ⟨rfl, -⟩, hle, timestamp, h7, h⟩
    -- Each reader consumed its field and left the offset behind it.
    obtain ⟨rfl, -, r1, hr1⟩ := (readLe_eq_ok (by omega)).mp h1
    obtain ⟨rfl, r2, hr2⟩ := readU8_eq_ok.mp h2
    obtain rfl := decodeStream_eq_ok.mp h3
    obtain ⟨rfl, r3, hr3⟩ := readI64_eq_ok.mp h4
    obtain ⟨rfl, -, r4, hr4⟩ := (readLe_eq_ok (by omega)).mp h5
    obtain ⟨rfl, -, r5, hr5⟩ := (readLe_eq_ok (by omega)).mp h6
    obtain ⟨hs, hn⟩ := decodeTimestamp_eq_ok.mp h7
    dsimp only at *
    obtain ⟨rfl, rfl, rfl⟩ : _ = e ∧ _ = total' ∧ _ = off' := by
      simpa only [Except.ok.injEq, Prod.mk.injEq] using h
    have d1 := drop_past (leBytes_length 8 seq) hr1
    have d2 := drop_past (f := [encodeStream stream]) (n := 1) rfl hr2
    have d3 := drop_past (leBytes_length 8 _) hr3
    have d4 := drop_past (leBytes_length 4 nanos) hr4
    have d5 := drop_past (leBytes_length 8 dataLen) hr5
    have hlen := slice_len (Nat.le_of_not_lt hfit)
    refine ⟨⟨r5.drop dataLen, ?_⟩, Decidable.not_not.mp hseq, hcount, ?_, ?_, ?_⟩
    · rw [frameOf, frameBytes]
      simp only [hlen, hs, hn, Bytes.slice_toList, d5, List.append_assoc, List.cons_append,
        List.take_append_drop]
      rw [hr1, ← hr2.symm.trans d1, ← hr3.symm.trans d2, ← hr4.symm.trans d3,
        ← hr5.symm.trans d4]
    · rw [hlen]
    · exact Nat.le_of_not_lt hle
    · rw [frameOf_length, hlen, fileLogFrameFixedLen]
      omega
  · rintro ⟨⟨rest, hrest⟩, hseq, hcount, rfl, hle, rfl⟩
    have hwhole := congrArg List.length hrest
    rw [List.length_drop, List.length_append, frameOf_length, fileLogFrameFixedLen] at hwhole
    have hdata := e.data.len_lt
    have hnsec := e.timestamp.nsec_lt
    have hfit : off + 8 + 1 + 8 + 4 + 8 + e.data.len ≤ bytes.len := by
      simp only [Bytes.len] at hwhole ⊢
      omega
    rw [frameOf, frameBytes] at hrest
    simp only [List.append_assoc, List.cons_append] at hrest
    have d1 := drop_past (leBytes_length 8 e.seq) hrest
    have d2 := drop_past (f := [encodeStream e.stream]) (n := 1) rfl d1
    have d3 := drop_past (leBytes_length 8 _) d2
    have d4 := drop_past (leBytes_length 4 _) d3
    have d5 := drop_past (leBytes_length 8 _) d4
    let secs : I64 := ⟨e.timestamp.tvSec, e.timestamp.sec_ge, e.timestamp.sec_lt⟩
    refine ⟨(e.seq, off + 8), (readLe_eq_ok (by omega)).mpr ⟨rfl, by rw [hseq]; omega, _, hrest⟩,
      (encodeStream e.stream, off + 8 + 1), readU8_eq_ok.mpr ⟨rfl, _, d1⟩,
      e.stream, decodeStream_eq_ok.mpr rfl,
      (secs, off + 8 + 1 + 8), readI64_eq_ok.mpr ⟨rfl, _, d2⟩,
      (e.timestamp.tvNsec, off + 8 + 1 + 8 + 4),
      (readLe_eq_ok (by omega)).mpr ⟨rfl, by simp only [nanosPerSec] at hnsec; omega, _, d3⟩,
      (e.data.len, off + 8 + 1 + 8 + 4 + 8),
      (readLe_eq_ok (by omega)).mpr ⟨rfl, by omega, _, d4⟩,
      _, ⟨rfl, by dsimp only; omega⟩, Nat.not_lt.mpr hfit, _, ⟨rfl, hcount⟩,
      Decidable.not_not.mpr hseq, _, ⟨rfl, by dsimp only; omega⟩, Nat.not_lt.mpr hle,
      e.timestamp, decodeTimestamp_eq_ok.mpr ⟨rfl, rfl⟩, ?_⟩
    have hslice : bytes.slice (off + 8 + 1 + 8 + 4 + 8) e.data.len = e.data := by
      apply Bytes.ext
      rw [Bytes.slice_toList, d5]
      exact List.take_left' rfl
    simp only [hslice, frameOf_length, fileLogFrameFixedLen, Except.ok.injEq, Prod.mk.injEq,
      true_and]
    omega

/-! ## The decoding loop -/

/-- A frame is never empty, so every turn of the loop moves the offset. -/
theorem decodeFrame_offset_lt {path : PathBuf} {bytes : Bytes} {cap : Usize}
    {count total off total' off' : Nat} {e : LogEvent}
    (h : decodeFrame path bytes cap count total off = .ok (e, total', off')) :
    off < off' := by
  obtain ⟨-, -, -, -, -, rfl⟩ := decodeFrame_eq_ok.mp h
  rw [frameOf_length, fileLogFrameFixedLen]
  omega

/-- The decoding loop: frames until the bytes are used up. -/
def decodeFrames (path : PathBuf) (bytes : Bytes) (byteCap : Usize)
    (events : List LogEvent) (byteTotal offset : Nat) : Result (List LogEvent × Nat) :=
  if offset < bytes.len then
    match _h : decodeFrame path bytes byteCap events.length byteTotal offset with
    | .error e => .error e
    | .ok (event, byteTotal, dataEnd) =>
        decodeFrames path bytes byteCap (events ++ [event]) byteTotal dataEnd
  else .ok (events, byteTotal)
termination_by bytes.len - offset
decreasing_by
  have := decodeFrame_offset_lt _h
  omega

def decodeFileLog (path : PathBuf) (bytes : Bytes) (byteCap : Usize) :
    Result (List LogEvent × Nat) :=
  if fileLogMagic.isPrefixOf bytes.toList then
    decodeFrames path bytes byteCap [] 0 fileLogHeaderLen
  else .error (.replayLogCorrupt path 0 "missing replay log magic header")

@[simp] theorem dataBytes_cons (e : LogEvent) (es : List LogEvent) :
    dataBytes (e :: es) = e.data.len + dataBytes es := rfl

/-- From `off` on, the bytes are the frames of `new`, numbered from `count`
and within the cap. -/
structure FramesAt (bytes : Bytes) (cap : Usize) (count total off : Nat)
    (new : List LogEvent) : Prop where
  frames : bytes.toList.drop off = new.flatMap frameOf
  seqs : new.map LogEvent.seq = List.range' count new.length
  total_le : total + dataBytes new ≤ cap.toNat

theorem FramesAt.nil_iff {bytes : Bytes} {cap : Usize} {count total off : Nat}
    (hcap : total ≤ cap.toNat) :
    FramesAt bytes cap count total off [] ↔ bytes.len ≤ off := by
  constructor
  · intro h
    exact List.drop_eq_nil_iff.mp h.frames
  · intro h
    exact ⟨List.drop_eq_nil_iff.mpr h, rfl, hcap⟩

/-- The loop's one step: the first of the frames is one `decodeFrame`. -/
theorem FramesAt.cons_iff (path : PathBuf) {bytes : Bytes} {cap : Usize}
    {count total off : Nat} {e : LogEvent} {new : List LogEvent} (hcount : count < 2 ^ 64) :
    FramesAt bytes cap count total off (e :: new) ↔
      ∃ total' off', decodeFrame path bytes cap count total off = .ok (e, total', off')
        ∧ FramesAt bytes cap (count + 1) total' off' new := by
  simp only [decodeFrame_eq_ok]
  constructor
  · rintro ⟨hframes, hseqs, hle⟩
    rw [List.flatMap_cons] at hframes
    rw [List.map_cons, List.length_cons, List.range'_succ, List.cons.injEq] at hseqs
    rw [dataBytes_cons] at hle
    exact ⟨_, _, ⟨⟨_, hframes⟩, hseqs.1, hcount, rfl, by omega, rfl⟩,
      drop_past rfl hframes, hseqs.2, by omega⟩
  · rintro ⟨_, _, ⟨⟨rest, hrest⟩, hseq, -, rfl, -, rfl⟩, hframes, hseqs, hle⟩
    refine ⟨?_, ?_, ?_⟩
    · rw [List.flatMap_cons, ← hframes, drop_past rfl hrest, hrest]
    · rw [List.map_cons, List.length_cons, List.range'_succ, hseqs, hseq]
    · rw [dataBytes_cons]
      omega

/-- The loop accepts exactly the frames that make up the rest of the
bytes. -/
theorem decodeFrames_eq_ok {path : PathBuf} {bytes : Bytes} {cap : Usize}
    {events : List LogEvent} {total off : Nat} {evs : List LogEvent} {t : Nat}
    (hcap : total ≤ cap.toNat) (hcount : events.length ≤ off) :
    decodeFrames path bytes cap events total off = .ok (evs, t) ↔
      ∃ new, FramesAt bytes cap events.length total off new
        ∧ evs = events ++ new ∧ t = total + dataBytes new := by
  have hbytes := bytes.len_lt
  fun_induction decodeFrames path bytes cap events total off with
  | case1 events total off hlt err herr =>
      simp only [reduceCtorEq, false_iff, not_exists, not_and]
      rintro (_ | ⟨e, new⟩) hnew
      · have := (FramesAt.nil_iff hcap).mp hnew
        omega
      · obtain ⟨_, _, hok, -⟩ := (FramesAt.cons_iff path (by omega)).mp hnew
        rw [herr] at hok
        cases hok
  | case2 events total off hlt e total' off' hok ih =>
      obtain ⟨-, -, -, ht, hle, ho⟩ := decodeFrame_eq_ok.mp hok
      rw [frameOf_length, fileLogFrameFixedLen] at ho
      have hcount' : (events ++ [e]).length ≤ off' := by
        rw [List.length_append, List.length_singleton]
        omega
      refine (ih hle hcount').trans ?_
      constructor
      · rintro ⟨new, hnew, rfl, rfl⟩
        rw [List.length_append, List.length_singleton] at hnew
        refine ⟨e :: new, (FramesAt.cons_iff path (by omega)).mpr ⟨_, _, hok, hnew⟩, ?_, ?_⟩
        · rw [List.append_assoc, List.singleton_append]
        · rw [ht, dataBytes_cons, Nat.add_assoc]
      · rintro ⟨_ | ⟨e', new⟩, hnew, rfl, rfl⟩
        · have := (FramesAt.nil_iff hcap).mp hnew
          omega
        · obtain ⟨t2, o2, hok2, hrest⟩ := (FramesAt.cons_iff path (by omega)).mp hnew
          obtain ⟨rfl, rfl, rfl⟩ : e = e' ∧ total' = t2 ∧ off' = o2 := by
            simpa only [Except.ok.injEq, Prod.mk.injEq] using hok.symm.trans hok2
          refine ⟨new, ?_, ?_, ?_⟩
          · rwa [List.length_append, List.length_singleton]
          · rw [List.append_assoc, List.singleton_append]
          · rw [ht, dataBytes_cons, Nat.add_assoc]
  | case3 events total off hge =>
      rw [Except.ok.injEq, Prod.mk.injEq]
      constructor
      · rintro ⟨rfl, rfl⟩
        exact ⟨[], (FramesAt.nil_iff hcap).mpr (Nat.le_of_not_lt hge),
          (List.append_nil _).symm, rfl⟩
      · rintro ⟨_ | ⟨e, new⟩, hnew, rfl, rfl⟩
        · exact ⟨(List.append_nil _).symm, rfl⟩
        · have hlen := congrArg List.length hnew.frames
          rw [List.length_drop, List.flatMap_cons, List.length_append, frameOf_length,
            fileLogFrameFixedLen] at hlen
          simp only [Bytes.len] at hge
          omega

/-- The bytes of a file log that holds `events`. -/
def fileBytes (events : List LogEvent) : List UInt8 := fileLogMagic ++ events.flatMap frameOf

/-- The decoder accepts exactly the header followed by the frames of
consecutively numbered events within the cap, and returns those events. -/
theorem decodeFileLog_eq_ok {path : PathBuf} {bytes : Bytes} {cap : Usize}
    {evs : List LogEvent} {t : Nat} :
    decodeFileLog path bytes cap = .ok (evs, t) ↔
      bytes.toList = fileBytes evs ∧ evs.map LogEvent.seq = List.range evs.length
        ∧ t = dataBytes evs ∧ t ≤ cap.toNat := by
  unfold decodeFileLog
  constructor
  · intro h
    split at h
    · rename_i hpre
      obtain ⟨rest, hrest⟩ := List.isPrefixOf_iff_prefix.mp hpre
      obtain ⟨new, ⟨hframes, hseqs, hle⟩, rfl, rfl⟩ :=
        (decodeFrames_eq_ok (Nat.zero_le _) (Nat.zero_le _)).mp h
      rw [← hrest, fileLogHeaderLen, List.drop_left] at hframes
      refine ⟨?_, ?_, Nat.zero_add _, hle⟩
      · rw [← hrest, hframes]
        rfl
      · exact hseqs.trans List.range_eq_range'.symm
    · cases h
  · rintro ⟨hbytes, hseqs, rfl, hle⟩
    have hpre : fileLogMagic.isPrefixOf bytes.toList = true := by
      rw [hbytes]
      exact List.isPrefixOf_iff_prefix.mpr (List.prefix_append _ _)
    rw [if_pos hpre, decodeFrames_eq_ok (Nat.zero_le _) (Nat.zero_le _)]
    refine ⟨evs, ⟨?_, ?_, ?_⟩, (List.nil_append _).symm, (Nat.zero_add _).symm⟩
    · rw [hbytes, fileBytes, fileLogHeaderLen, List.drop_left]
    · rw [hseqs, List.range_eq_range', List.length_nil]
    · rw [Nat.zero_add]
      exact hle

/-! ## Unique reading -/

theorem encodeStream_inj {s s' : LogStream} (h : encodeStream s = encodeStream s') :
    s = s' := by
  cases s <;> cases s' <;> first | rfl | (revert h; decide)

/-- Frames are a prefix code on events whose sequence number fits in its
field. -/
theorem frame_prefixCode : PrefixCode (fun e : LogEvent => e.seq < 2 ^ 64) frameOf where
  ne_nil := by
    intro e _ h
    have := congrArg List.length h
    rw [frameOf_length, fileLogFrameFixedLen, List.length_nil] at this
    omega
  inj := by
    intro a b x y ha hb h
    have hna := a.timestamp.nsec_lt
    have hnb := b.timestamp.nsec_lt
    have hda := a.data.len_lt
    have hdb := b.data.len_lt
    simp only [nanosPerSec] at hna hnb
    simp only [frameOf, frameBytes, List.append_assoc, List.cons_append] at h
    obtain ⟨hseq, h⟩ := leBytes_append_inj (by omega) (by omega) h
    obtain ⟨hstream, h⟩ := List.cons.inj h
    obtain ⟨hsecs, h⟩ := leBytes_append_inj (twosComplement_lt _) (twosComplement_lt _) h
    obtain ⟨hnanos, h⟩ := leBytes_append_inj (by omega) (by omega) h
    obtain ⟨hlen, h⟩ := leBytes_append_inj (by omega) (by omega) h
    obtain ⟨hdata, -⟩ := List.append_inj h hlen
    have hsec := twosComplement_inj a.timestamp.sec_ge a.timestamp.sec_lt
      b.timestamp.sec_ge b.timestamp.sec_lt hsecs
    exact LogEvent.ext hseq (encodeStream_inj hstream) (Bytes.ext hdata)
      (SystemTime.ext hsec hnanos)

end Axp
