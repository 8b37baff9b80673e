import Mathlib.Data.List.TakeWhile
import Axp.Error
import Axp.Records

/-!
# The client's event stream decoder

`SseFrameDecoder` takes the chunks of a `job.attach` body as the network cuts
them. It keeps the bytes of the unfinished line (`pending`) and the lines of
the unfinished event (`current`), and decodes an event when a blank line
closes it.

`push` is a read of a stream of lines (`push_eq`): the bytes are cut into
lines, the lines into events at the blank ones, and the frames of the events
closed are returned unless one of these is malformed. How the stream was
chunked before has no part in it.
-/

namespace Axp

open Records

/-! ## The code -/

/-- The error type of the client, in the variants reading a stream returns. -/
inductive ClientError where
  | http (source : ErrorText)
  | json (source : ErrorText)
deriving DecidableEq, Repr

abbrev ClientResult (α : Type) := Except ClientError α

/-- `serde_json`, on log frames. -/
structure SerdeJson where
  toString : LogEventFrame → Except ErrorText (List UInt8)
  fromSlice : List UInt8 → Except ErrorText LogEventFrame

/-- `\\n`. -/
def newline : UInt8 := 10

/-- `\\r`. -/
def carriageReturn : UInt8 := 13

/-- `data:`. -/
def dataField : List UInt8 := [100, 97, 116, 97, 58]

/-- A line without the `\\r` it may end in. -/
def stripCr (line : List UInt8) : List UInt8 :=
  if line.getLast? = some carriageReturn then line.dropLast else line

/-- `drain(..=newline)` up to the first line break, which is left out, and the
bytes that stay. -/
def takeLine (bytes : List UInt8) : Option (List UInt8 × List UInt8) :=
  match bytes.dropWhile (· != newline) with
  | [] => none
  | _ :: rest => some (bytes.takeWhile (· != newline), rest)

/-- A turn of the loop of `decode_sse_event`: the data read so far, and whether
there was any. -/
def eventLine : List UInt8 × Bool → List UInt8 → List UInt8 × Bool
  | (data, sawData), line =>
      match (stripCr line).dropPrefix? dataField with
      | some lineData => ((if sawData then data ++ [newline] else data) ++ lineData, true)
      | none => (data, sawData)

/-- The loop of `decode_sse_event`. -/
def eventData (event : List UInt8) : List UInt8 × Bool :=
  (event.splitOn newline).foldl eventLine ([], false)

def decodeSseEvent (serde : SerdeJson) (event : List UInt8) (frames : List LogEventFrame) :
    ClientResult (List LogEventFrame) :=
  let (data, sawData) := eventData event
  if sawData then
    match serde.fromSlice data with
    | .ok frame => .ok (frames ++ [frame])
    | .error e => .error (.json e)
  else .ok frames

structure SseFrameDecoder where
  pending : List UInt8
  current : List UInt8
deriving DecidableEq, Repr

theorem takeLine_some {bytes line rest : List UInt8} (h : takeLine bytes = some (line, rest)) :
    newline ∉ line ∧ bytes = line ++ newline :: rest := by
  rw [takeLine] at h
  split at h
  · cases h
  · rename_i byte rest' hdrop
    obtain ⟨rfl, rfl⟩ := Prod.mk.inj (Option.some.inj h)
    have hbyte : byte = newline := by
      have hne : bytes.dropWhile (· != newline) ≠ [] := by simp [hdrop]
      have hhead := List.head_dropWhile_not (· != newline) hne
      simpa [hdrop] using hhead
    refine ⟨fun hmem => by simpa using List.mem_takeWhile_imp hmem, ?_⟩
    rw [hbyte] at hdrop
    rw [← hdrop, List.takeWhile_append_dropWhile]

theorem takeLine_none {bytes : List UInt8} (h : takeLine bytes = none) : newline ∉ bytes := by
  rw [takeLine] at h
  split at h
  · rename_i hdrop
    exact fun hmem => by simpa using List.dropWhile_eq_nil_iff.mp hdrop newline hmem
  · cases h

/-- What a line takes out of the buffer is gone. -/
theorem takeLine_length {bytes line rest : List UInt8} (h : takeLine bytes = some (line, rest)) :
    rest.length < bytes.length := by
  obtain ⟨-, rfl⟩ := takeLine_some h
  rw [List.length_append, List.length_cons]
  omega

namespace SseFrameDecoder

/-- `SseFrameDecoder::default`. -/
def default : SseFrameDecoder := ⟨[], []⟩

/-- The loop of `push`. -/
def drain (serde : SerdeJson) (decoder : SseFrameDecoder) (frames : List LogEventFrame) :
    ClientResult (List LogEventFrame) × SseFrameDecoder :=
  match _h : takeLine decoder.pending with
  | none => (.ok frames, decoder)
  | some (raw, pending) =>
      let line := stripCr raw
      if line = [] then
        if decoder.current = [] then drain serde ⟨pending, decoder.current⟩ frames
        else
          match decodeSseEvent serde decoder.current frames with
          | .error e => (.error e, ⟨pending, decoder.current⟩)
          | .ok frames => drain serde ⟨pending, []⟩ frames
      else drain serde ⟨pending, decoder.current ++ line ++ [newline]⟩ frames
termination_by decoder.pending.length
decreasing_by all_goals exact takeLine_length _h

/-- `SseFrameDecoder::push`. -/
def push (serde : SerdeJson) (decoder : SseFrameDecoder) (bytes : List UInt8) :
    ClientResult (List LogEventFrame) × SseFrameDecoder :=
  drain serde { decoder with pending := decoder.pending ++ bytes } []

/-- `SseFrameDecoder::finish`. -/
def finish (serde : SerdeJson) (decoder : SseFrameDecoder) : ClientResult (List LogEventFrame) :=
  let current :=
    if decoder.pending = [] then decoder.current else decoder.current ++ decoder.pending
  if current = [] then .ok [] else decodeSseEvent serde current []

end SseFrameDecoder

/-- `parse_sse_frames`. -/
def parseSseFrames (serde : SerdeJson) (body : List UInt8) : ClientResult (List LogEventFrame) :=
  match SseFrameDecoder.default.push serde body with
  | (.error e, _) => .error e
  | (.ok frames, decoder) =>
      match decoder.finish serde with
      | .error e => .error e
      | .ok last => .ok (frames ++ last)

/-! ## Lines and events of a stream -/

/-- The frame an event carries, if any. -/
def eventFrame (serde : SerdeJson) (event : List UInt8) : ClientResult (Option LogEventFrame) :=
  if (eventData event).2 then
    match serde.fromSlice (eventData event).1 with
    | .ok frame => .ok (some frame)
    | .error e => .error (.json e)
  else .ok none

/-- The lines of an event as `current` holds them. -/
def joinLines (lines : List (List UInt8)) : List UInt8 := lines.flatMap (· ++ [newline])

/-- An event given by its lines. -/
def blockFrame (serde : SerdeJson) (lines : List (List UInt8)) :
    ClientResult (Option LogEventFrame) :=
  eventFrame serde (joinLines lines)

/-- Where a stream stands: the bytes of the open line and the lines of the open
event. -/
structure Unfinished where
  line : List UInt8
  event : List (List UInt8)
deriving DecidableEq

namespace Unfinished

/-- The events a read closes, each with its lines, and where the stream stands
then. -/
def read (u : Unfinished) (bytes : List UInt8) : List (List (List UInt8)) × Unfinished :=
  let lines := feed (· == newline) u.line bytes
  let events := feed List.isEmpty u.event (lines.1.map stripCr)
  (events.1, ⟨lines.2, events.2⟩)

/-- The stream before its first byte. -/
def start : Unfinished := ⟨[], []⟩

/-- The open line has no line break, and the open event no blank line. -/
structure WellFormed (u : Unfinished) : Prop where
  line : newline ∉ u.line
  event : [] ∉ u.event

/-- The decoder that has read as far. -/
def decoder (u : Unfinished) : SseFrameDecoder := ⟨u.line, joinLines u.event⟩

end Unfinished

/-- The events of a stream that a blank line closes, each with its lines. -/
def streamEvents (bytes : List UInt8) : List (List (List UInt8)) := (Unfinished.start.read bytes).1

/-! ## Reading -/

theorem joinLines_eq_nil {lines : List (List UInt8)} : joinLines lines = [] ↔ lines = [] := by
  cases lines <;> simp [joinLines]

theorem joinLines_concat (lines : List (List UInt8)) (line : List UInt8) :
    joinLines (lines ++ [line]) = joinLines lines ++ line ++ [newline] := by
  simp [joinLines]

/-- An event adds the frame it carries to those already there. -/
theorem decodeSseEvent_eq (serde : SerdeJson) (event : List UInt8) (frames : List LogEventFrame) :
    decodeSseEvent serde event frames =
      match eventFrame serde event with
      | .error e => .error e
      | .ok item => .ok (frames ++ item.toList) := by
  unfold decodeSseEvent eventFrame
  obtain ⟨data, sawData⟩ := eventData event
  cases sawData with
  | false => simp
  | true => cases hfrom : serde.fromSlice data <;> simp [hfrom]

/-- An event without lines carries nothing. -/
@[simp] theorem blockFrame_nil (serde : SerdeJson) : blockFrame serde [] = .ok none := rfl

namespace Unfinished

variable {u : Unfinished} {event : List (List UInt8)} {line raw bytes rest : List UInt8}

/-- Reading in two goes is reading at once. -/
theorem read_append (u : Unfinished) (xs ys : List UInt8) :
    u.read (xs ++ ys) =
      ((u.read xs).1 ++ ((u.read xs).2.read ys).1, ((u.read xs).2.read ys).2) := by
  simp only [read]
  rw [feed_append, List.map_append, feed_append]

theorem read_line_append (h : newline ∉ line) :
    read ⟨line, event⟩ bytes = read ⟨[], event⟩ (line ++ bytes) := by
  have hopen : ∀ x ∈ line, (x == newline) = false := fun x hx => by
    rw [beq_eq_false_iff_ne]
    rintro rfl
    exact h hx
  rw [read_append]
  simp only [read, feed_open hopen]
  rfl

/-- Without a line break nothing is closed. -/
theorem read_open (h : newline ∉ bytes) : read ⟨[], event⟩ bytes = ([], ⟨bytes, event⟩) := by
  have hread : read ⟨bytes, event⟩ [] = read ⟨[], event⟩ (bytes ++ []) := read_line_append h
  rw [List.append_nil] at hread
  exact hread.symm

/-- A line joins the open event, or closes it if it is blank. -/
theorem read_raw (h : newline ∉ raw) :
    read ⟨[], event⟩ (raw ++ newline :: rest) =
      if stripCr raw = [] then (event :: (start.read rest).1, (start.read rest).2)
      else read ⟨[], event ++ [stripCr raw]⟩ rest := by
  have hopen : ∀ x ∈ raw, (x == newline) = false := fun x hx => by
    rw [beq_eq_false_iff_ne]
    rintro rfl
    exact h hx
  simp only [read, feed_record hopen (beq_self_eq_true newline), List.nil_append, List.map_cons]
  rw [feed]
  by_cases hblank : stripCr raw = []
  · rw [if_pos hblank, if_pos (List.isEmpty_iff.mpr hblank)]
    rfl
  · rw [if_neg hblank, if_neg (by rwa [List.isEmpty_iff])]

theorem wellFormed_start : start.WellFormed := ⟨by simp [start], by simp [start]⟩

theorem WellFormed.read (h : u.WellFormed) (bytes : List UInt8) : (u.read bytes).2.WellFormed where
  line hmem := by
    have hline : ∀ x ∈ u.line, (x == newline) = false := fun x hx => by
      rw [beq_eq_false_iff_ne]
      rintro rfl
      exact h.line hx
    simpa using feed_rest hline newline hmem
  event hmem := by
    have hevent : ∀ x ∈ u.event, x.isEmpty = false := fun x hx => by
      rw [Bool.eq_false_iff]
      intro hempty
      exact h.event (List.isEmpty_iff.mp hempty ▸ hx)
    simpa using feed_rest hevent [] hmem

end Unfinished

/-- What a read returns: its frames, unless it meets an error. -/
def outcome (r : List LogEventFrame × Option ClientError) : ClientResult (List LogEventFrame) :=
  match r.2 with
  | none => .ok r.1
  | some e => .error e

namespace SseFrameDecoder

variable {serde : SerdeJson}

theorem drain_eq (pending : List UInt8) (event : List (List UInt8)) (frames : List LogEventFrame) :
    let closed := Unfinished.read ⟨[], event⟩ pending
    let decoded := decode (blockFrame serde) closed.1
    (drain serde ⟨pending, joinLines event⟩ frames).1 = outcome (frames ++ decoded.1, decoded.2)
      ∧ (decoded.2 = none →
        (drain serde ⟨pending, joinLines event⟩ frames).2 = closed.2.decoder) := by
  induction hn : pending.length using Nat.strong_induction_on generalizing pending event frames with
  | _ n ih =>
      rw [drain]
      split
      · rename_i htake
        rw [Unfinished.read_open (takeLine_none htake)]
        simp [outcome, Unfinished.decoder]
      · rename_i raw rest htake
        have hlt : rest.length < n := hn ▸ takeLine_length htake
        obtain ⟨hraw, heq⟩ := takeLine_some htake
        obtain rfl : pending = raw ++ newline :: rest := heq
        rw [Unfinished.read_raw hraw]
        by_cases hblank : stripCr raw = []
        · rw [if_pos hblank, if_pos hblank]
          show _ ∧ _
          by_cases hevent : event = []
          · -- a blank line with no event before it closes nothing
            subst hevent
            rw [if_pos (joinLines_eq_nil.mpr rfl)]
            simpa [decode, Unfinished.start] using ih rest.length hlt rest [] frames rfl
          · rw [if_neg (mt joinLines_eq_nil.mp hevent), decodeSseEvent_eq]
            simp only [decode]
            have hblock : blockFrame serde event = eventFrame serde (joinLines event) := rfl
            rw [hblock]
            cases eventFrame serde (joinLines event) with
            | error e => simp [outcome]
            | ok item =>
                simpa [joinLines, Unfinished.start] using
                  ih rest.length hlt rest [] (frames ++ item.toList) rfl
        · rw [if_neg hblank, if_neg hblank, ← joinLines_concat]
          exact ih rest.length hlt rest (event ++ [stripCr raw]) frames rfl

/-- One `push`: the frames of the events it closes, unless one is malformed. -/
theorem push_eq (serde : SerdeJson) {u : Unfinished} (h : u.WellFormed) (bytes : List UInt8) :
    (u.decoder.push serde bytes).1 = outcome (decode (blockFrame serde) (u.read bytes).1)
      ∧ ((decode (blockFrame serde) (u.read bytes).1).2 = none →
        (u.decoder.push serde bytes).2 = (u.read bytes).2.decoder) := by
  rw [show u = ⟨u.line, u.event⟩ from rfl, Unfinished.read_line_append h.line]
  exact drain_eq (u.line ++ bytes) u.event []

end SseFrameDecoder

end Axp
