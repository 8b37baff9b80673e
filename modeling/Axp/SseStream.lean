import Axp.Sse
import Axp.SseDecoder

/-!
# From the server's events to the client's frames

`attach_sse` turns each frame into an event with an id and the frame's JSON
text, `axum` writes the events out with keep-alive comments between them, the
network cuts the bytes anywhere, and the client's decoder puts them together
again. `EventStream` is the form `axum` gives a stream; every line may end in
either line break.

`client_decodes_stream`: whatever the cuts, the client has exactly the frames
the server sent.
-/

namespace Axp

open Records

/-! ## What the server streams -/

/-- An event with its id and its data. -/
structure SseEvent where
  id : List UInt8
  data : List UInt8
deriving DecidableEq, Repr

/-- The body of `attach_sse`. A frame that fails to serialize is dropped. -/
def attachBody (serde : SerdeJson) (frames : List LogEventFrame) : List SseEvent :=
  frames.filterMap fun frame =>
    match serde.toString frame with
    | .ok data => some { id := utf8 (eventId frame), data := data }
    | .error _ => none

/-- Bytes without a raw line break. -/
def LineText (line : List UInt8) : Prop := newline ∉ line ∧ carriageReturn ∉ line

/-- `:`. -/
def colon : UInt8 := 58

/-- A space. -/
def space : UInt8 := 32

/-- A field's line: the name, a colon, perhaps a space, and the value. -/
inductive Field (name value : List UInt8) : List UInt8 → Prop where
  | tight : Field name value (name ++ colon :: value)
  | spaced : Field name value (name ++ colon :: space :: value)

/-- A line break. -/
inductive LineBreak : List UInt8 → Prop where
  | lf : LineBreak [newline]
  | crlf : LineBreak [carriageReturn, newline]

/-- Lines as they are written, each with its line break. -/
inductive Written : List (List UInt8) → List UInt8 → Prop where
  | nil : Written [] []
  | cons {line brk : List UInt8} {lines : List (List UInt8)} {bytes : List UInt8} :
      LineBreak brk → Written lines bytes → Written (line :: lines) (line ++ brk ++ bytes)

/-- The name `id`. -/
def idName : List UInt8 := [105, 100]

/-- The name `data`. -/
def dataName : List UInt8 := [100, 97, 116, 97]

/-- A stream that carries the events, with keep-alives wherever the server
puts them. -/
inductive EventStream : List SseEvent → List UInt8 → Prop where
  | done : EventStream [] []
  | keepAlive {comments : List (List UInt8)} {block bytes : List UInt8} {events : List SseEvent} :
      (∀ c ∈ comments, LineText c) → Written (comments.map (colon :: ·) ++ [[]]) block →
      EventStream events bytes → EventStream events (block ++ bytes)
  | event {e : SseEvent} {idLine dataLine block bytes : List UInt8} {events : List SseEvent} :
      Field idName e.id idLine → Field dataName e.data dataLine →
      Written [idLine, dataLine, []] block →
      EventStream events bytes → EventStream (e :: events) (block ++ bytes)

/-! ## What is assumed of `serde_json` -/

/-- A frame's text has no raw line break and is read back, also after a
space. -/
structure SerdeJson.Carries (serde : SerdeJson) (frame : LogEventFrame) (text : List UInt8) :
    Prop where
  written : serde.toString frame = .ok text
  lineText : LineText text
  read : serde.fromSlice text = .ok frame
  read_space : serde.fromSlice (space :: text) = .ok frame

/-! ## The client's run -/

/-- Push the chunks one after the other and finish. -/
def SseFrameDecoder.pushAll (serde : SerdeJson) (decoder : SseFrameDecoder) :
    List (List UInt8) → ClientResult (List LogEventFrame)
  | [] => decoder.finish serde
  | chunk :: chunks =>
      match decoder.push serde chunk with
      | (.error e, _) => .error e
      | (.ok frames, decoder) =>
          match decoder.pushAll serde chunks with
          | .error e => .error e
          | .ok more => .ok (frames ++ more)

/-- A stream without a malformed event is decoded to its end. -/
theorem SseFrameDecoder.pushAll_eq (serde : SerdeJson) {u : Unfinished} (hu : u.WellFormed)
    {chunks : List (List UInt8)}
    (hok : (decode (blockFrame serde) (u.read chunks.flatten).1).2 = none) :
    u.decoder.pushAll serde chunks =
      ((u.read chunks.flatten).2.decoder.finish serde).map
        ((decode (blockFrame serde) (u.read chunks.flatten).1).1 ++ ·) := by
  induction chunks generalizing u with
  | nil =>
      have hread : u.read [] = ([], u) := rfl
      rw [List.flatten_nil, hread]
      show u.decoder.finish serde = _
      cases u.decoder.finish serde <;> rfl
  | cons chunk chunks ih =>
      rw [List.flatten_cons, Unfinished.read_append] at hok ⊢
      obtain ⟨hpush, hstate⟩ := push_eq serde hu chunk
      cases he : (decode (blockFrame serde) (u.read chunk).1).2 with
      | some e => rw [decode_append_error he, he] at hok; cases hok
      | none =>
          rw [decode_append he] at hok ⊢
          rw [outcome, he] at hpush
          have hrest := ih (hu.read chunk) hok
          rw [pushAll, ← Prod.eta (u.decoder.push serde chunk), hpush, hstate he]
          simp only [hrest]
          cases ((u.read chunk).2.read chunks.flatten).2.decoder.finish serde with
          | error e => rfl
          | ok last => simp [Except.map]

/-- `parse_sse_frames` is one push. -/
theorem parseSseFrames_eq (serde : SerdeJson) (body : List UInt8) :
    parseSseFrames serde body = SseFrameDecoder.default.pushAll serde [body] := by
  rcases hpush : SseFrameDecoder.default.push serde body with ⟨e | frames, decoder⟩
  · simp [parseSseFrames, SseFrameDecoder.pushAll, hpush]
  · cases hfinish : decoder.finish serde with
    | error e => simp [parseSseFrames, SseFrameDecoder.pushAll, hpush, hfinish]
    | ok last => simp [parseSseFrames, SseFrameDecoder.pushAll, hpush, hfinish]

/-! ## Lines of text -/

@[simp] theorem lineText_nil : LineText [] := ⟨List.not_mem_nil, List.not_mem_nil⟩

@[simp] theorem lineText_append {xs ys : List UInt8} :
    LineText (xs ++ ys) ↔ LineText xs ∧ LineText ys := by
  simp only [LineText, List.mem_append, not_or]
  tauto

@[simp] theorem lineText_cons {byte : UInt8} {line : List UInt8} :
    LineText (byte :: line) ↔ (byte ≠ newline ∧ byte ≠ carriageReturn) ∧ LineText line := by
  simp only [LineText, List.mem_cons, not_or, ne_comm (a := byte), ne_eq]
  tauto

theorem Field.lineText {name value line : List UInt8} (h : Field name value line)
    (hname : LineText name) (hvalue : LineText value) : LineText line := by
  cases h with
  | tight => simp [hname, hvalue, colon, newline, carriageReturn]
  | spaced => simp [hname, hvalue, colon, space, newline, carriageReturn]

theorem utf8_eq_flatMap (s : String) : utf8 s = s.toList.flatMap String.utf8EncodeChar := by
  show s.toByteArray.data.toList = _
  rw [← String.utf8Encode_toList, List.utf8Encode, List.data_toByteArray]

/-- A number is written without a line break. -/
theorem lineText_eventId (frame : LogEventFrame) : LineText (utf8 (eventId frame)) := by
  have hbyte : ∀ b ∈ utf8 (eventId frame), 48 ≤ b.toNat := by
    intro b hb
    rw [utf8_eq_flatMap] at hb
    obtain ⟨c, hc, hbc⟩ := List.mem_flatMap.mp hb
    have hdigit : c.isDigit = true :=
      Nat.isDigit_of_mem_toDigits (by omega) (by omega) (Nat.toList_repr ▸ hc)
    have hval : 48 ≤ c.val.toNat ∧ c.val.toNat ≤ 57 := by
      simpa [Char.isDigit, UInt32.le_iff_toNat_le] using hdigit
    rw [String.utf8EncodeChar, if_pos (by omega), List.mem_singleton] at hbc
    rw [hbc, UInt8.toNat_ofNat']
    omega
  have hne : ∀ b : UInt8, b.toNat < 48 → b ∉ utf8 (eventId frame) := fun b hb hmem =>
    absurd (hbyte b hmem) (by omega)
  exact ⟨hne newline (by decide), hne carriageReturn (by decide)⟩

/-! ## Reading what the server streams -/

theorem stripCr_of_lineText {line : List UInt8} (h : LineText line) : stripCr line = line := by
  rw [stripCr, if_neg]
  exact fun hlast => h.2 (List.mem_of_getLast? hlast)

/-- A written line is read back, whichever way it ends. -/
theorem read_line {line brk rest : List UInt8} {event : List (List UInt8)} (h : LineText line)
    (hbrk : LineBreak brk) :
    Unfinished.read ⟨[], event⟩ (line ++ brk ++ rest) =
      if line = [] then
        (event :: (Unfinished.start.read rest).1, (Unfinished.start.read rest).2)
      else Unfinished.read ⟨[], event ++ [line]⟩ rest := by
  cases hbrk with
  | lf =>
      rw [List.append_assoc, List.singleton_append, Unfinished.read_raw h.1,
        stripCr_of_lineText h]
  | crlf =>
      have hcr : newline ∉ line ++ [carriageReturn] := fun hmem =>
        (List.mem_append.mp hmem).elim h.1 (by simp [newline, carriageReturn])
      have hstrip : stripCr (line ++ [carriageReturn]) = line := by
        rw [stripCr, if_pos (by simp), List.dropLast_concat]
      have hsplit : line ++ [carriageReturn, newline] ++ rest
          = (line ++ [carriageReturn]) ++ newline :: rest := by simp
      rw [hsplit, Unfinished.read_raw hcr, hstrip]

/-- Lines up to a blank one are one event. -/
theorem read_written {lines event : List (List UInt8)} {block rest : List UInt8}
    (h : ∀ l ∈ lines, LineText l ∧ l ≠ []) (hblock : Written (lines ++ [[]]) block) :
    Unfinished.read ⟨[], event⟩ (block ++ rest) =
      ((event ++ lines) :: (Unfinished.start.read rest).1, (Unfinished.start.read rest).2) := by
  induction lines generalizing event block with
  | nil =>
      cases hblock with
      | cons hbrk hnil =>
          cases hnil
          rw [List.append_nil, read_line ⟨by simp, by simp⟩ hbrk, if_pos rfl, List.append_nil]
  | cons line lines ih =>
      cases hblock with
      | @cons _ brk _ bytes hbrk hwritten =>
          obtain ⟨hline, hne⟩ := h line List.mem_cons_self
          rw [List.append_assoc, read_line hline hbrk, if_neg hne,
            ih (fun l hl => h l (List.mem_cons_of_mem _ hl)) hwritten]
          simp

/-- An event's bytes split into its lines again. -/
theorem splitOn_joinLines {lines : List (List UInt8)} (h : ∀ l ∈ lines, newline ∉ l) :
    (joinLines lines).splitOn newline = lines ++ [[]] := by
  induction lines with
  | nil => rfl
  | cons line lines ih =>
      show ((line ++ [newline]) ++ joinLines lines).splitOn newline = _
      rw [List.append_assoc, List.singleton_append,
        List.splitOn_append_cons_self_of_not_mem (h line List.mem_cons_self),
        ih fun l hl => h l (List.mem_cons_of_mem _ hl)]
      rfl

/-- A line that is no data line changes nothing. -/
theorem eventLine_none {line : List UInt8} (hline : LineText line)
    (h : line.dropPrefix? dataField = none) (acc : List UInt8 × Bool) :
    eventLine acc line = acc := by
  rw [eventLine, stripCr_of_lineText hline, h]

/-- A keep-alive carries no frame. -/
theorem blockFrame_comments (serde : SerdeJson) {comments : List (List UInt8)}
    (h : ∀ c ∈ comments, LineText c) :
    blockFrame serde (comments.map (colon :: ·)) = .ok none := by
  have hcolon : ∀ c ∈ comments, LineText (colon :: c) := fun c hc =>
    lineText_cons.mpr ⟨by decide, h c hc⟩
  have hline : ∀ l ∈ comments.map (colon :: ·), newline ∉ l := by
    intro l hl
    obtain ⟨c, hc, rfl⟩ := List.mem_map.mp hl
    exact (hcolon c hc).1
  have hfold : ∀ (cs : List (List UInt8)) (acc : List UInt8 × Bool),
      (∀ c ∈ cs, LineText (colon :: c)) → (cs.map (colon :: ·)).foldl eventLine acc = acc := by
    intro cs
    induction cs with
    | nil => intro acc _; rfl
    | cons c cs ih =>
        intro acc hcs
        rw [List.map_cons, List.foldl_cons,
          eventLine_none (hcs c List.mem_cons_self) (by simp [List.dropPrefix?, colon, dataField])]
        exact ih acc fun c' hc' => hcs c' (List.mem_cons_of_mem _ hc')
  have hdata : eventData (joinLines (comments.map (colon :: ·))) = ([], false) := by
    rw [eventData, splitOn_joinLines hline, List.foldl_append, hfold comments _ hcolon]
    rfl
  rw [blockFrame, eventFrame, hdata]
  rfl

/-- The data of an event with an id line and one data line. -/
theorem eventData_event {idLine value dataLine id : List UInt8} (hid : Field idName id idLine)
    (hidText : LineText idLine) (hvalue : Field dataName value dataLine)
    (hdataText : LineText dataLine) :
    ∃ lead, (lead = [] ∨ lead = [space])
      ∧ eventData (joinLines [idLine, dataLine]) = (lead ++ value, true) := by
  have hskip : idLine.dropPrefix? dataField = none := by
    cases hid <;> simp [List.dropPrefix?, idName, dataField]
  have hsplit : eventData (joinLines [idLine, dataLine])
      = eventLine (eventLine ([], false) dataLine) [] := by
    rw [eventData, splitOn_joinLines (by simp [hidText.1, hdataText.1])]
    show eventLine (eventLine (eventLine ([], false) idLine) dataLine) [] = _
    rw [eventLine_none hidText hskip]
  rw [hsplit, eventLine_none lineText_nil rfl, eventLine, stripCr_of_lineText hdataText]
  cases hvalue with
  | tight =>
      refine ⟨[], .inl rfl, ?_⟩
      simp [List.dropPrefix?, dataName, colon, dataField]
  | spaced =>
      refine ⟨[space], .inr rfl, ?_⟩
      simp [List.dropPrefix?, dataName, colon, dataField]

/-- An event brings its frame to the client. -/
structure Delivers (serde : SerdeJson) (e : SseEvent) (frame : LogEventFrame) : Prop where
  id : LineText e.id
  data : LineText e.data
  read : serde.fromSlice e.data = .ok frame
  read_space : serde.fromSlice (space :: e.data) = .ok frame

theorem Delivers.lines {serde : SerdeJson} {e : SseEvent} {frame : LogEventFrame}
    {idLine dataLine : List UInt8} (h : Delivers serde e frame) (hid : Field idName e.id idLine)
    (hdata : Field dataName e.data dataLine) : LineText idLine ∧ LineText dataLine :=
  ⟨hid.lineText (by simp [idName, newline, carriageReturn]) h.id,
    hdata.lineText (by simp [dataName, newline, carriageReturn]) h.data⟩

theorem blockFrame_event {serde : SerdeJson} {e : SseEvent} {frame : LogEventFrame}
    {idLine dataLine : List UInt8} (h : Delivers serde e frame) (hid : Field idName e.id idLine)
    (hdata : Field dataName e.data dataLine) :
    blockFrame serde [idLine, dataLine] = .ok (some frame) := by
  obtain ⟨hidText, hdataText⟩ := h.lines hid hdata
  obtain ⟨lead, hlead, hevent⟩ := eventData_event hid hidText hdata hdataText
  have hread : serde.fromSlice (lead ++ e.data) = .ok frame := by
    rcases hlead with rfl | rfl
    · exact h.read
    · exact h.read_space
  simp [blockFrame, eventFrame, hevent, hread]

/-- A stream closes all its events, and they carry the frames in order. -/
theorem read_stream {serde : SerdeJson} {events : List SseEvent} {frames : List LogEventFrame}
    {body : List UInt8} (hbody : EventStream events body)
    (h : List.Forall₂ (Delivers serde) events frames) :
    decode (blockFrame serde) (Unfinished.start.read body).1 = (frames, none)
      ∧ (Unfinished.start.read body).2 = .start := by
  induction hbody generalizing frames with
  | done =>
      cases h
      exact ⟨rfl, rfl⟩
  | @keepAlive comments block bytes events hcomments hblock hbytes ih =>
      obtain ⟨hframes, hrest⟩ := ih h
      have hlines : ∀ l ∈ comments.map (colon :: ·), LineText l ∧ l ≠ [] := by
        intro l hl
        obtain ⟨c, hc, rfl⟩ := List.mem_map.mp hl
        exact ⟨lineText_cons.mpr ⟨by decide, hcomments c hc⟩, List.cons_ne_nil colon c⟩
      rw [Unfinished.start, read_written hlines hblock, decode, List.nil_append,
        blockFrame_comments serde hcomments]
      exact ⟨hframes, hrest⟩
  | @event e idLine dataLine block bytes events hid hdata hblock hbytes ih =>
      cases h with
      | @cons _ frame _ frames he hes =>
          obtain ⟨hframes, hrest⟩ := ih hes
          obtain ⟨hidText, hdataText⟩ := he.lines hid hdata
          have hlines : ∀ l ∈ [idLine, dataLine], LineText l ∧ l ≠ [] := by
            intro l hl
            rcases List.mem_pair.mp hl with rfl | rfl
            · exact ⟨hidText, by cases hid <;> simp [idName]⟩
            · exact ⟨hdataText, by cases hdata <;> simp [dataName]⟩
          rw [Unfinished.start, read_written hlines hblock, decode, List.nil_append,
            blockFrame_event he hid hdata]
          exact ⟨by rw [hframes]; rfl, hrest⟩

/-- **However the network cuts the stream, the client decodes the frames the
server sent.** -/
theorem client_decodes_stream {serde : SerdeJson} {frames : List LogEventFrame}
    (hserde : ∀ frame ∈ frames, ∃ text, serde.Carries frame text)
    {body : List UInt8} (hbody : EventStream (attachBody serde frames) body)
    {chunks : List (List UInt8)} (hchunks : chunks.flatten = body) :
    SseFrameDecoder.default.pushAll serde chunks = .ok frames
      ∧ parseSseFrames serde body = .ok frames := by
  have hdelivers : List.Forall₂ (Delivers serde) (attachBody serde frames) frames := by
    clear hbody
    induction frames with
    | nil => exact .nil
    | cons frame frames ih =>
        obtain ⟨text, htext⟩ := hserde frame List.mem_cons_self
        rw [attachBody, List.filterMap_cons, htext.written]
        exact .cons ⟨lineText_eventId frame, htext.lineText, htext.read, htext.read_space⟩
          (ih fun f hf => hserde f (List.mem_cons_of_mem _ hf))
  obtain ⟨hframes, hend⟩ := read_stream hbody hdelivers
  have hall : ∀ chunks : List (List UInt8), chunks.flatten = body →
      SseFrameDecoder.default.pushAll serde chunks = .ok frames := by
    rintro chunks rfl
    have hok : (decode (blockFrame serde) (Unfinished.start.read chunks.flatten).1).2 = none := by
      rw [hframes]
    have hrun := SseFrameDecoder.pushAll_eq serde Unfinished.wellFormed_start hok
    have hfinish : Unfinished.start.decoder.finish serde = .ok [] := rfl
    rw [hframes, hend, hfinish] at hrun
    exact hrun.trans (by simp [Except.map])
  refine ⟨hall chunks hchunks, ?_⟩
  rw [parseSseFrames_eq]
  exact hall [body] (by simp)

/-! ## One frame over a cut stream -/

def accentFrame : LogEventFrame where
  jobId := ⟨"héllo"⟩
  seq := 7
  stream := .stdout
  data := [104, 105, 10]
  tsMillis := 11

def accentText : List UInt8 :=
  utf8 ("\x7b\"job_id\":\"héllo\",\"seq\":7,\"stream\":\"stdout\",\"data\":[104,105,10],"
    ++ "\"ts_millis\":11\x7d")

/-- `serde_json` where this frame is concerned: its text, read after any
leading spaces. -/
def accentSerde : SerdeJson where
  toString frame := if frame = accentFrame then .ok accentText else .error "another frame"
  fromSlice bytes :=
    if bytes.dropWhile (· == space) = accentText then .ok accentFrame
    else .error "expected value at line 1 column 1"

/-- A keep-alive, then the frame's event with `\r\n` line ends. -/
def accentBody : List UInt8 :=
  ([colon] ++ [newline] ++ ([] ++ [newline] ++ []))
    ++ ((idName ++ colon :: space :: utf8 (eventId accentFrame)) ++ [carriageReturn, newline]
        ++ ((dataName ++ colon :: space :: accentText) ++ [carriageReturn, newline]
          ++ ([] ++ [carriageReturn, newline] ++ []))
      ++ [])

theorem accentBody_stream : EventStream (attachBody accentSerde [accentFrame]) accentBody := by
  have hbody : attachBody accentSerde [accentFrame]
      = [{ id := utf8 (eventId accentFrame), data := accentText }] := by
    simp [attachBody, accentSerde]
  rw [hbody]
  have hcomments : ∀ c ∈ ([[]] : List (List UInt8)), LineText c := by simp
  exact .keepAlive hcomments (.cons .lf (.cons .lf .nil))
    (.event .spaced .spaced (.cons .crlf (.cons .crlf (.cons .crlf .nil))) .done)

/-- The stream arrives in three chunks, cut inside a character. -/
theorem client_decodes_stream_accent :
    SseFrameDecoder.default.pushAll accentSerde
        [accentBody.take 29, [], accentBody.drop 29] = .ok [accentFrame]
      ∧ parseSseFrames accentSerde accentBody = .ok [accentFrame] := by
  refine client_decodes_stream (fun frame hframe => ?_) accentBody_stream (by simp)
  obtain rfl := List.mem_singleton.mp hframe
  refine ⟨accentText, ?_, ⟨by decide +kernel, by decide +kernel⟩, ?_, ?_⟩
  · simp [accentSerde]
  · have hlead : accentText.dropWhile (· == space) = accentText := by decide +kernel
    simp [accentSerde, hlead]
  · have hlead : (space :: accentText).dropWhile (· == space) = accentText := by decide +kernel
    simp [accentSerde, hlead]

end Axp
