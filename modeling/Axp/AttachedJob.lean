import Axp.SseStream

/-!
# Reading frames from an attached stream

`AttachedJob::next_frame` pushes chunks until one gives a frame, hands out the
frames of that chunk one by one, and finishes the decoder at the end of the
body. `Calls` is what a caller sees who asks again until the first error or
the end.

A chunk whose `push` fails is given up as a whole: the frames it had decoded
before the malformed event never reach the queue. So the answers depend on
where the network cut the stream, exactly if the first malformed event comes
after an event with a frame (`next_frame_cut_independent_iff`).
-/

namespace Axp

open Records

/-! ## The code -/

/-- `AttachedJob`. `response` is what the calls of `chunk` still return; then
the body is over. -/
structure AttachedJob where
  response : List (Except ErrorText (List UInt8))
  decoder : SseFrameDecoder
  pending : List LogEventFrame

namespace AttachedJob

/-- The loop of `next_frame` over the chunks, and the end of the body. -/
def readChunks (serde : SerdeJson) (decoder : SseFrameDecoder) :
    List (Except ErrorText (List UInt8)) → ClientResult (Option LogEventFrame) × AttachedJob
  | [] =>
      match decoder.finish serde with
      | .error e => (.error e, ⟨[], .default, []⟩)
      | .ok frames => (.ok frames.head?, ⟨[], .default, frames.tail⟩)
  | .error e :: response => (.error (.http e), ⟨response, decoder, []⟩)
  | .ok chunk :: response =>
      match decoder.push serde chunk with
      | (.error e, decoder) => (.error e, ⟨response, decoder, []⟩)
      | (.ok [], decoder) => readChunks serde decoder response
      | (.ok (frame :: frames), decoder) => (.ok (some frame), ⟨response, decoder, frames⟩)

/-- `AttachedJob::next_frame`. -/
def nextFrame (serde : SerdeJson) (job : AttachedJob) :
    ClientResult (Option LogEventFrame) × AttachedJob :=
  match job.pending with
  | frame :: pending => (.ok (some frame), { job with pending := pending })
  | [] => readChunks serde job.decoder job.response

/-- A stream that has just been opened, over a body in chunks. -/
def opened (chunks : List (List UInt8)) : AttachedJob :=
  { response := chunks.map .ok, decoder := .default, pending := [] }

end AttachedJob

/-- The results of repeated calls of `next_frame`, up to and with the first
error or the end of the stream. -/
inductive Calls (serde : SerdeJson) :
    AttachedJob → List (ClientResult (Option LogEventFrame)) → Prop where
  | frame {job job' : AttachedJob} {frame : LogEventFrame}
      {results : List (ClientResult (Option LogEventFrame))} :
      job.nextFrame serde = (.ok (some frame), job') → Calls serde job' results →
      Calls serde job (.ok (some frame) :: results)
  | done {job job' : AttachedJob} :
      job.nextFrame serde = (.ok none, job') → Calls serde job [.ok none]
  | failed {job job' : AttachedJob} {e : ClientError} :
      job.nextFrame serde = (.error e, job') → Calls serde job [.error e]

/-! ## What the caller sees -/

/-- The results that end in what `finish` finds. -/
def tailResults (r : ClientResult (List LogEventFrame)) :
    List (ClientResult (Option LogEventFrame)) :=
  match r with
  | .error e => [.error e]
  | .ok frames => frames.map (.ok ∘ some) ++ [.ok none]

/-- The results over the chunks still to come. -/
def chunkResults (serde : SerdeJson) (decoder : SseFrameDecoder) :
    List (List UInt8) → List (ClientResult (Option LogEventFrame))
  | [] => tailResults (decoder.finish serde)
  | chunk :: chunks =>
      match decoder.push serde chunk with
      | (.error e, _) => [.error e]
      | (.ok frames, decoder) => frames.map (.ok ∘ some) ++ chunkResults serde decoder chunks

variable {serde : SerdeJson} {decoder : SseFrameDecoder} {frames : List LogEventFrame}
  {chunks : List (List UInt8)} {results : List (ClientResult (Option LogEventFrame))}

section Calls

variable {job job' : AttachedJob}

theorem calls_some {frame : LogEventFrame} (h : job.nextFrame serde = (.ok (some frame), job')) :
    Calls serde job results ↔
      ∃ rest, results = .ok (some frame) :: rest ∧ Calls serde job' rest := by
  constructor
  · intro hcalls
    cases hcalls with
    | frame hnext hrest =>
        obtain ⟨hframe, rfl⟩ := Prod.mk.inj (h.symm.trans hnext)
        obtain rfl := Option.some.inj (Except.ok.inj hframe)
        exact ⟨_, rfl, hrest⟩
    | done hnext => cases (Prod.mk.inj (h.symm.trans hnext)).1
    | failed hnext => cases (Prod.mk.inj (h.symm.trans hnext)).1
  · rintro ⟨rest, rfl, hrest⟩
    exact .frame h hrest

theorem calls_none (h : job.nextFrame serde = (.ok none, job')) :
    Calls serde job results ↔ results = [.ok none] := by
  constructor
  · intro hcalls
    cases hcalls with
    | frame hnext _ => cases (Prod.mk.inj (h.symm.trans hnext)).1
    | done _ => rfl
    | failed hnext => cases (Prod.mk.inj (h.symm.trans hnext)).1
  · rintro rfl
    exact .done h

theorem calls_error {e : ClientError} (h : job.nextFrame serde = (.error e, job')) :
    Calls serde job results ↔ results = [.error e] := by
  constructor
  · intro hcalls
    cases hcalls with
    | frame hnext _ => cases (Prod.mk.inj (h.symm.trans hnext)).1
    | done hnext => cases (Prod.mk.inj (h.symm.trans hnext)).1
    | failed hnext => rw [Except.error.inj (Prod.mk.inj (h.symm.trans hnext)).1]
  · rintro rfl
    exact .failed h

/-- The results are decided by the next call. -/
theorem calls_congr (h : job.nextFrame serde = job'.nextFrame serde) :
    Calls serde job results ↔ Calls serde job' results := by
  rcases hnext : job'.nextFrame serde with ⟨e | _ | frame, next⟩
  · rw [calls_error (h.trans hnext), calls_error hnext]
  · rw [calls_none (h.trans hnext), calls_none hnext]
  · rw [calls_some (h.trans hnext), calls_some hnext]

/-- Frames in the queue are handed out first. -/
theorem calls_pending {response : List (Except ErrorText (List UInt8))} :
    Calls serde ⟨response, decoder, frames⟩ results ↔
      ∃ rest, results = frames.map (.ok ∘ some) ++ rest
        ∧ Calls serde ⟨response, decoder, []⟩ rest := by
  induction frames generalizing results with
  | nil => simp
  | cons frame frames ih =>
      have hnext : AttachedJob.nextFrame serde ⟨response, decoder, frame :: frames⟩
          = (.ok (some frame), ⟨response, decoder, frames⟩) := rfl
      rw [calls_some hnext]
      constructor
      · rintro ⟨_, rfl, hrest⟩
        obtain ⟨rest, rfl, hcalls⟩ := ih.mp hrest
        exact ⟨rest, rfl, hcalls⟩
      · rintro ⟨rest, rfl, hcalls⟩
        exact ⟨_, rfl, ih.mpr ⟨rest, rfl, hcalls⟩⟩

/-- A chunk's frames are handed out before the next chunk is read. -/
theorem calls_frames {frame : LogEventFrame} {response : List (Except ErrorText (List UInt8))}
    (h : job.nextFrame serde = (.ok (some frame), ⟨response, decoder, frames⟩)) :
    Calls serde job results ↔
      ∃ rest, results = (frame :: frames).map (.ok ∘ some) ++ rest
        ∧ Calls serde ⟨response, decoder, []⟩ rest := by
  rw [calls_some h]
  constructor
  · rintro ⟨_, rfl, hcalls⟩
    obtain ⟨rest, rfl, hrest⟩ := calls_pending.mp hcalls
    exact ⟨rest, rfl, hrest⟩
  · rintro ⟨rest, rfl, hrest⟩
    exact ⟨_, rfl, calls_pending.mpr ⟨rest, rfl, hrest⟩⟩

end Calls

/-- After the end of the body there is nothing more. -/
theorem calls_ended : Calls serde ⟨[], .default, []⟩ results ↔ results = [.ok none] := by
  have hnext : AttachedJob.nextFrame serde ⟨[], .default, []⟩
      = (.ok none, ⟨[], .default, []⟩) := rfl
  exact calls_none hnext

/-- There is one sequence of results, and this is it. -/
theorem calls_iff :
    Calls serde ⟨chunks.map .ok, decoder, []⟩ results ↔
      results = chunkResults serde decoder chunks := by
  induction chunks generalizing decoder results with
  | nil =>
      rw [chunkResults, List.map_nil]
      rcases hfinish : decoder.finish serde with e | frames
      · have hnext : AttachedJob.nextFrame serde ⟨[], decoder, []⟩
            = (.error e, ⟨[], .default, []⟩) := by
          simp [AttachedJob.nextFrame, AttachedJob.readChunks, hfinish]
        exact calls_error hnext
      · cases frames with
        | nil =>
            have hnext : AttachedJob.nextFrame serde ⟨[], decoder, []⟩
                = (.ok none, ⟨[], .default, []⟩) := by
              simp [AttachedJob.nextFrame, AttachedJob.readChunks, hfinish]
            exact calls_none hnext
        | cons frame frames =>
            have hnext : AttachedJob.nextFrame serde ⟨[], decoder, []⟩
                = (.ok (some frame), ⟨[], .default, frames⟩) := by
              simp [AttachedJob.nextFrame, AttachedJob.readChunks, hfinish]
            rw [calls_frames hnext]
            simp only [calls_ended]
            simp [tailResults]
  | cons chunk chunks ih =>
      rw [chunkResults, List.map_cons]
      rcases hpush : decoder.push serde chunk with ⟨e | frames, decoder'⟩
      · have hnext : AttachedJob.nextFrame serde ⟨.ok chunk :: chunks.map .ok, decoder, []⟩
            = (.error e, ⟨chunks.map .ok, decoder', []⟩) := by
          simp [AttachedJob.nextFrame, AttachedJob.readChunks, hpush]
        exact calls_error hnext
      · cases frames with
        | nil =>
            have hnext : AttachedJob.nextFrame serde ⟨.ok chunk :: chunks.map .ok, decoder, []⟩
                = AttachedJob.nextFrame serde ⟨chunks.map .ok, decoder', []⟩ := by
              simp [AttachedJob.nextFrame, AttachedJob.readChunks, hpush]
            rw [calls_congr hnext, ih]
            rfl
        | cons frame frames =>
            have hnext : AttachedJob.nextFrame serde ⟨.ok chunk :: chunks.map .ok, decoder, []⟩
                = (.ok (some frame), ⟨chunks.map .ok, decoder', frames⟩) := by
              simp [AttachedJob.nextFrame, AttachedJob.readChunks, hpush]
            rw [calls_frames hnext]
            simp only [ih]
            simp

/-! ## What the stream carries -/

/-- The events each chunk closes. -/
def Unfinished.reads (u : Unfinished) : List (List UInt8) → List (List (List (List UInt8)))
  | [] => []
  | chunk :: chunks => (u.read chunk).1 :: (u.read chunk).2.reads chunks

theorem Unfinished.reads_flatten (u : Unfinished) (chunks : List (List UInt8)) :
    (u.reads chunks).flatten = (u.read chunks.flatten).1 := by
  induction chunks generalizing u with
  | nil => rfl
  | cons chunk chunks ih =>
      rw [reads, List.flatten_cons, List.flatten_cons, read_append, ih]

/-- The frames delivered, then the error, or what the end of the body gives. -/
def resultsOf (serde : SerdeJson) (delivered : List LogEventFrame × Option ClientError)
    (u : Unfinished) : List (ClientResult (Option LogEventFrame)) :=
  delivered.1.map (.ok ∘ some) ++
    match delivered.2 with
    | some e => [.error e]
    | none => tailResults (u.decoder.finish serde)

/-- The results over a stream in chunks: what reads of these chunks deliver. -/
theorem chunkResults_eq {u : Unfinished} (hu : u.WellFormed) :
    chunkResults serde u.decoder chunks =
      resultsOf serde (deliver (blockFrame serde) (u.reads chunks)) (u.read chunks.flatten).2 := by
  induction chunks generalizing u with
  | nil => rfl
  | cons chunk chunks ih =>
      obtain ⟨hpush, hstate⟩ := SseFrameDecoder.push_eq serde hu chunk
      rw [chunkResults, ← Prod.eta (u.decoder.push serde chunk), hpush, Unfinished.reads,
        deliver_cons, List.flatten_cons, Unfinished.read_append, outcome, readOf]
      cases he : (decode (blockFrame serde) (u.read chunk).1).2 with
      | some e => rfl
      | none =>
          simp only [he, hstate he, ih (hu.read chunk)]
          simp [resultsOf]

/-! ## Cuts -/

/-- Chunks of the same stream are answered alike. -/
def CutsAgree (serde : SerdeJson) (bytes : List UInt8) : Prop :=
  ∀ chunks chunks' results results', chunks.flatten = bytes → chunks'.flatten = bytes →
    Calls serde (.opened chunks) results → Calls serde (.opened chunks') results' →
    results = results'

/-- Every chunking is answered with the frames of all events before the first
malformed one and then its error; without one, with all frames and what the
end of the body gives. -/
def FramesFirst (serde : SerdeJson) (bytes : List UInt8) : Prop :=
  ∀ chunks results, chunks.flatten = bytes → Calls serde (.opened chunks) results →
    results = resultsOf serde (decode (blockFrame serde) (streamEvents bytes))
      (Unfinished.start.read bytes).2

/-- A blank line closes a malformed event, the first of the stream, after an
event with a frame. -/
def FrameBeforeMalformed (serde : SerdeJson) (bytes : List UInt8) : Prop :=
  Drops (blockFrame serde) (streamEvents bytes)

theorem opened_calls_iff :
    Calls serde (.opened chunks) results ↔
      results = resultsOf serde (deliver (blockFrame serde) (Unfinished.start.reads chunks))
        (Unfinished.start.read chunks.flatten).2 := by
  rw [← chunkResults_eq Unfinished.wellFormed_start]
  exact calls_iff

/-- A chunk of one byte closes at most one event. -/
theorem Unfinished.read_byte (u : Unfinished) (byte : UInt8) : (u.read [byte]).1.length ≤ 1 := by
  have hlines := feed_length_le (p := (· == newline)) u.line [byte]
  have hevents := feed_length_le (p := List.isEmpty) u.event
    ((feed (· == newline) u.line [byte]).1.map stripCr)
  rw [List.length_map] at hevents
  exact hevents.trans hlines

theorem flatten_bytes (bytes : List UInt8) : (bytes.map ([·])).flatten = bytes := by
  rw [← List.flatMap_def, List.flatMap_singleton']

/-- Byte by byte, nothing is lost. -/
theorem deliver_bytes (u : Unfinished) (bytes : List UInt8) :
    deliver (blockFrame serde) (u.reads (bytes.map ([·])))
      = decode (blockFrame serde) (u.read bytes).1 := by
  have hone : ∀ (u : Unfinished), ∀ events ∈ u.reads (bytes.map ([·])), events.length ≤ 1 := by
    induction bytes with
    | nil => intro u events h; cases h
    | cons byte bytes ih =>
        intro u events h
        rcases List.mem_cons.mp h with rfl | h
        · exact u.read_byte byte
        · exact ih _ events h
  rw [deliver_eq_decode fun events h => not_drops_of_length_le_one (hone u events h),
    Unfinished.reads_flatten, flatten_bytes]

theorem framesFirst_of_not (bytes : List UInt8) (h : ¬FrameBeforeMalformed serde bytes) :
    FramesFirst serde bytes := by
  rintro chunks results rfl hcalls
  rw [opened_calls_iff.mp hcalls, deliver_of_not_drops, Unfinished.reads_flatten]
  · rfl
  · rw [Unfinished.reads_flatten]
    exact h

theorem not_of_cutsAgree {bytes : List UInt8} (h : CutsAgree serde bytes) :
    ¬FrameBeforeMalformed serde bytes := by
  intro hdrops
  have hsame := h [bytes] (bytes.map ([·])) _ _ (by simp) (flatten_bytes bytes)
    (opened_calls_iff.mpr rfl) (opened_calls_iff.mpr rfl)
  obtain ⟨herr, hitems⟩ := drops_iff.mp hdrops
  obtain ⟨e, he⟩ := Option.ne_none_iff_exists'.mp herr
  -- at once only the error is reported; byte by byte it comes after the frames
  have hone : deliver (blockFrame serde) (Unfinished.start.reads [bytes]) = ([], some e) := by
    show deliver (blockFrame serde) [streamEvents bytes] = _
    rw [deliver_cons, readOf, he]
  have hbytes : deliver (blockFrame serde) (Unfinished.start.reads (bytes.map ([·])))
      = decode (blockFrame serde) (streamEvents bytes) := deliver_bytes .start bytes
  rw [hone, hbytes, resultsOf, resultsOf, he] at hsame
  have hlength := congrArg List.length hsame
  simp only [List.length_append, List.length_map, List.length_nil] at hlength
  exact hitems (List.eq_nil_of_length_eq_zero (by omega))

/-- **The frames a client gets do not depend on how the network cuts the
stream exactly if no malformed event ends the stream after an event with a
frame; then every frame before a malformed event is returned first.** -/
theorem next_frame_cut_independent_iff (serde : SerdeJson) (bytes : List UInt8) :
    (∀ chunks, ∃ results, Calls serde (.opened chunks) results)
      ∧ (CutsAgree serde bytes ↔ ¬FrameBeforeMalformed serde bytes)
      ∧ (FramesFirst serde bytes ↔ ¬FrameBeforeMalformed serde bytes) := by
  have hagree : FramesFirst serde bytes → CutsAgree serde bytes := by
    intro h chunks chunks' results results' hchunks hchunks' hcalls hcalls'
    rw [h chunks results hchunks hcalls, h chunks' results' hchunks' hcalls']
  refine ⟨fun chunks => ⟨_, opened_calls_iff.mpr rfl⟩, ?_, ?_⟩
  · exact ⟨not_of_cutsAgree, fun h => hagree (framesFirst_of_not bytes h)⟩
  · exact ⟨fun h => not_of_cutsAgree (hagree h), framesFirst_of_not bytes⟩

/-! ## A frame lost with its chunk -/

/-- A well-formed event. -/
def goodEvent : List UInt8 := dataName ++ colon :: accentText ++ [newline, newline]

/-- An event whose data is no JSON. -/
def badEvent : List UInt8 := dataName ++ [colon, 120, newline, newline]

/-- In one chunk with the malformed event the frame is lost; a cut between the
two saves it. -/
theorem next_frame_loses_frame : ∃ e,
    Calls accentSerde (.opened [goodEvent ++ badEvent]) [.error e]
      ∧ Calls accentSerde (.opened [goodEvent, badEvent]) [.ok (some accentFrame), .error e]
      ∧ ¬CutsAgree accentSerde (goodEvent ++ badEvent) := by
  have hwhole : Calls accentSerde (.opened [goodEvent ++ badEvent])
      [.error (.json "expected value at line 1 column 1")] :=
    opened_calls_iff.mpr (by decide +kernel)
  have hcut : Calls accentSerde (.opened [goodEvent, badEvent])
      [.ok (some accentFrame), .error (.json "expected value at line 1 column 1")] :=
    opened_calls_iff.mpr (by decide +kernel)
  refine ⟨_, hwhole, hcut, fun hagree => ?_⟩
  have hsame := hagree _ _ _ _ (by simp) (by simp) hwhole hcut
  simp at hsame

end Axp
