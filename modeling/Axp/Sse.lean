import Axp.Delivery

/-!
# Resuming over Server-Sent Events

A client of `GET /job/attach` beside the job's task and its attached streams.
The client reads as many events of a connection as it likes, may disconnect
at any point, and reconnects as an `EventSource` does: the id of the last
event it received goes into `Last-Event-ID`.

`attach_sse` takes that id as the offset to attach at, and `attach` delivers
from its offset on, offset included. So the first event of a resumed
connection is the one the client already has. `sse_exactly_once_iff` says
that this is the only thing that goes wrong: a client gets each event once
exactly as long as it reads nothing from a connection it resumed.
-/

namespace Axp

open Lts

/-! ## The offset of a request -/

/-- `str::parse::<u64>`. -/
def parseU64 (s : String) : Option Nat :=
  let digits :=
    match s.toList with
    | '+' :: rest => rest
    | cs => cs
  if digits ≠ [] ∧ digits.all Char.isDigit = true ∧ Nat.ofDigitChars 10 digits 0 < 2 ^ 64 then
    some (Nat.ofDigitChars 10 digits 0)
  else none

/-- The offset `attach_sse` attaches at: the `Last-Event-ID` header, where it
is a string that parses, else the query parameter. -/
def resumeOffset (lastEventId : Option String) (fromOffset : Nat) : Nat :=
  (lastEventId.bind parseU64).getD fromOffset

/-- The id of an event. -/
def eventId (frame : LogEventFrame) : String := toString frame.seq

/-- An id parses back to its sequence number, if that fits in a `u64`. -/
theorem parseU64_toString (n : Nat) :
    parseU64 (toString n) = if n < 2 ^ 64 then some n else none := by
  have hdigits : (toString n).toList = Nat.toDigits 10 n := Nat.toList_repr
  have hplus : ∀ rest, Nat.toDigits 10 n ≠ '+' :: rest := fun rest heq => by
    have hd := Nat.isDigit_of_mem_toDigits (by omega) (by omega)
      (heq ▸ List.mem_cons_self : '+' ∈ Nat.toDigits 10 n)
    simp at hd
  have hall : (Nat.toDigits 10 n).all Char.isDigit = true :=
    List.all_eq_true.mpr fun _ => Nat.isDigit_of_mem_toDigits (by omega) (by omega)
  unfold parseU64
  rw [hdigits]
  split
  · rename_i rest heq
    exact absurd heq (hplus rest)
  · simp [Nat.toDigits_ne_nil, hall, Nat.ofDigitChars_ten_toDigits]

/-! ## The client -/

/-- An open connection: the stream behind it, whether it was opened with a
`Last-Event-ID`, and how many of its events the client has read. -/
structure SseConn where
  stream : Nat
  resumed : Bool
  read : Nat
deriving DecidableEq, Repr

structure SseState (σ : Type) where
  sys : AttachState σ
  nextStream : Nat
  conn : Option SseConn
  fromOffset : Nat
  lastEventId : Option String
  received : List LogEventFrame

inductive SseLabel (ι : Type) where
  | server (l : AttachLabel ι)
  | connect
  | read
  | disconnect

/-- The task, the streams and the client. Streams are opened by the client
alone. -/
def sseSystem {σ ι : Type} (task : Task σ ι) : System (SseState σ) (SseLabel ι) where
  init s := (attachSystem task).init s.sys ∧ s.conn = none ∧ s.lastEventId = none
    ∧ s.received = []
  step s
    | .server l =>
        match l with
        | .attach _ _ => none
        | l => ((attachSystem task).step s.sys l).map fun sys => { s with sys := sys }
    | .connect =>
        match s.conn with
        | some _ => none
        | none =>
            let offset := resumeOffset s.lastEventId s.fromOffset
            ((attachSystem task).step s.sys (.attach s.nextStream offset)).map fun sys =>
              { s with
                sys := sys
                nextStream := s.nextStream + 1
                conn := some { stream := s.nextStream, resumed := s.lastEventId.isSome,
                               read := 0 } }
    | .read =>
        match s.conn with
        | none => none
        | some conn =>
            match (((s.sys.streams conn.stream).map Attached.returned).getD [])[conn.read]? with
            | none => none
            | some frame =>
                some { s with
                  conn := some { conn with read := conn.read + 1 }
                  lastEventId := some (eventId frame)
                  received := s.received ++ [frame] }
    | .disconnect => if s.conn.isSome then some { s with conn := none } else none

/-- A read takes the first event of the connection that has not been read. -/
theorem sse_read_eq_some {σ ι : Type} {task : Task σ ι} {s s' : SseState σ}
    (h : (sseSystem task).step s .read = some s') :
    ∃ conn a frame, s.conn = some conn ∧ s.sys.streams conn.stream = some a
      ∧ a.returned[conn.read]? = some frame
      ∧ s' = { s with conn := some { conn with read := conn.read + 1 },
                      lastEventId := some (eventId frame),
                      received := s.received ++ [frame] } := by
  simp only [sseSystem] at h
  split at h
  · cases h
  · rename_i conn hconn
    split at h
    · cases h
    · rename_i frame hframe
      obtain rfl := Option.some.inj h
      cases ha : s.sys.streams conn.stream with
      | none =>
          rw [ha] at hframe
          simp at hframe
      | some a =>
          rw [ha] at hframe
          exact ⟨conn, a, frame, hconn, ha, hframe, rfl⟩

/-! ## What goes wrong, and when -/

/-- The frames of a job's log from an offset on. -/
def framesFrom (job : Job) (c : Nat) : List LogEventFrame :=
  (job.events.drop c).map (eventToFrame job.id)

theorem framesFrom_seqs (job : Job) (c : Nat) :
    (framesFrom job c).map LogEventFrame.seq = List.range' c (job.events.length - c) := by
  rw [framesFrom, List.map_map]
  exact job.replayLog.drop_seqs c

theorem framesFrom_increasing (job : Job) (c : Nat) :
    (framesFrom job c).Pairwise fun f g => f.seq < g.seq := by
  have hseqs : ((framesFrom job c).map LogEventFrame.seq).Pairwise (· < ·) := by
    rw [framesFrom_seqs]
    exact List.pairwise_lt_range'
  exact List.pairwise_map.mp hseqs

theorem framesFrom_bounds {job : Job} {c : Nat} {f : LogEventFrame}
    (h : f ∈ framesFrom job c) : c ≤ f.seq ∧ f.seq < job.events.length := by
  have hmem : f.seq ∈ (framesFrom job c).map LogEventFrame.seq := List.mem_map_of_mem h
  rw [framesFrom_seqs, List.mem_range'_1] at hmem
  omega

theorem framesFrom_mono {job job' : Job} (hid : job'.id = job.id)
    (h : job.events <+: job'.events) (c : Nat) : framesFrom job c <+: framesFrom job' c := by
  rw [framesFrom, framesFrom, hid]
  exact (h.drop c).map _

/-- The client has received the log from its first offset on, each event once
and in order; all of it, once it has read an ended connection to its end. -/
structure ExactlyOnce {σ : Type} (s : SseState σ) : Prop where
  inOrder : s.received <+: framesFrom s.sys.job s.fromOffset
  complete : ∀ conn a, s.conn = some conn → s.sys.streams conn.stream = some a →
    none ∈ a.results → conn.read = a.returned.length →
    s.received = framesFrom s.sys.job s.fromOffset

/-- Events are read only from connections opened without a `Last-Event-ID`. -/
def Unresumed {σ ι : Type} (s : SseState σ) : SseLabel ι → Prop
  | .read => s.conn.map SseConn.resumed ≠ some true
  | _ => True

instance {σ ι : Type} (s : SseState σ) (l : SseLabel ι) : Decidable (Unresumed s l) := by
  cases l <;> unfold Unresumed <;> infer_instance

/-- What is true while nothing has gone wrong: everything received came from
the one connection opened without a `Last-Event-ID`; a resumed connection has
delivered nothing, and is attached no later than at an event the client
already has. -/
structure SseInv {σ : Type} (s : SseState σ) : Prop where
  sys : AttachInv s.sys
  lastId : s.lastEventId = s.received.getLast?.map eventId
  conn : ∀ conn, s.conn = some conn → ∃ a, s.sys.streams conn.stream = some a
    ∧ (conn.resumed = false → a.offset = s.fromOffset ∧ conn.read ≤ a.returned.length
        ∧ s.received = a.returned.take conn.read)
    ∧ (conn.resumed = true → conn.read = 0 ∧ ∃ f ∈ s.received, a.offset ≤ f.seq)

namespace SseInv

variable {σ ι : Type} {task : Task σ ι} {s s' : SseState σ}

theorem init (h : (sseSystem task).init s) : SseInv s ∧ ExactlyOnce s := by
  obtain ⟨hsys, hconn, hid, hrecv⟩ := h
  refine ⟨⟨AttachInv.init hsys, ?_, fun conn hc => ?_⟩, ?_, fun conn a hc => ?_⟩
  · rw [hid, hrecv]
    rfl
  · rw [hconn] at hc
    cases hc
  · rw [hrecv]
    exact List.nil_prefix
  · rw [hconn] at hc
    cases hc

/-- Nothing is missing at the end of a connection. -/
theorem complete (h : SseInv s) (hpre : s.received <+: framesFrom s.sys.job s.fromOffset) :
    ExactlyOnce s := by
  refine ⟨hpre, fun conn a hc ha hnone hread => ?_⟩
  obtain ⟨b, hb, hfirst, hresumed⟩ := h.conn conn hc
  obtain rfl := Option.some.inj (ha.symm.trans hb)
  have hall := (h.sys.streams _ a ha).returned_all hnone
  cases hres : conn.resumed with
  | false =>
      obtain ⟨hoffset, -, hrecv⟩ := hfirst hres
      rw [hrecv, hread, List.take_length, hall, hoffset]
      rfl
  | true =>
      obtain ⟨hzero, f, hf, hle⟩ := hresumed hres
      have hlt := (framesFrom_bounds (hpre.subset hf)).2
      have hlen := congrArg List.length hall
      rw [← hread, hzero, List.length_map, List.length_drop] at hlen
      omega

/-- The offset of a resumed connection is not past the last event received. -/
theorem resumeOffset_le {f : LogEventFrame} {fromOffset : Nat} (h : fromOffset ≤ f.seq) :
    resumeOffset (some (eventId f)) fromOffset ≤ f.seq := by
  rw [resumeOffset, eventId, Option.bind_some, parseU64_toString]
  split
  · exact Nat.le_refl _
  · exact h

theorem server {l : AttachLabel ι} {sys : AttachState σ} (h : SseInv s) (he : ExactlyOnce s)
    (hs : (attachSystem task).step s.sys l = some sys) :
    ExactlyOnce { s with sys := sys } ∧ SseInv { s with sys := sys } := by
  have hinv : SseInv { s with sys := sys } := by
    refine ⟨h.sys.step hs, h.lastId, fun conn hc => ?_⟩
    obtain ⟨a, ha, hfirst, hresumed⟩ := h.conn conn hc
    obtain ⟨a', ha', hoffset, hmore⟩ := returned_after hs ha
    refine ⟨a', ha', fun hres => ?_, fun hres => ?_⟩
    · obtain ⟨hfrom, hread, hrecv⟩ := hfirst hres
      refine ⟨hoffset.trans hfrom, hread.trans hmore.length_le, ?_⟩
      obtain ⟨more, hmore⟩ := hmore
      rw [← hmore, List.take_append_of_le_length hread]
      exact hrecv
    · rw [hoffset]
      exact hresumed hres
  obtain ⟨hid, hgrows⟩ := h.sys.step_grows hs
  exact ⟨hinv.complete (he.inOrder.trans (framesFrom_mono hid hgrows _)), hinv⟩

theorem connect {sys : AttachState σ} (h : SseInv s) (he : ExactlyOnce s)
    (hs : (attachSystem task).step s.sys
      (.attach s.nextStream (resumeOffset s.lastEventId s.fromOffset)) = some sys) :
    let conn : SseConn :=
      { stream := s.nextStream, resumed := s.lastEventId.isSome, read := 0 }
    let s' : SseState σ :=
      { s with sys := sys, nextStream := s.nextStream + 1, conn := some conn }
    ExactlyOnce s' ∧ SseInv s' := by
  intro conn s'
  have hsys := h.sys.step hs
  simp only [attachSystem] at hs
  split at hs
  · obtain rfl := Option.some.inj hs
    have hinv : SseInv s' := by
      refine ⟨hsys, h.lastId, fun c hc => ?_⟩
      obtain rfl := Option.some.inj hc
      refine ⟨_, AttachState.setStream_self .., fun hres => ?_, fun hres => ⟨rfl, ?_⟩⟩
      · have hid : s.lastEventId = none := by simpa [conn] using hres
        have hrecv : s.received = [] := by
          have := h.lastId
          rw [hid] at this
          simpa using this.symm
        exact ⟨by rw [hid]; rfl, Nat.zero_le _, hrecv⟩
      · obtain ⟨id, hid⟩ := Option.isSome_iff_exists.mp hres
        obtain ⟨f, hf, rfl⟩ := Option.map_eq_some_iff.mp (h.lastId.symm.trans hid)
        have hmem := List.mem_of_getLast? hf
        refine ⟨f, hmem, ?_⟩
        rw [hid]
        exact resumeOffset_le (framesFrom_bounds (he.inOrder.subset hmem)).1
    exact ⟨hinv.complete he.inOrder, hinv⟩
  · cases hs

/-- A read on the connection opened without a `Last-Event-ID` takes the next
event. -/
theorem read {conn : SseConn} {a : Attached} {frame : LogEventFrame} (h : SseInv s)
    (hconn : s.conn = some conn) (ha : s.sys.streams conn.stream = some a)
    (hres : conn.resumed = false) (hframe : a.returned[conn.read]? = some frame) :
    let s' : SseState σ :=
      { s with conn := some { conn with read := conn.read + 1 },
               lastEventId := some (eventId frame), received := s.received ++ [frame] }
    ExactlyOnce s' ∧ SseInv s' := by
  intro s'
  obtain ⟨b, hb, hfirst, -⟩ := h.conn conn hconn
  obtain rfl := Option.some.inj (ha.symm.trans hb)
  obtain ⟨hoffset, -, hrecv⟩ := hfirst hres
  obtain ⟨hlt, hget⟩ := List.getElem?_eq_some_iff.mp hframe
  have htake : s.received ++ [frame] = a.returned.take (conn.read + 1) := by
    rw [hrecv, List.take_add_one, hframe]
    rfl
  have hinv : SseInv s' := by
    refine ⟨h.sys, ?_, fun c hc => ?_⟩
    · simp [s']
    · obtain rfl := Option.some.inj hc
      refine ⟨a, ha, fun _ => ⟨hoffset, hlt, htake⟩, fun hres' => ?_⟩
      rw [show _ = false from hres] at hres'
      cases hres'
  refine ⟨hinv.complete ?_, hinv⟩
  have hinitial := (h.sys.streams _ a ha).returned_initial
  rw [hoffset] at hinitial
  rw [show s'.received = _ from htake]
  exact (List.take_prefix _ _).trans hinitial

/-- A read on a resumed connection repeats an event. -/
theorem read_resumed {conn : SseConn} {a : Attached} {frame : LogEventFrame} (h : SseInv s)
    (hconn : s.conn = some conn) (ha : s.sys.streams conn.stream = some a)
    (hres : conn.resumed = true) (hframe : a.returned[conn.read]? = some frame) :
    ¬ s.received ++ [frame] <+: framesFrom s.sys.job s.fromOffset := by
  intro hinitial
  obtain ⟨b, hb, -, hresumed⟩ := h.conn conn hconn
  obtain rfl := Option.some.inj (ha.symm.trans hb)
  obtain ⟨hzero, f, hf, hle⟩ := hresumed hres
  have hseq : frame.seq = a.offset := by
    obtain ⟨hlt, rfl⟩ := List.getElem?_eq_some_iff.mp hframe
    have hget := congrArg (·[conn.read]?) (h.sys.streams _ a ha).returned_seqs
    simp only [List.getElem?_map, List.getElem?_eq_getElem hlt, Option.map_some] at hget
    rw [List.getElem?_range' hlt] at hget
    have hval := Option.some.inj hget
    omega
  have hincreasing := (framesFrom_increasing s.sys.job s.fromOffset).sublist hinitial.sublist
  have hlt := (List.pairwise_append.mp hincreasing).2.2 f hf frame (List.mem_singleton_self _)
  omega

end SseInv

/-- Over every run of the job, its streams and the client: the client has
received each event exactly once in every state if and only if it reads
events only from connections opened without a `Last-Event-ID`. -/
theorem sse_exactly_once_iff {σ ι : Type} {task : Task σ ι} {s : SseState σ}
    (h : (sseSystem task).init s) (ls : List (SseLabel ι)) :
    (sseSystem task).Always ExactlyOnce s ls ↔ (sseSystem task).Throughout Unresumed s ls := by
  obtain ⟨hinv, honce⟩ := SseInv.init h
  refine System.always_iff (J := SseInv) ?_ ?_ honce hinv ls
  · intro s l s' hinv honce hs honce'
    cases l with
    | read =>
        obtain ⟨conn, a, frame, hconn, ha, hframe, rfl⟩ := sse_read_eq_some hs
        intro hres
        rw [hconn, Option.map_some, Option.some.injEq] at hres
        exact hinv.read_resumed hconn ha hres hframe honce'.inOrder
    | server l => exact trivial
    | connect => exact trivial
    | disconnect => exact trivial
  · intro s l s' hinv honce hs hguard
    cases l with
    | server l =>
        simp only [sseSystem] at hs
        split at hs
        · cases hs
        · obtain ⟨sys, hsys, rfl⟩ := Option.map_eq_some_iff.mp hs
          exact hinv.server honce hsys
    | connect =>
        simp only [sseSystem] at hs
        split at hs
        · cases hs
        · obtain ⟨sys, hsys, rfl⟩ := Option.map_eq_some_iff.mp hs
          exact hinv.connect honce hsys
    | read =>
        obtain ⟨conn, a, frame, hconn, ha, hframe, rfl⟩ := sse_read_eq_some hs
        have hres : conn.resumed = false := by
          have hnot : s.conn.map SseConn.resumed ≠ some true := hguard
          rw [hconn] at hnot
          simpa using hnot
        exact hinv.read hconn ha hres hframe
    | disconnect =>
        obtain ⟨-, rfl⟩ := guard_eq_some.mp hs
        refine ⟨⟨honce.inOrder, fun conn a hc => ?_⟩,
          ⟨hinv.sys, hinv.lastId, fun conn hc => ?_⟩⟩
        · cases hc
        · cases hc

/-- A client that has connected to nothing yet, and a job that has just been
launched. -/
def SseState.start : SseState DrainState where
  sys := .drainerStart
  nextStream := 0
  conn := none
  fromOffset := 0
  lastEventId := none
  received := []

theorem SseState.start_init : (sseSystem drainer).init start :=
  ⟨AttachState.drainerStart_init, rfl, rfl, rfl⟩

/-- The drainer reads one chunk, a stream delivers it, and the client reads it
and disconnects. -/
def sseFirstRead : List (SseLabel DrainInput) :=
  [.connect, .server (.task .cancelPending),
    .server (.task (.read .stdout (.data ⟨[104, 105], by decide⟩ .unixEpoch))),
    .server (.write .unixEpoch), .server (.write .unixEpoch), .server (.write .unixEpoch),
    .server (.stream 0 .call), .server (.stream 0 .enable), .server (.stream 0 .read),
    .server (.stream 0 .pop), .read, .disconnect]

/-- One connection, read and dropped. -/
theorem sse_exactly_once_first : (sseSystem drainer).Always ExactlyOnce .start sseFirstRead := by
  refine (sse_exactly_once_iff SseState.start_init sseFirstRead).mpr ?_
  have hrun : ((sseSystem drainer).runVia Unresumed .start sseFirstRead).isSome = true := by
    decide +kernel
  obtain ⟨s, hs⟩ := Option.isSome_iff_exists.mp hrun
  exact System.throughout_of_runVia hs

/-- The client reconnects with the id of the only event and reads on: it
receives that event a second time. -/
theorem sse_resume_repeats :
    ¬ (sseSystem drainer).Always ExactlyOnce .start
      (sseFirstRead ++ [.connect, .server (.stream 1 .call), .server (.stream 1 .enable),
        .server (.stream 1 .read), .server (.stream 1 .pop), .read]) := by
  intro h
  have hrun : ((sseSystem drainer).run .start
      (sseFirstRead ++ [.connect, .server (.stream 1 .call), .server (.stream 1 .enable),
        .server (.stream 1 .read), .server (.stream 1 .pop), .read])).map
      (fun s => (s.received.length, s.sys.job.events.length)) = some (2, 1) := by
    decide +kernel
  obtain ⟨s, hs, hlens⟩ := Option.map_eq_some_iff.mp hrun
  have hle := (h _ s (List.prefix_refl _) hs).inOrder.length_le
  rw [framesFrom, List.length_map, List.length_drop] at hle
  obtain ⟨hreceived, hevents⟩ := Prod.mk.inj hlens
  omega

end Axp
