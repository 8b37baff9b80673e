import Axp.Cancel

/-!
# What becomes of a child's output

The drainer alone with its job, under any inputs: reads of any chunks from
either pipe in any order, the cancellation, the end of the process. Everything
that is claimed about its output is read off the inputs of the run, which are
what the pipes, the channel and the process have answered.

`DrainInv` says how the log and the flags follow from them. The log holds the
chunks in the order they were read, up to the one that did not fit; after that
one nothing is read any more. So whether the log overflows is a question of
the total alone, and a cancellation changes no more than the final status.
-/

namespace Axp

open Lts

/-! ## The run -/

/-- A job and its drainer. -/
structure DrainRun where
  job : Job
  drain : DrainState
  ended : Bool

/-- An input of the drainer, and the time of the `finish_job` it may lead to. -/
structure DrainLabel where
  input : DrainInput
  now : SystemTime

/-- A move of the drainer with its call into the job. -/
def DrainRun.step (s : DrainRun) (l : DrainLabel) : Option DrainRun :=
  if s.ended = false then
    (drainer.act s.drain l.input).map fun
      | .silent d => { s with drain := d }
      | .pushLog event resume =>
          let (r, job) := s.job.pushLog event
          { s with job := job, drain := resume r }
      | .finish status => { s with job := s.job.finish status.val l.now, ended := true }
  else none

/-- A launched job whose log has the byte cap `cap`. -/
def drainSystem (cap : Usize) : System DrainRun DrainLabel where
  init s := s.job.replayLog = .withCap cap ∧ s.job.status = .running ∧ s.drain = .start
    ∧ s.ended = false
  step := DrainRun.step

/-! ## What was read and what was logged -/

/-- The chunks the reads have returned, each with its pipe. -/
def chunksRead (ls : List DrainLabel) : List (LogStream × Bytes) :=
  ls.filterMap fun l =>
    match l.input with
    | .read stream (.data chunk _) => some (stream, chunk)
    | _ => none

/-- The chunks in the log. -/
def Job.chunks (job : Job) : List (LogStream × Bytes) :=
  job.events.map fun e => (e.stream, e.data)

/-- The bytes of one stream among chunks. -/
def streamBytes (stream : LogStream) (chunks : List (LogStream × Bytes)) : List UInt8 :=
  (chunks.filter (·.1 = stream)).flatMap (·.2.toList)

def totalBytes (chunks : List (LogStream × Bytes)) : Nat := (chunks.map (·.2.len)).sum

/-- The cancellation arm has been taken. -/
def CancelReceived (ls : List DrainLabel) : Prop := ∃ l ∈ ls, l.input = .cancelReady

/-- The status an exit status stands for. -/
def exitStatus : Except ErrorText (Option Int) → JobStatus
  | .ok (some code) => .exited code
  | .ok none => .killed
  | .error reason => .failed reason

/-- Without an overflow or a cancellation the exit decides. -/
theorem DrainState.finalStatus_exit {d : DrainState} (hover : d.overflowed = false)
    (hcancelled : d.cancelled = false) (exit : Except ErrorText (Option Int)) :
    (d.finalStatus exit).val = exitStatus exit := by
  unfold finalStatus
  rw [hover, hcancelled, if_neg Bool.false_ne_true, if_neg Bool.false_ne_true]
  cases exit with
  | error reason => rfl
  | ok code =>
      cases code with
      | none => rfl
      | some code => rfl

theorem chunksRead_concat (ls : List DrainLabel) (l : DrainLabel) :
    chunksRead (ls ++ [l]) = chunksRead ls ++ chunksRead [l] := List.filterMap_append

@[simp] theorem totalBytes_concat (chunks : List (LogStream × Bytes)) (stream : LogStream)
    (chunk : Bytes) : totalBytes (chunks ++ [(stream, chunk)]) = totalBytes chunks + chunk.len := by
  simp [totalBytes]

theorem Job.totalBytes_chunks (job : Job) : totalBytes job.chunks = job.replayLog.byteTotal := by
  rw [job.replayLog.total_eq, totalBytes, Job.chunks, List.map_map]
  rfl

theorem cancelReceived_concat {ls : List DrainLabel} {l : DrainLabel} :
    CancelReceived (ls ++ [l]) ↔ CancelReceived ls ∨ l.input = .cancelReady := by
  simp [CancelReceived, or_and_right, exists_or]

/-- A push appends its chunk, or finds that it does not fit. -/
theorem Job.pushLog_chunks (job : Job) (e : AppendLogEvent) :
    ((∃ seq, (job.pushLog e).1 = .ok seq)
        ∧ (job.pushLog e).2.chunks = job.chunks ++ [(e.stream, e.data)]
        ∧ (job.pushLog e).2.replayLog.byteCap = job.replayLog.byteCap)
      ∨ ((∃ err, (job.pushLog e).1 = .error err) ∧ (job.pushLog e).2 = job
        ∧ job.replayLog.byteCap.toNat < totalBytes job.chunks + e.data.len) := by
  rw [Job.totalBytes_chunks]
  rcases Nat.lt_or_ge job.replayLog.byteCap.toNat (job.replayLog.byteTotal + e.data.len) with h | h
  · have happend := InMemoryJobReplayLog.append_of_lt h
    refine Or.inr ⟨⟨_, congrArg Prod.fst happend⟩, ?_, h⟩
    simp only [Job.pushLog, happend]
  · obtain ⟨hseq, hevents, hcap⟩ := InMemoryJobReplayLog.append_of_le h
    refine Or.inl ⟨⟨_, hseq⟩, ?_, hcap⟩
    rw [Job.chunks, Job.events, Job.pushLog, hevents, List.map_append]
    rfl

/-! ## The invariant -/

/-- The log holds all that was read, or all but the last chunk, which did not
fit. -/
inductive Logged (cap : Usize) (job : Job) (d : DrainState) (ls : List DrainLabel) : Prop
  | whole : d.overflowed = false → job.chunks = chunksRead ls → Logged cap job d ls
  | overflowed (last : LogStream × Bytes) : d.overflowed = true → d.pc = .waiting →
      chunksRead ls = job.chunks ++ [last] → cap.toNat < totalBytes (chunksRead ls) →
      Logged cap job d ls

structure DrainInv (cap : Usize) (ls : List DrainLabel) (s : DrainRun) : Prop where
  byteCap : s.job.replayLog.byteCap = cap
  logged : Logged cap s.job s.drain ls
  received : s.drain.cancelled = true ↔ CancelReceived ls
  /-- In the loop a pipe is still open. -/
  looping : s.drain.pc ≠ .waiting → (s.drain.outDone && s.drain.errDone) = false
  ended : s.ended = true → ∃ l ∈ ls, ∃ exit, l.input = .reaped exit
    ∧ s.job.status = (s.drain.finalStatus exit).val
  running : s.ended = false → s.job.status = .running

theorem DrainState.turn_looping (d : DrainState) :
    d.turn.pc ≠ .waiting → (d.turn.outDone && d.turn.errDone) = false := by
  unfold turn
  split
  · exact fun h => absurd rfl h
  · next h => exact fun _ => Bool.eq_false_iff.mpr h

namespace DrainInv

variable {cap : Usize} {ls : List DrainLabel} {s s' : DrainRun} {l : DrainLabel}

theorem init (h : (drainSystem cap).init s) : DrainInv cap [] s := by
  obtain ⟨hlog, hstatus, hdrain, hended⟩ := h
  refine ⟨by rw [hlog]; rfl, .whole (by rw [hdrain]; rfl) ?_, ?_, ?_, fun he => ?_,
    fun _ => hstatus⟩
  · rw [Job.chunks, Job.events, hlog]
    rfl
  · rw [hdrain]
    exact iff_of_false Bool.false_ne_true (by simp [CancelReceived])
  · rw [hdrain]
    exact fun _ => rfl
  · rw [hended] at he
    cases he

/-- The log is still whole in the loop. -/
theorem whole (h : DrainInv cap ls s) (hpc : s.drain.pc ≠ .waiting) :
    s.drain.overflowed = false ∧ s.job.chunks = chunksRead ls := by
  cases h.logged with
  | whole hover hchunks => exact ⟨hover, hchunks⟩
  | overflowed last _ hwait => exact absurd hwait hpc

/-- A move that reads nothing and ends nothing. -/
theorem quiet (h : DrainInv cap ls s) (hended : s.ended = false) {d : DrainState}
    (hpc : s.drain.pc ≠ .waiting) (hread : chunksRead [l] = [])
    (hover : d.overflowed = s.drain.overflowed)
    (hcancel : d.cancelled = true ↔ s.drain.cancelled = true ∨ l.input = .cancelReady)
    (hloop : d.pc ≠ .waiting → (d.outDone && d.errDone) = false) :
    DrainInv cap (ls ++ [l]) { s with drain := d } := by
  obtain ⟨hwhole, hchunks⟩ := h.whole hpc
  refine ⟨h.byteCap, .whole (hover.trans hwhole) ?_, ?_, hloop, fun he => ?_, h.running⟩
  · rw [chunksRead_concat, hread, List.append_nil]
    exact hchunks
  · rw [cancelReceived_concat, ← h.received]
    exact hcancel
  · exact absurd (hended.symm.trans he) Bool.false_ne_true

theorem step (h : DrainInv cap ls s) (hs : s.step l = some s') : DrainInv cap (ls ++ [l]) s' := by
  unfold DrainRun.step at hs
  split at hs
  · next hended =>
      obtain ⟨act, hact, rfl⟩ := Option.map_eq_some_iff.mp hs
      have hact := drainer_cases hact
      obtain ⟨input, now⟩ := l
      cases hact with
      | cancel hpc hc =>
          refine h.quiet hended (by rw [hpc]; exact DrainPc.noConfusion) rfl ?_ ?_
            (DrainState.turn_looping _)
          · simp [DrainState.onCancel]
          · simp [DrainState.onCancel]
      | poll hpc =>
          have hloop : s.drain.pc ≠ .waiting := by
            rw [hpc]
            exact DrainPc.noConfusion
          exact h.quiet hended hloop rfl rfl (by simp) fun _ => h.looping hloop
      | suspend hpc =>
          have hloop : s.drain.pc ≠ .waiting := by
            rw [hpc]
            exact DrainPc.noConfusion
          exact h.quiet hended hloop rfl rfl (by simp) fun _ => h.looping hloop
      | endOfPipe stream outcome hpc hout =>
          refine h.quiet hended (by rw [hpc]; exact DrainPc.noConfusion) ?_ (by simp) (by simp)
            (DrainState.turn_looping _)
          rcases hout with rfl | rfl <;> rfl
      | data stream chunk now' hpc hdone =>
          obtain ⟨hover, hchunks⟩ := h.whole (by rw [hpc]; exact DrainPc.noConfusion)
          have hread : chunksRead (ls ++ [⟨.read stream (.data chunk now'), now⟩])
              = s.job.chunks ++ [(stream, chunk)] := by
            rw [chunksRead_concat, ← hchunks]
            rfl
          have hcancel : CancelReceived (ls ++ [⟨.read stream (.data chunk now'), now⟩])
              ↔ s.drain.cancelled = true := by
            rw [cancelReceived_concat, ← h.received]
            simp
          have hnot : ∀ {P : Prop}, s.ended = true → P := fun he =>
            absurd (hended.symm.trans he) Bool.false_ne_true
          rcases s.job.pushLog_chunks { stream := stream, data := chunk, timestamp := now' } with
            ⟨⟨seq, hok⟩, hpushed, hcap⟩ | ⟨⟨err, herr⟩, hsame, hfull⟩
          · refine ⟨hcap.trans h.byteCap, .whole ?_ (hpushed.trans hread.symm), ?_, ?_, hnot,
              fun _ => h.running hended⟩
            · simpa [hok, DrainState.onPushed] using hover
            · rw [hcancel]
              simp [hok, DrainState.onPushed]
            · dsimp only
              rw [hok]
              exact DrainState.turn_looping s.drain
          · refine ⟨?_, .overflowed (stream, chunk) ?_ ?_ ?_ ?_, ?_, ?_, hnot,
              fun _ => h.running hended⟩
            · dsimp only
              rw [hsame]
              exact h.byteCap
            · simp [herr, DrainState.onPushed]
            · simp [herr, DrainState.onPushed, DrainState.turn]
            · dsimp only
              rw [hsame, hread]
            · rw [hread, totalBytes_concat, ← h.byteCap]
              exact hfull
            · rw [hcancel]
              simp [herr, DrainState.onPushed]
            · simp [herr, DrainState.onPushed, DrainState.turn]
      | reaped exit hpc =>
          have hread : chunksRead (ls ++ [⟨.reaped exit, now⟩]) = chunksRead ls := by
            rw [chunksRead_concat]
            exact List.append_nil _
          refine ⟨h.byteCap, ?_, ?_, h.looping, fun _ => ?_, fun he => by cases he⟩
          · cases h.logged with
            | whole hover hchunks => exact .whole hover (hchunks.trans hread.symm)
            | overflowed last hover hwait hchunks hfull =>
                exact .overflowed last hover hwait (hread.trans hchunks) (hread.symm ▸ hfull)
          · rw [cancelReceived_concat, ← h.received]
            simp
          · exact ⟨_, List.mem_append_right _ (List.mem_singleton_self _), exit, rfl, rfl⟩
  · cases hs

theorem run {s₀ : DrainRun} (h₀ : (drainSystem cap).init s₀)
    (hrun : (drainSystem cap).run s₀ ls = some s) : DrainInv cap ls s :=
  System.run_history (init h₀) (fun _ _ _ _ hinv hs => hinv.step hs) hrun

end DrainInv

/-! ## The outcome -/

/-- What a run of the drainer over the inputs `ls` has come to. -/
structure DrainOutcome (cap : Usize) (ls : List DrainLabel) (s : DrainRun) : Prop where
  /-- What fits is logged, each stream in its order. -/
  kept : totalBytes (chunksRead ls) ≤ cap.toNat → s.job.chunks = chunksRead ls
    ∧ ∀ stream, streamBytes stream s.job.chunks = streamBytes stream (chunksRead ls)
  /-- An append overflows exactly when the total does. -/
  overflowed_iff : s.drain.overflowed = true ↔ cap.toNat < totalBytes (chunksRead ls)
  /-- Then the log ends before the chunk that overflowed it. -/
  cut : cap.toNat < totalBytes (chunksRead ls) →
    ∃ last, chunksRead ls = s.job.chunks ++ [last] ∧ totalBytes s.job.chunks ≤ cap.toNat
  status : s.ended = true → ∃ l ∈ ls, ∃ exit, l.input = .reaped exit
    ∧ (cap.toNat < totalBytes (chunksRead ls) → s.job.status = .failed "log buffer overflow")
    ∧ (totalBytes (chunksRead ls) ≤ cap.toNat → CancelReceived ls → s.job.status = .killed)
    ∧ (totalBytes (chunksRead ls) ≤ cap.toNat → ¬CancelReceived ls →
        s.job.status = exitStatus exit)
  /-- At the `select!` a pipe's arm is enabled. -/
  enabled : s.drain.pc ≠ .waiting → ∃ stream, s.drain.done stream = false

/-- Every run of `run_to_completion`, whatever its pipes, its cancel channel
and its process answer, logs the output it reads up to the cap. -/
theorem drain_keeps_output {cap : Usize} {s₀ s : DrainRun} {ls : List DrainLabel}
    (h₀ : (drainSystem cap).init s₀) (hrun : (drainSystem cap).run s₀ ls = some s) :
    DrainOutcome cap ls s := by
  have hinv := DrainInv.run h₀ hrun
  have hfits : totalBytes s.job.chunks ≤ cap.toNat := by
    rw [Job.totalBytes_chunks, ← hinv.byteCap]
    exact s.job.replayLog.total_le
  have hover : s.drain.overflowed = true ↔ cap.toNat < totalBytes (chunksRead ls) := by
    cases hinv.logged with
    | whole hover hchunks =>
        rw [hover, ← hchunks]
        exact iff_of_false Bool.false_ne_true (Nat.not_lt.mpr hfits)
    | overflowed last hover _ _ hfull => exact iff_of_true hover hfull
  have hnot : totalBytes (chunksRead ls) ≤ cap.toNat → s.drain.overflowed = false := fun hle =>
    Bool.eq_false_iff.mpr fun htrue => Nat.not_lt.mpr hle (hover.mp htrue)
  refine ⟨fun hle => ?_, hover, fun hlt => ?_, fun hended => ?_, fun hpc => ?_⟩
  · cases hinv.logged with
    | whole _ hchunks => exact ⟨hchunks, fun stream => by rw [hchunks]⟩
    | overflowed last htrue => exact absurd (htrue.symm.trans (hnot hle)) Bool.noConfusion
  · cases hinv.logged with
    | whole hfalse => exact absurd ((hover.mpr hlt).symm.trans hfalse) Bool.noConfusion
    | overflowed last _ _ hchunks => exact ⟨last, hchunks, hfits⟩
  · obtain ⟨l, hl, exit, hinput, hstatus⟩ := hinv.ended hended
    refine ⟨l, hl, exit, hinput, fun hlt => ?_, fun hle hcancel => ?_, fun hle hcancel => ?_⟩
    · rw [hstatus]
      exact DrainState.finalStatus_overflowed (hover.mpr hlt) exit
    · rw [hstatus]
      exact DrainState.finalStatus_cancelled (hnot hle) (hinv.received.mpr hcancel) exit
    · have hquiet : s.drain.cancelled = false :=
        Bool.eq_false_iff.mpr fun htrue => hcancel (hinv.received.mp htrue)
      rw [hstatus]
      exact DrainState.finalStatus_exit (hnot hle) hquiet exit
  · have hopen := hinv.looping hpc
    cases hout : s.drain.outDone with
    | false => exact ⟨.stdout, hout⟩
    | true =>
        rw [hout, Bool.true_and] at hopen
        exact ⟨.stderr, hopen⟩

/-- A launched job under a cap of four bytes. -/
def smallRun : DrainRun where
  job := Job.launched ⟨"j_1"⟩ ⟨"s_1"⟩ (.command "printf abc; printf de >&2") ⟨utf8 "/proj"⟩ 4
    .unixEpoch
  drain := .start
  ended := false

/-- Three bytes, a cancellation, and two bytes more. -/
def smallInputs : List DrainLabel :=
  [.cancelPending, .read .stdout (.data (textBytes "abc") .unixEpoch), .cancelReady,
    .cancelPending, .read .stderr (.data (textBytes "de") .unixEpoch), .reaped (.ok none)].map
      (⟨·, .unixEpoch⟩)

/-- The second chunk does not fit: the log keeps the first, and the overflow
outranks the cancellation. -/
theorem drain_keeps_output_overflowing : ∃ s, (drainSystem 4).run smallRun smallInputs = some s
    ∧ s.job.chunks = [(.stdout, textBytes "abc")]
    ∧ s.job.status = .failed "log buffer overflow" := by
  have hended : (((drainSystem 4).run smallRun smallInputs).map (·.ended)) = some true := by
    decide +kernel
  obtain ⟨s, hs, hended⟩ := Option.map_eq_some_iff.mp hended
  have hout := drain_keeps_output ⟨rfl, rfl, rfl, rfl⟩ hs
  have hfull : (4 : Usize).toNat < totalBytes (chunksRead smallInputs) := by decide +kernel
  obtain ⟨last, hlast, -⟩ := hout.cut hfull
  obtain ⟨-, -, -, -, hstatus, -⟩ := hout.status hended
  have hread : chunksRead smallInputs
      = [(.stdout, textBytes "abc")] ++ [(.stderr, textBytes "de")] := by decide +kernel
  exact ⟨s, hs, List.append_inj_left' (hlast.symm.trans hread) rfl, hstatus hfull⟩

end Axp
