import Mathlib.Data.List.DropRight
import Mathlib.Data.List.Infix
import Axp.Potential
import Axp.Wire

/-!
# The runtime demo

`axp demo runtime` drives a server through a session of its own: it looks at
the catalog, starts a job, waits for it, and reads its log. Its steps here are
what the calls of the client return, with the clock of the wait; what the
server makes of the calls is left open.

Whatever comes back, the session is closed by the last call, and a job that
was not seen to be over has been cancelled before (`demo_cleans_up`). The wait
ends as well, on a clock that the sleeps move forward (`demo_ends`).

A run begins with its first call: the client and the temporary directory are
there, and a demo that cannot have them ends before it. Printing may fail but
not panic, as `println!` does on a closed standard output.
-/

namespace Axp

open Lts

namespace Demo

/-! ## The code -/

def runtimeMarker : String := "axp-runtime-smoke"

/-- `RuntimeArgs`, as far as the wait needs them, in nanoseconds, with the path
of the temporary directory and `String::from_utf8_lossy`. -/
structure RuntimeArgs where
  workspace : String
  pollTimeout : Nat
  pollInterval : Nat
  lossy : List UInt8 → String

/-- A call of the client. -/
inductive Call where
  | openSession (req : SessionOpenRequest)
  | index (req : IndexRequest)
  | describe (req : DescribeRequest)
  | startJob (req : JobStartRequest)
  | jobStatus (req : JobStatusRequest)
  | cancelJob (req : JobCancelRequest)
  | attachJob (req : JobAttachRequest)
  | closeSession (req : SessionCloseRequest)

variable {ε : Type}

/-- What a run of the demo fails with: an error of the client, or one of its
own. -/
inductive DemoError (ε : Type) where
  | client (e : ε)
  | message (text : ErrorText)

/-- `RuntimeMeasurement`, without the times. -/
structure RuntimeMeasurement where
  catalogCount : Nat
  describedCapability : String
  describedSignature : String
  terminalJobStatus : String
  statusPollCount : Nat
  logReplaySuccess : Bool
  attachBytes : Nat
  logMarker : String
  logText : String
deriving DecidableEq, Repr

/-- What is known of the catalog. -/
structure Described where
  catalogCount : Nat
  name : String
  signature : String

/-- Where the demo is: at a call of the client, or at printing. -/
inductive Pc (ε : Type) where
  | opening
  | indexing (session : SessionOpenResponse)
  | describing (session : SessionOpenResponse) (catalogCount : Nat) (name : String)
  | starting (session : SessionOpenResponse) (described : Described)
  /-- `awake` is when the sleep before this poll is over. -/
  | polling (session : SessionOpenResponse) (described : Described) (jobId : JobId)
      (pollCount awake : Nat)
  | cancelling (session : SessionOpenResponse) (jobId : JobId) (error : DemoError ε)
  | attaching (session : SessionOpenResponse) (described : Described) (jobId : JobId)
      (status : JobStatus) (pollCount : Nat)
  | printing (session : SessionOpenResponse) (measurement : RuntimeMeasurement)
  | closing (session : SessionOpenResponse) (error : Option (DemoError ε))
  | finished (result : Except (DemoError ε) Unit)

/-- What comes back, and for a poll when, since the wait began. -/
inductive Label (ε : Type) where
  | opened (result : Except ε SessionOpenResponse)
  | indexed (result : Except ε IndexResponse)
  | described (result : Except ε CapabilityDetail)
  | started (result : Except ε JobStartResponse)
  | polled (result : Except ε JobStatusResponse) (elapsed : Nat)
  | cancelled (result : Except ε JobCancelResponse)
  | attached (result : Except ε (List LogEventFrame))
  | printed (result : Except ErrorText Unit)
  | closed (result : Except ε SessionCloseResponse)

/-- The demo with the calls it has made. -/
structure State (ε : Type) where
  pc : Pc ε
  calls : List Call

def statusLabel : JobStatus → String
  | .pending => "pending"
  | .running => "running"
  | .exited code => "exited:" ++ toString code
  | .killed => "killed"
  | .failed reason => "failed:" ++ reason

/-- `is_success_status`. -/
def isSuccessStatus : JobStatus → Bool
  | .exited code => code = 0
  | _ => false

def openRequest (args : RuntimeArgs) : SessionOpenRequest where
  workspace := args.workspace
  sandboxTier := .devNone
  capabilities := [⟨"proc.spawn"⟩]

def startRequest (session : SessionOpenResponse) : JobStartRequest where
  sessionId := session.sessionId
  capToken := session.capToken
  payload := .command ("printf '" ++ runtimeMarker ++ "\\n'")
  cwd := none
  capabilities := []

/-- The call that the demo is at. -/
def Pc.call (args : RuntimeArgs) : Pc ε → Option Call
  | .opening => some (.openSession (openRequest args))
  | .indexing session => some (.index ⟨session.sessionId, session.capToken⟩)
  | .describing session _ name => some (.describe ⟨session.sessionId, session.capToken, name⟩)
  | .starting session _ => some (.startJob (startRequest session))
  | .polling session _ jobId _ _ =>
      some (.jobStatus ⟨session.sessionId, session.capToken, jobId⟩)
  | .cancelling session jobId _ => some (.cancelJob ⟨session.sessionId, session.capToken, jobId⟩)
  | .attaching session _ jobId _ _ =>
      some (.attachJob ⟨session.sessionId, session.capToken, jobId, 0⟩)
  | .closing session _ => some (.closeSession ⟨session.sessionId, session.capToken⟩)
  | .printing .. => none
  | .finished _ => none

/-- The end of the sleep before the next poll; none when the wait is over. -/
def nextPoll (args : RuntimeArgs) (elapsed : Nat) : Option Nat :=
  if args.pollTimeout < elapsed then none
  else
    let remaining := args.pollTimeout - elapsed
    if remaining = 0 then none else some (elapsed + min args.pollInterval remaining)

/-- `Iterator::min`. -/
def minName : List String → Option String
  | [] => none
  | name :: names => some (names.foldl (fun least n => if n < least then n else least) name)

/-- `str::trim_end`. -/
def trimEnd (s : String) : String := .ofList (s.toList.rdropWhile isWhitespace)

def logText (args : RuntimeArgs) (frames : List LogEventFrame) : String :=
  trimEnd (args.lossy (frames.flatMap (·.data)))

/-- `str::contains`. -/
def hasMarker (text : String) : Bool := runtimeMarker.toList <:+: text.toList

/-- A poll of `wait_terminal`, with what follows it. -/
def afterPoll (args : RuntimeArgs) (session : SessionOpenResponse) (described : Described)
    (jobId : JobId) (pollCount : Nat) (elapsed : Nat) : Except ε JobStatusResponse → Pc ε
  | .error e => .cancelling session jobId (.client e)
  | .ok resp =>
      let pollCount := pollCount + 1
      if resp.status.isTerminal then
        if isSuccessStatus resp.status then
          .attaching session described jobId resp.status pollCount
        else
          .closing session (some (.message ("job reached non-success terminal status: "
            ++ statusLabel resp.status)))
      else
        match nextPoll args elapsed with
        | some awake => .polling session described jobId pollCount awake
        | none =>
            .cancelling session jobId
              (.message "job did not reach a terminal state within timeout")

def afterAttach (args : RuntimeArgs) (session : SessionOpenResponse) (described : Described)
    (status : JobStatus) (pollCount : Nat) : Except ε (List LogEventFrame) → Pc ε
  | .error e => .closing session (some (.client e))
  | .ok frames =>
      let text := logText args frames
      if hasMarker text then
        .printing session
          { catalogCount := described.catalogCount
            describedCapability := described.name
            describedSignature := described.signature
            terminalJobStatus := statusLabel status
            statusPollCount := pollCount
            logReplaySuccess := true
            attachBytes := (frames.flatMap (·.data)).length
            logMarker := runtimeMarker
            logText := text }
      else .closing session (some (.message "attached log replay did not contain runtime marker"))

def afterClose : Option (DemoError ε) → Except ε SessionCloseResponse → Except (DemoError ε) Unit
  | some error, _ => .error error
  | none, .error e => .error (.client e)
  | none, .ok _ => .ok ()

/-- `runtime`. A sleep lasts at least as long as it was asked to. -/
def Pc.next (args : RuntimeArgs) : Pc ε → Label ε → Option (Pc ε)
  | .opening, .opened (.error e) => some (.finished (.error (.client e)))
  | .opening, .opened (.ok session) => some (.indexing session)
  | .indexing session, .indexed (.error e) => some (.closing session (some (.client e)))
  | .indexing session, .indexed (.ok index) =>
      match minName (index.entries.map (·.name)) with
      | some name => some (.describing session index.entries.length name)
      | none =>
          some (.closing session (some (.message "server returned an empty capability index")))
  | .describing session _ _, .described (.error e) => some (.closing session (some (.client e)))
  | .describing session catalogCount name, .described (.ok detail) =>
      some (.starting session ⟨catalogCount, name, detail.signature⟩)
  | .starting session _, .started (.error e) => some (.closing session (some (.client e)))
  | .starting session described, .started (.ok resp) =>
      some (.polling session described resp.jobId 0 0)
  | .polling session described jobId pollCount awake, .polled result elapsed =>
      if awake ≤ elapsed then
        some (afterPoll args session described jobId pollCount elapsed result)
      else none
  | .cancelling session _ error, .cancelled _ => some (.closing session (some error))
  | .attaching session described _ status pollCount, .attached result =>
      some (afterAttach args session described status pollCount result)
  | .printing session _, .printed (.error text) => some (.closing session (some (.message text)))
  | .printing session _, .printed (.ok ()) => some (.closing session none)
  | .closing _ error, .closed result => some (.finished (afterClose error result))
  | _, _ => none

def demoSystem (args : RuntimeArgs) : System (State ε) (Label ε) where
  init s := s = ⟨.opening, []⟩
  step s l := (s.pc.next args l).map fun pc => ⟨pc, s.calls ++ (s.pc.call args).toList⟩

/-! ## What a run has done -/

/-- The job that a label has brought. -/
def Label.startedJob : Label ε → Option JobId
  | .started (.ok resp) => some resp.jobId
  | _ => none

def started (ls : List (Label ε)) : List JobId := ls.filterMap Label.startedJob

/-- A poll has returned the status. -/
def Saw (ls : List (Label ε)) (status : JobStatus) : Prop :=
  ∃ resp elapsed, Label.polled (.ok resp) elapsed ∈ ls ∧ resp.status = status

/-- A call in the session, about no other jobs than these. -/
def Call.Inside (session : SessionOpenResponse) (jobs : List JobId) : Call → Prop
  | .openSession _ => False
  | .closeSession _ => False
  | .index req => req = ⟨session.sessionId, session.capToken⟩
  | .describe req => req.sessionId = session.sessionId ∧ req.capToken = session.capToken
  | .startJob req => req = startRequest session
  | .jobStatus req => ∃ j ∈ jobs, req = ⟨session.sessionId, session.capToken, j⟩
  | .cancelJob req => ∃ j ∈ jobs, req = ⟨session.sessionId, session.capToken, j⟩
  | .attachJob req => ∃ j ∈ jobs, req = ⟨session.sessionId, session.capToken, j, 0⟩

/-- The session has been opened, and everything since was inside it. -/
def Held (args : RuntimeArgs) (session : SessionOpenResponse) (ls : List (Label ε))
    (calls : List Call) : Prop :=
  ∃ rest inside, ls = .opened (.ok session) :: rest
    ∧ calls = .openSession (openRequest args) :: inside
    ∧ ∀ c ∈ inside, c.Inside session (started ls)

/-- A job that was started has been seen at its end, or cancelled. -/
def Settled (session : SessionOpenResponse) (ls : List (Label ε)) (calls : List Call) : Prop :=
  ∀ j ∈ started ls, (∃ status, Saw ls status ∧ status.isTerminal = true)
    ∨ .cancelJob ⟨session.sessionId, session.capToken, j⟩ ∈ calls

/-- The job has exited with 0, and its log had the marker. -/
def Succeeded (args : RuntimeArgs) (ls : List (Label ε)) : Prop :=
  Saw ls (.exited 0)
    ∧ ∃ frames, Label.attached (.ok frames) ∈ ls ∧ hasMarker (logText args frames) = true

/-- What a run that has ended has done: it was refused a session, or it has
had one, which it has closed by its last call. -/
inductive Done (args : RuntimeArgs) :
    List (Label ε) → List Call → Except (DemoError ε) Unit → Prop
  | refused (e : ε) :
      Done args [.opened (.error e)] [.openSession (openRequest args)] (.error (.client e))
  | closed {session : SessionOpenResponse} {ls : List (Label ε)} {inside : List Call}
      {answer : Except ε SessionCloseResponse} {result : Except (DemoError ε) Unit}
      (opened : ∃ rest, ls = .opened (.ok session) :: rest)
      (within : ∀ c ∈ inside, c.Inside session (started ls))
      (once : (started ls).length ≤ 1) (settled : Settled session ls inside)
      (success : result = .ok () → Succeeded args ls ∧ ∃ resp, answer = .ok resp) :
      Done args (ls ++ [.closed answer])
        (.openSession (openRequest args) :: inside
          ++ [.closeSession ⟨session.sessionId, session.capToken⟩]) result

variable {args : RuntimeArgs} {ls : List (Label ε)} {calls : List Call}
  {session : SessionOpenResponse} {l : Label ε} {c : Call}

theorem started_concat : started (ls ++ [l]) = started ls ++ l.startedJob.toList := by
  unfold started
  rw [List.filterMap_append]
  cases h : l.startedJob <;> simp [h]

theorem started_silent (h : l.startedJob = none) : started (ls ++ [l]) = started ls := by
  rw [started_concat, h, Option.toList_none, List.append_nil]

theorem Call.Inside.mono {jobs jobs' : List JobId} (h : c.Inside session jobs)
    (hsub : jobs ⊆ jobs') : c.Inside session jobs' := by
  cases c with
  | jobStatus req | cancelJob req | attachJob req =>
      obtain ⟨j, hj, rfl⟩ := h
      exact ⟨j, hsub hj, rfl⟩
  | _ => exact h

theorem Saw.mono {status : JobStatus} (h : Saw ls status) : Saw (ls ++ [l]) status := by
  obtain ⟨resp, elapsed, hmem, hstatus⟩ := h
  exact ⟨resp, elapsed, List.mem_append_left _ hmem, hstatus⟩

/-- One more call inside. -/
theorem Held.call (h : Held args session ls calls) (hc : c.Inside session (started ls))
    (l : Label ε) : Held args session (ls ++ [l]) (calls ++ [c]) := by
  obtain ⟨rest, inside, rfl, rfl, hinside⟩ := h
  have hsub : started (.opened (.ok session) :: rest)
      ⊆ started (.opened (.ok session) :: rest ++ [l]) := by
    rw [started_concat]
    exact List.subset_append_left ..
  refine ⟨rest ++ [l], inside ++ [c], rfl, rfl, fun c' hc' => ?_⟩
  rcases List.mem_append.mp hc' with hc' | hc'
  · exact (hinside c' hc').mono hsub
  · obtain rfl := List.mem_singleton.mp hc'
    exact hc.mono hsub

/-- A label alone. -/
theorem Held.silent (h : Held args session ls calls) (hl : l.startedJob = none) :
    Held args session (ls ++ [l]) calls := by
  obtain ⟨rest, inside, rfl, rfl, hinside⟩ := h
  refine ⟨rest ++ [l], inside, rfl, rfl, fun c hc => ?_⟩
  rw [started_silent hl]
  exact hinside c hc

theorem Settled.silent (h : Settled session ls calls) (hl : l.startedJob = none) :
    Settled session (ls ++ [l]) calls := by
  intro j hj
  rw [started_silent hl] at hj
  exact (h j hj).imp_left fun ⟨status, hsaw, hterm⟩ => ⟨status, hsaw.mono, hterm⟩

theorem Succeeded.mono (h : Succeeded args ls) : Succeeded args (ls ++ [l]) := by
  obtain ⟨hsaw, frames, hmem, hmarker⟩ := h
  exact ⟨hsaw.mono, frames, List.mem_append_left _ hmem, hmarker⟩

/-! ## The stages -/

/-- What has been done where the demo is. -/
def Stage (args : RuntimeArgs) (ls : List (Label ε)) (calls : List Call) : Pc ε → Prop
  | .opening => ls = [] ∧ calls = []
  | .indexing session | .describing session _ _ | .starting session _ =>
      Held args session ls calls ∧ started ls = []
  | .polling session _ jobId _ _ | .cancelling session jobId _ =>
      Held args session ls calls ∧ started ls = [jobId]
  | .attaching session _ jobId status _ =>
      Held args session ls calls ∧ started ls = [jobId] ∧ status = .exited 0 ∧ Saw ls status
  | .printing session _ =>
      Held args session ls calls ∧ (started ls).length ≤ 1 ∧ Settled session ls calls
        ∧ Succeeded args ls
  | .closing session error =>
      Held args session ls calls ∧ (started ls).length ≤ 1 ∧ Settled session ls calls
        ∧ (error = none → Succeeded args ls)
  | .finished result => Done args ls calls result

/-- Closing with an error before a job was started. -/
theorem Stage.abandon (h : Held args session ls calls) (hnone : started ls = [])
    (error : DemoError ε) : Stage args ls calls (.closing session (some error)) := by
  refine ⟨h, ?_, fun j hj => ?_, fun herr => by cases herr⟩
  · rw [hnone]
    exact Nat.zero_le 1
  · rw [hnone] at hj
    cases hj

/-- Closing with an error after a job's end was seen. -/
theorem Stage.giveUp {jobId : JobId} (h : Held args session ls calls)
    (hone : started ls = [jobId]) {status : JobStatus} (hsaw : Saw ls status)
    (hterm : status.isTerminal = true) (error : DemoError ε) :
    Stage args ls calls (.closing session (some error)) := by
  refine ⟨h, ?_, fun j hj => .inl ⟨status, hsaw, hterm⟩, fun herr => by cases herr⟩
  rw [hone]
  exact Nat.le_refl 1

theorem isSuccessStatus_iff {status : JobStatus} :
    isSuccessStatus status = true ↔ status = .exited 0 := by
  cases status <;> simp [isSuccessStatus]

/-- A poll keeps the job watched until its end has been seen. -/
theorem stage_afterPoll {described : Described} {jobId : JobId} {elapsed : Nat}
    {result : Except ε JobStatusResponse} (hheld : Held args session ls calls)
    (hone : started ls = [jobId]) (hmem : Label.polled result elapsed ∈ ls) (pollCount : Nat) :
    Stage args ls calls (afterPoll args session described jobId pollCount elapsed result) := by
  unfold afterPoll
  cases result with
  | error e => exact ⟨hheld, hone⟩
  | ok resp =>
      have hsaw : Saw ls resp.status := ⟨resp, elapsed, hmem, rfl⟩
      dsimp only
      split
      · next hterm =>
          split
          · next hsuccess => exact ⟨hheld, hone, isSuccessStatus_iff.mp hsuccess, hsaw⟩
          · exact .giveUp hheld hone hsaw hterm _
      · split
        · exact ⟨hheld, hone⟩
        · exact ⟨hheld, hone⟩

/-- What comes after the log was read. -/
theorem stage_afterAttach {described : Described} {jobId : JobId} {status : JobStatus}
    {result : Except ε (List LogEventFrame)} (hheld : Held args session ls calls)
    (hone : started ls = [jobId]) (hexited : status = .exited 0) (hsaw : Saw ls status)
    (hmem : Label.attached result ∈ ls) (pollCount : Nat) :
    Stage args ls calls (afterAttach args session described status pollCount result) := by
  have hterm : status.isTerminal = true := by
    rw [hexited]
    rfl
  unfold afterAttach
  cases result with
  | error e => exact .giveUp hheld hone hsaw hterm _
  | ok frames =>
      dsimp only
      split
      · next hmarker =>
          refine ⟨hheld, ?_, fun j hj => .inl ⟨status, hsaw, hterm⟩, hexited ▸ hsaw, frames, hmem,
            hmarker⟩
          rw [hone]
          exact Nat.le_refl 1
      · exact .giveUp hheld hone hsaw hterm _

/-- One step. -/
theorem stage_step {s s' : State ε} (h : Stage args ls s.calls s.pc)
    (hs : (demoSystem args).step s l = some s') : Stage args (ls ++ [l]) s'.calls s'.pc := by
  obtain ⟨pc, calls⟩ := s
  obtain ⟨pc', hnext, rfl⟩ := Option.map_eq_some_iff.mp hs
  dsimp only at h hnext ⊢
  cases pc with
  | opening =>
      obtain ⟨rfl, rfl⟩ := h
      cases l with
      | opened result =>
          cases result with
          | error e =>
              obtain rfl := Option.some.inj hnext
              exact .refused e
          | ok session =>
              obtain rfl := Option.some.inj hnext
              exact ⟨⟨[], [], rfl, rfl, fun c hc => absurd hc List.not_mem_nil⟩, rfl⟩
      | _ => cases hnext
  | indexing session =>
      cases l with
      | indexed result =>
          have hheld := h.1.call (c := .index ⟨session.sessionId, session.capToken⟩) rfl
            (.indexed result)
          have hnone := (started_silent (l := .indexed result) rfl).trans h.2
          cases result with
          | error e =>
              obtain rfl := Option.some.inj hnext
              exact .abandon hheld hnone _
          | ok index =>
              dsimp only [Pc.next] at hnext
              split at hnext
              · obtain rfl := Option.some.inj hnext
                exact ⟨hheld, hnone⟩
              · obtain rfl := Option.some.inj hnext
                exact .abandon hheld hnone _
      | _ => cases hnext
  | describing session catalogCount name =>
      cases l with
      | described result =>
          have hheld := h.1.call (c := .describe ⟨session.sessionId, session.capToken, name⟩)
            ⟨rfl, rfl⟩ (.described result)
          have hnone := (started_silent (l := .described result) rfl).trans h.2
          cases result with
          | error e =>
              obtain rfl := Option.some.inj hnext
              exact .abandon hheld hnone _
          | ok detail =>
              obtain rfl := Option.some.inj hnext
              exact ⟨hheld, hnone⟩
      | _ => cases hnext
  | starting session described =>
      cases l with
      | started result =>
          have hheld := h.1.call (c := .startJob (startRequest session)) rfl (.started result)
          cases result with
          | error e =>
              obtain rfl := Option.some.inj hnext
              exact .abandon hheld ((started_silent rfl).trans h.2) _
          | ok resp =>
              obtain rfl := Option.some.inj hnext
              refine ⟨hheld, ?_⟩
              rw [started_concat, h.2]
              rfl
      | _ => cases hnext
  | polling session described jobId pollCount awake =>
      cases l with
      | polled result elapsed =>
          obtain ⟨-, rfl⟩ := guard_eq_some.mp hnext
          have hheld := h.1.call (c := .jobStatus ⟨session.sessionId, session.capToken, jobId⟩)
            ⟨jobId, h.2 ▸ List.mem_singleton_self _, rfl⟩ (.polled result elapsed)
          exact stage_afterPoll hheld ((started_silent rfl).trans h.2)
            (List.mem_append_right _ (List.mem_singleton_self _)) _
      | _ => cases hnext
  | cancelling session jobId error =>
      cases l with
      | cancelled result =>
          obtain rfl := Option.some.inj hnext
          have hheld := h.1.call (c := .cancelJob ⟨session.sessionId, session.capToken, jobId⟩)
            ⟨jobId, h.2 ▸ List.mem_singleton_self _, rfl⟩ (.cancelled result)
          have hone := (started_silent (l := .cancelled result) rfl).trans h.2
          refine ⟨hheld, ?_, fun j hj => .inr ?_, fun herr => by cases herr⟩
          · rw [hone]
            exact Nat.le_refl 1
          · rw [hone] at hj
            obtain rfl := List.mem_singleton.mp hj
            exact List.mem_append_right _ (List.mem_singleton_self _)
      | _ => cases hnext
  | attaching session described jobId status pollCount =>
      cases l with
      | attached result =>
          obtain rfl := Option.some.inj hnext
          obtain ⟨hheld, hone, hexited, hsaw⟩ := h
          have hheld := hheld.call (c := .attachJob ⟨session.sessionId, session.capToken, jobId, 0⟩)
            ⟨jobId, hone ▸ List.mem_singleton_self _, rfl⟩ (.attached result)
          exact stage_afterAttach hheld ((started_silent rfl).trans hone) hexited hsaw.mono
            (List.mem_append_right _ (List.mem_singleton_self _)) _
      | _ => cases hnext
  | printing session measurement =>
      cases l with
      | printed result =>
          obtain ⟨hheld, hone, hsettled, hsuccess⟩ := h
          have hsilent : (Label.printed result : Label ε).startedJob = none := rfl
          rw [← started_silent hsilent] at hone
          rw [show (Pc.printing session measurement : Pc ε).call args = none from rfl,
            Option.toList_none, List.append_nil]
          cases result with
          | error text =>
              obtain rfl := Option.some.inj hnext
              exact ⟨hheld.silent hsilent, hone, hsettled.silent hsilent, fun herr => by cases herr⟩
          | ok u =>
              obtain rfl := Option.some.inj hnext
              exact ⟨hheld.silent hsilent, hone, hsettled.silent hsilent, fun _ => hsuccess.mono⟩
      | _ => cases hnext
  | closing session error =>
      cases l with
      | closed result =>
          obtain rfl := Option.some.inj hnext
          obtain ⟨⟨rest, inside, rfl, rfl, hinside⟩, hone, hsettled, hsuccess⟩ := h
          refine .closed ⟨rest, rfl⟩ hinside hone (fun j hj => ?_) fun hok => ?_
          · refine (hsettled j hj).imp_right fun hmem => ?_
            exact (List.mem_cons.mp hmem).resolve_left fun heq => by cases heq
          · cases error with
            | some e => cases hok
            | none =>
                cases result with
                | error e => cases hok
                | ok resp => exact ⟨hsuccess rfl, resp, rfl⟩
      | _ => cases hnext
  | finished result => cases l <;> cases hnext

/-- The client and the directory are there, and no call has been made. -/
def State.launched : State ε := ⟨.opening, []⟩

/-- A run, from its first call on, that has ended has closed the session that
it has opened, by its last call. In between it has kept to that session and to
the one job it has started, which it has seen at its end or cancelled. It
reports success only when the job has exited with 0, its log had the marker,
and the session was closed without an error. -/
theorem demo_cleans_up {s : State ε} (hs : (demoSystem args).run .launched ls = some s)
    {result : Except (DemoError ε) Unit} (hpc : s.pc = .finished result) :
    Done args ls s.calls result := by
  have hopening : Stage args ([] : List (Label ε)) [] .opening := ⟨rfl, rfl⟩
  have hstage : Stage args ls s.calls s.pc :=
    System.run_history (Q := fun ls s => Stage args ls s.calls s.pc) hopening
      (fun _ _ _ _ => stage_step) hs
  rw [hpc] at hstage
  exact hstage

/-- The default times, five seconds and a twentieth of one. -/
def defaultArgs : RuntimeArgs := ⟨"/tmp/demo", 5000000000, 50000000, fun _ => ""⟩

/-- A demo whose second poll fails. -/
def failingPoll : List (Label String) :=
  [.opened (.ok ⟨⟨"s_1"⟩, .devNone, "ct_1"⟩), .indexed (.ok ⟨[⟨"git_log", "List recent commits"⟩]⟩),
    .described (.ok ⟨"git_log(): string", .object []⟩), .started (.ok ⟨⟨"j_1"⟩⟩),
    .polled (.ok ⟨⟨"j_1"⟩, .running, 0⟩) 1, .polled (.error "connection reset") 60000000,
    .cancelled (.error "connection reset"), .closed (.ok ⟨true⟩)]

/-- It has cancelled its job and closed its session all the same. -/
theorem demo_cleans_up_failing : ∃ s : State String,
    (demoSystem defaultArgs).run .launched failingPoll = some s
      ∧ Done defaultArgs failingPoll s.calls (.error (.client "connection reset"))
      ∧ s.calls.length = 8 :=
  ⟨_, rfl, demo_cleans_up rfl rfl, rfl⟩

/-! ## The wait -/

/-- The polls that there is time for from there on, the next one included. -/
def pollsLeft (args : RuntimeArgs) (awake : Nat) : Nat :=
  (args.pollTimeout - awake + args.pollInterval - 1) / args.pollInterval + 1

/-- The steps that are left. -/
def Pc.rank (args : RuntimeArgs) : Pc ε → Nat
  | .opening => pollsLeft args 0 + 7
  | .indexing _ => pollsLeft args 0 + 6
  | .describing .. => pollsLeft args 0 + 5
  | .starting .. => pollsLeft args 0 + 4
  | .polling _ _ _ _ awake => pollsLeft args awake + 3
  | .cancelling .. => 2
  | .attaching .. => 3
  | .printing .. => 2
  | .closing .. => 1
  | .finished _ => 0

/-- Either a whole interval is slept, or there is time for one more poll. -/
theorem pollsLeft_next (hinterval : 0 < args.pollInterval) {elapsed awake awake' : Nat}
    (hawake : awake ≤ elapsed) (hnext : nextPoll args elapsed = some awake') :
    pollsLeft args awake' + 1 ≤ pollsLeft args awake := by
  unfold nextPoll at hnext
  split at hnext
  · cases hnext
  · next hpast =>
      dsimp only at hnext
      split at hnext
      · cases hnext
      · next hremaining =>
          obtain rfl := Option.some.inj hnext
          unfold pollsLeft
          -- The time left, in intervals, rounded up.
          have hone : 1 ≤ (args.pollTimeout - awake + args.pollInterval - 1)
              / args.pollInterval := (Nat.one_le_div_iff hinterval).mpr (by omega)
          rcases Nat.le_total args.pollInterval (args.pollTimeout - elapsed) with hle | hle
          · rw [min_eq_left hle]
            have hshift : (args.pollTimeout - (elapsed + args.pollInterval)
                + args.pollInterval - 1) / args.pollInterval
                ≤ (args.pollTimeout - awake + args.pollInterval - 1 - args.pollInterval)
                  / args.pollInterval := Nat.div_le_div_right (by omega)
            have hless := Nat.sub_mul_div (args.pollTimeout - awake + args.pollInterval - 1)
              args.pollInterval 1
            rw [Nat.mul_one] at hless
            omega
          · rw [min_eq_right hle]
            have hnone : args.pollTimeout - (elapsed + (args.pollTimeout - elapsed)) = 0 := by
              omega
            have hzero : (0 + args.pollInterval - 1) / args.pollInterval = 0 :=
              Nat.div_eq_of_lt (by omega)
            rw [hnone, hzero]
            omega

theorem rank_afterPoll (hinterval : 0 < args.pollInterval) {elapsed awake : Nat}
    (hawake : awake ≤ elapsed) (described : Described) (jobId : JobId) (pollCount : Nat)
    (result : Except ε JobStatusResponse) :
    (afterPoll args session described jobId pollCount elapsed result).rank args
      ≤ pollsLeft args awake + 2 := by
  have hone : 1 ≤ pollsLeft args awake := Nat.le_add_left ..
  unfold afterPoll
  cases result with
  | error e =>
      simp only [Pc.rank]
      omega
  | ok resp =>
      dsimp only
      split
      · split <;> simp only [Pc.rank] <;> omega
      · split
        · next awake' hnext =>
            have := pollsLeft_next hinterval hawake hnext
            simp only [Pc.rank]
            omega
        · simp only [Pc.rank]
          omega

theorem rank_afterAttach (described : Described) (status : JobStatus) (pollCount : Nat)
    (result : Except ε (List LogEventFrame)) :
    (afterAttach args session described status pollCount result).rank args ≤ 2 := by
  unfold afterAttach
  cases result with
  | error e => exact Nat.le_succ 1
  | ok frames =>
      dsimp only
      split
      · exact Nat.le_refl 2
      · exact Nat.le_succ 1

/-- Every step is one of those that are left. -/
theorem next_rank (hinterval : 0 < args.pollInterval) {pc pc' : Pc ε}
    (h : pc.next args l = some pc') : pc'.rank args + 1 ≤ pc.rank args := by
  cases pc with
  | opening =>
      cases l with
      | opened result => cases result <;> obtain rfl := Option.some.inj h <;> simp [Pc.rank]
      | _ => cases h
  | indexing session =>
      cases l with
      | indexed result =>
          cases result with
          | error e =>
              obtain rfl := Option.some.inj h
              simp [Pc.rank]
          | ok index =>
              dsimp only [Pc.next] at h
              split at h <;> obtain rfl := Option.some.inj h <;> simp [Pc.rank]
      | _ => cases h
  | describing session catalogCount name =>
      cases l with
      | described result => cases result <;> obtain rfl := Option.some.inj h <;> simp [Pc.rank]
      | _ => cases h
  | starting session described =>
      cases l with
      | started result => cases result <;> obtain rfl := Option.some.inj h <;> simp [Pc.rank]
      | _ => cases h
  | polling session described jobId pollCount awake =>
      cases l with
      | polled result elapsed =>
          obtain ⟨hawake, rfl⟩ := guard_eq_some.mp h
          exact Nat.succ_le_succ (rank_afterPoll hinterval hawake described jobId pollCount result)
      | _ => cases h
  | cancelling session jobId error =>
      cases l with
      | cancelled result =>
          obtain rfl := Option.some.inj h
          exact Nat.le_refl 2
      | _ => cases h
  | attaching session described jobId status pollCount =>
      cases l with
      | attached result =>
          obtain rfl := Option.some.inj h
          exact Nat.succ_le_succ (rank_afterAttach described status pollCount result)
      | _ => cases h
  | printing session measurement =>
      cases l with
      | printed result => cases result <;> obtain rfl := Option.some.inj h <;> exact Nat.le_refl 2
      | _ => cases h
  | closing session error =>
      cases l with
      | closed result =>
          obtain rfl := Option.some.inj h
          exact Nat.le_refl 1
      | _ => cases h
  | finished result => cases l <;> cases h

theorem potential (hinterval : 0 < args.pollInterval) :
    Potential (demoSystem args : System (State ε) (Label ε)) (fun _ => True) (·.pc.rank args)
      (fun _ => 1) (fun _ => 0) where
  keep _ _ _ _ _ := trivial
  step s l s' _ hs := by
    obtain ⟨pc', hnext, rfl⟩ := Option.map_eq_some_iff.mp hs
    exact next_rank hinterval hnext

/-- Where the demo is, some answer takes it on. -/
theorem next_enabled (args : RuntimeArgs) (pc : Pc ε) (h : ∀ result, pc ≠ .finished result) :
    ∃ l pc', pc.next args l = some pc' := by
  cases pc with
  | opening => exact ⟨.opened (.ok ⟨⟨""⟩, .devNone, ""⟩), _, rfl⟩
  | indexing => exact ⟨.indexed (.ok ⟨[]⟩), _, rfl⟩
  | describing => exact ⟨.described (.ok ⟨"", .null⟩), _, rfl⟩
  | starting => exact ⟨.started (.ok ⟨⟨""⟩⟩), _, rfl⟩
  | polling session described jobId pollCount awake =>
      exact ⟨.polled (.ok ⟨jobId, .running, 0⟩) awake, _, if_pos (Nat.le_refl awake)⟩
  | cancelling => exact ⟨.cancelled (.ok ⟨false⟩), _, rfl⟩
  | attaching => exact ⟨.attached (.ok []), _, rfl⟩
  | printing => exact ⟨.printed (.ok ()), _, rfl⟩
  | closing => exact ⟨.closed (.ok ⟨true⟩), _, rfl⟩
  | finished result => exact absurd rfl (h result)

/-- The demo is never stuck, and the answers it gets bring it to its end after
at most eight steps and one for every interval of the time it waits. -/
theorem demo_ends (hinterval : 0 < args.pollInterval) {s : State ε}
    (hs : (demoSystem args).run .launched ls = some s) :
    ls.length ≤ (args.pollTimeout + args.pollInterval - 1) / args.pollInterval + 8
      ∧ ((∃ result, s.pc = .finished result)
        ∨ ∃ l s', (demoSystem args).step s l = some s') := by
  constructor
  · have hcost := (potential hinterval).run trivial hs
    have hrank : (State.launched : State ε).pc.rank args
        = (args.pollTimeout + args.pollInterval - 1) / args.pollInterval + 8 := rfl
    have hlength : (ls.map fun _ => 1).sum = ls.length := by simp
    have hnothing : (ls.map fun _ => 0).sum = 0 := by simp
    omega
  · by_cases h : ∃ result, s.pc = .finished result
    · exact .inl h
    · obtain ⟨l, pc', hnext⟩ := next_enabled args s.pc fun result hresult => h ⟨result, hresult⟩
      refine .inr ⟨l, _, Option.map_eq_some_iff.mpr ⟨pc', hnext, rfl⟩⟩

/-- With the default times there are 108 steps at most. -/
theorem demo_ends_default : ∃ s : State String,
    (demoSystem defaultArgs).run .launched failingPoll = some s ∧ failingPoll.length ≤ 108 := by
  have hinterval : 0 < defaultArgs.pollInterval := by decide
  refine ⟨_, rfl, ?_⟩
  exact (demo_ends hinterval (show (demoSystem defaultArgs).run .launched failingPoll = some _
    from rfl)).1

end Demo

end Axp
