import Mathlib.Data.Nat.Basic
import Axp.Lts

/-!
# Interrupting a component

An interrupt is two steps on what the handle shares with the run: it stores a
flag, and increments the epoch of the engine. Arming is three steps: the store
gets a deadline one epoch ahead, the flag is loaded, and if it was set the
deadline is moved to now. Neither side waits for the other.

An increment after the deadline is set brings the deadline. An increment before
it is invisible to it; but then the flag, which was stored even earlier, is
loaded as set. `Arming` is this case distinction as an invariant.

Wasmtime's part are the deadlines themselves, `EpochDeadlines`; what the runner
relies on is `Relative`. The epoch is taken not to have wrapped.
-/

namespace Axp

open Lts

/-! ## The steps of both sides -/

/-- The epoch deadline of a store, as wasmtime keeps it: `set` at an epoch of
the engine so many ticks ahead, and `reached` at an epoch, where a check traps. -/
structure EpochDeadlines (δ : Type) where
  set : Nat → Nat → δ
  reached : δ → Nat → Bool

/-- A deadline is relative to the epoch it is set at, and reached from there on. -/
def EpochDeadlines.Relative {δ : Type} (deadlines : EpochDeadlines δ) : Prop :=
  ∀ epoch ticks now, deadlines.reached (deadlines.set epoch ticks) now = true ↔
    epoch + ticks ≤ now

def defaultEpochDeadline : Nat := 1

/-- Where a run is with its store. -/
inductive ArmPc (δ : Type) where
  | compiling
  | deadlineSet (deadline : δ)
  | flagLoaded (deadline : δ) (interrupted : Bool)
  | armed (deadline : δ)
  /-- A check has trapped. -/
  | trapped

/-- The engine with its handles, a number for each `interrupt_handle()`, and
one run. `calls` counts the calls of `interrupt` on clones of a handle that are
between their two steps. -/
structure InterruptState (δ : Type) where
  epoch : Nat
  interrupted : Nat → Bool
  calls : Nat → Nat
  pc : ArmPc δ

inductive InterruptLabel where
  /-- `interrupted.store(true)` -/
  | store (handle : Nat)
  /-- `increment_epoch()`, and the end of the call. -/
  | increment (handle : Nat)
  | setDeadline
  | loadFlag
  | arm
  | check
deriving DecidableEq

/-- A run of a component with the handle `handle`, among interrupts through
this and other handles of its engine. -/
def interruptSystem {δ : Type} (deadlines : EpochDeadlines δ) (handle : Nat) :
    System (InterruptState δ) InterruptLabel where
  init s := s.interrupted handle = false ∧ s.calls handle = 0 ∧ s.pc = .compiling
  step s
    | .store h =>
        some { s with
          interrupted := Function.update s.interrupted h true
          calls := Function.update s.calls h (s.calls h + 1) }
    | .increment h =>
        if 0 < s.calls h then
          some { s with
            epoch := s.epoch + 1
            calls := Function.update s.calls h (s.calls h - 1) }
        else none
    | .setDeadline =>
        match s.pc with
        | .compiling =>
            some { s with pc := .deadlineSet (deadlines.set s.epoch defaultEpochDeadline) }
        | _ => none
    | .loadFlag =>
        match s.pc with
        | .deadlineSet d => some { s with pc := .flagLoaded d (s.interrupted handle) }
        | _ => none
    | .arm =>
        match s.pc with
        | .flagLoaded d interrupted =>
            some { s with pc := .armed (if interrupted then deadlines.set s.epoch 0 else d) }
        | _ => none
    | .check =>
        match s.pc with
        | .armed d => some (if deadlines.reached d s.epoch then { s with pc := .trapped } else s)
        | _ => none

/-- The steps, each with what it found. -/
inductive InterruptEffect {δ : Type} (deadlines : EpochDeadlines δ) (handle : Nat)
    (s : InterruptState δ) : InterruptLabel → InterruptState δ → Prop
  | store (h : Nat) : InterruptEffect deadlines handle s (.store h)
      { s with
        interrupted := Function.update s.interrupted h true
        calls := Function.update s.calls h (s.calls h + 1) }
  | increment (h : Nat) : 0 < s.calls h → InterruptEffect deadlines handle s (.increment h)
      { s with
        epoch := s.epoch + 1
        calls := Function.update s.calls h (s.calls h - 1) }
  | setDeadline : s.pc = .compiling → InterruptEffect deadlines handle s .setDeadline
      { s with pc := .deadlineSet (deadlines.set s.epoch defaultEpochDeadline) }
  | loadFlag (d : δ) : s.pc = .deadlineSet d → InterruptEffect deadlines handle s .loadFlag
      { s with pc := .flagLoaded d (s.interrupted handle) }
  | arm (d : δ) (interrupted : Bool) : s.pc = .flagLoaded d interrupted →
      InterruptEffect deadlines handle s .arm
        { s with pc := .armed (if interrupted then deadlines.set s.epoch 0 else d) }
  | trap (d : δ) : s.pc = .armed d → deadlines.reached d s.epoch = true →
      InterruptEffect deadlines handle s .check { s with pc := .trapped }
  | pass (d : δ) : s.pc = .armed d → ¬deadlines.reached d s.epoch = true →
      InterruptEffect deadlines handle s .check s

theorem interruptStep_effect {δ : Type} {deadlines : EpochDeadlines δ} {handle : Nat}
    {s s' : InterruptState δ} {l : InterruptLabel}
    (hs : (interruptSystem deadlines handle).step s l = some s') :
    InterruptEffect deadlines handle s l s' := by
  simp only [interruptSystem] at hs
  cases l with
  | store h =>
      obtain rfl := Option.some.inj hs
      exact .store h
  | increment h =>
      obtain ⟨hcall, rfl⟩ := guard_eq_some.mp hs
      exact .increment h hcall
  | setDeadline =>
      dsimp only at hs
      split at hs
      · next hpc =>
          obtain rfl := Option.some.inj hs
          exact .setDeadline hpc
      · cases hs
  | loadFlag =>
      dsimp only at hs
      split at hs
      · next d hpc =>
          obtain rfl := Option.some.inj hs
          exact .loadFlag d hpc
      · cases hs
  | arm =>
      dsimp only at hs
      split at hs
      · next d interrupted hpc =>
          obtain rfl := Option.some.inj hs
          exact .arm d interrupted hpc
      · cases hs
  | check =>
      dsimp only at hs
      split at hs
      · next d hpc =>
          obtain rfl := Option.some.inj hs
          split
          · next hreached => exact .trap d hpc hreached
          · next hahead => exact .pass d hpc hahead
      · cases hs

/-! ## The invariant -/

/-- No step of an interrupt has been taken, through any handle. -/
def Uninterrupted (ls : List InterruptLabel) : Prop :=
  ∀ l ∈ ls, ∀ h, l ≠ .store h ∧ l ≠ .increment h

section

variable {δ : Type} (deadlines : EpochDeadlines δ) (handle : Nat)

/-- A deadline `ticks` ahead of an epoch that has come: in an uninterrupted run
that epoch is still the current one. -/
structure SetAt (ls : List InterruptLabel) (epoch : Nat) (d : δ) (set ticks : Nat) : Prop where
  deadline : d = deadlines.set set ticks
  past : set ≤ epoch
  current : Uninterrupted ls → set = epoch

/-- What a run so far has to do with where it has got to. -/
def Arming (ls : List InterruptLabel) (epoch : Nat) : ArmPc δ → Prop
  | .compiling => True
  | .deadlineSet d => ∃ e, SetAt deadlines ls epoch d e 1
  | .flagLoaded d interrupted => ∃ e, SetAt deadlines ls epoch d e 1
      ∧ (interrupted = false → .increment handle ∈ ls → e + 1 ≤ epoch)
      ∧ (Uninterrupted ls → interrupted = false)
  | .armed d => ∃ e ticks, SetAt deadlines ls epoch d e ticks ∧ ticks ≤ 1
      ∧ (.increment handle ∈ ls → e + ticks ≤ epoch) ∧ (Uninterrupted ls → ticks = 1)
  | .trapped => ¬Uninterrupted ls

structure InterruptInv (ls : List InterruptLabel) (s : InterruptState δ) : Prop where
  flag : s.interrupted handle = true ↔ .store handle ∈ ls
  between : 0 < s.calls handle → .store handle ∈ ls
  completed : .increment handle ∈ ls → .store handle ∈ ls
  arming : Arming deadlines handle ls s.epoch s.pc

variable {deadlines handle}
variable {ls : List InterruptLabel} {l : InterruptLabel} {s₀ s s' : InterruptState δ} {d : δ}
  {epoch epoch' e ticks : Nat} {pc : ArmPc δ}

theorem Uninterrupted.of_concat (h : Uninterrupted (ls ++ [l])) : Uninterrupted ls :=
  fun l' hl' => h l' (List.mem_append_left _ hl')

theorem Uninterrupted.last (h : Uninterrupted (ls ++ [l])) (h' : Nat) :
    l ≠ .store h' ∧ l ≠ .increment h' :=
  h l (List.mem_append_right _ (List.mem_singleton_self l)) h'

theorem SetAt.frame (h : SetAt deadlines ls epoch d e ticks) (hle : epoch ≤ epoch')
    (hquiet : Uninterrupted (ls ++ [l]) → epoch' = epoch) :
    SetAt deadlines (ls ++ [l]) epoch' d e ticks where
  deadline := h.deadline
  past := Nat.le_trans h.past hle
  current hun := (h.current hun.of_concat).trans (hquiet hun).symm

/-- A step of an interrupt, or none of the arming. -/
theorem Arming.frame (h : Arming deadlines handle ls epoch pc) (hle : epoch ≤ epoch')
    (hincrement : l = .increment handle → epoch + 1 ≤ epoch')
    (hquiet : Uninterrupted (ls ++ [l]) → epoch' = epoch) :
    Arming deadlines handle (ls ++ [l]) epoch' pc := by
  -- A new increment has brought every deadline that is one ahead of the past.
  have hcome : ∀ {e t : Nat}, e ≤ epoch → t ≤ 1 → (.increment handle ∈ ls → e + t ≤ epoch) →
      .increment handle ∈ ls ++ [l] → e + t ≤ epoch' := by
    intro e t hpast ht hold hmem
    rcases List.mem_append.mp hmem with hmem | hmem
    · exact Nat.le_trans (hold hmem) hle
    · have := hincrement (List.mem_singleton.mp hmem).symm
      omega
  cases pc with
  | compiling => trivial
  | deadlineSet d =>
      obtain ⟨e, hset⟩ := h
      exact ⟨e, hset.frame hle hquiet⟩
  | flagLoaded d interrupted =>
      obtain ⟨e, hset, hold, hun⟩ := h
      refine ⟨e, hset.frame hle hquiet, fun hfalse => ?_, fun hun' => hun hun'.of_concat⟩
      exact hcome hset.past le_rfl (hold hfalse)
  | armed d =>
      obtain ⟨e, t, hset, ht, hold, hun⟩ := h
      exact ⟨e, t, hset.frame hle hquiet, ht, hcome hset.past ht hold,
        fun hun' => hun hun'.of_concat⟩
  | trapped => exact fun hun => h hun.of_concat

namespace InterruptInv

theorem init (h₀ : (interruptSystem deadlines handle).init s₀) :
    InterruptInv deadlines handle [] s₀ := by
  obtain ⟨hflag, hcalls, hpc⟩ := h₀
  refine ⟨?_, ?_, nofun, ?_⟩
  · rw [hflag]
    exact iff_of_false Bool.false_ne_true List.not_mem_nil
  · rw [hcalls]
    exact fun hpos => absurd hpos (Nat.lt_irrefl 0)
  · rw [hpc]
    trivial

/-- A step of the run. -/
theorem own (h : InterruptInv deadlines handle ls s) (hl : ∀ h', l ≠ .store h' ∧ l ≠ .increment h')
    (harming : Arming deadlines handle (ls ++ [l]) s.epoch pc) :
    InterruptInv deadlines handle (ls ++ [l]) { s with pc := pc } := by
  have hmem : ∀ m, m ≠ l → (m ∈ ls ++ [l] ↔ m ∈ ls) := by
    intro m hne
    rw [List.mem_append, List.mem_singleton, or_iff_left hne]
  have hstore := hmem _ (hl handle).1.symm
  have hincrement := hmem _ (hl handle).2.symm
  refine ⟨?_, ?_, ?_, harming⟩
  · rw [hstore]
    exact h.flag
  · rw [hstore]
    exact h.between
  · rw [hstore, hincrement]
    exact h.completed

theorem store (h : InterruptInv deadlines handle ls s) (h' : Nat) :
    InterruptInv deadlines handle (ls ++ [.store h'])
      { s with
        interrupted := Function.update s.interrupted h' true
        calls := Function.update s.calls h' (s.calls h' + 1) } := by
  have hincrement : .increment handle ∈ ls ++ [.store h'] ↔ .increment handle ∈ ls := by simp
  have hstore : .store handle ∈ ls ++ [.store h'] ↔ .store handle ∈ ls ∨ handle = h' := by simp
  refine ⟨?_, ?_, ?_, h.arming.frame le_rfl nofun fun _ => rfl⟩
  · rw [hstore, ← h.flag]
    by_cases heq : handle = h'
    · simp [heq]
    · simp [heq]
  · rw [hstore]
    by_cases heq : handle = h'
    · exact fun _ => Or.inr heq
    · dsimp only
      rw [Function.update_of_ne heq]
      exact fun hpos => Or.inl (h.between hpos)
  · rw [hstore, hincrement]
    exact fun hmem => Or.inl (h.completed hmem)

theorem increment (h : InterruptInv deadlines handle ls s) {h' : Nat} (hcall : 0 < s.calls h') :
    InterruptInv deadlines handle (ls ++ [.increment h'])
      { s with
        epoch := s.epoch + 1
        calls := Function.update s.calls h' (s.calls h' - 1) } := by
  have hstore : .store handle ∈ ls ++ [.increment h'] ↔ .store handle ∈ ls := by simp
  refine ⟨?_, ?_, ?_, h.arming.frame (Nat.le_succ _) (fun _ => le_rfl) fun hun => ?_⟩
  · rw [hstore]
    exact h.flag
  · rw [hstore]
    by_cases heq : handle = h'
    · exact fun _ => h.between (heq ▸ hcall)
    · dsimp only
      rw [Function.update_of_ne heq]
      exact h.between
  · rw [hstore, List.mem_append, List.mem_singleton, InterruptLabel.increment.injEq]
    -- The call that ends here has stored its flag.
    rintro (hmem | rfl)
    · exact h.completed hmem
    · exact h.between hcall
  · exact absurd rfl (hun.last h').2

theorem step (hrel : deadlines.Relative) (h : InterruptInv deadlines handle ls s)
    (hs : (interruptSystem deadlines handle).step s l = some s') :
    InterruptInv deadlines handle (ls ++ [l]) s' := by
  have harming := h.arming
  cases interruptStep_effect hs with
  | store h' => exact h.store h'
  | increment h' hcall => exact h.increment hcall
  | setDeadline hpc =>
      exact h.own (fun _ => ⟨nofun, nofun⟩) ⟨s.epoch, rfl, le_rfl, fun _ => rfl⟩
  | loadFlag d hpc =>
      rw [hpc] at harming
      obtain ⟨e, hset⟩ := harming.frame (l := .loadFlag) le_rfl nofun fun _ => rfl
      refine h.own (fun _ => ⟨nofun, nofun⟩) ⟨e, hset, fun hfalse hmem => ?_, fun hun => ?_⟩
      · have hold : .increment handle ∈ ls := by simpa using hmem
        rw [h.flag.mpr (h.completed hold)] at hfalse
        cases hfalse
      · rw [← Bool.not_eq_true, h.flag]
        exact fun hmem => (hun.of_concat _ hmem handle).1 rfl
  | arm d interrupted hpc =>
      rw [hpc] at harming
      obtain ⟨e, hset, hold, hun⟩ := harming.frame (l := .arm) le_rfl nofun fun _ => rfl
      cases interrupted with
      | true =>
          have hnow : SetAt deadlines (ls ++ [.arm]) s.epoch (deadlines.set s.epoch 0)
              s.epoch 0 := ⟨rfl, le_rfl, fun _ => rfl⟩
          refine h.own (fun _ => ⟨nofun, nofun⟩)
            ⟨s.epoch, 0, hnow, Nat.zero_le 1, fun _ => le_rfl, fun hun' => ?_⟩
          cases hun hun'
      | false =>
          exact h.own (fun _ => ⟨nofun, nofun⟩) ⟨e, 1, hset, le_rfl, hold rfl, fun _ => rfl⟩
  | trap d hpc hreached =>
      rw [hpc] at harming
      obtain ⟨e, t, hset, -, -, hticks⟩ :=
        harming.frame (l := .check) le_rfl nofun fun _ => rfl
      refine h.own (fun _ => ⟨nofun, nofun⟩) fun hun => ?_
      rw [hset.deadline, hrel, hset.current hun, hticks hun] at hreached
      omega
  | pass d hpc hahead =>
      exact h.own (fun _ => ⟨nofun, nofun⟩) (harming.frame le_rfl nofun fun _ => rfl)

theorem run (hrel : deadlines.Relative) (h₀ : (interruptSystem deadlines handle).init s₀)
    (hrun : (interruptSystem deadlines handle).run s₀ ls = some s) :
    InterruptInv deadlines handle ls s :=
  System.run_history (init h₀) (fun _ _ _ _ hinv hs => hinv.step hrel hs) hrun

end InterruptInv

/-! ## No interrupt is lost -/

/-- An armed run stays armed until a check traps. -/
theorem armed_later {ls' : List InterruptLabel} (h : s.pc = .armed d)
    (hrun : (interruptSystem deadlines handle).run s ls' = some s') :
    s'.pc = .armed d ∨ s'.pc = .trapped := by
  refine run_invariant (T := interruptSystem deadlines handle)
    (I := fun t => t.pc = .armed d ∨ t.pc = .trapped) ?_ (Or.inl h) hrun
  intro t l t' ht hs
  cases interruptStep_effect hs with
  | store h' => exact ht
  | increment h' hcall => exact ht
  | setDeadline hpc => rcases ht with ht | ht <;> cases hpc.symm.trans ht
  | loadFlag d' hpc => rcases ht with ht | ht <;> cases hpc.symm.trans ht
  | arm d' interrupted hpc => rcases ht with ht | ht <;> cases hpc.symm.trans ht
  | trap d' hpc hreached => exact Or.inr rfl
  | pass d' hpc hahead => exact ht

/-- For every interleaving of a run's arming with the calls of `interrupt` on
clones of its handle, and on other handles of its engine: once the run is armed
and a call on its handle has completed, every check it then comes to traps; and
as long as no call has taken a step, no check does. -/
theorem no_interrupt_is_lost (hrel : deadlines.Relative)
    (h₀ : (interruptSystem deadlines handle).init s₀)
    (hrun : (interruptSystem deadlines handle).run s₀ ls = some s) :
    (∀ d, s.pc = .armed d → .increment handle ∈ ls →
        ∀ ls' s', (interruptSystem deadlines handle).run s ls' = some s' →
          s'.pc = .trapped ∨ (interruptSystem deadlines handle).step s' .check
            = some { s' with pc := .trapped })
      ∧ (Uninterrupted ls → s.pc ≠ .trapped ∧ ∀ d, s.pc = .armed d →
        (interruptSystem deadlines handle).step s .check = some s) := by
  refine ⟨?_, ?_⟩
  · intro d hpc hdone ls' s' hlater
    have hinv := InterruptInv.run hrel h₀ (System.run_append.mpr ⟨s, hrun, hlater⟩)
    refine (armed_later hpc hlater).symm.imp_right fun hpc' => ?_
    have harming := hinv.arming
    rw [hpc'] at harming
    obtain ⟨e, ticks, hset, -, hold, -⟩ := harming
    have hreached : deadlines.reached d s'.epoch = true := by
      rw [hset.deadline, hrel]
      exact hold (List.mem_append_left _ hdone)
    simp only [interruptSystem, hpc', hreached, if_true]
  · intro hun
    have harming := (InterruptInv.run hrel h₀ hrun).arming
    refine ⟨fun hpc => ?_, fun d hpc => ?_⟩
    · rw [hpc] at harming
      exact harming hun
    · rw [hpc] at harming
      obtain ⟨e, ticks, hset, -, -, hticks⟩ := harming
      have hreached : deadlines.reached d s.epoch ≠ true := by
        rw [hset.deadline, Ne, hrel, hset.current hun, hticks hun]
        omega
      simp only [interruptSystem, hpc, if_neg hreached]

end

/-- Deadlines as sums. -/
def sumDeadlines : EpochDeadlines Nat where
  set epoch ticks := epoch + ticks
  reached deadline epoch := deadline ≤ epoch

theorem sumDeadlines_relative : sumDeadlines.Relative :=
  fun _ _ _ => decide_eq_true_iff

/-- A run at epoch 7 that is interrupted while its component is being compiled. -/
def earlyRun : List InterruptLabel := [.store 0, .increment 0, .setDeadline, .loadFlag, .arm]

/-- The epoch has been incremented too early, and the flag is what makes the
check trap. -/
theorem no_interrupt_is_lost_compiling : ∃ s,
    (interruptSystem sumDeadlines 0).run ⟨7, fun _ => false, fun _ => 0, .compiling⟩ earlyRun
        = some s
      ∧ (interruptSystem sumDeadlines 0).step s .check = some { s with pc := .trapped } := by
  obtain ⟨s, hrun, hpc⟩ : ∃ s, (interruptSystem sumDeadlines 0).run
      ⟨7, fun _ => false, fun _ => 0, .compiling⟩ earlyRun = some s ∧ s.pc = .armed 8 :=
    ⟨_, rfl, rfl⟩
  refine ⟨s, hrun, ?_⟩
  obtain ⟨hlost, -⟩ := no_interrupt_is_lost sumDeadlines_relative ⟨rfl, rfl, rfl⟩ hrun
  refine (hlost 8 hpc (by decide) [] s rfl).resolve_left ?_
  rw [hpc]
  nofun

end Axp
