import Mathlib.Data.List.Basic
import Mathlib.Data.List.Induction

/-!
# Transition systems, runs and simulations

The general layer under the concurrent parts of the development. A
`System` is an initial-state predicate and an executable step: the label
carries every choice the scheduler or the environment makes, so one
labelled step is a partial function and a run is a fold over its labels.

Four rules are used everywhere above:

- `ReachVia.invariant`: what holds initially and survives every step whose
  guard holds, holds in every state reached through such steps;
- `run_invariant`: the same along a run from a given state, for facts
  about everything that happens *after* some point;
- `System.always_iff`: the converse too, when a step preserves the
  invariant exactly when it meets its guard;
- `Simulation.reach`: a forward simulation (with stuttering) maps reachable
  states to reachable states.

`Machine` is the deterministic, output-producing variant, with the rule
`Machine.outputs_eq` for comparing two implementations of one interface.
-/

namespace Lts

universe u v w x

/-- Initial states and a labelled, executable step. -/
structure System (σ : Type u) (ℓ : Type v) where
  init : σ → Prop
  step : σ → ℓ → Option σ

/-- A guarded effect was enabled, and was the effect. -/
theorem guard_eq_some {α : Type u} {c : Prop} [Decidable c] {a b : α} :
    (if c then some a else none) = some b ↔ c ∧ b = a := by
  rw [Option.ite_none_right_eq_some, Option.some.injEq, eq_comm]

namespace System

variable {σ : Type u} {ℓ : Type v}

/-- Take the labelled steps in order; `none` as soon as one is disabled. -/
def run (T : System σ ℓ) : σ → List ℓ → Option σ
  | s, [] => some s
  | s, l :: ls => (T.step s l).bind (T.run · ls)

@[simp] theorem run_nil (T : System σ ℓ) (s : σ) : T.run s [] = some s := rfl

theorem run_cons {T : System σ ℓ} {s s' : σ} {l : ℓ} {ls : List ℓ} :
    T.run s (l :: ls) = some s' ↔
      ∃ m, T.step s l = some m ∧ T.run m ls = some s' := by
  simp [run, Option.bind_eq_some_iff]

theorem run_append {T : System σ ℓ} {ls ls' : List ℓ} :
    ∀ {s s' : σ}, T.run s (ls ++ ls') = some s' ↔
      ∃ m, T.run s ls = some m ∧ T.run m ls' = some s' := by
  induction ls with
  | nil => intro s s'; simp
  | cons l ls ih =>
      intro s s'
      rw [List.cons_append, run_cons]
      constructor
      · rintro ⟨m, hm, hrun⟩
        obtain ⟨m', hm', hrest⟩ := ih.mp hrun
        exact ⟨m', run_cons.mpr ⟨m, hm, hm'⟩, hrest⟩
      · rintro ⟨m', hm', hrest⟩
        obtain ⟨m, hm, hrun⟩ := run_cons.mp hm'
        exact ⟨m, hm, ih.mpr ⟨m', hrun, hrest⟩⟩

end System

/-! ## Reachability -/

variable {σ : Type u} {ℓ : Type v}

/-- Reachable through steps that all meet `G` in the state they start from. -/
inductive ReachVia (T : System σ ℓ) (G : σ → ℓ → Prop) : σ → Prop
  | init {s : σ} : T.init s → ReachVia T G s
  | step {s s' : σ} (l : ℓ) :
      ReachVia T G s → G s l → T.step s l = some s' → ReachVia T G s'

/-- Reachable through any steps. -/
abbrev Reach (T : System σ ℓ) : σ → Prop := ReachVia T fun _ _ => True

/-- The invariant rule: initial, and preserved by every guarded step. -/
theorem ReachVia.invariant {T : System σ ℓ} {G : σ → ℓ → Prop} {I : σ → Prop}
    (hinit : ∀ s, T.init s → I s)
    (hstep : ∀ s l s', I s → G s l → T.step s l = some s' → I s')
    {s : σ} (h : ReachVia T G s) : I s := by
  induction h with
  | init h0 => exact hinit _ h0
  | step l _ hg hs ih => exact hstep _ l _ ih hg hs

theorem Reach.run {T : System σ ℓ} {ls : List ℓ} :
    ∀ {s s' : σ}, Reach T s → T.run s ls = some s' → Reach T s' := by
  induction ls with
  | nil =>
      intro s s' hs hrun
      obtain rfl := Option.some.inj hrun
      exact hs
  | cons l ls ih =>
      intro s s' hs hrun
      obtain ⟨m, hm, hrest⟩ := System.run_cons.mp hrun
      exact ih (.step l hs trivial hm) hrest

/-- The invariant rule along a run from a given state. -/
theorem run_invariant {T : System σ ℓ} {I : σ → Prop}
    (hstep : ∀ s l s', I s → T.step s l = some s' → I s') {ls : List ℓ} :
    ∀ {s s' : σ}, I s → T.run s ls = some s' → I s' := by
  induction ls with
  | nil =>
      intro s s' hs hrun
      obtain rfl := Option.some.inj hrun
      exact hs
  | cons l ls ih =>
      intro s s' hs hrun
      obtain ⟨m, hm, hrest⟩ := System.run_cons.mp hrun
      exact ih (hstep _ l _ hs hm) hrest

namespace System

/-- `I` holds in every state a run passes through, both ends included. -/
def Always (T : System σ ℓ) (I : σ → Prop) (s : σ) (ls : List ℓ) : Prop :=
  ∀ done m, done <+: ls → T.run s done = some m → I m

/-- `G` holds of every step a run takes, in the state it starts from. -/
def Throughout (T : System σ ℓ) (G : σ → ℓ → Prop) (s : σ) (ls : List ℓ) : Prop :=
  ∀ done l m m', done ++ [l] <+: ls → T.run s done = some m → T.step m l = some m' → G m l

theorem throughout_nil {T : System σ ℓ} {G : σ → ℓ → Prop} {s : σ} :
    T.Throughout G s [] := by
  intro done l m m' hpre
  exact absurd (List.prefix_nil.mp hpre) (by simp)

theorem throughout_cons {T : System σ ℓ} {G : σ → ℓ → Prop} {s : σ} {l : ℓ}
    {ls : List ℓ} :
    T.Throughout G s (l :: ls) ↔
      ∀ m, T.step s l = some m → G s l ∧ T.Throughout G m ls := by
  constructor
  · intro h m hm
    refine ⟨h [] l s m ⟨ls, rfl⟩ rfl hm, ?_⟩
    intro done l' n n' hpre hrun hn
    exact h (l :: done) l' n n' (List.cons_prefix_cons.mpr ⟨rfl, hpre⟩)
      (run_cons.mpr ⟨m, hm, hrun⟩) hn
  · intro h done l' n n' hpre hrun hn
    cases done with
    | nil =>
        obtain ⟨rfl, -⟩ := List.cons_prefix_cons.mp hpre
        obtain rfl := Option.some.inj hrun
        exact (h n' hn).1
    | cons k done =>
        obtain ⟨rfl, htail⟩ := List.cons_prefix_cons.mp hpre
        obtain ⟨m, hm, hrest⟩ := run_cons.mp hrun
        exact (h m hm).2 done l' n n' htail hrest hn

/-- The last step of a run. -/
theorem run_concat {T : System σ ℓ} {s m' : σ} {done : List ℓ} {l : ℓ} :
    T.run s (done ++ [l]) = some m' ↔ ∃ m, T.run s done = some m ∧ T.step m l = some m' := by
  rw [run_append]
  constructor
  · rintro ⟨m, hm, hlast⟩
    obtain ⟨m'', hl, hnil⟩ := run_cons.mp hlast
    obtain rfl := Option.some.inj hnil
    exact ⟨m, hm, hl⟩
  · rintro ⟨m, hm, hl⟩
    exact ⟨m, hm, run_cons.mpr ⟨m', hl, rfl⟩⟩

/-- What holds of a run so far and its last state, and is kept when the run
goes on. -/
theorem run_history {T : System σ ℓ} {Q : List ℓ → σ → Prop} {s : σ} (hnil : Q [] s)
    (hstep : ∀ done l m m', Q done m → T.step m l = some m' → Q (done ++ [l]) m')
    {ls : List ℓ} : ∀ {s' : σ}, T.run s ls = some s' → Q ls s' := by
  induction ls using List.reverseRecOn with
  | nil =>
      intro s' hrun
      obtain rfl := Option.some.inj hrun
      exact hnil
  | append_singleton done l ih =>
      intro s' hrun
      obtain ⟨m, hm, hl⟩ := run_concat.mp hrun
      exact hstep done l m s' (ih hm) hl

/-- When a step from a state with the invariant keeps it exactly if its guard
holds, a run keeps the invariant exactly if all its steps meet the guard. The
auxiliary `J` is what the step rules may know besides, as long as nothing has
gone wrong. -/
theorem always_iff {T : System σ ℓ} {I J : σ → Prop} {G : σ → ℓ → Prop}
    (hguard : ∀ s l s', J s → I s → T.step s l = some s' → I s' → G s l)
    (hkeep : ∀ s l s', J s → I s → T.step s l = some s' → G s l → I s' ∧ J s')
    {s : σ} (hI : I s) (hJ : J s) (ls : List ℓ) :
    T.Always I s ls ↔ T.Throughout G s ls := by
  constructor
  · intro h
    have haux : ∀ done m, done <+: ls → T.run s done = some m → J m := by
      intro done
      induction done using List.reverseRecOn with
      | nil =>
          intro m _ hrun
          obtain rfl := Option.some.inj hrun
          exact hJ
      | append_singleton done l ih =>
          intro m' hpre hrun
          obtain ⟨m, hm, hl⟩ := run_concat.mp hrun
          have hpre' := (List.prefix_append done [l]).trans hpre
          have hJm := ih m hpre' hm
          have hIm := h done m hpre' hm
          exact (hkeep m l m' hJm hIm hl (hguard m l m' hJm hIm hl (h _ m' hpre hrun))).2
    intro done l m m' hpre hrun hl
    have hpre' := (List.prefix_append done [l]).trans hpre
    exact hguard m l m' (haux done m hpre' hrun) (h done m hpre' hrun) hl
      (h _ m' hpre (run_concat.mpr ⟨m, hrun, hl⟩))
  · intro h
    have hboth : ∀ done m, done <+: ls → T.run s done = some m → I m ∧ J m := by
      intro done
      induction done using List.reverseRecOn with
      | nil =>
          intro m _ hrun
          obtain rfl := Option.some.inj hrun
          exact ⟨hI, hJ⟩
      | append_singleton done l ih =>
          intro m' hpre hrun
          obtain ⟨m, hm, hl⟩ := run_concat.mp hrun
          have hm' := ih m ((List.prefix_append done [l]).trans hpre) hm
          exact hkeep m l m' hm'.2 hm'.1 hl (h done l m m' hpre hm hl)
    exact fun done m hpre hrun => (hboth done m hpre hrun).1

/-- The case of an auxiliary that every step preserves. -/
theorem always_iff_of_step {T : System σ ℓ} {I J : σ → Prop} {G : σ → ℓ → Prop}
    (hiff : ∀ s l s', J s → I s → T.step s l = some s' → (I s' ↔ G s l))
    (haux : ∀ s l s', J s → T.step s l = some s' → J s')
    {s : σ} (hI : I s) (hJ : J s) (ls : List ℓ) :
    T.Always I s ls ↔ T.Throughout G s ls :=
  always_iff (fun s l s' hJ hI hs => (hiff s l s' hJ hI hs).mp)
    (fun s l s' hJ hI hs hG => ⟨(hiff s l s' hJ hI hs).mpr hG, haux s l s' hJ hs⟩) hI hJ ls

end System

/-- What held of all entries of a log holds of a longer one by its last entry. -/
theorem forall_mem_concat {α : Type u} {P : α → Prop} {log : List α} {a : α}
    (h : ∀ b ∈ log, P b) : (∀ b ∈ log ++ [a], P b) ↔ P a := by
  rw [List.forall_mem_append, List.forall_mem_singleton]
  exact and_iff_right h

/-! ## Guarded runs -/

/-- Take the labelled steps in order, as long as each meets its guard. -/
def System.runVia (T : System σ ℓ) (G : σ → ℓ → Prop) [∀ s l, Decidable (G s l)] :
    σ → List ℓ → Option σ
  | s, [] => some s
  | s, l :: ls => if G s l then (T.step s l).bind (T.runVia G · ls) else none

theorem ReachVia.runVia {T : System σ ℓ} {G : σ → ℓ → Prop} [∀ s l, Decidable (G s l)]
    {ls : List ℓ} : ∀ {s s' : σ}, ReachVia T G s → T.runVia G s ls = some s' →
      ReachVia T G s' := by
  induction ls with
  | nil =>
      intro s s' hs hrun
      obtain rfl := Option.some.inj hrun
      exact hs
  | cons l ls ih =>
      intro s s' hs hrun
      obtain ⟨hG, hstep⟩ := Option.ite_none_right_eq_some.mp hrun
      obtain ⟨m, hm, hrest⟩ := Option.bind_eq_some_iff.mp hstep
      exact ih (.step l hs hG hm) hrest

/-- A run that meets its guards does so throughout. -/
theorem System.throughout_of_runVia {T : System σ ℓ} {G : σ → ℓ → Prop}
    [∀ s l, Decidable (G s l)] {ls : List ℓ} :
    ∀ {s s' : σ}, T.runVia G s ls = some s' → T.Throughout G s ls := by
  induction ls with
  | nil => intro s s' _; exact throughout_nil
  | cons l ls ih =>
      intro s s' hrun
      obtain ⟨hG, hstep⟩ := Option.ite_none_right_eq_some.mp hrun
      obtain ⟨m, hm, hrest⟩ := Option.bind_eq_some_iff.mp hstep
      refine throughout_cons.mpr fun m' hm' => ⟨hG, ?_⟩
      obtain rfl := Option.some.inj (hm.symm.trans hm')
      exact ih hrest

/-- A state found by running labels from an initial state. -/
theorem ReachVia.of_run {T : System σ ℓ} {G : σ → ℓ → Prop} [∀ s l, Decidable (G s l)]
    {s : σ} (hinit : T.init s) (ls : List ℓ) (p : σ → Bool)
    (h : (T.runVia G s ls).map p = some true) : ∃ s', ReachVia T G s' ∧ p s' = true := by
  obtain ⟨s', hrun, hp⟩ := Option.map_eq_some_iff.mp h
  exact ⟨s', ReachVia.runVia (.init hinit) hrun, hp⟩

/-! ## Simulation -/

/-- A forward simulation: every initial state is matched and every step is
answered by a run (possibly empty, so stuttering is allowed). -/
structure Simulation {τ : Type w} {κ : Type x} (T : System σ ℓ) (U : System τ κ)
    (R : σ → τ → Prop) : Prop where
  init : ∀ s, T.init s → ∃ t, U.init t ∧ R s t
  step : ∀ s l s' t, R s t → T.step s l = some s' →
    ∃ ks t', U.run t ks = some t' ∧ R s' t'

theorem Simulation.reach {τ : Type w} {κ : Type x} {T : System σ ℓ}
    {U : System τ κ} {R : σ → τ → Prop} (h : Simulation T U R) {s : σ}
    (hs : Reach T s) : ∃ t, Reach U t ∧ R s t := by
  induction hs with
  | init h0 =>
      obtain ⟨t, ht, hR⟩ := h.init _ h0
      exact ⟨t, .init ht, hR⟩
  | step l _ _ hstep ih =>
      obtain ⟨t, ht, hR⟩ := ih
      obtain ⟨ks, t', hrun, hR'⟩ := h.step _ l _ t hR hstep
      exact ⟨t', ht.run hrun, hR'⟩

/-! ## Deterministic machines with outputs -/

/-- A deterministic machine: every input changes the state and answers. -/
structure Machine (σ : Type u) (ι : Type v) (ο : Type w) where
  step : σ → ι → σ × ο

namespace Machine

variable {ι : Type v} {ο : Type w}

/-- The state after a list of inputs, and the answers in order. -/
def run (M : Machine σ ι ο) : σ → List ι → σ × List ο
  | s, [] => (s, [])
  | s, i :: is =>
      let (s', o) := M.step s i
      let (s'', os) := M.run s' is
      (s'', o :: os)

/-- The answers to a list of inputs. -/
def outputs (M : Machine σ ι ο) (s : σ) (is : List ι) : List ο := (M.run s is).2

@[simp] theorem outputs_cons (M : Machine σ ι ο) (s : σ) (i : ι) (is : List ι) :
    M.outputs s (i :: is) = (M.step s i).2 :: M.outputs (M.step s i).1 is := rfl

/-- What a step does not bring about, a run does not. -/
theorem of_run {M : Machine σ ι ο} {Q : σ → Prop} (hback : ∀ s i, Q (M.step s i).1 → Q s)
    {is : List ι} : ∀ {s : σ}, Q (M.run s is).1 → Q s := by
  induction is with
  | nil => intro s h; exact h
  | cons i is ih => intro s h; exact hback s i (ih h)

/-- Two machines related by `R` answer inputs in `P` alike, as long as the
second one stays in `Q`, to which it does not come back. -/
theorem outputs_eq {τ : Type x} {M : Machine σ ι ο} {N : Machine τ ι ο}
    {R : σ → τ → Prop} {P : ι → Prop} {Q : τ → Prop}
    (hback : ∀ t i, Q (N.step t i).1 → Q t)
    (hstep : ∀ s t i, R s t → P i → Q (N.step t i).1 →
      (M.step s i).2 = (N.step t i).2 ∧ R (M.step s i).1 (N.step t i).1)
    {is : List ι} : ∀ {s : σ} {t : τ}, R s t → (∀ i ∈ is, P i) →
      Q (N.run t is).1 → M.outputs s is = N.outputs t is := by
  induction is with
  | nil => intro s t _ _ _; rfl
  | cons i is ih =>
      intro s t hR hP hQ
      have hrest : Q (N.run (N.step t i).1 is).1 := hQ
      obtain ⟨ho, hR'⟩ := hstep s t i hR (hP i (List.mem_cons_self ..)) (of_run hback hrest)
      have htail := ih hR' (fun j hj => hP j (List.mem_cons_of_mem _ hj)) hrest
      rw [outputs_cons, outputs_cons, ho, htail]

end Machine

end Lts
