import Mathlib.Algebra.Order.BigOperators.Group.List
import Mathlib.Algebra.Order.Ring.Nat
import Axp.Lts

/-!
# Potentials

A number that every step lowers by what it costs, up to what it gives back,
bounds the cost of a run by what the run has given back and the number it began
with. Where some step is always left that lowers it, it leads to the end.
-/

namespace Lts

universe u v

variable {σ : Type u} {ℓ : Type v}

/-- A step that keeps to the invariant costs `cost`, and may give back
`gain`. -/
structure Potential (T : System σ ℓ) (I : σ → Prop) (rank : σ → Nat) (cost gain : ℓ → Nat) :
    Prop where
  keep : ∀ s l s', I s → T.step s l = some s' → I s'
  step : ∀ s l s', I s → T.step s l = some s' → rank s' + cost l ≤ rank s + gain l

variable {T : System σ ℓ} {I : σ → Prop} {rank : σ → Nat} {cost gain : ℓ → Nat}

/-- A run costs no more than it begins with and is given. -/
theorem Potential.run (h : Potential T I rank cost gain) {ls : List ℓ} :
    ∀ {s s' : σ}, I s → T.run s ls = some s' →
      rank s' + (ls.map cost).sum ≤ rank s + (ls.map gain).sum := by
  induction ls with
  | nil =>
      intro s s' _ hrun
      obtain rfl := Option.some.inj hrun
      exact Nat.le_refl _
  | cons l ls ih =>
      intro s s' hs hrun
      obtain ⟨m, hm, hrest⟩ := System.run_cons.mp hrun
      have hfirst := h.step s l m hs hm
      have hlater := ih (h.keep s l m hs hm) hrest
      rw [List.map_cons, List.sum_cons, List.map_cons, List.sum_cons]
      omega

/-- Where every state that is not at the end has a step down, with a label from
`L`, there is a way to the end of at most `rank` such steps. -/
theorem exists_run_of_descent (T : System σ ℓ) (rank : σ → Nat) {I P : σ → Prop} {L : ℓ → Prop}
    (hdown : ∀ s, I s → ¬P s → ∃ l s', L l ∧ T.step s l = some s' ∧ I s' ∧ rank s' < rank s)
    (s : σ) (hs : I s) :
    ∃ ls s', (∀ l ∈ ls, L l) ∧ ls.length ≤ rank s ∧ T.run s ls = some s' ∧ I s' ∧ P s' := by
  induction hn : rank s using Nat.strongRecOn generalizing s with
  | _ n ih =>
      by_cases hend : P s
      · exact ⟨[], s, fun l hl => absurd hl List.not_mem_nil, Nat.zero_le _, rfl, hs, hend⟩
      · obtain ⟨l, m, hl, hm, hkeep, hlt⟩ := hdown s hs hend
        obtain ⟨ls, s', hls, hlen, hrun, hkeep', hend'⟩ := ih (rank m) (hn ▸ hlt) m hkeep rfl
        refine ⟨l :: ls, s', List.forall_mem_cons.mpr ⟨hl, hls⟩, ?_,
          System.run_cons.mpr ⟨m, hm, hrun⟩, hkeep', hend'⟩
        rw [List.length_cons]
        omega

end Lts
