import Mathlib.Data.List.Infix

/-!
# Lists cut at a separator

Two facts about text that is read in segments: it is cut at its last
separator in one way only, and its last segments are another text's segments
exactly when it is that text, or ends in the separator followed by it.
-/

namespace Segments

universe u

variable {α : Type u} {sep : α} {p q n m xs ys : List α}

/-- A list is split at the last separator in one way only. -/
theorem append_cons_inj_last (hn : sep ∉ n) (hm : sep ∉ m)
    (h : p ++ sep :: n = q ++ sep :: m) : p = q ∧ n = m := by
  have hsplit : ∀ {as n m : List α}, sep ∉ n → sep :: n = as ++ sep :: m → as = [] ∧ n = m := by
    intro as n m hn h
    cases as with
    | nil => exact ⟨rfl, (List.cons.inj h).2⟩
    | cons x as =>
        refine absurd ?_ hn
        rw [(List.cons.inj h).2]
        exact List.mem_append_right _ List.mem_cons_self
  rcases List.append_eq_append_iff.mp h with ⟨as, hq, has⟩ | ⟨as, hp, has⟩
  · obtain ⟨rfl, hnm⟩ := hsplit hn has
    exact ⟨by rw [hq, List.append_nil], hnm⟩
  · obtain ⟨rfl, hmn⟩ := hsplit hm has
    exact ⟨by rw [hp, List.append_nil], hmn.symm⟩

theorem intercalate_append (sep : α) {ls ls' : List (List α)} (h : ls ≠ []) (h' : ls' ≠ []) :
    [sep].intercalate (ls ++ ls') = [sep].intercalate ls ++ sep :: [sep].intercalate ls' := by
  induction ls with
  | nil => exact absurd rfl h
  | cons l ls ih =>
      cases ls with
      | nil =>
          rw [List.singleton_append, List.intercalate_cons_of_ne_nil h',
            List.intercalate_singleton]
          simp
      | cons l' ls =>
          have htail := ih (List.cons_ne_nil l' ls)
          rw [List.cons_append, List.intercalate_cons_of_ne_nil (by simp), htail,
            List.intercalate_cons_of_ne_nil (List.cons_ne_nil l' ls)]
          simp

variable [BEq α] [LawfulBEq α]

theorem splitOn_injective (h : xs.splitOn sep = ys.splitOn sep) : xs = ys := by
  have hxs : List.intercalate [sep] (List.splitOn sep xs) = xs := List.intercalate_splitOn sep
  rw [← hxs, h, List.intercalate_splitOn]

/-- The segments of a list end in those of another exactly if it is that
list, or ends in the separator and that list. -/
theorem splitOn_suffix_iff :
    xs.splitOn sep <:+ ys.splitOn sep ↔ ys = xs ∨ ∃ zs, ys = zs ++ sep :: xs := by
  constructor
  · rintro ⟨front, hfront⟩
    cases front with
    | nil => exact Or.inl (splitOn_injective hfront).symm
    | cons seg front =>
        refine Or.inr ⟨[sep].intercalate (seg :: front), ?_⟩
        have hjoin := congrArg [sep].intercalate hfront
        rw [intercalate_append sep (List.cons_ne_nil seg front) (List.splitOn_ne_nil sep xs),
          List.intercalate_splitOn, List.intercalate_splitOn] at hjoin
        exact hjoin.symm
  · rintro (rfl | ⟨zs, rfl⟩)
    · exact List.suffix_refl _
    · rw [List.splitOn_append_cons_self]
      exact List.suffix_append _ _

end Segments
