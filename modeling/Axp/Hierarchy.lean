import Mathlib.Data.List.Infix

/-!
# Rules on a hierarchy

A rule is on a place, named from the root, and grants rights on that place and
on everything beneath it. There are no rules that take rights away, so more
rules grant more, and what a list of rules grants is what its parts grant.
-/

namespace Hierarchy

variable {N R : Type}

/-- The rights that are granted on a place and beneath it. -/
structure Rule (N R : Type) where
  place : List N
  rights : List R

/-- A rule on the place or above it grants the right. -/
def Grants (rules : List (Rule N R)) (place : List N) (right : R) : Prop :=
  ∃ rule ∈ rules, rule.place <+: place ∧ right ∈ rule.rights

variable {rules rules' : List (Rule N R)} {place : List N} {right : R}

theorem grants_append :
    Grants (rules ++ rules') place right ↔
      Grants rules place right ∨ Grants rules' place right := by
  simp only [Grants, List.mem_append, or_and_right, exists_or]

/-- Rules that come from a list, each with its place and rights. -/
theorem grants_map {α : Type} {f : α → Rule N R} {l : List α} :
    Grants (l.map f) place right ↔ ∃ a ∈ l, (f a).place <+: place ∧ right ∈ (f a).rights := by
  simp only [Grants, List.mem_map, exists_exists_and_eq_and]

end Hierarchy
