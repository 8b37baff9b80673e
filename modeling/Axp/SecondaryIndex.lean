import Mathlib.Data.List.Perm.Subperm
import Mathlib.Data.List.Nodup
import Mathlib.Logic.Function.Basic

/-!
# Secondary indices

Rows of a key and its group, no key twice, in the order they were added, can be
looked up in two ways: by key, which gives the group, and by group, which gives
the keys in that order (`Indexes`).

A store that keeps the two apart has to keep them in step. A new key goes to
the end of its group's list; a key that is taken out has to leave that one list,
since it stands in no other. And what is still there is there in the order it
was added in, so the rows need not be kept at all (`Indexes.keys_of_added`).
-/

namespace SecondaryIndex

variable {κ γ : Type} [DecidableEq γ]

/-- The rows by key, and the keys by group. -/
structure Indexes (rows : List (κ × γ)) (group : κ → Option γ) (keys : γ → List κ) : Prop where
  nodup : (rows.map Prod.fst).Nodup
  group_iff : ∀ k g, group k = some g ↔ (k, g) ∈ rows
  keys_eq : ∀ g, keys g = (rows.filter (·.2 = g)).map Prod.fst

/-- What is left of a list without repetitions, picked out of it. -/
theorem eq_filter_of_sublist {α : Type} {l all : List α} {p : α → Bool} (h : l.Sublist all)
    (hall : all.Nodup) (hp : ∀ a, p a = true ↔ a ∈ l) : l = all.filter p := by
  have hkept : l.filter p = l := List.filter_eq_self.mpr fun a ha => (hp a).mpr ha
  have hsub : l.Sublist (all.filter p) := hkept ▸ h.filter p
  have hback : all.filter p ⊆ l := fun a ha => (hp a).mp (List.of_mem_filter ha)
  exact hsub.eq_of_length_le (List.subperm_of_subset (hall.filter p) hback).length_le

namespace Indexes

variable {rows : List (κ × γ)} {group : κ → Option γ} {keys : γ → List κ} {k : κ} {g : γ}

theorem empty : Indexes ([] : List (κ × γ)) (fun _ => none) (fun _ => []) where
  nodup := List.nodup_nil
  group_iff _ g := iff_of_false (Option.some_ne_none g).symm List.not_mem_nil
  keys_eq _ := rfl

/-- A key stands in the list of its group, and in no other. -/
theorem mem_keys (h : Indexes rows group keys) : k ∈ keys g ↔ group k = some g := by
  rw [h.keys_eq, h.group_iff, List.mem_map]
  constructor
  · rintro ⟨⟨k', g'⟩, hrow, rfl⟩
    obtain ⟨hrow, hg⟩ := List.mem_filter.mp hrow
    rw [← of_decide_eq_true hg]
    exact hrow
  · intro hrow
    exact ⟨(k, g), List.mem_filter.mpr ⟨hrow, decide_eq_true rfl⟩, rfl⟩

theorem keys_nodup (h : Indexes rows group keys) : (keys g).Nodup := by
  rw [h.keys_eq]
  exact h.nodup.sublist (List.filter_sublist.map _)

theorem key_notMem (h : Indexes rows group keys) (hk : group k = none) :
    k ∉ rows.map Prod.fst := by
  intro hmem
  obtain ⟨⟨k', g⟩, hrow, rfl⟩ := List.mem_map.mp hmem
  rw [(h.group_iff k' g).mpr hrow] at hk
  cases hk

/-- The keys of a group are those of all keys ever added that have it still. -/
theorem keys_of_added (h : Indexes rows group keys) {all : List (κ × γ)}
    (hsub : rows.Sublist all) (hall : (all.map Prod.fst).Nodup) (g : γ) :
    keys g = (all.filter (group ·.1 = some g)).map Prod.fst := by
  have hrows : rows = all.filter (fun row => group row.1 = some row.2) :=
    eq_filter_of_sublist hsub hall.of_map fun row => by rw [decide_eq_true_eq, h.group_iff]
  have hgroup : ∀ row ∈ all, row.2 = g ∧ group row.1 = some row.2 ↔ group row.1 = some g := by
    intro row hrow
    constructor
    · rintro ⟨rfl, hrow⟩
      exact hrow
    · intro hkey
      have hmem := hsub.subset ((h.group_iff row.1 g).mp hkey)
      -- No two rows have the same key, so this is the row itself.
      have hsame : row = (row.1, g) := List.inj_on_of_nodup_map hall hrow hmem rfl
      rw [hsame]
      exact ⟨rfl, hkey⟩
  calc keys g = (rows.filter (·.2 = g)).map Prod.fst := h.keys_eq g
    _ = ((all.filter (fun row => group row.1 = some row.2)).filter (·.2 = g)).map Prod.fst := by
        rw [← hrows]
    _ = (all.filter (group ·.1 = some g)).map Prod.fst := by
        rw [List.filter_filter]
        refine congrArg _ (List.filter_congr fun row hrow => ?_)
        rw [← Bool.decide_and]
        exact decide_eq_decide.mpr (hgroup row hrow)

/-! ### Adding a row -/

variable [DecidableEq κ]

theorem append (h : Indexes rows group keys) (hk : group k = none) (g : γ) :
    Indexes (rows ++ [(k, g)]) (Function.update group k (some g))
      (Function.update keys g (keys g ++ [k])) where
  nodup := by
    rw [List.map_append, List.nodup_append_comm]
    exact List.nodup_cons.mpr ⟨h.key_notMem hk, h.nodup⟩
  group_iff k' g' := by
    rw [List.mem_append, List.mem_singleton, Prod.mk.injEq]
    by_cases hkey : k' = k
    · have hold : (k', g') ∉ rows := fun hrow =>
        h.key_notMem hk (List.mem_map.mpr ⟨(k', g'), hrow, hkey⟩)
      rw [hkey, Function.update_self, Option.some.injEq]
      rw [hkey] at hold
      exact ⟨fun hg => .inr ⟨rfl, hg.symm⟩, fun hor => ((hor.resolve_left hold).2).symm⟩
    · rw [Function.update_of_ne hkey, h.group_iff]
      exact ⟨.inl, fun hor => hor.resolve_right fun hnew => hkey hnew.1⟩
  keys_eq g' := by
    rw [List.filter_append, List.map_append, ← h.keys_eq]
    by_cases hg : g' = g
    · rw [hg, Function.update_self]
      simp
    · rw [Function.update_of_ne hg]
      simp [Ne.symm hg]

/-! ### Taking a row out -/

/-- Out of the list of its group is out of every list. -/
theorem update_filter (h : Indexes rows group keys) (hk : group k = some g) :
    Function.update keys g ((keys g).filter (· ≠ k)) = fun g' => (keys g').filter (· ≠ k) := by
  funext g'
  by_cases hg : g' = g
  · rw [hg, Function.update_self]
  · rw [Function.update_of_ne hg]
    refine (List.filter_eq_self.mpr fun k' hk' => ?_).symm
    refine decide_eq_true ?_
    rintro rfl
    exact hg (Option.some.inj ((h.mem_keys.mp hk').symm.trans hk))

theorem remove (h : Indexes rows group keys) (k : κ) :
    Indexes (rows.filter (·.1 ≠ k)) (Function.update group k none)
      (fun g => (keys g).filter (· ≠ k)) where
  nodup := h.nodup.sublist (List.filter_sublist.map _)
  group_iff k' g' := by
    rw [List.mem_filter, decide_eq_true_eq]
    by_cases hkey : k' = k
    · rw [hkey, Function.update_self]
      exact iff_of_false (Option.some_ne_none g').symm fun hrow => hrow.2 rfl
    · rw [Function.update_of_ne hkey, h.group_iff]
      exact (and_iff_left hkey).symm
  keys_eq g' := by
    rw [h.keys_eq, List.filter_map, List.filter_filter, List.filter_filter]
    refine congrArg _ (List.filter_congr fun row _ => ?_)
    exact Bool.and_comm _ _

end Indexes

end SecondaryIndex
