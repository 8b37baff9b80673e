import Mathlib.Data.List.AList
import Mathlib.Data.Set.Function

/-!
# Directories

A finite table from names to items is a *directory* of a set of items under a
naming when every item is filed under its name and nothing else is in the
table. `Names` says so, and has one rule for each way such a table is edited:
filing a new item, taking one out, renaming one.

The rules need the name to be free. When it is not, the table silently drops
the item that was there, and that item is `Lost`: filed under no name, and no
later filing of other items brings it back.
-/

namespace Directory

universe u v

variable {κ : Type u} {α : Type v} [DecidableEq κ]

/-- The table files exactly the items of `S`, each under its name. -/
def Names (name : α → κ) (S : Set α) (table : AList fun _ : κ => α) : Prop :=
  ∀ k a, table.lookup k = some a ↔ a ∈ S ∧ name a = k

/-- The item is filed under no name. -/
def Lost (table : AList fun _ : κ => α) (a : α) : Prop :=
  ∀ k, table.lookup k ≠ some a

variable {name name' : α → κ} {S : Set α} {table : AList fun _ : κ => α} {a b : α} {k : κ}

theorem lookup_insert_iff {k' : κ} : (table.insert k b).lookup k' = some a ↔
    (k' = k ∧ a = b) ∨ (k' ≠ k ∧ table.lookup k' = some a) := by
  by_cases h : k' = k
  · rw [h, AList.lookup_insert]
    simp [eq_comm]
  · rw [AList.lookup_insert_ne h]
    simp [h]

theorem lookup_erase_iff {k' : κ} :
    (table.erase k).lookup k' = some a ↔ k' ≠ k ∧ table.lookup k' = some a := by
  by_cases h : k' = k
  · rw [h, AList.lookup_erase]
    simp
  · rw [AList.lookup_erase_ne h]
    simp [h]

theorem lookup_erase_none {k' : κ} (h : table.lookup k' = none) :
    (table.erase k).lookup k' = none := by
  by_cases hk : k' = k
  · rw [hk, AList.lookup_erase]
  · rw [AList.lookup_erase_ne hk, h]

/-! ## Editing a directory -/

namespace Names

theorem lookup (h : Names name S table) (ha : a ∈ S) : table.lookup (name a) = some a :=
  (h _ _).mpr ⟨ha, rfl⟩

/-- Two items under one name would be one item. -/
theorem injOn (h : Names name S table) : Set.InjOn name S := by
  intro a ha b hb hab
  have := h.lookup ha
  rw [hab, h.lookup hb] at this
  exact (Option.some.inj this).symm

theorem congr (h : Names name S table) (heq : ∀ a ∈ S, name a = name' a) :
    Names name' S table := by
  intro k a
  rw [h k a]
  exact and_congr_right fun ha => by rw [heq a ha]

theorem insert (h : Names name S table) (hfree : ∀ a ∈ S, name a ≠ name b) :
    Names name (Insert.insert b S) (table.insert (name b) b) := by
  intro k a
  rw [lookup_insert_iff, h k a]
  constructor
  · rintro (⟨rfl, rfl⟩ | ⟨-, ha, hname⟩)
    · exact ⟨Set.mem_insert _ _, rfl⟩
    · exact ⟨Set.mem_insert_of_mem _ ha, hname⟩
  · rintro ⟨rfl | ha, rfl⟩
    · exact Or.inl ⟨rfl, rfl⟩
    · exact Or.inr ⟨hfree a ha, ha, rfl⟩

theorem erase (h : Names name S table) (hb : b ∈ S) :
    Names name (S \ {b}) (table.erase (name b)) := by
  intro k a
  rw [lookup_erase_iff, h k a]
  constructor
  · rintro ⟨hk, ha, rfl⟩
    refine ⟨⟨ha, ?_⟩, rfl⟩
    rintro rfl
    exact hk rfl
  · rintro ⟨⟨ha, hne⟩, rfl⟩
    exact ⟨fun hname => hne (h.injOn ha hb hname), ha, rfl⟩

/-- Filing under a taken name drops the item that was there. -/
theorem lost_insert (h : Names name S table) (hne : a ≠ b) (hk : name a = k) :
    Lost (table.insert k b) a := by
  intro k' hlook
  rcases lookup_insert_iff.mp hlook with ⟨-, hab⟩ | ⟨hk', hold⟩
  · exact hne hab
  · exact hk' (((h k' a).mp hold).2.symm.trans hk)

/-- Filing a new item: the table stays a directory if the names stay distinct,
and loses an item if they do not. -/
theorem insert_cases (h : Names name S table) (hb : b ∉ S) :
    (Set.InjOn name (Insert.insert b S)
        ∧ Names name (Insert.insert b S) (table.insert (name b) b))
      ∨ (¬Set.InjOn name (Insert.insert b S)
        ∧ ∃ a ∈ S, Lost (table.insert (name b) b) a) := by
  have hinj : Set.InjOn name (Insert.insert b S) ↔ ∀ a ∈ S, name a ≠ name b := by
    rw [Set.injOn_insert hb, Set.mem_image, and_iff_right h.injOn, not_exists]
    exact forall_congr' fun a => not_and
  rw [hinj]
  by_cases hfree : ∀ a ∈ S, name a ≠ name b
  · exact Or.inl ⟨hfree, h.insert hfree⟩
  · refine Or.inr ⟨hfree, ?_⟩
    obtain ⟨a, ha, hname⟩ : ∃ a ∈ S, name a = name b := by
      simpa using hfree
    refine ⟨a, ha, h.lost_insert ?_ hname⟩
    rintro rfl
    exact hb ha

/-- Taking an item out and filing it again under another name. -/
theorem rename_cases (h : Names name S table) (hb : b ∈ S)
    (heq : ∀ a ∈ S, a ≠ b → name a = name' a) :
    (Set.InjOn name' S ∧ Names name' S ((table.erase (name b)).insert (name' b) b))
      ∨ (¬Set.InjOn name' S
        ∧ ∃ a ∈ S, Lost ((table.erase (name b)).insert (name' b) b) a) := by
  have herase : Names name' (S \ {b}) (table.erase (name b)) :=
    (h.erase hb).congr fun a ha => heq a ha.1 ha.2
  have hfile := herase.insert_cases (b := b) fun hmem => hmem.2 rfl
  rw [Set.insert_sdiff_singleton, Set.insert_eq_of_mem hb] at hfile
  exact hfile.imp_right fun ⟨hinj, a, ha, hlost⟩ => ⟨hinj, a, ha.1, hlost⟩

theorem empty (name : α → κ) : Names name ∅ (∅ : AList fun _ : κ => α) := by
  intro k a
  rw [AList.lookup_empty]
  simp

/-- A name is taken if an item of the table has it. -/
theorem mem_iff (h : Names name S table) : k ∈ table ↔ ∃ a ∈ S, name a = k := by
  rw [← AList.lookup_isSome, Option.isSome_iff_exists]
  exact exists_congr fun a => h k a

/-! ### Filing one by one -/

section File

variable {ε : Type} {step : (AList fun _ : κ => α) → α → Except ε (AList fun _ : κ => α)}
  {fit : α → Prop} {l : List α}

/-- A loop that files fit items under free names leaves a directory of them
with the old ones. -/
theorem of_foldlM (hstep : ∀ t x t', step t x = .ok t' ↔
      fit x ∧ name x ∉ t ∧ t' = t.insert (name x) x) :
    ∀ {S : Set α} {table table'}, Names name S table → l.foldlM step table = .ok table' →
      (∀ x ∈ l, fit x) ∧ (l.map name).Nodup ∧ (∀ x ∈ l, ∀ a ∈ S, name a ≠ name x)
        ∧ Names name (S ∪ { x | x ∈ l }) table' := by
  induction l with
  | nil =>
      intro S table table' hnames h
      obtain rfl := Except.ok.inj h
      simpa using hnames
  | cons x l ih =>
      intro S table table' hnames h
      rw [List.foldlM_cons] at h
      cases hx : step table x with
      | error e =>
          rw [hx] at h
          cases h
      | ok filed =>
          rw [hx] at h
          obtain ⟨hfit, hfree, rfl⟩ := (hstep _ _ _).mp hx
          have hfree : ∀ a ∈ S, name a ≠ name x := fun a ha hname =>
            hfree (hnames.mem_iff.mpr ⟨a, ha, hname⟩)
          obtain ⟨hall, hnodup, hnew, hrest⟩ := ih (hnames.insert hfree) h
          refine ⟨List.forall_mem_cons.mpr ⟨hfit, hall⟩, ?_, ?_, ?_⟩
          · rw [List.map_cons, List.nodup_cons, List.mem_map]
            refine ⟨?_, hnodup⟩
            rintro ⟨y, hy, hname⟩
            exact hnew y hy x (Set.mem_insert _ _) hname.symm
          · refine List.forall_mem_cons.mpr ⟨hfree, fun y hy a ha => ?_⟩
            exact hnew y hy a (Set.mem_insert_of_mem _ ha)
          · have hset : Insert.insert x S ∪ { y | y ∈ l } = S ∪ { y | y ∈ x :: l } := by
              ext y
              simp [or_assoc, or_left_comm]
            rw [← hset]
            exact hrest

/-- It goes through if the items are fit and their names are free and
distinct. -/
theorem foldlM_isOk (hstep : ∀ t x t', step t x = .ok t' ↔
      fit x ∧ name x ∉ t ∧ t' = t.insert (name x) x) :
    ∀ {S : Set α} {table}, Names name S table → (∀ x ∈ l, fit x) → (l.map name).Nodup →
      (∀ x ∈ l, ∀ a ∈ S, name a ≠ name x) → ∃ table', l.foldlM step table = .ok table' := by
  induction l with
  | nil =>
      intro S table _ _ _ _
      exact ⟨table, rfl⟩
  | cons x l ih =>
      intro S table hnames hfit hnodup hfree
      obtain ⟨hx, hfit⟩ := List.forall_mem_cons.mp hfit
      obtain ⟨hfreex, hfree⟩ := List.forall_mem_cons.mp hfree
      rw [List.map_cons, List.nodup_cons, List.mem_map] at hnodup
      obtain ⟨hnew, hnodup⟩ := hnodup
      have hfiled : step table x = .ok (table.insert (name x) x) := by
        refine (hstep _ _ _).mpr ⟨hx, fun hmem => ?_, rfl⟩
        obtain ⟨a, ha, hname⟩ := hnames.mem_iff.mp hmem
        exact hfreex a ha hname
      rw [List.foldlM_cons, hfiled]
      refine ih (hnames.insert hfreex) hfit hnodup fun y hy a ha => ?_
      rcases ha with rfl | ha
      · exact fun hname => hnew ⟨y, hy, hname.symm⟩
      · exact hfree y hy a ha

end File

end Names

/-! ## Lost items stay lost -/

namespace Lost

theorem insert (h : Lost table a) (hne : a ≠ b) : Lost (table.insert k b) a := by
  intro k' hlook
  rcases lookup_insert_iff.mp hlook with ⟨-, hab⟩ | ⟨-, hold⟩
  · exact hne hab
  · exact h k' hold

theorem erase (h : Lost table a) : Lost (table.erase k) a :=
  fun k' hlook => h k' (lookup_erase_iff.mp hlook).2

/-- A lost item is never what a lookup found. -/
theorem ne_of_lookup (h : Lost table a) (hb : table.lookup k = some b) : a ≠ b := by
  rintro rfl
  exact h k hb

end Lost

end Directory
