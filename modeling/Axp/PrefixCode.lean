import Mathlib.Data.List.Basic

/-!
# Prefix codes and their concatenations

An append-only file is a concatenation of encodings. `PrefixCode P enc` says
that, on the valid values `P`, one encoding followed by anything determines
the value and what follows; concatenations then split in one way only
(`PrefixCode.split`), so a file that ends inside an entry is no concatenation
at all (`PrefixCode.torn`).
-/

namespace Coding

universe u v

variable {α : Type u} {β : Type v}

/-- On values satisfying `P`, an encoding is never empty and never a proper
prefix of what another value's encoding starts. -/
structure PrefixCode (P : α → Prop) (enc : α → List β) : Prop where
  ne_nil : ∀ a, P a → enc a ≠ []
  inj : ∀ a b x y, P a → P b → enc a ++ x = enc b ++ y → a = b

namespace PrefixCode

variable {P : α → Prop} {enc : α → List β}

/-- A concatenation that starts with the encodings of `as` is the encodings of
`as` followed by those of the remaining entries. -/
theorem split (h : PrefixCode P enc) : ∀ {as bs : List α} {x : List β},
    (∀ a ∈ as, P a) → (∀ b ∈ bs, P b) → as.flatMap enc ++ x = bs.flatMap enc →
      ∃ cs, bs = as ++ cs ∧ x = cs.flatMap enc
  | [], bs, x, _, _, heq => ⟨bs, rfl, heq⟩
  | a :: as, [], x, ha, _, heq => by
      rw [List.flatMap_cons, List.append_assoc] at heq
      exact absurd (List.append_eq_nil_iff.mp heq).1
        (h.ne_nil a (ha a (List.mem_cons_self ..)))
  | a :: as, b :: bs, x, ha, hb, heq => by
      rw [List.flatMap_cons, List.flatMap_cons, List.append_assoc] at heq
      obtain rfl := h.inj a b _ _ (ha a (List.mem_cons_self ..))
        (hb b (List.mem_cons_self ..)) heq
      obtain ⟨cs, rfl, hx⟩ := split h (fun c hc => ha c (List.mem_cons_of_mem _ hc))
        (fun c hc => hb c (List.mem_cons_of_mem _ hc)) (List.append_cancel_left heq)
      exact ⟨cs, rfl, hx⟩

/-- A concatenation cut inside an entry, after some but not all of its
elements, is not a concatenation. -/
theorem torn (h : PrefixCode P enc) {as bs : List α} {e : α} {k : Nat}
    (ha : ∀ a ∈ as, P a) (hb : ∀ b ∈ bs, P b) (he : P e) (hk0 : 0 < k)
    (hk : k < (enc e).length) : as.flatMap enc ++ (enc e).take k ≠ bs.flatMap enc := by
  intro heq
  obtain ⟨cs, rfl, hx⟩ := h.split ha hb heq
  have hlen : ((enc e).take k).length = k := by
    rw [List.length_take]
    omega
  cases cs with
  | nil =>
      rw [hx] at hlen
      simp at hlen
      omega
  | cons c cs =>
      rw [List.flatMap_cons] at hx
      have hc : P c := hb c (List.mem_append_right _ (List.mem_cons_self ..))
      have hwhole : enc e ++ [] = enc c ++ (cs.flatMap enc ++ (enc e).drop k) := by
        rw [← List.append_assoc, ← hx, List.take_append_drop, List.append_nil]
      obtain rfl := h.inj e c _ _ he hc hwhole
      have hle := congrArg List.length hx
      rw [hlen, List.length_append] at hle
      omega

end PrefixCode

end Coding
