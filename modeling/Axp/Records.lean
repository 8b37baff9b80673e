import Mathlib.Data.List.Basic

/-!
# Records cut from a stream

A reader that cuts a stream at its terminators and keeps what it has read of
the record still open. `feed` is one read; `feed_append` says that reading in
two goes is reading at once, which is all there is to say about how a stream
arrives.

A record may carry an item, carry none, or be malformed. `decode` takes the
items of a list of records up to the first malformed one. A reader that
decodes what each read has closed, and gives up the whole read when it meets a
malformed record, may deliver less: `deliver` is what it delivers. `Drops` says
of a list of records that its first malformed one comes after an item, which
is exactly when reading them at once loses something
(`readOf_eq_decode_iff`).
-/

namespace Records

universe u v w

/-! ## Cutting at terminators -/

section Feed

variable {α : Type u} (p : α → Bool)

/-- Read `xs` with `acc` already read of the open record: the records closed
on the way, and the record open at the end. -/
def feed : List α → List α → List (List α) × List α
  | acc, [] => ([], acc)
  | acc, x :: xs =>
      if p x then (acc :: (feed [] xs).1, (feed [] xs).2)
      else feed (acc ++ [x]) xs

variable {p} {acc body xs ys : List α} {t : α}

@[simp] theorem feed_nil : feed p acc [] = ([], acc) := rfl

/-- Reading in two goes is reading at once. -/
theorem feed_append (acc xs ys : List α) :
    feed p acc (xs ++ ys) =
      ((feed p acc xs).1 ++ (feed p (feed p acc xs).2 ys).1,
        (feed p (feed p acc xs).2 ys).2) := by
  induction xs generalizing acc with
  | nil => rfl
  | cons x xs ih =>
      rw [List.cons_append, feed, feed]
      split
      · rw [ih]
        rfl
      · exact ih (acc ++ [x])

/-- Without a terminator the record stays open. -/
theorem feed_open (h : ∀ x ∈ body, p x = false) : feed p acc body = ([], acc ++ body) := by
  induction body generalizing acc with
  | nil => rw [feed_nil, List.append_nil]
  | cons x body ih =>
      have hx : ¬p x = true := by simp [h x List.mem_cons_self]
      rw [feed, if_neg hx, ih fun y hy => h y (List.mem_cons_of_mem _ hy)]
      simp

/-- The first terminator closes the open record. -/
theorem feed_record (h : ∀ x ∈ body, p x = false) (ht : p t = true) :
    feed p acc (body ++ t :: xs) = ((acc ++ body) :: (feed p [] xs).1, (feed p [] xs).2) := by
  rw [feed_append, feed_open h]
  show ([] ++ (feed p (acc ++ body) (t :: xs)).1, (feed p (acc ++ body) (t :: xs)).2) = _
  rw [feed, if_pos ht]
  rfl

/-- A symbol closes at most one record. -/
theorem feed_length_le (acc xs : List α) : (feed p acc xs).1.length ≤ xs.length := by
  induction xs generalizing acc with
  | nil => exact Nat.le_refl 0
  | cons x xs ih =>
      rw [feed]
      split
      · exact Nat.succ_le_succ (ih [])
      · exact Nat.le_succ_of_le (ih (acc ++ [x]))

/-- Nor does the record left open. -/
theorem feed_rest (hacc : ∀ x ∈ acc, p x = false) : ∀ x ∈ (feed p acc xs).2, p x = false := by
  induction xs generalizing acc with
  | nil => exact hacc
  | cons x xs ih =>
      rw [feed]
      split
      · exact ih (by simp)
      · rename_i hx
        refine ih fun y hy => ?_
        rcases List.mem_append.mp hy with hy | hy
        · exact hacc y hy
        · rw [List.mem_singleton.mp hy]
          simpa using hx

end Feed

/-! ## Decoding records -/

section Decode

variable {ρ : Type u} {β : Type v} {ε : Type w} (f : ρ → Except ε (Option β))

/-- The items of the records up to the first malformed one, and that one's
error. -/
def decode : List ρ → List β × Option ε
  | [] => ([], none)
  | r :: rs =>
      match f r with
      | .error e => ([], some e)
      | .ok item => (item.toList ++ (decode rs).1, (decode rs).2)

/-- A read that is given up at a malformed record delivers none of its items. -/
def readOf (rs : List ρ) : List β × Option ε :=
  match (decode f rs).2 with
  | none => decode f rs
  | some e => ([], some e)

/-- What reads that close `reads` deliver, up to the first one that fails. -/
def deliver : List (List ρ) → List β × Option ε
  | [] => ([], none)
  | rs :: reads =>
      match readOf f rs with
      | (items, none) => (items ++ (deliver reads).1, (deliver reads).2)
      | (items, some e) => (items, some e)

variable {f} {rs ss : List ρ} {reads : List (List ρ)}

@[simp] theorem decode_nil : decode f [] = ([], none) := rfl

/-- Nothing is decoded past an error. -/
theorem decode_append_error {e : ε} (h : (decode f rs).2 = some e) :
    decode f (rs ++ ss) = decode f rs := by
  induction rs with
  | nil => simp at h
  | cons r rs ih =>
      rw [List.cons_append, decode, decode]
      cases hr : f r with
      | error e => rfl
      | ok item =>
          rw [decode, hr] at h
          show (item.toList ++ (decode f (rs ++ ss)).1, (decode f (rs ++ ss)).2) = _
          rw [ih h]

theorem decode_append (h : (decode f rs).2 = none) :
    decode f (rs ++ ss) = ((decode f rs).1 ++ (decode f ss).1, (decode f ss).2) := by
  induction rs with
  | nil => rfl
  | cons r rs ih =>
      rw [List.cons_append, decode, decode]
      cases hr : f r with
      | error e => rw [decode, hr] at h; cases h
      | ok item =>
          rw [decode, hr] at h
          show (item.toList ++ (decode f (rs ++ ss)).1, (decode f (rs ++ ss)).2) = _
          rw [ih h, List.append_assoc]

/-- Records that are all well formed are decoded to the end. -/
theorem decode_wellFormed (h : ∀ r ∈ rs, ∃ item, f r = .ok item) : (decode f rs).2 = none := by
  induction rs with
  | nil => rfl
  | cons r rs ih =>
      obtain ⟨item, hitem⟩ := h r List.mem_cons_self
      rw [decode, hitem]
      exact ih fun s hs => h s (List.mem_cons_of_mem _ hs)

/-- An error is that of the first malformed record. -/
theorem decode_error {e : ε} (h : (decode f rs).2 = some e) :
    ∃ pre bad post, rs = pre ++ bad :: post ∧ (∀ r ∈ pre, ∃ item, f r = .ok item)
      ∧ f bad = .error e := by
  induction rs with
  | nil => simp at h
  | cons r rs ih =>
      rw [decode] at h
      cases hr : f r with
      | error e' =>
          rw [hr] at h
          obtain rfl : e' = e := Option.some.inj h
          exact ⟨[], r, rs, rfl, by simp, hr⟩
      | ok item =>
          rw [hr] at h
          obtain ⟨pre, bad, post, rfl, hpre, hbad⟩ := ih h
          refine ⟨r :: pre, bad, post, rfl, fun s hs => ?_, hbad⟩
          rcases List.mem_cons.mp hs with rfl | hs
          · exact ⟨item, hr⟩
          · exact hpre s hs

/-- Every item of well-formed records is decoded. -/
theorem mem_decode {b : β} (h : ∀ r ∈ rs, ∃ item, f r = .ok item) :
    b ∈ (decode f rs).1 ↔ ∃ r ∈ rs, f r = .ok (some b) := by
  induction rs with
  | nil => simp
  | cons r rs ih =>
      obtain ⟨item, hitem⟩ := h r List.mem_cons_self
      rw [decode, hitem]
      show b ∈ item.toList ++ (decode f rs).1 ↔ _
      rw [List.mem_append, ih fun s hs => h s (List.mem_cons_of_mem _ hs), List.exists_mem_cons_iff,
        hitem, Option.mem_toList, Except.ok.injEq]

/-! ## What a failing read drops -/

variable (f) in
/-- The first malformed record comes after one that carries an item. -/
def Drops (rs : List ρ) : Prop :=
  ∃ pre bad post, rs = pre ++ bad :: post ∧ (∀ r ∈ pre, ∃ item, f r = .ok item)
    ∧ (∃ e, f bad = .error e) ∧ ∃ r ∈ pre, ∃ b, f r = .ok (some b)

theorem drops_iff : Drops f rs ↔ (decode f rs).2 ≠ none ∧ (decode f rs).1 ≠ [] := by
  have hsplit : ∀ {pre post : List ρ} {bad : ρ} {e : ε}, (∀ r ∈ pre, ∃ item, f r = .ok item) →
      f bad = .error e → decode f (pre ++ bad :: post) = ((decode f pre).1, some e) := by
    intro pre post bad e hpre hbad
    rw [decode_append (decode_wellFormed hpre), decode, hbad, List.append_nil]
  constructor
  · rintro ⟨pre, bad, post, rfl, hpre, ⟨e, hbad⟩, r, hr, b, hb⟩
    rw [hsplit hpre hbad]
    exact ⟨Option.some_ne_none e, List.ne_nil_of_mem ((mem_decode hpre).mpr ⟨r, hr, hb⟩)⟩
  · rintro ⟨herr, hitems⟩
    obtain ⟨e, he⟩ := Option.ne_none_iff_exists'.mp herr
    obtain ⟨pre, bad, post, rfl, hpre, hbad⟩ := decode_error he
    rw [hsplit hpre hbad] at hitems
    obtain ⟨b, hb⟩ := List.exists_mem_of_ne_nil _ hitems
    obtain ⟨r, hr, hrb⟩ := (mem_decode hpre).mp hb
    exact ⟨pre, bad, post, rfl, hpre, ⟨e, hbad⟩, r, hr, b, hrb⟩

/-- A single record cannot both carry an item and be malformed. -/
theorem not_drops_of_length_le_one (h : rs.length ≤ 1) : ¬Drops f rs := by
  rintro ⟨pre, bad, post, rfl, -, -, r, hr, -⟩
  have hpos := List.length_pos_of_mem hr
  rw [List.length_append, List.length_cons] at h
  omega

/-- A read delivers what its records carry exactly if it has no item to drop. -/
theorem readOf_eq_decode_iff : readOf f rs = decode f rs ↔ ¬Drops f rs := by
  rw [drops_iff, readOf]
  cases he : (decode f rs).2 with
  | none => simp
  | some e =>
      show (([], some e) : List β × Option ε) = decode f rs ↔ _
      have heta : decode f rs = ((decode f rs).1, some e) := Prod.ext rfl he
      constructor
      · rintro h ⟨-, hitems⟩
        exact hitems (congrArg Prod.fst h).symm
      · intro h
        rw [heta, not_not.mp fun hitems => h ⟨Option.some_ne_none e, hitems⟩]

theorem deliver_cons (rs : List ρ) (reads : List (List ρ)) :
    deliver f (rs :: reads) =
      match (readOf f rs).2 with
      | none => ((readOf f rs).1 ++ (deliver f reads).1, (deliver f reads).2)
      | some _ => readOf f rs := by
  rw [deliver]
  rcases readOf f rs with ⟨items, _ | e⟩ <;> rfl

/-- Reads none of which drops an item deliver what the records carry. -/
theorem deliver_eq_decode (h : ∀ rs ∈ reads, ¬Drops f rs) :
    deliver f reads = decode f reads.flatten := by
  induction reads with
  | nil => rfl
  | cons rs reads ih =>
      rw [deliver_cons, readOf_eq_decode_iff.mpr (h rs List.mem_cons_self), List.flatten_cons]
      cases he : (decode f rs).2 with
      | none =>
          rw [decode_append he, ← ih fun ss hss => h ss (List.mem_cons_of_mem _ hss)]
      | some e => rw [decode_append_error he]

/-- However records are shared out among reads, these deliver what the records
carry if all of them taken at once drop nothing. -/
theorem deliver_of_not_drops (h : ¬Drops f reads.flatten) :
    deliver f reads = decode f reads.flatten := by
  induction reads with
  | nil => rfl
  | cons rs reads ih =>
      rw [deliver_cons, List.flatten_cons]
      rw [List.flatten_cons] at h
      cases he : (decode f rs).2 with
      | none =>
          have hrest : ¬Drops f reads.flatten := fun hdrops => h (drops_iff.mpr (by
            obtain ⟨herr, hitems⟩ := drops_iff.mp hdrops
            rw [decode_append he]
            exact ⟨herr, by simp [hitems]⟩))
          have hread : readOf f rs = decode f rs :=
            readOf_eq_decode_iff.mpr fun hdrops => (drops_iff.mp hdrops).1 he
          rw [hread, he, decode_append he, ih hrest]
      | some e =>
          have hread : readOf f rs = decode f rs :=
            readOf_eq_decode_iff.mpr fun hdrops => h (drops_iff.mpr (by
              rw [decode_append_error he]
              exact drops_iff.mp hdrops))
          rw [hread, he, decode_append_error he]

end Decode

end Records
