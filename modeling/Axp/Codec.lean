import Mathlib.Data.Option.Basic

/-!
# Wire formats

A `Codec` writes the values of a type and reads them back. What it promises is
that a value that fits is read as itself; what else it reads is its own
affair.

A procedure whose argument and result each have a format becomes a function on
messages (`serve`): a message that does not read is refused before the
procedure runs. On the message of an argument it is the procedure
(`serve_write`).
-/

namespace Axp

universe u v w x y

/-- A format for the values of `α`. -/
structure Codec (V : Type u) (α : Type v) where
  write : α → V
  read : V → Option α
  Fits : α → Prop
  read_write : ∀ a, Fits a → read (write a) = some a

namespace Codec

variable {V : Type u} {α : Type v} {β : Type w}

/-- A format that every value fits. -/
def total {write : α → V} {read : V → Option α} (h : ∀ a, read (write a) = some a) :
    Codec V α where
  write := write
  read := read
  Fits _ := True
  read_write a _ := h a

/-- A list is read item by item. -/
theorem mapM_read_write (c : Codec V α) {l : List α} (h : ∀ a ∈ l, c.Fits a) :
    (l.map c.write).mapM c.read = some l := by
  induction l with
  | nil => rfl
  | cons a l ih =>
      obtain ⟨ha, hl⟩ := List.forall_mem_cons.mp h
      rw [List.map_cons, List.mapM_cons, c.read_write a ha, ih hl]
      rfl

/-- Lists, where `V` has a way to hold a list of its own values. -/
def list (items : Codec V (List V)) (c : Codec V α) : Codec V (List α) where
  write l := items.write (l.map c.write)
  read v := (items.read v).bind fun l => l.mapM c.read
  Fits l := items.Fits (l.map c.write) ∧ ∀ a ∈ l, c.Fits a
  read_write l h := by
    rw [items.read_write _ h.1, Option.bind_some, c.mapM_read_write h.2]

/-- What relates an argument and a result, on their messages. -/
def Relates (c : Codec V α) (d : Codec V β) (R : α → β → Prop) (message answer : V) : Prop :=
  ∃ a b, c.read message = some a ∧ answer = d.write b ∧ R a b

/-! ## Procedures on messages -/

section Serve

variable {σ : Type x} {ε : Type y} (c : Codec V α) (d : Codec V β) (refuse : V → ε)
  (f : α → σ → Except ε β × σ)

/-- The procedure `f`, on messages. -/
def serve (message : V) (s : σ) : Except ε V × σ :=
  match c.read message with
  | some a => ((f a s).1.map d.write, (f a s).2)
  | none => (.error (refuse message), s)

theorem serve_of_read {message : V} {a : α} (h : c.read message = some a) (s : σ) :
    c.serve d refuse f message s = ((f a s).1.map d.write, (f a s).2) := by
  rw [serve, h]

theorem serve_of_not_read {message : V} (h : c.read message = none) (s : σ) :
    c.serve d refuse f message s = (.error (refuse message), s) := by
  rw [serve, h]

/-- On the message of an argument, `serve` is the procedure. -/
theorem serve_write {a : α} (h : c.Fits a) (s : σ) :
    c.serve d refuse f (c.write a) s = ((f a s).1.map d.write, (f a s).2) :=
  c.serve_of_read d refuse f (c.read_write a h) s

end Serve

end Codec

end Axp
