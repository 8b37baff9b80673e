import Axp.Codec
import Axp.Router
import Axp.Sse

/-!
# Derived formats

What `#[derive(Serialize, Deserialize)]` makes of a type, on JSON values in
memory. A struct is written as an object. It is read from an object by the
names of its fields, in any order and next to any other members, or from an
array by their places; a flattened one, having no places, only from an object.

An object in memory is a map, and the list of its members stands for the map
that inserting them one by one gives: of several members of one name the last
is the one there is. This is where reading a value differs from reading a text
(`readField`), which is refused when a field comes twice.
-/

namespace Axp

/-! ## Fields -/

/-- What a derived reader takes its fields from. -/
inductive Fields where
  | byName (fields : List (String × Value))
  | byPlace (items : List Value)

namespace Fields

/-- The values for the field of that name, which is the one at that place. -/
def get (self : Fields) (name : String) (place : Nat) : List Value :=
  match self with
  | .byName fields => (Value.object fields).members name
  | .byPlace items => items[place]?.toList

/-- No more items than there are fields. -/
def atMost (self : Fields) (count : Nat) : Option Fields :=
  match self with
  | .byName fields => some (.byName fields)
  | .byPlace items => if items.length ≤ count then some (.byPlace items) else none

@[simp] theorem get_byName (fields : List (String × Value)) (name : String) (place : Nat) :
    (Fields.byName fields).get name place = (Value.object fields).members name := rfl

@[simp] theorem atMost_byName (fields : List (String × Value)) (count : Nat) :
    (Fields.byName fields).atMost count = some (.byName fields) := rfl

end Fields

/-- The fields of a struct that has so many. -/
def Value.asStruct (count : Nat) : Value → Option Fields
  | .object fields => some (.byName fields)
  | .array items => (Fields.byPlace items).atMost count
  | _ => none

/-- A field of a value in memory: its default, where there is no value for it. -/
def fieldOf {α : Type} (default : Option α) (read : Value → Option α) (l : List Value) :
    Option α :=
  match l.getLast? with
  | none => default
  | some v => read v

/-- A field without a default. -/
def required {α : Type} (read : Value → Option α) (l : List Value) : Option α :=
  fieldOf none read l

@[simp] theorem asStruct_object (count : Nat) (fields : List (String × Value)) :
    (Value.object fields).asStruct count = some (.byName fields) := rfl

@[simp] theorem fieldOf_nil {α : Type} (default : Option α) (read : Value → Option α) :
    fieldOf default read [] = default := rfl

@[simp] theorem fieldOf_singleton {α : Type} (default : Option α) (read : Value → Option α)
    (v : Value) : fieldOf default read [v] = read v := rfl

@[simp] theorem required_singleton {α : Type} (read : Value → Option α) (v : Value) :
    required read [v] = read v := rfl

theorem required_eq_some {α : Type} {read : Value → Option α} {l : List Value} {a : α} :
    required read l = some a ↔ ∃ v, l.getLast? = some v ∧ read v = some a := by
  unfold required fieldOf
  cases l.getLast? <;> simp

theorem fieldOf_eq_some {α : Type} {default : Option α} {read : Value → Option α}
    {l : List Value} {a : α} : fieldOf default read l = some a ↔
      (l.getLast? = none ∧ default = some a) ∨ ∃ v, l.getLast? = some v ∧ read v = some a := by
  unfold fieldOf
  cases l.getLast? <;> simp

/-! ### The members of a written object -/

@[simp] theorem Value.members_nil (name : String) : (Value.object []).members name = [] := rfl

@[simp] theorem Value.members_cons (name key : String) (v : Value)
    (fields : List (String × Value)) : (Value.object ((key, v) :: fields)).members name
      = if key = name then v :: (Value.object fields).members name
        else (Value.object fields).members name := by
  by_cases h : key = name <;> simp [Value.members, h]

@[simp] theorem Value.members_append (name : String) (l l' : List (String × Value)) :
    (Value.object (l ++ l')).members name
      = (Value.object l).members name ++ (Value.object l').members name := by
  simp [Value.members]

/-! ## Leaves -/

def Value.asBool : Value → Option Bool
  | .bool b => some b
  | _ => none

/-- `u64`. A JSON number has neither a plus sign nor leading zeros, so what
parses is what is an unsigned integer to `serde_json`. -/
def Value.asU64 : Value → Option Nat
  | .number text => parseU64 text
  | _ => none

/-- `i64`. The text `-0` is a float. -/
def Value.asI64 : Value → Option Int
  | .number text =>
      match text.toList with
      | '-' :: digits => do
          let n ← parseU64 (.ofList digits)
          if 0 < n ∧ n ≤ 2 ^ 63 then some (-n) else none
      | _ => do
          let n ← parseU64 text
          if n < 2 ^ 63 then some n else none
  | _ => none

/-- `i32`. -/
def Value.asI32 (v : Value) : Option Int := do
  let i ← v.asI64
  if -2 ^ 31 ≤ i ∧ i < 2 ^ 31 then some i else none

/-- `u8`. -/
def Value.asU8 (v : Value) : Option UInt8 := do
  let n ← v.asU64
  if n < 2 ^ 8 then some (.ofNat n) else none

@[simp] theorem asString_string (s : String) : (Value.string s).asString = some s := rfl

@[simp] theorem asBool_bool (b : Bool) : (Value.bool b).asBool = some b := rfl

def Value.asList {α : Type} (read : Value → Option α) : Value → Option (List α)
  | .array items => items.mapM read
  | _ => none

def Value.asOption {α : Type} (read : Value → Option α) : Value → Option (Option α)
  | .null => some none
  | v => (read v).map some

@[simp] theorem asOption_string (s : String) :
    (Value.string s).asOption Value.asString = some (some s) := rfl

theorem asOption_eq_some {α : Type} {read : Value → Option α} {v : Value} {a : α} :
    v.asOption read = some (some a) ↔ v ≠ .null ∧ read v = some a := by
  cases v <;> simp [Value.asOption]

theorem asOption_eq_none {α : Type} {read : Value → Option α} {v : Value} :
    v.asOption read = some none ↔ v = .null := by
  cases v <;> simp [Value.asOption]

def Value.ofU64 (n : Nat) : Value := .number (toString n)

def Value.ofI64 (i : Int) : Value := .number (toString i)

theorem asU64_ofU64 {n : Nat} (h : n < 2 ^ 64) : (Value.ofU64 n).asU64 = some n := by
  rw [Value.ofU64, Value.asU64, parseU64_toString, if_pos h]

/-- A number has no sign of its own. -/
theorem toString_not_signed (n : Nat) (digits : List Char) :
    (toString n).toList ≠ '-' :: digits := by
  intro h
  have hlist : (toString n).toList = Nat.toDigits 10 n := Nat.toList_repr
  have hdigit := Nat.isDigit_of_mem_toDigits (by omega) (by omega)
    (hlist ▸ h ▸ List.mem_cons_self : '-' ∈ Nat.toDigits 10 n)
  exact absurd hdigit (by decide)

theorem asI64_ofI64 {i : Int} (hlo : -2 ^ 63 ≤ i) (hhi : i < 2 ^ 63) :
    (Value.ofI64 i).asI64 = some i := by
  have htext : toString i = if 0 ≤ i then toString i.toNat else "-" ++ toString (-i).toNat :=
    Int.toString_eq_repr.trans Int.repr_eq_if
  rw [Value.ofI64, htext]
  by_cases hsign : 0 ≤ i
  · have hparse : parseU64 (toString i.toNat) = some i.toNat := by
      rw [parseU64_toString, if_pos (by omega)]
    rw [if_pos hsign, Value.asI64]
    split
    · next h => exact absurd h (toString_not_signed _ _)
    · rw [hparse]
      simp only [Option.bind_eq_bind, Option.bind_some]
      rw [if_pos (by omega), Int.toNat_of_nonneg hsign]
  · have hparse : parseU64 (toString (-i).toNat) = some (-i).toNat := by
      rw [parseU64_toString, if_pos (by omega)]
    have hlist : ("-" ++ toString (-i).toNat).toList = '-' :: (toString (-i).toNat).toList := by
      rw [String.toList_append]
      rfl
    rw [if_neg hsign, Value.asI64, hlist]
    simp only [String.ofList_toList, hparse, Option.bind_eq_bind, Option.bind_some]
    rw [if_pos (by omega), Int.toNat_of_nonneg (by omega), neg_neg]

theorem asI32_ofI64 {i : Int} (hlo : -2 ^ 31 ≤ i) (hhi : i < 2 ^ 31) :
    (Value.ofI64 i).asI32 = some i := by
  rw [Value.asI32, asI64_ofI64 (by omega) (by omega)]
  simp only [Option.bind_eq_bind, Option.bind_some]
  rw [if_pos ⟨hlo, hhi⟩]

/-- An optional member: left out without a value. -/
def optional (name : String) (value : Option Value) : List (String × Value) :=
  value.toList.map (name, ·)

@[simp] theorem optional_none (name : String) : optional name none = [] := rfl

@[simp] theorem optional_some (name : String) (v : Value) :
    optional name (some v) = [(name, v)] := rfl

/-- The items of an array. -/
def Codec.array : Codec Value (List Value) where
  write := .array
  read
    | .array items => some items
    | _ => none
  Fits _ := True
  read_write _ _ := rfl

/-! ## Enumerations -/

/-- The name of a variant without data: a string, or an object with `null`
under that one name. -/
def Value.asVariant : Value → Option String
  | .string s => some s
  | .object fields =>
      match fields.getLast? with
      | some (name, .null) => if fields.all (·.1 = name) then some name else none
      | _ => none
  | _ => none

/-- The name of a variant without data, in a text. -/
def Value.asVariantText : Value → Option String
  | .string s => some s
  | .object [(name, .null)] => some name
  | _ => none

/-- The tag of an enumeration that is read from a map in a flattened struct:
the map is buffered, and a variant may then be given by its index too. -/
def Value.asIdentifier (variants : List String) : Value → Option String
  | .string s => some s
  | .number text => (parseU64 text).bind fun n => variants[n]?
  | _ => none

/-- An internally tagged enumeration: the variant that the tag names, and what
its fields are read from. In an array the tag is the first item. The tag stays
among the members, where no variant has a field of its name. -/
def Value.asTagged (tag : String) (readTag : Value → Option String) :
    Value → Option (String × Fields)
  | .object fields => do
      let name ← required readTag ((Value.object fields).members tag)
      return (name, .byName fields)
  | .array (v :: rest) => do
      let name ← readTag v
      return (name, .byPlace rest)
  | _ => none

@[simp] theorem asIdentifier_string (variants : List String) (s : String) :
    (Value.string s).asIdentifier variants = some s := rfl

@[simp] theorem asTagged_object (tag : String) (readTag : Value → Option String)
    (fields : List (String × Value)) :
    (Value.object fields).asTagged tag readTag
      = (required readTag ((Value.object fields).members tag)).map (·, .byName fields) := by
  rw [Value.asTagged]
  cases required readTag ((Value.object fields).members tag) <;> rfl

end Axp
