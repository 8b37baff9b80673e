import Mathlib.Data.List.Basic
import Mathlib.Tactic.Ring

/-!
# Fixed-width little-endian integers

The byte codec under the on-disk log format: an unsigned integer as `w`
bytes, least significant first, and the two's-complement reading of eight of
them. The two laws are the round trips `ofLe_leBytes` (encode, then decode)
and `leBytes_ofLe` (decode, then encode), so a fixed-width field determines
its value and the value its field.
-/

namespace LittleEndian

/-! ## Unsigned -/

/-- The `w` low bytes of `n`, least significant first. -/
def leBytes : Nat → Nat → List UInt8
  | 0, _ => []
  | w + 1, n => UInt8.ofNat n :: leBytes w (n / 256)

/-- The number a little-endian byte list denotes. -/
def ofLe : List UInt8 → Nat
  | [] => 0
  | b :: bs => b.toNat + 256 * ofLe bs

@[simp] theorem leBytes_length (w n : Nat) : (leBytes w n).length = w := by
  induction w generalizing n with
  | zero => rfl
  | succ w ih => simp [leBytes, ih]

theorem ofLe_lt (bs : List UInt8) : ofLe bs < 256 ^ bs.length := by
  induction bs with
  | nil => simp [ofLe]
  | cons b bs ih =>
      have hb : b.toNat < 256 := b.toNat_lt
      rw [ofLe, List.length_cons, pow_succ]
      omega

/-- Encode, then decode: the value comes back modulo the field's width. -/
theorem ofLe_leBytes (w n : Nat) : ofLe (leBytes w n) = n % 256 ^ w := by
  induction w generalizing n with
  | zero => simp [leBytes, ofLe, Nat.mod_one]
  | succ w ih =>
      have hb : (UInt8.ofNat n).toNat = n % 256 := by
        rw [UInt8.toNat_ofNat']
      rw [leBytes, ofLe, ih, hb, pow_succ, Nat.mul_comm (256 ^ w) 256, Nat.mod_mul]

theorem ofLe_leBytes_of_lt {w n : Nat} (h : n < 256 ^ w) : ofLe (leBytes w n) = n := by
  rw [ofLe_leBytes, Nat.mod_eq_of_lt h]

/-- Decode, then encode: the bytes come back. -/
theorem leBytes_ofLe (bs : List UInt8) : leBytes bs.length (ofLe bs) = bs := by
  induction bs with
  | nil => rfl
  | cons b bs ih =>
      have hb : b.toNat < 256 := b.toNat_lt
      have hmod : (b.toNat + 256 * ofLe bs) % 256 = b.toNat := by omega
      have hdiv : (b.toNat + 256 * ofLe bs) / 256 = ofLe bs := by omega
      have hhead : UInt8.ofNat (b.toNat + 256 * ofLe bs) = b := by
        apply UInt8.toNat_inj.mp
        rw [UInt8.toNat_ofNat', hmod]
      rw [List.length_cons, ofLe, leBytes, hdiv, ih, hhead]

/-- A field followed by anything determines its value and what follows. -/
theorem leBytes_append_inj {w m n : Nat} {p q : List UInt8} (hm : m < 256 ^ w)
    (hn : n < 256 ^ w) (h : leBytes w m ++ p = leBytes w n ++ q) : m = n ∧ p = q := by
  obtain ⟨hw, hrest⟩ := List.append_inj h (by rw [leBytes_length, leBytes_length])
  refine ⟨?_, hrest⟩
  rw [← ofLe_leBytes_of_lt hm, hw, ofLe_leBytes_of_lt hn]

/-! ## Signed, 64 bits -/

/-- The 64-bit two's-complement representative of `z`. -/
def twosComplement (z : Int) : Nat := (z % 2 ^ 64).toNat

/-- The signed reading of a 64-bit word. -/
def signed (n : Nat) : Int := if n < 2 ^ 63 then n else (n : Int) - 2 ^ 64

theorem twosComplement_lt (z : Int) : twosComplement z < 2 ^ 64 := by
  unfold twosComplement
  omega

theorem signed_twosComplement {z : Int} (hlo : -2 ^ 63 ≤ z) (hhi : z < 2 ^ 63) :
    signed (twosComplement z) = z := by
  unfold signed twosComplement
  split <;> omega

theorem twosComplement_inj {z z' : Int} (hlo : -2 ^ 63 ≤ z) (hhi : z < 2 ^ 63)
    (hlo' : -2 ^ 63 ≤ z') (hhi' : z' < 2 ^ 63)
    (h : twosComplement z = twosComplement z') : z = z' := by
  rw [← signed_twosComplement hlo hhi, h, signed_twosComplement hlo' hhi']

theorem twosComplement_signed {n : Nat} (h : n < 2 ^ 64) :
    twosComplement (signed n) = n := by
  unfold signed twosComplement
  split <;> omega

theorem signed_bounds {n : Nat} (h : n < 2 ^ 64) :
    -2 ^ 63 ≤ signed n ∧ signed n < 2 ^ 63 := by
  unfold signed
  split <;> omega

end LittleEndian
