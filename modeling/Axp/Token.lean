import Axp.PrefixCode
import Axp.Session

/-!
# Minting tokens

A token is `ct_` and 32 random bytes in lowercase hexadecimal. Two digits a
byte make the digits of the bytes a prefix code, so no two draws give the same token.
-/

namespace Axp

open Coding

/-- `TOKEN_BYTES`. -/
def tokenBytes : Nat := 32

/-- `TOKEN_PREFIX`. -/
def tokenPrefix : String := "ct_"

/-- `{byte:02x}`. -/
def hexByte (b : UInt8) : List Char :=
  [Nat.digitChar (b.toNat / 16), Nat.digitChar (b.toNat % 16)]

namespace CapToken

/-- The token of the bytes that the operating system has given, if it has. -/
def generate (entropy : Option (Vector UInt8 tokenBytes)) : Result CapToken :=
  match entropy with
  | some bytes => .ok ⟨tokenPrefix ++ .ofList (bytes.toList.flatMap hexByte)⟩
  | none => .error .entropy

end CapToken

/-- The digits below sixteen are sixteen different characters. -/
theorem digitChar_inj {m n : Nat} (hm : m < 16) (hn : n < 16)
    (h : Nat.digitChar m = Nat.digitChar n) : m = n := by
  have hall : ∀ m < 16, ∀ n < 16, Nat.digitChar m = Nat.digitChar n → m = n := by decide
  exact hall m hm n hn h

theorem hexByte_prefixCode : PrefixCode (fun _ => True) hexByte where
  ne_nil _ _ := List.cons_ne_nil _ _
  inj a b x y _ _ h := by
    have ha := a.toNat_lt
    have hb := b.toNat_lt
    simp only [hexByte, List.cons_append, List.nil_append, List.cons.injEq] at h
    have hhigh := digitChar_inj (by omega) (by omega) h.1
    have hlow := digitChar_inj (by omega) (by omega) h.2.1
    exact UInt8.toNat_inj.mp (by omega)

theorem flatMap_hexByte_injective {bytes bytes' : List UInt8}
    (hlen : bytes.length = bytes'.length) (h : bytes.flatMap hexByte = bytes'.flatMap hexByte) :
    bytes = bytes' := by
  obtain ⟨rest, hrest, -⟩ := hexByte_prefixCode.split (x := []) (fun _ _ => trivial)
    (fun _ _ => trivial) ((List.append_nil _).trans h)
  rw [hrest, List.length_append] at hlen
  have hnil : rest = [] := List.length_eq_zero_iff.mp (by omega)
  rw [hrest, hnil, List.append_nil]

namespace CapToken

theorem generate_inj {bytes bytes' : Vector UInt8 tokenBytes} {token : CapToken}
    (h : generate (some bytes) = .ok token) (h' : generate (some bytes') = .ok token) :
    bytes = bytes' := by
  have hstr := congrArg CapToken.str (Except.ok.inj (h.trans h'.symm))
  have hlists := congrArg String.toList hstr
  simp only [String.toList_append, String.toList_ofList, List.append_cancel_left_eq] at hlists
  have hlen : bytes.toList.length = bytes'.toList.length := by
    rw [Vector.length_toList, Vector.length_toList]
  exact Vector.toList_inj.mp (flatMap_hexByte_injective hlen hlists)

end CapToken

end Axp
