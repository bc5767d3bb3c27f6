import Mathlib.Tactic.Common

namespace Library.Hex

/-- Two lower-case digits a byte. -/
def encodeChars : List UInt8 → List Char
  | [] => []
  | b :: bs => Nat.digitChar (b.toNat / 16) :: Nat.digitChar (b.toNat % 16) :: encodeChars bs

def encode (bs : List UInt8) : String := String.ofList (encodeChars bs)

def digitValue (c : Char) : Option Nat :=
  if '0' ≤ c ∧ c ≤ '9' then some (c.toNat - '0'.toNat)
  else if 'a' ≤ c ∧ c ≤ 'f' then some (c.toNat - 'a'.toNat + 10)
  else if 'A' ≤ c ∧ c ≤ 'F' then some (c.toNat - 'A'.toNat + 10)
  else none

def decodeChars : List Char → Option (List UInt8)
  | [] => some []
  | [_] => none
  | high :: low :: cs => do
      let h ← digitValue high
      let l ← digitValue low
      let bs ← decodeChars cs
      some (UInt8.ofNat (h * 16 + l) :: bs)

def decode (s : String) : Option (List UInt8) := decodeChars s.toList

theorem digitValue_digitChar {n : Nat} (h : n < 16) : digitValue n.digitChar = some n := by
  revert n
  decide

theorem decodeChars_encodeChars (bs : List UInt8) : decodeChars (encodeChars bs) = some bs := by
  induction bs with
  | nil => rfl
  | cons b bs ih =>
      have hhigh : b.toNat / 16 < 16 := by
        have := b.toNat_lt
        omega
      have hlow : b.toNat % 16 < 16 := Nat.mod_lt _ (by decide)
      have hbyte : UInt8.ofNat (b.toNat / 16 * 16 + b.toNat % 16) = b := by
        rw [Nat.div_add_mod' b.toNat 16]
        exact UInt8.ofNat_toNat
      rw [encodeChars, decodeChars, digitValue_digitChar hhigh, digitValue_digitChar hlow, ih]
      exact congrArg (fun b => some (b :: bs)) hbyte

theorem decode_encode (bs : List UInt8) : decode (encode bs) = some bs := by
  rw [decode, encode, String.toList_ofList, decodeChars_encodeChars]

end Library.Hex
