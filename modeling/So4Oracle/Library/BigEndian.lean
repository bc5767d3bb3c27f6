import Mathlib.Algebra.Group.Int.Defs
import Mathlib.Algebra.Group.Nat.Defs
import Mathlib.Algebra.Order.Group.Unbundled.Int
import Mathlib.Data.Int.Order.Basic
import Mathlib.Tactic.Common

namespace Library.BigEndian

/-- A number in the given count of bytes, the most significant first. -/
def encode : Nat → Nat → List UInt8
  | 0, _ => []
  | width + 1, n => encode width (n / 256) ++ [UInt8.ofNat n]

def decode (bs : List UInt8) : Nat := bs.foldl (fun n b => n * 256 + b.toNat) 0

@[simp] theorem length_encode (width n : Nat) : (encode width n).length = width := by
  induction width generalizing n with
  | zero => rfl
  | succ width ih => simp [encode, ih]

@[simp] theorem decode_append_singleton (bs : List UInt8) (b : UInt8) :
    decode (bs ++ [b]) = decode bs * 256 + b.toNat := by
  simp [decode]

theorem decode_encode (width n : Nat) : decode (encode width n) = n % 256 ^ width := by
  induction width generalizing n with
  | zero => simp [encode, decode, Nat.mod_one]
  | succ width ih =>
      have hbyte : (UInt8.ofNat n).toNat = n % 256 := UInt8.toNat_ofNat'
      rw [encode, decode_append_singleton, ih, hbyte, Nat.pow_succ', Nat.mod_mul]
      omega

theorem encode_inj {width m n : Nat} (hm : m < 256 ^ width) (hn : n < 256 ^ width)
    (h : encode width m = encode width n) : m = n := by
  have hdecoded := congrArg decode h
  rwa [decode_encode, decode_encode, Nat.mod_eq_of_lt hm, Nat.mod_eq_of_lt hn] at hdecoded

/-- Two's complement. -/
def encodeSigned (width : Nat) (x : Int) : List UInt8 := encode width (x % (256 ^ width : Nat)).toNat

/-- The range of the integers of the given count of bytes. -/
def Fits (width : Nat) (x : Int) : Prop := -(256 ^ width : Nat) ≤ 2 * x ∧ 2 * x < (256 ^ width : Nat)

@[simp] theorem length_encodeSigned (width : Nat) (x : Int) :
    (encodeSigned width x).length = width := length_encode _ _

theorem encodeSigned_inj {width : Nat} {x y : Int} (hx : Fits width x) (hy : Fits width y)
    (h : encodeSigned width x = encodeSigned width y) : x = y := by
  have hpos : 0 < 256 ^ width := Nat.pow_pos (by decide)
  have hnonneg : ∀ z : Int, 0 ≤ z % (256 ^ width : Nat) := fun z => Int.emod_nonneg z (by omega)
  have hlt : ∀ z : Int, (z % (256 ^ width : Nat)).toNat < 256 ^ width := by
    intro z
    have hbound := Int.emod_lt_of_pos z (Int.natCast_pos.mpr hpos)
    have := hnonneg z
    omega
  have hsame := encode_inj (hlt x) (hlt y) h
  have hmod : x % (256 ^ width : Nat) = y % (256 ^ width : Nat) := by
    rw [← Int.toNat_of_nonneg (hnonneg x), hsame, Int.toNat_of_nonneg (hnonneg y)]
  obtain ⟨hxlow, hxhigh⟩ := hx
  obtain ⟨hylow, hyhigh⟩ := hy
  have hzero := Int.eq_zero_of_abs_lt_dvd (Int.dvd_of_emod_eq_zero
    (Int.emod_eq_emod_iff_emod_sub_eq_zero.mp hmod)) (abs_lt.mpr ⟨by omega, by omega⟩)
  omega

end Library.BigEndian
