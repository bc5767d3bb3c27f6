import Mathlib.Algebra.Order.Field.Basic
import Mathlib.Data.Rat.Floor

namespace Library.Floats

/-- The floating-point operations a program uses, over any representation. -/
structure FloatOps (F : Type) where
  ofInt : Int → F
  add : F → F → F
  sub : F → F → F
  mul : F → F → F
  div : F → F → F
  abs : F → F
  sqrt : F → F
  floor : F → F
  ceil : F → F
  infinity : F
  lt : F → F → Bool
  le : F → F → Bool
  beq : F → F → Bool
  toInt : F → Int

section Rational

variable (rnd : ℚ → ℚ)

def lift₁ (f : ℚ → ℚ) (x : Option ℚ) : Option ℚ := x.map fun a => rnd (f a)

def lift₂ (f : ℚ → ℚ → ℚ) (x y : Option ℚ) : Option ℚ :=
  x.bind fun a => y.map fun b => rnd (f a b)

/-- Exact results rounded by a given function; `none` is infinity. Square
roots are taken to a multiple of the reciprocal of the denominator. -/
def rationalOps : FloatOps (Option ℚ) where
  ofInt n := some (rnd n)
  add := lift₂ rnd (· + ·)
  sub := lift₂ rnd (· - ·)
  mul := lift₂ rnd (· * ·)
  div x y := if y = some 0 then none else lift₂ rnd (· / ·) x y
  abs := Option.map abs
  sqrt := lift₁ rnd fun a => (Nat.sqrt (a.num.toNat * a.den) : ℚ) / a.den
  floor := lift₁ rnd fun a => ⌊a⌋
  ceil := lift₁ rnd fun a => ⌈a⌉
  infinity := none
  lt x y := match x, y with
    | some a, some b => decide (a < b)
    | some _, none => true
    | none, _ => false
  le x y := match x, y with
    | some a, some b => decide (a ≤ b)
    | _, none => true
    | none, some _ => false
  beq x y := decide (x = y)
  toInt x := match x with
    | some a => if 0 ≤ a then ⌊a⌋ else ⌈a⌉
    | none => 2 ^ 127 - 1

variable {rnd} {a b : ℚ}

@[simp] theorem rationalOps_ofInt (n : Int) : (rationalOps rnd).ofInt n = some (rnd n) := rfl

@[simp] theorem rationalOps_sub :
    (rationalOps rnd).sub (some a) (some b) = some (rnd (a - b)) := rfl

@[simp] theorem rationalOps_mul :
    (rationalOps rnd).mul (some a) (some b) = some (rnd (a * b)) := rfl

@[simp] theorem rationalOps_abs : (rationalOps rnd).abs (some a) = some |a| := rfl

theorem rationalOps_div (hb : b ≠ 0) :
    (rationalOps rnd).div (some a) (some b) = some (rnd (a / b)) := by
  simp [rationalOps, hb, lift₂]

@[simp] theorem rationalOps_add :
    (rationalOps rnd).add (some a) (some b) = some (rnd (a + b)) := rfl

@[simp] theorem rationalOps_floor : (rationalOps rnd).floor (some a) = some (rnd ⌊a⌋) := rfl

@[simp] theorem rationalOps_ceil : (rationalOps rnd).ceil (some a) = some (rnd ⌈a⌉) := rfl

theorem rationalOps_toInt (ha : 0 ≤ a) : (rationalOps rnd).toInt (some a) = ⌊a⌋ := if_pos ha

@[simp] theorem rationalOps_lt : (rationalOps rnd).lt (some a) (some b) = decide (a < b) := rfl

/-- The same with another square root. -/
def rationalOpsWith (rnd : ℚ → ℚ) (sqrt : Option ℚ → Option ℚ) : FloatOps (Option ℚ) :=
  { rationalOps rnd with sqrt := sqrt }

end Rational

abbrev exactOps : FloatOps (Option ℚ) := rationalOps id

section Rounding

/-- What rounding to the nearest of the representable numbers satisfies away from
overflow and underflow. -/
structure Rounding (rnd : ℚ → ℚ) : Prop where
  mono : Monotone rnd
  idempotent : ∀ x, rnd (rnd x) = rnd x
  near : ∀ x, |rnd x - x| ≤ |x| / 2 ^ 52
  small : ∀ n : Int, |n| ≤ 2 ^ 53 → rnd n = n
  half : rnd (1 / 2) = 1 / 2
  integral : ∀ n : Int, ∃ m : Int, rnd n = m

theorem rounding_id : Rounding id where
  mono := monotone_id
  idempotent _ := rfl
  near x := by simp [abs_nonneg, div_nonneg]
  small _ _ := rfl
  half := rfl
  integral n := ⟨n, rfl⟩

namespace Rounding

variable {rnd : ℚ → ℚ} {x : ℚ} (law : Rounding rnd)
include law

theorem zero : rnd 0 = 0 := by
  have h := law.small 0 (by norm_num)
  exact_mod_cast h

theorem one : rnd 1 = 1 := by
  have h := law.small 1 (by norm_num)
  exact_mod_cast h

theorem nonneg (hx : 0 ≤ x) : 0 ≤ rnd x := by
  rw [← law.zero]
  exact law.mono hx

/-- Both bounds are far coarser than the rounding of a double. -/
theorem bounds (hx : 0 ≤ x) : x * (999999 / 1000000) ≤ rnd x ∧ rnd x ≤ x * (1000001 / 1000000) := by
  have hnear := law.near x
  rw [abs_of_nonneg hx, abs_le] at hnear
  constructor
  · linarith [hnear.1]
  · linarith [hnear.2]

theorem abs_rnd_le (x : ℚ) : |rnd x| ≤ |x| * (1000001 / 1000000) := by
  have hnear := law.near x
  have hsplit : |rnd x| ≤ |rnd x - x| + |x| := by
    calc |rnd x| = |(rnd x - x) + x| := by rw [sub_add_cancel]
      _ ≤ |rnd x - x| + |x| := abs_add_le _ _
  have hx := abs_nonneg x
  linarith

end Rounding

/-- No representable number is closer than the result. -/
structure NearestRounding (rnd : ℚ → ℚ) : Prop extends Rounding rnd where
  nearest : ∀ x y, rnd y = y → |rnd x - x| ≤ |y - x|

theorem nearestRounding_id : NearestRounding id where
  toRounding := rounding_id
  nearest x y _ := by simp

namespace NearestRounding

variable {rnd : ℚ → ℚ} {a m b : ℚ} (law : NearestRounding rnd)
include law

/-- A number that is rounded down lies in the lower half of the gap. -/
theorem le_midpoint (h : rnd a < rnd m) : 2 * a ≤ rnd a + rnd m := by
  have hnear := law.nearest a (rnd m) (law.idempotent m)
  have hself : a - rnd a ≤ |rnd a - a| := by
    rw [abs_sub_comm]
    exact le_abs_self _
  by_contra hlt
  have hcloser : |rnd m - a| < a - rnd a := abs_lt.mpr ⟨by linarith, by linarith⟩
  linarith

theorem midpoint_le (h : rnd m < rnd b) : rnd m + rnd b ≤ 2 * b := by
  have hnear := law.nearest b (rnd m) (law.idempotent m)
  have hself : rnd b - b ≤ |rnd b - b| := le_abs_self _
  by_contra hlt
  have hcloser : |rnd m - b| < rnd b - b := abs_lt.mpr ⟨by linarith, by linarith⟩
  linarith

/-- Rounding does not more than double the distance of two numbers with a
representable one between them. -/
theorem gap_le (ha : rnd a < rnd m) (hb : rnd m < rnd b) : rnd b - rnd a ≤ 2 * (b - a) := by
  have hlow := law.le_midpoint ha
  have hhigh := law.midpoint_le hb
  linarith

end NearestRounding

end Rounding

end Library.Floats
