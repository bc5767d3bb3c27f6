import Mathlib.Algebra.Order.Ring.Int
import Mathlib.Algebra.Order.Group.Unbundled.Abs
import Mathlib.Algebra.Order.Ring.Abs
import So4Oracle.Keeper

namespace So4Oracle.MoveThreshold

open Library.Checked Keeper

section Checked

variable {x y : Int}

theorem checkedI128_eq_some : checkedI128 x = some y ↔ x = y ∧ i128Min ≤ x ∧ x ≤ i128Max := by
  by_cases hx : i128Min ≤ x ∧ x ≤ i128Max
  · simp [checkedI128, checked, hx, Except.toOption]
  · simp [checkedI128, checked, hx, Except.toOption]

theorem checkedI128_of_abs_le (h : |x| ≤ i128Max) : checkedI128 x = some x := by
  have hlow : i128Min ≤ -i128Max := by decide
  obtain ⟨hmin, hmax⟩ := abs_le.mp h
  exact checkedI128_eq_some.mpr ⟨rfl, hlow.trans hmin, hmax⟩

theorem checkedAbs_eq_some : checkedAbs x = some y ↔ |x| = y ∧ |x| ≤ i128Max := by
  have hlow : i128Min ≤ |x| := le_trans (by decide) (abs_nonneg x)
  simp [checkedAbs, checkedI128_eq_some, hlow]

end Checked

variable {last median : Int} {thresholdBps : Nat}

/-- The code holds a price back only where the bound can be computed. -/
theorem moveExceedsBps_eq_false :
    moveExceedsBps last median thresholdBps = false ↔
      median = last ∨ |last| * thresholdBps ≤ i128Max ∧
        |median - last| * 10000 ≤ |last| * thresholdBps := by
  constructor
  · intro h
    rw [moveExceedsBps] at h
    split at h
    next => cases h
    next change hchange =>
      obtain ⟨difference, hdifference, habs⟩ := Option.bind_eq_some_iff.mp hchange
      obtain ⟨rfl, -⟩ := checkedI128_eq_some.mp hdifference
      obtain ⟨rfl, -⟩ := checkedAbs_eq_some.mp habs
      split at h
      next hzero => exact .inl (Int.sub_eq_zero.mp (abs_eq_zero.mp hzero))
      next =>
        split at h
        next => cases h
        next scaledChange hscaled =>
          obtain ⟨rfl, -⟩ := checkedI128_eq_some.mp hscaled
          split at h
          next bound hbound =>
            obtain ⟨size, hsize, hproduct⟩ := Option.bind_eq_some_iff.mp hbound
            obtain ⟨rfl, -⟩ := checkedAbs_eq_some.mp hsize
            obtain ⟨rfl, -, hfits⟩ := checkedI128_eq_some.mp hproduct
            exact .inr ⟨hfits, Int.not_lt.mp (of_decide_eq_false h)⟩
          next => cases h
  · intro h
    rcases eq_or_ne median last with rfl | hne
    · have hnone : checkedI128 (median - median) = some 0 := by
        rw [Int.sub_self]
        rfl
      rw [moveExceedsBps, hnone]
      rfl
    obtain ⟨hfits, hwithin⟩ := h.resolve_left hne
    have hchange : 0 < |median - last| := abs_pos.mpr (sub_ne_zero.mpr hne)
    have hlast := abs_nonneg last
    have hthreshold : (1 : Int) ≤ thresholdBps := by
      by_contra hzero
      have hthreshold : (thresholdBps : Int) = 0 := by omega
      rw [hthreshold] at hwithin
      omega
    have hlastFits : |last| ≤ i128Max :=
      (le_mul_of_one_le_right hlast hthreshold).trans hfits
    have hdifference := checkedI128_of_abs_le (x := median - last) (by omega)
    have hsize : checkedAbs (median - last) = some |median - last| :=
      checkedAbs_eq_some.mpr ⟨rfl, by omega⟩
    have hscaled : checkedI128 (|median - last| * bpsDenominator) =
        some (|median - last| * 10000) := by
      apply checkedI128_of_abs_le
      rw [abs_of_nonneg (mul_nonneg hchange.le (by decide))]
      exact hwithin.trans hfits
    have hbound : checkedI128 (|last| * thresholdBps) = some (|last| * thresholdBps) := by
      apply checkedI128_of_abs_le
      rwa [abs_of_nonneg (mul_nonneg hlast (Int.natCast_nonneg _))]
    have habs : checkedAbs last = some |last| := checkedAbs_eq_some.mpr ⟨rfl, hlastFits⟩
    simp only [moveExceedsBps, hdifference, Option.bind_some, hsize, hchange.ne', if_false, hscaled,
      habs, hbound, decide_eq_false_iff_not, not_lt]
    exact hwithin

/-- In exact arithmetic the comparison is that of the products. Where their bound
does not fit, every move but none at all counts as beyond the threshold. -/
theorem moveExceedsBps_exact_iff (last median : Int) (thresholdBps : Nat) :
    (moveExceedsBps last median thresholdBps = true ↔
        |last| * thresholdBps < |median - last| * 10000) ↔
      median = last ∨ |last| * thresholdBps ≤ i128Max ∨
        |last| * thresholdBps < |median - last| * 10000 := by
  rw [← Bool.not_eq_false, moveExceedsBps_eq_false]
  rcases eq_or_ne median last with rfl | hne
  · have hbound : 0 ≤ |median| * (thresholdBps : Int) :=
      mul_nonneg (abs_nonneg median) (Int.natCast_nonneg thresholdBps)
    simp [hbound]
  · simp only [hne, false_or]
    constructor
    · intro h
      by_cases hfits : |last| * thresholdBps ≤ i128Max
      · exact .inl hfits
      · exact .inr (h.mp (fun hheld => hfits hheld.1))
    · rintro (hfits | hbeyond)
      · simp [hfits]
      · exact iff_of_true (fun hheld => absurd hheld.2 (not_le.mpr hbeyond)) hbeyond

/-- A price of 100,000 at thirty decimals that moves by one unit, at a threshold of
twenty per cent; and the least of all values, at a hundred per cent. -/
theorem moveExceedsBps_unbounded :
    moveExceedsBps (10 ^ 35) (10 ^ 35 + 1) 2000 = true ∧
      ¬|(10 ^ 35 : Int)| * 2000 < |10 ^ 35 + 1 - 10 ^ 35| * 10000 ∧
      moveExceedsBps i128Min 0 10000 = true ∧ ¬|i128Min| * 10000 < |0 - i128Min| * 10000 := by
  decide +kernel

end So4Oracle.MoveThreshold
