import So4Oracle.MiddlePrices

namespace So4Oracle.OutlierRule

open Library.Checked Library.Floats Prices Aggregate PriceOverflow MiddlePrices

section Reference

variable {F : Type} {ops : FloatOps F} {prices : List Int} {sources : List String}
  {maxDeviationBps : Nat}

def medianOf (prices : List Int) : Int := middlePrice (sortUnstable prices)

/-- The median of the distances from the median. -/
def madOf (prices : List Int) : Int := medianOf (prices.map fun p => |p - medianOf prices|)

variable (ops maxDeviationBps) in
/-- The rule past two sources, with all that it goes by taken from the list. -/
def rejects (prices : List Int) (p : Int) : Bool :=
  isOutlier ops (medianOf prices) (madOf prices) (standardDeviation ops prices.sum prices)
    maxDeviationBps p

theorem middle_medianOf (hne : prices ≠ []) (hnonneg : ∀ p ∈ prices, 0 ≤ p)
    (hsum : prices.sum ≤ i128Max) : middle (sortUnstable prices) = .ok (medianOf prices) := by
  obtain ⟨m, hm⟩ := middle_sortUnstable_ok hne hnonneg hsum
  have hvalue := (middle_eq_ok (sortUnstable_ne_nil hne) (forall_sortUnstable hnonneg)).mp hm
  rw [hm, hvalue.2, medianOf]

theorem filterOutliers_eq (hadmitted : ∀ p ∈ prices, Admitted p) (hne : prices ≠ [])
    (hpair : prices.length ≠ 2) (hsum : prices.sum ≤ i128Max) :
    filterOutliers ops prices sources maxDeviationBps =
      splitOutliers ops (rejects ops maxDeviationBps prices) (medianOf prices) prices sources := by
  have hnonneg : ∀ p ∈ prices, 0 ≤ p := fun p hp => (hadmitted p hp).nonneg
  have hmedian := middle_medianOf hne hnonneg hsum
  have hdeviations : prices.mapM (absoluteDeviation (medianOf prices)) =
      .ok (prices.map fun p => |p - medianOf prices|) :=
    mapM_eq_ok (fun p hp => absoluteDeviation_eq (hadmitted p hp) (middle_admitted hadmitted hmedian))
  have hmad : middle (sortUnstable (prices.map fun p => |p - medianOf prices|)) =
      .ok (madOf prices) :=
    middle_medianOf (by simpa using hne) (by simp) ((sum_deviations hadmitted hne hmedian).trans hsum)
  rw [filterOutliers_many hne hpair, hmedian]
  show (prices.mapM (absoluteDeviation (medianOf prices)) >>= _) = _
  rw [hdeviations]
  show (middle (sortUnstable (prices.map fun p => |p - medianOf prices|)) >>= _) = _
  rw [hmad]
  show (sumPrices prices >>= _) = _
  rw [sumPrices_eq hadmitted, if_pos hsum]
  rfl

theorem splitOutliers_returns {outlier : Int → Bool} {median : Int}
    (hlen : prices.length = sources.length) :
    ∃ r, splitOutliers ops outlier median prices sources = .ok r ∧
      r.filteredPrices = prices.filter fun p => !outlier p := by
  induction prices generalizing sources with
  | nil => exact ⟨_, rfl, rfl⟩
  | cons p prices ih =>
      cases sources with
      | nil => cases hlen
      | cons source sources =>
          obtain ⟨rest, hrest, hkept⟩ := ih (Nat.succ.inj hlen)
          rw [splitOutliers, hrest]
          cases houtlier : outlier p with
          | true =>
              refine ⟨_, rfl, ?_⟩
              simp [houtlier, hkept]
          | false =>
              refine ⟨_, rfl, ?_⟩
              simp [houtlier, hkept]

variable (ops maxDeviationBps) in
def survivors (prices : List Int) : List Int :=
  prices.filter fun p => !rejects ops maxDeviationBps prices p

variable (ops maxDeviationBps) in
/-- The filter keeps what the rule does not reject, or its sum overflows. -/
theorem filterOutliers_cases (hadmitted : ∀ p ∈ prices, Admitted p) (hne : prices ≠ [])
    (hpair : prices.length ≠ 2) (hlen : prices.length = sources.length) :
    (prices.sum ≤ i128Max ∧ ∃ r, filterOutliers ops prices sources maxDeviationBps = .ok r ∧
        r.filteredPrices = survivors ops maxDeviationBps prices) ∨
      i128Max < prices.sum ∧
        filterOutliers ops prices sources maxDeviationBps = .error .overflow := by
  rcases le_or_gt prices.sum i128Max with hsum | hover
  · rw [filterOutliers_eq hadmitted hne hpair hsum]
    exact .inl ⟨hsum, splitOutliers_returns hlen⟩
  · exact .inr ⟨hover, (filterOutliers_overflows hadmitted hne hpair).mpr hover⟩

/-- What holds of all that the filter keeps holds of the survivors of a sum that fits. -/
theorem filterOutliers_returns_iff (hadmitted : ∀ p ∈ prices, Admitted p) (hne : prices ≠ [])
    (hpair : prices.length ≠ 2) (hlen : prices.length = sources.length) {P : List Int → Prop} :
    (∃ r, filterOutliers ops prices sources maxDeviationBps = .ok r ∧ P r.filteredPrices) ↔
      prices.sum ≤ i128Max ∧ P (survivors ops maxDeviationBps prices) := by
  rcases filterOutliers_cases ops maxDeviationBps hadmitted hne hpair hlen with
    ⟨hsum, r, hr, hkept⟩ | ⟨hover, hfault⟩
  · rw [hr, and_iff_right hsum, ← hkept]
    simp
  · simp [hfault, not_le.mpr hover]

end Reference

section Distance

variable {rnd : ℚ → ℚ} {sqrt : Option ℚ → Option ℚ} {p q m mad : Int}
  {stddev : Option ℚ} {bps : Nat}

def distance (rnd : ℚ → ℚ) (p m : Int) : ℚ := |rnd (rnd p - rnd m)|

variable (law : Rounding rnd)
include law

theorem one_le_rnd (hm : 0 < m) : 1 ≤ rnd m := by
  rw [← law.one]
  exact law.mono (by exact_mod_cast hm)

theorem exceedsBps_iff (hm : 0 < m) :
    exceedsBps (rationalOpsWith rnd sqrt) p m bps = true ↔
      rnd bps < rnd (rnd (distance rnd p m / rnd m) * rnd 10000) := by
  have hpos : 0 < rnd m := one_pos.trans_le (one_le_rnd law hm)
  have hdev : deviationBps (rationalOpsWith rnd sqrt) p m =
      some (rnd (rnd (distance rnd p m / rnd m) * rnd 10000)) := by
    show deviationBps (rationalOps rnd) p m = _
    rw [deviationBps, if_neg hm.ne']
    simp only [rationalOps_ofInt, rationalOps_sub, rationalOps_abs, abs_of_pos hpos,
      rationalOps_div hpos.ne', rationalOps_mul, Int.cast_ofNat]
    rfl
  rw [exceedsBps, hdev]
  exact decide_eq_true_iff

theorem exceedsBps_mono (hm : 0 < m) (hle : distance rnd q m ≤ distance rnd p m)
    (h : exceedsBps (rationalOpsWith rnd sqrt) q m bps = true) :
    exceedsBps (rationalOpsWith rnd sqrt) p m bps = true := by
  rw [exceedsBps_iff law hm] at h ⊢
  have hpos : 0 < rnd m := one_pos.trans_le (one_le_rnd law hm)
  have hten : 0 ≤ rnd 10000 := law.nonneg (by norm_num)
  have hquot := law.mono (div_le_div_of_nonneg_right hle hpos.le)
  exact h.trans_le (law.mono (mul_le_mul_of_nonneg_right hquot hten))

omit law in
theorem isOutlier_of_mad (hmad : 0 < mad) :
    isOutlier (rationalOpsWith rnd sqrt) m mad stddev bps p = false ↔
      exceedsBps (rationalOpsWith rnd sqrt) p m bps = false ∧
        distance rnd p m ≤ rnd (rnd (6 : Int) * rnd mad) := by
  rw [isOutlier]
  by_cases hp : exceedsBps (rationalOpsWith rnd sqrt) p m bps = true
  · simp [hp]
  · rw [if_neg hp, if_pos hmad, and_iff_right (Bool.not_eq_true _ ▸ hp), ← not_lt]
    exact decide_eq_false_iff_not

/-- A price at the median is never rejected. -/
theorem isOutlier_of_distance_zero (hm : 0 < m) (hzero : distance rnd p m = 0) :
    isOutlier (rationalOpsWith rnd sqrt) m mad stddev bps p = false := by
  have hexceeds : ¬exceedsBps (rationalOpsWith rnd sqrt) p m bps = true := by
    rw [exceedsBps_iff law hm, hzero, zero_div, law.zero, zero_mul, law.zero, not_lt]
    exact law.nonneg (Nat.cast_nonneg bps)
  by_cases hmad : 0 < mad
  · rw [isOutlier_of_mad hmad, hzero]
    refine ⟨Bool.not_eq_true _ ▸ hexceeds, law.nonneg (mul_nonneg ?_ ?_)⟩
    · exact law.nonneg (by norm_num)
    · exact law.nonneg (by exact_mod_cast hmad.le)
  rw [isOutlier, if_neg hexceeds, if_neg hmad]
  cases stddev with
  | none => rfl
  | some s =>
      by_cases hs : 0 < s
      · have hthree : 0 ≤ rnd (rnd (3 : Int) * s) :=
          law.nonneg (mul_nonneg (law.nonneg (by norm_num)) hs.le)
        have hnear : (rationalOpsWith rnd sqrt).lt (some (rnd (rnd (3 : Int) * s)))
            (some (distance rnd p m)) = false := by
          rw [hzero]
          exact decide_eq_false (not_lt.mpr hthree)
        exact Bool.and_eq_false_imp.mpr fun _ => hnear
      · have hflat : (rationalOpsWith rnd sqrt).lt (some (rnd (0 : Int))) (some s) = false := by
          rw [Int.cast_zero, law.zero]
          exact decide_eq_false hs
        exact Bool.and_eq_false_iff.mpr (.inl hflat)

theorem distance_above (hmq : m ≤ q) (hqp : q ≤ p) : distance rnd q m ≤ distance rnd p m := by
  have hlow : rnd m ≤ rnd q := law.mono (by exact_mod_cast hmq)
  have hhigh : rnd q ≤ rnd p := law.mono (by exact_mod_cast hqp)
  exact abs_le_abs_of_nonneg (law.nonneg (sub_nonneg.mpr hlow)) (law.mono (by linarith))

theorem distance_below (hpq : p ≤ q) (hqm : q ≤ m) : distance rnd q m ≤ distance rnd p m := by
  have hlow : rnd p ≤ rnd q := law.mono (by exact_mod_cast hpq)
  have hhigh : rnd q ≤ rnd m := law.mono (by exact_mod_cast hqm)
  have hle : rnd (rnd q - rnd m) ≤ 0 := by
    rw [← law.zero]
    exact law.mono (by linarith)
  exact abs_le_abs_of_nonpos hle (law.mono (by linarith))

end Distance

end So4Oracle.OutlierRule
