import So4Oracle.OutlierRule

namespace So4Oracle.OutlierSurvival

open Library.Checked Library.Floats Prices Aggregate DeviationBound PriceOverflow MiddlePrices
  OutlierRule

variable {prices : List Int} {sources : List String} {maxDeviationBps : Nat}

section Middle

theorem medianOf_between (hne : prices ≠ []) :
    lowerMiddle (sortUnstable prices) ≤ medianOf prices ∧
      medianOf prices ≤ upperMiddle (sortUnstable prices) :=
  middlePrice_between sorted_sortUnstable (sortUnstable_ne_nil hne)

/-- The mean is truncated, so the median is at most one nearer to the lower price. -/
theorem medianOf_gap (prices : List Int) :
    medianOf prices - lowerMiddle (sortUnstable prices) ≤
        upperMiddle (sortUnstable prices) - medianOf prices ∧
      upperMiddle (sortUnstable prices) - medianOf prices ≤
        medianOf prices - lowerMiddle (sortUnstable prices) + 1 := by
  rw [medianOf, middlePrice]
  omega

theorem lowerMiddle_mem_prices (hne : prices ≠ []) : lowerMiddle (sortUnstable prices) ∈ prices :=
  mem_sortUnstable.mp (lowerMiddle_mem (sortUnstable_ne_nil hne))

theorem upperMiddle_mem_prices (hne : prices ≠ []) : upperMiddle (sortUnstable prices) ∈ prices :=
  mem_sortUnstable.mp (upperMiddle_mem (sortUnstable_ne_nil hne))

/-- No price is nearer to the median than the lower of the two in the middle. -/
theorem le_deviation {p : Int} (hp : p ∈ prices) :
    medianOf prices - lowerMiddle (sortUnstable prices) ≤ |p - medianOf prices| := by
  have hsorted : (sortUnstable prices).Pairwise (· ≤ ·) := sorted_sortUnstable
  have hgap := (medianOf_gap prices).1
  rcases le_lowerMiddle_or_upperMiddle_le hsorted (mem_sortUnstable.mpr hp) with
    hlow | hhigh
  · rw [abs_sub_comm]
    exact (sub_le_sub_left hlow _).trans (le_abs_self _)
  · exact hgap.trans ((sub_le_sub_right hhigh _).trans (le_abs_self _))

theorem le_madOf (hne : prices ≠ []) :
    medianOf prices - lowerMiddle (sortUnstable prices) ≤ madOf prices := by
  have hne' : prices.map (fun p => |p - medianOf prices|) ≠ [] := by simpa using hne
  have hlow : medianOf prices - lowerMiddle (sortUnstable prices) ≤
      lowerMiddle (sortUnstable (prices.map fun p => |p - medianOf prices|)) := by
    obtain ⟨p, hp, hvalue⟩ := List.mem_map.mp (lowerMiddle_mem_prices hne')
    rw [← hvalue]
    exact le_deviation hp
  exact hlow.trans (medianOf_between hne').1

/-- Without a deviation in the middle some price is the median. -/
theorem exists_medianOf (hne : prices ≠ []) (hmad : ¬0 < madOf prices) :
    ∃ p ∈ prices, p = medianOf prices := by
  have hne' : prices.map (fun p => |p - medianOf prices|) ≠ [] := by simpa using hne
  obtain ⟨p, hp, hvalue⟩ := List.mem_map.mp (lowerMiddle_mem_prices hne')
  have hle := (medianOf_between hne').1
  have hflat : |p - medianOf prices| ≤ 0 := by
    rw [hvalue]
    exact hle.trans (not_lt.mp hmad)
  exact ⟨p, hp, sub_eq_zero.mp (abs_nonpos_iff.mp hflat)⟩

end Middle

section Rounded

variable {rnd : ℚ → ℚ} {sqrt : Option ℚ → Option ℚ} {a m b mad : Int} (law : NearestRounding rnd)
include law

/-- Rounding widens a gap that it does not close by less than a factor of six. -/
theorem distance_le {k x y : ℚ} (hx : |x| ≤ 5 * k) (hk : 0 ≤ k) (hky : k ≤ y) :
    |rnd x| ≤ rnd (rnd (6 : Int) * rnd y) := by
  have hsix : rnd (6 : Int) = 6 := by exact_mod_cast law.small 6 (by norm_num)
  have hround := law.abs_rnd_le x
  have hy := (law.bounds (hk.trans hky)).1
  have hyr : 0 ≤ rnd y := law.nonneg (hk.trans hky)
  have hproduct : 0 ≤ 6 * rnd y := by positivity
  have hlast := (law.bounds hproduct).1
  rw [hsix]
  linarith

/-- One of the two prices around the median is rounded to it, or neither is
farther than six times the distance of the lower one. -/
theorem middle_within_mad (ham : a ≤ m) (hmb : m ≤ b) (hgap : b - m ≤ m - a + 1)
    (hmad : m - a ≤ mad) :
    distance rnd a m = 0 ∨ distance rnd b m = 0 ∨
      distance rnd a m ≤ rnd (rnd (6 : Int) * rnd mad) ∧
        distance rnd b m ≤ rnd (rnd (6 : Int) * rnd mad) := by
  have hzero : ∀ {p : Int}, rnd p = rnd m → distance rnd p m = 0 := by
    intro p hp
    rw [distance, hp, sub_self, law.zero, abs_zero]
  rcases (law.mono (Int.cast_le.mpr ham)).eq_or_lt with hlow | hlow
  · exact .inl (hzero hlow)
  rcases (law.mono (Int.cast_le.mpr hmb)).eq_or_lt with hhigh | hhigh
  · exact .inr (.inl (hzero hhigh.symm))
  obtain ⟨A, hA⟩ := law.integral a
  obtain ⟨M, hM⟩ := law.integral m
  obtain ⟨B, hB⟩ := law.integral b
  have hspread := law.gap_le hlow hhigh
  rw [hA, hM] at hlow
  rw [hM, hB] at hhigh
  rw [hA, hB] at hspread
  have hAM : A < M := by exact_mod_cast hlow
  have hMB : M < B := by exact_mod_cast hhigh
  have hBA : B - A ≤ 2 * (b - a) := by exact_mod_cast hspread
  have hne : m ≠ a := by
    rintro rfl
    rw [hA] at hM
    exact hAM.ne (by exact_mod_cast hM)
  -- with d the distance of the lower price, the whole gap is at most 2 (2 d + 1)
  have hlower : |A - M| ≤ 5 * (m - a) := abs_le.mpr ⟨by omega, by omega⟩
  have hupper : |B - M| ≤ 5 * (m - a) := abs_le.mpr ⟨by omega, by omega⟩
  have hdist : (0 : ℚ) ≤ m - a := sub_nonneg.mpr (by exact_mod_cast ham)
  have hreach : (m : ℚ) - a ≤ mad := by exact_mod_cast hmad
  refine .inr (.inr ⟨?_, ?_⟩)
  · rw [distance, hA, hM]
    exact distance_le law (by exact_mod_cast hlower) hdist hreach
  · rw [distance, hB, hM]
    exact distance_le law (by exact_mod_cast hupper) hdist hreach

end Rounded

/-- One of the two middle prices is within the maximum deviation of the median. -/
def MiddleWithin {F : Type} (ops : FloatOps F) (prices : List Int) (maxDeviationBps : Nat) : Prop :=
  exceedsBps ops (lowerMiddle (sortUnstable prices)) (medianOf prices) maxDeviationBps = false ∨
    exceedsBps ops (upperMiddle (sortUnstable prices)) (medianOf prices) maxDeviationBps = false

section Survivors

variable {rnd : ℚ → ℚ} {sqrt : Option ℚ → Option ℚ}

theorem medianOf_pos (hne : prices ≠ []) (hpos : ∀ p ∈ prices, 0 < p) : 0 < medianOf prices :=
  (hpos _ (lowerMiddle_mem_prices hne)).trans_le (medianOf_between hne).1

/-- What is left is no nearer to the median than the middle prices. -/
theorem middleWithin_of_survivor (law : Rounding rnd) (hpos : ∀ p ∈ prices, 0 < p) {p : Int}
    (hp : p ∈ prices) (h : rejects (rationalOpsWith rnd sqrt) maxDeviationBps prices p = false) :
    MiddleWithin (rationalOpsWith rnd sqrt) prices maxDeviationBps := by
  have hne : prices ≠ [] := List.ne_nil_of_mem hp
  have hmedian := medianOf_pos hne hpos
  have hsorted : (sortUnstable prices).Pairwise (· ≤ ·) := sorted_sortUnstable
  have hwithin := not_exceedsBps_of_not_isOutlier h
  obtain ⟨hlower, hupper⟩ := medianOf_between hne
  have hnearer : ∀ {q : Int}, distance rnd q (medianOf prices) ≤ distance rnd p (medianOf prices) →
      exceedsBps (rationalOpsWith rnd sqrt) q (medianOf prices) maxDeviationBps = false := by
    intro q hle
    by_contra hexceeds
    rw [Bool.not_eq_false] at hexceeds
    rw [exceedsBps_mono law hmedian hle hexceeds] at hwithin
    cases hwithin
  rcases le_lowerMiddle_or_upperMiddle_le hsorted (mem_sortUnstable.mpr hp) with
    hlow | hhigh
  · exact .inl (hnearer (distance_below law hlow hlower))
  · exact .inr (hnearer (distance_above law hupper hhigh))

theorem survivor_of_middleWithin (law : NearestRounding rnd) (hne : prices ≠ [])
    (hpos : ∀ p ∈ prices, 0 < p)
    (h : MiddleWithin (rationalOpsWith rnd sqrt) prices maxDeviationBps) :
    ∃ p ∈ prices, rejects (rationalOpsWith rnd sqrt) maxDeviationBps prices p = false := by
  have hmedian := medianOf_pos hne hpos
  have hzero : ∀ {p : Int}, distance rnd p (medianOf prices) = 0 →
      rejects (rationalOpsWith rnd sqrt) maxDeviationBps prices p = false :=
    fun hp => isOutlier_of_distance_zero law.toRounding hmedian hp
  by_cases hmad : 0 < madOf prices
  · obtain ⟨hlower, hupper⟩ := medianOf_between hne
    rcases middle_within_mad law hlower hupper (medianOf_gap prices).2 (le_madOf hne) with
      hlow | hhigh | ⟨hlow, hhigh⟩
    · exact ⟨_, lowerMiddle_mem_prices hne, hzero hlow⟩
    · exact ⟨_, upperMiddle_mem_prices hne, hzero hhigh⟩
    · rcases h with hlower | hupper
      · exact ⟨_, lowerMiddle_mem_prices hne, (isOutlier_of_mad hmad).mpr ⟨hlower, hlow⟩⟩
      · exact ⟨_, upperMiddle_mem_prices hne, (isOutlier_of_mad hmad).mpr ⟨hupper, hhigh⟩⟩
  · obtain ⟨p, hp, hself⟩ := exists_medianOf hne hmad
    refine ⟨p, hp, hzero ?_⟩
    rw [hself, distance, sub_self, law.zero, abs_zero]

theorem filterPair_survives {F : Type} {ops : FloatOps F} {p₀ p₁ : Int} {s₀ s₁ : String} :
    ∃ r, filterPair ops p₀ p₁ [s₀, s₁] = .ok r ∧ r.filteredSources ≠ [] := by
  rw [filterPair]
  split
  next => exact ⟨_, rfl, by simp⟩
  next =>
    show ∃ r, (if (ops.le _ _) = true then _ else _) = Except.ok r ∧ _
    split
    next => exact ⟨_, rfl, by simp⟩
    next => exact ⟨_, rfl, by simp⟩

end Survivors

/-- Some source is left unless the list sums up too high or the median is too far
from both prices next to it. -/
theorem filterOutliers_survives_iff {rnd : ℚ → ℚ} (law : NearestRounding rnd)
    (sqrt : Option ℚ → Option ℚ) (hne : prices ≠ []) (hlen : prices.length = sources.length)
    (hadmitted : ∀ p ∈ prices, Admitted p) :
    (∃ r, filterOutliers (rationalOpsWith rnd sqrt) prices sources maxDeviationBps = .ok r ∧
        r.filteredSources ≠ []) ↔
      prices.length = 2 ∨
        prices.sum ≤ i128Max ∧ MiddleWithin (rationalOpsWith rnd sqrt) prices maxDeviationBps := by
  by_cases hpair : prices.length = 2
  · obtain ⟨p₀, p₁, rfl⟩ := List.length_eq_two.mp hpair
    obtain ⟨s₀, s₁, rfl⟩ := List.length_eq_two.mp hlen.symm
    exact iff_of_true filterPair_survives (.inl hpair)
  have hpos : ∀ p ∈ prices, 0 < p := fun p hp => (hadmitted p hp).pos
  have hkept : ∀ {r : OutlierFilterResult (Option ℚ)},
      filterOutliers (rationalOpsWith rnd sqrt) prices sources maxDeviationBps = .ok r →
        (r.filteredSources ≠ [] ↔ r.filteredPrices ≠ []) := by
    intro r hr
    have hlengths := (filterOutliers_keeps hlen hr).lengths
    rw [← List.length_pos_iff, ← List.length_pos_iff, hlengths]
  rw [or_iff_right hpair, exists_congr fun r => and_congr_right hkept,
    filterOutliers_returns_iff (P := fun kept => kept ≠ []) hadmitted hne hpair hlen]
  refine and_congr_right fun _ => ?_
  rw [survivors, ne_eq, List.filter_eq_nil_iff]
  constructor
  · intro h
    push Not at h
    obtain ⟨p, hp, hkeep⟩ := h
    exact middleWithin_of_survivor law.toRounding hpos hp (by simpa using hkeep)
  · intro h hall
    obtain ⟨p, hp, hkeep⟩ := survivor_of_middleWithin law hne hpos h
    exact hall p hp (by simp [hkeep])

section Samples

/-- Two groups of two, each a third of the median away from it. -/
def splitPrices : List Int := [100, 100, 200, 200]

def splitSources : List String := ["binance", "coinbase", "kraken", "pyth"]

end Samples

theorem filterOutliers_survives_iff_splitPrices :
    (∃ r, filterOutliers (rationalOpsWith id exactOps.sqrt) splitPrices splitSources 4000 = .ok r ∧
        r.filteredSources ≠ []) ↔
      splitPrices.length = 2 ∨ splitPrices.sum ≤ i128Max ∧
        MiddleWithin (rationalOpsWith id exactOps.sqrt) splitPrices 4000 :=
  filterOutliers_survives_iff nearestRounding_id exactOps.sqrt (by decide) (by decide) (by decide)

theorem filterOutliers_keeps_none :
    ∃ r, filterOutliers exactOps splitPrices splitSources 1000 = .ok r ∧ r.filteredSources = [] := by
  have hkept : (filterOutliers exactOps splitPrices splitSources 1000).toOption.map
      OutlierFilterResult.filteredSources = some [] := by decide +kernel
  obtain ⟨r, hr, hnone⟩ := Option.map_eq_some_iff.mp hkept
  exact ⟨r, eq_ok_of_toOption hr, hnone⟩

end So4Oracle.OutlierSurvival
