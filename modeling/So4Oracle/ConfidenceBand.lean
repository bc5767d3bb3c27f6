import So4Oracle.MiddlePrices
import So4Oracle.PositiveMin

namespace So4Oracle.ConfidenceBand

open Library.Checked Library.Floats Prices Aggregate PriceOverflow MiddlePrices PositiveMin

variable {F : Type} {ops : FloatOps F} {prices sorted : List Int} {sources : List String}
  {observationTimes : List Nat} {minSources maxDeviationBps spreadBps : Nat}
  {agg : AggregatedPrice F} {lo hi mid : Int}

section Percentile

/-- Half is added before the floor is taken, which does not pass a whole price. -/
theorem interpolate_between {below above : Int} {frac : ℚ} (hle : below ≤ above) (h0 : 0 ≤ frac)
    (h1 : frac ≤ 1) :
    below ≤ ⌊(below : ℚ) + frac * (above - below) + 1 / 2⌋ ∧
      ⌊(below : ℚ) + frac * (above - below) + 1 / 2⌋ ≤ above := by
  have hwidth : (0 : ℚ) ≤ above - below := sub_nonneg.mpr (by exact_mod_cast hle)
  have hstep : 0 ≤ frac * ((above : ℚ) - below) := mul_nonneg h0 hwidth
  have hfull : frac * ((above : ℚ) - below) ≤ above - below := mul_le_of_le_one_left hwidth h1
  constructor
  · apply Int.le_floor.mpr
    linarith
  · apply Int.lt_add_one_iff.mp
    apply Int.floor_lt.mpr
    push_cast
    linarith

/-- The two positions that the percentile looks up are the whole numbers around it. -/
theorem position_bounds {p n : Nat} {y : ℚ} (hn : 1 ≤ n) (hy : y = (p : ℚ) / 100 * ((n : ℚ) - 1)) :
    0 ≤ y ∧ p * (n - 1) < 100 * (⌊y⌋.toNat + 1) ∧ 100 * ⌈y⌉.toNat < p * (n - 1) + 100 ∧
      (⌊y⌋.toNat : ℚ) ≤ y ∧ y ≤ ⌊y⌋.toNat + 1 := by
  have hcast : (n : ℚ) - 1 = (n - 1 : Nat) := by
    rw [Nat.cast_sub hn, Nat.cast_one]
  have hnonneg : 0 ≤ y := by
    rw [hy, hcast]
    positivity
  have hscaled : y * 100 = (p * (n - 1) : Nat) := by
    rw [hy, hcast]
    push_cast
    ring
  have hfloor : ((⌊y⌋.toNat : Nat) : ℚ) = ⌊y⌋ := by
    exact_mod_cast Int.toNat_of_nonneg (Int.floor_nonneg.mpr hnonneg)
  have hceil : ((⌈y⌉.toNat : Nat) : ℚ) = ⌈y⌉ := by
    exact_mod_cast Int.toNat_of_nonneg (Int.ceil_nonneg hnonneg)
  have hbelow := Int.floor_le y
  have hnext := Int.lt_floor_add_one y
  have hlast := Int.ceil_lt_add_one y
  rw [← hfloor] at hbelow hnext
  rw [← hceil] at hlast
  refine ⟨hnonneg, ?_, ?_, hbelow, hnext.le⟩
  · have hlt : ((p * (n - 1) : Nat) : ℚ) < (100 * (⌊y⌋.toNat + 1) : Nat) := by
      rw [← hscaled]
      push_cast
      linarith
    exact_mod_cast hlt
  · have hlt : ((100 * ⌈y⌉.toNat : Nat) : ℚ) < (p * (n - 1) + 100 : Nat) := by
      rw [Nat.cast_add, ← hscaled]
      push_cast
      linarith
    exact_mod_cast hlt

theorem percentile_between {p : Nat} {v : Int} (hsorted : sorted.Pairwise (· ≤ ·))
    (hnonneg : ∀ q ∈ sorted, 0 ≤ q) (hlen : 1 < sorted.length) (hp : 0 < p) (hp' : p < 100)
    (h : percentile exactOps sorted p = .ok v) :
    ∃ i j below above, sorted[i]? = some below ∧ sorted[j]? = some above ∧
      p * (sorted.length - 1) < 100 * (i + 1) ∧ 100 * j < p * (sorted.length - 1) + 100 ∧
      below ≤ v ∧ v ≤ above := by
  rw [percentile, if_neg (by omega), if_neg (by omega)] at h
  have htwo : (2 : ℚ) ≠ 0 := by norm_num
  have hhundred : (100 : ℚ) ≠ 0 := by norm_num
  have hhalf : half exactOps = some (1 / 2) := rationalOps_div htwo
  have hdiv : exactOps.div (some (p : ℚ)) (some 100) = some ((p : ℚ) / 100) :=
    rationalOps_div hhundred
  simp only [rationalOps_ofInt, rationalOps_sub, rationalOps_mul, rationalOps_floor,
    rationalOps_ceil, id, Int.cast_natCast, Int.cast_one, Int.cast_ofNat, hdiv, hhalf] at h
  obtain ⟨hy, hfirst, hsecond, hbelow, hnext⟩ := position_bounds (p := p) hlen.le rfl
  generalize (p : ℚ) / 100 * ((sorted.length : ℚ) - 1) = y at h hy hfirst hsecond hbelow hnext
  have hfloor : 0 ≤ ⌊y⌋ := Int.floor_nonneg.mpr hy
  have hceil : 0 ≤ ⌈y⌉ := Int.ceil_nonneg hy
  rw [rationalOps_toInt (by exact_mod_cast hfloor), rationalOps_toInt (by exact_mod_cast hceil),
    Int.floor_intCast, Int.floor_intCast] at h
  have hindex : ⌊y⌋.toNat ≤ ⌈y⌉.toNat := Int.toNat_le_toNat (Int.floor_le_ceil y)
  generalize ⌊y⌋.toNat = i at h hfirst hbelow hnext hindex
  generalize ⌈y⌉.toNat = j at h hsecond hindex
  split at h
  next hij =>
    subst hij
    exact ⟨i, i, v, v, index_eq_ok.mp h, index_eq_ok.mp h, hfirst, hsecond, le_rfl, le_rfl⟩
  next =>
    obtain ⟨below, hlow, h⟩ := bind_eq_ok.mp h
    obtain ⟨above, hhigh, h⟩ := bind_eq_ok.mp h
    rw [index_eq_ok] at hlow hhigh
    have horder : below ≤ above := le_of_sorted hsorted hindex hlow hhigh
    have hfrac : 0 ≤ y - i := sub_nonneg.mpr hbelow
    have hone : y - i ≤ 1 := by linarith
    obtain ⟨hge, hle⟩ := interpolate_between horder hfrac hone
    have hnonneg' : 0 ≤ ⌊(below : ℚ) + (y - i) * (above - below) + 1 / 2⌋ :=
      (hnonneg below (List.mem_of_getElem? hlow)).trans hge
    have hvalue := pure_eq_ok.mp h
    rw [rationalOps_add, rationalOps_add, rationalOps_floor] at hvalue
    simp only [id] at hvalue
    rw [rationalOps_toInt (by exact_mod_cast hnonneg'), Int.floor_intCast] at hvalue
    subst hvalue
    exact ⟨i, j, below, above, hlow, hhigh, hfirst, hsecond, hge, hle⟩

/-- The tenth percentile is at most the lower middle price. -/
theorem percentile_ten_le {v : Int} (hsorted : sorted.Pairwise (· ≤ ·))
    (hnonneg : ∀ q ∈ sorted, 0 ≤ q) (hlen : minSourcesForPercentile ≤ sorted.length)
    (h : percentile exactOps sorted 10 = .ok v) : v ≤ lowerMiddle sorted := by
  rw [minSourcesForPercentile] at hlen
  obtain ⟨i, j, below, above, -, habove, -, hj, -, hv⟩ :=
    percentile_between hsorted hnonneg (by omega) (by decide) (by decide) h
  exact hv.trans (le_lowerMiddle hsorted (by omega) habove)

theorem le_percentile_ninety {v : Int} (hsorted : sorted.Pairwise (· ≤ ·))
    (hnonneg : ∀ q ∈ sorted, 0 ≤ q) (hlen : minSourcesForPercentile ≤ sorted.length)
    (h : percentile exactOps sorted 90 = .ok v) : upperMiddle sorted ≤ v := by
  rw [minSourcesForPercentile] at hlen
  obtain ⟨i, j, below, above, hbelow, -, hi, -, hv, -⟩ :=
    percentile_between hsorted hnonneg (by omega) (by decide) (by decide) h
  exact (upperMiddle_le hsorted (by omega) hbelow).trans hv

end Percentile

section Band

variable (ops) in
/-- The ends of the band before it is widened. -/
def bandEnds (prices : List Int) : Panicking (Int × Int) :=
  let sorted := sortUnstable prices
  if minSourcesForPercentile ≤ sorted.length then do
    let lo ← percentile ops sorted 10
    let hi ← percentile ops sorted 90
    pure (lo, hi)
  else pure (middlePrice sorted, middlePrice sorted)

theorem computeMedianAllowSingle_eq_ok (hne : prices ≠ []) (hnonneg : ∀ p ∈ prices, 0 ≤ p)
    {median : Option Int} :
    computeMedianAllowSingle prices = .ok median ↔
      MiddleFits (sortUnstable prices) ∧ median = some (middlePrice (sortUnstable prices)) := by
  rw [computeMedianAllowSingle, if_neg hne, map_eq_ok]
  simp only [middle_eq_ok (sortUnstable_ne_nil hne) (forall_sortUnstable hnonneg)]
  constructor
  · rintro ⟨m, ⟨hfits, rfl⟩, rfl⟩
    exact ⟨hfits, rfl⟩
  · rintro ⟨hfits, rfl⟩
    exact ⟨_, ⟨hfits, rfl⟩, rfl⟩

/-- The band is computed when the ends are and the median does not overflow. -/
theorem interval_eq_ok (hne : prices ≠ []) (hnonneg : ∀ p ∈ prices, 0 ≤ p) {props : PriceProps} :
    computeConfidenceIntervalWithSpread ops prices spreadBps = .ok (some props) ↔
      MiddleFits (sortUnstable prices) ∧ ∃ lo hi, bandEnds ops prices = .ok (lo, hi) ∧
        props = widen lo hi (spreadAround (middlePrice (sortUnstable prices)) spreadBps) := by
  rw [computeConfidenceIntervalWithSpread, if_neg hne, bandEnds]
  dsimp only
  rw [computeMedianAllowSingle_sorted]
  split
  next =>
    simp only [bind_eq_ok, pure_eq_ok, computeMedianAllowSingle_eq_ok hne hnonneg]
    constructor
    · rintro ⟨lo, hlo, hi, hhi, -, ⟨hfits, rfl⟩, hprops⟩
      cases hprops
      exact ⟨hfits, lo, hi, ⟨lo, hlo, hi, hhi, rfl⟩, rfl⟩
    · rintro ⟨hfits, lo', hi', ⟨lo, hlo, hi, hhi, hends⟩, rfl⟩
      cases hends
      exact ⟨_, hlo, _, hhi, _, ⟨hfits, rfl⟩, rfl⟩
  next =>
    simp only [bind_eq_ok, pure_eq_ok, computeMedianAllowSingle_eq_ok hne hnonneg]
    constructor
    · rintro ⟨-, ⟨hfits, rfl⟩, hprops⟩
      cases hprops
      exact ⟨hfits, _, _, rfl, rfl⟩
    · rintro ⟨hfits, lo, hi, hends, rfl⟩
      cases hends
      exact ⟨_, ⟨hfits, rfl⟩, rfl⟩

theorem spreadAround_nonneg (hmid : 0 < mid) : 0 ≤ spreadAround mid spreadBps := by
  have hmax : 0 ≤ i128Max := by decide
  have hproduct : 0 ≤ mid * spreadBps := mul_nonneg hmid.le (Int.natCast_nonneg _)
  rw [spreadAround_eq hmid]
  omega

theorem widen_contains {spread : Int} (hlo : lo ≤ mid) (hhi : mid ≤ hi) (hspread : 0 ≤ spread)
    (hmid : Admitted mid) : (widen lo hi spread).min ≤ mid ∧ mid ≤ (widen lo hi spread).max := by
  obtain ⟨hpos, hmax⟩ := hmid
  simp only [widen, saturate, i128Min]
  omega

variable (hexact : ∀ sorted p, percentile ops sorted p = percentile exactOps sorted p)
include hexact

theorem bandEnds_contain (hne : prices ≠ []) (hnonneg : ∀ p ∈ prices, 0 ≤ p)
    (h : bandEnds ops prices = .ok (lo, hi)) :
    lo ≤ middlePrice (sortUnstable prices) ∧ middlePrice (sortUnstable prices) ≤ hi := by
  have hsorted : (sortUnstable prices).Pairwise (· ≤ ·) := sorted_sortUnstable
  have hnonneg' := forall_sortUnstable hnonneg
  obtain ⟨hlower, hupper⟩ := middlePrice_between hsorted (sortUnstable_ne_nil hne)
  rw [bandEnds] at h
  split at h
  next hmany =>
    simp only [bind_eq_ok, pure_eq_ok, hexact] at h
    obtain ⟨lo', hlo, hi', hhi, hends⟩ := h
    cases hends
    exact ⟨(percentile_ten_le hsorted hnonneg' hmany hlo).trans hlower,
      hupper.trans (le_percentile_ninety hsorted hnonneg' hmany hhi)⟩
  next =>
    cases h
    exact ⟨le_rfl, le_rfl⟩

theorem interval_contains_middle (hadmitted : ∀ p ∈ prices, Admitted p) {props : PriceProps}
    (hmid : computeMedianAllowSingle prices = .ok (some mid))
    (h : computeConfidenceIntervalWithSpread ops prices spreadBps = .ok (some props)) :
    props.min ≤ mid ∧ mid ≤ props.max := by
  have hne := (computeMedianAllowSingle_eq_some hmid).1
  have hnonneg : ∀ p ∈ prices, 0 ≤ p := fun p hp => (hadmitted p hp).nonneg
  have hrange : Admitted mid := computeMedianAllowSingle_bounds hmid hadmitted
  obtain ⟨-, hvalue⟩ := (computeMedianAllowSingle_eq_ok hne hnonneg).mp hmid
  obtain ⟨-, lo, hi, hends, rfl⟩ := (interval_eq_ok hne hnonneg).mp h
  obtain ⟨hlo, hhi⟩ := bandEnds_contain hexact hne hnonneg hends
  cases hvalue
  exact widen_contains hlo hhi (spreadAround_nonneg hrange.1) hrange

end Band

/-- The aggregated price lies inside its band. -/
theorem aggregatePrices_ordered
    (hexact : ∀ sorted p, percentile ops sorted p = percentile exactOps sorted p)
    (hadmitted : ∀ p ∈ prices, Admitted p)
    (h : Returns (aggregatePrices ops prices sources observationTimes minSources maxDeviationBps)
      agg) : agg.min ≤ agg.median ∧ agg.median ≤ agg.max := by
  obtain ⟨cluster, filter, hagg⟩ := aggregatePrices_returns h
  have hused : ∀ p ∈ filter.filteredPrices, Admitted p :=
    fun p hp => hadmitted p (hagg.mem_prices hp)
  exact interval_contains_middle hexact hused hagg.median hagg.interval

theorem aggregatePrices_ordered_three :
    ∃ agg, Returns (aggregatePrices exactOps [1000, 1010, 1030] ["binance", "coinbase", "pyth"]
        [1, 1, 1] 3 300) agg ∧ agg.min ≤ agg.median ∧ agg.median ≤ agg.max := by
  obtain ⟨agg, hagg, -⟩ := exists_returns (p := fun _ => true)
    (x := aggregatePrices exactOps [1000, 1010, 1030] ["binance", "coinbase", "pyth"] [1, 1, 1] 3 300)
    (by decide +kernel)
  exact ⟨agg, hagg, aggregatePrices_ordered (fun _ _ => rfl) (by decide) hagg⟩

section Exactness

/-- The band of the ends in unbounded integers. -/
def exactBand (lo hi mid : Int) (spreadBps : Nat) : PriceProps :=
  ⟨max 0 (lo - mid * spreadBps / 10000), hi + mid * spreadBps / 10000⟩

/-- Neither the sum for the median nor the product for the spread reaches the limit. -/
def SpreadExact (prices : List Int) (spreadBps : Nat) : Prop :=
  MiddleFits (sortUnstable prices) ∧
    middlePrice (sortUnstable prices) * spreadBps / 10000 ≤ i128Max / 10000

/-- Saturated, the spread falls short of the one in unbounded integers. -/
theorem spreadAround_exact_iff (hmid : 0 < mid) :
    spreadAround mid spreadBps = mid * spreadBps / 10000 ↔
      mid * spreadBps / 10000 ≤ i128Max / 10000 := by
  rw [spreadAround_eq hmid]
  omega

theorem widen_exact {spread : Int} (hlo : lo ≤ i128Max) (hspread : 0 ≤ spread)
    (hmax : hi + spread ≤ i128Max) (hmin : i128Min ≤ hi) :
    widen lo hi spread = ⟨max 0 (lo - spread), hi + spread⟩ := by
  simp only [widen, saturate, PriceProps.mk.injEq, i128Min, i128Max] at *
  omega

theorem middlePrice_pos (hne : prices ≠ []) (hpos : ∀ p ∈ prices, 0 < p) :
    0 < middlePrice (sortUnstable prices) := by
  have hsorted := sortUnstable_ne_nil hne
  have hlower : 0 < lowerMiddle (sortUnstable prices) :=
    forall_sortUnstable hpos _ (lowerMiddle_mem hsorted)
  exact hlower.trans_le (middlePrice_between sorted_sortUnstable hsorted).1

end Exactness

/-- The ends are values of 128 bits. -/
theorem interval_exact_iff (hne : prices ≠ []) (hpos : ∀ p ∈ prices, 0 < p)
    (hends : bandEnds ops prices = .ok (lo, hi)) (hlo : lo ≤ i128Max) (hhi : i128Min ≤ hi)
    (hmax : hi + middlePrice (sortUnstable prices) * spreadBps / 10000 ≤ i128Max) :
    computeConfidenceIntervalWithSpread ops prices spreadBps =
        .ok (some (exactBand lo hi (middlePrice (sortUnstable prices)) spreadBps)) ↔
      SpreadExact prices spreadBps := by
  have hmid := middlePrice_pos hne hpos
  rw [interval_eq_ok hne (fun p hp => (hpos p hp).le), SpreadExact, exactBand]
  generalize middlePrice (sortUnstable prices) = mid at hmid hmax ⊢
  refine and_congr_right fun _ => ?_
  rw [← spreadAround_exact_iff hmid]
  have hspread : 0 ≤ spreadAround mid spreadBps := spreadAround_nonneg hmid
  have hshort : 10000 * spreadAround mid spreadBps ≤ mid * spreadBps := spreadAround_le hmid
  have hfits : hi + spreadAround mid spreadBps ≤ i128Max := by omega
  have hwiden := widen_exact hlo hspread hfits hhi
  constructor
  · rintro ⟨lo', hi', hends', hprops⟩
    rw [hends] at hends'
    cases hends'
    rw [hwiden, PriceProps.mk.injEq] at hprops
    omega
  · intro hexact
    refine ⟨lo, hi, hends, ?_⟩
    rw [hwiden, hexact]

section Samples

/-- 60000 dollars, with the whole price as the spread. -/
def dearPrice : Int := 60000 * 10 ^ 30

end Samples

theorem interval_exact_iff_threePrices :
    computeConfidenceIntervalWithSpread exactOps [1000, 1010, 1030] 300 =
        .ok (some (exactBand 1002 1026 1010 300)) ↔ SpreadExact [1000, 1010, 1030] 300 := by
  have hends : bandEnds exactOps [1000, 1010, 1030] = .ok (1002, 1026) :=
    eq_ok_of_toOption (by decide +kernel)
  exact interval_exact_iff (by decide) (by decide) hends (by decide) (by decide) (by decide +kernel)

/-- The product saturates, and the band is narrower than the whole price. -/
theorem interval_saturates :
    computeConfidenceIntervalWithSpread exactOps [dearPrice] 10000 =
        .ok (some ⟨42985881653953076826831269628411590, 77014118346046923173168730371588410⟩) ∧
      bandEnds exactOps [dearPrice] = .ok (dearPrice, dearPrice) ∧
      exactBand dearPrice dearPrice dearPrice 10000 = ⟨0, 120000 * 10 ^ 30⟩ ∧
      120000 * 10 ^ 30 ≤ i128Max := by
  refine ⟨eq_ok_of_toOption ?_, eq_ok_of_toOption ?_, ?_, ?_⟩ <;> decide +kernel

end So4Oracle.ConfidenceBand
