import Mathlib.Algebra.Order.BigOperators.Group.List
import So4Oracle.MajorityBound

namespace So4Oracle.PositiveMin

open Library.Checked Library.Floats Prices Cluster Aggregate MajorityBound

variable {F : Type} {ops : FloatOps F} {prices used : List Int} {sources : List String}
  {observationTimes : List Nat} {minSources maxDeviationBps : Nat} {agg : AggregatedPrice F}
  {cluster : ClusterResult} {filter : OutlierFilterResult F}

section Interval

theorem widen_min_pos {lo hi spread : Int} : 0 < (widen lo hi spread).min ↔ spread < lo := by
  simp only [widen, saturate, i128Min, i128Max]
  omega

theorem spreadAround_eq {mid : Int} {bps : Nat} (hmid : 0 < mid) :
    spreadAround mid bps = min i128Max (mid * bps) / 10000 := by
  have hproduct : 0 ≤ mid * bps := mul_nonneg hmid.le (Int.natCast_nonneg bps)
  have hsaturate : saturate (mid * bps) = min i128Max (mid * bps) := by
    simp only [saturate, i128Min, i128Max]
    omega
  rw [spreadAround, hsaturate, Int.tdiv_eq_ediv_of_nonneg (le_min (by decide) hproduct)]

theorem spreadAround_le {mid : Int} {bps : Nat} (hmid : 0 < mid) :
    10000 * spreadAround mid bps ≤ mid * bps := by
  rw [spreadAround_eq hmid]
  omega

/-- The spread of a median reaches down to zero at 10000 basis points, where the
product does not saturate. -/
theorem spreadAround_lt_self {mid : Int} {bps : Nat} (hmid : 0 < mid) (hmax : bps ≤ 10000) :
    spreadAround mid bps < mid ↔ bps < 10000 ∨ i128Max < mid * 10000 := by
  have hproduct : mid * bps ≤ mid * 10000 :=
    mul_le_mul_of_nonneg_left (by exact_mod_cast hmax) hmid.le
  rw [spreadAround_eq hmid]
  rcases hmax.lt_or_eq with hless | rfl
  · have hstrict : mid * bps < mid * 10000 :=
      mul_lt_mul_of_pos_left (by exact_mod_cast hless) hmid
    constructor
    · exact fun _ => .inl hless
    · intro _
      omega
  · have hten : mid * ((10000 : Nat) : Int) = mid * 10000 := rfl
    rw [hten]
    rcases le_or_gt (mid * 10000) i128Max with hfits | hover
    · rw [min_eq_right hfits]
      omega
    · rw [min_eq_left hover.le]
      omega

variable (ops) in
/-- The lower end of the band before it is widened. -/
def lowerEnd (used : List Int) (mid : Int) : Panicking Int :=
  if minSourcesForPercentile ≤ used.length then percentile ops (sortUnstable used) 10 else pure mid

/-- The band ends above zero exactly when the spread is less than its lower end. -/
theorem interval_min_pos {props : PriceProps} {mid : Int}
    (hmid : computeMedianAllowSingle used = .ok (some mid))
    (h : computeConfidenceIntervalWithSpread ops used maxDeviationBps = .ok (some props)) :
    ∃ low, lowerEnd ops used mid = .ok low ∧
      (0 < props.min ↔ spreadAround mid maxDeviationBps < low) := by
  have hlength : (sortUnstable used).length = used.length := length_sortUnstable
  rw [computeConfidenceIntervalWithSpread] at h
  rw [if_neg (computeMedianAllowSingle_eq_some hmid).1] at h
  rw [lowerEnd]
  dsimp only at h
  rw [hlength, computeMedianAllowSingle_sorted, hmid] at h
  split at h
  next hmany =>
    obtain ⟨low, hlow, h⟩ := bind_eq_ok.mp h
    obtain ⟨high, -, h⟩ := bind_eq_ok.mp h
    cases h
    rw [if_pos hmany]
    exact ⟨low, hlow, widen_min_pos⟩
  next hfew =>
    cases h
    rw [if_neg hfew]
    exact ⟨mid, rfl, widen_min_pos⟩

end Interval

theorem used_pos (hpos : ∀ p ∈ prices, 0 < p)
    (h : Aggregated ops prices sources observationTimes minSources maxDeviationBps agg cluster
      filter) : ∀ p ∈ filter.filteredPrices, 0 < p :=
  fun p hp => hpos p (h.mem_prices hp)

theorem median_pos {mid : Int} (hpos : ∀ p ∈ used, 0 < p)
    (hmid : computeMedianAllowSingle used = .ok (some mid)) : 0 < mid := by
  have hsum : ∀ p ∈ used, 1 ≤ p ∧ p ≤ used.sum := by
    intro p hp
    exact ⟨hpos p hp, List.single_le_sum (fun q hq => (hpos q hq).le) p hp⟩
  exact (computeMedianAllowSingle_bounds hmid hsum).1

section Few

variable (h : Aggregated ops prices sources observationTimes minSources maxDeviationBps agg cluster
  filter)
include h

theorem length_filtered_le : filter.filteredPrices.length ≤ prices.length := by
  have hkept := h.kept_sublist.length_le
  rwa [length_sortQuotes h.sourcesLength, ← List.length_map Prod.fst, h.kept_prices] at hkept

/-- Up to two prices the band ends a spread below the median. -/
theorem min_pos_of_few (hpos : ∀ p ∈ prices, 0 < p) (hmax : maxDeviationBps ≤ 10000)
    (hfew : prices.length ≤ 2) :
    0 < agg.min ↔ maxDeviationBps < 10000 ∨ i128Max < agg.median * 10000 := by
  have hlength : ¬minSourcesForPercentile ≤ filter.filteredPrices.length :=
    not_le.mpr ((length_filtered_le h).trans_lt (Nat.lt_succ_of_le hfew))
  obtain ⟨low, hlow, hmin⟩ := interval_min_pos h.median h.interval
  rw [lowerEnd, if_neg hlength] at hlow
  cases hlow
  rw [hmin, spreadAround_lt_self (median_pos (used_pos hpos h) h.median) hmax]

theorem median_bounds {lo hi : Int} (hbounds : ∀ p ∈ prices, lo ≤ p ∧ p ≤ hi) :
    lo ≤ agg.median ∧ agg.median ≤ hi :=
  computeMedianAllowSingle_bounds h.median fun p hp => hbounds p (h.mem_prices hp)

end Few

section Safe

variable {rnd : ℚ → ℚ} (law : Rounding rnd)
include law

/-- Prices that 6180 basis points hold together are less than a factor of 1.6181 apart. -/
theorem spread_of_cluster {lo hi : Int} {bps : Nat} (hlo : 0 < lo) (hle : lo ≤ hi) (hbps : bps ≤ 6180)
    (h : ¬exceedsBps (rationalOps rnd) hi lo bps = true) :
    (hi : ℚ) * (618 / 1000) ≤ lo * (99999 / 100000) := by
  have hlo' : (0 : ℚ) < lo := by exact_mod_cast hlo
  have hle' : (lo : ℚ) ≤ hi := by exact_mod_cast hle
  have hone : 0 < rnd 1 := by
    rw [law.one]
    exact one_pos
  obtain ⟨hB, hnum, hdev⟩ := deviationBps_rationalOps law.mono law.zero hone hlo hle
  have htol : rnd bps = bps := law.small bps (by
    rw [Nat.abs_cast]
    exact_mod_cast hbps.trans (by norm_num))
  have hthousand : rnd 10000 = 10000 := by exact_mod_cast law.small 10000 (by norm_num)
  rw [exceedsBps, hdev, rationalOps_ofInt, rationalOps_lt, decide_eq_true_eq, not_lt, Int.cast_natCast,
    htol, hthousand] at h
  have hquot := div_nonneg hnum hB.le
  have hscaled : 0 ≤ rnd (rnd (rnd hi - rnd lo) / rnd lo) * 10000 :=
    mul_nonneg (law.nonneg hquot) (by norm_num)
  have hdiff : 0 ≤ rnd hi - rnd lo := sub_nonneg.mpr (law.mono hle')
  -- each of the three roundings costs a factor close to one
  have hfirst := (law.bounds hscaled).1
  have hsecond := (law.bounds hquot).1
  have hthird := (law.bounds hdiff).1
  have hratio : rnd (rnd hi - rnd lo) / rnd lo ≤ 618004 / 1000000 := by
    have hbound : (bps : ℚ) ≤ 6180 := by exact_mod_cast hbps
    linarith
  have hnear : rnd (rnd hi - rnd lo) ≤ 618004 / 1000000 * rnd lo := (div_le_iff₀ hB).mp hratio
  have hhi := (law.bounds (hlo'.le.trans hle')).1
  have hlow := (law.bounds hlo'.le).2
  linarith

/-- Interpolation between two prices does not fall below the rounded lower one. -/
theorem interpolate_ge {below above : Int} {frac : ℚ} (hbelow : 0 < below) (hle : below ≤ above)
    (hfrac : 0 ≤ frac) :
    rnd below ≤ (rationalOps rnd).toInt ((rationalOps rnd).floor ((rationalOps rnd).add
      ((rationalOps rnd).add (some (rnd below)) (some (rnd (frac * rnd (rnd above - rnd below)))))
      (half (rationalOps rnd)))) := by
  have hhalf : half (rationalOps rnd) = some (1 / 2) := by
    have htwo : rnd 2 = 2 := by exact_mod_cast law.small 2 (by norm_num)
    simp only [half, rationalOps_ofInt, Int.cast_one, Int.cast_ofNat, law.one, htwo]
    rw [rationalOps_div (by norm_num), law.half]
  obtain ⟨m, hm⟩ := law.integral below
  have hmpos : 0 ≤ rnd below := law.nonneg (by exact_mod_cast hbelow.le)
  have hstep : 0 ≤ rnd (frac * rnd (rnd above - rnd below)) := by
    apply law.nonneg (mul_nonneg hfrac (law.nonneg ?_))
    exact sub_nonneg.mpr (law.mono (by exact_mod_cast hle))
  have hsum : rnd below ≤ rnd (rnd below + rnd (frac * rnd (rnd above - rnd below))) := by
    calc rnd below = rnd (rnd below) := (law.idempotent _).symm
      _ ≤ _ := law.mono (by linarith)
  have hshift : rnd below ≤
      rnd (rnd (rnd below + rnd (frac * rnd (rnd above - rnd below))) + 1 / 2) := by
    calc rnd below = rnd (rnd below) := (law.idempotent _).symm
      _ ≤ _ := law.mono (by linarith)
  rw [hhalf, rationalOps_add, rationalOps_add, rationalOps_floor]
  generalize rnd (rnd (rnd below + rnd (frac * rnd (rnd above - rnd below))) + 1 / 2) = z at hshift ⊢
  have hfloor : m ≤ ⌊z⌋ := Int.le_floor.mpr (hm ▸ hshift)
  have hrounded : (m : ℚ) ≤ rnd ⌊z⌋ := by
    calc (m : ℚ) = rnd m := by rw [← hm, law.idempotent]
      _ ≤ rnd ⌊z⌋ := law.mono (by exact_mod_cast hfloor)
  rw [hm] at hmpos ⊢
  rw [rationalOps_toInt (hmpos.trans hrounded)]
  exact_mod_cast Int.le_floor.mpr hrounded

theorem percentile_ge {sorted : List Int} (hsorted : sorted.Pairwise (· ≤ ·)) {lo v : Int}
    (hlen : 1 ≤ sorted.length) (hlo : 0 < lo) (hbound : ∀ p ∈ sorted, lo ≤ p)
    (h : percentile (rationalOps rnd) sorted 10 = .ok v) : (lo : ℚ) * (999999 / 1000000) ≤ v := by
  have hlo' : (0 : ℚ) < lo := by exact_mod_cast hlo
  have hmember : ∀ {i p}, index sorted i = .ok p → (lo : ℚ) * (999999 / 1000000) ≤ p := by
    intro i p hp
    have hle : (lo : ℚ) ≤ p := by exact_mod_cast hbound p (mem_of_index hp)
    linarith
  rw [percentile] at h
  split at h
  next => exact hmember h
  next hmany =>
    rw [if_neg (by decide)] at h
    have hten : rnd 10 = 10 := by exact_mod_cast law.small 10 (by norm_num)
    have hhundred : rnd 100 = 100 := by exact_mod_cast law.small 100 (by norm_num)
    have hdiv : (rationalOps rnd).div (some 10) (some 100) = some (rnd (10 / 100)) :=
      rationalOps_div (by norm_num)
    simp only [rationalOps_ofInt, Int.cast_ofNat, Nat.cast_ofNat, hten, hhundred, hdiv,
      rationalOps_sub, rationalOps_mul, rationalOps_floor, rationalOps_ceil, Int.cast_one] at h
    have hidx : 0 ≤ rnd (10 / 100) * rnd (rnd ((sorted.length : Int) : ℚ) - rnd 1) := by
      apply mul_nonneg (law.nonneg (by norm_num)) (law.nonneg (sub_nonneg.mpr (law.mono ?_)))
      exact_mod_cast hlen
    have hy := law.nonneg hidx
    have hsame := law.idempotent (rnd (10 / 100) * rnd (rnd ((sorted.length : Int) : ℚ) - rnd 1))
    generalize rnd (rnd (10 / 100) * rnd (rnd ((sorted.length : Int) : ℚ) - rnd 1)) = y at h hy hsame
    have hfloor : rnd ⌊y⌋ ≤ y := by
      calc rnd ⌊y⌋ ≤ rnd y := law.mono (Int.floor_le y)
        _ = y := hsame
    have hfloor0 : 0 ≤ rnd ⌊y⌋ := law.nonneg (by exact_mod_cast Int.floor_nonneg.mpr hy)
    have hceil : rnd ⌊y⌋ ≤ rnd ⌈y⌉ := law.mono (by exact_mod_cast Int.floor_le_ceil y)
    rw [rationalOps_toInt hfloor0, rationalOps_toInt (hfloor0.trans hceil)] at h
    have hindex : ⌊rnd ⌊y⌋⌋.toNat ≤ ⌊rnd ⌈y⌉⌋.toNat := Int.toNat_le_toNat (Int.floor_mono hceil)
    have hposition : ((⌊rnd ⌊y⌋⌋.toNat : Int) : ℚ) ≤ y := by
      rw [Int.toNat_of_nonneg (Int.floor_nonneg.mpr hfloor0)]
      exact (Int.floor_le _).trans hfloor
    generalize ⌊rnd ⌊y⌋⌋.toNat = i at h hindex hposition
    generalize ⌊rnd ⌈y⌉⌋.toNat = j at h hindex
    split at h
    next => exact hmember h
    next =>
      obtain ⟨below, hbelow, h⟩ := bind_eq_ok.mp h
      obtain ⟨above, habove, h⟩ := bind_eq_ok.mp h
      have hfrac : 0 ≤ rnd (y - rnd ((i : Int) : ℚ)) := by
        apply law.nonneg (sub_nonneg.mpr ?_)
        rw [← hsame]
        exact law.mono hposition
      have hle : below ≤ above :=
        le_of_sorted hsorted hindex (index_eq_ok.mp hbelow) (index_eq_ok.mp habove)
      have hpos : 0 < below := hlo.trans_le (hbound below (mem_of_index hbelow))
      have hinterpolate := interpolate_ge law hpos hle hfrac
      rw [pure_eq_ok.mp h] at hinterpolate
      have hlow : (lo : ℚ) ≤ below := by exact_mod_cast hbound below (mem_of_index hbelow)
      have hrounded := (law.bounds (hlo'.le.trans hlow)).1
      linarith

/-- Where the highest price is apart from the lowest by less than the spread leaves,
the band ends above zero. -/
theorem min_pos_of_room {agg : AggregatedPrice (Option ℚ)} {filter : OutlierFilterResult (Option ℚ)}
    (h : Aggregated (rationalOps rnd) prices sources observationTimes minSources maxDeviationBps agg
      cluster filter) {lo hi : Int} (hlo : 0 < lo)
    (hused : ∀ p ∈ filter.filteredPrices, lo ≤ p ∧ p ≤ hi)
    (hroom : (hi : ℚ) * maxDeviationBps ≤ lo * (99999 / 10)) : 0 < agg.min := by
  obtain ⟨hmidlo, hmidhi⟩ := computeMedianAllowSingle_bounds h.median hused
  have hmid : 0 < agg.median := hlo.trans_le hmidlo
  have hlo' : (0 : ℚ) < lo := by exact_mod_cast hlo
  obtain ⟨low, hlow, hmin⟩ := interval_min_pos h.median h.interval
  rw [hmin]
  rw [lowerEnd] at hlow
  split at hlow
  next hmany =>
    have hsorted : ∀ p ∈ sortUnstable filter.filteredPrices, lo ≤ p :=
      forall_sortUnstable fun p hp => (hused p hp).1
    have hlength : 1 ≤ (sortUnstable filter.filteredPrices).length := by
      rw [length_sortUnstable]
      exact le_trans (by decide) hmany
    have hpercentile := percentile_ge law sorted_sortUnstable hlength hlo hsorted hlow
    have hspread : (10000 * spreadAround agg.median maxDeviationBps : ℚ) ≤ hi * maxDeviationBps := by
      have hle : 10000 * spreadAround agg.median maxDeviationBps ≤ hi * maxDeviationBps :=
        (spreadAround_le hmid).trans (mul_le_mul_of_nonneg_right hmidhi (Int.natCast_nonneg _))
      exact_mod_cast hle
    have hlt : (spreadAround agg.median maxDeviationBps : ℚ) < low := by linarith
    exact_mod_cast hlt
  next =>
    cases hlow
    have hwide : (lo : ℚ) ≤ hi := by exact_mod_cast hmidlo.trans hmidhi
    have hbps : (maxDeviationBps : ℚ) < 10000 := by
      by_contra hlarge
      have hscaled := mul_le_mul hwide (not_lt.mp hlarge) (by norm_num) (hlo'.le.trans hwide)
      linarith
    have hless : maxDeviationBps < 10000 := by exact_mod_cast hbps
    exact (spreadAround_lt_self hmid hless.le).mpr (.inl hless)

theorem room_of_cluster (hpos : ∀ p ∈ prices, 0 < p) (hmax : maxDeviationBps ≤ 6180)
    {agg : AggregatedPrice (Option ℚ)} {filter : OutlierFilterResult (Option ℚ)}
    (h : Aggregated (rationalOps rnd) prices sources observationTimes minSources maxDeviationBps agg
      cluster filter) :
    ∃ lo hi : Int, 0 < lo ∧ (∀ p ∈ filter.filteredPrices, lo ≤ p ∧ p ≤ hi) ∧
      (hi : ℚ) * maxDeviationBps ≤ lo * (99999 / 10) := by
  have hdeviation : MonotoneDeviation (rationalOps rnd) := by
    apply monotoneDeviation_rationalOps law.mono law.zero
    rw [law.one]
    exact one_pos
  obtain ⟨w, hbest, hkept⟩ := kept_in_window hdeviation hpos h
  obtain ⟨lo, hi, hlo, hfits, hbounds⟩ := best_bounds hpos hbest
  have hused : ∀ p ∈ filter.filteredPrices, lo ≤ p ∧ p ≤ hi := by
    intro p hp
    rw [← h.kept_prices] at hp
    obtain ⟨q, hq, rfl⟩ := List.mem_map.mp hp
    exact hbounds q (hkept q hq)
  refine ⟨lo, hi, hlo, hused, ?_⟩
  obtain ⟨hmidlo, hmidhi⟩ := computeMedianAllowSingle_bounds h.median hused
  have htolerance : clusterToleranceBps maxDeviationBps ≤ 6180 := max_le hmax (by decide)
  have hwide := spread_of_cluster law hlo (hmidlo.trans hmidhi) htolerance hfits
  have hhi : (0 : ℚ) ≤ hi := by exact_mod_cast (hlo.le.trans hmidlo).trans hmidhi
  have hscaled : (hi : ℚ) * maxDeviationBps ≤ hi * 6180 :=
    mul_le_mul_of_nonneg_left (by exact_mod_cast hmax) hhi
  linarith

/-- A deviation of at most 6180 basis points, or one that is small beside the ratio
of any two prices. One or two prices need less than 10000, or a product that saturates. -/
def LeavesRoom (prices : List Int) (maxDeviationBps : Nat) : Prop :=
  maxDeviationBps ≤ 6180 ∨
    (∀ p ∈ prices, ∀ q ∈ prices, q * maxDeviationBps ≤ p * 9999) ∨
    prices.length ≤ 2 ∧ (maxDeviationBps < 10000 ∨ ∀ p ∈ prices, i128Max < p * 10000)

/-- The band ends above zero where it has room, which up to two prices it has
exactly below the end of the range, unless the product with the median saturates. -/
theorem aggregatePrices_min_pos (hpos : ∀ p ∈ prices, 0 < p) (hmax : maxDeviationBps ≤ 10000)
    {agg : AggregatedPrice (Option ℚ)}
    (h : Returns (aggregatePrices (rationalOps rnd) prices sources observationTimes minSources
      maxDeviationBps) agg) :
    (LeavesRoom prices maxDeviationBps → 0 < agg.min) ∧
      (prices.length ≤ 2 → (∀ p ∈ prices, p * 10000 ≤ i128Max) →
        (0 < agg.min ↔ maxDeviationBps < 10000)) := by
  obtain ⟨cluster, filter, hagg⟩ := aggregatePrices_returns h
  have hne : prices ≠ [] := by
    obtain ⟨p, hp⟩ := List.exists_mem_of_ne_nil _ (computeMedianAllowSingle_eq_some hagg.median).1
    exact List.ne_nil_of_mem (hagg.mem_prices hp)
  obtain ⟨lo, hlo, hi, hhi, hbounds⟩ := exists_bounds hne
  obtain ⟨hmidlo, hmidhi⟩ := median_bounds hagg hbounds
  constructor
  · rintro (hnarrow | hnear | ⟨hfew, hless⟩)
    · obtain ⟨low, high, hlow, hused, hroom⟩ := room_of_cluster law hpos hnarrow hagg
      exact min_pos_of_room law hagg hlow hused hroom
    · have hroom : (hi : ℚ) * maxDeviationBps ≤ lo * 9999 := by exact_mod_cast hnear lo hlo hi hhi
      have hlow : (0 : ℚ) < lo := by exact_mod_cast hpos lo hlo
      exact min_pos_of_room law hagg (hpos lo hlo) (fun p hp => hbounds p (hagg.mem_prices hp))
        (by linarith)
    · rw [min_pos_of_few hagg hpos hmax hfew]
      refine hless.imp id fun hlarge => ?_
      have hsaturates := hlarge lo hlo
      omega
  · intro hfew hsmall
    rw [min_pos_of_few hagg hpos hmax hfew]
    have hfits := hsmall hi hhi
    omega

end Safe

section Samples

/-- Prices a factor of 1.6181 apart, the lower two at the tenth percentile. -/
def stretchedPrices : List Int := [10000, 10000, 16181, 16181, 16181]

def heldPrices : List Int := [10000, 10000, 16180, 16180, 16180]

def stretchedSources : List String := ["binance", "coinbase", "fixed", "kraken", "pyth"]

end Samples

/-- Five sources that all survive at the largest deviation that is safe for any prices. -/
theorem aggregatePrices_min_pos_stretched :
    ∃ agg, Returns (aggregatePrices exactOps heldPrices stretchedSources [1, 1, 1, 1, 1] 3 6180) agg ∧
      agg.sourcesUsed.length = 5 ∧ 0 < agg.min := by
  obtain ⟨agg, hagg, hused⟩ := exists_returns
    (p := fun agg : AggregatedPrice (Option ℚ) => agg.sourcesUsed.length == 5)
    (x := aggregatePrices exactOps heldPrices stretchedSources [1, 1, 1, 1, 1] 3 6180)
    (by decide +kernel)
  exact ⟨agg, hagg, beq_iff_eq.mp hused,
    (aggregatePrices_min_pos rounding_id (by decide) (by decide) hagg).1 (.inl (by decide))⟩

/-- A single source at the largest deviation the configuration admits, and five
sources one basis point above the bound. -/
theorem aggregatePrices_min_zero :
    (∃ agg, Returns (aggregatePrices exactOps [5000] ["fixed"] [1] 1 10000) agg ∧ agg.min = 0) ∧
    ∃ agg, Returns (aggregatePrices exactOps stretchedPrices stretchedSources [1, 1, 1, 1, 1] 3 6181)
      agg ∧ agg.min = 0 := by
  obtain ⟨single, hsingle, hzero⟩ := exists_returns
    (p := fun agg : AggregatedPrice (Option ℚ) => agg.min == 0)
    (x := aggregatePrices exactOps [5000] ["fixed"] [1] 1 10000) (by decide +kernel)
  obtain ⟨agg, hagg, hstretched⟩ := exists_returns
    (p := fun agg : AggregatedPrice (Option ℚ) => agg.min == 0)
    (x := aggregatePrices exactOps stretchedPrices stretchedSources [1, 1, 1, 1, 1] 3 6181)
    (by decide +kernel)
  exact ⟨⟨single, hsingle, beq_iff_eq.mp hzero⟩, agg, hagg, beq_iff_eq.mp hstretched⟩

end So4Oracle.PositiveMin
