import So4Oracle.MajorityBound

namespace So4Oracle.DeviationBound

open Library.Checked Library.Floats Prices Cluster Aggregate

variable {F : Type} {ops : FloatOps F} {prices : List Int} {sources : List String}
  {observationTimes : List Nat} {minSources maxDeviationBps : Nat} {agg : AggregatedPrice F}
  {cluster : ClusterResult} {filter : OutlierFilterResult F}

section Filter

theorem splitOutliers_kept {outlier : Int → Bool} {median : Int} {r : OutlierFilterResult F}
    (h : splitOutliers ops outlier median prices sources = .ok r) :
    ∀ p ∈ r.filteredPrices, outlier p = false := by
  induction prices generalizing sources r with
  | nil =>
      cases h
      simp
  | cons p prices ih =>
      cases sources with
      | nil => cases h
      | cons source sources =>
          rw [splitOutliers, bind_eq_ok] at h
          obtain ⟨rest, hrest, h⟩ := h
          split at h
          next =>
            cases h
            intro p' hp'
            exact ih hrest p' hp'
          next houtlier =>
            cases h
            intro p' hp'
            rcases List.mem_cons.mp hp' with rfl | hp'
            · simpa using houtlier
            · exact ih hrest p' hp'

theorem not_exceedsBps_of_not_isOutlier {median mad p : Int} {stddev : F}
    (h : isOutlier ops median mad stddev maxDeviationBps p = false) :
    exceedsBps ops p median maxDeviationBps = false := by
  unfold isOutlier at h
  dsimp only at h
  split at h
  next => cases h
  next hexceeds => simpa using hexceeds

/-- All but a pair are measured against the median of what the filter is given. -/
theorem filterOutliers_within {r : OutlierFilterResult F} (hne : prices ≠ [])
    (hpair : prices.length ≠ 2)
    (h : filterOutliers ops prices sources maxDeviationBps = .ok r) :
    ∃ median, computeMedianAllowSingle prices = .ok (some median) ∧
      ∀ p ∈ r.filteredPrices, exceedsBps ops p median maxDeviationBps = false := by
  unfold filterOutliers at h
  split at h
  next => exact absurd rfl hne
  next => exact absurd rfl hpair
  next =>
    simp only [bind_eq_ok] at h
    obtain ⟨median, hmedian, deviations, -, mad, -, sum, -, h⟩ := h
    refine ⟨median, ?_, fun p hp => not_exceedsBps_of_not_isOutlier (splitOutliers_kept h p hp)⟩
    rw [computeMedianAllowSingle, if_neg hne, hmedian]
    rfl

variable (ops) in
/-- Two sources agree within 10% of their average. -/
def pairAgrees (p₀ p₁ : Int) : Bool :=
  let x₀ := ops.ofInt p₀
  let x₁ := ops.ofInt p₁
  let avg := ops.div (ops.add x₀ x₁) (ops.ofInt 2)
  ops.beq avg (ops.ofInt 0) ||
    ops.le (ops.mul (ops.div (ops.abs (ops.sub x₀ x₁)) (ops.abs avg)) (ops.ofInt 10000))
      (ops.ofInt 1000)

/-- Of a pair that does not agree one is left. -/
theorem filterPair_agrees {p₀ p₁ : Int} {s₀ s₁ : String} {r : OutlierFilterResult F}
    (h : filterPair ops p₀ p₁ [s₀, s₁] = .ok r) :
    pairAgrees ops p₀ p₁ = true ∧ r = ⟨[p₀, p₁], [s₀, s₁], []⟩ ∨
      pairAgrees ops p₀ p₁ = false ∧ ∃ p, r.filteredPrices = [p] := by
  unfold filterPair at h
  dsimp only at h
  split at h
  next hagrees =>
    cases h
    exact .inl ⟨hagrees, rfl⟩
  next hagrees =>
    refine .inr ⟨by simpa [pairAgrees] using hagrees, ?_⟩
    simp only [bind_eq_ok, index_eq_ok] at h
    obtain ⟨a, ha, b, hb, h⟩ := h
    split at h
    next =>
      cases h
      exact ⟨p₀, rfl⟩
    next =>
      cases h
      exact ⟨p₁, rfl⟩

end Filter

section Deviation

/-- The comparison is the one in basis points of the median. -/
def ExactDeviation (ops : FloatOps F) : Prop :=
  ∀ (p median : Int) (bps : Nat), 0 < median →
    (exceedsBps ops p median bps = false ↔ |p - median| * 10000 ≤ bps * median)

theorem exactDeviation_exactOps : ExactDeviation exactOps := by
  intro p median bps hmedian
  have hpos : (0 : ℚ) < median := by exact_mod_cast hmedian
  have hdev : deviationBps exactOps p median = some (|(p : ℚ) - median| / median * 10000) := by
    rw [deviationBps, if_neg hmedian.ne']
    simp only [rationalOps_ofInt, rationalOps_sub, rationalOps_abs, rationalOps_mul, id,
      abs_of_pos hpos, rationalOps_div hpos.ne', Int.cast_ofNat]
  rw [exceedsBps, hdev, rationalOps_ofInt, rationalOps_lt, decide_eq_false_iff_not, not_lt, id,
    div_mul_eq_mul_div, div_le_iff₀ hpos]
  exact_mod_cast Iff.rfl

/-- What holds the two members of a cluster together, and what it bounds. -/
structure PairWithin (ops : FloatOps F) (quotes : List Quote) (maxDeviationBps : Nat) (p₀ p₁ : Int)
    (agg : AggregatedPrice F) : Prop where
  tolerance : exceedsBps ops p₁ p₀ (clusterToleranceBps maxDeviationBps) = false
  agrees : pairAgrees ops p₀ p₁ = true ∨ ∀ q ∈ quotes, q.2 ∈ agg.sourcesUsed → q.1 = agg.median
  halved : ∀ q ∈ quotes, q.2 ∈ agg.sourcesUsed → 2 * |q.1 - agg.median| ≤ p₁ - p₀ + 1
  exact : ExactDeviation ops →
    500 ≤ maxDeviationBps ∨ 250 * agg.median + 5000 ≤ maxDeviationBps * agg.median →
      ∀ q ∈ quotes, q.2 ∈ agg.sourcesUsed →
        |q.1 - agg.median| * 10000 ≤ maxDeviationBps * agg.median

/-- The sources that were used lie within the maximum deviation of the median of
the cluster. A pair is instead held together by the tolerance of the cluster and
measured by its average. -/
structure UsedWithin (ops : FloatOps F) (quotes : List Quote) (maxDeviationBps : Nat)
    (cluster : ClusterResult) (agg : AggregatedPrice F) : Prop where
  within : cluster.filteredPrices.length ≠ 2 →
    ∃ median, computeMedianAllowSingle cluster.filteredPrices = .ok (some median) ∧
      (∀ q ∈ quotes, q.2 ∈ agg.sourcesUsed → exceedsBps ops q.1 median maxDeviationBps = false) ∧
      (agg.sourcesUsed.length = cluster.sources.length → agg.median = median)
  pair : ∀ p₀ p₁, cluster.filteredPrices = [p₀, p₁] →
    PairWithin ops quotes maxDeviationBps p₀ p₁ agg

section Pair

variable {p₀ p₁ : Int} {toleranceBps : Nat}

/-- The two members are the ends of their window. -/
theorem pair_fits (h : findLargestConsistentCluster ops prices sources toleranceBps = .ok (some cluster))
    (hprices : cluster.filteredPrices = [p₀, p₁]) :
    p₀ ≤ p₁ ∧ exceedsBps ops p₁ p₀ toleranceBps = false := by
  obtain ⟨⟨start, stop⟩, hwindow, hbound, hfits⟩ := findLargestConsistentCluster_fits h
  rw [hprices] at hwindow
  have hlength := congrArg List.length hwindow
  rw [List.length_map, windowOf, List.length_drop, List.length_take] at hlength
  simp only [List.length_cons, List.length_nil] at hlength
  dsimp only at hbound hfits
  have hmember : ∀ k p, [p₀, p₁][k]? = some p → priceAt (sortQuotes prices sources) (start + k) = p := by
    intro k p hp
    rw [hwindow, List.getElem?_map, windowOf, List.getElem?_drop, Option.map_eq_some_iff] at hp
    obtain ⟨q, hq, rfl⟩ := hp
    rw [List.getElem?_take] at hq
    split at hq
    next => exact priceAt_eq hq
    next => cases hq
  have hlt : start + 1 < (sortQuotes prices sources).length := by omega
  have hlow : priceAt (sortQuotes prices sources) start = p₀ := hmember 0 p₀ rfl
  have hhigh : priceAt (sortQuotes prices sources) (start + 1) = p₁ := hmember 1 p₁ rfl
  constructor
  · rw [← hlow, ← hhigh]
    exact priceAt_sortQuotes_le (Nat.le_succ start) hlt
  · rcases hfits with hfirst | hfits
    · cases hfirst
      omega
    · have hstop : stop - 1 = start + 1 := by omega
      simp only [Apart, hstop, hlow, hhigh] at hfits
      exact Bool.eq_false_of_not_eq_true hfits

theorem median_pair {m : Int} (hle : p₀ ≤ p₁)
    (h : computeMedianAllowSingle [p₀, p₁] = .ok (some m)) : m = (p₀ + p₁).tdiv 2 := by
  have hsorted : sortUnstable [p₀, p₁] = [p₀, p₁] :=
    List.Pairwise.insertionSort_eq (by simpa using hle)
  obtain ⟨-, hmiddle⟩ := computeMedianAllowSingle_eq_some h
  rw [hsorted] at hmiddle
  simp only [middle, List.length_cons, List.length_nil, bind_eq_ok, index_eq_ok, checked_eq_ok,
    pure_eq_ok, if_pos] at hmiddle
  obtain ⟨i, hi, below, hbelow, above, habove, sum, ⟨rfl, -⟩, rfl⟩ := hmiddle
  cases hi
  cases hbelow
  cases habove
  rfl

/-- Half of a pair's distance is within the maximum deviation when the tolerance is no
more than that, or when half of the tolerance and the rounding of the median are. -/
theorem pair_exact {distance median : Int} {bps : Nat} (hpos : 0 < p₀)
    (hmedian : p₀ ≤ median) (hhalved : 2 * distance ≤ p₁ - p₀ + 1)
    (htolerance : (p₁ - p₀) * 10000 ≤ clusterToleranceBps bps * p₀)
    (hbps : 500 ≤ bps ∨ 250 * median + 5000 ≤ bps * median) :
    distance * 10000 ≤ bps * median := by
  have hscaled : (bps : Int) * p₀ ≤ bps * median :=
    mul_le_mul_of_nonneg_left hmedian (Int.natCast_nonneg bps)
  have hnonneg : 0 ≤ (bps : Int) * p₀ := mul_nonneg (Int.natCast_nonneg bps) hpos.le
  rcases Nat.lt_or_ge bps 500 with hnarrow | hwide
  · rw [clusterToleranceBps, defaultClusterToleranceBps, max_eq_right hnarrow.le] at htolerance
    have hwider : 250 * median + 5000 ≤ bps * median := hbps.resolve_left (not_le.mpr hnarrow)
    rw [Nat.cast_ofNat] at htolerance
    omega
  · rw [clusterToleranceBps, defaultClusterToleranceBps, max_eq_left hwide] at htolerance
    omega

end Pair

variable (h : Aggregated ops prices sources observationTimes minSources maxDeviationBps agg cluster
  filter)
include h

theorem filteredPrices_of_used (hused : agg.sourcesUsed.length = cluster.sources.length) :
    filter.filteredPrices = cluster.filteredPrices := by
  have hlen := findLargestConsistentCluster_lengths h.searched
  have hkept : (keptQuotes filter).length = (clusterQuotes cluster).length := by
    rw [keptQuotes, clusterQuotes, List.length_zip, List.length_zip, h.keeps.lengths, hlen,
      ← h.sourcesUsed, hused]
  have hsame : keptQuotes filter = clusterQuotes cluster := h.keeps.sublist.eq_of_length hkept
  rw [← h.kept_prices, hsame]
  exact List.map_fst_zip hlen.le

theorem price_of_used (hsources : sources.Nodup) {q : Quote} (hq : q ∈ prices.zip sources)
    (hused : q.2 ∈ agg.sourcesUsed) : q.1 ∈ filter.filteredPrices := by
  rw [← h.kept_prices]
  exact List.mem_map_of_mem (h.mem_kept hsources hq hused)

/-- A pair is used as it is, or one of it is left. -/
theorem pair_used (hsources : sources.Nodup) {p₀ p₁ : Int}
    (hprices : cluster.filteredPrices = [p₀, p₁]) :
    (pairAgrees ops p₀ p₁ = true ∧ agg.median = (p₀ + p₁).tdiv 2 ∧
        ∀ q ∈ prices.zip sources, q.2 ∈ agg.sourcesUsed → q.1 = p₀ ∨ q.1 = p₁) ∨
      ∀ q ∈ prices.zip sources, q.2 ∈ agg.sourcesUsed → q.1 = agg.median := by
  obtain ⟨s₀, s₁, hnames⟩ : ∃ s₀ s₁, cluster.sources = [s₀, s₁] := by
    apply List.length_eq_two.mp
    rw [← findLargestConsistentCluster_lengths h.searched, hprices]
    rfl
  have hfilter := h.filtered
  have hmedian := h.median
  have hused : ∀ q ∈ prices.zip sources, q.2 ∈ agg.sourcesUsed → q.1 ∈ filter.filteredPrices :=
    fun q hq hused => price_of_used h hsources hq hused
  rw [hprices, hnames] at hfilter
  rcases filterPair_agrees hfilter with ⟨hagrees, rfl⟩ | ⟨-, p, hsingle⟩
  · refine .inl ⟨hagrees, median_pair (pair_fits h.searched hprices).1 hmedian, ?_⟩
    exact fun q hq hq' => by simpa using hused q hq hq'
  · refine .inr (fun q hq hq' => ?_)
    have hmem := hused q hq hq'
    rw [hsingle] at hmem hmedian
    obtain rfl := List.mem_singleton.mp hmem
    have hbounds : ∀ p ∈ [q.1], q.1 ≤ p ∧ p ≤ q.1 := by simp
    obtain ⟨hlo, hhi⟩ := computeMedianAllowSingle_bounds hmedian hbounds
    exact le_antisymm hlo hhi

theorem pairWithin_of_aggregated (hpos : ∀ p ∈ prices, 0 < p) (hsources : sources.Nodup)
    {p₀ p₁ : Int} (hprices : cluster.filteredPrices = [p₀, p₁]) :
    PairWithin ops (prices.zip sources) maxDeviationBps p₀ p₁ agg := by
  obtain ⟨hle, htolerance⟩ := pair_fits h.searched hprices
  have hmember : ∀ p ∈ [p₀, p₁], 0 < p := by
    intro p hp
    have hlen := findLargestConsistentCluster_lengths h.searched
    rw [← hprices, ← List.map_fst_zip hlen.le] at hp
    obtain ⟨q, hq, rfl⟩ := List.mem_map.mp hp
    have hquote := mem_sortQuotes.mp ((findLargestConsistentCluster_sublist h.searched).subset hq)
    exact hpos _ (List.of_mem_zip hquote).1
  have hlow : 0 < p₀ := hmember p₀ (by simp)
  have hmedian : ∀ q ∈ prices.zip sources, q.2 ∈ agg.sourcesUsed →
      p₀ ≤ agg.median ∧ 2 * |q.1 - agg.median| ≤ p₁ - p₀ + 1 ∨ q.1 = agg.median := by
    intro q hq hused
    rcases pair_used h hsources hprices with ⟨-, hmiddle, hpair⟩ | hsame
    · left
      rw [Int.tdiv_eq_ediv_of_nonneg (by omega)] at hmiddle
      refine ⟨by omega, ?_⟩
      rcases abs_cases (q.1 - agg.median) with ⟨habs, -⟩ | ⟨habs, -⟩
      · rcases hpair q hq hused with hq | hq <;> omega
      · rcases hpair q hq hused with hq | hq <;> omega
    · exact .inr (hsame q hq hused)
  refine ⟨htolerance, ?_, ?_, ?_⟩
  · exact (pair_used h hsources hprices).imp And.left id
  · intro q hq hused
    rcases hmedian q hq hused with ⟨-, hhalved⟩ | hsame
    · exact hhalved
    · rw [hsame, sub_self, abs_zero]
      omega
  · intro hexact hbps q hq hused
    rcases hmedian q hq hused with ⟨hle', hhalved⟩ | hsame
    · have hgap := (hexact p₁ p₀ _ hlow).mp htolerance
      rw [abs_of_nonneg (sub_nonneg.mpr hle)] at hgap
      exact pair_exact hlow hle' hhalved hgap hbps
    · have hprice := (List.of_mem_zip hq).1
      have hnonneg : 0 ≤ agg.median := hsame ▸ (hpos _ hprice).le
      rw [hsame, sub_self, abs_zero, zero_mul]
      exact mul_nonneg (Int.natCast_nonneg _) hnonneg

theorem usedWithin_of_aggregated (hpos : ∀ p ∈ prices, 0 < p) (hsources : sources.Nodup) :
    UsedWithin ops (prices.zip sources) maxDeviationBps cluster agg := by
  refine ⟨fun hpair => ?_, fun p₀ p₁ hprices => pairWithin_of_aggregated h hpos hsources hprices⟩
  have hne : cluster.filteredPrices ≠ [] := by
    intro hempty
    have hkept := h.keeps.sublist.length_le
    have hnone := (computeMedianAllowSingle_eq_some h.median).1
    rw [List.length_zip, List.length_zip, h.keeps.lengths, hempty, List.length_nil,
      Nat.zero_min, Nat.min_self, ← h.keeps.lengths] at hkept
    exact hnone (List.length_eq_zero_iff.mp (Nat.le_zero.mp hkept))
  obtain ⟨median, hmedian, hwithin⟩ := filterOutliers_within hne hpair h.filtered
  refine ⟨median, hmedian, fun q hq hused => hwithin _ (price_of_used h hsources hq hused), ?_⟩
  intro hused
  have hreported := h.median
  rw [filteredPrices_of_used h hused, hmedian] at hreported
  cases hreported
  rfl

end Deviation

theorem aggregatePrices_usedWithin (hpos : ∀ p ∈ prices, 0 < p) (hsources : sources.Nodup)
    (h : Returns (aggregatePrices ops prices sources observationTimes minSources maxDeviationBps)
      agg) :
    ∃ cluster, findLargestConsistentCluster ops prices sources (clusterToleranceBps maxDeviationBps) =
        .ok (some cluster) ∧
      UsedWithin ops (prices.zip sources) maxDeviationBps cluster agg := by
  obtain ⟨cluster, filter, hagg⟩ := aggregatePrices_returns h
  exact ⟨cluster, hagg.searched, usedWithin_of_aggregated hagg hpos hsources⟩

section Samples

/-- The two highest of five go, and the median with them. -/
def shiftedPrices : List Int := [98010, 98010, 100000, 102500, 102900]

def shiftedSources : List String := ["binance", "coinbase", "pyth", "fixed", "kraken"]

end Samples

/-- One source of three leaves and the two others stay within the deviation; a pair
stays within it as well where it is more than half the tolerance. -/
theorem aggregatePrices_usedWithin_outlier :
    (∃ agg, Returns (aggregatePrices exactOps [1000, 1004, 1030] ["binance", "coinbase", "pyth"]
        [1, 1, 1] 2 200) agg ∧ agg.sourcesUsed = ["binance", "coinbase"] ∧
      ∃ cluster, findLargestConsistentCluster exactOps [1000, 1004, 1030]
          ["binance", "coinbase", "pyth"] (clusterToleranceBps 200) = .ok (some cluster) ∧
        UsedWithin exactOps ([1000, 1004, 1030].zip ["binance", "coinbase", "pyth"]) 200 cluster
          agg) ∧
    ∃ agg, Returns (aggregatePrices exactOps [100000, 104000] ["binance", "coinbase"] [1, 1] 2 300)
        agg ∧
      |104000 - agg.median| * 10000 ≤ 300 * agg.median := by
  constructor
  · obtain ⟨agg, hagg, hused⟩ := exists_returns
      (p := fun agg : AggregatedPrice (Option ℚ) => agg.sourcesUsed == ["binance", "coinbase"])
      (x := aggregatePrices exactOps [1000, 1004, 1030] ["binance", "coinbase", "pyth"] [1, 1, 1] 2 200)
      (by decide +kernel)
    exact ⟨agg, hagg, beq_iff_eq.mp hused, aggregatePrices_usedWithin (by decide) (by decide) hagg⟩
  · obtain ⟨agg, hagg, hmedian⟩ := exists_returns
      (p := fun agg : AggregatedPrice (Option ℚ) => decide (agg.median = 102000 ∧
        "coinbase" ∈ agg.sourcesUsed))
      (x := aggregatePrices exactOps [100000, 104000] ["binance", "coinbase"] [1, 1] 2 300)
      (by decide +kernel)
    obtain ⟨hmiddle, hused⟩ := of_decide_eq_true hmedian
    obtain ⟨cluster, hcluster, hwithin⟩ := aggregatePrices_usedWithin (by decide) (by decide) hagg
    have hpair : (findLargestConsistentCluster exactOps [100000, 104000] ["binance", "coinbase"]
        (clusterToleranceBps 300)).toOption.map (Option.map ClusterResult.filteredPrices) =
          some (some [100000, 104000]) := by decide +kernel
    rw [hcluster] at hpair
    have hprices : cluster.filteredPrices = [100000, 104000] := Option.some.inj (Option.some.inj hpair)
    refine ⟨agg, hagg, (hwithin.pair 100000 104000 hprices).exact exactDeviation_exactOps
      (.inr ?_) (104000, "coinbase") (by decide) hused⟩
    rw [hmiddle]
    decide

/-- A pair stays together beyond the maximum deviation, and a source within the
deviation of one median is beyond that of the next. -/
theorem aggregatePrices_beyond_deviation :
    (∃ agg, Returns (aggregatePrices exactOps [100, 104] ["binance", "coinbase"] [1, 1] 2 100) agg ∧
      "binance" ∈ agg.sourcesUsed ∧ ¬|100 - agg.median| * 10000 ≤ 100 * agg.median) ∧
    ∃ agg, Returns (aggregatePrices exactOps shiftedPrices shiftedSources [1, 1, 1, 1, 1] 2 200) agg ∧
      "pyth" ∈ agg.sourcesUsed ∧ ¬|100000 - agg.median| * 10000 ≤ 200 * agg.median := by
  obtain ⟨pair, hpair, hfar⟩ := exists_returns
    (p := fun agg : AggregatedPrice (Option ℚ) => decide ("binance" ∈ agg.sourcesUsed ∧
      ¬|100 - agg.median| * 10000 ≤ 100 * agg.median))
    (x := aggregatePrices exactOps [100, 104] ["binance", "coinbase"] [1, 1] 2 100)
    (by decide +kernel)
  obtain ⟨agg, hagg, hshifted⟩ := exists_returns
    (p := fun agg : AggregatedPrice (Option ℚ) => decide ("pyth" ∈ agg.sourcesUsed ∧
      ¬|100000 - agg.median| * 10000 ≤ 200 * agg.median))
    (x := aggregatePrices exactOps shiftedPrices shiftedSources [1, 1, 1, 1, 1] 2 200)
    (by decide +kernel)
  exact ⟨⟨pair, hpair, of_decide_eq_true hfar⟩, agg, hagg, of_decide_eq_true hshifted⟩

end So4Oracle.DeviationBound
