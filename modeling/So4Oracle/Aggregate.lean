import So4Oracle.Prices

namespace So4Oracle.Aggregate

open Library.Checked Library.Floats Prices

variable {F : Type} {ops : FloatOps F}

section Sorting

variable {prices : List Int}

theorem perm_sortUnstable : (sortUnstable prices).Perm prices := List.perm_insertionSort _ _

theorem mem_sortUnstable {p : Int} : p ∈ sortUnstable prices ↔ p ∈ prices :=
  perm_sortUnstable.mem_iff

theorem forall_sortUnstable {P : Int → Prop} (h : ∀ p ∈ prices, P p) :
    ∀ p ∈ sortUnstable prices, P p :=
  fun p hp => h p (mem_sortUnstable.mp hp)

theorem sorted_sortUnstable : (sortUnstable prices).Pairwise (· ≤ ·) :=
  List.pairwise_insertionSort _ prices

theorem length_sortUnstable : (sortUnstable prices).length = prices.length :=
  perm_sortUnstable.length_eq

theorem sortUnstable_ne_nil (hne : prices ≠ []) : sortUnstable prices ≠ [] := by
  rw [← List.length_pos_iff, length_sortUnstable]
  exact List.length_pos_iff.mpr hne

/-- All prices lie between two of them. -/
theorem exists_bounds (hne : prices ≠ []) :
    ∃ lo ∈ prices, ∃ hi ∈ prices, ∀ p ∈ prices, lo ≤ p ∧ p ≤ hi := by
  obtain ⟨lo, hlo⟩ := Option.isSome_iff_exists.mp (List.isSome_min?_of_ne_nil hne)
  obtain ⟨hi, hhi⟩ := Option.isSome_iff_exists.mp (List.isSome_max?_of_ne_nil hne)
  exact ⟨lo, List.min?_mem hlo, hi, List.max?_mem hhi,
    fun p hp => ⟨(List.min?_eq_some_iff.mp hlo).2 p hp, (List.max?_eq_some_iff.mp hhi).2 p hp⟩⟩

end Sorting

section Median

theorem mem_of_index {l : List Int} {i : Nat} {a : Int} (h : index l i = .ok a) : a ∈ l :=
  List.mem_of_getElem? (index_eq_ok.mp h)

theorem le_of_sorted {sorted : List Int} (hsorted : sorted.Pairwise (· ≤ ·)) {i j : Nat} {p q : Int}
    (hij : i ≤ j) (hp : sorted[i]? = some p) (hq : sorted[j]? = some q) : p ≤ q := by
  obtain ⟨hi, rfl⟩ := List.getElem?_eq_some_iff.mp hp
  obtain ⟨hj, rfl⟩ := List.getElem?_eq_some_iff.mp hq
  rcases hij.eq_or_lt with rfl | hlt
  · exact le_rfl
  · exact List.pairwise_iff_getElem.mp hsorted i j hi hj hlt

theorem tdiv_two_bounds {a b lo hi : Int} (ha : lo ≤ a ∧ a ≤ hi) (hb : lo ≤ b ∧ b ≤ hi) :
    lo ≤ (a + b).tdiv 2 ∧ (a + b).tdiv 2 ≤ hi := by
  rcases Int.le_total 0 (a + b) with h | h
  · rw [Int.tdiv_eq_ediv_of_nonneg h]
    omega
  · have hneg : (a + b).tdiv 2 = -((-(a + b)) / 2) := by
      rw [← Int.tdiv_eq_ediv_of_nonneg (by omega), Int.neg_tdiv, Int.neg_neg]
    rw [hneg]
    omega

theorem middle_bounds {sorted : List Int} {m lo hi : Int} (h : middle sorted = .ok m)
    (hb : ∀ p ∈ sorted, lo ≤ p ∧ p ≤ hi) : lo ≤ m ∧ m ≤ hi := by
  rw [middle] at h
  split at h
  next =>
    simp only [bind_eq_ok, checked_eq_ok, pure_eq_ok] at h
    obtain ⟨i, -, below, hbelow, above, habove, sum, ⟨rfl, -⟩, rfl⟩ := h
    exact tdiv_two_bounds (hb below (mem_of_index hbelow)) (hb above (mem_of_index habove))
  next => exact hb m (mem_of_index h)

theorem computeMedianAllowSingle_eq_some {prices : List Int} {m : Int}
    (h : computeMedianAllowSingle prices = .ok (some m)) :
    prices ≠ [] ∧ middle (sortUnstable prices) = .ok m := by
  rw [computeMedianAllowSingle] at h
  split at h
  next => cases h
  next hne =>
    obtain ⟨a, ha, heq⟩ := map_eq_ok.mp h
    cases heq
    exact ⟨hne, ha⟩

theorem computeMedianAllowSingle_bounds {prices : List Int} {m lo hi : Int}
    (h : computeMedianAllowSingle prices = .ok (some m))
    (hb : ∀ p ∈ prices, lo ≤ p ∧ p ≤ hi) : lo ≤ m ∧ m ≤ hi := by
  exact middle_bounds (computeMedianAllowSingle_eq_some h).2 (forall_sortUnstable hb)

theorem sortUnstable_idem (prices : List Int) :
    sortUnstable (sortUnstable prices) = sortUnstable prices :=
  sorted_sortUnstable.insertionSort_eq

theorem computeMedianAllowSingle_sorted (prices : List Int) :
    computeMedianAllowSingle (sortUnstable prices) = computeMedianAllowSingle prices := by
  have hempty : sortUnstable prices = [] ↔ prices = [] := by
    rw [← List.length_eq_zero_iff, length_sortUnstable, List.length_eq_zero_iff]
  rw [computeMedianAllowSingle, computeMedianAllowSingle, sortUnstable_idem]
  simp only [hempty]

end Median

section Outliers

/-- What the filter keeps, in the order it was given. -/
structure Keeps (prices : List Int) (sources : List String) (r : OutlierFilterResult F) :
    Prop where
  lengths : r.filteredPrices.length = r.filteredSources.length
  sublist : (r.filteredPrices.zip r.filteredSources).Sublist (prices.zip sources)

theorem Keeps.prices_sublist {prices : List Int} {sources : List String} {r : OutlierFilterResult F}
    (h : Keeps prices sources r) (hlen : prices.length = sources.length) :
    r.filteredPrices.Sublist prices := by
  have hsub := h.sublist.map Prod.fst
  rwa [List.map_fst_zip h.lengths.le, List.map_fst_zip hlen.le] at hsub

theorem splitOutliers_keeps {outlier : Int → Bool} {median : Int} {prices : List Int}
    {sources : List String} {r : OutlierFilterResult F}
    (h : splitOutliers ops outlier median prices sources = .ok r) : Keeps prices sources r := by
  induction prices generalizing sources r with
  | nil =>
      cases h
      exact ⟨rfl, .slnil⟩
  | cons p prices ih =>
      cases sources with
      | nil => cases h
      | cons source sources =>
          rw [splitOutliers, bind_eq_ok] at h
          obtain ⟨rest, hrest, h⟩ := h
          obtain ⟨hlen, hsub⟩ := ih hrest
          split at h
          next =>
            cases h
            exact ⟨hlen, hsub.cons _⟩
          next =>
            cases h
            exact ⟨congrArg Nat.succ hlen, hsub.cons_cons _⟩

theorem filterPair_keeps {p₀ p₁ : Int} {s₀ s₁ : String} {r : OutlierFilterResult F}
    (h : filterPair ops p₀ p₁ [s₀, s₁] = .ok r) : Keeps [p₀, p₁] [s₀, s₁] r := by
  unfold filterPair at h
  dsimp only at h
  split at h
  next =>
    cases h
    exact ⟨rfl, .refl _⟩
  next =>
    simp only [bind_eq_ok, index_eq_ok] at h
    obtain ⟨a, ha, b, hb, h⟩ := h
    cases ha
    cases hb
    split at h
    next =>
      cases h
      exact ⟨rfl, by simp⟩
    next =>
      cases h
      exact ⟨rfl, by simp⟩

theorem filterOutliers_keeps {prices : List Int} {sources : List String} {maxDeviationBps : Nat}
    {r : OutlierFilterResult F} (hlen : prices.length = sources.length)
    (h : filterOutliers ops prices sources maxDeviationBps = .ok r) : Keeps prices sources r := by
  unfold filterOutliers at h
  split at h
  next =>
    cases h
    exact ⟨rfl, .slnil⟩
  next p₀ p₁ =>
    obtain ⟨s₀, s₁, rfl⟩ := List.length_eq_two.mp hlen.symm
    exact filterPair_keeps h
  next =>
    simp only [bind_eq_ok] at h
    obtain ⟨median, -, deviations, -, mad, -, sum, -, h⟩ := h
    exact splitOutliers_keeps h

end Outliers

section Members

def clusterQuotes (cluster : ClusterResult) : List Quote := cluster.filteredPrices.zip cluster.sources

def keptQuotes (r : OutlierFilterResult F) : List Quote := r.filteredPrices.zip r.filteredSources

theorem findLargestConsistentCluster_sublist {prices : List Int} {sources : List String}
    {toleranceBps : Nat} {cluster : ClusterResult}
    (h : findLargestConsistentCluster ops prices sources toleranceBps = .ok (some cluster)) :
    (clusterQuotes cluster).Sublist (sortQuotes prices sources) := by
  rw [findLargestConsistentCluster] at h
  split at h
  next => cases h
  next =>
    simp only [bind_eq_ok, pure_eq_ok, slice_eq_ok] at h
    obtain ⟨s, -, window, ⟨rfl, -⟩, hcluster⟩ := h
    cases hcluster
    rw [clusterQuotes, ← List.zip_of_prod rfl rfl]
    exact (List.drop_sublist _ _).trans (List.take_sublist _ _)

end Members

theorem findLargestConsistentCluster_lengths {prices : List Int} {sources : List String}
    {toleranceBps : Nat} {cluster : ClusterResult}
    (h : findLargestConsistentCluster ops prices sources toleranceBps = .ok (some cluster)) :
    cluster.filteredPrices.length = cluster.sources.length := by
  rw [findLargestConsistentCluster] at h
  split at h
  next => cases h
  next =>
    simp only [bind_eq_ok, pure_eq_ok] at h
    obtain ⟨s, -, window, -, hcluster⟩ := h
    cases hcluster
    rw [List.length_map, List.length_map]

/-- How an Ok of the aggregation came about. -/
structure Aggregated (ops : FloatOps F) (prices : List Int) (sources : List String)
    (observationTimes : List Nat) (minSources maxDeviationBps : Nat) (agg : AggregatedPrice F)
    (cluster : ClusterResult) (filter : OutlierFilterResult F) : Prop where
  sourcesLength : prices.length = sources.length
  timesLength : prices.length = observationTimes.length
  searched : findLargestConsistentCluster ops prices sources (clusterToleranceBps maxDeviationBps) =
    .ok (some cluster)
  filtered : filterOutliers ops cluster.filteredPrices cluster.sources maxDeviationBps = .ok filter
  enough : minSources ≤ filter.filteredPrices.length
  median : computeMedianAllowSingle filter.filteredPrices = .ok (some agg.median)
  interval : computeConfidenceIntervalWithSpread ops filter.filteredPrices maxDeviationBps =
    .ok (some ⟨agg.min, agg.max⟩)
  sourcesUsed : agg.sourcesUsed = filter.filteredSources
  rejectedSources : agg.rejectedSources =
    clusterRejects ops prices sources cluster.sources agg.median ++ filter.rejected
  minObservationTime : (observationTimesOf filter.filteredSources sources observationTimes).min? =
    some agg.minObservationTime

theorem aggregatePrices_returns {prices : List Int} {sources : List String}
    {observationTimes : List Nat} {minSources maxDeviationBps : Nat} {agg : AggregatedPrice F}
    (h : Returns (aggregatePrices ops prices sources observationTimes minSources maxDeviationBps)
      agg) :
    ∃ cluster filter,
      Aggregated ops prices sources observationTimes minSources maxDeviationBps agg cluster
        filter := by
  simp only [aggregatePrices, returns_bind, returns_ensure, returns_lift, returns_demand,
    returns_pure, exists_const] at h
  obtain ⟨hsources, htimes, -, _, hfound, cluster, rfl, -, filter, hfilter, henough, middle,
    hmiddle, median, rfl, interval, hinterval, props, rfl, again, hagain, oldest, holdest, rfl⟩ := h
  rw [hmiddle] at hagain
  cases hagain
  exact ⟨cluster, filter, hsources, htimes, hfound, hfilter, henough, hmiddle, hinterval, rfl, rfl,
    holdest⟩

section Survivors

variable {prices : List Int} {sources : List String} {observationTimes : List Nat}
  {minSources maxDeviationBps : Nat} {agg : AggregatedPrice F} {cluster : ClusterResult}
  {filter : OutlierFilterResult F}
  (h : Aggregated ops prices sources observationTimes minSources maxDeviationBps agg cluster filter)
include h

theorem Aggregated.keeps : Keeps cluster.filteredPrices cluster.sources filter :=
  filterOutliers_keeps (findLargestConsistentCluster_lengths h.searched) h.filtered

theorem Aggregated.kept_sublist : (keptQuotes filter).Sublist (sortQuotes prices sources) :=
  h.keeps.sublist.trans (findLargestConsistentCluster_sublist h.searched)

theorem Aggregated.mem_of_kept {q : Quote} (hq : q ∈ keptQuotes filter) : q ∈ prices.zip sources :=
  (List.mem_insertionSort quoteLe).mp (h.kept_sublist.subset hq)

theorem Aggregated.kept_sources : (keptQuotes filter).map Prod.snd = agg.sourcesUsed := by
  rw [h.sourcesUsed]
  exact List.map_snd_zip h.keeps.lengths.ge

theorem Aggregated.kept_prices : (keptQuotes filter).map Prod.fst = filter.filteredPrices :=
  List.map_fst_zip h.keeps.lengths.le

theorem Aggregated.mem_prices {p : Int} (hp : p ∈ filter.filteredPrices) : p ∈ prices := by
  rw [← h.kept_prices] at hp
  obtain ⟨q, hq, rfl⟩ := List.mem_map.mp hp
  exact (List.of_mem_zip (h.mem_of_kept hq)).1

/-- A claim about a source that was used is a claim about its quote. -/
theorem Aggregated.mem_kept (hsources : sources.Nodup) {q : Quote} (hq : q ∈ prices.zip sources)
    (hused : q.2 ∈ agg.sourcesUsed) : q ∈ keptQuotes filter := by
  rw [← h.kept_sources] at hused
  obtain ⟨r, hr, hname⟩ := List.mem_map.mp hused
  have hnodup : ((prices.zip sources).map Prod.snd).Nodup := by
    rwa [List.map_snd_zip h.sourcesLength.ge]
  obtain rfl : r = q := List.inj_on_of_nodup_map hnodup (h.mem_of_kept hr) hq hname
  exact hr

end Survivors

end So4Oracle.Aggregate
