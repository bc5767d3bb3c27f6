import So4Oracle.Aggregate
import So4Oracle.Cluster

namespace So4Oracle.MajorityBound

open Library.Checked Library.Floats Library.Windows Prices Cluster Aggregate

variable {F : Type} (ops : FloatOps F)

/-- A strict majority of the quotes whose prices agree pairwise. -/
structure Majority (prices : List Int) (sources : List String) (toleranceBps : Nat)
    (H : Finset Quote) : Prop where
  members : ∀ q ∈ H, q ∈ prices.zip sources
  strict : prices.length < 2 * H.card
  agree : ∀ a ∈ H, ∀ b ∈ H, Within ops toleranceBps a.1 b.1

variable {ops} {prices : List Int} {sources : List String} {toleranceBps : Nat}

section Window

theorem nodup_zip (hsources : sources.Nodup) (hlen : prices.length = sources.length) :
    (prices.zip sources).Nodup := by
  apply List.Nodup.of_map Prod.snd
  rwa [List.map_snd_zip hlen.ge]

theorem nodup_sortQuotes (hsources : sources.Nodup) (hlen : prices.length = sources.length) :
    (sortQuotes prices sources).Nodup :=
  (List.perm_insertionSort quoteLe _).nodup_iff.mpr (nodup_zip hsources hlen)

theorem length_sortQuotes (hlen : prices.length = sources.length) :
    (sortQuotes prices sources).length = prices.length := by
  rw [sortQuotes, List.length_insertionSort, List.length_zip, ← hlen, Nat.min_self]

theorem mem_windowOf {sorted : List Quote} {w : Nat × Nat} {q : Quote} (h : q ∈ windowOf sorted w) :
    ∃ i, w.1 ≤ i ∧ i < w.2 ∧ sorted[i]? = some q := by
  obtain ⟨k, hk⟩ := List.mem_iff_getElem?.mp h
  rw [windowOf, List.getElem?_drop, List.getElem?_take] at hk
  split at hk
  next hlt => exact ⟨w.1 + k, Nat.le_add_right _ _, hlt, hk⟩
  next => cases hk

theorem within_of_bounds (law : MonotoneDeviation ops) {lo hi p q : Int} (hlo : 0 < lo)
    (h : ¬exceedsBps ops hi lo toleranceBps = true) (hp : lo ≤ p ∧ p ≤ hi) (hq : lo ≤ q ∧ q ≤ hi) :
    Within ops toleranceBps p q := by
  rw [Within, ← Bool.not_eq_true]
  intro hexceeds
  exact h (law.mono hlo (le_min hp.1 hq.1) min_le_max (max_le hp.2 hq.2) hexceeds)

theorem windowOf_nodup (hsources : sources.Nodup) (hlen : prices.length = sources.length)
    {w : Nat × Nat} : (windowOf (sortQuotes prices sources) w).Nodup :=
  ((nodup_sortQuotes hsources hlen).sublist (List.take_sublist _ _)).sublist (List.drop_sublist _ _)

theorem card_windowOf (hsources : sources.Nodup) (hlen : prices.length = sources.length)
    {w : Nat × Nat} (hbound : w.2 ≤ (sortQuotes prices sources).length) :
    (windowOf (sortQuotes prices sources) w).toFinset.card = size w := by
  rw [List.toFinset_card_of_nodup (windowOf_nodup hsources hlen), windowOf, List.length_drop,
    List.length_take, min_eq_left hbound, size]

/-- The prices of a window lie between those at its ends. -/
theorem windowOf_bounds {w : Nat × Nat} (hbound : w.2 ≤ (sortQuotes prices sources).length)
    {q : Quote} (hq : q ∈ windowOf (sortQuotes prices sources) w) :
    priceAt (sortQuotes prices sources) w.1 ≤ q.1 ∧
      q.1 ≤ priceAt (sortQuotes prices sources) (w.2 - 1) := by
  obtain ⟨i, hi, hlt, hget⟩ := mem_windowOf hq
  rw [← priceAt_eq hget]
  exact ⟨priceAt_sortQuotes_le hi (by omega), priceAt_sortQuotes_le (by omega) (by omega)⟩

/-- Quotes that agree pairwise lie in a window that fits, between two of them. -/
theorem exists_fitting {H : Finset Quote} (hmem : ∀ q ∈ H, q ∈ prices.zip sources)
    (hagree : ∀ a ∈ H, ∀ b ∈ H, Within ops toleranceBps a.1 b.1) (hne : H.Nonempty) :
    ∃ i j, ∃ a ∈ H, ∃ b ∈ H, (sortQuotes prices sources)[i]? = some a ∧
      (sortQuotes prices sources)[j]? = some b ∧
      Fits (Apart ops (sortQuotes prices sources) toleranceBps) (i, j + 1) ∧
      ∀ q ∈ H, ∃ k, i ≤ k ∧ k ≤ j ∧ (sortQuotes prices sources)[k]? = some q := by
  obtain ⟨i, j, a, ha, b, hb, hi, hj, hij, henclosed⟩ :=
    exists_enclosing (fun q hq => mem_sortQuotes.mpr (hmem q hq)) hne
  refine ⟨i, j, a, ha, b, hb, hi, hj, ⟨Nat.lt_succ_of_le hij, ?_⟩, henclosed⟩
  have hlt : j < (sortQuotes prices sources).length := (List.getElem?_eq_some_iff.mp hj).1
  have hle : a.1 ≤ b.1 := by
    rw [← priceAt_eq hi, ← priceAt_eq hj]
    exact priceAt_sortQuotes_le hij hlt
  have hwithin := hagree a ha b hb
  rw [Within, max_eq_right hle, min_eq_left hle] at hwithin
  simp [Apart, priceAt_eq hi, priceAt_eq hj, hwithin]

/-- The ends of the chosen window, and that its members lie between them. -/
theorem best_bounds {w : Nat × Nat} (hpos : ∀ p ∈ prices, 0 < p)
    (hbest : Best (Apart ops (sortQuotes prices sources) toleranceBps)
      (spreadOf (sortQuotes prices sources)) (sortQuotes prices sources).length w) :
    ∃ lo hi, 0 < lo ∧ ¬exceedsBps ops hi lo toleranceBps = true ∧
      ∀ q ∈ windowOf (sortQuotes prices sources) w, lo ≤ q.1 ∧ q.1 ≤ hi := by
  have hne := hbest.fits.nonempty
  have hbound := hbest.bound
  exact ⟨_, _, priceAt_sortQuotes_pos hpos (by omega), hbest.fits.fits,
    fun q hq => windowOf_bounds hbound hq⟩

/-- The majority fits into one window, so the best window is as large. -/
theorem Majority.card_le_size {H : Finset Quote} (hmaj : Majority ops prices sources toleranceBps H)
    {w : Nat × Nat}
    (hbest : Best (Apart ops (sortQuotes prices sources) toleranceBps)
      (spreadOf (sortQuotes prices sources)) (sortQuotes prices sources).length w) :
    H.card ≤ size w := by
  have hne : H.Nonempty := by
    apply Finset.card_pos.mp
    have hstrict := hmaj.strict
    omega
  obtain ⟨i, j, a, ha, b, hb, hi, hj, hfits, henclosed⟩ :=
    exists_fitting hmaj.members hmaj.agree hne
  have hlt : j < (sortQuotes prices sources).length := (List.getElem?_eq_some_iff.mp hj).1
  exact (card_le_enclosing henclosed).trans (hbest.outranks _ hfits hlt).size_le

theorem Majority.exists_mem_window {H : Finset Quote}
    (hmaj : Majority ops prices sources toleranceBps H) (hsources : sources.Nodup)
    (hlen : prices.length = sources.length) {w : Nat × Nat}
    (hbest : Best (Apart ops (sortQuotes prices sources) toleranceBps)
      (spreadOf (sortQuotes prices sources)) (sortQuotes prices sources).length w) :
    ∃ a ∈ H, a ∈ windowOf (sortQuotes prices sources) w := by
  have hwindow := card_windowOf hsources hlen hbest.bound
  have hall : (sortQuotes prices sources).toFinset.card = prices.length := by
    rw [List.toFinset_card_of_nodup (nodup_sortQuotes hsources hlen), length_sortQuotes hlen]
  have hH : H ⊆ (sortQuotes prices sources).toFinset := by
    intro q hq
    exact List.mem_toFinset.mpr (mem_sortQuotes.mpr (hmaj.members q hq))
  have hW : (windowOf (sortQuotes prices sources) w).toFinset ⊆
      (sortQuotes prices sources).toFinset := by
    intro q hq
    rw [List.mem_toFinset] at hq ⊢
    exact List.mem_of_mem_take (List.mem_of_mem_drop hq)
  have hcount : (sortQuotes prices sources).toFinset.card <
      H.card + (windowOf (sortQuotes prices sources) w).toFinset.card := by
    have hsize := hmaj.card_le_size hbest
    have hstrict := hmaj.strict
    omega
  obtain ⟨a, ha⟩ := Finset.inter_nonempty_of_card_lt_card_add_card hH hW hcount
  rw [Finset.mem_inter, List.mem_toFinset] at ha
  exact ⟨a, ha.1, ha.2⟩

end Window

section Influence

variable {observationTimes : List Nat} {minSources maxDeviationBps : Nat}
  {agg : AggregatedPrice F} {cluster : ClusterResult} {filter : OutlierFilterResult F}
  {H : Finset Quote}

/-- What survives the filter lies in the window of the cluster. -/
theorem kept_in_window (law : MonotoneDeviation ops) (hpos : ∀ p ∈ prices, 0 < p)
    (h : Aggregated ops prices sources observationTimes minSources maxDeviationBps agg cluster
      filter) :
    ∃ w, Best (Apart ops (sortQuotes prices sources) (clusterToleranceBps maxDeviationBps))
        (spreadOf (sortQuotes prices sources)) (sortQuotes prices sources).length w ∧
      ∀ q ∈ keptQuotes filter, q ∈ windowOf (sortQuotes prices sources) w := by
  obtain ⟨w, hbest, hprices, hnames⟩ := findLargestConsistentCluster_best law hpos h.searched
  have hzip : clusterQuotes cluster = windowOf (sortQuotes prices sources) w := by
    rw [clusterQuotes, hprices, hnames]
    exact (List.zip_of_prod rfl rfl).symm
  refine ⟨w, hbest, fun q hq => ?_⟩
  rw [← hzip]
  exact h.keeps.sublist.subset hq

/-- What a majority leaves to the others: every quote that survives the filter
lies in a window of one tolerance that also holds a majority quote. -/
theorem Majority.surviving (hmaj : Majority ops prices sources (clusterToleranceBps maxDeviationBps) H)
    (law : MonotoneDeviation ops) (hpos : ∀ p ∈ prices, 0 < p) (hsources : sources.Nodup)
    (h : Aggregated ops prices sources observationTimes minSources maxDeviationBps agg cluster
      filter) :
    ∃ lo hi, 0 < lo ∧ ¬exceedsBps ops hi lo (clusterToleranceBps maxDeviationBps) = true ∧
      (∃ a ∈ H, lo ≤ a.1 ∧ a.1 ≤ hi) ∧ ∀ q ∈ keptQuotes filter, lo ≤ q.1 ∧ q.1 ≤ hi := by
  obtain ⟨w, hbest, hkept⟩ := kept_in_window law hpos h
  obtain ⟨lo, hi, hlo, hfits, hbounds⟩ := best_bounds hpos hbest
  obtain ⟨a, ha, hmem⟩ := hmaj.exists_mem_window hsources h.sourcesLength hbest
  exact ⟨lo, hi, hlo, hfits, ⟨a, ha, hbounds a hmem⟩, fun q hq => hbounds q (hkept q hq)⟩

section Samples

instance (p q : Int) : Decidable (Within ops toleranceBps p q) :=
  inferInstanceAs (Decidable (_ = false))

def scaled (milli : Int) : Int := milli * 10 ^ 27

/-- Two sources agree on 100 and 105; the third quotes 95.3, closer to 100. -/
def skewedPrices : List Int := [scaled 100000, scaled 105000, scaled 95300]

def skewedSources : List String := ["binance", "coinbase", "pyth"]

def honestQuotes : Finset Quote := {(scaled 100000, "binance"), (scaled 105000, "coinbase")}

theorem majority_honestQuotes :
    Majority exactOps skewedPrices skewedSources (clusterToleranceBps 500) honestQuotes := by
  constructor
  · decide +kernel
  · decide +kernel
  · decide +kernel

theorem exactOps_monotoneDeviation : MonotoneDeviation exactOps :=
  monotoneDeviation_rationalOps monotone_id rfl one_pos

end Samples

theorem aggregatePrices_sourcesUsed_within_majority (law : MonotoneDeviation ops)
    (hpos : ∀ p ∈ prices, 0 < p) (hsources : sources.Nodup)
    (hmaj : Majority ops prices sources (clusterToleranceBps maxDeviationBps) H)
    (h : Returns (aggregatePrices ops prices sources observationTimes minSources maxDeviationBps)
      agg) :
    ∀ q ∈ prices.zip sources, q.2 ∈ agg.sourcesUsed →
      ∃ a ∈ H, Within ops (clusterToleranceBps maxDeviationBps) q.1 a.1 := by
  intro q hq hused
  obtain ⟨cluster, filter, hagg⟩ := aggregatePrices_returns h
  obtain ⟨lo, hi, hlo, hfits, ⟨a, ha, hbounds⟩, hsurvive⟩ := hmaj.surviving law hpos hsources hagg
  have hmem := hagg.mem_kept hsources hq hused
  exact ⟨a, ha, within_of_bounds law hlo hfits (hsurvive q hmem) hbounds⟩

theorem aggregatePrices_sourcesUsed_within_honestQuotes :
    ∃ agg, Returns (aggregatePrices exactOps skewedPrices skewedSources [1, 1, 1] 2 500) agg ∧
      "pyth" ∈ agg.sourcesUsed ∧
      ∃ a ∈ honestQuotes, Within exactOps (clusterToleranceBps 500) (scaled 95300) a.1 := by
  obtain ⟨agg, hagg, hused⟩ := exists_returns
    (p := fun agg : AggregatedPrice (Option ℚ) => decide ("pyth" ∈ agg.sourcesUsed))
    (x := aggregatePrices exactOps skewedPrices skewedSources [1, 1, 1] 2 500) (by decide +kernel)
  have hpyth : "pyth" ∈ agg.sourcesUsed := of_decide_eq_true hused
  exact ⟨agg, hagg, hpyth,
    aggregatePrices_sourcesUsed_within_majority exactOps_monotoneDeviation (by decide) (by decide)
      majority_honestQuotes hagg (scaled 95300, "pyth") (by decide) hpyth⟩

theorem aggregatePrices_median_near_majority (law : MonotoneDeviation ops)
    (hpos : ∀ p ∈ prices, 0 < p) (hsources : sources.Nodup)
    (hmaj : Majority ops prices sources (clusterToleranceBps maxDeviationBps) H)
    (h : Returns (aggregatePrices ops prices sources observationTimes minSources maxDeviationBps)
      agg) :
    (∃ a ∈ H, Within ops (clusterToleranceBps maxDeviationBps) agg.median a.1) ∧
      ((∀ q ∈ prices.zip sources, q ∉ H →
          ∀ a ∈ H, ¬Within ops (clusterToleranceBps maxDeviationBps) q.1 a.1) →
        ∃ a ∈ H, ∃ b ∈ H, a.1 ≤ agg.median ∧ agg.median ≤ b.1) := by
  obtain ⟨cluster, filter, hagg⟩ := aggregatePrices_returns h
  obtain ⟨lo, hi, hlo, hfits, ⟨a, ha, hbounds⟩, hsurvive⟩ := hmaj.surviving law hpos hsources hagg
  have hsource : ∀ p ∈ filter.filteredPrices, ∃ q ∈ keptQuotes filter, q.1 = p := by
    intro p hp
    rw [← hagg.kept_prices] at hp
    exact List.mem_map.mp hp
  constructor
  · refine ⟨a, ha, within_of_bounds law hlo hfits ?_ hbounds⟩
    apply computeMedianAllowSingle_bounds hagg.median
    intro p hp
    obtain ⟨q, hq, rfl⟩ := hsource p hp
    exact hsurvive q hq
  · intro hfar
    obtain ⟨low, hlow, hmin⟩ := H.exists_min_image Prod.fst ⟨a, ha⟩
    obtain ⟨high, hhigh, hmax⟩ := H.exists_max_image Prod.fst ⟨a, ha⟩
    refine ⟨low, hlow, high, hhigh, ?_⟩
    apply computeMedianAllowSingle_bounds hagg.median
    intro p hp
    obtain ⟨q, hq, rfl⟩ := hsource p hp
    have hqH : q ∈ H := by
      by_contra hne
      exact hfar q (hagg.mem_of_kept hq) hne a ha
        (within_of_bounds law hlo hfits (hsurvive q hq) hbounds)
    exact ⟨hmin q hqH, hmax q hqH⟩

theorem aggregatePrices_median_near_honestQuotes :
    ∃ agg, Returns (aggregatePrices exactOps skewedPrices skewedSources [1, 1, 1] 2 500) agg ∧
      ∃ a ∈ honestQuotes, Within exactOps (clusterToleranceBps 500) agg.median a.1 := by
  obtain ⟨agg, hagg, -⟩ := exists_returns (p := fun _ => true)
    (x := aggregatePrices exactOps skewedPrices skewedSources [1, 1, 1] 2 500) (by decide +kernel)
  exact ⟨agg, hagg,
    (aggregatePrices_median_near_majority exactOps_monotoneDeviation (by decide) (by decide)
      majority_honestQuotes hagg).1⟩

theorem aggregatePrices_median_below_majority :
    ∃ agg, Returns (aggregatePrices exactOps skewedPrices skewedSources [1, 1, 1] 2 500) agg ∧
      Majority exactOps skewedPrices skewedSources (clusterToleranceBps 500) honestQuotes ∧
      ∀ a ∈ honestQuotes, agg.median < a.1 := by
  obtain ⟨agg, hagg, hmedian⟩ := exists_returns
    (p := fun agg : AggregatedPrice (Option ℚ) => decide (∀ a ∈ honestQuotes, agg.median < a.1))
    (x := aggregatePrices exactOps skewedPrices skewedSources [1, 1, 1] 2 500) (by decide +kernel)
  exact ⟨agg, hagg, majority_honestQuotes, of_decide_eq_true hmedian⟩

end Influence

end So4Oracle.MajorityBound
