import So4Oracle.Observations

namespace So4Oracle.SourceAccounts

open Library.Checked Library.Floats Prices Cluster Aggregate Observations

variable {F : Type} {ops : FloatOps F} {l : List Observation} {agg : AggregatedPrice F}
  {minSources maxDeviationBps toleranceBps : Nat}

def rejectedQuote (r : RejectedSource F) : Quote := (r.price, r.source)

section Filter

theorem splitOutliers_perm {outlier : Int → Bool} {median : Int} {prices : List Int}
    {sources : List String} {r : OutlierFilterResult F} (hlen : prices.length = sources.length)
    (h : splitOutliers ops outlier median prices sources = .ok r) :
    (keptQuotes r ++ r.rejected.map rejectedQuote).Perm (prices.zip sources) := by
  induction prices generalizing sources r with
  | nil =>
      cases h
      exact .refl _
  | cons p prices ih =>
      cases sources with
      | nil => cases h
      | cons source sources =>
          rw [splitOutliers, bind_eq_ok] at h
          obtain ⟨rest, hrest, h⟩ := h
          have hperm := ih (Nat.succ.inj hlen) hrest
          split at h
          next =>
            cases h
            exact List.perm_middle.trans (hperm.cons _)
          next =>
            cases h
            exact hperm.cons _

theorem filterPair_perm {p₀ p₁ : Int} {s₀ s₁ : String} {r : OutlierFilterResult F}
    (h : filterPair ops p₀ p₁ [s₀, s₁] = .ok r) :
    (keptQuotes r ++ r.rejected.map rejectedQuote).Perm ([p₀, p₁].zip [s₀, s₁]) := by
  unfold filterPair at h
  dsimp only at h
  split at h
  next =>
    cases h
    exact .refl _
  next =>
    simp only [bind_eq_ok, index_eq_ok] at h
    obtain ⟨a, ha, b, hb, h⟩ := h
    cases ha
    cases hb
    split at h
    next =>
      cases h
      exact .refl _
    next =>
      cases h
      exact .swap _ _ _

theorem filterOutliers_perm {prices : List Int} {sources : List String} {r : OutlierFilterResult F}
    (hlen : prices.length = sources.length)
    (h : filterOutliers ops prices sources maxDeviationBps = .ok r) :
    (keptQuotes r ++ r.rejected.map rejectedQuote).Perm (prices.zip sources) := by
  unfold filterOutliers at h
  split at h
  next =>
    cases h
    exact .refl _
  next p₀ p₁ =>
    obtain ⟨s₀, s₁, rfl⟩ := List.length_eq_two.mp hlen.symm
    exact filterPair_perm h
  next =>
    simp only [bind_eq_ok] at h
    obtain ⟨median, -, deviations, -, mad, -, sum, -, h⟩ := h
    exact splitOutliers_perm hlen h

end Filter

section Cluster

/-- Distinct names select exactly the quotes they come from. -/
theorem filter_names_perm (hsources : (sources l).Nodup) {K : List Quote} (hnodup : K.Nodup)
    (hK : K ⊆ l.map Observation.quote) {names : List String} (hnames : K.map Prod.snd = names) :
    ((l.filter fun o => o.source ∈ names).map Observation.quote).Perm K := by
  have hquotes : ((l.map Observation.quote).map Prod.snd).Nodup := by
    rw [List.map_map]
    exact hsources
  have hl : (l.map Observation.quote).Nodup := .of_map _ hquotes
  apply (List.perm_ext_iff_of_nodup ?_ hnodup).mpr
  · intro q
    rw [← hnames]
    simp only [List.mem_map, List.mem_filter, decide_eq_true_eq]
    constructor
    · rintro ⟨o, ⟨ho, q', hq', hname⟩, rfl⟩
      have hsame : q' = o.quote :=
        List.inj_on_of_nodup_map hquotes (hK hq') (List.mem_map_of_mem ho) hname
      exact hsame ▸ hq'
    · intro hq
      obtain ⟨o, ho, rfl⟩ := List.mem_map.mp (hK hq)
      exact ⟨o, ⟨ho, o.quote, hq, rfl⟩, rfl⟩
  · exact hl.sublist (List.filter_sublist.map _)

theorem clusterQuotes_sources {cluster : ClusterResult}
    (hlen : cluster.filteredPrices.length = cluster.sources.length) :
    (clusterQuotes cluster).map Prod.snd = cluster.sources := List.map_snd_zip hlen.ge

theorem clusterRejects_quotes (l : List Observation) (names : List String) (median : Int) :
    (clusterRejects ops (prices l) (sources l) names median).map rejectedQuote =
      (l.filter fun o => o.source ∉ names).map Observation.quote := by
  rw [clusterRejects, zip_prices_sources, List.map_map, List.filter_map, List.map_map]
  congr 1
  apply List.filter_congr
  intro o _
  by_cases h : o.source ∈ names <;> simp [Observation.quote, h]

theorem clusterQuotes_nodup (hsources : (sources l).Nodup) {cluster : ClusterResult}
    (h : (clusterQuotes cluster).Sublist (sortQuotes (prices l) (sources l))) :
    (clusterQuotes cluster).Nodup ∧ clusterQuotes cluster ⊆ l.map Observation.quote := by
  have hsorted : (sortQuotes (prices l) (sources l)).Perm (l.map Observation.quote) := by
    rw [sortQuotes, zip_prices_sources]
    exact List.perm_insertionSort _ _
  have hquotes : (l.map Observation.quote).Nodup := by
    apply List.Nodup.of_map Prod.snd
    rw [List.map_map]
    exact hsources
  exact ⟨(hsorted.nodup_iff.mpr hquotes).sublist h, fun q hq => hsorted.mem_iff.mp (h.subset hq)⟩

variable (ops) in
/-- The cluster and the sources outside it are all there is. -/
theorem cluster_partition (median : Int) (hsources : (sources l).Nodup) {cluster : ClusterResult}
    (hlen : cluster.filteredPrices.length = cluster.sources.length)
    (h : (clusterQuotes cluster).Sublist (sortQuotes (prices l) (sources l))) :
    (clusterQuotes cluster ++ (clusterRejects ops (prices l) (sources l) cluster.sources median).map
      rejectedQuote).Perm (l.map Observation.quote) := by
  obtain ⟨hnodup, hsubset⟩ := clusterQuotes_nodup hsources h
  have hmembers := filter_names_perm hsources hnodup hsubset (clusterQuotes_sources hlen)
  rw [clusterRejects_quotes]
  apply (hmembers.symm.append_right _).trans
  rw [← List.map_append]
  apply List.Perm.map
  simpa using List.filter_append_perm (fun o => decide (o.source ∈ cluster.sources)) l

end Cluster

/-- Every source is used or rejected, once, and counts with what it reported itself. -/
structure AccountsFor (l : List Observation) (minSources : Nat) (agg : AggregatedPrice F) : Prop where
  partition : (agg.sourcesUsed ++ agg.rejectedSources.map RejectedSource.source).Perm (sources l)
  rejectedPrices : ∀ r ∈ agg.rejectedSources, ∃ o ∈ l, o.source = r.source ∧ o.price = r.price
  enough : minSources ≤ agg.sourcesUsed.length
  median : computeMedianAllowSingle (prices (l.filter fun o => o.source ∈ agg.sourcesUsed)) =
    .ok (some agg.median)
  oldest : (times (l.filter fun o => o.source ∈ agg.sourcesUsed)).min? = some agg.minObservationTime

variable {cluster : ClusterResult} {filter : OutlierFilterResult F}

theorem accounted_quotes_perm (hsources : (sources l).Nodup)
    (h : Aggregated ops (prices l) (sources l) (times l) minSources maxDeviationBps agg cluster
      filter) :
    (keptQuotes filter ++ agg.rejectedSources.map rejectedQuote).Perm (l.map Observation.quote) := by
  have hlen := findLargestConsistentCluster_lengths h.searched
  have hcluster := cluster_partition ops agg.median hsources hlen
    (findLargestConsistentCluster_sublist h.searched)
  have hfilter : (keptQuotes filter ++ filter.rejected.map rejectedQuote).Perm (clusterQuotes cluster) :=
    filterOutliers_perm hlen h.filtered
  rw [h.rejectedSources, List.map_append]
  have hswap : (keptQuotes filter ++ ((clusterRejects ops (prices l) (sources l) cluster.sources
      agg.median).map rejectedQuote ++ filter.rejected.map rejectedQuote)).Perm
      ((keptQuotes filter ++ filter.rejected.map rejectedQuote) ++ (clusterRejects ops (prices l) (sources l)
        cluster.sources agg.median).map rejectedQuote) := by
    rw [List.append_assoc]
    exact List.perm_append_comm.append_left _
  exact hswap.trans ((hfilter.append_right _).trans hcluster)

/-- What the used names select is what the filter kept. -/
theorem used_quotes_perm (hsources : (sources l).Nodup)
    (h : Aggregated ops (prices l) (sources l) (times l) minSources maxDeviationBps agg cluster
      filter) :
    ((l.filter fun o => o.source ∈ agg.sourcesUsed).map Observation.quote).Perm (keptQuotes filter) := by
  have hall := accounted_quotes_perm hsources h
  have hquotes : (l.map Observation.quote).Nodup := by
    apply List.Nodup.of_map Prod.snd
    rw [List.map_map]
    exact hsources
  apply filter_names_perm hsources
  · exact (List.nodup_append.mp (hall.nodup_iff.mpr hquotes)).1
  · intro q hq
    exact hall.mem_iff.mp (List.mem_append_left _ hq)
  · exact h.kept_sources

theorem accountsFor_of_aggregated (hsources : (sources l).Nodup)
    (h : Aggregated ops (prices l) (sources l) (times l) minSources maxDeviationBps agg cluster
      filter) : AccountsFor l minSources agg := by
  have hall := accounted_quotes_perm hsources h
  have hused := used_quotes_perm hsources h
  have hlen := h.keeps.lengths
  constructor
  · have hmap := hall.map Prod.snd
    rw [List.map_append, h.kept_sources, List.map_map, List.map_map] at hmap
    exact hmap
  · intro r hr
    have hmem : rejectedQuote r ∈ l.map Observation.quote :=
      hall.mem_iff.mp (List.mem_append_right _ (List.mem_map_of_mem hr))
    obtain ⟨o, ho, hquote⟩ := List.mem_map.mp hmem
    exact ⟨o, ho, congrArg Prod.snd hquote, congrArg Prod.fst hquote⟩
  · rw [h.sourcesUsed, ← hlen]
    exact h.enough
  · have hprices : (prices (l.filter fun o => o.source ∈ agg.sourcesUsed)).Perm
        filter.filteredPrices := by
      have hmap := hused.map Prod.fst
      rw [List.map_map, h.kept_prices] at hmap
      exact hmap
    rw [computeMedianAllowSingle_perm hprices]
    exact h.median
  · have holdest := h.minObservationTime
    rw [← h.sourcesUsed] at holdest
    rw [List.min?_eq_some_iff] at holdest ⊢
    have hmem : ∀ time, time ∈ times (l.filter fun o => o.source ∈ agg.sourcesUsed) ↔
        time ∈ observationTimesOf agg.sourcesUsed (sources l) (times l) := by
      intro time
      rw [mem_observationTimesOf hsources]
      simp [times, and_assoc]
    simp only [hmem]
    exact holdest

section Lists

def observations (ps : List Int) (ss : List String) (ts : List Nat) : List Observation :=
  (ps.zip (ss.zip ts)).map fun entry => ⟨entry.1, entry.2.1, entry.2.2⟩

variable {ps : List Int} {ss : List String} {ts : List Nat}

theorem lists_of_observations (hsources : ps.length = ss.length) (htimes : ps.length = ts.length) :
    prices (observations ps ss ts) = ps ∧ sources (observations ps ss ts) = ss ∧
      times (observations ps ss ts) = ts := by
  have hpairs : ps.length = (ss.zip ts).length := by
    rw [List.length_zip]
    omega
  have hnames : (ps.zip (ss.zip ts)).map Prod.snd = ss.zip ts := List.map_snd_zip hpairs.ge
  refine ⟨?_, ?_, ?_⟩
  · rw [prices, observations, List.map_map]
    exact List.map_fst_zip hpairs.le
  · rw [sources, observations, List.map_map]
    calc ((ps.zip (ss.zip ts)).map fun entry => entry.2.1)
        = ((ps.zip (ss.zip ts)).map Prod.snd).map Prod.fst := by rw [List.map_map]; rfl
      _ = ss := by rw [hnames, List.map_fst_zip (by omega)]
  · rw [times, observations, List.map_map]
    calc ((ps.zip (ss.zip ts)).map fun entry => entry.2.2)
        = ((ps.zip (ss.zip ts)).map Prod.snd).map Prod.snd := by rw [List.map_map]; rfl
      _ = ts := by rw [hnames, List.map_snd_zip (by omega)]

/-- A result of the aggregation accounts for every source it was given. -/
theorem aggregatePrices_accountsFor (hsources : ss.Nodup)
    (h : Returns (aggregatePrices ops ps ss ts minSources maxDeviationBps) agg) :
    AccountsFor (observations ps ss ts) minSources agg := by
  obtain ⟨cluster, filter, hagg⟩ := aggregatePrices_returns h
  obtain ⟨hps, hss, hts⟩ := lists_of_observations hagg.sourcesLength hagg.timesLength
  apply accountsFor_of_aggregated (hss.symm ▸ hsources)
  rw [hps, hss, hts]
  exact hagg

/-- One source leaves with the cluster search, one with the outlier filter. -/
theorem aggregatePrices_accountsFor_both :
    ∃ agg, Returns (aggregatePrices exactOps [104, 160, 100, 101]
        ["pyth", "fixed", "coinbase", "binance"] [9, 6, 8, 7] 2 200) agg ∧
      agg.rejectedSources.map RejectedSource.source = ["fixed", "pyth"] ∧
      AccountsFor (observations [104, 160, 100, 101] ["pyth", "fixed", "coinbase", "binance"]
        [9, 6, 8, 7]) 2 agg := by
  obtain ⟨agg, hagg, hrejected⟩ := exists_returns
    (p := fun agg : AggregatedPrice (Option ℚ) =>
      agg.rejectedSources.map RejectedSource.source == ["fixed", "pyth"])
    (x := aggregatePrices exactOps [104, 160, 100, 101] ["pyth", "fixed", "coinbase", "binance"]
      [9, 6, 8, 7] 2 200) (by decide +kernel)
  exact ⟨agg, hagg, beq_iff_eq.mp hrejected, aggregatePrices_accountsFor (by decide) hagg⟩

end Lists

end So4Oracle.SourceAccounts
