import So4Oracle.Aggregate
import So4Oracle.Cluster

namespace So4Oracle.Observations

open Library.Checked Library.Floats Prices Cluster Aggregate

variable {F : Type} {ops : FloatOps F}

/-- One entry of the three lists that the aggregation is given. -/
structure Observation where
  price : Int
  source : String
  time : Nat
  deriving DecidableEq, Repr

namespace Observation

def quote (o : Observation) : Quote := (o.price, o.source)

end Observation

def prices (l : List Observation) : List Int := l.map Observation.price

def sources (l : List Observation) : List String := l.map Observation.source

def times (l : List Observation) : List Nat := l.map Observation.time

variable (ops) in
def aggregate (l : List Observation) (minSources maxDeviationBps : Nat) :
    Fallible String (AggregatedPrice F) :=
  aggregatePrices ops (prices l) (sources l) (times l) minSources maxDeviationBps

variable {l l' : List Observation}

theorem zip_prices_sources (l : List Observation) :
    (prices l).zip (sources l) = l.map Observation.quote := by
  induction l with
  | nil => rfl
  | cons o l ih =>
      show (o.price, o.source) :: (prices l).zip (sources l) = _
      rw [ih]
      rfl

section Times

/-- The position of a source leads to its own observation time. -/
theorem timeOf_eq_some (hsources : (sources l).Nodup) {source : String} {time : Nat} :
    ((sources l).idxOf? source).bind (fun i => (times l)[i]?) = some time ↔
      ∃ o ∈ l, o.source = source ∧ o.time = time := by
  induction l with
  | nil => simp [sources]
  | cons o l ih =>
      obtain ⟨hfresh, hrest⟩ := List.nodup_cons.mp hsources
      have hcons : sources (o :: l) = o.source :: sources l := rfl
      have htimes : times (o :: l) = o.time :: times l := rfl
      rw [hcons, htimes, List.idxOf?_cons]
      by_cases h : o.source = source
      · have hnone : ∀ o' ∈ l, o'.source ≠ source := by
          intro o' ho' heq
          apply hfresh
          rw [h, ← heq]
          exact List.mem_map_of_mem ho'
        simp only [h, beq_self_eq_true, if_true, Option.bind_some, List.getElem?_cons_zero,
          Option.some.injEq, List.mem_cons]
        constructor
        · rintro rfl
          exact ⟨o, .inl rfl, h, rfl⟩
        · rintro ⟨o', rfl | ho', hsource, htime⟩
          · exact htime
          · exact absurd hsource (hnone o' ho')
      · have hne : (o.source == source) = false := beq_false_of_ne h
        have hshift : ((Option.map (· + 1) ((sources l).idxOf? source)).bind fun i =>
            (o.time :: times l)[i]?) = ((sources l).idxOf? source).bind fun i => (times l)[i]? := by
          cases (sources l).idxOf? source <;> rfl
        simp only [hne, Bool.false_eq_true, if_false, hshift, ih hrest, List.mem_cons]
        constructor
        · rintro ⟨o', ho', hsource, htime⟩
          exact ⟨o', .inr ho', hsource, htime⟩
        · rintro ⟨o', rfl | ho', hsource, htime⟩
          · exact absurd hsource h
          · exact ⟨o', ho', hsource, htime⟩

theorem mem_observationTimesOf (hsources : (sources l).Nodup) {used : List String} {time : Nat} :
    time ∈ observationTimesOf used (sources l) (times l) ↔ ∃ o ∈ l, o.source ∈ used ∧ o.time = time := by
  rw [observationTimesOf, List.mem_filterMap]
  constructor
  · rintro ⟨source, hsource, htime⟩
    obtain ⟨o, ho, rfl, hotime⟩ := (timeOf_eq_some hsources).mp htime
    exact ⟨o, ho, hsource, hotime⟩
  · rintro ⟨o, ho, hsource, htime⟩
    exact ⟨o.source, hsource, (timeOf_eq_some hsources).mpr ⟨o, ho, rfl, htime⟩⟩

theorem observationTimesOf_perm (hsources : (sources l).Nodup) (h : l.Perm l') (used : List String) :
    observationTimesOf used (sources l) (times l) =
      observationTimesOf used (sources l') (times l') := by
  have hsources' : (sources l').Nodup := (h.map Observation.source).nodup_iff.mp hsources
  apply List.filterMap_congr
  intro source _
  ext time
  rw [timeOf_eq_some hsources, timeOf_eq_some hsources']
  simp only [h.mem_iff]

end Times

section Sorting

theorem quoteLe_antisymm {a b : Quote} (hab : quoteLe a b) (hba : quoteLe b a) : a = b := by
  rcases hab with hab | ⟨hab, has⟩ <;> rcases hba with hba | ⟨hba, hbs⟩
  · exact absurd (hab.trans hba) (lt_irrefl _)
  · exact absurd hab (hba ▸ lt_irrefl _)
  · exact absurd hba (hab ▸ lt_irrefl _)
  · exact Prod.ext hab (le_antisymm has hbs)

theorem sortQuotes_perm (h : l.Perm l') :
    sortQuotes (prices l) (sources l) = sortQuotes (prices l') (sources l') := by
  have hperm : (sortQuotes (prices l) (sources l)).Perm (sortQuotes (prices l') (sources l')) := by
    unfold sortQuotes
    rw [zip_prices_sources, zip_prices_sources]
    exact (List.perm_insertionSort _ _).trans
      ((h.map _).trans (List.perm_insertionSort _ _).symm)
  exact hperm.eq_of_pairwise (fun a b _ _ => quoteLe_antisymm)
    (List.pairwise_insertionSort quoteLe _) (List.pairwise_insertionSort quoteLe _)

theorem sortUnstable_perm {ps ps' : List Int} (h : ps.Perm ps') :
    sortUnstable ps = sortUnstable ps' := by
  have hperm : (sortUnstable ps).Perm (sortUnstable ps') :=
    perm_sortUnstable.trans (h.trans perm_sortUnstable.symm)
  exact hperm.eq_of_pairwise (fun a b _ _ => le_antisymm) sorted_sortUnstable sorted_sortUnstable

theorem computeMedianAllowSingle_perm {ps ps' : List Int} (h : ps.Perm ps') :
    computeMedianAllowSingle ps = computeMedianAllowSingle ps' := by
  have hempty : ps = [] ↔ ps' = [] := by
    constructor
    · rintro rfl
      exact List.nil_perm.mp h
    · rintro rfl
      exact List.perm_nil.mp h
  rw [computeMedianAllowSingle, computeMedianAllowSingle, sortUnstable_perm h]
  simp only [hempty]

theorem findLargestConsistentCluster_perm (h : l.Perm l') (toleranceBps : Nat) :
    findLargestConsistentCluster ops (prices l) (sources l) toleranceBps =
      findLargestConsistentCluster ops (prices l') (sources l') toleranceBps := by
  have hempty : prices l = [] ↔ prices l' = [] := by
    rw [prices, prices, List.map_eq_nil_iff, List.map_eq_nil_iff]
    constructor
    · rintro rfl
      exact List.nil_perm.mp h
    · rintro rfl
      exact List.perm_nil.mp h
  unfold findLargestConsistentCluster
  rw [sortQuotes_perm h]
  simp only [hempty]

theorem clusterRejects_perm (h : l.Perm l') (kept : List String) (median : Int) :
    (clusterRejects ops (prices l) (sources l) kept median).Perm
      (clusterRejects ops (prices l') (sources l') kept median) := by
  rw [clusterRejects, clusterRejects, zip_prices_sources, zip_prices_sources]
  exact ((h.map _).filter _).map _

end Sorting

/-- Equal but for the order of the rejected sources. -/
structure SameAggregate (a b : AggregatedPrice F) : Prop where
  min : a.min = b.min
  max : a.max = b.max
  median : a.median = b.median
  sourcesUsed : a.sourcesUsed = b.sourcesUsed
  minObservationTime : a.minObservationTime = b.minObservationTime
  rejectedSources : a.rejectedSources.Perm b.rejectedSources

/-- The order in which the sources are listed does not matter. -/
theorem aggregate_perm (hsources : (sources l).Nodup) (h : l.Perm l')
    (minSources maxDeviationBps : Nat) :
    Alike SameAggregate (aggregate ops l minSources maxDeviationBps)
      (aggregate ops l' minSources maxDeviationBps) := by
  have hlengths : ∀ l : List Observation, (prices l).length = l.length ∧
      (sources l).length = l.length ∧ (times l).length = l.length := by
    intro l
    exact ⟨List.length_map .., List.length_map .., List.length_map ..⟩
  unfold aggregate aggregatePrices
  rw [(hlengths l).1, (hlengths l).2.1, (hlengths l).2.2, (hlengths l').1, (hlengths l').2.1,
    (hlengths l').2.2, h.length_eq, findLargestConsistentCluster_perm h]
  simp only [observationTimesOf_perm hsources h]
  apply Alike.bind
  intro _
  apply Alike.bind
  intro _
  apply Alike.bind
  intro _
  apply Alike.bind
  intro found
  apply Alike.bind
  intro cluster
  apply Alike.bind
  intro _
  apply Alike.bind
  intro filter
  apply Alike.bind
  intro _
  apply Alike.bind
  intro middle
  apply Alike.bind
  intro median
  apply Alike.bind
  intro interval
  apply Alike.bind
  intro props
  apply Alike.bind
  intro again
  apply Alike.bind
  intro oldest
  rw [alike_pure]
  exact ⟨rfl, rfl, rfl, rfl, rfl, (clusterRejects_perm h _ _).append_right _⟩

section Samples

/-- Two sources quote the same price, and two clusters are as large and as tight. -/
def tiedQuotes : List Observation :=
  [⟨200, "pyth", 8⟩, ⟨100, "coinbase", 9⟩, ⟨100, "binance", 7⟩, ⟨200, "fixed", 6⟩]

end Samples

theorem aggregate_perm_tiedQuotes :
    Alike SameAggregate (aggregate exactOps tiedQuotes 2 200)
        (aggregate exactOps tiedQuotes.reverse 2 200) ∧
      (returned? (aggregate exactOps tiedQuotes 2 200)).any
        (fun agg => agg.sourcesUsed == ["binance", "coinbase"]) = true :=
  ⟨aggregate_perm (by decide) (List.reverse_perm _).symm 2 200, by decide +kernel⟩

end So4Oracle.Observations
