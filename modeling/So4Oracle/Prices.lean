import Mathlib.Data.List.Sort
import Mathlib.Data.String.Basic
import So4Oracle.Library.Checked
import So4Oracle.Library.Floats

namespace So4Oracle.Prices

open Library.Checked Library.Floats

def minSourcesForPercentile : Nat := 3

def defaultClusterToleranceBps : Nat := 500

def clusterToleranceBps (maxDeviationBps : Nat) : Nat :=
  max maxDeviationBps defaultClusterToleranceBps

structure PriceProps where
  min : Int
  max : Int
  deriving DecidableEq, Repr

structure RejectedSource (F : Type) where
  source : String
  price : Int
  deviationBps : F

structure AggregatedPrice (F : Type) where
  min : Int
  max : Int
  median : Int
  sourcesUsed : List String
  rejectedSources : List (RejectedSource F)
  minObservationTime : Nat

structure ClusterResult where
  filteredPrices : List Int
  sources : List String

structure OutlierFilterResult (F : Type) where
  filteredPrices : List Int
  filteredSources : List String
  rejected : List (RejectedSource F)

abbrev Quote := Int × String

/-- By price, then by source name. -/
def quoteLe (a b : Quote) : Prop := a.1 < b.1 ∨ a.1 = b.1 ∧ a.2 ≤ b.2

instance : DecidableRel quoteLe := fun _ _ => inferInstanceAs (Decidable (_ ∨ _))

def sortUnstable (prices : List Int) : List Int := prices.insertionSort (· ≤ ·)

section Median

/-- The middle of a sorted list; the mean of the two middle prices is truncated. -/
def middle (sorted : List Int) : Panicking Int :=
  if sorted.length % 2 = 0 then do
    let below ← index sorted (← checkedSub (sorted.length / 2) 1)
    let above ← index sorted (sorted.length / 2)
    pure ((← checked (below + above)).tdiv 2)
  else index sorted (sorted.length / 2)

def computeMedianAllowSingle (prices : List Int) : Panicking (Option Int) :=
  if prices = [] then pure none else some <$> middle (sortUnstable prices)

end Median

variable {F : Type} (ops : FloatOps F)

def deviationBps (price median : Int) : F :=
  if median = 0 then ops.infinity
  else
    ops.mul
      (ops.div (ops.abs (ops.sub (ops.ofInt price) (ops.ofInt median))) (ops.abs (ops.ofInt median)))
      (ops.ofInt 10000)

def exceedsBps (price median : Int) (bps : Nat) : Bool :=
  ops.lt (ops.ofInt bps) (deviationBps ops price median)

section Cluster

/-- `best` is the best window so far, its end exclusive. -/
structure Scan where
  best : Nat × Nat
  start : Nat
  deriving DecidableEq, Repr

/-- The inner loop: the list is what is left from start on. -/
def advanceStart (hi : Int) (toleranceBps : Nat) : List Quote → Nat → Panicking Nat
  | [], _ => .error .indexOutOfBounds
  | q :: rest, start =>
      if exceedsBps ops hi q.1 toleranceBps then advanceStart hi toleranceBps rest (start + 1)
      else .ok start

def scanEnd (sorted : List Quote) (toleranceBps : Nat) (s : Scan) (stop : Nat) :
    Panicking Scan := do
  let hi ← index sorted (stop - 1)
  let start ← advanceStart ops hi.1 toleranceBps (sorted.drop s.start) s.start
  let len ← checkedSub stop start
  let bestLen := s.best.2 - s.best.1
  let lo ← index sorted start
  let spread ← checked (hi.1 - lo.1)
  let bestHi ← index sorted (s.best.2 - 1)
  let bestLo ← index sorted s.best.1
  let bestSpread ← checked (bestHi.1 - bestLo.1)
  pure ⟨if bestLen < len ∨ len = bestLen ∧ spread < bestSpread then (start, stop) else s.best, start⟩

def sortQuotes (prices : List Int) (sources : List String) : List Quote :=
  (prices.zip sources).insertionSort quoteLe

def findLargestConsistentCluster (prices : List Int) (sources : List String)
    (toleranceBps : Nat) : Panicking (Option ClusterResult) :=
  if prices = [] then pure none
  else do
    let sorted := sortQuotes prices sources
    let s ← (List.range' 1 sorted.length).foldlM (scanEnd ops sorted toleranceBps) ⟨(0, 1), 0⟩
    let window ← slice sorted s.best.1 s.best.2
    pure (some ⟨window.map Prod.fst, window.map Prod.snd⟩)

end Cluster

section Interval

def half : F := ops.div (ops.ofInt 1) (ops.ofInt 2)

def percentile (sorted : List Int) (p : Nat) : Panicking Int :=
  if sorted.length = 1 ∨ p = 0 then index sorted 0
  else if 100 ≤ p then index sorted (sorted.length - 1)
  else do
    let n := ops.ofInt sorted.length
    let idx := ops.mul (ops.div (ops.ofInt p) (ops.ofInt 100)) (ops.sub n (ops.ofInt 1))
    let lo := (ops.toInt (ops.floor idx)).toNat
    let hi := (ops.toInt (ops.ceil idx)).toNat
    if lo = hi then index sorted lo
    else do
      let frac := ops.sub idx (ops.ofInt lo)
      let loVal := ops.ofInt (← index sorted lo)
      let hiVal := ops.ofInt (← index sorted hi)
      pure (ops.toInt (ops.floor
        (ops.add (ops.add loVal (ops.mul frac (ops.sub hiVal loVal))) (half ops))))

def spreadAround (mid : Int) (spreadBps : Nat) : Int :=
  (saturate (mid * spreadBps)).tdiv 10000

def widen (lo hi spread : Int) : PriceProps :=
  ⟨max (saturate (lo - spread)) 0, saturate (hi + spread)⟩

def computeConfidenceIntervalWithSpread (prices : List Int) (spreadBps : Nat) :
    Panicking (Option PriceProps) :=
  if prices = [] then pure none
  else do
    let sorted := sortUnstable prices
    if minSourcesForPercentile ≤ sorted.length then do
      let min ← percentile ops sorted 10
      let max ← percentile ops sorted 90
      let mid := (← computeMedianAllowSingle sorted).getD min
      pure (some (widen min max (spreadAround mid spreadBps)))
    else
      match ← computeMedianAllowSingle sorted with
      | none => pure none
      | some mid => pure (some (widen mid mid (spreadAround mid spreadBps)))

end Interval

section Outliers

/-- Two sources must agree within 10% of their average, else one of them goes. -/
def filterPair (p₀ p₁ : Int) (sources : List String) : Panicking (OutlierFilterResult F) := do
  let x₀ := ops.ofInt p₀
  let x₁ := ops.ofInt p₁
  let avg := ops.div (ops.add x₀ x₁) (ops.ofInt 2)
  let deviation := ops.mul (ops.div (ops.abs (ops.sub x₀ x₁)) (ops.abs avg)) (ops.ofInt 10000)
  if ops.beq avg (ops.ofInt 0) || ops.le deviation (ops.ofInt 1000) then
    pure ⟨[p₀, p₁], sources, []⟩
  else do
    let s₀ ← index sources 0
    let s₁ ← index sources 1
    if ops.le (ops.abs (ops.sub x₀ avg)) (ops.abs (ops.sub x₁ avg)) then
      pure ⟨[p₀], [s₀], [⟨s₁, p₁, deviation⟩]⟩
    else pure ⟨[p₁], [s₁], [⟨s₀, p₀, deviation⟩]⟩

def sumPrices (prices : List Int) : Panicking Int :=
  prices.foldlM (fun sum p => checked (sum + p)) 0

def absoluteDeviation (median p : Int) : Panicking Int := do
  let difference ← checked (p - median)
  checked |difference|

def standardDeviation (sum : Int) (prices : List Int) : F :=
  let n := ops.ofInt prices.length
  let mean := ops.div (ops.ofInt sum) n
  let squares := prices.map fun p =>
    let diff := ops.sub (ops.ofInt p) mean
    ops.mul diff diff
  ops.sqrt (ops.div (squares.foldl ops.add (ops.ofInt 0)) n)

def isOutlier (median mad : Int) (stddev : F) (maxDeviationBps : Nat) (p : Int) : Bool :=
  let dev := ops.abs (ops.sub (ops.ofInt p) (ops.ofInt median))
  if exceedsBps ops p median maxDeviationBps then true
  else if 0 < mad then ops.lt (ops.mul (ops.ofInt 6) (ops.ofInt mad)) dev
  else ops.lt (ops.ofInt 0) stddev && ops.lt (ops.mul (ops.ofInt 3) stddev) dev

def splitOutliers (outlier : Int → Bool) (median : Int) :
    List Int → List String → Panicking (OutlierFilterResult F)
  | [], _ => pure ⟨[], [], []⟩
  | _ :: _, [] => .error .indexOutOfBounds
  | p :: prices, source :: sources => do
      let rest ← splitOutliers outlier median prices sources
      if outlier p then
        pure { rest with rejected := ⟨source, p, deviationBps ops p median⟩ :: rest.rejected }
      else
        pure { rest with
          filteredPrices := p :: rest.filteredPrices
          filteredSources := source :: rest.filteredSources }

def filterOutliers (prices : List Int) (sources : List String) (maxDeviationBps : Nat) :
    Panicking (OutlierFilterResult F) :=
  match prices with
  | [] => pure ⟨[], [], []⟩
  | [p₀, p₁] => filterPair ops p₀ p₁ sources
  | prices => do
      let median ← middle (sortUnstable prices)
      let deviations ← prices.mapM (absoluteDeviation median)
      let mad ← middle (sortUnstable deviations)
      let sum ← sumPrices prices
      let stddev := standardDeviation ops sum prices
      splitOutliers ops (isOutlier ops median mad stddev maxDeviationBps) median prices sources

end Outliers

section Aggregate

def insufficient (where_ : String) (got need : Nat) : String :=
  "insufficient sources" ++ where_ ++ ": got " ++ toString got ++ ", need " ++ toString need

/-- The sources outside the cluster, with their distance from the median. -/
def clusterRejects (prices : List Int) (sources : List String) (kept : List String) (median : Int) :
    List (RejectedSource F) :=
  ((prices.zip sources).filter fun q => !kept.contains q.2).map fun q =>
    ⟨q.2, q.1, deviationBps ops q.1 median⟩

/-- The lengths agree, so a position found in the sources is in bounds. -/
def observationTimesOf (used sources : List String) (observationTimes : List Nat) : List Nat :=
  used.filterMap fun source => (sources.idxOf? source).bind fun i => observationTimes[i]?

def aggregatePrices (prices : List Int) (sources : List String) (observationTimes : List Nat)
    (minSources maxDeviationBps : Nat) : Fallible String (AggregatedPrice F) := do
  ensure (prices.length = sources.length) "prices and sources length mismatch"
  ensure (prices.length = observationTimes.length) "observation_times and sources length mismatch"
  ensure (minSources ≤ prices.length) (insufficient "" prices.length minSources)
  let found ← (findLargestConsistentCluster ops prices sources (clusterToleranceBps maxDeviationBps) :
    Panicking _)
  let cluster ← demand found "no consistent price cluster found"
  ensure (minSources ≤ cluster.filteredPrices.length)
    (insufficient " in consistent cluster" cluster.filteredPrices.length minSources)
  let filter ← (filterOutliers ops cluster.filteredPrices cluster.sources maxDeviationBps :
    Panicking _)
  ensure (minSources ≤ filter.filteredPrices.length)
    (insufficient " after outlier filtering" filter.filteredPrices.length minSources)
  let middle ← (computeMedianAllowSingle filter.filteredPrices : Panicking _)
  let median ← demand middle "cannot aggregate empty price list"
  let interval ← (computeConfidenceIntervalWithSpread ops filter.filteredPrices maxDeviationBps :
    Panicking _)
  let props ← demand interval "cannot compute confidence interval"
  let again ← (computeMedianAllowSingle filter.filteredPrices : Panicking _)
  let minObservationTime ← demand
    (observationTimesOf filter.filteredSources sources observationTimes).min?
    "no observation times available"
  pure {
    min := props.min
    max := props.max
    median := again.getD props.min
    sourcesUsed := filter.filteredSources
    rejectedSources := clusterRejects ops prices sources cluster.sources median ++ filter.rejected
    minObservationTime := minObservationTime }

end Aggregate

end So4Oracle.Prices
