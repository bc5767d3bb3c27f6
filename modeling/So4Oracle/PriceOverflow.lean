import Mathlib.Algebra.Order.BigOperators.Group.List
import So4Oracle.DeviationBound

namespace So4Oracle.PriceOverflow

open Library.Checked Library.Floats Library.Windows Prices Cluster Aggregate DeviationBound

variable {F : Type} {ops : FloatOps F} {prices : List Int} {sources : List String}
  {observationTimes : List Nat} {minSources maxDeviationBps toleranceBps : Nat}

/-- A price that the source parsers let through. -/
def Admitted (p : Int) : Prop := 1 ≤ p ∧ p ≤ i128Max

instance (p : Int) : Decidable (Admitted p) := inferInstanceAs (Decidable (_ ∧ _))

theorem Admitted.pos {p : Int} (h : Admitted p) : 0 < p := h.1

theorem Admitted.nonneg {p : Int} (h : Admitted p) : 0 ≤ p := h.pos.le

section Sums

/-- The chain of additions is exact, and fails exactly when the total does not fit. -/
theorem sumPrices_eq (hadmitted : ∀ p ∈ prices, Admitted p) :
    sumPrices prices = if prices.sum ≤ i128Max then .ok prices.sum else .error .overflow := by
  have hchain : ∀ sum, 0 ≤ sum → sum ≤ i128Max →
      prices.foldlM (fun sum p => checked (sum + p)) sum =
        if sum + prices.sum ≤ i128Max then .ok (sum + prices.sum) else .error .overflow := by
    induction prices with
    | nil =>
        intro sum _ hfits
        simp [hfits]
        rfl
    | cons p prices ih =>
        intro sum hsum hfits
        have hp := hadmitted p List.mem_cons_self
        have hrest : 0 ≤ prices.sum :=
          List.sum_nonneg fun q hq => (hadmitted q (List.mem_cons_of_mem p hq)).nonneg
        rw [List.foldlM_cons, List.sum_cons]
        by_cases hstep : sum + p ≤ i128Max
        · have hchecked : checked (sum + p) = .ok (sum + p) := by
            apply checked_eq_ok.mpr
            refine ⟨rfl, ?_, hstep⟩
            have hlow : i128Min ≤ 0 := by decide
            have hone := hp.1
            omega
          rw [hchecked, ← add_assoc]
          apply ih (fun q hq => hadmitted q (List.mem_cons_of_mem p hq)) (sum + p) _ hstep
          have hone := hp.1
          omega
        · have hchecked : checked (sum + p) = .error .overflow :=
            checked_eq_error.mpr ⟨rfl, fun h => hstep h.2⟩
          rw [hchecked, if_neg (by omega)]
          rfl
  have hstart := hchain 0 le_rfl (by decide)
  rw [zero_add] at hstart
  exact hstart

theorem adjacent_le_sum {l : List Int} {i : Nat} {a b : Int} (hl : ∀ p ∈ l, 0 ≤ p)
    (ha : l[i]? = some a) (hb : l[i + 1]? = some b) : a + b ≤ l.sum := by
  induction l generalizing i with
  | nil => cases ha
  | cons p l ih =>
      have hp := hl p List.mem_cons_self
      have hrest : ∀ q ∈ l, 0 ≤ q := fun q hq => hl q (List.mem_cons_of_mem p hq)
      rw [List.sum_cons]
      cases i with
      | zero =>
          cases ha
          have hle := List.single_le_sum hrest b (List.mem_of_getElem? hb)
          omega
      | succ i =>
          have hle := ih hrest ha hb
          omega

end Sums

section Middle

variable {sorted : List Int}

/-- An even number of entries is added in the middle, an odd one is not. -/
theorem middle_cases (hne : sorted ≠ []) :
    (sorted.length % 2 = 0 ∧ ∃ below above, sorted[sorted.length / 2 - 1]? = some below ∧
        sorted[sorted.length / 2]? = some above ∧
        middle sorted = (fun sum => sum.tdiv 2) <$> checked (below + above)) ∨
      sorted.length % 2 = 1 ∧ ∃ m, sorted[sorted.length / 2]? = some m ∧ middle sorted = .ok m := by
  have hlen : 0 < sorted.length := List.length_pos_iff.mpr hne
  have habove : sorted[sorted.length / 2]? = some sorted[sorted.length / 2] :=
    List.getElem?_eq_getElem (by omega)
  by_cases heven : sorted.length % 2 = 0
  · have hbelow : sorted[sorted.length / 2 - 1]? = some sorted[sorted.length / 2 - 1] :=
      List.getElem?_eq_getElem (by omega)
    have hsub : checkedSub (sorted.length / 2) 1 = .ok (sorted.length / 2 - 1) :=
      checkedSub_of_le (by omega)
    refine .inl ⟨heven, _, _, hbelow, habove, ?_⟩
    rw [middle, if_pos heven, hsub]
    show (index sorted (sorted.length / 2 - 1) >>= fun below =>
      index sorted (sorted.length / 2) >>= fun above => _) = _
    rw [index_eq_ok.mpr hbelow, index_eq_ok.mpr habove]
    rfl
  · refine .inr ⟨by omega, _, habove, ?_⟩
    rw [middle, if_neg heven]
    exact index_eq_ok.mpr habove

theorem middle_error (hne : sorted ≠ []) {fault : Fault} (h : middle sorted = .error fault) :
    fault = .overflow := by
  rcases middle_cases hne with ⟨-, below, above, -, -, hmiddle⟩ | ⟨-, m, -, hmiddle⟩
  · cases hsum : checked (below + above) with
    | error fault' =>
        rw [hmiddle, hsum] at h
        cases h
        exact (checked_eq_error.mp hsum).1
    | ok sum =>
        rw [hmiddle, hsum] at h
        cases h
  · rw [hmiddle] at h
    cases h

/-- The middle is no larger a sum than the whole list. -/
theorem middle_ok (hne : sorted ≠ []) (hnonneg : ∀ p ∈ sorted, 0 ≤ p)
    (hsum : sorted.sum ≤ i128Max) : ∃ m, middle sorted = .ok m := by
  rcases middle_cases hne with ⟨heven, below, above, hbelow, habove, hmiddle⟩ | ⟨-, m, -, hmiddle⟩
  · have hlen : 0 < sorted.length := List.length_pos_iff.mpr hne
    have hsucc : sorted.length / 2 - 1 + 1 = sorted.length / 2 := by omega
    rw [← hsucc] at habove
    have hle := adjacent_le_sum hnonneg hbelow habove
    have hbelow' := hnonneg below (List.mem_of_getElem? hbelow)
    have habove' := hnonneg above (List.mem_of_getElem? habove)
    have hlow : i128Min ≤ 0 := by decide
    have hchecked : checked (below + above) = .ok (below + above) :=
      checked_eq_ok.mpr ⟨rfl, by omega, by omega⟩
    rw [hmiddle, hchecked]
    exact ⟨_, rfl⟩
  · exact ⟨m, hmiddle⟩

/-- The middle of a sorted list has no more entries above it than it has from it on. -/
theorem middle_splits (hsorted : sorted.Pairwise (· ≤ ·)) (hne : sorted ≠ []) {m : Int}
    (h : middle sorted = .ok m) :
    ∃ lower upper, sorted = lower ++ upper ∧ lower.length ≤ upper.length ∧
      (∀ p ∈ lower, p ≤ m) ∧ ∀ p ∈ upper, m ≤ p := by
  have hlower : ∀ {low : Int}, sorted[sorted.length / 2 - 1]? = some low →
      ∀ p ∈ sorted.take (sorted.length / 2), p ≤ low := by
    intro low hlow p hp
    obtain ⟨i, hi⟩ := List.mem_iff_getElem?.mp hp
    rw [List.getElem?_take] at hi
    split at hi
    next hlt => exact le_of_sorted hsorted (by omega) hi hlow
    next => cases hi
  have hupper : ∀ {high : Int}, sorted[sorted.length / 2]? = some high →
      ∀ p ∈ sorted.drop (sorted.length / 2), high ≤ p := by
    intro high hhigh p hp
    obtain ⟨i, hi⟩ := List.mem_iff_getElem?.mp hp
    rw [List.getElem?_drop] at hi
    exact le_of_sorted hsorted (Nat.le_add_right _ _) hhigh hi
  refine ⟨sorted.take (sorted.length / 2), sorted.drop (sorted.length / 2),
    (List.take_append_drop _ _).symm, ?_, ?_⟩
  · rw [List.length_take, List.length_drop]
    omega
  rcases middle_cases hne with ⟨-, below, above, hbelow, habove, hmiddle⟩ | ⟨-, a, ha, hmiddle⟩
  · have hle : below ≤ above := le_of_sorted hsorted (by omega) hbelow habove
    cases hsum : checked (below + above) with
    | error fault =>
        rw [hmiddle, hsum] at h
        cases h
    | ok sum =>
        rw [hmiddle, hsum] at h
        cases h
        obtain ⟨rfl, -⟩ := checked_eq_ok.mp hsum
        have hbounds := tdiv_two_bounds ⟨le_rfl, hle⟩ ⟨hle, le_rfl⟩
        exact ⟨fun p hp => (hlower hbelow p hp).trans hbounds.1,
          fun p hp => hbounds.2.trans (hupper habove p hp)⟩
  · rw [hmiddle] at h
    cases h
    refine ⟨fun p hp => ?_, hupper ha⟩
    have hlast : sorted.length / 2 - 1 < sorted.length :=
      (Nat.sub_le _ _).trans_lt (List.getElem?_eq_some_iff.mp ha).1
    have hlow := List.getElem?_eq_getElem hlast
    exact (hlower hlow p hp).trans (le_of_sorted hsorted (Nat.sub_le _ _) hlow ha)

end Middle

section Spread

/-- The distances from below add up to at most the multiple of the point. -/
theorem sum_below {l : List Int} {m : Int} (h : ∀ p ∈ l, 0 ≤ p ∧ p ≤ m) :
    (l.map fun p => |p - m|).sum ≤ l.length * m := by
  induction l with
  | nil => simp
  | cons p l ih =>
      obtain ⟨hp, hpm⟩ := h p List.mem_cons_self
      have hrest := ih (fun q hq => h q (List.mem_cons_of_mem p hq))
      have habs : |p - m| = m - p := by
        rw [abs_sub_comm, abs_of_nonneg (by omega)]
      rw [List.map_cons, List.sum_cons, List.length_cons, habs, Nat.cast_succ, add_one_mul]
      omega

theorem sum_above {l : List Int} {m : Int} (h : ∀ p ∈ l, m ≤ p) :
    (l.map fun p => |p - m|).sum = l.sum - l.length * m := by
  induction l with
  | nil => simp
  | cons p l ih =>
      have hp := h p List.mem_cons_self
      have habs : |p - m| = p - m := abs_of_nonneg (by omega)
      rw [List.map_cons, List.sum_cons, List.sum_cons, List.length_cons, habs,
        ih (fun q hq => h q (List.mem_cons_of_mem p hq)), Nat.cast_succ, add_one_mul]
      omega

/-- The distances from the middle add up to no more than the entries. -/
theorem sum_deviations_le {sorted : List Int} (hsorted : sorted.Pairwise (· ≤ ·))
    (hnonneg : ∀ p ∈ sorted, 0 ≤ p) {m : Int} (hne : sorted ≠ []) (h : middle sorted = .ok m) :
    (sorted.map fun p => |p - m|).sum ≤ sorted.sum := by
  obtain ⟨lower, upper, rfl, hhalf, hbelow, habove⟩ := middle_splits hsorted hne h
  have hlow := sum_below (fun p hp => ⟨hnonneg p (List.mem_append_left _ hp), hbelow p hp⟩)
  have hm : 0 ≤ m :=
    (middle_bounds h (fun p hp => ⟨hnonneg p hp, List.single_le_sum hnonneg p hp⟩)).1
  have hcount : (lower.length : Int) * m ≤ upper.length * m :=
    mul_le_mul_of_nonneg_right (by exact_mod_cast hhalf) hm
  have hlower : 0 ≤ lower.sum :=
    List.sum_nonneg (fun p hp => hnonneg p (List.mem_append_left _ hp))
  rw [List.map_append, List.sum_append, List.sum_append, sum_above habove]
  omega

end Spread

section Filter

variable {median : Int}

theorem absoluteDeviation_eq {p : Int} (hp : Admitted p) (hmedian : Admitted median) :
    absoluteDeviation median p = .ok |p - median| := by
  have hlow : i128Min < -i128Max := by decide
  obtain ⟨hp1, hp2⟩ := hp
  obtain ⟨hm1, hm2⟩ := hmedian
  have hdifference : checked (p - median) = .ok (p - median) :=
    checked_eq_ok.mpr ⟨rfl, by omega, by omega⟩
  have habs : |p - median| ≤ i128Max := abs_le.mpr ⟨by omega, by omega⟩
  have hnonneg := abs_nonneg (p - median)
  rw [absoluteDeviation, hdifference]
  exact checked_eq_ok.mpr ⟨rfl, by omega, habs⟩

theorem middle_admitted (hadmitted : ∀ p ∈ prices, Admitted p)
    (h : middle (sortUnstable prices) = .ok median) : Admitted median :=
  middle_bounds h (forall_sortUnstable hadmitted)

theorem sum_sortUnstable : (sortUnstable prices).sum = prices.sum := perm_sortUnstable.sum_eq

theorem middle_sortUnstable_ok (hne : prices ≠ []) (hnonneg : ∀ p ∈ prices, 0 ≤ p)
    (hsum : prices.sum ≤ i128Max) : ∃ m, middle (sortUnstable prices) = .ok m := by
  apply middle_ok (sortUnstable_ne_nil hne) (forall_sortUnstable hnonneg)
  rwa [sum_sortUnstable]

theorem sum_deviations (hadmitted : ∀ p ∈ prices, Admitted p) (hne : prices ≠ [])
    (h : middle (sortUnstable prices) = .ok median) :
    (prices.map fun p => |p - median|).sum ≤ prices.sum := by
  have hnonneg : ∀ p ∈ prices, 0 ≤ p := fun p hp => (hadmitted p hp).nonneg
  have hle := sum_deviations_le sorted_sortUnstable (forall_sortUnstable hnonneg)
    (sortUnstable_ne_nil hne) h
  rwa [(perm_sortUnstable.map fun p => |p - median|).sum_eq, sum_sortUnstable] at hle

theorem splitOutliers_ne_overflow {outlier : Int → Bool} :
    splitOutliers ops outlier median prices sources ≠ .error .overflow := by
  induction prices generalizing sources with
  | nil =>
      intro h
      cases h
  | cons p prices ih =>
      cases sources with
      | nil =>
          intro h
          cases h
      | cons source sources =>
          intro h
          rw [splitOutliers, bind_eq_error] at h
          rcases h with h | ⟨rest, -, h⟩
          · exact ih h
          · split at h <;> cases h

theorem filterPair_ne_overflow {p₀ p₁ : Int} : filterPair ops p₀ p₁ sources ≠ .error .overflow := by
  intro h
  unfold filterPair at h
  dsimp only at h
  split at h
  next => cases h
  next =>
    rw [bind_eq_error] at h
    rcases h with h | ⟨s₀, -, h⟩
    · exact index_ne_overflow h
    rw [bind_eq_error] at h
    rcases h with h | ⟨s₁, -, h⟩
    · exact index_ne_overflow h
    split at h <;> cases h

theorem filterOutliers_many (hne : prices ≠ []) (hpair : prices.length ≠ 2) :
    filterOutliers ops prices sources maxDeviationBps = (do
      let median ← middle (sortUnstable prices)
      let deviations ← prices.mapM (absoluteDeviation median)
      let mad ← middle (sortUnstable deviations)
      let sum ← sumPrices prices
      let stddev := standardDeviation ops sum prices
      splitOutliers ops (isOutlier ops median mad stddev maxDeviationBps) median prices sources) := by
  rw [filterOutliers.eq_def]
  split
  next => exact absurd rfl hne
  next => exact absurd rfl hpair
  next => rfl

/-- Past two sources the filter takes the sum, and nothing it adds up is larger. -/
theorem filterOutliers_overflows (hadmitted : ∀ p ∈ prices, Admitted p) (hne : prices ≠ [])
    (hpair : prices.length ≠ 2) :
    filterOutliers ops prices sources maxDeviationBps = .error .overflow ↔ i128Max < prices.sum := by
  have hpositive : ∀ p ∈ prices, 0 ≤ p := fun p hp => (hadmitted p hp).nonneg
  rw [filterOutliers_many hne hpair]
  cases hmedian : middle (sortUnstable prices) with
  | error fault =>
      obtain rfl := middle_error (sortUnstable_ne_nil hne) hmedian
      refine iff_of_true rfl (not_le.mp fun hsum => ?_)
      obtain ⟨m, hm⟩ := middle_sortUnstable_ok hne hpositive hsum
      rw [hmedian] at hm
      cases hm
  | ok median =>
      have hdeviations : prices.mapM (absoluteDeviation median) =
          .ok (prices.map fun p => |p - median|) :=
        mapM_eq_ok (fun p hp => absoluteDeviation_eq (hadmitted p hp) (middle_admitted hadmitted hmedian))
      have hne' : prices.map (fun p => |p - median|) ≠ [] := by simpa using hne
      show (prices.mapM (absoluteDeviation median) >>= _) = _ ↔ _
      rw [hdeviations]
      show (middle (sortUnstable (prices.map fun p => |p - median|)) >>= _) = _ ↔ _
      cases hmad : middle (sortUnstable (prices.map fun p => |p - median|)) with
      | error fault =>
          obtain rfl := middle_error (sortUnstable_ne_nil hne') hmad
          refine iff_of_true rfl (not_le.mp fun hsum => ?_)
          obtain ⟨m, hm⟩ := middle_sortUnstable_ok hne'
            (by simp) ((sum_deviations hadmitted hne hmedian).trans hsum)
          rw [hmad] at hm
          cases hm
      | ok mad =>
          show (sumPrices prices >>= _) = _ ↔ _
          rw [sumPrices_eq hadmitted]
          split
          next hsum => exact iff_of_false splitOutliers_ne_overflow (not_lt.mpr hsum)
          next hsum => exact iff_of_true rfl (not_le.mp hsum)

end Filter

section Search

theorem advanceStart_ok {hi : Int} {l : List Quote} {start k : Nat} {q : Quote}
    (hq : l[k]? = some q) (h : exceedsBps ops hi q.1 toleranceBps = false) :
    ∃ stop ≤ start + k, advanceStart ops hi toleranceBps l start = .ok stop := by
  induction l generalizing start k with
  | nil => cases hq
  | cons p l ih =>
      rw [advanceStart]
      split
      next hexceeds =>
        cases k with
        | zero =>
            cases hq
            rw [h] at hexceeds
            cases hexceeds
        | succ k =>
            have hnext : ∃ stop ≤ start + 1 + k,
                advanceStart ops hi toleranceBps l (start + 1) = .ok stop := ih hq
            obtain ⟨stop, hle, hstop⟩ := hnext
            exact ⟨stop, by omega, hstop⟩
      next => exact ⟨start, Nat.le_add_right _ _, rfl⟩

/-- The positions that the scan holds after k ends are in bounds. -/
structure InBounds (sorted : List Quote) (k : Nat) (s : Scan) : Prop where
  start : s.start ≤ k
  nonempty : s.best.1 < s.best.2
  bound : s.best.2 ≤ sorted.length

variable {sorted : List Quote} {k : Nat} {s : Scan}

theorem difference_ok {p q : Int} (hp : Admitted p) (hq : Admitted q) :
    checked (p - q) = .ok (p - q) := by
  have hlow : i128Min < -i128Max := by decide
  obtain ⟨hp1, hp2⟩ := hp
  obtain ⟨hq1, hq2⟩ := hq
  exact checked_eq_ok.mpr ⟨rfl, by omega, by omega⟩

theorem scanEnd_ok (law : MonotoneDeviation ops) (hadmitted : ∀ q ∈ sorted, Admitted q.1)
    (hs : InBounds sorted k s) (hk : k < sorted.length) :
    ∃ t, scanEnd ops sorted toleranceBps s (k + 1) = .ok t ∧ InBounds sorted (k + 1) t := by
  have hpositions : ∀ {i}, i < sorted.length → ∃ q, sorted[i]? = some q ∧ Admitted q.1 :=
    fun hi => ⟨_, List.getElem?_eq_getElem hi, hadmitted _ (List.getElem_mem hi)⟩
  have hnonempty := hs.nonempty
  have hbound := hs.bound
  obtain ⟨hi, hhi, hhigh⟩ := hpositions hk
  obtain ⟨bestHi, hbestHi, hbestHigh⟩ := hpositions (i := s.best.2 - 1) (by omega)
  obtain ⟨bestLo, hbestLo, hbestLow⟩ := hpositions (i := s.best.1) (by omega)
  have hlast : (sorted.drop s.start)[k - s.start]? = some hi := by
    rw [List.getElem?_drop, Nat.add_sub_cancel' hs.start, hhi]
  have hself : exceedsBps ops hi.1 hi.1 toleranceBps = false :=
    law.refl (lt_of_lt_of_le one_pos hhigh.1)
  have hadvance : ∃ start ≤ k,
      advanceStart ops hi.1 toleranceBps (sorted.drop s.start) s.start = .ok start := by
    obtain ⟨start, hle, hstart⟩ := advanceStart_ok hlast hself
    rw [Nat.add_sub_cancel' hs.start] at hle
    exact ⟨start, hle, hstart⟩
  obtain ⟨start, hle, hstart⟩ := hadvance
  obtain ⟨lo, hlo, hlow⟩ := hpositions (i := start) (by omega)
  have hlen : checkedSub (k + 1) start = .ok (k + 1 - start) := checkedSub_of_le (by omega)
  have hscan : scanEnd ops sorted toleranceBps s (k + 1) = .ok
      ⟨if s.best.2 - s.best.1 < k + 1 - start ∨ k + 1 - start = s.best.2 - s.best.1 ∧
          hi.1 - lo.1 < bestHi.1 - bestLo.1 then (start, k + 1) else s.best, start⟩ := by
    simp only [scanEnd, bind_eq_ok, pure_eq_ok, index_eq_ok]
    exact ⟨hi, hhi, start, hstart, _, hlen, lo, hlo, _, difference_ok hhigh hlow, bestHi, hbestHi,
      bestLo, hbestLo, _, difference_ok hbestHigh hbestLow, rfl⟩
  refine ⟨_, hscan, hle.trans (Nat.le_succ k), ?_, ?_⟩
  · dsimp only
    split
    next => exact Nat.lt_succ_of_le hle
    next => exact hnonempty
  · dsimp only
    split
    next => exact hk
    next => exact hbound

/-- The window that the search is after. -/
def BestWindow (ops : FloatOps F) (prices : List Int) (sources : List String) (toleranceBps : Nat)
    (w : Nat × Nat) : Prop :=
  Best (Apart ops (sortQuotes prices sources) toleranceBps) (spreadOf (sortQuotes prices sources))
    (sortQuotes prices sources).length w

def windowPrices (prices : List Int) (sources : List String) (w : Nat × Nat) : List Int :=
  (windowOf (sortQuotes prices sources) w).map Prod.fst

/-- The cluster search always ends, with the best window when there is a price. -/
theorem findLargestConsistentCluster_ok (law : MonotoneDeviation ops)
    (hadmitted : ∀ p ∈ prices, Admitted p) (hlen : prices.length = sources.length)
    (toleranceBps : Nat) :
    (prices = [] ∧ findLargestConsistentCluster ops prices sources toleranceBps = .ok none) ∨
      ∃ cluster w, findLargestConsistentCluster ops prices sources toleranceBps = .ok (some cluster) ∧
        BestWindow ops prices sources toleranceBps w ∧
        cluster.filteredPrices = windowPrices prices sources w := by
  by_cases hne : prices = []
  · exact .inl ⟨hne, if_pos hne⟩
  have hpos : 0 < (sortQuotes prices sources).length := by
    rw [MajorityBound.length_sortQuotes hlen]
    exact List.length_pos_iff.mpr hne
  have hquotes : ∀ q ∈ sortQuotes prices sources, Admitted q.1 :=
    fun q hq => hadmitted _ (List.of_mem_zip (mem_sortQuotes.mp hq)).1
  have hstart : InBounds (sortQuotes prices sources) 0 ⟨(0, 1), 0⟩ := ⟨le_rfl, one_pos, hpos⟩
  obtain ⟨s, hs, hbounds⟩ := foldlM_range'_returns hstart
    (fun k hk t ht => scanEnd_ok law hquotes ht hk)
  have hfound : ∃ cluster, findLargestConsistentCluster ops prices sources toleranceBps =
      .ok (some cluster) := by
    rw [findLargestConsistentCluster, if_neg hne]
    simp only [bind_eq_ok, pure_eq_ok, slice_eq_ok]
    exact ⟨_, s, hs, _, ⟨rfl, hbounds.nonempty.le, hbounds.bound⟩, rfl⟩
  obtain ⟨cluster, hcluster⟩ := hfound
  obtain ⟨w, hbest, hprices, -⟩ := findLargestConsistentCluster_best law
    (fun p hp => lt_of_lt_of_le one_pos (hadmitted p hp).1) hcluster
  exact .inr ⟨cluster, w, hcluster, hbest, hprices⟩

end Search

section Interval

theorem percentile_ne_overflow {p : Nat} : percentile ops prices p ≠ .error .overflow := by
  intro h
  rw [percentile] at h
  split at h
  next => exact index_ne_overflow h
  next =>
    split at h
    next => exact index_ne_overflow h
    next =>
      dsimp only at h
      split at h
      next => exact index_ne_overflow h
      next =>
        rw [bind_eq_error] at h
        rcases h with h | ⟨below, -, h⟩
        · exact index_ne_overflow h
        rw [bind_eq_error] at h
        rcases h with h | ⟨above, -, h⟩
        · exact index_ne_overflow h
        cases h

/-- The spread saturates, so only the median is left to overflow. -/
theorem interval_ne_overflow (h : computeMedianAllowSingle prices ≠ .error .overflow) :
    computeConfidenceIntervalWithSpread ops prices maxDeviationBps ≠ .error .overflow := by
  intro hinterval
  rw [computeConfidenceIntervalWithSpread] at hinterval
  split at hinterval
  next => cases hinterval
  next =>
    dsimp only at hinterval
    rw [computeMedianAllowSingle_sorted] at hinterval
    split at hinterval
    next =>
      rw [bind_eq_error] at hinterval
      rcases hinterval with hinterval | ⟨low, -, hinterval⟩
      · exact percentile_ne_overflow hinterval
      rw [bind_eq_error] at hinterval
      rcases hinterval with hinterval | ⟨high, -, hinterval⟩
      · exact percentile_ne_overflow hinterval
      rw [bind_eq_error] at hinterval
      rcases hinterval with hinterval | ⟨mid, -, hinterval⟩
      · exact h hinterval
      cases hinterval
    next =>
      rw [bind_eq_error] at hinterval
      rcases hinterval with hinterval | ⟨mid, -, hinterval⟩
      · exact h hinterval
      split at hinterval <;> cases hinterval

theorem computeMedianAllowSingle_ne_overflow (hnonneg : ∀ p ∈ prices, 0 ≤ p)
    (hsum : prices.sum ≤ i128Max) : computeMedianAllowSingle prices ≠ .error .overflow := by
  intro h
  rw [computeMedianAllowSingle] at h
  split at h
  next => cases h
  next hne =>
    obtain ⟨m, hm⟩ := middle_sortUnstable_ok hne hnonneg hsum
    rw [hm] at h
    cases h

theorem middle_pair {a b : Int} (h : checked (a + b) = .error .overflow) :
    middle [a, b] = .error .overflow := by
  have hne : [a, b] ≠ [] := by simp
  rcases middle_cases hne with ⟨-, below, above, hbelow, habove, hmiddle⟩ | ⟨hodd, -⟩
  · obtain rfl : a = below := by simpa using hbelow
    obtain rfl : b = above := by simpa using habove
    rw [hmiddle, h]
    rfl
  · exact absurd hodd (by simp)

theorem computeMedianAllowSingle_pair {p₀ p₁ : Int} (hp₀ : 0 ≤ p₀) (hp₁ : 0 ≤ p₁) :
    computeMedianAllowSingle [p₀, p₁] = .error .overflow ↔ i128Max < p₀ + p₁ := by
  constructor
  · intro h
    by_contra hsum
    apply computeMedianAllowSingle_ne_overflow _ _ h
    · simp [hp₀, hp₁]
    · simpa using hsum
  · intro h
    have hover : checked (p₀ + p₁) = .error .overflow :=
      checked_eq_error.mpr ⟨rfl, fun hfits => by omega⟩
    have hmiddle : middle (sortUnstable [p₀, p₁]) = .error .overflow := by
      by_cases hle : p₀ ≤ p₁
      · simpa [sortUnstable, hle] using middle_pair hover
      · rw [add_comm] at hover
        simpa [sortUnstable, hle] using middle_pair hover
    rw [computeMedianAllowSingle, if_neg (by simp), hmiddle]
    rfl

end Interval

/-- Two prices that do not agree are never added; all others are. -/
def AddedUp (ops : FloatOps F) (cluster : List Int) : Prop :=
  ∀ p₀ p₁, cluster = [p₀, p₁] → pairAgrees ops p₀ p₁ = true

section Cluster

/-- The filter or the median of what it leaves. -/
theorem filtered_overflows_iff (hadmitted : ∀ p ∈ prices, Admitted p) (hne : prices ≠ [])
    (hlen : prices.length = sources.length) (hmin : minSources ≤ prices.length) :
    (filterOutliers ops prices sources maxDeviationBps = .error .overflow ∨
      ∃ filter, filterOutliers ops prices sources maxDeviationBps = .ok filter ∧
        minSources ≤ filter.filteredPrices.length ∧
        computeMedianAllowSingle filter.filteredPrices = .error .overflow) ↔
      AddedUp ops prices ∧ i128Max < prices.sum := by
  have hnonneg : ∀ p ∈ prices, 0 ≤ p := fun p hp => (hadmitted p hp).nonneg
  by_cases hpair : prices.length = 2
  · obtain ⟨p₀, p₁, rfl⟩ := List.length_eq_two.mp hpair
    obtain ⟨s₀, s₁, rfl⟩ := List.length_eq_two.mp hlen.symm
    have hfilter : filterOutliers ops [p₀, p₁] [s₀, s₁] maxDeviationBps =
        filterPair ops p₀ p₁ [s₀, s₁] := rfl
    have hp₀ := hnonneg p₀ (by simp)
    have hp₁ := hnonneg p₁ (by simp)
    rw [hfilter, or_iff_right filterPair_ne_overflow]
    constructor
    · rintro ⟨filter, hkept, -, hmedian⟩
      rcases filterPair_agrees hkept with ⟨hagrees, rfl⟩ | ⟨-, p, hp⟩
      · refine ⟨?_, by simpa using (computeMedianAllowSingle_pair hp₀ hp₁).mp hmedian⟩
        intro q₀ q₁ hq
        cases hq
        exact hagrees
      · simp [hp, computeMedianAllowSingle, sortUnstable, middle, index] at hmedian
    · rintro ⟨hadded, hsum⟩
      refine ⟨⟨[p₀, p₁], [s₀, s₁], []⟩, ?_, hmin, ?_⟩
      · exact if_pos (hadded p₀ p₁ rfl)
      · exact (computeMedianAllowSingle_pair hp₀ hp₁).mpr (by simpa using hsum)
  · have hadded : AddedUp ops prices := by
      rintro p₀ p₁ rfl
      exact absurd rfl hpair
    rw [filterOutliers_overflows hadmitted hne hpair, and_iff_right hadded]
    refine or_iff_left_of_imp ?_
    rintro ⟨filter, hkept, -, hmedian⟩
    by_contra hsum
    have hsublist := (filterOutliers_keeps hlen hkept).prices_sublist hlen
    apply computeMedianAllowSingle_ne_overflow _ _ hmedian
    · exact fun p hp => hnonneg p (hsublist.subset hp)
    · exact (hsublist.sum_le_sum hnonneg).trans (not_lt.mp hsum)

end Cluster

/-- Past the filter the median of what is left is taken twice, and again in the interval. -/
theorem medians_overflow_iff :
    (computeMedianAllowSingle prices = .error .overflow ∨
      ∃ middle, computeMedianAllowSingle prices = .ok middle ∧ ∃ median, middle = some median ∧
        (computeConfidenceIntervalWithSpread ops prices maxDeviationBps = .error .overflow ∨
          ∃ interval, computeConfidenceIntervalWithSpread ops prices maxDeviationBps = .ok interval ∧
            ∃ props, interval = some props ∧ computeMedianAllowSingle prices = .error .overflow)) ↔
      computeMedianAllowSingle prices = .error .overflow := by
  refine or_iff_left_of_imp ?_
  rintro ⟨middle, -, median, -, h | ⟨interval, -, props, -, h⟩⟩
  · by_contra hmedian
    exact interval_ne_overflow hmedian h
  · exact h

/-- The sums that the aggregation takes of the window fit. -/
def SumsFit (ops : FloatOps F) (prices : List Int) (sources : List String)
    (observationTimes : List Nat) (minSources maxDeviationBps : Nat) : Prop :=
  prices.length = sources.length → prices.length = observationTimes.length →
    ∀ w, BestWindow ops prices sources (clusterToleranceBps maxDeviationBps) w →
      minSources ≤ (windowPrices prices sources w).length →
      AddedUp ops (windowPrices prices sources w) →
      (windowPrices prices sources w).sum ≤ i128Max

theorem length_windowPrices_le (hlen : prices.length = sources.length) {w : Nat × Nat} :
    (windowPrices prices sources w).length ≤ prices.length := by
  rw [windowPrices, List.length_map, windowOf, List.length_drop, List.length_take,
    MajorityBound.length_sortQuotes hlen]
  omega

theorem windowPrices_admitted (hadmitted : ∀ p ∈ prices, Admitted p) {w : Nat × Nat} :
    ∀ p ∈ windowPrices prices sources w, Admitted p := by
  intro p hp
  obtain ⟨q, hq, rfl⟩ := List.mem_map.mp hp
  have hmem := mem_sortQuotes.mp (List.mem_of_mem_take (List.mem_of_mem_drop hq))
  exact hadmitted _ (List.of_mem_zip hmem).1

theorem windowPrices_ne_nil {w : Nat × Nat} (h : BestWindow ops prices sources toleranceBps w) :
    windowPrices prices sources w ≠ [] := by
  have hne := h.fits.nonempty
  have hbound := h.bound
  rw [← List.length_pos_iff, windowPrices, List.length_map, windowOf, List.length_drop,
    List.length_take]
  omega

theorem aggregatePrices_overflows_iff (law : MonotoneDeviation ops)
    (hadmitted : ∀ p ∈ prices, Admitted p) :
    ¬Faults .overflow
        (aggregatePrices ops prices sources observationTimes minSources maxDeviationBps) ↔
      SumsFit ops prices sources observationTimes minSources maxDeviationBps := by
  simp only [aggregatePrices, faults_bind, faults_ensure, faults_demand, faults_lift, faults_pure,
    returns_ensure, returns_demand, returns_lift, exists_const, false_or, and_false, or_false,
    medians_overflow_iff]
  by_cases hsources : prices.length = sources.length
  swap
  · exact iff_of_true (fun h => hsources h.1) (fun h => absurd h hsources)
  by_cases htimes : prices.length = observationTimes.length
  swap
  · exact iff_of_true (fun h => htimes h.2.1) (fun _ h => absurd h htimes)
  rcases findLargestConsistentCluster_ok law hadmitted hsources (clusterToleranceBps maxDeviationBps) with
    ⟨rfl, hnone⟩ | ⟨cluster, w, hcluster, hbest, hprices⟩
  · refine iff_of_true ?_ ?_
    · simp [hnone]
    · intro _ _ w hbest
      have hempty : windowPrices [] sources w = [] :=
        List.eq_nil_of_length_eq_zero (Nat.le_zero.mp (length_windowPrices_le hsources))
      exact absurd hempty (windowPrices_ne_nil hbest)
  · have hlengths := findLargestConsistentCluster_lengths hcluster
    simp only [hcluster, reduceCtorEq, Except.ok.injEq, Option.some.injEq, exists_eq_left', false_or]
    rw [hprices] at hlengths ⊢
    constructor
    · intro h _ _ w' hbest' hmin hadded
      obtain rfl : w = w' := hbest.unique hbest'
      by_contra hsum
      exact h ⟨hsources, htimes, hmin.trans (length_windowPrices_le hsources), hmin,
        (filtered_overflows_iff (windowPrices_admitted hadmitted) (windowPrices_ne_nil hbest) hlengths
          hmin).mpr ⟨hadded, not_le.mp hsum⟩⟩
    · rintro hfits ⟨-, -, -, hmin, hover⟩
      have hover' := (filtered_overflows_iff (windowPrices_admitted hadmitted)
        (windowPrices_ne_nil hbest) hlengths hmin).mp hover
      exact not_lt.mpr (hfits hsources htimes w hbest hmin hover'.1) hover'.2

section Samples

/-- Within the admitted range, but two of them are not. -/
def hugePrice : Int := 10 ^ 38

/-- A third of them would be too much. -/
def largePrice : Int := 6 * 10 ^ 37

end Samples

theorem aggregatePrices_overflows_pair :
    SumsFit exactOps [1000, 1004] ["binance", "coinbase"] [1, 1] 1 200 ∧
      ¬SumsFit exactOps [hugePrice, hugePrice] ["binance", "coinbase"] [1, 1] 1 200 := by
  constructor
  · obtain ⟨agg, hagg, -⟩ := exists_returns (p := fun _ => true)
      (x := aggregatePrices exactOps [1000, 1004] ["binance", "coinbase"] [1, 1] 1 200)
      (by decide +kernel)
    exact (aggregatePrices_overflows_iff MajorityBound.exactOps_monotoneDeviation (by decide)).mp
      hagg.not_faults
  · rw [← aggregatePrices_overflows_iff MajorityBound.exactOps_monotoneDeviation (by decide), not_not]
    exact faults_of_faulted? (by decide +kernel)

/-- The median of two prices, and the sum of three whose median fits. -/
theorem aggregatePrices_overflows_admitted :
    (∀ p ∈ [hugePrice, hugePrice], Admitted p) ∧
      Faults .overflow (aggregatePrices exactOps [hugePrice, hugePrice] ["binance", "coinbase"] [1, 1]
        1 200) ∧
      (∀ p ∈ [largePrice, largePrice, largePrice], Admitted p) ∧
      Faults .overflow (aggregatePrices exactOps [largePrice, largePrice, largePrice]
        ["binance", "coinbase", "pyth"] [1, 1, 1] 1 200) := by
  refine ⟨by decide, faults_of_faulted? (by decide +kernel), by decide, ?_⟩
  exact faults_of_faulted? (by decide +kernel)

end So4Oracle.PriceOverflow
