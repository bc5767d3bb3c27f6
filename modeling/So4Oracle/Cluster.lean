import So4Oracle.Library.Windows
import So4Oracle.Prices

namespace So4Oracle.Cluster

open Library.Checked Library.Floats Library.Windows Prices

variable {F : Type} (ops : FloatOps F)

/-- What the cluster search needs of a rounded deviation. -/
structure MonotoneDeviation : Prop where
  mono : ∀ {lo lo' hi hi' : Int} {bps : Nat}, 0 < lo' → lo' ≤ lo → lo ≤ hi → hi ≤ hi' →
    exceedsBps ops hi lo bps = true → exceedsBps ops hi' lo' bps = true
  refl : ∀ {p : Int} {bps : Nat}, 0 < p → exceedsBps ops p p bps = false

/-- Relative to the lower of the two prices. -/
def Within (toleranceBps : Nat) (p q : Int) : Prop :=
  exceedsBps ops (max p q) (min p q) toleranceBps = false

section Rounding

theorem deviationBps_rationalOps {rnd : ℚ → ℚ} {lo hi : Int} (hm : Monotone rnd)
    (h0 : rnd 0 = 0) (h1 : 0 < rnd 1) (hlo : 0 < lo) (hle : lo ≤ hi) :
    0 < rnd lo ∧ 0 ≤ rnd (rnd hi - rnd lo) ∧
      deviationBps (rationalOps rnd) hi lo =
        some (rnd (rnd (rnd (rnd hi - rnd lo) / rnd lo) * rnd 10000)) := by
  have hpos : 0 < rnd lo := by
    have hone : rnd 1 ≤ rnd lo := hm (by exact_mod_cast hlo)
    exact h1.trans_le hone
  have hnum : 0 ≤ rnd (rnd hi - rnd lo) := by
    have hcast : rnd lo ≤ rnd hi := hm (by exact_mod_cast hle)
    have hz : rnd 0 ≤ rnd (rnd hi - rnd lo) := hm (sub_nonneg.mpr hcast)
    rwa [h0] at hz
  refine ⟨hpos, hnum, ?_⟩
  rw [deviationBps, if_neg hlo.ne']
  simp only [rationalOps_ofInt, rationalOps_sub, rationalOps_abs, abs_of_nonneg hnum,
    abs_of_pos hpos, rationalOps_div hpos.ne', rationalOps_mul, Int.cast_ofNat]

theorem monotoneDeviation_rationalOps {rnd : ℚ → ℚ} (hm : Monotone rnd) (h0 : rnd 0 = 0)
    (h1 : 0 < rnd 1) : MonotoneDeviation (rationalOps rnd) := by
  have hten : 0 ≤ rnd 10000 := by
    have hle : rnd 0 ≤ rnd 10000 := hm (by norm_num)
    rwa [h0] at hle
  constructor
  · intro lo lo' hi hi' bps hlo' hlo hle hhi h
    obtain ⟨hpos, hnum, heq⟩ := deviationBps_rationalOps hm h0 h1 (hlo'.trans_le hlo) hle
    obtain ⟨hpos', hnum', heq'⟩ :=
      deviationBps_rationalOps hm h0 h1 hlo' (hlo.trans (hle.trans hhi))
    have hnumle : rnd (rnd hi - rnd lo) ≤ rnd (rnd hi' - rnd lo') := by
      apply hm
      exact sub_le_sub (hm (by exact_mod_cast hhi)) (hm (by exact_mod_cast hlo))
    have hquot : rnd (rnd hi - rnd lo) / rnd lo ≤ rnd (rnd hi' - rnd lo') / rnd lo' :=
      div_le_div₀ hnum' hnumle hpos' (hm (by exact_mod_cast hlo))
    have hdev := hm (mul_le_mul_of_nonneg_right (hm hquot) hten)
    rw [exceedsBps, heq, rationalOps_ofInt, rationalOps_lt, decide_eq_true_eq] at h
    rw [exceedsBps, heq', rationalOps_ofInt, rationalOps_lt, decide_eq_true_eq]
    exact h.trans_le hdev
  · intro p bps hp
    obtain ⟨-, -, heq⟩ := deviationBps_rationalOps hm h0 h1 hp le_rfl
    rw [exceedsBps, heq, sub_self, h0, zero_div, h0, zero_mul, h0]
    have hbps : rnd 0 ≤ rnd bps := hm (by positivity)
    rw [h0] at hbps
    simpa using hbps

end Rounding

section Search

def priceAt (sorted : List Quote) (i : Nat) : Int := (sorted[i]?.map Prod.fst).getD 0

def Apart (sorted : List Quote) (toleranceBps : Nat) (i e : Nat) : Prop :=
  exceedsBps ops (priceAt sorted e) (priceAt sorted i) toleranceBps = true

def spreadOf (sorted : List Quote) (i e : Nat) : Int := priceAt sorted e - priceAt sorted i

def windowOf (sorted : List Quote) (w : Nat × Nat) : List Quote := (sorted.take w.2).drop w.1

theorem priceAt_eq {sorted : List Quote} {i : Nat} {q : Quote} (h : sorted[i]? = some q) :
    priceAt sorted i = q.1 := by
  simp [priceAt, h]

theorem advanceStart_eq_ok {hi : Int} {toleranceBps start stop : Nat} {l : List Quote}
    (h : advanceStart ops hi toleranceBps l start = .ok stop) :
    ∃ k, stop = start + k ∧ k < l.length ∧
      (∀ q, l[k]? = some q → exceedsBps ops hi q.1 toleranceBps = false) ∧
      ∀ i < k, ∀ q, l[i]? = some q → exceedsBps ops hi q.1 toleranceBps = true := by
  induction l generalizing start with
  | nil => cases h
  | cons p l ih =>
      by_cases hp : exceedsBps ops hi p.1 toleranceBps = true
      · rw [advanceStart, if_pos hp] at h
        obtain ⟨k, rfl, hk, hfits, hpassed⟩ := ih h
        refine ⟨k + 1, by omega, by simpa using hk, by simpa using hfits, fun i hi q hq => ?_⟩
        cases i with
        | zero =>
            obtain rfl : p = q := by simpa using hq
            exact hp
        | succ i => exact hpassed i (Nat.lt_of_succ_lt_succ hi) q (by simpa using hq)
      · rw [advanceStart, if_neg hp] at h
        cases h
        refine ⟨0, rfl, by simp, fun q hq => ?_, fun i hi => absurd hi (Nat.not_lt_zero i)⟩
        obtain rfl : p = q := by simpa using hq
        simpa using hp

variable {ops}

theorem scanEnd_eq_ok {sorted : List Quote} {toleranceBps k : Nat} {s t : Scan}
    (h : scanEnd ops sorted toleranceBps s (k + 1) = .ok t) :
    ¬Apart ops sorted toleranceBps t.start k ∧
      (∀ i, s.start ≤ i → i < t.start → Apart ops sorted toleranceBps i k) ∧
      t.best = if Improves (spreadOf sorted) (t.start, k + 1) s.best then (t.start, k + 1)
        else s.best := by
  simp only [scanEnd, bind_eq_ok, index_eq_ok, checked_eq_ok, pure_eq_ok] at h
  obtain ⟨hi, hhi, start, hstart, len, hlen, lo, hlo, spread, hspread, bestHi, hbestHi, bestLo,
    hbestLo, bestSpread, hbestSpread, rfl⟩ := h
  rw [Nat.add_sub_cancel] at hhi
  obtain ⟨d, rfl, hd, hfits, hpassed⟩ := advanceStart_eq_ok ops hstart
  obtain rfl : k + 1 - (s.start + d) = len := by
    rw [checkedSub] at hlen
    split at hlen
    next => exact Except.ok.inj hlen
    next => cases hlen
  refine ⟨?_, ?_, ?_⟩
  · have hlo' : (sorted.drop s.start)[d]? = some lo := by simpa using hlo
    simp [Apart, priceAt_eq hhi, priceAt_eq hlo, hfits lo hlo']
  · intro i hsi hi
    have hlt : i < sorted.length := by
      rw [List.length_drop] at hd
      dsimp only at hi
      omega
    have hq : sorted[i]? = some sorted[i] := List.getElem?_eq_getElem hlt
    have hdrop : (sorted.drop s.start)[i - s.start]? = some sorted[i] := by
      rw [List.getElem?_drop, Nat.add_sub_cancel' hsi, hq]
    have hbefore : i - s.start < d := by
      dsimp only at hi
      omega
    simp [Apart, priceAt_eq hhi, priceAt_eq hq, hpassed _ hbefore _ hdrop]
  · have hnew : width (spreadOf sorted) (s.start + d, k + 1) = spread := by
      simp [width, spreadOf, priceAt_eq hhi, priceAt_eq hlo, hspread.1]
    have hold : width (spreadOf sorted) s.best = bestSpread := by
      simp [width, spreadOf, priceAt_eq hbestHi, priceAt_eq hbestLo, hbestSpread.1]
    simp only [Improves, hnew, hold, size]

instance : Std.Total quoteLe where
  total a b := by
    rcases lt_trichotomy a.1 b.1 with h | h | h
    · exact .inl (.inl h)
    · rcases le_total a.2 b.2 with hs | hs
      · exact .inl (.inr ⟨h, hs⟩)
      · exact .inr (.inr ⟨h.symm, hs⟩)
    · exact .inr (.inl h)

instance : IsTrans Quote quoteLe where
  trans a b c hab hbc := by
    rcases hab with hab | ⟨hab, has⟩ <;> rcases hbc with hbc | ⟨hbc, hbs⟩
    · exact .inl (hab.trans hbc)
    · exact .inl (hbc ▸ hab)
    · exact .inl (hab ▸ hbc)
    · exact .inr ⟨hab.trans hbc, has.trans hbs⟩

theorem mem_sortQuotes {prices : List Int} {sources : List String} {q : Quote} :
    q ∈ sortQuotes prices sources ↔ q ∈ prices.zip sources :=
  List.mem_insertionSort quoteLe

theorem priceAt_sortQuotes_le {prices : List Int} {sources : List String} {i j : Nat}
    (hij : i ≤ j) (hj : j < (sortQuotes prices sources).length) :
    priceAt (sortQuotes prices sources) i ≤ priceAt (sortQuotes prices sources) j := by
  have hi := hij.trans_lt hj
  rw [priceAt_eq (List.getElem?_eq_getElem hi), priceAt_eq (List.getElem?_eq_getElem hj)]
  rcases hij.eq_or_lt with rfl | hlt
  · exact le_rfl
  · have hle := List.pairwise_iff_getElem.mp
      (List.pairwise_insertionSort quoteLe (prices.zip sources)) i j hi hj hlt
    rcases hle with hle | ⟨hle, -⟩
    · exact hle.le
    · exact hle.le

theorem priceAt_sortQuotes_pos {prices : List Int} {sources : List String}
    (hpos : ∀ p ∈ prices, 0 < p) {i : Nat} (hi : i < (sortQuotes prices sources).length) :
    0 < priceAt (sortQuotes prices sources) i := by
  rw [priceAt_eq (List.getElem?_eq_getElem hi)]
  have hmem := mem_sortQuotes.mp (List.getElem_mem hi)
  exact hpos _ (List.of_mem_zip hmem).1

/-- The sweep of the first k ends has gone as the sweep of all windows should. -/
def Scanned (ops : FloatOps F) (sorted : List Quote) (toleranceBps : Nat) : Nat → Scan → Prop
  | 0, s => s = ⟨(0, 1), 0⟩
  | k + 1, s =>
      Swept (Apart ops sorted toleranceBps) s.start k ∧
        Best (Apart ops sorted toleranceBps) (spreadOf sorted) (k + 1) s.best

variable {prices : List Int} {sources : List String} {toleranceBps : Nat}

theorem scanned_step (law : MonotoneDeviation ops) (hpos : ∀ p ∈ prices, 0 < p) {k : Nat}
    (hk : k < (sortQuotes prices sources).length) {s t : Scan}
    (hs : Scanned ops (sortQuotes prices sources) toleranceBps k s)
    (h : scanEnd ops (sortQuotes prices sources) toleranceBps s (k + 1) = .ok t) :
    Scanned ops (sortQuotes prices sources) toleranceBps (k + 1) t := by
  obtain ⟨hfits, hpassed, hbest⟩ := scanEnd_eq_ok h
  have hrefl : ∀ e ≤ k, ¬Apart ops (sortQuotes prices sources) toleranceBps e e := by
    intro e he
    simp [Apart, law.refl (priceAt_sortQuotes_pos hpos (he.trans_lt hk))]
  cases k with
  | zero =>
      obtain rfl : s = ⟨(0, 1), 0⟩ := hs
      have hstart : t.start = 0 := by
        by_contra hne
        exact hrefl 0 le_rfl (hpassed 0 le_rfl (Nat.pos_of_ne_zero hne))
      have hswept : Swept (Apart ops (sortQuotes prices sources) toleranceBps) 0 0 :=
        .zero (hrefl 0 le_rfl)
      have hone : t.best = (0, 1) := by
        rw [hbest, hstart]
        split <;> rfl
      refine ⟨hstart ▸ hswept, ?_⟩
      rw [hone]
      exact .one hswept
  | succ k =>
      obtain ⟨hswept, hb⟩ := hs
      have hmono : ∀ i ≤ k, Apart ops (sortQuotes prices sources) toleranceBps i k →
          Apart ops (sortQuotes prices sources) toleranceBps i (k + 1) := by
        intro i hi hapart
        have hlt : i < (sortQuotes prices sources).length := by omega
        exact law.mono (priceAt_sortQuotes_pos hpos hlt) le_rfl
          (priceAt_sortQuotes_le hi (Nat.lt_of_succ_lt hk))
          (priceAt_sortQuotes_le (Nat.le_succ k) hk) hapart
      have hnext := hswept.advance hmono (hrefl _ le_rfl) hfits hpassed
      refine ⟨hnext, ?_⟩
      rw [hbest]
      exact hb.step hnext

theorem findLargestConsistentCluster_best (law : MonotoneDeviation ops)
    (hpos : ∀ p ∈ prices, 0 < p) {cluster : ClusterResult}
    (h : findLargestConsistentCluster ops prices sources toleranceBps = .ok (some cluster)) :
    ∃ w, Best (Apart ops (sortQuotes prices sources) toleranceBps)
        (spreadOf (sortQuotes prices sources)) (sortQuotes prices sources).length w ∧
      cluster.filteredPrices = (windowOf (sortQuotes prices sources) w).map Prod.fst ∧
      cluster.sources = (windowOf (sortQuotes prices sources) w).map Prod.snd := by
  rw [findLargestConsistentCluster] at h
  split at h
  next => cases h
  next =>
    simp only [bind_eq_ok, pure_eq_ok, slice_eq_ok] at h
    obtain ⟨s, hs, window, ⟨rfl, hlt, hle⟩, hcluster⟩ := h
    cases hcluster
    have hscanned : Scanned ops (sortQuotes prices sources) toleranceBps
        (sortQuotes prices sources).length s :=
      foldlM_range'_invariant hs rfl fun k hk t u ht hu => scanned_step law hpos hk ht hu
    cases hlen : (sortQuotes prices sources).length with
    | zero =>
        rw [hlen] at hscanned hle
        obtain rfl : s = ⟨(0, 1), 0⟩ := hscanned
        cases hle
    | succ n =>
        rw [hlen] at hscanned
        exact ⟨s.best, hscanned.2, rfl, rfl⟩

/-- Under any arithmetic the ends of a window past the first quote were compared. -/
theorem findLargestConsistentCluster_fits {cluster : ClusterResult}
    (h : findLargestConsistentCluster ops prices sources toleranceBps = .ok (some cluster)) :
    ∃ w, cluster.filteredPrices = (windowOf (sortQuotes prices sources) w).map Prod.fst ∧
      w.2 ≤ (sortQuotes prices sources).length ∧
      (w = (0, 1) ∨ ¬Apart ops (sortQuotes prices sources) toleranceBps w.1 (w.2 - 1)) := by
  rw [findLargestConsistentCluster] at h
  split at h
  next => cases h
  next =>
    simp only [bind_eq_ok, pure_eq_ok, slice_eq_ok] at h
    obtain ⟨s, hs, window, ⟨rfl, -, hbound⟩, hcluster⟩ := h
    cases hcluster
    let P := fun (_ : Nat) (s : Scan) =>
      s.best = (0, 1) ∨ ¬Apart ops (sortQuotes prices sources) toleranceBps s.best.1 (s.best.2 - 1)
    have hbest : P (sortQuotes prices sources).length s := by
      refine foldlM_range'_invariant hs (.inl rfl) fun k hk t u ht hu => ?_
      obtain ⟨hfits, -, hbest⟩ := scanEnd_eq_ok hu
      split at hbest
      next =>
        right
        rwa [hbest]
      next =>
        show u.best = _ ∨ _
        rwa [hbest]
    exact ⟨s.best, rfl, hbound, hbest⟩

end Search

end So4Oracle.Cluster
