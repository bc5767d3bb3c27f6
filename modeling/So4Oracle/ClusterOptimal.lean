import So4Oracle.PriceOverflow

namespace So4Oracle.ClusterOptimal

open Library.Checked Library.Floats Library.Windows Prices Cluster MajorityBound PriceOverflow

variable {F : Type} (ops : FloatOps F)

def Consistent (toleranceBps : Nat) (H : Finset Quote) : Prop :=
  ∀ a ∈ H, ∀ b ∈ H, Within ops toleranceBps a.1 b.1

structure Spans (H : Finset Quote) (lo hi : Int) : Prop where
  lowest : ∃ q ∈ H, q.1 = lo
  highest : ∃ q ∈ H, q.1 = hi
  bounds : ∀ q ∈ H, lo ≤ q.1 ∧ q.1 ≤ hi

theorem Spans.nonempty {H : Finset Quote} {lo hi : Int} (h : Spans H lo hi) : H.Nonempty := by
  obtain ⟨q, hq, -⟩ := h.lowest
  exact ⟨q, hq⟩

theorem Spans.unique {H : Finset Quote} {lo lo' hi hi' : Int} (h : Spans H lo hi)
    (h' : Spans H lo' hi') : lo = lo' ∧ hi = hi' := by
  obtain ⟨a, ha, rfl⟩ := h.lowest
  obtain ⟨b, hb, rfl⟩ := h.highest
  obtain ⟨c, hc, rfl⟩ := h'.lowest
  obtain ⟨d, hd, rfl⟩ := h'.highest
  constructor
  · exact le_antisymm (h.bounds c hc).1 (h'.bounds a ha).1
  · exact le_antisymm (h'.bounds b hb).2 (h.bounds d hd).2

/-- Among the consistent subsets the larger one comes first, then the tighter one,
then the one with the lower prices. -/
def Precedes (C H : Finset Quote) : Prop :=
  H.card < C.card ∨
    H.card = C.card ∧ ∀ lo hi lo' hi', Spans C lo hi → Spans H lo' hi' →
      hi - lo < hi' - lo' ∨ hi - lo = hi' - lo' ∧ lo < lo'

def quotesOf (cluster : ClusterResult) : List Quote := cluster.filteredPrices.zip cluster.sources

/-- The cluster that the search is to return. -/
structure Optimal (prices : List Int) (sources : List String) (toleranceBps : Nat)
    (cluster : ClusterResult) : Prop where
  lengths : cluster.filteredPrices.length = cluster.sources.length
  nonempty : cluster.filteredPrices ≠ []
  subperm : (quotesOf cluster).Subperm (prices.zip sources)
  consistent : Consistent ops toleranceBps (quotesOf cluster).toFinset
  first : ∀ H : Finset Quote, (∀ q ∈ H, q ∈ prices.zip sources) → Consistent ops toleranceBps H →
    H = (quotesOf cluster).toFinset ∨ Precedes (quotesOf cluster).toFinset H

variable {ops} {prices : List Int} {sources : List String} {toleranceBps : Nat} {w : Nat × Nat}

section Window

def members (prices : List Int) (sources : List String) (w : Nat × Nat) : Finset Quote :=
  (windowOf (sortQuotes prices sources) w).toFinset

theorem mem_members_of_index {k : Nat} {q : Quote} (hq : (sortQuotes prices sources)[k]? = some q)
    (hlo : w.1 ≤ k) (hhi : k < w.2) : q ∈ members prices sources w := by
  rw [members, List.mem_toFinset, List.mem_iff_getElem?]
  refine ⟨k - w.1, ?_⟩
  rw [windowOf, List.getElem?_drop, Nat.add_sub_cancel' hlo, List.getElem?_take, if_pos hhi, hq]

theorem spans_members (hne : w.1 < w.2) (hbound : w.2 ≤ (sortQuotes prices sources).length) :
    Spans (members prices sources w) (priceAt (sortQuotes prices sources) w.1)
      (priceAt (sortQuotes prices sources) (w.2 - 1)) := by
  have hfirst : w.1 < (sortQuotes prices sources).length := by omega
  have hlast : w.2 - 1 < (sortQuotes prices sources).length := by omega
  constructor
  · have hget := List.getElem?_eq_getElem hfirst
    exact ⟨_, mem_members_of_index hget le_rfl hne, (priceAt_eq hget).symm⟩
  · have hget := List.getElem?_eq_getElem hlast
    exact ⟨_, mem_members_of_index hget (by omega) (by omega), (priceAt_eq hget).symm⟩
  · exact fun q hq => windowOf_bounds hbound (List.mem_toFinset.mp hq)

theorem exists_window {H : Finset Quote} (hmem : ∀ q ∈ H, q ∈ prices.zip sources)
    (hcons : Consistent ops toleranceBps H) (hne : H.Nonempty) :
    ∃ v : Nat × Nat, Fits (Apart ops (sortQuotes prices sources) toleranceBps) v ∧
      v.2 ≤ (sortQuotes prices sources).length ∧ H ⊆ members prices sources v ∧ H.card ≤ size v ∧
      Spans H (priceAt (sortQuotes prices sources) v.1)
        (priceAt (sortQuotes prices sources) (v.2 - 1)) := by
  obtain ⟨i, j, a, ha, b, hb, hi, hj, hfits, henclosed⟩ := exists_fitting hmem hcons hne
  have hlt : j < (sortQuotes prices sources).length := (List.getElem?_eq_some_iff.mp hj).1
  have hsub : H ⊆ members prices sources (i, j + 1) := by
    intro q hq
    obtain ⟨k, hlo, hhi, hk⟩ := henclosed q hq
    exact mem_members_of_index hk hlo (Nat.lt_succ_of_le hhi)
  have hspans : Spans (members prices sources (i, j + 1)) (priceAt (sortQuotes prices sources) i)
      (priceAt (sortQuotes prices sources) j) := spans_members hfits.nonempty hlt
  refine ⟨(i, j + 1), hfits, hlt, hsub, card_le_enclosing henclosed, ?_⟩
  exact ⟨⟨a, ha, (priceAt_eq hi).symm⟩, ⟨b, hb, (priceAt_eq hj).symm⟩,
    fun q hq => hspans.bounds q (hsub hq)⟩

end Window

section Choice

/-- A window that starts later at the same price could be extended to the left. -/
theorem lowest_lt_of_starts_later (hbest : BestWindow ops prices sources toleranceBps w)
    {v : Nat × Nat} (hv : Fits (Apart ops (sortQuotes prices sources) toleranceBps) v)
    (hbound : v.2 ≤ (sortQuotes prices sources).length) (hsize : size v = size w)
    (hlater : w.1 < v.1) :
    priceAt (sortQuotes prices sources) w.1 < priceAt (sortQuotes prices sources) v.1 := by
  have hne := hv.nonempty
  have hle : priceAt (sortQuotes prices sources) w.1 ≤ priceAt (sortQuotes prices sources) v.1 :=
    priceAt_sortQuotes_le hlater.le (by omega)
  apply lt_of_le_of_ne hle
  intro heq
  have hfits : Fits (Apart ops (sortQuotes prices sources) toleranceBps) (w.1, v.2) := by
    refine ⟨by dsimp only; omega, ?_⟩
    have hends := hv.fits
    unfold Apart at hends ⊢
    rwa [heq]
  have hlarger := (hbest.outranks (w.1, v.2) hfits hbound).size_le
  simp only [size] at hlarger hsize
  omega

theorem members_first (hsources : sources.Nodup) (hlen : prices.length = sources.length)
    (hbest : BestWindow ops prices sources toleranceBps w) {H : Finset Quote}
    (hmem : ∀ q ∈ H, q ∈ prices.zip sources) (hcons : Consistent ops toleranceBps H) :
    H = members prices sources w ∨ Precedes (members prices sources w) H := by
  have hcard : (members prices sources w).card = size w := card_windowOf hsources hlen hbest.bound
  have hpos := hbest.fits.nonempty
  rcases H.eq_empty_or_nonempty with rfl | hne
  · refine .inr (.inl ?_)
    rw [hcard, Finset.card_empty]
    exact Nat.sub_pos_of_lt hpos
  obtain ⟨v, hfits, hbound, hsub, hle, hspans⟩ := exists_window hmem hcons hne
  have houtranks := hbest.outranks v hfits hbound
  rcases (hle.trans houtranks.size_le).lt_or_eq with hlt | heq
  · exact .inr (.inl (by rwa [hcard]))
  have hsize : size v = size w := le_antisymm houtranks.size_le (heq ▸ hle)
  have hH : H = members prices sources v := by
    apply Finset.eq_of_subset_of_card_le hsub
    have hcount : (members prices sources v).card = size v := card_windowOf hsources hlen hbound
    rw [hcount, hsize, heq]
  have hties : ∀ lo hi lo' hi', Spans (members prices sources w) lo hi → Spans H lo' hi' →
      lo = priceAt (sortQuotes prices sources) w.1 ∧
        hi = priceAt (sortQuotes prices sources) (w.2 - 1) ∧
        lo' = priceAt (sortQuotes prices sources) v.1 ∧
        hi' = priceAt (sortQuotes prices sources) (v.2 - 1) := by
    intro lo hi lo' hi' h h'
    obtain ⟨hlo, hhi⟩ := h.unique (spans_members hpos hbest.bound)
    obtain ⟨hlo', hhi'⟩ := h'.unique hspans
    exact ⟨hlo, hhi, hlo', hhi'⟩
  rcases houtranks with hlt | ⟨-, hwidth | ⟨hwidth, hstart⟩⟩
  · exact absurd hsize hlt.ne
  · refine .inr (.inr ⟨by rw [hcard, heq], fun lo hi lo' hi' h h' => .inl ?_⟩)
    obtain ⟨rfl, rfl, rfl, rfl⟩ := hties lo hi lo' hi' h h'
    exact hwidth
  rcases hstart.eq_or_lt with hsame | hlater
  · left
    have hw : v = w := by
      have hvpos := hfits.nonempty
      simp only [size] at hsize
      apply Prod.ext
      · exact hsame.symm
      · omega
    rw [hH, hw]
  · refine .inr (.inr ⟨by rw [hcard, heq], fun lo hi lo' hi' h h' => .inr ?_⟩)
    obtain ⟨rfl, rfl, rfl, rfl⟩ := hties lo hi lo' hi' h h'
    exact ⟨hwidth, lowest_lt_of_starts_later hbest hfits hbound hsize hlater⟩

theorem quotesOf_window {cluster : ClusterResult}
    (hprices : cluster.filteredPrices = (windowOf (sortQuotes prices sources) w).map Prod.fst)
    (hnames : cluster.sources = (windowOf (sortQuotes prices sources) w).map Prod.snd) :
    quotesOf cluster = windowOf (sortQuotes prices sources) w := by
  rw [quotesOf, hprices, hnames]
  exact (List.zip_of_prod rfl rfl).symm

theorem optimal_of_best (law : MonotoneDeviation ops) (hpos : ∀ p ∈ prices, 0 < p)
    (hsources : sources.Nodup) (hlen : prices.length = sources.length) {cluster : ClusterResult}
    (hbest : BestWindow ops prices sources toleranceBps w)
    (hprices : cluster.filteredPrices = (windowOf (sortQuotes prices sources) w).map Prod.fst)
    (hnames : cluster.sources = (windowOf (sortQuotes prices sources) w).map Prod.snd) :
    Optimal ops prices sources toleranceBps cluster := by
  have hquotes := quotesOf_window hprices hnames
  have hmembers : (quotesOf cluster).toFinset = members prices sources w := by
    rw [hquotes, members]
  constructor
  · rw [hprices, hnames, List.length_map, List.length_map]
  · rw [hprices]
    exact windowPrices_ne_nil hbest
  · rw [hquotes]
    have hsub : (windowOf (sortQuotes prices sources) w).Sublist (sortQuotes prices sources) :=
      (List.drop_sublist _ _).trans (List.take_sublist _ _)
    exact hsub.subperm.trans (List.perm_insertionSort quoteLe (prices.zip sources)).subperm
  · rw [hmembers]
    obtain ⟨lo, hi, hlo, hfits, hbounds⟩ := best_bounds hpos hbest
    intro a ha b hb
    exact within_of_bounds law hlo hfits (hbounds a (List.mem_toFinset.mp ha))
      (hbounds b (List.mem_toFinset.mp hb))
  · intro H hmem hcons
    rw [hmembers]
    exact members_first hsources hlen hbest hmem hcons

end Choice

theorem findLargestConsistentCluster_optimal (law : MonotoneDeviation ops) (hne : prices ≠ [])
    (hprices : ∀ p ∈ prices, 0 < p ∧ p ≤ i128Max) (hsources : sources.Nodup)
    (hlen : prices.length = sources.length) (toleranceBps : Nat) :
    ∃ cluster, findLargestConsistentCluster ops prices sources toleranceBps = .ok (some cluster) ∧
      Optimal ops prices sources toleranceBps cluster := by
  have hadmitted : ∀ p ∈ prices, Admitted p := hprices
  have hpos : ∀ p ∈ prices, 0 < p := fun p hp => (hprices p hp).1
  rcases findLargestConsistentCluster_ok law hadmitted hlen toleranceBps with
    ⟨hnil, -⟩ | ⟨cluster, -, hcluster, -⟩
  · exact absurd hnil hne
  · obtain ⟨w, hbest, hwindow, hnames⟩ := findLargestConsistentCluster_best law hpos hcluster
    exact ⟨cluster, hcluster, optimal_of_best law hpos hsources hlen hbest hwindow hnames⟩

theorem findLargestConsistentCluster_optimal_pairs :
    ∃ cluster, findLargestConsistentCluster exactOps [204, 100, 200, 102]
        ["kraken", "binance", "pyth", "coinbase"] 500 = .ok (some cluster) ∧
      Optimal exactOps [204, 100, 200, 102] ["kraken", "binance", "pyth", "coinbase"] 500 cluster :=
  findLargestConsistentCluster_optimal exactOps_monotoneDeviation (by decide) (by decide) (by decide)
    rfl 500

end So4Oracle.ClusterOptimal
