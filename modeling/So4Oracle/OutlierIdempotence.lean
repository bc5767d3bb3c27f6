import So4Oracle.OutlierGaps

namespace So4Oracle.OutlierIdempotence

open Library.Checked Library.Floats Prices Aggregate DeviationBound PriceOverflow MiddlePrices
  OutlierRule OutlierSurvival OutlierGaps

section Second

variable {F : Type} {ops : FloatOps F} {prices : List Int} {sources : List String}
  {maxDeviationBps : Nat}

def KeepsAll (ops : FloatOps F) (maxDeviationBps : Nat) (prices : List Int)
    (sources : List String) : Prop :=
  ∃ r, filterOutliers ops prices sources maxDeviationBps = .ok r ∧ r.filteredPrices = prices ∧
    r.filteredSources = sources

/-- A second call keeps all that the first one did. -/
def Idempotent (ops : FloatOps F) (maxDeviationBps : Nat) (prices : List Int)
    (sources : List String) : Prop :=
  ∃ r, filterOutliers ops prices sources maxDeviationBps = .ok r ∧
    KeepsAll ops maxDeviationBps r.filteredPrices r.filteredSources

theorem sources_of_keeps {r : OutlierFilterResult F} (hlen : prices.length = sources.length)
    (h : Keeps prices sources r) (hprices : r.filteredPrices = prices) :
    r.filteredSources = sources := by
  have hlengths := h.lengths
  have hsame : r.filteredPrices.zip r.filteredSources = prices.zip sources := by
    apply h.sublist.eq_of_length
    rw [List.length_zip, List.length_zip, ← hlengths, ← hlen, hprices]
  rw [← List.map_snd_zip hlengths.ge, hsame, List.map_snd_zip hlen.ge]

theorem keepsAll_iff_prices (hlen : prices.length = sources.length) :
    KeepsAll ops maxDeviationBps prices sources ↔
      ∃ r, filterOutliers ops prices sources maxDeviationBps = .ok r ∧ r.filteredPrices = prices := by
  refine exists_congr fun r => and_congr_right fun hr => and_iff_left_of_imp fun hprices => ?_
  exact sources_of_keeps hlen (filterOutliers_keeps hlen hr) hprices

theorem keepsAll_pair {p₀ p₁ : Int} {s₀ s₁ : String} :
    KeepsAll ops maxDeviationBps [p₀, p₁] [s₀, s₁] ↔ pairAgrees ops p₀ p₁ = true := by
  obtain ⟨r, hr, -⟩ : ∃ r, filterPair ops p₀ p₁ [s₀, s₁] = .ok r ∧ _ := filterPair_survives
  have hfilter : filterOutliers ops [p₀, p₁] [s₀, s₁] maxDeviationBps = .ok r := hr
  rw [keepsAll_iff_prices rfl, hfilter]
  rcases filterPair_agrees hr with ⟨hagrees, rfl⟩ | ⟨hapart, p, hp⟩
  · exact iff_of_true ⟨_, rfl, rfl⟩ hagrees
  · refine iff_of_false ?_ (by simp [hapart])
    rintro ⟨r', hr', hall⟩
    cases hr'
    rw [hp] at hall
    cases hall

theorem keepsAll_many (hadmitted : ∀ p ∈ prices, Admitted p) (hne : prices ≠ [])
    (hpair : prices.length ≠ 2) (hlen : prices.length = sources.length)
    (hsum : prices.sum ≤ i128Max) :
    KeepsAll ops maxDeviationBps prices sources ↔
      ∀ p ∈ prices, rejects ops maxDeviationBps prices p = false := by
  rw [keepsAll_iff_prices hlen,
    filterOutliers_returns_iff (P := fun kept => kept = prices) hadmitted hne hpair hlen,
    and_iff_right hsum, survivors, List.filter_eq_self]
  simp

theorem survivor_near {p : Int} (h : p ∈ survivors ops maxDeviationBps prices) :
    p ∈ prices ∧ exceedsBps ops p (medianOf prices) maxDeviationBps = false := by
  obtain ⟨hp, hkept⟩ := List.mem_filter.mp h
  have haccepted : rejects ops maxDeviationBps prices p = false := by simpa using hkept
  exact ⟨hp, not_exceedsBps_of_not_isOutlier haccepted⟩

end Second

section Steady

/-- Any half of what lies in the window is spread over a third of it. -/
def Spread (prices : List Int) (lo hi : Int) : Prop :=
  ∀ x ∈ prices, ∀ y ∈ prices, prices.countP (within lo hi) ≤
      2 * prices.countP (fun p => within x y p && within lo hi p) →
    widestGap lo hi ≤ 3 * (y - x) * 10 ^ 12

structure Core (maxDeviationBps : Nat) (prices : List Int) (lo hi : Int) : Prop where
  most : prices.length < 2 * prices.countP (within lo hi)
  near : widestGap lo hi * 10 ^ 4 ≤ maxDeviationBps * lo * 10 ^ 12
  below : ∀ p ∈ prices, p < lo → maxDeviationBps * lo * 10 ^ 12 < narrowestGap p lo * 10 ^ 4
  above : ∀ p ∈ prices, hi < p → maxDeviationBps * hi * 10 ^ 12 < narrowestGap hi p * 10 ^ 4
  spread : lo = hi ∨
    prices.countP (within lo hi) = 2 ∧ widestGap lo hi * 10 ≤ lo * 10 ^ 12 ∨ Spread prices lo hi

/-- At most two sources, three held to 952 bps, or a majority near each other with
all others away from it. -/
def Steady (maxDeviationBps : Nat) (prices : List Int) : Prop :=
  prices.length ≤ 2 ∨ prices.sum ≤ i128Max ∧
    (prices.length = 3 ∧ maxDeviationBps ≤ 952 ∨ ∃ lo hi, Core maxDeviationBps prices lo hi)

variable {prices : List Int} {lo hi : Int} {maxDeviationBps : Nat}

theorem Spread.ring (h : Spread prices lo hi) {a b : Int} (hcore : 0 < prices.countP (within lo hi))
    (hhalf : prices.countP (within lo hi) ≤
      2 * prices.countP (fun p => within a b p && within lo hi p)) :
    widestGap lo hi ≤ 3 * (b - a) * 10 ^ 12 := by
  have hne : prices.filter (fun p => within a b p && within lo hi p) ≠ [] := by
    rw [← List.length_pos_iff, ← List.countP_eq_length_filter]
    omega
  obtain ⟨x, hx, y, hy, hbounds⟩ := exists_bounds hne
  rw [List.mem_filter, Bool.and_eq_true] at hx hy
  have hxa := (of_decide_eq_true hx.2.1).1
  have hyb := (of_decide_eq_true hy.2.1).2
  have hmono : prices.countP (fun p => within a b p && within lo hi p) ≤
      prices.countP (fun p => within x y p && within lo hi p) := by
    apply List.countP_mono_left
    intro p hp hin
    have hinner := hbounds p (List.mem_filter.mpr ⟨hp, hin⟩)
    rw [Bool.and_eq_true] at hin ⊢
    exact ⟨decide_eq_true hinner, hin.2⟩
  have hgap := h x hx.1 y hy.1 (by omega)
  omega

namespace Core

variable (h : Core maxDeviationBps prices lo hi)
include h

theorem exists_mem : ∃ p ∈ prices, lo ≤ p ∧ p ≤ hi := by
  have hpos : 0 < prices.countP (within lo hi) := by
    have := h.most
    omega
  obtain ⟨p, hp, hin⟩ := List.countP_pos_iff.mp hpos
  exact ⟨p, hp, of_decide_eq_true hin⟩

theorem pos (hpos : ∀ p ∈ prices, 0 < p) : 0 < lo ∧ 0 < widestGap lo hi := by
  obtain ⟨p, hp, hlow, hhigh⟩ := h.exists_mem
  have hhi : 0 < hi := (hpos p hp).trans_le hhigh
  have hgap : 0 < widestGap lo hi := by
    rw [widestGap]
    omega
  have hproduct : 0 < maxDeviationBps * lo * 10 ^ 12 :=
    (mul_pos hgap (by norm_num)).trans_le h.near
  have hbps : (0 : Int) ≤ maxDeviationBps := Int.natCast_nonneg _
  refine ⟨?_, hgap⟩
  by_contra hlo
  have hle : maxDeviationBps * lo ≤ 0 := mul_nonpos_of_nonneg_of_nonpos hbps (not_lt.mp hlo)
  omega

theorem medianOf_mem : lo ≤ medianOf prices ∧ medianOf prices ≤ hi := medianOf_within h.most

variable {rnd : ℚ → ℚ} (law : Rounding rnd) (sqrt : Option ℚ → Option ℚ)
include law

theorem rejects_outside (hpos : ∀ p ∈ prices, 0 < p) {p : Int} (hp : p ∈ prices)
    (hout : within lo hi p = false) :
    exceedsBps (rationalOpsWith rnd sqrt) p (medianOf prices) maxDeviationBps = true := by
  obtain ⟨hlow, hhigh⟩ := h.medianOf_mem
  have hlo := (h.pos hpos).1
  have hp' := hpos p hp
  have hbps : (0 : Int) ≤ maxDeviationBps := Int.natCast_nonneg _
  rcases not_and_or.mp (of_decide_eq_false hout) with hbelow | habove
  · have hfar := h.below p hp (not_le.mp hbelow)
    rw [narrowestGap] at hfar
    refine exceedsBps_of_far law ⟨hp', by omega⟩ ⟨by omega, le_refl (medianOf prices)⟩ ?_
    rw [abs_of_neg (by omega)]
    -- further up in the window the distance grows faster than what is allowed
    have hslope : (maxDeviationBps : Int) * 10 ^ 12 ≤ 10 ^ 16 - 10 ^ 4 := by
      by_contra hsteep
      have hscaled := mul_le_mul_of_nonneg_right (not_le.mp hsteep).le hlo.le
      linarith
    have hgrowth := mul_le_mul_of_nonneg_right hslope (sub_nonneg.mpr hlow)
    linarith
  · have hfar := h.above p hp (not_le.mp habove)
    rw [narrowestGap] at hfar
    refine exceedsBps_of_far law ⟨hp', le_refl p⟩ ⟨by omega, by omega⟩ ?_
    rw [abs_of_pos (by omega)]
    have hscaled := mul_le_mul_of_nonneg_left hhigh hbps
    linarith

theorem within_of_survivor (hpos : ∀ p ∈ prices, 0 < p) {p : Int}
    (hp : p ∈ survivors (rationalOpsWith rnd sqrt) maxDeviationBps prices) :
    within lo hi p = true := by
  obtain ⟨hp, hnear⟩ := survivor_near hp
  by_contra hout
  have hexceeds := h.rejects_outside law sqrt hpos hp (Bool.not_eq_true _ ▸ hout)
  rw [hnear] at hexceeds
  cases hexceeds

omit law in
theorem wide_ring (hpos : ∀ p ∈ prices, 0 < p) (hspread : Spread prices lo hi) :
    widestGap lo hi ≤ 6 * madOf prices * 10 ^ 12 := by
  obtain ⟨hlow, hhigh⟩ := h.medianOf_mem
  have hlo := (h.pos hpos).1
  have hmost := h.most
  have hnear := h.near
  have hne : prices ≠ [] := by
    rintro rfl
    cases hmost
  have hring := length_le_two_mul_countP_madOf hne
  have hbps : (0 : Int) ≤ maxDeviationBps := Int.natCast_nonneg _
  by_cases hinside : ∀ p ∈ prices, within (medianOf prices - madOf prices)
      (medianOf prices + madOf prices) p = true → within lo hi p = true
  · have hmono : prices.countP (within (medianOf prices - madOf prices)
        (medianOf prices + madOf prices)) ≤ prices.countP (fun p =>
          within (medianOf prices - madOf prices) (medianOf prices + madOf prices) p &&
            within lo hi p) := by
      apply List.countP_mono_left
      intro p hp hin
      exact Bool.and_eq_true_iff.mpr ⟨hin, hinside p hp hin⟩
    have hle := List.countP_le_length (p := within lo hi) (l := prices)
    have hgap := hspread.ring (by omega) (hle.trans (hring.trans (Nat.mul_le_mul_left 2 hmono)))
    omega
  · -- the deviations reach out of the window, and so further than all of it
    push Not at hinside
    obtain ⟨p, hp, hin, hout⟩ := hinside
    have hin := of_decide_eq_true hin
    have hp' := hpos p hp
    rcases not_and_or.mp (of_decide_eq_false (Bool.eq_false_iff.mpr hout)) with hbelow | habove
    · have hfar := h.below p hp (not_le.mp hbelow)
      rw [narrowestGap] at hfar
      omega
    · have hfar := h.above p hp (not_le.mp habove)
      rw [narrowestGap] at hfar
      have hscaled := mul_le_mul_of_nonneg_left (hlow.trans hhigh) hbps
      omega

theorem not_isOutlier {m mad p : Int} {stddev : Option ℚ} (hpos : ∀ p ∈ prices, 0 < p)
    (hm : lo ≤ m ∧ m ≤ hi) (hp : within lo hi p = true) (hwide : widestGap lo hi ≤ 6 * mad * 10 ^ 12) :
    isOutlier (rationalOpsWith rnd sqrt) m mad stddev maxDeviationBps p = false := by
  obtain ⟨hlo, hgap⟩ := h.pos hpos
  have hp := of_decide_eq_true hp
  apply (isOutlier_of_mad (by omega)).mpr
  exact ⟨not_exceedsBps_of_near law hlo hp hm h.near, distance_le_of_wide law hlo hp hm hwide⟩

theorem survivors_eq (hpos : ∀ p ∈ prices, 0 < p) (hspread : Spread prices lo hi) :
    survivors (rationalOpsWith rnd sqrt) maxDeviationBps prices = prices.filter (within lo hi) := by
  apply List.filter_congr
  intro p hp
  cases hin : within lo hi p with
  | true =>
      rw [rejects, h.not_isOutlier law sqrt hpos h.medianOf_mem hin (h.wide_ring hpos hspread)]
      rfl
  | false =>
      have hexceeds := h.rejects_outside law sqrt hpos hp hin
      rw [rejects, isOutlier, if_pos hexceeds]
      rfl

end Core

end Steady

section Again

variable {rnd : ℚ → ℚ} {sqrt : Option ℚ → Option ℚ} {prices kept : List Int}
  {sources : List String} {maxDeviationBps : Nat} (law : Rounding rnd)
include law

theorem not_rejected_flat {v p : Int} (hv : 0 < v) (hflat : ∀ p ∈ kept, p = v) (hp : p ∈ kept) :
    rejects (rationalOpsWith rnd sqrt) maxDeviationBps kept p = false := by
  have hne := List.ne_nil_of_mem hp
  have hbounds := medianOf_between hne
  rw [hflat _ (lowerMiddle_mem_prices hne), hflat _ (upperMiddle_mem_prices hne)] at hbounds
  have hmedian : medianOf kept = v := le_antisymm hbounds.2 hbounds.1
  apply isOutlier_of_distance_zero law
  · rwa [hmedian]
  · rw [hmedian, hflat p hp, distance, sub_self, law.zero, abs_zero]

theorem keepsAll_of (hadmitted : ∀ p ∈ kept, Admitted p) (hlen : kept.length = sources.length)
    (hsum : kept.sum ≤ i128Max)
    (hagree : ∀ p q, kept = [p, q] → pairAgrees (rationalOpsWith rnd sqrt) p q = true)
    (hmany : 2 < kept.length → ∀ p ∈ kept,
      rejects (rationalOpsWith rnd sqrt) maxDeviationBps kept p = false) :
    KeepsAll (rationalOpsWith rnd sqrt) maxDeviationBps kept sources := by
  match kept, hlen with
  | [], hlen =>
      obtain rfl : sources = [] := List.length_eq_zero_iff.mp hlen.symm
      exact ⟨_, rfl, rfl, rfl⟩
  | [p], hlen =>
      apply (keepsAll_many hadmitted (by simp) (by simp) hlen hsum).mpr
      intro q hq
      have hflat : ∀ q ∈ [p], q = p := fun q hq => List.mem_singleton.mp hq
      exact not_rejected_flat law (hadmitted p (List.mem_singleton_self p)).pos hflat hq
  | [p, q], hlen =>
      obtain ⟨s₀, s₁, rfl⟩ := List.length_eq_two.mp hlen.symm
      exact keepsAll_pair.mpr (hagree p q rfl)
  | p :: q :: r :: rest, hlen =>
      exact (keepsAll_many hadmitted (by simp) (by simp) hlen hsum).mpr (hmany (by simp))

theorem idempotent_pair {p₀ p₁ : Int} {s₀ s₁ : String} (hadmitted : ∀ p ∈ [p₀, p₁], Admitted p) :
    Idempotent (rationalOpsWith rnd sqrt) maxDeviationBps [p₀, p₁] [s₀, s₁] := by
  obtain ⟨r, hr, -⟩ : ∃ r, filterPair (rationalOpsWith rnd sqrt) p₀ p₁ [s₀, s₁] = .ok r ∧ _ :=
    filterPair_survives
  have hkeeps := filterPair_keeps hr
  rcases filterPair_agrees hr with ⟨hagrees, rfl⟩ | ⟨-, p, hp⟩
  · exact ⟨_, hr, keepsAll_pair.mpr hagrees⟩
  · refine ⟨r, hr, ?_⟩
    have hkept : ∀ q ∈ r.filteredPrices, Admitted q :=
      fun q hq => hadmitted q ((hkeeps.prices_sublist rfl).subset hq)
    have hlengths := hkeeps.lengths
    rw [hp] at hkept hlengths ⊢
    have hsum : [p].sum ≤ i128Max := by
      rw [List.sum_singleton]
      exact (hkept p (List.mem_singleton_self p)).2
    exact keepsAll_of law hkept hlengths hsum (by simp) (by simp)

theorem idempotent_of_survivors (hadmitted : ∀ p ∈ prices, Admitted p)
    (hlen : prices.length = sources.length) (hne : prices ≠ []) (hpair : prices.length ≠ 2)
    (hsum : prices.sum ≤ i128Max)
    (hagree : ∀ p q, survivors (rationalOpsWith rnd sqrt) maxDeviationBps prices = [p, q] →
      pairAgrees (rationalOpsWith rnd sqrt) p q = true)
    (hmany : 2 < (survivors (rationalOpsWith rnd sqrt) maxDeviationBps prices).length →
      ∀ p ∈ survivors (rationalOpsWith rnd sqrt) maxDeviationBps prices,
        rejects (rationalOpsWith rnd sqrt) maxDeviationBps
          (survivors (rationalOpsWith rnd sqrt) maxDeviationBps prices) p = false) :
    Idempotent (rationalOpsWith rnd sqrt) maxDeviationBps prices sources := by
  rcases filterOutliers_cases (rationalOpsWith rnd sqrt) maxDeviationBps hadmitted hne hpair hlen with
    ⟨-, r, hr, hkept⟩ | ⟨hover, -⟩
  · refine ⟨r, hr, ?_⟩
    have hkeeps := filterOutliers_keeps hlen hr
    have hsublist := hkeeps.prices_sublist hlen
    have hlengths := hkeeps.lengths
    have hnonneg : ∀ p ∈ prices, 0 ≤ p := fun p hp => (hadmitted p hp).nonneg
    rw [hkept] at hsublist hlengths ⊢
    exact keepsAll_of law (fun p hp => hadmitted p (hsublist.subset hp)) hlengths
      ((hsublist.sum_le_sum hnonneg).trans hsum) hagree hmany
  · exact absurd hsum (not_le.mpr hover)

theorem idempotent_single {p : Int} (hadmitted : ∀ q ∈ [p], Admitted q)
    (hlen : [p].length = sources.length) :
    Idempotent (rationalOpsWith rnd sqrt) maxDeviationBps [p] sources := by
  have hp := hadmitted p (List.mem_singleton_self p)
  have hsum : [p].sum ≤ i128Max := by
    rw [List.sum_singleton]
    exact hp.2
  have hone : (survivors (rationalOpsWith rnd sqrt) maxDeviationBps [p]).length ≤ 1 :=
    List.length_filter_le _ [p]
  apply idempotent_of_survivors law hadmitted hlen (by simp) (by simp) hsum
  · intro q r hkept
    rw [hkept] at hone
    cases hone
    contradiction
  · intro hmany
    omega

/-- Of an odd number of prices the middle one is the median itself and stays. -/
theorem median_survives (hpos : ∀ p ∈ prices, 0 < p) (hodd : prices.length % 2 = 1) :
    medianOf prices ∈ survivors (rationalOpsWith rnd sqrt) maxDeviationBps prices := by
  have hne : prices ≠ [] := by
    rintro rfl
    cases hodd
  have hsorted : (sortUnstable prices).length % 2 = 1 := by rwa [length_sortUnstable]
  have hbounds := medianOf_between hne
  rw [(middle_of_odd hsorted).2] at hbounds
  have hmiddle := le_antisymm hbounds.2 hbounds.1
  refine List.mem_filter.mpr ⟨hmiddle ▸ upperMiddle_mem_prices hne, ?_⟩
  rw [Bool.not_eq_true', rejects]
  apply isOutlier_of_distance_zero law (medianOf_pos hne hpos)
  rw [distance, sub_self, law.zero, abs_zero]

/-- What stays of three prices with the median alone is within 952 bps of it. -/
theorem idempotent_three (hadmitted : ∀ p ∈ prices, Admitted p)
    (hlen : prices.length = sources.length) (hsum : prices.sum ≤ i128Max)
    (hthree : prices.length = 3) (hbps : maxDeviationBps ≤ 952) :
    Idempotent (rationalOpsWith rnd sqrt) maxDeviationBps prices sources := by
  have hne : prices ≠ [] := by
    rintro rfl
    cases hthree
  have hpos : ∀ p ∈ prices, 0 < p := fun p hp => (hadmitted p hp).pos
  refine idempotent_of_survivors law hadmitted hlen hne (by omega) hsum ?_ ?_
  · intro p q hkept
    have hodd : prices.length % 2 = 1 := by rw [hthree]
    have hmedian : medianOf prices ∈ [p, q] := hkept ▸ median_survives law hpos hodd
    obtain ⟨hp, hpm⟩ := survivor_near (hkept ▸ List.mem_cons_self)
    obtain ⟨hq, hqm⟩ := survivor_near (hkept ▸ List.mem_cons_of_mem p (List.mem_singleton_self q))
    rcases List.mem_pair.mp hmedian with hm | hm
    · rw [hm] at hqm
      exact (pairAgrees_of_not_exceedsBps law (hpos q hq) (hpos p hp) hbps hqm).2
    · rw [hm] at hpm
      exact (pairAgrees_of_not_exceedsBps law (hpos p hp) (hpos q hq) hbps hpm).1
  · intro hmany p hp
    have hall : survivors (rationalOpsWith rnd sqrt) maxDeviationBps prices = prices := by
      have hsublist : (survivors (rationalOpsWith rnd sqrt) maxDeviationBps prices).Sublist prices :=
        List.filter_sublist
      exact hsublist.eq_of_length (le_antisymm hsublist.length_le (by omega))
    rw [hall]
    simpa using (List.mem_filter.mp hp).2

namespace Core

variable {lo hi : Int} (h : Core maxDeviationBps prices lo hi) (hpos : ∀ p ∈ prices, 0 < p)
include h hpos

theorem survivor_bounds {p : Int}
    (hp : p ∈ survivors (rationalOpsWith rnd sqrt) maxDeviationBps prices) : lo ≤ p ∧ p ≤ hi :=
  of_decide_eq_true (h.within_of_survivor law sqrt hpos hp)

theorem pair_agrees {p q : Int}
    (hkept : survivors (rationalOpsWith rnd sqrt) maxDeviationBps prices = [p, q]) :
    pairAgrees (rationalOpsWith rnd sqrt) p q = true := by
  have hp := h.survivor_bounds law hpos (hkept ▸ List.mem_cons_self)
  have hq := h.survivor_bounds law hpos
    (hkept ▸ List.mem_cons_of_mem p (List.mem_singleton_self q))
  have hlo := (h.pos hpos).1
  apply pairAgrees_of_near law hlo hp hq
  rcases h.spread with rfl | ⟨-, hnear⟩ | hspread
  · rw [widestGap]
    omega
  · omega
  · -- half of two prices is one, which is not spread at all
    have hall := h.survivors_eq law sqrt hpos hspread
    have hcount : prices.countP (within lo hi) = 2 := by
      rw [List.countP_eq_length_filter, ← hall, hkept]
      rfl
    have hhalf : 1 ≤ prices.countP fun r => within p p r && within lo hi r := by
      rw [← List.countP_filter, ← hall, hkept]
      exact List.countP_pos_iff.mpr ⟨p, List.mem_cons_self, decide_eq_true ⟨le_rfl, le_rfl⟩⟩
    have hring := hspread.ring (a := p) (b := p) (by omega) (by omega)
    have hgap := (h.pos hpos).2
    omega

theorem not_rejected_again (hspread : Spread prices lo hi) {p : Int}
    (hp : p ∈ survivors (rationalOpsWith rnd sqrt) maxDeviationBps prices) :
    rejects (rationalOpsWith rnd sqrt) maxDeviationBps
      (survivors (rationalOpsWith rnd sqrt) maxDeviationBps prices) p = false := by
  have hall := h.survivors_eq law sqrt hpos hspread
  have hne : prices.filter (within lo hi) ≠ [] := hall ▸ List.ne_nil_of_mem hp
  have hlength : (prices.filter (within lo hi)).length = prices.countP (within lo hi) :=
    List.countP_eq_length_filter.symm
  have hring := length_le_two_mul_countP_madOf hne
  rw [List.countP_filter, hlength] at hring
  have hmost : (prices.filter (within lo hi)).length <
      2 * (prices.filter (within lo hi)).countP (within lo hi) := by
    rw [List.countP_eq_length.mpr fun r hr => (List.mem_filter.mp hr).2]
    have := List.length_pos_iff.mpr hne
    omega
  have hgap := hspread.ring (hlength ▸ List.length_pos_iff.mpr hne) hring
  rw [hall] at hp ⊢
  exact h.not_isOutlier law sqrt hpos (medianOf_within hmost) (List.mem_filter.mp hp).2 (by omega)

omit hpos in
theorem idempotent (hadmitted : ∀ p ∈ prices, Admitted p) (hlen : prices.length = sources.length)
    (hpair : prices.length ≠ 2) (hsum : prices.sum ≤ i128Max) :
    Idempotent (rationalOpsWith rnd sqrt) maxDeviationBps prices sources := by
  have hpos : ∀ p ∈ prices, 0 < p := fun p hp => (hadmitted p hp).pos
  obtain ⟨q, hq, -⟩ := h.exists_mem
  apply idempotent_of_survivors law hadmitted hlen (List.ne_nil_of_mem hq) hpair hsum
  · exact fun p q hkept => h.pair_agrees law hpos hkept
  · intro hmany p hp
    rcases h.spread with rfl | ⟨htwo, -⟩ | hspread
    · refine not_rejected_flat law (h.pos hpos).1 (fun r hr => ?_) hp
      have hbounds := h.survivor_bounds law hpos hr
      exact le_antisymm hbounds.2 hbounds.1
    · have hle : (survivors (rationalOpsWith rnd sqrt) maxDeviationBps prices).length ≤ 2 := by
        rw [← htwo, survivors, ← List.countP_eq_length_filter]
        apply List.countP_mono_left
        intro r hr hkept
        exact decide_eq_true (h.survivor_bounds law hpos (List.mem_filter.mpr ⟨hr, hkept⟩))
      omega
    · exact h.not_rejected_again law hpos hspread hp

end Core

end Again

def farPrices : List Int := [100000, 100050, 100150, 100250, 100300, 120000]

def farSources : List String := ["binance", "coinbase", "gate", "kraken", "okx", "pyth"]

theorem core_farPrices : Core 300 farPrices 100000 100300 where
  most := by decide
  near := by decide
  below := by decide
  above := by decide
  spread := .inr (.inr (by unfold Spread; decide))

theorem two_calls {F : Type} {ops : FloatOps F} {prices once twice : List Int}
    {sources : List String} {maxDeviationBps : Nat} (kept : List String)
    (hfirst : (filterOutliers ops prices sources maxDeviationBps).toOption.map
      (fun r => (r.filteredPrices, r.filteredSources)) = some (once, kept))
    (hsecond : (filterOutliers ops once kept maxDeviationBps).toOption.map
      OutlierFilterResult.filteredPrices = some twice) :
    ∃ r r', filterOutliers ops prices sources maxDeviationBps = .ok r ∧
      filterOutliers ops r.filteredPrices r.filteredSources maxDeviationBps = .ok r' ∧
      r.filteredPrices = once ∧ r'.filteredPrices = twice := by
  obtain ⟨r, hr, hkept⟩ := Option.map_eq_some_iff.mp hfirst
  obtain ⟨r', hr', hkept'⟩ := Option.map_eq_some_iff.mp hsecond
  rw [Prod.mk.injEq] at hkept
  refine ⟨r, r', eq_ok_of_toOption hr, ?_, hkept.1, hkept'⟩
  rw [hkept.1, hkept.2]
  exact eq_ok_of_toOption hr'

end So4Oracle.OutlierIdempotence
