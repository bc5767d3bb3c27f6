import So4Oracle.OutlierSurvival

namespace So4Oracle.OutlierGaps

open Library.Floats Prices Aggregate DeviationBound MiddlePrices OutlierRule OutlierSurvival

/-- The most and the least that rounding can make of q - p, in units of 10⁻¹². -/
def widestGap (p q : Int) : Int := (q - p) * 10 ^ 12 + q

def narrowestGap (p q : Int) : Int := (q - p) * 10 ^ 12 - q

def within (lo hi p : Int) : Bool := decide (lo ≤ p ∧ p ≤ hi)

section Rounded

variable {rnd : ℚ → ℚ} {sqrt : Option ℚ → Option ℚ} {x : ℚ} {p q m lo hi : Int} (law : Rounding rnd)
include law

theorem rnd_bounds (hx : 0 ≤ x) :
    x * (1 - 1 / 10 ^ 15) ≤ rnd x ∧ rnd x ≤ x * (1 + 1 / 10 ^ 15) := by
  have hnear := law.near x
  rw [abs_of_nonneg hx, abs_le] at hnear
  constructor
  · linarith [hnear.1]
  · linarith [hnear.2]

theorem distance_le (hlo : 0 < lo) (hp : lo ≤ p ∧ p ≤ hi) (hm : lo ≤ m ∧ m ≤ hi) :
    distance rnd p m ≤ hi - lo + hi / 10 ^ 13 := by
  have hlo' : (0 : ℚ) < lo := by exact_mod_cast hlo
  have hp' : (lo : ℚ) ≤ p ∧ (p : ℚ) ≤ hi := by exact_mod_cast hp
  have hm' : (lo : ℚ) ≤ m ∧ (m : ℚ) ≤ hi := by exact_mod_cast hm
  have hrp := rnd_bounds law (hlo'.le.trans hp'.1)
  have hrm := rnd_bounds law (hlo'.le.trans hm'.1)
  have hgap : |rnd p - rnd m| ≤ hi - lo + 2 * hi / 10 ^ 15 := by
    rw [abs_le]
    constructor <;> linarith [hrp.1, hrp.2, hrm.1, hrm.2]
  have hnear := law.near (rnd p - rnd m)
  have htriangle : |rnd (rnd p - rnd m)| ≤ |rnd (rnd p - rnd m) - (rnd p - rnd m)| + |rnd p - rnd m| := by
    have h := abs_add_le (rnd (rnd p - rnd m) - (rnd p - rnd m)) (rnd p - rnd m)
    rwa [sub_add_cancel] at h
  rw [distance]
  linarith

theorem not_exceedsBps_of_near {bps : Nat} (hlo : 0 < lo) (hp : lo ≤ p ∧ p ≤ hi)
    (hm : lo ≤ m ∧ m ≤ hi) (hnear : widestGap lo hi * 10 ^ 4 ≤ bps * lo * 10 ^ 12) :
    exceedsBps (rationalOpsWith rnd sqrt) p m bps = false := by
  have hlo' : (0 : ℚ) < lo := by exact_mod_cast hlo
  have hm' : (lo : ℚ) ≤ m := by exact_mod_cast hm.1
  have hle : (lo : ℚ) ≤ hi := by exact_mod_cast hm.1.trans hm.2
  have hnear' : ((hi - lo) * 10 ^ 12 + hi : ℚ) * 10 ^ 4 ≤ bps * lo * 10 ^ 12 := by
    exact_mod_cast hnear
  have hdistance := distance_le law hlo hp hm
  have hrm := (rnd_bounds law (hlo'.le.trans hm')).1
  have hpos : 0 < rnd m := one_pos.trans_le (one_le_rnd law (hlo.trans_le hm.1))
  have hten : rnd 10000 = 10000 := by exact_mod_cast law.small 10000 (by norm_num)
  have hquotient : 0 ≤ distance rnd p m / rnd m := div_nonneg (abs_nonneg _) hpos.le
  have hrounded := (rnd_bounds law hquotient).2
  have hself : distance rnd p m / rnd m * rnd m = distance rnd p m := div_mul_cancel₀ _ hpos.ne'
  have hscaled : (bps : ℚ) * (lo * (1 - 1 / 10 ^ 15)) ≤ bps * rnd m := by
    apply mul_le_mul_of_nonneg_left _ (Nat.cast_nonneg bps)
    linarith
  rw [← Bool.not_eq_true, exceedsBps_iff law (hlo.trans_le hm.1), not_lt, hten]
  apply law.mono
  by_contra hfar
  rw [not_le] at hfar
  have hlarge : (bps : ℚ) < distance rnd p m / rnd m * ((1 + 1 / 10 ^ 15) * 10000) := by linarith
  have hproduct := mul_lt_mul_of_pos_right hlarge hpos
  rw [mul_right_comm, hself] at hproduct
  linarith

theorem le_distance (hp : 0 < p ∧ p ≤ hi) (hm : 0 < m ∧ m ≤ hi) :
    |(p : ℚ) - m| - hi / 10 ^ 13 ≤ distance rnd p m := by
  have hp' : (0 : ℚ) < p ∧ (p : ℚ) ≤ hi := by exact_mod_cast hp
  have hm' : (0 : ℚ) < m ∧ (m : ℚ) ≤ hi := by exact_mod_cast hm
  have hrp := rnd_bounds law hp'.1.le
  have hrm := rnd_bounds law hm'.1.le
  have hgap : |(p : ℚ) - m| - 2 * hi / 10 ^ 15 ≤ |rnd p - rnd m| := by
    rw [sub_le_iff_le_add, abs_le]
    have hself := le_abs_self (rnd p - rnd m)
    have hneg := neg_abs_le (rnd p - rnd m)
    constructor <;> linarith [hrp.1, hrp.2, hrm.1, hrm.2]
  have hle : |rnd p - rnd m| ≤ 2 * hi := by
    rw [abs_le]
    constructor <;> linarith [hrp.1, hrp.2, hrm.1, hrm.2]
  have hnear := law.near (rnd p - rnd m)
  have htriangle : |rnd p - rnd m| ≤ |rnd (rnd p - rnd m)| + |rnd (rnd p - rnd m) - (rnd p - rnd m)| := by
    have h := abs_sub_abs_le_abs_sub (rnd p - rnd m) (rnd (rnd p - rnd m))
    rw [abs_sub_comm (rnd p - rnd m)] at h
    linarith
  rw [distance]
  linarith

theorem exceedsBps_of_far {bps : Nat} (hp : 0 < p ∧ p ≤ hi) (hm : 0 < m ∧ m ≤ hi)
    (hfar : bps * m * 10 ^ 12 < (|p - m| * 10 ^ 12 - hi) * 10 ^ 4) :
    exceedsBps (rationalOpsWith rnd sqrt) p m bps = true := by
  have hp' : (0 : ℚ) < p ∧ (p : ℚ) ≤ hi := by exact_mod_cast hp
  have hm' : (0 : ℚ) < m ∧ (m : ℚ) ≤ hi := by exact_mod_cast hm
  have hfar' : (bps * m * 10 ^ 12 : ℚ) < (|(p : ℚ) - m| * 10 ^ 12 - hi) * 10 ^ 4 := by
    exact_mod_cast hfar
  have hle : |(p : ℚ) - m| ≤ hi := by
    rw [abs_le]
    constructor <;> linarith
  have hdistance := le_distance law hp hm
  have hrm := (rnd_bounds law hm'.1.le).2
  have hpos : 0 < rnd m := one_pos.trans_le (one_le_rnd law hm.1)
  have hten : rnd 10000 = 10000 := by exact_mod_cast law.small 10000 (by norm_num)
  have hbps : (0 : ℚ) ≤ bps := Nat.cast_nonneg bps
  have hrbps := (rnd_bounds law hbps).2
  have hquotient : 0 ≤ distance rnd p m / rnd m := div_nonneg (abs_nonneg _) hpos.le
  have hrounded := (rnd_bounds law hquotient).1
  have hscaled : 0 ≤ rnd (distance rnd p m / rnd m) * 10000 :=
    mul_nonneg (law.nonneg hquotient) (by norm_num)
  have hlast := (rnd_bounds law hscaled).1
  have hself : distance rnd p m / rnd m * rnd m = distance rnd p m := div_mul_cancel₀ _ hpos.ne'
  have hproduct : (bps : ℚ) * rnd m ≤ bps * (m * (1 + 1 / 10 ^ 15)) :=
    mul_le_mul_of_nonneg_left hrm hbps
  rw [exceedsBps_iff law hm.1, hten]
  have hlarge : (bps : ℚ) * (1 + 1 / 10 ^ 15) <
      distance rnd p m / rnd m * (1 - 1 / 10 ^ 15) * 10000 * (1 - 1 / 10 ^ 15) := by
    refine lt_of_mul_lt_mul_right ?_ hpos.le
    calc (bps : ℚ) * (1 + 1 / 10 ^ 15) * rnd m
        = bps * rnd m * (1 + 1 / 10 ^ 15) := by ring
      _ < distance rnd p m * ((1 - 1 / 10 ^ 15) * 10000 * (1 - 1 / 10 ^ 15)) := by
        have hbm : (0 : ℚ) ≤ bps * m := mul_nonneg hbps hm'.1.le
        linarith
      _ = distance rnd p m / rnd m * (1 - 1 / 10 ^ 15) * 10000 * (1 - 1 / 10 ^ 15) * rnd m := by
        rw [← hself]
        field_simp
  linarith

theorem distance_le_of_wide {mad : Int} (hlo : 0 < lo) (hp : lo ≤ p ∧ p ≤ hi)
    (hm : lo ≤ m ∧ m ≤ hi) (hwide : widestGap lo hi ≤ 6 * mad * 10 ^ 12) :
    distance rnd p m ≤ rnd (rnd (6 : Int) * rnd mad) := by
  have hlo' : (0 : ℚ) < lo := by exact_mod_cast hlo
  have hle : (lo : ℚ) ≤ hi := by exact_mod_cast hp.1.trans hp.2
  have hwide' : ((hi - lo) * 10 ^ 12 + hi : ℚ) ≤ 6 * mad * 10 ^ 12 := by exact_mod_cast hwide
  have hmad : (0 : ℚ) ≤ mad := by linarith
  have hsix : rnd (6 : Int) = 6 := by exact_mod_cast law.small 6 (by norm_num)
  have hrmad := (rnd_bounds law hmad).1
  have hproduct : 0 ≤ 6 * rnd mad := mul_nonneg (by norm_num) (law.nonneg hmad)
  have hlast := (rnd_bounds law hproduct).1
  have hdistance := distance_le law hlo hp hm
  rw [hsix]
  linarith

theorem pairAgrees_of_near (hlo : 0 < lo) (hp : lo ≤ p ∧ p ≤ hi) (hq : lo ≤ q ∧ q ≤ hi)
    (hnear : widestGap lo hi * 20 ≤ (p + q) * 10 ^ 12) :
    pairAgrees (rationalOpsWith rnd sqrt) p q = true := by
  have hlo' : (0 : ℚ) < lo := by exact_mod_cast hlo
  have hle : (lo : ℚ) ≤ hi := by exact_mod_cast hp.1.trans hp.2
  have hp' : (0 : ℚ) ≤ p := by exact_mod_cast hlo.le.trans hp.1
  have hq' : (0 : ℚ) ≤ q := by exact_mod_cast hlo.le.trans hq.1
  have hnear' : ((hi - lo) * 10 ^ 12 + hi : ℚ) * 20 ≤ (p + q) * 10 ^ 12 := by exact_mod_cast hnear
  have hdistance := distance_le law hlo hp hq
  have hten : rnd 10000 = 10000 := by exact_mod_cast law.small 10000 (by norm_num)
  have htwo : rnd 2 = 2 := by exact_mod_cast law.small 2 (by norm_num)
  have hrp := (rnd_bounds law hp').1
  have hrq := (rnd_bounds law hq').1
  have hadd : 0 ≤ rnd p + rnd q := add_nonneg (law.nonneg hp') (law.nonneg hq')
  have hradd := (rnd_bounds law hadd).1
  have hhalf : 0 ≤ rnd (rnd p + rnd q) / 2 := div_nonneg (law.nonneg hadd) (by norm_num)
  have havg := (rnd_bounds law hhalf).1
  -- the rounded average, and that the distance is less than a tenth of it
  generalize hval : rnd (rnd (rnd p + rnd q) / 2) = avg at havg
  have hpos : 0 < avg := by linarith
  have htenth : distance rnd p q * 10 * (1 + 1 / 10 ^ 15) ≤ avg := by linarith
  have hquotient : 0 ≤ distance rnd p q / avg := div_nonneg (abs_nonneg _) hpos.le
  have hrounded := (rnd_bounds law hquotient).2
  have hratio : distance rnd p q / avg * (1 + 1 / 10 ^ 15) ≤ 1 / 10 := by
    rw [div_mul_eq_mul_div, div_le_iff₀ hpos]
    linarith
  have hvalue : (rationalOpsWith rnd sqrt).div ((rationalOpsWith rnd sqrt).add
      ((rationalOpsWith rnd sqrt).ofInt p) ((rationalOpsWith rnd sqrt).ofInt q))
        ((rationalOpsWith rnd sqrt).ofInt 2) = some avg := by
    show (rationalOps rnd).div ((rationalOps rnd).add (some (rnd p)) (some (rnd q)))
      (some (rnd (2 : Int))) = _
    rw [rationalOps_add, Int.cast_ofNat, htwo, rationalOps_div (by norm_num), hval]
  rw [pairAgrees, hvalue]
  apply Bool.or_eq_true_iff.mpr
  right
  show (rationalOps rnd).le ((rationalOps rnd).mul ((rationalOps rnd).div
    (some (distance rnd p q)) (some |avg|)) (some (rnd (10000 : Int)))) (some (rnd (1000 : Int))) = true
  rw [abs_of_pos hpos, rationalOps_div hpos.ne', rationalOps_mul, Int.cast_ofNat, hten]
  apply decide_eq_true
  apply law.mono
  rw [Int.cast_ofNat]
  linarith

theorem pairAgrees_of_not_exceedsBps {bps : Nat} (hp : 0 < p) (hm : 0 < m) (hbps : bps ≤ 952)
    (h : exceedsBps (rationalOpsWith rnd sqrt) p m bps = false) :
    pairAgrees (rationalOpsWith rnd sqrt) p m = true ∧
      pairAgrees (rationalOpsWith rnd sqrt) m p = true := by
  have hbps' : (bps : Int) * m ≤ 952 * m :=
    mul_le_mul_of_nonneg_right (by exact_mod_cast hbps) hm.le
  have hnear : ∀ hi : Int, p ≤ hi → m ≤ hi →
      (|p - m| * 10 ^ 12 - hi) * 10 ^ 4 ≤ bps * m * 10 ^ 12 := by
    intro hi hpi hmi
    by_contra hfar
    rw [exceedsBps_of_far law ⟨hp, hpi⟩ ⟨hm, hmi⟩ (not_le.mp hfar)] at h
    cases h
  rcases le_total p m with hle | hge
  · have hgap := hnear m hle le_rfl
    rw [abs_of_nonpos (by omega)] at hgap
    constructor
    · refine pairAgrees_of_near law hp ⟨le_rfl, hle⟩ ⟨hle, le_rfl⟩ ?_
      rw [widestGap]
      omega
    · refine pairAgrees_of_near law hp ⟨hle, le_rfl⟩ ⟨le_rfl, hle⟩ ?_
      rw [widestGap]
      omega
  · have hgap := hnear p le_rfl hge
    rw [abs_of_nonneg (by omega)] at hgap
    constructor
    · refine pairAgrees_of_near law hm ⟨hge, le_rfl⟩ ⟨le_rfl, hge⟩ ?_
      rw [widestGap]
      omega
    · refine pairAgrees_of_near law hm ⟨le_rfl, hge⟩ ⟨hge, le_rfl⟩ ?_
      rw [widestGap]
      omega

end Rounded

section Half

variable {prices : List Int}

theorem exists_common {α : Type} {l : List α} {P Q : α → Bool}
    (h : l.length < l.countP P + l.countP Q) : ∃ a ∈ l, P a = true ∧ Q a = true := by
  by_contra hnone
  have hle : l.countP Q ≤ l.countP fun a => decide ¬P a = true := by
    apply List.countP_mono_left
    intro a ha hQ
    exact decide_eq_true fun hP => hnone ⟨a, ha, hP, hQ⟩
  have hlength := l.length_eq_countP_add_countP P
  omega

theorem length_le_two_mul_countP (hne : prices ≠ []) :
    prices.length ≤ 2 * prices.countP (fun p => decide (p ≤ medianOf prices)) ∧
      prices.length ≤ 2 * prices.countP (fun p => decide (medianOf prices ≤ p)) := by
  have hsorted : (sortUnstable prices).Pairwise (· ≤ ·) := sorted_sortUnstable
  have hbetween := medianOf_between hne
  have hpos := List.length_pos_iff.mpr hne
  have htaken : ∀ p ∈ (sortUnstable prices).take ((prices.length - 1) / 2 + 1),
      decide (p ≤ medianOf prices) = true := by
    intro p hp
    obtain ⟨i, hi⟩ := List.mem_iff_getElem?.mp hp
    rw [List.getElem?_take] at hi
    split at hi
    next hlt =>
      have hle := le_lowerMiddle hsorted (by rw [length_sortUnstable]; omega) hi
      exact decide_eq_true (hle.trans hbetween.1)
    next => cases hi
  have hdropped : ∀ p ∈ (sortUnstable prices).drop (prices.length / 2),
      decide (medianOf prices ≤ p) = true := by
    intro p hp
    obtain ⟨i, hi⟩ := List.mem_iff_getElem?.mp hp
    rw [List.getElem?_drop] at hi
    have hle := upperMiddle_le hsorted (by rw [length_sortUnstable]; omega) hi
    exact decide_eq_true (hbetween.2.trans hle)
  have hlow := (List.take_sublist ((prices.length - 1) / 2 + 1) (sortUnstable prices)).countP_le
    (p := fun p => decide (p ≤ medianOf prices))
  have hhigh := (List.drop_sublist (prices.length / 2) (sortUnstable prices)).countP_le
    (p := fun p => decide (medianOf prices ≤ p))
  rw [List.countP_eq_length.mpr htaken, List.length_take, length_sortUnstable,
    perm_sortUnstable.countP_eq] at hlow
  rw [List.countP_eq_length.mpr hdropped, List.length_drop, length_sortUnstable,
    perm_sortUnstable.countP_eq] at hhigh
  omega

theorem length_le_two_mul_countP_madOf (hne : prices ≠ []) :
    prices.length ≤ 2 * prices.countP (within (medianOf prices - madOf prices)
      (medianOf prices + madOf prices)) := by
  have hne' : prices.map (fun p => |p - medianOf prices|) ≠ [] := by simpa using hne
  have hhalf := (length_le_two_mul_countP hne').1
  rw [List.length_map, List.countP_map] at hhalf
  refine hhalf.trans_eq (congrArg (2 * ·) (List.countP_congr fun p _ => ?_))
  show decide (|p - medianOf prices| ≤ madOf prices) = true ↔ _
  rw [within, decide_eq_true_iff, decide_eq_true_iff, abs_le]
  omega

/-- The median lies with the majority. -/
theorem medianOf_within {lo hi : Int} (hmost : prices.length < 2 * prices.countP (within lo hi)) :
    lo ≤ medianOf prices ∧ medianOf prices ≤ hi := by
  have hne : prices ≠ [] := by
    rintro rfl
    cases hmost
  obtain ⟨hlow, hhigh⟩ := length_le_two_mul_countP hne
  obtain ⟨p, -, hp, hple⟩ := exists_common (l := prices) (P := within lo hi)
    (Q := fun p => decide (p ≤ medianOf prices)) (by omega)
  obtain ⟨q, -, hq, hqge⟩ := exists_common (l := prices) (P := within lo hi)
    (Q := fun p => decide (medianOf prices ≤ p)) (by omega)
  exact ⟨(of_decide_eq_true hp).1.trans (of_decide_eq_true hple),
    (of_decide_eq_true hqge).trans (of_decide_eq_true hq).2⟩

end Half

end So4Oracle.OutlierGaps
