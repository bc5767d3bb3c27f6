import So4Oracle.PriceOverflow

namespace So4Oracle.MiddlePrices

open Library.Checked Prices Aggregate PriceOverflow

variable {sorted : List Int}

/-- The last entry of the lower half; the middle one of an odd number is in both halves. -/
def lowerMiddle (sorted : List Int) : Int := sorted[(sorted.length - 1) / 2]?.getD 0

/-- The first entry of the upper half. -/
def upperMiddle (sorted : List Int) : Int := sorted[sorted.length / 2]?.getD 0

/-- The median in unbounded integers. -/
def middlePrice (sorted : List Int) : Int := (lowerMiddle sorted + upperMiddle sorted) / 2

/-- An odd number of entries has a middle that is not a sum. -/
def MiddleFits (sorted : List Int) : Prop :=
  sorted.length % 2 = 1 ∨ lowerMiddle sorted + upperMiddle sorted ≤ i128Max

instance (sorted : List Int) : Decidable (MiddleFits sorted) := inferInstanceAs (Decidable (_ ∨ _))

theorem lowerMiddle_eq (hne : sorted ≠ []) :
    sorted[(sorted.length - 1) / 2]? = some (lowerMiddle sorted) := by
  have hlen : 0 < sorted.length := List.length_pos_iff.mpr hne
  rw [lowerMiddle, List.getElem?_eq_getElem (by omega)]
  rfl

theorem upperMiddle_eq (hne : sorted ≠ []) :
    sorted[sorted.length / 2]? = some (upperMiddle sorted) := by
  have hlen : 0 < sorted.length := List.length_pos_iff.mpr hne
  rw [upperMiddle, List.getElem?_eq_getElem (by omega)]
  rfl

theorem lowerMiddle_mem (hne : sorted ≠ []) : lowerMiddle sorted ∈ sorted :=
  List.mem_of_getElem? (lowerMiddle_eq hne)

theorem upperMiddle_mem (hne : sorted ≠ []) : upperMiddle sorted ∈ sorted :=
  List.mem_of_getElem? (upperMiddle_eq hne)

section Value

theorem middle_of_odd (hodd : sorted.length % 2 = 1) :
    middle sorted = .ok (upperMiddle sorted) ∧ lowerMiddle sorted = upperMiddle sorted := by
  have hne : sorted ≠ [] := by
    rintro rfl
    cases hodd
  constructor
  · rw [middle, if_neg (by omega)]
    exact index_eq_ok.mpr (upperMiddle_eq hne)
  · have hsame : (sorted.length - 1) / 2 = sorted.length / 2 := by omega
    rw [lowerMiddle, upperMiddle, hsame]

theorem middle_of_even (heven : sorted.length % 2 = 0) (hne : sorted ≠ []) :
    middle sorted =
      (fun sum => sum.tdiv 2) <$> checked (lowerMiddle sorted + upperMiddle sorted) := by
  rcases middle_cases hne with ⟨-, below, above, hbelow, habove, hmiddle⟩ | ⟨hodd, -⟩
  · have hhalf : sorted.length / 2 - 1 = (sorted.length - 1) / 2 := by omega
    rw [hhalf, lowerMiddle_eq hne] at hbelow
    rw [upperMiddle_eq hne] at habove
    cases hbelow
    cases habove
    exact hmiddle
  · omega

/-- The code's median is the one in unbounded integers, or its sum overflows. -/
theorem middle_eq (hne : sorted ≠ []) (hnonneg : ∀ p ∈ sorted, 0 ≤ p) :
    middle sorted =
      if MiddleFits sorted then .ok (middlePrice sorted) else .error .overflow := by
  have hlower := hnonneg _ (lowerMiddle_mem hne)
  have hupper := hnonneg _ (upperMiddle_mem hne)
  rcases Nat.mod_two_eq_zero_or_one sorted.length with heven | hodd
  · have hfits : MiddleFits sorted ↔ lowerMiddle sorted + upperMiddle sorted ≤ i128Max :=
      or_iff_right (by omega)
    have hmin : i128Min ≤ 0 := by decide
    rw [middle_of_even heven hne, checked]
    simp only [hfits]
    split
    next hle =>
      rw [if_pos hle.2, middlePrice, ← Int.tdiv_eq_ediv_of_nonneg (by omega)]
      rfl
    next hover =>
      rw [if_neg (fun hle => hover ⟨by omega, hle⟩)]
      rfl
  · obtain ⟨hmiddle, hsame⟩ := middle_of_odd hodd
    rw [hmiddle, if_pos (.inl hodd), middlePrice, hsame]
    congr 1
    omega

theorem middle_eq_ok (hne : sorted ≠ []) (hnonneg : ∀ p ∈ sorted, 0 ≤ p) {m : Int} :
    middle sorted = .ok m ↔ MiddleFits sorted ∧ m = middlePrice sorted := by
  rw [middle_eq hne hnonneg, ite_eq_ok, and_comm, eq_comm]

end Value

section Order

variable (hsorted : sorted.Pairwise (· ≤ ·))
include hsorted

theorem le_lowerMiddle {i : Nat} {p : Int} (hi : i ≤ (sorted.length - 1) / 2)
    (hp : sorted[i]? = some p) : p ≤ lowerMiddle sorted := by
  have hne : sorted ≠ [] := List.ne_nil_of_mem (List.mem_of_getElem? hp)
  exact le_of_sorted hsorted hi hp (lowerMiddle_eq hne)

theorem upperMiddle_le {i : Nat} {p : Int} (hi : sorted.length / 2 ≤ i)
    (hp : sorted[i]? = some p) : upperMiddle sorted ≤ p := by
  have hne : sorted ≠ [] := List.ne_nil_of_mem (List.mem_of_getElem? hp)
  exact le_of_sorted hsorted hi (upperMiddle_eq hne) hp

/-- No entry lies strictly between the two. -/
theorem le_lowerMiddle_or_upperMiddle_le {p : Int} (hp : p ∈ sorted) :
    p ≤ lowerMiddle sorted ∨ upperMiddle sorted ≤ p := by
  obtain ⟨i, hi⟩ := List.mem_iff_getElem?.mp hp
  rcases Nat.lt_or_ge i (sorted.length / 2) with hlt | hge
  · exact .inl (le_lowerMiddle hsorted (by omega) hi)
  · exact .inr (upperMiddle_le hsorted hge hi)

theorem lowerMiddle_le_upperMiddle (hne : sorted ≠ []) :
    lowerMiddle sorted ≤ upperMiddle sorted :=
  le_of_sorted hsorted (by omega) (lowerMiddle_eq hne) (upperMiddle_eq hne)

theorem middlePrice_between (hne : sorted ≠ []) :
    lowerMiddle sorted ≤ middlePrice sorted ∧ middlePrice sorted ≤ upperMiddle sorted := by
  have hle := lowerMiddle_le_upperMiddle hsorted hne
  rw [middlePrice]
  omega

end Order

end So4Oracle.MiddlePrices
