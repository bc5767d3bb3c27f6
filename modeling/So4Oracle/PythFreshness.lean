import So4Oracle.PriceScript

namespace So4Oracle.PythFreshness

open Library.Checked Library.Floats Wire Config State Sources KeeperScript PriceScript

variable {F : Type} {num : Numerics F} {data : PythPriceData}
  {nowSeconds staleAfterSeconds maxConfidenceBps : Nat} {quoted : PriceWithObservationTime}
  {price : CachedPrice}

theorem isStale_eq_true_iff :
    price.isStale staleAfterSeconds nowSeconds = true ↔
      nowSeconds < price.timestamp ∨ price.timestamp + staleAfterSeconds ≤ nowSeconds := by
  rw [CachedPrice.isStale]
  split
  next hpast =>
    rw [decide_eq_true_eq]
    omega
  next hfuture =>
    simp only [true_iff]
    omega

/-- The cache counts as stale what the source accepts at the very limit of its
age, and what it accepts ahead of the clock. -/
theorem accepted_isStale_iff
    (h : validatePythPrice num data nowSeconds staleAfterSeconds maxConfidenceBps = .ok quoted)
    (hprice : price.timestamp = quoted.observationTime) :
    price.isStale staleAfterSeconds nowSeconds = true ↔
      nowSeconds < quoted.observationTime ∧
          quoted.observationTime ≤ nowSeconds + maxFutureSkewSeconds ∨
        quoted.observationTime + staleAfterSeconds = nowSeconds := by
  obtain ⟨-, htime, -⟩ := validatePythPrice_eq_ok h
  obtain ⟨-, hfuture, hage⟩ := checkPublishTime_eq_ok htime
  rw [isStale_eq_true_iff, hprice]
  omega

section Samples

def feedAt (publishTime : Int) : PythPriceData where
  price := "100000000"
  conf := none
  expo := -8
  publishTime := some publishTime

/-- At the limit of its age, and as far ahead of the clock as is accepted. -/
theorem accepted_isStale_iff_edges :
    (((samplePrice 100).isStale 60 1060 = true) ↔
        1060 < 1000 ∧ 1000 ≤ 1060 + maxFutureSkewSeconds ∨ 1000 + 60 = 1060) ∧
      (((samplePrice 100).isStale 60 970 = true) ↔
        970 < 1000 ∧ 1000 ≤ 970 + maxFutureSkewSeconds ∨ 1000 + 60 = 970) := by
  have haged : validatePythPrice exactNumerics (feedAt 1000) 1060 60 50 = .ok ⟨10 ^ 30, 1000⟩ :=
    eq_ok_of_toOption (by decide +kernel)
  have hahead : validatePythPrice exactNumerics (feedAt 1000) 970 60 50 = .ok ⟨10 ^ 30, 1000⟩ :=
    eq_ok_of_toOption (by decide +kernel)
  exact ⟨accepted_isStale_iff haged rfl, accepted_isStale_iff hahead rfl⟩

theorem accepted_but_stale :
    (validatePythPrice exactNumerics (feedAt 1000) 1060 60 50 = .ok ⟨10 ^ 30, 1000⟩ ∧
      (samplePrice 100).isStale 60 1060 = true) ∧
    validatePythPrice exactNumerics (feedAt 1000) 970 60 50 = .ok ⟨10 ^ 30, 1000⟩ ∧
      (samplePrice 100).isStale 60 970 = true :=
  ⟨⟨eq_ok_of_toOption (by decide +kernel), by decide⟩,
    eq_ok_of_toOption (by decide +kernel), by decide⟩

end Samples

end So4Oracle.PythFreshness
