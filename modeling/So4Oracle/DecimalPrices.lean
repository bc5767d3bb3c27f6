import So4Oracle.Upstream

namespace So4Oracle.DecimalPrices

open Library.Checked Library.Decimals Sources Upstream DecimalText

/-- What a text is worth at thirty decimals: it is a plain decimal but for the
white space around it, and its scaled value, rounded down, is a positive i128. -/
def PriceOf (raw : String) (price : Int) : Prop :=
  ∃ q, Denotes (RustText.trim raw).toList q ∧ price = ⌊q * 10 ^ 30⌋ ∧ 0 < price ∧
    price ≤ i128Max

theorem parsePriceToPrecision_eq_ok_iff {raw : String} {price : Int} :
    parsePriceToPrecision raw = .ok price ↔ PriceOf raw price := by
  rw [parsePriceToPrecision_eq_ok]
  constructor
  · rintro ⟨n, hwritten, rfl, hprice⟩
    exact ⟨n.value, ⟨n, hwritten, rfl⟩, (n.floor_value 30).symm, hprice⟩
  · rintro ⟨q, ⟨n, hwritten, rfl⟩, rfl, hprice⟩
    exact ⟨n, hwritten, n.floor_value 30, hprice⟩

theorem parsePriceToPrecision_exact (raw : String) :
    (∀ price, parsePriceToPrecision raw = .ok price ↔ PriceOf raw price) ∧
      ((∀ price, ¬PriceOf raw price) → ∃ e, parsePriceToPrecision raw = .error e) := by
  refine ⟨fun price => parsePriceToPrecision_eq_ok_iff, fun hnone => ?_⟩
  cases hparse : parsePriceToPrecision raw with
  | error e => exact ⟨e, rfl⟩
  | ok price => exact absurd (parsePriceToPrecision_eq_ok_iff.mp hparse) (hnone price)

section Pyth

variable {F : Type} {m : Nat} {expo : Int}

/-- A price text of a mantissa and an exponent, with a digit before the point. -/
def plainDecimal (m : Nat) (expo : Int) : String :=
  String.ofList (Numeral.ofScaled m (-expo).toNat).text

theorem plainDecimal_denotes (hexpo : expo ≤ 0) :
    Denotes (RustText.trim (plainDecimal m expo)).toList (m * 10 ^ expo) := by
  have hwritten : (Numeral.ofScaled m (-expo).toNat).Written (plainDecimal m expo).toList := by
    rw [plainDecimal, String.toList_ofList]
    exact Numeral.written_text _
  refine ⟨_, (trim_of_written hwritten).symm ▸ hwritten, ?_⟩
  have hscale : (-expo).toNat = -expo := Int.toNat_of_nonneg (by omega)
  rw [Numeral.value_ofScaled, div_eq_mul_inv, ← zpow_natCast, ← zpow_neg, hscale, neg_neg]

theorem parseI128_toString {v : Int} :
    RustText.parseI128 (RustText.trim (toString m)) = some v ↔ v = m ∧ v ≤ i128Max := by
  have htext : (toString m).toList = Nat.toDigits 10 m := Nat.toList_repr
  have hdigits : ∀ c ∈ (toString m).toList, c.isDigit = true := by
    intro c hc
    rw [htext] at hc
    exact Nat.isDigit_of_mem_toDigits (by decide) (by decide) hc
  rw [trim_eq_self (fun c hc => isWhitespace_of_isDigit (hdigits c hc)), parseI128_digits hdigits,
    htext, digitsValue, Nat.ofDigitChars_ten_toDigits]
  simp

/-- Pyth prices are scaled in one multiplication. -/
theorem normalizePythPrice_eq_ok (hm : 1 ≤ m) (hlow : -30 ≤ expo) (hhigh : expo ≤ 0) {v : Int} :
    normalizePythPrice (F := F) (toString m) expo = .ok v ↔
      v = m * 10 ^ (30 + expo).toNat ∧ v ≤ i128Max := by
  have hpow : (1 : Int) ≤ 10 ^ (30 + expo).toNat := one_le_pow₀ (by decide)
  have hm' : (1 : Int) ≤ m := by exact_mod_cast hm
  have hsize : (m : Int) ≤ m * 10 ^ (30 + expo).toNat := le_mul_of_one_le_right (by omega) hpow
  have hlowest : i128Min ≤ 0 := by decide
  rw [normalizePythPrice, if_neg (not_not.mpr ⟨hlow, hhigh⟩)]
  split
  next hparse =>
    constructor
    · intro h
      cases h
    · rintro ⟨rfl, hfits⟩
      have hparsed := parseI128_toString.mpr ⟨rfl, hsize.trans hfits⟩
      rw [hparse] at hparsed
      cases hparsed
  next price hparse =>
    obtain ⟨rfl, -⟩ := parseI128_toString.mp hparse
    have hnonneg : ¬(m : Int) < 0 := by omega
    rw [if_neg hnonneg, show (scaleDigits : Int) + expo = 30 + expo from rfl]
    cases hchecked : checked ((m : Int) * 10 ^ (30 + expo).toNat) with
    | error fault =>
        have hover := (checked_eq_error.mp hchecked).2
        have hlow : i128Min ≤ m * 10 ^ (30 + expo).toNat := by omega
        simp only [Except.toOption, reduceCtorEq, false_iff]
        rintro ⟨rfl, hfits⟩
        exact hover ⟨hlow, hfits⟩
    | ok scaled =>
        obtain ⟨rfl, -, hfits⟩ := checked_eq_ok.mp hchecked
        simp only [Except.toOption, Except.ok.injEq]
        constructor
        · rintro rfl
          exact ⟨rfl, hfits⟩
        · exact fun h => h.1.symm

theorem parsePriceToPrecision_of_denotes (hm : 1 ≤ m) (hlow : -30 ≤ expo) {text : String}
    (h : Denotes (RustText.trim text).toList (m * 10 ^ expo)) {v : Int} :
    parsePriceToPrecision text = .ok v ↔ v = m * 10 ^ (30 + expo).toNat ∧ v ≤ i128Max := by
  have hscaled : (m * 10 ^ expo * 10 ^ 30 : ℚ) = ((m * 10 ^ (30 + expo).toNat : Int) : ℚ) := by
    have hexpo : ((30 + expo).toNat : Int) = 30 + expo := Int.toNat_of_nonneg (by omega)
    push_cast
    rw [mul_assoc, ← zpow_natCast 10 30, ← zpow_natCast 10 (30 + expo).toNat, hexpo,
      ← zpow_add₀ (by norm_num), add_comm expo]
    norm_num
  rw [parsePriceToPrecision_eq_ok_iff]
  constructor
  · rintro ⟨q, hq, rfl, -, hfits⟩
    rw [hq.unique h, hscaled, Int.floor_intCast] at hfits ⊢
    exact ⟨rfl, hfits⟩
  · rintro ⟨rfl, hfits⟩
    refine ⟨_, h, ?_, ?_, hfits⟩
    · rw [hscaled, Int.floor_intCast]
    · exact mul_pos (by exact_mod_cast hm) (by positivity)

/-- Both sources report one price as the same integer, or neither accepts it. The
second takes every way to write the price down. -/
theorem normalizePythPrice_agrees (m : Nat) (expo : Int) (hm : 1 ≤ m) (hlow : -30 ≤ expo)
    (hhigh : expo ≤ 0) :
    Denotes (RustText.trim (plainDecimal m expo)).toList (m * 10 ^ expo) ∧
      ∀ text, Denotes (RustText.trim text).toList (m * 10 ^ expo) →
        (∃ v, normalizePythPrice (F := F) (toString m) expo = .ok v ∧
          parsePriceToPrecision text = .ok v) ∨
        ∃ e e', normalizePythPrice (F := F) (toString m) expo = .error e ∧
          parsePriceToPrecision text = .error e' := by
  refine ⟨plainDecimal_denotes hhigh, fun text htext => ?_⟩
  have hpyth := fun v => normalizePythPrice_eq_ok (F := F) hm hlow hhigh (v := v)
  have hparse := fun v => parsePriceToPrecision_of_denotes hm hlow htext (v := v)
  rcases both_ok_or_both_error (exists_congr fun v => (hpyth v).trans (hparse v).symm) with
    ⟨v, -, hv, -⟩ | herror
  · exact .inl ⟨v, hv, (hparse v).mpr ((hpyth v).mp hv)⟩
  · exact .inr herror

theorem normalizePythPrice_agrees_three_places :
    plainDecimal 12345 (-3) = "12.345" ∧
      ((∃ v, normalizePythPrice (F := Unit) (toString 12345) (-3) = .ok v ∧
          parsePriceToPrecision (plainDecimal 12345 (-3)) = .ok v) ∨
        ∃ e e', normalizePythPrice (F := Unit) (toString 12345) (-3) = .error e ∧
          parsePriceToPrecision (plainDecimal 12345 (-3)) = .error e') := by
  have hagrees := normalizePythPrice_agrees (F := Unit) 12345 (-3) (by decide) (by decide)
    (by decide)
  exact ⟨by decide, hagrees.2 _ hagrees.1⟩

end Pyth

end So4Oracle.DecimalPrices
