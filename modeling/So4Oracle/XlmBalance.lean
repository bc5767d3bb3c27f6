import So4Oracle.DecimalText
import So4Oracle.StellarRpc

namespace So4Oracle.XlmBalance

open Library.Checked Library.Decimals StellarRpc DecimalText

def stroopsPerXlm : Int := 10000000

def horizonXlmDecimals : Nat := 7

structure HorizonBalanceEntry where
  assetType : String
  balance : String

/-- The loop over the positions. Of digits alone, every byte is a character. -/
def fractionStroops (positions : Nat) (fraction : List Char) : Panicking Int :=
  (List.range positions).foldlM (fun stroops position => do
    let digit ← checkedSub (fraction[position]?.getD '0').toNat '0'.toNat
    let shifted ← checkedI64 (stroops * 10)
    checkedI64 (shifted + digit)) 0

def unparseable (raw : String) : RpcError := .jsonError ("unparseable balance: " ++ raw)

/-- The whole part and the fraction, which is empty where there is no point. -/
def parts (balance : String) : String × String :=
  (RustText.splitOnce balance '.').getD (balance, "")

def DigitsOnly (p : String × String) : Prop :=
  p.1 ≠ "" ∧ p.1.toList.all Char.isDigit = true ∧ p.2.toList.all Char.isDigit = true

instance (p : String × String) : Decidable (DigitsOnly p) := inferInstanceAs (Decidable (_ ∧ _))

def parseXlmBalanceToStroops (raw : String) : Fallible RpcError Int := do
  let p := parts (RustText.trim raw)
  ensure (DigitsOnly p) (unparseable raw)
  let whole ← demand (RustText.parseI64 p.1) (unparseable raw)
  let fraction ← (fractionStroops horizonXlmDecimals p.2.toList : Panicking _)
  let stroops ← demand (checkedI64 (whole * stroopsPerXlm)).toOption (unparseable raw)
  demand (checkedI64 (stroops + fraction)).toOption (unparseable raw)

def parseAccountBalanceResponse (decoded : Except String (List HorizonBalanceEntry)) :
    Fallible RpcError Int :=
  match decoded with
  | .error e => throw (.jsonError e)
  | .ok balances => do
      let native ← demand (balances.find? fun entry => entry.assetType == "native")
        (.jsonError "no native balance entry")
      parseXlmBalanceToStroops native.balance

section Fraction

variable {fraction : List Char} {positions : Nat}

/-- The loop computes the value of the places. -/
theorem fractionStroops_eq (h : ∀ c ∈ fraction, c.isDigit = true) (hfits : positions ≤ 18) :
    fractionStroops positions fraction = .ok (digitsValue (places positions fraction) : Int) := by
  induction positions with
  | zero => rfl
  | succ k ih =>
      have hlower : i64Min ≤ 0 := by decide
      have hbound : ((10 ^ 18 : Nat) : Int) ≤ i64Max := by decide
      have hpow : 10 ^ (k + 1) ≤ 10 ^ 18 := Nat.pow_le_pow_right (by decide) hfits
      have hlt := digitsValue_lt (places_digits (k := k + 1) h)
      have hdigit : '0'.toNat ≤ (fraction[k]?.getD '0').toNat := by
        have hc := places_digits (k := k + 1) h (fraction[k]?.getD '0') (by simp [places_succ])
        simp only [Char.isDigit, Bool.and_eq_true, decide_eq_true_eq] at hc
        exact hc.1
      have hvalue : digitsValue (places (k + 1) fraction) = digitsValue (places k fraction) * 10 +
          ((fraction[k]?.getD '0').toNat - '0'.toNat) := by
        rw [places_succ, digitsValue_append]
        simp [digitsValue, Nat.ofDigitChars_cons]
      rw [length_places] at hlt
      have hprefix := ih (Nat.le_of_succ_le hfits)
      rw [fractionStroops] at hprefix ⊢
      rw [List.range_succ, List.foldlM_append, hprefix, hvalue]
      refine bind_eq_ok.mpr ⟨_, rfl, ?_⟩
      refine bind_eq_ok.mpr ⟨_, ?_, rfl⟩
      refine bind_eq_ok.mpr ⟨_, checkedSub_of_le hdigit, ?_⟩
      refine bind_eq_ok.mpr ⟨_, checkedI64_eq_ok.mpr ⟨rfl, by omega, by omega⟩, ?_⟩
      exact checkedI64_eq_ok.mpr ⟨by push_cast; rfl, by omega, by omega⟩

end Fraction

section Balance

variable {raw balance : String} {stroops : Int}

theorem exists_numeral (h : DigitsOnly (parts balance)) :
    ∃ n : Numeral, n.Written balance.toList ∧ n.whole = (parts balance).1.toList ∧
      n.frac = (parts balance).2.toList := by
  obtain ⟨hne, hwhole, hfrac⟩ := h
  rw [List.all_eq_true] at hwhole hfrac
  refine ⟨⟨_, _, fun hnil => hne (String.toList_eq_nil_iff.mp hnil), hwhole, hfrac⟩, ?_, rfl, rfl⟩
  rcases exists_splitOnce balance '.' with hnone | ⟨before, after, hbefore, hbalance⟩
  · have hparts : parts balance = (balance, "") := by
      rw [parts, splitOnce_eq_none hnone]
      rfl
    exact .inl ⟨congrArg (·.1.toList) hparts.symm, congrArg (·.2.toList) hparts⟩
  · have hparts : parts balance = (String.ofList before, String.ofList after) := by
      rw [parts, splitOnce_eq_some hbefore hbalance]
      rfl
    exact .inr (by simpa [hparts] using hbalance)

theorem parts_of_written {n : Numeral} (h : n.Written balance.toList) :
    parts balance = (String.ofList n.whole, String.ofList n.frac) := by
  have hwhole := not_mem_of_digits n.whole_digits
  rcases h with ⟨hbalance, hfrac⟩ | hbalance
  · rw [parts, splitOnce_eq_none (hbalance ▸ hwhole), hfrac, ← hbalance, String.ofList_toList]
    rfl
  · rw [parts, splitOnce_eq_some hwhole hbalance]
    rfl

theorem digitsOnly_of_written {n : Numeral} (h : n.Written balance.toList) :
    DigitsOnly (parts balance) := by
  rw [parts_of_written h]
  refine ⟨fun hempty => n.whole_ne_nil ?_, ?_, ?_⟩
  · simpa using congrArg String.toList hempty
  · simpa using n.whole_digits
  · simpa using n.frac_digits

theorem parseXlmBalanceToStroops_returns :
    Returns (parseXlmBalanceToStroops raw) stroops ↔
      ∃ n : Numeral, n.Written (RustText.trim raw).toList ∧
        stroops = n.scaled horizonXlmDecimals ∧ stroops ≤ i64Max := by
  have hlower : i64Min ≤ 0 := by decide
  rw [parseXlmBalanceToStroops]
  simp only [returns_bind, returns_ensure, returns_demand, returns_lift]
  constructor
  · rintro ⟨-, hdigits, whole, hwhole, fraction, hfraction, scaled, hscaled, hstroops⟩
    obtain ⟨n, hwritten, hn, hn'⟩ := exists_numeral hdigits
    rw [parseI64_digits (hn ▸ n.whole_digits), ← hn] at hwhole
    obtain ⟨-, rfl, -⟩ := hwhole
    rw [← hn', fractionStroops_eq n.frac_digits (by decide)] at hfraction
    cases hfraction
    obtain ⟨rfl, -⟩ := checkedI64_eq_ok.mp (eq_ok_of_toOption hscaled)
    obtain ⟨rfl, -, hfits⟩ := checkedI64_eq_ok.mp (eq_ok_of_toOption hstroops)
    exact ⟨n, hwritten, rfl, hfits⟩
  · rintro ⟨n, hwritten, rfl, hfits⟩
    have hscaled : (n.scaled horizonXlmDecimals : Int) = digitsValue n.whole * stroopsPerXlm +
        digitsValue (places horizonXlmDecimals n.frac) := rfl
    have hwide : (digitsValue n.whole : Int) ≤ digitsValue n.whole * stroopsPerXlm :=
      le_mul_of_one_le_right (Int.natCast_nonneg _) (by decide)
    have hfirst : checkedI64 (digitsValue n.whole * stroopsPerXlm) =
        .ok (digitsValue n.whole * stroopsPerXlm) :=
      checkedI64_eq_ok.mpr ⟨rfl, by omega, by omega⟩
    have hsum : checkedI64 (n.scaled horizonXlmDecimals) = .ok (n.scaled horizonXlmDecimals : Int) :=
      checkedI64_eq_ok.mpr ⟨rfl, by omega, hfits⟩
    refine ⟨(), digitsOnly_of_written hwritten, digitsValue n.whole, ?_,
      digitsValue (places horizonXlmDecimals n.frac), ?_, _, congrArg Except.toOption hfirst,
      congrArg Except.toOption hsum⟩
    · rw [parts_of_written hwritten, parseI64_digits (by simpa using n.whole_digits)]
      simpa using ⟨n.whole_ne_nil, by omega⟩
    · rw [parts_of_written hwritten, String.toList_ofList]
      exact fractionStroops_eq n.frac_digits (by decide)

/-- The loop does not panic on digits, and every failure is the one error. -/
theorem parseXlmBalanceToStroops_returnsOr (raw : String) :
    ReturnsOr (unparseable raw) (parseXlmBalanceToStroops raw) := by
  rw [parseXlmBalanceToStroops]
  refine returnsOr_ensure.bind (fun _ hdigits => ?_)
  obtain ⟨-, -, hfrac⟩ := returns_ensure.mp hdigits
  refine returnsOr_demand.bind (fun whole _ => ?_)
  refine (returnsOr_lift (fractionStroops_eq (List.all_eq_true.mp hfrac) (by decide))).bind
    (fun fraction _ => ?_)
  exact returnsOr_demand.bind (fun _ _ => returnsOr_demand)

/-- What a text is worth in stroops: it is a plain decimal but for the white space
around it, and its value at seven decimals, rounded down, is an i64. -/
def StroopsOf (raw : String) (stroops : Int) : Prop :=
  ∃ q, Denotes (RustText.trim raw).toList q ∧ stroops = ⌊q * 10 ^ 7⌋ ∧ i64Min ≤ stroops ∧
    stroops ≤ i64Max

theorem returns_iff_stroopsOf :
    Returns (parseXlmBalanceToStroops raw) stroops ↔ StroopsOf raw stroops := by
  have hlower : i64Min ≤ 0 := by decide
  rw [parseXlmBalanceToStroops_returns]
  constructor
  · rintro ⟨n, hwritten, rfl, hfits⟩
    exact ⟨n.value, ⟨n, hwritten, rfl⟩, (n.floor_value 7).symm,
      hlower.trans (Int.natCast_nonneg _), hfits⟩
  · rintro ⟨q, ⟨n, hwritten, rfl⟩, rfl, -, hfits⟩
    exact ⟨n, hwritten, n.floor_value 7, hfits⟩

theorem parseXlmBalanceToStroops_exact (raw : String) :
    (∀ stroops, Returns (parseXlmBalanceToStroops raw) stroops ↔ StroopsOf raw stroops) ∧
      ((∀ stroops, ¬StroopsOf raw stroops) →
        parseXlmBalanceToStroops raw = throw (unparseable raw)) := by
  refine ⟨fun stroops => returns_iff_stroopsOf, fun hnone => ?_⟩
  rcases parseXlmBalanceToStroops_returnsOr raw with ⟨stroops, hstroops⟩ | herror
  · exact absurd (returns_iff_stroopsOf.mp hstroops) (hnone stroops)
  · exact herror

/-- The account's balance is that of its first native entry. -/
theorem parseAccountBalanceResponse_returns {balances : List HorizonBalanceEntry} :
    Returns (parseAccountBalanceResponse (.ok balances)) stroops ↔
      ∃ native, (balances.find? fun entry => entry.assetType == "native") = some native ∧
        StroopsOf native.balance stroops := by
  simp only [parseAccountBalanceResponse, returns_bind, returns_demand, returns_iff_stroopsOf]

end Balance

end So4Oracle.XlmBalance
