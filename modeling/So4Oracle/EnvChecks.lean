import So4Oracle.Environment
import So4Oracle.Library.Checked

namespace So4Oracle.EnvChecks

open Library.Collecting Library.Floats Library.Checked Environment RustText Wire
open So4Oracle.Config (ConfigError)

section Numerals

variable {bound n m : Nat} {s : String} {cs : List Char}

/-- Digits, after a plus sign or not. -/
def Numeral (s : String) (n : Nat) : Prop :=
  ∃ digits : List Char, digits ≠ [] ∧ (∀ c ∈ digits, c.isDigit = true) ∧
    Nat.ofDigitChars 10 digits 0 = n ∧ (s.toList = digits ∨ s.toList = '+' :: digits)

theorem le_ofDigitChars (cs : List Char) (n : Nat) : n ≤ Nat.ofDigitChars 10 cs n := by
  induction cs generalizing n with
  | nil => exact le_rfl
  | cons c cs ih =>
      rw [Nat.ofDigitChars_cons]
      have hstep := ih (10 * n + (c.toNat - '0'.toNat))
      omega

theorem readDigits_eq_ok (hn : n < bound) :
    readDigits bound n cs = .ok m ↔
      (∀ c ∈ cs, c.isDigit = true) ∧ Nat.ofDigitChars 10 cs n = m ∧ m < bound := by
  induction cs generalizing n with
  | nil =>
      simp only [readDigits, Except.ok.injEq, List.not_mem_nil, false_implies, implies_true,
        true_and]
      constructor
      · rintro rfl
        exact ⟨rfl, hn⟩
      · rintro ⟨rfl, -⟩
        rfl
  | cons c cs ih =>
      rw [readDigits, Nat.ofDigitChars_cons, List.forall_mem_cons]
      by_cases hdigit : c.isDigit = true
      · rw [if_neg (by simp [hdigit])]
        by_cases hlarge : bound ≤ 10 * n + (c.toNat - '0'.toNat)
        · rw [if_pos hlarge]
          refine ⟨nofun, ?_⟩
          rintro ⟨-, rfl, hlt⟩
          have hle := le_ofDigitChars cs (10 * n + (c.toNat - '0'.toNat))
          omega
        · rw [if_neg hlarge, ih (by omega)]
          simp [hdigit]
      · rw [if_pos (Bool.eq_false_iff.mpr hdigit)]
        exact ⟨nofun, fun h => absurd h.1.1 hdigit⟩

theorem parseUnsigned_eq_ok (hbound : 0 < bound) :
    parseUnsigned bound s = .ok n ↔ Numeral s n ∧ n < bound := by
  have hplus : ¬Char.isDigit '+' = true := by decide
  unfold parseUnsigned Numeral
  split
  next heq =>
    refine ⟨nofun, ?_⟩
    rintro ⟨⟨digits, hne, -, -, h | h⟩, -⟩
    · exact absurd (h.symm.trans heq) hne
    · simp [heq] at h
  next heq =>
    refine ⟨nofun, ?_⟩
    rintro ⟨⟨digits, hne, hdigits, -, h | h⟩, -⟩
    · rw [heq] at h
      exact absurd (hdigits '+' (h ▸ List.mem_cons_self)) hplus
    · simp only [heq, List.cons.injEq, true_and] at h
      exact absurd h.symm hne
  next digits hsome heq =>
    rw [readDigits_eq_ok hbound]
    constructor
    · rintro ⟨hdigits, hvalue, hlt⟩
      exact ⟨⟨digits, fun hnil => hsome hnil, hdigits, hvalue, .inr heq⟩, hlt⟩
    · rintro ⟨⟨digits', hne, hdigits, hvalue, h | h⟩, hlt⟩
      · rw [heq] at h
        exact absurd (hdigits '+' (h ▸ List.mem_cons_self)) hplus
      · obtain rfl : digits = digits' := by simpa [heq] using h
        exact ⟨hdigits, hvalue, hlt⟩
  next hnil _ hsign =>
    rw [readDigits_eq_ok hbound]
    constructor
    · rintro ⟨hdigits, hvalue, hlt⟩
      exact ⟨⟨s.toList, fun h => hnil h, hdigits, hvalue, .inl rfl⟩, hlt⟩
    · rintro ⟨⟨digits, hne, hdigits, hvalue, h | h⟩, hlt⟩
      · rw [h]
        exact ⟨hdigits, hvalue, hlt⟩
      · exact absurd h (hsign digits)

theorem numeral_toString (n : Nat) : Numeral (toString n) n := by
  refine ⟨Nat.toDigits 10 n, Nat.toDigits_ne_nil,
    fun c hc => Nat.isDigit_of_mem_toDigits (by decide) (by decide) hc,
    Nat.ofDigitChars_ten_toDigits, .inl ?_⟩
  exact Nat.toList_repr

end Numerals

section Values

variable {T : Type} {lookup : String → Option String} {var default value : String}

theorem given_eq_some : given lookup var = some value ↔ lookup var = some value ∧ trim value ≠ "" := by
  simp [given, Option.filter_eq_some_iff]

theorem judges_required : Judges EnvError.var var (given lookup var ≠ none) (required lookup var) := by
  unfold required
  cases h : given lookup var with
  | some value => exact nofun
  | none => exact ⟨fun hne => hne rfl, rfl⟩

theorem judges_requiredAny {primary fallback : String} :
    Judges EnvError.var oracleContractIdOrAlias
      ((given lookup primary).or (given lookup fallback) ≠ none)
      (requiredAny lookup primary fallback) := by
  unfold requiredAny
  cases h : (given lookup primary).or (given lookup fallback) with
  | some value => exact nofun
  | none => exact ⟨fun hne => hne rfl, rfl⟩

theorem required_eq_ok : required lookup var = .ok value ↔ given lookup var = some value := by
  unfold required
  cases given lookup var <;> simp

theorem parseOrDefault_eq_ok {parse : String → Except String T} {t : T} :
    parseOrDefault lookup parse var default = .ok t ↔
      parse ((given lookup var).getD default) = .ok t := by
  unfold parseOrDefault
  cases parse ((given lookup var).getD default) <;> simp [Except.mapError]

theorem judges_parseOrDefault (parse : String → Except String T) :
    Judges EnvError.var var (∃ t, parse ((given lookup var).getD default) = .ok t)
      (parseOrDefault lookup parse var default) :=
  judges_mapError fun _ => rfl

/-- A hexadecimal text of this many bytes. -/
def HexBytes (crates : Crates) (expectedLen : Nat) (value : String) : Prop :=
  ∃ bytes, crates.hexDecode value = .ok bytes ∧ bytes.length = expectedLen

theorem judges_validateHexKey (crates : Crates) (expectedLen : Nat) :
    Judges EnvError.var var (HexBytes crates expectedLen value)
      (validateHexKey crates var value expectedLen) := by
  unfold validateHexKey HexBytes
  cases crates.hexDecode value with
  | error e => exact ⟨nofun, rfl⟩
  | ok bytes =>
      refine Judges.congr (judges_if rfl) ?_
      simp

/-- The shape of a strkey: 56 characters of base32 behind its letter. -/
structure StrkeyShaped (letter : Char) (value : String) : Prop where
  size : value.utf8ByteSize = 56
  letter : startsWith value (String.singleton letter) = true
  base32 : ∀ c ∈ value.toList, isBase32Char c = true

theorem judges_validateStrkey (letter : Char) :
    Judges EnvError.var var (StrkeyShaped letter value) (validateStrkey var value letter) := by
  unfold validateStrkey
  by_cases hsize : value.utf8ByteSize = 56
  · rw [if_neg (not_not_intro hsize)]
    by_cases hletter : startsWith value (String.singleton letter) = true
    · rw [if_neg (by simp [hletter])]
      split
      next bad hfind =>
        refine ⟨fun h => ?_, rfl⟩
        have hbad := List.find?_some hfind
        rw [h.base32 bad (List.mem_of_find?_eq_some hfind)] at hbad
        cases hbad
      next hfind =>
        refine ⟨hsize, hletter, fun c hc => ?_⟩
        simpa using List.find?_eq_none.mp hfind c hc
    · rw [if_pos (Bool.eq_false_iff.mpr hletter)]
      exact ⟨fun h => hletter h.letter, rfl⟩
  · rw [if_pos hsize]
    exact ⟨fun h => hsize h.size, rfl⟩

theorem validateHexKey_value {crates : Crates} {expectedLen : Nat} {v : String}
    (h : validateHexKey crates var value expectedLen = .ok v) : v = value := by
  unfold validateHexKey at h
  split at h
  · cases h
  · split at h
    · cases h
    · cases h
      rfl

theorem validateStrkey_value {letter : Char} {v : String}
    (h : validateStrkey var value letter = .ok v) : v = value := by
  unfold validateStrkey at h
  split at h
  · cases h
  · split at h
    · cases h
    · split at h
      · cases h
      · cases h
        rfl

structure StrongToken (token : String) : Prop where
  notPlaceholder : trim token ≠ adminApiTokenPlaceholder
  long : minAdminApiTokenLen ≤ (trim token).length

theorem validateAdminApiToken_eq_ok : validateAdminApiToken value = .ok () ↔ StrongToken value := by
  unfold validateAdminApiToken
  by_cases hplaceholder : trim value = adminApiTokenPlaceholder
  · rw [if_pos hplaceholder]
    exact ⟨nofun, fun h => absurd hplaceholder h.notPlaceholder⟩
  · rw [if_neg hplaceholder]
    by_cases hshort : (trim value).length < minAdminApiTokenLen
    · rw [if_pos hshort]
      exact ⟨nofun, fun h => absurd h.long (by omega)⟩
    · rw [if_neg hshort]
      exact ⟨fun _ => ⟨hplaceholder, by omega⟩, fun _ => rfl⟩

/-- A positive number that fits. -/
def PositiveBelow (bound : Nat) (value : String) : Prop := ∃ n, Numeral value n ∧ 0 < n ∧ n < bound

theorem positiveBelow_toString {bound n : Nat} (hpos : 0 < n) (hlt : n < bound) :
    PositiveBelow bound (toString n) :=
  ⟨n, numeral_toString n, hpos, hlt⟩

theorem judges_positive {bound : Nat} (hbound : 0 < bound) (default : Nat) :
    Judges EnvError.var var (PositiveBelow bound ((given lookup var).getD (toString default))) (do
      let n ← parseOrDefault lookup (parseUnsigned bound) var (toString default)
      if n = 0 then .error (.invalidVar var "must be greater than 0") else pure n) := by
  refine Judges.congr ((judges_parseOrDefault _).bind fun n => judges_if rfl) ?_
  simp only [parseOrDefault_eq_ok, parseUnsigned_eq_ok hbound, PositiveBelow, Nat.pos_iff_ne_zero]
  exact exists_congr fun n => ⟨fun h => ⟨h.1.1, h.2, h.1.2⟩, fun h => ⟨⟨h.1, h.2.2⟩, h.2.1⟩⟩

end Values

end So4Oracle.EnvChecks
