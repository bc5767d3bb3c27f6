import Mathlib.Data.List.Induction
import Mathlib.Data.Rat.Floor
import Mathlib.Tactic.FieldSimp
import Mathlib.Tactic.Ring

namespace Library.Decimals

def digitsValue (cs : List Char) : Nat := Nat.ofDigitChars 10 cs 0

/-- Digits with an optional point behind the first of them: `[0-9]+(\.[0-9]*)?`. -/
structure Numeral where
  whole : List Char
  frac : List Char
  whole_ne_nil : whole ≠ []
  whole_digits : ∀ c ∈ whole, c.isDigit = true
  frac_digits : ∀ c ∈ frac, c.isDigit = true

namespace Numeral

/-- The point may only be left out where nothing follows it. -/
def Written (n : Numeral) (text : List Char) : Prop :=
  text = n.whole ∧ n.frac = [] ∨ text = n.whole ++ '.' :: n.frac

def value (n : Numeral) : ℚ := digitsValue n.whole + digitsValue n.frac / 10 ^ n.frac.length

end Numeral

/-- The text is a plain decimal of this value. -/
def Denotes (text : List Char) (q : ℚ) : Prop := ∃ n : Numeral, n.Written text ∧ n.value = q

/-- The first places of a fraction, zeros where it has fewer. -/
def places (k : Nat) (frac : List Char) : List Char := (frac ++ List.replicate k '0').take k

def Numeral.scaled (k : Nat) (n : Numeral) : Nat :=
  digitsValue n.whole * 10 ^ k + digitsValue (places k n.frac)

section Digits

variable {cs ds : List Char} {k : Nat}

@[simp] theorem digitsValue_nil : digitsValue [] = 0 := rfl

theorem digitsValue_append (cs ds : List Char) :
    digitsValue (cs ++ ds) = digitsValue cs * 10 ^ ds.length + digitsValue ds := by
  rw [digitsValue, Nat.ofDigitChars_append, Nat.ofDigitChars_eq_ofDigitChars_zero, Nat.mul_comm]
  rfl

@[simp] theorem digitsValue_zeros (k : Nat) : digitsValue (List.replicate k '0') = 0 := by
  simp [digitsValue]

theorem digitsValue_lt (h : ∀ c ∈ cs, c.isDigit = true) : digitsValue cs < 10 ^ cs.length := by
  induction cs using List.reverseRecOn with
  | nil => simp
  | append_singleton cs c ih =>
      have hc : c.isDigit = true := h c (by simp)
      have hdigit : digitsValue [c] < 10 := by
        simp only [Char.isDigit, Bool.and_eq_true, decide_eq_true_eq] at hc
        have hle : c.toNat ≤ 57 := hc.2
        have hvalue : digitsValue [c] = c.toNat - 48 := by
          simp [digitsValue, Nat.ofDigitChars_cons]
        omega
      have hrest := ih (fun d hd => h d (List.mem_append_left _ hd))
      rw [digitsValue_append, List.length_append, List.length_singleton, pow_succ]
      omega

theorem length_places (k : Nat) (frac : List Char) : (places k frac).length = k := by
  simp [places]

theorem getElem?_places (k : Nat) (frac : List Char) (i : Nat) :
    (places k frac)[i]? = if i < k then some (frac[i]?.getD '0') else none := by
  rw [places, List.getElem?_take]
  split
  next hi =>
    rcases lt_or_ge i frac.length with hfrac | hfrac
    · simp [List.getElem?_append_left hfrac, hfrac]
    · rw [List.getElem?_append_right hfrac, List.getElem?_replicate, if_pos (by omega),
        List.getElem?_eq_none hfrac]
      rfl
  next => rfl

theorem places_succ (k : Nat) (frac : List Char) :
    places (k + 1) frac = places k frac ++ [frac[k]?.getD '0'] := by
  ext i : 1
  rw [getElem?_places, List.getElem?_append, length_places, getElem?_places]
  rcases lt_trichotomy i k with hi | rfl | hi
  · simp [hi, Nat.lt_succ_of_lt hi]
  · simp
  · simp [not_lt.mpr hi.le, show ¬i < k + 1 by omega, show ¬i - k = 0 by omega]

theorem places_digits (h : ∀ c ∈ cs, c.isDigit = true) : ∀ c ∈ places k cs, c.isDigit = true := by
  intro c hc
  rcases List.mem_append.mp (List.mem_of_mem_take hc) with hc | hc
  · exact h c hc
  · rw [List.eq_of_mem_replicate hc]
    rfl

end Digits

section Value

variable {text : List Char} {n : Numeral}

/-- Scaling and rounding down keeps the places and drops what follows them. -/
theorem Numeral.floor_value (n : Numeral) (k : Nat) : ⌊n.value * 10 ^ k⌋ = n.scaled k := by
  have hshift : digitsValue n.frac * 10 ^ k =
      digitsValue (places k n.frac) * 10 ^ n.frac.length +
        digitsValue ((n.frac ++ List.replicate k '0').drop k) := by
    have hsplit := digitsValue_append (places k n.frac)
      ((n.frac ++ List.replicate k '0').drop k)
    rw [places, List.take_append_drop, digitsValue_append] at hsplit
    simpa [places] using hsplit
  have hdropped : digitsValue ((n.frac ++ List.replicate k '0').drop k) <
      10 ^ n.frac.length := by
    have hdigits : ∀ c ∈ (n.frac ++ List.replicate k '0').drop k, c.isDigit = true := by
      intro c hc
      rcases List.mem_append.mp (List.mem_of_mem_drop hc) with hc | hc
      · exact n.frac_digits c hc
      · rw [List.eq_of_mem_replicate hc]
        rfl
    simpa using digitsValue_lt hdigits
  have hquotient : n.value * 10 ^ k =
      ((digitsValue n.whole * 10 ^ k * 10 ^ n.frac.length + digitsValue n.frac * 10 ^ k : Nat) : ℚ) /
        (10 ^ n.frac.length : Nat) := by
    rw [Numeral.value]
    push_cast
    field_simp
  rw [hquotient, Rat.floor_natCast_div_natCast, ← Int.natCast_ediv, hshift, ← add_assoc,
    ← Nat.add_mul, Nat.add_comm, Nat.add_mul_div_right _ _ (by positivity),
    Nat.div_eq_of_lt hdropped, Nat.zero_add]
  rfl

theorem not_mem_of_digits {cs : List Char} (h : ∀ c ∈ cs, c.isDigit = true) : '.' ∉ cs := by
  intro hdot
  exact absurd (h '.' hdot) (by decide)

/-- A numeral falls apart at its point. -/
theorem Numeral.Written.splitOn (h : n.Written text) :
    text.splitOn '.' = [n.whole] ∧ n.frac = [] ∨ text.splitOn '.' = [n.whole, n.frac] := by
  have hwhole := not_mem_of_digits n.whole_digits
  rcases h with ⟨rfl, hfrac⟩ | rfl
  · exact .inl ⟨List.splitOn_eq_singleton hwhole, hfrac⟩
  · rw [List.splitOn_append_cons_self_of_not_mem hwhole,
      List.splitOn_eq_singleton (not_mem_of_digits n.frac_digits)]
    exact .inr rfl

theorem Numeral.Written.not_mem {c : Char} (h : n.Written text) (hdigit : c.isDigit = false)
    (hdot : c ≠ '.') : c ∉ text := by
  have hother : ∀ {cs : List Char}, (∀ d ∈ cs, d.isDigit = true) → c ∉ cs := by
    intro cs hcs hc
    rw [hcs c hc] at hdigit
    cases hdigit
  rcases h with ⟨rfl, -⟩ | rfl
  · exact hother n.whole_digits
  · simp [hother n.whole_digits, hother n.frac_digits, hdot]

theorem Numeral.Written.value_eq {m : Numeral} (hm : m.Written text) (hn : n.Written text) :
    m.value = n.value := by
  have hparts : m.whole = n.whole ∧ m.frac = n.frac := by
    rcases hm.splitOn with ⟨hm, hmfrac⟩ | hm <;> rcases hn.splitOn with ⟨hn, hnfrac⟩ | hn
    · simp_all
    · simp_all
    · simp_all
    · simp_all
  rw [Numeral.value, Numeral.value, hparts.1, hparts.2]

theorem Denotes.unique {p q : ℚ} (hp : Denotes text p) (hq : Denotes text q) : p = q := by
  obtain ⟨m, hm, rfl⟩ := hp
  obtain ⟨n, hn, rfl⟩ := hq
  exact hm.value_eq hn

end Value

section Rendering

/-- A number's digits, with enough zeros before them for one to stand before the point. -/
def paddedDigits (m scale : Nat) : List Char :=
  List.replicate (scale + 1 - (Nat.toDigits 10 m).length) '0' ++ Nat.toDigits 10 m

variable {m scale : Nat}

theorem paddedDigits_digits : ∀ c ∈ paddedDigits m scale, c.isDigit = true := by
  intro c hc
  rcases List.mem_append.mp hc with hc | hc
  · rw [List.eq_of_mem_replicate hc]
    rfl
  · exact Nat.isDigit_of_mem_toDigits (by decide) (by decide) hc

theorem lt_length_paddedDigits (m scale : Nat) : scale < (paddedDigits m scale).length := by
  rw [paddedDigits, List.length_append, List.length_replicate]
  omega

theorem digitsValue_paddedDigits : digitsValue (paddedDigits m scale) = m := by
  rw [paddedDigits, digitsValue_append, digitsValue_zeros, Nat.zero_mul, Nat.zero_add]
  exact Nat.ofDigitChars_ten_toDigits

/-- The number, its last digits behind the point. -/
def Numeral.ofScaled (m scale : Nat) : Numeral where
  whole := (paddedDigits m scale).take ((paddedDigits m scale).length - scale)
  frac := (paddedDigits m scale).drop ((paddedDigits m scale).length - scale)
  whole_ne_nil := by
    have hlength := lt_length_paddedDigits m scale
    apply List.ne_nil_of_length_pos
    rw [List.length_take]
    omega
  whole_digits c hc := paddedDigits_digits c (List.mem_of_mem_take hc)
  frac_digits c hc := paddedDigits_digits c (List.mem_of_mem_drop hc)

theorem Numeral.length_frac_ofScaled (m scale : Nat) : (ofScaled m scale).frac.length = scale := by
  have hlength := lt_length_paddedDigits m scale
  rw [ofScaled, List.length_drop]
  omega

theorem Numeral.value_ofScaled (m scale : Nat) : (ofScaled m scale).value = m / 10 ^ scale := by
  have hdigits := digitsValue_append (ofScaled m scale).whole (ofScaled m scale).frac
  have hjoined : (ofScaled m scale).whole ++ (ofScaled m scale).frac = paddedDigits m scale :=
    List.take_append_drop _ _
  rw [hjoined, digitsValue_paddedDigits, length_frac_ofScaled] at hdigits
  have hpow : (10 : ℚ) ^ scale ≠ 0 := by positivity
  rw [value, length_frac_ofScaled, eq_div_iff hpow, add_mul, div_mul_cancel₀ _ hpow]
  exact_mod_cast hdigits.symm

def Numeral.text (n : Numeral) : List Char :=
  if n.frac = [] then n.whole else n.whole ++ '.' :: n.frac

theorem Numeral.written_text (n : Numeral) : n.Written n.text := by
  rw [text]
  split
  next hfrac => exact .inl ⟨rfl, hfrac⟩
  next => exact .inr rfl

end Rendering

end Library.Decimals
