import Mathlib.Data.List.TakeWhile
import So4Oracle.Library.Checked
import So4Oracle.Library.Decimals
import So4Oracle.RustText

namespace So4Oracle.DecimalText

open Library.Checked Library.Decimals

section Parsing

variable {s : String} {v : Int}

theorem parseDigits_eq (h : ∀ c ∈ s.toList, c.isDigit = true) :
    RustText.parseDigits s.toList =
      if s.toList ≠ [] then some (digitsValue s.toList) else none := by
  simp [RustText.parseDigits, digitsValue, List.all_eq_true.mpr h]

/-- Digits alone parse to their value, where it fits. -/
theorem parseI128_digits (h : ∀ c ∈ s.toList, c.isDigit = true) :
    RustText.parseI128 s = some v ↔
      s.toList ≠ [] ∧ v = digitsValue s.toList ∧ v ≤ i128Max := by
  have hsign : ∀ c : Char, c.isDigit = false → ∀ rest, s.toList ≠ c :: rest := by
    rintro c hc rest heq
    have hdigit := h c (heq ▸ List.mem_cons_self)
    rw [hdigit] at hc
    cases hc
  have hvalue : RustText.parseI128 s =
      ((RustText.parseDigits s.toList).map Int.ofNat).filter
        (fun n => -(2 ^ 127) ≤ n && n < 2 ^ 127) := by
    rw [RustText.parseI128]
    split
    next rest heq => exact absurd heq (hsign '-' rfl rest)
    next rest heq => exact absurd heq (hsign '+' rfl rest)
    next => rfl
  rw [hvalue, parseDigits_eq h, Option.filter_eq_some_iff]
  by_cases hne : s.toList = []
  · simp [hne]
  · simp only [ne_eq, hne, not_false_eq_true, if_true, Option.map_some, Option.some.injEq, true_and,
      Bool.and_eq_true, decide_eq_true_eq, i128Max, Int.ofNat_eq_natCast]
    omega

theorem parseI64_digits (h : ∀ c ∈ s.toList, c.isDigit = true) :
    RustText.parseI64 s = some v ↔ s.toList ≠ [] ∧ v = digitsValue s.toList ∧ v ≤ i64Max := by
  have hwide : i64Max ≤ i128Max := by decide
  have hbound : ∀ n : Int, n < 2 ^ 63 ↔ n ≤ i64Max := fun n => (Int.le_sub_one_iff).symm
  rw [RustText.parseI64, Option.filter_eq_some_iff, parseI128_digits h, Bool.and_eq_true,
    decide_eq_true_eq, decide_eq_true_eq, hbound]
  constructor
  · rintro ⟨⟨hne, rfl, -⟩, -, hfits⟩
    exact ⟨hne, rfl, hfits⟩
  · rintro ⟨hne, rfl, hfits⟩
    exact ⟨⟨hne, rfl, hfits.trans hwide⟩, by omega, hfits⟩

end Parsing

section Split

variable {s : String} {c : Char} {before after : List Char}

theorem splitOnce_eq_none (h : c ∉ s.toList) : RustText.splitOnce s c = none := by
  have hdropped : s.toList.dropWhile (· != c) = [] := by
    rw [List.dropWhile_eq_nil_iff]
    intro d hd
    exact bne_iff_ne.mpr (fun heq => h (heq ▸ hd))
  rw [RustText.splitOnce, hdropped]

theorem splitOnce_eq_some (h : c ∉ before) (hs : s.toList = before ++ c :: after) :
    RustText.splitOnce s c = some (String.ofList before, String.ofList after) := by
  have hbefore : ∀ d ∈ before, (d != c) = true :=
    fun d hd => bne_iff_ne.mpr (fun heq => h (heq ▸ hd))
  have hdropped : s.toList.dropWhile (· != c) = c :: after := by
    rw [hs, List.dropWhile_append_of_pos hbefore]
    simp
  have htaken : s.toList.takeWhile (· != c) = before := by
    rw [hs, List.takeWhile_append_of_pos hbefore]
    simp
  rw [RustText.splitOnce, hdropped, htaken]

/-- What stands around the first point, all of the text where there is none. -/
theorem exists_splitOnce (s : String) (c : Char) :
    c ∉ s.toList ∨ ∃ before after, c ∉ before ∧ s.toList = before ++ c :: after := by
  by_cases hc : c ∈ s.toList
  · obtain ⟨before, after, hs, hbefore⟩ := List.eq_append_cons_of_mem hc
    exact .inr ⟨before, after, hbefore, hs⟩
  · exact .inl hc

end Split

section Trim

variable {s : String}

/-- Trimming leaves a text alone that has no white space. -/
theorem trim_eq_self (h : ∀ c ∈ s.toList, RustText.isWhitespace c = false) :
    RustText.trim s = s := by
  have hkept : ∀ cs : List Char, (∀ c ∈ cs, RustText.isWhitespace c = false) →
      cs.dropWhile RustText.isWhitespace = cs := by
    intro cs hcs
    cases cs with
    | nil => rfl
    | cons c cs => rw [List.dropWhile_cons_of_neg (by simp [hcs c List.mem_cons_self])]
  rw [RustText.trim, hkept _ h, hkept _ (fun c hc => h c (List.mem_reverse.mp hc)),
    List.reverse_reverse, String.ofList_toList]

theorem isWhitespace_of_isDigit {c : Char} (h : c.isDigit = true) :
    RustText.isWhitespace c = false := by
  simp only [Char.isDigit, Bool.and_eq_true, decide_eq_true_eq] at h
  have hlow : 48 ≤ c.toNat := h.1
  have hhigh : c.toNat ≤ 57 := h.2
  simp only [RustText.isWhitespace, Bool.or_eq_false_iff, Bool.and_eq_false_iff,
    decide_eq_false_iff_not, beq_eq_false_iff_ne]
  omega

theorem trim_of_written {n : Numeral} (h : n.Written s.toList) : RustText.trim s = s := by
  apply trim_eq_self
  intro c hc
  by_contra hspace
  have hdigit : c.isDigit = false := by
    by_contra hdigit
    exact hspace (isWhitespace_of_isDigit (by simpa using hdigit))
  refine h.not_mem hdigit ?_ hc
  rintro rfl
  exact hspace rfl

end Trim

end So4Oracle.DecimalText
