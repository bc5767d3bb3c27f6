import Mathlib.Data.Bool.Basic
import Mathlib.Logic.Function.Basic
import Mathlib.Tactic.Common

namespace Library.Breaker

/-- What happens to a key whose failures are counted, until one of its tallies
bars it. -/
inductive Event (C K : Type)
  | tried (key : K)
  | counted (counter : C) (key : K)
  | reset (counter : C) (key : K)
  | barred (key : K)
  | freed (key : K)
  deriving DecidableEq, Repr

@[ext] structure Guard (C K : Type) where
  bars : K → Bool
  tally : C → K → Nat

variable {C K : Type}

section History

/-- A property of every event of a history, newest first, and of what was before it. -/
def Throughout (P : Event C K → List (Event C K) → Prop) : List (Event C K) → Prop
  | [] => True
  | e :: older => P e older ∧ Throughout P older

variable {P : Event C K → List (Event C K) → Prop} {history newer older : List (Event C K)}
  {e : Event C K}

theorem Throughout.at (h : Throughout P (newer ++ e :: older)) : P e older := by
  induction newer with
  | nil => exact h.1
  | cons first newer ih => exact ih h.2

theorem Throughout.record {e : Option (Event C K)} (h : Throughout P history)
    (he : ∀ e', e = some e' → P e' history) : Throughout P (e.toList ++ history) := by
  cases e with
  | none => exact h
  | some e' => exact ⟨he e' rfl, h⟩

/-- The newest of the events that bar or free the key has barred it. -/
def BarredIn (key : K) : List (Event C K) → Prop
  | [] => False
  | e :: older => e = .barred key ∨ e ≠ .freed key ∧ BarredIn key older

theorem barredIn_iff {key : K} {history : List (Event C K)} :
    BarredIn key history ↔
      ∃ later older, history = later ++ .barred key :: older ∧ .freed key ∉ later := by
  induction history with
  | nil =>
      constructor
      · exact fun h => absurd h id
      · rintro ⟨later, older, h, -⟩
        cases later <;> cases h
  | cons e history ih =>
      constructor
      · rintro (rfl | ⟨hne, h⟩)
        · exact ⟨[], history, rfl, List.not_mem_nil⟩
        · obtain ⟨later, older, rfl, hfree⟩ := ih.mp h
          refine ⟨e :: later, older, rfl, ?_⟩
          rw [List.mem_cons, not_or]
          exact ⟨fun heq => hne heq.symm, hfree⟩
      · rintro ⟨later, older, h, hfree⟩
        cases later with
        | nil => exact .inl (List.cons.inj h).1
        | cons first later =>
            obtain ⟨rfl, htail⟩ := List.cons.inj h
            rw [List.mem_cons, not_or] at hfree
            exact .inr ⟨fun heq => hfree.1 heq.symm, ih.mpr ⟨later, older, htail, hfree.2⟩⟩

end History

variable [DecidableEq C] [DecidableEq K]

section Failures

/-- The failures counted since the newest event that ends the count. -/
def failuresSince (ends : Event C K → Bool) (counter : C) (key : K) : List (Event C K) → Nat
  | [] => 0
  | e :: older =>
      if ends e then 0
      else failuresSince ends counter key older + if e = .counted counter key then 1 else 0

variable {ends : Event C K → Bool} {counter : C} {key : K} {older : List (Event C K)} {e : Event C K}

theorem failuresSince_ends (h : ends e = true) :
    failuresSince ends counter key (e :: older) = 0 := if_pos h

theorem failuresSince_counted (h : ends (.counted counter key) = false) :
    failuresSince ends counter key (.counted counter key :: older) =
      failuresSince ends counter key older + 1 := by
  simp [failuresSince, h]

theorem failuresSince_other (h : ends e = false) (hne : e ≠ .counted counter key) :
    failuresSince ends counter key (e :: older) = failuresSince ends counter key older := by
  simp [failuresSince, h, hne]

theorem failuresSince_cons_le (h : e ≠ .counted counter key) :
    failuresSince ends counter key (e :: older) ≤ failuresSince ends counter key older := by
  by_cases he : ends e = true
  · rw [failuresSince_ends he]
    exact Nat.zero_le _
  · exact Nat.le_of_eq (failuresSince_other (Bool.eq_false_of_not_eq_true he) h)

theorem failuresSince_le_cons (h : ends e = false) :
    failuresSince ends counter key older ≤ failuresSince ends counter key (e :: older) := by
  by_cases hcounted : e = .counted counter key
  · subst hcounted
    rw [failuresSince_counted h]
    exact Nat.le_succ _
  · exact Nat.le_of_eq (failuresSince_other h hcounted).symm

theorem failuresSince_append {segment : List (Event C K)} (h : ∀ e ∈ segment, ends e = false) :
    failuresSince ends counter key (segment ++ older) =
      segment.count (.counted counter key) + failuresSince ends counter key older := by
  induction segment with
  | nil => exact (Nat.zero_add _).symm
  | cons e segment ih =>
      have hrest := ih (fun e' he' => h e' (List.mem_cons_of_mem e he'))
      by_cases he : e = .counted counter key
      · subst he
        rw [List.cons_append, failuresSince_counted (h _ List.mem_cons_self), hrest,
          List.count_cons_self]
        omega
      · rw [List.cons_append, failuresSince_other (h e List.mem_cons_self) he, hrest,
          List.count_cons_of_ne he]

end Failures

namespace Guard

def setBar (b : Guard C K) (key : K) (bar : Bool) : Guard C K :=
  { b with bars := Function.update b.bars key bar }

def setTally (b : Guard C K) (counter : C) (key : K) (n : Nat) : Guard C K :=
  { b with tally := Function.update b.tally counter (Function.update (b.tally counter) key n) }

def apply (b : Guard C K) : Event C K → Guard C K
  | .tried _ => b
  | .counted counter key => b.setTally counter key (b.tally counter key + 1)
  | .reset counter key => b.setTally counter key 0
  | .barred key => b.setBar key true
  | .freed key => b.setBar key false

def after (b : Guard C K) : Option (Event C K) → Guard C K
  | none => b
  | some e => b.apply e

variable {b : Guard C K} {counter : C} {key : K}

theorem setTally_self (n : Nat) : (b.setTally counter key n).tally counter key = n := by
  simp [setTally]

theorem setTally_of_ne {counter' : C} {key' : K} (h : ¬(counter' = counter ∧ key' = key)) (n : Nat) :
    (b.setTally counter' key' n).tally counter key = b.tally counter key := by
  show Function.update b.tally counter' _ counter key = _
  by_cases hcounter : counter' = counter
  · subst hcounter
    have hkey : key ≠ key' := fun heq => h ⟨rfl, heq.symm⟩
    rw [Function.update_self, Function.update_of_ne hkey]
  · rw [Function.update_of_ne (Ne.symm hcounter)]

theorem apply_tally_of_ne {e : Event C K} (hcounted : e ≠ .counted counter key)
    (hreset : e ≠ .reset counter key) : (b.apply e).tally counter key = b.tally counter key := by
  cases e with
  | tried | barred | freed => rfl
  | counted counter' key' =>
      refine setTally_of_ne ?_ _
      rintro ⟨rfl, rfl⟩
      exact hcounted rfl
  | reset counter' key' =>
      refine setTally_of_ne ?_ _
      rintro ⟨rfl, rfl⟩
      exact hreset rfl

theorem apply_counted_tally :
    (b.apply (.counted counter key)).tally counter key = b.tally counter key + 1 := setTally_self _

theorem apply_reset_tally : (b.apply (.reset counter key)).tally counter key = 0 := setTally_self 0

theorem apply_bars_of_ne {e : Event C K} (hbarred : e ≠ .barred key) (hfreed : e ≠ .freed key) :
    (b.apply e).bars key = b.bars key := by
  cases e with
  | tried | counted | reset => rfl
  | barred key' =>
      refine Function.update_of_ne ?_ _ _
      rintro rfl
      exact hbarred rfl
  | freed key' =>
      refine Function.update_of_ne ?_ _ _
      rintro rfl
      exact hfreed rfl

theorem apply_barred_bars : (b.apply (.barred key)).bars key = true := Function.update_self ..

theorem apply_freed_bars : (b.apply (.freed key)).bars key = false := Function.update_self ..

/-- A key that its history shows to be barred is barred. -/
theorem bars_of_barredIn {e : Option (Event C K)} {older : List (Event C K)}
    (h : BarredIn key older → b.bars key = true) (hin : BarredIn key (e.toList ++ older)) :
    (b.after e).bars key = true := by
  cases e with
  | none => exact h hin
  | some e =>
      by_cases hbarred : e = .barred key
      · rw [hbarred]
        exact apply_barred_bars
      · rcases hin with hin | ⟨hfreed, hin⟩
        · exact absurd hin hbarred
        · exact (apply_bars_of_ne hbarred hfreed).trans (h hin)

section Failures

variable {ends : Event C K → Bool} {e : Event C K} {older : List (Event C K)}

theorem apply_tally_le (h : e ≠ .counted counter key) :
    (b.apply e).tally counter key ≤ b.tally counter key := by
  by_cases hreset : e = .reset counter key
  · rw [hreset, apply_reset_tally]
    exact Nat.zero_le _
  · exact Nat.le_of_eq (apply_tally_of_ne h hreset)

/-- A tally bounds the failures counted since an event that is at least its own reset. -/
theorem failuresSince_le_tally (hends : ends (.reset counter key) = true)
    (h : failuresSince ends counter key older ≤ b.tally counter key) :
    failuresSince ends counter key (e :: older) ≤ (b.apply e).tally counter key := by
  by_cases he : ends e = true
  · rw [failuresSince_ends he]
    exact Nat.zero_le _
  · have he' : ends e = false := Bool.eq_false_of_not_eq_true he
    by_cases hcounted : e = .counted counter key
    · subst hcounted
      rw [failuresSince_counted he', apply_counted_tally]
      omega
    · have hreset : e ≠ .reset counter key := fun heq => he (heq ▸ hends)
      rw [failuresSince_other he' hcounted, apply_tally_of_ne hcounted hreset]
      exact h

/-- Apart from a pending reset a tally holds no more failures than were counted
since an event that is not its reset. -/
theorem tally_le_failuresSince (he : ends e = false)
    (h : b.tally counter key ≤ failuresSince ends counter key older) :
    (b.apply e).tally counter key ≤ failuresSince ends counter key (e :: older) := by
  by_cases hcounted : e = .counted counter key
  · subst hcounted
    rw [failuresSince_counted he, apply_counted_tally]
    omega
  · rw [failuresSince_other he hcounted]
    exact Nat.le_trans (apply_tally_le hcounted) h

end Failures

end Guard

end Library.Breaker
