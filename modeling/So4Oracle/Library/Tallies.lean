import Mathlib.Data.List.Basic
import Mathlib.Data.List.Induction
import Std.Data.TreeMap.Lemmas

namespace Library.Tallies

variable {κ α : Type} [Ord κ] [Std.TransOrd κ] [Std.LawfulEqOrd κ]

/-- Counters by key; a key without an entry counts zero. -/
abbrev Tally (κ : Type) [Ord κ] := Std.TreeMap κ Nat

def Tally.count (t : Tally κ) (k : κ) : Nat := t.getD k 0

def Tally.bump (t : Tally κ) (k : κ) : Tally κ := t.insert k (t.count k + 1)

variable [DecidableEq κ] {t : Tally κ} {k : κ}

theorem count_bump (t : Tally κ) (k k' : κ) :
    (t.bump k).count k' = t.count k' + if k = k' then 1 else 0 := by
  by_cases h : k = k'
  · subst h
    simp [Tally.bump, Tally.count]
  · rw [if_neg h, Nat.add_zero, Tally.bump, Tally.count, Std.TreeMap.getD_insert, if_neg, Tally.count]
    exact fun heq => h (Std.LawfulEqCmp.eq_of_compare heq)

/-- Every event bumps the counter of its key, or none. -/
def Counts {σ : Type} (step : σ → α → σ) (tally : σ → Tally κ) (key : α → Option κ) : Prop :=
  ∀ s a, tally (step s a) = (key a).elim (tally s) (tally s).bump

/-- The counters that a run of events leaves. -/
theorem Counts.foldl {σ : Type} {step : σ → α → σ} {tally : σ → Tally κ} {key : α → Option κ}
    (h : Counts step tally key) (s : σ) (events : List α) (k : κ) :
    (tally (events.foldl step s)).count k =
      (tally s).count k + events.countP fun a => decide (key a = some k) := by
  induction events using List.reverseRecOn with
  | nil => rfl
  | append_singleton events a ih =>
      rw [List.foldl_concat, h, List.countP_append, List.countP_singleton]
      cases hkey : key a with
      | none =>
          rw [Option.elim_none, ih, if_neg (by simp), Nat.add_zero]
      | some k' =>
          rw [Option.elim_some, count_bump, ih, Nat.add_assoc]
          simp [Option.some.injEq]

end Library.Tallies
