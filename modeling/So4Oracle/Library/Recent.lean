import Mathlib.Data.List.DropRight
import Mathlib.Data.List.Induction

namespace Library.Recent

variable {α β σ : Type} {n : Nat}

theorem rtake_of_length_le {l : List α} (h : l.length ≤ n) : l.rtake n = l := by
  rw [List.rtake, Nat.sub_eq_zero_of_le h, List.drop_zero]

theorem length_rtake_le (l : List α) : (l.rtake n).length ≤ n := by
  rw [List.rtake, List.length_drop]
  omega

theorem rtake_rtake_append (l m : List α) : (l.rtake n ++ m).rtake n = (l ++ m).rtake n := by
  simp only [List.rtake_eq_reverse_take_reverse, List.reverse_append, List.reverse_reverse,
    List.take_append, List.length_reverse, List.take_take]
  rw [Nat.min_eq_left (Nat.sub_le n m.length)]

/-- The list keeps the last n of what the events report. -/
structure Keeps (n : Nat) (I : σ → Prop) (step : σ → β → σ) (items : σ → List α)
    (report : β → Option α) : Prop where
  invariant : ∀ s b, I s → I (step s b)
  recorded : ∀ s b, I s → items (step s b) = (items s ++ (report b).toList).rtake n

variable {I : σ → Prop} {step : σ → β → σ} {items : σ → List α} {report : β → Option α}

theorem Keeps.foldl (h : Keeps n I step items report) {s : σ} (hs : I s)
    (hlength : (items s).length ≤ n) (events : List β) :
    I (events.foldl step s) ∧
      items (events.foldl step s) = (items s ++ events.filterMap report).rtake n := by
  induction events using List.reverseRecOn with
  | nil =>
      refine ⟨hs, ?_⟩
      rw [List.foldl_nil, List.filterMap_nil, List.append_nil, rtake_of_length_le hlength]
  | append_singleton events b ih =>
      obtain ⟨hinv, hitems⟩ := ih
      rw [List.foldl_concat]
      refine ⟨h.invariant _ b hinv, ?_⟩
      have hlast : [b].filterMap report = (report b).toList := by
        cases hreport : report b <;> simp [hreport]
      rw [h.recorded _ b hinv, hitems, rtake_rtake_append, List.filterMap_append, hlast,
        List.append_assoc]

end Library.Recent
