import So4Oracle.Library.Safety

namespace Library.Strategies

open Requests Safety

variable {Req : Type} {Ans : Req → Type} {W α β : Type}

/-- How the surroundings answer a request, given what was asked and answered
before it. A request may stay without an answer. -/
abbrev Strategy (Req : Type) (Ans : Req → Type) :=
  List (Event Req Ans) → (q : Req) → Option (Ans q)

/-- The result of a program against a strategy, with all that was asked and answered. -/
def against (answer : Strategy Req Ans) :
    Program Req Ans α → List (Event Req Ans) → Option (α × List (Event Req Ans))
  | .done a, past => some (a, past)
  | .ask q next, past =>
      match answer past q with
      | none => none
      | some r => against answer (next r) (past ++ [⟨q, r⟩])

def outcome (answer : Strategy Req Ans) (p : Program Req Ans α) : Option α :=
  (against answer p []).map Prod.fst

variable {answer other : Strategy Req Ans} {p : Program Req Ans α} {past tr : List (Event Req Ans)}
  {a : α}

/-- Only the answers to requests that the program can make count. -/
theorem against_congr {P : Req → Prop} (hp : p.Asks P)
    (h : ∀ past q, P q → answer past q = other past q) :
    against answer p past = against other p past := by
  induction p generalizing past with
  | done a => rfl
  | ask q next ih =>
      rw [against, against, h past q hp.1]
      cases other past q with
      | none => rfl
      | some r => exact ih r (hp.2 r)

theorem outcome_congr {P : Req → Prop} (hp : p.Asks P)
    (h : ∀ past q, P q → answer past q = other past q) : outcome answer p = outcome other p := by
  rw [outcome, outcome, against_congr hp h]

theorem runs_of_against {result : α × List (Event Req Ans)}
    (h : against answer p past = some result) :
    ∃ tr, result.2 = past ++ tr ∧ Runs p tr result.1 := by
  induction p generalizing past with
  | done a =>
      cases h
      exact ⟨[], (List.append_nil past).symm, .done a⟩
  | ask q next ih =>
      rw [against] at h
      split at h
      next => cases h
      next r hr =>
        obtain ⟨tr, htr, hruns⟩ := ih r h
        refine ⟨⟨q, r⟩ :: tr, ?_, .ask q r hruns⟩
        rw [htr, List.append_assoc, List.singleton_append]

theorem runs_of_outcome (h : outcome answer p = some a) : ∃ tr, Runs p tr a := by
  obtain ⟨result, hresult, rfl⟩ := Option.map_eq_some_iff.mp h
  obtain ⟨tr, -, hruns⟩ := runs_of_against hresult
  exact ⟨tr, hruns⟩

/-- A check of an evaluated run is one of a run. -/
theorem exists_runs (check : α → List (Event Req Ans) → Bool)
    (h : (against answer p []).any (fun result => check result.1 result.2) = true) :
    ∃ tr a, Runs p tr a ∧ check a tr = true := by
  obtain ⟨result, hresult, hcheck⟩ := Option.any_eq_true _ _ |>.mp h
  obtain ⟨tr, htr, hruns⟩ := runs_of_against hresult
  rw [htr, List.nil_append] at hcheck
  exact ⟨tr, result.1, hruns, hcheck⟩

open Classical in
/-- The strategy that answers as the trace does. -/
noncomputable def replay (tr : List (Event Req Ans)) : Strategy Req Ans := fun past q =>
  if h : ∃ r, past ++ [⟨q, r⟩] <+: tr then some h.choose else none

theorem replay_eq {q : Req} {r : Ans q} (h : past ++ [⟨q, r⟩] <+: tr) :
    replay tr past q = some r := by
  have hex : ∃ r, past ++ [⟨q, r⟩] <+: tr := ⟨r, h⟩
  rw [replay, dif_pos hex]
  have hsame := List.prefix_of_prefix_length_le hex.choose_spec h (by simp)
  have hlast := List.append_cancel_left (hsame.eq_of_length (by simp))
  cases (List.cons.inj hlast).1
  rfl

theorem against_replay (h : Runs p tr a) :
    against (replay (past ++ tr)) p past = some (a, past ++ tr) := by
  induction h generalizing past with
  | done a =>
      rw [List.append_nil]
      rfl
  | ask q r h ih =>
      rename_i next tr a
      have hsplit : past ++ ⟨q, r⟩ :: tr = past ++ [⟨q, r⟩] ++ tr := by
        rw [List.append_assoc, List.singleton_append]
      rw [hsplit, against, replay_eq (List.prefix_append _ tr)]
      exact ih

/-- Every run is a run against a strategy. -/
theorem outcome_replay (h : Runs p tr a) : outcome (replay tr) p = some a := by
  have hagainst : against (replay ([] ++ tr)) p [] = some (a, [] ++ tr) := against_replay h
  rw [List.nil_append] at hagainst
  rw [outcome, hagainst]
  rfl

theorem runs_of_finishes {S : Surroundings Req Ans W} {w v : W} (h : Finishes S p w a v) :
    ∃ tr, Runs p tr a := by
  induction h with
  | done a w => exact ⟨[], .done a⟩
  | answer _ _ _ ih =>
      obtain ⟨tr, hruns⟩ := ih
      exact ⟨_, .ask _ _ hruns⟩

end Library.Strategies
