import Mathlib.Algebra.Group.Nat.Defs
import Mathlib.Algebra.GroupWithZero.Nat
import So4Oracle.Library.Records

namespace Library.Budgets

open Requests Records

variable {Req : Type} {Ans : Req → Type} {α β : Type} {cost : Req → Nat}

/-- Whatever it is answered, the program's requests cost no more than this. -/
def Spends (cost : Req → Nat) : Nat → Program Req Ans α → Prop
  | _, .done _ => True
  | n, .ask q next => cost q ≤ n ∧ ∀ r, Spends cost (n - cost q) (next r)

theorem Spends.mono {p : Program Req Ans α} {m n : Nat} (h : Spends cost m p) (hle : m ≤ n) :
    Spends cost n p := by
  induction p generalizing m n with
  | done a => trivial
  | ask q next ih => exact ⟨Nat.le_trans h.1 hle, fun r => ih r (h.2 r) (Nat.sub_le_sub_right hle _)⟩

theorem Spends.request (q : Req) : Spends cost (cost q) (Program.request q : Program Req Ans _) :=
  ⟨Nat.le_refl _, fun _ => trivial⟩

theorem Spends.bind {p : Program Req Ans α} {f : α → Program Req Ans β} {m n : Nat}
    (hp : Spends cost m p) (hf : ∀ a, Spends cost n (f a)) : Spends cost (m + n) (p >>= f) := by
  induction p generalizing m with
  | done a => exact (hf a).mono (Nat.le_add_left n m)
  | ask q next ih =>
      refine ⟨Nat.le_trans hp.1 (Nat.le_add_right m n), fun r => ?_⟩
      have hnext := ih r (hp.2 r)
      rwa [← Nat.sub_add_comm hp.1] at hnext

/-- The cost of what has been asked so far. -/
theorem Spends.begins {p : Program Req Ans α} {n : Nat} (h : Spends cost n p)
    {tr : List (Event Req Ans)} (hb : Begins p tr) : (tr.map fun e => cost e.request).sum ≤ n := by
  induction hb generalizing n with
  | here p => exact Nat.zero_le n
  | ask q r _ ih =>
      have hrest := ih (h.2 r)
      rw [List.map_cons, List.sum_cons, ← Nat.add_sub_cancel' h.1]
      exact Nat.add_le_add_left hrest _

end Library.Budgets
