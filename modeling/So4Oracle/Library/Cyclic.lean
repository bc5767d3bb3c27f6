import Mathlib.Data.List.Rotate

namespace Library.Cyclic

/-- Consecutive values of a counter modulo n. -/
def Counts (n : Nat) (xs : List Nat) : Prop := xs.IsChain fun a b => b = (a + 1) % n

theorem Counts.getElem_eq {n : Nat} {xs : List Nat} (h : Counts n xs) (hlt : ∀ x ∈ xs, x < n)
    {i : Nat} (hi : i < xs.length) : xs[i] = (xs[0] + i) % n := by
  induction i with
  | zero => exact (Nat.mod_eq_of_lt (hlt _ (List.getElem_mem _))).symm
  | succ i ih =>
      have hstep := List.isChain_iff_getElem.mp h i hi
      rw [hstep, ih (Nat.lt_of_succ_lt hi), Nat.mod_add_mod, Nat.add_assoc]

/-- A counter modulo n that is read n times takes every value once. -/
theorem Counts.perm_range {n : Nat} {xs : List Nat} (h : Counts n xs) (hlt : ∀ x ∈ xs, x < n)
    (hlen : xs.length = n) : xs.Perm (List.range n) := by
  rcases Nat.eq_zero_or_pos n with hz | hpos
  · obtain rfl : xs = [] := List.length_eq_zero_iff.mp (hlen.trans hz)
    subst hz
    exact .nil
  · have hfirst : 0 < xs.length := hlen ▸ hpos
    have hrotate : xs = (List.range n).rotate xs[0] := by
      apply List.ext_getElem
      · rw [List.length_rotate, List.length_range, hlen]
      · intro i hi _
        rw [h.getElem_eq hlt hi, List.getElem_rotate, List.getElem_range, List.length_range,
          Nat.add_comm]
    rw [hrotate]
    exact List.rotate_perm _ _

end Library.Cyclic
