import Mathlib.Data.List.Nodup
import So4Oracle.Library.Checked

namespace Library.Registry

open Checked

variable {ε σ α κ : Type}

/-- An accepted item that has a key has a new one, which is seen from then on. -/
def Registers (step : σ → α → Except ε σ) (seen : σ → List κ) (key : α → Option κ) : Prop :=
  ∀ s a s', step s a = .ok s' → seen s' = (key a).toList ++ seen s ∧ ∀ k ∈ key a, k ∉ seen s

variable {step : σ → α → Except ε σ} {seen : σ → List κ} {key : α → Option κ}

theorem Registers.step_nodup (h : Registers step seen key) {s s' : σ} {a : α}
    (hstep : step s a = .ok s') (hs : (seen s).Nodup) : (seen s').Nodup := by
  obtain ⟨hseen, hnew⟩ := h s a s' hstep
  rw [hseen]
  cases hkey : key a with
  | none => exact hs
  | some k => exact List.nodup_cons.mpr ⟨hnew k hkey, hs⟩

/-- The keys of accepted items are seen, and no two of them are equal. -/
theorem Registers.run (h : Registers step seen key) {s s' : σ} {l : List α}
    (hrun : l.foldlM step s = .ok s') (hs : (seen s).Nodup) :
    seen s' = (l.filterMap key).reverse ++ seen s ∧ (seen s').Nodup := by
  induction l generalizing s with
  | nil =>
      cases hrun
      exact ⟨rfl, hs⟩
  | cons a l ih =>
      rw [List.foldlM_cons] at hrun
      obtain ⟨t, hstep, hrest⟩ := bind_eq_ok.mp hrun
      obtain ⟨hseen, hnodup⟩ := ih hrest (h.step_nodup hstep hs)
      refine ⟨?_, hnodup⟩
      rw [hseen, (h s a t hstep).1]
      cases hkey : key a with
      | none => rw [List.filterMap_cons_none hkey, Option.toList_none, List.nil_append]
      | some k =>
          rw [List.filterMap_cons_some hkey, List.reverse_cons, List.append_assoc]
          rfl

theorem Registers.nodup (h : Registers step seen key) {s s' : σ} {l : List α}
    (hrun : l.foldlM step s = .ok s') (hs : seen s = []) : (l.filterMap key).Nodup := by
  obtain ⟨hseen, hnodup⟩ := h.run hrun (hs ▸ List.nodup_nil)
  rwa [hseen, hs, List.append_nil, List.nodup_reverse] at hnodup

end Library.Registry
