import Mathlib.Data.Finset.Card
import Mathlib.Data.Finset.Max
import Mathlib.Order.Interval.Finset.Nat

namespace Library.Windows

section Sweep

variable (bad : Nat → Nat → Prop) (spread : Nat → Nat → Int)

/-- The start that a left-to-right sweep keeps for position e: positions i and e
may share a window unless `bad i e`. The window itself is `(start, e + 1)`. -/
structure Swept (start e : Nat) : Prop where
  bound : start ≤ e
  fits : ¬bad start e
  least : ∀ i < start, bad i e

def size (w : Nat × Nat) : Nat := w.2 - w.1

def width (w : Nat × Nat) : Int := spread w.1 (w.2 - 1)

structure Fits (w : Nat × Nat) : Prop where
  nonempty : w.1 < w.2
  fits : ¬bad w.1 (w.2 - 1)

/-- Larger windows come first, then narrower ones, then earlier ones. -/
def Outranks (b w : Nat × Nat) : Prop :=
  size w < size b ∨
    size w = size b ∧ (width spread b < width spread w ∨
      width spread b = width spread w ∧ b.1 ≤ w.1)

def Improves (c b : Nat × Nat) : Prop :=
  size b < size c ∨ size c = size b ∧ width spread c < width spread b

instance (c b : Nat × Nat) : Decidable (Improves spread c b) :=
  inferInstanceAs (Decidable (_ ∨ _))

/-- The best window among those that end within the first n positions. -/
structure Best (n : Nat) (b : Nat × Nat) : Prop where
  fits : Fits bad b
  bound : b.2 ≤ n
  outranks : ∀ w, Fits bad w → w.2 ≤ n → Outranks spread b w

variable {bad spread}

theorem Outranks.refl (w : Nat × Nat) : Outranks spread w w :=
  .inr ⟨rfl, .inr ⟨rfl, le_rfl⟩⟩

theorem Outranks.trans {a b c : Nat × Nat} (hab : Outranks spread a b)
    (hbc : Outranks spread b c) : Outranks spread a c := by
  unfold Outranks at *
  omega

theorem Outranks.size_le {b w : Nat × Nat} (h : Outranks spread b w) : size w ≤ size b := by
  rcases h with h | ⟨h, -⟩
  · exact h.le
  · exact h.le

theorem outranks_of_improves {c b : Nat × Nat} (h : Improves spread c b) : Outranks spread c b := by
  rcases h with h | ⟨h, hw⟩
  · exact .inl h
  · exact .inr ⟨h.symm, .inl hw⟩

/-- A window that comes later and does not improve on b is outranked by it. -/
theorem outranks_of_not_improves {c b : Nat × Nat} (h : ¬Improves spread c b)
    (hb : b.1 < b.2) (hbc : b.2 ≤ c.2) : Outranks spread b c := by
  unfold Improves Outranks size at *
  omega

theorem Swept.zero (hrefl : ¬bad 0 0) : Swept bad 0 0 :=
  ⟨le_rfl, hrefl, fun i hi => absurd hi (Nat.not_lt_zero i)⟩

theorem Swept.fitting {start e : Nat} (h : Swept bad start e) : Fits bad (start, e + 1) :=
  ⟨Nat.lt_succ_of_le h.bound, h.fits⟩

/-- The sweep never has to move its start back. -/
theorem Swept.advance {start start' e : Nat} (h : Swept bad start e)
    (hmono : ∀ i ≤ e, bad i e → bad i (e + 1)) (hrefl : ¬bad (e + 1) (e + 1))
    (hfits : ¬bad start' (e + 1)) (hpassed : ∀ i, start ≤ i → i < start' → bad i (e + 1)) :
    Swept bad start' (e + 1) := by
  have hbound : start' ≤ e + 1 := by
    by_contra hlt
    exact hrefl (hpassed (e + 1) (h.bound.trans (Nat.le_succ e)) (not_le.mp hlt))
  refine ⟨hbound, hfits, fun i hi => ?_⟩
  by_cases his : start ≤ i
  · exact hpassed i his hi
  · rw [not_le] at his
    exact hmono i (his.le.trans h.bound) (h.least i his)

theorem Swept.outranks {start e : Nat} (h : Swept bad start e) {w : Nat × Nat}
    (hw : Fits bad w) (he : w.2 = e + 1) : Outranks spread (start, e + 1) w := by
  obtain ⟨i, j⟩ := w
  obtain rfl : j = e + 1 := he
  have hi : start ≤ i := by
    by_contra hlt
    exact hw.fits (h.least i (not_le.mp hlt))
  rcases hi.eq_or_lt with rfl | hlt
  · exact .refl _
  · have hij := hw.nonempty
    refine .inl ?_
    simp only [size] at hij ⊢
    omega

theorem Best.one {start : Nat} (h : Swept bad start 0) : Best bad spread 1 (start, 1) := by
  refine ⟨h.fitting, le_rfl, fun w hw hn => ?_⟩
  have hpos := hw.nonempty
  exact h.outranks hw (by omega)

theorem Best.step {start n : Nat} {b : Nat × Nat} (hb : Best bad spread n b)
    (h : Swept bad start n) :
    Best bad spread (n + 1)
      (if Improves spread (start, n + 1) b then (start, n + 1) else b) := by
  have hold : ∀ w, Fits bad w → w.2 ≤ n + 1 →
      Outranks spread b w ∨ Outranks spread (start, n + 1) w := by
    intro w hw hn
    rcases hn.lt_or_eq with hlt | heq
    · exact .inl (hb.outranks w hw (Nat.le_of_lt_succ hlt))
    · exact .inr (h.outranks hw heq)
  split
  next himp =>
    refine ⟨h.fitting, le_rfl, fun w hw hn => ?_⟩
    rcases hold w hw hn with ho | ho
    · exact (outranks_of_improves himp).trans ho
    · exact ho
  next himp =>
    refine ⟨hb.fits, hb.bound.trans (Nat.le_succ n), fun w hw hn => ?_⟩
    rcases hold w hw hn with ho | ho
    · exact ho
    · exact (outranks_of_not_improves himp hb.fits.nonempty (hb.bound.trans (Nat.le_succ n))).trans ho

/-- Two windows that outrank each other are one. -/
theorem Best.unique {n : Nat} {b c : Nat × Nat} (hb : Best bad spread n b)
    (hc : Best bad spread n c) : b = c := by
  have hbc := hb.outranks c hc.fits hc.bound
  have hcb := hc.outranks b hb.fits hb.bound
  have hbpos := hb.fits.nonempty
  have hcpos := hc.fits.nonempty
  unfold Outranks size at hbc hcb
  apply Prod.ext
  · omega
  · omega

end Sweep

section Subset

variable {α : Type} [DecidableEq α]

/-- A subset of a list lies in the window from its first to its last member. -/
theorem exists_enclosing {s : List α} {H : Finset α} (hH : ∀ a ∈ H, a ∈ s) (hne : H.Nonempty) :
    ∃ i j, ∃ a ∈ H, ∃ b ∈ H, s[i]? = some a ∧ s[j]? = some b ∧ i ≤ j ∧
      ∀ c ∈ H, ∃ k : Nat, i ≤ k ∧ k ≤ j ∧ s[k]? = some c := by
  obtain ⟨a, ha, hmin⟩ := H.exists_min_image s.idxOf hne
  obtain ⟨b, hb, hmax⟩ := H.exists_max_image s.idxOf hne
  have hget : ∀ c ∈ H, s[s.idxOf c]? = some c := fun c hc => List.getElem?_idxOf (hH c hc)
  exact ⟨s.idxOf a, s.idxOf b, a, ha, b, hb, hget a ha, hget b hb, hmin b hb,
    fun c hc => ⟨s.idxOf c, hmin c hc, hmax c hc, hget c hc⟩⟩

theorem card_le_enclosing {s : List α} {H : Finset α} {i j : Nat}
    (h : ∀ c ∈ H, ∃ k : Nat, i ≤ k ∧ k ≤ j ∧ s[k]? = some c) : H.card ≤ j + 1 - i := by
  have hsub : H.image some ⊆ (Finset.Icc i j).image fun k => s[k]? := by
    intro o ho
    obtain ⟨c, hc, rfl⟩ := Finset.mem_image.mp ho
    obtain ⟨k, hlo, hhi, hk⟩ := h c hc
    exact Finset.mem_image.mpr ⟨k, Finset.mem_Icc.mpr ⟨hlo, hhi⟩, hk⟩
  calc
    H.card = (H.image some).card := (Finset.card_image_of_injective H (Option.some_injective _)).symm
    _ ≤ ((Finset.Icc i j).image fun k => s[k]?).card := Finset.card_le_card hsub
    _ ≤ (Finset.Icc i j).card := Finset.card_image_le
    _ = j + 1 - i := Nat.card_Icc i j

end Subset

end Library.Windows
