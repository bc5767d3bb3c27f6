import Mathlib.Algebra.Group.Nat.Defs
import Mathlib.Order.Basic
import Mathlib.Tactic.Common

namespace Library.FixedWindow

/-- A limiter of failures: so many of them within one window bar a client. -/
structure Limits where
  budget : Nat
  length : Nat

structure Window where
  opened : Nat
  failures : Nat
  deriving DecidableEq, Repr

/-- What one client does. -/
inductive Event
  | failed (time : Nat)
  | succeeded
  deriving DecidableEq, Repr

section Reference

variable (limits : Limits)

def Window.Open (now : Nat) (w : Window) : Prop := now - w.opened < limits.length

instance (now : Nat) (w : Window) : Decidable (w.Open limits now) :=
  inferInstanceAs (Decidable (_ < _))

/-- A failure counts in the open window, or opens one. -/
def counted (now : Nat) : Option Window → Window
  | none => ⟨now, 1⟩
  | some w => if w.Open limits now then { w with failures := w.failures + 1 } else ⟨now, 1⟩

def record (w : Option Window) : Event → Option Window
  | .failed time => some (counted limits time w)
  | .succeeded => none

/-- The window of a client that has done all this. -/
def windowAfter (events : List Event) : Option Window := events.foldl (record limits) none

def blocks (w : Option Window) (now : Nat) : Bool :=
  w.any fun w => decide (limits.budget ≤ w.failures) && decide (w.Open limits now)

def blocked (events : List Event) (now : Nat) : Bool := blocks limits (windowAfter limits events) now

@[simp] theorem windowAfter_nil : windowAfter limits [] = none := rfl

@[simp] theorem windowAfter_append (events : List Event) (e : Event) :
    windowAfter limits (events ++ [e]) = record limits (windowAfter limits events) e := by
  simp [windowAfter]

end Reference

section Tracking

variable {limits : Limits} {cap now : Nat} {entry w : Option Window}

theorem Window.Open.earlier {w : Window} {later : Nat} (h : w.Open limits later)
    (hle : now ≤ later) : w.Open limits now :=
  Nat.lt_of_le_of_lt (Nat.sub_le_sub_right hle w.opened) h

theorem open_congr {e w : Window} (h : e.opened = w.opened) :
    e.Open limits now ↔ w.Open limits now := by
  unfold Window.Open
  rw [h]

/-- What a table may hold for a client: nothing once the window is over, and a
count that stops at a cap. -/
def Tracks (limits : Limits) (cap now : Nat) : Option Window → Option Window → Prop
  | some e, some w => e.opened = w.opened ∧ e.failures = min w.failures cap
  | some _, none => False
  | none, some w => ¬w.Open limits now
  | none, none => True

theorem Tracks.le_cap {e : Window} (h : Tracks limits cap now (some e) w) : e.failures ≤ cap := by
  cases w with
  | none => exact h.elim
  | some w => exact h.2 ▸ Nat.min_le_right _ _

theorem Tracks.mono {later : Nat} (h : Tracks limits cap now entry w) (hle : now ≤ later) :
    Tracks limits cap later entry w := by
  cases w with
  | none => cases entry <;> exact h
  | some w =>
      cases entry with
      | none => exact fun hopen => h (hopen.earlier hle)
      | some e => exact h

/-- An entry whose window is over may be dropped. -/
theorem Tracks.drop (h : Tracks limits cap now entry w) :
    Tracks limits cap now (entry.filter fun e => decide (e.Open limits now)) w := by
  cases entry with
  | none => exact h
  | some e =>
      cases w with
      | none => exact h.elim
      | some w =>
          by_cases hopen : e.Open limits now
          · rw [Option.filter_some_pos (by simpa using hopen)]
            exact h
          · rw [Option.filter_some_neg (by simpa using hopen)]
            exact fun hw => hopen ((open_congr h.1).mpr hw)

theorem Tracks.succeeded : Tracks limits cap now none none := trivial

/-- A failure counts up to the cap, in both or in neither open window. -/
theorem Tracks.failed (h : Tracks limits cap now entry w) :
    Tracks limits cap now
      (some { counted limits now entry with
        failures := min (counted limits now entry).failures cap })
      (some (counted limits now w)) := by
  cases entry with
  | none =>
      cases w with
      | none => exact ⟨rfl, rfl⟩
      | some w =>
          have hw : counted limits now (some w) = ⟨now, 1⟩ := if_neg h
          rw [hw]
          exact ⟨rfl, rfl⟩
  | some e =>
      cases w with
      | none => exact h.elim
      | some w =>
          obtain ⟨hopened, hfailures⟩ := h
          by_cases hopen : w.Open limits now
          · simp only [counted, if_pos hopen, if_pos ((open_congr hopened).mpr hopen)]
            refine ⟨hopened, ?_⟩
            dsimp only
            omega
          · have hentry : ¬e.Open limits now := fun he => hopen ((open_congr hopened).mp he)
            simp only [counted, if_neg hopen, if_neg hentry]
            exact ⟨rfl, rfl⟩

/-- Neither the dropped entries nor the cap can be told from the answers. -/
theorem Tracks.blocks_eq (hcap : limits.budget ≤ cap) (h : Tracks limits cap now entry w) :
    blocks limits entry now = blocks limits w now := by
  cases entry with
  | none =>
      cases w with
      | none => rfl
      | some w => simp [blocks, show ¬w.Open limits now from h]
  | some e =>
      cases w with
      | none => exact h.elim
      | some w =>
          obtain ⟨hopened, hfailures⟩ := h
          have hbudget : limits.budget ≤ e.failures ↔ limits.budget ≤ w.failures := by omega
          simp only [blocks, Option.any_some, hbudget, open_congr hopened]

end Tracking

end Library.FixedWindow
