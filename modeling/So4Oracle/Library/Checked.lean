import Mathlib.Algebra.Order.Group.Unbundled.Int
import Mathlib.Data.Int.Order.Basic
import Mathlib.Data.List.Forall2

namespace Library.Checked

/-- What ends a computation before it returns. -/
inductive Fault
  | overflow
  | indexOutOfBounds
  deriving DecidableEq, Repr

abbrev Panicking (α : Type) := Except Fault α

/-- A computation that returns a value, returns an error, or panics. -/
abbrev Fallible (ε α : Type) := ExceptT ε (Except Fault) α

variable {ε α β : Type}

theorem bind_eq_ok {x : Except ε α} {f : α → Except ε β} {b : β} :
    (x >>= f) = .ok b ↔ ∃ a, x = .ok a ∧ f a = .ok b := by
  constructor
  · intro h
    cases x with
    | error e => cases h
    | ok a => exact ⟨a, rfl, h⟩
  · rintro ⟨a, rfl, h⟩
    exact h

theorem bind_eq_error {x : Except ε α} {f : α → Except ε β} {e : ε} :
    (x >>= f) = .error e ↔ x = .error e ∨ ∃ a, x = .ok a ∧ f a = .error e := by
  cases x with
  | error e' =>
      constructor
      · intro h
        cases h
        exact .inl rfl
      · rintro (h | ⟨a, h, -⟩)
        · cases h
          rfl
        · cases h
  | ok a =>
      constructor
      · intro h
        exact .inr ⟨a, rfl, h⟩
      · rintro (h | ⟨b, h, hb⟩)
        · cases h
        · cases h
          exact hb

theorem pure_eq_ok {a b : α} : (pure a : Except ε α) = .ok b ↔ a = b := by
  constructor
  · intro h
    exact Except.ok.inj h
  · rintro rfl
    rfl

theorem map_eq_ok {x : Except ε α} {f : α → β} {b : β} :
    f <$> x = .ok b ↔ ∃ a, x = .ok a ∧ f a = b := by
  cases x with
  | error e => simp
  | ok a => simp

/-- A guarded value comes with its guard. -/
theorem ite_eq_ok {c : Prop} [Decidable c] {a b : α} {e : ε} :
    (if c then Except.ok a else .error e) = .ok b ↔ a = b ∧ c := by
  by_cases hc : c
  · simp [hc]
  · simp [hc]

theorem eq_ok_of_toOption {x : Except ε α} {a : α} (h : x.toOption = some a) : x = .ok a := by
  cases x with
  | error e => cases h
  | ok b =>
      cases h
      rfl

/-- Two results of which one is a value whenever the other is. -/
theorem both_ok_or_both_error {δ : Type} {x : Except ε α} {y : Except δ β}
    (h : (∃ a, x = .ok a) ↔ ∃ b, y = .ok b) :
    (∃ a b, x = .ok a ∧ y = .ok b) ∨ ∃ e d, x = .error e ∧ y = .error d := by
  cases x with
  | ok a =>
      obtain ⟨b, hb⟩ := h.mp ⟨a, rfl⟩
      exact .inl ⟨a, b, rfl, hb⟩
  | error e =>
      cases y with
      | ok b =>
          obtain ⟨a, ha⟩ := h.mpr ⟨b, rfl⟩
          cases ha
      | error d => exact .inr ⟨e, d, rfl, rfl⟩

/-- Neither an error nor a panic. -/
def Returns (x : Fallible ε α) (a : α) : Prop := x.run = .ok (.ok a)

theorem returns_pure {a b : α} : Returns (pure a : Fallible ε α) b ↔ a = b := by
  constructor
  · intro h
    exact Except.ok.inj (Except.ok.inj h)
  · rintro rfl
    rfl

theorem returns_bind {x : Fallible ε α} {f : α → Fallible ε β} {b : β} :
    Returns (x >>= f) b ↔ ∃ a, Returns x a ∧ Returns (f a) b := by
  constructor
  · intro h
    obtain ⟨r, hr, hb⟩ := bind_eq_ok.mp h
    cases r with
    | error e => cases hb
    | ok a => exact ⟨a, hr, hb⟩
  · rintro ⟨a, ha, hb⟩
    exact bind_eq_ok.mpr ⟨.ok a, ha, hb⟩

theorem returns_lift {x : Panicking α} {a : α} :
    Returns (liftM x : Fallible ε α) a ↔ x = .ok a := by
  constructor
  · intro h
    cases x with
    | error e => cases h
    | ok b =>
        cases h
        rfl
  · rintro rfl
    rfl

def ensure (c : Prop) [Decidable c] (e : ε) : Fallible ε Unit :=
  if c then pure () else throw e

theorem returns_ensure {c : Prop} [Decidable c] {e : ε} {u : Unit} :
    Returns (ensure c e) u ↔ c := by
  by_cases hc : c
  · simp [ensure, hc, returns_pure]
  · simp only [ensure, hc, if_false, iff_false]
    intro h
    cases h

def demand (o : Option α) (e : ε) : Fallible ε α :=
  match o with
  | some a => pure a
  | none => throw e

theorem returns_demand {o : Option α} {e : ε} {a : α} : Returns (demand o e) a ↔ o = some a := by
  cases o with
  | none =>
      constructor
      · intro h
        cases h
      · intro h
        cases h
  | some b => simp [demand, returns_pure]

/-- The computation ends in a fault. -/
def Faults (fault : Fault) (x : Fallible ε α) : Prop := x.run = .error fault

section Faults

variable {fault : Fault}

theorem faults_pure {a : α} : ¬Faults fault (pure a : Fallible ε α) := by
  intro h
  cases h

theorem faults_bind {x : Fallible ε α} {f : α → Fallible ε β} :
    Faults fault (x >>= f) ↔ Faults fault x ∨ ∃ a, Returns x a ∧ Faults fault (f a) := by
  rcases x with fault' | e | a
  · constructor
    · intro h
      cases h
      exact .inl rfl
    · rintro (h | ⟨a, h, -⟩)
      · cases h
        rfl
      · cases h
  · constructor
    · intro h
      cases h
    · rintro (h | ⟨a, h, -⟩)
      · cases h
      · cases h
  · constructor
    · intro h
      exact .inr ⟨a, rfl, h⟩
    · rintro (h | ⟨b, h, hb⟩)
      · cases h
      · cases h
        exact hb

theorem faults_lift {x : Panicking α} :
    Faults fault (liftM x : Fallible ε α) ↔ x = .error fault := by
  cases x with
  | error fault' =>
      constructor
      · intro h
        cases h
        rfl
      · rintro ⟨rfl⟩
        rfl
  | ok a =>
      constructor
      · intro h
        cases h
      · intro h
        cases h

theorem faults_ensure {c : Prop} [Decidable c] {e : ε} : ¬Faults fault (ensure c e) := by
  intro h
  rw [ensure] at h
  split at h
  · cases h
  · cases h

theorem faults_demand {o : Option α} {e : ε} : ¬Faults fault (demand o e) := by
  intro h
  cases o <;> cases h

theorem Returns.not_faults {x : Fallible ε α} {a : α} (h : Returns x a) : ¬Faults fault x := by
  intro hfault
  rw [Faults, show x.run = .ok (.ok a) from h] at hfault
  cases hfault

end Faults

/-- The computation returns a value or ends in this one error; it does not panic. -/
def ReturnsOr (e : ε) (x : Fallible ε α) : Prop := (∃ a, Returns x a) ∨ x = throw e

section ReturnsOr

variable {e : ε}

theorem returnsOr_ensure {c : Prop} [Decidable c] : ReturnsOr e (ensure c e) := by
  by_cases hc : c
  · exact .inl ⟨(), returns_ensure.mpr hc⟩
  · exact .inr (if_neg hc)

theorem returnsOr_demand {o : Option α} : ReturnsOr e (demand o e) := by
  cases o with
  | none => exact .inr rfl
  | some a => exact .inl ⟨a, rfl⟩

theorem returnsOr_lift {x : Panicking α} {a : α} (h : x = .ok a) :
    ReturnsOr e (liftM x : Fallible ε α) := .inl ⟨a, returns_lift.mpr h⟩

theorem ReturnsOr.bind {x : Fallible ε α} {f : α → Fallible ε β} (hx : ReturnsOr e x)
    (hf : ∀ a, Returns x a → ReturnsOr e (f a)) : ReturnsOr e (x >>= f) := by
  rcases hx with ⟨a, ha⟩ | rfl
  · rcases hf a ha with ⟨b, hb⟩ | hthrow
    · exact .inl ⟨b, returns_bind.mpr ⟨a, ha, hb⟩⟩
    · obtain rfl : x = pure a := ha
      exact .inr hthrow
  · exact .inr rfl

end ReturnsOr

/-- Two computations panic alike, fail alike or return related values. -/
def Alike (R : α → β → Prop) (x : Fallible ε α) (y : Fallible ε β) : Prop :=
  match x.run, y.run with
  | .error fault, .error fault' => fault = fault'
  | .ok (.error e), .ok (.error e') => e = e'
  | .ok (.ok a), .ok (.ok b) => R a b
  | _, _ => False

theorem alike_pure {R : α → β → Prop} {a : α} {b : β} :
    Alike R (pure a : Fallible ε α) (pure b) ↔ R a b := Iff.rfl

/-- The two differ only in what follows the same computation. -/
theorem Alike.bind {γ : Type} {R : β → γ → Prop} {x : Fallible ε α} {f : α → Fallible ε β}
    {g : α → Fallible ε γ} (h : ∀ a, Alike R (f a) (g a)) : Alike R (x >>= f) (x >>= g) := by
  rcases x with fault | e | a
  · exact rfl
  · exact rfl
  · exact h a

def returned? (x : Fallible ε α) : Option α :=
  match x.run with
  | .ok (.ok a) => some a
  | _ => none

theorem exists_returns {x : Fallible ε α} {p : α → Bool} (h : (returned? x).any p = true) :
    ∃ a, Returns x a ∧ p a = true := by
  obtain ⟨a, ha, hp⟩ := Option.any_eq_true _ _ |>.mp h
  refine ⟨a, ?_, hp⟩
  rw [returned?] at ha
  split at ha
  next b hb =>
    cases ha
    exact hb
  next => cases ha

def faulted? (x : Fallible ε α) : Option Fault :=
  match x.run with
  | .error fault => some fault
  | .ok _ => none

theorem faults_of_faulted? {x : Fallible ε α} {fault : Fault} (h : faulted? x = some fault) :
    Faults fault x := by
  rw [faulted?] at h
  split at h
  next fault' hfault =>
    cases h
    exact hfault
  next => cases h

/-- What one step of a loop over 1..=n preserves holds after the loop. -/
theorem foldlM_range'_invariant {σ : Type} {P : Nat → σ → Prop} {step : σ → Nat → Panicking σ}
    {n : Nat} {s₀ s : σ} (h : (List.range' 1 n).foldlM step s₀ = .ok s) (h₀ : P 0 s₀)
    (hstep : ∀ k < n, ∀ t u, P k t → step t (k + 1) = .ok u → P (k + 1) u) : P n s := by
  induction n generalizing s with
  | zero =>
      obtain rfl : s₀ = s := pure_eq_ok.mp h
      exact h₀
  | succ n ih =>
      rw [List.range'_concat, List.foldlM_append, bind_eq_ok] at h
      obtain ⟨t, ht, hu⟩ := h
      have hP : P n t := ih ht (fun k hk => hstep k (Nat.lt_succ_of_lt hk))
      rw [List.foldlM_cons, bind_eq_ok] at hu
      obtain ⟨u, hu, hs⟩ := hu
      obtain rfl : u = s := pure_eq_ok.mp hs
      rw [Nat.one_mul, Nat.add_comm 1 n] at hu
      exact hstep n (Nat.lt_succ_self n) t u hP hu

/-- A loop returns when each of its steps does, from what the steps before it left. -/
theorem foldlM_range'_returns {σ : Type} {P : Nat → σ → Prop} {step : σ → Nat → Panicking σ}
    {n : Nat} {s₀ : σ} (h₀ : P 0 s₀)
    (hstep : ∀ k < n, ∀ t, P k t → ∃ u, step t (k + 1) = .ok u ∧ P (k + 1) u) :
    ∃ s, (List.range' 1 n).foldlM step s₀ = .ok s ∧ P n s := by
  induction n with
  | zero => exact ⟨s₀, rfl, h₀⟩
  | succ n ih =>
      obtain ⟨t, ht, hP⟩ := ih (fun k hk => hstep k (Nat.lt_succ_of_lt hk))
      obtain ⟨u, hu, hQ⟩ := hstep n (Nat.lt_succ_self n) t hP
      refine ⟨u, ?_, hQ⟩
      rw [List.range'_concat, List.foldlM_append, ht, Nat.one_mul, Nat.add_comm 1 n]
      show List.foldlM step t [n + 1] = .ok u
      rw [List.foldlM_cons, hu]
      rfl

theorem mapM_eq_ok_iff {f : α → Panicking β} {l : List α} {bs : List β} :
    l.mapM f = .ok bs ↔ List.Forall₂ (fun a b => f a = .ok b) l bs := by
  induction l generalizing bs with
  | nil =>
      rw [List.mapM_nil, pure_eq_ok, List.forall₂_nil_left_iff, eq_comm]
  | cons a l ih =>
      simp only [List.mapM_cons, bind_eq_ok, pure_eq_ok, List.forall₂_cons_left_iff, ih]
      constructor
      · rintro ⟨b, hb, bs, hbs, rfl⟩
        exact ⟨b, bs, hb, hbs, rfl⟩
      · rintro ⟨b, bs, hb, hbs, rfl⟩
        exact ⟨b, hb, bs, hbs, rfl⟩

/-- A function that fails nowhere on a list maps it. -/
theorem mapM_eq_ok {f : α → Panicking β} {g : α → β} {l : List α} (h : ∀ a ∈ l, f a = .ok (g a)) :
    l.mapM f = .ok (l.map g) := by
  rw [mapM_eq_ok_iff, List.forall₂_map_right_iff, List.forall₂_same]
  exact h

section Machine

def i128Min : Int := -(2 ^ 127)

def i128Max : Int := 2 ^ 127 - 1

/-- An arithmetic result in a build with overflow checks. -/
def checked (x : Int) : Panicking Int :=
  if i128Min ≤ x ∧ x ≤ i128Max then .ok x else .error .overflow

theorem checked_eq_error {x : Int} {fault : Fault} :
    checked x = .error fault ↔ fault = .overflow ∧ ¬(i128Min ≤ x ∧ x ≤ i128Max) := by
  by_cases hx : i128Min ≤ x ∧ x ≤ i128Max
  · simp [checked, hx]
  · simp [checked, hx, eq_comm]

theorem checked_eq_ok {x y : Int} : checked x = .ok y ↔ x = y ∧ i128Min ≤ x ∧ x ≤ i128Max :=
  ite_eq_ok

def i64Min : Int := -(2 ^ 63)

def i64Max : Int := 2 ^ 63 - 1

def checkedI64 (x : Int) : Panicking Int :=
  if i64Min ≤ x ∧ x ≤ i64Max then .ok x else .error .overflow

theorem checkedI64_eq_ok {x y : Int} : checkedI64 x = .ok y ↔ x = y ∧ i64Min ≤ x ∧ x ≤ i64Max :=
  ite_eq_ok

def saturate (x : Int) : Int := max i128Min (min i128Max x)

def checkedSub (a b : Nat) : Panicking Nat := if b ≤ a then .ok (a - b) else .error .overflow

theorem checkedSub_of_le {a b : Nat} (h : b ≤ a) : checkedSub a b = .ok (a - b) := if_pos h

def index (l : List α) (i : Nat) : Panicking α :=
  match l[i]? with
  | some a => .ok a
  | none => .error .indexOutOfBounds

theorem index_ne_overflow {l : List α} {i : Nat} : index l i ≠ .error .overflow := by
  intro h
  rw [index] at h
  split at h <;> cases h

theorem index_eq_ok {l : List α} {i : Nat} {a : α} : index l i = .ok a ↔ l[i]? = some a := by
  cases h : l[i]? <;> simp [index, h]

def slice (l : List α) (start stop : Nat) : Panicking (List α) :=
  if start ≤ stop ∧ stop ≤ l.length then .ok ((l.take stop).drop start)
  else .error .indexOutOfBounds

theorem slice_eq_ok {l s : List α} {start stop : Nat} :
    slice l start stop = .ok s ↔
      (l.take stop).drop start = s ∧ start ≤ stop ∧ stop ≤ l.length :=
  ite_eq_ok

end Machine

end Library.Checked
