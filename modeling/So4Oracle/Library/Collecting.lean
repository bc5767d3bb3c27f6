import Mathlib.Data.List.Nodup

namespace Library.Collecting

variable {E N α β : Type}

/-- A value to go on with and the errors met on the way to it. -/
structure Collected (E α : Type) where
  value : α
  errors : List E

instance : Monad (Collected E) where
  pure a := ⟨a, []⟩
  bind x f := ⟨(f x.value).value, x.errors ++ (f x.value).errors⟩

@[simp] theorem value_pure (a : α) : (pure a : Collected E α).value = a := rfl

@[simp] theorem errors_pure (a : α) : (pure a : Collected E α).errors = [] := rfl

@[simp] theorem value_bind (x : Collected E α) (f : α → Collected E β) :
    (x >>= f).value = (f x.value).value := rfl

@[simp] theorem errors_bind (x : Collected E α) (f : α → Collected E β) :
    (x >>= f).errors = x.errors ++ (f x.value).errors := rfl

def collectOrDefault (default : α) : Except E α → Collected E α
  | .ok a => ⟨a, []⟩
  | .error e => ⟨default, [e]⟩

def Collected.result (x : Collected E α) : Except (List E) α :=
  match x.errors with
  | [] => .ok x.value
  | e :: es => .error (e :: es)

theorem result_eq_ok {x : Collected E α} {a : α} :
    x.result = .ok a ↔ x.errors = [] ∧ x.value = a := by
  unfold Collected.result
  split
  next h => simp [h]
  next h => simp [h]

theorem result_eq_error {x : Collected E α} {es : List E} :
    x.result = .error es ↔ es ≠ [] ∧ x.errors = es := by
  unfold Collected.result
  split
  next h =>
    rw [h]
    exact ⟨nofun, fun ⟨hne, heq⟩ => absurd heq.symm hne⟩
  next h =>
    rw [h, Except.error.injEq]
    exact ⟨fun heq => ⟨heq ▸ List.cons_ne_nil _ _, heq⟩, And.right⟩

section Clean

/-- The computation met no error and goes on with this value. -/
def Clean (x : Collected E α) (a : α) : Prop := x.errors = [] ∧ x.value = a

theorem clean_pure {a b : α} : Clean (pure a : Collected E α) b ↔ a = b := by
  simp [Clean]

theorem clean_bind {x : Collected E α} {f : α → Collected E β} {b : β} :
    Clean (x >>= f) b ↔ ∃ a, Clean x a ∧ Clean (f a) b := by
  simp only [Clean, errors_bind, List.append_eq_nil_iff, value_bind]
  constructor
  · rintro ⟨⟨hx, hf⟩, hvalue⟩
    exact ⟨x.value, ⟨hx, rfl⟩, hf, hvalue⟩
  · rintro ⟨a, ⟨hx, rfl⟩, hf, hvalue⟩
    exact ⟨⟨hx, hf⟩, hvalue⟩

theorem clean_collect {default a : α} {r : Except E α} :
    Clean (collectOrDefault default r) a ↔ r = .ok a := by
  cases r <;> simp [Clean, collectOrDefault]

end Clean

section Explains

variable {name : E → N}

/-- The errors are those of the named faults that are there, one each and in
their order. -/
inductive Explains (name : E → N) : List E → List (N × Prop) → Prop
  | nil : Explains name [] []
  | spared {es : List E} {faults : List (N × Prop)} {v : N} {P : Prop} (hP : ¬P)
      (h : Explains name es faults) : Explains name es ((v, P) :: faults)
  | blamed {e : E} {es : List E} {faults : List (N × Prop)} {P : Prop} (hP : P)
      (h : Explains name es faults) : Explains name (e :: es) ((name e, P) :: faults)

variable {es es' : List E} {faults faults' : List (N × Prop)}

theorem Explains.append (h : Explains name es faults) (h' : Explains name es' faults') :
    Explains name (es ++ es') (faults ++ faults') := by
  induction h with
  | nil => exact h'
  | spared hP _ ih => exact .spared hP ih
  | blamed hP _ ih => exact .blamed hP ih

theorem Explains.mem_iff (h : Explains name es faults) {v : N} :
    v ∈ es.map name ↔ ∃ P, (v, P) ∈ faults ∧ P := by
  induction h with
  | nil => simp
  | @spared es faults w Q hQ _ ih =>
      rw [ih]
      constructor
      · rintro ⟨P, hmem, hP⟩
        exact ⟨P, List.mem_cons_of_mem _ hmem, hP⟩
      · rintro ⟨P, hmem, hP⟩
        rcases List.mem_cons.mp hmem with heq | hmem
        · cases heq
          exact absurd hP hQ
        · exact ⟨P, hmem, hP⟩
  | @blamed e es faults Q hQ _ ih =>
      rw [List.map_cons, List.mem_cons, ih]
      constructor
      · rintro (rfl | ⟨P, hmem, hP⟩)
        · exact ⟨Q, List.mem_cons_self, hQ⟩
        · exact ⟨P, List.mem_cons_of_mem _ hmem, hP⟩
      · rintro ⟨P, hmem, hP⟩
        rcases List.mem_cons.mp hmem with heq | hmem
        · cases heq
          exact .inl rfl
        · exact .inr ⟨P, hmem, hP⟩

theorem Explains.sublist (h : Explains name es faults) :
    (es.map name).Sublist (faults.map Prod.fst) := by
  induction h with
  | nil => exact List.Sublist.refl _
  | spared _ _ ih => exact ih.cons _
  | blamed _ _ ih => exact ih.cons_cons _

end Explains

section Judges

variable {name : E → N} {v : N} {P : Prop} {r : Except E α}

/-- The check passes where `P` holds and blames `v` elsewhere. -/
def Judges (name : E → N) (v : N) (P : Prop) : Except E α → Prop
  | .ok _ => P
  | .error e => ¬P ∧ name e = v

theorem Judges.congr {Q : Prop} (h : Judges name v P r) (hPQ : P ↔ Q) : Judges name v Q r :=
  propext hPQ ▸ h

theorem judges_if {c : Prop} [Decidable c] {a : α} {e : E} (h : name e = v) :
    Judges name v (¬c) (if c then .error e else .ok a : Except E α) := by
  by_cases hc : c
  · rw [if_pos hc]
    exact ⟨not_not_intro hc, h⟩
  · rw [if_neg hc]
    exact hc

theorem judges_mapError {F : Type} {r : Except F α} {f : F → E} (h : ∀ e, name (f e) = v) :
    Judges name v (∃ a, r = .ok a) (r.mapError f) := by
  cases r with
  | ok a => exact ⟨a, rfl⟩
  | error e => exact ⟨nofun, h e⟩

/-- Two checks in a row that blame the same name. -/
theorem Judges.bind {f : α → Except E β} {Q : α → Prop} (hr : Judges name v P r)
    (hf : ∀ a, Judges name v (Q a) (f a)) :
    Judges name v (∃ a, r = .ok a ∧ Q a) (r >>= f) := by
  cases r with
  | error e => exact ⟨nofun, hr.2⟩
  | ok a =>
      refine Judges.congr (hf a) ⟨fun hQ => ⟨a, rfl, hQ⟩, ?_⟩
      rintro ⟨b, heq, hQ⟩
      cases heq
      exact hQ

theorem explains_collect {default : α} {Q : Prop} (h : Judges name v P r) (hQ : Q ↔ ¬P) :
    Explains name (collectOrDefault default r).errors [(v, Q)] := by
  cases r with
  | ok a => exact .spared (fun hq => hQ.mp hq h) .nil
  | error e =>
      obtain ⟨hP, rfl⟩ := h
      exact .blamed (hQ.mpr hP) .nil

end Judges

end Library.Collecting
