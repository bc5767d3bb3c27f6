import Mathlib.Logic.Relation

namespace Library.Requests

/-- A sequential program that stops at every request and resumes with the
answer. Lock-protected sections, clock readings and remote calls are all
requests, so the rest of the world can move between any two of them. -/
inductive Program (Req : Type) (Ans : Req → Type) (α : Type) : Type
  | done (a : α)
  | ask (q : Req) (next : Ans q → Program Req Ans α)

namespace Program

variable {Req : Type} {Ans : Req → Type} {α β γ : Type}

protected def bind : Program Req Ans α → (α → Program Req Ans β) → Program Req Ans β
  | done a, f => f a
  | ask q next, f => ask q (fun r => (next r).bind f)

instance : Monad (Program Req Ans) where
  pure := done
  bind := Program.bind

def request (q : Req) : Program Req Ans (Ans q) := ask q done

@[simp] theorem pure_eq (a : α) : (pure a : Program Req Ans α) = done a := rfl

@[simp] theorem done_bind (a : α) (f : α → Program Req Ans β) : (done a >>= f) = f a := rfl

@[simp] theorem ask_bind (q : Req) (next : Ans q → Program Req Ans α) (f : α → Program Req Ans β) :
    (ask q next >>= f) = ask q (fun r => next r >>= f) := rfl

@[simp] theorem request_bind (q : Req) (f : Ans q → Program Req Ans β) :
    (request q >>= f) = ask q f := rfl

@[simp] theorem bind_done (p : Program Req Ans α) : (p >>= done) = p := by
  induction p with
  | done a => rfl
  | ask q next ih => exact congrArg (ask q) (funext ih)

@[simp] theorem bind_assoc (p : Program Req Ans α) (f : α → Program Req Ans β)
    (g : β → Program Req Ans γ) : ((p >>= f) >>= g) = (p >>= fun a => f a >>= g) := by
  induction p with
  | done a => rfl
  | ask q next ih => exact congrArg (ask q) (funext ih)

/-- Every request the program can make, whatever it was answered before. -/
def Asks (P : Req → Prop) : Program Req Ans α → Prop
  | done _ => True
  | ask q next => P q ∧ ∀ r, (next r).Asks P

@[simp] theorem asks_done (P : Req → Prop) (a : α) : (done a : Program Req Ans α).Asks P := trivial

@[simp] theorem asks_ask (P : Req → Prop) (q : Req) (next : Ans q → Program Req Ans α) :
    (ask q next).Asks P ↔ P q ∧ ∀ r, (next r).Asks P := Iff.rfl

theorem Asks.bind {P : Req → Prop} {p : Program Req Ans α} {f : α → Program Req Ans β}
    (hp : p.Asks P) (hf : ∀ a, (f a).Asks P) : (p >>= f).Asks P := by
  induction p with
  | done a => exact hf a
  | ask q next ih => exact ⟨hp.1, fun r => ih r (hp.2 r)⟩

theorem Asks.mono {P R : Req → Prop} {p : Program Req Ans α} (hp : p.Asks P)
    (h : ∀ q, P q → R q) : p.Asks R := by
  induction p with
  | done a => trivial
  | ask q next ih => exact ⟨h q hp.1, fun r => ih r (hp.2 r)⟩

end Program

structure Event (Req : Type) (Ans : Req → Type) where
  request : Req
  answer : Ans request

variable {Req : Type} {Ans : Req → Type} {α β : Type}

/-- A complete run, with the requests it made and the answers it received. -/
inductive Runs : Program Req Ans α → List (Event Req Ans) → α → Prop
  | done (a : α) : Runs (.done a) [] a
  | ask (q : Req) (r : Ans q) {next : Ans q → Program Req Ans α} {tr a} (h : Runs (next r) tr a) :
      Runs (.ask q next) (⟨q, r⟩ :: tr) a

@[simp] theorem runs_done {a b : α} {tr : List (Event Req Ans)} :
    Runs (.done a) tr b ↔ tr = [] ∧ b = a := by
  constructor
  · intro h
    cases h
    exact ⟨rfl, rfl⟩
  · rintro ⟨rfl, rfl⟩
    exact .done _

theorem runs_ask {q : Req} {next : Ans q → Program Req Ans α} {tr : List (Event Req Ans)} {a : α} :
    Runs (.ask q next) tr a ↔ ∃ r rest, tr = ⟨q, r⟩ :: rest ∧ Runs (next r) rest a := by
  constructor
  · intro h
    cases h with
    | ask _ r h => exact ⟨r, _, rfl, h⟩
  · rintro ⟨r, rest, rfl, h⟩
    exact .ask q r h

theorem runs_request_bind {q : Req} {f : Ans q → Program Req Ans β} {tr : List (Event Req Ans)}
    {b : β} :
    Runs (Program.request q >>= f) tr b ↔ ∃ r rest, tr = ⟨q, r⟩ :: rest ∧ Runs (f r) rest b :=
  runs_ask

theorem runs_bind {p : Program Req Ans α} {f : α → Program Req Ans β}
    {tr : List (Event Req Ans)} {b : β} :
    Runs (p >>= f) tr b ↔ ∃ first a rest, tr = first ++ rest ∧ Runs p first a ∧ Runs (f a) rest b := by
  induction p generalizing tr with
  | done a =>
      simp only [Program.done_bind, runs_done]
      constructor
      · exact fun h => ⟨[], a, tr, rfl, ⟨rfl, rfl⟩, h⟩
      · rintro ⟨_, _, rest, rfl, ⟨rfl, rfl⟩, h⟩
        exact h
  | ask q next ih =>
      simp only [Program.ask_bind, runs_ask, ih]
      constructor
      · rintro ⟨r, _, rfl, first, a, rest, rfl, hp, hf⟩
        exact ⟨⟨q, r⟩ :: first, a, rest, rfl, ⟨r, first, rfl, hp⟩, hf⟩
      · rintro ⟨_, a, rest, rfl, ⟨r, first, rfl, hp⟩, hf⟩
        exact ⟨r, first ++ rest, rfl, first, a, rest, rfl, hp, hf⟩

/-- Of two runs along one list of events neither is longer. -/
theorem Runs.prefix_unique {p : Program Req Ans α} {s t x y : List (Event Req Ans)} {a b : α}
    (h : Runs p s a) (h' : Runs p t b) (heq : s ++ x = t ++ y) : s = t ∧ a = b := by
  induction h generalizing t with
  | done a =>
      obtain ⟨rfl, rfl⟩ := runs_done.mp h'
      exact ⟨rfl, rfl⟩
  | ask q r h ih =>
      obtain ⟨r', rest, rfl, hrest⟩ := runs_ask.mp h'
      obtain ⟨hevent, htail⟩ := List.cons.inj heq
      cases hevent
      obtain ⟨rfl, rfl⟩ := ih hrest htail
      exact ⟨rfl, rfl⟩

theorem Runs.unique {p : Program Req Ans α} {tr : List (Event Req Ans)} {a b : α}
    (h : Runs p tr a) (h' : Runs p tr b) : a = b :=
  (h.prefix_unique h' (rfl : tr ++ [] = tr ++ [])).2

theorem Runs.asks {P : Req → Prop} {p : Program Req Ans α} {tr : List (Event Req Ans)} {a : α}
    (h : Runs p tr a) (hp : p.Asks P) : ∀ e ∈ tr, P e.request := by
  induction h with
  | done a => simp
  | ask q r h ih =>
      intro e he
      rcases List.mem_cons.mp he with rfl | he
      · exact hp.1
      · exact ih (hp.2 r) e he

end Library.Requests
