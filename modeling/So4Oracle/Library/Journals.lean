import So4Oracle.Library.Records
import So4Oracle.Library.Tasks

namespace Library.Journals

open Requests Safety Protocol Records Threads Tasks

variable {Req : Type} {Ans : Req → Type} {M W α : Type}

/-- An answer, with the thread that received it and the time. -/
structure Entry (Req : Type) (Ans : Req → Type) where
  id : Nat
  time : Nat
  event : Event Req Ans

/-- What one thread asked and was answered, in order. -/
def eventsOf (journal : List (Entry Req Ans)) (id : Nat) : List (Event Req Ans) :=
  journal.filterMap fun entry => if entry.id = id then some entry.event else none

section Events

variable {journal : List (Entry Req Ans)} {entry : Entry Req Ans} {id : Nat}

theorem eventsOf_append_self (time : Nat) (event : Event Req Ans) :
    eventsOf (journal ++ [⟨id, time, event⟩]) id = eventsOf journal id ++ [event] := by
  simp [eventsOf]

theorem eventsOf_append_of_ne {other : Nat} (h : other ≠ id) (time : Nat) (event : Event Req Ans) :
    eventsOf (journal ++ [⟨id, time, event⟩]) other = eventsOf journal other := by
  simp [eventsOf, Ne.symm h]

theorem mem_eventsOf {event : Event Req Ans} :
    event ∈ eventsOf journal id ↔ ∃ time, ⟨id, time, event⟩ ∈ journal := by
  rw [eventsOf, List.mem_filterMap]
  constructor
  · rintro ⟨⟨id', time, event'⟩, hmem, heq⟩
    dsimp only at heq
    split at heq
    next hid =>
      obtain rfl := Option.some.inj heq
      subst hid
      exact ⟨time, hmem⟩
    next => cases heq
  · rintro ⟨time, hmem⟩
    exact ⟨_, hmem, if_pos rfl⟩

theorem eventsOf_pairwise {R : Event Req Ans → Event Req Ans → Prop}
    (h : journal.Pairwise fun first second => R first.event second.event) :
    (eventsOf journal id).Pairwise R := by
  refine List.pairwise_filterMap.mpr (h.imp fun {first second} hrel event hfirst event' hsecond => ?_)
  obtain ⟨-, heq⟩ := Option.ite_none_right_eq_some.mp hfirst
  obtain ⟨-, heq'⟩ := Option.ite_none_right_eq_some.mp hsecond
  cases heq
  cases heq'
  exact hrel

end Events

/-- The program goes on as another after these answers. -/
inductive Leads : Program Req Ans α → List (Event Req Ans) → Program Req Ans α → Prop
  | here (p : Program Req Ans α) : Leads p [] p
  | ask (q : Req) (r : Ans q) {next : Ans q → Program Req Ans α} {tr p} (h : Leads (next r) tr p) :
      Leads (.ask q next) (⟨q, r⟩ :: tr) p

section Leads

variable {p s : Program Req Ans α} {tr : List (Event Req Ans)}

theorem Leads.answer {q : Req} {next : Ans q → Program Req Ans α} (h : Leads s tr p)
    (hp : p = .ask q next) (r : Ans q) : Leads s (tr ++ [⟨q, r⟩]) (next r) := by
  induction h with
  | here p =>
      subst hp
      exact .ask q r (.here _)
  | ask q' r' _ ih => exact .ask q' r' (ih hp)

theorem Leads.begins (h : Leads s tr p) : Begins s tr := by
  induction h with
  | here p => exact .here p
  | ask q r _ ih => exact .ask q r ih

theorem Leads.runs {a : α} (h : Leads s tr p) (hp : p = .done a) : Runs s tr a := by
  induction h with
  | here p =>
      subst hp
      exact .done a
  | ask q r _ ih => exact .ask q r (ih hp)

end Leads

/-- Every answer is written down, and nothing else is. -/
structure Journaled (sem : Semantics Req Ans M W) (cut : Cut M W)
    (journal : W → List (Entry Req Ans)) : Prop where
  answer : ∀ {id q w r u}, sem.answer id q w r u →
    ∃ time, journal u = journal w ++ [⟨id, time, ⟨q, r⟩⟩]
  drop : ∀ {id m w u}, cut id m w u → journal u = journal w

/-- The journal of each thread is the run of its program, as far as it is. -/
structure Chronicle (start : Nat → Program Req Ans α) (journal : List (Entry Req Ans))
    (c : Config Req Ans M W α) : Prop where
  begins : ∀ id, Begins (start id) (eventsOf journal id)
  leads : ∀ id m p, c.threads id = .at m p → Leads (start id) (eventsOf journal id) p

variable {sem : Semantics Req Ans M W} {cut : Cut M W} {journal : W → List (Entry Req Ans)}
  {start : Nat → Program Req Ans α} {c d : Config Req Ans M W α}

theorem Chronicle.moves (hj : Journaled sem cut journal) (h : Chronicle start (journal c.shared) c)
    (ha : Moves sem cut c d) : Chronicle start (journal d.shared) d := by
  cases ha with
  | @answer id m q next r shared hid hanswer =>
      obtain ⟨time, hjournal⟩ := hj.answer hanswer
      have hlead := (h.leads id m _ hid).answer rfl r
      rw [← eventsOf_append_self time, ← hjournal] at hlead
      have hsame : ∀ other, other ≠ id →
          eventsOf (journal shared) other = eventsOf (journal c.shared) other := by
        intro other hne
        rw [hjournal, eventsOf_append_of_ne hne]
      constructor
      · intro other
        by_cases hne : other = id
        · subst hne
          exact hlead.begins
        · change Begins (start other) (eventsOf (journal shared) other)
          rw [hsame other hne]
          exact h.begins other
      · intro other n p hother
        change Leads (start other) (eventsOf (journal shared) other) p
        by_cases hne : other = id
        · subst hne
          rw [put_threads_self] at hother
          cases hother
          exact hlead
        · rw [put_threads_of_ne _ hne] at hother
          rw [hsame other hne]
          exact h.leads other n p hother
  | @drop id m p shared hid hcut =>
      have hjournal := hj.drop hcut
      constructor
      · intro other
        change Begins (start other) (eventsOf (journal shared) other)
        rw [hjournal]
        exact h.begins other
      · intro other n q hother
        change Leads (start other) (eventsOf (journal shared) other) q
        rw [hjournal]
        by_cases hne : other = id
        · subst hne
          rw [put_threads_self] at hother
          cases hother
        · rw [put_threads_of_ne _ hne] at hother
          exact h.leads other n q hother

theorem Chronicle.reaches (hj : Journaled sem cut journal) (h : Chronicle start (journal c.shared) c)
    (hr : Relation.ReflTransGen (Moves sem cut) c d) : Chronicle start (journal d.shared) d := by
  induction hr with
  | refl => exact h
  | tail _ ha ih => exact ih.moves hj ha

/-- A thread that is done has made a complete run. -/
theorem Chronicle.runs {entries : List (Entry Req Ans)} (h : Chronicle start entries c) {id : Nat}
    {m : M} {a : α} (hid : c.threads id = .at m (.done a)) : Runs (start id) (eventsOf entries id) a :=
  (h.leads id m _ hid).runs rfl

end Library.Journals
