import Mathlib.Logic.Function.Basic
import So4Oracle.Library.Protocol

namespace Library.Threads

open Requests Safety Protocol

variable {Req : Type} {Ans : Req → Type} {M W α : Type}

/-- A program on its way, with the mode its requests have led to, or one that
has been dropped. -/
inductive Thread (Req : Type) (Ans : Req → Type) (M α : Type)
  | at (mode : M) (p : Program Req Ans α)
  | dropped

/-- What a thread may be answered, and the mode that an answer leads to. -/
structure Semantics (Req : Type) (Ans : Req → Type) (M W : Type) where
  answer : Nat → (q : Req) → W → Ans q → W → Prop
  after : M → (q : Req) → Ans q → M

/-- Threads over a shared world. -/
structure Config (Req : Type) (Ans : Req → Type) (M W α : Type) where
  shared : W
  threads : Nat → Thread Req Ans M α

def Config.put (c : Config Req Ans M W α) (shared : W) (id : Nat) (thread : Thread Req Ans M α) :
    Config Req Ans M W α :=
  ⟨shared, Function.update c.threads id thread⟩

/-- One thread receives one answer, or is dropped. -/
inductive Advances (sem : Semantics Req Ans M W) : Config Req Ans M W α → Config Req Ans M W α → Prop
  | answer {c id m q} {next : Ans q → Program Req Ans α} {r shared}
      (h : c.threads id = .at m (.ask q next)) (ha : sem.answer id q c.shared r shared) :
      Advances sem c (c.put shared id (.at (sem.after m q r) (next r)))
  | drop (c : Config Req Ans M W α) (id : Nat) : Advances sem c (c.put c.shared id .dropped)

/-- Every thread keeps to the rules from its mode on. -/
def Abides (P : Rules Req Ans M) (c : Config Req Ans M W α) : Prop :=
  ∀ id m p, c.threads id = .at m p → Follows P m p fun _ _ => True

variable {sem : Semantics Req Ans M W} {P : Rules Req Ans M} {c d : Config Req Ans M W α}

theorem put_threads_self (shared : W) (id : Nat) (thread : Thread Req Ans M α) :
    (c.put shared id thread).threads id = thread := by
  simp [Config.put]

theorem put_threads_of_ne (shared : W) {id other : Nat} (h : other ≠ id)
    (thread : Thread Req Ans M α) : (c.put shared id thread).threads other = c.threads other := by
  simp [Config.put, h]

theorem Abides.put (h : Abides P c) {shared : W} {id : Nat} {thread : Thread Req Ans M α}
    (hthread : ∀ m p, thread = .at m p → Follows P m p fun _ _ => True) :
    Abides P (c.put shared id thread) := by
  intro other m p hother
  by_cases hid : other = id
  · subst hid
    rw [put_threads_self] at hother
    exact hthread m p hother
  · rw [put_threads_of_ne shared hid] at hother
    exact h other m p hother

/-- The rule that a request is made under, and that the thread goes on by the rules. -/
theorem Abides.asks (h : Abides P c) {id : Nat} {m : M} {q : Req} {next : Ans q → Program Req Ans α}
    (hid : c.threads id = .at m (.ask q next)) (r : Ans q) :
    ∃ m', P m q r m' ∧ Follows P m' (next r) fun _ _ => True :=
  h id m _ hid r

theorem Abides.advances (hafter : ∀ m q r m', P m q r m' → m' = sem.after m q r)
    (h : Abides P c) (ha : Advances sem c d) : Abides P d := by
  cases ha with
  | answer hid ha =>
      apply h.put
      intro m p heq
      cases heq
      obtain ⟨m', hrule, hnext⟩ := h.asks hid _
      rwa [← hafter _ _ _ _ hrule]
  | drop id =>
      apply h.put
      intro m p heq
      cases heq

/-- Every thread keeps to the rules, and ends as the postcondition says. -/
def Ends (P : Rules Req Ans M) (Q : α → M → Prop) (c : Config Req Ans M W α) : Prop :=
  ∀ id m p, c.threads id = .at m p → Follows P m p Q

section Ends

variable {Q : α → M → Prop}

theorem Ends.asks (h : Ends P Q c) {id : Nat} {m : M} {q : Req} {next : Ans q → Program Req Ans α}
    (hid : c.threads id = .at m (.ask q next)) (r : Ans q) :
    ∃ m', P m q r m' ∧ Follows P m' (next r) Q :=
  h id m _ hid r

theorem Ends.done (h : Ends P Q c) {id : Nat} {m : M} {a : α} (hid : c.threads id = .at m (.done a)) :
    Q a m :=
  h id m _ hid

theorem Ends.put (h : Ends P Q c) {shared : W} {id : Nat} {thread : Thread Req Ans M α}
    (hthread : ∀ m p, thread = .at m p → Follows P m p Q) : Ends P Q (c.put shared id thread) := by
  intro other m p hother
  by_cases hid : other = id
  · subst hid
    rw [put_threads_self] at hother
    exact hthread m p hother
  · rw [put_threads_of_ne shared hid] at hother
    exact h other m p hother

theorem Ends.advances (hafter : ∀ m q r m', P m q r m' → m' = sem.after m q r) (h : Ends P Q c)
    (ha : Advances sem c d) : Ends P Q d := by
  cases ha with
  | answer hid ha =>
      apply h.put
      intro m p heq
      cases heq
      obtain ⟨m', hrule, hnext⟩ := h.asks hid _
      rwa [← hafter _ _ _ _ hrule]
  | drop id =>
      apply h.put
      intro m p heq
      cases heq

end Ends

section Drivers

/-- The result of a thread that is done. -/
def Thread.result? : Thread Req Ans M α → Option α
  | .at _ (.done a) => some a
  | _ => none

theorem exists_of_result? {thread : Thread Req Ans M α} {a : α} (h : thread.result? = some a) :
    ∃ m, thread = .at m (.done a) := by
  rcases thread with ⟨m, p⟩ | _
  · cases p with
    | done b =>
        obtain rfl := Option.some.inj h
        exact ⟨m, rfl⟩
    | ask q next => cases h
  · cases h

def Thread.mode? : Thread Req Ans M α → Option M
  | .at m _ => some m
  | .dropped => none

/-- One thread receives its next answer from a player. -/
def Config.drive (respond : Player Req Ans W) (after : M → (q : Req) → Ans q → M) (id : Nat)
    (c : Config Req Ans M W α) : Config Req Ans M W α :=
  match c.threads id with
  | .at m (.ask q next) =>
      match respond q c.shared with
      | some (r, shared) => c.put shared id (.at (after m q r) (next r))
      | none => c
  | _ => c

theorem drive_threads_of_ne (respond : Player Req Ans W) (after : M → (q : Req) → Ans q → M)
    {id other : Nat} (h : other ≠ id) : (c.drive respond after id).threads other = c.threads other := by
  rw [Config.drive]
  split
  · split
    · exact put_threads_of_ne _ h _
    · rfl
  · rfl

theorem advances_drive {respond : Player Req Ans W} {id : Nat}
    (hr : ∀ q w r u, respond q w = some (r, u) → sem.answer id q w r u) :
    Relation.ReflTransGen (Advances sem) c (c.drive respond sem.after id) := by
  rw [Config.drive]
  split
  next m q next hid =>
    split
    next r shared hq => exact .single (.answer hid (hr _ _ _ _ hq))
    next => exact .refl
  next => exact .refl

/-- One answer for each number of the schedule. -/
def Config.driveAll (respond : Nat → Player Req Ans W) (after : M → (q : Req) → Ans q → M)
    (schedule : List Nat) (c : Config Req Ans M W α) : Config Req Ans M W α :=
  schedule.foldl (fun c id => c.drive (respond id) after id) c

theorem advances_driveAll {respond : Nat → Player Req Ans W}
    (hr : ∀ id q w r u, respond id q w = some (r, u) → sem.answer id q w r u) (schedule : List Nat)
    (c : Config Req Ans M W α) :
    Relation.ReflTransGen (Advances sem) c (c.driveAll respond sem.after schedule) := by
  induction schedule generalizing c with
  | nil => exact .refl
  | cons id schedule ih => exact (advances_drive (hr id)).trans (ih _)

end Drivers

end Library.Threads
