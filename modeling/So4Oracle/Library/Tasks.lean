import So4Oracle.Library.Threads

namespace Library.Tasks

open Requests Safety Protocol Threads

variable {Req : Type} {Ans : Req → Type} {M W α : Type}

/-- Where a thread may be dropped, and what its guards then do to the world. -/
abbrev Cut (M W : Type) := Nat → M → W → W → Prop

/-- One thread receives one answer, or is dropped where that can happen. -/
inductive Moves (sem : Semantics Req Ans M W) (cut : Cut M W) :
    Config Req Ans M W α → Config Req Ans M W α → Prop
  | answer {c id m q} {next : Ans q → Program Req Ans α} {r shared}
      (h : c.threads id = .at m (.ask q next)) (ha : sem.answer id q c.shared r shared) :
      Moves sem cut c (c.put shared id (.at (sem.after m q r) (next r)))
  | drop {c id m p shared} (h : c.threads id = .at m p) (hc : cut id m c.shared shared) :
      Moves sem cut c (c.put shared id .dropped)

/-- The modes of the threads that have not been dropped. -/
def modes (c : Config Req Ans M W α) : Nat → Option M := fun id => (c.threads id).mode?

variable {sem : Semantics Req Ans M W} {cut : Cut M W} {P : Rules Req Ans M} {Q : α → M → Prop}
  {c d : Config Req Ans M W α}

theorem modes_of_at {id : Nat} {m : M} {p : Program Req Ans α} (h : c.threads id = .at m p) :
    modes c id = some m := by
  rw [modes, h]
  rfl

theorem exists_of_modes {id : Nat} {m : M} (h : modes c id = some m) :
    ∃ p, c.threads id = .at m p := by
  rw [modes] at h
  cases hthread : c.threads id with
  | dropped =>
      rw [hthread] at h
      cases h
  | «at» n p =>
      rw [hthread] at h
      obtain rfl := Option.some.inj h
      exact ⟨p, rfl⟩

theorem modes_put (shared : W) (id : Nat) (thread : Thread Req Ans M α) :
    modes (c.put shared id thread) = Function.update (modes c) id thread.mode? := by
  funext other
  by_cases h : other = id
  · subst h
    rw [Function.update_self, modes, put_threads_self]
  · rw [Function.update_of_ne h, modes, put_threads_of_ne shared h]
    rfl

theorem Ends.moves (hafter : ∀ m q r m', P m q r m' → m' = sem.after m q r) (h : Ends P Q c)
    (ha : Moves sem cut c d) : Ends P Q d := by
  cases ha with
  | answer hid ha =>
      apply h.put
      intro m p heq
      cases heq
      obtain ⟨m', hrule, hnext⟩ := h.asks hid _
      rwa [← hafter _ _ _ _ hrule]
  | drop hid hc =>
      apply h.put
      intro m p heq
      cases heq

/-- An assertion on the modes and the world that every allowed request and
every drop preserves. -/
structure Kept (sem : Semantics Req Ans M W) (cut : Cut M W) (P : Rules Req Ans M)
    (I : (Nat → Option M) → W → Prop) : Prop where
  answer : ∀ {ms w id m q r m' u}, I ms w → ms id = some m → P m q r m' → sem.answer id q w r u →
    I (Function.update ms id (some m')) u
  drop : ∀ {ms w id m u}, I ms w → ms id = some m → cut id m w u → I (Function.update ms id none) u

variable {I : (Nat → Option M) → W → Prop}

theorem Kept.moves (hI : Kept sem cut P I) (hafter : ∀ m q r m', P m q r m' → m' = sem.after m q r)
    (hends : Ends P Q c) (hc : I (modes c) c.shared) (ha : Moves sem cut c d) :
    I (modes d) d.shared := by
  cases ha with
  | answer hid ha =>
      obtain ⟨m', hrule, -⟩ := hends.asks hid _
      rw [modes_put, Thread.mode?, ← hafter _ _ _ _ hrule]
      exact hI.answer hc (modes_of_at hid) hrule ha
  | drop hid hcut =>
      rw [modes_put]
      exact hI.drop hc (modes_of_at hid) hcut

/-- A kept assertion holds in every interleaving. -/
theorem Kept.reaches (hI : Kept sem cut P I) (hafter : ∀ m q r m', P m q r m' → m' = sem.after m q r)
    (hends : Ends P Q c) (hc : I (modes c) c.shared)
    (hr : Relation.ReflTransGen (Moves sem cut) c d) : Ends P Q d ∧ I (modes d) d.shared := by
  induction hr with
  | refl => exact ⟨hends, hc⟩
  | tail _ ha ih => exact ⟨Ends.moves hafter ih.1 ha, hI.moves hafter ih.1 ih.2 ha⟩

section Locks

variable {holds : M → Bool} {ms : Nat → Option M} {held : Option Nat} {id other : Nat} {m m' : M}

/-- The lock is held by the thread whose mode says so, and by no other. -/
def Guarded (holds : M → Bool) (ms : Nat → Option M) (held : Option Nat) : Prop :=
  ∀ id, held = some id ↔ ∃ m, ms id = some m ∧ holds m = true

theorem Guarded.holder (h : Guarded holds ms held) (hid : ms id = some m) (hm : holds m = true) :
    held = some id :=
  (h id).mpr ⟨m, hid, hm⟩

theorem Guarded.unique (h : Guarded holds ms held) (hid : ms id = some m) (hm : holds m = true)
    (hother : ms other = some m') (hm' : holds m' = true) : other = id := by
  have hself := h.holder hother hm'
  rw [h.holder hid hm] at hself
  exact (Option.some.inj hself).symm

theorem guarded_update (h : Guarded holds ms held) {after : Option M} {next : Option Nat}
    (hself : next = some id ↔ ∃ m, after = some m ∧ holds m = true)
    (hrest : ∀ other, other ≠ id → (next = some other ↔ held = some other)) :
    Guarded holds (Function.update ms id after) next := by
  intro other
  by_cases hne : other = id
  · subst hne
    rw [Function.update_self]
    exact hself
  · rw [Function.update_of_ne hne, hrest other hne]
    exact h other

theorem Guarded.keep (h : Guarded holds ms held) (hid : ms id = some m)
    (hm : holds m' = holds m) : Guarded holds (Function.update ms id (some m')) held := by
  refine guarded_update h ?_ fun _ _ => Iff.rfl
  rw [h id, hid]
  simp [hm]

theorem Guarded.lock (h : Guarded holds ms none) (hm : holds m = true) :
    Guarded holds (Function.update ms id (some m)) (some id) := by
  refine guarded_update h ?_ fun other hne => ?_
  · simp [hm]
  · simp [Ne.symm hne]

theorem Guarded.unlock (h : Guarded holds ms held) (hid : ms id = some m) (hm : holds m = true)
    {after : Option M} (hafter : ∀ m, after = some m → holds m = false) :
    Guarded holds (Function.update ms id after) none := by
  refine guarded_update h ?_ fun other hne => ?_
  · refine iff_of_false nofun ?_
    rintro ⟨n, hn, hholds⟩
    rw [hafter n hn] at hholds
    cases hholds
  · rw [h.holder hid hm]
    simp [Ne.symm hne]

theorem Guarded.drop (h : Guarded holds ms held) (hid : ms id = some m) (hm : holds m = false) :
    Guarded holds (Function.update ms id none) held := by
  refine guarded_update h ?_ fun _ _ => Iff.rfl
  rw [h id, hid]
  simp [hm]

end Locks

section Drivers

theorem moves_drive {respond : Player Req Ans W} {id : Nat}
    (hr : ∀ q w r u, respond q w = some (r, u) → sem.answer id q w r u) :
    Relation.ReflTransGen (Moves sem cut) c (c.drive respond sem.after id) := by
  rw [Config.drive]
  split
  next m q next hid =>
    split
    next r shared hq => exact .single (.answer hid (hr _ _ _ _ hq))
    next => exact .refl
  next => exact .refl

theorem moves_driveAll {respond : Nat → Player Req Ans W}
    (hr : ∀ id q w r u, respond id q w = some (r, u) → sem.answer id q w r u) (schedule : List Nat)
    (c : Config Req Ans M W α) :
    Relation.ReflTransGen (Moves sem cut) c (c.driveAll respond sem.after schedule) := by
  induction schedule generalizing c with
  | nil => exact .refl
  | cons id schedule ih => exact (moves_drive (hr id)).trans (ih _)

end Drivers

end Library.Tasks
