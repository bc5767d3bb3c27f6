import So4Oracle.Library.FixedWindow
import So4Oracle.RustText
import So4Oracle.State

namespace So4Oracle.AdminAuth

open Library.Checked Library.FixedWindow State

def maxAdminAuthFailures : Nat := 5

def adminAuthWindow : Nat := 60 * nanosPerSecond

def maxTrackedAdminClients : Nat := 10000

/-- Per client its failures and the start of their window. -/
structure AdminAuthLimiter where
  failures : KeyMap (Nat × Nat)

namespace AdminAuthLimiter

def new : AdminAuthLimiter := ⟨∅⟩

/-- The time since a later start is zero. -/
def inWindow (now start : Nat) : Bool := decide (now - start < adminAuthWindow)

variable (limiter : AdminAuthLimiter) (client : String)

def isBlocked (now : Nat) : Bool :=
  limiter.failures[client]?.any fun entry =>
    decide (maxAdminAuthFailures ≤ entry.1) && inWindow now entry.2

def pruned (now : Nat) : KeyMap (Nat × Nat) :=
  if maxTrackedAdminClients ≤ limiter.failures.size then
    limiter.failures.filter fun _ entry => inWindow now entry.2
  else limiter.failures

def restarted (now : Nat) (entry : Nat × Nat) : Nat × Nat :=
  if inWindow now entry.2 then entry else (0, now)

/-- A count that would overflow panics and stays; the poisoned lock is entered
again by the next call. -/
def recordFailure (now : Nat) : Panicking Unit × AdminAuthLimiter :=
  let map := limiter.pruned now
  let entry := restarted now (map.getD client (0, now))
  if entry.1 + 1 < 2 ^ 32 then (.ok (), ⟨map.insert client (entry.1 + 1, entry.2)⟩)
  else (.error .overflow, ⟨map.insert client entry⟩)

def recordSuccess : AdminAuthLimiter := ⟨limiter.failures.erase client⟩

end AdminAuthLimiter

inductive Call
  | isBlocked (client : String) (now : Nat)
  | recordFailure (client : String) (now : Nat)
  | recordSuccess (client : String)
  deriving DecidableEq, Repr

def Call.time? : Call → Option Nat
  | isBlocked _ now | recordFailure _ now => some now
  | recordSuccess _ => none

def step (limiter : AdminAuthLimiter) : Call → AdminAuthLimiter
  | .isBlocked _ _ => limiter
  | .recordFailure client now => (limiter.recordFailure client now).2
  | .recordSuccess client => limiter.recordSuccess client

def run (calls : List Call) : AdminAuthLimiter := calls.foldl step .new

@[simp] theorem run_append (calls : List Call) (call : Call) :
    run (calls ++ [call]) = step (run calls) call := by
  simp [run]

section Reference

def limits : Limits := ⟨maxAdminAuthFailures, adminAuthWindow⟩

def u32Max : Nat := 2 ^ 32 - 1

/-- What a call is to a client: only its own calls are events. -/
def Call.event? (client : String) : Call → Option Event
  | recordFailure c now => if c = client then some (.failed now) else none
  | recordSuccess c => if c = client then some .succeeded else none
  | isBlocked _ _ => none

def ownEvents (client : String) (calls : List Call) : List Event :=
  calls.filterMap (Call.event? client)

def windowOf (entry : Nat × Nat) : Window := ⟨entry.2, entry.1⟩

def entryOf (limiter : AdminAuthLimiter) (client : String) : Option Window :=
  limiter.failures[client]?.map windowOf

/-- The table stands for the windows that each client opened itself. -/
def Faithful (now : Nat) (limiter : AdminAuthLimiter) (calls : List Call) : Prop :=
  ∀ client, Tracks limits u32Max now (entryOf limiter client)
    (windowAfter limits (ownEvents client calls))

variable {limiter : AdminAuthLimiter} {client other : String} {now : Nat} {calls : List Call}

theorem inWindow_iff {entry : Nat × Nat} :
    AdminAuthLimiter.inWindow now entry.2 = decide ((windowOf entry).Open limits now) := rfl

theorem isBlocked_eq_blocks :
    limiter.isBlocked client now = blocks limits (entryOf limiter client) now := by
  rw [AdminAuthLimiter.isBlocked, blocks, entryOf]
  cases limiter.failures[client]? <;> rfl

theorem pruned_tracks {w : Option Window} (h : Tracks limits u32Max now (entryOf limiter client) w) :
    Tracks limits u32Max now ((limiter.pruned now)[client]?.map windowOf) w := by
  rw [AdminAuthLimiter.pruned]
  split
  next =>
    have hfilter : (limiter.failures.filter fun _ entry =>
        AdminAuthLimiter.inWindow now entry.2)[client]?.map windowOf =
          (entryOf limiter client).filter fun e => decide (e.Open limits now) := by
      rw [Std.TreeMap.getElem?_filter', entryOf, Option.filter_map]
      rfl
    rw [hfilter]
    exact h.drop
  next => exact h

theorem recordFailure_other (h : other ≠ client) :
    (limiter.recordFailure client now).2.failures[other]? = (limiter.pruned now)[other]? := by
  unfold AdminAuthLimiter.recordFailure
  dsimp only
  split
  next => exact getElem?_insert_of_ne _ h _
  next => exact getElem?_insert_of_ne _ h _

theorem counted_windowOf (entry : Option (Nat × Nat)) :
    counted limits now (entry.map windowOf) =
      windowOf ((AdminAuthLimiter.restarted now (entry.getD (0, now))).1 + 1,
        (AdminAuthLimiter.restarted now (entry.getD (0, now))).2) := by
  cases entry with
  | none =>
      simp [counted, AdminAuthLimiter.restarted, windowOf]
  | some entry =>
      rw [Option.map_some, counted, Option.getD_some, AdminAuthLimiter.restarted, inWindow_iff]
      by_cases hopen : (windowOf entry).Open limits now
      · rw [if_pos hopen, if_pos (decide_eq_true hopen)]
        rfl
      · rw [if_neg hopen, if_neg (by simpa using hopen)]
        rfl

theorem restarted_le {entry : Nat × Nat} (h : entry.1 ≤ u32Max) :
    (AdminAuthLimiter.restarted now entry).1 ≤ u32Max := by
  rw [AdminAuthLimiter.restarted]
  split
  next => exact h
  next => exact Nat.zero_le _

/-- The count stops at the end of u32, where the reference goes on. -/
theorem recordFailure_self (hcount : ∀ entry, (limiter.pruned now)[client]? = some entry →
      entry.1 ≤ u32Max) :
    entryOf (limiter.recordFailure client now).2 client =
      some { counted limits now ((limiter.pruned now)[client]?.map windowOf) with
        failures := min (counted limits now ((limiter.pruned now)[client]?.map windowOf)).failures
          u32Max } := by
  have hle : (AdminAuthLimiter.restarted now ((limiter.pruned now)[client]?.getD (0, now))).1 ≤
      u32Max := by
    apply restarted_le
    cases hentry : (limiter.pruned now)[client]? with
    | none => exact Nat.zero_le _
    | some entry => exact hcount entry hentry
  rw [counted_windowOf]
  rw [AdminAuthLimiter.recordFailure, entryOf]
  dsimp only
  rw [Std.TreeMap.getD_eq_getD_getElem?]
  unfold u32Max at hle ⊢
  split
  next hlt =>
    rw [Std.TreeMap.getElem?_insert_self, Option.map_some]
    simp only [windowOf, Option.some.injEq, Window.mk.injEq, true_and]
    omega
  next hge =>
    rw [Std.TreeMap.getElem?_insert_self, Option.map_some]
    simp only [windowOf, Option.some.injEq, Window.mk.injEq, true_and]
    omega

theorem recordFailure_faithful (h : Faithful now limiter calls) :
    Faithful now (limiter.recordFailure client now).2 (calls ++ [.recordFailure client now]) := by
  intro other
  have hpruned := pruned_tracks (h other)
  by_cases hother : other = client
  · subst hother
    have hevents : ownEvents other (calls ++ [.recordFailure other now]) =
        ownEvents other calls ++ [.failed now] := by
      simp [ownEvents, Call.event?]
    rw [hevents, windowAfter_append, recordFailure_self]
    · exact hpruned.failed
    · intro entry hentry
      rw [hentry] at hpruned
      exact hpruned.le_cap
  · have hevents : ownEvents other (calls ++ [.recordFailure client now]) = ownEvents other calls := by
      simp [ownEvents, Call.event?, Ne.symm hother]
    rw [hevents, entryOf, recordFailure_other hother]
    exact hpruned

theorem recordSuccess_faithful (h : Faithful now limiter calls) :
    Faithful now (limiter.recordSuccess client) (calls ++ [.recordSuccess client]) := by
  intro other
  by_cases hother : other = client
  · subst hother
    have hevents : ownEvents other (calls ++ [.recordSuccess other]) =
        ownEvents other calls ++ [.succeeded] := by
      simp [ownEvents, Call.event?]
    rw [hevents, windowAfter_append]
    simp [entryOf, AdminAuthLimiter.recordSuccess, record, Tracks]
  · have hevents : ownEvents other (calls ++ [.recordSuccess client]) = ownEvents other calls := by
      simp [ownEvents, Call.event?, Ne.symm hother]
    rw [hevents, entryOf, AdminAuthLimiter.recordSuccess, getElem?_erase_of_ne _ hother]
    exact h other

theorem Faithful.mono {later : Nat} (h : Faithful now limiter calls) (hle : now ≤ later) :
    Faithful later limiter calls :=
  fun client => (h client).mono hle

/-- After any calls in the order of time, at any later time. -/
theorem run_faithful (calls : List Call)
    (h : (calls.filterMap Call.time? ++ [now]).Pairwise (· ≤ ·)) : Faithful now (run calls) calls := by
  induction calls using List.reverseRecOn generalizing now with
  | nil =>
      intro client
      simp [run, AdminAuthLimiter.new, entryOf, ownEvents, Tracks]
  | append_singleton calls call ih =>
      rw [List.filterMap_append] at h
      rw [run_append]
      cases call with
      | isBlocked c time =>
          have hearlier : (calls.filterMap Call.time? ++ [now]).Pairwise (· ≤ ·) :=
            h.sublist (by simp [Call.time?])
          intro client
          have hevents : ownEvents client (calls ++ [.isBlocked c time]) = ownEvents client calls := by
            simp [ownEvents, Call.event?]
          rw [hevents]
          exact ih hearlier client
      | recordFailure c time =>
          have hearlier : (calls.filterMap Call.time? ++ [time]).Pairwise (· ≤ ·) :=
            h.sublist (by simp [Call.time?])
          have hle : time ≤ now :=
            (List.pairwise_append.mp h).2.2 time (by simp [Call.time?]) now (by simp)
          exact (recordFailure_faithful (ih hearlier)).mono hle
      | recordSuccess c =>
          have hearlier : (calls.filterMap Call.time? ++ [now]).Pairwise (· ≤ ·) :=
            h.sublist (by simp [Call.time?])
          exact recordSuccess_faithful (ih hearlier)

end Reference

/-- The pruned table answers as the client's own history does. -/
theorem isBlocked_eq_reference {calls : List Call} {client : String} {now : Nat}
    (h : (calls.filterMap Call.time? ++ [now]).Pairwise (· ≤ ·)) :
    (run calls).isBlocked client now = blocked limits (ownEvents client calls) now := by
  rw [isBlocked_eq_blocks, blocked]
  exact (run_faithful calls h client).blocks_eq (by decide)

/-- The last two failures fall into a second window, and another client succeeds. -/
def guesses : List Call :=
  (List.replicate 5 (.recordFailure "1.2.3.4" 0)) ++
    [.recordSuccess "5.6.7.8", .isBlocked "1.2.3.4" 30,
      .recordFailure "1.2.3.4" (60 * nanosPerSecond), .recordFailure "5.6.7.8" (60 * nanosPerSecond)]

theorem isBlocked_eq_reference_guesses :
    (run (guesses.take 6)).isBlocked "1.2.3.4" 30 =
        blocked limits (ownEvents "1.2.3.4" (guesses.take 6)) 30 ∧
      (run guesses).isBlocked "1.2.3.4" (61 * nanosPerSecond) =
        blocked limits (ownEvents "1.2.3.4" guesses) (61 * nanosPerSecond) ∧
      blocked limits (ownEvents "1.2.3.4" (guesses.take 6)) 30 = true ∧
      blocked limits (ownEvents "1.2.3.4" guesses) (61 * nanosPerSecond) = false :=
  ⟨isBlocked_eq_reference (by decide), isBlocked_eq_reference (by decide), by decide, by decide⟩

section Size

variable {limiter : AdminAuthLimiter} {client : String} {now : Nat}

def AllOpen (limiter : AdminAuthLimiter) (now : Nat) : Prop :=
  ∀ (client : String) (entry : Nat × Nat), limiter.failures[client]? = some entry →
    AdminAuthLimiter.inWindow now entry.2 = true

/-- A full table of open windows and a failure of a client that is not in it. -/
def Floods (limiter : AdminAuthLimiter) : Call → Prop
  | .recordFailure client now =>
      maxTrackedAdminClients ≤ limiter.failures.size ∧ limiter.failures[client]? = none ∧
        AllOpen limiter now
  | .isBlocked _ _ | .recordSuccess _ => False

theorem size_recordFailure :
    (limiter.recordFailure client now).2.failures.size =
      if client ∈ limiter.pruned now then (limiter.pruned now).size
      else (limiter.pruned now).size + 1 := by
  unfold AdminAuthLimiter.recordFailure
  dsimp only
  split
  next => exact Std.TreeMap.size_insert
  next => exact Std.TreeMap.size_insert

theorem size_pruned_eq_iff (hfull : maxTrackedAdminClients ≤ limiter.failures.size) :
    (limiter.pruned now).size = limiter.failures.size ↔ AllOpen limiter now := by
  rw [AdminAuthLimiter.pruned, if_pos hfull, Std.TreeMap.size_filter_eq_size_iff]
  constructor
  · intro h client entry hentry
    obtain ⟨hmem, rfl⟩ := getElem?_eq_some_iff.mp hentry
    exact h client hmem
  · intro h client hmem
    exact h client _ (getElem?_eq_some_iff.mpr ⟨hmem, rfl⟩)

theorem getElem?_pruned (hopen : AllOpen limiter now) :
    (limiter.pruned now)[client]? = limiter.failures[client]? := by
  rw [AdminAuthLimiter.pruned]
  split
  next =>
    rw [Std.TreeMap.getElem?_filter']
    cases hentry : limiter.failures[client]? with
    | none => rfl
    | some entry => exact Option.filter_some_pos (hopen client entry hentry)
  next => rfl

theorem size_pruned (hopen : AllOpen limiter now) :
    (limiter.pruned now).size = limiter.failures.size := by
  by_cases hfull : maxTrackedAdminClients ≤ limiter.failures.size
  · exact (size_pruned_eq_iff hfull).mpr hopen
  · rw [AdminAuthLimiter.pruned, if_neg hfull]

theorem recordFailure_new (h : (limiter.pruned now)[client]? = none) :
    (limiter.recordFailure client now).2 = ⟨(limiter.pruned now).insert client (1, now)⟩ := by
  have hentry : AdminAuthLimiter.restarted now (0, now) = (0, now) := by
    simp [AdminAuthLimiter.restarted]
  simp only [AdminAuthLimiter.recordFailure, Std.TreeMap.getD_eq_getD_getElem?, h, Option.getD_none,
    hentry]
  rfl

theorem size_pruned_le : (limiter.pruned now).size ≤ limiter.failures.size := by
  rw [AdminAuthLimiter.pruned]
  split
  next => exact Std.TreeMap.size_filter_le_size
  next => exact le_rfl

/-- One call keeps the cap, or floods the table. -/
theorem step_size_le {call : Call} (hsize : limiter.failures.size ≤ maxTrackedAdminClients)
    (hcall : ¬Floods limiter call) :
    (step limiter call).failures.size ≤ maxTrackedAdminClients := by
  cases call with
  | isBlocked c time => exact hsize
  | recordSuccess c => exact Std.TreeMap.size_erase_le.trans hsize
  | recordFailure c time =>
      rw [step, size_recordFailure]
      have hle : (limiter.pruned time).size ≤ limiter.failures.size := size_pruned_le
      split
      next => exact hle.trans hsize
      next hnew =>
        by_contra hover
        have hfull : maxTrackedAdminClients ≤ limiter.failures.size := by omega
        have hopen : AllOpen limiter time := (size_pruned_eq_iff hfull).mp (by omega)
        refine hcall ⟨hfull, ?_, hopen⟩
        rwa [Std.TreeMap.mem_iff_isSome_getElem?, getElem?_pruned hopen, Option.not_isSome_iff_eq_none]
          at hnew

theorem size_of_floods {call : Call} (hcall : Floods limiter call) :
    maxTrackedAdminClients < (step limiter call).failures.size := by
  cases call with
  | isBlocked c time => exact hcall.elim
  | recordSuccess c => exact hcall.elim
  | recordFailure c time =>
      obtain ⟨hfull, hnew, hopen⟩ := hcall
      have hmem : c ∉ limiter.pruned time := by
        rw [Std.TreeMap.mem_iff_isSome_getElem?, getElem?_pruned hopen, hnew]
        exact Bool.false_ne_true
      rw [step, size_recordFailure, if_neg hmem, size_pruned hopen]
      omega

theorem run_size_le {calls : List Call}
    (h : ∀ earlier call later, calls = earlier ++ call :: later → ¬Floods (run earlier) call) :
    (run calls).failures.size ≤ maxTrackedAdminClients := by
  induction calls using List.reverseRecOn with
  | nil => exact Nat.zero_le _
  | append_singleton calls call ih =>
      rw [run_append]
      apply step_size_le
      · exact ih fun earlier call' later heq =>
          h earlier call' (later ++ [call]) (by rw [heq, List.append_assoc, List.cons_append])
      · exact h calls call [] rfl

end Size

/-- The cap holds all along exactly when no call floods the table. -/
theorem trackedClients_le_iff (calls : List Call) :
    (∀ earlier later, calls = earlier ++ later →
      (run earlier).failures.size ≤ maxTrackedAdminClients) ↔
    ∀ earlier call later, calls = earlier ++ call :: later → ¬Floods (run earlier) call := by
  constructor
  · intro h earlier call later heq hfloods
    have hle := h (earlier ++ [call]) later (by rw [heq, List.append_assoc]; rfl)
    rw [run_append] at hle
    exact absurd (size_of_floods hfloods) (not_lt.mpr hle)
  · intro h earlier later heq
    apply run_size_le
    intro first call rest hfirst
    exact h first call (rest ++ later) (by rw [heq, hfirst, List.append_assoc, List.cons_append])

section Samples

/-- So many clients fail once, all at the same time. -/
def flood (clients : Nat) : List Call :=
  (List.range clients).map fun i => .recordFailure (toString i) 0

theorem flood_succ (clients : Nat) :
    flood (clients + 1) = flood clients ++ [.recordFailure (toString clients) 0] := by
  simp [flood, List.range_succ]

/-- No window is over, so every client of the flood keeps its entry. -/
theorem run_flood (clients : Nat) :
    (run (flood clients)).failures.size = clients ∧ AllOpen (run (flood clients)) 0 ∧
      ∀ i, clients ≤ i → (run (flood clients)).failures[toString i]? = none := by
  induction clients with
  | zero =>
      refine ⟨rfl, fun client entry h => ?_, fun i _ => rfl⟩
      simp [run, flood, AdminAuthLimiter.new] at h
  | succ clients ih =>
      obtain ⟨hsize, hopen, hnew⟩ := ih
      have hclient : ((run (flood clients)).pruned 0)[toString clients]? = none := by
        rw [getElem?_pruned hopen]
        exact hnew clients le_rfl
      have hnext : run (flood (clients + 1)) =
          ⟨((run (flood clients)).pruned 0).insert (toString clients) (1, 0)⟩ := by
        rw [flood_succ, run_append]
        exact recordFailure_new hclient
      have hmem : ¬((run (flood clients)).pruned 0).contains (toString clients) = true := by
        rw [Std.TreeMap.contains_eq_isSome_getElem?, hclient]
        exact Bool.false_ne_true
      rw [hnext]
      refine ⟨?_, fun client entry hentry => ?_, fun i hi => ?_⟩
      · rw [Std.TreeMap.size_insert, if_neg hmem, size_pruned hopen, hsize]
      · by_cases hself : client = toString clients
        · subst hself
          rw [Std.TreeMap.getElem?_insert_self] at hentry
          obtain rfl := Option.some.inj hentry
          rfl
        · rw [getElem?_insert_of_ne _ hself, getElem?_pruned hopen] at hentry
          exact hopen client entry hentry
      · have hne : toString i ≠ toString clients := by
          intro heq
          have := RustText.toString_inj heq
          omega
        rw [getElem?_insert_of_ne _ hne, getElem?_pruned hopen]
        exact hnew i (Nat.le_of_succ_le hi)

/-- One client more than the cap, all within one window. -/
theorem flood_exceeds_max :
    ¬(run (flood (maxTrackedAdminClients + 1))).failures.size ≤ maxTrackedAdminClients := by
  rw [(run_flood _).1]
  exact Nat.not_succ_le_self _

end Samples

end So4Oracle.AdminAuth
