import So4Oracle.Admin
import So4Oracle.KeeperRequests
import So4Oracle.Library.Breaker

namespace So4Oracle.KeeperGuard

open Library.Checked Library.Requests Library.Safety Library.Protocol Library.Breaker Wire Config
  State Chain Submit Handler Keeper KeeperRuns KeeperRequests Admin

def failureLimit : Counter → Nat
  | .freezeFailures => maxConsecutiveFreezeFailures
  | .executionFailures => maxConsecutiveExecutionFailures

abbrev GuardEvent := Event Counter String

section Watched

/-- The keeper's world with the calls of the handler that are under way, what has
happened to the keys, newest first, and the key that a tally at its limit is about to bar. -/
structure Watched where
  world : World
  calls : List ClearCall
  history : List GuardEvent
  due : Option String

/-- What the two maps of tallies and the blacklist amount to. -/
def guardOf (app : AppState) : Guard Counter String where
  bars key := app.frozenOrderBlacklist.contains key
  tally counter key := (app.counts counter).getD key 0

namespace Watched

def guard (w : Watched) : Guard Counter String := guardOf w.world.app

def setWorld (w : Watched) (world : World) : Watched := { w with world := world }

def enter (w : Watched) : Watched := { w with world := w.world.enter, due := none }

def leave (w : Watched) : Watched := { w with world := w.world.leave, due := none }

end Watched

def requestEvent : (q : KeeperRequest) → q.Answer → Option GuardEvent
  | .send (.handler _ key) _ _, _ => some (.tried key)
  | .state (.blacklist key _), _ => some (.barred key)
  | .state (.countFailure counter key), .ok _ => some (.counted counter key)
  | .state (.clearFailures counter key), _ => some (.reset counter key)
  | _, _ => none

/-- A key is due from the failure that brings a tally to its limit until it is
inserted into the blacklist or found there. -/
def dueAfter (due : Option String) : (q : KeeperRequest) → q.Answer → Option String
  | .state (.countFailure counter key), .ok n => if failureLimit counter ≤ n then some key else due
  | .state (.blacklist _ _), _ => none
  | .state (.isBlacklisted _), found => if found = true then none else due
  | _, _ => due

def adminEvent : (op : AdminOp) → op.Answer → Option GuardEvent
  | .removeBlacklisted key, removed => if removed = true then some (.freed key) else none
  | .clearFailures counter key, _ => some (.reset counter key)

def Watched.perform (w : Watched) (op : AdminOp) (calls : List ClearCall) : Watched where
  world := w.world.setApp (op.run w.world.app).2
  calls := calls
  history := (adminEvent op (op.run w.world.app).1).toList ++ w.history
  due := w.due

/-- Nothing but the keeper and the handler writes the blacklist and the tallies. -/
structure SameGuard (app app' : AppState) : Prop where
  frozenOrderBlacklist : app'.frozenOrderBlacklist = app.frozenOrderBlacklist
  freezeFailureCounts : app'.freezeFailureCounts = app.freezeFailureCounts
  executionFailureCounts : app'.executionFailureCounts = app.executionFailureCounts

/-- The rest of the world moves, the handler is called, or one of its calls runs
its next locked section. -/
inductive Moves : Watched → Watched → Prop
  | world (w : Watched) (v : World) (h : Interference w.world v) (hguard : SameGuard w.world.app v.app) :
      Moves w (w.setWorld v)
  | call (w : Watched) (key : String) :
      Moves w { w with calls := clearBlacklistedKey key :: w.calls }
  | perform (w : Watched) (before : List ClearCall) (op : AdminOp) (next : op.Answer → ClearCall)
      (after : List ClearCall) (h : w.calls = before ++ .ask op next :: after) :
      Moves w (w.perform op (before ++ next (op.run w.world.app).1 :: after))

variable (crates : Crates) (settings : Settings) (sign : Transaction → Except String String)

def watched : Surroundings KeeperRequest KeeperRequest.Answer Watched where
  answer q w r v := (keeper crates settings).answer q w.world r v.world ∧ v.calls = w.calls ∧
    v.history = (requestEvent q r).toList ++ w.history ∧ v.due = dueAfter w.due q r
  interfere := Moves

def cut (w v : Watched) : Prop := v = w.leave

abbrev GuardRuns (S : Surroundings KeeperRequest KeeperRequest.Answer Watched)
    (drop : Watched → Watched → Prop) : Watched → Watched → Prop :=
  Rounds S Watched.enter (executeKeeperCycle crates settings sign) drop

end Watched

section Effects

variable {crates : Crates} {settings : Settings} {app : AppState}

/-- A new map of tallies that differs from the old one at one key. -/
theorem guardOf_setCounts {counts : KeyMap Nat} {counter : Counter} {key : String} {n : Nat}
    (hself : counts.getD key 0 = n)
    (hother : ∀ key' ≠ key, counts.getD key' 0 = (app.counts counter).getD key' 0) :
    guardOf (app.setCounts counts counter) = (guardOf app).setTally counter key n := by
  have hbars : (app.setCounts counts counter).frozenOrderBlacklist = app.frozenOrderBlacklist := by
    cases counter <;> rfl
  refine Guard.ext ?_ (funext fun counter' => funext fun key' => ?_)
  · simp only [guardOf, Guard.setTally, hbars]
  · show ((app.setCounts counts counter).counts counter').getD key' 0 = _
    by_cases hcounter : counter' = counter
    · subst hcounter
      rw [counts_setCounts_self]
      by_cases hkey : key' = key
      · subst hkey
        rw [Guard.setTally_self, hself]
      · rw [Guard.setTally_of_ne (fun h => hkey h.2.symm), hother key' hkey]
        rfl
    · rw [counts_setCounts_of_ne counts hcounter, Guard.setTally_of_ne (fun h => hcounter h.1.symm)]
      rfl

theorem guardOf_insert (counter : Counter) (key : String) (n : Nat) :
    guardOf (app.setCounts ((app.counts counter).insert key n) counter) =
      (guardOf app).setTally counter key n := by
  refine guardOf_setCounts Std.TreeMap.getD_insert_self (fun key' hne => ?_)
  rw [Std.TreeMap.getD_insert, if_neg]
  simpa using Ne.symm hne

theorem guardOf_erase (counter : Counter) (key : String) :
    guardOf (app.setCounts ((app.counts counter).erase key) counter) =
      (guardOf app).setTally counter key 0 := by
  refine guardOf_setCounts Std.TreeMap.getD_erase_self (fun key' hne => ?_)
  rw [Std.TreeMap.getD_erase, if_neg]
  simpa using Ne.symm hne

/-- Counting adds one to the tally and returns it, or changes nothing. -/
theorem guardOf_countKey (counter : Counter) (key : String) :
    guardOf (app.setCounts (countKey (app.counts counter) key).2 counter) =
        (guardOf app).after
          (requestEvent (.state (.countFailure counter key)) (countKey (app.counts counter) key).1) ∧
      ∀ n, (countKey (app.counts counter) key).1 = .ok n →
        n = (guardOf app).tally counter key + 1 := by
  unfold countKey nextCount
  dsimp only
  by_cases h : (app.counts counter).getD key 0 + 1 < 2 ^ 32
  · rw [if_pos h]
    refine ⟨guardOf_insert counter key _, ?_⟩
    rintro n ⟨⟩
    rfl
  · rw [if_neg h]
    refine ⟨?_, fun n h => nomatch h⟩
    cases counter <;> rfl

theorem guardOf_run (clock : Nat) (op : StateOp) :
    guardOf (op.run clock app).2 =
      (guardOf app).after (requestEvent (.state op) (op.run clock app).1) := by
  cases op with
  | blacklist key failures =>
      refine Guard.ext (funext fun key' => ?_) rfl
      show (app.frozenOrderBlacklist.insert key failures).contains key' =
        ((guardOf app).apply (.barred key)).bars key'
      rw [Std.TreeMap.contains_insert]
      by_cases h : key' = key
      · subst h
        rw [Guard.apply_barred_bars]
        simp
      · rw [Guard.apply_bars_of_ne (by simpa using Ne.symm h) (by simp)]
        simp [guardOf, Ne.symm h]
  | countFailure counter key => exact (guardOf_countKey counter key).1
  | clearFailures counter key => exact guardOf_erase counter key
  | _ => rfl

/-- A request changes the guard by the event it is, if any. -/
theorem answer_guard {q : KeeperRequest} {w v : World} {r : q.Answer}
    (h : (keeper crates settings).answer q w r v) :
    guardOf v.app = (guardOf w.app).after (requestEvent q r) := by
  obtain ⟨-, h⟩ := h
  cases q with
  | state op =>
      obtain ⟨rfl, rfl⟩ := h
      exact guardOf_run w.clock op
  | unixTime | accountSequence =>
      obtain ⟨-, rfl⟩ := h
      rfl
  | checkKeeperBalance | pendingKeys | sleep =>
      obtain rfl := h
      rfl
  | send work =>
      obtain rfl := h
      cases work <;> rfl
  | settle =>
      obtain ⟨s, rest, tr, -, -, -, rfl⟩ := h
      rfl
  | abort => exact absurd h id

theorem guardOf_perform (op : AdminOp) :
    guardOf (op.run app).2 = (guardOf app).after (adminEvent op (op.run app).1) := by
  cases op with
  | removeBlacklisted key =>
      by_cases h : app.frozenOrderBlacklist.contains key = true
      · simp only [AdminOp.run, adminEvent, h, if_true, Guard.after]
        refine Guard.ext (funext fun key' => ?_) rfl
        show (app.frozenOrderBlacklist.erase key).contains key' =
          ((guardOf app).apply (.freed key)).bars key'
        rw [Std.TreeMap.contains_erase]
        by_cases hkey : key' = key
        · subst hkey
          rw [Guard.apply_freed_bars]
          simp
        · rw [Guard.apply_bars_of_ne (by simp) (by simpa using Ne.symm hkey)]
          simp [guardOf, Ne.symm hkey]
      · simp only [AdminOp.run, adminEvent, h, Guard.after]
        refine Guard.ext (funext fun key' => ?_) rfl
        show (app.frozenOrderBlacklist.erase key).contains key' =
          app.frozenOrderBlacklist.contains key'
        rw [Std.TreeMap.contains_erase]
        by_cases hkey : key' = key
        · subst hkey
          rw [Bool.eq_false_of_not_eq_true h, Bool.and_false]
        · simp [Ne.symm hkey]
  | clearFailures counter key => exact guardOf_erase counter key

end Effects

section Calls

/-- The call has taken the key out of the blacklist and still has to reset the tally. -/
def Clears (counter : Counter) (key : String) : ClearCall → Prop
  | .ask (.clearFailures counter' key') next =>
      counter' = counter ∧ key' = key ∨ Clears counter key (next ())
  | _ => False

def Clearing (counter : Counter) (key : String) (calls : List ClearCall) : Prop :=
  ∃ call ∈ calls, Clears counter key call

/-- How far a call can be. -/
inductive Staged : ClearCall → Prop
  | begun (key : String) : Staged (clearBlacklistedKey key)
  | freed (key : String) : Staged (clearTallies key)
  | halfway (key : String) : Staged (clearExecutionFailures key)
  | ended (result : Except ApiError ClearBlacklistResponse) : Staged (.done result)

theorem clears_clearTallies (counter : Counter) (key : String) :
    Clears counter key (clearTallies key) := by
  cases counter with
  | freezeFailures => exact .inl ⟨rfl, rfl⟩
  | executionFailures => exact .inr (.inl ⟨rfl, rfl⟩)

theorem clearing_replace {counter : Counter} {key : String} {before after : List ClearCall}
    {call call' : ClearCall} (h : Clears counter key call → Clears counter key call')
    (hcalls : Clearing counter key (before ++ call :: after)) :
    Clearing counter key (before ++ call' :: after) := by
  obtain ⟨c, hc, hclears⟩ := hcalls
  rcases List.mem_append.mp hc with hc | hc
  · exact ⟨c, List.mem_append_left _ hc, hclears⟩
  · rcases List.mem_cons.mp hc with rfl | hc
    · exact ⟨call', List.mem_append_right _ List.mem_cons_self, h hclears⟩
    · exact ⟨c, List.mem_append_right _ (List.mem_cons_of_mem _ hc), hclears⟩

/-- What a step of the surroundings does to the guard, with the event it is. -/
structure Moved (w v : Watched) (e : Option GuardEvent) : Prop where
  history : v.history = e.toList ++ w.history
  guard : v.guard = w.guard.after e
  due : v.due = w.due
  event : e = none ∨ (∃ key, e = some (.freed key) ∧ w.guard.bars key = true) ∨
    ∃ counter key, e = some (.reset counter key)
  clearing : ∀ counter key, Clearing counter key w.calls →
    Clearing counter key v.calls ∨ e = some (.reset counter key)
  freed : ∀ key, e = some (.freed key) → ∀ counter, Clearing counter key v.calls
  staged : ∀ call ∈ v.calls, Staged call

theorem staged_replace {before after : List ClearCall} {call call' : ClearCall}
    (h : ∀ c ∈ before ++ call :: after, Staged c) (hcall' : Staged call') :
    ∀ c ∈ before ++ call' :: after, Staged c := by
  intro c hc
  rcases List.mem_append.mp hc with hc | hc
  · exact h c (List.mem_append_left _ hc)
  · rcases List.mem_cons.mp hc with rfl | hc
    · exact hcall'
    · exact h c (List.mem_append_right _ (List.mem_cons_of_mem _ hc))

theorem guardOf_sameGuard {app app' : AppState} (h : SameGuard app app') :
    guardOf app' = guardOf app := by
  refine Guard.ext ?_ (funext fun counter => ?_)
  · simp only [guardOf, h.frozenOrderBlacklist]
  · cases counter <;> simp only [guardOf, AppState.counts, h.freezeFailureCounts,
      h.executionFailureCounts]

theorem Clearing.replaced {before after : List ClearCall} {call : ClearCall} {counter : Counter}
    {key : String} (h : Clears counter key call) : Clearing counter key (before ++ call :: after) :=
  ⟨call, List.mem_append_right _ List.mem_cons_self, h⟩

theorem moved_perform {w : Watched} {before after : List ClearCall} {op : AdminOp}
    {next : op.Answer → ClearCall} (hcalls : w.calls = before ++ .ask op next :: after)
    (hstaged : ∀ call ∈ w.calls, Staged call) :
    Moved w (w.perform op (before ++ next (op.run w.world.app).1 :: after))
      (adminEvent op (op.run w.world.app).1) := by
  have hguard : guardOf (op.run w.world.app).2 =
      (guardOf w.world.app).after (adminEvent op (op.run w.world.app).1) := guardOf_perform op
  have hcall : Staged (.ask op next) :=
    hstaged _ (hcalls ▸ List.mem_append_right _ List.mem_cons_self)
  have hrest : ∀ call : ClearCall, Staged call → ∀ c ∈ before ++ call :: after, Staged c :=
    fun call => staged_replace (hcalls ▸ hstaged)
  have hkept : ∀ call : ClearCall, ∀ counter key,
      (Clears counter key (.ask op next) → Clears counter key call) →
      Clearing counter key w.calls → Clearing counter key (before ++ call :: after) :=
    fun call counter key h hclearing => clearing_replace h (hcalls ▸ hclearing)
  generalize hask : (Program.ask op next : ClearCall) = call at hcall
  cases hcall with
  | begun key =>
      cases hask
      by_cases hbars : ((AdminOp.removeBlacklisted key).run w.world.app).1 = true
      · have hevent : adminEvent (.removeBlacklisted key)
            ((AdminOp.removeBlacklisted key).run w.world.app).1 = some (.freed key) := if_pos hbars
        refine ⟨rfl, hguard, rfl, .inr (.inl ⟨key, hevent, hbars⟩), ?_, ?_, ?_⟩
        · exact fun counter key' hclearing => .inl (hkept _ counter key' (fun h => absurd h id) hclearing)
        · intro key' hfreed counter
          rw [hevent] at hfreed
          cases hfreed
          refine .replaced ?_
          show Clears counter key (if _ = true then clearTallies key else _)
          rw [if_pos hbars]
          exact clears_clearTallies counter key
        · refine hrest _ ?_
          show Staged (if _ = true then clearTallies key else _)
          rw [if_pos hbars]
          exact .freed key
      · have hevent : adminEvent (.removeBlacklisted key)
            ((AdminOp.removeBlacklisted key).run w.world.app).1 = none := if_neg hbars
        refine ⟨rfl, hguard, rfl, .inl hevent, ?_, ?_, ?_⟩
        · exact fun counter key' hclearing => .inl (hkept _ counter key' (fun h => absurd h id) hclearing)
        · intro key' hfreed
          rw [hevent] at hfreed
          cases hfreed
        · refine hrest _ ?_
          show Staged (if _ = true then clearTallies key else _)
          rw [if_neg hbars]
          exact .ended _
  | freed key =>
      cases hask
      refine ⟨rfl, hguard, rfl, .inr (.inr ⟨.freezeFailures, key, rfl⟩), ?_, (fun _ h => nomatch h),
        ?_⟩
      · intro counter key' hclearing
        by_cases hsame : counter = .freezeFailures ∧ key' = key
        · obtain ⟨rfl, rfl⟩ := hsame
          exact .inr rfl
        · refine .inl (hkept _ counter key' (fun h => ?_) hclearing)
          rcases h with ⟨rfl, rfl⟩ | h
          · exact absurd ⟨rfl, rfl⟩ hsame
          · exact h
      · exact hrest _ (.halfway key)
  | halfway key =>
      cases hask
      refine ⟨rfl, hguard, rfl, .inr (.inr ⟨.executionFailures, key, rfl⟩), ?_,
        (fun _ h => nomatch h), ?_⟩
      · intro counter key' hclearing
        by_cases hsame : counter = .executionFailures ∧ key' = key
        · obtain ⟨rfl, rfl⟩ := hsame
          exact .inr rfl
        · refine .inl (hkept _ counter key' (fun h => ?_) hclearing)
          rcases h with ⟨rfl, rfl⟩ | h
          · exact absurd ⟨rfl, rfl⟩ hsame
          · exact h
      · exact hrest _ (.ended _)
  | ended => cases hask

theorem moves_moved {w v : Watched} (h : Moves w v) (hstaged : ∀ call ∈ w.calls, Staged call) :
    ∃ e, Moved w v e := by
  cases h with
  | world v hi hguard =>
      exact ⟨none, rfl, guardOf_sameGuard hguard, rfl, .inl rfl, fun _ _ h => .inl h,
        (fun _ h => nomatch h), hstaged⟩
  | call key =>
      refine ⟨none, rfl, rfl, rfl, .inl rfl, ?_, (fun _ h => nomatch h), ?_⟩
      · rintro counter key' ⟨c, hc, hclears⟩
        exact .inl ⟨c, List.mem_cons_of_mem _ hc, hclears⟩
      · intro c hc
        rcases List.mem_cons.mp hc with rfl | hc
        · exact .begun key
        · exact hstaged c hc
  | perform before op next after hcalls => exact ⟨_, moved_perform hcalls hstaged⟩

theorem Moved.bars {w v : Watched} {e : Option GuardEvent} (h : Moved w v e) {key : String}
    (hkey : w.guard.bars key = false) : v.guard.bars key = false := by
  rw [h.guard]
  obtain rfl | ⟨key', rfl, -⟩ | ⟨counter, key', rfl⟩ := h.event
  · exact hkey
  · by_cases heq : key' = key
    · subst heq
      exact Guard.apply_freed_bars
    · refine (Guard.apply_bars_of_ne (e := .freed key') (fun h => nomatch h) (fun h => heq ?_)).trans
        hkey
      cases h
      rfl
  · exact hkey

theorem Moved.not_counted {w v : Watched} {e : Option GuardEvent} (he : Moved w v e) (counter : Counter)
    (key : String) : e ≠ some (.counted counter key) := by
  obtain rfl | ⟨key', rfl, -⟩ | ⟨counter', key', rfl⟩ := he.event
  · exact fun h => nomatch h
  · exact fun h => nomatch h
  · exact fun h => nomatch h

/-- A key that is barred no more has just been freed. -/
theorem Moved.bars_before {w v : Watched} {key : String} {e : Option GuardEvent} (he : Moved w v e)
    (hbars : v.guard.bars key = false) : w.guard.bars key = false ∨ e = some (.freed key) := by
  rw [he.guard] at hbars
  obtain rfl | ⟨key', rfl, -⟩ | ⟨counter', key', rfl⟩ := he.event
  · exact .inl hbars
  · by_cases heq : key' = key
    · exact .inr (by rw [heq])
    · have hother : (Event.freed key' : GuardEvent) ≠ .freed key := by
        rintro ⟨⟩
        exact heq rfl
      have hkept := Guard.apply_bars_of_ne (b := w.guard) (e := .freed key')
        (fun h => nomatch h) hother
      exact .inl (hkept.symm.trans hbars)
  · exact .inl hbars

/-- The keeper's own world takes at most one step. -/
theorem moves_world {w v : Watched} (h : Moves w v) :
    v.world = w.world ∨ Interference w.world v.world := by
  cases h with
  | world v hi => exact .inr hi
  | call => exact .inl rfl
  | perform before op =>
      refine .inr (.shared w.world _ ?_)
      cases op with
      | removeBlacklisted => exact ⟨rfl, rfl, rfl⟩
      | clearFailures counter => cases counter <;> exact ⟨rfl, rfl, rfl⟩

end Calls

end So4Oracle.KeeperGuard
