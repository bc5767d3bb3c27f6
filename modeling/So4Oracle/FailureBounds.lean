import So4Oracle.GuardModes
import So4Oracle.GuardScript

namespace So4Oracle.FailureBounds

open Library.Checked Library.Requests Library.Safety Library.Breaker Wire Config State Chain Submit
  Handler Keeper KeeperRuns KeeperRequests KeeperGuard GuardModes

variable {crates : Crates} {settings : Settings} {sign : Transaction → Except String String}
  {m m' : Mode} {w v : Watched} {counter : Counter} {key : String}

/-- A cycle ends with no key due for the blacklist and missing in it. -/
def cutDecided (w v : Watched) : Prop :=
  v = w.leave ∧ ∀ key, w.due = some key → key ∈ w.world.app.frozenOrderBlacklist

section Counting

/-- A key begins anew when its tally is reset and when it leaves the blacklist. -/
def restarts (counter : Counter) (key : String) (e : GuardEvent) : Bool :=
  decide (e = .freed key ∨ e = .reset counter key)

def streak (counter : Counter) (key : String) : List GuardEvent → Nat :=
  failuresSince (restarts counter key) counter key

def StreakWithin (e : GuardEvent) (older : List GuardEvent) : Prop :=
  ∀ counter key, streak counter key (e :: older) ≤ failureLimit counter

/-- The mode in which the execution failure of the key is still to be counted after
a freeze failure. -/
def Mode.counting : Mode → Option String
  | .overFrozen key | .barred key => some key
  | .submitting m => Mode.counting m
  | _ => none

structure Bounded (m : Mode) (w : Watched) : Prop extends Tracked m w where
  tally : ∀ counter key, w.guard.bars key = false → w.due ≠ some key →
    ¬Clearing counter key w.calls → w.guard.tally counter key < failureLimit counter
  streak_le : ∀ counter key, streak counter key w.history ≤ w.guard.tally counter key
  streak_lt : ∀ counter key, w.guard.bars key = false → w.due ≠ some key →
    streak counter key w.history < failureLimit counter
  counting : ∀ key, Mode.counting m = some key →
    streak .executionFailures key w.history < failureLimit .executionFailures
  within : Throughout StreakWithin w.history

theorem failureLimit_pos (counter : Counter) : 0 < failureLimit counter := by
  cases counter <;> decide

theorem restarts_counted : restarts counter key (.counted counter key) = false :=
  decide_eq_false (by rintro (h | h) <;> cases h)

theorem restarts_reset : restarts counter key (.reset counter key) = true :=
  decide_eq_true (.inr rfl)

theorem streak_record_le {e : Option GuardEvent} {history : List GuardEvent}
    (h : e ≠ some (.counted counter key)) :
    streak counter key (e.toList ++ history) ≤ streak counter key history := by
  cases e with
  | none => exact Nat.le_refl _
  | some e => exact failuresSince_cons_le (fun heq => h (congrArg some heq))

theorem streak_freed (history : List GuardEvent) :
    streak counter key (.freed key :: history) = 0 :=
  failuresSince_ends (decide_eq_true (.inl rfl))

theorem tally_after_le {b : Guard Counter String} {e : Option GuardEvent}
    (h : e ≠ some (.counted counter key)) : (b.after e).tally counter key ≤ b.tally counter key := by
  cases e with
  | none => exact Nat.le_refl _
  | some e => exact Guard.apply_tally_le (fun heq => h (congrArg some heq))

theorem streak_le_after {b : Guard Counter String} {e : Option GuardEvent}
    {history : List GuardEvent} (h : streak counter key history ≤ b.tally counter key) :
    streak counter key (e.toList ++ history) ≤ (b.after e).tally counter key := by
  cases e with
  | none => exact h
  | some e => exact Guard.failuresSince_le_tally restarts_reset h

theorem Bounded.streak_le_limit (hw : Bounded m w) (counter : Counter) (key : String) :
    streak counter key w.history ≤ failureLimit counter := by
  have hwithin := hw.within
  cases hhistory : w.history with
  | nil => exact Nat.zero_le _
  | cons e older =>
      rw [hhistory] at hwithin
      exact hwithin.1 counter key

end Counting

section Moves

theorem bounded_moves (hw : Bounded m w) (h : Moves w v) : Bounded m v := by
  obtain ⟨e, he⟩ := moves_moved h hw.staged
  have hquiet := he.not_counted
  refine ⟨tracked_moves hw.toTracked h, ?_, ?_, ?_, ?_, ?_⟩
  · intro counter key hbars hdue hclearing
    rw [he.due] at hdue
    rcases he.bars_before hbars with hbefore | hfreed
    · rw [he.guard]
      by_cases hclears : Clearing counter key w.calls
      · rcases he.clearing counter key hclears with hstill | hreset
        · exact absurd hstill hclearing
        · have hzero : (w.guard.after (some (.reset counter key))).tally counter key = 0 :=
            Guard.apply_reset_tally
          rw [hreset, hzero]
          exact failureLimit_pos counter
      · have hbefore := hw.tally counter key hbefore hdue hclears
        exact Nat.lt_of_le_of_lt (tally_after_le (hquiet counter key)) hbefore
    · exact absurd (he.freed key hfreed counter) hclearing
  · intro counter key
    rw [he.history, he.guard]
    exact streak_le_after (hw.streak_le counter key)
  · intro counter key hbars hdue
    rw [he.due] at hdue
    rw [he.history]
    rcases he.bars_before hbars with hbefore | hfreed
    · have hbefore := hw.streak_lt counter key hbefore hdue
      exact Nat.lt_of_le_of_lt (streak_record_le (hquiet counter key)) hbefore
    · rw [hfreed, Option.toList_some, List.singleton_append, streak_freed]
      exact failureLimit_pos counter
  · intro key hkey
    rw [he.history]
    exact Nat.lt_of_le_of_lt (streak_record_le (hquiet _ key)) (hw.counting key hkey)
  · rw [he.history]
    refine hw.within.record (fun e' heq counter key => ?_)
    subst heq
    exact Nat.le_trans (streak_record_le (e := some e') (hquiet counter key))
      (hw.streak_le_limit counter key)

end Moves

section Steps

variable {q : KeeperRequest} {r : q.Answer}

theorem streak_counted_le {history : List GuardEvent}
    (h : streak counter key history < failureLimit counter) :
    streak counter key (.counted counter key :: history) ≤ failureLimit counter := by
  have hsucc : streak counter key (.counted counter key :: history) =
      streak counter key history + 1 := failuresSince_counted restarts_counted
  omega

/-- A tally is counted up only for a key that has not used up its failures. -/
theorem counted_streak_lt (hw : Bounded m w) (hstep : Step m q r m')
    (hcounted : requestEvent q r = some (.counted counter key)) :
    streak counter key w.history < failureLimit counter := by
  have hcleared : ∀ counter key, m = .cleared key →
      streak counter key w.history < failureLimit counter := by
    rintro counter key rfl
    refine hw.streak_lt counter key (hw.spared key rfl) ?_
    rw [hw.due]
    exact fun h => nomatch h
  have hcounts : ∀ key, m.Counts key →
      streak .executionFailures key w.history < failureLimit .executionFailures := by
    intro key hm
    cases hm with
    | cleared => exact hcleared _ key rfl
    | barred => exact hw.counting key rfl
  cases hstep with
  | routine m hq r =>
      rw [requestEvent_routine hq] at hcounted
      cases hcounted
  | freezeFailed key' n h | overFrozen key' n h =>
      cases hcounted
      exact hcleared _ _ rfl
  | failed hm n h | exhausted hm n h =>
      cases hcounted
      exact hcounts _ hm
  | _ => cases hcounted

theorem counting_step (hw : Bounded m w) (hstep : Step m q r m')
    (hkey : Mode.counting m' = some key) :
    streak .executionFailures key ((requestEvent q r).toList ++ w.history) <
      failureLimit .executionFailures := by
  have hkept : Mode.counting m = some key → requestEvent q r ≠ some (.counted .executionFailures key) →
      streak .executionFailures key ((requestEvent q r).toList ++ w.history) <
        failureLimit .executionFailures :=
    fun hm hevent => Nat.lt_of_le_of_lt (streak_record_le hevent) (hw.counting key hm)
  cases hstep with
  | routine m hq r =>
      refine hkept hkey ?_
      rw [requestEvent_routine hq]
      exact fun h => nomatch h
  | publish | submit | settle | reset | overflow | barFrozen =>
      exact hkept hkey (fun h => nomatch h)
  | overFrozen key' n h =>
      cases hkey
      refine Nat.lt_of_le_of_lt (streak_record_le (fun h => nomatch h)) ?_
      refine hw.streak_lt _ key (hw.spared key rfl) ?_
      rw [hw.due]
      exact fun h => nomatch h
  | skip | pass | freezeFailed | failed | exhausted | found | condemn | bar => cases hkey

theorem bounded_step (hw : Bounded m w) (hstep : Step m q r m')
    (ha : (watched crates settings).answer q w r v) : Bounded m' v := by
  have hguard := answer_watched ha
  have hstreak : ∀ counter key, streak counter key v.history ≤ v.guard.tally counter key := by
    intro counter key
    rw [ha.2.2.1, hguard]
    exact streak_le_after (hw.streak_le counter key)
  refine ⟨tracked_step hw.toTracked hstep ha, ?_, hstreak, ?_, ?_, ?_⟩
  · intro counter key hbars hdue hclearing
    rw [ha.2.1] at hclearing
    obtain ⟨hbefore, hnotDue⟩ := unbarred_before hw.toTracked hstep ha hbars hdue
    by_cases hcounted : requestEvent q r = some (.counted counter key)
    · exact answer_counted ha hcounted hdue
    · rw [hguard]
      exact Nat.lt_of_le_of_lt (tally_after_le hcounted) (hw.tally counter key hbefore hnotDue hclearing)
  · intro counter key hbars hdue
    obtain ⟨hbefore, hnotDue⟩ := unbarred_before hw.toTracked hstep ha hbars hdue
    by_cases hcounted : requestEvent q r = some (.counted counter key)
    · exact Nat.lt_of_le_of_lt (hstreak counter key) (answer_counted ha hcounted hdue)
    · rw [ha.2.2.1]
      exact Nat.lt_of_le_of_lt (streak_record_le hcounted) (hw.streak_lt counter key hbefore hnotDue)
  · intro key hkey
    rw [ha.2.2.1]
    exact counting_step hw hstep hkey
  · rw [ha.2.2.1]
    refine hw.within.record (fun e heq counter key => ?_)
    by_cases hcounted : e = .counted counter key
    · subst hcounted
      exact streak_counted_le (counted_streak_lt hw hstep heq)
    · refine Nat.le_trans (streak_record_le (e := some e) ?_) (hw.streak_le_limit counter key)
      exact fun h => hcounted (Option.some.inj h)

end Steps

section Runs

theorem Bounded.forget (hw : Bounded m w) (hm : Tracked .free v) (hworld : v.guard = w.guard)
    (hcalls : v.calls = w.calls) (hhistory : v.history = w.history)
    (hdue : ∀ key, w.guard.bars key = false → w.due ≠ some key) : Bounded .free v where
  toTracked := hm
  tally counter key hbars _ hclearing := by
    rw [hworld] at hbars ⊢
    rw [hcalls] at hclearing
    exact hw.tally counter key hbars (hdue key hbars) hclearing
  streak_le counter key := by
    rw [hworld, hhistory]
    exact hw.streak_le counter key
  streak_lt counter key hbars _ := by
    rw [hworld] at hbars
    rw [hhistory]
    exact hw.streak_lt counter key hbars (hdue key hbars)
  counting key hkey := nomatch hkey
  within := hhistory ▸ hw.within

theorem bounded_carried : Carried (watched crates settings) cutDecided Bounded where
  stable m w v hw h := bounded_moves hw h
  step m q r m' w v hw hstep ha := bounded_step hw hstep ha
  atRest m w hm hw := by
    refine hw.forget (hw.toTracked.atRest hm) rfl rfl rfl (fun key _ => ?_)
    rw [hw.due, hm.due_eq]
    exact fun h => nomatch h
  drop m w v hw hd := by
    obtain ⟨rfl, hdecided⟩ := hd
    refine hw.forget hw.toTracked.leave rfl rfl rfl (fun key hbars hdue => ?_)
    have hin : w.guard.bars key = true := Std.TreeMap.contains_iff_mem.mpr (hdecided key hdue)
    rw [hin] at hbars
    cases hbars
  enter w hw := by
    refine hw.forget hw.toTracked.enter rfl rfl rfl (fun key _ => ?_)
    rw [hw.due]
    exact fun h => nomatch h

/-- The service as it starts: no key has failed yet. -/
structure Fresh (w : Watched) : Prop extends Unobserved w where
  tallies : ∀ counter, w.world.app.counts counter = ∅

theorem Fresh.bounded (h : Fresh w) : Bounded .free w where
  toTracked := h.tracked
  tally counter key _ _ _ := by
    have hzero : w.guard.tally counter key = 0 := by
      show (w.world.app.counts counter).getD key 0 = 0
      rw [h.tallies, Std.TreeMap.getD_emptyc]
    rw [hzero]
    exact failureLimit_pos counter
  streak_le counter key := by
    rw [h.history]
    exact Nat.zero_le _
  streak_lt counter key _ _ := by
    rw [h.history]
    exact failureLimit_pos counter
  counting key hkey := nomatch hkey
  within := by
    rw [h.history]
    trivial

/-- In every run whose cycles end with no key due for the blacklist and missing in
it, a key outside of the blacklist is below both limits whenever no key is being
processed and no call of the handler is halfway with it, and between two resets no
key has more failures counted than the limit. -/
theorem between_tallies_below_limit (hw : Fresh w)
    (hv : Between crates settings sign (watched crates settings) cutDecided w v) :
    (∀ counter key, key ∉ v.world.app.frozenOrderBlacklist → ¬Clearing counter key v.calls →
        (v.world.app.counts counter).getD key 0 < failureLimit counter) ∧
      ∀ newer middle older counter key, v.history = newer ++ (middle ++ older) →
        .freed key ∉ middle → .reset counter key ∉ middle →
        middle.count (.counted counter key) ≤ failureLimit counter := by
  have hbounded := bounded_carried.between hw.bounded hv
  constructor
  · intro counter key hmem hclearing
    have hbars : v.guard.bars key = false := by
      rw [← Bool.not_eq_true]
      exact fun h => hmem (Std.TreeMap.contains_iff_mem.mp h)
    have hdue : v.due ≠ some key := by
      rw [hbounded.due]
      exact fun h => nomatch h
    exact hbounded.tally counter key hbars hdue hclearing
  · intro newer middle older counter key hhistory hfreed hreset
    cases middle with
    | nil => exact Nat.zero_le _
    | cons e middle =>
        have hwithin := hbounded.within
        rw [hhistory] at hwithin
        have hstreak : streak counter key (e :: middle ++ older) ≤ failureLimit counter :=
          hwithin.at counter key
        have hends : ∀ e' ∈ e :: middle, restarts counter key e' = false := by
          intro e' he'
          refine decide_eq_false ?_
          rintro (rfl | rfl)
          · exact hfreed he'
          · exact hreset he'
        rw [streak, failuresSince_append hends] at hstreak
        omega

end Runs

open KeeperScript GuardScript

section Samples

/-- Every execution is refused and no freeze is answered. -/
def silentFreezes : Script := refusedHandlers (fun method => method == "freeze_order")

def unansweredFreezes (cycles : Nat) : Watched := (watchCycle silentFreezes)^[cycles] startWatched

theorem guardRuns_unansweredFreezes (cycles : Nat) :
    GuardRuns nodeCrates keeperSettings sampleSign (watched nodeCrates keeperSettings) cut
      startWatched (unansweredFreezes cycles) := by
  induction cycles with
  | zero => exact .start
  | succ cycles ih =>
      rw [unansweredFreezes, Function.iterate_succ_apply']
      exact guardRuns_watchCycle (refusedHandlers_possible _) ih

/-- Every handler is refused. -/
def refusals (cycles : Nat) : Watched :=
  (watchCycle (refusedHandlers fun _ => false))^[cycles] startWatched

theorem guardRuns_refusals {cycles : Nat} (h : cycles ≤ 5) :
    GuardRuns nodeCrates keeperSettings sampleSign (watched nodeCrates keeperSettings) cutDecided
      startWatched (refusals cycles) := by
  have hdue : ∀ n < 5, (play (watch (respond (refusedHandlers fun _ => false)))
      (executeKeeperCycle nodeCrates keeperSettings sampleSign) (refusals n).enter).due = none := by
    decide +kernel
  induction cycles with
  | zero => exact .start
  | succ n ih =>
      rw [refusals, Function.iterate_succ_apply']
      refine .round (ih (by omega)) (visits_play (watch_plays (refusedHandlers_possible _)) _ _)
        ⟨rfl, fun key hkey => ?_⟩
      rw [hdue n (by omega)] at hkey
      cases hkey

theorem fresh_startWatched : Fresh startWatched where
  calls := rfl
  history := rfl
  due := rfl
  phase := rfl
  tallies counter := by cases counter <;> rfl

end Samples

/-- The fifth failed execution freezes the order, which is the most it can have. -/
theorem between_tallies_below_limit_refusals :
    ((refusals 4).world.app.counts .executionFailures).getD "aa" 0 = 4 ∧
      4 < failureLimit .executionFailures ∧
      "aa" ∈ (refusals 5).world.app.frozenOrderBlacklist ∧
      (refusals 5).history.count (.counted .executionFailures "aa") = 5 ∧
      ((refusals 5).history.drop 2).count (.counted .executionFailures "aa") ≤
        failureLimit .executionFailures := by
  have hfour : ((refusals 4).world.app.counts .executionFailures).getD "aa" 0 = 4 := by
    decide +kernel
  refine ⟨hfour, ?_, by decide +kernel, by decide +kernel, ?_⟩
  · have hcycles : 4 ≤ 5 := by decide
    have hrun := between_tallies_below_limit fresh_startWatched (.cycle (guardRuns_refusals hcycles))
    refine hfour ▸ hrun.1 .executionFailures "aa" (by decide +kernel) ?_
    rintro ⟨call, hcall, -⟩
    have hcalls : (refusals 4).calls = [] := by decide +kernel
    rw [hcalls] at hcall
    cases hcall
  · have hrun := between_tallies_below_limit fresh_startWatched (.cycle (guardRuns_refusals le_rfl))
    refine hrun.2 ((refusals 5).history.take 2) _ [] _ _ ?_ (by decide +kernel) (by decide +kernel)
    rw [List.append_nil, List.take_append_drop]

/-- The fifth cycle is cut while it waits for the freeze. -/
theorem execution_tally_reaches_limit :
    GuardRuns nodeCrates keeperSettings sampleSign (watched nodeCrates keeperSettings) cut
        startWatched (unansweredFreezes 5) ∧
      (unansweredFreezes 5).calls = [] ∧
      "aa" ∉ (unansweredFreezes 5).world.app.frozenOrderBlacklist ∧
      ¬((unansweredFreezes 5).world.app.counts .executionFailures).getD "aa" 0 <
        failureLimit .executionFailures :=
  ⟨guardRuns_unansweredFreezes 5, by decide +kernel⟩

end So4Oracle.FailureBounds
