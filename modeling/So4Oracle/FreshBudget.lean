import So4Oracle.GuardModes
import So4Oracle.GuardScript

namespace So4Oracle.FreshBudget

open Library.Checked Library.Requests Library.Safety Library.Breaker Wire Config State Chain Submit
  Handler Keeper KeeperRuns KeeperRequests Admin KeeperGuard GuardModes

variable {crates : Crates} {settings : Settings} {sign : Transaction → Except String String}
  {m m' : Mode} {w v : Watched} {counter : Counter} {key : String} {q : KeeperRequest} {r : q.Answer}

section Budget

/-- The failures counted since the handler last removed the key from the blacklist. -/
def sinceFreed (counter : Counter) (key : String) : List GuardEvent → Nat :=
  failuresSince (fun e => decide (e = .freed key)) counter key

/-- As many failures as bar a key. -/
def Earned (key : String) (history : List GuardEvent) : Prop :=
  ∃ counter, failureLimit counter ≤ sinceFreed counter key history

def BarredEarned (e : GuardEvent) (older : List GuardEvent) : Prop :=
  ∀ key, e = .barred key → .freed key ∈ older → Earned key older

/-- A tally that a call of the handler still has to reset, and that holds failures
from before the removal, is not counted up to its limit. -/
def CountsBelow (q : KeeperRequest) (w : Watched) (r : q.Answer) (_ : Watched) : Prop :=
  ∀ counter key, requestEvent q r = some (.counted counter key) → Clearing counter key w.calls →
    sinceFreed counter key w.history < w.guard.tally counter key →
      w.guard.tally counter key + 1 < failureLimit counter

/-- No key is removed from the blacklist while a tally at its limit is about to bar it. -/
def FreedUndue (w v : Watched) : Prop :=
  ∀ key, v.history = .freed key :: w.history → w.due ≠ some key

variable (crates settings) in
def orderly : Surroundings KeeperRequest KeeperRequest.Answer Watched :=
  (watched crates settings).restrict CountsBelow FreedUndue

structure Budgeted (m : Mode) (w : Watched) : Prop extends Tracked m w where
  tally : ∀ counter key, .freed key ∈ w.history → ¬Clearing counter key w.calls →
    w.guard.tally counter key ≤ sinceFreed counter key w.history
  earned : ∀ key, m.due = some key → .freed key ∈ w.history → Earned key w.history
  barred : Throughout BarredEarned w.history

theorem not_freed {e : GuardEvent} (h : e ≠ .freed key) : decide (e = .freed key) = false :=
  decide_eq_false h

theorem freed_before {e : Option GuardEvent} {history : List GuardEvent}
    (h : e ≠ some (.freed key)) (hmem : .freed key ∈ e.toList ++ history) :
    .freed key ∈ history := by
  rcases List.mem_append.mp hmem with hmem | hmem
  · exact absurd (Option.mem_toList.mp hmem) h
  · exact hmem

theorem tally_le_sinceFreed {b : Guard Counter String} {e : Option GuardEvent}
    {history : List GuardEvent} (h : e ≠ some (.freed key))
    (hle : b.tally counter key ≤ sinceFreed counter key history) :
    (b.after e).tally counter key ≤ sinceFreed counter key (e.toList ++ history) := by
  cases e with
  | none => exact hle
  | some e =>
      exact Guard.tally_le_failuresSince (not_freed (fun heq => h (congrArg some heq))) hle

theorem Earned.record {e : Option GuardEvent} {history : List GuardEvent} (h : Earned key history)
    (he : e ≠ some (.freed key)) : Earned key (e.toList ++ history) := by
  obtain ⟨counter, hearned⟩ := h
  refine ⟨counter, ?_⟩
  cases e with
  | none => exact hearned
  | some e =>
      exact Nat.le_trans hearned
        (failuresSince_le_cons (not_freed (fun heq => he (congrArg some heq))))

end Budget

section Steps

theorem budgeted_moves (hw : Budgeted m w) (h : (orderly crates settings).interfere w v) :
    Budgeted m v := by
  obtain ⟨e, he⟩ := moves_moved h.1 hw.staged
  refine ⟨tracked_moves hw.toTracked h.1, ?_, ?_, ?_⟩
  · intro counter key hmem hclearing
    have hfreed : e ≠ some (.freed key) := fun heq => hclearing (he.freed key heq counter)
    rw [he.history] at hmem ⊢
    rw [he.guard]
    by_cases hclears : Clearing counter key w.calls
    · rcases he.clearing counter key hclears with hstill | hreset
      · exact absurd hstill hclearing
      · have hzero : (w.guard.after (some (.reset counter key))).tally counter key = 0 :=
          Guard.apply_reset_tally
        rw [hreset, hzero]
        exact Nat.zero_le _
    · exact tally_le_sinceFreed hfreed (hw.tally counter key (freed_before hfreed hmem) hclears)
  · intro key hdue hmem
    have hfreed : e ≠ some (.freed key) := by
      rintro rfl
      exact h.2 key he.history (hw.due.trans hdue)
    rw [he.history] at hmem ⊢
    exact (hw.earned key hdue (freed_before hfreed hmem)).record hfreed
  · rw [he.history]
    refine hw.barred.record (fun e' heq key hbarred _ => ?_)
    subst heq
    subst hbarred
    obtain h | ⟨key', h, -⟩ | ⟨counter, key', h⟩ := he.event
    · cases h
    · cases h
    · cases h

/-- A key becomes due by a failure that its removal accounts for. -/
theorem earned_of_counted {n : Nat}
    (htally : w.guard.tally counter key ≤ sinceFreed counter key w.history)
    (ha : (watched crates settings).answer (.state (.countFailure counter key)) w (.ok n) v)
    (hlimit : failureLimit counter ≤ n) : Earned key v.history := by
  have hsince : sinceFreed counter key v.history = sinceFreed counter key w.history + 1 := by
    rw [ha.2.2.1]
    exact failuresSince_counted (not_freed (fun h => nomatch h))
  have hn := (answer_countFailure ha).1
  exact ⟨counter, by omega⟩

theorem budgeted_step (hw : Budgeted m w) (hstep : Step m q r m')
    (ha : (orderly crates settings).answer q w r v) : Budgeted m' v := by
  obtain ⟨ha, hbelow⟩ := ha
  have hfreed : ∀ key, requestEvent q r ≠ some (.freed key) := requestEvent_ne_freed q r
  have hmem : ∀ key, .freed key ∈ v.history → .freed key ∈ w.history := by
    intro key hmem
    rw [ha.2.2.1] at hmem
    exact freed_before (hfreed key) hmem
  have htally : ∀ counter key, .freed key ∈ v.history → ¬Clearing counter key v.calls →
      v.guard.tally counter key ≤ sinceFreed counter key v.history := by
    intro counter key hin hclearing
    rw [ha.2.1] at hclearing
    rw [answer_watched ha, ha.2.2.1]
    exact tally_le_sinceFreed (hfreed key) (hw.tally counter key (hmem key hin) hclearing)
  have hkept : ∀ key, m.due = some key → .freed key ∈ v.history → Earned key v.history := by
    intro key hdue hin
    rw [ha.2.2.1]
    exact (hw.earned key hdue (hmem key hin)).record (hfreed key)
  -- A tally with failures from before the removal does not reach its limit.
  have hcounted : ∀ counter key n, requestEvent q r = some (.counted counter key) →
      n = w.guard.tally counter key + 1 → failureLimit counter ≤ n → .freed key ∈ v.history →
      w.guard.tally counter key ≤ sinceFreed counter key w.history := by
    intro counter key n hevent hn hlimit hin
    by_cases hclearing : Clearing counter key w.calls
    · by_contra hstale
      have hlt := hbelow counter key hevent hclearing (Nat.lt_of_not_le hstale)
      omega
    · exact hw.tally counter key (hmem key hin) hclearing
  refine ⟨tracked_step hw.toTracked hstep ha, htally, ?_, ?_⟩
  · intro key hdue hin
    cases hstep with
    | routine | publish | submit | settle | reset | overflow => exact hkept key hdue hin
    | condemn => exact hkept key hdue hin
    | overFrozen key' n hlimit =>
        cases hdue
        exact earned_of_counted (hcounted _ key n rfl (answer_countFailure ha).1 hlimit hin) ha hlimit
    | exhausted hm n hlimit =>
        cases hdue
        exact earned_of_counted (hcounted _ key n rfl (answer_countFailure ha).1 hlimit hin) ha hlimit
    | skip | pass | freezeFailed | barFrozen | failed | found | bar => cases hdue
  · rw [ha.2.2.1]
    refine hw.barred.record (fun e heq key hbarred hin => ?_)
    subst hbarred
    cases hstep with
    | barFrozen key' n | bar key' n =>
        cases heq
        exact hw.earned _ rfl hin
    | routine m hq r =>
        rw [requestEvent_routine hq] at heq
        cases heq
    | _ => cases heq

theorem budgeted_carried : Carried (orderly crates settings) cut Budgeted where
  stable m w v hw h := budgeted_moves hw h
  step m q r m' w v hw hstep ha := budgeted_step hw hstep ha
  atRest m w hm hw := ⟨hw.toTracked.atRest hm, hw.tally, (fun _ h => nomatch h), hw.barred⟩
  drop m w v hw hd := by
    subst hd
    exact ⟨hw.toTracked.leave, hw.tally, (fun _ h => nomatch h), hw.barred⟩
  enter w hw := ⟨hw.toTracked.enter, hw.tally, (fun _ h => nomatch h), hw.barred⟩

theorem budgeted_of_unobserved (h : Unobserved w) : Budgeted .free w := by
  refine ⟨h.tracked, ?_, (fun _ h => nomatch h), ?_⟩
  · intro counter key hmem
    rw [h.history] at hmem
    cases hmem
  · rw [h.history]
    trivial

/-- In every run in which no stale tally reaches its limit and no due key is
removed, a key that was removed from the blacklist is inserted again only after as
many failures as its fresh budget allows. -/
theorem clearBlacklistedKey_fresh_budget {u : Watched} (hw : Unobserved w)
    (hrun : GuardRuns crates settings sign (orderly crates settings) cut w v)
    (hvisit : Visits (orderly crates settings) (executeKeeperCycle crates settings sign) v.enter u)
    {newer middle older : List GuardEvent}
    (hhistory : u.history = newer ++ .barred key :: (middle ++ .freed key :: older))
    (hfreed : .freed key ∉ middle) :
    ∃ counter, failureLimit counter ≤ middle.count (.counted counter key) := by
  obtain ⟨m, hu⟩ := budgeted_carried.visits (budgeted_of_unobserved hw) hrun hvisit
  have hbarred := hu.barred
  rw [hhistory] at hbarred
  have hin : Event.freed key ∈ middle ++ .freed key :: older :=
    List.mem_append_right _ List.mem_cons_self
  obtain ⟨counter, hearned⟩ := hbarred.at key rfl hin
  have hsegment : ∀ e ∈ middle, decide (e = .freed key) = false :=
    fun e he => not_freed (fun heq => hfreed (heq ▸ he))
  have hends : failuresSince (fun e => decide (e = .freed key)) counter key (.freed key :: older) = 0 :=
    failuresSince_ends (decide_eq_true rfl)
  rw [sinceFreed, failuresSince_append hsegment, hends, Nat.add_zero] at hearned
  exact ⟨counter, hearned⟩

end Steps

open KeeperScript GuardScript

section Samples

abbrev SampleRuns (S : Surroundings KeeperRequest KeeperRequest.Answer Watched) : Watched → Watched → Prop :=
  GuardRuns nodeCrates keeperSettings sampleSign S cut

def refusingNode : Script := refusedHandlers fun _ => false

/-- The key has left the blacklist, its tallies are still to be reset. -/
def halfwayCall : Watched := removeKey barredWorld "aa"

def clearedKey : Watched := resetExecutions (resetFreezes halfwayCall "aa" []) "aa" []

theorem orderly_interfere {w v : Watched} (h : Moves w v) (hdue : w.due = none) :
    (orderly nodeCrates keeperSettings).interfere w v := by
  refine ⟨h, fun key _ => ?_⟩
  rw [hdue]
  exact fun h => nomatch h

theorem guardRuns_halfwayCall :
    SampleRuns (orderly nodeCrates keeperSettings) barredWorld halfwayCall :=
  .interfere (.interfere .start (orderly_interfere (.call barredWorld "aa") rfl))
    (orderly_interfere (moves_removeKey (by decide +kernel)) rfl)

theorem guardRuns_clearedKey :
    SampleRuns (orderly nodeCrates keeperSettings) barredWorld clearedKey :=
  .interfere (.interfere guardRuns_halfwayCall (orderly_interfere (moves_resetFreezes rfl) rfl))
    (orderly_interfere (moves_resetExecutions rfl) rfl)

/-- Without a call under way the player never counts into a stale tally. -/
theorem visits_orderly {w : Watched} (hcalls : ∀ counter key, ¬Clearing counter key w.calls) :
    Visits (orderly nodeCrates keeperSettings)
      (executeKeeperCycle nodeCrates keeperSettings sampleSign) w
      (play (watch (respond refusingNode))
        (executeKeeperCycle nodeCrates keeperSettings sampleSign) w) := by
  refine visits_play_within (I := fun w => ∀ counter key, ¬Clearing counter key w.calls) ?_ _ hcalls
  intro q w r u hw hq
  obtain ⟨v, hv, ha⟩ := watch_answers (refusedHandlers_possible _) hq
  have hvcalls : v.calls = w.calls := by
    obtain rfl | ⟨-, -, h⟩ := hv
    · rfl
    · exact h
  have hbelow : CountsBelow q v r u := by
    intro counter key _ hclearing
    rw [hvcalls] at hclearing
    exact absurd hclearing (hw counter key)
  refine ⟨?_, v, ?_, ha, hbelow⟩
  · rw [ha.2.1, hvcalls]
    exact hw
  · obtain rfl | ⟨hi, hhistory, -⟩ := hv
    · exact .refl
    · refine .single ⟨hi, fun key hfreed => ?_⟩
      rw [hhistory] at hfreed
      exact absurd hfreed.symm (List.cons_ne_self _ _)

theorem not_clearing_iterate (cycles : Nat) (counter : Counter) (key : String) :
    ¬Clearing counter key ((watchCycle refusingNode)^[cycles] clearedKey).calls := by
  induction cycles with
  | zero =>
      rintro ⟨call, hcall, hclears⟩
      obtain rfl := List.mem_singleton.mp hcall
      exact hclears
  | succ cycles ih =>
      have hcalls : (watchCycle refusingNode ((watchCycle refusingNode)^[cycles] clearedKey)).calls =
          ((watchCycle refusingNode)^[cycles] clearedKey).calls := play_watch_calls _ _ _
      rw [Function.iterate_succ_apply', hcalls]
      exact ih

theorem guardRuns_refused (cycles : Nat) :
    SampleRuns (orderly nodeCrates keeperSettings) barredWorld
      ((watchCycle refusingNode)^[cycles] clearedKey) := by
  induction cycles with
  | zero => exact guardRuns_clearedKey
  | succ cycles ih =>
      rw [Function.iterate_succ_apply']
      exact .round ih (visits_orderly (not_clearing_iterate cycles)) rfl

/-- The history of the resets and the refused executions after them. -/
def refusals : Nat → List GuardEvent
  | 0 => [.reset .executionFailures "aa", .reset .freezeFailures "aa"]
  | n + 1 => .counted .executionFailures "aa" :: .tried "aa" :: refusals n

end Samples

/-- After a whole call of the handler the key is barred by its fifth failure. -/
theorem clearBlacklistedKey_fresh_budget_refused :
    ((watchCycle refusingNode)^[5] clearedKey).history =
        .reset .executionFailures "aa" :: .barred "aa" :: (.tried "aa" :: refusals 5) ++
          [.freed "aa"] ∧
      ∃ counter, failureLimit counter ≤
        (.tried "aa" :: refusals 5 : List GuardEvent).count (.counted counter "aa") := by
  have hhistory : ((watchCycle refusingNode)^[5] clearedKey).history =
      [.reset .executionFailures "aa"] ++ .barred "aa" :: ((.tried "aa" :: refusals 5) ++
        .freed "aa" :: []) := by decide +kernel
  have hvisit : Visits (orderly nodeCrates keeperSettings)
      (executeKeeperCycle nodeCrates keeperSettings sampleSign)
      ((watchCycle refusingNode)^[5] clearedKey).enter
      ((watchCycle refusingNode)^[5] clearedKey).enter := .here _ .refl
  exact ⟨hhistory, clearBlacklistedKey_fresh_budget ⟨rfl, rfl, rfl, rfl⟩ (guardRuns_refused 5) hvisit
    hhistory (by decide)⟩

/-- The handler has removed the key and not yet reset its tallies when an execution
fails: one failure bars the key again. -/
theorem clearBlacklistedKey_stale_tally :
    SampleRuns (watched nodeCrates keeperSettings) barredWorld (watchCycle refusingNode halfwayCall) ∧
      ∃ newer middle older, (watchCycle refusingNode halfwayCall).history =
          newer ++ .barred "aa" :: (middle ++ .freed "aa" :: older) ∧ .freed "aa" ∉ middle ∧
        ¬∃ counter, failureLimit counter ≤ middle.count (.counted counter "aa") := by
  refine ⟨guardRuns_watchCycle (refusedHandlers_possible _) (.interfere (.interfere .start
    (.call barredWorld "aa")) (moves_removeKey (by decide +kernel))), ?_⟩
  refine ⟨[.reset .executionFailures "aa"],
    [.tried "aa", .counted .executionFailures "aa", .tried "aa"], [], by decide +kernel, by decide, ?_⟩
  rintro ⟨counter, hcounted⟩
  revert hcounted
  cases counter <;> decide

end So4Oracle.FreshBudget
