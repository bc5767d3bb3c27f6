import So4Oracle.KeeperRequests
import So4Oracle.GuardScript

namespace So4Oracle.ResidualTally

open Library.Checked Library.Requests Library.Safety Wire Config State Chain StellarRpc Submit Handler
  Keeper KeeperRuns KeeperRequests KeeperScript GuardScript

variable {crates : Crates} {settings : Settings} {sign : Transaction → Except String String}
  {key : String} {counter : Counter} {t : Counter → Option Nat} {w v : World}

section Iterations

/-- Others leave the tallies of the key as they are. -/
def SameTallies (key : String) (w v : World) : Prop :=
  ∀ counter, (v.app.counts counter)[key]? = (w.app.counts counter)[key]?

/-- Others remove tallies of the key at most, as the admin routes do. -/
def FewerTallies (key : String) (w v : World) : Prop :=
  ∀ counter, (w.app.counts counter)[key]? = none → (v.app.counts counter)[key]? = none

variable (crates settings) in
def keeperAmong (others : World → World → Prop) :
    Surroundings KeeperRequest KeeperRequest.Answer World :=
  (keeper crates settings).restrict (fun _ _ _ _ => True) others

variable (crates settings sign) in
/-- An iteration of the order key: it passes both checks, its execute_order comes
back with the outcome, and the rest of the iteration ends in v. -/
structure Iterated (S : Surroundings KeeperRequest KeeperRequest.Answer World) (key : String)
    (tally : Tally) (w : World) (outcome : HandlerOutcome) (y : World) (tally' : Tally) (v : World) :
    Prop where
  executed : ∃ x z,
    Finishes S (locked (.isBlacklisted key)) w false x ∧
    Finishes S (locked (.admitInFlight key)) x true z ∧
    Finishes S (executeHandler crates settings sign settings.orderHandlerContractId "execute_order"
      key tally.sequenceCache) z outcome y
  ended : Finishes S (executionOutcome crates settings sign (orderExecutor settings) key outcome tally)
    y tally' v

/-- An iteration that is not skipped is one of these. -/
theorem executeKey_iterated {S : Surroundings KeeperRequest KeeperRequest.Answer World}
    {tally tally' : Tally}
    (h : Finishes S (executeKey crates settings sign (orderExecutor settings) key tally) w tally' v) :
    tally' = tally.countError ∨ tally' = tally ∨
      ∃ outcome y, Iterated crates settings sign S key tally w outcome y tally' v := by
  obtain ⟨blacklisted, x, hblacklisted, h⟩ := finishes_bind.mp h
  cases blacklisted with
  | true => exact .inl (finishes_done.mp h).1
  | false =>
      obtain ⟨admitted, z, hadmitted, h⟩ := finishes_bind.mp h
      cases admitted with
      | false => exact .inr (.inl (finishes_done.mp h).1)
      | true =>
          obtain ⟨outcome, y, houtcome, h⟩ := finishes_bind.mp h
          exact .inr (.inr ⟨outcome, y, ⟨x, z, hblacklisted, hadmitted, houtcome⟩, h⟩)

variable (crates) in
/-- execute_order failed on the budget, and the last submission after that is a
freeze_order that succeeded. -/
def FrozenOnBudget (key : String) (error : HandlerError) (y v : World) : Prop :=
  isBudgetExceeded crates error = true ∧ ∃ s rest tr ledger, v.sent = s :: rest ∧
    y.sent.length < v.sent.length ∧ s.work = .handler "freeze_order" key ∧
    s.outcome = some (tr, .ok ledger)

end Iterations

section Effects

def Tallies (key : String) (t : Counter → Option Nat) (w : World) : Prop :=
  ∀ counter, (w.app.counts counter)[key]? = t counter

/-- Requests that touch no tally. -/
def Untallied : KeeperRequest → Prop
  | .state (.countFailure _ _) | .state (.clearFailures _ _) => False
  | _ => True

/-- Requests that remove no freeze tally. -/
def KeepsFreezes : KeeperRequest → Prop
  | .state (.clearFailures .freezeFailures _) => False
  | _ => True

theorem tallies_stable (t : Counter → Option Nat) :
    (keeperAmong crates settings (SameTallies key)).Stable (Tallies key t) :=
  fun _ _ hw h counter => (h.2 counter).trans (hw counter)

theorem untallied_answer {q : KeeperRequest} (hq : Untallied q) {r : q.Answer}
    (h : (keeper crates settings).answer q w r v) (counter : Counter) :
    v.app.counts counter = w.app.counts counter := by
  obtain ⟨-, h⟩ := h
  cases q with
  | state op =>
      obtain ⟨-, rfl⟩ := h
      cases op with
      | countFailure | clearFailures => exact absurd hq id
      | _ => cases counter <;> rfl
  | unixTime | accountSequence =>
      obtain ⟨-, rfl⟩ := h
      rfl
  | checkKeeperBalance | pendingKeys | sleep | send =>
      obtain rfl := h
      rfl
  | settle =>
      obtain ⟨s, rest, tr, -, -, -, rfl⟩ := h
      rfl
  | abort => exact absurd h id

theorem getElem?_setCounts {app : AppState} {counts : KeyMap Nat} {n : Option Nat}
    (hcounts : counts[key]? = n) (ht : ∀ counter, (app.counts counter)[key]? = t counter)
    (counter' : Counter) :
    ((app.setCounts counts counter).counts counter')[key]? = Function.update t counter n counter' := by
  by_cases h : counter' = counter
  · subst h
    rw [Function.update_self, counts_setCounts_self, hcounts]
  · rw [Function.update_of_ne h, counts_setCounts_of_ne counts h, ht counter']

theorem clearFailures_answer (hw : Tallies key t w) {r : Unit}
    (h : (keeper crates settings).answer (.state (.clearFailures counter key)) w r v) :
    Tallies key (Function.update t counter none) v := by
  obtain ⟨-, -, rfl⟩ := h
  exact getElem?_setCounts Std.TreeMap.getElem?_erase_self hw

theorem countFailure_answer (hw : Tallies key t w) {n : Nat}
    (h : (keeper crates settings).answer (.state (.countFailure counter key)) w (.ok n) v) :
    n = (t counter).getD 0 + 1 ∧ Tallies key (Function.update t counter (some n)) v := by
  obtain ⟨-, hn, rfl⟩ := h
  have hcount : (w.app.counts counter).getD key 0 = (t counter).getD 0 := by
    rw [Std.TreeMap.getD_eq_getD_getElem?, hw counter]
  have hnext : nextCount (w.app.counts counter) key = .ok n := by
    have hcounted : (countKey (w.app.counts counter) key).1 = .ok n := hn.symm
    rw [countKey] at hcounted
    split at hcounted
    next count hcount =>
      cases hcounted
      exact hcount
    next => cases hcounted
  have hkey : (countKey (w.app.counts counter) key).2 = (w.app.counts counter).insert key n := by
    rw [countKey]
    rw [hnext]
  refine ⟨?_, ?_⟩
  · rw [← hcount]
    unfold nextCount at hnext
    dsimp only at hnext
    split at hnext
    · exact (Except.ok.inj hnext).symm
    · cases hnext
  · show Tallies key _ ((w.setApp (w.app.setCounts (countKey (w.app.counts counter) key).2
      counter)).setPhase _)
    rw [hkey]
    exact getElem?_setCounts Std.TreeMap.getElem?_insert_self hw

end Effects

section Programs

variable {α : Type} {Q : α → World → Prop}

variable (crates settings) in
/-- Safety in an iteration of the key, in which only its end is of interest. -/
abbrev Ends (key : String) (p : KeeperProgram α) (Q : α → World → Prop) (w : World) : Prop :=
  Safe (keeperAmong crates settings (SameTallies key)) (fun _ => True) p Q w

theorem ends_untallied {p : KeeperProgram α} (hp : p.Asks Untallied) (hw : Tallies key t w) :
    Ends crates settings key p (fun _ v => Tallies key t v) w := by
  refine Safe.of_asks (tallies_stable t) (fun _ _ => trivial) hp ?_ hw
  intro q hq v r u hv ha counter
  rw [untallied_answer hq ha.1 counter]
  exact hv counter

theorem ends_ask {q : KeeperRequest} (hq : Untallied q) {f : q.Answer → KeeperProgram α}
    (hw : Tallies key t w) (hf : ∀ r v, Tallies key t v → Ends crates settings key (f r) Q v) :
    Ends crates settings key (Program.request q >>= f) Q w := by
  refine Safe.request_bind (tallies_stable t) (fun _ _ => trivial) hw (fun v r u hv ha => hf r u ?_)
  intro counter
  rw [untallied_answer hq ha.1 counter]
  exact hv counter

theorem ends_clear {f : Unit → KeeperProgram α} (hw : Tallies key t w)
    (hf : ∀ v, Tallies key (Function.update t counter none) v → Ends crates settings key (f ()) Q v) :
    Ends crates settings key (locked (.clearFailures counter key) >>= f) Q w :=
  Safe.request_bind (tallies_stable t) (fun _ _ => trivial) hw
    (fun _ _ u hv ha => hf u (clearFailures_answer hv ha.1))

/-- A count that would overflow ends the process. -/
theorem ends_count {f : Nat → KeeperProgram α} (hw : Tallies key t w)
    (hf : ∀ n v, n = (t counter).getD 0 + 1 → Tallies key (Function.update t counter (some n)) v →
      Ends crates settings key (f n) Q v) :
    Ends crates settings key (countFailure counter key >>= f) Q w := by
  refine Safe.request_bind (tallies_stable t) (fun _ _ => trivial) hw (fun v r u hv ha => ?_)
  cases r with
  | ok n =>
      obtain ⟨hn, hu⟩ := countFailure_answer hv ha.1
      exact hf n u hn hu
  | error fault => exact ⟨trivial, fun _ r => r.elim⟩

theorem untallied_of_inCall (q : KeeperRequest) (h : InCall q) : Untallied q := by
  cases q with
  | unixTime | accountSequence | abort => trivial
  | _ => exact absurd h id

theorem executeHandler_untallied {contractId method : String} {sequenceCache : Option Nat} :
    (executeHandler crates settings sign contractId method key sequenceCache).Asks Untallied :=
  executeHandler_asks untallied_of_inCall (fun _ _ => trivial) (fun _ => trivial)

/-- The freeze tally of the key has an entry. -/
def Marked (key : String) (w : World) : Prop := (w.app.freezeFailureCounts[key]?).isSome

theorem isSome_countKey {counts : KeyMap Nat} {key' : String} (h : (counts[key]?).isSome) :
    ((countKey counts key').2[key]?).isSome := by
  rw [countKey]
  split
  · by_cases hkey : key = key'
    · simp [hkey]
    · rw [getElem?_insert_of_ne counts hkey]
      exact h
  · exact h

theorem marked_answer {q : KeeperRequest} (hq : KeepsFreezes q) {r : q.Answer} (hw : Marked key w)
    (h : (keeper crates settings).answer q w r v) : Marked key v := by
  by_cases hfree : Untallied q
  · have hcounts : v.app.freezeFailureCounts = w.app.freezeFailureCounts :=
      untallied_answer hfree h .freezeFailures
    rw [Marked, hcounts]
    exact hw
  · cases q with
    | state op =>
        obtain ⟨-, -, rfl⟩ := h
        cases op with
        | countFailure counter key' =>
            cases counter with
            | freezeFailures => exact isSome_countKey hw
            | executionFailures => exact hw
        | clearFailures counter key' =>
            cases counter with
            | freezeFailures => exact absurd hq id
            | executionFailures => exact hw
        | _ => exact absurd trivial hfree
    | _ => exact absurd trivial hfree

theorem ends_marked {p : KeeperProgram α} (hp : p.Asks KeepsFreezes) (hw : Marked key w) :
    Ends crates settings key p (fun _ v => Marked key v) w := by
  have hstable : (keeperAmong crates settings (SameTallies key)).Stable (Marked key) := by
    intro v u hv h
    have hsame : u.app.freezeFailureCounts[key]? = v.app.freezeFailureCounts[key]? :=
      h.2 .freezeFailures
    rw [Marked, hsame]
    exact hv
  exact Safe.of_asks hstable (fun _ _ => trivial) hp
    (fun q hq v r u hv ha => marked_answer hq hv ha.1) hw

theorem ends_unsent {p : KeeperProgram α} (hp : p.Asks Plain) {n : Nat} (hw : w.sent.length = n) :
    Ends crates settings key p (fun _ v => v.sent.length = n) w := by
  have hlength : ∀ l : List Sent, (l.filterMap fun s => some s.work).length = l.length := by
    intro l
    rw [List.filterMap_eq_map', List.length_map]
  have hstable : (keeperAmong crates settings (SameTallies key)).Stable (fun w => w.sent.length = n) := by
    intro v u hv h
    rw [← hlength, interference_sent h.1 _ (fun _ => rfl), hlength]
    exact hv
  refine Safe.of_asks hstable (fun _ _ => trivial) hp (fun q hq v r u hv ha => ?_) hw
  rw [(plain_answer hq ha.1).1]
  exact hv

end Programs

section Outcomes

/-- Neither map has an entry for the key. -/
def TalliesAbsent (key : String) (w : World) : Prop := ∀ counter, key ∉ w.app.counts counter

theorem not_talliesAbsent_of_some {n : Nat} (hw : Tallies key t w) (hn : t counter = some n) :
    ¬TalliesAbsent key w := by
  intro h
  apply h counter
  rw [Std.TreeMap.mem_iff_isSome_getElem?, hw counter, hn]
  rfl

theorem not_talliesAbsent_of_marked (hw : Marked key w) : ¬TalliesAbsent key w := by
  intro h
  apply h .freezeFailures
  rw [Std.TreeMap.mem_iff_isSome_getElem?]
  exact hw

/-- Once a tally is removed it stays away, whatever others remove besides. -/
theorem executionSucceeded_talliesAbsent {others : World → World → Prop}
    (hothers : ∀ w v, others w v → FewerTallies key w v) {txHash : String} {tally : Tally} :
    Safe (keeperAmong crates settings others) (fun _ => True)
      (executionSucceeded (orderExecutor settings) key txHash tally)
      (fun _ v => TalliesAbsent key v) w := by
  have hstable : ∀ removed : Counter → Prop, (keeperAmong crates settings others).Stable
      (fun w => ∀ counter, removed counter → (w.app.counts counter)[key]? = none) :=
    fun removed w v hw h counter hcounter => hothers w v h.2 counter (hw counter hcounter)
  apply Safe.request_bind (hstable fun _ => False) (fun _ _ => trivial) (fun _ h => h.elim)
  intro _ _ x _ _
  apply Safe.request_bind (hstable fun _ => False) (fun _ _ => trivial) (fun _ h => h.elim)
  intro y _ z _ hfreezes
  apply Safe.request_bind (hstable (· = .freezeFailures)) (fun _ _ => trivial)
  · rintro counter rfl
    rw [clearFailures_answer (fun _ => rfl) hfreezes.1 .freezeFailures, Function.update_self]
  intro u _ v hu hexecutions
  apply Safe.request_bind (hstable fun _ => True) (fun _ _ => trivial)
  · intro counter _
    rw [clearFailures_answer (fun _ => rfl) hexecutions.1 counter]
    cases counter with
    | freezeFailures => exact hu .freezeFailures rfl
    | executionFailures => exact Function.update_self ..
  intro v' _ u' hv' hrecord
  refine ⟨trivial, fun counter hmem => ?_⟩
  have hkept := untallied_answer (q := .state (.recordExecution ..)) trivial hrecord.1 counter
  rw [hkept, Std.TreeMap.mem_iff_isSome_getElem?, hv' counter trivial] at hmem
  cases hmem

theorem keepsFreezes_of_abandoning {executor : Executor} (q : KeeperRequest)
    (h : Abandoning executor q) : KeepsFreezes q := by
  cases q with
  | state op =>
      cases op with
      | clearFailures counter key =>
          obtain rfl : counter = .executionFailures := h
          trivial
      | _ => trivial
  | _ => trivial

theorem abandonAfterFailures_keepsFreezes {executor : Executor} {cache : Option Nat} :
    (abandonAfterFailures crates settings sign executor key cache).Asks KeepsFreezes :=
  abandonAfterFailures_asks.mono keepsFreezes_of_abandoning

/-- What follows the budget-exceeded path in the same iteration. -/
def afterFreeze (crates : Crates) (settings : Settings) (sign : Transaction → Except String String)
    (key : String) (error : HandlerError) (tally : Tally) (frozen : Option String × Option Nat) :
    KeeperProgram Tally := do
  let cache ← abandonAfterFailures crates settings sign (orderExecutor settings) key frozen.2
  recordFailedExecution settings (orderExecutor settings) key error none
    (withFreezeError error frozen.1)
  pure { tally.countError with sequenceCache := cache }

/-- The generalized guard counts the execution again whose tally the freeze removed. -/
theorem afterFreeze_counts {error : HandlerError} {tally : Tally}
    {frozen : Option String × Option Nat} (hw : Tallies key (fun _ => none) w) :
    Ends crates settings key (afterFreeze crates settings sign key error tally frozen)
      (fun _ v => ¬TalliesAbsent key v) w := by
  apply Safe.bind
  apply ends_count hw
  intro n v hn hv
  obtain rfl : n = 1 := hn
  have hasks : (do
      recordFailedExecution settings (orderExecutor settings) key error none
        (withFreezeError error frozen.1)
      pure { tally.countError with sequenceCache := frozen.2 } : KeeperProgram Tally).Asks Untallied :=
    ⟨trivial, fun _ => ⟨trivial, fun _ => trivial⟩⟩
  exact ⟨trivial, (ends_untallied hasks hv).mono
    (fun _ _ _ h => not_talliesAbsent_of_some h (Function.update_self ..))⟩

theorem afterFreeze_marked {error : HandlerError} {tally : Tally}
    {frozen : Option String × Option Nat} (hw : Marked key w) :
    Ends crates settings key (afterFreeze crates settings sign key error tally frozen)
      (fun _ v => ¬TalliesAbsent key v) w := by
  have hasks : (afterFreeze crates settings sign key error tally frozen).Asks KeepsFreezes :=
    abandonAfterFailures_keepsFreezes.bind
      (fun _ => ⟨trivial, fun _ => ⟨trivial, fun _ => trivial⟩⟩)
  exact (ends_marked hasks hw).mono (fun _ _ _ h => not_talliesAbsent_of_marked h)

theorem freezeFailed_marks {freezeError : HandlerError} {f : Unit → KeeperProgram α}
    {Q : α → World → Prop} (hw : Tallies key t w)
    (hf : ∀ v, Marked key v → Ends crates settings key (f ()) Q v) :
    Ends crates settings key
      (freezeFailed settings (orderExecutor settings) key freezeError >>= f) Q w := by
  apply Safe.bind
  apply ends_count hw
  intro n v _ hv
  have hmarked : Marked key v := by
    have hfreezes : v.app.freezeFailureCounts[key]? = some n := hv .freezeFailures
    rw [Marked, hfreezes]
    rfl
  apply (ends_marked ?_ hmarked).mono
  · intro _ u _ hu
    exact hf u hu
  · refine ⟨trivial, fun _ => ?_⟩
    split
    · exact ⟨trivial, fun _ => trivial⟩
    · trivial

theorem freezeOnBudget_tallies {error : HandlerError} {cache : Option Nat}
    (hbudget : isBudgetExceeded crates error = true) (hw : Tallies key t w) :
    Ends crates settings key
      (freezeOnBudget crates settings sign (orderExecutor settings) key error cache)
      (fun _ v => Tallies key (fun _ => none) v ∨ Marked key v) w := by
  have hcounts : ((orderExecutor settings).countsFreezes && isBudgetExceeded crates error) = true :=
    hbudget
  rw [freezeOnBudget, if_pos hcounts]
  apply Safe.bind
  apply (ends_untallied executeHandler_untallied hw).mono
  rintro ⟨frozen, cache'⟩ v - hv
  cases frozen with
  | ok txHash =>
      apply ends_clear hv
      intro u hu
      apply ends_clear hu
      intro x hx
      refine ⟨trivial, .inl (fun counter => ?_)⟩
      rw [hx counter]
      cases counter <;> rfl
  | error freezeError =>
      apply freezeFailed_marks hv
      intro u hu
      exact ⟨trivial, .inr hu⟩

theorem executionFailed_tallies {error : HandlerError} {tally : Tally}
    (hpaused : isMarketPausedError error = false) (hbudget : isBudgetExceeded crates error = true) :
    Ends crates settings key
      (executionFailed crates settings sign (orderExecutor settings) key error tally)
      (fun _ v => ¬TalliesAbsent key v) w := by
  apply ends_ask (q := .state (.removeInFlight key)) trivial (t := fun counter =>
    (w.app.counts counter)[key]?) (fun _ => rfl)
  intro _ v hv
  rw [if_neg (by rw [hpaused]; exact Bool.false_ne_true)]
  apply Safe.bind
  apply (freezeOnBudget_tallies hbudget hv).mono
  rintro frozen u - (hu | hu)
  · exact afterFreeze_counts hu
  · exact afterFreeze_marked hu

/-- Nothing is sent for an outcome that may still confirm or in a paused market. -/
theorem executionOutcome_plain {error : HandlerError} {cache : Option Nat} {tally : Tally}
    (h : error.mayStillConfirm = true ∨ isMarketPausedError error = true) :
    (executionOutcome crates settings sign (orderExecutor settings) key (.error error, cache)
      tally).Asks Plain := by
  show (if error.mayStillConfirm = true then _ else _ : KeeperProgram Tally).Asks Plain
  split
  · exact ⟨trivial, fun _ => ⟨trivial, fun _ => trivial⟩⟩
  next hconfirm =>
    have hpaused : isMarketPausedError error = true := h.resolve_left hconfirm
    refine ⟨trivial, fun _ => ?_⟩
    rw [if_pos hpaused]
    trivial

theorem fewerTallies_of_sameTallies (h : SameTallies key w v) : FewerTallies key w v :=
  fun counter hw => (h counter).trans hw

theorem frozenOnBudget_tallies {error : HandlerError} {cache : Option Nat} {tally tally' : Tally}
    {y : World} (hfrozen : FrozenOnBudget crates key error y v)
    (h : Finishes (keeperAmong crates settings (SameTallies key))
      (executionOutcome crates settings sign (orderExecutor settings) key (.error error, cache) tally)
      y tally' v) : ¬TalliesAbsent key v := by
  obtain ⟨hbudget, s, rest, tr, ledger, hsent, hlonger, -⟩ := hfrozen
  have hbusy : ¬(error.mayStillConfirm = true ∨ isMarketPausedError error = true) := by
    intro hplain
    have hlength := (ends_unsent (executionOutcome_plain hplain) rfl).finishes h
    omega
  obtain ⟨hconfirm, hpaused⟩ := not_or.mp hbusy
  have hfailed : executionOutcome crates settings sign (orderExecutor settings) key
      (.error error, cache) tally = executionFailed crates settings sign (orderExecutor settings) key
        error { tally with sequenceCache := cache } := if_neg hconfirm
  rw [hfailed] at h
  exact (executionFailed_tallies (Bool.eq_false_of_not_eq_true hpaused) hbudget).finishes h

/-- An iteration that ends in a successful execution leaves no tally. One that ends
in a successful freeze after an exceeded budget does, unless others remove it. -/
theorem iterated_talliesAbsent_of_ends {others : World → World → Prop}
    (hothers : ∀ w v, others w v → FewerTallies key w v) {tally tally' : Tally}
    {outcome : HandlerOutcome} {y : World}
    (h : Iterated crates settings sign (keeperAmong crates settings others) key tally w outcome y
      tally' v)
    (hends : (∃ txHash, outcome.1 = .ok txHash) ∨
      ∃ error, outcome.1 = .error error ∧ FrozenOnBudget crates key error y v) :
    ((∃ txHash, outcome.1 = .ok txHash) → TalliesAbsent key v) ∧
      (others = SameTallies key → TalliesAbsent key v → ∃ txHash, outcome.1 = .ok txHash) := by
  have hended := h.ended
  obtain ⟨result, cache⟩ := outcome
  cases result with
  | ok txHash =>
      exact ⟨fun _ => (executionSucceeded_talliesAbsent hothers).finishes hended,
        fun _ _ => ⟨txHash, rfl⟩⟩
  | error error =>
      refine ⟨fun ⟨_, h⟩ => (nomatch h), ?_⟩
      rintro rfl habsent
      obtain ⟨_, h⟩ | ⟨_, h, hfrozen⟩ := hends
      · cases h
      · cases h
        exact absurd habsent (frozenOnBudget_tallies hfrozen hended)

end Outcomes

section Samples

theorem landNewest_sameTallies (w : World) : SameTallies key w (landNewest w) := by
  intro counter
  rw [landNewest_app]

theorem respond_plays_alone {script : Script} (h : script.Possible crates settings) :
    (respond script).Plays (keeperAmong crates settings (SameTallies key)) := by
  intro q w r u hq
  by_cases hsettle : ∃ signedXdr, q = .settle signedXdr
  · obtain ⟨signedXdr, rfl⟩ := hsettle
    obtain ⟨v, hv, -, ha⟩ := respond_settles h hq
    refine ⟨v, ?_, ha, trivial⟩
    obtain rfl | rfl := hv
    · exact .refl
    · rcases landNewest_cases w with hsame | hi
      · rw [hsame]
      · exact .single ⟨hi, landNewest_sameTallies w⟩
  · have ha := respond_answers h.sequence (fun signedXdr heq => hsettle ⟨signedXdr, heq⟩) hq
    exact ⟨w, .refl, ha, trivial⟩

variable (crates settings sign) in
/-- The iteration the player carries out, if it is not skipped. -/
def playIteration (player : Player KeeperRequest KeeperRequest.Answer World) (key : String)
    (tally : Tally) (w : World) : Option (HandlerOutcome × World × Tally × World) := do
  let (false, x) ← finish player (locked (.isBlacklisted key)) w | none
  let (true, z) ← finish player (locked (.admitInFlight key)) x | none
  let (outcome, y) ← finish player (executeHandler crates settings sign
    settings.orderHandlerContractId "execute_order" key tally.sequenceCache) z
  let (tally', v) ← finish player (executionOutcome crates settings sign (orderExecutor settings) key
    outcome tally) y
  pure (outcome, y, tally', v)

theorem iterated_of_playIteration {S : Surroundings KeeperRequest KeeperRequest.Answer World}
    {player : Player KeeperRequest KeeperRequest.Answer World} (hplays : player.Plays S)
    {tally : Tally} (test : HandlerOutcome → World → World → Bool)
    (h : (playIteration crates settings sign player key tally w).any
      (fun result => test result.1 result.2.1 result.2.2.2) = true) :
    ∃ outcome y tally' v, Iterated crates settings sign S key tally w outcome y tally' v ∧
      test outcome y v = true := by
  obtain ⟨⟨outcome, y, tally', v⟩, hplayed, htest⟩ := Option.any_eq_true _ _ |>.mp h
  obtain ⟨⟨blacklisted, x⟩, hblacklisted, hplayed⟩ := Option.bind_eq_some_iff.mp hplayed
  cases blacklisted with
  | true => cases hplayed
  | false =>
      obtain ⟨⟨admitted, z⟩, hadmitted, hplayed⟩ := Option.bind_eq_some_iff.mp hplayed
      cases admitted with
      | false => cases hplayed
      | true =>
          obtain ⟨⟨result, y'⟩, hresult, hplayed⟩ := Option.bind_eq_some_iff.mp hplayed
          obtain ⟨⟨tally'', v'⟩, hended, hplayed⟩ := Option.bind_eq_some_iff.mp hplayed
          cases hplayed
          exact ⟨outcome, y, tally', v, ⟨⟨x, z, finishes_of_finish hplays hblacklisted,
            finishes_of_finish hplays hadmitted, finishes_of_finish hplays hresult⟩,
            finishes_of_finish hplays hended⟩, htest⟩

def exhaustedBody : String :=
  "\x7b\"result\":\x7b\"status\":\"FAILED\",\"diagnosticEventsXdr\":[\"QnVkZ2V0LCBFeGNlZWRlZExpbWl0\"]\x7d\x7d"

def exhaustedEvent : String := "QnVkZ2V0LCBFeGNlZWRlZExpbWl0"

/-- The node that also reports a transaction that failed on its budget. -/
def budgetCrates : Crates :=
  { nodeCrates with
    getTransactionResponse := fun body =>
      if body = exhaustedBody then .ok ⟨some ⟨"FAILED", none, some [exhaustedEvent]⟩, none⟩
      else nodeCrates.getTransactionResponse body
    base64Decode := fun s =>
      if s = exhaustedEvent then some budgetExceededPattern.toUTF8.toList else none }

def exhaustedTrace (signedXdr : String) : RpcTrace :=
  [⟨.sendTransaction signedXdr, ⟨true, .http 200 SubmitOutcome.pendingBody⟩⟩,
    ⟨.getTransaction "c0de", .http 200 exhaustedBody⟩]

theorem exhaustedTrace_runs (signedXdr : String) :
    Runs (submitAndPoll budgetCrates signedXdr) (exhaustedTrace signedXdr)
      (.error (.transactionFailed [exhaustedEvent])) :=
  .ask _ _ (.ask _ _ (.done _))

def exhausts (methods : List String) (s : Sent) : Bool :=
  match s.work with
  | .setPrices _ => false
  | .handler method _ => methods.contains method

/-- The methods exhaust their budget, every other transaction is confirmed. -/
def exhaustedMethods (methods : List String) : Script where
  keys := oneOrder
  sequence := 7
  lands _ := true
  reply signedXdr
    | s :: _ =>
        if exhausts methods s then
          some (exhaustedTrace signedXdr, .error (.transactionFailed [exhaustedEvent]))
        else if s.landed then some (confirmedTrace signedXdr, .ok 9)
        else none
    | [] => none

theorem exhaustedMethods_possible (methods : List String) :
    (exhaustedMethods methods).Possible budgetCrates keeperSettings where
  sequence := ⟨[⟨.getLedgerEntries [], .http 200 ""⟩], .ask _ _ (.done _)⟩
  reply signedXdr sent tr r h := by
    dsimp only [exhaustedMethods] at h
    split at h
    · split at h
      · cases h
        exact exhaustedTrace_runs signedXdr
      · split at h
        · cases h
          exact .ask _ _ (.ask _ _ (.done _))
        · cases h
    · cases h
  truthful signedXdr s rest tr ledger h := by
    dsimp only [exhaustedMethods] at h
    split at h
    · cases h
    · split at h
      next hlanded => exact hlanded
      next => cases h

/-- The order's tallies are 2 and 4 before the iteration. -/
def tallied : World := (talliedWorld 2 4).world.enter

def wasFrozen (v : World) : Bool :=
  match v.sent with
  | ⟨.handler method key, _, _, _, some (_, .ok _)⟩ :: _ => method == "freeze_order" && key == "aa"
  | _ => false

theorem newest_of_wasFrozen (h : wasFrozen v = true) : ∃ s rest tr ledger, v.sent = s :: rest ∧
    s.work = .handler "freeze_order" "aa" ∧ s.outcome = some (tr, .ok ledger) := by
  rw [wasFrozen] at h
  split at h
  next method key tx sentAt landed tr ledger rest hsent =>
    obtain ⟨hmethod, hkey⟩ := Bool.and_eq_true_iff.mp h
    obtain rfl := beq_iff_eq.mp hmethod
    obtain rfl := beq_iff_eq.mp hkey
    exact ⟨_, rest, tr, ledger, hsent, rfl, rfl⟩
  next => cases h

def frozeOnBudget (outcome : HandlerOutcome) (y v : World) : Bool :=
  match outcome.1 with
  | .ok _ => false
  | .error error => isBudgetExceeded budgetCrates error && decide (y.sent.length < v.sent.length) &&
      wasFrozen v && v.app.executionFailureCounts["aa"]? == some 1

theorem frozenOnBudget_of_frozeOnBudget {outcome : HandlerOutcome} {y : World}
    (h : frozeOnBudget outcome y v = true) :
    (∃ error, outcome.1 = .error error ∧ FrozenOnBudget budgetCrates "aa" error y v) ∧
      v.app.executionFailureCounts["aa"]? = some 1 := by
  rw [frozeOnBudget] at h
  split at h
  next => cases h
  next error herror =>
    simp only [Bool.and_eq_true, decide_eq_true_eq, beq_iff_eq] at h
    obtain ⟨⟨⟨hbudget, hlonger⟩, hfrozen⟩, hcount⟩ := h
    obtain ⟨s, rest, tr, ledger, hsent, hwork, houtcome⟩ := newest_of_wasFrozen hfrozen
    exact ⟨⟨error, herror, hbudget, s, rest, tr, ledger, hsent, hlonger, hwork, houtcome⟩, hcount⟩

abbrev SampleIterated : HandlerOutcome → World → Tally → World → Prop :=
  Iterated budgetCrates keeperSettings sampleSign
    (keeperAmong budgetCrates keeperSettings (SameTallies "aa")) "aa" ⟨0, 0, none⟩ tallied

theorem exists_sampleIterated (methods : List String) (test : HandlerOutcome → World → World → Bool)
    (h : (playIteration budgetCrates keeperSettings sampleSign (respond (exhaustedMethods methods)) "aa"
      ⟨0, 0, none⟩ tallied).any (fun result => test result.1 result.2.1 result.2.2.2) = true) :
    ∃ outcome y tally' v, SampleIterated outcome y tally' v ∧ test outcome y v = true :=
  iterated_of_playIteration (respond_plays_alone (exhaustedMethods_possible methods)) test h

end Samples

theorem iterated_talliesAbsent_executed :
    ∃ outcome y tally' v, SampleIterated outcome y tally' v ∧
      (∃ txHash, outcome.1 = .ok txHash) ∧ TalliesAbsent "aa" v := by
  obtain ⟨outcome, y, tally', v, hrun, htest⟩ := exists_sampleIterated []
    (fun outcome _ _ => outcome.1.toOption.isSome) (by decide +kernel)
  have hok : ∃ txHash, outcome.1 = .ok txHash := by
    cases hresult : outcome.1 with
    | ok txHash => exact ⟨txHash, rfl⟩
    | error error =>
        rw [hresult] at htest
        cases htest
  exact ⟨outcome, y, tally', v, hrun, hok, (iterated_talliesAbsent_of_ends
    (fun _ _ h => fewerTallies_of_sameTallies h) hrun (.inl hok)).1 hok⟩

/-- After the freeze both tallies are gone; the guard counts the failed execution
again, so the settled key keeps a tally of one. -/
theorem iterated_talliesAbsent_frozen :
    ∃ outcome y tally' v, SampleIterated outcome y tally' v ∧
      (∃ error, outcome.1 = .error error ∧ FrozenOnBudget budgetCrates "aa" error y v) ∧
      v.app.executionFailureCounts["aa"]? = some 1 ∧ ¬TalliesAbsent "aa" v := by
  obtain ⟨outcome, y, tally', v, hrun, htest⟩ := exists_sampleIterated ["execute_order"]
    frozeOnBudget (by decide +kernel)
  obtain ⟨hfrozen, hcount⟩ := frozenOnBudget_of_frozeOnBudget htest
  refine ⟨outcome, y, tally', v, hrun, hfrozen, hcount, fun habsent => ?_⟩
  apply habsent .executionFailures
  rw [Std.TreeMap.mem_iff_isSome_getElem?]
  show (v.app.executionFailureCounts["aa"]?).isSome = true
  rw [hcount]
  rfl

end So4Oracle.ResidualTally
