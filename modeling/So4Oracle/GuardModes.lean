import So4Oracle.KeeperGuard

namespace So4Oracle.GuardModes

open Library.Checked Library.Requests Library.Safety Library.Protocol Library.Breaker Wire Config
  State Chain Submit Handler Keeper KeeperRuns KeeperRequests Admin KeeperGuard

section Modes

/-- What a cycle knows of the key it works on: that it is not blacklisted, that it
has to be blacklisted after its freezes, that it has been, that its execution
tally is at the limit, and that it is not blacklisted all the same. -/
inductive Mode
  | free
  | cleared (key : String)
  | overFrozen (key : String)
  | barred (key : String)
  | exhausted (key : String)
  | condemned (key : String)
  | submitting (m : Mode)

/-- No iteration is under way, or one that has nothing left to count. -/
inductive Mode.AtRest : Mode → Prop
  | free : AtRest .free
  | cleared (key : String) : AtRest (.cleared key)

/-- The mode in which handlers are called on the key. -/
inductive Mode.Calls (key : String) : Mode → Prop
  | cleared : Calls key (.cleared key)
  | condemned : Calls key (.condemned key)

/-- The mode in which an execution failure of the key is counted. -/
inductive Mode.Counts (key : String) : Mode → Prop
  | cleared : Counts key (.cleared key)
  | barred : Counts key (.barred key)

/-- Requests that concern neither a submission nor the guard. -/
def Routine : KeeperRequest → Prop
  | .send _ _ _ | .settle _ | .state (.isBlacklisted _) | .state (.blacklist _ _)
  | .state (.countFailure _ _) | .state (.clearFailures _ _) => False
  | _ => True

inductive Step : Rules KeeperRequest KeeperRequest.Answer Mode
  | routine (m) {q : KeeperRequest} (hq : Routine q) (r : q.Answer) : Step m q r m
  | publish {m} (hm : m.AtRest) (batch tx signedXdr) :
      Step m (.send (.setPrices batch) tx signedXdr) () (.submitting m)
  | submit {m key} (hm : m.Calls key) (method tx signedXdr) :
      Step m (.send (.handler method key) tx signedXdr) () (.submitting m)
  | settle (m signedXdr r) : Step (.submitting m) (.settle signedXdr) r m
  | skip {m} (hm : m.AtRest) (key) : Step m (.state (.isBlacklisted key)) true .free
  | pass {m} (hm : m.AtRest) (key) : Step m (.state (.isBlacklisted key)) false (.cleared key)
  | reset {m} (hm : m.AtRest) (counter key) : Step m (.state (.clearFailures counter key)) () m
  | overflow {m key} (hm : m.Counts key) (counter fault) :
      Step m (.state (.countFailure counter key)) (.error fault) m
  | freezeFailed (key n) (h : n < maxConsecutiveFreezeFailures) :
      Step (.cleared key) (.state (.countFailure .freezeFailures key)) (.ok n) (.cleared key)
  | overFrozen (key n) (h : maxConsecutiveFreezeFailures ≤ n) :
      Step (.cleared key) (.state (.countFailure .freezeFailures key)) (.ok n) (.overFrozen key)
  | barFrozen (key n) : Step (.overFrozen key) (.state (.blacklist key n)) () (.barred key)
  | failed {m key} (hm : m.Counts key) (n) (h : n < maxConsecutiveExecutionFailures) :
      Step m (.state (.countFailure .executionFailures key)) (.ok n) .free
  | exhausted {m key} (hm : m.Counts key) (n) (h : maxConsecutiveExecutionFailures ≤ n) :
      Step m (.state (.countFailure .executionFailures key)) (.ok n) (.exhausted key)
  | found (key) : Step (.exhausted key) (.state (.isBlacklisted key)) true .free
  | condemn (key) : Step (.exhausted key) (.state (.isBlacklisted key)) false (.condemned key)
  | bar (key n) : Step (.condemned key) (.state (.blacklist key n)) () .free

end Modes

section Follows

variable {crates : Crates} {settings : Settings} {sign : Transaction → Except String String}
  {executor : Executor} {key : String} {m : Mode}

theorem routine_of_inCall (q : KeeperRequest) (h : InCall q) : Routine q := by
  cases q with
  | unixTime | accountSequence | abort => trivial
  | _ => exact absurd h id

theorem callRules (hm : m.Calls key) : CallRules Step m key where
  inCall q hq r := .routine m (routine_of_inCall q hq) r
  submission method tx signedXdr :=
    ⟨.submitting m, .submit hm method tx signedXdr, fun r => .settle m signedXdr r⟩

theorem follows_routine {α : Type} {q : KeeperRequest} (hq : Routine q) {f : q.Answer → KeeperProgram α}
    {Q : α → Mode → Prop} (hf : ∀ r, Follows Step m (f r) Q) :
    Follows Step m (Program.request q >>= f) Q :=
  fun r => ⟨m, .routine m hq r, hf r⟩

theorem follows_reset {α : Type} (hm : m.AtRest) {counter : Counter} {f : Unit → KeeperProgram α}
    {Q : α → Mode → Prop} (hf : Follows Step m (f ()) Q) :
    Follows Step m (locked (.clearFailures counter key) >>= f) Q :=
  fun _ => ⟨m, .reset hm counter key, hf⟩

/-- A count that would overflow ends the process, so only the new tally matters. -/
theorem follows_countFailure {α : Type} {counter : Counter} {f : Nat → KeeperProgram α}
    {Q : α → Mode → Prop} (hm : m.Counts key)
    (hf : ∀ n, ∃ m', Step m (.state (.countFailure counter key)) (.ok n) m' ∧ Follows Step m' (f n) Q) :
    Follows Step m (countFailure counter key >>= f) Q := by
  intro r
  cases r with
  | ok n => exact hf n
  | error fault => exact ⟨m, .overflow hm counter fault, fun r => r.elim⟩

theorem follows_recordFailedExecution {α : Type} {error : HandlerError} {txHash : Option String}
    {recorded : String} {f : Unit → KeeperProgram α} {Q : α → Mode → Prop}
    (hf : Follows Step m (f ()) Q) :
    Follows Step m (recordFailedExecution settings executor key error txHash recorded >>= f) Q :=
  fun _ => ⟨m, .routine m (q := .state (.recordError _)) trivial (), fun _ =>
    ⟨m, .routine m (q := .state (.recordExecution _ _ _ _ _)) trivial (), hf⟩⟩

theorem freezeFailed_follows {freezeError : HandlerError} :
    Follows Step (.cleared key) (freezeFailed settings executor key freezeError)
      (fun _ m' => m'.Counts key) := by
  refine follows_countFailure .cleared (fun n => ?_)
  by_cases h : maxConsecutiveFreezeFailures ≤ n
  · refine ⟨.overFrozen key, .overFrozen key n h, ?_⟩
    refine follows_routine (q := .state (.recordError _)) trivial (fun _ => ?_)
    rw [if_pos h]
    exact fun _ => ⟨.barred key, .barFrozen key n, .barred⟩
  · refine ⟨.cleared key, .freezeFailed key n (Nat.lt_of_not_le h), ?_⟩
    refine follows_routine (q := .state (.recordError _)) trivial (fun _ => ?_)
    rw [if_neg h]
    exact .cleared

theorem freezeOnBudget_follows {error : HandlerError} {sequenceCache : Option Nat} :
    Follows Step (.cleared key) (freezeOnBudget crates settings sign executor key error sequenceCache)
      (fun _ m' => m'.Counts key) := by
  rw [freezeOnBudget]
  split
  · refine follows_call (callRules .cleared) (fun frozen => ?_)
    obtain ⟨frozen, cache⟩ := frozen
    cases frozen with
    | ok txHash => exact follows_reset (.cleared key) (follows_reset (.cleared key) .cleared)
    | error e =>
        apply Follows.bind
        apply freezeFailed_follows.mono
        exact fun _ m' hm' => hm'
  · exact Mode.Counts.cleared

theorem abandon_follows {consecutive : Nat} {sequenceCache : Option Nat} :
    Follows Step (.condemned key)
      (abandon crates settings sign executor key consecutive sequenceCache)
      (fun _ m' => m'.AtRest) := by
  refine follows_call (callRules .condemned) (fun frozen => ?_)
  obtain ⟨frozen, cache⟩ := frozen
  have hbar : Follows Step (.condemned key) (do
      locked (.blacklist key consecutive)
      locked (.clearFailures .executionFailures key)
      pure cache) (fun _ m' => m'.AtRest) :=
    fun _ => ⟨.free, .bar key consecutive, follows_reset .free .free⟩
  cases frozen with
  | ok txHash => exact hbar
  | error e => exact follows_routine (q := .state (.recordError _)) trivial (fun _ => hbar)

theorem abandonAfterFailures_follows {sequenceCache : Option Nat} (hm : m.Counts key) :
    Follows Step m (abandonAfterFailures crates settings sign executor key sequenceCache)
      (fun _ m' => m'.AtRest) := by
  refine follows_countFailure hm (fun n => ?_)
  by_cases h : n < maxConsecutiveExecutionFailures
  · refine ⟨.free, .failed hm n h, ?_⟩
    rw [if_pos h]
    exact .free
  · refine ⟨.exhausted key, .exhausted hm n (Nat.le_of_not_lt h), ?_⟩
    rw [if_neg h]
    intro found
    cases found with
    | true => exact ⟨.free, .found key, .free⟩
    | false => exact ⟨.condemned key, .condemn key, abandon_follows⟩

theorem executionOutcome_follows {outcome : HandlerOutcome} {tally : Tally} :
    Follows Step (.cleared key) (executionOutcome crates settings sign executor key outcome tally)
      (fun _ m' => m'.AtRest) := by
  obtain ⟨result, cache⟩ := outcome
  cases result with
  | ok txHash =>
      refine follows_routine (q := .state (.removeInFlight key)) trivial (fun _ => ?_)
      have hrest : Follows Step (.cleared key) (do
          locked (.clearFailures .executionFailures key)
          locked (.recordExecution executor.executeMethod key (some txHash) true none)
          pure { tally with executed := tally.executed + 1, sequenceCache := cache })
          (fun _ m' => m'.AtRest) := by
        refine follows_reset (.cleared key) ?_
        exact follows_routine (q := .state (.recordExecution _ _ _ _ _)) trivial (fun _ => .cleared key)
      split
      · exact follows_reset (.cleared key) hrest
      · exact hrest
  | error e =>
      show Follows Step _ (if e.mayStillConfirm = true then _ else _) _
      split
      · exact follows_recordFailedExecution (.cleared key)
      · refine follows_routine (q := .state (.removeInFlight key)) trivial (fun _ => ?_)
        split
        · exact .cleared key
        · apply Follows.bind
          apply freezeOnBudget_follows.mono
          intro frozen m hm
          apply Follows.bind
          apply (abandonAfterFailures_follows hm).mono
          exact fun _ m' hm' => follows_recordFailedExecution hm'

theorem executeKey_follows (hm : m.AtRest) {tally : Tally} :
    Follows Step m (executeKey crates settings sign executor key tally) (fun _ m' => m'.AtRest) := by
  intro blacklisted
  cases blacklisted with
  | true => exact ⟨.free, .skip hm key, .free⟩
  | false =>
      refine ⟨.cleared key, .pass hm key, ?_⟩
      refine follows_routine (q := .state (.admitInFlight key)) trivial (fun admitted => ?_)
      cases admitted with
      | true => exact follows_call (callRules .cleared) (fun _ => executionOutcome_follows)
      | false => exact .cleared key

theorem executeKeys_follows (hm : m.AtRest) (keys : List String) {tally : Tally} :
    Follows Step m (executeKeys crates settings sign executor keys tally)
      (fun _ m' => m'.AtRest) := by
  induction keys generalizing m tally with
  | nil => exact hm
  | cons key keys ih =>
      apply Follows.bind
      apply (executeKey_follows hm).mono
      exact fun _ m' hm' => ih hm'

theorem executeFresh_follows (hm : m.AtRest) {pending : Pending} {kind : PendingKeys.Kind}
    {tally : Tally} :
    Follows Step m (executeFresh crates settings sign pending executor kind tally)
      (fun _ m' => m'.AtRest) := by
  rw [executeFresh]
  split
  · exact hm
  · exact executeKeys_follows hm _

theorem executePending_follows (hm : m.AtRest) {pending : Pending} :
    Follows Step m (executePending crates settings sign pending) (fun _ m' => m'.AtRest) := by
  apply Follows.bind
  apply (executeFresh_follows hm).mono
  intro orders m horders
  apply Follows.bind
  apply (executeFresh_follows horders).mono
  intro deposits m hdeposits
  apply Follows.bind
  apply (executeFresh_follows hdeposits).mono
  exact fun _ m hm => hm

theorem routine_of_opening (q : KeeperRequest) (h : Opening q) : Routine q := by
  cases q with
  | state op =>
      cases op with
      | isBlacklisted | blacklist | countFailure | clearFailures => exact absurd h id
      | _ => trivial
  | send | settle => exact absurd h id
  | _ => trivial

theorem setPricesOnChain_follows (hm : m.AtRest) {prices : PriceMap} :
    Follows Step m (setPricesOnChain crates settings sign prices) (fun _ m' => m' = m) := by
  apply setPricesOnChain_rule
  · exact fun q hq r => .routine m (routine_of_inCall q hq) r
  · exact fun _ => rfl
  · exact fun tx signedXdr _ => ⟨_, .publish hm prices tx signedXdr, fun r =>
      ⟨m, .settle m signedXdr r, rfl⟩⟩

theorem publishFresh_follows (hm : m.AtRest) {pending : Pending} :
    Follows Step m (publishFresh crates settings sign pending) (fun _ m' => m' = m) := by
  rw [publishFresh]
  split
  · rfl
  · refine follows_routine (q := .unixTime) trivial (fun now => ?_)
    refine follows_routine (q := .state .readLastFullSubmission) trivial (fun lastFull => ?_)
    refine follows_routine (q := .state .readLastSubmittedMedians) trivial (fun last => ?_)
    dsimp only
    split
    · rfl
    · apply Follows.bind
      apply (setPricesOnChain_follows hm).mono
      rintro r _ rfl
      cases r with
      | error e => rfl
      | ok confirmed =>
          refine follows_routine (q := .state (.updateSubmittedPrices _ _ _)) trivial (fun _ => ?_)
          exact follows_routine (q := .sleep _) trivial (fun _ => rfl)

theorem prepareCycle_follows (hm : m.AtRest) :
    Follows Step m (prepareCycle crates settings sign) (fun _ m' => m' = m) := by
  apply Follows.bind
  apply (Follows.of_asks openCycle_asks (fun q hq r => .routine m (routine_of_opening q hq) r)).mono
  rintro opened _ rfl
  cases opened with
  | error summary => rfl
  | ok pending =>
      apply Follows.bind
      apply (publishFresh_follows hm).mono
      rintro r _ rfl
      cases r with
      | error e => rfl
      | ok => rfl

theorem executeKeeperCycle_follows (hm : m.AtRest) :
    Follows Step m (executeKeeperCycle crates settings sign) (fun _ m' => m'.AtRest) := by
  apply Follows.bind
  apply (prepareCycle_follows hm).mono
  rintro prepared _ rfl
  match prepared with
  | .error e => exact hm
  | .ok (.error summary) => exact hm
  | .ok (.ok pending) =>
      apply Follows.bind
      apply (executePending_follows hm).mono
      exact fun _ m' hm' => hm'

end Follows

section Tracked

variable {crates : Crates} {settings : Settings} {m m' : Mode} {w v : Watched}

def Mode.due : Mode → Option String
  | .overFrozen key | .exhausted key | .condemned key => some key
  | .submitting m => m.due
  | _ => none

/-- The key that is known not to be blacklisted. -/
def Mode.spared : Mode → Option String
  | .cleared key | .overFrozen key | .condemned key => some key
  | .submitting m => m.spared
  | _ => none

/-- The ghost state agrees with the mode. -/
structure Tracked (m : Mode) (w : Watched) : Prop where
  staged : ∀ call ∈ w.calls, Staged call
  due : w.due = m.due
  spared : ∀ key, m.spared = some key → w.guard.bars key = false

theorem Mode.AtRest.due_eq (hm : m.AtRest) : m.due = none := by
  cases hm <;> rfl

theorem Mode.Counts.due_eq {key : String} (hm : m.Counts key) : m.due = none := by
  cases hm <;> rfl

theorem dueAfter_routine {q : KeeperRequest} (hq : Routine q) (due : Option String) (r : q.Answer) :
    dueAfter due q r = due := by
  cases q with
  | state op =>
      cases op with
      | isBlacklisted | blacklist | countFailure | clearFailures => exact absurd hq id
      | _ => rfl
  | _ => rfl

theorem requestEvent_routine {q : KeeperRequest} (hq : Routine q) (r : q.Answer) :
    requestEvent q r = none := by
  cases q with
  | state op =>
      cases op with
      | isBlacklisted | blacklist | countFailure | clearFailures => exact absurd hq id
      | _ => rfl
  | send => exact absurd hq id
  | _ => rfl

theorem dueAfter_step {q : KeeperRequest} {r : q.Answer} (h : Step m q r m') :
    dueAfter m.due q r = m'.due := by
  cases h with
  | routine m hq r => exact dueAfter_routine hq m.due r
  | publish | submit | settle | skip | reset | overflow | barFrozen | found | condemn | bar => rfl
  | pass hm key => exact hm.due_eq
  | freezeFailed key n h => exact if_neg (Nat.not_le.mpr h)
  | overFrozen key n h => exact if_pos h
  | failed hm n h => exact (if_neg (Nat.not_le.mpr h)).trans hm.due_eq
  | exhausted hm n h => exact if_pos h

theorem tracked_moves (hw : Tracked m w) (h : Moves w v) : Tracked m v := by
  obtain ⟨e, he⟩ := moves_moved h hw.staged
  exact ⟨he.staged, he.due.trans hw.due, fun key hkey => he.bars (hw.spared key hkey)⟩

theorem answer_watched {q : KeeperRequest} {r : q.Answer}
    (h : (watched crates settings).answer q w r v) :
    v.guard = w.guard.after (requestEvent q r) := answer_guard h.1

/-- A request that bars no key leaves the keys that are not barred. -/
theorem answer_bars {q : KeeperRequest} {r : q.Answer}
    (h : (watched crates settings).answer q w r v) {key : String}
    (hq : requestEvent q r ≠ some (.barred key)) (hkey : w.guard.bars key = false) :
    v.guard.bars key = false := by
  rw [answer_watched h]
  cases he : requestEvent q r with
  | none => exact hkey
  | some e =>
      rw [he] at hq
      by_cases hfreed : e = .freed key
      · rw [hfreed]
        exact Guard.apply_freed_bars
      · refine (Guard.apply_bars_of_ne (fun h => hq (congrArg some h)) hfreed).trans hkey

theorem answer_isBlacklisted {key : String} {found : Bool}
    (h : (watched crates settings).answer (.state (.isBlacklisted key)) w found v) :
    found = w.guard.bars key ∧ v.guard = w.guard := by
  obtain ⟨⟨-, rfl, hv⟩, -⟩ := h
  refine ⟨rfl, ?_⟩
  rw [Watched.guard, hv]
  rfl

theorem tracked_step {q : KeeperRequest} {r : q.Answer} (hw : Tracked m w) (hstep : Step m q r m')
    (ha : (watched crates settings).answer q w r v) : Tracked m' v := by
  refine ⟨ha.2.1 ▸ hw.staged, ?_, ?_⟩
  · rw [ha.2.2.2, hw.due, dueAfter_step hstep]
  · have hkept : ∀ key, m.spared = some key → requestEvent q r ≠ some (.barred key) →
        v.guard.bars key = false :=
      fun key hkey hevent => answer_bars ha hevent (hw.spared key hkey)
    intro key hkey
    cases hstep with
    | routine m hq r =>
        refine hkept key hkey ?_
        rw [requestEvent_routine hq]
        exact fun h => nomatch h
    | publish | submit | settle | reset | overflow | freezeFailed | overFrozen =>
        exact hkept key hkey (fun h => nomatch h)
    | pass hm key' =>
        cases hkey
        obtain ⟨hfound, hguard⟩ := answer_isBlacklisted ha
        rw [hguard]
        exact hfound.symm
    | condemn key' =>
        cases hkey
        obtain ⟨hfound, hguard⟩ := answer_isBlacklisted ha
        rw [hguard]
        exact hfound.symm
    | skip | barFrozen | failed | exhausted | found | bar => cases hkey

theorem answer_countFailure {counter : Counter} {key : String} {n : Nat}
    (ha : (watched crates settings).answer (.state (.countFailure counter key)) w (.ok n) v) :
    n = w.guard.tally counter key + 1 ∧ v.guard.tally counter key = n := by
  obtain ⟨-, hn, -⟩ := ha.1
  have hsucc : n = (guardOf w.world.app).tally counter key + 1 :=
    (guardOf_countKey counter key).2 n hn.symm
  refine ⟨hsucc, ?_⟩
  rw [answer_watched ha, hsucc]
  exact Guard.apply_counted_tally

theorem requestEvent_counted {q : KeeperRequest} {r : q.Answer} {counter : Counter} {key : String}
    (h : requestEvent q r = some (.counted counter key)) :
    ∃ n, (⟨q, r⟩ : (q : KeeperRequest) × q.Answer) = ⟨.state (.countFailure counter key), .ok n⟩ := by
  cases q with
  | state op =>
      cases op with
      | countFailure counter' key' =>
          cases r with
          | ok n =>
              cases h
              exact ⟨n, rfl⟩
          | error fault => cases h
      | _ => cases h
  | send work => cases work <;> cases h
  | _ => cases h

/-- A failure counted without the key becoming due leaves its tally below the limit. -/
theorem answer_counted {q : KeeperRequest} {r : q.Answer} {counter : Counter} {key : String}
    (ha : (watched crates settings).answer q w r v)
    (hcounted : requestEvent q r = some (.counted counter key)) (hdue : v.due ≠ some key) :
    v.guard.tally counter key < failureLimit counter := by
  obtain ⟨n, hn⟩ := requestEvent_counted hcounted
  cases hn
  rw [(answer_countFailure ha).2]
  by_contra hle
  rw [ha.2.2.2] at hdue
  exact hdue (if_pos (Nat.le_of_not_lt hle))

theorem requestEvent_ne_freed (q : KeeperRequest) (r : q.Answer) (key : String) :
    requestEvent q r ≠ some (.freed key) := by
  intro h
  cases q with
  | state op =>
      cases op with
      | countFailure => cases r <;> cases h
      | _ => cases h
  | send work => cases work <;> cases h
  | _ => cases h

/-- A key that is neither barred nor due was neither before the request. -/
theorem unbarred_before {q : KeeperRequest} {r : q.Answer} {key : String} (hw : Tracked m w)
    (hstep : Step m q r m') (ha : (watched crates settings).answer q w r v)
    (hbars : v.guard.bars key = false) (hdue : v.due ≠ some key) :
    w.guard.bars key = false ∧ w.due ≠ some key := by
  have hguard := answer_watched ha
  have hbarred : requestEvent q r ≠ some (.barred key) := by
    intro h
    rw [hguard, h] at hbars
    exact Bool.noConfusion (hbars.symm.trans Guard.apply_barred_bars)
  constructor
  · rw [hguard] at hbars
    cases he : requestEvent q r with
    | none =>
        rw [he] at hbars
        exact hbars
    | some e =>
        rw [he] at hbars hbarred
        refine (Guard.apply_bars_of_ne (fun h => hbarred (congrArg some h)) ?_).symm.trans hbars
        rintro rfl
        exact requestEvent_ne_freed q r key he
  · rw [ha.2.2.2, hw.due, dueAfter_step hstep] at hdue
    rw [hw.due]
    intro hm
    cases hstep with
    | routine | publish | submit | settle | condemn => exact hdue hm
    | skip hm' | pass hm' | reset hm' =>
        rw [hm'.due_eq] at hm
        cases hm
    | overflow hm' | failed hm' | exhausted hm' =>
        rw [hm'.due_eq] at hm
        cases hm
    | freezeFailed | overFrozen => cases hm
    | barFrozen key' n | bar key' n =>
        cases hm
        exact hbarred rfl
    | found key' =>
        cases hm
        obtain ⟨hfound, hsame⟩ := answer_isBlacklisted ha
        rw [hsame, ← hfound] at hbars
        cases hbars

theorem Tracked.atRest (hw : Tracked m w) (hm : m.AtRest) : Tracked .free w :=
  ⟨hw.staged, hw.due.trans hm.due_eq, fun _ h => nomatch h⟩

theorem Tracked.leave (hw : Tracked m w) : Tracked .free w.leave :=
  ⟨hw.staged, rfl, fun _ h => nomatch h⟩

theorem Tracked.enter (hw : Tracked .free w) : Tracked .free w.enter :=
  ⟨hw.staged, rfl, fun _ h => nomatch h⟩

/-- No call of the handler is under way and nothing has been recorded; the
blacklist and the tallies are arbitrary. -/
structure Unobserved (w : Watched) : Prop where
  calls : w.calls = []
  history : w.history = []
  due : w.due = none
  phase : w.world.phase = .idle

theorem Unobserved.tracked (h : Unobserved w) : Tracked .free w where
  staged call hcall := by
    rw [h.calls] at hcall
    cases hcall
  due := h.due
  spared key hkey := nomatch hkey

end Tracked

section Runs

variable {crates : Crates} {settings : Settings} {sign : Transaction → Except String String}
  {S : Surroundings KeeperRequest KeeperRequest.Answer Watched} {drop : Watched → Watched → Prop}
  {J : Mode → Watched → Prop} {w v u : Watched}

/-- An assertion for each mode that every step of a run carries over. -/
structure Carried (S : Surroundings KeeperRequest KeeperRequest.Answer Watched)
    (drop : Watched → Watched → Prop) (J : Mode → Watched → Prop) : Prop where
  stable : ∀ m, S.Stable (J m)
  step : ∀ m q r m' w v, J m w → Step m q r m' → S.answer q w r v → J m' v
  atRest : ∀ m w, m.AtRest → J m w → J .free w
  drop : ∀ m w v, J m w → drop w v → J .free v
  enter : ∀ w, J .free w → J .free w.enter

theorem Carried.safe (h : Carried S drop J) (hw : J .free w) :
    Safe S (fun v => ∃ m, J m v) (executeKeeperCycle crates settings sign) (fun _ _ => True) w :=
  ((executeKeeperCycle_follows .free).safe h.stable h.step hw).mono (fun _ _ _ _ => trivial)

theorem Carried.stable_some (h : Carried S drop J) : S.Stable (fun v => ∃ m, J m v) :=
  fun u v ⟨m, hu⟩ hi => ⟨m, h.stable m u v hu hi⟩

theorem Carried.runs (h : Carried S drop J) (hw : J .free w)
    (hrun : GuardRuns crates settings sign S drop w v) : J .free v := by
  refine Rounds.invariant (J := fun v => ∃ m, J m v) (Q := fun _ _ => True) hrun hw (h.stable .free)
    h.stable_some ?_ (fun u hu => h.safe (h.enter u hu))
  rintro u z ⟨m, hu⟩ hd
  exact h.drop m u z hu hd

/-- The worlds met in the middle of a cycle. -/
theorem Carried.visits (h : Carried S drop J) (hw : J .free w)
    (hrun : GuardRuns crates settings sign S drop w v)
    (hv : Visits S (executeKeeperCycle crates settings sign) v.enter u) : ∃ m, J m u :=
  Safe.visits (I := fun v => ∃ m, J m v) h.stable_some (h.safe (h.enter v (h.runs hw hrun))) hv

variable (crates settings sign S drop) in
/-- The worlds in which no key is being processed: between two cycles, after the
prices of a cycle, after each iteration. -/
inductive Between (start : Watched) : Watched → Prop
  | cycle {x : Watched} (h : GuardRuns crates settings sign S drop start x) : Between start x
  | prepared {x y : Watched} {result} (h : GuardRuns crates settings sign S drop start x)
      (hp : Finishes S (prepareCycle crates settings sign) x.enter result y) : Between start y
  | iteration {x y : Watched} {executor key tally tally'} (h : Between start x)
      (hp : Finishes S (executeKey crates settings sign executor key tally) x tally' y) :
      Between start y
  | interfere {x y : Watched} (h : Between start x) (hi : S.interfere x y) : Between start y

theorem Carried.between (h : Carried S drop J) (hw : J .free w)
    (hv : Between crates settings sign S drop w v) : J .free v := by
  induction hv with
  | cycle hrun => exact h.runs hw hrun
  | prepared hrun hp =>
      have hready := h.enter _ (h.runs hw hrun)
      obtain ⟨m, rfl, hu⟩ :=
        ((prepareCycle_follows .free).safe h.stable h.step hready).finishes hp
      exact hu
  | iteration _ hp ih =>
      obtain ⟨m, hm, hu⟩ := ((executeKey_follows .free).safe h.stable h.step ih).finishes hp
      exact h.atRest m _ hm hu
  | interfere _ hi ih => exact h.stable .free _ _ ih hi

end Runs

end So4Oracle.GuardModes
