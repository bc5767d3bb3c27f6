import So4Oracle.KeeperGates

namespace So4Oracle.ExecutionCounts

open Library.Checked Library.Requests Wire Config State Chain Submit Handler Keeper KeeperRuns
  KeeperRequests KeeperGates

section Counting

/-- Whether a counted method waits for the outcome of its submission, and how many
of them have been confirmed. -/
structure Count where
  waiting : Bool
  confirmed : Nat

def Count.step (counted : String → Bool) (c : Count) :
    Event KeeperRequest KeeperRequest.Answer → Count
  | ⟨.send (.handler method _) _ _, _⟩ => { c with waiting := counted method }
  | ⟨.send (.setPrices _) _ _, _⟩ => { c with waiting := false }
  | ⟨.settle _, r⟩ => ⟨false, if c.waiting && r.isOk then c.confirmed + 1 else c.confirmed⟩
  | _ => c

/-- How often the network has confirmed a call of a counted method. -/
def confirmations (counted : String → Bool) (tr : KeeperTrace) : Nat :=
  (tr.foldl (Count.step counted) ⟨false, 0⟩).confirmed

variable {counted : String → Bool}

/-- A part of a run with this many confirmations, none of which is left open. -/
def Adds (counted : String → Bool) (tr : KeeperTrace) (k : Nat) : Prop :=
  ∀ n, tr.foldl (Count.step counted) ⟨false, n⟩ = ⟨false, n + k⟩

theorem Adds.nil : Adds counted [] 0 := fun _ => rfl

theorem Adds.append {tr tr' : KeeperTrace} {k k' : Nat} (h : Adds counted tr k)
    (h' : Adds counted tr' k') : Adds counted (tr ++ tr') (k + k') := by
  intro n
  rw [List.foldl_append, h n, h' (n + k), Nat.add_assoc]

theorem Adds.confirmations {tr : KeeperTrace} {k : Nat} (h : Adds counted tr k) :
    confirmations counted tr = k := by
  rw [ExecutionCounts.confirmations, h 0, Nat.zero_add]

/-- Requests that do not call a counted method. -/
def Uncounted (counted : String → Bool) : KeeperRequest → Prop
  | .send (.handler method _) _ _ => counted method = false
  | _ => True

theorem step_uncounted {e : Event KeeperRequest KeeperRequest.Answer}
    (h : Uncounted counted e.request) (n : Nat) :
    Count.step counted ⟨false, n⟩ e = ⟨false, n⟩ := by
  obtain ⟨q, r⟩ := e
  cases q with
  | send work =>
      cases work with
      | setPrices => rfl
      | handler method key =>
          have hmethod : counted method = false := h
          rw [Count.step, hmethod]
  | _ => rfl

theorem Adds.of_asks {α : Type} {p : KeeperProgram α} {tr : KeeperTrace} {a : α}
    (hp : p.Asks (Uncounted counted)) (h : Runs p tr a) : Adds counted tr 0 := by
  have hevents := h.asks hp
  clear h
  intro n
  induction tr with
  | nil => rfl
  | cons e tr ih =>
      rw [List.foldl_cons, step_uncounted (hevents e List.mem_cons_self) n]
      exact ih (fun e' he' => hevents e' (List.mem_cons_of_mem e he'))

end Counting

section Calls

variable {counted : String → Bool} {crates : Crates} {settings : Settings}
  {sign : Transaction → Except String String} {contractId method key : String} {tr : KeeperTrace}
  {out : HandlerOutcome}

/-- What a call of the method adds to the confirmations. -/
def gain (counted : String → Bool) (method : String) (result : Except HandlerError String) : Nat :=
  if counted method && result.isOk then 1 else 0

theorem gain_error (e : HandlerError) : gain counted method (.error e) = 0 := by
  rw [gain, show (Except.error e : Except HandlerError String).isOk = false from rfl, Bool.and_false]
  rfl

theorem orAbort_runs {α : Type} {x : Panicking α} {a : α} (h : Runs (orAbort x) tr a) : tr = [] := by
  cases x with
  | ok b => exact (runs_done.mp h).1
  | error fault =>
      obtain ⟨r, -⟩ := runs_ask.mp h
      exact r.elim

/-- A submission and its outcome. -/
theorem adds_submission (tx : Transaction) (signedXdr : String) (r : Except SubmitError Nat) :
    Adds counted [⟨.send (.handler method key) tx signedXdr, ()⟩, ⟨.settle signedXdr, r⟩]
      (gain counted method (handlerResult crates method r)) := by
  intro n
  have hok : (handlerResult crates method r).isOk = r.isOk := by
    cases r <;> rfl
  rw [gain, hok, List.foldl_cons, List.foldl_cons, List.foldl_nil, Count.step, Count.step]
  split <;> rfl

theorem submitHandler_adds {keyArg : ScVal} {sequence : Nat}
    (h : Runs (submitHandler crates settings sign contractId method key keyArg sequence) tr out) :
    Adds counted tr (gain counted method out.1) := by
  rw [submitHandler, unixTime] at h
  obtain ⟨now, rest, rfl, hbuilt⟩ := runs_request_bind.mp h
  have hclock : Adds counted [⟨.unixTime, now⟩] 0 := fun _ => rfl
  split at hbuilt
  next =>
    obtain ⟨rfl, rfl⟩ := runs_done.mp hbuilt
    rw [gain_error]
    exact hclock
  next signed _ =>
    rw [submitTx, Program.bind_assoc] at hbuilt
    obtain ⟨sent, afterSend, rfl, hsent⟩ := runs_request_bind.mp hbuilt
    obtain ⟨r, afterSettle, rfl, hsettled⟩ := runs_request_bind.mp hsent
    obtain ⟨aborting, cache, last, rfl, hcache, hdone⟩ := runs_bind.mp hsettled
    obtain ⟨rfl, rfl⟩ := runs_done.mp hdone
    obtain rfl := orAbort_runs hcache
    rw [← Nat.zero_add (gain _ _ _)]
    exact hclock.append (adds_submission signed.1 signed.2 r)

theorem executeHandler_adds {sequenceCache : Option Nat}
    (h : Runs (executeHandler crates settings sign contractId method key sequenceCache) tr out) :
    Adds counted tr (gain counted method out.1) := by
  rw [executeHandler] at h
  split at h
  next =>
    obtain ⟨rfl, rfl⟩ := runs_done.mp h
    rw [gain_error]
    exact .nil
  next =>
    split at h
    next => exact submitHandler_adds h
    next =>
      obtain ⟨r, rest, rfl, hfetched⟩ := runs_request_bind.mp h
      have hfetch : Adds counted [⟨.accountSequence, r⟩] 0 := fun _ => rfl
      cases r with
      | error e =>
          obtain ⟨rfl, rfl⟩ := runs_done.mp hfetched
          rw [gain_error]
          exact hfetch
      | ok sequence =>
          rw [← Nat.zero_add (gain _ _ _)]
          exact hfetch.append (submitHandler_adds hfetched)

end Calls

section Iterations

variable {counted : String → Bool} {crates : Crates} {settings : Settings}
  {sign : Transaction → Except String String} {executor : Executor} {key : String} {tr : KeeperTrace}
  {outcome : HandlerOutcome} {tally tally' : Tally}

theorem uncounted_of_inLoop (q : KeeperRequest) (h : InLoop q) : Uncounted counted q := by
  cases q with
  | send => exact absurd h id
  | _ => trivial

theorem uncounted_of_bookkeeping (q : KeeperRequest) (h : Bookkeeping q) : Uncounted counted q :=
  uncounted_of_inLoop q (inLoop_of_bookkeeping q h)

theorem freeze_asks (hfreeze : counted executor.freezeMethod = false) {sequenceCache : Option Nat} :
    (freeze crates settings sign executor key sequenceCache).Asks (Uncounted counted) :=
  executeHandler_asks (fun q hq => uncounted_of_inLoop q (inLoop_of_inCall q hq))
    (fun _ _ => hfreeze) (fun _ => trivial)

theorem freezeOnBudget_asks (hfreeze : counted executor.freezeMethod = false) {error : HandlerError}
    {sequenceCache : Option Nat} :
    (freezeOnBudget crates settings sign executor key error sequenceCache).Asks
      (Uncounted counted) := by
  rw [freezeOnBudget]
  split
  · refine (freeze_asks hfreeze).bind (fun frozen => ?_)
    cases frozen.1 with
    | ok txHash => exact ⟨trivial, fun _ => ⟨trivial, fun _ => trivial⟩⟩
    | error e =>
        exact ((freezeFailed_asks e).mono uncounted_of_bookkeeping).bind (fun _ => trivial)
  · trivial

theorem uncounted_of_abandoning (hfreeze : counted executor.freezeMethod = false)
    (q : KeeperRequest) (h : Abandoning executor q) : Uncounted counted q := by
  cases q with
  | send work =>
      cases work with
      | setPrices => trivial
      | handler method key =>
          obtain rfl : method = executor.freezeMethod := h
          exact hfreeze
  | _ => trivial

theorem executionFailed_asks (hfreeze : counted executor.freezeMethod = false)
    {error : HandlerError} :
    (executionFailed crates settings sign executor key error tally).Asks (Uncounted counted) := by
  refine ⟨trivial, fun _ => ?_⟩
  split
  · trivial
  · refine (freezeOnBudget_asks hfreeze).bind (fun frozen => ?_)
    refine (abandonAfterFailures_asks.mono (uncounted_of_abandoning hfreeze)).bind (fun cache => ?_)
    exact ((recordFailedExecution_asks _ _ _).mono uncounted_of_bookkeeping).bind (fun _ => trivial)

theorem executionOutcome_asks (hfreeze : counted executor.freezeMethod = false) :
    (executionOutcome crates settings sign executor key outcome tally).Asks (Uncounted counted) := by
  obtain ⟨result, cache⟩ := outcome
  cases result with
  | ok txHash =>
      refine ⟨trivial, fun _ => ?_⟩
      split
      · exact ⟨trivial, fun _ => ⟨trivial, fun _ => ⟨trivial, fun _ => trivial⟩⟩⟩
      · exact ⟨trivial, fun _ => ⟨trivial, fun _ => trivial⟩⟩
  | error e =>
      show Program.Asks _ (if e.mayStillConfirm = true then _ else _)
      split
      · exact ((recordFailedExecution_asks _ _ _).mono uncounted_of_bookkeeping).bind
          (fun _ => trivial)
      · exact executionFailed_asks hfreeze

theorem executionSucceeded_executed {txHash : String}
    (h : Runs (executionSucceeded executor key txHash tally) tr tally') :
    tally'.executed = tally.executed + 1 := by
  obtain ⟨removed, afterRemoval, -, hremoved⟩ := runs_request_bind.mp h
  split at hremoved
  · obtain ⟨reset, afterReset, -, hreset⟩ := runs_request_bind.mp hremoved
    obtain ⟨cleared, afterClear, -, hcleared⟩ := runs_request_bind.mp hreset
    obtain ⟨recorded, afterRecord, -, hdone⟩ := runs_request_bind.mp hcleared
    obtain ⟨-, rfl⟩ := runs_done.mp hdone
    rfl
  · obtain ⟨cleared, afterClear, -, hcleared⟩ := runs_request_bind.mp hremoved
    obtain ⟨recorded, afterRecord, -, hdone⟩ := runs_request_bind.mp hcleared
    obtain ⟨-, rfl⟩ := runs_done.mp hdone
    rfl

theorem executionFailed_executed {error : HandlerError}
    (h : Runs (executionFailed crates settings sign executor key error tally) tr tally') :
    tally'.executed = tally.executed := by
  obtain ⟨removed, afterRemoval, -, hremoved⟩ := runs_request_bind.mp h
  split at hremoved
  · obtain ⟨-, rfl⟩ := runs_done.mp hremoved
    rfl
  · obtain ⟨freezing, frozen, afterFreeze, -, -, hfrozen⟩ := runs_bind.mp hremoved
    obtain ⟨abandoning, cache, afterAbandon, -, -, habandoned⟩ := runs_bind.mp hfrozen
    obtain ⟨recording, recorded, last, -, -, hdone⟩ := runs_bind.mp habandoned
    obtain ⟨-, rfl⟩ := runs_done.mp hdone
    rfl

/-- Only a confirmed execution is tallied. -/
theorem executionOutcome_executed
    (h : Runs (executionOutcome crates settings sign executor key outcome tally) tr tally') :
    tally'.executed = tally.executed + if outcome.1.isOk then 1 else 0 := by
  obtain ⟨result, cache⟩ := outcome
  cases result with
  | ok txHash =>
      have hexecuted := executionSucceeded_executed h
      exact hexecuted
  | error e =>
      change Runs (if e.mayStillConfirm = true then _ else _) _ _ at h
      split at h
      · obtain ⟨recording, recorded, last, -, -, hdone⟩ := runs_bind.mp h
        obtain ⟨-, rfl⟩ := runs_done.mp hdone
        rfl
      · have hexecuted := executionFailed_executed h
        exact hexecuted

/-- What the part of a run that turns one tally into another adds. -/
def Tallies (counted : String → Bool) (executor : Executor) (tr : KeeperTrace)
    (tally tally' : Tally) : Prop :=
  ∃ executed, tally'.executed = tally.executed + executed ∧
    Adds counted tr (if counted executor.executeMethod then executed else 0)

/-- A part without a call of a counted method that leaves the tally of executions. -/
theorem Tallies.of_adds (h : Adds counted tr 0) (htally : tally'.executed = tally.executed) :
    Tallies counted executor tr tally tally' := by
  refine ⟨0, htally, ?_⟩
  rw [ite_self]
  exact h

theorem Tallies.refl : Tallies counted executor [] tally tally := .of_adds .nil rfl

theorem Tallies.trans {tr' : KeeperTrace} {tally'' : Tally}
    (h : Tallies counted executor tr tally tally')
    (h' : Tallies counted executor tr' tally' tally'') :
    Tallies counted executor (tr ++ tr') tally tally'' := by
  obtain ⟨executed, htally, hadds⟩ := h
  obtain ⟨executed', htally', hadds'⟩ := h'
  refine ⟨executed + executed', by rw [htally', htally, Nat.add_assoc], ?_⟩
  cases hcounted : counted executor.executeMethod with
  | true =>
      rw [hcounted] at hadds hadds'
      exact hadds.append hadds'
  | false =>
      rw [hcounted] at hadds hadds'
      exact hadds.append hadds'

theorem executeAdmitted_tallies (hfreeze : counted executor.freezeMethod = false)
    (h : Runs (executeAdmitted crates settings sign executor key tally) tr tally') :
    Tallies counted executor tr tally tally' := by
  obtain ⟨calling, out, rest, rfl, hcall, hrest⟩ := runs_bind.mp h
  refine ⟨_, executionOutcome_executed hrest, ?_⟩
  have hadds := (executeHandler_adds hcall).append
    (Adds.of_asks (executionOutcome_asks hfreeze) hrest)
  rw [Nat.add_zero, gain] at hadds
  cases hcounted : counted executor.executeMethod <;> simpa [hcounted] using hadds

theorem executeKey_tallies (hfreeze : counted executor.freezeMethod = false)
    (h : Runs (executeKey crates settings sign executor key tally) tr tally') :
    Tallies counted executor tr tally tally' := by
  obtain ⟨blacklisted, afterLookup, rfl, hlookup⟩ := runs_request_bind.mp h
  have hfirst : ∀ t, Tallies counted executor [⟨.state (.isBlacklisted key), blacklisted⟩] t t :=
    fun t => .of_adds (fun _ => rfl) rfl
  cases blacklisted with
  | true =>
      obtain ⟨rfl, rfl⟩ := runs_done.mp hlookup
      exact .of_adds (fun _ => rfl) rfl
  | false =>
      obtain ⟨admitted, afterAdmission, rfl, hadmission⟩ := runs_request_bind.mp hlookup
      have hsecond : Tallies counted executor [⟨.state (.admitInFlight key), admitted⟩] tally tally :=
        .of_adds (fun _ => rfl) rfl
      refine (hfirst tally).trans (hsecond.trans ?_)
      cases admitted with
      | true => exact executeAdmitted_tallies hfreeze hadmission
      | false =>
          obtain ⟨rfl, rfl⟩ := runs_done.mp hadmission
          exact .refl

theorem executeKeys_tallies (hfreeze : counted executor.freezeMethod = false) {keys : List String}
    (h : Runs (executeKeys crates settings sign executor keys tally) tr tally') :
    Tallies counted executor tr tally tally' := by
  induction keys generalizing tr tally with
  | nil =>
      obtain ⟨rfl, rfl⟩ := runs_done.mp h
      exact .refl
  | cons key keys ih =>
      obtain ⟨first, mid, rest, rfl, hkey, hkeys⟩ := runs_bind.mp h
      exact (executeKey_tallies hfreeze hkey).trans (ih hkeys)

theorem executeFresh_tallies (hfreeze : counted executor.freezeMethod = false) {pending : Pending}
    {kind : PendingKeys.Kind}
    (h : Runs (executeFresh crates settings sign pending executor kind tally) tr tally') :
    Tallies counted executor tr tally tally' := by
  rw [executeFresh] at h
  split at h
  · obtain ⟨rfl, rfl⟩ := runs_done.mp h
    exact .refl
  · exact executeKeys_tallies hfreeze h

end Iterations

section Cycles

variable {counted : String → Bool} {crates : Crates} {settings : Settings}
  {sign : Transaction → Except String String} {tr : KeeperTrace} {pending : Pending}

theorem setPricesOnChain_asks {prices : PriceMap} :
    (setPricesOnChain crates settings sign prices).Asks (Uncounted counted) := by
  rw [setPricesOnChain]
  split
  · trivial
  · refine ⟨trivial, fun fetched => ?_⟩
    cases fetched with
    | error e => trivial
    | ok sequence =>
        apply Program.Asks.bind (p := unixTime) ⟨trivial, fun _ => trivial⟩
        intro now
        split
        · trivial
        · exact ⟨trivial, fun _ => ⟨trivial, fun _ => trivial⟩⟩

theorem publishFresh_asks : (publishFresh crates settings sign pending).Asks (Uncounted counted) := by
  rw [publishFresh]
  split
  · trivial
  · refine ⟨trivial, fun now => ⟨trivial, fun lastFullSubmission => ?_⟩⟩
    apply Program.Asks.bind (p := locked .readLastSubmittedMedians) ⟨trivial, fun _ => trivial⟩
    intro lastSubmitted
    dsimp only
    split
    · trivial
    · refine setPricesOnChain_asks.bind (fun published => ?_)
      cases published with
      | error e => trivial
      | ok hash => exact ⟨trivial, fun _ => ⟨trivial, fun _ => trivial⟩⟩

theorem uncounted_of_opening (q : KeeperRequest) (h : Opening q) : Uncounted counted q := by
  cases q with
  | send => exact absurd h id
  | _ => trivial

/-- The handlers' freezes are left out of the count. -/
structure CountsNoFreeze (counted : String → Bool) : Prop where
  orders : counted "freeze_order" = false
  deposits : counted "freeze_deposit" = false
  withdrawals : counted "freeze_withdrawal" = false

def executions (counted : String → Bool) (s : CycleSummary) : Nat :=
  (if counted "execute_order" then s.ordersExecuted else 0) +
    (if counted "execute_deposit" then s.depositsExecuted else 0) +
    (if counted "execute_withdrawal" then s.withdrawalsExecuted else 0)

theorem openCycle_skips {summary : CycleSummary}
    (h : Runs (openCycle crates settings) tr (.error summary)) : executions counted summary = 0 := by
  obtain ⟨balance, now, prices, rest, -, -, hskipped⟩ := openCycle_runs h
  obtain ⟨pricesStale, keeperBalanceLow, rfl⟩ := hskipped summary rfl
  simp [executions, CycleSummary.skipped]

theorem executePending_adds (hcounted : CountsNoFreeze counted) {summary : CycleSummary}
    (h : Runs (executePending crates settings sign pending) tr summary) :
    Adds counted tr (executions counted summary) := by
  obtain ⟨first, orders, afterOrders, rfl, horders, hrest⟩ := runs_bind.mp h
  obtain ⟨second, deposits, afterDeposits, rfl, hdeposits, hlast⟩ := runs_bind.mp hrest
  obtain ⟨third, withdrawals, last, rfl, hwithdrawals, hdone⟩ := runs_bind.mp hlast
  obtain ⟨rfl, rfl⟩ := runs_done.mp hdone
  obtain ⟨ordersExecuted, heq, hfirst⟩ := executeFresh_tallies hcounted.orders horders
  obtain ⟨depositsExecuted, heq', hsecond⟩ := executeFresh_tallies hcounted.deposits hdeposits
  obtain ⟨withdrawalsExecuted, heq'', hthird⟩ :=
    executeFresh_tallies hcounted.withdrawals hwithdrawals
  rw [Nat.zero_add] at heq
  rw [Tally.next, Nat.zero_add] at heq' heq''
  rw [List.append_nil, executions, heq, heq', heq'', Nat.add_assoc]
  exact hfirst.append (hsecond.append hthird)

/-- The summary of a cycle counts what the network has confirmed in it. -/
theorem executeKeeperCycle_confirmations (hcounted : CountsNoFreeze counted)
    {summary : CycleSummary}
    (h : Runs (executeKeeperCycle crates settings sign) tr (.ok summary)) :
    confirmations counted tr = executions counted summary := by
  rw [executeKeeperCycle_eq] at h
  obtain ⟨first, opened, rest, rfl, hopened, hrest⟩ := runs_bind.mp h
  have hfirst : Adds counted first 0 := .of_asks (openCycle_asks.mono uncounted_of_opening) hopened
  cases opened with
  | error skipped =>
      obtain ⟨rfl, hsummary⟩ := runs_done.mp hrest
      cases hsummary
      rw [List.append_nil, hfirst.confirmations, openCycle_skips hopened]
  | ok pending =>
      obtain ⟨second, published, afterPublished, rfl, hpublished, hexecuting⟩ := runs_bind.mp hrest
      have hsecond : Adds counted second 0 := .of_asks publishFresh_asks hpublished
      cases published with
      | error e => cases (runs_done.mp hexecuting).2
      | ok u =>
          obtain ⟨third, s, last, rfl, hexecuted, hdone⟩ := runs_bind.mp hexecuting
          obtain ⟨rfl, hsummary⟩ := runs_done.mp hdone
          cases hsummary
          have hthird := executePending_adds hcounted hexecuted
          have hall := hfirst.append (hsecond.append hthird)
          rw [List.append_nil, hall.confirmations, Nat.zero_add, Nat.zero_add]

end Cycles

end So4Oracle.ExecutionCounts
