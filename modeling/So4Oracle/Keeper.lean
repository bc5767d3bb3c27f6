import So4Oracle.Handler

namespace So4Oracle.Keeper

open Library.Checked Library.Requests Wire Config State Chain Submit PendingKeys Handler

def priceHeartbeatIntervalSecs : Nat := 30

def postSetPricesSettleMs : Nat := 5000

def bpsDenominator : Int := 10000

structure CycleSummary where
  ordersExecuted : Nat
  depositsExecuted : Nat
  withdrawalsExecuted : Nat
  errors : Nat
  pricesStale : Bool
  keeperBalanceLow : Bool
  deriving DecidableEq, Repr

def CycleSummary.skipped (pricesStale keeperBalanceLow : Bool) : CycleSummary :=
  ⟨0, 0, 0, 0, pricesStale, keeperBalanceLow⟩

variable (crates : Crates) (settings : Settings) (sign : Transaction → Except String String)

section Prices

/-- The first token with the key of a cached price decides on its staleness; a
price of no configured token is left out. -/
def isFresh (now : Nat) (key : String) (price : CachedPrice) : Bool :=
  match settings.tokens.find? fun token => lookupKey crates token == key with
  | some token => !price.isStale token.staleAfterSeconds now
  | none => false

def freshPrices (now : Nat) (prices : PriceMap) : PriceMap :=
  prices.filter (isFresh crates settings now)

def isHeartbeatDue (lastFullSubmission : Option Nat) (now : Nat) : Bool :=
  match lastFullSubmission with
  | some last => priceHeartbeatIntervalSecs ≤ now - secondsOf last
  | none => true

def checkedI128 (x : Int) : Option Int := (checked x).toOption

def checkedAbs (x : Int) : Option Int := checkedI128 |x|

/-- An overflow means the move is astronomically large. -/
def moveExceedsBps (last median : Int) (thresholdBps : Nat) : Bool :=
  match (checkedI128 (median - last)).bind checkedAbs with
  | none => true
  | some change =>
      if change = 0 then false
      else
        match checkedI128 (change * bpsDenominator) with
        | none => true
        | some scaledChange =>
            match (checkedAbs last).bind fun last => checkedI128 (last * thresholdBps) with
            | some bound => bound < scaledChange
            | none => true

def tokenThresholds : KeyMap Nat :=
  .ofList (settings.tokens.map fun token => (lookupKey crates token, token.submitThresholdBps))

def mustSubmit (lastSubmitted : Option (KeyMap Int)) (key : String) (price : CachedPrice) : Bool :=
  let threshold := (tokenThresholds crates settings).getD key 0
  match lastSubmitted.bind fun submitted => submitted[key]?, threshold with
  | some _, 0 => true
  | some last, threshold => moveExceedsBps last price.median threshold
  | none, _ => true

def filterPricesByThreshold (prices : PriceMap) (lastSubmitted : Option (KeyMap Int))
    (isHeartbeat : Bool) : PriceMap :=
  prices.filter fun key price => isHeartbeat || mustSubmit crates settings lastSubmitted key price

def pricesToSubmit (fresh : PriceMap) (lastSubmitted : Option (KeyMap Int)) (isHeartbeat : Bool) :
    PriceMap :=
  if isHeartbeat then fresh else filterPricesByThreshold crates settings fresh lastSubmitted isHeartbeat

variable {crates settings} in
theorem getElem?_pricesToSubmit {fresh : PriceMap} {lastSubmitted : Option (KeyMap Int)}
    {isHeartbeat : Bool} {key : String} {price : CachedPrice}
    (h : (pricesToSubmit crates settings fresh lastSubmitted isHeartbeat)[key]? = some price) :
    fresh[key]? = some price := by
  rw [pricesToSubmit] at h
  split at h
  · exact h
  · exact (getElem?_filter_eq_some.mp h).1

def submitPrices (prices : PriceMap) (pricesScval : ScVal) (sequence : Nat) :
    KeeperProgram (Except HandlerError String) := do
  let now ← unixTime
  match buildAndSign crates settings sign settings.oracleContractId "set_prices" [pricesScval]
      settings.setPricesTxFee sequence now with
  | .error e => pure (.error (.local e))
  | .ok signed => do
      let result ← submitTx (.setPrices prices) signed.1 signed.2
      pure (handlerResult crates "set_prices" result)

def setPricesOnChain (prices : PriceMap) : KeeperProgram (Except HandlerError String) :=
  match encodePricesVec crates prices.values with
  | .error e => pure (.error (.local e))
  | .ok pricesScval => do
      match ← Program.request KeeperRequest.accountSequence with
      | .error e => pure (.error (.local e.display))
      | .ok sequence => submitPrices crates settings sign prices pricesScval sequence

def publishPrices (prices : PriceMap) (now : Nat) (isHeartbeat : Bool) :
    KeeperProgram (Except String Unit) := do
  match ← setPricesOnChain crates settings sign prices with
  | .error e => pure (.error e.message)
  | .ok _ => do
      locked (.updateSubmittedPrices prices now isHeartbeat)
      Program.request (KeeperRequest.sleep postSetPricesSettleMs)
      pure (.ok ())

def setPricesStage (fresh : PriceMap) : KeeperProgram (Except String Unit) := do
  let now ← unixTime
  let lastFullSubmission ← locked .readLastFullSubmission
  let lastSubmitted ← locked .readLastSubmittedMedians
  let isHeartbeat := isHeartbeatDue lastFullSubmission now
  let submit := pricesToSubmit crates settings fresh lastSubmitted isHeartbeat
  if submit.isEmpty && !isHeartbeat then pure (.ok ())
  else publishPrices crates settings sign submit now isHeartbeat

end Prices

section Execution

/-- The three execution loops differ in the contract, the two methods and in
what only orders do: freeze on an exceeded budget and count those freezes. -/
structure Executor where
  contractId : String
  executeMethod : String
  freezeMethod : String
  countsFreezes : Bool

def orderExecutor : Executor :=
  ⟨settings.orderHandlerContractId, "execute_order", "freeze_order", true⟩

def depositExecutor : Executor :=
  ⟨settings.depositHandlerContractId, "execute_deposit", "freeze_deposit", false⟩

def withdrawalExecutor : Executor :=
  ⟨settings.withdrawalHandlerContractId, "execute_withdrawal", "freeze_withdrawal", false⟩

/-- What a loop carries from key to key. -/
structure Tally where
  executed : Nat
  errors : Nat
  sequenceCache : Option Nat
  deriving DecidableEq, Repr

def Tally.countError (tally : Tally) : Tally := { tally with errors := tally.errors + 1 }

def recordError (operation error : String) (txHash : Option String) : KeeperProgram Unit :=
  locked (.recordError ⟨operation, settings.network, "", "", txHash, error, 0⟩)

def recordFailedExecution (executor : Executor) (key : String) (error : HandlerError)
    (txHash : Option String) (recorded : String) : KeeperProgram Unit := do
  recordError settings (executor.executeMethod ++ ":" ++ key) error.message txHash
  locked (.recordExecution executor.executeMethod key txHash false (some recorded))

def countFailure (counter : Counter) (key : String) : KeeperProgram Nat := do
  orAbort (← locked (.countFailure counter key))

variable (executor : Executor) (key : String)

def executionSucceeded (txHash : String) (tally : Tally) : KeeperProgram Tally := do
  locked (.removeInFlight key)
  if executor.countsFreezes then locked (.clearFailures .freezeFailures key)
  locked (.clearFailures .executionFailures key)
  locked (.recordExecution executor.executeMethod key (some txHash) true none)
  pure { tally with executed := tally.executed + 1 }

def executionAmbiguous (error : HandlerError) (tally : Tally) : KeeperProgram Tally := do
  recordFailedExecution settings executor key error error.txHash error.message
  pure tally.countError

def freeze (sequenceCache : Option Nat) : KeeperProgram HandlerOutcome :=
  executeHandler crates settings sign executor.contractId executor.freezeMethod key sequenceCache

def freezeFailed (freezeError : HandlerError) : KeeperProgram Unit := do
  let consecutive ← countFailure .freezeFailures key
  recordError settings executor.freezeMethod freezeError.message none
  if maxConsecutiveFreezeFailures ≤ consecutive then locked (.blacklist key consecutive)

/-- The budget-exceeded path, with the freeze error it ends in. -/
def freezeOnBudget (error : HandlerError) (sequenceCache : Option Nat) :
    KeeperProgram (Option String × Option Nat) :=
  if executor.countsFreezes && isBudgetExceeded crates error then do
    let frozen ← freeze crates settings sign executor key sequenceCache
    match frozen.1 with
    | .ok _ => do
        locked (.clearFailures .freezeFailures key)
        locked (.clearFailures .executionFailures key)
        pure (none, frozen.2)
    | .error freezeError => do
        freezeFailed settings executor key freezeError
        pure (some freezeError.message, frozen.2)
  else pure (none, sequenceCache)

def abandon (consecutive : Nat) (sequenceCache : Option Nat) : KeeperProgram (Option Nat) := do
  let frozen ← freeze crates settings sign executor key sequenceCache
  match frozen.1 with
  | .ok _ => pure ()
  | .error freezeError => recordError settings executor.freezeMethod freezeError.message none
  locked (.blacklist key consecutive)
  locked (.clearFailures .executionFailures key)
  pure frozen.2

def abandonAfterFailures (sequenceCache : Option Nat) : KeeperProgram (Option Nat) := do
  let consecutive ← countFailure .executionFailures key
  if consecutive < maxConsecutiveExecutionFailures then pure sequenceCache
  else do
    let alreadyBlacklisted ← locked (.isBlacklisted key)
    if alreadyBlacklisted then pure sequenceCache
    else abandon crates settings sign executor key consecutive sequenceCache

def withFreezeError (error : HandlerError) : Option String → String
  | some freezeError => error.message ++ " | freeze_error: " ++ freezeError
  | none => error.message

def executionFailed (error : HandlerError) (tally : Tally) : KeeperProgram Tally := do
  locked (.removeInFlight key)
  if isMarketPausedError error then pure tally
  else do
    let frozen ← freezeOnBudget crates settings sign executor key error tally.sequenceCache
    let cache ← abandonAfterFailures crates settings sign executor key frozen.2
    recordFailedExecution settings executor key error none (withFreezeError error frozen.1)
    pure { tally.countError with sequenceCache := cache }

def executionOutcome (outcome : HandlerOutcome) (tally : Tally) : KeeperProgram Tally :=
  match outcome.1 with
  | .ok txHash => executionSucceeded executor key txHash { tally with sequenceCache := outcome.2 }
  | .error error =>
      if error.mayStillConfirm then
        executionAmbiguous settings executor key error { tally with sequenceCache := outcome.2 }
      else
        executionFailed crates settings sign executor key error
          { tally with sequenceCache := outcome.2 }

def executeAdmitted (tally : Tally) : KeeperProgram Tally := do
  let outcome ← executeHandler crates settings sign executor.contractId executor.executeMethod key
    tally.sequenceCache
  executionOutcome crates settings sign executor key outcome tally

def executeKey (tally : Tally) : KeeperProgram Tally := do
  let blacklisted ← locked (.isBlacklisted key)
  if blacklisted then pure tally.countError
  else do
    let admitted ← locked (.admitInFlight key)
    if admitted then executeAdmitted crates settings sign executor key tally else pure tally

def executeKeys : List String → Tally → KeeperProgram Tally
  | [], tally => pure tally
  | key :: keys, tally => executeKey crates settings sign executor key tally >>= executeKeys keys

end Execution

section Cycle

/-- The pending keys of a cycle that goes on to submit. -/
structure Pending where
  freshPrices : PriceMap
  keys : Kind → List String

def Pending.pricesStale (pending : Pending) : Bool := pending.freshPrices.isEmpty

def isBalanceLow : Except StellarRpc.RpcError Int → Bool
  | .error (.balanceBelowMinimum _ _ _) => true
  | _ => false

def keysOrNone (fetched : Kind → Except String (List String)) (kind : Kind) : List String :=
  match fetched kind with
  | .ok keys => keys
  | .error _ => []

def noPendingWork (keys : Kind → List String) : Bool :=
  (keys .orders).isEmpty && (keys .deposits).isEmpty && (keys .withdrawals).isEmpty

def snapshot : KeeperProgram PriceMap := do
  let now ← unixTime
  let prices ← locked .readPrices
  pure (freshPrices crates settings now prices)

/-- Everything before the first submission. -/
def openCycle : KeeperProgram (Except CycleSummary Pending) := do
  locked .sweepExpiredInFlightKeys
  let balance ← Program.request KeeperRequest.checkKeeperBalance
  let fresh ← snapshot crates settings
  let fetched ← Program.request KeeperRequest.pendingKeys
  let keys := keysOrNone fetched
  locked (.setPending (keys .orders).length (keys .deposits).length (keys .withdrawals).length)
  if noPendingWork keys || isBalanceLow balance then
    pure (.error (CycleSummary.skipped fresh.isEmpty (isBalanceLow balance)))
  else pure (.ok ⟨fresh, keys⟩)

def publishFresh (pending : Pending) : KeeperProgram (Except String Unit) :=
  if pending.pricesStale then pure (.ok ())
  else setPricesStage crates settings sign pending.freshPrices

/-- The cycle up to the end of the set_prices stage: the error of a failed
submission, the summary of a skipped cycle, or the work that is left. -/
def prepareCycle : KeeperProgram (Except String (Except CycleSummary Pending)) := do
  match ← openCycle crates settings with
  | .error summary => pure (.ok (.error summary))
  | .ok pending => do
      match ← publishFresh crates settings sign pending with
      | .error e => pure (.error e)
      | .ok () => pure (.ok (.ok pending))

/-- Without a fresh price every key of every list is skipped. -/
def executeFresh (pending : Pending) (executor : Executor) (kind : Kind) (tally : Tally) :
    KeeperProgram Tally :=
  if pending.pricesStale then pure tally
  else executeKeys crates settings sign executor (pending.keys kind) tally

def Tally.next (tally : Tally) : Tally := { tally with executed := 0 }

def executePending (pending : Pending) : KeeperProgram CycleSummary := do
  let orders ← executeFresh crates settings sign pending (orderExecutor settings) .orders ⟨0, 0, none⟩
  let deposits ← executeFresh crates settings sign pending (depositExecutor settings) .deposits
    orders.next
  let withdrawals ← executeFresh crates settings sign pending (withdrawalExecutor settings)
    .withdrawals deposits.next
  pure ⟨orders.executed, deposits.executed, withdrawals.executed, withdrawals.errors,
    pending.pricesStale, false⟩

def executeKeeperCycle : KeeperProgram (Except String CycleSummary) := do
  match ← prepareCycle crates settings sign with
  | .error e => pure (.error e)
  | .ok (.error summary) => pure (.ok summary)
  | .ok (.ok pending) => do
      let summary ← executePending crates settings sign pending
      pure (.ok summary)

end Cycle

end So4Oracle.Keeper
