import So4Oracle.KeeperBalance
import So4Oracle.Library.Journals
import So4Oracle.State
import So4Oracle.StatusSnapshot

namespace So4Oracle.Ready

open Library.Requests Library.Checked Library.Floats Library.Threads Library.Tasks Library.Journals
  State Admin StellarRpc XlmBalance KeeperBalance StatusSnapshot

variable {F : Type}

def readyBalanceRetryAttempts : Nat := 3

def readyBalanceRetryBaseDelayMs : Nat := 100

def readyCheckTimeout : Nat := 15 * nanosPerSecond

/-- For so long the outcome of a check is used again. -/
def readyCacheTtl : Nat := 3 * nanosPerSecond

structure ReadySettings (F : Type) where
  priceLoopInterval : Nat
  keeperLoopInterval : Nat
  stellarRpcUrl : String
  horizonUrl : String
  keeperAccountId : String
  minKeeperBalanceXlm : F

structure ReadyCache where
  lastChecked : Option Nat
  lastError : Option ApiError
  deriving DecidableEq

/-- The response to a failed check has a message of its own. -/
def unavailable (message : String) : ApiError := ⟨503, message⟩

section Probes

inductive ProbeRequest
  | getRpc (url : String)
  | balance (q : BalanceRequest)
  | sleepMs (ms : Nat)

@[reducible] def ProbeRequest.Answer : ProbeRequest → Type
  | .getRpc _ => Reply
  | .balance q => q.Answer
  | .sleepMs _ => Unit

abbrev ProbeProgram := Program ProbeRequest ProbeRequest.Answer

def probeAsk (q : ProbeRequest) : ProbeProgram q.Answer := Program.request q

/-- The balance check as a part of the readiness checks. -/
def relayBalance {α : Type} : BalanceProgram α → ProbeProgram α
  | .done a => .done a
  | .ask q next => .ask (.balance q) fun r => relayBalance (next r)

variable {ε α : Type}

/-- The attempts from one on, with so many more to follow it. -/
def retryReadyFrom (probe : ProbeProgram (Except ε α)) (isTerminal : ε → Bool) :
    Nat → Nat → ProbeProgram (Except ε α)
  | _, 0 => probe
  | attempt, remaining + 1 => do
      match ← probe with
      | .ok value => pure (.ok value)
      | .error e =>
          if isTerminal e then pure (.error e)
          else do
            probeAsk (.sleepMs (readyBalanceRetryBaseDelayMs * 2 ^ (attempt - 1)))
            retryReadyFrom probe isTerminal (attempt + 1) remaining

def retryReadyProbe (probe : ProbeProgram (Except ε α)) (isTerminal : ε → Bool) :
    ProbeProgram (Except ε α) :=
  retryReadyFrom probe isTerminal 1 (readyBalanceRetryAttempts - 1)

def reachability : Reply → Except ApiError Unit
  | .failed _ => .error (unavailable "rpc_unreachable")
  | .http status _ =>
      if 200 ≤ status ∧ status < 300 then .ok () else .error (unavailable "rpc_unhealthy")

def probeRpcReachability (stellarRpcUrl : String) : ProbeProgram (Except ApiError Unit) := do
  let reply ← probeAsk (.getRpc stellarRpcUrl)
  pure (reachability reply)

/-- A low balance is not asked for again, and a panic ends the attempts. -/
def isTerminalBalance : BalanceError F → Bool
  | .balanceBelowMinimum _ _ _ | .panicked _ => true
  | .rpc _ => false

variable (decode : String → Except String (List HorizonBalanceEntry)) (ops : FloatOps F)
  (settings : ReadySettings F)

def keeperCfg : KeeperBalanceConfig F :=
  ⟨settings.horizonUrl, settings.keeperAccountId, settings.minKeeperBalanceXlm⟩

def performExternalReadyChecks : ProbeProgram (Panicking (Except ApiError Unit)) := do
  match ← retryReadyProbe (probeRpcReachability settings.stellarRpcUrl) (fun _ => false) with
  | .error e => pure (.ok (.error e))
  | .ok () =>
      match ← retryReadyProbe (relayBalance (checkKeeperBalance decode ops (keeperCfg settings)))
          isTerminalBalance with
      | .ok _ => pure (.ok (.ok ()))
      | .error (.balanceBelowMinimum _ _ _) => pure (.ok (.error (unavailable "keeper_balance_low")))
      | .error (.panicked fault) => pure (.error fault)
      | .error (.rpc _) => pure (.ok (.error (unavailable "keeper_balance_check_failed")))

end Probes

section Endpoint

inductive ReadyRequest
  | pricesEmpty
  | readCycle
  | lockCache
  | instant
  | probe (deadline : Nat) (q : ProbeRequest)
  | store (lastError : Option ApiError)
  | unlockCache

/-- The status of the cycles is read with the time of the system clock. A probe
that the deadline cuts short has no answer. -/
@[reducible] def ReadyRequest.Answer : ReadyRequest → Type
  | .pricesEmpty => Bool
  | .readCycle => CycleStatus × Nat
  | .lockCache => ReadyCache
  | .instant => Nat
  | .probe _ q => Option q.Answer
  | .store _ | .unlockCache => Unit

abbrev ReadyProgram := Program ReadyRequest ReadyRequest.Answer

def readyAsk (q : ReadyRequest) : ReadyProgram q.Answer := Program.request q

def timeoutAt {α : Type} (deadline : Nat) : ProbeProgram α → ReadyProgram (Option α)
  | .done a => .done (some a)
  | .ask q next => .ask (.probe deadline q) fun
      | some r => timeoutAt deadline (next r)
      | none => .done none

/-- A cycle that is ahead of the clock has just run. -/
def isStale (interval now : Nat) (last : Option Nat) : Bool :=
  match last with
  | some last => decide (interval * 3 < now - last)
  | none => true

abbrev ReadyOutcome := Panicking (Except ApiError Unit)

def lastErrorOf : Except ApiError Unit → Option ApiError
  | .ok () => none
  | .error e => some e

def outcomeOf : Option ApiError → ReadyOutcome
  | none => .ok (.ok ())
  | some e => .ok (.error e)

def conclude (checkRes : Except ApiError Unit) : ReadyProgram ReadyOutcome := do
  readyAsk (.store (lastErrorOf checkRes))
  readyAsk .unlockCache
  pure (.ok checkRes)

variable (decode : String → Except String (List HorizonBalanceEntry)) (ops : FloatOps F)
  (settings : ReadySettings F)

def checkAgain : ReadyProgram ReadyOutcome := do
  let start ← readyAsk .instant
  match ← timeoutAt (start + readyCheckTimeout) (performExternalReadyChecks decode ops settings) with
  | some (.ok checkRes) => conclude checkRes
  | some (.error fault) => do
      readyAsk .unlockCache
      pure (.error fault)
  | none => conclude (.error (unavailable "ready_check_timeout"))

/-- The lock is held from the look at the cache until the outcome is in it. -/
def readyCached : ReadyProgram ReadyOutcome := do
  let cache ← readyAsk .lockCache
  match cache.lastChecked with
  | none => checkAgain decode ops settings
  | some last => do
      let now ← readyAsk .instant
      if now - last < readyCacheTtl then do
        readyAsk .unlockCache
        pure (outcomeOf cache.lastError)
      else checkAgain decode ops settings

/-- Whether the service is ready; what else a positive response holds is left out. -/
def ready : ReadyProgram ReadyOutcome := do
  if ← readyAsk .pricesEmpty then pure (.ok (.error (unavailable "no_prices_cached")))
  else
    let (cycle, now) ← readyAsk .readCycle
    if isStale settings.priceLoopInterval now cycle.lastPriceCycleAt then
      pure (.ok (.error (unavailable "price_loop_stale")))
    else
      let (cycle, now) ← readyAsk .readCycle
      if isStale settings.keeperLoopInterval now cycle.lastKeeperCycleAt then
        pure (.ok (.error (unavailable "keeper_loop_stale")))
      else readyCached decode ops settings

end Endpoint

end So4Oracle.Ready
