import Mathlib.Tactic.Common
import So4Oracle.Config
import So4Oracle.Library.Checked

namespace So4Oracle.State

open Library.Checked

def nanosPerSecond : Nat := 1000000000

/-- The second a clock reading in nanoseconds falls into. `Instant` and
`SystemTime` readings are taken from one such clock. -/
def secondsOf (time : Nat) : Nat := time / nanosPerSecond

def failureRingCapacity : Nat := 256

def maxConsecutiveFreezeFailures : Nat := 3

def maxConsecutiveExecutionFailures : Nat := 5

def inFlightExpiry : Nat := 300 * nanosPerSecond

def maxLastExecutions : Nat := 100

abbrev KeyMap (α : Type) := Std.TreeMap String α

structure CachedPrice where
  tokenAddress : String
  symbol : String
  displaySymbol : String
  keeperIndex : Nat
  min : Int
  max : Int
  median : Int
  timestamp : Nat
  ledgerSeq : Nat
  sourcesUsed : List String
  signature : String
  deriving DecidableEq, Repr

/-- A timestamp ahead of the clock counts as stale. -/
def CachedPrice.isStale (price : CachedPrice) (staleAfterSeconds now : Nat) : Bool :=
  if price.timestamp ≤ now then staleAfterSeconds ≤ now - price.timestamp else true

abbrev PriceMap := KeyMap CachedPrice

structure PriceCache where
  prices : PriceMap
  lastUpdated : Option Nat
  lastSubmittedMedians : Option (KeyMap Int)
  lastFullSubmission : Option Nat

structure KeeperExecution where
  timestamp : Nat
  operation : String
  key : String
  txHash : Option String
  success : Bool
  error : Option String

structure KeeperStatus where
  pendingOrders : Nat
  pendingDeposits : Nat
  pendingWithdrawals : Nat
  lastExecutions : List KeeperExecution

structure FailedSubmission where
  at_ : Nat
  operation : String
  network : String
  token : String
  symbol : String
  min : Int
  max : Int
  txHash : Option String
  error : String
  timestamp : Nat
  ledgerSeq : Nat

structure RingBuffer (α : Type) where
  capacity : Nat
  items : List α
  bounded : items.length ≤ capacity

namespace RingBuffer

variable {α : Type}

def empty (capacity : Nat) : RingBuffer α := ⟨capacity, [], Nat.zero_le capacity⟩

def push (buffer : RingBuffer α) (item : α) : RingBuffer α :=
  if h : buffer.capacity = 0 then buffer
  else {
    capacity := buffer.capacity
    items := buffer.items.drop (buffer.items.length + 1 - buffer.capacity) ++ [item]
    bounded := by
      rw [List.length_append, List.length_drop, List.length_singleton]
      omega }

end RingBuffer

/-- What the two loops share, each field behind a lock of its own. -/
structure AppState where
  priceCache : PriceCache
  failures : RingBuffer FailedSubmission
  keeperStatus : KeeperStatus
  inFlightKeys : KeyMap Nat
  freezeFailureCounts : KeyMap Nat
  frozenOrderBlacklist : KeyMap Nat
  executionFailureCounts : KeyMap Nat

def AppState.new : AppState where
  priceCache := ⟨∅, none, none, none⟩
  failures := .empty failureRingCapacity
  keeperStatus := ⟨0, 0, 0, []⟩
  inFlightKeys := ∅
  freezeFailureCounts := ∅
  frozenOrderBlacklist := ∅
  executionFailureCounts := ∅

inductive Counter
  | freezeFailures
  | executionFailures
  deriving DecidableEq, Repr

namespace AppState

def counts (app : AppState) : Counter → KeyMap Nat
  | .freezeFailures => app.freezeFailureCounts
  | .executionFailures => app.executionFailureCounts

def setCounts (app : AppState) (counts : KeyMap Nat) : Counter → AppState
  | .freezeFailures => { app with freezeFailureCounts := counts }
  | .executionFailures => { app with executionFailureCounts := counts }

def setPriceCache (app : AppState) (cache : PriceCache) : AppState :=
  { app with priceCache := cache }

def setInFlight (app : AppState) (inFlight : KeyMap Nat) : AppState :=
  { app with inFlightKeys := inFlight }

end AppState

/-- Every failure is recorded without prices; only the price loop knows a token
and a ledger. -/
structure FailureReport where
  operation : String
  network : String
  token : String
  symbol : String
  txHash : Option String
  error : String
  ledgerSeq : Nat

def FailureReport.submission (report : FailureReport) (clock : Nat) : FailedSubmission where
  at_ := clock
  operation := report.operation
  network := report.network
  token := report.token
  symbol := report.symbol
  min := 0
  max := 0
  txHash := report.txHash
  error := report.error
  timestamp := secondsOf clock
  ledgerSeq := report.ledgerSeq

/-- A section of code that runs under one lock. -/
inductive StateOp
  | readPrices
  | mergePrices (prices : PriceMap)
  | clearPrices
  | readLastFullSubmission
  | readLastSubmittedMedians
  | updateSubmittedPrices (prices : PriceMap) (now : Nat) (isHeartbeat : Bool)
  | recordError (report : FailureReport)
  | setPending (orders deposits withdrawals : Nat)
  | recordExecution (operation key : String) (txHash : Option String) (success : Bool)
      (error : Option String)
  | sweepExpiredInFlightKeys
  | admitInFlight (key : String)
  | removeInFlight (key : String)
  | isBlacklisted (key : String)
  | blacklist (key : String) (failures : Nat)
  | countFailure (counter : Counter) (key : String)
  | clearFailures (counter : Counter) (key : String)

@[reducible] def StateOp.Answer : StateOp → Type
  | readPrices => PriceMap
  | readLastFullSubmission => Option Nat
  | readLastSubmittedMedians => Option (KeyMap Int)
  | admitInFlight _ | isBlacklisted _ => Bool
  | countFailure _ _ => Panicking Nat
  | mergePrices _ | clearPrices | updateSubmittedPrices _ _ _ | recordError _ | setPending _ _ _
  | recordExecution _ _ _ _ _ | sweepExpiredInFlightKeys | removeInFlight _ | blacklist _ _
  | clearFailures _ _ => Unit

def isExpired (clock insertedAt : Nat) : Bool := decide (inFlightExpiry < clock - insertedAt)

/-- The duplicate check of the execution loops: an expired entry is evicted and
the key admitted again. -/
def admitKey (clock : Nat) (key : String) (inFlight : KeyMap Nat) : Bool × KeyMap Nat :=
  match inFlight[key]? with
  | some insertedAt =>
      if isExpired clock insertedAt then (true, (inFlight.erase key).insert key clock)
      else (false, inFlight)
  | none => (true, inFlight.insert key clock)

def medians (prices : PriceMap) : KeyMap Int := prices.map fun _ price => price.median

/-- A heartbeat replaces the whole baseline, any other submission adds to it. -/
def PriceCache.submitted (cache : PriceCache) (prices : PriceMap) (now : Nat)
    (isHeartbeat : Bool) : PriceCache :=
  if isHeartbeat then
    { cache with
      lastFullSubmission := some (now * nanosPerSecond)
      lastSubmittedMedians := some (medians prices) }
  else
    { cache with
      lastSubmittedMedians :=
        some ((cache.lastSubmittedMedians.getD ∅).insertMany (medians prices).toList) }

def KeeperStatus.recorded (status : KeeperStatus) (execution : KeeperExecution) : KeeperStatus :=
  let executions := status.lastExecutions ++ [execution]
  { status with
    lastExecutions := if maxLastExecutions < executions.length then executions.tail else executions }

def nextCount (counts : KeyMap Nat) (key : String) : Panicking Nat :=
  let count := counts.getD key 0 + 1
  if count < 2 ^ 32 then .ok count else .error .overflow

def countKey (counts : KeyMap Nat) (key : String) : Panicking Nat × KeyMap Nat :=
  match nextCount counts key with
  | .ok count => (.ok count, counts.insert key count)
  | .error fault => (.error fault, counts)

def StateOp.run (clock : Nat) (app : AppState) : (op : StateOp) → op.Answer × AppState
  | readPrices => (app.priceCache.prices, app)
  | mergePrices prices =>
      ((), app.setPriceCache { app.priceCache with
        prices := app.priceCache.prices.insertMany prices.toList
        lastUpdated := some clock })
  | clearPrices =>
      ((), app.setPriceCache { app.priceCache with prices := ∅, lastUpdated := none })
  | readLastFullSubmission => (app.priceCache.lastFullSubmission, app)
  | readLastSubmittedMedians => (app.priceCache.lastSubmittedMedians, app)
  | updateSubmittedPrices prices now isHeartbeat =>
      ((), app.setPriceCache (app.priceCache.submitted prices now isHeartbeat))
  | recordError report => ((), { app with failures := app.failures.push (report.submission clock) })
  | setPending orders deposits withdrawals =>
      ((), { app with keeperStatus := { app.keeperStatus with
        pendingOrders := orders, pendingDeposits := deposits, pendingWithdrawals := withdrawals } })
  | recordExecution operation key txHash success error =>
      ((), { app with keeperStatus :=
        app.keeperStatus.recorded ⟨clock, operation, key, txHash, success, error⟩ })
  | sweepExpiredInFlightKeys =>
      ((), app.setInFlight (app.inFlightKeys.filter fun _ insertedAt => !isExpired clock insertedAt))
  | admitInFlight key =>
      let admitted := admitKey clock key app.inFlightKeys
      (admitted.1, app.setInFlight admitted.2)
  | removeInFlight key => ((), app.setInFlight (app.inFlightKeys.erase key))
  | isBlacklisted key => (app.frozenOrderBlacklist.contains key, app)
  | blacklist key failures =>
      ((), { app with frozenOrderBlacklist := app.frozenOrderBlacklist.insert key failures })
  | countFailure counter key =>
      let counted := countKey (app.counts counter) key
      (counted.1, app.setCounts counted.2 counter)
  | clearFailures counter key => ((), app.setCounts ((app.counts counter).erase key) counter)

section Maps

variable {α : Type} {key key' : String}

theorem getElem?_insert_of_ne (m : KeyMap α) (h : key' ≠ key) (a : α) :
    (m.insert key a)[key']? = m[key']? := by
  simp [Std.TreeMap.getElem?_insert, Ne.symm h]

theorem getElem?_erase_of_ne (m : KeyMap α) (h : key' ≠ key) : (m.erase key)[key']? = m[key']? := by
  simp [Std.TreeMap.getElem?_erase, Ne.symm h]

theorem getElem?_insertMany_toList (m n : KeyMap α) (key : String) :
    (m.insertMany n.toList)[key]? = n[key]?.or m[key]? := by
  cases hn : n[key]? with
  | none =>
      have hkey : (n.toList.map Prod.fst).contains key = false := by
        simpa [Std.TreeMap.map_fst_toList_eq_keys, Std.TreeMap.mem_keys] using hn
      rw [Std.TreeMap.getElem?_insertMany_list_of_contains_eq_false hkey, Option.none_or]
  | some a =>
      rw [Option.some_or]
      exact Std.TreeMap.getElem?_insertMany_list_of_mem Std.ReflCmp.compare_self
        Std.TreeMap.distinct_keys_toList (Std.TreeMap.mem_toList_iff_getElem?_eq_some.mpr hn)

theorem getElem?_filter_eq_some {m : KeyMap α} {f : String → α → Bool} {a : α} :
    (m.filter f)[key]? = some a ↔ m[key]? = some a ∧ f key a = true := by
  rw [Std.TreeMap.getElem?_filter', Option.filter_eq_some_iff]

theorem mem_of_getElem?_ofList {l : List (String × α)} {a : α}
    (h : (Std.TreeMap.ofList l : KeyMap α)[key]? = some a) : (key, a) ∈ l := by
  rw [Std.TreeMap.ofList_eq_insertMany_empty, Std.TreeMap.getElem?_insertMany_list,
    Std.TreeMap.getElem?_emptyc, Option.or_none, List.findSomeRev?_eq_findSome?_reverse] at h
  obtain ⟨⟨key', a'⟩, hmem, hentry⟩ := List.exists_of_findSome?_eq_some h
  dsimp only at hentry
  split at hentry
  next hkey =>
    obtain rfl : key' = key := Std.LawfulEqCmp.eq_of_compare hkey
    obtain rfl : a' = a := Option.some.inj hentry
    exact List.mem_reverse.mp hmem
  next => cases hentry

theorem findSome?_filter {β γ : Type} {f : β → Option γ} {keep : β → Bool}
    (h : ∀ b, ¬keep b = true → f b = none) (l : List β) :
    (l.filter keep).findSome? f = l.findSome? f := by
  induction l with
  | nil => rfl
  | cons b l ih =>
      by_cases hkeep : keep b = true
      · rw [List.filter_cons_of_pos hkeep, List.findSome?_cons, List.findSome?_cons, ih]
      · rw [List.filter_cons_of_neg hkeep, List.findSome?_cons, h b hkeep, ih]

/-- What is left out under other keys does not count. -/
theorem getElem?_ofList_filter {l : List (String × α)} (keep : String × α → Bool)
    (h : ∀ a, keep (key, a) = true) :
    (Std.TreeMap.ofList (l.filter keep) : KeyMap α)[key]? = (Std.TreeMap.ofList l : KeyMap α)[key]? := by
  rw [Std.TreeMap.ofList_eq_insertMany_empty, Std.TreeMap.ofList_eq_insertMany_empty,
    Std.TreeMap.getElem?_insertMany_list, Std.TreeMap.getElem?_insertMany_list,
    List.findSomeRev?_eq_findSome?_reverse, List.findSomeRev?_eq_findSome?_reverse,
    ← List.filter_reverse, findSome?_filter]
  rintro ⟨key', a⟩ hkeep
  apply if_neg
  intro hkey
  obtain rfl : key' = key := Std.LawfulEqCmp.eq_of_compare hkey
  exact hkeep (h a)

theorem isSome_getElem?_ofList {l : List (String × α)} :
    (Std.TreeMap.ofList l : KeyMap α)[key]?.isSome ↔ ∃ a, (key, a) ∈ l := by
  simp [Std.TreeMap.isSome_getElem?_eq_contains, Std.TreeMap.contains_ofList]

end Maps

section Counts

variable {app : AppState}

theorem counts_setCounts_self (counts : KeyMap Nat) (counter : Counter) :
    (app.setCounts counts counter).counts counter = counts := by
  cases counter <;> rfl

theorem counts_setCounts_of_ne (counts : KeyMap Nat) {counter counter' : Counter}
    (h : counter' ≠ counter) :
    (app.setCounts counts counter).counts counter' = app.counts counter' := by
  cases counter <;> cases counter' <;> first | rfl | exact absurd rfl h

end Counts

section InFlightKeys

/-- A key is turned away with nothing changed, or admitted with an entry of now;
the entry it had, if any, has expired. -/
theorem admitKey_cases (clock : Nat) (key : String) (inFlight : KeyMap Nat) :
    admitKey clock key inFlight = (false, inFlight) ∨
      (admitKey clock key inFlight).1 = true ∧
        (admitKey clock key inFlight).2[key]? = some clock ∧
        (∀ key' ≠ key, (admitKey clock key inFlight).2[key']? = inFlight[key']?) ∧
        ∀ insertedAt, inFlight[key]? = some insertedAt → isExpired clock insertedAt = true := by
  rw [admitKey]
  split
  next insertedAt hentry =>
    split
    next hexpired =>
      refine .inr ⟨rfl, Std.TreeMap.getElem?_insert_self, fun key' hne => ?_, fun t ht => ?_⟩
      · rw [getElem?_insert_of_ne _ hne, getElem?_erase_of_ne _ hne]
      · obtain rfl : insertedAt = t := Option.some.inj (hentry.symm.trans ht)
        exact hexpired
    next => exact .inl rfl
  next hnone =>
    refine .inr ⟨rfl, Std.TreeMap.getElem?_insert_self, fun key' hne => ?_, fun t ht => ?_⟩
    · exact getElem?_insert_of_ne _ hne clock
    · rw [hnone] at ht
      cases ht

def StateOp.touchesInFlight : StateOp → Bool
  | sweepExpiredInFlightKeys | admitInFlight _ | removeInFlight _ => true
  | _ => false

theorem run_inFlightKeys {op : StateOp} (h : op.touchesInFlight = false) (clock : Nat)
    (app : AppState) : (op.run clock app).2.inFlightKeys = app.inFlightKeys := by
  cases op with
  | sweepExpiredInFlightKeys | admitInFlight | removeInFlight => cases h
  | countFailure counter | clearFailures counter => cases counter <;> rfl
  | _ => rfl

end InFlightKeys

section Prices

def StateOp.writesPrices : StateOp → Bool
  | mergePrices _ | clearPrices => true
  | _ => false

theorem run_prices {op : StateOp} (h : op.writesPrices = false) (clock : Nat) (app : AppState) :
    (op.run clock app).2.priceCache.prices = app.priceCache.prices := by
  cases op with
  | mergePrices | clearPrices => cases h
  | updateSubmittedPrices prices now isHeartbeat =>
      simp only [StateOp.run, AppState.setPriceCache, PriceCache.submitted]
      split <;> rfl
  | countFailure counter | clearFailures counter => cases counter <;> rfl
  | _ => rfl

end Prices

end So4Oracle.State
