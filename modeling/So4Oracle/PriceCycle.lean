import So4Oracle.Library.Safety
import So4Oracle.Sources

namespace So4Oracle.PriceCycle

open Library.Checked Library.Requests Library.Safety Wire Config State StellarRpc Prices Sources

def ledgerSequenceRetryAttempts : Nat := 3

def priceCycleTimeout : Nat := 60 * nanosPerSecond

variable {F : Type} (num : Numerics F) (crates : Crates) (settings : Settings)

/-- The signature of a price, from the ledger, the token's address, the two
bounds and the timestamp. -/
abbrev SignPrice := Nat → String → Int → Int → Nat → Except String String

variable (signPrice : SignPrice)

section Failures

/-- What an error is recorded with. -/
structure ErrorContext where
  token : String
  symbol : String
  ledgerSeq : Nat

def recordErrorWithContext (operation error : String) (ctx : ErrorContext) : PriceProgram F Unit :=
  locked (.recordError
    ⟨operation, settings.network, ctx.token, ctx.symbol, none, error, ctx.ledgerSeq⟩)

def recordError (operation error : String) : PriceProgram F Unit :=
  recordErrorWithContext settings operation error ⟨"", "", 0⟩

def contextOf (token : TokenConfig) (ledgerSeq : Nat) : ErrorContext :=
  ⟨token.stellarAddress, token.symbol, ledgerSeq⟩

end Failures

section Build

variable (token : TokenConfig) (ledgerSeq : Nat) (batches : Batches)

/-- The sources of a token are asked one after the other; one that fails is
recorded and left out. -/
def fetchSources : List String → PriceProgram F (List (String × PriceWithObservationTime))
  | [] => pure []
  | source :: sources => do
      match ← fetchSourceWithRetry num token batches source with
      | .ok quoted => do
          let rest ← fetchSources sources
          pure ((source, quoted) :: rest)
      | .error e => do
          recordErrorWithContext settings ("source:" ++ token.symbol ++ ":" ++ source)
            (e.display num) (contextOf token ledgerSeq)
          fetchSources sources

def aggregateQuotes (quotes : List (String × PriceWithObservationTime)) :
    Fallible String (AggregatedPrice F) :=
  aggregatePrices num.toFloatOps (quotes.map fun q => q.2.price) (quotes.map fun q => q.1)
    (quotes.map fun q => q.2.observationTime) token.minSources token.maxDeviationBps

/-- The timestamp is the oldest observation that contributes to the price. -/
def signedCachedPrice (aggregate : AggregatedPrice F) : Except String CachedPrice := do
  let timestamp := aggregate.minObservationTime
  let signature ← signPrice ledgerSeq token.stellarAddress aggregate.min aggregate.max timestamp
  pure {
    tokenAddress := token.stellarAddress
    symbol := token.symbol
    displaySymbol := displaySymbol token
    keeperIndex := settings.keeperIndex
    min := aggregate.min
    max := aggregate.max
    median := aggregate.median
    timestamp := timestamp
    ledgerSeq := ledgerSeq
    sourcesUsed := aggregate.sourcesUsed
    signature := signature }

def signedAggregate : Except String (AggregatedPrice F) → Except String CachedPrice
  | .error e => .error e
  | .ok aggregate => signedCachedPrice settings signPrice token ledgerSeq aggregate

def buildCachedPrice : PriceProgram F (Except String CachedPrice) := do
  let quotes ← fetchSources num settings token ledgerSeq batches token.sources
  let aggregate ← orAbort (aggregateQuotes num token quotes).run
  pure (signedAggregate settings signPrice token ledgerSeq aggregate)

end Build

section Cycle

def tokensWith (source : String) : List TokenConfig :=
  settings.tokens.filter fun token => token.sources.contains source

def pythFeedIds : List String := (tokensWith settings "pyth").filterMap TokenConfig.pythFeedId

def binanceSymbols : List String :=
  (tokensWith settings "binance").filterMap TokenConfig.binanceSymbol

def fetchBinanceBatch : PriceProgram F (Option (KeyMap Int)) :=
  if binanceSymbols settings = [] then pure none
  else do
    match ← ask (.binancePrices (binanceSymbols settings)) with
    | .ok results => pure (some (.ofList results))
    | .error _ => pure none

def batchesOf (pyth : Except (PythPriceError F) (KeyMap PythPriceFeed))
    (binancePrices : Option (KeyMap Int)) : Batches :=
  match pyth with
  | .ok prices => ⟨prices, false, binancePrices⟩
  | .error _ => ⟨∅, true, binancePrices⟩

def isStaleIn (now : Nat) (prices : PriceMap) (token : TokenConfig) : Bool :=
  prices[lookupKey crates token]?.any fun cached => cached.isStale token.staleAfterSeconds now

def countStale (now : Nat) (prices : PriceMap) : Nat :=
  settings.tokens.countP (isStaleIn crates now prices)

/-- What a cycle found for a token: a price it built, or after a failure the
cached one, fresh or stale at the second of the check, or none. -/
inductive TokenOutcome
  | built (price : CachedPrice)
  | kept (price : CachedPrice) (checkedAt : Nat)
  | stale (price : CachedPrice) (checkedAt : Nat)
  | failed
  deriving DecidableEq, Repr

namespace TokenOutcome

/-- The price that goes into the cache. -/
def published : TokenOutcome → Option CachedPrice
  | built price | kept price _ => some price
  | stale _ _ | failed => none

end TokenOutcome

/-- The fetches of a cycle run concurrently and share nothing but the failure
ring, so one order stands for all. -/
def fetchTokens (ledgerSeq : Nat) (batches : Batches) :
    List TokenConfig → PriceProgram F (List (TokenConfig × Except String CachedPrice))
  | [] => pure []
  | token :: tokens => do
      let result ← buildCachedPrice num settings signPrice token ledgerSeq batches
      let rest ← fetchTokens ledgerSeq batches tokens
      pure ((token, result) :: rest)

def checkCached (token : TokenConfig) : PriceProgram F TokenOutcome := do
  let prices ← locked .readPrices
  match prices[lookupKey crates token]? with
  | none => pure .failed
  | some cached => do
      let now ← ask .unixTime
      if cached.isStale token.staleAfterSeconds now then pure (.stale cached now)
      else pure (.kept cached now)

def settleToken (ledgerSeq : Nat) (token : TokenConfig) :
    Except String CachedPrice → PriceProgram F TokenOutcome
  | .ok price => pure (.built price)
  | .error e => do
      recordErrorWithContext settings ("price:" ++ token.symbol) e (contextOf token ledgerSeq)
      checkCached crates token

def settleTokens (ledgerSeq : Nat) : List (TokenConfig × Except String CachedPrice) →
    PriceProgram F (List (TokenConfig × TokenOutcome))
  | [] => pure []
  | (token, result) :: results => do
      let outcome ← settleToken crates settings ledgerSeq token result
      let rest ← settleTokens ledgerSeq results
      pure ((token, outcome) :: rest)

def publication (entry : TokenConfig × TokenOutcome) : Option (String × CachedPrice) :=
  entry.2.published.map fun price => (lookupKey crates entry.1, price)

/-- A later token with the same key replaces an earlier one. -/
def newPrices (outcomes : List (TokenConfig × TokenOutcome)) : PriceMap :=
  .ofList (outcomes.filterMap (publication crates))

def publish (outcomes : List (TokenConfig × TokenOutcome)) : PriceProgram F Unit :=
  if (newPrices crates outcomes).isEmpty then locked .clearPrices
  else locked (.mergePrices (newPrices crates outcomes))

/-- A cycle that has obtained the ledger sequence. -/
def completeCycle (now ledgerSeq : Nat)
    (pyth : Except (PythPriceError F) (KeyMap PythPriceFeed)) :
    PriceProgram F (List (TokenConfig × TokenOutcome) × Nat) := do
  let binancePrices ← fetchBinanceBatch settings
  let cached ← locked .readPrices
  let results ← fetchTokens num settings signPrice ledgerSeq (batchesOf pyth binancePrices)
    settings.tokens
  let outcomes ← settleTokens crates settings ledgerSeq results
  publish crates outcomes
  pure (outcomes, countStale crates settings now cached)

def latestLedgerSequence : PriceProgram F (Except RpcError Nat) :=
  Retry.retryWithBackoff RpcError.isRetryable (ask .latestLedger) ledgerSequenceRetryAttempts
    (by decide)

/-- The two first calls are joined; neither depends on the other. -/
def priceCycle :
    PriceProgram F (Except RpcError (List (TokenConfig × TokenOutcome) × Nat)) := do
  let now ← ask .unixTime
  let ledger ← latestLedgerSequence
  let pyth ← fetchPythPrices (pythFeedIds settings)
  match ledger with
  | .error e => do
      recordError settings "get_latest_ledger" e.display
      pure (.error e)
  | .ok ledgerSeq => do
      let completed ← completeCycle num crates settings signPrice now ledgerSeq pyth
      pure (.ok completed)

structure CycleTally where
  tokensOk : Nat
  tokensFailed : Nat
  tokensStale : Nat
  deriving DecidableEq, Repr

def CycleTally.add (tally : CycleTally) (entry : TokenConfig × TokenOutcome) : CycleTally :=
  match entry.2 with
  | .built _ | .kept _ _ => { tally with tokensOk := tally.tokensOk + 1 }
  | .stale _ _ => { tally with
      tokensFailed := tally.tokensFailed + 1, tokensStale := tally.tokensStale + 1 }
  | .failed => { tally with tokensFailed := tally.tokensFailed + 1 }

def tallyOf : Except RpcError (List (TokenConfig × TokenOutcome) × Nat) → CycleTally
  | .error _ => ⟨0, 1, 0⟩
  | .ok (outcomes, stale) => outcomes.foldl CycleTally.add ⟨0, 0, stale⟩

def executePriceCycle : PriceProgram F CycleTally := do
  let result ← priceCycle num crates settings signPrice
  pure (tallyOf result)

end Cycle

section Surroundings

/-- The clock, the start of the running cycle and the shared state. -/
structure PriceWorld where
  clock : Nat
  cycleStart : Nat
  app : AppState

def PriceWorld.prices (w : PriceWorld) : PriceMap := w.app.priceCache.prices

def PriceWorld.enter (w : PriceWorld) : PriceWorld := { w with cycleStart := w.clock }

variable (ledgerAt : Nat → Nat)

/-- What may answer a request: every provider's data is arbitrary, the ledger
number is that of the moment. -/
def answers : (q : PriceRequest) → PriceWorld → PriceRequest.Answer F q → PriceWorld → Prop
  | .state op, w, r, v =>
      r = (op.run w.clock w.app).1 ∧ v = { w with app := (op.run w.clock w.app).2 }
  | .unixTime, w, r, v => r = secondsOf w.clock ∧ v = w
  | .latestLedger, w, r, v => (∀ seq, r = .ok seq → seq = ledgerAt w.clock) ∧ v = w
  | .pythPrices _, w, _, v | .binancePrices _, w, _, v | .coinbasePrice _, w, _, v => v = w
  | .abort _, _, _, _ => False

/-- Time passes, and the other tasks change what is theirs; only this one
writes the cached prices. -/
inductive Interference : PriceWorld → PriceWorld → Prop
  | tick (w : PriceWorld) (nanos : Nat) : Interference w { w with clock := w.clock + nanos }
  | shared (w : PriceWorld) (app : AppState)
      (h : app.priceCache.prices = w.app.priceCache.prices) :
      Interference w { w with app := app }

variable (F) in
/-- The timeout drops a cycle 60 s after its start. -/
def priceTask : Surroundings PriceRequest (PriceRequest.Answer F) PriceWorld where
  answer q w r v := w.clock ≤ w.cycleStart + priceCycleTimeout ∧ answers ledgerAt q w r v
  interfere := Interference

variable {ledgerAt}

theorem interference_prices {w v : PriceWorld} (h : Interference w v) : v.prices = w.prices := by
  cases h with
  | tick => rfl
  | shared app happ => exact happ

end Surroundings

end So4Oracle.PriceCycle
