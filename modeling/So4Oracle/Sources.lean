import So4Oracle.Prices
import So4Oracle.State
import So4Oracle.StellarRpc

namespace So4Oracle.Sources

open Library.Checked Library.Floats Library.Requests Wire Config State StellarRpc

def scaleDigits : Nat := 30

def maxFutureSkewSeconds : Nat := 30

def sourceRetryAttempts : Nat := 3

structure PriceWithObservationTime where
  price : Int
  observationTime : Nat
  deriving DecidableEq, Repr

structure PythPriceData where
  price : String
  conf : Option String
  expo : Int
  publishTime : Option Int

structure PythPriceFeed where
  id : String
  price : PythPriceData

/-- The floating-point arithmetic of the host and its two-digit formatting. -/
structure Numerics (F : Type) extends FloatOps F where
  showTwoDigits : F → String

variable {F : Type} (num : Numerics F)

section Errors

inductive PythPriceError (F : Type)
  | networkError (error : String)
  | httpError (status : Nat) (body : String)
  | jsonError (error : String)
  | priceParseError (error : String)
  | missingFeedId (id : String)
  | stalePrice (ageSeconds maxAgeSeconds : Nat)
  | confidenceTooWide (confidenceBps : F) (maxBps : Nat)
  | missingPublishTime
  | invalidPublishTime (value : Int)

namespace PythPriceError

def display : PythPriceError F → String
  | networkError error => "Pyth network error: " ++ error
  | httpError status body =>
      if body = "" then "Pyth returned HTTP " ++ toString status
      else "Pyth returned HTTP " ++ toString status ++ ": " ++ body
  | jsonError error => "invalid Pyth response: " ++ error
  | priceParseError error => "invalid Pyth price: " ++ error
  | missingFeedId id => "Pyth response is missing feed " ++ id
  | stalePrice ageSeconds maxAgeSeconds =>
      "Pyth price is stale (" ++ toString ageSeconds ++ "s; maximum " ++ toString maxAgeSeconds ++
        "s)"
  | confidenceTooWide confidenceBps maxBps =>
      "Pyth confidence interval is too wide (" ++ num.showTwoDigits confidenceBps ++
        " bps; maximum " ++ toString maxBps ++ ")"
  | missingPublishTime => "Pyth response is missing publish_time field"
  | invalidPublishTime value => "invalid Pyth publish time: " ++ toString value

def isRetryable : PythPriceError F → Bool
  | networkError _ | stalePrice _ _ => true
  | httpError status _ => 500 ≤ status || status == 429
  | _ => false

end PythPriceError

inductive FixedPriceError
  | missingFixedPrice
  | invalidFixedPrice (price : String)

def FixedPriceError.display : FixedPriceError → String
  | missingFixedPrice => "fixed price is not configured"
  | invalidFixedPrice price => "invalid fixed price: " ++ price

/-- An error of the Binance or Coinbase client, of which only the text and
whether it is worth a retry are used. -/
structure ClientError where
  text : String
  retryable : Bool

inductive PriceSourceError (F : Type)
  | binance (e : ClientError)
  | coinbase (e : ClientError)
  | pyth (e : PythPriceError F)
  | fixed (e : FixedPriceError)
  | config (msg : String)
  | unsupported (source : String)

namespace PriceSourceError

def display : PriceSourceError F → String
  | binance e | coinbase e => e.text
  | pyth e => e.display num
  | fixed e => e.display
  | config msg => "config error: " ++ msg
  | unsupported source => "unsupported source: " ++ source

def isRetryable : PriceSourceError F → Bool
  | binance e | coinbase e => e.retryable
  | pyth e => e.isRetryable
  | fixed _ | config _ | unsupported _ => false

end PriceSourceError

end Errors

section Pyth

def normalizePythPrice (priceStr : String) (exponent : Int) : Except (PythPriceError F) Int :=
  if ¬(-(scaleDigits : Int) ≤ exponent ∧ exponent ≤ 0) then
    .error (.priceParseError ("unsupported exponent: " ++ toString exponent))
  else
    match RustText.parseI128 (RustText.trim priceStr) with
    | none => .error (.priceParseError ("invalid price: " ++ priceStr))
    | some price =>
        if price < 0 then .error (.priceParseError "negative prices not supported")
        else
          match (checked (price * 10 ^ ((scaleDigits : Int) + exponent).toNat)).toOption with
          | some scaled => .ok scaled
          | none => .error (.priceParseError "price overflow during normalization")

/-- A publish time may be ahead of the clock by the allowed skew. -/
def checkPublishTime (publishTime : Option Int) (nowSeconds staleAfterSeconds : Nat) :
    Except (PythPriceError F) Nat :=
  match publishTime with
  | none => .error .missingPublishTime
  | some time =>
      if time < 0 ∨ nowSeconds + maxFutureSkewSeconds < time.toNat then
        .error (.invalidPublishTime time)
      else if staleAfterSeconds < nowSeconds - time.toNat then
        .error (.stalePrice (nowSeconds - time.toNat) staleAfterSeconds)
      else .ok time.toNat

def checkConfidence (data : PythPriceData) (price : Int) (maxConfidenceBps : Nat) :
    Except (PythPriceError F) Unit :=
  match data.conf with
  | none => .ok ()
  | some conf => do
      let confidence ← normalizePythPrice conf data.expo
      let confidenceBps :=
        num.mul (num.div (num.ofInt confidence) (num.ofInt price)) (num.ofInt 10000)
      if num.lt (num.ofInt maxConfidenceBps) confidenceBps then
        .error (.confidenceTooWide confidenceBps maxConfidenceBps)
      else .ok ()

def validatePythPrice (data : PythPriceData) (nowSeconds staleAfterSeconds maxConfidenceBps : Nat) :
    Except (PythPriceError F) PriceWithObservationTime := do
  let price ← normalizePythPrice data.price data.expo
  let publishTime ← checkPublishTime data.publishTime nowSeconds staleAfterSeconds
  if price ≤ 0 then .error (.priceParseError "price must be greater than zero")
  else do
    checkConfidence num data price maxConfidenceBps
    pure ⟨price, publishTime⟩

theorem checkPublishTime_eq_ok {publishTime : Option Int} {nowSeconds staleAfterSeconds time : Nat}
    (h : checkPublishTime (F := F) publishTime nowSeconds staleAfterSeconds = .ok time) :
    publishTime = some (time : Int) ∧ time ≤ nowSeconds + maxFutureSkewSeconds ∧
      nowSeconds - time ≤ staleAfterSeconds := by
  unfold checkPublishTime at h
  split at h
  next => cases h
  next published =>
    split at h
    next => cases h
    next hfuture =>
      split at h
      next => cases h
      next hstale =>
        cases h
        rw [Int.toNat_of_nonneg (by omega)]
        exact ⟨rfl, by omega, by omega⟩

variable {num} in
theorem validatePythPrice_eq_ok {data : PythPriceData}
    {nowSeconds staleAfterSeconds maxConfidenceBps : Nat} {quoted : PriceWithObservationTime}
    (h : validatePythPrice num data nowSeconds staleAfterSeconds maxConfidenceBps = .ok quoted) :
    normalizePythPrice (F := F) data.price data.expo = .ok quoted.price ∧
      checkPublishTime (F := F) data.publishTime nowSeconds staleAfterSeconds =
        .ok quoted.observationTime ∧ 0 < quoted.price := by
  obtain ⟨price, hprice, h⟩ := bind_eq_ok.mp h
  obtain ⟨time, htime, h⟩ := bind_eq_ok.mp h
  split at h
  next => cases h
  next hpos =>
    obtain ⟨-, -, h⟩ := bind_eq_ok.mp h
    cases h
    exact ⟨hprice, htime, not_le.mp hpos⟩

end Pyth

def fixedPrice (token : TokenConfig) : Except FixedPriceError Int :=
  match token.fixedPrice with
  | none => .error .missingFixedPrice
  | some raw =>
      match RustText.parseI128 raw with
      | none => .error (.invalidFixedPrice raw)
      | some price => if price ≤ 0 then .error (.invalidFixedPrice raw) else .ok price

section Requests

inductive PriceRequest
  | state (op : StateOp)
  | unixTime
  | latestLedger
  | pythPrices (feedIds : List String)
  | binancePrices (symbols : List String)
  | coinbasePrice (symbol : String)
  | abort (fault : Fault)

variable (F) in
@[reducible] def PriceRequest.Answer : PriceRequest → Type
  | state op => op.Answer
  | unixTime => Nat
  | latestLedger => Except RpcError Nat
  | pythPrices _ => Except (PythPriceError F) (KeyMap PythPriceFeed)
  | binancePrices _ => Except ClientError (List (String × Int))
  | coinbasePrice _ => Except ClientError Int
  | abort _ => Empty

variable (F) in
abbrev PriceProgram (α : Type) := Program PriceRequest (PriceRequest.Answer F) α

def ask (q : PriceRequest) : PriceProgram F (PriceRequest.Answer F q) := Program.request q

def locked (op : StateOp) : PriceProgram F op.Answer := ask (.state op)

def orAbort {α : Type} : Panicking α → PriceProgram F α
  | .ok a => pure a
  | .error fault => .ask (.abort fault) Empty.elim

abbrev Quoted (F : Type) := Except (PriceSourceError F) PriceWithObservationTime

end Requests

section FetchSource

/-- What the batches of this cycle returned. -/
structure Batches where
  pythPrices : KeyMap PythPriceFeed
  pythBatchFailed : Bool
  binancePrices : Option (KeyMap Int)

variable (token : TokenConfig) (batches : Batches) (now : Nat)

def observedNow (price : Option Int) (missing : String) : Quoted F :=
  match price with
  | some price => .ok ⟨price, now⟩
  | none => .error (.config missing)

def fetchBinance : PriceProgram F (Quoted F) :=
  match token.binanceSymbol with
  | none => pure (.error (.config "missing binance_symbol"))
  | some symbol =>
      match batches.binancePrices with
      | some prices =>
          pure (observedNow now prices[symbol]? ("binance symbol not returned in batch: " ++ symbol))
      | none => do
          match ← ask (.binancePrices [symbol]) with
          | .error e => pure (.error (.binance e))
          | .ok results =>
              pure (observedNow now ((results.find? fun got => got.1 == symbol).map Prod.snd)
                ("binance symbol not returned: " ++ symbol))

def fetchCoinbase : PriceProgram F (Quoted F) :=
  match token.coinbaseSymbol with
  | none => pure (.error (.config "missing coinbase_symbol"))
  | some symbol => do
      match ← ask (.coinbasePrice symbol) with
      | .error e => pure (.error (.coinbase e))
      | .ok price => pure (.ok ⟨price, now⟩)

def validFeed (feed : PythPriceFeed) : Quoted F :=
  (validatePythPrice num feed.price now token.staleAfterSeconds
    token.pythMaxConfidenceBps).mapError .pyth

def fetchPythPrices (feedIds : List String) :
    PriceProgram F (Except (PythPriceError F) (KeyMap PythPriceFeed)) :=
  if feedIds = [] then pure (.ok ∅) else ask (.pythPrices feedIds)

/-- A feed missing from a batch that did not fail is asked for alone. -/
def fetchPyth : PriceProgram F (Quoted F) :=
  match token.pythFeedId with
  | none => pure (.error (.config "missing pyth_feed_id"))
  | some feedId =>
      match batches.pythPrices[feedId]? with
      | some feed => pure (validFeed num token now feed)
      | none =>
          if batches.pythBatchFailed then
            pure (.error (.pyth (.networkError "batch request failed, skipping individual fallback")))
          else do
            match ← fetchPythPrices [feedId] with
            | .error e => pure (.error (.pyth e))
            | .ok feeds =>
                match feeds[feedId]? with
                | none => pure (.error (.pyth (.missingFeedId feedId)))
                | some feed => pure (validFeed num token now feed)

def fetchFixed : Quoted F :=
  match fixedPrice token with
  | .error e => .error (.fixed e)
  | .ok price => .ok ⟨price, now⟩

def fetchSourcePrice (source : String) : PriceProgram F (Quoted F) := do
  let now ← ask .unixTime
  if source = "binance" then fetchBinance token batches now
  else if source = "coinbase" then fetchCoinbase token now
  else if source = "pyth" then fetchPyth num token batches now
  else if source = "fixed" then pure (fetchFixed token now)
  else pure (.error (.unsupported source))

def fetchSourceWithRetry (source : String) : PriceProgram F (Quoted F) :=
  Retry.retryWithBackoff PriceSourceError.isRetryable (fetchSourcePrice num token batches source)
    sourceRetryAttempts (by decide)

end FetchSource

end So4Oracle.Sources
