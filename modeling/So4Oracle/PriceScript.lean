import So4Oracle.KeeperScript
import So4Oracle.PriceCycle

namespace So4Oracle.PriceScript

open Library.Checked Library.Floats Library.Requests Library.Safety Wire Config State StellarRpc
  Sources PriceCycle KeeperScript

/-- Every request is answered at once. Of the providers only Coinbase answers,
with a fixed quote for each symbol. -/
def respond (F : Type) (quotes : String → Except ClientError Int) (ledgerAt : Nat → Nat) :
    Player PriceRequest (PriceRequest.Answer F) PriceWorld := fun q w =>
  if w.clock ≤ w.cycleStart + priceCycleTimeout then
    match q with
    | .state op => some ((op.run w.clock w.app).1, { w with app := (op.run w.clock w.app).2 })
    | .unixTime => some (secondsOf w.clock, w)
    | .latestLedger => some (.ok (ledgerAt w.clock), w)
    | .pythPrices _ => some (.error (.httpError 404 ""), w)
    | .binancePrices _ => some (.error ⟨"Binance returned HTTP 404", false⟩, w)
    | .coinbasePrice symbol => some (quotes symbol, w)
    | .abort _ => none
  else none

variable {F : Type} {quotes : String → Except ClientError Int} {ledgerAt : Nat → Nat}

theorem respond_answers {q : PriceRequest} {w u : PriceWorld} {r : PriceRequest.Answer F q}
    (h : respond F quotes ledgerAt q w = some (r, u)) : (priceTask F ledgerAt).answer q w r u := by
  unfold respond at h
  split at h
  next hcycle =>
    cases q with
    | state | unixTime =>
        cases h
        exact ⟨hcycle, rfl, rfl⟩
    | latestLedger =>
        cases h
        refine ⟨hcycle, ?_, rfl⟩
        rintro seq ⟨⟩
        rfl
    | pythPrices | binancePrices | coinbasePrice =>
        cases h
        exact ⟨hcycle, rfl⟩
    | abort => cases h
  next => cases h

theorem respond_plays : (respond F quotes ledgerAt).Plays (priceTask F ledgerAt) :=
  fun _ w _ _ h => ⟨w, .refl, respond_answers h⟩

/-- A completed cycle that the player carries out, with a check of what it
found and of the prices it leaves. -/
theorem exists_completed {num : Numerics F} {crates : Crates} {settings : Settings}
    {signPrice : SignPrice} {w : PriceWorld} (quotes : String → Except ClientError Int)
    (test : List (TokenConfig × TokenOutcome) → PriceWorld → Bool)
    (h : (finish (respond F quotes ledgerAt) (priceCycle num crates settings signPrice) w).any
      (fun result => result.1.toOption.any fun completed => test completed.1 result.2) = true) :
    ∃ outcomes stale v, Finishes (priceTask F ledgerAt) (priceCycle num crates settings signPrice) w
      (.ok (outcomes, stale)) v ∧ test outcomes v = true := by
  obtain ⟨⟨result, v⟩, hfinish, htest⟩ := Option.any_eq_true _ _ |>.mp h
  obtain ⟨⟨outcomes, stale⟩, hcompleted, htest⟩ := Option.any_eq_true _ _ |>.mp htest
  cases result with
  | error e => cases hcompleted
  | ok completed =>
      cases hcompleted
      exact ⟨outcomes, stale, v, finishes_of_finish respond_plays hfinish, htest⟩

section Samples

def exactNumerics : Numerics (Option ℚ) := { exactOps with showTwoDigits _ := "" }

def unsigned : SignPrice := fun _ _ _ _ _ => .ok ""

/-- One ledger every five seconds. -/
def fiveSecondLedgers (time : Nat) : Nat := time / (5 * nanosPerSecond)

/-- A fixed price and one that only Coinbase quotes. -/
def mixedTokens : List TokenConfig :=
  [{ sampleToken with fixedPrice := some "100", minSources := 1 },
    { defaultTokenConfig with
      symbol := "ETH", stellarAddress := "CETH", sources := ["coinbase"]
      coinbaseSymbol := some "ETH-USD", minSources := 1 }]

def mixedSettings : Settings := { sampleSettings with tokens := mixedTokens }

def noQuote (_ : String) : Except ClientError Int := .error ⟨"Coinbase returned HTTP 404", false⟩

def etherPrice (timestamp : Nat) : CachedPrice :=
  { samplePrice 100 with
    tokenAddress := "CETH", symbol := "ETH", displaySymbol := "ETH", timestamp := timestamp
    sourcesUsed := ["coinbase"] }

/-- A cache that holds one price, at second 1010. -/
def cachedEther (timestamp : Nat) : PriceWorld where
  clock := 1010 * nanosPerSecond
  cycleStart := 0
  app := AppState.new.setPriceCache
    { AppState.new.priceCache with prices := .ofList [("ceth", etherPrice timestamp)] }

end Samples

end So4Oracle.PriceScript
