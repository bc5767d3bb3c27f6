import So4Oracle.DecimalPrices
import So4Oracle.PriceScript

namespace So4Oracle.Coinbase

open Library.Requests Wire Config State StellarRpc Sources Upstream DecimalPrices

section Answers

inductive CoinbasePriceError
  | networkError (error : String)
  | httpError (status : Nat) (body : String)
  | jsonError (error : String)
  | priceParseError (error : String)
  | missingUsdRate
  | currencyMismatch (expected got : String)
  deriving DecidableEq, Repr

namespace CoinbasePriceError

def display : CoinbasePriceError → String
  | networkError error => "Coinbase network error: " ++ error
  | httpError status body =>
      if body = "" then "Coinbase returned HTTP " ++ toString status
      else "Coinbase returned HTTP " ++ toString status ++ ": " ++ body
  | jsonError error => "invalid Coinbase response: " ++ error
  | priceParseError error => "invalid Coinbase price: " ++ error
  | missingUsdRate => "Coinbase response has no USD rate"
  | currencyMismatch expected got =>
      "Coinbase currency mismatch: expected '" ++ expected ++ "', got '" ++ got ++ "'"

def isRetryable : CoinbasePriceError → Bool
  | networkError _ => true
  | httpError status _ => 500 ≤ status || status == 429
  | jsonError _ | priceParseError _ | missingUsdRate => false
  | currencyMismatch _ _ => false

def toClient (e : CoinbasePriceError) : ClientError := ⟨e.display, e.isRetryable⟩

end CoinbasePriceError

structure CoinbaseResponseData where
  currency : String
  rates : KeyMap String

structure CoinbaseResponse where
  data : CoinbaseResponseData

variable (decode : String → Except String CoinbaseResponse) (toUppercase : String → String)
  (debugText : BinancePriceError → String)

/-- Binance's parser reads the price; only its parse errors are expected. -/
def ofParser : BinancePriceError → CoinbasePriceError
  | .priceParseError msg => .priceParseError msg
  | other => .priceParseError ("unexpected parse error: " ++ debugText other)

def parseCoinbaseResponseBody (body expectedCurrency : String) : Except CoinbasePriceError Int :=
  match decode body with
  | .error e => .error (.jsonError e)
  | .ok resp =>
      if toUppercase resp.data.currency ≠ toUppercase expectedCurrency then
        .error (.currencyMismatch expectedCurrency resp.data.currency)
      else
        match resp.data.rates["USD"]? with
        | none => .error .missingUsdRate
        | some usdPrice => (parsePriceToPrecision usdPrice).mapError (ofParser debugText)

def parseCoinbaseHttpResponse (statusCode : Nat) (body expectedCurrency : String) :
    Except CoinbasePriceError Int :=
  if statusCode ≠ 200 then .error (.httpError statusCode (truncateErrorBody body))
  else parseCoinbaseResponseBody decode toUppercase debugText body expectedCurrency

def parseCoinbaseHttpResult (response : Reply) (expectedCurrency : String) :
    Except CoinbasePriceError Int :=
  match response with
  | .failed msg => .error (.networkError msg)
  | .http statusCode body =>
      parseCoinbaseHttpResponse decode toUppercase debugText statusCode body expectedCurrency

/-- What the fetch of a symbol makes of the reply. -/
def fetchSpotPrice (symbol : String) (response : Reply) : Except ClientError Int :=
  (parseCoinbaseHttpResult decode toUppercase debugText response (baseCurrency symbol)).mapError
    CoinbasePriceError.toClient

end Answers

section Spec

variable (decode : String → Except String CoinbaseResponse) (toUppercase : String → String)

/-- The reply tells the price of the symbol's base currency in dollars. -/
def Tells (symbol : String) (response : Reply) (price : Int) : Prop :=
  ∃ body resp raw, response = .http 200 body ∧ decode body = .ok resp ∧
    toUppercase resp.data.currency = toUppercase (baseCurrency symbol) ∧
    resp.data.rates["USD"]? = some raw ∧ PriceOf raw price

variable {decode toUppercase} {debugText : BinancePriceError → String} {symbol : String}
  {response : Reply} {price : Int}

theorem ofParser_isRetryable (e : BinancePriceError) :
    (ofParser debugText e).isRetryable = false := by
  cases e <;> rfl

theorem mapError_eq_ok {ε δ α : Type} {f : ε → δ} {x : Except ε α} {a : α} :
    x.mapError f = .ok a ↔ x = .ok a := by
  cases x <;> simp [Except.mapError]

theorem mapError_eq_error {ε δ α : Type} {f : ε → δ} {x : Except ε α} {d : δ} :
    x.mapError f = .error d ↔ ∃ e, x = .error e ∧ f e = d := by
  cases x <;> simp [Except.mapError]

theorem parseCoinbaseResponseBody_eq_ok {body currency : String} :
    parseCoinbaseResponseBody decode toUppercase debugText body currency = .ok price ↔
      ∃ resp raw, decode body = .ok resp ∧
        toUppercase resp.data.currency = toUppercase currency ∧
        resp.data.rates["USD"]? = some raw ∧ PriceOf raw price := by
  rw [parseCoinbaseResponseBody]
  cases hdecode : decode body with
  | error e => simp
  | ok resp =>
      by_cases hcurrency : toUppercase resp.data.currency = toUppercase currency
      · cases hrate : resp.data.rates["USD"]? with
        | none => simp [hcurrency, hrate]
        | some raw =>
            simp [hcurrency, hrate, mapError_eq_ok, parsePriceToPrecision_eq_ok_iff]
      · simp [hcurrency]

theorem parseCoinbaseResponseBody_final {body currency : String} {e : CoinbasePriceError}
    (h : parseCoinbaseResponseBody decode toUppercase debugText body currency = .error e) :
    e.isRetryable = false := by
  rw [parseCoinbaseResponseBody] at h
  cases hdecode : decode body with
  | error msg =>
      rw [hdecode] at h
      cases h
      rfl
  | ok resp =>
      rw [hdecode] at h
      dsimp only at h
      split at h
      next =>
        cases h
        rfl
      next =>
        split at h
        next =>
          cases h
          rfl
        next raw hrate =>
          cases hparse : parsePriceToPrecision raw with
          | ok value =>
              rw [hparse] at h
              cases h
          | error e =>
              rw [hparse] at h
              cases h
              exact ofParser_isRetryable e

theorem fetchSpotPrice_eq_ok :
    fetchSpotPrice decode toUppercase debugText symbol response = .ok price ↔
      Tells decode toUppercase symbol response price := by
  rw [fetchSpotPrice, mapError_eq_ok, Tells]
  cases response with
  | failed msg => simp [parseCoinbaseHttpResult]
  | http status body =>
      rw [parseCoinbaseHttpResult, parseCoinbaseHttpResponse]
      by_cases hstatus : status = 200
      · simp [hstatus, parseCoinbaseResponseBody_eq_ok]
      · simp [hstatus]

theorem parseCoinbaseHttpResult_retryable {currency : String} {e : CoinbasePriceError}
    (h : parseCoinbaseHttpResult decode toUppercase debugText response currency = .error e) :
    e.isRetryable = true ↔ response.Transient := by
  cases response with
  | failed msg =>
      cases h
      exact iff_of_true rfl trivial
  | http status body =>
      rw [parseCoinbaseHttpResult, parseCoinbaseHttpResponse] at h
      split at h
      next hstatus =>
        cases h
        simp [CoinbasePriceError.isRetryable, Reply.Transient]
      next hstatus =>
        obtain rfl := not_not.mp hstatus
        rw [parseCoinbaseResponseBody_final h]
        simp [Reply.Transient]

theorem fetchSpotPrice_retryable {e : ClientError}
    (h : fetchSpotPrice decode toUppercase debugText symbol response = .error e) :
    e.retryable = true ↔ response.Transient := by
  obtain ⟨found, hfound, rfl⟩ := mapError_eq_error.mp h
  exact parseCoinbaseHttpResult_retryable hfound

theorem Tells.not_transient (h : Tells decode toUppercase symbol response price) :
    ¬response.Transient := by
  obtain ⟨body, -, -, rfl, -⟩ := h
  simp [Reply.Transient]

end Spec

section Runs

variable {F : Type} {num : Numerics F} {decode : String → Except String CoinbaseResponse}
  {toUppercase : String → String} {debugText : BinancePriceError → String} {token : TokenConfig}
  {batches : Batches} {symbol : String} {tr : List (Event PriceRequest (PriceRequest.Answer F))}
  {r : Quoted F}

variable (decode toUppercase debugText symbol) in
/-- The two requests of an attempt, at its second and with the reply it gets. -/
def attempt (entry : Nat × Reply) : List (Event PriceRequest (PriceRequest.Answer F)) :=
  [⟨.unixTime, entry.1⟩,
    ⟨.coinbasePrice symbol, fetchSpotPrice decode toUppercase debugText symbol entry.2⟩]

variable (decode toUppercase debugText symbol) in
/-- What answers a request for the symbol is what is made of some reply. -/
def Served (ev : Event PriceRequest (PriceRequest.Answer F)) : Prop :=
  ∀ answer, ev = ⟨.coinbasePrice symbol, answer⟩ →
    ∃ response, answer = fetchSpotPrice decode toUppercase debugText symbol response

variable (decode toUppercase symbol) in
/-- What comes of an attempt. -/
def Quotes (entry : Nat × Reply) (r : Quoted F) : Prop :=
  (∀ price, Tells decode toUppercase symbol entry.2 price → r = .ok ⟨price, entry.1⟩) ∧
    ((∀ price, ¬Tells decode toUppercase symbol entry.2 price) → ∃ e, r = .error (.coinbase e))

theorem fetchSourcePrice_runs (hsymbol : token.coinbaseSymbol = some symbol)
    (tr : List (Event PriceRequest (PriceRequest.Answer F))) (r : Quoted F)
    (hserved : ∀ ev ∈ tr, Served decode toUppercase debugText symbol ev)
    (h : Runs (fetchSourcePrice num token batches "coinbase") tr r) :
    ∃ entry : Nat × Reply, tr = attempt decode toUppercase debugText symbol entry ∧
      Quotes decode toUppercase symbol entry r ∧
      ∀ e, r = .error e → (e.isRetryable = true ↔ entry.2.Transient) := by
  obtain ⟨now, rest, rfl, hfetch⟩ := runs_request_bind.mp h
  rw [if_neg (by decide), if_pos rfl, fetchCoinbase, hsymbol] at hfetch
  obtain ⟨answer, last, rfl, hlast⟩ := runs_request_bind.mp hfetch
  obtain ⟨response, rfl⟩ := hserved _ (List.mem_cons_of_mem _ List.mem_cons_self) answer rfl
  refine ⟨(now, response), ?_⟩
  cases hanswer : fetchSpotPrice decode toUppercase debugText symbol response with
  | ok price =>
      rw [hanswer] at hlast
      obtain ⟨rfl, rfl⟩ := runs_done.mp hlast
      have htells := fetchSpotPrice_eq_ok.mp hanswer
      refine ⟨by rw [attempt, hanswer], ⟨fun other hother => ?_, fun hnone => absurd htells (hnone _)⟩,
        fun e heq => nomatch heq⟩
      rw [fetchSpotPrice_eq_ok.mpr hother] at hanswer
      cases hanswer
      rfl
  | error e =>
      rw [hanswer] at hlast
      obtain ⟨rfl, rfl⟩ := runs_done.mp hlast
      refine ⟨by rw [attempt, hanswer], ⟨fun price htells => ?_, fun _ => ⟨e, rfl⟩⟩, fun _ heq => ?_⟩
      · rw [fetchSpotPrice_eq_ok.mpr htells] at hanswer
        cases hanswer
      · cases heq
        exact fetchSpotPrice_retryable hanswer

/-- A token's Coinbase price is what the last of up to three replies tells, at
the second before it was asked for; the replies before it were failures that may
pass, and no more is asked after one that may not. -/
theorem fetchCoinbase_exact (hsymbol : token.coinbaseSymbol = some symbol)
    (hserved : ∀ ev ∈ tr, Served decode toUppercase debugText symbol ev)
    (h : Runs (fetchSourceWithRetry num token batches "coinbase") tr r) :
    ∃ (earlier : List (Nat × Reply)) (now : Nat) (last : Reply),
      tr = (earlier ++ [(now, last)]).flatMap (attempt decode toUppercase debugText symbol) ∧
      earlier.length < 3 ∧ (∀ entry ∈ earlier, entry.2.Transient) ∧
      (earlier.length + 1 < 3 → ¬last.Transient) ∧
      (∀ price, Tells decode toUppercase symbol last price → r = .ok ⟨price, now⟩) ∧
      ((∀ price, ¬Tells decode toUppercase symbol last price) → ∃ e, r = .error (.coinbase e)) := by
  obtain ⟨earlier, ⟨now, last⟩, htrace, hlength, htransient, ⟨htells, hnone⟩, hfinal⟩ :=
    Retry.retryFrom_rounds (fetchSourcePrice_runs hsymbol) hserved h
  refine ⟨earlier, now, last, htrace, Nat.lt_succ_of_le hlength, htransient, fun hlt => ?_, htells,
    hnone⟩
  by_cases htold : ∃ price, Tells decode toUppercase symbol last price
  · obtain ⟨price, hprice⟩ := htold
    exact hprice.not_transient
  · obtain ⟨e, he⟩ := hnone (not_exists.mp htold)
    exact hfinal (Nat.lt_of_succ_lt_succ hlt) _ he

end Runs

section Sample

variable {F : Type} {num : Numerics F} {decode : String → Except String CoinbaseResponse}
  {toUppercase : String → String} {debugText : BinancePriceError → String} {token : TokenConfig}
  {batches : Batches} {symbol : String} {now : Nat} {response : Reply} {answer : Except ClientError Int}

/-- An attempt gets the quote of its reply. -/
theorem runs_attempt (hsymbol : token.coinbaseSymbol = some symbol)
    (hanswer : fetchSpotPrice decode toUppercase debugText symbol response = answer) :
    Runs (fetchSourcePrice num token batches "coinbase")
      (attempt decode toUppercase debugText symbol (now, response))
      ((answer.mapError .coinbase).map fun price => ⟨price, now⟩) := by
  refine runs_request_bind.mpr ⟨now, _, rfl, ?_⟩
  rw [if_neg (by decide), if_pos rfl, fetchCoinbase, hsymbol]
  refine runs_request_bind.mpr ⟨_, [], rfl, ?_⟩
  rw [hanswer]
  cases answer <;> exact .done _

def sampleDecode (body : String) : Except String CoinbaseResponse :=
  if body = "rates" then .ok ⟨"BTC", .ofList [("EUR", "92"), ("USD", "100.5")]⟩
  else .error "expected value at line 1 column 1"

def coinbaseToken : TokenConfig := { KeeperScript.sampleToken with coinbaseSymbol := some "BTCUSD" }

def sampleReplies : List (Nat × Reply) := [(100, .failed "timed out"), (102, .http 200 "rates")]

theorem fetchCoinbase_exact_sample :
    ∃ tr, Runs (fetchSourceWithRetry PriceScript.exactNumerics coinbaseToken ⟨∅, false, none⟩ "coinbase")
        tr (.ok ⟨1005 * 10 ^ 29, 102⟩) ∧
      ∃ (earlier : List (Nat × Reply)) (now : Nat) (last : Reply),
        tr = (earlier ++ [(now, last)]).flatMap (attempt sampleDecode id BinancePriceError.display
          "BTCUSD") ∧ ∀ entry ∈ earlier, entry.2.Transient := by
  have hlost : fetchSpotPrice sampleDecode id BinancePriceError.display "BTCUSD"
      (.failed "timed out") = .error ⟨"Coinbase network error: timed out", true⟩ := rfl
  have htold : fetchSpotPrice sampleDecode id BinancePriceError.display "BTCUSD"
      (.http 200 "rates") = .ok (1005 * 10 ^ 29) :=
    fetchSpotPrice_eq_ok.mpr ⟨"rates", _, "100.5", rfl, rfl, by decide +kernel, by decide +kernel,
      parsePriceToPrecision_eq_ok_iff.mp (by decide +kernel)⟩
  have hruns : Runs (fetchSourceWithRetry PriceScript.exactNumerics coinbaseToken ⟨∅, false, none⟩
      "coinbase") (sampleReplies.flatMap (attempt sampleDecode id BinancePriceError.display "BTCUSD"))
      (.ok ⟨1005 * 10 ^ 29, 102⟩) :=
    runs_bind.mpr ⟨_, _, _, rfl, runs_attempt rfl hlost,
      runs_bind.mpr ⟨_, _, _, rfl, runs_attempt rfl htold, .done _⟩⟩
  have hserved : ∀ ev ∈ sampleReplies.flatMap (attempt (F := Option ℚ) sampleDecode id
      BinancePriceError.display "BTCUSD"), Served sampleDecode id BinancePriceError.display "BTCUSD" ev := by
    rintro _ hmem answer rfl
    have hanswer : answer = fetchSpotPrice sampleDecode id BinancePriceError.display "BTCUSD"
        (.failed "timed out") ∨ answer = fetchSpotPrice sampleDecode id BinancePriceError.display
          "BTCUSD" (.http 200 "rates") := by
      simpa [sampleReplies, attempt] using hmem
    rcases hanswer with rfl | rfl
    · exact ⟨_, rfl⟩
    · exact ⟨_, rfl⟩
  obtain ⟨earlier, now, last, htrace, -, htransient, -⟩ := fetchCoinbase_exact rfl hserved hruns
  exact ⟨_, hruns, earlier, now, last, htrace, htransient⟩

end Sample

end So4Oracle.Coinbase
