import So4Oracle.CacheFreshness
import So4Oracle.Library.Strategies
import So4Oracle.Upstream

namespace So4Oracle.CycleInputs

open Library.Checked Library.Requests Library.Safety Library.Strategies Wire Config State StellarRpc
  Prices Sources PriceCycle CycleOutcome CacheFreshness Upstream

variable {F : Type} (num : Numerics F) (crates : Crates) (settings : Settings)
  (signPrice : SignPrice)

section Outcomes

variable (token : TokenConfig) (ledgerSeq : Nat) (batches : Batches)

/-- One source of a token: its quote, or none once the failure is recorded. -/
def sourceQuote (source : String) : PriceProgram F (Option PriceWithObservationTime) := do
  match ← fetchSourceWithRetry num token batches source with
  | .ok quoted => pure (some quoted)
  | .error e => do
      recordErrorWithContext settings ("source:" ++ token.symbol ++ ":" ++ source) (e.display num)
        (contextOf token ledgerSeq)
      pure none

def quoteOf (source : String) (quote : Option PriceWithObservationTime) :
    List (String × PriceWithObservationTime) :=
  (quote.map fun quoted => (source, quoted)).toList

/-- The quotes of a token when each of its sources is answered by its own strategy. -/
def quotesAgainst : (Nat → Strategy PriceRequest (PriceRequest.Answer F)) → List String →
    Option (List (String × PriceWithObservationTime))
  | _, [] => some []
  | answers, source :: sources => do
      let quote ← outcome (answers 0) (sourceQuote num settings token ledgerSeq batches source)
      let rest ← quotesAgainst (fun i => answers (i + 1)) sources
      some (quoteOf source quote ++ rest)

/-- What a token comes to, given the cached prices and the second of the check. -/
def settled (cache : PriceMap) (checkedAt : Nat) : Except String CachedPrice → TokenOutcome
  | .ok price => .built price
  | .error _ =>
      match cache[lookupKey crates token]? with
      | none => .failed
      | some cached =>
          if cached.isStale token.staleAfterSeconds checkedAt then .stale cached checkedAt
          else .kept cached checkedAt

/-- How the requests of one token are answered, source by source, and the second
at which its cached price is checked. -/
structure TokenAnswers (F : Type) where
  fetch : Nat → Strategy PriceRequest (PriceRequest.Answer F)
  checkedAt : Nat

/-- All that a cycle reads from outside: the ledger, the cached prices, the two
batched answers, and the answers to each token. -/
structure CycleInput (F : Type) where
  ledgerSeq : Nat
  cache : PriceMap
  pyth : HttpAnswer PythPriceData
  binance : HttpAnswer String
  token : Nat → TokenAnswers F

namespace CycleInput

variable (input : CycleInput F)

def pythBatch : Except (PythPriceError F) (KeyMap PythPriceFeed) :=
  if pythFeedIds settings = [] then .ok ∅ else parseHermesResponse input.pyth

def binanceBatch : Option (KeyMap Int) :=
  if binanceSymbols settings = [] then none
  else
    match parseTickerResponse (binanceSymbols settings) input.binance with
    | .error _ => none
    | .ok results => some (.ofList results)

def batched : Batches := batchesOf (input.pythBatch settings) (input.binanceBatch settings)

/-- A token comes to nothing when its aggregation panics or a request is not answered. -/
def tokenOutcome (answers : TokenAnswers F) : Option TokenOutcome := do
  let quotes ← quotesAgainst num settings token input.ledgerSeq (input.batched settings)
    answers.fetch token.sources
  let aggregate ← (aggregateQuotes num token quotes).run.toOption
  some (settled crates token input.cache answers.checkedAt
    (signedAggregate settings signPrice token input.ledgerSeq aggregate))

def outcomesOf : (Nat → TokenAnswers F) → List TokenConfig →
    Option (List (TokenConfig × TokenOutcome))
  | _, [] => some []
  | answers, token :: tokens => do
      let outcome ← input.tokenOutcome num crates settings signPrice token (answers 0)
      let rest ← outcomesOf (fun i => answers (i + 1)) tokens
      some ((token, outcome) :: rest)

/-- What a cycle that runs to its end finds for its tokens. -/
def outcomes : Option (List (TokenConfig × TokenOutcome)) :=
  input.outcomesOf num crates settings signPrice input.token settings.tokens

end CycleInput

end Outcomes

variable {num crates settings signPrice}

section Adequacy

variable {token : TokenConfig} {ledgerSeq : Nat} {batches : Batches}

theorem fetchSources_cons (source : String) (sources : List String) :
    fetchSources num settings token ledgerSeq batches (source :: sources) = (do
      let quote ← sourceQuote num settings token ledgerSeq batches source
      let rest ← fetchSources num settings token ledgerSeq batches sources
      pure (quoteOf source quote ++ rest)) := by
  rw [fetchSources, sourceQuote, Program.bind_assoc]
  congr 1
  funext r
  cases r with
  | ok quoted => rfl
  | error e => simp [quoteOf]

/-- The strategies for the sources that follow, with one more in front. -/
def consStrategy {α : Type} (head : α) (tail : Nat → α) : Nat → α
  | 0 => head
  | i + 1 => tail i

theorem exists_quotesAgainst {sources : List String}
    {tr : List (Event PriceRequest (PriceRequest.Answer F))}
    {quotes : List (String × PriceWithObservationTime)}
    (h : Runs (fetchSources num settings token ledgerSeq batches sources) tr quotes) :
    ∃ answers, quotesAgainst num settings token ledgerSeq batches answers sources = some quotes := by
  induction sources generalizing tr quotes with
  | nil =>
      obtain ⟨-, rfl⟩ := runs_done.mp h
      exact ⟨fun _ _ _ => none, rfl⟩
  | cons source sources ih =>
      rw [fetchSources_cons] at h
      obtain ⟨first, quote, tail, -, hquote, h⟩ := runs_bind.mp h
      obtain ⟨second, rest, last, -, hrest, h⟩ := runs_bind.mp h
      obtain ⟨-, rfl⟩ := runs_done.mp h
      obtain ⟨answers, hanswers⟩ := ih hrest
      refine ⟨consStrategy (replay first) answers, ?_⟩
      show (outcome (replay first) (sourceQuote num settings token ledgerSeq batches source) >>= _) = _
      rw [outcome_replay hquote]
      show (quotesAgainst num settings token ledgerSeq batches answers sources >>= _) = _
      rw [hanswers]
      rfl

theorem exists_tokenOutcome (input : CycleInput F)
    {tr : List (Event PriceRequest (PriceRequest.Answer F))} {result : Except String CachedPrice}
    (h : Runs (buildCachedPrice num settings signPrice token input.ledgerSeq (input.batched settings))
      tr result) (checkedAt : Nat) :
    ∃ fetch, input.tokenOutcome num crates settings signPrice token ⟨fetch, checkedAt⟩ =
      some (settled crates token input.cache checkedAt result) := by
  obtain ⟨first, quotes, rest, -, hquotes, h⟩ := runs_bind.mp h
  obtain ⟨answers, hanswers⟩ := exists_quotesAgainst hquotes
  cases hrun : (aggregateQuotes num token quotes).run with
  | error fault =>
      rw [hrun] at h
      obtain ⟨r, -⟩ := runs_ask.mp h
      exact r.elim
  | ok aggregate =>
      rw [hrun] at h
      obtain ⟨-, rfl⟩ := runs_done.mp h
      refine ⟨answers, ?_⟩
      rw [CycleInput.tokenOutcome, hanswers]
      show ((aggregateQuotes num token quotes).run.toOption >>= _) = _
      rw [hrun]
      rfl

/-- What the settlement makes of a result. -/
def Settles (crates : Crates) (cache : PriceMap) (result : TokenConfig × Except String CachedPrice)
    (entry : TokenConfig × TokenOutcome) : Prop :=
  entry.1 = result.1 ∧ ∃ checkedAt, entry.2 = settled crates result.1 cache checkedAt result.2

theorem exists_outcomesOf (input : CycleInput F) {tokens : List TokenConfig}
    {tr : List (Event PriceRequest (PriceRequest.Answer F))}
    {results : List (TokenConfig × Except String CachedPrice)}
    {outcomes : List (TokenConfig × TokenOutcome)}
    (h : Runs (fetchTokens num settings signPrice input.ledgerSeq (input.batched settings) tokens) tr
      results) (hsettled : List.Forall₂ (Settles crates input.cache) results outcomes) :
    ∃ answers, input.outcomesOf num crates settings signPrice answers tokens = some outcomes := by
  induction tokens generalizing tr results outcomes with
  | nil =>
      obtain ⟨-, rfl⟩ := runs_done.mp h
      cases hsettled
      exact ⟨fun _ => ⟨fun _ _ _ => none, 0⟩, rfl⟩
  | cons token tokens ih =>
      obtain ⟨first, result, tail, -, hresult, h⟩ := runs_bind.mp h
      obtain ⟨second, rest, last, -, hrest, h⟩ := runs_bind.mp h
      obtain ⟨-, rfl⟩ := runs_done.mp h
      cases hsettled with
      | cons hhead htail =>
          rename_i entry entries
          obtain ⟨answers, hanswers⟩ := ih hrest htail
          obtain ⟨htoken, checkedAt, houtcome⟩ := hhead
          obtain ⟨fetch, hfetch⟩ := exists_tokenOutcome input hresult checkedAt
          refine ⟨consStrategy ⟨fetch, checkedAt⟩ answers, ?_⟩
          show (input.tokenOutcome num crates settings signPrice token ⟨fetch, checkedAt⟩ >>= _) = _
          rw [hfetch]
          show (input.outcomesOf num crates settings signPrice answers tokens >>= _) = _
          rw [hanswers]
          exact congrArg some (congrArg (· :: entries) (Prod.ext htoken.symm houtcome.symm))

/-- The answers to the tokens are passed apart from the rest of the input. -/
theorem outcomesOf_withToken (input : CycleInput F) (token : Nat → TokenAnswers F)
    (answers : Nat → TokenAnswers F) (tokens : List TokenConfig) :
    CycleInput.outcomesOf num crates settings signPrice { input with token := token } answers tokens =
      input.outcomesOf num crates settings signPrice answers tokens := by
  induction tokens generalizing answers with
  | nil => rfl
  | cons token tokens ih =>
      rw [CycleInput.outcomesOf, CycleInput.outcomesOf, ih]
      rfl

variable {ledgerAt : Nat → Nat} {prices : PriceMap} {start : Nat} {w v : PriceWorld}

theorem settleToken_settles (result : Except String CachedPrice) (hw : Underway prices start w) :
    Safe (priceTask F ledgerAt) (Underway prices start)
      (settleToken crates settings ledgerSeq token result)
      (fun outcome _ => ∃ checkedAt, outcome = settled crates token prices checkedAt result) w := by
  cases result with
  | ok price => exact ⟨hw, 0, rfl⟩
  | error e =>
      refine Safe.bind ((quiet_safe (recordError_asks _ _ _) hw).mono (fun _ v hv _ => ?_))
      refine ask_safe rfl hv (fun v cached u hv hu _ ha => ?_)
      obtain rfl : cached = prices := ha.1.trans hv.prices
      unfold settled
      cases cached[lookupKey crates token]? with
      | none => exact ⟨hu, 0, rfl⟩
      | some price =>
          refine ask_safe trivial hu (fun v now u _ hu _ _ => ?_)
          split
          next hstale => exact ⟨hu, now, (if_pos hstale).symm⟩
          next hfresh => exact ⟨hu, now, (if_neg hfresh).symm⟩

theorem settleTokens_settles (results : List (TokenConfig × Except String CachedPrice))
    (hw : Underway prices start w) :
    Safe (priceTask F ledgerAt) (Underway prices start)
      (settleTokens crates settings ledgerSeq results)
      (fun outcomes _ => List.Forall₂ (Settles crates prices) results outcomes) w := by
  induction results generalizing w with
  | nil => exact ⟨hw, .nil⟩
  | cons result results ih =>
      refine Safe.bind ((settleToken_settles result.2 hw).mono (fun outcome v hv ho => ?_))
      refine Safe.bind ((ih hv).mono (fun outcomes u hu hos => ⟨hu, ?_⟩))
      exact .cons ⟨rfl, ho⟩ hos

/-- The batched answers are what the parsers make of some HTTP answer. -/
def FromWeb : (q : PriceRequest) → PriceWorld → PriceRequest.Answer F q → PriceWorld → Prop
  | .pythPrices _, _, r, _ => ∃ answer, r = parseHermesResponse answer
  | .binancePrices symbols, _, r, _ => ∃ answer, r = tickerAnswer symbols answer
  | _, _, _, _ => True

variable (F) in
def webTask (ledgerAt : Nat → Nat) : Surroundings PriceRequest (PriceRequest.Answer F) PriceWorld :=
  (priceTask F ledgerAt).restrict FromWeb (fun _ _ => True)

theorem fetchPythPrices_web {feedIds : List String}
    {pyth : Except (PythPriceError F) (KeyMap PythPriceFeed)}
    (h : Finishes (webTask F ledgerAt) (fetchPythPrices feedIds) w pyth v) :
    ∃ answer, pyth = if feedIds = [] then .ok ∅ else parseHermesResponse answer := by
  rw [fetchPythPrices] at h
  split at h
  next hempty =>
    obtain ⟨rfl, -⟩ := finishes_done.mp h
    exact ⟨.malformed "", (if_pos hempty).symm⟩
  next hne =>
    obtain ⟨_, r, _, -, ⟨-, answer, hanswer⟩, h⟩ := finishes_ask.mp h
    obtain ⟨rfl, -⟩ := finishes_done.mp h
    exact ⟨answer, hanswer.trans (if_neg hne).symm⟩

theorem fetchBinanceBatch_web {binancePrices : Option (KeyMap Int)}
    (h : Finishes (webTask F ledgerAt) (fetchBinanceBatch settings) w binancePrices v) :
    ∃ answer, ∀ input : CycleInput F, input.binance = answer →
      binancePrices = input.binanceBatch settings := by
  rw [fetchBinanceBatch] at h
  split at h
  next hempty =>
    obtain ⟨rfl, -⟩ := finishes_done.mp h
    exact ⟨.malformed "", fun input _ => (if_pos hempty).symm⟩
  next hne =>
    obtain ⟨_, r, _, -, ⟨-, answer, hanswer⟩, h⟩ := finishes_ask.mp h
    refine ⟨answer, fun input hinput => ?_⟩
    rw [CycleInput.binanceBatch, if_neg hne, hinput]
    subst hanswer
    rw [tickerAnswer] at h
    cases hparse : parseTickerResponse (binanceSymbols settings) answer with
    | error e =>
        rw [hparse] at h
        exact (finishes_done.mp h).1
    | ok results =>
        rw [hparse] at h
        exact (finishes_done.mp h).1

/-- Every cycle that runs to its end is one over some input. -/
theorem exists_input {outcomes : List (TokenConfig × TokenOutcome)} {stale : Nat}
    (h : Finishes (webTask F ledgerAt) (priceCycle num crates settings signPrice) w.enter
      (.ok (outcomes, stale)) v) :
    ∃ input : CycleInput F, input.cache = w.prices ∧
      input.outcomes num crates settings signPrice = some outcomes ∧
      v.prices = publishedPrices crates input.cache outcomes := by
  have hw : Underway w.prices w.clock w.enter := ⟨rfl, rfl, Nat.le_refl _⟩
  have hpublished := ((priceCycle_safe (I := fun _ => True) (fun _ _ => trivial)
    (fun _ _ _ _ => trivial) hw).finishes h.of_restrict _ rfl).published
  obtain ⟨_, now, _, hi, ha, h⟩ := finishes_request_bind.mp h
  have hasked := (underway_stable.interferes
    (Relation.ReflTransGen.mono (fun _ _ h => h.1) _ _ hi) hw).answered (q := .unixTime) trivial ha.1.2
  obtain ⟨ledger, _, hledger, h⟩ := finishes_bind.mp h
  have hcounted := (latestLedgerSequence_safe hasked).visits underway_stable hledger.of_restrict.visits
  obtain ⟨pyth, _, hpyth, h⟩ := finishes_bind.mp h
  have hfetched := (quiet_safe (fetchPythPrices_asks _) hcounted).visits underway_stable
    hpyth.of_restrict.visits
  obtain ⟨pythAnswer, hpythAnswer⟩ := fetchPythPrices_web hpyth
  cases ledger with
  | error e =>
      obtain ⟨_, _, -, h⟩ := finishes_bind.mp h
      cases (finishes_done.mp h).1
  | ok ledgerSeq =>
      obtain ⟨completed, _, hcompleted, h⟩ := finishes_bind.mp h
      obtain ⟨hresult, -⟩ := finishes_done.mp h
      cases hresult
      obtain ⟨binancePrices, _, hbinance, h⟩ := finishes_bind.mp hcompleted
      have hbatched := (quiet_safe fetchBinanceBatch_asks hfetched).visits underway_stable
        hbinance.of_restrict.visits
      obtain ⟨binanceAnswer, hbatch⟩ := fetchBinanceBatch_web hbinance
      obtain ⟨_, cached, _, hi, ha, h⟩ := finishes_request_bind.mp h
      have hcached := (underway_stable.interferes
        (Relation.ReflTransGen.mono (fun _ _ h => h.1) _ _ hi) hbatched).answered
        (q := .state .readPrices) rfl ha.1.2
      obtain ⟨results, _, hresults, h⟩ := finishes_bind.mp h
      have hdone := (fetchTokens_safe settings.tokens hcached).visits underway_stable
        hresults.of_restrict.visits
      obtain ⟨found, _, hfound, h⟩ := finishes_bind.mp h
      have hsettled := (settleTokens_settles results hdone).finishes hfound.of_restrict
      obtain ⟨_, _, -, h⟩ := finishes_bind.mp h
      cases (finishes_done.mp h).1
      obtain ⟨tr, hruns⟩ := runs_of_finishes hresults
      let unanswered : CycleInput F :=
        ⟨ledgerSeq, w.prices, pythAnswer, binanceAnswer, fun _ => ⟨fun _ _ _ => none, 0⟩⟩
      have hinput : batchesOf pyth binancePrices = unanswered.batched settings := by
        rw [hpythAnswer, hbatch unanswered rfl]
        rfl
      rw [hinput] at hruns
      obtain ⟨answers, hanswers⟩ := exists_outcomesOf unanswered hruns hsettled
      refine ⟨{ unanswered with token := answers }, rfl, ?_, hpublished⟩
      rw [CycleInput.outcomes, outcomesOf_withToken]
      exact hanswers

end Adequacy

section Realised
variable {token : TokenConfig} {ledgerSeq : Nat} {batches : Batches} {input : CycleInput F}

namespace CycleInput

def pythAsked (settings : Settings) (input : CycleInput F) :
    List (Event PriceRequest (PriceRequest.Answer F)) :=
  if pythFeedIds settings = [] then []
  else [⟨.pythPrices (pythFeedIds settings), parseHermesResponse input.pyth⟩]

def binanceAsked (settings : Settings) (input : CycleInput F) :
    List (Event PriceRequest (PriceRequest.Answer F)) :=
  if binanceSymbols settings = [] then []
  else [⟨.binancePrices (binanceSymbols settings),
    tickerAnswer (binanceSymbols settings) input.binance⟩]

/-- What a cycle asks before it comes to its tokens, and how it is answered. -/
def opening (settings : Settings) (input : CycleInput F) (now : Nat) :
    List (Event PriceRequest (PriceRequest.Answer F)) :=
  [⟨.unixTime, now⟩, ⟨.latestLedger, .ok input.ledgerSeq⟩] ++ input.pythAsked settings ++
    input.binanceAsked settings ++ [⟨.state .readPrices, input.cache⟩]

end CycleInput

theorem latestLedgerSequence_runs (ledgerSeq : Nat) :
    Runs (latestLedgerSequence (F := F)) [⟨.latestLedger, .ok ledgerSeq⟩] (.ok ledgerSeq) :=
  .ask _ _ (.done _)

theorem fetchPythPrices_runs (settings : Settings) (input : CycleInput F) :
    Runs (fetchPythPrices (pythFeedIds settings)) (input.pythAsked settings)
      (input.pythBatch settings) := by
  rw [fetchPythPrices, CycleInput.pythAsked, CycleInput.pythBatch]
  split
  · exact .done _
  · exact .ask _ _ (.done _)

theorem fetchBinanceBatch_runs (settings : Settings) (input : CycleInput F) :
    Runs (fetchBinanceBatch settings) (input.binanceAsked settings) (input.binanceBatch settings) := by
  rw [fetchBinanceBatch, CycleInput.binanceAsked, CycleInput.binanceBatch]
  split
  · exact .done _
  · refine .ask _ _ ?_
    rw [tickerAnswer]
    cases parseTickerResponse (binanceSymbols settings) input.binance with
    | error e => exact .done _
    | ok results => exact .done _

theorem publish_runs (crates : Crates) (outcomes : List (TokenConfig × TokenOutcome)) :
    ∃ tr, Runs (publish (F := F) crates outcomes) tr () := by
  rw [publish]
  split
  · exact ⟨_, .ask _ () (.done _)⟩
  · exact ⟨_, .ask _ () (.done _)⟩

theorem runs_of_quotesAgainst {sources : List String}
    {answers : Nat → Strategy PriceRequest (PriceRequest.Answer F)}
    {quotes : List (String × PriceWithObservationTime)}
    (h : quotesAgainst num settings token ledgerSeq batches answers sources = some quotes) :
    ∃ tr, Runs (fetchSources num settings token ledgerSeq batches sources) tr quotes := by
  induction sources generalizing answers quotes with
  | nil =>
      cases h
      exact ⟨[], .done []⟩
  | cons source sources ih =>
      obtain ⟨quote, hquote, h⟩ := Option.bind_eq_some_iff.mp h
      obtain ⟨rest, hrest, h⟩ := Option.bind_eq_some_iff.mp h
      cases h
      obtain ⟨first, hfirst⟩ := runs_of_outcome hquote
      obtain ⟨second, hsecond⟩ := ih hrest
      refine ⟨first ++ (second ++ []), ?_⟩
      rw [fetchSources_cons]
      exact runs_bind.mpr ⟨first, quote, _, rfl, hfirst,
        runs_bind.mpr ⟨second, rest, [], rfl, hsecond, .done _⟩⟩

theorem runs_of_tokenOutcome {answers : TokenAnswers F} {outcome : TokenOutcome}
    (h : input.tokenOutcome num crates settings signPrice token answers = some outcome) :
    ∃ tr result, Runs (buildCachedPrice num settings signPrice token input.ledgerSeq
        (input.batched settings)) tr result ∧
      outcome = settled crates token input.cache answers.checkedAt result := by
  obtain ⟨quotes, hquotes, h⟩ := Option.bind_eq_some_iff.mp h
  obtain ⟨aggregate, haggregate, h⟩ := Option.bind_eq_some_iff.mp h
  cases h
  obtain ⟨tr, hruns⟩ := runs_of_quotesAgainst hquotes
  refine ⟨tr ++ [], _, runs_bind.mpr ⟨tr, quotes, [], rfl, hruns, ?_⟩, rfl⟩
  cases hrun : (aggregateQuotes num token quotes).run with
  | error fault =>
      rw [hrun] at haggregate
      cases haggregate
  | ok result =>
      rw [hrun] at haggregate
      cases haggregate
      exact .done _

theorem runs_of_outcomesOf {answers : Nat → TokenAnswers F} {tokens : List TokenConfig}
    {outcomes : List (TokenConfig × TokenOutcome)}
    (h : input.outcomesOf num crates settings signPrice answers tokens = some outcomes) :
    ∃ tr results, Runs (fetchTokens num settings signPrice input.ledgerSeq (input.batched settings)
        tokens) tr results ∧ List.Forall₂ (Settles crates input.cache) results outcomes := by
  induction tokens generalizing answers outcomes with
  | nil =>
      cases h
      exact ⟨[], [], .done [], .nil⟩
  | cons token tokens ih =>
      obtain ⟨outcome, houtcome, h⟩ := Option.bind_eq_some_iff.mp h
      obtain ⟨rest, hrest, h⟩ := Option.bind_eq_some_iff.mp h
      cases h
      obtain ⟨first, result, hfirst, hsettled⟩ := runs_of_tokenOutcome houtcome
      obtain ⟨second, results, hsecond, hall⟩ := ih hrest
      refine ⟨first ++ (second ++ []), (token, result) :: results, ?_, .cons ⟨rfl, _, hsettled⟩ hall⟩
      exact runs_bind.mpr ⟨first, result, _, rfl, hfirst,
        runs_bind.mpr ⟨second, results, [], rfl, hsecond, .done _⟩⟩

theorem checkCached_runs (token : TokenConfig) (cache : PriceMap) (checkedAt : Nat) (e : String) :
    ∃ tr, Runs (checkCached (F := F) crates token) tr
      (settled crates token cache checkedAt (.error e)) := by
  rw [settled]
  cases hcached : cache[lookupKey crates token]? with
  | none =>
      refine ⟨_, runs_request_bind.mpr ⟨cache, [], rfl, ?_⟩⟩
      rw [hcached]
      exact .done _
  | some cached =>
      refine ⟨_, runs_request_bind.mpr ⟨cache, [⟨.unixTime, checkedAt⟩], rfl, ?_⟩⟩
      rw [hcached]
      refine runs_request_bind.mpr ⟨checkedAt, [], rfl, ?_⟩
      dsimp only
      split
      · exact .done _
      · exact .done _

theorem settleToken_runs (settings : Settings) (ledgerSeq : Nat) (cache : PriceMap)
    (checkedAt : Nat) (result : Except String CachedPrice) :
    ∃ tr, Runs (settleToken (F := F) crates settings ledgerSeq token result) tr
      (settled crates token cache checkedAt result) := by
  cases result with
  | ok price => exact ⟨[], .done _⟩
  | error e =>
      obtain ⟨tr, htr⟩ := checkCached_runs token cache checkedAt e
      exact ⟨_, runs_request_bind.mpr ⟨(), tr, rfl, htr⟩⟩

theorem settleTokens_runs (settings : Settings) (ledgerSeq : Nat) {cache : PriceMap}
    {results : List (TokenConfig × Except String CachedPrice)}
    {outcomes : List (TokenConfig × TokenOutcome)}
    (h : List.Forall₂ (Settles crates cache) results outcomes) :
    ∃ tr, Runs (settleTokens (F := F) crates settings ledgerSeq results) tr outcomes := by
  induction h with
  | nil => exact ⟨[], .done []⟩
  | @cons result entry results outcomes hhead _ ih =>
      obtain ⟨token, outcome⟩ := entry
      obtain ⟨rfl, checkedAt, rfl⟩ := hhead
      obtain ⟨first, hfirst⟩ := settleToken_runs settings ledgerSeq cache checkedAt result.2
      obtain ⟨second, hsecond⟩ := ih
      exact ⟨first ++ (second ++ []), runs_bind.mpr ⟨first, _, _, rfl, hfirst,
        runs_bind.mpr ⟨second, outcomes, [], rfl, hsecond, .done _⟩⟩⟩

/-- Every input is one of a run of the cycle. -/
theorem runs_of_outcomes {outcomes : List (TokenConfig × TokenOutcome)} (now : Nat)
    (h : input.outcomes num crates settings signPrice = some outcomes) :
    ∃ rest stale, Runs (priceCycle num crates settings signPrice)
      (input.opening settings now ++ rest) (.ok (outcomes, stale)) := by
  obtain ⟨fetched, results, hfetched, hsettled⟩ := runs_of_outcomesOf h
  obtain ⟨settling, hsettling⟩ := settleTokens_runs (F := F) settings input.ledgerSeq hsettled
  obtain ⟨publishing, hpublishing⟩ := publish_runs (F := F) crates outcomes
  have hcompleted : Runs (completeCycle num crates settings signPrice now input.ledgerSeq
      (input.pythBatch settings))
      (input.binanceAsked settings ++ ⟨.state .readPrices, input.cache⟩ ::
        (fetched ++ (settling ++ (publishing ++ []))))
      (outcomes, countStale crates settings now input.cache) :=
    runs_bind.mpr ⟨_, _, _, rfl, fetchBinanceBatch_runs settings input,
      runs_request_bind.mpr ⟨input.cache, _, rfl, runs_bind.mpr ⟨_, _, _, rfl, hfetched,
        runs_bind.mpr ⟨_, _, _, rfl, hsettling,
          runs_bind.mpr ⟨_, _, _, rfl, hpublishing, .done _⟩⟩⟩⟩⟩
  have hcycle : Runs (priceCycle num crates settings signPrice)
      (⟨.unixTime, now⟩ :: ([⟨.latestLedger, .ok input.ledgerSeq⟩] ++ (input.pythAsked settings ++
        (input.binanceAsked settings ++ ⟨.state .readPrices, input.cache⟩ ::
          (fetched ++ (settling ++ (publishing ++ []))) ++ []))))
      (.ok (outcomes, countStale crates settings now input.cache)) :=
    runs_request_bind.mpr ⟨now, _, rfl, runs_bind.mpr ⟨_, _, _, rfl,
      latestLedgerSequence_runs input.ledgerSeq, runs_bind.mpr ⟨_, _, _, rfl,
        fetchPythPrices_runs settings input, runs_bind.mpr ⟨_, _, _, rfl, hcompleted, .done _⟩⟩⟩⟩
  refine ⟨fetched ++ (settling ++ publishing), countStale crates settings now input.cache, ?_⟩
  simpa [CycleInput.opening] using hcycle

end Realised

end So4Oracle.CycleInputs
