import So4Oracle.CycleInputs
import So4Oracle.PriceScript

namespace So4Oracle.Isolation

open Library.Checked Library.Requests Library.Strategies Wire Config State StellarRpc Prices Sources
  PriceCycle CycleOutcome CacheFreshness Upstream CycleInputs KeeperScript PriceScript

variable {F : Type} {num : Numerics F} {crates : Crates} {settings : Settings}
  {signPrice : SignPrice}

/-- The requests whose answers concern the token. -/
def Concerns (bad : TokenConfig) : PriceRequest → Prop
  | .pythPrices feedIds => ∃ feedId ∈ feedIds, bad.pythFeedId = some feedId
  | .binancePrices symbols => ∃ symbol ∈ symbols, bad.binanceSymbol = some symbol
  | .coinbasePrice symbol => ∃ other, bad.coinbaseSymbol = some other ∧
      baseCurrency other = baseCurrency symbol
  | _ => False

/-- No provider has one entry for both tokens. -/
structure Apart (bad token : TokenConfig) : Prop where
  pyth : ∀ feedId, token.pythFeedId = some feedId → bad.pythFeedId ≠ some feedId
  binance : ∀ symbol, token.binanceSymbol = some symbol → bad.binanceSymbol ≠ some symbol
  coinbase : ∀ symbol other, token.coinbaseSymbol = some symbol → bad.coinbaseSymbol = some other →
    baseCurrency other ≠ baseCurrency symbol

section Requests

variable {bad token : TokenConfig} {batches : Batches} {now : Nat}

theorem fetchBinance_asks (hapart : Apart bad token) :
    (fetchBinance (F := F) token batches now).Asks fun q => ¬Concerns bad q := by
  rw [fetchBinance]
  cases hsymbol : token.binanceSymbol with
  | none => trivial
  | some symbol =>
      cases batches.binancePrices with
      | some prices => trivial
      | none =>
          constructor
          · rintro ⟨other, hother, hbad⟩
            rw [List.mem_singleton.mp hother] at hbad
            exact hapart.binance symbol hsymbol hbad
          · intro r
            cases r <;> trivial

theorem fetchCoinbase_asks (hapart : Apart bad token) :
    (fetchCoinbase (F := F) token now).Asks fun q => ¬Concerns bad q := by
  rw [fetchCoinbase]
  cases hsymbol : token.coinbaseSymbol with
  | none => trivial
  | some symbol =>
      constructor
      · rintro ⟨other, hbad, hsame⟩
        exact hapart.coinbase symbol other hsymbol hbad hsame
      · intro r
        cases r <;> trivial

theorem fetchPyth_asks (hapart : Apart bad token) :
    (fetchPyth num token batches now).Asks fun q => ¬Concerns bad q := by
  rw [fetchPyth]
  cases hfeed : token.pythFeedId with
  | none => trivial
  | some feedId =>
      dsimp only
      cases batches.pythPrices[feedId]? with
      | some feed => trivial
      | none =>
          cases batches.pythBatchFailed with
          | true => trivial
          | false =>
              apply Program.Asks.bind (p := fetchPythPrices [feedId])
              · refine ⟨?_, fun _ => trivial⟩
                rintro ⟨other, hother, hbad⟩
                rw [List.mem_singleton.mp hother] at hbad
                exact hapart.pyth feedId hfeed hbad
              · intro r
                cases r with
                | error e => trivial
                | ok feeds =>
                    dsimp only
                    cases feeds[feedId]? <;> trivial

theorem sourceQuote_asks (hapart : Apart bad token) (ledgerSeq : Nat) (source : String) :
    (sourceQuote num settings token ledgerSeq batches source).Asks fun q => ¬Concerns bad q := by
  have hfetch : (fetchSourcePrice num token batches source).Asks fun q => ¬Concerns bad q := by
    refine ⟨id, fun now => ?_⟩
    dsimp only
    split
    · exact fetchBinance_asks hapart
    · split
      · exact fetchCoinbase_asks hapart
      · split
        · exact fetchPyth_asks hapart
        · split <;> trivial
  apply (Retry.retryFrom_asks hfetch _).bind
  intro r
  cases r with
  | ok quoted => trivial
  | error e => exact ⟨id, fun _ => trivial⟩

end Requests

section Views

variable (token : TokenConfig) (batches batches' : Batches)

def SameBinance : Prop :=
  ∀ symbol, token.binanceSymbol = some symbol →
    batches.binancePrices.map (fun prices => prices[symbol]?) =
      batches'.binancePrices.map fun prices => prices[symbol]?

def SamePyth : Prop :=
  batches.pythBatchFailed = batches'.pythBatchFailed ∧
    ∀ feedId, token.pythFeedId = some feedId →
      batches.pythPrices[feedId]? = batches'.pythPrices[feedId]?

variable {token batches batches'}

theorem fetchBinance_congr (h : SameBinance token batches batches') (now : Nat) :
    fetchBinance (F := F) token batches now = fetchBinance token batches' now := by
  unfold fetchBinance
  cases hsymbol : token.binanceSymbol with
  | none => rfl
  | some symbol =>
      have hview := h symbol hsymbol
      cases hb : batches.binancePrices with
      | none =>
          rw [hb, Option.map_none, eq_comm, Option.map_eq_none_iff] at hview
          rw [hview]
      | some prices =>
          rw [hb, Option.map_some, eq_comm, Option.map_eq_some_iff] at hview
          obtain ⟨prices', hb', hsame⟩ := hview
          rw [hb']
          dsimp only
          rw [hsame]

theorem fetchPyth_congr (h : SamePyth token batches batches') (now : Nat) :
    fetchPyth num token batches now = fetchPyth num token batches' now := by
  unfold fetchPyth
  cases hfeed : token.pythFeedId with
  | none => rfl
  | some feedId =>
      dsimp only
      rw [h.1, h.2 feedId hfeed]

/-- A source sees no more of the batches than its own entry. -/
theorem sourceQuote_congr {source : String}
    (hbinance : source = "binance" → SameBinance token batches batches')
    (hpyth : source = "pyth" → SamePyth token batches batches') (ledgerSeq : Nat) :
    sourceQuote num settings token ledgerSeq batches source =
      sourceQuote num settings token ledgerSeq batches' source := by
  have hfetch : fetchSourcePrice num token batches source =
      fetchSourcePrice num token batches' source := by
    apply congrArg (Program.ask PriceRequest.unixTime)
    funext now
    split
    next heq => exact fetchBinance_congr (hbinance heq) now
    next =>
      split
      next => rfl
      next =>
        split
        next heq => exact fetchPyth_congr (hpyth heq) now
        next => rfl
  rw [sourceQuote, sourceQuote, fetchSourceWithRetry, fetchSourceWithRetry, hfetch]

end Views

section Inputs

/-- Two inputs of a cycle that differ only in what concerns one token. -/
structure DiffersOnlyIn (bad : TokenConfig) (t : Nat) (input input' : CycleInput F) : Prop where
  ledgerSeq : input.ledgerSeq = input'.ledgerSeq
  cache : input.cache = input'.cache
  pyth : DiffersAt bad.pythFeedId input.pyth input'.pyth
  binance : DiffersAt bad.binanceSymbol input.binance input'.binance
  fetch : ∀ u, u ≠ t → ∀ i past q, ¬Concerns bad q →
    (input.token u).fetch i past q = (input'.token u).fetch i past q
  checkedAt : ∀ u, u ≠ t → (input.token u).checkedAt = (input'.token u).checkedAt

/-- The symbol asked for alone is answered with the price that the batch holds. -/
def RepeatsBatch (settings : Settings) (token : TokenConfig) (u : Nat) (price : Int)
    (input : CycleInput F) : Prop :=
  ∃ symbol, token.binanceSymbol = some symbol ∧
    (∀ prices, input.binanceBatch settings = some prices → prices[symbol]? = some price) ∧
    ∀ i now, (input.token u).fetch i [] .unixTime = some now →
      ∃ results, (input.token u).fetch i [⟨.unixTime, now⟩] (.binancePrices [symbol]) =
          some (.ok results) ∧
        results.find? (fun got => got.1 == symbol) = some (symbol, price)

/-- Each batch parses in both cycles or in neither; the Binance one may also be
made up for by the requests for the one symbol. -/
structure BatchesReadAlike (settings : Settings) (token : TokenConfig) (u : Nat)
    (input input' : CycleInput F) : Prop where
  pyth : "pyth" ∈ token.sources → (Reads input.pyth ↔ Reads input'.pyth)
  binance : "binance" ∈ token.sources →
    (ReadsPrices (binanceSymbols settings) input.binance ↔
      ReadsPrices (binanceSymbols settings) input'.binance) ∨
    ∃ price, RepeatsBatch settings token u price input ∧ RepeatsBatch settings token u price input'

variable {bad token : TokenConfig} {t u : Nat} {input input' : CycleInput F}

theorem samePyth_batched (hd : DiffersOnlyIn bad t input input') (hapart : Apart bad token)
    (hread : Reads input.pyth ↔ Reads input'.pyth) :
    SamePyth token (input.batched settings) (input'.batched settings) := by
  rw [← parseHermesResponse_ok_iff (F := F), ← parseHermesResponse_ok_iff (F := F)] at hread
  unfold CycleInput.batched CycleInput.pythBatch
  split
  next => exact ⟨rfl, fun _ _ => rfl⟩
  next =>
    rcases both_ok_or_both_error hread with ⟨feeds, feeds', h, h'⟩ | ⟨e, e', h, h'⟩
    · rw [h, h']
      exact ⟨rfl, fun feedId hfeed =>
        parseHermesResponse_alike hd.pyth (hapart.pyth feedId hfeed) h h'⟩
    · rw [h, h']
      exact ⟨rfl, fun _ _ => rfl⟩

theorem binancePrices_batched (input : CycleInput F) :
    (input.batched settings).binancePrices = input.binanceBatch settings := by
  unfold CycleInput.batched batchesOf
  cases input.pythBatch settings <;> rfl

theorem sameBinance_batched (hd : DiffersOnlyIn bad t input input') (hapart : Apart bad token)
    (hread : ReadsPrices (binanceSymbols settings) input.binance ↔
      ReadsPrices (binanceSymbols settings) input'.binance) :
    SameBinance token (input.batched settings) (input'.batched settings) := by
  intro symbol hsymbol
  rw [binancePrices_batched, binancePrices_batched]
  rw [← parseTickerResponse_ok_iff, ← parseTickerResponse_ok_iff] at hread
  unfold CycleInput.binanceBatch
  split
  next => rfl
  next =>
    rcases both_ok_or_both_error hread with ⟨results, results', h, h'⟩ | ⟨e, e', h, h'⟩
    · rw [h, h']
      exact congrArg some
        (parseTickerResponse_alike hd.binance (hapart.binance symbol hsymbol) h h')
    · rw [h, h']

/-- With such answers it makes no difference whether the batch parsed. -/
theorem outcome_of_repeatsBatch {price : Int} (h : RepeatsBatch settings token u price input)
    (ledgerSeq i : Nat) :
    outcome ((input.token u).fetch i)
        (sourceQuote num settings token ledgerSeq (input.batched settings) "binance") =
      ((input.token u).fetch i [] .unixTime).map fun now => some ⟨price, now⟩ := by
  obtain ⟨symbol, hsymbol, hbatch, hsingle⟩ := h
  rw [outcome, sourceQuote, fetchSourceWithRetry, Retry.retryWithBackoff, sourceRetryAttempts,
    Retry.retryFrom, fetchSourcePrice]
  cases hnow : (input.token u).fetch i [] .unixTime with
  | none => simp [ask, against, hnow]
  | some now =>
      obtain ⟨results, hresults, hfound⟩ := hsingle i now hnow
      simp only [ask, ↓reduceIte, fetchBinance, hsymbol, Program.request_bind, Program.ask_bind,
        against, hnow, List.nil_append, Option.map_some]
      rw [binancePrices_batched]
      cases hb : input.binanceBatch settings with
      | none => simp [against, hresults, hfound, observedNow]
      | some prices => simp [against, hbatch prices hb, observedNow]

end Inputs

section Outcomes
variable {bad token : TokenConfig} {t u : Nat} {input input' : CycleInput F}

theorem outcome_sourceQuote (hd : DiffersOnlyIn bad t input input') (hapart : Apart bad token)
    (hu : u ≠ t) (hread : BatchesReadAlike settings token u input input') (ledgerSeq i : Nat)
    {source : String} (hsource : source ∈ token.sources) :
    outcome ((input.token u).fetch i)
        (sourceQuote num settings token ledgerSeq (input.batched settings) source) =
      outcome ((input'.token u).fetch i)
        (sourceQuote num settings token ledgerSeq (input'.batched settings) source) := by
  have hasks : (sourceQuote num settings token ledgerSeq (input'.batched settings) source).Asks
      fun q => ¬Concerns bad q := sourceQuote_asks hapart ledgerSeq source
  have hanswers := outcome_congr hasks (hd.fetch u hu i)
  rw [← hanswers]
  by_cases hbinance : source = "binance"
  · subst hbinance
    rcases hread.binance hsource with hsame | ⟨price, hrepeats, hrepeats'⟩
    · rw [sourceQuote_congr (fun _ => sameBinance_batched hd hapart hsame)
        (fun heq => absurd heq (by decide))]
    · rw [outcome_of_repeatsBatch hrepeats, hanswers, outcome_of_repeatsBatch hrepeats',
        hd.fetch u hu i [] .unixTime id]
  · rw [sourceQuote_congr (fun heq => absurd heq hbinance)
      (fun heq => samePyth_batched hd hapart (hread.pyth (heq ▸ hsource)))]

theorem quotesAgainst_congr {ledgerSeq : Nat} {batches batches' : Batches} {sources : List String}
    {answers answers' : Nat → Strategy PriceRequest (PriceRequest.Answer F)}
    (h : ∀ i, ∀ source ∈ sources,
      outcome (answers i) (sourceQuote num settings token ledgerSeq batches source) =
        outcome (answers' i) (sourceQuote num settings token ledgerSeq batches' source)) :
    quotesAgainst num settings token ledgerSeq batches answers sources =
      quotesAgainst num settings token ledgerSeq batches' answers' sources := by
  induction sources generalizing answers answers' with
  | nil => rfl
  | cons source sources ih =>
      rw [quotesAgainst, quotesAgainst, h 0 source (by simp),
        ih fun i source hsource => h (i + 1) source (by simp [hsource])]

/-- A step for one token: nothing that concerns another token reaches it. -/
theorem tokenOutcome_alike (hd : DiffersOnlyIn bad t input input') (hapart : Apart bad token)
    (hu : u ≠ t) (hread : BatchesReadAlike settings token u input input') :
    input.tokenOutcome num crates settings signPrice token (input.token u) =
      input'.tokenOutcome num crates settings signPrice token (input'.token u) := by
  have hquotes : quotesAgainst num settings token input.ledgerSeq (input.batched settings)
      (input.token u).fetch token.sources =
        quotesAgainst num settings token input'.ledgerSeq (input'.batched settings)
          (input'.token u).fetch token.sources := by
    rw [← hd.ledgerSeq]
    apply quotesAgainst_congr
    intro i source hsource
    exact outcome_sourceQuote hd hapart hu hread input.ledgerSeq i hsource
  rw [CycleInput.tokenOutcome, CycleInput.tokenOutcome, hquotes, hd.ledgerSeq, hd.cache,
    hd.checkedAt u hu]

theorem getElem?_outcomesOf {answers : Nat → TokenAnswers F} {tokens : List TokenConfig}
    {outcomes : List (TokenConfig × TokenOutcome)}
    (h : input.outcomesOf num crates settings signPrice answers tokens = some outcomes) (u : Nat) :
    outcomes[u]? = tokens[u]?.bind fun token =>
      (input.tokenOutcome num crates settings signPrice token (answers u)).map (token, ·) := by
  induction tokens generalizing answers outcomes u with
  | nil =>
      cases h
      rfl
  | cons token tokens ih =>
      obtain ⟨outcome, houtcome, h⟩ := Option.bind_eq_some_iff.mp h
      obtain ⟨rest, hrest, h⟩ := Option.bind_eq_some_iff.mp h
      cases h
      cases u with
      | zero => simp [houtcome]
      | succ u => simp [ih hrest]

/-- No other token is published under the key of this one. -/
def OwnKey (crates : Crates) (tokens : List TokenConfig) (u : Nat) (token : TokenConfig) : Prop :=
  ∀ v other, tokens[v]? = some other → lookupKey crates other = lookupKey crates token → v = u

variable {outcomes : List (TokenConfig × TokenOutcome)} {outcome : TokenOutcome}

theorem getElem?_newPrices_own (hown : OwnKey crates (outcomes.map Prod.fst) u token)
    (h : outcomes[u]? = some (token, outcome)) :
    (newPrices crates outcomes)[lookupKey crates token]? = outcome.published := by
  have hmem : ∀ price, (lookupKey crates token, price) ∈ outcomes.filterMap (publication crates) ↔
      outcome.published = some price := by
    intro price
    rw [mem_publications]
    constructor
    · rintro ⟨entry, hentry, hkey, hpublished⟩
      obtain ⟨v, hv⟩ := List.mem_iff_getElem?.mp hentry
      obtain rfl := hown v entry.1 (by rw [List.getElem?_map, hv]; rfl) hkey
      rw [h] at hv
      cases hv
      exact hpublished
    · intro hpublished
      exact ⟨(token, outcome), List.mem_of_getElem? h, rfl, hpublished⟩
  cases hfound : (newPrices crates outcomes)[lookupKey crates token]? with
  | some price => exact ((hmem price).mp (mem_of_getElem?_ofList hfound)).symm
  | none =>
      cases hpublished : outcome.published with
      | none => rfl
      | some price =>
          have hsome := isSome_getElem?_ofList.mpr ⟨price, (hmem price).mpr hpublished⟩
          rw [newPrices] at hfound
          rw [hfound] at hsome
          cases hsome

/-- Where no stale price can be left over, the cache ends with what was found. -/
theorem getElem?_publishedPrices_own {cache : PriceMap}
    (hown : OwnKey crates (outcomes.map Prod.fst) u token)
    (h : outcomes[u]? = some (token, outcome))
    (hcache : outcome.published = none → cache[lookupKey crates token]? = none) :
    (publishedPrices crates cache outcomes)[lookupKey crates token]? = outcome.published := by
  have hnew := getElem?_newPrices_own hown h
  by_cases hempty : (newPrices crates outcomes).isEmpty = true
  · rw [publishedPrices_of_isEmpty hempty, ← hnew]
    exact (Std.TreeMap.getElem?_of_isEmpty hempty).symm
  · rw [getElem?_publishedPrices hempty, hnew]
    cases hpublished : outcome.published with
    | some price => rfl
    | none => exact hcache hpublished

theorem settled_unpublished {cache : PriceMap} {checkedAt : Nat}
    {result : Except String CachedPrice}
    (hfresh : ∀ cached, cache[lookupKey crates token]? = some cached →
      ¬cached.isStale token.staleAfterSeconds checkedAt = true)
    (h : (settled crates token cache checkedAt result).published = none) :
    cache[lookupKey crates token]? = none := by
  unfold settled at h
  cases result with
  | ok price => cases h
  | error e =>
      cases hcached : cache[lookupKey crates token]? with
      | none => rfl
      | some cached =>
          dsimp only at h
          rw [hcached] at h
          dsimp only at h
          rw [if_neg (hfresh cached hcached)] at h
          cases h

end Outcomes

section Defect
variable {token : TokenConfig} {input : CycleInput F}

/-- A Pyth answer that does not parse takes the source from every token. -/
theorem sourceQuote_pyth_lost (hread : ¬Reads input.pyth) (hids : pythFeedIds settings ≠ [])
    {ledgerSeq : Nat} {answer : Strategy PriceRequest (PriceRequest.Answer F)}
    {quote : Option PriceWithObservationTime}
    (h : outcome answer (sourceQuote num settings token ledgerSeq (input.batched settings) "pyth") =
      some quote) : quote = none := by
  have hbatches : (input.batched settings).pythPrices = ∅ ∧
      (input.batched settings).pythBatchFailed = true := by
    rw [← parseHermesResponse_ok_iff (F := F)] at hread
    rw [CycleInput.batched, CycleInput.pythBatch]
    rw [if_neg hids]
    cases hparse : parseHermesResponse (F := F) input.pyth with
    | ok feeds => exact absurd ⟨feeds, hparse⟩ hread
    | error e => exact ⟨rfl, rfl⟩
  obtain ⟨tr, hruns⟩ := runs_of_outcome h
  obtain ⟨first, fetched, rest, -, hfetched, hrest⟩ := runs_bind.mp hruns
  obtain ⟨_, last, -, hlast⟩ := Retry.retryFrom_last hfetched
  obtain ⟨now, final, -, hfinal⟩ := runs_ask.mp hlast
  have hlost : ∃ e, fetched = .error e := by
    change Runs (fetchPyth num token (input.batched settings) now) final fetched at hfinal
    rw [fetchPyth] at hfinal
    cases hfeed : token.pythFeedId with
    | none =>
        rw [hfeed] at hfinal
        exact ⟨_, (runs_done.mp hfinal).2⟩
    | some feedId =>
        rw [hfeed] at hfinal
        dsimp only at hfinal
        rw [hbatches.1, hbatches.2, Std.TreeMap.getElem?_emptyc] at hfinal
        exact ⟨_, (runs_done.mp hfinal).2⟩
  obtain ⟨e, rfl⟩ := hlost
  obtain ⟨_, _, -, hdone⟩ := runs_ask.mp hrest
  exact (runs_done.mp hdone).2
end Defect

section Isolated

variable {bad token : TokenConfig} {t u : Nat} {input input' : CycleInput F}
  {outcomes outcomes' : List (TokenConfig × TokenOutcome)}

theorem outcomes_tokens {answers : Nat → TokenAnswers F} {tokens : List TokenConfig}
    (h : input.outcomesOf num crates settings signPrice answers tokens = some outcomes) :
    outcomes.map Prod.fst = tokens := by
  induction tokens generalizing answers outcomes with
  | nil =>
      cases h
      rfl
  | cons token tokens ih =>
      obtain ⟨outcome, -, h⟩ := Option.bind_eq_some_iff.mp h
      obtain ⟨rest, hrest, h⟩ := Option.bind_eq_some_iff.mp h
      cases h
      exact congrArg (token :: ·) (ih hrest)

/-- What the cache ends with for a token that has no stale price in it. -/
theorem published_of_outcomes (h : input.outcomes num crates settings signPrice = some outcomes)
    (htoken : settings.tokens[u]? = some token) (hown : OwnKey crates settings.tokens u token)
    (hfresh : ∀ cached, input.cache[lookupKey crates token]? = some cached →
      ¬cached.isStale token.staleAfterSeconds (input.token u).checkedAt = true) :
    (publishedPrices crates input.cache outcomes)[lookupKey crates token]? =
      outcomes[u]?.bind fun entry => entry.2.published := by
  have hentry := getElem?_outcomesOf h u
  rw [htoken, Option.bind_some] at hentry
  cases houtcome : input.tokenOutcome num crates settings signPrice token (input.token u) with
  | none =>
      have hlength := congrArg List.length (outcomes_tokens h)
      rw [houtcome, Option.map_none, List.getElem?_eq_none_iff, ← List.length_map, hlength] at hentry
      rw [List.getElem?_eq_none hentry] at htoken
      cases htoken
  | some outcome =>
      rw [houtcome, Option.map_some] at hentry
      rw [hentry, Option.bind_some]
      apply getElem?_publishedPrices_own (outcomes_tokens h ▸ hown) hentry
      intro hnone
      obtain ⟨quotes, -, houtcome⟩ := Option.bind_eq_some_iff.mp houtcome
      obtain ⟨aggregate, -, houtcome⟩ := Option.bind_eq_some_iff.mp houtcome
      cases houtcome
      exact settled_unpublished hfresh hnone

/-- A token is isolated from the data of another one as long as no batch parses
in only one of the cycles. -/
theorem outcomes_isolated (hd : DiffersOnlyIn bad t input input')
    (htoken : settings.tokens[u]? = some token) (hu : u ≠ t) (hapart : Apart bad token)
    (hread : BatchesReadAlike settings token u input input')
    (h : input.outcomes num crates settings signPrice = some outcomes)
    (h' : input'.outcomes num crates settings signPrice = some outcomes') :
    outcomes[u]? = outcomes'[u]? ∧
      (OwnKey crates settings.tokens u token →
        (∀ cached, input.cache[lookupKey crates token]? = some cached →
          ¬cached.isStale token.staleAfterSeconds (input.token u).checkedAt = true) →
        (publishedPrices crates input.cache outcomes)[lookupKey crates token]? =
          (publishedPrices crates input'.cache outcomes')[lookupKey crates token]?) := by
  have hsame : outcomes[u]? = outcomes'[u]? := by
    rw [getElem?_outcomesOf h u, getElem?_outcomesOf h' u, htoken, Option.bind_some, Option.bind_some,
      tokenOutcome_alike hd hapart hu hread]
  refine ⟨hsame, fun hown hfresh => ?_⟩
  have hfresh' := hfresh
  rw [hd.cache, hd.checkedAt u hu] at hfresh'
  rw [published_of_outcomes h htoken hown hfresh, published_of_outcomes h' htoken hown hfresh', hsame]

end Isolated

section Samples

def pairedBitcoin : TokenConfig :=
  { defaultTokenConfig with
    symbol := "BTC", stellarAddress := "CBTC", sources := ["pyth", "binance"]
    pythFeedId := some "aa", binanceSymbol := some "BTCUSDT" }

def pairedEther : TokenConfig :=
  { defaultTokenConfig with
    symbol := "ETH", stellarAddress := "CETH", sources := ["pyth", "binance"]
    pythFeedId := some "bb", binanceSymbol := some "ETHUSDT" }

/-- Two tokens that the same two providers quote. -/
def pairedSettings : Settings := { sampleSettings with tokens := [pairedBitcoin, pairedEther] }

def feedOf (price : String) : PythPriceData where
  price := price
  conf := none
  expo := 0
  publishTime := some 1010

/-- Alone, the second symbol is quoted as in the batch. -/
def repeatedEther : Strategy PriceRequest (PriceRequest.Answer F) := fun _ q =>
  match q with
  | .state (.recordError _) => some ()
  | .unixTime => some 1010
  | .binancePrices _ => some (.ok [("ETHUSDT", 50 * 10 ^ 30)])
  | _ => none

/-- A cycle in which only what the providers say of the first token is open. -/
def pairedInput (feed : Option PythPriceData) (price : String) : CycleInput (Option ℚ) where
  ledgerSeq := 7
  cache := ∅
  pyth := .entries [⟨"aa", feed⟩, ⟨"bb", some (feedOf "50")⟩]
  binance := .entries [⟨"BTCUSDT", some price⟩, ⟨"ETHUSDT", some "50"⟩]
  token := fun _ => ⟨fun _ => repeatedEther, 1010⟩

theorem pairedInput_differs (feed feed' : Option PythPriceData) (price price' : String) :
    DiffersOnlyIn pairedBitcoin 0 (pairedInput feed price) (pairedInput feed' price') where
  ledgerSeq := rfl
  cache := rfl
  pyth := rfl
  binance := rfl
  fetch _ _ _ _ _ _ := rfl
  checkedAt _ _ := rfl

theorem pairedEther_apart : Apart pairedBitcoin pairedEther where
  pyth feedId h := by
    cases h
    decide
  binance symbol h := by
    cases h
    decide
  coinbase symbol other h := nomatch h

theorem pairedEther_ownKey : OwnKey nodeCrates pairedSettings.tokens 1 pairedEther := by
  intro v other hother hkey
  match v with
  | 0 =>
      cases hother
      exact absurd hkey (by decide +kernel)
  | 1 => rfl
  | v + 2 => cases hother

theorem pairedInput_repeats {feed : Option PythPriceData} {price : String}
    (h : ((pairedInput feed price).binanceBatch pairedSettings).all
      (fun prices => prices["ETHUSDT"]? == some (50 * 10 ^ 30)) = true) :
    RepeatsBatch pairedSettings pairedEther 1 (50 * 10 ^ 30) (pairedInput feed price) := by
  refine ⟨"ETHUSDT", rfl, ?_, fun _ _ _ => ⟨_, rfl, rfl⟩⟩
  intro prices hprices
  rw [hprices] at h
  exact beq_iff_eq.mp h

theorem pairedInput_isolated :
    ∃ outcomes outcomes',
      (pairedInput (some (feedOf "100")) "100").outcomes exactNumerics nodeCrates pairedSettings unsigned =
        some outcomes ∧
      (pairedInput (some (feedOf "oops")) "oops").outcomes exactNumerics nodeCrates pairedSettings unsigned =
        some outcomes' ∧
      outcomes[1]? = outcomes'[1]? ∧
      (publishedPrices nodeCrates ∅ outcomes)["ceth"]? =
        (publishedPrices nodeCrates ∅ outcomes')["ceth"]? := by
  have hregular : ((pairedInput (some (feedOf "100")) "100").outcomes exactNumerics nodeCrates
      pairedSettings unsigned).isSome = true := by decide +kernel
  have hmalformed : ((pairedInput (some (feedOf "oops")) "oops").outcomes exactNumerics nodeCrates
      pairedSettings unsigned).isSome = true := by decide +kernel
  obtain ⟨outcomes, h⟩ := Option.isSome_iff_exists.mp hregular
  obtain ⟨outcomes', h'⟩ := Option.isSome_iff_exists.mp hmalformed
  have hread : BatchesReadAlike pairedSettings pairedEther 1
      (pairedInput (some (feedOf "100")) "100") (pairedInput (some (feedOf "oops")) "oops") :=
    { pyth := fun _ => by simp [pairedInput, Reads]
      binance := fun _ => .inr ⟨50 * 10 ^ 30, pairedInput_repeats (by decide +kernel),
        pairedInput_repeats (by decide +kernel)⟩ }
  have htoken : pairedSettings.tokens[1]? = some pairedEther := rfl
  have hisolated := outcomes_isolated (pairedInput_differs _ _ _ _) htoken (by decide)
    pairedEther_apart hread h h'
  refine ⟨outcomes, outcomes', h, h', hisolated.1, ?_⟩
  have hpublished := hisolated.2 pairedEther_ownKey (by simp [pairedInput])
  rwa [show lookupKey nodeCrates pairedEther = "ceth" by decide +kernel] at hpublished

/-- What the second token comes to when nothing is malformed. -/
def etherQuote : CachedPrice where
  tokenAddress := "CETH"
  symbol := "ETH"
  displaySymbol := "ETH"
  keeperIndex := 0
  min := 495 * 10 ^ 29
  max := 505 * 10 ^ 29
  median := 50 * 10 ^ 30
  timestamp := 1010
  ledgerSeq := 7
  sourcesUsed := ["binance", "pyth"]
  signature := ""

/-- A feed of the first token that does not deserialise costs the second one its
price, though its own answers are the same. -/
theorem pairedInput_not_isolated :
    DiffersOnlyIn pairedBitcoin 0 (pairedInput (some (feedOf "100")) "100") (pairedInput none "100") ∧
      Apart pairedBitcoin pairedEther ∧ pairedSettings.tokens = [pairedBitcoin, pairedEther] ∧
      ((pairedInput (some (feedOf "100")) "100").outcomes exactNumerics nodeCrates pairedSettings
        unsigned).bind (fun outcomes => outcomes[1]?) = some (pairedEther, .built etherQuote) ∧
      ((pairedInput none "100").outcomes exactNumerics nodeCrates pairedSettings
        unsigned).bind (fun outcomes => outcomes[1]?) = some (pairedEther, .failed) :=
  ⟨pairedInput_differs _ _ _ _, pairedEther_apart, rfl, by decide +kernel, by decide +kernel⟩

end Samples

end So4Oracle.Isolation
