import So4Oracle.BatchAge
import So4Oracle.Ready
import So4Oracle.Receipts

namespace So4Oracle.Provenance

open Library.Checked Library.Requests Library.Safety Wire Config State Prices Sources PriceCycle
  CycleOutcome BatchAge Aggregate Admin Ready PriceScript

variable {F : Type} {num : Numerics F} {crates : Crates} {settings : Settings}
  {signPrice : SignPrice} {ledgerAt : Nat → Nat} {token : TokenConfig} {price : CachedPrice}

section Endpoint

/-- The cached prices in the order of their keys. -/
def prices (cache : PriceCache) : Except ApiError (List CachedPrice) :=
  if cache.prices.isEmpty then .error (unavailable "no_prices")
  else .ok (cache.prices.toList.map Prod.snd)

variable {cache : PriceCache}

theorem prices_eq_error {e : ApiError} (h : prices cache = .error e) (key : String) :
    cache.prices[key]? = none := by
  rw [prices] at h
  split at h
  next hempty => exact Std.TreeMap.getElem?_of_isEmpty hempty
  next => cases h

theorem prices_eq_ok {served : List CachedPrice} (h : prices cache = .ok served) :
    served ≠ [] ∧ ∀ price ∈ served, ∃ key : String, cache.prices[key]? = some price := by
  rw [prices] at h
  split at h
  next => cases h
  next hsome =>
    cases h
    constructor
    · intro hnil
      have hlist : cache.prices.toList.isEmpty = true :=
        List.isEmpty_iff.mpr (List.map_eq_nil_iff.mp hnil)
      exact hsome (Std.TreeMap.isEmpty_toList ▸ hlist)
    · intro price hmem
      obtain ⟨⟨key, _⟩, hentry, rfl⟩ := List.mem_map.mp hmem
      exact ⟨key, Std.TreeMap.mem_toList_iff_getElem?_eq_some.mp hentry⟩

end Endpoint

section Build

variable {quotes : List (String × PriceWithObservationTime)} {ledgerSeq : Nat} {batches : Batches}
  {tr : List (Event PriceRequest (PriceRequest.Answer F))}

/-- The quotes are answers of the token's own sources, each asked in its turn. -/
structure Answers (num : Numerics F) (token : TokenConfig)
    (quotes : List (String × PriceWithObservationTime)) : Prop where
  sources : (quotes.map Prod.fst).Sublist token.sources
  fetched : ∀ quote ∈ quotes, ∃ batches tr,
    Runs (fetchSourceWithRetry num token batches quote.1) tr (.ok quote.2)

/-- Where a price comes from, and what it vouches for with its signature. -/
structure Origin (num : Numerics F) (settings : Settings) (signPrice : SignPrice)
    (token : TokenConfig) (price : CachedPrice) : Prop where
  tokenAddress : price.tokenAddress = token.stellarAddress
  symbol : price.symbol = token.symbol
  displaySymbol : price.displaySymbol = displaySymbol token
  keeperIndex : price.keeperIndex = settings.keeperIndex
  signature : signPrice price.ledgerSeq price.tokenAddress price.min price.max price.timestamp =
    .ok price.signature
  aggregated : ∃ quotes aggregate, Answers num token quotes ∧
    Returns (aggregateQuotes num token quotes) aggregate ∧ price.min = aggregate.min ∧
    price.max = aggregate.max ∧ price.median = aggregate.median ∧
    price.timestamp = aggregate.minObservationTime ∧ price.sourcesUsed = aggregate.sourcesUsed

theorem fetchSources_answers {sources : List String}
    (h : Runs (fetchSources num settings token ledgerSeq batches sources) tr quotes) :
    (quotes.map Prod.fst).Sublist sources ∧ ∀ quote ∈ quotes, ∃ batches tr,
      Runs (fetchSourceWithRetry num token batches quote.1) tr (.ok quote.2) := by
  induction sources generalizing tr quotes with
  | nil =>
      obtain ⟨-, rfl⟩ := runs_done.mp h
      exact ⟨.slnil, fun quote hmem => absurd hmem List.not_mem_nil⟩
  | cons source sources ih =>
      obtain ⟨first, result, rest, -, hfetched, h⟩ := runs_bind.mp h
      cases result with
      | ok quoted =>
          obtain ⟨second, others, last, -, hothers, h⟩ := runs_bind.mp h
          obtain ⟨-, rfl⟩ := runs_done.mp h
          obtain ⟨hsublist, hanswers⟩ := ih hothers
          exact ⟨hsublist.cons_cons source,
            List.forall_mem_cons.mpr ⟨⟨batches, first, hfetched⟩, hanswers⟩⟩
      | error e =>
          obtain ⟨-, -, others, -, -, hothers⟩ := runs_bind.mp h
          obtain ⟨hsublist, hanswers⟩ := ih hothers
          exact ⟨hsublist.cons source, hanswers⟩

theorem origin_of_builtFor (h : BuiltFor num settings signPrice token price) :
    Origin num settings signPrice token price := by
  obtain ⟨ledgerSeq, batches, tr, h⟩ := h
  obtain ⟨first, quotes, rest, -, hquotes, h⟩ := runs_bind.mp h
  obtain ⟨hsources, hfetched⟩ := fetchSources_answers hquotes
  cases hrun : (aggregateQuotes num token quotes).run with
  | error fault =>
      rw [hrun] at h
      obtain ⟨r, _⟩ := runs_ask.mp h
      exact r.elim
  | ok aggregate =>
      rw [hrun] at h
      obtain ⟨-, hprice⟩ := runs_done.mp h
      cases aggregate with
      | error e => cases hprice
      | ok aggregate =>
          obtain ⟨signature, hsigned, hbuilt⟩ := bind_eq_ok.mp hprice.symm
          cases hbuilt
          exact {
            tokenAddress := rfl
            symbol := rfl
            displaySymbol := rfl
            keeperIndex := rfl
            signature := hsigned
            aggregated :=
              ⟨quotes, aggregate, ⟨hsources, hfetched⟩, hrun, rfl, rfl, rfl, rfl, rfl⟩ }

/-- No source is named that the token does not list, and there are enough of them. -/
theorem Origin.sourcesUsed (h : Origin num settings signPrice token price) :
    price.sourcesUsed ⊆ token.sources ∧ token.minSources ≤ price.sourcesUsed.length := by
  obtain ⟨quotes, aggregate, hanswers, haggregate, -, -, -, -, hused⟩ := h.aggregated
  obtain ⟨cluster, filter, hagg⟩ := aggregatePrices_returns haggregate
  rw [hused]
  constructor
  · intro source hsource
    obtain ⟨quoted, hquoted⟩ := Receipts.exists_quote hagg hsource
    exact hanswers.sources.subset (List.mem_map_of_mem hquoted)
  · rw [hagg.sourcesUsed, ← hagg.keeps.lengths]
    exact hagg.enough

end Build

section Main

variable {w v : PriceWorld}

variable (num crates settings signPrice) in
/-- Each price is from a configured token with its key. -/
def OfTokens (prices : PriceMap) : Prop :=
  ∀ (key : String) price, prices[key]? = some price → ∃ token ∈ settings.tokens,
    lookupKey crates token = key ∧ Origin num settings signPrice token price

theorem priceRuns_ofTokens (h : OfTokens num crates settings signPrice w.prices)
    (hrun : PriceRuns num crates settings signPrice ledgerAt w v) :
    OfTokens num crates settings signPrice v.prices :=
  priceRuns_each (P := fun key price => ∃ token ∈ settings.tokens, lookupKey crates token = key ∧
      Origin num settings signPrice token price)
    (fun _ _ _ token htoken _ _ hbuilt => ⟨token, htoken, rfl, origin_of_builtFor hbuilt⟩) h hrun

/-- However often the price loop has run and wherever its cycles were dropped,
each price that is served was built for a configured token, from enough quotes
of its own sources, and is signed as it is served. -/
theorem prices_origin (hempty : ∀ key : String, w.prices[key]? = none)
    (hrun : PriceRuns num crates settings signPrice ledgerAt w v) :
    (∀ e, prices v.app.priceCache = .error e → ∀ key : String, v.prices[key]? = none) ∧
      ∀ served, prices v.app.priceCache = .ok served → served ≠ [] ∧
        ∀ price ∈ served, ∃ token ∈ settings.tokens,
          v.prices[lookupKey crates token]? = some price ∧
          Origin num settings signPrice token price ∧ Anchored ledgerAt price ∧
          price.sourcesUsed ⊆ token.sources ∧ token.minSources ≤ price.sourcesUsed.length := by
  refine ⟨fun e he => prices_eq_error he, fun served hserved => ?_⟩
  obtain ⟨hne, hcached⟩ := prices_eq_ok hserved
  refine ⟨hne, fun price hmem => ?_⟩
  obtain ⟨key, hkey⟩ := hcached price hmem
  have hnone : ∀ {P : String → CachedPrice → Prop} (key : String) price,
      w.prices[key]? = some price → P key price := by
    intro P key price hprice
    rw [hempty key] at hprice
    cases hprice
  obtain ⟨token, htoken, rfl, horigin⟩ := priceRuns_ofTokens hnone hrun key price hkey
  exact ⟨token, htoken, hkey, horigin, priceRuns_anchored hnone hrun _ price hkey,
    horigin.sourcesUsed⟩

theorem prices_origin_sample :
    ∃ served, prices builtWorld.app.priceCache = .ok served ∧ served.length = 1 ∧
      ∀ price ∈ served, Origin exactNumerics slowSettings unsigned slowToken price := by
  have hrun : PriceRuns exactNumerics slowCrates slowSettings unsigned fiveSecondLedgers emptyWorld
      builtWorld := .round .start (visits_play PriceScript.respond_plays _ _) rfl
  have hserved : ((prices builtWorld.app.priceCache).toOption.map List.length) = some 1 := by
    decide +kernel
  obtain ⟨served, hok, hlength⟩ := Option.map_eq_some_iff.mp hserved
  have hanswer : prices builtWorld.app.priceCache = .ok served := by
    cases h : prices builtWorld.app.priceCache with
    | error e =>
        rw [h] at hok
        cases hok
    | ok found =>
        rw [h] at hok
        exact congrArg Except.ok (Option.some.inj hok)
  refine ⟨served, hanswer, hlength, fun price hmem => ?_⟩
  obtain ⟨token, htoken, -, horigin, -⟩ := ((prices_origin (fun _ => Std.TreeMap.getElem?_emptyc)
    hrun).2 served hanswer).2 price hmem
  obtain rfl : token = slowToken := List.mem_singleton.mp htoken
  exact horigin

end Main

end So4Oracle.Provenance
