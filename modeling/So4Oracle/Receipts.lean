import So4Oracle.CycleOutcome
import So4Oracle.Observations
import So4Oracle.PriceScript

namespace So4Oracle.Receipts

open Library.Checked Library.Requests Library.Safety Library.Records Wire Config State StellarRpc
  Prices Sources PriceCycle CycleOutcome Aggregate KeeperScript PriceScript

abbrev PriceStep (F : Type) := Step PriceRequest (PriceRequest.Answer F) PriceWorld

variable {F : Type} (num : Numerics F) (crates : Crates) (settings : Settings)
  (signPrice : SignPrice)

section Gathering

/-- What a cycle has at hand before it fetches its tokens. -/
structure Gathered where
  now : Nat
  ledgerSeq : Nat
  batches : Batches
  cached : PriceMap

def gather : PriceProgram F (Except RpcError Gathered) := do
  let now ← ask .unixTime
  let ledger ← latestLedgerSequence
  let pyth ← fetchPythPrices (pythFeedIds settings)
  match ledger with
  | .error e => do
      recordError settings "get_latest_ledger" e.display
      pure (.error e)
  | .ok ledgerSeq => do
      let binancePrices ← fetchBinanceBatch settings
      let cached ← locked .readPrices
      pure (.ok ⟨now, ledgerSeq, batchesOf pyth binancePrices, cached⟩)

def afterGathering : Except RpcError Gathered →
    PriceProgram F (Except RpcError (List (TokenConfig × TokenOutcome) × Nat))
  | .error e => pure (.error e)
  | .ok gathered => do
      let results ← fetchTokens num settings signPrice gathered.ledgerSeq gathered.batches
        settings.tokens
      let outcomes ← settleTokens crates settings gathered.ledgerSeq results
      publish crates outcomes
      pure (.ok (outcomes, countStale crates settings gathered.now gathered.cached))

theorem priceCycle_eq :
    priceCycle num crates settings signPrice =
      gather settings >>= afterGathering num crates settings signPrice := by
  rw [priceCycle, gather]
  simp only [Program.bind_assoc]
  congr 1
  funext now
  congr 1
  funext ledger
  congr 1
  funext pyth
  cases ledger with
  | error e => rfl
  | ok ledgerSeq =>
      simp only [completeCycle, Program.bind_assoc]
      rfl

end Gathering

section Times

/-- When the last of the requests asked for was answered. -/
def answeredAt (asked : PriceRequest → Bool) (steps : List (PriceStep F)) : Option Nat :=
  (steps.filter fun s => asked s.event.request).getLast?.map fun s => s.before.clock

def asksClock : PriceRequest → Bool
  | .unixTime => true
  | _ => false

/-- The requests that a batched price can come from. -/
def asksBatch (source : String) : PriceRequest → Bool
  | .binancePrices _ => source = "binance"
  | .pythPrices _ => source = "pyth"
  | _ => false

def isBatched (token : TokenConfig) (batches : Batches) (source : String) : Bool :=
  if source = "binance" then batches.binancePrices.isSome
  else source = "pyth" && token.pythFeedId.any fun feedId => batches.pythPrices.contains feedId

/-- When a source's price was received: a batched one with its batch, any other
with the last answer of its own fetch. -/
def receivedAt (token : TokenConfig) (batches : Batches) (gathered : List (PriceStep F))
    (source : String) (fetched : List (PriceStep F)) : Option Nat :=
  if isBatched token batches source then answeredAt (asksBatch source) gathered
  else answeredAt (fun _ => true) fetched

theorem answeredAt_append {asked : PriceRequest → Bool} {earlier last : List (PriceStep F)}
    {time : Nat} (h : answeredAt asked last = some time) :
    answeredAt asked (earlier ++ last) = some time := by
  obtain ⟨s, hs, htime⟩ := Option.map_eq_some_iff.mp h
  simp [answeredAt, List.getLast?_append, hs, htime]

theorem exists_answeredAt {asked : PriceRequest → Bool} {steps : List (PriceStep F)}
    (h : ∃ e ∈ traceOf steps, asked e.request = true) :
    ∃ time, answeredAt asked steps = some time := by
  obtain ⟨e, he, hasked⟩ := h
  obtain ⟨s, hs, rfl⟩ := List.mem_map.mp he
  have hmem : s ∈ steps.filter fun s => asked s.event.request := List.mem_filter.mpr ⟨hs, hasked⟩
  obtain ⟨last, hlast⟩ := Option.isSome_iff_exists.mp
    (List.getLast?_isSome.mpr (List.ne_nil_of_mem hmem))
  exact ⟨last.before.clock, by rw [answeredAt, hlast]; rfl⟩

end Times

section Fetches

variable (token : TokenConfig) (ledgerSeq : Nat) (batches : Batches)

/-- The steps in which a source of the token was fetched, with what came of it. -/
def Fetched (steps : List (PriceStep F)) (source : String) (fetched : List (PriceStep F))
    (quoted : PriceWithObservationTime) : Prop :=
  ∃ earlier later before after quotes, token.sources = earlier ++ source :: later ∧
    steps = before ++ fetched ++ after ∧
    Runs (fetchSources num settings token ledgerSeq batches earlier) (traceOf before) quotes ∧
    Runs (fetchSourceWithRetry num token batches source) (traceOf fetched) (.ok quoted)

end Fetches

section Lookups

variable {num} {ledgerAt : Nat → Nat} {token : TokenConfig} {batches : Batches} {now : Nat}
  {w v : PriceWorld} {steps : List (PriceStep F)} {quoted : PriceWithObservationTime}

theorem interferes_clock (h : (priceTask F ledgerAt).Interferes w v) : w.clock ≤ v.clock := by
  induction h with
  | refl => exact le_rfl
  | tail _ h ih =>
      cases h with
      | tick nanos => exact ih.trans (Nat.le_add_right _ nanos)
      | shared => exact ih

/-- At most one request, which is not for the clock, and not before the given moment. -/
def AtMostOnce (time : Nat) (steps : List (PriceStep F)) : Prop :=
  steps = [] ∨ ∃ s, steps = [s] ∧ asksClock s.event.request = false ∧ time ≤ s.before.clock

theorem fetchBinance_completes
    (h : Completes (priceTask F ledgerAt) (fetchBinance token batches now) w steps (.ok quoted) v) :
    AtMostOnce w.clock steps ∧ quoted.observationTime ≤ now := by
  rw [fetchBinance] at h
  split at h
  next => cases h.done.2.1
  next symbol hsymbol =>
    split at h
    next prices hprices =>
      obtain ⟨rfl, hquoted, -⟩ := h.done
      exact ⟨.inl rfl, observedBy_observedNow le_rfl _ _ quoted hquoted.symm⟩
    next =>
      obtain ⟨x, r, u, rest, rfl, hi, ha, hrest⟩ := Completes.request_bind h
      cases r with
      | error e => cases hrest.done.2.1
      | ok results =>
          obtain ⟨rfl, hquoted, -⟩ := hrest.done
          exact ⟨.inr ⟨_, rfl, rfl, interferes_clock hi⟩,
            observedBy_observedNow le_rfl _ _ quoted hquoted.symm⟩

theorem fetchCoinbase_completes
    (h : Completes (priceTask F ledgerAt) (fetchCoinbase token now) w steps (.ok quoted) v) :
    AtMostOnce w.clock steps ∧ quoted.observationTime ≤ now := by
  rw [fetchCoinbase] at h
  split at h
  next => cases h.done.2.1
  next symbol hsymbol =>
    obtain ⟨x, r, u, rest, rfl, hi, ha, hrest⟩ := Completes.request_bind h
    cases r with
    | error e => cases hrest.done.2.1
    | ok price =>
        obtain ⟨rfl, hquoted, -⟩ := hrest.done
        cases hquoted
        exact ⟨.inr ⟨_, rfl, rfl, interferes_clock hi⟩, le_rfl⟩

theorem fetchPyth_completes
    (h : Completes (priceTask F ledgerAt) (fetchPyth num token batches now) w steps (.ok quoted) v) :
    AtMostOnce w.clock steps ∧ quoted.observationTime ≤ now + maxFutureSkewSeconds := by
  rw [fetchPyth] at h
  split at h
  next => cases h.done.2.1
  next feedId hfeed =>
    split at h
    next feed hbatched =>
      obtain ⟨rfl, hquoted, -⟩ := h.done
      exact ⟨.inl rfl, observedBy_validFeed le_rfl _ quoted hquoted.symm⟩
    next =>
      split at h
      next => cases h.done.2.1
      next =>
        obtain ⟨x, r, u, rest, rfl, hi, ha, hrest⟩ := Completes.request_bind h
        cases r with
        | error e => cases hrest.done.2.1
        | ok feeds =>
            dsimp only at hrest
            split at hrest
            next => cases hrest.done.2.1
            next =>
              obtain ⟨rfl, hquoted, -⟩ := hrest.done
              exact ⟨.inr ⟨_, rfl, rfl, interferes_clock hi⟩,
                observedBy_validFeed le_rfl _ quoted hquoted.symm⟩

/-- The clock that a quote was stamped by was read before the price was received. -/
def Stamped (source : String) (quoted : PriceWithObservationTime) (steps : List (PriceStep F)) : Prop :=
  ∃ lookup received, answeredAt asksClock steps = some lookup ∧
    answeredAt (fun _ => true) steps = some received ∧ lookup ≤ received ∧
    (source ≠ "pyth" → quoted.observationTime ≤ secondsOf lookup) ∧
    quoted.observationTime ≤ secondsOf lookup + maxFutureSkewSeconds

theorem stamped_of_lookup {source : String} {x : PriceWorld} {r : Nat} {u : PriceWorld}
    (hrest : AtMostOnce x.clock steps)
    (hnow : source ≠ "pyth" → quoted.observationTime ≤ secondsOf x.clock)
    (hskew : quoted.observationTime ≤ secondsOf x.clock + maxFutureSkewSeconds) :
    Stamped source quoted (⟨x, ⟨.unixTime, r⟩, u⟩ :: steps) := by
  rcases hrest with rfl | ⟨s, rfl, hclock, htime⟩
  · exact ⟨x.clock, x.clock, rfl, rfl, le_rfl, hnow, hskew⟩
  · refine ⟨x.clock, s.before.clock, ?_, rfl, htime, hnow, hskew⟩
    rw [answeredAt, List.filter_cons_of_pos rfl, List.filter_cons_of_neg (by simp [hclock])]
    rfl

theorem fetchSourcePrice_completes {source : String}
    (h : Completes (priceTask F ledgerAt) (fetchSourcePrice num token batches source) w steps
      (.ok quoted) v) : Stamped source quoted steps := by
  obtain ⟨x, r, u, rest, rfl, -, ⟨-, rfl, rfl⟩, hrest⟩ := Completes.request_bind h
  have hown : AtMostOnce u.clock rest ∧ quoted.observationTime ≤ secondsOf u.clock →
      Stamped source quoted (⟨u, ⟨.unixTime, secondsOf u.clock⟩, u⟩ :: rest) := by
    rintro ⟨honce, hnow⟩
    exact stamped_of_lookup honce (fun _ => hnow) (hnow.trans (Nat.le_add_right _ _))
  split at hrest
  next => exact hown (fetchBinance_completes hrest)
  next =>
    split at hrest
    next => exact hown (fetchCoinbase_completes hrest)
    next =>
      split at hrest
      next hpyth =>
        obtain ⟨honce, hskew⟩ := fetchPyth_completes hrest
        exact stamped_of_lookup honce (fun hne => absurd hpyth hne) hskew
      next =>
        split at hrest
        next =>
          obtain ⟨rfl, hquoted, -⟩ := hrest.done
          exact hown ⟨.inl rfl, observedBy_fetchFixed le_rfl quoted hquoted.symm⟩
        next => cases hrest.done.2.1

theorem fetchSourceWithRetry_completes {source : String}
    (h : Completes (priceTask F ledgerAt) (fetchSourceWithRetry num token batches source) w steps
      (.ok quoted) v) : Stamped source quoted steps := by
  obtain ⟨earlier, last, x, rfl, hlast⟩ := Retry.retryFrom_completes h
  obtain ⟨lookup, received, hlookup, hreceived, hle, hnow, hskew⟩ := fetchSourcePrice_completes hlast
  exact ⟨lookup, received, answeredAt_append hlookup, answeredAt_append hreceived, hle, hnow, hskew⟩

end Lookups

section Sources

variable {num settings} {ledgerAt : Nat → Nat} {token : TokenConfig} {ledgerSeq : Nat}
  {batches : Batches} {w v : PriceWorld} {steps : List (PriceStep F)}
  {quotes : List (String × PriceWithObservationTime)}

theorem fetchSources_append (earlier later : List String) :
    fetchSources num settings token ledgerSeq batches (earlier ++ later) = (do
      let first ← fetchSources num settings token ledgerSeq batches earlier
      let rest ← fetchSources num settings token ledgerSeq batches later
      pure (first ++ rest)) := by
  induction earlier with
  | nil => simp [fetchSources]
  | cons source earlier ih =>
      rw [List.cons_append, fetchSources, fetchSources, Program.bind_assoc]
      congr 1
      funext r
      cases r with
      | ok quoted => simp [ih]
      | error e => simp [ih]

theorem names_sublist {sources : List String}
    (h : Completes (priceTask F ledgerAt) (fetchSources num settings token ledgerSeq batches sources)
      w steps quotes v) : (quotes.map Prod.fst).Sublist sources := by
  induction sources generalizing w v steps quotes with
  | nil =>
      obtain ⟨-, rfl, -⟩ := h.done
      exact .slnil
  | cons source sources ih =>
      obtain ⟨first, r, rest, x, rfl, -, hrest⟩ := Completes.bind h
      cases r with
      | ok quoted =>
          obtain ⟨second, others, last, y, rfl, hothers, hlast⟩ := Completes.bind hrest
          obtain ⟨-, rfl, -⟩ := hlast.done
          exact (ih hothers).cons_cons source
      | error e =>
          obtain ⟨y, _, u, others, rfl, -, -, hothers⟩ := Completes.request_bind hrest
          exact (ih hothers).cons source

/-- The fetch of a source is a run of its own, and its quote is among the quotes. -/
theorem Fetched.completes {source : String} {fetched : List (PriceStep F)}
    {quoted : PriceWithObservationTime} {after : List (PriceStep F)}
    (h : Fetched num settings token ledgerSeq batches (steps ++ after) source fetched quoted)
    (hquotes : Completes (priceTask F ledgerAt)
      (fetchSources num settings token ledgerSeq batches token.sources) w steps quotes v) :
    (source, quoted) ∈ quotes ∧ ∃ x y, Completes (priceTask F ledgerAt)
      (fetchSourceWithRetry num token batches source) x fetched (.ok quoted) y := by
  obtain ⟨earlier, later, before, beyond, others, hsources, hsteps, hbefore, hfetched⟩ := h
  rw [hsources, fetchSources_append] at hquotes
  obtain ⟨first, names, rest, x, rfl, hfirst, hrest⟩ := Completes.bind hquotes
  obtain ⟨second, results, last, y, rfl, hsecond, hlast⟩ := Completes.bind hrest
  obtain ⟨rfl, rfl, -⟩ := hlast.done
  obtain ⟨third, r, remaining, z, rfl, hthird, hremaining⟩ := Completes.bind hsecond
  simp only [List.append_assoc, List.append_nil] at hsteps
  obtain ⟨rfl, hafter, -⟩ := steps_unique hfirst.runs hbefore hsteps
  obtain ⟨rfl, -, rfl⟩ := steps_unique hthird.runs hfetched hafter
  refine ⟨List.mem_append_right _ ?_, x, z, hthird⟩
  obtain ⟨fourth, others', end_, u, rfl, -, hend⟩ := Completes.bind hremaining
  obtain ⟨-, rfl, -⟩ := hend.done
  exact List.mem_cons_self

theorem exists_fetched {sources : List String} {source : String} {quoted : PriceWithObservationTime}
    (h : Completes (priceTask F ledgerAt) (fetchSources num settings token ledgerSeq batches sources)
      w steps quotes v) (hmem : (source, quoted) ∈ quotes) :
    ∃ earlier later before fetched after others, sources = earlier ++ source :: later ∧
      steps = before ++ fetched ++ after ∧
      Runs (fetchSources num settings token ledgerSeq batches earlier) (traceOf before) others ∧
      Runs (fetchSourceWithRetry num token batches source) (traceOf fetched) (.ok quoted) := by
  induction sources generalizing w v steps quotes with
  | nil =>
      obtain ⟨-, rfl, -⟩ := h.done
      cases hmem
  | cons asked sources ih =>
      obtain ⟨first, r, rest, x, rfl, hfirst, hrest⟩ := Completes.bind h
      cases r with
      | ok got =>
          obtain ⟨second, results, last, y, rfl, hresults, hlast⟩ := Completes.bind hrest
          obtain ⟨rfl, rfl, -⟩ := hlast.done
          rcases List.mem_cons.mp hmem with heq | hmem
          · cases heq
            exact ⟨[], sources, [], first, second ++ [], [], rfl, rfl, .done [], hfirst.runs⟩
          · obtain ⟨earlier, later, before, fetched, after, others, rfl, rfl, hbefore, hfetched⟩ :=
              ih hresults hmem
            refine ⟨asked :: earlier, later, first ++ before, fetched, after, (asked, got) :: others,
              rfl, by simp, ?_, hfetched⟩
            rw [traceOf, List.map_append]
            exact runs_bind.mpr ⟨_, .ok got, _, rfl, hfirst.runs,
              runs_bind.mpr ⟨_, others, [], (List.append_nil _).symm, hbefore, .done _⟩⟩
      | error e =>
          obtain ⟨y, reply, u, second, rfl, -, -, hsecond⟩ := Completes.request_bind hrest
          obtain ⟨earlier, later, before, fetched, after, others, rfl, rfl, hbefore, hfetched⟩ :=
            ih hsecond hmem
          refine ⟨asked :: earlier, later, first ++ ⟨y, ⟨_, reply⟩, u⟩ :: before, fetched, after,
            others, rfl, by simp, ?_, hfetched⟩
          rw [traceOf, List.map_append]
          exact runs_bind.mpr ⟨_, .error e, _, rfl, hfirst.runs, .ask _ reply hbefore⟩

end Sources

section Prices

variable {num settings signPrice} {ledgerAt : Nat → Nat} {token : TokenConfig} {ledgerSeq : Nat}
  {batches : Batches} {w v : PriceWorld} {steps : List (PriceStep F)} {price : CachedPrice}

def observations (quotes : List (String × PriceWithObservationTime)) : List Observations.Observation :=
  quotes.map fun q => ⟨q.2.price, q.1, q.2.observationTime⟩

theorem exists_quote {quotes : List (String × PriceWithObservationTime)} {agg : AggregatedPrice F}
    {cluster : ClusterResult} {filter : OutlierFilterResult F}
    (h : Aggregated num.toFloatOps (quotes.map fun q => q.2.price) (quotes.map fun q => q.1)
      (quotes.map fun q => q.2.observationTime) token.minSources token.maxDeviationBps agg cluster
      filter) {source : String} (hused : source ∈ agg.sourcesUsed) :
    ∃ quoted, (source, quoted) ∈ quotes := by
  rw [← h.kept_sources] at hused
  obtain ⟨kept, hkept, rfl⟩ := List.mem_map.mp hused
  obtain ⟨q, hq, hname⟩ := List.mem_map.mp (List.of_mem_zip (h.mem_of_kept hkept)).2
  exact ⟨q.2, hname ▸ hq⟩

/-- No source that was used was stamped earlier than the price. -/
theorem timestamp_le {quotes : List (String × PriceWithObservationTime)}
    {agg : AggregatedPrice F} {cluster : ClusterResult} {filter : OutlierFilterResult F}
    (h : Aggregated num.toFloatOps (quotes.map fun q => q.2.price) (quotes.map fun q => q.1)
      (quotes.map fun q => q.2.observationTime) token.minSources token.maxDeviationBps agg cluster
      filter) (hsources : (quotes.map Prod.fst).Nodup) {source : String}
    {quoted : PriceWithObservationTime} (hmem : (source, quoted) ∈ quotes)
    (hused : source ∈ agg.sourcesUsed) : agg.minObservationTime ≤ quoted.observationTime := by
  have hnames : Observations.sources (observations quotes) = quotes.map Prod.fst := by
    simp [Observations.sources, observations]
  have htimes : Observations.times (observations quotes) = quotes.map fun q => q.2.observationTime := by
    simp [Observations.times, observations]
  have hoccurs : quoted.observationTime ∈ observationTimesOf filter.filteredSources
      (quotes.map fun q => q.1) (quotes.map fun q => q.2.observationTime) := by
    rw [← hnames, ← htimes, Observations.mem_observationTimesOf (hnames ▸ hsources)]
    refine ⟨⟨quoted.price, source, quoted.observationTime⟩, ?_, h.sourcesUsed ▸ hused, rfl⟩
    exact List.mem_map_of_mem hmem
  exact (List.min?_eq_some_iff.mp h.minObservationTime).2 _ hoccurs

theorem buildCachedPrice_completes
    (h : Completes (priceTask F ledgerAt)
      (buildCachedPrice num settings signPrice token ledgerSeq batches) w steps (.ok price) v) :
    ∃ first rest quotes x, steps = first ++ rest ∧
      Completes (priceTask F ledgerAt)
        (fetchSources num settings token ledgerSeq batches token.sources) w first quotes x ∧
      ∃ agg, Returns (aggregateQuotes num token quotes) agg ∧
        signedCachedPrice settings signPrice token ledgerSeq agg = .ok price := by
  obtain ⟨first, quotes, rest, x, rfl, hquotes, hrest⟩ := Completes.bind h
  refine ⟨first, rest, quotes, x, rfl, hquotes, ?_⟩
  cases hrun : (aggregateQuotes num token quotes).run with
  | error fault =>
      rw [hrun] at hrest
      obtain ⟨r, -⟩ := runs_ask.mp hrest.runs
      exact r.elim
  | ok aggregate =>
      rw [hrun] at hrest
      obtain ⟨-, hprice, -⟩ := hrest.done
      cases aggregate with
      | error e => cases hprice
      | ok agg => exact ⟨agg, hrun, hprice.symm⟩

theorem signedCachedPrice_eq_ok {agg : AggregatedPrice F}
    (h : signedCachedPrice settings signPrice token ledgerSeq agg = .ok price) :
    price.sourcesUsed = agg.sourcesUsed ∧ price.timestamp = agg.minObservationTime ∧
      signPrice ledgerSeq token.stellarAddress price.min price.max price.timestamp =
        .ok price.signature := by
  obtain ⟨signature, hsignature, hprice⟩ := bind_eq_ok.mp h
  cases hprice
  exact ⟨rfl, rfl, hsignature⟩

end Prices

section Batched

variable {settings} {token : TokenConfig} {gathered : Gathered} {source : String}
  {tr : List (Event PriceRequest (PriceRequest.Answer F))}

theorem fetchBinanceBatch_asked {prices : KeyMap Int}
    (h : Runs (fetchBinanceBatch settings) tr (some prices)) :
    ∃ e ∈ tr, asksBatch "binance" e.request = true := by
  rw [fetchBinanceBatch] at h
  split at h
  next => cases (runs_done.mp h).2
  next =>
    obtain ⟨r, rest, rfl, -⟩ := runs_request_bind.mp h
    exact ⟨_, List.mem_cons_self, rfl⟩

theorem fetchPythPrices_asked {feedIds : List String} {prices : KeyMap PythPriceFeed} {feedId : String}
    (h : Runs (fetchPythPrices feedIds) tr (.ok prices)) (hfeed : prices.contains feedId = true) :
    ∃ e ∈ tr, asksBatch "pyth" e.request = true := by
  rw [fetchPythPrices] at h
  split at h
  next =>
    cases (runs_done.mp h).2
    simp at hfeed
  next =>
    obtain ⟨r, rest, rfl, -⟩ := runs_ask.mp h
    exact ⟨_, List.mem_cons_self, rfl⟩

/-- A batched price was in a batch that was asked for. -/
theorem gather_asked (h : Runs (gather settings) tr (.ok gathered))
    (hbatched : isBatched token gathered.batches source = true) :
    ∃ e ∈ tr, asksBatch source e.request = true := by
  obtain ⟨now, afterNow, rfl, hnow⟩ := runs_request_bind.mp h
  obtain ⟨ledgerRun, ledger, afterLedger, rfl, -, hledger⟩ := runs_bind.mp hnow
  obtain ⟨pythRun, pyth, afterPyth, rfl, hpyth, hrest⟩ := runs_bind.mp hledger
  cases ledger with
  | error e =>
      obtain ⟨recorded, last, -, hlast⟩ := runs_request_bind.mp hrest
      cases (runs_done.mp hlast).2
  | ok ledgerSeq =>
      obtain ⟨binanceRun, binance, afterBinance, rfl, hbinance, hread⟩ := runs_bind.mp hrest
      obtain ⟨cached, last, rfl, hlast⟩ := runs_request_bind.mp hread
      cases (runs_done.mp hlast).2
      unfold isBatched at hbatched
      split at hbatched
      next hsource =>
        have hsome : binance.isSome = true := by
          cases pyth <;> exact hbatched
        obtain ⟨prices, rfl⟩ := Option.isSome_iff_exists.mp hsome
        obtain ⟨e, he, hasks⟩ := fetchBinanceBatch_asked hbinance
        exact ⟨e, by simp [he], hsource ▸ hasks⟩
      next =>
        rw [Bool.and_eq_true, decide_eq_true_eq] at hbatched
        obtain ⟨hsource, hfeed⟩ := hbatched
        obtain ⟨feedId, -, hfeed⟩ := (Option.any_eq_true _ _).mp hfeed
        cases pyth with
        | error e => simp [batchesOf] at hfeed
        | ok prices =>
            obtain ⟨e, he, hasks⟩ := fetchPythPrices_asked hpyth hfeed
            exact ⟨e, by simp [he], hsource ▸ hasks⟩

end Batched

section Built

variable (ledgerAt : Nat → Nat) (token : TokenConfig)

/-- A cycle that has gathered its batches, and then the fetches of one of its
tokens, beside which those of the others go on. -/
def Built (w : PriceWorld) (gathering : List (PriceStep F)) (gathered : Gathered)
    (steps : List (PriceStep F)) (price : CachedPrice) : Prop :=
  ∃ v u, Completes (priceTask F ledgerAt) (gather settings) w gathering (.ok gathered) v ∧
    Completes (priceTask F ledgerAt)
      (buildCachedPrice num settings signPrice token gathered.ledgerSeq gathered.batches) v steps
      (.ok price) u

/-- The price is not stamped later than any of its sources was received. -/
def NotNewer (gathering : List (PriceStep F)) (gathered : Gathered) (steps : List (PriceStep F))
    (price : CachedPrice) : Prop :=
  ∀ source ∈ price.sourcesUsed, ∀ fetched quoted received,
    Fetched num settings token gathered.ledgerSeq gathered.batches steps source fetched quoted →
    receivedAt token gathered.batches gathering source fetched = some received →
    price.timestamp * nanosPerSecond ≤ received

/-- A whole price cycle begins so. -/
def OpensCycle (w : PriceWorld) (gathering : List (PriceStep F)) : Prop :=
  ∃ tail result u, Completes (priceTask F ledgerAt) (priceCycle num crates settings signPrice) w
    (gathering ++ tail) result u

variable {num crates settings signPrice ledgerAt} in
theorem opensCycle_of_gathered {w v u : PriceWorld} {gathering tail : List (PriceStep F)}
    {gathered : Gathered} {result : Except RpcError (List (TokenConfig × TokenOutcome) × Nat)}
    (hgather : Completes (priceTask F ledgerAt) (gather settings) w gathering (.ok gathered) v)
    (hrest : Completes (priceTask F ledgerAt)
      (afterGathering num crates settings signPrice (.ok gathered)) v tail result u) :
    OpensCycle num crates settings signPrice ledgerAt w gathering := by
  refine ⟨tail, result, u, ?_⟩
  rw [priceCycle_eq]
  exact hgather.append hrest

end Built

variable {num settings signPrice} {ledgerAt : Nat → Nat} {token : TokenConfig} {w : PriceWorld}
  {gathering steps : List (PriceStep F)} {gathered : Gathered} {price : CachedPrice}

theorem built_fetched
    (h : Built num settings signPrice ledgerAt token w gathering gathered steps price)
    {source : String} (hsource : source ∈ price.sourcesUsed) :
    ∃ fetched quoted,
      Fetched num settings token gathered.ledgerSeq gathered.batches steps source fetched quoted := by
  obtain ⟨v, u, -, hbuild⟩ := h
  obtain ⟨first, rest, quotes, x, rfl, hquotes, agg, hagg, hprice⟩ := buildCachedPrice_completes hbuild
  obtain ⟨cluster, filter, haggregated⟩ := aggregatePrices_returns hagg
  obtain ⟨hused, -⟩ := signedCachedPrice_eq_ok hprice
  obtain ⟨quoted, hmem⟩ := exists_quote haggregated (hused ▸ hsource)
  obtain ⟨earlier, later, before, fetched, after, others, hsplit, rfl, hbefore, hfetched⟩ :=
    exists_fetched hquotes hmem
  exact ⟨fetched, quoted, earlier, later, before, after ++ rest, others, hsplit, by simp, hbefore,
    hfetched⟩

section Samples

/-- Coinbase answers after five seconds, everything else at once. -/
def waitForCoinbase (q : PriceRequest) (w : PriceWorld) : PriceWorld :=
  match q with
  | .coinbasePrice _ => { w with clock := w.clock + 5 * nanosPerSecond }
  | _ => w

/-- Each batch is answered too, with one feed for every id and one Binance price. -/
def respondWith (coinbase : Except ClientError Int) (feed : PythPriceFeed) :
    Player PriceRequest (PriceRequest.Answer F) PriceWorld := fun q w =>
  if w.clock ≤ w.cycleStart + priceCycleTimeout then
    match q with
    | .pythPrices feedIds => some (.ok (.ofList (feedIds.map fun feedId => (feedId, feed))), w)
    | .binancePrices symbols => some (.ok (symbols.map fun symbol => (symbol, 100 * 10 ^ 30)), w)
    | q => respond F (fun _ => coinbase) fiveSecondLedgers q w
  else none

theorem interferes_wait (q : PriceRequest) (w : PriceWorld) :
    (priceTask F ledgerAt).Interferes w (waitForCoinbase q w) := by
  cases q with
  | coinbasePrice => exact .single (.tick w _)
  | _ => exact .refl

theorem respondWith_answers (coinbase : Except ClientError Int) (feed : PythPriceFeed)
    (q : PriceRequest) (w : PriceWorld) (r : PriceRequest.Answer F q) (u : PriceWorld)
    (h : respondWith coinbase feed q w = some (r, u)) :
    (priceTask F fiveSecondLedgers).answer q w r u := by
  unfold respondWith at h
  split at h
  next hcycle =>
    cases q with
    | pythPrices | binancePrices =>
        cases h
        exact ⟨hcycle, rfl⟩
    | _ => exact respond_answers h
  next => cases h

variable (settings token w) in
/-- Whether the player's cycle comes to its end and builds a price that passes the check. -/
def builds (coinbase : Except ClientError Int) (feed : PythPriceFeed)
    (test : List (PriceStep (Option ℚ)) → Gathered → CachedPrice → Bool) : Bool :=
  (attend waitForCoinbase (respondWith coinbase feed) (gather settings) w).any fun first =>
    first.2.1.toOption.any fun gathered =>
      (attend waitForCoinbase (respondWith coinbase feed) (buildCachedPrice exactNumerics settings
        unsigned token gathered.ledgerSeq gathered.batches) first.2.2).any fun last =>
        last.2.1.toOption.any fun price => test first.1 gathered price &&
          (attend waitForCoinbase (respondWith coinbase feed) (afterGathering exactNumerics nodeCrates
            settings unsigned (.ok gathered)) first.2.2).isSome

theorem exists_built {coinbase : Except ClientError Int} {feed : PythPriceFeed}
    {test : List (PriceStep (Option ℚ)) → Gathered → CachedPrice → Bool}
    (h : builds settings token w coinbase feed test = true) :
    ∃ gathering gathered steps price,
      OpensCycle exactNumerics nodeCrates settings unsigned fiveSecondLedgers w gathering ∧
      Built exactNumerics settings unsigned fiveSecondLedgers token w gathering gathered steps price ∧
      test gathering gathered price = true := by
  obtain ⟨⟨gathering, opened, v⟩, hgather, h⟩ := (Option.any_eq_true _ _).mp h
  obtain ⟨gathered, hgathered, h⟩ := (Option.any_eq_true _ _).mp h
  obtain ⟨⟨steps, result, u⟩, hbuild, h⟩ := (Option.any_eq_true _ _).mp h
  obtain ⟨price, hprice, htest⟩ := (Option.any_eq_true _ _).mp h
  obtain ⟨htest, hends⟩ := Bool.and_eq_true_iff.mp htest
  obtain ⟨⟨tail, outcome, x⟩, hrest⟩ := Option.isSome_iff_exists.mp hends
  obtain rfl := eq_ok_of_toOption hgathered
  obtain rfl := eq_ok_of_toOption hprice
  have hgathers := completes_of_attend interferes_wait (respondWith_answers coinbase feed) hgather
  exact ⟨gathering, gathered, steps, price,
    opensCycle_of_gathered hgathers
      (completes_of_attend interferes_wait (respondWith_answers coinbase feed) hrest),
    ⟨v, u, hgathers,
      completes_of_attend interferes_wait (respondWith_answers coinbase feed) hbuild⟩, htest⟩

/-- The price of a batch that was received before its stamp. -/
theorem Built.not_notNewer
    (h : Built num settings signPrice ledgerAt token w gathering gathered steps price)
    {source : String} (hsource : source ∈ price.sourcesUsed)
    (hbatched : isBatched token gathered.batches source = true) {received : Nat}
    (hreceived : answeredAt (asksBatch source) gathering = some received)
    (hlate : received < price.timestamp * nanosPerSecond) :
    ¬NotNewer num settings token gathering gathered steps price := by
  intro hnewest
  obtain ⟨fetched, quoted, hfetched⟩ := built_fetched h hsource
  have hat : receivedAt token gathered.batches gathering source fetched = some received := by
    rw [receivedAt, if_pos hbatched, hreceived]
  have hle := hnewest source hsource fetched quoted received hfetched hat
  omega

/-- The batch is as old as the world, and the price used from it has a later stamp. -/
def stampedAfter (token : TokenConfig) (source : String) (w : PriceWorld)
    (gathering : List (PriceStep F)) (gathered : Gathered) (price : CachedPrice) : Bool :=
  price.sourcesUsed.contains source && isBatched token gathered.batches source &&
    answeredAt (asksBatch source) gathering == some w.clock &&
    decide (w.clock < price.timestamp * nanosPerSecond)

theorem exists_newer {coinbase : Except ClientError Int} {feed : PythPriceFeed} {source : String}
    (h : builds settings token w coinbase feed (stampedAfter token source w) = true) :
    ∃ gathering gathered steps price,
      OpensCycle exactNumerics nodeCrates settings unsigned fiveSecondLedgers w gathering ∧
      Built exactNumerics settings unsigned fiveSecondLedgers token w gathering gathered steps price ∧
      ¬NotNewer exactNumerics settings token gathering gathered steps price := by
  obtain ⟨gathering, gathered, steps, price, hcycle, hbuilt, htest⟩ :=
    exists_built h
  simp only [stampedAfter, Bool.and_eq_true, List.contains_iff_mem, beq_iff_eq,
    decide_eq_true_eq] at htest
  obtain ⟨⟨⟨hused, hbatched⟩, hreceived⟩, hlate⟩ := htest
  exact ⟨gathering, gathered, steps, price, hcycle, hbuilt,
    hbuilt.not_notNewer hused hbatched hreceived hlate⟩

def bitcoinToken : TokenConfig :=
  { sampleToken with
    sources := ["coinbase", "binance"], coinbaseSymbol := some "BTC-USD"
    binanceSymbol := some "BTCUSDT", minSources := 1 }

def etherToken : TokenConfig :=
  { defaultTokenConfig with
    symbol := "ETH", stellarAddress := "CETH", sources := ["coinbase", "pyth"]
    coinbaseSymbol := some "ETH-USD", pythFeedId := some "e7", minSources := 1 }

def batchedSettings : Settings := { sampleSettings with tokens := [bitcoinToken, etherToken] }

/-- The price loop at second 1000. -/
def atThousand : PriceWorld where
  clock := 1000 * nanosPerSecond
  cycleStart := 1000 * nanosPerSecond
  app := .new

def noAnswer : Except ClientError Int := .error ⟨"Coinbase request timed out", false⟩

/-- A price of one hundred that is published at the given second. -/
def feedAt (publishTime : Int) : PythPriceFeed :=
  ⟨"e7", { price := "100", conf := none, expo := 0, publishTime := some publishTime }⟩

end Samples

/-- Every source used was fetched and its price received. The timestamp that is
signed is not later, but for a Pyth price, which may be ahead of the clock, and a
Binance price from the batch. -/
theorem built_timestamp (hsources : token.sources.Nodup)
    (h : Built num settings signPrice ledgerAt token w gathering gathered steps price) :
    signPrice gathered.ledgerSeq token.stellarAddress price.min price.max price.timestamp =
        .ok price.signature ∧
      ∀ source ∈ price.sourcesUsed,
        (∃ fetched quoted, Fetched num settings token gathered.ledgerSeq gathered.batches steps
          source fetched quoted) ∧
        ∀ fetched quoted,
          Fetched num settings token gathered.ledgerSeq gathered.batches steps source fetched quoted →
          ∃ lookup received, answeredAt asksClock fetched = some lookup ∧
            receivedAt token gathered.batches gathering source fetched = some received ∧
            (source = "pyth" → price.timestamp ≤ secondsOf lookup + maxFutureSkewSeconds) ∧
            (source ≠ "pyth" → isBatched token gathered.batches source = false →
              price.timestamp * nanosPerSecond ≤ received) := by
  have hfetches : ∀ source ∈ price.sourcesUsed, ∃ fetched quoted, Fetched num settings token
      gathered.ledgerSeq gathered.batches steps source fetched quoted :=
    fun source hsource => built_fetched h hsource
  obtain ⟨v, u, hgather, hbuild⟩ := h
  obtain ⟨first, rest, quotes, x, rfl, hquotes, agg, hagg, hprice⟩ := buildCachedPrice_completes hbuild
  obtain ⟨hused, htimestamp, hsigned⟩ := signedCachedPrice_eq_ok hprice
  obtain ⟨cluster, filter, haggregated⟩ := aggregatePrices_returns hagg
  have hnames : (quotes.map Prod.fst).Nodup := hsources.sublist (names_sublist hquotes)
  refine ⟨hsigned, fun source hsource => ⟨?_, fun fetched quoted hfetched => ?_⟩⟩
  · exact hfetches source hsource
  · obtain ⟨hmem, y, z, hrun⟩ := hfetched.completes hquotes
    obtain ⟨lookup, arrived, hlookup, harrived, hle, hnow, hskew⟩ := fetchSourceWithRetry_completes hrun
    have hstamp : price.timestamp ≤ quoted.observationTime :=
      htimestamp ▸ timestamp_le haggregated hnames hmem (hused ▸ hsource)
    have hreceived : ∃ received, receivedAt token gathered.batches gathering source fetched =
        some received ∧ (isBatched token gathered.batches source = false → received = arrived) := by
      rw [receivedAt]
      split
      next hbatched =>
        obtain ⟨received, hreceived⟩ := exists_answeredAt (gather_asked hgather.runs hbatched)
        exact ⟨received, hreceived, fun hnot => absurd hbatched (by simp [hnot])⟩
      next => exact ⟨arrived, harrived, fun _ => rfl⟩
    obtain ⟨received, hreceived, hown⟩ := hreceived
    refine ⟨lookup, received, hlookup, hreceived, fun _ => hstamp.trans hskew, fun hpyth hbatched => ?_⟩
    rw [hown hbatched]
    calc price.timestamp * nanosPerSecond
        ≤ secondsOf lookup * nanosPerSecond := Nat.mul_le_mul_right _ (hstamp.trans (hnow hpyth))
      _ ≤ lookup := Nat.div_mul_le_self _ _
      _ ≤ arrived := hle

/-- Both sources of a token answer, Coinbase after five seconds. -/
theorem built_timestamp_etherToken :
    ∃ gathering gathered steps price fetched received,
      OpensCycle exactNumerics nodeCrates batchedSettings unsigned fiveSecondLedgers atThousand
        gathering ∧
      Built exactNumerics batchedSettings unsigned fiveSecondLedgers etherToken atThousand gathering
        gathered steps price ∧
      receivedAt etherToken gathered.batches gathering "coinbase" fetched = some received ∧
      price.timestamp * nanosPerSecond ≤ received := by
  have hruns : builds batchedSettings etherToken atThousand (.ok (100 * 10 ^ 30)) (feedAt 1003)
      (fun _ _ price => price.sourcesUsed.contains "coinbase") = true := by decide +kernel
  obtain ⟨gathering, gathered, steps, price, hcycle, hbuilt, hused⟩ := exists_built hruns
  obtain ⟨-, hsources⟩ := built_timestamp (by decide) hbuilt
  obtain ⟨⟨fetched, quoted, hfetched⟩, hbounds⟩ :=
    hsources "coinbase" (List.contains_iff_mem.mp hused)
  obtain ⟨lookup, received, -, hreceived, -, hle⟩ := hbounds fetched quoted hfetched
  exact ⟨gathering, gathered, steps, price, fetched, received, hcycle, hbuilt, hreceived,
    hle (by decide) (by simp [isBatched])⟩

/-- Coinbase does not answer for the first token, whose Binance price is then
stamped five seconds after the batch, and the second one's Pyth price is ahead of
the clock. -/
theorem built_newer :
    (∃ gathering gathered steps price,
      OpensCycle exactNumerics nodeCrates batchedSettings unsigned fiveSecondLedgers atThousand
        gathering ∧
      Built exactNumerics batchedSettings unsigned fiveSecondLedgers bitcoinToken atThousand gathering
        gathered steps price ∧
      ¬NotNewer exactNumerics batchedSettings bitcoinToken gathering gathered steps price) ∧
    ∃ gathering gathered steps price,
      OpensCycle exactNumerics nodeCrates batchedSettings unsigned fiveSecondLedgers atThousand
        gathering ∧
      Built exactNumerics batchedSettings unsigned fiveSecondLedgers etherToken atThousand gathering
        gathered steps price ∧
      ¬NotNewer exactNumerics batchedSettings etherToken gathering gathered steps price := by
  constructor
  · have hbinance : builds batchedSettings bitcoinToken atThousand noAnswer (feedAt 1000)
        (stampedAfter bitcoinToken "binance" atThousand) = true := by decide +kernel
    exact exists_newer hbinance
  · have hpyth : builds batchedSettings etherToken atThousand noAnswer (feedAt 1020)
        (stampedAfter etherToken "pyth" atThousand) = true := by decide +kernel
    exact exists_newer hpyth

end So4Oracle.Receipts
