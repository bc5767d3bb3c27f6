import So4Oracle.Aggregate
import So4Oracle.PriceCycle

namespace So4Oracle.CycleOutcome

open Library.Checked Library.Requests Library.Safety Wire Config State StellarRpc Prices Sources
  PriceCycle

variable {F : Type} {num : Numerics F} {crates : Crates} {settings : Settings}
  {signPrice : SignPrice} {ledgerAt : Nat → Nat}

/-- A cycle that has not published yet. -/
structure Underway (prices : PriceMap) (start : Nat) (w : PriceWorld) : Prop where
  prices : w.prices = prices
  cycleStart : w.cycleStart = start
  started : start ≤ w.clock

def KeepsPrices : PriceRequest → Prop
  | .state op => op.writesPrices = false
  | _ => True

/-- No observation of a cycle is later: its last request is answered before the
timeout, and a publish time may be ahead of the clock by the allowed skew. -/
def latestObservation (start : Nat) : Nat :=
  secondsOf (start + priceCycleTimeout) + maxFutureSkewSeconds

variable {prices : PriceMap} {start : Nat} {w : PriceWorld}

section Requests

theorem underway_stable : (priceTask F ledgerAt).Stable (Underway prices start) := by
  intro w v hw hi
  refine ⟨(interference_prices hi).trans hw.prices, ?_, ?_⟩
  · cases hi <;> exact hw.cycleStart
  · have h := hw.started
    cases hi with
    | tick nanos => exact h.trans (Nat.le_add_right w.clock nanos)
    | shared => exact h

theorem Underway.answered {q : PriceRequest} (hq : KeepsPrices q) (hw : Underway prices start w)
    {r : PriceRequest.Answer F q} {v : PriceWorld} (ha : answers ledgerAt q w r v) :
    Underway prices start v := by
  cases q with
  | state op =>
      rw [ha.2]
      exact ⟨(run_prices hq w.clock w.app).trans hw.prices, hw.cycleStart, hw.started⟩
  | unixTime | latestLedger =>
      rw [ha.2]
      exact hw
  | pythPrices | binancePrices | coinbasePrice =>
      obtain rfl : v = w := ha
      exact hw
  | abort => exact ha.elim

theorem quiet_safe {α : Type} {p : PriceProgram F α} (hp : p.Asks KeepsPrices)
    (hw : Underway prices start w) :
    Safe (priceTask F ledgerAt) (Underway prices start) p (fun _ _ => True) w :=
  (Safe.of_asks underway_stable (fun _ h => h) hp
    (fun _ hq _ _ _ hv ha => hv.answered hq ha.2) hw).mono (fun _ _ _ _ => trivial)

/-- One request, answered within the time of the cycle. -/
theorem ask_safe {α : Type} {q : PriceRequest} {f : PriceRequest.Answer F q → PriceProgram F α}
    {Q : α → PriceWorld → Prop} (hq : KeepsPrices q) (hw : Underway prices start w)
    (h : ∀ v r u, Underway prices start v → Underway prices start u →
      v.clock ≤ start + priceCycleTimeout → answers ledgerAt q v r u →
        Safe (priceTask F ledgerAt) (Underway prices start) (f r) Q u) :
    Safe (priceTask F ledgerAt) (Underway prices start) (ask q >>= f) Q w :=
  Safe.request_bind underway_stable (fun _ h => h) hw (fun v r u hv ha =>
    h v r u hv (hv.answered hq ha.2) (hv.cycleStart ▸ ha.1) ha.2)

theorem recordError_asks (operation error : String) (ctx : ErrorContext) :
    (recordErrorWithContext settings operation error ctx : PriceProgram F Unit).Asks KeepsPrices :=
  ⟨rfl, fun _ => trivial⟩

theorem fetchPythPrices_asks (feedIds : List String) :
    (fetchPythPrices feedIds : PriceProgram F _).Asks KeepsPrices := by
  rw [fetchPythPrices]
  split
  · trivial
  · exact ⟨trivial, fun _ => trivial⟩

theorem fetchBinanceBatch_asks :
    (fetchBinanceBatch settings : PriceProgram F _).Asks KeepsPrices := by
  rw [fetchBinanceBatch]
  split
  · trivial
  · refine ⟨trivial, fun r => ?_⟩
    cases r <;> trivial

end Requests

section Sources

variable {token : TokenConfig} {batches : Batches} {now latest : Nat}

def ObservedBy (latest : Nat) (r : Quoted F) : Prop :=
  ∀ quoted, r = .ok quoted → quoted.observationTime ≤ latest

theorem observedBy_error (e : PriceSourceError F) : ObservedBy latest (.error e) :=
  fun _ h => nomatch h

theorem observedBy_ok {price : Int} {time : Nat} (h : time ≤ latest) :
    ObservedBy (F := F) latest (.ok ⟨price, time⟩) := by
  rintro quoted hquoted
  cases hquoted
  exact h

theorem observedBy_observedNow (h : now ≤ latest) (price : Option Int) (missing : String) :
    ObservedBy (F := F) latest (observedNow now price missing) := by
  cases price with
  | none => exact observedBy_error _
  | some price => exact observedBy_ok h

theorem validatePythPrice_le {data : PythPriceData} {staleAfterSeconds maxConfidenceBps : Nat}
    {quoted : PriceWithObservationTime}
    (h : validatePythPrice num data now staleAfterSeconds maxConfidenceBps = .ok quoted) :
    quoted.observationTime ≤ now + maxFutureSkewSeconds :=
  (checkPublishTime_eq_ok (validatePythPrice_eq_ok h).2.1).2.1

theorem observedBy_validFeed (h : now + maxFutureSkewSeconds ≤ latest) (feed : PythPriceFeed) :
    ObservedBy latest (validFeed num token now feed) := by
  intro quoted hquoted
  rw [validFeed] at hquoted
  cases hvalid : validatePythPrice num feed.price now token.staleAfterSeconds
      token.pythMaxConfidenceBps with
  | error e =>
      rw [hvalid] at hquoted
      cases hquoted
  | ok valid =>
      rw [hvalid] at hquoted
      cases hquoted
      exact (validatePythPrice_le hvalid).trans h

theorem observedBy_fetchFixed (h : now ≤ latest) :
    ObservedBy (F := F) latest (fetchFixed token now) := by
  rw [fetchFixed]
  split
  · exact observedBy_error _
  · exact observedBy_ok h

theorem fetchBinance_safe (h : now ≤ latest) (hw : Underway prices start w) :
    Safe (priceTask F ledgerAt) (Underway prices start) (fetchBinance token batches now)
      (fun r _ => ObservedBy latest r) w := by
  rw [fetchBinance]
  split
  · exact ⟨hw, observedBy_error _⟩
  · split
    · exact ⟨hw, observedBy_observedNow h _ _⟩
    · refine ask_safe trivial hw (fun v r u _ hu _ _ => ?_)
      cases r with
      | error e => exact ⟨hu, observedBy_error _⟩
      | ok results => exact ⟨hu, observedBy_observedNow h _ _⟩

theorem fetchCoinbase_safe (h : now ≤ latest) (hw : Underway prices start w) :
    Safe (priceTask F ledgerAt) (Underway prices start) (fetchCoinbase token now)
      (fun r _ => ObservedBy latest r) w := by
  rw [fetchCoinbase]
  split
  · exact ⟨hw, observedBy_error _⟩
  · refine ask_safe trivial hw (fun v r u _ hu _ _ => ?_)
    cases r with
    | error e => exact ⟨hu, observedBy_error _⟩
    | ok price => exact ⟨hu, observedBy_ok h⟩

theorem fetchPyth_safe (h : now + maxFutureSkewSeconds ≤ latest) (hw : Underway prices start w) :
    Safe (priceTask F ledgerAt) (Underway prices start) (fetchPyth num token batches now)
      (fun r _ => ObservedBy latest r) w := by
  rw [fetchPyth]
  split
  · exact ⟨hw, observedBy_error _⟩
  · split
    · exact ⟨hw, observedBy_validFeed h _⟩
    · split
      · exact ⟨hw, observedBy_error _⟩
      · refine Safe.bind ((quiet_safe (fetchPythPrices_asks _) hw).mono (fun r v hv _ => ?_))
        cases r with
        | error e => exact ⟨hv, observedBy_error _⟩
        | ok feeds =>
            dsimp only
            split
            · exact ⟨hv, observedBy_error _⟩
            · exact ⟨hv, observedBy_validFeed h _⟩

theorem fetchSourcePrice_safe (source : String) (hw : Underway prices start w) :
    Safe (priceTask F ledgerAt) (Underway prices start) (fetchSourcePrice num token batches source)
      (fun r _ => ObservedBy (latestObservation start) r) w := by
  refine ask_safe trivial hw (fun v now u _ hu hclock ha => ?_)
  have hnow : now + maxFutureSkewSeconds ≤ latestObservation start := by
    rw [ha.1]
    exact Nat.add_le_add_right (Nat.div_le_div_right hclock) _
  have hnow' : now ≤ latestObservation start := (Nat.le_add_right _ _).trans hnow
  split
  · exact fetchBinance_safe hnow' hu
  · split
    · exact fetchCoinbase_safe hnow' hu
    · split
      · exact fetchPyth_safe hnow hu
      · split
        · exact ⟨hu, observedBy_fetchFixed hnow'⟩
        · exact ⟨hu, observedBy_error _⟩

end Sources

section Build

variable {token : TokenConfig} {batches : Batches} {ledgerSeq latest : Nat}

def QuotesBy (latest : Nat) (quotes : List (String × PriceWithObservationTime)) : Prop :=
  ∀ quote ∈ quotes, quote.2.observationTime ≤ latest

theorem fetchSources_safe (sources : List String) (hw : Underway prices start w) :
    Safe (priceTask F ledgerAt) (Underway prices start)
      (fetchSources num settings token ledgerSeq batches sources)
      (fun quotes _ => QuotesBy (latestObservation start) quotes) w := by
  induction sources generalizing w with
  | nil => exact ⟨hw, fun quote h => nomatch h⟩
  | cons source sources ih =>
      refine Safe.bind ((Retry.retryFrom_safe
        (fun w hw => fetchSourcePrice_safe source hw) _ hw).mono (fun r v hv hr => ?_))
      cases r with
      | error e =>
          exact Safe.bind ((quiet_safe (recordError_asks _ _ _) hv).mono (fun _ u hu _ => ih hu))
      | ok quoted =>
          refine Safe.bind ((ih hv).mono (fun rest u hu hrest => ⟨hu, ?_⟩))
          exact List.forall_mem_cons.mpr ⟨hr quoted rfl, hrest⟩

theorem mem_observationTimesOf {used sources : List String} {observationTimes : List Nat}
    {time : Nat} (h : time ∈ observationTimesOf used sources observationTimes) :
    time ∈ observationTimes := by
  obtain ⟨source, -, hsource⟩ := List.mem_filterMap.mp h
  obtain ⟨i, -, hi⟩ := Option.bind_eq_some_iff.mp hsource
  exact List.mem_of_getElem? hi

theorem aggregateQuotes_minObservationTime {quotes : List (String × PriceWithObservationTime)}
    {aggregate : AggregatedPrice F} (h : Returns (aggregateQuotes num token quotes) aggregate)
    (hquotes : QuotesBy latest quotes) : aggregate.minObservationTime ≤ latest := by
  obtain ⟨cluster, filter, hagg⟩ := Aggregate.aggregatePrices_returns h
  have hmem := mem_observationTimesOf (List.min?_mem hagg.minObservationTime)
  obtain ⟨quote, hquote, htime⟩ := List.mem_map.mp hmem
  exact htime ▸ hquotes quote hquote

/-- What is known of a price that a cycle built. -/
structure Fresh (ledgerSeq latest : Nat) (price : CachedPrice) : Prop where
  ledgerSeq : price.ledgerSeq = ledgerSeq
  timestamp : price.timestamp ≤ latest

theorem signedCachedPrice_fresh {aggregate : AggregatedPrice F} {price : CachedPrice}
    (h : signedCachedPrice settings signPrice token ledgerSeq aggregate = .ok price)
    (hlatest : aggregate.minObservationTime ≤ latest) : Fresh ledgerSeq latest price := by
  obtain ⟨signature, -, hprice⟩ := bind_eq_ok.mp h
  cases hprice
  exact ⟨rfl, hlatest⟩

theorem buildCachedPrice_safe (hw : Underway prices start w) :
    Safe (priceTask F ledgerAt) (Underway prices start)
      (buildCachedPrice num settings signPrice token ledgerSeq batches)
      (fun result _ => ∀ price, result = .ok price →
        Fresh ledgerSeq (latestObservation start) price) w := by
  refine Safe.bind ((fetchSources_safe _ hw).mono (fun quotes v hv hquotes => ?_))
  cases hrun : (aggregateQuotes num token quotes).run with
  | error fault => exact ⟨hv, fun _ r => r.elim⟩
  | ok aggregate =>
      refine ⟨hv, fun price hprice => ?_⟩
      cases aggregate with
      | error e => cases hprice
      | ok aggregate =>
          exact signedCachedPrice_fresh hprice (aggregateQuotes_minObservationTime hrun hquotes)

end Build

section Settle

variable {batches : Batches} {ledgerSeq latest : Nat}

/-- What a cycle reports on a token, against the prices it started from. -/
def Reports (crates : Crates) (prices : PriceMap) (ledgerSeq latest : Nat)
    (entry : TokenConfig × TokenOutcome) : Prop :=
  match entry.2 with
  | .built price => Fresh ledgerSeq latest price
  | .kept price checkedAt => prices[lookupKey crates entry.1]? = some price ∧
      price.isStale entry.1.staleAfterSeconds checkedAt = false
  | .stale price checkedAt => prices[lookupKey crates entry.1]? = some price ∧
      price.isStale entry.1.staleAfterSeconds checkedAt = true
  | .failed => prices[lookupKey crates entry.1]? = none

theorem fetchTokens_safe (tokens : List TokenConfig) (hw : Underway prices start w) :
    Safe (priceTask F ledgerAt) (Underway prices start)
      (fetchTokens num settings signPrice ledgerSeq batches tokens)
      (fun results _ => results.map Prod.fst = tokens ∧ ∀ result ∈ results,
        ∀ price, result.2 = .ok price → Fresh ledgerSeq (latestObservation start) price) w := by
  induction tokens generalizing w with
  | nil => exact ⟨hw, rfl, fun result h => nomatch h⟩
  | cons token tokens ih =>
      refine Safe.bind ((buildCachedPrice_safe hw).mono (fun result v hv hresult => ?_))
      refine Safe.bind ((ih hv).mono (fun rest u hu hrest => ⟨hu, ?_, ?_⟩))
      · exact congrArg (token :: ·) hrest.1
      · exact List.forall_mem_cons.mpr ⟨hresult, hrest.2⟩

theorem checkCached_safe (token : TokenConfig) (hw : Underway prices start w) :
    Safe (priceTask F ledgerAt) (Underway prices start) (checkCached crates token)
      (fun outcome _ => Reports crates prices ledgerSeq latest (token, outcome)) w := by
  refine ask_safe rfl hw (fun v cached u hv hu _ ha => ?_)
  obtain rfl : cached = prices := ha.1.trans hv.prices
  cases hentry : cached[lookupKey crates token]? with
  | none => exact ⟨hu, hentry⟩
  | some price =>
      refine ask_safe trivial hu (fun v now u _ hu _ _ => ?_)
      split
      next hstale => exact ⟨hu, hentry, hstale⟩
      next hfresh => exact ⟨hu, hentry, Bool.eq_false_of_not_eq_true hfresh⟩

theorem settleToken_safe (token : TokenConfig) (result : Except String CachedPrice)
    (hresult : ∀ price, result = .ok price → Fresh ledgerSeq latest price)
    (hw : Underway prices start w) :
    Safe (priceTask F ledgerAt) (Underway prices start)
      (settleToken crates settings ledgerSeq token result)
      (fun outcome _ => Reports crates prices ledgerSeq latest (token, outcome)) w := by
  cases result with
  | ok price => exact ⟨hw, hresult price rfl⟩
  | error e =>
      exact Safe.bind ((quiet_safe (recordError_asks _ _ _) hw).mono
        (fun _ v hv _ => checkCached_safe token hv))

theorem settleTokens_safe (results : List (TokenConfig × Except String CachedPrice))
    (hresults : ∀ result ∈ results, ∀ price, result.2 = .ok price → Fresh ledgerSeq latest price)
    (hw : Underway prices start w) :
    Safe (priceTask F ledgerAt) (Underway prices start)
      (settleTokens crates settings ledgerSeq results)
      (fun outcomes _ => outcomes.map Prod.fst = results.map Prod.fst ∧
        ∀ entry ∈ outcomes, Reports crates prices ledgerSeq latest entry) w := by
  induction results generalizing w with
  | nil => exact ⟨hw, rfl, fun entry h => nomatch h⟩
  | cons result results ih =>
      obtain ⟨token, result⟩ := result
      obtain ⟨hresult, hrest⟩ := List.forall_mem_cons.mp hresults
      refine Safe.bind ((settleToken_safe token result hresult hw).mono (fun outcome v hv ho => ?_))
      refine Safe.bind ((ih hrest hv).mono (fun outcomes u hu hos => ⟨hu, ?_, ?_⟩))
      · exact congrArg (token :: ·) hos.1
      · exact List.forall_mem_cons.mpr ⟨ho, hos.2⟩

variable (num settings signPrice) in
/-- The price came out of a build for the token. -/
def BuiltFor (token : TokenConfig) (price : CachedPrice) : Prop :=
  ∃ ledgerSeq batches tr,
    Runs (buildCachedPrice num settings signPrice token ledgerSeq batches) tr (.ok price)

variable {tr : List (Event PriceRequest (PriceRequest.Answer F))}

theorem fetchTokens_built {tokens : List TokenConfig}
    {results : List (TokenConfig × Except String CachedPrice)}
    (h : Runs (fetchTokens num settings signPrice ledgerSeq batches tokens) tr results) :
    ∀ result ∈ results, ∀ price, result.2 = .ok price →
      BuiltFor num settings signPrice result.1 price := by
  induction tokens generalizing tr results with
  | nil =>
      obtain ⟨-, rfl⟩ := runs_done.mp h
      exact fun result hmem => absurd hmem List.not_mem_nil
  | cons token tokens ih =>
      obtain ⟨first, result, tail, -, hbuild, h⟩ := runs_bind.mp h
      obtain ⟨second, rest, last, -, hrest, h⟩ := runs_bind.mp h
      obtain ⟨-, rfl⟩ := runs_done.mp h
      refine List.forall_mem_cons.mpr ⟨fun price hprice => ?_, ih hrest⟩
      exact ⟨ledgerSeq, batches, first, hprice ▸ hbuild⟩

theorem checkCached_not_built {token : TokenConfig} {price : CachedPrice} :
    ¬Runs (checkCached (F := F) crates token) tr (.built price) := by
  intro h
  obtain ⟨cached, rest, -, h⟩ := runs_request_bind.mp h
  split at h
  next => cases (runs_done.mp h).2
  next =>
    obtain ⟨now, last, -, h⟩ := runs_request_bind.mp h
    split at h <;> cases (runs_done.mp h).2

theorem settleTokens_built {results : List (TokenConfig × Except String CachedPrice)}
    {outcomes : List (TokenConfig × TokenOutcome)}
    (h : Runs (settleTokens (F := F) crates settings ledgerSeq results) tr outcomes) :
    ∀ entry ∈ outcomes, ∀ price, entry.2 = .built price → (entry.1, .ok price) ∈ results := by
  induction results generalizing tr outcomes with
  | nil =>
      obtain ⟨-, rfl⟩ := runs_done.mp h
      exact fun entry hmem => absurd hmem List.not_mem_nil
  | cons result results ih =>
      obtain ⟨first, outcome, tail, -, hsettled, h⟩ := runs_bind.mp h
      obtain ⟨second, rest, last, -, hrest, h⟩ := runs_bind.mp h
      obtain ⟨-, rfl⟩ := runs_done.mp h
      obtain ⟨token, result⟩ := result
      refine List.forall_mem_cons.mpr ⟨fun price hprice => ?_, fun entry hmem price hprice =>
        List.mem_cons_of_mem _ (ih hrest entry hmem price hprice)⟩
      obtain rfl : outcome = .built price := hprice
      cases result with
      | ok built =>
          cases (runs_done.mp hsettled).2
          exact List.mem_cons_self
      | error e =>
          obtain ⟨recording, _, checking, -, -, hchecked⟩ := runs_bind.mp hsettled
          exact absurd hchecked checkCached_not_built

variable (num settings signPrice) in
/-- Each price that a cycle reports as built is from a build for its token. -/
def Sourced (outcomes : List (TokenConfig × TokenOutcome)) : Prop :=
  ∀ entry ∈ outcomes, ∀ price, entry.2 = .built price →
    BuiltFor num settings signPrice entry.1 price

theorem mem_publications {outcomes : List (TokenConfig × TokenOutcome)} {key : String}
    {price : CachedPrice} :
    (key, price) ∈ outcomes.filterMap (publication crates) ↔
      ∃ entry ∈ outcomes, lookupKey crates entry.1 = key ∧ entry.2.published = some price := by
  rw [List.mem_filterMap]
  constructor
  · rintro ⟨entry, hmem, hentry⟩
    obtain ⟨published, hpublished, hpair⟩ := Option.map_eq_some_iff.mp hentry
    cases hpair
    exact ⟨entry, hmem, rfl, hpublished⟩
  · rintro ⟨entry, hmem, rfl, hpublished⟩
    exact ⟨entry, hmem, Option.map_eq_some_iff.mpr ⟨price, hpublished, rfl⟩⟩

/-- The cached prices after the publication. -/
def publishedPrices (crates : Crates) (prices : PriceMap)
    (outcomes : List (TokenConfig × TokenOutcome)) : PriceMap :=
  if (newPrices crates outcomes).isEmpty then ∅
  else prices.insertMany (newPrices crates outcomes).toList

/-- What a completed cycle has found and published. -/
structure Completed (crates : Crates) (settings : Settings) (ledgerAt : Nat → Nat)
    (prices : PriceMap) (start : Nat) (outcomes : List (TokenConfig × TokenOutcome))
    (w : PriceWorld) : Prop where
  tokens : outcomes.map Prod.fst = settings.tokens
  reports : ∃ time, start ≤ time ∧
    ∀ entry ∈ outcomes, Reports crates prices (ledgerAt time) (latestObservation start) entry
  published : w.prices = publishedPrices crates prices outcomes

variable {I : PriceWorld → Prop}

theorem publish_safe {outcomes : List (TokenConfig × TokenOutcome)} {stale : Nat}
    (hI : ∀ v, Underway prices start v → I v)
    (hpublished : ∀ v, v.prices = publishedPrices crates prices outcomes → I v)
    (hw : Underway prices start w) :
    Safe (priceTask F ledgerAt) I (publish crates outcomes >>= fun _ => pure (outcomes, stale))
      (fun result v => result = (outcomes, stale) ∧
        v.prices = publishedPrices crates prices outcomes) w := by
  have hwritten : ∀ op : StateOp, (∀ v, Underway prices start v →
      (op.run v.clock v.app).2.priceCache.prices = publishedPrices crates prices outcomes) →
      Safe (priceTask F ledgerAt) I (locked op >>= fun _ => pure (outcomes, stale))
        (fun result v => result = (outcomes, stale) ∧
          v.prices = publishedPrices crates prices outcomes) w := by
    intro op hop
    refine Safe.request_bind underway_stable hI hw (fun v r u hv ha => ?_)
    have hu : u.prices = publishedPrices crates prices outcomes := by
      rw [ha.2.2]
      exact hop v hv
    exact ⟨hpublished u hu, rfl, hu⟩
  rw [publish]
  split
  next hempty =>
    refine hwritten _ (fun v _ => ?_)
    rw [publishedPrices, if_pos hempty]
    rfl
  next hsome =>
    refine hwritten _ (fun v hv => ?_)
    rw [publishedPrices, if_neg hsome, ← hv.prices]
    rfl

theorem completeCycle_safe {now time : Nat}
    (hI : ∀ v, Underway prices start v → I v)
    (hcompleted : ∀ outcomes v, Completed crates settings ledgerAt prices start outcomes v →
      Sourced num settings signPrice outcomes → I v)
    (pyth : Except (PythPriceError F) (KeyMap PythPriceFeed)) (htime : start ≤ time)
    (hw : Underway prices start w) :
    Safe (priceTask F ledgerAt) I
      (completeCycle num crates settings signPrice now (ledgerAt time) pyth)
      (fun result v => Completed crates settings ledgerAt prices start result.1 v) w := by
  refine Safe.bind (((quiet_safe fetchBinanceBatch_asks hw).mono
    (fun binancePrices v hv _ => ?_)).weaken hI)
  refine Safe.request_bind underway_stable hI hv (fun v cached u hv' ha => ?_)
  have hu : Underway prices start u := hv'.answered (q := .state .readPrices) rfl ha.2
  refine Safe.bind ((((fetchTokens_safe settings.tokens hu).with_runs
    (fun _ _ => fetchTokens_built)).mono (fun results v hv hfetched => ?_)).weaken hI)
  obtain ⟨hresults, hbuilt⟩ := hfetched
  refine Safe.bind ((((settleTokens_safe results hresults.2 hv).with_runs
    (fun _ _ => settleTokens_built)).mono (fun outcomes v hv hsettled => ?_)).weaken hI)
  obtain ⟨houtcomes, hkept⟩ := hsettled
  have hsourced : Sourced num settings signPrice outcomes := fun entry hmem price hprice =>
    hbuilt _ (hkept entry hmem price hprice) price rfl
  have hclosed : ∀ v, v.prices = publishedPrices crates prices outcomes →
      Completed crates settings ledgerAt prices start outcomes v := fun v hpublished =>
    ⟨houtcomes.1.trans hresults.1, ⟨time, htime, houtcomes.2⟩, hpublished⟩
  refine (publish_safe hI (fun v hp => hcompleted _ v (hclosed v hp) hsourced) hv).mono ?_
  rintro result v - ⟨rfl, hpublished⟩
  exact hclosed v hpublished

theorem latestLedgerSequence_safe (hw : Underway prices start w) :
    Safe (priceTask F ledgerAt) (Underway prices start) latestLedgerSequence
      (fun r _ => ∀ seq, r = .ok seq → ∃ time, start ≤ time ∧ seq = ledgerAt time) w := by
  refine Retry.retryFrom_safe (fun w hw => ?_) _ hw
  refine Safe.ask underway_stable (fun _ h => h) hw (fun v r u hv ha => ?_)
  refine ⟨hv.answered (q := .latestLedger) trivial ha.2, fun seq hseq => ?_⟩
  exact ⟨v.clock, hv.started, ha.2.1 seq hseq⟩

/-- What a cycle does to the cached prices: nothing until it publishes, and what
it publishes is what it reports on the tokens. -/
theorem priceCycle_safe (hI : ∀ v, Underway prices start v → I v)
    (hcompleted : ∀ outcomes v, Completed crates settings ledgerAt prices start outcomes v →
      Sourced num settings signPrice outcomes → I v)
    (hw : Underway prices start w) :
    Safe (priceTask F ledgerAt) I (priceCycle num crates settings signPrice)
      (fun result v => ∀ completed, result = .ok completed →
        Completed crates settings ledgerAt prices start completed.1 v) w := by
  refine Safe.request_bind underway_stable hI hw (fun v now u hv ha => ?_)
  have hu : Underway prices start u := hv.answered (q := .unixTime) trivial ha.2
  refine Safe.bind (((latestLedgerSequence_safe hu).mono (fun ledger v hv hledger => ?_)).weaken hI)
  refine Safe.bind (((quiet_safe (fetchPythPrices_asks _) hv).mono
    (fun pyth v hv _ => ?_)).weaken hI)
  cases ledger with
  | error e =>
      refine Safe.bind (((quiet_safe (recordError_asks _ _ _) hv).mono
        (fun _ v hv _ => ?_)).weaken hI)
      exact ⟨hI v hv, fun completed h => nomatch h⟩
  | ok ledgerSeq =>
      obtain ⟨time, htime, rfl⟩ := hledger ledgerSeq rfl
      refine Safe.bind ((completeCycle_safe hI hcompleted pyth htime hv).mono ?_)
      intro completed v hv hdone
      refine ⟨hv, ?_⟩
      rintro _ ⟨⟩
      exact hdone

end Settle

end So4Oracle.CycleOutcome
