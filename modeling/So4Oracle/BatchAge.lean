import So4Oracle.CycleOutcome
import So4Oracle.KeeperRequests
import So4Oracle.PriceScript

namespace So4Oracle.BatchAge

open Library.Requests Library.Safety Library.Protocol Wire Config State Chain Sources PriceCycle CycleOutcome Submit
  Handler Keeper KeeperRuns KeeperRequests KeeperScript PriceScript

variable {F : Type} {num : Numerics F} {crates : Crates} {settings : Settings}
  {signPrice : SignPrice} {sign : Transaction → Except String String} {ledgerAt : Nat → Nat}

section PriceLoop

/-- A timestamp may be ahead of the moment the ledger number is from. -/
def observationLead : Nat := priceCycleTimeout + maxFutureSkewSeconds * nanosPerSecond

def Anchored (ledgerAt : Nat → Nat) (price : CachedPrice) : Prop :=
  ∃ time, price.ledgerSeq = ledgerAt time ∧
    price.timestamp * nanosPerSecond ≤ time + observationLead

def AllAnchored (ledgerAt : Nat → Nat) (prices : PriceMap) : Prop :=
  ∀ (key : String) price, prices[key]? = some price → Anchored ledgerAt price

variable (num crates settings signPrice ledgerAt) in
/-- The price loop, cycle after cycle, each of which may be dropped anywhere. -/
abbrev PriceRuns : PriceWorld → PriceWorld → Prop :=
  Rounds (priceTask F ledgerAt) PriceWorld.enter (executePriceCycle num crates settings signPrice)
    (fun w v => v = w)

variable {prices : PriceMap} {start time : Nat}

theorem anchored_of_fresh {price : CachedPrice}
    (h : Fresh (ledgerAt time) (latestObservation start) price) (htime : start ≤ time) :
    Anchored ledgerAt price := by
  refine ⟨time, h.ledgerSeq, ?_⟩
  have hseconds : secondsOf (start + priceCycleTimeout) * nanosPerSecond ≤
      start + priceCycleTimeout := Nat.div_mul_le_self _ _
  calc price.timestamp * nanosPerSecond
      ≤ (secondsOf (start + priceCycleTimeout) + maxFutureSkewSeconds) * nanosPerSecond :=
        Nat.mul_le_mul_right _ h.timestamp
    _ = secondsOf (start + priceCycleTimeout) * nanosPerSecond +
        maxFutureSkewSeconds * nanosPerSecond := Nat.add_mul _ _ _
    _ ≤ time + observationLead := by
        rw [observationLead]
        omega

variable {P : String → CachedPrice → Prop}

/-- What holds of a price when it is built holds of it for as long as it is kept. -/
theorem newPrices_each {outcomes : List (TokenConfig × TokenOutcome)}
    (hbuilt : ∀ token ∈ settings.tokens, ∀ price,
      Fresh (ledgerAt time) (latestObservation start) price →
      BuiltFor num settings signPrice token price → P (lookupKey crates token) price)
    (h : ∀ (key : String) price, prices[key]? = some price → P key price)
    (htokens : outcomes.map Prod.fst = settings.tokens)
    (hreports : ∀ entry ∈ outcomes,
      Reports crates prices (ledgerAt time) (latestObservation start) entry)
    (hsourced : Sourced num settings signPrice outcomes) {key : String} {price : CachedPrice}
    (hprice : (newPrices crates outcomes)[key]? = some price) : P key price := by
  obtain ⟨⟨token, outcome⟩, hmem, hkey, hpublished⟩ :=
    mem_publications.mp (mem_of_getElem?_ofList hprice)
  have htoken : token ∈ settings.tokens := htokens ▸ List.mem_map_of_mem hmem
  have hreport := hreports _ hmem
  cases outcome with
  | built built =>
      cases hpublished
      exact hkey ▸ hbuilt token htoken price hreport (hsourced _ hmem price rfl)
  | kept kept checkedAt =>
      cases hpublished
      exact h key price (hkey ▸ hreport.1)
  | stale | failed => cases hpublished

theorem each_of_completed {outcomes : List (TokenConfig × TokenOutcome)} {w : PriceWorld}
    (hdone : Completed crates settings ledgerAt prices start outcomes w)
    (hsourced : Sourced num settings signPrice outcomes)
    (hbuilt : ∀ time, start ≤ time → ∀ token ∈ settings.tokens, ∀ price,
      Fresh (ledgerAt time) (latestObservation start) price →
        BuiltFor num settings signPrice token price → P (lookupKey crates token) price)
    (h : ∀ (key : String) price, prices[key]? = some price → P key price) {key : String}
    {price : CachedPrice} (hprice : w.prices[key]? = some price) : P key price := by
  obtain ⟨time, htime, hreports⟩ := hdone.reports
  rw [hdone.published, publishedPrices] at hprice
  split at hprice
  next =>
    rw [Std.TreeMap.getElem?_emptyc] at hprice
    cases hprice
  next =>
    rw [getElem?_insertMany_toList] at hprice
    rcases Option.or_eq_some_iff.mp hprice with hnew | ⟨-, hold⟩
    · exact newPrices_each (hbuilt time htime) h hdone.tokens hreports hsourced hnew
    · exact h key price hold

theorem priceRuns_each {w v : PriceWorld}
    (hbuilt : ∀ start time, start ≤ time → ∀ token ∈ settings.tokens, ∀ price,
      Fresh (ledgerAt time) (latestObservation start) price →
        BuiltFor num settings signPrice token price → P (lookupKey crates token) price)
    (h : ∀ (key : String) price, w.prices[key]? = some price → P key price)
    (hrun : PriceRuns num crates settings signPrice ledgerAt w v) (key : String)
    (price : CachedPrice) (hprice : v.prices[key]? = some price) : P key price := by
  let I := fun v : PriceWorld => ∀ (key : String) price, v.prices[key]? = some price → P key price
  have hstable : (priceTask F ledgerAt).Stable I := by
    intro v u hv hi key price hprice
    exact hv key price (interference_prices hi ▸ hprice)
  refine Rounds.invariant (I := I) (Q := fun _ _ => True) hrun h hstable hstable ?_ ?_ key price hprice
  · rintro u z hu rfl
    exact hu
  · intro u hu
    have hentered : Underway u.prices u.clock u.enter := ⟨rfl, rfl, Nat.le_refl _⟩
    refine Safe.bind ((priceCycle_safe ?_ ?_ hentered).mono (fun _ _ hv _ => ⟨hv, trivial⟩))
    · intro v hv key price hprice
      exact hu key price (hv.prices ▸ hprice)
    · intro outcomes v hdone hsourced key price hprice
      exact each_of_completed hdone hsourced (hbuilt u.clock) hu hprice

theorem priceRuns_anchored {w v : PriceWorld} (h : AllAnchored ledgerAt w.prices)
    (hrun : PriceRuns num crates settings signPrice ledgerAt w v) :
    AllAnchored ledgerAt v.prices :=
  priceRuns_each (P := fun _ => Anchored ledgerAt)
    (fun _ _ htime _ _ _ hfresh _ => anchored_of_fresh hfresh htime) h hrun

end PriceLoop

section KeeperLoop

variable (num crates settings signPrice ledgerAt) in
/-- The cached prices are what the price loop has made of them by now. -/
def Priced (p : PriceWorld) (w : World) : Prop :=
  ∃ q, PriceRuns num crates settings signPrice ledgerAt p q ∧ q.clock = w.clock ∧
    q.prices = w.app.priceCache.prices

variable (num crates settings signPrice ledgerAt) in
/-- The keeper beside the price loop, which alone writes the cached prices. -/
def besidePriceLoop (p : PriceWorld) : Surroundings KeeperRequest KeeperRequest.Answer World :=
  (keeper crates settings).restrict (fun _ _ _ _ => True)
    (fun _ v => Priced num crates settings signPrice ledgerAt p v)

variable (crates settings ledgerAt) in
/-- Every price of the batch was fresh at that moment. -/
structure FreshAt (checkedAt : Nat) (batch : PriceMap) : Prop where
  anchored : AllAnchored ledgerAt batch
  fresh : ∀ (key : String) price, batch[key]? = some price →
    isFresh crates settings (secondsOf checkedAt) key price = true

theorem FreshAt.subset {checkedAt : Nat} {batch batch' : PriceMap}
    (h : FreshAt crates settings ledgerAt checkedAt batch)
    (hsub : ∀ (key : String) price, batch'[key]? = some price → batch[key]? = some price) :
    FreshAt crates settings ledgerAt checkedAt batch' :=
  ⟨fun key price hprice => h.anchored key price (hsub key price hprice),
    fun key price hprice => h.fresh key price (hsub key price hprice)⟩

variable (crates settings ledgerAt) in
/-- A submitted batch was checked at most the length of a cycle before. -/
def SentFresh (s : Sent) : Prop :=
  ∀ batch, s.work = .setPrices batch → ∃ checkedAt, checkedAt ≤ s.sentAt ∧
    s.sentAt ≤ checkedAt + keeperCycleTimeout ∧ FreshAt crates settings ledgerAt checkedAt batch

variable (crates settings ledgerAt) in
structure Timely (w : World) : Prop where
  started : w.cycleStart ≤ w.clock
  anchored : AllAnchored ledgerAt w.app.priceCache.prices
  sent : ∀ s ∈ w.sent, SentFresh crates settings ledgerAt s

variable (crates settings ledgerAt) in
/-- The snapshot of the running cycle was taken at this moment. -/
structure Snapped (checkedAt : Nat) (w : World) : Prop where
  timely : Timely crates settings ledgerAt w
  inCycle : w.cycleStart ≤ checkedAt
  before : checkedAt ≤ w.clock

section Steps

variable {w v : World}

theorem sentFresh_of_handler {s : Sent} (h : Work.isSetPrices s.work = false) :
    SentFresh crates settings ledgerAt s := by
  intro batch hbatch
  rw [hbatch] at h
  cases h

theorem Timely.answered {q : KeeperRequest} (hq : SubmitsNoPrices q)
    (hw : Timely crates settings ledgerAt w) {r : q.Answer}
    (ha : (keeper crates settings).answer q w r v) : Timely crates settings ledgerAt v := by
  obtain ⟨hclock, hstart⟩ := answer_timing ha
  refine ⟨?_, ?_, sent_of_answer hq (fun _ => sentFresh_of_handler) (fun _ _ h => h) ha hw.sent⟩
  · rw [hstart, hclock]
    exact hw.started
  · rw [prices_of_answer hq ha]
    exact hw.anchored

theorem Snapped.answered {checkedAt : Nat} {q : KeeperRequest} (hq : SubmitsNoPrices q)
    (hw : Snapped crates settings ledgerAt checkedAt w) {r : q.Answer}
    (ha : (keeper crates settings).answer q w r v) :
    Snapped crates settings ledgerAt checkedAt v := by
  obtain ⟨hclock, hstart⟩ := answer_timing ha
  refine ⟨hw.timely.answered hq ha, ?_, ?_⟩
  · rw [hstart]
    exact hw.inCycle
  · rw [hclock]
    exact hw.before

/-- The submission of a batch that was checked in this cycle. -/
theorem Snapped.send {checkedAt : Nat} {batch : PriceMap} {tx : Transaction}
    (hw : Snapped crates settings ledgerAt checkedAt w)
    (hcycle : w.clock ≤ w.cycleStart + keeperCycleTimeout)
    (hfresh : FreshAt crates settings ledgerAt checkedAt batch) :
    Snapped crates settings ledgerAt checkedAt (w.send (.setPrices batch) tx) := by
  have hstart := hw.inCycle
  refine ⟨⟨hw.timely.started, hw.timely.anchored, ?_⟩, hstart, hw.before⟩
  refine List.forall_mem_cons.mpr ⟨?_, hw.timely.sent⟩
  intro batch' hbatch
  cases hbatch
  have hlate : w.clock ≤ checkedAt + keeperCycleTimeout := by omega
  exact ⟨checkedAt, hw.before, hlate, hfresh⟩

end Steps

variable {p : PriceWorld} (hp : AllAnchored ledgerAt p.prices)
include hp

theorem timely_stable : (besidePriceLoop num crates settings signPrice ledgerAt p).Stable
    (Timely crates settings ledgerAt) := by
  rintro w v hw ⟨hi, q, hq, -, hprices⟩
  have hanchored : AllAnchored ledgerAt v.app.priceCache.prices :=
    hprices ▸ priceRuns_anchored hp hq
  refine ⟨?_, hanchored, ?_⟩
  · rw [interference_cycleStart hi]
    exact hw.started.trans (interference_clock hi)
  · exact sent_of_interference (fun _ h => h) hi hw.sent

theorem snapped_stable (checkedAt : Nat) :
    (besidePriceLoop num crates settings signPrice ledgerAt p).Stable
      (Snapped crates settings ledgerAt checkedAt) := by
  rintro w v hw hi
  refine ⟨timely_stable hp w v hw.timely hi, ?_, hw.before.trans (interference_clock hi.1)⟩
  rw [interference_cycleStart hi.1]
  exact hw.inCycle

variable {checkedAt : Nat} {w : World}

theorem quiet_safe {α : Type} {q : KeeperProgram α} (hq : q.Asks SubmitsNoPrices)
    (hw : Snapped crates settings ledgerAt checkedAt w) :
    Safe (besidePriceLoop num crates settings signPrice ledgerAt p)
      (Timely crates settings ledgerAt) q
      (fun _ v => Snapped crates settings ledgerAt checkedAt v) w :=
  Safe.of_asks (snapped_stable hp checkedAt) (fun _ h => h.timely) hq
    (fun _ hq _ _ _ hv ha => hv.answered hq ha.1) hw

theorem ask_safe {α : Type} {q : KeeperRequest} {f : q.Answer → KeeperProgram α}
    {Q : α → World → Prop} (hq : SubmitsNoPrices q)
    (hw : Snapped crates settings ledgerAt checkedAt w)
    (h : ∀ r u, Snapped crates settings ledgerAt checkedAt u →
      Safe (besidePriceLoop num crates settings signPrice ledgerAt p)
        (Timely crates settings ledgerAt) (f r) Q u) :
    Safe (besidePriceLoop num crates settings signPrice ledgerAt p)
      (Timely crates settings ledgerAt) (Program.request q >>= f) Q w :=
  Safe.request_bind (snapped_stable hp _) (fun _ h => h.timely) hw
    (fun _ r u hv ha => h r u (hv.answered hq ha.1))

theorem setPricesOnChain_safe {batch : PriceMap}
    (hfresh : FreshAt crates settings ledgerAt checkedAt batch)
    (hw : Snapped crates settings ledgerAt checkedAt w) :
    Safe (besidePriceLoop num crates settings signPrice ledgerAt p)
      (Timely crates settings ledgerAt) (setPricesOnChain crates settings sign batch)
      (fun _ v => Snapped crates settings ledgerAt checkedAt v) w := by
  rw [setPricesOnChain]
  cases encodePricesVec crates batch.values with
  | error e => exact ⟨hw.timely, hw⟩
  | ok pricesScval =>
      refine ask_safe hp (q := .accountSequence) trivial hw (fun r u hu => ?_)
      cases r with
      | error e => exact ⟨hu.timely, hu⟩
      | ok sequence =>
          refine ask_safe hp (q := .unixTime) trivial hu (fun now v hu => ?_)
          split
          next => exact ⟨hu.timely, hu⟩
          next signed htx =>
            refine Safe.request_bind (snapped_stable hp _) (fun _ h => h.timely) hu ?_
            rintro v ⟨⟩ u hv ⟨⟨hcycle, rfl⟩, -⟩
            exact quiet_safe hp ⟨trivial, fun _ => trivial⟩ (hv.send hcycle hfresh)

theorem publishPrices_safe {batch : PriceMap} {now : Nat} {isHeartbeat : Bool}
    (hfresh : FreshAt crates settings ledgerAt checkedAt batch)
    (hw : Snapped crates settings ledgerAt checkedAt w) :
    Safe (besidePriceLoop num crates settings signPrice ledgerAt p)
      (Timely crates settings ledgerAt) (publishPrices crates settings sign batch now isHeartbeat)
      (fun _ v => Snapped crates settings ledgerAt checkedAt v) w := by
  refine Safe.bind ((setPricesOnChain_safe hp hfresh hw).mono (fun r v _ hv => ?_))
  cases r with
  | error e => exact ⟨hv.timely, hv⟩
  | ok txHash => exact quiet_safe hp ⟨rfl, fun _ => ⟨trivial, fun _ => trivial⟩⟩ hv

theorem setPricesStage_safe {fresh : PriceMap}
    (hfresh : FreshAt crates settings ledgerAt checkedAt fresh)
    (hw : Snapped crates settings ledgerAt checkedAt w) :
    Safe (besidePriceLoop num crates settings signPrice ledgerAt p)
      (Timely crates settings ledgerAt) (setPricesStage crates settings sign fresh)
      (fun _ v => Snapped crates settings ledgerAt checkedAt v) w := by
  refine ask_safe hp (q := .unixTime) trivial hw (fun now u hu => ?_)
  refine ask_safe hp (q := .state .readLastFullSubmission) rfl hu (fun lastFullSubmission v hv => ?_)
  refine ask_safe hp (q := .state .readLastSubmittedMedians) rfl hv (fun lastSubmitted u hu => ?_)
  dsimp only
  split
  · exact ⟨hu.timely, hu⟩
  · exact publishPrices_safe hp (hfresh.subset (fun _ _ => getElem?_pricesToSubmit)) hu

theorem publishFresh_safe {pending : Pending}
    (hfresh : FreshAt crates settings ledgerAt checkedAt pending.freshPrices)
    (hw : Snapped crates settings ledgerAt checkedAt w) :
    Safe (besidePriceLoop num crates settings signPrice ledgerAt p)
      (Timely crates settings ledgerAt) (publishFresh crates settings sign pending)
      (fun _ v => Snapped crates settings ledgerAt checkedAt v) w := by
  rw [publishFresh]
  split
  · exact ⟨hw.timely, hw⟩
  · exact setPricesStage_safe hp hfresh hw

/-- The snapshot is taken in the cycle, and every price of it is fresh then. -/
theorem snapshot_safe (hw : Timely crates settings ledgerAt w) :
    Safe (besidePriceLoop num crates settings signPrice ledgerAt p)
      (Timely crates settings ledgerAt) (snapshot crates settings)
      (fun fresh v => ∃ checkedAt, Snapped crates settings ledgerAt checkedAt v ∧
        FreshAt crates settings ledgerAt checkedAt fresh) w := by
  refine Safe.request_bind (timely_stable hp) (fun _ h => h) hw ?_
  rintro v now u hv ⟨⟨-, rfl, rfl⟩, -⟩
  have hsnapped : Snapped crates settings ledgerAt u.clock u := ⟨hv, hv.started, Nat.le_refl _⟩
  refine Safe.request_bind (snapped_stable hp u.clock) (fun _ h => h.timely) hsnapped ?_
  intro x prices y hx ha
  have hy := hx.answered (q := .state .readPrices) rfl ha.1
  have hanchored : AllAnchored ledgerAt prices := by
    rw [ha.1.2.1]
    exact hx.timely.anchored
  refine ⟨hy.timely, u.clock, hy, ?_, ?_⟩
  · exact fun key price hprice => hanchored key price (getElem?_filter_eq_some.mp hprice).1
  · exact fun key price hprice => (getElem?_filter_eq_some.mp hprice).2

theorem openCycle_safe (hw : Timely crates settings ledgerAt w) :
    Safe (besidePriceLoop num crates settings signPrice ledgerAt p)
      (Timely crates settings ledgerAt) (openCycle crates settings)
      (fun result v => ∃ checkedAt, Snapped crates settings ledgerAt checkedAt v ∧
        ∀ pending, result = .ok pending →
          FreshAt crates settings ledgerAt checkedAt pending.freshPrices) w := by
  refine Safe.request_bind (timely_stable hp) (fun _ h => h) hw (fun v _ u hv ha => ?_)
  have hu := hv.answered (q := .state .sweepExpiredInFlightKeys) rfl ha.1
  refine Safe.request_bind (timely_stable hp) (fun _ h => h) hu (fun v balance u hv ha => ?_)
  have hu := hv.answered (q := .checkKeeperBalance) trivial ha.1
  refine Safe.bind ((snapshot_safe hp hu).mono ?_)
  rintro fresh v - ⟨checkedAt, hv, hfresh⟩
  refine ask_safe hp (q := .pendingKeys) trivial hv (fun fetched v hv => ?_)
  refine ask_safe hp (q := .state (.setPending _ _ _)) rfl hv (fun _ v hv => ?_)
  split
  · refine ⟨hv.timely, checkedAt, hv, fun pending hpending => ?_⟩
    cases hpending
  · refine ⟨hv.timely, checkedAt, hv, fun pending hpending => ?_⟩
    cases hpending
    exact hfresh

theorem executePending_safe {pending : Pending} (hw : Snapped crates settings ledgerAt checkedAt w) :
    Safe (besidePriceLoop num crates settings signPrice ledgerAt p)
      (Timely crates settings ledgerAt) (executePending crates settings sign pending)
      (fun _ _ => True) w := by
  have hrules : LoopRules (fun (_ : Unit) q _ _ => SubmitsNoPrices q) () :=
    ⟨fun q hq _ => submitsNoPrices_of_inLoop q hq, fun _ _ _ _ => ⟨(), rfl, fun _ => trivial⟩⟩
  refine ((Follows.safe (J := fun _ => Snapped crates settings ledgerAt checkedAt)
    (fun _ => snapped_stable hp checkedAt) (fun _ _ _ _ _ _ hv hq ha => hv.answered hq ha.1)
    (executePending_follows hrules) hw).mono (fun _ _ _ _ => trivial)).weaken ?_
  rintro v ⟨-, hv⟩
  exact hv.timely

theorem executeKeeperCycle_safe (hw : Timely crates settings ledgerAt w) :
    Safe (besidePriceLoop num crates settings signPrice ledgerAt p)
      (Timely crates settings ledgerAt) (executeKeeperCycle crates settings sign)
      (fun _ v => Timely crates settings ledgerAt v) w := by
  refine Safe.bind (Safe.bind ((openCycle_safe hp hw).mono ?_))
  rintro opened v - ⟨checkedAt, hv, hfresh⟩
  cases opened with
  | error summary => exact ⟨hv.timely, hv.timely, hv.timely⟩
  | ok pending =>
      refine Safe.bind ((publishFresh_safe hp (hfresh pending rfl) hv).mono (fun r u _ hu => ?_))
      cases r with
      | error e => exact ⟨hu.timely, hu.timely, hu.timely⟩
      | ok =>
          refine ⟨hu.timely, Safe.bind ((executePending_safe hp hu).mono (fun _ z hz _ => ⟨hz, hz⟩))⟩

theorem cycleRuns_timely {v : World} (hw : Timely crates settings ledgerAt w)
    (hrun : CycleRuns crates settings sign
      (besidePriceLoop num crates settings signPrice ledgerAt p) dropped w v) :
    Timely crates settings ledgerAt v := by
  refine Rounds.invariant (Q := fun _ v => Timely crates settings ledgerAt v) hrun hw
    (timely_stable hp) (timely_stable hp) ?_ ?_
  · rintro u z hu rfl
    exact ⟨hu.started, hu.anchored, hu.sent⟩
  · intro u hu
    exact executeKeeperCycle_safe hp ⟨Nat.le_refl _, hu.anchored, hu.sent⟩

end KeeperLoop

section Contract

def contractMaxAgeSeconds : Nat := 300

def contractMaxLedgers : Nat := 60

def ledgerPeriod : Nat := 5 * nanosPerSecond

/-- A ledger takes at least five seconds. -/
structure LedgerPace (ledgerAt : Nat → Nat) : Prop where
  forward : ∀ time nanos, ledgerAt time ≤ ledgerAt (time + nanos)
  pace : ∀ time nanos, ledgerAt (time + nanos) ≤ ledgerAt time + nanos / ledgerPeriod + 1

/-- The contract's conditions on the age of a price. -/
structure MeetsContract (ledgerAt : Nat → Nat) (price : CachedPrice) (time : Nat) : Prop where
  timestamp : secondsOf time ≤ price.timestamp + contractMaxAgeSeconds
  ledgerSeq : ledgerAt time ≤ price.ledgerSeq + contractMaxLedgers

variable {price : CachedPrice} {staleAfterSeconds checkedAt sentAt : Nat}

theorem isStale_eq_false {now : Nat} :
    price.isStale staleAfterSeconds now = false ↔
      price.timestamp ≤ now ∧ now < price.timestamp + staleAfterSeconds := by
  rw [CachedPrice.isStale]
  split
  next h =>
    rw [decide_eq_false_iff_not]
    omega
  next h => simp [h]

/-- What is left of the staleness limit when the transaction is sent. -/
theorem age_at_send (hstale : price.isStale staleAfterSeconds (secondsOf checkedAt) = false)
    (hbefore : checkedAt ≤ sentAt) (hcycle : sentAt ≤ checkedAt + keeperCycleTimeout) :
    price.timestamp ≤ secondsOf sentAt ∧
      secondsOf sentAt < price.timestamp + staleAfterSeconds + 50 := by
  obtain ⟨hpast, hyoung⟩ := isStale_eq_false.mp hstale
  have hlater : secondsOf checkedAt ≤ secondsOf sentAt := Nat.div_le_div_right hbefore
  have hsoon : secondsOf sentAt ≤ secondsOf checkedAt + 50 := by
    calc secondsOf sentAt ≤ (checkedAt + 50 * nanosPerSecond) / nanosPerSecond :=
          Nat.div_le_div_right hcycle
      _ = secondsOf checkedAt + 50 := Nat.add_mul_div_right _ _ (by decide)
  omega

theorem ledgers_at_send (pace : LedgerPace ledgerAt) (hanchored : Anchored ledgerAt price)
    (hage : secondsOf sentAt < price.timestamp + staleAfterSeconds + 50) :
    ledgerAt sentAt ≤ price.ledgerSeq + (staleAfterSeconds + 139) / 5 + 1 := by
  obtain ⟨time, hseq, htimestamp⟩ := hanchored
  rw [hseq]
  by_cases hlater : time ≤ sentAt
  · obtain ⟨nanos, rfl⟩ := Nat.exists_eq_add_of_le hlater
    have hlead : observationLead = 90 * nanosPerSecond := by decide
    have hsent : time + nanos < (price.timestamp + staleAfterSeconds + 50) * nanosPerSecond :=
      (Nat.div_lt_iff_lt_mul (by decide)).mp hage
    have hnanos : nanos < (staleAfterSeconds + 140) * nanosPerSecond := by
      rw [Nat.add_mul, Nat.add_mul] at hsent
      rw [Nat.add_mul]
      omega
    have hperiods : (staleAfterSeconds + 140) * nanosPerSecond ≤
        ((staleAfterSeconds + 139) / 5 + 1) * ledgerPeriod := by
      rw [ledgerPeriod, ← Nat.mul_assoc]
      apply Nat.mul_le_mul_right
      omega
    have hledgers : nanos / ledgerPeriod < (staleAfterSeconds + 139) / 5 + 1 :=
      (Nat.div_lt_iff_lt_mul (by decide)).mpr (Nat.lt_of_lt_of_le hnanos hperiods)
    have hpace := pace.pace time nanos
    omega
  · obtain ⟨nanos, rfl⟩ := Nat.exists_eq_add_of_le (Nat.le_of_not_le hlater)
    exact (pace.forward sentAt nanos).trans (by omega)

end Contract

/-- Every price of a batch was fresh when its cycle took the snapshot, so when the
transaction is sent, after it was built, the price is at most a cycle older than
its token allows. -/
theorem setPrices_batch_age (pace : LedgerPace ledgerAt) {p : PriceWorld} {w v : World}
    (hempty : p.prices = ∅) (hstart : w.cycleStart ≤ w.clock) (hsent : w.sent = [])
    (hpriced : Priced num crates settings signPrice ledgerAt p w)
    (hrun : CycleRuns crates settings sign
      (besidePriceLoop num crates settings signPrice ledgerAt p) dropped w v)
    {s : Sent} (hs : s ∈ v.sent) {batch : PriceMap} (hbatch : s.work = .setPrices batch)
    {key : String} {price : CachedPrice} (hprice : batch[key]? = some price) :
    ∃ token ∈ settings.tokens, lookupKey crates token = key ∧
      (∃ checkedAt, checkedAt ≤ s.sentAt ∧ s.sentAt ≤ checkedAt + keeperCycleTimeout ∧
        price.isStale token.staleAfterSeconds (secondsOf checkedAt) = false) ∧
      price.timestamp ≤ secondsOf s.sentAt ∧
      secondsOf s.sentAt < price.timestamp + token.staleAfterSeconds + 50 ∧
      ledgerAt s.sentAt ≤ price.ledgerSeq + (token.staleAfterSeconds + 139) / 5 + 1 ∧
      (token.staleAfterSeconds ≤ 160 → MeetsContract ledgerAt price s.sentAt) := by
  have hp : AllAnchored ledgerAt p.prices := by
    intro key price h
    rw [hempty, Std.TreeMap.getElem?_emptyc] at h
    cases h
  obtain ⟨q, hq, -, hprices⟩ := hpriced
  have hw : Timely crates settings ledgerAt w := by
    refine ⟨hstart, hprices ▸ priceRuns_anchored hp hq, ?_⟩
    rw [hsent]
    exact fun s h => nomatch h
  have hv : Timely crates settings ledgerAt v := cycleRuns_timely hp hw hrun
  obtain ⟨checkedAt, hbefore, hcycle, hfresh⟩ := hv.sent s hs batch hbatch
  have hkey := hfresh.fresh key price hprice
  rw [isFresh] at hkey
  split at hkey
  next token hfound =>
    have hstale : price.isStale token.staleAfterSeconds (secondsOf checkedAt) = false :=
      Bool.not_eq_true' _ ▸ hkey
    obtain ⟨hpast, hage⟩ := age_at_send hstale hbefore hcycle
    have hledgers := ledgers_at_send pace (hfresh.anchored key price hprice) hage
    refine ⟨token, List.mem_of_find?_eq_some hfound, ?_, ⟨checkedAt, hbefore, hcycle, hstale⟩,
      hpast, hage, hledgers, fun hlimit => ⟨?_, ?_⟩⟩
    · have hfoundKey := List.find?_some (p := fun token => lookupKey crates token == key) hfound
      exact beq_iff_eq.mp hfoundKey
    · rw [contractMaxAgeSeconds]
      omega
    · rw [contractMaxLedgers]
      omega
  next => cases hkey

section Samples

/-- A token whose price may be older than the contract takes. -/
def slowToken : TokenConfig :=
  { sampleToken with fixedPrice := some "100", minSources := 1, staleAfterSeconds := 320 }

def slowCrates : Crates := { nodeCrates with tokenConfigs := fun _ => .ok [slowToken] }

def slowSettings : Settings := { sampleSettings with tokens := [slowToken] }

def emptyWorld : PriceWorld := ⟨1010 * nanosPerSecond, 0, .new⟩

/-- The price is built at second 1010 and every later cycle is dropped. -/
def builtWorld : PriceWorld :=
  play (PriceScript.respond (Option ℚ) noQuote fiveSecondLedgers)
    (executePriceCycle exactNumerics slowCrates slowSettings unsigned) emptyWorld.enter

/-- The keeper's cycle begins 310 s later. -/
def lateWorld : World :=
  { startWorld 100 with
    clock := 1320 * nanosPerSecond
    app := AppState.new.setPriceCache { AppState.new.priceCache with prices := builtWorld.prices } }

/-- The account sequence takes 20 s, and the submission is not answered. -/
def respondLate : Player KeeperRequest KeeperRequest.Answer World := fun q w =>
  match q with
  | .settle _ => none
  | .state op => if op.writesPrices then none else KeeperScript.respond unansweredOrder (.state op) w
  | .accountSequence =>
      KeeperScript.respond unansweredOrder .accountSequence (w.tick (20 * nanosPerSecond))
  | q => KeeperScript.respond unansweredOrder q w

def lateCycle : World :=
  play respondLate (executeKeeperCycle slowCrates slowSettings sampleSign) lateWorld.enter

abbrev slowKeeper : Surroundings KeeperRequest KeeperRequest.Answer World :=
  besidePriceLoop exactNumerics slowCrates slowSettings unsigned fiveSecondLedgers emptyWorld

theorem fiveSecondLedgers_pace : LedgerPace fiveSecondLedgers where
  forward _ _ := Nat.div_le_div_right (Nat.le_add_right _ _)
  pace time nanos := by
    have h := Nat.add_div (a := time) (b := nanos) (c := ledgerPeriod) (by decide)
    show (time + nanos) / ledgerPeriod ≤ time / ledgerPeriod + nanos / ledgerPeriod + 1
    rw [h]
    split <;> omega

theorem priced_builtWorld {w : World} (hprices : w.app.priceCache.prices = builtWorld.prices)
    (hclock : 1010 * nanosPerSecond ≤ w.clock) :
    Priced exactNumerics slowCrates slowSettings unsigned fiveSecondLedgers emptyWorld w := by
  have hbuilt : builtWorld.clock = 1010 * nanosPerSecond := by decide +kernel
  obtain ⟨nanos, hnanos⟩ := Nat.exists_eq_add_of_le hclock
  refine ⟨{ builtWorld with clock := builtWorld.clock + nanos }, ?_, ?_, hprices.symm⟩
  · exact .interfere (.round .start (visits_play PriceScript.respond_plays _ _) rfl)
      (.tick builtWorld nanos)
  · rw [hnanos, ← hbuilt]

theorem slow_sequence : ∃ tr, Runs (getAccountSequence slowCrates slowSettings) tr (.ok 7) :=
  ⟨[⟨.getLedgerEntries [], .http 200 ""⟩], .ask _ _ (.done _)⟩

/-- What the player relies on: the price loop does nothing after its first cycle. -/
def Idle (w : World) : Prop :=
  w.app.priceCache.prices = builtWorld.prices ∧ 1010 * nanosPerSecond ≤ w.clock

theorem Idle.answered {q : KeeperRequest} (hq : ∀ op, q = .state op → op.writesPrices = false)
    {w v : World} (hw : Idle w) {r : q.Answer}
    (ha : (keeper slowCrates slowSettings).answer q w r v) : Idle v := by
  refine ⟨(answer_prices hq ha).trans hw.1, ?_⟩
  rw [(answer_timing ha).1]
  exact hw.2

theorem respondLate_answers (q : KeeperRequest) (w : World) (r : q.Answer) (u : World) (hw : Idle w)
    (h : respondLate q w = some (r, u)) :
    Idle u ∧ ∃ v, slowKeeper.Interferes w v ∧ slowKeeper.answer q v r u := by
  have hnow : ∀ q : KeeperRequest, ∀ (r : q.Answer) u, (∀ signedXdr, q ≠ .settle signedXdr) →
      (∀ op, q = .state op → op.writesPrices = false) →
      KeeperScript.respond unansweredOrder q w = some (r, u) →
      Idle u ∧ ∃ v, slowKeeper.Interferes w v ∧ slowKeeper.answer q v r u := by
    intro q r u hsettle hop h
    have ha := respond_answers slow_sequence hsettle h
    exact ⟨hw.answered hop ha, w, .refl, ha, trivial⟩
  cases q with
  | settle => cases h
  | state op =>
      dsimp only [respondLate] at h
      split at h
      next => cases h
      next hop =>
        refine hnow (.state op) r u (fun _ h => by cases h) ?_ h
        rintro op' ⟨⟩
        exact Bool.eq_false_of_not_eq_true hop
  | accountSequence =>
      have hlate : Idle (w.tick (20 * nanosPerSecond)) := ⟨hw.1, hw.2.trans (Nat.le_add_right _ _)⟩
      have hreply : KeeperScript.respond unansweredOrder .accountSequence
          (w.tick (20 * nanosPerSecond)) = some (r, u) := h
      have hne : ∀ signedXdr, KeeperRequest.accountSequence ≠ .settle signedXdr :=
        fun _ h => nomatch h
      have ha := respond_answers slow_sequence hne hreply
      refine ⟨hlate.answered (q := .accountSequence) (fun _ h => nomatch h) ha,
        _, .single ⟨.tick w _, priced_builtWorld hlate.1 hlate.2⟩, ha, trivial⟩
  | unixTime | checkKeeperBalance | pendingKeys | send | sleep | abort =>
      exact hnow _ r u (fun _ h => by cases h) (fun _ h => by cases h) h

theorem cycleRuns_lateCycle :
    CycleRuns slowCrates slowSettings sampleSign slowKeeper dropped lateWorld lateCycle.leave :=
  .round .start (visits_play_within respondLate_answers _ ⟨rfl, by decide⟩) rfl

/-- The price is 330 s and 66 ledgers old when the batch is sent. -/
theorem lateCycle_sent :
    ∃ s ∈ lateCycle.leave.sent, ∃ batch, s.work = .setPrices batch ∧
      ∃ price, batch["cbtc"]? = some price ∧ price.timestamp = 1010 ∧ price.ledgerSeq = 202 ∧
        s.sentAt = 1340 * nanosPerSecond := by
  have htest : (lateCycle.leave.sent.any fun s =>
      (Work.published s.work)["cbtc"]?.any fun price => decide (price.timestamp = 1010 ∧
        price.ledgerSeq = 202 ∧ s.sentAt = 1340 * nanosPerSecond)) = true := by decide +kernel
  obtain ⟨s, hs, hbatch⟩ := List.any_eq_true.mp htest
  obtain ⟨price, hprice, hage⟩ := Option.any_eq_true _ _ |>.mp hbatch
  cases hwork : s.work with
  | setPrices batch =>
      rw [hwork] at hprice
      exact ⟨s, hs, batch, hwork, price, hprice, of_decide_eq_true hage⟩
  | handler method key =>
      rw [hwork] at hprice
      cases hprice

end Samples

theorem setPrices_batch_age_lateCycle :
    ∃ s ∈ lateCycle.leave.sent, ∃ batch, s.work = .setPrices batch ∧ ∃ price,
      batch["cbtc"]? = some price ∧ secondsOf s.sentAt < price.timestamp + 320 + 50 := by
  obtain ⟨s, hs, batch, hbatch, price, hprice, -⟩ := lateCycle_sent
  obtain ⟨token, htoken, -, -, -, hage, -⟩ := setPrices_batch_age fiveSecondLedgers_pace rfl
    (by decide) rfl (priced_builtWorld rfl (by decide)) cycleRuns_lateCycle hs hbatch hprice
  obtain rfl : token = slowToken := List.mem_singleton.mp htoken
  exact ⟨s, hs, batch, hbatch, price, hprice, hage⟩

/-- An accepted configuration, and a batch with a price that is stale under its
token's own limit and meets neither condition of the contract. -/
theorem setPrices_batch_too_old :
    parseTokenConfigs slowCrates "[]" = .ok slowSettings.tokens ∧
      CycleRuns slowCrates slowSettings sampleSign slowKeeper dropped lateWorld lateCycle.leave ∧
      Priced exactNumerics slowCrates slowSettings unsigned fiveSecondLedgers emptyWorld lateWorld ∧
      ∃ s ∈ lateCycle.leave.sent, ∃ batch, s.work = .setPrices batch ∧ ∃ price,
        batch["cbtc"]? = some price ∧
        price.isStale slowToken.staleAfterSeconds (secondsOf s.sentAt) = true ∧
        ¬secondsOf s.sentAt ≤ price.timestamp + contractMaxAgeSeconds ∧
        ¬fiveSecondLedgers s.sentAt ≤ price.ledgerSeq + contractMaxLedgers := by
  refine ⟨by decide, cycleRuns_lateCycle, priced_builtWorld rfl (by decide), ?_⟩
  obtain ⟨s, hs, batch, hbatch, price, hprice, htimestamp, hledger, hsent⟩ := lateCycle_sent
  refine ⟨s, hs, batch, hbatch, price, hprice, ?_, ?_, ?_⟩
  · rw [CachedPrice.isStale, htimestamp, hsent]
    decide
  · rw [htimestamp, hsent]
    decide
  · rw [hledger, hsent]
    decide

end So4Oracle.BatchAge
