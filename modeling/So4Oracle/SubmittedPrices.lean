import So4Oracle.Provenance

namespace So4Oracle.SubmittedPrices

open Library.Requests Library.Safety Library.Protocol Wire Config State Chain Sources PriceCycle Submit
  Handler Keeper KeeperRuns KeeperRequests PriceScript BatchAge Provenance

variable {F : Type} {num : Numerics F} {crates : Crates} {settings : Settings}
  {signPrice : SignPrice} {sign : Transaction → Except String String} {ledgerAt : Nat → Nat}

section Modes

def Within (batch taken : PriceMap) : Prop :=
  ∀ (key : String) price, batch[key]? = some price → taken[key]? = some price

variable (crates settings) in
/-- The mode is the snapshot that was taken last; only its prices are submitted. -/
inductive Step : PriceMap → (q : KeeperRequest) → q.Answer → PriceMap → Prop
  | other {q} (hq : SubmitsNoPrices q) (taken r) : Step taken q r taken
  | take (taken prices) : Step taken (.state .readPrices) prices prices
  | submit {taken batch tx} (hbatch : Within batch taken) (htx : Carries crates settings batch tx)
      (signedXdr) : Step taken (.send (.setPrices batch) tx signedXdr) () taken

variable {taken : PriceMap}

theorem follows_other {α : Type} {q : KeeperRequest} (hq : SubmitsNoPrices q)
    {f : q.Answer → KeeperProgram α} {Q : α → PriceMap → Prop}
    (hf : ∀ r, Follows (Step crates settings) taken (f r) Q) :
    Follows (Step crates settings) taken (Program.request q >>= f) Q :=
  fun r => ⟨taken, .other hq taken r, hf r⟩

theorem snapshot_follows :
    Follows (Step crates settings) taken (snapshot crates settings) Within := by
  refine follows_other (q := .unixTime) trivial (fun now prices => ?_)
  exact ⟨prices, .take taken prices, fun _ _ hprice => (getElem?_filter_eq_some.mp hprice).1⟩

theorem openCycle_follows :
    Follows (Step crates settings) taken (openCycle crates settings)
      (fun opened taken' => ∀ pending, opened = .ok pending →
        Within pending.freshPrices taken') := by
  refine follows_other (q := .state .sweepExpiredInFlightKeys) rfl (fun _ => ?_)
  refine follows_other (q := .checkKeeperBalance) trivial (fun balance => ?_)
  apply Follows.bind
  apply snapshot_follows.mono
  intro fresh taken' hfresh
  refine follows_other (q := .pendingKeys) trivial (fun fetched => ?_)
  refine follows_other (q := .state (.setPending _ _ _)) rfl (fun _ => ?_)
  split
  · exact fun pending hpending => nomatch hpending
  · rintro pending ⟨⟩
    exact hfresh

theorem setPricesOnChain_follows {batch : PriceMap} (hbatch : Within batch taken) :
    Follows (Step crates settings) taken (setPricesOnChain crates settings sign batch)
      (fun _ taken' => taken' = taken) := by
  apply setPricesOnChain_rule
  · exact fun q hq r => .other (submitsNoPrices_of_inLoop q (inLoop_of_inCall q hq)) taken r
  · exact fun _ => rfl
  · exact fun tx signedXdr htx => ⟨taken, .submit hbatch htx signedXdr, fun r =>
      ⟨taken, .other (q := .settle signedXdr) trivial taken r, rfl⟩⟩

theorem publishFresh_follows {pending : Pending} (hfresh : Within pending.freshPrices taken) :
    Follows (Step crates settings) taken (publishFresh crates settings sign pending)
      (fun _ taken' => taken' = taken) := by
  rw [publishFresh]
  split
  · rfl
  · refine follows_other (q := .unixTime) trivial (fun now => ?_)
    refine follows_other (q := .state .readLastFullSubmission) rfl (fun lastFullSubmission => ?_)
    refine follows_other (q := .state .readLastSubmittedMedians) rfl (fun lastSubmitted => ?_)
    dsimp only
    split
    · rfl
    · apply Follows.bind
      apply (setPricesOnChain_follows
        (fun key price hprice => hfresh key price (getElem?_pricesToSubmit hprice))).mono
      rintro r _ rfl
      cases r with
      | error e => rfl
      | ok confirmed =>
          refine follows_other (q := .state (.updateSubmittedPrices _ _ _)) rfl (fun _ => ?_)
          exact follows_other (q := .sleep _) trivial (fun _ => rfl)

theorem executePending_loopRules : LoopRules (Step crates settings) taken where
  inLoop q hq r := .other (submitsNoPrices_of_inLoop q hq) taken r
  submission method key tx signedXdr :=
    ⟨taken, .other (q := .send (.handler method key) tx signedXdr) rfl taken (),
      fun r => .other (q := .settle signedXdr) trivial taken r⟩

theorem executeKeeperCycle_follows :
    Follows (Step crates settings) taken (executeKeeperCycle crates settings sign)
      (fun _ _ => True) := by
  apply Follows.bind
  apply Follows.bind
  apply openCycle_follows.mono
  intro opened taken' hopened
  cases opened with
  | error summary => trivial
  | ok pending =>
      apply Follows.bind
      apply (publishFresh_follows (hopened pending rfl)).mono
      rintro published _ rfl
      cases published with
      | error e => trivial
      | ok =>
          apply Follows.bind
          exact (executePending_follows executePending_loopRules).mono (fun _ _ _ => trivial)

end Modes

section Runs

variable (num crates settings signPrice) in
def Vouched (s : Sent) : Prop :=
  ∀ batch, s.work = .setPrices batch →
    Carries crates settings batch s.tx ∧ OfTokens num crates settings signPrice batch

variable (num crates settings signPrice) in
structure Accounted (taken : PriceMap) (w : World) : Prop where
  taken : OfTokens num crates settings signPrice taken
  cached : OfTokens num crates settings signPrice w.app.priceCache.prices
  sent : ∀ s ∈ w.sent, Vouched num crates settings signPrice s

variable {taken taken' : PriceMap} {p : PriceWorld} {w v : World}

theorem vouched_of_handler {s : Sent} (h : Work.isSetPrices s.work = false) :
    Vouched num crates settings signPrice s := by
  intro batch hbatch
  rw [hbatch] at h
  cases h

theorem Accounted.answered {q : KeeperRequest} (hq : SubmitsNoPrices q) {r : q.Answer}
    (hw : Accounted num crates settings signPrice taken w)
    (ha : (keeper crates settings).answer q w r v) :
    Accounted num crates settings signPrice taken v := by
  refine ⟨hw.taken, ?_,
    sent_of_answer hq (fun _ => vouched_of_handler) (fun _ _ h => h) ha hw.sent⟩
  rw [prices_of_answer hq ha]
  exact hw.cached

theorem Accounted.step {q : KeeperRequest} {r : q.Answer}
    (hw : Accounted num crates settings signPrice taken w)
    (hstep : Step crates settings taken q r taken')
    (ha : (keeper crates settings).answer q w r v) :
    Accounted num crates settings signPrice taken' v := by
  cases hstep with
  | other hq => exact hw.answered hq ha
  | take =>
      have hv := hw.answered (q := .state .readPrices) rfl ha
      have hread := ha.2.1
      refine ⟨?_, hv.cached, hv.sent⟩
      rw [hread]
      exact hw.cached
  | submit hbatch htx signedXdr =>
      obtain ⟨-, rfl⟩ := ha
      refine ⟨hw.taken, hw.cached, List.forall_mem_cons.mpr ⟨?_, hw.sent⟩⟩
      rintro _ ⟨⟩
      exact ⟨htx, fun key price hprice => hw.taken key price (hbatch key price hprice)⟩

theorem accounted_stable (hp : OfTokens num crates settings signPrice p.prices) :
    (besidePriceLoop num crates settings signPrice ledgerAt p).Stable
      (Accounted num crates settings signPrice taken) := by
  rintro w v hw ⟨hi, q, hq, -, hprices⟩
  exact ⟨hw.taken, hprices ▸ priceRuns_ofTokens hp hq,
    sent_of_interference (fun _ h => h) hi hw.sent⟩

theorem cycleRuns_accounted (hp : OfTokens num crates settings signPrice p.prices)
    (hw : ∃ taken, Accounted num crates settings signPrice taken w)
    (hrun : CycleRuns crates settings sign
      (besidePriceLoop num crates settings signPrice ledgerAt p) dropped w v) :
    ∃ taken, Accounted num crates settings signPrice taken v := by
  let I := fun v : World => ∃ taken, Accounted num crates settings signPrice taken v
  have hstable : (besidePriceLoop num crates settings signPrice ledgerAt p).Stable I := by
    rintro w v ⟨taken, hw⟩ hi
    exact ⟨taken, accounted_stable hp w v hw hi⟩
  refine Rounds.invariant (I := I) (Q := fun _ => I) hrun hw hstable hstable ?_ ?_
  · rintro u z ⟨taken, hu⟩ rfl
    exact ⟨taken, hu.taken, hu.cached, hu.sent⟩
  · rintro u ⟨taken, hu⟩
    have hentered : Accounted num crates settings signPrice taken u.enter :=
      ⟨hu.taken, hu.cached, hu.sent⟩
    refine (Follows.safe (fun _ => accounted_stable hp)
      (fun _ _ _ _ _ _ hv hstep ha => hv.step hstep ha.1) executeKeeperCycle_follows
      hentered).mono ?_
    rintro _ z - ⟨taken', -, hz⟩
    exact ⟨taken', hz⟩

/-- Whatever the price loop and the node do meanwhile and wherever the cycles
are dropped, a set_prices transaction carries exactly the prices of its batch,
and each of them was built for a token under its key, from enough quotes of its
own sources, and is submitted with the signature it was built with. -/
theorem setPrices_origin (hempty : ∀ key : String, p.prices[key]? = none) (hsent : w.sent = [])
    (hpriced : Priced num crates settings signPrice ledgerAt p w)
    (hrun : CycleRuns crates settings sign
      (besidePriceLoop num crates settings signPrice ledgerAt p) dropped w v)
    {s : Sent} (hs : s ∈ v.sent) {batch : PriceMap} (hbatch : s.work = .setPrices batch) :
    Carries crates settings batch s.tx ∧
      ∀ (key : String) price, batch[key]? = some price → ∃ token ∈ settings.tokens,
        lookupKey crates token = key ∧ Origin num settings signPrice token price ∧
        price.sourcesUsed ⊆ token.sources ∧ token.minSources ≤ price.sourcesUsed.length := by
  have hp : OfTokens num crates settings signPrice p.prices := by
    intro key price hprice
    rw [hempty key] at hprice
    cases hprice
  obtain ⟨q, hq, -, hprices⟩ := hpriced
  have hw : Accounted num crates settings signPrice p.prices w := by
    refine ⟨hp, hprices ▸ priceRuns_ofTokens hp hq, ?_⟩
    rw [hsent]
    exact fun s hs => nomatch hs
  obtain ⟨taken, hv⟩ := cycleRuns_accounted hp ⟨_, hw⟩ hrun
  obtain ⟨hcarries, horigins⟩ := hv.sent s hs batch hbatch
  refine ⟨hcarries, fun key price hprice => ?_⟩
  obtain ⟨token, htoken, hkey, horigin⟩ := horigins key price hprice
  exact ⟨token, htoken, hkey, horigin, horigin.sourcesUsed⟩

theorem setPrices_origin_lateCycle :
    ∃ s ∈ lateCycle.leave.sent, s.tx.functionName = "set_prices" ∧ ∃ batch,
      s.work = .setPrices batch ∧ ∃ price, batch["cbtc"]? = some price ∧
        Origin exactNumerics slowSettings unsigned slowToken price := by
  obtain ⟨s, hs, batch, hbatch, price, hprice, -⟩ := lateCycle_sent
  obtain ⟨hcarries, horigins⟩ := setPrices_origin (fun _ => Std.TreeMap.getElem?_emptyc) rfl
    (priced_builtWorld rfl (by decide)) cycleRuns_lateCycle hs hbatch
  obtain ⟨token, htoken, -, horigin, -⟩ := horigins "cbtc" price hprice
  obtain rfl : token = slowToken := List.mem_singleton.mp htoken
  exact ⟨s, hs, hcarries.functionName, batch, hbatch, price, hprice, horigin⟩

end Runs

end So4Oracle.SubmittedPrices
