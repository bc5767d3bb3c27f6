import So4Oracle.KeeperRequests
import So4Oracle.KeeperScript
import So4Oracle.Library.Protocol
import So4Oracle.MoveThreshold

namespace So4Oracle.Baseline

open Library.Checked Library.Requests Library.Safety Library.Protocol Wire Config State Chain StellarRpc
  Submit SubmitOutcome Handler Keeper KeeperRuns KeeperRequests KeeperScript

variable {crates : Crates} {settings : Settings} {sign : Transaction → Except String String}

section Recorded

/-- A set_prices transaction lands only while its outcome is awaited. -/
def LandsAwaited (w v : World) : Prop :=
  ∀ newer s older, w.sent = newer ++ s :: older → s.landed = false →
    v.sent = newer ++ { s with landed := true } :: older → Work.isSetPrices s.work = true →
    newer = [] ∧ w.phase = .awaiting

/-- A set_prices transaction that has landed is reported so. -/
def ReportsLanded : (q : KeeperRequest) → World → q.Answer → World → Prop
  | .settle _, w, r, _ => ∀ s rest e, w.sent = s :: rest → Work.isSetPrices s.work = true →
      r = .error e → s.landed = false
  | _, _, _, _ => True

variable (crates settings) in
def recording : Surroundings KeeperRequest KeeperRequest.Answer World :=
  (keeper crates settings).restrict ReportsLanded LandsAwaited

/-- A cycle ends with no landed set_prices transaction left unrecorded. -/
def recordedDrop (w v : World) : Prop :=
  v = w.leave ∧ w.phase ≠ .confirmed ∧
    (w.phase = .awaiting → ∀ s rest, w.sent = s :: rest → Work.isSetPrices s.work = true →
      s.landed = false)

end Recorded

section Moves

def lastMedian (lastSubmitted : Option (KeyMap Int)) (key : String) : Option Int :=
  lastSubmitted.bind fun submitted => submitted[key]?

/-- The move between two medians is within the threshold, in exact arithmetic. -/
def WithinThreshold (last median : Int) (thresholdBps : Nat) : Prop :=
  |median - last| * 10000 ≤ |last| * thresholdBps

theorem withinThreshold_refl (median : Int) (thresholdBps : Nat) :
    WithinThreshold median median thresholdBps := by
  rw [WithinThreshold]
  rw [Int.sub_self, abs_zero, Int.zero_mul]
  exact Int.mul_nonneg (abs_nonneg median) (Int.natCast_nonneg thresholdBps)

theorem withinThreshold_of_move {last median : Int} {thresholdBps : Nat}
    (h : moveExceedsBps last median thresholdBps = false) :
    WithinThreshold last median thresholdBps := by
  rcases MoveThreshold.moveExceedsBps_eq_false.mp h with rfl | ⟨-, hwithin⟩
  · exact withinThreshold_refl median thresholdBps
  · exact hwithin

/-- A price that need not be submitted is within its token's threshold of the
last submitted one. -/
theorem withinThreshold_of_not_mustSubmit {lastSubmitted : Option (KeyMap Int)} {key : String}
    {price : CachedPrice} (h : mustSubmit crates settings lastSubmitted key price = false) :
    ∃ last, lastMedian lastSubmitted key = some last ∧
      WithinThreshold last price.median ((tokenThresholds crates settings).getD key 0) := by
  unfold mustSubmit at h
  dsimp only at h
  split at h
  next => cases h
  next _ last hlast _ => exact ⟨last, hlast, withinThreshold_of_move h⟩
  next => cases h

/-- With a key of its own a token decides on the threshold of that key. -/
theorem tokenThresholds_getD {token : TokenConfig} (htoken : token ∈ settings.tokens)
    (hkey : ∀ other ∈ settings.tokens, lookupKey crates other = lookupKey crates token →
      other = token) :
    (tokenThresholds crates settings).getD (lookupKey crates token) 0 = token.submitThresholdBps := by
  have hsome : (tokenThresholds crates settings)[lookupKey crates token]?.isSome :=
    isSome_getElem?_ofList.mpr ⟨token.submitThresholdBps, List.mem_map.mpr ⟨token, htoken, rfl⟩⟩
  obtain ⟨threshold, hthreshold⟩ := Option.isSome_iff_exists.mp hsome
  obtain ⟨other, hother, heq⟩ := List.mem_map.mp (mem_of_getElem?_ofList hthreshold)
  obtain ⟨hsame, rfl⟩ := Prod.mk.inj heq
  obtain rfl := hkey other hother hsame
  rw [Std.TreeMap.getD_eq_getD_getElem?, hthreshold, Option.getD_some]

end Moves

section Agreement

/-- The baseline holds no other median than the one on chain. -/
def Agrees (lastSubmitted : Option (KeyMap Int)) (onChain : String → Option Int) : Prop :=
  ∀ key last median, lastMedian lastSubmitted key = some last → onChain key = some median →
    median = last

/-- The batch is on chain, and outside of it the baseline still agrees. -/
structure Replaced (lastSubmitted : Option (KeyMap Int)) (batch : PriceMap)
    (onChain : String → Option Int) : Prop where
  inside : ∀ (key : String) price, batch[key]? = some price → onChain key = some price.median
  outside : ∀ key last median, batch[key]? = none → lastMedian lastSubmitted key = some last →
    onChain key = some median → median = last

variable {lastSubmitted : Option (KeyMap Int)} {batch : PriceMap} {onChain : String → Option Int}

theorem land_handler (onChain : String → Option Int) {work : Work}
    (h : Work.isSetPrices work = false) : land onChain work = onChain := by
  funext key
  cases work with
  | setPrices prices => cases h
  | handler method key' =>
      show ((∅ : PriceMap)[key]?.map CachedPrice.median).or (onChain key) = onChain key
      rw [Std.TreeMap.getElem?_emptyc, Option.map_none, Option.none_or]

theorem Agrees.land (h : Agrees lastSubmitted onChain) (batch : PriceMap) :
    Replaced lastSubmitted batch (KeeperRuns.land onChain (.setPrices batch)) where
  inside key price hprice := by
    show (batch[key]?.map CachedPrice.median).or (onChain key) = some price.median
    rw [hprice]
    rfl
  outside key last median hnone hlast hmedian := by
    have hkept : (batch[key]?.map CachedPrice.median).or (onChain key) = some median := hmedian
    rw [hnone] at hkept
    exact h key last median hlast hkept

theorem getElem?_medians (batch : PriceMap) (key : String) :
    (medians batch)[key]? = batch[key]?.map CachedPrice.median :=
  Std.TreeMap.getElem?_map

theorem lastMedian_submitted (cache : PriceCache) (batch : PriceMap) (now : Nat) (isHeartbeat : Bool)
    (key : String) :
    lastMedian (cache.submitted batch now isHeartbeat).lastSubmittedMedians key =
      (batch[key]?.map CachedPrice.median).or
        (if isHeartbeat then none else lastMedian cache.lastSubmittedMedians key) := by
  rw [PriceCache.submitted]
  cases isHeartbeat with
  | true =>
      show (medians batch)[key]? = _
      rw [getElem?_medians, if_pos rfl, Option.or_none]
  | false =>
      show ((cache.lastSubmittedMedians.getD ∅).insertMany (medians batch).toList)[key]? = _
      rw [getElem?_insertMany_toList, getElem?_medians]
      cases cache.lastSubmittedMedians with
      | none =>
          show _ = Option.or _ none
          rw [Option.getD_none, Std.TreeMap.getElem?_emptyc]
      | some submitted => rfl

/-- Recording a batch that is on chain brings the baseline into agreement. -/
theorem Replaced.recorded {cache : PriceCache} (h : Replaced cache.lastSubmittedMedians batch onChain)
    (now : Nat) (isHeartbeat : Bool) :
    Agrees (cache.submitted batch now isHeartbeat).lastSubmittedMedians onChain := by
  intro key last median hlast hmedian
  rw [lastMedian_submitted] at hlast
  cases hbatch : batch[key]? with
  | some price =>
      rw [hbatch, Option.map_some, Option.some_or] at hlast
      rw [h.inside key price hbatch] at hmedian
      exact (Option.some.inj hmedian).symm.trans (Option.some.inj hlast)
  | none =>
      rw [hbatch, Option.map_none, Option.none_or] at hlast
      split at hlast
      · cases hlast
      · exact h.outside key last median hbatch hlast hmedian

end Agreement

section Protocol

/-- What a cycle knows of the baseline and of the transaction it sent last. -/
inductive Mode
  | steady
  | read (last : Option (KeyMap Int))
  | awaiting (last : Option (KeyMap Int)) (batch : PriceMap)
  | landed (last : Option (KeyMap Int)) (batch : PriceMap)
  | recorded (last : Option (KeyMap Int)) (batch : PriceMap)
  | executing

inductive Step : Rules KeeperRequest KeeperRequest.Answer Mode
  | plain (m) {q : KeeperRequest} (hq : Plain q) (r : q.Answer) : Step m q r m
  | read (r) : Step .steady (.state .readLastSubmittedMedians) r (.read r)
  | send (last batch tx signedXdr) :
      Step (.read last) (.send (.setPrices batch) tx signedXdr) () (.awaiting last batch)
  | confirmed (last batch signedXdr ledger) :
      Step (.awaiting last batch) (.settle signedXdr) (.ok ledger) (.landed last batch)
  | failed (last batch signedXdr e) :
      Step (.awaiting last batch) (.settle signedXdr) (.error e) .steady
  | record (last batch now isHeartbeat) :
      Step (.landed last batch) (.state (.updateSubmittedPrices batch now isHeartbeat)) ()
        (.recorded last batch)
  | execute (method key tx signedXdr) :
      Step .steady (.send (.handler method key) tx signedXdr) () .executing
  | executed (signedXdr r) : Step .executing (.settle signedXdr) r .steady

theorem steady_loopRules : LoopRules Step .steady where
  inLoop q hq r := .plain _ (plain_of_inLoop q hq) r
  submission method key tx signedXdr :=
    ⟨.executing, .execute method key tx signedXdr, fun r => .executed signedXdr r⟩

def baseline (w : World) : Option (KeyMap Int) := w.app.priceCache.lastSubmittedMedians

/-- What holds in each mode. -/
inductive Holds : Mode → World → Prop
  | steady {w} (hphase : w.phase = .idle) (h : Agrees (baseline w) w.onChain) : Holds .steady w
  | read {w last} (hlast : baseline w = last) (hphase : w.phase = .idle)
      (h : Agrees (baseline w) w.onChain) : Holds (.read last) w
  | waiting {w last batch s rest} (hlast : baseline w = last) (hphase : w.phase = .awaiting)
      (hsent : w.sent = s :: rest) (hwork : s.work = .setPrices batch) (hlanded : s.landed = false)
      (h : Agrees (baseline w) w.onChain) : Holds (.awaiting last batch) w
  | unheard {w last batch s rest} (hlast : baseline w = last) (hphase : w.phase = .awaiting)
      (hsent : w.sent = s :: rest) (hwork : s.work = .setPrices batch) (hlanded : s.landed = true)
      (h : Replaced (baseline w) batch w.onChain) : Holds (.awaiting last batch) w
  | landed {w last batch} (hlast : baseline w = last) (hphase : w.phase = .confirmed)
      (h : Replaced (baseline w) batch w.onChain) : Holds (.landed last batch) w
  | recorded {w last batch} (hphase : w.phase = .idle) (h : Agrees (baseline w) w.onChain)
      (hbatch : Replaced last batch w.onChain) : Holds (.recorded last batch) w
  | executing {w s rest} (hphase : w.phase = .awaiting) (hsent : w.sent = s :: rest)
      (hwork : Work.isSetPrices s.work = false) (h : Agrees (baseline w) w.onChain) :
      Holds .executing w

/-- Interference that leaves the medians on chain alone. -/
structure Undisturbed (w v : World) : Prop where
  onChain : v.onChain = w.onChain
  newest : ∀ s rest, w.sent = s :: rest → ∃ s' rest', v.sent = s' :: rest' ∧ s'.work = s.work ∧
    (Work.isSetPrices s.work = true → s'.landed = s.landed)

theorem undisturbed_of_sent {w v : World} (honChain : v.onChain = w.onChain)
    (hsent : v.sent = w.sent) : Undisturbed w v :=
  ⟨honChain, fun s rest h => ⟨s, rest, hsent.trans h, rfl, fun _ => rfl⟩⟩

theorem eq_setPrices {work : Work} (h : Work.isSetPrices work = true) :
    ∃ batch, work = .setPrices batch := by
  cases work with
  | setPrices batch => exact ⟨batch, rfl⟩
  | handler => cases h

/-- Only the landing of the awaited batch changes the medians on chain. -/
theorem recording_interfere {w v : World} (h : (recording crates settings).interfere w v) :
    v.phase = w.phase ∧ baseline v = baseline w ∧
      (Undisturbed w v ∨ ∃ s rest batch, w.phase = .awaiting ∧ w.sent = s :: rest ∧
        s.work = .setPrices batch ∧ s.landed = false ∧
        v.sent = { s with landed := true } :: rest ∧
        v.onChain = land w.onChain (.setPrices batch)) := by
  obtain ⟨hi, hlands⟩ := h
  cases hi with
  | tick nanos => exact ⟨rfl, rfl, .inl (undisturbed_of_sent rfl rfl)⟩
  | shared app happ => exact ⟨rfl, happ.lastSubmittedMedians, .inl (undisturbed_of_sent rfl rfl)⟩
  | land newer s older hsent hl =>
      refine ⟨rfl, rfl, ?_⟩
      by_cases hset : Work.isSetPrices s.work = true
      · obtain ⟨rfl, hphase⟩ := hlands newer s older hsent hl rfl hset
        obtain ⟨batch, hwork⟩ := eq_setPrices hset
        exact .inr ⟨s, older, batch, hphase, hsent, hwork, hl, rfl, congrArg (land w.onChain) hwork⟩
      · refine .inl ⟨land_handler _ (Bool.eq_false_of_not_eq_true hset), fun t rest ht => ?_⟩
        rw [hsent] at ht
        cases newer with
        | nil =>
            obtain ⟨rfl, rfl⟩ := List.cons.inj ht
            exact ⟨_, _, rfl, rfl, fun htrue => absurd htrue hset⟩
        | cons first newer =>
            obtain ⟨rfl, rfl⟩ := List.cons.inj ht
            exact ⟨_, _, rfl, rfl, fun _ => rfl⟩

theorem Holds.undisturbed {m : Mode} {w v : World} (hw : Holds m w) (hphase : v.phase = w.phase)
    (hbaseline : baseline v = baseline w) (hquiet : Undisturbed w v) : Holds m v := by
  have honChain := hquiet.onChain
  cases hw with
  | steady hw h => exact .steady (hphase.trans hw) (by rw [hbaseline, honChain]; exact h)
  | read hlast hw h =>
      exact .read (hbaseline.trans hlast) (hphase.trans hw) (by rw [hbaseline, honChain]; exact h)
  | waiting hlast hw hsent hwork hlanded h =>
      obtain ⟨s', rest', hsent', hsame, hflag⟩ := hquiet.newest _ _ hsent
      rw [hwork] at hsame hflag
      exact .waiting (hbaseline.trans hlast) (hphase.trans hw) hsent' hsame ((hflag rfl).trans hlanded)
        (by rw [hbaseline, honChain]; exact h)
  | unheard hlast hw hsent hwork hlanded h =>
      obtain ⟨s', rest', hsent', hsame, hflag⟩ := hquiet.newest _ _ hsent
      rw [hwork] at hsame hflag
      exact .unheard (hbaseline.trans hlast) (hphase.trans hw) hsent' hsame ((hflag rfl).trans hlanded)
        (by rw [hbaseline, honChain]; exact h)
  | landed hlast hw h =>
      exact .landed (hbaseline.trans hlast) (hphase.trans hw)
        (by rw [hbaseline, honChain]; exact h)
  | recorded hw h hbatch =>
      exact .recorded (hphase.trans hw) (by rw [hbaseline, honChain]; exact h)
        (by rw [honChain]; exact hbatch)
  | executing hw hsent hwork h =>
      obtain ⟨s', rest', hsent', hsame, -⟩ := hquiet.newest _ _ hsent
      exact .executing (hphase.trans hw) hsent' (hsame ▸ hwork)
        (by rw [hbaseline, honChain]; exact h)

theorem holds_stable (m : Mode) : (recording crates settings).Stable (Holds m) := by
  intro w v hw hi
  obtain ⟨hphase, hbaseline, hquiet | ⟨t, rest', batch', hawaiting, hsent', hwork', hl, hsent'',
    hland⟩⟩ := recording_interfere hi
  · exact hw.undisturbed hphase hbaseline hquiet
  · cases hw with
    | steady hw | recorded hw | read _ hw | landed _ hw =>
        rw [hw] at hawaiting
        cases hawaiting
    | waiting hlast hw hsent hwork hlanded h =>
        rw [hsent] at hsent'
        obtain ⟨rfl, rfl⟩ := List.cons.inj hsent'
        rw [hwork] at hwork'
        cases hwork'
        refine .unheard (hbaseline.trans hlast) (hphase.trans hw) hsent'' hwork rfl ?_
        rw [hbaseline, hland]
        exact h.land _
    | unheard _ hw hsent hwork hlanded h =>
        rw [hsent] at hsent'
        obtain ⟨rfl, rfl⟩ := List.cons.inj hsent'
        rw [hl] at hlanded
        cases hlanded
    | executing hw hsent hwork h =>
        rw [hsent] at hsent'
        obtain ⟨rfl, rfl⟩ := List.cons.inj hsent'
        rw [hwork'] at hwork
        cases hwork

theorem plain_baseline {q : KeeperRequest} (hq : Plain q) {w v : World} {r : q.Answer}
    (h : (keeper crates settings).answer q w r v) :
    v.onChain = w.onChain ∧ baseline v = baseline w := by
  obtain ⟨-, h⟩ := h
  cases q with
  | state op =>
      obtain ⟨-, rfl⟩ := h
      cases op with
      | updateSubmittedPrices => exact absurd hq id
      | countFailure counter | clearFailures counter => cases counter <;> exact ⟨rfl, rfl⟩
      | _ => exact ⟨rfl, rfl⟩
  | unixTime | accountSequence =>
      obtain ⟨-, rfl⟩ := h
      exact ⟨rfl, rfl⟩
  | checkKeeperBalance | pendingKeys | sleep =>
      obtain rfl := h
      exact ⟨rfl, rfl⟩
  | send | settle => exact absurd hq id
  | abort => exact absurd h id

theorem holds_step {m m' : Mode} {q : KeeperRequest} {r : q.Answer} {w v : World} (hw : Holds m w)
    (hstep : Step m q r m') (ha : (recording crates settings).answer q w r v) : Holds m' v := by
  cases hstep with
  | plain m hq r =>
      obtain ⟨hsent, hphase⟩ := plain_answer hq ha.1
      obtain ⟨honChain, hbaseline⟩ := plain_baseline hq ha.1
      exact hw.undisturbed hphase hbaseline (undisturbed_of_sent honChain hsent)
  | read r =>
      obtain ⟨⟨-, rfl, rfl⟩, -⟩ := ha
      cases hw with
      | steady hw h => exact .read rfl hw h
  | send last batch tx signedXdr =>
      obtain ⟨⟨-, rfl⟩, -⟩ := ha
      cases hw with
      | read hlast hw h => exact .waiting hlast rfl rfl rfl rfl h
  | confirmed last batch signedXdr ledger =>
      obtain ⟨⟨-, s, rest, tr, hsent, -, hlanded, rfl⟩, -⟩ := ha
      cases hw with
      | waiting _ hw hsent' hwork hl h =>
          rw [hsent] at hsent'
          obtain ⟨rfl, rfl⟩ := List.cons.inj hsent'
          rw [hlanded ledger rfl] at hl
          cases hl
      | unheard hlast hw hsent' hwork hl h =>
          rw [hsent] at hsent'
          obtain ⟨rfl, rfl⟩ := List.cons.inj hsent'
          refine .landed hlast ?_ h
          show reportedPhase s.work (.ok ledger) = .confirmed
          rw [hwork]
          rfl
  | failed last batch signedXdr e =>
      obtain ⟨⟨-, s, rest, tr, hsent, -, -, rfl⟩, hreports⟩ := ha
      cases hw with
      | waiting _ hw hsent' hwork hl h => exact .steady rfl h
      | unheard _ hw hsent' hwork hl h =>
          rw [hsent] at hsent'
          obtain ⟨rfl, rfl⟩ := List.cons.inj hsent'
          have hset : Work.isSetPrices s.work = true := by rw [hwork]; rfl
          rw [hreports s rest e hsent hset rfl] at hl
          cases hl
  | record last batch now isHeartbeat =>
      obtain ⟨⟨-, -, rfl⟩, -⟩ := ha
      cases hw with
      | landed hlast hw h => exact .recorded rfl (h.recorded now isHeartbeat) (hlast ▸ h)
  | execute method key tx signedXdr =>
      obtain ⟨⟨-, rfl⟩, -⟩ := ha
      cases hw with
      | steady hw h => exact .executing rfl rfl rfl h
  | executed signedXdr r =>
      obtain ⟨⟨-, s, rest, tr, hsent, -, -, rfl⟩, -⟩ := ha
      cases hw with
      | executing hw hsent' hwork h =>
          rw [hsent] at hsent'
          obtain ⟨rfl, rfl⟩ := List.cons.inj hsent'
          refine .steady ?_ h
          show reportedPhase s.work r = .idle
          cases r with
          | ok ledger => simp [reportedPhase, hwork]
          | error e => rfl

theorem follows_plain {α : Type} {m : Mode} {q : KeeperRequest} (hq : Plain q)
    {f : q.Answer → KeeperProgram α} {Q : α → Mode → Prop} (hf : ∀ r, Follows Step m (f r) Q) :
    Follows Step m (Program.request q >>= f) Q :=
  fun r => ⟨m, .plain m hq r, hf r⟩

variable {last : Option (KeyMap Int)} {batch : PriceMap}

theorem setPricesOnChain_follows :
    Follows Step (.read last) (setPricesOnChain crates settings sign batch)
      (fun r m => ∀ confirmed, r = .ok confirmed → m = .landed last batch) := by
  apply setPricesOnChain_rule
  · exact fun q hq r => .plain _ (plain_of_inLoop q (inLoop_of_inCall q hq)) r
  · exact fun _ _ h => nomatch h
  · refine fun tx signedXdr _ => ⟨_, .send last batch tx signedXdr, fun r => ?_⟩
    cases r with
    | ok ledger => exact ⟨_, .confirmed last batch signedXdr ledger, fun _ _ => rfl⟩
    | error e => exact ⟨_, .failed last batch signedXdr e, fun _ h => nomatch h⟩

theorem publishPrices_follows {now : Nat} {isHeartbeat : Bool} :
    Follows Step (.read last) (publishPrices crates settings sign batch now isHeartbeat)
      (fun r m => r = .ok () → m = .recorded last batch) := by
  apply Follows.bind
  apply setPricesOnChain_follows.mono
  intro r m hm
  cases r with
  | error e => exact fun h => nomatch h
  | ok confirmed =>
      obtain rfl := hm confirmed rfl
      refine fun _ => ⟨_, .record last batch now isHeartbeat, ?_⟩
      exact follows_plain (q := .sleep postSetPricesSettleMs) trivial (fun _ _ => rfl)

variable (crates settings) in
/-- What had to be submitted of the fresh prices has been, against the baseline
that the stage has read. -/
def Published (fresh : PriceMap) (m : Mode) : Prop :=
  ∃ last isHeartbeat, m = .recorded last (pricesToSubmit crates settings fresh last isHeartbeat) ∨
    m = .read last ∧ (pricesToSubmit crates settings fresh last isHeartbeat).isEmpty = true

theorem setPricesStage_follows {fresh : PriceMap} :
    Follows Step .steady (setPricesStage crates settings sign fresh)
      (fun r m => r = .ok () → Published crates settings fresh m) := by
  refine follows_plain (q := .unixTime) trivial (fun now => ?_)
  refine follows_plain (q := .state .readLastFullSubmission) trivial (fun lastFullSubmission => ?_)
  refine fun last => ⟨_, .read last, ?_⟩
  show Follows _ _ (if _ then _ else _) _
  split
  next hnothing =>
    rw [Bool.and_eq_true] at hnothing
    exact fun _ => ⟨last, _, .inr ⟨rfl, hnothing.1⟩⟩
  next =>
    apply publishPrices_follows.mono
    exact fun r m hm hr => ⟨last, _, .inl (hm hr)⟩

theorem prepareCycle_follows :
    Follows Step .steady (prepareCycle crates settings sign)
      (fun result m => ∀ pending, result = .ok (.ok pending) →
        m = .steady ∧ pending.pricesStale = true ∨ Published crates settings pending.freshPrices m) := by
  apply Follows.bind
  apply (Follows.of_asks openCycle_asks (fun q hq r => .plain .steady (plain_of_opening q hq) r)).mono
  rintro opened _ rfl
  cases opened with
  | error summary => exact fun _ h => nomatch h
  | ok pending =>
      have hpublish : Follows Step .steady (publishFresh crates settings sign pending)
          (fun r m => r = .ok () →
            m = .steady ∧ pending.pricesStale = true ∨
              Published crates settings pending.freshPrices m) := by
        rw [publishFresh]
        split
        next hstale => exact fun _ => .inl ⟨rfl, hstale⟩
        next => exact setPricesStage_follows.mono (fun r m hm hr => .inr (hm hr))
      apply Follows.bind
      apply hpublish.mono
      intro r m hm
      cases r with
      | error e => exact fun _ h => nomatch h
      | ok =>
          rintro _ ⟨⟩
          exact hm rfl

end Protocol

section Runs

variable {fresh batch : PriceMap} {lastSubmitted : Option (KeyMap Int)}

theorem not_mustSubmit {isHeartbeat : Bool} {key : String} {price : CachedPrice}
    (hprice : fresh[key]? = some price)
    (h : (pricesToSubmit crates settings fresh lastSubmitted isHeartbeat)[key]? = none) :
    mustSubmit crates settings lastSubmitted key price = false := by
  rw [pricesToSubmit] at h
  split at h
  next =>
    rw [hprice] at h
    cases h
  next hheartbeat =>
    by_contra hmust
    have hsubmitted : (filterPricesByThreshold crates settings fresh lastSubmitted
        isHeartbeat)[key]? = some price :=
      getElem?_filter_eq_some.mpr ⟨hprice, by simp [Bool.eq_true_of_not_eq_false hmust]⟩
    rw [hsubmitted] at h
    cases h

/-- After the stage the medians on chain are near the fresh ones. -/
theorem withinThreshold_of_published {m : Mode} {w : World} (hw : Holds m w)
    (h : Published crates settings fresh m) {key : String} {price : CachedPrice}
    (hprice : fresh[key]? = some price) {median : Int} (hmedian : w.onChain key = some median) :
    WithinThreshold median price.median ((tokenThresholds crates settings).getD key 0) := by
  obtain ⟨last, isHeartbeat, rfl | ⟨rfl, hempty⟩⟩ := h
  · cases hw with
    | recorded hphase hagrees hbatch =>
        cases hsubmitted : (pricesToSubmit crates settings fresh last isHeartbeat)[key]? with
        | some submitted =>
            have hsame := getElem?_pricesToSubmit hsubmitted
            rw [hprice] at hsame
            cases hsame
            rw [hbatch.inside key price hsubmitted] at hmedian
            cases hmedian
            exact withinThreshold_refl _ _
        | none =>
            obtain ⟨lastSubmitted, hlast, hwithin⟩ :=
              withinThreshold_of_not_mustSubmit (not_mustSubmit hprice hsubmitted)
            obtain rfl := hbatch.outside key lastSubmitted median hsubmitted hlast hmedian
            exact hwithin
  · cases hw with
    | read hlast hphase hagrees =>
        have hsubmitted : (pricesToSubmit crates settings fresh last isHeartbeat)[key]? = none :=
          Std.TreeMap.getElem?_of_isEmpty hempty
        obtain ⟨lastSubmitted, hlast', hwithin⟩ :=
          withinThreshold_of_not_mustSubmit (not_mustSubmit hprice hsubmitted)
        rw [hlast] at hagrees
        obtain rfl := hagrees key lastSubmitted median hlast' hmedian
        exact hwithin

theorem Holds.forget {m : Mode} {w : World} (hw : Holds m w)
    (h : Published crates settings fresh m) : Holds .steady w := by
  obtain ⟨last, isHeartbeat, rfl | ⟨rfl, -⟩⟩ := h
  · cases hw with
    | recorded hphase hagrees _ => exact .steady hphase hagrees
  · cases hw with
    | read _ hphase hagrees => exact .steady hphase hagrees

theorem Holds.drop {m : Mode} {w v : World} (hw : Holds m w) (h : recordedDrop w v) :
    Holds .steady v := by
  obtain ⟨rfl, hconfirmed, hunlanded⟩ := h
  cases hw with
  | steady hphase h | read _ hphase h | recorded hphase h => exact .steady rfl h
  | waiting _ hphase hsent hwork hlanded h => exact .steady rfl h
  | executing hphase hsent hwork h => exact .steady rfl h
  | landed _ hphase => exact absurd hphase hconfirmed
  | unheard _ hphase hsent hwork hlanded =>
      have hset : Work.isSetPrices _ = true := congrArg Work.isSetPrices hwork
      rw [hunlanded hphase _ _ hsent hset] at hlanded
      cases hlanded

theorem Holds.enter {w : World} (hw : Holds .steady w) : Holds .steady w.enter := by
  cases hw with
  | steady hphase h => exact .steady rfl h

theorem executeKeeperCycle_safe {w : World} (hw : Holds .steady w) :
    Safe (recording crates settings) (fun v => ∃ m, Holds m v)
      (executeKeeperCycle crates settings sign) (fun _ _ => True) w := by
  refine Safe.bind ((prepareCycle_follows.safe holds_stable
    (fun _ _ _ _ _ _ hv hstep ha => holds_step hv hstep ha) hw).mono ?_)
  rintro prepared v hv ⟨m, hm, hmv⟩
  match prepared with
  | .error e => exact ⟨hv, trivial⟩
  | .ok (.error summary) => exact ⟨hv, trivial⟩
  | .ok (.ok pending) =>
      have hsteady : Holds .steady v := by
        rcases hm pending rfl with ⟨rfl, -⟩ | hpublished
        · exact hmv
        · exact hmv.forget hpublished
      refine Safe.bind (((executePending_follows steady_loopRules).safe holds_stable
        (fun _ _ _ _ _ _ hv hstep ha => holds_step hv hstep ha) hsteady).mono ?_)
      exact fun summary u hu _ => ⟨hu, trivial⟩

theorem cycleRuns_steady {w v : World} (hw : Holds .steady w)
    (hrun : CycleRuns crates settings sign (recording crates settings) recordedDrop w v) :
    Holds .steady v := by
  refine Rounds.invariant (J := fun v => ∃ m, Holds m v) (Q := fun _ _ => True) hrun hw
    (holds_stable .steady) ?_ ?_ (fun u hu => executeKeeperCycle_safe hu.enter)
  · rintro u z ⟨m, hu⟩ hi
    exact ⟨m, holds_stable m u z hu hi⟩
  · rintro u z ⟨m, hu⟩ hd
    exact hu.drop hd

/-- In every run in which each set_prices transaction that lands is reported so
and recorded, the fresh prices of a cycle that goes on to execute are within the
thresholds of the prices on chain. -/
theorem prepareCycle_medians_near {w v u : World} (hphase : w.phase = .idle)
    (hbaseline : w.app.priceCache.lastSubmittedMedians = none)
    (hrun : CycleRuns crates settings sign (recording crates settings) recordedDrop w v)
    {pending : Pending}
    (hcycle : Finishes (recording crates settings) (prepareCycle crates settings sign) v.enter
      (.ok (.ok pending)) u)
    {token : TokenConfig} (htoken : token ∈ settings.tokens)
    (hkey : ∀ other ∈ settings.tokens, lookupKey crates other = lookupKey crates token →
      other = token)
    {price : CachedPrice} (hprice : pending.freshPrices[lookupKey crates token]? = some price)
    {median : Int} (hmedian : u.onChain (lookupKey crates token) = some median) :
    WithinThreshold median price.median token.submitThresholdBps := by
  have hinitial : Holds .steady w := by
    refine .steady hphase (fun key last median hlast _ => ?_)
    rw [baseline, hbaseline] at hlast
    cases hlast
  have hv : Holds .steady v.enter := (cycleRuns_steady hinitial hrun).enter
  obtain ⟨m, hm, hu⟩ := (prepareCycle_follows.safe holds_stable
    (fun _ _ _ _ _ _ hv hstep ha => holds_step hv hstep ha) hv).finishes hcycle
  rw [← tokenThresholds_getD htoken hkey]
  rcases hm pending rfl with ⟨-, hstale⟩ | hpublished
  · have hnone : pending.freshPrices[lookupKey crates token]? = none :=
      Std.TreeMap.getElem?_of_isEmpty hstale
    rw [hprice] at hnone
    cases hnone
  · exact withinThreshold_of_published hu hpublished hprice hmedian

end Runs

section Samples

theorem sent_landed_ne (newer : List Sent) {s : Sent} (older : List Sent) (hl : s.landed = false) :
    newer ++ s :: older ≠ newer ++ { s with landed := true } :: older := by
  intro h
  have hs : s = { s with landed := true } := (List.cons.inj (List.append_cancel_left h)).1
  rw [hs] at hl
  cases hl

/-- Landing the newest transaction while it is awaited. -/
theorem landsAwaited_landNewest {w : World} (hphase : w.phase = .awaiting) :
    LandsAwaited w (landNewest w) := by
  intro newer s older hsent hl hlanded _
  refine ⟨?_, hphase⟩
  cases newer with
  | nil => rfl
  | cons first newer =>
      exfalso
      rw [landNewest, hsent] at hlanded
      dsimp only [List.cons_append] at hlanded
      split at hlanded
      · rw [hsent] at hlanded
        exact sent_landed_ne (first :: newer) older hl hlanded
      · exact sent_landed_ne newer older hl (List.cons.inj hlanded).2

/-- Only an awaited submission is answered. -/
def respondAwaited (script : Script) : Player KeeperRequest KeeperRequest.Answer World := fun q w =>
  match q with
  | .settle signedXdr =>
      if w.phase = .awaiting then KeeperScript.respond script (.settle signedXdr) w else none
  | q => KeeperScript.respond script q w

theorem interferes_landAwaited {w : World} (hphase : w.phase = .awaiting) :
    (recording crates settings).Interferes w (landNewest w) := by
  rcases landNewest_cases w with h | h
  · rw [h]
  · exact .single ⟨h, landsAwaited_landNewest hphase⟩

/-- A script with no failed submission. -/
theorem respondAwaited_plays {script : Script} (h : script.Possible crates settings)
    (hok : ∀ signedXdr sent tr e, script.reply signedXdr sent ≠ some (tr, .error e)) :
    (respondAwaited script).Plays (recording crates settings) := by
  intro q w r u hq
  have hother : (∀ signedXdr, q ≠ .settle signedXdr) → KeeperScript.respond script q w = some (r, u) →
      ∃ v, (recording crates settings).Interferes w v ∧ (recording crates settings).answer q v r u := by
    intro hsettle hq
    refine ⟨w, .refl, respond_answers h.sequence hsettle hq, ?_⟩
    cases q with
    | settle signedXdr => exact absurd rfl (hsettle signedXdr)
    | _ => trivial
  cases q with
  | settle signedXdr =>
      dsimp only [respondAwaited] at hq
      split at hq
      next hphase =>
        obtain ⟨v, hv, ⟨tr, hreply⟩, ha⟩ := respond_settles h hq
        have hreports : ReportsLanded (.settle signedXdr) v r u := by
          rintro s rest e - - rfl
          exact absurd hreply (hok signedXdr v.sent tr e)
        rcases hv with rfl | rfl
        · exact ⟨v, .refl, ha, hreports⟩
        · exact ⟨_, interferes_landAwaited hphase, ha, hreports⟩
      next => cases hq
  | _ => exact hother (fun _ h => nomatch h) hq

/-- A prepared cycle that the player carries out, with a check of its fresh prices
and of the world it leaves. -/
theorem exists_prepared {S : Surroundings KeeperRequest KeeperRequest.Answer World}
    {player : Player KeeperRequest KeeperRequest.Answer World} (hplays : player.Plays S) {w : World}
    (test : Pending → World → Bool)
    (h : (finish player (prepareCycle crates settings sign) w).any
      (fun result => result.1.toOption.any fun prepared => prepared.toOption.any fun pending =>
        test pending result.2) = true) :
    ∃ pending u, Finishes S (prepareCycle crates settings sign) w (.ok (.ok pending)) u ∧
      test pending u = true := by
  obtain ⟨⟨result, u⟩, hfinish, htest⟩ := Option.any_eq_true _ _ |>.mp h
  obtain ⟨prepared, hprepared, htest⟩ := Option.any_eq_true _ _ |>.mp htest
  obtain ⟨pending, hpending, htest⟩ := Option.any_eq_true _ _ |>.mp htest
  cases result with
  | error e => cases hprepared
  | ok result =>
      obtain rfl := Option.some.inj hprepared
      cases result with
      | error summary => cases hpending
      | ok found =>
          obtain rfl := Option.some.inj hpending
          exact ⟨found, u, finishes_of_finish hplays hfinish, htest⟩

/-- The fresh price of a key and the one on chain. -/
def marksAt (key : String) (pending : Pending) (u : World) (fresh median : Int) : Bool :=
  (pending.freshPrices[key]?.any fun price => price.median == fresh) && u.onChain key == some median

theorem marksAt_eq_true {key : String} {pending : Pending} {u : World} {fresh median : Int}
    (h : marksAt key pending u fresh median = true) :
    (∃ price, pending.freshPrices[key]? = some price ∧ price.median = fresh) ∧
      u.onChain key = some median := by
  obtain ⟨hfresh, hmedian⟩ := Bool.and_eq_true_iff.mp h
  obtain ⟨price, hprice, hequal⟩ := Option.any_eq_true _ _ |>.mp hfresh
  exact ⟨⟨price, hprice, beq_iff_eq.mp hequal⟩, beq_iff_eq.mp hmedian⟩

/-- The prices land and the first poll is answered with 404. -/
def unheardPrices : Script where
  keys := oneOrder
  sequence := 7
  lands _ := true
  reply signedXdr _ :=
    if signedXdr = "AAAA" then some (strandedTrace, .error (.rpc (.httpError 404 ""))) else none

theorem unheardPrices_possible : unheardPrices.Possible nodeCrates keeperSettings where
  sequence := accountSequence_seven
  reply signedXdr sent tr r h := by
    dsimp only [unheardPrices] at h
    split at h
    next hxdr =>
      cases h
      rw [hxdr]
      exact strandedTrace_runs
    next => cases h
  truthful signedXdr s rest tr ledger h := by
    dsimp only [unheardPrices] at h
    split at h <;> cases h

def playCycle (script : Script) (w : World) : World :=
  (play (respond script) (executeKeeperCycle nodeCrates keeperSettings sampleSign) w.enter).leave

def withPrice (w : World) (median : Int) : World := w.setApp (appWithPrice w.app median)

/-- The price 100 is confirmed, the price 200 lands unheard, the price is 100 again. -/
def revertedPrice : World :=
  withPrice (playCycle unheardPrices (withPrice (playCycle unansweredOrder (startWorld 100)) 200)) 100

theorem unansweredOrder_ok (signedXdr : String) (sent : List Sent) (tr : RpcTrace) (e : SubmitError) :
    unansweredOrder.reply signedXdr sent ≠ some (tr, .error e) := by
  intro h
  dsimp only [unansweredOrder] at h
  split at h
  · split at h <;> cases h
  · cases h

def confirmedCycle (w : World) : World :=
  play (respondAwaited unansweredOrder) (executeKeeperCycle nodeCrates keeperSettings sampleSign) w.enter

/-- The price 100000 is confirmed, and moves by half the threshold. -/
def movedPrice : World := withPrice (confirmedCycle (startWorld 100000)).leave 100050

theorem recordedDrop_confirmedCycle :
    recordedDrop (confirmedCycle (startWorld 100000)) (confirmedCycle (startWorld 100000)).leave := by
  refine ⟨rfl, by decide +kernel, fun _ s rest hsent hset => ?_⟩
  have hnewest : (confirmedCycle (startWorld 100000)).sent.head?.any
      (fun s => Work.isSetPrices s.work) = false := by decide +kernel
  rw [hsent, List.head?_cons, Option.any_some, hset] at hnewest
  cases hnewest

theorem cycleRuns_movedPrice :
    CycleRuns nodeCrates keeperSettings sampleSign (recording nodeCrates keeperSettings) recordedDrop
      (startWorld 100000) movedPrice := by
  have hplays := respondAwaited_plays unansweredOrder_possible unansweredOrder_ok
  refine .interfere (.round .start (visits_play hplays _ _) recordedDrop_confirmedCycle)
    ⟨.shared _ _ ⟨rfl, rfl, rfl⟩, ?_⟩
  intro newer s older hsent hl hlanded _
  exact absurd (hsent.symm.trans hlanded) (sent_landed_ne newer older hl)

theorem movedPrice_prepared :
    ∃ pending u, Finishes (recording nodeCrates keeperSettings)
      (prepareCycle nodeCrates keeperSettings sampleSign) movedPrice.enter
      (.ok (.ok pending)) u ∧ marksAt "cbtc" pending u 100050 100000 = true :=
  exists_prepared (respondAwaited_plays unansweredOrder_possible unansweredOrder_ok)
    (fun pending u => marksAt "cbtc" pending u 100050 100000) (by decide +kernel)

theorem revertedPrice_prepared :
    ∃ pending u, Finishes (keeper nodeCrates keeperSettings)
      (prepareCycle nodeCrates keeperSettings sampleSign) revertedPrice.enter
      (.ok (.ok pending)) u ∧ marksAt "cbtc" pending u 100 200 = true :=
  exists_prepared (respond_plays unansweredOrder_possible)
    (fun pending u => marksAt "cbtc" pending u 100 200) (by decide +kernel)

theorem cycleRuns_playCycle {script : Script} (h : script.Possible nodeCrates keeperSettings)
    {w v : World}
    (hrun : CycleRuns nodeCrates keeperSettings sampleSign (keeper nodeCrates keeperSettings)
      dropped w v) :
    CycleRuns nodeCrates keeperSettings sampleSign (keeper nodeCrates keeperSettings) dropped w
      (playCycle script v) :=
  .round hrun (visits_play (respond_plays h) _ _) rfl

theorem cycleRuns_withPrice {w v : World} (median : Int)
    (hrun : CycleRuns nodeCrates keeperSettings sampleSign (keeper nodeCrates keeperSettings)
      dropped w v) :
    CycleRuns nodeCrates keeperSettings sampleSign (keeper nodeCrates keeperSettings) dropped w
      (withPrice v median) :=
  .interfere hrun (.shared v _ ⟨rfl, rfl, rfl⟩)

theorem cycleRuns_revertedPrice :
    CycleRuns nodeCrates keeperSettings sampleSign (keeper nodeCrates keeperSettings) dropped
      (startWorld 100) revertedPrice :=
  cycleRuns_withPrice 100 (cycleRuns_playCycle unheardPrices_possible
    (cycleRuns_withPrice 200 (cycleRuns_playCycle unansweredOrder_possible .start)))

end Samples

/-- The second cycle executes without submitting the price that has moved. -/
theorem prepareCycle_medians_near_movedPrice :
    ∃ pending u, Finishes (recording nodeCrates keeperSettings)
      (prepareCycle nodeCrates keeperSettings sampleSign) movedPrice.enter
      (.ok (.ok pending)) u ∧
      ∃ price, pending.freshPrices["cbtc"]? = some price ∧ price.median = 100050 ∧
        u.onChain "cbtc" = some 100000 ∧ WithinThreshold 100000 price.median 10 := by
  obtain ⟨pending, u, hcycle, htest⟩ := movedPrice_prepared
  obtain ⟨⟨price, hprice, hfresh⟩, hmedian⟩ := marksAt_eq_true htest
  refine ⟨pending, u, hcycle, price, hprice, hfresh, hmedian, ?_⟩
  have hkey : ∀ other ∈ keeperSettings.tokens,
      lookupKey nodeCrates other = lookupKey nodeCrates sampleToken → other = sampleToken :=
    fun other hother _ => List.mem_singleton.mp hother
  exact prepareCycle_medians_near rfl rfl cycleRuns_movedPrice hcycle List.mem_cons_self hkey hprice
    hmedian

/-- The orders of the third cycle go on to be executed with 100 in the cache and
200 on chain. -/
theorem prepareCycle_medians_apart :
    ∃ pending u,
      CycleRuns nodeCrates keeperSettings sampleSign (keeper nodeCrates keeperSettings) dropped
        (startWorld 100) revertedPrice ∧
      Finishes (keeper nodeCrates keeperSettings) (prepareCycle nodeCrates keeperSettings sampleSign)
        revertedPrice.enter (.ok (.ok pending)) u ∧
      ∃ price, pending.freshPrices[lookupKey nodeCrates sampleToken]? = some price ∧
        u.onChain (lookupKey nodeCrates sampleToken) = some 200 ∧
        ¬WithinThreshold 200 price.median sampleToken.submitThresholdBps := by
  obtain ⟨pending, u, hcycle, htest⟩ := revertedPrice_prepared
  obtain ⟨⟨price, hprice, hfresh⟩, hmedian⟩ := marksAt_eq_true htest
  refine ⟨pending, u, cycleRuns_revertedPrice, hcycle, price, hprice, hmedian, ?_⟩
  rw [hfresh]
  rw [WithinThreshold]
  decide

end So4Oracle.Baseline
