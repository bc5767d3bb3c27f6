import So4Oracle.KeeperRuns
import So4Oracle.Library.Protocol

namespace So4Oracle.KeeperRequests

open Library.Checked Library.Requests Library.Protocol Wire Config State Chain Submit Handler Keeper KeeperRuns

/-- Requests that neither submit prices nor write the cached ones. -/
def SubmitsNoPrices : KeeperRequest → Prop
  | .send work _ _ => Work.isSetPrices work = false
  | .state op => op.writesPrices = false
  | _ => True

/-- Requests that neither submit nor end the wait for a baseline. -/
def Plain : KeeperRequest → Prop
  | .send _ _ _ | .settle _ | .state (.updateSubmittedPrices _ _ _) => False
  | _ => True

/-- What the bookkeeping after a submission writes. -/
def Bookkeeping : KeeperRequest → Prop
  | .state (.recordError _) | .state (.recordExecution _ _ _ _ _) | .state (.isBlacklisted _)
  | .state (.blacklist _ _) | .state (.countFailure _ _) | .state (.clearFailures _ _)
  | .abort _ => True
  | _ => False

/-- What the opening of a cycle asks for. -/
def Opening : KeeperRequest → Prop
  | .state .sweepExpiredInFlightKeys | .checkKeeperBalance | .unixTime | .state .readPrices
  | .pendingKeys | .state (.setPending _ _ _) => True
  | _ => False

/-- What a handler call asks for besides its submission. -/
def InCall : KeeperRequest → Prop
  | .unixTime | .accountSequence | .abort _ => True
  | _ => False

/-- What the execution loops ask for besides their submissions. -/
def InLoop : KeeperRequest → Prop
  | .state (.admitInFlight _) | .state (.removeInFlight _) | .unixTime | .accountSequence => True
  | q => Bookkeeping q

/-- What giving up on a key after its failures asks for. -/
def Abandoning (executor : Executor) : KeeperRequest → Prop
  | .send (.handler method _) _ _ => method = executor.freezeMethod
  | .state (.clearFailures counter _) => counter = .executionFailures
  | .settle _ => True
  | q => InLoop q

variable (crates : Crates) (settings : Settings) in
/-- The transaction calls set_prices with the encoding of exactly these prices. -/
structure Carries (prices : PriceMap) (tx : Transaction) : Prop where
  sourceAccount : accountStrkeyToMuxed crates settings.keeperAccountId = .ok tx.sourceAccount
  fee : tx.fee = settings.setPricesTxFee
  contract : strkeyToScAddress crates settings.oracleContractId = .ok tx.contractAddress
  functionName : tx.functionName = "set_prices"
  args : ∃ pricesScval, encodePricesVec crates prices.values = .ok pricesScval ∧
    tx.args = [pricesScval]

variable {crates : Crates} {settings : Settings} {sign : Transaction → Except String String}
  {executor : Executor} {key : String}

theorem carries_of_signed {prices : PriceMap} {pricesScval : ScVal} {sequence now : Nat}
    {signed : Transaction × String} (hencoded : encodePricesVec crates prices.values = .ok pricesScval)
    (h : buildAndSign crates settings sign settings.oracleContractId "set_prices" [pricesScval]
      settings.setPricesTxFee sequence now = .ok signed) : Carries crates settings prices signed.1 := by
  obtain ⟨tx, htx, h⟩ := bind_eq_ok.mp h
  obtain ⟨xdr, -, h⟩ := bind_eq_ok.mp h
  cases h
  obtain ⟨sourceMuxed, hsource, htx⟩ := bind_eq_ok.mp htx
  obtain ⟨contractAddr, hcontract, htx⟩ := bind_eq_ok.mp htx
  split_ifs at htx
  cases htx
  exact ⟨hsource, rfl, hcontract, rfl, pricesScval, hencoded, rfl⟩

theorem plain_answer {q : KeeperRequest} (hq : Plain q) {w v : World} {r : q.Answer}
    (h : (keeper crates settings).answer q w r v) : v.sent = w.sent ∧ v.phase = w.phase := by
  obtain ⟨-, h⟩ := h
  cases q with
  | state op =>
      obtain ⟨-, rfl⟩ := h
      cases op with
      | updateSubmittedPrices => exact absurd hq id
      | _ => exact ⟨rfl, rfl⟩
  | unixTime | accountSequence =>
      obtain ⟨-, rfl⟩ := h
      exact ⟨rfl, rfl⟩
  | checkKeeperBalance | pendingKeys | sleep =>
      obtain rfl := h
      exact ⟨rfl, rfl⟩
  | send | settle => exact absurd hq id
  | abort => exact absurd h id

section Transactions

variable {P : Sent → Prop} {w v : World}

theorem sent_of_interference (hlanded : ∀ s : Sent, P s → P { s with landed := true })
    (hi : Interference w v) (hw : ∀ s ∈ w.sent, P s) : ∀ s ∈ v.sent, P s := by
  cases hi with
  | tick | shared => exact hw
  | land newer s older hsent _ =>
      rw [hsent, List.forall_mem_append, List.forall_mem_cons] at hw
      obtain ⟨hnewer, hs, holder⟩ := hw
      exact List.forall_mem_append.mpr ⟨hnewer, List.forall_mem_cons.mpr ⟨hlanded s hs, holder⟩⟩

/-- Only the submissions of the handlers are added, and only outcomes are noted. -/
theorem sent_of_answer {q : KeeperRequest} (hq : SubmitsNoPrices q) {r : q.Answer}
    (hhandler : ∀ s : Sent, Work.isSetPrices s.work = false → P s)
    (hsettled : ∀ (s : Sent) outcome, P s → P { s with outcome := outcome })
    (ha : (keeper crates settings).answer q w r v) (hw : ∀ s ∈ w.sent, P s) : ∀ s ∈ v.sent, P s := by
  obtain ⟨-, ha⟩ := ha
  cases q with
  | state op =>
      obtain ⟨-, rfl⟩ := ha
      exact hw
  | unixTime | accountSequence =>
      obtain ⟨-, rfl⟩ := ha
      exact hw
  | checkKeeperBalance | pendingKeys | sleep =>
      obtain rfl := ha
      exact hw
  | send work tx signedXdr =>
      obtain rfl := ha
      exact List.forall_mem_cons.mpr ⟨hhandler _ hq, hw⟩
  | settle signedXdr =>
      obtain ⟨s, rest, tr, hsent, -, -, rfl⟩ := ha
      rw [hsent] at hw
      obtain ⟨hs, hrest⟩ := List.forall_mem_cons.mp hw
      exact List.forall_mem_cons.mpr ⟨hsettled s _ hs, hrest⟩
  | abort => exact absurd ha id

theorem prices_of_answer {q : KeeperRequest} (hq : SubmitsNoPrices q) {r : q.Answer}
    (ha : (keeper crates settings).answer q w r v) :
    v.app.priceCache.prices = w.app.priceCache.prices := by
  refine answer_prices ?_ ha
  rintro op rfl
  exact hq

end Transactions

section Bookkeeping

theorem inLoop_of_bookkeeping (q : KeeperRequest) (h : Bookkeeping q) : InLoop q := by
  cases q with
  | state op =>
      cases op with
      | admitInFlight | removeInFlight => trivial
      | _ => exact h
  | unixTime | accountSequence => trivial
  | _ => exact h

theorem inLoop_of_inCall (q : KeeperRequest) (h : InCall q) : InLoop q := by
  cases q with
  | unixTime | accountSequence | abort => trivial
  | _ => exact absurd h id

theorem plain_of_inLoop (q : KeeperRequest) (h : InLoop q) : Plain q := by
  cases q with
  | state op =>
      cases op with
      | updateSubmittedPrices => exact absurd h id
      | _ => trivial
  | send | settle => exact absurd h id
  | _ => trivial

theorem plain_of_opening (q : KeeperRequest) (h : Opening q) : Plain q := by
  cases q with
  | state op =>
      cases op with
      | updateSubmittedPrices => exact absurd h id
      | _ => trivial
  | send | settle => exact absurd h id
  | _ => trivial

theorem plain_of_bookkeeping (q : KeeperRequest) (h : Bookkeeping q) : Plain q :=
  plain_of_inLoop q (inLoop_of_bookkeeping q h)

theorem submitsNoPrices_of_inLoop (q : KeeperRequest) (h : InLoop q) : SubmitsNoPrices q := by
  cases q with
  | state op =>
      cases op with
      | mergePrices | clearPrices => exact absurd h id
      | _ => rfl
  | send => exact absurd h id
  | _ => trivial

theorem recordFailedExecution_asks (error : HandlerError) (txHash : Option String)
    (recorded : String) :
    (recordFailedExecution settings executor key error txHash recorded).Asks Bookkeeping :=
  ⟨trivial, fun _ => ⟨trivial, fun _ => trivial⟩⟩

theorem countFailure_asks (counter : Counter) : (countFailure counter key).Asks Bookkeeping :=
  ⟨trivial, fun _ => orAbort_asks (fun _ => trivial) _⟩

theorem freezeFailed_asks (freezeError : HandlerError) :
    (freezeFailed settings executor key freezeError).Asks Bookkeeping := by
  refine (countFailure_asks _).bind (fun consecutive => ⟨trivial, fun _ => ?_⟩)
  split
  · exact ⟨trivial, fun _ => trivial⟩
  · trivial

theorem openCycle_asks : (openCycle crates settings).Asks Opening := by
  refine ⟨trivial, fun _ => ⟨trivial, fun _ => ⟨trivial, fun _ => ⟨trivial, fun _ =>
    ⟨trivial, fun _ => ⟨trivial, fun _ => ?_⟩⟩⟩⟩⟩⟩
  dsimp only
  split <;> trivial

theorem executeHandler_asks {P : KeeperRequest → Prop} (hcall : ∀ q, InCall q → P q)
    {contractId method : String} {sequenceCache : Option Nat}
    (hsend : ∀ tx signedXdr, P (.send (.handler method key) tx signedXdr))
    (hsettle : ∀ signedXdr, P (.settle signedXdr)) :
    (executeHandler crates settings sign contractId method key sequenceCache).Asks P := by
  have hsubmit : ∀ keyArg sequence, (submitHandler crates settings sign contractId method key keyArg
      sequence).Asks P := by
    intro keyArg sequence
    rw [submitHandler]
    apply Program.Asks.bind (p := unixTime) ⟨hcall .unixTime trivial, fun _ => trivial⟩
    intro now
    split
    · trivial
    · refine ⟨hsend _ _, fun _ => ⟨hsettle _, fun r => ?_⟩⟩
      exact (orAbort_asks (fun fault => hcall (.abort fault) trivial) _).bind (fun _ => trivial)
  rw [executeHandler]
  cases keyScval crates key with
  | error e => trivial
  | ok keyArg =>
      cases sequenceCache with
      | some sequence => exact hsubmit keyArg sequence
      | none =>
          refine ⟨hcall .accountSequence trivial, fun r => ?_⟩
          cases r with
          | error e => trivial
          | ok sequence => exact hsubmit keyArg sequence

theorem abandonAfterFailures_asks {sequenceCache : Option Nat} :
    (abandonAfterFailures crates settings sign executor key sequenceCache).Asks
      (Abandoning executor) := by
  have hcall : ∀ q, InCall q → Abandoning executor q := by
    intro q hq
    cases q with
    | unixTime | accountSequence | abort => trivial
    | _ => exact absurd hq id
  have hcount : (countFailure .executionFailures key).Asks (Abandoning executor) :=
    ⟨trivial, fun _ => orAbort_asks (fun _ => trivial) _⟩
  refine hcount.bind (fun consecutive => ?_)
  split
  · trivial
  · refine ⟨trivial, fun blacklisted => ?_⟩
    cases blacklisted with
    | true => trivial
    | false =>
        apply (executeHandler_asks hcall (fun _ _ => rfl) (fun _ => trivial)).bind
        intro frozen
        cases frozen.1 with
        | ok txHash => exact ⟨trivial, fun _ => ⟨rfl, fun _ => trivial⟩⟩
        | error e => exact ⟨trivial, fun _ => ⟨trivial, fun _ => ⟨rfl, fun _ => trivial⟩⟩⟩

end Bookkeeping

section Calls

variable {M : Type} {P : Rules KeeperRequest KeeperRequest.Answer M} {m : M}

/-- A mode that a handler call on the key keeps, but for the wait for its submission. -/
structure CallRules (P : Rules KeeperRequest KeeperRequest.Answer M) (m : M) (key : String) :
    Prop where
  inCall : ∀ q, InCall q → ∀ r, P m q r m
  submission : ∀ method tx signedXdr, ∃ m',
    P m (.send (.handler method key) tx signedXdr) () m' ∧ ∀ r, P m' (.settle signedXdr) r m

theorem submitHandler_follows (h : CallRules P m key) {contractId method : String} {keyArg : ScVal}
    {sequence : Nat} :
    Follows P m (submitHandler crates settings sign contractId method key keyArg sequence)
      (fun _ m' => m' = m) := by
  have hcache : ∀ r : Except SubmitError Nat, Follows P m (do
      let cache ← orAbort (sequenceAfter crates sequence r)
      pure (handlerResult crates method r, cache)) (fun _ m' => m' = m) := by
    intro r
    apply Follows.bind
    apply (Follows.of_asks (orAbort_asks (P := InCall) (fun _ => trivial) _) h.inCall).mono
    rintro cache _ rfl
    rfl
  refine Follows.request (fun now => ⟨m, h.inCall .unixTime trivial now, ?_⟩)
  split
  · rfl
  next signed _ =>
    obtain ⟨m', hsend, hsettle⟩ := h.submission method signed.1 signed.2
    exact fun _ => ⟨m', hsend, fun r => ⟨m, hsettle r, hcache r⟩⟩

theorem executeHandler_follows (h : CallRules P m key) {contractId method : String}
    {sequenceCache : Option Nat} :
    Follows P m (executeHandler crates settings sign contractId method key sequenceCache)
      (fun _ m' => m' = m) := by
  rw [executeHandler]
  cases keyScval crates key with
  | error e => rfl
  | ok keyArg =>
      cases sequenceCache with
      | some sequence => exact submitHandler_follows h
      | none =>
          refine fun r => ⟨m, h.inCall .accountSequence trivial r, ?_⟩
          cases r with
          | error e => rfl
          | ok sequence => exact submitHandler_follows h

theorem follows_call (h : CallRules P m key) {β : Type} {contractId method : String}
    {sequenceCache : Option Nat} {f : HandlerOutcome → KeeperProgram β} {Q : β → M → Prop}
    (hf : ∀ out, Follows P m (f out) Q) :
    Follows P m (executeHandler crates settings sign contractId method key sequenceCache >>= f)
      Q := by
  apply Follows.bind
  apply (executeHandler_follows h).mono
  rintro out _ rfl
  exact hf out

/-- What fails before the submission of prices leaves the mode. -/
theorem setPricesOnChain_rule {prices : PriceMap} {Q : Except HandlerError String → M → Prop}
    (hquiet : ∀ q, InCall q → ∀ r, P m q r m) (hfailed : ∀ e, Q (.error e) m)
    (hsent : ∀ tx signedXdr, Carries crates settings prices tx → ∃ m',
      P m (.send (.setPrices prices) tx signedXdr) () m' ∧
        ∀ r, ∃ m'', P m' (.settle signedXdr) r m'' ∧ Q (handlerResult crates "set_prices" r) m'') :
    Follows P m (setPricesOnChain crates settings sign prices) Q := by
  rw [setPricesOnChain]
  cases hencoded : encodePricesVec crates prices.values with
  | error e => exact hfailed _
  | ok pricesScval =>
      refine fun r => ⟨m, hquiet .accountSequence trivial r, ?_⟩
      cases r with
      | error e => exact hfailed _
      | ok sequence =>
          refine Follows.request (fun now => ⟨m, hquiet .unixTime trivial now, ?_⟩)
          split
          next => exact hfailed _
          next signed htx =>
            obtain ⟨m', hsend, hsettle⟩ :=
              hsent signed.1 signed.2 (carries_of_signed hencoded htx)
            exact fun _ => ⟨m', hsend, hsettle⟩

end Calls

section Loops

variable {M : Type} {P : Rules KeeperRequest KeeperRequest.Answer M} {m : M}

/-- A mode that the loops keep, but for the wait for each of their submissions. -/
structure LoopRules (P : Rules KeeperRequest KeeperRequest.Answer M) (m : M) : Prop where
  inLoop : ∀ q, InLoop q → ∀ r, P m q r m
  submission : ∀ method key tx signedXdr, ∃ m',
    P m (.send (.handler method key) tx signedXdr) () m' ∧ ∀ r, P m' (.settle signedXdr) r m

variable (h : LoopRules P m)
include h

theorem LoopRules.calls (key : String) : CallRules P m key where
  inCall q hq := h.inLoop q (inLoop_of_inCall q hq)
  submission method tx signedXdr := h.submission method key tx signedXdr

theorem follows_ask {α : Type} {q : KeeperRequest} (hq : InLoop q) {f : q.Answer → KeeperProgram α}
    {Q : α → M → Prop} (hf : ∀ r, Follows P m (f r) Q) :
    Follows P m (Program.request q >>= f) Q :=
  fun r => ⟨m, h.inLoop q hq r, hf r⟩

theorem follows_bookkeeping {α β : Type} {p : KeeperProgram α} (hp : p.Asks Bookkeeping)
    {f : α → KeeperProgram β} {Q : β → M → Prop} (hf : ∀ a, Follows P m (f a) Q) :
    Follows P m (p >>= f) Q := by
  apply Follows.bind
  apply (Follows.of_asks (hp.mono inLoop_of_bookkeeping) h.inLoop).mono
  rintro a _ rfl
  exact hf a

theorem freezeOnBudget_follows {β : Type} {error : HandlerError} {sequenceCache : Option Nat}
    {f : Option String × Option Nat → KeeperProgram β} {Q : β → M → Prop}
    (hf : ∀ frozen, Follows P m (f frozen) Q) :
    Follows P m (freezeOnBudget crates settings sign executor key error sequenceCache >>= f) Q := by
  rw [freezeOnBudget]
  split
  · refine Follows.bind (follows_call (h.calls key) (fun frozen => ?_))
    obtain ⟨frozen, cache⟩ := frozen
    cases frozen with
    | ok txHash =>
        refine follows_ask h (q := .state (.clearFailures .freezeFailures key)) trivial (fun _ => ?_)
        exact follows_ask h (q := .state (.clearFailures .executionFailures key)) trivial
          (fun _ => hf _)
    | error e => exact follows_bookkeeping h (freezeFailed_asks e) (fun _ => hf _)
  · exact hf _

theorem abandonAfterFailures_follows {β : Type} {sequenceCache : Option Nat}
    {f : Option Nat → KeeperProgram β} {Q : β → M → Prop} (hf : ∀ cache, Follows P m (f cache) Q) :
    Follows P m (abandonAfterFailures crates settings sign executor key sequenceCache >>= f) Q := by
  refine Follows.bind (follows_bookkeeping h (countFailure_asks _) (fun consecutive => ?_))
  split
  · exact hf _
  · refine follows_ask h (q := .state (.isBlacklisted key)) trivial (fun blacklisted => ?_)
    cases blacklisted with
    | true => exact hf _
    | false =>
        refine follows_call (h.calls key) (fun frozen => ?_)
        obtain ⟨frozen, cache⟩ := frozen
        have hrest : Follows P m (do
            locked (.blacklist key consecutive)
            locked (.clearFailures .executionFailures key)
            pure cache) (fun cache m' => Follows P m' (f cache) Q) := by
          refine follows_ask h (q := .state (.blacklist key consecutive)) trivial (fun _ => ?_)
          exact follows_ask h (q := .state (.clearFailures .executionFailures key)) trivial
            (fun _ => hf _)
        cases frozen with
        | ok txHash => exact hrest
        | error e => exact follows_ask h (q := .state (.recordError _)) trivial (fun _ => hrest)

theorem executionOutcome_follows {outcome : HandlerOutcome} {tally : Tally} :
    Follows P m (executionOutcome crates settings sign executor key outcome tally)
      (fun _ m' => m' = m) := by
  obtain ⟨result, cache⟩ := outcome
  cases result with
  | ok txHash =>
      refine follows_ask h (q := .state (.removeInFlight key)) trivial (fun _ => ?_)
      have hrest : Follows P m (do
          locked (.clearFailures .executionFailures key)
          locked (.recordExecution executor.executeMethod key (some txHash) true none)
          pure { tally with executed := tally.executed + 1, sequenceCache := cache })
          (fun _ m' => m' = m) := by
        refine follows_ask h (q := .state (.clearFailures _ key)) trivial (fun _ => ?_)
        exact follows_ask h (q := .state (.recordExecution _ _ _ _ _)) trivial (fun _ => rfl)
      split
      · exact follows_ask h (q := .state (.clearFailures _ key)) trivial (fun _ => hrest)
      · exact hrest
  | error e =>
      show Follows P m (if e.mayStillConfirm = true then _ else _) _
      split
      · exact follows_bookkeeping h (recordFailedExecution_asks _ _ _) (fun _ => rfl)
      · refine follows_ask h (q := .state (.removeInFlight key)) trivial (fun _ => ?_)
        split
        · rfl
        · refine freezeOnBudget_follows h (fun frozen => ?_)
          refine abandonAfterFailures_follows h (fun cache' => ?_)
          exact follows_bookkeeping h (recordFailedExecution_asks _ _ _) (fun _ => rfl)

theorem executeKey_follows {tally : Tally} :
    Follows P m (executeKey crates settings sign executor key tally) (fun _ m' => m' = m) := by
  refine follows_ask h (q := .state (.isBlacklisted key)) trivial (fun blacklisted => ?_)
  cases blacklisted with
  | true => rfl
  | false =>
      refine follows_ask h (q := .state (.admitInFlight key)) trivial (fun admitted => ?_)
      cases admitted with
      | true => exact follows_call (h.calls key) (fun _ => executionOutcome_follows h)
      | false => rfl

theorem executeKeys_follows (keys : List String) {tally : Tally} :
    Follows P m (executeKeys crates settings sign executor keys tally) (fun _ m' => m' = m) := by
  induction keys generalizing tally with
  | nil => rfl
  | cons key keys ih =>
      apply Follows.bind
      apply (executeKey_follows h).mono
      rintro tally' _ rfl
      exact ih

theorem executeFresh_follows {pending : Pending} {kind : PendingKeys.Kind} {tally : Tally} :
    Follows P m (executeFresh crates settings sign pending executor kind tally)
      (fun _ m' => m' = m) := by
  rw [executeFresh]
  split
  · rfl
  · exact executeKeys_follows h _

theorem executePending_follows {pending : Pending} :
    Follows P m (executePending crates settings sign pending) (fun _ m' => m' = m) := by
  apply Follows.bind
  apply (executeFresh_follows h).mono
  rintro orders _ rfl
  apply Follows.bind
  apply (executeFresh_follows h).mono
  rintro deposits _ rfl
  apply Follows.bind
  apply (executeFresh_follows h).mono
  rintro withdrawals _ rfl
  rfl

end Loops

end So4Oracle.KeeperRequests
