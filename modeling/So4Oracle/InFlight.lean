import Mathlib.Data.List.Sublists
import So4Oracle.KeeperRequests
import So4Oracle.KeeperScript

namespace So4Oracle.InFlight

open Library.Requests Library.Safety Wire Config State Chain StellarRpc Submit Handler Keeper KeeperRuns
  KeeperRequests

def executeMethods : List String := ["execute_order", "execute_deposit", "execute_withdrawal"]

def executes? : Work → Option String
  | .handler method key => if method ∈ executeMethods then some key else none
  | .setPrices _ => none

def mayConfirm : Except SubmitError Nat → Bool
  | .ok _ => false
  | .error e => e.mayStillConfirm

/-- A submission that was dropped or is still awaited has no outcome yet. -/
def undecided (s : Sent) : Bool :=
  match s.outcome with
  | none => true
  | some (_, r) => mayConfirm r

def attempt? (key : String) (s : Sent) : Option Transaction :=
  if executes? s.work = some key ∧ undecided s = true then some s.tx else none

def inTime (clock : Nat) (tx : Transaction) : Bool :=
  match tx.cond with
  | some bounds => secondsOf clock ≤ bounds.maxTime
  | none => true

def liveAmong (key : String) (clock : Nat) (sent : List Sent) : List Transaction :=
  (sent.filterMap (attempt? key)).filter (inTime clock)

/-- The execution transactions of a key that are undecided and still within
their time bound. -/
def live (key : String) (w : World) : List Transaction := liveAmong key w.clock w.sent

/-- The entry of the key outlasts the time bound of the transaction. -/
inductive Guarded (inFlight : KeyMap Nat) (key : String) : List Transaction → Prop
  | idle : Guarded inFlight key []
  | single {tx : Transaction} {insertedAt : Nat} {bounds : TimeBounds}
      (hentry : inFlight[key]? = some insertedAt) (hcond : tx.cond = some bounds)
      (h : (bounds.maxTime + 1) * nanosPerSecond ≤ insertedAt + inFlightExpiry) :
      Guarded inFlight key [tx]

structure Invariant (w : World) : Prop where
  started : w.cycleStart ≤ w.clock
  guarded : ∀ key, Guarded w.app.inFlightKeys key (live key w)

structure Admitted (key : String) (w : World) : Prop where
  idle : live key w = []
  entry : ∃ insertedAt, w.app.inFlightKeys[key]? = some insertedAt ∧ w.cycleStart ≤ insertedAt

section Live

theorem inTime_antitone {clock clock' : Nat} (h : clock ≤ clock') {tx : Transaction}
    (ht : inTime clock' tx = true) : inTime clock tx = true := by
  unfold inTime at ht ⊢
  cases hcond : tx.cond with
  | none => rfl
  | some bounds =>
      simp only [hcond, decide_eq_true_eq] at ht ⊢
      exact (Nat.div_le_div_right h).trans ht

theorem liveAmong_later {key : String} {clock clock' : Nat} (h : clock ≤ clock')
    {sent sent' : List Sent}
    (hsent : sent'.filterMap (attempt? key) = sent.filterMap (attempt? key)) :
    (liveAmong key clock' sent').Sublist (liveAmong key clock sent) := by
  rw [liveAmong]
  rw [hsent]
  exact List.monotone_filter_right _ (fun tx => inTime_antitone h)

theorem attempt?_landed (key : String) (s : Sent) :
    attempt? key { s with landed := true } = attempt? key s := rfl

theorem interference_live {w v : World} (h : Interference w v) (key : String) :
    (live key v).Sublist (live key w) :=
  liveAmong_later (interference_clock h) (interference_sent h _ (attempt?_landed key))

variable {inFlight : KeyMap Nat} {key : String}

theorem Guarded.sublist {l l' : List Transaction} (h : Guarded inFlight key l)
    (hl : l'.Sublist l) : Guarded inFlight key l' := by
  cases h with
  | idle =>
      rw [List.sublist_nil.mp hl]
      exact .idle
  | single hentry hcond h =>
      rcases List.sublist_singleton.mp hl with rfl | rfl
      · exact .idle
      · exact .single hentry hcond h

theorem Guarded.length_le {l : List Transaction} (h : Guarded inFlight key l) : l.length ≤ 1 := by
  cases h with
  | idle => exact Nat.zero_le 1
  | single => exact Nat.le_refl 1

theorem Guarded.of_entry {l : List Transaction} {inFlight' : KeyMap Nat}
    (h : Guarded inFlight key l) (hentry : inFlight'[key]? = inFlight[key]?) :
    Guarded inFlight' key l := by
  cases h with
  | idle => exact .idle
  | single he hcond hle => exact .single (hentry.trans he) hcond hle

theorem Guarded.eq_nil_of_none {l : List Transaction} (h : Guarded inFlight key l)
    (hnone : inFlight[key]? = none) : l = [] := by
  cases h with
  | idle => rfl
  | single hentry => simp [hnone] at hentry

/-- An entry is only evicted once the time bound it guards has passed. -/
theorem not_inTime_of_expired {clock insertedAt : Nat} {tx : Transaction} {bounds : TimeBounds}
    (hcond : tx.cond = some bounds)
    (h : (bounds.maxTime + 1) * nanosPerSecond ≤ insertedAt + inFlightExpiry)
    (hexpired : isExpired clock insertedAt = true) : inTime clock tx = false := by
  have hlate : inFlightExpiry < clock - insertedAt := of_decide_eq_true hexpired
  have hclock : (bounds.maxTime + 1) * nanosPerSecond ≤ clock := by omega
  have hseconds : bounds.maxTime + 1 ≤ secondsOf clock :=
    (Nat.le_div_iff_mul_le (by decide)).mpr hclock
  rw [inTime]
  rw [hcond]
  exact decide_eq_false (by omega)

theorem live_of_expired {w : World} (h : Guarded w.app.inFlightKeys key (live key w))
    {insertedAt : Nat} (hentry : w.app.inFlightKeys[key]? = some insertedAt)
    (hexpired : isExpired w.clock insertedAt = true) : live key w = [] := by
  generalize hl : live key w = l at h
  cases h with
  | idle => rfl
  | @single tx t bounds he hcond hle =>
      obtain rfl : t = insertedAt := Option.some.inj (he.symm.trans hentry)
      have hmem : tx ∈ live key w := by simp [hl]
      have htime : inTime w.clock tx = true := (List.mem_filter.mp hmem).2
      rw [not_inTime_of_expired hcond hle hexpired] at htime
      cases htime

end Live

variable {crates : Crates} {settings : Settings}

section Stability

theorem Invariant.later {w v : World} (h : Invariant w) (hstart : v.cycleStart = w.cycleStart)
    (hclock : w.clock ≤ v.clock) (hkeys : v.app.inFlightKeys = w.app.inFlightKeys)
    (hlive : ∀ key, (live key v).Sublist (live key w)) : Invariant v where
  started := by
    rw [hstart]
    exact h.started.trans hclock
  guarded key := by
    rw [hkeys]
    exact (h.guarded key).sublist (hlive key)

theorem invariant_stable : (keeper crates settings).Stable Invariant := by
  intro w v h hi
  exact h.later (interference_cycleStart hi) (interference_clock hi) (interference_inFlightKeys hi)
    (interference_live hi)

theorem Admitted.interference {key : String} {w v : World} (h : Admitted key w)
    (hi : Interference w v) : Admitted key v where
  idle := by
    apply List.sublist_nil.mp
    rw [← h.idle]
    exact interference_live hi key
  entry := by
    rw [interference_inFlightKeys hi, interference_cycleStart hi]
    exact h.entry

/-- What a submission needs: an execution has its key admitted. -/
structure Ready (work : Work) (w : World) : Prop where
  invariant : Invariant w
  admitted : ∀ key, executes? work = some key → Admitted key w

theorem ready_stable (work : Work) : (keeper crates settings).Stable (Ready work) := by
  intro w v h hi
  exact ⟨invariant_stable w v h.invariant hi, fun key hkey => (h.admitted key hkey).interference hi⟩

/-- What a submission leaves: a decided execution is no longer live. -/
structure Settled (work : Work) (pending : Bool) (w : World) : Prop where
  invariant : Invariant w
  decided : ∀ key, executes? work = some key → pending = false → live key w = []

theorem Ready.settled {work : Work} {w : World} (h : Ready work w) (pending : Bool) :
    Settled work pending w :=
  ⟨h.invariant, fun key hkey _ => (h.admitted key hkey).idle⟩

end Stability

section Steps

theorem Invariant.run {w : World} (h : Invariant w) {op : StateOp}
    (hop : op.touchesInFlight = false) : Invariant (w.run op) :=
  h.later rfl (Nat.le_refl _) (run_inFlightKeys hop w.clock w.app) (fun _ => .refl _)

theorem Invariant.sweep {w : World} (h : Invariant w) :
    Invariant (w.run .sweepExpiredInFlightKeys) where
  started := h.started
  guarded key := by
    show Guarded _ key (live key w)
    by_cases hexpired : ∃ t, w.app.inFlightKeys[key]? = some t ∧ isExpired w.clock t = true
    · obtain ⟨t, hentry, ht⟩ := hexpired
      rw [live_of_expired (h.guarded key) hentry ht]
      exact .idle
    · apply (h.guarded key).of_entry
      show (w.app.inFlightKeys.filter _)[key]? = _
      rw [Std.TreeMap.getElem?_filter']
      cases hentry : w.app.inFlightKeys[key]? with
      | none => rfl
      | some t =>
          have hfresh : isExpired w.clock t = false := by
            rw [← Bool.not_eq_true]
            exact fun ht => hexpired ⟨t, hentry, ht⟩
          simp [Option.filter, hfresh]

theorem Invariant.remove {w : World} (h : Invariant w) {key : String} (hidle : live key w = []) :
    Invariant (w.run (.removeInFlight key)) where
  started := h.started
  guarded key' := by
    show Guarded (w.app.inFlightKeys.erase key) key' (live key' w)
    by_cases hkey : key' = key
    · rw [hkey, hidle]
      exact .idle
    · exact (h.guarded key').of_entry (getElem?_erase_of_ne _ hkey)

/-- An admission finds no live transaction of the key. -/
theorem Invariant.admitted {w : World} (h : Invariant w) (key : String) :
    Invariant (w.run (.admitInFlight key)) ∧
      ((admitKey w.clock key w.app.inFlightKeys).1 = true →
        Admitted key (w.run (.admitInFlight key))) := by
  have hrun : (w.run (.admitInFlight key)).app.inFlightKeys =
      (admitKey w.clock key w.app.inFlightKeys).2 := rfl
  rcases admitKey_cases w.clock key w.app.inFlightKeys with hsame | ⟨-, hentry, hother, hexpired⟩
  · refine ⟨h.later rfl (Nat.le_refl _) ?_ (fun _ => .refl _), fun hin => ?_⟩
    · rw [hrun, hsame]
    · rw [hsame] at hin
      cases hin
  · have hidle : live key w = [] := by
      cases hfound : w.app.inFlightKeys[key]? with
      | none => exact (h.guarded key).eq_nil_of_none hfound
      | some t => exact live_of_expired (h.guarded key) hfound (hexpired t hfound)
    refine ⟨⟨h.started, fun key' => ?_⟩, fun _ => ⟨hidle, w.clock, ?_, h.started⟩⟩
    · show Guarded _ key' (live key' w)
      by_cases hkey : key' = key
      · rw [hkey, hidle]
        exact .idle
      · rw [hrun]
        exact (h.guarded key').of_entry (hother key' hkey)
    · rw [hrun]
      exact hentry

/-- Requests that neither submit nor let a key in or remove one. -/
def Quiet : KeeperRequest → Prop
  | .state (.admitInFlight _) | .state (.removeInFlight _) | .send _ _ _ | .settle _ => False
  | _ => True

theorem Invariant.quiet {q : KeeperRequest} (hq : Quiet q) {w v : World} {r : q.Answer}
    (h : Invariant w) (ha : (keeper crates settings).answer q w r v) : Invariant v := by
  obtain ⟨-, ha⟩ := ha
  cases q with
  | state op =>
      obtain ⟨-, rfl⟩ := ha
      cases op with
      | sweepExpiredInFlightKeys => exact h.sweep
      | admitInFlight | removeInFlight => exact absurd hq id
      | _ => exact h.run rfl
  | unixTime =>
      obtain ⟨-, rfl⟩ := ha
      exact h
  | checkKeeperBalance | pendingKeys | sleep =>
      obtain rfl := ha
      exact h
  | accountSequence =>
      obtain ⟨-, rfl⟩ := ha
      exact h
  | send | settle => exact absurd hq id
  | abort => exact absurd ha id

theorem quiet_safe {α : Type} {p : KeeperProgram α} (hp : p.Asks Quiet) {w : World}
    (h : Invariant w) : Safe (keeper crates settings) Invariant p (fun _ v => Invariant v) w :=
  Safe.of_asks invariant_stable (fun _ hv => hv) hp (fun _ hq _ _ _ hv ha => hv.quiet hq ha) h

end Steps

section Submission

/-- The time bound of a transaction built at the given second. -/
def Timely (now : Nat) (tx : Transaction) : Prop :=
  ∃ bounds, tx.cond = some bounds ∧ bounds.maxTime ≤ now + txMaxTimeSecs

/-- The newest transaction is the awaited one, and no other is live for its key. -/
structure Awaited (work : Work) (w : World) : Prop where
  invariant : Invariant w
  newest : w.sent.head?.map (fun s => (s.work, s.outcome)) = some (work, none)
  alone : ∀ key, executes? work = some key → liveAmong key w.clock w.sent.tail = []

theorem awaited_stable (work : Work) : (keeper crates settings).Stable (Awaited work) := by
  intro w v h hi
  refine ⟨invariant_stable w v h.invariant hi, ?_, fun key hkey => ?_⟩
  · rw [interference_head hi (fun s => (s.work, s.outcome)) (fun _ => rfl)]
    exact h.newest
  · apply List.sublist_nil.mp
    rw [← h.alone key hkey]
    exact liveAmong_later (interference_clock hi)
      (interference_tail hi _ (attempt?_landed key))

theorem live_send_of_executes {work : Work} {key : String} (hkey : executes? work = some key)
    (tx : Transaction) {w : World} (hidle : live key w = []) :
    (live key (w.send work tx)).Sublist [tx] := by
  have hcons : (w.send work tx).sent.filterMap (attempt? key) =
      tx :: w.sent.filterMap (attempt? key) :=
    List.filterMap_cons_some (if_pos ⟨hkey, rfl⟩)
  show (((w.send work tx).sent.filterMap (attempt? key)).filter (inTime w.clock)).Sublist _
  rw [hcons, List.filter_cons]
  have hnil : (w.sent.filterMap (attempt? key)).filter (inTime w.clock) = [] := hidle
  rw [hnil]
  split
  · exact .refl _
  · exact List.nil_sublist _

theorem live_send_of_other {work : Work} {key : String} (hkey : executes? work ≠ some key)
    (tx : Transaction) (w : World) : live key (w.send work tx) = live key w := by
  have hcons : (w.send work tx).sent.filterMap (attempt? key) = w.sent.filterMap (attempt? key) :=
    List.filterMap_cons_none (if_neg (fun h => hkey h.1))
  show (((w.send work tx).sent.filterMap (attempt? key)).filter (inTime w.clock)) = _
  rw [hcons]
  rfl

theorem entry_outlasts {clock start insertedAt now maxTime : Nat}
    (hcycle : clock ≤ start + keeperCycleTimeout) (hstart : start ≤ insertedAt)
    (hnow : now ≤ secondsOf clock) (hmax : maxTime ≤ now + txMaxTimeSecs) :
    (maxTime + 1) * nanosPerSecond ≤ insertedAt + inFlightExpiry := by
  have hseconds : secondsOf clock * nanosPerSecond ≤ clock := Nat.div_mul_le_self _ _
  have hexpiry : keeperCycleTimeout + 61 * nanosPerSecond ≤ inFlightExpiry := by decide
  have hlast : maxTime + 1 ≤ secondsOf clock + 61 := by
    rw [txMaxTimeSecs] at hmax
    omega
  calc (maxTime + 1) * nanosPerSecond
      ≤ (secondsOf clock + 61) * nanosPerSecond := Nat.mul_le_mul_right _ hlast
    _ = secondsOf clock * nanosPerSecond + 61 * nanosPerSecond := Nat.add_mul _ _ _
    _ ≤ insertedAt + inFlightExpiry := by omega

/-- The entry was made in this cycle, which ends 50 s after its start, and the
transaction is bounded 60 s after a later moment of it. -/
theorem Ready.send {work : Work} {w : World} (h : Ready work w)
    (hcycle : w.clock ≤ w.cycleStart + keeperCycleTimeout) {now : Nat}
    (hnow : now ≤ secondsOf w.clock) {tx : Transaction} (htx : Timely now tx) :
    Awaited work (w.send work tx) where
  invariant := by
    refine ⟨h.invariant.started, fun key => ?_⟩
    by_cases hkey : executes? work = some key
    · obtain ⟨insertedAt, hentry, hstart⟩ := (h.admitted key hkey).entry
      obtain ⟨bounds, hcond, hmax⟩ := htx
      exact Guarded.sublist (.single hentry hcond (entry_outlasts hcycle hstart hnow hmax))
        (live_send_of_executes hkey tx (h.admitted key hkey).idle)
    · rw [live_send_of_other hkey]
      exact h.invariant.guarded key
  newest := rfl
  alone key hkey := (h.admitted key hkey).idle

theorem Awaited.settle {work : Work} {w : World} (h : Awaited work w) {s : Sent} {rest : List Sent}
    (hsent : w.sent = s :: rest) (tr : RpcTrace) (r : Except SubmitError Nat) :
    Settled work (mayConfirm r) (w.settle s rest tr r) := by
  have hnewest : s.work = work ∧ s.outcome = none := by
    have hhead := h.newest
    rw [hsent] at hhead
    exact Prod.mk.inj (Option.some.inj hhead)
  -- The reported outcome can only take the newest transaction off the list.
  have hlive : ∀ key, (live key (w.settle s rest tr r)).Sublist (live key w) := by
    intro key
    apply List.Sublist.filter
    show (List.filterMap _ ({ s with outcome := some (tr, r) } :: rest)).Sublist _
    rw [hsent, List.filterMap_cons, List.filterMap_cons]
    have hbefore : attempt? key s = if executes? s.work = some key then some s.tx else none := by
      simp [attempt?, undecided, hnewest.2]
    rw [hbefore]
    by_cases hkey : executes? s.work = some key
    · by_cases hr : mayConfirm r = true
      · simp [attempt?, undecided, hkey, hr]
      · simp [attempt?, undecided, hkey, hr]
    · simp [attempt?, hkey]
  refine ⟨h.invariant.later rfl (Nat.le_refl _) rfl hlive, fun key hkey hr => ?_⟩
  have halone := h.alone key hkey
  rw [hsent] at halone
  show liveAmong key w.clock ({ s with outcome := some (tr, r) } :: rest) = []
  have hnone : attempt? key { s with outcome := some (tr, r) } = none := by
    simp [attempt?, undecided, hr]
  rw [liveAmong]
  rw [List.filterMap_cons_none hnone]
  exact halone

theorem submitTx_safe {work : Work} {tx : Transaction} {signedXdr : String} {now : Nat}
    (htx : Timely now tx) {Q : Except SubmitError Nat → World → Prop} {w : World}
    (h : Ready work w) (hnow : now ≤ secondsOf w.clock)
    (hQ : ∀ r v, Settled work (mayConfirm r) v → Q r v) :
    Safe (keeper crates settings) Invariant (submitTx work tx signedXdr) Q w := by
  have hstable : (keeper crates settings).Stable
      (fun v => Ready work v ∧ now ≤ secondsOf v.clock) := by
    intro v u hv hi
    exact ⟨ready_stable work v u hv.1 hi,
      hv.2.trans (Nat.div_le_div_right (interference_clock hi))⟩
  refine Safe.request_bind hstable (fun v hv => hv.1.invariant) ⟨h, hnow⟩ ?_
  rintro v ⟨⟩ u hv ⟨hcycle, rfl⟩
  refine Safe.ask (awaited_stable work) (fun v hv => hv.invariant) (hv.1.send hcycle hv.2 htx) ?_
  rintro v r u hv ⟨-, s, rest, tr, hsent, -, -, rfl⟩
  have hsettled : Settled work (mayConfirm r) (v.settle s rest tr r) := hv.settle hsent tr r
  exact ⟨hsettled.invariant, hQ _ _ hsettled⟩

theorem timely_of_cond {now : Nat} {tx : Transaction}
    (h : tx.cond = some ⟨0, saturatingAdd now txMaxTimeSecs⟩) : Timely now tx :=
  ⟨_, h, saturatingAdd_le _ _⟩

end Submission

variable {sign : Transaction → Except String String}

section Handlers

def mayLand : Except HandlerError String → Bool
  | .ok _ => false
  | .error e => e.mayStillConfirm

theorem mayLand_handlerResult (method : String) (r : Except SubmitError Nat) :
    mayLand (handlerResult crates method r) = mayConfirm r := by
  cases r <;> rfl

theorem submitHandler_safe {contractId method key : String} {keyArg : ScVal} {sequence : Nat}
    {w : World} (h : Ready (.handler method key) w) :
    Safe (keeper crates settings) Invariant
      (submitHandler crates settings sign contractId method key keyArg sequence)
      (fun out v => Settled (.handler method key) (mayLand out.1) v) w := by
  refine Safe.request_bind (ready_stable _) (fun v hv => hv.invariant) h ?_
  rintro v now u hv ⟨-, rfl, rfl⟩
  cases htx : handlerTx crates settings sign contractId method keyArg sequence
      (secondsOf u.clock) with
  | error e => exact ⟨hv.invariant, hv.settled _⟩
  | ok signed =>
      refine Safe.bind (submitTx_safe (timely_of_cond (handlerTx_ok htx).2) hv (Nat.le_refl _) ?_)
      intro r z hz
      refine Safe.bind (orAbort_safe hz.invariant (fun cache _ => ⟨hz.invariant, ?_⟩))
      show Settled _ (mayLand (handlerResult crates method r)) z
      rw [mayLand_handlerResult]
      exact hz

theorem executeHandler_safe {contractId method key : String} {sequenceCache : Option Nat}
    {w : World} (h : Ready (.handler method key) w) :
    Safe (keeper crates settings) Invariant
      (executeHandler crates settings sign contractId method key sequenceCache)
      (fun out v => Settled (.handler method key) (mayLand out.1) v) w := by
  rw [executeHandler]
  cases keyScval crates key with
  | error e => exact ⟨h.invariant, h.settled _⟩
  | ok keyArg =>
      cases sequenceCache with
      | some sequence => exact submitHandler_safe h
      | none =>
          refine Safe.request_bind (ready_stable _) (fun v hv => hv.invariant) h ?_
          rintro v r u hv ⟨-, -, rfl⟩
          cases r with
          | error e => exact ⟨hv.invariant, hv.settled _⟩
          | ok sequence => exact submitHandler_safe hv

end Handlers

section Loops

/-- The execute method is one of the three and the freeze method is not. -/
structure Sound (executor : Executor) : Prop where
  executes : ∀ key, executes? (.handler executor.executeMethod key) = some key
  freezes : ∀ key, executes? (.handler executor.freezeMethod key) = none

variable {executor : Executor} {key : String}

theorem quiet_of_bookkeeping (q : KeeperRequest) (h : Bookkeeping q) : Quiet q := by
  cases q with
  | state op =>
      cases op with
      | admitInFlight | removeInFlight => exact absurd h id
      | _ => trivial
  | send | settle => exact absurd h id
  | _ => trivial

theorem bookkeeping_safe {α : Type} {p : KeeperProgram α} (hp : p.Asks Bookkeeping) {w : World}
    (h : Invariant w) : Safe (keeper crates settings) Invariant p (fun _ v => Invariant v) w :=
  quiet_safe (hp.mono quiet_of_bookkeeping) h

theorem freeze_safe (hx : Sound executor) {sequenceCache : Option Nat} {w : World}
    (h : Invariant w) :
    Safe (keeper crates settings) Invariant
      (freeze crates settings sign executor key sequenceCache) (fun _ v => Invariant v) w := by
  have hready : Ready (.handler executor.freezeMethod key) w := by
    refine ⟨h, fun k hk => ?_⟩
    rw [hx.freezes] at hk
    cases hk
  exact (executeHandler_safe hready).mono (fun _ _ _ hv => hv.invariant)

theorem freezeOnBudget_safe (hx : Sound executor) {error : HandlerError}
    {sequenceCache : Option Nat} {w : World} (h : Invariant w) :
    Safe (keeper crates settings) Invariant
      (freezeOnBudget crates settings sign executor key error sequenceCache)
      (fun _ v => Invariant v) w := by
  rw [freezeOnBudget]
  split
  · refine Safe.bind ((freeze_safe hx h).mono (fun frozen v _ hv => ?_))
    obtain ⟨frozen, cache⟩ := frozen
    cases frozen with
    | ok txHash =>
        refine quiet_safe ?_ hv
        exact ⟨trivial, fun _ => ⟨trivial, fun _ => trivial⟩⟩
    | error e =>
        refine bookkeeping_safe ?_ hv
        exact (freezeFailed_asks e).bind (fun _ => trivial)
  · exact ⟨h, h⟩

theorem abandon_safe (hx : Sound executor) {consecutive : Nat} {sequenceCache : Option Nat}
    {w : World} (h : Invariant w) :
    Safe (keeper crates settings) Invariant
      (abandon crates settings sign executor key consecutive sequenceCache)
      (fun _ v => Invariant v) w := by
  refine Safe.bind ((freeze_safe hx h).mono (fun frozen v _ hv => ?_))
  obtain ⟨frozen, cache⟩ := frozen
  cases frozen with
  | ok txHash =>
      refine quiet_safe ?_ hv
      exact ⟨trivial, fun _ => ⟨trivial, fun _ => trivial⟩⟩
  | error e =>
      refine quiet_safe ?_ hv
      exact ⟨trivial, fun _ => ⟨trivial, fun _ => ⟨trivial, fun _ => trivial⟩⟩⟩

theorem abandonAfterFailures_safe (hx : Sound executor) {sequenceCache : Option Nat} {w : World}
    (h : Invariant w) :
    Safe (keeper crates settings) Invariant
      (abandonAfterFailures crates settings sign executor key sequenceCache)
      (fun _ v => Invariant v) w := by
  refine Safe.bind ((bookkeeping_safe (countFailure_asks _) h).mono (fun consecutive v _ hv => ?_))
  split
  · exact ⟨hv, hv⟩
  · refine Safe.request_bind invariant_stable (fun _ hu => hu) hv ?_
    intro u blacklisted z hu ha
    have hz : Invariant z := hu.quiet (q := .state (.isBlacklisted key)) trivial ha
    cases blacklisted with
    | true => exact ⟨hz, hz⟩
    | false => exact abandon_safe hx hz

/-- Removing the entry of a key is safe once nothing of it is live. -/
theorem remove_safe {α : Type} {f : Unit → KeeperProgram α} {Q : α → World → Prop} {w : World}
    (h : Invariant w) (hidle : live key w = [])
    (hf : ∀ v, Invariant v → Safe (keeper crates settings) Invariant (f ()) Q v) :
    Safe (keeper crates settings) Invariant (locked (.removeInFlight key) >>= f) Q w := by
  have hstable : (keeper crates settings).Stable (fun v => Invariant v ∧ live key v = []) := by
    intro v u hv hi
    refine ⟨invariant_stable v u hv.1 hi, List.sublist_nil.mp ?_⟩
    rw [← hv.2]
    exact interference_live hi key
  refine Safe.request_bind hstable (fun v hv => hv.1) ⟨h, hidle⟩ ?_
  rintro v ⟨⟩ u hv ⟨-, -, rfl⟩
  exact hf _ (hv.1.remove hv.2)

theorem executionSucceeded_safe {txHash : String} {tally : Tally} {w : World} (h : Invariant w)
    (hidle : live key w = []) :
    Safe (keeper crates settings) Invariant (executionSucceeded executor key txHash tally)
      (fun _ v => Invariant v) w := by
  refine remove_safe h hidle (fun v hv => quiet_safe ?_ hv)
  split
  · exact ⟨trivial, fun _ => ⟨trivial, fun _ => ⟨trivial, fun _ => trivial⟩⟩⟩
  · exact ⟨trivial, fun _ => ⟨trivial, fun _ => trivial⟩⟩

theorem executionFailed_safe (hx : Sound executor) {error : HandlerError} {tally : Tally}
    {w : World} (h : Invariant w) (hidle : live key w = []) :
    Safe (keeper crates settings) Invariant
      (executionFailed crates settings sign executor key error tally)
      (fun _ v => Invariant v) w := by
  refine remove_safe h hidle (fun v hv => ?_)
  split
  · exact ⟨hv, hv⟩
  · refine Safe.bind ((freezeOnBudget_safe hx hv).mono (fun frozen u _ hu => ?_))
    refine Safe.bind ((abandonAfterFailures_safe hx hu).mono (fun cache z _ hz => ?_))
    refine bookkeeping_safe ?_ hz
    exact (recordFailedExecution_asks _ _ _).bind (fun _ => trivial)

/-- The key leaves the in-flight map only on a decided outcome. -/
theorem executeAdmitted_safe (hx : Sound executor) {tally : Tally} {w : World}
    (h : Invariant w) (hkept : Admitted key w) :
    Safe (keeper crates settings) Invariant
      (executeAdmitted crates settings sign executor key tally) (fun _ v => Invariant v) w := by
  have hready : Ready (.handler executor.executeMethod key) w := by
    refine ⟨h, fun k hk => ?_⟩
    rw [hx.executes] at hk
    obtain rfl : key = k := Option.some.inj hk
    exact hkept
  refine Safe.bind ((executeHandler_safe hready).mono (fun out v hv hsettled => ?_))
  obtain ⟨result, cache⟩ := out
  cases result with
  | ok txHash =>
      exact executionSucceeded_safe hv (hsettled.decided key (hx.executes key) rfl)
  | error e =>
      show Safe _ _ (if e.mayStillConfirm = true then _ else _) _ _
      split
      next =>
        refine bookkeeping_safe ?_ hv
        exact (recordFailedExecution_asks _ _ _).bind (fun _ => trivial)
      next hconfirm =>
        have hdecided : e.mayStillConfirm = false := Bool.eq_false_of_not_eq_true hconfirm
        exact executionFailed_safe hx hv (hsettled.decided key (hx.executes key) hdecided)

theorem executeKey_safe (hx : Sound executor) {tally : Tally} {w : World} (h : Invariant w) :
    Safe (keeper crates settings) Invariant
      (executeKey crates settings sign executor key tally) (fun _ v => Invariant v) w := by
  refine Safe.request_bind invariant_stable (fun _ hv => hv) h ?_
  intro v blacklisted u hv ha
  have hu : Invariant u := hv.quiet (q := .state (.isBlacklisted key)) trivial ha
  cases blacklisted with
  | true => exact ⟨hu, hu⟩
  | false =>
      refine Safe.request_bind invariant_stable (fun _ hz => hz) hu ?_
      rintro z admitted y hz ⟨-, rfl, rfl⟩
      obtain ⟨hy, hin⟩ := hz.admitted key
      show Safe _ _ (if (admitKey z.clock key z.app.inFlightKeys).1 = true then _ else _) _ _
      split
      next hkept => exact executeAdmitted_safe hx hy (hin hkept)
      next => exact ⟨hy, hy⟩

theorem executeKeys_safe (hx : Sound executor) (keys : List String) {tally : Tally} {w : World}
    (h : Invariant w) :
    Safe (keeper crates settings) Invariant
      (executeKeys crates settings sign executor keys tally) (fun _ v => Invariant v) w := by
  induction keys generalizing tally w with
  | nil => exact ⟨h, h⟩
  | cons key keys ih => exact Safe.bind ((executeKey_safe hx h).mono (fun _ _ _ hv => ih hv))

end Loops

section Cycle

theorem orderExecutor_sound : Sound (orderExecutor settings) :=
  ⟨fun _ => rfl, fun _ => rfl⟩

theorem depositExecutor_sound : Sound (depositExecutor settings) :=
  ⟨fun _ => rfl, fun _ => rfl⟩

theorem withdrawalExecutor_sound : Sound (withdrawalExecutor settings) :=
  ⟨fun _ => rfl, fun _ => rfl⟩

theorem quiet_of_opening (q : KeeperRequest) (h : Opening q) : Quiet q := by
  cases q with
  | state op =>
      cases op with
      | admitInFlight | removeInFlight => exact absurd h id
      | _ => trivial
  | send | settle => exact absurd h id
  | _ => trivial

theorem setPricesOnChain_safe {prices : PriceMap} {w : World} (h : Invariant w) :
    Safe (keeper crates settings) Invariant (setPricesOnChain crates settings sign prices)
      (fun _ v => Invariant v) w := by
  rw [setPricesOnChain]
  cases encodePricesVec crates prices.values with
  | error e => exact ⟨h, h⟩
  | ok pricesScval =>
      refine Safe.request_bind invariant_stable (fun _ hv => hv) h ?_
      rintro v r u hv ⟨-, -, rfl⟩
      cases r with
      | error e => exact ⟨hv, hv⟩
      | ok sequence =>
          refine Safe.request_bind invariant_stable (fun _ hz => hz) hv ?_
          rintro z now y hz ⟨-, rfl, rfl⟩
          split
          next => exact ⟨hz, hz⟩
          next signed htx =>
            have hready : Ready (.setPrices prices) y := ⟨hz, fun key hkey => by cases hkey⟩
            refine Safe.bind (submitTx_safe (timely_of_cond (buildAndSign_ok htx).2) hready
              (Nat.le_refl _) (fun r x hx => ?_))
            exact ⟨hx.invariant, hx.invariant⟩

theorem publishPrices_safe {prices : PriceMap} {now : Nat} {isHeartbeat : Bool} {w : World}
    (h : Invariant w) :
    Safe (keeper crates settings) Invariant
      (publishPrices crates settings sign prices now isHeartbeat) (fun _ v => Invariant v) w := by
  refine Safe.bind ((setPricesOnChain_safe h).mono (fun r v _ hv => ?_))
  cases r with
  | error e => exact ⟨hv, hv⟩
  | ok txHash =>
      refine quiet_safe ?_ hv
      exact ⟨trivial, fun _ => ⟨trivial, fun _ => trivial⟩⟩

theorem setPricesStage_safe {fresh : PriceMap} {w : World} (h : Invariant w) :
    Safe (keeper crates settings) Invariant (setPricesStage crates settings sign fresh)
      (fun _ v => Invariant v) w := by
  refine Safe.request_bind invariant_stable (fun _ hv => hv) h (fun v now u hv ha => ?_)
  have hu : Invariant u := hv.quiet (q := .unixTime) trivial ha
  refine Safe.request_bind invariant_stable (fun _ hv => hv) hu (fun v last z hv ha => ?_)
  have hz : Invariant z := hv.quiet (q := .state .readLastFullSubmission) trivial ha
  refine Safe.request_bind invariant_stable (fun _ hv => hv) hz (fun v medians y hv ha => ?_)
  have hy : Invariant y := hv.quiet (q := .state .readLastSubmittedMedians) trivial ha
  dsimp only
  split
  · exact ⟨hy, hy⟩
  · exact publishPrices_safe hy

theorem executeFresh_safe {pending : Pending} {executor : Executor} (hx : Sound executor)
    {kind : PendingKeys.Kind} {tally : Tally} {w : World} (h : Invariant w) :
    Safe (keeper crates settings) Invariant
      (executeFresh crates settings sign pending executor kind tally)
      (fun _ v => Invariant v) w := by
  rw [executeFresh]
  split
  · exact ⟨h, h⟩
  · exact executeKeys_safe hx _ h

theorem prepareCycle_safe {w : World} (h : Invariant w) :
    Safe (keeper crates settings) Invariant (prepareCycle crates settings sign)
      (fun _ v => Invariant v) w := by
  refine Safe.bind ((quiet_safe (openCycle_asks.mono quiet_of_opening) h).mono (fun opened v _ hv => ?_))
  cases opened with
  | error summary => exact ⟨hv, hv⟩
  | ok pending =>
      have hpublish : Safe (keeper crates settings) Invariant
          (publishFresh crates settings sign pending) (fun _ u => Invariant u) v := by
        rw [publishFresh]
        split
        · exact ⟨hv, hv⟩
        · exact setPricesStage_safe hv
      refine Safe.bind (hpublish.mono (fun r u _ hu => ?_))
      cases r with
      | error e => exact ⟨hu, hu⟩
      | ok => exact ⟨hu, hu⟩

theorem executeKeeperCycle_safe {w : World} (h : Invariant w) :
    Safe (keeper crates settings) Invariant (executeKeeperCycle crates settings sign)
      (fun _ v => Invariant v) w := by
  refine Safe.bind ((prepareCycle_safe h).mono (fun prepared v _ hv => ?_))
  match prepared with
  | .error e => exact ⟨hv, hv⟩
  | .ok (.error summary) => exact ⟨hv, hv⟩
  | .ok (.ok pending) =>
      refine Safe.bind ?_
      refine Safe.bind ((executeFresh_safe orderExecutor_sound hv).mono (fun _ u _ hu => ?_))
      refine Safe.bind ((executeFresh_safe depositExecutor_sound hu).mono (fun _ z _ hz => ?_))
      refine Safe.bind ((executeFresh_safe withdrawalExecutor_sound hz).mono (fun _ y _ hy => ?_))
      exact ⟨hy, hy, hy⟩

end Cycle

/-- The service before its first cycle: nothing has been sent. -/
structure Initial (w : World) : Prop where
  started : w.cycleStart ≤ w.clock
  sent : w.sent = []

theorem Initial.invariant {w : World} (h : Initial w) : Invariant w where
  started := h.started
  guarded key := by
    have hidle : live key w = [] := by
      rw [live]
      rw [h.sent]
      rfl
    rw [hidle]
    exact .idle

theorem cycleRuns_invariant {w v : World} (h : Initial w)
    (hrun : CycleRuns crates settings sign (keeper crates settings) dropped w v) : Invariant v := by
  refine Rounds.invariant (Q := fun _ v => Invariant v) hrun h.invariant invariant_stable invariant_stable ?_ ?_
  · rintro u z hu rfl
    exact hu.later rfl (Nat.le_refl _) rfl (fun _ => .refl _)
  · intro u hu
    exact executeKeeperCycle_safe
      ⟨Nat.le_refl _, hu.guarded⟩

theorem executeKeeperCycle_live_le_one {w v : World} (h : Initial w)
    (hrun : CycleRuns crates settings sign (keeper crates settings) dropped w v) (key : String) :
    (live key v).length ≤ 1 :=
  ((cycleRuns_invariant h hrun).guarded key).length_le

open KeeperScript in
/-- The first cycle, dropped while it waits for the execution of its only order. -/
def droppedExecution : World :=
  (play (respond unansweredOrder) (executeKeeperCycle nodeCrates keeperSettings sampleSign)
    (startWorld 100).enter).leave

open KeeperScript in
theorem cycleRuns_droppedExecution :
    CycleRuns nodeCrates keeperSettings sampleSign (keeper nodeCrates keeperSettings) dropped
      (startWorld 100) droppedExecution :=
  .round .start (visits_play (respond_plays unansweredOrder_possible) _ _) rfl

theorem executeKeeperCycle_live_droppedExecution :
    (live "aa" droppedExecution).length = 1 ∧ (live "aa" droppedExecution).length ≤ 1 :=
  ⟨by decide +kernel,
    executeKeeperCycle_live_le_one ⟨by decide, rfl⟩ cycleRuns_droppedExecution "aa"⟩

end So4Oracle.InFlight
