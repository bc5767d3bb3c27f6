import So4Oracle.Keeper
import So4Oracle.Library.Safety

namespace So4Oracle.KeeperRuns

open Library.Checked Library.Requests Library.Safety Wire Config State Chain StellarRpc Submit Handler Keeper

def keeperCycleTimeout : Nat := 50 * nanosPerSecond

/-- A transaction from the moment its submission began. -/
structure Sent where
  work : Work
  tx : Transaction
  sentAt : Nat
  landed : Bool
  outcome : Option (RpcTrace × Except SubmitError Nat)

/-- How far the cycle is with the transaction it sent last. -/
inductive Phase
  | idle
  | awaiting
  | confirmed
  deriving DecidableEq, Repr

/-- The clock, the shared state, every transaction sent, newest first, and the
median of the price that landed last for each key. -/
structure World where
  clock : Nat
  cycleStart : Nat
  app : AppState
  sent : List Sent
  phase : Phase
  onChain : String → Option Int

namespace World

def setApp (w : World) (app : AppState) : World := { w with app := app }

def setPhase (w : World) (phase : Phase) : World := { w with phase := phase }

def tick (w : World) (nanos : Nat) : World := { w with clock := w.clock + nanos }

def enter (w : World) : World := { w with cycleStart := w.clock, phase := .idle }

def leave (w : World) : World := w.setPhase .idle

def send (w : World) (work : Work) (tx : Transaction) : World :=
  { w with sent := ⟨work, tx, w.clock, false, none⟩ :: w.sent, phase := .awaiting }

end World

def Work.published : Work → PriceMap
  | .setPrices prices => prices
  | .handler _ _ => ∅

def Work.isSetPrices : Work → Bool
  | .setPrices _ => true
  | .handler _ _ => false

def land (onChain : String → Option Int) (work : Work) : String → Option Int :=
  fun key => ((Work.published work)[key]?.map CachedPrice.median).or (onChain key)

def reportedPhase (work : Work) : Except SubmitError Nat → Phase
  | .ok _ => if Work.isSetPrices work then .confirmed else .idle
  | .error _ => .idle

/-- Only the write of the baseline ends the time in which a confirmed
set_prices transaction is not recorded. -/
def phaseAfter (phase : Phase) : StateOp → Phase
  | .updateSubmittedPrices _ _ _ => .idle
  | _ => phase

def World.run (w : World) (op : StateOp) : World :=
  (w.setApp (op.run w.clock w.app).2).setPhase (phaseAfter w.phase op)

def World.settle (w : World) (s : Sent) (rest : List Sent) (tr : RpcTrace)
    (r : Except SubmitError Nat) : World :=
  { w with sent := { s with outcome := some (tr, r) } :: rest, phase := reportedPhase s.work r }

variable (crates : Crates) (settings : Settings)

/-- What may answer a request. The lists of pending keys, the balance and every
reply of the node are arbitrary; a transaction reported as confirmed has landed. -/
def answers : (q : KeeperRequest) → World → q.Answer → World → Prop
  | .state op, w, r, v => r = (op.run w.clock w.app).1 ∧ v = w.run op
  | .unixTime, w, r, v => r = secondsOf w.clock ∧ v = w
  | .checkKeeperBalance, w, _, v | .pendingKeys, w, _, v | .sleep _, w, _, v => v = w
  | .accountSequence, w, r, v => (∃ tr, Runs (getAccountSequence crates settings) tr r) ∧ v = w
  | .send work tx _, w, _, v => v = w.send work tx
  | .settle signedXdr, w, r, v =>
      ∃ s rest tr, w.sent = s :: rest ∧ Runs (submitAndPoll crates signedXdr) tr r ∧
        (∀ ledger, r = .ok ledger → s.landed = true) ∧ v = w.settle s rest tr r
  | .abort _, _, _, _ => False

/-- What only the keeper writes. -/
structure SameKeeperState (app app' : AppState) : Prop where
  inFlightKeys : app'.inFlightKeys = app.inFlightKeys
  lastSubmittedMedians : app'.priceCache.lastSubmittedMedians = app.priceCache.lastSubmittedMedians
  lastFullSubmission : app'.priceCache.lastFullSubmission = app.priceCache.lastFullSubmission

/-- Time passes, a transaction lands, the price loop and the admin routes
change their parts of the shared state. -/
inductive Interference : World → World → Prop
  | tick (w : World) (nanos : Nat) : Interference w (w.tick nanos)
  | land (w : World) (newer : List Sent) (s : Sent) (older : List Sent)
      (hsent : w.sent = newer ++ s :: older) (h : s.landed = false) :
      Interference w { w with
        sent := newer ++ { s with landed := true } :: older
        onChain := land w.onChain s.work }
  | shared (w : World) (app : AppState) (h : SameKeeperState w.app app) :
      Interference w (w.setApp app)

/-- The timeout drops a cycle 50 s after its start, so nothing is answered later. -/
def keeper : Surroundings KeeperRequest KeeperRequest.Answer World where
  answer q w r v := w.clock ≤ w.cycleStart + keeperCycleTimeout ∧ answers crates settings q w r v
  interfere := Interference

variable (sign : Transaction → Except String String)

/-- Cycle after cycle, each of which may be dropped anywhere: by its timeout or
because it has ended. -/
abbrev CycleRuns (S : Surroundings KeeperRequest KeeperRequest.Answer World)
    (drop : World → World → Prop) : World → World → Prop :=
  Rounds S World.enter (executeKeeperCycle crates settings sign) drop

def dropped (w v : World) : Prop := v = w.leave

variable {crates settings}

theorem orAbort_asks {P : KeeperRequest → Prop} (hP : ∀ fault, P (.abort fault)) {α : Type}
    (x : Panicking α) : (orAbort x).Asks P := by
  cases x with
  | ok a => trivial
  | error fault => exact ⟨hP fault, fun r => r.elim⟩

theorem orAbort_safe {S : Surroundings KeeperRequest KeeperRequest.Answer World}
    {I : World → Prop} {α : Type} {x : Panicking α} {Q : α → World → Prop} {w : World} (hI : I w)
    (hQ : ∀ a, x = .ok a → Q a w) : Safe S I (orAbort x) Q w := by
  cases x with
  | ok a => exact ⟨hI, hQ a rfl⟩
  | error fault => exact ⟨hI, fun v r => r.elim⟩

theorem interference_cycleStart {w v : World} (h : Interference w v) :
    v.cycleStart = w.cycleStart := by
  cases h <;> rfl

theorem interference_clock {w v : World} (h : Interference w v) : w.clock ≤ v.clock := by
  cases h with
  | tick nanos => exact Nat.le_add_right w.clock nanos
  | land | shared => exact Nat.le_refl _

theorem answer_timing {q : KeeperRequest} {w v : World} {r : q.Answer}
    (h : (keeper crates settings).answer q w r v) :
    v.clock = w.clock ∧ v.cycleStart = w.cycleStart := by
  obtain ⟨-, h⟩ := h
  cases q with
  | state | unixTime | accountSequence =>
      obtain ⟨-, rfl⟩ := h
      exact ⟨rfl, rfl⟩
  | checkKeeperBalance | pendingKeys | sleep | send =>
      obtain rfl := h
      exact ⟨rfl, rfl⟩
  | settle =>
      obtain ⟨s, rest, tr, -, -, -, rfl⟩ := h
      exact ⟨rfl, rfl⟩
  | abort => exact absurd h id

/-- Only two operations, which the keeper never performs, write the cached prices. -/
theorem answer_prices {q : KeeperRequest} (hq : ∀ op, q = .state op → op.writesPrices = false)
    {w v : World} {r : q.Answer} (h : (keeper crates settings).answer q w r v) :
    v.app.priceCache.prices = w.app.priceCache.prices := by
  obtain ⟨-, h⟩ := h
  cases q with
  | state op =>
      obtain ⟨-, rfl⟩ := h
      exact run_prices (hq op rfl) w.clock w.app
  | unixTime | accountSequence =>
      obtain ⟨-, rfl⟩ := h
      rfl
  | checkKeeperBalance | pendingKeys | sleep | send =>
      obtain rfl := h
      rfl
  | settle =>
      obtain ⟨s, rest, tr, -, -, -, rfl⟩ := h
      rfl
  | abort => exact absurd h id

theorem interference_phase {w v : World} (h : Interference w v) : v.phase = w.phase := by
  cases h <;> rfl

theorem interference_inFlightKeys {w v : World} (h : Interference w v) :
    v.app.inFlightKeys = w.app.inFlightKeys := by
  cases h with
  | tick | land => rfl
  | shared app happ => exact happ.inFlightKeys

/-- Landing changes neither the work nor the transaction nor the outcome, so
what is computed from these does not change under interference. -/
theorem interference_sent {w v : World} (h : Interference w v) {β : Type} (f : Sent → Option β)
    (hf : ∀ s : Sent, f { s with landed := true } = f s) :
    v.sent.filterMap f = w.sent.filterMap f := by
  cases h with
  | tick | shared => rfl
  | land newer s older hsent _ =>
      rw [hsent]
      simp only [List.filterMap_append, List.filterMap_cons, hf]

theorem interference_head {w v : World} (h : Interference w v) {β : Type} (f : Sent → β)
    (hf : ∀ s : Sent, f { s with landed := true } = f s) :
    v.sent.head?.map f = w.sent.head?.map f := by
  cases h with
  | tick | shared => rfl
  | land newer s older hsent _ =>
      rw [hsent]
      cases newer with
      | nil => simp [hf]
      | cons => rfl

theorem interference_tail {w v : World} (h : Interference w v) {β : Type} (f : Sent → Option β)
    (hf : ∀ s : Sent, f { s with landed := true } = f s) :
    v.sent.tail.filterMap f = w.sent.tail.filterMap f := by
  cases h with
  | tick | shared => rfl
  | land newer s older hsent _ =>
      rw [hsent]
      cases newer with
      | nil => rfl
      | cons =>
          simp only [List.cons_append, List.tail_cons, List.filterMap_append,
            List.filterMap_cons, hf]

end So4Oracle.KeeperRuns
