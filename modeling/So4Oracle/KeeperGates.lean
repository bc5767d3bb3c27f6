import So4Oracle.KeeperRequests
import So4Oracle.KeeperScript
import So4Oracle.Library.Records

namespace So4Oracle.KeeperGates

open Library.Checked Library.Requests Library.Safety Library.Records Wire Config State Chain StellarRpc
  Submit Handler Keeper KeeperRuns KeeperRequests KeeperScript

abbrev KeeperTrace := List (Event KeeperRequest KeeperRequest.Answer)

abbrev KeeperStep := Step KeeperRequest KeeperRequest.Answer World

section Gates

/-- What the balance check of the cycle returned. -/
def balanceAnswer : KeeperTrace → Option (Except RpcError Int)
  | [] => none
  | ⟨.checkKeeperBalance, r⟩ :: _ => some r
  | _ :: rest => balanceAnswer rest

/-- The second of the snapshot and the cached prices it read. -/
def snapshotTaken : KeeperTrace → Option (Nat × PriceMap)
  | ⟨.unixTime, now⟩ :: ⟨.state .readPrices, prices⟩ :: _ => some (now, prices)
  | _ :: rest => snapshotTaken rest
  | [] => none

variable (crates : Crates) (settings : Settings)

def NothingFresh (now : Nat) (prices : PriceMap) : Prop :=
  ∀ token ∈ settings.tokens, ∀ price, prices[lookupKey crates token]? = some price →
    price.isStale token.staleAfterSeconds now = true

/-- The cycle finds the balance below the minimum, or no token with a fresh price. -/
def Gated (tr : KeeperTrace) : Prop :=
  (∃ balance xlm min, balanceAnswer tr = some (.error (.balanceBelowMinimum balance xlm min))) ∨
    ∃ now prices, snapshotTaken tr = some (now, prices) ∧ NothingFresh crates settings now prices

variable {crates settings} {sign : Transaction → Except String String} {tr : KeeperTrace}

theorem freshPrices_isEmpty {now : Nat} {prices : PriceMap}
    (h : NothingFresh crates settings now prices) :
    (freshPrices crates settings now prices).isEmpty = true := by
  rw [Std.TreeMap.isEmpty_iff_forall_not_mem]
  intro key hmem
  obtain ⟨price, hprice⟩ := Option.isSome_iff_exists.mp
    (Std.TreeMap.mem_iff_isSome_getElem?.mp hmem)
  obtain ⟨hcached, hfresh⟩ := getElem?_filter_eq_some.mp hprice
  rw [isFresh] at hfresh
  split at hfresh
  next token hfind =>
    have hkey : lookupKey crates token = key := by simpa using List.find?_some hfind
    have hstale := h token (List.mem_of_find?_eq_some hfind) price (by rwa [hkey])
    rw [hstale] at hfresh
    cases hfresh
  next => cases hfresh

theorem openCycle_runs {opened : Except CycleSummary Pending}
    (h : Runs (openCycle crates settings) tr opened) :
    ∃ balance now prices rest, (tr = ⟨.state .sweepExpiredInFlightKeys, ()⟩ ::
        ⟨.checkKeeperBalance, balance⟩ :: ⟨.unixTime, now⟩ :: ⟨.state .readPrices, prices⟩ :: rest) ∧
      (∀ pending, opened = .ok pending → isBalanceLow balance = false ∧
        pending.freshPrices = freshPrices crates settings now prices) ∧
      ∀ summary, opened = .error summary → ∃ pricesStale keeperBalanceLow,
        summary = CycleSummary.skipped pricesStale keeperBalanceLow := by
  obtain ⟨swept, afterSweep, rfl, hswept⟩ := runs_request_bind.mp h
  obtain ⟨balance, afterBalance, rfl, hchecked⟩ := runs_request_bind.mp hswept
  obtain ⟨snapshotting, fresh, afterSnapshot, rfl, hsnapshot, hrest⟩ := runs_bind.mp hchecked
  obtain ⟨now, afterNow, rfl, hread⟩ := runs_request_bind.mp hsnapshot
  obtain ⟨prices, afterRead, rfl, hdone⟩ := runs_request_bind.mp hread
  obtain ⟨rfl, rfl⟩ := runs_done.mp hdone
  refine ⟨balance, now, prices, afterSnapshot, rfl, ?_⟩
  obtain ⟨fetched, afterFetch, -, hfetched⟩ := runs_request_bind.mp hrest
  obtain ⟨stored, afterStore, -, hstored⟩ := runs_request_bind.mp hfetched
  split at hstored
  next =>
    obtain rfl := (runs_done.mp hstored).2
    refine ⟨fun pending hpending => (nomatch hpending), fun summary hsummary => ?_⟩
    cases hsummary
    exact ⟨_, _, rfl⟩
  next hgo =>
    obtain rfl := (runs_done.mp hstored).2
    rw [Bool.or_eq_true, not_or, Bool.not_eq_true, Bool.not_eq_true] at hgo
    refine ⟨fun pending hpending => ?_, fun summary hsummary => (nomatch hsummary)⟩
    cases hpending
    exact ⟨hgo.2, rfl⟩

variable (crates settings sign) in
/-- What is left of a cycle once it has been opened. -/
def afterOpening : Except CycleSummary Pending → KeeperProgram (Except String CycleSummary)
  | .error summary => pure (.ok summary)
  | .ok pending => do
      match ← publishFresh crates settings sign pending with
      | .error e => pure (.error e)
      | .ok () => do
          let summary ← executePending crates settings sign pending
          pure (.ok summary)

theorem executeKeeperCycle_eq :
    executeKeeperCycle crates settings sign =
      openCycle crates settings >>= afterOpening crates settings sign := by
  unfold executeKeeperCycle prepareCycle
  rw [Program.bind_assoc]
  congr 1
  funext opened
  cases opened with
  | error summary => rfl
  | ok pending =>
      rw [afterOpening, Program.bind_assoc]
      congr 1
      funext published
      cases published <;> rfl

theorem afterOpening_stale {pending : Pending} (h : pending.pricesStale = true) :
    ∃ result, afterOpening crates settings sign (.ok pending) = .done result := by
  simp [afterOpening, publishFresh, executePending, executeFresh, h]

/-- Behind a gate that is shut the cycle ends as soon as it has been opened. -/
theorem gated_opening (h : Begins (executeKeeperCycle crates settings sign) tr)
    (hgated : Gated crates settings tr) : ∀ e ∈ tr, Opening e.request := by
  rw [executeKeeperCycle_eq] at h
  rcases begins_bind h with h | ⟨first, opened, rest, rfl, hopen, hrest⟩
  · exact h.asks openCycle_asks
  · have hfirst := hopen.asks openCycle_asks
    have hnone : rest = [] := by
      cases opened with
      | error summary => exact begins_done.mp hrest
      | ok pending =>
          obtain ⟨balance, now, prices, last, rfl, hpending, -⟩ := openCycle_runs hopen
          obtain ⟨hlow, hfresh⟩ := hpending pending rfl
          rcases hgated with ⟨amount, xlm, min, hbalance⟩ | ⟨now', prices', hsnapshot, hstale⟩
          · obtain rfl := Option.some.inj hbalance
            cases hlow
          · cases Option.some.inj hsnapshot
            have hempty : pending.pricesStale = true := by
              rw [Pending.pricesStale, hfresh]
              exact freshPrices_isEmpty hstale
            have hdone : ∃ result, afterOpening crates settings sign (.ok pending) = .done result :=
              afterOpening_stale hempty
            obtain ⟨result, hdone⟩ := hdone
            rw [hdone] at hrest
            exact begins_done.mp hrest
    rwa [hnone, List.append_nil]

end Gates

section Effects

def submissions (w : World) : List (Work × Transaction × Nat) :=
  w.sent.map fun s => (s.work, s.tx, s.sentAt)

structure SameGuards (w v : World) : Prop where
  frozenOrderBlacklist : v.app.frozenOrderBlacklist = w.app.frozenOrderBlacklist
  executionFailureCounts : v.app.executionFailureCounts = w.app.executionFailureCounts
  freezeFailureCounts : v.app.freezeFailureCounts = w.app.freezeFailureCounts

/-- Nothing is submitted, no baseline is written, and of the keys in flight only
those that have expired are removed. -/
structure Idles (w v : World) : Prop where
  submissions : submissions v = submissions w
  lastSubmittedMedians : v.app.priceCache.lastSubmittedMedians = w.app.priceCache.lastSubmittedMedians
  lastFullSubmission : v.app.priceCache.lastFullSubmission = w.app.priceCache.lastFullSubmission
  inFlightKeys : ∀ key : String, v.app.inFlightKeys[key]? = w.app.inFlightKeys[key]? ∨
    v.app.inFlightKeys[key]? = none ∧ ∃ insertedAt, w.app.inFlightKeys[key]? = some insertedAt ∧
      isExpired v.clock insertedAt = true
  clock : w.clock ≤ v.clock

structure LeftAlone (w v : World) : Prop extends SameGuards w v, Idles w v

variable {crates : Crates} {settings : Settings} {sign : Transaction → Except String String}
  {w v u : World}

theorem SameGuards.trans (h : SameGuards w v) (h' : SameGuards v u) : SameGuards w u where
  frozenOrderBlacklist := h'.frozenOrderBlacklist.trans h.frozenOrderBlacklist
  executionFailureCounts := h'.executionFailureCounts.trans h.executionFailureCounts
  freezeFailureCounts := h'.freezeFailureCounts.trans h.freezeFailureCounts

theorem isExpired_later {clock later insertedAt : Nat} (h : isExpired clock insertedAt = true)
    (hle : clock ≤ later) : isExpired later insertedAt = true := by
  unfold isExpired at *
  simp only [decide_eq_true_eq] at *
  omega

theorem SameGuards.refl (w : World) : SameGuards w w := ⟨rfl, rfl, rfl⟩

theorem Idles.refl (w : World) : Idles w w := ⟨rfl, rfl, rfl, fun _ => .inl rfl, le_rfl⟩

theorem Idles.trans (h : Idles w v) (h' : Idles v u) : Idles w u where
  submissions := h'.submissions.trans h.submissions
  lastSubmittedMedians := h'.lastSubmittedMedians.trans h.lastSubmittedMedians
  lastFullSubmission := h'.lastFullSubmission.trans h.lastFullSubmission
  inFlightKeys key := by
    rcases h'.inFlightKeys key with hsame | ⟨hnone, insertedAt, hentry, hexpired⟩
    · rw [hsame]
      rcases h.inFlightKeys key with hold | ⟨hgone, insertedAt, hentry, hexpired⟩
      · exact .inl hold
      · exact .inr ⟨hgone, insertedAt, hentry, isExpired_later hexpired h'.clock⟩
    · rcases h.inFlightKeys key with hold | ⟨hgone, -⟩
      · exact .inr ⟨hnone, insertedAt, by rw [← hold, hentry], hexpired⟩
      · rw [hgone] at hentry
        cases hentry
  clock := h.clock.trans h'.clock

theorem LeftAlone.trans (h : LeftAlone w v) (h' : LeftAlone v u) : LeftAlone w u :=
  ⟨h.toSameGuards.trans h'.toSameGuards, h.toIdles.trans h'.toIdles⟩

theorem interference_idles (h : Interference w v) : Idles w v := by
  have hclock := interference_clock h
  cases h with
  | tick nanos => exact ⟨rfl, rfl, rfl, fun _ => .inl rfl, hclock⟩
  | land newer s older hsent hlanded =>
      refine { Idles.refl w with submissions := ?_ }
      simp [KeeperGates.submissions, hsent]
  | shared app happ =>
      refine ⟨rfl, happ.lastSubmittedMedians, happ.lastFullSubmission, fun key => .inl ?_, hclock⟩
      rw [World.setApp, happ.inFlightKeys]

theorem interferes_idles (h : (keeper crates settings).Interferes w v) : Idles w v := by
  induction h with
  | refl => exact .refl w
  | tail _ h ih => exact ih.trans (interference_idles h)

theorem sweep_idles (w : World) : Idles w (w.run .sweepExpiredInFlightKeys) := by
  refine { Idles.refl w with inFlightKeys := fun key => ?_ }
  show (w.app.inFlightKeys.filter fun _ insertedAt => !isExpired w.clock insertedAt)[key]? =
      w.app.inFlightKeys[key]? ∨ _
  cases hentry : w.app.inFlightKeys[key]? with
  | none =>
      left
      rw [Std.TreeMap.getElem?_filter', hentry]
      rfl
  | some insertedAt =>
      cases hexpired : isExpired w.clock insertedAt with
      | true =>
          refine .inr ⟨?_, insertedAt, rfl, hexpired⟩
          show (w.app.inFlightKeys.filter fun _ insertedAt => !isExpired w.clock insertedAt)[key]? = none
          rw [Std.TreeMap.getElem?_filter', hentry]
          exact Option.filter_some_neg (by simp [hexpired])
      | false =>
          left
          rw [Std.TreeMap.getElem?_filter', hentry]
          exact Option.filter_some_pos (by simp [hexpired])

theorem opening_leftAlone {q : KeeperRequest} (hq : Opening q) {r : q.Answer}
    (h : (keeper crates settings).answer q w r v) : LeftAlone w v := by
  obtain ⟨-, h⟩ := h
  cases q with
  | state op =>
      obtain ⟨-, rfl⟩ := h
      cases op with
      | readPrices | setPending => exact ⟨⟨rfl, rfl, rfl⟩, { Idles.refl w with }⟩
      | sweepExpiredInFlightKeys => exact ⟨⟨rfl, rfl, rfl⟩, sweep_idles w⟩
      | _ => exact absurd hq id
  | unixTime =>
      obtain ⟨-, rfl⟩ := h
      exact ⟨.refl v, .refl v⟩
  | checkKeeperBalance | pendingKeys =>
      obtain rfl := h
      exact ⟨.refl v, .refl v⟩
  | _ => exact absurd hq id

end Effects

variable {crates : Crates} {settings : Settings} {sign : Transaction → Except String String}

/-- No step of a gated cycle changes anything that matters, and when the guards
are left to the cycle, neither does the cycle as a whole. -/
theorem executeKeeperCycle_gated {w v : World} {steps : List KeeperStep}
    (h : Recorded (keeper crates settings) (executeKeeperCycle crates settings sign) w steps v)
    (hgated : Gated crates settings (traceOf steps)) :
    (∀ s ∈ steps, LeftAlone s.before s.after) ∧ (Between SameGuards w steps v → LeftAlone w v) := by
  have hopening := gated_opening h.begins hgated
  have hsteps : ∀ s ∈ steps, LeftAlone s.before s.after := by
    intro s hs
    exact opening_leftAlone (hopening s.event (List.mem_map_of_mem hs)) (h.answered s hs)
  refine ⟨hsteps, fun hbetween => ?_⟩
  exact h.respects (R := SameGuards) (T := LeftAlone) LeftAlone.trans
    (fun hi hguards => ⟨hguards, interferes_idles hi⟩) hsteps hbetween

section Samples

/-- Every request up to the gates is answered at once, with an order pending. -/
def respondGated (balance : Except RpcError Int) : Player KeeperRequest KeeperRequest.Answer World :=
  fun q w =>
    if w.clock ≤ w.cycleStart + keeperCycleTimeout then
      match q with
      | .state op => some ((op.run w.clock w.app).1, w.run op)
      | .unixTime => some (secondsOf w.clock, w)
      | .checkKeeperBalance => some (balance, w)
      | .pendingKeys => some (oneOrder, w)
      | _ => none
    else none

theorem respondGated_answers (balance : Except RpcError Int) (q : KeeperRequest) (w : World)
    (r : q.Answer) (u : World) (h : respondGated balance q w = some (r, u)) :
    (keeper nodeCrates keeperSettings).answer q w r u := by
  unfold respondGated at h
  split at h
  next hcycle =>
    cases q with
    | state | unixTime =>
        cases h
        exact ⟨hcycle, rfl, rfl⟩
    | checkKeeperBalance | pendingKeys =>
        cases h
        exact ⟨hcycle, rfl⟩
    | _ => cases h
  next => cases h

/-- The price of second 1000 is stale by now, and a key has been in flight for long. -/
def idleWorld : World :=
  { startWorld 100 with
    clock := 5000 * nanosPerSecond
    cycleStart := 5000 * nanosPerSecond
    app := (appWithPrice .new 100).setInFlight (.ofList [("bb", 0)]) }

def lowBalance : Except RpcError Int := .error (.balanceBelowMinimum 0 "0" "1")

theorem idleWorld_nothingFresh :
    NothingFresh nodeCrates keeperSettings 5000 idleWorld.app.priceCache.prices := by
  intro token htoken price hprice
  obtain rfl : token = sampleToken := List.mem_singleton.mp htoken
  have hkey : lookupKey nodeCrates sampleToken = "cbtc" := by decide +kernel
  have hcached : idleWorld.app.priceCache.prices["cbtc"]? = some (samplePrice 100) :=
    Std.TreeMap.getElem?_insert_self
  rw [hkey, hcached] at hprice
  obtain rfl := Option.some.inj hprice
  decide

end Samples

/-- One cycle without a fresh price, and one with a fresh price and a low balance. -/
theorem executeKeeperCycle_gated_idleWorld :
    LeftAlone idleWorld (play (respondGated (.ok 0))
        (executeKeeperCycle nodeCrates keeperSettings sampleSign) idleWorld) ∧
      LeftAlone (startWorld 100).enter (play (respondGated lowBalance)
        (executeKeeperCycle nodeCrates keeperSettings sampleSign) (startWorld 100).enter) := by
  constructor
  · obtain ⟨hrecorded, hbetween⟩ := recorded_play (respondGated_answers (.ok 0))
      (executeKeeperCycle nodeCrates keeperSettings sampleSign) idleWorld
    have hgated := executeKeeperCycle_gated hrecorded
      (.inr ⟨5000, idleWorld.app.priceCache.prices, rfl, idleWorld_nothingFresh⟩)
    exact hgated.2 (hbetween.mono fun a b hab => hab ▸ .refl a)
  · obtain ⟨hrecorded, hbetween⟩ := recorded_play (respondGated_answers lowBalance)
      (executeKeeperCycle nodeCrates keeperSettings sampleSign) (startWorld 100).enter
    have hgated := executeKeeperCycle_gated hrecorded (.inl ⟨0, "0", "1", rfl⟩)
    exact hgated.2 (hbetween.mono fun a b hab => hab ▸ .refl a)

end So4Oracle.KeeperGates
