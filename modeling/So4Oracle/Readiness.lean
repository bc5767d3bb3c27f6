import So4Oracle.ReadyLock

namespace So4Oracle.Readiness

open Library.Requests Library.Safety Library.Protocol Library.Floats Library.Threads Library.Tasks
  Library.Records Library.Journals Library.Budgets State Admin StellarRpc XlmBalance KeeperBalance
  StatusSnapshot Ready ReadyRuns ReadyLock

variable {F : Type} {decode : String → Except String (List HorizonBalanceEntry)} {ops : FloatOps F}
  {settings : ReadySettings F}

section Budget

/-- What a request costs that counts the calls of the two services. -/
def weigh (rpc horizon : Nat) : ProbeRequest → Nat
  | .getRpc _ => rpc
  | .balance (.getAccount _) => horizon
  | .balance (.swapBelowMin _) | .balance (.log _) | .sleepMs _ => 0

def probeCost (cost : ProbeRequest → Nat) : ReadyRequest → Nat
  | .probe _ q => cost q
  | _ => 0

variable {ε α : Type} {cost : ProbeRequest → Nat} {rpc horizon : Nat}

theorem relayBalance_spends {p : BalanceProgram α} {n : Nat}
    (h : Spends (fun q => cost (.balance q)) n p) : Spends cost n (relayBalance p) := by
  induction p generalizing n with
  | done a => trivial
  | ask q next ih => exact ⟨h.1, fun r => ih r (h.2 r)⟩

theorem retryReadyFrom_spends {probe : ProbeProgram (Except ε α)} {isTerminal : ε → Bool} {n : Nat}
    (hprobe : Spends cost n probe) (hsleep : ∀ ms, cost (.sleepMs ms) = 0) (attempt remaining : Nat) :
    Spends cost ((remaining + 1) * n) (retryReadyFrom probe isTerminal attempt remaining) := by
  induction remaining generalizing attempt with
  | zero =>
      rw [Nat.zero_add, Nat.one_mul, retryReadyFrom]
      exact hprobe
  | succ remaining ih =>
      rw [Nat.add_mul, Nat.one_mul, Nat.add_comm]
      apply hprobe.bind
      intro result
      cases result with
      | ok value => trivial
      | error e =>
          dsimp only
          split
          · trivial
          · refine ⟨(hsleep _).le.trans (Nat.zero_le _), fun _ => ?_⟩
            rw [hsleep]
            exact ih (attempt + 1)

theorem checkKeeperBalance_spends {cfg : KeeperBalanceConfig F} :
    Spends (fun q => weigh rpc horizon (.balance q)) horizon (checkKeeperBalance decode ops cfg) := by
  have hget : Spends (fun q => weigh rpc horizon (.balance q)) horizon
      (getAccountBalanceStroops (F := F) decode cfg.horizonUrl cfg.accountId) :=
    ⟨Nat.le_refl _, fun _ => trivial⟩
  refine hget.bind (n := 0) fun result => ?_
  cases result with
  | error e => trivial
  | ok stroops =>
      dsimp only
      rw [compareBalance]
      split
      · exact ⟨Nat.le_refl 0, fun _ => ⟨Nat.le_refl 0, fun _ => trivial⟩⟩
      · exact ⟨Nat.le_refl 0, fun _ => ⟨Nat.le_refl 0, fun _ => trivial⟩⟩

theorem performExternalReadyChecks_spends :
    Spends (weigh rpc horizon) (3 * rpc + 3 * horizon)
      (performExternalReadyChecks decode ops settings) := by
  have hreach : Spends (weigh rpc horizon) rpc (probeRpcReachability settings.stellarRpcUrl) :=
    ⟨Nat.le_refl _, fun _ => trivial⟩
  have hbalance : Spends (weigh rpc horizon) horizon
      (relayBalance (checkKeeperBalance decode ops (keeperCfg settings))) :=
    relayBalance_spends checkKeeperBalance_spends
  refine (retryReadyFrom_spends hreach (fun _ => rfl) 1 2).bind fun reached => ?_
  cases reached with
  | error e => trivial
  | ok =>
      refine (retryReadyFrom_spends hbalance (fun _ => rfl) 1 2).bind (n := 0) fun result => ?_
      rcases result with (_ | _ | _) | _ <;> trivial

theorem timeoutAt_spends {deadline : Nat} {p : ProbeProgram α} {n : Nat} (h : Spends cost n p) :
    Spends (probeCost cost) n (timeoutAt deadline p) := by
  induction p generalizing n with
  | done a => trivial
  | ask q next ih =>
      rw [timeoutAt]
      refine ⟨h.1, fun answer => ?_⟩
      cases answer with
      | none => trivial
      | some r => exact ih r (h.2 r)

theorem conclude_spends (checkRes : Except ApiError Unit) :
    Spends (probeCost cost) 0 (conclude checkRes) :=
  ⟨Nat.le_refl 0, fun _ => ⟨Nat.le_refl 0, fun _ => trivial⟩⟩

theorem checkAgain_spends :
    Spends (probeCost (weigh rpc horizon)) (3 * rpc + 3 * horizon)
      (checkAgain decode ops settings) := by
  refine ⟨Nat.zero_le _, fun start => ?_⟩
  simp only [Program.bind]
  refine (timeoutAt_spends performExternalReadyChecks_spends).bind (n := 0) fun res => ?_
  rcases res with _ | fault | checkRes
  · exact conclude_spends _
  · exact ⟨Nat.le_refl 0, fun _ => trivial⟩
  · exact conclude_spends checkRes

theorem readyCached_spends :
    Spends (probeCost (weigh rpc horizon)) (3 * rpc + 3 * horizon)
      (readyCached decode ops settings) := by
  refine ⟨Nat.zero_le _, fun cache => ?_⟩
  simp only [Program.bind]
  split
  · exact checkAgain_spends
  · refine ⟨Nat.zero_le _, fun now => ?_⟩
    simp only [Program.bind]
    split
    · exact ⟨Nat.zero_le _, fun _ => trivial⟩
    · exact checkAgain_spends

/-- No request asks either service more than three times. -/
theorem ready_spends :
    Spends (probeCost (weigh rpc horizon)) (3 * rpc + 3 * horizon) (ready decode ops settings) := by
  refine ⟨Nat.zero_le _, fun empty => ?_⟩
  simp only [Program.bind]
  split
  · trivial
  · refine ⟨Nat.zero_le _, fun price => ?_⟩
    simp only [Program.bind]
    split
    · trivial
    · refine ⟨Nat.zero_le _, fun keeper => ?_⟩
      simp only [Program.bind]
      split
      · trivial
      · exact readyCached_spends

end Budget

section Main

variable {c : ReadyServer} {start id : Nat} {r : ReadyOutcome}

theorem journaled : Journaled readiness anywhere ReadyWorld.journal where
  answer h := by
    obtain ⟨clock, -, -, rfl⟩ := h
    exact ⟨clock, rfl⟩
  drop h := by
    obtain rfl := h
    rfl

theorem chronicle (hr : Relation.ReflTransGen (Moves readiness anywhere)
    (serving decode ops settings start) c) :
    Chronicle (fun _ => ready decode ops settings) c.shared.journal c := by
  refine Chronicle.reaches journaled ⟨fun id => .here _, fun id m p hid => ?_⟩ hr
  cases hid
  exact .here _

theorem locked (hr : Relation.ReflTransGen (Moves readiness anywhere)
    (serving decode ops settings start) c) : Locked (modes c) c.shared := by
  have hends : Ends rules (fun _ _ => True) (serving decode ops settings start) := by
    intro id m p h
    cases h
    exact ready_follows
  have hstart : Locked (modes (serving decode ops settings start))
      (serving decode ops settings start).shared := by
    refine ⟨⟨nofun, nofun, List.Pairwise.nil, nofun, nofun, List.Pairwise.nil⟩, fun id => ?_, fun id stage hstage => ?_⟩
    · refine iff_of_false nofun ?_
      rintro ⟨stage, hstage, hholds⟩
      obtain rfl := Option.some.inj hstage
      cases hholds
    · obtain rfl := Option.some.inj hstage
      trivial
  exact (kept_locked.reaches (fun _ _ _ _ hrule => hrule.2) hends hstart hr).2

/-- However the requests overlap and wherever they are dropped, no probe is made
within three seconds of a stored outcome, and no request makes more than three
calls to either service. -/
theorem probes_spaced (hr : Relation.ReflTransGen (Moves readiness anywhere)
    (serving decode ops settings start) c) :
    c.shared.journal.Pairwise Spaced ∧ ∀ id rpc horizon,
      ((eventsOf c.shared.journal id).map fun e => probeCost (weigh rpc horizon) e.request).sum ≤
        3 * rpc + 3 * horizon :=
  ⟨(locked hr).recorded.spaced, fun id _ _ => ready_spends.begins ((chronicle hr).begins id)⟩

/-- What the outcome of a request follows from, in all that was asked. -/
inductive Explained (decode : String → Except String (List HorizonBalanceEntry)) (ops : FloatOps F)
    (settings : ReadySettings F) (journal : List ReadyEntry) (id : Nat) : ReadyOutcome → Prop
  | noPrices (h : ⟨.pricesEmpty, true⟩ ∈ eventsOf journal id) :
      Explained decode ops settings journal id (.ok (.error (unavailable "no_prices_cached")))
  | priceLoopStale {cycle : CycleStatus} {now : Nat}
      (h : ⟨.readCycle, (cycle, now)⟩ ∈ eventsOf journal id)
      (hstale : isStale settings.priceLoopInterval now cycle.lastPriceCycleAt = true) :
      Explained decode ops settings journal id (.ok (.error (unavailable "price_loop_stale")))
  | keeperLoopStale {cycle : CycleStatus} {now : Nat}
      (h : ⟨.readCycle, (cycle, now)⟩ ∈ eventsOf journal id)
      (hstale : isStale settings.keeperLoopInterval now cycle.lastKeeperCycleAt = true) :
      Explained decode ops settings journal id (.ok (.error (unavailable "keeper_loop_stale")))
  | checked {e : Option ApiError} {other stored : Nat} (hgates : Passes settings (eventsOf journal id))
      (hstored : ⟨other, stored, ⟨.store e, ()⟩⟩ ∈ journal)
      (hrecent : other = id ∨
        ∃ now : Nat, ⟨.instant, now⟩ ∈ eventsOf journal id ∧ stored ≤ now ∧
          now < stored + readyCacheTtl)
      (hhealthy : e = none → Healthy decode ops settings (eventsOf journal other)) :
      Explained decode ops settings journal id (outcomeOf e)

/-- A request never panics. It fails at a gate for what it read there; else it
passed all gates and reports an outcome that it stored itself or that another
request stored less than three seconds before, and a positive one was stored by
a request that found the RPC endpoint up and the keeper's account funded. -/
theorem ready_explained (hr : Relation.ReflTransGen (Moves readiness anywhere)
    (serving decode ops settings start) c) {stage : Stage}
    (hid : c.threads id = .at stage (.done r)) :
    Explained decode ops settings c.shared.journal id r := by
  have hchronicle := chronicle hr
  have hhealthy : ∀ {e : Option ApiError} {other stored : Nat},
      ⟨other, stored, ⟨.store e, ()⟩⟩ ∈ c.shared.journal → e = none →
        Healthy decode ops settings (eventsOf c.shared.journal other) := by
    rintro e other stored hmem rfl
    exact ready_begins (hchronicle.begins other) (mem_eventsOf.mpr ⟨stored, hmem⟩)
  cases ready_runs (hchronicle.runs hid) with
  | noPrices h => exact .noPrices h
  | priceLoopStale h hstale => exact .priceLoopStale h hstale
  | keeperLoopStale h hstale => exact .keeperLoopStale h hstale
  | checked hgates h =>
      obtain ⟨stored, hmem⟩ := mem_eventsOf.mp h
      exact .checked hgates hmem (.inl rfl) (hhealthy hmem)
  | @cached cache hgates h =>
      obtain ⟨last, now, hlast, hlooks, hlt⟩ := h
      have hrecorded := (locked hr).recorded
      obtain ⟨time, hmem⟩ := mem_eventsOf.mp (hlooks.subset List.mem_cons_self)
      obtain ⟨other, hstored⟩ := hrecorded.seen id time cache hmem last hlast
      have haged : last ≤ now := by
        have hpair := (eventsOf_pairwise hrecorded.aged).sublist hlooks
        exact List.rel_of_pairwise_cons hpair List.mem_cons_self cache last now rfl hlast rfl
      have hnow : ⟨.instant, now⟩ ∈ eventsOf c.shared.journal id :=
        hlooks.subset (List.mem_cons_of_mem _ List.mem_cons_self)
      exact .checked hgates hstored (.inr ⟨now, hnow, haged, by omega⟩) (hhealthy hstored)

/-- All is well, and the lock is granted where it is free. -/
def wellAnswered (id : Nat) : Player ReadyRequest ReadyRequest.Answer ReadyWorld := fun q w =>
  let reply : Option q.Answer := match q with
    | .pricesEmpty => some false
    | .readCycle => some (⟨false, false, some 0, some 0, none⟩, 0)
    | .lockCache => if w.holder.isNone then some w.cache else none
    | .instant => some w.clock
    | .probe _ (.getRpc _) => some (some (.http 200 "ok"))
    | .probe _ (.balance (.getAccount _)) => some (some (.http 200 "account"))
    | .probe _ (.balance (.swapBelowMin _)) => some (some false)
    | .probe _ (.balance (.log _)) | .probe _ (.sleepMs _) => some (some ())
    | .store _ | .unlockCache => some ()
  reply.map fun r => (r, w.answered id w.clock q r)

theorem answer_wellAnswered (id : Nat) (q : ReadyRequest) (w : ReadyWorld) (r : q.Answer)
    (u : ReadyWorld) (h : wellAnswered id q w = some (r, u)) : readiness.answer id q w r u := by
  obtain ⟨reply, hreply, heq⟩ := Option.map_eq_some_iff.mp h
  obtain ⟨rfl, rfl⟩ := Prod.mk.inj heq
  refine ⟨w.clock, Nat.le_refl _, ?_, rfl⟩
  cases q with
  | lockCache =>
      dsimp only at hreply
      split at hreply
      next hfree => exact ⟨Option.isNone_iff_eq_none.mp hfree, (Option.some.inj hreply).symm⟩
      next => cases hreply
  | instant => exact (Option.some.inj hreply).symm
  | probe deadline q =>
      cases reply with
      | some r => trivial
      | none => rcases q with _ | (_ | _ | _) | _ <;> exact nomatch hreply
  | _ => trivial

def sampleSettings : ReadySettings (Option ℚ) where
  priceLoopInterval := nanosPerSecond
  keeperLoopInterval := 5 * nanosPerSecond
  stellarRpcUrl := "https://rpc"
  horizonUrl := "https://horizon"
  keeperAccountId := "GKEEPER"
  minKeeperBalanceXlm := some 10

/-- The second request waits for the lock and then finds the outcome of the first. -/
def sampleServer : ReadyServer :=
  (serving sampleDecode exactOps sampleSettings 0).driveAll wellAnswered Stage.after
    [0, 1, 0, 1, 0, 1, 0, 1, 0, 0, 1, 0, 0, 0, 0, 1, 0, 1, 1, 1]

theorem sample_reached : Relation.ReflTransGen (Moves readiness anywhere)
    (serving sampleDecode exactOps sampleSettings 0) sampleServer :=
  moves_driveAll answer_wellAnswered _ _

theorem probes_spaced_sample : sampleServer.shared.journal.length = 17 ∧
    sampleServer.shared.journal.Pairwise Spaced :=
  ⟨by decide +kernel, (probes_spaced sample_reached).1⟩

theorem ready_explained_sample :
    Explained sampleDecode exactOps sampleSettings sampleServer.shared.journal 1 (.ok (.ok ())) := by
  have hdone : (sampleServer.threads 1).result? = some (.ok (.ok ())) := by decide +kernel
  obtain ⟨stage, hid⟩ := exists_of_result? hdone
  exact ready_explained sample_reached hid

end Main

end So4Oracle.Readiness
