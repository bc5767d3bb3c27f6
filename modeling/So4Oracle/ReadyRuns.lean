import So4Oracle.Ready

namespace So4Oracle.ReadyRuns

open Library.Requests Library.Checked Library.Floats Library.Records State Admin StellarRpc XlmBalance
  KeeperBalance StatusSnapshot Ready

variable {F : Type} {decode : String → Except String (List HorizonBalanceEntry)} {ops : FloatOps F}
  {settings : ReadySettings F}

abbrev ProbeTrace := List (Event ProbeRequest ProbeRequest.Answer)

abbrev ReadyTrace := List (Event ReadyRequest ReadyRequest.Answer)

section Probes

variable {ε α : Type} {tr : ProbeTrace}

theorem relayBalance_runs {p : BalanceProgram α} {a : α} (h : Runs (relayBalance p) tr a) :
    ∃ sub : BalanceTrace, Runs p sub a ∧ ∀ e ∈ sub, ⟨.balance e.request, e.answer⟩ ∈ tr := by
  induction p generalizing tr with
  | done b =>
      obtain ⟨rfl, rfl⟩ := runs_done.mp h
      exact ⟨[], .done a, fun e he => absurd he List.not_mem_nil⟩
  | ask q next ih =>
      obtain ⟨r, rest, rfl, hrest⟩ := runs_ask.mp h
      obtain ⟨sub, hsub, hall⟩ := ih r hrest
      refine ⟨⟨q, r⟩ :: sub, runs_ask.mpr ⟨r, sub, rfl, hsub⟩, fun e he => ?_⟩
      rcases List.mem_cons.mp he with rfl | he
      · exact List.mem_cons_self
      · exact List.mem_cons_of_mem _ (hall e he)

/-- The result is that of the last attempt. -/
theorem retryReadyFrom_last {probe : ProbeProgram (Except ε α)} {isTerminal : ε → Bool}
    {attempt remaining : Nat} {r : Except ε α}
    (h : Runs (retryReadyFrom probe isTerminal attempt remaining) tr r) :
    ∃ earlier last, tr = earlier ++ last ∧ Runs probe last r := by
  induction remaining generalizing attempt tr with
  | zero => exact ⟨[], tr, rfl, h⟩
  | succ remaining ih =>
      obtain ⟨first, a, rest, rfl, hfirst, hrest⟩ := runs_bind.mp h
      cases a with
      | ok value =>
          obtain ⟨rfl, rfl⟩ := runs_done.mp hrest
          exact ⟨[], first, List.append_nil _, hfirst⟩
      | error e =>
          dsimp only at hrest
          split at hrest
          next =>
            obtain ⟨rfl, rfl⟩ := runs_done.mp hrest
            exact ⟨[], first, List.append_nil _, hfirst⟩
          next =>
            obtain ⟨u, rest', rfl, hnext⟩ := runs_ask.mp hrest
            obtain ⟨earlier, last, rfl, hlast⟩ := ih hnext
            exact ⟨first ++ ⟨_, u⟩ :: earlier, last, by simp, hlast⟩

/-- The RPC endpoint has answered with success. -/
def RpcUp (settings : ReadySettings F) (tr : ProbeTrace) : Prop :=
  ∃ status body, (200 ≤ status ∧ status < 300) ∧
    ⟨.getRpc settings.stellarRpcUrl, .http status body⟩ ∈ tr

/-- The keeper's account has been seen with more than the minimum. -/
def Funded (decode : String → Except String (List HorizonBalanceEntry)) (ops : FloatOps F)
    (settings : ReadySettings F) (tr : ProbeTrace) : Prop :=
  ∃ url reply stroops, ⟨.balance (.getAccount url), reply⟩ ∈ tr ∧ Tells decode reply stroops ∧
    belowMinimum ops (keeperCfg settings) stroops = false

theorem probeRpcReachability_runs (h : Runs (probeRpcReachability settings.stellarRpcUrl) tr (.ok ())) :
    RpcUp settings tr := by
  obtain ⟨reply, rest, rfl, hrest⟩ := runs_ask.mp h
  have hreach : reachability reply = .ok () := (runs_done.mp hrest).2.symm
  cases reply with
  | failed msg => exact nomatch hreach
  | http status body =>
      rw [reachability] at hreach
      split at hreach
      next hstatus => exact ⟨status, body, hstatus, List.mem_cons_self⟩
      next => exact nomatch hreach

theorem mem_of_repliesOf {sub : BalanceTrace} {reply : Reply} (h : reply ∈ repliesOf sub) :
    ∃ url, ⟨.getAccount url, reply⟩ ∈ sub := by
  obtain ⟨⟨q, r⟩, hmem, heq⟩ := List.mem_filterMap.mp h
  cases q with
  | getAccount url =>
      obtain rfl := Option.some.inj heq
      exact ⟨url, hmem⟩
  | _ => exact nomatch heq

theorem balanceProbe_runs {r : Except (BalanceError F) Int}
    (h : Runs (relayBalance (checkKeeperBalance decode ops (keeperCfg settings))) tr r) :
    (∀ fault, r ≠ .error (.panicked fault)) ∧ ∀ stroops, r = .ok stroops → Funded decode ops settings tr := by
  obtain ⟨sub, hsub, hall⟩ := relayBalance_runs h
  obtain ⟨reply, hreply, hverdict⟩ := checkKeeperBalance_runs hsub
  obtain ⟨url, hmem⟩ := mem_of_repliesOf (hreply ▸ List.mem_singleton_self reply)
  refine ⟨fun fault heq => ?_, fun stroops heq => ?_⟩
  · subst heq
    cases hverdict
  · subst heq
    cases hverdict with
    | funded htells hmin => exact ⟨url, reply, stroops, hall _ hmem, htells, hmin⟩

theorem performExternalReadyChecks_runs {r : ReadyOutcome}
    (h : Runs (performExternalReadyChecks decode ops settings) tr r) :
    (∀ fault, r ≠ .error fault) ∧
      (r = .ok (.ok ()) → RpcUp settings tr ∧ Funded decode ops settings tr) := by
  obtain ⟨first, reached, rest, rfl, hfirst, hrest⟩ := runs_bind.mp h
  cases reached with
  | error e =>
      obtain ⟨rfl, rfl⟩ := runs_done.mp hrest
      exact ⟨nofun, nofun⟩
  | ok =>
      obtain ⟨earlier, last, rfl, hlast⟩ := retryReadyFrom_last hfirst
      obtain ⟨status, body, hstatus, hup⟩ := probeRpcReachability_runs hlast
      obtain ⟨second, balance, rest', rfl, hsecond, hdone⟩ := runs_bind.mp hrest
      obtain ⟨earlier', last', rfl, hlast'⟩ := retryReadyFrom_last hsecond
      obtain ⟨hnofault, hfunded⟩ := balanceProbe_runs hlast'
      cases balance with
      | ok stroops =>
          obtain ⟨rfl, rfl⟩ := runs_done.mp hdone
          obtain ⟨url, reply, amount, hmem, htells⟩ := hfunded stroops rfl
          refine ⟨nofun, fun _ => ⟨⟨status, body, hstatus, ?_⟩, url, reply, amount, ?_, htells⟩⟩
          · simp [hup]
          · simp [hmem]
      | error e =>
          cases e with
          | panicked fault => exact absurd rfl (hnofault fault)
          | _ =>
              obtain ⟨rfl, rfl⟩ := runs_done.mp hdone
              exact ⟨nofun, nofun⟩

end Probes

section Endpoint

variable {tr : ReadyTrace} {r : ReadyOutcome}

theorem timeoutAt_runs {α : Type} {deadline : Nat} {p : ProbeProgram α} {a : α}
    (h : Runs (timeoutAt deadline p) tr (some a)) :
    ∃ sub : ProbeTrace, Runs p sub a ∧
      ∀ e ∈ sub, ⟨.probe deadline e.request, some e.answer⟩ ∈ tr := by
  induction p generalizing tr with
  | done b =>
      obtain ⟨rfl, heq⟩ := runs_done.mp h
      obtain rfl := Option.some.inj heq
      exact ⟨[], .done a, fun e he => absurd he List.not_mem_nil⟩
  | ask q next ih =>
      rw [timeoutAt] at h
      obtain ⟨answer, rest, rfl, hrest⟩ := runs_ask.mp h
      cases answer with
      | none => exact nomatch (runs_done.mp hrest).2
      | some r =>
          obtain ⟨sub, hsub, hall⟩ := ih r hrest
          refine ⟨⟨q, r⟩ :: sub, runs_ask.mpr ⟨r, sub, rfl, hsub⟩, fun e he => ?_⟩
          rcases List.mem_cons.mp he with rfl | he
          · exact List.mem_cons_self
          · exact List.mem_cons_of_mem _ (hall e he)

/-- Among the probes of the trace, each answered in time, one found the RPC
endpoint up, and one the account funded. -/
def Healthy (decode : String → Except String (List HorizonBalanceEntry)) (ops : FloatOps F)
    (settings : ReadySettings F) (tr : ReadyTrace) : Prop :=
  ∃ sub : ProbeTrace, (∀ e ∈ sub, ∃ deadline, ⟨.probe deadline e.request, some e.answer⟩ ∈ tr) ∧
    RpcUp settings sub ∧ Funded decode ops settings sub

theorem Healthy.mono {tr' : ReadyTrace} (h : Healthy decode ops settings tr)
    (hsub : ∀ e ∈ tr, e ∈ tr') : Healthy decode ops settings tr' := by
  obtain ⟨sub, hprobes, hup, hfunded⟩ := h
  refine ⟨sub, fun e he => ?_, hup, hfunded⟩
  obtain ⟨deadline, hmem⟩ := hprobes e he
  exact ⟨deadline, hsub _ hmem⟩

theorem outcomeOf_lastErrorOf (checkRes : Except ApiError Unit) :
    outcomeOf (lastErrorOf checkRes) = .ok checkRes := by
  cases checkRes <;> rfl

/-- A request that stores nothing. -/
def Storeless : ReadyRequest → Prop
  | .store _ => False
  | _ => True

theorem mem_of_storeless {first : Event ReadyRequest ReadyRequest.Answer} {e : Option ApiError}
    (h : ⟨.store e, ()⟩ ∈ first :: tr) (hfirst : Storeless first.request) : ⟨.store e, ()⟩ ∈ tr := by
  rcases List.mem_cons.mp h with rfl | hmem
  · exact hfirst.elim
  · exact hmem

theorem timeoutAt_storeless {α : Type} (deadline : Nat) (p : ProbeProgram α) :
    (timeoutAt deadline p).Asks Storeless := by
  induction p with
  | done a => trivial
  | ask q next ih =>
      rw [timeoutAt]
      refine ⟨trivial, fun answer => ?_⟩
      cases answer with
      | none => trivial
      | some r => exact ih r

theorem conclude_begins {checkRes : Except ApiError Unit} {e : Option ApiError}
    (h : Begins (conclude checkRes) tr) (he : ⟨.store e, ()⟩ ∈ tr) : e = lastErrorOf checkRes := by
  rcases begins_ask.mp h with rfl | ⟨_, rest, rfl, hrest⟩
  · exact absurd he List.not_mem_nil
  · rcases List.mem_cons.mp he with heq | hmem
    · cases heq
      rfl
    · rcases begins_ask.mp hrest with rfl | ⟨_, last, rfl, hlast⟩
      · exact absurd hmem List.not_mem_nil
      · obtain rfl := begins_done.mp hlast
        exact nomatch List.mem_singleton.mp hmem

theorem conclude_runs {checkRes : Except ApiError Unit} (h : Runs (conclude checkRes) tr r) :
    ⟨.store (lastErrorOf checkRes), ()⟩ ∈ tr ∧ r = outcomeOf (lastErrorOf checkRes) := by
  obtain ⟨_, rest, rfl, hrest⟩ := runs_ask.mp h
  obtain ⟨_, last, rfl, hlast⟩ := runs_ask.mp hrest
  obtain ⟨rfl, rfl⟩ := runs_done.mp hlast
  exact ⟨List.mem_cons_self, (outcomeOf_lastErrorOf checkRes).symm⟩

theorem checkAgain_begins (h : Begins (checkAgain decode ops settings) tr)
    (hstore : ⟨.store none, ()⟩ ∈ tr) : Healthy decode ops settings tr := by
  rcases begins_ask.mp h with rfl | ⟨start, rest, rfl, hrest⟩
  · exact absurd hstore List.not_mem_nil
  have hmem := mem_of_storeless hstore trivial
  simp only [Program.bind] at hrest
  rcases begins_bind hrest with hprobes | ⟨first, res, last, rfl, hfirst, hlast⟩
  · exact False.elim (hprobes.asks (timeoutAt_storeless _ _) _ hmem)
  have hfirstless := (begins_of_runs hfirst).asks (timeoutAt_storeless _ _)
  have hmem' : ⟨.store none, ()⟩ ∈ last := by
    rcases List.mem_append.mp hmem with hmem | hmem
    · exact (hfirstless _ hmem).elim
    · exact hmem
  cases res with
  | none => exact nomatch conclude_begins hlast hmem'
  | some outcome =>
      cases outcome with
      | error fault =>
          rcases begins_ask.mp hlast with rfl | ⟨_, tail, rfl, htail⟩
          · exact absurd hmem' List.not_mem_nil
          · obtain rfl := begins_done.mp htail
            exact nomatch List.mem_singleton.mp hmem'
      | ok checkRes =>
          cases checkRes with
          | error e => exact nomatch conclude_begins hlast hmem'
          | ok =>
              obtain ⟨sub, hsub, hall⟩ := timeoutAt_runs hfirst
              obtain ⟨hup, hfunded⟩ := (performExternalReadyChecks_runs hsub).2 rfl
              refine ⟨sub, fun e he => ⟨start + readyCheckTimeout, ?_⟩, hup, hfunded⟩
              exact List.mem_cons_of_mem _ (List.mem_append_left _ (hall e he))

theorem checkAgain_runs (h : Runs (checkAgain decode ops settings) tr r) :
    ∃ e, ⟨.store e, ()⟩ ∈ tr ∧ r = outcomeOf e := by
  obtain ⟨start, rest, rfl, hrest⟩ := runs_ask.mp h
  simp only [Program.bind] at hrest
  obtain ⟨first, res, last, rfl, hfirst, hlast⟩ := runs_bind.mp hrest
  have hconcluded : ∃ e, ⟨.store e, ()⟩ ∈ last ∧ r = outcomeOf e := by
    cases res with
    | none => exact ⟨_, conclude_runs hlast⟩
    | some outcome =>
        cases outcome with
        | error fault =>
            obtain ⟨sub, hsub, -⟩ := timeoutAt_runs hfirst
            exact absurd rfl ((performExternalReadyChecks_runs hsub).1 fault)
        | ok checkRes => exact ⟨_, conclude_runs hlast⟩
  obtain ⟨e, hmem, hr⟩ := hconcluded
  exact ⟨e, List.mem_cons_of_mem _ (List.mem_append_right _ hmem), hr⟩

/-- A look at the cache that finds a recent outcome. -/
def Recent (tr : ReadyTrace) (cache : ReadyCache) : Prop :=
  ∃ last now : Nat, cache.lastChecked = some last ∧
    [⟨.lockCache, cache⟩, ⟨.instant, now⟩].Sublist tr ∧ now - last < readyCacheTtl

theorem readyCached_begins (h : Begins (readyCached decode ops settings) tr)
    (hstore : ⟨.store none, ()⟩ ∈ tr) : Healthy decode ops settings tr := by
  rcases begins_ask.mp h with rfl | ⟨cache, rest, rfl, hrest⟩
  · exact absurd hstore List.not_mem_nil
  have hmem := mem_of_storeless hstore trivial
  simp only [Program.bind] at hrest
  obtain ⟨lastChecked, lastError⟩ := cache
  cases lastChecked with
  | none => exact (checkAgain_begins hrest hmem).mono fun e he => List.mem_cons_of_mem _ he
  | some last =>
      rcases begins_ask.mp hrest with rfl | ⟨now, rest', rfl, hnow⟩
      · exact absurd hmem List.not_mem_nil
      have hmem' := mem_of_storeless hmem trivial
      simp only [Program.bind] at hnow
      split at hnow
      next =>
        rcases begins_ask.mp hnow with rfl | ⟨_, tail, rfl, htail⟩
        · exact absurd hmem' List.not_mem_nil
        · obtain rfl := begins_done.mp htail
          exact nomatch List.mem_singleton.mp hmem'
      next =>
        exact (checkAgain_begins hnow hmem').mono fun e he =>
          List.mem_cons_of_mem _ (List.mem_cons_of_mem _ he)

theorem readyCached_runs (h : Runs (readyCached decode ops settings) tr r) :
    (∃ e, ⟨.store e, ()⟩ ∈ tr ∧ r = outcomeOf e) ∨
      ∃ cache, Recent tr cache ∧ r = outcomeOf cache.lastError := by
  obtain ⟨cache, rest, rfl, hrest⟩ := runs_ask.mp h
  have hagain : ∀ {rest : ReadyTrace}, Runs (checkAgain decode ops settings) rest r →
      ∃ e, ⟨.store e, ()⟩ ∈ rest ∧ r = outcomeOf e := checkAgain_runs
  obtain ⟨lastChecked, lastError⟩ := cache
  cases lastChecked with
  | none =>
      obtain ⟨e, hmem, hr⟩ := hagain hrest
      exact .inl ⟨e, List.mem_cons_of_mem _ hmem, hr⟩
  | some last =>
      obtain ⟨now, rest', rfl, hnow⟩ := runs_ask.mp hrest
      simp only [Program.bind] at hnow
      split at hnow
      next hrecent =>
        obtain ⟨_, tail, rfl, htail⟩ := runs_ask.mp hnow
        obtain ⟨rfl, rfl⟩ := runs_done.mp htail
        exact .inr ⟨⟨some last, lastError⟩, ⟨last, now, rfl, by simp, hrecent⟩, rfl⟩
      next =>
        obtain ⟨e, hmem, hr⟩ := hagain hnow
        exact .inl ⟨e, List.mem_cons_of_mem _ (List.mem_cons_of_mem _ hmem), hr⟩

/-- The three gates before the external checks. -/
def Passes (settings : ReadySettings F) (tr : ReadyTrace) : Prop :=
  ⟨.pricesEmpty, false⟩ ∈ tr ∧
    (∃ cycle now, ⟨.readCycle, (cycle, now)⟩ ∈ tr ∧
      isStale settings.priceLoopInterval now cycle.lastPriceCycleAt = false) ∧
    ∃ cycle now, ⟨.readCycle, (cycle, now)⟩ ∈ tr ∧
      isStale settings.keeperLoopInterval now cycle.lastKeeperCycleAt = false

/-- What a request saw that its outcome follows from. -/
inductive Reason (settings : ReadySettings F) (tr : ReadyTrace) : ReadyOutcome → Prop
  | noPrices (h : ⟨.pricesEmpty, true⟩ ∈ tr) :
      Reason settings tr (.ok (.error (unavailable "no_prices_cached")))
  | priceLoopStale {cycle : CycleStatus} {now : Nat} (h : ⟨.readCycle, (cycle, now)⟩ ∈ tr)
      (hstale : isStale settings.priceLoopInterval now cycle.lastPriceCycleAt = true) :
      Reason settings tr (.ok (.error (unavailable "price_loop_stale")))
  | keeperLoopStale {cycle : CycleStatus} {now : Nat} (h : ⟨.readCycle, (cycle, now)⟩ ∈ tr)
      (hstale : isStale settings.keeperLoopInterval now cycle.lastKeeperCycleAt = true) :
      Reason settings tr (.ok (.error (unavailable "keeper_loop_stale")))
  | checked {e : Option ApiError} (hgates : Passes settings tr) (h : ⟨.store e, ()⟩ ∈ tr) :
      Reason settings tr (outcomeOf e)
  | cached {cache : ReadyCache} (hgates : Passes settings tr) (h : Recent tr cache) :
      Reason settings tr (outcomeOf cache.lastError)

theorem ready_begins (h : Begins (ready decode ops settings) tr) (hstore : ⟨.store none, ()⟩ ∈ tr) :
    Healthy decode ops settings tr := by
  rcases begins_ask.mp h with rfl | ⟨empty, rest, rfl, hrest⟩
  · exact absurd hstore List.not_mem_nil
  have hmem := mem_of_storeless hstore trivial
  simp only [Program.bind] at hrest
  split at hrest
  next =>
    obtain rfl := begins_done.mp hrest
    exact absurd hmem List.not_mem_nil
  next =>
    rcases begins_ask.mp hrest with rfl | ⟨price, rest', rfl, hrest'⟩
    · exact absurd hmem List.not_mem_nil
    have hmem' := mem_of_storeless hmem trivial
    simp only [Program.bind] at hrest'
    split at hrest'
    next =>
      obtain rfl := begins_done.mp hrest'
      exact absurd hmem' List.not_mem_nil
    next =>
      rcases begins_ask.mp hrest' with rfl | ⟨keeper, rest'', rfl, hrest''⟩
      · exact absurd hmem' List.not_mem_nil
      have hmem'' := mem_of_storeless hmem' trivial
      simp only [Program.bind] at hrest''
      split at hrest''
      next =>
        obtain rfl := begins_done.mp hrest''
        exact absurd hmem'' List.not_mem_nil
      next => exact (readyCached_begins hrest'' hmem'').mono fun e he => by simp [he]

theorem ready_runs (h : Runs (ready decode ops settings) tr r) : Reason settings tr r := by
  obtain ⟨empty, rest, rfl, hrest⟩ := runs_ask.mp h
  simp only [Program.bind] at hrest
  split at hrest
  next hempty =>
    obtain ⟨rfl, rfl⟩ := runs_done.mp hrest
    exact .noPrices (hempty ▸ List.mem_cons_self)
  next hempty =>
    obtain ⟨⟨cycle, now⟩, rest', rfl, hrest'⟩ := runs_ask.mp hrest
    simp only [Program.bind] at hrest'
    split at hrest'
    next hstale =>
      obtain ⟨rfl, rfl⟩ := runs_done.mp hrest'
      exact .priceLoopStale (by simp) hstale
    next hprice =>
      obtain ⟨⟨cycle', now'⟩, rest'', rfl, hrest''⟩ := runs_ask.mp hrest'
      simp only [Program.bind] at hrest''
      split at hrest''
      next hstale =>
        obtain ⟨rfl, rfl⟩ := runs_done.mp hrest''
        exact .keeperLoopStale (by simp) hstale
      next hkeeper =>
        have hgates : Passes settings (⟨.pricesEmpty, empty⟩ :: ⟨.readCycle, (cycle, now)⟩ ::
            ⟨.readCycle, (cycle', now')⟩ :: rest'') := by
          refine ⟨?_, ⟨cycle, now, by simp, by simpa using hprice⟩,
            cycle', now', by simp, by simpa using hkeeper⟩
          rw [Bool.eq_false_iff.mpr hempty]
          exact List.mem_cons_self
        rcases readyCached_runs hrest'' with ⟨e, hmem, rfl⟩ | ⟨cache, hrecent, rfl⟩
        · exact .checked hgates (by simp [hmem])
        · obtain ⟨last, now, hlast, hlooks, hlt⟩ := hrecent
          exact .cached hgates ⟨last, now, hlast,
            ((hlooks.cons _).cons _).cons _, hlt⟩

end Endpoint

end So4Oracle.ReadyRuns
