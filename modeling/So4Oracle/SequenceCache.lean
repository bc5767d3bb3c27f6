import So4Oracle.KeeperRequests
import So4Oracle.KeeperScript

namespace So4Oracle.SequenceCache

open Library.Checked Library.Requests Library.Safety Wire Config State Chain StellarRpc Submit
  SubmitOutcome Handler Keeper KeeperRuns KeeperRequests

variable (crates : Crates) (settings : Settings) (sign : Transaction → Except String String)

def AcceptedTx (s : Sent) : Prop := ∃ tr r, s.outcome = some (tr, r) ∧ Accepted crates tr

/-- No accepted transaction carries this number or a later one. -/
def Unused (sequence : Nat) (sent : List Sent) : Prop :=
  ∀ s ∈ sent, AcceptedTx crates s → s.tx.seqNum < sequence

/-- The node refuses the sequence number in the last reply to a send or in a
reply to a poll. -/
def RefusesSequence (tr : RpcTrace) : Prop :=
  (∃ d e, (deliveries tr).getLast? = some d ∧ sendOutcome crates (rpcPost d.reply) = .error e ∧
    isBadSequence crates e = true) ∨
    ∃ reply ∈ pollReplies tr, ∃ e, pollAnswer crates reply = .fatal e ∧ isBadSequence crates e = true

/-- An acceptance is followed by a reported outcome, tracked to the last poll,
or answered by a refusal of the sequence number. -/
def Resolves (tr : RpcTrace) : Prop :=
  Undecided crates tr → Tracked crates tr ∨ RefusesSequence crates tr

def nextUnused : (q : KeeperRequest) → World → q.Answer → World → Prop
  | .accountSequence, w, r, _ => ∀ sequence, r = .ok sequence → Unused crates sequence w.sent
  | _, _, _, _ => True

def resolving : (q : KeeperRequest) → World → q.Answer → World → Prop
  | .settle _, _, _, v => ∀ s rest tr r, v.sent = s :: rest → s.outcome = some (tr, r) →
      Resolves crates tr
  | _, _, _, _ => True

/-- The network hands out the next unused sequence number. -/
def sequenced : Surroundings KeeperRequest KeeperRequest.Answer World :=
  (keeper crates settings).restrict (nextUnused crates) (fun _ _ => True)

def resolved : Surroundings KeeperRequest KeeperRequest.Answer World :=
  (sequenced crates settings).restrict (resolving crates) (fun _ _ => True)

/-- The execute_handler calls of one cycle, which starts without a cached
sequence number. What happens between two calls sends nothing. -/
inductive CallRun (S : Surroundings KeeperRequest KeeperRequest.Answer World) (w : World) :
    Option Nat → World → Prop
  | start : CallRun S w none w
  | interfere {cache v u} (hr : CallRun S w cache v) (h : S.interfere v u) : CallRun S w cache u
  | between {cache v u} (hr : CallRun S w cache v) (hsent : u.sent = v.sent)
      (hphase : u.phase = v.phase) : CallRun S w cache u
  | call {cache v u} (contractId method key : String) {outcome : HandlerOutcome}
      (hr : CallRun S w cache v)
      (h : Finishes S (executeHandler crates settings sign contractId method key cache) v outcome u) :
      CallRun S w outcome.2 u

/-- While a transaction is awaited, it is signed with an unused number. -/
def SignsUnused (w : World) : Prop :=
  w.phase = .awaiting → ∀ s rest, w.sent = s :: rest →
    ∃ sequence, s.tx.seqNum = asI64 sequence ∧ Unused crates sequence rest

structure CacheUnused (cache : Option Nat) (w : World) : Prop where
  settled : w.phase = .idle
  unused : ∀ sequence, cache = some sequence → Unused crates sequence w.sent

variable {crates settings sign}

section Traces

theorem refused_isBadSequence {signedXdr : String} {tr : RpcTrace} {r : Except SubmitError Nat}
    (h : Runs (submitAndPoll crates signedXdr) tr r) (href : RefusesSequence crates tr) :
    ∃ e, r = .error e ∧ isBadSequence crates e = true := by
  rcases href with ⟨d, e, hlast, he, hbad⟩ | ⟨reply, hreply, e, ha, hbad⟩
  · exact ⟨e, submitAndPoll_unsent h hlast he, hbad⟩
  · obtain ⟨hash, rfl⟩ := submitAndPoll_final h hreply (by simp [ha])
    rw [ha]
    exact ⟨e, rfl, hbad⟩

theorem sequenceAfter_eq_some {sequence next : Nat} {r : Except SubmitError Nat}
    (h : sequenceAfter crates sequence r = .ok (some next)) :
    next = sequence + 1 ∨
      next = sequence ∧ ∃ e, r = .error e ∧ isBadSequence crates e = false ∧
        e.mayStillConfirm = false ∧ ∀ events, e ≠ .transactionFailed events := by
  have hnext : ∀ o, some <$> nextSequence sequence = .ok o → o = some (sequence + 1) := by
    intro o ho
    obtain ⟨n, hn, rfl⟩ := map_eq_ok.mp ho
    rw [← (ite_eq_ok.mp hn).1]
  cases r with
  | ok ledger => exact .inl (Option.some.inj (hnext _ h))
  | error e =>
      unfold sequenceAfter at h
      dsimp only at h
      split at h
      next => cases h
      next hbad =>
        have hsame : isBadSequence crates e = false := Bool.eq_false_of_not_eq_true hbad
        cases e with
        | transactionFailed events => exact .inl (Option.some.inj (hnext _ h))
        | pollTimeout hash => cases h
        | rpc e' | jsonError msg | rejected status xdr | retryable msg =>
            cases h
            exact .inr ⟨rfl, _, rfl, hsame, rfl, fun events he => by cases he⟩

/-- A number that stays cached was not accepted by the node. -/
theorem not_accepted_of_kept {signedXdr : String} {tr : RpcTrace} {e : SubmitError}
    (h : Runs (submitAndPoll crates signedXdr) tr (.error e)) (hres : Resolves crates tr)
    (hbad : isBadSequence crates e = false) (hconfirm : e.mayStillConfirm = false)
    (hfailed : ∀ events, e ≠ .transactionFailed events) : ¬Accepted crates tr := by
  intro hacc
  by_cases hundecided : ∀ reply ∈ pollReplies tr, ¬ReportsOutcome crates reply
  · rcases hres ⟨hacc, hundecided⟩ with htracked | href
    · obtain ⟨e', he, hconfirm'⟩ := (submitAndPoll_undecided h hundecided).mpr htracked
      cases he
      rw [hconfirm] at hconfirm'
      cases hconfirm'
    · obtain ⟨e', he, hbad'⟩ := refused_isBadSequence h href
      cases he
      rw [hbad] at hbad'
      cases hbad'
  · simp only [not_forall, not_not] at hundecided
    obtain ⟨reply, hreply, ho⟩ := hundecided
    rcases submitAndPoll_reported h hreply ho with ⟨ledger, hr⟩ | ⟨events, hr⟩
    · cases hr
    · exact hfailed events (Except.error.inj hr)

end Traces

section Stability

theorem Unused.land {sequence : Nat} {newer older : List Sent} {s : Sent}
    (h : Unused crates sequence (newer ++ s :: older)) :
    Unused crates sequence (newer ++ { s with landed := true } :: older) := by
  intro t ht hacc
  rcases List.mem_append.mp ht with ht | ht
  · exact h t (List.mem_append_left _ ht) hacc
  · rcases List.mem_cons.mp ht with rfl | ht
    · exact h s (by simp) hacc
    · exact h t (by simp [ht]) hacc

theorem Unused.interference {sequence : Nat} {w v : World} (h : Unused crates sequence w.sent)
    (hi : Interference w v) : Unused crates sequence v.sent := by
  cases hi with
  | tick | shared => exact h
  | land newer s older hsent hl =>
      rw [hsent] at h
      exact h.land

theorem Unused.mono {sequence next : Nat} {sent : List Sent} (h : Unused crates sequence sent)
    (hle : sequence ≤ next) : Unused crates next sent := by
  intro s hs hacc
  exact lt_of_lt_of_le (h s hs hacc) (Int.ofNat_le.mpr hle)

theorem resolved_interference {w v : World} (h : (resolved crates settings).interfere w v) :
    Interference w v := h.1.1

theorem cacheUnused_stable (cache : Option Nat) :
    (resolved crates settings).Stable (CacheUnused crates cache) := by
  intro w v h hi
  have hi' : Interference w v := resolved_interference hi
  exact ⟨(interference_phase hi').trans h.settled,
    fun sequence hs => (h.unused sequence hs).interference hi'⟩

theorem CacheUnused.signsUnused {cache : Option Nat} {w : World} (h : CacheUnused crates cache w) :
    SignsUnused crates w := by
  intro hphase
  rw [h.settled] at hphase
  cases hphase

variable (crates) in
/-- The awaited transaction of a handler call. -/
structure Signed (sequence : Nat) (w : World) : Prop where
  awaiting : w.phase = .awaiting
  newest : ∃ s rest, w.sent = s :: rest ∧ s.outcome = none ∧ Work.isSetPrices s.work = false ∧
    s.tx.seqNum = asI64 sequence ∧ Unused crates sequence rest

theorem signed_stable (sequence : Nat) :
    (resolved crates settings).Stable (Signed crates sequence) := by
  intro w v h hi
  have hi' : Interference w v := resolved_interference hi
  refine ⟨(interference_phase hi').trans h.awaiting, ?_⟩
  obtain ⟨s, rest, hsent, ho, hwork, hseq, hunused⟩ := h.newest
  cases hi' with
  | tick | shared => exact ⟨s, rest, hsent, ho, hwork, hseq, hunused⟩
  | land newer t older hland hl =>
      rw [hsent] at hland
      cases newer with
      | nil =>
          obtain ⟨rfl, rfl⟩ := List.cons.inj hland
          exact ⟨_, _, rfl, ho, hwork, hseq, hunused⟩
      | cons first newer =>
          obtain ⟨rfl, rfl⟩ := List.cons.inj hland
          exact ⟨_, _, rfl, ho, hwork, hseq, hunused.land⟩

theorem Signed.signsUnused {sequence : Nat} {w : World} (h : Signed crates sequence w) :
    SignsUnused crates w := by
  intro hphase s rest hsent
  obtain ⟨t, rest', hsent', ho, hwork, hseq, hunused⟩ := h.newest
  rw [hsent] at hsent'
  obtain ⟨rfl, rfl⟩ := List.cons.inj hsent'
  exact ⟨sequence, hseq, hunused⟩

end Stability

section Calls

/-- What is cached after a submission lies above every accepted transaction. -/
theorem Signed.settle {sequence : Nat} {w : World} (h : Signed crates sequence w)
    {signedXdr : String} {s : Sent} {rest : List Sent} {tr : RpcTrace}
    {r : Except SubmitError Nat} (hsent : w.sent = s :: rest)
    (hrun : Runs (submitAndPoll crates signedXdr) tr r) (hres : Resolves crates tr)
    {cache : Option Nat} (hcache : sequenceAfter crates sequence r = .ok cache) :
    CacheUnused crates cache (w.settle s rest tr r) := by
  obtain ⟨t, rest', hsent', ho, hwork, hseq, hunused⟩ := h.newest
  rw [hsent] at hsent'
  obtain ⟨rfl, rfl⟩ := List.cons.inj hsent'
  constructor
  · show reportedPhase s.work r = .idle
    cases r with
    | ok ledger => simp [reportedPhase, hwork]
    | error e => rfl
  · rintro next rfl u hu ⟨tr', r', houtcome, hacc⟩
    rcases sequenceAfter_eq_some hcache with rfl | ⟨rfl, e, rfl, hbad, hconfirm, hfailed⟩
    · rcases List.mem_cons.mp hu with rfl | hu
      · have hle : asI64 sequence ≤ sequence := asI64_le sequence
        show s.tx.seqNum < _
        rw [hseq]
        push_cast
        omega
      · exact hunused.mono (Nat.le_succ _) u hu ⟨tr', r', houtcome, hacc⟩
    · rcases List.mem_cons.mp hu with rfl | hu
      · cases houtcome
        exact absurd hacc (not_accepted_of_kept hrun hres hbad hconfirm hfailed)
      · exact hunused u hu ⟨tr', r', houtcome, hacc⟩

theorem submitHandler_safe {contractId method key : String} {keyArg : ScVal} {sequence : Nat}
    {w : World} (h : CacheUnused crates (some sequence) w) :
    Safe (resolved crates settings) (SignsUnused crates)
      (submitHandler crates settings sign contractId method key keyArg sequence)
      (fun out v => CacheUnused crates out.2 v) w := by
  refine Safe.request_bind (cacheUnused_stable _) (fun v hv => hv.signsUnused) h ?_
  rintro v now u hv ⟨⟨⟨-, rfl, rfl⟩, -⟩, -⟩
  cases htx : handlerTx crates settings sign contractId method keyArg sequence
      (secondsOf u.clock) with
  | error e => exact ⟨hv.signsUnused, hv⟩
  | ok signed =>
      refine Safe.bind ?_
      refine Safe.request_bind (cacheUnused_stable _) (fun v hv => hv.signsUnused) hv ?_
      rintro x ⟨⟩ y hx ⟨⟨⟨-, rfl⟩, -⟩, -⟩
      have hsigned : Signed crates sequence
          (x.send (.handler method key) signed.1) :=
        ⟨rfl, _, _, rfl, rfl, rfl, (handlerTx_ok htx).1, hx.unused sequence rfl⟩
      refine Safe.ask (signed_stable sequence) (fun v hv => hv.signsUnused) hsigned ?_
      rintro z r z' hz ⟨⟨⟨-, s, rest, tr, hsent, hrun, -, rfl⟩, -⟩, hres⟩
      have hresolves : Resolves crates tr := hres _ rest tr r rfl rfl
      have hidle : SignsUnused crates (z.settle s rest tr r) := by
        intro hphase
        obtain ⟨t, rest', hsent', -, hwork, -⟩ := hz.newest
        rw [hsent] at hsent'
        obtain ⟨rfl, rfl⟩ := List.cons.inj hsent'
        have hreported : reportedPhase s.work r = .awaiting := hphase
        cases r with
        | ok ledger => simp [reportedPhase, hwork] at hreported
        | error e => cases hreported
      refine ⟨hidle, Safe.bind (orAbort_safe hidle (fun cache hcache => ⟨hidle, ?_⟩))⟩
      exact hz.settle hsent hrun hresolves hcache

theorem executeHandler_safe {contractId method key : String} {cache : Option Nat} {w : World}
    (h : CacheUnused crates cache w) :
    Safe (resolved crates settings) (SignsUnused crates)
      (executeHandler crates settings sign contractId method key cache)
      (fun out v => CacheUnused crates out.2 v) w := by
  rw [executeHandler]
  cases keyScval crates key with
  | error e => exact ⟨h.signsUnused, h⟩
  | ok keyArg =>
      cases cache with
      | some sequence => exact submitHandler_safe h
      | none =>
          refine Safe.request_bind (cacheUnused_stable _) (fun v hv => hv.signsUnused) h ?_
          rintro v r u hv ⟨⟨⟨-, -, rfl⟩, hnext⟩, -⟩
          cases r with
          | error e => exact ⟨hv.signsUnused, hv⟩
          | ok sequence =>
              apply submitHandler_safe
              refine ⟨hv.settled, fun s hs => ?_⟩
              cases hs
              exact hnext sequence rfl

theorem callRun_cacheUnused {w v : World} {cache : Option Nat} (hw : w.phase = .idle)
    (h : CallRun crates settings sign (resolved crates settings) w cache v) :
    CacheUnused crates cache v := by
  induction h with
  | start => exact ⟨hw, fun sequence hs => by cases hs⟩
  | interfere _ hi ih => exact cacheUnused_stable _ _ _ ih hi
  | between _ hsent hphase ih =>
      refine ⟨hphase.trans ih.settled, fun sequence hs => ?_⟩
      rw [hsent]
      exact ih.unused sequence hs
  | call _ _ _ _ hf ih => exact (executeHandler_safe ih).finishes hf

end Calls

section Cycle

variable {S : Surroundings KeeperRequest KeeperRequest.Answer World}

theorem CallRun.interferes {w v u : World} {cache : Option Nat}
    (hr : CallRun crates settings sign S w cache v) (h : S.Interferes v u) :
    CallRun crates settings sign S w cache u := by
  induction h with
  | refl => exact hr
  | tail _ h ih => exact .interfere ih h

variable (crates settings sign S) in
/-- From a call run that has this number cached, the program leads to one that
has the number cached which its result says. -/
def Threads {α : Type} (p : KeeperProgram α) (cache : Option Nat) (after : α → Option Nat) : Prop :=
  ∀ w v a u, CallRun crates settings sign S w cache v → Finishes S p v a u →
    CallRun crates settings sign S w (after a) u

theorem Threads.bind {α β : Type} {p : KeeperProgram α} {f : α → KeeperProgram β}
    {cache : Option Nat} {middle : α → Option Nat} {after : β → Option Nat}
    (hp : Threads crates settings sign S p cache middle)
    (hf : ∀ a, Threads crates settings sign S (f a) (middle a) after) :
    Threads crates settings sign S (p >>= f) cache after := by
  intro w v b u hr h
  obtain ⟨a, x, hpa, hfa⟩ := finishes_bind.mp h
  exact hf a w x b u (hp w v a x hr hpa) hfa

theorem threads_done {α : Type} {a : α} {cache : Option Nat} {after : α → Option Nat}
    (h : after a = cache) : Threads crates settings sign S (.done a) cache after := by
  intro w v b u hr hf
  obtain ⟨rfl, rfl⟩ := finishes_done.mp hf
  rw [h]
  exact hr

variable (hS : ∀ q w r v, S.answer q w r v → (keeper crates settings).answer q w r v)

include hS in
theorem threads_plain {α : Type} {p : KeeperProgram α} (hp : p.Asks Plain) (cache : Option Nat) :
    Threads crates settings sign S p cache (fun _ => cache) := by
  intro w v a u hr hf
  induction hf with
  | done => exact hr
  | answer hi ha _ ih =>
      obtain ⟨hsent, hphase⟩ := plain_answer hp.1 (hS _ _ _ _ ha)
      exact ih (hp.2 _) (.between (hr.interferes hi) hsent hphase)

theorem threads_executeHandler {contractId method key : String} {cache : Option Nat} :
    Threads crates settings sign S
      (executeHandler crates settings sign contractId method key cache) cache Prod.snd :=
  fun _ _ _ _ hr hf => .call _ _ _ hr hf

variable {executor : Executor} {key : String}

include hS

theorem threads_locked {α : Type} {op : StateOp} (hop : Plain (.state op))
    {f : op.Answer → KeeperProgram α} {cache : Option Nat} {after : α → Option Nat}
    (hf : ∀ r, Threads crates settings sign S (f r) cache after) :
    Threads crates settings sign S (locked op >>= f) cache after :=
  (threads_plain hS (p := locked op) ⟨hop, fun _ => trivial⟩ cache).bind hf

theorem threads_bookkeeping {α β : Type} {p : KeeperProgram α} (hp : p.Asks Bookkeeping)
    {f : α → KeeperProgram β} {cache : Option Nat} {after : β → Option Nat}
    (hf : ∀ a, Threads crates settings sign S (f a) cache after) :
    Threads crates settings sign S (p >>= f) cache after :=
  (threads_plain hS (hp.mono plain_of_bookkeeping) cache).bind hf

theorem threads_freezeOnBudget {error : HandlerError} {cache : Option Nat} :
    Threads crates settings sign S (freezeOnBudget crates settings sign executor key error cache)
      cache Prod.snd := by
  rw [freezeOnBudget]
  split
  · refine threads_executeHandler.bind (fun frozen => ?_)
    obtain ⟨frozen, cache'⟩ := frozen
    cases frozen with
    | ok txHash =>
        exact threads_locked hS (by trivial) (fun _ => threads_locked hS (by trivial) (fun _ =>
          threads_done rfl))
    | error e => exact threads_bookkeeping hS (freezeFailed_asks e) (fun _ => threads_done rfl)
  · exact threads_done rfl

theorem threads_abandon {consecutive : Nat} {cache : Option Nat} :
    Threads crates settings sign S
      (abandon crates settings sign executor key consecutive cache) cache id := by
  refine threads_executeHandler.bind (fun frozen => ?_)
  obtain ⟨frozen, cache'⟩ := frozen
  have hrest : Threads crates settings sign S
      (do locked (.blacklist key consecutive)
          locked (.clearFailures .executionFailures key)
          pure cache') cache' id :=
    threads_locked hS (by trivial) (fun _ => threads_locked hS (by trivial) (fun _ => threads_done rfl))
  cases frozen with
  | ok txHash => exact hrest
  | error e => exact threads_locked hS (by trivial) (fun _ => hrest)

theorem threads_abandonAfterFailures {cache : Option Nat} :
    Threads crates settings sign S
      (abandonAfterFailures crates settings sign executor key cache) cache id := by
  refine threads_bookkeeping hS (countFailure_asks _) (fun consecutive => ?_)
  split
  · exact threads_done rfl
  · refine threads_locked hS (by trivial) (fun blacklisted => ?_)
    cases blacklisted with
    | true => exact threads_done rfl
    | false => exact threads_abandon hS

theorem threads_executionOutcome {outcome : HandlerOutcome} {tally : Tally} :
    Threads crates settings sign S
      (executionOutcome crates settings sign executor key outcome tally) outcome.2
      Tally.sequenceCache := by
  obtain ⟨result, cache⟩ := outcome
  cases result with
  | ok txHash =>
      refine threads_locked hS (by trivial) (fun _ => ?_)
      split
      · exact threads_locked hS (by trivial) (fun _ => threads_locked hS (by trivial) (fun _ =>
          threads_locked hS (by trivial) (fun _ => threads_done rfl)))
      · exact threads_locked hS (by trivial) (fun _ =>
          threads_locked hS (by trivial) (fun _ => threads_done rfl))
  | error e =>
      show Threads _ _ _ _ (if e.mayStillConfirm = true then _ else _) _ _
      split
      · exact threads_bookkeeping hS (recordFailedExecution_asks _ _ _) (fun _ => threads_done rfl)
      · refine threads_locked hS (by trivial) (fun _ => ?_)
        split
        · exact threads_done rfl
        · refine (threads_freezeOnBudget hS).bind (fun frozen => ?_)
          refine (threads_abandonAfterFailures hS).bind (fun cache' => ?_)
          exact threads_bookkeeping hS (recordFailedExecution_asks _ _ _) (fun _ => threads_done rfl)

theorem threads_executeKey {tally : Tally} :
    Threads crates settings sign S (executeKey crates settings sign executor key tally)
      tally.sequenceCache Tally.sequenceCache := by
  refine threads_locked hS (by trivial) (fun blacklisted => ?_)
  cases blacklisted with
  | true => exact threads_done rfl
  | false =>
      refine threads_locked hS (by trivial) (fun admitted => ?_)
      cases admitted with
      | true => exact threads_executeHandler.bind (fun _ => threads_executionOutcome hS)
      | false => exact threads_done rfl

theorem threads_executeKeys (keys : List String) {tally : Tally} :
    Threads crates settings sign S (executeKeys crates settings sign executor keys tally)
      tally.sequenceCache Tally.sequenceCache := by
  induction keys generalizing tally with
  | nil => exact threads_done rfl
  | cons key keys ih => exact (threads_executeKey hS).bind (fun _ => ih)

theorem threads_executeFresh {pending : Pending} {kind : PendingKeys.Kind} {tally : Tally} :
    Threads crates settings sign S
      (executeFresh crates settings sign pending executor kind tally)
      tally.sequenceCache Tally.sequenceCache := by
  rw [executeFresh]
  split
  · exact threads_done rfl
  · exact threads_executeKeys hS _

/-- The execution loops of a cycle are a run of calls from an empty cache. -/
theorem executePending_callRun {pending : Pending} {w v : World} {summary : CycleSummary}
    (h : Finishes S (executePending crates settings sign pending) w summary v) :
    ∃ cache, CallRun crates settings sign S w cache v := by
  obtain ⟨orders, x, horders, h⟩ := finishes_bind.mp h
  obtain ⟨deposits, y, hdeposits, h⟩ := finishes_bind.mp h
  obtain ⟨withdrawals, z, hwithdrawals, h⟩ := finishes_bind.mp h
  obtain ⟨rfl, rfl⟩ := finishes_done.mp h
  have hx : CallRun crates settings sign S w orders.sequenceCache x :=
    threads_executeFresh hS w w orders x .start horders
  have hy : CallRun crates settings sign S w deposits.sequenceCache y := by
    refine threads_executeFresh hS w x deposits y ?_ hdeposits
    exact hx
  refine ⟨withdrawals.sequenceCache, threads_executeFresh hS w y withdrawals v ?_ hwithdrawals⟩
  exact hy

end Cycle

/-- A cached number is above every accepted transaction, and so is the number
that any further call signs with. -/
theorem executeHandler_cache_unused {w v : World} {cache : Option Nat} (hw : w.phase = .idle)
    (h : CallRun crates settings sign (resolved crates settings) w cache v) :
    (∀ sequence, cache = some sequence → Unused crates sequence v.sent) ∧
      ∀ contractId method key u,
        Visits (resolved crates settings)
          (executeHandler crates settings sign contractId method key cache) v u →
        SignsUnused crates u := by
  have hcache : CacheUnused crates cache v := callRun_cacheUnused hw h
  refine ⟨hcache.unused, fun contractId method key u hu => ?_⟩
  refine (executeHandler_safe hcache).visits ?_ hu
  intro x y hx hi hphase s rest hsent
  have hi' : Interference x y := resolved_interference hi
  rw [interference_phase hi'] at hphase
  cases hi' with
  | tick | shared => exact hx hphase s rest hsent
  | land newer t older hland hl =>
      cases newer with
      | nil =>
          obtain ⟨rfl, rfl⟩ := List.cons.inj hsent
          exact hx hphase t _ hland
      | cons first newer =>
          obtain ⟨rfl, rfl⟩ := List.cons.inj hsent
          obtain ⟨sequence, hseq, hunused⟩ := hx hphase _ _ hland
          exact ⟨sequence, hseq, hunused.land⟩

open KeeperScript

section Samples

def orderTx : Transaction :=
  ⟨[], 100, 7, some ⟨0, 1070⟩, .contract [], "execute_order", [.address (.account []), .bytes [0xaa]]⟩

def sentOrder (landed : Bool) : Sent :=
  ⟨.handler "execute_order" "aa", orderTx, 1010 * nanosPerSecond, landed, none⟩

def orderSent : World := (startWorld 100).enter.send (.handler "execute_order" "aa") orderTx

def orderLanded : World :=
  { orderSent with
    sent := [sentOrder true]
    onChain := land orderSent.onChain (.handler "execute_order" "aa") }

/-- The execution was confirmed on ledger 9. -/
def confirmedOrder : World := orderLanded.settle (sentOrder true) [] (confirmedTrace "AAAA") (.ok 9)

/-- The node answered PENDING, then HTTP 404 to the first poll. -/
def strandedOrder : World :=
  orderSent.settle (sentOrder false) [] strandedTrace (.error (.rpc (.httpError 404 "")))

theorem confirmedTrace_resolves : Resolves nodeCrates (confirmedTrace "AAAA") := by
  rintro ⟨-, hnone⟩
  refine absurd ?_ (hnone (.http 200 successBody) (by simp [pollReplies, pollReply?, confirmedTrace]))
  exact ⟨successBody, _, rfl, rfl, .inl rfl⟩

theorem confirmedOrder_finishes :
    Finishes (resolved nodeCrates keeperSettings)
      (executeHandler nodeCrates keeperSettings sampleSign "CORDERHANDLER" "execute_order" "aa" none)
      (startWorld 100).enter (.ok (confirmed 9), some 8) confirmedOrder := by
  have hland : (resolved nodeCrates keeperSettings).Interferes orderSent orderLanded :=
    .single ⟨⟨.land orderSent [] (sentOrder false) [] rfl rfl, trivial⟩, trivial⟩
  refine .answer (r := .ok 7) .refl
    ⟨⟨⟨by decide, accountSequence_seven, rfl⟩, fun _ _ s hs => by cases hs⟩, trivial⟩ ?_
  refine .answer .refl ⟨⟨⟨by decide, rfl, rfl⟩, trivial⟩, trivial⟩ ?_
  refine .answer (r := ()) .refl ⟨⟨⟨by decide, rfl⟩, trivial⟩, trivial⟩ ?_
  refine .answer hland ⟨⟨⟨by decide, _, _, _, rfl, confirmedTrace_runs "AAAA", fun _ _ => rfl, rfl⟩,
    trivial⟩, ?_⟩ (.done _ _)
  rintro s rest tr r hsent ho
  cases hsent
  cases ho
  exact confirmedTrace_resolves

theorem strandedOrder_finishes :
    Finishes (sequenced nodeCrates keeperSettings)
      (executeHandler nodeCrates keeperSettings sampleSign "CORDERHANDLER" "execute_order" "aa" none)
      (startWorld 100).enter
      (.error (.submitted nodeCrates "execute_order" (.rpc (.httpError 404 ""))), some 7)
      strandedOrder := by
  refine .answer (r := .ok 7) .refl
    ⟨⟨by decide, accountSequence_seven, rfl⟩, fun _ _ s hs => by cases hs⟩ ?_
  refine .answer .refl ⟨⟨by decide, rfl, rfl⟩, trivial⟩ ?_
  refine .answer (r := ()) .refl ⟨⟨by decide, rfl⟩, trivial⟩ ?_
  exact .answer .refl ⟨⟨by decide, _, _, _, rfl, strandedTrace_runs, (fun _ h => by cases h), rfl⟩,
    trivial⟩ (.done _ _)

theorem acceptedTx_of_pending {s : Sent} {r : Except SubmitError Nat} {signedXdr : String}
    {rest : RpcTrace}
    (h : s.outcome = some (⟨.sendTransaction signedXdr, ⟨true, .http 200 pendingBody⟩⟩ :: rest, r)) :
    AcceptedTx nodeCrates s :=
  ⟨_, _, h, _, List.mem_cons_self, .inl rfl⟩

end Samples

theorem executeHandler_cache_unused_confirmedOrder :
    AcceptedTx nodeCrates { sentOrder true with outcome := some (confirmedTrace "AAAA", .ok 9) } ∧
      Unused nodeCrates 8 confirmedOrder.sent :=
  ⟨acceptedTx_of_pending rfl,
    (executeHandler_cache_unused rfl (.call _ _ _ .start confirmedOrder_finishes)).1 8 rfl⟩

theorem executeHandler_caches_accepted_sequence :
    CallRun nodeCrates keeperSettings sampleSign (sequenced nodeCrates keeperSettings)
        (startWorld 100).enter (some 7) strandedOrder ∧
      ¬Unused nodeCrates 7 strandedOrder.sent := by
  refine ⟨.call _ _ _ .start strandedOrder_finishes, fun hunused => ?_⟩
  have hlt := hunused _ List.mem_cons_self (acceptedTx_of_pending rfl)
  exact absurd hlt (by decide)

end So4Oracle.SequenceCache
