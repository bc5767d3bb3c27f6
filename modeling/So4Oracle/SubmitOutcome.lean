import So4Oracle.Submit

namespace So4Oracle.SubmitOutcome

open Library.Requests Wire StellarRpc Submit

def delivery? : Event RpcRequest RpcRequest.Answer → Option Delivery
  | ⟨.sendTransaction _, d⟩ => some d
  | _ => none

def pollReply? : Event RpcRequest RpcRequest.Answer → Option Reply
  | ⟨.getTransaction _, reply⟩ => some reply
  | _ => none

def deliveries (tr : RpcTrace) : List Delivery := tr.filterMap delivery?

def pollReplies (tr : RpcTrace) : List Reply := tr.filterMap pollReply?

variable (crates : Crates)

def Acknowledges (reply : Reply) : Prop :=
  ∃ body result, reply = .http 200 body ∧ parseSendResponse crates body = .ok result ∧
    (result.status = "PENDING" ∨ result.status = "DUPLICATE")

def ReportsOutcome (reply : Reply) : Prop :=
  ∃ body result, reply = .http 200 body ∧ parseGetTransactionResponse crates body = .ok result ∧
    (result.status = "SUCCESS" ∨ result.status = "FAILED")

/-- A reply that is neither an outcome nor worth another attempt: a client
error status, or a body that does not parse to a result. -/
def EndsPoll : Reply → Prop
  | .failed _ => False
  | .http status body =>
      (status ≠ 200 ∧ status < 500 ∧ status ≠ 429) ∨
        (status = 200 ∧ ∃ e, parseGetTransactionResponse crates body = .error e)

def Accepted (tr : RpcTrace) : Prop :=
  ∃ d ∈ deliveries tr, d.accepted = true ∨ Acknowledges crates d.reply

def Undecided (tr : RpcTrace) : Prop :=
  Accepted crates tr ∧ ∀ reply ∈ pollReplies tr, ¬ReportsOutcome crates reply

/-- The node's acceptance reached the client and every poll could be retried. -/
def Tracked (tr : RpcTrace) : Prop :=
  (∃ d, (deliveries tr).getLast? = some d ∧ Acknowledges crates d.reply) ∧
    ∀ reply ∈ pollReplies tr, ¬EndsPoll crates reply

def ReportedUndecided (r : Except SubmitError Nat) : Prop :=
  ∃ e, r = .error e ∧ e.mayStillConfirm = true

variable {crates}

theorem sendOutcome_ok {reply : Reply} :
    (∃ hash, sendOutcome crates (rpcPost reply) = .ok hash) ↔ Acknowledges crates reply := by
  constructor
  · rintro ⟨hash, h⟩
    cases hp : rpcPost reply with
    | error e => simp [sendOutcome, hp] at h
    | ok body =>
        cases hs : parseSendResponse crates body with
        | error e => simp [sendOutcome, hp, hs] at h
        | ok result =>
            refine ⟨body, result, rpcPost_ok.mp hp, hs, ?_⟩
            by_contra hn
            rw [not_or] at hn
            simp only [sendOutcome, hp, hs, hn.1, hn.2, if_false] at h
            split at h <;> cases h
  · rintro ⟨body, result, rfl, hs, hstatus⟩
    refine ⟨result.hash, ?_⟩
    rcases hstatus with hstatus | hstatus <;> simp [sendOutcome, hs, hstatus]

theorem sendOutcome_error {posted : Except RpcError String} {e : SubmitError}
    (h : sendOutcome crates posted = .error e) : e.mayStillConfirm = false := by
  cases posted with
  | error e' =>
      cases h
      rfl
  | ok body =>
      cases hs : parseSendResponse crates body with
      | error e' =>
          simp only [sendOutcome, hs] at h
          cases h
          exact parseResponse_not_mayStillConfirm hs
      | ok result =>
          simp only [sendOutcome, hs] at h
          split at h
          next => cases h
          next =>
            split at h
            next => cases h
            next => split at h <;> cases h <;> rfl

theorem pollAnswer_confirmed {reply : Reply} {ledger : Nat}
    (h : pollAnswer crates reply = .confirmed ledger) : ReportsOutcome crates reply := by
  cases hp : rpcPost reply with
  | error e =>
      simp only [pollAnswer, hp] at h
      split at h <;> cases h
  | ok body =>
      cases hg : parseGetTransactionResponse crates body with
      | error e => simp [pollAnswer, hp, hg] at h
      | ok result =>
          simp only [pollAnswer, hp, hg] at h
          by_cases hs : result.status = "SUCCESS"
          · exact ⟨body, result, rpcPost_ok.mp hp, hg, .inl hs⟩
          · rw [if_neg hs] at h
            split at h <;> cases h

theorem pollAnswer_failed {reply : Reply} {events : List String}
    (h : pollAnswer crates reply = .failed events) : ReportsOutcome crates reply := by
  cases hp : rpcPost reply with
  | error e =>
      simp only [pollAnswer, hp] at h
      split at h <;> cases h
  | ok body =>
      cases hg : parseGetTransactionResponse crates body with
      | error e => simp [pollAnswer, hp, hg] at h
      | ok result =>
          simp only [pollAnswer, hp, hg] at h
          split at h
          next => cases h
          next =>
            by_cases hf : result.status = "FAILED"
            · exact ⟨body, result, rpcPost_ok.mp hp, hg, .inr hf⟩
            · rw [if_neg hf] at h
              cases h

theorem pollAnswer_fatal {reply : Reply} :
    (∃ e, pollAnswer crates reply = .fatal e) ↔ EndsPoll crates reply := by
  cases reply with
  | failed msg => simp [pollAnswer, RpcError.isRetryable, EndsPoll]
  | http status body =>
      by_cases hs : status = 200
      · subst hs
        cases hg : parseGetTransactionResponse crates body with
        | error e => simp [pollAnswer, EndsPoll, hg]
        | ok result =>
            simp only [pollAnswer, rpcPost_200, EndsPoll, hg]
            split_ifs <;> simp
      · by_cases h : 500 ≤ status ∨ status = 429
        · simp [pollAnswer, rpcPost_status body hs, RpcError.isRetryable, EndsPoll, h, hs]
          omega
        · simp [pollAnswer, rpcPost_status body hs, RpcError.isRetryable, EndsPoll, h, hs]
          omega

theorem pollAnswer_fatal_not_mayStillConfirm {reply : Reply} {e : SubmitError}
    (h : pollAnswer crates reply = .fatal e) : e.mayStillConfirm = false := by
  cases hp : rpcPost reply with
  | error e' =>
      simp only [pollAnswer, hp] at h
      split at h <;> cases h
      rfl
  | ok body =>
      cases hg : parseGetTransactionResponse crates body with
      | error e' =>
          simp only [pollAnswer, hp, hg] at h
          cases h
          exact parseResponse_not_mayStillConfirm hg
      | ok result =>
          simp only [pollAnswer, hp, hg] at h
          split_ifs at h

@[simp] theorem deliveries_append (tr rest : RpcTrace) :
    deliveries (tr ++ rest) = deliveries tr ++ deliveries rest := List.filterMap_append

@[simp] theorem pollReplies_append (tr rest : RpcTrace) :
    pollReplies (tr ++ rest) = pollReplies tr ++ pollReplies rest := List.filterMap_append

theorem postTransaction_runs {signedXdr : String} {tr : RpcTrace} {posted : Except RpcError String}
    (h : Runs (postTransaction signedXdr) tr posted) :
    ∃ d : Delivery, tr = [⟨.sendTransaction signedXdr, d⟩] ∧ posted = rpcPost d.reply := by
  obtain ⟨d, rest, rfl, hd⟩ := runs_request_bind.mp h
  obtain ⟨rfl, rfl⟩ := runs_done.mp hd
  exact ⟨d, rfl, rfl⟩

theorem postTransaction_asks (signedXdr : String) :
    (postTransaction signedXdr).Asks (fun q => ∃ t, q = RpcRequest.sendTransaction t) :=
  ⟨⟨signedXdr, rfl⟩, fun _ => trivial⟩

/-- The result is decided by the last reply, whatever the earlier attempts did. -/
theorem sendTransactionXdr_runs {signedXdr : String} {tr : RpcTrace}
    {r : Except SubmitError String} (h : Runs (sendTransactionXdr crates signedXdr) tr r) :
    pollReplies tr = [] ∧
      ∃ d, (deliveries tr).getLast? = some d ∧ r = sendOutcome crates (rpcPost d.reply) := by
  obtain ⟨sent, posted, rest, rfl, hsent, hr⟩ := runs_bind.mp h
  obtain ⟨rfl, rfl⟩ := runs_done.mp hr
  constructor
  · refine List.filterMap_eq_nil_iff.mpr (fun e he => ?_)
    rw [List.append_nil] at he
    obtain ⟨q, a⟩ := e
    obtain ⟨t, ht⟩ := hsent.asks (Retry.retryFrom_asks (postTransaction_asks signedXdr) _) _ he
    cases ht
    rfl
  · obtain ⟨earlier, last, rfl, hlast⟩ := Retry.retryFrom_last hsent
    obtain ⟨d, rfl, rfl⟩ := postTransaction_runs hlast
    exact ⟨d, by simp [deliveries, delivery?], rfl⟩

theorem pollFrom_deliveries {hash : String} {remaining : Nat} {tr : RpcTrace}
    {r : Except SubmitError Nat} (h : Runs (pollFrom crates hash remaining) tr r) :
    deliveries tr = [] := by
  induction remaining generalizing tr with
  | zero =>
      obtain ⟨rfl, -⟩ := runs_done.mp h
      rfl
  | succ remaining ih =>
      obtain ⟨reply, rest, rfl, hp⟩ := runs_request_bind.mp h
      cases ha : pollAnswer crates reply with
      | again =>
          rw [ha] at hp
          show deliveries rest = []
          exact ih hp
      | confirmed ledger | failed events | fatal e =>
          rw [ha] at hp
          obtain ⟨rfl, -⟩ := runs_done.mp hp
          rfl

theorem pollFrom_reportedUndecided {hash : String} {remaining : Nat} {tr : RpcTrace}
    {r : Except SubmitError Nat} (h : Runs (pollFrom crates hash remaining) tr r)
    (hn : ∀ reply ∈ pollReplies tr, ¬ReportsOutcome crates reply) :
    ReportedUndecided r ↔ ∀ reply ∈ pollReplies tr, ¬EndsPoll crates reply := by
  induction remaining generalizing tr with
  | zero =>
      obtain ⟨rfl, rfl⟩ := runs_done.mp h
      simp [ReportedUndecided, SubmitError.mayStillConfirm, pollReplies]
  | succ remaining ih =>
      obtain ⟨reply, rest, rfl, hp⟩ := runs_request_bind.mp h
      obtain ⟨hreply, hrest⟩ := List.forall_mem_cons.mp hn
      have hcons : pollReplies (⟨.getTransaction hash, reply⟩ :: rest) = reply :: pollReplies rest := rfl
      rw [hcons, List.forall_mem_cons]
      cases ha : pollAnswer crates reply with
      | confirmed ledger => exact absurd (pollAnswer_confirmed ha) hreply
      | failed events => exact absurd (pollAnswer_failed ha) hreply
      | again =>
          rw [ha] at hp
          have hends : ¬EndsPoll crates reply := by
            rw [← pollAnswer_fatal, ha]
            simp
          rw [ih hp hrest, and_iff_right hends]
      | fatal e =>
          rw [ha] at hp
          obtain ⟨rfl, rfl⟩ := runs_done.mp hp
          have hends : EndsPoll crates reply := pollAnswer_fatal.mp ⟨e, ha⟩
          simp [ReportedUndecided, pollAnswer_fatal_not_mayStillConfirm ha, hends]

/-- What the answer that ends a poll makes of it. -/
def finalResult (hash : String) : PollAnswer → Except SubmitError Nat
  | .confirmed ledger => .ok ledger
  | .failed events => .error (.transactionFailed events)
  | .again => .error (.pollTimeout hash)
  | .fatal e => .error e

theorem pollFrom_final {hash : String} {remaining : Nat} {tr : RpcTrace}
    {r : Except SubmitError Nat} (h : Runs (pollFrom crates hash remaining) tr r) {reply : Reply}
    (hreply : reply ∈ pollReplies tr) (hfinal : pollAnswer crates reply ≠ .again) :
    r = finalResult hash (pollAnswer crates reply) := by
  induction remaining generalizing tr with
  | zero =>
      obtain ⟨rfl, -⟩ := runs_done.mp h
      cases hreply
  | succ remaining ih =>
      obtain ⟨first, rest, rfl, hp⟩ := runs_request_bind.mp h
      rcases List.mem_cons.mp (show reply ∈ first :: pollReplies rest from hreply) with rfl | hrest
      · cases ha : pollAnswer crates reply with
        | again => exact absurd ha hfinal
        | confirmed ledger | failed events | fatal e =>
            rw [ha] at hp
            exact (runs_done.mp hp).2
      · cases ha : pollAnswer crates first with
        | again =>
            rw [ha] at hp
            exact ih hp hrest
        | confirmed ledger | failed events | fatal e =>
            rw [ha] at hp
            obtain ⟨rfl, -⟩ := runs_done.mp hp
            cases hrest

/-- A poll answer other than another attempt decides the submission. -/
theorem submitAndPoll_final {signedXdr : String} {tr : RpcTrace} {r : Except SubmitError Nat}
    (h : Runs (submitAndPoll crates signedXdr) tr r) {reply : Reply}
    (hreply : reply ∈ pollReplies tr) (hfinal : pollAnswer crates reply ≠ .again) :
    ∃ hash, r = finalResult hash (pollAnswer crates reply) := by
  obtain ⟨sending, sent, polling, rfl, hs, hp⟩ := runs_bind.mp h
  obtain ⟨hpolls, -⟩ := sendTransactionXdr_runs hs
  rw [pollReplies_append, hpolls, List.nil_append] at hreply
  cases sent with
  | error e =>
      obtain ⟨rfl, -⟩ := runs_done.mp hp
      cases hreply
  | ok hash => exact ⟨hash, pollFrom_final hp hreply hfinal⟩

theorem submitAndPoll_unsent {signedXdr : String} {tr : RpcTrace} {r : Except SubmitError Nat}
    (h : Runs (submitAndPoll crates signedXdr) tr r) {d : Delivery} {e : SubmitError}
    (hlast : (deliveries tr).getLast? = some d)
    (he : sendOutcome crates (rpcPost d.reply) = .error e) : r = .error e := by
  obtain ⟨sending, sent, polling, rfl, hs, hp⟩ := runs_bind.mp h
  obtain ⟨-, d', hlast', rfl⟩ := sendTransactionXdr_runs hs
  cases hd : sendOutcome crates (rpcPost d'.reply) with
  | error e' =>
      rw [hd] at hp
      obtain ⟨rfl, rfl⟩ := runs_done.mp hp
      rw [List.append_nil] at hlast
      obtain rfl : d' = d := Option.some.inj (hlast'.symm.trans hlast)
      exact congrArg Except.error (Except.error.inj (hd.symm.trans he))
  | ok hash =>
      rw [hd] at hp
      rw [deliveries_append, pollFrom_deliveries hp, List.append_nil] at hlast
      obtain rfl : d' = d := Option.some.inj (hlast'.symm.trans hlast)
      cases hd.symm.trans he

theorem pollAnswer_of_reportsOutcome {reply : Reply} (h : ReportsOutcome crates reply) :
    (∃ ledger, pollAnswer crates reply = .confirmed ledger) ∨
      ∃ events, pollAnswer crates reply = .failed events := by
  obtain ⟨body, result, rfl, hparse, hstatus⟩ := h
  rcases hstatus with hstatus | hstatus
  · exact .inl ⟨result.ledger.getD 0, by simp [pollAnswer, hparse, hstatus]⟩
  · exact .inr ⟨result.diagnosticEventsXdr.getD [], by simp [pollAnswer, hparse, hstatus]⟩

theorem submitAndPoll_reported {signedXdr : String} {tr : RpcTrace} {r : Except SubmitError Nat}
    (h : Runs (submitAndPoll crates signedXdr) tr r) {reply : Reply}
    (hreply : reply ∈ pollReplies tr) (ho : ReportsOutcome crates reply) :
    (∃ ledger, r = .ok ledger) ∨ ∃ events, r = .error (.transactionFailed events) := by
  rcases pollAnswer_of_reportsOutcome ho with ⟨ledger, ha⟩ | ⟨events, ha⟩
  · obtain ⟨hash, rfl⟩ := submitAndPoll_final h hreply (by simp [ha])
    exact .inl ⟨ledger, by rw [ha]; rfl⟩
  · obtain ⟨hash, rfl⟩ := submitAndPoll_final h hreply (by simp [ha])
    exact .inr ⟨events, by rw [ha]; rfl⟩

/-- With an acceptance on the way and no outcome reported, the error says so
exactly when the last send was acknowledged and no poll reply was fatal. -/
theorem submitAndPoll_undecided {signedXdr : String} {tr : RpcTrace}
    {r : Except SubmitError Nat} (h : Runs (submitAndPoll crates signedXdr) tr r)
    (hn : ∀ reply ∈ pollReplies tr, ¬ReportsOutcome crates reply) :
    ReportedUndecided r ↔ Tracked crates tr := by
  obtain ⟨sending, sent, polling, rfl, hs, hp⟩ := runs_bind.mp h
  obtain ⟨hpolls, d, hlast, rfl⟩ := sendTransactionXdr_runs hs
  cases hd : sendOutcome crates (rpcPost d.reply) with
  | error e =>
      rw [hd] at hp
      obtain ⟨rfl, rfl⟩ := runs_done.mp hp
      have hack : ¬Acknowledges crates d.reply := by
        rw [← sendOutcome_ok, hd]
        simp
      simp [ReportedUndecided, Tracked, sendOutcome_error hd, hlast, hack]
  | ok hash =>
      rw [hd] at hp
      have hack : Acknowledges crates d.reply := sendOutcome_ok.mp ⟨hash, hd⟩
      have hnone : deliveries polling = [] := pollFrom_deliveries hp
      rw [pollReplies_append, hpolls, List.nil_append] at hn
      rw [pollFrom_reportedUndecided hp hn]
      simp [Tracked, hpolls, hnone, hlast, hack]

theorem submitAndPoll_reports_undecided_iff_tracked {signedXdr : String} {tr : RpcTrace}
    {r : Except SubmitError Nat} (h : Runs (submitAndPoll crates signedXdr) tr r) :
    (Undecided crates tr → ReportedUndecided r) ↔ (Undecided crates tr → Tracked crates tr) :=
  forall_congr' (fun hu => submitAndPoll_undecided h hu.2)

section Samples

def pendingBody : String := "\x7b\"result\":\x7b\"status\":\"PENDING\",\"hash\":\"c0de\"\x7d\x7d"

def duplicateBody : String := "\x7b\"result\":\x7b\"status\":\"DUPLICATE\",\"hash\":\"c0de\"\x7d\x7d"

def sampleCrates : Crates where
  json _ := .error "expected value at line 1 column 1"
  jsonText _ := ""
  tokenConfigs _ := .error "expected value at line 1 column 1"
  sendResponse body :=
    if body = pendingBody then .ok ⟨some ⟨"PENDING", "c0de", none⟩, none⟩
    else if body = duplicateBody then .ok ⟨some ⟨"DUPLICATE", "c0de", none⟩, none⟩
    else .error "expected value at line 1 column 1"
  getTransactionResponse _ := .error "expected value at line 1 column 1"
  ledgerEntriesResponse _ := .error "expected value at line 1 column 1"
  ledgerEntryData _ := .error "xdr value invalid"
  transactionResult _ := none
  strkey _ := .error "the strkey is invalid"
  strkeyDebug _ := ""
  publicKey _ := .error "the strkey is invalid"
  hexDecode _ := .error "odd number of digits"
  base64Decode _ := none
  escapesAsUnicode _ := false
  toLowercase := RustText.toAsciiLowercase

theorem acknowledges_duplicateBody : Acknowledges sampleCrates (.http 200 duplicateBody) :=
  ⟨duplicateBody, _, rfl, rfl, .inr rfl⟩

/-- The node answers the send with PENDING and the first poll with 404. -/
def strandedTrace : RpcTrace :=
  [⟨.sendTransaction "AAAA", ⟨true, .http 200 pendingBody⟩⟩, ⟨.getTransaction "c0de", .http 404 ""⟩]

/-- The first acceptance is lost, the retry is a duplicate, every poll fails with 503. -/
def resentTrace : RpcTrace :=
  [⟨.sendTransaction "AAAA", ⟨true, .failed "operation timed out"⟩⟩,
    ⟨.sendTransaction "AAAA", ⟨false, .http 200 duplicateBody⟩⟩] ++
    List.replicate maxPollAttempts ⟨.getTransaction "c0de", .http 503 ""⟩

end Samples

theorem submitAndPoll_stranded :
    Runs (submitAndPoll sampleCrates "AAAA") strandedTrace (.error (.rpc (.httpError 404 ""))) ∧
      Undecided sampleCrates strandedTrace ∧
      ¬ReportedUndecided (.error (.rpc (.httpError 404 ""))) := by
  refine ⟨.ask _ _ (.ask _ _ (.done _)), ⟨⟨_, List.mem_cons_self, .inl rfl⟩, ?_⟩, ?_⟩
  · intro reply hreply
    obtain rfl : reply = .http 404 "" := List.mem_singleton.mp hreply
    rintro ⟨body, result, hbody, -⟩
    cases hbody
  · rintro ⟨e, he, hconfirm⟩
    cases he
    cases hconfirm

theorem submitAndPoll_reports_resent :
    Runs (submitAndPoll sampleCrates "AAAA") resentTrace (.error (.pollTimeout "c0de")) ∧
      Undecided sampleCrates resentTrace ∧ ReportedUndecided (.error (.pollTimeout "c0de")) := by
  have hreplies : ∀ reply ∈ pollReplies resentTrace, reply = .http 503 "" := by
    intro reply hreply
    have hmem : reply ∈ List.replicate maxPollAttempts (Reply.http 503 "") := hreply
    exact List.eq_of_mem_replicate hmem
  have hrun : Runs (submitAndPoll sampleCrates "AAAA") resentTrace (.error (.pollTimeout "c0de")) :=
    .ask _ _ (.ask _ _ (.ask _ _ (.ask _ _ (.ask _ _ (.ask _ _ (.ask _ _ (.ask _ _ (.done _))))))))
  have hundecided : Undecided sampleCrates resentTrace := by
    refine ⟨⟨_, List.mem_cons_self, .inl rfl⟩, fun reply hreply => ?_⟩
    rw [hreplies reply hreply]
    rintro ⟨body, result, hbody, -⟩
    cases hbody
  have htracked : Tracked sampleCrates resentTrace := by
    refine ⟨⟨_, rfl, acknowledges_duplicateBody⟩, fun reply hreply => ?_⟩
    rw [hreplies reply hreply]
    simp [EndsPoll]
  exact ⟨hrun, hundecided,
    (submitAndPoll_reports_undecided_iff_tracked hrun).mpr (fun _ => htracked) hundecided⟩

end So4Oracle.SubmitOutcome
