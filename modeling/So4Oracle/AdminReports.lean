import So4Oracle.Admin
import So4Oracle.Library.Recent
import So4Oracle.RustText
import So4Oracle.StatusSnapshot

namespace So4Oracle.AdminReports

open Library.Recent State Admin StatusSnapshot

section Handlers

structure FailedSubmissionsQuery where
  operation : Option String
  limit : Option Nat

structure FailuresResponse where
  failures : List FailedSubmission
  totalCount : Nat

/-- The total is that of the failures selected, before the limit cuts them. -/
def failedSubmissions (query : FailedSubmissionsQuery) (allFailures : RingBuffer FailedSubmission) :
    FailuresResponse :=
  let filtered := match query.operation with
    | some op => allFailures.items.reverse.filter fun f : FailedSubmission =>
        RustText.startsWith f.operation op
    | none => allFailures.items.reverse
  let limit := min (query.limit.getD 100) 256
  ⟨filtered.take limit, filtered.length⟩

/-- The failures that a query asks for. -/
def FailedSubmissionsQuery.selects (query : FailedSubmissionsQuery) (f : FailedSubmission) : Bool :=
  query.operation.all (RustText.startsWith f.operation)

theorem failedSubmissions_eq (query : FailedSubmissionsQuery)
    (allFailures : RingBuffer FailedSubmission) :
    failedSubmissions query allFailures =
      ⟨(allFailures.items.reverse.filter query.selects).take (min (query.limit.getD 100) 256),
        (allFailures.items.reverse.filter query.selects).length⟩ := by
  obtain ⟨operation, limit⟩ := query
  cases operation with
  | none =>
      have hall : allFailures.items.reverse.filter (FailedSubmissionsQuery.selects ⟨none, limit⟩) =
          allFailures.items.reverse := List.filter_eq_self.mpr fun _ _ => rfl
      rw [hall]
      rfl
  | some op => rfl

/-- The recent errors of the oracle's status. -/
def recentErrors (allFailures : RingBuffer FailedSubmission) : List FailedSubmission :=
  allFailures.items.reverse.take 20

structure BlacklistedKey where
  key : String
  consecutiveFailures : Nat

structure KeeperStatusResponse where
  pendingOrders : Nat
  pendingDeposits : Nat
  pendingWithdrawals : Nat
  lastCycleAt : Option Nat
  lastCycleLatencyMs : Option Nat
  lastExecutions : List KeeperExecution
  blacklistedKeys : List BlacklistedKey

def keeperStatus (status : KeeperStatus) (cycle : CycleStatus) (blacklist : KeyMap Nat) :
    KeeperStatusResponse where
  pendingOrders := status.pendingOrders
  pendingDeposits := status.pendingDeposits
  pendingWithdrawals := status.pendingWithdrawals
  lastCycleAt := cycle.lastKeeperCycleAt.map secondsOf
  lastCycleLatencyMs := cycle.lastKeeperCycleLatencyMs
  lastExecutions := status.lastExecutions.reverse.take 50
  blacklistedKeys := blacklist.toList.map fun entry => ⟨entry.1, entry.2⟩

end Handlers

section History

/-- What some task did to the shared state under one lock. -/
inductive TaskOp
  | loop (op : StateOp)
  | admin (op : AdminOp)

def TaskOp.run (app : AppState) (clock : Nat) : TaskOp → AppState
  | loop op => (op.run clock app).2
  | admin op => (op.run app).2

abbrev History := List (Nat × TaskOp)

def History.state (history : History) : AppState :=
  history.foldl (fun app entry => entry.2.run app entry.1) .new

def reported : Nat × TaskOp → Option FailedSubmission
  | (clock, .loop (.recordError report)) => some (report.submission clock)
  | _ => none

def executed : Nat × TaskOp → Option KeeperExecution
  | (clock, .loop (.recordExecution operation key txHash success error)) =>
      some ⟨clock, operation, key, txHash, success, error⟩
  | _ => none

/-- The newest first. -/
def latest {α : Type} (report : Nat × TaskOp → Option α) (history : History) : List α :=
  (history.filterMap report).reverse

end History

section Ring

variable {α : Type} {n : Nat} {buffer : RingBuffer α}

theorem push_capacity (item : α) : (buffer.push item).capacity = buffer.capacity := by
  rw [RingBuffer.push]
  split <;> rfl

theorem push_items (hn : 0 < buffer.capacity) (item : α) :
    (buffer.push item).items = (buffer.items ++ [item]).rtake buffer.capacity := by
  rw [RingBuffer.push, dif_neg hn.ne', List.rtake, List.length_append, List.length_singleton,
    List.drop_append_of_le_length (by omega)]

end Ring

section Kept

variable (app : AppState) (clock : Nat)

theorem run_failures (op : TaskOp) : (op.run app clock).failures =
    (reported (clock, op)).elim app.failures app.failures.push := by
  cases op with
  | loop op =>
      cases op with
      | countFailure counter | clearFailures counter => cases counter <;> rfl
      | _ => rfl
  | admin op =>
      cases op with
      | removeBlacklisted => rfl
      | clearFailures counter => cases counter <;> rfl

theorem run_lastExecutions (op : TaskOp) : (op.run app clock).keeperStatus.lastExecutions =
    (executed (clock, op)).elim app.keeperStatus.lastExecutions
      fun execution => (app.keeperStatus.recorded execution).lastExecutions := by
  cases op with
  | loop op =>
      cases op with
      | countFailure counter | clearFailures counter => cases counter <;> rfl
      | _ => rfl
  | admin op =>
      cases op with
      | removeBlacklisted => rfl
      | clearFailures counter => cases counter <;> rfl

theorem keeps_failures : Keeps failureRingCapacity
    (fun app : AppState => app.failures.capacity = failureRingCapacity)
    (fun app entry => entry.2.run app entry.1) (fun app => app.failures.items) reported where
  invariant app entry h := by
    rw [run_failures]
    cases reported (entry.1, entry.2) with
    | none => exact h
    | some failure => exact (push_capacity failure).trans h
  recorded app entry h := by
    rw [run_failures]
    cases hreport : reported entry with
    | none =>
        have hbounded := app.failures.bounded
        rw [h] at hbounded
        rw [Option.elim_none, Option.toList_none, List.append_nil, rtake_of_length_le hbounded]
    | some failure =>
        rw [Option.elim_some, Option.toList_some, push_items (h ▸ by decide), h]

theorem recorded_lastExecutions {status : KeeperStatus} (execution : KeeperExecution)
    (h : status.lastExecutions.length ≤ maxLastExecutions) :
    (status.recorded execution).lastExecutions =
      (status.lastExecutions ++ [execution]).rtake maxLastExecutions := by
  have hlength : (status.lastExecutions ++ [execution]).length =
      status.lastExecutions.length + 1 := List.length_append
  dsimp only [KeeperStatus.recorded]
  split
  next hfull =>
    have hdrop : (status.lastExecutions ++ [execution]).length - maxLastExecutions = 1 := by omega
    rw [List.rtake, hdrop, List.drop_one]
  next hroom => exact (rtake_of_length_le (not_lt.mp hroom)).symm

theorem keeps_executions : Keeps maxLastExecutions
    (fun app : AppState => app.keeperStatus.lastExecutions.length ≤ maxLastExecutions)
    (fun app entry => entry.2.run app entry.1) (fun app => app.keeperStatus.lastExecutions)
    executed := by
  have hitems : ∀ (app : AppState) (entry : Nat × TaskOp),
      app.keeperStatus.lastExecutions.length ≤ maxLastExecutions →
        (entry.2.run app entry.1).keeperStatus.lastExecutions =
          (app.keeperStatus.lastExecutions ++ (executed entry).toList).rtake maxLastExecutions := by
    intro app entry h
    rw [run_lastExecutions]
    cases executed entry with
    | none => rw [Option.elim_none, Option.toList_none, List.append_nil, rtake_of_length_le h]
    | some execution => exact recorded_lastExecutions execution h
  refine ⟨fun app entry h => ?_, hitems⟩
  rw [hitems app entry h]
  exact length_rtake_le _

end Kept

section Blacklist

/-- What an operation makes of the key's place in the blacklist, if anything. -/
def barring (key : String) : Nat × TaskOp → Option (Option Nat)
  | (_, .loop (.blacklist other failures)) => if other = key then some (some failures) else none
  | (_, .admin (.removeBlacklisted other)) => if other = key then some none else none
  | _ => none

/-- What the last operation on the key has left. -/
def barred (history : History) (key : String) : Option Nat :=
  (history.reverse.findSome? (barring key)).join

theorem run_blacklist (app : AppState) (clock : Nat) (op : TaskOp) (key : String) :
    (op.run app clock).frozenOrderBlacklist[key]? =
      (barring key (clock, op)).getD app.frozenOrderBlacklist[key]? := by
  cases op with
  | loop op =>
      cases op with
      | blacklist other failures =>
          by_cases h : other = key
          · subst h
            simp [TaskOp.run, StateOp.run, barring]
          · simp [TaskOp.run, StateOp.run, barring, h, getElem?_insert_of_ne _ (Ne.symm h)]
      | countFailure counter | clearFailures counter => cases counter <;> rfl
      | _ => rfl
  | admin op =>
      cases op with
      | removeBlacklisted other =>
          by_cases h : other = key
          · subst h
            simp [TaskOp.run, AdminOp.run, barring]
          · simp [TaskOp.run, AdminOp.run, barring, h, Std.TreeMap.getElem?_erase]
      | clearFailures counter => cases counter <;> rfl

theorem state_blacklist (history : History) (key : String) :
    history.state.frozenOrderBlacklist[key]? = barred history key := by
  induction history using List.reverseRecOn with
  | nil => exact Std.TreeMap.getElem?_emptyc
  | append_singleton history entry ih =>
      rw [History.state, List.foldl_concat, ← History.state, run_blacklist, ih, barred, barred,
        List.reverse_concat, List.findSome?_cons]
      cases barring key entry <;> rfl

end Blacklist

section Main

variable (history : History)

theorem state_failures :
    history.state.failures.items.reverse = (latest reported history).take failureRingCapacity := by
  have hkept := (keeps_failures.foldl (s := .new) rfl (Nat.zero_le _) history).2
  rw [← History.state] at hkept
  rw [hkept, List.rtake_eq_reverse_take_reverse, List.reverse_reverse]
  rfl

theorem state_executions : history.state.keeperStatus.lastExecutions.reverse =
    (latest executed history).take maxLastExecutions := by
  have hkept := (keeps_executions.foldl (s := .new) (Nat.zero_le _) (Nat.zero_le _) history).2
  rw [← History.state] at hkept
  rw [hkept, List.rtake_eq_reverse_take_reverse, List.reverse_reverse]
  rfl

/-- Whatever the tasks have done to the state and in whatever order, the
administrator is shown the newest of what was recorded, newest first, and the
keys that are barred now. -/
theorem reports_latest (query : FailedSubmissionsQuery) (cycle : CycleStatus) :
    ((failedSubmissions query history.state.failures).failures =
        (((latest reported history).take 256).filter query.selects).take
          (min (query.limit.getD 100) 256) ∧
      (failedSubmissions query history.state.failures).totalCount =
        (((latest reported history).take 256).filter query.selects).length) ∧
      recentErrors history.state.failures = (latest reported history).take 20 ∧
      (keeperStatus history.state.keeperStatus cycle
        history.state.frozenOrderBlacklist).lastExecutions = (latest executed history).take 50 ∧
      ∀ key failures, ⟨key, failures⟩ ∈ (keeperStatus history.state.keeperStatus cycle
          history.state.frozenOrderBlacklist).blacklistedKeys ↔
        barred history key = some failures := by
  refine ⟨?_, ?_, ?_, ?_⟩
  · rw [failedSubmissions_eq, state_failures]
    exact ⟨rfl, rfl⟩
  · rw [recentErrors, state_failures, List.take_take]
    rfl
  · rw [keeperStatus, state_executions, List.take_take]
    rfl
  · intro key failures
    rw [← state_blacklist, keeperStatus]
    simp [Std.TreeMap.mem_toList_iff_getElem?_eq_some]

end Main

end So4Oracle.AdminReports
