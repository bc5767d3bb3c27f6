import So4Oracle.KeeperRequests
import So4Oracle.Library.Records
import So4Oracle.Library.Threads

namespace So4Oracle.StatusSnapshot

open Library.Checked Library.Requests Library.Safety Library.Protocol Library.Records Library.Threads
  Wire Config State Chain Submit Handler Keeper KeeperRuns

section Cycle

def keeperCycleTimeoutSecs : Nat := 50

/-- What run_keeper_cycle does, and the requests of the cycle that it runs
under a timeout. -/
inductive CycleRequest
  | bumpGeneration
  | startRunning
  | within (q : KeeperRequest)
  | elapsedMillis
  | finishTiming (latencyMs : Nat)
  | recordKeeperCycle (latencyMs : Nat) (summary : CycleSummary)
  | recordError (report : FailureReport)
  | recordSubmitFailure

/-- The timeout can come instead of an answer. -/
@[reducible] def CycleRequest.Answer : CycleRequest → Type
  | within q => Option q.Answer
  | elapsedMillis => Nat
  | _ => Unit

abbrev CycleProgram (α : Type) := Program CycleRequest CycleRequest.Answer α

def cycleAsk (q : CycleRequest) : CycleProgram q.Answer := Program.request q

/-- On a timeout the program is dropped where it waits. -/
def limited {α : Type} : KeeperProgram α → CycleProgram (Option α)
  | .done a => pure (some a)
  | .ask q next => .ask (.within q) fun
      | none => pure none
      | some r => limited (next r)

def exceededBudget : String :=
  "keeper cycle exceeded " ++ toString keeperCycleTimeoutSecs ++ "s budget"

variable (crates : Crates) (settings : Settings) (sign : Transaction → Except String String)

def reportCycle (latencyMs : Nat) : Except String CycleSummary → CycleProgram Unit
  | .ok summary => cycleAsk (.recordKeeperCycle latencyMs summary)
  | .error error => do
      cycleAsk (.recordError ⟨"keeper_cycle", settings.network, "", "", none, error, 0⟩)
      cycleAsk .recordSubmitFailure

def runKeeperCycle : CycleProgram (Except String CycleSummary) := do
  cycleAsk .bumpGeneration
  cycleAsk .startRunning
  let finished ← limited (executeKeeperCycle crates settings sign)
  let result := finished.getD (.error exceededBudget)
  let latencyMs ← cycleAsk .elapsedMillis
  cycleAsk (.finishTiming latencyMs)
  reportCycle settings latencyMs result
  cycleAsk .bumpGeneration
  pure result

end Cycle

section World

structure CycleStatus where
  priceCycleRunning : Bool
  keeperCycleRunning : Bool
  lastPriceCycleAt : Option Nat
  lastKeeperCycleAt : Option Nat
  lastKeeperCycleLatencyMs : Option Nat
  deriving DecidableEq, Repr

/-- The two statuses and the generation, as the number of its bumps. Beside them
stand which cycles have written their pending counts, and which one the timing
is from. -/
structure Statuses where
  clock : Nat
  app : AppState
  cycleStatus : CycleStatus
  bumps : Nat
  counted : List Nat
  timedBy : Option Nat

/-- The counter wraps around. -/
def Statuses.generation (s : Statuses) : Nat := s.bumps % 2 ^ 64

/-- How far a cycle is: its pending counts may be written while it is open. -/
inductive Progress
  | waiting
  | opened
  | counted
  | timed
  | closed
  deriving DecidableEq, Repr

def progressAfter : Progress → (q : CycleRequest) → q.Answer → Progress
  | .waiting, .bumpGeneration, _ => .opened
  | .timed, .bumpGeneration, _ => .closed
  | .opened, .within (.state (.setPending _ _ _)), some _ => .counted
  | .opened, .finishTiming _, _ | .counted, .finishTiming _, _ => .timed
  | m, _, _ => m

def Statuses.writeCounts (s : Statuses) (id : Nat) : KeeperRequest → Statuses
  | .state (.setPending _ _ _) => { s with counted := id :: s.counted }
  | _ => s

def Statuses.writeState (s : Statuses) (op : StateOp) : Statuses :=
  { s with app := (op.run s.clock s.app).2 }

/-- The answer to a request of execute_keeper_cycle: nothing but the operations
on the shared state concerns the statuses. -/
def answersWithin (id : Nat) : (q : KeeperRequest) → Statuses → q.Answer → Statuses → Prop
  | .state op, s, r, s' =>
      r = (op.run s.clock s.app).1 ∧ s' = (s.writeState op).writeCounts id (.state op)
  | .abort _, _, _, _ => False
  | _, s, _, s' => s' = s

def Statuses.timing (s : Statuses) (id latencyMs : Nat) : Statuses :=
  { s with
    cycleStatus := { s.cycleStatus with
      keeperCycleRunning := false
      lastKeeperCycleAt := some s.clock
      lastKeeperCycleLatencyMs := some latencyMs }
    timedBy := some id }

def answersCycle (id : Nat) : (q : CycleRequest) → Statuses → q.Answer → Statuses → Prop
  | .bumpGeneration, s, _, s' => s' = { s with bumps := s.bumps + 1 }
  | .startRunning, s, _, s' =>
      s' = { s with cycleStatus := { s.cycleStatus with keeperCycleRunning := true } }
  | .within q, s, answer, s' =>
      answer = none ∧ s' = s ∨ ∃ r, answer = some r ∧ answersWithin id q s r s'
  | .finishTiming latencyMs, s, _, s' => s' = s.timing id latencyMs
  | .recordError report, s, _, s' => s' = s.writeState (.recordError report)
  | .elapsedMillis, s, _, s' | .recordKeeperCycle _ _, s, _, s' | .recordSubmitFailure, s, _, s' =>
      s' = s

def cycles : Semantics CycleRequest CycleRequest.Answer Progress Statuses :=
  ⟨answersCycle, progressAfter⟩

abbrev CycleWorld :=
  Config CycleRequest CycleRequest.Answer Progress Statuses (Except String CycleSummary)

/-- Time passes, a cycle moves on, and other tasks write what is not the keeper's. -/
inductive Surrounds : CycleWorld → CycleWorld → Prop
  | cycle {w v : CycleWorld} (h : Advances cycles w v) : Surrounds w v
  | tick (w : CycleWorld) (nanos : Nat) :
      Surrounds w { w with shared := { w.shared with clock := w.shared.clock + nanos } }
  | others (w : CycleWorld) (app : AppState) (running : Bool) (lastPriceCycleAt : Option Nat)
      (h : app.keeperStatus = w.shared.app.keeperStatus) :
      Surrounds w { w with shared := { w.shared with
        app := app
        cycleStatus := { w.shared.cycleStatus with
          priceCycleRunning := running, lastPriceCycleAt := lastPriceCycleAt } } }

/-- Any number of cycles, none of which has begun. -/
structure Initial (crates : Crates) (settings : Settings) (sign : Transaction → Except String String)
    (w : CycleWorld) : Prop where
  threads : ∀ id, w.threads id = .at .waiting (runKeeperCycle crates settings sign)
  counted : w.shared.counted = []
  timedBy : w.shared.timedBy = none

end World

section Reader

inductive SnapshotRequest
  | loadGeneration
  | readKeeperStatus
  | readCycleStatus

/-- A status together with where it stands among the writes of the cycles. -/
structure KeeperRead where
  status : KeeperStatus
  counted : List Nat

structure CycleRead where
  status : CycleStatus
  counted : List Nat
  timedBy : Option Nat

@[reducible] def SnapshotRequest.Answer : SnapshotRequest → Type
  | loadGeneration => Nat
  | readKeeperStatus => KeeperRead
  | readCycleStatus => CycleRead

abbrev SnapshotProgram (α : Type) := Program SnapshotRequest SnapshotRequest.Answer α

/-- A pair from the retry loop is settled, one from the fallback is not. -/
structure Snapshot where
  keeper : KeeperRead
  cycle : CycleRead
  settled : Bool

def snapshotAttempts : Nat := 8

def readPair (settled : Bool) : SnapshotProgram Snapshot := do
  let keeper ← Program.request SnapshotRequest.readKeeperStatus
  let cycle ← Program.request SnapshotRequest.readCycleStatus
  pure ⟨keeper, cycle, settled⟩

def attemptSnapshot : Nat → SnapshotProgram Snapshot
  | 0 => readPair false
  | attempts + 1 => do
      let generation ← Program.request SnapshotRequest.loadGeneration
      let pair ← readPair true
      let again ← Program.request SnapshotRequest.loadGeneration
      if again = generation then pure pair else attemptSnapshot attempts

def keeperStatusSnapshot : SnapshotProgram Snapshot := attemptSnapshot snapshotAttempts

def answersSnapshot : (q : SnapshotRequest) → CycleWorld → q.Answer → CycleWorld → Prop
  | .loadGeneration, w, r, v => r = w.shared.generation ∧ v = w
  | .readKeeperStatus, w, r, v => r = ⟨w.shared.app.keeperStatus, w.shared.counted⟩ ∧ v = w
  | .readCycleStatus, w, r, v =>
      r = ⟨w.shared.cycleStatus, w.shared.counted, w.shared.timedBy⟩ ∧ v = w

def reader : Surroundings SnapshotRequest SnapshotRequest.Answer CycleWorld where
  answer := answersSnapshot
  interfere := Surrounds

/-- The timing is that of a cycle, the pending counts are from before it wrote its own. -/
def Snapshot.Torn (snapshot : Snapshot) : Prop :=
  ∃ id, snapshot.cycle.timedBy = some id ∧ id ∈ snapshot.cycle.counted ∧
    id ∉ snapshot.keeper.counted

end Reader

end So4Oracle.StatusSnapshot
