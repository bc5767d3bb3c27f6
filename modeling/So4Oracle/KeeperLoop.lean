import So4Oracle.KeeperGates
import So4Oracle.StatusSnapshot

namespace So4Oracle.KeeperLoop

open Library.Requests Library.Records Wire Config Chain Submit Handler Keeper KeeperGates StatusSnapshot

def idleBackoffMultiplier : Nat := 4

/-- What a pass of run_keeper_loop waits for. -/
inductive LoopRequest
  | tick
  | idleBackoff (millis : Nat)
  | within (q : CycleRequest)

/-- The shutdown can come instead of an answer. -/
@[reducible] def LoopRequest.Answer : LoopRequest → Type
  | tick | idleBackoff _ => Option Unit
  | within q => Option q.Answer

abbrev LoopProgram (α : Type) := Program LoopRequest LoopRequest.Answer α

abbrev CycleTrace := List (Event CycleRequest CycleRequest.Answer)

abbrev LoopTrace := List (Event LoopRequest LoopRequest.Answer)

def loopAsk (q : LoopRequest) : LoopProgram q.Answer := Program.request q

section Pass

/-- On a shutdown the cycle is dropped where it waits. -/
def raced {α : Type} : CycleProgram α → LoopProgram (Option α)
  | .done a => pure (some a)
  | .ask q next => .ask (.within q) fun
      | none => pure none
      | some r => raced (next r)

def isIdle : Except String CycleSummary → Bool
  | .ok s => s.ordersExecuted == 0 && s.depositsExecuted == 0 && s.withdrawalsExecuted == 0
  | .error _ => false

variable (keeperLoopInterval : Nat)

def backOff (wasIdle : Bool) : LoopProgram (Option Unit) :=
  if wasIdle then loopAsk (.idleBackoff (keeperLoopInterval * idleBackoffMultiplier))
  else pure (some ())

variable (crates : Crates) (settings : Settings) (sign : Transaction → Except String String)

def loopCycle : LoopProgram (Option Bool) := do
  let cycleResult ← raced (runKeeperCycle crates settings sign)
  pure (cycleResult.map isIdle)

/-- One pass of the loop: whether its cycle was idle, or nothing on a shutdown. -/
def loopPass (wasIdle : Bool) : LoopProgram (Option Bool) := do
  match ← loopAsk .tick with
  | none => pure none
  | some () =>
      match ← backOff keeperLoopInterval wasIdle with
      | none => pure none
      | some () => loopCycle crates settings sign

/-- The passes of the loop up to some point, the last of which may be under way. -/
inductive RunsLoop : Bool → List LoopTrace → Prop
  | last {wasIdle tr} (h : Begins (loopPass keeperLoopInterval crates settings sign wasIdle) tr) :
      RunsLoop wasIdle [tr]
  | again {wasIdle idle tr rest}
      (h : Runs (loopPass keeperLoopInterval crates settings sign wasIdle) tr (some idle))
      (hrest : RunsLoop idle rest) : RunsLoop wasIdle (tr :: rest)

abbrev RunsKeeperLoop (passes : List LoopTrace) : Prop :=
  RunsLoop keeperLoopInterval crates settings sign false passes

end Pass

section Traces

/-- The requests of execute_keeper_cycle that were answered. -/
def withinCycle : Event CycleRequest CycleRequest.Answer → Option (Event KeeperRequest KeeperRequest.Answer)
  | ⟨.within q, some r⟩ => some ⟨q, r⟩
  | _ => none

def withinLoop : Event LoopRequest LoopRequest.Answer → Option (Event CycleRequest CycleRequest.Answer)
  | ⟨.within q, some r⟩ => some ⟨q, r⟩
  | _ => none

def cycleTrace (tr : LoopTrace) : CycleTrace := tr.filterMap withinLoop

def keeperTrace (tr : CycleTrace) : KeeperTrace := tr.filterMap withinCycle

/-- The timeout that ends a cycle early. -/
def isTimeout : Event CycleRequest CycleRequest.Answer → Bool
  | ⟨.within _, none⟩ => true
  | _ => false

theorem limited_runs {α : Type} {p : KeeperProgram α} {tr : CycleTrace} {a : α}
    (h : Runs (limited p) tr (some a)) :
    Runs p (keeperTrace tr) a ∧ tr.any isTimeout = false := by
  induction p generalizing tr with
  | done b =>
      obtain ⟨rfl, heq⟩ := runs_done.mp h
      cases heq
      exact ⟨.done a, rfl⟩
  | ask q next ih =>
      rw [limited] at h
      obtain ⟨r, rest, rfl, hrest⟩ := runs_ask.mp h
      cases r with
      | none => cases (runs_done.mp hrest).2
      | some r =>
          obtain ⟨hruns, huntimed⟩ := ih r hrest
          exact ⟨.ask q r hruns, huntimed⟩

theorem limited_times_out {α : Type} {p : KeeperProgram α} {tr : CycleTrace}
    (h : Runs (limited p) tr none) : tr.any isTimeout = true := by
  induction p generalizing tr with
  | done a => cases (runs_done.mp h).2
  | ask q next ih =>
      rw [limited] at h
      obtain ⟨r, rest, rfl, hrest⟩ := runs_ask.mp h
      cases r with
      | none => rfl
      | some r =>
          have htail : rest.any isTimeout = true := ih r hrest
          exact htail

theorem raced_runs {α : Type} {p : CycleProgram α} {tr : LoopTrace} {a : α}
    (h : Runs (raced p) tr (some a)) : Runs p (cycleTrace tr) a := by
  induction p generalizing tr with
  | done b =>
      obtain ⟨rfl, heq⟩ := runs_done.mp h
      cases heq
      exact .done a
  | ask q next ih =>
      rw [raced] at h
      obtain ⟨r, rest, rfl, hrest⟩ := runs_ask.mp h
      cases r with
      | none => cases (runs_done.mp hrest).2
      | some r => exact .ask q r (ih r hrest)

/-- Requests outside execute_keeper_cycle. -/
def Outside : CycleRequest → Prop
  | .within _ => False
  | _ => True

theorem outside_trace {tr : CycleTrace} (h : ∀ e ∈ tr, Outside e.request) :
    keeperTrace tr = [] ∧ tr.any isTimeout = false := by
  have hevent : ∀ e : Event CycleRequest CycleRequest.Answer, Outside e.request →
      withinCycle e = none ∧ isTimeout e = false := by
    rintro ⟨q, r⟩ hq
    cases q with
    | within k => exact absurd hq id
    | _ => exact ⟨rfl, rfl⟩
  constructor
  · exact List.filterMap_eq_nil_iff.mpr fun e he => (hevent e (h e he)).1
  · exact List.any_eq_false.mpr fun e he => Bool.eq_false_iff.mp (hevent e (h e he)).2

variable {keeperLoopInterval : Nat} {crates : Crates} {settings : Settings}
  {sign : Transaction → Except String String}

theorem reportCycle_asks (latencyMs : Nat) (result : Except String CycleSummary) :
    (reportCycle settings latencyMs result).Asks Outside := by
  cases result with
  | ok summary => exact ⟨trivial, fun _ => trivial⟩
  | error e => exact ⟨trivial, fun _ => ⟨trivial, fun _ => trivial⟩⟩

/-- The result of a cycle is that of execute_keeper_cycle unless the timeout came first. -/
theorem runKeeperCycle_runs {tr : CycleTrace} {result : Except String CycleSummary}
    (h : Runs (runKeeperCycle crates settings sign) tr result) :
    Runs (executeKeeperCycle crates settings sign) (keeperTrace tr) result ∧
        tr.any isTimeout = false ∨
      result = .error exceededBudget ∧ tr.any isTimeout = true := by
  obtain ⟨bumped, afterBump, rfl, hbumped⟩ := runs_request_bind.mp h
  obtain ⟨started, afterStart, rfl, hstarted⟩ := runs_request_bind.mp hbumped
  obtain ⟨executing, finished, reporting, rfl, hfinished, hlast⟩ := runs_bind.mp hstarted
  have hreporting : ∀ e ∈ reporting, Outside e.request := by
    refine hlast.asks (P := Outside) ⟨trivial, fun latencyMs => ⟨trivial, fun _ => ?_⟩⟩
    exact (reportCycle_asks latencyMs _).bind (fun _ => ⟨trivial, fun _ => trivial⟩)
  obtain ⟨htrace, huntimed⟩ := outside_trace hreporting
  have hresult : result = finished.getD (.error exceededBudget) := by
    obtain ⟨latencyMs, afterLatency, -, hlatency⟩ := runs_request_bind.mp hlast
    obtain ⟨timed, afterTiming, -, htimed⟩ := runs_request_bind.mp hlatency
    obtain ⟨reported, u, afterReport, -, -, hreported⟩ := runs_bind.mp htimed
    obtain ⟨closed, afterClose, -, hdone⟩ := runs_request_bind.mp hreported
    exact (runs_done.mp hdone).2
  have hkeeper : keeperTrace (⟨.bumpGeneration, bumped⟩ :: ⟨.startRunning, started⟩ ::
      (executing ++ reporting)) = keeperTrace executing := by
    show keeperTrace (executing ++ reporting) = keeperTrace executing
    rw [keeperTrace, List.filterMap_append]
    exact (congrArg (keeperTrace executing ++ ·) htrace).trans (List.append_nil _)
  have htimeout : (⟨.bumpGeneration, bumped⟩ :: ⟨.startRunning, started⟩ ::
      (executing ++ reporting)).any isTimeout = executing.any isTimeout := by
    show (executing ++ reporting).any isTimeout = executing.any isTimeout
    rw [List.any_append, huntimed, Bool.or_false]
  rw [hkeeper, htimeout, hresult]
  cases finished with
  | none => exact .inr ⟨rfl, limited_times_out hfinished⟩
  | some r => exact .inl (limited_runs hfinished)

end Traces

section Passes

def isBackoff : Event LoopRequest LoopRequest.Answer → Bool
  | ⟨.idleBackoff _, _⟩ => true
  | _ => false

/-- The tick has come, and what the pass did next has been answered. -/
def goesOn : LoopTrace → Bool
  | ⟨.tick, some ()⟩ :: _ :: _ => true
  | _ => false

/-- Requests of the cycle. -/
def InCycle : LoopRequest → Prop
  | .within _ => True
  | _ => False

variable {keeperLoopInterval : Nat} {crates : Crates} {settings : Settings}
  {sign : Transaction → Except String String} {wasIdle idle : Bool} {tr : LoopTrace}

theorem raced_asks {α : Type} (p : CycleProgram α) : (raced p).Asks InCycle := by
  induction p with
  | done a => trivial
  | ask q next ih =>
      rw [raced]
      refine ⟨trivial, fun r => ?_⟩
      cases r with
      | none => trivial
      | some r => exact ih r

theorem loopCycle_asks : (loopCycle crates settings sign).Asks InCycle :=
  (raced_asks _).bind fun _ => trivial

theorem any_isBackoff_inCycle (h : ∀ e ∈ tr, InCycle e.request) : tr.any isBackoff = false := by
  apply List.any_eq_false.mpr
  rintro ⟨q, r⟩ he
  have hq : InCycle q := h _ he
  cases q with
  | within => exact Bool.false_ne_true
  | _ => exact absurd hq id

/-- A pass backs off if the cycle before it was idle, as soon as it goes on. -/
theorem loopPass_backsOff
    (h : Begins (loopPass keeperLoopInterval crates settings sign wasIdle) tr) :
    tr.any isBackoff = (wasIdle && goesOn tr) := by
  rcases begins_ask.mp h with rfl | ⟨ticked, rest, rfl, hrest⟩
  · exact (Bool.and_false wasIdle).symm
  · cases ticked with
    | none =>
        obtain rfl := begins_done.mp hrest
        exact (Bool.and_false wasIdle).symm
    | some u =>
        cases wasIdle with
        | false =>
            have hcycle : Begins (loopCycle crates settings sign) rest := hrest
            have hnone : rest.any isBackoff = false :=
              any_isBackoff_inCycle (hcycle.asks loopCycle_asks)
            exact hnone
        | true =>
            rcases begins_ask.mp hrest with rfl | ⟨waited, last, rfl, -⟩ <;> rfl

theorem loopCycle_runs (h : Runs (loopCycle crates settings sign) tr (some idle)) :
    ∃ result, Runs (runKeeperCycle crates settings sign) (cycleTrace tr) result ∧
      idle = isIdle result := by
  obtain ⟨racing, finished, last, rfl, hraced, hdone⟩ := runs_bind.mp h
  obtain ⟨rfl, hidle⟩ := runs_done.mp hdone
  cases finished with
  | none => cases hidle
  | some result =>
      rw [List.append_nil]
      exact ⟨result, raced_runs hraced, Option.some.inj hidle⟩

theorem loopPass_runs
    (h : Runs (loopPass keeperLoopInterval crates settings sign wasIdle) tr (some idle)) :
    ∃ result, Runs (runKeeperCycle crates settings sign) (cycleTrace tr) result ∧
      idle = isIdle result := by
  obtain ⟨ticked, rest, rfl, hrest⟩ := runs_ask.mp h
  cases ticked with
  | none => cases (runs_done.mp hrest).2
  | some u =>
      cases wasIdle with
      | false =>
          have hcycle : Runs (loopCycle crates settings sign) rest (some idle) := hrest
          obtain ⟨result, hresult, hidle⟩ := loopCycle_runs hcycle
          exact ⟨result, hresult, hidle⟩
      | true =>
          obtain ⟨waited, last, rfl, hlast⟩ := runs_ask.mp hrest
          cases waited with
          | none => cases (runs_done.mp hlast).2
          | some u =>
              have hcycle : Runs (loopCycle crates settings sign) last (some idle) := hlast
              obtain ⟨result, hresult, hidle⟩ := loopCycle_runs hcycle
              exact ⟨result, hresult, hidle⟩

end Passes

end So4Oracle.KeeperLoop
