import Mathlib.Data.List.Chain
import So4Oracle.ExecutionCounts
import So4Oracle.KeeperLoop
import So4Oracle.Library.Strategies

namespace So4Oracle.IdleBackoff

open Library.Requests Library.Records Library.Strategies Wire Config State Chain Submit Handler Keeper
  PendingKeys KeeperGates KeeperScript StatusSnapshot ExecutionCounts KeeperLoop

section Idleness

def isExecution (method : String) : Bool :=
  method == "execute_order" || method == "execute_deposit" || method == "execute_withdrawal"

theorem countsNoFreeze_isExecution : CountsNoFreeze isExecution where
  orders := by decide
  deposits := by decide
  withdrawals := by decide

theorem executions_isExecution (s : CycleSummary) :
    executions isExecution s = s.ordersExecuted + s.depositsExecuted + s.withdrawalsExecuted := rfl

def findsNothing : Event KeeperRequest KeeperRequest.Answer → Bool
  | ⟨.pendingKeys, fetched⟩ => noPendingWork (keysOrNone fetched)
  | _ => false

/-- The cycle of the pass found no pending order, deposit or withdrawal. -/
def foundNothing (tr : LoopTrace) : Bool := (keeperTrace (cycleTrace tr)).any findsNothing

variable (crates : Crates) (settings : Settings) (sign : Transaction → Except String String)

/-- What keeps the loop from taking the cycle of a pass for an idle one: a confirmed
execution, a failed submission of prices, or the timeout. -/
inductive Busy (tr : LoopTrace) : Prop
  | executes (h : 0 < confirmations isExecution (keeperTrace (cycleTrace tr)))
  | refused {e : String} (h : Runs (prepareCycle crates settings sign) (keeperTrace (cycleTrace tr))
      (.error e))
  | timedOut (h : (cycleTrace tr).any isTimeout = true)

variable {crates settings sign} {keeperLoopInterval : Nat}

theorem isIdle_ok (s : CycleSummary) : isIdle (.ok s) = true ↔ executions isExecution s = 0 := by
  rw [executions_isExecution]
  simp [isIdle, and_assoc]

/-- The cycle is dropped with an error only by the price stage. -/
theorem executeKeeperCycle_error {tr : KeeperTrace} {e : String}
    (h : Runs (executeKeeperCycle crates settings sign) tr (.error e)) :
    Runs (prepareCycle crates settings sign) tr (.error e) := by
  obtain ⟨first, prepared, rest, rfl, hprepared, hrest⟩ := runs_bind.mp h
  rcases prepared with e' | summary | pending
  · obtain ⟨rfl, heq⟩ := runs_done.mp hrest
    cases heq
    rw [List.append_nil]
    exact hprepared
  · cases (runs_done.mp hrest).2
  · obtain ⟨executing, summary, last, -, -, hdone⟩ := runs_bind.mp hrest
    cases (runs_done.mp hdone).2

theorem prepareCycle_error {tr : KeeperTrace} {e : String}
    (h : Runs (prepareCycle crates settings sign) tr (.error e)) :
    Runs (executeKeeperCycle crates settings sign) tr (.error e) :=
  runs_bind.mpr ⟨tr, .error e, [], (List.append_nil tr).symm, h, .done _⟩

/-- The flag that a pass hands on. -/
theorem loopPass_idle_iff {wasIdle idle : Bool} {tr : LoopTrace}
    (h : Runs (loopPass keeperLoopInterval crates settings sign wasIdle) tr (some idle)) :
    idle = true ↔ ¬Busy crates settings sign tr := by
  obtain ⟨result, hresult, rfl⟩ := loopPass_runs h
  rcases runKeeperCycle_runs hresult with ⟨hcycle, huntimed⟩ | ⟨rfl, htimeout⟩
  · cases result with
    | error e =>
        refine iff_of_false Bool.false_ne_true (fun hbusy => hbusy ?_)
        exact .refused (executeKeeperCycle_error hcycle)
    | ok summary =>
        have hcount := executeKeeperCycle_confirmations countsNoFreeze_isExecution hcycle
        rw [isIdle_ok, ← hcount]
        constructor
        · rintro hzero (hexecutes | hrefused | htimeout)
          · omega
          · cases hcycle.unique (prepareCycle_error hrefused)
          · rw [huntimed] at htimeout
            cases htimeout
        · intro hbusy
          by_contra hne
          exact hbusy (.executes (Nat.pos_of_ne_zero hne))
  · exact iff_of_false Bool.false_ne_true (fun hbusy => hbusy (.timedOut htimeout))

end Idleness

section Runs

variable (crates : Crates) (settings : Settings) (sign : Transaction → Except String String)
  (keeperLoopInterval : Nat)

/-- The pass after a complete one takes over its flag. -/
def Leads (older newer : LoopTrace) : Prop :=
  ∃ wasIdle idle, Runs (loopPass keeperLoopInterval crates settings sign wasIdle) older (some idle) ∧
    newer.any isBackoff = (idle && goesOn newer)

/-- The idle back-off is taken only after a cycle that found nothing pending. -/
structure BacksOffOnlyIdle (passes : List LoopTrace) : Prop where
  first : ∀ pass ∈ passes.head?, pass.any isBackoff = false
  later : passes.IsChain fun older newer => newer.any isBackoff = true → foundNothing older = true

variable {crates settings sign keeperLoopInterval}

theorem runsLoop_leads {wasIdle : Bool} {passes : List LoopTrace}
    (h : RunsLoop keeperLoopInterval crates settings sign wasIdle passes) :
    (∀ pass ∈ passes.head?, pass.any isBackoff = (wasIdle && goesOn pass)) ∧
      passes.IsChain (Leads crates settings sign keeperLoopInterval) := by
  induction h with
  | last h =>
      refine ⟨fun pass hpass => ?_, List.isChain_singleton _⟩
      obtain rfl := Option.some.inj hpass
      exact loopPass_backsOff h
  | again h _ ih =>
      refine ⟨fun pass hpass => ?_, List.isChain_cons.mpr ⟨fun newer hnewer => ?_, ih.2⟩⟩
      · obtain rfl := Option.some.inj hpass
        exact loopPass_backsOff (begins_of_runs h)
      · exact ⟨_, _, h, ih.1 newer hnewer⟩

theorem isChain_congr {α : Type} {R P Q : α → α → Prop} {l : List α} (h : l.IsChain R)
    (hPQ : ∀ a b, R a b → (P a b ↔ Q a b)) : l.IsChain P ↔ l.IsChain Q := by
  rw [List.isChain_iff_getElem] at h ⊢
  rw [List.isChain_iff_getElem]
  exact forall₂_congr fun i hi => hPQ _ _ (h i hi)

theorem leads_iff {older newer : LoopTrace}
    (h : Leads crates settings sign keeperLoopInterval older newer) :
    (newer.any isBackoff = true → foundNothing older = true) ↔
      (goesOn newer = true → foundNothing older = true ∨ Busy crates settings sign older) := by
  obtain ⟨wasIdle, idle, hpass, hbackoff⟩ := h
  have hidle := loopPass_idle_iff hpass
  rw [hbackoff, Bool.and_eq_true, hidle]
  tauto

end Runs

/-- The loop backs off only when idle if every cycle that it follows up found nothing
pending, had an execution confirmed, or ended in an error. -/
theorem backsOffOnlyIdle_iff {crates : Crates} {settings : Settings}
    {sign : Transaction → Except String String} {keeperLoopInterval : Nat} {passes : List LoopTrace}
    (h : RunsKeeperLoop keeperLoopInterval crates settings sign passes) :
    BacksOffOnlyIdle passes ↔ passes.IsChain fun older newer =>
      goesOn newer = true → foundNothing older = true ∨ Busy crates settings sign older := by
  obtain ⟨hfirst, hleads⟩ := runsLoop_leads h
  rw [← isChain_congr hleads fun _ _ => leads_iff]
  exact ⟨fun hidle => hidle.later, fun hlater => ⟨hfirst, hlater⟩⟩

section Samples

/-- The prices were submitted a second ago, so that only the handlers are called. -/
def submittedApp : AppState :=
  let app := appWithPrice .new 100
  ((StateOp.updateSubmittedPrices app.priceCache.prices 1009 true).run (1009 * nanosPerSecond) app).2

/-- One answer to each request, with the node not reachable. -/
def answerKeeper (keys : Kind → Except String (List String)) :
    (q : KeeperRequest) → Option q.Answer
  | .state op => some (op.run (1010 * nanosPerSecond) submittedApp).1
  | .unixTime => some 1010
  | .checkKeeperBalance => some (.ok 0)
  | .pendingKeys => some keys
  | .accountSequence => some (.error (.network "timeout"))
  | .send _ _ _ | .sleep _ => some ()
  | .settle _ => some (.error (.pollTimeout "c0de"))
  | .abort _ => none

def answerCycle (keys : Kind → Except String (List String)) :
    (q : CycleRequest) → Option q.Answer
  | .within q => (answerKeeper keys q).map some
  | .elapsedMillis => some 12
  | .bumpGeneration | .startRunning | .finishTiming _ | .recordKeeperCycle _ _ | .recordError _
  | .recordSubmitFailure => some ()

def answerLoop (keys : Kind → Except String (List String)) :
    Strategy LoopRequest LoopRequest.Answer := fun _ q =>
  match q with
  | .tick | .idleBackoff _ => some (some ())
  | .within q => (answerCycle keys q).map some

def samplePass (wasIdle : Bool) : LoopProgram (Option Bool) :=
  loopPass 1500 nodeCrates keeperSettings sampleSign wasIdle

/-- The pass hands on that its cycle was idle, and whether it found anything. -/
def idlePass (nothing : Bool) (idle : Option Bool) (tr : LoopTrace) : Bool :=
  idle == some true && foundNothing tr == nothing

def backoffTrace : LoopTrace := [⟨.tick, some ()⟩, ⟨.idleBackoff 6000, some ()⟩]

theorem idlePass_backsOff {answer : Strategy LoopRequest LoopRequest.Answer} {nothing : Bool}
    (h : (against answer (samplePass false) []).any
      (fun result => idlePass nothing result.1 result.2) = true) :
    ∃ tr, RunsKeeperLoop 1500 nodeCrates keeperSettings sampleSign [tr, backoffTrace] ∧
      foundNothing tr = nothing := by
  obtain ⟨tr, idle, hruns, hcheck⟩ := exists_runs (idlePass nothing) h
  obtain ⟨hidle, hfound⟩ := Bool.and_eq_true_iff.mp hcheck
  obtain rfl := beq_iff_eq.mp hidle
  exact ⟨tr, .again hruns (.last (.ask _ _ (.ask _ _ (.here _)))), beq_iff_eq.mp hfound⟩

end Samples

/-- An order is pending, its execution fails, and the loop backs off. -/
theorem backsOff_after_failure :
    ∃ passes, RunsKeeperLoop 1500 nodeCrates keeperSettings sampleSign passes ∧
      ¬BacksOffOnlyIdle passes := by
  have hevaluated : (against (answerLoop oneOrder) (samplePass false) []).any
      (fun result => idlePass false result.1 result.2) = true := by decide +kernel
  obtain ⟨tr, hruns, hfound⟩ := idlePass_backsOff hevaluated
  refine ⟨_, hruns, fun hidle => ?_⟩
  have hnothing := (List.isChain_cons_cons.mp hidle.later).1 rfl
  rw [hfound] at hnothing
  cases hnothing

/-- With nothing pending it backs off as intended. -/
theorem backsOffOnlyIdle_nothing_pending :
    ∃ passes, RunsKeeperLoop 1500 nodeCrates keeperSettings sampleSign passes ∧
      (∃ pass ∈ passes, pass.any isBackoff = true) ∧ BacksOffOnlyIdle passes := by
  have hevaluated : (against (answerLoop fun _ => .ok []) (samplePass false) []).any
      (fun result => idlePass true result.1 result.2) = true := by decide +kernel
  obtain ⟨tr, hruns, hfound⟩ := idlePass_backsOff hevaluated
  refine ⟨_, hruns, ⟨backoffTrace, by simp, rfl⟩, (backsOffOnlyIdle_iff hruns).mpr ?_⟩
  exact List.isChain_cons_cons.mpr ⟨fun _ => .inl hfound, List.isChain_singleton _⟩

end So4Oracle.IdleBackoff
