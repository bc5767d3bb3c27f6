import So4Oracle.KeeperGuard
import So4Oracle.KeeperScript

namespace So4Oracle.GuardScript

open Library.Requests Library.Safety Library.Breaker Wire Config State Chain StellarRpc Submit
  SubmitOutcome Handler Keeper KeeperRuns KeeperScript Admin KeeperGuard

/-- The player of the keeper's world, with what happens to the keys. -/
def watch (player : Player KeeperRequest KeeperRequest.Answer World) :
    Player KeeperRequest KeeperRequest.Answer Watched := fun q w =>
  (player q w.world).map fun (r, world) =>
    (r, ⟨world, w.calls, (requestEvent q r).toList ++ w.history, dueAfter w.due q r⟩)

variable {crates : Crates} {settings : Settings}

theorem landNewest_app (w : World) : (landNewest w).app = w.app := by
  rw [landNewest]
  split
  · rfl
  · split <;> rfl

/-- Before its answer at most the newest transaction lands. -/
theorem watch_answers {script : Script} (h : script.Possible crates settings) {q : KeeperRequest}
    {w u : Watched} {r : q.Answer} (hq : watch (respond script) q w = some (r, u)) :
    ∃ v, (v = w ∨ Moves w v ∧ v.history = w.history ∧ v.calls = w.calls) ∧
      (watched crates settings).answer q v r u := by
  obtain ⟨⟨r', world⟩, hrespond, hpair⟩ := Option.map_eq_some_iff.mp hq
  cases hpair
  have hghost : ∀ v : World, (keeper crates settings).answer q v r world →
      (watched crates settings).answer q (w.setWorld v) r
        ⟨world, w.calls, (requestEvent q r).toList ++ w.history, dueAfter w.due q r⟩ :=
    fun v ha => ⟨ha, rfl, rfl, rfl⟩
  by_cases hsettle : ∃ signedXdr, q = .settle signedXdr
  · obtain ⟨signedXdr, rfl⟩ := hsettle
    obtain ⟨v, rfl | rfl, -, ha⟩ := respond_settles h hrespond
    · exact ⟨w, .inl rfl, hghost _ ha⟩
    · refine ⟨w.setWorld (landNewest w.world), ?_, hghost _ ha⟩
      rcases landNewest_cases w.world with hsame | hi
      · exact .inl (congrArg w.setWorld hsame)
      · refine .inr ⟨.world w _ hi ?_, rfl, rfl⟩
        rw [landNewest_app]
        exact ⟨rfl, rfl, rfl⟩
  · have ha := respond_answers h.sequence (fun signedXdr heq => hsettle ⟨signedXdr, heq⟩) hrespond
    exact ⟨w, .inl rfl, hghost w.world ha⟩

theorem watch_plays {script : Script} (h : script.Possible crates settings) :
    (watch (respond script)).Plays (watched crates settings) := by
  intro q w r u hq
  obtain ⟨v, rfl | ⟨hi, -⟩, ha⟩ := watch_answers h hq
  · exact ⟨v, .refl, ha⟩
  · exact ⟨v, .single hi, ha⟩

theorem play_watch_calls {α : Type} (player : Player KeeperRequest KeeperRequest.Answer World)
    (p : KeeperProgram α) (w : Watched) : (play (watch player) p w).calls = w.calls := by
  induction p generalizing w with
  | done a => rfl
  | ask q next ih =>
      rw [play]
      split
      next => rfl
      next r u hq =>
        obtain ⟨⟨r', world⟩, -, hpair⟩ := Option.map_eq_some_iff.mp hq
        cases hpair
        exact ih _ _

/-- The handler is called and takes the key out of the blacklist. -/
def removeKey (w : Watched) (key : String) : Watched :=
  { w with calls := clearBlacklistedKey key :: w.calls }.perform (.removeBlacklisted key)
    (clearTallies key :: w.calls)

/-- The newest call resets the tallies of the key, one after the other. -/
def resetFreezes (w : Watched) (key : String) (calls : List ClearCall) : Watched :=
  w.perform (.clearFailures .freezeFailures key) (clearExecutionFailures key :: calls)

def resetExecutions (w : Watched) (key : String) (calls : List ClearCall) : Watched :=
  w.perform (.clearFailures .executionFailures key) (.done (.ok ⟨key, true⟩) :: calls)

theorem moves_resetFreezes {w : Watched} {key : String} {calls : List ClearCall}
    (h : w.calls = clearTallies key :: calls) : Moves w (resetFreezes w key calls) :=
  .perform w [] _ (fun _ => clearExecutionFailures key) calls h

theorem moves_resetExecutions {w : Watched} {key : String} {calls : List ClearCall}
    (h : w.calls = clearExecutionFailures key :: calls) : Moves w (resetExecutions w key calls) :=
  .perform w [] _ (fun _ => .done (.ok ⟨key, true⟩)) calls h

theorem moves_removeKey {w : Watched} {key : String}
    (h : w.world.app.frozenOrderBlacklist.contains key = true) :
    Moves { w with calls := clearBlacklistedKey key :: w.calls } (removeKey w key) := by
  have hmoves := Moves.perform { w with calls := clearBlacklistedKey key :: w.calls } []
    (.removeBlacklisted key) (fun removed => if removed then clearTallies key
      else pure (.error keyNotBlacklisted)) w.calls rfl
  have hnext : (if w.world.app.frozenOrderBlacklist.contains key = true then clearTallies key
      else pure (.error keyNotBlacklisted)) = clearTallies key := if_pos h
  rw [removeKey]
  rw [← hnext]
  exact hmoves

section Samples

/-- The node takes nothing. -/
def refusedTrace (signedXdr : String) : RpcTrace :=
  [⟨.sendTransaction signedXdr, ⟨false, .http 404 ""⟩⟩]

theorem refusedTrace_runs (signedXdr : String) :
    Runs (submitAndPoll nodeCrates signedXdr) (refusedTrace signedXdr)
      (.error (.rpc (.httpError 404 ""))) :=
  .ask _ _ (.done _)

/-- Prices are confirmed and every handler is refused, but for the methods that
are not answered at all. -/
def refusedHandlers (silent : String → Bool) : Script where
  keys := oneOrder
  sequence := 7
  lands sent := (sent.head?.map Sent.work).any Work.isSetPrices
  reply signedXdr
    | s :: _ =>
        match s.work with
        | .setPrices _ => if s.landed then some (confirmedTrace signedXdr, .ok 9) else none
        | .handler method _ =>
            if silent method then none
            else some (refusedTrace signedXdr, .error (.rpc (.httpError 404 "")))
    | [] => none

theorem refusedHandlers_possible (silent : String → Bool) :
    (refusedHandlers silent).Possible nodeCrates keeperSettings where
  sequence := accountSequence_seven
  reply signedXdr sent tr r h := by
    dsimp only [refusedHandlers] at h
    split at h
    next s rest =>
      split at h
      · split at h
        · cases h
          exact confirmedTrace_runs signedXdr
        · cases h
      · split at h
        · cases h
        · cases h
          exact refusedTrace_runs signedXdr
    next => cases h
  truthful signedXdr s rest tr ledger h := by
    dsimp only [refusedHandlers] at h
    split at h
    · split at h
      next hlanded => exact hlanded
      next => cases h
    · split at h <;> cases h

/-- A cycle that ends when the player gives no further answer. -/
def watchCycle (script : Script) (w : Watched) : Watched :=
  (play (watch (respond script)) (executeKeeperCycle nodeCrates keeperSettings sampleSign)
    w.enter).leave

theorem guardRuns_watchCycle {script : Script} (h : script.Possible nodeCrates keeperSettings)
    {w v : Watched}
    (hrun : GuardRuns nodeCrates keeperSettings sampleSign (watched nodeCrates keeperSettings)
      cut w v) :
    GuardRuns nodeCrates keeperSettings sampleSign (watched nodeCrates keeperSettings) cut w
      (watchCycle script v) :=
  .round hrun (visits_play (watch_plays h) _ _) rfl

/-- The service with tallies from before. -/
def talliedWorld (freezes executions : Nat) : Watched where
  world := { startWorld 100 with
    app := { (startWorld 100).app with
      freezeFailureCounts := .ofList [("aa", freezes)]
      executionFailureCounts := .ofList [("aa", executions)] } }
  calls := []
  history := []
  due := none

/-- An order that was blacklisted after its third freeze failure, with four
execution failures counted by then. -/
def barredWorld : Watched :=
  let w := talliedWorld 3 4
  w.setWorld (w.world.setApp { w.world.app with frozenOrderBlacklist := .ofList [("aa", 3)] })

def startWatched : Watched := ⟨startWorld 100, [], [], none⟩

end Samples

end So4Oracle.GuardScript
