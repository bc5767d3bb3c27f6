import So4Oracle.Library.Requests
import So4Oracle.State

namespace So4Oracle.Admin

open Library.Requests State

structure ApiError where
  status : Nat
  message : String
  deriving DecidableEq, Repr

structure ClearBlacklistResponse where
  key : String
  cleared : Bool
  deriving DecidableEq, Repr

/-- The sections that the handler runs under one lock each. -/
inductive AdminOp
  | removeBlacklisted (key : String)
  | clearFailures (counter : Counter) (key : String)

@[reducible] def AdminOp.Answer : AdminOp → Type
  | removeBlacklisted _ => Bool
  | clearFailures _ _ => Unit

def AdminOp.run (app : AppState) : (op : AdminOp) → op.Answer × AppState
  | removeBlacklisted key =>
      (app.frozenOrderBlacklist.contains key,
        { app with frozenOrderBlacklist := app.frozenOrderBlacklist.erase key })
  | clearFailures counter key => ((), app.setCounts ((app.counts counter).erase key) counter)

abbrev AdminProgram (α : Type) := Program AdminOp AdminOp.Answer α

abbrev ClearCall := AdminProgram (Except ApiError ClearBlacklistResponse)

def keyNotBlacklisted : ApiError := ⟨404, "key_not_blacklisted"⟩

/-- The key has left the blacklist; its tallies are reset one after the other. -/
def clearExecutionFailures (key : String) : ClearCall := do
  Program.request (AdminOp.clearFailures .executionFailures key)
  pure (.ok ⟨key, true⟩)

def clearTallies (key : String) : ClearCall := do
  Program.request (AdminOp.clearFailures .freezeFailures key)
  clearExecutionFailures key

def clearBlacklistedKey (key : String) : ClearCall := do
  let removed ← Program.request (AdminOp.removeBlacklisted key)
  if removed then clearTallies key else pure (.error keyNotBlacklisted)

end So4Oracle.Admin
