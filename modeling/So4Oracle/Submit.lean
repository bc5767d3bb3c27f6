import So4Oracle.StellarRpc

namespace So4Oracle.Submit

open Library.Requests Wire StellarRpc

def maxPollAttempts : Nat := 6

def sendTransactionRetryAttempts : Nat := 3

inductive SubmitError
  | rpc (e : RpcError)
  | jsonError (msg : String)
  | rejected (status : String) (errorResultXdr : Option String)
  | retryable (msg : String)
  | transactionFailed (events : List String)
  | pollTimeout (hash : String)
  deriving DecidableEq, Repr

namespace SubmitError

def display (crates : Crates) : SubmitError → String
  | rpc e => "RPC error: " ++ e.display
  | jsonError msg => "JSON parse error: " ++ msg
  | rejected status errorResultXdr =>
      "transaction rejected: " ++ status ++
        match errorResultXdr with
        | some xdr => " (errorResultXdr: " ++ xdr ++ ")"
        | none => ""
  | retryable msg => "retryable: " ++ msg
  | transactionFailed events =>
      "transaction failed on-chain; diagnostic events: " ++
        RustText.debugStrings crates.escapesAsUnicode events
  | pollTimeout hash =>
      "transaction not confirmed after " ++ toString maxPollAttempts ++ " attempts (hash: " ++
        hash ++ "); check status on next cycle"

def mayStillConfirm : SubmitError → Bool
  | pollTimeout _ => true
  | _ => false

def diagnosticEvents : SubmitError → List String
  | transactionFailed events => events
  | _ => []

end SubmitError

section Parsing

variable {T : Type}

/-- Shared by the parsers of both responses, which differ in the payload type only. -/
def parseResponse (decoded : Except String (JsonRpcResponse T)) : Except SubmitError T :=
  match decoded with
  | .error e => .error (.jsonError e)
  | .ok resp =>
      match resp.error with
      | some fault => .error (.rpc (.rpcFault fault.code fault.message))
      | none =>
          match resp.result with
          | some result => .ok result
          | none => .error (.jsonError "missing 'result' field")

theorem parseResponse_error {decoded : Except String (JsonRpcResponse T)} {e : SubmitError}
    (h : parseResponse decoded = .error e) :
    (∃ msg, e = .jsonError msg) ∨ ∃ code message, e = .rpc (.rpcFault code message) := by
  cases decoded with
  | error msg =>
      cases h
      exact .inl ⟨msg, rfl⟩
  | ok resp =>
      cases he : resp.error with
      | some fault =>
          simp only [parseResponse, he] at h
          cases h
          exact .inr ⟨_, _, rfl⟩
      | none =>
          cases hr : resp.result with
          | some result => simp [parseResponse, he, hr] at h
          | none =>
              simp only [parseResponse, he, hr] at h
              cases h
              exact .inl ⟨_, rfl⟩

theorem parseResponse_not_mayStillConfirm {decoded : Except String (JsonRpcResponse T)}
    {e : SubmitError} (h : parseResponse decoded = .error e) : e.mayStillConfirm = false := by
  rcases parseResponse_error h with ⟨msg, rfl⟩ | ⟨code, message, rfl⟩ <;> rfl

end Parsing

variable (crates : Crates)

def parseSendResponse (body : String) : Except SubmitError SendTransactionResult :=
  parseResponse (crates.sendResponse body)

def parseGetTransactionResponse (body : String) : Except SubmitError GetTransactionResult :=
  parseResponse (crates.getTransactionResponse body)

/-- How the last reply to sendTransaction is classified. -/
def sendOutcome (posted : Except RpcError String) : Except SubmitError String :=
  match posted with
  | .error e => .error (.rpc e)
  | .ok body =>
      match parseSendResponse crates body with
      | .error e => .error e
      | .ok result =>
          if result.status = "PENDING" then .ok result.hash
          else if result.status = "DUPLICATE" then .ok result.hash
          else if result.status = "TRY_AGAIN_LATER" then
            .error (.retryable ("sendTransaction returned TRY_AGAIN_LATER for hash " ++ result.hash))
          else .error (.rejected result.status result.errorResultXdr)

def postTransaction (signedXdr : String) : RpcProgram (Except RpcError String) := do
  let delivery ← Program.request (RpcRequest.sendTransaction signedXdr)
  pure (rpcPost delivery.reply)

def sendTransactionXdr (signedXdr : String) : RpcProgram (Except SubmitError String) := do
  let posted ← Retry.retryWithBackoff RpcError.isRetryable (postTransaction signedXdr)
    sendTransactionRetryAttempts (by decide)
  pure (sendOutcome crates posted)

inductive PollAnswer
  | confirmed (ledger : Nat)
  | failed (events : List String)
  | again
  | fatal (e : SubmitError)

/-- How one reply to getTransaction is classified: an unknown status only
costs an attempt, an undecodable body ends the poll. -/
def pollAnswer (reply : Reply) : PollAnswer :=
  match rpcPost reply with
  | .error e => if e.isRetryable then .again else .fatal (.rpc e)
  | .ok body =>
      match parseGetTransactionResponse crates body with
      | .error e => .fatal e
      | .ok result =>
          if result.status = "SUCCESS" then .confirmed (result.ledger.getD 0)
          else if result.status = "FAILED" then .failed (result.diagnosticEventsXdr.getD [])
          else .again

def pollFrom (hash : String) : Nat → RpcProgram (Except SubmitError Nat)
  | 0 => pure (.error (.pollTimeout hash))
  | remaining + 1 => do
      let reply ← Program.request (RpcRequest.getTransaction hash)
      match pollAnswer crates reply with
      | .confirmed ledger => pure (.ok ledger)
      | .failed events => pure (.error (.transactionFailed events))
      | .again => pollFrom hash remaining
      | .fatal e => pure (.error e)

def pollUntilConfirmed (hash : String) : RpcProgram (Except SubmitError Nat) :=
  pollFrom crates hash maxPollAttempts

def submitAndPoll (signedXdr : String) : RpcProgram (Except SubmitError Nat) := do
  match ← sendTransactionXdr crates signedXdr with
  | .error e => pure (.error e)
  | .ok hash => pollUntilConfirmed crates hash

end So4Oracle.Submit
