import So4Oracle.Library.Requests
import So4Oracle.Retry
import So4Oracle.RustText
import So4Oracle.Wire

namespace So4Oracle.StellarRpc

open Library.Requests Wire

/-- The two XLM amounts of balanceBelowMinimum are kept as printed. -/
inductive RpcError
  | networkError (msg : String)
  | unfundedAccount (msg : String)
  | httpError (status : Nat) (body : String)
  | jsonError (msg : String)
  | rpcFault (code : Int) (message : String)
  | balanceBelowMinimum (balanceStroops : Int) (balanceXlm minXlm : String)
  deriving DecidableEq, Repr

namespace RpcError

def isRetryable : RpcError → Bool
  | networkError _ => true
  | httpError status _ => 500 ≤ status || status == 429
  | jsonError _ | rpcFault _ _ | balanceBelowMinimum _ _ _ | unfundedAccount _ => false

def display : RpcError → String
  | networkError msg => "network error: " ++ msg
  | httpError status body =>
      if body = "" then "HTTP " ++ toString status
      else "HTTP " ++ toString status ++ ": " ++ body
  | jsonError msg => "JSON parse error: " ++ msg
  | unfundedAccount msg => "unfunded account: " ++ msg
  | rpcFault code message => "RPC fault " ++ toString code ++ ": " ++ message
  | balanceBelowMinimum _ balanceXlm minXlm =>
      "balance " ++ balanceXlm ++ " XLM is below minimum " ++ minXlm ++ " XLM"

end RpcError

def httpErrorBodyMaxChars : Nat := 512

def truncateErrorBody (body : String) : String :=
  let trimmed := RustText.trim body
  if trimmed.toList.length ≤ httpErrorBodyMaxChars then trimmed
  else RustText.takeChars trimmed httpErrorBodyMaxChars

/-- What the client sees of one POST. -/
inductive Reply
  | failed (msg : String)
  | http (status : Nat) (body : String)
  deriving DecidableEq, Repr

/-- The failure may pass. -/
def Reply.Transient : Reply → Prop
  | .failed _ => True
  | .http status _ => 500 ≤ status ∨ status = 429

/-- A node can process a request and still lose its answer. -/
structure Delivery where
  accepted : Bool
  reply : Reply

inductive RpcRequest
  | sendTransaction (transaction : String)
  | getTransaction (hash : String)
  | getLedgerEntries (key : List UInt8)

@[reducible] def RpcRequest.Answer : RpcRequest → Type
  | sendTransaction _ => Delivery
  | getTransaction _ | getLedgerEntries _ => Reply

abbrev RpcProgram (α : Type) := Program RpcRequest RpcRequest.Answer α

abbrev RpcTrace := List (Event RpcRequest RpcRequest.Answer)

def rpcPost : Reply → Except RpcError String
  | .failed msg => .error (.networkError msg)
  | .http status body =>
      if status ≠ 200 then .error (.httpError status (truncateErrorBody body)) else .ok body

@[simp] theorem rpcPost_failed (msg : String) :
    rpcPost (.failed msg) = .error (.networkError msg) := rfl

@[simp] theorem rpcPost_200 (body : String) : rpcPost (.http 200 body) = .ok body := rfl

theorem rpcPost_status {status : Nat} (body : String) (h : status ≠ 200) :
    rpcPost (.http status body) = .error (.httpError status (truncateErrorBody body)) := if_pos h

theorem rpcPost_ok {reply : Reply} {body : String} :
    rpcPost reply = .ok body ↔ reply = .http 200 body := by
  cases reply with
  | failed msg => simp
  | http status text =>
      by_cases hs : status = 200
      · simp [hs]
      · simp [rpcPost_status text hs, hs]

theorem rpcPost_retryable {reply : Reply} {e : RpcError} (h : rpcPost reply = .error e) :
    e.isRetryable = true ↔ reply.Transient := by
  cases reply with
  | failed msg =>
      cases h
      exact iff_of_true rfl trivial
  | http status body =>
      rw [rpcPost] at h
      split at h
      next =>
        cases h
        simp [RpcError.isRetryable, Reply.Transient]
      next => cases h

section AccountSequence

variable (crates : Crates)

def u64Max : Nat := 2 ^ 64 - 1

def parseAccountSequenceResponse (body : String) : Except RpcError Nat :=
  match crates.ledgerEntriesResponse body with
  | .error e => .error (.jsonError e)
  | .ok resp =>
      match resp.error with
      | some fault => .error (.rpcFault fault.code fault.message)
      | none =>
          match resp.result with
          | none => .error (.jsonError "missing 'result' field")
          | some result =>
              match result.entries.head? with
              | none => .error (.jsonError "account ledger entry not found")
              | some entry =>
                  match crates.ledgerEntryData entry.xdr with
                  | .error e => .error (.jsonError ("invalid ledger entry XDR: " ++ e))
                  | .ok (.account seqNum) =>
                      if seqNum < 0 then
                        .error (.jsonError
                          ("account sequence number " ++ toString seqNum ++ " is negative"))
                      else .ok (min (seqNum.toNat + 1) u64Max)
                  | .ok .other => .error (.jsonError "ledger entry is not an account")

def accountLedgerKey (accountId : String) : Except RpcError (List UInt8) :=
  match crates.publicKey accountId with
  | .error e => .error (.jsonError ("invalid account id '" ++ accountId ++ "': " ++ e))
  | .ok bytes => .ok bytes

def getAccountSequence (accountId : String) : RpcProgram (Except RpcError Nat) :=
  match accountLedgerKey crates accountId with
  | .error e => pure (.error e)
  | .ok key => do
      let reply ← Program.request (RpcRequest.getLedgerEntries key)
      match rpcPost reply with
      | .error e => pure (.error e)
      | .ok body => pure (parseAccountSequenceResponse crates body)

end AccountSequence

end So4Oracle.StellarRpc
