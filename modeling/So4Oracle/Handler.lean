import So4Oracle.Chain
import So4Oracle.PendingKeys
import So4Oracle.Submit

namespace So4Oracle.Handler

open Library.Checked Library.Requests Wire Config State Chain StellarRpc Submit PendingKeys

def accountSequenceRetryAttempts : Nat := 3

def budgetExceededPattern : String := "Budget, ExceededLimit"

def marketPausedPattern : String := "MarketPaused"

section AccountSequence

inductive SequenceFetchError
  | network (msg : String)
  | missingOrInvalid (msg : String)
  deriving DecidableEq, Repr

namespace SequenceFetchError

def isRetryable : SequenceFetchError → Bool
  | network _ => true
  | missingOrInvalid _ => false

def display : SequenceFetchError → String
  | network msg | missingOrInvalid msg => msg

end SequenceFetchError

variable (crates : Crates) (settings : Settings)

def sequenceFetchError (e : RpcError) : SequenceFetchError :=
  let message := "getLedgerEntries request failed: " ++ e.display
  if e.isRetryable then .network message else .missingOrInvalid message

def getAccountSequenceOnce : RpcProgram (Except SequenceFetchError Nat) := do
  let fetched ← StellarRpc.getAccountSequence crates settings.keeperAccountId
  pure (fetched.mapError sequenceFetchError)

def getAccountSequence : RpcProgram (Except SequenceFetchError Nat) :=
  Retry.retryWithBackoff SequenceFetchError.isRetryable (getAccountSequenceOnce crates settings)
    accountSequenceRetryAttempts (by decide)

end AccountSequence

/-- The submission error is kept beside the message, so that its variant can
be told. -/
structure HandlerError where
  message : String
  submit : Option SubmitError
  deriving DecidableEq, Repr

namespace HandlerError

def «local» (message : String) : HandlerError := ⟨message, none⟩

def submitted (crates : Crates) (operation : String) (submit : SubmitError) : HandlerError :=
  ⟨operation ++ " submit failed: " ++ submit.display crates, some submit⟩

def mayStillConfirm (e : HandlerError) : Bool := e.submit.any SubmitError.mayStillConfirm

def diagnosticEvents (e : HandlerError) : List String :=
  (e.submit.map SubmitError.diagnosticEvents).getD []

def txHash (e : HandlerError) : Option String :=
  match e.submit with
  | some (.pollTimeout hash) => some hash
  | _ => none

end HandlerError

def isBase64Char (c : Char) : Bool := c.isAlphanum || c == '+' || c == '/' || c == '='

def decodesToBudgetExceeded (crates : Crates) (bit : String) : Bool :=
  let trimmed := RustText.trim bit
  if trimmed.utf8ByteSize < 20 || !trimmed.toList.all isBase64Char then false
  else
    match crates.base64Decode trimmed with
    | none => false
    | some bytes =>
        (String.fromUTF8? ⟨bytes.toArray⟩).any fun s => RustText.contains s budgetExceededPattern

def isBudgetExceeded (crates : Crates) (e : HandlerError) : Bool :=
  e.diagnosticEvents.any (fun event => RustText.contains event budgetExceededPattern) ||
    (RustText.splitChar e.message '"').any (decodesToBudgetExceeded crates)

def isMarketPausedError (e : HandlerError) : Bool := RustText.contains e.message marketPausedPattern

def isBadSequenceError (error : String) : Bool :=
  let lower := RustText.toAsciiLowercase error
  RustText.contains lower "bad_sequence" || RustText.contains lower "bad_seq" ||
    RustText.contains lower "badseq"

def isBadSequenceXdr (crates : Crates) (errorResultXdr : String) : Bool :=
  crates.transactionResult errorResultXdr == some .txBadSeq

def isBadSequence (crates : Crates) (e : SubmitError) : Bool :=
  isBadSequenceError (e.display crates) ||
    match e with
    | .rejected _ (some xdr) => isBadSequenceXdr crates xdr
    | _ => false

/-- What a keeper transaction is for. -/
inductive Work
  | setPrices (prices : PriceMap)
  | handler (method key : String)

/-- Reading a lock-protected section, the clock, the network. A submission is
two requests: from the first on the node may see the transaction. -/
inductive KeeperRequest
  | state (op : StateOp)
  | unixTime
  | checkKeeperBalance
  | pendingKeys
  | accountSequence
  | send (work : Work) (tx : Transaction) (signedXdr : String)
  | settle (signedXdr : String)
  | sleep (millis : Nat)
  | abort (fault : Fault)

@[reducible] def KeeperRequest.Answer : KeeperRequest → Type
  | state op => op.Answer
  | unixTime => Nat
  | checkKeeperBalance => Except RpcError Int
  | pendingKeys => Kind → Except String (List String)
  | accountSequence => Except SequenceFetchError Nat
  | send _ _ _ | sleep _ => Unit
  | settle _ => Except SubmitError Nat
  | abort _ => Empty

abbrev KeeperProgram (α : Type) := Program KeeperRequest KeeperRequest.Answer α

def locked (op : StateOp) : KeeperProgram op.Answer := Program.request (KeeperRequest.state op)

def unixTime : KeeperProgram Nat := Program.request KeeperRequest.unixTime

/-- A panic unwinds the task, so nothing answers it. -/
def orAbort {α : Type} : Panicking α → KeeperProgram α
  | .ok a => pure a
  | .error fault => .ask (.abort fault) Empty.elim

def submitTx (work : Work) (tx : Transaction) (signedXdr : String) :
    KeeperProgram (Except SubmitError Nat) := do
  Program.request (KeeperRequest.send work tx signedXdr)
  Program.request (KeeperRequest.settle signedXdr)

section ExecuteHandler

variable (crates : Crates) (settings : Settings) (sign : Transaction → Except String String)

def keyScval (key : String) : Except HandlerError ScVal :=
  match crates.hexDecode key with
  | .error e => .error (.local ("invalid key hex: " ++ e))
  | .ok keyBytes =>
      if keyBytes.length ≤ u32Max then .ok (.bytes keyBytes)
      else .error (.local ("key bytes conversion failed: " ++ lengthExceedsMax))

def buildAndSign (contractId method : String) (args : List ScVal) (fee sequence now : Nat) :
    Except String (Transaction × String) := do
  let tx ← buildInvokeTx crates settings.keeperAccountId contractId method args fee sequence
    (saturatingAdd now txMaxTimeSecs)
  let signedXdr ← sign tx
  pure (tx, signedXdr)

variable {crates settings sign} in
theorem buildAndSign_ok {contractId method : String} {args : List ScVal}
    {fee sequence now : Nat} {signed : Transaction × String}
    (h : buildAndSign crates settings sign contractId method args fee sequence now = .ok signed) :
    signed.1.seqNum = asI64 sequence ∧
      signed.1.cond = some ⟨0, saturatingAdd now txMaxTimeSecs⟩ := by
  obtain ⟨tx, htx, h⟩ := bind_eq_ok.mp h
  obtain ⟨xdr, -, h⟩ := bind_eq_ok.mp h
  cases h
  rw [← timeBounds_saturatingAdd]
  exact buildInvokeTx_ok htx

def handlerTx (contractId method : String) (key : ScVal) (sequence now : Nat) :
    Except String (Transaction × String) := do
  let keeper ← strkeyToScAddress crates settings.keeperAccountId
  buildAndSign crates settings sign contractId method [.address keeper, key] settings.keeperTxFee
    sequence now

variable {crates settings sign} in
theorem handlerTx_ok {contractId method : String} {key : ScVal} {sequence now : Nat}
    {signed : Transaction × String}
    (h : handlerTx crates settings sign contractId method key sequence now = .ok signed) :
    signed.1.seqNum = asI64 sequence ∧
      signed.1.cond = some ⟨0, saturatingAdd now txMaxTimeSecs⟩ := by
  obtain ⟨keeper, -, h⟩ := bind_eq_ok.mp h
  exact buildAndSign_ok h

/-- Overflow checks are on in a release build. -/
def nextSequence (sequence : Nat) : Panicking Nat :=
  if sequence < u64Max then .ok (sequence + 1) else .error .overflow

/-- What becomes of the cached sequence number after a submission. -/
def sequenceAfter (sequence : Nat) : Except SubmitError Nat → Panicking (Option Nat)
  | .ok _ => some <$> nextSequence sequence
  | .error e =>
      if isBadSequence crates e then .ok none
      else
        match e with
        | .transactionFailed _ => some <$> nextSequence sequence
        | .pollTimeout _ => .ok none
        | _ => .ok (some sequence)

def confirmed (ledger : Nat) : String := "confirmed on ledger " ++ toString ledger

def handlerResult (method : String) : Except SubmitError Nat → Except HandlerError String
  | .ok ledger => .ok (confirmed ledger)
  | .error e => .error (.submitted crates method e)

abbrev HandlerOutcome := Except HandlerError String × Option Nat

def submitHandler (contractId method key : String) (keyArg : ScVal) (sequence : Nat) :
    KeeperProgram HandlerOutcome := do
  let now ← unixTime
  match handlerTx crates settings sign contractId method keyArg sequence now with
  | .error e => pure (.error (.local e), some sequence)
  | .ok signed => do
      let result ← submitTx (.handler method key) signed.1 signed.2
      let cache ← orAbort (sequenceAfter crates sequence result)
      pure (handlerResult crates method result, cache)

def executeHandler (contractId method key : String) (sequenceCache : Option Nat) :
    KeeperProgram HandlerOutcome :=
  match keyScval crates key with
  | .error e => pure (.error e, sequenceCache)
  | .ok keyArg =>
      match sequenceCache with
      | some sequence => submitHandler crates settings sign contractId method key keyArg sequence
      | none => do
          match ← Program.request KeeperRequest.accountSequence with
          | .error e => pure (.error (.local e.display), none)
          | .ok sequence =>
              submitHandler crates settings sign contractId method key keyArg sequence

end ExecuteHandler

end So4Oracle.Handler
