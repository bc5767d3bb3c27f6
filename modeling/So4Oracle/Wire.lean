import Mathlib.Algebra.Group.Nat.Defs

namespace So4Oracle.Wire

structure JsonRpcFault where
  code : Int
  message : String
  deriving DecidableEq, Repr

structure JsonRpcResponse (T : Type) where
  result : Option T
  error : Option JsonRpcFault

structure SendTransactionResult where
  status : String
  hash : String
  errorResultXdr : Option String

structure GetTransactionResult where
  status : String
  ledger : Option Nat
  diagnosticEventsXdr : Option (List String)

structure LedgerEntryResult where
  xdr : String

structure GetLedgerEntriesResult where
  entries : List LedgerEntryResult

inductive LedgerEntryData
  | account (seqNum : Int)
  | other

inductive TransactionResultResult
  | txBadSeq
  | other (code : Int)
  deriving DecidableEq, Repr

structure TokenConfig where
  symbol : String
  displaySymbol : Option String
  stellarAddress : String
  sources : List String
  binanceSymbol : Option String
  coinbaseSymbol : Option String
  pythFeedId : Option String
  fixedPrice : Option String
  minSources : Nat
  maxDeviationBps : Nat
  staleAfterSeconds : Nat
  submitThresholdBps : Nat
  pythMaxConfidenceBps : Nat
  deriving DecidableEq, Repr

inductive Strkey
  | publicKeyEd25519 (bytes : List UInt8)
  | contract (bytes : List UInt8)
  | other (version : Nat) (payload : List UInt8)
  deriving DecidableEq, Repr

inductive Json
  | null
  | bool (b : Bool)
  | number (asU64 : Option Nat) (text : String)
  | string (s : String)
  | array (items : List Json)
  | object (fields : List (String × Json))

namespace Json

def get? : Json → String → Option Json
  | object fields, field => (fields.find? fun entry => entry.1 == field).map Prod.snd
  | _, _ => none

def asU64? : Json → Option Nat
  | number asU64 _ => asU64
  | _ => none

def asStr? : Json → Option String
  | string s => some s
  | _ => none

end Json

/-- What the linked crates compute: JSON, XDR, strkey, hex and base64 decoding,
and the Unicode tables behind `Debug` and `to_lowercase`. Nothing is assumed
about them. -/
structure Crates where
  json : String → Except String Json
  jsonText : Json → String
  tokenConfigs : String → Except String (List TokenConfig)
  sendResponse : String → Except String (JsonRpcResponse SendTransactionResult)
  getTransactionResponse : String → Except String (JsonRpcResponse GetTransactionResult)
  ledgerEntriesResponse : String → Except String (JsonRpcResponse GetLedgerEntriesResult)
  ledgerEntryData : String → Except String LedgerEntryData
  transactionResult : String → Option TransactionResultResult
  strkey : String → Except String Strkey
  strkeyDebug : Strkey → String
  publicKey : String → Except String (List UInt8)
  hexDecode : String → Except String (List UInt8)
  base64Decode : String → Option (List UInt8)
  escapesAsUnicode : Char → Bool
  toLowercase : String → String

end So4Oracle.Wire
