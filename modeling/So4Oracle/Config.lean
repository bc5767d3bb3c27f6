import So4Oracle.Wire

namespace So4Oracle.Config

open Wire

/-- What a missing field of a token entry deserialises to. -/
def defaultTokenConfig : TokenConfig where
  symbol := ""
  displaySymbol := none
  stellarAddress := ""
  sources := []
  binanceSymbol := none
  coinbaseSymbol := none
  pythFeedId := none
  fixedPrice := none
  minSources := 2
  maxDeviationBps := 100
  staleAfterSeconds := 60
  submitThresholdBps := 10
  pythMaxConfidenceBps := 50

def lookupKey (crates : Crates) (token : TokenConfig) : String :=
  if token.stellarAddress = "" then crates.toLowercase token.symbol
  else crates.toLowercase token.stellarAddress

def displaySymbol (token : TokenConfig) : String :=
  (token.displaySymbol.filter fun s => s ≠ "").getD token.symbol

inductive ConfigError
  | malformedJson (msg : String)
  | emptyTokenList
  | invalidToken (symbol reason : String)
  deriving DecidableEq, Repr

structure Seen where
  symbols : List String
  stellarAddresses : List String
  pythFeedIds : List String
  binanceSymbols : List String
  coinbaseSymbols : List String

def invalid (token : TokenConfig) (reason : String) : ConfigError :=
  .invalidToken token.symbol reason

def require (c : Prop) [Decidable c] (e : ConfigError) : Except ConfigError Unit :=
  if c then .ok () else .error e

def insertUnique (seen : List String) (x : String) (e : ConfigError) :
    Except ConfigError (List String) :=
  if x ∈ seen then .error e else .ok (x :: seen)

/-- The three per-source identifiers are checked alike: a set, non-empty one
must be new. -/
def insertIdentifier (token : TokenConfig) (field : String) (seen : List String) :
    Option String → Except ConfigError (List String)
  | none => .ok seen
  | some id =>
      if id = "" then .ok seen
      else insertUnique seen id
        (invalid token ("duplicate " ++ field ++ " '" ++ id ++ "' across tokens"))

def insertAddress (crates : Crates) (token : TokenConfig) (seen : List String) :
    Except ConfigError (List String) :=
  if token.stellarAddress = "" then .ok seen
  else insertUnique seen (crates.toLowercase token.stellarAddress)
    (invalid token "duplicate stellar_address (case-insensitive)")

def isSymbolChar (c : Char) : Bool := c.isAlphanum || c == '_' || c == '-'

def checkSymbol (token : TokenConfig) (field : String) : Option String → Except ConfigError Unit
  | none => .ok ()
  | some sym =>
      require (sym ≠ "" ∧ sym.toList.all isSymbolChar = true)
        (invalid token ("invalid " ++ field ++ " '" ++ sym ++
          "': must contain only alphanumeric characters, dashes, or underscores"))

def checkSource (token : TokenConfig) (source : String) : Except ConfigError Unit :=
  if source = "binance" then checkSymbol token "binance_symbol" token.binanceSymbol
  else if source = "coinbase" then checkSymbol token "coinbase_symbol" token.coinbaseSymbol
  else if source = "pyth" ∨ source = "fixed" then .ok ()
  else .error (invalid token ("unsupported source '" ++ source ++ "'"))

def outOfRange (field : String) (value : Nat) (range : String) : String :=
  field ++ " (" ++ toString value ++ ") must be between " ++ range

def checkRanges (token : TokenConfig) : Except ConfigError Unit := do
  require (token.maxDeviationBps ≠ 0 ∧ token.maxDeviationBps ≤ 10000)
    (invalid token (outOfRange "max_deviation_bps" token.maxDeviationBps "1 and 10000"))
  require (token.staleAfterSeconds ≠ 0)
    (invalid token "stale_after_seconds must be greater than 0")
  require (token.submitThresholdBps ≤ 10000)
    (invalid token (outOfRange "submit_threshold_bps" token.submitThresholdBps "0 and 10000"))
  require (token.minSources ≠ 0) (invalid token "min_sources must be at least 1")
  require (token.pythMaxConfidenceBps ≤ 10000)
    (invalid token
      (outOfRange "pyth_max_confidence_bps" token.pythMaxConfidenceBps "0 and 10000"))

def validateToken (crates : Crates) (seen : Seen) (token : TokenConfig) :
    Except ConfigError Seen := do
  require (token.symbol ≠ "") (.invalidToken "(empty)" "symbol must not be empty")
  let symbols ← insertUnique seen.symbols (crates.toLowercase token.symbol)
    (invalid token "duplicate symbol (case-insensitive)")
  let stellarAddresses ← insertAddress crates token seen.stellarAddresses
  let pythFeedIds ← insertIdentifier token "pyth_feed_id" seen.pythFeedIds token.pythFeedId
  let binanceSymbols ←
    insertIdentifier token "binance_symbol" seen.binanceSymbols token.binanceSymbol
  let coinbaseSymbols ←
    insertIdentifier token "coinbase_symbol" seen.coinbaseSymbols token.coinbaseSymbol
  require token.sources.Nodup (invalid token "sources list contains duplicate entries")
  token.sources.forM (checkSource token)
  checkRanges token
  pure { symbols, stellarAddresses, pythFeedIds, binanceSymbols, coinbaseSymbols }

def parseTokenConfigs (crates : Crates) (raw : String) :
    Except ConfigError (List TokenConfig) := do
  let tokens ←
    match crates.tokenConfigs raw with
    | .ok tokens => pure tokens
    | .error e => .error (.malformedJson e)
  require (tokens ≠ []) .emptyTokenList
  let _ ← tokens.foldlM (validateToken crates) ⟨[], [], [], [], []⟩
  pure tokens

/-- The settings of the service that the modelled loops read. -/
structure Settings where
  network : String
  oracleContractId : String
  dataStoreContractId : String
  orderHandlerContractId : String
  depositHandlerContractId : String
  withdrawalHandlerContractId : String
  readerContractId : String
  keeperAccountId : String
  keeperIndex : Nat
  setPricesTxFee : Nat
  keeperTxFee : Nat
  tokens : List TokenConfig

def sampleSettings : Settings where
  network := "testnet"
  oracleContractId := "CORACLE"
  dataStoreContractId := "CDATASTORE"
  orderHandlerContractId := "CORDERHANDLER"
  depositHandlerContractId := "CDEPOSITHANDLER"
  withdrawalHandlerContractId := "CWITHDRAWALHANDLER"
  readerContractId := "CREADER"
  keeperAccountId := "GKEEPER"
  keeperIndex := 0
  setPricesTxFee := 100
  keeperTxFee := 100
  tokens := []

end So4Oracle.Config
