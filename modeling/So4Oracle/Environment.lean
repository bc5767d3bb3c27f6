import So4Oracle.Config
import So4Oracle.Library.Collecting
import So4Oracle.Library.Floats
import So4Oracle.RustText
import So4Oracle.Signing

namespace So4Oracle.Environment

open Library.Collecting Library.Floats RustText Wire
open So4Oracle.Config (ConfigError)

inductive Network
  | testnet
  | mainnet
  deriving DecidableEq

def Network.asStr : Network → String
  | testnet => "testnet"
  | mainnet => "mainnet"

def Network.passphrase : Network → String
  | testnet => Signing.testnetPassphrase
  | mainnet => Signing.mainnetPassphrase

inductive EnvError
  | missingVar (var : String)
  | invalidVar (var reason : String)
  | tokenConfig (error : ConfigError)
  deriving DecidableEq

/-- The variable that the text of the error names. -/
def EnvError.var : EnvError → String
  | missingVar var => var
  | invalidVar var _ => var
  | tokenConfig _ => "PRICE_FEED_CONFIG"

/-- Times are in milliseconds. -/
structure Config (A F : Type) where
  bindAddr : A
  network : Network
  networkPassphrase : String
  stellarRpcUrl : String
  horizonUrl : String
  oracleContractId : String
  roleStoreContractId : String
  dataStoreContractId : String
  orderHandlerContractId : String
  depositHandlerContractId : String
  withdrawalHandlerContractId : String
  readerContractId : String
  keeperPrivateKey : String
  keeperSecretKey : String
  keeperAccountId : String
  keeperIndex : Nat
  adminApiToken : Option String
  pythApiKey : Option String
  minKeeperBalanceXlm : F
  setPricesTxFee : Nat
  keeperTxFee : Nat
  priceLoopInterval : Nat
  keeperLoopInterval : Nat
  tokens : List TokenConfig
  coinbaseBaseUrl : String
  binanceBaseUrl : String

def defaultBindAddr : String := "0.0.0.0:8080"

def defaultMinKeeperBalanceXlm : String := "10"

section Balance

variable {F : Type} (ops : FloatOps F)

def isFinite (x : F) : Bool := ops.lt (ops.abs x) ops.infinity

def acceptsBalance (x : F) : Bool := isFinite ops x && !ops.lt x (ops.ofInt 0)

end Balance

/-- The floats and the parsers of the standard library, the parser of the token
list and the list the binary embeds. Both defaults are literals of their type. -/
structure Parsers (A F : Type) where
  ops : FloatOps F
  socketAddr : String → Except String A
  f64 : String → Except String F
  f64Text : F → String
  crates : Crates
  priceFeedConfig : String → Except ConfigError (List TokenConfig)
  tokensJson : String
  bindAddr : A
  bindAddr_eq : socketAddr defaultBindAddr = .ok bindAddr
  minBalance_eq : f64 defaultMinKeeperBalanceXlm = .ok (ops.ofInt 10)
  minBalance_ok : acceptsBalance ops (ops.ofInt 10) = true

section Integers

/-- `from_str_radix` reads from the left, so that a text that is both too large
and malformed is reported by what comes first. -/
def readDigits (bound : Nat) : Nat → List Char → Except String Nat
  | n, [] => .ok n
  | n, c :: cs =>
      if c.isDigit = false then .error "invalid digit found in string"
      else if bound ≤ 10 * n + (c.toNat - '0'.toNat) then
        .error "number too large to fit in target type"
      else readDigits bound (10 * n + (c.toNat - '0'.toNat)) cs

def parseUnsigned (bound : Nat) (s : String) : Except String Nat :=
  match s.toList with
  | [] => .error "cannot parse integer from empty string"
  | ['+'] => .error "invalid digit found in string"
  | '+' :: digits => readDigits bound 0 digits
  | digits => readDigits bound 0 digits

def parseU32 (s : String) : Except String Nat := parseUnsigned (2 ^ 32) s

def parseU64 (s : String) : Except String Nat := parseUnsigned (2 ^ 64) s

end Integers

section Variables

variable {T : Type} (lookup : String → Option String)

/-- A variable that is set to white space alone counts as unset. -/
def given (var : String) : Option String := (lookup var).filter fun value => trim value ≠ ""

def required (var : String) : Except EnvError String :=
  match given lookup var with
  | some value => .ok value
  | none => .error (.missingVar var)

def oracleContractIdOrAlias : String := "ORACLE_CONTRACT_ID' (or fallback alias 'ORACLE')"

def requiredAny (primary fallback : String) : Except EnvError String :=
  match (given lookup primary).or (given lookup fallback) with
  | some value => .ok value
  | none => .error (.missingVar oracleContractIdOrAlias)

def parseOrDefault (parse : String → Except String T) (var default : String) :
    Except EnvError T :=
  (parse ((given lookup var).getD default)).mapError (.invalidVar var)

def validateHexKey (crates : Crates) (var value : String) (expectedLen : Nat) :
    Except EnvError String :=
  match crates.hexDecode value with
  | .error e => .error (.invalidVar var e)
  | .ok bytes =>
      if bytes.length ≠ expectedLen then
        .error (.invalidVar var
          ("expected " ++ toString expectedLen ++ " bytes, got " ++ toString bytes.length))
      else .ok value

def isBase32Char (c : Char) : Bool := ('A' ≤ c && c ≤ 'Z') || ('2' ≤ c && c ≤ '7')

def validateStrkey (var value : String) (letter : Char) : Except EnvError String :=
  if value.utf8ByteSize ≠ 56 then
    .error (.invalidVar var ("expected 56 characters, got " ++ toString value.utf8ByteSize))
  else if startsWith value (String.singleton letter) = false then
    .error (.invalidVar var ("must start with '" ++ String.singleton letter ++ "'"))
  else
    match value.toList.find? fun c => !isBase32Char c with
    | some bad =>
        .error (.invalidVar var
          ("invalid base32 character '" ++ String.singleton bad ++ "' (expected A-Z, 2-7)"))
    | none => .ok value

def minAdminApiTokenLen : Nat := 32

def adminApiTokenPlaceholder : String := "your-admin-api-token-here"

def validateAdminApiToken (token : String) : Except String Unit :=
  if trim token = adminApiTokenPlaceholder then
    .error "is still the .env.example placeholder; generate a random token"
  else if (trim token).length < minAdminApiTokenLen then
    .error ("must be at least " ++ toString minAdminApiTokenLen ++
      " characters (e.g. \x60openssl rand -hex 32\x60)")
  else .ok ()

end Variables

section Fields

variable {A F : Type} (parsers : Parsers A F) (lookup : String → Option String)

def readNetwork : Collected EnvError Network :=
  let raw := (lookup "STELLAR_NETWORK").getD "testnet"
  if raw = "testnet" then pure .testnet
  else if raw = "mainnet" then pure .mainnet
  else ⟨.testnet, [.invalidVar "STELLAR_NETWORK"
    ("unknown network '" ++ raw ++ "'; expected 'testnet' or 'mainnet'")]⟩

def readBindAddr : Collected EnvError A :=
  collectOrDefault parsers.bindAddr
    (parseOrDefault lookup parsers.socketAddr "BIND_ADDR" defaultBindAddr)

def readRequired (var : String) : Collected EnvError String :=
  collectOrDefault "" (required lookup var)

def readRpcUrl : Network → Collected EnvError String
  | .testnet => pure ((lookup "STELLAR_RPC_URL").getD "https://soroban-testnet.stellar.org")
  | .mainnet => readRequired lookup "STELLAR_RPC_URL"

def horizonUrl (network : Network) : String :=
  (lookup "HORIZON_URL").getD
    (match network with
      | .testnet => "https://horizon-testnet.stellar.org"
      | .mainnet => "https://horizon.stellar.org")

def readOracleContractId : Network → Collected EnvError String
  | .mainnet => readRequired lookup "ORACLE_CONTRACT_ID"
  | .testnet => collectOrDefault "" (requiredAny lookup "ORACLE_CONTRACT_ID" "ORACLE")

def readTokens : Collected EnvError (List TokenConfig) :=
  collectOrDefault []
    ((parsers.priceFeedConfig ((lookup "PRICE_FEED_CONFIG").getD parsers.tokensJson)).mapError
      .tokenConfig)

/-- A key is checked further only where it is there. -/
def readKey (var : String) (validate : String → Except EnvError String) :
    Collected EnvError String := do
  let raw ← readRequired lookup var
  if raw ≠ "" then collectOrDefault "" (validate raw) else pure ""

def readKeeperPrivateKey : Collected EnvError String :=
  readKey lookup "KEEPER_PRIVATE_KEY"
    fun raw => validateHexKey parsers.crates "KEEPER_PRIVATE_KEY" raw 32

def readKeeperSecretKey : Collected EnvError String :=
  readKey lookup "KEEPER_SECRET_KEY" fun raw => validateStrkey "KEEPER_SECRET_KEY" raw 'S'

def readKeeperAccountId : Collected EnvError String :=
  readKey lookup "KEEPER_ACCOUNT_ID" fun raw => validateStrkey "KEEPER_ACCOUNT_ID" raw 'G'

def readKeeperIndex : Collected EnvError Nat :=
  collectOrDefault 0 (parseOrDefault lookup parseU32 "KEEPER_INDEX" "0")

def readAdminApiToken : Collected EnvError (Option String) :=
  match given lookup "ADMIN_API_TOKEN" with
  | none => pure none
  | some value =>
      match validateAdminApiToken value with
      | .ok () => pure (some value)
      | .error reason => ⟨none, [.invalidVar "ADMIN_API_TOKEN" reason]⟩

def readMinKeeperBalance : Collected EnvError F :=
  collectOrDefault (parsers.ops.ofInt 10) do
    let value ← parseOrDefault lookup parsers.f64 "MIN_KEEPER_BALANCE_XLM"
      defaultMinKeeperBalanceXlm
    if acceptsBalance parsers.ops value = false then
      .error (.invalidVar "MIN_KEEPER_BALANCE_XLM"
        ("must be a finite, non-negative number, got " ++ parsers.f64Text value))
    else pure value

/-- The fees and the intervals are read alike. -/
def readPositive (parse : String → Except String Nat) (var : String) (default : Nat) :
    Collected EnvError Nat :=
  collectOrDefault default do
    let value ← parseOrDefault lookup parse var (toString default)
    if value = 0 then .error (.invalidVar var "must be greater than 0") else pure value

def defaultSetPricesTxFee : Nat := 1000000

def defaultKeeperTxFee : Nat := 2000000

def defaultPriceLoopMs : Nat := 1000

def defaultKeeperLoopMs : Nat := 1500

def readSetPricesTxFee : Collected EnvError Nat :=
  readPositive lookup parseU32 "SET_PRICES_TX_FEE" defaultSetPricesTxFee

def readKeeperTxFee : Collected EnvError Nat :=
  readPositive lookup parseU32 "KEEPER_TX_FEE" defaultKeeperTxFee

def readPriceLoopInterval : Collected EnvError Nat :=
  readPositive lookup parseU64 "PRICE_LOOP_MS" defaultPriceLoopMs

def readKeeperLoopInterval : Collected EnvError Nat :=
  readPositive lookup parseU64 "KEEPER_LOOP_MS" defaultKeeperLoopMs

end Fields

section Roles

/-- Each contract identifier under the first variable that is set to it. -/
abbrev SeenRoles := List (String × String)

def sameContract (var previous value : String) : EnvError :=
  .invalidVar var ("is set to the same contract ID as " ++ previous ++ " (" ++ value ++
    "); each contract role must point at a distinct contract")

def checkRoles : SeenRoles → List (String × String) → List EnvError
  | _, [] => []
  | seen, (var, raw) :: roles =>
      if trim raw = "" then checkRoles seen roles
      else
        match seen.lookup (trim raw) with
        | some previous => sameContract var previous (trim raw) :: checkRoles seen roles
        | none => checkRoles ((trim raw, var) :: seen) roles

end Roles

section FromLookup

variable {A F : Type} (parsers : Parsers A F) (lookup : String → Option String)

def contractRoles (cfg : Config A F) : List (String × String) :=
  [("ORACLE_CONTRACT_ID", cfg.oracleContractId), ("ROLE_STORE", cfg.roleStoreContractId),
    ("DATA_STORE", cfg.dataStoreContractId), ("ORDER_HANDLER", cfg.orderHandlerContractId),
    ("DEPOSIT_HANDLER", cfg.depositHandlerContractId),
    ("WITHDRAWAL_HANDLER", cfg.withdrawalHandlerContractId), ("READER", cfg.readerContractId)]

def coinbaseExchangeRatesUrl : String := "https://api.coinbase.com/v2/exchange-rates?currency="

def binanceTickerPriceUrl : String := "https://data-api.binance.vision/api/v3/ticker/price"

/-- The fields in the order in which they are read and their errors collected. -/
def readFields : Collected EnvError (Config A F) := do
  let network ← readNetwork lookup
  let bindAddr ← readBindAddr parsers lookup
  let stellarRpcUrl ← readRpcUrl lookup network
  let oracleContractId ← readOracleContractId lookup network
  let tokens ← readTokens parsers lookup
  let roleStoreContractId ← readRequired lookup "ROLE_STORE"
  let dataStoreContractId ← readRequired lookup "DATA_STORE"
  let orderHandlerContractId ← readRequired lookup "ORDER_HANDLER"
  let depositHandlerContractId ← readRequired lookup "DEPOSIT_HANDLER"
  let withdrawalHandlerContractId ← readRequired lookup "WITHDRAWAL_HANDLER"
  let readerContractId ← readRequired lookup "READER"
  let keeperPrivateKey ← readKeeperPrivateKey parsers lookup
  let keeperSecretKey ← readKeeperSecretKey lookup
  let keeperAccountId ← readKeeperAccountId lookup
  let keeperIndex ← readKeeperIndex lookup
  let adminApiToken ← readAdminApiToken lookup
  let minKeeperBalanceXlm ← readMinKeeperBalance parsers lookup
  let setPricesTxFee ← readSetPricesTxFee lookup
  let keeperTxFee ← readKeeperTxFee lookup
  let priceLoopInterval ← readPriceLoopInterval lookup
  let keeperLoopInterval ← readKeeperLoopInterval lookup
  pure
    { bindAddr, network, networkPassphrase := network.passphrase, stellarRpcUrl,
      horizonUrl := horizonUrl lookup network, oracleContractId, roleStoreContractId,
      dataStoreContractId, orderHandlerContractId, depositHandlerContractId,
      withdrawalHandlerContractId, readerContractId, keeperPrivateKey, keeperSecretKey,
      keeperAccountId, keeperIndex, adminApiToken, pythApiKey := given lookup "PYTH_API_KEY",
      minKeeperBalanceXlm, setPricesTxFee, keeperTxFee, priceLoopInterval, keeperLoopInterval,
      tokens, coinbaseBaseUrl := coinbaseExchangeRatesUrl,
      binanceBaseUrl := binanceTickerPriceUrl }

def rolesApart (cfg : Config A F) : Collected EnvError (Config A F) :=
  ⟨cfg, checkRoles [] (contractRoles cfg)⟩

def fromLookup : Except (List EnvError) (Config A F) :=
  (readFields parsers lookup >>= rolesApart).result

end FromLookup

end So4Oracle.Environment
