import So4Oracle.Library.BigEndian
import So4Oracle.RustText
import So4Oracle.Wire

namespace So4Oracle.Signing

open Library.BigEndian RustText Wire

inductive SigningError
  | missingPrivateKey
  | invalidHexKey
  | invalidKeyLength
  deriving DecidableEq, Repr

def SigningError.display : SigningError → String
  | missingPrivateKey => "KEEPER_PRIVATE_KEY is not set"
  | invalidHexKey => "KEEPER_PRIVATE_KEY is not valid hex"
  | invalidKeyLength => "KEEPER_PRIVATE_KEY must be exactly 32 bytes (64 hex chars)"

structure SigningKey where
  seed : List UInt8
  length_seed : seed.length = 32
  deriving DecidableEq

structure Signature where
  bytes : List UInt8
  length_bytes : bytes.length = 64
  deriving DecidableEq

/-- The fields one after the other, with neither lengths nor separators. -/
def buildPriceMessage (networkPassphrase : String) (ledgerSeq : Nat) (tokenStrkey : String)
    (min max : Int) (timestamp : Nat) : List UInt8 :=
  asBytes networkPassphrase ++ encode 4 ledgerSeq ++ asBytes tokenStrkey ++ encodeSigned 16 min ++
    encodeSigned 16 max ++ encode 8 timestamp

def signingKeyFromHex (crates : Crates) (privateKeyHex : String) : Except SigningError SigningKey :=
  match crates.hexDecode privateKeyHex with
  | .error _ => .error .invalidHexKey
  | .ok keyBytes =>
      if h : keyBytes.length = 32 then .ok ⟨keyBytes, h⟩ else .error .invalidKeyLength

/-- The signature scheme, of which nothing is assumed. -/
abbrev Signer := SigningKey → List UInt8 → Signature

def signPriceWithKey (signer : Signer) (signingKey : SigningKey) (networkPassphrase : String)
    (ledgerSeq : Nat) (tokenStrkey : String) (min max : Int) (timestamp : Nat) : Signature :=
  signer signingKey
    (buildPriceMessage networkPassphrase ledgerSeq tokenStrkey min max timestamp)

def signPrice (crates : Crates) (signer : Signer) (privateKeyHex networkPassphrase : String)
    (ledgerSeq : Nat) (tokenStrkey : String) (min max : Int) (timestamp : Nat) :
    Except SigningError Signature := do
  let signingKey ← signingKeyFromHex crates privateKeyHex
  pure (signPriceWithKey signer signingKey networkPassphrase ledgerSeq tokenStrkey min max timestamp)

section Networks

def mainnetPassphrase : String := "Public Global Stellar Network ; November 2015"

def testnetPassphrase : String := "Test SDF Network ; September 2015"

def futurenetPassphrase : String := "Test SDF Futurenet ; October 2022"

inductive Network
  | mainnet
  | testnet
  | futurenet
  deriving DecidableEq, Repr

def Network.passphrase : Network → String
  | mainnet => mainnetPassphrase
  | testnet => testnetPassphrase
  | futurenet => futurenetPassphrase

/-- Two of the passphrases have one length, and none is another. -/
theorem Network.passphrase_inj {network network' : Network}
    (h : asBytes network.passphrase = asBytes network'.passphrase) : network = network' := by
  revert h
  cases network <;> cases network' <;> decide +kernel

end Networks

section Messages

/-- What a price message says, each field within its type and the token an
encoded contract address. -/
@[ext] structure PriceUpdate where
  network : Network
  ledgerSeq : Nat
  tokenStrkey : String
  min : Int
  max : Int
  timestamp : Nat
  ledgerSeq_lt : ledgerSeq < 2 ^ 32
  tokenStrkey_size : tokenStrkey.utf8ByteSize = 56
  min_fits : Fits 16 min
  max_fits : Fits 16 max
  timestamp_lt : timestamp < 2 ^ 64

namespace PriceUpdate

variable (update update' : PriceUpdate)

def message : List UInt8 :=
  buildPriceMessage update.network.passphrase update.ledgerSeq update.tokenStrkey update.min
    update.max update.timestamp

theorem length_message :
    update.message.length = (asBytes update.network.passphrase).length + 100 := by
  simp [message, buildPriceMessage, length_asBytes, update.tokenStrkey_size]

variable {update update'}

/-- The length tells mainnet from the others, whose passphrases are as long as
each other and so end at the same byte. -/
theorem length_passphrase_eq (h : update.message = update'.message) :
    (asBytes update.network.passphrase).length = (asBytes update'.network.passphrase).length := by
  have hlength := congrArg List.length h
  rw [length_message, length_message] at hlength
  omega

theorem message_injective : Function.Injective message := by
  intro update update' h
  have hpassphrase := length_passphrase_eq h
  rw [message, buildPriceMessage] at h
  obtain ⟨h, htimestamp⟩ := List.append_inj' h (by simp)
  obtain ⟨h, hmax⟩ := List.append_inj' h (by simp)
  obtain ⟨h, hmin⟩ := List.append_inj' h (by simp)
  obtain ⟨h, htoken⟩ := List.append_inj' h (by
    rw [length_asBytes, length_asBytes, update.tokenStrkey_size, update'.tokenStrkey_size])
  obtain ⟨hnetwork, hledger⟩ := List.append_inj h hpassphrase
  apply PriceUpdate.ext
  · exact Network.passphrase_inj hnetwork
  · exact encode_inj update.ledgerSeq_lt update'.ledgerSeq_lt hledger
  · exact asBytes_inj htoken
  · exact encodeSigned_inj update.min_fits update'.min_fits hmin
  · exact encodeSigned_inj update.max_fits update'.max_fits hmax
  · exact encode_inj update.timestamp_lt update'.timestamp_lt htimestamp

def sampleUpdate : PriceUpdate where
  network := .testnet
  ledgerSeq := 123456
  tokenStrkey := "CAAAAAAAAAAAAAAAAAAAAAAAAAAAAAAAAAAAAAAAAAAAAAAAAAAAAAAA"
  min := 99 * 10 ^ 30
  max := 101 * 10 ^ 30
  timestamp := 1690000000
  ledgerSeq_lt := by decide
  tokenStrkey_size := by decide +kernel
  min_fits := ⟨by decide, by decide⟩
  max_fits := ⟨by decide, by decide⟩
  timestamp_lt := by decide

/-- The same for the other network whose passphrase is as long. -/
def futureUpdate : PriceUpdate := { sampleUpdate with network := .futurenet }

theorem message_injective_networks :
    sampleUpdate.message.length = futureUpdate.message.length ∧
      sampleUpdate.message ≠ futureUpdate.message := by
  refine ⟨by decide +kernel, fun h => ?_⟩
  exact absurd (congrArg network (message_injective h)) (by decide)

end PriceUpdate

end Messages

end So4Oracle.Signing
