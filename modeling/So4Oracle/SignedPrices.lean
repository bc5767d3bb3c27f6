import So4Oracle.Chain
import So4Oracle.Library.Hex
import So4Oracle.PriceCycle
import So4Oracle.Signing
import So4Oracle.SubmitOutcome

namespace So4Oracle.SignedPrices

open Library.Checked Library.BigEndian Wire Config State Chain Prices PriceCycle Signing

variable {F : Type} (crates : Crates) (hexEncode : List UInt8 → String)
  (contractStrkey : List UInt8 → String)

/-- The key that is decoded at start-up. -/
def priceSigningKey (keeperPrivateKey : String) : Option SigningKey :=
  (signingKeyFromHex crates keeperPrivateKey).toOption

/-- With the decoded key, or from its text where there is none. -/
def hexSignature (signer : Signer) (signingKey : Option SigningKey)
    (keeperPrivateKey networkPassphrase : String) : SignPrice :=
  fun ledgerSeq tokenAddress min max timestamp =>
    match signingKey with
    | some key =>
        .ok (hexEncode (signPriceWithKey signer key networkPassphrase ledgerSeq tokenAddress min max
          timestamp).bytes)
    | none =>
        match signPrice crates signer keeperPrivateKey networkPassphrase ledgerSeq tokenAddress min
            max timestamp with
        | .ok signature => .ok (hexEncode signature.bytes)
        | .error e => .error e.display

section Decoding

/-- What the contract reads from the map of a signed price. -/
structure DecodedPrice where
  ledgerSeq : Nat
  token : String
  min : Int
  max : Int
  timestamp : Nat
  signature : List UInt8
  deriving DecidableEq, Repr

def decodeU32 : ScVal → Option Nat
  | .u32 n => if n < 2 ^ 32 then some n else none
  | _ => none

def decodeU64 : ScVal → Option Nat
  | .u64 n => if n < 2 ^ 64 then some n else none
  | _ => none

/-- The two halves, of which only the high one is signed. -/
def decodeI128 : ScVal → Option Int
  | .i128 hi lo =>
      if -(2 ^ 63) ≤ hi ∧ hi < 2 ^ 63 ∧ lo < 2 ^ 64 then some (hi * 2 ^ 64 + lo) else none
  | _ => none

def decodeBytes : ScVal → Option (List UInt8)
  | .bytes bs => some bs
  | _ => none

def decodeContract : ScVal → Option String
  | .address (.contract hash) => some (contractStrkey hash)
  | _ => none

def field (entries : List (String × ScVal)) (key : String) : Option ScVal :=
  (entries.find? fun entry => entry.1 == key).map Prod.snd

def decodeSignedPrice : ScVal → Option DecodedPrice
  | .map entries => do
      let ledgerSeq ← (field entries "ledger_seq").bind decodeU32
      let token ← (field entries "token").bind (decodeContract contractStrkey)
      let min ← (field entries "min_price").bind decodeI128
      let max ← (field entries "max_price").bind decodeI128
      let timestamp ← (field entries "timestamp").bind decodeU64
      let signature ← (field entries "signature").bind decodeBytes
      some { ledgerSeq, token, min, max, timestamp, signature }
  | _ => none

theorem decodeI128_parts {x : Int} (h : Fits 16 x) : decodeI128 (i128ToInt128Parts x) = some x := by
  obtain ⟨hlow, hhigh⟩ := h
  norm_num at hlow hhigh
  have hhalves := Int.mul_ediv_add_emod x (2 ^ 64)
  have hrange : -(2 ^ 63) ≤ x / 2 ^ 64 ∧ x / 2 ^ 64 < 2 ^ 63 ∧ (x % 2 ^ 64).toNat < 2 ^ 64 := by
    omega
  rw [i128ToInt128Parts, decodeI128, if_pos hrange]
  congr 1
  omega

end Decoding

section RoundTrip

/-- The text encodings of the linked crates give back what they encode. -/
structure RoundTrips : Prop where
  hex : ∀ bs, crates.hexDecode (hexEncode bs) = .ok bs
  strkey : ∀ strkey hash, crates.strkey strkey = .ok (.contract hash) → contractStrkey hash = strkey

/-- The fields of an aggregate that are signed are within their types. -/
structure Representable (aggregate : AggregatedPrice F) : Prop where
  min : Fits 16 aggregate.min
  max : Fits 16 aggregate.max
  minObservationTime : aggregate.minObservationTime < 2 ^ 64

variable {crates hexEncode contractStrkey} {signer : Signer} {settings : Settings}
  {signingKey : Option SigningKey} {keeperPrivateKey networkPassphrase : String} {key : SigningKey}

/-- Both ways to sign sign with the one key. -/
theorem hexSignature_eq (hkey : signingKeyFromHex crates keeperPrivateKey = .ok key)
    (hstate : signingKey = priceSigningKey crates keeperPrivateKey ∨ signingKey = none)
    (ledgerSeq : Nat) (tokenAddress : String) (min max : Int) (timestamp : Nat) :
    hexSignature crates hexEncode signer signingKey keeperPrivateKey networkPassphrase ledgerSeq
        tokenAddress min max timestamp =
      .ok (hexEncode (signer key
        (buildPriceMessage networkPassphrase ledgerSeq tokenAddress min max timestamp)).bytes) := by
  rcases hstate with rfl | rfl
  · rw [priceSigningKey, hkey]
    rfl
  · rw [hexSignature, signPrice, hkey]
    rfl

variable {token : TokenConfig} {hash : List UInt8} {ledgerSeq : Nat} {aggregate : AggregatedPrice F}

theorem signedCachedPrice_fields {signPrice : SignPrice} {signature : String}
    (h : signPrice ledgerSeq token.stellarAddress aggregate.min aggregate.max
      aggregate.minObservationTime = .ok signature) :
    ∃ price, signedCachedPrice settings signPrice token ledgerSeq aggregate = .ok price ∧
      price.tokenAddress = token.stellarAddress ∧ price.min = aggregate.min ∧
      price.max = aggregate.max ∧ price.timestamp = aggregate.minObservationTime ∧
      price.ledgerSeq = ledgerSeq ∧ price.signature = signature :=
  ⟨_, bind_eq_ok.mpr ⟨signature, h, rfl⟩, rfl, rfl, rfl, rfl, rfl, rfl⟩

theorem encodeSignedPrice_decodes (htrips : RoundTrips crates hexEncode contractStrkey)
    {price : CachedPrice} {signature : Signature} (hsignature : price.signature = hexEncode signature.bytes)
    (hstrkey : crates.strkey price.tokenAddress = .ok (.contract hash)) (hmin : Fits 16 price.min)
    (hmax : Fits 16 price.max) (hledger : price.ledgerSeq < 2 ^ 32) (htime : price.timestamp < 2 ^ 64) :
    ∃ scval, encodeSignedPrice crates price = .ok scval ∧ decodeSignedPrice contractStrkey scval =
      some ⟨price.ledgerSeq, price.tokenAddress, price.min, price.max, price.timestamp,
        signature.bytes⟩ := by
  have haddress : strkeyToScAddress crates price.tokenAddress = .ok (.contract hash) := by
    rw [strkeyToScAddress, hstrkey]
  rw [encodeSignedPrice, hsignature, htrips.hex]
  dsimp only
  rw [if_neg (not_not.mpr signature.length_bytes), haddress]
  refine ⟨_, rfl, ?_⟩
  have hledgerSeq : decodeU32 (.u32 price.ledgerSeq) = some price.ledgerSeq := if_pos hledger
  have htimestamp : decodeU64 (.u64 price.timestamp) = some price.timestamp := if_pos htime
  simp [decodeSignedPrice, field, decodeBytes, decodeContract, decodeI128_parts hmin,
    decodeI128_parts hmax, hledgerSeq, htimestamp, htrips.strkey _ _ hstrkey]

/-- The price that is submitted is the one that was signed. -/
theorem signedCachedPrice_decodes (htrips : RoundTrips crates hexEncode contractStrkey)
    (hkey : signingKeyFromHex crates keeperPrivateKey = .ok key)
    (hstate : signingKey = priceSigningKey crates keeperPrivateKey ∨ signingKey = none)
    (hstrkey : crates.strkey token.stellarAddress = .ok (.contract hash)) (hledger : ledgerSeq < 2 ^ 32)
    (haggregate : Representable aggregate) :
    ∃ price scval decoded message,
      signedCachedPrice settings
          (hexSignature crates hexEncode signer signingKey keeperPrivateKey networkPassphrase) token
          ledgerSeq aggregate = .ok price ∧
        message = buildPriceMessage networkPassphrase ledgerSeq token.stellarAddress aggregate.min
          aggregate.max aggregate.minObservationTime ∧
        price.signature = hexEncode (signer key message).bytes ∧
        encodeSignedPrice crates price = .ok scval ∧
        decodeSignedPrice contractStrkey scval = some decoded ∧
        buildPriceMessage networkPassphrase decoded.ledgerSeq decoded.token decoded.min decoded.max
          decoded.timestamp = message ∧
        decoded.signature = (signer key message).bytes := by
  have hsigned : hexSignature crates hexEncode signer signingKey keeperPrivateKey networkPassphrase
      ledgerSeq token.stellarAddress aggregate.min aggregate.max aggregate.minObservationTime =
        .ok (hexEncode (signer key (buildPriceMessage networkPassphrase ledgerSeq token.stellarAddress
          aggregate.min aggregate.max aggregate.minObservationTime)).bytes) :=
    hexSignature_eq hkey hstate _ _ _ _ _
  obtain ⟨price, hprice, haddress, hmin, hmax, htime, hseq, hsignature⟩ :=
    signedCachedPrice_fields hsigned
  obtain ⟨scval, hscval, hdecoded⟩ := encodeSignedPrice_decodes htrips hsignature
    (haddress ▸ hstrkey) (hmin ▸ haggregate.min) (hmax ▸ haggregate.max) (hseq ▸ hledger)
    (htime ▸ haggregate.minObservationTime)
  refine ⟨price, scval, _, _, hprice, rfl, hsignature, hscval, hdecoded, ?_, rfl⟩
  rw [haddress, hmin, hmax, htime, hseq]

end RoundTrip

section Samples

def sampleStrkey : String := "CBAN5YU3KRDKPTQ2H76D6S7HQFPRBGUD524F65BUM2RQCITPTRLKWKES"

def sampleHash : List UInt8 :=
  [64, 222, 226, 155, 84, 70, 167, 206, 26, 63, 252, 63, 75, 231, 129, 95, 16, 154, 131, 238, 184,
    95, 116, 52, 102, 163, 1, 34, 111, 156, 86, 171]

/-- The crates on one contract address and all hexadecimal text. -/
def addressCrates : Crates :=
  { SubmitOutcome.sampleCrates with
    strkey := fun s =>
      if s = sampleStrkey then .ok (.contract sampleHash) else .error "the strkey is invalid"
    hexDecode := fun s =>
      match Library.Hex.decode s with
      | some bs => .ok bs
      | none => .error "invalid hex" }

theorem addressCrates_roundTrips :
    RoundTrips addressCrates Library.Hex.encode (fun _ => sampleStrkey) where
  hex bs := by
    show (match Library.Hex.decode (Library.Hex.encode bs) with
      | some bs => .ok bs
      | none => .error "invalid hex" : Except String (List UInt8)) = .ok bs
    rw [Library.Hex.decode_encode]
  strkey strkey hash h := by
    by_contra hne
    have hinvalid : addressCrates.strkey strkey = .error "the strkey is invalid" :=
      if_neg (Ne.symm hne)
    rw [hinvalid] at h
    cases h

def sampleKeyText : String := "1111111111111111111111111111111111111111111111111111111111111111"

def sampleKey : SigningKey := ⟨List.replicate 32 0x11, rfl⟩

/-- What the key above signs the sample update with. -/
def sampleSignature : Signature where
  bytes := [225, 213, 38, 56, 204, 27, 195, 132, 118, 96, 187, 110, 16, 97, 3, 90, 78, 68, 51, 240, 166,
    208, 28, 166, 54, 112, 199, 12, 192, 45, 112, 133, 135, 70, 133, 103, 5, 86, 251, 31, 12, 184, 207,
    7, 235, 52, 189, 77, 0, 199, 74, 96, 136, 2, 117, 213, 145, 194, 185, 250, 227, 33, 134, 0]
  length_bytes := rfl

def sampleAddressed : TokenConfig :=
  { defaultTokenConfig with symbol := "BTC", stellarAddress := sampleStrkey }

def sampleAggregate : AggregatedPrice (Option ℚ) where
  min := 99 * 10 ^ 30
  max := 101 * 10 ^ 30
  median := 100 * 10 ^ 30
  sourcesUsed := ["binance", "pyth"]
  rejectedSources := []
  minObservationTime := 1690000000

theorem sampleAggregate_representable : Representable sampleAggregate where
  min := ⟨by decide, by decide⟩
  max := ⟨by decide, by decide⟩
  minObservationTime := by decide

theorem signedCachedPrice_decodes_sample :
    ∃ price scval decoded message,
      signedCachedPrice sampleSettings
          (hexSignature addressCrates Library.Hex.encode (fun _ _ => sampleSignature)
            (priceSigningKey addressCrates sampleKeyText) sampleKeyText testnetPassphrase)
          sampleAddressed 123456 sampleAggregate = .ok price ∧
        message = buildPriceMessage testnetPassphrase 123456 sampleStrkey (99 * 10 ^ 30)
          (101 * 10 ^ 30) 1690000000 ∧
        price.signature = Library.Hex.encode sampleSignature.bytes ∧
        encodeSignedPrice addressCrates price = .ok scval ∧
        decodeSignedPrice (fun _ => sampleStrkey) scval = some decoded ∧
        buildPriceMessage testnetPassphrase decoded.ledgerSeq decoded.token decoded.min decoded.max
          decoded.timestamp = message ∧
        decoded.signature = sampleSignature.bytes := by
  have hkey : signingKeyFromHex addressCrates sampleKeyText = .ok sampleKey := by decide +kernel
  have hstrkey : addressCrates.strkey sampleStrkey = .ok (.contract sampleHash) := by decide +kernel
  exact signedCachedPrice_decodes addressCrates_roundTrips hkey (.inl rfl) hstrkey (by decide)
    sampleAggregate_representable

end Samples

end So4Oracle.SignedPrices
