import So4Oracle.State

namespace So4Oracle.Chain

open Library.Checked Wire State

inductive ScAddress
  | account (key : List UInt8)
  | contract (hash : List UInt8)
  deriving DecidableEq, Repr

inductive ScVal
  | u32 (n : Nat)
  | u64 (n : Nat)
  | i128 (hi : Int) (lo : Nat)
  | bytes (bs : List UInt8)
  | symbol (s : String)
  | address (a : ScAddress)
  | vec (vals : List ScVal)
  | map (entries : List (String × ScVal))

def scSymbolLimit : Nat := 32

def u32Max : Nat := 2 ^ 32 - 1

def lengthExceedsMax : String := "xdr value max length exceeded"

variable (crates : Crates)

def strkeyToScAddress (strkey : String) : Except String ScAddress :=
  match crates.strkey strkey with
  | .error e => .error ("invalid strkey '" ++ strkey ++ "': " ++ e)
  | .ok (.publicKeyEd25519 pk) => .ok (.account pk)
  | .ok (.contract c) => .ok (.contract c)
  | .ok other => .error ("unsupported strkey type: " ++ crates.strkeyDebug other)

def accountStrkeyToMuxed (strkey : String) : Except String (List UInt8) :=
  match crates.strkey strkey with
  | .error e => .error ("invalid strkey '" ++ strkey ++ "': " ++ e)
  | .ok (.publicKeyEd25519 pk) => .ok pk
  | .ok other => .error ("expected G... account strkey, got: " ++ crates.strkeyDebug other)

def i128ToInt128Parts (value : Int) : ScVal := .i128 (value / 2 ^ 64) (value % 2 ^ 64).toNat

def encodeSignedPrice (price : CachedPrice) : Except String ScVal :=
  match crates.hexDecode price.signature with
  | .error e => .error ("invalid signature hex: " ++ e)
  | .ok sigBytes =>
      if sigBytes.length ≠ 64 then
        .error ("signature must be 64 bytes, got " ++ toString sigBytes.length)
      else do
        let contractAddr ← strkeyToScAddress crates price.tokenAddress
        pure (.map [
          ("keeper_index", .u32 price.keeperIndex),
          ("ledger_seq", .u32 price.ledgerSeq),
          ("max_price", i128ToInt128Parts price.max),
          ("min_price", i128ToInt128Parts price.min),
          ("signature", .bytes sigBytes),
          ("timestamp", .u64 price.timestamp),
          ("token", .address contractAddr)])

def encodePricesVec (prices : List CachedPrice) : Except String ScVal := do
  let vals ← prices.mapM (encodeSignedPrice crates)
  if vals.length ≤ u32Max then pure (.vec vals)
  else .error ("failed to build ScVec: " ++ lengthExceedsMax)

structure TimeBounds where
  minTime : Nat
  maxTime : Nat
  deriving DecidableEq, Repr

/-- The parts of a transaction that differ between calls. Memo, operation list
and extension are the same in all of them. -/
structure Transaction where
  sourceAccount : List UInt8
  fee : Nat
  seqNum : Int
  cond : Option TimeBounds
  contractAddress : ScAddress
  functionName : String
  args : List ScVal

def txMaxTimeSecs : Nat := 60

/-- The cast of an unsigned 64-bit integer to a signed one. -/
def asI64 (n : Nat) : Int := if n < 2 ^ 63 then n else n - 2 ^ 64

def saturatingAdd (a b : Nat) : Nat := min (a + b) (2 ^ 64 - 1)

def timeBounds (maxTime : Nat) : Option TimeBounds :=
  if 0 < maxTime then some ⟨0, maxTime⟩ else none

def buildInvokeTx (sourceAccount contractId method : String)
    (args : List ScVal) (fee sequence maxTime : Nat) : Except String Transaction := do
  let sourceMuxed ← accountStrkeyToMuxed crates sourceAccount
  let contractAddr ← strkeyToScAddress crates contractId
  if scSymbolLimit < method.utf8ByteSize then
    .error "method name too long for ScSymbol"
  else if u32Max < args.length then
    .error ("failed to convert args to VecM: " ++ lengthExceedsMax)
  else pure {
    sourceAccount := sourceMuxed
    fee := fee
    seqNum := asI64 sequence
    cond := timeBounds maxTime
    contractAddress := contractAddr
    functionName := method
    args := args }

variable {crates}

theorem buildInvokeTx_ok {sourceAccount contractId method : String} {args : List ScVal}
    {fee sequence maxTime : Nat} {tx : Transaction}
    (h : buildInvokeTx crates sourceAccount contractId method args fee sequence maxTime = .ok tx) :
    tx.seqNum = asI64 sequence ∧ tx.cond = timeBounds maxTime := by
  obtain ⟨sourceMuxed, -, h⟩ := bind_eq_ok.mp h
  obtain ⟨contractAddr, -, h⟩ := bind_eq_ok.mp h
  split_ifs at h
  cases h
  exact ⟨rfl, rfl⟩

theorem timeBounds_saturatingAdd (now : Nat) :
    timeBounds (saturatingAdd now txMaxTimeSecs) = some ⟨0, saturatingAdd now txMaxTimeSecs⟩ := by
  apply if_pos
  rw [saturatingAdd, txMaxTimeSecs]
  omega

theorem saturatingAdd_le (a b : Nat) : saturatingAdd a b ≤ a + b := Nat.min_le_left _ _

theorem asI64_le (n : Nat) : asI64 n ≤ n := by
  rw [asI64]
  split_ifs <;> omega

end So4Oracle.Chain
