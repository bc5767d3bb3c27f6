import So4Oracle.Config
import So4Oracle.Library.Checked
import So4Oracle.Library.Requests

namespace So4Oracle.PendingKeys

open Library.Checked Library.Requests Wire Config

inductive Kind
  | orders
  | deposits
  | withdrawals
  deriving DecidableEq, Repr

namespace Kind

def countMethod : Kind → String
  | orders => "get_order_count"
  | deposits => "get_deposit_count"
  | withdrawals => "get_withdrawal_count"

def keysMethod : Kind → String
  | orders => "get_order_keys"
  | deposits => "get_deposit_keys"
  | withdrawals => "get_withdrawal_keys"

end Kind

inductive PendingRequest
  | simulateContractCall (contractId method : String) (args : List String)
  | advanceStartIndex (count : Nat)

@[reducible] def PendingRequest.Answer : PendingRequest → Type
  | simulateContractCall _ _ _ => Except String String
  | advanceStartIndex _ => Panicking Nat

abbrev PendingProgram := Program PendingRequest PendingRequest.Answer

variable (crates : Crates)

def u32? (v : Option Nat) : Option Nat := v.filter fun n => n < 2 ^ 32

def parseU32FromResult (result : String) : Except String Nat :=
  match crates.json result with
  | .error e => .error ("failed to parse result: " ++ e)
  | .ok value =>
      match (u32? value.asU64?).or ((value.get? "u32").bind fun v => u32? v.asU64?) with
      | some n => .ok n
      | none => .error ("expected u32 value, got: " ++ crates.jsonText value)

def parseKey (item : Json) : Except String String :=
  match (item.get? "bytes").or (item.get? "Bytes") with
  | none => .error ("vector entry missing 'bytes' field: " ++ crates.jsonText item)
  | some bytes =>
      match bytes.asStr? with
      | none => .error ("'bytes' field is not a string: " ++ crates.jsonText item)
      | some hex => .ok hex

def parseBytesVecFromResult (result : String) : Except String (List String) :=
  match crates.json result with
  | .error e => .error ("failed to parse result: " ++ e)
  | .ok value =>
      match ((value.get? "vec").or (value.get? "Vec")).getD value with
      | .array items => items.mapM (parseKey crates)
      | other => .error ("expected array, got: " ++ crates.jsonText other)

/-- The update that is applied to the shared index in one atomic step. -/
def nextStartIndex (count prev : Nat) : Panicking Nat :=
  if count ≤ 1 then .ok 0
  else if prev + 1 < 2 ^ 32 then .ok ((prev + 1) % count)
  else .error .overflow

def rotateFrom (start : Nat) (keys : List String) : List String :=
  if 0 < start ∧ start < keys.length then keys.drop start ++ keys.take start else keys

def checkedKeys (keysMethod : String) (count start : Nat) (result : String) :
    Except String (List String) := do
  let keys ← parseBytesVecFromResult crates result
  if keys.length ≠ count then
    .error ("expected " ++ toString count ++ " keys from " ++ keysMethod ++ ", got " ++
      toString keys.length)
  else .ok (rotateFrom start keys)

variable (settings : Settings)

def keysArgs (start count : Nat) : List String :=
  [settings.dataStoreContractId, toString start, toString count]

def fetchKeys (keysMethod : String) (count : Nat) :
    Panicking Nat → PendingProgram (Panicking (Except String (List String)))
  | .error fault => pure (.error fault)
  | .ok start => do
      match ← Program.request (PendingRequest.simulateContractCall settings.readerContractId
          keysMethod (keysArgs settings start count)) with
      | .error e => pure (.ok (.error e))
      | .ok result => pure (.ok (checkedKeys crates keysMethod count start result))

def fetchFrom (keysMethod : String) :
    Except String String → PendingProgram (Panicking (Except String (List String)))
  | .error e => pure (.ok (.error e))
  | .ok countResult =>
      match parseU32FromResult crates countResult with
      | .error e => pure (.ok (.error e))
      | .ok count =>
          if count = 0 then pure (.ok (.ok []))
          else Program.request (PendingRequest.advanceStartIndex count) >>=
            fetchKeys crates settings keysMethod count

/-- The index that `fetch_update` hands back, and with which the keys are
fetched, is the one it replaced. -/
def getPendingKeys (countMethod keysMethod : String) :
    PendingProgram (Panicking (Except String (List String))) :=
  Program.request (PendingRequest.simulateContractCall settings.readerContractId countMethod
    [settings.dataStoreContractId]) >>= fetchFrom crates settings keysMethod

theorem parseU32FromResult_lt {result : String} {n : Nat}
    (h : parseU32FromResult crates result = .ok n) : n < 2 ^ 32 := by
  rw [parseU32FromResult] at h
  split at h
  next => cases h
  next value hv =>
    split at h
    next m hm =>
      cases h
      rcases Option.or_eq_some_iff.mp hm with hm | ⟨-, hm⟩
      · exact of_decide_eq_true (Option.filter_eq_some_iff.mp hm).2
      · obtain ⟨v, -, hv⟩ := Option.bind_eq_some_iff.mp hm
        exact of_decide_eq_true (Option.filter_eq_some_iff.mp hv).2
    next => cases h

theorem nextStartIndex_lt {count prev next : Nat} (h : nextStartIndex count prev = .ok next)
    (hcount : 0 < count) : next < count := by
  rw [nextStartIndex] at h
  split_ifs at h
  · cases h
    exact hcount
  · cases h
    exact Nat.mod_lt _ hcount

/-- Below the count, the index goes round. -/
theorem nextStartIndex_of_lt {count prev next : Nat} (hlt : prev < count)
    (h : nextStartIndex count prev = .ok next) : next = (prev + 1) % count := by
  rw [nextStartIndex] at h
  split_ifs at h with hone
  · cases h
    obtain rfl : count = 1 := by omega
    exact (Nat.mod_one _).symm
  · cases h
    rfl

theorem nextStartIndex_total (count : Nat) {prev : Nat} (h : prev + 1 < 2 ^ 32) :
    ∃ next, nextStartIndex count prev = .ok next := by
  by_cases hcount : count ≤ 1
  · exact ⟨0, if_pos hcount⟩
  · exact ⟨_, (if_neg hcount).trans (if_pos h)⟩

end So4Oracle.PendingKeys
