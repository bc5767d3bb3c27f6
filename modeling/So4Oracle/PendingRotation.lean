import Mathlib.Data.List.Rotate
import So4Oracle.Library.Safety
import So4Oracle.PendingKeys
import So4Oracle.SubmitOutcome

namespace So4Oracle.PendingRotation

open Library.Checked Library.Requests Library.Safety Wire Config PendingKeys

variable (crates : Crates) (settings : Settings) (kind : Kind) (keys : List String)

/-- A reader contract that holds the given keys, and the stored start index as
the world. -/
def reader : Surroundings PendingRequest PendingRequest.Answer Nat where
  answer
    | .simulateContractCall _ method args, index, r, index' =>
        index' = index ∧
          (method = kind.countMethod →
            ∃ text, r = .ok text ∧ parseU32FromResult crates text = .ok keys.length) ∧
          ∀ start stop, method = kind.keysMethod → args = keysArgs settings start stop →
            ∃ text, r = .ok text ∧
              parseBytesVecFromResult crates text = .ok ((keys.take stop).drop start)
    | .advanceStartIndex count, index, r, index' =>
        match nextStartIndex count index with
        | .ok next => r = .ok index ∧ index' = next
        | .error fault => r = .error fault ∧ index' = index
  interfere _ _ := False

variable {crates settings kind keys}

theorem reader_interferes {w v : Nat} (h : (reader crates settings kind keys).Interferes w v) :
    v = w :=
  Surroundings.interferes_of_none (fun _ _ => id) h

/-- The keys returned for a start are one short for every key before it. -/
theorem checkedKeys_eq_ok {count start : Nat} {text : String} {l : List String}
    (hcount : count = keys.length)
    (hparse : parseBytesVecFromResult crates text = .ok ((keys.take count).drop start)) :
    checkedKeys crates kind.keysMethod count start text = .ok l ↔
      (keys = [] ∨ start = 0) ∧ l = keys := by
  have hlen : ((keys.take count).drop start).length = count - start := by
    rw [List.length_drop, List.length_take, hcount, Nat.min_self]
  simp only [checkedKeys, hparse, bind, Except.bind, hlen]
  by_cases hz : keys = [] ∨ start = 0
  · have hsame : ((keys.take count).drop start) = keys := by
      rcases hz with rfl | rfl
      · simp
      · rw [List.drop_zero, hcount, List.take_length]
    have hrotate : rotateFrom start keys = keys := by
      rcases hz with rfl | rfl
      · simp [rotateFrom]
      · simp [rotateFrom]
    have hcount' : count - start = count := by
      rcases hz with rfl | rfl
      · simp [hcount]
      · rfl
    rw [if_neg (by simp [hcount']), hsame, hrotate]
    constructor
    · intro h
      cases h
      exact ⟨hz, rfl⟩
    · rintro ⟨-, rfl⟩
      rfl
  · have hshort : count - start ≠ count := by
      rw [not_or, ← List.length_eq_zero_iff, ← hcount] at hz
      omega
    rw [if_pos hshort]
    constructor
    · intro h
      cases h
    · rintro ⟨h, -⟩
      exact absurd h hz

section Samples

def keysJson (keys : List String) : Json :=
  .array (keys.map fun key => .object [("bytes", .string key)])

def lastKeyText : String := "[\x7b\"bytes\":\"bb\"\x7d]"

def bothKeysText : String := "[\x7b\"bytes\":\"aa\"\x7d,\x7b\"bytes\":\"bb\"\x7d]"

def readerCrates : Crates :=
  { SubmitOutcome.sampleCrates with
    json := fun text =>
      if text = "2" then .ok (.number (some 2) "2")
      else if text = lastKeyText then .ok (keysJson ["bb"])
      else if text = bothKeysText then .ok (keysJson ["aa", "bb"])
      else .error "expected value at line 1 column 1" }

def firstOrderReader : Surroundings PendingRequest PendingRequest.Answer Nat :=
  reader readerCrates sampleSettings .orders ["aa", "bb"]

theorem firstOrderReader_count {contractId : String} {args : List String} {index : Nat} :
    firstOrderReader.answer (.simulateContractCall contractId "get_order_count" args) index
      (.ok "2") index := by
  refine ⟨rfl, fun _ => ⟨"2", rfl, rfl⟩, fun start stop h => ?_⟩
  exact absurd h (by decide)

theorem firstOrderReader_keys {contractId text : String} {index start stop : Nat}
    (h : parseBytesVecFromResult readerCrates text = .ok ((["aa", "bb"].take stop).drop start)) :
    firstOrderReader.answer
      (.simulateContractCall contractId "get_order_keys" (keysArgs sampleSettings start stop)) index
      (.ok text) index := by
  refine ⟨rfl, fun h => ?_, fun start' stop' _ hargs => ?_⟩
  · exact absurd h (by decide)
  · simp only [keysArgs, List.cons.injEq, and_true, true_and] at hargs
    obtain rfl : start = start' := RustText.toString_inj hargs.1
    obtain rfl : stop = stop' := RustText.toString_inj hargs.2
    exact ⟨text, rfl, h⟩

end Samples

theorem getPendingKeys_rotation_iff {index index' : Nat}
    {r : Panicking (Except String (List String))}
    (h : Finishes (reader crates settings kind keys)
      (getPendingKeys crates settings kind.countMethod kind.keysMethod) index r index') :
    (∃ l, r = .ok (.ok l) ∧ l ~r keys) ↔ keys = [] ∨ index = 0 := by
  obtain ⟨v, reply, u, hv, ⟨rfl, hcount, -⟩, hcounted⟩ := finishes_request_bind.mp h
  obtain rfl := reader_interferes hv
  obtain ⟨text, rfl, hparse⟩ := hcount rfl
  simp only [fetchFrom, hparse] at hcounted
  by_cases hempty : keys.length = 0
  · rw [if_pos hempty] at hcounted
    obtain ⟨rfl, -⟩ := finishes_done.mp hcounted
    have hnil : keys = [] := List.length_eq_zero_iff.mp hempty
    exact iff_of_true ⟨[], rfl, hnil ▸ List.IsRotated.refl []⟩ (.inl hnil)
  · rw [if_neg hempty] at hcounted
    obtain ⟨w, start, x, hw, hstart, hstarted⟩ := finishes_request_bind.mp hcounted
    obtain rfl := reader_interferes hw
    cases hnext : nextStartIndex keys.length w with
    | error fault =>
        simp only [reader, hnext] at hstart
        obtain ⟨rfl, rfl⟩ := hstart
        obtain ⟨rfl, -⟩ := finishes_done.mp hstarted
        have hpos : ¬x = 0 := by
          rintro rfl
          rw [nextStartIndex] at hnext
          split_ifs at hnext
          omega
        simp [hpos, ← List.length_eq_zero_iff, hempty]
    | ok next =>
        simp only [reader, hnext] at hstart
        obtain ⟨rfl, rfl⟩ := hstart
        obtain ⟨y, reply, z, hy, ⟨-, -, hkeys⟩, hfetched⟩ := finishes_request_bind.mp hstarted
        obtain ⟨body, rfl, hbody⟩ := hkeys w keys.length rfl rfl
        obtain ⟨rfl, -⟩ := finishes_done.mp hfetched
        simp only [Except.ok.injEq, checkedKeys_eq_ok rfl hbody]
        constructor
        · rintro ⟨l, ⟨h, -⟩, -⟩
          exact h
        · intro h
          exact ⟨keys, ⟨h, rfl⟩, List.IsRotated.refl keys⟩

theorem getPendingKeys_rotation_from_zero :
    Finishes firstOrderReader
        (getPendingKeys readerCrates sampleSettings Kind.orders.countMethod Kind.orders.keysMethod) 0
        (.ok (.ok ["aa", "bb"])) 1 ∧
      ∃ l, (Except.ok (.ok ["aa", "bb"]) : Panicking (Except String (List String))) = .ok (.ok l) ∧
        l ~r ["aa", "bb"] := by
  have hrun : Finishes firstOrderReader
      (getPendingKeys readerCrates sampleSettings Kind.orders.countMethod Kind.orders.keysMethod) 0
      (.ok (.ok ["aa", "bb"])) 1 :=
    finishes_request_bind.mpr ⟨0, .ok "2", 0, .refl, firstOrderReader_count,
      finishes_request_bind.mpr ⟨0, .ok 0, 1, .refl, ⟨rfl, rfl⟩,
        finishes_request_bind.mpr ⟨1, .ok bothKeysText, 1, .refl, firstOrderReader_keys rfl, .done _ _⟩⟩⟩
  exact ⟨hrun, (getPendingKeys_rotation_iff hrun).mpr (.inr rfl)⟩

theorem getPendingKeys_fails_from_one :
    Finishes firstOrderReader
        (getPendingKeys readerCrates sampleSettings Kind.orders.countMethod Kind.orders.keysMethod) 1
        (.ok (.error "expected 2 keys from get_order_keys, got 1")) 0 ∧
      ¬∃ l, (Except.ok (.error "expected 2 keys from get_order_keys, got 1") :
        Panicking (Except String (List String))) = .ok (.ok l) ∧ l ~r ["aa", "bb"] := by
  constructor
  · exact finishes_request_bind.mpr ⟨1, .ok "2", 1, .refl, firstOrderReader_count,
      finishes_request_bind.mpr ⟨1, .ok 1, 0, .refl, ⟨rfl, rfl⟩,
        finishes_request_bind.mpr ⟨0, .ok lastKeyText, 0, .refl, firstOrderReader_keys rfl, .done _ _⟩⟩⟩
  · rintro ⟨l, h, -⟩
    cases h

end So4Oracle.PendingRotation
