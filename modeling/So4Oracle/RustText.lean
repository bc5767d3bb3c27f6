import Mathlib.Algebra.Group.Int.Defs
import Mathlib.Algebra.Group.Nat.Defs
import Mathlib.Algebra.GroupWithZero.Nat
import Mathlib.Data.List.Infix
import So4Oracle.Library.Checked

namespace So4Oracle.RustText

open Library.Checked

/-- The Unicode White_Space property, which `str::trim` strips. -/
def isWhitespace (c : Char) : Bool :=
  let n := c.toNat
  (9 ≤ n && n ≤ 13) || n == 0x20 || n == 0x85 || n == 0xA0 || n == 0x1680 ||
    (0x2000 ≤ n && n ≤ 0x200A) || n == 0x2028 || n == 0x2029 || n == 0x202F || n == 0x205F ||
    n == 0x3000

def trim (s : String) : String :=
  String.ofList ((s.toList.dropWhile isWhitespace).reverse.dropWhile isWhitespace).reverse

def toAsciiLowercase (s : String) : String := String.ofList (s.toList.map Char.toLower)

def contains (s pattern : String) : Bool := decide (pattern.toList <:+: s.toList)

def startsWith (s pattern : String) : Bool := pattern.toList.isPrefixOf s.toList

def splitChar (s : String) (c : Char) : List String := (s.toList.splitOn c).map String.ofList

def splitOnce (s : String) (c : Char) : Option (String × String) :=
  match s.toList.dropWhile (· != c) with
  | [] => none
  | _ :: after => some (String.ofList (s.toList.takeWhile (· != c)), String.ofList after)

def stripPrefix (s pattern : String) : Option String :=
  if pattern.toList.isPrefixOf s.toList then
    some (String.ofList (s.toList.drop pattern.toList.length))
  else none

def stripSuffix (s suffix : String) : Option String :=
  if suffix.toList.isSuffixOf s.toList then
    some (String.ofList (s.toList.take (s.toList.length - suffix.toList.length)))
  else none

def takeChars (s : String) (n : Nat) : String := String.ofList (s.toList.take n)

/-- As many characters as fill this number of bytes. -/
def takeBytes : List Char → Nat → Option (List Char)
  | _, 0 => some []
  | [], _ + 1 => none
  | c :: cs, n + 1 =>
      if c.utf8Size ≤ n + 1 then (takeBytes cs (n + 1 - c.utf8Size)).map (c :: ·) else none

/-- `&s[..n]`, which panics past the end and inside a character. -/
def sliceTo (s : String) (n : Nat) : Panicking String :=
  match takeBytes s.toList n with
  | some cs => .ok (String.ofList cs)
  | none => .error .indexOutOfBounds

/-- One character as `Debug` prints it inside a string. The table says which
characters beyond ASCII are printed as an escape. -/
def escapeDebugChar (table : Char → Bool) (c : Char) : String :=
  let unicode := "\\u\x7b" ++ String.ofList (Nat.toDigits 16 c.toNat) ++ "\x7d"
  if c = '\x00' then "\\0"
  else if c = '\t' then "\\t"
  else if c = '\r' then "\\r"
  else if c = '\n' then "\\n"
  else if c = '"' then "\\\""
  else if c = '\\' then "\\\\"
  else if c.toNat < 0x20 ∨ c.toNat = 0x7F then unicode
  else if c.toNat < 0x7F then String.ofList [c]
  else if table c then unicode
  else String.ofList [c]

def debugString (table : Char → Bool) (s : String) : String :=
  "\"" ++ String.join (s.toList.map (escapeDebugChar table)) ++ "\""

def debugStrings (table : Char → Bool) (ss : List String) : String :=
  "[" ++ ", ".intercalate (ss.map (debugString table)) ++ "]"

def parseDigits (digits : List Char) : Option Nat :=
  if digits ≠ [] ∧ digits.all Char.isDigit = true then some (Nat.ofDigitChars 10 digits 0) else none

/-- `str::parse::<i128>`: an optional sign and digits, within range. -/
def parseI128 (s : String) : Option Int :=
  let value :=
    match s.toList with
    | '-' :: digits => (parseDigits digits).map fun n => -(n : Int)
    | '+' :: digits => (parseDigits digits).map Int.ofNat
    | digits => (parseDigits digits).map Int.ofNat
  value.filter fun n => -(2 ^ 127) ≤ n && n < 2 ^ 127

def parseI64 (s : String) : Option Int :=
  (parseI128 s).filter fun n => -(2 ^ 63) ≤ n && n < 2 ^ 63

def asBytes (s : String) : List UInt8 := s.toUTF8.data.toList

theorem utf8ByteSize_ofList (cs : List Char) :
    (String.ofList cs).utf8ByteSize = (cs.map Char.utf8Size).sum := by
  induction cs with
  | nil => simp
  | cons c cs ih =>
      rw [← List.singleton_append, String.ofList_append, String.utf8ByteSize_append, ih]
      simp

theorem takeBytes_eq_some {cs front : List Char} {n : Nat} :
    takeBytes cs n = some front ↔ front <+: cs ∧ (front.map Char.utf8Size).sum = n := by
  induction cs generalizing front n with
  | nil =>
      cases n with
      | zero =>
          constructor
          · intro h
            cases h
            simp
          · rintro ⟨hpre, -⟩
            rw [List.prefix_nil.mp hpre]
            rfl
      | succ n =>
          simp only [takeBytes, reduceCtorEq, List.prefix_nil, false_iff]
          rintro ⟨rfl, hsum⟩
          simp at hsum
  | cons c cs ih =>
      have hc := c.utf8Size_pos
      cases n with
      | zero =>
          simp only [takeBytes, Option.some.injEq]
          constructor
          · rintro rfl
            simp
          · rintro ⟨hfront, hsum⟩
            cases front with
            | nil => rfl
            | cons d front =>
                rw [List.map_cons, List.sum_cons] at hsum
                have hd := d.utf8Size_pos
                omega
      | succ n =>
          rw [takeBytes]
          constructor
          · intro h
            split at h
            next hfits =>
              obtain ⟨rest, hrest, rfl⟩ := Option.map_eq_some_iff.mp h
              obtain ⟨hpre, hsum⟩ := ih.mp hrest
              refine ⟨List.cons_prefix_cons.mpr ⟨rfl, hpre⟩, ?_⟩
              rw [List.map_cons, List.sum_cons]
              omega
            next => cases h
          · rintro ⟨hfront, hsum⟩
            cases front with
            | nil => simp at hsum
            | cons d front =>
                obtain ⟨rfl, hpre⟩ := List.cons_prefix_cons.mp hfront
                rw [List.map_cons, List.sum_cons] at hsum
                rw [if_pos (by omega), ih.mpr ⟨hpre, by omega⟩]
                rfl

theorem sliceTo_eq_ok {s front : String} {n : Nat} :
    sliceTo s n = .ok front ↔ front.toList <+: s.toList ∧ front.utf8ByteSize = n := by
  have hbytes : front.utf8ByteSize = (front.toList.map Char.utf8Size).sum := by
    rw [← utf8ByteSize_ofList, String.ofList_toList]
  rw [hbytes, ← takeBytes_eq_some, sliceTo]
  cases htake : takeBytes s.toList n with
  | none => simp
  | some cs =>
      simp only [Except.ok.injEq, Option.some.injEq]
      constructor
      · rintro rfl
        rw [String.toList_ofList]
      · rintro rfl
        rw [String.ofList_toList]

theorem length_asBytes (s : String) : (asBytes s).length = s.utf8ByteSize := Array.length_toList

theorem asBytes_inj {s t : String} (h : asBytes s = asBytes t) : s = t :=
  String.toByteArray_inj.mp (ByteArray.ext (Array.toList_inj.mp h))

theorem toString_inj {m n : Nat} (h : toString m = toString n) : m = n := by
  have hdigits : Nat.toDigits 10 m = Nat.toDigits 10 n := by
    rw [← Nat.toList_repr, ← Nat.toList_repr]
    exact congrArg String.toList h
  rw [← Nat.ofDigitChars_ten_toDigits (n := m), hdigits, Nat.ofDigitChars_ten_toDigits]

end So4Oracle.RustText
