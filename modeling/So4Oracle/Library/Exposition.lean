import Mathlib.Data.List.Basic
import Mathlib.Data.List.TakeWhile
import Mathlib.Tactic.Common

namespace Library.Exposition

/-- One line of measurements: a name, its labels and a value. -/
structure Sample where
  name : List Char
  labels : List (List Char × List Char)
  value : List Char
  deriving DecidableEq, Repr

inductive Line
  | comment (text : List Char)
  | sample (s : Sample)
  deriving DecidableEq, Repr

section Writing

def escapeChar (c : Char) : List Char :=
  if c = '\\' then ['\\', '\\']
  else if c = '\n' then ['\\', 'n']
  else if c = '"' then ['\\', '"']
  else [c]

def escape (value : List Char) : List Char := value.flatMap escapeChar

def writeLabel (label : List Char × List Char) : List Char :=
  label.1 ++ '=' :: '"' :: (escape label.2 ++ ['"'])

def writeLabels : List (List Char × List Char) → List Char
  | [] => []
  | [label] => writeLabel label
  | label :: labels => writeLabel label ++ ',' :: writeLabels labels

def writeSample (s : Sample) : List Char :=
  if s.labels = [] then s.name ++ ' ' :: s.value
  else s.name ++ '{' :: (writeLabels s.labels ++ '}' :: ' ' :: s.value)

def Line.write : Line → List Char
  | comment text => '#' :: text
  | sample s => writeSample s

/-- Every line ends in a line feed. -/
def write (lines : List Line) : List Char := lines.flatMap fun line => line.write ++ ['\n']

end Writing

section Reading

def isNameChar (c : Char) : Bool := c.isAlphanum || c == '_' || c == ':'

def isName (name : List Char) : Bool := name != [] && name.all isNameChar

def unescape (c : Char) : Option Char :=
  if c = '\\' then some '\\'
  else if c = 'n' then some '\n'
  else if c = '"' then some '"'
  else none

/-- A label's value up to its closing quote, and what comes after the quote. -/
def unquote (escaped : Bool) : List Char → Option (List Char × List Char)
  | [] => none
  | c :: rest =>
      if escaped then
        (unescape c).bind fun c => (unquote false rest).map fun read => (c :: read.1, read.2)
      else if c = '"' then some ([], rest)
      else if c = '\\' then unquote true rest
      else (unquote false rest).map fun read => (c :: read.1, read.2)

def readLabel (text : List Char) : Option ((List Char × List Char) × List Char) :=
  let name := text.takeWhile isNameChar
  match text.dropWhile isNameChar with
  | '=' :: '"' :: rest =>
      if isName name then (unquote false rest).map fun read => ((name, read.1), read.2) else none
  | _ => none

/-- At most so many labels, up to the closing brace. -/
def readLabels : Nat → List Char → Option (List (List Char × List Char) × List Char)
  | 0, _ => none
  | fuel + 1, text =>
      (readLabel text).bind fun read =>
        match read.2 with
        | '}' :: rest => some ([read.1], rest)
        | ',' :: rest => (readLabels fuel rest).map fun more => (read.1 :: more.1, more.2)
        | _ => none

def readSample (text : List Char) : Option Sample :=
  let name := text.takeWhile isNameChar
  if isName name then
    match text.dropWhile isNameChar with
    | ' ' :: value => some ⟨name, [], value⟩
    | '{' :: rest =>
        (readLabels rest.length rest).bind fun read =>
          match read.2 with
          | ' ' :: value => some ⟨name, read.1, value⟩
          | _ => none
    | _ => none
  else none

/-- The lines of a text; what follows the last line feed is a line if it is not empty. -/
def splitLines : List Char → List (List Char)
  | [] => []
  | c :: text =>
      if c = '\n' then [] :: splitLines text
      else
        match splitLines text with
        | [] => [[c]]
        | line :: lines => (c :: line) :: lines

def isSample : List Char → Bool
  | [] => false
  | c :: _ => c != '#'

/-- The samples of a text, if every line that is no comment reads as one. -/
def read (text : List Char) : Option (List Sample) := ((splitLines text).filter isSample).mapM readSample

end Reading

section RoundTrip

theorem unquote_escape (value rest : List Char) :
    unquote false (escape value ++ '"' :: rest) = some (value, rest) := by
  induction value with
  | nil => simp [escape, unquote]
  | cons c value ih =>
      rw [escape, List.flatMap_cons, ← escape, List.append_assoc, escapeChar]
      split
      next hc =>
        subst hc
        simp [unquote, unescape, ih]
      next hslash =>
        split
        next hc =>
          subst hc
          simp [unquote, unescape, ih]
        next =>
          split
          next hc =>
            subst hc
            simp [unquote, unescape, ih]
          next hquote => simp [unquote, hslash, hquote, ih]

/-- A name and a separator that cannot be in it. -/
structure Separates (name : List Char) (c : Char) : Prop where
  name : isName name = true
  stops : isNameChar c = false

namespace Separates

variable {name rest : List Char} {c : Char} (h : Separates name c)
include h

theorem takeWhile : (name ++ c :: rest).takeWhile isNameChar = name := by
  have hall : ∀ d ∈ name, isNameChar d = true :=
    List.all_eq_true.mp (Bool.and_eq_true_iff.mp h.name).2
  rw [List.takeWhile_append_of_pos hall, List.takeWhile_cons_of_neg (by simp [h.stops]),
    List.append_nil]

theorem dropWhile : (name ++ c :: rest).dropWhile isNameChar = c :: rest := by
  have hall : ∀ d ∈ name, isNameChar d = true :=
    List.all_eq_true.mp (Bool.and_eq_true_iff.mp h.name).2
  rw [List.dropWhile_append_of_pos hall, List.dropWhile_cons_of_neg (by simp [h.stops])]

end Separates

theorem readLabel_write {label : List Char × List Char} (hname : isName label.1 = true)
    (rest : List Char) : readLabel (writeLabel label ++ rest) = some (label, rest) := by
  have hsep : Separates label.1 '=' := ⟨hname, by decide⟩
  have htext : writeLabel label ++ rest =
      label.1 ++ '=' :: ('"' :: (escape label.2 ++ '"' :: rest)) := by
    simp [writeLabel]
  rw [htext, readLabel, hsep.dropWhile, hsep.takeWhile]
  simp [hname, unquote_escape]

/-- One unit of fuel for each label is enough. -/
theorem readLabels_write {labels : List (List Char × List Char)} (hne : labels ≠ [])
    (hnames : ∀ label ∈ labels, isName label.1 = true) {fuel : Nat} (hfuel : labels.length ≤ fuel)
    (rest : List Char) :
    readLabels fuel (writeLabels labels ++ '}' :: rest) = some (labels, rest) := by
  induction labels generalizing fuel with
  | nil => exact absurd rfl hne
  | cons label labels ih =>
      obtain ⟨fuel, rfl⟩ := Nat.exists_eq_add_one_of_ne_zero (Nat.ne_of_gt (Nat.lt_of_lt_of_le
        (Nat.succ_pos labels.length) hfuel))
      have hname := hnames label List.mem_cons_self
      cases labels with
      | nil =>
          rw [writeLabels, readLabels, readLabel_write hname]
          rfl
      | cons other labels =>
          have htail := ih (List.cons_ne_nil _ _)
            (fun label hmem => hnames label (List.mem_cons_of_mem _ hmem))
            (Nat.le_of_succ_le_succ hfuel)
          rw [writeLabels, List.append_assoc, readLabels, readLabel_write hname, Option.bind_some,
            List.cons_append]
          · simp only [htail, Option.map_some]
          · exact List.cons_ne_nil _ _

theorem length_le_writeLabels (labels : List (List Char × List Char)) :
    labels.length ≤ (writeLabels labels).length := by
  induction labels with
  | nil => exact Nat.zero_le _
  | cons label labels ih =>
      cases labels with
      | nil =>
          simp only [writeLabels, writeLabel, List.length_cons, List.length_append, List.length_nil]
          omega
      | cons other labels =>
          rw [writeLabels]
          · simp only [List.length_append, List.length_cons] at ih ⊢
            omega
          · exact List.cons_ne_nil _ _

/-- What can be written on one line and read back. -/
structure Sample.Valid (s : Sample) : Prop where
  name : isName s.name = true
  labels : ∀ label ∈ s.labels, isName label.1 = true
  value : '\n' ∉ s.value

theorem readSample_write {s : Sample} (h : s.Valid) : readSample (writeSample s) = some s := by
  rw [writeSample]
  split
  next hnil =>
    have hsep : Separates s.name ' ' := ⟨h.name, by decide⟩
    rw [readSample, hsep.takeWhile, hsep.dropWhile, if_pos h.name]
    obtain ⟨name, labels, value⟩ := s
    obtain rfl : labels = [] := hnil
    rfl
  next hne =>
    have hsep : Separates s.name '{' := ⟨h.name, by decide⟩
    have hfuel : s.labels.length ≤ (writeLabels s.labels ++ '}' :: ' ' :: s.value).length := by
      rw [List.length_append]
      exact (length_le_writeLabels s.labels).trans (Nat.le_add_right _ _)
    rw [readSample, hsep.takeWhile, hsep.dropWhile, if_pos h.name]
    simp only [readLabels_write hne h.labels hfuel, Option.bind_some]

theorem not_mem_escape (value : List Char) : '\n' ∉ escape value := by
  rw [escape, List.mem_flatMap]
  rintro ⟨c, -, hc⟩
  rw [escapeChar] at hc
  split at hc
  · simp at hc
  · split at hc
    · simp at hc
    · split at hc
      · simp at hc
      · rename_i hne _
        exact hne (List.mem_singleton.mp hc).symm

theorem not_mem_name {name : List Char} (h : isName name = true) : '\n' ∉ name := by
  intro hmem
  have hall := List.all_eq_true.mp (Bool.and_eq_true_iff.mp h).2 _ hmem
  exact absurd hall (by decide)

theorem not_mem_writeLabel {label : List Char × List Char} (h : isName label.1 = true) :
    '\n' ∉ writeLabel label := by
  simp [writeLabel, not_mem_name h, not_mem_escape]

theorem not_mem_writeLabels {labels : List (List Char × List Char)}
    (h : ∀ label ∈ labels, isName label.1 = true) : '\n' ∉ writeLabels labels := by
  induction labels with
  | nil => exact List.not_mem_nil
  | cons label labels ih =>
      have hlabel := not_mem_writeLabel (h label List.mem_cons_self)
      cases labels with
      | nil => exact hlabel
      | cons other labels =>
          have htail := ih fun label hmem => h label (List.mem_cons_of_mem _ hmem)
          rw [writeLabels]
          · simp [hlabel, htail]
          · exact List.cons_ne_nil _ _

theorem not_mem_writeSample {s : Sample} (h : s.Valid) : '\n' ∉ writeSample s := by
  rw [writeSample]
  split
  next => simp [not_mem_name h.name, h.value]
  next => simp [not_mem_name h.name, not_mem_writeLabels h.labels, h.value]

theorem splitLines_append {line : List Char} (h : '\n' ∉ line) (rest : List Char) :
    splitLines (line ++ '\n' :: rest) = line :: splitLines rest := by
  induction line with
  | nil => simp [splitLines]
  | cons c line ih =>
      rw [List.mem_cons, not_or] at h
      rw [List.cons_append, splitLines, if_neg (Ne.symm h.1), ih h.2]

def Line.Valid : Line → Prop
  | comment text => '\n' ∉ text
  | sample s => s.Valid

def Line.sample? : Line → Option Sample
  | comment _ => none
  | sample s => some s

theorem Line.Valid.not_mem {line : Line} (h : line.Valid) : '\n' ∉ line.write := by
  cases line with
  | comment text =>
      have htext : '\n' ∉ text := h
      simpa [Line.write] using htext
  | sample s => exact not_mem_writeSample h

theorem isSample_of_isName {name : List Char} (h : isName name = true) (rest : List Char) :
    isSample (name ++ rest) = true := by
  obtain ⟨hne, hall⟩ := Bool.and_eq_true_iff.mp h
  cases name with
  | nil => cases hne
  | cons c name =>
      have hc : isNameChar c = true := List.all_eq_true.mp hall c List.mem_cons_self
      have hhash : c ≠ '#' := by
        rintro rfl
        exact absurd hc (by decide)
      simp [isSample, hhash]

theorem isSample_writeSample {s : Sample} (h : s.Valid) : isSample (writeSample s) = true := by
  rw [writeSample]
  split
  · exact isSample_of_isName h.name _
  · exact isSample_of_isName h.name _

section Raw

/-- A value is read as it stands exactly when it needs no escape. -/
def Raw (value : List Char) : Prop := '"' ∉ value ∧ '\\' ∉ value

theorem unquote_length {escaped : Bool} {text value rest : List Char}
    (h : unquote escaped text = some (value, rest)) : value.length + rest.length < text.length := by
  induction text generalizing escaped value with
  | nil => cases h
  | cons c text ih =>
      have hmap : ∀ {c : Char}, ((unquote false text).map fun read => (c :: read.1, read.2)) =
          some (value, rest) → value.length + rest.length < text.length + 1 := by
        intro c hread
        obtain ⟨read, hsome, heq⟩ := Option.map_eq_some_iff.mp hread
        obtain ⟨rfl, rfl⟩ := Prod.mk.inj heq
        have hlt := ih hsome
        rw [List.length_cons]
        omega
      rw [unquote] at h
      split at h
      · obtain ⟨d, -, hread⟩ := Option.bind_eq_some_iff.mp h
        exact hmap hread
      · split at h
        · obtain ⟨rfl, rfl⟩ := Prod.mk.inj (Option.some.inj h)
          simp
        · split at h
          · exact (ih h).trans (Nat.lt_succ_self _)
          · exact hmap h

theorem unquote_eq_iff (value rest : List Char) :
    unquote false (value ++ '"' :: rest) = some (value, rest) ↔ Raw value := by
  induction value with
  | nil => simp [unquote, Raw]
  | cons c value ih =>
      rw [List.cons_append, unquote, if_neg Bool.false_ne_true, Raw, List.mem_cons, List.mem_cons,
        not_or, not_or]
      split
      next hquote =>
        subst hquote
        simp
      next hquote =>
        split
        next hslash =>
          subst hslash
          refine ⟨fun h => ?_, fun h => absurd rfl h.2.1⟩
          have hlt := unquote_length h
          simp only [List.length_cons, List.length_append] at hlt
          omega
        next hslash =>
          have hread : ((unquote false (value ++ '"' :: rest)).map fun read => (c :: read.1, read.2)) =
              some (c :: value, rest) ↔ unquote false (value ++ '"' :: rest) = some (value, rest) := by
            simp [Option.map_eq_some_iff, Prod.ext_iff]
          rw [hread, ih, Raw]
          simp [Ne.symm hquote, Ne.symm hslash]

theorem readLabels_ne_nil {fuel : Nat} {text rest : List Char} {labels : List (List Char × List Char)}
    (h : readLabels fuel text = some (labels, rest)) : labels ≠ [] := by
  cases fuel with
  | zero => cases h
  | succ fuel =>
      obtain ⟨⟨label, more⟩, -, h⟩ := Option.bind_eq_some_iff.mp h
      dsimp only at h
      split at h
      · obtain ⟨rfl, -⟩ := Prod.mk.inj (Option.some.inj h)
        exact List.cons_ne_nil _ _
      · obtain ⟨read, -, heq⟩ := Option.map_eq_some_iff.mp h
        obtain ⟨rfl, -⟩ := Prod.mk.inj heq
        exact List.cons_ne_nil _ _
      · cases h

/-- A line with one label whose value is written as it is. -/
def writeRaw (name label value number : List Char) : List Char :=
  name ++ '{' :: (label ++ '=' :: '"' :: (value ++ '"' :: '}' :: ' ' :: number))

theorem readSample_writeRaw {name label value number : List Char} (hname : isName name = true)
    (hlabel : isName label = true) :
    readSample (writeRaw name label value number) = some ⟨name, [(label, value)], number⟩ ↔
      Raw value := by
  have hsep : Separates name '{' := ⟨hname, by decide⟩
  have hinner : Separates label '=' := ⟨hlabel, by decide⟩
  have hreadLabel : readLabel (label ++ '=' :: '"' :: (value ++ '"' :: '}' :: ' ' :: number)) =
      (unquote false (value ++ '"' :: '}' :: ' ' :: number)).map
        fun read => ((label, read.1), read.2) := by
    rw [readLabel, hinner.takeWhile, hinner.dropWhile]
    simp only [hlabel, if_true]
  have hfuel : ∃ fuel, (label ++ '=' :: '"' :: (value ++ '"' :: '}' :: ' ' :: number)).length =
      fuel + 1 := by
    simp only [List.length_append, List.length_cons]
    exact ⟨_, Nat.add_succ _ _⟩
  obtain ⟨fuel, hfuel⟩ := hfuel
  rw [writeRaw, readSample, hsep.takeWhile, hsep.dropWhile, if_pos hname]
  simp only
  rw [← unquote_eq_iff value ('}' :: ' ' :: number), hfuel, readLabels, hreadLabel]
  constructor
  · intro h
    obtain ⟨read, hlabels, hvalue⟩ := Option.bind_eq_some_iff.mp h
    obtain ⟨first, hfirst, hmatch⟩ := Option.bind_eq_some_iff.mp hlabels
    obtain ⟨⟨v, rest⟩, hread, rfl⟩ := Option.map_eq_some_iff.mp hfirst
    split at hvalue
    next number' hnumber =>
      obtain ⟨-, hone, rfl⟩ := Sample.mk.inj (Option.some.inj hvalue)
      split at hmatch
      next rest' hrest =>
        obtain rfl := Option.some.inj hmatch
        obtain ⟨⟨-, rfl⟩, -⟩ := by simpa using hone
        obtain rfl : rest' = _ := hnumber
        obtain rfl : rest = _ := hrest
        exact hread
      next rest' hrest =>
        obtain ⟨more, hmore, rfl⟩ := Option.map_eq_some_iff.mp hmatch
        exact absurd (List.cons.inj hone).2 (readLabels_ne_nil hmore)
      next => cases hmatch
    next => cases hvalue
  · intro h
    rw [h]
    rfl

theorem not_mem_writeRaw {name label value number : List Char} (hname : isName name = true)
    (hlabel : isName label = true) (hvalue : '\n' ∉ value) (hnumber : '\n' ∉ number) :
    '\n' ∉ writeRaw name label value number := by
  simp [writeRaw, not_mem_name hname, not_mem_name hlabel, hvalue, hnumber]

end Raw

theorem write_append (lines more : List Line) : write (lines ++ more) = write lines ++ write more := by
  simp [write]

/-- The lines of a text that are no comments read like this, one by one. -/
def Reads (text : List Char) (rs : List (Option Sample)) : Prop :=
  ∃ lines : List (List Char), text = lines.flatMap (fun line => line ++ ['\n']) ∧ (∀ line ∈ lines, '\n' ∉ line) ∧
    (lines.filter isSample).map readSample = rs

section Reads

variable {text more : List Char} {rs rs' : List (Option Sample)}

theorem Reads.append (h : Reads text rs) (h' : Reads more rs') : Reads (text ++ more) (rs ++ rs') := by
  obtain ⟨lines, rfl, hlines, rfl⟩ := h
  obtain ⟨lines', rfl, hlines', rfl⟩ := h'
  refine ⟨lines ++ lines', by simp, fun line hmem => ?_, by simp⟩
  rcases List.mem_append.mp hmem with hmem | hmem
  · exact hlines line hmem
  · exact hlines' line hmem

/-- One line that is no comment. -/
theorem reads_line {line : List Char} (hline : '\n' ∉ line) (hsample : isSample line = true) :
    Reads (line ++ ['\n']) [readSample line] := by
  refine ⟨[line], by simp, fun other hmem => ?_, by simp [hsample]⟩
  rwa [List.mem_singleton.mp hmem]

theorem reads_write {lines : List Line} (h : ∀ line ∈ lines, line.Valid) :
    Reads (write lines) ((lines.filterMap Line.sample?).map some) := by
  refine ⟨lines.map Line.write, by simp [write, List.flatMap_map], fun line hmem => ?_, ?_⟩
  · obtain ⟨line, hline, rfl⟩ := List.mem_map.mp hmem
    exact (h line hline).not_mem
  · induction lines with
    | nil => rfl
    | cons line lines ih =>
        have hline := h line List.mem_cons_self
        have htail := ih fun line hmem => h line (List.mem_cons_of_mem _ hmem)
        rw [List.map_cons]
        cases line with
        | comment text =>
            rw [List.filter_cons_of_neg (by simp [Line.write, isSample])]
            exact htail
        | sample s =>
            have hsample : isSample (Line.sample s).write = true := isSample_writeSample hline
            have hread : readSample (Line.sample s).write = some s := readSample_write hline
            rw [List.filter_cons_of_pos hsample, List.map_cons, htail, hread]
            rfl

theorem Reads.read (h : Reads text rs) : read text = rs.mapM id := by
  obtain ⟨lines, rfl, hlines, rfl⟩ := h
  have hsplit : splitLines (lines.flatMap fun line => line ++ ['\n']) = lines := by
    induction lines with
    | nil => rfl
    | cons line lines ih =>
        rw [List.flatMap_cons, List.append_assoc, List.singleton_append,
          splitLines_append (hlines line List.mem_cons_self),
          ih fun line hmem => hlines line (List.mem_cons_of_mem _ hmem)]
  rw [Exposition.read, hsplit, List.mapM_map]
  rfl

theorem mapM_id_eq_some {ss : List Sample} : rs.mapM id = some ss ↔ rs = ss.map some := by
  induction rs generalizing ss with
  | nil => cases ss <;> simp
  | cons r rs ih =>
      rw [List.mapM_cons]
      cases r with
      | none => cases ss <;> simp
      | some s =>
          cases ss with
          | nil => cases rs.mapM id <;> simp
          | cons s' ss =>
              rw [List.map_cons, List.cons.injEq, ← ih]
              cases rs.mapM id <;> simp

/-- A text reads as these samples exactly when its lines do, one by one. -/
theorem Reads.read_eq_some (h : Reads text rs) {ss : List Sample} :
    Exposition.read text = some ss ↔ rs = ss.map some := by
  rw [h.read, mapM_id_eq_some]

end Reads

end RoundTrip

end Library.Exposition
