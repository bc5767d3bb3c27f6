import So4Oracle.DecimalText
import So4Oracle.Handler
import So4Oracle.SubmitOutcome
import So4Oracle.Library.Escapes

namespace So4Oracle.FailureEvents

open Library.Escapes Wire Submit Handler

section Printing

variable (table : Char → Bool)

def writeChar (c : Char) : List Char := (RustText.escapeDebugChar table c).toList

/-- What `Debug` prints between the quotes. -/
def printed (cs : List Char) : List Char := cs.flatMap (writeChar table)

theorem digitChar_of_mem_toDigits {n : Nat} {c : Char} (h : c ∈ Nat.toDigits 16 n) :
    ∃ k, c = Nat.digitChar k := by
  induction n using Nat.strongRecOn with
  | ind n ih =>
      rw [Nat.toDigits_eq_if (by decide)] at h
      split at h
      next => exact ⟨n, List.mem_singleton.mp h⟩
      next hn =>
        rcases List.mem_append.mp h with hfront | hlast
        · exact ih (n / 16) (Nat.div_lt_self (by omega) (by decide)) hfront
        · exact ⟨n % 16, List.mem_singleton.mp hlast⟩

variable {table}

/-- A character is printed as itself or after a backslash, where only a quote
gives a quote and no escape holds the M. -/
theorem writeChar_cases (c : Char) :
    (writeChar table c = [c] ∧ c ≠ '"') ∨ (c = '"' ∧ writeChar table c = ['\\', '"']) ∨
      ∃ word, writeChar table c = '\\' :: word ∧ '"' ∉ word ∧ 'M' ∉ word := by
  have hunicode : ∃ word, ("\\u\x7b" ++ String.ofList (Nat.toDigits 16 c.toNat) ++ "\x7d").toList =
      '\\' :: word ∧ '"' ∉ word ∧ 'M' ∉ word := by
    have hword : ("\\u\x7b" ++ String.ofList (Nat.toDigits 16 c.toNat) ++ "\x7d").toList =
        '\\' :: 'u' :: '{' :: (Nat.toDigits 16 c.toNat ++ ['}']) := by
      simp
    refine ⟨_, hword, ?_, ?_⟩ <;>
      simp only [List.mem_cons, List.mem_append, List.not_mem_nil, or_false, not_or] <;>
      refine ⟨by decide, by decide, fun hdigit => ?_, by decide⟩ <;>
      obtain ⟨k, hk⟩ := digitChar_of_mem_toDigits hdigit <;>
      exact Nat.digitChar_ne _ (by decide) hk.symm
  rw [writeChar, RustText.escapeDebugChar]
  generalize "\\u\x7b" ++ String.ofList (Nat.toDigits 16 c.toNat) ++ "\x7d" = unicode at hunicode
  by_cases hnul : c = '\x00'
  · rw [if_pos hnul]
    exact .inr (.inr ⟨['0'], rfl, by decide, by decide⟩)
  by_cases htab : c = '\t'
  · rw [if_neg hnul, if_pos htab]
    exact .inr (.inr ⟨['t'], rfl, by decide, by decide⟩)
  by_cases hreturn : c = '\r'
  · rw [if_neg hnul, if_neg htab, if_pos hreturn]
    exact .inr (.inr ⟨['r'], rfl, by decide, by decide⟩)
  by_cases hnewline : c = '\n'
  · rw [if_neg hnul, if_neg htab, if_neg hreturn, if_pos hnewline]
    exact .inr (.inr ⟨['n'], rfl, by decide, by decide⟩)
  rw [if_neg hnul, if_neg htab, if_neg hreturn, if_neg hnewline]
  by_cases hquote : c = '"'
  · rw [if_pos hquote]
    exact .inr (.inl ⟨hquote, rfl⟩)
  by_cases hslash : c = '\\'
  · rw [if_neg hquote, if_pos hslash]
    exact .inr (.inr ⟨['\\'], rfl, by decide, by decide⟩)
  rw [if_neg hquote, if_neg hslash]
  split
  next => exact .inr (.inr hunicode)
  split
  next => exact .inl ⟨String.toList_ofList, hquote⟩
  split
  next => exact .inr (.inr hunicode)
  next => exact .inl ⟨String.toList_ofList, hquote⟩

theorem writeChar_of_isAlpha {c : Char} (h : c.isAlpha = true) : writeChar table c = [c] := by
  have hrange : (65 ≤ c.toNat ∧ c.toNat ≤ 90) ∨ 97 ≤ c.toNat ∧ c.toNat ≤ 122 := by
    rcases Bool.or_eq_true_iff.mp h with hupper | hlower
    · exact .inl (decide_eq_true_iff.mp hupper)
    · obtain ⟨hlow, hhigh⟩ := Bool.and_eq_true_iff.mp hlower
      exact .inr ⟨decide_eq_true_iff.mp hlow, decide_eq_true_iff.mp hhigh⟩
  have hne : ∀ d : Char, d.toNat < 65 ∨ d.toNat = 92 → c ≠ d := by
    rintro d hd rfl
    omega
  rw [writeChar, RustText.escapeDebugChar]
  simp only [if_neg (hne '\x00' (by decide)), if_neg (hne '\t' (by decide)),
    if_neg (hne '\r' (by decide)), if_neg (hne '\n' (by decide)), if_neg (hne '"' (by decide)),
    if_neg (hne '\\' (by decide))]
  rw [if_neg (by omega), if_pos (by omega), String.toList_ofList]

theorem escaping_writeChar : Escaping '\\' (writeChar table) where
  marked c := by
    rcases writeChar_cases c with ⟨hc, -⟩ | ⟨-, hc⟩ | ⟨word, hc, -⟩
    · exact .inl hc
    · exact .inr ⟨_, hc⟩
    · exact .inr ⟨_, hc⟩

theorem quoting_writeChar : Quoting '\\' '"' (writeChar table) where
  ne := by decide
  quoted := by simp [writeChar, RustText.escapeDebugChar]
  unquoted c hne hmem := by
    rcases writeChar_cases c with ⟨hc, -⟩ | ⟨hquote, -⟩ | ⟨word, hc, hword, -⟩
    · rw [hc] at hmem
      exact hne (List.mem_singleton.mp hmem).symm
    · exact hne hquote
    · rw [hc, List.mem_cons] at hmem
      exact hmem.elim (by decide) hword

end Printing

section Message

variable (table : Char → Bool)

/-- What the message has around and between the events. -/
def punctuation : List Char := ['\\', '[', ',', ']']

def separator : List String → List Char
  | [] => []
  | _ :: _ => [',', ' ']

/-- The printed list of events behind its opening bracket. -/
def listed : List String → List Char
  | [] => [']']
  | event :: events =>
      '"' :: (printed table event.toList ++ '"' :: (separator events ++ listed events))

theorem toList_debugString (s : String) :
    (RustText.debugString table s).toList = '"' :: (printed table s.toList ++ ['"']) := by
  rw [RustText.debugString, String.toList_append, String.toList_append, String.toList_join,
    List.flatMap_map]
  rfl

theorem toList_debugStrings (events : List String) :
    (RustText.debugStrings table events).toList = '[' :: listed table events := by
  have hlisted : (", ".intercalate (events.map (RustText.debugString table)) ++ "]").toList =
      listed table events := by
    induction events with
    | nil => simp [listed]
    | cons event events ih =>
        cases events with
        | nil => simp [listed, separator, toList_debugString]
        | cons next events =>
            rw [listed, separator, ← ih, List.map_cons, List.map_cons,
              String.intercalate_cons_cons]
            simp [toList_debugString]
  rw [RustText.debugStrings, String.append_assoc, String.toList_append, hlisted]
  rfl

variable {table}

/-- A word that begins with no punctuation of the list is found in an event. -/
theorem infix_listed {p : Char} {ps : List Char} {events : List String}
    (hstart : p ∉ ['"', ',', ' ', ']']) (hquote : '"' ∉ p :: ps) :
    p :: ps <:+: listed table events ↔
      ∃ event ∈ events, p :: ps <:+: printed table event.toList := by
  simp only [List.mem_cons, List.not_mem_nil, or_false, not_or] at hstart
  obtain ⟨hopen, hcomma, hspace, hclose⟩ := hstart
  induction events with
  | nil =>
      have hend : ¬p :: ps <:+: [']'] := by
        rw [List.infix_cons_iff, List.cons_prefix_cons, List.infix_nil]
        simp [hclose]
      rw [listed]
      simp [hend]
  | cons event events ih =>
      have hseparator : p ∉ separator events := by
        cases events <;> simp [separator, hcomma, hspace]
      have hopening : p ∉ ['"'] := by simpa using hopen
      have hcons : p :: ps <:+: listed table (event :: events) ↔ p :: ps <:+:
          printed table event.toList ++ '"' :: (separator events ++ listed table events) :=
        infix_append_of_not_mem hopening
      rw [hcons, infix_append_cons_of_not_mem (List.cons_ne_nil p ps) hquote,
        infix_append_of_not_mem hseparator, ih]
      simp

variable (table) in
/-- The pieces between the quotes are those of the events, apart from punctuation. -/
theorem exists_piece_listed (events : List String) {P : List Char → Prop}
    (hP : ∀ piece, P piece → ∀ c ∈ punctuation, c ∉ piece) {front : List Char}
    (hfront : events ≠ [] → ¬P front) (hquote : '"' ∉ front) :
    (∃ piece ∈ (front ++ listed table events).splitOn '"', P piece) ↔
      ∃ event ∈ events, P (printed table (lastPiece '"' event.toList)) := by
  induction events generalizing front with
  | nil =>
      have hend : ¬P (front ++ [']']) := fun h => hP _ h ']' (by decide) (by simp)
      rw [listed, List.splitOn_eq_singleton (by simpa using hquote)]
      simp [hend]
  | cons event events ih =>
      have hevent : (∃ piece ∈ (printed table event.toList).splitOn '"', P piece) ↔
          P (printed table (lastPiece '"' event.toList)) :=
        exists_piece_iff quoting_writeChar (fun piece h => hP piece h '\\' (by decide))
      have hseparator : events ≠ [] → ¬P (separator events) := by
        cases events with
        | nil => exact fun hne => absurd rfl hne
        | cons next events => exact fun _ h => hP _ h ',' (by decide) (by simp [separator])
      have hplain : '"' ∉ separator events := by
        cases events <;> simp [separator]
      rw [listed, List.splitOn_append_cons_self, List.splitOn_append_cons_self,
        List.splitOn_eq_singleton hquote]
      simp only [List.mem_append, List.mem_cons, List.not_mem_nil, or_false, or_and_right,
        exists_or, exists_eq_left, hevent, ih hseparator hplain,
        hfront (List.cons_ne_nil event events), false_or]

end Message

section Decoding

/-- What the decoder's documentation promises: only letters of the alphabet, and
four of them for three bytes. -/
structure Base64Decoding (decode : String → Option (List UInt8)) : Prop where
  alphabet : ∀ {s bytes}, decode s = some bytes → s.toList.all isBase64Char = true
  length : ∀ {s bytes}, decode s = some bytes → 4 * bytes.length ≤ 3 * s.utf8ByteSize

variable {crates : Crates} {s pattern text : String} {bytes : List UInt8}

variable (crates) in
/-- The bytes behind the base64 hold the pattern. -/
def DecodedContains (event pattern : String) : Prop :=
  ∃ bytes, crates.base64Decode event = some bytes ∧ RustText.asBytes pattern <:+: bytes

variable (crates) in
/-- The bytes behind the base64 are a text with the pattern in it. -/
def DecodesTo (s pattern : String) : Prop :=
  ∃ bytes text, crates.base64Decode s = some bytes ∧
    String.fromUTF8? ⟨bytes.toArray⟩ = some text ∧ RustText.contains text pattern = true

theorem utf8ByteSize_of_contains (h : RustText.contains text pattern = true) :
    pattern.utf8ByteSize ≤ text.utf8ByteSize := by
  have hinfix : pattern.toList <:+: text.toList := of_decide_eq_true h
  obtain ⟨before, after, hparts⟩ := hinfix
  have htext : text = String.ofList before ++ pattern ++ String.ofList after := by
    rw [← String.toList_inj, String.toList_append, String.toList_append, String.toList_ofList,
      String.toList_ofList, hparts]
  rw [htext, String.utf8ByteSize_append, String.utf8ByteSize_append]
  omega

theorem length_of_fromUTF8? (h : String.fromUTF8? ⟨bytes.toArray⟩ = some text) :
    bytes.length = text.utf8ByteSize := by
  rw [String.fromUTF8?] at h
  split at h
  next hvalid =>
    cases h
    rfl
  next => cases h

/-- The heuristics of the search turn nothing away that would have been found. -/
theorem decodesToBudgetExceeded_iff (law : Base64Decoding crates.base64Decode) :
    decodesToBudgetExceeded crates s = true ↔
      DecodesTo crates (RustText.trim s) budgetExceededPattern := by
  rw [decodesToBudgetExceeded]
  generalize RustText.trim s = trimmed
  constructor
  · intro h
    split at h
    next => cases h
    next =>
      split at h
      next => cases h
      next bytes hbytes =>
        obtain ⟨text, htext, hcontains⟩ := (Option.any_eq_true _ _).mp h
        exact ⟨bytes, text, hbytes, htext, hcontains⟩
  · rintro ⟨bytes, text, hbytes, htext, hcontains⟩
    have hpattern : budgetExceededPattern.utf8ByteSize = 21 := by decide +kernel
    have hsize := utf8ByteSize_of_contains hcontains
    have hlength := law.length hbytes
    rw [length_of_fromUTF8? htext] at hlength
    have hlong : 20 ≤ trimmed.utf8ByteSize := by omega
    rw [if_neg (by simp [hlong, law.alphabet hbytes]), hbytes]
    exact (Option.any_eq_true _ _).mpr ⟨text, htext, hcontains⟩

theorem mem_trim {c : Char} (hc : c ∈ s.toList) (hspace : RustText.isWhitespace c = false) :
    c ∈ (RustText.trim s).toList := by
  have hkept : ∀ cs : List Char, c ∈ cs → c ∈ cs.dropWhile RustText.isWhitespace := by
    intro cs hcs
    rw [← List.takeWhile_append_dropWhile (p := RustText.isWhitespace) (l := cs)] at hcs
    rcases List.mem_append.mp hcs with hfront | hrest
    · rw [List.mem_takeWhile_imp hfront] at hspace
      cases hspace
    · exact hrest
  rw [RustText.trim, String.toList_ofList, List.mem_reverse]
  exact hkept _ (List.mem_reverse.mpr (hkept _ hc))

/-- A piece with a backslash or with punctuation of the list is not decoded. -/
theorem not_mem_of_decodes {piece : List Char}
    (h : decodesToBudgetExceeded crates (String.ofList piece) = true) :
    ∀ c ∈ punctuation, c ∉ piece := by
  intro c hc hmem
  have hothers : (punctuation.all fun c => !RustText.isWhitespace c && !isBase64Char c) = true := by
    decide
  have hother := List.all_eq_true.mp hothers c hc
  rw [Bool.and_eq_true, Bool.not_eq_true', Bool.not_eq_true'] at hother
  obtain ⟨hspace, hletter⟩ := hother
  have htrimmed : c ∈ (RustText.trim (String.ofList piece)).toList :=
    mem_trim (by rwa [String.toList_ofList]) hspace
  rw [decodesToBudgetExceeded, if_pos] at h
  · cases h
  · have hall : (RustText.trim (String.ofList piece)).toList.all isBase64Char = false :=
      List.all_eq_false.mpr ⟨c, htrimmed, by simp [hletter]⟩
    rw [hall]
    simp

end Decoding

section Recognition

variable {crates : Crates} {operation : String} {events : List String}

/-- The start of the message: the contract's function, and what went wrong. -/
def lead (operation : String) : String :=
  operation ++ " submit failed: " ++ "transaction failed on-chain; diagnostic events: " ++ "["

theorem toList_message :
    (HandlerError.submitted crates operation (.transactionFailed events)).message.toList =
      (lead operation).toList ++ listed crates.escapesAsUnicode events := by
  have hmessage : (HandlerError.submitted crates operation (.transactionFailed events)).message =
      operation ++ " submit failed: " ++ ("transaction failed on-chain; diagnostic events: " ++
        RustText.debugStrings crates.escapesAsUnicode events) := rfl
  have hopen : "[".toList = ['['] := rfl
  rw [hmessage, lead]
  simp only [String.toList_append, toList_debugStrings, hopen, List.append_assoc,
    List.singleton_append]

/-- The handlers' functions are named in lower case. -/
def isFunctionName (operation : String) : Bool :=
  operation.toList.all fun c => c.isLower || c == '_'

theorem not_mem_lead (hoperation : isFunctionName operation = true) {c : Char}
    (hc : c = 'M' ∨ c = '"') : c ∉ (lead operation).toList := by
  have hname : c ∉ operation.toList := by
    intro hmem
    have hletter := List.all_eq_true.mp hoperation c hmem
    rcases hc with rfl | rfl
    · exact absurd hletter (by decide)
    · exact absurd hletter (by decide)
  have hfailed : c ∉ " submit failed: ".toList := by
    rcases hc with rfl | rfl <;> decide
  have hevents : c ∉ "transaction failed on-chain; diagnostic events: ".toList := by
    rcases hc with rfl | rfl <;> decide
  have hopen : c ∉ "[".toList := by
    rcases hc with rfl | rfl <;> decide
  simp only [lead, String.toList_append, List.mem_append, not_or]
  exact ⟨⟨⟨hname, hfailed⟩, hevents⟩, hopen⟩

variable (crates) in
/-- The part of an event behind its last quote, as the message shows it. -/
def lastPrinted (event : String) : String :=
  String.ofList (printed crates.escapesAsUnicode (lastPiece '"' event.toList))

variable (hoperation : isFunctionName operation = true)
include hoperation

theorem isBudgetExceeded_iff (law : Base64Decoding crates.base64Decode) :
    isBudgetExceeded crates (.submitted crates operation (.transactionFailed events)) = true ↔
      ∃ event ∈ events, RustText.contains event budgetExceededPattern = true ∨
        DecodesTo crates (RustText.trim (lastPrinted crates event)) budgetExceededPattern := by
  have hlead : events ≠ [] →
      ¬decodesToBudgetExceeded crates (String.ofList (lead operation).toList) = true := by
    intro _ h
    apply not_mem_of_decodes h '[' (by decide)
    rw [lead, String.toList_append]
    exact List.mem_append_right _ (by decide)
  have hpieces := exists_piece_listed crates.escapesAsUnicode events
    (P := fun piece => decodesToBudgetExceeded crates (String.ofList piece) = true)
    (fun piece h => not_mem_of_decodes h) hlead (not_mem_lead hoperation (.inr rfl))
  have hsearch : (RustText.splitChar
      (HandlerError.submitted crates operation (.transactionFailed events)).message '"').any
        (decodesToBudgetExceeded crates) = true ↔
      ∃ event ∈ events, DecodesTo crates (RustText.trim (lastPrinted crates event))
        budgetExceededPattern := by
    simp only [← decodesToBudgetExceeded_iff law]
    rw [RustText.splitChar, toList_message, List.any_map, List.any_eq_true]
    simp only [Function.comp_apply, lastPrinted]
    rw [hpieces]
  rw [isBudgetExceeded, Bool.or_eq_true, hsearch]
  show List.any events _ = true ∨ _ ↔ _
  rw [List.any_eq_true, ← exists_or]
  refine exists_congr fun event => ?_
  rw [and_or_left]

theorem isMarketPausedError_iff :
    isMarketPausedError (.submitted crates operation (.transactionFailed events)) = true ↔
      ∃ event ∈ events, RustText.contains event marketPausedPattern = true := by
  have hpattern : marketPausedPattern.toList = 'M' :: "arketPaused".toList := rfl
  have hletters : ('M' :: "arketPaused".toList).all Char.isAlpha = true := by decide
  have hevent : ∀ event : String, marketPausedPattern.toList <:+:
      printed crates.escapesAsUnicode event.toList ↔
        RustText.contains event marketPausedPattern = true := by
    intro event
    rw [RustText.contains, decide_eq_true_eq, hpattern, printed]
    apply infix_flatMap escaping_writeChar
    · exact fun c hc => writeChar_of_isAlpha (List.all_eq_true.mp hletters c hc)
    · decide
    · intro c hne hmem
      rcases writeChar_cases c with ⟨hc, -⟩ | ⟨-, hc⟩ | ⟨word, hc, -, hword⟩
      · exact hne hc
      · rw [hc] at hmem
        exact absurd hmem (by decide)
      · rw [hc, List.mem_cons] at hmem
        exact hmem.elim (by decide) hword
  rw [isMarketPausedError, RustText.contains, decide_eq_true_eq, toList_message, hpattern,
    infix_append_of_not_mem (not_mem_lead hoperation (.inl rfl)),
    infix_listed (by decide) (by decide), ← hpattern]
  exact exists_congr fun event => and_congr_right fun _ => hevent event

end Recognition

section Mentions

variable {crates : Crates} {operation : String} {events : List String}

variable (crates) in
/-- Some event shows the pattern, or holds it behind base64. -/
def Mentions (events : List String) (pattern : String) : Prop :=
  ∃ event ∈ events, RustText.contains event pattern = true ∨ DecodedContains crates event pattern

theorem mentions_imp_iff {pattern : String} {R : Prop}
    (hplain : ∀ event ∈ events, RustText.contains event pattern = true → R) :
    (Mentions crates events pattern → R) ↔
      R ∨ ∀ event ∈ events, ¬DecodedContains crates event pattern := by
  constructor
  · intro h
    by_cases hR : R
    · exact .inl hR
    · exact .inr fun event hevent hdecoded => hR (h ⟨event, hevent, .inr hdecoded⟩)
  · rintro (hR | hnone) ⟨event, hevent, hshown | hdecoded⟩
    · exact hR
    · exact hR
    · exact hplain event hevent hshown
    · exact absurd hdecoded (hnone event hevent)

end Mentions

/-- A budget error behind base64 is recognised where the bytes are a text, a pause
only in plain events. -/
theorem failures_recognised_iff {crates : Crates} (law : Base64Decoding crates.base64Decode)
    {operation : String} (hoperation : isFunctionName operation = true) (events : List String) :
    ((Mentions crates events budgetExceededPattern → isBudgetExceeded crates
          (.submitted crates operation (.transactionFailed events)) = true) ∧
        (Mentions crates events marketPausedPattern → isMarketPausedError
          (.submitted crates operation (.transactionFailed events)) = true)) ↔
      ((∃ event ∈ events, RustText.contains event budgetExceededPattern = true ∨
            DecodesTo crates (RustText.trim (lastPrinted crates event)) budgetExceededPattern) ∨
          ∀ event ∈ events, ¬DecodedContains crates event budgetExceededPattern) ∧
        ((∃ event ∈ events, RustText.contains event marketPausedPattern = true) ∨
          ∀ event ∈ events, ¬DecodedContains crates event marketPausedPattern) := by
  rw [isBudgetExceeded_iff hoperation law, isMarketPausedError_iff hoperation]
  refine and_congr (mentions_imp_iff ?_) (mentions_imp_iff ?_)
  · exact fun event hevent hshown => ⟨event, hevent, .inl hshown⟩
  · exact fun event hevent hshown => ⟨event, hevent, hshown⟩

section Samples

/-- The pattern behind a byte that no text begins with. -/
def binaryEvent : String := "/0J1ZGdldCwgRXhjZWVkZWRMaW1pdA=="

def limitEvent : String := "QnVkZ2V0LCBFeGNlZWRlZExpbWl0"

def pausedEvent : String := "TWFya2V0UGF1c2Vk"

def eventCrates : Crates :=
  { SubmitOutcome.sampleCrates with
    base64Decode := fun s =>
      if s = binaryEvent then some (0xff :: RustText.asBytes budgetExceededPattern)
      else if s = limitEvent then some (RustText.asBytes budgetExceededPattern)
      else if s = pausedEvent then some (RustText.asBytes marketPausedPattern)
      else none }

theorem eventCrates_base64 : Base64Decoding eventCrates.base64Decode where
  alphabet := by
    intro s bytes h
    dsimp only [eventCrates] at h
    split_ifs at h with hbinary hlimit hpaused
    · subst hbinary
      decide +kernel
    · subst hlimit
      decide +kernel
    · subst hpaused
      decide +kernel
  length := by
    intro s bytes h
    dsimp only [eventCrates] at h
    split_ifs at h with hbinary hlimit hpaused
    · subst hbinary
      cases h
      decide +kernel
    · subst hlimit
      cases h
      decide +kernel
    · subst hpaused
      cases h
      decide +kernel

end Samples

theorem failures_recognised_iff_limitEvent :
    (Mentions eventCrates [limitEvent] budgetExceededPattern → isBudgetExceeded eventCrates
        (.submitted eventCrates "execute_order" (.transactionFailed [limitEvent])) = true) ∧
      (Mentions eventCrates [limitEvent] marketPausedPattern → isMarketPausedError
        (.submitted eventCrates "execute_order" (.transactionFailed [limitEvent])) = true) := by
  have htext : DecodesTo eventCrates (RustText.trim (lastPrinted eventCrates limitEvent))
      budgetExceededPattern := by
    refine ⟨RustText.asBytes budgetExceededPattern, budgetExceededPattern, ?_, ?_, ?_⟩ <;>
      decide +kernel
  have hnone : ∀ event ∈ [limitEvent], ¬DecodedContains eventCrates event marketPausedPattern := by
    intro event hevent
    rw [List.mem_singleton.mp hevent]
    rintro ⟨bytes, hbytes, hpattern⟩
    cases hbytes
    revert hpattern
    decide +kernel
  exact (failures_recognised_iff eventCrates_base64 (by decide) [limitEvent]).mpr
    ⟨.inl ⟨limitEvent, List.mem_singleton_self _, .inr htext⟩, .inr hnone⟩

/-- One byte before the text hides a budget error, and a pause is never decoded. -/
theorem failures_missed :
    Mentions eventCrates [binaryEvent] budgetExceededPattern ∧
      isBudgetExceeded eventCrates
        (.submitted eventCrates "execute_order" (.transactionFailed [binaryEvent])) = false ∧
      Mentions eventCrates [pausedEvent] marketPausedPattern ∧
      isMarketPausedError
        (.submitted eventCrates "execute_order" (.transactionFailed [pausedEvent])) = false := by
  refine ⟨⟨binaryEvent, List.mem_singleton_self _, .inr ⟨_, rfl, ?_⟩⟩, ?_,
    ⟨pausedEvent, List.mem_singleton_self _, .inr ⟨_, rfl, ?_⟩⟩, ?_⟩ <;> decide +kernel

end So4Oracle.FailureEvents
