import So4Oracle.DecimalText
import So4Oracle.PriceCycle
import So4Oracle.PriceOverflow

namespace So4Oracle.Upstream

open Library.Checked Library.Decimals Wire Config State StellarRpc Prices Sources PriceCycle
  DecimalText

section Prices

inductive BinancePriceError
  | networkError (error : String)
  | httpError (status : Nat) (body : String)
  | jsonError (error : String)
  | priceParseError (error : String)
  deriving DecidableEq, Repr

namespace BinancePriceError

def display : BinancePriceError → String
  | networkError error => "Binance network error: " ++ error
  | httpError status body =>
      if body = "" then "Binance returned HTTP " ++ toString status
      else "Binance returned HTTP " ++ toString status ++ ": " ++ body
  | jsonError error => "invalid Binance response: " ++ error
  | priceParseError error => "invalid Binance price: " ++ error

def isRetryable : BinancePriceError → Bool
  | networkError _ => true
  | httpError status _ => 500 ≤ status || status == 429
  | jsonError _ | priceParseError _ => false

def toClient (e : BinancePriceError) : ClientError := ⟨e.display, e.isRetryable⟩

end BinancePriceError

def floatPrecision : Int := 10 ^ scaleDigits

def parseError {α : Type} (msg : String) : Except BinancePriceError α := .error (.priceParseError msg)

/-- At most the digits of the scale, padded with zeros. -/
def normalizeFraction (frac : String) : String :=
  if scaleDigits ≤ frac.toList.length then RustText.takeChars frac scaleDigits
  else String.ofList (frac.toList ++ List.replicate (scaleDigits - frac.toList.length) '0')

def parseWhole (text whole : String) : Except BinancePriceError Int :=
  match RustText.parseI128 whole with
  | some value => .ok value
  | none => parseError ("overflow for price (whole part too large): " ++ text)

def parseFraction (text frac : String) : Except BinancePriceError Int :=
  if normalizeFraction frac = "" then .ok 0
  else
    match RustText.parseI128 (normalizeFraction frac) with
    | some value => .ok value
    | none => parseError ("invalid fractional part: " ++ text)

def checkedOr (text : String) (value : Int) : Except BinancePriceError Int :=
  match (checked value).toOption with
  | some value => .ok value
  | none => parseError ("overflow for price: " ++ text)

def scaleDecimal (text whole frac : String) : Except BinancePriceError Int :=
  if ¬whole.toList.all Char.isDigit = true then parseError ("invalid whole part: " ++ text)
  else if ¬frac.toList.all Char.isDigit = true then parseError ("invalid fractional part: " ++ text)
  else do
    let wholeValue ← parseWhole text whole
    let fracValue ← parseFraction text frac
    let wholeScaled ← checkedOr text (wholeValue * floatPrecision)
    let scaled ← checkedOr text (wholeScaled + fracValue)
    if scaled = 0 then parseError "price must be greater than zero" else .ok scaled

def parsePriceToPrecision (raw : String) : Except BinancePriceError Int :=
  let text := RustText.trim raw
  if text = "" then parseError "empty price string"
  else if RustText.startsWith text "-" then parseError "negative prices are not supported"
  else
    match RustText.splitChar text '.' with
    | [] => scaleDecimal text "0" ""
    | [whole] => scaleDecimal text whole ""
    | [whole, frac] => scaleDecimal text whole frac
    | _ => parseError ("invalid decimal format: " ++ text)

end Prices

section Admitted

open PriceOverflow

section Decimals

variable {text whole frac raw : String} {value price : Int}

theorem normalizeFraction_toList (frac : String) :
    (normalizeFraction frac).toList = places scaleDigits frac.toList := by
  rw [normalizeFraction, places]
  split
  next hlong =>
    rw [RustText.takeChars, String.toList_ofList, List.take_append_of_le_length hlong]
  next hshort =>
    rw [String.toList_ofList, List.take_append, List.take_of_length_le (not_le.mp hshort).le,
      List.take_replicate, Nat.min_eq_left (Nat.sub_le _ _)]

theorem parseWhole_eq_ok (h : ∀ c ∈ whole.toList, c.isDigit = true) :
    parseWhole text whole = .ok value ↔
      whole.toList ≠ [] ∧ value = digitsValue whole.toList ∧ value ≤ i128Max := by
  rw [← parseI128_digits h, parseWhole]
  cases RustText.parseI128 whole <;> simp [parseError]

/-- Thirty digits always fit. -/
theorem parseFraction_digits (h : ∀ c ∈ frac.toList, c.isDigit = true) :
    parseFraction text frac = .ok (digitsValue (places scaleDigits frac.toList) : Int) := by
  have hdigits := places_digits (k := scaleDigits) h
  have hlength := length_places scaleDigits frac.toList
  have hne : places scaleDigits frac.toList ≠ [] := by
    apply List.ne_nil_of_length_pos
    rw [hlength]
    decide
  have hlt := digitsValue_lt hdigits
  rw [hlength] at hlt
  have hfits : (digitsValue (places scaleDigits frac.toList) : Int) ≤ i128Max := by
    have hbound : ((10 ^ scaleDigits : Nat) : Int) ≤ i128Max := by decide
    omega
  have hparse : RustText.parseI128 (normalizeFraction frac) =
      some (digitsValue (places scaleDigits frac.toList) : Int) := by
    rw [← normalizeFraction_toList] at hdigits hne hfits ⊢
    exact (parseI128_digits hdigits).mpr ⟨hne, rfl, hfits⟩
  have hnonempty : normalizeFraction frac ≠ "" := by
    intro hempty
    rw [← normalizeFraction_toList, hempty] at hne
    exact hne rfl
  rw [parseFraction, if_neg hnonempty, hparse]

theorem checkedOr_eq_ok :
    checkedOr text value = .ok price ↔ value = price ∧ i128Min ≤ value ∧ value ≤ i128Max := by
  rw [← checked_eq_ok, checkedOr]
  cases checked value <;> simp [Except.toOption, parseError]

/-- A decimal is accepted in its two parts where what it is worth fits. -/
theorem scaleDecimal_eq_ok :
    scaleDecimal text whole frac = .ok price ↔
      ∃ n : Numeral, n.whole = whole.toList ∧ n.frac = frac.toList ∧
        price = n.scaled scaleDigits ∧ 0 < price ∧ price ≤ i128Max := by
  have hlow : i128Min ≤ 0 := by decide
  rw [scaleDecimal]
  split
  next hwhole =>
    constructor
    · intro h
      cases h
    · rintro ⟨n, hn, -⟩
      exact absurd (List.all_eq_true.mpr (hn ▸ n.whole_digits)) hwhole
  next hwhole =>
    rw [not_not, List.all_eq_true] at hwhole
    split
    next hfrac =>
      constructor
      · intro h
        cases h
      · rintro ⟨n, -, hn, -⟩
        exact absurd (List.all_eq_true.mpr (hn ▸ n.frac_digits)) hfrac
    next hfrac =>
      rw [not_not, List.all_eq_true] at hfrac
      constructor
      · intro h
        obtain ⟨wholeValue, hwholeValue, h⟩ := bind_eq_ok.mp h
        obtain ⟨fracValue, hfracValue, h⟩ := bind_eq_ok.mp h
        obtain ⟨wholeScaled, hwholeScaled, h⟩ := bind_eq_ok.mp h
        obtain ⟨scaled, hscaled, h⟩ := bind_eq_ok.mp h
        obtain ⟨hne, rfl, -⟩ := (parseWhole_eq_ok hwhole).mp hwholeValue
        rw [parseFraction_digits hfrac] at hfracValue
        cases hfracValue
        obtain ⟨rfl, -⟩ := checkedOr_eq_ok.mp hwholeScaled
        obtain ⟨rfl, -, hfits⟩ := checkedOr_eq_ok.mp hscaled
        split at h
        next => cases h
        next hpositive =>
          cases h
          refine ⟨⟨_, _, hne, hwhole, hfrac⟩, rfl, rfl, rfl, ?_, hfits⟩
          have hnonneg : 0 ≤ (digitsValue whole.toList : Int) * floatPrecision :=
            mul_nonneg (Int.natCast_nonneg _) (by decide)
          omega
      · rintro ⟨n, hn, hn', rfl, hpositive, hfits⟩
        have hscaled : (n.scaled scaleDigits : Int) =
            digitsValue whole.toList * floatPrecision +
              digitsValue (places scaleDigits frac.toList) := by
          rw [Numeral.scaled, hn, hn']
          rfl
        have hprecision : (1 : Int) ≤ floatPrecision := by decide
        have hvalue : (digitsValue whole.toList : Int) ≤ digitsValue whole.toList * floatPrecision :=
          le_mul_of_one_le_right (Int.natCast_nonneg _) hprecision
        rw [hscaled] at hpositive hfits ⊢
        refine bind_eq_ok.mpr ⟨_, (parseWhole_eq_ok hwhole).mpr
          ⟨hn ▸ n.whole_ne_nil, rfl, by omega⟩, ?_⟩
        refine bind_eq_ok.mpr ⟨_, parseFraction_digits hfrac, ?_⟩
        refine bind_eq_ok.mpr ⟨_, checkedOr_eq_ok.mpr ⟨rfl, by omega, by omega⟩, ?_⟩
        refine bind_eq_ok.mpr ⟨_, checkedOr_eq_ok.mpr ⟨rfl, by omega, hfits⟩, ?_⟩
        rw [if_neg hpositive.ne']

/-- The text is split at its points, and at most one of them is let through. -/
theorem parsePriceToPrecision_eq_ok :
    parsePriceToPrecision raw = .ok price ↔
      ∃ n : Numeral, n.Written (RustText.trim raw).toList ∧ price = n.scaled scaleDigits ∧
        0 < price ∧ price ≤ i128Max := by
  generalize htext : RustText.trim raw = text
  have hsplit : RustText.splitChar text '.' = (text.toList.splitOn '.').map String.ofList := rfl
  have hjoin : ['.'].intercalate (text.toList.splitOn '.') = text.toList :=
    List.intercalate_splitOn '.'
  rw [parsePriceToPrecision, htext]
  constructor
  · intro h
    split at h
    next => cases h
    next =>
      split at h
      next => cases h
      next =>
        have hparts := List.splitOn_ne_nil '.' text.toList
        rw [hsplit] at h
        generalize text.toList.splitOn '.' = parts at h hjoin hparts
        -- the four shapes that the match tells apart
        rcases parts with _ | ⟨whole, _ | ⟨frac, _ | ⟨third, rest⟩⟩⟩
        · exact absurd rfl hparts
        · obtain ⟨n, hwhole, hfrac, hprice⟩ := scaleDecimal_eq_ok.mp h
          refine ⟨n, .inl ⟨?_, hfrac⟩, hprice⟩
          rw [hwhole, String.toList_ofList, ← hjoin]
          simp
        · obtain ⟨n, hwhole, hfrac, hprice⟩ := scaleDecimal_eq_ok.mp h
          refine ⟨n, .inr ?_, hprice⟩
          rw [hwhole, hfrac, String.toList_ofList, String.toList_ofList, ← hjoin]
          simp
        · cases h
  · rintro ⟨n, hwritten, hprice⟩
    have hnonempty : text ≠ "" := by
      rintro rfl
      rcases hwritten with ⟨hempty, -⟩ | hempty
      · exact n.whole_ne_nil hempty.symm
      · simp at hempty
    have hsign : RustText.startsWith text "-" = false := by
      have hminus := hwritten.not_mem (c := '-') rfl (by decide)
      by_contra hstarts
      rw [Bool.not_eq_false, RustText.startsWith, List.isPrefixOf_iff_prefix] at hstarts
      exact hminus (hstarts.subset (List.mem_singleton_self '-'))
    rw [if_neg hnonempty, if_neg (by simp [hsign]), hsplit]
    rcases hwritten.splitOn with ⟨hparts, hfrac⟩ | hparts
    · rw [hparts]
      exact scaleDecimal_eq_ok.mpr ⟨n, by simp, by simp [hfrac], hprice⟩
    · rw [hparts]
      exact scaleDecimal_eq_ok.mpr ⟨n, by simp, by simp, hprice⟩

end Decimals

/-- Binance and Coinbase prices are in the range that the aggregation is given. -/
theorem parsePriceToPrecision_admitted {raw : String} {price : Int}
    (h : parsePriceToPrecision raw = .ok price) : Admitted price := by
  obtain ⟨-, -, -, hpositive, hfits⟩ := parsePriceToPrecision_eq_ok.mp h
  exact ⟨hpositive, hfits⟩

variable {F : Type} {num : Numerics F}

theorem validatePythPrice_admitted {data : PythPriceData}
    {nowSeconds staleAfterSeconds maxConfidenceBps : Nat} {quoted : PriceWithObservationTime}
    (h : validatePythPrice num data nowSeconds staleAfterSeconds maxConfidenceBps = .ok quoted) :
    Admitted quoted.price := by
  obtain ⟨hprice, -, hpos⟩ := validatePythPrice_eq_ok h
  rw [normalizePythPrice] at hprice
  split at hprice
  next => cases hprice
  next =>
    split at hprice
    next => cases hprice
    next raw hraw =>
      split at hprice
      next => cases hprice
      next =>
        cases hchecked : checked (raw * 10 ^ ((scaleDigits : Int) + data.expo).toNat) with
        | error fault =>
            rw [hchecked] at hprice
            cases hprice
        | ok scaled =>
            rw [hchecked] at hprice
            obtain rfl := Except.ok.inj hprice
            obtain ⟨hscaled, -, hle⟩ := checked_eq_ok.mp hchecked
            exact ⟨hpos, hscaled ▸ hle⟩

theorem fixedPrice_admitted {token : TokenConfig} {price : Int} (h : fixedPrice token = .ok price) :
    Admitted price := by
  rw [fixedPrice] at h
  split at h
  next => cases h
  next raw hraw =>
    split at h
    next => cases h
    next value hvalue =>
      split at h
      next => cases h
      next hpos =>
        cases h
        obtain ⟨-, hrange⟩ := Option.filter_eq_some_iff.mp hvalue
        rw [Bool.and_eq_true, decide_eq_true_eq, decide_eq_true_eq] at hrange
        exact ⟨not_le.mp hpos, Int.le_sub_one_of_lt hrange.2⟩

end Admitted

section Answers

/-- An entry of a provider's answer, under the identifier it is listed with.
What it holds is `none` where it does not deserialise. -/
structure RawEntry (α : Type) where
  id : String
  content : Option α
  deriving DecidableEq, Repr

/-- What comes back over HTTP: no answer, a status other than 200, a body that
is no such document, or its entries. -/
inductive HttpAnswer (α : Type)
  | unreachable (error : String)
  | refused (status : Nat) (body : String)
  | malformed (error : String)
  | entries (l : List (RawEntry α))
  deriving DecidableEq, Repr

structure BinanceTickerEntry where
  symbol : String
  price : String

def untagged (enum : String) : String := "data did not match any variant of untagged enum " ++ enum

/-- The document is read as a whole: one entry that does not deserialise fails it. -/
def readFeeds (l : List (RawEntry PythPriceData)) : Option (List PythPriceFeed) :=
  l.mapM fun entry => entry.content.map fun price => ⟨entry.id, price⟩

def readTickers (l : List (RawEntry String)) : Option (List BinanceTickerEntry) :=
  l.mapM fun entry => entry.content.map fun price => ⟨entry.id, price⟩

variable {F : Type}

def parseHermesResponse : HttpAnswer PythPriceData → Except (PythPriceError F) (KeyMap PythPriceFeed)
  | .unreachable e => .error (.networkError e)
  | .refused status body => .error (.httpError status (truncateErrorBody body))
  | .malformed e => .error (.jsonError e)
  | .entries l =>
      match readFeeds l with
      | none => .error (.jsonError (untagged "HermesResponse"))
      | some feeds => .ok (.ofList (feeds.map fun feed => (feed.id, feed)))

/-- The first price that does not parse fails all symbols. -/
def spotPrices (entries : List BinanceTickerEntry) :
    List String → Except BinancePriceError (List (String × Int))
  | [] => .ok []
  | symbol :: symbols =>
      match entries.find? fun entry => entry.symbol == symbol with
      | none => spotPrices entries symbols
      | some found => do
          let scaled ← parsePriceToPrecision found.price
          let results ← spotPrices entries symbols
          .ok ((found.symbol, scaled) :: results)

def parseTickerResponse (symbols : List String) :
    HttpAnswer String → Except BinancePriceError (List (String × Int))
  | .unreachable e => .error (.networkError e)
  | .refused status body => .error (.httpError status (truncateErrorBody body))
  | .malformed e => .error (.jsonError e)
  | .entries l =>
      match readTickers l with
      | none => .error (.jsonError (untagged "BinanceTickerResponse"))
      | some entries => spotPrices entries symbols

/-- What the price loop sees of an answer of Binance. -/
def tickerAnswer (symbols : List String) (answer : HttpAnswer String) :
    Except ClientError (List (String × Int)) :=
  (parseTickerResponse symbols answer).mapError BinancePriceError.toClient

/-- The currency that Coinbase is asked for. -/
def baseCurrency (symbol : String) : String :=
  (((RustText.stripSuffix symbol "USDT").orElse fun _ => RustText.stripSuffix symbol "USD").filter
    fun stripped => stripped ≠ "").getD symbol

end Answers

section Reads

variable {α β : Type} {F : Type}

/-- Every entry deserialises. -/
def Reads : HttpAnswer α → Prop
  | .entries l => ∀ entry ∈ l, entry.content.isSome
  | _ => False

/-- Every entry deserialises, and those that are looked for hold a price. -/
def ReadsPrices (symbols : List String) : HttpAnswer String → Prop
  | .entries l => Reads (.entries l) ∧ ∀ symbol ∈ symbols, ∀ entry,
      l.find? (fun entry => entry.id == symbol) = some entry →
        ∀ text ∈ entry.content, ∃ price, parsePriceToPrecision text = .ok price
  | _ => False

theorem Reads.entries {answer : HttpAnswer α} (h : Reads answer) : ∃ l, answer = .entries l := by
  cases answer with
  | unreachable | refused | malformed => exact h.elim
  | entries l => exact ⟨l, rfl⟩

theorem ReadsPrices.entries {symbols : List String} {answer : HttpAnswer String}
    (h : ReadsPrices symbols answer) : ∃ l, answer = .entries l := by
  cases answer with
  | unreachable | refused | malformed => exact h.elim
  | entries l => exact ⟨l, rfl⟩

theorem isSome_mapM {f : α → Option β} {l : List α} :
    (l.mapM f).isSome ↔ ∀ a ∈ l, (f a).isSome := by
  induction l with
  | nil => simp
  | cons a l ih =>
      rw [List.mapM_cons, List.forall_mem_cons, ← ih]
      cases f a with
      | none => simp
      | some b => cases l.mapM f <;> simp

theorem isSome_readFeeds {l : List (RawEntry PythPriceData)} :
    (readFeeds l).isSome ↔ Reads (.entries l) := by
  rw [readFeeds, isSome_mapM]
  simp [Reads]

theorem isSome_readTickers {l : List (RawEntry String)} :
    (readTickers l).isSome ↔ Reads (.entries l) := by
  rw [readTickers, isSome_mapM]
  simp [Reads]

theorem parseHermesResponse_ok_iff {answer : HttpAnswer PythPriceData} :
    (∃ feeds, parseHermesResponse (F := F) answer = .ok feeds) ↔ Reads answer := by
  cases answer with
  | unreachable | refused | malformed => simp [parseHermesResponse, Reads]
  | entries l =>
      rw [← isSome_readFeeds, parseHermesResponse]
      cases readFeeds l <;> simp

theorem readTickers_find {l : List (RawEntry String)} {entries : List BinanceTickerEntry}
    (h : readTickers l = some entries) (symbol : String) :
    entries.find? (fun entry => entry.symbol == symbol) =
      (l.find? fun entry => entry.id == symbol).bind fun entry =>
        entry.content.map fun price => ⟨entry.id, price⟩ := by
  induction l generalizing entries with
  | nil =>
      cases h
      rfl
  | cons entry l ih =>
      rw [readTickers, List.mapM_cons] at h
      obtain ⟨ticker, hticker, h⟩ := Option.bind_eq_some_iff.mp h
      obtain ⟨rest, hrest, h⟩ := Option.bind_eq_some_iff.mp h
      cases h
      obtain ⟨price, hprice, rfl⟩ := Option.map_eq_some_iff.mp hticker
      by_cases hid : entry.id = symbol
      · simp [hid, hprice]
      · simp [hid, ih hrest]

theorem spotPrices_ok_iff {entries : List BinanceTickerEntry} {symbols : List String} :
    (∃ results, spotPrices entries symbols = .ok results) ↔
      ∀ symbol ∈ symbols, ∀ found, entries.find? (fun entry => entry.symbol == symbol) = some found →
        ∃ price, parsePriceToPrecision found.price = .ok price := by
  induction symbols with
  | nil => simp [spotPrices]
  | cons symbol symbols ih =>
      rw [List.forall_mem_cons, ← ih, spotPrices]
      cases entries.find? fun entry => entry.symbol == symbol with
      | none => simp
      | some found =>
          simp [bind_eq_ok]

theorem parseTickerResponse_ok_iff {symbols : List String} {answer : HttpAnswer String} :
    (∃ results, parseTickerResponse symbols answer = .ok results) ↔ ReadsPrices symbols answer := by
  cases answer with
  | unreachable | refused | malformed => simp [parseTickerResponse, ReadsPrices]
  | entries l =>
      rw [ReadsPrices, ← isSome_readTickers, parseTickerResponse]
      cases hread : readTickers l with
      | none => simp
      | some entries =>
          apply spotPrices_ok_iff.trans
          simp only [Option.isSome_some, true_and]
          apply forall₂_congr
          intro symbol _
          rw [readTickers_find hread]
          cases l.find? fun entry => entry.id == symbol with
          | none => simp
          | some entry => cases hcontent : entry.content <;> simp [hcontent]

end Reads

section Entries

variable {α β : Type} {F : Type}

def ofOthers (id? : Option String) (entry : RawEntry α) : Bool := decide (id? ≠ some entry.id)

/-- Two answers that differ in the entries of one identifier. Such an entry may
also leave no document to read. -/
def DiffersAt (id? : Option String) : HttpAnswer α → HttpAnswer α → Prop
  | .entries l, .entries l' => l.filter (ofOthers id?) = l'.filter (ofOthers id?)
  | .entries _, .malformed _ | .malformed _, .entries _ | .malformed _, .malformed _ => True
  | answer, answer' => answer = answer'

theorem mapM_filter {read : α → Option β} {keep : α → Bool} {keep' : β → Bool}
    (hkeep : ∀ a b, read a = some b → keep a = keep' b) {l : List α} {l' : List β}
    (h : l.mapM read = some l') : (l.filter keep).mapM read = some (l'.filter keep') := by
  induction l generalizing l' with
  | nil =>
      cases h
      rfl
  | cons a l ih =>
      rw [List.mapM_cons] at h
      obtain ⟨b, hb, h⟩ := Option.bind_eq_some_iff.mp h
      obtain ⟨rest, hrest, h⟩ := Option.bind_eq_some_iff.mp h
      cases h
      have hsame := hkeep a b hb
      by_cases ha : keep a = true
      · rw [List.filter_cons_of_pos ha, List.filter_cons_of_pos (hsame ▸ ha), List.mapM_cons, hb,
          ih hrest]
        rfl
      · rw [List.filter_cons_of_neg ha, List.filter_cons_of_neg (hsame ▸ ha)]
        exact ih hrest

theorem readFeeds_filter {id? : Option String} {l : List (RawEntry PythPriceData)}
    {feeds : List PythPriceFeed} (h : readFeeds l = some feeds) :
    readFeeds (l.filter (ofOthers id?)) =
      some (feeds.filter fun feed => decide (id? ≠ some feed.id)) := by
  apply mapM_filter _ h
  intro entry feed hfeed
  obtain ⟨price, -, rfl⟩ := Option.map_eq_some_iff.mp hfeed
  rfl

theorem readTickers_filter {id? : Option String} {l : List (RawEntry String)}
    {entries : List BinanceTickerEntry} (h : readTickers l = some entries) :
    readTickers (l.filter (ofOthers id?)) =
      some (entries.filter fun entry => decide (id? ≠ some entry.symbol)) := by
  apply mapM_filter _ h
  intro entry ticker hticker
  obtain ⟨price, -, rfl⟩ := Option.map_eq_some_iff.mp hticker
  rfl

variable {id? : Option String} {id : String}

/-- Answers that both parse hold the same feeds but for the one identifier. -/
theorem parseHermesResponse_alike {answer answer' : HttpAnswer PythPriceData}
    {feeds feeds' : KeyMap PythPriceFeed} (hd : DiffersAt id? answer answer') (hid : id? ≠ some id)
    (h : parseHermesResponse (F := F) answer = .ok feeds)
    (h' : parseHermesResponse (F := F) answer' = .ok feeds') : feeds[id]? = feeds'[id]? := by
  have hread : ∀ {l : List (RawEntry PythPriceData)} {m : KeyMap PythPriceFeed},
      parseHermesResponse (F := F) (.entries l) = .ok m →
      ∃ read, readFeeds (l.filter (ofOthers id?)) = some read ∧
        m[id]? = (Std.TreeMap.ofList (read.map fun feed => (feed.id, feed)) :
          KeyMap PythPriceFeed)[id]? := by
    intro l m hm
    rw [parseHermesResponse] at hm
    split at hm
    next => cases hm
    next read hr =>
      cases hm
      refine ⟨_, readFeeds_filter hr, ?_⟩
      rw [← getElem?_ofList_filter (fun entry => decide (id? ≠ some entry.1))
        (fun _ => decide_eq_true hid), List.filter_map]
      rfl
  obtain ⟨l, rfl⟩ := (parseHermesResponse_ok_iff.mp ⟨feeds, h⟩).entries
  obtain ⟨l', rfl⟩ := (parseHermesResponse_ok_iff.mp ⟨feeds', h'⟩).entries
  obtain ⟨read, hr, hlookup⟩ := hread h
  obtain ⟨read', hr', hlookup'⟩ := hread h'
  rw [show l.filter (ofOthers id?) = l'.filter (ofOthers id?) from hd, hr'] at hr
  cases hr
  rw [hlookup, hlookup']

/-- One symbol of the answer: what it adds for the others is found among their entries. -/
theorem spotPrices_cons {entries : List BinanceTickerEntry} {symbol : String}
    {symbols : List String} {results : List (String × Int)}
    (h : spotPrices entries (symbol :: symbols) = .ok results) :
    ∃ rest, spotPrices entries symbols = .ok rest ∧
      results.filter (fun result => decide (id? ≠ some result.1)) =
        (((entries.filter fun entry => decide (id? ≠ some entry.symbol)).find?
          fun entry => entry.symbol == symbol).bind fun found =>
            (parsePriceToPrecision found.price).toOption.map fun scaled => (symbol, scaled)).toList ++
        rest.filter fun result => decide (id? ≠ some result.1) := by
  rw [spotPrices] at h
  split at h
  next hnone =>
    refine ⟨results, h, ?_⟩
    have hothers : (entries.filter fun entry => decide (id? ≠ some entry.symbol)).find?
        (fun entry => entry.symbol == symbol) = none := by
      rw [List.find?_eq_none] at hnone ⊢
      exact fun entry hentry => hnone entry (List.mem_of_mem_filter hentry)
    rw [hothers]
    rfl
  next found hfound =>
    obtain ⟨scaled, hscaled, h⟩ := bind_eq_ok.mp h
    obtain ⟨rest, hrest, h⟩ := bind_eq_ok.mp h
    cases h
    have hsymbol : found.symbol = symbol := by simpa using List.find?_some hfound
    refine ⟨rest, hrest, ?_⟩
    by_cases hid : id? = some symbol
    · have hothers : (entries.filter fun entry => decide (id? ≠ some entry.symbol)).find?
          (fun entry => entry.symbol == symbol) = none := by
        apply List.find?_eq_none.mpr
        intro entry hentry heq
        have hne : id? ≠ some entry.symbol := by simpa using List.of_mem_filter hentry
        exact hne (beq_iff_eq.mp heq ▸ hid)
      rw [hothers, List.filter_cons_of_neg (by simp [hsymbol, hid])]
      rfl
    · have hothers : (entries.filter fun entry => decide (id? ≠ some entry.symbol)).find?
          (fun entry => entry.symbol == symbol) = entries.find? fun entry => entry.symbol == symbol := by
        rw [List.find?_filter]
        congr 1
        funext entry
        by_cases hentry : entry.symbol = symbol
        · simp [hentry, hid]
        · simp [hentry]
      rw [hothers, hfound, Option.bind_some, hscaled,
        List.filter_cons_of_pos (by simp [hsymbol, hid]), hsymbol]
      rfl

theorem spotPrices_filter {entries entries' : List BinanceTickerEntry} {symbols : List String}
    {results results' : List (String × Int)}
    (hsame : entries.filter (fun entry => decide (id? ≠ some entry.symbol)) =
      entries'.filter fun entry => decide (id? ≠ some entry.symbol))
    (h : spotPrices entries symbols = .ok results) (h' : spotPrices entries' symbols = .ok results') :
    results.filter (fun result => decide (id? ≠ some result.1)) =
      results'.filter fun result => decide (id? ≠ some result.1) := by
  induction symbols generalizing results results' with
  | nil =>
      cases h
      cases h'
      rfl
  | cons symbol symbols ih =>
      obtain ⟨rest, hrest, hresults⟩ := spotPrices_cons h
      obtain ⟨rest', hrest', hresults'⟩ := spotPrices_cons h'
      rw [hresults, hresults', hsame, ih hrest hrest']

/-- Answers that both parse hold the same prices but for the one symbol. -/
theorem parseTickerResponse_alike {answer answer' : HttpAnswer String} {symbols : List String}
    {results results' : List (String × Int)} (hd : DiffersAt id? answer answer')
    (hid : id? ≠ some id) (h : parseTickerResponse symbols answer = .ok results)
    (h' : parseTickerResponse symbols answer' = .ok results') :
    (Std.TreeMap.ofList results : KeyMap Int)[id]? =
      (Std.TreeMap.ofList results' : KeyMap Int)[id]? := by
  have hread : ∀ {l : List (RawEntry String)} {results : List (String × Int)},
      parseTickerResponse symbols (.entries l) = .ok results →
      ∃ entries, readTickers (l.filter (ofOthers id?)) =
          some (entries.filter fun entry => decide (id? ≠ some entry.symbol)) ∧
        spotPrices entries symbols = .ok results := by
    intro l results hresults
    rw [parseTickerResponse] at hresults
    split at hresults
    next => cases hresults
    next entries hentries => exact ⟨entries, readTickers_filter hentries, hresults⟩
  obtain ⟨l, rfl⟩ := (parseTickerResponse_ok_iff.mp ⟨results, h⟩).entries
  obtain ⟨l', rfl⟩ := (parseTickerResponse_ok_iff.mp ⟨results', h'⟩).entries
  obtain ⟨entries, hentries, hspot⟩ := hread h
  obtain ⟨entries', hentries', hspot'⟩ := hread h'
  rw [show l.filter (ofOthers id?) = l'.filter (ofOthers id?) from hd, hentries'] at hentries
  have hsame := spotPrices_filter (Option.some.inj hentries).symm hspot hspot'
  rw [← getElem?_ofList_filter (fun result => decide (id? ≠ some result.1))
    (fun _ => decide_eq_true hid), hsame,
    getElem?_ofList_filter _ (fun _ => decide_eq_true hid)]

end Entries

end So4Oracle.Upstream
