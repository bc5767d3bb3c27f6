import So4Oracle.CycleOutcome
import So4Oracle.PriceScript

namespace So4Oracle.CacheFreshness

open Library.Checked Library.Requests Library.Safety Wire Config State StellarRpc Sources
  PriceCycle PriceScript CycleOutcome KeeperScript

variable {F : Type} {num : Numerics F} {crates : Crates} {settings : Settings}
  {signPrice : SignPrice} {ledgerAt : Nat → Nat}

/-- The cycle supplied the price: it built it, or found it not stale when it
checked it after a failed build. -/
def Supplied (price : CachedPrice) (entry : TokenConfig × TokenOutcome) : Prop :=
  entry.2 = .built price ∨
    ∃ checkedAt, entry.2 = .kept price checkedAt ∧
      price.isStale entry.1.staleAfterSeconds checkedAt = false

/-- The token was built, or the price cached for it when the cycle began was not
stale at the second of the check. -/
def renewed (crates : Crates) (prices : PriceMap) (entry : TokenConfig × TokenOutcome) : Bool :=
  match entry.2 with
  | .built _ => true
  | .kept _ checkedAt | .stale _ checkedAt =>
      prices[lookupKey crates entry.1]?.any fun cached =>
        !cached.isStale entry.1.staleAfterSeconds checkedAt
  | .failed => false

/-- After the cycle the cache holds nothing under a token's key but what the
cycle supplied. -/
def ServesFresh (crates : Crates) (settings : Settings)
    (outcomes : List (TokenConfig × TokenOutcome)) (prices : PriceMap) : Prop :=
  ∀ token ∈ settings.tokens, ∀ price, prices[lookupKey crates token]? = some price →
    ∃ entry ∈ outcomes, lookupKey crates entry.1 = lookupKey crates token ∧ Supplied price entry

section Publication

variable {prices : PriceMap} {ledgerSeq latest : Nat} {entry : TokenConfig × TokenOutcome}
  {outcomes : List (TokenConfig × TokenOutcome)} {price : CachedPrice} {key : String}

theorem Supplied.published (h : Supplied price entry) : entry.2.published = some price := by
  rcases h with h | ⟨checkedAt, h, -⟩ <;> rw [h] <;> rfl

theorem supplied_of_published (hreport : Reports crates prices ledgerSeq latest entry)
    (h : entry.2.published = some price) : Supplied price entry := by
  obtain ⟨token, outcome⟩ := entry
  cases outcome with
  | built built =>
      cases h
      exact .inl rfl
  | kept kept checkedAt =>
      cases h
      exact .inr ⟨checkedAt, rfl, hreport.2⟩
  | stale | failed => cases h

theorem renewed_iff_published (hreport : Reports crates prices ledgerSeq latest entry) :
    renewed crates prices entry = true ↔ ∃ price, entry.2.published = some price := by
  obtain ⟨token, outcome⟩ := entry
  cases outcome with
  | built built => exact ⟨fun _ => ⟨built, rfl⟩, fun _ => rfl⟩
  | kept kept checkedAt =>
      refine ⟨fun _ => ⟨kept, rfl⟩, fun _ => ?_⟩
      simp [renewed, hreport.1, hreport.2]
  | stale stale checkedAt =>
      have hnot : renewed crates prices (token, .stale stale checkedAt) = false := by
        simp [renewed, hreport.1, hreport.2]
      rw [hnot]
      constructor
      · intro h
        cases h
      · rintro ⟨price, h⟩
        cases h
  | failed =>
      constructor
      · intro h
        cases h
      · rintro ⟨price, h⟩
        cases h

variable (hreports : ∀ entry ∈ outcomes, Reports crates prices ledgerSeq latest entry)
include hreports

theorem newPrices_supplied (h : (newPrices crates outcomes)[key]? = some price) :
    ∃ entry ∈ outcomes, lookupKey crates entry.1 = key ∧ Supplied price entry := by
  obtain ⟨entry, hmem, hkey, hpublished⟩ := mem_publications.mp (mem_of_getElem?_ofList h)
  exact ⟨entry, hmem, hkey, supplied_of_published (hreports entry hmem) hpublished⟩

theorem isSome_newPrices_iff :
    (newPrices crates outcomes)[key]?.isSome ↔
      ∃ entry ∈ outcomes, lookupKey crates entry.1 = key ∧ renewed crates prices entry = true := by
  rw [newPrices, isSome_getElem?_ofList]
  constructor
  · rintro ⟨price, h⟩
    obtain ⟨entry, hmem, hkey, hpublished⟩ := mem_publications.mp h
    exact ⟨entry, hmem, hkey, (renewed_iff_published (hreports entry hmem)).mpr ⟨price, hpublished⟩⟩
  · rintro ⟨entry, hmem, hkey, hrenewed⟩
    obtain ⟨price, hpublished⟩ := (renewed_iff_published (hreports entry hmem)).mp hrenewed
    exact ⟨price, mem_publications.mpr ⟨entry, hmem, hkey, hpublished⟩⟩

theorem isEmpty_newPrices_iff :
    (newPrices crates outcomes).isEmpty = true ↔
      ∀ entry ∈ outcomes, renewed crates prices entry = false := by
  rw [Std.TreeMap.isEmpty_iff_forall_not_mem]
  constructor
  · intro hempty entry hmem
    by_contra hrenewed
    rw [Bool.not_eq_false] at hrenewed
    have hsome := (isSome_newPrices_iff hreports).mpr ⟨entry, hmem, rfl, hrenewed⟩
    exact hempty _ (Std.TreeMap.mem_iff_isSome_getElem?.mpr hsome)
  · intro hnone key hkey
    obtain ⟨entry, hmem, -, hrenewed⟩ :=
      (isSome_newPrices_iff hreports).mp (Std.TreeMap.mem_iff_isSome_getElem?.mp hkey)
    rw [hnone entry hmem] at hrenewed
    cases hrenewed

end Publication

/-- A stale price survives when some token was renewed, which spares the cache
the clearing, and none of the tokens with its own key was. -/
abbrev NoneLeftStale (crates : Crates) (prices : PriceMap)
    (outcomes : List (TokenConfig × TokenOutcome)) : Prop :=
  (∀ entry ∈ outcomes, renewed crates prices entry = false) ∨
    ∀ entry ∈ outcomes, lookupKey crates entry.1 ∈ prices →
      ∃ entry' ∈ outcomes, lookupKey crates entry'.1 = lookupKey crates entry.1 ∧
        renewed crates prices entry' = true

section Served

variable {prices : PriceMap} {ledgerSeq latest : Nat}
  {outcomes : List (TokenConfig × TokenOutcome)}

theorem publishedPrices_of_isEmpty (h : (newPrices crates outcomes).isEmpty = true) :
    publishedPrices crates prices outcomes = ∅ := if_pos h

theorem getElem?_publishedPrices (h : ¬(newPrices crates outcomes).isEmpty = true) (key : String) :
    (publishedPrices crates prices outcomes)[key]? =
      (newPrices crates outcomes)[key]?.or prices[key]? := by
  rw [publishedPrices, if_neg h, getElem?_insertMany_toList]

theorem noneLeftStale_of_servesFresh (htokens : outcomes.map Prod.fst = settings.tokens)
    (hreports : ∀ entry ∈ outcomes, Reports crates prices ledgerSeq latest entry)
    (hserves : ServesFresh crates settings outcomes (publishedPrices crates prices outcomes)) :
    NoneLeftStale crates prices outcomes := by
  by_cases hempty : (newPrices crates outcomes).isEmpty = true
  · exact .inl ((isEmpty_newPrices_iff hreports).mp hempty)
  · refine .inr (fun entry hmem hkey => ?_)
    rw [← isSome_newPrices_iff hreports]
    by_contra hnone
    rw [Option.not_isSome_iff_eq_none] at hnone
    obtain ⟨price, hprice⟩ : ∃ price, prices[lookupKey crates entry.1]? = some price :=
      Option.isSome_iff_exists.mp (Std.TreeMap.mem_iff_isSome_getElem?.mp hkey)
    have hserved : (publishedPrices crates prices outcomes)[lookupKey crates entry.1]? =
        some price := by
      rw [getElem?_publishedPrices hempty, hnone, Option.none_or, hprice]
    have htoken : entry.1 ∈ settings.tokens := htokens ▸ List.mem_map_of_mem hmem
    obtain ⟨entry', hmem', hkey', hsupplied⟩ := hserves entry.1 htoken price hserved
    have hrenewed := (renewed_iff_published (hreports entry' hmem')).mpr ⟨price, hsupplied.published⟩
    have hsome := (isSome_newPrices_iff hreports).mpr ⟨entry', hmem', hkey', hrenewed⟩
    rw [hnone] at hsome
    cases hsome

theorem servesFresh_of_noneLeftStale (htokens : outcomes.map Prod.fst = settings.tokens)
    (hreports : ∀ entry ∈ outcomes, Reports crates prices ledgerSeq latest entry)
    (hnone : NoneLeftStale crates prices outcomes) :
    ServesFresh crates settings outcomes (publishedPrices crates prices outcomes) := by
  intro token htoken price hprice
  by_cases hempty : (newPrices crates outcomes).isEmpty = true
  · rw [publishedPrices_of_isEmpty hempty, Std.TreeMap.getElem?_emptyc] at hprice
    cases hprice
  · rw [getElem?_publishedPrices hempty] at hprice
    cases hnew : (newPrices crates outcomes)[lookupKey crates token]? with
    | some supplied =>
        rw [hnew, Option.some_or] at hprice
        cases hprice
        exact newPrices_supplied hreports hnew
    | none =>
        rw [hnew, Option.none_or] at hprice
        rcases hnone with hnone | hrenewed
        · exact absurd ((isEmpty_newPrices_iff hreports).mpr hnone) hempty
        · obtain ⟨entry, hmem, rfl⟩ := List.mem_map.mp (htokens ▸ htoken)
          have hkey : lookupKey crates entry.1 ∈ prices :=
            Std.TreeMap.mem_iff_isSome_getElem?.mpr (Option.isSome_of_eq_some hprice)
          have hsome := (isSome_newPrices_iff hreports).mpr (hrenewed entry hmem hkey)
          rw [hnew] at hsome
          cases hsome

end Served

/-- A completed cycle leaves nothing stale under a token's key exactly when no
token was renewed or every token with a cached price shares its key with one
that was. -/
theorem priceCycle_servesFresh_iff {w v : PriceWorld}
    {outcomes : List (TokenConfig × TokenOutcome)} {stale : Nat}
    (h : Finishes (priceTask F ledgerAt) (priceCycle num crates settings signPrice) w.enter
      (.ok (outcomes, stale)) v) :
    ServesFresh crates settings outcomes v.prices ↔ NoneLeftStale crates w.prices outcomes := by
  have hw : Underway w.prices w.clock w.enter := ⟨rfl, rfl, Nat.le_refl _⟩
  have hcompleted := (priceCycle_safe (I := fun _ => True) (fun _ _ => trivial)
    (fun _ _ _ _ => trivial) hw).finishes h _ rfl
  obtain ⟨time, -, hreports⟩ := hcompleted.reports
  rw [hcompleted.published]
  exact ⟨noneLeftStale_of_servesFresh hcompleted.tokens hreports,
    servesFresh_of_noneLeftStale hcompleted.tokens hreports⟩

/-- Coinbase fails for the second token, whose cached price is still fresh. -/
theorem priceCycle_servesFresh_freshEther :
    ∃ outcomes stale v, Finishes (priceTask (Option ℚ) fiveSecondLedgers)
      (priceCycle exactNumerics nodeCrates mixedSettings unsigned) (cachedEther 1000).enter
      (.ok (outcomes, stale)) v ∧
      v.prices["ceth"]? = some (etherPrice 1000) ∧
      ServesFresh nodeCrates mixedSettings outcomes v.prices := by
  have hrun : ∃ outcomes stale v, Finishes (priceTask (Option ℚ) fiveSecondLedgers)
      (priceCycle exactNumerics nodeCrates mixedSettings unsigned) (cachedEther 1000).enter
      (.ok (outcomes, stale)) v ∧
      decide (v.prices["ceth"]? = some (etherPrice 1000) ∧
        NoneLeftStale nodeCrates (cachedEther 1000).prices outcomes) = true :=
    exists_completed noQuote (fun outcomes v =>
      decide (v.prices["ceth"]? = some (etherPrice 1000) ∧
        NoneLeftStale nodeCrates (cachedEther 1000).prices outcomes)) (by decide +kernel)
  obtain ⟨outcomes, stale, v, hfinishes, htest⟩ := hrun
  obtain ⟨hether, hnone⟩ := of_decide_eq_true htest
  exact ⟨outcomes, stale, v, hfinishes, hether, (priceCycle_servesFresh_iff hfinishes).mpr hnone⟩

/-- The first token is built, so the stale price of the second is not cleared. -/
theorem priceCycle_leaves_stale_price :
    ∃ outcomes stale v, Finishes (priceTask (Option ℚ) fiveSecondLedgers)
      (priceCycle exactNumerics nodeCrates mixedSettings unsigned) (cachedEther 900).enter
      (.ok (outcomes, stale)) v ∧
      v.prices["ceth"]? = some (etherPrice 900) ∧
      (etherPrice 900).isStale 60 (secondsOf (cachedEther 900).clock) = true ∧
      ¬ServesFresh nodeCrates mixedSettings outcomes v.prices := by
  have hrun : ∃ outcomes stale v, Finishes (priceTask (Option ℚ) fiveSecondLedgers)
      (priceCycle exactNumerics nodeCrates mixedSettings unsigned) (cachedEther 900).enter
      (.ok (outcomes, stale)) v ∧
      decide (v.prices["ceth"]? = some (etherPrice 900) ∧
        ∀ entry ∈ outcomes, entry.2.published ≠ some (etherPrice 900)) = true :=
    exists_completed noQuote (fun outcomes v =>
      decide (v.prices["ceth"]? = some (etherPrice 900) ∧
        ∀ entry ∈ outcomes, entry.2.published ≠ some (etherPrice 900))) (by decide +kernel)
  obtain ⟨outcomes, stale, v, hfinishes, htest⟩ := hrun
  obtain ⟨hether, hnone⟩ := of_decide_eq_true htest
  refine ⟨outcomes, stale, v, hfinishes, hether, by decide, fun hserves => ?_⟩
  have htoken : mixedSettings.tokens[1] ∈ mixedSettings.tokens := List.getElem_mem _
  obtain ⟨entry, hmem, -, hsupplied⟩ := hserves _ htoken (etherPrice 900) hether
  exact hnone entry hmem hsupplied.published

end So4Oracle.CacheFreshness
