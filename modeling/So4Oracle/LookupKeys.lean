import So4Oracle.Isolation
import So4Oracle.Library.Registry

namespace So4Oracle.LookupKeys

open Library.Checked Library.Registry Wire Config Isolation

section Validation

variable {ε : ConfigError} {crates : Crates} {seen seen' : Seen} {token : TokenConfig}

theorem insertUnique_eq_ok {known known' : List String} {x : String} :
    insertUnique known x ε = .ok known' ↔ known' = x :: known ∧ x ∉ known := by
  rw [insertUnique]
  split
  next hmem => simp [hmem]
  next hnew =>
    rw [and_iff_left hnew]
    exact ⟨fun h => (Except.ok.inj h).symm, fun h => h ▸ rfl⟩

def symbolKey (crates : Crates) (token : TokenConfig) : String := crates.toLowercase token.symbol

def addressKey (crates : Crates) (token : TokenConfig) : Option String :=
  if token.stellarAddress = "" then none else some (crates.toLowercase token.stellarAddress)

theorem insertAddress_eq_ok {known known' : List String}
    (h : insertAddress crates token known = .ok known') :
    known' = (addressKey crates token).toList ++ known ∧
      ∀ key ∈ addressKey crates token, key ∉ known := by
  rw [insertAddress] at h
  rw [addressKey]
  by_cases hempty : token.stellarAddress = ""
  · rw [if_pos hempty] at h ⊢
    cases h
    exact ⟨rfl, fun key hkey => nomatch hkey⟩
  · rw [if_neg hempty] at h ⊢
    obtain ⟨rfl, hnew⟩ := insertUnique_eq_ok.mp h
    refine ⟨rfl, fun key hkey => ?_⟩
    cases hkey
    exact hnew

/-- What the two checks of a token's names do to what has been seen. -/
theorem validateToken_eq_ok (h : validateToken crates seen token = .ok seen') :
    insertUnique seen.symbols (symbolKey crates token)
        (invalid token "duplicate symbol (case-insensitive)") = .ok seen'.symbols ∧
      insertAddress crates token seen.stellarAddresses = .ok seen'.stellarAddresses := by
  rw [validateToken] at h
  obtain ⟨-, -, h⟩ := bind_eq_ok.mp h
  obtain ⟨symbols, hsymbols, h⟩ := bind_eq_ok.mp h
  obtain ⟨stellarAddresses, haddresses, h⟩ := bind_eq_ok.mp h
  obtain ⟨pythFeedIds, -, h⟩ := bind_eq_ok.mp h
  obtain ⟨binanceSymbols, -, h⟩ := bind_eq_ok.mp h
  obtain ⟨coinbaseSymbols, -, h⟩ := bind_eq_ok.mp h
  obtain ⟨-, -, h⟩ := bind_eq_ok.mp h
  obtain ⟨-, -, h⟩ := bind_eq_ok.mp h
  obtain ⟨-, -, h⟩ := bind_eq_ok.mp h
  cases h
  exact ⟨hsymbols, haddresses⟩

theorem registers_symbols :
    Registers (validateToken crates) Seen.symbols fun token => some (symbolKey crates token) := by
  intro seen token seen' h
  obtain ⟨hseen, hnew⟩ := insertUnique_eq_ok.mp (validateToken_eq_ok h).1
  refine ⟨hseen, fun key hkey => ?_⟩
  cases hkey
  exact hnew

theorem registers_addresses :
    Registers (validateToken crates) Seen.stellarAddresses (addressKey crates) :=
  fun _ _ _ h => insertAddress_eq_ok (validateToken_eq_ok h).2

end Validation

section Accepted

variable {crates : Crates} {raw : String} {tokens : List TokenConfig}

/-- Symbols differ from symbols and addresses from addresses, whatever their case. -/
structure NamesApart (crates : Crates) (tokens : List TokenConfig) : Prop where
  symbols : tokens.Pairwise fun t u => symbolKey crates t ≠ symbolKey crates u
  addresses : tokens.Pairwise fun t u =>
    t.stellarAddress ≠ "" → u.stellarAddress ≠ "" →
      crates.toLowercase t.stellarAddress ≠ crates.toLowercase u.stellarAddress

theorem parseTokenConfigs_eq_ok (h : parseTokenConfigs crates raw = .ok tokens) :
    ∃ seen, tokens.foldlM (validateToken crates) ⟨[], [], [], [], []⟩ = .ok seen := by
  rw [parseTokenConfigs] at h
  split at h
  next =>
    obtain ⟨parsed, -, h⟩ := bind_eq_ok.mp h
    obtain ⟨-, -, h⟩ := bind_eq_ok.mp h
    obtain ⟨seen, hrun, h⟩ := bind_eq_ok.mp h
    cases h
    exact ⟨seen, hrun⟩
  next => cases h

theorem parseTokenConfigs_namesApart (h : parseTokenConfigs crates raw = .ok tokens) :
    NamesApart crates tokens := by
  obtain ⟨seen, hrun⟩ := parseTokenConfigs_eq_ok h
  have hsymbols := registers_symbols.nodup hrun rfl
  have haddresses := registers_addresses.nodup hrun rfl
  rw [List.Nodup, List.pairwise_filterMap] at hsymbols haddresses
  constructor
  · exact hsymbols.imp fun h => h _ rfl _ rfl
  · exact haddresses.imp fun h ht hu => h _ (if_neg ht) _ (if_neg hu)

/-- No symbol that stands for a missing address is another token's address. -/
def SymbolsApart (crates : Crates) (tokens : List TokenConfig) : Prop :=
  ∀ t ∈ tokens, ∀ u ∈ tokens, t.stellarAddress = "" → u.stellarAddress ≠ "" →
    crates.toLowercase t.symbol ≠ crates.toLowercase u.stellarAddress

theorem lookupKey_ne {t u : TokenConfig} (ht : t ∈ tokens) (hu : u ∈ tokens)
    (hapart : SymbolsApart crates tokens) (hsymbols : symbolKey crates t ≠ symbolKey crates u)
    (haddresses : t.stellarAddress ≠ "" → u.stellarAddress ≠ "" →
      crates.toLowercase t.stellarAddress ≠ crates.toLowercase u.stellarAddress) :
    lookupKey crates t ≠ lookupKey crates u := by
  rw [lookupKey, lookupKey]
  split
  next hta =>
    split
    next => exact hsymbols
    next hua => exact hapart t ht u hu hta hua
  next hta =>
    split
    next hua => exact (hapart u hu t ht hua hta).symm
    next hua => exact haddresses hta hua

end Accepted

/-- The tokens of an accepted list have keys of their own unless a symbol is taken
for an address. -/
theorem lookupKeys_nodup_iff {crates : Crates} {raw : String} {tokens : List TokenConfig}
    (h : parseTokenConfigs crates raw = .ok tokens) :
    (tokens.map (lookupKey crates)).Nodup ↔ SymbolsApart crates tokens := by
  constructor
  · intro hnodup t ht u hu hta hua heq
    have hkeys : lookupKey crates t = lookupKey crates u := by
      rw [lookupKey, lookupKey, if_pos hta, if_neg hua, heq]
    obtain rfl := List.inj_on_of_nodup_map hnodup ht hu hkeys
    exact hua hta
  · intro hapart
    obtain ⟨hsymbols, haddresses⟩ := parseTokenConfigs_namesApart h
    rw [List.Nodup, List.pairwise_map]
    apply (hsymbols.and haddresses).imp_of_mem
    rintro t u ht hu ⟨hsymbol, haddress⟩
    exact lookupKey_ne ht hu hapart hsymbol haddress

/-- With a key for each token no other one is cached, compared or limited under it. -/
theorem ownKey_of_symbolsApart {crates : Crates} {raw : String} {tokens : List TokenConfig}
    {token : TokenConfig} {u : Nat} (h : parseTokenConfigs crates raw = .ok tokens)
    (hapart : SymbolsApart crates tokens) (hu : tokens[u]? = some token) :
    OwnKey crates tokens u token := by
  intro v other hv hkey
  have hnodup := (lookupKeys_nodup_iff h).mpr hapart
  obtain ⟨hlt, -⟩ := List.getElem?_eq_some_iff.mp hv
  apply (List.getElem?_inj (List.length_map (lookupKey crates) ▸ hlt) hnodup).mp
  rw [List.getElem?_map, List.getElem?_map, hv, hu, Option.map_some, Option.map_some, hkey]

theorem symbolsApart_of_addressed {crates : Crates} {tokens : List TokenConfig}
    (h : ∀ token ∈ tokens, token.stellarAddress ≠ "") : SymbolsApart crates tokens :=
  fun token htoken _ _ hempty => absurd hempty (h token htoken)

section Samples

def etherToken : TokenConfig := { defaultTokenConfig with symbol := "ETH", sources := ["binance"] }

def bitcoinToken (stellarAddress : String) : TokenConfig :=
  { defaultTokenConfig with symbol := "BTC", stellarAddress, sources := ["coinbase"] }

def configText (stellarAddress : String) : String :=
  "[\x7b\"symbol\":\"ETH\",\"sources\":[\"binance\"]\x7d,\x7b\"symbol\":\"BTC\",\"stellar_address\":\"" ++
    stellarAddress ++ "\",\"sources\":[\"coinbase\"]\x7d]"

/-- The decoder of JSON on the two texts. -/
def configCrates : Crates :=
  { SubmitOutcome.sampleCrates with
    tokenConfigs := fun raw =>
      if raw = configText "CBTC" then .ok [etherToken, bitcoinToken "CBTC"]
      else if raw = configText "eth" then .ok [etherToken, bitcoinToken "eth"]
      else .error "expected value at line 1 column 1" }

end Samples

/-- The symbol of a token without an address is taken for the address of another. -/
theorem lookupKeys_shared :
    parseTokenConfigs configCrates (configText "eth") = .ok [etherToken, bitcoinToken "eth"] ∧
      ¬([etherToken, bitcoinToken "eth"].map (lookupKey configCrates)).Nodup := by
  decide +kernel

theorem lookupKeys_nodup_contract :
    parseTokenConfigs configCrates (configText "CBTC") = .ok [etherToken, bitcoinToken "CBTC"] ∧
      ([etherToken, bitcoinToken "CBTC"].map (lookupKey configCrates)).Nodup := by
  have haccepted : parseTokenConfigs configCrates (configText "CBTC") =
      .ok [etherToken, bitcoinToken "CBTC"] := by decide +kernel
  refine ⟨haccepted, (lookupKeys_nodup_iff haccepted).mpr fun t ht u hu hta hua => ?_⟩
  rcases List.mem_pair.mp hu with rfl | rfl
  · exact absurd rfl hua
  · rcases List.mem_pair.mp ht with rfl | rfl
    · decide +kernel
    · exact absurd hta (by decide)

end So4Oracle.LookupKeys
