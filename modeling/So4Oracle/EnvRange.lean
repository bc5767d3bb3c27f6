import So4Oracle.DecimalText
import So4Oracle.EnvFaults
import So4Oracle.Library.Hex

namespace So4Oracle.EnvRange

open Library.Collecting Library.Floats Environment EnvChecks EnvFaults RustText Wire

variable {A F : Type} {parsers : Parsers A F} {lookup : String → Option String} {cfg : Config A F}

section Roles

variable {seen : SeenRoles} {roles : List (String × String)}

/-- Roles that are set have contracts of their own. -/
def Apart (roles : List (String × String)) : Prop :=
  roles.Pairwise fun p q => trim q.2 ≠ "" → trim p.2 ≠ trim q.2

theorem checkRoles_eq_nil :
    checkRoles seen roles = [] ↔
      (∀ p ∈ roles, trim p.2 ≠ "" → trim p.2 ∉ seen.map Prod.fst) ∧ Apart roles := by
  induction roles generalizing seen with
  | nil => simp [checkRoles, Apart]
  | cons p roles ih =>
      obtain ⟨name, raw⟩ := p
      rw [checkRoles, Apart, List.pairwise_cons, List.forall_mem_cons]
      by_cases hblank : trim raw = ""
      · rw [if_pos hblank, ih, Apart]
        simp only [hblank, ne_eq, not_true_eq_false, false_implies, true_and]
        refine and_congr_right fun _ => ?_
        rw [and_iff_right fun q _ hq heq => hq heq.symm]
      · rw [if_neg hblank]
        cases hlookup : seen.lookup (trim raw) with
        | none =>
            have hfresh := lookup_eq_none.mp hlookup
            rw [ih, Apart]
            simp only [List.map_cons, List.mem_cons, not_or, hfresh, not_false_eq_true,
              implies_true, true_and]
            constructor
            · rintro ⟨hseen, hapart⟩
              exact ⟨fun q hq hset => (hseen q hq hset).2,
                fun q hq hset => Ne.symm (hseen q hq hset).1, hapart⟩
            · rintro ⟨hseen, hfirst, hapart⟩
              exact ⟨fun q hq hset => ⟨Ne.symm (hfirst q hq hset), hseen q hq hset⟩, hapart⟩
        | some previous =>
            refine iff_of_false (List.cons_ne_nil _ _) ?_
            rintro ⟨⟨hfresh, -⟩, -⟩
            rw [lookup_eq_none.mpr (hfresh hblank)] at hlookup
            cases hlookup

theorem clean_rolesApart {cfg' : Config A F} :
    Clean (rolesApart cfg) cfg' ↔ checkRoles [] (contractRoles cfg) = [] ∧ cfg = cfg' := by
  simp only [Clean, rolesApart]

end Roles

section WellFormed

/-- The configurations the service can be started with. -/
structure WellFormed (parsers : Parsers A F) (cfg : Config A F) : Prop where
  bindAddr : ∃ s, trim s ≠ "" ∧ parsers.socketAddr s = .ok cfg.bindAddr
  passphrase : cfg.networkPassphrase = cfg.network.passphrase
  rpcUrl : cfg.network = .mainnet → trim cfg.stellarRpcUrl ≠ ""
  contracts : ∀ p ∈ contractRoles cfg, trim p.2 ≠ ""
  apart : (contractRoles cfg).Pairwise fun p q => trim p.2 ≠ trim q.2
  privateKeyGiven : trim cfg.keeperPrivateKey ≠ ""
  privateKey : HexBytes parsers.crates 32 cfg.keeperPrivateKey
  secretKey : StrkeyShaped 'S' cfg.keeperSecretKey
  accountId : StrkeyShaped 'G' cfg.keeperAccountId
  keeperIndex : cfg.keeperIndex < 2 ^ 32
  adminApiToken : ∀ token ∈ cfg.adminApiToken, StrongToken token
  pythApiKey : ∀ key ∈ cfg.pythApiKey, trim key ≠ ""
  minBalance : ∃ s, trim s ≠ "" ∧ parsers.f64 s = .ok cfg.minKeeperBalanceXlm
  minBalanceAccepted : acceptsBalance parsers.ops cfg.minKeeperBalanceXlm = true
  setPricesTxFee : 0 < cfg.setPricesTxFee ∧ cfg.setPricesTxFee < 2 ^ 32
  keeperTxFee : 0 < cfg.keeperTxFee ∧ cfg.keeperTxFee < 2 ^ 32
  priceLoopInterval : 0 < cfg.priceLoopInterval ∧ cfg.priceLoopInterval < 2 ^ 64
  keeperLoopInterval : 0 < cfg.keeperLoopInterval ∧ cfg.keeperLoopInterval < 2 ^ 64
  tokens : ∃ s, parsers.priceFeedConfig s = .ok cfg.tokens
  coinbaseBaseUrl : cfg.coinbaseBaseUrl = coinbaseExchangeRatesUrl
  binanceBaseUrl : cfg.binanceBaseUrl = binanceTickerPriceUrl

end WellFormed

section Sound

variable {var value : String}

theorem given_blank {s default : String} (hdefault : trim default ≠ "")
    (h : (given lookup var).getD default = s) : trim s ≠ "" := by
  cases hgiven : given lookup var with
  | none =>
      rw [hgiven] at h
      exact h ▸ hdefault
  | some value =>
      rw [hgiven] at h
      exact h ▸ (given_eq_some.mp hgiven).2

theorem clean_readRequired : Clean (readRequired lookup var) value ↔ given lookup var = some value := by
  rw [readRequired, clean_collect, required_eq_ok]

theorem clean_readKey {validate : String → Except EnvError String} :
    Clean (readKey lookup var validate) value ↔
      ∃ raw, given lookup var = some raw ∧ validate raw = .ok value := by
  rw [readKey, clean_bind]
  refine exists_congr fun raw => ?_
  rw [clean_readRequired]
  refine and_congr_right fun hgiven => ?_
  have hne : raw ≠ "" := by
    rintro rfl
    exact (given_eq_some.mp hgiven).2 (by decide)
  rw [if_pos hne, clean_collect]

theorem clean_readPositive {bound default n : Nat} (hbound : 0 < bound) :
    Clean (readPositive lookup (parseUnsigned bound) var default) n ↔
      Numeral ((given lookup var).getD (toString default)) n ∧ 0 < n ∧ n < bound := by
  rw [readPositive, clean_collect, Library.Checked.bind_eq_ok]
  simp only [parseOrDefault_eq_ok, parseUnsigned_eq_ok hbound]
  constructor
  · rintro ⟨m, ⟨hnumeral, hlt⟩, h⟩
    split at h
    · cases h
    next hzero =>
      cases h
      exact ⟨hnumeral, by omega, hlt⟩
  · rintro ⟨hnumeral, hpos, hlt⟩
    exact ⟨n, ⟨hnumeral, hlt⟩, by rw [if_neg (by omega)]; rfl⟩

theorem clean_readRpcUrl {network : Network} (h : Clean (readRpcUrl lookup network) value)
    (hmainnet : network = .mainnet) : trim value ≠ "" := by
  subst hmainnet
  exact (given_eq_some.mp (clean_readRequired.mp h)).2

theorem clean_readOracleContractId {network : Network}
    (h : Clean (readOracleContractId lookup network) value) : trim value ≠ "" := by
  cases network with
  | mainnet => exact (given_eq_some.mp (clean_readRequired.mp h)).2
  | testnet =>
      rw [readOracleContractId, clean_collect, requiredAny] at h
      split at h
      next v hsome =>
        cases h
        rcases Option.or_eq_some_iff.mp hsome with hprimary | ⟨-, hfallback⟩
        · exact (given_eq_some.mp hprimary).2
        · exact (given_eq_some.mp hfallback).2
      next => cases h

theorem clean_readAdminApiToken {token : Option String} (h : Clean (readAdminApiToken lookup) token) :
    ∀ t ∈ token, StrongToken t := by
  unfold readAdminApiToken at h
  split at h
  next =>
    obtain rfl := clean_pure.mp h
    exact nofun
  next value hgiven =>
    split at h
    next hvalid =>
      obtain rfl := clean_pure.mp h
      rintro t ht
      cases ht
      exact validateAdminApiToken_eq_ok.mp hvalid
    next => exact absurd h.1 (List.cons_ne_nil _ _)

theorem clean_readMinKeeperBalance {x : F} :
    Clean (readMinKeeperBalance parsers lookup) x ↔
      parsers.f64 ((given lookup "MIN_KEEPER_BALANCE_XLM").getD defaultMinKeeperBalanceXlm) = .ok x ∧
        acceptsBalance parsers.ops x = true := by
  rw [readMinKeeperBalance, clean_collect, Library.Checked.bind_eq_ok]
  simp only [parseOrDefault_eq_ok]
  constructor
  · rintro ⟨y, hparse, h⟩
    split at h
    · cases h
    next haccepted =>
      cases h
      exact ⟨hparse, Bool.not_eq_false _ |>.mp haccepted⟩
  · rintro ⟨hparse, haccepted⟩
    exact ⟨x, hparse, by rw [haccepted]; rfl⟩

theorem clean_readBindAddr {a : A} :
    Clean (readBindAddr parsers lookup) a ↔
      parsers.socketAddr ((given lookup "BIND_ADDR").getD defaultBindAddr) = .ok a := by
  rw [readBindAddr, clean_collect, parseOrDefault_eq_ok]

theorem clean_readTokens {tokens : List TokenConfig} :
    Clean (readTokens parsers lookup) tokens ↔
      parsers.priceFeedConfig ((lookup "PRICE_FEED_CONFIG").getD parsers.tokensJson) = .ok tokens := by
  rw [readTokens, clean_collect]
  cases parsers.priceFeedConfig ((lookup "PRICE_FEED_CONFIG").getD parsers.tokensJson) <;>
    simp [Except.mapError]

theorem clean_readKeeperIndex {n : Nat} :
    Clean (readKeeperIndex lookup) n ↔
      Numeral ((given lookup "KEEPER_INDEX").getD "0") n ∧ n < 2 ^ 32 := by
  rw [readKeeperIndex, clean_collect, parseOrDefault_eq_ok, parseU32,
    parseUnsigned_eq_ok (by decide)]

theorem clean_key {validate : String → Except EnvError String} {P : String → Prop}
    (hjudges : ∀ v, Judges EnvError.var var (P v) (validate v))
    (hvalue : ∀ v w, validate v = .ok w → w = v) (h : Clean (readKey lookup var validate) value) :
    trim value ≠ "" ∧ P value := by
  obtain ⟨raw, hgiven, hvalid⟩ := clean_readKey.mp h
  obtain rfl := hvalue raw value hvalid
  have hj := hjudges value
  rw [hvalid] at hj
  exact ⟨(given_eq_some.mp hgiven).2, hj⟩

theorem wellFormed_of_fromLookup (h : fromLookup parsers lookup = .ok cfg) :
    WellFormed parsers cfg := by
  obtain ⟨cfg', hfields, hroles⟩ := clean_bind.mp (result_eq_ok.mp h)
  obtain ⟨hnone, rfl⟩ := clean_rolesApart.mp hroles
  obtain ⟨-, hapart⟩ := checkRoles_eq_nil.mp hnone
  simp only [readFields, clean_bind, clean_pure, clean_readRequired] at hfields
  obtain ⟨network, -, bindAddr, hbind, rpcUrl, hrpc, oracle, horacle, tokens, htokens, roleStore,
    hroleStore, dataStore, hdataStore, orderHandler, horderHandler, depositHandler,
    hdepositHandler, withdrawalHandler, hwithdrawalHandler, reader, hreader, privateKey,
    hprivateKey, secretKey, hsecretKey, accountId, haccountId, keeperIndex, hkeeperIndex,
    adminApiToken, hadminApiToken, minBalance, hminBalance, setPricesTxFee, hsetPricesTxFee,
    keeperTxFee, hkeeperTxFee, priceLoop, hpriceLoop, keeperLoop, hkeeperLoop, hcfg⟩ := hfields
  have hprivateKey := clean_key (fun _ => judges_validateHexKey _ _)
    (fun _ _ => validateHexKey_value) hprivateKey
  have hsecretKey := clean_key (fun _ => judges_validateStrkey _)
    (fun _ _ => validateStrkey_value) hsecretKey
  have haccountId := clean_key (fun _ => judges_validateStrkey _)
    (fun _ _ => validateStrkey_value) haccountId
  obtain ⟨hbalance, haccepted⟩ := clean_readMinKeeperBalance.mp hminBalance
  have hset : ∀ {var id : String}, given lookup var = some id → trim id ≠ "" :=
    fun hgiven => (given_eq_some.mp hgiven).2
  have hcontracts : ∀ p ∈ contractRoles cfg', trim p.2 ≠ "" := by
    intro p hp
    rw [← hcfg] at hp
    simp only [contractRoles, List.mem_cons, List.not_mem_nil, or_false] at hp
    rcases hp with rfl | rfl | rfl | rfl | rfl | rfl | rfl
    · exact clean_readOracleContractId horacle
    · exact hset hroleStore
    · exact hset hdataStore
    · exact hset horderHandler
    · exact hset hdepositHandler
    · exact hset hwithdrawalHandler
    · exact hset hreader
  subst hcfg
  exact
    { bindAddr := ⟨_, given_blank (by decide) rfl, clean_readBindAddr.mp hbind⟩
      passphrase := rfl
      rpcUrl := clean_readRpcUrl hrpc
      contracts := hcontracts
      apart := hapart.imp_of_mem fun _ hq hne => hne (hcontracts _ hq)
      privateKeyGiven := hprivateKey.1
      privateKey := hprivateKey.2
      secretKey := hsecretKey.2
      accountId := haccountId.2
      keeperIndex := (clean_readKeeperIndex.mp hkeeperIndex).2
      adminApiToken := clean_readAdminApiToken hadminApiToken
      pythApiKey := fun _ hgiven => hset hgiven
      minBalance := ⟨_, given_blank (by decide) rfl, hbalance⟩
      minBalanceAccepted := haccepted
      setPricesTxFee := ((clean_readPositive (by decide)).mp hsetPricesTxFee).2
      keeperTxFee := ((clean_readPositive (by decide)).mp hkeeperTxFee).2
      priceLoopInterval := ((clean_readPositive (by decide)).mp hpriceLoop).2
      keeperLoopInterval := ((clean_readPositive (by decide)).mp hkeeperLoop).2
      tokens := ⟨_, clean_readTokens.mp htokens⟩
      coinbaseBaseUrl := rfl
      binanceBaseUrl := rfl }

end Sound

section Complete

theorem lookup_eq_some {α : Type} {key : String} {a : α} {l : List (String × α)}
    (hnodup : (l.map Prod.fst).Nodup) (h : (key, a) ∈ l) : l.lookup key = some a := by
  induction l with
  | nil => cases h
  | cons p l ih =>
      rw [List.map_cons, List.nodup_cons] at hnodup
      rw [List.lookup_cons]
      rcases List.mem_cons.mp h with rfl | h
      · simp
      · have hne : (key == p.1) = false := by
          rw [beq_eq_false_iff_ne]
          rintro rfl
          exact hnodup.1 (List.mem_map.mpr ⟨_, h, rfl⟩)
        rw [hne]
        exact ih hnodup.2 h

/-- An environment that says what the configuration says. -/
def entries (cfg : Config A F) (addr balance tokens : String) : List (String × Option String) :=
  [("STELLAR_NETWORK", some cfg.network.asStr), ("BIND_ADDR", some addr),
    ("STELLAR_RPC_URL", some cfg.stellarRpcUrl), ("HORIZON_URL", some cfg.horizonUrl),
    ("ORACLE_CONTRACT_ID", some cfg.oracleContractId), ("PRICE_FEED_CONFIG", some tokens),
    ("ROLE_STORE", some cfg.roleStoreContractId), ("DATA_STORE", some cfg.dataStoreContractId),
    ("ORDER_HANDLER", some cfg.orderHandlerContractId),
    ("DEPOSIT_HANDLER", some cfg.depositHandlerContractId),
    ("WITHDRAWAL_HANDLER", some cfg.withdrawalHandlerContractId),
    ("READER", some cfg.readerContractId), ("KEEPER_PRIVATE_KEY", some cfg.keeperPrivateKey),
    ("KEEPER_SECRET_KEY", some cfg.keeperSecretKey),
    ("KEEPER_ACCOUNT_ID", some cfg.keeperAccountId),
    ("KEEPER_INDEX", some (toString cfg.keeperIndex)), ("ADMIN_API_TOKEN", cfg.adminApiToken),
    ("PYTH_API_KEY", cfg.pythApiKey), ("MIN_KEEPER_BALANCE_XLM", some balance),
    ("SET_PRICES_TX_FEE", some (toString cfg.setPricesTxFee)),
    ("KEEPER_TX_FEE", some (toString cfg.keeperTxFee)),
    ("PRICE_LOOP_MS", some (toString cfg.priceLoopInterval)),
    ("KEEPER_LOOP_MS", some (toString cfg.keeperLoopInterval))]

def written (cfg : Config A F) (addr balance tokens : String) (var : String) : Option String :=
  ((entries cfg addr balance tokens).lookup var).join

theorem written_of_mem {addr balance tokens var : String} {v : Option String}
    (h : (var, v) ∈ entries cfg addr balance tokens) :
    written cfg addr balance tokens var = v := by
  have hnodup : ((entries cfg addr balance tokens).map Prod.fst).Nodup := by simp [entries]
  rw [written, lookup_eq_some hnodup h, Option.join_some]

theorem written_contract {addr balance tokens var id : String} (h : (var, id) ∈ contractRoles cfg) :
    written cfg addr balance tokens var = some id := by
  simp only [contractRoles, List.mem_cons, List.not_mem_nil, or_false, Prod.mk.injEq] at h
  rcases h with ⟨rfl, rfl⟩ | ⟨rfl, rfl⟩ | ⟨rfl, rfl⟩ | ⟨rfl, rfl⟩ | ⟨rfl, rfl⟩ | ⟨rfl, rfl⟩ |
    ⟨rfl, rfl⟩
  all_goals exact written_of_mem (by simp [entries])

theorem trim_ne_of_solid {s : String} (hs : s ≠ "")
    (h : ∀ c ∈ s.toList, isWhitespace c = false) : trim s ≠ "" := by
  rwa [DecimalText.trim_eq_self h]

theorem trim_toString (n : Nat) : trim (toString n) ≠ "" := by
  have hdigits : (toString n).toList = Nat.toDigits 10 n := Nat.toList_repr
  refine trim_ne_of_solid (fun h => ?_) fun c hc => ?_
  · rw [h] at hdigits
    exact Nat.toDigits_ne_nil hdigits.symm
  · rw [hdigits] at hc
    exact DecimalText.isWhitespace_of_isDigit
      (Nat.isDigit_of_mem_toDigits (by decide) (by decide) hc)

theorem isWhitespace_of_isBase32Char {c : Char} (h : isBase32Char c = true) :
    isWhitespace c = false := by
  simp only [isBase32Char, Bool.or_eq_true, Bool.and_eq_true, decide_eq_true_eq] at h
  have hbounds : (65 ≤ c.toNat ∧ c.toNat ≤ 90) ∨ (50 ≤ c.toNat ∧ c.toNat ≤ 55) := h
  simp only [isWhitespace, Bool.or_eq_false_iff, Bool.and_eq_false_iff, decide_eq_false_iff_not,
    beq_eq_false_iff_ne]
  omega

theorem trim_strkeyShaped {letter : Char} {s : String} (h : StrkeyShaped letter s) :
    trim s ≠ "" := by
  refine trim_ne_of_solid ?_ fun c hc => isWhitespace_of_isBase32Char (h.base32 c hc)
  rintro rfl
  exact absurd h.size (by decide)

theorem trim_strongToken {s : String} (h : StrongToken s) : trim s ≠ "" := by
  intro hblank
  have hlong := h.long
  rw [hblank] at hlong
  exact absurd hlong (by decide)

theorem given_eq {v : Option String} (h : lookup var = v) (hset : ∀ s ∈ v, trim s ≠ "") :
    given lookup var = v := by
  cases v with
  | none => simp [given, h]
  | some s => exact given_eq_some.mpr ⟨h, hset s rfl⟩

theorem clean_readNetwork {network : Network}
    (h : lookup "STELLAR_NETWORK" = some network.asStr) : Clean (readNetwork lookup) network := by
  cases network <;> simp [Clean, readNetwork, h, Network.asStr]

theorem clean_rpcUrl_of {network : Network} (h : lookup "STELLAR_RPC_URL" = some value)
    (hmainnet : network = .mainnet → trim value ≠ "") :
    Clean (readRpcUrl lookup network) value := by
  cases network with
  | testnet => simp [Clean, readRpcUrl, h]
  | mainnet => exact clean_readRequired.mpr (given_eq_some.mpr ⟨h, hmainnet rfl⟩)

theorem clean_oracleContractId_of {network : Network}
    (h : given lookup "ORACLE_CONTRACT_ID" = some value) :
    Clean (readOracleContractId lookup network) value := by
  cases network with
  | mainnet => exact clean_readRequired.mpr h
  | testnet => simp [readOracleContractId, clean_collect, requiredAny, h]

theorem clean_key_of {validate : String → Except EnvError String} {P : String → Prop}
    (hjudges : ∀ v, Judges EnvError.var var (P v) (validate v))
    (hvalue : ∀ v w, validate v = .ok w → w = v) (hgiven : given lookup var = some value)
    (hP : P value) : Clean (readKey lookup var validate) value := by
  refine clean_readKey.mpr ⟨value, hgiven, ?_⟩
  have hj := hjudges value
  cases hvalid : validate value with
  | ok w => rw [hvalue value w hvalid]
  | error e =>
      rw [hvalid] at hj
      exact absurd hP hj.1

theorem clean_adminApiToken_of {token : Option String} (h : lookup "ADMIN_API_TOKEN" = token)
    (hstrong : ∀ t ∈ token, StrongToken t) : Clean (readAdminApiToken lookup) token := by
  unfold readAdminApiToken
  cases token with
  | none => simp [given, h, clean_pure]
  | some t =>
      have ht := hstrong t rfl
      rw [given_eq_some.mpr ⟨h, trim_strongToken ht⟩]
      simp [validateAdminApiToken_eq_ok.mpr ht, clean_pure]

theorem clean_positive_of {bound default n : Nat} (h : lookup var = some (toString n))
    (hn : 0 < n ∧ n < bound) :
    Clean (readPositive lookup (parseUnsigned bound) var default) n := by
  refine (clean_readPositive (by omega)).mpr ⟨?_, hn⟩
  rw [given_eq_some.mpr ⟨h, trim_toString n⟩]
  exact numeral_toString n

theorem clean_readFields_written {addr balance tokens : String} (h : WellFormed parsers cfg)
    (haddr : trim addr ≠ "" ∧ parsers.socketAddr addr = .ok cfg.bindAddr)
    (hbalance : trim balance ≠ "" ∧ parsers.f64 balance = .ok cfg.minKeeperBalanceXlm)
    (htokens : parsers.priceFeedConfig tokens = .ok cfg.tokens) :
    Clean (readFields parsers (written cfg addr balance tokens)) cfg := by
  have hwritten : ∀ {var : String} {v : Option String},
      (var, v) ∈ entries cfg addr balance tokens → written cfg addr balance tokens var = v :=
    written_of_mem
  have hset : ∀ {var : String} {value : String},
      (var, some value) ∈ entries cfg addr balance tokens → trim value ≠ "" →
        given (written cfg addr balance tokens) var = some value :=
    fun hmem hne => given_eq_some.mpr ⟨hwritten hmem, hne⟩
  have hrole : ∀ {var id : String}, (var, id) ∈ contractRoles cfg →
      given (written cfg addr balance tokens) var = some id := by
    intro var id hmem
    have hset : trim id ≠ "" := h.contracts (var, id) hmem
    exact given_eq_some.mpr ⟨written_contract hmem, hset⟩
  generalize written cfg addr balance tokens = lookup at hwritten hset hrole ⊢
  have hnetwork : Clean (readNetwork lookup) cfg.network :=
    clean_readNetwork (hwritten (by simp [entries]))
  have hbindAddr : Clean (readBindAddr parsers lookup) cfg.bindAddr := by
    have hgiven : given lookup "BIND_ADDR" = some addr := hset (by simp [entries]) haddr.1
    rw [clean_readBindAddr, hgiven]
    exact haddr.2
  have hrpcUrl : Clean (readRpcUrl lookup cfg.network) cfg.stellarRpcUrl :=
    clean_rpcUrl_of (hwritten (by simp [entries])) h.rpcUrl
  have horacle : Clean (readOracleContractId lookup cfg.network) cfg.oracleContractId :=
    clean_oracleContractId_of (hrole (by simp [contractRoles]))
  have htokens' : Clean (readTokens parsers lookup) cfg.tokens := by
    rw [clean_readTokens, hwritten (v := some tokens) (by simp [entries])]
    exact htokens
  have hprivateKey : Clean (readKeeperPrivateKey parsers lookup) cfg.keeperPrivateKey :=
    clean_key_of (fun _ => judges_validateHexKey _ _) (fun _ _ => validateHexKey_value)
      (hset (by simp [entries]) h.privateKeyGiven) h.privateKey
  have hsecretKey : Clean (readKeeperSecretKey lookup) cfg.keeperSecretKey :=
    clean_key_of (fun _ => judges_validateStrkey _) (fun _ _ => validateStrkey_value)
      (hset (by simp [entries]) (trim_strkeyShaped h.secretKey)) h.secretKey
  have haccountId : Clean (readKeeperAccountId lookup) cfg.keeperAccountId :=
    clean_key_of (fun _ => judges_validateStrkey _) (fun _ _ => validateStrkey_value)
      (hset (by simp [entries]) (trim_strkeyShaped h.accountId)) h.accountId
  have hindex : Clean (readKeeperIndex lookup) cfg.keeperIndex := by
    have hgiven : given lookup "KEEPER_INDEX" = some (toString cfg.keeperIndex) :=
      hset (by simp [entries]) (trim_toString cfg.keeperIndex)
    rw [clean_readKeeperIndex, hgiven]
    exact ⟨numeral_toString cfg.keeperIndex, h.keeperIndex⟩
  have hadmin : Clean (readAdminApiToken lookup) cfg.adminApiToken :=
    clean_adminApiToken_of (hwritten (by simp [entries])) h.adminApiToken
  have hmin : Clean (readMinKeeperBalance parsers lookup) cfg.minKeeperBalanceXlm := by
    have hgiven : given lookup "MIN_KEEPER_BALANCE_XLM" = some balance :=
      hset (by simp [entries]) hbalance.1
    rw [clean_readMinKeeperBalance, hgiven]
    exact ⟨hbalance.2, h.minBalanceAccepted⟩
  have hsetPricesTxFee : Clean (readSetPricesTxFee lookup) cfg.setPricesTxFee :=
    clean_positive_of (hwritten (by simp [entries])) h.setPricesTxFee
  have hkeeperTxFee : Clean (readKeeperTxFee lookup) cfg.keeperTxFee :=
    clean_positive_of (hwritten (by simp [entries])) h.keeperTxFee
  have hpriceLoop : Clean (readPriceLoopInterval lookup) cfg.priceLoopInterval :=
    clean_positive_of (hwritten (by simp [entries])) h.priceLoopInterval
  have hkeeperLoop : Clean (readKeeperLoopInterval lookup) cfg.keeperLoopInterval :=
    clean_positive_of (hwritten (by simp [entries])) h.keeperLoopInterval
  have hpyth : given lookup "PYTH_API_KEY" = cfg.pythApiKey :=
    given_eq (hwritten (by simp [entries])) h.pythApiKey
  have hhorizon : horizonUrl lookup cfg.network = cfg.horizonUrl := by
    unfold horizonUrl
    rw [hwritten (v := some cfg.horizonUrl) (by simp [entries]), Option.getD_some]
  simp only [readFields, clean_bind, clean_pure, clean_readRequired]
  refine ⟨_, hnetwork, _, hbindAddr, _, hrpcUrl, _, horacle, _, htokens',
    cfg.roleStoreContractId, hrole (by simp [contractRoles]),
    cfg.dataStoreContractId, hrole (by simp [contractRoles]),
    cfg.orderHandlerContractId, hrole (by simp [contractRoles]),
    cfg.depositHandlerContractId, hrole (by simp [contractRoles]),
    cfg.withdrawalHandlerContractId, hrole (by simp [contractRoles]),
    cfg.readerContractId, hrole (by simp [contractRoles]), _, hprivateKey,
    _, hsecretKey, _, haccountId, _, hindex, _, hadmin, _, hmin, _, hsetPricesTxFee,
    _, hkeeperTxFee, _, hpriceLoop, _, hkeeperLoop, ?_⟩
  rw [hpyth, hhorizon, ← h.passphrase, ← h.coinbaseBaseUrl, ← h.binanceBaseUrl]

/-- The configurations that some environment gives are the well-formed ones, and
each of them is read back from the environment that writes it out. -/
theorem fromLookup_range (parsers : Parsers A F) (cfg : Config A F) :
    (∃ lookup, fromLookup parsers lookup = .ok cfg) ↔ WellFormed parsers cfg := by
  constructor
  · rintro ⟨lookup, h⟩
    exact wellFormed_of_fromLookup h
  · intro h
    obtain ⟨addr, haddr⟩ := h.bindAddr
    obtain ⟨balance, hbalance⟩ := h.minBalance
    obtain ⟨tokens, htokens⟩ := h.tokens
    have hapart : Apart (contractRoles cfg) := by
      refine List.Pairwise.imp ?_ h.apart
      intro p q hne _
      exact hne
    have hroles : Clean (rolesApart cfg) cfg :=
      clean_rolesApart.mpr ⟨checkRoles_eq_nil.mpr ⟨fun _ _ _ => List.not_mem_nil, hapart⟩, rfl⟩
    have hfields := clean_readFields_written h haddr hbalance htokens
    exact ⟨written cfg addr balance tokens, result_eq_ok.mpr (clean_bind.mpr
      ⟨cfg, hfields, hroles⟩)⟩

def sampleKey : String := String.ofList (List.replicate 64 'a')

def keyParsers : Parsers String (Option ℚ) :=
  { sampleParsers with
    crates := { SubmitOutcome.sampleCrates with
      hexDecode := fun s => match Library.Hex.decode s with
        | some bs => .ok bs
        | none => .error "invalid hex" } }

def fullEnvironment (var : String) : Option String :=
  [("ORACLE", "CORACLE"), ("ROLE_STORE", "CROLE"), ("DATA_STORE", "CDATA"),
    ("ORDER_HANDLER", "CORDER"), ("DEPOSIT_HANDLER", "CDEPOSIT"), ("WITHDRAWAL_HANDLER", "CWITHDRAW"),
    ("READER", "CREADER"), ("KEEPER_PRIVATE_KEY", sampleKey),
    ("KEEPER_SECRET_KEY", String.ofList (List.replicate 56 'S')),
    ("KEEPER_ACCOUNT_ID", String.ofList (List.replicate 56 'G')), ("KEEPER_TX_FEE", "+7")].lookup var

theorem fromLookup_range_sample :
    ∃ cfg : Config String (Option ℚ), WellFormed keyParsers cfg ∧ cfg.keeperTxFee = 7 := by
  have hread : ∃ cfg, fromLookup keyParsers fullEnvironment = .ok cfg ∧ cfg.keeperTxFee = 7 := by
    have hok : ((fromLookup keyParsers fullEnvironment).toOption.any
        fun cfg => cfg.keeperTxFee = 7) = true := by decide +kernel
    cases h : fromLookup keyParsers fullEnvironment with
    | ok cfg =>
        rw [h] at hok
        exact ⟨cfg, rfl, of_decide_eq_true hok⟩
    | error errors =>
        rw [h] at hok
        cases hok
  obtain ⟨cfg, hread, hfee⟩ := hread
  exact ⟨cfg, (fromLookup_range keyParsers cfg).mp ⟨fullEnvironment, hread⟩, hfee⟩

end Complete

end So4Oracle.EnvRange
