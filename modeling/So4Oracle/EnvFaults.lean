import So4Oracle.EnvChecks
import So4Oracle.SubmitOutcome

namespace So4Oracle.EnvFaults

open Library.Collecting Library.Floats Environment EnvChecks RustText Wire
open So4Oracle.Config (ConfigError)

section Roles

variable {seen : SeenRoles} {roles : List (String × String)} {var : String}

/-- The variable repeats the contract of an earlier one. -/
def Repeats (roles : List (String × String)) (var : String) : Prop :=
  ∃ before raw after, roles = before ++ (var, raw) :: after ∧ trim raw ≠ "" ∧
    ∃ p ∈ before, trim p.2 = trim raw

def RepeatsOr (seen : SeenRoles) (roles : List (String × String)) (var : String) : Prop :=
  ∃ before raw after, roles = before ++ (var, raw) :: after ∧ trim raw ≠ "" ∧
    (trim raw ∈ seen.map Prod.fst ∨ ∃ p ∈ before, trim p.2 = trim raw)

theorem repeatsOr_cons {p : String × String} :
    RepeatsOr seen (p :: roles) var ↔
      (p.1 = var ∧ trim p.2 ≠ "" ∧ trim p.2 ∈ seen.map Prod.fst) ∨
        ∃ before raw after, roles = before ++ (var, raw) :: after ∧ trim raw ≠ "" ∧
          (trim raw ∈ seen.map Prod.fst ∨ trim p.2 = trim raw ∨
            ∃ q ∈ before, trim q.2 = trim raw) := by
  constructor
  · rintro ⟨before, raw, after, heq, hraw, hseen⟩
    cases before with
    | nil =>
        cases heq
        rcases hseen with hseen | ⟨q, hq, -⟩
        · exact .inl ⟨rfl, hraw, hseen⟩
        · cases hq
    | cons q before =>
        cases heq
        refine .inr ⟨before, raw, after, rfl, hraw, hseen.imp_right ?_⟩
        rintro ⟨r, hr, htrim⟩
        rcases List.mem_cons.mp hr with rfl | hr
        · exact .inl htrim
        · exact .inr ⟨r, hr, htrim⟩
  · rintro (⟨rfl, hraw, hseen⟩ | ⟨before, raw, after, rfl, hraw, hseen⟩)
    · exact ⟨[], p.2, roles, rfl, hraw, .inl hseen⟩
    · refine ⟨p :: before, raw, after, rfl, hraw, hseen.imp_right ?_⟩
      rintro (htrim | ⟨q, hq, htrim⟩)
      · exact ⟨p, List.mem_cons_self, htrim⟩
      · exact ⟨q, List.mem_cons_of_mem _ hq, htrim⟩

theorem lookup_eq_none {key : String} : seen.lookup key = none ↔ key ∉ seen.map Prod.fst := by
  rw [List.lookup_eq_none_iff]
  simp only [bne_iff_ne, List.mem_map, not_exists, not_and]
  exact forall₂_congr fun p _ => ne_comm

/-- An identifier that is seen already stays seen under its first variable. -/
theorem mem_checkRoles :
    var ∈ (checkRoles seen roles).map EnvError.var ↔ RepeatsOr seen roles var := by
  induction roles generalizing seen with
  | nil => simp [checkRoles, RepeatsOr]
  | cons p roles ih =>
      obtain ⟨name, raw⟩ := p
      rw [checkRoles, repeatsOr_cons]
      by_cases hblank : trim raw = ""
      · rw [if_pos hblank, ih]
        simp only [hblank, ne_eq, not_true_eq_false, false_and, and_false, false_or]
        refine exists_congr fun before => exists_congr fun raw' => exists_congr fun after =>
          and_congr_right fun _ => and_congr_right fun hraw => or_congr_right ?_
        simp [Ne.symm hraw]
      · rw [if_neg hblank]
        cases hlookup : seen.lookup (trim raw) with
        | none =>
            have hfresh := lookup_eq_none.mp hlookup
            rw [ih]
            simp only [RepeatsOr, List.map_cons, List.mem_cons, hfresh, and_false, false_or]
            refine exists_congr fun before => exists_congr fun raw' => exists_congr fun after =>
              and_congr_right fun _ => and_congr_right fun _ => ?_
            rw [or_assoc, or_left_comm, eq_comm (a := trim raw')]
        | some previous =>
            have hseen : trim raw ∈ seen.map Prod.fst := by
              by_contra hfresh
              rw [lookup_eq_none.mpr hfresh] at hlookup
              cases hlookup
            rw [List.map_cons, List.mem_cons, ih]
            refine or_congr ?_ ?_
            · simp [sameContract, EnvError.var, hblank, hseen, eq_comm]
            · refine exists_congr fun before => exists_congr fun raw' => exists_congr fun after =>
                and_congr_right fun _ => and_congr_right fun _ => ?_
              constructor
              · exact Or.imp_right .inr
              · rintro (h | h | h)
                · exact .inl h
                · exact .inl (h ▸ hseen)
                · exact .inr h

theorem checkRoles_sublist :
    ((checkRoles seen roles).map EnvError.var).Sublist (roles.map Prod.fst) := by
  induction roles generalizing seen with
  | nil => exact List.Sublist.refl _
  | cons p roles ih =>
      obtain ⟨name, raw⟩ := p
      rw [checkRoles]
      split
      · exact ih.cons _
      · split
        · exact ih.cons_cons _
        · exact ih.cons _

theorem repeatsOr_nil : RepeatsOr [] roles var ↔ Repeats roles var := by
  simp [RepeatsOr, Repeats]

end Roles

section Spec

variable {A F : Type} (parsers : Parsers A F) (lookup : String → Option String)

def OnMainnet : Prop := lookup "STELLAR_NETWORK" = some "mainnet"

instance : Decidable (OnMainnet lookup) := inferInstanceAs (Decidable (_ = _))

/-- The variables that have no default. -/
inductive Needed : String → Prop
  | roleStore : Needed "ROLE_STORE"
  | dataStore : Needed "DATA_STORE"
  | orderHandler : Needed "ORDER_HANDLER"
  | depositHandler : Needed "DEPOSIT_HANDLER"
  | withdrawalHandler : Needed "WITHDRAWAL_HANDLER"
  | reader : Needed "READER"
  | keeperPrivateKey : Needed "KEEPER_PRIVATE_KEY"
  | keeperSecretKey : Needed "KEEPER_SECRET_KEY"
  | keeperAccountId : Needed "KEEPER_ACCOUNT_ID"
  | rpcUrl (h : OnMainnet lookup) : Needed "STELLAR_RPC_URL"
  | oracle (h : OnMainnet lookup) : Needed "ORACLE_CONTRACT_ID"

/-- The variables whose text is checked. -/
inductive Checks : String → (String → Prop) → Prop
  | bindAddr : Checks "BIND_ADDR" fun s => ∃ a, parsers.socketAddr s = .ok a
  | keeperPrivateKey : Checks "KEEPER_PRIVATE_KEY" (HexBytes parsers.crates 32)
  | keeperSecretKey : Checks "KEEPER_SECRET_KEY" (StrkeyShaped 'S')
  | keeperAccountId : Checks "KEEPER_ACCOUNT_ID" (StrkeyShaped 'G')
  | keeperIndex : Checks "KEEPER_INDEX" fun s => ∃ n, Numeral s n ∧ n < 2 ^ 32
  | adminApiToken : Checks "ADMIN_API_TOKEN" StrongToken
  | minKeeperBalance : Checks "MIN_KEEPER_BALANCE_XLM"
      fun s => ∃ x, parsers.f64 s = .ok x ∧ acceptsBalance parsers.ops x = true
  | setPricesTxFee : Checks "SET_PRICES_TX_FEE" (PositiveBelow (2 ^ 32))
  | keeperTxFee : Checks "KEEPER_TX_FEE" (PositiveBelow (2 ^ 32))
  | priceLoopMs : Checks "PRICE_LOOP_MS" (PositiveBelow (2 ^ 64))
  | keeperLoopMs : Checks "KEEPER_LOOP_MS" (PositiveBelow (2 ^ 64))

def oracleContractId : Option String :=
  if OnMainnet lookup then given lookup "ORACLE_CONTRACT_ID"
  else (given lookup "ORACLE_CONTRACT_ID").or (given lookup "ORACLE")

def contractIds : List (String × String) :=
  ("ORACLE_CONTRACT_ID", (oracleContractId lookup).getD "") ::
    ["ROLE_STORE", "DATA_STORE", "ORDER_HANDLER", "DEPOSIT_HANDLER", "WITHDRAWAL_HANDLER",
      "READER"].map fun var => (var, (given lookup var).getD "")

def UnknownNetwork : Prop :=
  ∃ raw, lookup "STELLAR_NETWORK" = some raw ∧ raw ≠ "testnet" ∧ raw ≠ "mainnet"

def TokensRejected : Prop :=
  ∃ e, parsers.priceFeedConfig ((lookup "PRICE_FEED_CONFIG").getD parsers.tokensJson) = .error e

def Malformed (var : String) (P : String → Prop) : Prop := ∃ value, given lookup var = some value ∧ ¬P value

/-- What can be wrong with an environment, under the variable that is wrong. -/
inductive Faulty : String → Prop
  | network (h : UnknownNetwork lookup) : Faulty "STELLAR_NETWORK"
  | unset {var : String} (hneeded : Needed lookup var) (h : given lookup var = none) : Faulty var
  | oracleUnset (htestnet : ¬OnMainnet lookup) (h : oracleContractId lookup = none) :
      Faulty oracleContractIdOrAlias
  | malformed {var : String} {P : String → Prop} (hcheck : Checks parsers var P)
      (h : Malformed lookup var P) : Faulty var
  | tokens (h : TokensRejected parsers lookup) : Faulty "PRICE_FEED_CONFIG"
  | repeated {var : String} (h : Repeats (contractIds lookup) var) : Faulty var

/-- The faults a field can have by itself, in the order of the fields. -/
def fieldFaults : List (String × Prop) :=
  [("STELLAR_NETWORK", UnknownNetwork lookup),
    ("BIND_ADDR", Malformed lookup "BIND_ADDR" fun s => ∃ a, parsers.socketAddr s = .ok a),
    ("STELLAR_RPC_URL", OnMainnet lookup ∧ given lookup "STELLAR_RPC_URL" = none),
    ("ORACLE_CONTRACT_ID", OnMainnet lookup ∧ given lookup "ORACLE_CONTRACT_ID" = none),
    (oracleContractIdOrAlias, ¬OnMainnet lookup ∧ oracleContractId lookup = none),
    ("PRICE_FEED_CONFIG", TokensRejected parsers lookup),
    ("ROLE_STORE", given lookup "ROLE_STORE" = none),
    ("DATA_STORE", given lookup "DATA_STORE" = none),
    ("ORDER_HANDLER", given lookup "ORDER_HANDLER" = none),
    ("DEPOSIT_HANDLER", given lookup "DEPOSIT_HANDLER" = none),
    ("WITHDRAWAL_HANDLER", given lookup "WITHDRAWAL_HANDLER" = none),
    ("READER", given lookup "READER" = none),
    ("KEEPER_PRIVATE_KEY", given lookup "KEEPER_PRIVATE_KEY" = none ∨
      Malformed lookup "KEEPER_PRIVATE_KEY" (HexBytes parsers.crates 32)),
    ("KEEPER_SECRET_KEY", given lookup "KEEPER_SECRET_KEY" = none ∨
      Malformed lookup "KEEPER_SECRET_KEY" (StrkeyShaped 'S')),
    ("KEEPER_ACCOUNT_ID", given lookup "KEEPER_ACCOUNT_ID" = none ∨
      Malformed lookup "KEEPER_ACCOUNT_ID" (StrkeyShaped 'G')),
    ("KEEPER_INDEX", Malformed lookup "KEEPER_INDEX" fun s => ∃ n, Numeral s n ∧ n < 2 ^ 32),
    ("ADMIN_API_TOKEN", Malformed lookup "ADMIN_API_TOKEN" StrongToken),
    ("MIN_KEEPER_BALANCE_XLM", Malformed lookup "MIN_KEEPER_BALANCE_XLM"
      fun s => ∃ x, parsers.f64 s = .ok x ∧ acceptsBalance parsers.ops x = true),
    ("SET_PRICES_TX_FEE", Malformed lookup "SET_PRICES_TX_FEE" (PositiveBelow (2 ^ 32))),
    ("KEEPER_TX_FEE", Malformed lookup "KEEPER_TX_FEE" (PositiveBelow (2 ^ 32))),
    ("PRICE_LOOP_MS", Malformed lookup "PRICE_LOOP_MS" (PositiveBelow (2 ^ 64))),
    ("KEEPER_LOOP_MS", Malformed lookup "KEEPER_LOOP_MS" (PositiveBelow (2 ^ 64)))]

end Spec

section Fields

variable {A F : Type} {parsers : Parsers A F} {lookup : String → Option String} {var : String}

theorem value_readNetwork :
    (readNetwork lookup).value = if OnMainnet lookup then Network.mainnet else Network.testnet := by
  unfold readNetwork
  by_cases hmainnet : OnMainnet lookup
  · rw [if_pos hmainnet]
    rw [OnMainnet] at hmainnet
    simp [hmainnet]
  · rw [if_neg hmainnet]
    rw [OnMainnet] at hmainnet
    cases h : lookup "STELLAR_NETWORK" with
    | none => rfl
    | some raw =>
        rw [h, Option.some.injEq] at hmainnet
        simp only [Option.getD_some, if_neg hmainnet]
        split <;> rfl

theorem explains_readNetwork :
    Explains EnvError.var (readNetwork lookup).errors
      [("STELLAR_NETWORK", UnknownNetwork lookup)] := by
  unfold readNetwork UnknownNetwork
  cases h : lookup "STELLAR_NETWORK" with
  | none => exact .spared nofun .nil
  | some raw =>
      simp only [Option.getD_some, Option.some.injEq, exists_eq_left']
      split_ifs with htestnet hmainnet
      · exact .spared (fun hbad => hbad.1 htestnet) .nil
      · exact .spared (fun hbad => hbad.2 hmainnet) .nil
      · exact .blamed ⟨htestnet, hmainnet⟩ .nil

theorem not_getD {P : String → Prop} {default : String} (hdefault : P default) :
    Malformed lookup var P ↔ ¬P ((given lookup var).getD default) := by
  unfold Malformed
  cases given lookup var with
  | none => simp [hdefault]
  | some value => simp

theorem explains_readBindAddr :
    Explains EnvError.var (readBindAddr parsers lookup).errors
      [("BIND_ADDR", Malformed lookup "BIND_ADDR" fun s => ∃ a, parsers.socketAddr s = .ok a)] :=
  explains_collect (judges_parseOrDefault _) (not_getD ⟨_, parsers.bindAddr_eq⟩)

theorem value_readRequired : (readRequired lookup var).value = (given lookup var).getD "" := by
  unfold readRequired required
  cases given lookup var <;> rfl

theorem explains_readRequired :
    Explains EnvError.var (readRequired lookup var).errors [(var, given lookup var = none)] :=
  explains_collect judges_required not_not.symm

theorem explains_readRpcUrl :
    Explains EnvError.var (readRpcUrl lookup (readNetwork lookup).value).errors
      [("STELLAR_RPC_URL", OnMainnet lookup ∧ given lookup "STELLAR_RPC_URL" = none)] := by
  rw [value_readNetwork]
  by_cases hmainnet : OnMainnet lookup
  · simp only [hmainnet, if_true, true_and]
    exact explains_readRequired
  · rw [if_neg hmainnet]
    exact .spared (fun h => hmainnet h.1) .nil

theorem explains_readOracleContractId :
    Explains EnvError.var (readOracleContractId lookup (readNetwork lookup).value).errors
      [("ORACLE_CONTRACT_ID", OnMainnet lookup ∧ given lookup "ORACLE_CONTRACT_ID" = none),
        (oracleContractIdOrAlias, ¬OnMainnet lookup ∧ oracleContractId lookup = none)] := by
  rw [value_readNetwork]
  by_cases hmainnet : OnMainnet lookup
  · simp only [hmainnet, if_true, true_and, not_true_eq_false, false_and]
    have h : Explains EnvError.var ((readRequired lookup "ORACLE_CONTRACT_ID").errors ++ []) _ :=
      explains_readRequired.append (.spared (v := oracleContractIdOrAlias) id .nil)
    rwa [List.append_nil] at h
  · simp only [oracleContractId, hmainnet, if_false, not_false_eq_true, true_and, false_and]
    exact .spared id (explains_collect judges_requiredAny not_not.symm)

theorem value_readOracleContractId :
    (readOracleContractId lookup (readNetwork lookup).value).value =
      (oracleContractId lookup).getD "" := by
  rw [value_readNetwork, oracleContractId]
  by_cases hmainnet : OnMainnet lookup
  · rw [if_pos hmainnet, if_pos hmainnet]
    exact value_readRequired
  · rw [if_neg hmainnet, if_neg hmainnet, readOracleContractId, requiredAny]
    cases (given lookup "ORACLE_CONTRACT_ID").or (given lookup "ORACLE") <;> rfl

theorem explains_readTokens :
    Explains EnvError.var (readTokens parsers lookup).errors
      [("PRICE_FEED_CONFIG", TokensRejected parsers lookup)] := by
  refine explains_collect (judges_mapError fun _ => rfl) ?_
  unfold TokensRejected
  cases parsers.priceFeedConfig ((lookup "PRICE_FEED_CONFIG").getD parsers.tokensJson) <;> simp

/-- A given text is never empty, so that a key that is there is validated. -/
theorem explains_readKey {validate : String → Except EnvError String} {P : String → Prop}
    (hvalidate : ∀ value, Judges EnvError.var var (P value) (validate value)) :
    Explains EnvError.var (readKey lookup var validate).errors
      [(var, given lookup var = none ∨ Malformed lookup var P)] := by
  unfold readKey Malformed
  rw [errors_bind, value_readRequired]
  unfold readRequired required
  cases h : given lookup var with
  | none => exact .blamed (.inl rfl) .nil
  | some value =>
      have hne : value ≠ "" := by
        rintro rfl
        exact (given_eq_some.mp h).2 (by decide)
      rw [Option.getD_some, if_pos hne]
      exact explains_collect (hvalidate value) (by simp)

theorem explains_readKeeperIndex :
    Explains EnvError.var (readKeeperIndex lookup).errors
      [("KEEPER_INDEX", Malformed lookup "KEEPER_INDEX" fun s => ∃ n, Numeral s n ∧ n < 2 ^ 32)] := by
  refine explains_collect (Judges.congr (judges_parseOrDefault parseU32)
    (exists_congr fun n => parseUnsigned_eq_ok (by decide))) (not_getD ?_)
  exact ⟨0, numeral_toString 0, by decide⟩

theorem explains_readAdminApiToken :
    Explains EnvError.var (readAdminApiToken lookup).errors
      [("ADMIN_API_TOKEN", Malformed lookup "ADMIN_API_TOKEN" StrongToken)] := by
  unfold readAdminApiToken Malformed
  cases given lookup "ADMIN_API_TOKEN" with
  | none => exact .spared nofun .nil
  | some value =>
      simp only [Option.some.injEq, exists_eq_left']
      cases h : validateAdminApiToken value with
      | ok u => exact .spared (not_not_intro (validateAdminApiToken_eq_ok.mp h)) .nil
      | error reason =>
          refine .blamed (fun hstrong => ?_) .nil
          rw [validateAdminApiToken_eq_ok.mpr hstrong] at h
          cases h

theorem explains_readMinKeeperBalance :
    Explains EnvError.var (readMinKeeperBalance parsers lookup).errors
      [("MIN_KEEPER_BALANCE_XLM", Malformed lookup "MIN_KEEPER_BALANCE_XLM"
        fun s => ∃ x, parsers.f64 s = .ok x ∧ acceptsBalance parsers.ops x = true)] := by
  refine explains_collect (Judges.congr ((judges_parseOrDefault _).bind fun x => judges_if rfl)
    (exists_congr fun x => and_congr parseOrDefault_eq_ok (Bool.not_eq_false _).to_iff))
    (not_getD ⟨_, parsers.minBalance_eq, parsers.minBalance_ok⟩)

theorem explains_readPositive {bound default : Nat} (hpos : 0 < default) (hlt : default < bound) :
    Explains EnvError.var (readPositive lookup (parseUnsigned bound) var default).errors
      [(var, Malformed lookup var (PositiveBelow bound))] :=
  explains_collect (judges_positive (by omega) default)
    (not_getD (positiveBelow_toString hpos hlt))

theorem explains_readFields :
    Explains EnvError.var (readFields parsers lookup).errors (fieldFaults parsers lookup) := by
  refine explains_readNetwork.append (explains_readBindAddr.append (explains_readRpcUrl.append
    (explains_readOracleContractId.append (explains_readTokens.append ?_))))
  refine explains_readRequired.append (explains_readRequired.append (explains_readRequired.append
    (explains_readRequired.append (explains_readRequired.append
      (explains_readRequired.append ?_)))))
  refine (explains_readKey fun _ => judges_validateHexKey _ _).append
    ((explains_readKey fun _ => judges_validateStrkey _).append
      ((explains_readKey fun _ => judges_validateStrkey _).append ?_))
  refine explains_readKeeperIndex.append (explains_readAdminApiToken.append
    (explains_readMinKeeperBalance.append ?_))
  refine (explains_readPositive (by decide) (by decide)).append
    ((explains_readPositive (by decide) (by decide)).append
      ((explains_readPositive (by decide) (by decide)).append
        ((explains_readPositive (by decide) (by decide)).append .nil)))

theorem contractRoles_readFields :
    contractRoles (readFields parsers lookup).value = contractIds lookup := by
  have horacle : (readOracleContractId lookup (readNetwork lookup).value).value = _ :=
    value_readOracleContractId
  simp only [readFields, value_bind, value_pure, contractRoles, contractIds, List.map_cons,
    List.map_nil, value_readRequired, horacle]

end Fields

section Reports

variable {A F : Type} {parsers : Parsers A F} {lookup : String → Option String} {var : String}

theorem faulty_of_field {P : Prop} (hmem : (var, P) ∈ fieldFaults parsers lookup) (hP : P) :
    Faulty parsers lookup var := by
  simp only [fieldFaults, List.mem_cons, Prod.mk.injEq, List.not_mem_nil, or_false] at hmem
  rcases hmem with ⟨rfl, rfl⟩ | ⟨rfl, rfl⟩ | ⟨rfl, rfl⟩ | ⟨rfl, rfl⟩ | ⟨rfl, rfl⟩ | ⟨rfl, rfl⟩ |
    ⟨rfl, rfl⟩ | ⟨rfl, rfl⟩ | ⟨rfl, rfl⟩ | ⟨rfl, rfl⟩ | ⟨rfl, rfl⟩ | ⟨rfl, rfl⟩ | ⟨rfl, rfl⟩ |
    ⟨rfl, rfl⟩ | ⟨rfl, rfl⟩ | ⟨rfl, rfl⟩ | ⟨rfl, rfl⟩ | ⟨rfl, rfl⟩ | ⟨rfl, rfl⟩ | ⟨rfl, rfl⟩ |
    ⟨rfl, rfl⟩ | ⟨rfl, rfl⟩
  · exact .network hP
  · exact .malformed .bindAddr hP
  · exact .unset (.rpcUrl hP.1) hP.2
  · exact .unset (.oracle hP.1) hP.2
  · exact .oracleUnset hP.1 hP.2
  · exact .tokens hP
  · exact .unset .roleStore hP
  · exact .unset .dataStore hP
  · exact .unset .orderHandler hP
  · exact .unset .depositHandler hP
  · exact .unset .withdrawalHandler hP
  · exact .unset .reader hP
  · exact hP.elim (.unset .keeperPrivateKey) (.malformed .keeperPrivateKey)
  · exact hP.elim (.unset .keeperSecretKey) (.malformed .keeperSecretKey)
  · exact hP.elim (.unset .keeperAccountId) (.malformed .keeperAccountId)
  · exact .malformed .keeperIndex hP
  · exact .malformed .adminApiToken hP
  · exact .malformed .minKeeperBalance hP
  · exact .malformed .setPricesTxFee hP
  · exact .malformed .keeperTxFee hP
  · exact .malformed .priceLoopMs hP
  · exact .malformed .keeperLoopMs hP

theorem field_of_needed (hneeded : Needed lookup var) (h : given lookup var = none) :
    ∃ P, (var, P) ∈ fieldFaults parsers lookup ∧ P := by
  cases hneeded with
  | keeperPrivateKey =>
      exact ⟨_ ∨ Malformed lookup "KEEPER_PRIVATE_KEY" (HexBytes parsers.crates 32),
        by simp [fieldFaults], .inl h⟩
  | keeperSecretKey =>
      exact ⟨_ ∨ Malformed lookup "KEEPER_SECRET_KEY" (StrkeyShaped 'S'),
        by simp [fieldFaults], .inl h⟩
  | keeperAccountId =>
      exact ⟨_ ∨ Malformed lookup "KEEPER_ACCOUNT_ID" (StrkeyShaped 'G'),
        by simp [fieldFaults], .inl h⟩
  | rpcUrl hmainnet => exact ⟨OnMainnet lookup ∧ _, by simp [fieldFaults], hmainnet, h⟩
  | oracle hmainnet => exact ⟨OnMainnet lookup ∧ _, by simp [fieldFaults], hmainnet, h⟩
  | _ => exact ⟨_, by simp [fieldFaults], h⟩

theorem field_of_malformed {Q : String → Prop} (hcheck : Checks parsers var Q)
    (h : Malformed lookup var Q) : ∃ P, (var, P) ∈ fieldFaults parsers lookup ∧ P := by
  cases hcheck with
  | keeperPrivateKey =>
      exact ⟨given lookup "KEEPER_PRIVATE_KEY" = none ∨ _, by simp [fieldFaults], .inr h⟩
  | keeperSecretKey =>
      exact ⟨given lookup "KEEPER_SECRET_KEY" = none ∨ _, by simp [fieldFaults], .inr h⟩
  | keeperAccountId =>
      exact ⟨given lookup "KEEPER_ACCOUNT_ID" = none ∨ _, by simp [fieldFaults], .inr h⟩
  | _ => exact ⟨_, by simp [fieldFaults], h⟩

theorem faulty_iff :
    Faulty parsers lookup var ↔
      (∃ P, (var, P) ∈ fieldFaults parsers lookup ∧ P) ∨ Repeats (contractIds lookup) var := by
  constructor
  · intro h
    cases h with
    | network h => exact .inl ⟨_, by simp [fieldFaults], h⟩
    | unset hneeded h => exact .inl (field_of_needed hneeded h)
    | oracleUnset htestnet h =>
        exact .inl ⟨¬OnMainnet lookup ∧ _, by simp [fieldFaults], htestnet, h⟩
    | malformed hcheck h => exact .inl (field_of_malformed hcheck h)
    | tokens h => exact .inl ⟨_, by simp [fieldFaults], h⟩
    | repeated h => exact .inr h
  · rintro (⟨P, hmem, hP⟩ | h)
    · exact faulty_of_field hmem hP
    · exact .repeated h

theorem errors_readFields_rolesApart :
    (readFields parsers lookup >>= rolesApart).errors =
      (readFields parsers lookup).errors ++ checkRoles [] (contractIds lookup) := by
  rw [errors_bind, rolesApart, contractRoles_readFields]

theorem nodup_fieldFaults : ((fieldFaults parsers lookup).map Prod.fst).Nodup := by
  simp [fieldFaults, oracleContractIdOrAlias]

theorem nodup_contractIds : ((contractIds lookup).map Prod.fst).Nodup := by
  simp [contractIds]

theorem getD_blank {value : Option String} (h : trim (value.getD "") ≠ "") : value ≠ none := by
  rintro rfl
  exact h (by decide)

/-- A contract that is repeated is set, so that its variable is not missing. -/
theorem field_of_repeats (h : Repeats (contractIds lookup) var) {P : Prop}
    (hmem : (var, P) ∈ fieldFaults parsers lookup) : ¬P := by
  obtain ⟨before, raw, after, heq, hraw, -⟩ := h
  have hid : (var, raw) ∈ contractIds lookup := by simp [heq]
  simp only [contractIds, List.map_cons, List.map_nil, List.mem_cons, Prod.mk.injEq,
    List.not_mem_nil, or_false] at hid
  rcases hid with ⟨rfl, rfl⟩ | ⟨rfl, rfl⟩ | ⟨rfl, rfl⟩ | ⟨rfl, rfl⟩ | ⟨rfl, rfl⟩ | ⟨rfl, rfl⟩ |
    ⟨rfl, rfl⟩
  · obtain rfl : P = (OnMainnet lookup ∧ given lookup "ORACLE_CONTRACT_ID" = none) := by
      simpa [fieldFaults, oracleContractIdOrAlias] using hmem
    rintro ⟨hmainnet, hnone⟩
    rw [oracleContractId, if_pos hmainnet] at hraw
    exact getD_blank hraw hnone
  all_goals
    simp only [fieldFaults, oracleContractIdOrAlias, List.mem_cons, Prod.mk.injEq, String.reduceEq,
      false_and, true_and, false_or, or_false, List.not_mem_nil] at hmem
    subst hmem
    exact getD_blank hraw

theorem mem_errors :
    var ∈ (readFields parsers lookup >>= rolesApart).errors.map EnvError.var ↔
      Faulty parsers lookup var := by
  have hfields : Explains EnvError.var (readFields parsers lookup).errors
      (fieldFaults parsers lookup) := explains_readFields
  rw [errors_readFields_rolesApart, List.map_append, List.mem_append, hfields.mem_iff,
    mem_checkRoles, repeatsOr_nil, faulty_iff]

theorem nodup_errors :
    ((readFields parsers lookup >>= rolesApart).errors.map EnvError.var).Nodup := by
  have hfields : Explains EnvError.var (readFields parsers lookup).errors
      (fieldFaults parsers lookup) := explains_readFields
  rw [errors_readFields_rolesApart, List.map_append, List.nodup_append]
  refine ⟨hfields.sublist.nodup nodup_fieldFaults, checkRoles_sublist.nodup nodup_contractIds, ?_⟩
  rintro var hfield other hrole rfl
  obtain ⟨P, hmem, hP⟩ := hfields.mem_iff.mp hfield
  exact field_of_repeats (repeatsOr_nil.mp (mem_checkRoles.mp hrole)) hmem hP

/-- An environment is accepted when nothing is wrong with it, and everything that
is wrong is reported at once, each variable a single time. -/
theorem fromLookup_reports (parsers : Parsers A F) (lookup : String → Option String) :
    ((∃ cfg, fromLookup parsers lookup = .ok cfg) ↔ ∀ var, ¬Faulty parsers lookup var) ∧
      ∀ errors, fromLookup parsers lookup = .error errors →
        (errors.map EnvError.var).Nodup ∧
          ∀ var, var ∈ errors.map EnvError.var ↔ Faulty parsers lookup var := by
  constructor
  · have hclean : (∃ cfg, fromLookup parsers lookup = .ok cfg) ↔
        (readFields parsers lookup >>= rolesApart).errors = [] := by
      simp [fromLookup, result_eq_ok]
    rw [hclean, ← List.map_eq_nil_iff (f := EnvError.var), List.eq_nil_iff_forall_not_mem]
    exact forall_congr' fun var => not_congr mem_errors
  · intro errors h
    obtain ⟨-, rfl⟩ := result_eq_error.mp h
    exact ⟨nodup_errors, fun var => mem_errors⟩

def sampleParsers : Parsers String (Option ℚ) where
  ops := rationalOps id
  socketAddr := .ok
  f64 s := if s = "10" then .ok (some 10) else .error "invalid float literal"
  f64Text _ := "10"
  crates := SubmitOutcome.sampleCrates
  priceFeedConfig _ := .ok []
  tokensJson := "[]"
  bindAddr := defaultBindAddr
  bindAddr_eq := rfl
  minBalance_eq := by decide +kernel
  minBalance_ok := by decide +kernel

/-- A fee that is too large, and little else. -/
def sampleEnvironment (var : String) : Option String :=
  if var = "SET_PRICES_TX_FEE" then some "4294967296"
  else if var = "ORACLE" ∨ var = "READER" then some " CREADER "
  else none

theorem fromLookup_reports_sample :
    Faulty sampleParsers sampleEnvironment "SET_PRICES_TX_FEE" ∧
      Faulty sampleParsers sampleEnvironment "READER" ∧
        ¬∃ cfg, fromLookup sampleParsers sampleEnvironment = .ok cfg := by
  obtain ⟨hok, herrors⟩ := fromLookup_reports sampleParsers sampleEnvironment
  have hnames : ((readFields sampleParsers sampleEnvironment >>= rolesApart).errors.map
      EnvError.var) = ["ROLE_STORE", "DATA_STORE", "ORDER_HANDLER", "DEPOSIT_HANDLER",
        "WITHDRAWAL_HANDLER", "KEEPER_PRIVATE_KEY", "KEEPER_SECRET_KEY", "KEEPER_ACCOUNT_ID",
        "SET_PRICES_TX_FEE", "READER"] := by decide +kernel
  have herror : fromLookup sampleParsers sampleEnvironment =
      .error (readFields sampleParsers sampleEnvironment >>= rolesApart).errors := by
    refine result_eq_error.mpr ⟨fun hnil => ?_, rfl⟩
    rw [hnil] at hnames
    cases hnames
  obtain ⟨-, hiff⟩ := herrors _ herror
  rw [hnames] at hiff
  have hfee := (hiff "SET_PRICES_TX_FEE").mp (by simp)
  exact ⟨hfee, (hiff "READER").mp (by simp), fun haccepted => hok.mp haccepted _ hfee⟩

end Reports

end So4Oracle.EnvFaults
