import Mathlib.Tactic.Linarith
import Mathlib.Tactic.NormNum
import So4Oracle.Admin
import So4Oracle.Library.Floats
import So4Oracle.Library.Strategies
import So4Oracle.Retry
import So4Oracle.XlmBalance

namespace So4Oracle.KeeperBalance

open Library.Requests Library.Checked Library.Floats Library.Strategies StellarRpc XlmBalance Admin Retry

variable {F : Type}

def xlmInStroops : Int := 10000000

structure KeeperBalanceConfig (F : Type) where
  horizonUrl : String
  accountId : String
  minBalanceXlm : F

/-- An RPC error, with the amounts of a low balance as the numbers they are. A
panic passes through every caller. -/
inductive BalanceError (F : Type)
  | rpc (e : RpcError)
  | balanceBelowMinimum (balanceStroops : Int) (balanceXlm minXlm : F)
  | panicked (fault : Fault)

def BalanceError.isRetryable : BalanceError F → Bool
  | .rpc e => e.isRetryable
  | .balanceBelowMinimum _ _ _ | .panicked _ => false

/-- What the check logs, as an error, for debugging, for information and for
debugging. -/
inductive BalanceLog
  | belowMinimum
  | stillBelowMinimum
  | recovered
  | ok
  deriving DecidableEq

inductive BalanceRequest
  | getAccount (url : String)
  | swapBelowMin (low : Bool)
  | log (event : BalanceLog)

@[reducible] def BalanceRequest.Answer : BalanceRequest → Type
  | getAccount _ => Reply
  | swapBelowMin _ => Bool
  | log _ => Unit

abbrev BalanceProgram := Program BalanceRequest BalanceRequest.Answer

abbrev BalanceTrace := List (Event BalanceRequest BalanceRequest.Answer)

def balanceAsk (q : BalanceRequest) : BalanceProgram q.Answer := Program.request q

section Check

variable (decode : String → Except String (List HorizonBalanceEntry))

/-- A body that cannot be read counts as a failed request. -/
def readAccount (accountId : String) : Reply → Fallible RpcError Int
  | .failed msg => throw (.networkError msg)
  | .http status body =>
      if status = 404 then throw (.unfundedAccount accountId)
      else if status ≠ 200 then throw (.httpError status (truncateErrorBody body))
      else parseAccountBalanceResponse (decode body)

def settle (x : Fallible RpcError Int) : Except (BalanceError F) Int :=
  match x.run with
  | .error fault => .error (.panicked fault)
  | .ok (.error e) => .error (.rpc e)
  | .ok (.ok stroops) => .ok stroops

def getAccountBalanceStroops (horizonUrl accountId : String) :
    BalanceProgram (Except (BalanceError F) Int) := do
  let reply ← balanceAsk (.getAccount (horizonUrl ++ "/accounts/" ++ accountId))
  pure (settle (readAccount decode accountId reply))

variable (ops : FloatOps F) (cfg : KeeperBalanceConfig F)

/-- The balance less the base reserve. -/
def spendableXlm (stroops : Int) : F :=
  ops.sub (ops.div (ops.ofInt stroops) (ops.ofInt xlmInStroops)) (ops.ofInt 1)

def belowMinimum (stroops : Int) : Bool := ops.lt (spendableXlm ops stroops) cfg.minBalanceXlm

/-- What follows once the balance is known. -/
def compareBalance (stroops : Int) : BalanceProgram (Except (BalanceError F) Int) :=
  if belowMinimum ops cfg stroops then do
    let wasBelow ← balanceAsk (.swapBelowMin true)
    balanceAsk (.log (if wasBelow then .stillBelowMinimum else .belowMinimum))
    pure (.error (.balanceBelowMinimum stroops (spendableXlm ops stroops) cfg.minBalanceXlm))
  else do
    let wasBelow ← balanceAsk (.swapBelowMin false)
    balanceAsk (.log (if wasBelow then .recovered else .ok))
    pure (.ok stroops)

def checkKeeperBalance : BalanceProgram (Except (BalanceError F) Int) := do
  match ← getAccountBalanceStroops decode cfg.horizonUrl cfg.accountId with
  | .error e => pure (.error e)
  | .ok stroops => compareBalance ops cfg stroops

structure BalanceResponse (F : Type) where
  accountId : String
  balanceStroops : Int
  balanceXlm : F
  belowMinimum : Bool
  minBalanceXlm : F

def buildBalanceResponse (stroops : Int) : BalanceResponse F where
  accountId := cfg.accountId
  balanceStroops := stroops
  balanceXlm := spendableXlm ops stroops
  belowMinimum := belowMinimum ops cfg stroops
  minBalanceXlm := cfg.minBalanceXlm

end Check

section Endpoint

/-- The balance response of the admin interface. -/
structure AdminBalanceResponse (F : Type) where
  accountId : String
  balanceStroops : Int
  balanceXlm : F
  minBalanceXlm : F
  isFunded : Bool

def keeperBalanceRetryAttempts : Nat := 3

def keeperBalanceCheckFailed : ApiError := ⟨503, "keeper_balance_check_failed"⟩

variable (decode : String → Except String (List HorizonBalanceEntry)) (ops : FloatOps F)
  (cfg : KeeperBalanceConfig F)

def keeperBalance : BalanceProgram (Panicking (Except ApiError (AdminBalanceResponse F))) := do
  let result ← retryWithBackoff BalanceError.isRetryable (checkKeeperBalance decode ops cfg)
    keeperBalanceRetryAttempts (by decide)
  match result with
  | .ok stroops =>
      let response := buildBalanceResponse ops cfg stroops
      pure (.ok (.ok {
        accountId := response.accountId
        balanceStroops := response.balanceStroops
        balanceXlm := response.balanceXlm
        minBalanceXlm := response.minBalanceXlm
        isFunded := !response.belowMinimum }))
  | .error (.balanceBelowMinimum balanceStroops balanceXlm minXlm) =>
      pure (.ok (.ok ⟨cfg.accountId, balanceStroops, balanceXlm, minXlm, false⟩))
  | .error (.panicked fault) => pure (.error fault)
  | .error (.rpc _) => pure (.ok (.error keeperBalanceCheckFailed))

end Endpoint

section Runs

variable {decode : String → Except String (List HorizonBalanceEntry)} {ops : FloatOps F}
  {cfg : KeeperBalanceConfig F} {tr : BalanceTrace}

def reply? : Event BalanceRequest BalanceRequest.Answer → Option Reply
  | ⟨.getAccount _, reply⟩ => some reply
  | _ => none

/-- What Horizon answered, request by request. -/
def repliesOf (tr : BalanceTrace) : List Reply := tr.filterMap reply?

/-- The answer holds an account whose native balance is worth this much. -/
def Tells (decode : String → Except String (List HorizonBalanceEntry)) (reply : Reply)
    (stroops : Int) : Prop :=
  ∃ body balances native, reply = .http 200 body ∧ decode body = .ok balances ∧
    (balances.find? fun entry => entry.assetType == "native") = some native ∧
    StroopsOf native.balance stroops

theorem returns_readAccount {accountId : String} {reply : Reply} {stroops : Int} :
    Returns (readAccount decode accountId reply) stroops ↔ Tells decode reply stroops := by
  constructor
  · intro h
    cases reply with
    | failed msg => cases h
    | http status body =>
        rw [readAccount] at h
        split at h
        next => cases h
        next =>
          split at h
          next => cases h
          next hstatus =>
            obtain rfl := not_not.mp hstatus
            cases hdecode : decode body with
            | error e =>
                rw [hdecode] at h
                cases h
            | ok balances =>
                rw [hdecode] at h
                obtain ⟨native, hfind, hstroops⟩ := parseAccountBalanceResponse_returns.mp h
                exact ⟨body, balances, native, rfl, hdecode, hfind, hstroops⟩
  · rintro ⟨body, balances, native, rfl, hdecode, hfind, hstroops⟩
    rw [readAccount, if_neg (by decide), if_neg (by decide), hdecode]
    exact parseAccountBalanceResponse_returns.mpr ⟨native, hfind, hstroops⟩

/-- The check never panics on an answer. -/
theorem readAccount_ne_fault {accountId : String} {reply : Reply} {fault : Fault} :
    (readAccount decode accountId reply).run ≠ .error fault := by
  intro h
  cases reply with
  | failed msg => cases h
  | http status body =>
      rw [readAccount] at h
      split at h
      next => cases h
      next =>
        split at h
        next => cases h
        next =>
          cases hdecode : decode body with
          | error e =>
              rw [hdecode] at h
              cases h
          | ok balances =>
              rw [hdecode, parseAccountBalanceResponse] at h
              rcases faults_bind.mp h with hdemand | ⟨native, -, hparse⟩
              · exact faults_demand hdemand
              · rcases parseXlmBalanceToStroops_returnsOr native.balance with ⟨s, hs⟩ | hs
                · exact hs.not_faults hparse
                · rw [hs] at hparse
                  cases hparse

/-- What the check makes of an answer. -/
inductive Verdict (decode : String → Except String (List HorizonBalanceEntry)) (ops : FloatOps F)
    (cfg : KeeperBalanceConfig F) (reply : Reply) : Except (BalanceError F) Int → Prop
  | funded {stroops} (h : Tells decode reply stroops) (hmin : belowMinimum ops cfg stroops = false) :
      Verdict decode ops cfg reply (.ok stroops)
  | low {stroops} (h : Tells decode reply stroops) (hmin : belowMinimum ops cfg stroops = true) :
      Verdict decode ops cfg reply
        (.error (.balanceBelowMinimum stroops (spendableXlm ops stroops) cfg.minBalanceXlm))
  | unread {e} (h : ∀ stroops, ¬Tells decode reply stroops) (hread : (readAccount decode
      cfg.accountId reply).run = .ok (.error e)) : Verdict decode ops cfg reply (.error (.rpc e))

theorem getAccountBalanceStroops_runs {url accountId : String} {r : Except (BalanceError F) Int}
    (h : Runs (getAccountBalanceStroops decode url accountId) tr r) :
    ∃ reply, repliesOf tr = [reply] ∧ r = settle (readAccount decode accountId reply) := by
  obtain ⟨reply, rest, rfl, hrest⟩ := runs_ask.mp h
  obtain ⟨rfl, rfl⟩ := runs_done.mp hrest
  exact ⟨reply, rfl, rfl⟩

theorem checkKeeperBalance_runs {r : Except (BalanceError F) Int}
    (h : Runs (checkKeeperBalance decode ops cfg) tr r) :
    ∃ reply, repliesOf tr = [reply] ∧ Verdict decode ops cfg reply r := by
  obtain ⟨first, a, rest, rfl, hfirst, hrest⟩ := runs_bind.mp h
  obtain ⟨reply, hreply, rfl⟩ := getAccountBalanceStroops_runs hfirst
  refine ⟨reply, ?_⟩
  rw [repliesOf, List.filterMap_append, ← repliesOf, hreply]
  cases hread : (readAccount decode cfg.accountId reply).run with
  | error fault => exact absurd hread readAccount_ne_fault
  | ok result =>
      rw [settle, hread] at hrest
      cases result with
      | error e =>
          obtain ⟨rfl, rfl⟩ := runs_done.mp hrest
          refine ⟨rfl, .unread (fun stroops htells => ?_) hread⟩
          have hreturns : Returns (readAccount decode cfg.accountId reply) stroops :=
            returns_readAccount.mpr htells
          rw [Returns, hread] at hreturns
          cases hreturns
      | ok stroops =>
          have htells : Tells decode reply stroops := returns_readAccount.mp hread
          dsimp only at hrest
          rw [compareBalance] at hrest
          split at hrest
          next hmin =>
            obtain ⟨wasBelow, _, rfl, hlog⟩ := runs_ask.mp hrest
            obtain ⟨_, _, rfl, hdone⟩ := runs_ask.mp hlog
            obtain ⟨rfl, rfl⟩ := runs_done.mp hdone
            exact ⟨rfl, .low htells hmin⟩
          next hmin =>
            obtain ⟨wasBelow, _, rfl, hlog⟩ := runs_ask.mp hrest
            obtain ⟨_, _, rfl, hdone⟩ := runs_ask.mp hlog
            obtain ⟨rfl, rfl⟩ := runs_done.mp hdone
            exact ⟨rfl, .funded htells (Bool.eq_false_iff.mpr hmin)⟩

/-- An answer that is asked for again. -/
def Transient : Reply → Prop
  | .failed _ => True
  | .http status _ => 500 ≤ status ∨ status = 429

theorem demand_error {α : Type} {o : Option α} {e e' : RpcError}
    (h : (demand o e).run = .ok (.error e')) : e' = e := by
  cases o with
  | none => exact (Except.error.inj (Except.ok.inj h)).symm
  | some a => exact nomatch Except.ok.inj h

theorem parseXlmBalanceToStroops_error {raw : String} {e : RpcError}
    (h : (parseXlmBalanceToStroops raw).run = .ok (.error e)) : e = unparseable raw := by
  rcases parseXlmBalanceToStroops_returnsOr raw with ⟨stroops, hreturns⟩ | herror
  · have heq := (Eq.symm hreturns).trans h
    exact nomatch heq
  · rw [herror] at h
    exact (Except.error.inj (Except.ok.inj h)).symm

theorem parseAccountBalanceResponse_error {decoded : Except String (List HorizonBalanceEntry)}
    {e : RpcError} (h : (parseAccountBalanceResponse decoded).run = .ok (.error e)) :
    ∃ msg, e = .jsonError msg := by
  cases decoded with
  | error text => exact ⟨text, (Except.error.inj (Except.ok.inj h)).symm⟩
  | ok balances =>
      rw [parseAccountBalanceResponse] at h
      obtain ⟨result, hfind, hparse⟩ := bind_eq_ok.mp h
      cases result with
      | error e' =>
          obtain rfl := Except.error.inj (Except.ok.inj hparse)
          exact ⟨_, demand_error hfind⟩
      | ok native => exact ⟨_, parseXlmBalanceToStroops_error hparse⟩

theorem isRetryable_readAccount {accountId : String} {reply : Reply} {e : RpcError}
    (h : (readAccount decode accountId reply).run = .ok (.error e)) :
    e.isRetryable = true ↔ Transient reply := by
  cases reply with
  | failed msg =>
      obtain rfl := Except.error.inj (Except.ok.inj h)
      exact iff_of_true rfl trivial
  | http status body =>
      rw [readAccount] at h
      split at h
      next hstatus =>
        obtain rfl := Except.error.inj (Except.ok.inj h)
        subst hstatus
        exact iff_of_false Bool.false_ne_true (by simp [Transient])
      next =>
        split at h
        next =>
          obtain rfl := Except.error.inj (Except.ok.inj h)
          simp [RpcError.isRetryable, Transient]
        next hstatus =>
          obtain rfl := not_not.mp hstatus
          obtain ⟨msg, rfl⟩ := parseAccountBalanceResponse_error h
          exact iff_of_false Bool.false_ne_true (by simp [Transient])

theorem Tells.not_transient {reply : Reply} {stroops : Int} (h : Tells decode reply stroops) :
    ¬Transient reply := by
  obtain ⟨body, balances, native, rfl, -⟩ := h
  simp [Transient]

theorem Verdict.isRetryable {reply : Reply} {e : BalanceError F}
    (h : Verdict decode ops cfg reply (.error e)) : e.isRetryable = true ↔ Transient reply := by
  cases h with
  | low htells hmin => exact iff_of_false nofun htells.not_transient
  | unread h hread => exact isRetryable_readAccount hread

theorem repliesOf_append (first rest : BalanceTrace) :
    repliesOf (first ++ rest) = repliesOf first ++ repliesOf rest :=
  List.filterMap_append

/-- Each attempt that is followed by another is one request with a transient answer. -/
theorem repliesOf_retried {tries : List BalanceTrace}
    (h : ∀ first ∈ tries, ∃ e, Runs (checkKeeperBalance decode ops cfg) first (.error e) ∧
      e.isRetryable = true) :
    (repliesOf tries.flatten).length = tries.length ∧
      ∀ reply ∈ repliesOf tries.flatten, Transient reply := by
  induction tries with
  | nil => exact ⟨rfl, fun reply hmem => absurd hmem List.not_mem_nil⟩
  | cons first tries ih =>
      obtain ⟨e, hruns, hretry⟩ := h first List.mem_cons_self
      obtain ⟨reply, hreply, hverdict⟩ := checkKeeperBalance_runs hruns
      obtain ⟨hlength, hall⟩ := ih fun other hmem => h other (List.mem_cons_of_mem _ hmem)
      rw [List.flatten_cons, repliesOf_append, hreply]
      refine ⟨congrArg Nat.succ hlength, fun other hmem => ?_⟩
      rcases List.mem_cons.mp hmem with rfl | hmem
      · exact hverdict.isRetryable.mp hretry
      · exact hall other hmem

/-- The requests of all attempts, and what is made of the last answer. -/
theorem retried_runs {r : Except (BalanceError F) Int} {attempts : Nat} {hpos : 0 < attempts}
    (h : Runs (retryWithBackoff BalanceError.isRetryable (checkKeeperBalance decode ops cfg) attempts
      hpos) tr r) :
    ∃ earlier last, repliesOf tr = earlier ++ [last] ∧ earlier.length < attempts ∧
      (∀ reply ∈ earlier, Transient reply) ∧ (earlier.length + 1 < attempts → ¬Transient last) ∧
      Verdict decode ops cfg last r := by
  obtain ⟨tries, lastTrace, rfl, hlength, hall, hlast, hfinal⟩ := retryFrom_attempts h
  obtain ⟨last, hreply, hverdict⟩ := checkKeeperBalance_runs hlast
  obtain ⟨hcount, htransient⟩ := repliesOf_retried hall
  refine ⟨repliesOf tries.flatten, last, ?_, by omega, htransient, fun hlt => ?_, hverdict⟩
  · rw [repliesOf_append, hreply]
  · cases r with
    | ok stroops =>
        cases hverdict with
        | funded htells => exact htells.not_transient
    | error e =>
        rw [← hverdict.isRetryable, hfinal (by omega) e rfl]
        exact nofun

end Runs

section Rounded

variable {rnd : ℚ → ℚ} {m : ℚ} {stroops : Int}

theorem rnd_ge (law : Rounding rnd) {x : ℚ} (hx : 0 ≤ x) : x * (1 - 1 / 2 ^ 52) ≤ rnd x := by
  have hnear := law.near x
  rw [abs_of_nonneg hx, abs_le] at hnear
  linarith [hnear.1]

theorem rnd_le (law : Rounding rnd) {x : ℚ} (hx : 0 ≤ x) : rnd x ≤ x * (1 + 1 / 2 ^ 52) := by
  have hnear := law.near x
  rw [abs_of_nonneg hx, abs_le] at hnear
  linarith [hnear.2]

/-- The balance in XLM as the code computes it. -/
def totalXlm (rnd : ℚ → ℚ) (stroops : Int) : ℚ := rnd (rnd stroops / 10 ^ 7)

theorem spendableXlm_rational (law : Rounding rnd) (stroops : Int) :
    spendableXlm (rationalOps rnd) stroops = some (rnd (totalXlm rnd stroops - 1)) := by
  have hxlm : rnd ((xlmInStroops : Int) : ℚ) = 10 ^ 7 := by
    rw [law.small xlmInStroops (by decide)]
    norm_num [xlmInStroops]
  have hone : rnd ((1 : Int) : ℚ) = 1 := by
    rw [law.small 1 (by decide)]
    norm_num
  rw [spendableXlm, rationalOps_ofInt, rationalOps_ofInt, rationalOps_ofInt, hxlm, hone,
    rationalOps_div (by norm_num), rationalOps_sub, totalXlm]

theorem belowMinimum_rational (law : Rounding rnd) {cfg : KeeperBalanceConfig (Option ℚ)}
    (hcfg : cfg.minBalanceXlm = some m) (stroops : Int) :
    belowMinimum (rationalOps rnd) cfg stroops = true ↔ rnd (totalXlm rnd stroops - 1) < m := by
  rw [belowMinimum, spendableXlm_rational law, hcfg, rationalOps_lt, decide_eq_true_iff]

theorem totalXlm_bounds (law : Rounding rnd) (hs : 0 ≤ stroops) :
    (stroops : ℚ) / 10 ^ 7 * (1 - 1 / 2 ^ 51) ≤ totalXlm rnd stroops ∧
      totalXlm rnd stroops ≤ (stroops : ℚ) / 10 ^ 7 * (1 + 1 / 2 ^ 50) := by
  have hstroops : (0 : ℚ) ≤ stroops := by exact_mod_cast hs
  have hrounded : 0 ≤ rnd stroops := law.nonneg hstroops
  have hquotient : 0 ≤ rnd stroops / 10 ^ 7 := div_nonneg hrounded (by norm_num)
  have hlow := rnd_ge law hstroops
  have hhigh := rnd_le law hstroops
  have hlow' := rnd_ge law hquotient
  have hhigh' := rnd_le law hquotient
  rw [totalXlm]
  constructor <;> linarith

/-- The decision is that of the exact amounts, but for a band around the minimum. -/
theorem belowMinimum_bounds (law : Rounding rnd) (hm : rnd m = m) (hs : 0 ≤ stroops)
    {cfg : KeeperBalanceConfig (Option ℚ)} (hcfg : cfg.minBalanceXlm = some m) :
    (belowMinimum (rationalOps rnd) cfg stroops = true →
        (stroops : ℚ) / 10 ^ 7 * (1 - 1 / 2 ^ 51) < m + 1) ∧
      (belowMinimum (rationalOps rnd) cfg stroops = false →
        m + 1 ≤ (stroops : ℚ) / 10 ^ 7 * (1 + 1 / 2 ^ 49) + 1 / 2 ^ 50) := by
  obtain ⟨hlow, hhigh⟩ := totalXlm_bounds law hs
  rw [← Bool.not_eq_true, belowMinimum_rational law hcfg]
  constructor
  · intro hlt
    have hbelow : totalXlm rnd stroops - 1 < m := by
      by_contra hge
      have hmono := law.mono (not_lt.mp hge)
      linarith
    linarith
  · intro hge
    have hnear := law.near (totalXlm rnd stroops - 1)
    have hsize : |totalXlm rnd stroops - 1| ≤ totalXlm rnd stroops + 1 := by
      have hstroops : (0 : ℚ) ≤ stroops := by exact_mod_cast hs
      have htotal : 0 ≤ totalXlm rnd stroops := law.nonneg (div_nonneg (law.nonneg hstroops) (by norm_num))
      rw [abs_le]
      constructor <;> linarith
    have habove := (abs_le.mp hnear).2
    linarith [not_lt.mp hge]

theorem rnd_natCast (law : Rounding rnd) {n : Nat} (h : n ≤ 2 ^ 53) : rnd n = n := by
  have hsmall := law.small n (by rw [abs_of_nonneg (Int.natCast_nonneg n)]; exact_mod_cast h)
  exact_mod_cast hsmall

/-- A minimum of whole XLM is kept to the stroop. -/
theorem belowMinimum_whole (law : Rounding rnd) {k : Nat} (hk : k ≤ 10000000) (hs : 0 ≤ stroops)
    {cfg : KeeperBalanceConfig (Option ℚ)} (hcfg : cfg.minBalanceXlm = some (k : ℚ)) :
    belowMinimum (rationalOps rnd) cfg stroops = true ↔ stroops < (k + 1) * xlmInStroops := by
  have hrepresented : rnd k = k := rnd_natCast law (by omega)
  rw [xlmInStroops]
  constructor
  · intro hbelow
    by_contra hge
    rw [belowMinimum_rational law hcfg] at hbelow
    have hstroops : (((k + 1) * 10000000 : Nat) : ℚ) ≤ stroops := by exact_mod_cast not_lt.mp hge
    have hmono := law.mono hstroops
    rw [rnd_natCast law (by omega)] at hmono
    have hxlm : ((k + 1 : Nat) : ℚ) ≤ rnd stroops / 10 ^ 7 := by
      rw [le_div_iff₀ (by norm_num)]
      push_cast at hmono ⊢
      linarith
    have htotal : ((k + 1 : Nat) : ℚ) ≤ totalXlm rnd stroops := by
      rw [← rnd_natCast law (by omega : k + 1 ≤ 2 ^ 53)]
      exact law.mono hxlm
    have hspendable : (k : ℚ) ≤ totalXlm rnd stroops - 1 := by
      push_cast at htotal
      linarith
    have hfinal := law.mono hspendable
    rw [hrepresented] at hfinal
    linarith
  · intro hlt
    by_contra hfunded
    obtain ⟨-, hbounds⟩ := belowMinimum_bounds law hrepresented hs hcfg
    have hclose := hbounds (Bool.eq_false_iff.mpr hfunded)
    have hstroops : (stroops : ℚ) + 1 ≤ (k + 1) * 10000000 := by exact_mod_cast hlt
    have hkq : (k : ℚ) ≤ 10000000 := by exact_mod_cast hk
    linarith

end Rounded

section Main

variable {decode : String → Except String (List HorizonBalanceEntry)} {rnd : ℚ → ℚ} {m : ℚ}
  {cfg : KeeperBalanceConfig (Option ℚ)} {tr : BalanceTrace}
  {r : Panicking (Except ApiError (AdminBalanceResponse (Option ℚ)))}

theorem Tells.nonneg {reply : Reply} {stroops : Int} (h : Tells decode reply stroops) :
    0 ≤ stroops := by
  obtain ⟨_, _, native, -, -, -, hstroops⟩ := h
  obtain ⟨n, -, rfl, -⟩ := parseXlmBalanceToStroops_returns.mp (returns_iff_stroopsOf.mpr hstroops)
  exact Int.natCast_nonneg _

theorem Tells.unique {reply : Reply} {s t : Int} (hs : Tells decode reply s)
    (ht : Tells decode reply t) : s = t := by
  have hreturns : Returns (readAccount decode "" reply) s := returns_readAccount.mpr hs
  have hother : Returns (readAccount decode "" reply) t := returns_readAccount.mpr ht
  exact Except.ok.inj (Except.ok.inj ((Eq.symm hreturns).trans hother))

/-- How the account is judged is how the exact amounts compare. -/
def Judged (m : ℚ) (stroops : Int) (isFunded : Bool) : Prop :=
  (isFunded = true → m + 1 ≤ (stroops : ℚ) / 10 ^ 7 * (1 + 1 / 2 ^ 49) + 1 / 2 ^ 50) ∧
    (isFunded = false → (stroops : ℚ) / 10 ^ 7 * (1 - 1 / 2 ^ 51) < m + 1) ∧
    ∀ k : Nat, k ≤ 10000000 → m = k → (isFunded = true ↔ (k + 1) * xlmInStroops ≤ stroops)

theorem judged_belowMinimum (law : Rounding rnd) (hm : rnd m = m) (hcfg : cfg.minBalanceXlm = some m)
    {stroops : Int} (hs : 0 ≤ stroops) :
    Judged m stroops (!belowMinimum (rationalOps rnd) cfg stroops) := by
  obtain ⟨hbelow, hfunded⟩ := belowMinimum_bounds law hm hs hcfg
  refine ⟨fun h => hfunded (by simpa using h), fun h => hbelow (by simpa using h), ?_⟩
  rintro k hk rfl
  rw [← not_lt, ← belowMinimum_whole law hk hs hcfg]
  simp

/-- The endpoint asks up to three times, never panics, reports what the last
answer tells, and calls the account funded as the exact amounts have it, but for
a band about the minimum that is empty for whole XLM. -/
theorem keeperBalance_exact (law : Rounding rnd) (hm : rnd m = m) (hcfg : cfg.minBalanceXlm = some m)
    (h : Runs (keeperBalance decode (rationalOps rnd) cfg) tr r) :
    ∃ earlier last, repliesOf tr = earlier ++ [last] ∧ earlier.length < 3 ∧
      (∀ reply ∈ earlier, Transient reply) ∧ (earlier.length + 1 < 3 → ¬Transient last) ∧
      ((∀ stroops, ¬Tells decode last stroops) → r = .ok (.error keeperBalanceCheckFailed)) ∧
      ∀ stroops, Tells decode last stroops → ∃ response, r = .ok (.ok response) ∧
        response.balanceStroops = stroops ∧ Judged m stroops response.isFunded := by
  obtain ⟨first, result, rest, rfl, hretry, hrest⟩ := runs_bind.mp h
  obtain ⟨earlier, last, hreplies, hlength, htransient, hfinal, hverdict⟩ := retried_runs hretry
  have hall : repliesOf (first ++ []) = earlier ++ [last] := by rw [List.append_nil, hreplies]
  cases hverdict with
  | @funded balance htells hmin =>
      obtain ⟨rfl, rfl⟩ := runs_done.mp hrest
      refine ⟨earlier, last, hall, hlength, htransient, hfinal, fun hnone => absurd htells (hnone _), ?_⟩
      intro stroops hstroops
      obtain rfl := htells.unique hstroops
      exact ⟨_, rfl, rfl, judged_belowMinimum law hm hcfg htells.nonneg⟩
  | @low balance htells hmin =>
      obtain ⟨rfl, rfl⟩ := runs_done.mp hrest
      refine ⟨earlier, last, hall, hlength, htransient, hfinal, fun hnone => absurd htells (hnone _), ?_⟩
      intro stroops hstroops
      obtain rfl := htells.unique hstroops
      have hjudged := judged_belowMinimum law hm hcfg htells.nonneg
      rw [hmin] at hjudged
      exact ⟨_, rfl, rfl, hjudged⟩
  | unread hnone hread =>
      obtain ⟨rfl, rfl⟩ := runs_done.mp hrest
      exact ⟨earlier, last, hall, hlength, htransient, hfinal, fun _ => rfl,
        fun stroops htells => absurd htells (hnone stroops)⟩

/-- A failed request, then an account of twenty XLM. -/
def sampleHorizon : Strategy BalanceRequest BalanceRequest.Answer := fun past q =>
  match q with
  | .getAccount _ => some (if past.isEmpty then .failed "timed out" else .http 200 "account")
  | .swapBelowMin _ => some false
  | .log _ => some ()

def sampleDecode (_ : String) : Except String (List HorizonBalanceEntry) :=
  .ok [⟨"native", "20.0000000"⟩]

def sampleConfig : KeeperBalanceConfig (Option ℚ) := ⟨"https://horizon", "GKEEPER", some 19⟩

theorem keeperBalance_exact_sample :
    ∃ tr r, (Runs (keeperBalance sampleDecode exactOps sampleConfig) tr r ∧ (repliesOf tr).length = 2) ∧
      ∃ earlier last, repliesOf tr = earlier ++ [last] ∧
        ∀ stroops, Tells sampleDecode last stroops → ∃ response, r = .ok (.ok response) ∧
          response.balanceStroops = stroops ∧ Judged 19 stroops response.isFunded := by
  have hplayed : (against sampleHorizon (keeperBalance sampleDecode exactOps sampleConfig) []).any
      (fun result => (repliesOf result.2).length == 2) = true := by decide +kernel
  obtain ⟨tr, r, hruns, hcheck⟩ := exists_runs (fun _ tr => (repliesOf tr).length == 2) hplayed
  obtain ⟨earlier, last, hreplies, -, -, -, -, hjudged⟩ :=
    keeperBalance_exact rounding_id rfl rfl hruns
  exact ⟨tr, r, ⟨hruns, eq_of_beq hcheck⟩, earlier, last, hreplies, hjudged⟩

end Main

end So4Oracle.KeeperBalance
