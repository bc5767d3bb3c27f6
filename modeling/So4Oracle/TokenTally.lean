import So4Oracle.Isolation
import So4Oracle.MetricsState

namespace So4Oracle.TokenTally

open Library.Checked Library.Requests Wire Config State StellarRpc Prices Sources PriceCycle
  CycleInputs Isolation MetricsState PriceScript KeeperScript

variable {F : Type}

abbrev PriceTrace (F : Type) := List (Event PriceRequest (PriceRequest.Answer F))

section Recording

theorem recordPriceCycle_ok {latencyMs tokensOk tokensFailed now : Nat} {before after : Counters F}
    (h : (before.recordPriceCycle latencyMs tokensOk tokensFailed now).checked = .ok after) :
    after.tokenFetchOk = before.tokenFetchOk + tokensOk ∧
      after.tokenFetchFailures = before.tokenFetchFailures + tokensFailed := by
  obtain ⟨rfl, -⟩ := ite_eq_ok.mp h
  exact ⟨rfl, rfl⟩

/-- The timeout drops the cycle together with its partial counters. -/
def reportedTally (settings : Settings) : Option CycleTally → CycleTally
  | some tally => tally
  | none => ⟨0, settings.tokens.length, 0⟩

/-- A cycle that came to its end, or one that the timeout dropped on the way. -/
inductive PriceCycleRun (num : Numerics F) (crates : Crates) (settings : Settings)
    (signPrice : SignPrice) : PriceTrace F → Option CycleTally → Prop
  | completed {tr tally} (h : Runs (executePriceCycle num crates settings signPrice) tr tally) :
      PriceCycleRun num crates settings signPrice tr (some tally)
  | timedOut (tr) : PriceCycleRun num crates settings signPrice tr none

/-- What run_price_cycle adds to the counters when it is over. -/
def finishCycle (settings : Settings) (latencyMs now : Nat) (tally : Option CycleTally)
    (before : Counters F) : Panicking (Counters F) :=
  (before.recordPriceCycle latencyMs (reportedTally settings tally).tokensOk
    (reportedTally settings tally).tokensFailed now).checked

/-- The tokens that the cycle added to the counters are the configured ones. -/
def AddsUp (settings : Settings) (before after : Counters F) : Prop :=
  after.tokenFetchOk + after.tokenFetchFailures =
    before.tokenFetchOk + before.tokenFetchFailures + settings.tokens.length

end Recording

section Tallies

def accounted (tally : CycleTally) : Nat := tally.tokensOk + tally.tokensFailed

theorem accounted_add (tally : CycleTally) (entry : TokenConfig × TokenOutcome) :
    accounted (tally.add entry) = accounted tally + 1 := by
  obtain ⟨token, outcome⟩ := entry
  cases outcome <;> simp [CycleTally.add, accounted] <;> omega

theorem accounted_foldl (outcomes : List (TokenConfig × TokenOutcome)) (tally : CycleTally) :
    accounted (outcomes.foldl CycleTally.add tally) = accounted tally + outcomes.length := by
  induction outcomes generalizing tally with
  | nil => rfl
  | cons entry outcomes ih =>
      rw [List.foldl_cons, ih, accounted_add, List.length_cons]
      omega

variable {num : Numerics F} {crates : Crates} {settings : Settings} {signPrice : SignPrice}
  {tr : PriceTrace F}

theorem fetchTokens_tokens {ledgerSeq : Nat} {batches : Batches} {tokens : List TokenConfig}
    {results : List (TokenConfig × Except String CachedPrice)}
    (h : Runs (fetchTokens num settings signPrice ledgerSeq batches tokens) tr results) :
    results.map Prod.fst = tokens := by
  induction tokens generalizing tr results with
  | nil =>
      obtain ⟨-, rfl⟩ := runs_done.mp h
      rfl
  | cons token tokens ih =>
      obtain ⟨first, result, tail, -, -, h⟩ := runs_bind.mp h
      obtain ⟨second, rest, last, -, hrest, h⟩ := runs_bind.mp h
      obtain ⟨-, rfl⟩ := runs_done.mp h
      simp [ih hrest]

theorem settleTokens_tokens {ledgerSeq : Nat}
    {results : List (TokenConfig × Except String CachedPrice)}
    {outcomes : List (TokenConfig × TokenOutcome)}
    (h : Runs (settleTokens (F := F) crates settings ledgerSeq results) tr outcomes) :
    outcomes.map Prod.fst = results.map Prod.fst := by
  induction results generalizing tr outcomes with
  | nil =>
      obtain ⟨-, rfl⟩ := runs_done.mp h
      rfl
  | cons result results ih =>
      obtain ⟨first, outcome, tail, -, -, h⟩ := runs_bind.mp h
      obtain ⟨second, rest, last, -, hrest, h⟩ := runs_bind.mp h
      obtain ⟨-, rfl⟩ := runs_done.mp h
      simp [ih hrest]

/-- A cycle that has the ledger finds one outcome for each configured token. -/
theorem completeCycle_length {now ledgerSeq stale : Nat}
    {pyth : Except (PythPriceError F) (KeyMap PythPriceFeed)}
    {outcomes : List (TokenConfig × TokenOutcome)}
    (h : Runs (completeCycle num crates settings signPrice now ledgerSeq pyth) tr (outcomes, stale)) :
    outcomes.length = settings.tokens.length := by
  obtain ⟨batch, binancePrices, afterBatch, -, -, h⟩ := runs_bind.mp h
  obtain ⟨cached, afterRead, -, h⟩ := runs_request_bind.mp h
  obtain ⟨fetching, results, afterFetch, -, hfetched, h⟩ := runs_bind.mp h
  obtain ⟨settling, found, afterSettle, -, hsettled, h⟩ := runs_bind.mp h
  obtain ⟨publishing, published, afterPublish, -, -, h⟩ := runs_bind.mp h
  obtain ⟨-, heq⟩ := runs_done.mp h
  obtain ⟨rfl, -⟩ := Prod.mk.inj heq
  have htokens : outcomes.map Prod.fst = settings.tokens :=
    (settleTokens_tokens hsettled).trans (fetchTokens_tokens hfetched)
  rw [← htokens, List.length_map]

end Tallies

section Ledger

/-- Some attempt at the ledger sequence was answered with one. -/
def LedgerAnswered (tr : PriceTrace F) : Prop :=
  ∃ seq, (⟨.latestLedger, .ok seq⟩ : Event PriceRequest (PriceRequest.Answer F)) ∈ tr

def BesideLedger (q : PriceRequest) : Prop := q ≠ .latestLedger

variable {num : Numerics F} {crates : Crates} {settings : Settings} {signPrice : SignPrice}
  {tr : PriceTrace F}

theorem not_ledgerAnswered_of_asks {α : Type} {p : PriceProgram F α} {a : α} (h : Runs p tr a)
    (hp : p.Asks BesideLedger) : ¬LedgerAnswered tr := by
  rintro ⟨seq, hmem⟩
  exact h.asks hp _ hmem rfl

theorem latestLedgerSequence_answered {seq : Nat}
    (h : Runs (latestLedgerSequence (F := F)) tr (.ok seq)) : LedgerAnswered tr := by
  obtain ⟨earlier, last, rfl, hlast⟩ := Retry.retryFrom_last h
  obtain ⟨r, rest, rfl, hdone⟩ := runs_ask.mp hlast
  obtain ⟨rfl, rfl⟩ := runs_done.mp hdone
  exact ⟨seq, by simp⟩

theorem latestLedgerSequence_unanswered {e : RpcError}
    (h : Runs (latestLedgerSequence (F := F)) tr (.error e)) : ¬LedgerAnswered tr := by
  have hfailed : ∀ ev ∈ tr, ∃ e : RpcError,
      ev = (⟨.latestLedger, .error e⟩ : Event PriceRequest (PriceRequest.Answer F)) := by
    refine Retry.retryFrom_failed (fun attempt e hattempt ev hev => ?_) h
    obtain ⟨r, rest, rfl, hdone⟩ := runs_ask.mp hattempt
    obtain ⟨rfl, rfl⟩ := runs_done.mp hdone
    exact ⟨e, List.mem_singleton.mp hev⟩
  rintro ⟨seq, hmem⟩
  obtain ⟨e, he⟩ := hfailed _ hmem
  cases he

theorem fetchPythPrices_besideLedger (feedIds : List String) :
    (fetchPythPrices feedIds : PriceProgram F _).Asks BesideLedger := by
  rw [fetchPythPrices]
  split
  · trivial
  · exact ⟨by simp [BesideLedger], fun _ => trivial⟩

/-- Without the ledger the cycle reports one failure, with it one for each token. -/
theorem executePriceCycle_accounted {tally : CycleTally}
    (h : Runs (executePriceCycle num crates settings signPrice) tr tally) :
    LedgerAnswered tr ∧ accounted tally = settings.tokens.length ∨
      ¬LedgerAnswered tr ∧ accounted tally = 1 := by
  obtain ⟨cycle, result, rest, rfl, hcycle, hdone⟩ := runs_bind.mp h
  obtain ⟨rfl, rfl⟩ := runs_done.mp hdone
  rw [List.append_nil]
  clear h hdone
  obtain ⟨now, afterClock, rfl, h⟩ := runs_request_bind.mp hcycle
  obtain ⟨attempts, ledger, afterLedger, rfl, hledger, h⟩ := runs_bind.mp h
  obtain ⟨feeds, pyth, afterPyth, rfl, hpyth, h⟩ := runs_bind.mp h
  cases ledger with
  | ok seq =>
      obtain ⟨completing, completed, last, -, hcompleted, h⟩ := runs_bind.mp h
      obtain ⟨-, rfl⟩ := runs_done.mp h
      obtain ⟨outcomes, stale⟩ := completed
      refine .inl ⟨?_, ?_⟩
      · obtain ⟨answered, hmem⟩ := latestLedgerSequence_answered hledger
        exact ⟨answered, by simp [hmem]⟩
      · rw [tallyOf, accounted_foldl, completeCycle_length hcompleted]
        simp [accounted]
  | error e =>
      obtain ⟨recording, recorded, last, rfl, hrecorded, h⟩ := runs_bind.mp h
      obtain ⟨rfl, rfl⟩ := runs_done.mp h
      refine .inr ⟨?_, rfl⟩
      have hattempts := latestLedgerSequence_unanswered hledger
      have hfeeds := not_ledgerAnswered_of_asks hpyth (fetchPythPrices_besideLedger _)
      have hrecording := not_ledgerAnswered_of_asks hrecorded
        ⟨by simp [BesideLedger], fun _ => trivial⟩
      rintro ⟨seq, hmem⟩
      simp only [List.mem_cons, List.mem_append, List.append_nil] at hmem
      rcases hmem with hclock | hmem | hmem | hmem
      · cases hclock
      · exact hattempts ⟨seq, hmem⟩
      · exact hfeeds ⟨seq, hmem⟩
      · exact hrecording ⟨seq, hmem⟩

end Ledger

variable {num : Numerics F} {crates : Crates} {settings : Settings} {signPrice : SignPrice}

theorem runPriceCycle_addsUp_iff {tr : PriceTrace F} {tally : Option CycleTally}
    {latencyMs now : Nat} {before after : Counters F}
    (hrun : PriceCycleRun num crates settings signPrice tr tally)
    (hfinish : finishCycle settings latencyMs now tally before = .ok after) :
    AddsUp settings before after ↔
      (tally ≠ none → LedgerAnswered tr ∨ settings.tokens.length = 1) := by
  obtain ⟨hok, hfailures⟩ := recordPriceCycle_ok hfinish
  have hadds : AddsUp settings before after ↔
      accounted (reportedTally settings tally) = settings.tokens.length := by
    rw [AddsUp, accounted]
    omega
  rw [hadds]
  cases hrun with
  | timedOut =>
      simp [reportedTally, accounted]
  | completed h =>
      rcases executePriceCycle_accounted h with ⟨hledger, hcount⟩ | ⟨hledger, hcount⟩
      · simp [reportedTally, hledger, hcount]
      · simp [reportedTally, hledger, hcount, eq_comm]

section Samples

theorem finishCycle_default (settings : Settings) (latencyMs now : Nat) {tally : CycleTally}
    (h : accounted tally ≤ u64Max) :
    finishCycle settings latencyMs now (some tally) (.default : Counters F) =
      .ok (Counters.default.recordPriceCycle latencyMs tally.tokensOk tally.tokensFailed now) := by
  rw [accounted] at h
  have hok : tally.tokensOk ≤ u64Max := by omega
  have hfailures : tally.tokensFailed ≤ u64Max := by omega
  apply if_pos
  simp only [Counters.fits, Counters.recordPriceCycle, Counters.stamp, Counters.default, zero_add,
    reportedTally, u64Max, Nat.reducePow, Nat.add_one_sub_one, List.all_cons, Nat.one_le_ofNat,
    decide_true, zero_le, List.all_nil, Bool.and_self, Bool.and_true, Bool.true_and, Bool.and_eq_true]
  exact ⟨⟨⟨⟨decide_eq_true hok, decide_eq_true hfailures⟩, rfl⟩, rfl⟩, rfl⟩

def refused : RpcError := .networkError "connection refused"

/-- Every attempt at the ledger fails. -/
def outageTrace (settings : Settings) : PriceTrace (Option ℚ) :=
  [⟨.unixTime, 1010⟩, ⟨.latestLedger, .error refused⟩, ⟨.latestLedger, .error refused⟩,
    ⟨.latestLedger, .error refused⟩,
    ⟨.state (.recordError
      ⟨"get_latest_ledger", settings.network, "", "", none, refused.display, 0⟩), ()⟩]

theorem outage_runs {settings : Settings} (h : pythFeedIds settings = []) :
    PriceCycleRun exactNumerics nodeCrates settings unsigned
      (outageTrace settings) (some ⟨0, 1, 0⟩) := by
  have hledger : Runs (latestLedgerSequence (F := Option ℚ))
      [⟨.latestLedger, .error refused⟩, ⟨.latestLedger, .error refused⟩,
        ⟨.latestLedger, .error refused⟩] (.error refused) :=
    .ask _ _ (.ask _ _ (.ask _ _ (.done _)))
  have hpyth : Runs (fetchPythPrices (F := Option ℚ) (pythFeedIds settings)) [] (.ok ∅) := by
    rw [fetchPythPrices, if_pos h]
    exact .done _
  refine .completed (runs_bind.mpr ⟨outageTrace settings, .error refused, [], rfl, ?_, .done _⟩)
  exact runs_request_bind.mpr ⟨1010, _, rfl, runs_bind.mpr ⟨_, _, _, rfl, hledger,
    runs_bind.mpr ⟨_, _, _, rfl, hpyth, runs_bind.mpr ⟨_, _, _, rfl, .ask _ _ (.done _), .done _⟩⟩⟩⟩

end Samples

/-- A cycle that finds both tokens, and one with two tokens but no ledger. -/
theorem runPriceCycle_addsUp_iff_pairedTokens :
    (∃ tr tally after, PriceCycleRun exactNumerics nodeCrates pairedSettings unsigned tr (some tally) ∧
      finishCycle pairedSettings 12 1012 (some tally) (.default : Counters (Option ℚ)) = .ok after ∧
      AddsUp pairedSettings .default after) ∧
    ∃ after, finishCycle mixedSettings 12 1012 (some ⟨0, 1, 0⟩) (.default : Counters (Option ℚ)) = .ok after ∧
      ¬AddsUp mixedSettings .default after := by
  constructor
  · have hfound : ((pairedInput (some (feedOf "100")) "100").outcomes exactNumerics nodeCrates
        pairedSettings unsigned).isSome = true := by decide +kernel
    obtain ⟨outcomes, houtcomes⟩ := Option.isSome_iff_exists.mp hfound
    obtain ⟨rest, stale, hcycle⟩ := runs_of_outcomes 1010 houtcomes
    have hruns : Runs (executePriceCycle exactNumerics nodeCrates pairedSettings unsigned)
        ((pairedInput (some (feedOf "100")) "100").opening pairedSettings 1010 ++ rest ++ [])
        (tallyOf (.ok (outcomes, stale))) :=
      runs_bind.mpr ⟨_, _, [], rfl, hcycle, .done _⟩
    have hcount : accounted (tallyOf (.ok (outcomes, stale))) ≤ 2 := by
      rcases executePriceCycle_accounted hruns with ⟨-, h⟩ | ⟨-, h⟩
      · exact h.le
      · omega
    have hfinish := @finishCycle_default (Option ℚ) pairedSettings 12 1012 _ (hcount.trans (by decide))
    refine ⟨_, _, _, .completed hruns, hfinish, ?_⟩
    exact (runPriceCycle_addsUp_iff (.completed hruns) hfinish).mpr
      fun _ => .inl ⟨7, by simp [CycleInput.opening, pairedInput]⟩
  · have hone : accounted ⟨0, 1, 0⟩ ≤ u64Max := by decide
    have hfinish := @finishCycle_default (Option ℚ) mixedSettings 12 1012 _ hone
    refine ⟨_, hfinish, fun h => ?_⟩
    have hcondition := (runPriceCycle_addsUp_iff (outage_runs (by decide +kernel)) hfinish).mp h
    rcases hcondition (by simp) with ⟨seq, hmem⟩ | hone
    · simp [outageTrace] at hmem
    · exact absurd hone (by decide)

/-- Two tokens are configured, the ledger is out of reach, and one failure is counted. -/
theorem runPriceCycle_outage_undercounts :
    PriceCycleRun exactNumerics nodeCrates mixedSettings unsigned (outageTrace mixedSettings)
        (some ⟨0, 1, 0⟩) ∧
      ∃ after : Counters (Option ℚ),
        finishCycle mixedSettings 12 1012 (some ⟨0, 1, 0⟩) .default = .ok after ∧
        after.tokenFetchOk = 0 ∧ after.tokenFetchFailures = 1 ∧ mixedSettings.tokens.length = 2 ∧
        ¬AddsUp mixedSettings .default after := by
  have hone : accounted ⟨0, 1, 0⟩ ≤ u64Max := by decide
  refine ⟨outage_runs (by decide +kernel), _, finishCycle_default mixedSettings 12 1012 hone, rfl, rfl,
    rfl, ?_⟩
  simp [AddsUp, Counters.recordPriceCycle, Counters.stamp, Counters.default, mixedSettings, mixedTokens]

end So4Oracle.TokenTally
