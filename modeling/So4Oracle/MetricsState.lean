import So4Oracle.Library.Floats
import So4Oracle.Library.Tallies
import So4Oracle.State
import So4Oracle.StellarRpc

namespace So4Oracle.MetricsState

open Library.Checked Library.Floats Library.Tallies State StellarRpc

section Labels

structure HttpRouteLabels where
  route : String
  method : String
  statusClass : String
  deriving DecidableEq, Repr

structure TokenSourceLabels where
  symbol : String
  token : String
  source : String
  deriving DecidableEq, Repr

/-- The derived order of a record of three strings: field by field. -/
def byFields {α : Type} (first second third : α → String) (a b : α) : Ordering :=
  compareLex (compareOn first) (compareLex (compareOn second) (compareOn third)) a b

instance {α : Type} (first second third : α → String) :
    Std.TransCmp (byFields first second third) :=
  inferInstanceAs (Std.TransCmp
    (compareLex (compareOn first) (compareLex (compareOn second) (compareOn third))))

theorem byFields_eq_eq {α : Type} {first second third : α → String} {a b : α}
    (h : byFields first second third a b = .eq) :
    first a = first b ∧ second a = second b ∧ third a = third b := by
  simpa [byFields, compareLex_eq_eq, compareOn] using h

instance : Ord HttpRouteLabels :=
  ⟨byFields HttpRouteLabels.route HttpRouteLabels.method HttpRouteLabels.statusClass⟩

instance : Ord TokenSourceLabels :=
  ⟨byFields TokenSourceLabels.symbol TokenSourceLabels.token TokenSourceLabels.source⟩

instance : Std.TransOrd HttpRouteLabels := inferInstanceAs (Std.TransCmp (byFields _ _ _))

instance : Std.TransOrd TokenSourceLabels := inferInstanceAs (Std.TransCmp (byFields _ _ _))

instance : Std.LawfulEqOrd HttpRouteLabels where
  compare_self := Std.ReflOrd.compare_self
  eq_of_compare {a b} h := by
    obtain ⟨hroute, hmethod, hclass⟩ := byFields_eq_eq h
    cases a
    cases b
    simp_all

instance : Std.LawfulEqOrd TokenSourceLabels where
  compare_self := Std.ReflOrd.compare_self
  eq_of_compare {a b} h := by
    obtain ⟨hsymbol, htoken, hsource⟩ := byFields_eq_eq h
    cases a
    cases b
    simp_all

end Labels

/-- One slot for each upper bound of a latency, in seconds. -/
def httpDurationBuckets : Vector String 7 := #v["0.01", "0.05", "0.1", "0.25", "0.5", "1", "+Inf"]

/-- The bounds that the slots are compared with, as fractions; the last has none. -/
def httpDurationBounds : Vector (Option (Int × Int)) 7 :=
  #v[some (1, 100), some (5, 100), some (10, 100), some (25, 100), some (50, 100), some (100, 100),
    none]

structure Counters (F : Type) where
  priceCycleCount : Nat
  priceCycleLatencyMs : Nat
  tokenFetchOk : Nat
  tokenFetchFailures : Nat
  keeperCycleCount : Nat
  keeperCycleLatencyMs : Nat
  ordersExecuted : Nat
  depositsExecuted : Nat
  withdrawalsExecuted : Nat
  submitFailures : Nat
  keeperBalanceLowCount : Nat
  pricesStaleCount : Nat
  lastMetricsUpdate : Nat
  httpRequestsInFlight : Nat
  httpRequestsTotal : Tally HttpRouteLabels
  httpRequestDurationBuckets : KeyMap (Vector Nat 7)
  httpRequestDurationSum : KeyMap F
  httpAuthFailuresTotal : Tally String

structure Metrics (F : Type) where
  counters : Counters F
  tokenSourceFetchFailures : Tally TokenSourceLabels
  tokenSourceOutlierRejections : Tally TokenSourceLabels

structure KeeperCycleTally where
  orders : Nat
  deposits : Nat
  withdrawals : Nat
  errors : Nat
  keeperBalanceLow : Bool
  pricesStale : Bool
  deriving DecidableEq, Repr

namespace Counters

variable {F : Type}

def default : Counters F where
  priceCycleCount := 0
  priceCycleLatencyMs := 0
  tokenFetchOk := 0
  tokenFetchFailures := 0
  keeperCycleCount := 0
  keeperCycleLatencyMs := 0
  ordersExecuted := 0
  depositsExecuted := 0
  withdrawalsExecuted := 0
  submitFailures := 0
  keeperBalanceLowCount := 0
  pricesStaleCount := 0
  lastMetricsUpdate := 0
  httpRequestsInFlight := 0
  httpRequestsTotal := ∅
  httpRequestDurationBuckets := ∅
  httpRequestDurationSum := ∅
  httpAuthFailuresTotal := ∅

/-- The second in which the counters were last written to. -/
def stamp (c : Counters F) (now : Nat) : Counters F := { c with lastMetricsUpdate := now }

def recordPriceCycle (c : Counters F) (latencyMs tokensOk tokensFailed now : Nat) : Counters F :=
  stamp { c with
    priceCycleCount := c.priceCycleCount + 1
    priceCycleLatencyMs := latencyMs
    tokenFetchOk := c.tokenFetchOk + tokensOk
    tokenFetchFailures := c.tokenFetchFailures + tokensFailed } now

def recordKeeperCycle (c : Counters F) (latencyMs : Nat) (tally : KeeperCycleTally) (now : Nat) :
    Counters F :=
  stamp { c with
    keeperCycleCount := c.keeperCycleCount + 1
    keeperCycleLatencyMs := latencyMs
    ordersExecuted := c.ordersExecuted + tally.orders
    depositsExecuted := c.depositsExecuted + tally.deposits
    withdrawalsExecuted := c.withdrawalsExecuted + tally.withdrawals
    submitFailures := c.submitFailures + tally.errors
    keeperBalanceLowCount := c.keeperBalanceLowCount + tally.keeperBalanceLow.toNat
    pricesStaleCount := c.pricesStaleCount + tally.pricesStale.toNat } now

def recordSubmitFailure (c : Counters F) (now : Nat) : Counters F :=
  stamp { c with submitFailures := c.submitFailures + 1 } now

def incHttpInFlight (c : Counters F) : Counters F :=
  { c with httpRequestsInFlight := c.httpRequestsInFlight + 1 }

/-- Saturates at zero. -/
def decHttpInFlight (c : Counters F) : Counters F :=
  { c with httpRequestsInFlight := c.httpRequestsInFlight - 1 }

def recordHttpAuthFailure (c : Counters F) (route : String) : Counters F :=
  { c with httpAuthFailuresTotal := c.httpAuthFailuresTotal.bump route }

/-- The counters are u64. -/
def fits (c : Counters F) : Bool :=
  ([c.priceCycleCount, c.tokenFetchOk, c.tokenFetchFailures, c.keeperCycleCount, c.ordersExecuted,
      c.depositsExecuted, c.withdrawalsExecuted, c.submitFailures, c.keeperBalanceLowCount,
      c.pricesStaleCount, c.httpRequestsInFlight].all fun n => decide (n ≤ u64Max)) &&
    (c.httpRequestsTotal.all fun _ n => decide (n ≤ u64Max)) &&
    (c.httpRequestDurationBuckets.all fun _ buckets => buckets.all fun n => decide (n ≤ u64Max)) &&
    c.httpAuthFailuresTotal.all fun _ n => decide (n ≤ u64Max)

/-- A call panics that leaves a counter which does not fit. -/
def checked (c : Counters F) : Panicking (Counters F) :=
  if c.fits = true then .ok c else .error .overflow

variable (ops : FloatOps F)

def latencySec (latencyMs : Nat) : F := ops.div (ops.ofInt latencyMs) (ops.ofInt 1000)

/-- Is the latency within the bound of a slot? -/
def within (latencyMs : Nat) : Option (Int × Int) → Bool
  | some (n, d) => ops.le (latencySec ops latencyMs) (ops.div (ops.ofInt n) (ops.ofInt d))
  | none => true

/-- Every slot whose bound the latency keeps counts it. -/
def countLatency (buckets : Vector Nat 7) (latencyMs : Nat) : Vector Nat 7 :=
  Vector.zipWith (fun n bound => if within ops latencyMs bound then n + 1 else n) buckets
    httpDurationBounds

def statusClass (status : Nat) : String := toString (status / 100) ++ "xx"

def bucketsOf (c : Counters F) (route : String) : Vector Nat 7 :=
  c.httpRequestDurationBuckets.getD route (Vector.replicate 7 0)

def sumOf (c : Counters F) (route : String) : F := c.httpRequestDurationSum.getD route (ops.ofInt 0)

def recordHttpRequest (c : Counters F) (route method : String) (status latencyMs : Nat) :
    Counters F :=
  { c with
    httpRequestsTotal := c.httpRequestsTotal.bump ⟨route, method, statusClass status⟩
    httpRequestDurationBuckets :=
      c.httpRequestDurationBuckets.insert route (countLatency ops (c.bucketsOf route) latencyMs)
    httpRequestDurationSum :=
      c.httpRequestDurationSum.insert route (ops.add (c.sumOf ops route) (latencySec ops latencyMs)) }

end Counters

/-- One recording call, with the second it is made in where it leaves a stamp. -/
inductive Recording
  | priceCycle (latencyMs tokensOk tokensFailed now : Nat)
  | keeperCycle (latencyMs : Nat) (tally : KeeperCycleTally) (now : Nat)
  | submitFailure (now : Nat)
  | tokenSourceFetchFailure (labels : TokenSourceLabels) (now : Nat)
  | tokenSourceOutlierRejection (labels : TokenSourceLabels) (now : Nat)
  | incHttpInFlight
  | decHttpInFlight
  | httpRequest (route method : String) (status latencyMs : Nat)
  | httpAuthFailure (route : String)

namespace Metrics

variable {F : Type}

def new : Metrics F := ⟨.default, ∅, ∅⟩

def onCounters (m : Metrics F) (counters : Counters F) : Metrics F := { m with counters := counters }

def recordTokenSourceFetchFailure (m : Metrics F) (labels : TokenSourceLabels) (now : Nat) :
    Metrics F :=
  { m with
    tokenSourceFetchFailures := m.tokenSourceFetchFailures.bump labels
    counters := m.counters.stamp now }

def recordTokenSourceOutlierRejection (m : Metrics F) (labels : TokenSourceLabels) (now : Nat) :
    Metrics F :=
  { m with
    tokenSourceOutlierRejections := m.tokenSourceOutlierRejections.bump labels
    counters := m.counters.stamp now }

def recorded (ops : FloatOps F) (m : Metrics F) : Recording → Metrics F
  | .priceCycle latencyMs tokensOk tokensFailed now =>
      m.onCounters (m.counters.recordPriceCycle latencyMs tokensOk tokensFailed now)
  | .keeperCycle latencyMs tally now => m.onCounters (m.counters.recordKeeperCycle latencyMs tally now)
  | .submitFailure now => m.onCounters (m.counters.recordSubmitFailure now)
  | .tokenSourceFetchFailure labels now => m.recordTokenSourceFetchFailure labels now
  | .tokenSourceOutlierRejection labels now => m.recordTokenSourceOutlierRejection labels now
  | .incHttpInFlight => m.onCounters m.counters.incHttpInFlight
  | .decHttpInFlight => m.onCounters m.counters.decHttpInFlight
  | .httpRequest route method status latencyMs =>
      m.onCounters (m.counters.recordHttpRequest ops route method status latencyMs)
  | .httpAuthFailure route => m.onCounters (m.counters.recordHttpAuthFailure route)

def fits (m : Metrics F) : Bool :=
  m.counters.fits && (m.tokenSourceFetchFailures.all fun _ n => decide (n ≤ u64Max)) &&
    m.tokenSourceOutlierRejections.all fun _ n => decide (n ≤ u64Max)

def record (ops : FloatOps F) (m : Metrics F) (recording : Recording) : Panicking (Metrics F) :=
  if (m.recorded ops recording).fits = true then .ok (m.recorded ops recording) else .error .overflow

/-- The metrics after these calls, in the order their locks are taken. -/
def after (ops : FloatOps F) (recordings : List Recording) : Panicking (Metrics F) :=
  recordings.foldlM (record ops) new

/-- What the calls add up to when none of them panics. -/
def total (ops : FloatOps F) (recordings : List Recording) : Metrics F :=
  recordings.foldl (recorded ops) new

theorem foldlM_record_eq_ok {ops : FloatOps F} {recordings : List Recording} {m m' : Metrics F}
    (h : recordings.foldlM (record ops) m = .ok m') : m' = recordings.foldl (recorded ops) m := by
  induction recordings generalizing m with
  | nil =>
      cases h
      rfl
  | cons recording recordings ih =>
      rw [List.foldlM_cons, bind_eq_ok] at h
      obtain ⟨first, hfirst, hrest⟩ := h
      obtain ⟨rfl, -⟩ := ite_eq_ok.mp hfirst
      exact ih hrest

theorem after_eq_ok {ops : FloatOps F} {recordings : List Recording} {m : Metrics F}
    (h : after ops recordings = .ok m) : m = total ops recordings := foldlM_record_eq_ok h

end Metrics

section Latencies

variable {rnd : ℚ → ℚ}

/-- The bound of a slot in milliseconds. -/
def boundMs : Vector (Option Nat) 7 :=
  #v[some 10, some 50, some 100, some 250, some 500, some 1000, none]

def keeps (latencyMs : Nat) (bound : Option Nat) : Bool := bound.all fun b => decide (latencyMs ≤ b)

theorem rnd_ofNat (law : Rounding rnd) {n : Nat} (h : n ≤ 2 ^ 53) : rnd n = n := by
  have hsmall := law.small n (by rw [abs_of_nonneg (Int.natCast_nonneg n)]; exact_mod_cast h)
  exact_mod_cast hsmall

/-- Quotients that are a thousandth or more apart do not round to the same number. -/
theorem rnd_div_lt (law : Rounding rnd) {b n : Nat} (hb : b ≤ 1000) (h : b < n) :
    rnd (b / 1000) < rnd (n / 1000) := by
  have hnext : ((b : ℚ) + 1) / 1000 ≤ (n : ℚ) / 1000 := by
    apply div_le_div_of_nonneg_right _ (by norm_num)
    exact_mod_cast h
  have hmono := law.mono hnext
  have hlow := law.near ((b : ℚ) / 1000)
  have hhigh := law.near (((b : ℚ) + 1) / 1000)
  have hbound : (b : ℚ) ≤ 1000 := by exact_mod_cast hb
  have hnonneg : (0 : ℚ) ≤ b := Nat.cast_nonneg b
  rw [abs_of_nonneg (by positivity : (0 : ℚ) ≤ (b : ℚ) / 1000), abs_le] at hlow
  rw [abs_of_nonneg (by positivity : (0 : ℚ) ≤ ((b : ℚ) + 1) / 1000), abs_le] at hhigh
  linarith [hlow.2, hhigh.1]

/-- The comparison of the rounded quotients is that of the milliseconds. -/
theorem le_latencySec (law : Rounding rnd) {b : Nat} (hb : b ≤ 1000) (latencyMs : Nat) :
    (rationalOps rnd).le (Counters.latencySec (rationalOps rnd) latencyMs)
        (some (rnd (b / 1000))) = decide (latencyMs ≤ b) := by
  have hthousand : rnd ((1000 : Int) : ℚ) = 1000 := by
    have hsmall := law.small 1000 (by norm_num)
    exact_mod_cast hsmall
  have hlatency : Counters.latencySec (rationalOps rnd) latencyMs =
      some (rnd (rnd latencyMs / 1000)) := by
    rw [Counters.latencySec, rationalOps_ofInt, rationalOps_ofInt, hthousand,
      rationalOps_div (by norm_num)]
    norm_cast
  rw [hlatency]
  apply decide_eq_decide.mpr
  by_cases h : latencyMs ≤ b
  · rw [rnd_ofNat law (h.trans (hb.trans (by norm_num)))]
    refine ⟨fun _ => h, fun _ => law.mono ?_⟩
    exact div_le_div_of_nonneg_right (by exact_mod_cast h) (by norm_num)
  · refine ⟨fun hle => ?_, fun hle => absurd hle h⟩
    have hnext : ((b + 1 : Nat) : ℚ) ≤ rnd latencyMs := by
      rw [← rnd_ofNat law (by omega : b + 1 ≤ 2 ^ 53)]
      exact law.mono (by exact_mod_cast Nat.lt_of_not_le h)
    have hquotient : rnd (((b + 1 : Nat) : ℚ) / 1000) ≤ rnd (rnd latencyMs / 1000) :=
      law.mono (div_le_div_of_nonneg_right hnext (by norm_num))
    have hlt := rnd_div_lt law hb (Nat.lt_succ_self b)
    linarith

end Latencies

end So4Oracle.MetricsState
