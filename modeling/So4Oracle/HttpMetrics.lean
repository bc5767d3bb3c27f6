import Mathlib.Data.Fintype.Basic
import Mathlib.Tactic.FinCases
import So4Oracle.MetricsState

namespace So4Oracle.HttpMetrics

open Library.Checked Library.Floats Library.Tallies State MetricsState

variable {F : Type} {ops : FloatOps F} {rnd : ℚ → ℚ} {recordings : List Recording}

section Requests

/-- The route and the latency of a recorded request. -/
def request? : Recording → Option (String × Nat)
  | .httpRequest route _ _ latencyMs => some (route, latencyMs)
  | _ => none

def labels? : Recording → Option HttpRouteLabels
  | .httpRequest route method status _ => some ⟨route, method, Counters.statusClass status⟩
  | _ => none

def authFailure? : Recording → Option String
  | .httpAuthFailure route => some route
  | _ => none

/-- How many requests of a route kept a bound. -/
def requestsWithin (recordings : List Recording) (route : String) (bound : Option Nat) : Nat :=
  recordings.countP fun recording =>
    (request? recording).any fun request => decide (request.1 = route) && keeps request.2 bound

end Requests

section Steps

/-- Only a recorded request writes to the histogram. -/
theorem record_bucketsOf (ops : FloatOps F) (m : Metrics F) (recording : Recording) (route : String) :
    (m.recorded ops recording).counters.bucketsOf route =
      match request? recording with
      | some (r, latencyMs) =>
          if r = route then Counters.countLatency ops (m.counters.bucketsOf route) latencyMs
          else m.counters.bucketsOf route
      | none => m.counters.bucketsOf route := by
  cases recording with
  | httpRequest r method status latencyMs =>
      by_cases h : r = route
      · subst h
        simp [request?, Metrics.recorded, Metrics.onCounters, Counters.recordHttpRequest,
          Counters.bucketsOf]
      · simp [request?, Metrics.recorded, Metrics.onCounters, Counters.recordHttpRequest,
          Counters.bucketsOf, h, Std.TreeMap.getD_insert]
  | _ => rfl

theorem counts_httpRequestsTotal (ops : FloatOps F) :
    Counts (Metrics.recorded ops) (fun m => m.counters.httpRequestsTotal) labels? := by
  intro m recording
  cases recording <;> rfl

theorem counts_httpAuthFailuresTotal (ops : FloatOps F) :
    Counts (Metrics.recorded ops) (fun m => m.counters.httpAuthFailuresTotal) authFailure? := by
  intro m recording
  cases recording <;> rfl

/-- The bounds as fractions are the bounds in milliseconds. -/
theorem within_bounds (law : Rounding rnd) (latencyMs : Nat) (i : Fin 7) :
    Counters.within (rationalOps rnd) latencyMs httpDurationBounds[i] = keeps latencyMs boundMs[i] := by
  have hratio : ∀ n d : Int, |n| ≤ 1000 → |d| ≤ 1000 → d ≠ 0 →
      (rationalOps rnd).div ((rationalOps rnd).ofInt n) ((rationalOps rnd).ofInt d) =
        some (rnd (n / d)) := by
    intro n d hn hd hne
    rw [rationalOps_ofInt, rationalOps_ofInt, law.small n (hn.trans (by norm_num)),
      law.small d (hd.trans (by norm_num)), rationalOps_div (Int.cast_ne_zero.mpr hne)]
  have hslot : ∀ (n : Int) (b : Nat), |n| ≤ 1000 → b ≤ 1000 → (n : ℚ) / 100 = (b : ℚ) / 1000 →
      Counters.within (rationalOps rnd) latencyMs (some (n, 100)) = decide (latencyMs ≤ b) := by
    intro n b hn hb heq
    rw [Counters.within, hratio n 100 hn (by norm_num) (by norm_num)]
    norm_cast at heq ⊢
    rw [heq]
    exact le_latencySec law hb latencyMs
  fin_cases i
  · exact hslot 1 10 (by norm_num) (by norm_num) (by norm_num)
  · exact hslot 5 50 (by norm_num) (by norm_num) (by norm_num)
  · exact hslot 10 100 (by norm_num) (by norm_num) (by norm_num)
  · exact hslot 25 250 (by norm_num) (by norm_num) (by norm_num)
  · exact hslot 50 500 (by norm_num) (by norm_num) (by norm_num)
  · exact hslot 100 1000 (by norm_num) (by norm_num) (by norm_num)
  · rfl

theorem getElem_countLatency (law : Rounding rnd) (buckets : Vector Nat 7) (latencyMs : Nat)
    (i : Fin 7) :
    (Counters.countLatency (rationalOps rnd) buckets latencyMs)[i] =
      buckets[i] + if keeps latencyMs boundMs[i] then 1 else 0 := by
  have hwithin := within_bounds law latencyMs i
  rw [Fin.getElem_fin] at hwithin
  rw [Counters.countLatency, Fin.getElem_fin, Vector.getElem_zipWith, hwithin]
  simp only [Fin.getElem_fin]
  split
  · rfl
  · rfl

end Steps

/-- Every slot of a route's histogram counts the requests of the route whose
latency kept the bound of the slot. -/
theorem bucketsOf_total (law : Rounding rnd) (recordings : List Recording) (route : String)
    (i : Fin 7) :
    ((Metrics.total (rationalOps rnd) recordings).counters.bucketsOf route)[i] =
      requestsWithin recordings route boundMs[i] := by
  induction recordings using List.reverseRecOn with
  | nil => simp [Metrics.total, Metrics.new, Counters.default, Counters.bucketsOf, requestsWithin]
  | append_singleton recordings recording ih =>
      rw [Metrics.total, List.foldl_concat, ← Metrics.total, record_bucketsOf, requestsWithin,
        List.countP_append, List.countP_singleton, ← requestsWithin]
      cases hrequest : request? recording with
      | none =>
          dsimp only
          rw [ih]
          rfl
      | some request =>
          obtain ⟨r, latencyMs⟩ := request
          dsimp only
          by_cases hroute : r = route
          · rw [if_pos hroute, getElem_countLatency law, ih]
            simp [hroute]
          · rw [if_neg hroute, ih]
            simp [hroute]

section Order

theorem boundMs_le : ∀ i j : Fin 7, i ≤ j →
    (boundMs[j].all fun b => boundMs[i].any fun a => decide (a ≤ b)) = true := by
  decide

theorem keeps_mono {i j : Fin 7} (h : i ≤ j) {latencyMs : Nat}
    (hkeeps : keeps latencyMs boundMs[i] = true) : keeps latencyMs boundMs[j] = true := by
  have hle := boundMs_le i j h
  cases hj : boundMs[j] with
  | none => rfl
  | some b =>
      rw [hj, Option.all_some, Option.any_eq_true] at hle
      obtain ⟨a, hi, hab⟩ := hle
      rw [hi] at hkeeps
      simp only [keeps, Option.all_some, decide_eq_true_eq] at hkeeps hab ⊢
      exact hkeeps.trans hab

theorem requestsWithin_mono {i j : Fin 7} (h : i ≤ j) (recordings : List Recording) (route : String) :
    requestsWithin recordings route boundMs[i] ≤ requestsWithin recordings route boundMs[j] := by
  apply List.countP_mono_left
  intro recording _ hi
  rw [Option.any_eq_true] at hi ⊢
  obtain ⟨request, hrequest, hroute⟩ := hi
  rw [Bool.and_eq_true] at hroute
  exact ⟨request, hrequest, Bool.and_eq_true_iff.mpr ⟨hroute.1, keeps_mono h hroute.2⟩⟩

end Order

/-- What the counters of the requests say after any recording calls that return: the
histogram of a route is exact in every slot and cumulative, and each total is
the number of requests with its labels. -/
theorem httpMetrics_after (law : Rounding rnd) {recordings : List Recording} {m : Metrics (Option ℚ)}
    (h : Metrics.after (rationalOps rnd) recordings = .ok m) (route : String) :
    (∀ i : Fin 7, (m.counters.bucketsOf route)[i] = requestsWithin recordings route boundMs[i]) ∧
      (∀ i j : Fin 7, i ≤ j → (m.counters.bucketsOf route)[i] ≤ (m.counters.bucketsOf route)[j]) ∧
      (∀ labels, m.counters.httpRequestsTotal.count labels =
        recordings.countP fun recording => decide (labels? recording = some labels)) ∧
      m.counters.httpAuthFailuresTotal.count route =
        recordings.countP fun recording => decide (authFailure? recording = some route) := by
  obtain rfl := Metrics.after_eq_ok h
  refine ⟨bucketsOf_total law recordings route, fun i j hij => ?_, fun labels => ?_, ?_⟩
  · rw [bucketsOf_total law, bucketsOf_total law]
    exact requestsWithin_mono hij recordings route
  · have htotal := (counts_httpRequestsTotal (rationalOps rnd)).foldl Metrics.new recordings labels
    rw [← Metrics.total] at htotal
    rw [htotal]
    exact Nat.zero_add _
  · have htotal := (counts_httpAuthFailuresTotal (rationalOps rnd)).foldl Metrics.new recordings route
    rw [← Metrics.total] at htotal
    rw [htotal]
    exact Nat.zero_add _

def sampleRecordings : List Recording :=
  [.httpRequest "/prices" "GET" 200 10, .incHttpInFlight, .httpRequest "/prices" "GET" 200 11,
    .httpRequest "/metrics" "GET" 401 1001, .httpAuthFailure "/metrics"]

theorem httpMetrics_after_sample :
    ∃ m, Metrics.after exactOps sampleRecordings = .ok m ∧
      m.counters.bucketsOf "/prices" = #v[1, 2, 2, 2, 2, 2, 2] ∧
      ∀ i : Fin 7, (m.counters.bucketsOf "/prices")[i] =
        requestsWithin sampleRecordings "/prices" boundMs[i] := by
  have hreturns : ((Metrics.after exactOps sampleRecordings).toOption.any
      fun m => m.counters.bucketsOf "/prices" = #v[1, 2, 2, 2, 2, 2, 2]) = true := by decide +kernel
  obtain ⟨m, hm, hbuckets⟩ := Option.any_eq_true _ _ |>.mp hreturns
  have hafter := eq_ok_of_toOption hm
  exact ⟨m, hafter, of_decide_eq_true hbuckets, (httpMetrics_after rounding_id hafter "/prices").1⟩

end So4Oracle.HttpMetrics
