import So4Oracle.Library.Exposition
import So4Oracle.MetricsState
import So4Oracle.RustText

namespace So4Oracle.MetricsText

open Library.Floats Library.Tallies Library.Exposition State MetricsState

section Text

/-- `str::replace` of one character. -/
def replaceChar (value : List Char) (c : Char) (text : List Char) : List Char :=
  value.flatMap fun d => if d = c then text else [d]

def escapeLabelValue (value : String) : String :=
  let slashes := replaceChar value.toList '\\' ['\\', '\\']
  let feeds := replaceChar slashes '\n' ['\\', 'n']
  String.ofList (replaceChar feeds '"' ['\\', '"'])

def header (name help kind : String) : String :=
  "# HELP " ++ name ++ " " ++ help ++ "\n" ++ "# TYPE " ++ name ++ " " ++ kind ++ "\n"

def plain (name value : String) : String := name ++ " " ++ value ++ "\n"

/-- A metric of one value. -/
def metric (name help kind value : String) : String := header name help kind ++ plain name value

def pair (label : String × String) : String := label.1 ++ "=\"" ++ label.2 ++ "\""

def pairs : List (String × String) → String
  | [] => ""
  | [label] => pair label
  | label :: labels => pair label ++ "," ++ pairs labels

/-- The values of the labels as they stand between the quotes. -/
def labelled (name : String) (labels : List (String × String)) (value : String) : String :=
  name ++ "\x7b" ++ pairs labels ++ "\x7d " ++ value ++ "\n"

end Text

section Prometheus

variable {F : Type} (ops : FloatOps F) (display : F → String)

def seconds (latencyMs : Nat) : String := display (Counters.latencySec ops latencyMs)

def tokenSourceLines (name : String) (tally : Tally TokenSourceLabels) : String :=
  String.join (tally.toList.map fun (labels, count) =>
    labelled name [("symbol", escapeLabelValue labels.symbol),
      ("token", escapeLabelValue labels.token), ("source", escapeLabelValue labels.source)]
      (toString count))

def requestLines (c : Counters F) : String :=
  String.join (c.httpRequestsTotal.toList.map fun (labels, count) =>
    labelled "oracle_http_requests_total" [("route", escapeLabelValue labels.route),
      ("method", escapeLabelValue labels.method),
      ("status_class", escapeLabelValue labels.statusClass)] (toString count))

def bucketLines (c : Counters F) : String :=
  String.join (c.httpRequestDurationBuckets.toList.map fun (route, buckets) =>
    String.join ((httpDurationBuckets.toList.zip buckets.toList).map fun (bound, count) =>
      labelled "oracle_http_request_duration_seconds_bucket"
        [("route", escapeLabelValue route), ("le", bound)] (toString count)))

def sumLines (c : Counters F) : String :=
  String.join (c.httpRequestDurationSum.toList.map fun (route, sum) =>
    labelled "oracle_http_request_duration_seconds_sum" [("route", escapeLabelValue route)]
      (display sum))

def countLines (c : Counters F) : String :=
  String.join (c.httpRequestDurationBuckets.toList.map fun (route, buckets) =>
    labelled "oracle_http_request_duration_seconds_count" [("route", escapeLabelValue route)]
      (toString buckets[6]))

def authFailureLines (c : Counters F) : String :=
  String.join (c.httpAuthFailuresTotal.toList.map fun (route, count) =>
    labelled "oracle_http_auth_failures_total" [("route", escapeLabelValue route)] (toString count))

def cycleText (c : Counters F) : String :=
  metric "oracle_price_cycles_total" "Total number of price cycles" "counter"
    (toString c.priceCycleCount) ++
  metric "oracle_price_cycle_duration_seconds" "Last price cycle duration in seconds" "gauge"
    (seconds ops display c.priceCycleLatencyMs) ++
  metric "oracle_keeper_cycles_total" "Total number of keeper cycles" "counter"
    (toString c.keeperCycleCount) ++
  metric "oracle_keeper_cycle_duration_seconds" "Last keeper cycle duration in seconds" "gauge"
    (seconds ops display c.keeperCycleLatencyMs) ++
  metric "oracle_orders_executed_total" "Total number of orders executed" "counter"
    (toString c.ordersExecuted) ++
  metric "oracle_deposits_executed_total" "Total number of deposits executed" "counter"
    (toString c.depositsExecuted) ++
  metric "oracle_withdrawals_executed_total" "Total number of withdrawals executed" "counter"
    (toString c.withdrawalsExecuted) ++
  metric "oracle_token_fetch_ok_total"
    "Total individual token fetch successes across all price cycles" "counter"
    (toString c.tokenFetchOk) ++
  metric "oracle_token_fetch_failures_total"
    "Total individual token fetch failures across all price cycles" "counter"
    (toString c.tokenFetchFailures)

def sourceText (m : Metrics F) : String :=
  header "oracle_token_source_fetch_failures_total"
    "Total source fetch failures by configured token and source" "counter" ++
  tokenSourceLines "oracle_token_source_fetch_failures_total" m.tokenSourceFetchFailures ++
  header "oracle_token_source_outlier_rejections_total"
    ("Total times a source's price was excluded by the outlier filter, including cycles that " ++
      "otherwise succeeded") "counter" ++
  tokenSourceLines "oracle_token_source_outlier_rejections_total" m.tokenSourceOutlierRejections

def statusText (c : Counters F) : String :=
  metric "oracle_submit_failures_total" "Total number of submit failures" "counter"
    (toString c.submitFailures) ++
  metric "oracle_last_cycle_metrics_update" "Timestamp of last price/keeper cycle metrics update"
    "gauge" (toString c.lastMetricsUpdate) ++
  metric "oracle_keeper_balance_low_count"
    "Total number of cycles with keeper balance below minimum" "counter"
    (toString c.keeperBalanceLowCount) ++
  metric "oracle_prices_stale_count" "Total number of cycles with stale prices" "counter"
    (toString c.pricesStaleCount)

def httpText (c : Counters F) : String :=
  header "oracle_http_requests_total" "Total HTTP requests by route, method and status class"
    "counter" ++
  requestLines c ++
  header "oracle_http_request_duration_seconds" "HTTP request duration by route" "histogram" ++
  bucketLines c ++
  sumLines display c ++
  countLines c ++
  metric "oracle_http_requests_in_flight" "HTTP requests currently in flight" "gauge"
    (toString c.httpRequestsInFlight) ++
  header "oracle_http_auth_failures_total" "Total number of unauthorized admin access attempts"
    "counter" ++
  authFailureLines c

def toPrometheus (m : Metrics F) : String :=
  cycleText ops display m.counters ++ sourceText m ++ statusText m.counters ++
    httpText display m.counters

end Prometheus

section Page

/-- What the handler reads beside the metrics, each under a lock of its own. -/
structure Gauges where
  belowMin : Bool
  prices : PriceMap
  lastUpdated : Option Nat
  now : Nat
  pendingOrders : Nat
  pendingDeposits : Nat
  pendingWithdrawals : Nat
  inFlight : Nat
  blacklisted : Nat

/-- The key of the cache is written as it is. -/
def ageLine (now : Nat) (symbol : String) (price : CachedPrice) : String :=
  labelled "oracle_price_age_seconds" [("symbol", symbol)] (toString (now - price.timestamp))

def ageLines (g : Gauges) : String :=
  String.join (g.prices.toList.map fun (symbol, price) => ageLine g.now symbol price)

def pendingLine (kind : String) (count : Nat) : String :=
  labelled "oracle_pending_keys" [("kind", kind)] (toString count)

def flagText (g : Gauges) : String :=
  metric "oracle_keeper_balance_below_min" "1 if keeper XLM balance is below minimum threshold"
    "gauge" (if g.belowMin then "1" else "0") ++
  header "oracle_price_age_seconds" "Seconds since each token's price was last cached" "gauge"

def countText (g : Gauges) : String :=
  metric "oracle_last_set_prices_timestamp_seconds"
    "Unix timestamp of the last successful set_prices submission" "gauge"
    (toString ((g.lastUpdated.map secondsOf).getD 0)) ++
  header "oracle_pending_keys" "Number of pending keys by kind" "gauge" ++
  pendingLine "orders" g.pendingOrders ++
  pendingLine "deposits" g.pendingDeposits ++
  pendingLine "withdrawals" g.pendingWithdrawals ++
  metric "oracle_in_flight_keys" "Keys currently being submitted on-chain" "gauge"
    (toString g.inFlight) ++
  metric "oracle_blacklisted_keys" "Keys permanently abandoned after repeated failures" "gauge"
    (toString g.blacklisted)

def gaugeText (g : Gauges) : String := flagText g ++ ageLines g ++ countText g

def metrics {F : Type} (ops : FloatOps F) (display : F → String) (m : Metrics F) (g : Gauges) :
    String :=
  toPrometheus ops display m ++ gaugeText g

end Page

end So4Oracle.MetricsText
