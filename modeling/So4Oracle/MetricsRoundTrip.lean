import So4Oracle.MetricsText

namespace So4Oracle.MetricsRoundTrip

open Library.Floats Library.Tallies Library.Exposition State MetricsState MetricsText

section Samples

def sampleOf (name : String) (labels : List (String × String)) (value : String) : Sample where
  name := name.toList
  labels := labels.map fun label => (label.1.toList, label.2.toList)
  value := value.toList

variable {F : Type} (ops : FloatOps F) (display : F → String)

def tokenSourceSamples (name : String) (tally : Tally TokenSourceLabels) : List Sample :=
  tally.toList.map fun (labels, count) =>
    sampleOf name [("symbol", labels.symbol), ("token", labels.token), ("source", labels.source)]
      (toString count)

def requestSamples (c : Counters F) : List Sample :=
  c.httpRequestsTotal.toList.map fun (labels, count) =>
    sampleOf "oracle_http_requests_total" [("route", labels.route), ("method", labels.method),
      ("status_class", labels.statusClass)] (toString count)

def bucketSamples (c : Counters F) : List Sample :=
  c.httpRequestDurationBuckets.toList.flatMap fun (route, buckets) =>
    (httpDurationBuckets.toList.zip buckets.toList).map fun (bound, count) =>
      sampleOf "oracle_http_request_duration_seconds_bucket" [("route", route), ("le", bound)]
        (toString count)

def sumSamples (c : Counters F) : List Sample :=
  c.httpRequestDurationSum.toList.map fun (route, sum) =>
    sampleOf "oracle_http_request_duration_seconds_sum" [("route", route)] (display sum)

def countSamples (c : Counters F) : List Sample :=
  c.httpRequestDurationBuckets.toList.map fun (route, buckets) =>
    sampleOf "oracle_http_request_duration_seconds_count" [("route", route)] (toString (buckets.get 6))

def authFailureSamples (c : Counters F) : List Sample :=
  c.httpAuthFailuresTotal.toList.map fun (route, count) =>
    sampleOf "oracle_http_auth_failures_total" [("route", route)] (toString count)

def cycleSamples (c : Counters F) : List Sample :=
  [sampleOf "oracle_price_cycles_total" [] (toString c.priceCycleCount),
    sampleOf "oracle_price_cycle_duration_seconds" [] (seconds ops display c.priceCycleLatencyMs),
    sampleOf "oracle_keeper_cycles_total" [] (toString c.keeperCycleCount),
    sampleOf "oracle_keeper_cycle_duration_seconds" [] (seconds ops display c.keeperCycleLatencyMs),
    sampleOf "oracle_orders_executed_total" [] (toString c.ordersExecuted),
    sampleOf "oracle_deposits_executed_total" [] (toString c.depositsExecuted),
    sampleOf "oracle_withdrawals_executed_total" [] (toString c.withdrawalsExecuted),
    sampleOf "oracle_token_fetch_ok_total" [] (toString c.tokenFetchOk),
    sampleOf "oracle_token_fetch_failures_total" [] (toString c.tokenFetchFailures)]

def sourceSamples (m : Metrics F) : List Sample :=
  tokenSourceSamples "oracle_token_source_fetch_failures_total" m.tokenSourceFetchFailures ++
  tokenSourceSamples "oracle_token_source_outlier_rejections_total" m.tokenSourceOutlierRejections

def statusSamples (c : Counters F) : List Sample :=
  [sampleOf "oracle_submit_failures_total" [] (toString c.submitFailures),
    sampleOf "oracle_last_cycle_metrics_update" [] (toString c.lastMetricsUpdate),
    sampleOf "oracle_keeper_balance_low_count" [] (toString c.keeperBalanceLowCount),
    sampleOf "oracle_prices_stale_count" [] (toString c.pricesStaleCount)]

def httpSamples (c : Counters F) : List Sample :=
  requestSamples c ++ bucketSamples c ++ sumSamples display c ++ countSamples c ++
  [sampleOf "oracle_http_requests_in_flight" [] (toString c.httpRequestsInFlight)] ++
  authFailureSamples c

/-- What a scrape of the metrics is to tell, in the order of the text. -/
def samples (m : Metrics F) : List Sample :=
  cycleSamples ops display m.counters ++ sourceSamples m ++ statusSamples m.counters ++
    httpSamples display m.counters

end Samples

section Renders

/-- The text consists of whole lines that hold these samples. -/
def Renders (text : String) (samples : List Sample) : Prop :=
  ∃ lines, text.toList = write lines ∧ (∀ line ∈ lines, line.Valid) ∧
    lines.filterMap Line.sample? = samples

variable {text more : String} {ss ss' : List Sample}

theorem Renders.of_eq (h : Renders text ss) (heq : ss = ss') : Renders text ss' := heq ▸ h

theorem Renders.append (h : Renders text ss) (h' : Renders more ss') :
    Renders (text ++ more) (ss ++ ss') := by
  obtain ⟨lines, htext, hvalid, rfl⟩ := h
  obtain ⟨lines', htext', hvalid', rfl⟩ := h'
  refine ⟨lines ++ lines', ?_, fun line hmem => ?_, List.filterMap_append⟩
  · rw [String.toList_append, htext, htext', write_append]
  · rcases List.mem_append.mp hmem with hmem | hmem
    · exact hvalid line hmem
    · exact hvalid' line hmem

theorem Renders.join {α : Type} {l : List α} {f : α → String} {g : α → List Sample}
    (h : ∀ a ∈ l, Renders (f a) (g a)) : Renders (String.join (l.map f)) (l.flatMap g) := by
  induction l with
  | nil => exact ⟨[], by simp [write], by simp, rfl⟩
  | cons a l ih =>
      rw [List.map_cons, String.join_cons, List.flatMap_cons]
      exact (h a List.mem_cons_self).append (ih fun b hb => h b (List.mem_cons_of_mem _ hb))

theorem Renders.join_map {α : Type} {l : List α} {f : α → String} {g : α → Sample}
    (h : ∀ a ∈ l, Renders (f a) [g a]) : Renders (String.join (l.map f)) (l.map g) := by
  rw [← List.flatMap_singleton' (l := l.map g), List.flatMap_map]
  exact Renders.join h

/-- Texts without a line feed. -/
def OneLine (s : String) : Prop := '\n' ∉ s.toList

instance (s : String) : Decidable (OneLine s) := inferInstanceAs (Decidable (¬_))

theorem oneLine_toString (n : Nat) : OneLine (toString n) := by
  intro hmem
  have hdigits : (toString n).toList = Nat.toDigits 10 n := by
    rw [Nat.toString_eq_repr, Nat.repr, String.toList_ofList]
  rw [hdigits] at hmem
  exact absurd (Nat.isDigit_of_mem_toDigits (by decide) (by decide) hmem) (by decide)

/-- A name, and a help and a kind that stay on their lines. -/
def isHeader (name help kind : String) : Bool :=
  isName name.toList && (decide (OneLine help) && decide (OneLine kind))

theorem renders_header {name help kind : String} (h : isHeader name help kind = true) :
    Renders (header name help kind) [] := by
  simp only [isHeader, Bool.and_eq_true, decide_eq_true_eq] at h
  obtain ⟨hname, hhelp, hkind⟩ := h
  have hblank : '\n' ∉ [' '] := by decide
  have hcomment : ∀ {word text : List Char}, '\n' ∉ word → '\n' ∉ text →
      Line.Valid (.comment (' ' :: word ++ (' ' :: name.toList ++ ' ' :: text))) := by
    intro word text hword htext
    have hsplit : ' ' :: word ++ (' ' :: name.toList ++ ' ' :: text) =
        [' '] ++ word ++ [' '] ++ name.toList ++ [' '] ++ text := by
      simp only [List.cons_append, List.append_assoc, List.nil_append]
    rw [hsplit]
    simp only [Line.Valid, List.mem_append, not_or]
    exact ⟨⟨⟨⟨⟨hblank, hword⟩, hblank⟩, not_mem_name hname⟩, hblank⟩, htext⟩
  refine ⟨[.comment (' ' :: ['H', 'E', 'L', 'P'] ++ (' ' :: name.toList ++ ' ' :: help.toList)),
    .comment (' ' :: ['T', 'Y', 'P', 'E'] ++ (' ' :: name.toList ++ ' ' :: kind.toList))], ?_, ?_, rfl⟩
  · have hhash : "# HELP ".toList = ['#', ' ', 'H', 'E', 'L', 'P', ' '] := rfl
    have htype : "# TYPE ".toList = ['#', ' ', 'T', 'Y', 'P', 'E', ' '] := rfl
    have hblank : " ".toList = [' '] := rfl
    have hfeed : "\n".toList = ['\n'] := rfl
    change ("# HELP " ++ name ++ " " ++ help ++ "\n" ++ "# TYPE " ++ name ++ " " ++ kind ++ "\n").toList
      = _
    simp only [String.toList_append, hhash, htype, hblank, hfeed, write, Line.write,
      List.flatMap_cons, List.flatMap_nil, List.cons_append, List.append_assoc, List.nil_append,
      List.append_nil]
  · intro line hmem
    rcases List.mem_cons.mp hmem with rfl | hmem
    · exact hcomment (by decide) hhelp
    · obtain rfl := List.mem_singleton.mp hmem
      exact hcomment (by decide) hkind

theorem renders_sample {s : Sample} (h : s.Valid) (htext : text.toList = writeSample s ++ ['\n']) :
    Renders text [s] := by
  refine ⟨[.sample s], ?_, ?_, rfl⟩
  · rw [htext, write, List.flatMap_singleton]
    rfl
  · intro line hmem
    obtain rfl := List.mem_singleton.mp hmem
    exact h

theorem renders_plain {name value : String} (hname : isName name.toList = true)
    (hvalue : OneLine value) : Renders (plain name value) [sampleOf name [] value] := by
  have hvalid : (sampleOf name [] value).Valid :=
    ⟨hname, fun _ h => absurd h List.not_mem_nil, hvalue⟩
  apply renders_sample hvalid
  have hblank : " ".toList = [' '] := rfl
  have hfeed : "\n".toList = ['\n'] := rfl
  simp only [plain, writeSample, sampleOf, String.toList_append, hblank, hfeed, List.map_nil, if_true,
    List.append_assoc, List.cons_append, List.nil_append]

theorem toList_pairs (labels : List (String × String)) :
    (pairs (labels.map fun label => (label.1, String.ofList (escape label.2.toList)))).toList =
      writeLabels (labels.map fun label => (label.1.toList, label.2.toList)) := by
  induction labels with
  | nil => rfl
  | cons label labels ih =>
      have hpair : ∀ value : List Char,
          (pair (label.1, String.ofList value)).toList = label.1.toList ++ '=' :: '"' :: (value ++ ['"']) := by
        intro value
        have hopen : "=\"".toList = ['=', '"'] := rfl
        have hclose : "\"".toList = ['"'] := rfl
        simp only [pair, String.toList_append, String.toList_ofList, hopen, hclose,
          List.append_assoc, List.cons_append, List.nil_append]
      cases labels with
      | nil => exact hpair _
      | cons other labels =>
          simp only [List.map_cons] at ih ⊢
          rw [pairs, writeLabels, String.toList_append, String.toList_append, hpair, ih]
          · simp [writeLabel]
          · exact List.cons_ne_nil _ _
          · exact List.cons_ne_nil _ _

/-- The three replacements do what one pass over the characters does. -/
theorem escapeLabelValue_eq (value : String) :
    escapeLabelValue value = String.ofList (escape value.toList) := by
  rw [escapeLabelValue]
  apply congrArg String.ofList
  simp only [replaceChar, escape, List.flatMap_assoc]
  apply List.flatMap_congr
  intro c _
  rw [escapeChar]
  split
  next hc => simp
  next hslash =>
    split
    next hfeed => simp [hfeed]
    next hfeed => simp [hfeed]

/-- Labels that are named as such, with any values. -/
theorem renders_labelled (names values : List String) {name value : String}
    (hname : isName name.toList = true) (hne : names.zip values ≠ [])
    (hnames : (names.all fun name => isName name.toList) = true) (hvalue : OneLine value) :
    Renders
      (labelled name ((names.zip values).map fun label => (label.1, escapeLabelValue label.2)) value)
      [sampleOf name (names.zip values) value] := by
  have hvalid : (sampleOf name (names.zip values) value).Valid := by
    refine ⟨hname, fun label hmem => ?_, hvalue⟩
    obtain ⟨label, hlabel, rfl⟩ := List.mem_map.mp hmem
    exact List.all_eq_true.mp hnames label.1 (List.of_mem_zip hlabel).1
  apply renders_sample hvalid
  have hwrite : (sampleOf name (names.zip values) value).labels ≠ [] := by
    rw [sampleOf]
    exact fun h => hne (List.map_eq_nil_iff.mp h)
  rw [writeSample, if_neg hwrite]
  have hopen : "\x7b".toList = ['{'] := rfl
  have hclose : "\x7d ".toList = ['}', ' '] := rfl
  have hfeed : "\n".toList = ['\n'] := rfl
  simp only [escapeLabelValue_eq, labelled, toList_pairs, sampleOf, String.toList_append, hopen,
    hclose, hfeed, List.append_assoc, List.cons_append, List.nil_append]

end Renders

section Text

variable {F : Type} {ops : FloatOps F} {display : F → String} {m : Metrics F}

theorem renders_tokenSourceLines {name : String} (hname : isName name.toList = true)
    (tally : Tally TokenSourceLabels) :
    Renders (tokenSourceLines name tally) (tokenSourceSamples name tally) := by
  apply Renders.join_map
  rintro ⟨labels, count⟩ -
  exact renders_labelled ["symbol", "token", "source"] [labels.symbol, labels.token, labels.source]
    hname (List.cons_ne_nil _ _) (by decide) (oneLine_toString count)

theorem renders_requestLines (c : Counters F) : Renders (requestLines c) (requestSamples c) := by
  apply Renders.join_map
  rintro ⟨labels, count⟩ -
  exact renders_labelled ["route", "method", "status_class"]
    [labels.route, labels.method, labels.statusClass] (by decide) (List.cons_ne_nil _ _) (by decide)
    (oneLine_toString count)

/-- The bounds need no escape. -/
theorem escapeLabelValue_bound :
    (httpDurationBuckets.toList.all fun bound => escapeLabelValue bound == bound) = true := by
  decide

theorem renders_bucketLines (c : Counters F) : Renders (bucketLines c) (bucketSamples c) := by
  apply Renders.join
  rintro ⟨route, buckets⟩ -
  apply Renders.join_map
  rintro ⟨bound, count⟩ hmem
  have hbound := List.all_eq_true.mp escapeLabelValue_bound bound (List.of_mem_zip hmem).1
  have hlabelled : Renders
      (labelled "oracle_http_request_duration_seconds_bucket"
        [("route", escapeLabelValue route), ("le", escapeLabelValue bound)] (toString count))
      [sampleOf "oracle_http_request_duration_seconds_bucket" [("route", route), ("le", bound)]
        (toString count)] :=
    renders_labelled ["route", "le"] [route, bound] (by decide) (List.cons_ne_nil _ _) (by decide)
      (oneLine_toString count)
  rwa [eq_of_beq hbound] at hlabelled

theorem renders_sumLines (hdisplay : ∀ x, OneLine (display x)) (c : Counters F) :
    Renders (sumLines display c) (sumSamples display c) := by
  apply Renders.join_map
  rintro ⟨route, sum⟩ -
  exact renders_labelled ["route"] [route] (by decide) (List.cons_ne_nil _ _) (by decide) (hdisplay sum)

theorem renders_countLines (c : Counters F) : Renders (countLines c) (countSamples c) := by
  apply Renders.join_map
  rintro ⟨route, buckets⟩ -
  exact renders_labelled ["route"] [route] (by decide) (List.cons_ne_nil _ _) (by decide)
    (oneLine_toString _)

theorem renders_authFailureLines (c : Counters F) :
    Renders (authFailureLines c) (authFailureSamples c) := by
  apply Renders.join_map
  rintro ⟨route, count⟩ -
  exact renders_labelled ["route"] [route] (by decide) (List.cons_ne_nil _ _) (by decide)
    (oneLine_toString count)

theorem Renders.metric {name help kind value : String}
    (h : isHeader name help kind = true) (hvalue : OneLine value) :
    Renders (metric name help kind value) [sampleOf name [] value] :=
  (renders_header h).append (renders_plain (Bool.and_eq_true_iff.mp h).1 hvalue)

theorem renders_cycleText (hdisplay : ∀ x, OneLine (display x)) (c : Counters F) :
    Renders (cycleText ops display c) (cycleSamples ops display c) :=
  (((((((((Renders.metric (by decide +kernel) (oneLine_toString _)).append
    (.metric (by decide +kernel) (hdisplay _))).append
    (.metric (by decide +kernel) (oneLine_toString _))).append
    (.metric (by decide +kernel) (hdisplay _))).append
    (.metric (by decide +kernel) (oneLine_toString _))).append
    (.metric (by decide +kernel) (oneLine_toString _))).append
    (.metric (by decide +kernel) (oneLine_toString _))).append
    (.metric (by decide +kernel) (oneLine_toString _))).append
    (.metric (by decide +kernel) (oneLine_toString _)))

theorem renders_sourceText (m : Metrics F) : Renders (sourceText m) (sourceSamples m) :=
  (((renders_header (by decide +kernel)).append
    (renders_tokenSourceLines (by decide +kernel) _)).append
    (renders_header (by decide +kernel))).append
    (renders_tokenSourceLines (by decide +kernel) _) |>.of_eq (by simp [sourceSamples])

theorem renders_statusText (c : Counters F) : Renders (statusText c) (statusSamples c) :=
  (((Renders.metric (by decide +kernel) (oneLine_toString _)).append
    (.metric (by decide +kernel) (oneLine_toString _))).append
    (.metric (by decide +kernel) (oneLine_toString _))).append
    (.metric (by decide +kernel) (oneLine_toString _))

theorem renders_httpText (hdisplay : ∀ x, OneLine (display x)) (c : Counters F) :
    Renders (httpText display c) (httpSamples display c) :=
  ((((((((renders_header (by decide +kernel)).append (renders_requestLines c)).append
    (renders_header (by decide +kernel))).append (renders_bucketLines c)).append
    (renders_sumLines hdisplay c)).append (renders_countLines c)).append
    (.metric (by decide +kernel) (oneLine_toString _))).append
    (renders_header (by decide +kernel))).append (renders_authFailureLines c)
    |>.of_eq (by simp [httpSamples])

theorem renders_toPrometheus (hdisplay : ∀ x, OneLine (display x)) (m : Metrics F) :
    Renders (toPrometheus ops display m) (samples ops display m) :=
  (((renders_cycleText hdisplay _).append (renders_sourceText m)).append
    (renders_statusText _)).append (renders_httpText hdisplay _)

theorem Renders.reads {text : String} {ss : List Sample} (h : Renders text ss) :
    Reads text.toList (ss.map some) := by
  obtain ⟨lines, htext, hvalid, rfl⟩ := h
  rw [htext]
  exact reads_write hvalid

end Text

section Page

variable {F : Type} {ops : FloatOps F} {display : F → String} {g : Gauges}

def ageSample (now : Nat) (symbol : String) (price : CachedPrice) : Sample :=
  sampleOf "oracle_price_age_seconds" [("symbol", symbol)] (toString (now - price.timestamp))

def ageSamples (g : Gauges) : List Sample :=
  g.prices.toList.map fun (symbol, price) => ageSample g.now symbol price

def pendingSample (kind : String) (count : Nat) : Sample :=
  sampleOf "oracle_pending_keys" [("kind", kind)] (toString count)

def flagSamples (g : Gauges) : List Sample :=
  [sampleOf "oracle_keeper_balance_below_min" [] (if g.belowMin then "1" else "0")]

def gaugeCountSamples (g : Gauges) : List Sample :=
  [sampleOf "oracle_last_set_prices_timestamp_seconds" []
      (toString ((g.lastUpdated.map secondsOf).getD 0)),
    pendingSample "orders" g.pendingOrders,
    pendingSample "deposits" g.pendingDeposits,
    pendingSample "withdrawals" g.pendingWithdrawals,
    sampleOf "oracle_in_flight_keys" [] (toString g.inFlight),
    sampleOf "oracle_blacklisted_keys" [] (toString g.blacklisted)]

/-- What a scrape of the whole page is to tell. -/
def pageSamples (ops : FloatOps F) (display : F → String) (m : Metrics F) (g : Gauges) :
    List Sample :=
  samples ops display m ++ flagSamples g ++ ageSamples g ++ gaugeCountSamples g

theorem renders_pendingLine {kind : String} (h : escapeLabelValue kind = kind) (count : Nat) :
    Renders (pendingLine kind count) [pendingSample kind count] := by
  have hlabelled : Renders
      (labelled "oracle_pending_keys" [("kind", escapeLabelValue kind)] (toString count))
      [pendingSample kind count] :=
    renders_labelled ["kind"] [kind] (by decide +kernel) (List.cons_ne_nil _ _) (by decide +kernel)
      (oneLine_toString count)
  rwa [h] at hlabelled

def ageText (now : Nat) (symbol : String) (price : CachedPrice) : List Char :=
  writeRaw "oracle_price_age_seconds".toList "symbol".toList symbol.toList
    (toString (now - price.timestamp)).toList

theorem toList_ageLine (now : Nat) (symbol : String) (price : CachedPrice) :
    (ageLine now symbol price).toList = ageText now symbol price ++ ['\n'] := by
  have hopen : "\x7b".toList = ['{'] := rfl
  have hclose : "\x7d ".toList = ['}', ' '] := rfl
  have hfeed : "\n".toList = ['\n'] := rfl
  have hequals : "=\"".toList = ['=', '"'] := rfl
  have hquote : "\"".toList = ['"'] := rfl
  change ("oracle_price_age_seconds" ++ "\x7b" ++ ("symbol" ++ "=\"" ++ symbol ++ "\"") ++ "\x7d " ++
    toString (now - price.timestamp) ++ "\n").toList = _
  simp only [String.toList_append, hopen, hclose, hfeed, hequals, hquote, ageText, writeRaw,
    List.append_assoc, List.cons_append, List.nil_append]

theorem isName_age : isName "oracle_price_age_seconds".toList = true := by decide +kernel

theorem isName_symbol : isName "symbol".toList = true := by decide +kernel

theorem reads_ageLine (now : Nat) {symbol : String} (hline : OneLine symbol) (price : CachedPrice) :
    Reads (ageLine now symbol price).toList [readSample (ageText now symbol price)] := by
  rw [toList_ageLine]
  apply reads_line
  · exact not_mem_writeRaw isName_age isName_symbol hline (oneLine_toString _)
  · exact isSample_of_isName isName_age _

/-- The key is read as it stands exactly when it needs no escape. -/
theorem readSample_ageText (now : Nat) (symbol : String) (price : CachedPrice) :
    readSample (ageText now symbol price) = some (ageSample now symbol price) ↔ Raw symbol.toList :=
  readSample_writeRaw isName_age isName_symbol

theorem reads_ageLines (h : ∀ (symbol : String) price, g.prices[symbol]? = some price → OneLine symbol) :
    Reads (ageLines g).toList
      (g.prices.toList.map fun (symbol, price) => readSample (ageText g.now symbol price)) := by
  have hlist : ∀ l : List (String × CachedPrice), (∀ entry ∈ l, OneLine entry.1) →
      Reads (String.join (l.map fun (symbol, price) => ageLine g.now symbol price)).toList
        (l.map fun (symbol, price) => readSample (ageText g.now symbol price)) := by
    intro l hl
    induction l with
    | nil => exact ⟨[], by simp, by simp, rfl⟩
    | cons entry l ih =>
        rw [List.map_cons, List.map_cons, String.join_cons, String.toList_append]
        exact (reads_ageLine _ (hl entry List.mem_cons_self) _).append
          (ih fun other hmem => hl other (List.mem_cons_of_mem _ hmem))
  apply hlist
  rintro ⟨symbol, price⟩ hmem
  exact h symbol price (Std.TreeMap.mem_toList_iff_getElem?_eq_some.mp hmem)

theorem renders_flagText (g : Gauges) : Renders (flagText g) (flagSamples g) := by
  have hflag : OneLine (if g.belowMin then "1" else "0") := by
    cases g.belowMin <;> decide
  exact (Renders.metric (by decide +kernel) hflag).append (renders_header (by decide +kernel))

theorem renders_countText (g : Gauges) : Renders (countText g) (gaugeCountSamples g) :=
  ((((((Renders.metric (by decide +kernel) (oneLine_toString _)).append
    (renders_header (by decide +kernel))).append (renders_pendingLine (by decide) _)).append
    (renders_pendingLine (by decide) _)).append (renders_pendingLine (by decide) _)).append
    (.metric (by decide +kernel) (oneLine_toString _))).append
    (.metric (by decide +kernel) (oneLine_toString _))

/-- The page tells what it is to tell exactly when no key of a cached price
needs an escape; all other values are read back whatever they are. -/
theorem read_metrics (hdisplay : ∀ x, OneLine (display x)) (m : Metrics F) (g : Gauges)
    (hkeys : ∀ (symbol : String) price, g.prices[symbol]? = some price → OneLine symbol) :
    Library.Exposition.read (metrics ops display m g).toList = some (pageSamples ops display m g) ↔
      ∀ (symbol : String) price, g.prices[symbol]? = some price → Raw symbol.toList := by
  have hrenders : Renders (toPrometheus ops display m) (samples ops display m) :=
    renders_toPrometheus hdisplay m
  have hreads := ((hrenders.reads.append (renders_flagText g).reads).append
    (reads_ageLines hkeys)).append (renders_countText g).reads
  have htext : (metrics ops display m g).toList =
      (toPrometheus ops display m).toList ++ (flagText g).toList ++ (ageLines g).toList ++
        (countText g).toList := by
    rw [metrics, gaugeText]
    simp only [String.toList_append, List.append_assoc]
  rw [htext, hreads.read_eq_some, pageSamples]
  simp only [List.map_append, List.append_cancel_left_eq, List.append_cancel_right_eq]
  rw [ageSamples, List.map_map, List.map_inj_left]
  constructor
  · intro h symbol price hmem
    exact (readSample_ageText _ _ _).mp
      (h (symbol, price) (Std.TreeMap.mem_toList_iff_getElem?_eq_some.mpr hmem))
  · rintro h ⟨symbol, price⟩ hmem
    exact (readSample_ageText _ _ _).mpr
      (h symbol price (Std.TreeMap.mem_toList_iff_getElem?_eq_some.mp hmem))

end Page

section Samples

def samplePrice : CachedPrice :=
  ⟨"CXLM", "XLM", "XLM", 0, 1, 3, 2, 90, 7, ["binance"], "00"⟩

/-- The labels hold a quote, a backslash and a line feed. -/
def sampleMetrics : Metrics (Option ℚ) :=
  .total exactOps [.tokenSourceFetchFailure ⟨"A\"B", "C\\D", "line\nfeed"⟩ 5, .httpAuthFailure "/metrics"]

def sampleGauges : Gauges :=
  ⟨false, ({} : PriceMap).insert "cxlm" samplePrice, none, 100, 1, 0, 0, 0, 0⟩

theorem sample_keys (symbol : String) (price : CachedPrice)
    (h : sampleGauges.prices[symbol]? = some price) : symbol = "cxlm" := by
  by_contra hne
  have hnone : sampleGauges.prices[symbol]? = none := by
    rw [sampleGauges, getElem?_insert_of_ne _ hne]
    exact Std.TreeMap.getElem?_emptyc
  rw [hnone] at h
  cases h

theorem read_metrics_sample :
    Library.Exposition.read (metrics exactOps (fun _ => "0.1") sampleMetrics sampleGauges).toList =
      some (pageSamples exactOps (fun _ => "0.1") sampleMetrics sampleGauges) := by
  refine (read_metrics (fun _ => by decide) sampleMetrics sampleGauges ?_).mpr ?_
  · intro symbol price h
    rw [sample_keys symbol price h]
    decide
  · intro symbol price h
    rw [sample_keys symbol price h, Raw]
    decide

end Samples

end So4Oracle.MetricsRoundTrip
