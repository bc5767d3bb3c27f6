import Mathlib.Data.List.Nodup
import Mathlib.Data.List.Perm.Subperm
import So4Oracle.Library.Threads
import So4Oracle.MetricsState

namespace So4Oracle.HttpInFlight

open Library.Requests Library.Safety Library.Protocol Library.Floats Library.Threads MetricsState

variable {F : Type} {ops : FloatOps F}

/-- What the middleware reads of a request. -/
structure HttpCall where
  matchedPath : Option String
  method : String
  deriving DecidableEq

def HttpCall.path (call : HttpCall) : String := call.matchedPath.getD "/unmatched"

structure HttpResponse where
  status : Nat
  routeExt : Option String
  deriving DecidableEq

inductive MiddlewareRequest
  | incHttpInFlight
  | now
  | next (call : HttpCall)
  | decHttpInFlight
  | recordHttpRequest (route method : String) (status latencyMs : Nat)

@[reducible] def MiddlewareRequest.Answer : MiddlewareRequest → Type
  | .now => Nat
  | .next _ => HttpResponse
  | .incHttpInFlight | .decHttpInFlight | .recordHttpRequest _ _ _ _ => Unit

abbrev Middleware := Program MiddlewareRequest MiddlewareRequest.Answer

def middlewareAsk (q : MiddlewareRequest) : Middleware q.Answer := Program.request q

/-- The clock counts milliseconds. -/
def trackMetrics (call : HttpCall) : Middleware HttpResponse := do
  middlewareAsk .incHttpInFlight
  let start ← middlewareAsk .now
  let response ← middlewareAsk (.next call)
  let now ← middlewareAsk .now
  middlewareAsk .decHttpInFlight
  middlewareAsk (.recordHttpRequest call.path call.method response.status (now - start))
  pure { response with routeExt := some call.path }

section Threads

/-- How far a request is in the middleware. -/
inductive Stage
  | waiting
  | running
  | answered
  | recorded (status latencyMs : Nat)
  deriving DecidableEq

structure Mode where
  call : HttpCall
  stage : Stage

def stageAfter : Stage → MiddlewareRequest → Stage
  | .waiting, .incHttpInFlight => .running
  | .running, .decHttpInFlight => .answered
  | .answered, .recordHttpRequest _ _ status latencyMs => .recorded status latencyMs
  | stage, _ => stage

def Mode.after (m : Mode) (q : MiddlewareRequest) (_ : q.Answer) : Mode :=
  ⟨m.call, stageAfter m.stage q⟩

/-- A recording call, with the request that makes it through the middleware. -/
structure Entry where
  id : Option Nat
  recording : Recording

structure MiddlewareWorld (F : Type) where
  clock : Nat
  metrics : Metrics F
  log : List Entry

namespace MiddlewareWorld

def record (ops : FloatOps F) (w : MiddlewareWorld F) (id : Option Nat) (recording : Recording) :
    MiddlewareWorld F :=
  { w with metrics := w.metrics.recorded ops recording, log := w.log ++ [⟨id, recording⟩] }

def recordAll (ops : FloatOps F) (w : MiddlewareWorld F) (recordings : List Recording) :
    MiddlewareWorld F :=
  recordings.foldl (fun w recording => w.record ops none recording) w

def answered (ops : FloatOps F) (w : MiddlewareWorld F) (id : Nat) :
    (q : MiddlewareRequest) → q.Answer → MiddlewareWorld F
  | .incHttpInFlight, _ => w.record ops id .incHttpInFlight
  | .decHttpInFlight, _ => w.record ops id .decHttpInFlight
  | .recordHttpRequest route method status latencyMs, _ =>
      w.record ops id (.httpRequest route method status latencyMs)
  | .now, _ | .next _, _ => w

end MiddlewareWorld

/-- Only the middleware records these. -/
def ofMiddleware : Recording → Bool
  | .incHttpInFlight | .decHttpInFlight | .httpRequest _ _ _ _ => true
  | _ => false

/-- The clock is read as it is; the handlers may answer as they like. -/
def Replies (clock : Nat) : (q : MiddlewareRequest) → q.Answer → Prop
  | .now, now => now = clock
  | _, _ => True

/-- Time passes and other tasks record what is theirs between any two answers. A
request whose recording call panics is dropped, with no answer. -/
def requests (ops : FloatOps F) :
    Semantics MiddlewareRequest MiddlewareRequest.Answer Mode (MiddlewareWorld F) where
  answer id q w r u :=
    ∃ clock others, w.clock ≤ clock ∧ Replies clock q r ∧
      (∀ recording ∈ others, ofMiddleware recording = false) ∧
      u = ({ w with clock := clock }.recordAll ops others).answered ops id q r ∧ u.metrics.fits = true
  after := Mode.after

abbrev HttpServer (F : Type) :=
  Config MiddlewareRequest MiddlewareRequest.Answer Mode (MiddlewareWorld F) HttpResponse

/-- Every request that will ever arrive, before its first step. A request is
dropped when it runs into the timeout or its client goes away. -/
def serving (call : Nat → HttpCall) (start : Nat) : HttpServer F where
  shared := ⟨start, .new, []⟩
  threads id := .at ⟨call id, .waiting⟩ (trackMetrics (call id))

end Threads

section Log

/-- The recording calls of one request, in order. -/
def entriesOf (log : List Entry) (id : Nat) : List Recording :=
  log.filterMap fun entry => if entry.id = some id then some entry.recording else none

def account (underway : List Nat) (entry : Entry) : List Nat :=
  match entry.id, entry.recording with
  | some id, .incHttpInFlight => id :: underway
  | some id, .decHttpInFlight => underway.erase id
  | _, _ => underway

/-- The requests that have been counted in and not been counted out. -/
def underway (log : List Entry) : List Nat := log.foldl account []

variable {log : List Entry} {id other : Nat} {recording : Recording}

theorem entriesOf_append_self :
    entriesOf (log ++ [⟨some id, recording⟩]) id = entriesOf log id ++ [recording] := by
  simp [entriesOf]

theorem entriesOf_append_of_ne (h : other ≠ id) :
    entriesOf (log ++ [⟨some id, recording⟩]) other = entriesOf log other := by
  have hne : ¬id = other := fun heq => h heq.symm
  simp [entriesOf, hne]

theorem entriesOf_append_none : entriesOf (log ++ [⟨none, recording⟩]) id = entriesOf log id := by
  simp [entriesOf]

theorem underway_append (entry : Entry) :
    underway (log ++ [entry]) = account (underway log) entry := by
  rw [underway, List.foldl_append]
  rfl

end Log

section Books

/-- The gauge is the number of requests underway, each of which has been
counted in and done nothing else. -/
structure Books (ops : FloatOps F) (w : MiddlewareWorld F) : Prop where
  recorded : w.metrics = .total ops (w.log.map Entry.recording)
  gauge : w.metrics.counters.httpRequestsInFlight = (underway w.log).length
  nodup : (underway w.log).Nodup
  mem_underway : ∀ id, id ∈ underway w.log ↔ entriesOf w.log id = [.incHttpInFlight]

variable {w : MiddlewareWorld F} {id : Nat} {recording : Recording}

theorem total_record (h : Books ops w) (id : Option Nat) (recording : Recording) :
    (w.record ops id recording).metrics =
      .total ops ((w.record ops id recording).log.map Entry.recording) := by
  rw [MiddlewareWorld.record, List.map_append, Metrics.total, List.foldl_append, ← Metrics.total,
    ← h.recorded]
  rfl

theorem inFlight_record (hother : ofMiddleware recording = false) (m : Metrics F) :
    (m.recorded ops recording).counters.httpRequestsInFlight = m.counters.httpRequestsInFlight := by
  cases recording <;> first | rfl | cases hother

theorem Books.record_none (h : Books ops w) (hother : ofMiddleware recording = false) :
    Books ops (w.record ops none recording) where
  recorded := total_record h none recording
  gauge := by
    have hgauge := @inFlight_record F ops _ hother w.metrics
    simp only [MiddlewareWorld.record, underway_append]
    rw [hgauge]
    exact h.gauge
  nodup := by
    simp only [MiddlewareWorld.record, underway_append]
    exact h.nodup
  mem_underway other := by
    simp only [MiddlewareWorld.record, underway_append, entriesOf_append_none]
    exact h.mem_underway other

theorem Books.recordAll (h : Books ops w) {others : List Recording}
    (hothers : ∀ recording ∈ others, ofMiddleware recording = false) :
    Books ops (w.recordAll ops others) ∧
      ∀ id, entriesOf (w.recordAll ops others).log id = entriesOf w.log id := by
  induction others generalizing w with
  | nil => exact ⟨h, fun _ => rfl⟩
  | cons recording others ih =>
      have hnext := h.record_none (hothers recording List.mem_cons_self)
      obtain ⟨hbooks, hentries⟩ := ih hnext fun r hr => hothers r (List.mem_cons_of_mem _ hr)
      exact ⟨hbooks, fun id => (hentries id).trans entriesOf_append_none⟩

theorem Books.incHttpInFlight (h : Books ops w) (hid : entriesOf w.log id = []) :
    Books ops (w.record ops id .incHttpInFlight) where
  recorded := total_record h id _
  gauge := by
    simp only [MiddlewareWorld.record, underway_append]
    exact congrArg Nat.succ h.gauge
  nodup := by
    simp only [MiddlewareWorld.record, underway_append]
    refine List.nodup_cons.mpr ⟨fun hmem => ?_, h.nodup⟩
    rw [h.mem_underway, hid] at hmem
    cases hmem
  mem_underway other := by
    simp only [MiddlewareWorld.record, underway_append]
    by_cases hother : other = id
    · subst hother
      rw [entriesOf_append_self, hid]
      exact iff_of_true List.mem_cons_self rfl
    · rw [entriesOf_append_of_ne hother, ← h.mem_underway]
      exact List.mem_cons.trans (or_iff_right hother)

theorem Books.decHttpInFlight (h : Books ops w) (hid : entriesOf w.log id = [.incHttpInFlight]) :
    Books ops (w.record ops id .decHttpInFlight) where
  recorded := total_record h id _
  gauge := by
    have hlength := List.length_erase_of_mem ((h.mem_underway id).mpr hid)
    simp only [MiddlewareWorld.record, underway_append]
    exact (congrArg Nat.pred h.gauge).trans hlength.symm
  nodup := by
    simp only [MiddlewareWorld.record, underway_append]
    exact h.nodup.erase id
  mem_underway other := by
    simp only [MiddlewareWorld.record, underway_append]
    by_cases hother : other = id
    · subst hother
      rw [entriesOf_append_self, hid]
      exact iff_of_false h.nodup.not_mem_erase (by simp)
    · rw [entriesOf_append_of_ne hother, ← h.mem_underway]
      exact List.mem_erase_of_ne hother

theorem Books.recordHttpRequest (h : Books ops w) {route method : String} {status latencyMs : Nat}
    (hid : entriesOf w.log id = [.incHttpInFlight, .decHttpInFlight]) :
    Books ops (w.record ops id (.httpRequest route method status latencyMs)) where
  recorded := total_record h id _
  gauge := by
    simp only [MiddlewareWorld.record, underway_append]
    exact h.gauge
  nodup := by
    simp only [MiddlewareWorld.record, underway_append]
    exact h.nodup
  mem_underway other := by
    simp only [MiddlewareWorld.record, underway_append]
    by_cases hother : other = id
    · subst hother
      rw [entriesOf_append_self, hid]
      refine iff_of_false (fun hmem => ?_) (by simp)
      have hentries := (h.mem_underway other).mp hmem
      rw [hid] at hentries
      cases hentries
    · rw [entriesOf_append_of_ne hother]
      exact h.mem_underway other

end Books

section Rules

def Stage.entries (call : HttpCall) : Stage → List Recording
  | .waiting => []
  | .running => [.incHttpInFlight]
  | .answered => [.incHttpInFlight, .decHttpInFlight]
  | .recorded status latencyMs =>
      [.incHttpInFlight, .decHttpInFlight, .httpRequest call.path call.method status latencyMs]

def Allowed : Mode → MiddlewareRequest → Prop
  | ⟨_, .waiting⟩, .incHttpInFlight => True
  | ⟨_, .running⟩, .now | ⟨_, .running⟩, .next _ | ⟨_, .running⟩, .decHttpInFlight => True
  | ⟨call, .answered⟩, .recordHttpRequest route method _ _ => route = call.path ∧ method = call.method
  | _, _ => False

def rules : Rules MiddlewareRequest MiddlewareRequest.Answer Mode :=
  fun m q r m' => Allowed m q ∧ m' = m.after q r

def Concludes (r : HttpResponse) (m : Mode) : Prop :=
  ∃ latencyMs, m.stage = .recorded r.status latencyMs

theorem trackMetrics_follows (call : HttpCall) :
    Follows rules ⟨call, .waiting⟩ (trackMetrics call) Concludes := by
  intro _
  refine ⟨_, ⟨trivial, rfl⟩, fun start => ⟨_, ⟨trivial, rfl⟩, fun response => ?_⟩⟩
  refine ⟨_, ⟨trivial, rfl⟩, fun now => ⟨_, ⟨trivial, rfl⟩, fun _ => ⟨_, ⟨trivial, rfl⟩, ?_⟩⟩⟩
  exact fun _ => ⟨_, ⟨⟨rfl, rfl⟩, rfl⟩, now - start, rfl⟩

end Rules

section Runs

variable {call : Nat → HttpCall} {c d : HttpServer F} {w : MiddlewareWorld F} {id : Nat} {m : Mode}

/-- One request in the middleware adds its own entry, and no other's. -/
theorem answered_books (h : Books ops w) {q : MiddlewareRequest} (r : q.Answer)
    (hid : entriesOf w.log id = m.stage.entries m.call) (hallowed : Allowed m q) :
    Books ops (w.answered ops id q r) ∧
      entriesOf (w.answered ops id q r).log id = (m.after q r).stage.entries m.call ∧
      ∀ other, other ≠ id → entriesOf (w.answered ops id q r).log other = entriesOf w.log other := by
  obtain ⟨call, stage⟩ := m
  cases stage with
  | waiting =>
      cases q with
      | incHttpInFlight =>
          refine ⟨h.incHttpInFlight hid, ?_, fun other hne => entriesOf_append_of_ne hne⟩
          exact entriesOf_append_self.trans (congrArg (· ++ _) hid)
      | _ => exact hallowed.elim
  | running =>
      cases q with
      | now | next _ => exact ⟨h, hid, fun _ _ => rfl⟩
      | decHttpInFlight =>
          refine ⟨h.decHttpInFlight hid, ?_, fun other hne => entriesOf_append_of_ne hne⟩
          exact entriesOf_append_self.trans (congrArg (· ++ _) hid)
      | _ => exact hallowed.elim
  | answered =>
      cases q with
      | recordHttpRequest route method status latencyMs =>
          obtain ⟨rfl, rfl⟩ := hallowed
          refine ⟨h.recordHttpRequest hid, ?_, fun other hne => entriesOf_append_of_ne hne⟩
          exact entriesOf_append_self.trans (congrArg (· ++ _) hid)
      | _ => exact hallowed.elim
  | recorded status latencyMs => cases q <;> exact hallowed.elim

/-- What every interleaving of the requests keeps. -/
structure Accounts (ops : FloatOps F) (call : Nat → HttpCall) (c : HttpServer F) : Prop where
  ends : Ends rules Concludes c
  books : Books ops c.shared
  fits : ∀ id m p, c.threads id = .at m p →
    m.call = call id ∧ entriesOf c.shared.log id = m.stage.entries m.call

theorem accounts_serving (start : Nat) : Accounts ops call (serving call start : HttpServer F) where
  ends id m p h := by
    cases h
    exact trackMetrics_follows (call id)
  books := ⟨rfl, rfl, List.nodup_nil, fun id => iff_of_false List.not_mem_nil (by simp [serving, entriesOf])⟩
  fits id m p h := by
    cases h
    exact ⟨rfl, rfl⟩

theorem Accounts.advances (h : Accounts ops call c) (ha : Advances (requests ops) c d) :
    Accounts ops call d := by
  have hends : Ends rules Concludes d := h.ends.advances (fun _ _ _ _ hrule => hrule.2) ha
  cases ha with
  | drop id =>
      refine ⟨hends, h.books, fun other m p hother => ?_⟩
      by_cases hne : other = id
      · subst hne
        rw [put_threads_self] at hother
        cases hother
      · rw [put_threads_of_ne _ hne] at hother
        exact h.fits other m p hother
  | @answer id m q next r shared hid hanswer =>
      obtain ⟨clock, others, -, -, hothers, rfl, -⟩ := hanswer
      obtain ⟨hcall, hentries⟩ := h.fits id m _ hid
      obtain ⟨m', hrule, -⟩ := h.ends.asks hid r
      have hbooks : Books ops { c.shared with clock := clock } :=
        ⟨h.books.recorded, h.books.gauge, h.books.nodup, h.books.mem_underway⟩
      obtain ⟨hall, hsame⟩ := hbooks.recordAll hothers
      obtain ⟨hnew, hself, hrest⟩ := answered_books hall r ((hsame id).trans hentries) hrule.1
      refine ⟨hends, hnew, fun other n p hother => ?_⟩
      by_cases hne : other = id
      · subst hne
        rw [put_threads_self] at hother
        cases hother
        exact ⟨hcall, hself⟩
      · rw [put_threads_of_ne _ hne] at hother
        obtain ⟨hcall, hentries⟩ := h.fits other n p hother
        exact ⟨hcall, ((hrest other hne).trans (hsame other)).trans hentries⟩

theorem Accounts.reaches (h : Accounts ops call c)
    (hr : Relation.ReflTransGen (Advances (requests ops)) c d) : Accounts ops call d := by
  induction hr with
  | refl => exact h
  | tail _ ha ih => exact ih.advances ha

/-- The requests underway that are still served. -/
def live (c : HttpServer F) : List Nat :=
  (underway c.shared.log).filter fun id => (c.threads id).mode?.isSome

/-- The requests underway that were dropped. -/
def abandoned (c : HttpServer F) : List Nat :=
  (underway c.shared.log).filter fun id => (c.threads id).mode?.isNone

theorem mem_abandoned : id ∈ abandoned c ↔ id ∈ underway c.shared.log ∧ c.threads id = .dropped := by
  rw [abandoned, List.mem_filter]
  apply and_congr_right'
  cases c.threads id with
  | «at» m p => simp [Thread.mode?]
  | dropped => simp [Thread.mode?]

theorem Accounts.mem_live (h : Accounts ops call c) :
    id ∈ live c ↔ ∃ m p, c.threads id = .at m p ∧ m.stage = .running := by
  rw [live, List.mem_filter, h.books.mem_underway]
  constructor
  · rintro ⟨hentries, hmode⟩
    cases hid : c.threads id with
    | dropped =>
        rw [hid] at hmode
        cases hmode
    | «at» m p =>
        refine ⟨m, p, rfl, ?_⟩
        rw [(h.fits id m p hid).2] at hentries
        obtain ⟨call, stage⟩ := m
        cases stage <;> first | rfl | cases hentries
  · rintro ⟨m, p, hid, hstage⟩
    have hentries := (h.fits id m p hid).2
    rw [hstage] at hentries
    exact ⟨hentries, by rw [hid]; rfl⟩

/-- A request that was dropped does nothing more. -/
theorem Accounts.entriesOf_dropped (h : Accounts ops call c) (ha : Advances (requests ops) c d)
    (hid : c.threads id = .dropped) :
    d.threads id = .dropped ∧ entriesOf d.shared.log id = entriesOf c.shared.log id := by
  cases ha with
  | drop other =>
      refine ⟨?_, rfl⟩
      by_cases hne : id = other
      · subst hne
        exact put_threads_self _ _ _
      · exact (put_threads_of_ne _ hne _).trans hid
  | @answer other m q next r shared hother hanswer =>
      have hne : id ≠ other := by
        rintro rfl
        rw [hid] at hother
        cases hother
      obtain ⟨clock, others, -, -, hothers, rfl, -⟩ := hanswer
      obtain ⟨-, hentries⟩ := h.fits other m _ hother
      obtain ⟨m', hrule, -⟩ := h.ends.asks hother r
      have hbooks : Books ops { c.shared with clock := clock } :=
        ⟨h.books.recorded, h.books.gauge, h.books.nodup, h.books.mem_underway⟩
      obtain ⟨hall, hsame⟩ := hbooks.recordAll hothers
      obtain ⟨-, -, hrest⟩ := answered_books hall r ((hsame other).trans hentries) hrule.1
      exact ⟨(put_threads_of_ne _ hne _).trans hid, (hrest id hne).trans (hsame id)⟩

theorem Accounts.abandoned_subset (h : Accounts ops call c)
    (hr : Relation.ReflTransGen (Advances (requests ops)) c d) : abandoned c ⊆ abandoned d := by
  induction hr with
  | refl => exact fun _ hid => hid
  | @tail x y hx ha ih =>
      intro id hmem
      have hid := ih hmem
      have hbooks := (h.reaches hx).books
      rw [mem_abandoned, hbooks.mem_underway] at hid
      obtain ⟨hdropped, hsame⟩ := (h.reaches hx).entriesOf_dropped ha hid.2
      rw [mem_abandoned, ((h.reaches hx).advances ha).books.mem_underway, hsame]
      exact ⟨hid.1, hdropped⟩

theorem length_live_add (c : HttpServer F) :
    (live c).length + (abandoned c).length = (underway c.shared.log).length := by
  have h := List.length_eq_length_filter_add (l := underway c.shared.log)
    fun id => (c.threads id).mode?.isSome
  rw [h, live, abandoned]
  simp only [Option.not_isSome]

end Runs

section Samples

/-- Everything is answered at once, and with success. -/
def answering (ops : FloatOps F) (id : Nat) :
    Player MiddlewareRequest MiddlewareRequest.Answer (MiddlewareWorld F) := fun q w =>
  let r : q.Answer := match q with
    | .now => w.clock
    | .next _ => ⟨200, none⟩
    | .incHttpInFlight | .decHttpInFlight | .recordHttpRequest _ _ _ _ => ()
  if (w.answered ops id q r).metrics.fits = true then some (r, w.answered ops id q r) else none

theorem answer_answering (id : Nat) (q : MiddlewareRequest) (w : MiddlewareWorld F) (r : q.Answer)
    (u : MiddlewareWorld F) (h : answering ops id q w = some (r, u)) :
    (requests ops).answer id q w r u := by
  obtain ⟨hfits, heq⟩ := Option.ite_none_right_eq_some.mp h
  obtain ⟨rfl, rfl⟩ := Prod.mk.inj (Option.some.inj heq)
  refine ⟨w.clock, [], le_rfl, ?_, List.forall_mem_nil _, rfl, hfits⟩
  cases q <;> first | rfl | trivial

def sampleCall (_ : Nat) : HttpCall := ⟨some "/ready", "GET"⟩

/-- The first request is dropped while it is served; the second is answered. -/
def sampleServer : HttpServer (Option ℚ) :=
  let stuck := (serving sampleCall 0).driveAll (answering exactOps) Mode.after [0, 0, 1, 1]
  (stuck.put stuck.shared 0 .dropped).driveAll (answering exactOps) Mode.after [1, 1, 1, 1]

theorem sample_reached :
    Relation.ReflTransGen (Advances (requests exactOps)) (serving sampleCall 0) sampleServer :=
  ((advances_driveAll answer_answering _ _).tail (.drop _ 0)).trans (advances_driveAll answer_answering _ _)

end Samples

section Main

variable {call : Nat → HttpCall} {c : HttpServer F}

/-- The gauge of requests in flight is exact but for the requests that were
dropped while they were served: it counts these for ever, and they are never
counted among the served. -/
theorem inFlight_eq {start : Nat}
    (hr : Relation.ReflTransGen (Advances (requests ops)) (serving call start) c) :
    c.shared.metrics.counters.httpRequestsInFlight = (live c).length + (abandoned c).length ∧
      ((live c).Nodup ∧ ∀ id, id ∈ live c ↔ ∃ m p, c.threads id = .at m p ∧ m.stage = .running) ∧
      (∀ id m r, c.threads id = .at m (.done r) → ∃ latencyMs, entriesOf c.shared.log id =
        [.incHttpInFlight, .decHttpInFlight,
          .httpRequest (call id).path (call id).method r.status latencyMs]) ∧
      ∀ d, Relation.ReflTransGen (Advances (requests ops)) c d →
        (abandoned c).length ≤ d.shared.metrics.counters.httpRequestsInFlight ∧
          ∀ id ∈ abandoned c, entriesOf d.shared.log id = [.incHttpInFlight] := by
  have h : Accounts ops call c := (accounts_serving start).reaches hr
  refine ⟨h.books.gauge.trans (length_live_add c).symm, ⟨h.books.nodup.filter _, fun id => h.mem_live⟩,
    ?_, ?_⟩
  · intro id m r hid
    obtain ⟨latencyMs, hstage⟩ := h.ends.done hid
    obtain ⟨hcall, hentries⟩ := h.fits id m _ hid
    rw [hstage, hcall] at hentries
    exact ⟨latencyMs, hentries⟩
  · intro d hd
    have hbooks := (h.reaches hd).books
    have hsubset := h.abandoned_subset hd
    have hnodup : (abandoned c).Nodup := h.books.nodup.filter _
    refine ⟨?_, fun id hid => ?_⟩
    · calc (abandoned c).length
          ≤ (abandoned d).length := (List.subperm_of_subset hnodup hsubset).length_le
        _ ≤ (underway d.shared.log).length := List.length_filter_le _ _
        _ = d.shared.metrics.counters.httpRequestsInFlight := hbooks.gauge.symm
    · exact (hbooks.mem_underway id).mp (mem_abandoned.mp (hsubset hid)).1

theorem inFlight_eq_sample :
    (live sampleServer, abandoned sampleServer) = ([], [0]) ∧
      sampleServer.shared.metrics.counters.httpRequestsInFlight =
        (live sampleServer).length + (abandoned sampleServer).length :=
  ⟨by decide +kernel, (inFlight_eq sample_reached).1⟩

end Main

end So4Oracle.HttpInFlight
