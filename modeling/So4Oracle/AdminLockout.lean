import Mathlib.Data.List.Nodup
import Mathlib.Data.List.Perm.Subperm
import So4Oracle.AdminRequests

namespace So4Oracle.AdminLockout

open Library.Checked Library.Requests Library.Safety Library.Protocol Library.FixedWindow
  Library.Lockout Library.Threads State Admin AdminAuth AdminRequests

variable {adminApiToken : Option String} {parts : Nat → Parts} {pace : Pace} {start : Nat}
  {client : String} {w u : AuthWorld} {c d : Server} {id : Nat}

section Rules

/-- Each request is about the client that makes it, and what is recorded is
what the comparison says. -/
def Allowed (adminApiToken : Option String) : Mode → AuthRequest → Prop
  | ⟨_, .arrived⟩, .now => True
  | ⟨parts, .read now⟩, .isBlocked client reading => client = parts.client ∧ reading = now
  | ⟨parts, .admitted _⟩, .recordSuccess client =>
      client = parts.client ∧ parts.Presents adminApiToken
  | ⟨parts, .admitted now⟩, .recordFailure client reading =>
      client = parts.client ∧ reading = now ∧ ¬parts.Presents adminApiToken
  | ⟨_, .denied⟩, .recordHttpAuthFailure _ => True
  | _, _ => False

def rules (adminApiToken : Option String) : Rules AuthRequest AuthRequest.Answer Mode :=
  fun m q r m' => Allowed adminApiToken m q ∧ m' = m.after q r

def Concludes (adminApiToken : Option String) (r : Panicking (Except ApiError Unit)) (m : Mode) :
    Prop :=
  match m.stage with
  | .arrived => adminApiToken = none ∧ r = .ok (.error notConfigured)
  | .barred => r = .ok (.error tooManyAttempts)
  | .granted => r = .ok (.ok ())
  | .denied => r = .ok (.error unauthorized)
  | .panicked => ∃ fault, r = .error fault
  | .read _ | .admitted _ => False

theorem stage_of_unauthorized {m : Mode}
    (h : Concludes adminApiToken (.ok (.error unauthorized)) m) : m.stage = .denied := by
  obtain ⟨p, stage⟩ := m
  cases stage with
  | denied => rfl
  | arrived => exact absurd h.2 (by decide)
  | barred => exact absurd (Except.error.inj (Except.ok.inj h)) (by decide)
  | granted => cases h
  | panicked =>
      obtain ⟨_, h⟩ := h
      cases h
  | read | admitted => exact h.elim

theorem refuse_follows {p : Parts} {now : Nat} (h : ¬p.Presents adminApiToken) :
    Follows (rules adminApiToken) ⟨p, .admitted now⟩ (refuse p now) (Concludes adminApiToken) := by
  intro r
  refine ⟨_, ⟨⟨rfl, rfl, h⟩, rfl⟩, ?_⟩
  cases r with
  | error fault => exact ⟨fault, rfl⟩
  | ok => exact fun _ => ⟨_, ⟨trivial, rfl⟩, rfl⟩

theorem compareToken_follows {p : Parts} {now : Nat} {expected : String} :
    Follows (rules (some expected)) ⟨p, .admitted now⟩ (compareToken expected p now)
      (Concludes (some expected)) := by
  rw [compareToken]
  cases hbearer : p.bearer with
  | none =>
      apply refuse_follows
      rintro ⟨_, -, hsome⟩
      rw [hbearer] at hsome
      cases hsome
  | some actual =>
      dsimp only
      split
      next heq =>
        have htoken : actual = expected := asBytes_inj (constantTimeEq_iff.mp heq)
        exact fun _ => ⟨_, ⟨⟨rfl, expected, rfl, htoken ▸ hbearer⟩, rfl⟩, rfl⟩
      next hne =>
        apply refuse_follows
        rintro ⟨_, htoken, hsome⟩
        obtain rfl := Option.some.inj htoken
        obtain rfl := Option.some.inj (hbearer.symm.trans hsome)
        exact hne (constantTimeEq_iff.mpr rfl)

theorem fromRequestParts_follows (p : Parts) :
    Follows (rules adminApiToken) ⟨p, .arrived⟩ (fromRequestParts adminApiToken p)
      (Concludes adminApiToken) := by
  cases adminApiToken with
  | none => exact ⟨rfl, rfl⟩
  | some expected =>
      refine Follows.request fun now => ⟨⟨p, .read now⟩, ⟨trivial, rfl⟩, ?_⟩
      apply Follows.request
      intro blocked
      refine ⟨_, ⟨⟨rfl, rfl⟩, rfl⟩, ?_⟩
      cases blocked with
      | true => exact rfl
      | false => exact compareToken_follows

end Rules

section Projection

/-- What the world is to one client. -/
def guardOf (w : AuthWorld) (client : String) : Guard where
  clock := w.clock
  entry := entryOf w.limiter client
  pending := (w.pending.filter fun attempt => attempt.client = client).map Attempt.now
  failures := (w.failed.filter fun attempt => attempt.client = client).length

/-- The request of an attempt makes no other. -/
theorem perm_settle {w : AuthWorld} (hids : (w.pending.map Attempt.id).Nodup) {attempt : Attempt}
    (h : attempt ∈ w.pending) : w.pending.Perm (attempt :: w.settle attempt.id) := by
  obtain ⟨before, after, hsplit⟩ := List.append_of_mem h
  have hapart : ∀ other ∈ before ++ after, other.id ≠ attempt.id := by
    intro other hother heq
    rw [hsplit, List.map_append, List.map_cons, List.nodup_middle] at hids
    apply (List.nodup_cons.mp hids).1
    rw [← List.map_append, ← heq]
    exact List.mem_map_of_mem hother
  have hsettle : w.settle attempt.id = before ++ after := by
    rw [AuthWorld.settle, hsplit, List.filter_append,
      List.filter_cons_of_neg (by simp), ← List.filter_append]
    apply List.filter_eq_self.mpr
    intro other hother
    exact decide_eq_true (hapart other hother)
  rw [hsettle, hsplit]
  exact List.perm_middle

theorem pending_settle_self (hids : (w.pending.map Attempt.id).Nodup) {attempt : Attempt}
    (h : attempt ∈ w.pending) (hclient : attempt.client = client) :
    (guardOf w client).pending.Perm (attempt.now ::
      ((w.settle attempt.id).filter fun other => other.client = client).map Attempt.now) := by
  have hperm := ((perm_settle hids h).filter fun other => other.client = client).map Attempt.now
  rwa [List.filter_cons_of_pos (by simpa using hclient), List.map_cons] at hperm

theorem pending_settle_other (hids : (w.pending.map Attempt.id).Nodup) {attempt : Attempt}
    (h : attempt ∈ w.pending) (hclient : attempt.client ≠ client) :
    (w.settle attempt.id).filter (fun other => other.client = client) =
      w.pending.filter fun other => other.client = client := by
  rw [AuthWorld.settle, List.filter_filter]
  apply List.filter_congr
  intro other hother
  by_cases hid : other.id = attempt.id
  · obtain rfl : other = attempt := List.inj_on_of_nodup_map hids hother h hid
    simp [hclient]
  · simp [hid]

end Projection

section Sections

theorem limits_budget : limits.budget = 5 := rfl

theorem perWindow_lt (hpace : pace.attempts ≤ requestConcurrency) :
    perWindow limits pace < u32Max := by
  unfold perWindow u32Max requestConcurrency at *
  rw [limits_budget]
  omega

theorem guardOf_admit_self (w : AuthWorld) (id now : Nat) :
    guardOf (w.enter id client now) client =
      { guardOf w client with pending := now :: (guardOf w client).pending } := by
  simp [guardOf, AuthWorld.enter]

theorem guardOf_admit_other (w : AuthWorld) (id now : Nat) {other : String} (h : other ≠ client) :
    guardOf (w.enter id other now) client = guardOf w client := by
  simp [guardOf, AuthWorld.enter, h]

theorem bounded_enter (h : ∀ client, Bounded limits pace start (guardOf w client)) {now : Nat}
    (hstart : start ≤ now) (hnow : now ≤ w.clock) (hfree : w.limiter.isBlocked client now = false)
    (hroom : (w.enter id client now).pending.length ≤ pace.attempts) (other : String) :
    Bounded limits pace start (guardOf (w.enter id client now) other) := by
  by_cases hclient : client = other
  · subst hclient
    rw [guardOf_admit_self]
    refine (h client).enter hstart hnow ?_ ?_
    · rw [← hfree, isBlocked_eq_blocks]
      rfl
    · have hle : (guardOf w client).pending.length ≤ w.pending.length := by
        rw [guardOf, List.length_map]
        exact List.length_filter_le _ _
      exact lt_of_le_of_lt hle hroom
  · rw [guardOf_admit_other _ _ _ hclient]
    exact h other

theorem entryOf_recordSuccess (limiter : AdminAuthLimiter) (client : String) :
    entryOf (limiter.recordSuccess client) client = none := by
  simp [entryOf, AdminAuthLimiter.recordSuccess]

theorem bounded_succeed (h : ∀ client, Bounded limits pace start (guardOf w client))
    (hids : (w.pending.map Attempt.id).Nodup) {attempt : Attempt} (hpending : attempt ∈ w.pending)
    (other : String) :
    Bounded limits pace start (guardOf (w.succeed attempt.id attempt.client) other) := by
  by_cases hclient : attempt.client = other
  · have hsucceed := (h other).succeed (pending_settle_self hids hpending hclient)
    have hentry : entryOf (w.limiter.recordSuccess attempt.client) other = none :=
      hclient ▸ entryOf_recordSuccess _ _
    have hfailed : (w.failed.filter fun a => a.client ≠ attempt.client).filter
        (fun a => a.client = other) = [] := by
      rw [List.filter_filter, List.filter_eq_nil_iff]
      intro a ha
      simp [← hclient]
    rw [guardOf, AuthWorld.succeed, hfailed, hentry]
    exact hsucceed
  · have hentry : entryOf (w.limiter.recordSuccess attempt.client) other = entryOf w.limiter other := by
      rw [entryOf, AdminAuthLimiter.recordSuccess, getElem?_erase_of_ne _ (Ne.symm hclient), entryOf]
    have hfailed : (w.failed.filter fun a => a.client ≠ attempt.client).filter
        (fun a => a.client = other) = w.failed.filter fun a => a.client = other := by
      rw [List.filter_filter]
      apply List.filter_congr
      intro a ha
      by_cases ha' : a.client = other
      · simp [ha', Ne.symm hclient]
      · simp [ha']
    rw [guardOf, AuthWorld.succeed, hfailed, hentry, pending_settle_other hids hpending hclient]
    exact h other

/-- The entry stays, or its window is over and it goes. -/
theorem pruned_cases (limiter : AdminAuthLimiter) (client : String) (now : Nat) :
    (limiter.pruned now)[client]?.map windowOf = entryOf limiter client ∨
      (limiter.pruned now)[client]?.map windowOf = none ∧
        ∃ window, entryOf limiter client = some window ∧ ¬window.Open limits now := by
  rw [AdminAuthLimiter.pruned]
  split
  next =>
    rw [Std.TreeMap.getElem?_filter', entryOf]
    cases hentry : limiter.failures[client]? with
    | none => exact .inl rfl
    | some entry =>
        by_cases hopen : (windowOf entry).Open limits now
        · refine .inl ?_
          rw [Option.filter_some_pos (by rw [inWindow_iff]; exact decide_eq_true hopen)]
        · refine .inr ⟨?_, _, rfl, hopen⟩
          rw [Option.filter_some_neg (by rw [inWindow_iff]; simpa using hopen)]
          rfl
  next => exact .inl rfl

theorem bounded_pruned (h : Bounded limits pace start (guardOf w client)) {now : Nat}
    (hnow : now ≤ w.clock) :
    Bounded limits pace start
      { guardOf w client with entry := (w.limiter.pruned now)[client]?.map windowOf } := by
  rcases pruned_cases w.limiter client now with hsame | ⟨hnone, window, hentry, hover⟩
  · rw [hsame]
    exact h
  · rw [hnone]
    exact h.forget hnow hentry hover

theorem guardOf_fail_other (hids : (w.pending.map Attempt.id).Nodup) {attempt : Attempt}
    (hpending : attempt ∈ w.pending) (hclient : attempt.client ≠ client) :
    guardOf (w.fail attempt.id attempt.client attempt.now) client =
      { guardOf w client with
        entry := (w.limiter.pruned attempt.now)[client]?.map windowOf } := by
  rw [guardOf, AuthWorld.fail, pending_settle_other hids hpending hclient, entryOf,
    recordFailure_other (Ne.symm hclient), List.filter_cons_of_neg (by simpa using hclient)]
  rfl

/-- The failure counts in the open window or opens one, and the count is far
from the end of u32. -/
theorem bounded_fail_self (h : Bounded limits pace start (guardOf w client))
    (hdelay : pace.delay < adminAuthWindow) (hpace : pace.attempts ≤ requestConcurrency)
    (hids : (w.pending.map Attempt.id).Nodup) {attempt : Attempt} (hpending : attempt ∈ w.pending)
    (hclient : attempt.client = client) (hnow : attempt.now ≤ w.clock)
    (hlate : w.clock ≤ attempt.now + pace.delay) :
    (w.limiter.recordFailure client attempt.now).1 = .ok () ∧
      Bounded limits pace start (guardOf (w.fail attempt.id client attempt.now) client) := by
  have hpruned := bounded_pruned h hnow
  have hfail := hpruned.fail (by decide) hdelay (pending_settle_self hids hpending hclient) hlate
  have hcounted := (hfail.entry_le rfl).trans (perWindow_lt hpace).le
  have hcount : ∀ entry, (w.limiter.pruned attempt.now)[client]? = some entry →
      entry.1 ≤ u32Max := by
    intro entry hentry
    have hle := hpruned.entry_le (w := windowOf entry) (by simp [hentry])
    exact hle.trans (perWindow_lt hpace).le
  have hself := recordFailure_self hcount
  rw [min_eq_left hcounted] at hself
  refine ⟨?_, ?_⟩
  · rw [counted_windowOf] at hcounted
    rw [AdminAuthLimiter.recordFailure, Std.TreeMap.getD_eq_getD_getElem?, if_pos]
    unfold u32Max at hcounted
    exact Nat.lt_of_le_pred (by decide) hcounted
  · have hfailures : (guardOf (w.fail attempt.id client attempt.now) client).failures =
        (guardOf w client).failures + 1 := by
      simp [guardOf, AuthWorld.fail]
    have heq : guardOf (w.fail attempt.id client attempt.now) client =
        ⟨w.clock, some (counted limits attempt.now
            ((w.limiter.pruned attempt.now)[client]?.map windowOf)),
          ((w.settle attempt.id).filter fun other => other.client = client).map Attempt.now,
          (guardOf w client).failures + 1⟩ := by
      rw [← hfailures, ← hself]
      rfl
    rw [heq]
    exact hfail

theorem bounded_fail (h : ∀ client, Bounded limits pace start (guardOf w client))
    (hdelay : pace.delay < adminAuthWindow) (hpace : pace.attempts ≤ requestConcurrency)
    (hids : (w.pending.map Attempt.id).Nodup) {attempt : Attempt} (hpending : attempt ∈ w.pending)
    (hnow : attempt.now ≤ w.clock) (hlate : w.clock ≤ attempt.now + pace.delay) (other : String) :
    Bounded limits pace start
      (guardOf (w.fail attempt.id attempt.client attempt.now) other) := by
  by_cases hclient : attempt.client = other
  · subst hclient
    exact (bounded_fail_self (h _) hdelay hpace hids hpending rfl hnow hlate).2
  · rw [guardOf_fail_other hids hpending hclient]
    exact bounded_pruned (h other) hnow

end Sections

section Invariant

/-- The client never presents the token. -/
def Guesses (adminApiToken : Option String) (parts : Nat → Parts) (client : String) : Prop :=
  ∀ id, (parts id).client = client → ¬(parts id).Presents adminApiToken

/-- The client presents the token every time. -/
def Knows (adminApiToken : Option String) (parts : Nat → Parts) (client : String) : Prop :=
  ∀ id, (parts id).client = client → (parts id).Presents adminApiToken

/-- What the world shows of a request at this stage. -/
def Fits (adminApiToken : Option String) (parts : Nat → Parts) (start : Nat) (w : AuthWorld)
    (id : Nat) : Stage → Prop
  | .arrived => True
  | .read now => start ≤ now ∧ now ≤ w.clock
  | .admitted now => now ≤ w.clock ∧ ⟨id, (parts id).client, now⟩ ∈ w.pending
  | .barred => ¬Knows adminApiToken parts (parts id).client
  | .granted => (parts id).Presents adminApiToken
  | .denied => ¬(parts id).Presents adminApiToken ∧
      (Guesses adminApiToken parts (parts id).client →
        ∃ attempt ∈ w.failed, attempt.id = id ∧ attempt.client = (parts id).client)
  | .panicked => False

structure Recorded (adminApiToken : Option String) (parts : Nat → Parts) (pace : Pace) (start : Nat)
    (w : AuthWorld) : Prop where
  ids : (w.pending.map Attempt.id).Nodup
  wrong : ∀ attempt ∈ w.failed, attempt.client = (parts attempt.id).client ∧
    ¬(parts attempt.id).Presents adminApiToken
  bounded : ∀ client, Bounded limits pace start (guardOf w client)

structure Serves (adminApiToken : Option String) (parts : Nat → Parts) (pace : Pace) (start : Nat)
    (c : Server) : Prop where
  ends : Ends (rules adminApiToken) (Concludes adminApiToken) c
  own : ∀ id m p, c.threads id = .at m p → m.parts = parts id
  fits : ∀ id m p, c.threads id = .at m p → Fits adminApiToken parts start c.shared id m.stage
  pending : ∀ attempt ∈ c.shared.pending, ∀ m p, c.threads attempt.id = .at m p →
    m.stage = .admitted attempt.now
  recorded : Recorded adminApiToken parts pace start c.shared

theorem Fits.mono {stage : Stage} (h : Fits adminApiToken parts start w id stage)
    (hclock : w.clock ≤ u.clock) (hpending : ∀ attempt ∈ w.pending, attempt.id = id → attempt ∈ u.pending)
    (hfailed : ∀ attempt ∈ w.failed, Guesses adminApiToken parts attempt.client → attempt ∈ u.failed) :
    Fits adminApiToken parts start u id stage := by
  cases stage with
  | arrived | barred | granted | panicked => exact h
  | read now => exact ⟨h.1, h.2.trans hclock⟩
  | admitted now => exact ⟨h.1.trans hclock, hpending _ h.2 rfl⟩
  | denied =>
      refine ⟨h.1, fun hguesses => ?_⟩
      obtain ⟨attempt, hmem, hid, hclient⟩ := h.2 hguesses
      exact ⟨attempt, hfailed attempt hmem (hclient ▸ hguesses), hid, hclient⟩

theorem Serves.wait (h : Serves adminApiToken parts pace start c) {clock : Nat}
    (hle : c.shared.clock ≤ clock) :
    Serves adminApiToken parts pace start ⟨{ c.shared with clock := clock }, c.threads⟩ where
  ends := h.ends
  own := h.own
  fits id m p hid := (h.fits id m p hid).mono hle (fun _ hmem _ => hmem) fun _ hmem _ => hmem
  pending := h.pending
  recorded := ⟨h.recorded.ids, h.recorded.wrong, fun client => (h.recorded.bounded client).wait hle⟩

/-- What one answer has to leave in order. -/
theorem Serves.put (h : Serves adminApiToken parts pace start c) {m m' : Mode} {q : AuthRequest}
    {next : q.Answer → Extraction} {r : q.Answer} (hid : c.threads id = .at m (.ask q next))
    (hafter : m' = m.after q r) (hclock : c.shared.clock ≤ u.clock)
    (hothers : ∀ attempt ∈ c.shared.pending, attempt.id ≠ id → attempt ∈ u.pending)
    (hfailed : ∀ attempt ∈ c.shared.failed, Guesses adminApiToken parts attempt.client →
      attempt ∈ u.failed)
    (hpending : ∀ attempt ∈ u.pending, attempt.id ≠ id ∧ attempt ∈ c.shared.pending ∨
      attempt.id = id ∧ m'.stage = .admitted attempt.now)
    (hfits : Fits adminApiToken parts start u id m'.stage)
    (hrecorded : Recorded adminApiToken parts pace start u) :
    Serves adminApiToken parts pace start (c.put u id (.at m' (next r))) := by
  refine ⟨?_, ?_, ?_, ?_, hrecorded⟩
  · apply h.ends.put
    intro m'' p heq
    cases heq
    obtain ⟨m'', hrule, hnext⟩ := h.ends.asks hid r
    rwa [hafter, ← hrule.2]
  · intro other m'' p hother
    by_cases hsame : other = id
    · subst hsame
      rw [put_threads_self] at hother
      cases hother
      rw [hafter]
      exact h.own other m _ hid
    · rw [put_threads_of_ne _ hsame] at hother
      exact h.own _ _ _ hother
  · intro other m'' p hother
    by_cases hsame : other = id
    · subst hsame
      rw [put_threads_self] at hother
      cases hother
      exact hfits
    · rw [put_threads_of_ne _ hsame] at hother
      refine (h.fits _ _ _ hother).mono hclock (fun attempt hmem heq => ?_) hfailed
      exact hothers attempt hmem (heq ▸ hsame)
  · intro attempt hmem m'' p hother
    rcases hpending attempt hmem with ⟨hne, hold⟩ | ⟨heq, hstage⟩
    · rw [put_threads_of_ne _ hne] at hother
      exact h.pending attempt hold m'' p hother
    · rw [heq, put_threads_self] at hother
      cases hother
      exact hstage

variable {m : Mode}

/-- The request before its attempt is admitted has none pending. -/
theorem Serves.not_pending (h : Serves adminApiToken parts pace start c) {p : Extraction}
    (hid : c.threads id = .at m p) (hstage : ∀ now, m.stage ≠ .admitted now) :
    ∀ attempt ∈ c.shared.pending, attempt.id ≠ id := by
  rintro attempt hmem rfl
  exact hstage _ (h.pending attempt hmem m p hid)

theorem mem_settle {attempt : Attempt} :
    attempt ∈ w.settle id ↔ attempt ∈ w.pending ∧ attempt.id ≠ id := by
  simp [AuthWorld.settle]

theorem ids_settle (hids : (w.pending.map Attempt.id).Nodup) (id : Nat) :
    ((w.settle id).map Attempt.id).Nodup :=
  hids.sublist (List.filter_sublist.map _)

theorem mem_failed_succeed {attempt : Attempt} :
    attempt ∈ (w.succeed id client).failed ↔ attempt ∈ w.failed ∧ attempt.client ≠ client := by
  simp [AuthWorld.succeed]

theorem isBlocked_eq_false (h : Recorded adminApiToken parts pace start w)
    (hknows : Knows adminApiToken parts client) (now : Nat) :
    w.limiter.isBlocked client now = false := by
  rw [isBlocked_eq_blocks]
  apply (h.bounded client).blocks_eq_false
  rw [guardOf, List.length_eq_zero_iff, List.filter_eq_nil_iff]
  intro attempt hmem hclient
  obtain ⟨hparts, hwrong⟩ := h.wrong attempt hmem
  exact hwrong (hknows attempt.id (hparts ▸ of_decide_eq_true hclient))

theorem Serves.isBlocked (h : Serves adminApiToken parts pace start c) {reading : Nat}
    {next : Bool → Extraction} (hid : c.threads id = .at m (.ask (.isBlocked client reading) next))
    (hallowed : Allowed adminApiToken m (.isBlocked client reading))
    (hroom : (if c.shared.limiter.isBlocked client reading then c.shared
      else c.shared.enter id client reading).pending.length ≤ pace.attempts) :
    Serves adminApiToken parts pace start
      (c.put (if c.shared.limiter.isBlocked client reading then c.shared
          else c.shared.enter id client reading) id
        (.at (m.after (.isBlocked client reading) (c.shared.limiter.isBlocked client reading))
          (next (c.shared.limiter.isBlocked client reading)))) := by
  obtain ⟨p, stage⟩ := m
  cases stage with
  | read now =>
      obtain ⟨rfl, rfl⟩ := hallowed
      have hparts : p = parts id := h.own _ _ _ hid
      obtain ⟨hstart, hnow⟩ := h.fits _ _ _ hid
      have hnone := h.not_pending hid (by intro now; exact nofun)
      cases hblocked : c.shared.limiter.isBlocked p.client reading with
      | true =>
          rw [if_pos rfl]
          apply h.put hid rfl le_rfl (fun _ hmem _ => hmem) (fun _ hmem _ => hmem)
          · exact fun attempt hmem => .inl ⟨hnone attempt hmem, hmem⟩
          · intro hknows
            rw [hparts, isBlocked_eq_false h.recorded hknows] at hblocked
            cases hblocked
          · exact h.recorded
      | false =>
          rw [hblocked, if_neg Bool.false_ne_true] at hroom
          rw [if_neg Bool.false_ne_true]
          apply h.put hid rfl
          · exact le_rfl
          · exact fun _ hmem _ => List.mem_cons_of_mem _ hmem
          · exact fun _ hmem _ => hmem
          · intro attempt hmem
            rcases List.mem_cons.mp hmem with rfl | hmem
            · exact .inr ⟨rfl, rfl⟩
            · exact .inl ⟨hnone attempt hmem, hmem⟩
          · exact ⟨hnow, hparts ▸ List.mem_cons_self⟩
          · refine ⟨List.nodup_cons.mpr ⟨?_, h.recorded.ids⟩, h.recorded.wrong, ?_⟩
            · rintro hmem
              obtain ⟨attempt, hmem, heq⟩ := List.mem_map.mp hmem
              exact hnone attempt hmem heq
            · exact bounded_enter h.recorded.bounded hstart hnow hblocked hroom
  | arrived | admitted | barred | granted | denied | panicked => exact hallowed.elim

theorem Serves.recordSuccess (h : Serves adminApiToken parts pace start c)
    {next : Unit → Extraction} (hid : c.threads id = .at m (.ask (.recordSuccess client) next))
    (hallowed : Allowed adminApiToken m (.recordSuccess client)) :
    Serves adminApiToken parts pace start
      (c.put (c.shared.succeed id client) id (.at (m.after (.recordSuccess client) ()) (next ()))) := by
  obtain ⟨p, stage⟩ := m
  cases stage with
  | admitted now =>
      obtain ⟨rfl, hpresents⟩ := hallowed
      obtain rfl : p = parts id := h.own _ _ _ hid
      obtain ⟨hnow, hmem⟩ := h.fits _ _ _ hid
      apply h.put hid rfl
      · exact le_rfl
      · exact fun attempt hmem hne => mem_settle.mpr ⟨hmem, hne⟩
      · intro attempt hmem hguesses
        refine mem_failed_succeed.mpr ⟨hmem, fun heq => ?_⟩
        exact hguesses id heq.symm hpresents
      · exact fun attempt hmem => .inl (mem_settle.mp hmem).symm
      · exact hpresents
      · refine ⟨ids_settle h.recorded.ids id, fun attempt hmem => ?_, ?_⟩
        · exact h.recorded.wrong attempt (mem_failed_succeed.mp hmem).1
        · exact bounded_succeed h.recorded.bounded h.recorded.ids hmem
  | arrived | read | barred | granted | denied | panicked => exact hallowed.elim

/-- The count is far from its end, so the failure is recorded. -/
theorem Serves.recordFailure (h : Serves adminApiToken parts pace start c)
    (hdelay : pace.delay < adminAuthWindow) (hpace : pace.attempts ≤ requestConcurrency)
    {reading : Nat} {next : Panicking Unit → Extraction}
    (hid : c.threads id = .at m (.ask (.recordFailure client reading) next))
    (hallowed : Allowed adminApiToken m (.recordFailure client reading))
    (hlate : c.shared.clock ≤ reading + pace.delay) :
    Serves adminApiToken parts pace start
      (c.put (c.shared.fail id client reading) id
        (.at (m.after (.recordFailure client reading)
            (c.shared.limiter.recordFailure client reading).1)
          (next (c.shared.limiter.recordFailure client reading).1))) := by
  obtain ⟨p, stage⟩ := m
  cases stage with
  | admitted now =>
      obtain ⟨rfl, rfl, hwrong⟩ := hallowed
      obtain rfl : p = parts id := h.own _ _ _ hid
      obtain ⟨hnow, hmem⟩ := h.fits _ _ _ hid
      have hok := (bounded_fail_self (h.recorded.bounded _) hdelay hpace h.recorded.ids hmem rfl hnow
        hlate).1
      have hbounded := bounded_fail h.recorded.bounded hdelay hpace h.recorded.ids hmem hnow hlate
      dsimp only at hok
      rw [hok]
      apply h.put hid rfl
      · exact le_rfl
      · exact fun attempt hmem hne => mem_settle.mpr ⟨hmem, hne⟩
      · exact fun attempt hmem _ => List.mem_cons_of_mem _ hmem
      · exact fun attempt hmem => .inl (mem_settle.mp hmem).symm
      · exact ⟨hwrong, fun _ => ⟨_, List.mem_cons_self, rfl, rfl⟩⟩
      · refine ⟨ids_settle h.recorded.ids id, fun attempt hmem => ?_, ?_⟩
        · rcases List.mem_cons.mp hmem with rfl | hmem
          · exact ⟨rfl, hwrong⟩
          · exact h.recorded.wrong attempt hmem
        · exact hbounded
  | arrived | read | barred | granted | denied | panicked => exact hallowed.elim

theorem Serves.answer (h : Serves adminApiToken parts pace start c)
    (hdelay : pace.delay < adminAuthWindow) (hpace : pace.attempts ≤ requestConcurrency)
    {q : AuthRequest} {next : q.Answer → Extraction} {r : q.Answer}
    (hid : c.threads id = .at m (.ask q next)) (ha : c.shared.answered id q = (r, u))
    (hpaced : Paced pace u q) :
    Serves adminApiToken parts pace start (c.put u id (.at (m.after q r) (next r))) := by
  obtain ⟨_, ⟨hallowed, -⟩, -⟩ := h.ends.asks hid r
  cases q with
  | now =>
      obtain ⟨rfl, rfl⟩ := Prod.mk.inj ha
      have hstage : m.stage = .arrived := by
        obtain ⟨p, stage⟩ := m
        cases stage <;> first | rfl | exact hallowed.elim
      have hnone := h.not_pending hid (by rw [hstage]; intro now; exact nofun)
      apply h.put hid rfl le_rfl (fun _ hmem _ => hmem) (fun _ hmem _ => hmem)
      · exact fun attempt hmem => .inl ⟨hnone attempt hmem, hmem⟩
      · exact ⟨(h.recorded.bounded "").clock, le_rfl⟩
      · exact h.recorded
  | isBlocked client reading =>
      obtain ⟨rfl, rfl⟩ := Prod.mk.inj ha
      exact h.isBlocked hid hallowed hpaced
  | recordSuccess client =>
      obtain ⟨-, rfl⟩ := Prod.mk.inj ha
      exact h.recordSuccess hid hallowed
  | recordFailure client reading =>
      obtain ⟨rfl, rfl⟩ := Prod.mk.inj ha
      exact h.recordFailure hdelay hpace hid hallowed hpaced
  | recordHttpAuthFailure route =>
      obtain ⟨-, rfl⟩ := Prod.mk.inj ha
      obtain ⟨p, stage⟩ := m
      cases stage with
      | denied =>
          have hnone := h.not_pending hid (by intro now; exact nofun)
          apply h.put hid rfl le_rfl (fun _ hmem _ => hmem) (fun _ hmem _ => hmem)
          · exact fun attempt hmem => .inl ⟨hnone attempt hmem, hmem⟩
          · exact h.fits _ _ _ hid
          · exact h.recorded
      | arrived | read | admitted | barred | granted | panicked => exact hallowed.elim

theorem Serves.drop (h : Serves adminApiToken parts pace start c) (id : Nat) :
    Serves adminApiToken parts pace start (c.put c.shared id .dropped) := by
  have hthread : ∀ other m p, (c.put c.shared id .dropped).threads other = .at m p →
      c.threads other = .at m p := by
    intro other m p hother
    by_cases hsame : other = id
    · rw [hsame, put_threads_self] at hother
      cases hother
    · rwa [put_threads_of_ne _ hsame] at hother
  refine ⟨?_, fun other m p hother => ?_, fun other m p hother => ?_, ?_, h.recorded⟩
  · exact fun other m p hother => h.ends other m p (hthread other m p hother)
  · exact h.own other m p (hthread other m p hother)
  · exact h.fits other m p (hthread other m p hother)
  · exact fun attempt hmem m p hother => h.pending attempt hmem m p (hthread _ m p hother)

theorem Serves.advances (h : Serves adminApiToken parts pace start c)
    (hdelay : pace.delay < adminAuthWindow) (hpace : pace.attempts ≤ requestConcurrency)
    (ha : Advances (requests pace) c d) : Serves adminApiToken parts pace start d := by
  cases ha with
  | answer hid ha =>
      obtain ⟨clock, hle, ha, hpaced⟩ := ha
      exact (h.wait hle).answer hdelay hpace hid ha hpaced
  | drop id => exact h.drop id

theorem serving_serves : Serves adminApiToken parts pace start (serving adminApiToken parts start) where
  ends id m p hid := by
    cases hid
    exact fromRequestParts_follows _
  own id m p hid := by
    cases hid
    rfl
  fits id m p hid := by
    cases hid
    trivial
  pending attempt hmem := absurd hmem List.not_mem_nil
  recorded := ⟨List.nodup_nil, fun _ h => absurd h List.not_mem_nil, fun _ => bounded_fresh⟩

theorem reaches_serves (hdelay : pace.delay < adminAuthWindow)
    (hpace : pace.attempts ≤ requestConcurrency)
    (hr : Relation.ReflTransGen (Advances (requests pace)) (serving adminApiToken parts start) c) :
    Serves adminApiToken parts pace start c := by
  induction hr with
  | refl => exact serving_serves
  | tail _ ha ih => exact ih.advances hdelay hpace ha

end Invariant

section Samples

instance (pace : Pace) (w : AuthWorld) (q : AuthRequest) : Decidable (Paced pace w q) :=
  match q with
  | .isBlocked _ _ | .recordFailure _ _ => inferInstanceAs (Decidable (_ ≤ _))
  | .now | .recordSuccess _ | .recordHttpAuthFailure _ => inferInstanceAs (Decidable True)

def answering (pace : Pace) (id : Nat) : Player AuthRequest AuthRequest.Answer AuthWorld := fun q w =>
  if Paced pace (w.answered id q).2 q then some (w.answered id q) else none

theorem answer_answering {pace : Pace} (id : Nat) (q : AuthRequest) (w : AuthWorld) (r : q.Answer)
    (u : AuthWorld) (h : answering pace id q w = some (r, u)) : (requests pace).answer id q w r u := by
  rw [answering] at h
  split at h
  next hpaced =>
    have heq := Option.some.inj h
    rw [heq] at hpaced
    exact ⟨w.clock, le_rfl, heq, hpaced⟩
  next => cases h

/-- The first two requests guess, and overlap; every other presents the token. -/
def sampleParts (id : Nat) : Parts :=
  if id < 2 then ⟨some "1.2.3.4", some (.text "Bearer guess"), some "/metrics"⟩
  else ⟨some "5.6.7.8", some (.text "Bearer secret"), some "/metrics"⟩

def samplePace : Pace := ⟨2, 1000⟩

def sampleServer : Server :=
  (serving (some "secret") sampleParts 0).driveAll (answering samplePace) Mode.after
    [0, 1, 0, 1, 1, 0, 1, 0, 2, 2, 2]

theorem sample_reached :
    Relation.ReflTransGen (Advances (requests samplePace)) (serving (some "secret") sampleParts 0)
      sampleServer :=
  advances_driveAll answer_answering _ _

theorem sample_guesses : Guesses (some "secret") sampleParts "1.2.3.4" := by
  intro id hclient hpresents
  obtain ⟨expected, htoken, hbearer⟩ := hpresents
  rw [sampleParts] at hclient hbearer
  split at hclient
  next hlt =>
    rw [if_pos hlt, ← htoken] at hbearer
    revert hbearer
    decide +kernel
  next => exact absurd hclient (by decide)

theorem sample_results :
    [0, 1, 2].map (fun id => Thread.result? (sampleServer.threads id)) =
      [some (.ok (.error unauthorized)), some (.ok (.error unauthorized)), some (.ok (.ok ()))] := by
  decide +kernel

end Samples

/-- However the requests of all clients overlap, a client without the token has
no more than so many guesses compared with it. -/
theorem unauthorized_le (hdelay : pace.delay < adminAuthWindow)
    (hpace : pace.attempts ≤ requestConcurrency)
    (hr : Relation.ReflTransGen (Advances (requests pace)) (serving adminApiToken parts start) c)
    (hguesses : Guesses adminApiToken parts client) {ids : List Nat} (hnodup : ids.Nodup)
    (hids : ∀ id ∈ ids, (parts id).client = client ∧
      ∃ m, c.threads id = .at m (.done (.ok (.error unauthorized)))) :
    ids.length ≤ (maxAdminAuthFailures + pace.attempts - 1) *
      ((c.shared.clock - start) / (adminAuthWindow - pace.delay) + 1) := by
  have h := reaches_serves hdelay hpace hr
  have hfailed : ids ⊆ (c.shared.failed.filter fun attempt => attempt.client = client).map
      Attempt.id := by
    intro id hid
    obtain ⟨hclient, m, hdone⟩ := hids id hid
    have hstage : m.stage = .denied := stage_of_unauthorized (h.ends.done hdone)
    have hfits := h.fits id m _ hdone
    rw [hstage] at hfits
    obtain ⟨attempt, hmem, rfl, heq⟩ := hfits.2 (hclient ▸ hguesses)
    exact List.mem_map_of_mem (List.mem_filter.mpr ⟨hmem, by simpa [heq] using hclient⟩)
  calc ids.length
      ≤ ((c.shared.failed.filter fun attempt => attempt.client = client).map Attempt.id).length :=
        (List.subperm_of_subset hnodup hfailed).length_le
    _ = (guardOf c.shared client).failures := List.length_map _
    _ ≤ _ := (h.recorded.bounded client).failures_le

theorem unauthorized_le_sample :
    [0, 1].length ≤ (maxAdminAuthFailures + samplePace.attempts - 1) *
      ((sampleServer.shared.clock - 0) / (adminAuthWindow - samplePace.delay) + 1) := by
  have hresults := sample_results
  simp only [List.map_cons, List.map_nil, List.cons.injEq] at hresults
  obtain ⟨hfirst, hsecond, -⟩ := hresults
  refine unauthorized_le (by decide) (by decide) sample_reached sample_guesses (by decide) ?_
  intro id hid
  rcases List.mem_cons.mp hid with rfl | hid
  · exact ⟨by decide, exists_of_result? hfirst⟩
  · obtain rfl := List.mem_singleton.mp hid
    exact ⟨by decide, exists_of_result? hsecond⟩

/-- A request never ends in a panic. It is granted only with the token, refused
as unauthorized only without it, and what others do never keeps out a client
that always presents it. -/
theorem access_iff_presents (hdelay : pace.delay < adminAuthWindow)
    (hpace : pace.attempts ≤ requestConcurrency)
    (hr : Relation.ReflTransGen (Advances (requests pace)) (serving adminApiToken parts start) c)
    {m : Mode} {r : Panicking (Except ApiError Unit)} (hdone : c.threads id = .at m (.done r)) :
    ∃ access, r = .ok access ∧
      (access = .ok () → (parts id).Presents adminApiToken) ∧
      (access = .error unauthorized → ¬(parts id).Presents adminApiToken) ∧
      (Knows adminApiToken parts (parts id).client → access = .ok ()) := by
  have h := reaches_serves hdelay hpace hr
  have hend := h.ends.done hdone
  have hfits := h.fits id m _ hdone
  obtain ⟨p, stage⟩ := m
  cases stage with
  | arrived =>
      obtain ⟨hnone, rfl⟩ := hend
      refine ⟨_, rfl, nofun, fun heq => absurd heq (by decide), fun hknows => ?_⟩
      obtain ⟨_, hsome, -⟩ := hknows id rfl
      rw [hnone] at hsome
      cases hsome
  | barred =>
      obtain rfl : r = _ := hend
      refine ⟨_, rfl, nofun, fun heq => absurd heq (by decide), fun hknows => ?_⟩
      exact absurd hknows hfits
  | granted =>
      obtain rfl : r = _ := hend
      exact ⟨_, rfl, fun _ => hfits, nofun, fun _ => rfl⟩
  | denied =>
      obtain rfl : r = _ := hend
      refine ⟨_, rfl, nofun, fun _ => hfits.1, fun hknows => ?_⟩
      exact absurd (hknows id rfl) hfits.1
  | panicked => exact hfits.elim
  | read | admitted => exact hend.elim

theorem access_iff_presents_sample :
    ∃ access, (.ok (.ok ()) : Panicking (Except ApiError Unit)) = .ok access ∧
      (access = .ok () → (sampleParts 2).Presents (some "secret")) ∧
      (access = .error unauthorized → ¬(sampleParts 2).Presents (some "secret")) ∧
      (Knows (some "secret") sampleParts (sampleParts 2).client → access = .ok ()) := by
  have hresults := sample_results
  simp only [List.map_cons, List.map_nil, List.cons.injEq] at hresults
  obtain ⟨m, hdone⟩ := exists_of_result? hresults.2.2.1
  exact access_iff_presents (by decide) (by decide) sample_reached hdone

end So4Oracle.AdminLockout
