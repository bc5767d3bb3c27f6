import So4Oracle.Library.Budgets
import So4Oracle.ReadyRuns

namespace So4Oracle.ReadyLock

open Library.Requests Library.Safety Library.Protocol Library.Floats Library.Threads Library.Tasks
  Library.Records Library.Journals Library.Budgets State Admin StellarRpc XlmBalance KeeperBalance
  StatusSnapshot Ready ReadyRuns

variable {F : Type} {decode : String → Except String (List HorizonBalanceEntry)} {ops : FloatOps F}
  {settings : ReadySettings F}

section World

/-- How far a request is with the cache. -/
inductive Stage
  | outside
  | holding (cache : ReadyCache)
  | recent
  | checking
  | concluded
  | released
  deriving DecidableEq

def Stage.holds : Stage → Bool
  | .holding _ | .recent | .checking | .concluded => true
  | .outside | .released => false

/-- What the cache and the clock say about the age of the last outcome. -/
def stageOf (cache : ReadyCache) (now : Nat) : Stage :=
  match cache.lastChecked with
  | some last => if now - last < readyCacheTtl then .recent else .checking
  | none => .checking

def Stage.after : Stage → (q : ReadyRequest) → q.Answer → Stage
  | _, .lockCache, cache =>
      match cache.lastChecked with
      | some _ => .holding cache
      | none => .checking
  | .holding cache, .instant, now => stageOf cache now
  | .checking, .store _, _ => .concluded
  | _, .unlockCache, _ => .released
  | stage, _, _ => stage

abbrev ReadyEntry := Entry ReadyRequest ReadyRequest.Answer

/-- The cache and which request has it locked, with all that was asked. -/
structure ReadyWorld where
  clock : Nat
  cache : ReadyCache
  holder : Option Nat
  journal : List ReadyEntry

namespace ReadyWorld

def answered (w : ReadyWorld) (id clock : Nat) (q : ReadyRequest) (r : q.Answer) : ReadyWorld where
  clock := clock
  cache := match q with
    | .store lastError => ⟨some clock, lastError⟩
    | _ => w.cache
  holder := match q with
    | .lockCache => some id
    | .unlockCache => none
    | _ => w.holder
  journal := w.journal ++ [⟨id, clock, ⟨q, r⟩⟩]

/-- The lock is waited for, the clock only goes on, and a probe is cut short only
past its deadline. What the probes find, and what the loops have written of
prices and cycles, may be anything. -/
def Replies (w : ReadyWorld) (clock : Nat) : (q : ReadyRequest) → q.Answer → Prop
  | .lockCache, cache => w.holder = none ∧ cache = w.cache
  | .instant, now => now = clock
  | .probe deadline _, none => deadline ≤ clock
  | _, _ => True

end ReadyWorld

def readiness : Semantics ReadyRequest ReadyRequest.Answer Stage ReadyWorld where
  answer id q w r u := ∃ clock, w.clock ≤ clock ∧ w.Replies clock q r ∧ u = w.answered id clock q r
  after := Stage.after

/-- A request can be dropped anywhere, and then gives back the lock. -/
def anywhere : Cut Stage ReadyWorld := fun _ stage w u =>
  u = { w with holder := if stage.holds then none else w.holder }

abbrev ReadyServer := Config ReadyRequest ReadyRequest.Answer Stage ReadyWorld ReadyOutcome

/-- Every readiness request that will ever arrive, before its first step. -/
def serving (decode : String → Except String (List HorizonBalanceEntry)) (ops : FloatOps F)
    (settings : ReadySettings F) (start : Nat) : ReadyServer where
  shared := ⟨start, ⟨none, none⟩, none, []⟩
  threads _ := .at .outside (ready decode ops settings)

end World

section Rules

def Allowed : Stage → ReadyRequest → Prop
  | .outside, .pricesEmpty | .outside, .readCycle | .outside, .lockCache => True
  | .holding _, .instant => True
  | .recent, .unlockCache | .concluded, .unlockCache => True
  | .checking, .instant | .checking, .probe _ _ | .checking, .store _ | .checking, .unlockCache => True
  | _, _ => False

def rules : Rules ReadyRequest ReadyRequest.Answer Stage :=
  fun stage q r stage' => Allowed stage q ∧ stage' = stage.after q r

theorem timeoutAt_follows {α : Type} (deadline : Nat) (p : ProbeProgram α) :
    Follows rules .checking (timeoutAt deadline p) fun _ stage => stage = .checking := by
  induction p with
  | done a => rfl
  | ask q next ih =>
      rw [timeoutAt]
      refine fun answer => ⟨_, ⟨trivial, rfl⟩, ?_⟩
      cases answer with
      | none => rfl
      | some r => exact ih r

theorem conclude_follows (checkRes : Except ApiError Unit) :
    Follows rules .checking (conclude checkRes) fun _ _ => True :=
  fun _ => ⟨_, ⟨trivial, rfl⟩, fun _ => ⟨_, ⟨trivial, rfl⟩, trivial⟩⟩

theorem checkAgain_follows :
    Follows rules .checking (checkAgain decode ops settings) fun _ _ => True := by
  refine fun start => ⟨_, ⟨trivial, rfl⟩, ?_⟩
  simp only [Program.bind, Stage.after]
  apply Follows.bind
  apply (timeoutAt_follows _ _).mono
  rintro res _ rfl
  rcases res with _ | fault | checkRes
  · exact conclude_follows _
  · exact fun _ => ⟨_, ⟨trivial, rfl⟩, trivial⟩
  · exact conclude_follows checkRes

theorem readyCached_follows :
    Follows rules .outside (readyCached decode ops settings) fun _ _ => True := by
  rintro ⟨lastChecked, lastError⟩
  refine ⟨_, ⟨trivial, rfl⟩, ?_⟩
  cases lastChecked with
  | none => exact checkAgain_follows
  | some last =>
      refine fun now => ⟨_, ⟨trivial, rfl⟩, ?_⟩
      simp only [Program.bind, Stage.after, stageOf]
      split
      · exact fun _ => ⟨_, ⟨trivial, rfl⟩, trivial⟩
      · exact checkAgain_follows

theorem ready_follows : Follows rules .outside (ready decode ops settings) fun _ _ => True := by
  refine fun empty => ⟨_, ⟨trivial, rfl⟩, ?_⟩
  simp only [Program.bind]
  split
  · trivial
  · refine fun price => ⟨_, ⟨trivial, rfl⟩, ?_⟩
    simp only [Program.bind]
    split
    · trivial
    · refine fun keeper => ⟨_, ⟨trivial, rfl⟩, ?_⟩
      simp only [Program.bind]
      split
      · trivial
      · exact readyCached_follows

end Rules

section Journal

variable {w : ReadyWorld} {id clock : Nat}

def isStore : ReadyRequest → Bool
  | .store _ => true
  | _ => false

def isProbe : ReadyRequest → Bool
  | .probe _ _ => true
  | _ => false

/-- No probe follows a stored outcome before its time is over. -/
def Spaced (first second : ReadyEntry) : Prop :=
  isStore first.event.request = true → isProbe second.event.request = true →
    first.time + readyCacheTtl ≤ second.time

/-- The outcome in the cache has run out by then. -/
def RunOut (cache : ReadyCache) (clock : Nat) : Prop :=
  ∀ last, cache.lastChecked = some last → last + readyCacheTtl ≤ clock

/-- Some request stored what the cache holds. -/
def Stored (journal : List ReadyEntry) (cache : ReadyCache) : Prop :=
  ∀ last, cache.lastChecked = some last →
    ∃ id, ⟨id, last, ⟨.store cache.lastError, ()⟩⟩ ∈ journal

/-- A look at the clock after one at the cache is no earlier than the outcome in it. -/
def Aged (first second : Event ReadyRequest ReadyRequest.Answer) : Prop :=
  ∀ cache last now, first = ⟨.lockCache, cache⟩ → cache.lastChecked = some last →
    second = ⟨.instant, now⟩ → last ≤ now

structure Recorded (w : ReadyWorld) : Prop where
  past : ∀ entry ∈ w.journal, entry.time ≤ w.clock
  newest : ∀ entry ∈ w.journal, isStore entry.event.request = true →
    ∃ last, w.cache.lastChecked = some last ∧ entry.time ≤ last
  spaced : w.journal.Pairwise Spaced
  cached : Stored w.journal w.cache
  seen : ∀ id time cache, ⟨id, time, ⟨.lockCache, cache⟩⟩ ∈ w.journal → Stored w.journal cache
  aged : w.journal.Pairwise fun first second => Aged first.event second.event

theorem Stored.append {journal : List ReadyEntry} {cache : ReadyCache} (h : Stored journal cache)
    (entry : ReadyEntry) : Stored (journal ++ [entry]) cache := by
  intro last hlast
  obtain ⟨id, hmem⟩ := h last hlast
  exact ⟨id, List.mem_append_left _ hmem⟩

theorem Recorded.answered (h : Recorded w) (hclock : w.clock ≤ clock) {q : ReadyRequest}
    {r : q.Answer} (hreplies : w.Replies clock q r) (hprobe : isProbe q = true → RunOut w.cache clock) :
    Recorded (w.answered id clock q r) := by
  have hpast : ∀ entry ∈ (w.answered id clock q r).journal, entry.time ≤ clock := by
    intro entry hmem
    rcases List.mem_append.mp hmem with hmem | hmem
    · exact (h.past entry hmem).trans hclock
    · obtain rfl := List.mem_singleton.mp hmem
      exact Nat.le_refl clock
  have hspaced : (w.answered id clock q r).journal.Pairwise Spaced := by
    refine List.pairwise_append.mpr ⟨h.spaced, List.pairwise_singleton _ _, ?_⟩
    intro first hfirst second hsecond hstore hq
    obtain rfl := List.mem_singleton.mp hsecond
    obtain ⟨last, hlast, hle⟩ := h.newest first hfirst hstore
    exact (Nat.add_le_add_right hle _).trans (hprobe hq last hlast)
  have hseen : ∀ id' time cache,
      ⟨id', time, ⟨.lockCache, cache⟩⟩ ∈ (w.answered id clock q r).journal →
        Stored (w.answered id clock q r).journal cache := by
    intro id' time cache hmem
    rcases List.mem_append.mp hmem with hmem | hmem
    · exact (h.seen id' time cache hmem).append _
    · have heq := List.mem_singleton.mp hmem
      cases heq
      obtain ⟨-, rfl⟩ := hreplies
      exact h.cached.append _
  have haged : (w.answered id clock q r).journal.Pairwise
      fun first second => Aged first.event second.event := by
    refine List.pairwise_append.mpr ⟨h.aged, List.pairwise_singleton _ _, ?_⟩
    rintro ⟨id', time, event⟩ hfirst second hsecond cache last now hlock hlast hnow
    obtain rfl := List.mem_singleton.mp hsecond
    obtain rfl : event = ⟨.lockCache, cache⟩ := hlock
    cases hnow
    obtain ⟨other, hstored⟩ := h.seen id' time cache hfirst last hlast
    obtain rfl : now = clock := hreplies
    exact (h.past _ hstored).trans hclock
  by_cases hstore : isStore q = true
  · cases q with
    | store e =>
        refine ⟨hpast, fun entry hmem _ => ⟨clock, rfl, hpast entry hmem⟩, hspaced, ?_, hseen, haged⟩
        intro last hlast
        obtain rfl := Option.some.inj hlast
        exact ⟨id, List.mem_append_right _ List.mem_cons_self⟩
    | _ => exact nomatch hstore
  · have hcache : (w.answered id clock q r).cache = w.cache := by
      cases q <;> first | rfl | exact absurd rfl hstore
    refine ⟨hpast, fun entry hmem hentry => ?_, hspaced, ?_, hseen, haged⟩
    · rw [hcache]
      rcases List.mem_append.mp hmem with hmem | hmem
      · exact h.newest entry hmem hentry
      · obtain rfl := List.mem_singleton.mp hmem
        exact absurd hentry hstore
    · rw [hcache]
      exact h.cached.append _

end Journal

section Lock

variable {ms : Nat → Option Stage} {w : ReadyWorld} {id clock : Nat} {stage stage' : Stage}

/-- What a request that has the cache locked may rely on. -/
def Relies (stage : Stage) (cache : ReadyCache) (clock : Nat) : Prop :=
  match stage with
  | .holding seen => cache = seen
  | .checking => RunOut cache clock
  | _ => True

structure Locked (ms : Nat → Option Stage) (w : ReadyWorld) : Prop where
  recorded : Recorded w
  guarded : Guarded Stage.holds ms w.holder
  relies : ∀ id stage, ms id = some stage → Relies stage w.cache w.clock

theorem Relies.later {cache : ReadyCache} {now : Nat} (h : Relies stage cache now) (hle : now ≤ clock) :
    Relies stage cache clock := by
  cases stage with
  | checking => exact fun last hlast => (h last hlast).trans hle
  | _ => exact h

theorem relies_of_free {cache : ReadyCache} (h : stage.holds = false) : Relies stage cache clock := by
  cases stage <;> trivial

/-- Only the request that has the lock changes the cache, so no other has relied on it. -/
theorem relies_others (h : Guarded Stage.holds ms w.holder) (hid : ms id = some stage)
    (hholds : stage.holds = true) {cache : ReadyCache} (hself : Relies stage' cache clock) :
    ∀ other s, Function.update ms id (some stage') other = some s → Relies s cache clock := by
  intro other s hother
  by_cases hne : other = id
  · subst hne
    rw [Function.update_self] at hother
    obtain rfl := Option.some.inj hother
    exact hself
  · rw [Function.update_of_ne hne] at hother
    cases hs : s.holds with
    | false => exact relies_of_free hs
    | true => exact absurd (h.unique hid hholds hother hs) hne

/-- A request that leaves the cache and the lock alone. -/
theorem Locked.quiet (h : Locked ms w) (hid : ms id = some stage) (hclock : w.clock ≤ clock)
    {q : ReadyRequest} {r : q.Answer} (hrecorded : Recorded (w.answered id clock q r))
    (hcache : (w.answered id clock q r).cache = w.cache)
    (hholder : (w.answered id clock q r).holder = w.holder) (hholds : stage'.holds = stage.holds)
    (hself : Relies stage' w.cache clock) :
    Locked (Function.update ms id (some stage')) (w.answered id clock q r) where
  recorded := hrecorded
  guarded := by
    rw [hholder]
    exact h.guarded.keep hid hholds
  relies other s hother := by
    rw [hcache]
    by_cases hne : other = id
    · subst hne
      rw [Function.update_self] at hother
      obtain rfl := Option.some.inj hother
      exact hself
    · rw [Function.update_of_ne hne] at hother
      exact (h.relies other s hother).later hclock

theorem relies_stageOf (cache : ReadyCache) (now : Nat) : Relies (stageOf cache now) cache now := by
  rw [stageOf]
  split
  next last hlast =>
    split
    next => trivial
    next hlt =>
      intro last' hlast'
      obtain rfl := Option.some.inj (hlast.symm.trans hlast')
      have hpositive : 0 < readyCacheTtl := by decide
      omega
  next hnone => exact fun last hlast => absurd hlast (by simp [hnone])

theorem stageOf_holds (cache : ReadyCache) (now : Nat) : (stageOf cache now).holds = true := by
  rw [stageOf]
  split
  · split <;> rfl
  · rfl

/-- Taking the lock, the request has seen the cache as it is. -/
theorem Locked.lock (h : Locked ms w) (hid : ms id = some .outside) (hfree : w.holder = none)
    (hrecorded : Recorded (w.answered id clock .lockCache w.cache)) :
    Locked (Function.update ms id (some (Stage.after .outside .lockCache w.cache)))
      (w.answered id clock .lockCache w.cache) := by
  have hguarded := h.guarded
  rw [hfree] at hguarded
  have hstage : (Stage.after .outside .lockCache w.cache).holds = true ∧
      Relies (Stage.after .outside .lockCache w.cache) w.cache clock := by
    rw [Stage.after]
    split
    next => exact ⟨rfl, rfl⟩
    next hnone => exact ⟨rfl, fun last hlast => absurd hlast (by simp [hnone])⟩
  refine ⟨hrecorded, hguarded.lock hstage.1, fun other s hother => ?_⟩
  by_cases hne : other = id
  · subst hne
    rw [Function.update_self] at hother
    obtain rfl := Option.some.inj hother
    exact hstage.2
  · rw [Function.update_of_ne hne] at hother
    cases hs : s.holds with
    | false => exact relies_of_free hs
    | true => exact nomatch hguarded.holder hother hs

theorem Locked.drop (h : Locked ms w) (hid : ms id = some stage) :
    Locked (Function.update ms id none)
      { w with holder := if stage.holds then none else w.holder } where
  recorded := ⟨h.recorded.past, h.recorded.newest, h.recorded.spaced, h.recorded.cached,
    h.recorded.seen, h.recorded.aged⟩
  guarded := by
    cases hholds : stage.holds with
    | true => exact h.guarded.unlock hid hholds nofun
    | false => exact h.guarded.drop hid hholds
  relies other s hother := by
    by_cases hne : other = id
    · subst hne
      rw [Function.update_self] at hother
      cases hother
    · rw [Function.update_of_ne hne] at hother
      exact h.relies other s hother

theorem Relies.runOut {cache : ReadyCache} {now : Nat} (h : Relies .checking cache now) :
    RunOut cache now := h

theorem kept_locked : Kept readiness anywhere rules Locked where
  answer {ms w id stage q r stage' u} h hid hrule hanswer := by
    obtain ⟨hallowed, rfl⟩ := hrule
    obtain ⟨clock, hclock, hreplies, rfl⟩ := hanswer
    have hself := (h.relies id stage hid).later hclock
    have hrecorded : Recorded (w.answered id clock q r) := by
      refine h.recorded.answered hclock hreplies fun hq => ?_
      cases q with
      | probe deadline q =>
          cases stage with
          | checking => exact hself.runOut
          | _ => exact hallowed.elim
      | _ => exact nomatch hq
    cases q with
    | pricesEmpty | readCycle =>
        cases stage with
        | outside => exact h.quiet hid hclock hrecorded rfl rfl rfl trivial
        | _ => exact hallowed.elim
    | probe deadline q =>
        cases stage with
        | checking => exact h.quiet hid hclock hrecorded rfl rfl rfl hself
        | _ => exact hallowed.elim
    | instant =>
        obtain rfl : r = clock := hreplies
        cases stage with
        | checking => exact h.quiet hid hclock hrecorded rfl rfl rfl hself
        | holding cache =>
            obtain rfl : w.cache = cache := hself
            exact h.quiet hid hclock hrecorded rfl rfl (stageOf_holds _ _) (relies_stageOf _ _)
        | _ => exact hallowed.elim
    | lockCache =>
        obtain ⟨hfree, rfl⟩ := hreplies
        cases stage with
        | outside => exact h.lock hid hfree hrecorded
        | _ => exact hallowed.elim
    | store e =>
        cases stage with
        | checking =>
            exact ⟨hrecorded, h.guarded.keep hid rfl, relies_others h.guarded hid rfl trivial⟩
        | _ => exact hallowed.elim
    | unlockCache =>
        have hholds : stage.holds = true := by
          cases stage <;> first | rfl | exact hallowed.elim
        refine ⟨hrecorded, h.guarded.unlock hid hholds ?_, relies_others h.guarded hid hholds ?_⟩
        · rintro s hs
          obtain rfl := Option.some.inj hs
          cases stage <;> rfl
        · cases stage <;> trivial
  drop {ms w id stage u} h hid hcut := by
    obtain rfl := hcut
    exact h.drop hid

end Lock

end So4Oracle.ReadyLock
