import Mathlib.Algebra.Order.Group.Nat
import Mathlib.Data.List.Perm.Basic
import Mathlib.Logic.Relation
import So4Oracle.Library.FixedWindow

namespace Library.Lockout

open FixedWindow

/-- One client of a limiter of failures: its entry in the table, and the clock
readings of its attempts that were admitted and are not recorded yet. Its
failures are those since its last success. -/
structure Guard where
  clock : Nat
  entry : Option Window
  pending : List Nat
  failures : Nat

/-- So many attempts at once, each recorded so long after its reading at most. -/
structure Pace where
  attempts : Nat
  delay : Nat

section Window

variable (limits : Limits) (pace : Pace) (start : Nat)

def fresh : Guard := ⟨start, none, [], 0⟩

/-- What one window can take: its budget, and the attempts that were admitted
before it was used up. -/
def perWindow : Nat := limits.budget + pace.attempts - 1

end Window

section Bound

variable {limits : Limits} {pace : Pace} {start : Nat} {g g' : Guard} {last : Window}

/-- The attempts that would still count in this window. -/
def within (limits : Limits) (last : Window) (pending : List Nat) : Nat :=
  pending.countP fun now => decide (last.Open limits now)

/-- The last window a client opened; it is forgotten only once it is over. -/
structure LastWindow (limits : Limits) (pace : Pace) (start : Nat) (g : Guard) (last : Window) :
    Prop where
  entry : g.entry = some last ∨ g.entry = none ∧ last.opened + limits.length ≤ g.clock
  started : start ≤ last.opened
  opened : last.opened ≤ g.clock
  nonzero : 0 < last.failures
  counts : last.failures ≤ g.failures
  taken : last.failures ≤ perWindow limits pace
  late : g.entry = some last → limits.budget ≤ last.failures →
    last.failures + within limits last g.pending ≤ perWindow limits pace
  total : g.failures ≤
    perWindow limits pace * ((last.opened - start) / (limits.length - pace.delay)) + last.failures

structure Bounded (limits : Limits) (pace : Pace) (start : Nat) (g : Guard) : Prop where
  clock : start ≤ g.clock
  room : g.pending.length ≤ pace.attempts
  readings : ∀ now ∈ g.pending, start ≤ now ∧ now ≤ g.clock
  window : g.failures = 0 ∧ g.entry = none ∨ ∃ last, LastWindow limits pace start g last

theorem bounded_fresh : Bounded limits pace start (fresh start) :=
  ⟨le_rfl, Nat.zero_le _, fun _ h => absurd h List.not_mem_nil, .inl ⟨rfl, rfl⟩⟩

theorem Bounded.wait (h : Bounded limits pace start g) {later : Nat} (hle : g.clock ≤ later) :
    Bounded limits pace start { g with clock := later } := by
  refine ⟨h.clock.trans hle, h.room, fun now hnow => ?_, ?_⟩
  · exact ⟨(h.readings now hnow).1, (h.readings now hnow).2.trans hle⟩
  · rcases h.window with hnone | ⟨last, hlast⟩
    · exact .inl hnone
    · refine .inr ⟨last, ?_, hlast.started, hlast.opened.trans hle, hlast.nonzero, hlast.counts,
        hlast.taken, hlast.late, hlast.total⟩
      exact hlast.entry.imp_right fun hgone => ⟨hgone.1, hgone.2.trans hle⟩

/-- A client that has used up its window is admitted only once the window is over. -/
theorem within_enter {now : Nat} (hfree : blocks limits (some last) now = false)
    (hbudget : limits.budget ≤ last.failures) (pending : List Nat) :
    within limits last (now :: pending) = within limits last pending := by
  have hover : ¬last.Open limits now := by
    simpa [blocks, hbudget] using hfree
  exact List.countP_cons_of_neg (by simpa using hover)

theorem Bounded.enter (h : Bounded limits pace start g) {now : Nat} (hstart : start ≤ now)
    (hnow : now ≤ g.clock) (hfree : blocks limits g.entry now = false)
    (hroom : g.pending.length < pace.attempts) :
    Bounded limits pace start { g with pending := now :: g.pending } := by
  refine ⟨h.clock, hroom, fun reading hmem => ?_, ?_⟩
  · rcases List.mem_cons.mp hmem with rfl | hmem
    · exact ⟨hstart, hnow⟩
    · exact h.readings reading hmem
  · rcases h.window with hnone | ⟨last, hlast⟩
    · exact .inl hnone
    · refine .inr ⟨last, hlast.entry, hlast.started, hlast.opened, hlast.nonzero, hlast.counts,
        hlast.taken, ?_, hlast.total⟩
      intro hentry hbudget
      rw [hentry] at hfree
      rw [within_enter hfree hbudget]
      exact hlast.late hentry hbudget

/-- One more window starts at least so much later than the last one. -/
theorem total_reopened {now failures opened : Nat} (hpace : pace.delay < limits.length)
    (hstart : start ≤ opened) (hlater : opened + (limits.length - pace.delay) ≤ now)
    (htaken : last.failures ≤ perWindow limits pace)
    (htotal : failures ≤
      perWindow limits pace * ((opened - start) / (limits.length - pace.delay)) + last.failures) :
    failures + 1 ≤ perWindow limits pace * ((now - start) / (limits.length - pace.delay)) + 1 := by
  have hgap : 0 < limits.length - pace.delay := Nat.sub_pos_of_lt hpace
  have hnext : (opened - start) / (limits.length - pace.delay) + 1 ≤
      (now - start) / (limits.length - pace.delay) := by
    rw [← Nat.add_div_right _ hgap]
    exact Nat.div_le_div_right (by omega)
  have hmul := Nat.mul_le_mul_left (perWindow limits pace) hnext
  rw [Nat.mul_succ] at hmul
  omega

theorem within_cons {now : Nat} (hopen : last.Open limits now) (rest : List Nat) :
    within limits last (now :: rest) = within limits last rest + 1 :=
  List.countP_cons_of_pos (by simpa using hopen)

/-- A failure in the open window uses up an attempt that was to count in it. -/
theorem LastWindow.count (h : LastWindow limits pace start g last) (hentry : g.entry = some last)
    {now : Nat} {rest : List Nat} (hpending : g.pending.Perm (now :: rest))
    (hroom : g.pending.length ≤ pace.attempts) (hopen : last.Open limits now) :
    LastWindow limits pace start
      ⟨g.clock, some { last with failures := last.failures + 1 }, rest, g.failures + 1⟩
      { last with failures := last.failures + 1 } := by
  have hrest : rest.length + 1 ≤ pace.attempts := by
    simpa [hpending.length_eq] using hroom
  have hwithin : within limits last g.pending = within limits last rest + 1 := by
    rw [within, hpending.countP_eq]
    exact within_cons hopen rest
  have hle : within limits last rest ≤ rest.length := List.countP_le_length
  have hlate : limits.budget ≤ last.failures + 1 →
      last.failures + 1 + within limits last rest ≤ perWindow limits pace := by
    intro hbudget
    by_cases hused : limits.budget ≤ last.failures
    · have hbefore := h.late hentry hused
      omega
    · unfold perWindow
      omega
  refine ⟨.inl rfl, h.started, h.opened, Nat.succ_pos _, Nat.succ_le_succ h.counts, ?_,
    fun _ hbudget => hlate hbudget, ?_⟩
  · by_cases hbudget : limits.budget ≤ last.failures + 1
    · exact (Nat.le_add_right _ _).trans (hlate hbudget)
    · unfold perWindow
      dsimp only
      omega
  · have htotal := h.total
    dsimp only
    omega

theorem lastWindow_opened {now failures : Nat} {rest : List Nat} (hbudget : 0 < limits.budget)
    (hrest : rest.length + 1 ≤ pace.attempts) (hstart : start ≤ now) (hnow : now ≤ g.clock)
    (htotal : failures + 1 ≤
      perWindow limits pace * ((now - start) / (limits.length - pace.delay)) + 1) :
    LastWindow limits pace start ⟨g.clock, some ⟨now, 1⟩, rest, failures + 1⟩ ⟨now, 1⟩ := by
  have hle : within limits ⟨now, 1⟩ rest ≤ rest.length := List.countP_le_length
  refine ⟨.inl rfl, hstart, hnow, Nat.one_pos, Nat.le_add_left _ _, ?_, fun _ _ => ?_, htotal⟩
  · unfold perWindow
    dsimp only
    omega
  · unfold perWindow
    dsimp only
    omega

theorem Bounded.fail (h : Bounded limits pace start g) (hbudget : 0 < limits.budget)
    (hpace : pace.delay < limits.length) {now : Nat} {rest : List Nat}
    (hpending : g.pending.Perm (now :: rest)) (hdelay : g.clock ≤ now + pace.delay) :
    Bounded limits pace start
      ⟨g.clock, some (counted limits now g.entry), rest, g.failures + 1⟩ := by
  have hrest : rest.length + 1 ≤ pace.attempts := by
    simpa [hpending.length_eq] using h.room
  obtain ⟨hstart, hnow⟩ := h.readings now (hpending.mem_iff.mpr List.mem_cons_self)
  refine ⟨h.clock, (Nat.le_succ _).trans hrest, fun reading hmem => ?_, .inr ?_⟩
  · exact h.readings reading (hpending.mem_iff.mpr (List.mem_cons_of_mem _ hmem))
  · rcases h.window with ⟨hzero, hnone⟩ | ⟨last, hlast⟩
    · rw [hnone, counted]
      exact ⟨_, lastWindow_opened hbudget hrest hstart hnow (by omega)⟩
    · rcases hlast.entry with hentry | ⟨hgone, hover⟩
      · rw [hentry, counted]
        by_cases hopen : last.Open limits now
        · rw [if_pos hopen]
          exact ⟨_, hlast.count hentry hpending h.room hopen⟩
        · rw [if_neg hopen]
          unfold Window.Open at hopen
          have hlater : last.opened + (limits.length - pace.delay) ≤ now := by omega
          exact ⟨_, lastWindow_opened hbudget hrest hstart hnow
            (total_reopened hpace hlast.started hlater hlast.taken hlast.total)⟩
      · rw [hgone, counted]
        have hlater : last.opened + (limits.length - pace.delay) ≤ now := by omega
        exact ⟨_, lastWindow_opened hbudget hrest hstart hnow
          (total_reopened hpace hlast.started hlater hlast.taken hlast.total)⟩

theorem Bounded.succeed (h : Bounded limits pace start g) {now : Nat} {rest : List Nat}
    (hpending : g.pending.Perm (now :: rest)) : Bounded limits pace start ⟨g.clock, none, rest, 0⟩ := by
  have hrest : rest.length + 1 ≤ pace.attempts := by
    simpa [hpending.length_eq] using h.room
  refine ⟨h.clock, (Nat.le_succ _).trans hrest, fun reading hmem => ?_, .inl ⟨rfl, rfl⟩⟩
  exact h.readings reading (hpending.mem_iff.mpr (List.mem_cons_of_mem _ hmem))

theorem Bounded.forget (h : Bounded limits pace start g) {now : Nat} {w : Window}
    (hnow : now ≤ g.clock) (hentry : g.entry = some w) (hover : ¬w.Open limits now) :
    Bounded limits pace start { g with entry := none } := by
  refine ⟨h.clock, h.room, h.readings, ?_⟩
  rcases h.window with ⟨hzero, -⟩ | ⟨last, hlast⟩
  · exact .inl ⟨hzero, rfl⟩
  · rcases hlast.entry with hlive | ⟨hgone, -⟩
    · obtain rfl : last = w := Option.some.inj (hlive.symm.trans hentry)
      unfold Window.Open at hover
      refine .inr ⟨last, .inr ⟨rfl, ?_⟩, hlast.started, hlast.opened, hlast.nonzero, hlast.counts,
        hlast.taken, ?_, hlast.total⟩
      · dsimp only
        have := hlast.opened
        omega
      · intro h
        cases h
    · rw [hgone] at hentry
      cases hentry

theorem Bounded.entry_le (h : Bounded limits pace start g) {w : Window} (hentry : g.entry = some w) :
    w.failures ≤ perWindow limits pace := by
  rcases h.window with ⟨-, hnone⟩ | ⟨last, hlast⟩
  · rw [hnone] at hentry
    cases hentry
  · rcases hlast.entry with hlive | ⟨hgone, -⟩
    · obtain rfl : last = w := Option.some.inj (hlive.symm.trans hentry)
      exact hlast.taken
    · rw [hgone] at hentry
      cases hentry

/-- A client that has not failed since its last success is let in. -/
theorem Bounded.blocks_eq_false (h : Bounded limits pace start g) (hzero : g.failures = 0)
    (now : Nat) : blocks limits g.entry now = false := by
  rcases h.window with ⟨-, hnone⟩ | ⟨last, hlast⟩
  · rw [hnone]
    rfl
  · have hsome := hlast.nonzero
    have hcounts := hlast.counts
    omega

/-- What a client can fail by a time, however its attempts overlap. -/
theorem Bounded.failures_le (h : Bounded limits pace start g) :
    g.failures ≤
      perWindow limits pace * ((g.clock - start) / (limits.length - pace.delay) + 1) := by
  rcases h.window with ⟨hzero, -⟩ | ⟨last, hlast⟩
  · rw [hzero]
    exact Nat.zero_le _
  · have hdiv : (last.opened - start) / (limits.length - pace.delay) ≤
        (g.clock - start) / (limits.length - pace.delay) :=
      Nat.div_le_div_right (Nat.sub_le_sub_right hlast.opened _)
    calc g.failures
        ≤ perWindow limits pace * ((last.opened - start) / (limits.length - pace.delay)) +
            last.failures := hlast.total
      _ ≤ perWindow limits pace * ((g.clock - start) / (limits.length - pace.delay)) +
            perWindow limits pace :=
          Nat.add_le_add (Nat.mul_le_mul_left _ hdiv) hlast.taken
      _ = perWindow limits pace * ((g.clock - start) / (limits.length - pace.delay) + 1) :=
          (Nat.mul_succ _ _).symm

end Bound

end Library.Lockout
