import So4Oracle.KeeperScript
import So4Oracle.StatusSnapshot

namespace So4Oracle.SnapshotTearing

open Library.Checked Library.Requests Library.Safety Library.Protocol Library.Records Library.Threads
  Wire Config State Chain Submit Handler Keeper KeeperRuns KeeperScript StatusSnapshot

variable {crates : Crates} {settings : Settings} {sign : Transaction → Except String String}
  {w v u : CycleWorld} {cycle : Nat}

section Rules

/-- From its opening bump up to its timing, a cycle may write its pending counts. -/
def MayCount : Progress → Prop
  | .opened | .counted => True
  | .waiting | .timed | .closed => False

def Allowed : Progress → CycleRequest → Prop
  | .waiting, .bumpGeneration => True
  | .opened, .startRunning | .opened, .within _ | .opened, .elapsedMillis
  | .opened, .finishTiming _ => True
  | .counted, .startRunning | .counted, .within _ | .counted, .elapsedMillis
  | .counted, .finishTiming _ => True
  | .timed, .recordKeeperCycle _ _ | .timed, .recordError _ | .timed, .recordSubmitFailure
  | .timed, .bumpGeneration => True
  | _, _ => False

def rules : Rules CycleRequest CycleRequest.Answer Progress :=
  fun m q r m' => Allowed m q ∧ m' = progressAfter m q r

theorem rules_after (m : Progress) (q : CycleRequest) (r : q.Answer) (m' : Progress)
    (h : rules m q r m') : m' = cycles.after m q r := h.2

theorem mayCount_within {m : Progress} (hm : MayCount m) (q : KeeperRequest) (r : Option q.Answer) :
    Allowed m (.within q) ∧ MayCount (progressAfter m (.within q) r) := by
  cases m with
  | opened =>
      refine ⟨trivial, ?_⟩
      unfold progressAfter
      split <;> trivial
  | counted => exact ⟨trivial, trivial⟩
  | waiting | timed | closed => exact absurd hm id

theorem limited_follows {α : Type} (p : KeeperProgram α) {m : Progress} (hm : MayCount m) :
    Follows rules m (limited p) (fun _ m' => MayCount m') := by
  induction p generalizing m with
  | done a => exact hm
  | ask q next ih =>
      rw [limited]
      intro r
      obtain ⟨hallowed, hafter⟩ := mayCount_within hm q r
      refine ⟨_, ⟨hallowed, rfl⟩, ?_⟩
      cases r with
      | none => exact hafter
      | some answer => exact ih answer hafter

theorem reportCycle_follows (latencyMs : Nat) (result : Except String CycleSummary) :
    Follows rules .timed (reportCycle settings latencyMs result) (fun _ m' => m' = .timed) := by
  cases result with
  | ok summary => exact fun _ => ⟨_, ⟨trivial, rfl⟩, rfl⟩
  | error e => exact fun _ => ⟨_, ⟨trivial, rfl⟩, fun _ => ⟨_, ⟨trivial, rfl⟩, rfl⟩⟩

theorem finishing_follows {m : Progress} (hm : MayCount m) (result : Except String CycleSummary) :
    Follows rules m (do
      let latencyMs ← cycleAsk .elapsedMillis
      cycleAsk (.finishTiming latencyMs)
      reportCycle settings latencyMs result
      cycleAsk .bumpGeneration
      pure result) (fun _ _ => True) := by
  have hreport : ∀ latencyMs, Follows rules .timed (do
      reportCycle settings latencyMs result
      cycleAsk .bumpGeneration
      pure result) (fun _ _ => True) := by
    intro latencyMs
    apply Follows.bind
    apply (reportCycle_follows latencyMs result).mono
    rintro _ _ rfl
    exact fun _ => ⟨_, ⟨trivial, rfl⟩, trivial⟩
  cases m with
  | opened | counted =>
      exact fun latencyMs => ⟨_, ⟨trivial, rfl⟩, fun _ => ⟨_, ⟨trivial, rfl⟩, hreport latencyMs⟩⟩
  | waiting | timed | closed => exact absurd hm id

theorem runKeeperCycle_follows :
    Follows rules .waiting (runKeeperCycle crates settings sign) (fun _ _ => True) := by
  have hopened : MayCount .opened := trivial
  refine Follows.request fun _ => ⟨.opened, ⟨trivial, rfl⟩, ?_⟩
  refine Follows.request fun _ => ⟨.opened, ⟨trivial, rfl⟩, ?_⟩
  apply Follows.bind
  apply (limited_follows (executeKeeperCycle crates settings sign) hopened).mono
  intro finished m hm
  exact finishing_follows hm _

end Rules

section Moves

/-- What an answer to a cycle does to its progress and to what the snapshot depends on. -/
inductive Moves (cycle : Nat) (m : Progress) (s : Statuses) (m' : Progress) (s' : Statuses) : Prop
  | bump (hm : m = .waiting ∧ m' = .opened ∨ m = .timed ∧ m' = .closed)
      (bumps : s'.bumps = s.bumps + 1) (counted : s'.counted = s.counted)
      (timedBy : s'.timedBy = s.timedBy)
  | count (hm : MayCount m) (hm' : m' = .counted) (bumps : s'.bumps = s.bumps)
      (counted : s'.counted = cycle :: s.counted) (timedBy : s'.timedBy = s.timedBy)
  | time (hm : MayCount m) (hm' : m' = .timed) (bumps : s'.bumps = s.bumps)
      (counted : s'.counted = s.counted) (timedBy : s'.timedBy = some cycle)
  | stay (hm : m' = m) (bumps : s'.bumps = s.bumps) (counted : s'.counted = s.counted)
      (timedBy : s'.timedBy = s.timedBy)

theorem progressAfter_none (m : Progress) (q : KeeperRequest) :
    progressAfter m (.within q) none = m := by
  cases m with
  | opened =>
      cases q with
      | state op => cases op <;> rfl
      | _ => rfl
  | _ => rfl

theorem within_moves {m : Progress} {q : KeeperRequest} {s s' : Statuses} {r : Option q.Answer}
    (hallowed : Allowed m (.within q)) (h : answersCycle cycle (.within q) s r s') :
    Moves cycle m s (progressAfter m (.within q) r) s' := by
  have hm : MayCount m := by
    cases m with
    | opened | counted => trivial
    | waiting | timed | closed => exact absurd hallowed id
  rcases h with ⟨rfl, rfl⟩ | ⟨answer, rfl, h⟩
  · exact .stay (progressAfter_none m q) rfl rfl rfl
  · cases q with
    | state op =>
        obtain ⟨-, rfl⟩ := h
        cases op with
        | setPending orders deposits withdrawals =>
            refine .count hm ?_ rfl rfl rfl
            cases m with
            | opened | counted => rfl
            | waiting | timed | closed => exact absurd hm id
        | _ =>
            refine .stay ?_ rfl rfl rfl
            cases m <;> rfl
    | abort => exact absurd h id
    | _ =>
        obtain rfl := h
        refine .stay ?_ rfl rfl rfl
        cases m <;> rfl

theorem cycle_moves {m : Progress} {q : CycleRequest} {s s' : Statuses} {r : q.Answer}
    (hallowed : Allowed m q) (h : answersCycle cycle q s r s') :
    Moves cycle m s (progressAfter m q r) s' := by
  cases q with
  | within q => exact within_moves hallowed h
  | bumpGeneration =>
      obtain rfl := h
      cases m with
      | waiting => exact .bump (.inl ⟨rfl, rfl⟩) rfl rfl rfl
      | timed => exact .bump (.inr ⟨rfl, rfl⟩) rfl rfl rfl
      | opened | counted | closed => exact absurd hallowed id
  | finishTiming latencyMs =>
      obtain rfl := h
      cases m with
      | opened | counted => exact .time trivial rfl rfl rfl rfl
      | waiting | timed | closed => exact absurd hallowed id
  | startRunning | elapsedMillis | recordKeeperCycle | recordError | recordSubmitFailure =>
      obtain rfl := h
      refine .stay ?_ rfl rfl rfl
      cases m <;> rfl

end Moves

section Worlds

/-- A thread whose cycle cannot write its pending counts now. -/
def Cold (w : CycleWorld) (cycle : Nat) : Prop := ∀ m p, w.threads cycle = .at m p → ¬MayCount m

/-- A thread whose cycle has written its timing, or has been dropped. -/
def Over (w : CycleWorld) (cycle : Nat) : Prop :=
  ∀ m p, w.threads cycle = .at m p → m = .timed ∨ m = .closed

structure Coherent (w : CycleWorld) : Prop where
  abides : Abides rules w
  counted : ∀ cycle p, w.threads cycle = .at .counted p → cycle ∈ w.shared.counted
  timed : ∀ cycle, w.shared.timedBy = some cycle → Over w cycle

/-- The cycle has not reached its closing bump. -/
def Unclosed (w : CycleWorld) (cycle : Nat) : Prop := ∀ p, w.threads cycle ≠ .at .closed p

/-- What a cycle can do without a bump: it stays cold if it is, and does not close. -/
structure Onwards (cycle : Nat) (w v : CycleWorld) : Prop where
  bumps : w.shared.bumps ≤ v.shared.bumps
  cold : v.shared.bumps = w.shared.bumps → Cold w cycle →
    Cold v cycle ∧ (cycle ∈ v.shared.counted → cycle ∈ w.shared.counted)
  unclosed : v.shared.bumps = w.shared.bumps → Unclosed w cycle → Unclosed v cycle

theorem Onwards.refl (cycle : Nat) (w : CycleWorld) : Onwards cycle w w :=
  ⟨le_rfl, fun _ hcold => ⟨hcold, fun h => h⟩, fun _ h => h⟩

theorem Onwards.trans (h : Onwards cycle w v) (h' : Onwards cycle v u) : Onwards cycle w u where
  bumps := h.bumps.trans h'.bumps
  cold := by
    intro hbumps hcold
    have hfirst : v.shared.bumps = w.shared.bumps := le_antisymm (hbumps ▸ h'.bumps) h.bumps
    obtain ⟨hv, hmem⟩ := h.cold hfirst hcold
    obtain ⟨hu, hmem'⟩ := h'.cold (hbumps.trans hfirst.symm) hv
    exact ⟨hu, fun hcounted => hmem (hmem' hcounted)⟩
  unclosed := by
    intro hbumps hunclosed
    have hfirst : v.shared.bumps = w.shared.bumps := le_antisymm (hbumps ▸ h'.bumps) h.bumps
    exact h'.unclosed (hbumps.trans hfirst.symm) (h.unclosed hfirst hunclosed)

theorem initial_coherent (h : Initial crates settings sign w) : Coherent w where
  abides := by
    intro id m p hid
    rw [h.threads id] at hid
    cases hid
    exact runKeeperCycle_follows
  counted := by
    intro id p hid
    rw [h.threads id] at hid
    cases hid
  timed := by
    intro id hid
    rw [h.timedBy] at hid
    cases hid

/-- Nothing that the snapshot depends on has moved, though a cycle may have been dropped. -/
structure Still (w v : CycleWorld) : Prop where
  threads : ∀ cycle m p, v.threads cycle = .at m p → w.threads cycle = .at m p
  bumps : v.shared.bumps = w.shared.bumps
  counted : v.shared.counted = w.shared.counted
  timedBy : v.shared.timedBy = w.shared.timedBy

theorem surrounds_cases (hw : Coherent w) (h : Surrounds w v) :
    (∃ cycle m p m' p' s', w.threads cycle = .at m p ∧ Moves cycle m w.shared m' s' ∧
      v = w.put s' cycle (.at m' p')) ∨ Still w v := by
  cases h with
  | cycle h =>
      cases h with
      | @answer _ _ _ _ r _ hthread hanswer =>
          obtain ⟨m', ⟨hallowed, -⟩, -⟩ := hw.abides.asks hthread r
          exact .inl ⟨_, _, _, _, _, _, hthread, cycle_moves hallowed hanswer, rfl⟩
      | drop dropped =>
          refine .inr ⟨fun cycle m p hcycle => ?_, rfl, rfl, rfl⟩
          by_cases hid : cycle = dropped
          · subst hid
            rw [put_threads_self] at hcycle
            cases hcycle
          · rwa [put_threads_of_ne _ hid] at hcycle
  | tick nanos => exact .inr ⟨fun _ _ _ hcycle => hcycle, rfl, rfl, rfl⟩
  | others => exact .inr ⟨fun _ _ _ hcycle => hcycle, rfl, rfl, rfl⟩

theorem surrounds_abides (hw : Coherent w) (h : Surrounds w v) : Abides rules v := by
  cases h with
  | cycle h => exact hw.abides.advances rules_after h
  | tick | others => exact hw.abides

theorem Still.onwards (h : Still w v) (cycle : Nat) : Onwards cycle w v := by
  refine ⟨h.bumps.ge, fun _ hcold => ⟨fun m p hcycle => ?_, fun hmem => ?_⟩,
    fun _ hunclosed p hcycle => hunclosed p (h.threads cycle .closed p hcycle)⟩
  · exact hcold m p (h.threads cycle m p hcycle)
  · rwa [h.counted] at hmem

theorem Moves.unclosed {m m' : Progress} {s s' : Statuses} (h : Moves cycle m s m' s')
    (hbumps : s'.bumps = s.bumps) (hm : m ≠ .closed) : m' ≠ .closed := by
  cases h with
  | bump hm bumps => omega
  | count hm hm' => simp [hm']
  | time hm hm' => simp [hm']
  | stay hm' => rwa [hm']

/-- A cycle that is cold has to bump before it can do anything else of note. -/
theorem Moves.onwards {m m' : Progress} {s' : Statuses}
    {p p' : CycleProgram (Except String CycleSummary)} (hthread : w.threads cycle = .at m p)
    (h : Moves cycle m w.shared m' s') :
    Onwards cycle w (w.put s' cycle (.at m' p')) := by
  have hunclosed : s'.bumps = w.shared.bumps → Unclosed w cycle →
      Unclosed (w.put s' cycle (.at m' p')) cycle := by
    intro hbumps hopen q hcycle
    rw [put_threads_self] at hcycle
    cases hcycle
    exact h.unclosed hbumps (fun hm => hopen p (hm ▸ hthread)) rfl
  cases h with
  | bump hm bumps =>
      refine ⟨bumps ▸ Nat.le_succ _, fun heq => ?_, hunclosed⟩
      have hsame : s'.bumps = w.shared.bumps := heq
      omega
  | count hm hm' bumps => exact ⟨bumps.ge, fun _ hcold => absurd hm (hcold m p hthread), hunclosed⟩
  | time hm hm' bumps => exact ⟨bumps.ge, fun _ hcold => absurd hm (hcold m p hthread), hunclosed⟩
  | stay hm bumps counted =>
      refine ⟨bumps.ge, fun _ hcold => ⟨fun n q hcycle => ?_, fun hmem => counted ▸ hmem⟩, hunclosed⟩
      rw [put_threads_self] at hcycle
      cases hcycle
      rw [hm]
      exact hcold m p hthread

theorem Moves.shared {m m' : Progress} {s s' : Statuses} (h : Moves cycle m s m' s') :
    s.bumps ≤ s'.bumps ∧ (∀ other ∈ s'.counted, other ∈ s.counted ∨ other = cycle) ∧
      (∀ other ∈ s.counted, other ∈ s'.counted) ∧
      (s'.timedBy = s.timedBy ∨ s'.timedBy = some cycle) := by
  cases h with
  | bump hm bumps counted timedBy => simp +contextual [bumps, counted, timedBy]
  | count hm hm' bumps counted timedBy =>
      simp +contextual [bumps, counted, timedBy, or_comm]
  | time hm hm' bumps counted timedBy => simp +contextual [bumps, counted, timedBy]
  | stay hm bumps counted timedBy => simp +contextual [bumps, counted, timedBy]

theorem surrounds_onwards (hw : Coherent w) (h : Surrounds w v) (cycle : Nat) :
    Onwards cycle w v := by
  rcases surrounds_cases hw h with ⟨moving, m, p, m', p', s', hthread, hmoves, rfl⟩ | hstill
  · by_cases hid : cycle = moving
    · subst hid
      exact hmoves.onwards hthread
    · obtain ⟨hbumps, hcounted, -⟩ := hmoves.shared
      refine ⟨hbumps, fun _ hcold => ⟨fun n q hcycle => ?_, fun hmem => ?_⟩,
        fun _ hunclosed q hcycle => ?_⟩
      · rw [put_threads_of_ne _ hid] at hcycle
        exact hcold n q hcycle
      · exact (hcounted cycle hmem).resolve_right hid
      · rw [put_threads_of_ne _ hid] at hcycle
        exact hunclosed q hcycle
  · exact hstill.onwards cycle

theorem Moves.mem_counted {m : Progress} {s s' : Statuses} (h : Moves cycle m s .counted s')
    (hmem : m = .counted → cycle ∈ s.counted) : cycle ∈ s'.counted := by
  cases h with
  | bump hm =>
      rcases hm with ⟨-, hm'⟩ | ⟨-, hm'⟩
      · cases hm'
      · cases hm'
  | count hm hm' bumps counted => simp [counted]
  | time hm hm' => cases hm'
  | stay hm bumps counted => exact counted ▸ hmem hm.symm

theorem Moves.over {m m' : Progress} {s s' : Statuses} (h : Moves cycle m s m' s')
    (hover : s.timedBy = some cycle → m = .timed ∨ m = .closed) (htimed : s'.timedBy = some cycle) :
    m' = .timed ∨ m' = .closed := by
  have hnot : s.timedBy = some cycle → ¬MayCount m := by
    intro hsame hm
    rcases hover hsame with rfl | rfl <;> exact hm
  cases h with
  | bump hm bumps counted timedBy =>
      rcases hm with ⟨rfl, -⟩ | ⟨-, rfl⟩
      · rcases hover (timedBy ▸ htimed) with hm | hm <;> cases hm
      · exact .inr rfl
  | count hm hm' bumps counted timedBy => exact absurd hm (hnot (timedBy ▸ htimed))
  | time hm hm' => exact .inl hm'
  | stay hm bumps counted timedBy => exact hm ▸ hover (timedBy ▸ htimed)

theorem surrounds_coherent (hw : Coherent w) (h : Surrounds w v) : Coherent v := by
  have habides := surrounds_abides hw h
  rcases surrounds_cases hw h with ⟨moving, m, p, m', p', s', hthread, hmoves, rfl⟩ | hstill
  · obtain ⟨-, -, hcounted, htimedBy⟩ := hmoves.shared
    refine ⟨habides, fun cycle q hcycle => ?_, fun cycle htimed n q hcycle => ?_⟩
    · by_cases hid : cycle = moving
      · subst hid
        rw [put_threads_self] at hcycle
        cases hcycle
        exact hmoves.mem_counted (fun hm => hw.counted cycle p (hm ▸ hthread))
      · rw [put_threads_of_ne _ hid] at hcycle
        exact hcounted cycle (hw.counted cycle q hcycle)
    · by_cases hid : cycle = moving
      · subst hid
        rw [put_threads_self] at hcycle
        cases hcycle
        exact hmoves.over (fun hsame => hw.timed cycle hsame m p hthread) htimed
      · rw [put_threads_of_ne _ hid] at hcycle
        rcases htimedBy with hsame | hown
        · exact hw.timed cycle (hsame ▸ htimed) n q hcycle
        · exact absurd (Option.some.inj (htimed.symm.trans hown)) hid
  · refine ⟨habides, fun cycle q hcycle => ?_, fun cycle htimed n q hcycle => ?_⟩
    · rw [hstill.counted]
      exact hw.counted cycle q (hstill.threads cycle _ q hcycle)
    · rw [hstill.timedBy] at htimed
      exact hw.timed cycle htimed n q (hstill.threads cycle n q hcycle)

theorem interferes_coherent (hw : Coherent w) (h : reader.Interferes w v) : Coherent v := by
  induction h with
  | refl => exact hw
  | tail _ h ih => exact surrounds_coherent ih h

theorem interferes_onwards (hw : Coherent w) (h : reader.Interferes w v) (cycle : Nat) :
    Onwards cycle w v := by
  induction h with
  | refl => exact .refl cycle w
  | tail h hstep ih => exact ih.trans (surrounds_onwards (interferes_coherent hw h) hstep cycle)

end Worlds

section Reads

variable {n : Nat} {steps : List (Step SnapshotRequest SnapshotRequest.Answer CycleWorld)}
  {snapshot : Snapshot}

/-- The four worlds that the steps of an attempt meet: a cycle with its pending
counts still to write at the first read, and not closed by the second load, has its
timing still to write at the second read, and the generation has not come round. -/
structure Undivided (load keeper cycle again : CycleWorld) : Prop where
  counts : ∀ id p, keeper.threads id = .at .opened p → Unclosed again id →
    ∃ m q, cycle.threads id = .at m q ∧ MayCount m
  bumps : again.shared.bumps < load.shared.bumps + 2 ^ 64

theorem attemptSnapshot_succ : attemptSnapshot (n + 1) = (do
    let generation ← Program.request SnapshotRequest.loadGeneration
    let keeper ← Program.request SnapshotRequest.readKeeperStatus
    let cycle ← Program.request SnapshotRequest.readCycleStatus
    let again ← Program.request SnapshotRequest.loadGeneration
    if again = generation then pure ⟨keeper, cycle, true⟩ else attemptSnapshot n) := rfl

/-- The attempt that a settled snapshot is from. -/
theorem settled_attempt (hw : Coherent w)
    (h : Completes reader (attemptSnapshot n) w steps snapshot v) (hsettled : snapshot.settled = true) :
    ∃ earlier load keeper cycle again, steps = earlier ++ [load, keeper, cycle, again] ∧
      Coherent load.before ∧ reader.Interferes load.before keeper.before ∧
      reader.Interferes keeper.before cycle.before ∧ reader.Interferes cycle.before again.before ∧
      again.before.shared.generation = load.before.shared.generation ∧
      snapshot.keeper.counted = keeper.before.shared.counted ∧
      snapshot.cycle.counted = cycle.before.shared.counted ∧
      snapshot.cycle.timedBy = cycle.before.shared.timedBy := by
  induction n generalizing w steps with
  | zero =>
      obtain ⟨_, _, _, _, -, -, -, hkeeper⟩ := h.request_bind
      obtain ⟨_, _, _, _, -, -, -, hcycle⟩ := hkeeper.request_bind
      obtain ⟨-, rfl, -⟩ := hcycle.done
      cases hsettled
  | succ n ih =>
      rw [attemptSnapshot_succ] at h
      obtain ⟨_, _, _, _, rfl, hx, ⟨rfl, rfl⟩, hload⟩ := h.request_bind
      obtain ⟨_, _, _, _, rfl, hk, ⟨rfl, rfl⟩, hkeeper⟩ := hload.request_bind
      obtain ⟨_, _, _, _, rfl, hc, ⟨rfl, rfl⟩, hcycle⟩ := hkeeper.request_bind
      obtain ⟨_, _, _, rest, rfl, hy, ⟨rfl, rfl⟩, hagain⟩ := hcycle.request_bind
      have hcoherent := interferes_coherent hw hx
      split at hagain
      next hsame =>
        obtain ⟨rfl, rfl, -⟩ := hagain.done
        exact ⟨[], _, _, _, _, rfl, hcoherent, hk, hc, hy, hsame, rfl, rfl, rfl⟩
      next =>
        have hreads := interferes_coherent (interferes_coherent hcoherent hk) hc
        have hlast := interferes_coherent hreads hy
        obtain ⟨earlier, load, keeper, cycle, again, rfl, hattempt⟩ := ih hlast hagain
        exact ⟨_ :: _ :: _ :: _ :: earlier, load, keeper, cycle, again, rfl, hattempt⟩

/-- Between two loads of one generation no cycle has bumped it. -/
theorem bumps_eq (hbumps : w.shared.bumps ≤ v.shared.bumps)
    (hbound : v.shared.bumps < w.shared.bumps + 2 ^ 64)
    (h : v.shared.generation = w.shared.generation) : v.shared.bumps = w.shared.bumps := by
  simp only [Statuses.generation] at h
  omega

theorem undivided_whole {load keeper cycle again : CycleWorld} (hload : Coherent load)
    (hk : reader.Interferes load keeper) (hc : reader.Interferes keeper cycle)
    (ha : reader.Interferes cycle again) (hgen : again.shared.generation = load.shared.generation)
    (h : Undivided load keeper cycle again) {id : Nat} (htimed : cycle.shared.timedBy = some id)
    (hcounted : id ∈ cycle.shared.counted) : id ∈ keeper.shared.counted := by
  have hkeeper := interferes_coherent hload hk
  have hcycle := interferes_coherent hkeeper hc
  have htoKeeper := (interferes_onwards hload hk id).bumps
  have honwards := interferes_onwards hkeeper hc id
  have hlast := interferes_onwards hcycle ha id
  have hsame := bumps_eq (htoKeeper.trans (honwards.bumps.trans hlast.bumps)) h.bumps hgen
  have hbumps : cycle.shared.bumps = keeper.shared.bumps := by
    have hle := honwards.bumps
    have hle' := hlast.bumps
    omega
  by_cases hcold : Cold keeper id
  · exact (honwards.cold hbumps hcold).2 hcounted
  · simp only [Cold, not_forall, not_not] at hcold
    obtain ⟨m, p, hthread, hm⟩ := hcold
    cases m with
    | opened =>
        -- to close it would have bumped, and once its timing is written it may not count
        have hopen : Unclosed keeper id := by
          intro q hclosed
          rw [hthread] at hclosed
          cases hclosed
        have hunclosed : Unclosed again id := by
          apply (honwards.trans hlast).unclosed _ hopen
          have hle := honwards.bumps
          have hle' := hlast.bumps
          omega
        obtain ⟨m, q, hlater, hm⟩ := h.counts id p hthread hunclosed
        rcases hcycle.timed id htimed m q hlater with rfl | rfl <;> exact hm.elim
    | counted => exact hkeeper.counted id p hthread
    | waiting | timed | closed => exact hm.elim

end Reads

section Samples

abbrev SnapshotStep := Step SnapshotRequest SnapshotRequest.Answer CycleWorld

/-- An order is pending, and the balance is too low to execute it. -/
def respondWithin (s : Statuses) (cycle : Nat) : (q : KeeperRequest) → Option (q.Answer × Statuses)
  | .state op =>
      some ((op.run s.clock s.app).1, (s.writeState op).writeCounts cycle (.state op))
  | .unixTime => some (secondsOf s.clock, s)
  | .checkKeeperBalance => some (.error (.balanceBelowMinimum 0 "0" "1"), s)
  | .pendingKeys => some (oneOrder, s)
  | _ => none

def respondCycle (cycle : Nat) : Player CycleRequest CycleRequest.Answer Statuses
  | .within q, s => (respondWithin s cycle q).map fun answered => (some answered.1, answered.2)
  | .bumpGeneration, s => some ((), { s with bumps := s.bumps + 1 })
  | .startRunning, s =>
      some ((), { s with cycleStatus := { s.cycleStatus with keeperCycleRunning := true } })
  | .elapsedMillis, s => some (250, s)
  | .finishTiming latencyMs, s => some ((), s.timing cycle latencyMs)
  | .recordError report, s => some ((), s.writeState (.recordError report))
  | .recordKeeperCycle _ _, s | .recordSubmitFailure, s => some ((), s)

theorem respondCycle_answers (cycle : Nat) (q : CycleRequest) (s : Statuses) (r : q.Answer)
    (s' : Statuses) (h : respondCycle cycle q s = some (r, s')) : answersCycle cycle q s r s' := by
  cases q with
  | within q =>
      obtain ⟨answered, hanswered, heq⟩ := Option.map_eq_some_iff.mp h
      cases heq
      refine .inr ⟨_, rfl, ?_⟩
      cases q with
      | state op =>
          cases hanswered
          exact ⟨rfl, rfl⟩
      | unixTime | checkKeeperBalance | pendingKeys =>
          cases hanswered
          rfl
      | _ => cases hanswered
  | _ =>
      cases h
      rfl

def beforeCycles : CycleWorld where
  shared := {
    clock := 1010 * nanosPerSecond
    app := .new
    cycleStatus := ⟨false, false, none, none, none⟩
    bumps := 0
    counted := []
    timedBy := none }
  threads _ := .at .waiting (runKeeperCycle nodeCrates keeperSettings sampleSign)

theorem beforeCycles_initial : Initial nodeCrates keeperSettings sampleSign beforeCycles :=
  ⟨fun _ => rfl, rfl, rfl⟩

/-- The first cycle receives its first answers. -/
def firstCycle : Nat → CycleWorld
  | 0 => beforeCycles
  | answers + 1 => (firstCycle answers).drive (respondCycle 0) progressAfter 0

theorem interferes_firstCycle (fewer more : Nat) :
    reader.Interferes (firstCycle fewer) (firstCycle (fewer + more)) := by
  induction more with
  | zero => exact .refl
  | succ more ih =>
      have hdrive : Relation.ReflTransGen (Advances cycles) (firstCycle (fewer + more))
          (firstCycle (fewer + more + 1)) :=
        advances_drive (respondCycle_answers 0)
      exact ih.trans (Relation.ReflTransGen.mono (fun _ _ => .cycle) _ _ hdrive)

theorem firstCycle_threads (answers : Nat) {id : Nat} (h : id ≠ 0) :
    (firstCycle answers).threads id =
      .at .waiting (runKeeperCycle nodeCrates keeperSettings sampleSign) := by
  induction answers with
  | zero => rfl
  | succ answers ih =>
      have hdrive : (firstCycle (answers + 1)).threads id = (firstCycle answers).threads id :=
        drive_threads_of_ne _ _ h
      exact hdrive.trans ih

/-- The reader loads the generation and reads both statuses, in two worlds. -/
def readSteps (early late : CycleWorld) : List SnapshotStep :=
  [⟨early, ⟨.loadGeneration, early.shared.generation⟩, early⟩,
    ⟨early, ⟨.readKeeperStatus, ⟨early.shared.app.keeperStatus, early.shared.counted⟩⟩, early⟩,
    ⟨late, ⟨.readCycleStatus, ⟨late.shared.cycleStatus, late.shared.counted, late.shared.timedBy⟩⟩,
      late⟩,
    ⟨late, ⟨.loadGeneration, late.shared.generation⟩, late⟩]

def readSnapshot (early late : CycleWorld) : Snapshot where
  keeper := ⟨early.shared.app.keeperStatus, early.shared.counted⟩
  cycle := ⟨late.shared.cycleStatus, late.shared.counted, late.shared.timedBy⟩
  settled := true

theorem readSteps_completes {early late : CycleWorld} (hearly : reader.Interferes w early)
    (hlate : reader.Interferes early late) (hsame : late.shared.generation = early.shared.generation) :
    Completes reader keeperStatusSnapshot w (readSteps early late) (readSnapshot early late) late := by
  have hsettled : Runs (if late.shared.generation = early.shared.generation then
      pure (readSnapshot early late) else attemptSnapshot 7) [] (readSnapshot early late) := by
    rw [if_pos hsame]
    exact .done _
  refine ⟨?_, .ask _ _ (.ask _ _ (.ask _ _ (.ask _ _ hsettled)))⟩
  exact .answer hearly ⟨rfl, rfl⟩ (.answer .refl ⟨rfl, rfl⟩ (.answer hlate ⟨rfl, rfl⟩
    (.answer .refl ⟨rfl, rfl⟩ (.here _ .refl))))

end Samples

/-- While the last attempt of the reader is undivided, the pair it returns is whole. -/
theorem keeperStatusSnapshot_whole
    {steps : List (Step SnapshotRequest SnapshotRequest.Answer CycleWorld)} {snapshot : Snapshot}
    (hw : Initial crates settings sign w)
    (h : Completes reader keeperStatusSnapshot w steps snapshot v) (hsettled : snapshot.settled = true)
    (hundivided : ∀ earlier load keeper cycle again, steps = earlier ++ [load, keeper, cycle, again] →
      Undivided load.before keeper.before cycle.before again.before) : ¬snapshot.Torn := by
  obtain ⟨earlier, load, keeper, cycle, again, hsteps, hload, hk, hc, ha, hgen, hkeeper, hcounted,
    htimedBy⟩ := settled_attempt (initial_coherent hw) h hsettled
  rintro ⟨id, htimed, hwritten, hbefore⟩
  rw [htimedBy] at htimed
  rw [hcounted] at hwritten
  rw [hkeeper] at hbefore
  exact hbefore (undivided_whole hload hk hc ha hgen (hundivided _ _ _ _ _ hsteps) htimed hwritten)

theorem firstCycle_opened {early late : Nat} (p : CycleProgram (Except String CycleSummary)) {id : Nat}
    (hearly : (firstCycle early).threads id = .at .opened p)
    (hmode : ((firstCycle early).threads 0).mode? = some .opened →
      ((firstCycle late).threads 0).mode? = some .counted) :
    ∃ m q, (firstCycle late).threads id = .at m q ∧ MayCount m := by
  by_cases hfirst : id = 0
  · subst hfirst
    rw [hearly] at hmode
    cases hlate : (firstCycle late).threads 0 with
    | «at» m q =>
        rw [hlate] at hmode
        obtain rfl := Option.some.inj (hmode rfl)
        exact ⟨_, q, rfl, trivial⟩
    | dropped =>
        rw [hlate] at hmode
        cases hmode rfl
  · rw [firstCycle_threads early hfirst] at hearly
    cases hearly

/-- Between the two reads a cycle writes its counts, or its timing, but not both. -/
theorem keeperStatusSnapshot_whole_duringCycle :
    ¬(readSnapshot (firstCycle 6) (firstCycle 9)).Torn ∧
      ¬(readSnapshot (firstCycle 8) (firstCycle 10)).Torn ∧
      (firstCycle 10).shared.timedBy = some 0 := by
  have hattempt : ∀ {early late : CycleWorld} {earlier load keeper cycle again},
      readSteps early late = earlier ++ [load, keeper, cycle, again] →
        load.before = early ∧ keeper.before = early ∧ cycle.before = late ∧ again.before = late := by
    intro early late earlier load keeper cycle again hsteps
    have hlength : earlier.length + 4 = 4 := by
      simpa [readSteps] using (congrArg List.length hsteps).symm
    obtain rfl := List.eq_nil_of_length_eq_zero (Nat.add_eq_right.mp hlength)
    cases hsteps
    exact ⟨rfl, rfl, rfl, rfl⟩
  refine ⟨?_, ?_, by decide +kernel⟩
  · refine keeperStatusSnapshot_whole beforeCycles_initial (readSteps_completes
      (interferes_firstCycle 0 6) (interferes_firstCycle 6 3) (by decide +kernel)) rfl ?_
    intro earlier load keeper cycle again hsteps
    obtain ⟨hload, hkeeper, hcycle, hagain⟩ := hattempt hsteps
    rw [hload, hkeeper, hcycle, hagain]
    exact ⟨fun id p hid _ => firstCycle_opened p hid (by decide +kernel), by decide +kernel⟩
  · refine keeperStatusSnapshot_whole beforeCycles_initial (readSteps_completes
      (interferes_firstCycle 0 8) (interferes_firstCycle 8 2) (by decide +kernel)) rfl ?_
    intro earlier load keeper cycle again hsteps
    obtain ⟨hload, hkeeper, hcycle, hagain⟩ := hattempt hsteps
    rw [hload, hkeeper, hcycle, hagain]
    exact ⟨fun id p hid _ => firstCycle_opened p hid (by decide +kernel), by decide +kernel⟩

/-- A cycle that was open before the reader's first load counts an order and
writes its timing between the two reads: no pending order, and a latency. -/
theorem keeperStatusSnapshot_torn :
    ∃ w v steps snapshot, Initial nodeCrates keeperSettings sampleSign w ∧
      Completes reader keeperStatusSnapshot w steps snapshot v ∧ snapshot.settled = true ∧
      snapshot.Torn ∧
      snapshot.keeper.status.pendingOrders = 0 ∧ v.shared.app.keeperStatus.pendingOrders = 1 ∧
      snapshot.cycle.status.lastKeeperCycleLatencyMs = some 250 := by
  have hsame : (firstCycle 10).shared.generation = (firstCycle 6).shared.generation := by
    decide +kernel
  refine ⟨beforeCycles, firstCycle 10, readSteps (firstCycle 6) (firstCycle 10),
    readSnapshot (firstCycle 6) (firstCycle 10), beforeCycles_initial,
    readSteps_completes (interferes_firstCycle 0 6) (interferes_firstCycle 6 4) hsame, rfl,
    ⟨0, ?_, ?_, ?_⟩, ?_, ?_, ?_⟩
  all_goals decide +kernel

end So4Oracle.SnapshotTearing
