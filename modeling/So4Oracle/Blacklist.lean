import So4Oracle.GuardModes
import So4Oracle.GuardScript

namespace So4Oracle.Blacklist

open Library.Checked Library.Requests Library.Safety Library.Breaker Wire Config State Chain Submit
  Handler Keeper KeeperRuns KeeperRequests KeeperGuard GuardModes

variable {crates : Crates} {settings : Settings} {sign : Transaction → Except String String}
  {m m' : Mode} {w v : Watched}

def Work.handledKey : Work → Option String
  | .setPrices _ => none
  | .handler _ key => some key

/-- The key of the transaction that was sent last. -/
def newestKey (w : World) : Option String :=
  (w.sent.head?.map Sent.work).bind Work.handledKey

/-- The key of a new submission was not barred when it began. -/
def TriedFree (e : GuardEvent) (older : List GuardEvent) : Prop :=
  ∀ key, e = .tried key → ¬BarredIn key older

structure Barring (m : Mode) (w : Watched) : Prop extends Tracked m w where
  barred : ∀ key, BarredIn key w.history → w.guard.bars key = true
  tried : Throughout TriedFree w.history
  awaiting : w.world.phase = .awaiting →
    ∃ m', m = .submitting m' ∧ ∀ key, newestKey w.world = some key → m'.spared = some key

theorem barring_moves (hw : Barring m w) (h : Moves w v) : Barring m v := by
  obtain ⟨e, he⟩ := moves_moved h hw.staged
  refine ⟨tracked_moves hw.toTracked h, fun key hin => ?_, ?_, fun hphase => ?_⟩
  · rw [he.history] at hin
    rw [he.guard]
    exact Guard.bars_of_barredIn (hw.barred key) hin
  · rw [he.history]
    refine hw.tried.record (fun e' heq key htried => ?_)
    obtain rfl | ⟨key', rfl, -⟩ | ⟨counter, key', rfl⟩ := he.event
    · cases heq
    · cases heq
      cases htried
    · cases heq
      cases htried
  · rcases moves_world h with hworld | hi
    · rw [hworld] at hphase ⊢
      exact hw.awaiting hphase
    · rw [interference_phase hi] at hphase
      rw [newestKey, interference_head hi Sent.work (fun _ => rfl)]
      exact hw.awaiting hphase

/-- A request that is no part of a submission neither starts one nor ends one. -/
theorem answer_awaiting {q : KeeperRequest} {r : q.Answer} (hsend : ∀ work tx xdr, q ≠ .send work tx xdr)
    (hsettle : ∀ xdr, q ≠ .settle xdr) (ha : (watched crates settings).answer q w r v)
    (hphase : v.world.phase = .awaiting) :
    w.world.phase = .awaiting ∧ newestKey v.world = newestKey w.world := by
  obtain ⟨⟨-, ha⟩, -⟩ := ha
  cases q with
  | state op =>
      obtain ⟨-, ha⟩ := ha
      rw [ha] at hphase ⊢
      cases op with
      | updateSubmittedPrices => cases hphase
      | _ => exact ⟨hphase, rfl⟩
  | unixTime | accountSequence =>
      obtain ⟨-, ha⟩ := ha
      rw [ha] at hphase ⊢
      exact ⟨hphase, rfl⟩
  | checkKeeperBalance | pendingKeys | sleep =>
      rw [ha] at hphase ⊢
      exact ⟨hphase, rfl⟩
  | send work tx xdr => exact absurd rfl (hsend work tx xdr)
  | settle xdr => exact absurd rfl (hsettle xdr)
  | abort => exact absurd ha id

theorem reportedPhase_ne_awaiting (work : Work) (r : Except SubmitError Nat) :
    reportedPhase work r ≠ .awaiting := by
  cases r with
  | ok ledger =>
      show (if _ then _ else _) ≠ _
      split
      · exact fun h => nomatch h
      · exact fun h => nomatch h
  | error e => exact fun h => nomatch h

theorem calls_spared {key : String} (hm : m.Calls key) : m.spared = some key := by
  cases hm <;> rfl

theorem barring_step {q : KeeperRequest} {r : q.Answer} (hw : Barring m w) (hstep : Step m q r m')
    (ha : (watched crates settings).answer q w r v) : Barring m' v := by
  refine ⟨tracked_step hw.toTracked hstep ha, fun key hin => ?_, ?_, fun hphase => ?_⟩
  · rw [ha.2.2.1] at hin
    rw [answer_watched ha]
    exact Guard.bars_of_barredIn (hw.barred key) hin
  · rw [ha.2.2.1]
    refine hw.tried.record (fun e heq key htried hin => ?_)
    subst htried
    cases hstep with
    | submit hm method tx xdr =>
        cases heq
        have hspared := hw.spared key (calls_spared hm)
        rw [hw.barred key hin] at hspared
        cases hspared
    | routine m hq r =>
        rw [requestEvent_routine hq] at heq
        cases heq
    | _ => cases heq
  · have hidle : (∀ work tx xdr, q ≠ .send work tx xdr) → (∀ xdr, q ≠ .settle xdr) →
        ∃ m', m = .submitting m' ∧ ∀ key, newestKey v.world = some key → m'.spared = some key := by
      intro hsend hsettle
      obtain ⟨hawaiting, hnewest⟩ := answer_awaiting hsend hsettle ha hphase
      rw [hnewest]
      exact hw.awaiting hawaiting
    cases hstep with
    | routine m hq r =>
        refine hidle ?_ ?_
        · rintro work tx xdr rfl
          exact hq
        · rintro xdr rfl
          exact hq
    | publish hm batch tx xdr =>
        obtain ⟨⟨-, hv⟩, -⟩ := ha
        refine ⟨m, rfl, fun key hkey => ?_⟩
        rw [hv] at hkey
        cases hkey
    | submit hm method tx xdr =>
        obtain ⟨⟨-, hv⟩, -⟩ := ha
        refine ⟨m, rfl, fun key' hkey => ?_⟩
        rw [hv] at hkey
        exact (calls_spared hm).trans hkey
    | settle m xdr r =>
        obtain ⟨⟨-, s, rest, tr, -, -, -, hv⟩, -⟩ := ha
        rw [hv] at hphase
        exact absurd hphase (reportedPhase_ne_awaiting s.work r)
    | skip hm | pass hm | reset hm | overflow hm | failed hm | exhausted hm =>
        obtain ⟨m', rfl, -⟩ := hidle (fun _ _ _ h => nomatch h) (fun _ h => nomatch h)
        cases hm
    | freezeFailed | overFrozen | barFrozen | found | condemn | bar =>
        obtain ⟨m', hm, -⟩ := hidle (fun _ _ _ h => nomatch h) (fun _ h => nomatch h)
        cases hm

theorem barring_carried : Carried (watched crates settings) cut Barring where
  stable m w v hw h := barring_moves hw h
  step m q r m' w v hw hstep ha := barring_step hw hstep ha
  atRest m w hm hw := by
    refine ⟨hw.toTracked.atRest hm, hw.barred, hw.tried, fun hphase => ?_⟩
    obtain ⟨m', rfl, -⟩ := hw.awaiting hphase
    cases hm
  drop m w v hw hd := by
    subst hd
    exact ⟨hw.toTracked.leave, hw.barred, hw.tried, fun h => nomatch h⟩
  enter w hw := ⟨hw.toTracked.enter, hw.barred, hw.tried, fun h => nomatch h⟩

theorem barring_of_unobserved (h : Unobserved w) : Barring .free w := by
  refine ⟨h.tracked, fun key hin => ?_, ?_, fun hphase => ?_⟩
  · rw [h.history] at hin
    exact absurd hin id
  · rw [h.history]
    trivial
  · rw [h.phase] at hphase
    cases hphase

/-- In the history of every run a key that is inserted into the blacklist is not
submitted for before it is removed, and while a submission is under way its key
is not in the blacklist. -/
theorem executeKeeperCycle_respects_blacklist {u : Watched} (hw : Unobserved w)
    (hrun : GuardRuns crates settings sign (watched crates settings) cut w v)
    (hvisit : Visits (watched crates settings) (executeKeeperCycle crates settings sign) v.enter u) :
    (∀ newer key between older,
      u.history = newer ++ .tried key :: (between ++ .barred key :: older) → .freed key ∈ between) ∧
      ∀ s rest method key, u.world.phase = .awaiting → u.world.sent = s :: rest →
        s.work = .handler method key → key ∉ u.world.app.frozenOrderBlacklist := by
  obtain ⟨m, hu⟩ := barring_carried.visits (barring_of_unobserved hw) hrun hvisit
  constructor
  · intro newer key between older hhistory
    have htried := hu.tried
    rw [hhistory] at htried
    by_contra hfreed
    exact htried.at key rfl (barredIn_iff.mpr ⟨between, older, rfl, hfreed⟩)
  · intro s rest method key hphase hsent hwork hmem
    obtain ⟨m', rfl, hspared⟩ := hu.awaiting hphase
    have hkey : newestKey u.world = some key := by
      rw [newestKey, hsent]
      exact congrArg Work.handledKey hwork
    have hfree : u.world.app.frozenOrderBlacklist.contains key = false :=
      hu.spared key (hspared key hkey)
    rw [Std.TreeMap.contains_iff_mem.mpr hmem] at hfree
    cases hfree

open KeeperScript GuardScript

section Samples

/-- The fifth failure of an order bars it, with the freeze refused as well. -/
def refusedOrder : Watched := watchCycle (refusedHandlers fun _ => false) (talliedWorld 0 4)

/-- The cycle after that. -/
def skippedOrder : Watched :=
  play (watch (respond (refusedHandlers fun _ => false)))
    (executeKeeperCycle nodeCrates keeperSettings sampleSign) refusedOrder.enter

end Samples

theorem executeKeeperCycle_respects_blacklist_refused :
    skippedOrder.history = [.reset .executionFailures "aa", .barred "aa", .tried "aa",
        .counted .executionFailures "aa", .tried "aa"] ∧
      skippedOrder.world.app.frozenOrderBlacklist.contains "aa" = true ∧
      ∀ newer key between older,
        skippedOrder.history = newer ++ .tried key :: (between ++ .barred key :: older) →
          .freed key ∈ between :=
  ⟨by decide +kernel, by decide +kernel,
    (executeKeeperCycle_respects_blacklist ⟨rfl, rfl, rfl, rfl⟩
      (guardRuns_watchCycle (refusedHandlers_possible _) .start)
      (visits_play (watch_plays (refusedHandlers_possible _)) _ _)).1⟩

end So4Oracle.Blacklist
