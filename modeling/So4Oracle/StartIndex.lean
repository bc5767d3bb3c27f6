import Mathlib.Data.List.Chain
import So4Oracle.Library.Cyclic
import So4Oracle.PendingRotation

namespace So4Oracle.StartIndex

open Library.Checked Library.Requests Library.Cyclic Wire Config PendingKeys

/-- One update of the shared index, by a call that sees the given count; its turn
is the number of updates before it. -/
structure Fetch where
  turn : Nat
  count : Nat
  found : Nat
  left : Nat

structure Call where
  kind : Kind
  fetch : Option Fetch
  sent : Option (List String)

abbrev KeysProgram := PendingProgram (Panicking (Except String (List String)))

/-- The shared index, its updates in their order, the calls in progress (at most
one of a kind), and the calls that have returned or were dropped, in that order. -/
structure Pool where
  index : Nat
  updates : List Fetch
  running : Kind → Option (Call × KeysProgram)
  finished : List Call

inductive Action
  | start (kind : Kind)
  | reply (kind : Kind) (r : Except String String)
  | fetch (kind : Kind)
  | leave (kind : Kind)

def initial : Pool := ⟨0, [], fun _ => none, []⟩

variable (crates : Crates) (settings : Settings)

def Pool.resume (pool : Pool) (kind : Kind) (call : Call) (program : KeysProgram) : Pool :=
  { pool with running := Function.update pool.running kind (some (call, program)) }

def step (pool : Pool) : Action → Option Pool
  | .start kind =>
      match pool.running kind with
      | some _ => none
      | none =>
          some (pool.resume kind ⟨kind, none, none⟩
            (getPendingKeys crates settings kind.countMethod kind.keysMethod))
  | .reply kind r =>
      match pool.running kind with
      | some (call, .ask (.simulateContractCall _ method args) next) =>
          some (pool.resume kind
            { call with sent := if method = kind.keysMethod then some args else call.sent } (next r))
      | _ => none
  | .fetch kind =>
      match pool.running kind with
      | some (call, .ask (.advanceStartIndex count) next) =>
          match nextStartIndex count pool.index with
          | .ok left =>
              let fetch : Fetch := ⟨pool.updates.length, count, pool.index, left⟩
              some { pool.resume kind { call with fetch := some fetch } (next (.ok pool.index)) with
                index := left
                updates := pool.updates ++ [fetch] }
          | .error fault => some (pool.resume kind call (next (.error fault)))
      | _ => none
  | .leave kind =>
      match pool.running kind with
      | some (call, _) =>
          some { pool with
            running := Function.update pool.running kind none
            finished := pool.finished ++ [call] }
      | none => none

def run (actions : List Action) (pool : Pool) : Option Pool :=
  actions.foldlM (step crates settings) pool

/-- What the updates have made of the index, which is zero at first. -/
def indexAfter (updates : List Fetch) : Nat := ((updates.getLast?).map Fetch.left).getD 0

structure Fetch.Follows (before : List Fetch) (f : Fetch) : Prop where
  turn : f.turn = before.length
  pos : 0 < f.count
  found : f.found = indexAfter before
  left : nextStartIndex f.count f.found = .ok f.left

def Linked (updates : List Fetch) : Prop :=
  ∀ i (f : Fetch), updates[i]? = some f → f.Follows (updates.take i)

def Made (updates : List Fetch) (f : Fetch) : Prop := updates[f.turn]? = some f

structure Call.Recorded (updates : List Fetch) (call : Call) : Prop where
  fetched : ∀ f, call.fetch = some f → Made updates f
  sent : ∀ args, call.sent = some args →
    ∃ f, call.fetch = some f ∧ args = keysArgs settings f.found f.count

/-- How far a call in progress has come. -/
inductive Stage (updates : List Fetch) (kind : Kind) : Call → KeysProgram → Prop
  | counting :
      Stage updates kind ⟨kind, none, none⟩
        (getPendingKeys crates settings kind.countMethod kind.keysMethod)
  | fetching {count : Nat} (hpos : 0 < count) (hlt : count < 2 ^ 32) :
      Stage updates kind ⟨kind, none, none⟩
        (Program.request (PendingRequest.advanceStartIndex count) >>=
          fetchKeys crates settings kind.keysMethod count)
  | sending {f : Fetch} (hf : Made updates f) :
      Stage updates kind ⟨kind, some f, none⟩
        (fetchKeys crates settings kind.keysMethod f.count (.ok f.found))
  | ended {call : Call} {r : Panicking (Except String (List String))} (hkind : call.kind = kind)
      (hcall : call.Recorded settings updates) : Stage updates kind call (.done r)

structure Invariant (pool : Pool) : Prop where
  bound : pool.index + 1 < 2 ^ 32
  index : pool.index = indexAfter pool.updates
  linked : Linked pool.updates
  running : ∀ kind call program, pool.running kind = some (call, program) →
    Stage crates settings pool.updates kind call program
  finished : ∀ call ∈ pool.finished, call.Recorded settings pool.updates

variable {crates settings}

section Updates

variable {updates : List Fetch} {f g : Fetch}

theorem indexAfter_snoc : indexAfter (updates ++ [f]) = f.left := by
  rw [indexAfter, List.getLast?_concat]
  rfl

theorem Linked.snoc (h : Linked updates) (hf : f.Follows updates) : Linked (updates ++ [f]) := by
  intro i g hg
  rcases Nat.lt_or_ge i updates.length with hlt | hge
  · rw [List.getElem?_append_left hlt] at hg
    rw [List.take_append_of_le_length hlt.le]
    exact h i g hg
  · rw [List.getElem?_append_right hge, List.getElem?_singleton] at hg
    split at hg
    next hzero =>
      cases hg
      obtain rfl : i = updates.length := by omega
      rwa [List.take_left]
    next => cases hg

theorem Made.snoc (h : Made updates f) : Made (updates ++ [g]) f :=
  (List.getElem?_append_left (List.getElem?_eq_some_iff.mp h).1).trans h

theorem Linked.follows (h : Linked updates) (hf : Made updates f) :
    f.Follows (updates.take f.turn) := h f.turn f hf

/-- What an update leaves is what the next one finds. -/
theorem Linked.found_eq_left (h : Linked updates) (hf : Made updates f) (hg : Made updates g)
    (hnext : g.turn = f.turn + 1) : g.found = f.left := by
  have hlt := (List.getElem?_eq_some_iff.mp hf).1
  rw [(h.follows hg).found, hnext, List.take_add_one, hf, Option.toList_some, indexAfter_snoc]

/-- The first update finds zero. -/
theorem Linked.found_eq_zero (h : Linked updates) (hf : Made updates f) (hfirst : f.turn = 0) :
    f.found = 0 := by
  rw [(h.follows hf).found, hfirst]
  rfl

/-- An index that was left for at most as many keys is below the count. -/
theorem Linked.found_lt (h : Linked updates) (hf : Made updates f)
    (hcount : ∀ g, Made updates g → f.turn = g.turn + 1 → g.count ≤ f.count) :
    f.found < f.count := by
  have hpos := (h.follows hf).pos
  rcases Nat.eq_zero_or_eq_succ_pred f.turn with hzero | hsucc
  · rwa [h.found_eq_zero hf hzero]
  · have hlt : f.turn.pred < updates.length := by
      have := (List.getElem?_eq_some_iff.mp hf).1
      omega
    have hg : Made updates updates[f.turn.pred] := by
      rw [Made, (h _ _ (List.getElem?_eq_getElem hlt)).turn, List.length_take, min_eq_left hlt.le]
      exact List.getElem?_eq_getElem hlt
    have hturn : f.turn = updates[f.turn.pred].turn + 1 := by
      rw [(h _ _ (List.getElem?_eq_getElem hlt)).turn, List.length_take, min_eq_left hlt.le]
      exact hsucc
    rw [h.found_eq_left hg hf hturn]
    exact (nextStartIndex_lt (h.follows hg).left (h.follows hg).pos).trans_le (hcount _ hg hturn)

end Updates

section Stages

variable {updates : List Fetch} {f g : Fetch} {kind : Kind} {call : Call} {program : KeysProgram}

theorem recorded_new : Call.Recorded settings updates ⟨kind, none, none⟩ := by
  constructor
  · intro f hf
    cases hf
  · intro args hargs
    cases hargs

theorem recorded_fetched (hf : Made updates f) :
    Call.Recorded settings updates ⟨kind, some f, none⟩ := by
  constructor
  · intro g hg
    cases hg
    exact hf
  · intro args hargs
    cases hargs

theorem recorded_sent (hf : Made updates f) :
    Call.Recorded settings updates ⟨kind, some f, some (keysArgs settings f.found f.count)⟩ := by
  constructor
  · intro g hg
    cases hg
    exact hf
  · intro args hargs
    cases hargs
    exact ⟨f, rfl, rfl⟩

theorem Call.Recorded.snoc (h : call.Recorded settings updates) :
    call.Recorded settings (updates ++ [g]) :=
  ⟨fun f hf => (h.fetched f hf).snoc, h.sent⟩

theorem Stage.recorded (h : Stage crates settings updates kind call program) :
    call.Recorded settings updates := by
  cases h with
  | counting => exact recorded_new
  | fetching _ _ => exact recorded_new
  | sending hf => exact recorded_fetched hf
  | ended _ hcall => exact hcall

theorem Stage.snoc (h : Stage crates settings updates kind call program) :
    Stage crates settings (updates ++ [g]) kind call program := by
  cases h with
  | counting => exact .counting
  | fetching hpos hlt => exact .fetching hpos hlt
  | sending hf => exact .sending hf.snoc
  | ended hkind hcall => exact .ended hkind hcall.snoc

theorem fetchFrom_stage (kind : Kind) (r : Except String String) :
    Stage crates settings updates kind ⟨kind, none, none⟩
      (fetchFrom crates settings kind.keysMethod r) := by
  cases r with
  | error e => exact .ended rfl recorded_new
  | ok text =>
      cases hparse : parseU32FromResult crates text with
      | error e =>
          simp only [fetchFrom, hparse]
          exact .ended rfl recorded_new
      | ok count =>
          simp only [fetchFrom, hparse]
          split
          next => exact .ended rfl recorded_new
          next hne => exact .fetching (Nat.pos_of_ne_zero hne) (parseU32FromResult_lt crates hparse)

end Stages

section Runs

variable {pool pool' : Pool} {kind : Kind} {call : Call} {program : KeysProgram}

theorem Invariant.resume (h : Invariant crates settings pool)
    (hs : Stage crates settings pool.updates kind call program) :
    Invariant crates settings (pool.resume kind call program) := by
  refine ⟨h.bound, h.index, h.linked, fun other call' program' hr => ?_, h.finished⟩
  by_cases hother : other = kind
  · subst hother
    simp only [Pool.resume, Function.update_self, Option.some.injEq, Prod.mk.injEq] at hr
    obtain ⟨rfl, rfl⟩ := hr
    exact hs
  · simp only [Pool.resume, Function.update_of_ne hother] at hr
    exact h.running other call' program' hr

/-- The update of the index by a call that has seen its count. -/
theorem Invariant.fetched (h : Invariant crates settings pool) {count left : Nat} (hpos : 0 < count)
    (hlt : count < 2 ^ 32) (hleft : nextStartIndex count pool.index = .ok left)
    (hstage : Stage crates settings
      (pool.updates ++ [⟨pool.updates.length, count, pool.index, left⟩]) kind call program) :
    Invariant crates settings { pool.resume kind call program with
      index := left
      updates := pool.updates ++ [⟨pool.updates.length, count, pool.index, left⟩] } := by
  have hnext : Invariant crates settings { pool with
      index := left
      updates := pool.updates ++ [⟨pool.updates.length, count, pool.index, left⟩] } := by
    constructor
    · exact (Nat.succ_le_of_lt (nextStartIndex_lt hleft hpos)).trans_lt hlt
    · exact (indexAfter_snoc (f := ⟨_, _, _, left⟩)).symm
    · exact h.linked.snoc ⟨rfl, hpos, h.index, hleft⟩
    · exact fun other call' program' hr => (h.running other call' program' hr).snoc
    · exact fun c hc => (h.finished c hc).snoc
  exact hnext.resume hstage

theorem step_invariant {action : Action} (h : Invariant crates settings pool)
    (hs : step crates settings pool action = some pool') : Invariant crates settings pool' := by
  cases action with
  | start kind =>
      cases hr : pool.running kind with
      | some c => simp [step, hr] at hs
      | none =>
          simp only [step, hr] at hs
          cases hs
          exact h.resume .counting
  | leave kind =>
      cases hr : pool.running kind with
      | none => simp [step, hr] at hs
      | some c =>
          obtain ⟨call, program⟩ := c
          simp only [step, hr] at hs
          cases hs
          refine ⟨h.bound, h.index, h.linked, fun other call' program' hother => ?_, fun c hc => ?_⟩
          · by_cases he : other = kind
            · simp [he] at hother
            · simp only [Function.update_of_ne he] at hother
              exact h.running other call' program' hother
          · rcases List.mem_append.mp hc with hc | hc
            · exact h.finished c hc
            · obtain rfl := List.mem_singleton.mp hc
              exact (h.running kind _ program hr).recorded
  | reply kind r =>
      cases hr : pool.running kind with
      | none => simp [step, hr] at hs
      | some c =>
          obtain ⟨call, program⟩ := c
          cases h.running kind call program hr with
          | counting =>
              have hmethod : ¬kind.countMethod = kind.keysMethod := by cases kind <;> decide
              have hnext := h.resume (fetchFrom_stage kind r)
              simp only [step, hr, getPendingKeys, Program.request_bind, if_neg hmethod] at hs
              cases hs
              exact hnext
          | fetching _ _ => simp [step, hr] at hs
          | sending hf =>
              simp only [step, hr, fetchKeys, Program.request_bind, if_pos] at hs
              cases hs
              apply h.resume
              cases r with
              | error e => exact .ended rfl (recorded_sent hf)
              | ok result => exact .ended rfl (recorded_sent hf)
          | ended _ _ => simp [step, hr] at hs
  | fetch kind =>
      cases hr : pool.running kind with
      | none => simp [step, hr] at hs
      | some c =>
          obtain ⟨call, program⟩ := c
          cases h.running kind call program hr with
          | counting => simp [step, hr, getPendingKeys] at hs
          | sending hf => simp [step, hr, fetchKeys] at hs
          | ended _ _ => simp [step, hr] at hs
          | @fetching count hpos hlt =>
              obtain ⟨left, hleft⟩ := nextStartIndex_total count h.bound
              simp only [step, hr, Program.request_bind, hleft] at hs
              cases hs
              exact h.fetched hpos hlt hleft (.sending List.getElem?_concat_length)

theorem run_invariant {actions : List Action} (h : Invariant crates settings pool)
    (hr : run crates settings actions pool = some pool') : Invariant crates settings pool' := by
  induction actions generalizing pool with
  | nil =>
      cases hr
      exact h
  | cons action actions ih =>
      rw [run, List.foldlM_cons] at hr
      obtain ⟨next, hnext, hrest⟩ := Option.bind_eq_some_iff.mp hr
      exact ih (step_invariant h hnext) hrest

theorem initial_invariant : Invariant crates settings initial := by
  refine ⟨by decide, rfl, fun i f h => ?_, fun kind call program h => ?_, fun call h => ?_⟩
  · cases h
  · cases h
  · cases h

end Runs

section Starts

variable (settings)

def SendsInRange (call : Call) : Prop :=
  ∀ start count, call.sent = some (keysArgs settings start count) → start < count

/-- What the n calls of one kind must do to give every key its turn. -/
def CoversEveryStart (block : List Call) : Prop :=
  ∃ starts : List Nat, block.map Call.sent =
      starts.map (fun start => some (keysArgs settings start block.length)) ∧
    starts.Perm (List.range block.length)

variable {settings}

/-- The call that moved the index last before this one saw no higher count. -/
def CountKeepsUp (updates : List Fetch) (call : Call) : Prop :=
  ∀ f, call.fetch = some f → ∀ g ∈ updates, f.turn = g.turn + 1 → g.count ≤ f.count

/-- Consecutive calls of one kind that all see as many keys as there are calls. -/
structure Block (calls block : List Call) (kind : Kind) : Prop where
  consecutive : block <:+: calls.filter fun call => call.kind = kind
  count : ∀ call ∈ block, ∃ f, call.fetch = some f ∧ f.count = block.length
  sent : ∀ call ∈ block, call.sent ≠ none

/-- No other call moves the index between one of these calls and the next. -/
def Undisturbed (block : List Call) : Prop :=
  block.IsChain fun a b => ∀ f g, a.fetch = some f → b.fetch = some g → g.turn = f.turn + 1

variable {updates : List Fetch} {call : Call} {calls block : List Call} {kind : Kind}

theorem sendsInRange_of_keepsUp (hlinked : Linked updates) (h : call.Recorded settings updates)
    (hkeeps : CountKeepsUp updates call) : SendsInRange settings call := by
  intro start count hsent
  obtain ⟨f, hf, hargs⟩ := h.sent _ hsent
  simp only [keysArgs, List.cons.injEq, and_true, true_and] at hargs
  obtain rfl := RustText.toString_inj hargs.1
  obtain rfl := RustText.toString_inj hargs.2
  exact hlinked.found_lt (h.fetched f hf) fun g hg => hkeeps f hf g (List.mem_of_getElem? hg)

/-- The first of the calls finds the index in range, and every later one finds what
the one before it, with the same count, has left. -/
theorem Block.found_lt (hlinked : Linked updates) (h : ∀ call ∈ block, call.Recorded settings updates)
    (hblock : Block calls block kind) (hfirst : ∀ call ∈ block.head?, CountKeepsUp updates call)
    (hundisturbed : Undisturbed block) {f : Fetch} (hcall : call ∈ block)
    (hf : call.fetch = some f) : f.found < block.length := by
  obtain ⟨i, hi, rfl⟩ := List.getElem_of_mem hcall
  obtain ⟨f', hf', hcount⟩ := hblock.count _ hcall
  obtain rfl : f' = f := Option.some.inj (hf'.symm.trans hf)
  have hmade := (h _ hcall).fetched f' hf
  cases i with
  | zero =>
      have hhead : block[0] ∈ block.head? := by
        rw [List.head?_eq_getElem?, List.getElem?_eq_getElem hi]
        rfl
      rw [← hcount]
      exact hlinked.found_lt hmade fun g hg => hfirst _ hhead f' hf g (List.mem_of_getElem? hg)
  | succ i =>
      have hbefore := List.getElem_mem (Nat.lt_of_succ_lt hi)
      obtain ⟨e, he, hsame⟩ := hblock.count _ hbefore
      have hturn := List.isChain_iff_getElem.mp hundisturbed i hi e f' he hf
      have hlast := (h _ hbefore).fetched e he
      rw [hlinked.found_eq_left hlast hmade hturn, ← hsame]
      exact nextStartIndex_lt (hlinked.follows hlast).left (hlinked.follows hlast).pos

def foundOf (call : Call) : Nat := (call.fetch.map Fetch.found).getD 0

theorem Block.coversEveryStart (hlinked : Linked updates)
    (h : ∀ call ∈ block, call.Recorded settings updates) (hblock : Block calls block kind)
    (hfirst : ∀ call ∈ block.head?, CountKeepsUp updates call) (hundisturbed : Undisturbed block) :
    CoversEveryStart settings block := by
  refine ⟨block.map foundOf, ?_, ?_⟩
  · rw [List.map_map]
    apply List.map_congr_left
    intro call hcall
    obtain ⟨f, hf, hcount⟩ := hblock.count call hcall
    obtain ⟨args, hargs⟩ := Option.ne_none_iff_exists'.mp (hblock.sent call hcall)
    obtain ⟨g, hg, rfl⟩ := (h call hcall).sent args hargs
    obtain rfl : f = g := Option.some.inj (hf.symm.trans hg)
    simp [foundOf, hf, hargs, hcount]
  · apply Counts.perm_range
    · apply (List.isChain_map foundOf).mpr
      refine hundisturbed.imp_of_mem_imp (fun a b ha hb hab => ?_)
      obtain ⟨f, hf, hcount⟩ := hblock.count a ha
      obtain ⟨g, hg, -⟩ := hblock.count b hb
      have hmade := (h a ha).fetched f hf
      have hrange := hblock.found_lt hlinked h hfirst hundisturbed ha hf
      have hleft := (hlinked.follows hmade).left
      rw [hcount] at hleft
      simp only [foundOf, hf, hg, Option.map_some, Option.getD_some,
        hlinked.found_eq_left hmade ((h b hb).fetched g hg) (hab f g hf hg)]
      exact nextStartIndex_of_lt hrange hleft
    · intro x hx
      obtain ⟨call, hcall, rfl⟩ := List.mem_map.mp hx
      obtain ⟨f, hf, -⟩ := hblock.count call hcall
      have hrange := hblock.found_lt hlinked h hfirst hundisturbed hcall hf
      simpa [foundOf, hf] using hrange
    · exact List.length_map _

end Starts

section Samples

def countCrates : Crates :=
  { SubmitOutcome.sampleCrates with
    json := fun text =>
      if text = "2" then .ok (.number (some 2) "2")
      else if text = "3" then .ok (.number (some 3) "3")
      else .error "expected value at line 1 column 1" }

/-- A whole call that sees the given count; the keys never arrive. -/
def consult (kind : Kind) (count : String) : List Action :=
  [.start kind, .reply kind (.ok count), .fetch kind, .reply kind (.error "operation timed out"),
    .leave kind]

def sampleCall (kind : Kind) (turn count found left : Nat) : Call :=
  ⟨kind, some ⟨turn, count, found, left⟩, some (keysArgs sampleSettings found count)⟩

/-- A call for deposits that is under way while two calls for orders come and go. -/
def overlapping : List Action :=
  [.start .deposits, .reply .deposits (.ok "3")] ++ consult .orders "2" ++ consult .orders "2" ++
    [.fetch .deposits, .reply .deposits (.error "operation timed out"), .leave .deposits]

def twoOrders : List Call := [sampleCall .orders 0 2 0 1, sampleCall .orders 1 2 1 0]

def oneDeposit : Call := sampleCall .deposits 2 3 0 1

def crowdedOut : List Call :=
  [sampleCall .orders 0 3 0 1, sampleCall .orders 1 3 1 2, sampleCall .deposits 2 2 2 1]

end Samples

/-- A call sends a start in range when the last call that moved the index saw no
higher count, and n calls of one kind send every start when no other call moves
it between them. -/
theorem getPendingKeys_starts {actions : List Action} {pool : Pool}
    (h : run crates settings actions initial = some pool) :
    (∀ call ∈ pool.finished, CountKeepsUp pool.updates call → SendsInRange settings call) ∧
      ∀ kind block, Block pool.finished block kind →
        (∀ call ∈ block.head?, CountKeepsUp pool.updates call) → Undisturbed block →
          CoversEveryStart settings block := by
  have hv := run_invariant initial_invariant h
  refine ⟨fun call hcall => sendsInRange_of_keepsUp hv.linked (hv.finished call hcall), ?_⟩
  intro kind block hblock hfirst hundisturbed
  refine hblock.coversEveryStart hv.linked (fun call hcall => hv.finished call ?_) hfirst hundisturbed
  exact List.mem_of_mem_filter (hblock.consecutive.subset hcall)

theorem getPendingKeys_starts_overlapping :
    ∃ pool, run countCrates sampleSettings overlapping initial = some pool ∧
      pool.finished = twoOrders ++ [oneDeposit] ∧ SendsInRange sampleSettings oneDeposit ∧
      CoversEveryStart sampleSettings twoOrders := by
  refine ⟨_, rfl, rfl, ?_⟩
  have hrun : run countCrates sampleSettings overlapping initial = some _ := rfl
  obtain ⟨hrange, hcover⟩ := getPendingKeys_starts hrun
  have hdeposit : CountKeepsUp [⟨0, 2, 0, 1⟩, ⟨1, 2, 1, 0⟩, ⟨2, 3, 0, 1⟩] oneDeposit := by
    simp [CountKeepsUp, oneDeposit, sampleCall]
  have hblock : Block (twoOrders ++ [oneDeposit]) twoOrders .orders := by
    constructor
    · exact ⟨[], [], rfl⟩
    · simp [twoOrders, sampleCall]
    · simp [twoOrders, sampleCall]
  have hfirst : ∀ call ∈ twoOrders.head?,
      CountKeepsUp [⟨0, 2, 0, 1⟩, ⟨1, 2, 1, 0⟩, ⟨2, 3, 0, 1⟩] call := by
    simp [CountKeepsUp, twoOrders, sampleCall]
  exact ⟨hrange oneDeposit (.tail _ (.tail _ (.head _))) hdeposit,
    hcover .orders twoOrders hblock hfirst (by simp [Undisturbed, twoOrders, sampleCall])⟩

theorem getPendingKeys_starts_out_of_range :
    ∃ pool, run countCrates sampleSettings
        (consult .orders "3" ++ consult .orders "3" ++ consult .deposits "2") initial = some pool ∧
      pool.finished = crowdedOut ∧ ∃ call ∈ crowdedOut, ¬SendsInRange sampleSettings call := by
  refine ⟨_, rfl, rfl, sampleCall .deposits 2 2 2 1, by simp [crowdedOut], fun h => ?_⟩
  exact absurd (h 2 2 rfl) (by decide)

section Drops

variable {pool : Pool} {kind : Kind} {text low high : String} {count left lower higher : Nat}

variable (settings) in
/-- The pool after a whole call. -/
def Pool.consulted (pool : Pool) (kind : Kind) (count left : Nat) : Pool :=
  { pool with
    index := left
    updates := pool.updates ++ [⟨pool.updates.length, count, pool.index, left⟩]
    finished := pool.finished ++ [⟨kind, some ⟨pool.updates.length, count, pool.index, left⟩,
      some (keysArgs settings pool.index count)⟩] }

theorem run_consult (hidle : pool.running = fun _ => none)
    (hparse : parseU32FromResult crates text = .ok count) (hpos : 0 < count)
    (hleft : nextStartIndex count pool.index = .ok left) :
    run crates settings (consult kind text) pool = some (pool.consulted settings kind count left) := by
  have hmethod : ¬kind.countMethod = kind.keysMethod := by cases kind <;> decide
  obtain ⟨index, updates, running, finished⟩ := pool
  obtain rfl : running = fun _ => none := hidle
  simp [run, consult, step, Pool.resume, getPendingKeys, fetchFrom, fetchKeys, hparse, hpos.ne',
    hmethod, hleft, Pool.consulted]

theorem run_append (first rest : List Action) :
    run crates settings (first ++ rest) pool =
      (run crates settings first pool).bind (run crates settings rest) :=
  List.foldlM_append

variable (settings) in
/-- After so many calls for orders that all see the same higher count. -/
def ordersSeen (count calls : Nat) : Pool where
  index := calls
  updates := (List.range calls).map fun i => ⟨i, count, i, i + 1⟩
  running := fun _ => none
  finished := (List.range calls).map fun i =>
    ⟨.orders, some ⟨i, count, i, i + 1⟩, some (keysArgs settings i count)⟩

theorem run_ordersSeen (hparse : parseU32FromResult crates high = .ok higher) {calls : Nat}
    (hlt : calls < higher) :
    run crates settings (List.replicate calls (consult .orders high)).flatten initial =
      some (ordersSeen settings higher calls) := by
  induction calls with
  | zero => rfl
  | succ calls ih =>
      have hbound := parseU32FromResult_lt crates hparse
      have hleft : nextStartIndex higher calls = .ok (calls + 1) := by
        rw [nextStartIndex, if_neg (by omega), if_pos (by omega), Nat.mod_eq_of_lt hlt]
      rw [List.replicate_succ', List.flatten_append, List.flatten_singleton, run_append,
        ih (Nat.lt_of_succ_lt hlt), Option.bind_some]
      have hidle : (ordersSeen settings higher calls).running = fun _ => none := rfl
      refine (run_consult hidle hparse (by omega) hleft).trans ?_
      simp [Pool.consulted, ordersSeen, List.range_succ]

/-- Whatever the two counts are, one that falls below the other can send a start
out of range while every call before it sees the same count. -/
theorem lower_count_out_of_range (hlow : parseU32FromResult crates low = .ok lower)
    (hhigh : parseU32FromResult crates high = .ok higher) (hpos : 0 < lower) (hlt : lower < higher) :
    ∃ pool, run crates settings
        ((List.replicate lower (consult .orders high)).flatten ++ consult .deposits low) initial =
          some pool ∧
      ∃ call ∈ pool.finished, ¬SendsInRange settings call ∧
        ∀ other ∈ pool.finished, other ≠ call → CountKeepsUp pool.updates other := by
  have hlower : lower + 1 < 2 ^ 32 := by
    have := parseU32FromResult_lt crates hhigh
    omega
  obtain ⟨left, hleft⟩ := nextStartIndex_total lower hlower
  refine ⟨(ordersSeen settings higher lower).consulted settings .deposits lower left, ?_,
    ⟨.deposits, some ⟨lower, lower, lower, left⟩, some (keysArgs settings lower lower)⟩, ?_, ?_, ?_⟩
  · have hidle : (ordersSeen settings higher lower).running = fun _ => none := rfl
    rw [run_append, run_ordersSeen hhigh hlt, Option.bind_some]
    exact run_consult hidle hlow hpos hleft
  · simp [Pool.consulted, ordersSeen]
  · exact fun h => Nat.lt_irrefl lower (h lower lower rfl)
  · intro other hother hne f hf g hg hturn
    simp only [Pool.consulted, ordersSeen, List.length_map, List.length_range, List.mem_append,
      List.mem_map, List.mem_range, List.mem_singleton] at hother hg
    rcases hother with ⟨i, hi, rfl⟩ | rfl
    · cases hf
      rcases hg with ⟨j, hj, rfl⟩ | rfl
      · exact Nat.le_refl higher
      · exact hlt.le
    · exact absurd rfl hne

end Drops

end So4Oracle.StartIndex
