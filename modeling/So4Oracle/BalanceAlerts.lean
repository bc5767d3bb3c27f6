import Mathlib.Data.List.Nodup
import So4Oracle.KeeperBalance
import So4Oracle.Library.Tasks

namespace So4Oracle.BalanceAlerts

open Library.Requests Library.Safety Library.Protocol Library.Floats Library.Threads Library.Tasks
  XlmBalance KeeperBalance

variable {F : Type} {decode : String → Except String (List HorizonBalanceEntry)} {ops : FloatOps F}
  {cfg : KeeperBalanceConfig F}

/-- How far a check is. -/
inductive CheckStage
  | asking
  | swapped (event : BalanceLog)
  | logged
  deriving DecidableEq

/-- What a swap is to be logged as. -/
def eventOf (low wasBelow : Bool) : BalanceLog :=
  if low then if wasBelow then .stillBelowMinimum else .belowMinimum
  else if wasBelow then .recovered else .ok

def CheckStage.after : CheckStage → (q : BalanceRequest) → q.Answer → CheckStage
  | _, .swapBelowMin low, wasBelow => .swapped (eventOf low wasBelow)
  | _, .log _, _ => .logged
  | stage, .getAccount _, _ => stage

/-- The flag and the log, and what is still to be logged, by the check that swapped. -/
structure AlertWorld where
  belowMin : Bool
  logs : List BalanceLog
  pending : List (Nat × BalanceLog)

namespace AlertWorld

variable (w : AlertWorld) (id : Nat)

def swap (low : Bool) : AlertWorld where
  belowMin := low
  logs := w.logs
  pending := (id, eventOf low w.belowMin) :: w.pending

def log (event : BalanceLog) : AlertWorld where
  belowMin := w.belowMin
  logs := w.logs ++ [event]
  pending := w.pending.erase (id, event)

end AlertWorld

/-- Horizon answers as it likes, and the flag is swapped in one step. -/
def checks : Semantics BalanceRequest BalanceRequest.Answer CheckStage AlertWorld where
  answer id
    | .getAccount _, w, _, u => u = w
    | .swapBelowMin low, w, r, u => r = w.belowMin ∧ u = w.swap id low
    | .log event, w, _, u => u = w.log id event
  after := CheckStage.after

/-- A check waits only for Horizon, so it can only be dropped there. -/
def whileAsking : Cut CheckStage AlertWorld := fun _ stage w u => stage = .asking ∧ u = w

abbrev Checks (F : Type) :=
  Config BalanceRequest BalanceRequest.Answer CheckStage AlertWorld (Except (BalanceError F) Int)

/-- Every check that the endpoints and the keeper will ever make, before its first step. -/
def checking (decode : String → Except String (List HorizonBalanceEntry)) (ops : FloatOps F)
    (cfg : KeeperBalanceConfig F) : Checks F where
  shared := ⟨false, [], []⟩
  threads _ := .at .asking (checkKeeperBalance decode ops cfg)

section Rules

def Allowed : CheckStage → BalanceRequest → Prop
  | .asking, .getAccount _ | .asking, .swapBelowMin _ => True
  | .swapped event, .log line => line = event
  | _, _ => False

def rules : Rules BalanceRequest BalanceRequest.Answer CheckStage :=
  fun stage q r stage' => Allowed stage q ∧ stage' = stage.after q r

/-- A result that tells an amount has been logged. -/
def Concludes : Except (BalanceError F) Int → CheckStage → Prop
  | .ok _, stage | .error (.balanceBelowMinimum _ _ _), stage => stage = .logged
  | .error (.rpc _), stage | .error (.panicked _), stage => stage = .asking

theorem settle_concludes (x : Library.Checked.Fallible StellarRpc.RpcError Int) :
    (∃ stroops, (settle x : Except (BalanceError F) Int) = .ok stroops) ∨
      ∃ e : BalanceError F, settle x = .error e ∧ Concludes (.error e) .asking := by
  rw [settle]
  split
  · exact .inr ⟨_, rfl, rfl⟩
  · exact .inr ⟨_, rfl, rfl⟩
  · exact .inl ⟨_, rfl⟩

theorem compareBalance_follows (stroops : Int) :
    Follows rules .asking (compareBalance ops cfg stroops) Concludes := by
  rw [compareBalance]
  split
  · refine fun wasBelow => ⟨_, ⟨trivial, rfl⟩, fun _ => ⟨_, ⟨?_, rfl⟩, rfl⟩⟩
    cases wasBelow <;> rfl
  · refine fun wasBelow => ⟨_, ⟨trivial, rfl⟩, fun _ => ⟨_, ⟨?_, rfl⟩, rfl⟩⟩
    cases wasBelow <;> rfl

theorem checkKeeperBalance_follows :
    Follows rules .asking (checkKeeperBalance decode ops cfg) Concludes := by
  apply Follows.bind
  refine fun reply => ⟨_, ⟨trivial, rfl⟩, ?_⟩
  simp only [Program.bind, Program.pure_eq]
  change Follows rules .asking _ Concludes
  rcases settle_concludes (readAccount decode cfg.accountId reply) with ⟨stroops, h⟩ | ⟨e, h, he⟩
  · rw [h]
    exact compareBalance_follows stroops
  · rw [h]
    exact he

end Rules

section Alerts

variable {ms : Nat → Option CheckStage} {w u : AlertWorld} {id : Nat}

/-- How often an event has been logged or is about to be. -/
def AlertWorld.total (w : AlertWorld) (event : BalanceLog) : Nat :=
  w.logs.count event + (w.pending.map Prod.snd).count event

/-- The alarms and the recoveries take turns, as the flag has it. -/
structure Alerts (ms : Nat → Option CheckStage) (w : AlertWorld) : Prop where
  nodup : w.pending.Nodup
  mem_pending : ∀ id event, (id, event) ∈ w.pending ↔ ms id = some (.swapped event)
  total : w.total .belowMinimum = w.total .recovered + w.belowMin.toNat

theorem total_swap (low : Bool) (event : BalanceLog) :
    (w.swap id low).total event = w.total event + if eventOf low w.belowMin = event then 1 else 0 := by
  rw [AlertWorld.total, AlertWorld.total, AlertWorld.swap, List.map_cons, List.count_cons,
    ← Nat.add_assoc]
  simp only [beq_iff_eq]

theorem total_log {event : BalanceLog} (h : (id, event) ∈ w.pending) (other : BalanceLog) :
    (w.log id event).total other = w.total other := by
  have hperm := (List.perm_cons_erase h).map Prod.snd
  have hcount := hperm.count_eq other
  rw [List.map_cons, List.count_cons] at hcount
  rw [AlertWorld.total, AlertWorld.total, hcount]
  simp only [AlertWorld.log, List.count_append, List.count_singleton]
  omega

theorem Alerts.swap (h : Alerts ms w) (hid : ms id = some .asking) (low : Bool) :
    Alerts (Function.update ms id (some (.swapped (eventOf low w.belowMin)))) (w.swap id low) where
  nodup := by
    refine List.nodup_cons.mpr ⟨fun hmem => ?_, h.nodup⟩
    rw [h.mem_pending, hid] at hmem
    cases hmem
  mem_pending other event := by
    rw [AlertWorld.swap, List.mem_cons]
    by_cases hne : other = id
    · subst hne
      rw [Function.update_self, h.mem_pending, hid]
      simp [eq_comm]
    · rw [Function.update_of_ne hne, ← h.mem_pending]
      simp [hne]
  total := by
    rw [total_swap, total_swap, h.total]
    change _ = _ + low.toNat
    cases low <;> cases w.belowMin <;> simp [eventOf]

theorem Alerts.log (h : Alerts ms w) {event : BalanceLog} (hid : ms id = some (.swapped event)) :
    Alerts (Function.update ms id (some .logged)) (w.log id event) where
  nodup := h.nodup.erase _
  mem_pending other line := by
    rw [AlertWorld.log, h.nodup.mem_erase_iff]
    by_cases hne : other = id
    · subst hne
      rw [Function.update_self, h.mem_pending, hid]
      simp [eq_comm]
    · rw [Function.update_of_ne hne, ← h.mem_pending]
      simp [hne]
  total := by
    have hmem := (h.mem_pending id event).mpr hid
    rw [total_log hmem, total_log hmem]
    exact h.total

theorem Alerts.keep (h : Alerts ms w) (hid : ms id = some .asking) {after : Option CheckStage}
    (hafter : after = some .asking ∨ after = none) : Alerts (Function.update ms id after) w where
  nodup := h.nodup
  mem_pending other event := by
    rw [h.mem_pending]
    by_cases hne : other = id
    · subst hne
      rw [Function.update_self, hid]
      rcases hafter with rfl | rfl <;> simp
    · rw [Function.update_of_ne hne]
  total := h.total

theorem kept_alerts : Kept checks whileAsking rules Alerts where
  answer {ms w id stage q r stage' u} h hid hrule hanswer := by
    obtain ⟨hallowed, rfl⟩ := hrule
    cases q with
    | getAccount url =>
        cases stage with
        | asking =>
            obtain rfl := hanswer
            exact h.keep hid (.inl rfl)
        | _ => exact hallowed.elim
    | swapBelowMin low =>
        cases stage with
        | asking =>
            obtain ⟨rfl, rfl⟩ := hanswer
            exact h.swap hid low
        | _ => exact hallowed.elim
    | log line =>
        cases stage with
        | swapped event =>
            obtain rfl := hallowed
            obtain rfl := hanswer
            exact h.log hid
        | _ => exact hallowed.elim
  drop h hid hcut := by
    obtain ⟨rfl, rfl⟩ := hcut
    exact h.keep hid (.inr rfl)

end Alerts

section Main

variable {c : Checks F}

theorem alerts_checking : Alerts (modes (checking decode ops cfg)) (checking decode ops cfg).shared where
  nodup := List.nodup_nil
  mem_pending _ _ := iff_of_false List.not_mem_nil nofun
  total := rfl

/-- However the checks overlap, an alarm that the balance is low and a notice
that it has recovered are each logged once for every change of the flag: between
them they take turns, and the flag says which is next. -/
theorem alerts_alternate
    (hr : Relation.ReflTransGen (Moves checks whileAsking) (checking decode ops cfg) c) :
    ∃ pending : List (Nat × BalanceLog), pending.Nodup ∧
      (∀ id event, (id, event) ∈ pending ↔ ∃ p, c.threads id = .at (.swapped event) p) ∧
      c.shared.logs.count .belowMinimum + (pending.map Prod.snd).count .belowMinimum =
        c.shared.logs.count .recovered + (pending.map Prod.snd).count .recovered +
          c.shared.belowMin.toNat := by
  have hends : Ends rules Concludes (checking decode ops cfg) := by
    intro id m p h
    cases h
    exact checkKeeperBalance_follows
  obtain ⟨-, h⟩ := kept_alerts.reaches (fun _ _ _ _ hrule => hrule.2) hends alerts_checking hr
  refine ⟨c.shared.pending, h.nodup, fun id event => ?_, h.total⟩
  rw [h.mem_pending]
  constructor
  · exact exists_of_modes
  · rintro ⟨p, hid⟩
    exact modes_of_at hid

/-- The account has twenty XLM, of which one is locked. -/
def sampleAnswers (id : Nat) : Player BalanceRequest BalanceRequest.Answer AlertWorld := fun q w =>
  match q with
  | .getAccount _ => some (.http 200 "account", w)
  | .swapBelowMin low => some (w.belowMin, w.swap id low)
  | .log event => some ((), w.log id event)

theorem answer_sampleAnswers (id : Nat) (q : BalanceRequest) (w : AlertWorld) (r : q.Answer)
    (u : AlertWorld) (h : sampleAnswers id q w = some (r, u)) : checks.answer id q w r u := by
  cases q <;> cases h
  · rfl
  · exact ⟨rfl, rfl⟩
  · rfl

def sampleChecks : Checks (Option ℚ) :=
  (checking sampleDecode exactOps ⟨"https://horizon", "GKEEPER", some 20⟩).driveAll sampleAnswers
    CheckStage.after [0, 1, 0, 1, 1]

/-- Of two checks that overlap, one has raised the alarm and is yet to log it. -/
theorem alerts_alternate_sample :
    sampleChecks.shared.logs = [.stillBelowMinimum] ∧
      ∃ pending : List (Nat × BalanceLog), pending.Nodup ∧
        (∀ id event, (id, event) ∈ pending ↔ ∃ p, sampleChecks.threads id = .at (.swapped event) p) ∧
        sampleChecks.shared.logs.count .belowMinimum + (pending.map Prod.snd).count .belowMinimum =
          sampleChecks.shared.logs.count .recovered + (pending.map Prod.snd).count .recovered +
            sampleChecks.shared.belowMin.toNat :=
  ⟨by decide +kernel, alerts_alternate (moves_driveAll answer_sampleAnswers _ _)⟩

end Main

end So4Oracle.BalanceAlerts
