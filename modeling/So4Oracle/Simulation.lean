import So4Oracle.Chain
import So4Oracle.KeeperScript
import So4Oracle.LogTruncation

namespace So4Oracle.Simulation

open Library.Checked Library.Requests Wire Config StellarRpc Chain LogTruncation

def simulateRetryAttempts : Nat := 3

section Errors

inductive SimulateError
  | build (msg : String)
  | transport (e : RpcError)
  | response (msg : String)
  | simulation (msg : String)

namespace SimulateError

def isRetryable : SimulateError → Bool
  | transport e => e.isRetryable
  | build _ | response _ | simulation _ => false

def display : SimulateError → String
  | build msg | response msg => msg
  | transport e => e.display
  | simulation msg => "Simulation error: " ++ msg

end SimulateError

end Errors

section Requests

inductive SimulateRequest
  | simulateTransaction (transaction : String)
  | abort (fault : Fault)

@[reducible] def SimulateRequest.Answer : SimulateRequest → Type
  | simulateTransaction _ => Reply
  | abort _ => Empty

abbrev SimulateProgram (α : Type) := Program SimulateRequest SimulateRequest.Answer α

abbrev SimulateTrace := List (Event SimulateRequest SimulateRequest.Answer)

def orAbort {α : Type} : Panicking α → SimulateProgram α
  | .ok a => pure a
  | .error fault => .ask (.abort fault) Empty.elim

end Requests

section Call

variable (crates : Crates) (settings : Settings) (toXdr : Transaction → Except String String)
  (contractId method : String) (args : List String)

/-- Addresses are told by their first letter; all else is a symbol. -/
def simulateArg (arg : String) : Except String ScVal :=
  if RustText.startsWith arg "C" ∨ RustText.startsWith arg "G" then do
    let address ← strkeyToScAddress crates arg
    pure (.address address)
  else if scSymbolLimit < arg.utf8ByteSize then
    .error ("arg '" ++ arg ++ "' too long for ScSymbol")
  else .ok (.symbol arg)

/-- The envelope that is simulated, with no signature and a sequence number that
does not matter. -/
def simulateEnvelope : Except String String := do
  let scvalArgs ← args.mapM (simulateArg crates)
  let tx ← buildInvokeTx crates settings.keeperAccountId contractId method scvalArgs 100 0 0
  (toXdr tx).mapError fun e => "failed to serialize envelope to XDR: " ++ e

def readSimulation (body : String) : Panicking (Except SimulateError String) :=
  match crates.json body with
  | .error e => .ok (.error (.response ("Failed to parse RPC response: " ++ e)))
  | .ok response =>
      match response.get? "error" with
      | some error => do
          let shown ← truncateRpcError crates error
          pure (.error (.simulation shown))
      | none =>
          match response.get? "result" with
          | none => .ok (.error (.response "Missing result in simulation response"))
          | some result => .ok (.ok (crates.jsonText result))

def simulateContractCallOnce : SimulateProgram (Except SimulateError String) :=
  match simulateEnvelope crates settings toXdr contractId method args with
  | .error msg => pure (.error (.build msg))
  | .ok envelope => do
      let reply ← Program.request (SimulateRequest.simulateTransaction envelope)
      match rpcPost reply with
      | .error e => pure (.error (.transport e))
      | .ok body => orAbort (readSimulation crates body)

def simulateContractCall : SimulateProgram (Except String String) := do
  let result ← Retry.retryWithBackoff SimulateError.isRetryable
    (simulateContractCallOnce crates settings toXdr contractId method args) simulateRetryAttempts
    (by decide)
  pure (result.mapError SimulateError.display)

end Call

section Spec

variable (crates : Crates)

/-- The reply tells the result of the call. -/
def Tells (reply : Reply) (result : String) : Prop :=
  ∃ body response value, reply = .http 200 body ∧ crates.json body = .ok response ∧
    response.get? "error" = none ∧ response.get? "result" = some value ∧
    crates.jsonText value = result

variable {crates} {settings : Settings} {toXdr : Transaction → Except String String}
  {contractId method envelope body result : String} {args : List String} {reply : Reply}
  {r : Except SimulateError String}

theorem readSimulation_eq_ok (h : readSimulation crates body = .ok r) :
    (∀ result, r = .ok result ↔ ∃ response value, crates.json body = .ok response ∧
      response.get? "error" = none ∧ response.get? "result" = some value ∧
      crates.jsonText value = result) ∧ ∀ e, r = .error e → e.isRetryable = false := by
  rw [readSimulation] at h
  cases hjson : crates.json body with
  | error e =>
      rw [hjson] at h
      cases h
      exact ⟨by simp, fun _ heq => Except.error.inj heq ▸ rfl⟩
  | ok response =>
      rw [hjson] at h
      dsimp only at h
      cases herror : response.get? "error" with
      | some error =>
          rw [herror] at h
          obtain ⟨shown, -, hr⟩ := bind_eq_ok.mp h
          cases hr
          exact ⟨by simp [herror], fun _ heq => Except.error.inj heq ▸ rfl⟩
      | none =>
          rw [herror] at h
          dsimp only at h
          cases hresult : response.get? "result" with
          | none =>
              rw [hresult] at h
              cases h
              exact ⟨by simp [hresult], fun _ heq => Except.error.inj heq ▸ rfl⟩
          | some value =>
              rw [hresult] at h
              cases h
              exact ⟨by simp [herror, hresult], fun _ heq => nomatch heq⟩

theorem Tells.not_transient (h : Tells crates reply result) : ¬reply.Transient := by
  obtain ⟨body, -, -, rfl, -⟩ := h
  simp [Reply.Transient]

theorem simulateContractCallOnce_runs
    (henvelope : simulateEnvelope crates settings toXdr contractId method args = .ok envelope)
    (tr : SimulateTrace) (r : Except SimulateError String) (_ : ∀ ev ∈ tr, True)
    (h : Runs (simulateContractCallOnce crates settings toXdr contractId method args) tr r) :
    ∃ reply, tr = [⟨.simulateTransaction envelope, reply⟩] ∧
      (∀ result, r = .ok result ↔ Tells crates reply result) ∧
      ∀ e, r = .error e → (e.isRetryable = true ↔ reply.Transient) := by
  rw [simulateContractCallOnce, henvelope] at h
  obtain ⟨reply, rest, rfl, hreply⟩ := runs_request_bind.mp h
  refine ⟨reply, ?_⟩
  cases hpost : rpcPost reply with
  | error e =>
      rw [hpost] at hreply
      obtain ⟨rfl, rfl⟩ := runs_done.mp hreply
      refine ⟨rfl, fun result => iff_of_false nofun ?_, fun _ heq => ?_⟩
      · rintro ⟨body, -, -, rfl, -⟩
        rw [rpcPost_200] at hpost
        cases hpost
      · cases heq
        exact rpcPost_retryable hpost
  | ok body =>
      obtain rfl := rpcPost_ok.mp hpost
      rw [hpost] at hreply
      dsimp only at hreply
      cases hread : readSimulation crates body with
      | error fault =>
          rw [hread] at hreply
          obtain ⟨stopped, _⟩ := runs_ask.mp hreply
          exact stopped.elim
      | ok result =>
          rw [hread] at hreply
          obtain ⟨rfl, rfl⟩ := runs_done.mp hreply
          obtain ⟨htells, hfinal⟩ := readSimulation_eq_ok hread
          refine ⟨rfl, fun result => (htells result).trans ?_, fun e heq => ?_⟩
          · constructor
            · rintro ⟨response, value, hvalue⟩
              exact ⟨body, response, value, rfl, hvalue⟩
            · rintro ⟨_, response, value, heq, hvalue⟩
              cases heq
              exact ⟨response, value, hvalue⟩
          · rw [hfinal e heq]
            simp [Reply.Transient]

end Spec

section Main

variable {crates : Crates} {settings : Settings} {toXdr : Transaction → Except String String}
  {contractId method : String} {args : List String} {tr : SimulateTrace}
  {r : Except String String}

/-- A call that cannot be built asks nothing. Any other asks the same up to three
times, again only after a failure that may pass, and returns what the last reply
tells. -/
theorem simulateContractCall_exact
    (h : Runs (simulateContractCall crates settings toXdr contractId method args) tr r) :
    (∃ msg, simulateEnvelope crates settings toXdr contractId method args = .error msg ∧ tr = [] ∧
      r = .error msg) ∨
    ∃ envelope earlier last,
      simulateEnvelope crates settings toXdr contractId method args = .ok envelope ∧
      tr = (earlier ++ [last]).map (fun reply => ⟨.simulateTransaction envelope, reply⟩) ∧
      earlier.length < 3 ∧ (∀ reply ∈ earlier, reply.Transient) ∧
      (earlier.length + 1 < 3 → ¬last.Transient) ∧
      ∀ result, r = .ok result ↔ Tells crates last result := by
  obtain ⟨first, result, rest, rfl, hcall, hrest⟩ := runs_bind.mp h
  obtain ⟨rfl, rfl⟩ := runs_done.mp hrest
  cases henvelope : simulateEnvelope crates settings toXdr contractId method args with
  | error msg =>
      left
      obtain ⟨attempts, last, rfl, -, hattempts, hlast, -⟩ := Retry.retryFrom_attempts hcall
      have hbuild : ∀ {tr r}, Runs (simulateContractCallOnce crates settings toXdr contractId method
          args) tr r → tr = [] ∧ r = .error (.build msg) := by
        intro tr r hr
        rw [simulateContractCallOnce, henvelope] at hr
        exact runs_done.mp hr
      obtain ⟨rfl, rfl⟩ := hbuild hlast
      have hnone : attempts = [] := by
        refine List.eq_nil_iff_forall_not_mem.mpr fun attempt hmem => ?_
        obtain ⟨e, hrun, hretry⟩ := hattempts attempt hmem
        obtain ⟨-, heq⟩ := hbuild hrun
        cases heq
        cases hretry
      exact ⟨msg, rfl, by simp [hnone], rfl⟩
  | ok envelope =>
      right
      obtain ⟨earlier, last, htrace, hlength, htransient, htells, hfinal⟩ :=
        Retry.retryFrom_rounds (simulateContractCallOnce_runs henvelope) (fun _ _ => trivial) hcall
      refine ⟨envelope, earlier, last, rfl, ?_, Nat.lt_succ_of_le hlength, htransient,
        fun hlt => ?_, fun told => ?_⟩
      · rw [List.append_nil, htrace, List.map_eq_flatMap]
      · cases result with
        | ok told => exact ((htells told).mp rfl).not_transient
        | error e => exact hfinal (Nat.lt_of_succ_lt_succ hlt) e rfl
      · rw [← htells told]
        cases result <;> simp [Except.mapError]

end Main

section Sample

def countBody : String := "\x7b\"result\":2\x7d"

def countCrates : Crates :=
  { KeeperScript.nodeCrates with
    json := fun body =>
      if body = countBody then .ok (.object [("result", .number (some 2) "2")])
      else .error "expected value at line 1 column 1"
    jsonText := fun _ => "2" }

/-- The node is busy at first. -/
def countReplies : List Reply := [.http 503 "", .http 200 countBody]

theorem simulateContractCall_exact_sample :
    ∃ tr, Runs (simulateContractCall countCrates sampleSettings (fun _ => .ok "AAAA") "CREADER"
        "get_order_count" ["CDATASTORE"]) tr (.ok "2") ∧
      ∃ earlier last, tr = (earlier ++ [last]).map (fun reply => ⟨.simulateTransaction "AAAA", reply⟩) ∧
        (∀ reply ∈ earlier, reply.Transient) ∧ Tells countCrates last "2" := by
  have henvelope : simulateEnvelope countCrates sampleSettings (fun _ => .ok "AAAA") "CREADER"
      "get_order_count" ["CDATASTORE"] = .ok "AAAA" := by decide +kernel
  have hbusy : Runs (simulateContractCallOnce countCrates sampleSettings (fun _ => .ok "AAAA")
      "CREADER" "get_order_count" ["CDATASTORE"]) [⟨.simulateTransaction "AAAA", .http 503 ""⟩]
      (.error (.transport (.httpError 503 (truncateErrorBody "")))) := by
    rw [simulateContractCallOnce, henvelope]
    exact runs_request_bind.mpr ⟨_, [], rfl, .done _⟩
  have hread : readSimulation countCrates countBody = .ok (.ok "2") := by
    simp [readSimulation, countCrates, Json.get?]
  have htold : Runs (simulateContractCallOnce countCrates sampleSettings (fun _ => .ok "AAAA")
      "CREADER" "get_order_count" ["CDATASTORE"])
      [⟨.simulateTransaction "AAAA", .http 200 countBody⟩] (.ok "2") := by
    rw [simulateContractCallOnce, henvelope]
    refine runs_request_bind.mpr ⟨_, [], rfl, ?_⟩
    rw [rpcPost_200]
    dsimp only
    rw [hread]
    exact .done _
  have hruns : Runs (simulateContractCall countCrates sampleSettings (fun _ => .ok "AAAA") "CREADER"
      "get_order_count" ["CDATASTORE"])
      (countReplies.map fun reply => ⟨.simulateTransaction "AAAA", reply⟩) (.ok "2") :=
    runs_bind.mpr ⟨_, .ok "2", [], (List.append_nil _).symm,
      runs_bind.mpr ⟨_, _, _, rfl, hbusy, runs_bind.mpr ⟨_, _, _, rfl, htold, .done _⟩⟩, .done _⟩
  refine ⟨_, hruns, ?_⟩
  rcases simulateContractCall_exact hruns with ⟨msg, hmsg, -⟩ | ⟨envelope, earlier, last, heq, htrace,
    -, htransient, -, htells⟩
  · rw [henvelope] at hmsg
    cases hmsg
  · rw [henvelope] at heq
    cases heq
    exact ⟨earlier, last, htrace, htransient, (htells "2").mp rfl⟩

end Sample

end So4Oracle.Simulation
