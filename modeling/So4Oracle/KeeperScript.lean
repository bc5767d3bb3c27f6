import So4Oracle.KeeperRuns
import So4Oracle.SubmitOutcome

namespace So4Oracle.KeeperScript

open Library.Requests Library.Safety Wire Config State Chain StellarRpc Submit Handler Keeper KeeperRuns
  PendingKeys

/-- A fixed environment: the pending keys, the sequence number, and by the list
of transactions sent what happens to the newest. -/
structure Script where
  keys : Kind → Except String (List String)
  sequence : Nat
  lands : List Sent → Bool
  reply : String → List Sent → Option (RpcTrace × Except SubmitError Nat)

/-- The newest transaction lands now unless it has already. -/
def landNewest (w : World) : World :=
  match w.sent with
  | [] => w
  | s :: rest =>
      if s.landed then w
      else { w with sent := { s with landed := true } :: rest, onChain := land w.onChain s.work }

def settleNewest (script : Script) (signedXdr : String) (w : World) :
    Option (Except SubmitError Nat × World) :=
  match w.sent, script.reply signedXdr w.sent with
  | s :: rest, some (tr, r) => some (r, w.settle s rest tr r)
  | _, _ => none

def respond (script : Script) : Player KeeperRequest KeeperRequest.Answer World := fun q w =>
  if w.clock ≤ w.cycleStart + keeperCycleTimeout then
    match q with
    | .state op => some ((op.run w.clock w.app).1, w.run op)
    | .unixTime => some (secondsOf w.clock, w)
    | .checkKeeperBalance => some (.ok 0, w)
    | .pendingKeys => some (script.keys, w)
    | .accountSequence => some (.ok script.sequence, w)
    | .send work tx _ => some ((), w.send work tx)
    | .settle signedXdr =>
        settleNewest script signedXdr (if script.lands w.sent then landNewest w else w)
    | .sleep _ => some ((), w)
    | .abort _ => none
  else none

variable {crates : Crates} {settings : Settings}

/-- The replies are ones that the node can give. -/
structure Script.Possible (crates : Crates) (settings : Settings) (script : Script) : Prop where
  sequence : ∃ tr, Runs (getAccountSequence crates settings) tr (.ok script.sequence)
  reply : ∀ signedXdr sent tr r, script.reply signedXdr sent = some (tr, r) →
    Runs (submitAndPoll crates signedXdr) tr r
  truthful : ∀ signedXdr s rest tr ledger,
    script.reply signedXdr (s :: rest) = some (tr, .ok ledger) → s.landed = true

theorem landNewest_cases (w : World) : landNewest w = w ∨ Interference w (landNewest w) := by
  cases hsent : w.sent with
  | nil => exact .inl (by simp only [landNewest, hsent])
  | cons s rest =>
      by_cases h : s.landed = true
      · exact .inl (by simp only [landNewest, hsent, h, if_true])
      · have hland : landNewest w = { w with
            sent := { s with landed := true } :: rest
            onChain := land w.onChain s.work } := by
          simp only [landNewest, hsent, h]
          rfl
        rw [hland]
        exact .inr (.land w [] s rest hsent (Bool.eq_false_of_not_eq_true h))

theorem interferes_landNewest (w : World) :
    (keeper crates settings).Interferes w (landNewest w) := by
  rcases landNewest_cases w with h | h
  · rw [h]
  · exact .single h

theorem landNewest_timing (w : World) :
    (landNewest w).clock = w.clock ∧ (landNewest w).cycleStart = w.cycleStart := by
  rw [landNewest]
  split
  · exact ⟨rfl, rfl⟩
  · split <;> exact ⟨rfl, rfl⟩

/-- Every other request is answered at once. -/
theorem respond_answers {script : Script} (hseq : ∃ tr, Runs (getAccountSequence crates settings) tr
    (.ok script.sequence)) {q : KeeperRequest} (hq : ∀ signedXdr, q ≠ .settle signedXdr) {w u : World}
    {r : q.Answer} (h : respond script q w = some (r, u)) :
    (keeper crates settings).answer q w r u := by
  unfold respond at h
  split at h
  next hcycle =>
    cases q with
    | state | unixTime =>
        cases h
        exact ⟨hcycle, rfl, rfl⟩
    | checkKeeperBalance | pendingKeys | sleep | send =>
        cases h
        exact ⟨hcycle, rfl⟩
    | accountSequence =>
        cases h
        exact ⟨hcycle, hseq, rfl⟩
    | settle signedXdr => exact absurd rfl (hq signedXdr)
    | abort => cases h
  next => cases h

/-- A submission is reported as the script says, perhaps after it has landed. -/
theorem respond_settles {script : Script} (h : script.Possible crates settings) {signedXdr : String}
    {w u : World} {r : Except SubmitError Nat} (hq : respond script (.settle signedXdr) w = some (r, u)) :
    ∃ v, (v = w ∨ v = landNewest w) ∧ (∃ tr, script.reply signedXdr v.sent = some (tr, r)) ∧
      (keeper crates settings).answer (.settle signedXdr) v r u := by
  unfold respond at hq
  split at hq
  next hcycle =>
    have hlanded : ∃ v, (v = w ∨ v = landNewest w) ∧ v.clock = w.clock ∧
        v.cycleStart = w.cycleStart ∧ settleNewest script signedXdr v = some (r, u) := by
      dsimp only at hq
      split at hq
      · exact ⟨_, .inr rfl, (landNewest_timing w).1, (landNewest_timing w).2, hq⟩
      · exact ⟨w, .inl rfl, rfl, rfl, hq⟩
    obtain ⟨v, hv, hclock, hstart, hsettle⟩ := hlanded
    rw [settleNewest] at hsettle
    split at hsettle
    next s rest tr r' hsent hreply =>
      cases hsettle
      refine ⟨v, hv, ⟨tr, hreply⟩, by rw [hclock, hstart]; exact hcycle, ?_⟩
      rw [hsent] at hreply
      refine ⟨s, rest, tr, hsent, h.reply _ _ _ _ hreply, ?_, rfl⟩
      rintro ledger rfl
      exact h.truthful _ _ _ _ _ hreply
    next => cases hsettle
  next => cases hq

theorem respond_plays {script : Script} (h : script.Possible crates settings) :
    (respond script).Plays (keeper crates settings) := by
  intro q w r u hq
  by_cases hsettle : ∃ signedXdr, q = .settle signedXdr
  · obtain ⟨signedXdr, rfl⟩ := hsettle
    obtain ⟨v, rfl | rfl, -, ha⟩ := respond_settles h hq
    · exact ⟨v, .refl, ha⟩
    · exact ⟨_, interferes_landNewest w, ha⟩
  · refine ⟨w, .refl, respond_answers h.sequence (fun signedXdr heq => ?_) hq⟩
    exact hsettle ⟨signedXdr, heq⟩

section Samples

def successBody : String :=
  "\x7b\"result\":\x7b\"status\":\"SUCCESS\",\"ledger\":9\x7d\x7d"

/-- A node on which the account has used sequence number 6 and every sent
transaction can be confirmed on ledger 9. -/
def nodeCrates : Crates :=
  { SubmitOutcome.sampleCrates with
    strkey := fun s =>
      if RustText.startsWith s "G" then .ok (.publicKeyEd25519 []) else .ok (.contract [])
    publicKey := fun _ => .ok []
    hexDecode := fun s => if s = "aa" then .ok [0xaa] else .ok (List.replicate 64 0)
    ledgerEntriesResponse := fun body => .ok ⟨some ⟨[⟨body⟩]⟩, none⟩
    ledgerEntryData := fun _ => .ok (.account 6)
    getTransactionResponse := fun body =>
      if body = successBody then .ok ⟨some ⟨"SUCCESS", some 9, none⟩, none⟩
      else .error "expected value at line 1 column 1" }

def sampleToken : TokenConfig :=
  { defaultTokenConfig with symbol := "BTC", stellarAddress := "CBTC", sources := ["fixed"] }

def keeperSettings : Settings := { sampleSettings with tokens := [sampleToken] }

def sampleSign (_ : Transaction) : Except String String := .ok "AAAA"

def confirmedTrace (signedXdr : String) : RpcTrace :=
  [⟨.sendTransaction signedXdr, ⟨true, .http 200 SubmitOutcome.pendingBody⟩⟩,
    ⟨.getTransaction "c0de", .http 200 successBody⟩]

theorem confirmedTrace_runs (signedXdr : String) :
    Runs (submitAndPoll nodeCrates signedXdr) (confirmedTrace signedXdr) (.ok 9) :=
  .ask _ _ (.ask _ _ (.done _))

theorem strandedTrace_runs :
    Runs (submitAndPoll nodeCrates "AAAA") SubmitOutcome.strandedTrace
      (.error (.rpc (.httpError 404 ""))) :=
  .ask _ _ (.ask _ _ (.done _))

theorem accountSequence_seven : ∃ tr, Runs (getAccountSequence nodeCrates keeperSettings) tr (.ok 7) :=
  ⟨[⟨.getLedgerEntries [], .http 200 ""⟩], .ask _ _ (.done _)⟩

def samplePrice (median : Int) : CachedPrice where
  tokenAddress := "CBTC"
  symbol := "BTC"
  displaySymbol := "BTC"
  keeperIndex := 0
  min := median
  max := median
  median := median
  timestamp := 1000
  ledgerSeq := 8
  sourcesUsed := ["fixed"]
  signature := ""

def appWithPrice (app : AppState) (median : Int) : AppState :=
  app.setPriceCache { app.priceCache with
    prices := app.priceCache.prices.insert "cbtc" (samplePrice median) }

def oneOrder : Kind → Except String (List String)
  | .orders => .ok ["aa"]
  | _ => .ok []

/-- The service as it starts, with one price in the cache. -/
def startWorld (median : Int) : World where
  clock := 1010 * nanosPerSecond
  cycleStart := 0
  app := appWithPrice .new median
  sent := []
  phase := .idle
  onChain _ := none

/-- The prices are confirmed and the order is never answered. -/
def unansweredOrder : Script where
  keys := oneOrder
  sequence := 7
  lands _ := true
  reply signedXdr
    | [s] => if s.landed then some (confirmedTrace signedXdr, .ok 9) else none
    | _ => none

theorem unansweredOrder_possible : unansweredOrder.Possible nodeCrates keeperSettings where
  sequence := accountSequence_seven
  reply signedXdr sent tr r h := by
    dsimp only [unansweredOrder] at h
    split at h
    · split at h
      · cases h
        exact confirmedTrace_runs signedXdr
      · cases h
    · cases h
  truthful signedXdr s rest tr ledger h := by
    cases rest with
    | nil =>
        by_contra hs
        simp [unansweredOrder, hs] at h
    | cons => simp [unansweredOrder] at h

end Samples

end So4Oracle.KeeperScript
