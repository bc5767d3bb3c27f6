import Mathlib.Data.Nat.Bitwise
import So4Oracle.Admin
import So4Oracle.AdminAuth
import So4Oracle.Library.Lockout
import So4Oracle.Library.Threads

namespace So4Oracle.AdminRequests

open Library.Checked Library.Requests Library.Safety Library.Protocol Library.FixedWindow
  Library.Lockout Library.Threads State Admin AdminAuth

section Comparison

/-- The bytes past the end of the shorter slice compare as zeros; the lengths
are compared on their own. -/
def constantTimeEq (left right : List UInt8) : Bool :=
  let maxLen := max left.length right.length
  let diff := (List.range maxLen).foldl
    (fun diff i => diff ||| ((left[i]?).getD 0 ^^^ (right[i]?).getD 0).toNat)
    (left.length ^^^ right.length)
  diff == 0

theorem foldl_or_eq_zero (f : Nat → Nat) (l : List Nat) (diff : Nat) :
    l.foldl (fun diff i => diff ||| f i) diff = 0 ↔ diff = 0 ∧ ∀ i ∈ l, f i = 0 := by
  induction l generalizing diff with
  | nil => simp
  | cons i l ih =>
      rw [List.foldl_cons, ih, Nat.or_eq_zero_iff, List.forall_mem_cons, and_assoc]

theorem xor_toNat_eq_zero (a b : UInt8) : (a ^^^ b).toNat = 0 ↔ a = b := by
  rw [UInt8.toNat_xor, Nat.xor_eq_zero_iff, UInt8.toNat_inj]

theorem constantTimeEq_iff {left right : List UInt8} :
    constantTimeEq left right = true ↔ left = right := by
  rw [constantTimeEq, beq_iff_eq, foldl_or_eq_zero, Nat.xor_eq_zero_iff]
  simp only [xor_toNat_eq_zero, List.mem_range]
  constructor
  · rintro ⟨hlength, hbytes⟩
    apply List.ext_getElem hlength
    intro i hleft hright
    have hbyte := hbytes i (lt_max_of_lt_left hleft)
    rwa [List.getElem?_eq_getElem hleft, List.getElem?_eq_getElem hright] at hbyte
  · rintro rfl
    exact ⟨rfl, fun _ _ => rfl⟩

end Comparison

section Extractor

/-- Only visible ASCII is text; to_str refuses the rest. -/
inductive HeaderValue
  | text (value : String)
  | bytes (value : List UInt8)
  deriving DecidableEq

def HeaderValue.toStr : HeaderValue → Option String
  | text value => some value
  | bytes _ => none

structure Parts where
  connectInfo : Option String
  authorization : Option HeaderValue
  matchedPath : Option String
  deriving DecidableEq

namespace Parts

def client (parts : Parts) : String := parts.connectInfo.getD "unknown"

def route (parts : Parts) : String := parts.matchedPath.getD "unknown"

def bearer (parts : Parts) : Option String :=
  (parts.authorization.bind HeaderValue.toStr).bind fun value => RustText.stripPrefix value "Bearer "

end Parts

/-- The clock reading and the sections that the extractor runs under one lock each. -/
inductive AuthRequest
  | now
  | isBlocked (client : String) (now : Nat)
  | recordSuccess (client : String)
  | recordFailure (client : String) (now : Nat)
  | recordHttpAuthFailure (route : String)

@[reducible] def AuthRequest.Answer : AuthRequest → Type
  | now => Nat
  | isBlocked _ _ => Bool
  | recordFailure _ _ => Panicking Unit
  | recordSuccess _ | recordHttpAuthFailure _ => Unit

abbrev AuthProgram (α : Type) := Program AuthRequest AuthRequest.Answer α

def authAsk (q : AuthRequest) : AuthProgram q.Answer := Program.request q

def notConfigured : ApiError := ⟨503, "ADMIN_API_TOKEN is not configured"⟩

def tooManyAttempts : ApiError := ⟨429, "too many failed admin auth attempts; try again later"⟩

def unauthorized : ApiError := ⟨401, "unauthorized"⟩

abbrev Extraction := AuthProgram (Panicking (Except ApiError Unit))

def refuse (parts : Parts) (now : Nat) : Extraction := do
  match ← authAsk (.recordFailure parts.client now) with
  | .error fault => pure (.error fault)
  | .ok () =>
      authAsk (.recordHttpAuthFailure parts.route)
      pure (.ok (.error unauthorized))

def compareToken (expected : String) (parts : Parts) (now : Nat) : Extraction :=
  match parts.bearer with
  | some actual =>
      if constantTimeEq (RustText.asBytes actual) (RustText.asBytes expected) then do
        authAsk (.recordSuccess parts.client)
        pure (.ok (.ok ()))
      else refuse parts now
  | none => refuse parts now

def fromRequestParts (adminApiToken : Option String) (parts : Parts) : Extraction :=
  match adminApiToken with
  | none => pure (.ok (.error notConfigured))
  | some expected => do
      let now ← authAsk .now
      if ← authAsk (.isBlocked parts.client now) then pure (.ok (.error tooManyAttempts))
      else compareToken expected parts now

/-- The request carries the configured token, all of it and nothing more. -/
def Parts.Presents (adminApiToken : Option String) (parts : Parts) : Prop :=
  ∃ expected, adminApiToken = some expected ∧ parts.bearer = some expected

theorem asBytes_inj {s t : String} (h : RustText.asBytes s = RustText.asBytes t) : s = t := by
  apply String.toByteArray_inj.mp
  rw [RustText.asBytes, RustText.asBytes, Array.toList_inj] at h
  exact ByteArray.ext h

end Extractor

section Threads

/-- How far a request is in the extractor. -/
inductive Stage
  | arrived
  | read (now : Nat)
  | admitted (now : Nat)
  | barred
  | granted
  | denied
  | panicked
  deriving DecidableEq

structure Mode where
  parts : Parts
  stage : Stage

def stageAfter : Stage → (q : AuthRequest) → q.Answer → Stage
  | _, .now, now => .read now
  | .read now, .isBlocked _ _, blocked => if blocked then .barred else .admitted now
  | _, .recordSuccess _, _ => .granted
  | _, .recordFailure _ _, .ok () => .denied
  | _, .recordFailure _ _, .error _ => .panicked
  | stage, _, _ => stage

def Mode.after (m : Mode) (q : AuthRequest) (r : q.Answer) : Mode :=
  ⟨m.parts, stageAfter m.stage q r⟩

/-- An admitted attempt, by the request that makes it. -/
structure Attempt where
  id : Nat
  client : String
  now : Nat
  deriving DecidableEq

/-- The limiter and the clock, the attempts that are admitted and not recorded
yet, and those that failed since their client last succeeded. -/
structure AuthWorld where
  clock : Nat
  limiter : AdminAuthLimiter
  pending : List Attempt
  failed : List Attempt

namespace AuthWorld

variable (w : AuthWorld) (id : Nat)

def settle : List Attempt := w.pending.filter fun attempt => attempt.id ≠ id

def enter (client : String) (now : Nat) : AuthWorld :=
  { w with pending := ⟨id, client, now⟩ :: w.pending }

def succeed (client : String) : AuthWorld where
  clock := w.clock
  limiter := w.limiter.recordSuccess client
  pending := w.settle id
  failed := w.failed.filter fun attempt => attempt.client ≠ client

def fail (client : String) (now : Nat) : AuthWorld where
  clock := w.clock
  limiter := (w.limiter.recordFailure client now).2
  pending := w.settle id
  failed := ⟨id, client, now⟩ :: w.failed

def answered : (q : AuthRequest) → q.Answer × AuthWorld
  | .now => (w.clock, w)
  | .isBlocked client now =>
      (w.limiter.isBlocked client now,
        if w.limiter.isBlocked client now then w else w.enter id client now)
  | .recordSuccess client => ((), w.succeed id client)
  | .recordFailure client now => ((w.limiter.recordFailure client now).1, w.fail id client now)
  | .recordHttpAuthFailure _ => ((), w)

end AuthWorld

/-- The router lets so many requests run at once. -/
def requestConcurrency : Nat := 512

/-- No more attempts are pending at once than the pace allows, and each is
recorded soon enough after its reading of the clock. -/
def Paced (pace : Pace) (w : AuthWorld) : AuthRequest → Prop
  | .isBlocked _ _ => w.pending.length ≤ pace.attempts
  | .recordFailure _ now => w.clock ≤ now + pace.delay
  | .now | .recordSuccess _ | .recordHttpAuthFailure _ => True

/-- Time passes between any two answers. -/
def requests (pace : Pace) : Semantics AuthRequest AuthRequest.Answer Mode AuthWorld where
  answer id q w r u :=
    ∃ clock, w.clock ≤ clock ∧ AuthWorld.answered { w with clock := clock } id q = (r, u) ∧
      Paced pace u q
  after := Mode.after

abbrev Server := Config AuthRequest AuthRequest.Answer Mode AuthWorld (Panicking (Except ApiError Unit))

/-- Every request that will ever arrive, before its first step. -/
def serving (adminApiToken : Option String) (parts : Nat → Parts) (start : Nat) : Server where
  shared := ⟨start, .new, [], []⟩
  threads id := .at ⟨parts id, .arrived⟩ (fromRequestParts adminApiToken (parts id))

end Threads

end So4Oracle.AdminRequests
