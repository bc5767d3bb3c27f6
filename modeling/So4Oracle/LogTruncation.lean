import So4Oracle.SubmitOutcome

namespace So4Oracle.LogTruncation

open Library.Checked Wire

def maxRpcErrorLogLen : Nat := 256

def maxLoggedEvents : Nat := 5

def maxEventPreviewLen : Nat := 128

def truncateAt (limit : Nat) (text : String) : Panicking String :=
  if limit < text.utf8ByteSize then do
    let cut ← RustText.sliceTo text limit
    pure (cut ++ "…")
  else pure text

def truncateRpcError (crates : Crates) (error : Json) : Panicking String :=
  truncateAt maxRpcErrorLogLen (crates.jsonText error)

def truncateEventsForLog (events : List String) : Panicking (List String) :=
  (events.take maxLoggedEvents).mapM (truncateAt maxEventPreviewLen)

/-- The text, or a bounded prefix of it and the ellipsis. -/
def Shortened (limit : Nat) (text shown : String) : Prop :=
  shown = text ∨
    ∃ cut : String, cut.toList <+: text.toList ∧ cut.utf8ByteSize ≤ limit ∧ shown = cut ++ "…"

/-- The limit does not fall inside a character. -/
def Cuttable (limit : Nat) (text : String) : Prop :=
  text.utf8ByteSize ≤ limit ∨
    ∃ cut : String, cut.toList <+: text.toList ∧ cut.utf8ByteSize = limit

section Cutting

variable {limit : Nat} {text shown : String}

theorem truncateAt_shortened (h : truncateAt limit text = .ok shown) :
    Shortened limit text shown := by
  rw [truncateAt] at h
  split at h
  next =>
    obtain ⟨cut, hcut, h⟩ := bind_eq_ok.mp h
    obtain ⟨hpre, hsize⟩ := RustText.sliceTo_eq_ok.mp hcut
    exact .inr ⟨cut, hpre, hsize.le, (pure_eq_ok.mp h).symm⟩
  next => exact .inl (pure_eq_ok.mp h).symm

theorem truncateAt_returns :
    (∃ shown, truncateAt limit text = .ok shown) ↔ Cuttable limit text := by
  rw [truncateAt, Cuttable]
  split
  next hlong =>
    simp only [bind_eq_ok, RustText.sliceTo_eq_ok, pure_eq_ok]
    constructor
    · rintro ⟨-, cut, hcut, -⟩
      exact .inr ⟨cut, hcut⟩
    · rintro (hshort | ⟨cut, hcut⟩)
      · exact absurd hshort (not_le.mpr hlong)
      · exact ⟨_, cut, hcut, rfl⟩
  next hshort => exact iff_of_true ⟨text, rfl⟩ (.inl (not_lt.mp hshort))

theorem truncateAt_panics {cs : List Char} (hlong : limit < (cs.map Char.utf8Size).sum)
    (hcut : RustText.takeBytes cs limit = none) :
    truncateAt limit (String.ofList cs) = .error .indexOutOfBounds := by
  rw [truncateAt, RustText.utf8ByteSize_ofList, if_pos hlong, RustText.sliceTo,
    String.toList_ofList, hcut]
  rfl

theorem mapM_truncateAt_returns {events : List String} :
    (∃ shown, events.mapM (truncateAt limit) = .ok shown) ↔
      ∀ event ∈ events, Cuttable limit event := by
  simp only [mapM_eq_ok_iff]
  induction events with
  | nil => simp
  | cons event events ih =>
      rw [List.forall_mem_cons, ← ih, ← truncateAt_returns]
      simp only [List.forall₂_cons_left_iff]
      constructor
      · rintro ⟨-, b, bs, hb, hbs, -⟩
        exact ⟨⟨b, hb⟩, bs, hbs⟩
      · rintro ⟨⟨b, hb⟩, bs, hbs⟩
        exact ⟨_, b, bs, hb, hbs, rfl⟩

end Cutting

theorem truncation_returns_iff (crates : Crates) (error : Json) (events : List String) :
    ((∃ shown, truncateRpcError crates error = .ok shown ∧
        Shortened maxRpcErrorLogLen (crates.jsonText error) shown) ∧
      ∃ shown, truncateEventsForLog events = .ok shown ∧
        List.Forall₂ (Shortened maxEventPreviewLen) (events.take maxLoggedEvents) shown) ↔
    Cuttable maxRpcErrorLogLen (crates.jsonText error) ∧
      ∀ event ∈ events.take maxLoggedEvents, Cuttable maxEventPreviewLen event := by
  rw [← truncateAt_returns, ← mapM_truncateAt_returns]
  refine and_congr (exists_congr fun shown => ?_) (exists_congr fun shown => ?_)
  · exact and_iff_left_of_imp truncateAt_shortened
  · refine and_iff_left_of_imp fun h => ?_
    exact (mapM_eq_ok_iff.mp h).imp fun _ _ => truncateAt_shortened

section Samples

def quotingCrates : Crates :=
  { SubmitOutcome.sampleCrates with
    jsonText := fun error =>
      match error with
      | .string s => "\"" ++ s ++ "\""
      | _ => "null" }

def accented (n : Nat) : String := String.ofList (List.replicate n 'é')

end Samples

/-- An error text of 402 bytes whose characters end at odd offsets, and an event
of 129 bytes. -/
theorem truncation_panics :
    truncateRpcError quotingCrates (.string (accented 200)) = .error .indexOutOfBounds ∧
      truncateEventsForLog ["a" ++ accented 64] = .error .indexOutOfBounds := by
  have herror : ∀ n, "\"" ++ accented n ++ "\"" =
      String.ofList ('"' :: (List.replicate n 'é' ++ ['"'])) := by
    intro n
    rw [← String.toList_inj]
    simp [accented]
  have hevent : ∀ n, "a" ++ accented n = String.ofList ('a' :: List.replicate n 'é') := by
    intro n
    rw [← String.toList_inj]
    simp [accented]
  constructor
  · show truncateAt maxRpcErrorLogLen ("\"" ++ accented 200 ++ "\"") = _
    rw [herror]
    exact truncateAt_panics (by decide +kernel) (by decide +kernel)
  · rw [hevent, truncateEventsForLog, maxLoggedEvents, List.take_succ_cons, List.mapM_cons,
      truncateAt_panics (by decide +kernel) (by decide +kernel)]
    rfl

end So4Oracle.LogTruncation
