import So4Oracle.Library.Records

namespace So4Oracle.Retry

open Library.Requests Library.Safety Library.Records

variable {Req : Type} {Ans : Req → Type} {ε α : Type}

def retryFrom (isRetryable : ε → Bool) (f : Program Req Ans (Except ε α)) :
    Nat → Program Req Ans (Except ε α)
  | 0 => f
  | remaining + 1 => do
      match ← f with
      | .ok val => pure (.ok val)
      | .error e =>
          if isRetryable e then retryFrom isRetryable f remaining else pure (.error e)

/-- The last error is returned whether or not it is retryable. The sleeps
between attempts carry no data and are left to the surroundings. -/
def retryWithBackoff (isRetryable : ε → Bool) (f : Program Req Ans (Except ε α))
    (maxAttempts : Nat) (_positive : 0 < maxAttempts) : Program Req Ans (Except ε α) :=
  retryFrom isRetryable f (maxAttempts - 1)

theorem retryFrom_last {isRetryable : ε → Bool} {f : Program Req Ans (Except ε α)} {remaining : Nat}
    {tr : List (Event Req Ans)} {r : Except ε α} (h : Runs (retryFrom isRetryable f remaining) tr r) :
    ∃ earlier last, tr = earlier ++ last ∧ Runs f last r := by
  induction remaining generalizing tr with
  | zero => exact ⟨[], tr, rfl, h⟩
  | succ remaining ih =>
      obtain ⟨first, a, rest, rfl, hf, hr⟩ := runs_bind.mp h
      cases a with
      | ok val =>
          obtain ⟨rfl, rfl⟩ := runs_done.mp hr
          exact ⟨[], first, by simp, hf⟩
      | error e =>
          dsimp only at hr
          split at hr
          next =>
            obtain ⟨earlier, last, rfl, hl⟩ := ih hr
            exact ⟨first ++ earlier, last, by simp, hl⟩
          next =>
            obtain ⟨rfl, rfl⟩ := runs_done.mp hr
            exact ⟨[], first, by simp, hf⟩

/-- All attempts but the last fail with a retryable error, and the last is final
unless it is the only one that remains. -/
theorem retryFrom_attempts {isRetryable : ε → Bool} {f : Program Req Ans (Except ε α)}
    {remaining : Nat} {tr : List (Event Req Ans)} {r : Except ε α}
    (h : Runs (retryFrom isRetryable f remaining) tr r) :
    ∃ (attempts : List (List (Event Req Ans))) (last : List (Event Req Ans)),
      tr = attempts.flatten ++ last ∧ attempts.length ≤ remaining ∧
      (∀ first ∈ attempts, ∃ e, Runs f first (.error e) ∧ isRetryable e = true) ∧ Runs f last r ∧
      (attempts.length < remaining → ∀ e, r = .error e → isRetryable e = false) := by
  induction remaining generalizing tr with
  | zero => exact ⟨[], tr, rfl, Nat.le_refl 0, by simp, h, fun hlt => absurd hlt (Nat.lt_irrefl 0)⟩
  | succ remaining ih =>
      obtain ⟨first, a, rest, rfl, hf, hr⟩ := runs_bind.mp h
      cases a with
      | ok val =>
          obtain ⟨rfl, rfl⟩ := runs_done.mp hr
          exact ⟨[], first, by simp, Nat.zero_le _, by simp, hf, fun _ _ heq => nomatch heq⟩
      | error e =>
          dsimp only at hr
          split at hr
          next hretry =>
            obtain ⟨attempts, last, rfl, hlength, hall, hlast, hfinal⟩ := ih hr
            refine ⟨first :: attempts, last, by simp, Nat.succ_le_succ hlength, ?_, hlast,
              fun hlt => hfinal (Nat.lt_of_succ_lt_succ hlt)⟩
            intro attempt hmem
            rcases List.mem_cons.mp hmem with rfl | hmem
            · exact ⟨e, hf, hretry⟩
            · exact hall attempt hmem
          next hfinal =>
            obtain ⟨rfl, rfl⟩ := runs_done.mp hr
            refine ⟨[], first, by simp, Nat.zero_le _, by simp, hf, fun _ e' heq => ?_⟩
            obtain rfl := Except.error.inj heq
            exact Bool.eq_false_iff.mpr hfinal

/-- Where an attempt is told by what it met, a run is told by what its attempts
met: all but the last met a failure that may pass. -/
theorem retryFrom_rounds {ι : Type} {attempt : ι → List (Event Req Ans)} {transient : ι → Prop}
    {verdict : ι → Except ε α → Prop} {served : Event Req Ans → Prop} {isRetryable : ε → Bool}
    {f : Program Req Ans (Except ε α)}
    (hf : ∀ tr r, (∀ ev ∈ tr, served ev) → Runs f tr r → ∃ i, tr = attempt i ∧ verdict i r ∧
      ∀ e, r = .error e → (isRetryable e = true ↔ transient i))
    {remaining : Nat} {tr : List (Event Req Ans)} {r : Except ε α}
    (hserved : ∀ ev ∈ tr, served ev) (h : Runs (retryFrom isRetryable f remaining) tr r) :
    ∃ (earlier : List ι) (last : ι), tr = (earlier ++ [last]).flatMap attempt ∧
      earlier.length ≤ remaining ∧ (∀ i ∈ earlier, transient i) ∧ verdict last r ∧
      (earlier.length < remaining → ∀ e, r = .error e → ¬transient last) := by
  induction remaining generalizing tr with
  | zero =>
      obtain ⟨last, rfl, hverdict, -⟩ := hf tr r hserved h
      exact ⟨[], last, by simp, Nat.le_refl 0, by simp, hverdict,
        fun hlt => absurd hlt (Nat.lt_irrefl 0)⟩
  | succ remaining ih =>
      obtain ⟨first, a, rest, rfl, hfirst, hr⟩ := runs_bind.mp h
      obtain ⟨i, rfl, hverdict, htransient⟩ := hf first a
        (fun ev hmem => hserved ev (List.mem_append_left _ hmem)) hfirst
      cases a with
      | ok val =>
          obtain ⟨rfl, rfl⟩ := runs_done.mp hr
          exact ⟨[], i, by simp, Nat.zero_le _, by simp, hverdict, fun _ e heq => nomatch heq⟩
      | error e =>
          dsimp only at hr
          split at hr
          next hretry =>
            obtain ⟨earlier, last, rfl, hlength, hall, hlast, hfinal⟩ :=
              ih (fun ev hmem => hserved ev (List.mem_append_right _ hmem)) hr
            exact ⟨i :: earlier, last, by simp, Nat.succ_le_succ hlength,
              List.forall_mem_cons.mpr ⟨(htransient e rfl).mp hretry, hall⟩, hlast,
              fun hlt => hfinal (Nat.lt_of_succ_lt_succ hlt)⟩
          next hfinal =>
            obtain ⟨rfl, rfl⟩ := runs_done.mp hr
            refine ⟨[], i, by simp, Nat.zero_le _, by simp, hverdict, fun _ e' heq => ?_⟩
            obtain rfl := Except.error.inj heq
            rwa [← htransient e rfl]

/-- A complete run ends with the attempt whose result it returns. -/
theorem retryFrom_completes {W : Type} {S : Surroundings Req Ans W} {isRetryable : ε → Bool}
    {f : Program Req Ans (Except ε α)} {remaining : Nat} {w v : W} {steps : List (Step Req Ans W)}
    {r : Except ε α} (h : Completes S (retryFrom isRetryable f remaining) w steps r v) :
    ∃ earlier last x, steps = earlier ++ last ∧ Completes S f x last r v := by
  induction remaining generalizing w steps with
  | zero => exact ⟨[], steps, w, rfl, h⟩
  | succ remaining ih =>
      obtain ⟨first, a, rest, x, rfl, hfirst, hrest⟩ := Completes.bind h
      cases a with
      | ok val =>
          obtain ⟨rfl, rfl, hi⟩ := hrest.done
          exact ⟨[], first, w, by simp, hfirst.interferes hi⟩
      | error e =>
          dsimp only at hrest
          split at hrest
          next =>
            obtain ⟨earlier, last, y, rfl, hlast⟩ := ih hrest
            exact ⟨first ++ earlier, last, y, by simp, hlast⟩
          next =>
            obtain ⟨rfl, rfl, hi⟩ := hrest.done
            exact ⟨[], first, w, by simp, hfirst.interferes hi⟩

/-- When the last attempt fails, so did all before it. -/
theorem retryFrom_failed {P : Event Req Ans → Prop} {isRetryable : ε → Bool}
    {f : Program Req Ans (Except ε α)} (hf : ∀ tr e, Runs f tr (.error e) → ∀ ev ∈ tr, P ev)
    {remaining : Nat} {tr : List (Event Req Ans)} {e : ε}
    (h : Runs (retryFrom isRetryable f remaining) tr (.error e)) : ∀ ev ∈ tr, P ev := by
  induction remaining generalizing tr with
  | zero => exact hf tr e h
  | succ remaining ih =>
      obtain ⟨first, a, rest, rfl, hfirst, hr⟩ := runs_bind.mp h
      cases a with
      | ok val => cases (runs_done.mp hr).2
      | error e' =>
          dsimp only at hr
          intro ev hev
          rcases List.mem_append.mp hev with hev | hev
          · exact hf first e' hfirst ev hev
          · split at hr
            next => exact ih hr ev hev
            next =>
              obtain ⟨rfl, -⟩ := runs_done.mp hr
              exact absurd hev List.not_mem_nil

theorem retryFrom_asks {P : Req → Prop} {isRetryable : ε → Bool}
    {f : Program Req Ans (Except ε α)} (hf : f.Asks P) (remaining : Nat) :
    (retryFrom isRetryable f remaining).Asks P := by
  induction remaining with
  | zero => exact hf
  | succ remaining ih =>
      refine hf.bind (fun a => ?_)
      cases a with
      | ok val => trivial
      | error e =>
          dsimp only
          split
          · exact ih
          · trivial

theorem retryFrom_safe {W : Type} {S : Surroundings Req Ans W} {I : W → Prop}
    {isRetryable : ε → Bool} {f : Program Req Ans (Except ε α)} {Q : Except ε α → W → Prop}
    (hf : ∀ w, I w → Safe S I f Q w) (remaining : Nat) {w : W} (hw : I w) :
    Safe S I (retryFrom isRetryable f remaining) Q w := by
  induction remaining generalizing w with
  | zero => exact hf w hw
  | succ remaining ih =>
      refine Safe.bind ((hf w hw).mono (fun a v hv hQ => ?_))
      cases a with
      | ok val => exact ⟨hv, hQ⟩
      | error e =>
          dsimp only
          split
          · exact ih hv
          · exact ⟨hv, hQ⟩

end So4Oracle.Retry
