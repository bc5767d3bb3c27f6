import So4Oracle.Library.Safety

namespace Library.Protocol

open Requests Safety

variable {Req : Type} {Ans : Req → Type} {M W α β : Type}

/-- Which requests a mode allows, and the mode that each answer leads to. -/
abbrev Rules (Req : Type) (Ans : Req → Type) (M : Type) := M → (q : Req) → Ans q → M → Prop

/-- Whatever the answers are, the program only makes requests that its mode
allows, and the postcondition relates its result to the last mode. -/
def Follows (P : Rules Req Ans M) : M → Program Req Ans α → (α → M → Prop) → Prop
  | m, .done a, Q => Q a m
  | m, .ask q next, Q => ∀ r, ∃ m', P m q r m' ∧ Follows P m' (next r) Q

variable {P : Rules Req Ans M} {m : M}

theorem Follows.request {q : Req} {f : Ans q → Program Req Ans β} {Q : β → M → Prop}
    (h : ∀ r, ∃ m', P m q r m' ∧ Follows P m' (f r) Q) : Follows P m (Program.request q >>= f) Q := h

theorem Follows.bind {p : Program Req Ans α} {f : α → Program Req Ans β} {Q : β → M → Prop}
    (h : Follows P m p (fun a m' => Follows P m' (f a) Q)) : Follows P m (p >>= f) Q := by
  induction p generalizing m with
  | done a => exact h
  | ask q next ih =>
      intro r
      obtain ⟨m', hstep, hnext⟩ := h r
      exact ⟨m', hstep, ih r hnext⟩

theorem Follows.mono {p : Program Req Ans α} {Q R : α → M → Prop} (h : Follows P m p Q)
    (hQR : ∀ a m', Q a m' → R a m') : Follows P m p R := by
  induction p generalizing m with
  | done a => exact hQR a m h
  | ask q next ih =>
      intro r
      obtain ⟨m', hstep, hnext⟩ := h r
      exact ⟨m', hstep, ih r hnext⟩

theorem Follows.of_asks {R : Req → Prop} {p : Program Req Ans α} (hp : p.Asks R)
    (h : ∀ q, R q → ∀ r, P m q r m) : Follows P m p (fun _ m' => m' = m) := by
  induction p with
  | done a => rfl
  | ask q next ih => exact fun r => ⟨m, h q hp.1 r, ih r (hp.2 r)⟩

/-- An assertion for each mode that the surroundings preserve and every allowed
request carries over holds throughout the program. -/
theorem Follows.safe {S : Surroundings Req Ans W} {J : M → W → Prop} (hstable : ∀ m, S.Stable (J m))
    (hstep : ∀ m q r m' w v, J m w → P m q r m' → S.answer q w r v → J m' v)
    {p : Program Req Ans α} {Q : α → M → Prop} {w : W} (hp : Follows P m p Q) (hw : J m w) :
    Safe S (fun v => ∃ m', J m' v) p (fun a v => ∃ m', Q a m' ∧ J m' v) w := by
  induction p generalizing m w with
  | done a => exact ⟨⟨m, hw⟩, m, hp, hw⟩
  | ask q next ih =>
      refine ⟨⟨m, hw⟩, fun v r u hi ha => ?_⟩
      obtain ⟨m', hrule, hnext⟩ := hp r
      exact ih r hnext (hstep m q r m' v u ((hstable m).interferes hi hw) hrule ha)

end Library.Protocol
