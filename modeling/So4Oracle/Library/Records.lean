import So4Oracle.Library.Safety

namespace Library.Records

open Requests Safety

variable {Req : Type} {Ans : Req → Type} {W α β : Type}

section Begins

/-- The requests and answers of a run that may still go on. -/
inductive Begins : Program Req Ans α → List (Event Req Ans) → Prop
  | here (p : Program Req Ans α) : Begins p []
  | ask (q : Req) (r : Ans q) {next : Ans q → Program Req Ans α} {tr} (h : Begins (next r) tr) :
      Begins (.ask q next) (⟨q, r⟩ :: tr)

theorem begins_done {a : α} {tr : List (Event Req Ans)} :
    Begins (.done a : Program Req Ans α) tr ↔ tr = [] := by
  constructor
  · intro h
    cases h
    rfl
  · rintro rfl
    exact .here _

theorem begins_ask {q : Req} {next : Ans q → Program Req Ans α} {tr : List (Event Req Ans)} :
    Begins (.ask q next) tr ↔ tr = [] ∨ ∃ r rest, tr = ⟨q, r⟩ :: rest ∧ Begins (next r) rest := by
  constructor
  · intro h
    cases h with
    | here => exact .inl rfl
    | ask _ r h => exact .inr ⟨r, _, rfl, h⟩
  · rintro (rfl | ⟨r, rest, rfl, h⟩)
    · exact .here _
    · exact .ask q r h

/-- A run of two parts stops within the first, or completes it. -/
theorem begins_bind {p : Program Req Ans α} {f : α → Program Req Ans β} {tr : List (Event Req Ans)}
    (h : Begins (p >>= f) tr) :
    Begins p tr ∨ ∃ first a rest, tr = first ++ rest ∧ Runs p first a ∧ Begins (f a) rest := by
  induction p generalizing tr with
  | done a => exact .inr ⟨[], a, tr, rfl, .done a, h⟩
  | ask q next ih =>
      rcases begins_ask.mp h with rfl | ⟨r, rest, rfl, hnext⟩
      · exact .inl (.here _)
      · rcases ih r hnext with hp | ⟨first, a, last, rfl, hp, hf⟩
        · exact .inl (.ask q r hp)
        · exact .inr ⟨⟨q, r⟩ :: first, a, last, rfl, .ask q r hp, hf⟩

theorem begins_of_runs {p : Program Req Ans α} {tr : List (Event Req Ans)} {a : α}
    (h : Runs p tr a) : Begins p tr := by
  induction h with
  | done a => exact .here _
  | ask q r _ ih => exact .ask q r ih

theorem Begins.asks {P : Req → Prop} {p : Program Req Ans α} {tr : List (Event Req Ans)}
    (h : Begins p tr) (hp : p.Asks P) : ∀ e ∈ tr, P e.request := by
  induction h with
  | here p => simp
  | ask q r h ih =>
      intro e he
      rcases List.mem_cons.mp he with rfl | he
      · exact hp.1
      · exact ih (hp.2 r) e he

end Begins

/-- One answer, between the worlds in which it was given and that it left. -/
structure Step (Req : Type) (Ans : Req → Type) (W : Type) where
  before : W
  event : Event Req Ans
  after : W

variable {S : Surroundings Req Ans W}

/-- The steps of a run that may be dropped on the way. -/
inductive Recorded (S : Surroundings Req Ans W) :
    Program Req Ans α → W → List (Step Req Ans W) → W → Prop
  | here (p : Program Req Ans α) {w v} (h : S.Interferes w v) : Recorded S p w [] v
  | answer {q next w v r u steps z} (h : S.Interferes w v) (ha : S.answer q v r u)
      (hn : Recorded S (next r) u steps z) :
      Recorded S (.ask q next) w (⟨v, ⟨q, r⟩, u⟩ :: steps) z

def traceOf (steps : List (Step Req Ans W)) : List (Event Req Ans) := steps.map Step.event

theorem Recorded.begins {p : Program Req Ans α} {w v : W} {steps : List (Step Req Ans W)}
    (h : Recorded S p w steps v) : Begins p (traceOf steps) := by
  induction h with
  | here p h => exact .here p
  | answer h ha _ ih => exact .ask _ _ ih

theorem steps_unique {p : Program Req Ans α} {s t x y : List (Step Req Ans W)} {a b : α}
    (h : Runs p (traceOf s) a) (h' : Runs p (traceOf t) b) (heq : s ++ x = t ++ y) :
    s = t ∧ x = y ∧ a = b := by
  have htraces : traceOf s ++ traceOf x = traceOf t ++ traceOf y := by
    simp only [traceOf, ← List.map_append, heq]
  obtain ⟨htrace, hresult⟩ := h.prefix_unique h' htraces
  have hlength : s.length = t.length := by
    simpa [traceOf] using congrArg List.length htrace
  obtain ⟨hst, hxy⟩ := List.append_inj heq hlength
  exact ⟨hst, hxy, hresult⟩

section Complete

/-- A run that has been recorded up to its result. -/
structure Completes (S : Surroundings Req Ans W) (p : Program Req Ans α) (w : W)
    (steps : List (Step Req Ans W)) (a : α) (v : W) : Prop where
  recorded : Recorded S p w steps v
  runs : Runs p (traceOf steps) a

variable {steps : List (Step Req Ans W)} {w v : W}

theorem Completes.request_bind {q : Req} {f : Ans q → Program Req Ans α} {a : α}
    (h : Completes S (Program.request q >>= f) w steps a v) :
    ∃ x r u rest, steps = ⟨x, ⟨q, r⟩, u⟩ :: rest ∧ S.Interferes w x ∧ S.answer q x r u ∧
      Completes S (f r) u rest a v := by
  obtain ⟨hrecorded, hruns⟩ := h
  obtain ⟨r, tail, htrace, hrest⟩ := runs_request_bind.mp hruns
  cases hrecorded with
  | here => cases htrace
  | answer hi ha hn =>
      cases htrace
      exact ⟨_, r, _, _, rfl, hi, ha, hn, hrest⟩

theorem Completes.done {a b : α} (h : Completes S (.done a) w steps b v) :
    steps = [] ∧ b = a ∧ S.Interferes w v := by
  obtain ⟨hrecorded, hruns⟩ := h
  obtain ⟨-, rfl⟩ := runs_done.mp hruns
  cases hrecorded with
  | here _ hi => exact ⟨rfl, rfl, hi⟩

theorem Recorded.interferes {p : Program Req Ans α} (h : Recorded S p w steps v) {u : W}
    (hi : S.Interferes v u) : Recorded S p w steps u := by
  induction h with
  | here p h => exact .here p (h.trans hi)
  | answer h ha _ ih => exact .answer h ha (ih hi)

theorem Completes.interferes {p : Program Req Ans α} {a : α} (h : Completes S p w steps a v) {u : W}
    (hi : S.Interferes v u) : Completes S p w steps a u :=
  ⟨h.recorded.interferes hi, h.runs⟩

/-- The parts of a run, with the world in which the second begins. -/
theorem Completes.bind {p : Program Req Ans α} {f : α → Program Req Ans β} {b : β}
    (h : Completes S (p >>= f) w steps b v) :
    ∃ first a rest x, steps = first ++ rest ∧ Completes S p w first a x ∧
      Completes S (f a) x rest b v := by
  induction p generalizing w steps with
  | done a => exact ⟨[], a, steps, w, rfl, ⟨.here _ .refl, .done a⟩, h⟩
  | ask q next ih =>
      obtain ⟨x, r, u, rest, rfl, hi, ha, hnext⟩ := Completes.request_bind h
      obtain ⟨first, a, last, y, rfl, hfirst, hlast⟩ := ih r hnext
      exact ⟨_ :: first, a, last, y, rfl, ⟨.answer hi ha hfirst.recorded, .ask q r hfirst.runs⟩, hlast⟩

theorem Recorded.after {p : Program Req Ans α} {x : W} (h : Recorded S p x steps v)
    (hi : S.Interferes w x) : Recorded S p w steps v := by
  cases h with
  | here p h => exact .here p (hi.trans h)
  | answer h ha hn => exact .answer (hi.trans h) ha hn

theorem Completes.append {p : Program Req Ans α} {f : α → Program Req Ans β} {a : α} {b : β}
    {first rest : List (Step Req Ans W)} {x : W} (h : Completes S p w first a x)
    (h' : Completes S (f a) x rest b v) : Completes S (p >>= f) w (first ++ rest) b v := by
  induction p generalizing w first with
  | done _ =>
      obtain ⟨rfl, rfl, hi⟩ := h.done
      exact ⟨h'.recorded.after hi, h'.runs⟩
  | ask q next ih =>
      have hasked : Completes S (Program.request q >>= next) w first a x := h
      obtain ⟨y, r, u, tail, rfl, hi, ha, hnext⟩ := hasked.request_bind
      have hrest := ih r hnext
      exact ⟨.answer hi ha hrest.recorded, .ask q r hrest.runs⟩

end Complete

theorem Recorded.answered {p : Program Req Ans α} {w v : W} {steps : List (Step Req Ans W)}
    (h : Recorded S p w steps v) :
    ∀ s ∈ steps, S.answer s.event.request s.before s.event.answer s.after := by
  induction h with
  | here p h => simp
  | answer h ha _ ih =>
      intro s hs
      rcases List.mem_cons.mp hs with rfl | hs
      · exact ha
      · exact ih s hs

/-- What the other tasks do between the steps of a run. -/
def Between (R : W → W → Prop) : W → List (Step Req Ans W) → W → Prop
  | w, [], v => R w v
  | w, s :: steps, v => R w s.before ∧ Between R s.after steps v

/-- What interference and every step respect, the run respects. -/
theorem Recorded.respects {R T : W → W → Prop} (htrans : ∀ {a b c}, T a b → T b c → T a c)
    (hR : ∀ {a b}, S.Interferes a b → R a b → T a b) {p : Program Req Ans α} {w v : W}
    {steps : List (Step Req Ans W)} (h : Recorded S p w steps v)
    (hsteps : ∀ s ∈ steps, T s.before s.after) (hbetween : Between R w steps v) : T w v := by
  induction h with
  | here p h => exact hR h hbetween
  | answer h ha _ ih =>
      have hfirst := hR h hbetween.1
      have hown := hsteps _ List.mem_cons_self
      have hrest := ih (fun s hs => hsteps s (List.mem_cons_of_mem _ hs)) hbetween.2
      exact htrans hfirst (htrans hown hrest)

theorem Between.mono {R T : W → W → Prop} (hRT : ∀ a b, R a b → T a b) {w v : W}
    {steps : List (Step Req Ans W)} (h : Between R w steps v) : Between T w steps v := by
  induction steps generalizing w with
  | nil => exact hRT w v h
  | cons s steps ih => exact ⟨hRT _ _ h.1, ih h.2⟩

section Players

/-- A complete run in which every request waits and is then answered. -/
def attend (wait : Req → W → W) (respond : Player Req Ans W) :
    Program Req Ans α → W → Option (List (Step Req Ans W) × α × W)
  | .done a, w => some ([], a, w)
  | .ask q next, w =>
      match respond q (wait q w) with
      | none => none
      | some (r, u) =>
          (attend wait respond (next r) u).map fun attended =>
            (⟨wait q w, ⟨q, r⟩, u⟩ :: attended.1, attended.2)

theorem completes_of_attend {wait : Req → W → W} {respond : Player Req Ans W}
    (hw : ∀ q w, S.Interferes w (wait q w))
    (hr : ∀ q w r u, respond q w = some (r, u) → S.answer q w r u) {p : Program Req Ans α}
    {w v : W} {steps : List (Step Req Ans W)} {a : α}
    (h : attend wait respond p w = some (steps, a, v)) : Completes S p w steps a v := by
  induction p generalizing w steps with
  | done b =>
      cases h
      exact ⟨.here _ .refl, .done a⟩
  | ask q next ih =>
      rw [attend] at h
      split at h
      next => cases h
      next r u hq =>
        obtain ⟨⟨rest, b, z⟩, hrest, heq⟩ := Option.map_eq_some_iff.mp h
        cases heq
        obtain ⟨hrecorded, hruns⟩ := ih r hrest
        exact ⟨.answer (hw q w) (hr q _ r u hq) hrecorded, .ask q r hruns⟩

/-- The steps of a program whose requests are answered at once. -/
def playSteps (respond : Player Req Ans W) : Program Req Ans α → W → List (Step Req Ans W)
  | .done _, _ => []
  | .ask q next, w =>
      match respond q w with
      | none => []
      | some (r, u) => ⟨w, ⟨q, r⟩, u⟩ :: playSteps respond (next r) u

theorem recorded_play {respond : Player Req Ans W}
    (hr : ∀ q w r u, respond q w = some (r, u) → S.answer q w r u) (p : Program Req Ans α) (w : W) :
    Recorded S p w (playSteps respond p w) (play respond p w) ∧
      Between Eq w (playSteps respond p w) (play respond p w) := by
  induction p generalizing w with
  | done a => exact ⟨.here _ .refl, rfl⟩
  | ask q next ih =>
      cases hq : respond q w with
      | none =>
          simp only [play, playSteps, hq]
          exact ⟨.here _ .refl, rfl⟩
      | some answered =>
          obtain ⟨r, u⟩ := answered
          obtain ⟨hrecorded, hbetween⟩ := ih r u
          simp only [play, playSteps, hq]
          exact ⟨.answer .refl (hr q w r u hq) hrecorded, rfl, hbetween⟩

end Players

end Library.Records
