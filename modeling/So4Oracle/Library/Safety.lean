import So4Oracle.Library.Requests

namespace Library.Safety

open Requests

variable {Req : Type} {Ans : Req → Type} {W α β : Type}

/-- What surrounds a program: how a request may be answered, and what other
tasks may do to the world while the program waits. -/
structure Surroundings (Req : Type) (Ans : Req → Type) (W : Type) where
  answer : (q : Req) → W → Ans q → W → Prop
  interfere : W → W → Prop

namespace Surroundings

variable (S : Surroundings Req Ans W)

abbrev Interferes : W → W → Prop := Relation.ReflTransGen S.interfere

def Stable (A : W → Prop) : Prop := ∀ w v, A w → S.interfere w v → A v

/-- Fewer answers and less interference. -/
def restrict (answers : (q : Req) → W → Ans q → W → Prop) (interferes : W → W → Prop) :
    Surroundings Req Ans W where
  answer q w r v := S.answer q w r v ∧ answers q w r v
  interfere w v := S.interfere w v ∧ interferes w v

variable {S}

theorem interferes_of_none (h : ∀ w v, ¬S.interfere w v) {w v : W} (hi : S.Interferes w v) :
    v = w := by
  induction hi with
  | refl => rfl
  | tail _ hs _ => exact absurd hs (h _ _)

theorem Stable.interferes {A : W → Prop} (hs : S.Stable A) {w v : W} (h : S.Interferes w v)
    (hA : A w) : A v := by
  induction h with
  | refl => exact hA
  | tail _ h ih => exact hs _ _ ih h

end Surroundings

/-- The worlds met while a program runs, including those in which it is dropped. -/
inductive Visits (S : Surroundings Req Ans W) : Program Req Ans α → W → W → Prop
  | here (p) {w v} (h : S.Interferes w v) : Visits S p w v
  | answer {q next w v r u z} (h : S.Interferes w v) (ha : S.answer q v r u)
      (hn : Visits S (next r) u z) : Visits S (.ask q next) w z

/-- A complete execution, from the world it starts in to its result. -/
inductive Finishes (S : Surroundings Req Ans W) : Program Req Ans α → W → α → W → Prop
  | done (a w) : Finishes S (.done a) w a w
  | answer {q next w v r u a z} (h : S.Interferes w v) (ha : S.answer q v r u)
      (hn : Finishes S (next r) u a z) : Finishes S (.ask q next) w a z

theorem finishes_done {S : Surroundings Req Ans W} {a b : α} {w z : W} :
    Finishes S (.done a) w b z ↔ b = a ∧ z = w := by
  constructor
  · intro h
    cases h
    exact ⟨rfl, rfl⟩
  · rintro ⟨rfl, rfl⟩
    exact .done b z

theorem finishes_ask {S : Surroundings Req Ans W} {q : Req} {next : Ans q → Program Req Ans α}
    {w z : W} {a : α} :
    Finishes S (.ask q next) w a z ↔
      ∃ v r u, S.Interferes w v ∧ S.answer q v r u ∧ Finishes S (next r) u a z := by
  constructor
  · intro h
    cases h with
    | answer hi ha hn => exact ⟨_, _, _, hi, ha, hn⟩
  · rintro ⟨v, r, u, hi, ha, hn⟩
    exact .answer hi ha hn

theorem finishes_request_bind {S : Surroundings Req Ans W} {q : Req}
    {f : Ans q → Program Req Ans α} {w z : W} {a : α} :
    Finishes S (Program.request q >>= f) w a z ↔
      ∃ v r u, S.Interferes w v ∧ S.answer q v r u ∧ Finishes S (f r) u a z :=
  finishes_ask

theorem finishes_bind {S : Surroundings Req Ans W} {p : Program Req Ans α}
    {f : α → Program Req Ans β} {w z : W} {b : β} :
    Finishes S (p >>= f) w b z ↔ ∃ a v, Finishes S p w a v ∧ Finishes S (f a) v b z := by
  induction p generalizing w with
  | done a =>
      simp only [Program.done_bind, finishes_done]
      constructor
      · exact fun h => ⟨a, w, ⟨rfl, rfl⟩, h⟩
      · rintro ⟨_, _, ⟨rfl, rfl⟩, h⟩
        exact h
  | ask q next ih =>
      simp only [Program.ask_bind, finishes_ask, ih]
      constructor
      · rintro ⟨v, r, u, hi, ha, a, x, hp, hf⟩
        exact ⟨a, x, ⟨v, r, u, hi, ha, hp⟩, hf⟩
      · rintro ⟨a, x, ⟨v, r, u, hi, ha, hp⟩, hf⟩
        exact ⟨v, r, u, hi, ha, a, x, hp, hf⟩

theorem Finishes.visits {S : Surroundings Req Ans W} {p : Program Req Ans α} {w v : W} {a : α}
    (h : Finishes S p w a v) : Visits S p w v := by
  induction h with
  | done a w => exact .here _ .refl
  | answer h ha _ ih => exact .answer h ha ih

theorem Finishes.of_restrict {S : Surroundings Req Ans W}
    {answers : (q : Req) → W → Ans q → W → Prop} {interferes : W → W → Prop}
    {p : Program Req Ans α} {w v : W} {a : α} (h : Finishes (S.restrict answers interferes) p w a v) :
    Finishes S p w a v := by
  induction h with
  | done a w => exact .done a w
  | answer hi ha _ ih =>
      exact .answer (Relation.ReflTransGen.mono (fun _ _ h => h.1) _ _ hi) ha.1 ih

/-- The invariant holds at every point of the program, in every world the
surroundings can present, and the result satisfies the postcondition. -/
def Safe (S : Surroundings Req Ans W) (I : W → Prop) :
    Program Req Ans α → (α → W → Prop) → W → Prop
  | .done a, Q, w => I w ∧ Q a w
  | .ask q next, Q, w => I w ∧ ∀ v r u, S.Interferes w v → S.answer q v r u → Safe S I (next r) Q u

variable {S : Surroundings Req Ans W} {I : W → Prop}

theorem Safe.invariant {p : Program Req Ans α} {Q : α → W → Prop} {w : W} (h : Safe S I p Q w) :
    I w := by
  cases p with
  | done a => exact h.1
  | ask q next => exact h.1

theorem Safe.bind {p : Program Req Ans α} {f : α → Program Req Ans β} {Q : β → W → Prop} {w : W}
    (h : Safe S I p (fun a v => Safe S I (f a) Q v) w) : Safe S I (p >>= f) Q w := by
  induction p generalizing w with
  | done a => exact h.2
  | ask q next ih => exact ⟨h.1, fun v r u hi ha => ih r (h.2 v r u hi ha)⟩

theorem Safe.mono {p : Program Req Ans α} {Q R : α → W → Prop} {w : W} (h : Safe S I p Q w)
    (hQR : ∀ a v, I v → Q a v → R a v) : Safe S I p R w := by
  induction p generalizing w with
  | done a => exact ⟨h.1, hQR a w h.1 h.2⟩
  | ask q next ih => exact ⟨h.1, fun v r u hi ha => ih r (h.2 v r u hi ha)⟩

theorem Safe.weaken {J : W → Prop} {p : Program Req Ans α} {Q : α → W → Prop} {w : W}
    (h : Safe S I p Q w) (hIJ : ∀ v, I v → J v) : Safe S J p Q w := by
  induction p generalizing w with
  | done a => exact ⟨hIJ w h.1, h.2⟩
  | ask q next ih => exact ⟨hIJ w h.1, fun v r u hi ha => ih r (h.2 v r u hi ha)⟩

/-- One request, under an assertion that the surroundings preserve. -/
theorem Safe.ask {A : W → Prop} {q : Req} {next : Ans q → Program Req Ans α}
    {Q : α → W → Prop} {w : W} (hs : S.Stable A) (hI : ∀ v, A v → I v) (hA : A w)
    (h : ∀ v r u, A v → S.answer q v r u → Safe S I (next r) Q u) : Safe S I (.ask q next) Q w :=
  ⟨hI w hA, fun v r u hi ha => h v r u (hs.interferes hi hA) ha⟩

theorem Safe.request_bind {A : W → Prop} {q : Req} {f : Ans q → Program Req Ans α}
    {Q : α → W → Prop} {w : W} (hs : S.Stable A) (hI : ∀ v, A v → I v) (hA : A w)
    (h : ∀ v r u, A v → S.answer q v r u → Safe S I (f r) Q u) :
    Safe S I (Program.request q >>= f) Q w :=
  Safe.ask hs hI hA h

/-- A program whose requests all preserve a stable assertion preserves it. -/
theorem Safe.of_asks {A : W → Prop} {P : Req → Prop} {p : Program Req Ans α} {w : W}
    (hs : S.Stable A) (hI : ∀ v, A v → I v) (hp : p.Asks P)
    (hP : ∀ q, P q → ∀ v r u, A v → S.answer q v r u → A u) (hA : A w) :
    Safe S I p (fun _ v => A v) w := by
  induction p generalizing w with
  | done a => exact ⟨hI w hA, hA⟩
  | ask q next ih =>
      exact Safe.ask hs hI hA (fun v r u hv ha => ih r (hp.2 r) (hP q hp.1 v r u hv ha))

theorem Safe.visits {p : Program Req Ans α} {Q : α → W → Prop} {w v : W} (hs : S.Stable I)
    (h : Safe S I p Q w) (hv : Visits S p w v) : I v := by
  induction hv with
  | here p hi => exact hs.interferes hi h.invariant
  | answer hi ha _ ih => exact ih (h.2 _ _ _ hi ha)

/-- What holds of every result the program can have holds beside the
postcondition. -/
theorem Safe.with_runs {p : Program Req Ans α} {Q : α → W → Prop} {R : α → Prop} {w : W}
    (h : Safe S I p Q w) (hR : ∀ tr a, Runs p tr a → R a) :
    Safe S I p (fun a v => Q a v ∧ R a) w := by
  induction p generalizing w with
  | done a => exact ⟨h.1, h.2, hR [] a (.done a)⟩
  | ask q next ih =>
      exact ⟨h.1, fun v r u hi ha => ih r (h.2 v r u hi ha)
        fun tr a hrun => hR _ a (.ask q r hrun)⟩

theorem Safe.finishes {p : Program Req Ans α} {Q : α → W → Prop} {w v : W} {a : α}
    (h : Safe S I p Q w) (hf : Finishes S p w a v) : Q a v := by
  induction hf with
  | done a w => exact h.2
  | answer hi ha _ ih => exact ih (h.2 _ _ _ hi ha)

/-- The worlds reached by a task that starts the program again and again. Each
round may be dropped in any world that drop relates to what is left of it. -/
inductive Rounds (S : Surroundings Req Ans W) (enter : W → W) (p : Program Req Ans α)
    (drop : W → W → Prop) (w : W) : W → Prop
  | start : Rounds S enter p drop w w
  | interfere {v u} (hr : Rounds S enter p drop w v) (h : S.interfere v u) :
      Rounds S enter p drop w u
  | round {v u z} (hr : Rounds S enter p drop w v) (h : Visits S p (enter v) u) (hd : drop u z) :
      Rounds S enter p drop w z

/-- The invariant J of a running round may differ from the invariant I that
holds between rounds. -/
theorem Rounds.invariant {J : W → Prop} {enter : W → W} {p : Program Req Ans α}
    {drop : W → W → Prop} {Q : α → W → Prop} {w v : W} (h : Rounds S enter p drop w v) (hw : I w)
    (hI : S.Stable I) (hJ : S.Stable J) (hdrop : ∀ u z, J u → drop u z → I z)
    (hp : ∀ u, I u → Safe S J p Q (enter u)) : I v := by
  induction h with
  | start => exact hw
  | interfere _ h ih => exact hI _ _ ih h
  | round _ h hd ih => exact hdrop _ _ ((hp _ ih).visits hJ h) hd

/-- Surroundings that answer every request in a fixed way, for concrete runs. -/
abbrev Player (Req : Type) (Ans : Req → Type) (W : Type) := (q : Req) → W → Option (Ans q × W)

def Player.Plays (respond : Player Req Ans W) (S : Surroundings Req Ans W) : Prop :=
  ∀ q w r u, respond q w = some (r, u) → ∃ v, S.Interferes w v ∧ S.answer q v r u

def finish (respond : Player Req Ans W) : Program Req Ans α → W → Option (α × W)
  | .done a, w => some (a, w)
  | .ask q next, w =>
      match respond q w with
      | none => none
      | some (r, u) => finish respond (next r) u

/-- The world in which the player gives no further answer. -/
def play (respond : Player Req Ans W) : Program Req Ans α → W → W
  | .done _, w => w
  | .ask q next, w =>
      match respond q w with
      | none => w
      | some (r, u) => play respond (next r) u

theorem finishes_of_finish {respond : Player Req Ans W} (hr : respond.Plays S)
    {p : Program Req Ans α} {w v : W} {a : α} (h : finish respond p w = some (a, v)) :
    Finishes S p w a v := by
  induction p generalizing w with
  | done b =>
      cases h
      exact .done a v
  | ask q next ih =>
      rw [finish] at h
      split at h
      next => cases h
      next r u hq =>
        obtain ⟨x, hi, ha⟩ := hr q w r u hq
        exact .answer hi ha (ih r h)

/-- A player may need an invariant of the worlds it meets. -/
theorem visits_play_within {respond : Player Req Ans W}
    (hr : ∀ q w r u, I w → respond q w = some (r, u) →
      I u ∧ ∃ v, S.Interferes w v ∧ S.answer q v r u)
    (p : Program Req Ans α) {w : W} (hw : I w) : Visits S p w (play respond p w) := by
  induction p generalizing w with
  | done b => exact .here _ .refl
  | ask q next ih =>
      rw [play]
      split
      next => exact .here _ .refl
      next r u hq =>
        obtain ⟨hu, x, hi, ha⟩ := hr q w r u hw hq
        exact .answer hi ha (ih r hu)

theorem visits_play {respond : Player Req Ans W} (hr : respond.Plays S)
    (p : Program Req Ans α) (w : W) : Visits S p w (play respond p w) :=
  visits_play_within (I := fun _ => True) (fun q w r u _ hq => ⟨trivial, hr q w r u hq⟩) p trivial

end Library.Safety
