import Mathlib.Data.List.Basic

namespace Library.Escapes

variable {α : Type} {p q mark : α} {ps xs ys l : List α}

section Occurrences

theorem infix_append_of_not_mem (h : p ∉ xs) : p :: ps <:+: xs ++ ys ↔ p :: ps <:+: ys := by
  induction xs with
  | nil => rfl
  | cons x xs ih =>
      rw [List.mem_cons, not_or] at h
      rw [List.cons_append, List.infix_cons_iff, ih h.2, List.cons_prefix_cons]
      exact or_iff_right fun hstart => h.1 hstart.1

theorem prefix_append_cons_of_not_mem (h : q ∉ ps) : ps <+: xs ++ q :: ys ↔ ps <+: xs := by
  induction xs generalizing ps with
  | nil =>
      cases ps with
      | nil => simp
      | cons p ps =>
          rw [List.mem_cons, not_or] at h
          rw [List.nil_append, List.cons_prefix_cons, List.prefix_nil]
          exact iff_of_false (fun hstart => h.1 hstart.1.symm) (List.cons_ne_nil p ps)
  | cons x xs ih =>
      cases ps with
      | nil => simp
      | cons p ps =>
          rw [List.mem_cons, not_or] at h
          rw [List.cons_append, List.cons_prefix_cons, List.cons_prefix_cons, ih h.2]

theorem infix_append_cons_of_not_mem (hne : ps ≠ []) (h : q ∉ ps) :
    ps <:+: xs ++ q :: ys ↔ ps <:+: xs ∨ ps <:+: ys := by
  induction xs with
  | nil =>
      have hstart : ¬ps <+: q :: ys := by
        rw [← List.nil_append (q :: ys), prefix_append_cons_of_not_mem h, List.prefix_nil]
        exact hne
      rw [List.nil_append, List.infix_cons_iff, or_iff_right hstart, List.infix_nil, or_iff_right hne]
  | cons x xs ih =>
      rw [List.cons_append, List.infix_cons_iff, ih, ← List.cons_append,
        prefix_append_cons_of_not_mem h, List.infix_cons_iff, or_assoc]

end Occurrences

/-- A letter is written as itself or as a word that starts with the mark. -/
structure Escaping (mark : α) (write : α → List α) : Prop where
  marked : ∀ c, write c = [c] ∨ ∃ word, write c = mark :: word

variable {write : α → List α}

section Plain

variable (law : Escaping mark write) (hplain : ∀ c ∈ ps, write c = [c]) (hmark : mark ∉ ps)
include law hplain hmark

theorem prefix_flatMap : ps <+: l.flatMap write ↔ ps <+: l := by
  induction l generalizing ps with
  | nil => rfl
  | cons c l ih =>
      cases ps with
      | nil => simp
      | cons p ps =>
          rw [List.mem_cons, not_or] at hmark
          rw [List.forall_mem_cons] at hplain
          rcases law.marked c with hc | ⟨word, hc⟩
          · rw [List.flatMap_cons, hc, List.singleton_append, List.cons_prefix_cons,
              List.cons_prefix_cons, ih hplain.2 hmark.2]
          · rw [List.flatMap_cons, hc, List.cons_append, List.cons_prefix_cons,
              List.cons_prefix_cons]
            refine iff_of_false (fun hstart => hmark.1 hstart.1.symm) ?_
            rintro ⟨rfl, -⟩
            rw [hplain.1] at hc
            exact hmark.1 (List.cons.inj hc).1.symm

end Plain

/-- Escaped text shows a word of plain letters where the text itself does, when
the word does not start inside an escape. -/
theorem infix_flatMap (law : Escaping mark write) (hplain : ∀ c ∈ p :: ps, write c = [c])
    (hmark : mark ∉ p :: ps) (hstart : ∀ c, write c ≠ [c] → p ∉ write c) :
    p :: ps <:+: l.flatMap write ↔ p :: ps <:+: l := by
  induction l with
  | nil => rfl
  | cons c l ih =>
      by_cases hc : write c = [c]
      · have hwhole : p :: ps <+: (c :: l).flatMap write ↔ p :: ps <+: c :: l :=
          prefix_flatMap law hplain hmark
        rw [List.flatMap_cons, hc, List.singleton_append] at hwhole ⊢
        rw [List.infix_cons_iff, List.infix_cons_iff, hwhole, ih]
      · rw [List.flatMap_cons, infix_append_of_not_mem (hstart c hc), ih, List.infix_cons_iff]
        refine (or_iff_right ?_).symm
        rw [List.cons_prefix_cons]
        rintro ⟨rfl, -⟩
        exact hc (hplain p List.mem_cons_self)

structure Quoting (mark q : α) (write : α → List α) : Prop where
  ne : mark ≠ q
  quoted : write q = [mark, q]
  unquoted : ∀ c, c ≠ q → q ∉ write c

section Quoted

variable (law : Quoting mark q write)
include law

theorem not_mem_flatMap (h : q ∉ l) : q ∉ l.flatMap write := by
  rw [List.mem_flatMap]
  rintro ⟨c, hc, hmem⟩
  exact law.unquoted c (fun heq => h (heq ▸ hc)) hmem

theorem flatMap_append_cons :
    (xs ++ q :: ys).flatMap write = (xs.flatMap write ++ [mark]) ++ q :: ys.flatMap write := by
  rw [List.flatMap_append, List.flatMap_cons, law.quoted]
  simp

end Quoted

section Pieces

variable [DecidableEq α]

theorem split_induction {motive : List α → Prop} (q : α) (hwhole : ∀ l, q ∉ l → motive l)
    (hsplit : ∀ xs ys, q ∉ ys → motive xs → motive (xs ++ q :: ys)) (l : List α) : motive l := by
  induction hn : l.length using Nat.strongRecOn generalizing l with
  | ind n ih =>
      by_cases hq : q ∈ l
      · obtain ⟨ys, xs, hrev, hys⟩ := List.eq_append_cons_of_mem (List.mem_reverse.mpr hq)
        have hl : l = xs.reverse ++ q :: ys.reverse := by
          rw [← List.reverse_reverse l, hrev]
          simp
        subst hl
        apply hsplit _ _ (by simpa using hys)
        exact ih _ (by simp at hn; simp; omega) _ rfl
      · exact hwhole l hq

def lastPiece (q : α) (l : List α) : List α := (l.splitOn q).getLastD []

theorem lastPiece_of_not_mem (h : q ∉ l) : lastPiece q l = l := by
  rw [lastPiece, List.splitOn_eq_singleton h]
  rfl

theorem lastPiece_append (h : q ∉ ys) : lastPiece q (xs ++ q :: ys) = ys := by
  rw [lastPiece, List.splitOn_append_cons_self, List.splitOn_eq_singleton h, List.getLastD_concat]

variable (law : Quoting mark q write)
include law

theorem mark_mem_piece : ∀ piece ∈ (l.flatMap write ++ [mark]).splitOn q, mark ∈ piece := by
  induction l using split_induction q with
  | hwhole l hl =>
      have hq : q ∉ l.flatMap write ++ [mark] := by
        rw [List.mem_append, List.mem_singleton, not_or]
        exact ⟨not_mem_flatMap law hl, law.ne.symm⟩
      rw [List.splitOn_eq_singleton hq]
      simp
  | hsplit xs ys hys ih =>
      have hq : q ∉ ys.flatMap write ++ [mark] := by
        rw [List.mem_append, List.mem_singleton, not_or]
        exact ⟨not_mem_flatMap law hys, law.ne.symm⟩
      rw [flatMap_append_cons law, List.append_assoc, List.cons_append,
        List.splitOn_append_cons_self, List.splitOn_eq_singleton hq]
      intro piece hpiece
      rcases List.mem_append.mp hpiece with hfront | hlast
      · exact ih piece hfront
      · rw [List.mem_singleton.mp hlast]
        simp

/-- Of the pieces between separators only the last one has no mark from a
separator of the text. -/
theorem exists_piece_iff {P : List α → Prop} (hP : ∀ piece, P piece → mark ∉ piece) :
    (∃ piece ∈ (l.flatMap write).splitOn q, P piece) ↔ P ((lastPiece q l).flatMap write) := by
  induction l using split_induction q with
  | hwhole l hl =>
      rw [List.splitOn_eq_singleton (not_mem_flatMap law hl), lastPiece_of_not_mem hl]
      simp
  | hsplit xs ys hys ih =>
      rw [flatMap_append_cons law, List.splitOn_append_cons_self,
        List.splitOn_eq_singleton (not_mem_flatMap law hys), lastPiece_append hys]
      constructor
      · rintro ⟨piece, hpiece, h⟩
        rcases List.mem_append.mp hpiece with hfront | hlast
        · exact absurd (mark_mem_piece law piece hfront) (hP piece h)
        · rwa [List.mem_singleton.mp hlast] at h
      · intro h
        exact ⟨_, List.mem_append_right _ (List.mem_singleton_self _), h⟩

end Pieces

end Library.Escapes
