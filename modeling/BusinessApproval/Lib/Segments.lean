import Mathlib.Data.List.Infix

/-!
# Segments between separators

A list split at a separator, seen from both sides: which lists the pieces are, and
what it says of the whole that each piece is in order. That no piece is empty can be
told without splitting, from the two ends and from separators in a row.
-/

namespace Segments

variable {α : Type} [DecidableEq α] {a : α} {l : List α}

/-- A piece holds no separator. -/
theorem notMem_of_mem_splitOn {w : List α} (hw : w ∈ l.splitOn a) : a ∉ w := by
  induction l generalizing w with
  | nil =>
      rw [List.splitOn_nil, List.mem_singleton] at hw
      rw [hw]
      exact List.not_mem_nil
  | cons x l ih =>
      rw [List.splitOn_cons_eq_if_modifyHead] at hw
      split at hw
      · rcases List.mem_cons.mp hw with rfl | hw
        · exact List.not_mem_nil
        · exact ih hw
      next hx =>
        obtain ⟨v, vs, hsplit⟩ := List.exists_cons_of_ne_nil (List.splitOn_ne_nil a l)
        rw [hsplit] at hw ih
        rcases List.mem_cons.mp hw with rfl | hw
        · rw [List.mem_cons, not_or]
          exact ⟨fun h => hx (beq_iff_eq.mpr h.symm), ih List.mem_cons_self⟩
        · exact ih (List.mem_cons_of_mem _ hw)

/-- The pieces are the lists without separators that the whole is made of. -/
theorem splitOn_eq_iff {ws : List (List α)} :
    l.splitOn a = ws ↔ ws ≠ [] ∧ (∀ w ∈ ws, a ∉ w) ∧ [a].intercalate ws = l := by
  constructor
  · rintro rfl
    exact ⟨List.splitOn_ne_nil a l, fun w hw => notMem_of_mem_splitOn hw,
      List.intercalate_splitOn a⟩
  · rintro ⟨hne, hfree, rfl⟩
    exact List.splitOn_intercalate a hfree hne

/-- The pieces hold what the whole holds, but for the separators. -/
theorem forall_splitOn_iff {p : α → Prop} :
    (∀ w ∈ l.splitOn a, ∀ x ∈ w, p x) ↔ ∀ x ∈ l, x = a ∨ p x := by
  induction l with
  | nil => simp
  | cons x l ih =>
      obtain ⟨v, vs, hsplit⟩ := List.exists_cons_of_ne_nil (List.splitOn_ne_nil a l)
      rw [List.splitOn_cons_eq_if_modifyHead, List.forall_mem_cons, ← ih, hsplit]
      by_cases hx : x = a
      · simp [hx]
      · simp [hx, and_assoc]

omit [DecidableEq α] in
theorem intercalate_append {vs ws : List (List α)} (hv : vs ≠ []) (hw : ws ≠ []) :
    [a].intercalate (vs ++ ws) = [a].intercalate vs ++ a :: [a].intercalate ws := by
  induction vs with
  | nil => exact absurd rfl hv
  | cons v vs ih =>
      cases vs with
      | nil =>
          rw [List.singleton_append, List.intercalate_cons_of_ne_nil hw,
            List.intercalate_singleton, List.append_assoc, List.singleton_append]
      | cons v' vs =>
          rw [List.cons_append, List.cons_append, List.intercalate_cons_cons, ← List.cons_append,
            ih (List.cons_ne_nil v' vs), List.intercalate_cons_cons]
          simp

/-- No piece is empty unless a separator is at an end or next to another. -/
theorem nil_notMem_splitOn_iff :
    [] ∉ l.splitOn a ↔
      l ≠ [] ∧ l.head? ≠ some a ∧ l.getLast? ≠ some a ∧ ¬ [a, a] <:+: l := by
  constructor
  · intro h
    refine ⟨?_, ?_, ?_, ?_⟩
    · rintro rfl
      exact h (by rw [List.splitOn_nil]; exact List.mem_singleton_self [])
    · intro hhead
      obtain ⟨t, rfl⟩ := List.head?_eq_some_iff.mp hhead
      exact h (by simp [List.splitOn_cons_eq_if_modifyHead])
    · intro hlast
      obtain ⟨t, rfl⟩ := List.getLast?_eq_some_iff.mp hlast
      rw [List.splitOn_append_cons_self, List.splitOn_nil] at h
      exact h (List.mem_append_right _ (List.mem_singleton_self []))
    · rintro ⟨s, t, rfl⟩
      rw [List.append_assoc, List.cons_append, List.splitOn_append_cons_self] at h
      exact h (List.mem_append_right _ (by simp [List.splitOn_cons_eq_if_modifyHead]))
  · rintro ⟨hne, hhead, hlast, hdouble⟩ hmem
    obtain ⟨before, after, hsplit⟩ := List.append_of_mem hmem
    have hl : [a].intercalate (before ++ [] :: after) = l := by
      rw [← hsplit, List.intercalate_splitOn]
    -- the empty piece is alone, at an end, or between two others
    cases before with
    | nil =>
        cases after with
        | nil => exact hne hl.symm
        | cons v vs => exact hhead (by rw [← hl]; simp)
    | cons u us =>
        cases after with
        | nil =>
            refine hlast ?_
            rw [← hl, intercalate_append (List.cons_ne_nil u us) (List.cons_ne_nil [] []),
              List.intercalate_singleton, List.getLast?_concat]
        | cons v vs =>
            refine hdouble ?_
            rw [← hl, intercalate_append (List.cons_ne_nil u us) (List.cons_ne_nil [] (v :: vs)),
              List.intercalate_cons_cons]
            exact ⟨[a].intercalate (u :: us), [a].intercalate (v :: vs), by simp⟩

end Segments
