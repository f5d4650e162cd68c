import Mathlib.Data.List.Infix

/-!
# Splitting at a separator

* `splitOn_suffix_iff`: the parts of `s` end the parts of `t` exactly when `t` is
  `s`, or ends in `s` after a separator.
-/

namespace Splitting

variable {α : Type}

/-- Joining puts a separator before every part but the first. -/
theorem intercalate_append (a : α) {us vs : List (List α)} (hu : us ≠ []) (hv : vs ≠ []) :
    [a].intercalate (us ++ vs) = [a].intercalate us ++ a :: [a].intercalate vs := by
  induction us with
  | nil => exact absurd rfl hu
  | cons u us ih =>
    cases us with
    | nil =>
      obtain ⟨v, vs, rfl⟩ := List.exists_cons_of_ne_nil hv
      simp [List.intercalate, List.intersperse]
    | cons u' us =>
      have htail := ih (List.cons_ne_nil u' us)
      simp only [List.intercalate, List.intersperse, List.cons_append, List.flatten_cons] at htail ⊢
      rw [htail]
      simp

theorem splitOn_suffix_iff [BEq α] [LawfulBEq α] (a : α) (s t : List α) :
    s.splitOn a <:+ t.splitOn a ↔ t = s ∨ (a :: s) <:+ t := by
  constructor
  · rintro ⟨parts, hparts⟩
    have hjoin := congrArg [a].intercalate hparts
    rw [List.intercalate_splitOn] at hjoin
    by_cases hnil : parts = []
    · rw [hnil, List.nil_append, List.intercalate_splitOn] at hjoin
      exact .inl hjoin.symm
    · rw [intercalate_append a hnil (List.splitOn_ne_nil a s), List.intercalate_splitOn] at hjoin
      exact .inr ⟨_, hjoin⟩
  · rintro (rfl | ⟨u, rfl⟩)
    · exact List.suffix_refl _
    · rw [List.splitOn_append_cons_self]
      exact List.suffix_append _ _

end Splitting
