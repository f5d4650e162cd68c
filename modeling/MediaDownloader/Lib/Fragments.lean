import Mathlib.Data.List.Infix

/-!
# Fragments in quoted text

What a table of fragments finds in a text that quotes another one.

* `infix_append_cons`: a fragment without the separator stands on one side of it;
* `infix_cons_of_head`: one that does not begin with `c` stands after it;
* `findIdx_or`: the first rule that one of two texts meets is the earlier of theirs.
-/

namespace Fragments

variable {α : Type} {f a b : List α} {c : α}

theorem infix_append_cons (hc : c ∉ f) : f <:+: a ++ c :: b ↔ f <:+: a ∨ f <:+: b := by
  constructor
  · intro h
    rcases List.infix_append_iff.mp h with h | h | ⟨left, right, rfl, hleft, hright⟩
    · exact .inl h
    · rcases List.infix_cons_iff.mp h with hpre | h
      · cases f with
        | nil => exact .inl List.nil_infix
        | cons d f =>
          obtain ⟨rfl, -⟩ := List.cons_prefix_cons.mp hpre
          exact absurd List.mem_cons_self hc
      · exact .inr h
    · cases right with
      | nil => exact .inl (by simpa using hleft.isInfix)
      | cons d right =>
        -- What crosses over holds the separator.
        obtain ⟨rfl, -⟩ := List.cons_prefix_cons.mp hright
        exact absurd (List.mem_append_right _ List.mem_cons_self) hc
  · rintro (h | h)
    · exact List.infix_append_of_infix_left h
    · exact List.infix_append_of_infix_right (List.infix_cons h)

theorem infix_cons_of_head (hc : f.head? ≠ some c) : f <:+: c :: b ↔ f <:+: b := by
  refine ⟨fun h => ?_, List.infix_cons⟩
  rcases List.infix_cons_iff.mp h with hpre | h
  · cases f with
    | nil => exact List.nil_infix
    | cons d f =>
      obtain ⟨rfl, -⟩ := List.cons_prefix_cons.mp hpre
      exact absurd rfl hc
  · exact h

theorem findIdx_or (p q : α → Bool) (rules : List α) :
    rules.findIdx (fun r => p r || q r) = min (rules.findIdx p) (rules.findIdx q) := by
  induction rules with
  | nil => rfl
  | cons r rules ih =>
    simp only [List.findIdx_cons, ih]
    cases p r <;> cases q r <;> simp

theorem findIdx_congr {p q : α → Bool} {rules : List α} (h : ∀ r ∈ rules, p r = q r) :
    rules.findIdx p = rules.findIdx q := by
  induction rules with
  | nil => rfl
  | cons r rules ih =>
    simp only [List.findIdx_cons, h r List.mem_cons_self,
      ih fun s hs => h s (List.mem_cons_of_mem _ hs)]

end Fragments
