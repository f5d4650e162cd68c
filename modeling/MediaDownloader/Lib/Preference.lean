import Mathlib.Data.List.Basic

/-!
# Lexicographic preference

Criteria in order of weight, each a relation "strictly preferred to".  What is
put first is beaten by nothing on the list.

* `IsFirst.head`: it is best under the first criterion;
* `IsFirst.next`: among those that are, it is best under the next one.
-/

namespace Preference

variable {α : Type}

/-- Preferred under the first criterion that tells the two apart. -/
def Beats : List (α → α → Prop) → α → α → Prop
  | [], _, _ => False
  | better :: rest, a, b => better a b ∨ (¬ better b a ∧ Beats rest a b)

/-- No element of the list beats `a`. -/
def IsFirst (criteria : List (α → α → Prop)) (l : List α) (a : α) : Prop :=
  a ∈ l ∧ ∀ b ∈ l, ¬ Beats criteria b a

/-- Best under one criterion. -/
def Best (better : α → α → Prop) (l : List α) (a : α) : Prop := ∀ b ∈ l, ¬ better b a

variable {better second : α → α → Prop} {rest : List (α → α → Prop)} {l : List α} {a b : α}

theorem IsFirst.head (h : IsFirst (better :: rest) l a) : Best better l a := by
  intro b hb hbetter
  exact h.2 b hb (.inl hbetter)

/-- What is best under the first criterion is put first under the others. -/
theorem IsFirst.tail (h : IsFirst (better :: rest) l a) (hb : b ∈ l) (hbest : Best better l b) :
    ¬ Beats rest b a := by
  intro hbeats
  exact h.2 b hb (.inr ⟨hbest a h.1, hbeats⟩)

theorem IsFirst.next (h : IsFirst (better :: second :: rest) l a) (hb : b ∈ l)
    (hbest : Best better l b) : ¬ second b a := by
  intro hsecond
  exact h.tail hb hbest (.inl hsecond)

/-- Nothing beats itself. -/
theorem not_beats_self {criteria : List (α → α → Prop)} (h : ∀ r ∈ criteria, ¬ r a a) :
    ¬ Beats criteria a a := by
  induction criteria with
  | nil => exact id
  | cons r criteria ih =>
    rintro (hr | ⟨-, hrest⟩)
    · exact h r List.mem_cons_self hr
    · exact ih (fun s hs => h s (List.mem_cons_of_mem _ hs)) hrest

end Preference
