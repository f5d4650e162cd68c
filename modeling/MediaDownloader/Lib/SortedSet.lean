import Mathlib.Data.Finset.Max
import Mathlib.Data.Prod.Lex

/-!
# Sorted sets

Members with a score each, ordered by score and then by member, as Redis keeps them.

* `SortedSet`: no member has two scores;
* `first_spec`: the lowest score.
-/

structure SortedSet (σ μ : Type) [LinearOrder σ] [LinearOrder μ] where
  entries : Finset (σ ×ₗ μ)
  unique : ∀ a ∈ entries, ∀ b ∈ entries, (ofLex a).2 = (ofLex b).2 → a = b

namespace SortedSet

variable {σ μ : Type} [LinearOrder σ] [LinearOrder μ]

def empty : SortedSet σ μ := ⟨∅, by simp⟩

/-- Without the entries of a score up to `bound`. -/
def removeUpTo (s : SortedSet σ μ) (bound : σ) : SortedSet σ μ where
  entries := s.entries.filter fun e => bound < (ofLex e).1
  unique a ha b hb := s.unique a (Finset.mem_filter.mp ha).1 b (Finset.mem_filter.mp hb).1

def card (s : SortedSet σ μ) : Nat := s.entries.card

/-- The lowest score. -/
def first (s : SortedSet σ μ) : Option σ :=
  if h : s.entries.Nonempty then some (ofLex (s.entries.min' h)).1 else none

/-- `m` with the score `x`, whatever its score was. -/
def add (s : SortedSet σ μ) (m : μ) (x : σ) : SortedSet σ μ where
  entries := insert (toLex (x, m)) (s.entries.filter fun e => (ofLex e).2 ≠ m)
  unique a ha b hb hab := by
    rcases Finset.mem_insert.mp ha with rfl | ha <;> rcases Finset.mem_insert.mp hb with rfl | hb
    · rfl
    · exact absurd hab.symm (Finset.mem_filter.mp hb).2
    · exact absurd hab (Finset.mem_filter.mp ha).2
    · exact s.unique a (Finset.mem_filter.mp ha).1 b (Finset.mem_filter.mp hb).1 hab

variable {s : SortedSet σ μ} {x : σ}

theorem first_eq_none_iff : s.first = none ↔ s.entries = ∅ := by
  unfold first
  split
  · next h => simp [h.ne_empty]
  · next h => simpa using h

/-- The lowest score is one of the set, and no other is lower. -/
theorem first_spec (h : s.first = some x) :
    (∃ e ∈ s.entries, (ofLex e).1 = x) ∧ ∀ e ∈ s.entries, x ≤ (ofLex e).1 := by
  unfold first at h
  split at h
  · next hne =>
    cases h
    refine ⟨⟨_, s.entries.min'_mem hne, rfl⟩, fun e he => ?_⟩
    exact Prod.Lex.monotone_fst _ _ (s.entries.min'_le e he)
  · cases h

end SortedSet
