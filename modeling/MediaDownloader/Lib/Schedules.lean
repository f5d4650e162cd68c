import Mathlib.Data.Prod.Lex
import Mathlib.Logic.Relation

/-!
# Schedules that end

A step relation whose every step lowers a measure has no infinite schedule, and
every state can be run to one that cannot move.
-/

namespace Interaction

open Relation

variable {σ : Type} {step : σ → σ → Prop}

theorem acc_of_measure (work : σ → Nat) (h : ∀ s s', step s s' → work s' < work s) (s : σ) :
    Acc (fun s' s => step s s') s := by
  induction hn : work s using Nat.strongRecOn generalizing s with
  | _ n ih => exact .intro s fun s' hs => ih (work s') (hn ▸ h s s' hs) s' rfl

/-- The same with a rank in any well-founded order. -/
theorem acc_of_rank {β : Type} [Preorder β] [WellFoundedLT β] (rank : σ → β)
    (h : ∀ s s', step s s' → rank s' < rank s) (s : σ) : Acc (fun s' s => step s s') s := by
  induction hb : rank s using WellFoundedLT.induction generalizing s with
  | ind b ih => exact .intro s fun s' hs => ih (rank s') (hb ▸ h s s' hs) s' rfl

theorem exists_stuck {s : σ} (h : Acc (fun s' s => step s s') s) :
    ∃ s', ReflTransGen step s s' ∧ ∀ s'', ¬ step s' s'' := by
  induction h with
  | intro s _ ih =>
    by_cases hs : ∃ s', step s s'
    · obtain ⟨s', hstep⟩ := hs
      obtain ⟨s'', hr, ht⟩ := ih s' hstep
      exact ⟨s'', hr.head hstep, ht⟩
    · exact ⟨s, .refl, fun s' hstep => hs ⟨s', hstep⟩⟩

end Interaction
