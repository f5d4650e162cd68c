import Mathlib.Algebra.Order.Group.Defs
import Mathlib.Algebra.Order.Sub.Defs
import Mathlib.Data.List.Count
import Mathlib.Tactic.Abel

/-!
# Sliding windows

Events on a line of times, and how many of them a window of width `W` sees.

* `Bounded.cons`: an event with at most `k` others later than its own window's start
  leaves every window with at most `k + 1`.
-/

namespace SlidingWindow

variable {α : Type} [AddCommGroup α] [LinearOrder α]

/-- `s` is in the window of width `W` that ends at `t`. -/
def InWindow (W t s : α) : Prop := t - W < s ∧ s ≤ t

instance (W t s : α) : Decidable (InWindow W t s) := inferInstanceAs (Decidable (_ ∧ _))

/-- How many events the window that ends at `t` holds. -/
def count (W t : α) (events : List α) : Nat := events.countP fun s => InWindow W t s

/-- How many events are later than the start of the window that ends at `t`. -/
def countAfter (W t : α) (events : List α) : Nat := events.countP fun s => t - W < s

/-- No window holds more than `k` events. -/
def Bounded (W : α) (k : Nat) (events : List α) : Prop := ∀ t, count W t events ≤ k

section Counting

variable {W s t : α} {k : Nat} {events events' : List α}

@[simp] theorem count_nil : count W t [] = 0 := rfl

theorem count_cons (s : α) :
    count W t (s :: events) = count W t events + if InWindow W t s then 1 else 0 := by
  simp [count, List.countP_cons]

theorem count_perm (h : events.Perm events') : count W t events = count W t events' :=
  h.countP_eq _

theorem Bounded.nil : Bounded W k ([] : List α) := fun _ => Nat.zero_le k

theorem Bounded.perm (h : Bounded W k events) (hp : events.Perm events') : Bounded W k events' :=
  fun t => (count_perm hp).ge.trans (h t)

/-- All events being past, a window is what is later than its start. -/
theorem count_eq_countAfter (h : ∀ x ∈ events, x ≤ t) : count W t events = countAfter W t events := by
  refine List.countP_congr fun x hx => ?_
  simp [InWindow, h x hx]

theorem Bounded.sublist (h : Bounded W k events) (hs : events'.Sublist events) :
    Bounded W k events' :=
  fun t => hs.countP_le.trans (h t)

section Ordered

variable [IsOrderedAddMonoid α]

/-- A window that sees `s` starts no earlier than the one that ends at `s`. -/
theorem count_le_countAfter (hs : InWindow W t s) : count W t events ≤ countAfter W s events := by
  refine List.countP_mono_left fun x _ hx => ?_
  simp only [decide_eq_true_eq] at hx ⊢
  calc s - W ≤ t - W := sub_le_sub_right hs.2 W
    _ < x := hx.1

theorem Bounded.cons (h : Bounded W (k + 1) events) (hs : countAfter W s events ≤ k) :
    Bounded W (k + 1) (s :: events) := by
  intro t
  rw [count_cons]
  split
  · next hin =>
    have hle : count W t events ≤ countAfter W s events := count_le_countAfter hin
    omega
  · exact h t

end Ordered

end Counting

end SlidingWindow
