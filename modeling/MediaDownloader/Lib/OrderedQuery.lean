import Mathlib.Data.List.Perm.Basic
import Mathlib.Data.List.Sort

/-!
# Queries with ORDER BY and LIMIT

A query takes the rows of a table that satisfy its condition, in an order of
its keys; rows with equal keys come in any order, and that choice is all that
the database adds.  A LIMIT takes a first part.

* `Ordered`: a choice;
* `Ordered.restrict`: a further condition, tested after the query;
* `Ordered.follow`: a query for the rest, after a LIMIT;
* `length_filter_take_iff`: when a condition tested after the LIMIT could as
  well have stood in the query.
-/

namespace OrderedQuery

variable {α : Type} {r : α → α → Prop} {p : α → Bool} {rows : List α}

/-- What `SELECT .. WHERE p ORDER BY ..` may return; `r` compares the keys. -/
structure Ordered (r : α → α → Prop) (p : α → Bool) (rows : List α) where
  list : List α
  perm : list.Perm (rows.filter p)
  sorted : list.Pairwise r

namespace Ordered

theorem mem_iff (o : Ordered r p rows) (a : α) : a ∈ o.list ↔ a ∈ rows ∧ p a = true := by
  rw [o.perm.mem_iff, List.mem_filter]

theorem length_eq (o : Ordered r p rows) : o.list.length = (rows.filter p).length :=
  o.perm.length_eq

theorem nodup (o : Ordered r p rows) (h : rows.Nodup) : o.list.Nodup :=
  o.perm.nodup_iff.mpr (h.filter p)

/-- A stable sort is one choice. -/
def ofSort (le : α → α → Bool) (hle : ∀ a b, le a b = true ↔ r a b)
    (htrans : ∀ a b c, r a b → r b c → r a c) (htotal : ∀ a b, r a b ∨ r b a)
    (p : α → Bool) (rows : List α) : Ordered r p rows where
  list := (rows.filter p).mergeSort le
  perm := List.mergeSort_perm _ _
  sorted := by
    have htrans' (a b c : α) (hab : le a b = true) (hbc : le b c = true) : le a c = true :=
      (hle a c).mpr (htrans a b c ((hle a b).mp hab) ((hle b c).mp hbc))
    have htotal' (a b : α) : (le a b || le b a) = true := by
      simpa [hle] using htotal a b
    exact (List.pairwise_mergeSort htrans' htotal' (rows.filter p)).imp fun h => (hle _ _).mp h

/-- The rows of the result that satisfy a further condition. -/
def restrict (o : Ordered r p rows) (q : α → Bool) :
    Ordered r (fun a => p a && q a) rows where
  list := o.list.filter q
  perm := by
    have h := o.perm.filter q
    rw [List.filter_filter] at h
    simpa [Bool.and_comm] using h
  sorted := o.sorted.filter q

/-- A LIMIT of `n`, and then some order of what it has left over. -/
def follow (o : Ordered r p rows) (n : Nat) (rest : List α) (hperm : rest.Perm (o.list.drop n))
    (hsorted : rest.Pairwise r) : Ordered r p rows where
  list := o.list.take n ++ rest
  perm := by
    have h := hperm.append_left (o.list.take n)
    rw [List.take_append_drop] at h
    exact h.trans o.perm
  sorted := by
    have hsplit := o.sorted
    rw [← List.take_append_drop n o.list, List.pairwise_append] at hsplit
    rw [List.pairwise_append]
    exact ⟨hsplit.1, hsorted, fun a ha b hb => hsplit.2.2 a ha b (hperm.mem_iff.mp hb)⟩

section Follow

variable {o : Ordered r p rows} {n : Nat} {rest : List α} (hperm : rest.Perm (o.list.drop n))
  (hsorted : rest.Pairwise r)

/-- The LIMIT was used up, or nothing was left over. -/
theorem follow_cases (hperm : rest.Perm (o.list.drop n)) :
    (o.list.take n).length = n ∨ rest = [] := by
  by_cases hn : n ≤ o.list.length
  · exact .inl (List.length_take_of_le hn)
  · rw [List.drop_eq_nil_of_le (Nat.le_of_not_le hn)] at hperm
    exact .inr hperm.eq_nil

theorem follow_take : (o.follow n rest hperm hsorted).list.take n = o.list.take n := by
  change (o.list.take n ++ rest).take n = o.list.take n
  rcases follow_cases hperm with hlength | rfl
  · exact List.take_left' hlength
  · rw [List.append_nil, List.take_take, Nat.min_self]

theorem follow_drop : (o.follow n rest hperm hsorted).list.drop n = rest := by
  change (o.list.take n ++ rest).drop n = rest
  rcases follow_cases hperm with hlength | rfl
  · exact List.drop_left' hlength
  · rw [List.append_nil]
    exact List.drop_eq_nil_of_le (List.length_take_le n _)

end Follow

/-- What is left over are the rows that are not among the first. -/
theorem drop_eq_filter [DecidableEq α] (o : Ordered r p rows) (h : rows.Nodup) (n : Nat) :
    o.list.drop n = o.list.filter fun a => decide (a ∉ o.list.take n) := by
  have hnodup := o.nodup h
  rw [← List.take_append_drop n o.list] at hnodup
  have hapart := (List.nodup_append.mp hnodup).2.2
  have htake : (o.list.take n).filter (fun a => decide (a ∉ o.list.take n)) = [] := by
    rw [List.filter_eq_nil_iff]
    intro a ha
    simpa using ha
  have hdrop : (o.list.drop n).filter (fun a => decide (a ∉ o.list.take n)) = o.list.drop n := by
    rw [List.filter_eq_self]
    intro a ha
    exact decide_eq_true fun hmem => hapart a hmem a ha rfl
  calc o.list.drop n
      = (o.list.take n).filter (fun a => decide (a ∉ o.list.take n)) ++
          (o.list.drop n).filter (fun a => decide (a ∉ o.list.take n)) := by
        rw [htake, hdrop, List.nil_append]
    _ = o.list.filter fun a => decide (a ∉ o.list.take n) := by
        rw [← List.filter_append, List.take_append_drop]

end Ordered

/-! ## A condition after the LIMIT -/

/-- What it keeps is a first part of what it would keep without a LIMIT. -/
theorem filter_take_eq (q : α → Bool) (n : Nat) (l : List α) :
    (l.take n).filter q = (l.filter q).take ((l.take n).filter q).length := by
  have hsplit : l.filter q = (l.take n).filter q ++ (l.drop n).filter q := by
    rw [← List.filter_append, List.take_append_drop]
  rw [hsplit, List.take_left]

/-- It keeps as many as a LIMIT on the rest would exactly when it keeps all of
the first `n`, or there is nothing to keep after them. -/
theorem length_filter_take_iff (q : α → Bool) (n : Nat) (l : List α) :
    ((l.take n).filter q).length = min n (l.filter q).length ↔
      (∀ a ∈ l.take n, q a = true) ∨ ∀ a ∈ l.drop n, q a = false := by
  have hsplit : l.filter q = (l.take n).filter q ++ (l.drop n).filter q := by
    rw [← List.filter_append, List.take_append_drop]
  have hfirst : ((l.take n).filter q).length ≤ (l.take n).length := List.length_filter_le _ _
  have hrest : ((l.drop n).filter q).length ≤ (l.drop n).length := List.length_filter_le _ _
  have hall : (∀ a ∈ l.take n, q a = true) ↔
      ((l.take n).filter q).length = (l.take n).length := List.length_filter_eq_length_iff.symm
  have hnone : (∀ a ∈ l.drop n, q a = false) ↔ ((l.drop n).filter q).length = 0 := by
    rw [List.length_eq_zero_iff, List.filter_eq_nil_iff]
    simp only [Bool.not_eq_true]
  rw [hall, hnone, hsplit, List.length_append]
  rw [List.length_take] at hfirst ⊢
  rw [List.length_drop] at hrest
  omega

end OrderedQuery
