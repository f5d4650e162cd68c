import Mathlib.Algebra.GroupWithZero.Nat
import MediaDownloader.Lib.Program

/-!
# Interleaved programs over a shared state

Any number of programs run side by side.  At each step one of them makes its
next call, answered by the shared state at that moment, or a new one starts,
one crashes, or the shared state drifts on its own (a clock, an expiry).

* `Reach A c₀ c`: `c` is reached from `c₀` by steps that all satisfy `A`;
* `Step.shared_cases`, `Step.thread_cases`: all that one step can do;
* `Reach.coded`: the calls a thread made are a run of its own code, so what
  `wp` proves of one program holds of each thread;
* `Reach.invariant`: what one step preserves holds after every run;
* `Reach.extends`: threads are never forgotten and never lose calls.
-/

namespace Interaction

/-- A running program, with the calls it has made so far. -/
structure Thread (C : Type) (R : C → Type) (ε : Type) (κ : Type) where
  kind : κ
  prog : Prog C R ε Unit
  trace : List (Event C R ε)
  crashed : Bool

/-- The code of each kind of thread and how the shared state answers it. -/
structure System (C : Type) (R : C → Type) (ε κ S : Type) where
  code : κ → Prog C R ε Unit
  start : S → κ → Prop
  answer : S → κ → (c : C) → Except ε (R c) → S → Prop
  drift : S → S → Prop

structure Conf (C : Type) (R : C → Type) (ε κ S : Type) where
  shared : S
  threads : List (Thread C R ε κ)

inductive Label (C : Type) (R : C → Type) (ε κ : Type) where
  | start (k : κ)
  | call (i : Nat) (e : Event C R ε)
  | crash (i : Nat)
  | drift

variable {C : Type} {R : C → Type} {ε κ S α β : Type}

namespace Thread

def new (sys : System C R ε κ S) (k : κ) : Thread C R ε κ := ⟨k, sys.code k, [], false⟩

/-- The thread after the call `c` was answered by `r`. -/
def answered (th : Thread C R ε κ) (c : C) (r : Except ε (R c)) (p : Prog C R ε Unit) :
    Thread C R ε κ :=
  { th with prog := p, trace := th.trace ++ [⟨c, r⟩] }

/-- Ran to its end: it returned or raised. -/
def Finished (th : Thread C R ε κ) : Prop := th.prog = .ret ()

end Thread

inductive Step (sys : System C R ε κ S) :
    Conf C R ε κ S → Label C R ε κ → Conf C R ε κ S → Prop
  | start {c : Conf C R ε κ S} {k : κ} : sys.start c.shared k →
      Step sys c (.start k) ⟨c.shared, c.threads ++ [Thread.new sys k]⟩
  | call {c : Conf C R ε κ S} {i : Nat} {th : Thread C R ε κ} {cl : C}
      {f : Except ε (R cl) → Prog C R ε Unit} {r : Except ε (R cl)} {s : S} :
      c.threads[i]? = some th → th.crashed = false → th.prog = .call cl f →
      sys.answer c.shared th.kind cl r s →
      Step sys c (.call i ⟨cl, r⟩) ⟨s, c.threads.set i (th.answered cl r (f r))⟩
  | crash {c : Conf C R ε κ S} {i : Nat} {th : Thread C R ε κ} :
      c.threads[i]? = some th →
      Step sys c (.crash i) ⟨c.shared, c.threads.set i { th with crashed := true }⟩
  | drift {c : Conf C R ε κ S} {s : S} : sys.drift c.shared s →
      Step sys c .drift ⟨s, c.threads⟩

/-- Reached by steps that all satisfy `A`. -/
inductive Reach (sys : System C R ε κ S)
    (A : Conf C R ε κ S → Label C R ε κ → Conf C R ε κ S → Prop) (c₀ : Conf C R ε κ S) :
    Conf C R ε κ S → Prop
  | refl : Reach sys A c₀ c₀
  | tail {c c' : Conf C R ε κ S} {l : Label C R ε κ} :
      Reach sys A c₀ c → Step sys c l c' → A c l c' → Reach sys A c₀ c'

variable {sys : System C R ε κ S}
  {A : Conf C R ε κ S → Label C R ε κ → Conf C R ε κ S → Prop} {c₀ c c' : Conf C R ε κ S}

theorem Reach.invariant {I : Conf C R ε κ S → Prop} (h : Reach sys A c₀ c) (h0 : I c₀)
    (hs : ∀ c l c', I c → Step sys c l c' → A c l c' → I c') : I c := by
  induction h with
  | refl => exact h0
  | tail _ hstep hA ih => exact hs _ _ _ ih hstep hA

theorem Reach.trans {c₁ c₂ : Conf C R ε κ S} (h : Reach sys A c₀ c₁) (h' : Reach sys A c₁ c₂) :
    Reach sys A c₀ c₂ := by
  induction h' with
  | refl => exact h
  | tail _ hstep hA ih => exact .tail ih hstep hA

theorem Reach.mono {B : Conf C R ε κ S → Label C R ε κ → Conf C R ε κ S → Prop}
    (h : Reach sys A c₀ c) (hAB : ∀ c l c', A c l c' → B c l c') : Reach sys B c₀ c := by
  induction h with
  | refl => exact .refl
  | tail _ hstep hA ih => exact .tail ih hstep (hAB _ _ _ hA)

/-! ## Replacing one thread -/

theorem getElem?_set_self' {l : List α} {i : Nat} {a b : α} (h : l[i]? = some a) :
    (l.set i b)[i]? = some b := by
  have hi : i < l.length := (List.getElem?_eq_some_iff.mp h).1
  simp [hi]

/-- After `set`, a position holds the new entry or what it held before. -/
theorem getElem?_set_cases {l : List α} {i j : Nat} {a b x : α} (h : l[i]? = some a)
    (hx : (l.set i b)[j]? = some x) : (j = i ∧ x = b) ∨ (j ≠ i ∧ l[j]? = some x) := by
  by_cases hj : j = i
  · subst hj
    rw [getElem?_set_self' h] at hx
    exact .inl ⟨rfl, (Option.some.inj hx).symm⟩
  · rw [List.getElem?_set_ne (Ne.symm hj)] at hx
    exact .inr ⟨hj, hx⟩

theorem getElem?_append_cases {l : List α} {j : Nat} {b x : α}
    (hx : (l ++ [b])[j]? = some x) : l[j]? = some x ∨ (j = l.length ∧ x = b) := by
  rcases Nat.lt_trichotomy j l.length with hj | hj | hj
  · exact .inl (by rwa [List.getElem?_append_left hj] at hx)
  · subst hj
    simp at hx
    exact .inr ⟨rfl, hx.symm⟩
  · rw [List.getElem?_eq_none (by simp; omega)] at hx
    exact absurd hx (by simp)

/-- At most one entry counts, and it counts at most one. -/
theorem sum_map_le_one {l : List α} {f : α → Nat} (h1 : ∀ a ∈ l, f a ≤ 1)
    (h2 : ∀ (i j : Nat) (a b : α), l[i]? = some a → l[j]? = some b → f a ≠ 0 → f b ≠ 0 → i = j) :
    (l.map f).sum ≤ 1 := by
  induction l with
  | nil => simp
  | cons a l ih =>
    have hl : (l.map f).sum ≤ 1 := by
      refine ih (fun b hb => h1 b (List.mem_cons_of_mem _ hb)) ?_
      intro i j b b' hb hb' hf hf'
      have := h2 (i + 1) (j + 1) b b' hb hb' hf hf'
      omega
    rw [List.map_cons, List.sum_cons]
    by_cases ha : f a = 0
    · omega
    · have hzero : (l.map f).sum = 0 := by
        rw [List.sum_eq_zero_iff_forall_eq_nat]
        intro x hx
        obtain ⟨b, hb, rfl⟩ := List.mem_map.mp hx
        obtain ⟨j, hj⟩ := List.getElem?_of_mem hb
        by_contra hne
        have := h2 0 (j + 1) a b rfl hj ha hne
        omega
      have := h1 a List.mem_cons_self
      omega

/-- What must be new each time happens at most once. -/
theorem countP_le_one {p : α → Bool} {l : List α}
    (h : ∀ u a v, l = u ++ a :: v → p a = true → u.any p = false) : l.countP p ≤ 1 := by
  induction l with
  | nil => simp
  | cons a l ih =>
    rw [List.countP_cons]
    by_cases ha : p a = true
    · have hzero : l.countP p = 0 := by
        rw [List.countP_eq_zero]
        intro b hb hpb
        obtain ⟨u, v, rfl⟩ := List.append_of_mem hb
        have := h (a :: u) b v rfl hpb
        simp [ha] at this
      simp [hzero, ha]
    · have := ih fun u b v hl hb => by
        have := h (a :: u) b v (by rw [hl]; rfl) hb
        simpa [ha] using this
      simp [ha, this]

/-- Two firsts of the same list are one. -/
theorem first_eq {p : α → Bool} {u v u' v' : List α} {a b : α}
    (h : u ++ a :: v = u' ++ b :: v') (ha : p a = true) (hb : p b = true)
    (hu : u.any p = false) (hu' : u'.any p = false) : a = b := by
  have find {u v : List α} {a : α} (ha : p a = true) (hu : u.any p = false) :
      (u ++ a :: v).find? p = some a := by
    have hnone : u.find? p = none := by
      rw [List.find?_eq_none]
      intro x hx hpx
      rw [List.any_eq_false] at hu
      exact hu x hx hpx
    rw [List.find?_append, hnone]
    simp [ha]
  have hfirst := find (v := v) ha hu
  rw [h, find hb hu'] at hfirst
  exact (Option.some.inj hfirst).symm

/-! ## Before anyone has started -/

theorem Conf.not_started (h : c.threads = []) {i : Nat} {th : Thread C R ε κ} :
    c.threads[i]? ≠ some th := by
  rw [h]
  rintro ⟨⟩

/-! ## What a step can do -/

/-- Thread `i` makes the call of `e`, and the shared state answers. -/
structure Conf.Calls (sys : System C R ε κ S) (c : Conf C R ε κ S) (i : Nat)
    (th : Thread C R ε κ) (e : Event C R ε) (s : S) : Prop where
  thread : c.threads[i]? = some th
  running : th.crashed = false
  next : ∃ f, th.prog = .call e.call f
  answer : sys.answer c.shared th.kind e.call e.resp s

theorem Conf.Calls.unfinished {i : Nat} {th : Thread C R ε κ} {e : Event C R ε} {s : S}
    (h : c.Calls sys i th e s) : ¬ th.Finished := by
  obtain ⟨f, hf⟩ := h.next
  intro hfin
  rw [Thread.Finished, hf] at hfin
  cases hfin

/-- Only one thread stands at a position. -/
theorem Conf.Calls.thread_eq {i : Nat} {th th' : Thread C R ε κ} {e : Event C R ε} {s : S}
    (h : c.Calls sys i th e s) (hi : c.threads[i]? = some th') : th' = th := by
  have hboth := hi.symm.trans h.thread
  exact Option.some.inj hboth

/-- The shared state stays, drifts, or answers a call. -/
theorem Step.shared_cases {l : Label C R ε κ} (h : Step sys c l c') :
    c'.shared = c.shared ∨ (l = .drift ∧ sys.drift c.shared c'.shared) ∨
      ∃ i th e, l = .call i e ∧ c.Calls sys i th e c'.shared := by
  cases h with
  | start _ => exact .inl rfl
  | call hi hcr hp ha => exact .inr (.inr ⟨_, _, _, rfl, hi, hcr, ⟨_, hp⟩, ha⟩)
  | crash _ => exact .inl rfl
  | drift hd => exact .inr (.inl ⟨rfl, hd⟩)

/-- A thread after the step made no call in it, is new, or had its call answered. -/
theorem Step.thread_cases {l : Label C R ε κ} (h : Step sys c l c') {j : Nat}
    {th' : Thread C R ε κ} (hj : c'.threads[j]? = some th') :
    (∃ th, c.threads[j]? = some th ∧ th'.kind = th.kind ∧ th'.trace = th.trace ∧
        th'.prog = th.prog ∧ (th'.crashed = false → th.crashed = false) ∧
        ∀ e, l ≠ .call j e) ∨
      (∃ k, l = .start k ∧ j = c.threads.length ∧ th' = Thread.new sys k) ∨
      ∃ th e f, l = .call j e ∧ c.Calls sys j th e c'.shared ∧ th.prog = .call e.call f ∧
        th' = th.answered e.call e.resp (f e.resp) := by
  cases h with
  | start _ =>
    rcases getElem?_append_cases hj with hj | ⟨rfl, rfl⟩
    · exact .inl ⟨th', hj, rfl, rfl, rfl, id, fun _ h => by cases h⟩
    · exact .inr (.inl ⟨_, rfl, rfl, rfl⟩)
  | @call i th cl f r _ hi hcr hp ha =>
    rcases getElem?_set_cases hi hj with ⟨rfl, rfl⟩ | ⟨hne, hj⟩
    · exact .inr (.inr ⟨th, ⟨cl, r⟩, f, rfl, ⟨hi, hcr, ⟨f, hp⟩, ha⟩, hp, rfl⟩)
    · refine .inl ⟨th', hj, rfl, rfl, rfl, id, ?_⟩
      rintro e ⟨rfl⟩
      exact hne rfl
  | @crash i th hi =>
    rcases getElem?_set_cases hi hj with ⟨rfl, rfl⟩ | ⟨-, hj⟩
    · exact .inl ⟨th, hi, rfl, rfl, rfl, (fun h => by cases h), fun _ h => by cases h⟩
    · exact .inl ⟨th', hj, rfl, rfl, rfl, id, fun _ h => by cases h⟩
  | drift _ => exact .inl ⟨th', hj, rfl, rfl, rfl, id, fun _ h => by cases h⟩

/-- A call in a history was there before the step, or is the one made in it. -/
theorem Step.event_cases {l : Label C R ε κ} (h : Step sys c l c') {j : Nat}
    {th' : Thread C R ε κ} {e : Event C R ε} (hj : c'.threads[j]? = some th')
    (he : e ∈ th'.trace) :
    ∃ th, th'.kind = th.kind ∧ ((c.threads[j]? = some th ∧ e ∈ th.trace) ∨
      (l = .call j e ∧ c.Calls sys j th e c'.shared)) := by
  rcases h.thread_cases hj with ⟨th, hi, hk, ht, -⟩ | ⟨k, -, -, rfl⟩ | ⟨th, d, f, hl, hcall, -, rfl⟩
  · rw [ht] at he
    exact ⟨th, hk, .inl ⟨hi, he⟩⟩
  · cases he
  · refine ⟨th, rfl, ?_⟩
    rcases List.mem_append.mp he with he | he
    · exact .inl ⟨hcall.thread, he⟩
    · cases List.mem_singleton.mp he
      exact .inr ⟨hl, hcall⟩

theorem Step.calls {i : Nat} {e : Event C R ε} (h : Step sys c (.call i e) c') :
    ∃ th, c.Calls sys i th e c'.shared := by
  cases h with
  | call hi hcr hp ha => exact ⟨_, hi, hcr, ⟨_, hp⟩, ha⟩

/-- A thread has the kind it had before the step, or has just started. -/
theorem Step.kind_cases {l : Label C R ε κ} (h : Step sys c l c') {j : Nat}
    {th' : Thread C R ε κ} (hj : c'.threads[j]? = some th') :
    (∃ th, c.threads[j]? = some th ∧ th'.kind = th.kind) ∨
      l = .start th'.kind ∧ j = c.threads.length := by
  rcases h.thread_cases hj with ⟨th, hi, hk, -⟩ | ⟨k, hl, hlen, rfl⟩ |
    ⟨th, e, f, -, hcall, -, rfl⟩
  · exact .inl ⟨th, hi, hk⟩
  · exact .inr ⟨hl, hlen⟩
  · exact .inl ⟨th, hcall.thread, rfl⟩

/-- The thread that made the call, with the call in its history. -/
theorem Step.caller {i : Nat} {e : Event C R ε} (h : Step sys c (.call i e) c') :
    ∃ th th', c.threads[i]? = some th ∧ c'.threads[i]? = some th' ∧ th'.kind = th.kind ∧
      th'.trace = th.trace ++ [e] := by
  cases h with
  | call hi hcr hp ha => exact ⟨_, _, hi, getElem?_set_self' hi, rfl, rfl⟩

/-! ## Thread-local reasoning -/

/-- Every thread has made exactly the calls of a run of its code. -/
def Conf.Coded (sys : System C R ε κ S) (c : Conf C R ε κ S) : Prop :=
  ∀ (i : Nat) (th : Thread C R ε κ), c.threads[i]? = some th →
    Steps (sys.code th.kind) th.trace th.prog

theorem Conf.coded_of_nil (h : c.threads = []) : c.Coded sys :=
  fun _ _ hi => absurd hi (Conf.not_started h)

theorem Step.coded {l : Label C R ε κ} (h : Step sys c l c') (hc : c.Coded sys) :
    c'.Coded sys := by
  intro j th' hj
  rcases h.thread_cases hj with ⟨th, hi, hk, ht, hp, -, -⟩ | ⟨k, -, -, rfl⟩ |
    ⟨th, e, f, -, hcall, hp, rfl⟩
  · rw [hk, ht, hp]
    exact hc j th hi
  · exact .done _
  · have hs := hc j th hcall.thread
    rw [hp] at hs
    exact hs.snoc _

theorem Reach.coded (h : Reach sys A c₀ c) (h0 : c₀.Coded sys) : c.Coded sys :=
  h.invariant h0 fun _ _ _ hc hs _ => hs.coded hc

section Keeping

variable {good : κ → Event C R ε → Prop} {allow : κ → List (Event C R ε) → C → Prop}
  {Q : κ → List (Event C R ε) → Unit → Prop} {i : Nat} {th : Thread C R ε κ}

/-- What its history allows, a thread calls next. -/
theorem Conf.Coded.allows
    (hw : ∀ k, wp (historyMonitor (good k) (allow k)) (sys.code k) [] (Q k))
    (hc : c.Coded sys) (hi : c.threads[i]? = some th) (hg : ∀ e ∈ th.trace, good th.kind e)
    {cl : C} {f : Except ε (R cl) → Prog C R ε Unit} (hp : th.prog = .call cl f) :
    allow th.kind th.trace cl := by
  have hs := hc i th hi
  rw [hp] at hs
  exact historyMonitor_allow (hw th.kind) hs hg

/-- Every call it has made was allowed when it was made. -/
theorem Conf.Coded.made
    (hw : ∀ k, wp (historyMonitor (good k) (allow k)) (sys.code k) [] (Q k))
    (hc : c.Coded sys) (hi : c.threads[i]? = some th) (hg : ∀ e ∈ th.trace, good th.kind e)
    {u v : List (Event C R ε)} {e : Event C R ε} (ht : th.trace = u ++ e :: v) :
    allow th.kind u e.call :=
  historyMonitor_made (hw th.kind) (hc i th hi) hg ht

/-- A thread that ran to its end did what its code promises. -/
theorem Conf.Coded.post
    (hw : ∀ k, wp (historyMonitor (good k) (allow k)) (sys.code k) [] (Q k))
    (hc : c.Coded sys) (hi : c.threads[i]? = some th) (hg : ∀ e ∈ th.trace, good th.kind e)
    (hf : th.Finished) : Q th.kind th.trace () := by
  have hs := hc i th hi
  rw [hf] at hs
  exact historyMonitor_post (hw th.kind) hs hg

end Keeping

/-- Every answer in every history is one the shared state gives. -/
def Conf.Answered (good : Event C R ε → Prop) (c : Conf C R ε κ S) : Prop :=
  ∀ (i : Nat) (th : Thread C R ε κ), c.threads[i]? = some th → ∀ e ∈ th.trace, good e

theorem Conf.answered_of_nil {good : Event C R ε → Prop} (h : c.threads = []) :
    c.Answered good :=
  fun _ _ hi => absurd hi (Conf.not_started h)

theorem Step.answered {good : Event C R ε → Prop} {l : Label C R ε κ}
    (hans : ∀ s k cl r s', sys.answer s k cl r s' → good ⟨cl, r⟩) (h : Step sys c l c')
    (hc : c.Answered good) : c'.Answered good := by
  intro j th' hj e he
  rcases h.thread_cases hj with ⟨th, hi, -, ht, -⟩ | ⟨k, -, -, rfl⟩ | ⟨th, d, f, -, hcall, -, rfl⟩
  · rw [ht] at he
    exact hc j th hi e he
  · cases he
  · rcases List.mem_append.mp he with he | he
    · exact hc j th hcall.thread e he
    · rw [List.mem_singleton.mp he]
      exact hans _ _ _ _ _ hcall.answer

theorem Reach.answered {good : Event C R ε → Prop}
    (hans : ∀ s k cl r s', sys.answer s k cl r s' → good ⟨cl, r⟩) (h : Reach sys A c₀ c)
    (h0 : c₀.Answered good) : c.Answered good :=
  h.invariant h0 fun _ _ _ hc hs _ => hs.answered hans hc

/-- What every call in a history says of the shared state as it is now. -/
def Conf.Attested (F : S → κ → Event C R ε → Prop) (c : Conf C R ε κ S) : Prop :=
  ∀ (i : Nat) (th : Thread C R ε κ), c.threads[i]? = some th →
    ∀ e ∈ th.trace, F c.shared th.kind e

/-- Facts that last, and hold when their call is answered, hold of every history. -/
theorem Step.attested {F : S → κ → Event C R ε → Prop} {l : Label C R ε κ} (h : Step sys c l c')
    (hlast : ∀ k e, F c.shared k e → F c'.shared k e)
    (hnew : ∀ i th e, c.Calls sys i th e c'.shared → F c'.shared th.kind e)
    (hc : c.Attested F) : c'.Attested F := by
  intro j th' hj e he
  obtain ⟨th, hk, ⟨hi, he⟩ | ⟨-, hcall⟩⟩ := h.event_cases hj he
  · rw [hk]
    exact hlast _ _ (hc j th hi e he)
  · rw [hk]
    exact hnew j th e hcall

/-! ## Threads only grow -/

/-- `c'` has every thread of `c`, of the same kind and with at least its calls. -/
def Conf.Extends (c c' : Conf C R ε κ S) : Prop :=
  ∀ (i : Nat) (th : Thread C R ε κ), c.threads[i]? = some th →
    ∃ th', c'.threads[i]? = some th' ∧ th'.kind = th.kind ∧ th.trace <+: th'.trace

theorem Conf.Extends.rfl' (c : Conf C R ε κ S) : c.Extends c :=
  fun _ th hi => ⟨th, hi, rfl, List.prefix_refl _⟩

theorem Conf.Extends.trans {c₁ c₂ c₃ : Conf C R ε κ S} (h : c₁.Extends c₂)
    (h' : c₂.Extends c₃) : c₁.Extends c₃ := by
  intro i th hi
  obtain ⟨th₂, hi₂, hk₂, ht₂⟩ := h i th hi
  obtain ⟨th₃, hi₃, hk₃, ht₃⟩ := h' i th₂ hi₂
  exact ⟨th₃, hi₃, hk₃.trans hk₂, ht₂.trans ht₃⟩

theorem Conf.extends_set {i : Nat} {th th' : Thread C R ε κ} (hi : c.threads[i]? = some th)
    (hk : th'.kind = th.kind) (ht : th.trace <+: th'.trace) (s : S) :
    c.Extends ⟨s, c.threads.set i th'⟩ := by
  intro j x hj
  by_cases hij : j = i
  · subst hij
    rw [hi] at hj
    cases hj
    exact ⟨th', getElem?_set_self' hi, hk, ht⟩
  · exact ⟨x, by simp [List.getElem?_set_ne (Ne.symm hij), hj], rfl, List.prefix_refl _⟩

theorem Step.extends {l : Label C R ε κ} (h : Step sys c l c') : c.Extends c' := by
  cases h with
  | start _ =>
    intro j th hj
    have hlt : j < c.threads.length := (List.getElem?_eq_some_iff.mp hj).1
    exact ⟨th, by rw [List.getElem?_append_left hlt, hj], rfl, List.prefix_refl _⟩
  | call hi _ _ _ =>
    apply Conf.extends_set hi
    · rfl
    · exact List.prefix_append _ _
  | crash hi =>
    apply Conf.extends_set hi
    · rfl
    · exact List.prefix_refl _
  | drift _ => exact fun _ th hj => ⟨th, hj, rfl, List.prefix_refl _⟩

theorem Reach.extends (h : Reach sys A c₀ c) : c₀.Extends c := by
  induction h with
  | refl => exact .rfl' _
  | tail _ hs _ ih => exact ih.trans hs.extends

/-! ## Gathering from the histories -/

/-- Of each thread, the first thing that `g` finds in its history. -/
def Conf.gather (g : Event C R ε → Option α) (c : Conf C R ε κ S) : List α :=
  c.threads.filterMap fun th => th.trace.findSome? g

section Gather

variable {g : Event C R ε → Option α} {l : Label C R ε κ} {i : Nat} {e : Event C R ε} {a : α}

theorem Conf.gather_of_nil (h : c.threads = []) : c.gather g = [] := by
  simp [Conf.gather, h]

theorem Conf.gather_map (f : α → β) :
    c.gather (fun e => (g e).map f) = (c.gather g).map f := by
  simp only [Conf.gather, List.map_filterMap, List.map_findSome?]
  rfl

/-- What one function finds, another finds too. -/
theorem Conf.gather_sublist {g' : Event C R ε → Option α}
    (h : ∀ th ∈ c.threads, ∀ a, th.trace.findSome? g = some a → th.trace.findSome? g' = some a) :
    (c.gather g).Sublist (c.gather g') := by
  unfold Conf.gather
  generalize c.threads = threads at h
  induction threads with
  | nil => exact List.Sublist.refl _
  | cons th threads ih =>
    have htail := ih fun th' hth' => h th' (List.mem_cons_of_mem _ hth')
    simp only [List.filterMap_cons]
    cases hg : th.trace.findSome? g with
    | none =>
      cases th.trace.findSome? g' with
      | none => exact htail
      | some b => exact htail.cons b
    | some a =>
      rw [h th List.mem_cons_self a hg]
      exact htail.cons_cons a

theorem filterMap_set_of_eq {f : α → Option β} {l : List α} {x y : α} (hi : l[i]? = some x)
    (h : f y = f x) : (l.set i y).filterMap f = l.filterMap f := by
  induction l generalizing i with
  | nil => rfl
  | cons z l ih =>
    cases i with
    | zero =>
      cases hi
      simp [List.filterMap_cons, h]
    | succ i => simp [List.filterMap_cons, ih (by simpa using hi)]

theorem filterMap_set_of_new {f : α → Option β} {l : List α} {x y : α} {b : β}
    (hi : l[i]? = some x) (hx : f x = none) (hy : f y = some b) :
    ((l.set i y).filterMap f).Perm (b :: l.filterMap f) := by
  induction l generalizing i with
  | nil => cases hi
  | cons z l ih =>
    cases i with
    | zero =>
      cases hi
      simp [hx, hy]
    | succ i =>
      have htail := ih (i := i) (by simpa using hi)
      simp only [List.set_cons_succ, List.filterMap_cons]
      cases f z with
      | none => exact htail
      | some c => exact (htail.cons c).trans (List.Perm.swap b c _)

/-- Only a call with something in it adds to what is gathered. -/
theorem Step.gather_eq (h : Step sys c l c') (hl : ∀ i e, l = .call i e → g e = none) :
    c'.gather g = c.gather g := by
  cases h with
  | start _ => simp [Conf.gather, Thread.new]
  | call hi _ _ _ =>
    refine filterMap_set_of_eq hi ?_
    simp [Thread.answered, List.findSome?_append, hl _ _ rfl]
  | crash hi => exact filterMap_set_of_eq hi rfl
  | drift _ => rfl

theorem Step.gather_new (h : Step sys c (.call i e) c') (hg : g e = some a)
    (hnew : ∀ th, c.threads[i]? = some th → th.trace.findSome? g = none) :
    (c'.gather g).Perm (a :: c.gather g) := by
  cases h with
  | call hi _ _ _ =>
    refine filterMap_set_of_new hi (hnew _ hi) ?_
    simp [Thread.answered, List.findSome?_append, hnew _ hi, hg]

/-- What is gathered without repetition tells the threads apart. -/
theorem Conf.gather_index (h : (c.gather g).Nodup) {j : Nat} {th th' : Thread C R ε κ}
    (hi : c.threads[i]? = some th) (hj : c.threads[j]? = some th')
    (ha : th.trace.findSome? g = some a) (ha' : th'.trace.findSome? g = some a) : i = j := by
  by_contra hne
  have hpairs := List.pairwise_iff_getElem.mp (List.pairwise_filterMap.mp h)
  obtain ⟨hilt, rfl⟩ := List.getElem?_eq_some_iff.mp hi
  obtain ⟨hjlt, rfl⟩ := List.getElem?_eq_some_iff.mp hj
  rcases Nat.lt_or_gt_of_ne hne with hlt | hlt
  · exact hpairs i j hilt hjlt hlt a ha a ha' rfl
  · exact hpairs j i hjlt hilt hlt a ha' a ha rfl

end Gather

/-! ## Letting one thread run -/

/-- The shared state answers the calls of `t` one after the other. -/
inductive Answers (sys : System C R ε κ S) (k : κ) : S → List (Event C R ε) → S → Prop
  | nil (s : S) : Answers sys k s [] s
  | cons {s s' s'' : S} {cl : C} {r : Except ε (R cl)} {t : List (Event C R ε)} :
      sys.answer s k cl r s' → Answers sys k s' t s'' → Answers sys k s (⟨cl, r⟩ :: t) s''

/-- A thread makes its next call. -/
theorem Reach.runCall {i : Nat} {k : κ} {e : Event C R ε} {s : S} (h : Reach sys A c₀ c)
    {p q : Prog C R ε Unit} {u : List (Event C R ε)}
    (hi : c.threads[i]? = some ⟨k, p, u, false⟩) (hs : Steps p [e] q)
    (ha : sys.answer c.shared k e.call e.resp s)
    (hA : ∀ c', A c (.call i e) c') :
    Reach sys A c₀ ⟨s, c.threads.set i ⟨k, q, u ++ [e], false⟩⟩ := by
  obtain ⟨f, rfl, hrest⟩ := hs.uncons
  obtain rfl := hrest.of_nil
  exact h.tail (.call hi rfl rfl ha) (hA _)

/-- Undisturbed, a thread makes the calls of any run of its program. -/
theorem Reach.runThread {i : Nat} {k : κ} {t : List (Event C R ε)} {s : S} (I : S → Prop)
    (hkeep : ∀ s k cl r s', I s → sys.answer s k cl r s' → I s')
    (hA : ∀ c th e c', I c.shared → c.threads[i]? = some th → th.kind = k → e ∈ t →
      A c (.call i e) c')
    (h : Reach sys A c₀ c) (hI : I c.shared) {p q : Prog C R ε Unit}
    {u : List (Event C R ε)} (hi : c.threads[i]? = some ⟨k, p, u, false⟩) (hs : Steps p t q)
    (ha : Answers sys k c.shared t s) :
    Reach sys A c₀ ⟨s, c.threads.set i ⟨k, q, u ++ t, false⟩⟩ := by
  induction t generalizing c p u with
  | nil =>
    obtain ⟨hlt, hget⟩ := List.getElem?_eq_some_iff.mp hi
    cases hs
    cases ha
    rw [List.append_nil, ← hget, List.set_getElem_self]
    exact h
  | cons e t ih =>
    obtain ⟨cl, r⟩ := e
    cases hs with
    | call hs =>
      cases ha with
      | cons ha hrest =>
        have hstep := Step.call hi rfl rfl ha
        have hnext := Reach.tail h hstep (hA _ _ _ _ hI hi rfl List.mem_cons_self)
        have hgot := ih
          (fun c th e c' hc hi hk he => hA c th e c' hc hi hk (List.mem_cons_of_mem _ he))
          hnext (hkeep _ _ _ _ _ hI ha) (getElem?_set_self' hi) hs hrest
        simpa [Thread.answered, List.set_set] using hgot

/-- The same where the assumption is about the calls alone. -/
theorem Reach.runCalls {i : Nat} {k : κ} {t : List (Event C R ε)} {s : S}
    (hA : ∀ c e c', e ∈ t → A c (.call i e) c') (h : Reach sys A c₀ c) {p q : Prog C R ε Unit}
    {u : List (Event C R ε)} (hi : c.threads[i]? = some ⟨k, p, u, false⟩) (hs : Steps p t q)
    (ha : Answers sys k c.shared t s) :
    Reach sys A c₀ ⟨s, c.threads.set i ⟨k, q, u ++ t, false⟩⟩ :=
  h.runThread (fun _ => True) (fun _ _ _ _ _ _ _ => trivial)
    (fun c _ e c' _ _ _ he => hA c e c' he) trivial hi hs ha

end Interaction
