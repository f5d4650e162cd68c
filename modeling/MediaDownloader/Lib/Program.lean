import Mathlib.Data.List.Basic

/-!
# Programs that call their ports

A program is a finite tree: it returns, or it makes one call and goes on with
the answer, a value or an exception.  Whoever runs it decides the answers, so
one definition serves a single run, a run against a fixed environment and an
interleaving with other programs (`Interleaving.lean`).

* `Steps p t q`: `p`, answered as the events of `t` say, has become `q`;
* `Prog.handle`: the run against a given environment;
* `Act`: programs whose result may be an exception, with `attempt` for `try`
  and `ensure` for `finally`;
* `wp`: a weakest precondition over a ghost state that every call updates.
  `wp_steps` carries it to every prefix of every run, `wp_frame` to a program
  called after other calls;
* `Only`: programs that make calls of one kind.
-/

namespace Interaction

/-- A program over the calls `C`, answered in `R c` or by an exception. -/
inductive Prog (C : Type) (R : C → Type) (ε : Type) (α : Type) : Type
  | ret (a : α) : Prog C R ε α
  | call (c : C) (k : Except ε (R c) → Prog C R ε α) : Prog C R ε α

/-- One call together with its answer. -/
structure Event (C : Type) (R : C → Type) (ε : Type) where
  call : C
  resp : Except ε (R call)

variable {C : Type} {R : C → Type} {ε α β γ : Type}

namespace Prog

def bind : Prog C R ε α → (α → Prog C R ε β) → Prog C R ε β
  | ret a, f => f a
  | call c k, f => call c fun r => (k r).bind f

def map (f : α → β) (p : Prog C R ε α) : Prog C R ε β := p.bind fun a => .ret (f a)

end Prog

/-! ## Results -/

theorem bind_eq_ok {x : Except ε α} {f : α → Except ε β} {b : β} :
    x >>= f = .ok b ↔ ∃ a, x = .ok a ∧ f a = .ok b := by
  cases x with
  | error e => simp [Bind.bind, Except.bind]
  | ok a => simp [Bind.bind, Except.bind]

@[simp] theorem ok_bind (a : α) (f : α → Except ε β) : (Except.ok a >>= f) = f a := rfl

@[simp] theorem error_bind (e : ε) (f : α → Except ε β) :
    (Except.error e >>= f) = .error e := rfl

/-! ## Runs -/

/-- `p` makes the calls of `t`, answered as `t` says, and `q` is left. -/
inductive Steps : Prog C R ε α → List (Event C R ε) → Prog C R ε α → Prop
  | done (p : Prog C R ε α) : Steps p [] p
  | call {c : C} {k : Except ε (R c) → Prog C R ε α} {r : Except ε (R c)}
      {t : List (Event C R ε)} {q : Prog C R ε α} :
      Steps (k r) t q → Steps (.call c k) (⟨c, r⟩ :: t) q

/-- A complete run: calls `t`, result `a`. -/
def Runs (p : Prog C R ε α) (t : List (Event C R ε)) (a : α) : Prop := Steps p t (.ret a)

theorem Steps.trans {p q s : Prog C R ε α} {t u : List (Event C R ε)}
    (h : Steps p t q) (hu : Steps q u s) : Steps p (t ++ u) s := by
  induction h with
  | done => exact hu
  | call _ ih => exact .call (ih hu)

theorem Steps.snoc {p : Prog C R ε α} {t : List (Event C R ε)} {c : C}
    {k : Except ε (R c) → Prog C R ε α} (h : Steps p t (.call c k)) (r : Except ε (R c)) :
    Steps p (t ++ [⟨c, r⟩]) (k r) :=
  h.trans (.call (.done _))

theorem Steps.of_nil {p q : Prog C R ε α} (h : Steps p [] q) : p = q := by
  cases h
  rfl

theorem Steps.uncons {p q : Prog C R ε α} {t : List (Event C R ε)} {e : Event C R ε}
    (h : Steps p (e :: t) q) : ∃ k, p = .call e.call k ∧ Steps (k e.resp) t q := by
  cases h with
  | call h => exact ⟨_, rfl, h⟩

/-- Where a run made the call of `e`, it stood before that call. -/
theorem Steps.before {p q : Prog C R ε α} {u v : List (Event C R ε)} {e : Event C R ε}
    (h : Steps p (u ++ e :: v) q) : ∃ k, Steps p u (.call e.call k) := by
  induction u generalizing p with
  | nil =>
    cases h with
    | call _ => exact ⟨_, .done _⟩
  | cons d u ih =>
    cases h with
    | call h =>
      obtain ⟨k, hk⟩ := ih h
      exact ⟨k, .call hk⟩

/-! ## Running against an environment -/

/-- A fixed environment: how it answers, and what it remembers of a call. -/
structure Handler (C : Type) (R : C → Type) (ε : Type) (σ : Type) where
  answer : σ → (c : C) → Except ε (R c)
  next : σ → (c : C) → Except ε (R c) → σ

variable {σ : Type}

/-- The run of a program in the environment `H`. -/
def Prog.handle (H : Handler C R ε σ) : Prog C R ε α → σ → σ × α
  | .ret a, s => (s, a)
  | .call c k, s => (k (H.answer s c)).handle H (H.next s c (H.answer s c))

theorem Prog.handle_bind (H : Handler C R ε σ) (p : Prog C R ε α) (f : α → Prog C R ε β)
    (s : σ) : (p.bind f).handle H s = (f (p.handle H s).2).handle H (p.handle H s).1 := by
  induction p generalizing s with
  | ret a => rfl
  | call c k ih => exact ih _ _

/-! ## Exceptions -/

/-- A program whose result may be an exception. -/
def Act (C : Type) (R : C → Type) (ε : Type) (α : Type) : Type := Prog C R ε (Except ε α)

namespace Act

def bind (p : Act C R ε α) (f : α → Act C R ε β) : Act C R ε β :=
  Prog.bind p fun
    | .ok a => f a
    | .error e => Prog.ret (.error e)

instance : Monad (Act C R ε) where
  pure a := Prog.ret (.ok a)
  bind := Act.bind

/-- Make the call `c`; an exceptional answer is raised. -/
def port (c : C) : Act C R ε (R c) := Prog.call c Prog.ret

def raise (e : ε) : Act C R ε α := Prog.ret (.error e)

def lift (r : Except ε α) : Act C R ε α := Prog.ret r

/-- `try`: the outcome of `p` as a value. -/
def attempt (p : Act C R ε α) : Act C R ε (Except ε α) := Prog.bind p fun r => Prog.ret (.ok r)

/-- `try p finally q`: an exception of `q` replaces the outcome of `p`. -/
def ensure (p : Act C R ε α) (q : Act C R ε Unit) : Act C R ε α :=
  Prog.bind p fun r => Prog.bind q fun
    | .ok _ => Prog.ret r
    | .error e => Prog.ret (.error e)

/-- Run `f` over a list, in order. -/
def each (f : β → Act C R ε Unit) : List β → Act C R ε Unit
  | [] => pure ()
  | b :: bs => f b >>= fun _ => each f bs

end Act

section Handling

variable (H : Handler C R ε σ) (s : σ)

@[simp] theorem handle_pure (a : α) :
    Prog.handle H (pure a : Act C R ε α) s = (s, .ok a) := rfl

@[simp] theorem handle_raise (e : ε) :
    Prog.handle H (Act.raise e : Act C R ε α) s = (s, .error e) := rfl

@[simp] theorem handle_lift (r : Except ε α) :
    Prog.handle H (Act.lift r : Act C R ε α) s = (s, r) := rfl

@[simp] theorem handle_port (c : C) :
    Prog.handle H (Act.port c) s = (H.next s c (H.answer s c), H.answer s c) := rfl

@[simp] theorem handle_act_bind (p : Act C R ε α) (f : α → Act C R ε β) :
    Prog.handle H (p >>= f : Act C R ε β) s =
      match (Prog.handle H p s).2 with
      | .ok a => Prog.handle H (f a) (Prog.handle H p s).1
      | .error e => ((Prog.handle H p s).1, .error e) := by
  refine (Prog.handle_bind H p _ s).trans ?_
  cases (Prog.handle H p s).2 <;> rfl

@[simp] theorem handle_attempt (p : Act C R ε α) :
    Prog.handle H (Act.attempt p) s =
      ((Prog.handle H p s).1, .ok (Prog.handle H p s).2) :=
  Prog.handle_bind H p _ s

theorem handle_ensure (p : Act C R ε α) (q : Act C R ε Unit) :
    Prog.handle H (Act.ensure p q) s =
      match (Prog.handle H q (Prog.handle H p s).1).2 with
      | .ok _ => ((Prog.handle H q (Prog.handle H p s).1).1, (Prog.handle H p s).2)
      | .error e => ((Prog.handle H q (Prog.handle H p s).1).1, .error e) := by
  refine (Prog.handle_bind H p _ s).trans ?_
  refine (Prog.handle_bind H q _ _).trans ?_
  cases (Prog.handle H q (Prog.handle H p s).1).2 <;> rfl

end Handling

/-! ## Weakest preconditions -/

/-- What a proof watches while a program runs: a ghost state moved by every
answered call, which calls are allowed in it, and which answers can come. -/
structure Monitor (C : Type) (R : C → Type) (ε : Type) (σ : Type) where
  next : σ → (c : C) → Except ε (R c) → σ
  allow : σ → C → Prop
  assume : σ → (c : C) → Except ε (R c) → Prop

namespace Monitor

/-- The ghost state after the events of `t`. -/
def after (M : Monitor C R ε σ) (g : σ) (t : List (Event C R ε)) : σ :=
  t.foldl (fun g e => M.next g e.call e.resp) g

/-- Every answer of `t` is one the monitor assumes. -/
def Assumed (M : Monitor C R ε σ) : σ → List (Event C R ε) → Prop
  | _, [] => True
  | g, e :: t => M.assume g e.call e.resp ∧ M.Assumed (M.next g e.call e.resp) t

@[simp] theorem after_nil (M : Monitor C R ε σ) (g : σ) : M.after g [] = g := rfl

@[simp] theorem after_cons (M : Monitor C R ε σ) (g : σ) (e : Event C R ε)
    (t : List (Event C R ε)) : M.after g (e :: t) = M.after (M.next g e.call e.resp) t := rfl

/-- Answers that are all good satisfy whatever goodness implies. -/
theorem assumed_of_forall (M : Monitor C R ε σ) {good : Event C R ε → Prop}
    (h : ∀ g e, good e → M.assume g e.call e.resp) (g : σ) {t : List (Event C R ε)}
    (ht : ∀ e ∈ t, good e) : M.Assumed g t := by
  induction t generalizing g with
  | nil => trivial
  | cons e t ih =>
    exact ⟨h g e (ht e List.mem_cons_self), ih _ fun d hd => ht d (List.mem_cons_of_mem _ hd)⟩

end Monitor

/-- The monitor whose ghost state is the history itself, for answers that are `good`. -/
def historyMonitor (good : Event C R ε → Prop) (allow : List (Event C R ε) → C → Prop) :
    Monitor C R ε (List (Event C R ε)) where
  next g c r := g ++ [⟨c, r⟩]
  allow := allow
  assume _ c r := good ⟨c, r⟩

section History

variable {good : Event C R ε → Prop} {allow : List (Event C R ε) → C → Prop}

@[simp] theorem historyMonitor_next (g : List (Event C R ε)) (c : C) (r : Except ε (R c)) :
    (historyMonitor good allow).next g c r = g ++ [⟨c, r⟩] := rfl

theorem historyMonitor_after (g t : List (Event C R ε)) :
    (historyMonitor good allow).after g t = g ++ t := by
  induction t generalizing g with
  | nil => simp
  | cons e t ih =>
    rw [Monitor.after_cons, ih]
    simp

theorem historyMonitor_assumed (g : List (Event C R ε)) {t : List (Event C R ε)}
    (ht : ∀ e ∈ t, good e) : (historyMonitor good allow).Assumed g t :=
  Monitor.assumed_of_forall _ (fun _ _ h => h) g ht

end History

/-- `p`, started in ghost state `g`, makes only allowed calls and ends in `Q`. -/
def wp (M : Monitor C R ε σ) : Prog C R ε α → σ → (σ → α → Prop) → Prop
  | .ret a, g, Q => Q g a
  | .call c k, g, Q => M.allow g c ∧ ∀ r, M.assume g c r → wp M (k r) (M.next g c r) Q

section Rules

variable (M : Monitor C R ε σ)

@[simp] theorem wp_ret (a : α) (g : σ) (Q : σ → α → Prop) :
    wp M (.ret a) g Q ↔ Q g a := Iff.rfl

@[simp] theorem wp_call (c : C) (k : Except ε (R c) → Prog C R ε α) (g : σ)
    (Q : σ → α → Prop) :
    wp M (.call c k) g Q ↔
      M.allow g c ∧ ∀ r, M.assume g c r → wp M (k r) (M.next g c r) Q := Iff.rfl

theorem wp_mono {p : Prog C R ε α} {g : σ} {Q Q' : σ → α → Prop}
    (h : wp M p g Q) (hQ : ∀ g a, Q g a → Q' g a) : wp M p g Q' := by
  induction p generalizing g with
  | ret a => exact hQ _ _ h
  | call c k ih => exact ⟨h.1, fun r hr => ih r (h.2 r hr)⟩

theorem wp_bind (p : Prog C R ε α) (f : α → Prog C R ε β) (g : σ) (Q : σ → β → Prop) :
    wp M (p.bind f) g Q ↔ wp M p g fun g' a => wp M (f a) g' Q := by
  induction p generalizing g with
  | ret a => rfl
  | call c k ih => simp only [Prog.bind, wp_call, ih]

/-- Every prefix of a run keeps to the monitor. -/
theorem wp_steps {p q : Prog C R ε α} {t : List (Event C R ε)} {g : σ} {Q : σ → α → Prop}
    (h : wp M p g Q) (hs : Steps p t q) (ha : M.Assumed g t) : wp M q (M.after g t) Q := by
  induction hs generalizing g with
  | done => exact h
  | call _ ih => exact ih (h.2 _ ha.1) ha.2

theorem wp_runs {p : Prog C R ε α} {t : List (Event C R ε)} {a : α} {g : σ}
    {Q : σ → α → Prop} (h : wp M p g Q) (hr : Runs p t a) (ha : M.Assumed g t) :
    Q (M.after g t) a :=
  wp_steps M h hr ha

/-- Wherever a run stands before a call, the monitor allows that call. -/
theorem wp_allow {p : Prog C R ε α} {t : List (Event C R ε)} {c : C}
    {k : Except ε (R c) → Prog C R ε α} {g : σ} {Q : σ → α → Prop}
    (h : wp M p g Q) (hs : Steps p t (.call c k)) (ha : M.Assumed g t) :
    M.allow (M.after g t) c :=
  (wp_steps M h hs ha).1

/-- A monitor that allows everything stops nothing. -/
theorem wp_allowed (hM : ∀ g c, M.allow g c) (p : Prog C R ε α) (g : σ) :
    wp M p g fun _ _ => True := by
  induction p generalizing g with
  | ret a => trivial
  | call c k ih => exact ⟨hM g c, fun r _ => ih r _⟩

section History

variable {good : Event C R ε → Prop} {allow : List (Event C R ε) → C → Prop}
  {p : Prog C R ε α} {t : List (Event C R ε)} {Q : List (Event C R ε) → α → Prop}

/-- Wherever a run with good answers stands, the history allows its next call. -/
theorem historyMonitor_allow {c : C} {k : Except ε (R c) → Prog C R ε α}
    (h : wp (historyMonitor good allow) p [] Q) (hs : Steps p t (.call c k))
    (hg : ∀ e ∈ t, good e) : allow t c := by
  have ha := wp_allow _ h hs (historyMonitor_assumed [] hg)
  rwa [historyMonitor_after] at ha

/-- Fewer answers to reckon with. -/
theorem wp_assume {good' : Event C R ε → Prop} {g : List (Event C R ε)}
    (hgood : ∀ e, good' e → good e) (h : wp (historyMonitor good allow) p g Q) :
    wp (historyMonitor good' allow) p g Q := by
  induction p generalizing g with
  | ret a => exact h
  | call c k ih => exact ⟨h.1, fun r hr => ih r (h.2 r (hgood _ hr))⟩

/-- What a program does from the start it does after any history `g`, if its
calls are allowed there. -/
theorem wp_frame {allow' : List (Event C R ε) → C → Prop} {g : List (Event C R ε)}
    (hallow : ∀ u c, allow u c → allow' (g ++ u) c) {u : List (Event C R ε)}
    (h : wp (historyMonitor good allow) p u Q) :
    wp (historyMonitor good allow') p (g ++ u) fun g' a => ∃ v, g' = g ++ v ∧ Q v a := by
  induction p generalizing u with
  | ret a => exact ⟨u, rfl, h⟩
  | call c k ih =>
    refine ⟨hallow u c h.1, fun r hr => ?_⟩
    have hk := ih r (h.2 r hr)
    rw [historyMonitor_next, List.append_assoc]
    exact hk

/-- The history is never rewritten. -/
theorem wp_extends {g : List (Event C R ε)} (h : wp (historyMonitor good allow) p g Q) :
    wp (historyMonitor good allow) p g fun g' a => Q g' a ∧ g <+: g' := by
  induction p generalizing g with
  | ret a => exact ⟨h, List.prefix_refl g⟩
  | call c k ih =>
    refine ⟨h.1, fun r hr => wp_mono _ (ih r (h.2 r hr)) ?_⟩
    intro g' a hq
    exact ⟨hq.1, (List.prefix_append g _).trans hq.2⟩

/-- What the history monitor allows, every call of a run respects. -/
theorem historyMonitor_made {q : Prog C R ε α} (h : wp (historyMonitor good allow) p [] Q)
    (hs : Steps p t q) (hg : ∀ e ∈ t, good e) {u v : List (Event C R ε)} {e : Event C R ε}
    (ht : t = u ++ e :: v) : allow u e.call := by
  rw [ht] at hs hg
  obtain ⟨k, hk⟩ := hs.before
  exact historyMonitor_allow h hk fun d hd => hg d (List.mem_append_left _ hd)

/-- At the end of a run the postcondition holds of its history. -/
theorem historyMonitor_post {a : α} (h : wp (historyMonitor good allow) p [] Q)
    (hr : Runs p t a) (hg : ∀ e ∈ t, good e) : Q t a := by
  have hq := wp_runs _ h hr (historyMonitor_assumed [] hg)
  rwa [historyMonitor_after] at hq

end History

theorem wp_map (p : Prog C R ε α) (f : α → β) (g : σ) (Q : σ → β → Prop) :
    wp M (p.map f) g Q ↔ wp M p g fun g' a => Q g' (f a) :=
  wp_bind M p _ g Q

@[simp] theorem wp_pure (a : α) (g : σ) (Q : σ → Except ε α → Prop) :
    wp M (pure a : Act C R ε α) g Q ↔ Q g (.ok a) := Iff.rfl

@[simp] theorem wp_raise (e : ε) (g : σ) (Q : σ → Except ε α → Prop) :
    wp M (Act.raise e : Act C R ε α) g Q ↔ Q g (.error e) := Iff.rfl

@[simp] theorem wp_lift (r : Except ε α) (g : σ) (Q : σ → Except ε α → Prop) :
    wp M (Act.lift r : Act C R ε α) g Q ↔ Q g r := Iff.rfl

@[simp] theorem wp_port (c : C) (g : σ) (Q : σ → Except ε (R c) → Prop) :
    wp M (Act.port c) g Q ↔
      M.allow g c ∧ ∀ r, M.assume g c r → Q (M.next g c r) r := Iff.rfl

/-- Sequencing: go on after a value, end at an exception. -/
@[simp] theorem wp_act_bind (p : Act C R ε α) (f : α → Act C R ε β) (g : σ)
    (Q : σ → Except ε β → Prop) :
    wp M (p >>= f : Act C R ε β) g Q ↔ wp M p g fun g' r =>
      match r with
      | .ok a => wp M (f a) g' Q
      | .error e => Q g' (.error e) := by
  refine (wp_bind M p _ g Q).trans (iff_of_eq ?_)
  congr
  funext g' r
  cases r <;> rfl

theorem wp_port_bind (c : C) (f : R c → Act C R ε β) (g : σ) (Q : σ → Except ε β → Prop) :
    wp M (Act.port c >>= f : Act C R ε β) g Q ↔
      M.allow g c ∧ ∀ r, M.assume g c r →
        match r with
        | .ok a => wp M (f a) (M.next g c r) Q
        | .error e => Q (M.next g c r) (.error e) := by
  rw [wp_act_bind, wp_port]
  refine and_congr_right fun _ => forall₂_congr fun r _ => ?_
  cases r <;> rfl

@[simp] theorem wp_attempt (p : Act C R ε α) (g : σ)
    (Q : σ → Except ε (Except ε α) → Prop) :
    wp M (Act.attempt p) g Q ↔ wp M p g fun g' r => Q g' (.ok r) :=
  wp_bind M p _ g Q

theorem wp_ensure (p : Act C R ε α) (q : Act C R ε Unit) (g : σ)
    (Q : σ → Except ε α → Prop) :
    wp M (Act.ensure p q) g Q ↔ wp M p g fun g' r => wp M q g' fun g'' r' =>
      match r' with
      | .ok _ => Q g'' r
      | .error e => Q g'' (.error e) := by
  refine (wp_bind M p _ g Q).trans (iff_of_eq ?_)
  congr
  funext g' r
  refine propext ((wp_bind M q _ g' Q).trans (iff_of_eq ?_))
  congr
  funext g'' r'
  cases r' <;> rfl

/-- Loop rule: the invariant speaks of the elements already done. -/
theorem wp_each (f : β → Act C R ε Unit) (Inv : List β → σ → Prop) (Q : σ → ε → Prop)
    (bs : List β)
    (hf : ∀ done b rest g, bs = done ++ b :: rest → Inv done g → wp M (f b) g fun g' r =>
      match r with
      | .ok _ => Inv (done ++ [b]) g'
      | .error e => Q g' e)
    (g : σ) (hg : Inv [] g) :
    wp M (Act.each f bs) g fun g' r =>
      match r with
      | .ok _ => Inv bs g'
      | .error e => Q g' e := by
  suffices h : ∀ done rest g, bs = done ++ rest → Inv done g →
      wp M (Act.each f rest) g fun g' r =>
        match r with
        | .ok _ => Inv bs g'
        | .error e => Q g' e from h [] bs g rfl hg
  intro done rest
  induction rest generalizing done with
  | nil =>
    intro g hbs hinv
    rw [List.append_nil] at hbs
    subst hbs
    exact hinv
  | cons b rest ih =>
    intro g hbs hinv
    refine (wp_act_bind M _ _ _ _).mpr (wp_mono M (hf done b rest g hbs hinv) ?_)
    intro g' r hr
    cases r with
    | ok _ => exact ih (done ++ [b]) g' (by rw [hbs]; simp) hr
    | error e => exact hr

end Rules

/-! ## Programs that only make calls of one kind -/

/-- Every call of `p`, whatever the answers, satisfies `P`. -/
def Only (P : C → Prop) : Prog C R ε α → Prop
  | .ret _ => True
  | .call c k => P c ∧ ∀ r, Only P (k r)

section Only

variable {P : C → Prop}

theorem only_bind {p : Prog C R ε α} {f : α → Prog C R ε β} (hp : Only P p)
    (hf : ∀ a, Only P (f a)) : Only P (p.bind f) := by
  induction p with
  | ret a => exact hf a
  | call c k ih => exact ⟨hp.1, fun r => ih r (hp.2 r)⟩

@[simp] theorem only_pure (a : α) : Only P (pure a : Act C R ε α) := trivial

@[simp] theorem only_lift (r : Except ε α) : Only P (Act.lift r : Act C R ε α) := trivial

@[simp] theorem only_port {c : C} : Only P (Act.port c : Act C R ε (R c)) ↔ P c :=
  and_iff_left fun _ => trivial

theorem only_act_bind {p : Act C R ε α} {f : α → Act C R ε β} (hp : Only P p)
    (hf : ∀ a, Only P (f a)) : Only P (p >>= f : Act C R ε β) := by
  refine only_bind hp fun r => ?_
  cases r with
  | ok a => exact hf a
  | error e => trivial

@[simp] theorem only_port_bind {c : C} {f : R c → Act C R ε β} :
    Only P (Act.port c >>= f : Act C R ε β) ↔ P c ∧ ∀ a, Only P (f a) := by
  refine and_congr_right fun _ => ⟨fun h a => h (.ok a), fun h r => ?_⟩
  cases r with
  | ok a => exact h a
  | error e => trivial

@[simp] theorem only_lift_bind {r : Except ε α} {f : α → Act C R ε β} :
    Only P (Act.lift r >>= f : Act C R ε β) ↔ ∀ a, r = .ok a → Only P (f a) := by
  cases r with
  | ok a =>
    constructor
    · rintro h b ⟨rfl⟩
      exact h
    · exact fun h => h a rfl
  | error e =>
    constructor
    · rintro - b ⟨⟩
    · exact fun _ => trivial

theorem only_attempt {p : Act C R ε α} (hp : Only P p) : Only P (Act.attempt p) :=
  only_bind hp fun _ => trivial

theorem only_ensure {p : Act C R ε α} {q : Act C R ε Unit} (hp : Only P p) (hq : Only P q) :
    Only P (Act.ensure p q) :=
  only_bind hp fun _ => only_bind hq fun r => by cases r <;> trivial

theorem only_each {f : β → Act C R ε Unit} {bs : List β} (hf : ∀ b ∈ bs, Only P (f b)) :
    Only P (Act.each f bs) := by
  induction bs with
  | nil => trivial
  | cons b bs ih =>
    exact only_act_bind (hf b List.mem_cons_self)
      fun _ => ih fun b' hb' => hf b' (List.mem_cons_of_mem _ hb')

/-- A monitor that allows all such calls lets the program through. -/
theorem wp_of_only {M : Monitor C R ε σ} (hM : ∀ g c, P c → M.allow g c) {p : Prog C R ε α}
    (hp : Only P p) (g : σ) : wp M p g fun _ _ => True := by
  induction p generalizing g with
  | ret a => trivial
  | call c k ih => exact ⟨hM g c hp.1, fun r _ => ih r (hp.2 r) _⟩

/-- Such a program adds only such calls to the history. -/
theorem wp_history_of_only {good : Event C R ε → Prop} {allow : List (Event C R ε) → C → Prop}
    (hallow : ∀ g c, P c → allow g c) {p : Prog C R ε α} (hp : Only P p)
    (g : List (Event C R ε)) :
    wp (historyMonitor good allow) p g fun g' _ => ∃ u, g' = g ++ u ∧ ∀ e ∈ u, P e.call := by
  induction p generalizing g with
  | ret a => exact ⟨[], by simp⟩
  | call c k ih =>
    refine ⟨hallow g c hp.1, fun r _ => wp_mono _ (ih r (hp.2 r) _) ?_⟩
    rintro g' a ⟨u, rfl, hu⟩
    refine ⟨⟨c, r⟩ :: u, by simp, fun e he => ?_⟩
    rcases List.mem_cons.mp he with rfl | he
    · exact hp.1
    · exact hu e he

end Only

end Interaction
