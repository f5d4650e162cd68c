import MediaDownloader.Lib.Program

/-!
# Programs that are safe once something has happened

`SafeGiven good allow K p`: after any history with the answered calls `K` in it,
`p` makes only calls that are allowed.  It goes through sequencing with no
postcondition to find: what a call answers joins `K`.

* `safeGiven_port_bind`, `safeGiven_act_bind`, `safeGiven_attempt`: composition;
* `safeGiven_of_only`: a program of calls that `K` allows;
* `safeGiven_of_start`: a program whose conditions speak of its own calls alone.
-/

namespace Interaction

variable {C : Type} {R : C → Type} {ε α β : Type} {good : Event C R ε → Prop}
  {allow : List (Event C R ε) → C → Prop} {K : List (Event C R ε)}

/-- Safe after every history that has the events `K` in it. -/
def SafeGiven (good : Event C R ε → Prop) (allow : List (Event C R ε) → C → Prop)
    (K : List (Event C R ε)) (p : Prog C R ε α) : Prop :=
  ∀ g, K ⊆ g → wp (historyMonitor good allow) p g fun _ _ => True

theorem SafeGiven.wp_nil {p : Prog C R ε α} (h : SafeGiven good allow [] p) :
    wp (historyMonitor good allow) p [] fun _ _ => True := h [] (List.nil_subset _)

theorem SafeGiven.map {p : Prog C R ε α} (h : SafeGiven good allow K p) (f : α → β) :
    SafeGiven good allow K (p.map f) := fun g hg => (wp_map _ p f g _).mpr (h g hg)

theorem safeGiven_ret (a : α) : SafeGiven good allow K (.ret a) := fun _ _ => trivial

theorem safeGiven_pure (a : α) : SafeGiven good allow K (pure a : Act C R ε α) :=
  fun _ _ => trivial

theorem safeGiven_raise (e : ε) : SafeGiven good allow K (Act.raise e : Act C R ε α) :=
  fun _ _ => trivial

/-- One call: from then on its answer is known. -/
theorem safeGiven_call {c : C} {k : Except ε (R c) → Prog C R ε α}
    (hc : ∀ g, K ⊆ g → allow g c)
    (hk : ∀ r, good ⟨c, r⟩ → SafeGiven good allow (⟨c, r⟩ :: K) (k r)) :
    SafeGiven good allow K (.call c k) := by
  refine fun g hg => ⟨hc g hg, fun r hr => hk r hr _ ?_⟩
  refine List.cons_subset.mpr ⟨List.mem_append_right _ (List.mem_singleton.mpr rfl), ?_⟩
  exact List.Subset.trans hg (List.subset_append_left _ _)

theorem safeGiven_port_bind {c : C} {f : R c → Act C R ε β} (hc : ∀ g, K ⊆ g → allow g c)
    (hf : ∀ a, good ⟨c, .ok a⟩ → SafeGiven good allow (⟨c, .ok a⟩ :: K) (f a)) :
    SafeGiven good allow K (Act.port c >>= f : Act C R ε β) := by
  refine safeGiven_call hc fun r hr => ?_
  cases r with
  | ok a => exact hf a hr
  | error e => exact safeGiven_ret _

/-- A call whose answer is read before it is used. -/
theorem safeGiven_port_lift_bind {c : C} {read : R c → Except ε α} {f : α → Act C R ε β}
    (hc : ∀ g, K ⊆ g → allow g c)
    (hf : ∀ a b, good ⟨c, .ok a⟩ → read a = .ok b → SafeGiven good allow (⟨c, .ok a⟩ :: K) (f b)) :
    SafeGiven good allow K ((Act.port c >>= fun a => Act.lift (read a)) >>= f : Act C R ε β) := by
  intro g hg
  refine (wp_act_bind _ _ _ _ _).mpr ((wp_port_bind _ _ _ _ _).mpr ⟨hc g hg, fun r hr => ?_⟩)
  cases r with
  | error e => trivial
  | ok a =>
    dsimp only
    cases hread : read a with
    | error e => trivial
    | ok b =>
      refine hf a b hr hread _ (List.cons_subset.mpr ⟨by simp, ?_⟩)
      exact List.Subset.trans hg (List.subset_append_left _ _)

/-- A call whose exception is caught. -/
theorem safeGiven_attempt_port_bind {c : C} {f : Except ε (R c) → Act C R ε β}
    (hc : ∀ g, K ⊆ g → allow g c)
    (hf : ∀ r, good ⟨c, r⟩ → SafeGiven good allow (⟨c, r⟩ :: K) (f r)) :
    SafeGiven good allow K (Act.attempt (Act.port c) >>= f : Act C R ε β) :=
  safeGiven_call hc hf

theorem safeGiven_bind {p : Prog C R ε α} {f : α → Prog C R ε β} (hp : SafeGiven good allow K p)
    (hf : ∀ a, SafeGiven good allow K (f a)) : SafeGiven good allow K (p.bind f) := by
  intro g hg
  refine (wp_bind _ p f g _).mpr (wp_mono _ (wp_extends (hp g hg)) ?_)
  exact fun g' a hpre => hf a g' (List.Subset.trans hg hpre.2.subset)

theorem safeGiven_act_bind {p : Act C R ε α} {f : α → Act C R ε β}
    (hp : SafeGiven good allow K p) (hf : ∀ a, SafeGiven good allow K (f a)) :
    SafeGiven good allow K (p >>= f : Act C R ε β) := by
  refine safeGiven_bind hp fun r => ?_
  cases r with
  | ok a => exact hf a
  | error e => exact safeGiven_ret _

/-- After a pure step, the rest matters only for the value it gave. -/
theorem safeGiven_lift_bind {r : Except ε α} {f : α → Act C R ε β}
    (hf : ∀ a, r = .ok a → SafeGiven good allow K (f a)) :
    SafeGiven good allow K (Act.lift r >>= f : Act C R ε β) := by
  cases r with
  | ok a => exact hf a rfl
  | error e => exact safeGiven_ret _

theorem safeGiven_attempt {p : Act C R ε α} (hp : SafeGiven good allow K p) :
    SafeGiven good allow K (Act.attempt p) := safeGiven_bind hp fun _ => safeGiven_ret _

theorem safeGiven_each {f : β → Act C R ε Unit} {bs : List β}
    (hf : ∀ b ∈ bs, SafeGiven good allow K (f b)) : SafeGiven good allow K (Act.each f bs) := by
  induction bs with
  | nil => exact safeGiven_pure ()
  | cons b bs ih =>
    exact safeGiven_act_bind (hf b List.mem_cons_self)
      fun _ => ih fun b' hb' => hf b' (List.mem_cons_of_mem _ hb')

/-- A program of calls that are allowed once `K` has happened. -/
theorem safeGiven_of_only {P : C → Prop} (hP : ∀ g c, K ⊆ g → P c → allow g c) {p : Prog C R ε α}
    (hp : Only P p) : SafeGiven good allow K p := by
  intro g hg
  induction p generalizing g with
  | ret a => trivial
  | call c k ih =>
    refine ⟨hP g c hg hp.1, fun r _ => ih r (hp.2 r) _ ?_⟩
    exact List.Subset.trans hg (List.subset_append_left _ _)

/-- What is safe from the start is safe after any history that it may extend. -/
theorem safeGiven_of_start {own : List (Event C R ε) → C → Prop}
    (hown : ∀ g u c, K ⊆ g → own u c → allow (g ++ u) c) {p : Prog C R ε α}
    (hp : wp (historyMonitor good own) p [] fun _ _ => True) : SafeGiven good allow K p := by
  intro g hg
  have hframe := wp_frame (fun u c => hown g u c hg) hp
  rw [List.append_nil] at hframe
  exact wp_mono _ hframe fun _ _ _ => trivial

end Interaction
