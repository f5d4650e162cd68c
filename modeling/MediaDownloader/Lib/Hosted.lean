import MediaDownloader.Lib.Program

/-!
# A program inside another

A program over a small interface, run by a host that has more calls and more
exceptions of its own.  A call of the guest is a call of the host; an exception
the host's call raises is the host's and abandons the guest.

* `wp_hosted`: what is proved of the guest alone holds of it in the host, when
  the two ghost states stay related.
-/

namespace Interaction

variable {C D : Type} {R : C → Type} {S : D → Type} {ε δ α σ τ : Type}

/-- Run `p` in a host: `f` says which call, `g` what its answer means to the guest. -/
def hosted (f : C → D) (g : ∀ c, S (f c) → R c) : Prog C R ε α → Act D S δ α
  | .ret a => pure a
  | .call c k => Act.port (f c) >>= fun r => hosted f g (k (.ok (g c r)))

section

variable {f : C → D} {g : ∀ c, S (f c) → R c}

theorem hosted_call (c : C) (k : Except ε (R c) → Prog C R ε α) :
    (hosted f g (.call c k) : Act D S δ α) =
      Act.port (f c) >>= fun r => hosted f g (k (.ok (g c r))) := rfl

/-- How the ghost state `t` of a guest lies in the ghost state `s` of its host;
`E` is what holds when the host's own exception ends it. -/
structure Hosting (f : C → D) (g : ∀ c, S (f c) → R c) (N : Monitor C R ε τ)
    (M : Monitor D S δ σ) (I : τ → σ → Prop) (E : σ → δ → Prop) : Prop where
  allow : ∀ {t s c}, I t s → N.allow t c → M.allow s (f c)
  assume : ∀ {t s c r}, I t s → M.assume s (f c) (.ok r) → N.assume t c (.ok (g c r))
  next : ∀ {t s c r}, I t s → N.allow t c → I (N.next t c (.ok (g c r))) (M.next s (f c) (.ok r))
  abandon : ∀ {t s c e}, I t s → M.assume s (f c) (.error e) → E (M.next s (f c) (.error e)) e

/-- A guest does in its host what it does alone. -/
theorem wp_hosted {N : Monitor C R ε τ} {M : Monitor D S δ σ} {I : τ → σ → Prop}
    {E : σ → δ → Prop} (h : Hosting f g N M I E) {p : Prog C R ε α} {t : τ} {s : σ}
    {Q : τ → α → Prop} (hI : I t s) (hp : wp N p t Q) :
    wp M (hosted f g p) s fun s' r =>
      match r with
      | .ok a => ∃ t', I t' s' ∧ Q t' a
      | .error e => E s' e := by
  induction p generalizing t s with
  | ret a => exact ⟨t, hI, hp⟩
  | call c k ih =>
    rw [hosted_call, wp_port_bind]
    refine ⟨h.allow hI hp.1, fun r hr => ?_⟩
    cases r with
    | ok r => exact ih _ (h.next hI hp.1) (hp.2 _ (h.assume hI hr))
    | error e => exact h.abandon hI hr

end

end Interaction
