import MediaDownloader.Infrastructure.PreviewRunner

/-!
# The preview is collected

What the parent of a preview returns, from how late each of its phases can be
after the item became readable and after the child exited.

* `ParentIdle`: what put, flush, exit and the clock leave alone;
* `CollectInv.step`: each phase keeps its bounds;
* `collect_enabled`: the parent never waits for ever;
* `preview_collected`: so it ends with what happened, and no child is left;
* `preview_not_collected_as_claimed`: an exit just before the deadline is reported
  after it, and an item that lands at the deadline can still be returned.
-/

namespace MediaDownloader

open Interaction Relation

variable {t : Timing} {m : Option (Message PreviewItem)} {s s' : CollectState}

/-! ## What holds in each phase -/

/-- `a` is at most `k` later than `event`, where that has happened. -/
def Within (event : Option Int) (a k : Int) : Prop := ∀ x, event = some x → a ≤ x + k

/-- An event of now leaves a bound alone that now itself meets. -/
theorem Within.of_now {event event' : Option Int} {a k now : Int} (h : Within event a k)
    (he : ∀ x, event' = some x → event = some x ∨ x = now) (hnow : a ≤ now + k) :
    Within event' a k := by
  intro x hx
  rcases he x hx with hold | rfl
  · exact h x hold
  · exact hnow

theorem Within.mono {event : Option Int} {a a' k k' : Int} (h : Within event a k)
    (hle : a' + k ≤ a + k') : Within event a' k' := by
  intro x hx
  have := h x hx
  omega

/-- The parent has read nothing: all the child has put is in the channel, and a
dead child has exited by itself. -/
structure Unread (m : Option (Message PreviewItem)) (s : CollectState) : Prop where
  own : s.alive = false → ∃ x, s.exitedAt = some x
  bytes : (s.channel.bytes = [] ∧ s.readableAt = none ∧ (s.pending = none ∨ s.pending = m)) ∨
    ∃ msg, m = some msg ∧ s.pending = none ∧ s.channel.bytes = msg.frame ∧
      (s.channel.pipe = [] ↔ s.readableAt = none)

/-- The parent is inside the one message. -/
structure Reading (m : Option (Message PreviewItem)) (s : CollectState) : Prop where
  own : s.alive = false → ∃ x, s.exitedAt = some x
  pending : s.pending = none
  bytes : ∃ msg n, m = some msg ∧ s.channel.bytes = List.replicate n none ++ [some msg.item]

/-- The item is the child's, and was readable in time. -/
def Fetched (t : Timing) (m : Option (Message PreviewItem)) (s : CollectState)
    (item : PreviewItem) : Prop :=
  (∃ msg, m = some msg ∧ item = msg.item) ∧
    ∃ r, s.readableAt = some r ∧ r ≤ t.deadline + 2 * t.slack

/-- The deadline has passed, and neither item nor exit came before it. -/
structure TimedOut (t : Timing) (s : CollectState) : Prop where
  passed : t.deadline ≤ s.now
  readable : Within s.readableAt t.deadline (3 * t.slack)
  exited : Within s.exitedAt t.deadline t.slack

/-- What the parent takes into `_stop_process`. -/
def Stopping (t : Timing) (m : Option (Message PreviewItem)) (s : CollectState)
    (outcome : Except Exc PreviewItem) : Prop :=
  (∃ item, outcome = .ok item ∧ Fetched t m s item) ∨
    (outcome = .error .previewTimeout ∧ TimedOut t s)

/-- The child has exited in time. -/
def Exited (t : Timing) (s : CollectState) : Prop :=
  s.alive = false ∧ ∃ x, s.exitedAt = some x ∧ x ≤ t.deadline + 2 * t.slack

/-- What holds in each phase; `due` is what bounds the next one. -/
def PhaseInv (t : Timing) (m : Option (Message PreviewItem)) (s : CollectState) :
    CollectPhase → Prop
  | .loop => Unread m s ∧ s.due ≤ s.now + t.slack ∧ Within s.readableAt s.due (3 * t.slack) ∧
      Within s.exitedAt s.due t.slack
  | .polling u => Unread m s ∧ s.due = u + t.slack ∧ u ≤ t.deadline ∧ u ≤ s.now + 500000 ∧
      Within s.exitedAt u (500000 + t.slack)
  | .empty => Unread m s ∧ s.due ≤ s.now + t.slack ∧ s.due ≤ t.deadline + 2 * t.slack ∧
      Within s.readableAt s.due (2 * t.slack) ∧ Within s.exitedAt s.due (500000 + 3 * t.slack)
  | .lastPoll u => Unread m s ∧ Exited t s ∧ s.due = u + t.slack ∧
      Within s.exitedAt u (600000 + 3 * t.slack) ∧
      ∀ r, s.readableAt = some r → r < u ∧ r ≤ t.deadline + 2 * t.slack
  | .reaping => Exited t s ∧ s.readableAt = none ∧
      Within s.exitedAt s.due (600000 + 5 * t.slack)
  | .receiving => Reading m s ∧ ∃ r, s.readableAt = some r ∧ r ≤ t.deadline + 2 * t.slack
  | .joining item u => Fetched t m s item ∧ u ≤ s.due
  | .checking item => Fetched t m s item
  | .stopping outcome => Stopping t m s outcome
  | .waiting outcome u => Stopping t m s outcome ∧ u ≤ s.due
  | .rechecking outcome => Stopping t m s outcome
  | .ended outcome => s.alive = false ∧ (Stopping t m s outcome ∨
      (outcome = .error (previewCrashed s.exitCode) ∧ Exited t s ∧ s.readableAt = none ∧
        Within s.exitedAt s.now (600000 + 5 * t.slack)))

structure CollectInv (t : Timing) (m : Option (Message PreviewItem)) (s : CollectState) :
    Prop where
  now_le : s.now ≤ s.due
  readable : ∀ r, s.readableAt = some r → r ≤ s.now
  exited : ∀ x, s.exitedAt = some x → x ≤ s.now ∧ s.alive = false ∧ s.channel.feeder = []
  phase : PhaseInv t m s s.parent

theorem CollectInv.start : CollectInv t m (.start t m) where
  now_le := t.slack_nonneg
  readable := by simp [CollectState.start]
  exited := by simp [CollectState.start]
  phase := by
    refine ⟨⟨by simp [CollectState.start], .inl ⟨rfl, rfl, .inr rfl⟩⟩, ?_, ?_, ?_⟩ <;>
      simp [CollectState.start, Within]

/-! ## The child and the clock -/

/-- What a step of the child or of the clock leaves alone; once the child is dead,
all but the clock. -/
structure ParentIdle (s s' : CollectState) : Prop where
  parent : s'.parent = s.parent
  due : s'.due = s.due
  now_le : s.now ≤ s'.now
  readable : ∀ r, s'.readableAt = some r → s.readableAt = some r ∨ r = s.now
  kept : ∀ r, s.readableAt = some r → s'.readableAt = some r
  exited : ∀ x, s'.exitedAt = some x → s.exitedAt = some x ∨ x = s.now
  dead : s.alive = false → s' = { s with now := s'.now }

section ParentIdle

theorem Fetched.idle {item : PreviewItem} (h : Fetched t m s item)
    (hs : ParentIdle s s') : Fetched t m s' item := by
  obtain ⟨hm, r, hr, hle⟩ := h
  exact ⟨hm, r, hs.kept r hr, hle⟩

theorem TimedOut.idle (h : TimedOut t s) (hs : ParentIdle s s') : TimedOut t s' where
  passed := h.passed.trans hs.now_le
  readable := h.readable.of_now hs.readable (by have := h.passed; have := t.slack_nonneg; omega)
  exited := h.exited.of_now hs.exited (by have := h.passed; have := t.slack_nonneg; omega)

theorem Stopping.idle {outcome : Except Exc PreviewItem} (h : Stopping t m s outcome)
    (hs : ParentIdle s s') : Stopping t m s' outcome := by
  rcases h with ⟨item, he, hf⟩ | ⟨he, ht⟩
  · exact .inl ⟨item, he, hf.idle hs⟩
  · exact .inr ⟨he, ht.idle hs⟩

theorem Exited.idle (h : Exited t s) (hs : ParentIdle s s') : Exited t s' := by
  rw [hs.dead h.1]
  exact h

/-- The child and the clock keep what holds in a phase, if they keep the channel. -/
theorem PhaseInv.idle (h : PhaseInv t m s s.parent) (hnow : s.now ≤ s.due)
    (hs : ParentIdle s s') (hu : Unread m s → Unread m s') (hr : Reading m s → Reading m s')
    (hend : ∀ outcome, s.parent = .ended outcome → s'.now = s.now) :
    PhaseInv t m s' s'.parent := by
  have hδ := t.slack_nonneg
  have hclock := hs.now_le
  rw [hs.parent]
  cases hp : s.parent with
  | loop =>
    simp only [PhaseInv, hp, hs.due] at h ⊢
    obtain ⟨hun, hdue, hread, hexit⟩ := h
    exact ⟨hu hun, by omega, hread.of_now hs.readable (by omega),
      hexit.of_now hs.exited (by omega)⟩
  | polling u =>
    simp only [PhaseInv, hp, hs.due] at h ⊢
    obtain ⟨hun, hdue, hdl, hlen, hexit⟩ := h
    exact ⟨hu hun, hdue, hdl, by omega, hexit.of_now hs.exited (by omega)⟩
  | empty =>
    simp only [PhaseInv, hp, hs.due] at h ⊢
    obtain ⟨hun, hdue, hdl, hread, hexit⟩ := h
    exact ⟨hu hun, by omega, hdl, hread.of_now hs.readable (by omega),
      hexit.of_now hs.exited (by omega)⟩
  | lastPoll u =>
    simp only [PhaseInv, hp, hs.due] at h ⊢
    obtain ⟨hun, hex, hdue, hexit, hread⟩ := h
    have hdead := hs.dead hex.1
    rw [hdead] at hu ⊢
    exact ⟨hu hun, hex, hdue, hexit, hread⟩
  | reaping =>
    simp only [PhaseInv, hp, hs.due] at h ⊢
    obtain ⟨hex, hread, hexit⟩ := h
    rw [hs.dead hex.1]
    exact ⟨hex, hread, hexit⟩
  | receiving =>
    rw [hp] at h
    obtain ⟨hrd, r, hread, hle⟩ := h
    exact ⟨hr hrd, r, hs.kept r hread, hle⟩
  | joining item u =>
    simp only [PhaseInv, hp, hs.due] at h ⊢
    exact ⟨h.1.idle hs, h.2⟩
  | checking item =>
    rw [hp] at h
    exact Fetched.idle h hs
  | stopping outcome | rechecking outcome =>
    rw [hp] at h
    exact Stopping.idle h hs
  | waiting outcome u =>
    simp only [PhaseInv, hp, hs.due] at h ⊢
    exact ⟨h.1.idle hs, h.2⟩
  | ended outcome =>
    rw [hp] at h
    obtain ⟨hdead, h⟩ := h
    rw [hs.dead hdead, hend outcome hp]
    exact ⟨hdead, h⟩

end ParentIdle

namespace CollectInv

theorem put {msg : Message PreviewItem} (h : CollectInv t m s) (ha : s.alive = true)
    (hm : s.pending = some msg) :
    CollectInv t m { s with pending := none, channel := s.channel.put msg } where
  now_le := h.now_le
  readable := h.readable
  exited x hx := absurd (h.exited x hx).2.1 (by simp [ha])
  phase := by
    refine h.phase.idle h.now_le ⟨rfl, rfl, le_rfl, fun _ => .inl, fun _ => id, fun _ => .inl,
      by simp [ha]⟩ (fun hu => ⟨by simp [ha], ?_⟩) (fun hr => ?_) (fun _ _ => rfl)
    · rcases hu.bytes with ⟨hb, hread, hp⟩ | ⟨_, _, hp, _⟩
      · have hm' : m = some msg := (hp.resolve_left (by simp [hm])).symm.trans hm
        have hpipe : s.channel.pipe = [] := (List.append_eq_nil_iff.mp hb).1
        refine .inr ⟨msg, hm', rfl, ?_, ?_⟩
        · rw [Channel.bytes_put, hb, List.nil_append]
        · simp [Channel.put, hpipe, hread]
      · simp [hm] at hp
    · have := hr.pending
      simp [hm] at this

theorem flush {b : Option PreviewItem} {rest : List (Option PreviewItem)}
    (h : CollectInv t m s) (ha : s.alive = true) (hf : s.channel.feeder = b :: rest) :
    CollectInv t m { s with
      channel := ⟨rest, s.channel.pipe ++ [b]⟩
      readableAt := s.readableAt.or (some s.now) } where
  now_le := h.now_le
  readable r hr := by
    cases hread : s.readableAt with
    | none => simp_all
    | some r' => exact h.readable r (by simp_all)
  exited x hx := absurd (h.exited x hx).2.1 (by simp [ha])
  phase := by
    refine h.phase.idle h.now_le ⟨rfl, rfl, le_rfl, ?_, ?_, fun _ => .inl, by simp [ha]⟩
      (fun hu => ⟨by simp [ha], ?_⟩)
      (fun hr => ⟨by simp [ha], hr.pending, ?_⟩) (fun _ _ => rfl)
    · intro r hr
      cases hread : s.readableAt <;> simp_all
    · intro r hr
      simp [hr]
    · rcases hu.bytes with ⟨hb, _⟩ | ⟨msg, hm, hp, hb, _⟩
      · simp [Channel.bytes, hf] at hb
      · refine .inr ⟨msg, hm, hp, (Channel.bytes_flush hf).trans hb, ?_⟩
        simp
    · rw [Channel.bytes_flush hf]
      exact hr.bytes

theorem exit (code : Int) (h : CollectInv t m s) (ha : s.alive = true)
    (hf : s.channel.feeder = []) :
    CollectInv t m { s with
      alive := false, exitCode := code, pending := none, exitedAt := some s.now } where
  now_le := h.now_le
  readable := h.readable
  exited x hx := by
    obtain rfl : s.now = x := by simpa using hx
    exact ⟨le_rfl, rfl, hf⟩
  phase := by
    refine h.phase.idle h.now_le ⟨rfl, rfl, le_rfl, fun _ => .inl, fun _ => id, ?_,
      by simp [ha]⟩ (fun hu => ⟨fun _ => ⟨s.now, rfl⟩, ?_⟩)
      (fun hr => ⟨fun _ => ⟨s.now, rfl⟩, rfl, hr.bytes⟩) (fun _ _ => rfl)
    · intro x hx
      exact .inr (by simpa using hx.symm)
    · rcases hu.bytes with ⟨hb, hread, _⟩ | ⟨msg, hm, _, hb⟩
      · exact .inl ⟨hb, hread, .inl rfl⟩
      · exact .inr ⟨msg, hm, rfl, hb⟩

theorem obey {outcome : Except Exc PreviewItem} {u : Int} (h : CollectInv t m s)
    (hp : s.parent = .waiting outcome u) (ha : s.alive = true) :
    CollectInv t m { s with alive := false } where
  now_le := h.now_le
  readable := h.readable
  exited x hx := absurd (h.exited x hx).2.1 (by simp [ha])
  phase := by
    obtain ⟨hstop, hu⟩ : PhaseInv t m s (.waiting outcome u) := hp ▸ h.phase
    rw [show ({ s with alive := false } : CollectState).parent = .waiting outcome u from hp]
    exact ⟨hstop.idle ⟨hp.symm, rfl, le_rfl, fun _ => .inl, fun _ => id, fun _ => .inl,
      by simp [ha]⟩, hu⟩

theorem tick {now : Int} (h : CollectInv t m s) (hlt : s.now < now) (hdue : now ≤ s.due)
    (hp : ∀ outcome, s.parent ≠ .ended outcome) : CollectInv t m { s with now := now } where
  now_le := hdue
  readable r hr := (h.readable r hr).trans hlt.le
  exited x hx := ⟨(h.exited x hx).1.trans hlt.le, (h.exited x hx).2⟩
  phase := h.phase.idle h.now_le ⟨rfl, rfl, hlt.le, fun _ => .inl, fun _ => id, fun _ => .inl,
    fun _ => rfl⟩ (fun hu => ⟨hu.own, hu.bytes⟩) (fun hr => ⟨hr.own, hr.pending, hr.bytes⟩)
    (fun outcome he => absurd he (hp outcome))

end CollectInv

/-! ## The parent -/

/-- Unread bytes make a message that the parent is now inside of. -/
theorem Unread.reading (h : Unread m s) (hp : s.channel.pipe ≠ []) :
    Reading m s ∧ ∃ r, s.readableAt = some r := by
  rcases h.bytes with ⟨hb, _⟩ | ⟨msg, hm, hpend, hb, hiff⟩
  · exact absurd (List.append_eq_nil_iff.mp hb).1 hp
  · exact ⟨⟨h.own, hpend, msg, _, hm, hb⟩, Option.ne_none_iff_exists'.mp (hiff.not.mp hp)⟩

theorem Unread.goto {phase : CollectPhase} {u : Int} (h : Unread m s) :
    Unread m (s.goto t phase u) :=
  ⟨h.own, h.bytes⟩

theorem Reading.goto {phase : CollectPhase} {u : Int} (h : Reading m s) :
    Reading m (s.goto t phase u) :=
  ⟨h.own, h.pending, h.bytes⟩

/-- A byte that completes nothing leaves the rest of the message. -/
theorem Reading.byte {rest : List (Option PreviewItem)} (h : Reading m s)
    (hp : s.channel.pipe = none :: rest) :
    Reading m { s with channel := ⟨s.channel.feeder, rest⟩ } := by
  obtain ⟨msg, n, hm, hb⟩ := h.bytes
  rw [Channel.bytes, hp] at hb
  cases n with
  | zero => simp at hb
  | succ n => exact ⟨h.own, h.pending, msg, n, hm, (List.cons.inj hb).2⟩

/-- The byte that completes an item is the last one of the child's message. -/
theorem Reading.item {item : PreviewItem} {rest : List (Option PreviewItem)} (h : Reading m s)
    (hp : s.channel.pipe = some item :: rest) : ∃ msg, m = some msg ∧ item = msg.item := by
  obtain ⟨msg, n, hm, hb⟩ := h.bytes
  rw [Channel.bytes, hp] at hb
  cases n with
  | zero => exact ⟨msg, hm, by simpa using (List.cons.inj hb).1⟩
  | succ n => simp [List.replicate_succ] at hb

theorem Stopping.goto {phase : CollectPhase} {u : Int} {alive : Bool}
    {outcome : Except Exc PreviewItem} (h : Stopping t m s outcome) :
    Stopping t m ({ s with alive := alive }.goto t phase u) outcome :=
  h.imp id fun ⟨he, ht⟩ => ⟨he, ht.passed, ht.readable, ht.exited⟩

namespace CollectInv

theorem goto {phase : CollectPhase} {u : Int} (h : CollectInv t m s) (hu : s.now ≤ u)
    (hp : PhaseInv t m (s.goto t phase u) phase) : CollectInv t m (s.goto t phase u) where
  now_le := hu.trans (Int.le_add_of_nonneg_right t.slack_nonneg)
  readable := h.readable
  exited := h.exited
  phase := hp

theorem poll (h : CollectInv t m s) (hp : s.parent = .loop) (hnow : s.now < t.deadline) :
    CollectInv t m (s.goto t (.polling (min (s.now + 500000) t.deadline))
      (min (s.now + 500000) t.deadline)) := by
  obtain ⟨hun, _, _, hexit⟩ : PhaseInv t m s .loop := hp ▸ h.phase
  have hle := h.now_le
  refine h.goto (by omega) ⟨hun.goto, rfl, min_le_right _ _, min_le_left _ _, ?_⟩
  exact hexit.mono (by omega)

theorem timeout (h : CollectInv t m s) (hp : s.parent = .loop) (hnow : t.deadline ≤ s.now) :
    CollectInv t m (s.goto t (.stopping (.error .previewTimeout)) s.now) := by
  obtain ⟨_, _, hread, hexit⟩ : PhaseInv t m s .loop := hp ▸ h.phase
  have hle := h.now_le
  exact h.goto le_rfl (.inr ⟨rfl, hnow, hread.mono (by omega), hexit.mono (by omega)⟩)

theorem ready {u : Int} (h : CollectInv t m s)
    (hp : s.parent = .polling u ∨ s.parent = .lastPoll u) (hpipe : s.channel.pipe ≠ []) :
    CollectInv t m (s.goto t .receiving s.now) := by
  have hle := h.now_le
  have hδ := t.slack_nonneg
  rcases hp with hp | hp
  · obtain ⟨hun, hdue, hdl, _⟩ : PhaseInv t m s (.polling u) := hp ▸ h.phase
    obtain ⟨hr, r, hread⟩ := hun.reading hpipe
    have := h.readable r hread
    exact h.goto le_rfl ⟨hr.goto, r, hread, by omega⟩
  · obtain ⟨hun, _, _, _, hlast⟩ : PhaseInv t m s (.lastPoll u) := hp ▸ h.phase
    obtain ⟨hr, r, hread⟩ := hun.reading hpipe
    exact h.goto le_rfl ⟨hr.goto, r, hread, (hlast r hread).2⟩

theorem nothing {u : Int} (h : CollectInv t m s) (hp : s.parent = .polling u)
    (hnb : s.NothingBefore u) : CollectInv t m (s.goto t .empty s.now) := by
  obtain ⟨hun, hdue, hdl, _, hexit⟩ : PhaseInv t m s (.polling u) := hp ▸ h.phase
  have hle := h.now_le
  have hread : Within s.readableAt u 0 := fun r hr => by simpa using hnb r hr
  have hlate : s.now ≤ u + t.slack := hdue ▸ hle
  refine h.goto le_rfl ⟨hun.goto, le_rfl, ?_, ?_, ?_⟩
  · simp only [CollectState.goto]
    omega
  · exact hread.mono (by simp only [CollectState.goto]; omega)
  · exact hexit.mono (by simp only [CollectState.goto]; omega)

theorem again (h : CollectInv t m s) (hp : s.parent = .empty) (ha : s.alive = true) :
    CollectInv t m (s.goto t .loop s.now) := by
  obtain ⟨hun, _, _, hread, _⟩ : PhaseInv t m s .empty := hp ▸ h.phase
  have hle := h.now_le
  refine h.goto le_rfl ⟨hun.goto, le_rfl, ?_, ?_⟩
  · exact hread.mono (by simp only [CollectState.goto]; omega)
  · intro x hx
    exact absurd (h.exited x hx).2.1 (by simp [ha])

theorem lastChance (h : CollectInv t m s) (hp : s.parent = .empty) (ha : s.alive = false) :
    CollectInv t m (s.goto t (.lastPoll (s.now + 100000)) (s.now + 100000)) := by
  obtain ⟨hun, _, hdl, _, hexit⟩ : PhaseInv t m s .empty := hp ▸ h.phase
  have hle := h.now_le
  obtain ⟨x, hx⟩ := hun.own ha
  have hxnow := (h.exited x hx).1
  refine h.goto (by omega) ⟨hun.goto, ⟨ha, x, hx, by omega⟩, rfl, hexit.mono (by omega), ?_⟩
  intro r hr
  have := h.readable r hr
  constructor <;> omega

theorem nothingAtLast {u : Int} (h : CollectInv t m s) (hp : s.parent = .lastPoll u)
    (hnb : s.NothingBefore u) : CollectInv t m (s.goto t .reaping s.now) := by
  obtain ⟨_, hex, hdue, hexit, hread⟩ : PhaseInv t m s (.lastPoll u) := hp ▸ h.phase
  have hle := h.now_le
  refine h.goto le_rfl ⟨hex, ?_, hexit.mono (by simp only [CollectState.goto]; omega)⟩
  -- what was readable at all was so before this poll ended
  cases hr : s.readableAt with
  | none => exact hr
  | some r => exact absurd (hnb r hr) (not_le.mpr (hread r hr).1)

theorem reap (h : CollectInv t m s) (hp : s.parent = .reaping) :
    CollectInv t m (s.goto t (.ended (.error (previewCrashed s.exitCode))) s.now) := by
  obtain ⟨hex, hread, hexit⟩ : PhaseInv t m s .reaping := hp ▸ h.phase
  have hle := h.now_le
  exact h.goto le_rfl ⟨hex.1, .inr ⟨rfl, hex, hread, hexit.mono (Int.add_le_add_right hle _)⟩⟩

theorem read {rest : List (Option PreviewItem)} (h : CollectInv t m s)
    (hp : s.parent = .receiving) (hpipe : s.channel.pipe = none :: rest) :
    CollectInv t m
      ({ s with channel := ⟨s.channel.feeder, rest⟩ }.goto t .receiving s.now) where
  now_le := Int.le_add_of_nonneg_right t.slack_nonneg
  readable := h.readable
  exited := h.exited
  phase := by
    obtain ⟨hr, hread⟩ : PhaseInv t m s .receiving := hp ▸ h.phase
    exact ⟨(hr.byte hpipe).goto, hread⟩

theorem got {item : PreviewItem} {rest : List (Option PreviewItem)} (h : CollectInv t m s)
    (hp : s.parent = .receiving) (hpipe : s.channel.pipe = some item :: rest) :
    CollectInv t m (s.goto t (.joining item (s.now + 5000000)) (s.now + 5000000)) := by
  obtain ⟨hr, hread⟩ : PhaseInv t m s .receiving := hp ▸ h.phase
  exact h.goto (by omega) ⟨⟨hr.item hpipe, hread⟩,
    Int.le_add_of_nonneg_right t.slack_nonneg⟩

theorem step (h : CollectInv t m s) (hs : CollectStep t s s') : CollectInv t m s' := by
  have hph := h.phase
  cases hs with
  | poll hp hnow => exact h.poll hp hnow
  | timeout hp hnow => exact h.timeout hp hnow
  | ready hp hpipe => exact h.ready hp hpipe
  | nothing hp _ hnb => exact h.nothing hp hnb
  | again hp ha => exact h.again hp ha
  | exited hp ha => exact h.lastChance hp ha
  | nothingAtLast hp _ hnb => exact h.nothingAtLast hp hnb
  | reap hp _ => exact h.reap hp
  | read hp hpipe => exact h.read hp hpipe
  | got hp hpipe => exact h.got hp hpipe
  | joined hp _ =>
    rw [hp] at hph
    exact h.goto le_rfl hph.1
  | returned hp ha =>
    rw [hp] at hph
    exact h.goto le_rfl ⟨ha, .inl (.inl ⟨_, rfl, hph⟩)⟩
  | stop hp _ =>
    rw [hp] at hph
    exact h.goto le_rfl (.inl ⟨_, rfl, hph⟩)
  | terminate hp =>
    rw [hp] at hph
    exact h.goto (by omega) ⟨Stopping.goto hph, Int.le_add_of_nonneg_right t.slack_nonneg⟩
  | waited hp _ =>
    rw [hp] at hph
    exact h.goto le_rfl hph.1.goto
  | stopped hp ha =>
    rw [hp] at hph
    exact h.goto le_rfl ⟨ha, .inl (Stopping.goto hph)⟩
  | kill hp ha =>
    rw [hp] at hph
    exact {
      now_le := Int.le_add_of_nonneg_right t.slack_nonneg
      readable := h.readable
      exited := fun x hx => absurd (h.exited x hx).2.1 (by simp [ha])
      phase := ⟨rfl, .inl (Stopping.goto hph)⟩ }
  | put ha hm => exact h.put ha hm
  | flush ha hf _ => exact h.flush ha hf
  | exit code ha hf => exact h.exit code ha hf
  | obey hp ha => exact h.obey hp ha
  | tick now hlt hdue hp => exact h.tick hlt hdue hp

theorem of_reachable (h : ReflTransGen (CollectStep t) (.start t m) s) : CollectInv t m s := by
  induction h with
  | refl => exact .start
  | tail _ hs ih => exact ih.step hs

end CollectInv

/-! ## The end -/

/-- A poll without a message ends at its time. -/
theorem nothingBefore_of_unread {u : Int} (hu : Unread m s) (hpipe : s.channel.pipe = []) :
    s.NothingBefore u := by
  intro r hr
  rcases hu.bytes with ⟨_, hread, _⟩ | ⟨_, _, _, _, hiff⟩
  · simp [hread] at hr
  · simp [hiff.mp hpipe] at hr

/-- A time not beyond `due` has come or can be waited for. -/
theorem wait_enabled {u : Int} (hp : ∀ outcome, s.parent ≠ .ended outcome) (hle : u ≤ s.due)
    (hstep : u ≤ s.now → ∃ s', CollectStep t s s') : ∃ s', CollectStep t s s' := by
  rcases le_or_gt u s.now with hge | hlt
  · exact hstep hge
  · exact ⟨_, .tick u hlt hle hp⟩

/-- Inside a message there is a byte to read, or one with the feeder, and then the
child is alive. -/
theorem receiving_enabled (h : CollectInv t m s) (hp : s.parent = .receiving) :
    ∃ s', CollectStep t s s' := by
  obtain ⟨hrd, -⟩ : PhaseInv t m s .receiving := hp ▸ h.phase
  cases hpipe : s.channel.pipe with
  | cons b rest =>
    cases b with
    | none => exact ⟨_, .read hp hpipe⟩
    | some item => exact ⟨_, .got hp hpipe⟩
  | nil =>
    obtain ⟨msg, n, _, hb⟩ := hrd.bytes
    rw [Channel.bytes, hpipe, List.nil_append] at hb
    cases hf : s.channel.feeder with
    | nil => simp [hf] at hb
    | cons b rest =>
      have ha : s.alive = true := by
        by_contra ha
        obtain ⟨x, hx⟩ := hrd.own (by simpa using ha)
        have := (h.exited x hx).2.2
        simp [hf] at this
      exact ⟨_, .flush ha hf (by simpa [hpipe] using t.capacity_pos)⟩

/-- A parent that has not ended is not stuck: it has a move, or the child has the
byte it waits for, or time passes. -/
theorem collect_enabled (h : CollectInv t m s) (hp : ∀ outcome, s.parent ≠ .ended outcome) :
    ∃ s', CollectStep t s s' := by
  have hph := h.phase
  have hδ := t.slack_nonneg
  cases hpar : s.parent with
  | loop =>
    rcases lt_or_ge s.now t.deadline with hlt | hge
    · exact ⟨_, .poll hpar hlt⟩
    · exact ⟨_, .timeout hpar hge⟩
  | polling u =>
    rw [hpar] at hph
    obtain ⟨hun, hdue, _⟩ := hph
    by_cases hpipe : s.channel.pipe = []
    · exact wait_enabled hp (by omega)
        fun hle => ⟨_, .nothing hpar hle (nothingBefore_of_unread hun hpipe)⟩
    · exact ⟨_, .ready (.inl hpar) hpipe⟩
  | receiving => exact receiving_enabled h hpar
  | empty =>
    cases ha : s.alive with
    | true => exact ⟨_, .again hpar ha⟩
    | false => exact ⟨_, .exited hpar ha⟩
  | lastPoll u =>
    rw [hpar] at hph
    obtain ⟨hun, _, hdue, _⟩ := hph
    by_cases hpipe : s.channel.pipe = []
    · exact wait_enabled hp (by omega)
        fun hle => ⟨_, .nothingAtLast hpar hle (nothingBefore_of_unread hun hpipe)⟩
    · exact ⟨_, .ready (.inr hpar) hpipe⟩
  | reaping =>
    rw [hpar] at hph
    exact ⟨_, .reap hpar hph.1.1⟩
  | joining item u =>
    rw [hpar] at hph
    exact wait_enabled hp hph.2 fun hle => ⟨_, .joined hpar (.inr hle)⟩
  | checking item =>
    cases ha : s.alive with
    | true => exact ⟨_, .stop hpar ha⟩
    | false => exact ⟨_, .returned hpar ha⟩
  | stopping outcome => exact ⟨_, .terminate hpar⟩
  | waiting outcome u =>
    rw [hpar] at hph
    exact wait_enabled hp hph.2 fun hle => ⟨_, .waited hpar (.inr hle)⟩
  | rechecking outcome =>
    cases ha : s.alive with
    | true => exact ⟨_, .kill hpar ha⟩
    | false => exact ⟨_, .stopped hpar ha⟩
  | ended outcome => exact absurd hpar (hp outcome)

/-- What happened decides the outcome, as far as the parent's own steps are quick:
`3` of them can come between an item and the deadline, `2` pass after it. -/
structure Collected (t : Timing) (m : Option (Message PreviewItem)) (s : CollectState)
    (outcome : Except Exc PreviewItem) : Prop where
  dead : s.alive = false
  cases : (∃ msg, m = some msg ∧ outcome = .ok msg.item ∧ ∃ r, s.readableAt = some r) ∨
    (outcome = .error (previewCrashed s.exitCode) ∧ s.readableAt = none ∧
      ∃ x, s.exitedAt = some x) ∨ outcome = .error .previewTimeout
  item : ∀ r, s.readableAt = some r → r + 3 * t.slack < t.deadline →
    ∃ msg, m = some msg ∧ outcome = .ok msg.item
  crashed : ∀ x, s.exitedAt = some x → s.readableAt = none → x + t.slack < t.deadline →
    outcome = .error (previewCrashed s.exitCode) ∧ s.now ≤ x + (600000 + 5 * t.slack)
  timedOut : (∀ r, s.readableAt = some r → t.deadline + 2 * t.slack < r) →
    (∀ x, s.exitedAt = some x → t.deadline + 2 * t.slack < x) →
    outcome = .error .previewTimeout

theorem CollectInv.collected {outcome : Except Exc PreviewItem} (h : CollectInv t m s)
    (hp : s.parent = .ended outcome) : Collected t m s outcome := by
  have hph := h.phase
  rw [hp] at hph
  obtain ⟨hdead, (⟨item, rfl, ⟨msg, hm, rfl⟩, r, hr, hle⟩ | ⟨rfl, ht⟩) |
    ⟨rfl, ⟨_, x, hx, hle⟩, hread, hexit⟩⟩ := hph
  · exact {
      dead := hdead
      cases := .inl ⟨msg, hm, rfl, r, hr⟩
      item := fun _ _ _ => ⟨msg, hm, rfl⟩
      crashed := fun _ _ hn => by simp [hr] at hn
      timedOut := fun hlate _ => absurd (hlate r hr) (not_lt.mpr hle) }
  · exact {
      dead := hdead
      cases := .inr (.inr rfl)
      item := fun r hr hlt => absurd (ht.readable r hr) (not_le.mpr hlt)
      crashed := fun x hx _ hlt => absurd (ht.exited x hx) (not_le.mpr hlt)
      timedOut := fun _ _ => rfl }
  · exact {
      dead := hdead
      cases := .inr (.inl ⟨rfl, hread, x, hx⟩)
      item := fun r hr _ => by simp [hread] at hr
      crashed := fun x' hx' _ _ => ⟨rfl, hexit x' hx'⟩
      timedOut := fun _ hlate => absurd (hlate x hx) (not_lt.mpr hle) }

/-- Every schedule of child, parent and clock ends, the parent having returned or
raised what happened, with no child left. -/
theorem preview_collected (t : Timing) (m : Option (Message PreviewItem)) :
    Acc (fun s' s => CollectStep t s s') (.start t m) ∧
      ∀ s, ReflTransGen (CollectStep t) (.start t m) s →
        ((∀ s', ¬ CollectStep t s s') → ∃ outcome, s.parent = .ended outcome) ∧
        ∀ outcome, s.parent = .ended outcome → Collected t m s outcome := by
  refine ⟨collect_acc t _, fun s hs => ⟨fun hstuck => ?_, fun outcome => ?_⟩⟩
  · by_contra hne
    obtain ⟨s', hstep⟩ := collect_enabled (.of_reachable hs) (fun o ho => hne ⟨o, ho⟩)
    exact hstuck s' hstep
  · exact (CollectInv.of_reachable hs).collected

theorem nothingBefore_of_none (h : s.readableAt = none) (u : Int) : s.NothingBefore u := by
  simp [CollectState.NothingBefore, h]

/-! ## The sharp deadline -/

/-- What the parent returns if the deadline decides alone: the item when it was
readable before it, a crash as soon as there is one, and else a timeout. -/
structure CollectedSharply (t : Timing) (m : Option (Message PreviewItem)) (s : CollectState)
    (outcome : Except Exc PreviewItem) : Prop where
  dead : s.alive = false
  item : ∀ r, s.readableAt = some r → r < t.deadline → ∃ msg, m = some msg ∧ outcome = .ok msg.item
  crashed : ∀ x, s.exitedAt = some x → s.readableAt = none → x < t.deadline →
    outcome = .error (previewCrashed s.exitCode) ∧ s.now < t.deadline
  timedOut : (∀ r, s.readableAt = some r → t.deadline ≤ r) →
    (∀ x, s.exitedAt = some x → s.readableAt = none → t.deadline ≤ x) →
    outcome = .error .previewTimeout

/-- The parent can end in `s` with `outcome`. -/
def CanEnd (t : Timing) (m : Option (Message PreviewItem)) (s : CollectState)
    (outcome : Except Exc PreviewItem) : Prop :=
  ReflTransGen (CollectStep t) (.start t m) s ∧ s.parent = .ended outcome

/-- With a parent whose steps take no time and one second, an exit at 0.7 s is
raised at 1.1 s. -/
theorem exit_raised_late : ∃ t s, t.deadline = 1000000 ∧ t.slack = 0 ∧
    CanEnd t none s (.error (previewCrashed 1)) ∧
    s.exitedAt = some 700000 ∧ s.readableAt = none ∧ s.now = 1100000 := by
  -- two polls, the exit in the second, and the last chance after the deadline
  refine ⟨⟨1000000, 1, 0, by decide, by decide⟩, _, rfl, rfl, ⟨.head (.poll rfl (by decide)) <|
    .head (.tick 500000 (by decide) (by decide) (by rintro _ ⟨⟩)) <|
    .head (.nothing rfl (by decide) (nothingBefore_of_none rfl _)) <| .head (.again rfl rfl) <|
    .head (.poll rfl (by decide)) <|
    .head (.tick 700000 (by decide) (by decide) (by rintro _ ⟨⟩)) <|
    .head (.exit 1 rfl rfl) <|
    .head (.tick 1000000 (by decide) (by decide) (by rintro _ ⟨⟩)) <|
    .head (.nothing rfl (by decide) (nothingBefore_of_none rfl _)) <| .head (.exited rfl rfl) <|
    .head (.tick 1100000 (by decide) (by decide) (by rintro _ ⟨⟩)) <|
    .head (.nothingAtLast rfl (by decide) (nothingBefore_of_none rfl _)) <|
    .head (.reap rfl rfl) .refl, rfl⟩, rfl, rfl, rfl⟩

/-- With half a second, an item that lands just then is returned if the child
exits on it. -/
theorem item_returned_late : ∃ t m s, t.deadline = 500000 ∧ t.slack = 0 ∧
    CanEnd t (some m) s (.ok m.item) ∧ s.readableAt = some 500000 := by
  -- flush and exit come between the empty poll and `is_alive()`
  refine ⟨⟨500000, 1, 0, by decide, by decide⟩, ⟨.empty, 1, by decide⟩, _, rfl, rfl,
    ⟨.head (.poll rfl (by decide)) <| .head (.put rfl rfl) <|
    .head (.tick 500000 (by decide) (by decide) (by rintro _ ⟨⟩)) <|
    .head (.nothing rfl (by decide) (nothingBefore_of_none rfl _)) <|
    .head (.flush rfl rfl (by decide)) <| .head (.exit 0 rfl rfl) <|
    .head (.exited rfl rfl) <| .head (.ready (.inr rfl) (by rintro ⟨⟩)) <|
    .head (.got rfl rfl) <| .head (.joined rfl (.inl rfl)) <|
    .head (.returned rfl rfl) .refl, rfl⟩, rfl⟩

/-- A parent that is slow by 100 µs can miss an item readable before the deadline. -/
theorem item_missed : ∃ t m s, t.deadline = 500050 ∧ t.slack = 100 ∧
    CanEnd t (some m) s (.error .previewTimeout) ∧ s.readableAt = some 500020 := by
  -- the poll ends 50 µs before the deadline, the loop is back 50 µs after it
  refine ⟨⟨500050, 1, 100, by decide, by decide⟩, ⟨.empty, 1, by decide⟩, _, rfl, rfl,
    ⟨.head (.poll rfl (by decide)) <|
    .head (.tick 500000 (by decide) (by decide) (by rintro _ ⟨⟩)) <|
    .head (.nothing rfl (by decide) (nothingBefore_of_none rfl _)) <| .head (.again rfl rfl) <|
    .head (.put rfl rfl) <| .head (.tick 500020 (by decide) (by decide) (by rintro _ ⟨⟩)) <|
    .head (.flush rfl rfl (by decide)) <|
    .head (.tick 500100 (by decide) (by decide) (by rintro _ ⟨⟩)) <|
    .head (.timeout rfl (by decide)) <| .head (.terminate rfl) <| .head (.obey rfl rfl) <|
    .head (.waited rfl (.inl rfl)) <| .head (.stopped rfl rfl) .refl, rfl⟩, rfl⟩

/-- The deadline does not decide alone, though the parent lose no time: a crash can
be raised after it, and an item that lands on it returned.  A parent that does lose
time can miss an item. -/
theorem preview_not_collected_as_claimed :
    (¬ ∀ t m s outcome, t.slack = 0 → CanEnd t m s outcome → CollectedSharply t m s outcome) ∧
    (¬ ∀ t m s outcome, t.slack = 0 → CanEnd t m s outcome →
      (∀ r, s.readableAt = some r → t.deadline ≤ r) →
      (∀ x, s.exitedAt = some x → s.readableAt = none → t.deadline ≤ x) →
      outcome = .error .previewTimeout) ∧
    ¬ ∀ t m s outcome, CanEnd t m s outcome →
      ∀ r, s.readableAt = some r → r < t.deadline → ∃ msg, m = some msg ∧ outcome = .ok msg.item := by
  refine ⟨fun hall => ?_, fun hall => ?_, fun hall => ?_⟩
  · obtain ⟨t, s, hdeadline, hslack, hend, hexit, hread, hnow⟩ := exit_raised_late
    have hlate := ((hall t none s _ hslack hend).crashed 700000 hexit hread (by omega)).2
    omega
  · obtain ⟨t, m, s, hdeadline, hslack, hend, hread⟩ := item_returned_late
    have htimeout := hall t (some m) s _ hslack hend
      (by rw [hread, hdeadline]; rintro r ⟨⟩; exact le_rfl)
      (by rw [hread]; rintro x - ⟨⟩)
    cases htimeout
  · obtain ⟨t, m, s, hdeadline, -, hend, hread⟩ := item_missed
    obtain ⟨msg, -, hok⟩ := hall t (some m) s _ hend 500020 hread (by omega)
    cases hok

end MediaDownloader
