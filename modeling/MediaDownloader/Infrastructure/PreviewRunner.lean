import MediaDownloader.Lib.Pipe
import MediaDownloader.Lib.Schedules
import MediaDownloader.Infrastructure.PreviewFacts

/-!
# Collecting the preview

`_collect_preview_result` against its child, with a clock in microseconds: the
parent polls, reads, joins and stops, and each of its own steps takes at most a
given slack; the child puts its item, exits or hangs when it likes.

* `CollectStep.rank_lt`: polls run out, phases advance, the child's work shrinks;
* `collect_acc`: so every schedule ends.
-/

namespace MediaDownloader

open Interaction Relation

/-! ## The source -/

/-- `_DownloadProcessError` of a child that exited with `code`. -/
def previewCrashed (code : Int) : Exc :=
  .runnerProcess
    (str "Процесс превью завершился без результата (exit code " ++ intStr code ++ str ")")

/-- Where the parent is in `_collect_preview_result` and `_stop_process`. -/
inductive CollectPhase where
  /-- Before `while (remaining := ..) > 0`. -/
  | loop
  | polling (until' : Int)
  /-- In the `recv_bytes` of a poll that found something. -/
  | receiving
  /-- In `except queue.Empty`, before `is_alive()`. -/
  | empty
  | lastPoll (until' : Int)
  /-- Before the `process.join()` of an exited child. -/
  | reaping
  | joining (item : PreviewItem) (until' : Int)
  | checking (item : PreviewItem)
  /-- Before `terminate()`; then come `join(5)`, `is_alive()` and `kill()`. -/
  | stopping (outcome : Except Exc PreviewItem)
  | waiting (outcome : Except Exc PreviewItem) (until' : Int)
  | rechecking (outcome : Except Exc PreviewItem)
  | ended (outcome : Except Exc PreviewItem)

/-- The deadline, what fits into a pipe, and how long a step of the parent itself
can take; times in microseconds from the start. -/
structure Timing where
  deadline : Int
  capacity : Nat
  slack : Int
  capacity_pos : 0 < capacity
  slack_nonneg : 0 ≤ slack

structure CollectState where
  now : Int
  /-- What the child may still put. -/
  pending : Option (Message PreviewItem)
  channel : Channel PreviewItem
  alive : Bool
  exitCode : Int
  parent : CollectPhase
  /-- By when the parent makes its next step. -/
  due : Int
  /-- When the item began to be readable. -/
  readableAt : Option Int
  /-- When the child exited by itself. -/
  exitedAt : Option Int

namespace CollectState

def start (t : Timing) (item : Option (Message PreviewItem)) : CollectState where
  now := 0
  pending := item
  channel := .empty
  alive := true
  exitCode := 0
  parent := .loop
  due := t.slack
  readableAt := none
  exitedAt := none

/-- The parent goes on to `phase`, where it waits until `until'` at most. -/
def goto (t : Timing) (s : CollectState) (phase : CollectPhase) (until' : Int) : CollectState :=
  { s with parent := phase, due := until' + t.slack }

/-- A poll that ended at `until'` has found nothing. -/
def NothingBefore (s : CollectState) (until' : Int) : Prop :=
  ∀ r, s.readableAt = some r → until' ≤ r

end CollectState

/-- A step of the parent, of the child, or of the clock.  A child does not exit
before its item is flushed; SIGTERM it may ignore, SIGKILL ends it.  It may hang
except inside a message the parent reads, whose bytes come before `due`. -/
inductive CollectStep (t : Timing) : CollectState → CollectState → Prop
  | poll {s} : s.parent = .loop → s.now < t.deadline →
      CollectStep t s (s.goto t (.polling (min (s.now + 500000) t.deadline))
        (min (s.now + 500000) t.deadline))
  | timeout {s} : s.parent = .loop → t.deadline ≤ s.now →
      CollectStep t s (s.goto t (.stopping (.error .previewTimeout)) s.now)
  | ready {s u} : s.parent = .polling u ∨ s.parent = .lastPoll u → s.channel.pipe ≠ [] →
      CollectStep t s (s.goto t .receiving s.now)
  | nothing {s u} : s.parent = .polling u → u ≤ s.now → s.NothingBefore u →
      CollectStep t s (s.goto t .empty s.now)
  | again {s} : s.parent = .empty → s.alive = true → CollectStep t s (s.goto t .loop s.now)
  | exited {s} : s.parent = .empty → s.alive = false →
      CollectStep t s (s.goto t (.lastPoll (s.now + 100000)) (s.now + 100000))
  | nothingAtLast {s u} : s.parent = .lastPoll u → u ≤ s.now → s.NothingBefore u →
      CollectStep t s (s.goto t .reaping s.now)
  | reap {s} : s.parent = .reaping → s.alive = false →
      CollectStep t s (s.goto t (.ended (.error (previewCrashed s.exitCode))) s.now)
  | read {s rest} : s.parent = .receiving → s.channel.pipe = none :: rest →
      CollectStep t s ({ s with channel := ⟨s.channel.feeder, rest⟩ }.goto t .receiving s.now)
  | got {s item rest} : s.parent = .receiving → s.channel.pipe = some item :: rest →
      CollectStep t s (s.goto t (.joining item (s.now + 5000000)) (s.now + 5000000))
  | joined {s item u} : s.parent = .joining item u → s.alive = false ∨ u ≤ s.now →
      CollectStep t s (s.goto t (.checking item) s.now)
  | returned {s item} : s.parent = .checking item → s.alive = false →
      CollectStep t s (s.goto t (.ended (.ok item)) s.now)
  | stop {s item} : s.parent = .checking item → s.alive = true →
      CollectStep t s (s.goto t (.stopping (.ok item)) s.now)
  | terminate {s outcome} : s.parent = .stopping outcome →
      CollectStep t s (s.goto t (.waiting outcome (s.now + 5000000)) (s.now + 5000000))
  | waited {s outcome u} : s.parent = .waiting outcome u → s.alive = false ∨ u ≤ s.now →
      CollectStep t s (s.goto t (.rechecking outcome) s.now)
  | stopped {s outcome} : s.parent = .rechecking outcome → s.alive = false →
      CollectStep t s (s.goto t (.ended outcome) s.now)
  | kill {s outcome} : s.parent = .rechecking outcome → s.alive = true →
      CollectStep t s ({ s with alive := false }.goto t (.ended outcome) s.now)
  | put {s m} : s.alive = true → s.pending = some m →
      CollectStep t s { s with pending := none, channel := s.channel.put m }
  | flush {s b rest} : s.alive = true → s.channel.feeder = b :: rest →
      s.channel.pipe.length < t.capacity →
      CollectStep t s { s with
        channel := ⟨rest, s.channel.pipe ++ [b]⟩
        readableAt := s.readableAt.or (some s.now) }
  | exit {s} (code : Int) : s.alive = true → s.channel.feeder = [] →
      CollectStep t s { s with
        alive := false, exitCode := code, pending := none, exitedAt := some s.now }
  | obey {s outcome u} : s.parent = .waiting outcome u → s.alive = true →
      CollectStep t s { s with alive := false }
  | tick {s} (now : Int) : s.now < now → now ≤ s.due → (∀ outcome, s.parent ≠ .ended outcome) →
      CollectStep t s { s with now := now }

/-! ## Every schedule ends -/

namespace CollectPhase

/-- How far the parent is from its end, polls aside. -/
def rank : CollectPhase → Nat
  | .polling _ => 11
  | .empty => 10
  | .loop => 9
  | .lastPoll _ => 8
  | .receiving => 7
  | .reaping => 6
  | .joining .. => 6
  | .checking _ => 5
  | .stopping _ => 4
  | .waiting .. => 3
  | .rechecking _ => 2
  | .ended _ => 1

/-- The time left for polls. -/
def pollTime (deadline now : Int) : CollectPhase → Nat
  | .polling u => (deadline - u).toNat
  | .empty => (deadline - now).toNat
  | .loop => (deadline - now).toNat
  | .receiving | .lastPoll _ | .reaping | .joining .. | .checking _ | .stopping _ | .waiting ..
  | .rechecking _ | .ended _ => 0

end CollectPhase

namespace CollectState

/-- What is left to the child and in its channel. -/
def childWork (s : CollectState) : Nat :=
  (s.pending.elim 0 fun m => 2 * m.size + 1) + (2 * s.channel.feeder.length +
    s.channel.pipe.length) + (if s.alive then 1 else 0)

def rank (t : Timing) (s : CollectState) : Nat ×ₗ Nat ×ₗ Nat ×ₗ Nat :=
  toLex (s.parent.pollTime t.deadline s.now, toLex (s.parent.rank,
    toLex (s.childWork, (s.due - s.now).toNat)))

end CollectState

section Rank

variable {t : Timing} {s s' : CollectState}

theorem rank_lt_of_poll
    (h : s'.parent.pollTime t.deadline s'.now < s.parent.pollTime t.deadline s.now) :
    s'.rank t < s.rank t :=
  Prod.Lex.toLex_lt_toLex.mpr (.inl h)

theorem rank_lt_of_later
    (hp : s'.parent.pollTime t.deadline s'.now ≤ s.parent.pollTime t.deadline s.now)
    (h : (toLex (s'.parent.rank, toLex (s'.childWork, (s'.due - s'.now).toNat)) :
      Nat ×ₗ Nat ×ₗ Nat) < toLex (s.parent.rank, toLex (s.childWork, (s.due - s.now).toNat))) :
    s'.rank t < s.rank t :=
  Prod.Lex.toLex_lt_toLex.mpr (hp.lt_or_eq.imp id fun he => ⟨he, h⟩)

theorem rank_lt_of_phase
    (hp : s'.parent.pollTime t.deadline s'.now ≤ s.parent.pollTime t.deadline s.now)
    (h : s'.parent.rank < s.parent.rank) : s'.rank t < s.rank t :=
  rank_lt_of_later hp (Prod.Lex.toLex_lt_toLex.mpr (.inl h))

theorem rank_lt_of_child
    (hp : s'.parent.pollTime t.deadline s'.now ≤ s.parent.pollTime t.deadline s.now)
    (hr : s'.parent.rank = s.parent.rank) (h : s'.childWork < s.childWork) :
    s'.rank t < s.rank t :=
  rank_lt_of_later hp (Prod.Lex.toLex_lt_toLex.mpr
    (.inr ⟨hr, Prod.Lex.toLex_lt_toLex.mpr (.inl h)⟩))

theorem rank_lt_of_time (hp : s'.parent = s.parent) (hc : s'.childWork = s.childWork)
    (hnow : s.now < s'.now) (hdue : s'.due = s.due) (hle : s'.now ≤ s.due) :
    s'.rank t < s.rank t := by
  refine rank_lt_of_later ?_ (Prod.Lex.toLex_lt_toLex.mpr (.inr ⟨by rw [hp],
    Prod.Lex.toLex_lt_toLex.mpr (.inr ⟨hc, ?_⟩)⟩))
  · rw [hp]
    cases s.parent <;> simp only [CollectPhase.pollTime] <;> omega
  · simp only
    omega

/-- Each step comes closer to the end: fewer polls, a later phase, less left to the
child, or time gone by. -/
theorem CollectStep.rank_lt (h : CollectStep t s s') : s'.rank t < s.rank t := by
  cases h with
  | poll hp hnow =>
    refine rank_lt_of_poll ?_
    simp only [CollectState.goto, hp, CollectPhase.pollTime]
    omega
  | ready hp _ =>
    rcases hp with hp | hp <;> refine rank_lt_of_phase ?_ ?_ <;>
      simp [CollectState.goto, hp, CollectPhase.pollTime, CollectPhase.rank]
  | nothing hp hnow _ =>
    refine rank_lt_of_phase ?_ (by simp [CollectState.goto, hp, CollectPhase.rank])
    simp only [CollectState.goto, hp, CollectPhase.pollTime]
    omega
  | timeout hp _ | again hp _ | exited hp _ | nothingAtLast hp _ _ | reap hp _ | got hp _
  | joined hp _ | returned hp _ | stop hp _ | waited hp _ | stopped hp _ | terminate hp
  | kill hp _ =>
    refine rank_lt_of_phase ?_ ?_ <;>
      simp [CollectState.goto, hp, CollectPhase.pollTime, CollectPhase.rank]
  | @read rest hp hpipe =>
    refine rank_lt_of_child (by simp [CollectState.goto, hp]) (by simp [CollectState.goto, hp]) ?_
    have hread : 2 * s.channel.feeder.length + rest.length <
        2 * s.channel.feeder.length + s.channel.pipe.length := by
      simp [hpipe]
    exact Nat.add_lt_add_right (Nat.add_lt_add_left hread _) _
  | put _ hm =>
    refine rank_lt_of_child le_rfl rfl ?_
    simp only [CollectState.childWork, hm, Channel.put, List.length_append, Message.frame_length,
      Option.elim]
    omega
  | flush _ hb _ =>
    refine rank_lt_of_child le_rfl rfl ?_
    simp only [CollectState.childWork, hb, List.length_append, List.length_cons, List.length_nil]
    omega
  | exit _ ha hf =>
    refine rank_lt_of_child le_rfl rfl ?_
    simp only [CollectState.childWork, ha, hf, Option.elim_none, List.length_nil]
    simp only [if_true, Bool.false_eq_true, if_false]
    omega
  | obey hp ha =>
    refine rank_lt_of_child le_rfl rfl ?_
    simp [CollectState.childWork, ha]
  | tick now hlt hdue _ => exact rank_lt_of_time rfl rfl hlt rfl hdue

end Rank

theorem collect_acc (t : Timing) (s : CollectState) : Acc (fun s' s => CollectStep t s s') s :=
  acc_of_rank (CollectState.rank t) (fun _ _ h => h.rank_lt) s

end MediaDownloader
