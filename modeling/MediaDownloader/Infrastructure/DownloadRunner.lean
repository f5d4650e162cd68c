import Mathlib.Algebra.GroupWithZero.Nat
import MediaDownloader.Lib.Pipe
import MediaDownloader.Lib.Schedules
import MediaDownloader.Infrastructure.YtDlpDownloader

/-!
# The download runner

`_run_download_in_process` against its child.  The child puts progress items
and then its one result, and cannot exit before all their bytes are in the
pipes; the parent empties the progress queue until the child is gone and reads
the result queue only then.

* `RunnerStep.work_lt`: every schedule ends;
* `runner_reports`: a result that fits in the pipe is reported as it is;
* `runner_blocks`: a longer one keeps the child alive until the timeout;
* `runner_reports_iff`: so the runner reports what the child reported exactly
  when the result fits.
-/

namespace MediaDownloader

open Interaction

/-- What the child puts on `result_queue`. -/
inductive ChildResult where
  | ok (facts : DownloadResult)
  | tooLarge (estimatedMb limitMb : Int)
  | extractError (message : Str)
  | error (message : Str)

/-- What the parent makes of it. -/
def ChildResult.outcome : ChildResult → Except Exc DownloadResult
  | .ok facts => .ok facts
  | .tooLarge estimatedMb limitMb => .error (.runnerTooLarge estimatedMb limitMb)
  | .extractError message => .error (.runnerExtract message)
  | .error message => .error (.runnerProcess message)

theorem ChildResult.outcome_ne_timeout (r : ChildResult) : r.outcome ≠ .error .runnerTimeout := by
  cases r <;> simp [outcome]

def processCrashed : Exc :=
  .runnerProcess (str "Процесс скачивания завершился аварийно (exit code 0)")

/-- The parent: in `_wait_and_drain_progress`, past it, or over. -/
inductive RunnerPhase where
  | waiting
  | joined
  | ended (outcome : Except Exc DownloadResult)

structure RunnerState where
  /-- What the child still puts: progress items, then the result. -/
  items : List (Message RawProgress)
  result : Option (Message ChildResult)
  alive : Bool
  progressQueue : Channel RawProgress
  resultQueue : Channel ChildResult
  parent : RunnerPhase
  /-- What `progress_sink` got. -/
  sunk : List RawProgress

namespace RunnerState

def start (items : List (Message RawProgress)) (result : Message ChildResult) : RunnerState where
  items := items
  result := some result
  alive := true
  progressQueue := .empty
  resultQueue := .empty
  parent := .waiting
  sunk := []

/-- Nothing but the exit is left to the child, it cannot exit, and neither
feeder nor parent can move a byte. -/
def Stuck (K : Nat) (s : RunnerState) : Prop :=
  s.items = [] ∧ s.result = none ∧ s.progressQueue.pipe = [] ∧
    ¬(s.progressQueue.feeder = [] ∧ s.resultQueue.feeder = []) ∧
    (s.progressQueue.feeder ≠ [] → K ≤ s.progressQueue.pipe.length) ∧
    (s.resultQueue.feeder ≠ [] → K ≤ s.resultQueue.pipe.length)

end RunnerState

/-- One move of the child, a feeder or the parent, `K` bytes fitting in a
pipe.  Timeouts are long: the deadline passes only when all are stuck. -/
inductive RunnerStep (K : Nat) : RunnerState → RunnerState → Prop
  | putProgress {s : RunnerState} {m rest} : s.alive = true → s.items = m :: rest →
      RunnerStep K s { s with items := rest, progressQueue := s.progressQueue.put m }
  | putResult {s : RunnerState} {m} : s.alive = true → s.items = [] → s.result = some m →
      RunnerStep K s { s with result := none, resultQueue := s.resultQueue.put m }
  | flushProgress {s : RunnerState} {b rest} : s.alive = true →
      s.progressQueue.feeder = b :: rest → s.progressQueue.pipe.length < K →
      RunnerStep K s { s with progressQueue := ⟨rest, s.progressQueue.pipe ++ [b]⟩ }
  | flushResult {s : RunnerState} {b rest} : s.alive = true →
      s.resultQueue.feeder = b :: rest → s.resultQueue.pipe.length < K →
      RunnerStep K s { s with resultQueue := ⟨rest, s.resultQueue.pipe ++ [b]⟩ }
  | exit {s : RunnerState} : s.alive = true → s.items = [] → s.result = none →
      s.progressQueue.feeder = [] → s.resultQueue.feeder = [] →
      RunnerStep K s { s with alive := false }
  | readProgress {s : RunnerState} {b rest} : s.parent = .waiting →
      s.progressQueue.pipe = b :: rest →
      RunnerStep K s { s with
        progressQueue := ⟨s.progressQueue.feeder, rest⟩
        sunk := s.sunk ++ b.toList }
  | join {s : RunnerState} : s.parent = .waiting → s.alive = false →
      RunnerStep K s { s with parent := .joined }
  | crashed {s : RunnerState} : s.parent = .joined → s.resultQueue.pipe = [] →
      RunnerStep K s { s with parent := .ended (.error processCrashed) }
  | collect {s : RunnerState} {r} : s.parent = .joined → s.resultQueue.firstItem = some r →
      RunnerStep K s { s with parent := .ended r.outcome }
  | deadline {s : RunnerState} : s.parent = .waiting → s.alive = true → s.Stuck K →
      RunnerStep K s { s with alive := false, parent := .ended (.error .runnerTimeout) }

/-! ## Every schedule ends -/

def RunnerPhase.work : RunnerPhase → Nat
  | .waiting => 2
  | .joined => 1
  | .ended _ => 0

/-- A byte costs its put, its way through the feeder, its reading. -/
def putWork {α : Type} (m : Message α) : Nat := 2 * m.size + 1

def RunnerState.work (s : RunnerState) : Nat :=
  (s.items.map putWork).sum + (s.result.elim 0 putWork) + (if s.alive then 1 else 0) +
    (2 * s.progressQueue.feeder.length + s.progressQueue.pipe.length) +
    (2 * s.resultQueue.feeder.length + s.resultQueue.pipe.length) + s.parent.work

theorem RunnerStep.work_lt {K : Nat} {s s' : RunnerState} (h : RunnerStep K s s') :
    s'.work < s.work := by
  cases h with
  | putProgress _ hi =>
    simp only [RunnerState.work, hi, Channel.put, List.length_append, Message.frame_length,
      List.map_cons, List.sum_cons, putWork]
    omega
  | putResult _ hi hr =>
    simp only [RunnerState.work, hr, Channel.put, List.length_append, Message.frame_length,
      Option.elim, putWork]
    omega
  | flushProgress _ hf _ =>
    simp only [RunnerState.work, hf, List.length_append, List.length_cons, List.length_nil]
    omega
  | flushResult _ hf _ =>
    simp only [RunnerState.work, hf, List.length_append, List.length_cons, List.length_nil]
    omega
  | exit ha _ _ _ _ =>
    simp only [RunnerState.work, ha, if_true, Bool.false_eq_true, if_false]
    omega
  | readProgress _ hp =>
    simp only [RunnerState.work, hp, List.length_cons]
    omega
  | join hp _ =>
    simp only [RunnerState.work, hp, RunnerPhase.work]
    omega
  | crashed hp _ =>
    simp only [RunnerState.work, hp, RunnerPhase.work]
    omega
  | collect hp _ =>
    simp only [RunnerState.work, hp, RunnerPhase.work]
    omega
  | deadline hp ha _ =>
    simp only [RunnerState.work, hp, ha, RunnerPhase.work, if_true, Bool.false_eq_true, if_false]
    omega

theorem runner_acc (K : Nat) (s : RunnerState) : Acc (fun s' s => RunnerStep K s s') s :=
  acc_of_measure RunnerState.work (fun _ _ hs => hs.work_lt) s

/-! ## What a schedule ends with -/

section

variable {K : Nat} {items : List (Message RawProgress)} {r : Message ChildResult}
  {s s' : RunnerState}

structure RunnerInv (K : Nat) (r : Message ChildResult) (s : RunnerState) : Prop where
  pending : ∀ m, s.result = some m → m = r ∧ s.resultQueue.bytes = []
  put : s.result = none → s.resultQueue.bytes = r.frame
  fits : s.resultQueue.pipe.length ≤ K
  gone : s.alive = false → (∀ o, s.parent ≠ .ended o) →
    s.result = none ∧ s.resultQueue.feeder = []
  joined : s.parent = .joined → s.alive = false
  ended : ∀ o, s.parent = .ended o →
    (o = r.item.outcome ∧ r.size ≤ K) ∨ (o = .error .runnerTimeout ∧ K < r.size)

theorem RunnerInv.start (K : Nat) (items : List (Message RawProgress))
    (r : Message ChildResult) : RunnerInv K r (RunnerState.start items r) where
  pending := fun m hm => ⟨(Option.some.inj hm).symm, rfl⟩
  put := fun h => by cases h
  fits := Nat.zero_le K
  gone := fun h => by cases h
  joined := fun h => by cases h
  ended := fun o h => by cases h

/-- Once the child is gone, its result is in the pipe, whole. -/
theorem RunnerInv.delivered (h : RunnerInv K r s) (ha : s.alive = false)
    (hp : ∀ o, s.parent ≠ .ended o) : s.resultQueue = ⟨[], r.frame⟩ := by
  obtain ⟨hres, hfeed⟩ := h.gone ha hp
  have hb := h.put hres
  rw [Channel.bytes, hfeed, List.append_nil] at hb
  rw [← hb, ← hfeed]

/-- When all are stuck, the result is longer than the pipe. -/
theorem RunnerInv.too_long (h : RunnerInv K r s) (hs : s.Stuck K) : K < r.size := by
  obtain ⟨-, hres, hpipe, hexit, hprogress, hresult⟩ := hs
  have hlen := congrArg List.length (h.put hres)
  rw [Message.frame_length, Channel.bytes, List.length_append] at hlen
  have hpos := r.size_pos
  by_cases hf : s.progressQueue.feeder = []
  · have hr : s.resultQueue.feeder ≠ [] := fun hr => hexit ⟨hf, hr⟩
    have hK := hresult hr
    have hpos' := List.length_pos_iff.mpr hr
    omega
  · have hK := hprogress hf
    rw [hpipe] at hK
    simp only [List.length_nil, Nat.le_zero] at hK
    omega

theorem RunnerInv.step (h : RunnerInv K r s) (hs : RunnerStep K s s') : RunnerInv K r s' := by
  cases hs with
  | putProgress _ _ => exact ⟨h.pending, h.put, h.fits, h.gone, h.joined, h.ended⟩
  | @putResult m ha _ hm =>
    obtain ⟨rfl, hb⟩ := h.pending m hm
    refine ⟨fun m' hm' => (by cases hm'), fun _ => ?_, h.fits, fun hd => ?_, h.joined, h.ended⟩
    · rw [Channel.bytes_put, hb]
      rfl
    · rw [ha] at hd
      cases hd
  | flushProgress _ _ _ => exact ⟨h.pending, h.put, h.fits, h.gone, h.joined, h.ended⟩
  | @flushResult b rest ha hf hlt =>
    refine ⟨fun m hm => ?_, fun hn => ?_, ?_, fun hd => ?_, h.joined, h.ended⟩
    · rw [Channel.bytes_flush hf]
      exact h.pending m hm
    · rw [Channel.bytes_flush hf]
      exact h.put hn
    · simp only [List.length_append, List.length_cons, List.length_nil]
      omega
    · rw [ha] at hd
      cases hd
  | exit _ _ hres _ hfeed =>
    exact ⟨h.pending, h.put, h.fits, fun _ _ => ⟨hres, hfeed⟩, fun _ => rfl, h.ended⟩
  | readProgress _ _ => exact ⟨h.pending, h.put, h.fits, h.gone, h.joined, h.ended⟩
  | join hp ha =>
    refine ⟨h.pending, h.put, h.fits, fun hd _ => h.gone hd ?_, fun _ => ha, fun o ho => ?_⟩
    · rw [hp]
      exact fun o ho => by cases ho
    · cases ho
  | crashed hp hpipe =>
    have hd := h.delivered (h.joined hp) (by rw [hp]; exact fun o ho => by cases ho)
    rw [hd] at hpipe
    have hlen := congrArg List.length hpipe
    have hpos := r.size_pos
    simp only [Message.frame_length, List.length_nil] at hlen
    omega
  | collect hp hfirst =>
    have hd := h.delivered (h.joined hp) (by rw [hp]; exact fun o ho => by cases ho)
    have hsize : r.size ≤ K := by
      have hfits := h.fits
      rw [hd] at hfits
      simpa using hfits
    rw [hd, Channel.firstItem_frame] at hfirst
    obtain rfl := Option.some.inj hfirst
    refine ⟨h.pending, h.put, h.fits, fun _ hn => absurd rfl (hn _), fun hj => (by cases hj),
      fun o ho => ?_⟩
    cases ho
    exact .inl ⟨rfl, hsize⟩
  | deadline hp ha hstuck =>
    refine ⟨h.pending, h.put, h.fits, fun _ hn => absurd rfl (hn _), fun hj => (by cases hj),
      fun o ho => ?_⟩
    cases ho
    exact .inr ⟨rfl, h.too_long hstuck⟩

theorem runner_inv (h : Relation.ReflTransGen (RunnerStep K) (RunnerState.start items r) s) :
    RunnerInv K r s := by
  induction h with
  | refl => exact .start K items r
  | tail _ hs ih => exact ih.step hs

/-- Not stuck, the child can exit or a feeder can move. -/
theorem unstuck (ha : s.alive = true) (hi : s.items = []) (hres : s.result = none)
    (hpipe : s.progressQueue.pipe = []) (hs : ¬ s.Stuck K) : ∃ s', RunnerStep K s s' := by
  cases hf : s.progressQueue.feeder with
  | cons b rest =>
    by_cases hK : K ≤ s.progressQueue.pipe.length
    · cases hr : s.resultQueue.feeder with
      | cons b' rest' =>
        by_cases hK' : K ≤ s.resultQueue.pipe.length
        · refine absurd ⟨hi, hres, hpipe, ?_, fun _ => hK, fun _ => hK'⟩ hs
          rw [hf]
          simp
        · exact ⟨_, .flushResult ha hr (by omega)⟩
      | nil =>
        refine absurd ⟨hi, hres, hpipe, ?_, fun _ => hK, fun h => absurd hr h⟩ hs
        rw [hf]
        simp
    · exact ⟨_, .flushProgress ha hf (by omega)⟩
  | nil =>
    cases hr : s.resultQueue.feeder with
    | nil => exact ⟨_, .exit ha hi hres hf hr⟩
    | cons b rest =>
      by_cases hK : K ≤ s.resultQueue.pipe.length
      · refine absurd ⟨hi, hres, hpipe, ?_, fun h => absurd hf h, fun _ => hK⟩ hs
        rw [hr]
        simp
      · exact ⟨_, .flushResult ha hr (by omega)⟩

/-- A run that is not over can go on. -/
theorem runner_enabled (h : RunnerInv K r s) (hp : ∀ o, s.parent ≠ .ended o) :
    ∃ s', RunnerStep K s s' := by
  cases hparent : s.parent with
  | ended o => exact absurd hparent (hp o)
  | joined =>
    have hd := h.delivered (h.joined hparent) hp
    exact ⟨_, .collect hparent (by rw [hd]; exact Channel.firstItem_frame r)⟩
  | waiting =>
    cases ha : s.alive with
    | false => exact ⟨_, .join hparent ha⟩
    | true =>
      cases hi : s.items with
      | cons m rest => exact ⟨_, .putProgress ha hi⟩
      | nil =>
        cases hres : s.result with
        | some m => exact ⟨_, .putResult ha hi hres⟩
        | none =>
          cases hpipe : s.progressQueue.pipe with
          | cons b rest => exact ⟨_, .readProgress hparent hpipe⟩
          | nil =>
            by_cases hstuck : s.Stuck K
            · exact ⟨_, .deadline hparent ha hstuck⟩
            · exact unstuck ha hi hres hpipe hstuck

/-- A result that fits in the pipe is what every schedule ends with. -/
theorem runner_reports (hK : r.size ≤ K)
    (h : Relation.ReflTransGen (RunnerStep K) (RunnerState.start items r) s)
    (ht : ∀ s', ¬ RunnerStep K s s') : s.parent = .ended r.item.outcome := by
  have hinv := runner_inv h
  by_cases hp : ∃ o, s.parent = .ended o
  · obtain ⟨o, ho⟩ := hp
    rcases hinv.ended o ho with ⟨rfl, _⟩ | ⟨_, hlong⟩
    · exact ho
    · omega
  · obtain ⟨s', hs⟩ := runner_enabled hinv fun o ho => hp ⟨o, ho⟩
    exact absurd hs (ht s')

/-- A longer result is never reported: some schedule ends, in the timeout. -/
theorem runner_blocks (items : List (Message RawProgress)) (hK : K < r.size) :
    ∃ s, Relation.ReflTransGen (RunnerStep K) (RunnerState.start items r) s ∧
      (∀ s', ¬ RunnerStep K s s') ∧ s.parent = .ended (.error .runnerTimeout) := by
  obtain ⟨s, h, ht⟩ := exists_stuck (runner_acc K (RunnerState.start items r))
  refine ⟨s, h, ht, ?_⟩
  have hinv := runner_inv h
  by_cases hp : ∃ o, s.parent = .ended o
  · obtain ⟨o, ho⟩ := hp
    rcases hinv.ended o ho with ⟨_, hfits⟩ | ⟨rfl, _⟩
    · omega
    · exact ho
  · obtain ⟨s', hs⟩ := runner_enabled hinv fun o ho => hp ⟨o, ho⟩
    exact absurd hs (ht s')

end

/-- Every schedule ends, and every end is the outcome the result encodes. -/
def Reports (K : Nat) (items : List (Message RawProgress)) (result : Message ChildResult) :
    Prop :=
  Acc (fun s' s => RunnerStep K s s') (RunnerState.start items result) ∧
    ∀ s, Relation.ReflTransGen (RunnerStep K) (RunnerState.start items result) s →
      (∀ s', ¬ RunnerStep K s s') → s.parent = .ended result.item.outcome

/-- The runner reports what the child reported exactly when the result fits in
the pipe.  The deadline passes only when child, feeders and parent are all stuck. -/
theorem runner_reports_iff (K : Nat) (items : List (Message RawProgress))
    (result : Message ChildResult) : Reports K items result ↔ result.size ≤ K := by
  constructor
  · rintro ⟨-, h⟩
    by_contra hlong
    obtain ⟨s, hr, ht, ho⟩ := runner_blocks items (Nat.lt_of_not_le hlong)
    have hover := h s hr ht
    rw [ho] at hover
    exact result.item.outcome_ne_timeout (RunnerPhase.ended.inj hover).symm
  · intro hK
    exact ⟨runner_acc K _, fun s hr ht => runner_reports hK hr ht⟩

/-- A diagnostic of 70000 bytes against a pipe of 65536: the timeout is reported. -/
theorem long_diagnostic_times_out :
    let result : Message ChildResult := ⟨.error (str "output file is missing"), 70000, by decide⟩
    ¬ Reports 65536 [] result ∧
      ∃ s, Relation.ReflTransGen (RunnerStep 65536) (RunnerState.start [] result) s ∧
        s.parent = .ended (.error .runnerTimeout) := by
  intro result
  obtain ⟨s, hr, ht, ho⟩ := runner_blocks [] (show 65536 < result.size by decide)
  refine ⟨fun h => ?_, s, hr, ho⟩
  have hover := h.2 s hr ht
  rw [ho] at hover
  exact result.item.outcome_ne_timeout (RunnerPhase.ended.inj hover).symm

end MediaDownloader
