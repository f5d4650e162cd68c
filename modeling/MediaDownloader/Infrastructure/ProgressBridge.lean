import MediaDownloader.Lib.Schedules
import MediaDownloader.Infrastructure.YtDlpDownloader

/-!
# The progress bridge

Four parties share `download()`: the executor thread, which posts a callback
for every event and one for the stop marker; the event loop, which runs posted
callbacks in order; the drain task; and `download()` itself, which the future
wakes by a path of its own.

* `BridgeInv`: popped, queued, posted and unsent events are, in this order,
  the whole stream;
* `bridge_outcome`: in every schedule `download()` ends as the sequential
  `drain` does (`drained`, `drainFailure`);
* `bridge_delivers`: with a callback that never raises, every snapshot is
  awaited once, in order, and none after the return;
* `bridge_enabled`: until then some party can always move.
-/

namespace MediaDownloader

/-- `_drain_bridge`: at `bridge.get()`, awaiting the callback, or over. -/
inductive DrainTask where
  | waiting
  | inCallback (progress : DownloadProgress)
  | finished (failure : Option Exc)

/-- `download()`: at the executor future, at `await drain_task`, or over. -/
inductive DownloadTask where
  | inExecutor
  | inFinally
  | returned (result : Except Exc DownloadResult)

structure BridgeState where
  /-- Sink calls the executor thread still makes; `none` is the stop marker. -/
  toSend : List (Option RawProgress)
  futureDone : Bool
  /-- `put_nowait` callbacks the loop has not run yet. -/
  posted : List (Option RawProgress)
  bridge : List (Option RawProgress)
  drain : DrainTask
  download : DownloadTask
  /-- Snapshots the callback was called on, and those awaited to the end. -/
  called : List DownloadProgress
  awaited : List DownloadProgress

namespace BridgeState

/-- The thread will send `events` and the stop marker. -/
def start (events : List RawProgress) : BridgeState where
  toSend := events.map some ++ [none]
  futureDone := false
  posted := []
  bridge := []
  drain := .waiting
  download := .inExecutor
  called := []
  awaited := []

end BridgeState

section

variable (raises : Nat → Option Exc) (outcome : Except Exc DownloadResult)

/-- One move of one party; the n-th callback call raises `raises n`. -/
inductive BridgeStep : BridgeState → BridgeState → Prop
  | sink {s : BridgeState} {raw rest} : s.toSend = raw :: rest →
      BridgeStep s { s with toSend := rest, posted := s.posted ++ [raw] }
  | complete {s : BridgeState} : s.toSend = [] → s.futureDone = false →
      BridgeStep s { s with futureDone := true }
  | runCallback {s : BridgeState} {raw rest} : s.posted = raw :: rest →
      BridgeStep s { s with posted := rest, bridge := s.bridge ++ [raw] }
  | take {s : BridgeState} {raw rest} : s.drain = .waiting → s.bridge = some raw :: rest →
      BridgeStep s { s with
        bridge := rest
        drain := .inCallback (buildDownloadProgress raw)
        called := s.called ++ [buildDownloadProgress raw] }
  | stop {s : BridgeState} {rest} : s.drain = .waiting → s.bridge = none :: rest →
      BridgeStep s { s with bridge := rest, drain := .finished none }
  | awaited {s : BridgeState} {p} : s.drain = .inCallback p → raises s.awaited.length = none →
      BridgeStep s { s with drain := .waiting, awaited := s.awaited ++ [p] }
  | raised {s : BridgeState} {p e} : s.drain = .inCallback p →
      raises s.awaited.length = some e →
      BridgeStep s { s with drain := .finished (some e) }
  | resume {s : BridgeState} : s.download = .inExecutor → s.futureDone = true →
      BridgeStep s { s with download := .inFinally }
  | finish {s : BridgeState} {failure} : s.download = .inFinally →
      s.drain = .finished failure →
      BridgeStep s { s with download := .returned (downloadResult failure outcome) }

/-- What the drain task's place says about the calls made so far. -/
def DrainInv (called awaited : List DownloadProgress) : DrainTask → Prop
  | .waiting => called = awaited
  | .inCallback p => called = awaited ++ [p]
  | .finished none => called = awaited
  | .finished (some e) => raises awaited.length = some e ∧ ∃ p, called = awaited ++ [p]

/-- The stop marker, once the drain task has popped it. -/
def DrainTask.popped : DrainTask → List (Option RawProgress)
  | .finished none => [none]
  | _ => []

structure BridgeInv (events : List RawProgress) (s : BridgeState) : Prop where
  stream : ∃ taken : List RawProgress, s.called = taken.map buildDownloadProgress ∧
    taken.map some ++ s.drain.popped ++ s.bridge ++ s.posted ++ s.toSend =
      events.map some ++ [none]
  drain : DrainInv raises s.called s.awaited s.drain
  calm : ∀ n, n < s.awaited.length → raises n = none
  future : s.futureDone = true → s.toSend = []
  returned : ∀ r, s.download = .returned r →
    ∃ failure, s.drain = .finished failure ∧ r = downloadResult failure outcome

theorem BridgeInv.start (events : List RawProgress) :
    BridgeInv raises outcome events (BridgeState.start events) where
  stream := ⟨[], rfl, by simp [BridgeState.start, DrainTask.popped]⟩
  drain := rfl
  calm := fun n hn => absurd hn (Nat.not_lt_zero n)
  future := fun h => by cases h
  returned := fun r h => by cases h

end

section

variable {raises : Nat → Option Exc} {outcome : Except Exc DownloadResult}
  {events : List RawProgress} {s s' : BridgeState}

/-- Every move of every party keeps the invariant. -/
theorem BridgeInv.step (h : BridgeInv raises outcome events s)
    (hs : BridgeStep raises outcome s s') : BridgeInv raises outcome events s' := by
  obtain ⟨⟨taken, hcalled, hstream⟩, hdrain, hcalm, hfuture, hret⟩ := h
  cases hs with
  | sink ht =>
    refine ⟨⟨taken, hcalled, ?_⟩, hdrain, hcalm, fun hf => ?_, hret⟩
    · rw [← hstream, ht]
      simp
    · rw [hfuture hf] at ht
      cases ht
  | complete ht _ => exact ⟨⟨taken, hcalled, hstream⟩, hdrain, hcalm, fun _ => ht, hret⟩
  | runCallback hp =>
    refine ⟨⟨taken, hcalled, ?_⟩, hdrain, hcalm, hfuture, hret⟩
    rw [← hstream, hp]
    simp
  | @take raw rest hw hb =>
    rw [hw] at hdrain hstream
    refine ⟨⟨taken ++ [raw], ?_, ?_⟩, ?_, hcalm, hfuture, fun r hr => ?_⟩
    · simp [hcalled]
    · rw [← hstream, hb]
      simp [DrainTask.popped]
    · show s.called ++ _ = s.awaited ++ _
      rw [show s.called = s.awaited from hdrain]
    · obtain ⟨f, hf, _⟩ := hret r hr
      rw [hw] at hf
      cases hf
  | stop hw hb =>
    rw [hw] at hdrain hstream
    refine ⟨⟨taken, hcalled, ?_⟩, hdrain, hcalm, hfuture, fun r hr => ?_⟩
    · rw [← hstream, hb]
      simp [DrainTask.popped]
    · obtain ⟨f, hf, _⟩ := hret r hr
      rw [hw] at hf
      cases hf
  | awaited hw hr =>
    rw [hw] at hdrain hstream
    refine ⟨⟨taken, hcalled, hstream⟩, hdrain, fun n hn => ?_, hfuture, fun r hr => ?_⟩
    · have hn' : n < s.awaited.length + 1 := by simpa using hn
      rcases Nat.lt_succ_iff_lt_or_eq.mp hn' with hlt | rfl
      · exact hcalm n hlt
      · exact hr
    · obtain ⟨f, hf, _⟩ := hret r hr
      rw [hw] at hf
      cases hf
  | @raised p e hw he =>
    rw [hw] at hdrain hstream
    refine ⟨⟨taken, hcalled, hstream⟩, ⟨he, p, hdrain⟩, hcalm, hfuture, fun r hr => ?_⟩
    obtain ⟨f, hf, _⟩ := hret r hr
    rw [hw] at hf
    cases hf
  | resume hd hf =>
    exact ⟨⟨taken, hcalled, hstream⟩, hdrain, hcalm, hfuture, fun r hr => by cases hr⟩
  | @finish failure hd hw =>
    refine ⟨⟨taken, hcalled, hstream⟩, hdrain, hcalm, hfuture, fun r hr => ?_⟩
    cases hr
    exact ⟨failure, hw, rfl⟩

theorem bridge_inv (h : Relation.ReflTransGen (BridgeStep raises outcome)
    (BridgeState.start events) s) : BridgeInv raises outcome events s := by
  induction h with
  | refl => exact .start raises outcome events
  | tail _ hs ih => exact ih.step hs

/-! ## Every schedule ends -/

def DrainTask.work : DrainTask → Nat
  | .inCallback _ => 2
  | .waiting => 1
  | .finished _ => 0

def DownloadTask.work : DownloadTask → Nat
  | .inExecutor => 2
  | .inFinally => 1
  | .returned _ => 0

/-- An item costs its way from the thread through the loop into the callback. -/
def BridgeState.work (s : BridgeState) : Nat :=
  4 * s.toSend.length + 3 * s.posted.length + 2 * s.bridge.length +
    (if s.futureDone then 0 else 1) + s.drain.work + s.download.work

theorem BridgeStep.work_lt (hs : BridgeStep raises outcome s s') : s'.work < s.work := by
  cases hs with
  | sink ht =>
    simp only [BridgeState.work, ht, List.length_append, List.length_cons, List.length_nil]
    omega
  | complete ht hf =>
    simp only [BridgeState.work, hf, if_true, Bool.false_eq_true, if_false]
    omega
  | runCallback hp =>
    simp only [BridgeState.work, hp, List.length_append, List.length_cons, List.length_nil]
    omega
  | take hw hb =>
    simp only [BridgeState.work, hw, hb, DrainTask.work, List.length_cons]
    omega
  | stop hw hb =>
    simp only [BridgeState.work, hw, hb, DrainTask.work, List.length_cons]
    omega
  | awaited hw _ =>
    simp only [BridgeState.work, hw, DrainTask.work]
    omega
  | raised hw _ =>
    simp only [BridgeState.work, hw, DrainTask.work]
    omega
  | resume hd _ =>
    simp only [BridgeState.work, hd, DownloadTask.work]
    omega
  | finish hd _ =>
    simp only [BridgeState.work, hd, DownloadTask.work]
    omega

theorem bridge_acc (s : BridgeState) : Acc (fun s' s => BridgeStep raises outcome s s') s :=
  Interaction.acc_of_measure BridgeState.work (fun _ _ hs => hs.work_lt) s

/-! ## Where a schedule ends -/

/-- Events popped before the stop marker are a prefix of the stream. -/
theorem stream_prefix {taken : List RawProgress} {l : List (Option RawProgress)}
    (h : taken.map some ++ l = events.map some ++ [none]) :
    ∃ rest, events = taken ++ rest ∧ l = rest.map some ++ [none] := by
  induction taken generalizing events with
  | nil => exact ⟨events, rfl, h⟩
  | cons raw taken ih =>
    cases events with
    | nil => simp at h
    | cons raw' events =>
      simp only [List.map_cons, List.cons_append, List.cons.injEq, Option.some.injEq] at h
      obtain ⟨rfl, h⟩ := h
      obtain ⟨rest, rfl, hl⟩ := ih h
      exact ⟨rest, rfl, hl⟩

/-- Up to the first exception the drain is a plain map. -/
theorem drained_calm (taken rest : List RawProgress) (n : Nat)
    (h : ∀ m, n ≤ m → m < n + taken.length → raises m = none) :
    drained raises n (taken ++ rest) =
        taken.map buildDownloadProgress ++ drained raises (n + taken.length) rest ∧
      drainFailure raises n (taken ++ rest) = drainFailure raises (n + taken.length) rest := by
  induction taken generalizing n with
  | nil => exact ⟨rfl, rfl⟩
  | cons raw taken ih =>
    have hn : raises n = none := h n (Nat.le_refl n) (by simp)
    have hrest : ∀ m, n + 1 ≤ m → m < n + 1 + taken.length → raises m = none := by
      intro m hm hlt
      exact h m (by omega) (by simp only [List.length_cons]; omega)
    obtain ⟨h1, h2⟩ := ih (n + 1) hrest
    have hlen : n + (raw :: taken).length = n + 1 + taken.length := by
      simp only [List.length_cons]
      omega
    rw [hlen]
    simp only [List.cons_append, drained, drainFailure, hn, List.map_cons]
    exact ⟨by rw [h1], h2⟩

/-- The bridge in every schedule does what the sequential drain does. -/
theorem bridge_outcome (h : Relation.ReflTransGen (BridgeStep raises outcome)
    (BridgeState.start events) s) {r : Except Exc DownloadResult}
    (hr : s.download = .returned r) :
    s.called = drained raises 0 events ∧
      r = downloadResult (drainFailure raises 0 events) outcome := by
  obtain ⟨⟨taken, hcalled, hstream⟩, hdrain, hcalm, -, hret⟩ := bridge_inv h
  obtain ⟨failure, hf, rfl⟩ := hret r hr
  rw [hf] at hdrain hstream
  cases failure with
  | none =>
    simp only [DrainTask.popped, List.append_assoc, List.cons_append, List.nil_append] at hstream
    obtain ⟨rest, rfl, hl⟩ := stream_prefix hstream
    have hrest : rest = [] := by
      cases rest with
      | nil => rfl
      | cons _ _ => simp at hl
    subst hrest
    have hlen : s.awaited.length = taken.length := by
      rw [← show s.called = s.awaited from hdrain, hcalled, List.length_map]
    have hd := drained_calm taken [] 0 fun m _ hm => hcalm m (by omega)
    rw [hd.1, hd.2, hcalled]
    exact ⟨by simp [drained], rfl⟩
  | some e =>
    obtain ⟨he, p, hp⟩ := hdrain
    simp only [DrainTask.popped, List.append_assoc, List.nil_append] at hstream
    obtain ⟨rest, rfl, -⟩ := stream_prefix hstream
    have hne : taken ≠ [] := by
      rintro rfl
      rw [hcalled] at hp
      simp at hp
    have hsplit := List.dropLast_append_getLast hne
    have hlen : s.awaited.length = taken.dropLast.length := by
      have hl := congrArg List.length hp
      rw [hcalled] at hl
      simp at hl ⊢
      omega
    have hd := drained_calm taken.dropLast ([taken.getLast hne] ++ rest) 0
      fun m _ hm => hcalm m (by omega)
    rw [← List.append_assoc, hsplit] at hd
    rw [hlen] at he
    rw [hd.1, hd.2, hcalled]
    simp only [Nat.zero_add, List.cons_append, List.nil_append, drained, drainFailure, he]
    refine ⟨?_, trivial⟩
    rw [← List.map_singleton, ← List.map_append, hsplit]

/-- A return is final. -/
theorem BridgeStep.returned (hs : BridgeStep raises outcome s s')
    {r : Except Exc DownloadResult} (hr : s.download = .returned r) :
    s'.download = .returned r := by
  cases hs with
  | resume hd _ => rw [hd] at hr; cases hr
  | finish hd _ => rw [hd] at hr; cases hr
  | _ => exact hr

theorem returned_forever (h : Relation.ReflTransGen (BridgeStep raises outcome) s s')
    {r : Except Exc DownloadResult} (hr : s.download = .returned r) :
    s'.download = .returned r := by
  induction h with
  | refl => exact hr
  | tail _ hs ih => exact hs.returned ih

/-- Until `download()` is over, some party can move. -/
theorem bridge_enabled (h : Relation.ReflTransGen (BridgeStep raises outcome)
    (BridgeState.start events) s) (hr : ∀ r, s.download ≠ .returned r) :
    ∃ s', BridgeStep raises outcome s s' := by
  obtain ⟨⟨taken, -, hstream⟩, -, -, -, -⟩ := bridge_inv h
  cases hsend : s.toSend with
  | cons raw rest => exact ⟨_, .sink hsend⟩
  | nil =>
    cases hposted : s.posted with
    | cons raw rest => exact ⟨_, .runCallback hposted⟩
    | nil =>
      cases hdrain : s.drain with
      | waiting =>
        cases hbridge : s.bridge with
        | cons raw rest =>
          cases raw with
          | none => exact ⟨_, .stop hdrain hbridge⟩
          | some raw => exact ⟨_, .take hdrain hbridge⟩
        | nil =>
          -- the stop marker is still somewhere on its way
          rw [hsend, hposted, hdrain, hbridge] at hstream
          have hmem : (none : Option RawProgress) ∈ taken.map some := by
            simp only [DrainTask.popped, List.append_nil] at hstream
            rw [hstream]
            simp
          simp at hmem
      | inCallback p =>
        cases hraise : raises s.awaited.length with
        | none => exact ⟨_, .awaited hdrain hraise⟩
        | some e => exact ⟨_, .raised hdrain hraise⟩
      | finished failure =>
        cases hfuture : s.futureDone with
        | false => exact ⟨_, .complete hsend hfuture⟩
        | true =>
          cases hd : s.download with
          | inExecutor => exact ⟨_, .resume hd hfuture⟩
          | inFinally => exact ⟨_, .finish hd hdrain⟩
          | returned r => exact absurd hd (hr r)

end

/-- With a callback that never raises, every call was awaited to its end. -/
theorem bridge_awaited {events : List RawProgress} {outcome : Except Exc DownloadResult}
    {s : BridgeState} {r : Except Exc DownloadResult}
    (h : Relation.ReflTransGen (BridgeStep (fun _ => none) outcome) (BridgeState.start events) s)
    (hr : s.download = .returned r) : s.awaited = s.called := by
  obtain ⟨-, hdrain, -, -, hret⟩ := bridge_inv h
  obtain ⟨failure, hf, -⟩ := hret r hr
  rw [hf] at hdrain
  cases failure with
  | none => exact (show s.called = s.awaited from hdrain).symm
  | some e => cases hdrain.1

/-- **Delivery.**  When `download()` returns or raises, the callback was awaited
on exactly the snapshots of the events, in order, and is not called again. -/
theorem bridge_delivers (events : List RawProgress) (outcome : Except Exc DownloadResult)
    {s s' : BridgeState} {r : Except Exc DownloadResult}
    (h : Relation.ReflTransGen (BridgeStep (fun _ => none) outcome) (BridgeState.start events) s)
    (hr : s.download = .returned r)
    (h' : Relation.ReflTransGen (BridgeStep (fun _ => none) outcome) s s') :
    r = outcome ∧ s.awaited = events.map buildDownloadProgress ∧
      s'.called = events.map buildDownloadProgress ∧ s'.awaited = s'.called := by
  have hend := bridge_outcome h hr
  rw [drained_none, drainFailure_none] at hend
  have h0 := bridge_awaited h hr
  have hr' := returned_forever h' hr
  have hend' := bridge_outcome (h.trans h') hr'
  rw [drained_none] at hend'
  exact ⟨hend.2, h0.trans hend.1, hend'.1, bridge_awaited (h.trans h') hr'⟩

/-- A schedule in which the future overtakes both posted callbacks. -/
theorem overtaking_run : Relation.ReflTransGen
    (BridgeStep (fun _ => none) (.error .runnerTimeout)) (BridgeState.start [.converting])
    { toSend := [], futureDone := true, posted := [], bridge := [], drain := .finished none,
      download := .returned (.error .runnerTimeout), called := [phaseMarker .converting],
      awaited := [phaseMarker .converting] } :=
  .head (.sink rfl) <| .head (.sink rfl) <| .head (.complete rfl rfl) <|
    .head (.resume rfl rfl) <| .head (.runCallback rfl) <| .head (.take rfl rfl) <|
    .head (.runCallback rfl) <| .head (.awaited rfl rfl) <| .head (.stop rfl rfl) <|
    .head (.finish rfl rfl) .refl

theorem bridge_delivers_overtaken :
    ∃ s : BridgeState, s.download = .returned (.error .runnerTimeout) ∧
      s.awaited = [RawProgress.converting].map buildDownloadProgress :=
  ⟨_, rfl, (bridge_delivers _ _ overtaking_run rfl .refl).2.1⟩

end MediaDownloader
