import MediaDownloader.Infrastructure.ProgressBridge

/-!
# The stop marker

`_run_download_in_process` sends `None` from the `finally` around its wait, and
`download()` awaits a drain task that ends on nothing else.  The queues and the
child are made before that `try`.

* `never_returns`: a runner that fails there leaves `download()` waiting;
* `drained_of_finished`: the marker is consumed only after every callback;
* `stop_marker_iff`: so `download()` ends with the runner's outcome exactly when
  the child was started and no callback raises.
-/

namespace MediaDownloader

open Relation

/-! ## The runner -/

/-- How the loop of `_wait_and_drain_progress` is left. -/
inductive WaitEnd where
  | exited
  | deadline
  | raised (e : Exc)

/-- The item of `result_queue`, with what parsing its payload gives. -/
inductive ResultItem where
  | tooLarge (numbers : Except Exc (Int × Int))
  | extractError (payload : Str)
  | error (payload : Str)
  | ok (parsed : Except Exc DownloadResult)

/-- What one call of the runner meets. -/
structure RunnerWorld where
  /-- `ctx.Queue()`, twice, and `ctx.Process(...)`. -/
  makeQueues : Except Exc Unit
  startProcess : Except Exc Unit
  /-- The rounds of the wait: an item, or `queue.Empty`. -/
  polls : List (Option RawProgress)
  waitEnd : WaitEnd
  exitCode : Int
  /-- `none` when `result_queue.empty()`. -/
  resultQueue : Option (Except Exc ResultItem)

namespace RunnerWorld

/-- The real events of the call. -/
def events (w : RunnerWorld) : List RawProgress := w.polls.reduceOption

/-- The child runs. -/
def Started (w : RunnerWorld) : Prop := w.makeQueues = .ok () ∧ w.startProcess = .ok ()

end RunnerWorld

/-- `_wait_and_drain_progress`: the items sunk, and whether it raises. -/
def waitAndDrainProgress (polls : List (Option RawProgress)) (waitEnd : WaitEnd) :
    List RawProgress × Except Exc Unit :=
  (polls.reduceOption,
    match waitEnd with
    | .exited => .ok ()
    | .deadline => .error .runnerTimeout
    | .raised e => .error e)

/-- The runner after the wait. -/
def collectResult (exitCode : Int) : Option (Except Exc ResultItem) → Except Exc DownloadResult
  | none => .error (.runnerProcess (str "Процесс скачивания завершился аварийно (exit code " ++
      intStr exitCode ++ str ")"))
  | some (.error e) => .error e
  | some (.ok (.tooLarge (.error e))) => .error e
  | some (.ok (.tooLarge (.ok (estimatedMb, limitMb)))) =>
    .error (.runnerTooLarge estimatedMb limitMb)
  | some (.ok (.extractError payload)) => .error (.runnerExtract payload)
  | some (.ok (.error payload)) => .error (.runnerProcess payload)
  | some (.ok (.ok parsed)) => parsed

/-- `_run_download_in_process`: what it passes to `progress_sink`, and its outcome. -/
def runDownloadInProcess (w : RunnerWorld) :
    List (Option RawProgress) × Except Exc DownloadResult :=
  match w.makeQueues with
  | .error e => ([], .error e)
  | .ok () =>
    match w.startProcess with
    | .error e => ([], .error e)
    | .ok () =>
      let (sunk, waited) := waitAndDrainProgress w.polls w.waitEnd
      -- the `finally`
      let sends := sunk.map some ++ [none]
      match waited with
      | .error e => (sends, .error e)
      | .ok () => (sends, collectResult w.exitCode w.resultQueue)

theorem sends_of_started {w : RunnerWorld} (h : w.Started) :
    (runDownloadInProcess w).1 = w.events.map some ++ [none] := by
  obtain ⟨hq, hp⟩ := h
  simp only [runDownloadInProcess, hq, hp, waitAndDrainProgress, RunnerWorld.events]
  cases w.waitEnd <;> rfl

theorem sends_of_not_started {w : RunnerWorld} (h : ¬ w.Started) :
    (runDownloadInProcess w).1 = [] := by
  unfold RunnerWorld.Started at h
  unfold runDownloadInProcess
  cases hq : w.makeQueues with
  | error e => rfl
  | ok _ =>
    cases hp : w.startProcess with
    | error e => rfl
    | ok _ => exact absurd ⟨hq, hp⟩ h

/-! ## download() on top of it -/

/-- `download()` when the executor thread will make these sink calls. -/
def BridgeState.sending (sends : List (Option RawProgress)) : BridgeState :=
  { BridgeState.start [] with toSend := sends }

theorem BridgeState.sending_start (events : List RawProgress) :
    BridgeState.sending (events.map some ++ [none]) = BridgeState.start events := rfl

/-- What has been passed to `progress_sink`. -/
def BridgeState.passed (s : BridgeState) (sends : List (Option RawProgress)) :
    List (Option RawProgress) := sends.take (sends.length - s.toSend.length)

section

variable (u : Unicode) (url : Str) (raises : Nat → Option Exc) (w : RunnerWorld)

/-- One move of a call of `download()`; making or awaiting the n-th snapshot raises
`raises n`. -/
def CallStep : BridgeState → BridgeState → Prop :=
  BridgeStep raises (mapOutcome u url (runDownloadInProcess w).2)

/-- What a call of `download()` can reach. -/
def CallReach : BridgeState → Prop :=
  ReflTransGen (CallStep u url raises w) (.sending (runDownloadInProcess w).1)

/-- The marker arrives: it was passed once, after every event, when the executor
call is over, and every schedule ends with it consumed and the runner's outcome
returned. -/
structure MarkerArrives : Prop where
  passed : ∀ s, CallReach u url raises w s → s.futureDone = true →
    s.passed (runDownloadInProcess w).1 = w.events.map some ++ [none]
  ends : ∀ s, CallReach u url raises w s → Acc (fun s' s => CallStep u url raises w s s') s
  returns : ∀ s, CallReach u url raises w s → (∀ s', ¬ CallStep u url raises w s s') →
    s.drain = .finished none ∧
      s.download = .returned (mapOutcome u url (runDownloadInProcess w).2)

end

/-! ## A runner that never started the child -/

/-- Nothing is on its way to the drain task, and `download()` is not over. -/
structure Waiting (s : BridgeState) : Prop where
  toSend : s.toSend = []
  posted : s.posted = []
  bridge : s.bridge = []
  drain : s.drain = .waiting
  download : ∀ r, s.download ≠ .returned r

section

variable {u : Unicode} {url : Str} {raises : Nat → Option Exc} {w : RunnerWorld}
  {s s' : BridgeState} {outcome : Except Exc DownloadResult}

theorem Waiting.step (h : Waiting s) (hs : BridgeStep raises outcome s s') : Waiting s' := by
  obtain ⟨hsend, hposted, hbridge, hdrain, hdown⟩ := h
  cases hs with
  | sink ht => rw [hsend] at ht; cases ht
  | complete _ _ => exact ⟨hsend, hposted, hbridge, hdrain, hdown⟩
  | runCallback hp => rw [hposted] at hp; cases hp
  | take _ hb => rw [hbridge] at hb; cases hb
  | stop _ hb => rw [hbridge] at hb; cases hb
  | awaited hw _ => rw [hdrain] at hw; cases hw
  | raised hw _ => rw [hdrain] at hw; cases hw
  | resume _ _ => exact ⟨hsend, hposted, hbridge, hdrain, fun r hr => by cases hr⟩
  | finish _ hw => rw [hdrain] at hw; cases hw

/-- `download()` waits for ever on a marker nobody sends. -/
theorem never_returns (h : ¬ w.Started) (hr : CallReach u url raises w s) : Waiting s := by
  unfold CallReach at hr
  rw [sends_of_not_started h] at hr
  induction hr with
  | refl => exact ⟨rfl, rfl, rfl, rfl, fun r hr => by cases hr⟩
  | tail _ hs ih => exact ih.step hs

/-! ## A runner that did -/

theorem callReach_started (h : w.Started) :
    CallReach u url raises w s ↔
      ReflTransGen (BridgeStep raises (mapOutcome u url (runDownloadInProcess w).2))
        (.start w.events) s := by
  unfold CallReach
  rw [sends_of_started h, BridgeState.sending_start]
  exact Iff.rfl

/-- A drain task that consumed the marker has awaited the callback on every event. -/
theorem drained_of_finished {events : List RawProgress} (h : BridgeInv raises outcome events s)
    (hd : s.drain = .finished none) : ∀ n, n < events.length → raises n = none := by
  obtain ⟨⟨taken, hcalled, hstream⟩, hdrain, hcalm, -, -⟩ := h
  rw [hd] at hdrain hstream
  simp only [DrainTask.popped, List.append_assoc, List.cons_append, List.nil_append] at hstream
  obtain ⟨rest, hevents, hl⟩ := stream_prefix hstream
  have hrest : rest = [] := by
    cases rest with
    | nil => rfl
    | cons _ _ => simp at hl
  have hlen : s.awaited.length = events.length := by
    rw [← show s.called = s.awaited from hdrain, hcalled, hevents, hrest]
    simp
  rw [← hlen]
  exact hcalm

/-- In a calm run the drain task can only end by the marker. -/
theorem finished_of_calm {events : List RawProgress} {failure : Option Exc}
    (h : BridgeInv raises outcome events s) (hcalm : ∀ n, n < events.length → raises n = none)
    (hd : s.drain = .finished failure) : failure = none := by
  cases failure with
  | none => rfl
  | some e =>
    obtain ⟨⟨taken, hcalled, hstream⟩, hdrain, -, -, -⟩ := h
    rw [hd] at hdrain hstream
    obtain ⟨he, p, hp⟩ := hdrain
    simp only [DrainTask.popped, List.append_assoc, List.nil_append] at hstream
    obtain ⟨rest, hevents, -⟩ := stream_prefix hstream
    have hlt : s.awaited.length < events.length := by
      have hl := congrArg List.length hp
      rw [hcalled] at hl
      rw [hevents]
      simp only [List.length_append, List.length_map, List.length_cons, List.length_nil] at hl ⊢
      omega
    rw [hcalm _ hlt] at he
    cases he

/-- A state of `download()` that cannot move has returned. -/
theorem returned_of_stuck {events : List RawProgress}
    (h : ReflTransGen (BridgeStep raises outcome) (.start events) s)
    (hs : ∀ s', ¬ BridgeStep raises outcome s s') : ∃ r, s.download = .returned r := by
  by_contra hr
  obtain ⟨s', hs'⟩ := bridge_enabled h fun r hret => hr ⟨r, hret⟩
  exact hs s' hs'

end

/-- The marker arrives exactly when the runner got as far as its `try` and no
callback raises. -/
theorem stop_marker_iff (u : Unicode) (url : Str) (raises : Nat → Option Exc) (w : RunnerWorld) :
    MarkerArrives u url raises w ↔
      w.Started ∧ ∀ n, n < w.events.length → raises n = none := by
  constructor
  · intro h
    obtain ⟨s, hr, hstuck⟩ := Interaction.exists_stuck (h.ends _ .refl)
    obtain ⟨hdrain, hdown⟩ := h.returns s hr hstuck
    by_cases hw : w.Started
    · exact ⟨hw, drained_of_finished (bridge_inv ((callReach_started hw).mp hr)) hdrain⟩
    · exact absurd hdown ((never_returns hw hr).download _)
  · rintro ⟨hw, hcalm⟩
    refine ⟨fun s hr hf => ?_, fun s _ => bridge_acc s, fun s hr hstuck => ?_⟩
    · have hinv := bridge_inv ((callReach_started hw).mp hr)
      rw [BridgeState.passed, hinv.future hf, sends_of_started hw, List.length_nil, Nat.sub_zero,
        List.take_length]
    · have hr' := (callReach_started hw).mp hr
      have hinv := bridge_inv hr'
      obtain ⟨r, hret⟩ := returned_of_stuck hr' hstuck
      obtain ⟨failure, hdrain, hres⟩ := hinv.returned r hret
      have hnone := finished_of_calm hinv hcalm hdrain
      rw [hnone] at hdrain hres
      refine ⟨hdrain, ?_⟩
      rw [hret, hres]
      rfl

/-- The child cannot be spawned: the executor call ends, `download()` never does. -/
theorem spawn_failure_hangs :
    let w : RunnerWorld := ⟨.ok (), .error (.other (str "OSError")), [], .exited, 0, none⟩
    ¬ MarkerArrives ⟨id, id⟩ [] (fun _ => none) w ∧
      ∃ s, CallReach ⟨id, id⟩ [] (fun _ => none) w s ∧ s.futureDone = true ∧
        ∀ s', ¬ CallStep ⟨id, id⟩ [] (fun _ => none) w s s' := by
  intro w
  have hw : ¬ w.Started := fun h => by cases h.2
  refine ⟨fun h => ?_, _, .tail (.single (.complete rfl rfl)) (.resume rfl rfl), rfl, ?_⟩
  · obtain ⟨s, hr, hstuck⟩ := Interaction.exists_stuck (h.ends _ .refl)
    exact (never_returns hw hr).download _ (h.returns s hr hstuck).2
  · intro s' hs
    cases hs with
    | sink h => cases h
    | complete _ h => cases h
    | runCallback h => cases h
    | take _ h => cases h
    | stop _ h => cases h
    | awaited h _ => cases h
    | raised h _ => cases h
    | resume h _ => cases h
    | finish _ h => cases h

end MediaDownloader
