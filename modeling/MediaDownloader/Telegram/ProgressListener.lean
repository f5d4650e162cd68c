import MediaDownloader.Lib.Program
import MediaDownloader.Domain.Numbers
import MediaDownloader.Application.FormatPolicy

/-!
# The progress listener

`TelegramProgressListener` edits a card for every progress event that passes
the throttle.  Its loop has no guard of its own: the first exception that
`_handle_message` lets escape ends it for all requests.

* `handleMessage_ok_iff`: exactly when one message is survived.
* `run_survives_iff`: exactly when a whole sequence is.
-/

namespace MediaDownloader

open Interaction

namespace ProgressListener

/-! ## JSON payloads -/

def attributeError : Exc := .other (str "AttributeError")
def typeError : Exc := .other (str "TypeError")
def overflowError : Exc := .other (str "OverflowError")

def field (key : String) (fields : List (Str × Json)) : Json :=
  (Json.lookup (str key) fields).getD .null

/-- `payload.get(key)`. -/
def get (payload : Json) (key : String) : Except Exc Json :=
  match payload with
  | .object fields => .ok (field key fields)
  | _ => .error attributeError

/-- `bool(value)`. -/
def truthy : Json → Bool
  | .null => false
  | .bool b => b
  | .int n => n ≠ 0
  | .float x => x ≠ .finite 0
  | .string s => !s.isEmpty
  | .array xs => !xs.isEmpty
  | .object fields => !fields.isEmpty

def isNull : Json → Bool
  | .null => true
  | _ => false

/-- What arithmetic takes; on anything else it is a `TypeError`. -/
def number? : Json → Option PyNumber
  | .bool b => some (.int (if b then 1 else 0))
  | .int n => some (.int n)
  | .float x => some (.float x)
  | _ => none

/-- `a - b`. -/
def minus (a b : Json) : Except Exc PyNumber :=
  match number? a, number? b with
  | some x, some y =>
    match x.sub y with
    | some z => .ok z
    | none => .error overflowError
  | _, _ => .error typeError

/-- `value / (1024 * 1024)`. -/
def megabytes (value : Json) : Except Exc PyFloat :=
  match number? value with
  | some x =>
    match x.scaleDown (1024 * 1024) with
    | some q => .ok q
    | none => .error overflowError
  | none => .error typeError

/-- `round(value)`. -/
def roundInt (value : Json) : Except Exc Int :=
  match number? value with
  | some (.int n) => .ok n
  | some (.float (.finite q)) => .ok (roundHalfEven q)
  | some (.float .nan) => .error .valueError
  | some (.float _) => .error overflowError
  | none => .error typeError

/-! ## The throttle -/

structure ThrottleState where
  lastPercent : Json
  lastTs : PyFloat

/-- `ProgressThrottler`. -/
structure Throttler where
  minIntervalSeconds : Rat
  minPercentStep : Rat
  state : List (Str × ThrottleState)

/-- `ProgressThrottler()`. -/
def Throttler.new : Throttler := ⟨3, 5, []⟩

namespace Throttler

/-- The two assignments at the end of `should_emit`. -/
def record (t : Throttler) (key : Str) (percent : Json) (now : PyFloat) : Throttler :=
  { t with state := dictSet key ⟨percent, now⟩ t.state }

def shouldEmit (t : Throttler) (key : Str) (percent : Json) (now : PyFloat) :
    Except Exc (Throttler × Bool) :=
  match dictGet key t.state with
  | none => .ok (t.record key percent now, true)
  | some state =>
    if (now.sub state.lastTs).lt t.minIntervalSeconds then .ok (t, false)
    else if isNull percent || isNull state.lastPercent then
      .ok (t.record key percent now, true)
    else do
      let step ← minus percent state.lastPercent
      if step.absLt t.minPercentStep then .ok (t, false)
      else .ok (t.record key percent now, true)

def discard (t : Throttler) (key : Str) : Throttler :=
  { t with state := t.state.filter fun entry => entry.1 ≠ key }

end Throttler

/-! ## The listener -/

/-- An argument of a progress text. -/
inductive ProgressArg where
  | percent (n : Int)
  | mb (x : PyFloat)
  | speed (s : Str)

/-- What the listener is built with.  `text` is `i18n_core.get`, which has a text
for every key and locale. -/
structure Listener where
  text : Str → Json → List ProgressArg → Str
  defaultLocale : Str

/-- A message from `pubsub.listen()` and what is met while it is handled: the
channel (`none`: bytes that are no UTF-8), `json.loads` on the data, the clock and
the outcome of the edit. -/
structure PMessage where
  channel : Option Str
  loads : Except Exc Json
  now : PyFloat
  edit : Except TelegramError Unit

/-- `edit_message_text`, with the coordinates as the payload has them. -/
structure Edit where
  chatId : Json
  messageId : Json
  text : Str

def isTerminalPhase (phase : Str) : Bool := phase = str "done" || phase = str "failed"

def isOneShotPhase (phase : Str) : Bool :=
  phase = str "converting" || phase = str "uploading" || isTerminalPhase phase

def phaseKey (phase : Str) : Option Str :=
  if phase = str "converting" then some (str "progress-converting")
  else if phase = str "uploading" then some (str "progress-uploading")
  else if phase = str "done" then some (str "progress-done")
  else if phase = str "failed" then some (str "progress-failed")
  else none

/-- A phase field that is no string reads as downloading. -/
def phaseName : Json → Str
  | .string s => s
  | _ => str "downloading"

def phaseOf (payload : Json) : Except Exc Str := do
  let phase ← get payload "phase"
  .ok (phaseName phase)

/-- `f"{speed / (1024 * 1024):.1f} {unit}" if speed else "?"`. -/
def speedText (speed : Json) (unit : Str) : Except Exc Str :=
  if truthy speed then do
    let perSecond ← megabytes speed
    .ok (fixed1 ((number? speed).any (·.isNegative)) perSecond ++ str " " ++ unit)
  else .ok (str "?")

/-- `locale == "ru"`. -/
def isRussian : Json → Bool
  | .string s => s = str "ru"
  | _ => false

def formatText (l : Listener) (payload : Json) : Except Exc Str := do
  let language ← get payload "language"
  let locale := if truthy language then language else .string l.defaultLocale
  let phase ← phaseOf payload
  match phaseKey phase with
  | some key => .ok (l.text key locale [])
  | none =>
    let percent ← get payload "percent"
    if !isNull percent then do
      let rounded ← roundInt percent
      .ok (l.text (str "progress-downloading") locale [.percent rounded])
    else do
      let bytes ← get payload "downloaded_bytes"
      let downloadedMb ← megabytes (if truthy bytes then bytes else .int 0)
      let speed ← get payload "speed"
      let unit := if isRussian locale then str "МБ/с" else str "MB/s"
      let speedStr ← speedText speed unit
      .ok (l.text (str "progress-downloading-nostream") locale
        [.mb (round1 downloadedMb), .speed speedStr])

/-- `_edit_message`: every bad request is logged or ignored. -/
def editMessage (outcome : Except TelegramError Unit) : Except Exc Unit :=
  match outcome with
  | .ok () => .ok ()
  | .error (.badRequest _) => .ok ()
  | .error e => .error e.toExc

/-- `_handle_message` after the throttle. -/
def render (l : Listener) (payload : Json) (m : PMessage) : Except Exc (Option Edit) := do
  let chatId ← get payload "chat_id"
  let messageId ← get payload "message_id"
  if isNull chatId || isNull messageId then .ok none
  else do
    let text ← formatText l payload
    editMessage m.edit
    .ok (some ⟨chatId, messageId, text⟩)

/-- Caught by `except (TypeError, ValueError)` around `json.loads`. -/
def isBadPayload : Exc → Bool
  | .other name => name = str "TypeError" || name = str "ValueError" ||
      name = str "JSONDecodeError" || name = str "UnicodeDecodeError"
  | _ => false

/-- `_handle_message`: the throttler it leaves and the edit it made. -/
def handleMessage (l : Listener) (t : Throttler) (m : PMessage) :
    Except Exc (Throttler × Option Edit) :=
  match m.channel with
  | none => .error (.other (str "UnicodeDecodeError"))
  | some key =>
    match m.loads with
    | .error e => if isBadPayload e then .ok (t, none) else .error e
    | .ok payload => do
      let phase ← phaseOf payload
      if isTerminalPhase phase then do
        let edit ← render l payload m
        .ok (t.discard key, edit)
      else if isOneShotPhase phase then do
        let edit ← render l payload m
        .ok (t, edit)
      else do
        let percent ← get payload "percent"
        let (t, emit) ← t.shouldEmit key percent m.now
        if emit then do
          let edit ← render l payload m
          .ok (t, edit)
        else .ok (t, none)

/-- `run` on the messages `listen()` yields: the edits made and how it ended. -/
def run (l : Listener) (t : Throttler) : List PMessage → List Edit × Except Exc Unit
  | [] => ([], .ok ())
  | m :: ms =>
    match handleMessage l t m with
    | .ok (t, edit) => (edit.toList ++ (run l t ms).1, (run l t ms).2)
    | .error e => ([], .error e)

/-! ## What is survived -/

/-- Numbers that `-` takes: beside a `float` an `int` must fit into one. -/
def Subtractable (a b : Json) : Prop :=
  ∃ x y, number? a = some x ∧ number? b = some y ∧ (x.sub y).isSome

/-- `round` takes it: a number, and neither infinite nor NaN. -/
def Roundable (value : Json) : Prop :=
  (∃ n, number? value = some (.int n)) ∨ ∃ q, number? value = some (.float (.finite q))

/-- Division takes it: a number that fits into a `float`. -/
def Divisible (value : Json) : Prop :=
  ∃ x, number? value = some x ∧ (x.scaleDown (1024 * 1024)).isSome

namespace Throttler

def tooSoon (t : Throttler) (state : ThrottleState) (now : PyFloat) : Bool :=
  (now.sub state.lastTs).lt t.minIntervalSeconds

def tooClose (t : Throttler) (a b : Json) : Bool :=
  match number? a, number? b with
  | some x, some y => (x.sub y).any (·.absLt t.minPercentStep)
  | _, _ => false

/-- The event passes the throttle. -/
def emits (t : Throttler) (key : Str) (percent : Json) (now : PyFloat) : Bool :=
  match dictGet key t.state with
  | none => true
  | some state =>
    !t.tooSoon state now &&
      (isNull percent || isNull state.lastPercent || !t.tooClose percent state.lastPercent)

/-- Where percentages are compared they can be subtracted. -/
def Comparable (t : Throttler) (key : Str) (percent : Json) (now : PyFloat) : Prop :=
  ∀ state, dictGet key t.state = some state → t.tooSoon state now = false →
    isNull percent = false → isNull state.lastPercent = false →
    Subtractable percent state.lastPercent

end Throttler

def phaseIn (fields : List (Str × Json)) : Str := phaseName (field "phase" fields)

/-- The text of the event can be built. -/
def Renderable (fields : List (Str × Json)) : Prop :=
  phaseKey (phaseIn fields) = none →
    if isNull (field "percent" fields) then
      (truthy (field "downloaded_bytes" fields) = true →
        Divisible (field "downloaded_bytes" fields)) ∧
      (truthy (field "speed" fields) = true → Divisible (field "speed" fields))
    else Roundable (field "percent" fields)

/-- The event says which card to edit. -/
def Addressed (fields : List (Str × Json)) : Prop :=
  isNull (field "chat_id" fields) = false ∧ isNull (field "message_id" fields) = false

/-- The edit went through, or Telegram called it a bad request. -/
def Tolerated (outcome : Except TelegramError Unit) : Prop :=
  outcome = .ok () ∨ ∃ message, outcome = .error (.badRequest message)

/-- The event reaches its card. -/
def Shown (t : Throttler) (key : Str) (fields : List (Str × Json)) (now : PyFloat) : Prop :=
  isOneShotPhase (phaseIn fields) = true ∨ t.emits key (field "percent" fields) now = true

/-- What the listener asks of a message, in the throttler state it meets. -/
inductive Survives (t : Throttler) (m : PMessage) : Prop
  | badPayload {key : Str} {e : Exc} (channel : m.channel = some key) (loads : m.loads = .error e)
      (caught : isBadPayload e = true)
  | event {key : Str} {fields : List (Str × Json)} (channel : m.channel = some key)
      (loads : m.loads = .ok (.object fields))
      (comparable : isOneShotPhase (phaseIn fields) = false →
        t.Comparable key (field "percent" fields) m.now)
      (rendered : Shown t key fields m.now → Addressed fields →
        Renderable fields ∧ Tolerated m.edit)

/-- The throttler after a message. -/
def Throttler.after (t : Throttler) (m : PMessage) : Throttler :=
  match m.channel, m.loads with
  | some key, .ok (.object fields) =>
    if isTerminalPhase (phaseIn fields) then t.discard key
    else if isOneShotPhase (phaseIn fields) then t
    else if t.emits key (field "percent" fields) m.now then
      t.record key (field "percent" fields) m.now
    else t
  | _, _ => t

/-- Every message is survived in the state the messages before it leave. -/
def AllSurvive (t : Throttler) : List PMessage → Prop
  | [] => True
  | m :: ms => Survives t m ∧ AllSurvive (t.after m) ms

/-! ## Arithmetic -/

theorem minus_ok_iff (a b : Json) : (∃ z, minus a b = .ok z) ↔ Subtractable a b := by
  simp only [minus, Subtractable]
  cases ha : number? a with
  | none => simp
  | some x =>
    cases hb : number? b with
    | none => simp
    | some y => cases hxy : x.sub y <;> simp [hxy]

theorem megabytes_ok_iff (value : Json) : (∃ q, megabytes value = .ok q) ↔ Divisible value := by
  simp only [megabytes, Divisible]
  cases hv : number? value with
  | none => simp
  | some x => cases hx : x.scaleDown (1024 * 1024) <;> simp [hx]

theorem roundInt_ok_iff (value : Json) : (∃ n, roundInt value = .ok n) ↔ Roundable value := by
  simp only [roundInt, Roundable]
  cases hv : number? value with
  | none => simp
  | some x =>
    cases x with
    | int n => simp
    | float x => cases x <;> simp

theorem divisible_zero : Divisible (.int 0) := ⟨.int 0, rfl, by decide +kernel⟩

/-! ## The throttle -/

namespace Throttler

theorem tooClose_eq {t : Throttler} {a b : Json} {z : PyNumber} (h : minus a b = .ok z) :
    t.tooClose a b = z.absLt t.minPercentStep := by
  unfold minus at h
  unfold tooClose
  cases ha : number? a with
  | none => simp [ha] at h
  | some x =>
    cases hb : number? b with
    | none => simp [ha, hb] at h
    | some y =>
      simp only [ha, hb] at h ⊢
      cases hxy : x.sub y with
      | none => simp [hxy] at h
      | some z' =>
        simp only [hxy, Except.ok.injEq] at h
        simp [h]

theorem shouldEmit_ok {t : Throttler} {key : Str} {percent : Json} {now : PyFloat}
    (h : t.Comparable key percent now) :
    t.shouldEmit key percent now =
      .ok (if t.emits key percent now then t.record key percent now else t,
        t.emits key percent now) := by
  unfold shouldEmit emits
  cases hs : dictGet key t.state with
  | none => rfl
  | some state =>
    cases hsoon : t.tooSoon state now with
    | true =>
      have hlt : (now.sub state.lastTs).lt t.minIntervalSeconds = true := hsoon
      simp [hsoon, hlt]
    | false =>
      have hlt : (now.sub state.lastTs).lt t.minIntervalSeconds = false := hsoon
      cases hp : isNull percent with
      | true => simp [hsoon, hlt]
      | false =>
        cases hl : isNull state.lastPercent with
        | true => simp [hsoon, hlt, hl]
        | false =>
          obtain ⟨z, hz⟩ := (minus_ok_iff _ _).mpr (h state hs hsoon hp hl)
          have hclose := tooClose_eq (t := t) hz
          cases hc : z.absLt t.minPercentStep <;> simp [hsoon, hlt, hl, hz, hclose, hc]

theorem comparable_of_ok {t : Throttler} {key : Str} {percent : Json} {now : PyFloat}
    {r : Throttler × Bool} (h : t.shouldEmit key percent now = .ok r) :
    t.Comparable key percent now := by
  intro state hs hsoon hp hl
  have hlt : (now.sub state.lastTs).lt t.minIntervalSeconds = false := hsoon
  simp only [shouldEmit, hs, hlt, hp, hl, Bool.or_false, Bool.false_eq_true, if_false] at h
  obtain ⟨z, hz, -⟩ := bind_eq_ok.mp h
  exact (minus_ok_iff _ _).mp ⟨z, hz⟩

end Throttler

/-! ## One message -/

theorem speedText_ok_iff (speed : Json) (unit : Str) :
    (∃ text, speedText speed unit = .ok text) ↔ (truthy speed = true → Divisible speed) := by
  rw [← megabytes_ok_iff]
  unfold speedText
  cases ht : truthy speed with
  | false => simp
  | true =>
    constructor
    · rintro ⟨text, h⟩ -
      obtain ⟨q, hq, -⟩ := bind_eq_ok.mp h
      exact ⟨q, hq⟩
    · intro h
      obtain ⟨q, hq⟩ := h rfl
      simp [hq]

theorem formatText_ok_iff (l : Listener) (fields : List (Str × Json)) :
    (∃ text, formatText l (.object fields) = .ok text) ↔ Renderable fields := by
  unfold formatText Renderable
  simp only [get, phaseOf, ok_bind, phaseIn]
  cases hk : phaseKey (phaseName (field "phase" fields)) with
  | some key => simp
  | none =>
    cases hp : isNull (field "percent" fields) with
    | false =>
      simp only [Bool.not_false, if_true, Bool.false_eq_true, if_false, forall_const,
        ← roundInt_ok_iff]
      constructor
      · rintro ⟨text, h⟩
        obtain ⟨n, hn, -⟩ := bind_eq_ok.mp h
        exact ⟨n, hn⟩
      · rintro ⟨n, hn⟩
        simp [hn]
    | true =>
      simp only [Bool.not_true, Bool.false_eq_true, if_false, if_true, forall_const]
      constructor
      · rintro ⟨text, h⟩
        obtain ⟨q, hq, h⟩ := bind_eq_ok.mp h
        obtain ⟨speedStr, hspeed, -⟩ := bind_eq_ok.mp h
        refine ⟨fun ht => ?_, (speedText_ok_iff _ _).mp ⟨speedStr, hspeed⟩⟩
        rw [if_pos ht] at hq
        exact (megabytes_ok_iff _).mp ⟨q, hq⟩
      · rintro ⟨hbytes, hspeed⟩
        have hdiv : Divisible (if truthy (field "downloaded_bytes" fields) = true then
            field "downloaded_bytes" fields else .int 0) := by
          split
          · exact hbytes ‹_›
          · exact divisible_zero
        obtain ⟨q, hq⟩ := (megabytes_ok_iff _).mpr hdiv
        obtain ⟨text, htext⟩ := (speedText_ok_iff _ _).mpr hspeed
        exact ⟨_, bind_eq_ok.mpr ⟨q, hq, bind_eq_ok.mpr ⟨text, htext, rfl⟩⟩⟩

theorem editMessage_ok_iff (outcome : Except TelegramError Unit) :
    editMessage outcome = .ok () ↔ Tolerated outcome := by
  unfold Tolerated
  cases outcome with
  | ok _ => simp [editMessage]
  | error e => cases e <;> simp [editMessage]

theorem render_ok_iff (l : Listener) (fields : List (Str × Json)) (m : PMessage) :
    (∃ edit, render l (.object fields) m = .ok edit) ↔
      (Addressed fields → Renderable fields ∧ Tolerated m.edit) := by
  unfold render Addressed
  simp only [get, ok_bind]
  rw [← formatText_ok_iff l, ← editMessage_ok_iff]
  cases hc : isNull (field "chat_id" fields) with
  | true => simp
  | false =>
    cases hm : isNull (field "message_id" fields) with
    | true => simp
    | false =>
      simp only [Bool.or_false, Bool.false_eq_true, if_false, and_self, forall_const]
      constructor
      · rintro ⟨edit, h⟩
        obtain ⟨text, htext, h⟩ := bind_eq_ok.mp h
        obtain ⟨u, hu, -⟩ := bind_eq_ok.mp h
        exact ⟨⟨text, htext⟩, hu⟩
      · rintro ⟨⟨text, htext⟩, hu⟩
        exact ⟨_, bind_eq_ok.mpr ⟨text, htext, bind_eq_ok.mpr ⟨(), hu, rfl⟩⟩⟩

theorem isOneShotPhase_of_terminal {phase : Str} (h : isTerminalPhase phase = true) :
    isOneShotPhase phase = true := by simp [isOneShotPhase, h]

/-- `_handle_message` returns on every message that is survived. -/
theorem handleMessage_ok (l : Listener) {t : Throttler} {m : PMessage} (h : Survives t m) :
    ∃ edit, handleMessage l t m = .ok (t.after m, edit) := by
  cases h with
  | badPayload channel loads caught =>
    exact ⟨none, by simp [handleMessage, Throttler.after, channel, loads, caught]⟩
  | @event key fields channel loads comparable rendered =>
    have hphase : phaseOf (.object fields) = .ok (phaseIn fields) := rfl
    simp only [handleMessage, Throttler.after, channel, loads, hphase, ok_bind]
    cases ht : isTerminalPhase (phaseIn fields) with
    | true =>
      have hone := isOneShotPhase_of_terminal ht
      obtain ⟨edit, hedit⟩ := (render_ok_iff l fields m).mpr (rendered (.inl hone))
      exact ⟨edit, by simp [hedit]⟩
    | false =>
      cases hone : isOneShotPhase (phaseIn fields) with
      | true =>
        obtain ⟨edit, hedit⟩ := (render_ok_iff l fields m).mpr (rendered (.inl hone))
        exact ⟨edit, by simp [hedit]⟩
      | false =>
        have hemit := Throttler.shouldEmit_ok (comparable hone)
        cases he : t.emits key (field "percent" fields) m.now with
        | false => exact ⟨none, by simp [get, hemit, he]⟩
        | true =>
          obtain ⟨edit, hedit⟩ := (render_ok_iff l fields m).mpr (rendered (.inr he))
          exact ⟨edit, by simp [get, hemit, he, hedit]⟩

/-- It returns on no other. -/
theorem survives_of_ok {l : Listener} {t : Throttler} {m : PMessage}
    {r : Throttler × Option Edit} (h : handleMessage l t m = .ok r) : Survives t m := by
  unfold handleMessage at h
  cases hc : m.channel with
  | none => simp [hc] at h
  | some key =>
    simp only [hc] at h
    cases hl : m.loads with
    | error e =>
      cases hbad : isBadPayload e with
      | true => exact .badPayload hc hl hbad
      | false => simp [hl, hbad] at h
    | ok payload =>
      simp only [hl] at h
      obtain ⟨phase, hphase, h⟩ := bind_eq_ok.mp h
      cases payload with
      | object fields =>
        have heq : phase = phaseIn fields := by cases hphase; rfl
        rw [heq] at h
        cases ht : isTerminalPhase (phaseIn fields) with
        | true =>
          have hone := isOneShotPhase_of_terminal ht
          simp only [ht, if_true] at h
          obtain ⟨edit, hedit, -⟩ := bind_eq_ok.mp h
          exact .event hc hl (by simp [hone])
            fun _ => (render_ok_iff l fields m).mp ⟨edit, hedit⟩
        | false =>
          cases hone : isOneShotPhase (phaseIn fields) with
          | true =>
            simp only [ht, hone, Bool.false_eq_true, if_false, if_true] at h
            obtain ⟨edit, hedit, -⟩ := bind_eq_ok.mp h
            exact .event hc hl (by simp [hone])
              fun _ => (render_ok_iff l fields m).mp ⟨edit, hedit⟩
          | false =>
            simp only [ht, hone, Bool.false_eq_true, if_false, get, ok_bind] at h
            obtain ⟨r', hr', h⟩ := bind_eq_ok.mp h
            have hcomp := Throttler.comparable_of_ok hr'
            rw [Throttler.shouldEmit_ok hcomp] at hr'
            cases hr'
            refine .event hc hl (fun _ => hcomp) fun hshown => ?_
            have he : t.emits key (field "percent" fields) m.now = true := by
              simpa [Shown, hone] using hshown
            simp only [he, if_true] at h
            obtain ⟨edit, hedit, -⟩ := bind_eq_ok.mp h
            exact (render_ok_iff l fields m).mp ⟨edit, hedit⟩
      | _ => simp [phaseOf, get, attributeError] at hphase

/-- `_handle_message` returns exactly when the message is survived. -/
theorem handleMessage_ok_iff (l : Listener) (t : Throttler) (m : PMessage) :
    (∃ r, handleMessage l t m = .ok r) ↔ Survives t m := by
  constructor
  · rintro ⟨r, h⟩
    exact survives_of_ok h
  · intro h
    obtain ⟨edit, hedit⟩ := handleMessage_ok l h
    exact ⟨_, hedit⟩

/-! ## The loop -/

/-- The loop outlives a sequence of messages exactly when each is survived in the
throttler state it meets. -/
theorem run_survives_iff (l : Listener) (t : Throttler) (ms : List PMessage) :
    (run l t ms).2 = .ok () ↔ AllSurvive t ms := by
  induction ms generalizing t with
  | nil => simp [run, AllSurvive]
  | cons m ms ih =>
    unfold run AllSurvive
    cases h : handleMessage l t m with
    | error e =>
      have hno : ¬ Survives t m := by
        intro hs
        obtain ⟨r, hr⟩ := (handleMessage_ok_iff l t m).mpr hs
        rw [h] at hr
        cases hr
      simp [hno]
    | ok r =>
      have hs := survives_of_ok h
      obtain ⟨edit, hedit⟩ := handleMessage_ok l hs
      rw [h] at hedit
      cases hedit
      simp [hs, ih]

/-- A user who blocked the bot while the job ran: the final edit is forbidden, and
the loop is gone. -/
theorem listener_stopped : ¬ ∀ l t ms, (run l t ms).2 = .ok () := by
  intro h
  have hend := h ⟨fun _ _ _ => [], str "en"⟩ .new
    [⟨some (str "umd:progress:1"),
      .ok (.object [(str "phase", .string (str "done")), (str "chat_id", .int 1),
        (str "message_id", .int 2)]), .finite 0, .error .forbidden⟩]
  simp [run, handleMessage, phaseOf, get, field, Json.lookup, phaseName, render, isNull, formatText,
    phaseKey, isTerminalPhase, truthy, editMessage, str] at hend

end ProgressListener

end MediaDownloader
