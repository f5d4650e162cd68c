import MediaDownloader.Telegram.ProgressListener

/-!
# Throttling, over whole runs

Well-formed events over any channels, one after the other.  A run is read
through its prefixes: what is edited at an event depends on the events before
it, and of those only on the ones of its channel.

* `handleMessage_event`: what the handler does with one event;
* `get?_filter`: the other channels do not matter;
* `get?_none_iff`: a channel has a state while a download is shown on it;
* `get?_between`: the state is the last edited event's;
* `throttled`: so for what is edited.
-/

namespace MediaDownloader

open Interaction

namespace ProgressListener

/-! ## Events -/

/-- `null`, or a number that fits into a `float`. -/
def IsPercent (value : Json) : Prop :=
  isNull value = true ∨ ∃ x q, number? value = some x ∧ x.toFloat = some (.finite q)

/-- A well-formed message on a channel, with its clock and what becomes of the edit. -/
structure ProgressEvent where
  channel : Str
  fields : List (Str × Json)
  now : PyFloat
  edit : Except TelegramError Unit
  percent : IsPercent (field "percent" fields)
  addressed : Addressed fields
  renderable : Renderable fields

namespace ProgressEvent

def message (e : ProgressEvent) : PMessage := ⟨some e.channel, .ok (.object e.fields), e.now, e.edit⟩

def percentField (e : ProgressEvent) : Json := field "percent" e.fields

/-- `done` or `failed`. -/
def isTerminal (e : ProgressEvent) : Bool := isTerminalPhase (phaseIn e.fields)

/-- `converting`, `uploading`, `done` or `failed`. -/
def isOneShot (e : ProgressEvent) : Bool := isOneShotPhase (phaseIn e.fields)

/-- The throttler after the event. -/
def after (t : Throttler) (e : ProgressEvent) : Throttler := t.after e.message

/-- The edit that `_handle_message` calls for, whatever becomes of it. -/
def attempted (l : Listener) (t : Throttler) (e : ProgressEvent) : Option Edit :=
  match handleMessage l t { e.message with edit := .ok () } with
  | .ok (_, edit) => edit
  | .error _ => none

/-- It passes the throttle, or does not have to. -/
def shown (t : Throttler) (e : ProgressEvent) : Bool :=
  e.isOneShot || t.emits e.channel e.percentField e.now

/-- The edit itself. -/
def editCall (l : Listener) (e : ProgressEvent) : Option Edit :=
  match formatText l (.object e.fields) with
  | .ok text => some ⟨field "chat_id" e.fields, field "message_id" e.fields, text⟩
  | .error _ => none

end ProgressEvent

/-- The throttler after the events. -/
def stateAfter (t : Throttler) (es : List ProgressEvent) : Throttler :=
  es.foldl ProgressEvent.after t

theorem stateAfter_snoc (t : Throttler) (es : List ProgressEvent) (e : ProgressEvent) :
    stateAfter t (es ++ [e]) = e.after (stateAfter t es) := by
  simp [stateAfter]

/-! ## One event -/

section Event

variable {t : Throttler} {e : ProgressEvent} {key : Str}

theorem after_params (t : Throttler) (e : ProgressEvent) :
    (e.after t).minIntervalSeconds = t.minIntervalSeconds ∧
      (e.after t).minPercentStep = t.minPercentStep := by
  unfold ProgressEvent.after Throttler.after ProgressEvent.message
  simp only
  split
  · exact ⟨rfl, rfl⟩
  · split
    · exact ⟨rfl, rfl⟩
    · split <;> exact ⟨rfl, rfl⟩

/-- A final event drops its channel. -/
theorem get?_terminal (h : e.isTerminal = true) : dictGet key (e.after t).state =
    if e.channel = key then none else dictGet key t.state := by
  have hphase : isTerminalPhase (phaseIn e.fields) = true := h
  simp only [ProgressEvent.after, Throttler.after, ProgressEvent.message, hphase, if_true]
  exact dictGet_filter key e.channel t.state

/-- Another one-shot event leaves everything. -/
theorem after_oneShot (h : e.isOneShot = true) (hnot : e.isTerminal = false) : e.after t = t := by
  have hphase : isTerminalPhase (phaseIn e.fields) = false := hnot
  have hone : isOneShotPhase (phaseIn e.fields) = true := h
  simp [ProgressEvent.after, Throttler.after, ProgressEvent.message, hphase, hone]

theorem not_terminal (h : e.isOneShot = false) : e.isTerminal = false := by
  cases hphase : e.isTerminal with
  | false => rfl
  | true =>
    have hone : e.isOneShot = true := isOneShotPhase_of_terminal hphase
    rw [h] at hone
    cases hone

/-- A downloading event is recorded when it is shown. -/
theorem after_downloading (h : e.isOneShot = false) : e.after t =
    if e.shown t then t.record e.channel e.percentField e.now else t := by
  have hone : isOneShotPhase (phaseIn e.fields) = false := h
  have hphase : isTerminalPhase (phaseIn e.fields) = false := not_terminal h
  simp only [ProgressEvent.after, Throttler.after, ProgressEvent.message, hphase, hone,
    Bool.false_eq_true, if_false, ProgressEvent.shown, h, Bool.false_or]
  rfl

theorem get?_downloading (h : e.isOneShot = false) : dictGet key (e.after t).state =
    if e.channel = key ∧ e.shown t = true then some ⟨e.percentField, e.now⟩
    else dictGet key t.state := by
  rw [after_downloading h]
  by_cases hshown : e.shown t = true
  · rw [if_pos hshown, Throttler.record, dictGet_dictSet]
    simp only [hshown, and_true]
  · rw [if_neg hshown, if_neg fun hboth => hshown hboth.2]

/-- An event on another channel. -/
theorem get?_other (h : e.channel ≠ key) :
    dictGet key (e.after t).state = dictGet key t.state := by
  cases hterminal : e.isTerminal with
  | true => rw [get?_terminal hterminal, if_neg h]
  | false =>
    cases hone : e.isOneShot with
    | true => rw [after_oneShot hone hterminal]
    | false => rw [get?_downloading hone, if_neg fun hboth => h hboth.1]

end Event

/-! ## What is handled -/

/-- Percentages that have been recorded are percentages. -/
def Sane (t : Throttler) : Prop :=
  ∀ key state, dictGet key t.state = some state → IsPercent state.lastPercent

theorem Sane.after {t : Throttler} (h : Sane t) (e : ProgressEvent) : Sane (e.after t) := by
  intro key state hstate
  by_cases hchannel : e.channel = key
  · cases hone : e.isOneShot with
    | true =>
      cases hterminal : e.isTerminal with
      | true =>
        rw [get?_terminal hterminal, if_pos hchannel] at hstate
        cases hstate
      | false =>
        rw [after_oneShot hone hterminal] at hstate
        exact h key state hstate
    | false =>
      rw [get?_downloading hone] at hstate
      split at hstate
      · cases hstate
        exact e.percent
      · exact h key state hstate
  · rw [get?_other hchannel] at hstate
    exact h key state hstate

theorem subtractable_of_percent {a b : Json} (ha : IsPercent a) (hb : IsPercent b)
    (hna : isNull a = false) (hnb : isNull b = false) : Subtractable a b := by
  rcases ha with ha | ⟨x, p, hx, hxp⟩
  · rw [hna] at ha
    cases ha
  rcases hb with hb | ⟨y, q, hy, hyq⟩
  · rw [hnb] at hb
    cases hb
  refine ⟨x, y, hx, hy, ?_⟩
  cases x with
  | int m =>
    cases y with
    | int n => rfl
    | float y => simp [PyNumber.sub, hxp, hyq]
  | float x => simp [PyNumber.sub, hxp, hyq]

theorem Sane.comparable {t : Throttler} (h : Sane t) (e : ProgressEvent) :
    t.Comparable e.channel (field "percent" e.fields) e.now := by
  intro state hstate _ hnull hlast
  exact subtractable_of_percent e.percent (h e.channel state hstate) hnull hlast

section Handled

variable (l : Listener) {t : Throttler} (e : ProgressEvent)

theorem render_event {m : PMessage} (hm : editMessage m.edit = .ok ()) :
    render l (.object e.fields) m = .ok (e.editCall l) := by
  obtain ⟨text, htext⟩ := (formatText_ok_iff l e.fields).mpr e.renderable
  simp [render, get, e.addressed.1, e.addressed.2, htext, hm, ProgressEvent.editCall]

theorem editCall_isSome : (e.editCall l).isSome = true := by
  obtain ⟨text, htext⟩ := (formatText_ok_iff l e.fields).mpr e.renderable
  simp [ProgressEvent.editCall, htext]

/-- An event with an edit that goes through. -/
theorem handleMessage_event (ht : Sane t) {outcome : Except TelegramError Unit}
    (htolerated : Tolerated outcome) :
    handleMessage l t { e.message with edit := outcome } =
      .ok (e.after t, if e.shown t then e.editCall l else none) := by
  have hrender := render_event l e (m := { e.message with edit := outcome })
    ((editMessage_ok_iff outcome).mpr htolerated)
  have hphase : phaseOf (.object e.fields) = .ok (phaseIn e.fields) := rfl
  simp only [ProgressEvent.message] at hrender
  simp only [handleMessage, ProgressEvent.message, hphase, ok_bind, hrender, ProgressEvent.after,
    Throttler.after]
  cases hterminal : isTerminalPhase (phaseIn e.fields) with
  | true =>
    have hone := isOneShotPhase_of_terminal hterminal
    simp [ProgressEvent.shown, ProgressEvent.isOneShot, hone]
  | false =>
    cases hone : isOneShotPhase (phaseIn e.fields) with
    | true => simp [ProgressEvent.shown, ProgressEvent.isOneShot, hone]
    | false =>
      have hemit := Throttler.shouldEmit_ok (ht.comparable e)
      simp only [Bool.false_eq_true, if_false, get, ok_bind, hemit, ProgressEvent.shown,
        ProgressEvent.isOneShot, hone, Bool.false_or, ProgressEvent.percentField]
      by_cases he : t.emits e.channel (field "percent" e.fields) e.now = true <;> simp [he]

theorem attempted_eq (ht : Sane t) :
    e.attempted l t = if e.shown t then e.editCall l else none := by
  have hhandled := handleMessage_event l e ht (.inl rfl : Tolerated (.ok ()))
  simp only [ProgressEvent.attempted, hhandled]

theorem attempted_isSome (ht : Sane t) : (e.attempted l t).isSome = e.shown t := by
  rw [attempted_eq l e ht]
  cases e.shown t with
  | false => rfl
  | true => exact editCall_isSome l e

end Handled

/-! ## Runs -/

/-- A listener's throttler at its start. -/
def fresh (interval step : Rat) : Throttler := ⟨interval, step, []⟩

/-- A downloading event of the channel came after its last final one. -/
def Live (key : Str) (es : List ProgressEvent) : Prop :=
  ∃ before e rest, es = before ++ e :: rest ∧ e.channel = key ∧ e.isOneShot = false ∧
    ∀ x ∈ rest, x.channel = key → x.isTerminal = false

theorem live_snoc (key : Str) (es : List ProgressEvent) (e : ProgressEvent) :
    Live key (es ++ [e]) ↔ (e.channel = key ∧ e.isOneShot = false) ∨
      (Live key es ∧ (e.channel = key → e.isTerminal = false)) := by
  constructor
  · rintro ⟨before, x, rest, hsplit, hchannel, hone, hrest⟩
    rcases rest.eq_nil_or_concat' with rfl | ⟨rest, y, rfl⟩
    · obtain ⟨-, hlast⟩ := List.append_inj' hsplit rfl
      cases hlast
      exact .inl ⟨hchannel, hone⟩
    · have hassoc : es ++ [e] = (before ++ x :: rest) ++ [y] := by simpa using hsplit
      obtain ⟨hes, hlast⟩ := List.append_inj' hassoc rfl
      cases hlast
      refine .inr ⟨⟨before, x, rest, hes, hchannel, hone, fun z hz => hrest z ?_⟩, hrest e ?_⟩
      · exact List.mem_append_left _ hz
      · exact List.mem_append_right _ List.mem_cons_self
  · rintro (⟨hchannel, hone⟩ | ⟨⟨before, x, rest, rfl, hchannel, hone, hrest⟩, he⟩)
    · exact ⟨es, e, [], rfl, hchannel, hone, fun x hx => by cases hx⟩
    · refine ⟨before, x, rest ++ [e], by simp, hchannel, hone, fun z hz => ?_⟩
      rcases List.mem_append.mp hz with hz | hz
      · exact hrest z hz
      · rw [List.mem_singleton.mp hz]
        exact he

section Run

variable (t₀ : Throttler)

theorem stateAfter_params (es : List ProgressEvent) :
    (stateAfter t₀ es).minIntervalSeconds = t₀.minIntervalSeconds ∧
      (stateAfter t₀ es).minPercentStep = t₀.minPercentStep := by
  induction es using List.reverseRecOn with
  | nil => exact ⟨rfl, rfl⟩
  | append_singleton es e ih =>
    rw [stateAfter_snoc]
    have hstep := after_params (stateAfter t₀ es) e
    exact ⟨hstep.1.trans ih.1, hstep.2.trans ih.2⟩

theorem Sane.stateAfter {t : Throttler} (h : Sane t) (es : List ProgressEvent) :
    Sane (ProgressListener.stateAfter t es) := by
  induction es using List.reverseRecOn with
  | nil => exact h
  | append_singleton es e ih =>
    rw [stateAfter_snoc]
    exact ih.after e

theorem sane_fresh (interval step : Rat) : Sane (fresh interval step) := by
  intro key state h
  cases h

/-- What is shown depends on the state of the event's own channel. -/
theorem shown_congr {t t' : Throttler} {e : ProgressEvent}
    (hinterval : t.minIntervalSeconds = t'.minIntervalSeconds)
    (hstep : t.minPercentStep = t'.minPercentStep)
    (hstate : dictGet e.channel t.state = dictGet e.channel t'.state) :
    e.shown t = e.shown t' := by
  unfold ProgressEvent.shown Throttler.emits Throttler.tooSoon Throttler.tooClose
  rw [hinterval, hstep, hstate]

/-- The other channels do not matter to the state of one. -/
theorem get?_filter (key : Str) (es : List ProgressEvent) :
    dictGet key (stateAfter t₀ es).state =
      dictGet key (stateAfter t₀ (es.filter fun x => x.channel = key)).state := by
  induction es using List.reverseRecOn with
  | nil => rfl
  | append_singleton es e ih =>
    rw [stateAfter_snoc, List.filter_append]
    by_cases hchannel : e.channel = key
    · rw [List.filter_cons_of_pos (by simpa using hchannel), List.filter_nil, stateAfter_snoc]
      have hparams := stateAfter_params t₀ es
      have hparams' := stateAfter_params t₀ (es.filter fun x => x.channel = key)
      have hshown := shown_congr (e := e) (hparams.1.trans hparams'.1.symm)
        (hparams.2.trans hparams'.2.symm) (hchannel ▸ ih)
      cases hone : e.isOneShot with
      | true =>
        cases hterminal : e.isTerminal with
        | true => rw [get?_terminal hterminal, get?_terminal hterminal, ih]
        | false => rw [after_oneShot hone hterminal, after_oneShot hone hterminal, ih]
      | false => rw [get?_downloading hone, get?_downloading hone, hshown, ih]
    · rw [get?_other hchannel, List.filter_cons_of_neg (by simpa using hchannel), List.filter_nil,
        List.append_nil, ih]

/-- A channel has a state while a download is shown on it. -/
theorem get?_none_iff (interval step : Rat) (key : Str) (es : List ProgressEvent) :
    dictGet key (stateAfter (fresh interval step) es).state = none ↔ ¬ Live key es := by
  induction es using List.reverseRecOn with
  | nil =>
    refine ⟨fun _ hlive => ?_, fun _ => rfl⟩
    obtain ⟨before, e, rest, hsplit, -⟩ := hlive
    simp at hsplit
  | append_singleton es e ih =>
    rw [stateAfter_snoc, live_snoc]
    by_cases hchannel : e.channel = key
    · cases hone : e.isOneShot with
      | true =>
        cases hterminal : e.isTerminal with
        | true => simp [get?_terminal hterminal, hchannel]
        | false => simp [after_oneShot hone hterminal, ih]
      | false =>
        rw [get?_downloading hone]
        cases hshown : e.shown (stateAfter (fresh interval step) es) with
        | true => simp [hchannel]
        | false =>
          have hstate : dictGet key (stateAfter (fresh interval step) es).state ≠ none := by
            intro hnone
            rw [ProgressEvent.shown, Throttler.emits, hchannel, hnone, Bool.or_true] at hshown
            cases hshown
          simp [hchannel, hstate]
    · rw [get?_other hchannel, ih]
      simp [hchannel]

end Run

/-! ## What is edited -/

/-- The event that comes after the events `before` is edited. -/
def Edited (l : Listener) (t₀ : Throttler) (before : List ProgressEvent) (e : ProgressEvent) :
    Prop :=
  (e.attempted l (stateAfter t₀ before)).isSome = true

/-- At least `min_interval_seconds` after, as the listener computes it. -/
def LongAfter (t₀ : Throttler) (e p : ProgressEvent) : Prop :=
  (e.now.sub p.now).lt t₀.minIntervalSeconds = false

/-- At least `min_percent_step` apart, if both have a percentage. -/
def FarFrom (t₀ : Throttler) (e p : ProgressEvent) : Prop :=
  isNull e.percentField = false → isNull p.percentField = false →
    ∃ x y z, number? e.percentField = some x ∧ number? p.percentField = some y ∧
      x.sub y = some z ∧ z.absLt t₀.minPercentStep = false

/-- `p` is the last edited downloading event of the channel when the downloading
event `e` comes, and no final one came between them. -/
structure LastEdited (l : Listener) (t₀ : Throttler) (before : List ProgressEvent)
    (p : ProgressEvent) (between : List ProgressEvent) (e : ProgressEvent) : Prop where
  channel : p.channel = e.channel
  last : p.isOneShot = false
  downloading : e.isOneShot = false
  edited : Edited l t₀ before p
  notFinal : ∀ x ∈ between, x.channel = e.channel → x.isTerminal = false
  notEdited : ∀ u x v, between = u ++ x :: v → x.channel = e.channel → x.isOneShot = false →
    ¬ Edited l t₀ (before ++ p :: u) x

/-- The rules of the throttle, on a run. -/
structure Throttled (l : Listener) (t₀ : Throttler) (es : List ProgressEvent) : Prop where
  /-- Unless the edit itself fails, the handler returns and has made it. -/
  handled : ∀ before e rest, es = before ++ e :: rest → Tolerated e.edit →
    handleMessage l (stateAfter t₀ before) e.message =
      .ok (stateAfter t₀ (before ++ [e]), e.attempted l (stateAfter t₀ before))
  transition : ∀ before e rest, es = before ++ e :: rest → e.isOneShot = true →
    Edited l t₀ before e
  first : ∀ before e rest, es = before ++ e :: rest → e.isOneShot = false →
    ¬ Live e.channel before → Edited l t₀ before e
  next : ∀ before p between e rest, es = before ++ p :: between ++ e :: rest →
    LastEdited l t₀ before p between e →
      (Edited l t₀ (before ++ p :: between) e ↔ LongAfter t₀ e p ∧ FarFrom t₀ e p)
  independent : ∀ before e rest, es = before ++ e :: rest →
    e.attempted l (stateAfter t₀ before) =
      e.attempted l (stateAfter t₀ (before.filter fun x => x.channel = e.channel))
  keys : ∀ before rest, es = before ++ rest → ∀ key,
    key ∈ (stateAfter t₀ before).state.map Prod.fst ↔ Live key before

section Throttle

variable (l : Listener) {t₀ : Throttler}

theorem edited_iff (h : Sane t₀) (before : List ProgressEvent) (e : ProgressEvent) :
    Edited l t₀ before e ↔ e.shown (stateAfter t₀ before) = true := by
  rw [Edited, attempted_isSome l e (h.stateAfter before)]

/-- From an edited event on, the channel's state is that event's. -/
theorem get?_between (h : Sane t₀) {before : List ProgressEvent} {p : ProgressEvent}
    (hp : p.isOneShot = false) (hedited : Edited l t₀ before p) (between : List ProgressEvent)
    (hfinal : ∀ x ∈ between, x.channel = p.channel → x.isTerminal = false)
    (hnot : ∀ u x v, between = u ++ x :: v → x.channel = p.channel → x.isOneShot = false →
      ¬ Edited l t₀ (before ++ p :: u) x) :
    dictGet p.channel (stateAfter t₀ (before ++ p :: between)).state =
      some ⟨p.percentField, p.now⟩ := by
  induction between using List.reverseRecOn with
  | nil =>
    have hshown := (edited_iff l h before p).mp hedited
    rw [stateAfter_snoc, get?_downloading hp, if_pos ⟨rfl, hshown⟩]
  | append_singleton between x ih =>
    have hbefore := ih (fun y hy => hfinal y (List.mem_append_left _ hy))
      fun u y v hsplit => hnot u y (v ++ [x]) (by simp [hsplit])
    have hassoc : before ++ p :: (between ++ [x]) = (before ++ p :: between) ++ [x] := by simp
    rw [hassoc, stateAfter_snoc]
    by_cases hchannel : x.channel = p.channel
    · have hterminal := hfinal x (by simp) hchannel
      cases hone : x.isOneShot with
      | true => rw [after_oneShot hone hterminal, hbefore]
      | false =>
        have hunedited := hnot between x [] rfl hchannel hone
        rw [edited_iff l h] at hunedited
        rw [get?_downloading hone, if_neg fun hboth => hunedited hboth.2, hbefore]
    · rw [get?_other hchannel, hbefore]

/-- What the throttle asks of an event, against the one it remembers. -/
theorem shown_iff {before : List ProgressEvent} {e p : ProgressEvent}
    (he : e.isOneShot = false)
    (hstate : dictGet e.channel (stateAfter t₀ before).state = some ⟨p.percentField, p.now⟩) :
    e.shown (stateAfter t₀ before) = true ↔ LongAfter t₀ e p ∧ FarFrom t₀ e p := by
  have hparams := stateAfter_params t₀ before
  have hshown : e.shown (stateAfter t₀ before) = true ↔ LongAfter t₀ e p ∧
      (isNull e.percentField = true ∨ isNull p.percentField = true ∨
        (stateAfter t₀ before).tooClose e.percentField p.percentField = false) := by
    simp [ProgressEvent.shown, he, Throttler.emits, hstate, Throttler.tooSoon, hparams.1, LongAfter,
      or_assoc]
  rw [hshown]
  refine and_congr_right fun _ => ?_
  cases hnull : isNull e.percentField with
  | true => simp [FarFrom, hnull]
  | false =>
    cases hlast : isNull p.percentField with
    | true => simp [FarFrom, hlast]
    | false =>
      obtain ⟨x, y, hx, hy, hsub⟩ := subtractable_of_percent e.percent p.percent hnull hlast
      obtain ⟨z, hz⟩ := Option.isSome_iff_exists.mp hsub
      have hx' : number? e.percentField = some x := hx
      have hy' : number? p.percentField = some y := hy
      simp [FarFrom, hnull, hlast, Throttler.tooClose, hx', hy', hz, hparams.2]

/-- Every run of well-formed events, from a fresh listener, keeps the rules. -/
theorem throttled (l : Listener) (interval step : Rat) (es : List ProgressEvent) :
    Throttled l (fresh interval step) es where
  handled before e rest _ htolerated := by
    have hsane := (sane_fresh interval step).stateAfter before
    rw [attempted_eq l e hsane, stateAfter_snoc]
    exact handleMessage_event l e hsane htolerated
  transition before e rest _ hone := by
    rw [edited_iff l (sane_fresh interval step), ProgressEvent.shown, hone, Bool.true_or]
  first before e rest _ hdownloading hlive := by
    have hnone := (get?_none_iff interval step e.channel before).mpr hlive
    rw [edited_iff l (sane_fresh interval step), ProgressEvent.shown, Throttler.emits, hnone,
      Bool.or_true]
  next before p between e rest _ hlast := by
    have hsane := sane_fresh interval step
    have hstate := get?_between l hsane hlast.last hlast.edited between
      (fun x hx hchannel => hlast.notFinal x hx (hchannel.trans hlast.channel))
      fun u x v hsplit hchannel => hlast.notEdited u x v hsplit (hchannel.trans hlast.channel)
    rw [hlast.channel] at hstate
    rw [edited_iff l hsane, shown_iff hlast.downloading hstate]
  independent before e rest _ := by
    have hsane := sane_fresh interval step
    have hparams := stateAfter_params (fresh interval step) before
    have hparams' := stateAfter_params (fresh interval step)
      (before.filter fun x => x.channel = e.channel)
    rw [attempted_eq l e (hsane.stateAfter _), attempted_eq l e (hsane.stateAfter _),
      shown_congr (hparams.1.trans hparams'.1.symm) (hparams.2.trans hparams'.2.symm)
        (get?_filter _ e.channel before)]
  keys before rest _ key := by
    rw [mem_keys_iff, ne_eq, get?_none_iff, not_not]

end Throttle

/-! ## Two cards -/

namespace TwoCards

/-- A message of the job that shows on card `id`. -/
def fields (id : Int) (phase : String) (percent : Json) : List (Str × Json) :=
  [(str "phase", .string (str phase)), (str "percent", percent), (str "chat_id", .int id),
    (str "message_id", .int id)]

/-- A downloading event with a percentage. -/
def downloading (id : Int) (percent : Rat) (now : Rat) : ProgressEvent where
  channel := intStr id
  fields := fields id "downloading" (.float (.finite percent))
  now := .finite now
  edit := .ok ()
  percent := .inr ⟨_, percent, rfl, rfl⟩
  addressed := ⟨rfl, rfl⟩
  renderable := fun _ => .inr ⟨percent, rfl⟩

def done (id : Int) (now : Rat) : ProgressEvent where
  channel := intStr id
  fields := fields id "done" .null
  now := .finite now
  edit := .ok ()
  percent := .inl rfl
  addressed := ⟨rfl, rfl⟩
  renderable := fun h => by cases h

/-- Two downloads: the first one's second event comes too soon, its last event is final. -/
def events : List ProgressEvent :=
  [downloading 1 10 0, downloading 2 10 1, downloading 1 20 2, downloading 2 20 4, done 1 4]

def listener : Listener := ⟨fun key _ _ => key, str "en"⟩

/-- Whether the event after the first `n` is edited. -/
def edited (n : Nat) (e : ProgressEvent) : Bool :=
  (e.attempted listener (stateAfter (fresh 3 5) (events.take n))).isSome

end TwoCards

/-- Of the five events only the one that comes too soon is not edited, and in the end
only the second card is remembered. -/
theorem throttled_two_cards : Throttled TwoCards.listener (fresh 3 5) TwoCards.events ∧
    TwoCards.events.mapIdx TwoCards.edited = [true, true, false, true, true] ∧
    (stateAfter (fresh 3 5) TwoCards.events).state.map Prod.fst = [intStr 2] :=
  ⟨throttled TwoCards.listener 3 5 TwoCards.events, by decide +kernel, by decide +kernel⟩

end ProgressListener

end MediaDownloader
