import Mathlib.Algebra.Order.Ring.Rat
import Mathlib.Tactic.Linarith
import MediaDownloader.Infrastructure.TelegramNotifier

/-!
# The facts a delivery needs

`_media_facts` in the child: yt-dlp's final info first, `ffprobe` for what it
lacks.  How `float` reads a text is a parameter.

* `roundHalfEven_pos_iff`: a positive number rounds to at least 1 exactly above a half;
* `mediaFacts_faithful_iff`: so the facts are positive or unknown, and info's word
  wins, exactly when no number of at most a half gets through;
* `mediaFacts_not_faithful`: a clip of 3/8 seconds.
-/

namespace MediaDownloader

open Interaction

/-! ## The source -/

/-- yt-dlp's final info dict, as far as it is read here; `null` is a missing key. -/
structure FinalInfo where
  width : Json
  height : Json
  duration : Json
  title : Option Str
  artist : Option Str
  uploader : Option Str
  channel : Option Str

def FinalInfo.empty : FinalInfo := ⟨.null, .null, .null, none, none, none, none⟩

/-- An entry of ffprobe's `streams`. -/
structure ProbeStream where
  codecType : Option Str
  width : Json
  height : Json

/-- What the `ffprobe` call gave: nothing, or its `streams` and the duration of
its `format`. -/
inductive ProbeRun where
  | failed
  | printed (streams : List ProbeStream) (duration : Json)

/-- The one effect of the child here: `ffprobe` on a file. -/
structure Ffprobe where
  filename : Str

abbrev ProbeAct := Act Ffprobe (fun _ => ProbeRun) Exc

/-- `_positive_int`. -/
def positiveInt : Json → Except Exc (Option Int)
  | .int n => .ok (if n ≤ 0 then none else some n)
  | .float (.finite q) => .ok (if q ≤ 0 then none else some (roundHalfEven q))
  | .float .negInf => .ok none
  -- `round` of an infinity or a NaN, neither of which is `<= 0`.
  | .float .posInf => .error (.other (str "OverflowError"))
  | .float .nan => .error Exc.valueError
  | _ => .ok none

/-- `float(value)`. -/
def pyFloat (parse : Str → Option PyFloat) : Json → Except Exc PyFloat
  | .bool b => .ok (.finite (if b then 1 else 0))
  | .int n =>
    match (PyNumber.int n).toFloat with
    | some x => .ok x
    | none => .error (.other (str "OverflowError"))
  | .float x => .ok x
  | .string s =>
    match parse s with
    | some x => .ok x
    | none => .error Exc.valueError
  | _ => .error (.other (str "TypeError"))

/-- `_ffprobe_facts` without the keys that are not there. -/
structure ProbeFacts where
  width : Option Int
  height : Option Int
  duration : Option Int

/-- `next(..)` over the streams, with `{}` as default. -/
def videoStream (streams : List ProbeStream) : ProbeStream :=
  (streams.find? fun st => st.codecType = some (str "video")).getD ⟨none, .null, .null⟩

/-- The duration of the format; what `float` cannot read is `0.0`. -/
def probeDuration (parse : Str → Option PyFloat) (duration : Json) : Except Exc PyFloat :=
  match pyFloat parse duration with
  | .ok x => .ok x
  | .error e =>
    if e = Exc.valueError ∨ e = .other (str "TypeError") then .ok (.finite 0) else .error e

def readProbe (parse : Str → Option PyFloat) : ProbeRun → Except Exc ProbeFacts
  | .failed => .ok ⟨none, none, none⟩
  | .printed streams duration => do
    let width ← positiveInt (videoStream streams).width
    let height ← positiveInt (videoStream streams).height
    let seconds ← probeDuration parse duration
    let duration ← positiveInt (.float seconds)
    .ok ⟨width, height, duration⟩

/-- `_ffprobe_facts`. -/
def ffprobeFacts (parse : Str → Option PyFloat) (filename : Str) : ProbeAct ProbeFacts := do
  let run ← Act.port (Ffprobe.mk filename)
  Act.lift (readProbe parse run)

/-- `x or y` on numbers that may be missing. -/
def pyOr (x y : Option Int) : Option Int :=
  match x with
  | none => y
  | some n => if n = 0 then y else some n

/-- `x or y` on texts that may be missing. -/
def textOr (x y : Option Str) : Option Str :=
  match x with
  | none => y
  | some s => if s.isEmpty then y else some s

/-- The dict that `_media_facts` returns. -/
structure MediaFacts where
  path : Str
  width : Option Int
  height : Option Int
  durationSeconds : Option Int
  title : Option Str
  uploader : Option Str
  deriving DecidableEq

/-- The dict with the numbers found. -/
def describeMedia (info : FinalInfo) (filename : Str) (width height duration : Option Int) :
    MediaFacts :=
  { path := filename
    width := width
    height := height
    durationSeconds := duration
    title := textOr info.title none
    uploader := textOr info.artist (textOr info.uploader (textOr info.channel none)) }

/-- `_media_facts`. -/
def mediaFacts (parse : Str → Option PyFloat) (info : Option FinalInfo) (filename : Str)
    (formatKind : FormatKind) : ProbeAct MediaFacts := do
  let info := info.getD .empty
  let isVideo := formatKind = .video
  let width ← Act.lift (if isVideo then positiveInt info.width else .ok none)
  let height ← Act.lift (if isVideo then positiveInt info.height else .ok none)
  let duration ← Act.lift (positiveInt info.duration)
  if duration = none ∨ (isVideo ∧ (width = none ∨ height = none)) then do
    let probed ← ffprobeFacts parse filename
    pure (describeMedia info filename (if isVideo then pyOr width probed.width else width)
      (if isVideo then pyOr height probed.height else height) (pyOr duration probed.duration))
  else pure (describeMedia info filename width height duration)

/-- The payload: `json.loads` gives back the strings, integers and nulls that
`json.dumps` was given.  (An `int` of more than 4300 digits, which `json.dumps`
refuses, cannot have been read from a text either.) -/
def MediaFacts.payload (facts : MediaFacts) : Json :=
  let number (n : Option Int) : Json := n.elim .null .int
  let text (s : Option Str) : Json := s.elim .null .string
  .object [(str "path", .string facts.path), (str "width", number facts.width),
    (str "height", number facts.height), (str "duration_seconds", number facts.durationSeconds),
    (str "title", text facts.title), (str "uploader", text facts.uploader)]

/-- `facts.get(key)`, of a number. -/
def getInt (fields : List (Str × Json)) (key : Str) : Option Int :=
  match Json.lookup key fields with
  | some (.int n) => some n
  | _ => none

/-- `facts.get(key)`, of a text. -/
def getText (fields : List (Str × Json)) (key : Str) : Option Str :=
  match Json.lookup key fields with
  | some (.string s) => some s
  | _ => none

/-- `_parse_result`, after `json.loads`. -/
def parseResult : Json → Except Exc DownloadResult
  | .object fields =>
    match Json.lookup (str "path") fields with
    | some (.string path) =>
      .ok
        { path := path
          width := getInt fields (str "width")
          height := getInt fields (str "height")
          durationSeconds := getInt fields (str "duration_seconds")
          title := getText fields (str "title")
          uploader := getText fields (str "uploader") }
    | some _ => .error (.other (str "TypeError"))
    | none => .error (.other (str "KeyError"))
  | _ => .error (.other (str "TypeError"))

/-! ## The three facts -/

inductive Fact where
  | width
  | height
  | duration
  deriving DecidableEq

/-- A video needs all three, an extracted track its duration. -/
def Fact.Needed (kind : FormatKind) (fact : Fact) : Prop := kind = .video ∨ fact = .duration

instance (kind : FormatKind) (fact : Fact) : Decidable (fact.Needed kind) :=
  inferInstanceAs (Decidable (_ ∨ _))

def FinalInfo.value (info : FinalInfo) : Fact → Json
  | .width => info.width
  | .height => info.height
  | .duration => info.duration

def MediaFacts.value (facts : MediaFacts) : Fact → Option Int
  | .width => facts.width
  | .height => facts.height
  | .duration => facts.durationSeconds

def ProbeFacts.value (facts : ProbeFacts) : Fact → Option Int
  | .width => facts.width
  | .height => facts.height
  | .duration => facts.duration

/-- What the probe says of a fact; a duration that `float` cannot read says nothing. -/
def ProbeRun.value (parse : Str → Option PyFloat) : ProbeRun → Fact → Json
  | .failed, _ => .null
  | .printed streams _, .width => (videoStream streams).width
  | .printed streams _, .height => (videoStream streams).height
  | .printed _ duration, .duration =>
    match pyFloat parse duration with
    | .ok x => .float x
    | .error _ => .null

/-- A number above zero; a `bool` is none. -/
def Json.positive? : Json → Option Rat
  | .int n => if n ≤ 0 then none else some n
  | .float (.finite q) => if q ≤ 0 then none else some q
  | _ => none

/-- What `_positive_int` makes of a value it can round. -/
def rounded (v : Json) : Option Int := v.positive?.map roundHalfEven

/-- A positive number that is still positive when rounded. -/
def usable (v : Json) : Option Int := (rounded v).filter fun n => 1 ≤ n

/-- No positive number at all. -/
def Missing (v : Json) : Prop := v.positive? = none

/-- A positive number of at most a half. -/
def Tiny (v : Json) : Prop := ∃ q, v.positive? = some q ∧ q ≤ 1 / 2

/-- Neither `inf` nor `nan`, which `round` refuses. -/
def Roundable (v : Json) : Prop := v ≠ .float .posInf ∧ v ≠ .float .nan

/-! ## Rounding -/

theorem roundHalfEven_intCast (n : Int) : roundHalfEven n = n := by
  simp [roundHalfEven]

theorem roundHalfEven_of_floor_pos {q : Rat} (h : 1 ≤ q.floor) : 1 ≤ roundHalfEven q := by
  unfold roundHalfEven
  dsimp only
  split_ifs <;> omega

/-- A positive number rounds to a positive integer exactly above a half. -/
theorem roundHalfEven_pos_iff {q : Rat} (hq : 0 < q) : 1 ≤ roundHalfEven q ↔ 1 / 2 < q := by
  have hnonneg : 0 ≤ q.floor := Rat.le_floor_iff.mpr hq.le
  rcases hnonneg.eq_or_lt with hzero | hpos
  · unfold roundHalfEven
    simp only [← hzero, Int.cast_zero, sub_zero]
    rcases lt_trichotomy q (1 / 2) with hlt | heq | hgt
    · rw [if_pos hlt]
      exact iff_of_false (by decide) hlt.le.not_gt
    · rw [if_neg heq.not_lt, if_pos heq]
      exact iff_of_false (by decide) heq.le.not_gt
    · rw [if_neg hgt.not_gt, if_neg hgt.ne']
      exact iff_of_true (by decide) hgt
  · refine iff_of_true (roundHalfEven_of_floor_pos hpos) ?_
    have hone : ((1 : Int) : Rat) ≤ q := Rat.le_floor_iff.mp hpos
    calc (1 / 2 : Rat) < (1 : Int) := by norm_num
      _ ≤ q := hone

theorem roundHalfEven_nonneg {q : Rat} (hq : 0 < q) : 0 ≤ roundHalfEven q := by
  have hnonneg : 0 ≤ q.floor := Rat.le_floor_iff.mpr hq.le
  unfold roundHalfEven
  dsimp only
  split_ifs <;> omega

theorem positive?_pos {v : Json} {q : Rat} (h : v.positive? = some q) : 0 < q := by
  unfold Json.positive? at h
  split at h
  · split at h
    · cases h
    · next hn =>
      cases h
      exact_mod_cast Int.not_le.mp hn
  · split at h
    · cases h
    · next hn =>
      cases h
      exact not_le.mp hn
  · cases h

theorem positiveInt_eq {v : Json} (h : Roundable v) : positiveInt v = .ok (rounded v) := by
  match v with
  | .int n =>
    by_cases hn : n ≤ 0
    · simp [positiveInt, rounded, Json.positive?, hn]
    · simp [positiveInt, rounded, Json.positive?, hn, roundHalfEven_intCast]
  | .float (.finite q) =>
    by_cases hq : q ≤ 0
    · simp [positiveInt, rounded, Json.positive?, hq]
    · simp [positiveInt, rounded, Json.positive?, hq]
  | .float .negInf => rfl
  | .float .posInf => exact absurd rfl h.1
  | .float .nan => exact absurd rfl h.2
  | .null | .bool _ | .string _ | .array _ | .object _ => rfl

theorem positiveInt_ok_iff (v : Json) : (∃ n, positiveInt v = .ok n) ↔ Roundable v := by
  constructor
  · rintro ⟨n, hn⟩
    constructor
    · rintro rfl
      cases hn
    · rintro rfl
      cases hn
  · exact fun h => ⟨_, positiveInt_eq h⟩

/-- A value says nothing, too little, or something. -/
theorem word_cases (v : Json) :
    (Missing v ∧ ¬ Tiny v ∧ rounded v = none ∧ usable v = none) ∨
      (¬ Missing v ∧ Tiny v ∧ rounded v = some 0 ∧ usable v = none) ∨
      ∃ n, 1 ≤ n ∧ ¬ Missing v ∧ ¬ Tiny v ∧ rounded v = some n ∧ usable v = some n := by
  unfold usable rounded Missing Tiny
  cases hv : v.positive? with
  | none => simp
  | some q =>
    have hpos : 0 < q := positive?_pos hv
    by_cases hhalf : 1 / 2 < q
    · have hone : 1 ≤ roundHalfEven q := (roundHalfEven_pos_iff hpos).mpr hhalf
      refine .inr (.inr ⟨roundHalfEven q, hone, by simp, ?_, rfl, by simp [Option.filter, hone]⟩)
      rintro ⟨p, ⟨⟩, hle⟩
      exact hhalf.not_ge hle
    · have hzero : roundHalfEven q = 0 := by
        have hnot : ¬ 1 ≤ roundHalfEven q := fun h => hhalf ((roundHalfEven_pos_iff hpos).mp h)
        have hnonneg := roundHalfEven_nonneg hpos
        omega
      exact .inr (.inl ⟨by simp, ⟨q, rfl, not_lt.mp hhalf⟩, by simp [hzero],
        by simp [Option.filter, hzero]⟩)

/-! ## The run -/

/-- The child with an `ffprobe` that gives `run`; what is kept is which files it saw. -/
def probing (run : ProbeRun) : Interaction.Handler Ffprobe (fun _ => ProbeRun) Exc (List Str) where
  answer _ _ := .ok run
  next probed call _ := probed ++ [call.filename]

/-- What `ffprobe` printed can be read without an exception. -/
structure ProbeRun.Readable (parse : Str → Option PyFloat) (run : ProbeRun) : Prop where
  roundable : ∀ fact, Roundable (run.value parse fact)
  noOverflow : ∀ streams duration, run = .printed streams duration →
    pyFloat parse duration ≠ .error (.other (str "OverflowError"))

/-- A fact that the file needs and info says nothing about. -/
def Lacks (info : FinalInfo) (kind : FormatKind) : Prop :=
  ∃ fact : Fact, fact.Needed kind ∧ Missing (info.value fact)

/-- The facts that are found: info's, or what `or` makes of them and the probe's. -/
def describeFacts (info : FinalInfo) (filename : Str) (kind : FormatKind)
    (value : Fact → Option Int) : MediaFacts :=
  describeMedia info filename (if kind = .video then value .width else none)
    (if kind = .video then value .height else none) (value .duration)

section Run

variable (parse : Str → Option PyFloat) (info : FinalInfo) (filename : Str) (kind : FormatKind)
  (run : ProbeRun)

theorem pyFloat_error {v : Json} {e : Exc} (h : pyFloat parse v = .error e) :
    e = Exc.valueError ∨ e = .other (str "TypeError") ∨ e = .other (str "OverflowError") := by
  unfold pyFloat at h
  split at h
  · cases h
  · split at h
    · cases h
    · cases h
      exact .inr (.inr rfl)
  · cases h
  · split at h
    · cases h
    · cases h
      exact .inl rfl
  · cases h
    exact .inr (.inl rfl)

/-- The probe's duration, when `float` does not overflow. -/
theorem probeDuration_eq {streams : List ProbeStream} {duration : Json}
    (h : pyFloat parse duration ≠ .error (.other (str "OverflowError"))) :
    (probeDuration parse duration >>= fun x => positiveInt (.float x)) =
      positiveInt ((ProbeRun.printed streams duration).value parse .duration) := by
  unfold probeDuration
  simp only [ProbeRun.value]
  cases hx : pyFloat parse duration with
  | ok x => rfl
  | error e =>
    have hcaught : e = Exc.valueError ∨ e = .other (str "TypeError") := by
      rcases pyFloat_error parse hx with he | he | he
      · exact .inl he
      · exact .inr he
      · exact absurd (he ▸ hx) h
    simp only [if_pos hcaught]
    rfl

theorem readProbe_ok (h : run.Readable parse) :
    ∃ facts, readProbe parse run = .ok facts ∧
      ∀ fact, facts.value fact = rounded (run.value parse fact) := by
  cases run with
  | failed => exact ⟨_, rfl, fun fact => by cases fact <;> rfl⟩
  | printed streams duration =>
    have hwidth := positiveInt_eq (h.roundable .width)
    have hheight := positiveInt_eq (h.roundable .height)
    have hduration := positiveInt_eq (h.roundable .duration)
    rw [← probeDuration_eq parse (h.noOverflow _ _ rfl)] at hduration
    obtain ⟨x, hx, hseconds⟩ := bind_eq_ok.mp hduration
    let found (fact : Fact) := rounded ((ProbeRun.printed streams duration).value parse fact)
    refine ⟨⟨found .width, found .height, found .duration⟩, ?_, fun fact => by cases fact <;> rfl⟩
    refine bind_eq_ok.mpr ⟨_, hwidth, bind_eq_ok.mpr ⟨_, hheight, ?_⟩⟩
    exact bind_eq_ok.mpr ⟨_, hx, bind_eq_ok.mpr ⟨_, hseconds, rfl⟩⟩

theorem readable_of_ok {facts : ProbeFacts} (h : readProbe parse run = .ok facts) :
    run.Readable parse := by
  cases run with
  | failed =>
    refine ⟨fun fact => ?_, fun _ _ h => nomatch h⟩
    cases fact <;> exact ⟨Json.noConfusion, Json.noConfusion⟩
  | printed streams duration =>
    obtain ⟨width, hwidth, h⟩ := bind_eq_ok.mp h
    obtain ⟨height, hheight, h⟩ := bind_eq_ok.mp h
    obtain ⟨x, hx, h⟩ := bind_eq_ok.mp h
    obtain ⟨seconds, hseconds, -⟩ := bind_eq_ok.mp h
    have hread : pyFloat parse duration ≠ .error (.other (str "OverflowError")) := by
      intro hover
      simp only [probeDuration, hover] at hx
      rw [if_neg (by decide)] at hx
      cases hx
    refine ⟨fun fact => (positiveInt_ok_iff _).mp ?_, ?_⟩
    · cases fact with
      | width => exact ⟨width, hwidth⟩
      | height => exact ⟨height, hheight⟩
      | duration =>
        refine ⟨seconds, ?_⟩
        rw [← probeDuration_eq parse hread]
        exact bind_eq_ok.mpr ⟨x, hx, hseconds⟩
    · rintro _ _ ⟨⟩
      exact hread

theorem lacks_iff :
    Lacks info kind ↔ rounded info.duration = none ∨
      (kind = .video ∧ (rounded info.width = none ∨ rounded info.height = none)) := by
  have hnone : ∀ v : Json, rounded v = none ↔ Missing v := fun v => Option.map_eq_none_iff
  simp only [hnone]
  constructor
  · rintro ⟨fact, hneed, hmissing⟩
    cases fact with
    | width => exact .inr ⟨hneed.resolve_right (fun h => nomatch h), .inl hmissing⟩
    | height => exact .inr ⟨hneed.resolve_right (fun h => nomatch h), .inr hmissing⟩
    | duration => exact .inl hmissing
  · rintro (h | ⟨hk, h | h⟩)
    · exact ⟨.duration, .inr rfl, h⟩
    · exact ⟨.width, .inl hk, h⟩
    · exact ⟨.height, .inl hk, h⟩

variable {info}

theorem positiveInt_facts (hfin : ∀ fact, Roundable (info.value fact)) :
    positiveInt info.width = .ok (rounded info.width) ∧
      positiveInt info.height = .ok (rounded info.height) ∧
      positiveInt info.duration = .ok (rounded info.duration) :=
  ⟨positiveInt_eq (hfin .width), positiveInt_eq (hfin .height), positiveInt_eq (hfin .duration)⟩

/-- With nothing lacking the probe is not run. -/
theorem handle_quiet (hfin : ∀ fact, Roundable (info.value fact)) (h : ¬ Lacks info kind) :
    (mediaFacts parse (some info) filename kind).handle (probing run) [] =
      ([], .ok (describeFacts info filename kind fun fact => rounded (info.value fact))) := by
  obtain ⟨hwidth, hheight, hduration⟩ := positiveInt_facts hfin
  rw [lacks_iff] at h
  cases kind with
  | audio =>
    have hknown : ¬ rounded info.duration = none := fun hn => h (.inl hn)
    simp [mediaFacts, hduration, hknown, describeFacts, FinalInfo.value]
  | video =>
    simp only [true_and, not_or] at h
    simp [mediaFacts, hwidth, hheight, hduration, h.1, h.2.1, h.2.2, describeFacts,
      FinalInfo.value]

/-- Otherwise it is run once, and fills in what `or` finds missing. -/
theorem handle_probed (hfin : ∀ fact, Roundable (info.value fact)) (h : Lacks info kind) :
    (mediaFacts parse (some info) filename kind).handle (probing run) [] =
      ([filename], (readProbe parse run).map fun probed => describeFacts info filename kind
        fun fact => pyOr (rounded (info.value fact)) (probed.value fact)) := by
  obtain ⟨hwidth, hheight, hduration⟩ := positiveInt_facts hfin
  rw [lacks_iff] at h
  have hanswer : (ffprobeFacts parse filename).handle (probing run) [] =
      ([filename], readProbe parse run) := by
    simp [ffprobeFacts, probing]
  cases kind with
  | audio =>
    have hnone : rounded info.duration = none := by simpa using h
    simp only [mediaFacts, Option.getD_some, hduration, hnone]
    cases hr : readProbe parse run <;>
      simp [hanswer, hr, Except.map, describeFacts, FinalInfo.value, ProbeFacts.value, hnone]
  | video =>
    simp only [true_and] at h
    simp only [mediaFacts, Option.getD_some, hduration, hwidth, hheight]
    cases hr : readProbe parse run <;>
      simp [hanswer, hr, h, Except.map, describeFacts, FinalInfo.value, ProbeFacts.value]

end Run

/-! ## What a delivery relies on -/

/-- Every fact that the kind needs is a positive integer. -/
def MediaFacts.Complete (facts : MediaFacts) (kind : FormatKind) : Prop :=
  ∀ fact : Fact, fact.Needed kind → ∃ n, facts.value fact = some n ∧ 1 ≤ n

/-- The facts are positive or unknown, info's word wins, the probe answers for the
rest, and the kind of upload follows from them. -/
structure MediaFacts.Faithful (parse : Str → Option PyFloat) (info : FinalInfo)
    (kind : FormatKind) (run : ProbeRun) (probed : List Str) (facts : MediaFacts) : Prop where
  positive : ∀ fact n, facts.value fact = some n → 1 ≤ n
  audio : kind = .audio → facts.width = none ∧ facts.height = none
  fromInfo : ∀ fact : Fact, fact.Needed kind → ∀ n, usable (info.value fact) = some n →
    facts.value fact = some n
  fromProbe : ∀ fact n, usable (info.value fact) = none → facts.value fact = some n →
    usable (run.value parse fact) = some n
  quiet : (∀ fact : Fact, fact.Needed kind → usable (info.value fact) ≠ none) → probed = []
  playable : ∃ result, parseResult facts.payload = .ok result ∧
    ((DeliverableMedia.fromResult result kind).isPlayableVideo ↔
      kind = .video ∧ facts.Complete kind) ∧
    ((DeliverableMedia.fromResult result kind).isPlayableAudio ↔
      kind = .audio ∧ facts.Complete kind)

/-- `_media_facts` returns, and what it returns can be relied on. -/
def FaithfulRun (parse : Str → Option PyFloat) (info : FinalInfo) (filename : Str)
    (kind : FormatKind) (run : ProbeRun) : Prop :=
  ∃ facts : MediaFacts,
    ((mediaFacts parse (some info) filename kind).handle (probing run) []).2 = .ok facts ∧
      facts.Faithful parse info kind run
        ((mediaFacts parse (some info) filename kind).handle (probing run) []).1

/-- No positive number of at most a half is taken for a needed fact: from a probe
that is run, which can then be read, or else from info. -/
structure NothingTiny (parse : Str → Option PyFloat) (info : FinalInfo) (kind : FormatKind)
    (run : ProbeRun) : Prop where
  readable : Lacks info kind → run.Readable parse
  probed : Lacks info kind → ∀ fact : Fact, fact.Needed kind →
    Missing (info.value fact) ∨ Tiny (info.value fact) → ¬ Tiny (run.value parse fact)
  quiet : ¬ Lacks info kind → ∀ fact : Fact, fact.Needed kind → ¬ Tiny (info.value fact)

section Faithful

variable {parse : Str → Option PyFloat} {info : FinalInfo} {filename : Str} {kind : FormatKind}
  {run : ProbeRun} {probed : List Str} {value : Fact → Option Int}

theorem describeFacts_value (fact : Fact) :
    (describeFacts info filename kind value).value fact =
      if fact.Needed kind then value fact else none := by
  cases fact <;> simp [describeFacts, describeMedia, MediaFacts.value, Fact.Needed]

/-- The hop through JSON loses nothing. -/
theorem parseResult_payload (facts : MediaFacts) :
    parseResult facts.payload = .ok
      { path := facts.path
        width := facts.width
        height := facts.height
        durationSeconds := facts.durationSeconds
        title := facts.title
        uploader := facts.uploader } := by
  obtain ⟨path, width, height, duration, title, uploader⟩ := facts
  cases width <;> cases height <;> cases duration <;> cases title <;> cases uploader <;> rfl

/-- Of positive facts, the ones that are there decide the kind of upload. -/
theorem playable_iff {facts : MediaFacts} (hpos : ∀ fact n, facts.value fact = some n → 1 ≤ n) :
    ∃ result, parseResult facts.payload = .ok result ∧
      ((DeliverableMedia.fromResult result kind).isPlayableVideo ↔
        kind = .video ∧ facts.Complete kind) ∧
      ((DeliverableMedia.fromResult result kind).isPlayableAudio ↔
        kind = .audio ∧ facts.Complete kind) := by
  refine ⟨_, parseResult_payload facts, ?_⟩
  have hsome : ∀ fact, (∃ n, facts.value fact = some n ∧ 1 ≤ n) ↔ (facts.value fact).isSome := by
    intro fact
    rw [Option.isSome_iff_exists]
    exact ⟨fun ⟨n, hn, _⟩ => ⟨n, hn⟩, fun ⟨n, hn⟩ => ⟨n, hn, hpos fact n hn⟩⟩
  simp only [MediaFacts.Complete, hsome]
  cases kind with
  | video =>
    simp only [DeliverableMedia.isPlayableVideo, DeliverableMedia.isPlayableAudio,
      DeliverableMedia.fromResult, Fact.Needed]
    refine ⟨?_, by simp⟩
    simp only [if_true, decide_true, Bool.true_and, Bool.and_eq_true, true_and, true_or,
      forall_const]
    constructor
    · rintro ⟨⟨hwidth, hheight⟩, hduration⟩ fact
      cases fact with
      | width => exact hwidth
      | height => exact hheight
      | duration => exact hduration
    · exact fun h => ⟨⟨h .width, h .height⟩, h .duration⟩
  | audio =>
    simp only [DeliverableMedia.isPlayableVideo, DeliverableMedia.isPlayableAudio,
      DeliverableMedia.fromResult, Fact.Needed]
    refine ⟨by simp, ?_⟩
    simp [MediaFacts.value]

/-- Values that are faithful make a faithful dict. -/
theorem faithful_describe
    (hpos : ∀ fact : Fact, fact.Needed kind → ∀ n, value fact = some n → 1 ≤ n)
    (hinfo : ∀ fact : Fact, fact.Needed kind → ∀ n, usable (info.value fact) = some n →
      value fact = some n)
    (hprobe : ∀ fact : Fact, fact.Needed kind → ∀ n, usable (info.value fact) = none →
      value fact = some n → usable (run.value parse fact) = some n)
    (hquiet : (∀ fact : Fact, fact.Needed kind → usable (info.value fact) ≠ none) →
      probed = []) :
    (describeFacts info filename kind value).Faithful parse info kind run probed := by
  have hneed : ∀ (fact : Fact) (n : Int),
      (describeFacts info filename kind value).value fact = some n →
        fact.Needed kind ∧ value fact = some n := by
    intro fact n h
    rw [describeFacts_value] at h
    split at h
    · next hn => exact ⟨hn, h⟩
    · cases h
  have hpositive : ∀ (fact : Fact) (n : Int),
      (describeFacts info filename kind value).value fact = some n → 1 ≤ n :=
    fun fact n h => hpos fact (hneed fact n h).1 n (hneed fact n h).2
  refine ⟨hpositive, ?_, ?_, ?_, hquiet, playable_iff hpositive⟩
  · rintro rfl
    exact ⟨rfl, rfl⟩
  · intro fact hn n h
    rw [describeFacts_value, if_pos hn]
    exact hinfo fact hn n h
  · exact fun fact n hnone h => hprobe fact (hneed fact n h).1 n hnone (hneed fact n h).2

theorem usable_eq_none_iff (v : Json) : usable v = none ↔ Missing v ∨ Tiny v := by
  rcases word_cases v with ⟨hm, -, -, hu⟩ | ⟨-, ht, -, hu⟩ | ⟨n, -, hm, ht, -, hu⟩
  · exact iff_of_true hu (.inl hm)
  · exact iff_of_true hu (.inr ht)
  · refine iff_of_false ?_ (not_or.mpr ⟨hm, ht⟩)
    rw [hu]
    exact Option.some_ne_none n

theorem rounded_eq_of_usable {v : Json} {n : Int} (h : usable v = some n) :
    rounded v = some n ∧ 1 ≤ n := by
  rcases word_cases v with ⟨-, -, -, hu⟩ | ⟨-, -, -, hu⟩ | ⟨m, hm, -, -, hr, hu⟩
  · exact nomatch hu.symm.trans h
  · exact nomatch hu.symm.trans h
  · obtain rfl : m = n := Option.some.inj (hu.symm.trans h)
    exact ⟨hr, hm⟩

/-- Rounded to something and not tiny: positive. -/
theorem usable_of_rounded {v : Json} {n : Int} (h : rounded v = some n) (ht : ¬ Tiny v) :
    usable v = some n := by
  rcases word_cases v with ⟨-, -, hr, -⟩ | ⟨-, htiny, -, -⟩ | ⟨m, -, -, -, hr, hu⟩
  · exact nomatch hr.symm.trans h
  · exact absurd htiny ht
  · exact hu.trans (hr.symm.trans h)

theorem rounded_of_tiny {v : Json} (h : Tiny v) : rounded v = some 0 := by
  rcases word_cases v with ⟨-, ht, -, -⟩ | ⟨-, -, hr, -⟩ | ⟨n, -, -, ht, -, -⟩
  · exact absurd h ht
  · exact hr
  · exact absurd h ht

/-- `or` goes to the probe exactly for what info does not say. -/
theorem pyOr_rounded (v : Json) (y : Option Int) :
    pyOr (rounded v) y = (usable v).or y := by
  rcases word_cases v with ⟨-, -, hr, hu⟩ | ⟨-, -, hr, hu⟩ | ⟨n, hn, -, -, hr, hu⟩
  · rw [hr, hu]
    rfl
  · rw [hr, hu]
    rfl
  · have hne : n ≠ 0 := by omega
    simp [pyOr, hr, hu, hne]

/-- A fact that the probe fills in is the probe's. -/
theorem faithful_probed (hn : NothingTiny parse info kind run) (hl : Lacks info kind)
    {facts : ProbeFacts} (hfacts : ∀ fact, facts.value fact = rounded (run.value parse fact)) :
    (describeFacts info filename kind fun fact =>
      pyOr (rounded (info.value fact)) (facts.value fact)).Faithful parse info kind run
        [filename] := by
  have hprobe : ∀ fact : Fact, fact.Needed kind → ∀ n, usable (info.value fact) = none →
      pyOr (rounded (info.value fact)) (facts.value fact) = some n →
      usable (run.value parse fact) = some n := by
    intro fact hneed n hnone h
    rw [pyOr_rounded, hnone, Option.none_or, hfacts] at h
    exact usable_of_rounded h (hn.probed hl fact hneed ((usable_eq_none_iff _).mp hnone))
  have hinfo : ∀ fact : Fact, fact.Needed kind → ∀ n, usable (info.value fact) = some n →
      pyOr (rounded (info.value fact)) (facts.value fact) = some n := by
    intro fact _ n h
    rw [pyOr_rounded, h, Option.some_or]
  refine faithful_describe ?_ hinfo hprobe ?_
  · intro fact hneed n h
    cases hu : usable (info.value fact) with
    | none => exact (rounded_eq_of_usable (hprobe fact hneed n hu h)).2
    | some m =>
      obtain rfl : m = n := Option.some.inj ((hinfo fact hneed m hu).symm.trans h)
      exact (rounded_eq_of_usable hu).2
  · intro hall
    obtain ⟨fact, hneed, hmissing⟩ := hl
    exact absurd ((usable_eq_none_iff _).mpr (.inl hmissing)) (hall fact hneed)

/-- With nothing lacking and nothing tiny, all needed facts are info's. -/
theorem faithful_quiet (hn : NothingTiny parse info kind run) (hl : ¬ Lacks info kind) :
    (describeFacts info filename kind fun fact => rounded (info.value fact)).Faithful parse info
      kind run [] := by
  have husable : ∀ fact : Fact, fact.Needed kind → ∀ n, rounded (info.value fact) = some n →
      usable (info.value fact) = some n :=
    fun fact hneed n h => usable_of_rounded h (hn.quiet hl fact hneed)
  refine faithful_describe ?_ ?_ ?_ fun _ => rfl
  · exact fun fact hneed n h => (rounded_eq_of_usable (husable fact hneed n h)).2
  · exact fun fact _ n h => (rounded_eq_of_usable h).1
  · intro fact hneed n hnone h
    exact nomatch hnone.symm.trans (husable fact hneed n h)

/-- A tiny number that info has is returned as zero. -/
theorem tiny_not_faithful (hfin : ∀ fact, Roundable (info.value fact)) (hl : ¬ Lacks info kind)
    {fact : Fact} (hneed : fact.Needed kind) (htiny : Tiny (info.value fact)) :
    ¬ FaithfulRun parse info filename kind run := by
  unfold FaithfulRun
  rw [handle_quiet parse filename kind run hfin hl]
  rintro ⟨facts, ⟨⟩, hfaithful⟩
  have hzero := hfaithful.positive fact 0 (by
    rw [describeFacts_value, if_pos hneed, rounded_of_tiny htiny])
  omega

/-- So is a tiny number of the probe, for a fact that info does not say. -/
theorem tiny_probe_not_faithful (hfin : ∀ fact, Roundable (info.value fact))
    (hl : Lacks info kind) (hreadable : run.Readable parse) {fact : Fact}
    (hneed : fact.Needed kind) (hlacks : Missing (info.value fact) ∨ Tiny (info.value fact))
    (htiny : Tiny (run.value parse fact)) : ¬ FaithfulRun parse info filename kind run := by
  obtain ⟨probed, hread, hvalue⟩ := readProbe_ok parse run hreadable
  unfold FaithfulRun
  rw [handle_probed parse filename kind run hfin hl, hread]
  rintro ⟨facts, ⟨⟩, hfaithful⟩
  have hzero := hfaithful.positive fact 0 (by
    rw [describeFacts_value, if_pos hneed, pyOr_rounded, (usable_eq_none_iff _).mpr hlacks,
      Option.none_or, hvalue, rounded_of_tiny htiny])
  omega

/-- What `_media_facts` needs to return at all. -/
theorem readable_of_faithful (hfin : ∀ fact, Roundable (info.value fact)) (hl : Lacks info kind)
    (h : FaithfulRun parse info filename kind run) : run.Readable parse := by
  unfold FaithfulRun at h
  rw [handle_probed parse filename kind run hfin hl] at h
  obtain ⟨facts, hok, -⟩ := h
  cases hread : readProbe parse run with
  | ok probed => exact readable_of_ok parse run hread
  | error e =>
    rw [hread] at hok
    cases hok

end Faithful

/-- Media facts can be relied on exactly when no positive number of at most a half
gets through. -/
theorem mediaFacts_faithful_iff (parse : Str → Option PyFloat) (info : FinalInfo)
    (filename : Str) (kind : FormatKind) (run : ProbeRun)
    (hfin : ∀ fact, Roundable (info.value fact)) :
    FaithfulRun parse info filename kind run ↔ NothingTiny parse info kind run := by
  constructor
  · intro h
    refine ⟨fun hl => readable_of_faithful hfin hl h, ?_, ?_⟩
    · intro hl fact hneed hlacks htiny
      have hreadable := readable_of_faithful hfin hl h
      exact tiny_probe_not_faithful hfin hl hreadable hneed hlacks htiny h
    · exact fun hl fact hneed htiny => tiny_not_faithful hfin hl hneed htiny h
  · intro hn
    unfold FaithfulRun
    by_cases hl : Lacks info kind
    · obtain ⟨probed, hread, hvalue⟩ := readProbe_ok parse run (hn.readable hl)
      rw [handle_probed parse filename kind run hfin hl, hread]
      exact ⟨_, rfl, faithful_probed hn hl hvalue⟩
    · rw [handle_quiet parse filename kind run hfin hl]
      exact ⟨_, rfl, faithful_quiet hn hl⟩

/-- The final info of a clip: nothing but its duration. -/
def clipInfo (seconds : Rat) : FinalInfo :=
  { FinalInfo.empty with duration := .float (.finite seconds) }

theorem clipInfo_roundable (seconds : Rat) (fact : Fact) :
    Roundable ((clipInfo seconds).value fact) := by
  cases fact <;> simp [Roundable, clipInfo, FinalInfo.value, FinalInfo.empty]

theorem clipInfo_positive {seconds : Rat} (h : 0 < seconds) :
    ((clipInfo seconds).value .duration).positive? = some seconds :=
  if_neg h.not_ge

theorem clipInfo_not_lacks {seconds : Rat} (h : 0 < seconds) :
    ¬ Lacks (clipInfo seconds) .audio := by
  rintro ⟨fact, hneed, hmissing⟩
  obtain rfl : fact = .duration := hneed.resolve_left fun h => nomatch h
  exact nomatch hmissing.symm.trans (clipInfo_positive h)

namespace Probed

/-- The final info of a video whose height is not known. -/
def info : FinalInfo :=
  { FinalInfo.empty with width := .int 1280, duration := .float (.finite (11 / 2)) }

/-- `ffprobe` on it: an audio and a video stream, and the duration as a text. -/
def run : ProbeRun :=
  .printed [⟨some (str "audio"), .null, .null⟩, ⟨some (str "video"), .int 1280, .int 720⟩]
    (.string (str "5.500000"))

def parse (text : Str) : Option PyFloat :=
  if text = str "5.500000" then some (.finite (11 / 2)) else none

theorem info_roundable (fact : Fact) : Roundable (info.value fact) := by
  cases fact <;> simp [Roundable, info, FinalInfo.value, FinalInfo.empty]

theorem info_lacks : Lacks info .video := ⟨.height, .inl rfl, rfl⟩

/-- What the probe says of each fact. -/
theorem run_value : run.value parse .width = .int 1280 ∧ run.value parse .height = .int 720 ∧
    run.value parse .duration = .float (.finite (11 / 2)) :=
  ⟨rfl, rfl, rfl⟩

theorem run_readable : run.Readable parse where
  roundable fact := by
    obtain ⟨hwidth, hheight, hduration⟩ := run_value
    cases fact with
    | width => simp [Roundable, hwidth]
    | height => simp [Roundable, hheight]
    | duration => simp [Roundable, hduration]
  noOverflow streams duration h := by
    cases h
    exact fun h => nomatch h

theorem run_not_tiny (fact : Fact) : ¬ Tiny (run.value parse fact) := by
  obtain ⟨hwidth, hheight, hduration⟩ := run_value
  rintro ⟨q, hq, hle⟩
  cases fact with
  | width =>
    rw [hwidth] at hq
    cases hq
    norm_num at hle
  | height =>
    rw [hheight] at hq
    cases hq
    norm_num at hle
  | duration =>
    have hpositive : (Json.float (.finite (11 / 2))).positive? = some (11 / 2) :=
      if_neg (by norm_num)
    rw [hduration, hpositive] at hq
    cases hq
    norm_num at hle

end Probed

/-- A video with an unknown height: the probe is run, and gives it. -/
theorem mediaFacts_faithful_iff_clip :
    FaithfulRun Probed.parse Probed.info (str "a.mp4") .video Probed.run ∧
      ((mediaFacts Probed.parse (some Probed.info) (str "a.mp4") .video).handle
        (probing Probed.run) []).1 = [str "a.mp4"] := by
  refine ⟨(mediaFacts_faithful_iff _ _ _ _ _ Probed.info_roundable).mpr
    ⟨fun _ => Probed.run_readable, fun _ fact _ _ => Probed.run_not_tiny fact, fun hl => ?_⟩, ?_⟩
  · exact absurd Probed.info_lacks hl
  · rw [handle_probed _ _ _ _ Probed.info_roundable Probed.info_lacks]

/-- A clip of 3/8 s is said to last no second, and to be playable. -/
theorem mediaFacts_not_faithful :
    ¬ ∀ (parse : Str → Option PyFloat) (info : FinalInfo) (filename : Str) (kind : FormatKind)
      (run : ProbeRun), (∀ fact, Roundable (info.value fact)) →
      FaithfulRun parse info filename kind run := by
  intro h
  have htiny : Tiny ((clipInfo (3 / 8)).value .duration) :=
    ⟨3 / 8, clipInfo_positive (by norm_num), by norm_num⟩
  exact tiny_not_faithful (clipInfo_roundable _) (clipInfo_not_lacks (by norm_num)) (.inr rfl)
    htiny (h (fun _ => none) (clipInfo (3 / 8)) (str "a.m4a") .audio .failed
      (clipInfo_roundable _))

end MediaDownloader
