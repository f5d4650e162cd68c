import Mathlib.Algebra.Order.Ring.Abs
import Mathlib.Algebra.Order.Ring.Rat
import MediaDownloader.Infrastructure.PreviewFacts
import MediaDownloader.Telegram.Formatting

/-!
# The duration on the preview card

yt-dlp's duration reaches `format_duration` as it is; integer-only format codes
print it.

* `formatDuration_int`: an `int` is split without loss;
* `formatDuration_float`: any `float`, with or without a fraction, raises;
* `duration_shown_iff`: so the preview of an info dict can be shown exactly when
  its duration is unknown or an `int` whose hours Python prints.
-/

namespace MediaDownloader

/-- `M:SS` or `H:MM:SS`. -/
inductive ClockText where
  | short (minutes seconds : Nat) (hs : seconds < 60)
  | long (hours minutes seconds : Nat) (hm : minutes < 60) (hs : seconds < 60)

namespace ClockText

def text : ClockText → Str
  | short minutes seconds _ => intStr minutes ++ str ":" ++ twoDigits seconds
  | long hours minutes seconds _ _ =>
    intStr hours ++ str ":" ++ twoDigits minutes ++ str ":" ++ twoDigits seconds

def total : ClockText → Nat
  | short minutes seconds _ => 60 * minutes + seconds
  | long hours minutes seconds _ _ => 3600 * hours + 60 * minutes + seconds

end ClockText

/-- The number a finite Python number stands for. -/
def PyNumber.value? : PyNumber → Option Rat
  | .int n => some n
  | .float (.finite q) => some q
  | .float _ => none

/-- Unknown, or a number that is not negative. -/
def ReportedDuration (duration : Option PyNumber) : Prop :=
  ∀ d, duration = some d → ∃ q, d.value? = some q ∧ 0 ≤ q

/-- The preview of `info` is built and rendered, and a known duration is on it to
the second. -/
structure Shown (u : Unicode) (i18n : I18n) (url : Str) (info : PreviewInfo) : Prop where
  rendered : ∃ preview text,
    getPreview u url (runPreviewInProcess (.ok (previewWorkerEntrypoint u (.ok (some info))))) =
      .ok preview ∧
    formatPreview i18n preview = .ok text
  clock : ∀ d q, info.duration = some d → d.value? = some q →
    ∃ c : ClockText, formatDuration i18n (some d) = .ok c.text ∧ |(c.total : Rat) - q| ≤ 1

section Formats

variable (i18n : I18n)

/-- Both `divmod`s on a natural number. -/
theorem divmod_seconds (n : Nat) :
    (n : Int) / 60 / 60 = ((n / 3600 : Nat) : Int) ∧
      (n : Int) / 60 % 60 = ((n / 60 % 60 : Nat) : Int) ∧ (n : Int) % 60 = ((n % 60 : Nat) : Int) := by
  omega

theorem intText_natCast (n : Nat) :
    intText n = if 10 ^ maxStrDigits ≤ n then .error Exc.valueError else .ok (intStr n) := rfl

theorem formatDuration_int {n : Nat} (h : n / 3600 < 10 ^ maxStrDigits) :
    ∃ c : ClockText, formatDuration i18n (some (.int n)) = .ok c.text ∧ c.total = n := by
  have hprint : intText ((n / 3600 : Nat) : Int) = .ok (intStr ((n / 3600 : Nat) : Int)) := by
    rw [intText_natCast, if_neg (Nat.not_le.mpr h)]
  clear h
  obtain ⟨hhours, hminutes, hsecs⟩ := divmod_seconds n
  simp only [formatDuration, PyNumber.divmod, Nat.cast_ofNat, hhours, hminutes, hsecs]
  by_cases hz : n / 3600 = 0
  · refine ⟨.short (n / 60 % 60) (n % 60) (Nat.mod_lt _ (by decide)), ?_, ?_⟩
    · simp [hz, ClockText.text]
    · simp only [ClockText.total]
      omega
  · refine ⟨.long (n / 3600) (n / 60 % 60) (n % 60) (Nat.mod_lt _ (by decide))
      (Nat.mod_lt _ (by decide)), ?_, ?_⟩
    · have hne : ((n / 3600 : Nat) : Int) ≠ 0 := by exact_mod_cast hz
      rw [if_pos hne, hprint]
      rfl
    · simp only [ClockText.total]
      omega

theorem formatDuration_huge {n : Nat} (h : 10 ^ maxStrDigits ≤ n / 3600) :
    formatDuration i18n (some (.int n)) = .error Exc.valueError := by
  have hpow : 0 < 10 ^ maxStrDigits := Nat.pow_pos (by decide)
  have hpos : n / 3600 ≠ 0 := Nat.ne_of_gt (Nat.lt_of_lt_of_le hpow h)
  have hprint : intText ((n / 3600 : Nat) : Int) = .error Exc.valueError := by
    rw [intText_natCast, if_pos h]
  clear h
  have hne : ((n / 3600 : Nat) : Int) ≠ 0 := by exact_mod_cast hpos
  simp only [formatDuration, PyNumber.divmod, Nat.cast_ofNat, (divmod_seconds n).1]
  rw [if_pos hne, hprint]
  rfl

theorem formatDuration_float (x : PyFloat) :
    formatDuration i18n (some (.float x)) = .error Exc.valueError := rfl

/-- With all texts there, rendering goes on to the duration and then the card. -/
theorem formatPreview_eq (hi : i18n.Total) (preview : MediaPreview) :
    ∃ uploader, formatPreview i18n preview =
      (formatDuration i18n preview.durationSeconds >>= fun duration =>
        i18n.get "preview-card"
          [(str "title", .text (htmlEscape preview.title)), (str "uploader", .text uploader),
            (str "duration", .text duration), (str "mediatype", .text preview.mediaType.value)]) := by
  obtain ⟨unknown, hunknown⟩ := hi.texts "preview-uploader-unknown" (by simp [textKeys]) []
  unfold formatPreview
  simp only [hunknown]
  cases preview.uploader with
  | none => exact ⟨unknown, rfl⟩
  | some name =>
    cases hname : name.isEmpty with
    | true => exact ⟨unknown, by simp [hname]⟩
    | false => exact ⟨htmlEscape name, by simp [hname]⟩

/-- Rendering raises nothing of its own but what the duration raises. -/
theorem formatPreview_ok_iff (hi : i18n.Total) (preview : MediaPreview) :
    (∃ text, formatPreview i18n preview = .ok text) ↔
      ∃ text, formatDuration i18n preview.durationSeconds = .ok text := by
  obtain ⟨uploader, heq⟩ := formatPreview_eq i18n hi preview
  rw [heq]
  cases formatDuration i18n preview.durationSeconds with
  | error e => simp
  | ok duration => simpa using hi.texts "preview-card" (by simp [textKeys]) _

end Formats

/-- The hours of a known duration are an `int` of at most 4300 digits. -/
def PrintableDuration (duration : Option PyNumber) : Prop :=
  ∀ d, duration = some d → ∃ n : Nat, d = .int n ∧ n / 3600 < 10 ^ maxStrDigits

/-- The preview can be shown exactly when its duration is unknown or an `int`. -/
theorem duration_shown_iff (u : Unicode) (i18n : I18n) (url : Str) (info : PreviewInfo)
    (hi : i18n.Total) (hd : ReportedDuration info.duration) :
    Shown u i18n url info ↔ PrintableDuration info.duration := by
  constructor
  · intro h d hknown
    obtain ⟨preview, text, hpreview, htext⟩ := h.rendered
    cases hpreview
    obtain ⟨shown, hshown⟩ := (formatPreview_ok_iff i18n hi _).mp ⟨text, htext⟩
    have hduration : formatDuration i18n (some d) = .ok shown := by
      rw [← hknown]
      exact hshown
    cases d with
    | float x =>
      rw [formatDuration_float] at hduration
      cases hduration
    | int n =>
      obtain ⟨q, hq, hpos⟩ := hd _ hknown
      obtain rfl := Option.some.inj hq
      obtain ⟨m, rfl⟩ := Int.eq_ofNat_of_zero_le (by exact_mod_cast hpos)
      refine ⟨m, rfl, ?_⟩
      by_contra hhuge
      rw [formatDuration_huge i18n (Nat.not_lt.mp hhuge)] at hduration
      cases hduration
  · intro h
    refine ⟨⟨mediaPreview url (previewFacts u info), ?_⟩, fun d q hknown hq => ?_⟩
    · have hrender := (formatPreview_ok_iff i18n hi (mediaPreview url (previewFacts u info))).mpr ?_
      · obtain ⟨text, htext⟩ := hrender
        exact ⟨text, rfl, htext⟩
      · cases hknown : info.duration with
        | none =>
          simpa [mediaPreview, previewFacts, hknown, formatDuration] using
            hi.texts "preview-duration-unknown" (by simp [textKeys]) []
        | some d =>
          obtain ⟨n, rfl, hn⟩ := h d hknown
          obtain ⟨c, hc, -⟩ := formatDuration_int i18n hn
          refine ⟨c.text, ?_⟩
          rw [← hc, ← hknown]
          rfl
    · obtain ⟨n, rfl, hn⟩ := h d hknown
      obtain ⟨c, hc, htotal⟩ := formatDuration_int i18n hn
      obtain rfl := Option.some.inj hq
      exact ⟨c, hc, by simp [htotal]⟩

/-! ## Two durations -/

namespace Song

def i18n : I18n := ⟨fun key _ _ => .ok key, str "ru"⟩

theorem total : i18n.Total := ⟨fun _ _ _ => ⟨_, rfl⟩, fun _ => ⟨_, rfl⟩⟩

def info (duration : PyNumber) : PreviewInfo :=
  ⟨some (str "A Short"), some duration, some (str "NASA"), none, some (str "avc1"), none,
    some (str "Youtube"), []⟩

theorem reported {d : PyNumber} {q : Rat} (hv : d.value? = some q) (hq : 0 ≤ q) :
    ReportedDuration (info d).duration := by
  rintro d' ⟨rfl⟩
  exact ⟨q, hv, hq⟩

end Song

/-- 2808 seconds are shown. -/
theorem duration_shown_iff_int :
    Shown ⟨asciiLower, id⟩ Song.i18n (str "https://a.com/v") (Song.info (.int 2808)) := by
  have hhours : 2808 / 3600 < 10 ^ maxStrDigits := Nat.pow_pos (by decide)
  refine (duration_shown_iff _ _ _ _ Song.total (Song.reported rfl (by decide))).mpr ?_
  rintro d ⟨rfl⟩
  exact ⟨2808, rfl, hhours⟩

/-- 37.5 seconds are not. -/
theorem duration_not_shown : ¬ ∀ (u : Unicode) (i18n : I18n) (url : Str) (info : PreviewInfo),
    i18n.Total → ReportedDuration info.duration → Shown u i18n url info := by
  intro hall
  have hshown := hall ⟨asciiLower, id⟩ Song.i18n (str "https://a.com/v")
    (Song.info (.float (.finite (75 / 2)))) Song.total (Song.reported rfl (by decide +kernel))
  obtain ⟨preview, text, hpreview, htext⟩ := hshown.rendered
  cases hpreview
  obtain ⟨shown, hduration⟩ := (formatPreview_ok_iff _ Song.total _).mp ⟨text, htext⟩
  exact nomatch hduration

end MediaDownloader
