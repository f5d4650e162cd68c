import MediaDownloader.Application.FormatPolicy
import MediaDownloader.Application.Ports
import MediaDownloader.Lib.Preference

/-!
# The format a download picks

The preview computes the tiers of the card from the list of formats; the
download hands yt-dlp a sort over the same list.  How yt-dlp compares two
formats under one entry of the sort is a parameter, with the meaning of the
two entries that matter.

* `first_compatible_iff`: for a tier with a resolution, the format put first is
  in the compatible codec exactly when the preferred resolution is there in it;
* `offered_compatible_iff`: so for every spec the card can offer;
* `offered_incompatible`: 1080p in h264, 720p in vp9 only.
-/

namespace MediaDownloader

open Preference

/-! ## The preview side -/

/-- A format dict of yt-dlp, as far as it is read here. -/
structure VideoFormat where
  formatId : Str
  vcodec : Option Str
  width : Option Int
  height : Option Int
  deriving DecidableEq

/-- `_COMPATIBLE_VCODEC`. -/
def compatibleVcodec : Str := str "h264"

/-- `_VCODEC_PREFIXES`. -/
def vcodecPrefixes : List (Str × List Str) :=
  [(str "h264", [str "avc1", str "h264"]), (str "h265", [str "hvc1", str "hev1", str "h265"]),
    (str "vp9", [str "vp9", str "vp09"]), (str "av01", [str "av01"])]

namespace VideoFormat

/-- A video format with known dimensions. -/
def isSized (f : VideoFormat) : Bool :=
  !decide (f.vcodec = none ∨ f.vcodec = some (str "none")) &&
    (!decide (f.width.getD 0 = 0) && !decide (f.height.getD 0 = 0))

/-- `str(f["vcodec"]).startswith(prefixes)`. -/
def isCompatible (f : VideoFormat) : Bool :=
  ((dictGet compatibleVcodec vcodecPrefixes).getD []).any fun p =>
    startsWith p (f.vcodec.getD [])

def shortSide (f : VideoFormat) : Int := min (f.width.getD 0) (f.height.getD 0)

end VideoFormat

/-- `max` of a pool that may be empty. -/
def maxShortSide : List VideoFormat → Option Int
  | [] => none
  | f :: pool => some (pool.foldl (fun side g => max side g.shortSide) f.shortSide)

/-- `_max_compatible_short_side`. -/
def maxCompatibleShortSide (formats : List VideoFormat) : Option Int :=
  let sized := formats.filter VideoFormat.isSized
  let compatible := sized.filter VideoFormat.isCompatible
  maxShortSide (if compatible.isEmpty then sized else compatible)

/-! ## The download side -/

structure Postprocessor where
  key : Str
  preferredcodec : Str
  preferredquality : Str
  deriving DecidableEq

/-- The options of the real download. -/
structure YdlOpts where
  quiet : Bool
  noprogress : Bool
  noWarnings : Bool
  noplaylist : Bool
  outtmpl : Str
  restrictfilenames : Bool
  socketTimeout : Int
  retries : Int
  fragmentRetries : Int
  continuedl : Bool
  hasProgressHook : Bool
  format : Str
  postprocessors : List Postprocessor
  formatSort : Option (List Str)
  mergeOutputFormat : Option Str
  maxFilesize : Option Int
  deriving DecidableEq

/-- `sort.insert(0, ..)` for a tier with a resolution. -/
def videoSort (tier : VideoTier) : List Str :=
  (match tier.shortSide with
    | some side => [str "res:" ++ intStr side]
    | none => []) ++ [str "vcodec:" ++ compatibleVcodec, str "acodec:aac", str "ext:mp4:m4a"]

/-- `_build_download_ydl_opts`. -/
def buildDownloadYdlOpts (outputDir : Str) (maxFilesizeBytes : Option Int) (spec : DownloadSpec)
    (hasProgressHook : Bool) : YdlOpts :=
  { quiet := true
    noprogress := true
    noWarnings := true
    noplaylist := true
    outtmpl := outputDir ++ str "/%(id)s.%(ext)s"
    restrictfilenames := true
    socketTimeout := 30
    retries := 10
    fragmentRetries := 10
    continuedl := true
    hasProgressHook := hasProgressHook
    format :=
      match spec with
      | .audio => str "bestaudio[ext=m4a]/bestaudio/best"
      | .video _ => str "bv*+ba/b"
    postprocessors :=
      match spec with
      | .audio => [⟨str "FFmpegExtractAudio", str "mp3", str "192"⟩]
      | .video _ => []
    formatSort :=
      match spec with
      | .audio => none
      | .video tier => some (videoSort tier)
    mergeOutputFormat :=
      match spec with
      | .audio => none
      | .video _ => some (str "mp4")
    maxFilesize := maxFilesizeBytes.filter fun bytes => bytes ≠ 0 }

/-! ## yt-dlp's sort -/

/-- `res:N`: the largest short side not above `N`, otherwise the smallest above. -/
def resBetter (limit a b : Int) : Bool :=
  if a ≤ limit then decide (b < a) || decide (limit < b) else decide (limit < b) && decide (a < b)

/-- How yt-dlp compares two formats under an entry of `format_sort`: `res` when
their dimensions are known, and the compatible codec before any other. -/
structure SortEntries where
  better : Str → VideoFormat → VideoFormat → Prop
  res (tier : VideoTier) (side : Int) (f g : VideoFormat) : tier.shortSide = some side →
    f.isSized = true → g.isSized = true →
    (better (str "res:" ++ intStr side) f g ↔ resBetter side f.shortSide g.shortSide = true)
  vcodec (f g : VideoFormat) : better (str "vcodec:" ++ compatibleVcodec) f g ↔
    f.isCompatible = true ∧ g.isCompatible = false

/-- yt-dlp puts `f` first for the options of `spec`. -/
def PutsFirst (entries : SortEntries) (spec : DownloadSpec) (formats : List VideoFormat)
    (f : VideoFormat) : Prop :=
  ∃ sort, (buildDownloadYdlOpts [] none spec false).formatSort = some sort ∧
    IsFirst (sort.map entries.better) formats f

/-- The specs a card can offer for the formats: its video buttons, and what the
commands ask for without one. -/
def Offers (u : Unicode) (policy : FormatPolicy) (formats : List VideoFormat)
    (spec : DownloadSpec) : Prop :=
  ∃ preview : MediaPreview, preview.maxCompatibleShortSide = maxCompatibleShortSide formats ∧
    ((∃ tier ∈ (policy.offeredChoices u preview.extractorKey
        preview.maxCompatibleShortSide).videoTiers, spec = .video tier) ∨
      ((policy.offeredChoices u preview.extractorKey
          preview.maxCompatibleShortSide).video = true ∧
        (policy.offeredChoices u preview.extractorKey
          preview.maxCompatibleShortSide).hasQualityStep = false ∧ spec = directVideoSpec) ∨
      spec = FormatPolicy.defaultVideoSpec preview)

/-- The short side that `res:N` prefers on the list is there in the compatible
codec; without a resolution in the spec there is nothing to ask. -/
def ResolutionCompatible (formats : List VideoFormat) (spec : DownloadSpec) : Prop :=
  ∀ tier side, spec = .video tier → tier.shortSide = some side →
    ∃ f ∈ formats, f.isCompatible = true ∧
      ∀ g ∈ formats, resBetter side g.shortSide f.shortSide = false

/-- The card offers video specs only. -/
theorem offers_video {u : Unicode} {policy : FormatPolicy} {formats : List VideoFormat}
    {spec : DownloadSpec} (h : Offers u policy formats spec) : ∃ tier, spec = .video tier := by
  obtain ⟨preview, -, ⟨tier, -, rfl⟩ | ⟨-, -, rfl⟩ | rfl⟩ := h
  · exact ⟨tier, rfl⟩
  · exact ⟨.best, rfl⟩
  · unfold FormatPolicy.defaultVideoSpec
    split
    · exact ⟨.best, rfl⟩
    · exact ⟨.p720, rfl⟩

section First

variable {entries : SortEntries} {formats : List VideoFormat} {f : VideoFormat}

/-- Without a resolution the codec decides first. -/
theorem first_compatible_direct (hcompat : ∃ g ∈ formats, g.isCompatible = true)
    (hf : IsFirst ((videoSort .best).map entries.better) formats f) : f.isCompatible = true := by
  obtain ⟨g, hg, hcg⟩ := hcompat
  by_contra hne
  have hworse : f.isCompatible = false := Bool.eq_false_iff.mpr hne
  exact hf.head g hg ((entries.vcodec g f).mpr ⟨hcg, hworse⟩)

/-- With one, the codec decides among the formats of the preferred side. -/
theorem first_compatible_iff (hsized : ∀ g ∈ formats, g.isSized = true) {tier : VideoTier}
    {side : Int} (ht : tier.shortSide = some side)
    (hf : IsFirst ((videoSort tier).map entries.better) formats f) :
    f.isCompatible = true ↔ ∃ g ∈ formats, g.isCompatible = true ∧
      ∀ h ∈ formats, resBetter side h.shortSide g.shortSide = false := by
  have hsort : IsFirst (entries.better (str "res:" ++ intStr side) ::
      entries.better (str "vcodec:" ++ compatibleVcodec) ::
        [str "acodec:aac", str "ext:mp4:m4a"].map entries.better) formats f := by
    simpa [videoSort, ht] using hf
  constructor
  · intro hc
    refine ⟨f, hf.1, hc, fun g hg => ?_⟩
    have hbest := hsort.head g hg
    rw [entries.res tier side g f ht (hsized g hg) (hsized f hf.1)] at hbest
    exact Bool.eq_false_iff.mpr hbest
  · rintro ⟨g, hg, hcg, hbest⟩
    have hres : Best (entries.better (str "res:" ++ intStr side)) formats g := by
      intro h hh
      rw [entries.res tier side h g ht (hsized h hh) (hsized g hg), hbest h hh]
      exact Bool.false_ne_true
    by_contra hne
    have hworse : f.isCompatible = false := Bool.eq_false_iff.mpr hne
    exact hsort.next hg hres ((entries.vcodec g f).mpr ⟨hcg, hworse⟩)

end First

/-- For a spec the card can offer, the download picks the compatible codec
exactly when the preferred resolution is there in it. -/
theorem offered_compatible_iff (entries : SortEntries) (u : Unicode) (policy : FormatPolicy)
    (formats : List VideoFormat) (hsized : ∀ f ∈ formats, f.isSized = true)
    (hcompat : ∃ f ∈ formats, f.isCompatible = true) (spec : DownloadSpec)
    (hoffer : Offers u policy formats spec) (f : VideoFormat)
    (hf : PutsFirst entries spec formats f) :
    f.isCompatible = true ↔ ResolutionCompatible formats spec := by
  obtain ⟨tier, rfl⟩ := offers_video hoffer
  obtain ⟨sort, hsort, hfirst⟩ := hf
  cases hsort
  cases ht : tier.shortSide with
  | none =>
    have hbest : tier = .best := by
      cases tier with
      | best => rfl
      | p720 => cases ht
      | p1080 => cases ht
    subst hbest
    refine ⟨fun _ tier side htier hside => ?_, fun _ => first_compatible_direct hcompat hfirst⟩
    cases htier
    cases hside
  | some side =>
    rw [first_compatible_iff hsized ht hfirst]
    constructor
    · intro h tier' side' htier hside
      cases htier
      rw [ht] at hside
      cases hside
      exact h
    · intro h
      exact h tier side rfl ht

namespace HighOnly

/-- yt-dlp's comparison under the entries that the code writes. -/
def better (entry : Str) (f g : VideoFormat) : Bool :=
  if entry = str "res:720" then resBetter 720 f.shortSide g.shortSide
  else if entry = str "res:1080" then resBetter 1080 f.shortSide g.shortSide
  else if entry = str "vcodec:h264" then f.isCompatible && !g.isCompatible
  else false

def entries : SortEntries where
  better entry f g := better entry f g = true
  res tier side f g ht _ _ := by
    cases tier with
    | p720 =>
      cases ht
      exact Iff.rfl
    | p1080 =>
      cases ht
      exact Iff.rfl
    | best => cases ht
  vcodec f g := by
    have hentry : better (str "vcodec:" ++ compatibleVcodec) f g =
        (f.isCompatible && !g.isCompatible) := rfl
    rw [hentry]
    simp

def h264 : VideoFormat := ⟨str "137", some (str "avc1.640028"), some 1920, some 1080⟩

def vp9 : VideoFormat := ⟨str "247", some (str "vp9"), some 1280, some 720⟩

/-- 1080p in h264, 720p in vp9 only. -/
def formats : List VideoFormat := [h264, vp9]

def preview : MediaPreview :=
  ⟨[], [], none, none, none, .video, str "youtube", maxCompatibleShortSide formats⟩

theorem offers (tier : VideoTier) (h : tier ∈ [VideoTier.p720, .p1080]) :
    Offers ⟨id, id⟩ ⟨[]⟩ formats (.video tier) := by
  have htiers : ((⟨[]⟩ : FormatPolicy).offeredChoices ⟨id, id⟩ preview.extractorKey
      preview.maxCompatibleShortSide).videoTiers = [.p720, .p1080] := by decide
  refine ⟨preview, rfl, .inl ⟨tier, ?_, rfl⟩⟩
  rw [htiers]
  exact h

theorem sized : ∀ f ∈ formats, f.isSized = true := by decide

theorem better_irrefl (entry : Str) (f : VideoFormat) : better entry f f = false := by
  have hres (limit a : Int) : resBetter limit a a = false := by
    unfold resBetter
    split
    · simpa using ‹a ≤ limit›
    · simp
  unfold better
  simp [hres]

/-- What the resolution prefers to the other format is put first. -/
theorem puts_first {tier : VideoTier} {side : Int} (ht : tier.shortSide = some side)
    {f g : VideoFormat} (hf : f ∈ formats) (hformats : ∀ h ∈ formats, h = f ∨ h = g)
    (hfg : entries.better (str "res:" ++ intStr side) f g)
    (hgf : ¬ entries.better (str "res:" ++ intStr side) g f) :
    PutsFirst entries (.video tier) formats f := by
  refine ⟨videoSort tier, rfl, hf, fun h hh => ?_⟩
  rcases hformats h hh with rfl | rfl
  · refine not_beats_self ?_
    intro r hr
    obtain ⟨entry, -, rfl⟩ := List.mem_map.mp hr
    have hself := better_irrefl entry h
    exact Bool.eq_false_iff.mp hself
  · simp only [videoSort, ht, List.map_cons, List.singleton_append]
    rintro (hbetter | ⟨hworse, -⟩)
    · exact hgf hbetter
    · exact hworse hfg

theorem formats_cases : ∀ h ∈ formats, h = h264 ∨ h = vp9 := fun _ h => List.mem_pair.mp h

/-- For 720p the vp9 format is put first. -/
theorem puts_vp9 : PutsFirst entries (.video .p720) formats vp9 := by
  have hfg : better (str "res:" ++ intStr 720) vp9 h264 = true := by decide
  have hgf : better (str "res:" ++ intStr 720) h264 vp9 = false := by decide
  exact @puts_first .p720 720 rfl _ _ (by decide) (fun h hh => (formats_cases h hh).symm) hfg
    (Bool.eq_false_iff.mp hgf)

theorem puts_h264 : PutsFirst entries (.video .p1080) formats h264 := by
  have hfg : better (str "res:" ++ intStr 1080) h264 vp9 = true := by decide
  have hgf : better (str "res:" ++ intStr 1080) vp9 h264 = false := by decide
  exact @puts_first .p1080 1080 rfl _ _ (by decide) formats_cases hfg (Bool.eq_false_iff.mp hgf)

end HighOnly

/-- The card offers 720p because of the h264 format, and the download picks vp9. -/
theorem offered_incompatible : (∀ f ∈ HighOnly.formats, f.isSized = true) ∧
    (∃ f ∈ HighOnly.formats, f.isCompatible = true) ∧
    ¬ ∀ spec, Offers ⟨id, id⟩ ⟨[]⟩ HighOnly.formats spec →
      ∀ f, PutsFirst HighOnly.entries spec HighOnly.formats f → f.isCompatible = true := by
  refine ⟨HighOnly.sized, by decide, fun hall => ?_⟩
  have hpicked := hall _ (HighOnly.offers .p720 (by decide)) _ HighOnly.puts_vp9
  revert hpicked
  decide

/-- 1080p is there in h264, and what is picked is h264. -/
theorem offered_compatible_1080 :
    HighOnly.h264.isCompatible = true ↔ ResolutionCompatible HighOnly.formats (.video .p1080) :=
  offered_compatible_iff HighOnly.entries ⟨id, id⟩ ⟨[]⟩ HighOnly.formats HighOnly.sized
    ⟨HighOnly.h264, by decide, by decide⟩ _ (HighOnly.offers .p1080 (by decide)) _
    HighOnly.puts_h264

end MediaDownloader
