import MediaDownloader.Domain.Text
import MediaDownloader.Application.ProcessDownload

/-!
# YtDlpDownloader

`download()` on top of the executor call: the child's events are drained into
the callback, the runner's failures become domain errors.  The order in which
the bridge delivers is `ProgressBridge.lean`, the runner `DownloadRunner.lean`.
-/

namespace MediaDownloader

open Interaction

/-! ## classify_error -/

/-- `_SIGNATURES`: the first entry with a fragment in the message wins. -/
def signatures : List (List String × Extraction) :=
  [(["private", "login required", "log in", "sign in to view", "this post is not available",
      "requested content is not available", "you need to log in", "account is private",
      "only available to", "followers"], .privateContent),
   (["sign in to confirm your age", "age-restricted", "age restricted",
      "inappropriate for some users", "confirm your age"], .ageRestricted),
   (["geo", "not available in your country", "not available from your location",
      "blocked in your country", "available for the region", "video is restricted based on",
      "not made this video available in your country", "who has blocked it in your country",
      "not available in your location"], .geoRestricted),
   (["video unavailable", "has been removed", "no longer available", "does not exist",
      "account has been terminated", "this video has been deleted", "content isn't available",
      "removed by the uploader", "page not found", "http error 404"], .contentUnavailable),
   (["no video formats found", "there's no video", "there is no video", "no media found",
      "unable to extract video"], .unsupportedMedia)]

def photoUrlMarkers : List String := ["/photo/", "/photos/", "/slideshow/"]
def photoMsgMarkers : List String := ["slideshow", "photo mode", "image post"]

/-- Some fragment occurs in the text. -/
def mentions (fragments : List String) (text : Str) : Bool :=
  fragments.any fun f => contains (str f) text

def classifyError (u : Unicode) (message url : Str) : Exc :=
  let lowered := u.lower message
  match signatures.find? fun entry => mentions entry.1 lowered with
  | some entry => .extraction entry.2
  | none =>
    if contains (str "unsupported url") lowered then
      if mentions photoUrlMarkers (u.lower url) || mentions photoMsgMarkers lowered then
        .extraction .unsupportedMedia
      else .unsupportedURL []
    else .extraction .extractionFailed

/-! ## get_preview -/

/-- `_preview_facts`: what the child sends back of yt-dlp's info. -/
structure PreviewFacts where
  title : Option Str
  duration : Option PyNumber
  uploader : Option Str
  thumbnail : Option Str
  mediaType : MediaType
  extractorKey : Str
  maxCompatibleShortSide : Option Int

/-- What `get_preview` returns for a URL. -/
def mediaPreview (url : Str) (facts : PreviewFacts) : MediaPreview :=
  let title := facts.title.getD []
  { sourceUrl := url
    title := if title.isEmpty then str "Без названия" else title
    durationSeconds := facts.duration
    uploader := facts.uploader
    thumbnailUrl := facts.thumbnail
    mediaType := facts.mediaType
    extractorKey := facts.extractorKey
    maxCompatibleShortSide := facts.maxCompatibleShortSide }

/-! ## Progress -/

/-- `int(x)`: towards zero. -/
def truncate (q : Rat) : Int := q.num.tdiv q.den

def buildDownloadProgress : RawProgress → DownloadProgress
  | .converting => phaseMarker .converting
  | .stats downloadedBytes totalBytes speed eta =>
    let downloaded := truncate (downloadedBytes.getD 0)
    let total := totalBytes.map truncate
    { percent := total.bind fun n => if n = 0 then none else some (downloaded / n * 100)
      downloadedBytes := downloaded
      totalBytes := total
      speed := speed
      eta := eta.map truncate
      phase := .downloading }

/-- `_drain_bridge` over the events that reach it before `None`. -/
def drain (callback : DownloadProgress → Job Unit) (events : List RawProgress) : Job Unit :=
  Act.each (fun raw => callback (buildDownloadProgress raw)) events

/-- What `drain` raises, when the n-th callback call raises `raises n`. -/
def drainFailure (raises : Nat → Option Exc) (n : Nat) : List RawProgress → Option Exc
  | [] => none
  | _ :: events =>
    match raises n with
    | some e => some e
    | none => drainFailure raises (n + 1) events

/-- The snapshots `drain` calls the callback on. -/
def drained (raises : Nat → Option Exc) (n : Nat) : List RawProgress → List DownloadProgress
  | [] => []
  | raw :: events =>
    buildDownloadProgress raw ::
      match raises n with
      | some _ => []
      | none => drained raises (n + 1) events

theorem drainFailure_none (n : Nat) (events : List RawProgress) :
    drainFailure (fun _ => none) n events = none := by
  induction events generalizing n with
  | nil => rfl
  | cons _ events ih => exact ih (n + 1)

theorem drained_none (n : Nat) (events : List RawProgress) :
    drained (fun _ => none) n events = events.map buildDownloadProgress := by
  induction events generalizing n with
  | nil => rfl
  | cons raw events ih => simp only [drained, ih, List.map_cons]

/-- How `download` ends: the drain task's exception replaces the runner's outcome. -/
def downloadResult (failure : Option Exc) (outcome : Except Exc DownloadResult) :
    Except Exc DownloadResult :=
  match failure with
  | some e => .error e
  | none => outcome

/-! ## download -/

/-- The `except` clauses of `download`. -/
def mapFailure (u : Unicode) (url : Str) : Exc → Exc
  | .runnerTimeout => .extraction .downloadTimeout
  | .runnerTooLarge estimatedMb limitMb => .extraction (.fileTooLarge estimatedMb limitMb)
  | .runnerExtract message => classifyError u message url
  | .runnerProcess _ => .extraction .extractionFailed
  | e => e

def mapOutcome (u : Unicode) (url : Str) : Except Exc DownloadResult → Except Exc DownloadResult
  | .ok result => .ok result
  | .error e => .error (mapFailure u url e)

/-- `YtDlpDownloader.download`: the drain task is awaited in the `finally`, so
what the callback raises replaces the outcome. -/
def ytDlpDownload (u : Unicode) : Downloader := fun url options callback => do
  port (.makeDir options.outputDir)
  let (events, outcome) ← port (.runInExecutor url options)
  Act.ensure (Act.lift (mapOutcome u url outcome)) (drain callback events)

/-- The worker's use case over the real downloader. -/
abbrev ProcessDownload.withYtDlp (u : Unicode) (cfg : ProcessDownload) : ProcessDownload :=
  { cfg with download := ytDlpDownload u }

end MediaDownloader
