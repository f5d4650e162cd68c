import MediaDownloader.Infrastructure.FormatSelection
import MediaDownloader.Infrastructure.YtDlpDownloader

/-!
# The preview, from the child's info to the caller

The child reduces yt-dlp's info to facts and puts one item on its queue; the
parent turns the item into a preview or a domain error.
-/

namespace MediaDownloader

/-- yt-dlp's info dict, as far as the preview reads it. -/
structure PreviewInfo where
  title : Option Str
  duration : Option PyNumber
  uploader : Option Str
  thumbnail : Option Str
  vcodec : Option Str
  acodec : Option Str
  extractorKey : Option Str
  formats : List VideoFormat

/-- `_guess_media_type`. -/
def guessMediaType (info : PreviewInfo) : MediaType :=
  if info.vcodec ≠ none ∧ info.vcodec ≠ some (str "none") then .video
  else if info.acodec ≠ none ∧ info.acodec ≠ some (str "none") then .audio
  else .unknown

/-- `_preview_facts`. -/
def previewFacts (u : Unicode) (info : PreviewInfo) : PreviewFacts :=
  { title := info.title
    duration := info.duration
    uploader := info.uploader
    thumbnail := info.thumbnail
    mediaType := guessMediaType info
    extractorKey := u.lower (info.extractorKey.getD [])
    maxCompatibleShortSide := maxCompatibleShortSide info.formats }

/-- What the preview child puts on `result_queue`. -/
inductive PreviewItem where
  | ok (facts : PreviewFacts)
  | empty
  | extractError (message : Str)
  | error (message : Str)

/-- `_preview_worker_entrypoint`, after what `_extract_info_sync` did. -/
def previewWorkerEntrypoint (u : Unicode) : Except PreviewItem (Option PreviewInfo) → PreviewItem
  | .ok none => .empty
  | .ok (some info) => .ok (previewFacts u info)
  | .error item => item

/-- `_run_preview_in_process`, after `_collect_preview_result`. -/
def runPreviewInProcess : Except Exc PreviewItem → Except Exc (Option PreviewFacts)
  | .ok (.ok facts) => .ok (some facts)
  | .ok .empty => .ok none
  | .ok (.extractError message) => .error (.runnerExtract message)
  | .ok (.error message) => .error (.runnerProcess message)
  | .error e => .error e

/-- `YtDlpDownloader.get_preview`, after the executor call. -/
def getPreview (u : Unicode) (url : Str) :
    Except Exc (Option PreviewFacts) → Except Exc MediaPreview
  | .ok (some facts) => .ok (mediaPreview url facts)
  | .ok none => .error (.extraction .extractionFailed)
  | .error .previewTimeout => .error (.extraction .previewTimeout)
  | .error (.runnerExtract message) => .error (classifyError u message url)
  | .error (.runnerProcess _) => .error (.extraction .extractionFailed)
  | .error e => .error e

end MediaDownloader
