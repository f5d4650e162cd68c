import MediaDownloader.Domain.Numbers

/-!
# Value objects and entities

`DownloadSpec` is stored as two columns.  `specFromParts` is the strict
inverse of `specKind` and `specVideoTier` (`specFromParts_parts`).
-/

namespace MediaDownloader

inductive FormatKind where
  | video
  | audio
  deriving DecidableEq

def FormatKind.value : FormatKind → Str
  | .video => str "video"
  | .audio => str "audio"

/-- `FormatKind(value)`; `none` is the `ValueError`. -/
def FormatKind.parse (s : Str) : Option FormatKind :=
  if s = str "video" then some .video
  else if s = str "audio" then some .audio
  else none

inductive VideoTier where
  | p720
  | p1080
  | best
  deriving DecidableEq

namespace VideoTier

def value : VideoTier → Str
  | p720 => str "p720"
  | p1080 => str "p1080"
  | best => str "best"

def parse (s : Str) : Option VideoTier :=
  if s = str "p720" then some p720
  else if s = str "p1080" then some p1080
  else if s = str "best" then some best
  else none

/-- Short-side pixels of the tier; `none` is "no preference". -/
def shortSide : VideoTier → Option Int
  | p720 => some 720
  | p1080 => some 1080
  | best => none

end VideoTier

/-- `AudioCodec` has the one member `MP3`, so an audio spec carries nothing. -/
inductive DownloadSpec where
  | video (tier : VideoTier)
  | audio
  deriving DecidableEq

def defaultDownloadSpec : DownloadSpec := .video .p720

def specKind : DownloadSpec → FormatKind
  | .video _ => .video
  | .audio => .audio

def specVideoTier : DownloadSpec → Option VideoTier
  | .video tier => some tier
  | .audio => none

/-- Rebuild a spec from its two columns; `none` is the `ValueError`. -/
def specFromParts (kind : Str) (videoTier : Option Str) : Option DownloadSpec :=
  match FormatKind.parse kind, videoTier with
  | some .video, some tier => (VideoTier.parse tier).map .video
  | some .audio, none => some .audio
  | _, _ => none

inductive DownloadStatus where
  | pending
  | processing
  | done
  | failed
  deriving DecidableEq

namespace DownloadStatus

def value : DownloadStatus → Str
  | pending => str "pending"
  | processing => str "processing"
  | done => str "done"
  | failed => str "failed"

def parse (s : Str) : Option DownloadStatus :=
  if s = str "pending" then some pending
  else if s = str "processing" then some processing
  else if s = str "done" then some done
  else if s = str "failed" then some failed
  else none

end DownloadStatus

inductive MediaType where
  | video
  | audio
  | photo
  | unknown
  deriving DecidableEq

namespace MediaType

def value : MediaType → Str
  | video => str "video"
  | audio => str "audio"
  | photo => str "photo"
  | unknown => str "unknown"

/-- Degrades to `UNKNOWN` instead of raising. -/
def fromDbValue (s : Str) : MediaType :=
  if s = str "video" then video
  else if s = str "audio" then audio
  else if s = str "photo" then photo
  else unknown

end MediaType

inductive ProgressPhase where
  | downloading
  | converting
  | uploading
  | done
  | failed
  deriving DecidableEq

def ProgressPhase.value : ProgressPhase → Str
  | .downloading => str "downloading"
  | .converting => str "converting"
  | .uploading => str "uploading"
  | .done => str "done"
  | .failed => str "failed"

/-- Floats are exact rationals here: a snapshot is only ever passed on. -/
structure DownloadProgress where
  percent : Option Rat
  downloadedBytes : Int
  totalBytes : Option Int
  speed : Option Rat
  eta : Option Int
  phase : ProgressPhase
  deriving DecidableEq

def phaseMarker (phase : ProgressPhase) : DownloadProgress :=
  { percent := none, downloadedBytes := 0, totalBytes := none, speed := none, eta := none,
    phase := phase }

structure DownloadOptions where
  outputDir : Str
  maxFilesizeBytes : Option Int
  timeoutSeconds : Int
  spec : DownloadSpec
  deriving DecidableEq

structure DownloadResult where
  path : Str
  width : Option Int
  height : Option Int
  durationSeconds : Option Int
  title : Option Str
  uploader : Option Str
  deriving DecidableEq

structure DeliverableMedia where
  path : Str
  kind : FormatKind
  width : Option Int
  height : Option Int
  durationSeconds : Option Int
  title : Option Str
  performer : Option Str
  deriving DecidableEq

def DeliverableMedia.fromResult (result : DownloadResult) (kind : FormatKind) :
    DeliverableMedia :=
  { path := result.path
    kind := kind
    width := if kind = .video then result.width else none
    height := if kind = .video then result.height else none
    durationSeconds := result.durationSeconds
    title := result.title
    performer := result.uploader }

structure StaleRequest where
  requestId : UUID
  userId : UUID
  previousStatus : DownloadStatus
  deriving DecidableEq

/-- The duration is what yt-dlp reported, an `int` or a `float`. -/
structure MediaPreview where
  sourceUrl : Str
  title : Str
  durationSeconds : Option PyNumber
  uploader : Option Str
  thumbnailUrl : Option Str
  mediaType : MediaType
  extractorKey : Str
  maxCompatibleShortSide : Option Int
  deriving DecidableEq

structure PreviewContext where
  url : Str
  extractorKey : Str
  maxCompatibleShortSide : Option Int
  deriving DecidableEq

def PreviewContext.fromPreview (preview : MediaPreview) : PreviewContext :=
  { url := preview.sourceUrl
    extractorKey := preview.extractorKey
    maxCompatibleShortSide := preview.maxCompatibleShortSide }

structure DownloadRequest where
  id : UUID
  userId : UUID
  sourceUrl : Str
  mediaType : MediaType
  status : DownloadStatus
  spec : DownloadSpec
  createdAt : Time
  completedAt : Option Time
  deriving DecidableEq

namespace DownloadRequest

/-- The factory; `uuid4()` and `datetime.now(UTC)` are its arguments. -/
def create (id : UUID) (now : Time) (userId : UUID) (sourceUrl : Str) (spec : DownloadSpec) :
    DownloadRequest :=
  { id := id, userId := userId, sourceUrl := sourceUrl, mediaType := .unknown,
    status := .pending, spec := spec, createdAt := now, completedAt := none }

def markProcessing (r : DownloadRequest) : DownloadRequest := { r with status := .processing }

def markDone (r : DownloadRequest) (now : Time) : DownloadRequest :=
  { r with status := .done, completedAt := some now }

def markFailed (r : DownloadRequest) (now : Time) : DownloadRequest :=
  { r with status := .failed, completedAt := some now }

@[simp] theorem markProcessing_id (r : DownloadRequest) : r.markProcessing.id = r.id := rfl
@[simp] theorem markDone_id (r : DownloadRequest) (now : Time) : (r.markDone now).id = r.id := rfl
@[simp] theorem markFailed_id (r : DownloadRequest) (now : Time) :
    (r.markFailed now).id = r.id := rfl

end DownloadRequest

structure User where
  id : UUID
  telegramId : Option Int
  isPremium : Bool
  language : Option Str
  createdAt : Time
  deriving DecidableEq

def User.createFromTelegram (id : UUID) (now : Time) (telegramId : Int)
    (language : Option Str) : User :=
  { id := id, telegramId := some telegramId, isPremium := false, language := language,
    createdAt := now }

/-! ## Stored columns -/

theorem DownloadStatus.parse_value (s : DownloadStatus) : parse s.value = some s := by
  cases s <;> decide

theorem DownloadStatus.value_of_parse {v : Str} {s : DownloadStatus} (h : parse v = some s) :
    v = s.value := by
  unfold parse at h
  split at h
  · cases h; assumption
  · split at h
    · cases h; assumption
    · split at h
      · cases h; assumption
      · split at h
        · cases h; assumption
        · cases h

/-- Every spec is read back from the columns it is stored as. -/
theorem specFromParts_parts (spec : DownloadSpec) :
    specFromParts (specKind spec).value ((specVideoTier spec).map VideoTier.value) = some spec := by
  cases spec with
  | video tier => cases tier <;> decide
  | audio => decide

end MediaDownloader
