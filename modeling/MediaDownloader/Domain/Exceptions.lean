import Mathlib.Data.List.Basic

/-!
# Names, texts and exceptions

A Python `str` is its list of code points, unpaired surrogates included.  The
exception classes are one type: the code only ever asks which class an
exception is and reads the fields the classes below carry.
-/

namespace MediaDownloader

/-- A Python `str`. -/
abbrev Str := List Nat

instance : LawfulBEq Str := List.instLawfulBEq

/-- A literal. -/
def str (s : String) : Str := s.toList.map Char.toNat

abbrev UUID := Nat

/-- A `datetime` in UTC, in microseconds. -/
abbrev Time := Int

/-- `ExtractionError` and its subclasses. -/
inductive Extraction where
  | extractionFailed
  | privateContent
  | geoRestricted
  | ageRestricted
  | contentUnavailable
  | unsupportedMedia
  | downloadTimeout
  | previewTimeout
  | fileTooLarge (estimatedMb limitMb : Int)
  deriving DecidableEq

def Extraction.errorKey : Extraction → Str
  | extractionFailed => str "error-extraction-failed"
  | privateContent => str "error-private"
  | geoRestricted => str "error-geo"
  | ageRestricted => str "error-age"
  | contentUnavailable => str "error-unavailable"
  | unsupportedMedia => str "error-unsupported-media"
  | downloadTimeout => str "error-timeout"
  | previewTimeout => str "error-preview-timeout"
  | fileTooLarge _ _ => str "error-too-large"

inductive Exc where
  | extraction (e : Extraction)
  | unsupportedURL (message : Str)
  | formatNotAllowed
  | downloadEnqueue
  | insufficientStorage
  | notifier (message : Str)
  | corruptedRecord (column rawValue : Str) (requestId userId : UUID)
  /-- The runner's own classes: `_DownloadTimeoutError` and its siblings. -/
  | runnerTimeout
  | runnerProcess (message : Str)
  | runnerExtract (message : Str)
  | runnerTooLarge (estimatedMb limitMb : Int)
  | previewTimeout
  /-- Any other subclass of `Exception`, by name. -/
  | other (name : Str)
  /-- `asyncio.CancelledError`: a `BaseException` that is no `Exception`. -/
  | cancelled
  deriving DecidableEq

namespace Exc

def valueError : Exc := .other (str "ValueError")
def integrityError : Exc := .other (str "IntegrityError")

/-- Caught by `except Exception`. -/
def isException : Exc → Bool
  | .cancelled => false
  | _ => true

/-- Caught by `except (ExtractionError, UnsupportedURLError)`. -/
def isDownloadFailure : Exc → Bool
  | .extraction _ => true
  | .unsupportedURL _ => true
  | _ => false

/-- Caught by `except NotifierError`. -/
def isNotifierError : Exc → Bool
  | .notifier _ => true
  | _ => false

/-- `getattr(exc, "error_key", ExtractionError.error_key)`. -/
def errorKey : Exc → Str
  | .extraction e => e.errorKey
  | .unsupportedURL _ => str "error-unsupported-site"
  | .formatNotAllowed => str "error-format-not-allowed"
  | .downloadEnqueue => str "error-internal"
  | .insufficientStorage => str "error-storage-full"
  | .corruptedRecord _ _ _ _ => str "error-internal"
  | _ => str "error-extraction-failed"

/-- The arguments `_localize_failure` passes beside the key. -/
def errorArgs : Exc → List (Str × Int)
  | .extraction (.fileTooLarge est lim) => [(str "estimated_mb", est), (str "limit_mb", lim)]
  | _ => []

end Exc

/-- A `TelegramAPIError` of aiogram.  Its subclasses are siblings: only the bad
request is caught by `except TelegramBadRequest`. -/
inductive TelegramError where
  | badRequest (message : Str)
  | notFound
  | conflict
  | unauthorized
  | forbidden
  | retryAfter
  | migrateToChat
  | server
  | restarting
  | network
  | entityTooLarge
  deriving DecidableEq

namespace TelegramError

/-- The class name. -/
def name : TelegramError → Str
  | badRequest _ => str "TelegramBadRequest"
  | notFound => str "TelegramNotFound"
  | conflict => str "TelegramConflictError"
  | unauthorized => str "TelegramUnauthorizedError"
  | forbidden => str "TelegramForbiddenError"
  | retryAfter => str "TelegramRetryAfter"
  | migrateToChat => str "TelegramMigrateToChat"
  | server => str "TelegramServerError"
  | restarting => str "RestartingTelegram"
  | network => str "TelegramNetworkError"
  | entityTooLarge => str "TelegramEntityTooLarge"

def toExc (e : TelegramError) : Exc := .other e.name

end TelegramError

/-- `StaleRequestError.error_key`. -/
def staleRequestKey : Str := str "error-request-stale"

end MediaDownloader
