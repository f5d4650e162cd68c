import MediaDownloader.Lib.Program
import MediaDownloader.Domain.Json
import MediaDownloader.Application.FormatPolicy

/-!
# The ports

Every effect of the modelled code is one of these calls; `Resp` is what the
call returns.  Log lines and their context are left out: nothing reads them.
-/

namespace MediaDownloader

open Interaction

/-- What a downloader does after `download` was called: it reports progress,
learns whether the callback raised, and in the end returns or raises. -/
inductive DownloadScript where
  | emit (progress : DownloadProgress) (k : Except Exc Unit → DownloadScript)
  | finish (result : Except Exc DownloadResult)

/-- A progress dict as the child puts it on its queue. -/
inductive RawProgress where
  | converting
  | stats (downloadedBytes totalBytes speed eta : Option Rat)
  deriving DecidableEq

/-- A row of the reaper's SELECT. -/
structure Candidate where
  id : UUID
  userId : UUID
  status : Str
  deriving DecidableEq

structure RateLimitResult where
  allowed : Bool
  retryAfterSeconds : Int
  deriving DecidableEq

/-- The message `message.answer` returns. -/
structure SentMessage where
  chatId : Int
  messageId : Int
  deriving DecidableEq

/-- Inline buttons, row by row: label and callback data. -/
abbrev Keyboard := List (List (Str × Str))

inductive Call where
  | getById (id : UUID)
  | create (request : DownloadRequest)
  | update (request : DownloadRequest)
  | markFailedById (id : UUID)
  | claimForProcessing (id : UUID)
  /-- `fail_stale` is two statements: its SELECT and its UPDATE. -/
  | selectStale (updatedBefore : Time) (limit : Nat)
  | updateStale (candidates : List Candidate) (updatedBefore : Time)
  | userGetById (id : UUID)
  | userGetByTelegramId (telegramId : Int)
  | userCreate (user : User)
  | userSetLanguage (telegramId : Int) (language : Option Str)
  /-- `datetime.now(UTC)`. -/
  | utcnow
  | uuid4
  /-- `uuid4().hex`. -/
  | uuid4Hex
  | enqueueDownload (id : UUID) (chatId messageId : Int)
  | enqueuePing (message : Str)
  | tempDirForRequest (id : UUID)
  | release (id : UUID)
  | availableBytes
  | getPreview (url : Str)
  | download (url : Str) (options : DownloadOptions)
  /-- How the `download` call before it ended. -/
  | downloadEnd (result : Except Exc DownloadResult)
  /-- `output_dir.mkdir(parents=True, exist_ok=True)`. -/
  | makeDir (path : Str)
  /-- The real downloader's executor call: the child's events and what the runner did. -/
  | runInExecutor (url : Str) (options : DownloadOptions)
  | sendFile (telegramId : Int) (media : DeliverableMedia)
  /-- `about` is a ghost: the request on whose behalf the text goes out. -/
  | sendText (about : UUID) (telegramId : Int) (text : Str)
  | localize (errorKey : Str) (locale : Option Str) (args : List (Str × Int))
  | publish (id : UUID) (chatId messageId : Int) (language : Option Str)
      (progress : DownloadProgress)
  | acquire (key : Str) (limit windowSeconds : Int)
  | redisSet (key : Str) (value : Entry) (ttlSeconds : Int)
  | redisGet (key : Str)
  | redisGetdel (key : Str)
  | redisDelete (key : Str)
  /-- Marks the entry of `RequestDownloadUseCase.execute`. -/
  | requestDownload (telegramId : Int) (url : Str) (spec : DownloadSpec) (extractorKey : Str)
  | answer (text : Str) (markup : Keyboard)
  | editText (text : Str) (markup : Keyboard)
  | editMarkup (markup : Keyboard)
  | answerCallback (text : Option Str) (showAlert : Bool)
  | setState
  | clearState
  | setLocale (locale : Str)
  | healthCheck
  | pingResult

@[reducible] def Resp : Call → Type
  | .getById _ => Option DownloadRequest
  | .claimForProcessing _ => Bool
  | .selectStale _ _ => List Candidate
  | .updateStale _ _ => List UUID
  | .userGetById _ => Option User
  | .userGetByTelegramId _ => Option User
  | .userSetLanguage _ _ => Option User
  | .utcnow => Time
  | .uuid4 => UUID
  | .uuid4Hex => Str
  | .enqueueDownload _ _ _ => Str
  | .enqueuePing _ => Str
  | .tempDirForRequest _ => Str
  | .availableBytes => Int
  | .getPreview _ => MediaPreview
  | .download _ _ => DownloadScript
  | .runInExecutor _ _ => List RawProgress × Except Exc DownloadResult
  | .localize _ _ _ => Str
  | .acquire _ _ _ => RateLimitResult
  | .redisGet _ => Option Entry
  | .redisGetdel _ => Option Entry
  | .answer _ _ => SentMessage
  | .healthCheck => Bool × Bool
  | .pingResult => Option (Str × Str)
  | _ => Unit

abbrev Program := Prog Call Resp Exc
abbrev Job := Act Call Resp Exc
abbrev Ev := Event Call Resp Exc
abbrev Trace := List Ev

/-- Make a call. -/
abbrev port (c : Call) : Job (Resp c) := Act.port c

end MediaDownloader
