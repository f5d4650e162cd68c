import MediaDownloader.Application.Ports

/-!
# ProcessDownloadUseCase

The worker's use case, call by call.  `download` is a parameter: the scripted
downloader below does whatever a `DownloaderPort` may do, the real one is
`YtDlpDownloader.download`.
-/

namespace MediaDownloader

open Interaction

/-- `await downloader.download(url, options, progress_callback)`. -/
abbrev Downloader := Str → DownloadOptions → (DownloadProgress → Job Unit) → Job DownloadResult

structure ProcessDownload where
  download : Downloader
  maxDeliverableFileSizeBytes : Int
  downloadTimeoutSeconds : Int
  minFreeDiskBytes : Int

/-! ## A downloader that may do anything -/

def DownloadScript.play (callback : DownloadProgress → Job Unit) :
    DownloadScript → Job (Except Exc DownloadResult)
  | finish r => pure r
  | emit p k => do
    let r ← Act.attempt (callback p)
    (k r).play callback

/-- Any downloader at all: the environment hands out its script. -/
def scriptedDownload : Downloader := fun url options callback => do
  let script ← port (.download url options)
  let result ← script.play callback
  let _ ← Act.attempt (port (.downloadEnd result))
  Act.lift result

namespace ProcessDownload

def localizeFailure (exc : Exc) (locale : Option Str) : Job Str :=
  port (.localize exc.errorKey locale exc.errorArgs)

/-- Moves the card; an `Exception` of the publisher is logged and dropped. -/
def publishPhase (requestId : UUID) (chatId messageId : Int) (language : Option Str)
    (phase : ProgressPhase) : Job Unit := do
  match ← Act.attempt (port (.publish requestId chatId messageId language (phaseMarker phase))) with
  | .ok _ => pure ()
  | .error e => if e.isException then pure () else Act.raise e

def reportCorruptedRecord (exc : Exc) (requestId userId : UUID) (chatId messageId : Int) :
    Job Unit := do
  port (.markFailedById requestId)
  match ← port (.userGetById userId) with
  | none => pure ()
  | some user =>
    match user.telegramId with
    | none => pure ()
    | some telegramId => do
      publishPhase requestId chatId messageId user.language .failed
      let text ← port (.localize exc.errorKey user.language [])
      port (.sendText requestId telegramId text)

/-- Mark failed, move the card to FAILED, tell the user `text`. -/
def fail (request : DownloadRequest) (user : User) (telegramId chatId messageId : Int)
    (text : Str) : Job Unit := do
  let now ← port .utcnow
  port (.update (request.markFailed now))
  publishPhase request.id chatId messageId user.language .failed
  port (.sendText request.id telegramId text)

/-- The part of `_process` after a successful download. -/
def deliver (request : DownloadRequest) (user : User) (telegramId chatId messageId : Int)
    (result : DownloadResult) : Job Unit := do
  publishPhase request.id chatId messageId user.language .uploading
  match ← Act.attempt (port (.sendFile telegramId
      (DeliverableMedia.fromResult result (specKind request.spec)))) with
  | .error e =>
    if e.isNotifierError then do
      let text ← port (.localize (str "error-delivery-failed") user.language [])
      fail request user telegramId chatId messageId text
    else Act.raise e
  | .ok _ => do
    let now ← port .utcnow
    port (.update (request.markDone now))
    publishPhase request.id chatId messageId user.language .done

/-- The part of `_process` after `download` returned or raised. -/
def conclude (request : DownloadRequest) (user : User) (telegramId chatId messageId : Int) :
    Except Exc DownloadResult → Job Unit
  | .error e =>
    if e.isDownloadFailure then do
      let text ← localizeFailure e user.language
      fail request user telegramId chatId messageId text
    else Act.raise e
  | .ok result => deliver request user telegramId chatId messageId result

/-- The part of `_process` after the disk check. -/
def fetch (cfg : ProcessDownload) (request : DownloadRequest) (user : User)
    (telegramId chatId messageId : Int) : Job Unit := do
  let outputDir ← port (.tempDirForRequest request.id)
  let options : DownloadOptions :=
    { outputDir := outputDir
      maxFilesizeBytes := some cfg.maxDeliverableFileSizeBytes
      timeoutSeconds := cfg.downloadTimeoutSeconds
      spec := request.spec }
  let onProgress := fun progress =>
    port (.publish request.id chatId messageId user.language progress)
  let outcome ← Act.attempt (cfg.download request.sourceUrl options onProgress)
  conclude request user telegramId chatId messageId outcome

def process (cfg : ProcessDownload) (request : DownloadRequest) (user : User)
    (telegramId chatId messageId : Int) : Job Unit :=
  if cfg.minFreeDiskBytes = 0 then
    fetch cfg request user telegramId chatId messageId
  else do
    let available ← port .availableBytes
    if available < cfg.minFreeDiskBytes then do
      let text ← localizeFailure .insufficientStorage user.language
      fail request user telegramId chatId messageId text
    else fetch cfg request user telegramId chatId messageId

/-- From the claim on. -/
def claimAndProcess (cfg : ProcessDownload) (request : DownloadRequest) (user : User)
    (telegramId chatId messageId : Int) : Job Unit := do
  let claimed ← port (.claimForProcessing request.id)
  if !claimed then pure ()
  else
    let request := request.markProcessing
    Act.ensure (process cfg request user telegramId chatId messageId)
      (port (.release request.id))

def execute (cfg : ProcessDownload) (requestId : UUID) (chatId messageId : Int) : Job Unit := do
  match ← Act.attempt (port (.getById requestId)) with
  | .error (.corruptedRecord column raw rid uid) =>
    reportCorruptedRecord (.corruptedRecord column raw rid uid) rid uid chatId messageId
  | .error e => Act.raise e
  | .ok none => pure ()
  | .ok (some request) =>
    match ← port (.userGetById request.userId) with
    | none => pure ()
    | some user =>
      match user.telegramId with
      | none => pure ()
      | some telegramId => claimAndProcess cfg request user telegramId chatId messageId

end ProcessDownload

end MediaDownloader
