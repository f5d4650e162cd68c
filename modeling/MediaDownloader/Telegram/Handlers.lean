import MediaDownloader.Application.RequestDownload
import MediaDownloader.Infrastructure.PreviewContextStore
import MediaDownloader.Telegram.Keyboards

/-!
# Handlers

The bot's message and callback handlers, router by router, and the filters
that pick one of them for an update.
-/

namespace MediaDownloader

open Interaction

/-- What a handler reads of a message. -/
structure Message where
  fromUser : Option Int
  text : Option Str
  chatId : Int
  messageId : Int
  deriving DecidableEq

/-- A button tap; `message` is the card, if the bot can still reach it. -/
structure CallbackQuery where
  fromUser : Int
  data : Option Str
  message : Option Message
  deriving DecidableEq

/-- What the dispatcher hands to every handler, and aiogram's `Command` filter
(command name, text). -/
structure Bot where
  unicode : Unicode
  core : FluentCore
  settings : Settings
  policy : FormatPolicy
  command : Str → Str → Bool

/-! ## Pieces of handlers -/

/-- `message.answer(i18n.get(..))`. -/
def answerWith (text : Except Exc Str) : Job SentMessage := do
  let text ← Act.lift text
  port (.answer text [])

/-- `status_message.edit_text(i18n.get(..))`. -/
def editWith (text : Except Exc Str) : Job Unit := do
  let text ← Act.lift text
  port (.editText text [])

/-- `callback.answer(i18n.get(..), show_alert=True)`. -/
def alertWith (text : Except Exc Str) : Job Unit := do
  let text ← Act.lift text
  port (.answerCallback (some text) true)

def badUrl (i18n : I18n) (reason : Str) : Except Exc Str :=
  i18n.get "error-bad-url" [(str "reason", .text reason)]

/-- Text edits and answers that only happen on a reachable card. -/
def onMessage (message : Option Message) (act : Message → Job Unit) : Job Unit :=
  match message with
  | none => pure ()
  | some message => act message

namespace Handler

variable (bot : Bot) (i18n : I18n)

/-! ## admin -/

def handleHealth : Job Unit := do
  let report ← port .healthCheck
  let ok ← Act.lift (i18n.get "health-ok" [])
  let failed ← Act.lift (i18n.get "health-fail" [])
  let postgres ← Act.lift (i18n.get "health-postgres"
    [(str "status", .text (if report.1 then ok else failed))])
  let redis ← Act.lift (i18n.get "health-redis"
    [(str "status", .text (if report.2 then ok else failed))])
  let _ ← port (.answer (postgres ++ str "\n" ++ redis) [])
  pure ()

def handleWorkerPing (message : Message) : Job Unit := do
  let pingMessage :=
    match splitWords1 (message.text.getD []) with
    | _ :: rest :: _ => rest
    | _ => str "hello from bot"
  let jobId ← port (.enqueuePing pingMessage)
  let _ ← answerWith (i18n.get "worker-ping-enqueued" [(str "jobid", .text jobId)])
  pure ()

def handleWorkerStatus : Job Unit := do
  match ← port .pingResult with
  | none => do
    let _ ← answerWith (i18n.get "worker-status-empty" [])
    pure ()
  | some result => do
    let _ ← answerWith (i18n.get "worker-status"
      [(str "message", .text (htmlEscape result.1)), (str "processed", .text result.2)])
    pure ()

/-- Consumes the update in silence. -/
def handleAdminCommandDenied : Job Unit := pure ()

/-! ## basic -/

def handleStart (message : Message) : Job Unit :=
  match message.fromUser with
  | none => pure ()
  | some telegramId => do
    let _ ← registerUser telegramId (some i18n.locale)
    let text ← Act.lift (i18n.get "start-greeting" [])
    let menu ← Act.lift (mainMenuKeyboard i18n)
    let _ ← port (.answer text menu)
    pure ()

def handleHelp : Job Unit := do
  let _ ← answerWith (formatHelp i18n bot.settings)
  pure ()

def handlePing : Job Unit := do
  let _ ← port (.answer (str "pong") [])
  pure ()

/-! ## language -/

def handleLanguageCommand : Job Unit := do
  let text ← Act.lift (i18n.get "language-prompt" [])
  let picker ← Act.lift (languagePickerKeyboard i18n)
  let _ ← port (.answer text picker)
  pure ()

def supportedLocales : List Str := [str "ru", str "en"]

def handleLanguageChoice (callback : CallbackQuery) : Job Unit := do
  let chosen := (callback.data.getD []).drop cbLangPrefix.length
  if chosen ∉ supportedLocales then port (.answerCallback none false)
  else do
    port (.setLocale chosen)
    let _ ← setUserLanguage callback.fromUser chosen
    onMessage callback.message fun _ => do
      let text ← Act.lift (i18n.core (str "language-changed") chosen [])
      let menu ← Act.lift (mainMenuKeyboard { i18n with locale := chosen })
      let _ ← port (.answer text menu)
      pure ()
    port (.answerCallback none false)

/-! ## preview -/

/-- `/preview <url>`: straight to the extractor. -/
def handlePreview (message : Message) : Job Unit :=
  match splitWords1 (message.text.getD []) with
  | _ :: rest :: _ => do
    match ← Act.attempt (previewDownload bot.unicode (strip rest)) with
    | .error e =>
      if e.isDownloadFailure then do
        let _ ← answerWith (formatDownloadError i18n e)
        pure ()
      else Act.raise e
    | .ok preview => do
      let _ ← answerWith (formatPreview i18n preview)
      pure ()
  | _ => do
    let _ ← answerWith (i18n.get "preview-usage" [])
    pure ()

/-! ## download -/

/-- The `async with` block of `handle_download`. -/
def requestPreviewed (telegramId : Int) (url : Str) (preview : MediaPreview)
    (status : SentMessage) : Job Unit := do
  let spec := FormatPolicy.defaultVideoSpec preview
  port (.requestDownload telegramId url spec preview.extractorKey)
  match ← Act.attempt (RequestDownload.execute bot.unicode bot.policy telegramId url spec
      preview.extractorKey status.chatId status.messageId) with
  | .ok _ => pure ()
  | .error (.unsupportedURL reason) => editWith (badUrl i18n (htmlEscape reason))
  | .error .formatNotAllowed => editWith (formatDownloadError i18n .formatNotAllowed)
  | .error .downloadEnqueue => editWith (formatDownloadError i18n .downloadEnqueue)
  | .error e => Act.raise e

/-- From the granted rate limit on. -/
def downloadPreviewed (telegramId : Int) (url : Str) : Job Unit := do
  let status ← answerWith (i18n.get "download-started" [])
  match ← Act.attempt (previewDownload bot.unicode url) with
  | .ok preview => requestPreviewed bot i18n telegramId url preview status
  | .error (.unsupportedURL reason) => editWith (badUrl i18n (htmlEscape reason))
  | .error (.extraction e) => editWith (formatDownloadError i18n (.extraction e))
  | .error e => Act.raise e

def handleDownload (message : Message) : Job Unit :=
  match message.fromUser with
  | none => pure ()
  | some telegramId =>
    match splitWords1 (message.text.getD []) with
    | _ :: rest :: _ =>
      match validateUrlAgainstAllowlist bot.unicode (strip rest) bot.settings.allowedDomains
          bot.settings.blockedDomains with
      | .error (.unsupportedURL reason) => do
        let _ ← answerWith (badUrl i18n (htmlEscape reason))
        pure ()
      | .error e => Act.raise e
      | .ok url => do
        let verdict ← port (.acquire (str "download:" ++ intStr telegramId)
          bot.settings.rateLimitDownloadsPerHour 3600)
        if !verdict.allowed then do
          let _ ← answerWith (formatRetryAfter i18n verdict.retryAfterSeconds)
          pure ()
        else downloadPreviewed bot i18n telegramId url
    | _ => do
      let _ ← answerWith (i18n.get "download-usage" [])
      pure ()

/-! ## download_flow -/

/-- `_choices`. -/
def choices (context : PreviewContext) : OfferedChoices :=
  bot.policy.offeredChoices bot.unicode context.extractorKey context.maxCompatibleShortSide

/-- The part of `_show_preview` after the rate limit. -/
def fetchPreview (validatedUrl : Str) : Job Unit := do
  let _ ← answerWith (i18n.get "preview-fetching" [])
  match ← Act.attempt (previewDownload bot.unicode validatedUrl) with
  | .error e =>
    if e.isDownloadFailure then editWith (formatDownloadError i18n e) else Act.raise e
  | .ok preview => do
    let context := PreviewContext.fromPreview preview
    let token ← PreviewContextStore.save bot.settings.previewContextTtlSeconds context
    let text ← Act.lift (formatPreview i18n preview)
    let keyboard ← Act.lift (previewConfirmKeyboard i18n token (choices bot context))
    port (.editText text keyboard)

def showPreview (message : Message) (url : Str) : Job Unit :=
  match validateUrlAgainstAllowlist bot.unicode url bot.settings.allowedDomains
      bot.settings.blockedDomains with
  | .error (.unsupportedURL reason) => do
    let _ ← answerWith (badUrl i18n (htmlEscape reason))
    pure ()
  | .error e => Act.raise e
  | .ok validatedUrl =>
    match message.fromUser with
    | none => fetchPreview bot i18n validatedUrl
    | some telegramId => do
      let verdict ← port (.acquire (str "preview:" ++ intStr telegramId)
        bot.settings.rateLimitPreviewsPerMinute 60)
      if !verdict.allowed then do
        let _ ← answerWith (formatRetryAfter i18n verdict.retryAfterSeconds)
        pure ()
      else fetchPreview bot i18n validatedUrl

def handleDownloadReplyButton : Job Unit := do
  port .setState
  let _ ← answerWith (i18n.get "flow-send-url" [])
  pure ()

def handleHelpReplyButton : Job Unit := handleHelp bot i18n

def handleDownloadButton (callback : CallbackQuery) : Job Unit := do
  port .setState
  onMessage callback.message fun _ => do
    let _ ← answerWith (i18n.get "flow-send-url" [])
    pure ()
  port (.answerCallback none false)

def handleHelpButton (callback : CallbackQuery) : Job Unit := do
  onMessage callback.message fun _ => handleHelp bot i18n
  port (.answerCallback none false)

def handleUrlInState (message : Message) : Job Unit := do
  port .clearState
  showPreview bot i18n message (strip (message.text.getD []))

def handlePlainUrl (message : Message) : Job Unit :=
  showPreview bot i18n message (strip (message.text.getD []))

/-- Both readers of a card: the stored context, or the stale-preview alert. -/
def withContext (token : Str) (act : PreviewContext → Job Unit) : Job Unit := do
  match ← PreviewContextStore.get token with
  | none => alertWith (i18n.get "flow-preview-stale" [])
  | some context => act context

def handleOpenQualityPicker (callback : CallbackQuery) : Job Unit :=
  let token := (callback.data.getD []).drop cbQualityPrefix.length
  withContext i18n token fun context => do
    let choices := choices bot context
    onMessage callback.message fun _ => do
      let markup ← Act.lift
        (if choices.hasQualityStep then
          qualityPickerKeyboard i18n token choices.videoTiers context.maxCompatibleShortSide
        else previewConfirmKeyboard i18n token choices)
      port (.editMarkup markup)
    port (.answerCallback none false)

def handleBackToFormat (callback : CallbackQuery) : Job Unit :=
  let token := (callback.data.getD []).drop cbBackPrefix.length
  withContext i18n token fun context => do
    onMessage callback.message fun _ => do
      let markup ← Act.lift (previewConfirmKeyboard i18n token (choices bot context))
      port (.editMarkup markup)
    port (.answerCallback none false)

/-- The `async with` block of `handle_confirm_download` and what follows it. -/
def confirm (callback : CallbackQuery) (message : Message) (context : PreviewContext)
    (spec : DownloadSpec) : Job Unit := do
  port (.requestDownload callback.fromUser context.url spec context.extractorKey)
  let currentText := htmlEscape (message.text.getD [])
  match ← Act.attempt (RequestDownload.execute bot.unicode bot.policy callback.fromUser
      context.url spec context.extractorKey message.chatId message.messageId) with
  | .error .formatNotAllowed => alertWith (formatDownloadError i18n .formatNotAllowed)
  | .error (.unsupportedURL reason) => alertWith (badUrl i18n (reason.take 150))
  | .error .downloadEnqueue => do
    let error ← Act.lift (formatDownloadError i18n .downloadEnqueue)
    let failed ← Act.lift (i18n.get "flow-download-failed" [(str "error", .text error)])
    port (.editText (currentText ++ failed) [])
    port (.answerCallback none false)
  | .error e => Act.raise e
  | .ok _ => do
    let started ← Act.lift (i18n.get "flow-download-started" [])
    port (.editText (currentText ++ started) [])
    port (.answerCallback none false)

/-- From the claimed context on. -/
def confirmClaimed (callback : CallbackQuery) (context : PreviewContext) (spec : DownloadSpec) :
    Job Unit :=
  match callback.message with
  | none => alertWith (i18n.get "flow-preview-stale" [])
  | some message => do
    let verdict ← port (.acquire (str "download:" ++ intStr callback.fromUser)
      bot.settings.rateLimitDownloadsPerHour 3600)
    if !verdict.allowed then alertWith (formatRetryAfter i18n verdict.retryAfterSeconds)
    else confirm bot i18n callback message context spec

def handleConfirmDownload (callback : CallbackQuery) : Job Unit := do
  let parsed := parseConfirmCallback (callback.data.getD [])
  match ← PreviewContextStore.pop parsed.1 with
  | none => alertWith (i18n.get "flow-preview-stale" [])
  | some context => confirmClaimed bot i18n callback context parsed.2

/-- The token a cancel button names. -/
def cancelToken (callback : CallbackQuery) : Str :=
  (callback.data.getD []).drop cbCancelPrefix.length

def handleCancelDownload (callback : CallbackQuery) : Job Unit := do
  PreviewContextStore.delete (cancelToken callback)
  onMessage callback.message fun message => do
    let cancelled ← Act.lift (i18n.get "flow-cancelled" [])
    port (.editText (htmlEscape (message.text.getD []) ++ cancelled) [])
  port (.answerCallback none false)

end Handler

/-! ## The dispatcher -/

/-- An update, with the locale and the FSM state it is handled in. -/
inductive Update where
  | message (locale : Str) (waitingForUrl : Bool) (message : Message)
  | callback (locale : Str) (callback : CallbackQuery)
  deriving DecidableEq

/-- `_looks_like_url`. -/
def looksLikeUrl (text : Str) : Bool :=
  startsWith (str "http://") (strip text) || startsWith (str "https://") (strip text)

/-- `collect_button_translations`, for one key. -/
def buttonTranslations (core : FluentCore) (key : String) : List Str :=
  Handler.supportedLocales.filterMap fun locale => (core (str key) locale []).toOption

/-- `F.data.startswith(prefix)`. -/
def hasPrefix (cbPrefix : Str) (callback : CallbackQuery) : Bool :=
  callback.data.elim false (startsWith cbPrefix)

namespace Bot

/-- `AdminOnly`. -/
def isAdmin (bot : Bot) (message : Message) : Bool :=
  message.fromUser.elim false fun id => decide (id ∈ bot.settings.adminTelegramIds)

/-- The message routers in order: filter and handler. -/
def messageHandlers (bot : Bot) (i18n : I18n) (waitingForUrl : Bool) (message : Message) :
    List (Bool × Job Unit) :=
  let text := message.text.getD []
  let command (name : String) := bot.command (str name) text
  let button (key : String) := message.text.elim false fun t =>
    decide (t ∈ buttonTranslations bot.core key)
  [(command "health" && bot.isAdmin message, Handler.handleHealth i18n),
    (command "worker_ping" && bot.isAdmin message, Handler.handleWorkerPing i18n message),
    (command "worker_status" && bot.isAdmin message, Handler.handleWorkerStatus i18n),
    (command "health" || command "worker_ping" || command "worker_status",
      Handler.handleAdminCommandDenied),
    (command "start", Handler.handleStart i18n message),
    (command "help", Handler.handleHelp bot i18n),
    (message.text == some (str "/ping"), Handler.handlePing),
    (command "language", Handler.handleLanguageCommand i18n),
    (message.text.elim false (startsWith (str "/preview")), Handler.handlePreview bot i18n message),
    (message.text.elim false (startsWith (str "/download")),
      Handler.handleDownload bot i18n message),
    (button "btn-download", Handler.handleDownloadReplyButton i18n),
    (button "btn-help", Handler.handleHelpReplyButton bot i18n),
    (waitingForUrl && !text.isEmpty, Handler.handleUrlInState bot i18n message),
    (!text.isEmpty && looksLikeUrl text, Handler.handlePlainUrl bot i18n message)]

/-- The callback routers in order. -/
def callbackHandlers (bot : Bot) (i18n : I18n) (callback : CallbackQuery) :
    List (Bool × Job Unit) :=
  [(hasPrefix cbLangPrefix callback, Handler.handleLanguageChoice i18n callback),
    (callback.data == some cbFlowDownload, Handler.handleDownloadButton i18n callback),
    (callback.data == some cbFlowHelp, Handler.handleHelpButton bot i18n callback),
    (hasPrefix cbQualityPrefix callback, Handler.handleOpenQualityPicker bot i18n callback),
    (hasPrefix cbBackPrefix callback, Handler.handleBackToFormat bot i18n callback),
    (hasPrefix cbConfirmPrefix callback, Handler.handleConfirmDownload bot i18n callback),
    (hasPrefix cbCancelPrefix callback, Handler.handleCancelDownload i18n callback)]

/-- The first handler whose filter passes. -/
def firstMatch (handlers : List (Bool × Job Unit)) : Job Unit :=
  match handlers.find? Prod.fst with
  | none => pure ()
  | some entry => entry.2

/-- One update through the dispatcher. -/
def handleUpdate (bot : Bot) : Update → Job Unit
  | .message locale waitingForUrl message =>
    firstMatch (bot.messageHandlers ⟨bot.core, locale⟩ waitingForUrl message)
  | .callback locale callback => firstMatch (bot.callbackHandlers ⟨bot.core, locale⟩ callback)

end Bot

end MediaDownloader
