import MediaDownloader.Domain.Values

/-!
# Texts

The message texts the handlers send, from the Fluent core.  The core itself is
a parameter; a missing key makes it raise.
-/

namespace MediaDownloader

/-- A Fluent argument. -/
inductive TextArg where
  | text (s : Str)
  | number (n : Int)
  deriving DecidableEq

/-- `FluentRuntimeCore.get(key, locale, **kwargs)`, the key's arguments last. -/
abbrev FluentCore := Str → Str → List (Str × TextArg) → Except Exc Str

/-- The `i18n` context of one update: the core and the resolved locale. -/
structure I18n where
  core : FluentCore
  locale : Str

def I18n.get (i18n : I18n) (key : String) (args : List (Str × TextArg)) : Except Exc Str :=
  i18n.core (str key) i18n.locale args

/-- The keys that handlers, keyboards and formatters ask for by name. -/
def textKeys : List String :=
  ["btn-back", "btn-cancel", "btn-confirm-audio", "btn-confirm-video", "btn-download", "btn-help",
    "btn-lang-en", "btn-lang-ru", "btn-quality-1080", "btn-quality-720", "btn-quality-best",
    "download-started", "download-usage", "error-bad-url", "flow-cancelled",
    "flow-download-failed", "flow-download-started", "flow-placeholder", "flow-preview-stale",
    "flow-send-url", "health-fail", "health-ok", "health-postgres", "health-redis",
    "help-any-site", "help-text", "language-changed", "language-prompt", "preview-card",
    "preview-duration-unknown", "preview-fetching", "preview-uploader-unknown", "preview-usage",
    "rate-limit-minutes", "rate-limit-seconds", "start-greeting", "worker-ping-enqueued",
    "worker-status", "worker-status-empty"]

/-- The settings the handlers read. -/
structure Settings where
  allowedDomains : List Str
  blockedDomains : List Str
  rateLimitDownloadsPerHour : Int
  rateLimitPreviewsPerMinute : Int
  maxDeliverableFileSizeMb : Int
  adminTelegramIds : List Int
  previewContextTtlSeconds : Int

def formatHelp (i18n : I18n) (settings : Settings) : Except Exc Str := do
  let listed := join (str ", ") (settings.allowedDomains.mergeSort strLe)
  let platforms ← if listed.isEmpty then i18n.get "help-any-site" [] else .ok listed
  i18n.get "help-text"
    [(str "platforms", .text (htmlEscape platforms)),
      (str "downloads", .number settings.rateLimitDownloadsPerHour),
      (str "previews", .number settings.rateLimitPreviewsPerMinute),
      (str "filesize", .number settings.maxDeliverableFileSizeMb)]

/-- `f"{n:02d}"` for a number of at most two digits. -/
def twoDigits (n : Int) : Str := if n < 10 then str "0" ++ intStr n else intStr n

def formatDuration (i18n : I18n) : Option PyNumber → Except Exc Str
  | none => i18n.get "preview-duration-unknown" []
  | some seconds =>
    let (minutes, secs) := seconds.divmod 60
    let (hours, minutes) := minutes.divmod 60
    match hours, minutes, secs with
    | .int hours, .int minutes, .int secs =>
      if hours ≠ 0 then do
        let text ← intText hours
        .ok (text ++ str ":" ++ twoDigits minutes ++ str ":" ++ twoDigits secs)
      else .ok (intStr minutes ++ str ":" ++ twoDigits secs)
    -- The format code `02d` of the minutes or the seconds refuses a float.
    | _, _, _ => .error Exc.valueError

def formatPreview (i18n : I18n) (preview : MediaPreview) : Except Exc Str := do
  let title := htmlEscape preview.title
  let uploader ←
    match preview.uploader with
    | none => i18n.get "preview-uploader-unknown" []
    | some name =>
      if name.isEmpty then i18n.get "preview-uploader-unknown" [] else .ok (htmlEscape name)
  let duration ← formatDuration i18n preview.durationSeconds
  i18n.get "preview-card"
    [(str "title", .text title), (str "uploader", .text uploader),
      (str "duration", .text duration), (str "mediatype", .text preview.mediaType.value)]

/-- Minutes are rounded up. -/
def formatRetryAfter (i18n : I18n) (seconds : Int) : Except Exc Str :=
  if seconds < 60 then i18n.get "rate-limit-seconds" [(str "seconds", .number seconds)]
  else i18n.get "rate-limit-minutes" [(str "minutes", .number (-((-seconds) / 60)))]

def formatDownloadError (i18n : I18n) (exc : Exc) : Except Exc Str :=
  i18n.core exc.errorKey i18n.locale (exc.errorArgs.map fun a => (a.1, .number a.2))

/-- The locale has every text that is used: those asked for by name, and one for
each failure. -/
structure I18n.Total (i18n : I18n) : Prop where
  texts : ∀ key ∈ textKeys, ∀ args, ∃ text, i18n.get key args = .ok text
  errors : ∀ exc, ∃ text, formatDownloadError i18n exc = .ok text

end MediaDownloader
