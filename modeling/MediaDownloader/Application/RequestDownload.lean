import MediaDownloader.Application.Ports
import MediaDownloader.Domain.UrlValidation

/-!
# The bot's use cases

`RequestDownloadUseCase`, `PreviewDownloadUseCase`, `RegisterUserUseCase` and
`SetUserLanguageUseCase`, call by call.

* `RequestDownload.wp_execute`: only a validated URL in an allowed format is
  persisted, the row is committed before its job is enqueued, and only a failed
  enqueue marks it failed.
-/

namespace MediaDownloader

open Interaction

namespace RequestDownload

/-- Create the request, then enqueue its job; a failed enqueue fails the row. -/
def createAndEnqueue (user : User) (validatedUrl : Str) (spec : DownloadSpec)
    (chatId messageId : Int) : Job DownloadRequest := do
  let id ← port .uuid4
  let now ← port .utcnow
  let request := DownloadRequest.create id now user.id validatedUrl spec
  port (.create request)
  match ← Act.attempt (port (.enqueueDownload request.id chatId messageId)) with
  | .ok _ => pure request
  | .error e =>
    if e.isException then do
      port (.markFailedById request.id)
      Act.raise .downloadEnqueue
    else Act.raise e

def execute (u : Unicode) (policy : FormatPolicy) (telegramId : Int) (url : Str)
    (spec : DownloadSpec) (extractorKey : Str) (chatId messageId : Int) :
    Job DownloadRequest := do
  let validatedUrl ← Act.lift (validateUrl u url)
  if !policy.isAllowed u extractorKey spec then Act.raise .formatNotAllowed
  else do
    match ← port (.userGetByTelegramId telegramId) with
    | some user => createAndEnqueue user validatedUrl spec chatId messageId
    | none => do
      let id ← port .uuid4
      let now ← port .utcnow
      let user := User.createFromTelegram id now telegramId none
      port (.userCreate user)
      createAndEnqueue user validatedUrl spec chatId messageId

/-! ## What the bot calls, and when -/

/-- What must have happened before a call of `execute`. -/
def Allowed (u : Unicode) (policy : FormatPolicy) (url : Str) (spec : DownloadSpec)
    (extractorKey : Str) (g : Trace) : Call → Prop
  | .uuid4 => True
  | .utcnow => True
  | .userGetByTelegramId _ => True
  | .userCreate _ => True
  | .create request => validateUrl u url = .ok request.sourceUrl ∧
      policy.isAllowed u extractorKey spec = true ∧ request.spec = spec ∧
      request.status = .pending
  | .enqueueDownload id _ _ => ∃ request : DownloadRequest, ⟨.create request, .ok ()⟩ ∈ g ∧
      request.id = id
  | .markFailedById id => ∃ chatId messageId e,
      e.isException = true ∧ ⟨.enqueueDownload id chatId messageId, .error e⟩ ∈ g
  | _ => False

section Calls

variable {u : Unicode} {policy : FormatPolicy} {url : Str} {spec : DownloadSpec}
  {extractorKey : Str} {g : Trace}

abbrev botMonitor (u : Unicode) (policy : FormatPolicy) (url : Str) (spec : DownloadSpec)
    (extractorKey : Str) : Monitor Call Resp Exc Trace :=
  historyMonitor (fun _ => True) (Allowed u policy url spec extractorKey)

theorem wp_createAndEnqueue {user : User} {validatedUrl : Str} {chatId messageId : Int}
    (hurl : validateUrl u url = .ok validatedUrl)
    (hpolicy : policy.isAllowed u extractorKey spec = true) :
    wp (botMonitor u policy url spec extractorKey)
      (createAndEnqueue user validatedUrl spec chatId messageId) g fun _ _ => True := by
  unfold createAndEnqueue
  simp only [wp_act_bind, wp_port]
  refine ⟨trivial, fun r _ => ?_⟩
  cases r with
  | error e => trivial
  | ok id =>
    refine ⟨trivial, fun r _ => ?_⟩
    cases r with
    | error e => trivial
    | ok now =>
      refine ⟨⟨hurl, hpolicy, rfl, rfl⟩, fun r _ => ?_⟩
      cases r with
      | error e => trivial
      | ok _ =>
        simp only [wp_attempt, wp_port]
        refine ⟨⟨_, List.mem_append_right _ (List.mem_singleton.mpr rfl), rfl⟩, fun r _ => ?_⟩
        cases r with
        | ok _ => trivial
        | error e =>
          by_cases he : e.isException = true
          · simp only [he, if_true, wp_act_bind, wp_port]
            refine ⟨⟨chatId, messageId, e, he, ?_⟩, fun r _ => ?_⟩
            · exact List.mem_append_right _ (List.mem_singleton.mpr rfl)
            · cases r <;> trivial
          · simp only [he]
            trivial

theorem wp_execute (u : Unicode) (policy : FormatPolicy) (telegramId : Int) (url : Str)
    (spec : DownloadSpec) (extractorKey : Str) (chatId messageId : Int) :
    wp (botMonitor u policy url spec extractorKey)
      (execute u policy telegramId url spec extractorKey chatId messageId) []
      fun _ _ => True := by
  unfold execute
  simp only [wp_act_bind, wp_lift]
  cases hurl : validateUrl u url with
  | error e => trivial
  | ok validatedUrl =>
    by_cases hpolicy : policy.isAllowed u extractorKey spec = true
    · simp only [hpolicy, Bool.not_true]
      refine ⟨trivial, fun r _ => ?_⟩
      rcases r with e | (_ | user)
      · trivial
      · refine ⟨trivial, fun r _ => ?_⟩
        cases r with
        | error e => trivial
        | ok id =>
          refine ⟨trivial, fun r _ => ?_⟩
          cases r with
          | error e => trivial
          | ok now =>
            refine ⟨trivial, fun r _ => ?_⟩
            cases r with
            | error e => trivial
            | ok _ => exact wp_createAndEnqueue hurl hpolicy
      · exact wp_createAndEnqueue hurl hpolicy
    · simp only [hpolicy]
      trivial

end Calls

end RequestDownload

/-- `PreviewDownloadUseCase.execute`. -/
def previewDownload (u : Unicode) (url : Str) : Job MediaPreview := do
  let validatedUrl ← Act.lift (validateUrl u url)
  port (.getPreview validatedUrl)

/-- `RegisterUserUseCase.execute`. -/
def registerUser (telegramId : Int) (language : Option Str) : Job User := do
  match ← port (.userGetByTelegramId telegramId) with
  | some user => pure user
  | none => do
    let id ← port .uuid4
    let now ← port .utcnow
    let user := User.createFromTelegram id now telegramId language
    port (.userCreate user)
    pure user

/-- `SetUserLanguageUseCase.execute`. -/
def setUserLanguage (telegramId : Int) (language : Str) : Job (Option User) :=
  port (.userSetLanguage telegramId (some language))

end MediaDownloader
