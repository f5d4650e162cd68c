import MediaDownloader.Domain.DeliveryFilename
import MediaDownloader.Domain.Numbers
import MediaDownloader.Application.ProcessDownload
import MediaDownloader.Infrastructure.DownloadRequestRepository

/-!
# TelegramNotifier

`send_file`, and the delivery leg of a job over it.  The leg catches
`NotifierError` only, and the file name is built outside of every `try`.

* `sendFile_outcome`: what `send_file` ends with;
* `delivery_settled_iff`: the leg settles its request exactly when the file is
  refused for its size or its name can be encoded.
-/

namespace MediaDownloader

open Interaction

namespace DeliverableMedia

def filename (u : UnicodeData) (media : DeliverableMedia) : Except Exc Str :=
  deliveryFilename u media.title media.path

def isPlayableVideo (media : DeliverableMedia) : Bool :=
  media.kind = .video && media.width.isSome && media.height.isSome &&
    media.durationSeconds.isSome

def isPlayableAudio (media : DeliverableMedia) : Bool :=
  media.kind = .audio && media.durationSeconds.isSome

end DeliverableMedia

/-- A file upload: what is read, and what the recipient sees. -/
structure InputFile where
  path : Str
  filename : Str

/-- The calls of the `Bot`. -/
inductive TelegramMethod where
  | sendVideo (chatId : Int) (video : InputFile) (width height duration : Option Int)
      (supportsStreaming : Bool) (caption : Option Str) (requestTimeout : Int)
  | sendAudio (chatId : Int) (audio : InputFile) (duration : Option Int)
      (title performer caption : Option Str) (requestTimeout : Int)
  | sendDocument (chatId : Int) (document : InputFile) (caption : Option Str)
      (requestTimeout : Int)
  | sendMessage (chatId : Int) (text : Str)

/-- What a notifier is built with, and what it meets: the sizes of the files, how the
Bot API answers, and `str(exc)` of its errors. -/
structure TelegramNotifier where
  maxFileSizeBytes : Int
  fileUploadTimeoutSeconds : Int
  unicodeData : UnicodeData
  fileSize : Str → Nat
  bot : TelegramMethod → Except TelegramError Unit
  describe : TelegramError → Str

namespace TelegramNotifier

def mebibyte : Nat := 1024 * 1024

def tooLargeMessage (n : TelegramNotifier) (sizeBytes : Nat) : Str :=
  str "Файл слишком большой для отправки в Telegram (" ++
    fixed1 false (.ofRat (sizeBytes / mebibyte)) ++ str " МБ, лимит " ++
    intStr (n.maxFileSizeBytes / mebibyte) ++ str " МБ)"

/-- The method that fits the media. -/
def method (n : TelegramNotifier) (telegramId : Int) (media : DeliverableMedia)
    (filename : Str) (caption : Option Str) : TelegramMethod :=
  let upload : InputFile := ⟨media.path, filename⟩
  let safeCaption := (caption.filter fun text => !text.isEmpty).map htmlEscape
  if media.isPlayableVideo then
    .sendVideo telegramId upload media.width media.height media.durationSeconds true safeCaption
      n.fileUploadTimeoutSeconds
  else if media.isPlayableAudio then
    .sendAudio telegramId upload media.durationSeconds media.title media.performer safeCaption
      n.fileUploadTimeoutSeconds
  else .sendDocument telegramId upload safeCaption n.fileUploadTimeoutSeconds

/-- `except TelegramAPIError`. -/
def call (n : TelegramNotifier) (m : TelegramMethod) : Except Exc Unit :=
  match n.bot m with
  | .ok () => .ok ()
  | .error e => .error (.notifier (n.describe e))

def sendFile (n : TelegramNotifier) (telegramId : Int) (media : DeliverableMedia)
    (caption : Option Str) : Except Exc Unit :=
  let sizeBytes := n.fileSize media.path
  if n.maxFileSizeBytes < sizeBytes then .error (.notifier (n.tooLargeMessage sizeBytes))
  else do
    let filename ← media.filename n.unicodeData
    n.call (n.method telegramId media filename caption)

def sendText (n : TelegramNotifier) (telegramId : Int) (text : Str) : Except Exc Unit :=
  n.call (.sendMessage telegramId (htmlEscape text))

/-- The file is refused, or its name can be encoded. -/
def Deliverable (n : TelegramNotifier) (path : Str) (title : Option Str) : Prop :=
  n.maxFileSizeBytes < n.fileSize path ∨
    (Encodable (title.getD []) ∧ Encodable (pathSuffix path))

theorem call_outcome (n : TelegramNotifier) (m : TelegramMethod) :
    n.call m = .ok () ∨ ∃ e, n.call m = .error e ∧ e.isNotifierError = true := by
  unfold call
  cases n.bot m with
  | ok _ => exact .inl rfl
  | error e => exact .inr ⟨_, rfl, rfl⟩

/-- A deliverable file is sent or refused with a `NotifierError`; any other raises
what nobody catches. -/
theorem sendFile_outcome (n : TelegramNotifier) (telegramId : Int) (media : DeliverableMedia)
    (caption : Option Str) :
    (n.Deliverable media.path media.title ∧ (n.sendFile telegramId media caption = .ok () ∨
        ∃ e, n.sendFile telegramId media caption = .error e ∧ e.isNotifierError = true)) ∨
      (¬ n.Deliverable media.path media.title ∧
        n.sendFile telegramId media caption = .error (.other (str "UnicodeEncodeError"))) := by
  simp only [sendFile, Deliverable]
  by_cases hsize : n.maxFileSizeBytes < n.fileSize media.path
  · left
    rw [if_pos hsize]
    exact ⟨.inl hsize, .inr ⟨_, rfl, rfl⟩⟩
  · rw [if_neg hsize, ← deliveryFilename_ok_iff n.unicodeData]
    cases hname : deliveryFilename n.unicodeData media.title media.path with
    | ok filename =>
      left
      have hf : media.filename n.unicodeData = .ok filename := hname
      rw [hf, ok_bind]
      exact ⟨.inr ⟨filename, rfl⟩, n.call_outcome _⟩
    | error e =>
      right
      have hf : media.filename n.unicodeData = .error e := hname
      rw [hf, error_bind, deliveryFilename_error hname]
      exact ⟨by simp [hsize], rfl⟩

end TelegramNotifier

/-! ## The delivery leg -/

/-- What the delivery leg meets: the repository, the localizer and `send_text` work,
publishing may raise any `Exception`. -/
structure DeliveryWorld where
  notifier : TelegramNotifier
  now : Time
  localize : Str → Option Str → Str
  publish : DownloadProgress → Option Exc
  publish_isException : ∀ p e, publish p = some e → e.isException = true

namespace DeliveryWorld

def publishResult (w : DeliveryWorld) (p : DownloadProgress) : Except Exc Unit :=
  match w.publish p with
  | none => .ok ()
  | some e => .error e

def answer (w : DeliveryWorld) : (c : Call) → Except Exc (Resp c)
  | .utcnow => .ok w.now
  | .localize key locale _ => .ok (w.localize key locale)
  | .publish _ _ _ _ p => w.publishResult p
  | .sendFile telegramId media => w.notifier.sendFile telegramId media none
  | .sendText _ _ _ => .ok ()
  | .update _ => .ok ()
  -- no other port is the leg's
  | _ => .error (.other (str "NotImplementedError"))

attribute [simp] answer

/-- The leg's ports over the table. -/
def handler (w : DeliveryWorld) : Handler Call Resp Exc Table where
  answer _ c := w.answer c
  next table c _ := table.effect w.now c

@[simp] theorem handler_answer (w : DeliveryWorld) (table : Table) (c : Call) :
    w.handler.answer table c = w.answer c := rfl

@[simp] theorem handler_next (w : DeliveryWorld) (table : Table) (c : Call)
    (r : Except Exc (Resp c)) : w.handler.next table c r = table.effect w.now c := rfl

end DeliveryWorld

/-- The leg returns, and leaves the request done or failed. -/
def Settles (w : DeliveryWorld) (table : Table) (request : DownloadRequest) (user : User)
    (telegramId chatId messageId : Int) (result : DownloadResult) : Prop :=
  let (after, outcome) := (ProcessDownload.deliver request user telegramId chatId messageId
    result).handle w.handler table
  outcome = .ok () ∧ ∃ row, after.get? request.id = some row ∧ row.isTerminal = true

section

variable {w : DeliveryWorld} {table : Table} {request : DownloadRequest} {row : Row}

theorem handle_publishPhase (requestId : UUID) (chatId messageId : Int) (language : Option Str)
    (phase : ProgressPhase) :
    Prog.handle w.handler
        (ProcessDownload.publishPhase requestId chatId messageId language phase) table =
      (table, .ok ()) := by
  unfold ProcessDownload.publishPhase
  simp only [handle_act_bind, handle_attempt, handle_port, DeliveryWorld.handler_answer,
    DeliveryWorld.handler_next, DeliveryWorld.answer, DeliveryWorld.publishResult, Table.effect]
  cases hp : w.publish (phaseMarker phase) with
  | none => rfl
  | some e =>
    simp only [w.publish_isException _ _ hp, if_true]
    rfl

theorem handle_fail (user : User) (telegramId chatId messageId : Int) (text : Str) :
    Prog.handle w.handler
        (ProcessDownload.fail request user telegramId chatId messageId text) table =
      (table.effect w.now (.update (request.markFailed w.now)), .ok ()) := by
  unfold ProcessDownload.fail
  simp only [handle_act_bind, handle_port, handle_publishPhase, DeliveryWorld.handler_answer,
    DeliveryWorld.handler_next, DeliveryWorld.answer]
  rfl

/-- The row of an updated request. -/
theorem updated_row (h : table.get? request.id = some row) (now : Time)
    {request' : DownloadRequest} (hid : request'.id = request.id) :
    (table.effect now (.update request')).get? request.id =
      some (row.finish request'.status request'.completedAt now) := by
  have hrow : row.id = request.id := Table.get?_id h
  simp [Table.effect, Table.get?_updateWhere, h, hrow, hid]

variable (user : User) (telegramId chatId messageId : Int) (result : DownloadResult)

/-- What the leg does when `send_file` raises what nobody catches. -/
theorem not_settles (h : ¬ w.notifier.Deliverable result.path result.title) :
    ¬ Settles w table request user telegramId chatId messageId result := by
  rcases w.notifier.sendFile_outcome telegramId
    (DeliverableMedia.fromResult result (specKind request.spec)) none with ⟨hd, -⟩ | ⟨-, hsent⟩
  · exact absurd hd h
  · unfold Settles ProcessDownload.deliver
    simp only [handle_act_bind, handle_attempt, handle_port, handle_publishPhase,
      DeliveryWorld.handler_answer, DeliveryWorld.handler_next, DeliveryWorld.answer, hsent,
      Exc.isNotifierError, Bool.false_eq_true, if_false, handle_raise]
    intro hs
    cases hs.1

theorem settles_of_deliverable (hrow : table.get? request.id = some row)
    (h : w.notifier.Deliverable result.path result.title) :
    Settles w table request user telegramId chatId messageId result := by
  rcases w.notifier.sendFile_outcome telegramId
    (DeliverableMedia.fromResult result (specKind request.spec)) none with ⟨-, hsent⟩ | ⟨hn, -⟩
  · unfold Settles ProcessDownload.deliver
    simp only [handle_act_bind, handle_attempt, handle_port, handle_publishPhase,
      DeliveryWorld.handler_answer, DeliveryWorld.handler_next, DeliveryWorld.answer]
    rcases hsent with hsent | ⟨e, hsent, hnotifier⟩
    · simp only [hsent, handle_act_bind, handle_port, DeliveryWorld.handler_answer,
        DeliveryWorld.handler_next, DeliveryWorld.answer, handle_publishPhase]
      exact ⟨trivial, _, updated_row hrow w.now (request.markDone_id w.now), rfl⟩
    · simp only [hsent, hnotifier, if_true, handle_act_bind, handle_port,
        DeliveryWorld.handler_answer, DeliveryWorld.handler_next, DeliveryWorld.answer,
        handle_fail]
      exact ⟨trivial, _, updated_row hrow w.now (request.markFailed_id w.now), rfl⟩
  · exact absurd h hn

end

/-- The delivery leg settles a stored request exactly when the file is too large to be
sent or its name can be encoded. -/
theorem delivery_settled_iff (w : DeliveryWorld) {table : Table} {request : DownloadRequest}
    {row : Row} (hrow : table.get? request.id = some row) (user : User)
    (telegramId chatId messageId : Int) (result : DownloadResult) :
    Settles w table request user telegramId chatId messageId result ↔
      w.notifier.Deliverable result.path result.title := by
  constructor
  · intro hs
    by_contra h
    exact not_settles user telegramId chatId messageId result h hs
  · intro h
    exact settles_of_deliverable user telegramId chatId messageId result hrow h

/-! ## A title with half an emoji -/

namespace Clipped

def world : DeliveryWorld where
  notifier :=
    { maxFileSizeBytes := 50 * 1024 * 1024
      fileUploadTimeoutSeconds := 1800
      unicodeData := plainText
      fileSize := fun _ => 1000
      bot := fun _ => .ok ()
      describe := TelegramError.name }
  now := 5
  localize key _ := key
  publish _ := none
  publish_isException _ _ h := by cases h

def request : DownloadRequest :=
  (DownloadRequest.create 1 0 2 (str "https://youtu.be/x") (.video .p720)).markProcessing

def sender : User := ⟨2, some 77, false, none, 0⟩

def table : Table := Table.effect ⟨[], List.nodup_nil⟩ 0 (.create request)

theorem stored : table.get? request.id = some (Row.fromEntity request 0) := by rfl

def result (title : Str) : DownloadResult :=
  ⟨str "/tmp/req/dQw4w9WgXcQ.mp4", some 1080, some 1920, some 38, some title, none⟩

end Clipped

/-- Telegram takes the file, and the request is done. -/
theorem delivery_settled_sent :
    Settles Clipped.world Clipped.table Clipped.request Clipped.sender 77 77 20
      (Clipped.result (str "clip")) :=
  (delivery_settled_iff Clipped.world Clipped.stored Clipped.sender 77 77 20
    (Clipped.result (str "clip"))).mpr (.inr (by decide))

/-- A title cut inside a surrogate pair: the downloaded file is never settled. -/
theorem delivery_not_settled : ¬ ∀ (w : DeliveryWorld) (table : Table)
    (request : DownloadRequest) (row : Row), table.get? request.id = some row →
    ∀ (user : User) (telegramId chatId messageId : Int) (result : DownloadResult),
      Settles w table request user telegramId chatId messageId result := by
  intro h
  have hs := h Clipped.world Clipped.table Clipped.request _ Clipped.stored Clipped.sender 77 77 20
    (Clipped.result [0xD83D])
  refine not_settles Clipped.sender 77 77 20 (Clipped.result [0xD83D]) ?_ hs
  rintro (hsize | ⟨htitle, -⟩)
  · revert hsize
    decide
  · exact absurd (htitle 0xD83D (by decide)) (by decide)

end MediaDownloader
