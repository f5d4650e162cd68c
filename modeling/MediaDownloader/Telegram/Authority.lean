import MediaDownloader.Application.RequestStory
import MediaDownloader.Lib.Safety
import MediaDownloader.Telegram.PreviewTokens

/-!
# Whom a handler acts for

Every call of every handler is made for the sender of its update: the limiter's
keys, the user row, the link that is extracted, the stored preview, the request
filed under the sender's row and the job enqueued for it.  The preview may be
another user's: whoever taps a button names its token.  The operational commands
are the admins' alone, and for anybody else they do nothing.

* `Bot.Authority`: what the handler of an update may call;
* `handlers_act_for_sender`: so it is in every interleaving of updates.
-/

namespace MediaDownloader

open Interaction

/-! ## What an update says -/

namespace Update

/-- Who sent the update; a channel post has no sender. -/
def sender : Update → Option Int
  | .message _ _ received => received.fromUser
  | .callback _ tap => some tap.fromUser

def locale : Update → Str
  | .message locale _ _ => locale
  | .callback locale _ => locale

/-- The text that a message gives as a link: after its command, or all of it. -/
inductive GivesLink : Update → Str → Prop
  | command {locale word rest : Str} {tail : List Str} {waiting : Bool} {message : Message} :
      message.text.elim false (startsWith (str "/preview")) = true ∨
        message.text.elim false (startsWith (str "/download")) = true →
      splitWords1 (message.text.getD []) = word :: rest :: tail →
      GivesLink (.message locale waiting message) (strip rest)
  | pasted {locale : Str} {waiting : Bool} {message : Message} :
      waiting = true ∨ looksLikeUrl (message.text.getD []) = true →
      GivesLink (.message locale waiting message) (strip (message.text.getD []))

/-- A tap on the button of a language that there is. -/
def Chooses (update : Update) (chosen : Str) : Prop :=
  ∃ locale tap, update = .callback locale tap ∧ tap.data = some (cbLangPrefix ++ chosen) ∧
    chosen ∈ Handler.supportedLocales

/-- The token of a `q:` or a `back:` tap. -/
def Opens (update : Update) (token : Str) : Prop :=
  ∃ locale tap, update = .callback locale tap ∧
    (tap.data = some (cbQualityPrefix ++ token) ∨ tap.data = some (cbBackPrefix ++ token))

def IsTap (update : Update) : Prop := ∃ locale tap, update = .callback locale tap

/-- The message that the sender sees change: the answer to the command, or the
card with the tapped button. -/
inductive Card (g : Trace) : Update → Int → Int → Prop
  | answered {locale : Str} {waiting : Bool} {message : Message} {text : Str}
      {status : SentMessage} : ⟨.answer text [], .ok status⟩ ∈ g →
      Card g (.message locale waiting message) status.chatId status.messageId
  | tapped {locale : Str} {tap : CallbackQuery} {message : Message} :
      tap.message = some message → Card g (.callback locale tap) message.chatId message.messageId

end Update

namespace Bot

def isOperational (bot : Bot) (text : Str) : Bool :=
  bot.command (str "health") text || bot.command (str "worker_ping") text ||
    bot.command (str "worker_status") text

/-- An operational command of an admin. -/
def Operates (bot : Bot) (update : Update) : Prop :=
  ∃ locale waiting message, update = .message locale waiting message ∧
    bot.isAdmin message = true ∧ bot.isOperational (message.text.getD []) = true

/-- An operational command of anybody else. -/
def Denies (bot : Bot) (update : Update) : Prop :=
  ∃ locale waiting message, update = .message locale waiting message ∧
    bot.isAdmin message = false ∧ bot.isOperational (message.text.getD []) = true

/-- One of the two Download buttons. -/
def AsksForLink (bot : Bot) (update : Update) : Prop :=
  (∃ locale waiting message text, update = .message locale waiting message ∧
    message.text = some text ∧ text ∈ buttonTranslations bot.core "btn-download") ∨
    ∃ locale tap, update = .callback locale tap ∧ tap.data = some cbFlowDownload

/-- A valid link in the update's own text. -/
def Asks (bot : Bot) (update : Update) (url : Str) : Prop :=
  ∃ raw, update.GivesLink raw ∧ validateUrl bot.unicode raw = .ok url

/-! ## What a handler may do with what it knows -/

/-- What a download is requested for: the sender's own link, just previewed, in the
default format; or the claimed preview of the tapped card, in the format that the
tapped button names. -/
inductive Orders (bot : Bot) (g : Trace) : Update → Str → DownloadSpec → Str → Prop
  | command {locale url : Str} {waiting : Bool} {message : Message} {preview : MediaPreview} :
      message.text.elim false (startsWith (str "/download")) = true →
      bot.Asks (.message locale waiting message) url → ⟨.getPreview url, .ok preview⟩ ∈ g →
      Orders bot g (.message locale waiting message) url (FormatPolicy.defaultVideoSpec preview)
        preview.extractorKey
  | card {locale data : Str} {tap : CallbackQuery} {entry : Option Entry}
      {context : PreviewContext} :
      tap.data = some data → startsWith cbConfirmPrefix data = true →
      ⟨.redisGetdel (tokenKey (parseConfirmCallback data).1), .ok entry⟩ ∈ g →
      PreviewContextStore.decode entry = .ok (some context) →
      Orders bot g (.callback locale tap) context.url (parseConfirmCallback data).2
        context.extractorKey

/-- What the card of a token is about: the preview just fetched and saved under it,
or what was just read under the token of the tap. -/
inductive Behind (bot : Bot) (update : Update) (g : Trace) (token : Str) : PreviewContext → Prop
  | saved {url : Str} {preview : MediaPreview} : ⟨.getPreview url, .ok preview⟩ ∈ g →
      ⟨.uuid4Hex, .ok token⟩ ∈ g →
      ⟨.redisSet (tokenKey token) (PreviewContextStore.encode (.fromPreview preview))
        bot.settings.previewContextTtlSeconds, .ok ()⟩ ∈ g →
      Behind bot update g token (.fromPreview preview)
  | read {entry : Entry} {context : PreviewContext} : update.Opens token →
      ⟨.redisGet (tokenKey token), .ok (some entry)⟩ ∈ g →
      PreviewContextStore.decode (some entry) = .ok (some context) →
      Behind bot update g token context

/-- The keyboards there are, for the token and the choices of its preview. -/
inductive Offers (bot : Bot) (update : Update) (g : Trace) : Offer → Prop
  | nothing : Offers bot update g .nothing
  | menu : Offers bot update g .menu
  | languages : Offers bot update g .languages
  | card {token : Str} {context : PreviewContext} : bot.Behind update g token context →
      Offers bot update g (.card token (Handler.choices bot context))
  | qualities {token : Str} {context : PreviewContext} : bot.Behind update g token context →
      (Handler.choices bot context).hasQualityStep = true →
      Offers bot update g (.qualities token (Handler.choices bot context).videoTiers
        context.maxCompatibleShortSide)

/-- The language a keyboard is in: the update's, or the one just chosen. -/
def Speaks (update : Update) (offer : Offer) (locale : Str) : Prop :=
  locale = update.locale ∨ offer = .menu ∧ update.Chooses locale

/-- A keyboard that the handler may show. -/
def Draws (bot : Bot) (update : Update) (g : Trace) (keyboard : Keyboard) : Prop :=
  ∃ offer locale, bot.Offers update g offer ∧ Speaks update offer locale ∧
    offer.Renders ⟨bot.core, locale⟩ keyboard

/-- Calls that need no history to be the sender's. -/
def Acts (bot : Bot) (update : Update) : Call → Prop
  | .healthCheck => bot.Operates update
  | .enqueuePing _ => bot.Operates update
  | .pingResult => bot.Operates update
  | .uuid4 => True
  | .utcnow => True
  | .uuid4Hex => True
  | .acquire key limit windowSeconds => ∃ sender, update.sender = some sender ∧
    (key = str "preview:" ++ intStr sender ∧
        limit = bot.settings.rateLimitPreviewsPerMinute ∧ windowSeconds = 60 ∨
      key = str "download:" ++ intStr sender ∧
        limit = bot.settings.rateLimitDownloadsPerHour ∧ windowSeconds = 3600)
  | .userGetByTelegramId telegramId => update.sender = some telegramId
  | .userCreate user => ∃ sender, update.sender = some sender ∧ user.telegramId = some sender
  | .userSetLanguage telegramId language => update.sender = some telegramId ∧
    ∃ locale, update.Chooses locale ∧ language = some locale
  | .setLocale locale => update.Chooses locale
  | .setState => bot.AsksForLink update
  | .clearState => ∃ locale message, update = .message locale true message
  | .getPreview url => bot.Asks update url
  | .redisGet key => ∃ token, update.Opens token ∧ key = tokenKey token
  | .redisGetdel key => ∃ token, update.confirms = some token ∧ key = tokenKey token
  | .redisDelete key => ∃ token, update.cancels = some token ∧ key = tokenKey token
  | .answer _ keyboard => keyboard = []
  | .editText _ keyboard => keyboard = []
  | .answerCallback _ _ => update.IsTap
  -- what the history has to justify, and what only jobs and reapers do
  | _ => False

section Acts

variable {bot : Bot} {update : Update}

@[simp] theorem acts_answer {text : Str} {keyboard : Keyboard} :
    bot.Acts update (.answer text keyboard) ↔ keyboard = [] := Iff.rfl

@[simp] theorem acts_editText {text : Str} {keyboard : Keyboard} :
    bot.Acts update (.editText text keyboard) ↔ keyboard = [] := Iff.rfl

@[simp] theorem acts_healthCheck :
    bot.Acts update .healthCheck ↔ bot.Operates update := Iff.rfl

@[simp] theorem acts_answerCallback {text : Option Str} {alert : Bool} :
    bot.Acts update (.answerCallback text alert) ↔ update.IsTap := Iff.rfl

end Acts

/-- What the handler of `update` may call after the history `g`. -/
def Authority (bot : Bot) (update : Update) (g : Trace) : Call → Prop
  | .answer _ keyboard => bot.Draws update g keyboard
  | .editText _ keyboard => bot.Draws update g keyboard
  | .editMarkup keyboard => bot.Draws update g keyboard
  | .redisSet key value ttlSeconds => ∃ token url preview, key = tokenKey token ∧
    ⟨.uuid4Hex, .ok token⟩ ∈ g ∧ ⟨.getPreview url, .ok preview⟩ ∈ g ∧
    value = PreviewContextStore.encode (.fromPreview preview) ∧
    ttlSeconds = bot.settings.previewContextTtlSeconds
  | .requestDownload telegramId url spec extractorKey => update.sender = some telegramId ∧
    bot.Orders g update url spec extractorKey
  | .create request => ∃ sender user url extractorKey, update.sender = some sender ∧
    SendersRow sender g user ∧ request.userId = user.id ∧ request.status = .pending ∧
    bot.Orders g update url request.spec extractorKey ∧
    validateUrl bot.unicode url = .ok request.sourceUrl
  | .enqueueDownload id chatId messageId => OwnRequest g id ∧ update.Card g chatId messageId
  | .markFailedById id => OwnRequest g id
  | c => bot.Acts update c

end Bot

section Known

variable {bot : Bot} {update : Update} {g g' : Trace}

theorem Bot.Orders.mono {url extractorKey : Str} {spec : DownloadSpec}
    (h : bot.Orders g update url spec extractorKey) (hg : g ⊆ g') :
    bot.Orders g' update url spec extractorKey := by
  cases h with
  | command hdownload hasks hmem => exact .command hdownload hasks (hg hmem)
  | card hdata hprefix hmem hd => exact .card hdata hprefix (hg hmem) hd

theorem Update.Card.mono {chatId messageId : Int} (h : update.Card g chatId messageId)
    (hg : g ⊆ g') : update.Card g' chatId messageId := by
  cases h with
  | answered hmem => exact .answered (hg hmem)
  | tapped hm => exact .tapped hm

theorem Bot.draws_nil : bot.Draws update g [] := ⟨.nothing, _, .nothing, .inl rfl, .nil⟩

theorem Bot.authority_of_acts (g : Trace) (c : Call) (h : bot.Acts update c) :
    bot.Authority update g c := by
  cases c with
  | answer _ keyboard =>
    obtain rfl : keyboard = [] := h
    exact draws_nil
  | editText _ keyboard =>
    obtain rfl : keyboard = [] := h
    exact draws_nil
  | editMarkup _ => exact h.elim
  | redisSet _ _ _ => exact h.elim
  | requestDownload _ _ _ _ => exact h.elim
  | create _ => exact h.elim
  | enqueueDownload _ _ _ => exact h.elim
  | markFailedById _ => exact h.elim
  | _ => exact h

end Known

/-! ## Pieces of handlers -/

/-- Once `K` has happened, `p` stays within what the handler of `update` may do. -/
abbrev Authorized {α : Type} (bot : Bot) (update : Update) (K : Trace) (p : Program α) : Prop :=
  SafeGiven (fun _ => True) (bot.Authority update) K p

section Programs

variable {bot : Bot} {update : Update} {K : Trace}

theorem authorized_acts {α : Type} {p : Job α} (hp : Only (bot.Acts update) p) :
    Authorized bot update K p :=
  safeGiven_of_only (fun g c _ h => Bot.authority_of_acts g c h) hp

theorem authorized_port {c : Call} (h : ∀ g, K ⊆ g → bot.Authority update g c) :
    Authorized bot update K (port c) := fun g hg => ⟨h g hg, fun _ _ => trivial⟩

theorem authorized_answered (text : Except Exc Str) :
    Authorized bot update K (do let _ ← answerWith text; pure () : Job Unit) := by
  refine authorized_acts (only_act_bind ?_ fun _ => trivial)
  unfold answerWith
  simp

theorem authorized_editWith (text : Except Exc Str) :
    Authorized bot update K (editWith text) := by
  refine authorized_acts ?_
  unfold editWith
  simp

theorem authorized_alertWith (ht : update.IsTap) (text : Except Exc Str) :
    Authorized bot update K (alertWith text) := by
  refine authorized_acts ?_
  unfold alertWith
  simp [ht]

theorem authorized_onMessage (message : Option Message) {act : Message → Job Unit}
    (h : ∀ m, message = some m → Authorized bot update K (act m)) :
    Authorized bot update K (onMessage message act) := by
  cases message with
  | none => exact safeGiven_pure ()
  | some m => exact h m rfl

/-- A keyboard of its own, in the language of the update. -/
theorem authorized_answerKeyboard {offer : Offer} {locale : Str} {text : Except Exc Str}
    {markup : Except Exc Keyboard} (hspeaks : Bot.Speaks update offer locale)
    (hoffer : ∀ g, bot.Offers update g offer)
    (hrenders : ∀ keyboard, markup = .ok keyboard → offer.Renders ⟨bot.core, locale⟩ keyboard) :
    Authorized bot update K (do
      let text ← Act.lift text
      let keyboard ← Act.lift markup
      let _ ← port (.answer text keyboard)
      pure () : Job Unit) := by
  refine safeGiven_lift_bind fun text _ => safeGiven_lift_bind fun keyboard hk => ?_
  refine safeGiven_port_bind (fun g _ => ?_) fun _ _ => safeGiven_pure ()
  exact ⟨offer, locale, hoffer g, hspeaks, hrenders keyboard hk⟩

/-- A preview of a link that the update gives, and what is done with its answer. -/
theorem authorized_previewed {url : Str} {f : Except Exc MediaPreview → Job Unit}
    (hasks : ∀ checked, validateUrl bot.unicode url = .ok checked → bot.Asks update checked)
    (herror : ∀ K e, Authorized bot update K (f (.error e)))
    (hok : ∀ checked preview, validateUrl bot.unicode url = .ok checked →
      Authorized bot update (⟨.getPreview checked, .ok preview⟩ :: K) (f (.ok preview))) :
    Authorized bot update K (Act.attempt (previewDownload bot.unicode url) >>= f : Job Unit) := by
  unfold previewDownload
  cases hurl : validateUrl bot.unicode url with
  | error e => exact herror K e
  | ok checked =>
    refine safeGiven_attempt_port_bind (fun g _ => hasks checked hurl) fun r _ => ?_
    cases r with
    | ok preview => exact hok checked preview hurl
    | error e => exact herror _ e

/-! ## The use cases -/

theorem authorized_registerUser {sender : Int} (hs : update.sender = some sender)
    (language : Option Str) : Authorized bot update K (registerUser sender language) := by
  refine authorized_acts ?_
  unfold registerUser
  rw [only_port_bind]
  refine ⟨hs, fun found => ?_⟩
  cases found with
  | some user => trivial
  | none =>
    simp only [only_port_bind]
    exact ⟨trivial, fun id => ⟨trivial, fun now => ⟨⟨sender, hs, rfl⟩, fun _ => trivial⟩⟩⟩

/-- What the use case does from its start, it may do after any history that orders it. -/
theorem authority_of_files {telegramId : Int} (hs : update.sender = some telegramId) {url : Str}
    {spec : DownloadSpec} {extractorKey : Str} {chatId messageId : Int}
    (horders : bot.Orders K update url spec extractorKey) (hcard : update.Card K chatId messageId)
    (g v : Trace) (c : Call) (hg : K ⊆ g)
    (h : RequestDownload.Files bot.unicode telegramId url spec chatId messageId v c) :
    bot.Authority update (g ++ v) c := by
  have hsub : K ⊆ g ++ v := List.Subset.trans hg (List.subset_append_left g v)
  have hown {id : UUID} (h : OwnRequest v id) : OwnRequest (g ++ v) id :=
    h.imp fun _ h => ⟨List.mem_append_right g h.1, h.2⟩
  cases c with
  | uuid4 => trivial
  | utcnow => trivial
  | userGetByTelegramId _ =>
    obtain rfl := h
    exact hs
  | userCreate user => exact ⟨telegramId, hs, h⟩
  | create request =>
    obtain ⟨hurl, hspec, hpending, user, hrow, hid⟩ := h
    refine ⟨telegramId, user, url, extractorKey, hs, ?_, hid, hpending, ?_, hurl⟩
    · exact hrow.mono (List.subset_append_right g v)
    · rw [hspec]
      exact horders.mono hsub
  | enqueueDownload _ _ _ =>
    obtain ⟨rfl, rfl, hid⟩ := h
    exact ⟨hown hid, hcard.mono hsub⟩
  | markFailedById _ => exact hown h
  | _ => exact h.elim

theorem authorized_request {sender : Int} (hs : update.sender = some sender) {url : Str}
    {spec : DownloadSpec} {extractorKey : Str} {chatId messageId : Int}
    (horders : bot.Orders K update url spec extractorKey)
    (hcard : update.Card K chatId messageId) :
    Authorized bot update K
      (RequestDownload.execute bot.unicode bot.policy sender url spec extractorKey chatId
        messageId) :=
  safeGiven_of_start (authority_of_files hs horders hcard)
    (RequestDownload.wp_files bot.unicode bot.policy sender url spec extractorKey chatId messageId)

end Programs

/-! ## The handlers of messages -/

section Messages

variable {bot : Bot} {locale : Str} {waiting : Bool} {message : Message} {K : Trace}

theorem authorized_handleHealth (h : bot.Operates (.message locale waiting message)) :
    Authorized bot (.message locale waiting message) K
      (Handler.handleHealth ⟨bot.core, locale⟩) := by
  refine authorized_acts ?_
  unfold Handler.handleHealth
  simp [h]

theorem authorized_handleWorkerPing (h : bot.Operates (.message locale waiting message)) :
    Authorized bot (.message locale waiting message) K
      (Handler.handleWorkerPing ⟨bot.core, locale⟩ message) :=
  safeGiven_act_bind (authorized_port fun _ _ => h) fun _ => authorized_answered _

theorem authorized_handleWorkerStatus (h : bot.Operates (.message locale waiting message)) :
    Authorized bot (.message locale waiting message) K
      (Handler.handleWorkerStatus ⟨bot.core, locale⟩) := by
  refine safeGiven_act_bind (authorized_port fun _ _ => h) fun result => ?_
  cases result with
  | none => exact authorized_answered _
  | some result => exact authorized_answered _

theorem authorized_handleStart : Authorized bot (.message locale waiting message) K
    (Handler.handleStart ⟨bot.core, locale⟩ message) := by
  unfold Handler.handleStart
  cases hfrom : message.fromUser with
  | none => exact safeGiven_pure ()
  | some sender =>
    have hs : (Update.message locale waiting message).sender = some sender := hfrom
    refine safeGiven_act_bind (authorized_registerUser hs _) fun _ => ?_
    exact authorized_answerKeyboard (.inl rfl) (fun _ => .menu) fun _ => mainMenuKeyboard_renders

theorem authorized_handleLanguageCommand : Authorized bot (.message locale waiting message) K
    (Handler.handleLanguageCommand ⟨bot.core, locale⟩) :=
  authorized_answerKeyboard (.inl rfl) (fun _ => .languages) fun _ => languagePickerKeyboard_renders

/-- A command's argument is a link of the update, once stripped. -/
theorem asks_of_command {word rest checked : Str} {tail : List Str}
    (hcommand : message.text.elim false (startsWith (str "/preview")) = true ∨
      message.text.elim false (startsWith (str "/download")) = true)
    (hargument : splitWords1 (message.text.getD []) = word :: rest :: tail)
    (h : validateUrl bot.unicode (strip rest) = .ok checked) :
    bot.Asks (.message locale waiting message) checked :=
  ⟨strip rest, .command hcommand hargument, h⟩

theorem authorized_handlePreview
    (hpreview : message.text.elim false (startsWith (str "/preview")) = true) :
    Authorized bot (.message locale waiting message) K
      (Handler.handlePreview bot ⟨bot.core, locale⟩ message) := by
  unfold Handler.handlePreview
  split
  · next hargument =>
    refine authorized_previewed (fun _ => asks_of_command (.inl hpreview) hargument)
      (fun K e => ?_) fun _ _ _ => authorized_answered _
    dsimp only
    split
    · exact authorized_answered _
    · exact safeGiven_raise _
  · exact authorized_answered _

/-- How `/download` ends: an edit, or the exception. -/
theorem authorized_requestPreviewed {sender : Int} (hfrom : message.fromUser = some sender)
    {url : Str} {preview : MediaPreview} {text : Str} {status : SentMessage}
    (horders : bot.Orders K (.message locale waiting message) url
      (FormatPolicy.defaultVideoSpec preview) preview.extractorKey)
    (hstatus : ⟨.answer text [], .ok status⟩ ∈ K) :
    Authorized bot (.message locale waiting message) K
      (Handler.requestPreviewed bot ⟨bot.core, locale⟩ sender url preview status) := by
  have hs : (Update.message locale waiting message).sender = some sender := hfrom
  unfold Handler.requestPreviewed
  refine safeGiven_act_bind (authorized_port fun g hg => ⟨hs, horders.mono hg⟩) fun _ => ?_
  refine safeGiven_act_bind
    (safeGiven_attempt (authorized_request hs horders (.answered hstatus))) fun r => ?_
  split
  · exact safeGiven_pure ()
  · exact authorized_editWith _
  · exact authorized_editWith _
  · exact authorized_editWith _
  · exact safeGiven_raise _

theorem authorized_downloadPreviewed {sender : Int} (hfrom : message.fromUser = some sender)
    (hdownload : message.text.elim false (startsWith (str "/download")) = true) {url : Str}
    (hasks : bot.Asks (.message locale waiting message) url)
    (hurl : validateUrl bot.unicode url = .ok url) :
    Authorized bot (.message locale waiting message) K
      (Handler.downloadPreviewed bot ⟨bot.core, locale⟩ sender url) := by
  unfold Handler.downloadPreviewed answerWith
  cases htext : (I18n.mk bot.core locale).get "download-started" [] with
  | error e => exact safeGiven_raise e
  | ok text =>
    refine safeGiven_port_bind (fun _ _ => Bot.draws_nil) fun status _ => ?_
    refine authorized_previewed (fun checked h => ?_) (fun K e => ?_) fun checked preview h => ?_
    · rw [hurl] at h
      cases h
      exact hasks
    · cases e with
      | unsupportedURL reason => exact authorized_editWith _
      | extraction e => exact authorized_editWith _
      | _ => exact safeGiven_raise _
    · rw [hurl] at h
      cases h
      refine authorized_requestPreviewed hfrom (.command hdownload hasks List.mem_cons_self)
        (List.mem_cons_of_mem _ List.mem_cons_self)

theorem authorized_handleDownload
    (hdownload : message.text.elim false (startsWith (str "/download")) = true) :
    Authorized bot (.message locale waiting message) K
      (Handler.handleDownload bot ⟨bot.core, locale⟩ message) := by
  unfold Handler.handleDownload
  cases hfrom : message.fromUser with
  | none => exact safeGiven_pure ()
  | some sender =>
    dsimp only
    split
    · next hargument =>
      split
      · exact authorized_answered _
      · exact safeGiven_raise _
      · next url hallowed =>
        have hv := validateUrlAgainstAllowlist_validateUrl hallowed
        refine safeGiven_act_bind
          (authorized_port fun _ _ => ⟨sender, hfrom, .inr ⟨rfl, rfl, rfl⟩⟩) fun verdict => ?_
        split
        · exact authorized_answered _
        · exact authorized_downloadPreviewed hfrom hdownload
            (asks_of_command (.inr hdownload) hargument hv) (validateUrl_idem hv)
    · exact authorized_answered _

/-- A fetched preview is saved under a token made for it. -/
theorem authorized_saved {update : Update} {url : Str} {preview : MediaPreview}
    {f : Str → Job Unit} (hfetched : ⟨.getPreview url, .ok preview⟩ ∈ K)
    (hf : ∀ token, Authorized bot update
      (⟨.redisSet (tokenKey token) (PreviewContextStore.encode (.fromPreview preview))
          bot.settings.previewContextTtlSeconds, .ok ()⟩ :: ⟨.uuid4Hex, .ok token⟩ :: K) (f token)) :
    Authorized bot update K (PreviewContextStore.save bot.settings.previewContextTtlSeconds
      (.fromPreview preview) >>= f : Job Unit) := by
  intro g hg
  unfold PreviewContextStore.save
  simp only [wp_act_bind, wp_port, wp_pure]
  refine ⟨trivial, fun token _ => ?_⟩
  cases token with
  | error e => trivial
  | ok token =>
    refine ⟨⟨token, url, preview, rfl, by simp, List.mem_append_left _ (hg hfetched), rfl, rfl⟩,
      fun saved _ => ?_⟩
    cases saved with
    | error e => trivial
    | ok _ =>
      refine hf token _ (List.cons_subset.mpr ⟨by simp [tokenKey], List.cons_subset.mpr
        ⟨by simp, fun e he => ?_⟩⟩)
      exact List.mem_append_left _ (List.mem_append_left _ (hg he))

/-- A new card: its token is made, saved, and named by its buttons. -/
theorem authorized_showCard {url : Str} {preview : MediaPreview}
    (hfetched : ⟨.getPreview url, .ok preview⟩ ∈ K) :
    Authorized bot (.message locale waiting message) K (do
      let context := PreviewContext.fromPreview preview
      let token ← PreviewContextStore.save bot.settings.previewContextTtlSeconds context
      let text ← Act.lift (formatPreview ⟨bot.core, locale⟩ preview)
      let keyboard ← Act.lift
        (previewConfirmKeyboard ⟨bot.core, locale⟩ token (Handler.choices bot context))
      port (.editText text keyboard) : Job Unit) := by
  refine authorized_saved hfetched fun token => ?_
  refine safeGiven_lift_bind fun text _ => safeGiven_lift_bind fun keyboard hk => ?_
  refine authorized_port fun g hg => ?_
  have hpreview : ⟨.getPreview url, .ok preview⟩ ∈ g :=
    hg (List.mem_cons_of_mem _ (List.mem_cons_of_mem _ hfetched))
  have hbehind : bot.Behind (.message locale waiting message) g token (.fromPreview preview) :=
    .saved hpreview (hg (List.mem_cons_of_mem _ List.mem_cons_self)) (hg List.mem_cons_self)
  exact ⟨_, locale, .card hbehind, .inl rfl, previewConfirmKeyboard_renders hk⟩

theorem authorized_fetchPreview {url : Str} (hasks : bot.Asks (.message locale waiting message) url)
    (hurl : validateUrl bot.unicode url = .ok url) :
    Authorized bot (.message locale waiting message) K
      (Handler.fetchPreview bot ⟨bot.core, locale⟩ url) := by
  unfold Handler.fetchPreview
  refine safeGiven_act_bind (authorized_acts ?_) fun _ => ?_
  · unfold answerWith
    simp
  refine authorized_previewed (fun checked h => ?_) (fun K e => ?_) fun checked preview _ =>
    authorized_showCard List.mem_cons_self
  · rw [hurl] at h
    cases h
    exact hasks
  · dsimp only
    split
    · exact authorized_editWith _
    · exact safeGiven_raise _

theorem authorized_showPreview
    (hlink : waiting = true ∨ looksLikeUrl (message.text.getD []) = true) :
    Authorized bot (.message locale waiting message) K
      (Handler.showPreview bot ⟨bot.core, locale⟩ message (strip (message.text.getD []))) := by
  unfold Handler.showPreview
  split
  · exact authorized_answered _
  · exact safeGiven_raise _
  · next url hallowed =>
    have hv := validateUrlAgainstAllowlist_validateUrl hallowed
    have hfetch (K : Trace) : Authorized bot (.message locale waiting message) K
        (Handler.fetchPreview bot ⟨bot.core, locale⟩ url) :=
      authorized_fetchPreview ⟨_, .pasted hlink, hv⟩ (validateUrl_idem hv)
    cases hfrom : message.fromUser with
    | none => exact hfetch K
    | some sender =>
      refine safeGiven_act_bind
        (authorized_port fun _ _ => ⟨sender, hfrom, .inl ⟨rfl, rfl, rfl⟩⟩) fun verdict => ?_
      split
      · exact authorized_answered _
      · exact hfetch K

end Messages

/-! ## The handlers of taps -/

section Taps

variable {bot : Bot} {locale : Str} {tap : CallbackQuery} {K : Trace}

theorem isTap (locale : Str) (tap : CallbackQuery) : (Update.callback locale tap).IsTap :=
  ⟨locale, tap, rfl⟩

/-- Data with this beginning is the beginning and what the handler makes of it. -/
theorem tap_data {p : Str} (h : hasPrefix p tap = true) :
    tap.data = some (p ++ (tap.data.getD []).drop p.length) := by
  unfold hasPrefix startsWith at h
  cases hd : tap.data with
  | none =>
    rw [hd] at h
    cases h
  | some data =>
    rw [hd] at h
    obtain ⟨rest, rfl⟩ := List.isPrefixOf_iff_prefix.mp h
    rw [Option.getD_some, List.drop_left]

theorem authorized_handleLanguageChoice (h : hasPrefix cbLangPrefix tap = true) :
    Authorized bot (.callback locale tap) K
      (Handler.handleLanguageChoice ⟨bot.core, locale⟩ tap) := by
  unfold Handler.handleLanguageChoice
  dsimp only
  split
  · exact authorized_port fun _ _ => isTap locale tap
  · next hchosen =>
    have hchooses : (Update.callback locale tap).Chooses
        ((tap.data.getD []).drop cbLangPrefix.length) :=
      ⟨locale, tap, rfl, tap_data h, not_not.mp hchosen⟩
    refine safeGiven_act_bind (authorized_port fun _ _ => hchooses) fun _ => ?_
    refine safeGiven_act_bind (authorized_port fun _ _ => ⟨rfl, _, hchooses, rfl⟩) fun _ => ?_
    refine safeGiven_act_bind (authorized_onMessage _ fun _ _ => ?_) fun _ =>
      authorized_port fun _ _ => isTap locale tap
    exact authorized_answerKeyboard (.inr ⟨rfl, hchooses⟩) (fun _ => .menu)
      fun _ => mainMenuKeyboard_renders

theorem authorized_handleDownloadButton (h : (tap.data == some cbFlowDownload) = true) :
    Authorized bot (.callback locale tap) K
      (Handler.handleDownloadButton ⟨bot.core, locale⟩ tap) := by
  have hasks : bot.AsksForLink (.callback locale tap) := .inr ⟨locale, tap, rfl, beq_iff_eq.mp h⟩
  refine safeGiven_act_bind (authorized_port fun _ _ => hasks) fun _ => ?_
  exact safeGiven_act_bind (authorized_onMessage _ fun _ _ => authorized_answered _) fun _ =>
    authorized_port fun _ _ => isTap locale tap

/-- Reading a card and replacing its keyboard. -/
theorem authorized_redraw {token : Str} (hopens : (Update.callback locale tap).Opens token)
    {markup : PreviewContext → Except Exc Keyboard} (offer : PreviewContext → Offer)
    (hoffer : ∀ g context, bot.Behind (.callback locale tap) g token context →
      bot.Offers (.callback locale tap) g (offer context))
    (hrenders : ∀ context keyboard, markup context = .ok keyboard →
      (offer context).Renders ⟨bot.core, locale⟩ keyboard) :
    Authorized bot (.callback locale tap) K
      (Handler.withContext ⟨bot.core, locale⟩ token fun context => do
        onMessage tap.message fun _ => do
          let markup ← Act.lift (markup context)
          port (.editMarkup markup)
        port (.answerCallback none false) : Job Unit) := by
  refine safeGiven_port_lift_bind (fun _ _ => ⟨token, hopens, rfl⟩) fun value found _ hd => ?_
  cases found with
  | none => exact authorized_alertWith (isTap locale tap) _
  | some context =>
    obtain ⟨entry, rfl⟩ : ∃ entry, value = some entry := by
      cases value with
      | none => cases hd
      | some entry => exact ⟨entry, rfl⟩
    refine safeGiven_act_bind (authorized_onMessage _ fun _ _ => ?_) fun _ =>
      authorized_port fun _ _ => isTap locale tap
    refine safeGiven_lift_bind fun keyboard hk => authorized_port fun g hg => ?_
    exact ⟨offer context, locale, hoffer g context (.read hopens (hg List.mem_cons_self) hd),
      .inl rfl, hrenders context keyboard hk⟩

theorem authorized_handleOpenQualityPicker (h : hasPrefix cbQualityPrefix tap = true) :
    Authorized bot (.callback locale tap) K
      (Handler.handleOpenQualityPicker bot ⟨bot.core, locale⟩ tap) := by
  refine authorized_redraw ⟨locale, tap, rfl, .inl (tap_data h)⟩ (fun context =>
    if (Handler.choices bot context).hasQualityStep then
      .qualities ((tap.data.getD []).drop cbQualityPrefix.length)
        (Handler.choices bot context).videoTiers context.maxCompatibleShortSide
    else .card ((tap.data.getD []).drop cbQualityPrefix.length) (Handler.choices bot context))
    (fun g context hbehind => ?_) fun context keyboard hk => ?_
  · split
    · next hstep => exact .qualities hbehind hstep
    · exact .card hbehind
  · split at hk
    · next hstep =>
      rw [if_pos hstep]
      exact qualityPickerKeyboard_renders hk
    · next hstep =>
      rw [if_neg hstep]
      exact previewConfirmKeyboard_renders hk

theorem authorized_handleBackToFormat (h : hasPrefix cbBackPrefix tap = true) :
    Authorized bot (.callback locale tap) K
      (Handler.handleBackToFormat bot ⟨bot.core, locale⟩ tap) :=
  authorized_redraw ⟨locale, tap, rfl, .inr (tap_data h)⟩
    (fun context => .card _ (Handler.choices bot context)) (fun _ _ hbehind => .card hbehind)
    fun _ _ hk => previewConfirmKeyboard_renders hk

/-- From the claimed preview on. -/
theorem authorized_confirmClaimed {context : PreviewContext} {spec : DownloadSpec}
    (horders : bot.Orders K (.callback locale tap) context.url spec context.extractorKey) :
    Authorized bot (.callback locale tap) K
      (Handler.confirmClaimed bot ⟨bot.core, locale⟩ tap context spec) := by
  have ht := isTap locale tap
  have hs : (Update.callback locale tap).sender = some tap.fromUser := rfl
  unfold Handler.confirmClaimed
  cases hm : tap.message with
  | none => exact authorized_alertWith ht _
  | some message =>
    refine safeGiven_act_bind
      (authorized_port fun _ _ => ⟨tap.fromUser, hs, .inr ⟨rfl, rfl, rfl⟩⟩) fun verdict => ?_
    split
    · exact authorized_alertWith ht _
    · unfold Handler.confirm
      refine safeGiven_act_bind (authorized_port fun g hg => ⟨hs, horders.mono hg⟩) fun _ => ?_
      refine safeGiven_act_bind
        (safeGiven_attempt (authorized_request hs horders (.tapped hm))) fun r => ?_
      split
      · exact authorized_alertWith ht _
      · exact authorized_alertWith ht _
      · refine authorized_acts ?_
        simp [ht]
      · exact safeGiven_raise _
      · refine authorized_acts ?_
        simp [ht]

theorem authorized_handleConfirmDownload (h : hasPrefix cbConfirmPrefix tap = true) :
    Authorized bot (.callback locale tap) K
      (Handler.handleConfirmDownload bot ⟨bot.core, locale⟩ tap) := by
  have hconfirms := (confirms_callback locale tap).trans (if_pos h)
  have hdata : tap.data = some (tap.data.getD []) := by
    rw [tap_data h]
    rfl
  have hprefix : startsWith cbConfirmPrefix (tap.data.getD []) = true := by
    unfold hasPrefix at h
    rwa [hdata] at h
  refine safeGiven_port_lift_bind (fun _ _ => ⟨_, hconfirms, rfl⟩) fun entry found _ hd => ?_
  cases found with
  | none => exact authorized_alertWith (isTap locale tap) _
  | some context =>
    exact authorized_confirmClaimed (.card hdata hprefix List.mem_cons_self hd)

theorem authorized_handleCancelDownload (h : hasPrefix cbCancelPrefix tap = true) :
    Authorized bot (.callback locale tap) K
      (Handler.handleCancelDownload ⟨bot.core, locale⟩ tap) := by
  have hcancels := (cancels_callback locale tap).trans (if_pos h)
  unfold Handler.handleCancelDownload PreviewContextStore.delete
  refine safeGiven_act_bind (authorized_port fun _ _ => ⟨_, hcancels, rfl⟩) fun _ => ?_
  refine safeGiven_act_bind (authorized_onMessage _ fun _ _ => authorized_acts ?_) fun _ =>
    authorized_port fun _ _ => isTap locale tap
  simp

end Taps

/-! ## The dispatcher -/

theorem authorized_firstMatch {bot : Bot} {update : Update} {K : Trace}
    {handlers : List (Bool × Job Unit)}
    (h : ∀ entry ∈ handlers, entry.1 = true → Authorized bot update K entry.2) :
    Authorized bot update K (Bot.firstMatch handlers) := by
  unfold Bot.firstMatch
  cases hf : handlers.find? Prod.fst with
  | none => exact safeGiven_pure ()
  | some entry => exact h entry (List.mem_of_find?_eq_some hf) (List.find?_some hf)

section Dispatcher

variable {bot : Bot} {locale : Str} {waiting : Bool} {message : Message}

/-- A filter that passes an admin's operational command. -/
theorem operates_of_filter {name : String}
    (hname : name = "health" ∨ name = "worker_ping" ∨ name = "worker_status")
    (h : (bot.command (str name) (message.text.getD []) && bot.isAdmin message) = true) :
    bot.Operates (.message locale waiting message) := by
  rw [Bool.and_eq_true] at h
  refine ⟨locale, waiting, message, rfl, h.2, ?_⟩
  unfold Bot.isOperational
  rcases hname with rfl | rfl | rfl
  · rw [h.1]
    rfl
  · rw [h.1, Bool.or_true]
    rfl
  · rw [h.1, Bool.or_true]

/-- A filter that passes the text of the Download button. -/
theorem asksForLink_of_filter (h : (message.text.elim false fun text =>
    decide (text ∈ buttonTranslations bot.core "btn-download")) = true) :
    bot.AsksForLink (.message locale waiting message) := by
  cases htext : message.text with
  | none =>
    rw [htext] at h
    cases h
  | some text =>
    rw [htext] at h
    exact .inl ⟨locale, waiting, message, text, rfl, htext, of_decide_eq_true h⟩

theorem authorized_message : Authorized bot (.message locale waiting message) []
    (bot.handleUpdate (.message locale waiting message)) := by
  refine authorized_firstMatch fun entry hmem hfilter => ?_
  simp only [Bot.messageHandlers, List.mem_cons, List.not_mem_nil, or_false] at hmem
  rcases hmem with rfl | rfl | rfl | rfl | rfl | rfl | rfl | rfl | rfl | rfl | rfl | rfl | rfl | rfl
  · exact authorized_handleHealth (operates_of_filter (.inl rfl) hfilter)
  · exact authorized_handleWorkerPing (operates_of_filter (.inr (.inl rfl)) hfilter)
  · exact authorized_handleWorkerStatus (operates_of_filter (.inr (.inr rfl)) hfilter)
  · exact safeGiven_pure ()
  · exact authorized_handleStart
  · exact authorized_answered _
  · exact authorized_acts (by unfold Handler.handlePing; simp)
  · exact authorized_handleLanguageCommand
  · exact authorized_handlePreview hfilter
  · exact authorized_handleDownload hfilter
  · exact safeGiven_act_bind (authorized_port fun _ _ => asksForLink_of_filter hfilter)
      fun _ => authorized_answered _
  · exact authorized_answered _
  · obtain ⟨hwaiting, -⟩ := Bool.and_eq_true_iff.mp hfilter
    obtain rfl : waiting = true := hwaiting
    exact safeGiven_act_bind (authorized_port fun _ _ => ⟨locale, message, rfl⟩)
      fun _ => authorized_showPreview (.inl rfl)
  · exact authorized_showPreview (.inr (Bool.and_eq_true_iff.mp hfilter).2)

theorem authorized_callback {tap : CallbackQuery} : Authorized bot (.callback locale tap) []
    (bot.handleUpdate (.callback locale tap)) := by
  refine authorized_firstMatch fun entry hmem hfilter => ?_
  simp only [Bot.callbackHandlers, List.mem_cons, List.not_mem_nil, or_false] at hmem
  rcases hmem with rfl | rfl | rfl | rfl | rfl | rfl | rfl
  · exact authorized_handleLanguageChoice hfilter
  · exact authorized_handleDownloadButton hfilter
  · exact safeGiven_act_bind (authorized_onMessage _ fun _ _ => authorized_answered _) fun _ =>
      authorized_port fun _ _ => isTap locale tap
  · exact authorized_handleOpenQualityPicker hfilter
  · exact authorized_handleBackToFormat hfilter
  · exact authorized_handleConfirmDownload hfilter
  · exact authorized_handleCancelDownload hfilter

end Dispatcher

abbrev authorityMonitor (bot : Bot) (update : Update) : Monitor Call Resp Exc Trace :=
  historyMonitor (fun _ => True) (bot.Authority update)

/-- Every handler stays within what it may do. -/
theorem authority_wp (bot : Bot) (update : Update) :
    wp (authorityMonitor bot update) ((botSystem bot).code update) [] fun _ _ => True := by
  refine SafeGiven.wp_nil (SafeGiven.map ?_ _)
  cases update with
  | message locale waiting message => exact authorized_message
  | callback locale tap => exact authorized_callback

/-- An operational command of anybody else is consumed without a call. -/
theorem handleUpdate_denied {bot : Bot} {update : Update} (h : bot.Denies update) :
    bot.handleUpdate update = pure () := by
  obtain ⟨locale, waiting, message, rfl, hadmin, hcommand⟩ := h
  have hpass : (bot.command (str "health") (message.text.getD []) ||
      bot.command (str "worker_ping") (message.text.getD []) ||
      bot.command (str "worker_status") (message.text.getD [])) = true := hcommand
  unfold Bot.handleUpdate Bot.firstMatch Bot.messageHandlers
  simp only [hadmin, Bool.and_false, List.find?_cons_of_neg, Bool.false_eq_true,
    not_false_eq_true, hpass, List.find?_cons_of_pos]
  rfl

/-- What holds of one handler run. -/
structure ActsForSender (bot : Bot) (th : ChatThread) : Prop where
  authority : ∀ u e v, th.trace = u ++ e :: v → bot.Authority th.kind u e.call
  denied : bot.Denies th.kind → th.trace = []

/-- In every interleaving of updates every handler acts for its sender alone. -/
theorem handlers_act_for_sender (bot : Bot) {c₀ c : Chats} (h0 : c₀.threads = [])
    (h : Reach (botSystem bot) (fun _ _ _ => True) c₀ c) {i : Nat} {th : ChatThread}
    (hi : c.threads[i]? = some th) : ActsForSender bot th := by
  have hcoded : c.Coded (botSystem bot) := h.coded (Conf.coded_of_nil h0)
  constructor
  · intro u e v ht
    exact hcoded.made (authority_wp bot) hi (fun _ _ => trivial) ht
  · intro hdenied
    have hsteps := hcoded i th hi
    have hcode : (botSystem bot).code th.kind = .ret () := by
      show Prog.map _ (bot.handleUpdate th.kind) = _
      rw [handleUpdate_denied hdenied]
      rfl
    rw [hcode] at hsteps
    generalize th.trace = t, th.prog = q at hsteps
    cases hsteps with
    | done => rfl

/-- User 77's link and card, and user 88's tap on it: the link is 77's, the row and
the request are 88's. -/
theorem handlers_act_for_sender_tapped : ∃ (c : Chats) (th th' : ChatThread),
    Reach (botSystem Pasted.bot) (fun _ _ _ => True) ⟨fun _ => none, []⟩ c ∧
      c.threads = [th, th'] ∧ th.trace = Pasted.previewed ++ [Pasted.saving] ∧
      th'.trace = Pasted.tapped ∧ ActsForSender Pasted.bot th ∧ ActsForSender Pasted.bot th' := by
  obtain ⟨q, q', hfresh⟩ := Pasted.tapped_reach
  have hreach := hfresh.mono fun _ _ _ _ => trivial
  exact ⟨_, _, _, hreach, rfl, rfl, rfl,
    handlers_act_for_sender Pasted.bot rfl hreach (i := 0) rfl,
    handlers_act_for_sender Pasted.bot rfl hreach (i := 1) rfl⟩

/-- A stranger's `/health`, which could be a link for the flow. -/
example : ∃ bot : Bot,
    bot.Denies (.message (str "ru") true ⟨some 77, some (str "/health"), 5, 6⟩) :=
  ⟨{ Pasted.bot with command := fun name text => decide (text = str "/" ++ name) },
    str "ru", true, _, rfl, by decide, by decide⟩

end MediaDownloader
