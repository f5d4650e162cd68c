import MediaDownloader.Infrastructure.YtDlpDownloader
import MediaDownloader.Telegram.Handlers

/-!
# What a handler calls

For each update, which calls its handler may make and what must have come
before them: validation and rate limit before an extraction, a claimed context
before a tap's request.

* `Bot.Allowed`: the calls and their preconditions;
* `Bot.wp_handleUpdate`: every handler keeps to them, and a `dl:` or `cancel:`
  tap that returned has had its one store call answered.
-/

namespace MediaDownloader

open Interaction

/-- What every answer is known to satisfy, whatever the store. -/
def Truthful : Ev → Prop
  | ⟨.getPreview url, .ok preview⟩ => preview.sourceUrl = url
  | _ => True

/-! ## Which updates touch the store -/

/-- The token a `dl:` tap claims. -/
def Update.confirms : Update → Option Str
  | .message _ _ _ => none
  | .callback _ tap =>
    if hasPrefix cbConfirmPrefix tap then some (parseConfirmCallback (tap.data.getD [])).1
    else none

/-- The token a `cancel:` tap deletes. -/
def Update.cancels : Update → Option Str
  | .message _ _ _ => none
  | .callback _ tap =>
    if hasPrefix cbCancelPrefix tap then some (Handler.cancelToken tap) else none

/-- A `q:` or `back:` tap. -/
def Update.peeks : Update → Bool
  | .message _ _ _ => false
  | .callback _ tap => hasPrefix cbQualityPrefix tap || hasPrefix cbBackPrefix tap

def tokenKey (token : Str) : Str := PreviewContextStore.keyPrefix ++ token

/-! ## What a handler may call -/

/-- The allowlist lets the URL through. -/
def Bot.Accepts (bot : Bot) (url : Str) : Prop :=
  ∃ checked, validateUrlAgainstAllowlist bot.unicode url bot.settings.allowedDomains
    bot.settings.blockedDomains = .ok checked

/-- The rate limiter let `sender` through. -/
def Granted (sender : Int) (g : Trace) : Prop :=
  ∃ key limit window verdict, ⟨.acquire key limit window, .ok verdict⟩ ∈ g ∧
    verdict.allowed = true ∧
    (key = str "preview:" ++ intStr sender ∨ key = str "download:" ++ intStr sender)

/-- `message` is a `/preview` command for `url`. -/
def Bot.CommandPreview (bot : Bot) (message : Message) (url : Str) : Prop :=
  message.text.elim false (startsWith (str "/preview")) = true ∧
    ∃ word rest tail, splitWords1 (message.text.getD []) = word :: rest :: tail ∧
      validateUrl bot.unicode (strip rest) = .ok url

/-- A preview the context store is to keep: fetched just now, under a new token. -/
def Saves (g : Trace) (key : Str) (value : Entry) (preview : MediaPreview) : Prop :=
  ∃ u url token, g = u ++ [⟨.getPreview url, .ok preview⟩, ⟨.uuid4Hex, .ok token⟩] ∧
    key = tokenKey token ∧ value = PreviewContextStore.encode (.fromPreview preview)

def isRequest (e : Ev) : Bool :=
  match e.call with
  | .requestDownload _ _ _ _ => true
  | _ => false

def isSave (e : Ev) : Bool :=
  match e.call with
  | .redisSet _ _ _ => true
  | _ => false

/-- The context a `dl:` tap has claimed. -/
def Claimed (update : Update) (g : Trace) (context : PreviewContext) : Prop :=
  ∃ token entry, update.confirms = some token ∧
    ⟨.redisGetdel (tokenKey token), .ok entry⟩ ∈ g ∧
    PreviewContextStore.decode entry = .ok (some context)

/-- What the handler of `update` may call after the history `g`. -/
def Bot.Allowed (bot : Bot) (update : Update) (g : Trace) : Call → Prop
  | .getPreview url => ∃ locale waiting message, update = .message locale waiting message ∧
      (bot.CommandPreview message url ∨
        bot.Accepts url ∧ ∀ sender, message.fromUser = some sender → Granted sender g)
  | .redisSet key value _ => (∃ locale waiting message, update = .message locale waiting message) ∧
      g.any isSave = false ∧ ∃ preview, Saves g key value preview ∧ bot.Accepts preview.sourceUrl
  | .redisGetdel key => g = [] ∧ ∃ token, update.confirms = some token ∧ key = tokenKey token
  | .redisDelete key => g = [] ∧ ∃ token, update.cancels = some token ∧ key = tokenKey token
  | .requestDownload _ url _ extractorKey => g.any isRequest = false ∧
      (update.confirms = none ∧ bot.Accepts url ∨
        ∃ context, Claimed update g context ∧ url = context.url ∧
          extractorKey = context.extractorKey)
  | .create request => ∃ telegramId url spec extractorKey,
      ⟨.requestDownload telegramId url spec extractorKey, .ok ()⟩ ∈ g ∧
        validateUrl bot.unicode url = .ok request.sourceUrl ∧
        bot.policy.isAllowed bot.unicode extractorKey spec = true ∧ request.spec = spec
  | _ => True

/-- A `dl:` or `cancel:` tap whose store call was answered. -/
def Spent (update : Update) (g : Trace) : Prop :=
  (∀ token, update.confirms = some token →
    ∃ entry, ⟨.redisGetdel (tokenKey token), .ok entry⟩ ∈ g) ∧
  ∀ token, update.cancels = some token → ⟨.redisDelete (tokenKey token), .ok ()⟩ ∈ g

/-! ## Handlers that leave previews and requests alone -/

/-- Allowed at any time. -/
def Call.isFree : Call → Bool
  | .redisSet _ _ _ => false
  | .redisGetdel _ => false
  | .redisDelete _ => false
  | .getPreview _ => false
  | .requestDownload _ _ _ _ => false
  | .create _ => false
  | _ => true

attribute [simp] Call.isFree

/-- A program of free calls. -/
abbrev Free {α : Type} (p : Job α) : Prop := Only (fun c : Call => c.isFree = true) p

section Free

variable (bot : Bot) (i18n : I18n)

theorem free_answerWith (text : Except Exc Str) : Free (answerWith text) := by
  unfold answerWith
  simp

theorem free_editWith (text : Except Exc Str) : Free (editWith text) := by
  unfold editWith
  simp

theorem free_alertWith (text : Except Exc Str) : Free (alertWith text) := by
  unfold alertWith
  simp

/-- A text and nothing more. -/
theorem free_answered (text : Except Exc Str) :
    Free (do let _ ← answerWith text; pure () : Job Unit) :=
  only_act_bind (free_answerWith text) fun _ => trivial

theorem free_onMessage (message : Option Message) {act : Message → Job Unit}
    (h : ∀ m, Free (act m)) : Free (onMessage message act) := by
  cases message with
  | none => trivial
  | some m => exact h m

theorem free_registerUser (telegramId : Int) (language : Option Str) :
    Free (registerUser telegramId language) := by
  unfold registerUser
  simp only [only_port_bind]
  refine ⟨rfl, fun found => ?_⟩
  cases found with
  | some user => trivial
  | none => simp

theorem free_handleHealth : Free (Handler.handleHealth i18n) := by
  unfold Handler.handleHealth
  simp

theorem free_handleWorkerPing (message : Message) : Free (Handler.handleWorkerPing i18n message) := by
  unfold Handler.handleWorkerPing
  simp only [only_port_bind]
  exact ⟨rfl, fun _ => free_answered _⟩

theorem free_handleWorkerStatus : Free (Handler.handleWorkerStatus i18n) := by
  unfold Handler.handleWorkerStatus
  simp only [only_port_bind]
  refine ⟨rfl, fun result => ?_⟩
  cases result with
  | none => exact free_answered _
  | some result => exact free_answered _

theorem free_handleStart (message : Message) : Free (Handler.handleStart i18n message) := by
  unfold Handler.handleStart
  cases message.fromUser with
  | none => trivial
  | some telegramId =>
    refine only_act_bind (free_registerUser _ _) fun _ => ?_
    simp

theorem free_handleHelp : Free (Handler.handleHelp bot i18n) := free_answered _

theorem free_handlePing : Free Handler.handlePing := by
  unfold Handler.handlePing
  simp

theorem free_handleLanguageCommand : Free (Handler.handleLanguageCommand i18n) := by
  unfold Handler.handleLanguageCommand
  simp

theorem free_handleLanguageChoice (tap : CallbackQuery) :
    Free (Handler.handleLanguageChoice i18n tap) := by
  unfold Handler.handleLanguageChoice
  simp only
  split
  · exact only_port.mpr rfl
  · refine only_act_bind (only_port.mpr rfl) fun _ => ?_
    refine only_act_bind (only_port.mpr rfl) fun _ => ?_
    refine only_act_bind (free_onMessage _ fun _ => ?_) fun _ => only_port.mpr rfl
    simp

theorem free_handleDownloadReplyButton : Free (Handler.handleDownloadReplyButton i18n) := by
  unfold Handler.handleDownloadReplyButton
  simp only [only_port_bind]
  exact ⟨rfl, fun _ => free_answered _⟩

theorem free_handleDownloadButton (tap : CallbackQuery) :
    Free (Handler.handleDownloadButton i18n tap) := by
  unfold Handler.handleDownloadButton
  simp only [only_port_bind]
  refine ⟨rfl, fun _ => ?_⟩
  exact only_act_bind (free_onMessage _ fun _ => free_answered _) fun _ => only_port.mpr rfl

theorem free_handleHelpButton (tap : CallbackQuery) :
    Free (Handler.handleHelpButton bot i18n tap) :=
  only_act_bind (free_onMessage _ fun _ => free_handleHelp bot i18n) fun _ => only_port.mpr rfl

/-- Reading a card is free if what is done with it is. -/
theorem free_withContext (token : Str) {act : PreviewContext → Job Unit}
    (h : ∀ context, Free (act context)) : Free (Handler.withContext i18n token act) := by
  refine only_act_bind ?_ fun context => ?_
  · unfold PreviewContextStore.get
    simp
  · cases context with
    | none => exact free_alertWith _
    | some context => exact h context

theorem free_handleOpenQualityPicker (tap : CallbackQuery) :
    Free (Handler.handleOpenQualityPicker bot i18n tap) := by
  refine free_withContext i18n _ fun context => ?_
  refine only_act_bind (free_onMessage _ fun _ => ?_) fun _ => only_port.mpr rfl
  simp

theorem free_handleBackToFormat (tap : CallbackQuery) :
    Free (Handler.handleBackToFormat bot i18n tap) := by
  refine free_withContext i18n _ fun context => ?_
  refine only_act_bind (free_onMessage _ fun _ => ?_) fun _ => only_port.mpr rfl
  simp

end Free

/-! ## Every handler keeps to `Allowed` -/

theorem Bot.Accepts.of_validate {bot : Bot} {url checked : Str} (h : bot.Accepts url)
    (hv : validateUrl bot.unicode url = .ok checked) : bot.Accepts checked := by
  obtain ⟨accepted, ha⟩ := h
  have hurl := validateUrlAgainstAllowlist_validateUrl ha
  rw [hv] at hurl
  cases hurl
  exact ⟨checked, validateUrlAgainstAllowlist_ok ha⟩

section Handlers

variable {bot : Bot} {i18n : I18n} {update : Update} {g : Trace}

abbrev handlerMonitor (bot : Bot) (update : Update) : Monitor Call Resp Exc Trace :=
  historyMonitor Truthful (bot.Allowed update)

theorem allowed_of_isFree (g : Trace) (c : Call) (h : c.isFree = true) :
    bot.Allowed update g c := by
  cases c with
  | redisSet _ _ _ => cases h
  | redisGetdel _ => cases h
  | redisDelete _ => cases h
  | getPreview _ => cases h
  | requestDownload _ _ _ _ => cases h
  | create _ => cases h
  | _ => trivial

theorem wp_free {α : Type} {p : Job α} (hp : Free p) (g : Trace) :
    wp (handlerMonitor bot update) p g fun g' _ =>
      ∃ u, g' = g ++ u ∧ ∀ e ∈ u, e.call.isFree = true :=
  wp_history_of_only allowed_of_isFree hp g

/-- A handler's last calls, when they are free. -/
theorem wp_free_true {α : Type} {p : Job α} (hp : Free p) (g : Trace) :
    wp (handlerMonitor bot update) p g fun _ _ => True :=
  wp_mono _ (wp_free hp g) fun _ _ _ => trivial

theorem any_isRequest_of_free {u : Trace} (h : ∀ e ∈ u, e.call.isFree = true) :
    u.any isRequest = false := by
  rw [List.any_eq_false]
  intro e he hreq
  have hfree := h e he
  unfold isRequest at hreq
  split at hreq
  · next heq =>
    rw [heq] at hfree
    cases hfree
  · cases hreq

theorem any_isSave_of_free {u : Trace} (h : ∀ e ∈ u, e.call.isFree = true) :
    u.any isSave = false := by
  rw [List.any_eq_false]
  intro e he hsave
  have hfree := h e he
  unfold isSave at hsave
  split at hsave
  · next heq =>
    rw [heq] at hfree
    cases hfree
  · cases hsave

/-- `PreviewDownloadUseCase.execute` extracts the validated URL. -/
theorem wp_previewDownload {url : Str}
    (h : ∀ checked, validateUrl bot.unicode url = .ok checked →
      bot.Allowed update g (.getPreview checked)) :
    wp (handlerMonitor bot update) (previewDownload bot.unicode url) g fun g' r =>
      ∀ preview, r = .ok preview → validateUrl bot.unicode url = .ok preview.sourceUrl ∧
        g' = g ++ [⟨.getPreview preview.sourceUrl, .ok preview⟩] := by
  unfold previewDownload
  simp only [wp_act_bind, wp_lift]
  cases hv : validateUrl bot.unicode url with
  | error e => rintro preview ⟨⟩
  | ok checked =>
    refine ⟨h checked hv, fun r hr => ?_⟩
    rintro preview rfl
    have hurl : preview.sourceUrl = checked := hr
    rw [hurl]
    exact ⟨rfl, rfl⟩

/-- The use case behind both ways of requesting, once it is entered. -/
theorem wp_requestDownload {telegramId : Int} {url : Str} {spec : DownloadSpec}
    {extractorKey : Str} {chatId messageId : Int}
    (hm : ⟨.requestDownload telegramId url spec extractorKey, .ok ()⟩ ∈ g) :
    wp (handlerMonitor bot update)
      (RequestDownload.execute bot.unicode bot.policy telegramId url spec extractorKey chatId
        messageId) g fun _ _ => True := by
  have hallow : ∀ v c, RequestDownload.Allowed bot.unicode bot.policy url spec extractorKey v c →
      bot.Allowed update (g ++ v) c := by
    intro v c hc
    cases c with
    | create request =>
      obtain ⟨hurl, hallowed, hspec, -⟩ := hc
      exact ⟨telegramId, url, spec, extractorKey, List.mem_append_left _ hm, hurl, hallowed, hspec⟩
    | redisSet _ _ _ => exact hc.elim
    | redisGetdel _ => exact hc.elim
    | redisDelete _ => exact hc.elim
    | getPreview _ => exact hc.elim
    | requestDownload _ _ _ _ => exact hc.elim
    | _ => trivial
  have hstart : wp (historyMonitor Truthful _) _ _ _ := wp_assume (fun _ _ => trivial)
    (RequestDownload.wp_execute bot.unicode bot.policy telegramId url spec extractorKey chatId
      messageId)
  have hframe := wp_frame hallow hstart
  rw [List.append_nil] at hframe
  exact wp_mono _ hframe fun _ _ _ => trivial

/-- What has been answered stays in the history. -/
theorem wp_keeps {α : Type} {p : Job α} {e : Ev}
    (h : wp (handlerMonitor bot update) p g fun _ _ => True) (he : e ∈ g) :
    wp (handlerMonitor bot update) p g fun g' _ => e ∈ g' :=
  wp_mono _ (wp_extends h) fun _ _ hq => hq.2.subset he

theorem Granted.mono {sender : Int} {u : Trace} (h : Granted sender g) : Granted sender (g ++ u) := by
  obtain ⟨key, limit, window, verdict, hmem, hrest⟩ := h
  exact ⟨key, limit, window, verdict, List.mem_append_left _ hmem, hrest⟩

theorem Claimed.mono {context : PreviewContext} {u : Trace} (h : Claimed update g context) :
    Claimed update (g ++ u) context := by
  obtain ⟨token, entry, hc, hmem, hd⟩ := h
  exact ⟨token, entry, hc, List.mem_append_left _ hmem, hd⟩

theorem wp_handlePreview {locale : Str} {waiting : Bool} {message : Message}
    (hu : update = .message locale waiting message)
    (hf : message.text.elim false (startsWith (str "/preview")) = true) :
    wp (handlerMonitor bot update) (Handler.handlePreview bot i18n message) g
      fun _ _ => True := by
  unfold Handler.handlePreview
  split
  · next word rest tail hs =>
    simp only [wp_act_bind, wp_attempt]
    refine wp_mono _ (wp_previewDownload fun checked hv => ?_) fun g' r _ => ?_
    · exact ⟨locale, waiting, message, hu, .inl ⟨hf, word, rest, tail, hs, hv⟩⟩
    · cases r with
      | ok preview => exact wp_free_true (free_answered _) g'
      | error e =>
        by_cases he : e.isDownloadFailure = true
        · simp only [he]
          exact wp_free_true (free_answered _) g'
        · simp only [he]
          trivial
  · exact wp_free_true (free_answered _) g

/-! ### `/download` -/

theorem wp_requestPreviewed {telegramId : Int} {url : Str} {preview : MediaPreview}
    {status : SentMessage} (hu : update.confirms = none) (hurl : bot.Accepts url)
    (hg : g.any isRequest = false) :
    wp (handlerMonitor bot update)
      (Handler.requestPreviewed bot i18n telegramId url preview status) g fun _ _ => True := by
  unfold Handler.requestPreviewed
  simp only [wp_act_bind, wp_port, wp_attempt]
  refine ⟨⟨hg, .inl ⟨hu, hurl⟩⟩, fun r _ => ?_⟩
  cases r with
  | error e => trivial
  | ok _ =>
    refine wp_mono _ (wp_requestDownload ?_) fun g' r _ => ?_
    · exact List.mem_append_right _ (List.mem_singleton.mpr rfl)
    · refine wp_free_true ?_ g'
      split
      · trivial
      · exact free_editWith _
      · exact free_editWith _
      · exact free_editWith _
      · trivial

theorem wp_downloadPreviewed {locale : Str} {waiting : Bool} {message : Message}
    {telegramId : Int} {url : Str} (hu : update = .message locale waiting message)
    (hfrom : message.fromUser = some telegramId) (hurl : bot.Accepts url)
    (hgrant : Granted telegramId g) (hg : g.any isRequest = false) :
    wp (handlerMonitor bot update) (Handler.downloadPreviewed bot i18n telegramId url) g
      fun _ _ => True := by
  unfold Handler.downloadPreviewed
  simp only [wp_act_bind]
  refine wp_mono _ (wp_free (free_answerWith _) g) ?_
  rintro g' r ⟨u, rfl, hfree⟩
  cases r with
  | error e => trivial
  | ok status =>
    simp only [wp_attempt]
    refine wp_mono _ (wp_previewDownload fun checked hv => ?_) fun g' r hr => ?_
    · refine ⟨locale, waiting, message, hu, .inr ⟨hurl.of_validate hv, fun sender hs => ?_⟩⟩
      rw [hfrom] at hs
      cases hs
      exact hgrant.mono
    · cases r with
      | ok preview =>
        obtain ⟨-, rfl⟩ := hr preview rfl
        refine wp_requestPreviewed (by rw [hu]; rfl) hurl ?_
        simp only [List.any_append, hg, any_isRequest_of_free hfree, Bool.false_or]
        rfl
      | error e =>
        refine wp_free_true ?_ g'
        cases e with
        | unsupportedURL reason => exact free_editWith _
        | extraction e => exact free_editWith _
        | _ => trivial

theorem wp_handleDownload {locale : Str} {waiting : Bool} {message : Message}
    (hu : update = .message locale waiting message) :
    wp (handlerMonitor bot update) (Handler.handleDownload bot i18n message) []
      fun _ _ => True := by
  unfold Handler.handleDownload
  cases hfrom : message.fromUser with
  | none => trivial
  | some telegramId =>
    simp only
    split
    · next word rest tail hs =>
      cases hv : validateUrlAgainstAllowlist bot.unicode (strip rest)
          bot.settings.allowedDomains bot.settings.blockedDomains with
      | error e =>
        refine wp_free_true ?_ []
        cases e with
        | unsupportedURL reason => exact free_answered _
        | _ => trivial
      | ok url =>
        simp only [wp_act_bind, wp_port]
        refine ⟨trivial, fun r _ => ?_⟩
        cases r with
        | error e => trivial
        | ok verdict =>
          by_cases hallowed : verdict.allowed = true
          · simp only [hallowed, Bool.not_true]
            refine wp_downloadPreviewed hu hfrom ⟨url, validateUrlAgainstAllowlist_ok hv⟩ ?_ rfl
            exact ⟨_, _, _, verdict, List.mem_singleton.mpr rfl, hallowed, .inr rfl⟩
          · simp only [hallowed]
            exact wp_free_true (free_answered _) _
    · exact wp_free_true (free_answered _) []

/-! ### The guided flow -/

/-- The only writer of preview contexts. -/
theorem wp_save {ttlSeconds : Int} {preview : MediaPreview} {u : Trace} {url : Str}
    (hu : ∃ locale waiting message, update = .message locale waiting message)
    (hg : g = u ++ [⟨.getPreview url, .ok preview⟩]) (hsave : u.any isSave = false)
    (hurl : bot.Accepts preview.sourceUrl) :
    wp (handlerMonitor bot update) (PreviewContextStore.save ttlSeconds (.fromPreview preview)) g
      fun _ _ => True := by
  unfold PreviewContextStore.save
  refine (wp_port_bind _ _ _ _ _).mpr ⟨trivial, fun r _ => ?_⟩
  cases r with
  | error e => trivial
  | ok token =>
    refine (wp_port_bind _ _ _ _ _).mpr ⟨⟨hu, ?_, preview, ?_, hurl⟩, fun r _ => ?_⟩
    · simp only [historyMonitor_next, hg, List.any_append, hsave, Bool.false_or]
      rfl
    · exact ⟨u, url, token, by simp [hg], rfl, rfl⟩
    · cases r <;> trivial

theorem wp_fetchPreview {locale : Str} {waiting : Bool} {message : Message} {validatedUrl : Str}
    (hu : update = .message locale waiting message) (hurl : bot.Accepts validatedUrl)
    (hgrant : ∀ sender, message.fromUser = some sender → Granted sender g)
    (hg : g.any isSave = false) :
    wp (handlerMonitor bot update) (Handler.fetchPreview bot i18n validatedUrl) g
      fun _ _ => True := by
  unfold Handler.fetchPreview
  simp only [wp_act_bind]
  refine wp_mono _ (wp_free (free_answerWith _) g) ?_
  rintro g' r ⟨u, rfl, hfree⟩
  cases r with
  | error e => trivial
  | ok status =>
    simp only [wp_attempt]
    refine wp_mono _ (wp_previewDownload fun checked hv => ?_) fun g' r hr => ?_
    · refine ⟨locale, waiting, message, hu, .inr ⟨hurl.of_validate hv, fun sender hs => ?_⟩⟩
      exact (hgrant sender hs).mono
    · cases r with
      | error e =>
        refine wp_free_true ?_ g'
        by_cases he : e.isDownloadFailure = true
        · simp only [he]
          exact free_editWith _
        · simp only [he]
          trivial
      | ok preview =>
        obtain ⟨hv, rfl⟩ := hr preview rfl
        refine (wp_act_bind _ _ _ _ _).mpr (wp_mono _
          (wp_save ⟨locale, waiting, message, hu⟩ rfl ?_ (hurl.of_validate hv)) fun g' r _ => ?_)
        · simp only [List.any_append, hg, any_isSave_of_free hfree, Bool.false_or]
        · cases r with
          | error e => trivial
          | ok token =>
            refine wp_free_true ?_ g'
            simp

theorem wp_showPreview {locale : Str} {waiting : Bool} {message : Message} {url : Str}
    (hu : update = .message locale waiting message) (hg : g.any isSave = false) :
    wp (handlerMonitor bot update) (Handler.showPreview bot i18n message url) g
      fun _ _ => True := by
  unfold Handler.showPreview
  cases hv : validateUrlAgainstAllowlist bot.unicode url bot.settings.allowedDomains
      bot.settings.blockedDomains with
  | error e =>
    refine wp_free_true ?_ g
    cases e with
    | unsupportedURL reason => exact free_answered _
    | _ => trivial
  | ok validatedUrl =>
    have haccepts : bot.Accepts validatedUrl := ⟨validatedUrl, validateUrlAgainstAllowlist_ok hv⟩
    cases hfrom : message.fromUser with
    | none =>
      refine wp_fetchPreview hu haccepts (fun sender hs => ?_) hg
      rw [hfrom] at hs
      cases hs
    | some telegramId =>
      simp only [wp_act_bind, wp_port]
      refine ⟨trivial, fun r _ => ?_⟩
      cases r with
      | error e => trivial
      | ok verdict =>
        by_cases hallowed : verdict.allowed = true
        · simp only [hallowed, Bool.not_true]
          refine wp_fetchPreview hu haccepts (fun sender hs => ?_) ?_
          · rw [hfrom] at hs
            cases hs
            exact ⟨_, _, _, verdict, List.mem_append_right _ (List.mem_singleton.mpr rfl),
              hallowed, .inl rfl⟩
          · simp only [historyMonitor_next, List.any_append, hg, Bool.false_or]
            rfl
        · simp only [hallowed]
          exact wp_free_true (free_answered _) _

theorem wp_handleUrlInState {locale : Str} {waiting : Bool} {message : Message}
    (hu : update = .message locale waiting message) :
    wp (handlerMonitor bot update) (Handler.handleUrlInState bot i18n message) []
      fun _ _ => True := by
  unfold Handler.handleUrlInState
  simp only [wp_act_bind, wp_port]
  refine ⟨trivial, fun r _ => ?_⟩
  cases r with
  | error e => trivial
  | ok _ => exact wp_showPreview hu rfl

/-! ### Taps -/

theorem wp_confirm {tap : CallbackQuery} {message : Message} {context : PreviewContext}
    {spec : DownloadSpec} (hclaim : Claimed update g context) (hg : g.any isRequest = false) :
    wp (handlerMonitor bot update) (Handler.confirm bot i18n tap message context spec) g
      fun _ _ => True := by
  unfold Handler.confirm
  refine (wp_port_bind _ _ _ _ _).mpr ⟨⟨hg, .inr ⟨context, hclaim, rfl, rfl⟩⟩, fun r _ => ?_⟩
  cases r with
  | error e => trivial
  | ok _ =>
    refine (wp_act_bind _ _ _ _ _).mpr ((wp_attempt _ _ _ _).mpr
      (wp_mono _ (wp_requestDownload ?_) fun g' r _ => ?_))
    · exact List.mem_append_right _ (List.mem_singleton.mpr rfl)
    · refine wp_free_true ?_ g'
      split
      · exact free_alertWith _
      · exact free_alertWith _
      · simp
      · trivial
      · simp

theorem wp_confirmClaimed {tap : CallbackQuery} {context : PreviewContext} {spec : DownloadSpec}
    (hclaim : Claimed update g context) (hg : g.any isRequest = false) :
    wp (handlerMonitor bot update) (Handler.confirmClaimed bot i18n tap context spec) g
      fun _ _ => True := by
  unfold Handler.confirmClaimed
  cases tap.message with
  | none => exact wp_free_true (free_alertWith _) g
  | some message =>
    refine (wp_port_bind _ _ _ _ _).mpr ⟨trivial, fun r _ => ?_⟩
    cases r with
    | error e => trivial
    | ok verdict =>
      by_cases hallowed : verdict.allowed = true
      · simp only [hallowed, Bool.not_true]
        refine wp_confirm hclaim.mono ?_
        simp only [historyMonitor_next, List.any_append, hg, Bool.false_or]
        rfl
      · simp only [hallowed]
        exact wp_free_true (free_alertWith _) _

theorem wp_handleConfirmDownload {tap : CallbackQuery}
    (hu : update.confirms = some (parseConfirmCallback (tap.data.getD [])).1) :
    wp (handlerMonitor bot update) (Handler.handleConfirmDownload bot i18n tap) [] fun g r =>
      r = .ok () → ∃ entry, ⟨.redisGetdel (tokenKey (parseConfirmCallback (tap.data.getD [])).1),
        .ok entry⟩ ∈ g := by
  unfold Handler.handleConfirmDownload PreviewContextStore.pop
  generalize parseConfirmCallback (tap.data.getD []) = parsed at hu ⊢
  obtain ⟨token, spec⟩ := parsed
  refine (wp_act_bind _ _ _ _ _).mpr
    ((wp_port_bind _ _ _ _ _).mpr ⟨⟨rfl, token, hu, rfl⟩, fun r _ => ?_⟩)
  cases r with
  | error e => rintro ⟨⟩
  | ok entry =>
    have hmem : (⟨.redisGetdel (tokenKey token), .ok entry⟩ : Ev) ∈
        [] ++ [(⟨.redisGetdel (tokenKey token), .ok entry⟩ : Ev)] := List.mem_singleton.mpr rfl
    have keep {p : Job Unit}
        (h : wp (handlerMonitor bot update) p
          ([] ++ [(⟨.redisGetdel (tokenKey token), .ok entry⟩ : Ev)]) fun _ _ => True) :
        wp (handlerMonitor bot update) p
          ([] ++ [(⟨.redisGetdel (tokenKey token), .ok entry⟩ : Ev)]) fun g r =>
            r = .ok () → ∃ entry, ⟨.redisGetdel (tokenKey token), .ok entry⟩ ∈ g :=
      wp_mono _ (wp_keeps h hmem) fun _ _ hk _ => ⟨entry, hk⟩
    simp only [wp_lift]
    cases hd : PreviewContextStore.decode entry with
    | error e => rintro ⟨⟩
    | ok found =>
      cases found with
      | none => exact keep (wp_free_true (free_alertWith _) _)
      | some context => exact keep (wp_confirmClaimed ⟨token, entry, hu, hmem, hd⟩ rfl)

theorem wp_handleCancelDownload {tap : CallbackQuery}
    (hu : update.cancels = some (Handler.cancelToken tap)) :
    wp (handlerMonitor bot update) (Handler.handleCancelDownload i18n tap) [] fun g r =>
      r = .ok () → ⟨.redisDelete (tokenKey (Handler.cancelToken tap)), .ok ()⟩ ∈ g := by
  unfold Handler.handleCancelDownload PreviewContextStore.delete
  refine (wp_port_bind _ _ _ _ _).mpr ⟨⟨rfl, _, hu, rfl⟩, fun r _ => ?_⟩
  cases r with
  | error e => rintro ⟨⟩
  | ok done =>
    refine wp_mono _ (wp_keeps (wp_free_true ?_ _) ?_) fun _ _ hk _ => hk
    · refine only_act_bind (free_onMessage _ fun _ => ?_) fun _ => only_port.mpr rfl
      simp
    · exact List.mem_singleton.mpr rfl

/-! ### The dispatcher -/

/-- What holds of every handler whose filter passes, and of none at all. -/
theorem wp_firstMatch {handlers : List (Bool × Job Unit)} {Q : Trace → Except Exc Unit → Prop}
    (hnone : (∀ entry ∈ handlers, entry.1 = false) → Q g (.ok ()))
    (hmatch : ∀ entry ∈ handlers, entry.1 = true → wp (handlerMonitor bot update) entry.2 g Q) :
    wp (handlerMonitor bot update) (Bot.firstMatch handlers) g Q := by
  unfold Bot.firstMatch
  cases hf : handlers.find? Prod.fst with
  | none =>
    refine hnone fun entry hmem => ?_
    exact Bool.not_eq_true _ ▸ List.find?_eq_none.mp hf entry hmem
  | some entry => exact hmatch entry (List.mem_of_find?_eq_some hf) (List.find?_some hf)

/-- Two prefixes that part before either ends. -/
theorem hasPrefix_disjoint {p q : Str} {tap : CallbackQuery} (hp : hasPrefix p tap = true)
    (hpq : p.isPrefixOf q = false) (hqp : q.isPrefixOf p = false) : hasPrefix q tap = false := by
  unfold hasPrefix startsWith at *
  cases hd : tap.data with
  | none => rfl
  | some data =>
    simp only [hd, Option.elim] at hp ⊢
    by_contra hq
    rw [Bool.not_eq_false, List.isPrefixOf_iff_prefix] at hq
    rw [List.isPrefixOf_iff_prefix] at hp
    rcases List.prefix_or_prefix_of_prefix hp hq with h | h
    · rw [List.isPrefixOf_iff_prefix.mpr h] at hpq
      cases hpq
    · rw [List.isPrefixOf_iff_prefix.mpr h] at hqp
      cases hqp

theorem hasPrefix_of_data {p : Str} {tap : CallbackQuery} (h : (tap.data == some p) = true) :
    hasPrefix p tap = true := by
  unfold hasPrefix startsWith
  rw [beq_iff_eq.mp h]
  exact List.isPrefixOf_iff_prefix.mpr (List.prefix_refl p)

theorem wp_message (locale : Str) (waiting : Bool) (message : Message) :
    wp (handlerMonitor bot (.message locale waiting message))
      (bot.handleUpdate (.message locale waiting message)) [] fun _ _ => True := by
  refine wp_firstMatch (fun _ => trivial) fun entry hmem hfilter => ?_
  simp only [Bot.messageHandlers, List.mem_cons, List.not_mem_nil, or_false] at hmem
  rcases hmem with rfl | rfl | rfl | rfl | rfl | rfl | rfl | rfl | rfl | rfl | rfl | rfl | rfl | rfl
  · exact wp_free_true (free_handleHealth _) []
  · exact wp_free_true (free_handleWorkerPing _ _) []
  · exact wp_free_true (free_handleWorkerStatus _) []
  · trivial
  · exact wp_free_true (free_handleStart _ _) []
  · exact wp_free_true (free_handleHelp _ _) []
  · exact wp_free_true free_handlePing []
  · exact wp_free_true (free_handleLanguageCommand _) []
  · exact wp_handlePreview rfl hfilter
  · exact wp_handleDownload rfl
  · exact wp_free_true (free_handleDownloadReplyButton _) []
  · exact wp_free_true (free_handleHelp _ _) []
  · exact wp_handleUrlInState rfl
  · exact wp_showPreview rfl rfl

theorem confirms_callback (locale : Str) (tap : CallbackQuery) :
    (Update.callback locale tap).confirms =
      if hasPrefix cbConfirmPrefix tap then some (parseConfirmCallback (tap.data.getD [])).1
      else none := rfl

theorem cancels_callback (locale : Str) (tap : CallbackQuery) :
    (Update.callback locale tap).cancels =
      if hasPrefix cbCancelPrefix tap then some (Handler.cancelToken tap) else none := rfl

/-- Taps that are neither `dl:` nor `cancel:` have nothing to spend. -/
theorem spent_of_neither {locale : Str} {tap : CallbackQuery} (g : Trace)
    (hc : hasPrefix cbConfirmPrefix tap = false) (hx : hasPrefix cbCancelPrefix tap = false) :
    Spent (.callback locale tap) g := by
  unfold Spent
  simp [confirms_callback, cancels_callback, hc, hx]

/-- A free handler, filtered by a prefix that is neither of the two. -/
theorem wp_tap_free {locale : Str} {tap : CallbackQuery} {p : Job Unit} {q : Str} (hp : Free p)
    (hq : hasPrefix q tap = true)
    (h1 : q.isPrefixOf cbConfirmPrefix = false) (h2 : cbConfirmPrefix.isPrefixOf q = false)
    (h3 : q.isPrefixOf cbCancelPrefix = false) (h4 : cbCancelPrefix.isPrefixOf q = false) :
    wp (handlerMonitor bot (.callback locale tap)) p [] fun g r =>
      r = .ok () → Spent (.callback locale tap) g := by
  have hc : hasPrefix cbConfirmPrefix tap = false := hasPrefix_disjoint hq h1 h2
  have hx : hasPrefix cbCancelPrefix tap = false := hasPrefix_disjoint hq h3 h4
  exact wp_mono _ (wp_free hp []) fun g _ _ _ => spent_of_neither g hc hx

theorem wp_callback (locale : Str) (tap : CallbackQuery) :
    wp (handlerMonitor bot (.callback locale tap)) (bot.handleUpdate (.callback locale tap)) []
      fun g r => r = .ok () → Spent (.callback locale tap) g := by
  refine wp_firstMatch (fun hnone _ => ?_) fun entry hmem hfilter => ?_
  · simp only [Bot.callbackHandlers, List.forall_mem_cons] at hnone
    obtain ⟨-, -, -, -, -, hc, hx, -⟩ := hnone
    exact spent_of_neither [] hc hx
  simp only [Bot.callbackHandlers, List.mem_cons, List.not_mem_nil, or_false] at hmem
  rcases hmem with rfl | rfl | rfl | rfl | rfl | rfl | rfl
  · exact wp_tap_free (free_handleLanguageChoice _ _) hfilter rfl rfl rfl rfl
  · exact wp_tap_free (free_handleDownloadButton _ _) (hasPrefix_of_data hfilter) rfl rfl rfl rfl
  · exact wp_tap_free (free_handleHelpButton _ _ _) (hasPrefix_of_data hfilter) rfl rfl rfl rfl
  · exact wp_tap_free (free_handleOpenQualityPicker _ _ _) hfilter rfl rfl rfl rfl
  · exact wp_tap_free (free_handleBackToFormat _ _ _) hfilter rfl rfl rfl rfl
  · have hc := (confirms_callback locale tap).trans (if_pos hfilter)
    have hx : hasPrefix cbCancelPrefix tap = false := hasPrefix_disjoint hfilter rfl rfl
    refine wp_mono _ (wp_handleConfirmDownload hc) fun g r hpost hr => ⟨?_, ?_⟩
    · intro token ht
      rw [hc] at ht
      cases ht
      exact hpost hr
    · intro token ht
      rw [cancels_callback, hx] at ht
      cases ht
  · have hx := (cancels_callback locale tap).trans (if_pos hfilter)
    have hc : hasPrefix cbConfirmPrefix tap = false := hasPrefix_disjoint hfilter rfl rfl
    refine wp_mono _ (wp_handleCancelDownload hx) fun g r hpost hr => ⟨?_, ?_⟩
    · intro token ht
      rw [confirms_callback, hc] at ht
      cases ht
    · intro token ht
      rw [hx] at ht
      cases ht
      exact hpost hr

/-- Every handler keeps to its calls. -/
theorem Bot.wp_handleUpdate (bot : Bot) (update : Update) :
    wp (handlerMonitor bot update) (bot.handleUpdate update) [] fun g r =>
      r = .ok () → Spent update g := by
  cases update with
  | message locale waiting message =>
    refine wp_mono _ (wp_message locale waiting message) fun g r _ _ => ⟨?_, ?_⟩
    · rintro token ⟨⟩
    · rintro token ⟨⟩
  | callback locale tap => exact wp_callback locale tap

end Handlers

end MediaDownloader
