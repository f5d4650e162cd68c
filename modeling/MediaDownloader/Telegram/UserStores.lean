import MediaDownloader.Lib.Interleaving
import MediaDownloader.Infrastructure.UserRepository
import MediaDownloader.Telegram.Handlers

/-!
# The users table and the locale overrides

`/start`, `/language` taps and download requests of any users, side by side
over the `users` table and the overrides in Redis.  The stores answer; an insert
can fail on the unique `telegram_id`, and nothing is evicted.

* `UserLocaleManager.getLocale_override`: a supported override decides the locale;
* `user_wp`: what each task calls, and when;
* `UserTasks.row_cases`, `UserTasks.override_cases`: who writes a user's row and
  override.
-/

namespace MediaDownloader

open Interaction

/-! ## Locales -/

namespace UserLocaleManager

def defaultLocale : Str := str "en"

/-- `_normalize`: the primary subtag, if the bot speaks it. -/
def normalize (u : Unicode) (raw : Option Str) : Option Str :=
  match raw with
  | none => none
  | some raw =>
    if raw.isEmpty then none
    else
      let primary := u.lower (partition 45 raw).1
      if primary ∈ Handler.supportedLocales then some primary else none

/-- `get_locale`: the override in Redis, Telegram's language, the default. -/
def getLocale (u : Unicode) (override languageCode : Option Str) : Str :=
  match normalize u override with
  | some locale => locale
  | none => (normalize u languageCode).getD defaultLocale

/-- With a supported override the bot replies in its language. -/
theorem getLocale_override (u : Unicode) {locale : Str} (languageCode : Option Str)
    (hsup : locale ∈ Handler.supportedLocales) (hlower : u.lower locale = locale) :
    getLocale u (some locale) languageCode = locale := by
  have hnorm : normalize u (some locale) = some locale := by
    have hne : locale.isEmpty = false ∧ (partition 45 locale).1 = locale := by
      rcases List.mem_pair.mp hsup with rfl | rfl
      · decide
      · decide
    simp [normalize, hne, hlower, hsup]
  unfold getLocale
  rw [hnorm]

end UserLocaleManager

/-! ## Tasks and stores -/

/-- The code paths that read or write a user's row or override. -/
inductive UserTask where
  | register (telegramId : Int) (language : Option Str)
  | start (i18n : I18n) (languageCode : Option Str) (message : Message)
  | request (telegramId : Int) (url : Str) (spec : DownloadSpec) (extractorKey : Str)
      (chatId messageId : Int)
  | choice (i18n : I18n) (callback : CallbackQuery)

namespace UserTask

def telegramId : UserTask → Option Int
  | .register telegramId _ => some telegramId
  | .start _ _ message => message.fromUser
  | .request telegramId _ _ _ _ _ => some telegramId
  | .choice _ callback => some callback.fromUser

/-- The language of a row it creates. -/
def language : UserTask → Option Str
  | .register _ language => language
  | .start i18n _ _ => some i18n.locale
  | .request _ _ _ _ _ _ => none
  | .choice _ _ => none

/-- The locale a `lang:` tap asks for. -/
def chosen : UserTask → Option Str
  | .choice _ callback => some ((callback.data.getD []).drop cbLangPrefix.length)
  | _ => none

def code (bot : Bot) : UserTask → Program Unit
  | .register telegramId language => Prog.map (fun _ => ()) (registerUser telegramId language)
  | .start i18n _ message => Prog.map (fun _ => ()) (Handler.handleStart i18n message)
  | .request telegramId url spec extractorKey chatId messageId =>
    Prog.map (fun _ => ()) (RequestDownload.execute bot.unicode bot.policy telegramId url spec
      extractorKey chatId messageId)
  | .choice i18n callback => Prog.map (fun _ => ()) (Handler.handleLanguageChoice i18n callback)

/-- It gets as far as its get-or-create step. -/
def Registers (bot : Bot) : UserTask → Prop
  | .register _ _ => True
  | .start _ _ message => message.fromUser.isSome = true
  | .request _ url spec extractorKey _ _ =>
    (∃ validatedUrl, validateUrl bot.unicode url = .ok validatedUrl) ∧
      bot.policy.isAllowed bot.unicode extractorKey spec = true
  | .choice _ _ => False

end UserTask

/-- Postgres and Redis, as far as users are concerned. -/
structure UserStores where
  users : UserTable
  override : Int → Option Str

def UserStores.setOverride (w : UserStores) (telegramId : Int) (locale : Str) : UserStores :=
  { w with override := fun id => if id = telegramId then some locale else w.override id }

/-- Calls of the stores, of the clock and of `uuid4`. -/
def Call.isUserStore : Call → Bool
  | .userGetByTelegramId _ => true
  | .userCreate _ => true
  | .userSetLanguage _ _ => true
  | .setLocale _ => true
  | .uuid4 => true
  | .utcnow => true
  | _ => false

attribute [simp] Call.isUserStore

/-- How the stores answer the task.  A task reads and inserts in separate steps;
`set_language` selects and updates the row in one transaction. -/
inductive Consulted (w : UserStores) (task : UserTask) :
    (c : Call) → Except Exc (Resp c) → UserStores → Prop
  | got (telegramId : Int) :
      Consulted w task (.userGetByTelegramId telegramId)
        (.ok (w.users.getByTelegramId telegramId)) w
  | created {user : User} {createdAt : Time} {users : UserTable} :
      w.users.create user createdAt = .ok users →
      Consulted w task (.userCreate user) (.ok ()) { w with users := users }
  | clashed {user : User} {createdAt : Time} {e : Exc} :
      w.users.create user createdAt = .error e → Consulted w task (.userCreate user) (.error e) w
  | updated (telegramId : Int) (language : Option Str) :
      Consulted w task (.userSetLanguage telegramId language)
        (.ok ((w.users.setLanguage telegramId language).getByTelegramId telegramId))
        { w with users := w.users.setLanguage telegramId language }
  | overridden {telegramId : Int} (locale : Str) : task.telegramId = some telegramId →
      Consulted w task (.setLocale locale) (.ok ()) (w.setOverride telegramId locale)
  | uuid (id : UUID) : Consulted w task .uuid4 (.ok id) w
  | clock (now : Time) : Consulted w task .utcnow (.ok now) w
  | elsewhere {c : Call} (r : Except Exc (Resp c)) : c.isUserStore = false → Consulted w task c r w

/-- `/start` comes with the locale the middleware has resolved for it. -/
def userSystem (bot : Bot) : System Call Resp Exc UserTask UserStores where
  code := UserTask.code bot
  start w task := ∀ i18n languageCode message telegramId,
    task = .start i18n languageCode message → message.fromUser = some telegramId →
      i18n.locale = UserLocaleManager.getLocale bot.unicode (w.override telegramId) languageCode
  answer := Consulted
  drift _ _ := False

abbrev UserConf := Conf Call Resp Exc UserTask UserStores
abbrev UserThread := Thread Call Resp Exc UserTask
abbrev UserLabel := Label Call Resp Exc UserTask

/-! ## What a task calls, and when -/

/-- The call of `e` ends a get-or-create step with the result `r`. -/
inductive Gets : Ev → Except Exc User → Prop
  | found {telegramId : Int} {user : User} :
      Gets ⟨.userGetByTelegramId telegramId, .ok (some user)⟩ (.ok user)
  | unread {telegramId : Int} {e : Exc} :
      Gets ⟨.userGetByTelegramId telegramId, .error e⟩ (.error e)
  | created {user : User} : Gets ⟨.userCreate user, .ok ()⟩ (.ok user)
  | clashed {user : User} {e : Exc} : Gets ⟨.userCreate user, .error e⟩ (.error e)

/-- The get-or-create step is over, with the result `r`. -/
def Got (t : Trace) (r : Except Exc User) : Prop := ∃ e ∈ t, Gets e r

/-- Between a read that found no row and the insert. -/
def Inserting (t : Trace) : Prop :=
  (∃ telegramId, ⟨.userGetByTelegramId telegramId, .ok none⟩ ∈ t) ∧
    ∀ e ∈ t, ∀ user, e.call ≠ .userCreate user

/-- Between the write of the override and that of the row. -/
def Choosing (t : Trace) : Prop :=
  (∃ locale r, ⟨.setLocale locale, r⟩ ∈ t) ∧
    ∀ e ∈ t, ∀ telegramId language, e.call ≠ .userSetLanguage telegramId language

/-- What must have happened before a call of the task. -/
def UserTask.Allowed (task : UserTask) (g : Trace) : Call → Prop
  | .userGetByTelegramId telegramId => task.telegramId = some telegramId ∧ g = []
  | .userCreate user => ∃ telegramId id now, task.telegramId = some telegramId ∧
      user = User.createFromTelegram id now telegramId task.language ∧
      g = [⟨.userGetByTelegramId telegramId, .ok none⟩, ⟨.uuid4, .ok id⟩, ⟨.utcnow, .ok now⟩]
  | .create created => ∃ user, Got g (.ok user) ∧ created.userId = user.id
  | .setLocale locale => task.chosen = some locale ∧ locale ∈ Handler.supportedLocales ∧ g = []
  | .userSetLanguage telegramId language => task.telegramId = some telegramId ∧
      ∃ locale, task.chosen = some locale ∧ language = some locale ∧
        g = [⟨.setLocale locale, .ok ()⟩]
  | _ => True

/-- Calls that cannot fail here. -/
def Call.isReliable : Call → Bool
  | .userGetByTelegramId _ => true
  | .userSetLanguage _ _ => true
  | .setLocale _ => true
  | .uuid4 => true
  | .utcnow => true
  | _ => false

attribute [simp] Call.isReliable

theorem Call.isUserStore_of_isReliable {c : Call} (h : c.isReliable = true) :
    c.isUserStore = true := by
  cases c <;> first | rfl | cases h

def Reliable (e : Ev) : Prop := e.call.isReliable = true → ∃ v, e.resp = .ok v

theorem Reliable.not_error {c : Call} {e : Exc} (h : Reliable ⟨c, .error e⟩)
    (hc : c.isReliable = true) : False := by
  obtain ⟨v, hv⟩ := h hc
  cases hv

theorem Consulted.reliable {w w' : UserStores} {task : UserTask} {c : Call}
    {r : Except Exc (Resp c)} (h : Consulted w task c r w') : Reliable ⟨c, r⟩ := by
  intro hc
  cases h with
  | got _ => exact ⟨_, rfl⟩
  | created _ => cases hc
  | clashed _ => cases hc
  | updated _ _ => exact ⟨_, rfl⟩
  | overridden _ _ => exact ⟨_, rfl⟩
  | uuid _ => exact ⟨_, rfl⟩
  | clock _ => exact ⟨_, rfl⟩
  | elsewhere _ hs =>
    rw [Call.isUserStore_of_isReliable hc] at hs
    cases hs

theorem Got.mono {t t' : Trace} {r : Except Exc User} (h : Got t r) (ht : t <+: t') :
    Got t' r := by
  obtain ⟨e, he, hr⟩ := h
  exact ⟨e, ht.subset he, hr⟩

section Calls

variable {task : UserTask} {telegramId : Int} {language : Option Str}

abbrev userMonitor (task : UserTask) : Monitor Call Resp Exc Trace :=
  historyMonitor Reliable task.Allowed

/-- Whatever `registerUser` returns or raises, its last store call has given. -/
theorem wp_registerUser (hid : task.telegramId = some telegramId)
    (hlang : task.language = language) :
    wp (userMonitor task) (registerUser telegramId language) [] fun g r => Got g r := by
  unfold registerUser
  refine (wp_port_bind _ _ _ _ _).mpr ⟨⟨hid, rfl⟩, fun r hr => ?_⟩
  rcases r with e | _ | user
  · exact (hr.not_error rfl).elim
  · refine (wp_port_bind _ _ _ _ _).mpr ⟨trivial, fun r hr => ?_⟩
    rcases r with e | id
    · exact (hr.not_error rfl).elim
    refine (wp_port_bind _ _ _ _ _).mpr ⟨trivial, fun r hr => ?_⟩
    rcases r with e | now
    · exact (hr.not_error rfl).elim
    refine (wp_port_bind _ _ _ _ _).mpr ⟨⟨telegramId, id, now, hid, ?_, rfl⟩, fun r _ => ?_⟩
    · rw [hlang]
    rcases r with e | _
    · exact ⟨_, List.mem_append_right _ (List.mem_singleton.mpr rfl), .clashed⟩
    · exact ⟨_, List.mem_append_right _ (List.mem_singleton.mpr rfl), .created⟩
  · exact ⟨_, List.mem_singleton.mpr rfl, .found⟩

/-- Nothing the rest of `execute` calls depends on the user but the request. -/
theorem wp_createAndEnqueue {user : User} {validatedUrl : Str} {spec : DownloadSpec}
    {chatId messageId : Int} {g : Trace} (hg : Got g (.ok user)) :
    wp (userMonitor task)
      (RequestDownload.createAndEnqueue user validatedUrl spec chatId messageId) g
      fun g' _ => ∃ r, Got g' r := by
  suffices h : wp (userMonitor task)
      (RequestDownload.createAndEnqueue user validatedUrl spec chatId messageId) g
      fun _ _ => True from wp_mono _ (wp_extends h) fun g' _ hg' => ⟨_, hg.mono hg'.2⟩
  unfold RequestDownload.createAndEnqueue
  refine (wp_port_bind _ _ _ _ _).mpr ⟨trivial, fun r _ => ?_⟩
  rcases r with e | id
  · trivial
  refine (wp_port_bind _ _ _ _ _).mpr ⟨trivial, fun r _ => ?_⟩
  rcases r with e | now
  · trivial
  refine (wp_port_bind _ _ _ _ _).mpr ⟨⟨user, hg.mono ?_, rfl⟩, fun r _ => ?_⟩
  · rw [historyMonitor_next, historyMonitor_next, List.append_assoc]
    exact List.prefix_append _ _
  rcases r with e | _
  · trivial
  simp only [wp_act_bind, wp_attempt, wp_port]
  refine ⟨trivial, fun r _ => ?_⟩
  rcases r with e | _
  · by_cases he : e.isException = true
    · simp only [he, if_true, wp_act_bind, wp_port]
      refine ⟨trivial, fun r _ => ?_⟩
      cases r <;> trivial
    · simp only [he]
      trivial
  · trivial

theorem wp_request (u : Unicode) (policy : FormatPolicy) {url : Str} {spec : DownloadSpec}
    {extractorKey : Str} {chatId messageId : Int} (hid : task.telegramId = some telegramId)
    (hlang : task.language = none) :
    wp (userMonitor task)
      (RequestDownload.execute u policy telegramId url spec extractorKey chatId messageId) []
      fun g _ => (∃ validatedUrl, validateUrl u url = .ok validatedUrl) ∧
        policy.isAllowed u extractorKey spec = true → ∃ r, Got g r := by
  unfold RequestDownload.execute
  simp only [wp_act_bind, wp_lift]
  cases hurl : validateUrl u url with
  | error e =>
    rintro ⟨⟨_, ⟨⟩⟩, -⟩
  | ok validatedUrl =>
    by_cases hpolicy : policy.isAllowed u extractorKey spec = true
    · simp only [hpolicy, Bool.not_true]
      refine ⟨⟨hid, rfl⟩, fun r hr => ?_⟩
      rcases r with e | (_ | user)
      · intro _
        exact ⟨_, _, List.mem_singleton.mpr rfl, .unread⟩
      · refine (wp_port_bind _ _ _ _ _).mpr ⟨trivial, fun r hr => ?_⟩
        rcases r with e | id
        · exact (hr.not_error rfl).elim
        refine (wp_port_bind _ _ _ _ _).mpr ⟨trivial, fun r hr => ?_⟩
        rcases r with e | now
        · exact (hr.not_error rfl).elim
        refine (wp_port_bind _ _ _ _ _).mpr
          ⟨⟨telegramId, id, now, hid, by rw [hlang], rfl⟩, fun r _ => ?_⟩
        rcases r with e | _
        · intro _
          exact ⟨_, _, List.mem_append_right _ (List.mem_singleton.mpr rfl), .clashed⟩
        · refine wp_mono _ (wp_createAndEnqueue ?_) fun _ _ h _ => h
          exact ⟨_, List.mem_append_right _ (List.mem_singleton.mpr rfl), .created⟩
      · refine wp_mono _ (wp_createAndEnqueue ?_) fun _ _ h _ => h
        exact ⟨_, List.mem_singleton.mpr rfl, .found⟩
    · simp only [hpolicy]
      rintro ⟨-, ⟨⟩⟩

/-- What a handler calls once the stores are written. -/
def Call.isReply : Call → Bool
  | .answer _ _ => true
  | .answerCallback _ _ => true
  | _ => false

theorem allowed_of_isReply (g : Trace) (c : Call) (h : c.isReply = true) : task.Allowed g c := by
  cases c <;> trivial

theorem wp_reply {α : Type} {p : Job α} (hp : Only (fun c : Call => c.isReply = true) p)
    (g : Trace) : wp (userMonitor task) p g fun g' _ => g <+: g' := by
  refine wp_mono _ (wp_history_of_only allowed_of_isReply hp g) fun g' _ h => ?_
  obtain ⟨u, rfl, -⟩ := h
  exact List.prefix_append _ _

theorem wp_start (i18n : I18n) {message : Message} (hid : task.telegramId = message.fromUser)
    (hlang : task.language = some i18n.locale) :
    wp (userMonitor task) (Handler.handleStart i18n message) []
      fun g _ => message.fromUser.isSome = true → ∃ r, Got g r := by
  unfold Handler.handleStart
  cases hfrom : message.fromUser with
  | none =>
    intro h
    cases h
  | some telegramId =>
    refine (wp_act_bind _ _ _ _ _).mpr ?_
    refine wp_mono _ (wp_registerUser (hid.trans hfrom) hlang) fun g r hgot => ?_
    cases r with
    | error e => exact fun _ => ⟨_, hgot⟩
    | ok user =>
      refine wp_mono _ (wp_reply ?_ g) fun g' _ hg _ => ⟨_, hgot.mono hg⟩
      simp [Call.isReply]

theorem wp_choice (i18n : I18n) {callback : CallbackQuery}
    (hid : task.telegramId = some callback.fromUser)
    (hchosen : task.chosen = some ((callback.data.getD []).drop cbLangPrefix.length)) :
    wp (userMonitor task) (Handler.handleLanguageChoice i18n callback) []
      fun g _ => ¬ Choosing g := by
  unfold Handler.handleLanguageChoice
  simp only
  split
  · refine ⟨trivial, fun r _ => ?_⟩
    rintro ⟨⟨locale, r', hm⟩, -⟩
    cases List.mem_singleton.mp hm
  · next hsup =>
    have hsup := Decidable.not_not.mp hsup
    refine (wp_port_bind _ _ _ _ _).mpr ⟨⟨hchosen, hsup, rfl⟩, fun r hr => ?_⟩
    rcases r with e | _
    · exact (hr.not_error rfl).elim
    refine (wp_port_bind _ _ _ _ _).mpr ⟨⟨hid, _, hchosen, rfl, rfl⟩, fun r hr => ?_⟩
    rcases r with e | user
    · exact (hr.not_error rfl).elim
    refine wp_mono _ (wp_reply ?_ _) fun g' _ hg hch => ?_
    · refine only_act_bind ?_ fun _ => only_port.mpr rfl
      cases callback.message with
      | none => trivial
      | some message => simp [onMessage, Call.isReply]
    · exact hch.2 _ (hg.subset (List.mem_append_right _ (List.mem_singleton.mpr rfl))) _ _ rfl

end Calls

/-- What a task has done when it is finished. -/
def UserTask.Done (bot : Bot) (task : UserTask) (t : Trace) : Prop :=
  (task.Registers bot → ∃ r, Got t r) ∧ (task.chosen.isSome = true → ¬ Choosing t)

theorem user_wp (bot : Bot) (task : UserTask) :
    wp (userMonitor task) ((userSystem bot).code task) [] fun g _ => task.Done bot g := by
  cases task with
  | register telegramId language =>
    refine (wp_map _ _ _ _ _).mpr (wp_mono _ (wp_registerUser rfl rfl) fun g r hgot => ?_)
    exact ⟨fun _ => ⟨_, hgot⟩, fun h => by cases h⟩
  | start i18n languageCode message =>
    refine (wp_map _ _ _ _ _).mpr (wp_mono _ (wp_start i18n rfl rfl) fun g r hgot => ?_)
    exact ⟨hgot, fun h => by cases h⟩
  | request telegramId url spec extractorKey chatId messageId =>
    refine (wp_map _ _ _ _ _).mpr
      (wp_mono _ (wp_request bot.unicode bot.policy rfl rfl) fun g r hgot => ?_)
    exact ⟨hgot, fun h => by cases h⟩
  | choice i18n callback =>
    refine (wp_map _ _ _ _ _).mpr (wp_mono _ (wp_choice i18n rfl rfl) fun g r hch => ?_)
    exact ⟨False.elim, fun _ => hch⟩

/-! ## What the stores answer -/

namespace Consulted

variable {w w' : UserStores} {task : UserTask} {telegramId : Int}

theorem get_eq {r : Except Exc (Option User)}
    (h : Consulted w task (.userGetByTelegramId telegramId) r w') :
    r = .ok (w.users.getByTelegramId telegramId) ∧ w' = w := by
  cases h with
  | got _ => exact ⟨rfl, rfl⟩
  | elsewhere _ hs => cases hs

theorem setLocale_eq {locale : Str} {r : Except Exc Unit}
    (h : Consulted w task (.setLocale locale) r w') (hid : task.telegramId = some telegramId) :
    w'.override telegramId = some locale := by
  cases h with
  | overridden _ hid' =>
    rw [hid] at hid'
    cases hid'
    simp [UserStores.setOverride]
  | elsewhere _ hs => cases hs

theorem setLanguage_eq {language : Option Str} {r : Except Exc (Option User)}
    (h : Consulted w task (.userSetLanguage telegramId language) r w') :
    r = .ok ((w.users.setLanguage telegramId language).getByTelegramId telegramId) ∧
      w' = { w with users := w.users.setLanguage telegramId language } := by
  cases h with
  | updated _ _ => exact ⟨rfl, rfl⟩
  | elsewhere _ hs => cases hs

/-- An insert goes through if there is no row yet, and fails if there is one. -/
theorem create_cases {user : User} {r : Except Exc Unit}
    (h : Consulted w task (.userCreate user) r w') (hu : user.telegramId = some telegramId) :
    (w.users.getByTelegramId telegramId = none ∧ r = .ok () ∧ ∃ createdAt,
        w'.users.getByTelegramId telegramId = some { user with createdAt := createdAt }) ∨
      ∃ row, w.users.getByTelegramId telegramId = some row ∧ r = .error .integrityError := by
  cases h with
  | created hcreate =>
    obtain ⟨hnone, hsome⟩ := UserTable.create_ok hcreate hu
    exact .inl ⟨hnone, rfl, _, hsome⟩
  | clashed hcreate =>
    obtain ⟨rfl, row, hrow⟩ := UserTable.create_error hcreate hu
    exact .inr ⟨row, hrow, rfl⟩
  | elsewhere _ hs => cases hs

/-- A user's row stays, is inserted, or gets a new language. -/
theorem row_cases {e : Ev} (h : Consulted w task e.call e.resp w') (telegramId : Int) :
    w'.users.getByTelegramId telegramId = w.users.getByTelegramId telegramId ∨
      (∃ user createdAt, e = ⟨.userCreate user, .ok ()⟩ ∧ user.telegramId = some telegramId ∧
        w.users.getByTelegramId telegramId = none ∧
        w'.users.getByTelegramId telegramId = some { user with createdAt := createdAt }) ∨
      ∃ language, e.call = .userSetLanguage telegramId language ∧
        w'.users.getByTelegramId telegramId =
          (w.users.getByTelegramId telegramId).map fun row => { row with language := language } := by
  obtain ⟨c, r⟩ := e
  have hconsulted : Consulted w task c r w' := h
  cases hconsulted with
  | @created user createdAt users hcreate =>
    by_cases hu : user.telegramId = some telegramId
    · obtain ⟨hnone, hsome⟩ := UserTable.create_ok hcreate hu
      exact .inr (.inl ⟨user, createdAt, rfl, hu, hnone, hsome⟩)
    · exact .inl (UserTable.create_ok_of_ne hcreate hu)
  | updated id language =>
    by_cases hid : telegramId = id
    · subst hid
      exact .inr (.inr ⟨language, rfl, UserTable.getByTelegramId_setLanguage _ _ _⟩)
    · exact .inl (UserTable.getByTelegramId_setLanguage_of_ne _ _ hid)
  | _ => exact .inl rfl

/-- A user's override stays, or is written by a task of theirs. -/
theorem override_cases {e : Ev} (h : Consulted w task e.call e.resp w') (telegramId : Int) :
    w'.override telegramId = w.override telegramId ∨
      ∃ locale, e.call = .setLocale locale ∧ task.telegramId = some telegramId ∧
        w'.override telegramId = some locale := by
  obtain ⟨c, r⟩ := e
  have hconsulted : Consulted w task c r w' := h
  cases hconsulted with
  | @overridden id locale hid =>
    by_cases hsame : telegramId = id
    · subst hsame
      exact .inr ⟨locale, rfl, hid, by simp [UserStores.setOverride]⟩
    · exact .inl (by simp [UserStores.setOverride, hsame])
  | _ => exact .inl rfl

end Consulted

/-! ## Runs -/

/-- Every thread runs its task on reliable answers. -/
structure UserTasks (bot : Bot) (c : UserConf) : Prop where
  coded : c.Coded (userSystem bot)
  answered : c.Answered Reliable

section Steps

variable {bot : Bot} {c c' : UserConf} {l : UserLabel} {i : Nat} {th : UserThread}

namespace UserTasks

theorem init (h : c.threads = []) : UserTasks bot c where
  coded := Conf.coded_of_nil h
  answered := Conf.answered_of_nil h

theorem step (hc : UserTasks bot c) (h : Step (userSystem bot) c l c') : UserTasks bot c' where
  coded := h.coded hc.coded
  answered := h.answered (fun _ _ _ _ _ hconsulted => Consulted.reliable hconsulted) hc.answered

theorem made (hc : UserTasks bot c) (hi : c.threads[i]? = some th) {u v : Trace} {e : Ev}
    (ht : th.trace = u ++ e :: v) : th.kind.Allowed u e.call :=
  hc.coded.made (user_wp bot) hi (hc.answered i th hi) ht

/-- The call a thread is about to make is allowed. -/
theorem allows (hc : UserTasks bot c) {e : Ev} {w : UserStores}
    (h : c.Calls (userSystem bot) i th e w) : th.kind.Allowed th.trace e.call := by
  obtain ⟨f, hf⟩ := h.next
  exact hc.coded.allows (user_wp bot) h.thread (hc.answered i th h.thread) hf

theorem done (hc : UserTasks bot c) (hi : c.threads[i]? = some th) (hfin : th.Finished) :
    th.kind.Done bot th.trace :=
  hc.coded.post (user_wp bot) hi (hc.answered i th hi) hfin

end UserTasks

/-- The stores stay, or answer a call. -/
theorem stores_cases (h : Step (userSystem bot) c l c') :
    c'.shared = c.shared ∨ ∃ i th e, l = .call i e ∧
      c.Calls (userSystem bot) i th e c'.shared ∧
        Consulted c.shared th.kind e.call e.resp c'.shared := by
  rcases h.shared_cases with he | ⟨-, hd⟩ | ⟨i, th, e, hl, hcall⟩
  · exact .inl he
  · exact hd.elim
  · exact .inr ⟨i, th, e, hl, hcall, hcall.answer⟩

end Steps

end MediaDownloader
