import MediaDownloader.Telegram.Handlers

/-!
# What URL validation raises

`urlparse` raises `ValueError` for an authority it cannot read, and nothing
between it and the handlers catches that.

* `urlparse_eq`: when it raises;
* `validation_clean_iff`: so validation refuses with `UnsupportedURLError` alone
  exactly when the text is blank or its authority can be read;
* `validation_not_clean`: `http://[`.
-/

namespace MediaDownloader

open Interaction

/-! ## The authority -/

/-- A URL without the leading and the inner characters that `urlparse` drops. -/
def urlStripped (url : Str) : Str :=
  removeChar 10 (removeChar 13 (removeChar 9 (url.dropWhile (· ≤ 32))))

/-- What stands between `//` and the next `/`, `?` or `#`. -/
def authority (url : Str) : Str :=
  let rest := (splitScheme (urlStripped url)).2
  if startsWith (str "//") rest then
    (rest.drop 2).takeWhile fun c => !(c == 47 || c == 63 || c == 35)
  else []

/-- Both brackets or none, around an IPv6 or future address, and no character
that NFKC turns into a delimiter. -/
structure ReadableAuthority (u : Unicode) (netloc : Str) : Prop where
  paired : 91 ∈ netloc ↔ 93 ∈ netloc
  bracketed : 91 ∈ netloc → checkBracketedNetloc netloc = true
  normal : checkNetloc u netloc = true

theorem urlparse_eq (u : Unicode) (url : Str) :
    urlparse u url =
      if decide (91 ∈ authority url) != decide (93 ∈ authority url) then .error Exc.valueError
      else if decide (91 ∈ authority url) && !checkBracketedNetloc (authority url) then
        .error Exc.valueError
      else if !checkNetloc u (authority url) then .error Exc.valueError
      else .ok ⟨(splitScheme (urlStripped url)).1, authority url⟩ := rfl

theorem urlparse_of_readable {u : Unicode} {url : Str} (h : ReadableAuthority u (authority url)) :
    urlparse u url = .ok ⟨(splitScheme (urlStripped url)).1, authority url⟩ := by
  have hbracketed :
      (decide (91 ∈ authority url) && !checkBracketedNetloc (authority url)) = false := by
    by_cases hb : 91 ∈ authority url
    · simp [h.bracketed hb]
    · simp [hb]
  rw [urlparse_eq, hbracketed]
  simp [h.paired, h.normal]

theorem urlparse_of_not_readable {u : Unicode} {url : Str}
    (h : ¬ ReadableAuthority u (authority url)) : urlparse u url = .error Exc.valueError := by
  rw [urlparse_eq]
  split
  · rfl
  · next hpaired =>
    split
    · rfl
    · next hbracketed =>
      split
      · rfl
      · next hnormal =>
        refine absurd ⟨?_, fun hb => ?_, ?_⟩ h
        · simpa using hpaired
        · simpa [hb] using hbracketed
        · simpa using hnormal

/-! ## Validation -/

/-- The stripped text, or `UnsupportedURLError`. -/
def RefusesCleanly (raw : Str) (outcome : Except Exc Str) : Prop :=
  outcome = .ok (strip raw) ∨ ∃ reason, outcome = .error (.unsupportedURL reason)

theorem validateUrl_clean {u : Unicode} {raw : Str}
    (h : strip raw = [] ∨ ReadableAuthority u (authority (strip raw))) :
    RefusesCleanly raw (validateUrl u raw) := by
  unfold validateUrl
  simp only []
  split
  · exact .inr ⟨_, rfl⟩
  · next hne =>
    have hreadable := h.resolve_left fun hnil => hne (List.isEmpty_iff.mpr hnil)
    simp only [urlparse_of_readable hreadable]
    split
    · exact .inr ⟨_, rfl⟩
    · split
      · exact .inr ⟨_, rfl⟩
      · exact .inl rfl

theorem validateUrl_not_clean {u : Unicode} {raw : Str} (hne : strip raw ≠ [])
    (h : ¬ ReadableAuthority u (authority (strip raw))) :
    validateUrl u raw = .error Exc.valueError := by
  have hempty : (strip raw).isEmpty = false := by simpa using hne
  simp only [validateUrl, hempty, urlparse_of_not_readable h]
  rfl

/-- What structural validation lets through is parsed once more, with no new failure. -/
theorem allowlist_clean {u : Unicode} {raw : Str} (h : RefusesCleanly raw (validateUrl u raw))
    (hparse : strip raw = [] ∨ ReadableAuthority u (authority (strip raw)))
    (allowed blocked : List Str) :
    RefusesCleanly raw (validateUrlAgainstAllowlist u raw allowed blocked) := by
  unfold validateUrlAgainstAllowlist
  rcases h with hok | ⟨reason, herr⟩
  · have hne : strip raw ≠ [] := by
      intro hnil
      have hbad : validateUrl u raw = .error (.unsupportedURL (str "Пустая ссылка")) := by
        simp [validateUrl, hnil]
      rw [hbad] at hok
      cases hok
    simp only [hok, urlparse_of_readable (hparse.resolve_left hne)]
    split
    · exact .inl rfl
    · exact .inr ⟨_, rfl⟩
  · simp only [herr]
    exact .inr ⟨reason, rfl⟩

/-! ## The handlers that validate a text -/

/-- A call that ends the wait for an answer: the answer itself, or what stands
between a text and its answer once the text is validated. -/
inductive EndsWait (i18n : I18n) : Ev → Prop
  | answered (text : Str) (keyboard : Keyboard) (sent : SentMessage) :
      EndsWait i18n ⟨.answer text keyboard, .ok sent⟩
  | telegram (text : Str) (keyboard : Keyboard) (e : Exc) :
      EndsWait i18n ⟨.answer text keyboard, .error e⟩
  | limiter (key : Str) (limit window : Int) (e : Exc) :
      EndsWait i18n ⟨.acquire key limit window, .error e⟩
  | extractor (url : Str) {e : Exc} (h : e.isDownloadFailure = false) :
      EndsWait i18n ⟨.getPreview url, .error e⟩
  /-- A duration that `format_preview` cannot print. -/
  | unshown (url : Str) {preview : MediaPreview} {e : Exc}
      (h : formatPreview i18n preview = .error e) : EndsWait i18n ⟨.getPreview url, .ok preview⟩

/-- The handler answers, unless a port fails it or the preview cannot be shown. -/
def AnswersText (i18n : I18n) (job : Job Unit) : Prop :=
  ∀ t r, Runs job t r → ∃ e ∈ t, EndsWait i18n e

/-- Both validations refuse `raw` cleanly, and the handlers that get it, as a
pasted text or as the argument of `/preview` or `/download`, answer it. -/
structure CleanlyValidated (u : Unicode) (raw : Str) : Prop where
  structural : RefusesCleanly raw (validateUrl u raw)
  allowlist : ∀ allowed blocked,
    RefusesCleanly raw (validateUrlAgainstAllowlist u raw allowed blocked)
  pasted : ∀ (bot : Bot) (i18n : I18n) (message : Message), bot.unicode = u → i18n.Total →
    AnswersText i18n (Handler.showPreview bot i18n message raw)
  previewed : ∀ (bot : Bot) (i18n : I18n) (message : Message), bot.unicode = u → i18n.Total →
    ∀ command rest, splitWords1 (message.text.getD []) = command :: raw :: rest →
      AnswersText i18n (Handler.handlePreview bot i18n message)
  downloaded : ∀ (bot : Bot) (i18n : I18n) (message : Message) (telegramId : Int),
    bot.unicode = u → i18n.Total → message.fromUser = some telegramId →
    ∀ command rest, splitWords1 (message.text.getD []) = command :: raw :: rest →
      AnswersText i18n (Handler.handleDownload bot i18n message)

section Handlers

variable {bot : Bot} {i18n : I18n} {message : Message} {raw : Str}

/-- The first call settles it, or what follows its answer does. -/
theorem answers_call {c : Call} {k : Except Exc (Resp c) → Job Unit}
    (h : ∀ r, EndsWait i18n ⟨c, r⟩ ∨ AnswersText i18n (k r)) : AnswersText i18n (.call c k) := by
  intro t r hruns
  cases hruns with
  | @call _ _ answer t _ hrest =>
    rcases h answer with hsettled | hanswers
    · exact ⟨_, List.mem_cons_self, hsettled⟩
    · obtain ⟨e, he, hsettles⟩ := hanswers t r hrest
      exact ⟨e, List.mem_cons_of_mem _ he, hsettles⟩

/-- Whoever has a text to answer with answers first, whatever comes then. -/
theorem answers_answerWith {text : Except Exc Str} (h : ∃ t, text = .ok t)
    (f : SentMessage → Job Unit) : AnswersText i18n (answerWith text >>= f) := by
  obtain ⟨t, rfl⟩ := h
  refine answers_call fun r => .inl ?_
  cases r with
  | ok sent => exact .answered t [] sent
  | error e => exact .telegram t [] e

/-- A limiter that answers lets the handler go on, one way or the other. -/
theorem answers_acquire {key : Str} {limit window : Int} {f : RateLimitResult → Job Unit}
    (h : ∀ verdict, AnswersText i18n (f verdict)) :
    AnswersText i18n (port (.acquire key limit window) >>= f) := by
  refine answers_call fun r => ?_
  cases r with
  | ok verdict => exact .inr (h verdict)
  | error e => exact .inl (.limiter key limit window e)

theorem formatRetryAfter_total (hi : i18n.Total) (seconds : Int) :
    ∃ text, formatRetryAfter i18n seconds = .ok text := by
  unfold formatRetryAfter
  split
  · exact hi.texts _ (by simp [textKeys]) _
  · exact hi.texts _ (by simp [textKeys]) _

theorem badUrl_total (hi : i18n.Total) (reason : Str) : ∃ text, badUrl i18n reason = .ok text :=
  hi.texts _ (by simp [textKeys]) _

theorem fetchPreview_answers (hi : i18n.Total) (url : Str) :
    AnswersText i18n (Handler.fetchPreview bot i18n url) :=
  answers_answerWith (hi.texts _ (by simp [textKeys]) _) _

theorem showPreview_answers (hi : i18n.Total)
    (h : RefusesCleanly raw (validateUrlAgainstAllowlist bot.unicode raw bot.settings.allowedDomains
      bot.settings.blockedDomains)) : AnswersText i18n (Handler.showPreview bot i18n message raw) := by
  unfold Handler.showPreview
  rcases h with hok | ⟨reason, herr⟩
  · simp only [hok]
    split
    · exact fetchPreview_answers hi _
    · refine answers_acquire fun verdict => ?_
      split
      · exact answers_answerWith (formatRetryAfter_total hi _) _
      · exact fetchPreview_answers hi _
  · simp only [herr]
    exact answers_answerWith (badUrl_total hi _) _

theorem handleDownload_answers (hi : i18n.Total) {telegramId : Int}
    (hid : message.fromUser = some telegramId) {command : Str} {rest : List Str}
    (ht : splitWords1 (message.text.getD []) = command :: raw :: rest)
    (h : RefusesCleanly (strip raw) (validateUrlAgainstAllowlist bot.unicode (strip raw)
      bot.settings.allowedDomains bot.settings.blockedDomains)) :
    AnswersText i18n (Handler.handleDownload bot i18n message) := by
  unfold Handler.handleDownload
  simp only [hid, ht]
  rcases h with hok | ⟨reason, herr⟩
  · simp only [hok]
    refine answers_acquire fun verdict => ?_
    split
    · exact answers_answerWith (formatRetryAfter_total hi _) _
    · exact answers_answerWith (hi.texts _ (by simp [textKeys]) _) _
  · simp only [herr]
    exact answers_answerWith (badUrl_total hi _) _

/-- What the extractor makes of a validated URL is shown, or its failure is. -/
theorem handlePreview_answers (hi : i18n.Total) {command : Str} {rest : List Str}
    (ht : splitWords1 (message.text.getD []) = command :: raw :: rest)
    (h : RefusesCleanly (strip raw) (validateUrl bot.unicode (strip raw))) :
    AnswersText i18n (Handler.handlePreview bot i18n message) := by
  unfold Handler.handlePreview previewDownload
  simp only [ht]
  rcases h with hok | ⟨reason, herr⟩
  · rw [hok]
    refine answers_call fun r => ?_
    cases r with
    | ok preview =>
      cases hcard : formatPreview i18n preview with
      | ok text => exact .inr (answers_answerWith ⟨text, hcard⟩ _)
      | error e => exact .inl (.unshown _ hcard)
    | error e =>
      cases hfailure : e.isDownloadFailure with
      | false => exact .inl (.extractor _ hfailure)
      | true =>
        refine .inr ?_
        change AnswersText i18n (if e.isDownloadFailure then _ else _)
        rw [if_pos hfailure]
        exact answers_answerWith (hi.errors e) _
  · rw [herr]
    exact answers_answerWith (hi.errors _) _

end Handlers

/-- Validation refuses with `UnsupportedURLError` alone, and so every text is
answered, exactly when the text is blank or its authority can be read. -/
theorem validation_clean_iff (u : Unicode) (raw : Str) :
    CleanlyValidated u raw ↔ strip raw = [] ∨ ReadableAuthority u (authority (strip raw)) := by
  constructor
  · intro h
    by_cases hnil : strip raw = []
    · exact .inl hnil
    · refine .inr ?_
      by_contra hbad
      have hraise := validateUrl_not_clean hnil hbad
      rcases h.structural with hok | ⟨reason, herr⟩
      · rw [hraise] at hok
        cases hok
      · rw [hraise] at herr
        cases herr
  · intro h
    have hallow := allowlist_clean (validateUrl_clean h) h
    have hstripped : strip (strip raw) = [] ∨
        ReadableAuthority u (authority (strip (strip raw))) := by
      rwa [strip_strip]
    have hallow' := allowlist_clean (validateUrl_clean hstripped) hstripped
    refine ⟨validateUrl_clean h, hallow, ?_, ?_, ?_⟩
    · rintro bot i18n message rfl hi
      exact showPreview_answers hi (hallow _ _)
    · rintro bot i18n message rfl hi command rest ht
      exact handlePreview_answers hi ht (validateUrl_clean hstripped)
    · rintro bot i18n message telegramId rfl hi hid command rest ht
      exact handleDownload_answers hi hid ht (hallow' _ _)

/-- `http://[`: one bracket, and a `ValueError`. -/
theorem validation_not_clean : ¬ ∀ (u : Unicode) (raw : Str), CleanlyValidated u raw := by
  intro hall
  have hclean := (hall ⟨asciiLower, id⟩ (str "http://[")).structural
  have hraise : validateUrl ⟨asciiLower, id⟩ (str "http://[") = .error Exc.valueError := by rfl
  rcases hclean with hok | ⟨reason, herr⟩
  · rw [hraise] at hok
    cases hok
  · rw [hraise] at herr
    cases herr

end MediaDownloader
