import MediaDownloader.Application.RequestDownload
import MediaDownloader.Infrastructure.DownloadRequestRepository

/-!
# The columns of download_requests

PostgreSQL takes a text only up to the length of its `VARCHAR`, and without
`NUL`.

* `fromEntity_fits`: of a new request's row only the URL can fail to fit;
* `storable_iff`: so an accepted URL can be stored exactly when it fits;
* `long_url_not_storable`: a URL of 2062 characters.
-/

namespace MediaDownloader

open Interaction

/-- A `VARCHAR(n)` column takes the text. -/
def fitsVarchar (n : Nat) (s : Str) : Bool := s.length ≤ n && !decide (0 ∈ s)

/-- The `String(n)` columns of `DownloadRequestModel`. -/
def Row.fits (row : Row) : Bool :=
  fitsVarchar 2048 row.sourceUrl && fitsVarchar 20 row.mediaType && fitsVarchar 20 row.status &&
    fitsVarchar 20 row.formatKind && row.videoTier.all (fitsVarchar 10)

theorem MediaType.value_fits (m : MediaType) : fitsVarchar 20 m.value = true := by
  cases m <;> decide

theorem DownloadStatus.value_fits (s : DownloadStatus) : fitsVarchar 20 s.value = true := by
  cases s <;> decide

theorem FormatKind.value_fits (k : FormatKind) : fitsVarchar 20 k.value = true := by
  cases k <;> decide

theorem specVideoTier_fits (spec : DownloadSpec) :
    ((specVideoTier spec).map VideoTier.value).all (fitsVarchar 10) = true := by
  cases spec with
  | video tier => cases tier <;> decide
  | audio => decide

/-- Whatever the code itself writes fits. -/
theorem fromEntity_fits (request : DownloadRequest) (now : Time) :
    (Row.fromEntity request now).fits = fitsVarchar 2048 request.sourceUrl := by
  simp only [Row.fits, Row.fromEntity, MediaType.value_fits, DownloadStatus.value_fits,
    FormatKind.value_fits, specVideoTier_fits, Bool.and_true]

namespace RequestDownload

section Storing

variable (u : Unicode) (policy : FormatPolicy) (telegramId : Int) (url : Str)
  (spec : DownloadSpec) (extractorKey : Str) (chatId messageId : Int)

/-- Every row that `execute` has inserted fits, and a URL that does not fit is
refused before the first call. -/
structure Storable : Prop where
  fits : ∀ t request k,
    Steps (execute u policy telegramId url spec extractorKey chatId messageId) t
      (.call (.create request) k) → ∀ now, (Row.fromEntity request now).fits = true
  refused : fitsVarchar 2048 (strip url) = false → ∃ reason,
    execute u policy telegramId url spec extractorKey chatId messageId =
      Act.raise (.unsupportedURL reason)

variable {u policy telegramId url spec extractorKey chatId messageId}

theorem created_url {t : Trace} {request : DownloadRequest}
    {k : Except Exc Unit → Program (Except Exc DownloadRequest)}
    (h : Steps (execute u policy telegramId url spec extractorKey chatId messageId) t
      (.call (.create request) k)) : request.sourceUrl = strip url :=
  validateUrl_ok (historyMonitor_allow
    (wp_execute u policy telegramId url spec extractorKey chatId messageId) h
    fun _ _ => trivial).1

variable (telegramId chatId messageId) in
/-- For a known user, the third call inserts the request. -/
theorem create_reached {validatedUrl : Str} (hv : validateUrl u url = .ok validatedUrl)
    (hs : policy.isAllowed u extractorKey spec = true) (user : User) (id : UUID) (now : Time) :
    ∃ k, Steps (execute u policy telegramId url spec extractorKey chatId messageId)
      [⟨.userGetByTelegramId telegramId, .ok (some user)⟩, ⟨.uuid4, .ok id⟩, ⟨.utcnow, .ok now⟩]
      (.call (.create (DownloadRequest.create id now user.id validatedUrl spec)) k) := by
  unfold execute
  simp only [hv, hs]
  exact ⟨_, .call (.call (.call (.done _)))⟩

end Storing

/-- An accepted URL, with an allowed spec, can be stored exactly when it has at
most 2048 characters and no `NUL`. -/
theorem storable_iff (u : Unicode) (policy : FormatPolicy) (telegramId : Int) (url : Str)
    (spec : DownloadSpec) (extractorKey : Str) (chatId messageId : Int) {validatedUrl : Str}
    (hv : validateUrl u url = .ok validatedUrl)
    (hs : policy.isAllowed u extractorKey spec = true) :
    Storable u policy telegramId url spec extractorKey chatId messageId ↔
      (strip url).length ≤ 2048 ∧ 0 ∉ strip url := by
  have hfits : fitsVarchar 2048 (strip url) = true ↔
      (strip url).length ≤ 2048 ∧ 0 ∉ strip url := by
    simp [fitsVarchar]
  rw [← hfits]
  constructor
  · intro h
    obtain ⟨k, hk⟩ := create_reached telegramId chatId messageId hv hs
      (User.createFromTelegram 0 0 telegramId none) 0 0
    have hrow := h.fits _ _ _ hk 0
    rw [fromEntity_fits, created_url hk] at hrow
    exact hrow
  · intro h
    refine ⟨fun t request k hk now => ?_, fun hno => ?_⟩
    · rw [fromEntity_fits, created_url hk]
      exact h
    · rw [h] at hno
      cases hno

/-- A pasted link of ordinary length. -/
theorem storable_iff_pasted :
    Storable ⟨asciiLower, id⟩ ⟨[]⟩ 77 (str " https://a.com/v ") .audio (str "yt") 5 6 := by
  have hv : validateUrl ⟨asciiLower, id⟩ (str " https://a.com/v ") =
      .ok (str "https://a.com/v") := by rfl
  exact (storable_iff ⟨asciiLower, id⟩ ⟨[]⟩ 77 (str " https://a.com/v ") .audio (str "yt") 5 6 hv
    (by decide)).mpr (by decide)

/-- A link with a path of 2048 letters. -/
def longUrl : Str := str "https://a.com/" ++ List.replicate 2048 97

/-- It is accepted, and its row is more than the table can hold. -/
theorem long_url_not_storable : ¬ ∀ (u : Unicode) (policy : FormatPolicy) (telegramId : Int)
    (url : Str) (spec : DownloadSpec) (extractorKey : Str) (chatId messageId : Int),
    (∃ validatedUrl, validateUrl u url = .ok validatedUrl) →
    policy.isAllowed u extractorKey spec = true →
    Storable u policy telegramId url spec extractorKey chatId messageId := by
  intro hall
  have hok : (validateUrl ⟨asciiLower, id⟩ longUrl).isOk = true := by decide +kernel
  have hallowed : (⟨[]⟩ : FormatPolicy).isAllowed ⟨asciiLower, id⟩ (str "yt") .audio = true := by
    decide
  cases hv : validateUrl ⟨asciiLower, id⟩ longUrl with
  | error e =>
    rw [hv] at hok
    cases hok
  | ok validatedUrl =>
    have hstored := hall ⟨asciiLower, id⟩ ⟨[]⟩ 77 longUrl .audio (str "yt") 5 6 ⟨_, hv⟩ hallowed
    obtain ⟨k, hk⟩ := create_reached 77 5 6 hv hallowed
      (User.createFromTelegram 0 0 77 none) 0 0
    have hrow := hstored.fits _ _ _ hk 0
    rw [fromEntity_fits, created_url hk] at hrow
    revert hrow
    decide +kernel

end RequestDownload

end MediaDownloader
