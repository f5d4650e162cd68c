import MediaDownloader.Application.FormatPolicy
import MediaDownloader.Application.Ports
import MediaDownloader.Telegram.Formatting

/-!
# Keyboards

The inline buttons and their callback data.  Labels are localized, the data is
not.

* `parseConfirmCallback_confirmCallbackData`: a confirm button is read back as
  what it was rendered for, whatever the token;
* `Offer.rows`: what each keyboard is to say and do, button by button;
* `previewConfirmKeyboard_renders` and the like: the keyboards say and do that.
-/

namespace MediaDownloader

open Interaction

def cbFlowDownload : Str := str "flow:download"
def cbFlowHelp : Str := str "flow:help"
def cbConfirmPrefix : Str := str "dl:"
def cbCancelPrefix : Str := str "cancel:"
def cbQualityPrefix : Str := str "q:"
def cbBackPrefix : Str := str "back:"
def cbLangPrefix : Str := str "lang:"

def fmtCodeVideo : Str := str "v"
def fmtCodeAudio : Str := str "a"

/-- `_TIER_TO_CODE`. -/
def tierCode (tier : VideoTier) : Str :=
  fmtCodeVideo ++
    match tier.shortSide with
    | some side => intStr side
    | none => str "best"

/-- `_VIDEO_CODES`. -/
def videoCodes : List (Str × VideoTier) :=
  [VideoTier.p720, .p1080, .best].map fun t => (tierCode t, t)

def confirmCallbackData (token : Str) : DownloadSpec → Str
  | .audio => cbConfirmPrefix ++ token ++ str ":" ++ fmtCodeAudio
  | .video tier => cbConfirmPrefix ++ token ++ str ":" ++ tierCode tier

/-- Anything unrecognized degrades to the default spec. -/
def parseConfirmCallback (data : Str) : Str × DownloadSpec :=
  let body := data.drop cbConfirmPrefix.length
  match rpartition 58 body with
  | (_, false, _) => (body, defaultDownloadSpec)
  | (token, true, code) =>
    if code = fmtCodeAudio then (token, .audio)
    else
      match dictGet code videoCodes with
      | some tier => (token, .video tier)
      | none => (token, defaultDownloadSpec)

def tierLabel (i18n : I18n) (bestShortSide : Option Int) : VideoTier → Except Exc Str
  | .p720 => i18n.get "btn-quality-720" []
  | .p1080 => i18n.get "btn-quality-1080" []
  | .best => i18n.get "btn-quality-best"
      [(str "height", .text (match bestShortSide with
        | none => []
        | some side => if side = 0 then [] else intStr side))]

def previewConfirmKeyboard (i18n : I18n) (token : Str) (choices : OfferedChoices) :
    Except Exc Keyboard := do
  let video ←
    if choices.video then do
      let label ← i18n.get "btn-confirm-video" []
      pure [(label, if choices.hasQualityStep then cbQualityPrefix ++ token
        else confirmCallbackData token directVideoSpec)]
    else pure []
  let audio ←
    if choices.audio then do
      let label ← i18n.get "btn-confirm-audio" []
      pure [(label, confirmCallbackData token .audio)]
    else pure []
  let label ← i18n.get "btn-cancel" []
  let actions := video ++ audio
  let cancel := [(label, cbCancelPrefix ++ token)]
  pure (if actions.isEmpty then [cancel] else [actions, cancel])

def qualityPickerKeyboard (i18n : I18n) (token : Str) (tiers : List VideoTier)
    (bestShortSide : Option Int) : Except Exc Keyboard := do
  let row ← tiers.mapM fun tier => do
    let label ← tierLabel i18n bestShortSide tier
    pure (label, confirmCallbackData token (.video tier))
  let back ← i18n.get "btn-back" []
  pure [row, [(back, cbBackPrefix ++ token)]]

/-- The persistent reply keyboard: texts only. -/
def mainMenuKeyboard (i18n : I18n) : Except Exc Keyboard := do
  let download ← i18n.get "btn-download" []
  let help ← i18n.get "btn-help" []
  let _ ← i18n.get "flow-placeholder" []
  pure [[(download, []), (help, [])]]

def languagePickerKeyboard (i18n : I18n) : Except Exc Keyboard := do
  let ru ← i18n.get "btn-lang-ru" []
  let en ← i18n.get "btn-lang-en" []
  pure [[(ru, cbLangPrefix ++ str "ru"), (en, cbLangPrefix ++ str "en")]]

/-! ## STEP 1 -/

/-- What the video button of STEP 1 carries. -/
def videoPayload (token : Str) (choices : OfferedChoices) : Str :=
  if choices.hasQualityStep then cbQualityPrefix ++ token
  else confirmCallbackData token directVideoSpec

/-- One button, if it is offered. -/
def offeredButton (i18n : I18n) (offered : Bool) (key : String) (data : Str) :
    Except Exc (List (Str × Str)) :=
  if offered then i18n.get key [] >>= fun label => pure [(label, data)] else pure []

/-- STEP 1, button by button. -/
theorem previewConfirmKeyboard_eq {i18n : I18n} {token : Str} {choices : OfferedChoices} :
    previewConfirmKeyboard i18n token choices =
    offeredButton i18n choices.video "btn-confirm-video" (videoPayload token choices) >>= fun video =>
      offeredButton i18n choices.audio "btn-confirm-audio" (confirmCallbackData token .audio) >>=
        fun audio => i18n.get "btn-cancel" [] >>= fun label =>
          pure (if (video ++ audio).isEmpty then [[(label, cbCancelPrefix ++ token)]]
            else [video ++ audio, [(label, cbCancelPrefix ++ token)]]) := by
  obtain ⟨video, audio, tiers⟩ := choices
  unfold previewConfirmKeyboard offeredButton
  cases video with
  | true =>
    cases i18n.get "btn-confirm-video" [] with
    | error e => rfl
    | ok label =>
      cases audio with
      | true => cases i18n.get "btn-confirm-audio" [] <;> rfl
      | false => rfl
  | false =>
    cases audio with
    | true => cases i18n.get "btn-confirm-audio" [] <;> rfl
    | false => rfl

/-! ## What a keyboard offers -/

/-- What an inline button is for. -/
inductive ButtonAction where
  | language (locale : Str)
  | picker (token : Str)
  | back (token : Str)
  | confirm (token : Str) (spec : DownloadSpec)
  | cancel (token : Str)
  deriving DecidableEq

def ButtonAction.data : ButtonAction → Str
  | language locale => cbLangPrefix ++ locale
  | picker token => cbQualityPrefix ++ token
  | back token => cbBackPrefix ++ token
  | confirm token spec => confirmCallbackData token spec
  | cancel token => cbCancelPrefix ++ token

/-- What a button says and what it is for; a reply button only says something. -/
structure ButtonMeaning where
  key : String
  args : List (Str × TextArg)
  action : Option ButtonAction

/-- A keyboard to be shown. -/
inductive Offer where
  | nothing
  | menu
  | languages
  | card (token : Str) (choices : OfferedChoices)
  | qualities (token : Str) (tiers : List VideoTier) (bestShortSide : Option Int)

/-- The quality that a button of the picker names. -/
def tierMeaning (token : Str) (bestShortSide : Option Int) : VideoTier → ButtonMeaning
  | .p720 => ⟨"btn-quality-720", [], some (.confirm token (.video .p720))⟩
  | .p1080 => ⟨"btn-quality-1080", [], some (.confirm token (.video .p1080))⟩
  | .best => ⟨"btn-quality-best",
      [(str "height", .text (((bestShortSide.filter (· ≠ 0)).map intStr).getD []))],
      some (.confirm token (.video .best))⟩

/-- Its buttons, row by row. -/
def Offer.rows : Offer → List (List ButtonMeaning)
  | nothing => []
  | menu => [[⟨"btn-download", [], none⟩, ⟨"btn-help", [], none⟩]]
  | languages => [[⟨"btn-lang-ru", [], some (.language (str "ru"))⟩,
      ⟨"btn-lang-en", [], some (.language (str "en"))⟩]]
  | card token choices =>
    let video := if choices.video then [⟨"btn-confirm-video", [], some
      (if choices.hasQualityStep then .picker token else .confirm token (.video .best))⟩] else []
    let audio := if choices.audio then
      [⟨"btn-confirm-audio", [], some (.confirm token .audio)⟩] else []
    let cancel := [⟨"btn-cancel", [], some (.cancel token)⟩]
    if choices.video || choices.audio then [video ++ audio, cancel] else [cancel]
  | qualities token tiers bestShortSide =>
    [tiers.map (tierMeaning token bestShortSide), [⟨"btn-back", [], some (.back token)⟩]]

/-- A button that says and carries what it means. -/
structure ButtonMeaning.Renders (i18n : I18n) (meaning : ButtonMeaning) (button : Str × Str) :
    Prop where
  label : i18n.get meaning.key meaning.args = .ok button.1
  data : button.2 = (meaning.action.map ButtonAction.data).getD []

/-- A keyboard whose buttons are those of the offer. -/
def Offer.Renders (i18n : I18n) (offer : Offer) (keyboard : Keyboard) : Prop :=
  List.Forall₂ (List.Forall₂ (ButtonMeaning.Renders i18n)) offer.rows keyboard

section Renders

variable {i18n : I18n} {keyboard : Keyboard}

theorem mainMenuKeyboard_renders (h : mainMenuKeyboard i18n = .ok keyboard) :
    Offer.menu.Renders i18n keyboard := by
  obtain ⟨download, hdownload, h⟩ := bind_eq_ok.mp h
  obtain ⟨help, hhelp, h⟩ := bind_eq_ok.mp h
  obtain ⟨_, -, h⟩ := bind_eq_ok.mp h
  cases h
  exact .cons (.cons ⟨hdownload, rfl⟩ (.cons ⟨hhelp, rfl⟩ .nil)) .nil

theorem languagePickerKeyboard_renders (h : languagePickerKeyboard i18n = .ok keyboard) :
    Offer.languages.Renders i18n keyboard := by
  obtain ⟨ru, hru, h⟩ := bind_eq_ok.mp h
  obtain ⟨en, hen, h⟩ := bind_eq_ok.mp h
  cases h
  exact .cons (.cons ⟨hru, rfl⟩ (.cons ⟨hen, rfl⟩ .nil)) .nil

theorem offeredButton_renders {offered : Bool} {key : String} {data : Str} {action : ButtonAction}
    {buttons : List (Str × Str)} (hdata : data = action.data)
    (h : offeredButton i18n offered key data = .ok buttons) :
    List.Forall₂ (ButtonMeaning.Renders i18n) (if offered then [⟨key, [], some action⟩] else [])
      buttons := by
  cases offered with
  | false =>
    cases h
    exact .nil
  | true =>
    obtain ⟨label, hlabel, h⟩ := bind_eq_ok.mp h
    cases h
    exact .cons ⟨hlabel, hdata⟩ .nil

theorem previewConfirmKeyboard_renders {token : Str} {choices : OfferedChoices}
    (h : previewConfirmKeyboard i18n token choices = .ok keyboard) :
    (Offer.card token choices).Renders i18n keyboard := by
  have hvideo : videoPayload token choices = (if choices.hasQualityStep then .picker token
      else .confirm token (.video .best) : ButtonAction).data := by
    unfold videoPayload
    split <;> rfl
  rw [previewConfirmKeyboard_eq] at h
  obtain ⟨mp4, hmp4, h⟩ := bind_eq_ok.mp h
  obtain ⟨mp3, hmp3, h⟩ := bind_eq_ok.mp h
  obtain ⟨label, hlabel, h⟩ := bind_eq_ok.mp h
  cases h
  have hv := offeredButton_renders hvideo hmp4
  have ha := offeredButton_renders (rfl : _ = (ButtonAction.confirm token .audio).data) hmp3
  have hcancel : List.Forall₂ (ButtonMeaning.Renders i18n)
      [⟨"btn-cancel", [], some (.cancel token)⟩] [(label, cbCancelPrefix ++ token)] :=
    .cons ⟨hlabel, rfl⟩ .nil
  obtain ⟨video, audio, tiers⟩ := choices
  cases video with
  | false =>
    cases hv
    cases audio with
    | false =>
      cases ha
      exact .cons hcancel .nil
    | true =>
      cases ha with
      | cons haudio hnone =>
        cases hnone
        exact .cons (.cons haudio .nil) (.cons hcancel .nil)
  | true =>
    cases hv with
    | cons hfirst hnone =>
      cases hnone
      cases audio with
      | false =>
        cases ha
        exact .cons (.cons hfirst .nil) (.cons hcancel .nil)
      | true =>
        cases ha with
        | cons haudio hnone =>
          cases hnone
          exact .cons (.cons hfirst (.cons haudio .nil)) (.cons hcancel .nil)

/-- The tier's own label, and its own download. -/
theorem tierMeaning_renders {token : Str} {bestShortSide : Option Int} {tier : VideoTier}
    {label : Str} (h : tierLabel i18n bestShortSide tier = .ok label) :
    (tierMeaning token bestShortSide tier).Renders i18n
      (label, confirmCallbackData token (.video tier)) := by
  cases tier with
  | p720 => exact ⟨h, rfl⟩
  | p1080 => exact ⟨h, rfl⟩
  | best =>
    refine ⟨?_, rfl⟩
    rw [← h]
    cases bestShortSide with
    | none => rfl
    | some side =>
      by_cases hside : side = 0
      · simp [tierMeaning, tierLabel, hside, Option.filter]
      · simp [tierMeaning, tierLabel, hside, Option.filter]

theorem tierRow_renders {token : Str} {bestShortSide : Option Int} {tiers : List VideoTier}
    {row : List (Str × Str)} (h : (tiers.mapM fun tier => do
      let label ← tierLabel i18n bestShortSide tier
      pure (label, confirmCallbackData token (.video tier)) : Except Exc _) = .ok row) :
    List.Forall₂ (ButtonMeaning.Renders i18n) (tiers.map (tierMeaning token bestShortSide)) row := by
  induction tiers generalizing row with
  | nil =>
    cases h
    exact .nil
  | cons tier tiers ih =>
    rw [List.mapM_cons] at h
    obtain ⟨button, hb, h⟩ := bind_eq_ok.mp h
    obtain ⟨rest, hr, h⟩ := bind_eq_ok.mp h
    obtain ⟨label, hlabel, hb⟩ := bind_eq_ok.mp hb
    cases hb
    cases h
    exact .cons (tierMeaning_renders hlabel) (ih hr)

theorem qualityPickerKeyboard_renders {token : Str} {tiers : List VideoTier}
    {bestShortSide : Option Int}
    (h : qualityPickerKeyboard i18n token tiers bestShortSide = .ok keyboard) :
    (Offer.qualities token tiers bestShortSide).Renders i18n keyboard := by
  obtain ⟨row, hrow, h⟩ := bind_eq_ok.mp h
  obtain ⟨back, hback, h⟩ := bind_eq_ok.mp h
  cases h
  exact .cons (tierRow_renders hrow) (.cons (.cons ⟨hback, rfl⟩ .nil) .nil)

end Renders

/-! ## Round trip -/

theorem takeWhile_append_cons {p : Nat → Bool} {s t : Str} {c : Nat} (hs : ∀ x ∈ s, p x = true)
    (hc : p c = false) : (s ++ c :: t).takeWhile p = s := by
  rw [List.takeWhile_append_of_pos hs, List.takeWhile_cons, hc]
  simp

theorem dropWhile_append_cons {p : Nat → Bool} {s t : Str} {c : Nat} (hs : ∀ x ∈ s, p x = true)
    (hc : p c = false) : (s ++ c :: t).dropWhile p = c :: t := by
  rw [List.dropWhile_append_of_pos hs, List.dropWhile_cons, hc]
  simp

/-- `rpartition` cuts at the separator before a part that has none. -/
theorem rpartition_append (c : Nat) (s t : Str) (h : c ∉ t) :
    rpartition c (s ++ c :: t) = (s, true, t) := by
  have ht : ∀ x ∈ t.reverse, decide (x ≠ c) = true := by
    intro x hx
    simp only [decide_eq_true_eq]
    rintro rfl
    exact h (List.mem_reverse.mp hx)
  have hrev : (s ++ c :: t).reverse = t.reverse ++ c :: s.reverse := by simp
  unfold rpartition
  rw [hrev, takeWhile_append_cons ht (by simp), dropWhile_append_cons ht (by simp)]
  simp

theorem tierCode_plain (tier : VideoTier) : 58 ∉ tierCode tier := by
  cases tier <;> decide

theorem dictGet_tierCode (tier : VideoTier) :
    tierCode tier ≠ fmtCodeAudio ∧ dictGet (tierCode tier) videoCodes = some tier := by
  cases tier <;> decide

/-- A confirm button means what it was rendered for. -/
theorem parseConfirmCallback_confirmCallbackData (token : Str) (spec : DownloadSpec) :
    parseConfirmCallback (confirmCallbackData token spec) = (token, spec) := by
  have hbody (code : Str) : (cbConfirmPrefix ++ token ++ str ":" ++ code).drop
      cbConfirmPrefix.length = token ++ 58 :: code := by
    rw [List.append_assoc, List.append_assoc, List.drop_left]
    rfl
  cases spec with
  | audio =>
    simp only [parseConfirmCallback, confirmCallbackData, hbody]
    rw [rpartition_append 58 token fmtCodeAudio (by decide)]
    simp
  | video tier =>
    simp only [parseConfirmCallback, confirmCallbackData, hbody]
    rw [rpartition_append 58 token (tierCode tier) (tierCode_plain tier)]
    simp [dictGet_tierCode tier]

example : parseConfirmCallback (str "dl:abc") = (str "abc", defaultDownloadSpec) := by decide

end MediaDownloader
