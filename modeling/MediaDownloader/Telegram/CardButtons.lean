import MediaDownloader.Telegram.Handlers

/-!
# The buttons of a preview card

A card shows one keyboard at a time.  A tap on a quality or a back button goes
through the dispatcher, which reads the stored context and replaces the
keyboard; a tap on a confirm button asks for a download.

* `Shows.keyboard`: a card shows one of two keyboards, whatever is tapped;
* `tap_quality`, `tap_back`: what the handlers replace the keyboard by;
* `buttons_agree`: the confirm buttons that can be reached are exactly those
  that the policy lets through.
-/

namespace MediaDownloader

open Interaction

/-- The callback data on a keyboard, in reading order. -/
def payloads (keyboard : Keyboard) : List Str := keyboard.flatten.map Prod.snd

/-- A preview card, the context stored under its token, and who taps it. -/
structure Card where
  bot : Bot
  locale : Str
  token : Str
  context : PreviewContext
  fromUser : Int
  message : Message

namespace Card

def i18n (card : Card) : I18n := ⟨card.bot.core, card.locale⟩

def choices (card : Card) : OfferedChoices := Handler.choices card.bot card.context

def isAllowed (card : Card) (spec : DownloadSpec) : Bool :=
  card.bot.policy.isAllowed card.bot.unicode card.context.extractorKey spec

/-- STEP 1. -/
def confirmKeyboard (card : Card) : Except Exc Keyboard :=
  previewConfirmKeyboard card.i18n card.token card.choices

/-- STEP 2. -/
def qualityKeyboard (card : Card) : Except Exc Keyboard :=
  qualityPickerKeyboard card.i18n card.token card.choices.videoTiers
    card.context.maxCompatibleShortSide

/-- The chat the card is in: the store has its context, and Telegram replaces
the keyboard when told to. -/
def chat (card : Card) : Interaction.Handler Call Resp Exc Keyboard where
  answer _ c :=
    match c with
    | .redisGet key =>
      .ok (if key = PreviewContextStore.keyPrefix ++ card.token
        then some (PreviewContextStore.encode card.context) else none)
    | .editMarkup _ => .ok ()
    | .answerCallback _ _ => .ok ()
    | _ => .error (.other (str "TelegramAPIError"))
  next keyboard c r :=
    match c, r with
    | .editMarkup keyboard', .ok _ => keyboard'
    | _, _ => keyboard

/-- The keyboard after a tap on the button with `data`. -/
def tap (card : Card) (data : Str) (keyboard : Keyboard) : Keyboard :=
  (Prog.handle card.chat (card.bot.handleUpdate
    (.callback card.locale ⟨card.fromUser, some data, some card.message⟩)) keyboard).1

/-- A button that leads to another keyboard. -/
def isStep (data : Str) : Bool :=
  startsWith cbQualityPrefix data || startsWith cbBackPrefix data

/-- The keyboards that taps can bring up. -/
inductive Shows (card : Card) : Keyboard → Prop
  | first {keyboard : Keyboard} : card.confirmKeyboard = .ok keyboard → Shows card keyboard
  | tapped {keyboard : Keyboard} {data : Str} : Shows card keyboard → data ∈ payloads keyboard →
      isStep data = true → Shows card (card.tap data keyboard)

/-- A confirm button for `spec` that taps can reach. -/
def Reaches (card : Card) (spec : DownloadSpec) : Prop :=
  ∃ keyboard data, card.Shows keyboard ∧ data ∈ payloads keyboard ∧
    startsWith cbConfirmPrefix data = true ∧ parseConfirmCallback data = (card.token, spec)

/-- The specs that the video button of STEP 1 leads to: its own, or those of the
keyboard it opens. -/
def VideoLeadsTo (card : Card) (spec : DownloadSpec) : Prop :=
  ∃ keyboard, card.confirmKeyboard = .ok keyboard ∧
    (confirmCallbackData card.token spec ∈ payloads keyboard ∧ specKind spec = .video ∨
      cbQualityPrefix ++ card.token ∈ payloads keyboard ∧
        confirmCallbackData card.token spec ∈
          payloads (card.tap (cbQualityPrefix ++ card.token) keyboard))

/-- The labels of the two keyboards can be rendered. -/
def Labelled (card : Card) : Prop :=
  ∀ key ∈ ["btn-confirm-video", "btn-confirm-audio", "btn-cancel", "btn-quality-720",
    "btn-quality-1080", "btn-quality-best", "btn-back"],
    ∀ args, ∃ text, card.i18n.get key args = .ok text

end Card

/-! ## What the keyboards carry -/

section Payloads

variable {i18n : I18n} {token : Str} {choices : OfferedChoices} {keyboard : Keyboard}

theorem offeredButton_payload {offered : Bool} {key : String} {data : Str}
    {buttons : List (Str × Str)} (h : offeredButton i18n offered key data = .ok buttons) :
    buttons.map Prod.snd = if offered then [data] else [] := by
  unfold offeredButton at h
  cases offered with
  | true =>
    obtain ⟨label, -, hb⟩ := bind_eq_ok.mp h
    cases hb
    rfl
  | false =>
    cases h
    rfl

theorem confirm_payloads (h : previewConfirmKeyboard i18n token choices = .ok keyboard) :
    payloads keyboard = (if choices.video then [videoPayload token choices] else []) ++
      (if choices.audio then [confirmCallbackData token .audio] else []) ++
      [cbCancelPrefix ++ token] := by
  rw [previewConfirmKeyboard_eq] at h
  obtain ⟨video, hv, h⟩ := bind_eq_ok.mp h
  obtain ⟨audio, ha, h⟩ := bind_eq_ok.mp h
  obtain ⟨label, -, h⟩ := bind_eq_ok.mp h
  cases h
  rw [← offeredButton_payload hv, ← offeredButton_payload ha, ← List.map_append]
  unfold payloads
  by_cases he : (video ++ audio).isEmpty = true
  · simp only [he, if_true]
    rw [List.isEmpty_iff.mp he]
    rfl
  · simp [he]

theorem mapM_payloads {tiers : List VideoTier} {bestShortSide : Option Int}
    {row : List (Str × Str)} (h : (tiers.mapM fun tier => do
      let label ← tierLabel i18n bestShortSide tier
      pure (label, confirmCallbackData token (.video tier)) : Except Exc _) = .ok row) :
    row.map Prod.snd = tiers.map fun tier => confirmCallbackData token (.video tier) := by
  induction tiers generalizing row with
  | nil =>
    cases h
    rfl
  | cons tier tiers ih =>
    rw [List.mapM_cons] at h
    obtain ⟨button, hb, h⟩ := bind_eq_ok.mp h
    obtain ⟨rest, hr, h⟩ := bind_eq_ok.mp h
    obtain ⟨label, -, hb⟩ := bind_eq_ok.mp hb
    cases hb
    cases h
    rw [List.map_cons, List.map_cons, ih hr]

theorem quality_payloads {tiers : List VideoTier} {bestShortSide : Option Int}
    (h : qualityPickerKeyboard i18n token tiers bestShortSide = .ok keyboard) :
    payloads keyboard = tiers.map (fun tier => confirmCallbackData token (.video tier)) ++
      [cbBackPrefix ++ token] := by
  obtain ⟨row, hrow, h⟩ := bind_eq_ok.mp h
  obtain ⟨back, -, h⟩ := bind_eq_ok.mp h
  cases h
  rw [← mapM_payloads hrow]
  simp [payloads]

end Payloads

/-! ## Taps -/

namespace Card

variable (card : Card)

/-- The dispatcher finds the handler of a quality button. -/
theorem handleUpdate_quality : card.bot.handleUpdate
      (.callback card.locale ⟨card.fromUser, some (cbQualityPrefix ++ card.token), some card.message⟩) =
    Handler.handleOpenQualityPicker card.bot card.i18n
      ⟨card.fromUser, some (cbQualityPrefix ++ card.token), some card.message⟩ := by
  rfl

theorem handleUpdate_back : card.bot.handleUpdate
      (.callback card.locale ⟨card.fromUser, some (cbBackPrefix ++ card.token), some card.message⟩) =
    Handler.handleBackToFormat card.bot card.i18n
      ⟨card.fromUser, some (cbBackPrefix ++ card.token), some card.message⟩ := by
  rfl

/-- The stored context is read. -/
theorem handle_withContext (act : PreviewContext → Job Unit) (keyboard : Keyboard) :
    Prog.handle card.chat (Handler.withContext card.i18n card.token act) keyboard =
      Prog.handle card.chat (act card.context) keyboard := by
  simp [Handler.withContext, PreviewContextStore.get, chat, PreviewContextStore.decode_encode]

/-- The keyboard is replaced, if the new one can be rendered. -/
theorem handle_replace (markup : Except Exc Keyboard) (keyboard : Keyboard) :
    (Prog.handle card.chat (do
      onMessage (some card.message) fun _ => do
        let markup ← Act.lift markup
        port (.editMarkup markup)
      port (.answerCallback none false) : Job Unit) keyboard).1 = markup.toOption.getD keyboard := by
  cases markup with
  | ok keyboard' => rfl
  | error e => rfl

theorem tap_quality (keyboard : Keyboard) :
    card.tap (cbQualityPrefix ++ card.token) keyboard =
      (if card.choices.hasQualityStep then card.qualityKeyboard
        else card.confirmKeyboard).toOption.getD keyboard := by
  unfold tap
  rw [handleUpdate_quality]
  unfold Handler.handleOpenQualityPicker
  rw [Option.getD_some, List.drop_left, handle_withContext]
  exact card.handle_replace _ keyboard

theorem tap_back (keyboard : Keyboard) :
    card.tap (cbBackPrefix ++ card.token) keyboard =
      card.confirmKeyboard.toOption.getD keyboard := by
  unfold tap
  rw [handleUpdate_back]
  unfold Handler.handleBackToFormat
  rw [Option.getD_some, List.drop_left, handle_withContext]
  exact card.handle_replace _ keyboard

/-! ## What the policy offers -/

theorem choices_video (tier : VideoTier) : card.choices.video = card.isAllowed (.video tier) := by
  rw [choices, Handler.choices, FormatPolicy.offeredChoices_video]
  rfl

theorem choices_audio : card.choices.audio = card.isAllowed .audio := by
  rw [choices, Handler.choices, FormatPolicy.offeredChoices_audio]
  rfl

theorem choices_videoTiers : card.choices.videoTiers =
    if card.choices.video then tiersFor card.context.maxCompatibleShortSide else [] :=
  FormatPolicy.offeredChoices_videoTiers _ _ _ _

theorem choices_tiers (h : card.choices.video = true) :
    card.choices.videoTiers = tiersFor card.context.maxCompatibleShortSide := by
  rw [choices_videoTiers, if_pos h]

/-- A quality step belongs to a video that is offered. -/
theorem video_of_step (h : card.choices.hasQualityStep = true) : card.choices.video = true := by
  rw [OfferedChoices.hasQualityStep, choices_videoTiers] at h
  by_contra hvideo
  rw [if_neg hvideo] at h
  cases h

theorem p720_mem_tiersFor {side : Option Int} (h : (tiersFor side).isEmpty = false) :
    .p720 ∈ tiersFor side := by
  unfold tiersFor at h ⊢
  cases side with
  | none => cases h
  | some side =>
    simp only at h ⊢
    split
    · next hs =>
      rw [if_pos hs] at h
      cases h
    · split <;> exact List.mem_cons_self

/-! ## The keyboards of a card -/

/-- One of the two keyboards; the second one only when there is a quality step. -/
def IsKeyboard (keyboard : Keyboard) : Prop :=
  card.confirmKeyboard = .ok keyboard ∨
    (card.choices.hasQualityStep = true ∧ card.qualityKeyboard = .ok keyboard)

theorem isStep_confirm (token : Str) (spec : DownloadSpec) :
    isStep (confirmCallbackData token spec) = false := by
  cases spec with
  | audio => rfl
  | video tier => rfl

variable {card}

/-- What can be on a keyboard. -/
theorem IsKeyboard.payload {keyboard : Keyboard} (h : card.IsKeyboard keyboard) {data : Str}
    (hd : data ∈ payloads keyboard) :
    (data = confirmCallbackData card.token .audio ∧ card.choices.audio = true) ∨
      (∃ tier, data = confirmCallbackData card.token (.video tier) ∧ card.choices.video = true) ∨
      (data = cbQualityPrefix ++ card.token ∧ card.choices.hasQualityStep = true) ∨
      data = cbBackPrefix ++ card.token ∨ data = cbCancelPrefix ++ card.token := by
  rcases h with h | ⟨hstep, h⟩
  · rw [confirm_payloads h] at hd
    simp only [List.append_assoc, List.mem_append, List.mem_singleton, List.mem_ite_nil_right] at hd
    rcases hd with ⟨hv, rfl⟩ | ⟨ha, rfl⟩ | rfl
    · unfold videoPayload
      by_cases hstep : card.choices.hasQualityStep = true
      · rw [if_pos hstep]
        exact .inr (.inr (.inl ⟨rfl, hstep⟩))
      · rw [if_neg hstep]
        exact .inr (.inl ⟨.best, rfl, hv⟩)
    · exact .inl ⟨rfl, ha⟩
    · exact .inr (.inr (.inr (.inr rfl)))
  · rw [quality_payloads h] at hd
    simp only [List.mem_append, List.mem_map, List.mem_singleton] at hd
    rcases hd with ⟨tier, -, rfl⟩ | rfl
    · exact .inr (.inl ⟨tier, rfl, card.video_of_step hstep⟩)
    · exact .inr (.inr (.inr (.inl rfl)))

/-- Whatever is tapped, a card shows one of its two keyboards. -/
theorem Shows.keyboard {keyboard : Keyboard} (h : card.Shows keyboard) :
    card.IsKeyboard keyboard := by
  have replaced {markup : Except Exc Keyboard} {old : Keyboard} (hold : card.IsKeyboard old)
      (hnew : ∀ new, markup = .ok new → card.IsKeyboard new) :
      card.IsKeyboard (markup.toOption.getD old) := by
    cases markup with
    | error e => exact hold
    | ok new => exact hnew new rfl
  induction h with
  | first h => exact .inl h
  | @tapped old data _ hd hstep ih =>
    rcases ih.payload hd with ⟨rfl, -⟩ | ⟨tier, rfl, -⟩ | ⟨rfl, hq⟩ | rfl | rfl
    · rw [isStep_confirm] at hstep
      cases hstep
    · rw [isStep_confirm] at hstep
      cases hstep
    · rw [tap_quality, if_pos hq]
      exact replaced ih fun new hnew => .inr ⟨hq, hnew⟩
    · rw [tap_back]
      exact replaced ih fun new hnew => .inl hnew
    · cases hstep

/-- A confirm button is for a spec the policy lets through. -/
theorem IsKeyboard.confirm {keyboard : Keyboard} (h : card.IsKeyboard keyboard) {data : Str}
    (hd : data ∈ payloads keyboard) (hc : startsWith cbConfirmPrefix data = true) :
    ∃ spec, parseConfirmCallback data = (card.token, spec) ∧ card.isAllowed spec = true := by
  rcases h.payload hd with ⟨rfl, ha⟩ | ⟨tier, rfl, hv⟩ | ⟨rfl, -⟩ | rfl | rfl
  · exact ⟨.audio, parseConfirmCallback_confirmCallbackData _ _, card.choices_audio ▸ ha⟩
  · exact ⟨.video tier, parseConfirmCallback_confirmCallbackData _ _, card.choices_video tier ▸ hv⟩
  · cases hc
  · cases hc
  · cases hc

/-- A quality button is there only for a quality step. -/
theorem IsKeyboard.quality {keyboard : Keyboard} (h : card.IsKeyboard keyboard) {data : Str}
    (hd : data ∈ payloads keyboard) (hq : startsWith cbQualityPrefix data = true) :
    data = cbQualityPrefix ++ card.token ∧ card.choices.hasQualityStep = true := by
  rcases h.payload hd with ⟨rfl, -⟩ | ⟨tier, rfl, -⟩ | h | rfl | rfl
  · cases hq
  · cases hq
  · exact h
  · cases hq
  · cases hq

/-! ## Labels -/

theorem Labelled.confirm (h : card.Labelled) : ∃ keyboard, card.confirmKeyboard = .ok keyboard := by
  have offered (offered : Bool) {key : String} (data : Str)
      (hkey : ∃ text, card.i18n.get key [] = .ok text) :
      ∃ buttons, offeredButton card.i18n offered key data = .ok buttons := by
    obtain ⟨text, ht⟩ := hkey
    unfold offeredButton
    cases offered with
    | true => exact ⟨_, by rw [if_pos rfl, ht]; rfl⟩
    | false => exact ⟨_, rfl⟩
  obtain ⟨video, hv⟩ := offered card.choices.video (videoPayload card.token card.choices)
    (h "btn-confirm-video" (by simp) [])
  obtain ⟨audio, ha⟩ := offered card.choices.audio (confirmCallbackData card.token .audio)
    (h "btn-confirm-audio" (by simp) [])
  obtain ⟨label, hl⟩ := h "btn-cancel" (by simp) []
  unfold confirmKeyboard
  rw [previewConfirmKeyboard_eq, hv, ok_bind, ha, ok_bind, hl, ok_bind]
  exact ⟨_, rfl⟩

theorem Labelled.quality (h : card.Labelled) : ∃ keyboard, card.qualityKeyboard = .ok keyboard := by
  have tier (tier : VideoTier) : ∃ text,
      tierLabel card.i18n card.context.maxCompatibleShortSide tier = .ok text := by
    cases tier with
    | p720 => exact h "btn-quality-720" (by simp) _
    | p1080 => exact h "btn-quality-1080" (by simp) _
    | best => exact h "btn-quality-best" (by simp) _
  have row (tiers : List VideoTier) : ∃ row, (tiers.mapM fun tier => do
      let label ← tierLabel card.i18n card.context.maxCompatibleShortSide tier
      pure (label, confirmCallbackData card.token (.video tier)) : Except Exc _) = .ok row := by
    induction tiers with
    | nil => exact ⟨[], rfl⟩
    | cons t tiers ih =>
      obtain ⟨text, ht⟩ := tier t
      obtain ⟨row, hr⟩ := ih
      rw [List.mapM_cons, hr, ht]
      exact ⟨_, rfl⟩
  obtain ⟨row, hr⟩ := row card.choices.videoTiers
  obtain ⟨back, hb⟩ := h "btn-back" (by simp) []
  unfold qualityKeyboard qualityPickerKeyboard
  rw [hr, ok_bind, hb, ok_bind]
  exact ⟨_, rfl⟩

/-! ## Buttons and enforcement -/

theorem startsWith_confirm (token : Str) (spec : DownloadSpec) :
    startsWith cbConfirmPrefix (confirmCallbackData token spec) = true := by
  cases spec with
  | audio => rfl
  | video tier => rfl

/-- With a quality step, the quality button opens the keyboard with the tiers. -/
theorem opened_tiers {keyboard opened : Keyboard} (hstep : card.choices.hasQualityStep = true)
    (h : card.qualityKeyboard = .ok opened) {tier : VideoTier}
    (ht : tier ∈ card.choices.videoTiers) :
    confirmCallbackData card.token (.video tier) ∈
      payloads (card.tap (cbQualityPrefix ++ card.token) keyboard) := by
  rw [tap_quality, if_pos hstep, h]
  show _ ∈ payloads opened
  rw [quality_payloads h]
  exact List.mem_append_left _ (List.mem_map_of_mem ht)

/-- When video is allowed, the default of the commands is behind the video button. -/
theorem videoLeadsTo_default (h : card.Labelled) {preview : MediaPreview}
    (hside : preview.maxCompatibleShortSide = card.context.maxCompatibleShortSide)
    (hv : card.choices.video = true) :
    card.VideoLeadsTo (FormatPolicy.defaultVideoSpec preview) := by
  obtain ⟨keyboard, hk⟩ := h.confirm
  obtain ⟨opened, ho⟩ := h.quality
  have htiers := card.choices_tiers hv
  have hvideo : videoPayload card.token card.choices ∈ payloads keyboard := by
    rw [confirm_payloads hk, if_pos hv]
    simp
  refine ⟨keyboard, hk, ?_⟩
  unfold FormatPolicy.defaultVideoSpec
  rw [hside, ← htiers]
  by_cases hstep : card.choices.hasQualityStep = true
  · right
    have hnonempty : card.choices.videoTiers.isEmpty = false := by
      simpa [OfferedChoices.hasQualityStep] using hstep
    have hmem : VideoTier.p720 ∈ card.choices.videoTiers := by
      rw [htiers] at hnonempty ⊢
      exact p720_mem_tiersFor hnonempty
    rw [videoPayload, if_pos hstep] at hvideo
    rw [hnonempty]
    exact ⟨hvideo, opened_tiers hstep ho hmem⟩
  · left
    have hempty : card.choices.videoTiers.isEmpty = true := by
      simpa [OfferedChoices.hasQualityStep] using hstep
    rw [videoPayload, if_neg hstep] at hvideo
    rw [hempty]
    exact ⟨hvideo, rfl⟩

/-- What the video button leads to can be reached by taps. -/
theorem VideoLeadsTo.reaches {spec : DownloadSpec} (h : card.VideoLeadsTo spec) :
    card.Reaches spec := by
  obtain ⟨keyboard, hk, ⟨hd, -⟩ | ⟨hq, hd⟩⟩ := h
  · exact ⟨keyboard, _, .first hk, hd, startsWith_confirm _ _,
      parseConfirmCallback_confirmCallbackData _ _⟩
  · exact ⟨_, _, .tapped (.first hk) hq rfl, hd, startsWith_confirm _ _,
      parseConfirmCallback_confirmCallbackData _ _⟩

/-- A reachable confirm button is for an allowed kind. -/
theorem Reaches.allowed {spec : DownloadSpec} (h : card.Reaches spec) :
    card.isAllowed spec = true := by
  obtain ⟨keyboard, data, hs, hd, hc, hp⟩ := h
  obtain ⟨spec', hp', ha⟩ := hs.keyboard.confirm hd hc
  rw [hp] at hp'
  cases hp'
  exact ha

/-- The policy decides by the kind alone. -/
theorem isAllowed_kind {spec spec' : DownloadSpec} (h : specKind spec = specKind spec') :
    card.isAllowed spec = card.isAllowed spec' := by
  unfold isAllowed FormatPolicy.isAllowed
  rw [h]

/-- Taps reach a confirm button of every allowed kind. -/
theorem reaches_kind (h : card.Labelled) {kind : FormatKind}
    (ha : ∀ spec, specKind spec = kind → card.isAllowed spec = true) :
    ∃ spec, specKind spec = kind ∧ card.Reaches spec := by
  cases kind with
  | audio =>
    obtain ⟨keyboard, hk⟩ := h.confirm
    refine ⟨.audio, rfl, keyboard, _, .first hk, ?_, startsWith_confirm _ _,
      parseConfirmCallback_confirmCallbackData _ _⟩
    rw [confirm_payloads hk, if_pos (card.choices_audio.trans (ha .audio rfl))]
    simp
  | video =>
    have hv : card.choices.video = true := (card.choices_video .best).trans (ha _ rfl)
    have hlead := @videoLeadsTo_default card h
      ⟨[], [], none, none, none, .video, [], card.context.maxCompatibleShortSide⟩ rfl hv
    refine ⟨_, ?_, hlead.reaches⟩
    unfold FormatPolicy.defaultVideoSpec
    split <;> rfl

end Card

/-- Buttons and enforcement agree: a confirm button is read back as its token
and a spec the policy allows, a quality button opens at least one tier, the
kinds that taps reach are the allowed ones, and the commands' default is behind
the video button. -/
theorem buttons_agree (card : Card) (h : card.Labelled) :
    (∀ keyboard, card.Shows keyboard → ∀ data ∈ payloads keyboard,
      startsWith cbConfirmPrefix data = true →
      ∃ spec, parseConfirmCallback data = (card.token, spec) ∧ card.isAllowed spec = true) ∧
    (∀ keyboard, card.Shows keyboard → ∀ data ∈ payloads keyboard,
      startsWith cbQualityPrefix data = true →
      ∃ tier, confirmCallbackData card.token (.video tier) ∈ payloads (card.tap data keyboard)) ∧
    (∀ kind, (∃ spec, specKind spec = kind ∧ card.Reaches spec) ↔
      ∀ spec, specKind spec = kind → card.isAllowed spec = true) ∧
    (∀ preview, preview.maxCompatibleShortSide = card.context.maxCompatibleShortSide →
      (∀ tier, card.isAllowed (.video tier) = true) →
      card.VideoLeadsTo (FormatPolicy.defaultVideoSpec preview)) := by
  refine ⟨fun keyboard hs data hd hc => hs.keyboard.confirm hd hc, ?_, ?_, ?_⟩
  · intro keyboard hs data hd hq
    obtain ⟨rfl, hstep⟩ := hs.keyboard.quality hd hq
    obtain ⟨opened, ho⟩ := h.quality
    have hne : card.choices.videoTiers ≠ [] := by
      simpa [OfferedChoices.hasQualityStep] using hstep
    obtain ⟨tier, ht⟩ := List.exists_mem_of_ne_nil _ hne
    exact ⟨tier, Card.opened_tiers hstep ho ht⟩
  · intro kind
    constructor
    · rintro ⟨spec, rfl, hr⟩ spec' hk
      rw [Card.isAllowed_kind hk]
      exact hr.allowed
    · exact Card.reaches_kind h
  · intro preview hside hv
    exact Card.videoLeadsTo_default h hside ((card.choices_video .best).trans (hv .best))

namespace Card

/-- A card for a 900p video in a chat where every label is its key. -/
def example900 : Card where
  bot := ⟨⟨id, id⟩, fun key _ _ => .ok key, ⟨[], [], 10, 10, 50, [], 60⟩,
    ⟨[(str "yt", [.audio])]⟩, fun _ _ => false⟩
  locale := str "en"
  token := str "a1b2"
  context := ⟨str "https://example.com/v", str "yt", some 900⟩
  fromUser := 77
  message := ⟨some 77, some (str "card"), 10, 20⟩

end Card

/-- With mp3 switched off: two taps to 720p. -/
theorem buttons_agree_900 : Card.example900.VideoLeadsTo (.video .p720) :=
  (buttons_agree Card.example900 fun key _ _ => ⟨str key, rfl⟩).2.2.2
    ⟨[], str "t", none, none, none, .video, str "yt", some 900⟩ rfl
    fun tier => by cases tier <;> decide

end MediaDownloader
