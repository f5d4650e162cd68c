import Mathlib.Data.List.Forall2
import MediaDownloader.Lib.Utf8
import MediaDownloader.Telegram.Authority
import MediaDownloader.Telegram.PreviewTokens

/-!
# Where a tap goes

The callback routers pick a handler by the beginning of the data.  No two of
their filters pass the same tap, so their order does not matter, and every
button the bot ever shows is read back as what its label says.

* `filters_apart`: where one filter passes, no later one does;
* `leadsTo_data`: so the handler does not depend on the order;
* `Tokened.step`: only hex tokens are stored, read and named;
* `buttons_live`: in every interleaving of updates, every keyboard shown is one
  that the handler may offer, and each of its labelled buttons fits in Telegram's 64
  bytes and leads to its own action.
-/

namespace MediaDownloader

open Interaction

/-! ## One filter at most -/

/-- Of every two filters the later fails where the earlier passes. -/
def OneFilter (handlers : List (Bool × Job Unit)) : Prop :=
  handlers.Pairwise fun a b => a.1 = true → b.1 = false

theorem OneFilter.filter_length {handlers : List (Bool × Job Unit)} (h : OneFilter handlers) :
    (handlers.filter Prod.fst).length ≤ 1 := by
  induction handlers with
  | nil => simp
  | cons entry rest ih =>
    obtain ⟨hhead, hrest⟩ := List.pairwise_cons.mp h
    by_cases hentry : entry.1 = true
    · have hnone : rest.filter Prod.fst = [] := by
        refine List.filter_eq_nil_iff.mpr fun other hmem => ?_
        simp [hhead other hmem hentry]
      rw [List.filter_cons_of_pos hentry, hnone]
      simp
    · rw [List.filter_cons_of_neg hentry]
      exact ih hrest

/-- The filter that passes picks the handler, in any order. -/
theorem OneFilter.firstMatch {handlers handlers' : List (Bool × Job Unit)}
    (h : OneFilter handlers) (hperm : handlers'.Perm handlers) {entry : Bool × Job Unit}
    (hmem : entry ∈ handlers) (hentry : entry.1 = true) :
    Bot.firstMatch handlers' = entry.2 := by
  have hp := hperm.filter Prod.fst
  have hlen := h.filter_length
  have hin : entry ∈ handlers.filter Prod.fst := List.mem_filter.mpr ⟨hmem, hentry⟩
  have hone : handlers.filter Prod.fst = [entry] := by
    cases hl : handlers.filter Prod.fst with
    | nil =>
      rw [hl] at hin
      cases hin
    | cons first rest =>
      rw [hl, List.length_cons] at hlen
      obtain rfl : rest = [] := List.length_eq_zero_iff.mp (by omega)
      rw [hl] at hin
      rw [List.mem_singleton.mp hin]
  rw [hone] at hp
  have hfirst : handlers'.find? Prod.fst = some entry := by
    rw [← List.head?_filter, List.perm_singleton.mp hp]
    rfl
  unfold Bot.firstMatch
  rw [hfirst]

/-- The beginnings the routers look at, router by router. -/
def routePrefixes : List Str :=
  [cbLangPrefix, cbFlowDownload, cbFlowHelp, cbQualityPrefix, cbBackPrefix, cbConfirmPrefix,
    cbCancelPrefix]

/-- Neither begins the other. -/
def Apart (p q : Str) : Prop := p.isPrefixOf q = false ∧ q.isPrefixOf p = false

instance (p q : Str) : Decidable (Apart p q) := inferInstanceAs (Decidable (_ ∧ _))

theorem routePrefixes_apart : routePrefixes.Pairwise Apart := by decide

/-- Each filter passes only what begins with its own prefix. -/
theorem filters_prefixed (bot : Bot) (i18n : I18n) (tap : CallbackQuery) :
    List.Forall₂ (fun entry p => entry.1 = true → hasPrefix p tap = true)
      (bot.callbackHandlers i18n tap) routePrefixes :=
  .cons id (.cons hasPrefix_of_data (.cons hasPrefix_of_data (.cons id (.cons id (.cons id
    (.cons id .nil))))))

theorem filtered_mem {tap : CallbackQuery} {handlers : List (Bool × Job Unit)}
    {prefixes : List Str}
    (h : List.Forall₂ (fun entry p => entry.1 = true → hasPrefix p tap = true) handlers prefixes)
    {entry : Bool × Job Unit} (hmem : entry ∈ handlers) (hpass : entry.1 = true) :
    ∃ p ∈ prefixes, hasPrefix p tap = true := by
  induction h with
  | nil => cases hmem
  | @cons first p handlers prefixes hfirst _ ih =>
    rcases List.mem_cons.mp hmem with rfl | hmem
    · exact ⟨p, List.mem_cons_self, hfirst hpass⟩
    · obtain ⟨q, hq, htap⟩ := ih hmem
      exact ⟨q, List.mem_cons_of_mem p hq, htap⟩

theorem oneFilter_of_prefixed {tap : CallbackQuery} {handlers : List (Bool × Job Unit)}
    {prefixes : List Str}
    (h : List.Forall₂ (fun entry p => entry.1 = true → hasPrefix p tap = true) handlers prefixes)
    (hp : prefixes.Pairwise Apart) : OneFilter handlers := by
  induction h with
  | nil => exact .nil
  | @cons entry p handlers prefixes hentry hrest ih =>
    obtain ⟨hhead, htail⟩ := List.pairwise_cons.mp hp
    refine List.pairwise_cons.mpr ⟨fun other hmem hpass => ?_, ih htail⟩
    by_contra hother
    rw [Bool.not_eq_false] at hother
    obtain ⟨q, hq, htap⟩ := filtered_mem hrest hmem hother
    have happart := hhead q hq
    rw [hasPrefix_disjoint (hentry hpass) happart.1 happart.2] at htap
    cases htap

theorem filters_apart (bot : Bot) (i18n : I18n) (tap : CallbackQuery) :
    OneFilter (bot.callbackHandlers i18n tap) :=
  oneFilter_of_prefixed (filters_prefixed bot i18n tap) routePrefixes_apart

/-! ## What a tap is read as -/

namespace ButtonAction

/-- What its data begins with. -/
def beginning : ButtonAction → Str
  | language _ => cbLangPrefix
  | picker _ => cbQualityPrefix
  | back _ => cbBackPrefix
  | confirm _ _ => cbConfirmPrefix
  | cancel _ => cbCancelPrefix

/-- The router that answers it. -/
def handler (bot : Bot) (i18n : I18n) (tap : CallbackQuery) : ButtonAction → Job Unit
  | language _ => Handler.handleLanguageChoice i18n tap
  | picker _ => Handler.handleOpenQualityPicker bot i18n tap
  | back _ => Handler.handleBackToFormat bot i18n tap
  | confirm _ _ => Handler.handleConfirmDownload bot i18n tap
  | cancel _ => Handler.handleCancelDownload i18n tap

/-- What that router reads in the data of a tap. -/
def readBy (data : Str) : ButtonAction → ButtonAction
  | language _ => .language (data.drop cbLangPrefix.length)
  | picker _ => .picker (data.drop cbQualityPrefix.length)
  | back _ => .back (data.drop cbBackPrefix.length)
  | confirm _ _ => .confirm (parseConfirmCallback data).1 (parseConfirmCallback data).2
  | cancel _ => .cancel (data.drop cbCancelPrefix.length)

theorem data_eq (action : ButtonAction) : ∃ rest, action.data = action.beginning ++ rest := by
  cases action with
  | confirm token spec => cases spec <;> exact ⟨_, by
      simp only [data, beginning, confirmCallbackData, List.append_assoc]; rfl⟩
  | _ => exact ⟨_, rfl⟩

theorem mem_callbackHandlers (bot : Bot) (i18n : I18n) (tap : CallbackQuery)
    (action : ButtonAction) : (hasPrefix action.beginning tap, action.handler bot i18n tap) ∈
      bot.callbackHandlers i18n tap := by
  cases action <;> simp [beginning, handler, Bot.callbackHandlers]

theorem readBy_data (action : ButtonAction) : action.readBy action.data = action := by
  cases action with
  | confirm token spec =>
    show ButtonAction.confirm _ _ = _
    rw [data, parseConfirmCallback_confirmCallbackData]
  | language locale => exact congrArg _ List.drop_left
  | picker token => exact congrArg _ List.drop_left
  | back token => exact congrArg _ List.drop_left
  | cancel token => exact congrArg _ List.drop_left

end ButtonAction

/-- A tap on a button with `data` is read as `action`, in whatever order the
routers are asked. -/
structure LeadsTo (bot : Bot) (data : Str) (action : ButtonAction) : Prop where
  read : action.readBy data = action
  routed : ∀ i18n tap handlers, tap.data = some data →
    handlers.Perm (bot.callbackHandlers i18n tap) →
      Bot.firstMatch handlers = action.handler bot i18n tap

theorem hasPrefix_append {p rest : Str} {tap : CallbackQuery} (h : tap.data = some (p ++ rest)) :
    hasPrefix p tap = true := by
  unfold hasPrefix startsWith
  rw [h]
  exact List.isPrefixOf_iff_prefix.mpr (List.prefix_append p rest)

/-- Every button is read as what it was drawn for. -/
theorem leadsTo_data (bot : Bot) (action : ButtonAction) : LeadsTo bot action.data action where
  read := action.readBy_data
  routed i18n tap handlers hd hperm := by
    obtain ⟨rest, hdata⟩ := action.data_eq
    rw [hdata] at hd
    exact (filters_apart bot i18n tap).firstMatch hperm (action.mem_callbackHandlers bot i18n tap)
      (hasPrefix_append hd)

/-! ## The tokens on the buttons -/

/-- `uuid4().hex`. -/
def IsHexToken (token : Str) : Prop := token.length = 32 ∧ ∀ c ∈ token, isHexDigit c = true

/-- The tokens made in the step are hex. -/
def HexTokens (_ : Chats) (l : ChatLabel) (_ : Chats) : Prop :=
  ∀ i token, l = .call i ⟨.uuid4Hex, .ok token⟩ → IsHexToken token

/-- Only hex tokens have been made, stored and found. -/
structure Tokened (bot : Bot) (c : Chats) : Prop extends Handled bot c where
  made : ∀ (i : Nat) (th : ChatThread) (token : Str), c.threads[i]? = some th →
    ⟨.uuid4Hex, .ok token⟩ ∈ th.trace → IsHexToken token
  stored : ∀ token value, c.shared (tokenKey token) = some value → IsHexToken token
  found : ∀ (i : Nat) (th : ChatThread) (token : Str) (value : Entry), c.threads[i]? = some th →
    ⟨.redisGet (tokenKey token), .ok (some value)⟩ ∈ th.trace → IsHexToken token

section Tokens

variable {bot : Bot} {c c' : Chats} {l : ChatLabel}

theorem Tokened.init (h : c.threads = []) (hs : c.shared = fun _ => none) : Tokened bot c where
  toHandled := .init h
  made _ _ _ hi := absurd hi (Conf.not_started h)
  stored token value hv := by
    rw [hs] at hv
    cases hv
  found _ _ _ _ hi := absurd hi (Conf.not_started h)

/-- What is stored was there before, or is saved under a token just made. -/
theorem Tokened.stored_step (hc : Tokened bot c) (h : Step (botSystem bot) c l c') {token : Str}
    {value : Entry} (hv : c'.shared (tokenKey token) = some value) : IsHexToken token := by
  rcases hc.store_cases h with he | ⟨key, he⟩ |
    ⟨i, th, e, key, value', preview, -, hcall, -, ⟨u, url, token', htrace, rfl, -⟩, -, he⟩
  · rw [he] at hv
    exact hc.stored token value hv
  · rw [he] at hv
    by_cases hk : tokenKey token = key
    · rw [hk, Store.put_self] at hv
      cases hv
    · rw [Store.put_of_ne _ _ hk] at hv
      exact hc.stored token value hv
  · by_cases hk : tokenKey token = tokenKey token'
    · rw [tokenKey_injective hk]
      refine hc.made i th token' hcall.thread ?_
      rw [htrace]
      simp
    · rw [he, Store.put_of_ne _ _ hk] at hv
      exact hc.stored token value hv

theorem Tokened.step (hc : Tokened bot c) (h : Step (botSystem bot) c l c')
    (hA : HexTokens c l c') : Tokened bot c' where
  toHandled := hc.toHandled.step h
  made i th' token hi hm := by
    obtain ⟨th, -, ⟨hi, hm⟩ | ⟨hl, -⟩⟩ := h.event_cases hi hm
    · exact hc.made i th token hi hm
    · exact hA i token hl
  stored _ _ hv := hc.stored_step h hv
  found i th' token value hi hm := by
    obtain ⟨th, -, ⟨hi, hm⟩ | ⟨-, hcall⟩⟩ := h.event_cases hi hm
    · exact hc.found i th token value hi hm
    · have hstored : Stored c.shared (.redisGet (tokenKey token)) (.ok (some value)) c'.shared :=
        hcall.answer
      exact hc.stored token value hstored.get_eq.symm

/-- A token with a preview behind it is a hex one. -/
theorem Tokened.behind (hc : Tokened bot c) {i : Nat} {th : ChatThread}
    (hi : c.threads[i]? = some th) {g : Trace} (hg : ∀ e ∈ g, e ∈ th.trace) {token : Str}
    {context : PreviewContext} (h : bot.Behind th.kind g token context) : IsHexToken token := by
  cases h with
  | saved _ hmade _ => exact hc.made i th token hi (hg _ hmade)
  | read _ hread _ => exact hc.found i th token _ hi (hg _ hread)

end Tokens

/-! ## What the bot shows -/

/-- A button with the label of its meaning.  A reply button carries nothing; an inline
button is one that Telegram takes, and its own action is what a tap on it leads to. -/
structure LiveButton (bot : Bot) (i18n : I18n) (meaning : ButtonMeaning) (button : Str × Str) :
    Prop where
  label : i18n.get meaning.key meaning.args = .ok button.1
  reply : meaning.action = none → button.2 = []
  carries : ∀ action, meaning.action = some action → button.2 = action.data ∧
    button.2 ≠ [] ∧ Utf8.byteLength button.2 ≤ 64 ∧ LeadsTo bot button.2 action

/-- Every button of the keyboard is the live button of its place in the offer. -/
def LiveKeyboard (bot : Bot) (i18n : I18n) (offer : Offer) (keyboard : Keyboard) : Prop :=
  List.Forall₂ (List.Forall₂ (LiveButton bot i18n)) offer.rows keyboard

theorem byteLength_ascii {s : Str} (h : ∀ c ∈ s, c < 0x80) : Utf8.byteLength s = s.length := by
  induction s with
  | nil => rfl
  | cons c s ih =>
    rw [Utf8.byteLength_cons, ih fun x hx => h x (List.mem_cons_of_mem c hx), Utf8.encodeChar,
      if_pos (h c List.mem_cons_self), List.length_cons]
    simp [Nat.add_comm]

theorem isHexDigit_ascii {c : Nat} (h : isHexDigit c = true) : c < 0x80 := by
  simp only [isHexDigit, isAsciiDigit, Bool.or_eq_true, Bool.and_eq_true, decide_eq_true_eq] at h
  omega

theorem byteLength_token {token : Str} (h : IsHexToken token) : Utf8.byteLength token = 32 := by
  rw [byteLength_ascii fun c hc => isHexDigit_ascii (h.2 c hc), h.1]

namespace ButtonAction

/-- It names a hex token or a language that there is. -/
def Named : ButtonAction → Prop
  | language locale => locale ∈ Handler.supportedLocales
  | picker token => IsHexToken token
  | back token => IsHexToken token
  | confirm token _ => IsHexToken token
  | cancel token => IsHexToken token

/-- The longest data is that of a confirm button. -/
theorem byteLength_data {action : ButtonAction} (h : action.Named) :
    Utf8.byteLength action.data ≤ 64 := by
  cases action with
  | language locale =>
    simp only [Named, Handler.supportedLocales, List.mem_cons, List.not_mem_nil, or_false] at h
    rcases h with rfl | rfl
    · decide
    · decide
  | confirm token spec =>
    have htoken := byteLength_token h
    cases spec with
    | audio =>
      simp only [data, confirmCallbackData, Utf8.byteLength_append, htoken]
      decide
    | video tier =>
      simp only [data, confirmCallbackData, Utf8.byteLength_append, htoken]
      cases tier <;> decide
  | picker token =>
    rw [data, Utf8.byteLength_append, byteLength_token h]
    decide
  | back token =>
    rw [data, Utf8.byteLength_append, byteLength_token h]
    decide
  | cancel token =>
    rw [data, Utf8.byteLength_append, byteLength_token h]
    decide

theorem data_ne_nil (action : ButtonAction) : action.data ≠ [] := by
  obtain ⟨rest, hdata⟩ := action.data_eq
  rw [hdata]
  cases action <;> simp [beginning, cbLangPrefix, cbQualityPrefix, cbBackPrefix, cbConfirmPrefix,
    cbCancelPrefix, str]

end ButtonAction

/-- The token that the buttons of an offer name. -/
def Offer.token : Offer → Option Str
  | card token _ => some token
  | qualities token _ _ => some token
  | _ => none

/-- Buttons of an offer name its token, or a language. -/
theorem Offer.named {offer : Offer} (h : ∀ token, offer.token = some token → IsHexToken token) :
    ∀ row ∈ offer.rows, ∀ meaning ∈ row, ∀ action, meaning.action = some action →
      action.Named := by
  cases offer with
  | nothing => simp [rows]
  | menu => simp [rows]
  | languages => simp [rows, ButtonAction.Named, Handler.supportedLocales]
  | card token choices =>
    have htoken := h token rfl
    obtain ⟨video, audio, tiers⟩ := choices
    cases video <;> cases audio <;> cases tiers <;>
      simp [rows, ButtonAction.Named, OfferedChoices.hasQualityStep, htoken]
  | qualities token tiers bestShortSide =>
    have htoken := h token rfl
    have htier (tier : VideoTier) : ∀ action,
        (tierMeaning token bestShortSide tier).action = some action → action.Named := by
      cases tier <;> simp [tierMeaning, ButtonAction.Named, htoken]
    simpa [rows, ButtonAction.Named, htoken] using fun tier _ => htier tier

/-- A rendered button of a named action is live. -/
theorem liveButton_of_renders (bot : Bot) {i18n : I18n} {meaning : ButtonMeaning}
    {button : Str × Str} (hnamed : ∀ action, meaning.action = some action → action.Named)
    (h : meaning.Renders i18n button) : LiveButton bot i18n meaning button where
  label := h.label
  reply hnone := by
    rw [h.data, hnone]
    rfl
  carries action ha := by
    have hdata : button.2 = action.data := by
      rw [h.data, ha]
      rfl
    rw [hdata]
    exact ⟨rfl, action.data_ne_nil, ButtonAction.byteLength_data (hnamed action ha),
      leadsTo_data bot action⟩

theorem Offer.Renders.live (bot : Bot) {i18n : I18n} {offer : Offer} {keyboard : Keyboard}
    (hhex : ∀ token, offer.token = some token → IsHexToken token)
    (h : offer.Renders i18n keyboard) : LiveKeyboard bot i18n offer keyboard := by
  refine ((List.forall₂_and_left _ _).mpr ⟨Offer.named hhex, h⟩).imp fun row buttons hrow => ?_
  refine ((List.forall₂_and_left _ _).mpr hrow).imp fun meaning button hbutton => ?_
  exact liveButton_of_renders bot hbutton.1 hbutton.2

/-- The call shows the keyboard. -/
def Call.Draws (keyboard : Keyboard) : Call → Prop
  | .answer _ shown => shown = keyboard
  | .editText _ shown => shown = keyboard
  | .editMarkup shown => shown = keyboard
  | _ => False

theorem draws_of_authority {bot : Bot} {update : Update} {g : Trace} {c : Call}
    {keyboard : Keyboard} (h : bot.Authority update g c) (hc : c.Draws keyboard) :
    bot.Draws update g keyboard := by
  cases c with
  | answer _ shown => exact hc ▸ h
  | editText _ shown => exact hc ▸ h
  | editMarkup shown => exact hc ▸ h
  | _ => exact hc.elim

/-- Every keyboard of every interleaving is the live keyboard of an offer that the
handler may make there. -/
theorem buttons_live (bot : Bot) {c₀ c : Chats} (h0 : c₀.threads = [])
    (hs : c₀.shared = fun _ => none) (h : Reach (botSystem bot) HexTokens c₀ c) {i : Nat}
    {th : ChatThread} (hi : c.threads[i]? = some th) {u v : Trace} {e : Ev}
    (ht : th.trace = u ++ e :: v) {keyboard : Keyboard} (hdraws : e.call.Draws keyboard) :
    ∃ offer locale, bot.Offers th.kind u offer ∧ Bot.Speaks th.kind offer locale ∧
      LiveKeyboard bot ⟨bot.core, locale⟩ offer keyboard := by
  have hc : Tokened bot c := h.invariant (.init h0 hs) fun _ _ _ hc hstep hA => hc.step hstep hA
  have hauth := hc.coded.made (authority_wp bot) hi (fun _ _ => trivial) ht
  obtain ⟨offer, locale, hoffers, hspeaks, hrenders⟩ := draws_of_authority hauth hdraws
  have hu : ∀ e ∈ u, e ∈ th.trace := by
    rw [ht]
    exact fun e he => List.mem_append_left _ he
  refine ⟨offer, locale, hoffers, hspeaks, hrenders.live bot fun token htoken => ?_⟩
  cases hoffers with
  | nothing => cases htoken
  | menu => cases htoken
  | languages => cases htoken
  | card hbehind =>
    cases htoken
    exact hc.behind hi hu hbehind
  | qualities hbehind _ =>
    cases htoken
    exact hc.behind hi hu hbehind

namespace Pasted

def hexToken : Str := str "0123456789abcdef0123456789abcdef"

def keyboard : Keyboard :=
  [[(str "btn-confirm-video", confirmCallbackData hexToken directVideoSpec),
      (str "btn-confirm-audio", confirmCallbackData hexToken .audio)],
    [(str "btn-cancel", cbCancelPrefix ++ hexToken)]]

/-- The pasted link up to its card. -/
def drawn (text : Str) : Trace :=
  [⟨.acquire (str "preview:77") 10 60, .ok ⟨true, 0⟩⟩,
    ⟨.answer (str "preview-fetching") [], .ok ⟨5, 7⟩⟩, ⟨.getPreview link, .ok preview⟩,
    ⟨.uuid4Hex, .ok hexToken⟩,
    ⟨.redisSet (tokenKey hexToken) (PreviewContextStore.encode (.fromPreview preview)) 3600, .ok ()⟩,
    ⟨.editText text keyboard, .ok ()⟩]

theorem drawn_steps : ∃ text q, Steps ((botSystem bot).code update) (drawn text) q :=
  ⟨_, _, .call (.call (.call (.call (.call (.call (.done _))))))⟩

theorem drawn_answers (text : Str) : Answers (botSystem bot) update (fun _ => none) (drawn text)
    (Store.put (fun _ => none) (tokenKey hexToken)
      (some (PreviewContextStore.encode (.fromPreview preview)))) :=
  .cons (.other rfl) (.cons (.other rfl) (.cons .preview (.cons (.other rfl) (.cons .set
    (.cons (.other rfl) (.nil _))))))

theorem drawn_hex {text : Str} {c c' : Chats} {e : Ev} (he : e ∈ drawn text) :
    HexTokens c (.call 0 e) c' := by
  rintro i token ⟨rfl, rfl⟩
  simp [drawn] at he
  subst he
  exact ⟨by decide, by decide⟩

end Pasted

/-- The three buttons of the card under the pasted link. -/
theorem buttons_live_drawn : ∃ (c : Chats) (th : ChatThread) (u : Trace) (text : Str)
    (offer : Offer) (locale : Str),
    Reach (botSystem Pasted.bot) HexTokens ⟨fun _ => none, []⟩ c ∧ c.threads[0]? = some th ∧
      th.trace = u ++ [⟨.editText text Pasted.keyboard, .ok ()⟩] ∧
      Pasted.bot.Offers th.kind u offer ∧ Bot.Speaks th.kind offer locale ∧
      LiveKeyboard Pasted.bot ⟨Pasted.bot.core, locale⟩ offer Pasted.keyboard := by
  obtain ⟨text, q, hsteps⟩ := Pasted.drawn_steps
  have hstep : Step (botSystem Pasted.bot) ⟨fun _ => none, []⟩ (.start Pasted.update)
      ⟨fun _ => none, [Thread.new (botSystem Pasted.bot) Pasted.update]⟩ := .start trivial
  have hnew : [Thread.new (botSystem Pasted.bot) Pasted.update][0]? =
      some ⟨Pasted.update, (botSystem Pasted.bot).code Pasted.update, [], false⟩ := rfl
  have hstarted : Reach (botSystem Pasted.bot) HexTokens _ _ :=
    .tail .refl hstep (by rintro i token ⟨⟩)
  have hreach := hstarted.runCalls (fun _ _ _ he => Pasted.drawn_hex he) hnew hsteps
    (Pasted.drawn_answers text)
  have hi : [(⟨Pasted.update, q, [] ++ Pasted.drawn text, false⟩ : ChatThread)][0]? =
      some ⟨Pasted.update, q, [] ++ Pasted.drawn text, false⟩ := rfl
  obtain ⟨u, hu⟩ : ∃ u, [] ++ Pasted.drawn text = u ++ [⟨.editText text Pasted.keyboard, .ok ()⟩] :=
    ⟨(Pasted.drawn text).dropLast, rfl⟩
  obtain ⟨offer, locale, hlive⟩ := buttons_live Pasted.bot rfl rfl hreach hi hu rfl
  exact ⟨_, _, u, text, offer, locale, hreach, hi, hu, hlive⟩

end MediaDownloader
