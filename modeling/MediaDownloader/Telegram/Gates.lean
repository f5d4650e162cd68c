import MediaDownloader.Telegram.BotSystem

/-!
# The gates before an extraction

Allowlist and rate limit, over every run of the bot.

* `GatesHold.step`: no stored, claimed or fetched URL is one the allowlist
  refuses;
* `gates_hold`: so it is in every run without a `/preview` command that should
  have been stopped;
* `gates_bypassed`: one such command is enough for the contrary.
-/

namespace MediaDownloader

open Interaction

/-- A `/preview` command that some gate should stop: there is a sender to be
limited, or the allowlist refuses the URL. -/
def Bot.Bypasses (bot : Bot) : Update → Prop
  | .message _ _ message => ∃ url, bot.CommandPreview message url ∧
      (message.fromUser ≠ none ∨ ¬ bot.Accepts url)
  | .callback _ _ => False

/-- No update that bypasses the gates is started. -/
def NoBypass (bot : Bot) (_ : Chats) (l : ChatLabel) (_ : Chats) : Prop :=
  ∀ update, l = .start update → ¬ bot.Bypasses update

/-- The allowlist lets the URL of every stored context through. -/
def Clean (bot : Bot) (s : Store) : Prop :=
  ∀ key context, PreviewContextStore.decode (s key) = .ok (some context) → bot.Accepts context.url

section Gates

variable {bot : Bot} {c c' : Chats} {l : ChatLabel}

theorem clean_empty (bot : Bot) : Clean bot fun _ => none := by
  rintro key context ⟨⟩

theorem Clean.removed {s : Store} (h : Clean bot s) (key : Str) : Clean bot (s.put key none) := by
  intro k context hd
  by_cases hk : k = key
  · rw [hk, Store.put_self] at hd
    cases hd
  · rw [Store.put_of_ne s none hk] at hd
    exact h k context hd

theorem Clean.saved {s : Store} (h : Clean bot s) (key : Str) {preview : MediaPreview}
    (hp : bot.Accepts preview.sourceUrl) :
    Clean bot (s.put key (some (PreviewContextStore.encode (.fromPreview preview)))) := by
  intro k context hd
  by_cases hk : k = key
  · rw [hk, Store.put_self, PreviewContextStore.decode_encode] at hd
    cases hd
    exact hp
  · rw [Store.put_of_ne s _ hk] at hd
    exact h k context hd

theorem Clean.step (hc : Handled bot c) (h : Step (botSystem bot) c l c')
    (hclean : Clean bot c.shared) : Clean bot c'.shared := by
  rcases hc.store_cases h with he | ⟨key, he⟩ |
    ⟨i, th, e, key, value, preview, -, -, -, ⟨u, url, token, -, -, rfl⟩, haccepts, he⟩
  · rw [he]
    exact hclean
  · rw [he]
    exact hclean.removed key
  · rw [he]
    exact hclean.saved key haccepts

/-- What the invariant says of a run so far. -/
structure GatesHold (bot : Bot) (c : Chats) : Prop extends Handled bot c where
  clean : Clean bot c.shared
  claimed : ∀ (i : Nat) (th : ChatThread) (key : Str) (entry : Option Entry)
    (context : PreviewContext), c.threads[i]? = some th →
    ⟨.redisGetdel key, .ok entry⟩ ∈ th.trace →
    PreviewContextStore.decode entry = .ok (some context) → bot.Accepts context.url
  gated : ∀ (i : Nat) (th : ChatThread), c.threads[i]? = some th → ¬ bot.Bypasses th.kind

theorem GatesHold.init (h : c.threads = []) (hclean : Clean bot c.shared) : GatesHold bot c where
  toHandled := .init h
  clean := hclean
  claimed _ _ _ _ _ hi := absurd hi (Conf.not_started h)
  gated _ _ hi := absurd hi (Conf.not_started h)

theorem GatesHold.step (hg : GatesHold bot c) (h : Step (botSystem bot) c l c')
    (hA : NoBypass bot c l c') : GatesHold bot c' where
  toHandled := hg.toHandled.step h
  clean := hg.clean.step hg.toHandled h
  claimed j th' key entry context hj hm hd := by
    obtain ⟨th, -, ⟨hi, hm⟩ | ⟨-, hcall⟩⟩ := h.event_cases hj hm
    · exact hg.claimed j th key entry context hi hm hd
    · have hstored : Stored c.shared (.redisGetdel key) (.ok entry) c'.shared := hcall.answer
      rw [hstored.getdel_eq.1] at hd
      exact hg.clean key context hd
  gated j th' hj := by
    rcases h.kind_cases hj with ⟨th, hi, hk⟩ | ⟨hl, -⟩
    · rw [hk]
      exact hg.gated j th hi
    · exact hA _ hl

/-! ## What each handler run keeps to -/

/-- A handler run that goes around no gate. -/
structure KeepsGates (bot : Bot) (th : ChatThread) : Prop where
  extracted : ∀ u v url r, th.trace = u ++ ⟨.getPreview url, r⟩ :: v → bot.Accepts url
  /-- Before an extraction, an allowed acquire for the sender. -/
  granted : ∀ u v url r locale waiting message sender,
    th.trace = u ++ ⟨.getPreview url, r⟩ :: v → th.kind = .message locale waiting message →
      message.fromUser = some sender → Granted sender u
  persisted : ∀ request r, ⟨.create request, r⟩ ∈ th.trace → bot.Accepts request.sourceUrl

/-- Every extraction is gated, or a `/preview` command the gates need not stop. -/
theorem GatesHold.extraction (hg : GatesHold bot c) {i : Nat} {th : ChatThread}
    (hi : c.threads[i]? = some th) {u v : Trace} {url : Str}
    {r : Except Exc (Resp (.getPreview url))} (ht : th.trace = u ++ ⟨.getPreview url, r⟩ :: v) :
    bot.Accepts url ∧ ∃ locale waiting message, th.kind = .message locale waiting message ∧
      ∀ sender, message.fromUser = some sender → Granted sender u := by
  obtain ⟨locale, waiting, message, hk, hcommand | ⟨hurl, hgrant⟩⟩ := hg.made hi ht
  · have hbypass := hg.gated i th hi
    rw [hk] at hbypass
    have hneither : message.fromUser = none ∧ bot.Accepts url := by
      by_contra hnot
      refine hbypass ⟨url, hcommand, ?_⟩
      by_cases hfrom : message.fromUser = none
      · exact .inr fun hurl => hnot ⟨hfrom, hurl⟩
      · exact .inl hfrom
    refine ⟨hneither.2, locale, waiting, message, hk, fun sender hs => ?_⟩
    rw [hneither.1] at hs
    cases hs
  · exact ⟨hurl, locale, waiting, message, hk, hgrant⟩

/-- What a use case is asked for, the allowlist has let through. -/
theorem GatesHold.requested (hg : GatesHold bot c) {i : Nat} {th : ChatThread}
    (hi : c.threads[i]? = some th) {telegramId : Int} {url : Str} {spec : DownloadSpec}
    {extractorKey : Str}
    (hm : ⟨.requestDownload telegramId url spec extractorKey, .ok ()⟩ ∈ th.trace) :
    bot.Accepts url := by
  obtain ⟨u, v, ht⟩ := List.append_of_mem hm
  obtain ⟨-, ⟨-, hurl⟩ | ⟨context, ⟨token, entry, -, hclaim, hd⟩, hurl, -⟩⟩ := hg.made hi ht
  · exact hurl
  · have hpopped : ⟨.redisGetdel (tokenKey token), .ok entry⟩ ∈ th.trace := by
      rw [ht]
      exact List.mem_append_left _ hclaim
    rw [hurl]
    exact hg.claimed i th _ entry context hi hpopped hd

theorem GatesHold.keeps (hg : GatesHold bot c) {i : Nat} {th : ChatThread}
    (hi : c.threads[i]? = some th) : KeepsGates bot th where
  extracted _ _ _ _ ht := (hg.extraction hi ht).1
  granted u v url r locale waiting message sender ht hk hfrom := by
    obtain ⟨-, _, _, message', hk', hgrant⟩ := hg.extraction hi ht
    rw [hk] at hk'
    cases hk'
    exact hgrant sender hfrom
  persisted request r hm := by
    obtain ⟨u, v, ht⟩ := List.append_of_mem hm
    obtain ⟨telegramId, url, spec, extractorKey, hrequest, hv, -, -⟩ := hg.made hi ht
    have hentered : ⟨.requestDownload telegramId url spec extractorKey, .ok ()⟩ ∈ th.trace := by
      rw [ht]
      exact List.mem_append_left _ hrequest
    exact (hg.requested hi hentered).of_validate hv

end Gates

/-- Without a bypassing `/preview`, every extraction and every persisted URL of
every interleaving has passed the gates. -/
theorem gates_hold (bot : Bot) {c₀ c : Chats} (h0 : c₀.threads = []) (hclean : Clean bot c₀.shared)
    (h : Reach (botSystem bot) (NoBypass bot) c₀ c) :
    ∀ (i : Nat) (th : ChatThread), c.threads[i]? = some th → KeepsGates bot th := by
  have hg : GatesHold bot c := h.invariant (.init h0 hclean) fun _ _ _ hg hs hA => hg.step hs hA
  exact fun i th hi => hg.keeps hi

/-! ## Two updates -/

namespace Pasted

def bot : Bot where
  unicode := ⟨id, id⟩
  core := fun key _ _ => .ok key
  settings := ⟨[str "a.com"], [], 10, 10, 50, [], 3600⟩
  policy := ⟨[]⟩
  command := fun _ _ => false

def link : Str := str "https://a.com/v"

def preview : MediaPreview :=
  mediaPreview link ⟨some (str "v"), some (.int 10), none, none, .video, str "yt", some 720⟩

/-- User 77 pastes a link. -/
def update : Update := .message (str "ru") false ⟨some 77, some link, 5, 6⟩

def previewed : Trace :=
  [⟨.acquire (str "preview:77") 10 60, .ok ⟨true, 0⟩⟩,
    ⟨.answer (str "preview-fetching") [], .ok ⟨5, 7⟩⟩, ⟨.getPreview link, .ok preview⟩,
    ⟨.uuid4Hex, .ok (str "t")⟩]

def saving : Ev :=
  ⟨.redisSet (tokenKey (str "t")) (PreviewContextStore.encode (.fromPreview preview)) 3600, .ok ()⟩

theorem previewed_answers :
    Answers (botSystem bot) update (fun _ => none) previewed (fun _ => none) :=
  .cons (.other rfl) (.cons (.other rfl) (.cons .preview (.cons (.other rfl) (.nil _))))

theorem previewed_steps : ∃ f, Steps ((botSystem bot).code update) previewed
    (.call saving.call f) :=
  ⟨_, .call (.call (.call (.call (.done _))))⟩

/-- The preview runs, undisturbed, up to its SET. -/
theorem previewed_reach {A : Chats → ChatLabel → Chats → Prop}
    (hstart : ∀ c', A ⟨fun _ => none, []⟩ (.start update) c')
    (hA : ∀ c e c', e ∈ previewed → A c (.call 0 e) c') :
    ∃ f, Reach (botSystem bot) A ⟨fun _ => none, []⟩
      ⟨fun _ => none, [⟨update, .call saving.call f, previewed, false⟩]⟩ := by
  obtain ⟨f, hf⟩ := previewed_steps
  have hstep : Step (botSystem bot) ⟨fun _ => none, []⟩ (.start update)
      ⟨fun _ => none, [Thread.new (botSystem bot) update]⟩ := .start trivial
  have hnew : [Thread.new (botSystem bot) update][0]? =
      some ⟨update, (botSystem bot).code update, [], false⟩ := rfl
  have hrun := (Reach.tail .refl hstep (hstart _)).runCalls hA hnew hf previewed_answers
  exact ⟨f, hrun⟩

/-- User 77 asks for what only the server can see. -/
def command : Update := .message (str "ru") false ⟨some 77, some (str "/preview http://10.0.0.1/"), 5, 6⟩

theorem command_refused : ¬ bot.Accepts (str "http://10.0.0.1/") := by
  rintro ⟨checked, h⟩
  have hbad : (validateUrlAgainstAllowlist bot.unicode (str "http://10.0.0.1/")
      bot.settings.allowedDomains bot.settings.blockedDomains).isOk = false := by decide
  rw [h] at hbad
  cases hbad

/-- The handler's first call is the extraction. -/
theorem command_steps : ∃ q, Steps ((botSystem bot).code command)
    [⟨.getPreview (str "http://10.0.0.1/"), .error (.extraction .extractionFailed)⟩] q :=
  ⟨_, .call (.done _)⟩

end Pasted

/-- The pasted link is fetched behind both gates. -/
theorem gates_hold_pasted : ∃ (c : Chats) (th : ChatThread),
    Reach (botSystem Pasted.bot) (NoBypass Pasted.bot) ⟨fun _ => none, []⟩ c ∧
      c.threads[0]? = some th ∧ th.trace = Pasted.previewed ∧ KeepsGates Pasted.bot th := by
  have hstart (c' : Chats) : NoBypass Pasted.bot ⟨fun _ => none, []⟩ (.start Pasted.update) c' := by
    rintro _ ⟨rfl⟩ ⟨url, ⟨hcommand, -⟩, -⟩
    revert hcommand
    decide
  obtain ⟨f, hreach⟩ := Pasted.previewed_reach hstart (by rintro c e c' - update ⟨⟩)
  have hkeeps := gates_hold Pasted.bot rfl (clean_empty _) hreach 0 _ rfl
  exact ⟨_, _, hreach, rfl, rfl, hkeeps⟩

/-- One `/preview` command, and an address the allowlist refuses is fetched. -/
theorem gates_bypassed : ¬ ∀ (bot : Bot) (c₀ c : Chats), c₀.threads = [] → Clean bot c₀.shared →
    Reach (botSystem bot) (fun _ _ _ => True) c₀ c →
    ∀ (i : Nat) (th : ChatThread), c.threads[i]? = some th → KeepsGates bot th := by
  intro hall
  obtain ⟨q, hq⟩ := Pasted.command_steps
  have hstep : Step (botSystem Pasted.bot) ⟨fun _ => none, []⟩ (.start Pasted.command)
      ⟨fun _ => none, [Thread.new (botSystem Pasted.bot) Pasted.command]⟩ := .start trivial
  have hnew : [Thread.new (botSystem Pasted.bot) Pasted.command][0]? =
      some ⟨Pasted.command, (botSystem Pasted.bot).code Pasted.command, [], false⟩ := rfl
  have hstarted : Reach (botSystem Pasted.bot) (fun _ _ _ => True) _ _ :=
    .tail .refl hstep trivial
  have hreach := hstarted.runCalls (fun _ _ _ _ => trivial) hnew hq
    (.cons .previewFailed (.nil _))
  have hkeeps := hall Pasted.bot _ _ rfl (clean_empty _) hreach 0 _ rfl
  exact Pasted.command_refused (hkeeps.extracted [] [] _ _ rfl)

end MediaDownloader
