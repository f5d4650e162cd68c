import MediaDownloader.Lib.Interleaving
import MediaDownloader.Application.PhaseOrder
import MediaDownloader.Telegram.Handlers
import MediaDownloader.Telegram.ProgressListener

/-!
# Who writes the card last

The bot's handler edits the card once more after it has enqueued the job; the
listener edits it for the job's events, in the order they were published.

* `handle_terminal`: the listener's edit for DONE or FAILED;
* `CardInv.step`: nothing is published after a terminal phase, and its text
  stays if the handler came first;
* `card_final`: so it is in every run in which it does;
* `card_overtaken`: a fast job is enough for the contrary.
-/

namespace MediaDownloader

open Interaction ProgressListener

/-! ## The parties -/

/-- A tap on the card, and the worker's job. -/
inductive Party where
  | confirm (locale : Str) (callback : CallbackQuery)
  | job (id : UUID) (chatId messageId : Int)

def Party.isJob : Party → Bool
  | .job _ _ _ => true
  | .confirm _ _ => false

structure CardDeployment where
  bot : Bot
  worker : ProcessDownload
  listener : Listener
  /-- `str(request_id)`. -/
  uuidText : UUID → Str

/-- A call of `RedisProgressPublisher.publish`. -/
structure Published where
  id : UUID
  chatId : Int
  messageId : Int
  language : Option Str
  progress : DownloadProgress

namespace Published

def isTerminal (ev : Published) : Bool := ev.progress.phase.isTerminal

/-- `json.dumps(payload)`, as `json.loads` reads it back. -/
def payload (ev : Published) : Json :=
  .object
    [(str "percent", ev.progress.percent.elim .null fun q => .float (.finite q)),
      (str "downloaded_bytes", .int ev.progress.downloadedBytes),
      (str "total_bytes", ev.progress.totalBytes.elim .null .int),
      (str "speed", ev.progress.speed.elim .null fun q => .float (.finite q)),
      (str "eta", ev.progress.eta.elim .null .int),
      (str "phase", .string ev.progress.phase.value),
      (str "chat_id", .int ev.chatId), (str "message_id", .int ev.messageId),
      (str "language", ev.language.elim .null .string)]

/-- The listener's message, received at `now`; the edit succeeds. -/
def message (uuidText : UUID → Str) (ev : Published) (now : PyFloat) : PMessage :=
  ⟨some (str "umd:progress:" ++ uuidText ev.id), .ok ev.payload, now, .ok ()⟩

/-- The text of a terminal phase. -/
def finalText (l : Listener) (ev : Published) : Str :=
  let locale := (ev.language.filter fun name => !name.isEmpty).getD l.defaultLocale
  l.text ((phaseKey ev.progress.phase.value).getD []) (.string locale) []

end Published

/-- The messages, the queue and the progress channel. -/
structure CardWorld where
  /-- The text of a message, by chat and message id. -/
  text : Int → Int → Str
  accepted : List (UUID × Int × Int)
  /-- The events delivered, in order, and how many the listener is through with. -/
  sent : List Published
  handled : Nat
  throttler : Throttler

namespace CardWorld

def setText (w : CardWorld) (chatId messageId : Int) (text : Str) : CardWorld :=
  { w with text := fun c m => if c = chatId ∧ m = messageId then text else w.text c m }

/-- An edit of the listener takes effect. -/
def edited (w : CardWorld) : Option Edit → CardWorld
  | some ⟨.int chatId, .int messageId, text⟩ => w.setText chatId messageId text
  | _ => w

end CardWorld

/-- The calls that touch the shared world. -/
def Call.isShared : Call → Bool
  | .publish _ _ _ _ _ => true
  | .enqueueDownload _ _ _ => true
  | .editText _ _ => true
  | _ => false

/-- How a call is answered.  Publishing or enqueuing may raise although it had its
effect; edits succeed. -/
inductive CardServed (w : CardWorld) :
    Party → (c : Call) → Except Exc (Resp c) → CardWorld → Prop
  | published {jobId id : UUID} {jobChat jobMessage chatId messageId : Int}
      {language : Option Str} {progress : DownloadProgress} (r : Except Exc Unit) :
      CardServed w (.job jobId jobChat jobMessage)
        (.publish id chatId messageId language progress) r
        { w with sent := w.sent ++ [⟨id, chatId, messageId, language, progress⟩] }
  | lost {k : Party} {id : UUID} {chatId messageId : Int} {language : Option Str}
      {progress : DownloadProgress} (e : Exc) :
      CardServed w k (.publish id chatId messageId language progress) (.error e) w
  | accepted {k : Party} {id : UUID} {chatId messageId : Int} (r : Except Exc Str) :
      CardServed w k (.enqueueDownload id chatId messageId) r
        { w with accepted := (id, chatId, messageId) :: w.accepted }
  | refused {k : Party} {id : UUID} {chatId messageId : Int} (e : Exc) :
      CardServed w k (.enqueueDownload id chatId messageId) (.error e) w
  | edited {locale : Str} {callback : CallbackQuery} {message : Message} {text : Str}
      {markup : Keyboard} : callback.message = some message →
      CardServed w (.confirm locale callback) (.editText text markup) (.ok ())
        (w.setText message.chatId message.messageId text)
  | elsewhere {k : Party} {c : Call} (r : Except Exc (Resp c)) : c.isShared = false →
      CardServed w k c r w

/-- The listener handles its next message. -/
inductive Listens (d : CardDeployment) (w : CardWorld) : CardWorld → Prop
  | handle {ev : Published} {now : PyFloat} {throttler : Throttler} {edit : Option Edit} :
      w.sent[w.handled]? = some ev →
      handleMessage d.listener w.throttler (ev.message d.uuidText now) = .ok (throttler, edit) →
      Listens d w { w.edited edit with handled := w.handled + 1, throttler := throttler }

/-- Taps start at any time, jobs once they are accepted; the listener goes on by
itself. -/
def cardSystem (d : CardDeployment) : System Call Resp Exc Party CardWorld where
  code
    | .confirm locale callback =>
      Prog.map (fun _ => ()) (Handler.handleConfirmDownload d.bot ⟨d.bot.core, locale⟩ callback)
    | .job id chatId messageId =>
      Prog.map (fun _ => ())
        (ProcessDownload.execute (d.worker.withYtDlp d.bot.unicode) id chatId messageId)
  start w
    | .confirm _ _ => True
    | .job id chatId messageId => (id, chatId, messageId) ∈ w.accepted
  answer w k c r w' := CardServed w k c r w'
  drift w w' := Listens d w w'

abbrev Cards := Conf Call Resp Exc Party CardWorld
abbrev CardThread := Thread Call Resp Exc Party
abbrev CardLabel := Label Call Resp Exc Party

/-- The worker's job is the only one. -/
def OneJob (c : Cards) (l : CardLabel) (_ : Cards) : Prop :=
  ∀ k, l = .start k → k.isJob = true →
    ∀ (i : Nat) (th : CardThread), c.threads[i]? = some th → th.kind.isJob = false

/-- The handler's own edit comes before the listener's for a terminal phase. -/
def EditedInTime (c : Cards) (l : CardLabel) (_ : Cards) : Prop :=
  ∀ i text markup r, l = .call i ⟨.editText text markup, r⟩ →
    ∀ ev ∈ c.shared.sent.take c.shared.handled, ev.isTerminal = false

/-- Once all have finished, the card of a terminal event shows its text. -/
def CardFinal (l : Listener) (c : Cards) : Prop :=
  (∀ (i : Nat) (th : CardThread), c.threads[i]? = some th → th.Finished) →
    c.shared.handled = c.shared.sent.length →
    ∀ ev ∈ c.shared.sent, ev.isTerminal = true →
      c.shared.text ev.chatId ev.messageId = ev.finalText l

/-! ## The listener on a terminal event -/

theorem handle_terminal (l : Listener) (t : Throttler) (uuidText : UUID → Str) {ev : Published}
    (h : ev.isTerminal = true) (now : PyFloat) : ∃ t', handleMessage l t (ev.message uuidText now) =
      .ok (t', some ⟨.int ev.chatId, .int ev.messageId, ev.finalText l⟩) := by
  obtain ⟨id, chatId, messageId, language, progress⟩ := ev
  obtain ⟨percent, downloadedBytes, totalBytes, speed, eta, phase⟩ := progress
  refine ⟨t.discard (str "umd:progress:" ++ uuidText id), ?_⟩
  have hphase : phase = .done ∨ phase = .failed := by
    cases phase <;> simp [Published.isTerminal, ProgressPhase.isTerminal] at h ⊢
  cases language with
  | none => rcases hphase with rfl | rfl <;> rfl
  | some name =>
    cases name with
    | nil => rcases hphase with rfl | rfl <;> rfl
    | cons a name => rcases hphase with rfl | rfl <;> rfl

@[simp] theorem edited_sent (w : CardWorld) (edit : Option Edit) :
    (w.edited edit).sent = w.sent := by
  unfold CardWorld.edited
  split <;> rfl

/-- One message less, and a terminal one is on its card. -/
theorem Listens.spec {d : CardDeployment} {w w' : CardWorld} (h : Listens d w w') :
    ∃ ev, w.sent[w.handled]? = some ev ∧ w'.sent = w.sent ∧ w'.handled = w.handled + 1 ∧
      (ev.isTerminal = true → w'.text ev.chatId ev.messageId = ev.finalText d.listener) := by
  cases h with
  | @handle ev now throttler edit hev hmsg =>
    refine ⟨ev, hev, edited_sent w edit, rfl, fun hterm => ?_⟩
    obtain ⟨t', hfinal⟩ := handle_terminal d.listener w.throttler d.uuidText hterm now
    rw [hmsg] at hfinal
    cases hfinal
    simp [CardWorld.edited, CardWorld.setText]

/-! ## The invariant -/

structure CardInv (d : CardDeployment) (c : Cards) : Prop where
  coded : c.Coded (cardSystem d)
  single : ∀ (i j : Nat) (th th' : CardThread), c.threads[i]? = some th →
    c.threads[j]? = some th' → th.kind.isJob = true → th'.kind.isJob = true → i = j
  /-- A terminal event was published by a job. -/
  told : ∀ ev ∈ c.shared.sent, ev.isTerminal = true → ∃ (i : Nat) (th : CardThread),
    c.threads[i]? = some th ∧ th.kind.isJob = true ∧ th.trace.any endsCard = true
  last : ∀ u ev v, c.shared.sent = u ++ ev :: v → ev.isTerminal = true → v = []
  bound : c.shared.handled ≤ c.shared.sent.length
  shown : ∀ ev ∈ c.shared.sent, ev.isTerminal = true →
    c.shared.handled = c.shared.sent.length →
    c.shared.text ev.chatId ev.messageId = ev.finalText d.listener

/-- What a party may call after the calls it has made. -/
def partyAllow : Party → Trace → Call → Prop
  | .job _ _ _ => PhaseOrder
  | .confirm _ _ => fun _ _ => True

theorem party_wp (d : CardDeployment) (k : Party) :
    wp (historyMonitor (fun _ => True) (partyAllow k)) ((cardSystem d).code k) []
      fun _ _ => True := by
  cases k with
  | confirm locale callback => exact wp_allowed _ (fun _ _ => trivial) _ _
  | job id chatId messageId =>
    exact (wp_map _ _ _ _ _).mpr (ProcessDownload.wp_phaseOrder d.bot.unicode d.worker id)

section

variable {d : CardDeployment} {c c' : Cards} {l : CardLabel}

theorem CardInv.init {w : CardWorld} (hsent : w.sent = []) (hhandled : w.handled = 0) :
    CardInv d ⟨w, []⟩ where
  coded := fun i th hi => by simp at hi
  single := fun i j th th' hi => by simp at hi
  told := fun ev hev => by simp [hsent] at hev
  last := fun u ev v hs => by simp [hsent] at hs
  bound := by simp [hhandled]
  shown := fun ev hev => by simp [hsent] at hev

theorem single_step (h : CardInv d c) (hs : Step (cardSystem d) c l c') (hA : OneJob c l c') :
    ∀ (i j : Nat) (th th' : CardThread), c'.threads[i]? = some th → c'.threads[j]? = some th' →
      th.kind.isJob = true → th'.kind.isJob = true → i = j := by
  intro i j th th' hi hj hk hk'
  rcases hs.kind_cases hi with ⟨th₀, hi₀, hk₀⟩ | ⟨hl, hlen⟩
  · rcases hs.kind_cases hj with ⟨th₁, hj₁, hk₁⟩ | ⟨hl, -⟩
    · exact h.single i j th₀ th₁ hi₀ hj₁ (hk₀ ▸ hk) (hk₁ ▸ hk')
    · rw [hk₀, hA _ hl hk' i th₀ hi₀] at hk
      cases hk
  · rcases hs.kind_cases hj with ⟨th₁, hj₁, hk₁⟩ | ⟨-, hlen'⟩
    · rw [hk₁, hA _ hl hk j th₁ hj₁] at hk'
      cases hk'
    · rw [hlen, hlen']

/-- Threads keep what they published. -/
theorem told_extends (hs : Step (cardSystem d) c l c')
    (h : ∃ (i : Nat) (th : CardThread), c.threads[i]? = some th ∧ th.kind.isJob = true ∧
      th.trace.any endsCard = true) :
    ∃ (i : Nat) (th : CardThread), c'.threads[i]? = some th ∧ th.kind.isJob = true ∧
      th.trace.any endsCard = true := by
  obtain ⟨i, th, hi, hk, hany⟩ := h
  obtain ⟨th', hi', hk', hpre⟩ := hs.extends i th hi
  obtain ⟨e, he, hends⟩ := List.any_eq_true.mp hany
  exact ⟨i, th', hi', hk' ▸ hk, List.any_eq_true.mpr ⟨e, hpre.subset he, hends⟩⟩

/-- A job about to publish has published no terminal phase, and nobody else has. -/
theorem CardInv.none_terminal (h : CardInv d c) {i : Nat} {th : CardThread} {cl : Call}
    {f : Except Exc (Resp cl) → Prog Call Resp Exc Unit} (hi : c.threads[i]? = some th)
    (hk : th.kind.isJob = true) (hp : th.prog = .call cl f) (hcl : cl.isPublish = true) :
    ∀ ev ∈ c.shared.sent, ev.isTerminal = false := by
  have hallow := h.coded.allows (party_wp d) hi (fun _ _ => trivial) hp
  have hquiet : th.trace.any endsCard = false := by
    cases hkind : th.kind with
    | confirm _ _ =>
      rw [hkind] at hk
      cases hk
    | job _ _ _ =>
      rw [hkind] at hallow
      exact hallow hcl
  intro ev hev
  cases hterm : ev.isTerminal with
  | false => rfl
  | true =>
    obtain ⟨j, th', hj, hk', hany⟩ := h.told ev hev hterm
    have hij := h.single i j th th' hi hj hk hk'
    subst hij
    rw [hi] at hj
    cases hj
    rw [hquiet] at hany
    cases hany

/-- What one step does to the shared world, as far as the card goes. -/
theorem CardInv.world_cases (h : CardInv d c) (hs : Step (cardSystem d) c l c') :
    (c'.shared.sent = c.shared.sent ∧ c'.shared.handled = c.shared.handled ∧
        (c'.shared.text = c.shared.text ∨
          ∃ i text markup r, l = .call i ⟨.editText text markup, r⟩)) ∨
      (∃ ev, c'.shared.sent = c.shared.sent ++ [ev] ∧
        c'.shared.handled = c.shared.handled ∧
        (∀ ev' ∈ c.shared.sent, ev'.isTerminal = false) ∧
        (ev.isTerminal = true → ∃ (i : Nat) (th : CardThread), c'.threads[i]? = some th ∧
          th.kind.isJob = true ∧ th.trace.any endsCard = true)) ∨
      Listens d c.shared c'.shared := by
  cases hs with
  | start _ => exact .inl ⟨rfl, rfl, .inl rfl⟩
  | crash _ => exact .inl ⟨rfl, rfl, .inl rfl⟩
  | drift hd => exact .inr (.inr hd)
  | @call i th cl f r w hi hcrash hp hans =>
    cases hk : th.kind with
    | confirm locale callback =>
      have hans' : CardServed c.shared (.confirm locale callback) cl r w := hk ▸ hans
      cases hans' with
      | edited _ => exact .inl ⟨rfl, rfl, .inr ⟨_, _, _, _, rfl⟩⟩
      | _ => exact .inl ⟨rfl, rfl, .inl rfl⟩
    | job jobId jobChat jobMessage =>
      have hans' : CardServed c.shared (.job jobId jobChat jobMessage) cl r w := hk ▸ hans
      have hjob : th.kind.isJob = true := by rw [hk]; rfl
      cases hans' with
      | @published _ id _ _ chatId messageId language progress r =>
        refine .inr (.inl ⟨_, rfl, rfl, h.none_terminal hi hjob hp rfl, fun hterm => ?_⟩)
        refine ⟨i, _, getElem?_set_self' hi, hjob, ?_⟩
        have hends : endsCard ⟨.publish id chatId messageId language progress, r⟩ = true := hterm
        simp [Thread.answered, hends]
      | _ => exact .inl ⟨rfl, rfl, .inl rfl⟩

theorem CardInv.told_step (h : CardInv d c) (hs : Step (cardSystem d) c l c') :
    ∀ ev ∈ c'.shared.sent, ev.isTerminal = true → ∃ (i : Nat) (th : CardThread),
      c'.threads[i]? = some th ∧ th.kind.isJob = true ∧ th.trace.any endsCard = true := by
  intro ev hev hterm
  rcases h.world_cases hs with ⟨hsent, -, -⟩ | ⟨new, hsent, -, hnone, hnew⟩ | hl
  · rw [hsent] at hev
    exact told_extends hs (h.told ev hev hterm)
  · rw [hsent] at hev
    rcases List.mem_append.mp hev with hev | hev
    · rw [hnone ev hev] at hterm
      cases hterm
    · cases List.mem_singleton.mp hev
      exact hnew hterm
  · obtain ⟨_, -, hsent, -, -⟩ := hl.spec
    rw [hsent] at hev
    exact told_extends hs (h.told ev hev hterm)

/-- A terminal event stays the last: nothing is published after it. -/
theorem CardInv.last_step (h : CardInv d c) (hs : Step (cardSystem d) c l c') :
    ∀ u ev v, c'.shared.sent = u ++ ev :: v → ev.isTerminal = true → v = [] := by
  intro u ev v heq hterm
  rcases h.world_cases hs with ⟨hsent, -, -⟩ | ⟨new, hsent, -, hnone, -⟩ | hl
  · rw [hsent] at heq
    exact h.last u ev v heq hterm
  · rw [hsent] at heq
    cases v with
    | nil => rfl
    | cons b v =>
      have hmem : ev ∈ c.shared.sent := by
        have hdrop := congrArg List.dropLast heq
        rw [List.dropLast_concat] at hdrop
        rw [hdrop, List.dropLast_append_of_ne_nil (by simp)]
        simp [List.dropLast_cons_of_ne_nil]
      rw [hnone ev hmem] at hterm
      cases hterm
  · obtain ⟨_, -, hsent, -, -⟩ := hl.spec
    rw [hsent] at heq
    exact h.last u ev v heq hterm

theorem CardInv.bound_step (h : CardInv d c) (hs : Step (cardSystem d) c l c') :
    c'.shared.handled ≤ c'.shared.sent.length := by
  have hb := h.bound
  rcases h.world_cases hs with ⟨hsent, hhandled, -⟩ | ⟨new, hsent, hhandled, -⟩ | hl
  · rw [hsent, hhandled]
    exact hb
  · rw [hsent, hhandled, List.length_append]
    omega
  · obtain ⟨_, hev, hsent, hhandled, -⟩ := hl.spec
    have hlt := (List.getElem?_eq_some_iff.mp hev).1
    rw [hsent, hhandled]
    omega

theorem CardInv.shown_step (h : CardInv d c) (hs : Step (cardSystem d) c l c')
    (htime : EditedInTime c l c') : ∀ ev ∈ c'.shared.sent, ev.isTerminal = true →
      c'.shared.handled = c'.shared.sent.length →
      c'.shared.text ev.chatId ev.messageId = ev.finalText d.listener := by
  intro ev hev hterm hall
  rcases h.world_cases hs with ⟨hsent, hhandled, htext⟩ | ⟨new, hsent, hhandled, -⟩ | hl
  · rw [hsent] at hev hall
    rw [hhandled] at hall
    rcases htext with htext | ⟨i, text, markup, r, rfl⟩
    · rw [htext]
      exact h.shown ev hev hterm hall
    · -- the handler's edit would come too late
      have hearly := htime i text markup r rfl ev
      rw [hall, List.take_length] at hearly
      rw [hearly hev] at hterm
      cases hterm
  · have hb := h.bound
    rw [hsent, hhandled, List.length_append, List.length_singleton] at hall
    omega
  · obtain ⟨handled, hnext, hsent, hhandled, htext⟩ := hl.spec
    rw [hsent] at hev hall
    rw [hhandled] at hall
    -- the last event is the one just handled, and a terminal one is last
    obtain ⟨u, v, huv⟩ := List.append_of_mem hev
    have hv := h.last u ev v huv hterm
    subst hv
    have hsame : ev = handled := by
      have hu : c.shared.handled = u.length := by
        rw [huv, List.length_append, List.length_singleton] at hall
        omega
      rw [huv, hu] at hnext
      simpa using hnext
    rw [hsame] at hterm ⊢
    exact htext hterm

theorem CardInv.step (h : CardInv d c) (hs : Step (cardSystem d) c l c') (hjob : OneJob c l c')
    (htime : EditedInTime c l c') : CardInv d c' where
  coded := hs.coded h.coded
  single := single_step h hs hjob
  told := h.told_step hs
  last := h.last_step hs
  bound := h.bound_step hs
  shown := h.shown_step hs htime

/-- In every run in which the handler edits the card before the listener ends it, the
card of a terminal event ends with its text. -/
theorem card_final (d : CardDeployment) {w : CardWorld} (hsent : w.sent = [])
    (hhandled : w.handled = 0)
    (h : Reach (cardSystem d) (fun c l c' => OneJob c l c' ∧ EditedInTime c l c') ⟨w, []⟩ c) :
    CardFinal d.listener c := by
  have hinv : CardInv d c := h.invariant (CardInv.init hsent hhandled)
    fun _ _ _ hc hs hA => hc.step hs hA.1 hA.2
  intro _ hall ev hev hterm
  exact hinv.shown ev hev hterm hall

end

/-! ## A job faster than the handler -/

namespace FastJob

def bot : Bot where
  unicode := ⟨id, id⟩
  core := fun key _ _ => .ok key
  settings := ⟨[], [], 10, 10, 50, [], 3600⟩
  policy := ⟨[]⟩
  command := fun _ _ => false

def deployment : CardDeployment where
  bot := bot
  worker := ⟨scriptedDownload, 50, 60, 0⟩
  listener := ⟨fun key _ _ => key, str "en"⟩
  uuidText id := intStr id

def link : Str := str "https://a.com/v"

def context : PreviewContext := ⟨link, str "yt", some 720⟩

def sender : User := User.createFromTelegram 2 0 88 none

def request : DownloadRequest := DownloadRequest.create 1 0 2 link .audio

def file : DownloadResult := ⟨str "/tmp/1/v.mp3", none, none, some 10, none, none⟩

def message : Message := ⟨some 77, some (str "v"), 5, 7⟩

/-- User 88 taps the audio button of the card. -/
def tap : Party := .confirm (str "en") ⟨88, some (str "dl:t:a"), some message⟩

def job : Party := .job 1 5 7

/-- Up to the enqueued job. -/
def confirmed : Trace :=
  [⟨.redisGetdel (str "umd:preview:t"), .ok (some (PreviewContextStore.encode context))⟩,
    ⟨.acquire (str "download:88") 10 3600, .ok ⟨true, 0⟩⟩,
    ⟨.requestDownload 88 link .audio (str "yt"), .ok ()⟩,
    ⟨.userGetByTelegramId 88, .ok (some sender)⟩, ⟨.uuid4, .ok (1 : Nat)⟩,
    ⟨.utcnow, .ok (0 : Int)⟩, ⟨.create request, .ok ()⟩, ⟨.enqueueDownload 1 5 7, .ok (str "j")⟩]

def processed : Trace :=
  [⟨.getById 1, .ok (some request)⟩, ⟨.userGetById 2, .ok (some sender)⟩,
    ⟨.claimForProcessing 1, .ok true⟩, ⟨.tempDirForRequest 1, .ok (str "/tmp/1")⟩,
    ⟨.makeDir (str "/tmp/1"), .ok ()⟩,
    ⟨.runInExecutor link ⟨str "/tmp/1", some 50, 60, .audio⟩, .ok ([], .ok file)⟩,
    ⟨.publish 1 5 7 none (phaseMarker .uploading), .ok ()⟩,
    ⟨.sendFile 88 (DeliverableMedia.fromResult file .audio), .ok ()⟩, ⟨.utcnow, .ok (0 : Int)⟩,
    ⟨.update (request.markProcessing.markDone 0), .ok ()⟩,
    ⟨.publish 1 5 7 none (phaseMarker .done), .ok ()⟩, ⟨.release 1, .ok ()⟩]

/-- The handler's own edit. -/
def started : Trace :=
  [⟨.editText (str "vflow-download-started") [], .ok ()⟩, ⟨.answerCallback none false, .ok ()⟩]

theorem confirmed_steps :
    ∃ p, Steps ((cardSystem deployment).code tap) confirmed p ∧ Steps p started (.ret ()) :=
  ⟨_, .call (.call (.call (.call (.call (.call (.call (.call (.done _)))))))),
    .call (.call (.done _))⟩

theorem processed_steps : Steps ((cardSystem deployment).code job) processed (.ret ()) :=
  .call (.call (.call (.call (.call (.call (.call (.call (.call (.call (.call (.call
    (.done _))))))))))))

def uploading : Published := ⟨1, 5, 7, none, phaseMarker .uploading⟩
def done : Published := ⟨1, 5, 7, none, phaseMarker .done⟩

/-- The card before the tap, and with the job accepted. -/
def shown : CardWorld := ⟨fun _ _ => str "v", [], [], 0, .new⟩

def enqueued : CardWorld := { shown with accepted := [(1, 5, 7)] }

theorem confirmed_answers : Answers (cardSystem deployment) tap shown confirmed enqueued :=
  .cons (.elsewhere _ rfl) (.cons (.elsewhere _ rfl) (.cons (.elsewhere _ rfl)
    (.cons (.elsewhere _ rfl) (.cons (.elsewhere _ rfl) (.cons (.elsewhere _ rfl)
      (.cons (.elsewhere _ rfl) (.cons (.accepted _) (.nil _))))))))

theorem started_answers (w : CardWorld) : Answers (cardSystem deployment) tap w started
    (w.setText 5 7 (str "vflow-download-started")) :=
  .cons (@CardServed.edited w (str "en") _ message _ [] rfl) (.cons (.elsewhere _ rfl) (.nil _))

theorem processed_answers {w : CardWorld} (hsent : w.sent = []) :
    Answers (cardSystem deployment) job w processed { w with sent := [uploading, done] } := by
  have h : Answers (cardSystem deployment) job w processed
      { w with sent := (w.sent ++ [uploading]) ++ [done] } :=
    .cons (.elsewhere _ rfl) (.cons (.elsewhere _ rfl) (.cons (.elsewhere _ rfl)
      (.cons (.elsewhere _ rfl) (.cons (.elsewhere _ rfl) (.cons (.elsewhere _ rfl)
        (.cons (.published _) (.cons (.elsewhere _ rfl) (.cons (.elsewhere _ rfl)
          (.cons (.elsewhere _ rfl) (.cons (.published _)
            (.cons (.elsewhere _ rfl) (.nil _))))))))))))
  rwa [hsent] at h

/-- Only the listener counts. -/
theorem handled_kept (w : CardWorld) (k : Party) (cl : Call) (r : Except Exc (Resp cl))
    (w' : CardWorld) (h : w.handled = 0) (ha : (cardSystem deployment).answer w k cl r w') :
    w'.handled = 0 := by
  cases ha <;> exact h

variable {A : Cards → CardLabel → Cards → Prop}

theorem enqueued_reach (hstart : ∀ c', A ⟨shown, []⟩ (.start tap) c')
    (hcall : ∀ c e c', c.shared.handled = 0 → A c (.call 0 e) c') :
    ∃ p, Steps p started (.ret ()) ∧
      Reach (cardSystem deployment) A ⟨shown, []⟩ ⟨enqueued, [⟨tap, p, confirmed, false⟩]⟩ := by
  obtain ⟨p, hsteps, hrest⟩ := confirmed_steps
  have hstep : Step (cardSystem deployment) ⟨shown, []⟩ (.start tap)
      ⟨shown, [Thread.new (cardSystem deployment) tap]⟩ := .start trivial
  have hnew : [Thread.new (cardSystem deployment) tap][0]? =
      some ⟨tap, (cardSystem deployment).code tap, [], false⟩ := rfl
  have hrun := (Reach.tail .refl hstep (hstart _)).runThread (fun w => w.handled = 0)
    handled_kept (fun c _ e c' hc _ _ _ => hcall c e c' hc)
    rfl hnew hsteps confirmed_answers
  exact ⟨p, hrest, hrun⟩

/-- From there the job runs to its end, and the listener through its events. -/
theorem delivered_reach {c₀ : Cards} {w : CardWorld} {th : CardThread}
    (h : Reach (cardSystem deployment) A c₀ ⟨w, [th]⟩) (haccepted : (1, 5, 7) ∈ w.accepted)
    (hsent : w.sent = []) (hhandled : w.handled = 0) (hthrottler : w.throttler = .new)
    (hstart : ∀ c', A ⟨w, [th]⟩ (.start job) c')
    (hcall : ∀ c e c', c.shared.handled = 0 → A c (.call 1 e) c')
    (hdrift : ∀ c c', A c .drift c') :
    ∃ w', Reach (cardSystem deployment) A c₀ ⟨w', [th, ⟨job, .ret (), processed, false⟩]⟩ ∧
      w'.sent = [uploading, done] ∧ w'.handled = 2 ∧ w'.text 5 7 = str "progress-done" := by
  obtain ⟨text, accepted, sent, handled, throttler⟩ := w
  cases hsent
  cases hhandled
  cases hthrottler
  have hstep : Step (cardSystem deployment) ⟨⟨text, accepted, [], 0, .new⟩, [th]⟩ (.start job)
      ⟨⟨text, accepted, [], 0, .new⟩, [th, Thread.new (cardSystem deployment) job]⟩ :=
    .start haccepted
  have hnew : [th, Thread.new (cardSystem deployment) job][1]? =
      some ⟨job, (cardSystem deployment).code job, [], false⟩ := rfl
  have hrun := (Reach.tail h hstep (hstart _)).runThread (fun w => w.handled = 0)
    handled_kept (fun c _ e c' hc _ _ _ => hcall c e c' hc)
    rfl hnew processed_steps (processed_answers rfl)
  have hfirst := Reach.tail hrun (.drift (@Listens.handle _ _ _ (.finite 0) _ _ rfl rfl)) (hdrift _ _)
  have hsecond := Reach.tail hfirst (.drift (@Listens.handle _ _ _ (.finite 0) _ _ rfl rfl)) (hdrift _ _)
  exact ⟨_, hsecond, rfl, rfl, rfl⟩

theorem oneJob_call {c c' : Cards} {i : Nat} {e : Ev} : OneJob c (.call i e) c' := by
  rintro k ⟨⟩

theorem oneJob_drift {c c' : Cards} : OneJob c .drift c' := by
  rintro k ⟨⟩

theorem oneJob_tap {c' : Cards} : OneJob ⟨shown, []⟩ (.start tap) c' := by
  rintro k ⟨rfl⟩ hjob
  cases hjob

theorem oneJob_job {w : CardWorld} {th : CardThread} (hk : th.kind = tap) {c' : Cards} :
    OneJob ⟨w, [th]⟩ (.start job) c' := by
  rintro k - - i th' hi
  cases List.mem_singleton.mp (List.mem_of_getElem? hi)
  rw [hk]
  rfl

/-- Nothing handled, no edit too late. -/
theorem editedInTime_early {c c' : Cards} {l : CardLabel} (h : c.shared.handled = 0) :
    EditedInTime c l c' := by
  intro i text markup r hl ev hev
  rw [h] at hev
  cases hev

theorem editedInTime_drift {c c' : Cards} : EditedInTime c .drift c' := by
  rintro i text markup r ⟨⟩

end FastJob

/-- The handler edits the card first: it ends with the text of DONE. -/
theorem card_final_in_time : ∃ c : Cards, CardFinal FastJob.deployment.listener c ∧
    (∃ ev ∈ c.shared.sent, ev.isTerminal = true) ∧
      c.shared.text 5 7 = str "progress-done" := by
  obtain ⟨p, hrest, henqueued⟩ := FastJob.enqueued_reach
    (A := fun c l c' => OneJob c l c' ∧ EditedInTime c l c')
    (fun _ => ⟨FastJob.oneJob_tap, FastJob.editedInTime_early rfl⟩)
    (fun _ _ _ hc => ⟨FastJob.oneJob_call, FastJob.editedInTime_early hc⟩)
  have hedited := henqueued.runThread (i := 0) (fun w => w.handled = 0) FastJob.handled_kept
    (fun _ _ _ _ hc _ _ _ => ⟨FastJob.oneJob_call, FastJob.editedInTime_early hc⟩) rfl rfl hrest
    (FastJob.started_answers _)
  obtain ⟨w, hreach, hsent, -, htext⟩ := FastJob.delivered_reach hedited List.mem_cons_self rfl rfl
    rfl (fun _ => ⟨FastJob.oneJob_job rfl, FastJob.editedInTime_early rfl⟩)
    (fun _ _ _ hc => ⟨FastJob.oneJob_call, FastJob.editedInTime_early hc⟩)
    (fun _ _ => ⟨FastJob.oneJob_drift, FastJob.editedInTime_drift⟩)
  refine ⟨_, card_final FastJob.deployment rfl rfl hreach, ⟨FastJob.done, ?_, rfl⟩, htext⟩
  rw [hsent]
  exact List.mem_cons_of_mem _ List.mem_cons_self

/-- The job is through before the handler edits: the card says that the download has
started, for good. -/
theorem card_overtaken : ¬ ∀ (d : CardDeployment) (w : CardWorld) (c : Cards), w.sent = [] →
    w.handled = 0 → Reach (cardSystem d) OneJob ⟨w, []⟩ c → CardFinal d.listener c := by
  intro hall
  obtain ⟨p, hrest, henqueued⟩ := FastJob.enqueued_reach (A := OneJob)
    (fun _ => FastJob.oneJob_tap) (fun _ _ _ _ => FastJob.oneJob_call)
  obtain ⟨w, hreach, hsent, hhandled, -⟩ := FastJob.delivered_reach henqueued List.mem_cons_self
    rfl rfl rfl (fun _ => FastJob.oneJob_job rfl) (fun _ _ _ _ => FastJob.oneJob_call)
    (fun _ _ => FastJob.oneJob_drift)
  have hover := hreach.runCalls (i := 0) (fun _ _ _ _ => FastJob.oneJob_call) rfl hrest
    (FastJob.started_answers _)
  have hfinal := hall FastJob.deployment FastJob.shown _ rfl rfl hover
    (fun i th hi => by
      simp only [List.set_cons_zero] at hi
      rcases List.mem_cons.mp (List.mem_of_getElem? hi) with rfl | hmem
      · rfl
      · cases List.mem_singleton.mp hmem
        rfl)
    (by simp [CardWorld.setText, hsent, hhandled]) FastJob.done
    (by simp [CardWorld.setText, hsent]) rfl
  have hne : str "vflow-download-started" ≠ str "progress-done" := by decide
  exact hne hfinal

end MediaDownloader
