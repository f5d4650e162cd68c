import MediaDownloader.Infrastructure.YtDlpDownloader

/-!
# Is publishing progress cosmetic?

Two runs of one job over the real downloader: the same ports, except that some
publish calls of the first run raise.  The phase markers are guarded, the
stream events are not: the callback's exception leaves `download` in place of
its outcome.

* `conclude_shows`: what a job does after `download`, by its outcome;
* `execute_reached`, `execute_unreached`: the whole job, by what its ports answer;
* `progress_cosmetic_iff`: the two runs agree exactly when no stream event's
  publish raises, or the outcome was as bad without it.
-/

namespace MediaDownloader

open Interaction

/-- A job's ports with fixed answers. -/
structure JobPorts where
  request : Except Exc (Option DownloadRequest)
  user : Except Exc (Option User)
  claim : Except Exc Bool
  availableBytes : Except Exc Int
  tempDir : Str
  makeDir : Except Exc Unit
  /-- What the child emits, and what the runner returns or raises. -/
  child : List RawProgress × Except Exc DownloadResult
  localized : Str → Option Str → List (Str × Int) → Str
  clock : Time
  update : DownloadRequest → Except Exc Unit
  markFailedById : Except Exc Unit
  sendFile : Except Exc Unit
  sendText : Except Exc Unit
  release : Except Exc Unit
  /-- What the n-th publish call raises. -/
  publish : Nat → Option Exc
  publish_isException : ∀ n e, publish n = some e → e.isException = true

/-- What is watched of a run: publish calls so far, and the calls that matter. -/
structure Watched where
  published : Nat
  observed : List Call

namespace JobPorts

/-- The same ports with every publish call succeeding. -/
def calm (P : JobPorts) : JobPorts :=
  { P with
    publish := fun _ => none
    publish_isException := fun _ _ h => by cases h }

def publishResult (P : JobPorts) (n : Nat) : Except Exc Unit :=
  match P.publish n with
  | none => .ok ()
  | some e => .error e

def answer (P : JobPorts) (s : Watched) : (c : Call) → Except Exc (Resp c)
  | .getById _ => P.request
  | .userGetById _ => P.user
  | .claimForProcessing _ => P.claim
  | .availableBytes => P.availableBytes
  | .tempDirForRequest _ => .ok P.tempDir
  | .makeDir _ => P.makeDir
  | .runInExecutor _ _ => .ok P.child
  | .localize key locale args => .ok (P.localized key locale args)
  | .utcnow => .ok P.clock
  | .update r => P.update r
  | .markFailedById _ => P.markFailedById
  | .sendFile _ _ => P.sendFile
  | .sendText _ _ _ => P.sendText
  | .release _ => P.release
  | .publish _ _ _ _ _ => P.publishResult s.published
  -- no other port is a job's
  | _ => .error (.other (str "NotImplementedError"))

/-- Status writes and what is sent to the user. -/
def isObserved : Call → Bool
  | .claimForProcessing _ => true
  | .update _ => true
  | .markFailedById _ => true
  | .sendFile _ _ => true
  | .sendText _ _ _ => true
  | _ => false

def watch (s : Watched) : Call → Watched
  | .publish _ _ _ _ _ => { s with published := s.published + 1 }
  | c => if isObserved c then { s with observed := s.observed ++ [c] } else s

attribute [simp] answer isObserved watch

def handler (P : JobPorts) : Handler Call Resp Exc Watched where
  answer := P.answer
  next s c _ := watch s c

@[simp] theorem handler_answer (P : JobPorts) (s : Watched) (c : Call) :
    P.handler.answer s c = P.answer s c := rfl

@[simp] theorem handler_next (P : JobPorts) (s : Watched) (c : Call) (r : Except Exc (Resp c)) :
    P.handler.next s c r = watch s c := rfl

end JobPorts

/-- Status writes and deliveries of a run, and whether it raised. -/
def outcomeOf (P : JobPorts) (p : Job Unit) : List Call × Bool :=
  let r := Prog.handle P.handler p ⟨0, []⟩
  (r.1.observed, !r.2.isOk)

/-! ## What follows the download -/

namespace JobPorts

/-- A failed job: the write, and the text once it is written. -/
def failed (P : JobPorts) (request : DownloadRequest) (telegramId : Int) (text : Str) :
    List Call × Except Exc Unit :=
  match P.update (request.markFailed P.clock) with
  | .error e => ([.update (request.markFailed P.clock)], .error e)
  | .ok _ =>
    ([.update (request.markFailed P.clock), .sendText request.id telegramId text], P.sendText)

/-- What a job does once `download` ended in `outcome`. -/
def settled (P : JobPorts) (request : DownloadRequest) (user : User) (telegramId : Int)
    (outcome : Except Exc DownloadResult) : List Call × Except Exc Unit :=
  match outcome with
  | .error e =>
    if e.isDownloadFailure then
      P.failed request telegramId (P.localized e.errorKey user.language e.errorArgs)
    else ([], .error e)
  | .ok result =>
    let sent := Call.sendFile telegramId (DeliverableMedia.fromResult result (specKind request.spec))
    match P.sendFile with
    | .error e =>
      if e.isNotifierError then
        let f := P.failed request telegramId
          (P.localized (str "error-delivery-failed") user.language [])
        (sent :: f.1, f.2)
      else ([sent], .error e)
    | .ok _ => ([sent, .update (request.markDone P.clock)], P.update (request.markDone P.clock))

/-- How `download` ends. -/
def downloadOutcome (P : JobPorts) (u : Unicode) (url : Str) : Except Exc DownloadResult :=
  match P.makeDir with
  | .error e => .error e
  | .ok _ =>
    downloadResult (drainFailure P.publish 0 P.child.1) (mapOutcome u url P.child.2)

end JobPorts

section Runs

variable (P : JobPorts)

/-- `p`, run from `s`, shows the calls of `d` and ends as `d` says. -/
def Shows (p : Job Unit) (s : Watched) (d : List Call × Except Exc Unit) : Prop :=
  (Prog.handle P.handler p s).1.observed = s.observed ++ d.1 ∧
    (Prog.handle P.handler p s).2 = d.2

theorem publishPhase_handle (requestId : UUID) (chatId messageId : Int) (language : Option Str)
    (phase : ProgressPhase) (s : Watched) :
    Prog.handle P.handler
        (ProcessDownload.publishPhase requestId chatId messageId language phase) s =
      (⟨s.published + 1, s.observed⟩, .ok ()) := by
  unfold ProcessDownload.publishPhase
  simp only [handle_act_bind, handle_attempt, handle_port, JobPorts.handler_answer,
    JobPorts.handler_next, JobPorts.answer, JobPorts.watch, JobPorts.publishResult]
  cases hp : P.publish s.published with
  | none => rfl
  | some e =>
    simp only [P.publish_isException _ _ hp, if_true]
    rfl

theorem fail_shows (request : DownloadRequest) (user : User) (telegramId chatId messageId : Int)
    (text : Str) (s : Watched) :
    Shows P (ProcessDownload.fail request user telegramId chatId messageId text) s
      (P.failed request telegramId text) := by
  unfold Shows ProcessDownload.fail JobPorts.failed
  simp only [handle_act_bind, handle_port, publishPhase_handle, JobPorts.handler_answer,
    JobPorts.handler_next, JobPorts.answer, JobPorts.watch, JobPorts.isObserved, reduceIte, Bool.false_eq_true]
  cases P.update (request.markFailed P.clock) with
  | error e => exact ⟨rfl, rfl⟩
  | ok _ => exact ⟨by simp, rfl⟩

theorem deliver_shows (request : DownloadRequest) (user : User)
    (telegramId chatId messageId : Int) (result : DownloadResult) (s : Watched) :
    Shows P (ProcessDownload.deliver request user telegramId chatId messageId result) s
      (P.settled request user telegramId (.ok result)) := by
  unfold Shows ProcessDownload.deliver JobPorts.settled
  simp only [handle_act_bind, handle_attempt, handle_port, publishPhase_handle,
    JobPorts.handler_answer, JobPorts.handler_next, JobPorts.answer, JobPorts.watch,
    JobPorts.isObserved, reduceIte]
  cases P.sendFile with
  | error e =>
    by_cases he : e.isNotifierError = true
    · simp only [he, if_true, handle_act_bind, handle_port, JobPorts.handler_answer,
        JobPorts.handler_next, JobPorts.answer, JobPorts.watch, JobPorts.isObserved, reduceIte, Bool.false_eq_true]
      have hf := fail_shows P request user telegramId chatId messageId
        (P.localized (str "error-delivery-failed") user.language [])
        ⟨s.published + 1, s.observed ++ [.sendFile telegramId
          (DeliverableMedia.fromResult result (specKind request.spec))]⟩
      exact ⟨hf.1.trans (by simp), hf.2⟩
    · simp only [he, Bool.false_eq_true, reduceIte]
      exact ⟨rfl, rfl⟩
  | ok _ =>
    simp only [handle_act_bind, handle_port, JobPorts.handler_answer,
      JobPorts.handler_next, JobPorts.answer, JobPorts.watch, JobPorts.isObserved, reduceIte, Bool.false_eq_true]
    cases P.update (request.markDone P.clock) with
    | error e => exact ⟨by simp, rfl⟩
    | ok _ =>
      simp only [publishPhase_handle]
      exact ⟨by simp, trivial⟩

/-- What follows `download` depends on its outcome alone. -/
theorem conclude_shows (request : DownloadRequest) (user : User)
    (telegramId chatId messageId : Int) (outcome : Except Exc DownloadResult) (s : Watched) :
    Shows P (ProcessDownload.conclude request user telegramId chatId messageId outcome) s
      (P.settled request user telegramId outcome) := by
  cases outcome with
  | ok result => exact deliver_shows P request user telegramId chatId messageId result s
  | error e =>
    unfold ProcessDownload.conclude JobPorts.settled
    by_cases he : e.isDownloadFailure = true
    · simp only [he, if_true]
      exact fail_shows P request user telegramId chatId messageId _ s
    · simp only [he]
      exact ⟨by simp, rfl⟩

/-! ## The download itself -/

/-- Draining stops at the first event whose publish raises, and raises it. -/
theorem drain_handle (requestId : UUID) (chatId messageId : Int) (language : Option Str)
    (events : List RawProgress) (s : Watched) :
    let r := Prog.handle P.handler
      (drain (fun p => port (.publish requestId chatId messageId language p)) events) s
    r.1.observed = s.observed ∧
      r.2 = match drainFailure P.publish s.published events with
        | some e => .error e
        | none => .ok () := by
  unfold drain
  induction events generalizing s with
  | nil => exact ⟨rfl, rfl⟩
  | cons raw events ih =>
    simp only [Act.each, handle_act_bind, handle_port, JobPorts.handler_answer,
      JobPorts.handler_next, JobPorts.answer, JobPorts.watch, JobPorts.publishResult,
      drainFailure]
    cases P.publish s.published with
    | some e => exact ⟨rfl, rfl⟩
    | none => exact ih ⟨s.published + 1, s.observed⟩

theorem download_handle (u : Unicode) (url : Str) (options : DownloadOptions)
    (requestId : UUID) (chatId messageId : Int) (language : Option Str) (observed : List Call) :
    let r := Prog.handle P.handler (ytDlpDownload u url options fun p =>
      port (.publish requestId chatId messageId language p)) ⟨0, observed⟩
    r.1.observed = observed ∧ r.2 = P.downloadOutcome u url := by
  unfold ytDlpDownload JobPorts.downloadOutcome
  simp only [handle_act_bind, handle_port, JobPorts.handler_answer, JobPorts.handler_next,
    JobPorts.answer, JobPorts.watch, JobPorts.isObserved, reduceIte, Bool.false_eq_true]
  cases P.makeDir with
  | error e => exact ⟨rfl, rfl⟩
  | ok _ =>
    obtain ⟨events, outcome⟩ := P.child
    obtain ⟨ho, hr⟩ := drain_handle P requestId chatId messageId language events ⟨0, observed⟩
    simp only [handle_ensure, handle_lift]
    cases hf : drainFailure P.publish 0 events with
    | some e =>
      rw [hf] at hr
      simp only [hr, ho, downloadResult, and_self]
    | none =>
      rw [hf] at hr
      simp only [hr, ho, downloadResult, and_self]

/-! ## The whole job -/

/-- The ports' facts under which a job reaches `download`: the request it
claimed, its user and the user's Telegram id. -/
def JobPorts.claimed (minFreeDiskBytes : Int) : Option (DownloadRequest × User × Int) :=
  match P.request, P.user, P.claim with
  | .ok (some request), .ok (some user), .ok true =>
    match user.telegramId with
    | none => none
    | some telegramId =>
      if minFreeDiskBytes = 0 then some (request.markProcessing, user, telegramId)
      else
        match P.availableBytes with
        | .error _ => none
        | .ok available =>
          if available < minFreeDiskBytes then none
          else some (request.markProcessing, user, telegramId)
  | _, _, _ => none

variable (u : Unicode) (cfg : ProcessDownload)

theorem fetch_shows (request : DownloadRequest) (user : User)
    (telegramId chatId messageId : Int) (observed : List Call) :
    Shows P (ProcessDownload.fetch (cfg.withYtDlp u) request user telegramId chatId messageId)
      ⟨0, observed⟩
      (P.settled request user telegramId (P.downloadOutcome u request.sourceUrl)) := by
  unfold Shows ProcessDownload.fetch
  simp only [handle_act_bind, handle_port, handle_attempt, JobPorts.handler_answer,
    JobPorts.handler_next, JobPorts.answer, JobPorts.watch, JobPorts.isObserved, reduceIte,
    Bool.false_eq_true]
  obtain ⟨ho, hr⟩ := download_handle P u request.sourceUrl
    { outputDir := P.tempDir
      maxFilesizeBytes := some cfg.maxDeliverableFileSizeBytes
      timeoutSeconds := cfg.downloadTimeoutSeconds
      spec := request.spec } request.id chatId messageId user.language observed
  rw [hr]
  have hc := conclude_shows P request user telegramId chatId messageId
    (P.downloadOutcome u request.sourceUrl)
  exact ⟨(hc _).1.trans (by rw [ho]), (hc _).2⟩

/-- Enough free disk, or no check of it. -/
def JobPorts.DiskOk (minFreeDiskBytes : Int) : Prop :=
  minFreeDiskBytes = 0 ∨
    minFreeDiskBytes ≠ 0 ∧ ∃ n, P.availableBytes = .ok n ∧ ¬ n < minFreeDiskBytes

theorem JobPorts.claimed_some {minFreeDiskBytes : Int} {request : DownloadRequest}
    {user : User} {telegramId : Int}
    (h : P.claimed minFreeDiskBytes = some (request, user, telegramId)) :
    ∃ r, P.request = .ok (some r) ∧ P.user = .ok (some user) ∧ P.claim = .ok true ∧
      user.telegramId = some telegramId ∧ r.markProcessing = request ∧
      P.DiskOk minFreeDiskBytes := by
  unfold JobPorts.claimed at h
  split at h
  · next r user' hr hu hc =>
    split at h
    · cases h
    · next tg ht =>
      split at h
      · next hz =>
        cases h
        exact ⟨r, hr, hu, hc, ht, rfl, .inl hz⟩
      · next hz =>
        split at h
        · cases h
        · next n hn =>
          split at h
          · cases h
          · next hle =>
            cases h
            exact ⟨r, hr, hu, hc, ht, rfl, .inr ⟨hz, n, hn, hle⟩⟩
  · cases h

/-- A claimed job that does not reach `download` found too little disk, or no answer. -/
theorem JobPorts.low_disk {minFreeDiskBytes : Int} {r : DownloadRequest} {user : User}
    {telegramId : Int} (hr : P.request = .ok (some r)) (hu : P.user = .ok (some user))
    (hc : P.claim = .ok true) (ht : user.telegramId = some telegramId)
    (h : P.claimed minFreeDiskBytes = none) :
    minFreeDiskBytes ≠ 0 ∧ ∀ n, P.availableBytes = .ok n → n < minFreeDiskBytes := by
  unfold JobPorts.claimed at h
  simp only [hr, hu, hc, ht] at h
  by_cases hz : minFreeDiskBytes = 0
  · simp [hz] at h
  · refine ⟨hz, fun n hn => ?_⟩
    simp only [hz, if_false, hn] at h
    by_contra hle
    simp [hle] at h

theorem process_shows (request : DownloadRequest) (user : User)
    (telegramId chatId messageId : Int) (observed : List Call)
    (hd : P.DiskOk cfg.minFreeDiskBytes) :
    Shows P (ProcessDownload.process (cfg.withYtDlp u) request user telegramId chatId messageId)
      ⟨0, observed⟩
      (P.settled request user telegramId (P.downloadOutcome u request.sourceUrl)) := by
  have hf := fetch_shows P u cfg request user telegramId chatId messageId observed
  unfold ProcessDownload.process
  rcases hd with hz | ⟨hz, n, hn, hle⟩
  · rw [if_pos hz]
    exact hf
  · rw [if_neg hz]
    unfold Shows
    simp only [handle_act_bind, handle_port, JobPorts.handler_answer, JobPorts.handler_next,
      JobPorts.answer, JobPorts.watch, JobPorts.isObserved, reduceIte, Bool.false_eq_true, hn,
      if_neg hle]
    exact hf

/-- A job that reaches `download`: the claim, then what follows from its outcome. -/
theorem execute_reached (requestId : UUID) (chatId messageId : Int)
    {request : DownloadRequest} {user : User} {telegramId : Int}
    (h : P.claimed cfg.minFreeDiskBytes = some (request, user, telegramId)) :
    let d := P.settled request user telegramId (P.downloadOutcome u request.sourceUrl)
    outcomeOf P (ProcessDownload.execute (cfg.withYtDlp u) requestId chatId messageId) =
      (.claimForProcessing request.id :: d.1, !d.2.isOk || !P.release.isOk) := by
  obtain ⟨r, hr, hu, hc, ht, rfl, hd⟩ := P.claimed_some h
  obtain ⟨ho, he⟩ := process_shows P u cfg r.markProcessing user telegramId chatId messageId
    [.claimForProcessing r.id] hd
  unfold outcomeOf ProcessDownload.execute ProcessDownload.claimAndProcess
  simp only [handle_act_bind, handle_attempt, handle_port, JobPorts.handler_answer,
    JobPorts.handler_next, JobPorts.answer, JobPorts.watch, JobPorts.isObserved, reduceIte,
    Bool.false_eq_true, hr, hu, hc, ht, Bool.not_true, List.nil_append, handle_ensure,
    DownloadRequest.markProcessing_id]
  cases hrel : P.release with
  | ok _ =>
    simp only [ho, he]
    simp [Except.isOk, Except.toBool]
  | error e =>
    simp only [ho]
    simp [Except.isOk, Except.toBool]

/-- A job refused for want of disk. -/
def JobPorts.refused (request : DownloadRequest) (user : User) (telegramId : Int) :
    List Call × Except Exc Unit :=
  match P.availableBytes with
  | .error e => ([], .error e)
  | .ok _ =>
    P.failed request telegramId (P.localized Exc.insufficientStorage.errorKey user.language
      Exc.insufficientStorage.errorArgs)

theorem refused_shows (request : DownloadRequest) (user : User)
    (telegramId chatId messageId : Int) (s : Watched)
    (h : cfg.minFreeDiskBytes ≠ 0 ∧ ∀ n, P.availableBytes = .ok n → n < cfg.minFreeDiskBytes) :
    Shows P (ProcessDownload.process (cfg.withYtDlp u) request user telegramId chatId messageId) s
      (P.refused request user telegramId) := by
  unfold Shows ProcessDownload.process JobPorts.refused
  rw [if_neg h.1]
  simp only [handle_act_bind, handle_port, JobPorts.handler_answer, JobPorts.handler_next,
    JobPorts.answer, JobPorts.watch, JobPorts.isObserved, reduceIte, Bool.false_eq_true]
  cases hn : P.availableBytes with
  | error e => exact ⟨by simp, rfl⟩
  | ok n =>
    simp only [if_pos (h.2 n hn), ProcessDownload.localizeFailure]
    exact fail_shows P request user telegramId chatId messageId _ s

/-- What `P` does without a stream event, it does whatever publish calls raise. -/
theorem reportCorruptedRecord_handle (exc : Exc) (requestId userId : UUID)
    (chatId messageId : Int) (s : Watched) :
    Prog.handle P.handler
        (ProcessDownload.reportCorruptedRecord exc requestId userId chatId messageId) s =
      Prog.handle P.calm.handler
        (ProcessDownload.reportCorruptedRecord exc requestId userId chatId messageId) s := by
  unfold ProcessDownload.reportCorruptedRecord
  simp only [handle_act_bind, handle_port, JobPorts.handler_answer, JobPorts.handler_next,
    JobPorts.answer, JobPorts.watch, JobPorts.isObserved, reduceIte, Bool.false_eq_true]
  have hm : P.calm.markFailedById = P.markFailedById := rfl
  have hu : P.calm.user = P.user := rfl
  rw [hm, hu]
  cases P.markFailedById with
  | error e => rfl
  | ok _ =>
    match P.user with
    | .error e => rfl
    | .ok none => rfl
    | .ok (some user) =>
      cases ht : user.telegramId with
      | none => simp only [ht]; rfl
      | some telegramId =>
        simp only [ht, handle_act_bind, publishPhase_handle]
        rfl

/-- A job that does not reach `download` publishes guarded phases only. -/
theorem execute_unreached (requestId : UUID) (chatId messageId : Int)
    (h : P.claimed cfg.minFreeDiskBytes = none) :
    outcomeOf P (ProcessDownload.execute (cfg.withYtDlp u) requestId chatId messageId) =
      outcomeOf P.calm (ProcessDownload.execute (cfg.withYtDlp u) requestId chatId messageId) := by
  unfold outcomeOf ProcessDownload.execute ProcessDownload.claimAndProcess
  simp only [handle_act_bind, handle_attempt, handle_port, JobPorts.handler_answer,
    JobPorts.handler_next, JobPorts.answer, JobPorts.watch, JobPorts.isObserved, reduceIte,
    Bool.false_eq_true]
  have hr' : P.calm.request = P.request := rfl
  have hu' : P.calm.user = P.user := rfl
  have hc' : P.calm.claim = P.claim := rfl
  rw [hr']
  match hr : P.request with
  | .error e =>
    cases e with
    | corruptedRecord column raw rid uid => simp only [reportCorruptedRecord_handle P]
    | _ => rfl
  | .ok none => rfl
  | .ok (some r) =>
    simp only [handle_act_bind, handle_port, JobPorts.handler_answer, JobPorts.handler_next,
      JobPorts.answer, JobPorts.watch, JobPorts.isObserved, reduceIte, Bool.false_eq_true]
    rw [hu']
    match hu : P.user with
    | .error e => rfl
    | .ok none => rfl
    | .ok (some user) =>
      cases ht : user.telegramId with
      | none => simp only [ht, handle_pure]
      | some telegramId =>
        simp only [ht, handle_act_bind, handle_port, JobPorts.handler_answer,
          JobPorts.handler_next, JobPorts.answer, JobPorts.watch, JobPorts.isObserved, reduceIte]
        rw [hc']
        match hc : P.claim with
        | .error e => rfl
        | .ok false => rfl
        | .ok true =>
          have hlow := P.low_disk hr hu hc ht h
          have hp := refused_shows P u cfg r.markProcessing user telegramId chatId messageId
            ⟨0, [.claimForProcessing r.id]⟩ hlow
          have hp' := refused_shows P.calm u cfg r.markProcessing user telegramId chatId messageId
            ⟨0, [.claimForProcessing r.id]⟩ hlow
          have hrel : P.calm.release = P.release := rfl
          have hlow' : P.calm.refused r.markProcessing user telegramId =
            P.refused r.markProcessing user telegramId := rfl
          simp only [Bool.not_true, Bool.false_eq_true, reduceIte, handle_ensure, handle_port,
            JobPorts.handler_answer, JobPorts.handler_next, JobPorts.answer, JobPorts.watch,
            JobPorts.isObserved, List.nil_append, hrel]
          cases P.release with
          | ok _ => simp only [hp.1, hp.2, hp'.1, hp'.2, hlow']
          | error e => simp only [hp.1, hp'.1, hlow']

end Runs

/-! ## The two runs -/

/-- A stream event's publish that raises does no harm: the job never reaches
`download`, or no event's publish raises, or the download would have failed in
the same way: both unhandled, or both told to the user in the same words. -/
def Harmless (P : JobPorts) (u : Unicode) (minFreeDiskBytes : Int) : Prop :=
  ∀ request user telegramId e,
    P.claimed minFreeDiskBytes = some (request, user, telegramId) → P.makeDir = .ok () →
    drainFailure P.publish 0 P.child.1 = some e →
    ∃ f, P.child.2 = .error f ∧
      let f := mapFailure u request.sourceUrl f
      e.isDownloadFailure = f.isDownloadFailure ∧
        (e.isDownloadFailure = true →
          (∃ e', P.update (request.markFailed P.clock) = .error e') ∨
            P.localized e.errorKey user.language e.errorArgs =
              P.localized f.errorKey user.language f.errorArgs)

theorem harmless_iff (P : JobPorts) (u : Unicode) {minFreeDiskBytes : Int}
    {request : DownloadRequest} {user : User} {telegramId : Int} {e : Exc}
    (hc : P.claimed minFreeDiskBytes = some (request, user, telegramId))
    (hd : P.makeDir = .ok ()) (hs : drainFailure P.publish 0 P.child.1 = some e) :
    Harmless P u minFreeDiskBytes ↔
      ∃ f, P.child.2 = .error f ∧
        e.isDownloadFailure = (mapFailure u request.sourceUrl f).isDownloadFailure ∧
          (e.isDownloadFailure = true →
            (∃ e', P.update (request.markFailed P.clock) = .error e') ∨
              P.localized e.errorKey user.language e.errorArgs =
                P.localized (mapFailure u request.sourceUrl f).errorKey user.language
                  (mapFailure u request.sourceUrl f).errorArgs) := by
  constructor
  · intro h
    exact h request user telegramId e hc hd hs
  · intro h request' user' telegramId' e' hc' _ hs'
    rw [hc] at hc'
    rw [hs] at hs'
    cases hc'
    cases hs'
    exact h

/-- Two failures are told apart unless both are unhandled, or told in one text. -/
theorem settled_error_iff (P : JobPorts) (request : DownloadRequest) (user : User)
    (telegramId : Int) (e f : Exc) :
    (P.settled request user telegramId (.error e)).1 =
        (P.settled request user telegramId (.error f)).1 ↔
      e.isDownloadFailure = f.isDownloadFailure ∧
        (e.isDownloadFailure = true →
          (∃ e', P.update (request.markFailed P.clock) = .error e') ∨
            P.localized e.errorKey user.language e.errorArgs =
              P.localized f.errorKey user.language f.errorArgs) := by
  unfold JobPorts.settled JobPorts.failed
  cases he : e.isDownloadFailure <;> cases hf : f.isDownloadFailure <;>
    cases P.update (request.markFailed P.clock) <;> simp [he, hf]

/-- Failures handled alike raise alike. -/
theorem settled_error_isOk (P : JobPorts) (request : DownloadRequest) (user : User)
    (telegramId : Int) {e f : Exc} (h : e.isDownloadFailure = f.isDownloadFailure) :
    (P.settled request user telegramId (.error e)).2.isOk =
      (P.settled request user telegramId (.error f)).2.isOk := by
  unfold JobPorts.settled JobPorts.failed
  cases he : e.isDownloadFailure <;> rw [he] at h <;>
    cases P.update (request.markFailed P.clock) <;> simp [he, ← h, Except.isOk, Except.toBool]

/-- A failed download sends no file. -/
theorem settled_ok_ne (P : JobPorts) (request : DownloadRequest) (user : User)
    (telegramId : Int) (e : Exc) (result : DownloadResult) :
    (P.settled request user telegramId (.error e)).1 ≠
      (P.settled request user telegramId (.ok result)).1 := by
  have hfile : ∃ media rest, (P.settled request user telegramId (.ok result)).1 =
      Call.sendFile telegramId media :: rest := by
    unfold JobPorts.settled
    cases P.sendFile with
    | ok _ => exact ⟨_, _, rfl⟩
    | error e' =>
      by_cases he : e'.isNotifierError = true
      · simp only [he, if_true]
        exact ⟨_, _, rfl⟩
      · simp only [he]
        exact ⟨_, _, rfl⟩
  obtain ⟨media, rest, hf⟩ := hfile
  rw [hf]
  unfold JobPorts.settled JobPorts.failed
  cases he : e.isDownloadFailure <;> cases P.update (request.markFailed P.clock) <;> simp [he]

/-- With every publish call succeeding, the download ends as its child does. -/
theorem JobPorts.calm_downloadOutcome (P : JobPorts) (u : Unicode) (url : Str) :
    P.calm.downloadOutcome u url =
      match P.makeDir with
      | .error e => .error e
      | .ok _ => mapOutcome u url P.child.2 := by
  unfold JobPorts.downloadOutcome
  rw [show P.calm.publish = fun _ => none from rfl, drainFailure_none]
  rfl

/-- Publishing progress is cosmetic exactly when no stream event's publish
raises, or the download fails alike without it. -/
theorem progress_cosmetic_iff (P : JobPorts) (u : Unicode) (cfg : ProcessDownload)
    (requestId : UUID) (chatId messageId : Int) :
    outcomeOf P (ProcessDownload.execute (cfg.withYtDlp u) requestId chatId messageId) =
        outcomeOf P.calm (ProcessDownload.execute (cfg.withYtDlp u) requestId chatId messageId) ↔
      Harmless P u cfg.minFreeDiskBytes := by
  cases hclaim : P.claimed cfg.minFreeDiskBytes with
  | none =>
    refine iff_of_true (execute_unreached P u cfg requestId chatId messageId hclaim) ?_
    intro request user telegramId e h
    rw [hclaim] at h
    cases h
  | some job =>
    obtain ⟨request, user, telegramId⟩ := job
    have hcalm : P.calm.claimed cfg.minFreeDiskBytes = some (request, user, telegramId) := hclaim
    rw [execute_reached P u cfg requestId chatId messageId hclaim,
      execute_reached P.calm u cfg requestId chatId messageId hcalm]
    have hset : ∀ o, P.calm.settled request user telegramId o =
      P.settled request user telegramId o := fun _ => rfl
    have hrel : P.calm.release = P.release := rfl
    simp only [hset, hrel, P.calm_downloadOutcome]
    cases hdir : P.makeDir with
    | error e =>
      refine iff_of_true ?_ ?_
      · simp only [JobPorts.downloadOutcome, hdir]
      · intro _ _ _ _ _ hd
        rw [hdir] at hd
        cases hd
    | ok _ =>
      cases hf : drainFailure P.publish 0 P.child.1 with
      | none =>
        refine iff_of_true ?_ ?_
        · simp only [JobPorts.downloadOutcome, hdir, hf, downloadResult]
        · intro _ _ _ _ _ _ hs
          rw [hf] at hs
          cases hs
      | some e =>
        simp only [JobPorts.downloadOutcome, hdir, hf, downloadResult]
        rw [harmless_iff P u hclaim hdir hf]
        cases hchild : P.child.2 with
        | ok result =>
          refine iff_of_false (fun h => ?_) (fun ⟨f, h, _⟩ => by cases h)
          exact settled_ok_ne P request user telegramId e result
            (List.cons.inj (congrArg Prod.fst h)).2
        | error f =>
          simp only [mapOutcome]
          constructor
          · intro h
            exact ⟨f, rfl, (settled_error_iff P request user telegramId e _).mp
              (List.cons.inj (congrArg Prod.fst h)).2⟩
          · rintro ⟨f', hf', h⟩
            cases hf'
            rw [(settled_error_iff P request user telegramId e _).mpr h,
              settled_error_isOk P request user telegramId h.1]

/-- A video that downloads and is delivered, over a publisher whose Redis is down. -/
def redisDown : JobPorts where
  request := .ok (some (DownloadRequest.create 1 0 2 (str "https://example.com/v") .audio))
  user := .ok (some (User.createFromTelegram 2 0 77 none))
  claim := .ok true
  availableBytes := .ok 0
  tempDir := str "/tmp/1"
  makeDir := .ok ()
  child := ([.converting], .ok ⟨str "/tmp/1/v.mp3", none, none, some 10, none, none⟩)
  localized := fun key _ _ => key
  clock := 5
  update := fun _ => .ok ()
  markFailedById := .ok ()
  sendFile := .ok ()
  sendText := .ok ()
  release := .ok ()
  publish := fun _ => some (.other (str "ConnectionError"))
  publish_isException := fun _ _ h => by cases h; rfl

/-- One lost progress event: no file, no status write, and `execute` raises. -/
theorem progress_not_cosmetic :
    let job := ProcessDownload.execute
      (ProcessDownload.withYtDlp ⟨asciiLower, id⟩ ⟨scriptedDownload, 50, 60, 0⟩) 1 10 20
    outcomeOf redisDown job = ([.claimForProcessing 1], true) ∧
      (outcomeOf redisDown.calm job).2 = false ∧
      outcomeOf redisDown job ≠ outcomeOf redisDown.calm job := by
  refine ⟨rfl, rfl, fun h => ?_⟩
  have hr := congrArg Prod.snd h
  exact absurd hr (by decide)

end MediaDownloader
