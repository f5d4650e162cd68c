import MediaDownloader.Lib.Safety
import MediaDownloader.Application.PhaseOrder
import MediaDownloader.Application.RequestStory
import MediaDownloader.Worker.RequestSystem

/-!
# On whose behalf an actor calls

What each call of a job or a reaper tick is about: which request, which user,
which message.

* `only_claimAndProcess`: a claimed job works on the request it has read;
* `duty_wp`: what bots, jobs and reapers call, and on whose behalf.
-/

namespace MediaDownloader

open Interaction

/-! ## Jobs -/

/-- The calls of a job that has read `request` and `user`. -/
def Works (request : DownloadRequest) (user : User) (telegramId chatId messageId : Int) :
    Call → Prop
  | .claimForProcessing id => id = request.id
  | .update written => written.id = request.id
  | .tempDirForRequest id => id = request.id
  | .release id => id = request.id
  | .availableBytes => True
  | .utcnow => True
  | .download url options => url = request.sourceUrl ∧ options.spec = request.spec
  | .downloadEnd _ => True
  | .localize _ locale _ => locale = user.language
  | .publish id chat message language _ =>
    id = request.id ∧ chat = chatId ∧ message = messageId ∧ language = user.language
  | .sendFile recipient media => recipient = telegramId ∧
      ∃ result, media = DeliverableMedia.fromResult result (specKind request.spec)
  | .sendText about recipient _ => about = request.id ∧ recipient = telegramId
  | _ => False

/-- What must have happened before a call of the job for `requestId`. -/
def JobDuty (requestId : UUID) (chatId messageId : Int) (g : Trace) : Call → Prop
  | .getById id => id = requestId
  | .userGetById id => ∃ request : DownloadRequest,
      ⟨.getById requestId, .ok (some request)⟩ ∈ g ∧ request.userId = id
  | c => ∃ (request : DownloadRequest) (user : User) (telegramId : Int),
      ⟨.getById requestId, .ok (some request)⟩ ∈ g ∧
        ⟨.userGetById request.userId, .ok (some user)⟩ ∈ g ∧ user.telegramId = some telegramId ∧
        Works request user telegramId chatId messageId c

/-- No row was found corrupted. -/
def Uncorrupted : Ev → Prop
  | ⟨.getById _, .error e⟩ => e.isCorruptedRecord = false
  | _ => True

namespace ProcessDownload

section Claimed

variable {request : DownloadRequest} {user : User} {telegramId chatId messageId : Int}

abbrev WorksOnly (request : DownloadRequest) (user : User) (telegramId chatId messageId : Int)
    {α : Type} (p : Program α) : Prop :=
  Only (Works request user telegramId chatId messageId) p

theorem only_play {callback : DownloadProgress → Job Unit}
    (hc : ∀ p, WorksOnly request user telegramId chatId messageId (callback p))
    (script : DownloadScript) :
    WorksOnly request user telegramId chatId messageId (script.play callback) := by
  induction script with
  | finish r => trivial
  | emit p k ih => exact only_act_bind (only_attempt (hc p)) ih

theorem only_scriptedDownload {url : Str} {options : DownloadOptions}
    {callback : DownloadProgress → Job Unit} (hurl : url = request.sourceUrl)
    (hspec : options.spec = request.spec)
    (hc : ∀ p, WorksOnly request user telegramId chatId messageId (callback p)) :
    WorksOnly request user telegramId chatId messageId (scriptedDownload url options callback) := by
  unfold scriptedDownload
  refine only_port_bind.mpr ⟨⟨hurl, hspec⟩, fun script => ?_⟩
  refine only_act_bind (only_play hc script) fun result => ?_
  exact only_act_bind (only_attempt (only_port.mpr trivial)) fun _ => only_lift _

theorem only_fail (text : Str) : WorksOnly request user telegramId chatId messageId
    (fail request user telegramId chatId messageId text) := by
  unfold fail
  refine only_port_bind.mpr ⟨trivial, fun now => only_port_bind.mpr ⟨rfl, fun _ => ?_⟩⟩
  exact only_act_bind (only_publishPhase ⟨rfl, rfl, rfl, rfl⟩) fun _ => only_port.mpr ⟨rfl, rfl⟩

theorem only_deliver (result : DownloadResult) : WorksOnly request user telegramId chatId messageId
    (deliver request user telegramId chatId messageId result) := by
  unfold deliver
  refine only_act_bind (only_publishPhase ⟨rfl, rfl, rfl, rfl⟩) fun _ => ?_
  refine only_act_bind (only_attempt (only_port.mpr ⟨rfl, result, rfl⟩)) fun r => ?_
  cases r with
  | error e =>
    dsimp only
    split
    · exact only_port_bind.mpr ⟨rfl, fun text => only_fail text⟩
    · trivial
  | ok _ =>
    refine only_port_bind.mpr ⟨trivial, fun now => only_port_bind.mpr ⟨rfl, fun _ => ?_⟩⟩
    exact only_publishPhase ⟨rfl, rfl, rfl, rfl⟩

theorem only_conclude (outcome : Except Exc DownloadResult) :
    WorksOnly request user telegramId chatId messageId
      (conclude request user telegramId chatId messageId outcome) := by
  cases outcome with
  | ok result => exact only_deliver result
  | error e =>
    unfold conclude localizeFailure
    dsimp only
    split
    · exact only_port_bind.mpr ⟨rfl, fun text => only_fail text⟩
    · trivial

theorem only_fetch (cfg : ProcessDownload) : WorksOnly request user telegramId chatId messageId
    (fetch cfg.withAnyDownloader request user telegramId chatId messageId) := by
  unfold fetch
  refine only_port_bind.mpr ⟨rfl, fun outputDir => ?_⟩
  refine only_act_bind (only_attempt ?_) fun outcome => only_conclude outcome
  exact only_scriptedDownload rfl rfl fun p => only_port.mpr ⟨rfl, rfl, rfl, rfl⟩

theorem only_process (cfg : ProcessDownload) : WorksOnly request user telegramId chatId messageId
    (process cfg.withAnyDownloader request user telegramId chatId messageId) := by
  unfold process localizeFailure
  split
  · exact only_fetch cfg
  · refine only_port_bind.mpr ⟨trivial, fun available => ?_⟩
    split
    · exact only_port_bind.mpr ⟨rfl, fun text => only_fail text⟩
    · exact only_fetch cfg

/-- A claimed job works on the request it has read. -/
theorem only_claimAndProcess (cfg : ProcessDownload) :
    WorksOnly request user telegramId chatId messageId
      (claimAndProcess cfg.withAnyDownloader request user telegramId chatId messageId) := by
  unfold claimAndProcess
  refine only_port_bind.mpr ⟨rfl, fun claimed => ?_⟩
  split
  · trivial
  · exact only_ensure (@only_process request.markProcessing _ _ _ _ cfg) (only_port.mpr rfl)

end Claimed

/-- The reads of a job, and then its work. -/
theorem wp_duty (cfg : ProcessDownload) (requestId : UUID) (chatId messageId : Int) :
    wp (historyMonitor Uncorrupted (JobDuty requestId chatId messageId))
      (execute cfg.withAnyDownloader requestId chatId messageId) [] fun _ _ => True := by
  refine SafeGiven.wp_nil ?_
  unfold execute
  refine safeGiven_attempt_port_bind (fun _ _ => rfl) fun found hfound => ?_
  match found with
  | .error e =>
    cases e with
    | corruptedRecord column raw rid uid => cases hfound
    | _ => exact safeGiven_raise _
  | .ok none => exact safeGiven_pure ()
  | .ok (some request) =>
    have hread {K g : Trace} (hsub : K ⊆ g) (hmem : ⟨.getById requestId, .ok (some request)⟩ ∈ K) :
        ⟨.getById requestId, .ok (some request)⟩ ∈ g := hsub hmem
    refine safeGiven_port_bind (fun g hg => ⟨request, hread hg List.mem_cons_self, rfl⟩)
      fun found _ => ?_
    cases found with
    | none => exact safeGiven_pure ()
    | some user =>
      cases htelegram : user.telegramId with
      | none =>
        simp only [htelegram]
        exact safeGiven_pure ()
      | some telegramId =>
        simp only [htelegram]
        refine safeGiven_of_only (fun g c hg hc => ?_) (only_claimAndProcess cfg)
        have hduty : ∃ (request : DownloadRequest) (user : User) (telegramId : Int),
            ⟨.getById requestId, .ok (some request)⟩ ∈ g ∧
              ⟨.userGetById request.userId, .ok (some user)⟩ ∈ g ∧
              user.telegramId = some telegramId ∧
              Works request user telegramId chatId messageId c :=
          ⟨request, user, telegramId, hg (List.mem_cons_of_mem _ List.mem_cons_self),
            hg List.mem_cons_self, htelegram, hc⟩
        cases c with
        | getById _ => exact hc.elim
        | userGetById _ => exact hc.elim
        | _ => exact hduty

end ProcessDownload

/-! ## Reapers -/

/-- What must have happened before a call of a reaper tick. -/
def ReaperDuty (g : Trace) : Call → Prop
  | .sendText about telegramId _ => ∃ updatedBefore limit candidates status userId user,
      ⟨.selectStale updatedBefore limit, .ok candidates⟩ ∈ g ∧
        ⟨about, userId, status⟩ ∈ candidates ∧ ⟨.userGetById userId, .ok (some user)⟩ ∈ g ∧
        user.telegramId = some telegramId
  | .create _ => False
  | .sendFile _ _ => False
  | .enqueueDownload _ _ _ => False
  | _ => True

namespace ReapStaleRequests

/-- A notice goes to the user of a row that was selected. -/
theorem safeGiven_notify {K : Trace} {updatedBefore : Time} {limit : Nat}
    {candidates : List Candidate} (hK : ⟨.selectStale updatedBefore limit, .ok candidates⟩ ∈ K)
    {stale : StaleRequest} {row : Candidate} (hrow : row ∈ candidates)
    (hid : row.id = stale.requestId) (huser : row.userId = stale.userId) :
    SafeGiven (fun _ => True) ReaperDuty K (notify stale) := by
  unfold notify
  refine safeGiven_act_bind (safeGiven_attempt ?_) fun r => ?_
  · unfold tellUser
    refine safeGiven_port_bind (fun _ _ => trivial) fun found _ => ?_
    cases found with
    | none => exact safeGiven_pure ()
    | some user =>
      cases htelegram : user.telegramId with
      | none =>
        simp only [htelegram]
        exact safeGiven_pure ()
      | some telegramId =>
        simp only [htelegram]
        refine safeGiven_port_bind (fun _ _ => trivial) fun text _ => ?_
        refine safeGiven_of_only (P := fun c => c = .sendText stale.requestId telegramId text)
          (fun g c hg hc => ?_) (only_port.mpr rfl)
        subst hc
        refine ⟨updatedBefore, limit, candidates, row.status, stale.userId, user, ?_, ?_, ?_,
          htelegram⟩
        · exact hg (List.mem_cons_of_mem _ (List.mem_cons_of_mem _ hK))
        · rw [← hid, ← huser]
          exact hrow
        · exact hg (List.mem_cons_of_mem _ List.mem_cons_self)
  · cases r with
    | ok _ => exact safeGiven_pure ()
    | error e =>
      dsimp only
      split
      · exact safeGiven_pure ()
      · exact safeGiven_raise e

/-- What `fail_stale` returns was among the candidates. -/
theorem wp_failStale_candidates (updatedBefore : Time) (limit : Nat) (g : Trace) :
    wp (historyMonitor (fun _ => True) ReaperDuty) (failStale updatedBefore limit) g fun g' r =>
      ∀ stale, r = .ok stale → ∃ candidates,
        ⟨.selectStale updatedBefore limit, .ok candidates⟩ ∈ g' ∧
          ∀ s ∈ stale, ∃ row ∈ candidates, row.id = s.requestId ∧ row.userId = s.userId := by
  unfold failStale
  simp only [wp_act_bind, wp_port]
  refine ⟨trivial, fun r _ => ?_⟩
  cases r with
  | error e => rintro stale ⟨⟩
  | ok candidates =>
    have hselected : ⟨.selectStale updatedBefore limit, .ok candidates⟩ ∈
        g ++ [(⟨.selectStale updatedBefore limit, .ok candidates⟩ : Ev)] :=
      List.mem_append_right _ (List.mem_singleton.mpr rfl)
    by_cases he : candidates.isEmpty = true
    · simp only [he, if_true]
      rintro stale ⟨rfl⟩
      exact ⟨candidates, hselected, fun s hs => by cases hs⟩
    · simp only [he]
      refine ⟨trivial, fun r' _ => ?_⟩
      cases r' with
      | error e => rintro stale ⟨⟩
      | ok reaped =>
        intro stale hjoin
        refine ⟨candidates, List.mem_append_left _ hselected, fun s hs => ?_⟩
        obtain ⟨row, hrow, hid, -, huser, -⟩ := (joinReaped_cases hjoin).1 s hs
        exact ⟨row, hrow, hid, huser⟩

theorem wp_duty (cfg : ReapStaleRequests) :
    wp (historyMonitor (fun _ => True) ReaperDuty) (execute cfg) [] fun _ _ => True := by
  unfold execute
  refine (wp_port_bind _ _ _ _ _).mpr ⟨trivial, fun now _ => ?_⟩
  cases now with
  | error e => trivial
  | ok now =>
    refine (wp_act_bind _ _ _ _ _).mpr (wp_mono _ (wp_failStale_candidates _ _ _) ?_)
    intro g r hr
    cases r with
    | error e => trivial
    | ok stale =>
      obtain ⟨candidates, hselected, hrows⟩ := hr stale rfl
      refine safeGiven_act_bind (safeGiven_each fun s hs => ?_) (fun _ => safeGiven_pure _) g
        (List.Subset.refl g)
      obtain ⟨row, hrow, hid, huser⟩ := hrows s hs
      exact safeGiven_notify hselected hrow hid huser

end ReapStaleRequests

/-! ## All three -/

namespace Actor

/-- What must have happened before a call of the actor, and whom it is for. -/
def Duty (d : Deployment) : Actor → Trace → Call → Prop
  | .bot telegramId url spec _ chatId messageId =>
    RequestDownload.Files d.unicode telegramId url spec chatId messageId
  | .job _ requestId chatId messageId => JobDuty requestId chatId messageId
  | .reaper => ReaperDuty

end Actor

/-- Each actor calls on behalf of whom it should. -/
theorem duty_wp (d : Deployment) (k : Actor) :
    wp (historyMonitor Uncorrupted (k.Duty d)) (k.code d) [] fun _ _ => True := by
  cases k with
  | bot telegramId url spec extractorKey chatId messageId =>
    exact (wp_map _ _ _ _ _).mpr (wp_assume (fun _ _ => trivial)
      (RequestDownload.wp_files d.unicode d.policy telegramId url spec extractorKey chatId messageId))
  | job start requestId chatId messageId =>
    exact (wp_map _ _ _ _ _).mpr (ProcessDownload.wp_duty d.jobs requestId chatId messageId)
  | reaper =>
    exact (wp_map _ _ _ _ _).mpr (wp_assume (fun _ _ => trivial)
      (ReapStaleRequests.wp_duty d.reaper))

end MediaDownloader
