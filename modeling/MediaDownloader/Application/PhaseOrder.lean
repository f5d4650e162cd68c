import MediaDownloader.Infrastructure.YtDlpDownloader

/-!
# Nothing follows DONE or FAILED

A job over the real downloader publishes nothing after a terminal phase: the
stream events carry other phases, and what follows the terminal marker in the
use case is silent.

* `stays_of_only`: calls that end no card keep it open;
* `wp_phaseOrder`: the order, for a whole job.
-/

namespace MediaDownloader

open Interaction

/-- DONE or FAILED. -/
def ProgressPhase.isTerminal : ProgressPhase → Bool
  | .done => true
  | .failed => true
  | _ => false

def Call.isPublish : Call → Bool
  | .publish _ _ _ _ _ => true
  | _ => false

/-- Publishes a terminal phase. -/
def Call.endsCard : Call → Bool
  | .publish _ _ _ _ progress => progress.phase.isTerminal
  | _ => false

def endsCard (e : Ev) : Bool := e.call.endsCard

/-- A publish call comes before any terminal one. -/
def PhaseOrder (u : Trace) (c : Call) : Prop := c.isPublish = true → u.any endsCard = false

abbrev phaseMonitor : Monitor Call Resp Exc Trace := historyMonitor (fun _ => True) PhaseOrder

/-- With no terminal phase published, `p` publishes none. -/
def Stays {α : Type} (p : Prog Call Resp Exc α) : Prop :=
  ∀ g, g.any endsCard = false → wp phaseMonitor p g fun g' _ => g'.any endsCard = false

/-- With no terminal phase published, `p` publishes nothing after its own. -/
def Closes {α : Type} (p : Prog Call Resp Exc α) : Prop :=
  ∀ g, g.any endsCard = false → wp phaseMonitor p g fun _ _ => True

section

variable {α β : Type}

theorem stays_of_only {p : Prog Call Resp Exc α} (hp : Only (fun c => c.endsCard = false) p) :
    Stays p := by
  induction p with
  | ret a => exact fun g hg => hg
  | call c k ih =>
    intro g hg
    refine ⟨fun _ => hg, fun r _ => ih r (hp.2 r) _ ?_⟩
    simp [hg, endsCard, hp.1]

theorem closes_bind {p : Job α} {f : α → Job β} (hp : Stays p) (hf : ∀ a, Closes (f a)) :
    Closes (p >>= f : Job β) := by
  intro g hg
  refine (wp_act_bind _ _ _ _ _).mpr (wp_mono _ (hp g hg) fun g' r hg' => ?_)
  cases r with
  | ok a => exact hf a g' hg'
  | error e => trivial

theorem wp_silent {p : Prog Call Resp Exc α} (hp : Only (fun c => c.isPublish = false) p)
    (g : Trace) : wp phaseMonitor p g fun _ _ => True :=
  wp_of_only (fun _ _ hc h => by rw [hc] at h; cases h) hp g

/-- One call, and silence. -/
theorem closes_call {c : Call} {k : Except Exc (Resp c) → Prog Call Resp Exc α}
    (hk : ∀ r, Only (fun c => c.isPublish = false) (k r)) : Closes (.call c k) :=
  fun _ hg => ⟨fun _ => hg, fun r _ => wp_silent (hk r) _⟩

theorem stays_port {c : Call} (hc : c.endsCard = false) : Stays (port c) :=
  stays_of_only (only_port.mpr hc)

end

/-! ## The real downloader -/

theorem isTerminal_buildDownloadProgress (raw : RawProgress) :
    (buildDownloadProgress raw).phase.isTerminal = false := by
  cases raw <;> rfl

/-- Whatever the child reports, the stream ends no card. -/
theorem only_ytDlpDownload (u : Unicode) (url : Str) (options : DownloadOptions) (id : UUID)
    (chatId messageId : Int) (language : Option Str) :
    Only (fun c => c.endsCard = false) (ytDlpDownload u url options fun progress =>
      port (.publish id chatId messageId language progress)) := by
  unfold ytDlpDownload
  refine only_port_bind.mpr ⟨rfl, fun _ => only_port_bind.mpr ⟨rfl, fun child => ?_⟩⟩
  apply only_ensure
  · exact only_lift _
  · apply only_each
    intro raw _
    exact only_port.mpr (isTerminal_buildDownloadProgress raw)

/-! ## The use case -/

namespace ProcessDownload

variable {request : DownloadRequest} {user : User} {telegramId chatId messageId : Int}

theorem only_publishPhase {P : Call → Prop} {requestId : UUID} {language : Option Str}
    {phase : ProgressPhase}
    (h : P (.publish requestId chatId messageId language (phaseMarker phase))) :
    Only P (publishPhase requestId chatId messageId language phase) := by
  unfold publishPhase
  apply only_act_bind
  · exact only_attempt (only_port.mpr h)
  · intro r
    cases r with
    | ok _ => trivial
    | error e =>
      simp only
      split <;> trivial

theorem closes_fail (text : Str) : Closes (fail request user telegramId chatId messageId text) := by
  unfold fail
  refine closes_bind (stays_port rfl) fun now => closes_bind (stays_port rfl) fun _ => ?_
  refine closes_call fun r => ?_
  cases r with
  | ok _ => exact ⟨rfl, fun _ => trivial⟩
  | error e =>
    show Only _ (Act.bind (if e.isException = true then pure () else Act.raise e) _)
    split
    · exact ⟨rfl, fun _ => trivial⟩
    · trivial

theorem closes_deliver (result : DownloadResult) :
    Closes (deliver request user telegramId chatId messageId result) := by
  unfold deliver
  refine closes_bind (stays_of_only (only_publishPhase rfl)) fun _ => ?_
  refine closes_bind (stays_of_only (only_attempt (only_port.mpr rfl))) fun r => ?_
  cases r with
  | error e =>
    by_cases he : e.isNotifierError = true
    · simp only [he, if_true]
      exact closes_bind (stays_port rfl) fun text => closes_fail text
    · simp only [he]
      exact fun _ _ => trivial
  | ok _ =>
    refine closes_bind (stays_port rfl) fun now => closes_bind (stays_port rfl) fun _ => ?_
    refine closes_call fun r => ?_
    cases r with
    | ok _ => trivial
    | error e =>
      show Only _ (if e.isException = true then pure () else Act.raise e : Job Unit)
      split <;> trivial

theorem closes_conclude (outcome : Except Exc DownloadResult) :
    Closes (conclude request user telegramId chatId messageId outcome) := by
  cases outcome with
  | ok result => exact closes_deliver result
  | error e =>
    unfold conclude
    by_cases he : e.isDownloadFailure = true
    · simp only [he, if_true]
      exact closes_bind (stays_port rfl) fun text => closes_fail text
    · simp only [he]
      exact fun _ _ => trivial

theorem closes_process (u : Unicode) (cfg : ProcessDownload) :
    Closes (process (cfg.withYtDlp u) request user telegramId chatId messageId) := by
  have hfetch : Closes (fetch (cfg.withYtDlp u) request user telegramId chatId messageId) := by
    unfold fetch
    refine closes_bind (stays_port rfl) fun outputDir => ?_
    refine closes_bind (stays_of_only (only_attempt ?_)) fun outcome => closes_conclude outcome
    exact only_ytDlpDownload u _ _ _ _ _ _
  unfold process
  split
  · exact hfetch
  · refine closes_bind (stays_port rfl) fun available => ?_
    split
    · exact closes_bind (stays_port rfl) fun text => closes_fail text
    · exact hfetch

theorem closes_reportCorruptedRecord (exc : Exc) (requestId userId : UUID) :
    Closes (reportCorruptedRecord exc requestId userId chatId messageId) := by
  unfold reportCorruptedRecord
  refine closes_bind (stays_port rfl) fun _ => closes_bind (stays_port rfl) fun found => ?_
  cases found with
  | none => exact fun _ _ => trivial
  | some user =>
    cases htelegram : user.telegramId with
    | none =>
      simp only [htelegram]
      exact fun _ _ => trivial
    | some telegramId =>
      simp only [htelegram]
      refine closes_call fun r => ?_
      cases r with
      | ok _ => exact only_port_bind.mpr ⟨rfl, fun _ => only_port.mpr rfl⟩
      | error e =>
        show Only _ (Act.bind (if e.isException = true then pure () else Act.raise e) _)
        split
        · exact only_port_bind.mpr ⟨rfl, fun _ => only_port.mpr rfl⟩
        · trivial

/-- A job publishes nothing after a terminal phase. -/
theorem wp_phaseOrder (u : Unicode) (cfg : ProcessDownload) (requestId : UUID) :
    wp phaseMonitor (execute (cfg.withYtDlp u) requestId chatId messageId) [] fun _ _ => True := by
  suffices h : Closes (execute (cfg.withYtDlp u) requestId chatId messageId) from h [] rfl
  unfold execute
  refine closes_bind (stays_of_only (only_attempt (only_port.mpr rfl))) fun found => ?_
  match found with
  | .error e =>
    cases e with
    | corruptedRecord column raw rid uid =>
      exact closes_reportCorruptedRecord (.corruptedRecord column raw rid uid) rid uid
    | _ => exact fun _ _ => trivial
  | .ok none => exact fun _ _ => trivial
  | .ok (some request) =>
    refine closes_bind (stays_port rfl) fun found => ?_
    cases found with
    | none => exact fun _ _ => trivial
    | some user =>
      cases htelegram : user.telegramId with
      | none =>
        simp only [htelegram]
        exact fun _ _ => trivial
      | some telegramId =>
        simp only [htelegram]
        unfold claimAndProcess
        refine closes_bind (stays_port rfl) fun claimed => ?_
        cases claimed with
        | false => exact fun _ _ => trivial
        | true =>
          intro g hg
          refine (wp_ensure _ _ _ _ _).mpr (wp_mono _ (closes_process u cfg g hg) ?_)
          intro g' r _
          refine wp_mono _ (wp_silent (only_port.mpr rfl) g') ?_
          intro g'' r' _
          cases r' <;> trivial

end ProcessDownload

end MediaDownloader
