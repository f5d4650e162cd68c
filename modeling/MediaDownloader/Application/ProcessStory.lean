import MediaDownloader.Application.ProcessDownload

/-!
# What one job tells

A job's ports may do anything: every call returns or raises, the downloader
plays any script.  Whatever they do, the calls of `execute` tell one coherent
story (`Story`):

* `wp_fail`, `wp_deliver`, `wp_fetch`, `wp_process`: each stage of a claimed
  job, from an open story to a closed one;
* `execute_story`: every complete run.
-/

namespace MediaDownloader

open Interaction

/-! ## Reading a trace -/

def isClaim : Ev → Bool
  | ⟨.claimForProcessing _, .ok true⟩ => true
  | _ => false

def isClaimOf (id : UUID) : Ev → Bool
  | ⟨.claimForProcessing id', .ok true⟩ => id' == id
  | _ => false

/-- A repository call that writes a request's status, whatever it answers. -/
def isWrite (e : Ev) : Bool :=
  match e.call with
  | .create _ => true
  | .update _ => true
  | .markFailedById _ => true
  | .claimForProcessing _ => true
  | .updateStale _ _ => true
  | _ => false

def isDoneWrite : Ev → Bool
  | ⟨.update r, .ok _⟩ => r.status == .done
  | _ => false

def isFailedWrite : Ev → Bool
  | ⟨.update r, .ok _⟩ => r.status == .failed
  | ⟨.markFailedById _, .ok _⟩ => true
  | _ => false

/-- `send_file` returned normally. -/
def isDelivery : Ev → Bool
  | ⟨.sendFile _ _, .ok _⟩ => true
  | _ => false

def isDownloaded : Ev → Bool
  | ⟨.downloadEnd (.ok _), _⟩ => true
  | _ => false

def isText (e : Ev) : Bool :=
  match e.call with
  | .sendText _ _ _ => true
  | _ => false

def isRelease (e : Ev) : Bool :=
  match e.call with
  | .release _ => true
  | _ => false

/-- Low disk, a raised `ExtractionError` or `UnsupportedURLError`, or a raised
`NotifierError`. -/
def isFailure (minFreeDiskBytes : Int) : Ev → Bool
  | ⟨.availableBytes, .ok n⟩ => minFreeDiskBytes ≠ 0 && n < minFreeDiskBytes
  | ⟨.download _ _, .error e⟩ => e.isDownloadFailure
  | ⟨.downloadEnd (.error e), _⟩ => e.isDownloadFailure
  | ⟨.sendFile _ _, .error e⟩ => e.isNotifierError
  | _ => false

/-- What follows the claim. -/
def afterClaim : Trace → Trace
  | [] => []
  | e :: t => if isClaim e then t else afterClaim t

/-- Whether a download is running, and what was published while none was. -/
def scanPhases (s : Bool × List DownloadProgress) : Ev → Bool × List DownloadProgress
  | ⟨.download _ _, .ok _⟩ => (true, s.2)
  | ⟨.downloadEnd _, _⟩ => (false, s.2)
  | ⟨.publish _ _ _ _ p, _⟩ => if s.1 then s else (s.1, s.2 ++ [p])
  | _ => s

/-- Inside `download`: what is published now is a stream event. -/
def downloading (t : Trace) : Bool := (t.foldl scanPhases (false, [])).1

/-- The phases published outside `download`. -/
def phases (t : Trace) : List DownloadProgress := (t.foldl scanPhases (false, [])).2

/-- UPLOADING at most once, then at most one of DONE and FAILED. -/
def PhaseShape (ps : List DownloadProgress) : Prop :=
  ∃ up last, ps = up ++ last ∧ (up = [] ∨ up = [phaseMarker .uploading]) ∧
    (last = [] ∨ last = [phaseMarker .done] ∨ last = [phaseMarker .failed])

/-! ## The story -/

/-- What must have happened before a call of the job for `requestId`. -/
def Warranted (requestId : UUID) (minFreeDiskBytes : Int) (u : Trace) : Call → Prop
  | .getById id => id = requestId
  | .claimForProcessing id =>
    u.any isClaim = false ∧
      ∃ request : DownloadRequest, ⟨.getById requestId, .ok (some request)⟩ ∈ u ∧ request.id = id
  | .markFailedById id =>
    u.any isClaim = false ∧ ∃ column raw userId,
      ⟨.getById requestId, .error (.corruptedRecord column raw id userId)⟩ ∈ u
  | .update r =>
    (u.any (isClaimOf r.id) = true ∧ (afterClaim u).countP isWrite = 0) ∧
      ((r.status = .done ∧ u.any isDelivery) ∨
        (r.status = .failed ∧ u.any (isFailure minFreeDiskBytes)))
  | .create _ => False
  | .selectStale _ _ => False
  | .updateStale _ _ => False
  | .publish _ _ _ _ p =>
    if downloading u then phases u = []
    else
      (p = phaseMarker .uploading ∧ u.any isDownloaded) ∨
        (p = phaseMarker .done ∧ u.any isDoneWrite) ∨
        (p = phaseMarker .failed ∧ u.any isFailedWrite)
  | .sendText _ _ _ => u.any isFailedWrite
  | .release id => u.any (isClaimOf id)
  | _ => True

/-- What holds of a complete trace beside the warrants. -/
structure Settled (t : Trace) : Prop where
  oneWrite : (afterClaim t).countP isWrite ≤ 1
  phaseShape : PhaseShape (phases t)
  oneText : t.countP isText ≤ 1
  deliveredSilently : t.any isDelivery → t.countP isText = 0
  released : t.countP isRelease = if t.any isClaim then 1 else 0

/-- The trace of a complete job. -/
structure Story (requestId : UUID) (minFreeDiskBytes : Int) (t : Trace) : Prop
    extends Settled t where
  warranted : ∀ u e v, t = u ++ e :: v → Warranted requestId minFreeDiskBytes u e.call

theorem afterClaim_append {u : Trace} (h : u.any isClaim = true) (v : Trace) :
    afterClaim (u ++ v) = afterClaim u ++ v := by
  induction u with
  | nil => simp at h
  | cons e u ih =>
    by_cases he : isClaim e = true
    · simp [afterClaim, he]
    · have hu : u.any isClaim = true := by simpa [he] using h
      simp [afterClaim, he, ih hu]

/-- Where a claimed job stands: writes and texts so far, whether the file is
delivered, whether a download runs, the phases published. -/
structure Tale (id : UUID) (writes texts : Nat) (delivered : Bool)
    (scan : Bool × List DownloadProgress) (g : Trace) : Prop where
  claimed : g.any isClaim = true
  claimedId : g.any (isClaimOf id) = true
  hwrites : (afterClaim g).countP isWrite = writes
  htexts : g.countP isText = texts
  hdelivered : g.any isDelivery = delivered
  hscan : g.foldl scanPhases (false, []) = scan
  unreleased : g.countP isRelease = 0

/-- One more event, the release apart. -/
theorem Tale.snoc {id : UUID} {w n : Nat} {d : Bool} {s : Bool × List DownloadProgress}
    {g : Trace} (h : Tale id w n d s g) (e : Ev) (he : isRelease e = false) :
    Tale id (w + if isWrite e then 1 else 0) (n + if isText e then 1 else 0)
      (d || isDelivery e) (scanPhases s e) (g ++ [e]) where
  claimed := by simp [h.claimed]
  claimedId := by simp [h.claimedId]
  hwrites := by simp [afterClaim_append h.claimed, List.countP_append, h.hwrites, List.countP_cons]
  htexts := by simp [List.countP_append, h.htexts, List.countP_cons]
  hdelivered := by simp [h.hdelivered]
  hscan := by rw [List.foldl_append, h.hscan]; rfl
  unreleased := by simp [List.countP_append, h.unreleased, he]

theorem Tale.downloading_eq {id : UUID} {w n : Nat} {d : Bool}
    {s : Bool × List DownloadProgress} {g : Trace} (h : Tale id w n d s g) :
    downloading g = s.1 := by
  rw [downloading, h.hscan]

theorem Tale.phases_eq {id : UUID} {w n : Nat} {d : Bool}
    {s : Bool × List DownloadProgress} {g : Trace} (h : Tale id w n d s g) :
    phases g = s.2 := by
  rw [phases, h.hscan]

/-- A claimed job with only the release left. -/
structure ClosedStory (id : UUID) (g : Trace) : Prop where
  claimed : g.any isClaim = true
  claimedId : g.any (isClaimOf id) = true
  oneWrite : (afterClaim g).countP isWrite ≤ 1
  phaseShape : PhaseShape (phases g)
  oneText : g.countP isText ≤ 1
  deliveredSilently : g.any isDelivery → g.countP isText = 0
  unreleased : g.countP isRelease = 0

theorem Tale.close {id : UUID} {w n : Nat} {d : Bool} {s : Bool × List DownloadProgress}
    {g : Trace} (h : Tale id w n d s g) (hw : w ≤ 1) (hn : n ≤ 1) (hd : d = true → n = 0)
    (hs : PhaseShape s.2) : ClosedStory id g where
  claimed := h.claimed
  claimedId := h.claimedId
  oneWrite := by rw [h.hwrites]; exact hw
  phaseShape := by rw [h.phases_eq]; exact hs
  oneText := by rw [h.htexts]; exact hn
  deliveredSilently := by rw [h.htexts, h.hdelivered]; exact hd
  unreleased := h.unreleased

theorem PhaseShape.nil : PhaseShape [] := ⟨[], [], rfl, .inl rfl, .inl rfl⟩

theorem PhaseShape.uploading : PhaseShape [phaseMarker .uploading] :=
  ⟨_, [], rfl, .inr rfl, .inl rfl⟩

theorem PhaseShape.done : PhaseShape [phaseMarker .uploading, phaseMarker .done] :=
  ⟨_, _, rfl, .inr rfl, .inr (.inl rfl)⟩

/-- Before DONE and FAILED: nothing, or UPLOADING. -/
def BeforeLast (ps : List DownloadProgress) : Prop := ps = [] ∨ ps = [phaseMarker .uploading]

theorem BeforeLast.shape {ps : List DownloadProgress} (h : BeforeLast ps) : PhaseShape ps := by
  rcases h with rfl | rfl
  · exact .nil
  · exact .uploading

theorem BeforeLast.failed {ps : List DownloadProgress} (h : BeforeLast ps) :
    PhaseShape (ps ++ [phaseMarker .failed]) :=
  ⟨ps, _, rfl, h, .inr (.inr rfl)⟩

theorem BeforeLast.nil_failed : PhaseShape [phaseMarker .failed] :=
  BeforeLast.failed (.inl rfl)

/-- The `finally`: whatever the outcome, one release. -/
theorem ClosedStory.release {id : UUID} {g : Trace} (h : ClosedStory id g) (id' : UUID) (r : Except Exc Unit) :
    Settled (g ++ [⟨.release id', r⟩]) where
  oneWrite := by
    rw [afterClaim_append h.claimed, List.countP_append]
    exact h.oneWrite
  phaseShape := by
    rw [phases, List.foldl_append]
    exact h.phaseShape
  oneText := by
    rw [List.countP_append]
    exact h.oneText
  deliveredSilently := by
    intro hd
    have hg : g.any isDelivery := by simpa [isDelivery] using hd
    simp [List.countP_append, h.deliveredSilently hg, isText]
  released := by
    simp [List.countP_append, h.unreleased, h.claimed, isRelease]

/-- A job that has claimed nothing. -/
structure Unclaimed (texts : Nat) (ps : List DownloadProgress) (g : Trace) : Prop where
  unclaimed : g.any isClaim = false
  nothingAfter : afterClaim g = []
  htexts : g.countP isText = texts
  undelivered : g.any isDelivery = false
  hscan : g.foldl scanPhases (false, []) = (false, ps)
  unreleased : g.countP isRelease = 0

theorem afterClaim_unclaimed {g : Trace} (h : g.any isClaim = false) (e : Ev) :
    afterClaim (g ++ [e]) = [] := by
  induction g with
  | nil =>
    by_cases he : isClaim e = true
    · simp [afterClaim, he]
    · simp [afterClaim, he]
  | cons d g ih =>
    have hd : isClaim d = false ∧ g.any isClaim = false := by simpa using h
    simp [afterClaim, hd.1, ih hd.2]

theorem Unclaimed.nil : Unclaimed 0 [] [] := ⟨rfl, rfl, rfl, rfl, rfl, rfl⟩

theorem Unclaimed.snoc {n : Nat} {ps : List DownloadProgress} {g : Trace}
    (h : Unclaimed n ps g) (qs : List DownloadProgress) (e : Ev)
    (he : isClaim e = false ∧ isDelivery e = false ∧ isRelease e = false ∧
      scanPhases (false, ps) e = (false, qs)) :
    Unclaimed (n + if isText e then 1 else 0) qs (g ++ [e]) where
  unclaimed := by simp [h.unclaimed, he.1]
  nothingAfter := afterClaim_unclaimed h.unclaimed e
  htexts := by simp [List.countP_append, h.htexts, List.countP_cons]
  undelivered := by simp [h.undelivered, he.2.1]
  hscan := by rw [List.foldl_append, h.hscan]; exact he.2.2.2
  unreleased := by simp [List.countP_append, h.unreleased, he.2.2.1]

theorem Unclaimed.settled {n : Nat} {ps : List DownloadProgress} {g : Trace}
    (h : Unclaimed n ps g) (hn : n ≤ 1) (hs : PhaseShape ps) : Settled g where
  oneWrite := by rw [h.nothingAfter]; exact Nat.zero_le _
  phaseShape := by rw [phases, h.hscan]; exact hs
  oneText := by rw [h.htexts]; exact hn
  deliveredSilently := by simp [h.undelivered]
  released := by simp [h.unreleased, h.unclaimed]

/-- The claim itself opens the story. -/
theorem Unclaimed.claim {g : Trace} (h : Unclaimed 0 [] g) (id : UUID) :
    Tale id 0 0 false (false, []) (g ++ [⟨.claimForProcessing id, .ok true⟩]) where
  claimed := by simp [isClaim]
  claimedId := by simp [isClaimOf]
  hwrites := by rw [afterClaim_unclaimed h.unclaimed]; rfl
  htexts := by simp [List.countP_append, h.htexts, isText]
  hdelivered := by simp [h.undelivered, isDelivery]
  hscan := by rw [List.foldl_append, h.hscan]; rfl
  unreleased := by simp [List.countP_append, h.unreleased, isRelease]

/-! ## The stages of a claimed job -/

section Stages

variable {jobId : UUID} {minFreeDiskBytes : Int} {g : Trace}

/-- The monitor that demands a warrant for every call. -/
abbrev storyMonitor (requestId : UUID) (minFreeDiskBytes : Int) : Monitor Call Resp Exc Trace :=
  historyMonitor (fun _ => True) (Warranted requestId minFreeDiskBytes)

namespace ProcessDownload

/-- Outside `download`, a phase needs its own reason. -/
theorem warranted_phase {requestId : UUID} {chatId messageId : Int} {language : Option Str}
    {phase : ProgressPhase} (hd : downloading g = false)
    (h : (phase = .uploading ∧ g.any isDownloaded) ∨ (phase = .done ∧ g.any isDoneWrite) ∨
      (phase = .failed ∧ g.any isFailedWrite)) :
    Warranted jobId minFreeDiskBytes g
      (.publish requestId chatId messageId language (phaseMarker phase)) := by
  unfold Warranted
  rw [hd]
  rcases h with ⟨rfl, h⟩ | ⟨rfl, h⟩ | ⟨rfl, h⟩
  · exact .inl ⟨rfl, h⟩
  · exact .inr (.inl ⟨rfl, h⟩)
  · exact .inr (.inr ⟨rfl, h⟩)

/-- Inside `download`, whatever comes is a stream event. -/
theorem warranted_stream {requestId : UUID} {chatId messageId : Int} {language : Option Str}
    {progress : DownloadProgress} (hd : downloading g = true) (hp : phases g = []) :
    Warranted jobId minFreeDiskBytes g (.publish requestId chatId messageId language progress) := by
  unfold Warranted
  rw [hd]
  exact hp

theorem wp_publishPhase {requestId : UUID} {chatId messageId : Int} {language : Option Str}
    {phase : ProgressPhase} {Q : Trace → Except Exc Unit → Prop}
    (ha : Warranted jobId minFreeDiskBytes g
      (.publish requestId chatId messageId language (phaseMarker phase)))
    (hQ : ∀ r o, Q (g ++ [⟨.publish requestId chatId messageId language (phaseMarker phase), r⟩]) o) :
    wp (storyMonitor jobId minFreeDiskBytes)
      (publishPhase requestId chatId messageId language phase) g Q := by
  unfold publishPhase
  simp only [wp_act_bind, wp_attempt, wp_port]
  refine ⟨ha, fun r _ => ?_⟩
  rcases r with e | _
  · by_cases he : e.isException = true
    · simp only [he, if_true, wp_pure]
      exact hQ _ _
    · simp only [he]
      exact hQ _ _
  · exact hQ _ _

/-- From a warranted failure: the FAILED write, its phase, its text. -/
theorem wp_fail {request : DownloadRequest} {user : User} {telegramId chatId messageId : Int}
    {text : Str} {ps : List DownloadProgress} (h : Tale request.id 0 0 false (false, ps) g)
    (hps : BeforeLast ps) (hc : g.any (isFailure minFreeDiskBytes) = true) :
    wp (storyMonitor jobId minFreeDiskBytes)
      (fail request user telegramId chatId messageId text) g fun g' _ => ClosedStory request.id g' := by
  unfold fail
  simp only [wp_act_bind, wp_port]
  refine ⟨trivial, fun r _ => ?_⟩
  have h1 := h.snoc ⟨.utcnow, r⟩ rfl
  rcases r with e | now
  · exact h1.close (Nat.zero_le _) (Nat.zero_le _) (fun hd => by cases hd) hps.shape
  have hw : Warranted jobId minFreeDiskBytes (g ++ [⟨.utcnow, .ok now⟩])
      (.update (request.markFailed now)) := by
    refine ⟨⟨h1.claimedId, h1.hwrites⟩, .inr ⟨rfl, ?_⟩⟩
    simp [hc]
  refine ⟨hw, fun r _ => ?_⟩
  have h2 := h1.snoc ⟨.update (request.markFailed now), r⟩ rfl
  rcases r with e | _
  · exact h2.close (Nat.le_refl _) (Nat.zero_le _) (fun hd => by cases hd) hps.shape
  apply wp_publishPhase
  · refine warranted_phase h2.downloading_eq (.inr (.inr ⟨rfl, ?_⟩))
    simp [isFailedWrite, DownloadRequest.markFailed]
  · intro r o
    have h3 := h2.snoc ⟨.publish request.id chatId messageId user.language
      (phaseMarker .failed), r⟩ rfl
    rcases o with e | _
    · exact h3.close (Nat.le_refl _) (Nat.zero_le _) (fun hd => by cases hd) hps.failed
    · refine ⟨?_, fun r _ => ?_⟩
      · show List.any _ _ = true
        simp [isFailedWrite, DownloadRequest.markFailed]
      · have h4 := h3.snoc ⟨.sendText request.id telegramId text, r⟩ rfl
        exact h4.close (Nat.le_refl _) (Nat.le_refl _) (fun hd => by cases hd) hps.failed

/-- From a finished download: UPLOADING, the file, DONE or a failed delivery. -/
theorem wp_deliver {request : DownloadRequest} {user : User}
    {telegramId chatId messageId : Int} {result : DownloadResult}
    (h : Tale request.id 0 0 false (false, []) g) (hd : g.any isDownloaded = true) :
    wp (storyMonitor jobId minFreeDiskBytes)
      (deliver request user telegramId chatId messageId result) g
      fun g' _ => ClosedStory request.id g' := by
  unfold deliver
  rw [wp_act_bind]
  apply wp_publishPhase
  · exact warranted_phase h.downloading_eq (.inl ⟨rfl, hd⟩)
  intro r o
  have h1 := h.snoc ⟨.publish request.id chatId messageId user.language
    (phaseMarker .uploading), r⟩ rfl
  rcases o with e | _
  · exact h1.close (Nat.zero_le _) (Nat.zero_le _) (fun hd => by cases hd) .uploading
  simp only [wp_act_bind, wp_attempt, wp_port]
  refine ⟨trivial, fun r _ => ?_⟩
  have h2 := h1.snoc ⟨.sendFile telegramId
    (DeliverableMedia.fromResult result (specKind request.spec)), r⟩ rfl
  rcases r with e | _
  · by_cases he : e.isNotifierError = true
    · simp only [he, if_true, wp_act_bind, wp_port]
      refine ⟨trivial, fun r _ => ?_⟩
      have h3 := h2.snoc ⟨.localize (str "error-delivery-failed") user.language [], r⟩ rfl
      rcases r with e' | text
      · exact h3.close (Nat.zero_le _) (Nat.zero_le _) (fun hd => by cases hd) .uploading
      · refine wp_fail h3 (.inr rfl) ?_
        simp [isFailure, he]
    · simp only [he]
      exact h2.close (Nat.zero_le _) (Nat.zero_le _) (fun hd => by cases hd) .uploading
  · simp only [wp_act_bind, wp_port]
    refine ⟨trivial, fun r _ => ?_⟩
    have h3 := h2.snoc ⟨.utcnow, r⟩ rfl
    rcases r with e | now
    · exact h3.close (Nat.zero_le _) (Nat.zero_le _) (fun _ => rfl) .uploading
    refine ⟨⟨⟨h3.claimedId, h3.hwrites⟩, .inl ⟨rfl, by simp [isDelivery]⟩⟩, fun r _ => ?_⟩
    have h4 := h3.snoc ⟨.update (request.markDone now), r⟩ rfl
    rcases r with e | _
    · exact h4.close (Nat.le_refl _) (Nat.zero_le _) (fun _ => rfl) .uploading
    apply wp_publishPhase
    · refine warranted_phase h4.downloading_eq (.inr (.inl ⟨rfl, ?_⟩))
      simp [isDoneWrite, DownloadRequest.markDone]
    · intro r o
      have h5 := h4.snoc ⟨.publish request.id chatId messageId user.language
        (phaseMarker .done), r⟩ rfl
      exact h5.close (Nat.le_refl _) (Nat.zero_le _) (fun _ => rfl) .done

/-- Stream events change nothing but the stream. -/
theorem wp_play {id requestId : UUID} {chatId messageId : Int} {language : Option Str}
    (script : DownloadScript) (h : Tale id 0 0 false (true, []) g) :
    wp (storyMonitor jobId minFreeDiskBytes)
      (script.play fun progress => port (.publish requestId chatId messageId language progress))
      g fun g' o => Tale id 0 0 false (true, []) g' ∧ ∃ r, o = .ok r := by
  induction script generalizing g with
  | finish r => exact ⟨h, r, rfl⟩
  | emit p k ih =>
    simp only [DownloadScript.play, wp_act_bind, wp_attempt, wp_port]
    refine ⟨?_, fun r _ => ?_⟩
    · show Warranted jobId minFreeDiskBytes g (.publish requestId chatId messageId language p)
      exact warranted_stream h.downloading_eq h.phases_eq
    · exact ih r (h.snoc ⟨.publish requestId chatId messageId language p, r⟩ rfl)

/-- Any downloader leaves the story open, and its outcome on record. -/
theorem wp_scriptedDownload {url : Str} {options : DownloadOptions} {id requestId : UUID}
    {chatId messageId : Int} {language : Option Str}
    (h : Tale id 0 0 false (false, []) g) :
    wp (storyMonitor jobId minFreeDiskBytes)
      (scriptedDownload url options fun progress =>
        port (.publish requestId chatId messageId language progress))
      g fun g' o => Tale id 0 0 false (false, []) g' ∧
        match o with
        | .ok _ => g'.any isDownloaded = true
        | .error e => e.isDownloadFailure = true →
            g'.any (isFailure minFreeDiskBytes) = true := by
  unfold scriptedDownload
  simp only [wp_act_bind, wp_port]
  refine ⟨trivial, fun r _ => ?_⟩
  have h1 := h.snoc ⟨.download url options, r⟩ rfl
  rcases r with e | script
  · exact ⟨h1, fun he => by simp [isFailure, he]⟩
  refine wp_mono _ (wp_play script h1) ?_
  rintro g' _ ⟨h2, result, rfl⟩
  simp only [wp_attempt, wp_port, wp_lift]
  refine ⟨trivial, fun r _ => ?_⟩
  refine ⟨h2.snoc ⟨.downloadEnd result, r⟩ rfl, ?_⟩
  rcases result with e | result
  · exact fun he => by simp [isFailure, he]
  · simp [isDownloaded]

/-- A job's ports, its downloader among them. -/
abbrev withAnyDownloader (cfg : ProcessDownload) : ProcessDownload :=
  { cfg with download := scriptedDownload }

theorem wp_fetch {cfg : ProcessDownload} {request : DownloadRequest} {user : User}
    {telegramId chatId messageId : Int} (h : Tale request.id 0 0 false (false, []) g) :
    wp (storyMonitor jobId minFreeDiskBytes)
      (fetch cfg.withAnyDownloader request user telegramId chatId messageId) g
      fun g' _ => ClosedStory request.id g' := by
  unfold fetch
  simp only [wp_act_bind, wp_attempt, wp_port]
  refine ⟨trivial, fun r _ => ?_⟩
  have h1 := h.snoc ⟨.tempDirForRequest request.id, r⟩ rfl
  rcases r with e | outputDir
  · exact h1.close (Nat.zero_le _) (Nat.zero_le _) (fun hd => by cases hd) .nil
  refine wp_mono _ (wp_scriptedDownload h1) ?_
  rintro g' o ⟨h2, ho⟩
  unfold conclude
  rcases o with e | result
  · by_cases he : e.isDownloadFailure = true
    · simp only [he, if_true, wp_act_bind, localizeFailure, wp_port]
      refine ⟨trivial, fun r _ => ?_⟩
      have h3 := h2.snoc ⟨.localize e.errorKey user.language e.errorArgs, r⟩ rfl
      rcases r with e' | text
      · exact h3.close (Nat.zero_le _) (Nat.zero_le _) (fun hd => by cases hd) .nil
      · refine wp_fail h3 (.inl rfl) ?_
        simp [ho he]
    · simp only [he]
      exact h2.close (Nat.zero_le _) (Nat.zero_le _) (fun hd => by cases hd) .nil
  · exact wp_deliver h2 ho

theorem wp_process {cfg : ProcessDownload} {request : DownloadRequest} {user : User}
    {telegramId chatId messageId : Int} (h : Tale request.id 0 0 false (false, []) g) :
    wp (storyMonitor jobId cfg.minFreeDiskBytes)
      (process cfg.withAnyDownloader request user telegramId chatId messageId) g
      fun g' _ => ClosedStory request.id g' := by
  unfold process
  by_cases hz : cfg.minFreeDiskBytes = 0
  · rw [if_pos hz]
    exact wp_fetch h
  rw [if_neg hz]
  simp only [wp_act_bind, wp_port]
  refine ⟨trivial, fun r _ => ?_⟩
  have h1 := h.snoc ⟨.availableBytes, r⟩ rfl
  rcases r with e | available
  · exact h1.close (Nat.zero_le _) (Nat.zero_le _) (fun hd => by cases hd) .nil
  by_cases hlow : available < cfg.minFreeDiskBytes
  · simp only [if_pos hlow, localizeFailure, wp_act_bind, wp_port]
    refine ⟨trivial, fun r _ => ?_⟩
    have h2 := h1.snoc ⟨.localize Exc.insufficientStorage.errorKey user.language
      Exc.insufficientStorage.errorArgs, r⟩ rfl
    rcases r with e' | text
    · exact h2.close (Nat.zero_le _) (Nat.zero_le _) (fun hd => by cases hd) .nil
    · refine wp_fail h2 (.inl rfl) ?_
      simp [isFailure, hz, hlow]
  · simp only [if_neg hlow]
    exact wp_fetch h1

theorem wp_claimAndProcess {cfg : ProcessDownload} {request : DownloadRequest} {user : User}
    {telegramId chatId messageId : Int} (h : Unclaimed 0 [] g)
    (hread : ⟨.getById jobId, .ok (some request)⟩ ∈ g) :
    wp (storyMonitor jobId cfg.minFreeDiskBytes)
      (claimAndProcess cfg.withAnyDownloader request user telegramId chatId messageId) g
      fun g' _ => Settled g' := by
  unfold claimAndProcess
  simp only [wp_act_bind, wp_port]
  refine ⟨⟨h.unclaimed, request, hread, rfl⟩, fun r _ => ?_⟩
  rcases r with e | (_ | _)
  · exact (h.snoc [] ⟨.claimForProcessing request.id, .error e⟩ ⟨rfl, rfl, rfl, rfl⟩).settled
      (Nat.zero_le _) .nil
  · exact (h.snoc [] ⟨.claimForProcessing request.id, .ok false⟩ ⟨rfl, rfl, rfl, rfl⟩).settled
      (Nat.zero_le _) .nil
  · refine (wp_ensure _ _ _ _ _).mpr (wp_mono _ (wp_process (h.claim request.id)) ?_)
    intro g' r hc
    refine ⟨hc.claimedId, fun r' _ => ?_⟩
    have hs := hc.release request.id r'
    cases r' <;> exact hs

/-- The recovery for an unreadable row claims nothing. -/
theorem wp_reportCorruptedRecord {exc : Exc} {requestId userId : UUID} {chatId messageId : Int}
    (h : Unclaimed 0 [] g)
    (hread : ∃ column raw, ⟨.getById jobId, .error (.corruptedRecord column raw requestId userId)⟩ ∈ g) :
    wp (storyMonitor jobId minFreeDiskBytes)
      (reportCorruptedRecord exc requestId userId chatId messageId) g
      fun g' _ => Settled g' := by
  unfold reportCorruptedRecord
  simp only [wp_act_bind, wp_port]
  obtain ⟨column, raw, hread⟩ := hread
  refine ⟨⟨h.unclaimed, column, raw, userId, hread⟩, fun r _ => ?_⟩
  have h1 := h.snoc [] ⟨.markFailedById requestId, r⟩ ⟨rfl, rfl, rfl, rfl⟩
  rcases r with e | _
  · exact h1.settled (Nat.zero_le _) .nil
  refine ⟨trivial, fun r _ => ?_⟩
  have h2 := h1.snoc [] ⟨.userGetById userId, r⟩ ⟨rfl, rfl, rfl, rfl⟩
  rcases r with e | (_ | user)
  · exact h2.settled (Nat.zero_le _) .nil
  · exact h2.settled (Nat.zero_le _) .nil
  · cases ht : user.telegramId with
    | none =>
      simp only [ht]
      exact h2.settled (Nat.zero_le _) .nil
    | some telegramId =>
      simp only [ht, wp_act_bind]
      apply wp_publishPhase
      · refine warranted_phase (by rw [downloading]; exact congrArg Prod.fst h2.hscan) ?_
        exact .inr (.inr ⟨rfl, by simp [isFailedWrite]⟩)
      intro r o
      have h3 := h2.snoc [phaseMarker .failed]
        ⟨.publish requestId chatId messageId user.language (phaseMarker .failed), r⟩
        ⟨rfl, rfl, rfl, rfl⟩
      rcases o with e | _
      · exact h3.settled (Nat.zero_le _) BeforeLast.nil_failed
      simp only [wp_port]
      refine ⟨trivial, fun r _ => ?_⟩
      have h4 := h3.snoc [phaseMarker .failed]
        ⟨.localize exc.errorKey user.language [], r⟩ ⟨rfl, rfl, rfl, rfl⟩
      rcases r with e | text
      · exact h4.settled (Nat.zero_le _) BeforeLast.nil_failed
      refine ⟨?_, fun r _ => ?_⟩
      · show List.any _ _ = true
        simp [isFailedWrite]
      · have h5 := h4.snoc [phaseMarker .failed]
          ⟨.sendText requestId telegramId text, r⟩ ⟨rfl, rfl, rfl, rfl⟩
        exact h5.settled (Nat.le_refl _) BeforeLast.nil_failed

theorem wp_execute (cfg : ProcessDownload) (requestId : UUID) (chatId messageId : Int) :
    wp (storyMonitor requestId cfg.minFreeDiskBytes)
      (execute cfg.withAnyDownloader requestId chatId messageId) []
      fun g' _ => Settled g' := by
  unfold execute
  simp only [wp_act_bind, wp_attempt, wp_port]
  refine ⟨rfl, fun r _ => ?_⟩
  have h1 := Unclaimed.nil.snoc [] ⟨.getById requestId, r⟩ ⟨rfl, rfl, rfl, rfl⟩
  rcases r with e | (_ | request)
  · cases e with
    | corruptedRecord column raw rid uid =>
      exact wp_reportCorruptedRecord h1 ⟨column, raw, List.mem_singleton.mpr rfl⟩
    | _ => exact h1.settled (Nat.zero_le _) .nil
  · exact h1.settled (Nat.zero_le _) .nil
  · simp only [wp_act_bind, wp_port]
    refine ⟨trivial, fun r _ => ?_⟩
    have h2 := h1.snoc [] ⟨.userGetById request.userId, r⟩ ⟨rfl, rfl, rfl, rfl⟩
    rcases r with e | (_ | user)
    · exact h2.settled (Nat.zero_le _) .nil
    · exact h2.settled (Nat.zero_le _) .nil
    · cases ht : user.telegramId with
      | none =>
        simp only [ht]
        exact h2.settled (Nat.zero_le _) .nil
      | some telegramId =>
        simp only [ht]
        exact wp_claimAndProcess h2 List.mem_cons_self

/-- Whatever the ports do, a job tells one coherent story: at most one status
write after the claim and each with its cause, the phases in order and after
their writes, at most one text and none after a delivery, and one release
exactly when the claim returned `True`. -/
theorem execute_story (cfg : ProcessDownload) (requestId : UUID) (chatId messageId : Int)
    {t : Trace} {r : Except Exc Unit}
    (h : Runs (execute cfg.withAnyDownloader requestId chatId messageId) t r) :
    Story requestId cfg.minFreeDiskBytes t := by
  have hw := wp_execute cfg requestId chatId messageId
  have hs : Settled t := historyMonitor_post hw h fun _ _ => trivial
  exact { hs with warranted := fun u e v ht => historyMonitor_made hw h (fun _ _ => trivial) ht }

/-- A delivered mp3: one event, UPLOADING, the file, DONE, the release. -/
theorem execute_story_delivered :
    let request := DownloadRequest.create 1 0 2 (str "https://example.com/v") .audio
    let user := User.createFromTelegram 2 0 77 none
    let result : DownloadResult := ⟨str "/tmp/1/v.mp3", none, none, some 10, none, none⟩
    Story 1 0
      [⟨.getById 1, .ok (some request)⟩, ⟨.userGetById 2, .ok (some user)⟩,
        ⟨.claimForProcessing 1, .ok true⟩, ⟨.tempDirForRequest 1, .ok (str "/tmp/1")⟩,
        ⟨.download (str "https://example.com/v") ⟨str "/tmp/1", some 50, 60, .audio⟩,
          .ok (.emit (phaseMarker .converting) fun _ => .finish (.ok result))⟩,
        ⟨.publish 1 10 20 none (phaseMarker .converting), .ok ()⟩,
        ⟨.downloadEnd (.ok result), .ok ()⟩,
        ⟨.publish 1 10 20 none (phaseMarker .uploading), .ok ()⟩,
        ⟨.sendFile 77 (DeliverableMedia.fromResult result .audio), .ok ()⟩,
        ⟨.utcnow, .ok 5⟩, ⟨.update (request.markProcessing.markDone 5), .ok ()⟩,
        ⟨.publish 1 10 20 none (phaseMarker .done), .ok ()⟩, ⟨.release 1, .ok ()⟩] := by
  intro request user result
  refine @execute_story ⟨scriptedDownload, 50, 60, 0⟩ 1 10 20 _ (.ok ()) ?_
  exact .call (.call (.call (.call (.call (.call (.call (.call (.call (.call (.call (.call (.call
    (.done _)))))))))))))

end ProcessDownload

end Stages

end MediaDownloader
