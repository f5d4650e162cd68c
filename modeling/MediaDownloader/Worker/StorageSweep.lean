import MediaDownloader.Infrastructure.LocalFileStorage
import MediaDownloader.Worker.TerminalStatuses

/-!
# The sweep and the live jobs

Jobs, bots and reapers run as in `RequestSystem`, now with a disk under them:
a job opens and releases the directory of its request, its child writes at any
time, a crash leaves the directory behind, and the cron sweeps it.

* `project_reach`: beside the disk, nothing is new;
* `base_step`: whatever a step does, no entry looks older than before;
* `sweep_spares_live`: no live job loses its directory, provided that none
  claimed its request over a directory older than the grace;
* `stale_claim_swept`: one that did can lose it;
* `sweep_deletes_live`: a retry of a crashed job, reusing its directory.
-/

namespace MediaDownloader

open Interaction

/-- `RequestSystem`'s world, and what is in `base_dir`. -/
structure StorageWorld extends World where
  base : List DiskEntry

/-- What a call does to `base_dir`. -/
inductive OnDisk (w : StorageWorld) : (c : Call) → Except Exc (Resp c) → List DiskEntry → Prop
  | opened {id : UUID} {path : Str} {base : List DiskEntry} :
      LocalFileStorage.tempDirForRequest w.base id w.now = .ok base →
      OnDisk w (.tempDirForRequest id) (.ok path) base
  | unopened {id : UUID} (e : Exc) : OnDisk w (.tempDirForRequest id) (.error e) w.base
  | released {id : UUID} (r : Except Exc Unit) {left : Option DiskEntry} :
      (∀ entry ∈ w.base, entry.name = .request id → entry.Left w.now left) →
      OnDisk w (.release id) r (LocalFileStorage.release w.base id left)
  | elsewhere {c : Call} (r : Except Exc (Resp c)) : (∀ id, c ≠ .tempDirForRequest id) →
      (∀ id, c ≠ .release id) → OnDisk w c r w.base

theorem OnDisk.of_claim {w : StorageWorld} {id : UUID} {r : Except Exc Bool}
    {base : List DiskEntry} (h : OnDisk w (.claimForProcessing id) r base) : base = w.base := by
  cases h
  rfl

/-- What happens by itself: time passes, somebody's child writes, the sweep ticks. -/
inductive StorageDrift (d : Deployment) (w : StorageWorld) : StorageWorld → Prop
  | clock {now : Time} : w.now ≤ now → StorageDrift d w { w with now := now }
  | write {before after : List DiskEntry} {entry entry' : DiskEntry} :
      w.base = before ++ entry :: after → entry.Change w.now entry' →
      StorageDrift d w { w with base := before ++ entry' :: after }
  | make {name : EntryName} : (∀ entry ∈ w.base, entry.name ≠ name) →
      StorageDrift d w { w with base := w.base ++ [.newDir name w.now] }
  | sweep {left : DiskEntry → Option DiskEntry} :
      (∀ entry ∈ w.base, entry.Left w.now (left entry)) →
      StorageDrift d w { w with
        base := (LocalFileStorage.cleanupExpired w.base w.now d.reaper.staleAfter left).1 }

def storageSystem (d : Deployment) : System Call Resp Exc Actor StorageWorld where
  code := Actor.code d
  start w k := (requestSystem d).start w.toWorld k
  answer w _ c r w' := Served w.toWorld c r w'.toWorld ∧ OnDisk w c r w'.base
  drift := StorageDrift d

abbrev StorageConf := Conf Call Resp Exc Actor StorageWorld

/-- A run of the job `start` on the request `id`, inside its time and with more
to do, that has been granted the claim. -/
def LiveClaim (d : Deployment) (c : StorageConf) (start : Time) (id : UUID) : Prop :=
  ∃ (i : Nat) (th : ActorThread), c.threads[i]? = some th ∧
    LiveJob d c.shared.toWorld th start id ∧ ⟨.claimForProcessing id, .ok true⟩ ∈ th.trace

/-- A tick now takes the directory of the request `id` for left behind. -/
def Sweeps (d : Deployment) (w : StorageWorld) (id : UUID) : Prop :=
  ∃ entry ∈ w.base, entry.name = .request id ∧
    LocalFileStorage.isExpired w.now d.reaper.staleAfter entry = true

/-- A claim is granted to a job only over a directory that is not there, or that
was active no longer than the grace before the job's start. -/
def FreshClaims (d : Deployment) (c : StorageConf) (l : ActorLabel) (_ : StorageConf) : Prop :=
  ∀ i th start id chatId messageId, l = .call i ⟨.claimForProcessing id, .ok true⟩ →
    c.threads[i]? = some th → th.kind = .job start id chatId messageId →
    ∀ entry ∈ c.shared.base, entry.name = .request id →
      start ≤ entry.lastActivity + d.reaper.grace

section Project

variable {d : Deployment} {c c' : StorageConf} {l : ActorLabel}

/-- Without the disk. -/
def Conf.project (c : StorageConf) : Actors := ⟨c.shared.toWorld, c.threads⟩

theorem project_drift {w w' : StorageWorld} (h : StorageDrift d w w') :
    (requestSystem d).drift w.toWorld w'.toWorld := by
  cases h with
  | clock hn => exact ⟨_, hn, rfl⟩
  | write _ _ => exact ⟨w.now, Int.le_refl _, rfl⟩
  | make _ => exact ⟨w.now, Int.le_refl _, rfl⟩
  | sweep _ => exact ⟨w.now, Int.le_refl _, rfl⟩

theorem project_step (h : Step (storageSystem d) c l c') :
    Step (requestSystem d) (Conf.project c) l (Conf.project c') := by
  cases h with
  | start hs => exact .start hs
  | call hi hcr hp ha => exact .call hi hcr hp ha.1
  | crash hi => exact .crash hi
  | drift hd => exact .drift (project_drift hd)

theorem project_reach {A : StorageConf → ActorLabel → StorageConf → Prop} {c₀ : StorageConf}
    (h : Reach (storageSystem d) A c₀ c) :
    Reach (requestSystem d) (fun _ _ _ => True) (Conf.project c₀) (Conf.project c) := by
  induction h with
  | refl => exact .refl
  | tail _ hstep _ ih => exact .tail ih (project_step hstep) trivial

end Project

/-! ## No entry looks older than before -/

/-- An entry of the base directory after something happened at `now`. -/
def Kept (base : List DiskEntry) (now : Time) (entry : DiskEntry) : Prop :=
  (∃ old ∈ base, old.Ages now entry) ∨ now ≤ entry.lastActivity

theorem kept_of_mem {base : List DiskEntry} {now : Time} {entry : DiskEntry}
    (h : entry ∈ base) : Kept base now entry :=
  .inl ⟨entry, h, rfl, .inl rfl⟩

theorem kept_of_call {w : StorageWorld} {cl : Call} {r : Except Exc (Resp cl)}
    {base : List DiskEntry} (h : OnDisk w cl r base) {entry : DiskEntry} (he : entry ∈ base) :
    Kept w.base w.now entry := by
  cases h with
  | opened ho =>
    rcases LocalFileStorage.tempDirForRequest_mem ho he with he | he
    · exact kept_of_mem he
    · exact .inr he
  | unopened _ => exact kept_of_mem he
  | released _ hleft => exact .inl (LocalFileStorage.release_mem hleft he)
  | elsewhere _ _ _ => exact kept_of_mem he

theorem kept_of_drift {d : Deployment} {w w' : StorageWorld} (h : StorageDrift d w w')
    {entry : DiskEntry} (he : entry ∈ w'.base) : Kept w.base w.now entry := by
  cases h with
  | clock _ => exact kept_of_mem he
  | @write before after old new hbase hchange =>
    have hold : old ∈ w.base := by
      rw [hbase]
      exact List.mem_append_right _ List.mem_cons_self
    rcases List.mem_append.mp he with he | he
    · refine kept_of_mem ?_
      rw [hbase]
      exact List.mem_append_left _ he
    · rcases List.mem_cons.mp he with rfl | he
      · exact .inl ⟨old, hold, hchange.name_eq, .inr hchange.now_le⟩
      · refine kept_of_mem ?_
        rw [hbase]
        exact List.mem_append_right _ (List.mem_cons_of_mem _ he)
  | make _ =>
    rcases List.mem_append.mp he with he | he
    · exact kept_of_mem he
    · right
      rw [List.mem_singleton.mp he]
      exact Int.le_refl _
  | sweep hleft => exact .inl (LocalFileStorage.cleanupExpired_mem hleft he)

section Steps

variable {d : Deployment} {c c' : StorageConf} {l : ActorLabel}

theorem base_step (h : Step (storageSystem d) c l c') {entry : DiskEntry}
    (he : entry ∈ c'.shared.base) : Kept c.shared.base c.shared.now entry := by
  rcases h.shared_cases with hs | ⟨-, hd⟩ | ⟨i, th, e, -, hcall⟩
  · rw [hs] at he
    exact kept_of_mem he
  · exact kept_of_drift hd he
  · have hserved : Served c.shared.toWorld e.call e.resp c'.shared.toWorld ∧
        OnDisk c.shared e.call e.resp c'.shared.base := hcall.answer
    exact kept_of_call hserved.2 he

/-- The directory of every job that holds a claim was active since the job's
start, or not long before. -/
def Covered (d : Deployment) (c : StorageConf) : Prop :=
  ∀ (i : Nat) (th : ActorThread), c.threads[i]? = some th →
    ∀ start id chatId messageId, th.kind = .job start id chatId messageId →
      ⟨.claimForProcessing id, .ok true⟩ ∈ th.trace →
      ∀ entry ∈ c.shared.base, entry.name = .request id →
        start ≤ entry.lastActivity + d.reaper.grace

/-- What is covered stays covered, whatever happens on the disk. -/
theorem covered_kept {start : Time} {id : UUID} {entry : DiskEntry} (hnow : start ≤ c.shared.now)
    (h : ∀ entry ∈ c.shared.base, entry.name = .request id →
      start ≤ entry.lastActivity + d.reaper.grace)
    (hk : Kept c.shared.base c.shared.now entry) (hn : entry.name = .request id) :
    start ≤ entry.lastActivity + d.reaper.grace := by
  have hgrace := d.reaper.grace_pos
  rcases hk with ⟨old, hold, hname, rfl | hlate⟩ | hlate
  · exact h _ hold hn
  · simp only [Time] at *
    omega
  · simp only [Time] at *
    omega

theorem Covered.step (hc : Covered d c) (hs : Sound d (Conf.project c))
    (hA : FreshClaims d c l c') (h : Step (storageSystem d) c l c') : Covered d c' := by
  intro j th' hj start id chatId messageId hkind hclaim entry he hname
  obtain ⟨th, hk, ⟨hi, hold⟩ | ⟨hl, hcall⟩⟩ := h.event_cases hj hclaim
  · have hkind' : th.kind = .job start id chatId messageId := hk ▸ hkind
    have hnow : start ≤ c.shared.now := (hs.onTime j th hi).2 _ _ _ _ hkind'
    exact covered_kept hnow (hc j th hi _ _ _ _ hkind' hold) (base_step h he) hname
  · have hkind' : th.kind = .job start id chatId messageId := hk ▸ hkind
    have hnow : start ≤ c.shared.now := (hs.onTime j th hcall.thread).2 _ _ _ _ hkind'
    exact covered_kept hnow (hA j th start id chatId messageId hl hcall.thread hkind')
      (base_step h he) hname

theorem Covered.reach {c₀ : StorageConf} (h : Reach (storageSystem d) (FreshClaims d) c₀ c)
    (h0 : c₀.threads = []) : Sound d (Conf.project c) ∧ Covered d c := by
  induction h with
  | refl =>
    exact ⟨Sound.init h0, fun _ _ hi => absurd hi (Conf.not_started h0)⟩
  | tail _ hstep hA ih =>
    obtain ⟨hs, hc⟩ := ih
    exact ⟨hs.step (project_step hstep), hc.step hs hA hstep⟩

theorem isExpired_iff {now : Time} {entry : DiskEntry} :
    LocalFileStorage.isExpired now d.reaper.staleAfter entry = true ↔
      d.reaper.jobTimeout + d.reaper.grace < now - entry.lastActivity := by
  unfold LocalFileStorage.isExpired ReapStaleRequests.staleAfter
  rw [Bool.not_eq_true', decide_eq_false_iff_not]
  exact Int.not_le

/-- A granted claim leaves the clock and the disk, and its job running. -/
theorem claim_step {i : Nat} {id : UUID}
    (h : Step (storageSystem d) c (.call i ⟨.claimForProcessing id, .ok true⟩) c')
    {th' : ActorThread} (hj : c'.threads[i]? = some th') :
    th'.crashed = false ∧ c'.shared.now = c.shared.now ∧ c'.shared.base = c.shared.base := by
  rcases h.thread_cases hj with ⟨_, -, -, -, -, -, hl⟩ | ⟨_, hl, -, -⟩ | ⟨th, e, f, hl, hcall, -, rfl⟩
  · exact absurd rfl (hl _)
  · cases hl
  · cases hl
    have hserved : Served c.shared.toWorld (.claimForProcessing id) (.ok true) c'.shared.toWorld ∧
        OnDisk c.shared (.claimForProcessing id) (.ok true) c'.shared.base := hcall.answer
    exact ⟨hcall.running, hserved.1.now_eq, hserved.2.of_claim⟩

/-- While claims are fresh, no tick takes the directory of a live job. -/
theorem sweep_spares_live (d : Deployment) {c₀ c : StorageConf} (h0 : c₀.threads = [])
    (h : Reach (storageSystem d) (FreshClaims d) c₀ c) {id : UUID}
    (hsweep : Sweeps d c.shared id) : ∀ start, ¬ LiveClaim d c start id := by
  rintro start ⟨i, th, hi, hlive, hclaim⟩
  obtain ⟨entry, he, hname, hexp⟩ := hsweep
  obtain ⟨-, hcovered⟩ := Covered.reach h h0
  obtain ⟨chatId, messageId, hkind⟩ := hlive.kind
  have hstart := hcovered i th hi start id chatId messageId hkind hclaim entry he hname
  have hin : c.shared.now ≤ start + d.reaper.jobTimeout := hlive.inTime
  have hage := isExpired_iff.mp hexp
  simp only [Time] at *
  omega

/-! ## An old directory -/

/-- A job that has just been granted its claim has not finished: it has not
released its directory. -/
theorem claimed_unfinished {c : Actors} (hs : Sound d c) {i : Nat} {th : ActorThread}
    (hi : c.threads[i]? = some th) {start : Time} {id : UUID} {chatId messageId : Int}
    (hk : th.kind = .job start id chatId messageId) {g : Trace}
    (ht : th.trace = g ++ [⟨.claimForProcessing id, .ok true⟩]) : ¬ th.Finished := by
  intro hfin
  have hsteps := hs.coded i th hi
  rw [hk, hfin] at hsteps
  have hw := (wp_map _ _ (fun _ => ()) _ fun g _ => Settled g).mpr
    (ProcessDownload.wp_execute d.jobs id chatId messageId)
  have hsettled : Settled th.trace := historyMonitor_post hw hsteps fun _ _ => trivial
  have hone : g.countP isRelease = 1 := by
    have hr := hsettled.released
    rw [ht] at hr
    simpa [isClaim, isRelease] using hr
  obtain ⟨e, he, hrel⟩ := List.countP_pos_iff.mp (by omega : 0 < g.countP isRelease)
  obtain ⟨u, v, hg⟩ := List.append_of_mem he
  have hclaim : Warranted id d.jobs.minFreeDiskBytes g (.claimForProcessing id) :=
    historyMonitor_made hw hsteps (fun _ _ => trivial) ht
  have hbefore : Warranted id d.jobs.minFreeDiskBytes u e.call :=
    historyMonitor_made hw hsteps (fun _ _ => trivial)
      (v := v ++ [⟨.claimForProcessing id, .ok true⟩]) (by rw [ht, hg]; simp)
  obtain ⟨cl, r⟩ := e
  cases cl with
  | release id' =>
    have hany : u.any (isClaimOf id') = true := hbefore
    rw [any_isClaimOf_iff] at hany
    have hmem : (⟨.claimForProcessing id', .ok true⟩ : Ev) ∈ g := by
      rw [hg]
      exact List.mem_append_left _ hany
    have hnone := List.any_eq_false.mp hclaim.1 _ hmem
    exact hnone rfl
  | _ => cases hrel

/-- A claim granted in time over a directory that was quiet for longer than the
grace before the job's start: at the job's deadline a tick takes the directory,
and the job is alive. -/
theorem stale_claim_swept {c₀ : StorageConf} (h0 : c₀.threads = [])
    {A : StorageConf → ActorLabel → StorageConf → Prop} (h : Reach (storageSystem d) A c₀ c)
    {i : Nat} {th : ActorThread} {start : Time} {id : UUID} {chatId messageId : Int}
    (hstep : Step (storageSystem d) c (.call i ⟨.claimForProcessing id, .ok true⟩) c')
    (hi : c.threads[i]? = some th) (hk : th.kind = .job start id chatId messageId)
    (hin : c.shared.now ≤ start + d.reaper.jobTimeout) {entry : DiskEntry}
    (he : entry ∈ c.shared.base) (hn : entry.name = .request id)
    (hold : entry.lastActivity + d.reaper.grace < start) :
    ∃ c'', Step (storageSystem d) c' .drift c'' ∧ Sweeps d c''.shared id ∧
      LiveClaim d c'' start id := by
  have hs := (Sound.reach (project_reach h) h0).step (project_step hstep)
  obtain ⟨th₁, th', hi₁, hj, hk', ht⟩ := hstep.caller
  rw [hi] at hi₁
  cases hi₁
  have hunfinished := claimed_unfinished hs hj (hk'.trans hk) ht
  obtain ⟨hrun, hnow, hbase⟩ := claim_step hstep hj
  refine ⟨⟨{ c'.shared with now := start + d.reaper.jobTimeout }, c'.threads⟩,
    .drift (.clock (hnow ▸ hin)), ⟨entry, hbase ▸ he, hn, ?_⟩, i, th', hj,
    ⟨⟨chatId, messageId, hk'.trans hk⟩, hrun, hunfinished, Int.le_refl _⟩, ?_⟩
  · rw [isExpired_iff]
    simp only [Time] at *
    omega
  · rw [ht]
    exact List.mem_append_right _ (List.mem_singleton.mpr rfl)

end Steps

/-! ## A retry -/

/-- A job makes no call after `job_timeout` from its start. -/
def Punctual (d : Deployment) (c : StorageConf) (l : ActorLabel) (_ : StorageConf) : Prop :=
  ∀ i e th start id chatId messageId, l = .call i e → c.threads[i]? = some th →
    th.kind = .job start id chatId messageId → c.shared.now ≤ start + d.reaper.jobTimeout

namespace RetriedJob

open LostReply (deployment created sender)

def first : Actor := .job 0 1 10 20

def retry : Actor := .job 1810 1 10 20

def claimed : Table := created.effect 0 (.claimForProcessing 1)

def reclaimed : Table := claimed.effect 1810 (.claimForProcessing 1)

def dir : DiskEntry := .newDir (.request 1) 0

/-- The requested file, the queue's job, and an empty disk. -/
def world : StorageWorld := ⟨⟨0, created, [(1, 10, 20)]⟩, []⟩

/-- From the read to the directory. -/
def opens (request : DownloadRequest) : Trace :=
  [⟨.getById 1, .ok (some request)⟩, ⟨.userGetById 2, .ok (some sender)⟩,
    ⟨.claimForProcessing 1, .ok true⟩, ⟨.tempDirForRequest 1, .ok (str "/tmp/1")⟩]

theorem opens_steps (start : Time) (request : DownloadRequest) (hu : request.userId = 2)
    (hid : request.id = 1) : ∃ q, Steps (Actor.code deployment (.job start 1 10 20))
      (opens request) q ∧ q ≠ .ret () := by
  obtain ⟨id, userId, sourceUrl, mediaType, status, spec, createdAt, completedAt⟩ := request
  subst hu hid
  exact ⟨_, .call (.call (.call (.call (.done _)))), by rintro ⟨⟩⟩

theorem answers_cons {d : Deployment} {k : Actor} {w w'' : StorageWorld} {w' : World}
    {base : List DiskEntry} {cl : Call} {r : Except Exc (Resp cl)} {t : Trace}
    (hs : Served w.toWorld cl r w') (ho : OnDisk w cl r base)
    (h : Answers (storageSystem d) k ⟨w', base⟩ t w'') :
    Answers (storageSystem d) k w (⟨cl, r⟩ :: t) w'' := by
  have ha : (storageSystem d).answer w k cl r ⟨w', base⟩ := ⟨hs, ho⟩
  exact .cons ha h

theorem first_answers : Answers (storageSystem deployment) first world
    (opens LostReply.request) ⟨⟨0, claimed, [(1, 10, 20)]⟩, [dir]⟩ :=
  answers_cons (.reply (fun _ => false) rfl rfl) (.elsewhere _ (by simp) (by simp))
    (answers_cons (.elsewhere _ rfl (by simp) rfl) (.elsewhere _ (by simp) (by simp))
      (answers_cons (.reply (fun _ => false) rfl rfl) (.elsewhere _ (by simp) (by simp))
        (answers_cons (.elsewhere _ rfl (by simp) rfl) (.opened rfl) (.nil _))))

/-- The directory is there already, and stays as it is. -/
theorem retry_answers : Answers (storageSystem deployment) retry
    ⟨⟨1810, claimed, [(1, 10, 20)]⟩, [dir]⟩ (opens LostReply.request.markProcessing)
    ⟨⟨1810, reclaimed, [(1, 10, 20)]⟩, [dir]⟩ :=
  answers_cons (.reply (fun _ => false) rfl rfl) (.elsewhere _ (by simp) (by simp))
    (answers_cons (.elsewhere _ rfl (by simp) rfl) (.elsewhere _ (by simp) (by simp))
      (answers_cons (.reply (fun _ => false) rfl rfl) (.elsewhere _ (by simp) (by simp))
        (answers_cons (.elsewhere _ rfl (by simp) rfl) (.opened rfl) (.nil _))))

/-- A job that calls at the moment it started. -/
theorem punctual_call {c c' : StorageConf} {i : Nat} {e : Ev} {th : ActorThread} {start : Time}
    (hnow : c.shared.now = start) (hi : c.threads[i]? = some th)
    (hk : th.kind = .job start 1 10 20) : Punctual deployment c (.call i e) c' := by
  rintro _ _ th' start' id chatId messageId ⟨rfl⟩ hi' hk'
  rw [hi] at hi'
  cases hi'
  rw [hk] at hk'
  cases hk'
  have hT := deployment.reaper.jobTimeout_nonneg
  simp only [Time] at *
  omega

theorem keeps_clock (now : Time) (w : StorageWorld) (k : Actor) (cl : Call)
    (r : Except Exc (Resp cl)) (w' : StorageWorld) (hnow : w.now = now)
    (h : (storageSystem deployment).answer w k cl r w') : w'.now = now :=
  answer_keeps_time deployment now w.toWorld k cl r w'.toWorld hnow h.1

/-- No entry is older than the clock's zero. -/
def Young (w : StorageWorld) : Prop := w.now = 0 ∧ ∀ entry ∈ w.base, 0 ≤ entry.lastActivity

theorem keeps_young (w : StorageWorld) (k : Actor) (cl : Call) (r : Except Exc (Resp cl))
    (w' : StorageWorld) (hw : Young w) (h : (storageSystem deployment).answer w k cl r w') :
    Young w' := by
  refine ⟨keeps_clock 0 w k cl r w' hw.1 h, fun entry he => ?_⟩
  rcases kept_of_call h.2 he with ⟨old, hold, -, rfl | hlate⟩ | hlate
  · exact hw.2 _ hold
  · rwa [hw.1] at hlate
  · rwa [hw.1] at hlate

/-- Over a young directory, a claim at time zero is fresh. -/
theorem fresh_call {c c' : StorageConf} {i : Nat} {e : Ev} {th : ActorThread}
    (hw : Young c.shared) (hi : c.threads[i]? = some th) (hk : th.kind = first) :
    FreshClaims deployment c (.call i e) c' := by
  rintro _ th' start id chatId messageId ⟨rfl⟩ hi' hk' entry he -
  rw [hi] at hi'
  cases hi'
  rw [hk] at hk'
  cases hk'
  have hyoung := hw.2 entry he
  have hgrace := deployment.reaper.grace_pos
  simp only [Time] at *
  omega

/-- The first run opens its directory and crashes. -/
theorem crashed_reach : ∃ q, Reach (storageSystem deployment)
    (fun c l c' => Punctual deployment c l c' ∧ FreshClaims deployment c l c') ⟨world, []⟩
    ⟨⟨⟨0, claimed, [(1, 10, 20)]⟩, [dir]⟩, [⟨first, q, opens LostReply.request, true⟩]⟩ := by
  obtain ⟨q, hq, -⟩ := opens_steps 0 LostReply.request rfl rfl
  refine ⟨q, ?_⟩
  have hstart : Step (storageSystem deployment) ⟨world, []⟩ (.start first)
      ⟨world, [Thread.new (storageSystem deployment) first]⟩ :=
    .start ⟨rfl, List.mem_singleton.mpr rfl⟩
  have hA : Punctual deployment ⟨world, []⟩ (.start first)
        ⟨world, [Thread.new (storageSystem deployment) first]⟩ ∧
      FreshClaims deployment ⟨world, []⟩ (.start first)
        ⟨world, [Thread.new (storageSystem deployment) first]⟩ := by
    constructor
    · rintro _ _ _ _ _ _ _ ⟨⟩
    · rintro _ _ _ _ _ _ ⟨⟩
  have h0 := (@Reach.refl _ _ _ _ _ (storageSystem deployment)
    (fun c l c' => Punctual deployment c l c' ∧ FreshClaims deployment c l c') _).tail hstart hA
  have h1 := h0.runThread (i := 0) Young keeps_young
    (fun c th e c' hw hi hk _ => ⟨punctual_call hw.1 hi hk, fresh_call hw hi hk⟩)
    ⟨rfl, fun _ he => by cases he⟩ rfl hq first_answers
  have hth : ([⟨first, q, opens LostReply.request, false⟩] : List ActorThread)[0]? =
      some ⟨first, q, opens LostReply.request, false⟩ := rfl
  have hcrash := @Step.crash Call Resp Exc Actor StorageWorld (storageSystem deployment)
    ⟨⟨⟨0, claimed, [(1, 10, 20)]⟩, [dir]⟩, [⟨first, q, opens LostReply.request, false⟩]⟩ 0 _ hth
  refine h1.tail hcrash ⟨?_, ?_⟩
  · rintro _ _ _ _ _ _ _ ⟨⟩
  · rintro _ _ _ _ _ _ ⟨⟩

/-- Ten seconds after the deadline of the first run, the queue tries again; ten
minutes later the retry has not written yet. -/
theorem retried_reach : ∃ p q, q ≠ .ret () ∧
    Reach (storageSystem deployment) (Punctual deployment) ⟨world, []⟩
      ⟨⟨⟨2410, reclaimed, [(1, 10, 20)]⟩, [dir]⟩,
        [⟨first, p, opens LostReply.request, true⟩,
          ⟨retry, q, opens LostReply.request.markProcessing, false⟩]⟩ := by
  obtain ⟨p, h0⟩ := crashed_reach
  obtain ⟨q, hq, hmore⟩ := opens_steps 1810 LostReply.request.markProcessing rfl rfl
  refine ⟨p, q, hmore, ?_⟩
  have hlater : (0 : Int) ≤ 1810 := by decide
  have h1 := (h0.mono fun _ _ _ hA => hA.1).tail (.drift (.clock hlater))
    (by rintro _ _ _ _ _ _ _ ⟨⟩)
  have hstart : Step (storageSystem deployment)
      ⟨⟨⟨1810, claimed, [(1, 10, 20)]⟩, [dir]⟩, [⟨first, p, opens LostReply.request, true⟩]⟩
      (.start retry) ⟨⟨⟨1810, claimed, [(1, 10, 20)]⟩, [dir]⟩,
        [⟨first, p, opens LostReply.request, true⟩,
          Thread.new (storageSystem deployment) retry]⟩ :=
    .start ⟨rfl, List.mem_singleton.mpr rfl⟩
  have h2 := Reach.tail h1 hstart (by rintro _ _ _ _ _ _ _ ⟨⟩)
  have h3 := h2.runThread (i := 1) (fun w => w.now = 1810) (keeps_clock 1810)
    (fun c th e c' hnow hi hk _ => punctual_call hnow hi hk) rfl rfl hq retry_answers
  have hquiet : (1810 : Int) ≤ 2410 := by decide
  exact h3.tail (.drift (.clock hquiet)) (by rintro _ _ _ _ _ _ _ ⟨⟩)

end RetriedJob

/-- The sweep removes the directory of a retry that is downloading. -/
theorem sweep_deletes_live : ∃ c c' : StorageConf,
    Reach (storageSystem LostReply.deployment) (Punctual LostReply.deployment)
      ⟨RetriedJob.world, []⟩ c ∧
    LiveClaim LostReply.deployment c 1810 1 ∧ c.shared.base = [RetriedJob.dir] ∧
    Sweeps LostReply.deployment c.shared 1 ∧
    Step (storageSystem LostReply.deployment) c .drift c' ∧ c'.shared.base = [] := by
  obtain ⟨p, q, hmore, hreach⟩ := RetriedJob.retried_reach
  have hin : (2410 : Int) ≤ 1810 + 1800 := by decide
  have hexp : LocalFileStorage.isExpired 2410 LostReply.deployment.reaper.staleAfter
      RetriedJob.dir = true := by decide
  have hsweep := @StorageDrift.sweep LostReply.deployment
    ⟨⟨2410, RetriedJob.reclaimed, [(1, 10, 20)]⟩, [RetriedJob.dir]⟩ (fun _ => none) (by
      intro entry _ entry' h
      cases h)
  refine ⟨_, _, hreach, ⟨1, _, rfl, ⟨⟨10, 20, rfl⟩, rfl, hmore, hin⟩, ?_⟩, rfl,
    ⟨RetriedJob.dir, List.mem_singleton.mpr rfl, rfl, hexp⟩, .drift hsweep, rfl⟩
  simp [RetriedJob.opens]

/-- The sweep comes for what the first run left: that run is not alive. -/
theorem sweep_spares_crashed : ∃ c : StorageConf,
    Reach (storageSystem LostReply.deployment) (FreshClaims LostReply.deployment)
      ⟨RetriedJob.world, []⟩ c ∧
    Sweeps LostReply.deployment c.shared 1 ∧ ¬ LiveClaim LostReply.deployment c 0 1 := by
  obtain ⟨q, h0⟩ := RetriedJob.crashed_reach
  have hlater : (0 : Int) ≤ 2410 := by decide
  have hreach := (h0.mono fun _ _ _ hA => hA.2).tail (.drift (.clock hlater))
    (by rintro _ _ _ _ _ _ ⟨⟩)
  have hexp : LocalFileStorage.isExpired 2410 LostReply.deployment.reaper.staleAfter
      RetriedJob.dir = true := by decide
  have hsweep : Sweeps LostReply.deployment
      ⟨⟨2410, RetriedJob.claimed, [(1, 10, 20)]⟩, [RetriedJob.dir]⟩ 1 :=
    ⟨RetriedJob.dir, List.mem_singleton.mpr rfl, rfl, hexp⟩
  exact ⟨_, hreach, hsweep, sweep_spares_live LostReply.deployment rfl hreach hsweep 0⟩

end MediaDownloader
