import MediaDownloader.Worker.RequestSystem

/-!
# Reaping

Jobs and reapers on rows that can be read.

* `LaidToRest.step`: a finished row whose claimants are out of time stays as it is;
* `reaper_spares_live_jobs`: no job that claimed a reaped row is live, and
  nobody ever gets hold of the row again.
-/

namespace MediaDownloader

open Interaction

variable {d : Deployment} {c c' : Actors} {l : ActorLabel}

/-! ## Jobs and reapers alone -/

/-- Jobs keep to their time, and no bot is at work. -/
structure Unattended (d : Deployment) (c : Actors) (l : ActorLabel) (_ : Actors) : Prop where
  inTime : InTime d c l
  noBot : ∀ telegramId url spec extractorKey chatId messageId,
    l ≠ .start (.bot telegramId url spec extractorKey chatId messageId)

/-- Every row can be read, nobody has found one that cannot, and no bot runs. -/
structure Legible (c : Actors) : Prop where
  rows : ∀ id row, c.shared.table.get? id = some row → row.Readable
  reads : ∀ (i : Nat) (th : ActorThread), c.threads[i]? = some th →
    ∀ id column raw rid uid, ⟨.getById id, .error (.corruptedRecord column raw rid uid)⟩ ∉ th.trace
  noBot : ∀ (i : Nat) (th : ActorThread), c.threads[i]? = some th →
    ∀ telegramId url spec extractorKey chatId messageId,
      th.kind ≠ .bot telegramId url spec extractorKey chatId messageId

/-- A row that was not there before was created. -/
theorem row_appears (h : Step (requestSystem d) c l c') {id : UUID}
    (hnone : c.shared.table.get? id = none) {row : Row}
    (hrow : c'.shared.table.get? id = some row) :
    ∃ request, row = Row.fromEntity request c.shared.now := by
  rcases h.shared_cases with he | ⟨-, now, -, he⟩ | ⟨i, th, e, -, hcall⟩
  · rw [he, hnone] at hrow
    cases hrow
  · rw [he] at hrow
    have hsame : c.shared.table.get? id = some row := hrow
    rw [hnone] at hsame
    cases hsame
  · have hserved : Served c.shared e.call e.resp c'.shared := hcall.answer
    rcases hserved.table_cases with ht | ⟨-, ht⟩
    · rw [ht, hnone] at hrow
      cases hrow
    · rw [ht] at hrow
      rcases Table.effect_none hnone c.shared.now e.call with hn | ⟨request, -, -, hs⟩
      · rw [hn] at hrow
        cases hrow
      · rw [hs] at hrow
        cases hrow
        exact ⟨request, rfl⟩

theorem Legible.step (hg : Legible c) (hs : Sound d c) (ha : Unattended d c l c')
    (h : Step (requestSystem d) c l c') : Legible c' := by
  constructor
  · intro id row' hrow'
    cases hrow : c.shared.table.get? id with
    | none =>
      obtain ⟨request, rfl⟩ := row_appears h hrow hrow'
      exact Row.toEntity_fromEntity request _
    | some row =>
      have hread := hg.rows id row hrow
      rcases row_step hs.coded hs.answered h hrow with hr | ⟨row₂, i, th, e, hw⟩
      · rw [hr] at hrow'
        cases hrow'
        exact hread
      · have hafter := hw.after
        rw [hrow'] at hafter
        cases hafter
        exact hw.change.readable hread
  · intro j th' hj id column raw rid uid hm
    obtain ⟨th, -, ⟨hi, hold⟩ | ⟨-, hcall⟩⟩ := h.event_cases hj hm
    · exact hg.reads j th hi _ _ _ _ _ hold
    · have hserved : Served c.shared (.getById id)
        (.error (.corruptedRecord column raw rid uid)) c'.shared := hcall.answer
      obtain ⟨row, hrow, -, hbad⟩ := hserved.corrupted
      exact hbad (hg.rows id row hrow)
  · intro j th' hj telegramId url spec extractorKey chatId messageId hk'
    rcases h.kind_cases hj with ⟨th, hi, hk⟩ | ⟨hl, -⟩
    · rw [hk] at hk'
      exact hg.noBot j th hi _ _ _ _ _ _ hk'
    · rw [hk'] at hl
      exact ha.noBot _ _ _ _ _ _ hl

theorem Legible.init (h : c.threads = [])
    (hread : ∀ row ∈ c.shared.table.rows, row.Readable) : Legible c := by
  constructor
  · intro id row hrow
    exact hread row (Table.mem_of_get? hrow)
  · intro i th hi
    exact absurd hi (Conf.not_started h)
  · intro i th hi
    exact absurd hi (Conf.not_started h)

theorem Legible.reach {c₀ : Actors} (h : Reach (requestSystem d) (Unattended d) c₀ c)
    (h0 : c₀.threads = []) (hread : ∀ row ∈ c₀.shared.table.rows, row.Readable) :
    Sound d c ∧ Legible c := by
  induction h with
  | refl => exact ⟨Sound.init h0, Legible.init h0 hread⟩
  | tail _ hstep hA ih =>
    obtain ⟨hs, hg⟩ := ih
    exact ⟨hs.step hstep, hg.step hs hA hstep⟩

/-- Nobody marks a row without reading it when all rows can be read. -/
theorem Legible.not_marked (hg : Legible c) {i : Nat} {th : ActorThread}
    (hi : c.threads[i]? = some th) {id : UUID} :
    ¬ th.kind.Allowed d th.trace (.markFailedById id) := by
  intro hallow
  cases hk : th.kind with
  | bot telegramId url spec extractorKey chatId messageId =>
    exact hg.noBot i th hi _ _ _ _ _ _ hk
  | job start jobId chatId messageId =>
    rw [hk] at hallow
    obtain ⟨-, column, raw, uid, hread⟩ := hallow
    exact hg.reads i th hi _ _ _ _ _ hread
  | reaper =>
    rw [hk] at hallow
    exact hallow.elim

/-- The row is finished, and no live job has a granted claim on it. -/
structure LaidToRest (d : Deployment) (c : Actors) (id : UUID) (row : Row) : Prop where
  stored : c.shared.table.get? id = some row
  inactive : row.isActive = false
  unclaimed : ∀ (j : Nat) (th : ActorThread), c.threads[j]? = some th →
    ⟨.claimForProcessing id, .ok true⟩ ∈ th.trace →
      ∀ start jobId, ¬ LiveJob d c.shared th start jobId

theorem LaidToRest.not_granted {id : UUID} {row : Row} (hr : LaidToRest d c id row) {j : Nat}
    {r : Except Exc Bool}
    (h : Step (requestSystem d) c (.call j ⟨.claimForProcessing id, r⟩) c') : r ≠ .ok true := by
  rintro rfl
  cases h with
  | call _ _ _ hans =>
    have hserved : Served c.shared (.claimForProcessing id) (.ok true) _ := hans
    obtain ⟨row', hrow', hact, -⟩ := hserved.claimed
    rw [hr.stored] at hrow'
    cases hrow'
    rw [hr.inactive] at hact
    cases hact

theorem LaidToRest.step {id : UUID} {row : Row} (hr : LaidToRest d c id row) (hs : Sound d c)
    (hg : Legible c) (ha : Unattended d c l c') (h : Step (requestSystem d) c l c') :
    LaidToRest d c' id row := by
  refine ⟨?_, hr.inactive, ?_⟩
  · rcases row_step hs.coded hs.answered h hr.stored with hrow | ⟨row', i, th, ⟨cl, r⟩, hw⟩
    · exact hrow
    exfalso
    have hchange := hw.change
    have hallow := hw.allowed
    cases hchange with
    | claimed hact =>
      rw [hr.inactive] at hact
      cases hact
    | updated hid =>
      obtain ⟨⟨start, jobId, chatId, messageId, hk⟩, hclaim, -⟩ := allowed_update hallow
      rw [hid] at hclaim
      have hlive := caller_live hw.toCalls hw.label ha.inTime rfl hk
      exact hr.unclaimed i th hw.thread hclaim start jobId hlive
    | marked => exact hg.not_marked hw.thread hallow
    | reaped _ hact _ =>
      rw [hr.inactive] at hact
      cases hact
  · intro j th' hj hm start jobId hlive'
    rcases hlive'.before h hj with ⟨th, hi, hlive, ⟨ht, -⟩ | ⟨⟨cl, r⟩, hl, hcall, ht⟩⟩ |
      ⟨_, _, -, -, ht⟩
    · rw [ht] at hm
      exact hr.unclaimed j th hi hm start jobId hlive
    · rw [ht] at hm
      rcases List.mem_append.mp hm with hm | hm
      · exact hr.unclaimed j th hi hm start jobId hlive
      · cases List.mem_singleton.mp hm
        rw [hl] at h
        exact hr.not_granted h rfl
    · rw [ht] at hm
      cases hm

theorem LaidToRest.reach {id : UUID} {row : Row} (hr : LaidToRest d c id row) (hs : Sound d c)
    (hg : Legible c) (h : Reach (requestSystem d) (Unattended d) c c') :
    LaidToRest d c' id row := by
  have hall : Sound d c' ∧ Legible c' ∧ LaidToRest d c' id row := by
    induction h with
    | refl => exact ⟨hs, hg, hr⟩
    | tail _ hstep hA ih =>
      obtain ⟨hs, hg, hr⟩ := ih
      exact ⟨hs.step hstep, hg.step hs hA hstep, hr.step hs hg hA hstep⟩
  exact hall.2.2

/-- A reaped row is laid to rest: whoever has claimed it is out of time. -/
theorem reaped_laid_to_rest (hs : Sound d c) {i : Nat} {candidates : List Candidate}
    {updatedBefore : Time} {r : Except Exc (List UUID)}
    (h : Step (requestSystem d) c (.call i ⟨.updateStale candidates updatedBefore, r⟩) c')
    {id : UUID} {row row' : Row} (hrow : c.shared.table.get? id = some row)
    (hrow' : c'.shared.table.get? id = some row') (hmoved : row' ≠ row) :
    row'.status = DownloadStatus.failed.value ∧ LaidToRest d c' id row' ∧
      (∀ (j : Nat) (th : ActorThread), c.threads[j]? = some th →
        ⟨.claimForProcessing id, .ok true⟩ ∈ th.trace →
          ∀ start jobId, ¬ LiveJob d c.shared th start jobId) ∧
      InTime d c (.call i ⟨.updateStale candidates updatedBefore, r⟩) := by
  rcases row_step hs.coded hs.answered h hrow with hsame | ⟨row₂, k, th, e, hw⟩
  · rw [hrow'] at hsame
    cases hsame
    exact absurd rfl hmoved
  have hlabel := hw.label
  cases hlabel
  have hafter := hw.after
  rw [hrow'] at hafter
  cases hafter
  have hreaper := (allowed_updateStale hw.allowed).1
  have hchange := hw.change
  cases hchange with
  | reaped _ hact hu =>
    have hdead : ∀ (j : Nat) (th : ActorThread), c.threads[j]? = some th →
        ⟨.claimForProcessing id, .ok true⟩ ∈ th.trace →
          ∀ start jobId, ¬ LiveJob d c.shared th start jobId := by
      intro j th' hj hm start jobId hlive
      obtain ⟨chatId, messageId, hk⟩ := hlive.kind
      have hlate := reaped_not_live hs hw.thread hw.allowed hrow hu hj hm hk
      exact absurd hlive.inTime (Int.not_le.mpr hlate)
    refine ⟨rfl, ⟨hrow', row.finish_inactive (.inr rfl) _ _, ?_⟩, hdead, ?_⟩
    · intro j th' hj hm start jobId hlive'
      rcases hlive'.before h hj with ⟨th₂, hi, hlive, ⟨ht, -⟩ | ⟨e, hl, hcall, ht⟩⟩ |
        ⟨_, _, -, -, ht⟩
      · rw [ht] at hm
        exact hdead j th₂ hi hm start jobId hlive
      · -- the caller itself is a reaper
        cases hl
        obtain ⟨chatId, messageId, hk⟩ := hlive.kind
        obtain rfl := hw.thread_eq hi
        rw [hreaper] at hk
        cases hk
      · rw [ht] at hm
        cases hm
    · rintro _ _ th' start jobId chatId messageId ⟨rfl⟩ hi hk -
      obtain rfl := hw.thread_eq hi
      rw [hreaper] at hk
      cases hk

/-- When the reaper moves a row, no job that has claimed it is live; from then
on the row stays as it is and no claim on it is granted. -/
theorem reaper_spares_live_jobs (d : Deployment) {c₀ c c₁ : Actors} (h0 : c₀.threads = [])
    (hread : ∀ row ∈ c₀.shared.table.rows, row.Readable)
    (h : Reach (requestSystem d) (Unattended d) c₀ c) {i : Nat} {candidates : List Candidate}
    {updatedBefore : Time} {r : Except Exc (List UUID)}
    (hstep : Step (requestSystem d) c (.call i ⟨.updateStale candidates updatedBefore, r⟩) c₁)
    {id : UUID} {row row₁ : Row} (hrow : c.shared.table.get? id = some row)
    (hrow₁ : c₁.shared.table.get? id = some row₁) (hmoved : row₁ ≠ row) :
    row₁.status = DownloadStatus.failed.value ∧
      (∀ (j : Nat) (th : ActorThread), c.threads[j]? = some th →
        ⟨.claimForProcessing id, .ok true⟩ ∈ th.trace →
          ∀ start jobId, ¬ LiveJob d c.shared th start jobId) ∧
      ∀ c₂, Reach (requestSystem d) (Unattended d) c₁ c₂ →
        c₂.shared.table.get? id = some row₁ ∧
          ∀ j r c₃, Step (requestSystem d) c₂ (.call j ⟨.claimForProcessing id, r⟩) c₃ →
            r ≠ .ok true := by
  obtain ⟨hs, hg⟩ := Legible.reach h h0 hread
  obtain ⟨hfailed, hrest, hdead, hin⟩ := reaped_laid_to_rest hs hstep hrow hrow₁ hmoved
  refine ⟨hfailed, hdead, fun c₂ hafter => ?_⟩
  have hA : Unattended d c (.call i ⟨.updateStale candidates updatedBefore, r⟩) c₁ :=
    ⟨hin, by rintro _ _ _ _ _ _ ⟨⟩⟩
  have hrest₂ := hrest.reach (hs.step hstep) (hg.step hs hA hstep) hafter
  exact ⟨hrest₂.stored, fun j r c₃ hclaim => hrest₂.not_granted hclaim⟩

/-! ## A worker that dies -/

namespace DeadWorker

def deployment : Deployment where
  unicode := ⟨id, id⟩
  policy := ⟨[]⟩
  jobs := ⟨scriptedDownload, 50, 60, 0⟩
  reaper := halfHourReaper

def owner : User := User.createFromTelegram 2 0 77 none

def request : DownloadRequest := DownloadRequest.create 1 0 2 (str "https://a.com/v") .audio

def pending : Table := ⟨[Row.fromEntity request 0], by decide⟩

def claimed : Table := pending.effect 0 (.claimForProcessing 1)

def job : Actor := .job 0 1 10 20

def candidate : Candidate := ⟨1, 2, DownloadStatus.processing.value⟩

/-- The job claims its request and is never heard of again. -/
def lost : Trace :=
  [⟨.getById 1, .ok (some request)⟩, ⟨.userGetById 2, .ok (some owner)⟩,
    ⟨.claimForProcessing 1, .ok true⟩]

/-- The first tick after `job_timeout` and the grace. -/
def selected : Trace :=
  [⟨.utcnow, .ok (2401 : Int)⟩, ⟨.selectStale 1 10, .ok [candidate]⟩]

theorem selectStale_claimed :
    claimed.selectStale (fun _ => false) 1 10 = [candidate] := by
  have hrows : claimed.rows.filter (fun row => row.isStale 1 && !false) =
      [(Row.fromEntity request 0).setStatus .processing 0] := by decide
  simp only [Table.selectStale]
  rw [hrows, List.mergeSort_singleton]
  rfl

theorem lost_answers : Answers (requestSystem deployment) job ⟨0, pending, [(1, 10, 20)]⟩ lost
    ⟨0, claimed, [(1, 10, 20)]⟩ :=
  .cons (.reply (fun _ => false) rfl rfl) (.cons (.elsewhere _ rfl (by simp) rfl)
    (.cons (.reply (fun _ => false) rfl rfl) (.nil _)))

theorem lost_steps : ∃ q, Steps (job.code deployment) lost q :=
  ⟨_, .call (.call (.call (.done _)))⟩

theorem selected_answers :
    Answers (requestSystem deployment) .reaper ⟨2401, claimed, [(1, 10, 20)]⟩ selected
      ⟨2401, claimed, [(1, 10, 20)]⟩ :=
  .cons .clock (.cons (.reply (fun _ => false) rfl (congrArg Except.ok selectStale_claimed.symm))
    (.nil _))

/-- The UPDATE moves the row, and its owner is told. -/
def told : Trace :=
  [⟨.updateStale [candidate] 1, .ok [1]⟩, ⟨.userGetById 2, .ok (some owner)⟩,
    ⟨.localize staleRequestKey none [], .ok (str "stuck")⟩,
    ⟨.sendText 1 77 (str "stuck"), .ok ()⟩]

theorem selected_steps : ∃ q, Steps (Actor.code deployment .reaper) selected q ∧
    Steps q told (.ret ()) :=
  ⟨_, .call (.call (.done _)), .call (.call (.call (.call (.done _))))⟩

theorem unattended_call {i : Nat} {th : ActorThread} {e : Ev} (hi : c.threads[i]? = some th)
    (hk : th.kind = .reaper ∨ (th.kind = job ∧ c.shared.now = 0)) :
    Unattended deployment c (.call i e) c' := by
  constructor
  · rintro _ _ th' start jobId chatId messageId ⟨rfl⟩ hi' hk' -
    rw [hi] at hi'
    cases hi'
    rcases hk with hk | ⟨hk, hnow⟩
    · rw [hk] at hk'
      cases hk'
    · rw [hk] at hk'
      cases hk'
      rw [hnow]
      decide
  · rintro _ _ _ _ _ _ ⟨⟩

theorem unattended_other (hl : l = .start job ∨ l = .start .reaper ∨ l = .crash 0 ∨ l = .drift) :
    Unattended deployment c l c' := by
  constructor
  · rintro _ _ _ _ _ _ _ rfl
    simp at hl
  · rintro _ _ _ _ _ _ rfl
    simp [job] at hl

/-- The job is lost with its row PROCESSING. -/
theorem lost_reach : ∃ p, Reach (requestSystem deployment) (Unattended deployment)
    ⟨⟨0, pending, [(1, 10, 20)]⟩, []⟩ ⟨⟨2401, claimed, [(1, 10, 20)]⟩, [⟨job, p, lost, true⟩]⟩ := by
  obtain ⟨p, hp⟩ := lost_steps
  refine ⟨p, ?_⟩
  have hstart : Step (requestSystem deployment) ⟨⟨0, pending, [(1, 10, 20)]⟩, []⟩ (.start job)
      ⟨⟨0, pending, [(1, 10, 20)]⟩, [⟨job, job.code deployment, [], false⟩]⟩ :=
    .start ⟨rfl, List.mem_singleton.mpr rfl⟩
  have hjob : ([⟨job, job.code deployment, [], false⟩] : List ActorThread)[0]? =
      some ⟨job, job.code deployment, [], false⟩ := rfl
  have h1 := (Reach.tail .refl hstart (unattended_other (.inl rfl))).runThread
    (fun w => w.now = 0) (answer_keeps_time _ 0)
    (fun c th e c' hnow hi hk _ => unattended_call hi (.inr ⟨hk, hnow⟩)) rfl hjob hp lost_answers
  have hlost : ([⟨job, p, lost, false⟩] : List ActorThread)[0]? = some ⟨job, p, lost, false⟩ := rfl
  have hcrash := @Step.crash _ _ _ _ _ (requestSystem deployment)
    ⟨⟨0, claimed, [(1, 10, 20)]⟩, [⟨job, p, lost, false⟩]⟩ 0 _ hlost
  have hdrift : Step (requestSystem deployment)
      ⟨⟨0, claimed, [(1, 10, 20)]⟩, [⟨job, p, lost, true⟩]⟩ .drift
      ⟨⟨2401, claimed, [(1, 10, 20)]⟩, [⟨job, p, lost, true⟩]⟩ :=
    .drift ⟨2401, (by decide : (0 : Int) ≤ 2401), rfl⟩
  have h2 := Reach.tail h1 hcrash (unattended_other (.inr (.inr (.inl rfl))))
  exact h2.tail hdrift (unattended_other (.inr (.inr (.inr rfl))))

/-- A reaper has selected the row and is about to update it. -/
theorem selected_reach : ∃ p q, Steps q told (.ret ()) ∧
    Reach (requestSystem deployment) (Unattended deployment) ⟨⟨0, pending, [(1, 10, 20)]⟩, []⟩
      ⟨⟨2401, claimed, [(1, 10, 20)]⟩, [⟨job, p, lost, true⟩, ⟨.reaper, q, selected, false⟩]⟩ := by
  obtain ⟨p, hp⟩ := lost_reach
  obtain ⟨q, hq, htold⟩ := selected_steps
  refine ⟨p, q, htold, ?_⟩
  have hstart : Step (requestSystem deployment)
      ⟨⟨2401, claimed, [(1, 10, 20)]⟩, [⟨job, p, lost, true⟩]⟩ (.start .reaper)
      ⟨⟨2401, claimed, [(1, 10, 20)]⟩,
        [⟨job, p, lost, true⟩, ⟨.reaper, Actor.code deployment .reaper, [], false⟩]⟩ :=
    .start trivial
  have hreaper : ([⟨job, p, lost, true⟩, ⟨.reaper, Actor.code deployment .reaper, [], false⟩] :
      List ActorThread)[1]? = some ⟨.reaper, Actor.code deployment .reaper, [], false⟩ := rfl
  exact (hp.tail hstart (unattended_other (.inr (.inl rfl)))).runThread (fun w => w.now = 2401)
    (answer_keeps_time _ 2401) (fun c th e c' _ hi hk _ => unattended_call hi (.inl hk)) rfl hreaper hq
    selected_answers

def reaped : Table := claimed.effect 2401 (.updateStale [candidate] 1)

theorem reaped_served : Served ⟨2401, claimed, [(1, 10, 20)]⟩ (.updateStale [candidate] 1) (.ok [1])
    ⟨2401, reaped, [(1, 10, 20)]⟩ :=
  .reply (fun _ => false) rfl rfl

theorem told_answers :
    Answers (requestSystem deployment) .reaper ⟨2401, claimed, [(1, 10, 20)]⟩ told
      ⟨2401, reaped, [(1, 10, 20)]⟩ :=
  .cons reaped_served (.cons (.elsewhere _ rfl (by simp) rfl)
    (.cons (.elsewhere _ rfl (by simp) rfl) (.cons (.elsewhere _ rfl (by simp) rfl) (.nil _))))

/-- The UPDATE moves the row. -/
theorem reaped_step : ∃ c c₁ : Actors,
    Reach (requestSystem deployment) (Unattended deployment) ⟨⟨0, pending, [(1, 10, 20)]⟩, []⟩ c ∧
      Step (requestSystem deployment) c (.call 1 ⟨.updateStale [candidate] 1, .ok [1]⟩) c₁ ∧
      c.shared.table = claimed ∧ c₁.shared.table = reaped := by
  obtain ⟨p, q, htold, hreach⟩ := selected_reach
  cases htold with
  | @call _ f _ _ _ _ =>
    have hthread : ([⟨job, p, lost, true⟩, ⟨.reaper, .call (.updateStale [candidate] 1) f,
        selected, false⟩] : List ActorThread)[1]? =
      some ⟨.reaper, .call (.updateStale [candidate] 1) f, selected, false⟩ := rfl
    have hstep := @Step.call _ _ _ _ _ (requestSystem deployment)
      ⟨⟨2401, claimed, [(1, 10, 20)]⟩, [⟨job, p, lost, true⟩,
        ⟨.reaper, .call (.updateStale [candidate] 1) f, selected, false⟩]⟩
      1 _ (.updateStale [candidate] 1) f (.ok [1]) ⟨2401, reaped, [(1, 10, 20)]⟩
      hthread rfl rfl reaped_served
    exact ⟨_, _, hreach, hstep, rfl, rfl⟩

theorem claimed_row :
    claimed.get? 1 = some ((Row.fromEntity request 0).setStatus .processing 0) := by
  decide

theorem reaped_row : reaped.get? 1 =
    some (((Row.fromEntity request 0).setStatus .processing 0).finish .failed (some 2401) 2401) := by
  decide

theorem pending_readable : ∀ row ∈ pending.rows, row.Readable := by
  intro row hrow
  rw [List.mem_singleton.mp hrow]
  exact Row.toEntity_fromEntity request 0

end DeadWorker

/-- Nobody gets hold of the dead worker's row again. -/
theorem reaper_spares_live_jobs_dead :
    ∃ c₁ : Actors, c₁.shared.table = DeadWorker.reaped ∧
      ∀ c₂, Reach (requestSystem DeadWorker.deployment) (Unattended DeadWorker.deployment) c₁ c₂ →
        ∀ j r c₃, Step (requestSystem DeadWorker.deployment) c₂
          (.call j ⟨.claimForProcessing 1, r⟩) c₃ → r ≠ .ok true := by
  obtain ⟨c, c₁, hreach, hstep, hc, hc₁⟩ := DeadWorker.reaped_step
  have hmain := reaper_spares_live_jobs DeadWorker.deployment rfl DeadWorker.pending_readable hreach
    hstep (hc ▸ DeadWorker.claimed_row) (hc₁ ▸ DeadWorker.reaped_row) (by decide)
  exact ⟨c₁, hc₁, fun c₂ h => (hmain.2.2 c₂ h).2⟩

end MediaDownloader
