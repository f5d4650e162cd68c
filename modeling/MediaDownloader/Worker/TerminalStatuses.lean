import MediaDownloader.Worker.RequestSystem

/-!
# Terminal statuses

DONE and FAILED are final as long as `mark_failed_by_id`, which writes
whatever it finds, meets an unfinished request that no live job holds.

* `Exclusive.step`: at most one live job per request, and the request it has
  claimed is PROCESSING until it writes its outcome;
* `terminal_absorbing`: in every such run a finished row stays as it is;
* `terminal_not_absorbing`: the failed enqueue whose job was accepted.
-/

namespace MediaDownloader

open Interaction

variable {d : Deployment} {c c' : Actors} {l : ActorLabel}

/-- One live job per request, and every repository call in time. -/
structure Timely (d : Deployment) (c : Actors) (l : ActorLabel) : Prop where
  inTime : InTime d c l
  oneLive : ∀ start id chatId messageId, l = .start (.job start id chatId messageId) →
    ∀ (j : Nat) (th : ActorThread) (start' : Time), c.threads[j]? = some th →
      ¬ LiveJob d c.shared th start' id

/-- Its claim was granted and it has not written since. -/
structure Holds (th : ActorThread) (id : UUID) : Prop where
  claimed : ⟨.claimForProcessing id, .ok true⟩ ∈ th.trace
  unwritten : (afterClaim th.trace).countP isWrite = 0

/-- `mark_failed_by_id` meets an unfinished request that no live job holds. -/
def MarksUnheld (d : Deployment) (c : Actors) (l : ActorLabel) : Prop :=
  ∀ i id r, l = .call i ⟨.markFailedById id, r⟩ →
    (∀ row, c.shared.table.get? id = some row → row.isTerminal = false) ∧
      ∀ (j : Nat) (th : ActorThread) (start : Time), c.threads[j]? = some th →
        LiveJob d c.shared th start id → ¬ Holds th id

/-! ## One live job per request -/

structure Exclusive (d : Deployment) (c : Actors) : Prop where
  unique : ∀ (i j : Nat) (th th' : ActorThread) (start start' : Time) (id : UUID),
    c.threads[i]? = some th → c.threads[j]? = some th' → LiveJob d c.shared th start id →
      LiveJob d c.shared th' start' id → i = j
  held : ∀ (j : Nat) (th : ActorThread) (start : Time) (id : UUID), c.threads[j]? = some th →
    LiveJob d c.shared th start id → Holds th id →
      ∃ row, c.shared.table.get? id = some row ∧ row.status = DownloadStatus.processing.value

/-- Whoever updates a row is a live job that holds it. -/
theorem updater_holds (hs : Sound d c) (hin : InTime d c l) {i : Nat} {th : ActorThread} {e : Ev}
    {s : World} (hcall : Conf.Calls (requestSystem d) c i th e s) (hl : l = .call i e)
    {request : DownloadRequest} (he : e.call = .update request)
    (hallow : th.kind.Allowed d th.trace e.call) :
    (∃ start, LiveJob d c.shared th start request.id) ∧ Holds th request.id := by
  rw [he] at hallow
  obtain ⟨⟨start, jobId, chatId, messageId, hk⟩, hclaim, hwrites, -⟩ := allowed_update hallow
  have hown := claims_own hs hcall.thread hk hclaim
  have hrep : e.call.isRepository = true := by rw [he]; rfl
  have hlive := caller_live hcall hl hin hrep hk
  rw [← hown] at hlive
  exact ⟨⟨start, hlive⟩, hclaim, hwrites⟩

theorem Row.Change.isWrite {now : Time} {id : UUID} {row row' : Row} {e : Ev}
    (h : Row.Change now id row e.call row') : isWrite e = true := by
  obtain ⟨cl, r⟩ := e
  cases h <;> rfl

theorem Exclusive.unique_step (hx : Exclusive d c) (ht : Timely d c l)
    (h : Step (requestSystem d) c l c') {i j : Nat} {th th' : ActorThread} {start start' : Time}
    {id : UUID} (hi : c'.threads[i]? = some th) (hj : c'.threads[j]? = some th')
    (hlive : LiveJob d c'.shared th start id) (hlive' : LiveJob d c'.shared th' start' id) :
    i = j := by
  rcases hlive.before h hi with ⟨u, hu, hlu, -⟩ | ⟨chatId, messageId, hl, hlen, -⟩
  · rcases hlive'.before h hj with ⟨v, hv, hlv, -⟩ | ⟨chatId, messageId, hl, -, -⟩
    · exact hx.unique i j u v start start' id hu hv hlu hlv
    · exact absurd hlu (ht.oneLive _ _ _ _ hl i u start hu)
  · rcases hlive'.before h hj with ⟨v, hv, hlv, -⟩ | ⟨_, _, -, hlen', -⟩
    · exact absurd hlv (ht.oneLive _ _ _ _ hl j v start' hv)
    · rw [hlen, hlen']

/-- A held row stays PROCESSING while its job waits. -/
theorem Exclusive.waiting_step (hx : Exclusive d c) (hs : Sound d c) (ht : Timely d c l)
    (hm : MarksUnheld d c l) (h : Step (requestSystem d) c l c') {j : Nat} {th : ActorThread}
    {start : Time} {id : UUID} (hj : c.threads[j]? = some th)
    (hlive : LiveJob d c.shared th start id) (hholds : Holds th id)
    (hother : ∀ e, isWrite e = true → l ≠ .call j e) :
    ∃ row, c'.shared.table.get? id = some row ∧ row.status = DownloadStatus.processing.value := by
  obtain ⟨row, hrow, hst⟩ := hx.held j th start id hj hlive hholds
  rcases row_step hs.coded hs.answered h hrow with hr | ⟨row', i, u, ⟨cl, r⟩, hw⟩
  · exact ⟨row, hr, hst⟩
  have hchange := hw.change
  have hafter := hw.after
  cases hchange with
  | claimed _ => exact ⟨_, hafter, rfl⟩
  | @updated request hid =>
    obtain ⟨⟨start', hlive'⟩, -⟩ := updater_holds hs ht.inTime hw.toCalls hw.label rfl hw.allowed
    rw [hid] at hlive'
    have hij := hx.unique i j u th start' start id hw.thread hj hlive' hlive
    exact absurd (hij ▸ hw.label) (hother _ rfl)
  | marked => exact absurd hholds ((hm i id r hw.label).2 j th start hj hlive)
  | reaped _ _ hu =>
    obtain ⟨chatId, messageId, hk⟩ := hlive.kind
    have hlate := reaped_not_live hs hw.thread hw.allowed hrow hu hj hholds.claimed hk
    exact absurd hlive.inTime (Int.not_le.mpr hlate)

theorem Exclusive.held_step (hx : Exclusive d c) (hs : Sound d c) (ht : Timely d c l)
    (hm : MarksUnheld d c l) (h : Step (requestSystem d) c l c') {j : Nat} {th' : ActorThread}
    {start : Time} {id : UUID} (hj : c'.threads[j]? = some th')
    (hlive' : LiveJob d c'.shared th' start id) (hholds : Holds th' id) :
    ∃ row, c'.shared.table.get? id = some row ∧ row.status = DownloadStatus.processing.value := by
  obtain ⟨hclaim, hwrites⟩ := hholds
  rcases hlive'.before h hj with ⟨th, hi, hlive, ⟨htr, hl⟩ | ⟨e, hl, hcall, htr⟩⟩ | ⟨_, _, -, -, htr⟩
  · rw [htr] at hclaim hwrites
    exact hx.waiting_step hs ht hm h hi hlive ⟨hclaim, hwrites⟩ fun e _ => hl e
  · rw [htr] at hclaim hwrites
    rcases List.mem_append.mp hclaim with hold | hnew
    · have hany : th.trace.any isClaim = true := List.any_eq_true.mpr ⟨_, hold, rfl⟩
      rw [afterClaim_append hany, List.countP_append, List.countP_singleton] at hwrites
      have hzero : (afterClaim th.trace).countP isWrite = 0 := by omega
      have hread : isWrite e = false := by
        by_contra hw
        simp [hw] at hwrites
      refine hx.waiting_step hs ht hm h hi hlive ⟨hold, hzero⟩ ?_
      intro e' hw' hl'
      rw [hl] at hl'
      cases hl'
      rw [hread] at hw'
      cases hw'
    · obtain ⟨cl, r⟩ := e
      cases List.mem_singleton.mp hnew
      have hserved : Served c.shared (.claimForProcessing id) (.ok true) c'.shared := hcall.answer
      obtain ⟨row, -, -, hrow⟩ := hserved.claimed
      exact ⟨_, hrow, rfl⟩
  · rw [htr] at hclaim
    cases hclaim

theorem Exclusive.step (hx : Exclusive d c) (hs : Sound d c) (ht : Timely d c l)
    (hm : MarksUnheld d c l) (h : Step (requestSystem d) c l c') : Exclusive d c' where
  unique := fun _ _ _ _ _ _ _ hi hj hlive hlive' => hx.unique_step ht h hi hj hlive hlive'
  held := fun _ _ _ _ hj hlive hholds => hx.held_step hs ht hm h hj hlive hholds

/-! ## Finished rows -/

theorem processing_not_terminal {row : Row} (h : row.status = DownloadStatus.processing.value) :
    row.isTerminal = false := by
  unfold Row.isTerminal
  rw [h]
  decide

/-- No call touches a finished row. -/
theorem terminal_step (hx : Exclusive d c) (hs : Sound d c) (ht : Timely d c l)
    (hm : MarksUnheld d c l) (h : Step (requestSystem d) c l c') {id : UUID} {row : Row}
    (hrow : c.shared.table.get? id = some row) (hfin : row.isTerminal = true) :
    c'.shared.table.get? id = some row := by
  rcases row_step hs.coded hs.answered h hrow with hr | ⟨row', i, th, ⟨cl, r⟩, hw⟩
  · exact hr
  exfalso
  have hinactive := Row.not_active_of_terminal hfin
  have hchange := hw.change
  cases hchange with
  | claimed ha =>
    rw [hinactive] at ha
    cases ha
  | updated hid =>
    obtain ⟨⟨start, hlive⟩, hholds⟩ :=
      updater_holds hs ht.inTime hw.toCalls hw.label rfl hw.allowed
    rw [hid] at hlive hholds
    obtain ⟨row₂, hrow₂, hst⟩ := hx.held i th start id hw.thread hlive hholds
    rw [hrow] at hrow₂
    cases hrow₂
    rw [processing_not_terminal hst] at hfin
    cases hfin
  | marked =>
    rw [(hm i id r hw.label).1 row hrow] at hfin
    cases hfin
  | reaped _ ha _ =>
    rw [hinactive] at ha
    cases ha

/-- The steps of a run in which terminal statuses are final. -/
def Guarded (d : Deployment) (c : Actors) (l : ActorLabel) (_ : Actors) : Prop :=
  Timely d c l ∧ MarksUnheld d c l

theorem Exclusive.init (h : c.threads = []) : Exclusive d c := by
  constructor
  · intro i j th th' start start' id hi
    exact absurd hi (Conf.not_started h)
  · intro j th start id hj
    exact absurd hj (Conf.not_started h)

theorem Exclusive.reach {c₀ : Actors} (h : Reach (requestSystem d) (Guarded d) c₀ c)
    (h0 : c₀.threads = []) : Sound d c ∧ Exclusive d c := by
  induction h with
  | refl => exact ⟨Sound.init h0, Exclusive.init h0⟩
  | tail _ hstep hA ih =>
    obtain ⟨hs, hx⟩ := ih
    exact ⟨hs.step hstep, hx.step hs hA.1 hA.2 hstep⟩

/-- Once a row is DONE or FAILED, no later call changes it. -/
theorem terminal_absorbing (d : Deployment) {c₀ c c' : Actors} (h0 : c₀.threads = [])
    (h : Reach (requestSystem d) (Guarded d) c₀ c)
    (h' : Reach (requestSystem d) (Guarded d) c c') {id : UUID} {row : Row}
    (hrow : c.shared.table.get? id = some row) (hfin : row.isTerminal = true) :
    c'.shared.table.get? id = some row := by
  induction h' with
  | refl => exact hrow
  | tail hmid hstep hA ih =>
    obtain ⟨hs, hx⟩ := Exclusive.reach (h.trans hmid) h0
    exact terminal_step hx hs hA.1 hA.2 hstep ih hfin

/-! ## The lost reply -/

/-- A clock that stands still is in time for everyone who starts at zero. -/
theorem timely_call {i : Nat} {e : Ev} (hnow : c.shared.now = 0) {th : ActorThread}
    (hi : c.threads[i]? = some th)
    (hk : ∀ start id chatId messageId, th.kind = .job start id chatId messageId → start = 0) :
    Timely d c (.call i e) := by
  constructor
  · rintro _ _ th' start id chatId messageId ⟨rfl⟩ hi' hk' -
    rw [hi] at hi'
    cases hi'
    have hstart := hk start id chatId messageId hk'
    have hT := d.reaper.jobTimeout_nonneg
    simp only [Time] at *
    omega
  · intro start id chatId messageId hl
    cases hl

namespace LostReply

def deployment : Deployment where
  unicode := ⟨id, id⟩
  policy := ⟨[]⟩
  jobs := ⟨scriptedDownload, 50, 60, 0⟩
  reaper := halfHourReaper

def link : Str := str "https://a.com/v"

def sender : User := User.createFromTelegram 2 0 77 none

def request : DownloadRequest := DownloadRequest.create 1 0 2 link .audio

def file : DownloadResult := ⟨str "/tmp/1/v.mp3", none, none, some 10, none, none⟩

def bot : Actor := .bot 77 link .audio (str "yt") 10 20

def job : Actor := .job 0 1 10 20

def empty : Table := ⟨[], List.nodup_nil⟩

def created : Table := empty.effect 0 (.create request)

def delivered : Table :=
  (created.effect 0 (.claimForProcessing 1)).effect 0 (.update (request.markProcessing.markDone 0))

/-- The queue takes the job, the bot never hears of it. -/
def requested : Trace :=
  [⟨.userGetByTelegramId 77, .ok (some sender)⟩, ⟨.uuid4, .ok (1 : Nat)⟩,
    ⟨.utcnow, .ok (0 : Int)⟩, ⟨.create request, .ok ()⟩,
    ⟨.enqueueDownload 1 10 20, .error (.other (str "TimeoutError"))⟩]

/-- The worker delivers the file. -/
def processed : Trace :=
  [⟨.getById 1, .ok (some request)⟩, ⟨.userGetById 2, .ok (some sender)⟩,
    ⟨.claimForProcessing 1, .ok true⟩, ⟨.tempDirForRequest 1, .ok (str "/tmp/1")⟩,
    ⟨.download link ⟨str "/tmp/1", some 50, 60, .audio⟩, .ok (.finish (.ok file))⟩,
    ⟨.downloadEnd (.ok file), .ok ()⟩, ⟨.publish 1 10 20 none (phaseMarker .uploading), .ok ()⟩,
    ⟨.sendFile 77 (DeliverableMedia.fromResult file .audio), .ok ()⟩, ⟨.utcnow, .ok (0 : Int)⟩,
    ⟨.update (request.markProcessing.markDone 0), .ok ()⟩,
    ⟨.publish 1 10 20 none (phaseMarker .done), .ok ()⟩, ⟨.release 1, .ok ()⟩]

theorem requested_answers :
    Answers (requestSystem deployment) bot ⟨0, empty, []⟩ requested ⟨0, created, [(1, 10, 20)]⟩ :=
  .cons (.elsewhere _ rfl (by simp) rfl) (.cons (.elsewhere _ rfl (by simp) rfl)
    (.cons .clock (.cons (.reply (fun _ => false) rfl rfl) (.cons (.accepted _) (.nil _)))))

theorem requested_steps : ∃ q, Steps (bot.code deployment) requested q ∧
    Steps q [⟨.markFailedById 1, .ok ()⟩] (.ret ()) :=
  ⟨_, .call (.call (.call (.call (.call (.done _))))), .call (.done _)⟩

theorem processed_answers :
    Answers (requestSystem deployment) job ⟨0, created, [(1, 10, 20)]⟩ processed
      ⟨0, delivered, [(1, 10, 20)]⟩ :=
  .cons (.reply (fun _ => false) rfl rfl) (.cons (.elsewhere _ rfl (by simp) rfl)
    (.cons (.reply (fun _ => false) rfl rfl) (.cons (.elsewhere _ rfl (by simp) rfl)
      (.cons (.elsewhere _ rfl (by simp) rfl) (.cons (.elsewhere _ rfl (by simp) rfl)
        (.cons (.elsewhere _ rfl (by simp) rfl) (.cons (.elsewhere _ rfl (by simp) rfl)
          (.cons .clock (.cons (.reply (fun _ => false) rfl rfl)
            (.cons (.elsewhere _ rfl (by simp) rfl)
              (.cons (.elsewhere _ rfl (by simp) rfl) (.nil _))))))))))))

theorem processed_steps : Steps (job.code deployment) processed (.ret ()) :=
  .call (.call (.call (.call (.call (.call (.call (.call (.call (.call (.call (.call
    (.done _))))))))))))

theorem marked_answers :
    Answers (requestSystem deployment) bot ⟨0, delivered, [(1, 10, 20)]⟩
      [⟨.markFailedById 1, .ok ()⟩] ⟨0, delivered.effect 0 (.markFailedById 1), [(1, 10, 20)]⟩ :=
  .cons (.reply (fun _ => false) rfl rfl) (.nil _)

/-- The clock stands still, and the actors started at zero. -/
theorem timely_actor {i : Nat} {th : ActorThread} {e : Ev} (hnow : c.shared.now = 0)
    (hi : c.threads[i]? = some th) (hk : th.kind = bot ∨ th.kind = job) :
    Timely deployment c (.call i e) := by
  refine timely_call hnow hi ?_
  intro start id chatId messageId hjob
  rcases hk with hk | hk
  · rw [hk] at hjob
    cases hjob
  · rw [hk] at hjob
    cases hjob
    rfl

/-- The row of the delivered file. -/
theorem delivered_row :
    delivered.get? 1 = some ((Row.fromEntity request 0).finish .done (some 0) 0) := by
  decide

theorem marked_row : (delivered.effect 0 (.markFailedById 1)).get? 1 =
    some ((Row.fromEntity request 0).finish .failed (some 0) 0) := by
  decide

/-- A call that marks nothing is guarded. -/
theorem guarded_call {i : Nat} {th : ActorThread} {e : Ev} {c' : Actors}
    (hnow : c.shared.now = 0) (hi : c.threads[i]? = some th)
    (hk : th.kind = bot ∨ th.kind = job) (hmark : ∀ id, e.call ≠ .markFailedById id) :
    Guarded deployment c (.call i e) c' := by
  refine ⟨timely_actor hnow hi hk, ?_⟩
  rintro _ id r ⟨rfl⟩
  exact absurd rfl (hmark id)

theorem start_bot : Reach (requestSystem deployment) (Guarded deployment) ⟨⟨0, empty, []⟩, []⟩
    ⟨⟨0, empty, []⟩, [Thread.new (requestSystem deployment) bot]⟩ := by
  have hstep : Step (requestSystem deployment) ⟨⟨0, empty, []⟩, []⟩ (.start bot)
      ⟨⟨0, empty, []⟩, [Thread.new (requestSystem deployment) bot]⟩ := .start trivial
  refine .tail .refl hstep ⟨⟨?_, ?_⟩, ?_⟩
  · rintro _ _ _ _ _ _ _ ⟨⟩
  · rintro _ _ _ _ ⟨⟩
  · rintro _ _ _ ⟨⟩

/-- The file is delivered before the bot hears that its enqueue failed. -/
theorem delivered_reach : ∃ q, Steps q [⟨.markFailedById 1, .ok ()⟩] (.ret ()) ∧
    Reach (requestSystem deployment) (Guarded deployment) ⟨⟨0, empty, []⟩, []⟩
      ⟨⟨0, delivered, [(1, 10, 20)]⟩,
        [⟨bot, q, requested, false⟩, ⟨job, .ret (), processed, false⟩]⟩ := by
  obtain ⟨q, hq, hmark⟩ := requested_steps
  refine ⟨q, hmark, ?_⟩
  have hbot : [Thread.new (requestSystem deployment) bot][0]? =
      some ⟨bot, bot.code deployment, [], false⟩ := rfl
  have h1 := start_bot.runThread (fun w => w.now = 0) (answer_keeps_time _ 0)
    (fun c th e c' hnow hi hk he => guarded_call hnow hi (.inl hk) fun id hid => by
      simp only [requested, List.mem_cons, List.not_mem_nil, or_false] at he
      rcases he with rfl | rfl | rfl | rfl | rfl <;> cases hid)
    rfl hbot hq requested_answers
  have hstep : Step (requestSystem deployment)
      ⟨⟨0, created, [(1, 10, 20)]⟩, [⟨bot, q, requested, false⟩]⟩ (.start job)
      ⟨⟨0, created, [(1, 10, 20)]⟩,
        [⟨bot, q, requested, false⟩, Thread.new (requestSystem deployment) job]⟩ :=
    .start ⟨rfl, List.mem_singleton.mpr rfl⟩
  have h2 := Reach.tail h1 hstep ⟨⟨by rintro _ _ _ _ _ _ _ ⟨⟩, ?_⟩, by rintro _ _ _ ⟨⟩⟩
  · have hjob : ([⟨bot, q, requested, false⟩, Thread.new (requestSystem deployment) job] :
        List ActorThread)[1]? = some ⟨job, job.code deployment, [], false⟩ := rfl
    refine h2.runThread (fun w => w.now = 0) (answer_keeps_time _ 0)
      (fun c th e c' hnow hi hk he => guarded_call hnow hi (.inr hk) fun id hid => ?_)
      rfl hjob processed_steps processed_answers
    simp only [List.mem_cons, List.not_mem_nil, or_false] at he
    rcases he with rfl | rfl | rfl | rfl | rfl | rfl | rfl | rfl | rfl | rfl | rfl | rfl <;>
      cases hid
  · -- the only thread so far is the bot's
    rintro _ _ _ _ - j th start hj ⟨⟨_, _, hk⟩, -⟩
    have hth : th = ⟨bot, q, requested, false⟩ := List.mem_singleton.mp (List.mem_of_getElem? hj)
    rw [hth] at hk
    cases hk

/-- The job is delivered again: it reads the finished request and is refused the claim. -/
def redelivered : Trace :=
  [⟨.getById 1, .ok (some (request.markProcessing.markDone 0))⟩,
    ⟨.userGetById 2, .ok (some sender)⟩, ⟨.claimForProcessing 1, .ok false⟩]

theorem redelivered_answers : Answers (requestSystem deployment) job
    ⟨0, delivered, [(1, 10, 20)]⟩ redelivered
    ⟨0, delivered.effect 0 (.claimForProcessing 1), [(1, 10, 20)]⟩ :=
  .cons (.reply (fun _ => false) rfl rfl) (.cons (.elsewhere _ rfl (by simp) rfl)
    (.cons (.reply (fun _ => false) rfl rfl) (.nil _)))

theorem redelivered_steps : Steps (job.code deployment) redelivered (.ret ()) :=
  .call (.call (.call (.done _)))

theorem redelivered_reach (q : Program Unit) : Reach (requestSystem deployment)
    (Guarded deployment)
    ⟨⟨0, delivered, [(1, 10, 20)]⟩, [⟨bot, q, requested, false⟩, ⟨job, .ret (), processed, false⟩]⟩
    ⟨⟨0, delivered.effect 0 (.claimForProcessing 1), [(1, 10, 20)]⟩,
      [⟨bot, q, requested, false⟩, ⟨job, .ret (), processed, false⟩,
        ⟨job, .ret (), redelivered, false⟩]⟩ := by
  have hstep : Step (requestSystem deployment)
      ⟨⟨0, delivered, [(1, 10, 20)]⟩,
        [⟨bot, q, requested, false⟩, ⟨job, .ret (), processed, false⟩]⟩ (.start job)
      ⟨⟨0, delivered, [(1, 10, 20)]⟩, [⟨bot, q, requested, false⟩,
        ⟨job, .ret (), processed, false⟩, Thread.new (requestSystem deployment) job]⟩ :=
    .start ⟨rfl, List.mem_singleton.mpr rfl⟩
  have hstarted : Reach (requestSystem deployment) (Guarded deployment) _ _ :=
    .tail .refl hstep ⟨⟨by rintro _ _ _ _ _ _ _ ⟨⟩, ?_⟩, by rintro _ _ _ ⟨⟩⟩
  · have hjob : ([⟨bot, q, requested, false⟩, ⟨job, .ret (), processed, false⟩,
        Thread.new (requestSystem deployment) job] : List ActorThread)[2]? =
        some ⟨job, job.code deployment, [], false⟩ := rfl
    refine hstarted.runThread (fun w => w.now = 0) (answer_keeps_time _ 0)
      (fun c th e c' hnow hi hk he => guarded_call hnow hi (.inr hk) fun id hid => ?_)
      rfl hjob redelivered_steps redelivered_answers
    simp only [List.mem_cons, List.not_mem_nil, or_false] at he
    rcases he with rfl | rfl | rfl <;> cases hid
  · -- the bot is no job, and the first job is over
    rintro _ _ _ _ - j th start hj ⟨⟨_, _, hk⟩, -, hunfinished, -⟩
    have hth := List.mem_of_getElem? hj
    simp only [List.mem_cons, List.not_mem_nil, or_false] at hth
    rcases hth with rfl | rfl
    · cases hk
    · exact hunfinished rfl

theorem an_hour_later (t : Table) (ths : List ActorThread) :
    Reach (requestSystem deployment) (Guarded deployment)
      ⟨⟨0, t, [(1, 10, 20)]⟩, ths⟩ ⟨⟨3600, t, [(1, 10, 20)]⟩, ths⟩ := by
  have hstep : Step (requestSystem deployment) ⟨⟨0, t, [(1, 10, 20)]⟩, ths⟩ .drift
      ⟨⟨3600, t, [(1, 10, 20)]⟩, ths⟩ :=
    .drift ⟨3600, (by decide : (0 : Int) ≤ 3600), rfl⟩
  refine .tail .refl hstep ⟨⟨?_, ?_⟩, ?_⟩
  · rintro _ _ _ _ _ _ _ ⟨⟩
  · rintro _ _ _ _ ⟨⟩
  · rintro _ _ _ ⟨⟩

end LostReply

/-- The delivered row is still DONE after its job was delivered again, an hour later. -/
theorem terminal_absorbing_delivered :
    ∃ c : Actors, Reach (requestSystem LostReply.deployment) (Guarded LostReply.deployment)
        ⟨⟨0, LostReply.empty, []⟩, []⟩ c ∧ c.shared.now = 3600 ∧
      (∃ th, c.threads[2]? = some th ∧ th.trace = LostReply.redelivered) ∧
      c.shared.table.get? 1 =
        some ((Row.fromEntity LostReply.request 0).finish .done (some 0) 0) := by
  obtain ⟨q, -, hreach⟩ := LostReply.delivered_reach
  have hlater := (LostReply.redelivered_reach q).trans (LostReply.an_hour_later _ _)
  exact ⟨_, hreach.trans hlater, rfl, ⟨_, rfl, rfl⟩,
    terminal_absorbing LostReply.deployment rfl hreach hlater LostReply.delivered_row (by decide)⟩

/-- A lost reply of the queue: the row of a delivered file ends up FAILED. -/
theorem terminal_not_absorbing : ¬ ∀ (d : Deployment) (c₀ c c' : Actors) (id : UUID) (row : Row),
    c₀.threads = [] → Reach (requestSystem d) (fun c l _ => Timely d c l) c₀ c →
    Reach (requestSystem d) (fun c l _ => Timely d c l) c c' →
    c.shared.table.get? id = some row → row.isTerminal = true →
    ∃ row', c'.shared.table.get? id = some row' ∧ row'.status = row.status ∧
      row'.completedAt = row.completedAt := by
  intro hall
  obtain ⟨q, hmark, hreach⟩ := LostReply.delivered_reach
  have hbot : ([⟨LostReply.bot, q, LostReply.requested, false⟩,
      ⟨LostReply.job, .ret (), LostReply.processed, false⟩] : List ActorThread)[0]? =
      some ⟨LostReply.bot, q, LostReply.requested, false⟩ := rfl
  have hmarked := (@Reach.refl _ _ _ _ _ (requestSystem LostReply.deployment)
    (fun c l _ => Timely LostReply.deployment c l)
    ⟨⟨0, LostReply.delivered, [(1, 10, 20)]⟩, _⟩).runThread (fun w => w.now = 0)
    (answer_keeps_time _ 0)
    (fun c th e c' hnow hi hk _ => LostReply.timely_actor hnow hi (.inl hk))
    rfl hbot hmark LostReply.marked_answers
  obtain ⟨row', hrow', hst, -⟩ := hall LostReply.deployment _ _ _ 1 _ rfl
    (hreach.mono fun _ _ _ hA => hA.1) hmarked LostReply.delivered_row (by decide)
  have hfailed := LostReply.marked_row.symm.trans hrow'
  cases hfailed
  revert hst
  decide

end MediaDownloader
