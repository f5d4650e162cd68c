import MediaDownloader.Lib.Interleaving
import MediaDownloader.Application.ProcessStory
import MediaDownloader.Application.ReapStaleRequests
import MediaDownloader.Application.RequestDownload
import MediaDownloader.Infrastructure.DownloadRequestRepository

/-!
# Bots, jobs and reapers on one table

Any number of bot handlers, download jobs and reaper ticks run side by side.
The database answers their repository calls one at a time; a reply may get
lost, the clock only goes forward, and everything else answers as it likes.

* `actor_wp`: what each actor calls, and when;
* `Sound.reach`: clocks, claims and answers are in order in every reached state;
* `row_step`: a row changes only by an allowed call of a running actor;
* `reaped_not_live`: whoever claimed a row that is reaped ran out of time.
-/

namespace MediaDownloader

open Interaction

/-! ## The shared world -/

/-- The clock, the database and the queue. -/
structure World where
  now : Time
  table : Table
  /-- Jobs the queue has accepted: request, chat and message. -/
  accepted : List (UUID × Int × Int)

/-- A `DownloadRequestRepository` call. -/
def Call.isRepository : Call → Bool
  | .getById _ => true
  | .create _ => true
  | .update _ => true
  | .markFailedById _ => true
  | .claimForProcessing _ => true
  | .selectStale _ _ => true
  | .updateStale _ _ => true
  | _ => false

def Call.isEnqueue : Call → Bool
  | .enqueueDownload _ _ _ => true
  | _ => false

def Exc.isCorruptedRecord : Exc → Bool
  | .corruptedRecord _ _ _ _ => true
  | _ => false

/-- How the world answers a call.  A repository call runs and replies, runs and
loses its reply, or does not run; only the repository itself finds a row
corrupted.  An enqueue may raise although the job was accepted. -/
inductive Served (w : World) : (c : Call) → Except Exc (Resp c) → World → Prop
  | reply {c : Call} {r : Except Exc (Resp c)} (locked : UUID → Bool) :
      c.isRepository = true → r = w.table.respond locked c →
      Served w c r { w with table := w.table.effect w.now c }
  | lost {c : Call} {e : Exc} : c.isRepository = true → e.isCorruptedRecord = false →
      Served w c (.error e) { w with table := w.table.effect w.now c }
  | failed {c : Call} {e : Exc} : c.isRepository = true → e.isCorruptedRecord = false →
      Served w c (.error e) w
  | clock : Served w .utcnow (.ok w.now) w
  | accepted {id : UUID} {chatId messageId : Int} (r : Except Exc Str) :
      Served w (.enqueueDownload id chatId messageId) r
        { w with accepted := (id, chatId, messageId) :: w.accepted }
  | refused {id : UUID} {chatId messageId : Int} (e : Exc) :
      Served w (.enqueueDownload id chatId messageId) (.error e) w
  | elsewhere {c : Call} (r : Except Exc (Resp c)) : c.isRepository = false → c ≠ .utcnow →
      c.isEnqueue = false → Served w c r w

/-- The answers `Served` allows, call by call. -/
def Answerable : Ev → Prop
  | ⟨.getById id, .ok (some request)⟩ => request.id = id
  | ⟨.getById id, .error (.corruptedRecord _ _ rid _)⟩ => rid = id
  | e => ReapStaleRequests.Selectable e

namespace Served

variable {w w' : World}

theorem now_eq {c : Call} {r : Except Exc (Resp c)} (h : Served w c r w') : w'.now = w.now := by
  cases h <;> rfl

/-- The table stays, or the call runs on it. -/
theorem table_cases {c : Call} {r : Except Exc (Resp c)} (h : Served w c r w') :
    w'.table = w.table ∨ (c.isRepository = true ∧ w'.table = w.table.effect w.now c) := by
  cases h with
  | reply _ hc _ => exact .inr ⟨hc, rfl⟩
  | lost hc _ => exact .inr ⟨hc, rfl⟩
  | _ => exact .inl rfl

theorem row_cases {c : Call} {r : Except Exc (Resp c)} (h : Served w c r w') {id : UUID}
    {row : Row} (hrow : w.table.get? id = some row) :
    w'.table.get? id = some row ∨
      ∃ row', w'.table.get? id = some row' ∧ Row.Change w.now id row c row' := by
  rcases h.table_cases with ht | ⟨-, ht⟩
  · rw [ht]
    exact .inl hrow
  · rw [ht]
    exact Table.effect_cases hrow w.now c

theorem clock_eq {r : Except Exc Time} (h : Served w .utcnow r w') : r = .ok w.now := by
  cases h with
  | reply _ hc _ => cases hc
  | lost hc _ => cases hc
  | failed hc _ => cases hc
  | clock => rfl
  | elsewhere _ _ hne _ => exact absurd rfl hne

/-- A granted claim found the row active, and leaves it PROCESSING. -/
theorem claimed {id : UUID} (h : Served w (.claimForProcessing id) (.ok true) w') :
    ∃ row, w.table.get? id = some row ∧ row.isActive = true ∧
      w'.table.get? id = some (row.setStatus .processing w.now) := by
  cases h with
  | reply _ _ hr =>
    have hc : w.table.isClaimable id = true := (Except.ok.inj hr).symm
    obtain ⟨row, hrow, hact⟩ := (Table.isClaimable_iff _ _).mp hc
    exact ⟨row, hrow, hact, Table.effect_claim hrow hact w.now⟩
  | elsewhere _ hc _ _ => cases hc

/-- Every id the UPDATE returns was a stale row, and is FAILED now. -/
theorem reaped {candidates : List Candidate} {updatedBefore : Time} {ids : List UUID}
    (h : Served w (.updateStale candidates updatedBefore) (.ok ids) w') {id : UUID}
    (hid : id ∈ ids) :
    ∃ row, w.table.get? id = some row ∧ id ∈ candidates.map Candidate.id ∧
      row.isActive = true ∧ row.updatedAt < updatedBefore ∧
      w'.table.get? id = some (row.finish .failed (some w.now) w.now) := by
  cases h with
  | reply _ _ hr =>
    have he := Except.ok.inj hr
    rw [he] at hid
    obtain ⟨row, hrow, hc, ha, hu⟩ := Table.mem_reaped hid
    exact ⟨row, hrow, hc, ha, hu, Table.effect_updateStale hrow hc ha hu w.now⟩
  | elsewhere _ hc _ _ => cases hc

/-- The SELECT returns stale rows as they are. -/
theorem selected {updatedBefore : Time} {limit : Nat} {candidates : List Candidate}
    (h : Served w (.selectStale updatedBefore limit) (.ok candidates) w') {cand : Candidate}
    (hc : cand ∈ candidates) :
    ∃ row, w.table.get? cand.id = some row ∧ row.isActive = true ∧
      row.updatedAt < updatedBefore ∧ row.userId = cand.userId ∧ row.status = cand.status ∧
      w'.table = w.table := by
  cases h with
  | reply _ _ hr =>
    have he := Except.ok.inj hr
    rw [he] at hc
    obtain ⟨row, hrow, ha, hu, huser, hst⟩ := Table.mem_selectStale hc
    exact ⟨row, hrow, ha, hu, huser, hst, rfl⟩
  | elsewhere _ hc _ _ => cases hc

theorem selectable {updatedBefore : Time} {limit : Nat} {candidates : List Candidate}
    (h : Served w (.selectStale updatedBefore limit) (.ok candidates) w') :
    ReapStaleRequests.Selectable ⟨.selectStale updatedBefore limit, .ok candidates⟩ := by
  refine ⟨?_, fun cand hc => ?_⟩
  · cases h with
    | reply locked _ hr =>
      rw [Except.ok.inj hr]
      exact Table.selectStale_nodup _ _ _ _
    | elsewhere _ hc _ _ => cases hc
  · obtain ⟨row, -, ha, -, -, hst, -⟩ := h.selected hc
    rw [← hst]
    rcases (Row.isActive_iff row).mp ha with h | h
    · exact ⟨.pending, h ▸ DownloadStatus.parse_value .pending⟩
    · exact ⟨.processing, h ▸ DownloadStatus.parse_value .processing⟩

/-- An entity comes under the key it was asked for. -/
theorem readId {id : UUID} {request : DownloadRequest}
    (h : Served w (.getById id) (.ok (some request)) w') : request.id = id := by
  cases h with
  | reply _ _ hr =>
    simp only [Table.respond, Table.getById] at hr
    split at hr
    · cases hr
    · next row hrow =>
      cases he : row.toEntity with
      | error e =>
        rw [he] at hr
        cases hr
      | ok request' =>
        rw [he] at hr
        cases hr
        exact (Row.toEntity_id he).trans (Table.get?_id hrow)
  | elsewhere _ hc _ _ => cases hc

/-- Only a row that cannot be read is reported corrupted, under its own key. -/
theorem corrupted {id rid uid : UUID} {column raw : Str}
    (h : Served w (.getById id) (.error (.corruptedRecord column raw rid uid)) w') :
    ∃ row, w.table.get? id = some row ∧ rid = id ∧ ¬ row.Readable := by
  cases h with
  | reply _ _ hr =>
    simp only [Table.respond, Table.getById] at hr
    split at hr
    · cases hr
    · next row hrow =>
      cases he : row.toEntity with
      | error e =>
        rw [he] at hr
        cases hr
        obtain ⟨hid, hread⟩ := Row.toEntity_corrupted he
        exact ⟨row, hrow, hid.trans (Table.get?_id hrow), hread⟩
      | ok request' =>
        rw [he] at hr
        cases hr
  | lost _ he => cases he
  | failed _ he => cases he
  | elsewhere _ hc _ _ => cases hc

theorem answerable {c : Call} {r : Except Exc (Resp c)} (h : Served w c r w') :
    Answerable ⟨c, r⟩ := by
  unfold Answerable
  split
  · next he =>
    cases he
    exact h.readId
  · next he =>
    cases he
    obtain ⟨_, _, hid, _⟩ := h.corrupted
    exact hid
  · unfold ReapStaleRequests.Selectable
    split
    · next he =>
      cases he
      exact h.selectable
    · trivial

end Served

/-! ## The actors -/

/-- The settings the processes run with. -/
structure Deployment where
  unicode : Unicode
  policy : FormatPolicy
  jobs : ProcessDownload
  reaper : ReapStaleRequests

/-- Half an hour for a job, ten minutes of grace. -/
def halfHourReaper : ReapStaleRequests := ⟨1800, 600, 10, by decide, by decide⟩

/-- A bot handler's use case, a job run or a reaper tick; a job remembers when
it started. -/
inductive Actor where
  | bot (telegramId : Int) (url : Str) (spec : DownloadSpec) (extractorKey : Str)
      (chatId messageId : Int)
  | job (start : Time) (requestId : UUID) (chatId messageId : Int)
  | reaper
  deriving DecidableEq

namespace Actor

def code (d : Deployment) : Actor → Program Unit
  | .bot telegramId url spec extractorKey chatId messageId =>
    Prog.map (fun _ => ()) (RequestDownload.execute d.unicode d.policy telegramId url spec
      extractorKey chatId messageId)
  | .job _ requestId chatId messageId =>
    Prog.map (fun _ => ()) (d.jobs.withAnyDownloader.execute requestId chatId messageId)
  | .reaper => Prog.map (fun _ => ()) d.reaper.execute

/-- What the actor may call after the history `g`. -/
def Allowed (d : Deployment) : Actor → Trace → Call → Prop
  | .bot _ url spec extractorKey _ _ =>
    RequestDownload.Allowed d.unicode d.policy url spec extractorKey
  | .job _ requestId _ _ => Warranted requestId d.jobs.minFreeDiskBytes
  | .reaper => ReapStaleRequests.Allowed d.reaper

def Post : Actor → Trace → Unit → Prop
  | .reaper, t, _ => ReapStaleRequests.Completed t
  | _, _, _ => True

end Actor

theorem selectable_of_answerable {e : Ev} (h : Answerable e) : ReapStaleRequests.Selectable e := by
  unfold Answerable at h
  split at h
  · trivial
  · trivial
  · exact h

/-- Each actor keeps to what it may call. -/
theorem actor_wp (d : Deployment) (k : Actor) :
    wp (historyMonitor Answerable (k.Allowed d)) (k.code d) [] k.Post := by
  cases k with
  | bot telegramId url spec extractorKey chatId messageId =>
    refine (wp_map _ _ _ _ _).mpr (wp_mono _ (wp_assume ?_ (RequestDownload.wp_execute _ _ _ _ _ _ _ _)) ?_)
    · exact fun _ _ => trivial
    · exact fun _ _ _ => trivial
  | job start requestId chatId messageId =>
    refine (wp_map _ _ _ _ _).mpr (wp_mono _ (wp_assume ?_ (ProcessDownload.wp_execute _ _ _ _)) ?_)
    · exact fun _ _ => trivial
    · exact fun _ _ _ => trivial
  | reaper =>
    refine (wp_map _ _ _ _ _).mpr (wp_mono _ (wp_assume ?_ (ReapStaleRequests.wp_execute _)) ?_)
    · exact fun e he => selectable_of_answerable he
    · exact fun _ _ h => h

/-- The system: jobs start from the queue, time only goes forward. -/
def requestSystem (d : Deployment) : System Call Resp Exc Actor World where
  code := Actor.code d
  start w
    | .job start requestId chatId messageId =>
      start = w.now ∧ (requestId, chatId, messageId) ∈ w.accepted
    | _ => True
  answer w _ c r w' := Served w c r w'
  drift w w' := ∃ now, w.now ≤ now ∧ w' = { w with now := now }

/-- Calls take no time. -/
theorem answer_keeps_time (d : Deployment) (now : Time) (w : World) (k : Actor) (cl : Call)
    (r : Except Exc (Resp cl)) (w' : World) (hnow : w.now = now)
    (h : (requestSystem d).answer w k cl r w') : w'.now = now := by
  have hserved : Served w cl r w' := h
  rw [hserved.now_eq, hnow]

abbrev Actors := Conf Call Resp Exc Actor World
abbrev ActorThread := Thread Call Resp Exc Actor
abbrev ActorLabel := Label Call Resp Exc Actor

/-! ## What holds in every reached state -/

/-- No thread has seen a clock ahead of now, or started later. -/
def OnTime (c : Actors) : Prop :=
  ∀ (i : Nat) (th : ActorThread), c.threads[i]? = some th →
    (∀ now : Time, ⟨.utcnow, .ok now⟩ ∈ th.trace → now ≤ c.shared.now) ∧
      ∀ start id chatId messageId, th.kind = .job start id chatId messageId → start ≤ c.shared.now

/-- The row of a granted claim has been stamped since the job's start. -/
def ClaimsStamped (c : Actors) : Prop :=
  ∀ (i : Nat) (th : ActorThread), c.threads[i]? = some th →
    ∀ start jobId chatId messageId id, th.kind = .job start jobId chatId messageId →
      ⟨.claimForProcessing id, .ok true⟩ ∈ th.trace →
      ∃ row, c.shared.table.get? id = some row ∧ start ≤ row.updatedAt

structure Sound (d : Deployment) (c : Actors) : Prop where
  coded : c.Coded (requestSystem d)
  answered : c.Answered Answerable
  onTime : OnTime c
  stamped : ClaimsStamped c

section Steps

variable {d : Deployment} {c c' : Actors} {l : ActorLabel}

theorem now_le (h : Step (requestSystem d) c l c') : c.shared.now ≤ c'.shared.now := by
  rcases h.shared_cases with he | ⟨-, now, hn, he⟩ | ⟨i, th, e, -, hcall⟩
  · exact Int.le_of_eq (congrArg World.now he.symm)
  · rw [he]
    exact hn
  · have hs : Served c.shared e.call e.resp c'.shared := hcall.answer
    exact Int.le_of_eq hs.now_eq.symm

/-- The call by which thread `i` turned `row` into `row'`. -/
structure Write (d : Deployment) (c : Actors) (l : ActorLabel) (s : World) (id : UUID)
    (row row' : Row) (i : Nat) (th : ActorThread) (e : Ev) : Prop
    extends c.Calls (requestSystem d) i th e s where
  label : l = .call i e
  allowed : th.kind.Allowed d th.trace e.call
  after : s.table.get? id = some row'
  change : Row.Change c.shared.now id row e.call row'

/-- A row stays, or an allowed call of a running thread changes it. -/
theorem row_step (hc : c.Coded (requestSystem d)) (ha : c.Answered Answerable)
    (h : Step (requestSystem d) c l c') {id : UUID} {row : Row}
    (hrow : c.shared.table.get? id = some row) :
    c'.shared.table.get? id = some row ∨
      ∃ row' i th e, Write d c l c'.shared id row row' i th e := by
  rcases h.shared_cases with he | ⟨-, now, -, he⟩ | ⟨i, th, e, hl, hcall⟩
  · rw [he]
    exact .inl hrow
  · rw [he]
    exact .inl hrow
  · have hs : Served c.shared e.call e.resp c'.shared := hcall.answer
    rcases hs.row_cases hrow with hr | ⟨row', hr, hchange⟩
    · exact .inl hr
    · obtain ⟨f, hf⟩ := hcall.next
      have hallow := hc.allows (actor_wp d) hcall.thread (ha i th hcall.thread) hf
      exact .inr ⟨row', i, th, e, { hcall with label := hl, allowed := hallow, after := hr, change := hchange }⟩

/-- A row once stamped at or after `since` keeps such a stamp. -/
theorem stamped_step (hc : c.Coded (requestSystem d)) (ha : c.Answered Answerable)
    (h : Step (requestSystem d) c l c') {id : UUID} {since : Time} (hn : since ≤ c.shared.now)
    (hrow : ∃ row, c.shared.table.get? id = some row ∧ since ≤ row.updatedAt) :
    ∃ row, c'.shared.table.get? id = some row ∧ since ≤ row.updatedAt := by
  obtain ⟨row, hrow, hu⟩ := hrow
  rcases row_step hc ha h hrow with hr | ⟨row', i, th, e, hw⟩
  · exact ⟨row, hr, hu⟩
  · refine ⟨row', hw.after, ?_⟩
    rw [hw.change.updatedAt]
    exact hn

theorem OnTime.step (hs : OnTime c) (h : Step (requestSystem d) c l c') : OnTime c' := by
  have hle := now_le h
  intro j th' hj
  rcases h.thread_cases hj with ⟨th, hi, hk, ht, -⟩ | ⟨k, hl, -, rfl⟩ |
    ⟨th, ⟨cl, r⟩, f, -, hcall, -, rfl⟩
  · obtain ⟨h1, h2⟩ := hs j th hi
    rw [ht, hk]
    constructor
    · intro now hm
      exact Int.le_trans (h1 now hm) hle
    · intro start id chatId messageId hkind
      exact Int.le_trans (h2 start id chatId messageId hkind) hle
  · subst hl
    constructor
    · intro now hm
      cases hm
    · intro start id chatId messageId hkind
      cases h with
      | start hst =>
        have hk : k = .job start id chatId messageId := hkind
        rw [hk] at hst
        exact Int.le_of_eq hst.1
  · obtain ⟨h1, h2⟩ := hs j th hcall.thread
    constructor
    · intro now hm
      rcases List.mem_append.mp hm with hm | hm
      · exact Int.le_trans (h1 now hm) hle
      · cases List.mem_singleton.mp hm
        have hserved : Served c.shared .utcnow (.ok now) c'.shared := hcall.answer
        have hnow : now = c.shared.now := Except.ok.inj hserved.clock_eq
        exact Int.le_trans (Int.le_of_eq hnow) hle
    · intro start id chatId messageId hkind
      exact Int.le_trans (h2 start id chatId messageId hkind) hle

theorem ClaimsStamped.step (hs : Sound d c) (h : Step (requestSystem d) c l c') :
    ClaimsStamped c' := by
  intro j th' hj start jobId chatId messageId id hkind hm
  obtain ⟨th, hk, ⟨hi, hold⟩ | ⟨-, hcall⟩⟩ := h.event_cases hj hm
  · rw [hk] at hkind
    have hstarted : start ≤ c.shared.now := (hs.onTime j th hi).2 _ _ _ _ hkind
    exact stamped_step hs.coded hs.answered h hstarted (hs.stamped j th hi _ _ _ _ _ hkind hold)
  · rw [hk] at hkind
    have hserved : Served c.shared (.claimForProcessing id) (.ok true) c'.shared := hcall.answer
    obtain ⟨row, -, -, hrow⟩ := hserved.claimed
    exact ⟨_, hrow, (hs.onTime j th hcall.thread).2 _ _ _ _ hkind⟩

theorem Sound.step (hs : Sound d c) (h : Step (requestSystem d) c l c') : Sound d c' where
  coded := h.coded hs.coded
  answered := h.answered (fun _ _ _ _ _ hserved => Served.answerable hserved) hs.answered
  onTime := hs.onTime.step h
  stamped := ClaimsStamped.step hs h

/-- Before anyone has started. -/
theorem Sound.init (h : c.threads = []) : Sound d c where
  coded := Conf.coded_of_nil h
  answered := Conf.answered_of_nil h
  onTime _ _ hi := absurd hi (Conf.not_started h)
  stamped _ _ hi := absurd hi (Conf.not_started h)

theorem Sound.reach {A : Actors → ActorLabel → Actors → Prop} {c₀ : Actors}
    (h : Reach (requestSystem d) A c₀ c) (h0 : c₀.threads = []) : Sound d c :=
  h.invariant (Sound.init h0) fun _ _ _ hs hstep _ => hs.step hstep

/-! ## Who wrote -/

theorem isClaimOf_iff {id : UUID} {e : Ev} :
    isClaimOf id e = true ↔ e = ⟨.claimForProcessing id, .ok true⟩ := by
  constructor
  · intro h
    unfold isClaimOf at h
    split at h
    · rw [beq_iff_eq.mp h]
    · cases h
  · rintro rfl
    simp [isClaimOf]

theorem any_isClaimOf_iff {id : UUID} {t : Trace} :
    t.any (isClaimOf id) = true ↔ ⟨.claimForProcessing id, .ok true⟩ ∈ t := by
  rw [List.any_eq_true]
  constructor
  · rintro ⟨e, he, h⟩
    exact isClaimOf_iff.mp h ▸ he
  · intro h
    exact ⟨_, h, isClaimOf_iff.mpr rfl⟩

/-- A job claims its own request only. -/
theorem claims_own (hs : Sound d c) {i : Nat} {th : ActorThread} (hi : c.threads[i]? = some th)
    {start : Time} {jobId id : UUID} {chatId messageId : Int}
    (hk : th.kind = .job start jobId chatId messageId)
    (hm : ⟨.claimForProcessing id, .ok true⟩ ∈ th.trace) : id = jobId := by
  obtain ⟨u, v, ht⟩ := List.append_of_mem hm
  have hallow := hs.coded.made (actor_wp d) hi (hs.answered i th hi) ht
  rw [hk] at hallow
  obtain ⟨-, request, hread, hid⟩ := hallow
  have hmem : ⟨.getById jobId, .ok (some request)⟩ ∈ th.trace := by
    rw [ht]
    exact List.mem_append_left _ hread
  have hans : request.id = jobId := hs.answered i th hi _ hmem
  rw [← hid, hans]

/-- Only a job updates a row, after claiming it and before any other write. -/
theorem allowed_update {k : Actor} {g : Trace} {request : DownloadRequest}
    (h : k.Allowed d g (.update request)) :
    (∃ start jobId chatId messageId, k = .job start jobId chatId messageId) ∧
      ⟨.claimForProcessing request.id, .ok true⟩ ∈ g ∧ (afterClaim g).countP isWrite = 0 ∧
      (request.status = .done ∨ request.status = .failed) := by
  cases k with
  | bot _ _ _ _ _ _ => exact h.elim
  | job start jobId chatId messageId =>
    obtain ⟨⟨hclaim, hwrites⟩, hst⟩ := h
    refine ⟨⟨start, jobId, chatId, messageId, rfl⟩, any_isClaimOf_iff.mp hclaim, hwrites, ?_⟩
    rcases hst with ⟨hst, -⟩ | ⟨hst, -⟩
    · exact .inl hst
    · exact .inr hst
  | reaper => exact h.elim

/-- Only a reaper reaps, below a cutoff it computed from the clock. -/
theorem allowed_updateStale {k : Actor} {g : Trace} {candidates : List Candidate}
    {updatedBefore : Time} (h : k.Allowed d g (.updateStale candidates updatedBefore)) :
    k = .reaper ∧ ∃ (now : Time) (limit : Nat),
      g = [⟨.utcnow, .ok now⟩, ⟨.selectStale updatedBefore limit, .ok candidates⟩] ∧
        updatedBefore = now - d.reaper.staleAfter := by
  cases k with
  | bot _ _ _ _ _ _ => exact h.elim
  | job _ _ _ _ => exact h.elim
  | reaper => exact ⟨rfl, h⟩

/-- A job inside its time, that has more to do. -/
structure LiveJob (d : Deployment) (w : World) (th : ActorThread) (start : Time) (id : UUID) :
    Prop where
  kind : ∃ chatId messageId, th.kind = .job start id chatId messageId
  running : th.crashed = false
  unfinished : ¬ th.Finished
  inTime : w.now ≤ start + d.reaper.jobTimeout

/-- A job makes no repository call after `job_timeout` from its start. -/
def InTime (d : Deployment) (c : Actors) (l : ActorLabel) : Prop :=
  ∀ i e th start id chatId messageId, l = .call i e → c.threads[i]? = some th →
    th.kind = .job start id chatId messageId → e.call.isRepository = true →
    c.shared.now ≤ start + d.reaper.jobTimeout

/-- Whoever makes a repository call in time is live. -/
theorem caller_live {i : Nat} {th : ActorThread} {e : Ev} {s : World}
    (h : Conf.Calls (requestSystem d) c i th e s) (hl : l = .call i e) (hin : InTime d c l)
    (hrep : e.call.isRepository = true) {start : Time} {id : UUID} {chatId messageId : Int}
    (hk : th.kind = .job start id chatId messageId) : LiveJob d c.shared th start id where
  kind := ⟨chatId, messageId, hk⟩
  running := h.running
  unfinished := h.unfinished
  inTime := hin i e th start id chatId messageId hl h.thread hk hrep

/-- A live job was live before the step, made no call in it or is the caller,
or has just started. -/
theorem LiveJob.before {j : Nat} {th' : ActorThread} {start : Time} {id : UUID}
    (h : Step (requestSystem d) c l c') (hj : c'.threads[j]? = some th')
    (hlive : LiveJob d c'.shared th' start id) :
    (∃ th, c.threads[j]? = some th ∧ LiveJob d c.shared th start id ∧
        ((th'.trace = th.trace ∧ ∀ e, l ≠ .call j e) ∨
          ∃ e, l = .call j e ∧ c.Calls (requestSystem d) j th e c'.shared ∧
            th'.trace = th.trace ++ [e])) ∨
      ∃ chatId messageId, l = .start (.job start id chatId messageId) ∧ j = c.threads.length ∧
        th'.trace = [] := by
  have hle := now_le h
  obtain ⟨⟨chatId, messageId, hkind⟩, hcr, hfin, hin⟩ := hlive
  rcases h.thread_cases hj with ⟨th, hi, hk, ht, hp, hc, hl⟩ | ⟨k, hl, hlen, rfl⟩ |
    ⟨th, e, f, hl, hcall, -, rfl⟩
  · refine .inl ⟨th, hi, ⟨⟨chatId, messageId, hk ▸ hkind⟩, hc hcr, ?_, Int.le_trans hle hin⟩, .inl ⟨ht, hl⟩⟩
    rwa [Thread.Finished, ← hp]
  · have hk : k = .job start id chatId messageId := hkind
    exact .inr ⟨chatId, messageId, hk ▸ hl, hlen, rfl⟩
  · exact .inl ⟨th, hcall.thread, ⟨⟨chatId, messageId, hkind⟩, hcall.running, hcall.unfinished,
      Int.le_trans hle hin⟩, .inr ⟨e, hl, hcall, rfl⟩⟩

/-- When a row is reaped, every job that has claimed it is out of time. -/
theorem reaped_not_live (hs : Sound d c) {i j : Nat} {th th' : ActorThread}
    (hi : c.threads[i]? = some th) {candidates : List Candidate} {updatedBefore : Time}
    (hallow : th.kind.Allowed d th.trace (.updateStale candidates updatedBefore))
    {id : UUID} {row : Row} (hrow : c.shared.table.get? id = some row)
    (hu : row.updatedAt < updatedBefore) (hj : c.threads[j]? = some th')
    (hclaim : ⟨.claimForProcessing id, .ok true⟩ ∈ th'.trace) {start : Time} {jobId : UUID}
    {chatId messageId : Int} (hk : th'.kind = .job start jobId chatId messageId) :
    start + d.reaper.jobTimeout < c.shared.now := by
  obtain ⟨-, now, limit, hg, hcut⟩ := allowed_updateStale hallow
  have hnow : now ≤ c.shared.now := (hs.onTime i th hi).1 now (by simp [hg])
  obtain ⟨row', hrow', hstart⟩ := hs.stamped j th' hj start jobId chatId messageId id hk hclaim
  rw [hrow] at hrow'
  cases hrow'
  have hgrace := d.reaper.grace_pos
  have hcut' : updatedBefore = now - (d.reaper.jobTimeout + d.reaper.grace) := hcut
  simp only [Time] at *
  omega

end Steps

end MediaDownloader
