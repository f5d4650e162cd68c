import MediaDownloader.Application.Ports

/-!
# SqlAlchemyDownloadRequestRepository

The `download_requests` table and the statements the repository runs on it,
each one atomic.  Status and spec are stored as text, so a row may hold what
this build cannot read.

* `get?_updateRows`: a row after a table-wide update;
* `effect_cases`: what one call can do to a row, guards included;
* `effect_none`: rows appear by `create` only.
-/

namespace MediaDownloader

open Interaction

/-- `DownloadRequestModel`. -/
structure Row where
  id : UUID
  userId : UUID
  sourceUrl : Str
  mediaType : Str
  status : Str
  formatKind : Str
  videoTier : Option Str
  createdAt : Time
  completedAt : Option Time
  updatedAt : Time
  deriving DecidableEq

namespace Row

/-- `status IN ('pending', 'processing')`. -/
def isActive (row : Row) : Bool :=
  row.status == DownloadStatus.pending.value || row.status == DownloadStatus.processing.value

/-- `status IN ('done', 'failed')`. -/
def isTerminal (row : Row) : Bool :=
  row.status == DownloadStatus.done.value || row.status == DownloadStatus.failed.value

def setStatus (row : Row) (status : DownloadStatus) (now : Time) : Row :=
  { row with status := status.value, updatedAt := now }

def finish (row : Row) (status : DownloadStatus) (completedAt : Option Time) (now : Time) : Row :=
  { row with status := status.value, completedAt := completedAt, updatedAt := now }

@[simp] theorem setStatus_id (row : Row) (s : DownloadStatus) (now : Time) :
    (row.setStatus s now).id = row.id := rfl

@[simp] theorem finish_id (row : Row) (s : DownloadStatus) (c : Option Time) (now : Time) :
    (row.finish s c now).id = row.id := rfl

/-- Both conditions of the reaper's WHERE. -/
def isStale (row : Row) (updatedBefore : Time) : Bool :=
  row.isActive && row.updatedAt < updatedBefore

/-- `_parse_status`. -/
def parseStatus (row : Row) : Except Exc DownloadStatus :=
  match DownloadStatus.parse row.status with
  | some s => .ok s
  | none => .error (.corruptedRecord (str "status") row.status row.id row.userId)

/-- `_parse_spec`. -/
def parseSpec (row : Row) : Except Exc DownloadSpec :=
  match specFromParts row.formatKind row.videoTier with
  | some spec => .ok spec
  | none => .error (.corruptedRecord (str "spec")
      (row.formatKind ++ str "/" ++ row.videoTier.getD (str "None")) row.id row.userId)

/-- `_to_entity`. -/
def toEntity (row : Row) : Except Exc DownloadRequest := do
  let status ← row.parseStatus
  let spec ← row.parseSpec
  pure
    { id := row.id
      userId := row.userId
      sourceUrl := row.sourceUrl
      mediaType := MediaType.fromDbValue row.mediaType
      status := status
      spec := spec
      createdAt := row.createdAt
      completedAt := row.completedAt }

/-- The row `create` inserts. -/
def fromEntity (request : DownloadRequest) (now : Time) : Row :=
  { id := request.id
    userId := request.userId
    sourceUrl := request.sourceUrl
    mediaType := request.mediaType.value
    status := request.status.value
    formatKind := (specKind request.spec).value
    videoTier := (specVideoTier request.spec).map VideoTier.value
    createdAt := now
    completedAt := none
    updatedAt := now }

@[simp] theorem fromEntity_id (request : DownloadRequest) (now : Time) :
    (fromEntity request now).id = request.id := rfl

/-- This build can read the row. -/
def Readable (row : Row) : Prop :=
  (∃ s, DownloadStatus.parse row.status = some s) ∧
    ∃ spec, specFromParts row.formatKind row.videoTier = some spec

end Row

/-- The table; its primary key is unique. -/
structure Table where
  rows : List Row
  nodup : (rows.map Row.id).Nodup

namespace Table

def get? (t : Table) (id : UUID) : Option Row := t.rows.find? fun row => row.id == id

/-- `UPDATE ... SET ...` by a function that keeps the key. -/
def updateRows (t : Table) (f : Row → Row) (hf : ∀ row, (f row).id = row.id) : Table where
  rows := t.rows.map f
  nodup := by
    rw [List.map_map]
    have he : Row.id ∘ f = Row.id := funext hf
    rw [he]
    exact t.nodup

/-- `UPDATE ... WHERE p`. -/
def updateWhere (t : Table) (p : Row → Bool) (f : Row → Row) (hf : ∀ row, (f row).id = row.id) :
    Table :=
  t.updateRows (fun row => if p row then f row else row) fun row => by
    by_cases h : p row = true
    · rw [if_pos h, hf]
    · rw [if_neg h]

def insert (t : Table) (row : Row) (h : t.get? row.id = none) : Table where
  rows := t.rows ++ [row]
  nodup := by
    rw [List.map_append, List.nodup_append]
    refine ⟨t.nodup, by simp, ?_⟩
    intro a ha b hb hab
    simp only [List.map_cons, List.map_nil, List.mem_singleton] at hb
    obtain ⟨x, hx, rfl⟩ := List.mem_map.mp ha
    have hn := List.find?_eq_none.mp h x hx
    simp only [beq_iff_eq] at hn
    exact hn (hab.trans hb)

/-! ## The calls -/

def getById (t : Table) (id : UUID) : Except Exc (Option DownloadRequest) :=
  match t.get? id with
  | none => .ok none
  | some row => row.toEntity.map some

def isClaimable (t : Table) (id : UUID) : Bool :=
  match t.get? id with
  | none => false
  | some row => row.isActive

/-- The SELECT of `fail_stale`: oldest first, rows locked elsewhere skipped. -/
def selectStale (t : Table) (locked : UUID → Bool) (updatedBefore : Time) (limit : Nat) :
    List Candidate :=
  let stale := t.rows.filter fun row => row.isStale updatedBefore && !locked row.id
  ((stale.mergeSort fun a b => a.updatedAt ≤ b.updatedAt).take limit).map fun row =>
    { id := row.id, userId := row.userId, status := row.status }

/-- The rows its UPDATE hits. -/
def isReaped (candidates : List Candidate) (updatedBefore : Time) (row : Row) : Bool :=
  decide (row.id ∈ candidates.map Candidate.id) && row.isStale updatedBefore

/-- The table after a call at time `now`. -/
def effect (t : Table) (now : Time) : Call → Table
  | .create request =>
    if h : t.get? request.id = none then
      t.insert (Row.fromEntity request now) (by rw [Row.fromEntity_id]; exact h)
    else t
  | .update request =>
    t.updateWhere (fun row => row.id == request.id)
      (fun row => row.finish request.status request.completedAt now)
      fun row => row.finish_id _ _ _
  | .markFailedById id =>
    t.updateWhere (fun row => row.id == id) (fun row => row.finish .failed (some now) now)
      fun row => row.finish_id _ _ _
  | .claimForProcessing id =>
    t.updateWhere (fun row => row.id == id && row.isActive)
      (fun row => row.setStatus .processing now) fun row => row.setStatus_id _ _
  | .updateStale candidates updatedBefore =>
    t.updateWhere (isReaped candidates updatedBefore)
      (fun row => row.finish .failed (some now) now) fun row => row.finish_id _ _ _
  | _ => t

/-- What a call returns, run on the table. -/
def respond (t : Table) (locked : UUID → Bool) : (c : Call) → Except Exc (Resp c)
  | .getById id => t.getById id
  | .create request => if t.get? request.id = none then .ok () else .error Exc.integrityError
  | .update request => if t.get? request.id = none then .error Exc.valueError else .ok ()
  | .markFailedById _ => .ok ()
  | .claimForProcessing id => .ok (t.isClaimable id)
  | .selectStale updatedBefore limit => .ok (t.selectStale locked updatedBefore limit)
  | .updateStale candidates updatedBefore =>
    .ok ((t.rows.filter (isReaped candidates updatedBefore)).map Row.id)
  | _ => .error (.other (str "NotImplementedError"))

/-! ## Rows by key -/

theorem get?_id {t : Table} {id : UUID} {row : Row} (h : t.get? id = some row) : row.id = id := by
  have := List.find?_some h
  simpa using this

theorem mem_of_get? {t : Table} {id : UUID} {row : Row} (h : t.get? id = some row) :
    row ∈ t.rows :=
  List.mem_of_find?_eq_some h

theorem get?_of_mem {t : Table} {row : Row} (h : row ∈ t.rows) : t.get? row.id = some row := by
  obtain ⟨rows, nodup⟩ := t
  unfold get?
  induction rows with
  | nil => cases h
  | cons r rows ih =>
    simp only [List.map_cons, List.nodup_cons] at nodup
    rcases List.mem_cons.mp h with rfl | hmem
    · simp
    · have hne : (r.id == row.id) = false := by
        simp only [beq_eq_false_iff_ne, ne_eq]
        intro he
        exact nodup.1 (he ▸ List.mem_map_of_mem hmem)
      rw [List.find?_cons, hne]
      exact ih nodup.2 hmem

theorem get?_updateRows (t : Table) (f : Row → Row) (hf : ∀ row, (f row).id = row.id)
    (id : UUID) : (t.updateRows f hf).get? id = (t.get? id).map f := by
  have he : (fun row => row.id == id) ∘ f = fun row => row.id == id := by
    funext row
    simp [hf row]
  unfold get? updateRows
  rw [List.find?_map, he]

theorem get?_updateWhere (t : Table) (p : Row → Bool) (f : Row → Row)
    (hf : ∀ row, (f row).id = row.id) (id : UUID) :
    (t.updateWhere p f hf).get? id = (t.get? id).map fun row => if p row then f row else row :=
  get?_updateRows t _ _ id

theorem get?_insert (t : Table) (row : Row) (h : t.get? row.id = none) (id : UUID) :
    (t.insert row h).get? id = if row.id = id then some row else t.get? id := by
  unfold get? insert
  rw [List.find?_append]
  by_cases he : row.id = id
  · subst he
    rw [show t.rows.find? (fun r => r.id == row.id) = none from h]
    simp
  · simp [he]

end Table

/-! ## What a call does to a row -/

/-- The row `id` before a call at time `now`, and after one that changed it. -/
inductive Row.Change (now : Time) (id : UUID) (row : Row) : Call → Row → Prop
  | claimed : row.isActive = true →
      Row.Change now id row (.claimForProcessing id) (row.setStatus .processing now)
  | updated {request : DownloadRequest} : request.id = id →
      Row.Change now id row (.update request) (row.finish request.status request.completedAt now)
  | marked : Row.Change now id row (.markFailedById id) (row.finish .failed (some now) now)
  | reaped {candidates : List Candidate} {updatedBefore : Time} :
      id ∈ candidates.map Candidate.id → row.isActive = true → row.updatedAt < updatedBefore →
      Row.Change now id row (.updateStale candidates updatedBefore)
        (row.finish .failed (some now) now)

theorem Row.Change.updatedAt {now : Time} {id : UUID} {row row' : Row} {c : Call}
    (h : Row.Change now id row c row') : row'.updatedAt = now := by
  cases h <;> rfl

theorem Row.Change.columns {now : Time} {id : UUID} {row row' : Row} {c : Call}
    (h : Row.Change now id row c row') :
    row'.formatKind = row.formatKind ∧ row'.videoTier = row.videoTier := by
  cases h <;> exact ⟨rfl, rfl⟩

namespace Table

/-- One call on one row: nothing, or a change whose guard held. -/
theorem effect_cases {t : Table} {id : UUID} {row : Row} (h : t.get? id = some row) (now : Time)
    (c : Call) :
    (t.effect now c).get? id = some row ∨
      ∃ row', (t.effect now c).get? id = some row' ∧ Row.Change now id row c row' := by
  have hid := get?_id h
  cases c with
  | create request =>
    left
    simp only [effect]
    split
    · next hn =>
      rw [get?_insert]
      have hne : (Row.fromEntity request now).id ≠ id := by
        rintro rfl
        rw [show t.get? (Row.fromEntity request now).id = none from hn] at h
        cases h
      rw [if_neg hne, h]
    · exact h
  | update request =>
    simp only [effect, get?_updateWhere, h, Option.map_some]
    by_cases he : request.id = id
    · right
      refine ⟨_, ?_, .updated he⟩
      simp [hid, he]
    · left
      have hne : ¬ row.id = request.id := fun hr => he (hr ▸ hid)
      simp [hne]
  | markFailedById id' =>
    simp only [effect, get?_updateWhere, h, Option.map_some]
    by_cases he : id' = id
    · subst he
      right
      refine ⟨_, ?_, .marked⟩
      simp [hid]
    · left
      have hne : ¬ row.id = id' := fun hr => he (hr ▸ hid)
      simp [hne]
  | claimForProcessing id' =>
    simp only [effect, get?_updateWhere, h, Option.map_some]
    by_cases he : id' = id ∧ row.isActive = true
    · obtain ⟨rfl, ha⟩ := he
      right
      refine ⟨_, ?_, .claimed ha⟩
      simp [hid, ha]
    · left
      have hne : ¬ (row.id = id' ∧ row.isActive = true) := fun hr => he ⟨hr.1 ▸ hid, hr.2⟩
      simp [hne]
  | updateStale candidates updatedBefore =>
    simp only [effect, get?_updateWhere, h, Option.map_some]
    by_cases he : isReaped candidates updatedBefore row = true
    · right
      refine ⟨row.finish .failed (some now) now, ?_, ?_⟩
      · rw [if_pos he]
      · simp only [isReaped, Row.isStale, Bool.and_eq_true, decide_eq_true_eq] at he
        exact .reaped (hid ▸ he.1) he.2.1 he.2.2
    · left
      rw [if_neg he]
  | _ => exact .inl h

/-- Rows appear by `create` only. -/
theorem effect_none {t : Table} {id : UUID} (h : t.get? id = none) (now : Time) (c : Call) :
    (t.effect now c).get? id = none ∨
      ∃ request, c = .create request ∧ request.id = id ∧
        (t.effect now c).get? id = some (Row.fromEntity request now) := by
  cases c with
  | create request =>
    simp only [effect]
    split
    · next hn =>
      rw [get?_insert]
      by_cases he : (Row.fromEntity request now).id = id
      · right
        exact ⟨request, rfl, he, if_pos he⟩
      · left
        rw [if_neg he, h]
    · exact .inl h
  | update _ => exact .inl (by simp only [effect, get?_updateWhere, h, Option.map_none])
  | markFailedById _ => exact .inl (by simp only [effect, get?_updateWhere, h, Option.map_none])
  | claimForProcessing _ =>
    exact .inl (by simp only [effect, get?_updateWhere, h, Option.map_none])
  | updateStale _ _ => exact .inl (by simp only [effect, get?_updateWhere, h, Option.map_none])
  | _ => exact .inl h

/-! ## Answers -/

/-- A claim is granted exactly when the row becomes PROCESSING by it. -/
theorem isClaimable_iff (t : Table) (id : UUID) :
    t.isClaimable id = true ↔ ∃ row, t.get? id = some row ∧ row.isActive = true := by
  unfold isClaimable
  cases h : t.get? id with
  | none => simp
  | some row => simp

theorem effect_claim {t : Table} {id : UUID} {row : Row} (h : t.get? id = some row)
    (ha : row.isActive = true) (now : Time) :
    (t.effect now (.claimForProcessing id)).get? id = some (row.setStatus .processing now) := by
  have hid := get?_id h
  simp only [effect, get?_updateWhere, h, Option.map_some]
  simp [hid, ha]

/-- Every candidate was a stale row at the SELECT. -/
theorem mem_selectStale {t : Table} {locked : UUID → Bool} {updatedBefore : Time} {limit : Nat}
    {cand : Candidate} (h : cand ∈ t.selectStale locked updatedBefore limit) :
    ∃ row, t.get? cand.id = some row ∧ row.isActive = true ∧ row.updatedAt < updatedBefore ∧
      row.userId = cand.userId ∧ row.status = cand.status := by
  simp only [selectStale, List.mem_map] at h
  obtain ⟨row, hrow, rfl⟩ := h
  have hmem := List.mem_mergeSort.mp (List.mem_of_mem_take hrow)
  simp only [List.mem_filter, Row.isStale, Bool.and_eq_true, decide_eq_true_eq] at hmem
  exact ⟨row, get?_of_mem hmem.1, hmem.2.1.1, hmem.2.1.2, rfl, rfl⟩

theorem selectStale_nodup (t : Table) (locked : UUID → Bool) (updatedBefore : Time)
    (limit : Nat) : ((t.selectStale locked updatedBefore limit).map Candidate.id).Nodup := by
  simp only [selectStale, List.map_map]
  rw [show Candidate.id ∘ (fun row : Row => (⟨row.id, row.userId, row.status⟩ : Candidate)) =
    Row.id from rfl]
  have hfilter := t.nodup.sublist (List.Sublist.map Row.id
    (List.filter_sublist (p := fun row => row.isStale updatedBefore && !locked row.id)))
  have hsort := ((List.mergeSort_perm (t.rows.filter fun row =>
    row.isStale updatedBefore && !locked row.id)
    fun a b => decide (a.updatedAt ≤ b.updatedAt)).map Row.id).nodup_iff.mpr hfilter
  exact hsort.sublist (List.Sublist.map Row.id (List.take_sublist _ _))

/-- What the UPDATE returns: the candidates that are stale now. -/
theorem mem_reaped {t : Table} {candidates : List Candidate} {updatedBefore : Time} {id : UUID}
    (h : id ∈ (t.rows.filter (isReaped candidates updatedBefore)).map Row.id) :
    ∃ row, t.get? id = some row ∧ id ∈ candidates.map Candidate.id ∧ row.isActive = true ∧
      row.updatedAt < updatedBefore := by
  obtain ⟨row, hrow, rfl⟩ := List.mem_map.mp h
  simp only [List.mem_filter, isReaped, Row.isStale, Bool.and_eq_true, decide_eq_true_eq] at hrow
  exact ⟨row, get?_of_mem hrow.1, hrow.2.1, hrow.2.2.1, hrow.2.2.2⟩

theorem effect_updateStale {t : Table} {candidates : List Candidate} {updatedBefore : Time}
    {id : UUID} {row : Row} (h : t.get? id = some row) (hc : id ∈ candidates.map Candidate.id)
    (ha : row.isActive = true) (hu : row.updatedAt < updatedBefore) (now : Time) :
    (t.effect now (.updateStale candidates updatedBefore)).get? id =
      some (row.finish .failed (some now) now) := by
  have hid := get?_id h
  have hr : isReaped candidates updatedBefore row = true := by
    simp only [isReaped, Row.isStale, Bool.and_eq_true, decide_eq_true_eq]
    exact ⟨hid ▸ hc, ha, hu⟩
  simp only [effect, get?_updateWhere, h, Option.map_some]
  rw [if_pos hr]

end Table

/-! ## Readable rows -/

theorem Row.toEntity_readable {row : Row} (h : row.Readable) :
    ∃ request, row.toEntity = .ok request ∧ request.id = row.id := by
  obtain ⟨⟨s, hs⟩, spec, hspec⟩ := h
  unfold Row.toEntity Row.parseStatus Row.parseSpec
  rw [hs, hspec]
  exact ⟨_, rfl, rfl⟩

/-- An entity carries its row's key. -/
theorem Row.toEntity_id {row : Row} {request : DownloadRequest}
    (h : row.toEntity = .ok request) : request.id = row.id := by
  unfold Row.toEntity at h
  cases hs : row.parseStatus with
  | error e =>
    rw [hs] at h
    cases h
  | ok status =>
    cases hp : row.parseSpec with
    | error e =>
      rw [hs, hp] at h
      cases h
    | ok spec =>
      rw [hs, hp] at h
      cases h
      rfl

/-- A row that cannot be read is reported under its own key. -/
theorem Row.toEntity_corrupted {row : Row} {column raw : Str} {rid uid : UUID}
    (h : row.toEntity = .error (.corruptedRecord column raw rid uid)) :
    rid = row.id ∧ ¬ row.Readable := by
  refine ⟨?_, fun hr => ?_⟩
  · unfold Row.toEntity Row.parseStatus Row.parseSpec at h
    split at h
    · split at h
      · cases h
      · cases h
        rfl
    · cases h
      rfl
  · obtain ⟨request, hr, -⟩ := Row.toEntity_readable hr
    rw [hr] at h
    cases h

/-- What is written is read back. -/
theorem Row.toEntity_fromEntity (request : DownloadRequest) (now : Time) :
    (Row.fromEntity request now).Readable := by
  refine ⟨⟨request.status, ?_⟩, request.spec, ?_⟩
  · exact DownloadStatus.parse_value _
  · exact specFromParts_parts _

/-- Every change leaves a readable row readable, if it writes a status. -/
theorem Row.Change.readable {now : Time} {id : UUID} {row row' : Row} {c : Call}
    (h : Row.Change now id row c row') (hr : row.Readable) : row'.Readable := by
  obtain ⟨-, hspec⟩ := hr
  have hc := h.columns
  refine ⟨?_, ?_⟩
  · cases h with
    | claimed _ => exact ⟨_, DownloadStatus.parse_value .processing⟩
    | @updated request _ => exact ⟨_, DownloadStatus.parse_value request.status⟩
    | marked => exact ⟨_, DownloadStatus.parse_value .failed⟩
    | reaped _ _ _ => exact ⟨_, DownloadStatus.parse_value .failed⟩
  · rw [hc.1, hc.2]
    exact hspec

/-! ## Statuses -/

theorem Row.isActive_iff (row : Row) :
    row.isActive = true ↔
      row.status = DownloadStatus.pending.value ∨ row.status = DownloadStatus.processing.value := by
  simp [Row.isActive]

theorem Row.isTerminal_iff (row : Row) :
    row.isTerminal = true ↔
      row.status = DownloadStatus.done.value ∨ row.status = DownloadStatus.failed.value := by
  simp [Row.isTerminal]

theorem Row.finish_inactive (row : Row) {status : DownloadStatus}
    (h : status = .done ∨ status = .failed) (completedAt : Option Time) (now : Time) :
    (row.finish status completedAt now).isActive = false := by
  rcases h with rfl | rfl <;> rfl

theorem Row.not_active_of_terminal {row : Row} (h : row.isTerminal = true) :
    row.isActive = false := by
  rw [Row.isTerminal_iff] at h
  unfold Row.isActive
  rcases h with h | h <;> rw [h] <;> decide

end MediaDownloader
