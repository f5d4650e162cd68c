import MediaDownloader.Infrastructure.DownloadRequestRepository

/-!
# What was requested is what is read back

A request is written by `create` and then only in part: `update`,
`claim_for_processing`, `mark_failed_by_id` and `fail_stale` say something of
its status and its completion, and of nothing else.

* `stored_step`: one call keeps a stored row as created, but for what it says;
* `stored_run`: so does any sequence of calls;
* `toEntity_spec`: an entity is its row, or the row is reported as corrupted;
* `stored_read_back`: what `get_by_id` returns after any sequence of calls.
-/

namespace MediaDownloader

open Interaction

/-- What the writers last said of a request, and when. -/
structure Written where
  status : DownloadStatus
  completedAt : Option Time
  stamp : Time
  deriving DecidableEq

namespace Written

def isActive (written : Written) : Bool :=
  written.status == .pending || written.status == .processing

/-- What a call says of the request `id`: a claim and the reaper's UPDATE say
nothing when their condition fails. -/
def after (id : UUID) (written : Written) (now : Time) : Call → Written
  | .update request =>
    if request.id = id then ⟨request.status, request.completedAt, now⟩ else written
  | .markFailedById id' => if id' = id then ⟨.failed, some now, now⟩ else written
  | .claimForProcessing id' =>
    if id' = id ∧ written.isActive then ⟨.processing, written.completedAt, now⟩ else written
  | .updateStale candidates updatedBefore =>
    if id ∈ candidates.map Candidate.id ∧ written.isActive ∧ written.stamp < updatedBefore then
      ⟨.failed, some now, now⟩
    else written
  | _ => written

end Written

/-- Calls with the time each of them ran at, in order. -/
abbrev TimedCalls := List (Time × Call)

/-- What was last said of the request `id`, in the order of the calls. -/
def lastWritten (id : UUID) (written : Written) (calls : TimedCalls) : Written :=
  calls.foldl (fun written call => written.after id call.1 call.2) written

def Table.run (t : Table) (calls : TimedCalls) : Table :=
  calls.foldl (fun t call => t.effect call.1 call.2) t

/-- What `create` says of a request; the completion is not among it. -/
def Written.atCreation (request : DownloadRequest) (now : Time) : Written :=
  ⟨request.status, none, now⟩

/-- The row of a request created at `created`, of which `written` was last said. -/
def Row.stored (request : DownloadRequest) (created : Time) (written : Written) : Row :=
  { Row.fromEntity request created with
    status := written.status.value
    completedAt := written.completedAt
    updatedAt := written.stamp }

section Stored

variable {request : DownloadRequest} {created : Time} {written : Written}

@[simp] theorem Row.stored_id : (Row.stored request created written).id = request.id := rfl

@[simp] theorem Row.stored_updatedAt :
    (Row.stored request created written).updatedAt = written.stamp := rfl

theorem Row.stored_isActive : (Row.stored request created written).isActive = written.isActive := by
  have hvalue : (Row.stored request created written).status = written.status.value := rfl
  unfold Row.isActive Written.isActive
  rw [hvalue]
  cases written.status <;> decide

theorem Row.stored_finish (status : DownloadStatus) (completedAt : Option Time) (now : Time) :
    (Row.stored request created written).finish status completedAt now =
      Row.stored request created ⟨status, completedAt, now⟩ := rfl

theorem Row.stored_setStatus (status : DownloadStatus) (now : Time) :
    (Row.stored request created written).setStatus status now =
      Row.stored request created ⟨status, written.completedAt, now⟩ := rfl

/-- One call changes of a stored row what it says, and nothing else. -/
theorem stored_step {t : Table}
    (h : t.get? request.id = some (Row.stored request created written)) (now : Time) (c : Call) :
    (t.effect now c).get? request.id =
      some (Row.stored request created (written.after request.id now c)) := by
  cases c with
  | create request' =>
    simp only [Table.effect, Written.after]
    split
    · next hn =>
      have hne : (Row.fromEntity request' now).id ≠ request.id := by
        intro he
        rw [Row.fromEntity_id] at he
        rw [he, h] at hn
        cases hn
      rw [Table.get?_insert, if_neg hne, h]
    · exact h
  | update request' =>
    simp only [Table.effect, Table.get?_updateWhere, h, Option.map_some, Row.stored_id,
      Written.after]
    by_cases he : request'.id = request.id
    · simp [he, Row.stored_finish]
    · simp [he, Ne.symm he]
  | markFailedById id =>
    simp only [Table.effect, Table.get?_updateWhere, h, Option.map_some, Row.stored_id,
      Written.after]
    by_cases he : id = request.id
    · simp [he, Row.stored_finish]
    · simp [he, Ne.symm he]
  | claimForProcessing id =>
    simp only [Table.effect, Table.get?_updateWhere, h, Option.map_some, Row.stored_id,
      Row.stored_isActive, Written.after]
    by_cases he : id = request.id
    · by_cases ha : written.isActive = true
      · simp [he, ha, Row.stored_setStatus]
      · simp [he, ha]
    · simp [he, Ne.symm he]
  | updateStale candidates updatedBefore =>
    have hstale : Table.isReaped candidates updatedBefore (Row.stored request created written) =
        true ↔ request.id ∈ candidates.map Candidate.id ∧ written.isActive = true ∧
          written.stamp < updatedBefore := by
      simp only [Table.isReaped, Row.isStale, Row.stored_id, Row.stored_isActive,
        Row.stored_updatedAt, Bool.and_eq_true]
      exact and_congr decide_eq_true_iff (and_congr Iff.rfl decide_eq_true_iff)
    simp only [Table.effect, Table.get?_updateWhere, h, Option.map_some, Written.after]
    by_cases he : Table.isReaped candidates updatedBefore (Row.stored request created written) = true
    · rw [if_pos he, if_pos (hstale.mp he), Row.stored_finish]
    · rw [if_neg he, if_neg fun hc => he (hstale.mpr hc)]
  | _ => exact h

/-- So does a sequence of calls. -/
theorem stored_run {t : Table} (calls : TimedCalls)
    (h : t.get? request.id = some (Row.stored request created written)) :
    (t.run calls).get? request.id =
      some (Row.stored request created (lastWritten request.id written calls)) := by
  induction calls generalizing t written with
  | nil => exact h
  | cons call calls ih => exact ih (stored_step h call.1 call.2)

/-- `create` that returns has stored the request as it is. -/
theorem stored_create {t : Table} {locked : UUID → Bool}
    (h : t.respond locked (.create request) = .ok ()) :
    (t.effect created (.create request)).get? request.id =
      some (Row.stored request created (.atCreation request created)) := by
  have hnone : t.get? request.id = none := by
    by_contra hne
    simp only [Table.respond, if_neg hne] at h
    cases h
  simp only [Table.effect, dif_pos hnone, Table.get?_insert, Row.fromEntity_id, if_true]
  rfl

end Stored

/-! ## Reading -/

theorem MediaType.fromDbValue_value (mediaType : MediaType) :
    MediaType.fromDbValue mediaType.value = mediaType := by
  cases mediaType <;> decide

/-- A media type is read as it is stored, or as UNKNOWN. -/
theorem MediaType.fromDbValue_cases (s : Str) :
    (MediaType.fromDbValue s).value = s ∨ MediaType.fromDbValue s = .unknown := by
  unfold MediaType.fromDbValue
  split
  · next h => exact .inl h.symm
  · split
    · next h => exact .inl h.symm
    · split
      · next h => exact .inl h.symm
      · exact .inr rfl

theorem FormatKind.value_of_parse {s : Str} {kind : FormatKind} (h : FormatKind.parse s = some kind) :
    kind.value = s := by
  unfold FormatKind.parse at h
  split at h
  · next hs =>
    cases h
    exact hs.symm
  · split at h
    · next hs =>
      cases h
      exact hs.symm
    · cases h

theorem VideoTier.value_of_parse {s : Str} {tier : VideoTier} (h : VideoTier.parse s = some tier) :
    tier.value = s := by
  unfold VideoTier.parse at h
  split at h
  · next hs =>
    cases h
    exact hs.symm
  · split at h
    · next hs =>
      cases h
      exact hs.symm
    · split at h
      · next hs =>
        cases h
        exact hs.symm
      · cases h

/-- The strict inverse: a spec that is read stands in the columns. -/
theorem specFromParts_eq_some {kind : Str} {videoTier : Option Str} {spec : DownloadSpec}
    (h : specFromParts kind videoTier = some spec) :
    (specKind spec).value = kind ∧ (specVideoTier spec).map VideoTier.value = videoTier := by
  unfold specFromParts at h
  split at h
  · next hk =>
    obtain ⟨tier, ht, rfl⟩ := Option.map_eq_some_iff.mp h
    exact ⟨FormatKind.value_of_parse hk, congrArg some (VideoTier.value_of_parse ht)⟩
  · next hk =>
    cases h
    exact ⟨FormatKind.value_of_parse hk, rfl⟩
  · cases h

/-- The entity says what the row says; only the media type may have degraded. -/
structure Row.ReadAs (row : Row) (entity : DownloadRequest) : Prop where
  id : entity.id = row.id
  userId : entity.userId = row.userId
  sourceUrl : entity.sourceUrl = row.sourceUrl
  mediaType : entity.mediaType.value = row.mediaType ∨ entity.mediaType = .unknown
  status : entity.status.value = row.status
  formatKind : (specKind entity.spec).value = row.formatKind
  videoTier : (specVideoTier entity.spec).map VideoTier.value = row.videoTier
  createdAt : entity.createdAt = row.createdAt
  completedAt : entity.completedAt = row.completedAt

/-- What `_to_entity` may do with a row. -/
def Row.ReadOrReported (row : Row) : Except Exc DownloadRequest → Prop
  | .ok entity => row.ReadAs entity
  | .error e => ∃ column raw, e = .corruptedRecord column raw row.id row.userId

theorem Row.toEntity_spec (row : Row) : row.ReadOrReported row.toEntity := by
  unfold Row.toEntity Row.parseStatus Row.parseSpec
  cases hs : DownloadStatus.parse row.status with
  | none => exact ⟨_, _, rfl⟩
  | some status =>
    cases hp : specFromParts row.formatKind row.videoTier with
    | none => exact ⟨_, _, rfl⟩
    | some spec =>
      obtain ⟨hkind, htier⟩ := specFromParts_eq_some hp
      exact
        { id := rfl
          userId := rfl
          sourceUrl := rfl
          mediaType := MediaType.fromDbValue_cases row.mediaType
          status := (DownloadStatus.value_of_parse hs).symm
          formatKind := hkind
          videoTier := htier
          createdAt := rfl
          completedAt := rfl }

/-- A stored row is read as the request, with what was last said of it. -/
theorem Row.stored_toEntity (request : DownloadRequest) (created : Time) (written : Written) :
    (Row.stored request created written).toEntity = .ok { request with
      status := written.status, createdAt := created, completedAt := written.completedAt } := by
  unfold Row.toEntity Row.parseStatus Row.parseSpec
  simp only [Row.stored, Row.fromEntity, DownloadStatus.parse_value, specFromParts_parts,
    MediaType.fromDbValue_value]
  rfl

/-- After `create` and any calls, `get_by_id` returns what was requested, with
the status and the completion last written; and any row at all is read as it is
or reported as corrupted under its own ids. -/
theorem stored_read_back :
    (∀ (t : Table) (request : DownloadRequest) (created : Time) (locked : UUID → Bool)
        (calls : TimedCalls), t.respond locked (.create request) = .ok () →
      let written := lastWritten request.id (.atCreation request created) calls
      ((t.effect created (.create request)).run calls).getById request.id =
        .ok (some { request with
          status := written.status, createdAt := created, completedAt := written.completedAt })) ∧
    ∀ row : Row, row.ReadOrReported row.toEntity := by
  refine ⟨fun t request created locked calls h => ?_, Row.toEntity_spec⟩
  have hrow := stored_run calls (@stored_create request created t locked h)
  simp only [Table.getById, hrow, Row.stored_toEntity]
  rfl

/-- An mp3, claimed at 1 and delivered at 2. -/
theorem stored_read_back_done :
    let request := DownloadRequest.create 1 0 2 (str "https://a.com/v") .audio
    (((⟨[], List.nodup_nil⟩ : Table).effect 0 (.create request)).run
      [(1, .claimForProcessing 1), (2, .update (request.markDone 2)),
        (3, .claimForProcessing 1)]).getById 1 =
      .ok (some { request with status := .done, createdAt := 0, completedAt := some 2 }) :=
  stored_read_back.1 ⟨[], List.nodup_nil⟩ (DownloadRequest.create 1 0 2 (str "https://a.com/v") .audio)
    0 (fun _ => false) [(1, .claimForProcessing 1),
      (2, .update ((DownloadRequest.create 1 0 2 (str "https://a.com/v") .audio).markDone 2)),
      (3, .claimForProcessing 1)] rfl

end MediaDownloader
