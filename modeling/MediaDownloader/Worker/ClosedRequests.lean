import MediaDownloader.Worker.TerminalStatuses

/-!
# Closed requests and late jobs

A job can come late or twice: the queue delivers it again, or the reaper was
there first.  When its row is DONE or FAILED the claim is refused, and all the
job does is look.  The claim comes after the row was read, though, and what
cannot be read is marked failed without a look at its status.

* `wp_closed`: on a readable closed row, the job only looks;
* `stays_closed_iff`: that is so exactly when the spec columns can be read;
* `finished_request_reopened`: a finished request whose format kind is unknown.
-/

namespace MediaDownloader

open Interaction

/-- A call that only looks at the request `id`; its claim is one if refused. -/
def Looks (id : UUID) : Call → Prop
  | .getById _ => True
  | .userGetById _ => True
  | .claimForProcessing id' => id' = id
  | _ => False

/-- The call of `e` was answered while the table held `row`. -/
def FoundAsIs (row : Row) (e : Ev) : Prop :=
  ∃ w w', w.table.get? row.id = some row ∧ Served w e.call e.resp w'

/-- A job on the request of `row`, whoever else is at work, looks only and
writes nothing to the row, as long as it finds `row` there. -/
def StaysClosed (d : Deployment) (row : Row) : Prop :=
  ∀ start chatId messageId t q,
    Steps ((requestSystem d).code (.job start row.id chatId messageId)) t q →
    (∀ e ∈ t, FoundAsIs row e) →
    ∀ e ∈ t, Looks row.id e.call ∧
      ∀ w w', w.table.get? row.id = some row → Served w e.call e.resp w' →
        w'.table.get? row.id = some row

namespace FoundAsIs

variable {row : Row}

/-- A readable row is read, or the call fails in some other way. -/
theorem read {r : Except Exc (Option DownloadRequest)} (h : FoundAsIs row ⟨.getById row.id, r⟩)
    (hread : row.Readable) :
    (∃ request, r = .ok (some request) ∧ request.id = row.id) ∨
      ∃ e, r = .error e ∧ e.isCorruptedRecord = false := by
  obtain ⟨w, w', hrow, hs⟩ := h
  have hserved : Served w (.getById row.id) r w' := hs
  cases hserved with
  | reply _ _ hr =>
    obtain ⟨request, he, hid⟩ := Row.toEntity_readable hread
    have hget : r = .ok (some request) := by
      rw [hr]
      simp only [Table.respond, Table.getById, hrow, he]
      rfl
    exact .inl ⟨request, hget, hid⟩
  | lost _ he => exact .inr ⟨_, rfl, he⟩
  | failed _ he => exact .inr ⟨_, rfl, he⟩
  | elsewhere _ hc _ _ => cases hc

/-- A closed row is not granted. -/
theorem refused (h : FoundAsIs row ⟨.claimForProcessing row.id, .ok true⟩) :
    row.isActive = true := by
  obtain ⟨w, w', hrow, hs⟩ := h
  have hserved : Served w (.claimForProcessing row.id) (.ok true) w' := hs
  obtain ⟨row', hrow', hact, -⟩ := hserved.claimed
  rw [hrow] at hrow'
  cases hrow'
  exact hact

end FoundAsIs

/-- A call that only looks leaves a closed row as it is. -/
theorem Looks.keeps {row : Row} (hfin : row.isTerminal = true) {c : Call} (hc : Looks row.id c)
    {r : Except Exc (Resp c)} {w w' : World} (hrow : w.table.get? row.id = some row)
    (hs : Served w c r w') : w'.table.get? row.id = some row := by
  rcases hs.row_cases hrow with h | ⟨row', -, hchange⟩
  · exact h
  · exfalso
    cases hchange with
    | claimed hact =>
      rw [Row.not_active_of_terminal hfin] at hact
      cases hact
    | updated _ => exact hc
    | marked => exact hc
    | reaped _ _ _ => exact hc

section Closed

variable {row : Row} (cfg : ProcessDownload) (chatId messageId : Int)

/-- The monitor of a job that finds `row` in the table, and may only look. -/
abbrev closedMonitor (row : Row) : Monitor Call Resp Exc Trace :=
  historyMonitor (FoundAsIs row) fun _ c => Looks row.id c

theorem wp_claim_closed (hfin : row.isTerminal = true) {request : DownloadRequest}
    (hid : request.id = row.id) (user : User) (telegramId : Int) (g : Trace) :
    wp (closedMonitor row) (cfg.claimAndProcess request user telegramId chatId messageId) g
      fun _ _ => True := by
  unfold ProcessDownload.claimAndProcess
  rw [wp_port_bind]
  refine ⟨hid, fun r hr => ?_⟩
  rcases r with e | _ | _
  · trivial
  · trivial
  · have hgranted : FoundAsIs row ⟨.claimForProcessing row.id, .ok true⟩ := hid ▸ hr
    have hact := hgranted.refused
    rw [Row.not_active_of_terminal hfin] at hact
    cases hact

/-- On a readable closed row the job reads, asks for the claim, and is done. -/
theorem wp_closed (hfin : row.isTerminal = true) (hread : row.Readable) :
    wp (closedMonitor row) (cfg.execute row.id chatId messageId) [] fun _ _ => True := by
  unfold ProcessDownload.execute
  simp only [wp_act_bind, wp_attempt, wp_port]
  refine ⟨trivial, fun r hr => ?_⟩
  rcases hr.read hread with ⟨request, rfl, hid⟩ | ⟨e, rfl, he⟩
  · refine (wp_port_bind _ _ _ _ _).mpr ⟨trivial, fun r _ => ?_⟩
    rcases r with e | _ | user
    · trivial
    · trivial
    · cases ht : user.telegramId with
      | none =>
        simp only [ht]
        trivial
      | some telegramId =>
        simp only [ht]
        exact wp_claim_closed cfg chatId messageId hfin hid user telegramId _
  · cases e with
    | corruptedRecord _ _ _ _ => cases he
    | _ => trivial

end Closed

/-! ## Exactly the readable rows -/

/-- A row whose spec cannot be read, though its status can. -/
theorem Row.toEntity_unreadable_spec {row : Row} {s : DownloadStatus}
    (hs : DownloadStatus.parse row.status = some s)
    (hspec : specFromParts row.formatKind row.videoTier = none) :
    ∃ column raw, row.toEntity = .error (.corruptedRecord column raw row.id row.userId) := by
  unfold Row.toEntity Row.parseStatus Row.parseSpec
  rw [hs, hspec]
  exact ⟨_, _, rfl⟩

theorem Row.status_of_terminal {row : Row} (h : row.isTerminal = true) :
    ∃ s, DownloadStatus.parse row.status = some s := by
  rcases (Row.isTerminal_iff row).mp h with h | h
  · exact ⟨.done, h ▸ DownloadStatus.parse_value .done⟩
  · exact ⟨.failed, h ▸ DownloadStatus.parse_value .failed⟩

/-- The world whose table holds one row. -/
def World.holding (row : Row) : World where
  now := 0
  table := ⟨[row], by simp⟩
  accepted := []

theorem World.holding_get? (row : Row) :
    (World.holding row).table.get? row.id = some row := by
  simp [World.holding, Table.get?]

/-- The read of a row that raises `CorruptedRecordError` is followed by a write. -/
theorem marks_unreadable (d : Deployment) {row : Row} {column raw : Str}
    (he : row.toEntity = .error (.corruptedRecord column raw row.id row.userId)) :
    ¬ StaysClosed d row := by
  intro hstays
  have hread : FoundAsIs row
      ⟨.getById row.id, .error (.corruptedRecord column raw row.id row.userId)⟩ := by
    refine ⟨World.holding row, _, World.holding_get? row, .reply (fun _ => false) rfl ?_⟩
    simp only [Table.respond, Table.getById, World.holding_get?, he]
    rfl
  have hmark : FoundAsIs row ⟨.markFailedById row.id, .ok ()⟩ :=
    ⟨World.holding row, _, World.holding_get? row, .reply (fun _ => false) rfl rfl⟩
  have hlook := hstays 0 0 0
    [⟨.getById row.id, .error (.corruptedRecord column raw row.id row.userId)⟩,
      ⟨.markFailedById row.id, .ok ()⟩] _ (.call (.call (.done _))) (by
      intro e hmem
      rcases List.mem_pair.mp hmem with rfl | rfl
      · exact hread
      · exact hmark)
    ⟨.markFailedById row.id, .ok ()⟩ (by simp)
  exact hlook.1

/-- A closed request stays closed exactly when its spec columns can be read. -/
theorem stays_closed_iff (d : Deployment) (row : Row) (hfin : row.isTerminal = true) :
    StaysClosed d row ↔ ∃ spec, specFromParts row.formatKind row.videoTier = some spec := by
  constructor
  · intro hstays
    obtain ⟨s, hs⟩ := Row.status_of_terminal hfin
    cases hspec : specFromParts row.formatKind row.videoTier with
    | some spec => exact ⟨spec, rfl⟩
    | none =>
      obtain ⟨column, raw, he⟩ := Row.toEntity_unreadable_spec hs hspec
      exact absurd hstays (marks_unreadable d he)
  · intro hspec start chatId messageId t q hsteps hfound e he
    have hread : row.Readable := ⟨Row.status_of_terminal hfin, hspec⟩
    have hw := (wp_map _ _ (fun _ => ()) _ fun _ _ => True).mpr
      (wp_closed d.jobs.withAnyDownloader chatId messageId hfin hread)
    obtain ⟨u, v, ht⟩ := List.append_of_mem he
    have hlook : Looks row.id e.call := historyMonitor_made hw hsteps hfound ht
    exact ⟨hlook, fun w w' hrow hs => hlook.keeps hfin hrow hs⟩

namespace LateJob

/-- A delivered request, of a format kind this build does not know. -/
def unknownKind : Row :=
  { (Row.fromEntity LostReply.request 0).finish .done (some 0) 0 with formatKind := str "gif" }

theorem unreadable : unknownKind.toEntity =
    .error (.corruptedRecord (str "spec") (str "gif/None") unknownKind.id unknownKind.userId) := by
  rfl

/-- The job comes again: the row is marked FAILED, and the user is told so. -/
def reported : Trace :=
  [⟨.getById 1, .error (.corruptedRecord (str "spec") (str "gif/None") 1 2)⟩,
    ⟨.markFailedById 1, .ok ()⟩, ⟨.userGetById 2, .ok (some LostReply.sender)⟩,
    ⟨.publish 1 10 20 none (phaseMarker .failed), .ok ()⟩,
    ⟨.localize (str "error-internal") none [], .ok (str "Something went wrong")⟩,
    ⟨.sendText 1 77 (str "Something went wrong"), .ok ()⟩]

end LateJob

/-- A readable finished row is left alone by every late job. -/
theorem stays_closed_delivered : StaysClosed LostReply.deployment
    ((Row.fromEntity LostReply.request 0).finish .done (some 0) 0) :=
  (stays_closed_iff LostReply.deployment _ (by decide)).mpr ⟨.audio, by decide⟩

/-- A finished request of an unknown format kind: a late job marks it FAILED,
moves the card and writes to the user. -/
theorem finished_request_reopened :
    LateJob.unknownKind.isTerminal = true ∧
    ¬ StaysClosed LostReply.deployment LateJob.unknownKind ∧
    ∃ w', Steps ((requestSystem LostReply.deployment).code (.job 0 1 10 20)) LateJob.reported
        (.ret ()) ∧
      Answers (requestSystem LostReply.deployment) (.job 0 1 10 20)
        (World.holding LateJob.unknownKind) LateJob.reported w' ∧
      w'.table.get? 1 = some (LateJob.unknownKind.finish .failed (some 0) 0) := by
  refine ⟨by decide, marks_unreadable LostReply.deployment LateJob.unreadable, ?_⟩
  refine ⟨_, .call (.call (.call (.call (.call (.call (.done _)))))),
    .cons (.reply (fun _ => false) rfl rfl) (.cons (.reply (fun _ => false) rfl rfl)
      (.cons (.elsewhere _ rfl (by simp) rfl) (.cons (.elsewhere _ rfl (by simp) rfl)
        (.cons (.elsewhere _ rfl (by simp) rfl) (.cons (.elsewhere _ rfl (by simp) rfl)
          (.nil _)))))), by decide⟩

end MediaDownloader
