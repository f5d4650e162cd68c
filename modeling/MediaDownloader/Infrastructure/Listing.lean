import MediaDownloader.Infrastructure.DownloadRequestRepository
import MediaDownloader.Lib.OrderedQuery

/-!
# list_by_user

The listing skips the rows it cannot read, after the query has counted them
against its LIMIT.

* `readRows_eq`: the loop keeps what can be read and never raises;
* `listing_complete_iff`: the listing is the first readable rows of the user
  exactly when the query's rows can all be read, or nothing after them can;
* `healthy_row_hidden`: one unreadable row, and a limit of one.
-/

namespace MediaDownloader

open OrderedQuery

/-! ## The code -/

/-- `ORDER BY created_at DESC`. -/
def NewerFirst (a b : Row) : Prop := b.createdAt ≤ a.createdAt

/-- The rows of a user, in an order the database may return them in. -/
abbrev UserRows (t : Table) (userId : UUID) : Type :=
  Ordered NewerFirst (fun row => decide (row.userId = userId)) t.rows

/-- The loop of `list_by_user`. -/
def readRows : List Row → Except Exc (List DownloadRequest)
  | [] => .ok []
  | model :: models =>
    match model.toEntity with
    | .ok entity => (readRows models).map fun entities => entity :: entities
    | .error (.corruptedRecord _ _ _ _) => readRows models
    | .error e => .error e

def listByUser {t : Table} {userId : UUID} (selected : UserRows t userId) (limit : Nat) :
    Except Exc (List DownloadRequest) :=
  readRows (selected.list.take limit)

/-! ## The loop -/

/-- `_to_entity` succeeds. -/
def Row.isReadable (row : Row) : Bool := row.toEntity.isOk

theorem Row.toEntity_cases (row : Row) :
    (∃ entity, row.toEntity = .ok entity) ∨
      ∃ column raw, row.toEntity = .error (.corruptedRecord column raw row.id row.userId) := by
  unfold Row.toEntity Row.parseStatus Row.parseSpec
  cases DownloadStatus.parse row.status with
  | none => exact .inr ⟨_, _, rfl⟩
  | some status =>
    cases specFromParts row.formatKind row.videoTier with
    | none => exact .inr ⟨_, _, rfl⟩
    | some spec => exact .inl ⟨_, rfl⟩

/-- The entities are those of the rows, one by one. -/
def EntitiesOf (rows : List Row) (entities : List DownloadRequest) : Prop :=
  rows.map Row.toEntity = entities.map .ok

theorem EntitiesOf.length {rows : List Row} {entities : List DownloadRequest}
    (h : EntitiesOf rows entities) : rows.length = entities.length := by
  have hlength := congrArg List.length h
  rwa [List.length_map, List.length_map] at hlength

/-- What can be read is kept, the rest is skipped, and nothing is raised. -/
theorem readRows_eq (rows : List Row) :
    ∃ entities, readRows rows = .ok entities ∧ EntitiesOf (rows.filter Row.isReadable) entities := by
  induction rows with
  | nil => exact ⟨[], rfl, rfl⟩
  | cons row rows ih =>
    obtain ⟨entities, hread, hof⟩ := ih
    rcases row.toEntity_cases with ⟨entity, he⟩ | ⟨column, raw, he⟩
    · have hrow : row.isReadable = true := by simp [Row.isReadable, he, Except.isOk, Except.toBool]
      refine ⟨entity :: entities, ?_, ?_⟩
      · simp [readRows, he, hread, Except.map]
      · rw [EntitiesOf, List.filter_cons_of_pos hrow, List.map_cons, List.map_cons, he, hof]
    · have hrow : ¬ row.isReadable = true := by simp [Row.isReadable, he, Except.isOk, Except.toBool]
      refine ⟨entities, ?_, ?_⟩
      · simp only [readRows, he, hread]
      · rw [List.filter_cons_of_neg hrow]
        exact hof

/-! ## What is listed -/

/-- The readable rows of a user, newest first. -/
abbrev ReadableRows (t : Table) (userId : UUID) : Type :=
  Ordered NewerFirst (fun row => decide (row.userId = userId) && row.isReadable) t.rows

/-- The answer is the first `limit` readable rows of the user. -/
def ListsReadable (t : Table) (userId : UUID) (limit : Nat)
    (answer : Except Exc (List DownloadRequest)) : Prop :=
  ∃ (entities : List DownloadRequest) (readable : ReadableRows t userId),
    answer = .ok entities ∧ EntitiesOf (readable.list.take limit) entities

/-- The query's rows can all be read, or no row after them can. -/
theorem listing_complete_iff (t : Table) (userId : UUID) (limit : Nat)
    (selected : UserRows t userId) :
    ListsReadable t userId limit (listByUser selected limit) ↔
      (∀ row ∈ selected.list.take limit, row.isReadable = true) ∨
        ∀ row ∈ selected.list.drop limit, row.isReadable = false := by
  obtain ⟨listed, hlisted, hof⟩ := readRows_eq (selected.list.take limit)
  have hcount := (selected.restrict Row.isReadable).length_eq
  rw [← length_filter_take_iff]
  constructor
  · rintro ⟨entities, readable, hanswer, hentities⟩
    have hsame : entities = listed := by
      have h := hanswer.symm.trans hlisted
      cases h
      rfl
    subst hsame
    have htotal : readable.list.length = (selected.list.filter Row.isReadable).length :=
      readable.length_eq.trans hcount.symm
    rw [hof.length, ← hentities.length, List.length_take, htotal]
  · intro hlength
    refine ⟨listed, selected.restrict Row.isReadable, hlisted, ?_⟩
    have hfirst := filter_take_eq Row.isReadable limit selected.list
    rw [hlength, ← List.take_eq_take_min] at hfirst
    rw [hfirst] at hof
    exact hof

/-- Whatever the rows, nothing is raised. -/
theorem listByUser_ok {t : Table} {userId : UUID} (selected : UserRows t userId) (limit : Nat) :
    ∃ entities, listByUser selected limit = .ok entities := by
  obtain ⟨listed, hlisted, -⟩ := readRows_eq (selected.list.take limit)
  exact ⟨listed, hlisted⟩

namespace OneCorruptRow

def healthy : Row :=
  ⟨1, 7, str "https://example.com/good", str "video", str "pending", str "audio", none, 10, none,
    10⟩

/-- The newer row has a status that no build knows. -/
def corrupt : Row := { healthy with id := 2, status := str "garbage", createdAt := 20 }

def table : Table := ⟨[healthy, corrupt], by decide⟩

def selected : UserRows table 7 where
  list := [corrupt, healthy]
  perm := List.Perm.swap _ _ _
  sorted := by
    have hle : healthy.createdAt ≤ corrupt.createdAt := by decide
    simpa [NewerFirst] using hle

end OneCorruptRow

/-- The healthy row is not listed. -/
theorem healthy_row_hidden : ¬ ∀ (t : Table) (userId : UUID) (limit : Nat)
    (selected : UserRows t userId),
    ListsReadable t userId limit (listByUser selected limit) := by
  intro hall
  obtain ⟨entities, readable, hanswer, hentities⟩ :=
    hall OneCorruptRow.table 7 1 OneCorruptRow.selected
  have hempty : listByUser OneCorruptRow.selected 1 = .ok [] := rfl
  have hone : readable.list.length = 1 := readable.length_eq.trans (by decide)
  have hcount := hentities.length
  rw [hempty] at hanswer
  cases hanswer
  rw [List.length_take, hone] at hcount
  cases hcount

end MediaDownloader
