import Mathlib.Data.Int.Order.Basic
import Mathlib.Logic.Relation
import Mathlib.Order.MinMax
import MediaDownloader.Application.Ports

/-!
# LocalFileStorage

One directory a request under `base_dir`.  The sweep goes by the newest mtime
anywhere in an entry.  Whoever creates, writes or deletes something moves an
mtime to now; `mkdir(exist_ok=True)` on a directory that is there moves none.

* `Change.now_le`: after a change, an entry looks no older than the change;
* `tempDirForRequest_mem`, `release_mem`, `cleanupExpired_mem`: what an entry
  was before each operation.
-/

namespace MediaDownloader

/-! ## The newest of many -/

section Newest

variable {ι T : Type} [LinearOrder T] (f : ι → T)

theorem le_newest (items : List ι) (start : T) :
    start ≤ items.foldl (fun newest item => max newest (f item)) start ∧
      ∀ item ∈ items, f item ≤ items.foldl (fun newest item => max newest (f item)) start := by
  induction items generalizing start with
  | nil => exact ⟨le_refl _, fun _ h => by cases h⟩
  | cons item items ih =>
    obtain ⟨h1, h2⟩ := ih (max start (f item))
    refine ⟨le_trans (le_max_left _ _) h1, fun item' h => ?_⟩
    rcases List.mem_cons.mp h with rfl | h
    · exact le_trans (le_max_right _ _) h1
    · exact h2 item' h

theorem newest_mem (items : List ι) (start : T) :
    items.foldl (fun newest item => max newest (f item)) start = start ∨
      ∃ item ∈ items, items.foldl (fun newest item => max newest (f item)) start = f item := by
  induction items generalizing start with
  | nil => exact .inl rfl
  | cons item items ih =>
    rw [List.foldl_cons]
    rcases ih (max start (f item)) with h | ⟨item', hmem, h⟩
    · rw [h]
      rcases max_choice start (f item) with hmax | hmax
      · exact .inl hmax
      · exact .inr ⟨item, List.mem_cons_self, hmax⟩
    · exact .inr ⟨item', List.mem_cons_of_mem _ hmem, h⟩

end Newest

/-! ## What is in `base_dir` -/

/-- An entry of `base_dir` is called `str(request_id)`, or anything else. -/
inductive EntryName where
  | request (id : UUID)
  | other (name : Str)
  deriving DecidableEq

/-- A path below an entry; `[]` is the entry. -/
abbrev SubPath := List Str

/-- An entry of `base_dir`, with the mtimes of all that is below it. -/
structure DiskEntry where
  name : EntryName
  isDir : Bool
  isSymlink : Bool
  mtime : Time
  below : List (SubPath × Time)
  deriving DecidableEq

namespace DiskEntry

def isTree (entry : DiskEntry) : Bool := entry.isDir && !entry.isSymlink

/-- `_last_activity`. -/
def lastActivity (entry : DiskEntry) : Time :=
  if !entry.isTree then entry.mtime
  else entry.below.foldl (fun newest item => max newest item.2) entry.mtime

/-- A directory just made. -/
def newDir (name : EntryName) (now : Time) : DiskEntry where
  name := name
  isDir := true
  isSymlink := false
  mtime := now
  below := []

def paths (entry : DiskEntry) : List SubPath :=
  if entry.isTree then [] :: entry.below.map Prod.fst else [[]]

def setMtime (entry : DiskEntry) (path : SubPath) (now : Time) : DiskEntry :=
  if path = [] then { entry with mtime := now }
  else { entry with
    below := entry.below.map fun item => if item.1 = path then (path, now) else item }

/-- Something new at `path`. -/
def add (entry : DiskEntry) (path : SubPath) (now : Time) : DiskEntry :=
  { entry with below := entry.below ++ [(path, now)] }

/-- Without `path` and what is below it. -/
def drop (entry : DiskEntry) (path : SubPath) : DiskEntry :=
  { entry with below := entry.below.filter fun item => !path.isPrefixOf item.1 }

/-- What can happen to an entry at time `now`: a write into a file, and in a
directory a new item or a deleted one, which moves the directory's mtime. -/
inductive Change (now : Time) (entry : DiskEntry) : DiskEntry → Prop
  | write {path : SubPath} : path ∈ entry.paths → Change now entry (entry.setMtime path now)
  | create {dir : SubPath} (name : Str) : entry.isTree = true → dir ∈ entry.paths →
      Change now entry ((entry.setMtime dir now).add (dir ++ [name]) now)
  | delete {dir : SubPath} (name : Str) : entry.isTree = true →
      dir ∈ (entry.drop (dir ++ [name])).paths →
      Change now entry ((entry.drop (dir ++ [name])).setMtime dir now)

/-! ## The newest mtime -/

theorem mtime_le_lastActivity (entry : DiskEntry) : entry.mtime ≤ entry.lastActivity := by
  unfold lastActivity
  by_cases h : entry.isTree = true
  · simp only [h, Bool.not_true]
    exact (le_newest Prod.snd _ _).1
  · simp [h]

theorem below_le_lastActivity {entry : DiskEntry} (ht : entry.isTree = true)
    {item : SubPath × Time} (h : item ∈ entry.below) : item.2 ≤ entry.lastActivity := by
  unfold lastActivity
  simp only [ht, Bool.not_true]
  exact (le_newest Prod.snd _ _).2 item h

@[simp] theorem newDir_lastActivity (name : EntryName) (now : Time) :
    (newDir name now).lastActivity = now := rfl

@[simp] theorem setMtime_name (entry : DiskEntry) (path : SubPath) (now : Time) :
    (entry.setMtime path now).name = entry.name := by
  unfold setMtime
  split <;> rfl

@[simp] theorem setMtime_isTree (entry : DiskEntry) (path : SubPath) (now : Time) :
    (entry.setMtime path now).isTree = entry.isTree := by
  unfold setMtime
  split <;> rfl

theorem now_le_setMtime {entry : DiskEntry} {path : SubPath} (h : path ∈ entry.paths)
    (now : Time) : now ≤ (entry.setMtime path now).lastActivity := by
  by_cases hp : path = []
  · have hm := mtime_le_lastActivity (entry.setMtime path now)
    simp only [setMtime, hp, if_true] at hm ⊢
    exact hm
  · unfold paths at h
    by_cases ht : entry.isTree = true
    · rw [if_pos ht] at h
      rcases List.mem_cons.mp h with h | h
      · exact absurd h hp
      · obtain ⟨item, hitem, hpath⟩ := List.mem_map.mp h
        have hmem : (path, now) ∈ (entry.setMtime path now).below := by
          simp only [setMtime, if_neg hp, List.mem_map]
          exact ⟨item, hitem, by rw [if_pos hpath]⟩
        have htree : (entry.setMtime path now).isTree = true := by
          rw [setMtime_isTree, ht]
        exact below_le_lastActivity htree hmem
    · rw [if_neg ht] at h
      exact absurd (List.mem_singleton.mp h) hp

/-- After a change, an entry looks no older than the change. -/
theorem Change.now_le {now : Time} {entry entry' : DiskEntry} (h : Change now entry entry') :
    now ≤ entry'.lastActivity := by
  cases h with
  | write hp => exact now_le_setMtime hp now
  | @create dir name ht _ =>
    have htree : ((entry.setMtime dir now).add (dir ++ [name]) now).isTree = true :=
      (setMtime_isTree _ _ _).trans ht
    have hmem : (dir ++ [name], now) ∈ ((entry.setMtime dir now).add (dir ++ [name]) now).below :=
      List.mem_append_right _ (List.mem_singleton.mpr rfl)
    exact below_le_lastActivity htree hmem
  | delete name _ hp => exact now_le_setMtime hp now

theorem Change.name_eq {now : Time} {entry entry' : DiskEntry} (h : Change now entry entry') :
    entry'.name = entry.name := by
  cases h with
  | write _ => exact setMtime_name _ _ _
  | create _ _ _ => exact setMtime_name _ _ _
  | delete _ _ _ => exact setMtime_name _ _ _

/-- What `_remove` may leave: nothing, or the entry after some deletions. -/
def Left (now : Time) (entry : DiskEntry) (left : Option DiskEntry) : Prop :=
  ∀ entry' ∈ left, Relation.ReflTransGen (Change now) entry entry'

/-- `entry'` is `entry`, maybe changed at `now` or later. -/
def Ages (now : Time) (entry entry' : DiskEntry) : Prop :=
  entry'.name = entry.name ∧ (entry' = entry ∨ now ≤ entry'.lastActivity)

theorem ages_of_changes {now : Time} {entry entry' : DiskEntry}
    (h : Relation.ReflTransGen (Change now) entry entry') : Ages now entry entry' := by
  induction h with
  | refl => exact ⟨rfl, .inl rfl⟩
  | tail _ hc ih => exact ⟨hc.name_eq.trans ih.1, .inr hc.now_le⟩

end DiskEntry

/-! ## The operations -/

namespace LocalFileStorage

def find (base : List DiskEntry) (id : UUID) : Option DiskEntry :=
  base.find? fun entry => entry.name = .request id

/-- `temp_dir_for_request`: `mkdir(parents=True, exist_ok=True)`. -/
def tempDirForRequest (base : List DiskEntry) (id : UUID) (now : Time) :
    Except Exc (List DiskEntry) :=
  match find base id with
  | none => .ok (base ++ [.newDir (.request id) now])
  | some entry => if entry.isDir then .ok base else .error (.other (str "FileExistsError"))

/-- `_release_sync`, when `_remove` leaves `left`. -/
def release (base : List DiskEntry) (id : UUID) (left : Option DiskEntry) : List DiskEntry :=
  if (find base id).isNone then base
  else base.filterMap fun entry => if entry.name = .request id then left else some entry

/-- `age_seconds > max_age_seconds`. -/
def isExpired (now maxAge : Time) (entry : DiskEntry) : Bool :=
  !(now - entry.lastActivity ≤ maxAge : Bool)

/-- `_cleanup_expired_sync`, when `_remove` leaves `left`: what is in `base_dir`
afterwards, and how many were removed. -/
def cleanupExpired (base : List DiskEntry) (now maxAge : Time)
    (left : DiskEntry → Option DiskEntry) : List DiskEntry × Nat :=
  (base.filterMap fun entry => if isExpired now maxAge entry then left entry else some entry,
    base.countP fun entry => isExpired now maxAge entry && (left entry).isNone)

variable {base : List DiskEntry} {now : Time} {entry : DiskEntry}

theorem tempDirForRequest_mem {id : UUID} {base' : List DiskEntry}
    (h : tempDirForRequest base id now = .ok base') (he : entry ∈ base') :
    entry ∈ base ∨ now ≤ entry.lastActivity := by
  unfold tempDirForRequest at h
  split at h
  · cases h
    rcases List.mem_append.mp he with he | he
    · exact .inl he
    · right
      rw [List.mem_singleton.mp he]
      exact le_refl _
  · split at h
    · cases h
      exact .inl he
    · cases h

theorem release_mem {id : UUID} {left : Option DiskEntry}
    (hleft : ∀ old ∈ base, old.name = .request id → old.Left now left)
    (he : entry ∈ release base id left) : ∃ old ∈ base, old.Ages now entry := by
  unfold release at he
  split at he
  · exact ⟨entry, he, rfl, .inl rfl⟩
  · obtain ⟨old, hold, hstep⟩ := List.mem_filterMap.mp he
    by_cases hn : old.name = .request id
    · rw [if_pos hn] at hstep
      exact ⟨old, hold, DiskEntry.ages_of_changes (hleft old hold hn entry hstep)⟩
    · rw [if_neg hn] at hstep
      cases hstep
      exact ⟨entry, hold, rfl, .inl rfl⟩

theorem cleanupExpired_mem {maxAge : Time} {left : DiskEntry → Option DiskEntry}
    (hleft : ∀ old ∈ base, old.Left now (left old))
    (he : entry ∈ (cleanupExpired base now maxAge left).1) : ∃ old ∈ base, old.Ages now entry := by
  obtain ⟨old, hold, hstep⟩ := List.mem_filterMap.mp he
  by_cases hx : isExpired now maxAge old = true
  · rw [if_pos hx] at hstep
    exact ⟨old, hold, DiskEntry.ages_of_changes (hleft old hold entry hstep)⟩
  · rw [if_neg hx] at hstep
    cases hstep
    exact ⟨entry, hold, rfl, .inl rfl⟩

end LocalFileStorage

end MediaDownloader
