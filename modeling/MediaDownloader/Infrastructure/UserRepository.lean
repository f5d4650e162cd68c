import MediaDownloader.Domain.Values

/-!
# The users table

`SqlAlchemyUserRepository`.  The table keeps `telegram_id` unique where it is
not NULL: a second insert of the same one fails.  Ids are drawn at random, and
no clash of theirs is modelled.

* `select_eq`: a SELECT by `telegram_id` finds one row at most;
* `create_ok`, `create_error`: an insert goes through exactly when there is none;
* `getByTelegramId_setLanguage`: an update never adds a row.
-/

namespace MediaDownloader

structure UserTable where
  rows : List User
  unique : rows.Pairwise fun a b => a.telegramId = none ∨ a.telegramId ≠ b.telegramId

namespace UserTable

def empty : UserTable := ⟨[], .nil⟩

/-- `SELECT ... WHERE telegram_id = :telegram_id`. -/
def select (t : UserTable) (telegramId : Int) : List User :=
  t.rows.filter fun row => row.telegramId == some telegramId

/-- `scalar_one_or_none` of the SELECT. -/
def getByTelegramId (t : UserTable) (telegramId : Int) : Option User :=
  (t.select telegramId).head?

/-- The row is the entity but for `created_at`, which is the server's. -/
def create (t : UserTable) (user : User) (createdAt : Time) : Except Exc UserTable :=
  if h : ∀ row ∈ t.rows, row.telegramId = none ∨ row.telegramId ≠ user.telegramId then
    .ok {
      rows := t.rows ++ [{ user with createdAt := createdAt }]
      unique := by
        rw [List.pairwise_append]
        refine ⟨t.unique, List.pairwise_singleton _ _, ?_⟩
        intro a ha b hb
        rw [List.mem_singleton.mp hb]
        exact h a ha }
  else .error .integrityError

/-- `model.language = language`, if the SELECT has found this row. -/
def writeLanguage (telegramId : Int) (language : Option Str) (row : User) : User :=
  if row.telegramId = some telegramId then { row with language := language } else row

@[simp] theorem writeLanguage_telegramId (telegramId : Int) (language : Option Str)
    (row : User) : (writeLanguage telegramId language row).telegramId = row.telegramId := by
  unfold writeLanguage
  by_cases h : row.telegramId = some telegramId
  · rw [if_pos h]
  · rw [if_neg h]

def setLanguage (t : UserTable) (telegramId : Int) (language : Option Str) : UserTable where
  rows := t.rows.map (writeLanguage telegramId language)
  unique := by
    rw [List.pairwise_map]
    simp only [writeLanguage_telegramId]
    exact t.unique

/-! ## One row at most -/

theorem select_eq (t : UserTable) (telegramId : Int) :
    t.select telegramId = (t.getByTelegramId telegramId).toList := by
  unfold getByTelegramId
  have hpair := t.unique.filter fun row => row.telegramId == some telegramId
  have hmem : ∀ row ∈ t.select telegramId, row.telegramId = some telegramId := by
    intro row hrow
    have := (List.mem_filter.mp hrow).2
    simpa using this
  change (t.select telegramId).Pairwise _ at hpair
  generalize t.select telegramId = rows at hpair hmem
  match rows with
  | [] => rfl
  | [row] => rfl
  | a :: b :: rows =>
    have ha := hmem a (by simp)
    have hb := hmem b (by simp)
    have hab := (List.pairwise_cons.mp hpair).1 b (by simp)
    rw [ha, hb] at hab
    simp at hab

theorem select_eq_nil {t : UserTable} {telegramId : Int}
    (h : t.getByTelegramId telegramId = none) : t.select telegramId = [] := by
  rw [select_eq, h]
  rfl

theorem select_eq_singleton {t : UserTable} {telegramId : Int} {row : User}
    (h : t.getByTelegramId telegramId = some row) : t.select telegramId = [row] := by
  rw [select_eq, h]
  rfl

/-! ## Inserts -/

theorem create_eq_ok {t t' : UserTable} {user : User} {createdAt : Time}
    (h : t.create user createdAt = .ok t') :
    (∀ row ∈ t.rows, row.telegramId = none ∨ row.telegramId ≠ user.telegramId) ∧
      t'.rows = t.rows ++ [{ user with createdAt := createdAt }] := by
  unfold create at h
  split at h
  · next hfree =>
    cases h
    exact ⟨hfree, rfl⟩
  · cases h

/-- What an insert finds, and what a SELECT finds after it. -/
theorem create_ok {t t' : UserTable} {user : User} {createdAt : Time} {telegramId : Int}
    (h : t.create user createdAt = .ok t') (hu : user.telegramId = some telegramId) :
    t.getByTelegramId telegramId = none ∧
      t'.getByTelegramId telegramId = some { user with createdAt := createdAt } := by
  obtain ⟨hfree, hrows⟩ := create_eq_ok h
  have hnil : t.select telegramId = [] := by
    unfold select
    rw [List.filter_eq_nil_iff]
    intro row hrow hid
    have hid : row.telegramId = some telegramId := by simpa using hid
    rcases hfree row hrow with h | h
    · rw [hid] at h
      cases h
    · rw [hid, hu] at h
      exact h rfl
  have hone : t'.select telegramId = [{ user with createdAt := createdAt }] := by
    unfold select at hnil ⊢
    rw [hrows, List.filter_append, hnil]
    simp [hu]
  unfold getByTelegramId
  rw [hnil, hone]
  exact ⟨rfl, rfl⟩

theorem create_ok_of_ne {t t' : UserTable} {user : User} {createdAt : Time} {telegramId : Int}
    (h : t.create user createdAt = .ok t') (hu : user.telegramId ≠ some telegramId) :
    t'.getByTelegramId telegramId = t.getByTelegramId telegramId := by
  obtain ⟨-, hrows⟩ := create_eq_ok h
  unfold getByTelegramId select
  rw [hrows, List.filter_append]
  simp [hu]

/-- A refused insert has found the row of somebody with its `telegram_id`. -/
theorem create_error {t : UserTable} {user : User} {createdAt : Time} {e : Exc}
    {telegramId : Int} (h : t.create user createdAt = .error e)
    (hu : user.telegramId = some telegramId) :
    e = .integrityError ∧ ∃ row, t.getByTelegramId telegramId = some row := by
  unfold create at h
  split at h
  · cases h
  · next hfree =>
    cases h
    refine ⟨rfl, ?_⟩
    cases hget : t.getByTelegramId telegramId with
    | some row => exact ⟨row, rfl⟩
    | none =>
      exfalso
      apply hfree
      intro row hrow
      right
      intro hid
      have hmem : row ∈ t.select telegramId := by
        apply List.mem_filter.mpr
        simp [hrow, hid, hu]
      rw [select_eq_nil hget] at hmem
      cases hmem

/-! ## Updates -/

theorem getByTelegramId_setLanguage (t : UserTable) (telegramId : Int) (language : Option Str) :
    (t.setLanguage telegramId language).getByTelegramId telegramId =
      (t.getByTelegramId telegramId).map fun row => { row with language := language } := by
  have hselect : (t.setLanguage telegramId language).select telegramId =
      (t.select telegramId).map (writeLanguage telegramId language) := by
    unfold select setLanguage
    rw [List.filter_map]
    congr 2
    funext row
    simp
  unfold getByTelegramId
  rw [hselect, List.head?_map]
  cases hrow : (t.select telegramId).head? with
  | none => rfl
  | some row =>
    have hmem := List.mem_filter.mp (List.mem_of_mem_head? hrow)
    have hid : row.telegramId = some telegramId := by simpa using hmem.2
    rw [Option.map_some, Option.map_some, writeLanguage, if_pos hid]

theorem getByTelegramId_setLanguage_of_ne (t : UserTable) {telegramId telegramId' : Int}
    (language : Option Str) (hne : telegramId' ≠ telegramId) :
    (t.setLanguage telegramId language).getByTelegramId telegramId' =
      t.getByTelegramId telegramId' := by
  have hselect : (t.setLanguage telegramId language).select telegramId' =
      t.select telegramId' := by
    change (t.rows.map (writeLanguage telegramId language)).filter _ = t.rows.filter _
    induction t.rows with
    | nil => rfl
    | cons row rows ih =>
      rw [List.map_cons, List.filter_cons, List.filter_cons, ih, writeLanguage_telegramId]
      by_cases hid : row.telegramId = some telegramId
      · simp [hid, Ne.symm hne]
      · rw [writeLanguage, if_neg hid]
  unfold getByTelegramId
  rw [hselect]

end UserTable

end MediaDownloader
