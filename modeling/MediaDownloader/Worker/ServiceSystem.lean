import Mathlib.Data.List.Nodup
import MediaDownloader.Infrastructure.StoredRequests
import MediaDownloader.Infrastructure.UserRepository
import MediaDownloader.Worker.RequestSystem

/-!
# The service as a system

The bots, jobs and reapers of `requestSystem` over both tables.  Users register
and change their language meanwhile, user rows are keyed and never deleted.

* `Attended.served`: to the requests, users are elsewhere;
* `HasRow.change`: a user keeps the Telegram account;
* `HasRow.unique`: so a request leads to one account;
* `RowOf.served`: a stored request keeps what was requested.
-/

namespace MediaDownloader

open Interaction

/-- `session.get(UserModel, user_id)`. -/
def UserTable.getById (t : UserTable) (id : UUID) : Option User :=
  t.rows.find? fun row => row.id == id

/-- A `UserRepository` call. -/
def Call.isUserRepository : Call → Bool
  | .userGetById _ => true
  | .userGetByTelegramId _ => true
  | .userCreate _ => true
  | .userSetLanguage _ _ => true
  | _ => false

/-- Both tables, the clock and the queue. -/
structure Service where
  world : World
  users : UserTable

/-- The user got in: the primary key and `telegram_id` were free. -/
structure Registers (t : UserTable) (user : User) (t' : UserTable) : Prop where
  newId : user.id ∉ t.rows.map User.id
  inserted : ∃ createdAt, t.create user createdAt = .ok t'

/-- How the `users` table answers; an insert may lose its reply. -/
inductive UserServed (t : UserTable) : (c : Call) → Except Exc (Resp c) → UserTable → Prop
  | byId (id : UUID) : UserServed t (.userGetById id) (.ok (t.getById id)) t
  | byTelegramId (telegramId : Int) :
      UserServed t (.userGetByTelegramId telegramId) (.ok (t.getByTelegramId telegramId)) t
  | created {user : User} {t' : UserTable} : Registers t user t' →
      UserServed t (.userCreate user) (.ok ()) t'
  | createdLost {user : User} {t' : UserTable} {e : Exc} : Registers t user t' →
      UserServed t (.userCreate user) (.error e) t'
  | language (telegramId : Int) (language : Option Str) :
      UserServed t (.userSetLanguage telegramId language)
        (.ok ((t.setLanguage telegramId language).getByTelegramId telegramId))
        (t.setLanguage telegramId language)
  | failed {c : Call} {e : Exc} : c.isUserRepository = true → UserServed t c (.error e) t

inductive Attended (s : Service) : (c : Call) → Except Exc (Resp c) → Service → Prop
  | users {c : Call} {r : Except Exc (Resp c)} {users : UserTable} :
      UserServed s.users c r users → Attended s c r { s with users := users }
  | world {c : Call} {r : Except Exc (Resp c)} {world : World} :
      c.isUserRepository = false → Served s.world c r world →
      Attended s c r { s with world := world }

/-- What other handlers and the clock do meanwhile. -/
inductive Meanwhile (s : Service) : Service → Prop
  | clock (now : Time) : s.world.now ≤ now →
      Meanwhile s { s with world := { s.world with now := now } }
  | registered {user : User} {users : UserTable} : Registers s.users user users →
      Meanwhile s { s with users := users }
  | language (telegramId : Int) (language : Option Str) :
      Meanwhile s { s with users := s.users.setLanguage telegramId language }

def serviceSystem (d : Deployment) : System Call Resp Exc Actor Service where
  code := Actor.code d
  start s := (requestSystem d).start s.world
  answer s _ c r s' := Attended s c r s'
  drift := Meanwhile

abbrev Services := Conf Call Resp Exc Actor Service

theorem UserServed.isUserRepository {t t' : UserTable} {c : Call} {r : Except Exc (Resp c)}
    (h : UserServed t c r t') : c.isUserRepository = true := by
  cases h with
  | failed hc => exact hc
  | _ => rfl

/-- To the requests, a user call is one of those that happen elsewhere. -/
theorem served_of_user {w : World} {c : Call} (r : Except Exc (Resp c))
    (h : c.isUserRepository = true) : Served w c r w := by
  cases c with
  | userGetById _ => exact .elsewhere r rfl (fun h => by cases h) rfl
  | userGetByTelegramId _ => exact .elsewhere r rfl (fun h => by cases h) rfl
  | userCreate _ => exact .elsewhere r rfl (fun h => by cases h) rfl
  | userSetLanguage _ _ => exact .elsewhere r rfl (fun h => by cases h) rfl
  | _ => cases h

theorem Attended.served {s s' : Service} {c : Call} {r : Except Exc (Resp c)}
    (h : Attended s c r s') : Served s.world c r s'.world := by
  cases h with
  | users hu => exact served_of_user r hu.isUserRepository
  | world _ hw => exact hw

/-! ## Users -/

/-- The user `id` is there, with this Telegram account. -/
def HasRow (t : UserTable) (id : UUID) (telegramId : Option Int) : Prop :=
  ∃ row ∈ t.rows, row.id = id ∧ row.telegramId = telegramId

/-- The primary key of the `users` table. -/
def Keyed (t : UserTable) : Prop := (t.rows.map User.id).Nodup

/-- What happens to the `users` table: nothing, an insert or a new language. -/
inductive UserChange (t : UserTable) : UserTable → Prop
  | none : UserChange t t
  | registered {user : User} {t' : UserTable} : Registers t user t' → UserChange t t'
  | language (telegramId : Int) (language : Option Str) :
      UserChange t (t.setLanguage telegramId language)

section Users

variable {t t' : UserTable} {id : UUID} {telegramId : Option Int}

theorem UserServed.change {c : Call} {r : Except Exc (Resp c)} (h : UserServed t c r t') :
    UserChange t t' := by
  cases h with
  | created hu => exact .registered hu
  | createdLost hu => exact .registered hu
  | language telegramId language => exact .language telegramId language
  | _ => exact .none

theorem writeLanguage_id (telegramId : Int) (language : Option Str) (row : User) :
    (UserTable.writeLanguage telegramId language row).id = row.id := by
  unfold UserTable.writeLanguage
  split <;> rfl

theorem Registers.rows {user : User} (h : Registers t user t') :
    ∃ createdAt, t'.rows = t.rows ++ [{ user with createdAt := createdAt }] := by
  obtain ⟨createdAt, hcreate⟩ := h.inserted
  exact ⟨createdAt, (UserTable.create_eq_ok hcreate).2⟩

theorem Keyed.change (hk : Keyed t) (h : UserChange t t') : Keyed t' := by
  cases h with
  | none => exact hk
  | @registered user _ hu =>
    obtain ⟨createdAt, hrows⟩ := hu.rows
    unfold Keyed
    rw [hrows, List.map_append, List.nodup_append]
    refine ⟨hk, List.nodup_singleton _, fun a ha b hb hab => ?_⟩
    rw [List.mem_singleton.mp hb] at hab
    exact hu.newId (hab ▸ ha)
  | language telegramId language =>
    have hids : (t.setLanguage telegramId language).rows.map User.id = t.rows.map User.id := by
      unfold UserTable.setLanguage
      rw [List.map_map]
      exact List.map_congr_left fun row _ => writeLanguage_id telegramId language row
    unfold Keyed
    rw [hids]
    exact hk

theorem HasRow.change (hr : HasRow t id telegramId) (h : UserChange t t') :
    HasRow t' id telegramId := by
  obtain ⟨row, hrow, hid, htelegram⟩ := hr
  cases h with
  | none => exact ⟨row, hrow, hid, htelegram⟩
  | registered hu =>
    obtain ⟨createdAt, hrows⟩ := hu.rows
    rw [HasRow, hrows]
    exact ⟨row, List.mem_append_left _ hrow, hid, htelegram⟩
  | language telegramId' language =>
    refine ⟨_, List.mem_map_of_mem hrow, ?_, ?_⟩
    · rw [writeLanguage_id, hid]
    · rw [UserTable.writeLanguage_telegramId, htelegram]

theorem hasRow_of_registers {user : User} (h : Registers t user t') :
    HasRow t' user.id user.telegramId := by
  obtain ⟨createdAt, hrows⟩ := h.rows
  rw [HasRow, hrows]
  exact ⟨_, List.mem_append_right _ (List.mem_singleton.mpr rfl), rfl, rfl⟩

theorem hasRow_of_getByTelegramId {sender : Int} {user : User}
    (h : t.getByTelegramId sender = some user) : HasRow t user.id (some sender) := by
  have hmem := List.mem_filter.mp (List.mem_of_mem_head? h)
  exact ⟨user, hmem.1, rfl, by simpa using hmem.2⟩

theorem hasRow_of_getById {user : User} (h : t.getById id = some user) :
    HasRow t id user.telegramId := by
  have hid : (user.id == id) = true := List.find?_some (p := fun row : User => row.id == id) h
  exact ⟨user, List.mem_of_find?_eq_some h, by simpa using hid, rfl⟩

theorem getById_of_hasRow (h : HasRow t id telegramId) : t.getById id ≠ none := by
  obtain ⟨row, hrow, hid, -⟩ := h
  intro hnone
  have hne := List.find?_eq_none.mp hnone row hrow
  simp [hid] at hne

/-- A user has one Telegram account. -/
theorem HasRow.unique (hk : Keyed t) {telegramId' : Option Int} (h : HasRow t id telegramId)
    (h' : HasRow t id telegramId') : telegramId = telegramId' := by
  obtain ⟨row, hrow, hid, rfl⟩ := h
  obtain ⟨row', hrow', hid', rfl⟩ := h'
  have hsame : row = row' := List.inj_on_of_nodup_map hk hrow hrow' (hid.trans hid'.symm)
  rw [hsame]

end Users

/-! ## Requests -/

/-- The row of `request`, whatever has become of it since. -/
def RowOf (t : Table) (request : DownloadRequest) : Prop :=
  ∃ created written, t.get? request.id = some (Row.stored request created written)

theorem RowOf.served {w w' : World} {c : Call} {r : Except Exc (Resp c)} {request : DownloadRequest}
    (h : RowOf w.table request) (hs : Served w c r w') : RowOf w'.table request := by
  obtain ⟨created, written, hrow⟩ := h
  rcases hs.table_cases with ht | ⟨-, ht⟩
  · rw [ht]
    exact ⟨created, written, hrow⟩
  · rw [ht]
    exact ⟨created, _, stored_step hrow w.now c⟩

/-- What was requested, as the row tells it. -/
structure SameOrder (entity request : DownloadRequest) : Prop where
  id : entity.id = request.id
  userId : entity.userId = request.userId
  sourceUrl : entity.sourceUrl = request.sourceUrl
  spec : entity.spec = request.spec

theorem spec_of_columns {spec spec' : DownloadSpec} (hk : (specKind spec).value = (specKind spec').value)
    (ht : (specVideoTier spec).map VideoTier.value = (specVideoTier spec').map VideoTier.value) :
    spec = spec' := by
  have hparts := specFromParts_parts spec
  rw [hk, ht, specFromParts_parts] at hparts
  exact (Option.some.inj hparts).symm

/-- A row was stored for one order. -/
theorem RowOf.sameOrder {t : Table} {request request' : DownloadRequest} (h : RowOf t request)
    (h' : RowOf t request') (hid : request.id = request'.id) : SameOrder request request' := by
  obtain ⟨created, written, hrow⟩ := h
  obtain ⟨created', written', hrow'⟩ := h'
  rw [hid, hrow'] at hrow
  have hsame := Option.some.inj hrow
  exact
    { id := hid
      userId := (congrArg Row.userId hsame).symm
      sourceUrl := (congrArg Row.sourceUrl hsame).symm
      spec := (spec_of_columns (congrArg Row.formatKind hsame) (congrArg Row.videoTier hsame)).symm }

/-- What is read of a stored row is the order. -/
theorem SameOrder.of_stored {request entity : DownloadRequest} {created : Time} {written : Written}
    (h : (Row.stored request created written).toEntity = .ok entity) : SameOrder entity request := by
  rw [Row.stored_toEntity] at h
  cases h
  exact ⟨rfl, rfl, rfl, rfl⟩

end MediaDownloader
