import MediaDownloader.Worker.Duties
import MediaDownloader.Worker.ServiceSystem
import MediaDownloader.Worker.TerminalStatuses

/-!
# What was ordered is what is served

From the handler that files a request to the job that downloads and delivers it,
and to the reaper that gives it up: whatever the interleaving, all of it is done
on one order, for the user who placed it.

* `Filed.order`: what was filed is what was ordered;
* `Orderly.step`: every row, queue entry and job goes back to an order;
* `service_serves_orders`: so do the downloads, the deliveries and the notices.
-/

namespace MediaDownloader

open Interaction

/-- What a user has asked a bot handler for, in answer to which message. -/
structure Order where
  telegramId : Int
  url : Str
  spec : DownloadSpec
  extractorKey : Str
  chatId : Int
  messageId : Int

def Order.actor (o : Order) : Actor :=
  .bot o.telegramId o.url o.spec o.extractorKey o.chatId o.messageId

/-- A handler of the order has created `request`, with this answer. -/
def Filed (c : Services) (o : Order) (request : DownloadRequest) (r : Except Exc Unit) : Prop :=
  ∃ (i : Nat) (th : ActorThread), c.threads[i]? = some th ∧ th.kind = o.actor ∧
    ⟨.create request, r⟩ ∈ th.trace

def Actor.isJob : Actor → Bool
  | .job _ _ _ _ => true
  | _ => false

/-- What an answered call says of the tables, at once and for good. -/
def Attests (s : Service) (k : Actor) : Ev → Prop
  | ⟨.userGetByTelegramId telegramId, .ok (some user)⟩ => HasRow s.users user.id (some telegramId)
  | ⟨.userCreate user, .ok ()⟩ => HasRow s.users user.id user.telegramId
  | ⟨.userGetById id, .ok (some user)⟩ => HasRow s.users id user.telegramId
  | ⟨.userGetById _, .ok none⟩ => k.isJob = false
  | ⟨.create request, .ok ()⟩ => RowOf s.world.table request
  | ⟨.getById id, .ok (some entity)⟩ => ∃ request, RowOf s.world.table request ∧
      request.id = id ∧ SameOrder entity request
  | ⟨.getById _, .ok none⟩ => k.isJob = false
  | ⟨.getById _, .error e⟩ => e.isCorruptedRecord = false
  | ⟨.selectStale _ _, .ok candidates⟩ => ∀ cand ∈ candidates, ∃ request,
      RowOf s.world.table request ∧ request.id = cand.id ∧ request.userId = cand.userId
  | _ => True

theorem uncorrupted_of_attests {s : Service} {k : Actor} {e : Ev} (h : Attests s k e) :
    Uncorrupted e := by
  unfold Uncorrupted
  split
  · exact h
  · trivial

/-- Every row was stored for a request. -/
def AllStored (t : Table) : Prop :=
  ∀ id row, t.get? id = some row → ∃ request, request.id = id ∧
    ∃ created written, row = Row.stored request created written

theorem AllStored.rowOf {t : Table} (h : AllStored t) {id : UUID} {row : Row}
    (hrow : t.get? id = some row) : ∃ request, RowOf t request ∧ request.id = id ∧
      ∃ created written, row = Row.stored request created written := by
  obtain ⟨request, hid, created, written, hstored⟩ := h id row hrow
  refine ⟨request, ⟨created, written, ?_⟩, hid, created, written, hstored⟩
  rw [hid, hrow, hstored]

section Answers

variable {w w' : World} {id : UUID}

theorem Served.create_ok {request : DownloadRequest} (h : Served w (.create request) (.ok ()) w') :
    RowOf w'.table request := by
  cases h with
  | reply _ _ hr => exact ⟨w.now, _, stored_create hr.symm⟩
  | elsewhere _ hc _ _ => cases hc

theorem Served.getById_reply {found : Option DownloadRequest}
    (h : Served w (.getById id) (.ok found) w') :
    w.table.getById id = .ok found ∧ w'.table = w.table := by
  cases h with
  | reply _ _ hr => exact ⟨hr.symm, rfl⟩
  | elsewhere _ hc _ _ => cases hc

theorem Served.getById_some {entity : DownloadRequest} (hstored : AllStored w.table)
    (h : Served w (.getById id) (.ok (some entity)) w') :
    ∃ request, RowOf w'.table request ∧ request.id = id ∧ SameOrder entity request := by
  obtain ⟨hget, ht⟩ := h.getById_reply
  unfold Table.getById at hget
  cases hrow : w.table.get? id with
  | none =>
    rw [hrow] at hget
    cases hget
  | some row =>
    obtain ⟨request, hrowOf, hid, created, written, rfl⟩ := hstored.rowOf hrow
    rw [hrow] at hget
    cases hentity : (Row.stored request created written).toEntity with
    | error e =>
      simp only [hentity] at hget
      cases hget
    | ok entity' =>
      simp only [hentity] at hget
      cases hget
      exact ⟨request, ht ▸ hrowOf, hid, .of_stored hentity⟩

theorem Served.getById_none (h : Served w (.getById id) (.ok none) w') :
    w.table.get? id = none := by
  obtain ⟨hget, -⟩ := h.getById_reply
  unfold Table.getById at hget
  cases hrow : w.table.get? id with
  | none => rfl
  | some row =>
    rw [hrow] at hget
    cases hentity : row.toEntity with
    | error e =>
      simp only [hentity] at hget
      cases hget
    | ok entity =>
      simp only [hentity] at hget
      cases hget

theorem Served.getById_error {e : Exc} (hstored : AllStored w.table)
    (h : Served w (.getById id) (.error e) w') : e.isCorruptedRecord = false := by
  cases e with
  | corruptedRecord column raw rid uid =>
    obtain ⟨row, hrow, -, hread⟩ := h.corrupted
    obtain ⟨request, -, created, written, rfl⟩ := hstored id row hrow
    refine absurd ⟨⟨written.status, ?_⟩, request.spec, ?_⟩ hread
    · exact DownloadStatus.parse_value _
    · exact specFromParts_parts _
  | _ => rfl

theorem Served.candidates_stored {updatedBefore : Time} {limit : Nat} {candidates : List Candidate}
    (hstored : AllStored w.table)
    (h : Served w (.selectStale updatedBefore limit) (.ok candidates) w') {cand : Candidate}
    (hcand : cand ∈ candidates) :
    ∃ request, RowOf w'.table request ∧ request.id = cand.id ∧ request.userId = cand.userId := by
  obtain ⟨row, hrow, -, -, huser, -, ht⟩ := h.selected hcand
  obtain ⟨request, hrowOf, hid, created, written, rfl⟩ := hstored.rowOf hrow
  exact ⟨request, ht ▸ hrowOf, hid, huser⟩

end Answers

section Facts

variable {s : Service} {k : Actor} {c : Call} {r : Except Exc (Resp c)}

/-- What the `users` table answers. -/
theorem attests_of_userServed {users : UserTable} (h : UserServed s.users c r users)
    (hjob : ∀ id, c = .userGetById id → k.isJob = true → ∃ telegramId, HasRow s.users id telegramId) :
    Attests { s with users := users } k ⟨c, r⟩ := by
  cases h with
  | byId id =>
    cases hget : s.users.getById id with
    | some user => exact hasRow_of_getById hget
    | none =>
      show k.isJob = false
      by_contra hk
      obtain ⟨telegramId, hrow⟩ := hjob id rfl (Bool.not_eq_false _ ▸ hk)
      exact getById_of_hasRow hrow hget
  | byTelegramId telegramId =>
    cases hget : s.users.getByTelegramId telegramId with
    | some user => exact hasRow_of_getByTelegramId hget
    | none => trivial
  | created hu => exact hasRow_of_registers hu
  | createdLost _ => trivial
  | language _ _ => trivial
  | failed hc =>
    cases c with
    | getById _ => cases hc
    | _ => trivial

/-- What the requests, the clock and the rest answer. -/
theorem attests_of_served {world : World} (h : Served s.world c r world)
    (hc : c.isUserRepository = false) (hstored : AllStored s.world.table)
    (hjob : ∀ id, c = .getById id → k.isJob = true → s.world.table.get? id ≠ none) :
    Attests { s with world := world } k ⟨c, r⟩ := by
  cases c with
  | userGetByTelegramId _ => cases hc
  | userCreate _ => cases hc
  | userGetById _ => cases hc
  | create request =>
    cases r with
    | ok _ => exact h.create_ok
    | error e => trivial
  | getById id =>
    rcases r with e | (_ | entity)
    · exact h.getById_error hstored
    · show k.isJob = false
      by_contra hk
      exact hjob id rfl (Bool.not_eq_false _ ▸ hk) h.getById_none
    · exact h.getById_some hstored
  | selectStale updatedBefore limit =>
    cases r with
    | ok candidates => exact fun cand hcand => h.candidates_stored hstored hcand
    | error e => trivial
  | _ => trivial

end Facts

/-! ## What lasts -/

/-- A later state of the tables. -/
structure Service.Later (s s' : Service) : Prop where
  rows : ∀ request, RowOf s.world.table request → RowOf s'.world.table request
  users : UserChange s.users s'.users

theorem Attests.later {s s' : Service} (h : s.Later s') {k : Actor} {e : Ev} (he : Attests s k e) :
    Attests s' k e := by
  unfold Attests at he ⊢
  split at he
  · exact he.change h.users
  · exact he.change h.users
  · exact he.change h.users
  · exact he
  · exact h.rows _ he
  · obtain ⟨request, hrow, hid, hsame⟩ := he
    exact ⟨request, h.rows _ hrow, hid, hsame⟩
  · exact he
  · exact he
  · intro cand hcand
    obtain ⟨request, hrow, hid, huser⟩ := he cand hcand
    exact ⟨request, h.rows _ hrow, hid, huser⟩
  · trivial

theorem Attended.later {s s' : Service} {c : Call} {r : Except Exc (Resp c)}
    (h : Attended s c r s') : s.Later s' := by
  cases h with
  | users hu => exact ⟨fun _ hr => hr, hu.change⟩
  | world _ hw => exact ⟨fun _ hr => hr.served hw, .none⟩

theorem Meanwhile.later {s s' : Service} (h : Meanwhile s s') : s.Later s' := by
  cases h with
  | clock _ _ => exact ⟨fun _ hr => hr, .none⟩
  | registered hu => exact ⟨fun _ hr => hr, .registered hu⟩
  | language telegramId language => exact ⟨fun _ hr => hr, .language telegramId language⟩

section Orders

variable {d : Deployment} {c c' : Services} {l : ActorLabel}

theorem service_later (h : Step (serviceSystem d) c l c') : c.shared.Later c'.shared := by
  rcases h.shared_cases with he | ⟨-, hdrift⟩ | ⟨i, th, e, -, hcall⟩
  · rw [he]
    exact ⟨fun _ hr => hr, .none⟩
  · exact Meanwhile.later hdrift
  · exact Attended.later hcall.answer

theorem Filed.step {o : Order} {request : DownloadRequest} {r : Except Exc Unit}
    (hf : Filed c o request r) (h : Step (serviceSystem d) c l c') : Filed c' o request r := by
  obtain ⟨i, th, hi, hk, hm⟩ := hf
  obtain ⟨th', hi', hk', ht⟩ := h.extends i th hi
  exact ⟨i, th', hi', hk'.trans hk, ht.subset hm⟩

/-! ## Every row, queue entry and job goes back to an order -/

structure Orderly (d : Deployment) (c : Services) : Prop where
  coded : c.Coded (serviceSystem d)
  keyed : Keyed c.shared.users
  attested : c.Attested Attests
  rows : ∀ id row, c.shared.world.table.get? id = some row →
    ∃ o request r, Filed c o request r ∧ request.id = id ∧
      ∃ created written, row = Row.stored request created written
  accepted : ∀ id chatId messageId, (id, chatId, messageId) ∈ c.shared.world.accepted →
    ∃ o request, Filed c o request (.ok ()) ∧ request.id = id ∧ o.chatId = chatId ∧
      o.messageId = messageId
  queued : ∀ (i : Nat) (th : ActorThread) start id chatId messageId, c.threads[i]? = some th →
    th.kind = .job start id chatId messageId → (id, chatId, messageId) ∈ c.shared.world.accepted

theorem Orderly.stored (hc : Orderly d c) : AllStored c.shared.world.table := by
  intro id row hrow
  obtain ⟨o, request, r, -, hid, hstored⟩ := hc.rows id row hrow
  exact ⟨request, hid, hstored⟩

theorem Orderly.uncorrupted (hc : Orderly d c) {i : Nat} {th : ActorThread}
    (hi : c.threads[i]? = some th) : ∀ e ∈ th.trace, Uncorrupted e :=
  fun e he => uncorrupted_of_attests (hc.attested i th hi e he)

/-- Every call in a history was a duty when it was made. -/
theorem Orderly.made (hc : Orderly d c) {i : Nat} {th : ActorThread}
    (hi : c.threads[i]? = some th) {u v : Trace} {e : Ev} (ht : th.trace = u ++ e :: v) :
    th.kind.Duty d u e.call :=
  hc.coded.made (duty_wp d) hi (hc.uncorrupted hi) ht

/-- So is the call that a thread is about to make. -/
theorem Orderly.duty (hc : Orderly d c) {i : Nat} {th : ActorThread} {e : Ev} {s : Service}
    (h : c.Calls (serviceSystem d) i th e s) : th.kind.Duty d th.trace e.call := by
  obtain ⟨f, hf⟩ := h.next
  exact hc.coded.allows (duty_wp d) h.thread (hc.uncorrupted h.thread) hf

/-- What an order asks for. -/
structure Order.Asks (o : Order) (d : Deployment) (s : Service) (request : DownloadRequest) :
    Prop where
  url : validateUrl d.unicode o.url = .ok request.sourceUrl
  spec : request.spec = o.spec
  user : HasRow s.users request.userId (some o.telegramId)

/-- What was filed is what was ordered. -/
theorem Orderly.order (hc : Orderly d c) {o : Order} {request : DownloadRequest}
    {r : Except Exc Unit} (h : Filed c o request r) : o.Asks d c.shared request := by
  obtain ⟨i, th, hi, hk, hm⟩ := h
  obtain ⟨u, v, ht⟩ := List.append_of_mem hm
  have hduty := hc.made hi ht
  rw [hk] at hduty
  obtain ⟨hurl, hspec, -, user, hrow, huser⟩ := hduty
  have hfact : ∀ e ∈ u, Attests c.shared th.kind e := by
    intro e he
    refine hc.attested i th hi e ?_
    rw [ht]
    exact List.mem_append_left _ he
  refine ⟨hurl, hspec, ?_⟩
  rw [huser]
  rcases hrow with hrow | ⟨htelegram, hrow⟩
  · exact hfact _ hrow
  · rw [← htelegram]
    exact hfact _ hrow

theorem Orderly.row (hc : Orderly d c) {o : Order} {request : DownloadRequest}
    (h : Filed c o request (.ok ())) : RowOf c.shared.world.table request := by
  obtain ⟨i, th, hi, -, hm⟩ := h
  exact hc.attested i th hi _ hm

/-- The queue stays, or takes the job of an enqueue call. -/
theorem Served.accepted_cases {w w' : World} {cl : Call} {r : Except Exc (Resp cl)}
    (h : Served w cl r w') : w'.accepted = w.accepted ∨
      ∃ id chatId messageId, cl = .enqueueDownload id chatId messageId ∧
        w'.accepted = (id, chatId, messageId) :: w.accepted := by
  cases h with
  | accepted _ => exact .inr ⟨_, _, _, rfl, rfl⟩
  | _ => exact .inl rfl

theorem Meanwhile.accepted_eq {s s' : Service} (h : Meanwhile s s') :
    s'.world.accepted = s.world.accepted ∧ s'.world.table = s.world.table := by
  cases h <;> exact ⟨rfl, rfl⟩

/-- Only bot handlers create requests. -/
theorem duty_create {k : Actor} {g : Trace} {request : DownloadRequest}
    (h : k.Duty d g (.create request)) : ∃ o : Order, k = o.actor := by
  cases k with
  | bot telegramId url spec extractorKey chatId messageId =>
    exact ⟨⟨telegramId, url, spec, extractorKey, chatId, messageId⟩, rfl⟩
  | job _ _ _ _ =>
    obtain ⟨_, _, _, -, -, -, hworks⟩ := h
    exact hworks.elim
  | reaper => exact h.elim

/-- They enqueue the job of a request they have created, for their own message. -/
theorem duty_enqueue {k : Actor} {g : Trace} {id : UUID} {chatId messageId : Int}
    (h : k.Duty d g (.enqueueDownload id chatId messageId)) :
    ∃ o : Order, k = o.actor ∧ o.chatId = chatId ∧ o.messageId = messageId ∧ OwnRequest g id := by
  cases k with
  | bot telegramId url spec extractorKey chat message =>
    obtain ⟨rfl, rfl, hown⟩ := h
    exact ⟨⟨telegramId, url, spec, extractorKey, chatId, messageId⟩, rfl, rfl, rfl, hown⟩
  | job _ _ _ _ =>
    obtain ⟨_, _, _, -, -, -, hworks⟩ := h
    exact hworks.elim
  | reaper => exact h.elim

theorem Orderly.rows_step (hc : Orderly d c) (h : Step (serviceSystem d) c l c') {id : UUID}
    {row : Row} (hrow : c'.shared.world.table.get? id = some row) :
    ∃ o request r, Filed c' o request r ∧ request.id = id ∧
      ∃ created written, row = Row.stored request created written := by
  -- a row that was there is of the request it was of
  have keep {row₀ : Row} (hrow₀ : c.shared.world.table.get? id = some row₀) :
      ∃ o request r, Filed c' o request r ∧ request.id = id ∧
        ∃ created written, row = Row.stored request created written := by
    obtain ⟨o, request, r, hf, rfl, created, written, rfl⟩ := hc.rows id row₀ hrow₀
    obtain ⟨created', written', hrow'⟩ := (service_later h).rows request ⟨created, written, hrow₀⟩
    rw [hrow] at hrow'
    exact ⟨o, request, r, hf.step h, rfl, created', written', Option.some.inj hrow'⟩
  cases hbefore : c.shared.world.table.get? id with
  | some row₀ => exact keep hbefore
  | none =>
    rcases h.shared_cases with he | ⟨-, hdrift⟩ | ⟨i, th, e, rfl, hcall⟩
    · rw [he, hbefore] at hrow
      cases hrow
    · rw [(Meanwhile.accepted_eq hdrift).2, hbefore] at hrow
      cases hrow
    · have hserved : Served c.shared.world e.call e.resp c'.shared.world :=
        Attended.served hcall.answer
      rcases hserved.table_cases with ht | ⟨-, ht⟩
      · rw [ht, hbefore] at hrow
        cases hrow
      · rw [ht] at hrow
        rcases Table.effect_none hbefore c.shared.world.now e.call with
          hnone | ⟨request, hcreate, hid, hnew⟩
        · rw [hnone] at hrow
          cases hrow
        · rw [hnew] at hrow
          obtain ⟨cl, r⟩ := e
          obtain rfl : cl = .create request := hcreate
          obtain ⟨o, hk⟩ := duty_create (hc.duty hcall)
          obtain ⟨th₀, th', hi, hi', hk', htrace⟩ := h.caller
          rw [hcall.thread] at hi
          obtain rfl := Option.some.inj hi
          refine ⟨o, request, r, ⟨i, th', hi', hk'.trans hk, ?_⟩, hid,
            c.shared.world.now, .atCreation request c.shared.world.now,
            (Option.some.inj hrow).symm⟩
          rw [htrace]
          exact List.mem_append_right _ (List.mem_singleton.mpr rfl)

theorem Orderly.accepted_step (hc : Orderly d c) (h : Step (serviceSystem d) c l c') {id : UUID}
    {chatId messageId : Int} (hm : (id, chatId, messageId) ∈ c'.shared.world.accepted) :
    ∃ o request, Filed c' o request (.ok ()) ∧ request.id = id ∧ o.chatId = chatId ∧
      o.messageId = messageId := by
  have keep (hm : (id, chatId, messageId) ∈ c.shared.world.accepted) :
      ∃ o request, Filed c' o request (.ok ()) ∧ request.id = id ∧ o.chatId = chatId ∧
        o.messageId = messageId := by
    obtain ⟨o, request, hf, hid⟩ := hc.accepted id chatId messageId hm
    exact ⟨o, request, hf.step h, hid⟩
  rcases h.shared_cases with he | ⟨-, hdrift⟩ | ⟨i, th, e, -, hcall⟩
  · exact keep (he ▸ hm)
  · rw [(Meanwhile.accepted_eq hdrift).1] at hm
    exact keep hm
  · have hserved : Served c.shared.world e.call e.resp c'.shared.world :=
      Attended.served hcall.answer
    rcases hserved.accepted_cases with he | ⟨id', chat, message, hcl, he⟩
    · rw [he] at hm
      exact keep hm
    · rw [he] at hm
      rcases List.mem_cons.mp hm with heq | hm
      · cases heq
        have hduty := hc.duty hcall
        rw [hcl] at hduty
        obtain ⟨o, hk, hchat, hmessage, request, hcreated, hid⟩ := duty_enqueue hduty
        exact ⟨o, request, Filed.step ⟨i, th, hcall.thread, hk, hcreated⟩ h, hid, hchat, hmessage⟩
      · exact keep hm

theorem accepted_mono (h : Step (serviceSystem d) c l c') {entry : UUID × Int × Int}
    (hm : entry ∈ c.shared.world.accepted) : entry ∈ c'.shared.world.accepted := by
  rcases h.shared_cases with he | ⟨-, hdrift⟩ | ⟨i, th, e, -, hcall⟩
  · exact he ▸ hm
  · rw [(Meanwhile.accepted_eq hdrift).1]
    exact hm
  · have hserved : Served c.shared.world e.call e.resp c'.shared.world :=
      Attended.served hcall.answer
    rcases hserved.accepted_cases with he | ⟨_, _, _, -, he⟩
    · rw [he]
      exact hm
    · rw [he]
      exact List.mem_cons_of_mem _ hm

theorem Orderly.queued_step (hc : Orderly d c) (h : Step (serviceSystem d) c l c') {i : Nat}
    {th' : ActorThread} {start : Time} {id : UUID} {chatId messageId : Int}
    (hi : c'.threads[i]? = some th') (hk : th'.kind = .job start id chatId messageId) :
    (id, chatId, messageId) ∈ c'.shared.world.accepted := by
  rcases h.kind_cases hi with ⟨th, hi₀, hkind⟩ | ⟨rfl, -⟩
  · exact accepted_mono h (hc.queued i th start id chatId messageId hi₀ (hkind ▸ hk))
  · rw [hk] at h
    cases h with
    | start hs => exact hs.2

/-- A job looks up a request that is there, and then its user. -/
theorem Orderly.job_finds (hc : Orderly d c) {i : Nat} {th : ActorThread} {e : Ev} {s : Service}
    (h : c.Calls (serviceSystem d) i th e s) (hjob : th.kind.isJob = true) :
    (∀ id, e.call = .getById id → c.shared.world.table.get? id ≠ none) ∧
      ∀ id, e.call = .userGetById id → ∃ telegramId, HasRow c.shared.users id telegramId := by
  have hduty := hc.duty h
  cases hk : th.kind with
  | bot _ _ _ _ _ _ =>
    rw [hk] at hjob
    cases hjob
  | reaper =>
    rw [hk] at hjob
    cases hjob
  | job start requestId chatId messageId =>
    rw [hk] at hduty
    obtain ⟨o, request, hf, hid, -⟩ :=
      hc.accepted _ _ _ (hc.queued i th start requestId chatId messageId h.thread hk)
    constructor
    · intro id hcall hnone
      rw [hcall] at hduty
      obtain rfl : id = requestId := hduty
      obtain ⟨created, written, hrow⟩ := hc.row hf
      rw [hid, hnone] at hrow
      cases hrow
    · intro id hcall
      rw [hcall] at hduty
      obtain ⟨entity, hread, huser⟩ := hduty
      obtain ⟨request', hrow', hid', hsame⟩ := hc.attested i th h.thread _ hread
      have horder := (hc.row hf).sameOrder hrow' (hid.trans hid'.symm)
      refine ⟨some o.telegramId, ?_⟩
      rw [← huser, hsame.userId, ← horder.userId]
      exact (hc.order hf).user

theorem Orderly.step (hc : Orderly d c) (h : Step (serviceSystem d) c l c') : Orderly d c' where
  coded := h.coded hc.coded
  keyed := hc.keyed.change (service_later h).users
  attested := by
    refine h.attested (fun k e he => he.later (service_later h)) (fun i th e hcall => ?_) hc.attested
    have hanswer : Attended c.shared e.call e.resp c'.shared := hcall.answer
    cases hs : c'.shared with
    | mk world users =>
      rw [hs] at hanswer
      cases hanswer with
      | users hu => exact attests_of_userServed hu fun id hid hk => (hc.job_finds hcall hk).2 id hid
      | world hcl hw =>
        exact attests_of_served hw hcl hc.stored fun id hid hk => (hc.job_finds hcall hk).1 id hid
  rows _ _ hrow := hc.rows_step h hrow
  accepted _ _ _ hm := hc.accepted_step h hm
  queued _ _ _ _ _ _ hi hk := hc.queued_step h hi hk

/-! ## What is served -/

/-- The calls of a job that serve the order as filed in `request`. -/
def Order.Serves (o : Order) (d : Deployment) (request : DownloadRequest) : Call → Prop
  | .getById id => id = request.id
  | .userGetById id => id = request.userId
  | .claimForProcessing id => id = request.id
  | .update written => written.id = request.id
  | .tempDirForRequest id => id = request.id
  | .release id => id = request.id
  | .download url options => validateUrl d.unicode o.url = .ok url ∧ options.spec = o.spec
  | .publish id chatId messageId _ _ =>
    id = request.id ∧ chatId = o.chatId ∧ messageId = o.messageId
  | .sendFile telegramId media => telegramId = o.telegramId ∧
      ∃ result, media = DeliverableMedia.fromResult result (specKind o.spec)
  | .sendText about telegramId _ => about = request.id ∧ telegramId = o.telegramId
  | .availableBytes => True
  | .utcnow => True
  | .downloadEnd _ => True
  | .localize _ _ _ => True
  | _ => False

/-- What the service promises: a job finds its request and its user, and works on
the one order its request was filed for; a notice goes to whoever has ordered the row
it is about. -/
structure ServesOrders (d : Deployment) (c : Services) : Prop where
  jobs : ∀ (i : Nat) (th : ActorThread) start id chatId messageId, c.threads[i]? = some th →
    th.kind = .job start id chatId messageId →
      ∃ o request, Filed c o request (.ok ()) ∧ request.id = id ∧ o.chatId = chatId ∧
        o.messageId = messageId ∧ (∀ e ∈ th.trace, o.Serves d request e.call) ∧
        (∀ id', ⟨.getById id', .ok none⟩ ∉ th.trace) ∧
        ∀ id', ⟨.userGetById id', .ok none⟩ ∉ th.trace
  notices : ∀ (i : Nat) (th : ActorThread) about telegramId text r, c.threads[i]? = some th →
    ⟨.sendText about telegramId text, r⟩ ∈ th.trace →
      ∃ o request r', Filed c o request r' ∧ RowOf c.shared.world.table request ∧
        request.id = about ∧ o.telegramId = telegramId

/-- The work of a job that has read the request and the user of an order. -/
theorem serves_of_works {o : Order} {request entity : DownloadRequest} {user : User}
    {telegramId : Int} {s : Service} (horder : o.Asks d s request)
    (hsame : SameOrder entity request) (htelegram : telegramId = o.telegramId) {cl : Call}
    (h : Works entity user telegramId o.chatId o.messageId cl) : o.Serves d request cl := by
  cases cl with
  | claimForProcessing id => exact Eq.trans h hsame.id
  | update written => exact Eq.trans h hsame.id
  | tempDirForRequest id => exact Eq.trans h hsame.id
  | release id => exact Eq.trans h hsame.id
  | download url options =>
    refine ⟨?_, h.2.trans (hsame.spec.trans horder.spec)⟩
    rw [h.1, hsame.sourceUrl]
    exact horder.url
  | publish id chatId messageId language progress =>
    exact ⟨h.1.trans hsame.id, h.2.1, h.2.2.1⟩
  | sendFile recipient media =>
    obtain ⟨hrecipient, result, hmedia⟩ := h
    exact ⟨hrecipient.trans htelegram, result, by rw [hmedia, hsame.spec, horder.spec]⟩
  | sendText about recipient text => exact ⟨h.1.trans hsame.id, h.2.trans htelegram⟩
  | availableBytes => trivial
  | utcnow => trivial
  | downloadEnd _ => trivial
  | localize _ _ _ => trivial
  | _ => exact h.elim

/-- What a job has read is what was filed, and its user is who ordered. -/
theorem Orderly.job_read (hc : Orderly d c) {i : Nat} {th : ActorThread}
    (hi : c.threads[i]? = some th) {o : Order} {request entity : DownloadRequest}
    (hf : Filed c o request (.ok ())) (hread : ⟨.getById request.id, .ok (some entity)⟩ ∈ th.trace) :
    SameOrder entity request ∧ ∀ user telegramId,
      ⟨.userGetById entity.userId, .ok (some user)⟩ ∈ th.trace →
        user.telegramId = some telegramId → telegramId = o.telegramId := by
  obtain ⟨request', hrow', hid', hsame'⟩ := hc.attested i th hi _ hread
  have horder := (hc.row hf).sameOrder hrow' hid'.symm
  have huserId : entity.userId = request.userId := hsame'.userId.trans horder.userId.symm
  refine ⟨⟨hsame'.id.trans horder.id.symm, huserId, hsame'.sourceUrl.trans horder.sourceUrl.symm,
    hsame'.spec.trans horder.spec.symm⟩, fun user telegramId hget htelegram => ?_⟩
  have hrow : HasRow c.shared.users entity.userId user.telegramId := hc.attested i th hi _ hget
  rw [huserId, htelegram] at hrow
  exact Option.some.inj (hrow.unique hc.keyed (hc.order hf).user)

theorem Orderly.serves (hc : Orderly d c) {i : Nat} {th : ActorThread}
    (hi : c.threads[i]? = some th) {start : Time} {o : Order} {request : DownloadRequest}
    (hf : Filed c o request (.ok ()))
    (hk : th.kind = .job start request.id o.chatId o.messageId) {e : Ev} (he : e ∈ th.trace) :
    o.Serves d request e.call := by
  obtain ⟨u, v, ht⟩ := List.append_of_mem he
  have hsub : ∀ e' ∈ u, e' ∈ th.trace := by
    rw [ht]
    exact fun e' he' => List.mem_append_left _ he'
  have hduty := hc.made hi ht
  rw [hk] at hduty
  have works {cl : Call} (h : ∃ (entity : DownloadRequest) (user : User) (telegramId : Int),
      ⟨.getById request.id, .ok (some entity)⟩ ∈ u ∧
        ⟨.userGetById entity.userId, .ok (some user)⟩ ∈ u ∧ user.telegramId = some telegramId ∧
        Works entity user telegramId o.chatId o.messageId cl) : o.Serves d request cl := by
    obtain ⟨entity, user, telegramId, hread, hget, htelegram, hworks⟩ := h
    obtain ⟨hsame, hwho⟩ := hc.job_read hi hf (hsub _ hread)
    exact serves_of_works (hc.order hf) hsame (hwho user telegramId (hsub _ hget) htelegram) hworks
  obtain ⟨cl, r⟩ := e
  cases cl with
  | getById id => exact hduty
  | userGetById id =>
    obtain ⟨entity, hread, huser⟩ := hduty
    exact huser.symm.trans (hc.job_read hi hf (hsub _ hread)).1.userId
  | _ => exact works hduty

/-- Whoever is sent a text about a request has ordered it. -/
theorem Orderly.notice (hc : Orderly d c) {i : Nat} {th : ActorThread}
    (hi : c.threads[i]? = some th) {about : UUID} {telegramId : Int} {text : Str}
    {r : Except Exc Unit} (he : ⟨.sendText about telegramId text, r⟩ ∈ th.trace) :
    ∃ o request r', Filed c o request r' ∧ RowOf c.shared.world.table request ∧
      request.id = about ∧ o.telegramId = telegramId := by
  obtain ⟨u, v, ht⟩ := List.append_of_mem he
  have hduty := hc.made hi ht
  cases hk : th.kind with
  | bot _ _ _ _ _ _ =>
    rw [hk] at hduty
    exact hduty.elim
  | job start id chatId messageId =>
    obtain ⟨o, request, hf, rfl, rfl, rfl⟩ := hc.accepted _ _ _ (hc.queued i th _ _ _ _ hi hk)
    have hserves := hc.serves hi hf hk he
    exact ⟨o, request, _, hf, hc.row hf, hserves.1.symm, hserves.2.symm⟩
  | reaper =>
    rw [hk] at hduty
    obtain ⟨updatedBefore, limit, candidates, status, userId, user, hselect, hcand, hget,
      htelegram⟩ := hduty
    have hsub : ∀ e' ∈ u, e' ∈ th.trace := by
      rw [ht]
      exact fun e' he' => List.mem_append_left _ he'
    obtain ⟨request', hrow', hid', huser'⟩ := hc.attested i th hi _ (hsub _ hselect) _ hcand
    have hid'' : request'.id = about := hid'
    obtain ⟨created, written, hrow⟩ := hrow'
    obtain ⟨o, request, r', hf, hid, created', written', hstored⟩ := hc.rows _ _ hrow
    have hrowOf : RowOf c.shared.world.table request :=
      ⟨created', written', by rw [hid, hrow, hstored]⟩
    have hsame := hrowOf.sameOrder ⟨created, written, hrow⟩ hid
    refine ⟨o, request, r', hf, hrowOf, hid.trans hid'', ?_⟩
    have hhas : HasRow c.shared.users userId user.telegramId := hc.attested i th hi _ (hsub _ hget)
    have huserId : request.userId = userId := hsame.userId.trans huser'
    have hwho := (hc.order hf).user
    rw [huserId] at hwho
    rw [htelegram] at hhas
    exact Option.some.inj (hwho.unique hc.keyed hhas)

theorem Orderly.init {now : Time} {users : UserTable} (hk : Keyed users) :
    Orderly d ⟨⟨⟨now, ⟨[], List.nodup_nil⟩, []⟩, users⟩, []⟩ where
  coded := Conf.coded_of_nil rfl
  keyed := hk
  attested _ _ hi := absurd hi (Conf.not_started rfl)
  rows := by rintro id row ⟨⟩
  accepted := by rintro id chatId messageId ⟨⟩
  queued _ _ _ _ _ _ hi := absurd hi (Conf.not_started rfl)

end Orders

/-- Whatever the interleaving, a job downloads what was ordered and delivers it to
whoever has ordered it. -/
theorem service_serves_orders (d : Deployment) {now : Time} {users : UserTable} (hk : Keyed users)
    {c : Services}
    (h : Reach (serviceSystem d) (fun _ _ _ => True)
      ⟨⟨⟨now, ⟨[], List.nodup_nil⟩, []⟩, users⟩, []⟩ c) : ServesOrders d c := by
  have hc : Orderly d c := h.invariant (.init hk) fun _ _ _ hc hstep _ => hc.step hstep
  constructor
  · intro i th start id chatId messageId hi hkind
    obtain ⟨o, request, hf, rfl, rfl, rfl⟩ := hc.accepted _ _ _ (hc.queued i th _ _ _ _ hi hkind)
    refine ⟨o, request, hf, rfl, rfl, rfl, fun e he => hc.serves hi hf hkind he, ?_, ?_⟩
    · intro id' hm
      have hjob : th.kind.isJob = false := hc.attested i th hi _ hm
      rw [hkind] at hjob
      cases hjob
    · intro id' hm
      have hjob : th.kind.isJob = false := hc.attested i th hi _ hm
      rw [hkind] at hjob
      cases hjob
  · exact fun i th about telegramId text r hi he => hc.notice hi he

/-! ## A first order -/

namespace FirstOrder

open LostReply

def users : UserTable := ⟨[sender], List.pairwise_singleton _ _⟩

def opened : Service := ⟨⟨0, empty, []⟩, UserTable.empty⟩

def queued : Service := ⟨⟨0, created, [(1, 10, 20)]⟩, users⟩

def closed : Service := ⟨⟨0, delivered, [(1, 10, 20)]⟩, users⟩

/-- The user is new, and so is the request. -/
def ordered : Trace :=
  [⟨.userGetByTelegramId 77, .ok none⟩, ⟨.uuid4, .ok (2 : Nat)⟩, ⟨.utcnow, .ok (0 : Int)⟩,
    ⟨.userCreate sender, .ok ()⟩, ⟨.uuid4, .ok (1 : Nat)⟩, ⟨.utcnow, .ok (0 : Int)⟩,
    ⟨.create request, .ok ()⟩, ⟨.enqueueDownload 1 10 20, .ok (str "job")⟩]

theorem registers : Registers UserTable.empty sender users where
  newId := by rintro ⟨⟩
  inserted := ⟨0, rfl⟩

theorem ordered_answers :
    Answers (serviceSystem deployment) LostReply.bot opened ordered queued :=
  .cons (.users (.byTelegramId 77)) (.cons (.world rfl (.elsewhere _ rfl (by simp) rfl))
    (.cons (.world rfl .clock) (.cons (.users (.created registers))
      (.cons (.world rfl (.elsewhere _ rfl (by simp) rfl)) (.cons (.world rfl .clock)
        (.cons (.world rfl (.reply (fun _ => false) rfl rfl))
          (.cons (.world rfl (.accepted _)) (.nil _))))))))

theorem ordered_steps : ∃ q, Steps (LostReply.bot.code deployment) ordered q :=
  ⟨_, .call (.call (.call (.call (.call (.call (.call (.call (.done _))))))))⟩

theorem processed_answers : Answers (serviceSystem deployment) job queued processed closed :=
  .cons (.world rfl (.reply (fun _ => false) rfl rfl)) (.cons (.users (.byId 2))
    (.cons (.world rfl (.reply (fun _ => false) rfl rfl))
      (.cons (.world rfl (.elsewhere _ rfl (by simp) rfl))
        (.cons (.world rfl (.elsewhere _ rfl (by simp) rfl))
          (.cons (.world rfl (.elsewhere _ rfl (by simp) rfl))
            (.cons (.world rfl (.elsewhere _ rfl (by simp) rfl))
              (.cons (.world rfl (.elsewhere _ rfl (by simp) rfl)) (.cons (.world rfl .clock)
                (.cons (.world rfl (.reply (fun _ => false) rfl rfl))
                  (.cons (.world rfl (.elsewhere _ rfl (by simp) rfl))
                    (.cons (.world rfl (.elsewhere _ rfl (by simp) rfl)) (.nil _))))))))))))

end FirstOrder

/-- A new user's link, from the handler to the delivered file. -/
theorem service_serves_orders_first : ∃ c : Services,
    (∃ th, c.threads[1]? = some th ∧ th.kind = LostReply.job ∧ th.trace = LostReply.processed) ∧
      ServesOrders LostReply.deployment c := by
  obtain ⟨q, hordered⟩ := FirstOrder.ordered_steps
  have hstart : Step (serviceSystem LostReply.deployment) ⟨FirstOrder.opened, []⟩
      (.start LostReply.bot)
      ⟨FirstOrder.opened, [Thread.new (serviceSystem LostReply.deployment) LostReply.bot]⟩ :=
    .start trivial
  have hbot : [Thread.new (serviceSystem LostReply.deployment) LostReply.bot][0]? =
      some ⟨LostReply.bot, LostReply.bot.code LostReply.deployment, [], false⟩ := rfl
  have hstarted : Reach (serviceSystem LostReply.deployment) (fun _ _ _ => True) _ _ :=
    .tail .refl hstart trivial
  have hqueued := hstarted.runCalls (fun _ _ _ _ => trivial) hbot hordered
    FirstOrder.ordered_answers
  have hjob : Step (serviceSystem LostReply.deployment)
      ⟨FirstOrder.queued, [⟨LostReply.bot, q, FirstOrder.ordered, false⟩]⟩ (.start LostReply.job)
      ⟨FirstOrder.queued, [⟨LostReply.bot, q, FirstOrder.ordered, false⟩,
        Thread.new (serviceSystem LostReply.deployment) LostReply.job]⟩ :=
    .start ⟨rfl, List.mem_singleton.mpr rfl⟩
  have hnew : ([⟨LostReply.bot, q, FirstOrder.ordered, false⟩,
      Thread.new (serviceSystem LostReply.deployment) LostReply.job] : List ActorThread)[1]? =
      some ⟨LostReply.job, LostReply.job.code LostReply.deployment, [], false⟩ := rfl
  have hclosed := (Reach.tail hqueued hjob trivial).runCalls (fun _ _ _ _ => trivial) hnew
    LostReply.processed_steps FirstOrder.processed_answers
  have hkeyed : Keyed UserTable.empty := List.nodup_nil
  exact ⟨_, ⟨_, rfl, rfl, rfl⟩, service_serves_orders LostReply.deployment hkeyed hclosed⟩

end MediaDownloader
