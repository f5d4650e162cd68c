import MediaDownloader.Telegram.UserStores

/-!
# Get-or-create

`/start`, `RegisterUserUseCase` and `RequestDownloadUseCase` read the user and
insert one if there is none.  Nothing holds the two steps together: of two calls
that both found no row, the second insert fails on the unique `telegram_id`.

* `Registering.step`: while nobody is overtaken, a row and an insert in progress
  exclude each other;
* `registers_once`: then there is one row, and every call goes on with it;
* `overtaken_fails`: whoever is overtaken never gets its user;
* `second_insert_fails`: a download request, overtaken by a registration.
-/

namespace MediaDownloader

open Interaction

/-- A row is inserted only while no other running task of the user is between
its own read, which found none, and its insert. -/
def Undisturbed (telegramId : Int) (c : UserConf) (l : UserLabel) (_ : UserConf) : Prop :=
  ∀ i user r, l = .call i ⟨.userCreate user, r⟩ → user.telegramId = some telegramId →
    ∀ (j : Nat) (th : UserThread), c.threads[j]? = some th → j ≠ i →
      th.kind.telegramId = some telegramId → th.crashed = false → ¬ Inserting th.trace

/-- What get-or-create is for: every task that gets that far gets the one row of
its user, and goes on with its id. -/
structure OneUser (bot : Bot) (telegramId : Int) (c : UserConf) : Prop where
  completes : ∀ (i : Nat) (th : UserThread), c.threads[i]? = some th →
    th.kind.telegramId = some telegramId → th.kind.Registers bot → th.Finished →
      ∃ r, Got th.trace r
  agrees : ∀ (i : Nat) (th : UserThread) (r : Except Exc User), c.threads[i]? = some th →
    th.kind.telegramId = some telegramId → Got th.trace r →
      ∃ user row, r = .ok user ∧ c.shared.users.select telegramId = [row] ∧ user.id = row.id
  returns : ∀ (i : Nat) (th : UserThread) (language : Option Str) (r : Except Exc User),
    c.threads[i]? = some th → th.kind = .register telegramId language →
      Runs (registerUser telegramId language) th.trace r →
        ∃ user row, r = .ok user ∧ c.shared.users.select telegramId = [row] ∧ user.id = row.id
  proceeds : ∀ (i : Nat) (th : UserThread) (request : DownloadRequest) (r : Except Exc Unit),
    c.threads[i]? = some th → th.kind.telegramId = some telegramId →
      ⟨.create request, r⟩ ∈ th.trace →
        ∃ row, c.shared.users.select telegramId = [row] ∧ request.userId = row.id

section Registering

variable {bot : Bot} {telegramId : Int} {c c' : UserConf} {l : UserLabel}

/-! ## What a step does to the row -/

/-- A row is never deleted, and keeps its id. -/
theorem row_kept (h : Step (userSystem bot) c l c') {row : User}
    (hrow : c.shared.users.getByTelegramId telegramId = some row) :
    ∃ row', c'.shared.users.getByTelegramId telegramId = some row' ∧ row'.id = row.id := by
  rcases stores_cases h with he | ⟨i, th, e, -, -, hconsulted⟩
  · rw [he]
    exact ⟨row, hrow, rfl⟩
  · rcases hconsulted.row_cases telegramId with he | ⟨-, -, -, -, hnone, -⟩ | ⟨language, -, he⟩
    · rw [he]
      exact ⟨row, hrow, rfl⟩
    · rw [hrow] at hnone
      cases hnone
    · rw [he, hrow]
      exact ⟨_, rfl, rfl⟩

/-- A row that was not there before has just been inserted. -/
theorem row_made (h : Step (userSystem bot) c l c') {row : User}
    (hnone : c.shared.users.getByTelegramId telegramId = none)
    (hrow : c'.shared.users.getByTelegramId telegramId = some row) :
    ∃ i th user, l = .call i ⟨.userCreate user, .ok ()⟩ ∧
      c.Calls (userSystem bot) i th ⟨.userCreate user, .ok ()⟩ c'.shared ∧
      user.telegramId = some telegramId := by
  rcases stores_cases h with he | ⟨i, th, e, hl, hcall, hconsulted⟩
  · rw [he, hnone] at hrow
    cases hrow
  · rcases hconsulted.row_cases telegramId with he | ⟨user, -, rfl, hu, -, -⟩ | ⟨language, -, he⟩
    · rw [he, hnone] at hrow
      cases hrow
    · exact ⟨i, th, user, hl, hcall, hu⟩
    · rw [he, hnone] at hrow
      cases hrow

/-! ## The invariant -/

/-- A row and an insert in progress exclude each other, and what get-or-create
gave is the row. -/
structure Registering (bot : Bot) (telegramId : Int) (c : UserConf) : Prop
    extends UserTasks bot c where
  idle : ∀ (row : User), c.shared.users.getByTelegramId telegramId = some row →
    ∀ (i : Nat) (th : UserThread), c.threads[i]? = some th →
      th.kind.telegramId = some telegramId → th.crashed = false → ¬ Inserting th.trace
  agrees : ∀ (i : Nat) (th : UserThread) (r : Except Exc User), c.threads[i]? = some th →
    th.kind.telegramId = some telegramId → Got th.trace r →
      ∃ user row, r = .ok user ∧ c.shared.users.getByTelegramId telegramId = some row ∧
        user.id = row.id

theorem not_inserting_nil : ¬ Inserting [] := by
  rintro ⟨⟨_, hm⟩, -⟩
  cases hm

/-- A task that goes on inserting was inserting, or has just found no row. -/
theorem Inserting.of_snoc {t : Trace} {e : Ev} (h : Inserting (t ++ [e])) :
    Inserting t ∨ ∃ telegramId, e = ⟨.userGetByTelegramId telegramId, .ok none⟩ := by
  obtain ⟨⟨telegramId, hm⟩, hno⟩ := h
  rcases List.mem_append.mp hm with hm | hm
  · exact .inl ⟨⟨telegramId, hm⟩, fun e he => hno e (List.mem_append_left _ he)⟩
  · exact .inr ⟨telegramId, (List.mem_singleton.mp hm).symm⟩

/-- A task that inserts next is inserting. -/
theorem UserTasks.inserting (hc : UserTasks bot c) {i : Nat} {th : UserThread} {user : User}
    {r : Except Exc Unit} {w : UserStores}
    (hcall : c.Calls (userSystem bot) i th ⟨.userCreate user, r⟩ w) : Inserting th.trace := by
  obtain ⟨telegramId, id, now, -, -, ht⟩ := hc.allows hcall
  rw [ht]
  refine ⟨⟨telegramId, List.mem_cons_self⟩, ?_⟩
  intro e he user' hcreate
  simp only [List.mem_cons, List.not_mem_nil, or_false] at he
  rcases he with rfl | rfl | rfl <;> cases hcreate

/-- A task that is inserting has not got its user yet. -/
theorem UserTasks.gets_nothing (hc : UserTasks bot c) {i : Nat} {th : UserThread}
    (hi : c.threads[i]? = some th) (hins : Inserting th.trace) {e : Ev} (he : e ∈ th.trace)
    {r : Except Exc User} : ¬ Gets e r := by
  obtain ⟨⟨telegramId, hm⟩, hno⟩ := hins
  -- every read is the first call, and the first call found nothing
  have hfirst (id : Int) (r : Except Exc (Option User))
      (hread : ⟨.userGetByTelegramId id, r⟩ ∈ th.trace) :
      th.trace.head? = some ⟨.userGetByTelegramId id, r⟩ := by
    obtain ⟨u, v, ht⟩ := List.append_of_mem hread
    have hnil : u = [] := (hc.made hi ht).2
    rw [ht, hnil]
    rfl
  have hhead := hfirst telegramId _ hm
  intro hgets
  cases hgets with
  | found =>
    rw [hfirst _ _ he] at hhead
    cases hhead
  | unread =>
    rw [hfirst _ _ he] at hhead
    cases hhead
  | created => exact hno _ he _ rfl
  | clashed => exact hno _ he _ rfl

/-- The user a task inserts is its own. -/
theorem UserTasks.creates (hc : UserTasks bot c) {i : Nat} {th : UserThread} {user : User}
    {r : Except Exc Unit} {w : UserStores}
    (hcall : c.Calls (userSystem bot) i th ⟨.userCreate user, r⟩ w)
    (hk : th.kind.telegramId = some telegramId) : user.telegramId = some telegramId := by
  obtain ⟨telegramId', id, now, hk', hu, -⟩ := hc.allows hcall
  rw [hk] at hk'
  rw [hu, hk']
  rfl

theorem Registering.init (h : c.threads = []) : Registering bot telegramId c where
  toUserTasks := .init h
  idle _ _ _ _ hi := absurd hi (Conf.not_started h)
  agrees _ _ _ hi := absurd hi (Conf.not_started h)

theorem Registering.idle_step (hc : Registering bot telegramId c)
    (h : Step (userSystem bot) c l c') (hA : Undisturbed telegramId c l c') {row : User}
    (hrow : c'.shared.users.getByTelegramId telegramId = some row) {j : Nat} {th' : UserThread}
    (hj : c'.threads[j]? = some th') (hk : th'.kind.telegramId = some telegramId)
    (hrun : th'.crashed = false) : ¬ Inserting th'.trace := by
  intro hins
  rcases h.thread_cases hj with ⟨th, hi, hkind, ht, -, hcr, hother⟩ | ⟨k, -, -, rfl⟩ |
    ⟨th, e, f, hl, hcall, -, rfl⟩
  · rw [hkind] at hk
    rw [ht] at hins
    cases hget : c.shared.users.getByTelegramId telegramId with
    | some old => exact hc.idle old hget j th hi hk (hcr hrun) hins
    | none =>
      -- the row was inserted in this step, by another task
      obtain ⟨i, maker, user, hl, -, hu⟩ := row_made h hget hrow
      refine hA i user _ hl hu j th hi ?_ hk (hcr hrun) hins
      rintro rfl
      exact hother _ hl
  · exact not_inserting_nil hins
  · obtain ⟨cl, r⟩ := e
    change th.kind.telegramId = some telegramId at hk
    have hconsulted : Consulted c.shared th.kind cl r c'.shared := hcall.answer
    rcases Inserting.of_snoc hins with hold | ⟨telegramId', he⟩
    · cases hget : c.shared.users.getByTelegramId telegramId with
      | some old => exact hc.idle old hget j th hcall.thread hk hcall.running hold
      | none =>
        obtain ⟨i, maker, user, hl', -, -⟩ := row_made h hget hrow
        rw [hl] at hl'
        cases hl'
        exact hins.2 _ (List.mem_append_right _ (List.mem_singleton.mpr rfl)) user rfl
    · cases he
      have hasked : th.kind.telegramId = some telegramId' := (hc.allows hcall).1
      rw [hk] at hasked
      cases hasked
      obtain ⟨hnone, hsame⟩ := hconsulted.get_eq
      rw [hsame] at hrow
      rw [hrow] at hnone
      cases hnone

theorem Registering.agrees_step (hc : Registering bot telegramId c)
    (h : Step (userSystem bot) c l c') {j : Nat} {th' : UserThread} {r : Except Exc User}
    (hj : c'.threads[j]? = some th') (hk : th'.kind.telegramId = some telegramId)
    (hgot : Got th'.trace r) :
    ∃ user row, r = .ok user ∧ c'.shared.users.getByTelegramId telegramId = some row ∧
      user.id = row.id := by
  obtain ⟨e, he, hgets⟩ := hgot
  obtain ⟨th, hkind, ⟨hi, hold⟩ | ⟨-, hcall⟩⟩ := h.event_cases hj he
  · rw [hkind] at hk
    obtain ⟨user, row, hr, hrow, hid⟩ := hc.agrees j th r hi hk ⟨e, hold, hgets⟩
    obtain ⟨row', hrow', hid'⟩ := row_kept h hrow
    exact ⟨user, row', hr, hrow', hid.trans hid'.symm⟩
  · rw [hkind] at hk
    have hconsulted : Consulted c.shared th.kind e.call e.resp c'.shared := hcall.answer
    cases hgets with
    | @found asked user =>
      have hasked : th.kind.telegramId = some asked := (hc.allows hcall).1
      rw [hk] at hasked
      cases hasked
      obtain ⟨hfound, hsame⟩ := hconsulted.get_eq
      rw [hsame]
      exact ⟨user, user, rfl, (Except.ok.inj hfound).symm, rfl⟩
    | unread =>
      obtain ⟨hfound, -⟩ := hconsulted.get_eq
      cases hfound
    | @created user =>
      have hu := hc.creates hcall hk
      rcases hconsulted.create_cases hu with ⟨-, -, createdAt, hrow⟩ | ⟨row, -, hr⟩
      · exact ⟨user, _, rfl, hrow, rfl⟩
      · cases hr
    | @clashed user e =>
      -- the clash would be with a row that came while this task was inserting
      have hu := hc.creates hcall hk
      rcases hconsulted.create_cases hu with ⟨-, hr, -⟩ | ⟨row, hrow, -⟩
      · cases hr
      · exact absurd (hc.inserting hcall) (hc.idle row hrow j th hcall.thread hk hcall.running)

theorem Registering.step (hc : Registering bot telegramId c) (h : Step (userSystem bot) c l c')
    (hA : Undisturbed telegramId c l c') : Registering bot telegramId c' where
  toUserTasks := hc.toUserTasks.step h
  idle _ hrow _ _ hj hk hrun := hc.idle_step h hA hrow hj hk hrun
  agrees _ _ _ hj hk hgot := hc.agrees_step h hj hk hgot

/-- What the invariant says once a task has got its user. -/
theorem Registering.one (hc : Registering bot telegramId c) {i : Nat} {th : UserThread}
    {r : Except Exc User} (hi : c.threads[i]? = some th)
    (hk : th.kind.telegramId = some telegramId) (hgot : Got th.trace r) :
    ∃ user row, r = .ok user ∧ c.shared.users.select telegramId = [row] ∧ user.id = row.id := by
  obtain ⟨user, row, hr, hrow, hid⟩ := hc.agrees i th r hi hk hgot
  exact ⟨user, row, hr, UserTable.select_eq_singleton hrow, hid⟩

end Registering

/-- As long as no insert overtakes another task's, one row is all there is, no
get-or-create fails, and every task goes on with the id of that row. -/
theorem registers_once (bot : Bot) (telegramId : Int) {c₀ c : UserConf} (h0 : c₀.threads = [])
    (h : Reach (userSystem bot) (Undisturbed telegramId) c₀ c) : OneUser bot telegramId c := by
  have hc : Registering bot telegramId c :=
    h.invariant (.init h0) fun _ _ _ hc hstep hA => hc.step hstep hA
  constructor
  · intro i th hi hk hreg hfin
    exact (hc.done hi hfin).1 hreg
  · intro i th r hi hk hgot
    exact hc.one hi hk hgot
  · intro i th language r hi hk hruns
    have hid : th.kind.telegramId = some telegramId := by
      rw [hk]
      rfl
    have hlang : th.kind.language = language := by
      rw [hk]
      rfl
    have hgot := historyMonitor_post (wp_registerUser hid hlang) hruns (hc.answered i th hi)
    exact hc.one hi hid hgot
  · intro i th request r hi hk hm
    obtain ⟨u, v, ht⟩ := List.append_of_mem hm
    obtain ⟨user, hgot, hid⟩ := hc.made hi ht
    have hwhole : Got th.trace (.ok user) := by
      rw [ht]
      exact hgot.mono (List.prefix_append _ _)
    obtain ⟨user', row, hr, hone, hrow⟩ := hc.one hi hk hwhole
    cases hr
    exact ⟨row, hone, hid.trans hrow⟩

/-! ## A task that was overtaken -/

/-- Task `j` was inserting when the row was there already. -/
structure Overtaken (bot : Bot) (telegramId : Int) (j : Nat) (c : UserConf) : Prop
    extends UserTasks bot c where
  row : ∃ row, c.shared.users.getByTelegramId telegramId = some row
  thread : ∃ th : UserThread, c.threads[j]? = some th ∧ th.kind.telegramId = some telegramId ∧
    (∃ id, ⟨.userGetByTelegramId id, .ok none⟩ ∈ th.trace) ∧
    ∀ r, Got th.trace r → r = .error .integrityError

theorem Overtaken.step {bot : Bot} {telegramId : Int} {c c' : UserConf} {l : UserLabel} {j : Nat}
    (hc : Overtaken bot telegramId j c) (h : Step (userSystem bot) c l c') :
    Overtaken bot telegramId j c' where
  toUserTasks := hc.toUserTasks.step h
  row := by
    obtain ⟨row, hrow⟩ := hc.row
    obtain ⟨row', hrow', -⟩ := row_kept h hrow
    exact ⟨row', hrow'⟩
  thread := by
    obtain ⟨th, hj, hk, ⟨id, hread⟩, hgot⟩ := hc.thread
    obtain ⟨row, hrow⟩ := hc.row
    obtain ⟨th', hj', hkind, ht⟩ := h.extends j th hj
    refine ⟨th', hj', by rw [hkind, hk], ⟨id, ht.subset hread⟩, ?_⟩
    rintro r ⟨e, he, hgets⟩
    obtain ⟨caller, -, ⟨hold, hin⟩ | ⟨-, hcall⟩⟩ := h.event_cases hj' he
    · rw [hj] at hold
      cases hold
      exact hgot r ⟨e, hin, hgets⟩
    · obtain rfl := hcall.thread_eq hj
      have hconsulted : Consulted c.shared th.kind e.call e.resp c'.shared := hcall.answer
      have hmore : th.trace ≠ [] := List.ne_nil_of_mem hread
      cases hgets with
      | found => exact absurd (hc.allows hcall).2 hmore
      | unread => exact absurd (hc.allows hcall).2 hmore
      | created =>
        rcases hconsulted.create_cases (hc.creates hcall hk) with ⟨hnone, -⟩ | ⟨_, -, hr⟩
        · rw [hrow] at hnone
          cases hnone
        · cases hr
      | clashed =>
        rcases hconsulted.create_cases (hc.creates hcall hk) with ⟨hnone, -⟩ | ⟨_, -, hr⟩
        · rw [hrow] at hnone
          cases hnone
        · cases hr
          rfl

/-- An insert that overtakes another task's dooms that task: whatever happens
then, its get-or-create ends in an `IntegrityError` if it ends at all. -/
theorem overtaken_fails (bot : Bot) (telegramId : Int) {c₀ c c' c'' : UserConf} {l : UserLabel}
    (h0 : c₀.threads = []) (h : Reach (userSystem bot) (fun _ _ _ => True) c₀ c)
    (hs : Step (userSystem bot) c l c') (hA : ¬ Undisturbed telegramId c l c')
    (hlater : Reach (userSystem bot) (fun _ _ _ => True) c' c'') :
    ∃ (j : Nat) (th : UserThread), c.threads[j]? = some th ∧ Inserting th.trace ∧
      ∀ th', c''.threads[j]? = some th' → ∀ r, Got th'.trace r → r = .error .integrityError := by
  have hc : UserTasks bot c := h.invariant (.init h0) fun _ _ _ hc hstep _ => hc.step hstep
  unfold Undisturbed at hA
  push Not at hA
  obtain ⟨i, user, r, rfl, hu, j, th, hj, hne, hk, -, hins⟩ := hA
  refine ⟨j, th, hj, hins, ?_⟩
  obtain ⟨maker, hcall⟩ := hs.calls
  have hconsulted : Consulted c.shared maker.kind (.userCreate user) r c'.shared := hcall.answer
  have hrow : ∃ row, c'.shared.users.getByTelegramId telegramId = some row := by
    rcases hconsulted.create_cases hu with ⟨-, -, createdAt, hrow⟩ | ⟨row, hrow, -⟩
    · exact ⟨_, hrow⟩
    · obtain ⟨row', hrow', -⟩ := row_kept hs hrow
      exact ⟨row', hrow'⟩
  have hfirst : Overtaken bot telegramId j c' := by
    refine ⟨hc.step hs, hrow, ?_⟩
    obtain ⟨th', hj', hkind, -⟩ := hs.extends j th hj
    rcases hs.thread_cases hj' with ⟨old, hold, -, ht, -⟩ | ⟨_, -, hlen, -⟩ | ⟨_, _, _, hl, -⟩
    · rw [hj] at hold
      cases hold
      refine ⟨th', hj', by rw [hkind, hk], by rw [ht]; exact hins.1, ?_⟩
      rintro r' ⟨e, he, hgets⟩
      rw [ht] at he
      exact absurd hgets (hc.gets_nothing hj hins he)
    · have hlt : j < c.threads.length := (List.getElem?_eq_some_iff.mp hj).1
      omega
    · cases hl
      exact absurd rfl hne
  intro th' hj' r' hgot
  have hlast : Overtaken bot telegramId j c'' :=
    hlater.invariant hfirst fun _ _ _ hc hstep _ => hc.step hstep
  obtain ⟨last, hi, -, -, hall⟩ := hlast.thread
  rw [hj'] at hi
  cases hi
  exact hall r' hgot

/-! ## A new user sends a link and `/start` -/

namespace FirstContact

def bot : Bot where
  unicode := ⟨id, id⟩
  core := fun key _ _ => .ok key
  settings := ⟨[str "a.com"], [], 10, 10, 50, [], 3600⟩
  policy := ⟨[]⟩
  command := fun _ _ => false

def link : Str := str "https://a.com/v"

def download : UserTask := .request 77 link .audio (str "yt") 5 6

def greeting : UserTask := .register 77 (some (str "en"))

def greeted : User := User.createFromTelegram 2 0 77 (some (str "en"))

/-- The user as a link makes it: `language` is not known then. -/
def linked : User := User.createFromTelegram 2 0 77 none

def vacant : UserStores := ⟨.empty, fun _ => none⟩

def occupied : UserStores := ⟨⟨[greeted], List.pairwise_singleton _ _⟩, fun _ => none⟩

def settled : UserStores := ⟨⟨[linked], List.pairwise_singleton _ _⟩, fun _ => none⟩

/-- The first contact of user 77. -/
def asked : Trace :=
  [⟨.userGetByTelegramId 77, .ok none⟩, ⟨.uuid4, .ok (2 : Nat)⟩, ⟨.utcnow, .ok (0 : Int)⟩]

/-- What is left of a download request that has got its user. -/
def filed : Trace :=
  [⟨.uuid4, .ok (1 : Nat)⟩, ⟨.utcnow, .ok (0 : Int)⟩,
    ⟨.create (DownloadRequest.create 1 0 2 link .audio), .ok ()⟩]

/-- A download request that has found no row, and inserts one. -/
def overtaken : Trace :=
  [⟨.uuid4, .ok (3 : Nat)⟩, ⟨.utcnow, .ok (0 : Int)⟩,
    ⟨.userCreate (User.createFromTelegram 3 0 77 none), .error .integrityError⟩]

theorem asked_answers (task : UserTask) : Answers (userSystem bot) task vacant asked vacant :=
  .cons (.got 77) (.cons (.uuid 2) (.cons (.clock 0) (.nil _)))

theorem greeted_answers :
    Consulted vacant greeting (.userCreate greeted) (.ok ()) occupied :=
  @Consulted.created _ _ _ 0 _ rfl

theorem linked_answers : Consulted vacant download (.userCreate linked) (.ok ()) settled :=
  @Consulted.created _ _ _ 0 _ rfl

theorem filed_answers : Answers (userSystem bot) download settled filed settled :=
  .cons (.uuid 1) (.cons (.clock 0) (.cons (.elsewhere _ rfl) (.nil _)))

theorem overtaken_answers :
    Answers (userSystem bot) download occupied overtaken occupied :=
  .cons (.uuid 3) (.cons (.clock 0) (.cons (@Consulted.clashed _ _ _ 0 _ rfl) (.nil _)))

theorem greeting_steps : ∃ f, Steps ((userSystem bot).code greeting) asked
    (.call (.userCreate greeted) f) ∧ f (.ok ()) = .ret () :=
  ⟨_, .call (.call (.call (.done _))), rfl⟩

theorem linking_steps : ∃ f q, Steps ((userSystem bot).code download) asked
    (.call (.userCreate linked) f) ∧ Steps (f (.ok ())) filed q :=
  ⟨_, _, .call (.call (.call (.done _))), .call (.call (.call (.done _)))⟩

theorem finding_steps : Steps ((userSystem bot).code greeting)
    [⟨.userGetByTelegramId 77, .ok (some linked)⟩] (.ret ()) :=
  .call (.done _)

theorem overtaken_steps : ∃ p, Steps ((userSystem bot).code download)
    [⟨.userGetByTelegramId 77, .ok none⟩] p ∧ Steps p overtaken (.ret ()) :=
  ⟨_, .call (.done _), .call (.call (.call (.done _)))⟩

theorem undisturbed_of_not_create {c c' : UserConf} {i : Nat} {e : Ev}
    (h : ∀ user, e.call ≠ .userCreate user) : Undisturbed 77 c (.call i e) c' := by
  rintro _ user r ⟨rfl⟩
  exact absurd rfl (h user)

/-- Both are under way when `download` inserts the row; `greeting` reads it while
`download` has its request yet to file. -/
theorem greeted_reach : ∃ q, Reach (userSystem bot) (Undisturbed 77) ⟨vacant, []⟩
    ⟨settled, [⟨download, q, asked ++ ⟨.userCreate linked, .ok ()⟩ :: filed, false⟩,
      ⟨greeting, .ret (), [⟨.userGetByTelegramId 77, .ok (some linked)⟩], false⟩]⟩ := by
  obtain ⟨f, q, hsteps, hrest⟩ := linking_steps
  have hdownload : Step (userSystem bot) ⟨vacant, []⟩ (.start download)
      ⟨vacant, [Thread.new (userSystem bot) download]⟩ := .start (by rintro _ _ _ _ ⟨⟩)
  have hgreeting : Step (userSystem bot) ⟨vacant, [Thread.new (userSystem bot) download]⟩
      (.start greeting)
      ⟨vacant, [Thread.new (userSystem bot) download, Thread.new (userSystem bot) greeting]⟩ :=
    .start (by rintro _ _ _ _ ⟨⟩)
  have hbegun : Reach (userSystem bot) (Undisturbed 77) ⟨vacant, []⟩ _ :=
    .tail (.tail .refl hdownload (by rintro _ _ _ ⟨⟩)) hgreeting (by rintro _ _ _ ⟨⟩)
  have hasked := hbegun.runCalls (i := 0) (fun c e c' he => undisturbed_of_not_create (by
      simp only [asked, List.mem_cons, List.not_mem_nil, or_false] at he
      rcases he with rfl | rfl | rfl <;> rintro _ ⟨⟩))
    rfl hsteps (asked_answers download)
  have hcreate := @Step.call _ _ _ _ _ (userSystem bot)
    ⟨vacant, [⟨download, .call (.userCreate linked) f, asked, false⟩,
      Thread.new (userSystem bot) greeting]⟩ 0 _
    (.userCreate linked) f (.ok ()) settled rfl rfl rfl linked_answers
  -- `greeting` has not read yet, so it is not inserting
  have hinserted := Reach.tail hasked hcreate (by
    rintro i user r ⟨rfl⟩ - j th hj hne
    obtain _ | _ | j := j
    · exact absurd rfl hne
    · cases hj
      rintro - - hins
      exact not_inserting_nil hins
    · cases hj)
  have hfound := hinserted.runCalls (i := 1) (fun c e c' he => undisturbed_of_not_create (by
      obtain rfl := List.mem_singleton.mp he
      rintro _ ⟨⟩))
    rfl finding_steps (.cons (.got 77) (.nil _))
  have hfiled := hfound.runCalls (i := 0) (fun c e c' he => undisturbed_of_not_create (by
      simp only [filed, List.mem_cons, List.not_mem_nil, or_false] at he
      rcases he with rfl | rfl | rfl <;> rintro _ ⟨⟩))
    rfl hrest filed_answers
  exact ⟨q, hfiled⟩

/-- Both have found no row, and `greeting` is first to insert one. -/
theorem overtaken_reach : Reach (userSystem bot) (fun _ _ _ => True) ⟨vacant, []⟩
    ⟨occupied, [⟨download, .ret (), ⟨.userGetByTelegramId 77, .ok none⟩ :: overtaken, false⟩,
      ⟨greeting, .ret (), asked ++ [⟨.userCreate greeted, .ok ()⟩], false⟩]⟩ := by
  obtain ⟨f, hsteps, hf⟩ := greeting_steps
  obtain ⟨p, hfirst, hrest⟩ := overtaken_steps
  have hdownload : Step (userSystem bot) ⟨vacant, []⟩ (.start download)
      ⟨vacant, [Thread.new (userSystem bot) download]⟩ := .start (by rintro _ _ _ _ ⟨⟩)
  have hgreeting : Step (userSystem bot) ⟨vacant, [Thread.new (userSystem bot) download]⟩
      (.start greeting)
      ⟨vacant, [Thread.new (userSystem bot) download, Thread.new (userSystem bot) greeting]⟩ :=
    .start (by rintro _ _ _ _ ⟨⟩)
  have hbegun : Reach (userSystem bot) (fun _ _ _ => True) ⟨vacant, []⟩ _ :=
    .tail (.tail .refl hdownload trivial) hgreeting trivial
  have hread := hbegun.runCalls (i := 0) (fun _ _ _ _ => trivial) rfl hfirst
    (.cons (.got 77) (.nil _))
  have hasked := hread.runCalls (i := 1) (fun _ _ _ _ => trivial) rfl hsteps
    (asked_answers greeting)
  have hcreate := @Step.call _ _ _ _ _ (userSystem bot)
    ⟨vacant, [⟨download, p, [⟨.userGetByTelegramId 77, .ok none⟩], false⟩,
      ⟨greeting, .call (.userCreate greeted) f, asked, false⟩]⟩ 1 _
    (.userCreate greeted) f (.ok ()) occupied rfl rfl rfl greeted_answers
  rw [hf] at hcreate
  exact (Reach.tail hasked hcreate trivial).runCalls (i := 0) (fun _ _ _ _ => trivial) rfl hrest
    overtaken_answers

end FirstContact

/-- A link and a `/start` whose calls interleave: one row, and both have it. -/
theorem registers_once_greeted : ∃ c : UserConf,
    Reach (userSystem FirstContact.bot) (Undisturbed 77) ⟨FirstContact.vacant, []⟩ c ∧
      c.threads.length = 2 ∧ c.shared.users.select 77 = [FirstContact.linked] ∧
      OneUser FirstContact.bot 77 c := by
  obtain ⟨q, hreach⟩ := FirstContact.greeted_reach
  exact ⟨_, hreach, rfl, rfl, registers_once FirstContact.bot 77 rfl hreach⟩

/-- Both calls find no row: the download request ends in an `IntegrityError`. -/
theorem second_insert_fails : ∃ (c : UserConf) (th : UserThread),
    Reach (userSystem FirstContact.bot) (fun _ _ _ => True) ⟨FirstContact.vacant, []⟩ c ∧
      c.threads[0]? = some th ∧ th.kind = FirstContact.download ∧ th.Finished ∧
      Got th.trace (.error .integrityError) ∧ ¬ OneUser FirstContact.bot 77 c := by
  have hgot : Got (⟨.userGetByTelegramId 77, .ok none⟩ :: FirstContact.overtaken)
      (.error .integrityError) :=
    ⟨⟨.userCreate (User.createFromTelegram 3 0 77 none), .error .integrityError⟩,
      by simp [FirstContact.overtaken], .clashed⟩
  refine ⟨_, _, FirstContact.overtaken_reach, rfl, rfl, rfl, hgot, fun hone => ?_⟩
  obtain ⟨user, row, hr, -⟩ := hone.agrees 0 _ _ rfl rfl hgot
  cases hr

end MediaDownloader
