import MediaDownloader.Application.Ports

/-!
# ReapStaleRequestsUseCase

One tick: `fail_stale` on everything older than the cutoff, then one message
for every row it returned.

* `joinReaped_ok`: the join never raises on rows that were active;
* `wp_execute`: when a tick makes each of its calls, and whom it has told when
  it returns.
-/

namespace MediaDownloader

open Interaction

/-- `JOB_TIMEOUT_SECONDS`, the grace setting and the batch size. -/
structure ReapStaleRequests where
  jobTimeout : Time
  grace : Time
  batchSize : Nat
  jobTimeout_nonneg : 0 ≤ jobTimeout
  grace_pos : 0 < grace

namespace ReapStaleRequests

/-- `ctx["stale_request_after"]`. -/
def staleAfter (cfg : ReapStaleRequests) : Time := cfg.jobTimeout + cfg.grace

/-- The candidates among `reaped`, as `fail_stale` returns them. -/
def joinReaped (reaped : List UUID) : List Candidate → Except Exc (List StaleRequest)
  | [] => .ok []
  | row :: candidates =>
    if row.id ∈ reaped then
      match DownloadStatus.parse row.status, joinReaped reaped candidates with
      | some previous, .ok stale => .ok (⟨row.id, row.userId, previous⟩ :: stale)
      | none, _ => .error Exc.valueError
      | _, .error e => .error e
    else joinReaped reaped candidates

def failStale (updatedBefore : Time) (limit : Nat) : Job (List StaleRequest) := do
  let candidates ← port (.selectStale updatedBefore limit)
  if candidates.isEmpty then pure []
  else do
    let reaped ← port (.updateStale candidates updatedBefore)
    Act.lift (joinReaped reaped candidates)

/-- The `try` block of `_notify`. -/
def tellUser (stale : StaleRequest) : Job Unit := do
  match ← port (.userGetById stale.userId) with
  | none => pure ()
  | some user =>
    match user.telegramId with
    | none => pure ()
    | some telegramId => do
      let text ← port (.localize staleRequestKey user.language [])
      port (.sendText stale.requestId telegramId text)

/-- `_notify`: one unreachable user must not stop the batch. -/
def notify (stale : StaleRequest) : Job Unit := do
  match ← Act.attempt (tellUser stale) with
  | .ok _ => pure ()
  | .error e => if e.isException then pure () else Act.raise e

def execute (cfg : ReapStaleRequests) : Job (List StaleRequest) := do
  let now ← port .utcnow
  let reaped ← failStale (now - cfg.staleAfter) cfg.batchSize
  Act.each notify reaped
  pure reaped

theorem joinReaped_cases {reaped : List UUID} {candidates : List Candidate}
    {stale : List StaleRequest} (h : joinReaped reaped candidates = .ok stale) :
    (∀ s ∈ stale, ∃ row ∈ candidates, row.id = s.requestId ∧ row.id ∈ reaped ∧
        row.userId = s.userId ∧ row.status = s.previousStatus.value) ∧
      (stale.map StaleRequest.requestId).Sublist (candidates.map Candidate.id) := by
  induction candidates generalizing stale with
  | nil =>
    cases h
    exact ⟨fun s hs => (by cases hs), List.Sublist.slnil⟩
  | cons row candidates ih =>
    simp only [joinReaped] at h
    split at h
    · next hmem =>
      split at h
      · next previous stale' hp hj =>
        cases h
        obtain ⟨h1, h2⟩ := ih hj
        refine ⟨fun s hs => ?_, h2.cons_cons _⟩
        rcases List.mem_cons.mp hs with rfl | hs
        · exact ⟨row, List.mem_cons_self, rfl, hmem, rfl, DownloadStatus.value_of_parse hp⟩
        · obtain ⟨row', hr, h⟩ := h1 s hs
          exact ⟨row', List.mem_cons_of_mem _ hr, h⟩
      · cases h
      · cases h
    · obtain ⟨h1, h2⟩ := ih h
      refine ⟨fun s hs => ?_, h2.cons _⟩
      obtain ⟨row', hr, h⟩ := h1 s hs
      exact ⟨row', List.mem_cons_of_mem _ hr, h⟩

/-- Every candidate the UPDATE hit is returned. -/
theorem joinReaped_complete {reaped : List UUID} {candidates : List Candidate}
    {stale : List StaleRequest} (h : joinReaped reaped candidates = .ok stale) {row : Candidate}
    (hrow : row ∈ candidates) (hm : row.id ∈ reaped) :
    row.id ∈ stale.map StaleRequest.requestId := by
  induction candidates generalizing stale with
  | nil => cases hrow
  | cons row' candidates ih =>
    simp only [joinReaped] at h
    split at h
    · split at h
      · next previous stale' hp hj =>
        cases h
        rcases List.mem_cons.mp hrow with rfl | hrow
        · exact List.mem_cons_self
        · exact List.mem_cons_of_mem _ (ih hj hrow)
      · cases h
      · cases h
    · next hnot =>
      rcases List.mem_cons.mp hrow with rfl | hrow
      · exact absurd hm hnot
      · exact ih h hrow

theorem joinReaped_ok {candidates : List Candidate} (reaped : List UUID)
    (h : ∀ row ∈ candidates, ∃ status, DownloadStatus.parse row.status = some status) :
    ∃ stale, joinReaped reaped candidates = .ok stale := by
  induction candidates with
  | nil => exact ⟨[], rfl⟩
  | cons row candidates ih =>
    obtain ⟨status, hs⟩ := h row List.mem_cons_self
    obtain ⟨stale, hj⟩ := ih fun row' hr => h row' (List.mem_cons_of_mem _ hr)
    unfold joinReaped
    by_cases hm : row.id ∈ reaped
    · rw [if_pos hm, hs, hj]
      exact ⟨_, rfl⟩
    · rw [if_neg hm]
      exact ⟨stale, hj⟩

/-! ## Reading a tick -/

/-- What the tick's `fail_stale` returned; nothing while it has not. -/
def returned : Trace → List StaleRequest
  | [] => []
  | ⟨.selectStale _ _, .ok candidates⟩ :: ⟨.updateStale _ _, .ok reaped⟩ :: _ =>
    match joinReaped reaped candidates with
    | .ok stale => stale
    | .error _ => []
  | _ :: t => returned t

def isTextAbout (id : UUID) (e : Ev) : Bool :=
  match e.call with
  | .sendText about _ _ => about == id
  | _ => false

/-- Answered by what `except Exception` does not catch. -/
def isCancelled (e : Ev) : Bool :=
  match e.resp with
  | .ok _ => false
  | .error exc => !exc.isException

/-- The lookup of the user of `stale` and, if it found a chat and a text, the
message: each call followed at once by the next. -/
def Attempted (stale : StaleRequest) (t : Trace) : Prop :=
  ∃ u v r, t = u ++ ⟨.userGetById stale.userId, r⟩ :: v ∧
    ∀ user telegramId, r = .ok (some user) → user.telegramId = some telegramId →
      ∃ r' v', v = ⟨.localize staleRequestKey user.language [], r'⟩ :: v' ∧
        ∀ text, r' = .ok text →
          ∃ r'' v'', v' = ⟨.sendText stale.requestId telegramId text, r''⟩ :: v''

/-- What must have happened before a call of the tick. -/
def Allowed (cfg : ReapStaleRequests) (u : Trace) : Call → Prop
  | .utcnow => u = []
  | .selectStale updatedBefore limit => ∃ now : Time, u = [⟨.utcnow, .ok now⟩] ∧
      updatedBefore = now - cfg.staleAfter ∧ limit = cfg.batchSize
  | .updateStale candidates updatedBefore => ∃ (now : Time) (limit : Nat),
      u = [⟨.utcnow, .ok now⟩, ⟨.selectStale updatedBefore limit, .ok candidates⟩] ∧
        updatedBefore = now - cfg.staleAfter
  | .userGetById userId => ∃ stale ∈ returned u, stale.userId = userId
  | .localize key _ args => key = staleRequestKey ∧ args = []
  | .sendText about _ _ =>
    (∃ stale ∈ returned u, stale.requestId = about) ∧ u.any (isTextAbout about) = false
  | _ => False

/-- What the SELECT may answer. -/
def Selectable : Ev → Prop
  | ⟨.selectStale _ _, .ok candidates⟩ => (candidates.map Candidate.id).Nodup ∧
      ∀ row ∈ candidates, ∃ status, DownloadStatus.parse row.status = some status
  | _ => True

/-- A tick that has reached its loop: the rows told so far are `done`. -/
structure Telling (stale done : List StaleRequest) (g : Trace) : Prop where
  hreturned : returned g = stale
  committed : ∃ now updatedBefore limit candidates reaped v,
    g = ⟨.utcnow, now⟩ :: ⟨.selectStale updatedBefore limit, .ok candidates⟩ ::
      ⟨.updateStale candidates updatedBefore, .ok reaped⟩ :: v
  attempted : ∀ s ∈ done, Attempted s g
  untold : ∀ id, id ∉ done.map StaleRequest.requestId → g.any (isTextAbout id) = false

theorem Attempted.append {stale : StaleRequest} {t : Trace} (h : Attempted stale t) (w : Trace) :
    Attempted stale (t ++ w) := by
  obtain ⟨u, v, r, rfl, h⟩ := h
  refine ⟨u, v ++ w, r, by simp, fun user telegramId hr hu => ?_⟩
  obtain ⟨r', v', rfl, h'⟩ := h user telegramId hr hu
  refine ⟨r', v' ++ w, rfl, fun text ht => ?_⟩
  obtain ⟨r'', v'', rfl⟩ := h' text ht
  exact ⟨r'', v'' ++ w, rfl⟩

/-- More calls of the loop change nothing that was returned. -/
theorem returned_append {stale done : List StaleRequest} {g : Trace} (h : Telling stale done g)
    (w : Trace) : returned (g ++ w) = stale := by
  obtain ⟨now, updatedBefore, limit, candidates, reaped, v, rfl⟩ := h.committed
  exact h.hreturned

/-- One more call, about `s` or no text at all. -/
theorem Telling.snoc {stale done : List StaleRequest} {g : Trace} (h : Telling stale done g)
    (s : StaleRequest) (w : Trace)
    (hw : ∀ id, id ≠ s.requestId → w.any (isTextAbout id) = false) (ha : Attempted s (g ++ w)) :
    Telling stale (done ++ [s]) (g ++ w) where
  hreturned := returned_append h w
  committed := by
    obtain ⟨now, updatedBefore, limit, candidates, reaped, v, rfl⟩ := h.committed
    exact ⟨now, updatedBefore, limit, candidates, reaped, v ++ w, rfl⟩
  attempted := by
    intro s' hs'
    rcases List.mem_append.mp hs' with hs' | hs'
    · exact (h.attempted s' hs').append w
    · rw [List.mem_singleton.mp hs']
      exact ha
  untold := by
    intro id hid
    rw [List.map_append, List.mem_append, not_or] at hid
    have hne : id ≠ s.requestId := fun he => hid.2 (by simp [he])
    simp [h.untold id hid.1, hw id hne]

/-- Returned rows come from the UPDATE's answer. -/
theorem mem_returned {t : Trace} {s : StaleRequest} (h : s ∈ returned t) :
    ∃ candidates updatedBefore limit updatedBefore' candidates' reaped u v,
      t = u ++ ⟨.selectStale updatedBefore limit, .ok candidates⟩ ::
        ⟨.updateStale candidates' updatedBefore', .ok reaped⟩ :: v ∧ s.requestId ∈ reaped ∧
      ∃ row ∈ candidates, row.id = s.requestId ∧ row.status = s.previousStatus.value := by
  fun_induction returned t with
  | case1 => cases h
  | case2 updatedBefore limit candidates candidates' updatedBefore' reaped v stale hj =>
    obtain ⟨row, hrow, hid, hm, -, hst⟩ := (joinReaped_cases hj).1 s h
    exact ⟨candidates, updatedBefore, limit, updatedBefore', candidates', reaped, [], v, rfl,
      hid ▸ hm, row, hrow, hid, hst⟩
  | case3 => cases h
  | case4 e t _ ih =>
    obtain ⟨candidates, updatedBefore, limit, updatedBefore', candidates', reaped, u, v, ht, hs⟩ :=
      ih h
    refine ⟨candidates, updatedBefore, limit, updatedBefore', candidates', reaped, e :: u, v, ?_, hs⟩
    rw [ht]
    rfl

/-- A returned row stays returned. -/
theorem returned_mono {t : Trace} {s : StaleRequest} (h : s ∈ returned t) (w : Trace) :
    s ∈ returned (t ++ w) := by
  fun_induction returned t with
  | case1 => cases h
  | case2 updatedBefore limit candidates candidates' updatedBefore' reaped v stale hj =>
    simp only [List.cons_append, returned, hj]
    exact h
  | case3 => cases h
  | case4 e t hne ih =>
    have hmem := ih h
    cases t with
    | nil => cases h
    | cons d t =>
      rw [List.cons_append, List.cons_append, returned]
      · exact hmem
      · intro updatedBefore limit candidates candidates' updatedBefore' reaped v he ht
        injection ht with hd _
        exact hne _ _ _ _ _ _ t he (by rw [hd])

/-- Only the UPDATE's answer returns rows. -/
theorem returned_snoc {t : Trace} {e : Ev}
    (he : ∀ candidates updatedBefore reaped, e ≠ ⟨.updateStale candidates updatedBefore, .ok reaped⟩) :
    returned (t ++ [e]) = returned t := by
  fun_induction returned t with
  | case1 =>
    rw [List.nil_append, returned]
    · rfl
    · intro _ _ _ _ _ _ _ _ ht
      cases ht
  | case2 updatedBefore limit candidates candidates' updatedBefore' reaped v stale hj =>
    simp only [List.cons_append, returned, hj]
  | case3 updatedBefore limit candidates candidates' updatedBefore' reaped v exc hj =>
    simp only [List.cons_append, returned, hj]
  | case4 d t hne ih =>
    rw [List.cons_append, returned, ih]
    intro updatedBefore limit candidates candidates' updatedBefore' reaped v hd ht
    cases t with
    | nil =>
      injection ht with he' _
      exact he _ _ _ he'
    | cons x t =>
      injection ht with hx _
      exact hne _ _ _ _ _ _ t hd (by rw [hx])

/-! ## The tick -/

section Tick

variable {cfg : ReapStaleRequests} {g : Trace}

abbrev tickMonitor (cfg : ReapStaleRequests) : Monitor Call Resp Exc Trace :=
  historyMonitor Selectable (Allowed cfg)

/-- One notification, up to and including whatever it fails at. -/
theorem wp_tellUser {stale done : List StaleRequest} {s : StaleRequest}
    (h : Telling stale done g) (hs : s ∈ stale)
    (hnew : s.requestId ∉ done.map StaleRequest.requestId) :
    wp (tickMonitor cfg) (tellUser s) g fun g' r => Telling stale (done ++ [s]) g' ∧
      ∀ e, r = .error e → e.isException = false → g'.any isCancelled = true := by
  unfold tellUser
  simp only [wp_act_bind, wp_port]
  refine ⟨⟨s, h.hreturned ▸ hs, rfl⟩, fun r _ => ?_⟩
  have stop (ha : ∀ user telegramId, r = .ok (some user) → user.telegramId ≠ some telegramId) :
      Telling stale (done ++ [s]) (g ++ [⟨.userGetById s.userId, r⟩]) :=
    h.snoc s _ (fun _ _ => rfl) ⟨g, [], r, rfl, fun user tid hr ht => absurd ht (ha user tid hr)⟩
  rcases r with e | (_ | user)
  · refine ⟨stop (fun _ _ hr => by cases hr), ?_⟩
    rintro _ ⟨rfl⟩ he
    simp [isCancelled, he]
  · exact ⟨stop (fun _ _ hr => by cases hr), fun e he => by cases he⟩
  · cases ht : user.telegramId with
    | none =>
      simp only [ht]
      refine ⟨stop ?_, fun e he => by cases he⟩
      rintro _ telegramId ⟨rfl⟩
      simp [ht]
    | some telegramId =>
      simp only [ht, wp_act_bind, wp_port]
      refine ⟨⟨rfl, rfl⟩, fun r' _ => ?_⟩
      cases r' with
      | error e =>
        have hg : Telling stale (done ++ [s]) (g ++ ([⟨.userGetById s.userId, .ok (some user)⟩,
            ⟨.localize staleRequestKey user.language [], .error e⟩] : Trace)) := by
          refine h.snoc s _ (fun _ _ => rfl) ⟨g, _, _, rfl, ?_⟩
          rintro _ _ ⟨rfl⟩ -
          exact ⟨_, [], rfl, fun text h => by cases h⟩
        refine ⟨by simpa using hg, ?_⟩
        rintro _ ⟨rfl⟩ he
        simp [isCancelled, he]
      | ok text =>
        refine ⟨⟨⟨s, ?_, rfl⟩, ?_⟩, fun r'' _ => ?_⟩
        · simp only [historyMonitor_next, List.append_assoc]
          rw [returned_append h]
          exact hs
        · simp [h.untold _ hnew, isTextAbout]
        have hg : Telling stale (done ++ [s]) (g ++ ([⟨.userGetById s.userId, .ok (some user)⟩,
            ⟨.localize staleRequestKey user.language [], .ok text⟩,
            ⟨.sendText s.requestId telegramId text, r''⟩] : Trace)) := by
          refine h.snoc s _ ?_ ⟨g, _, _, rfl, ?_⟩
          · intro id hid
            have hne : (s.requestId == id) = false := by
              simp only [beq_eq_false_iff_ne, ne_eq]
              exact fun he => hid he.symm
            simp [isTextAbout, hne]
          · rintro _ _ ⟨rfl⟩ htid
            rw [ht] at htid
            cases htid
            refine ⟨_, _, rfl, ?_⟩
            rintro _ ⟨rfl⟩
            exact ⟨r'', [], rfl⟩
        refine ⟨by simpa using hg, ?_⟩
        rintro e rfl he
        simp [isCancelled, he]

/-- A failed notification is dropped, unless it was a cancellation. -/
theorem wp_notify {stale done : List StaleRequest} {s : StaleRequest}
    (h : Telling stale done g) (hs : s ∈ stale)
    (hnew : s.requestId ∉ done.map StaleRequest.requestId) :
    wp (tickMonitor cfg) (notify s) g fun g' r =>
      match r with
      | .ok _ => Telling stale (done ++ [s]) g'
      | .error _ => g'.any isCancelled = true := by
  unfold notify
  rw [wp_act_bind, wp_attempt]
  refine wp_mono _ (wp_tellUser h hs hnew) ?_
  rintro g' r ⟨ht, hc⟩
  cases r with
  | ok _ => exact ht
  | error e =>
    by_cases he : e.isException = true
    · simp only [he, if_true]
      exact ht
    · simp only [he]
      exact hc e rfl (by simpa using he)

/-- What a tick has done when it ends: told everyone it returned, or been
cancelled. -/
def Completed (t : Trace) : Prop :=
  (∀ s ∈ returned t, Attempted s t) ∨ t.any isCancelled = true

theorem wp_failStale {now : Time} (hg : g = [⟨.utcnow, .ok now⟩]) :
    wp (tickMonitor cfg) (failStale (now - cfg.staleAfter) cfg.batchSize) g fun g' r =>
      match r with
      | .ok stale => (stale = [] ∧ returned g' = []) ∨
          (Telling stale [] g' ∧ (stale.map StaleRequest.requestId).Nodup)
      | .error _ => returned g' = [] := by
  subst hg
  unfold failStale
  simp only [wp_act_bind, wp_port]
  refine ⟨⟨now, rfl, rfl, rfl⟩, fun r hr => ?_⟩
  cases r with
  | error e => rfl
  | ok candidates =>
    have hsel : Selectable ⟨.selectStale (now - cfg.staleAfter) cfg.batchSize, .ok candidates⟩ := hr
    by_cases he : candidates.isEmpty = true
    · simp only [he, if_true]
      exact .inl ⟨rfl, rfl⟩
    · simp only [he]
      refine ⟨⟨now, _, rfl, rfl⟩, fun r' _ => ?_⟩
      cases r' with
      | error e => rfl
      | ok reaped =>
        obtain ⟨stale, hj⟩ := joinReaped_ok reaped hsel.2
        show wp _ (Act.lift (joinReaped reaped candidates)) _ _
        rw [hj]
        refine .inr ⟨⟨?_, ⟨_, _, _, _, _, [], rfl⟩, by simp, ?_⟩, ?_⟩
        · simp [returned, hj]
        · simp [isTextAbout]
        · exact hsel.1.sublist (joinReaped_cases hj).2

/-- A tick calls what it may, and tells everyone it reaped. -/
theorem wp_execute (cfg : ReapStaleRequests) :
    wp (tickMonitor cfg) (execute cfg) [] fun g' _ => Completed g' := by
  unfold execute
  simp only [wp_act_bind, wp_port]
  refine ⟨rfl, fun r _ => ?_⟩
  cases r with
  | error e => exact .inl (by simp [returned])
  | ok now =>
    refine wp_mono _ (wp_failStale rfl) ?_
    intro g r hr
    cases r with
    | error e => exact .inl (by simp [show returned g = [] from hr])
    | ok stale =>
      rcases hr with ⟨rfl, hnone⟩ | ⟨htell, hnodup⟩
      · exact .inl (by simp [hnone])
      refine wp_mono _ (wp_each _ notify (Telling stale) (fun g' _ => g'.any isCancelled = true)
        stale ?_ g htell) ?_
      · intro done s rest g' hsplit hinv
        have hs : s ∈ stale := by simp [hsplit]
        have hnew : s.requestId ∉ done.map StaleRequest.requestId := by
          rw [hsplit, List.map_append, List.nodup_append] at hnodup
          intro hmem
          exact hnodup.2.2 _ hmem _ (by simp) rfl
        refine wp_mono _ (wp_notify hinv hs hnew) ?_
        intro g'' r' hr'
        cases r' with
        | ok _ => exact hr'
        | error e => exact hr'
      · intro g' r' hr'
        cases r' with
        | ok _ => exact .inl fun s hs => hr'.attempted s (hr'.hreturned ▸ hs)
        | error e => exact .inr hr'

end Tick

end ReapStaleRequests

end MediaDownloader
