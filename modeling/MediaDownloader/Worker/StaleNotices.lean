import MediaDownloader.Worker.Reaping

/-!
# Stale notices

Bots, jobs and any number of reapers work on one table; SELECT and UPDATE of
`fail_stale` are two steps, and nothing is assumed about the jobs' times.

* `inactive_step`: a row that is not active never is again;
* `Reaping.step`: the reaped rows of distinct ticks are distinct;
* `stale_reaped_once`: each row is reaped once, from the status it had, and
  its user is told at most once, and by every tick that is not cancelled.
-/

namespace MediaDownloader

open Interaction ReapStaleRequests

variable {d : Deployment} {c c' : Actors} {l : ActorLabel}

/-- Neither PENDING nor PROCESSING. -/
def Retired (c : Actors) (id : UUID) : Prop :=
  ∃ row, c.shared.table.get? id = some row ∧ row.isActive = false

/-- What the SELECT saw is still so, unless the row was stamped since. -/
def StillStale (c : Actors) (updatedBefore : Time) (cand : Candidate) : Prop :=
  ∃ row, c.shared.table.get? cand.id = some row ∧
    (row.status = cand.status ∨ updatedBefore ≤ row.updatedAt)

structure Reaping (c : Actors) : Prop where
  retired : ∀ (i : Nat) (th : ActorThread), c.threads[i]? = some th →
    ∀ s ∈ returned th.trace, Retired c s.requestId
  distinct : ∀ (i j : Nat) (th th' : ActorThread) (s s' : StaleRequest),
    c.threads[i]? = some th → c.threads[j]? = some th' → s ∈ returned th.trace →
      s' ∈ returned th'.trace → s.requestId = s'.requestId → i = j
  nodup : ∀ (i : Nat) (th : ActorThread), c.threads[i]? = some th →
    ((returned th.trace).map StaleRequest.requestId).Nodup
  pending : ∀ (i : Nat) (th : ActorThread) (now updatedBefore : Time) (limit : Nat)
    (candidates : List Candidate), c.threads[i]? = some th →
    th.trace = [⟨.utcnow, .ok now⟩, ⟨.selectStale updatedBefore limit, .ok candidates⟩] →
      ∀ cand ∈ candidates, StillStale c updatedBefore cand

theorem inactive_step (hs : Sound d c) (h : Step (requestSystem d) c l c') {id : UUID}
    (hr : Retired c id) : Retired c' id := by
  obtain ⟨row, hrow, hact⟩ := hr
  rcases row_step hs.coded hs.answered h hrow with hsame | ⟨row', i, th, ⟨cl, r⟩, hw⟩
  · exact ⟨row, hsame, hact⟩
  refine ⟨row', hw.after, ?_⟩
  have hchange := hw.change
  have hallow := hw.allowed
  cases hchange with
  | claimed ha =>
    rw [hact] at ha
    cases ha
  | updated _ =>
    obtain ⟨-, -, -, hst⟩ := allowed_update hallow
    exact row.finish_inactive hst _ _
  | marked => exact row.finish_inactive (.inr rfl) _ _
  | reaped _ ha _ =>
    rw [hact] at ha
    cases ha

/-- A cutoff that lies before now survives every write. -/
theorem stillStale_step (hs : Sound d c) (h : Step (requestSystem d) c l c')
    {updatedBefore : Time} {cand : Candidate} (hcut : updatedBefore ≤ c.shared.now)
    (hp : StillStale c updatedBefore cand) : StillStale c' updatedBefore cand := by
  obtain ⟨row, hrow, hst⟩ := hp
  rcases row_step hs.coded hs.answered h hrow with hsame | ⟨row', i, th, e, hw⟩
  · exact ⟨row, hsame, hst⟩
  · refine ⟨row', hw.after, .inr ?_⟩
    rw [hw.change.updatedAt]
    exact hcut

/-- A cutoff lies before the clock it was computed from. -/
theorem cutoff_le (hs : Sound d c) {i : Nat} {th : ActorThread} (hi : c.threads[i]? = some th)
    {now updatedBefore : Time} {limit : Nat} {candidates : List Candidate}
    (ht : th.trace = [⟨.utcnow, .ok now⟩, ⟨.selectStale updatedBefore limit, .ok candidates⟩]) :
    updatedBefore ≤ c.shared.now := by
  have hallow := hs.coded.made (actor_wp d) hi (hs.answered i th hi)
    (show th.trace = [⟨.utcnow, .ok now⟩] ++ _ :: [] from ht)
  cases hk : th.kind with
  | bot _ _ _ _ _ _ =>
    rw [hk] at hallow
    exact hallow.elim
  | job _ _ _ _ =>
    rw [hk] at hallow
    exact hallow.elim
  | reaper =>
    rw [hk] at hallow
    obtain ⟨now', hnow', hcut, -⟩ := hallow
    cases hnow'
    have hle : now ≤ c.shared.now := (hs.onTime i th hi).1 now (by simp [ht])
    have hT := d.reaper.jobTimeout_nonneg
    have hg := d.reaper.grace_pos
    have hcut' : updatedBefore = now - (d.reaper.jobTimeout + d.reaper.grace) := hcut
    simp only [Time] at *
    omega

/-! ## One step of a reaping -/

/-- What a thread has returned after the step: what it had before, or the rows
its UPDATE has just moved. -/
inductive Returns (c : Actors) (l : ActorLabel) (j : Nat) (th' : ActorThread) (w : World) : Prop
  | same {th : ActorThread} : c.threads[j]? = some th → returned th'.trace = returned th.trace →
      Returns c l j th' w
  | none : returned th'.trace = [] → Returns c l j th' w
  | moved {th : ActorThread} {now updatedBefore : Time} {limit : Nat}
      {candidates : List Candidate} {reaped : List UUID} {stale : List StaleRequest} :
      c.threads[j]? = some th →
      th.trace = [⟨.utcnow, .ok now⟩, ⟨.selectStale updatedBefore limit, .ok candidates⟩] →
      l = .call j ⟨.updateStale candidates updatedBefore, .ok reaped⟩ →
      Served c.shared (.updateStale candidates updatedBefore) (.ok reaped) w →
      joinReaped reaped candidates = .ok stale → returned th'.trace = stale →
      Returns c l j th' w

/-- The step in which a tick's UPDATE is answered. -/
theorem update_answered (hs : Sound d c) {i : Nat} {th : ActorThread}
    {candidates : List Candidate} {updatedBefore : Time} {reaped : List UUID} {w : World}
    (hcall : c.Calls (requestSystem d) i th ⟨.updateStale candidates updatedBefore, .ok reaped⟩ w) :
    ∃ now limit stale,
      th.trace = [⟨.utcnow, .ok now⟩, ⟨.selectStale updatedBefore limit, .ok candidates⟩] ∧
        joinReaped reaped candidates = .ok stale ∧
        returned (th.trace ++ [⟨.updateStale candidates updatedBefore, .ok reaped⟩]) = stale := by
  obtain ⟨f, hp⟩ := hcall.next
  have hallow := hs.coded.allows (actor_wp d) hcall.thread (hs.answered i th hcall.thread) hp
  obtain ⟨-, now, limit, htrace, -⟩ := allowed_updateStale hallow
  have hsel : Answerable ⟨.selectStale updatedBefore limit, .ok candidates⟩ :=
    hs.answered i th hcall.thread _ (by simp [htrace])
  obtain ⟨stale, hjoin⟩ := joinReaped_ok reaped (selectable_of_answerable hsel).2
  exact ⟨now, limit, stale, htrace, hjoin, by simp [htrace, returned, hjoin]⟩

theorem returns_step (hs : Sound d c) (h : Step (requestSystem d) c l c') {j : Nat}
    {th' : ActorThread} (hj : c'.threads[j]? = some th') : Returns c l j th' c'.shared := by
  rcases h.thread_cases hj with ⟨th, hi, -, ht, -⟩ | ⟨k, -, -, rfl⟩ | ⟨th, e, f, hl, hcall, -, rfl⟩
  · exact .same hi (by rw [ht])
  · exact .none rfl
  by_cases he : ∃ candidates updatedBefore reaped,
      e = ⟨.updateStale candidates updatedBefore, .ok reaped⟩
  · obtain ⟨candidates, updatedBefore, reaped, rfl⟩ := he
    obtain ⟨now, limit, stale, htrace, hjoin, hret⟩ := update_answered hs hcall
    exact .moved hcall.thread htrace hl hcall.answer hjoin hret
  · refine .same hcall.thread (returned_snoc ?_)
    intro candidates updatedBefore reaped heq
    exact he ⟨candidates, updatedBefore, reaped, heq⟩

/-- A row the UPDATE has just moved was active, and had the status it was
selected with. -/
theorem moved_row (hp : Reaping c) {i : Nat} {th : ActorThread} {now updatedBefore : Time}
    {limit : Nat} {candidates : List Candidate} {reaped : List UUID} {w : World}
    (hi : c.threads[i]? = some th)
    (ht : th.trace = [⟨.utcnow, .ok now⟩, ⟨.selectStale updatedBefore limit, .ok candidates⟩])
    (hserved : Served c.shared (.updateStale candidates updatedBefore) (.ok reaped) w)
    {stale : List StaleRequest} (hj : joinReaped reaped candidates = .ok stale) {s : StaleRequest}
    (hmem : s ∈ stale) :
    ∃ row, c.shared.table.get? s.requestId = some row ∧ row.isActive = true ∧
      row.updatedAt < updatedBefore ∧ row.status = s.previousStatus.value ∧
      w.table.get? s.requestId = some (row.finish .failed (some c.shared.now) c.shared.now) := by
  obtain ⟨cand, hcand, hid, hreaped, -, hst⟩ := (joinReaped_cases hj).1 s hmem
  obtain ⟨row, hrow, -, hact, hu, hafter⟩ := hserved.reaped hreaped
  obtain ⟨row', hrow', hsame⟩ := hp.pending i th now updatedBefore limit candidates hi ht cand hcand
  rw [hrow] at hrow'
  cases hrow'
  rw [hid] at hrow hafter
  refine ⟨row, hrow, hact, hu, ?_, hafter⟩
  rcases hsame with hsame | hlate
  · rw [hsame, hst]
  · exact absurd hlate (Int.not_le.mpr hu)

theorem Reaping.retired_step (hp : Reaping c) (hs : Sound d c) (h : Step (requestSystem d) c l c')
    {j : Nat} {th' : ActorThread} (hj : c'.threads[j]? = some th') {s : StaleRequest}
    (hmem : s ∈ returned th'.trace) : Retired c' s.requestId := by
  cases returns_step hs h hj with
  | same hi ht =>
    rw [ht] at hmem
    exact inactive_step hs h (hp.retired j _ hi s hmem)
  | none ht =>
    rw [ht] at hmem
    cases hmem
  | moved hi ht hl hserved hjoin hret =>
    rw [hret] at hmem
    obtain ⟨row, -, -, -, -, hafter⟩ := moved_row hp hi ht hserved hjoin hmem
    exact ⟨_, hafter, row.finish_inactive (.inr rfl) _ _⟩

/-- What has been returned before is not returned again. -/
theorem Reaping.distinct_step (hp : Reaping c) (hs : Sound d c)
    (h : Step (requestSystem d) c l c') {i j : Nat} {th th' : ActorThread} {s s' : StaleRequest}
    (hi : c'.threads[i]? = some th) (hj : c'.threads[j]? = some th')
    (hmem : s ∈ returned th.trace) (hmem' : s' ∈ returned th'.trace)
    (hid : s.requestId = s'.requestId) : i = j := by
  have fresh {i j : Nat} {th u : ActorThread} {s s' : StaleRequest}
      {now updatedBefore : Time} {limit : Nat} {candidates : List Candidate} {reaped : List UUID}
      {stale : List StaleRequest} (hi : c.threads[i]? = some th)
      (ht : th.trace = [⟨.utcnow, .ok now⟩, ⟨.selectStale updatedBefore limit, .ok candidates⟩])
      (hserved : Served c.shared (.updateStale candidates updatedBefore) (.ok reaped) c'.shared)
      (hjoin : joinReaped reaped candidates = .ok stale) (hmem : s ∈ stale)
      (hj : c.threads[j]? = some u) (hmem' : s' ∈ returned u.trace)
      (hid : s.requestId = s'.requestId) : False := by
    obtain ⟨row, hrow, hact, -⟩ := moved_row hp hi ht hserved hjoin hmem
    obtain ⟨row', hrow', hret⟩ := hp.retired j u hj s' hmem'
    rw [← hid, hrow] at hrow'
    cases hrow'
    rw [hret] at hact
    cases hact
  cases returns_step hs h hi with
  | none ht =>
    rw [ht] at hmem
    cases hmem
  | same hi₀ ht =>
    rw [ht] at hmem
    cases returns_step hs h hj with
    | none ht' =>
      rw [ht'] at hmem'
      cases hmem'
    | same hj₀ ht' =>
      rw [ht'] at hmem'
      exact hp.distinct i j _ _ s s' hi₀ hj₀ hmem hmem' hid
    | moved hj₀ htr _ hserved hjoin hret =>
      rw [hret] at hmem'
      exact (fresh hj₀ htr hserved hjoin hmem' hi₀ hmem hid.symm).elim
  | moved hi₀ htr hl hserved hjoin hret =>
    rw [hret] at hmem
    cases returns_step hs h hj with
    | none ht' =>
      rw [ht'] at hmem'
      cases hmem'
    | same hj₀ ht' =>
      rw [ht'] at hmem'
      exact (fresh hi₀ htr hserved hjoin hmem hj₀ hmem' hid).elim
    | moved _ _ hl' _ _ _ =>
      rw [hl] at hl'
      cases hl'
      rfl

theorem Reaping.nodup_step (hp : Reaping c) (hs : Sound d c) (h : Step (requestSystem d) c l c')
    {j : Nat} {th' : ActorThread} (hj : c'.threads[j]? = some th') :
    ((returned th'.trace).map StaleRequest.requestId).Nodup := by
  cases returns_step hs h hj with
  | same hi ht =>
    rw [ht]
    exact hp.nodup j _ hi
  | none ht =>
    rw [ht]
    exact List.nodup_nil
  | @moved th now updatedBefore limit candidates reaped stale hi ht _ _ hjoin hret =>
    rw [hret]
    have hsel : Answerable ⟨.selectStale updatedBefore limit, .ok candidates⟩ :=
      hs.answered j th hi _ (by simp [ht])
    exact (selectable_of_answerable hsel).1.sublist (joinReaped_cases hjoin).2

theorem Reaping.pending_step (hp : Reaping c) (hs : Sound d c) (h : Step (requestSystem d) c l c')
    {j : Nat} {th' : ActorThread} {now updatedBefore : Time} {limit : Nat}
    {candidates : List Candidate} (hj : c'.threads[j]? = some th')
    (ht' : th'.trace = [⟨.utcnow, .ok now⟩, ⟨.selectStale updatedBefore limit, .ok candidates⟩])
    {cand : Candidate} (hcand : cand ∈ candidates) : StillStale c' updatedBefore cand := by
  rcases h.thread_cases hj with ⟨th, hi, -, ht, -⟩ | ⟨k, -, -, rfl⟩ | ⟨th, e, f, -, hcall, -, rfl⟩
  · rw [ht] at ht'
    exact stillStale_step hs h (cutoff_le hs hi ht')
      (hp.pending j th now updatedBefore limit candidates hi ht' cand hcand)
  · cases ht'
  · -- the SELECT has just been answered
    have hlast : e = ⟨.selectStale updatedBefore limit, .ok candidates⟩ := by
      have hget : (th.trace ++ [e]).getLast? = _ := congrArg List.getLast? ht'
      rw [List.getLast?_concat] at hget
      exact Option.some.inj hget
    subst hlast
    have hserved : Served c.shared (.selectStale updatedBefore limit) (.ok candidates) c'.shared :=
      hcall.answer
    obtain ⟨row, hrow, -, -, -, hst, htable⟩ := hserved.selected hcand
    exact ⟨row, by rw [htable, hrow], .inl hst⟩

theorem Reaping.step (hp : Reaping c) (hs : Sound d c) (h : Step (requestSystem d) c l c') :
    Reaping c' where
  retired := fun _ _ hj _ hmem => hp.retired_step hs h hj hmem
  distinct := fun _ _ _ _ _ _ hi hj hmem hmem' hid => hp.distinct_step hs h hi hj hmem hmem' hid
  nodup := fun _ _ hj => hp.nodup_step hs h hj
  pending := fun _ _ _ _ _ _ hj ht _ hcand => hp.pending_step hs h hj ht hcand

theorem Reaping.init (h : c.threads = []) : Reaping c where
  retired _ _ hi := absurd hi (Conf.not_started h)
  distinct _ _ _ _ _ _ hi := absurd hi (Conf.not_started h)
  nodup _ _ hi := absurd hi (Conf.not_started h)
  pending _ _ _ _ _ _ hi := absurd hi (Conf.not_started h)

/-- Any steps at all. -/
def Anything (_ : Actors) (_ : ActorLabel) (_ : Actors) : Prop := True

theorem Reaping.reach {c₀ : Actors} (h : Reach (requestSystem d) Anything c₀ c)
    (h0 : c₀.threads = []) : Sound d c ∧ Reaping c := by
  induction h with
  | refl => exact ⟨Sound.init h0, Reaping.init h0⟩
  | tail _ hstep _ ih =>
    obtain ⟨hs, hp⟩ := ih
    exact ⟨hs.step hstep, hp.step hs hstep⟩

/-! ## Notices -/

/-- How many stale notices about `id` all reapers together have attempted. -/
def staleNotices (c : Actors) (id : UUID) : Nat :=
  (c.threads.map fun th => if th.kind = .reaper then th.trace.countP (isTextAbout id) else 0).sum

/-- A notice goes to a row its own tick has returned, and once. -/
theorem notice_allowed (hs : Sound d c) {i : Nat} {th : ActorThread} (hi : c.threads[i]? = some th)
    (hk : th.kind = .reaper) {u v : Trace} {e : Ev} {id : UUID} (ht : th.trace = u ++ e :: v)
    (he : isTextAbout id e = true) :
    (∃ s ∈ returned u, s.requestId = id) ∧ u.any (isTextAbout id) = false := by
  have hallow := hs.coded.made (actor_wp d) hi (hs.answered i th hi) ht
  rw [hk] at hallow
  obtain ⟨cl, r⟩ := e
  unfold isTextAbout at he
  split at he
  · next about telegramId text hcl =>
    have hcall : cl = .sendText about telegramId text := hcl
    subst hcall
    rw [← beq_iff_eq.mp he]
    exact hallow
  · cases he

theorem staleNotices_le_one (hs : Sound d c) (hp : Reaping c) (id : UUID) :
    staleNotices c id ≤ 1 := by
  refine sum_map_le_one ?_ ?_
  · intro th hth
    obtain ⟨i, hi⟩ := List.getElem?_of_mem hth
    split
    · next hk => exact countP_le_one fun u e v ht he => (notice_allowed hs hi hk ht he).2
    · exact Nat.zero_le _
  · intro i j th th' hi hj hne hne'
    have told {i : Nat} {th : ActorThread} (hi : c.threads[i]? = some th)
        (hne : (if th.kind = .reaper then th.trace.countP (isTextAbout id) else 0) ≠ 0) :
        ∃ s ∈ returned th.trace, s.requestId = id := by
      split at hne
      · next hk =>
        obtain ⟨e, hmem, he⟩ := List.countP_pos_iff.mp (Nat.pos_of_ne_zero hne)
        obtain ⟨u, v, ht⟩ := List.append_of_mem hmem
        obtain ⟨⟨s, hs', hid⟩, -⟩ := notice_allowed hs hi hk ht he
        exact ⟨s, ht ▸ returned_mono hs' _, hid⟩
      · exact absurd rfl hne
    obtain ⟨s, hmem, hid⟩ := told hi hne
    obtain ⟨s', hmem', hid'⟩ := told hj hne'
    exact hp.distinct i j th th' s s' hi hj hmem hmem' (hid.trans hid'.symm)

/-- The reaper's promise, in a state reached by any steps. -/
structure ReapedOnce (d : Deployment) (c : Actors) : Prop where
  /-- Distinct ticks return distinct requests, and no tick one twice. -/
  disjoint : ∀ (i j : Nat) (th th' : ActorThread) (s s' : StaleRequest),
    c.threads[i]? = some th → c.threads[j]? = some th' → s ∈ returned th.trace →
      s' ∈ returned th'.trace → s.requestId = s'.requestId → i = j
  nodup : ∀ (i : Nat) (th : ActorThread), c.threads[i]? = some th →
    ((returned th.trace).map StaleRequest.requestId).Nodup
  /-- At the UPDATE the row was active, stale, and in the status that is reported. -/
  previous : ∀ i candidates updatedBefore reaped c' th',
    Step (requestSystem d) c (.call i ⟨.updateStale candidates updatedBefore, .ok reaped⟩) c' →
      c'.threads[i]? = some th' →
        (∀ id ∈ reaped, id ∈ (returned th'.trace).map StaleRequest.requestId) ∧
        ∀ s ∈ returned th'.trace, s.requestId ∈ reaped ∧
          ∃ row, c.shared.table.get? s.requestId = some row ∧ row.isActive = true ∧
            row.updatedAt < updatedBefore ∧ row.status = s.previousStatus.value ∧
            c'.shared.table.get? s.requestId =
              some (row.finish .failed (some c.shared.now) c.shared.now)
  oneNotice : ∀ id, staleNotices c id ≤ 1
  /-- A notice follows the answer of the UPDATE that moved its row. -/
  committedFirst : ∀ (i : Nat) (th : ActorThread) (u v : Trace) (e : Ev) (id : UUID),
    c.threads[i]? = some th → th.kind = .reaper → th.trace = u ++ e :: v →
      isTextAbout id e = true → ∃ candidates updatedBefore reaped,
        ⟨.updateStale candidates updatedBefore, .ok reaped⟩ ∈ u ∧ id ∈ reaped
  /-- Whatever else fails, a tick that is not cancelled tells everyone. -/
  everyoneTold : ∀ (i : Nat) (th : ActorThread), c.threads[i]? = some th → th.kind = .reaper →
    th.Finished → th.trace.any isCancelled = false → ∀ s ∈ returned th.trace, Attempted s th.trace

theorem reaped_previous (hs : Sound d c) (hp : Reaping c) {i : Nat} {candidates : List Candidate}
    {updatedBefore : Time} {reaped : List UUID} {th' : ActorThread}
    (h : Step (requestSystem d) c (.call i ⟨.updateStale candidates updatedBefore, .ok reaped⟩) c')
    (hi' : c'.threads[i]? = some th') :
    (∀ id ∈ reaped, id ∈ (returned th'.trace).map StaleRequest.requestId) ∧
      ∀ s ∈ returned th'.trace, s.requestId ∈ reaped ∧
        ∃ row, c.shared.table.get? s.requestId = some row ∧ row.isActive = true ∧
          row.updatedAt < updatedBefore ∧ row.status = s.previousStatus.value ∧
          c'.shared.table.get? s.requestId =
            some (row.finish .failed (some c.shared.now) c.shared.now) := by
  rcases h.thread_cases hi' with ⟨_, _, _, _, _, _, hl⟩ | ⟨k, hl, -⟩ | ⟨th, e, f, hl, hcall, -, rfl⟩
  · exact absurd rfl (hl _)
  · cases hl
  cases hl
  have hserved : Served c.shared (.updateStale candidates updatedBefore) (.ok reaped) c'.shared :=
    hcall.answer
  obtain ⟨now, limit, stale, htrace, hjoin, hret⟩ := update_answered hs hcall
  have hreturned : returned (th.answered (.updateStale candidates updatedBefore) (.ok reaped)
      (f (.ok reaped))).trace = stale := hret
  rw [hreturned]
  constructor
  · intro id hid
    obtain ⟨row, -, hcand, -⟩ := hserved.reaped hid
    obtain ⟨cand, hmem, rfl⟩ := List.mem_map.mp hcand
    exact joinReaped_complete hjoin hmem hid
  · intro s hmem
    obtain ⟨cand, -, hid, hreaped, -⟩ := (joinReaped_cases hjoin).1 s hmem
    exact ⟨hid ▸ hreaped, moved_row hp hcall.thread htrace hserved hjoin hmem⟩

/-- Whatever bots, jobs and reapers do, and whoever crashes: every stale
request is reaped once and its user told at most once. -/
theorem stale_reaped_once (d : Deployment) {c₀ c : Actors} (h0 : c₀.threads = [])
    (h : Reach (requestSystem d) Anything c₀ c) : ReapedOnce d c := by
  obtain ⟨hs, hp⟩ := Reaping.reach h h0
  constructor
  · exact hp.distinct
  · exact hp.nodup
  · exact fun i candidates updatedBefore reaped c' th' hstep hi => reaped_previous hs hp hstep hi
  · exact staleNotices_le_one hs hp
  · intro i th u v e id hi hk ht he
    obtain ⟨⟨s, hmem, hid⟩, -⟩ := notice_allowed hs hi hk ht he
    obtain ⟨_, _, _, updatedBefore, candidates, reaped, a, b, hu, hreaped, -⟩ := mem_returned hmem
    refine ⟨candidates, updatedBefore, reaped, ?_, hid ▸ hreaped⟩
    rw [hu]
    simp
  · intro i th hi hk hfin hcancel s hmem
    have hpost := hs.coded.post (actor_wp d) hi (hs.answered i th hi) hfin
    rw [hk] at hpost
    rcases hpost with htold | hc
    · exact htold s hmem
    · rw [hcancel] at hc
      cases hc

/-- The dead worker's row: reaped once, its owner told once. -/
theorem stale_reaped_once_dead : ∃ c : Actors, ReapedOnce DeadWorker.deployment c ∧
    c.shared.table = DeadWorker.reaped ∧ staleNotices c 1 = 1 := by
  obtain ⟨p, q, htold, hreach⟩ := DeadWorker.selected_reach
  have hreaper : ([⟨DeadWorker.job, p, DeadWorker.lost, true⟩,
      ⟨.reaper, q, DeadWorker.selected, false⟩] : List ActorThread)[1]? =
      some ⟨.reaper, q, DeadWorker.selected, false⟩ := rfl
  have hany := (hreach.mono (fun _ _ _ _ => trivial) :
    Reach (requestSystem DeadWorker.deployment) Anything _ _)
  have hend := hany.runThread (fun w => w.now = 2401) (answer_keeps_time _ 2401)
    (fun _ _ _ _ _ _ _ _ => trivial) rfl hreaper htold DeadWorker.told_answers
  exact ⟨_, stale_reaped_once DeadWorker.deployment rfl hend, rfl, rfl⟩

end MediaDownloader
