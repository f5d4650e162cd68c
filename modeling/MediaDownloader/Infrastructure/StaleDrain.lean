import MediaDownloader.Application.ReapStaleRequests
import MediaDownloader.Infrastructure.DownloadRequestRepository
import MediaDownloader.Lib.OrderedQuery

/-!
# fail_stale, undisturbed

No other transaction runs.  The database orders rows of equal `updated_at` as
it likes, at each call anew, and the clock may show any time.

* `failStale_spec`: what one call returns, and what it makes of the table;
* `stale_after`: what is stale after it is what the LIMIT had left over;
* `calls_chunks`: the calls return the stale rows of the start, part by part;
* `failStale_drains`: so each of them once, oldest first, and then none.
-/

namespace MediaDownloader

open Interaction OrderedQuery

namespace StaleDrain

/-! ## The environment -/

/-- `ORDER BY updated_at`. -/
def OlderFirst (a b : Row) : Prop := a.updatedAt ≤ b.updatedAt

/-- The stale rows, in an order the database may return them in. -/
abbrev StaleRows (t : Table) (updatedBefore : Time) : Type :=
  Ordered OlderFirst (fun row => row.isStale updatedBefore) t.rows

/-- What the surroundings bring to one call. -/
structure Turn where
  /-- How the database orders its rows. -/
  order : (t : Table) → (updatedBefore : Time) → StaleRows t updatedBefore
  /-- `datetime.now(UTC)` between the two statements. -/
  now : Time

def candidateOf (row : Row) : Candidate := ⟨row.id, row.userId, row.status⟩

/-- The database with no other transaction on it. -/
def Turn.handler (turn : Turn) : Handler Call Resp Exc Table where
  answer t
    | .selectStale updatedBefore limit =>
      .ok (((turn.order t updatedBefore).list.take limit).map candidateOf)
    | c => t.respond (fun _ => false) c
  next t c _ := t.effect turn.now c

@[simp] theorem handler_selectStale (turn : Turn) (t : Table) (updatedBefore : Time)
    (limit : Nat) : turn.handler.answer t (.selectStale updatedBefore limit) =
      .ok (((turn.order t updatedBefore).list.take limit).map candidateOf) := rfl

@[simp] theorem handler_updateStale (turn : Turn) (t : Table) (candidates : List Candidate)
    (updatedBefore : Time) : turn.handler.answer t (.updateStale candidates updatedBefore) =
      .ok ((t.rows.filter (Table.isReaped candidates updatedBefore)).map Row.id) := rfl

@[simp] theorem handler_next (turn : Turn) (t : Table) (c : Call) (r : Except Exc (Resp c)) :
    turn.handler.next t c r = t.effect turn.now c := rfl

/-- One call: the table after it, and what it returns. -/
def failStaleOn (turn : Turn) (updatedBefore : Time) (limit : Nat) (t : Table) :
    Table × Except Exc (List StaleRequest) :=
  (ReapStaleRequests.failStale updatedBefore limit).handle turn.handler t

/-- The call repeated, once for every turn. -/
def calls (updatedBefore : Time) (limit : Nat) : List Turn → Table →
    List (Except Exc (List StaleRequest))
  | [], _ => []
  | turn :: turns, t =>
    (failStaleOn turn updatedBefore limit t).2 ::
      calls updatedBefore limit turns (failStaleOn turn updatedBefore limit t).1

/-! ## One call -/

/-- The request of a row, with the status it had. -/
structure Reports (row : Row) (stale : StaleRequest) : Prop where
  requestId : stale.requestId = row.id
  userId : stale.userId = row.userId
  previousStatus : stale.previousStatus.value = row.status

/-- `SET status = 'failed', completed_at = now, updated_at = now`. -/
def failed (now : Time) (row : Row) : Row :=
  { row with status := DownloadStatus.failed.value, completedAt := some now, updatedAt := now }

theorem failed_not_stale (now updatedBefore : Time) (row : Row) :
    (failed now row).isStale updatedBefore = false := by
  have hactive : (failed now row).isActive = false := by
    change (DownloadStatus.failed.value == DownloadStatus.pending.value ||
      DownloadStatus.failed.value == DownloadStatus.processing.value) = false
    decide
  rw [Row.isStale, hactive, Bool.false_and]

theorem status_of_stale {row : Row} {updatedBefore : Time} (h : row.isStale updatedBefore = true) :
    ∃ status, DownloadStatus.parse row.status = some status := by
  simp only [Row.isStale, Row.isActive, Bool.and_eq_true, Bool.or_eq_true, beq_iff_eq] at h
  rcases h.1 with hs | hs
  · exact ⟨_, hs ▸ DownloadStatus.parse_value _⟩
  · exact ⟨_, hs ▸ DownloadStatus.parse_value _⟩

/-- The join over rows that were all hit returns all of them. -/
theorem joinReaped_all {reaped : List UUID} {rows : List Row}
    (hhit : ∀ row ∈ rows, row.id ∈ reaped)
    (hstatus : ∀ row ∈ rows, ∃ status, DownloadStatus.parse row.status = some status) :
    ∃ stale, ReapStaleRequests.joinReaped reaped (rows.map candidateOf) = .ok stale ∧
      List.Forall₂ Reports rows stale := by
  induction rows with
  | nil => exact ⟨[], rfl, .nil⟩
  | cons row rows ih =>
    obtain ⟨stale, hjoin, hreports⟩ := ih (fun row' h => hhit row' (List.mem_cons_of_mem _ h))
      fun row' h => hstatus row' (List.mem_cons_of_mem _ h)
    obtain ⟨status, hs⟩ := hstatus row List.mem_cons_self
    have hmem : (candidateOf row).id ∈ reaped := hhit row List.mem_cons_self
    have hparse : DownloadStatus.parse (candidateOf row).status = some status := hs
    refine ⟨⟨row.id, row.userId, status⟩ :: stale, ?_, .cons ?_ hreports⟩
    · rw [List.map_cons, ReapStaleRequests.joinReaped, if_pos hmem, hparse, hjoin]
      rfl
    · exact ⟨rfl, rfl, (DownloadStatus.value_of_parse hs).symm⟩

/-- What a call with `limit` does that finds the stale rows in the order `rows`. -/
structure FailsFirst (t : Table) (limit : Nat) (now : Time) (rows : List Row) (t' : Table)
    (answer : Except Exc (List StaleRequest)) : Prop where
  /-- The oldest rows, with the statuses they had. -/
  returned : ∃ stale, answer = .ok stale ∧ List.Forall₂ Reports (rows.take limit) stale
  /-- These rows are failed, and every other row is as it was. -/
  table : t'.rows = t.rows.map fun row => if row ∈ rows.take limit then failed now row else row

section Call

variable {t : Table} {updatedBefore : Time}

theorem rows_nodup (t : Table) : t.rows.Nodup := List.Nodup.of_map _ t.nodup

/-- The UPDATE hits the candidates. -/
theorem isReaped_candidates {rows : List Row} (hsub : ∀ row ∈ rows, row ∈ t.rows)
    (hstale : ∀ row ∈ rows, row.isStale updatedBefore = true) {row : Row} (hrow : row ∈ t.rows) :
    Table.isReaped (rows.map candidateOf) updatedBefore row = decide (row ∈ rows) := by
  have hids : row.id ∈ (rows.map candidateOf).map Candidate.id ↔ row ∈ rows := by
    simp only [List.map_map, List.mem_map]
    constructor
    · rintro ⟨row', hmem, hid⟩
      have hsame : row' = row := List.inj_on_of_nodup_map t.nodup (hsub row' hmem) hrow hid
      exact hsame ▸ hmem
    · intro hmem
      exact ⟨row, hmem, rfl⟩
  rw [Table.isReaped, decide_eq_decide.mpr hids]
  by_cases hmem : row ∈ rows
  · rw [hstale row hmem, Bool.and_true]
  · rw [decide_eq_false hmem, Bool.false_and]

variable (turn : Turn) (limit : Nat)

/-- The two statements, without the early return. -/
theorem failStaleOn_eq (t : Table) (updatedBefore : Time) {rows : List Row}
    (hrows : (turn.order t updatedBefore).list.take limit = rows) (hne : rows ≠ []) :
    failStaleOn turn updatedBefore limit t =
      (t.effect turn.now (.updateStale (rows.map candidateOf) updatedBefore),
        ReapStaleRequests.joinReaped ((t.rows.filter
          (Table.isReaped (rows.map candidateOf) updatedBefore)).map Row.id)
          (rows.map candidateOf)) := by
  have hsome : (rows.map candidateOf).isEmpty = false := by
    cases rows with
    | nil => exact absurd rfl hne
    | cons row rows => rfl
  simp only [failStaleOn, ReapStaleRequests.failStale, port, handle_act_bind, handle_port,
    handler_selectStale, hrows, hsome, Bool.false_eq_true, if_false, handler_next,
    handler_updateStale, handle_lift, Table.effect]

theorem failStaleOn_nil (t : Table) (updatedBefore : Time)
    (hrows : (turn.order t updatedBefore).list.take limit = []) :
    failStaleOn turn updatedBefore limit t = (t, .ok []) := by
  simp only [failStaleOn, ReapStaleRequests.failStale, port, handle_act_bind, handle_port,
    handler_selectStale, hrows, List.map_nil, List.isEmpty_nil, if_true, handler_next,
    handle_pure, Table.effect]

theorem failStale_spec (t : Table) (updatedBefore : Time) :
    FailsFirst t limit turn.now (turn.order t updatedBefore).list
      (failStaleOn turn updatedBefore limit t).1 (failStaleOn turn updatedBefore limit t).2 := by
  have hmem (row : Row) (h : row ∈ (turn.order t updatedBefore).list.take limit) :
      row ∈ t.rows ∧ row.isStale updatedBefore = true :=
    ((turn.order t updatedBefore).mem_iff row).mp (List.mem_of_mem_take h)
  generalize hrows : (turn.order t updatedBefore).list.take limit = rows at hmem
  by_cases hne : rows = []
  · subst hne
    rw [failStaleOn_nil turn limit t updatedBefore hrows]
    refine ⟨⟨[], rfl, ?_⟩, ?_⟩
    · rw [hrows]
      exact .nil
    · simp [hrows]
  · have hhit (row : Row) (h : row ∈ t.rows) :
        Table.isReaped (rows.map candidateOf) updatedBefore row = decide (row ∈ rows) :=
      isReaped_candidates (fun row' h' => (hmem row' h').1) (fun row' h' => (hmem row' h').2) h
    have hids : ∀ row ∈ rows, row.id ∈ (t.rows.filter
        (Table.isReaped (rows.map candidateOf) updatedBefore)).map Row.id := fun row h =>
      List.mem_map_of_mem (List.mem_filter.mpr
        ⟨(hmem row h).1, (hhit row (hmem row h).1).trans (decide_eq_true h)⟩)
    obtain ⟨stale, hjoin, hreports⟩ := joinReaped_all hids
      fun row h => status_of_stale (hmem row h).2
    rw [failStaleOn_eq turn limit t updatedBefore hrows hne]
    refine ⟨⟨stale, hjoin, ?_⟩, ?_⟩
    · rw [hrows]
      exact hreports
    · rw [hrows]
      refine List.map_congr_left fun row h => ?_
      rw [hhit row h]
      simp only [decide_eq_true_eq]
      rfl

/-! ## The calls after it -/

/-- A failed row is stale no more. -/
theorem filter_failed (now updatedBefore : Time) (rows l : List Row) :
    (l.map fun row => if row ∈ rows then failed now row else row).filter
        (fun row => row.isStale updatedBefore) =
      (l.filter fun row => row.isStale updatedBefore).filter fun row => decide (row ∉ rows) := by
  induction l with
  | nil => rfl
  | cons row l ih =>
    rw [List.map_cons, List.filter_cons, List.filter_cons, ih]
    by_cases hmem : row ∈ rows
    · rw [if_pos hmem, failed_not_stale]
      by_cases hstale : row.isStale updatedBefore = true <;> simp [hstale, hmem]
    · rw [if_neg hmem]
      by_cases hstale : row.isStale updatedBefore = true <;> simp [hstale, hmem]

/-- What is stale after a call. -/
theorem stale_after (t : Table) (updatedBefore : Time) :
    ((failStaleOn turn updatedBefore limit t).1.rows.filter
      fun row => row.isStale updatedBefore).Perm
      ((turn.order t updatedBefore).list.drop limit) := by
  have hspec := (failStale_spec turn limit t updatedBefore).table
  rw [hspec, (turn.order t updatedBefore).drop_eq_filter (rows_nodup t)]
  generalize (turn.order t updatedBefore).list.take limit = rows
  rw [filter_failed]
  exact ((turn.order t updatedBefore).perm.filter _).symm

end Call

section Calls

variable {updatedBefore : Time} {limit : Nat}

/-- An order there always is. -/
def someOrder (t : Table) (updatedBefore : Time) : StaleRows t updatedBefore :=
  Ordered.ofSort (fun a b : Row => decide (a.updatedAt ≤ b.updatedAt))
    (fun _ _ => decide_eq_true_iff) (fun _ _ _ hab hbc => Int.le_trans hab hbc)
    (fun _ _ => Int.le_total _ _) _ _

/-- The stable sort of the shared table is such an order. -/
theorem selectStale_someOrder (t : Table) (updatedBefore : Time) (limit : Nat) :
    t.selectStale (fun _ => false) updatedBefore limit =
      ((someOrder t updatedBefore).list.take limit).map candidateOf := by
  simp only [Table.selectStale, Bool.not_false, Bool.and_true]
  rfl

/-- The `i`-th call returns the `i`-th part of one order of the stale rows. -/
theorem calls_chunks (limit : Nat) (turns : List Turn) (t : Table) :
    ∃ (order : StaleRows t updatedBefore) (batches : List (List StaleRequest)),
      calls updatedBefore limit turns t = batches.map .ok ∧ batches.length = turns.length ∧
        ∀ i batch, batches[i]? = some batch →
          List.Forall₂ Reports ((order.list.drop (i * limit)).take limit) batch := by
  induction turns generalizing t with
  | nil =>
    refine ⟨someOrder t updatedBefore, [], rfl, rfl, fun i batch h => ?_⟩
    rw [List.getElem?_nil] at h
    cases h
  | cons turn turns ih =>
    obtain ⟨stale, hanswer, hreports⟩ := (failStale_spec turn limit t updatedBefore).returned
    obtain ⟨later, batches, hcalls, hlength, hchunks⟩ :=
      ih (failStaleOn turn updatedBefore limit t).1
    have hperm := later.perm.trans (stale_after turn limit t updatedBefore)
    refine ⟨(turn.order t updatedBefore).follow limit later.list hperm later.sorted,
      stale :: batches, ?_, ?_, fun i batch h => ?_⟩
    · rw [calls, hanswer, hcalls, List.map_cons]
    · rw [List.length_cons, List.length_cons, hlength]
    · cases i with
      | zero =>
        rw [List.getElem?_cons_zero] at h
        cases h
        rw [Nat.zero_mul, List.drop_zero, Ordered.follow_take]
        exact hreports
      | succ i =>
        rw [List.getElem?_cons_succ] at h
        rw [Nat.add_mul, Nat.one_mul, Nat.add_comm, ← List.drop_drop, Ordered.follow_drop]
        exact hchunks i batch h

/-- The first `m` parts together. -/
theorem flatten_chunks {rows : List Row} {batches : List (List StaleRequest)}
    (h : ∀ i batch, batches[i]? = some batch →
      List.Forall₂ Reports ((rows.drop (i * limit)).take limit) batch) (m : Nat)
    (hm : m ≤ batches.length) :
    List.Forall₂ Reports (rows.take (m * limit)) (batches.take m).flatten := by
  induction m with
  | zero => simp
  | succ m ih =>
    have hlast : batches[m]? = some batches[m] := List.getElem?_eq_getElem hm
    rw [Nat.add_mul, Nat.one_mul, List.take_add, List.take_add_one, hlast, List.flatten_append]
    refine List.rel_append (ih (Nat.le_of_succ_le hm)) ?_
    simpa using h m _ hlast

/-- How many rows are stale. -/
def staleCount (t : Table) (updatedBefore : Time) : Nat :=
  (t.rows.filter fun row => row.isStale updatedBefore).length

/-- `ceil(k / limit)`. -/
def callsNeeded (t : Table) (updatedBefore : Time) (limit : Nat) : Nat :=
  (staleCount t updatedBefore + limit - 1) / limit

/-- The answers of the calls: each stale row once, oldest first, in full batches
but for the last, and then no more. -/
structure Drains (t : Table) (updatedBefore : Time) (limit : Nat)
    (batches : List (List StaleRequest)) : Prop where
  once : callsNeeded t updatedBefore limit ≤ batches.length →
    ∃ order : StaleRows t updatedBefore, List.Forall₂ Reports order.list
      (batches.take (callsNeeded t updatedBefore limit)).flatten
  size : ∀ i batch, batches[i]? = some batch →
    batch.length = min limit (staleCount t updatedBefore - i * limit)
  after : ∀ i batch, callsNeeded t updatedBefore limit ≤ i → batches[i]? = some batch → batch = []

theorem callsNeeded_mul (t : Table) (updatedBefore : Time) (hlimit : 1 ≤ limit) :
    staleCount t updatedBefore ≤ callsNeeded t updatedBefore limit * limit := by
  have hdiv := Nat.div_add_mod (staleCount t updatedBefore + limit - 1) limit
  have hmod := Nat.mod_lt (staleCount t updatedBefore + limit - 1) hlimit
  rw [callsNeeded, Nat.mul_comm]
  omega

/-- One call fails the oldest rows and reports them; the calls together drain
the stale rows. -/
theorem failStale_drains (t : Table) (updatedBefore : Time) (limit : Nat) (hlimit : 1 ≤ limit) :
    (∀ turn : Turn, FailsFirst t limit turn.now (turn.order t updatedBefore).list
        (failStaleOn turn updatedBefore limit t).1 (failStaleOn turn updatedBefore limit t).2) ∧
      ∀ turns : List Turn, ∃ batches : List (List StaleRequest),
        calls updatedBefore limit turns t = batches.map .ok ∧ batches.length = turns.length ∧
          Drains t updatedBefore limit batches := by
  refine ⟨fun turn => failStale_spec turn limit t updatedBefore, fun turns => ?_⟩
  obtain ⟨order, batches, hcalls, hlength, hchunks⟩ := calls_chunks limit turns t
  have hneeded := callsNeeded_mul t updatedBefore hlimit
  have hsize (i : Nat) (batch : List StaleRequest) (h : batches[i]? = some batch) :
      batch.length = min limit (staleCount t updatedBefore - i * limit) := by
    rw [← (hchunks i batch h).length_eq, List.length_take, List.length_drop, order.length_eq]
    rfl
  refine ⟨batches, hcalls, hlength, fun henough => ⟨order, ?_⟩, hsize, fun i batch hi h => ?_⟩
  · have hall := flatten_chunks hchunks _ henough
    rwa [List.take_of_length_le (order.length_eq.trans_le hneeded)] at hall
  · have hmul : callsNeeded t updatedBefore limit * limit ≤ i * limit :=
      Nat.mul_le_mul_right limit hi
    have hzero := hsize i batch h
    rw [Nat.sub_eq_zero_of_le (hneeded.trans hmul), Nat.min_zero] at hzero
    exact List.length_eq_zero_iff.mp hzero

namespace ThreeStale

def row (id : UUID) (status : DownloadStatus) (updatedAt : Time) : Row :=
  ⟨id, 7, str "https://example.com/v", str "video", status.value, str "audio", none, 0, none,
    updatedAt⟩

/-- Two requests of one time, a newer one, and one that is finished. -/
def table : Table :=
  ⟨[row 1 .processing 30, row 2 .pending 10, row 3 .done 5, row 4 .pending 10], by decide⟩

end ThreeStale

/-- Three stale rows in batches of two. -/
theorem failStale_drains_three : callsNeeded ThreeStale.table 100 2 = 2 ∧
    ∀ turns : List Turn, ∃ batches : List (List StaleRequest),
      calls 100 2 turns ThreeStale.table = batches.map .ok ∧ batches.length = turns.length ∧
        Drains ThreeStale.table 100 2 batches :=
  ⟨by decide, (failStale_drains ThreeStale.table 100 2 (by decide)).2⟩

end Calls

end StaleDrain

end MediaDownloader
