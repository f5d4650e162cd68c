import Mathlib.Tactic.Linarith
import MediaDownloader.Lib.SlidingWindow
import MediaDownloader.Infrastructure.RateLimiter
import MediaDownloader.Telegram.Formatting

/-!
# The rate limiter, one call at a time

Calls of `acquire` on one key at times that never go back, each with a `uuid4` of
its own.

* `Tracks`: what Redis holds of a window is what was allowed in it;
* `Tracks.serve`: each call keeps it;
* `acquire_exact_window`: so the limiter is an exact sliding window, and its hint
  is honest.
-/

namespace MediaDownloader

open Interaction SlidingWindow

/-! ## Runs -/

/-- A call: its time, and the `uuid4` it would draw. -/
structure Attempt where
  time : Rat
  member : Nat

structure Acquired extends Attempt where
  result : RateLimitResult

/-- Redis and the calls answered so far. -/
structure Ledger where
  redis : Redis
  calls : List Acquired

namespace RedisRateLimiter

def serve (key : Str) (limit window : Int) (s : Ledger) (a : Attempt) : Ledger :=
  match (acquire key limit window).handle (atOnce a.time a.member) s.redis with
  | (redis, .ok result) => ⟨redis, s.calls ++ [⟨a, result⟩]⟩
  | (redis, .error _) => ⟨redis, s.calls⟩

def play (key : Str) (limit window : Int) (redis : Redis) (attempts : List Attempt) : Ledger :=
  attempts.foldl (serve key limit window) ⟨redis, []⟩

/-- The times of the calls that were allowed. -/
def allowedTimes (calls : List Acquired) : List Rat :=
  (calls.filter fun c => c.result.allowed).map fun c => c.time

/-- What those calls recorded. -/
def events (calls : List Acquired) : List (Rat ×ₗ Nat) :=
  (calls.filter fun c => c.result.allowed).map fun c => toLex (c.time, c.member)

/-- What a call at `now` finds in its window. -/
def seen (key : Str) (window : Int) (redis : Redis) (now : Rat) : Finset (Rat ×ₗ Nat) :=
  (redis.visible (serverTime now) (keyPrefix ++ key)).filter fun e => now - window < (ofLex e).1

section Serve

variable {key : Str} {limit window : Int} {s : Ledger} {a : Attempt}

/-- Redis after the first pipeline. -/
def pruned (key : Str) (window : Int) (redis : Redis) (now : Rat) : Redis :=
  redis.zremrangebyscore (serverTime now) (keyPrefix ++ key) (now - window)

/-- Redis after both. -/
def recorded (key : Str) (window : Int) (redis : Redis) (a : Attempt) : Redis :=
  ((pruned key window redis a.time).zadd (serverTime a.time) (keyPrefix ++ key) a.member
    a.time).expire (serverTime a.time) (keyPrefix ++ key) (window + 60)

/-- The hint that a call at `now` gets if it is denied. -/
def hint (key : Str) (window : Int) (redis : Redis) (now : Rat) : Int :=
  retryAfter ((pruned key window redis now).zrangeFirst (serverTime now) (keyPrefix ++ key))
    window now

theorem visible_pruned (redis : Redis) (now : Rat) :
    (pruned key window redis now).visible (serverTime now) (keyPrefix ++ key) =
      seen key window redis now :=
  Redis.visible_prune le_rfl _

theorem zcard_pruned (redis : Redis) (now : Rat) :
    (pruned key window redis now).zcard (serverTime now) (keyPrefix ++ key) =
      (seen key window redis now).card :=
  congrArg Finset.card (visible_pruned redis now)

theorem serve_denied (h : limit ≤ ((seen key window s.redis a.time).card : Int)) :
    serve key limit window s a = ⟨pruned key window s.redis a.time,
      s.calls ++ [⟨a, false, hint key window s.redis a.time⟩]⟩ := by
  rw [← zcard_pruned] at h
  unfold serve
  rw [acquire_denied h]
  rfl

theorem serve_allowed (h : ((seen key window s.redis a.time).card : Int) < limit) :
    serve key limit window s a = ⟨recorded key window s.redis a,
      s.calls ++ [⟨a, true, 0⟩]⟩ := by
  rw [← zcard_pruned] at h
  unfold serve
  rw [acquire_allowed (not_le.mpr h)]
  rfl

/-- The hint counts from the oldest event that is seen. -/
theorem hint_eq {redis : Redis} {now : Rat} (h : (seen key window redis now).Nonempty) :
    ∃ oldest, (∃ e ∈ seen key window redis now, (ofLex e).1 = oldest) ∧
      (∀ e ∈ seen key window redis now, oldest ≤ (ofLex e).1) ∧
      hint key window redis now = max 1 (pyInt (oldest + window - now) + 1) := by
  unfold hint
  rw [← visible_pruned] at h ⊢
  cases hfirst : (pruned key window redis now).zrangeFirst (serverTime now) (keyPrefix ++ key) with
  | none => exact absurd (SortedSet.first_eq_none_iff.mp hfirst) h.ne_empty
  | some oldest => exact ⟨oldest, (SortedSet.first_spec hfirst).1, (SortedSet.first_spec hfirst).2, rfl⟩

end Serve

/-! ## The invariant -/

/-- Redis holds what the window needs: later than the start of a window that ends
now or later, exactly the allowed calls. -/
structure Tracks (key : Str) (limit window : Int) (s : Ledger) : Prop where
  bounded : Bounded (window : Rat) limit.toNat (allowedTimes s.calls)
  kept : ∀ now, (∀ c ∈ s.calls, c.time ≤ now) →
    seen key window s.redis now =
      (events s.calls).toFinset.filter fun e => now - window < (ofLex e).1
  small : ∀ now, ((s.redis.visible now (keyPrefix ++ key)).card : Int) ≤ limit

section Counting

variable {calls : List Acquired} {window : Int} {now : Rat}

theorem events_nodup (h : (calls.map fun c => c.member).Nodup) : (events calls).Nodup := by
  have hsub : ((calls.filter fun c => c.result.allowed).map fun c => c.member).Nodup :=
    h.sublist (List.filter_sublist.map _)
  refine List.Nodup.of_map (fun e : Rat ×ₗ Nat => (ofLex e).2) ?_
  simpa [events, Function.comp_def] using hsub

theorem card_window (h : (calls.map fun c => c.member).Nodup) :
    ((events calls).toFinset.filter fun e => now - window < (ofLex e).1).card =
      countAfter (window : Rat) now (allowedTimes calls) := by
  rw [(events_nodup h).card_eq_countP, events, List.countP_map, countAfter, allowedTimes,
    List.countP_map]
  exact List.countP_congr fun c _ => decide_eq_true_iff.trans decide_eq_true_iff.symm

end Counting

section Step

variable {key : Str} {limit window : Int} {s : Ledger} {a : Attempt}

/-- Redis's clock is read in milliseconds, but the margin of a minute covers that. -/
theorem window_outlived {t now : Rat}
    (h : ¬ serverTime now ≤ serverTime t + 1000 * (window + 60)) : t ≤ now - window := by
  have hnow : ((serverTime now : Int) : Rat) ≤ now * 1000 := Rat.floor_le _
  have ht : t * 1000 < ((serverTime t + 1 : Int) : Rat) := Rat.lt_floor_add_one _
  have hgt : serverTime t + 1000 * (window + 60) + 1 ≤ serverTime now := not_le.mp h
  have hcast : ((serverTime t : Int) : Rat) + 1000 * (window + 60) + 1 ≤ (serverTime now : Int) := by
    exact_mod_cast hgt
  push_cast at ht
  linarith

theorem mem_events {calls : List Acquired} {e : Rat ×ₗ Nat} :
    e ∈ events calls ↔
      ∃ c ∈ calls, c.result.allowed = true ∧ toLex (c.time, c.member) = e := by
  simp [events, and_assoc]

@[simp] theorem allowedTimes_append (calls calls' : List Acquired) :
    allowedTimes (calls ++ calls') = allowedTimes calls ++ allowedTimes calls' := by
  simp [allowedTimes]

@[simp] theorem events_append (calls calls' : List Acquired) :
    events (calls ++ calls') = events calls ++ events calls' := by
  simp [events]

theorem Tracks.empty (redis : Redis) (hnone : redis (keyPrefix ++ key) = none)
    (hlimit : 1 ≤ limit) : Tracks key limit window ⟨redis, []⟩ := by
  have hvisible : ∀ now, redis.visible now (keyPrefix ++ key) = ∅ := fun now =>
    Redis.visible_of_get_none (by simp [Redis.get, hnone])
  refine ⟨Bounded.nil, fun now _ => ?_, fun now => ?_⟩
  · simp only [seen, hvisible]
    rfl
  · simp only [hvisible, Finset.card_empty, Nat.cast_zero]
    omega

/-- The calls before `a`: earlier, and with other members. -/
structure Before (calls : List Acquired) (a : Attempt) : Prop where
  past : ∀ c ∈ calls, c.time ≤ a.time
  nodup : (calls.map fun c => c.member).Nodup
  fresh : ∀ c ∈ calls, c.member ≠ a.member

/-- What a call sees is how many calls were allowed in its window. -/
theorem Tracks.card_seen (h : Tracks key limit window s) (hb : Before s.calls a) :
    (seen key window s.redis a.time).card =
      countAfter (window : Rat) a.time (allowedTimes s.calls) := by
  rw [h.kept a.time hb.past, card_window hb.nodup]

theorem times_past {calls : List Acquired} (hb : Before calls a) :
    ∀ x ∈ allowedTimes calls, x ≤ a.time := by
  intro x hx
  obtain ⟨c, hc, rfl⟩ := List.mem_map.mp hx
  exact hb.past c (List.mem_filter.mp hc).1

/-- A denied call sees all there is, so it removes nothing. -/
theorem Tracks.pruned_eq (h : Tracks key limit window s) (hlimit : 1 ≤ limit)
    (hfull : limit ≤ ((seen key window s.redis a.time).card : Int)) :
    pruned key window s.redis a.time = s.redis := by
  have hsub : seen key window s.redis a.time ⊆
      s.redis.visible (serverTime a.time) (keyPrefix ++ key) := Finset.filter_subset _ _
  have hall : seen key window s.redis a.time =
      s.redis.visible (serverTime a.time) (keyPrefix ++ key) := by
    refine Finset.eq_of_subset_of_card_le hsub ?_
    have hsmall := h.small (serverTime a.time)
    omega
  have hne : (seen key window s.redis a.time).Nonempty := by
    rw [← Finset.card_pos]
    omega
  refine Redis.prune_self (hall ▸ hne) fun e he => ?_
  rw [← hall] at he
  exact (Finset.mem_filter.mp he).2

theorem Tracks.serve_denied (h : Tracks key limit window s) (hlimit : 1 ≤ limit)
    (hfull : limit ≤ ((seen key window s.redis a.time).card : Int)) :
    RedisRateLimiter.serve key limit window s a =
      ⟨s.redis, s.calls ++ [⟨a, false, hint key window s.redis a.time⟩]⟩ := by
  rw [RedisRateLimiter.serve_denied hfull, h.pruned_eq hlimit hfull]

/-- Nothing that a call sees is later than itself or has its member. -/
theorem Tracks.mem_seen (h : Tracks key limit window s) (hb : Before s.calls a) {e : Rat ×ₗ Nat}
    (he : e ∈ seen key window s.redis a.time) : (ofLex e).1 ≤ a.time ∧ (ofLex e).2 ≠ a.member := by
  rw [h.kept a.time hb.past] at he
  obtain ⟨c, hc, -, rfl⟩ := mem_events.mp (List.mem_toFinset.mp (Finset.mem_filter.mp he).1)
  exact ⟨hb.past c hc, hb.fresh c hc⟩

/-- What is seen after a call was recorded: unless Redis dropped the key, when the
window is past. -/
theorem Tracks.seen_recorded (h : Tracks key limit window s) (hwindow : 0 < window)
    (hb : Before s.calls a) (now : Rat) :
    seen key window (recorded key window s.redis a) now =
      (insert (toLex (a.time, a.member)) (seen key window s.redis a.time)).filter
        fun e => now - window < (ofLex e).1 := by
  have hkept : (seen key window s.redis a.time).filter (fun e => (ofLex e).2 ≠ a.member) =
      seen key window s.redis a.time :=
    Finset.filter_true_of_mem fun e he => (h.mem_seen hb he).2
  unfold seen recorded
  rw [Redis.visible_record (by omega), visible_pruned, hkept]
  split
  · rfl
  · next hgone =>
    have hold : a.time ≤ now - window := window_outlived hgone
    rw [Finset.filter_empty]
    refine (Finset.filter_false_of_mem fun e he => not_lt.mpr ?_).symm
    rcases Finset.mem_insert.mp he with rfl | he
    · exact hold
    · exact (h.mem_seen hb he).1.trans hold

theorem Tracks.serve_allowed (h : Tracks key limit window s) (hwindow : 0 < window)
    (hb : Before s.calls a) (hroom : ((seen key window s.redis a.time).card : Int) < limit) :
    Tracks key limit window ⟨recorded key window s.redis a, s.calls ++ [⟨a, true, 0⟩]⟩ := by
  refine ⟨?_, fun now hnow => ?_, fun now => ?_⟩
  · obtain ⟨k, hk⟩ : ∃ k, limit.toNat = k + 1 := ⟨limit.toNat - 1, by omega⟩
    have hcount : countAfter (window : Rat) a.time (allowedTimes s.calls) ≤ k := by
      rw [← h.card_seen hb]
      omega
    have hbounded := h.bounded
    rw [hk] at hbounded ⊢
    rw [allowedTimes_append]
    exact (hbounded.cons hcount).perm (List.perm_append_singleton _ _).symm
  · have hlater : a.time ≤ now := hnow ⟨a, true, 0⟩ (by simp)
    rw [h.seen_recorded hwindow hb, h.kept a.time hb.past, events_append]
    ext e
    simp only [events, Finset.mem_filter, Finset.mem_insert, List.mem_toFinset, List.mem_append]
    constructor
    · rintro ⟨rfl | ⟨he, -⟩, hnew⟩
      · exact ⟨.inr (by simp), hnew⟩
      · exact ⟨.inl he, hnew⟩
    · rintro ⟨he | he, hnew⟩
      · refine ⟨.inr ⟨he, ?_⟩, hnew⟩
        exact (sub_le_sub_right hlater _).trans_lt hnew
      · exact ⟨.inl (by simpa using he), hnew⟩
  · unfold recorded
    rw [Redis.visible_record (by omega), visible_pruned]
    split
    · have hle := Finset.card_insert_le (toLex (a.time, a.member))
        ((seen key window s.redis a.time).filter fun e => (ofLex e).2 ≠ a.member)
      have hfilter := Finset.card_filter_le (seen key window s.redis a.time)
        fun e => (ofLex e).2 ≠ a.member
      omega
    · simp only [Finset.card_empty, Nat.cast_zero]
      omega

/-- A denied call is not recorded. -/
theorem Tracks.append_denied (h : Tracks key limit window s) (r : Int) :
    Tracks key limit window ⟨s.redis, s.calls ++ [⟨a, false, r⟩]⟩ := by
  have htimes : allowedTimes (s.calls ++ [⟨a, false, r⟩]) = allowedTimes s.calls := by
    rw [allowedTimes_append]
    simp [allowedTimes]
  have hevents : events (s.calls ++ [⟨a, false, r⟩]) = events s.calls := by
    rw [events_append]
    simp [events]
  refine ⟨?_, fun now hnow => ?_, h.small⟩
  · rw [htimes]
    exact h.bounded
  · rw [hevents]
    exact h.kept now fun c hc => hnow c (List.mem_append_left _ hc)

/-- Each call keeps the invariant. -/
theorem Tracks.serve (h : Tracks key limit window s) (hlimit : 1 ≤ limit) (hwindow : 0 < window)
    (hb : Before s.calls a) : Tracks key limit window (serve key limit window s a) := by
  by_cases hfull : limit ≤ ((seen key window s.redis a.time).card : Int)
  · rw [h.serve_denied hlimit hfull]
    exact h.append_denied _
  · rw [RedisRateLimiter.serve_allowed (not_le.mp hfull)]
    exact h.serve_allowed hwindow hb (not_le.mp hfull)

end Step

/-! ## Whole runs -/

/-- Times that never go back, and a `uuid4` drawn once only. -/
structure Orderly (attempts : List Attempt) : Prop where
  ordered : attempts.Pairwise fun a b => a.time ≤ b.time
  distinct : (attempts.map fun a => a.member).Nodup

section Runs

variable {key : Str} {limit window : Int} {redis : Redis} {attempts : List Attempt}

theorem play_snoc (a : Attempt) :
    play key limit window redis (attempts ++ [a]) =
      serve key limit window (play key limit window redis attempts) a := by
  simp [play]

/-- Every call is answered. -/
theorem serve_calls (key : Str) (limit window : Int) (s : Ledger) (a : Attempt) :
    ∃ result, (serve key limit window s a).calls = s.calls ++ [⟨a, result⟩] := by
  by_cases hfull : limit ≤ ((seen key window s.redis a.time).card : Int)
  · exact ⟨_, by rw [serve_denied hfull]⟩
  · exact ⟨_, by rw [serve_allowed (not_le.mp hfull)]⟩

theorem play_attempts (key : Str) (limit window : Int) (redis : Redis)
    (attempts : List Attempt) :
    (play key limit window redis attempts).calls.map Acquired.toAttempt = attempts := by
  induction attempts using List.reverseRecOn with
  | nil => rfl
  | append_singleton attempts a ih =>
    obtain ⟨result, hcalls⟩ := serve_calls key limit window
      (play key limit window redis attempts) a
    rw [play_snoc, hcalls, List.map_append, ih]
    rfl

theorem Orderly.left {a : Attempt} {rest : List Attempt} (h : Orderly (attempts ++ a :: rest)) :
    Orderly attempts :=
  ⟨(List.pairwise_append.mp h.ordered).1,
    h.distinct.sublist ((List.sublist_append_left attempts (a :: rest)).map _)⟩

theorem Orderly.before {a : Attempt} {rest : List Attempt} (h : Orderly (attempts ++ a :: rest)) :
    Before (play key limit window redis attempts).calls a := by
  have hmem : ∀ c ∈ (play key limit window redis attempts).calls, c.toAttempt ∈ attempts := by
    intro c hc
    rw [← play_attempts key limit window redis attempts]
    exact List.mem_map_of_mem hc
  refine ⟨fun c hc => ?_, ?_, fun c hc => ?_⟩
  · exact (List.pairwise_append.mp h.ordered).2.2 _ (hmem c hc) a List.mem_cons_self
  · have hmembers := congrArg (List.map fun a : Attempt => a.member)
      (play_attempts key limit window redis attempts)
    rw [List.map_map] at hmembers
    have hleft := h.left.distinct
    rw [← hmembers] at hleft
    exact hleft
  · have hdistinct := h.distinct
    rw [List.map_append, List.nodup_append] at hdistinct
    exact hdistinct.2.2 _ (List.mem_map_of_mem (hmem c hc)) _ (by simp)

theorem play_tracks (hlimit : 1 ≤ limit) (hwindow : 0 < window)
    (hnone : redis (keyPrefix ++ key) = none) (h : Orderly attempts) :
    Tracks key limit window (play key limit window redis attempts) := by
  induction attempts using List.reverseRecOn with
  | nil => exact Tracks.empty redis hnone hlimit
  | append_singleton attempts a ih =>
    rw [play_snoc]
    exact (ih h.left).serve hlimit hwindow h.before

/-- Where a call stands in the run, it was answered after the calls before it. -/
theorem play_split {pre post : List Acquired} {c : Acquired}
    (h : (play key limit window redis attempts).calls = pre ++ c :: post) :
    ∃ before after, attempts = before ++ c.toAttempt :: after ∧
      (play key limit window redis before).calls = pre ∧
      (serve key limit window (play key limit window redis before) c.toAttempt).calls =
        pre ++ [c] := by
  induction attempts using List.reverseRecOn generalizing post with
  | nil => exact absurd h (by simp [play])
  | append_singleton attempts a ih =>
    obtain ⟨result, hcalls⟩ := serve_calls key limit window
      (play key limit window redis attempts) a
    rw [play_snoc] at h
    cases post using List.reverseRecOn with
    | nil =>
      obtain ⟨hpre, hc⟩ := List.append_inj' (hcalls.symm.trans h) rfl
      cases hc
      exact ⟨attempts, [], rfl, hpre, h⟩
    | append_singleton post d =>
      rw [hcalls, ← List.cons_append, ← List.append_assoc] at h
      obtain ⟨before, after, hattempts, hpre, hserve⟩ := ih (List.append_inj' h rfl).1
      exact ⟨before, after ++ [a], by rw [hattempts]; simp, hpre, hserve⟩

end Runs

/-! ## The limiter -/

/-- The number on the message is at least the hint. -/
def ShownAtLeast (i18n : I18n) (hint : Int) : Prop :=
  (∃ seconds, formatRetryAfter i18n hint =
      i18n.get "rate-limit-seconds" [(str "seconds", .number seconds)] ∧ hint ≤ seconds) ∨
    ∃ minutes, formatRetryAfter i18n hint =
      i18n.get "rate-limit-minutes" [(str "minutes", .number minutes)] ∧ hint ≤ 60 * minutes

/-- An exact sliding window with an honest hint. -/
structure ExactWindow (key : Str) (limit window : Int) (redis : Redis)
    (attempts : List Attempt) : Prop where
  bounded : ∀ t, (count (window : Rat) t
    (allowedTimes (play key limit window redis attempts).calls) : Int) ≤ limit
  denied : ∀ pre c post, (play key limit window redis attempts).calls = pre ++ c :: post →
    (c.result.allowed = false ↔
      (count (window : Rat) c.time (allowedTimes pre) : Int) = limit)
  unchanged : ∀ before a after result, attempts = before ++ a :: after →
    (play key limit window redis (before ++ [a])).calls =
      (play key limit window redis before).calls ++ [⟨a, result⟩] → result.allowed = false →
    (play key limit window redis (before ++ [a])).redis = (play key limit window redis before).redis
  kept : ∀ t, (∀ a ∈ attempts, a.time ≤ t) →
    ∀ c ∈ (play key limit window redis attempts).calls, c.result.allowed = true →
      t - window < c.time →
      toLex (c.time, c.member) ∈ (play key limit window redis attempts).redis.visible
        (serverTime t) (keyPrefix ++ key)
  hinted : ∀ c ∈ (play key limit window redis attempts).calls, c.result.allowed = false →
    1 ≤ c.result.retryAfterSeconds ∧ c.result.retryAfterSeconds ≤ window + 1 ∧
      ∀ i18n, ShownAtLeast i18n c.result.retryAfterSeconds
  honest : ∀ pre c mid c' post,
    (play key limit window redis attempts).calls = pre ++ c :: (mid ++ c' :: post) →
    c.result.allowed = false → (∀ d ∈ mid, d.result.allowed = false) →
    c.time + (c.result.retryAfterSeconds : Rat) ≤ c'.time → c'.result.allowed = true

theorem shownAtLeast (i18n : I18n) (hint : Int) : ShownAtLeast i18n hint := by
  unfold ShownAtLeast formatRetryAfter
  split
  · exact .inl ⟨hint, rfl, le_rfl⟩
  · exact .inr ⟨_, rfl, by omega⟩

section Hints

variable {key : Str} {limit window : Int} {s : Ledger} {a : Attempt}

/-- The hint of a denied call is the time until its oldest event is out, in whole
seconds and rounded up. -/
theorem Tracks.hint_spec (h : Tracks key limit window s) (hb : Before s.calls a)
    (hne : (seen key window s.redis a.time).Nonempty) :
    ∃ e ∈ seen key window s.redis a.time,
      (ofLex e).1 + window < a.time + hint key window s.redis a.time ∧
      1 ≤ hint key window s.redis a.time ∧ hint key window s.redis a.time ≤ window + 1 := by
  obtain ⟨oldest, ⟨e, he, rfl⟩, -, hhint⟩ := hint_eq hne
  have hlate : a.time - window < (ofLex e).1 := (Finset.mem_filter.mp he).2
  have hpast : (ofLex e).1 ≤ a.time := (h.mem_seen hb he).1
  have hpos : (0 : Rat) ≤ (ofLex e).1 + window - a.time := by linarith
  have hfloor : (0 : Int) ≤ ((ofLex e).1 + window - a.time).floor :=
    Rat.le_floor_iff.mpr (by exact_mod_cast hpos)
  have hwide : ((ofLex e).1 + window - a.time).floor ≤ window := by
    have hle : ((ofLex e).1 + window - a.time).floor ≤ ((window : Int) : Rat).floor :=
      Rat.floor_monotone (by linarith)
    rwa [Rat.floor_intCast] at hle
  have hround : hint key window s.redis a.time =
      ((ofLex e).1 + window - a.time).floor + 1 := by
    rw [hhint, pyInt, if_pos hpos]
    exact max_eq_right (by omega)
  refine ⟨e, he, ?_, by omega, by omega⟩
  have hlt := Rat.lt_floor_add_one ((ofLex e).1 + window - a.time)
  rw [← hround] at hlt
  linarith

theorem serve_eq_denied {result : RateLimitResult} (hcalls :
    (serve key limit window s a).calls = s.calls ++ [⟨a, result⟩])
    (hdenied : result.allowed = false) :
    limit ≤ ((seen key window s.redis a.time).card : Int) ∧
      result = ⟨false, hint key window s.redis a.time⟩ := by
  by_cases hfull : limit ≤ ((seen key window s.redis a.time).card : Int)
  · rw [serve_denied hfull] at hcalls
    have hlast := List.append_cancel_left hcalls
    cases hlast
    exact ⟨hfull, rfl⟩
  · rw [serve_allowed (not_le.mp hfull)] at hcalls
    have hlast := List.append_cancel_left hcalls
    cases hlast
    exact absurd hdenied (by simp)

theorem serve_eq_allowed {result : RateLimitResult} (hcalls :
    (serve key limit window s a).calls = s.calls ++ [⟨a, result⟩])
    (hroom : ((seen key window s.redis a.time).card : Int) < limit) : result.allowed = true := by
  rw [serve_allowed hroom] at hcalls
  have hlast := List.append_cancel_left hcalls
  cases hlast
  rfl

/-- Denied exactly when as many calls as the limit were allowed in the window. -/
theorem Tracks.denied_iff (h : Tracks key limit window s) (hlimit : 1 ≤ limit)
    (hb : Before s.calls a) {result : RateLimitResult}
    (hcalls : (RedisRateLimiter.serve key limit window s a).calls = s.calls ++ [⟨a, result⟩]) :
    result.allowed = false ↔
      (count (window : Rat) a.time (allowedTimes s.calls) : Int) = limit := by
  have hcount : (seen key window s.redis a.time).card =
      count (window : Rat) a.time (allowedTimes s.calls) := by
    rw [h.card_seen hb, count_eq_countAfter (times_past hb)]
  have hle := h.bounded a.time
  constructor
  · intro hdenied
    have hfull := (serve_eq_denied hcalls hdenied).1
    omega
  · intro heq
    rw [RedisRateLimiter.serve_denied (by omega)] at hcalls
    have hlast := List.append_cancel_left hcalls
    cases hlast
    rfl

end Hints

section Window

variable {key : Str} {limit window : Int} {redis : Redis} {attempts : List Attempt}
  (hlimit : 1 ≤ limit) (hwindow : 0 < window) (hnone : redis (keyPrefix ++ key) = none)
  (horderly : Orderly attempts)
include hlimit hwindow hnone horderly

/-- A call of the run, in the state that it found. -/
theorem call_at {pre post : List Acquired} {c : Acquired}
    (h : (play key limit window redis attempts).calls = pre ++ c :: post) :
    ∃ s : Ledger, s.calls = pre ∧ Tracks key limit window s ∧ Before s.calls c.toAttempt ∧
      (serve key limit window s c.toAttempt).calls = s.calls ++ [c] := by
  obtain ⟨before, after, rfl, hpre, hserve⟩ := play_split h
  exact ⟨play key limit window redis before, hpre,
    play_tracks hlimit hwindow hnone horderly.left, horderly.before, hserve.trans (by rw [hpre])⟩

/-- A call after the hint, with nothing allowed in between. -/
theorem allowed_after_hint {pre mid post : List Acquired} {c c' : Acquired}
    (h : (play key limit window redis attempts).calls = pre ++ c :: (mid ++ c' :: post))
    (hc : c.result.allowed = false) (hmid : ∀ d ∈ mid, d.result.allowed = false)
    (hlate : c.time + (c.result.retryAfterSeconds : Rat) ≤ c'.time) :
    c'.result.allowed = true := by
  obtain ⟨s, rfl, htracks, hbefore, hserve⟩ := call_at hlimit hwindow hnone horderly h
  rw [← List.cons_append, ← List.append_assoc] at h
  obtain ⟨s', hcalls', htracks', hbefore', hserve'⟩ := call_at hlimit hwindow hnone horderly h
  obtain ⟨hfull, hresult⟩ := serve_eq_denied hserve hc
  have hne : (seen key window s.redis c.time).Nonempty := by
    rw [← Finset.card_pos]
    omega
  obtain ⟨e, he, hout, -, -⟩ := htracks.hint_spec hbefore hne
  have hhint : c.result.retryAfterSeconds = hint key window s.redis c.time := by rw [hresult]
  rw [← hhint] at hout
  -- Nothing was recorded since, and the oldest event is out.
  have hevents : events s'.calls = events s.calls := by
    have hnew : events (c :: mid) = [] := by
      simp only [events, List.map_eq_nil_iff, List.filter_eq_nil_iff]
      intro d hd
      rcases List.mem_cons.mp hd with rfl | hd
      · simp [hc]
      · simp [hmid d hd]
    rw [hcalls', events_append, hnew, List.append_nil]
  have hsub : seen key window s'.redis c'.time ⊆ (seen key window s.redis c.time).erase e := by
    intro d hd
    rw [htracks'.kept _ hbefore'.past, hevents] at hd
    obtain ⟨hmem, hnew⟩ := Finset.mem_filter.mp hd
    refine Finset.mem_erase.mpr ⟨?_, ?_⟩
    · rintro rfl
      linarith
    · rw [htracks.kept _ hbefore.past]
      refine Finset.mem_filter.mpr ⟨hmem, ?_⟩
      have hpos : (0 : Rat) ≤ (c.result.retryAfterSeconds : Rat) := by
        have hone := (htracks.hint_spec hbefore hne).choose_spec.2.2.1
        rw [← hhint] at hone
        exact_mod_cast (show (0 : Int) ≤ c.result.retryAfterSeconds by omega)
      linarith
  have hroom : ((seen key window s'.redis c'.time).card : Int) < limit := by
    have hle := Finset.card_le_card hsub
    have herase := Finset.card_erase_lt_of_mem he
    have hsmall := htracks.small (serverTime c.time)
    have hseen := Finset.card_filter_le (s.redis.visible (serverTime c.time) (keyPrefix ++ key))
      fun e => c.time - window < (ofLex e).1
    simp only [seen] at hle herase ⊢
    omega
  exact serve_eq_allowed hserve' hroom

end Window

/-- One call after another, the limiter is an exact sliding window. -/
theorem acquire_exact_window (key : Str) (limit window : Int) (redis : Redis)
    (attempts : List Attempt) (hlimit : 1 ≤ limit) (hwindow : 0 < window)
    (hnone : redis (keyPrefix ++ key) = none) (horderly : Orderly attempts) :
    ExactWindow key limit window redis attempts := by
  have htracks : Tracks key limit window (play key limit window redis attempts) :=
    play_tracks hlimit hwindow hnone horderly
  refine ⟨fun t => ?_, ?_, ?_, ?_, ?_, ?_⟩
  · have hle := htracks.bounded t
    omega
  · intro pre c post h
    obtain ⟨s, rfl, hs, hbefore, hserve⟩ := call_at hlimit hwindow hnone horderly h
    exact hs.denied_iff hlimit hbefore hserve
  · rintro before a after result rfl hcalls hdenied
    have hs : Tracks key limit window (play key limit window redis before) :=
      play_tracks hlimit hwindow hnone horderly.left
    rw [play_snoc] at hcalls ⊢
    rw [hs.serve_denied hlimit (serve_eq_denied hcalls hdenied).1]
  · intro t ht c hc hallowed hnew
    have hpast : ∀ d ∈ (play key limit window redis attempts).calls, d.time ≤ t := by
      intro d hd
      refine ht d.toAttempt ?_
      rw [← play_attempts key limit window redis attempts]
      exact List.mem_map_of_mem hd
    have hevent : toLex (c.time, c.member) ∈
        (events (play key limit window redis attempts).calls).toFinset.filter
          fun e => t - window < (ofLex e).1 :=
      Finset.mem_filter.mpr
        ⟨List.mem_toFinset.mpr (mem_events.mpr ⟨c, hc, hallowed, rfl⟩), hnew⟩
    rw [← htracks.kept t hpast] at hevent
    exact (Finset.mem_filter.mp hevent).1
  · intro c hc hdenied
    obtain ⟨pre, post, h⟩ := List.append_of_mem hc
    obtain ⟨s, rfl, hs, hbefore, hserve⟩ := call_at hlimit hwindow hnone horderly h
    obtain ⟨hfull, hresult⟩ := serve_eq_denied hserve hdenied
    have hne : (seen key window s.redis c.time).Nonempty := by
      rw [← Finset.card_pos]
      omega
    obtain ⟨e, -, -, hone, hwide⟩ := hs.hint_spec hbefore hne
    rw [hresult]
    exact ⟨hone, hwide, fun i18n => shownAtLeast i18n _⟩
  · intro pre c mid c' post h hc hmid hlate
    exact allowed_after_hint hlimit hwindow hnone horderly h hc hmid hlate

/-- Two calls a minute: the third is denied for 31 seconds, and then allowed. -/
theorem acquire_exact_window_minute :
    ExactWindow (str "1") 2 60 (fun _ => none) [⟨0, 1⟩, ⟨10, 2⟩, ⟨59 / 2, 3⟩, ⟨121 / 2, 4⟩] ∧
      (play (str "1") 2 60 (fun _ => none) [⟨0, 1⟩, ⟨10, 2⟩, ⟨59 / 2, 3⟩, ⟨121 / 2, 4⟩]).calls.map
        (fun c => c.result) = [⟨true, 0⟩, ⟨true, 0⟩, ⟨false, 31⟩, ⟨true, 0⟩] :=
  ⟨acquire_exact_window _ _ _ _ _ (by decide) (by decide) rfl
    ⟨by decide +kernel, by decide⟩, by decide +kernel⟩

end RedisRateLimiter

end MediaDownloader
