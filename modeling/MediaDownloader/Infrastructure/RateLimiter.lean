import Mathlib.Algebra.Order.Ring.Rat
import MediaDownloader.Application.Ports
import MediaDownloader.Lib.SortedSet

/-!
# RedisRateLimiter

`acquire` as a program over its clock, its Redis commands and `uuid4`, and what
those commands do to a sorted set with an expiry.  `RateWindow.lean` runs the
calls one by one, `RateRace.lean` side by side.

* `visible_prune`, `visible_record`: what can be seen after the two pipelines;
* `acquire_denied`, `acquire_allowed`: what an undisturbed `acquire` returns.
-/

namespace MediaDownloader

open Interaction

/-! ## Redis -/

/-- A key of Redis that holds a sorted set; it expires by the clock of the server,
in milliseconds. -/
structure ZKey where
  set : SortedSet Rat Nat
  expireAt : Option Int

abbrev Redis := Str → Option ZKey

namespace Redis

def put (r : Redis) (key : Str) (z : Option ZKey) : Redis := fun k => if k = key then z else r k

/-- The key, unless it has expired. -/
def get (r : Redis) (now : Int) (key : Str) : Option ZKey :=
  (r key).filter fun z => z.expireAt.all fun at' => now ≤ at'

/-- The sorted set of a key, empty without one. -/
def zset (r : Redis) (now : Int) (key : Str) : SortedSet Rat Nat :=
  match r.get now key with
  | some z => z.set
  | none => .empty

/-- A key whose last member goes is deleted. -/
def zremrangebyscore (r : Redis) (now : Int) (key : Str) (max : Rat) : Redis :=
  r.put key ((r.get now key).bind fun z =>
    if (z.set.removeUpTo max).card = 0 then none else some { z with set := z.set.removeUpTo max })

def zcard (r : Redis) (now : Int) (key : Str) : Nat := (r.zset now key).card

/-- `ZRANGE key 0 0 WITHSCORES`. -/
def zrangeFirst (r : Redis) (now : Int) (key : Str) : Option Rat := (r.zset now key).first

/-- A key that is there keeps its expiry. -/
def zadd (r : Redis) (now : Int) (key : Str) (member : Nat) (score : Rat) : Redis :=
  r.put key (some ⟨(r.zset now key).add member score, (r.get now key).bind ZKey.expireAt⟩)

/-- A time to live that is not positive deletes the key. -/
def expire (r : Redis) (now : Int) (key : Str) (seconds : Int) : Redis :=
  r.put key ((r.get now key).bind fun z =>
    if seconds ≤ 0 then none else some { z with expireAt := some (now + 1000 * seconds) })

end Redis

/-! ## The source -/

/-- What `acquire` awaits or reads: the clock, its three round trips and `uuid4`. -/
inductive LimiterCall where
  | time
  | pruneAndCount (redisKey : Str) (windowStart : Rat)
  | oldest (redisKey : Str)
  | uuid4
  | record (redisKey : Str) (member : Nat) (score : Rat) (ttl : Int)

abbrev LimiterCall.Resp : LimiterCall → Type
  | .time => Rat
  | .pruneAndCount .. => Nat
  | .oldest _ => Option Rat
  | .uuid4 => Nat
  | .record .. => Unit

abbrev LimiterAct := Act LimiterCall LimiterCall.Resp Exc

namespace RedisRateLimiter

def keyPrefix : Str := str "umd:ratelimit:"

/-- `int(x)`, which truncates. -/
def pyInt (q : Rat) : Int := if 0 ≤ q then q.floor else q.ceil

/-- The `retry_after` of a denied call. -/
def retryAfter (oldest : Option Rat) (windowSeconds : Int) (now : Rat) : Int :=
  match oldest with
  | some oldestScore => max 1 (pyInt (oldestScore + windowSeconds - now) + 1)
  -- Emptied between the two commands.
  | none => 1

def acquire (key : Str) (limit windowSeconds : Int) : LimiterAct RateLimitResult := do
  let redisKey := keyPrefix ++ key
  let now ← Act.port .time
  let windowStart := now - windowSeconds
  let currentCount ← Act.port (.pruneAndCount redisKey windowStart)
  if limit ≤ (currentCount : Int) then do
    let oldest ← Act.port (.oldest redisKey)
    pure ⟨false, retryAfter oldest windowSeconds now⟩
  else do
    let member ← Act.port .uuid4
    let _ ← Act.port (.record redisKey member now (windowSeconds + 60))
    pure ⟨true, 0⟩

end RedisRateLimiter

/-! ## What the commands do -/

/-- The pipelines of the limiter at the server's time `now`. -/
def LimiterCall.apply (now : Int) : LimiterCall → Redis → Redis
  | .pruneAndCount key start, r => r.zremrangebyscore now key start
  | .record key member score ttl, r => (r.zadd now key member score).expire now key ttl
  | _, r => r

/-- What Redis answers: of `pruneAndCount` the cardinality after the removal. -/
def LimiterCall.reply (now : Int) (time : Rat) (member : Nat) :
    (c : LimiterCall) → Redis → c.Resp
  | .time, _ => time
  | .pruneAndCount key start, r => (r.zremrangebyscore now key start).zcard now key
  | .oldest key, r => r.zrangeFirst now key
  | .uuid4, _ => member
  | .record .., _ => ()

namespace Redis

/-- The entries of a key that a command at `now` finds. -/
def visible (r : Redis) (now : Int) (key : Str) : Finset (Rat ×ₗ Nat) := (r.zset now key).entries

section Visible

variable {r : Redis} {now now' : Int} {key : Str}

theorem visible_of_get {z : ZKey} (h : r.get now key = some z) :
    r.visible now key = z.set.entries := by
  simp only [visible, zset, h]

theorem visible_of_get_none (h : r.get now key = none) : r.visible now key = ∅ := by
  simp only [visible, zset, h]
  rfl

theorem get_put (z : Option ZKey) :
    (r.put key z).get now key = z.filter fun z => z.expireAt.all fun at' => now ≤ at' := by
  simp [get, put]

theorem visible_put_live {z : ZKey} (h : z.expireAt.all fun at' => now ≤ at') :
    (r.put key (some z)).visible now key = z.set.entries :=
  visible_of_get (by rw [get_put]; exact Option.filter_eq_some_iff.mpr ⟨rfl, h⟩)

theorem visible_put_expired {z : ZKey} (h : ¬ z.expireAt.all fun at' => now ≤ at') :
    (r.put key (some z)).visible now key = ∅ :=
  visible_of_get_none (by
    rw [get_put]
    exact Option.filter_eq_none_iff.mpr fun _ hz => by cases hz; exact h)

theorem visible_put_none : (r.put key none).visible now key = ∅ :=
  visible_of_get_none (by rw [get_put]; rfl)

/-- A key that is expired stays so. -/
theorem get_none_mono (hle : now ≤ now') (h : r.get now key = none) : r.get now' key = none := by
  refine Option.filter_eq_none_iff.mpr fun z hz hlive => ?_
  refine Option.filter_eq_none_iff.mp h z hz ?_
  cases he : z.expireAt with
  | none => rfl
  | some at' =>
    simp only [he, Option.all_some, decide_eq_true_eq] at hlive ⊢
    omega

theorem visible_prune (hle : now ≤ now') (bound : Rat) :
    (r.zremrangebyscore now key bound).visible now' key =
      (r.visible now' key).filter fun e => bound < (ofLex e).1 := by
  unfold zremrangebyscore
  cases hnow : r.get now key with
  | none =>
    rw [visible_of_get_none (get_none_mono hle hnow), Finset.filter_empty]
    exact visible_put_none
  | some z =>
    have hz : r key = some z := (Option.filter_eq_some_iff.mp hnow).1
    rw [Option.bind_some]
    by_cases hlive : z.expireAt.all fun at' => now' ≤ at'
    · have hlater : r.get now' key = some z := Option.filter_eq_some_iff.mpr ⟨hz, hlive⟩
      rw [visible_of_get hlater]
      split
      · next hcard => exact visible_put_none.trans (Finset.card_eq_zero.mp hcard).symm
      · exact visible_put_live hlive
    · have hlater : r.get now' key = none := by
        rw [get, hz]
        exact Option.filter_eq_none_iff.mpr fun _ h => by cases h; exact hlive
      rw [visible_of_get_none hlater, Finset.filter_empty]
      split
      · exact visible_put_none
      · exact visible_put_expired hlive

theorem visible_record {ttl : Int} (httl : 0 < ttl) (member : Nat) (score : Rat) :
    ((r.zadd now key member score).expire now key ttl).visible now' key =
      if now' ≤ now + 1000 * ttl then
        insert (toLex (score, member)) ((r.visible now key).filter fun e => (ofLex e).2 ≠ member)
      else ∅ := by
  have hadded : (r.zadd now key member score).get now key =
      some ⟨(r.zset now key).add member score, (r.get now key).bind ZKey.expireAt⟩ := by
    unfold zadd
    rw [get_put]
    refine Option.filter_eq_some_iff.mpr ⟨rfl, ?_⟩
    cases hnow : r.get now key with
    | none => rfl
    | some z => exact (Option.filter_eq_some_iff.mp hnow).2
  unfold expire
  rw [hadded, Option.bind_some, if_neg (by omega)]
  split
  · next hle => exact visible_put_live (by simpa using hle)
  · next hgt => exact visible_put_expired (by simpa using hgt)

/-- Where nothing is removed, nothing changes. -/
theorem prune_self {bound : Rat} (hne : (r.visible now key).Nonempty)
    (h : ∀ e ∈ r.visible now key, bound < (ofLex e).1) :
    r.zremrangebyscore now key bound = r := by
  cases hnow : r.get now key with
  | none =>
    rw [visible_of_get_none hnow] at hne
    exact absurd hne Finset.not_nonempty_empty
  | some z =>
    rw [visible_of_get hnow] at hne h
    have hsame : z.set.removeUpTo bound = z.set := by
      have hentries : (z.set.removeUpTo bound).entries = z.set.entries :=
        Finset.filter_true_of_mem h
      cases hset : z.set
      simpa [SortedSet.removeUpTo, hset] using hentries
    have hcard : z.set.card ≠ 0 := Finset.card_ne_zero.mpr hne
    funext k
    simp only [zremrangebyscore, put, hnow, Option.bind_some, hsame, if_neg hcard]
    split
    · next hk => rw [hk, (Option.filter_eq_some_iff.mp hnow).1]
    · rfl

end Visible

end Redis

/-! ## One call at one time -/

/-- `time.time()` as Redis reads it. -/
def serverTime (t : Rat) : Int := (t * 1000).floor

/-- Everything at the time `now`, with the next `uuid4`. -/
def atOnce (now : Rat) (member : Nat) : Handler LimiterCall LimiterCall.Resp Exc Redis where
  answer r c := .ok (c.reply (serverTime now) now member r)
  next r c _ := c.apply (serverTime now) r

namespace RedisRateLimiter

theorem acquire_denied {r : Redis} {key : Str} {limit window : Int} {now : Rat} {member : Nat}
    (h : limit ≤ ((r.zremrangebyscore (serverTime now) (keyPrefix ++ key) (now - window)).zcard
      (serverTime now) (keyPrefix ++ key) : Int)) :
    (acquire key limit window).handle (atOnce now member) r =
      (r.zremrangebyscore (serverTime now) (keyPrefix ++ key) (now - window), .ok ⟨false,
        retryAfter ((r.zremrangebyscore (serverTime now) (keyPrefix ++ key)
          (now - window)).zrangeFirst (serverTime now) (keyPrefix ++ key)) window now⟩) := by
  simp only [acquire, handle_act_bind, handle_port, atOnce, LimiterCall.reply, LimiterCall.apply,
    if_pos h, handle_pure]

theorem acquire_allowed {r : Redis} {key : Str} {limit window : Int} {now : Rat} {member : Nat}
    (h : ¬ limit ≤ ((r.zremrangebyscore (serverTime now) (keyPrefix ++ key) (now - window)).zcard
      (serverTime now) (keyPrefix ++ key) : Int)) :
    (acquire key limit window).handle (atOnce now member) r =
      ((((r.zremrangebyscore (serverTime now) (keyPrefix ++ key) (now - window)).zadd
        (serverTime now) (keyPrefix ++ key) member now).expire (serverTime now) (keyPrefix ++ key)
          (window + 60)), .ok ⟨true, 0⟩) := by
  simp only [acquire, handle_act_bind, handle_port, atOnce, LimiterCall.reply, LimiterCall.apply,
    if_neg h, handle_pure]

end RedisRateLimiter

end MediaDownloader
