import Mathlib.Tactic.Linarith
import MediaDownloader.Lib.Interleaving
import MediaDownloader.Lib.SlidingWindow
import MediaDownloader.Infrastructure.RateLimiter

/-!
# The race of the rate limiter

Any number of `acquire` calls on one key, interleaved at their round trips; every
pipeline is atomic.

* `Paced`: one clock, and whenever a call passes few others are out of its sight,
  which is between their count and their record;
* `lasting`: what has been recorded can be seen for as long as the key lives;
* `race_costs_one_when`: with one other call out of sight at a time, no window ever
  holds more than one event too many;
* `race_costs_more`: three calls at once on a limit of one.
-/

namespace MediaDownloader

open Interaction SlidingWindow

namespace RedisRateLimiter

/-! ## The system -/

/-- Redis, the clock of the bot and that of the server, and the `uuid4`s drawn. -/
structure RaceState where
  redis : Redis
  clock : Rat
  server : Int
  drawn : List Nat

/-- Redis answers from what it holds, `uuid4` is never drawn twice. -/
inductive RaceAnswer (s : RaceState) :
    (c : LimiterCall) → Except Exc c.Resp → RaceState → Prop
  | time : RaceAnswer s .time (.ok s.clock) s
  | pruneAndCount (key : Str) (start : Rat) :
      RaceAnswer s (.pruneAndCount key start)
        (.ok ((s.redis.zremrangebyscore s.server key start).zcard s.server key))
        { s with redis := s.redis.zremrangebyscore s.server key start }
  | oldest (key : Str) : RaceAnswer s (.oldest key) (.ok (s.redis.zrangeFirst s.server key)) s
  | uuid4 (member : Nat) : member ∉ s.drawn →
      RaceAnswer s .uuid4 (.ok member) { s with drawn := member :: s.drawn }
  | record (key : Str) (member : Nat) (score : Rat) (ttl : Int) :
      RaceAnswer s (.record key member score ttl) (.ok ())
        { s with redis := (s.redis.zadd s.server key member score).expire s.server key ttl }

/-- The calls of `acquire` on one key; the clocks may do anything in between. -/
def raceSystem (key : Str) (limit window : Int) :
    System LimiterCall LimiterCall.Resp Exc Unit RaceState where
  code _ := Prog.map (fun _ => ()) (acquire key limit window)
  start _ _ := True
  answer s _ c r s' := RaceAnswer s c r s'
  drift s s' := s'.redis = s.redis ∧ s'.drawn = s.drawn

abbrev RaceConf := Conf LimiterCall LimiterCall.Resp Exc Unit RaceState

abbrev RaceEvent := Event LimiterCall LimiterCall.Resp Exc

/-! ## What a call has done -/

/-- A count below the limit: the time of the call that passed. -/
def passTime (limit window : Int) : RaceEvent → Option Rat
  | ⟨.pruneAndCount _ start, .ok n⟩ =>
    if ((n : Nat) : Int) < limit then some (start + window) else none
  | _ => none

theorem passTime_count (limit window : Int) (redisKey : Str) (start : Rat) (n : Nat) :
    passTime limit window ⟨.pruneAndCount redisKey start, .ok n⟩ =
      if (n : Int) < limit then some (start + window) else none := rfl

def drawnMember : RaceEvent → Option Nat
  | ⟨.uuid4, .ok member⟩ => some member
  | _ => none

/-- The event that was recorded. -/
def recordedEvent : RaceEvent → Option (Rat ×ₗ Nat)
  | ⟨.record _ member score _, .ok _⟩ => some (toLex (score, member))
  | _ => none

/-- Its time. -/
def recordedTime (e : RaceEvent) : Option Rat := (recordedEvent e).map fun e => (ofLex e).1

/-- The events later than `start` that a count now would find. -/
def countable (key : Str) (c : RaceConf) (start : Rat) : Finset (Rat ×ₗ Nat) :=
  (c.shared.redis.visible c.shared.server (keyPrefix ++ key)).filter fun e => start < (ofLex e).1

/-- The calls later than `start` that have passed, but that a count now would not
find: not recorded yet, or no longer there. -/
def unseen (key : Str) (limit window : Int) (c : RaceConf) (start : Rat) : Nat :=
  c.threads.countP fun th =>
    (th.trace.findSome? (passTime limit window)).any (fun s => start < s) &&
      (th.trace.findSome? recordedEvent).all fun e => e ∉ countable key c start

/-! ## The schedule -/

/-- A count by a clock a window later than `s`. -/
def prunes (s : Rat) : RaceEvent → Bool
  | ⟨.pruneAndCount _ start, _⟩ => decide (s ≤ start)
  | _ => false

/-- Some call has made one. -/
def prunedByAny (c : RaceConf) (s : Rat) : Bool := c.threads.any fun th => th.trace.any (prunes s)

/-- The calls later than `start` that are between their count and their record, or
whose record a call by a later clock has pruned, or is older than a key lives. -/
def outOfSight (limit window : Int) (c : RaceConf) (start : Rat) : Nat :=
  c.threads.countP fun th => (th.trace.findSome? (passTime limit window)).any fun s =>
    decide (start < s) && ((th.trace.findSome? recordedEvent).isNone || prunedByAny c s ||
      decide (s + (window + 60) < c.shared.clock))

/-- The bot and Redis read the same clock. -/
def OneClock (c : RaceConf) : Prop := c.shared.server = serverTime c.shared.clock

/-- A clock that does not go back, and at most `k` others out of the sight of a call
that passes. -/
structure Paced (k : Nat) (limit window : Int) (c : RaceConf)
    (l : Label LimiterCall LimiterCall.Resp Exc Unit) (c' : RaceConf) : Prop where
  forward : l = .drift → c.shared.clock ≤ c'.shared.clock ∧ OneClock c'
  inSight : ∀ (i : Nat) (redisKey : Str) (start : Rat) (n : Nat),
    l = .call i ⟨.pruneAndCount redisKey start, .ok n⟩ → (n : Int) < limit →
      outOfSight limit window c start ≤ k

/-! ## One call -/

/-- A call that was answered. -/
def Fine (e : RaceEvent) : Prop := ∃ a, e.resp = .ok a

/-- What `acquire` has done before each of its calls. -/
def Raced (key : Str) (limit window : Int) (done : List RaceEvent) : LimiterCall → Prop
  | .pruneAndCount redisKey start =>
    redisKey = keyPrefix ++ key ∧ ⟨.time, .ok (start + window)⟩ ∈ done ∧
      done.findSome? (passTime limit window) = none
  | .uuid4 => done.findSome? drawnMember = none
  | .record redisKey member score ttl =>
    redisKey = keyPrefix ++ key ∧ ttl = window + 60 ∧
      done.findSome? (passTime limit window) = some score ∧
      done.findSome? drawnMember = some member ∧ done.findSome? recordedEvent = none
  | _ => True

theorem wp_port_fine {allow : List RaceEvent → LimiterCall → Prop} {call : LimiterCall}
    {f : call.Resp → LimiterAct RateLimitResult} {g : List RaceEvent}
    {Q : List RaceEvent → Except Exc RateLimitResult → Prop} (hallow : allow g call)
    (h : ∀ a, wp (historyMonitor Fine allow) (f a) (g ++ [⟨call, .ok a⟩]) Q) :
    wp (historyMonitor Fine allow) (Act.port call >>= f : LimiterAct RateLimitResult) g Q := by
  refine (wp_port_bind _ _ _ _ _).mpr ⟨hallow, fun r hr => ?_⟩
  cases r with
  | ok a => exact h a
  | error e =>
    obtain ⟨a, ha⟩ := hr
    cases ha

theorem wp_acquire (key : Str) (limit window : Int) :
    wp (historyMonitor Fine (Raced key limit window))
      (Prog.map (fun _ => ()) (acquire key limit window)) [] fun _ _ => True := by
  refine (wp_map _ _ _ _ _).mpr ?_
  unfold acquire
  refine wp_port_fine trivial fun now => ?_
  refine wp_port_fine ⟨rfl, by simp [sub_add_cancel], rfl⟩ fun n => ?_
  split
  · exact wp_port_fine trivial fun oldest => trivial
  · next hroom =>
    have hpass : ((n : Nat) : Int) < limit := not_le.mp hroom
    refine wp_port_fine rfl fun member => ?_
    have hgot : passTime limit window ⟨.pruneAndCount (keyPrefix ++ key) (now - window), .ok n⟩ =
        some now := by
      rw [passTime_count, if_pos hpass, sub_add_cancel]
    refine wp_port_fine ⟨rfl, rfl, ?_, rfl, rfl⟩ fun _ => trivial
    simp only [List.nil_append, List.cons_append, List.findSome?_cons, hgot]
    rfl

section Race

variable {key : Str} {limit window : Int}
  {A : RaceConf → Label LimiterCall LimiterCall.Resp Exc Unit → RaceConf → Prop}
  {c₀ c c' : RaceConf}

/-- Before each call, every thread stands where the code says. -/
theorem raced (h : Reach (raceSystem key limit window) A c₀ c) (h0 : c₀.threads = []) :
    c.Coded (raceSystem key limit window) ∧ c.Answered Fine := by
  refine ⟨h.coded (Conf.coded_of_nil h0), h.answered ?_ (Conf.answered_of_nil h0)⟩
  intro s k cl r s' hans
  cases hans <;> exact ⟨_, rfl⟩

/-- What a thread has done before the call it makes next. -/
theorem raced_next (h : Reach (raceSystem key limit window) A c₀ c) (h0 : c₀.threads = [])
    {i : Nat} {th : Thread LimiterCall LimiterCall.Resp Exc Unit} {e : RaceEvent} {s : RaceState}
    (hcalls : c.Calls (raceSystem key limit window) i th e s) :
    Raced key limit window th.trace e.call := by
  obtain ⟨hcoded, hanswered⟩ := raced h h0
  obtain ⟨f, hf⟩ := hcalls.next
  exact hcoded.allows (fun _ => wp_acquire key limit window) hcalls.thread
    (hanswered i th hcalls.thread) hf

theorem drawn_of_uuid4 {s s' : RaceState} {m : Nat} (h : RaceAnswer s .uuid4 (.ok m) s') :
    m ∉ s.drawn ∧ s'.drawn = m :: s.drawn := by
  cases h with
  | uuid4 _ hfresh => exact ⟨hfresh, rfl⟩

/-- What was drawn stays drawn. -/
theorem drawn_mono {l : Label LimiterCall LimiterCall.Resp Exc Unit}
    (h : Step (raceSystem key limit window) c l c') {m : Nat} (hm : m ∈ c.shared.drawn) :
    m ∈ c'.shared.drawn := by
  rcases h.shared_cases with hsame | ⟨-, -, hdrawn⟩ | ⟨i, th, e, -, hcalls⟩
  · rwa [hsame]
  · rwa [hdrawn]
  · obtain ⟨call, r⟩ := e
    have hans : RaceAnswer c.shared call r c'.shared := hcalls.answer
    generalize c'.shared = s' at hans ⊢
    cases hans with
    | uuid4 => exact List.mem_cons_of_mem _ hm
    | _ => exact hm

/-- What a thread recorded is the time at which it passed, under the member it drew. -/
theorem recorded_passed (h : Reach (raceSystem key limit window) A c₀ c)
    (h0 : c₀.threads = []) {th : Thread LimiterCall LimiterCall.Resp Exc Unit}
    (hth : th ∈ c.threads) {e : Rat ×ₗ Nat} (he : th.trace.findSome? recordedEvent = some e) :
    th.trace.findSome? (passTime limit window) = some (ofLex e).1 ∧
      th.trace.findSome? drawnMember = some (ofLex e).2 := by
  obtain ⟨hcoded, hanswered⟩ := raced h h0
  obtain ⟨i, hi⟩ := List.getElem?_of_mem hth
  obtain ⟨u, ⟨call, r⟩, v, htrace, hevent, -⟩ := List.findSome?_eq_some_iff.mp he
  have hmade := hcoded.made (fun _ => wp_acquire key limit window) hi
    (fun d hd => hanswered i th hi d hd) htrace
  cases call with
  | record redisKey member score ttl =>
    cases r with
    | error e => cases hevent
    | ok a =>
      cases hevent
      obtain ⟨-, -, hpass, hdrawn, -⟩ := hmade
      rw [htrace, List.findSome?_append, List.findSome?_append, hpass, hdrawn]
      exact ⟨rfl, rfl⟩
  | _ => cases hevent

/-- No `uuid4` is drawn twice. -/
theorem drawn_nodup (h : Reach (raceSystem key limit window) A c₀ c) (h0 : c₀.threads = []) :
    (c.gather drawnMember).Nodup ∧ ∀ m ∈ c.gather drawnMember, m ∈ c.shared.drawn := by
  induction h with
  | refl => simp [Conf.gather_of_nil h0]
  | @tail c c' l hreach hstep _ ih =>
    obtain ⟨hnodup, hdrawn⟩ := ih
    by_cases hcall : ∃ i m, l = .call i ⟨.uuid4, .ok m⟩
    · obtain ⟨i, m, rfl⟩ := hcall
      obtain ⟨th, hcalls⟩ := hstep.calls
      have hperm := hstep.gather_new (g := drawnMember) rfl fun th' hi => by
        rw [hcalls.thread_eq hi]
        exact raced_next hreach h0 hcalls
      obtain ⟨hfresh, hshared⟩ := drawn_of_uuid4 hcalls.answer
      refine ⟨hperm.nodup_iff.mpr (List.nodup_cons.mpr ⟨fun hm => hfresh (hdrawn m hm), hnodup⟩),
        fun m' hm' => ?_⟩
      rw [hshared]
      exact (List.mem_cons.mp (hperm.subset hm')).elim (fun h => h ▸ List.mem_cons_self)
        fun h => List.mem_cons_of_mem _ (hdrawn m' h)
    · have hsame := hstep.gather_eq (g := drawnMember) fun i e hl => by
        obtain ⟨call, r⟩ := e
        cases call <;> cases r <;> first | rfl | exact absurd ⟨i, _, hl⟩ hcall
      rw [hsame]
      exact ⟨hnodup, fun m hm => drawn_mono hstep (hdrawn m hm)⟩

theorem recorded_nodup (h : Reach (raceSystem key limit window) A c₀ c) (h0 : c₀.threads = []) :
    (c.gather recordedEvent).Nodup := by
  have hsub : (c.gather fun e => (recordedEvent e).map fun e => (ofLex e).2).Sublist
      (c.gather drawnMember) := by
    refine Conf.gather_sublist fun th hth m hm => ?_
    obtain ⟨e, he, rfl⟩ : ∃ e, th.trace.findSome? recordedEvent = some e ∧ (ofLex e).2 = m := by
      have hmap := List.map_findSome? (f := recordedEvent) (g := fun e => (ofLex e).2)
        (l := th.trace)
      exact Option.map_eq_some_iff.mp (hmap.trans hm)
    exact (recorded_passed h h0 hth he).2
  have hnodup := (drawn_nodup h h0).1.sublist hsub
  rw [Conf.gather_map] at hnodup
  exact List.Nodup.of_map _ hnodup

/-! ## Counting -/

theorem countP_le_add {α : Type} {p q r : α → Bool} {l : List α}
    (h : ∀ a ∈ l, p a = true → q a = true ∨ r a = true) : l.countP p ≤ l.countP q + l.countP r := by
  induction l with
  | nil => simp
  | cons a l ih =>
    have htail := ih fun b hb => h b (List.mem_cons_of_mem _ hb)
    have hhead := h a List.mem_cons_self
    simp only [List.countP_cons]
    cases hp : p a <;> cases hq : q a <;> cases hr : r a <;> simp_all <;> omega

/-- Calls whose events are in a set are no more than the set has. -/
theorem recorded_le_card (hnodup : (c.gather recordedEvent).Nodup) (F : Finset (Rat ×ₗ Nat)) :
    c.threads.countP (fun th => (th.trace.findSome? recordedEvent).any fun e => e ∈ F) ≤
      F.card := by
  have hcount : c.threads.countP
      (fun th => (th.trace.findSome? recordedEvent).any fun e => e ∈ F) =
        (c.gather recordedEvent).countP fun e => e ∈ F := by
    rw [Conf.gather, List.countP_filterMap]
    refine List.countP_congr fun th _ => ?_
    cases th.trace.findSome? recordedEvent <;> simp
  rw [hcount, ← hnodup.card_eq_countP]
  exact Finset.card_le_card fun e he => (Finset.mem_filter.mp he).2

/-- Every call that has passed is in the set, or unseen. -/
theorem passed_le (h : Reach (raceSystem key limit window) A c₀ c) (h0 : c₀.threads = [])
    (start : Rat) :
    countAfter (window : Rat) (start + window) (c.gather (passTime limit window)) ≤
      (countable key c start).card + unseen key limit window c start := by
  have hcount : countAfter (window : Rat) (start + window) (c.gather (passTime limit window)) =
      c.threads.countP fun th =>
        (th.trace.findSome? (passTime limit window)).any fun s => start < s := by
    rw [countAfter, Conf.gather, List.countP_filterMap]
    refine List.countP_congr fun th _ => ?_
    cases th.trace.findSome? (passTime limit window) <;> simp
  rw [hcount]
  refine (countP_le_add fun th _ hlate => ?_).trans
    (Nat.add_le_add_right (recorded_le_card (recorded_nodup h h0) (countable key c start)) _)
  rw [Bool.and_eq_true]
  cases hrec : th.trace.findSome? recordedEvent with
  | none => exact .inr ⟨hlate, rfl⟩
  | some e =>
    by_cases he : e ∈ countable key c start
    · exact .inl (by simpa using he)
    · exact .inr ⟨hlate, by simpa using he⟩

end Race

/-! ## What stays in sight -/

section Sight

variable {key : Str} {limit window : Int} {k : Nat} {c₀ c c' : RaceConf}
  {l : Label LimiterCall LimiterCall.Resp Exc Unit}

theorem serverTime_mono {t t' : Rat} (h : t ≤ t') : serverTime t ≤ serverTime t' :=
  Rat.floor_monotone (by linarith)

theorem serverTime_add (t : Rat) (n : Int) : serverTime (t + n) = serverTime t + 1000 * n := by
  have hsum : (t + n) * 1000 = t * 1000 + ((1000 * n : Int) : Rat) := by
    push_cast
    linarith
  rw [serverTime, hsum, Rat.floor_add_intCast, serverTime]

/-- No call touches a clock. -/
theorem Paced.clocks (h : Paced k limit window c l c')
    (hstep : Step (raceSystem key limit window) c l c') (hc : OneClock c) :
    c.shared.clock ≤ c'.shared.clock ∧ OneClock c' := by
  unfold OneClock at hc ⊢
  rcases hstep.shared_cases with hsame | ⟨hl, -⟩ | ⟨i, th, ⟨call, r⟩, -, hcalls⟩
  · rw [hsame]
    exact ⟨le_rfl, hc⟩
  · exact h.forward hl
  · have hans : RaceAnswer c.shared call r c'.shared := hcalls.answer
    generalize c'.shared = s' at hans
    cases hans <;> exact ⟨le_rfl, hc⟩

theorem Paced.server_le (h : Paced k limit window c l c')
    (hstep : Step (raceSystem key limit window) c l c') (hc : OneClock c) :
    c.shared.server ≤ c'.shared.server := by
  obtain ⟨hforward, hc'⟩ := h.clocks hstep hc
  rw [hc, hc']
  exact serverTime_mono hforward

theorem one_clock (h : Reach (raceSystem key limit window) (Paced k limit window) c₀ c)
    (hclock : OneClock c₀) : OneClock c :=
  h.invariant hclock fun _ _ _ hc hstep hpaced => (hpaced.clocks hstep hc).2

/-- The clock is past every time that was read from it. -/
theorem timed (h : Reach (raceSystem key limit window) (Paced k limit window) c₀ c)
    (h0 : c₀.threads = []) (hclock : OneClock c₀) :
    c.Attested fun s _ e => ∀ t, e = ⟨.time, .ok t⟩ → t ≤ s.clock := by
  refine (h.invariant (I := fun c => OneClock c ∧
    c.Attested fun s _ e => ∀ t, e = ⟨.time, .ok t⟩ → t ≤ s.clock)
    ⟨hclock, fun i th hi => absurd hi (Conf.not_started h0)⟩ ?_).2
  rintro c l c' ⟨hone, hc⟩ hstep hpaced
  obtain ⟨hforward, hone'⟩ := hpaced.clocks hstep hone
  refine ⟨hone', hstep.attested (fun _ e he t ht => (he t ht).trans hforward) ?_ hc⟩
  rintro i th _ hcalls t rfl
  have hans : RaceAnswer c.shared .time (.ok t) c'.shared := hcalls.answer
  generalize c'.shared = s' at hans
  cases hans
  exact le_rfl

theorem passTime_eq_some {e : RaceEvent} {s : Rat} (h : passTime limit window e = some s) :
    ∃ redisKey start n, e = ⟨.pruneAndCount redisKey start, .ok n⟩ ∧ s = start + window := by
  obtain ⟨call, r⟩ := e
  cases call with
  | pruneAndCount redisKey start =>
    cases r with
    | error _ => cases h
    | ok n =>
      rw [passTime_count] at h
      split at h
      · cases h
        exact ⟨redisKey, start, n, rfl, rfl⟩
      · cases h
  | _ => cases h

/-- A call passes at a time that it has read. -/
theorem passed_past (h : Reach (raceSystem key limit window) (Paced k limit window) c₀ c)
    (h0 : c₀.threads = []) (hclock : OneClock c₀)
    {th : Thread LimiterCall LimiterCall.Resp Exc Unit} (hth : th ∈ c.threads) {s : Rat}
    (hs : th.trace.findSome? (passTime limit window) = some s) :
    s ≤ c.shared.clock := by
  obtain ⟨hcoded, hanswered⟩ := raced h h0
  obtain ⟨i, hi⟩ := List.getElem?_of_mem hth
  obtain ⟨u, e, v, htrace, hpass, -⟩ := List.findSome?_eq_some_iff.mp hs
  obtain ⟨redisKey, start, n, rfl, rfl⟩ := passTime_eq_some hpass
  have hmade := hcoded.made (fun _ => wp_acquire key limit window) hi
    (fun d hd => hanswered i th hi d hd) htrace
  have hread : ⟨.time, .ok (start + window)⟩ ∈ th.trace := by
    rw [htrace]
    exact List.mem_append_left _ hmade.2.1
  exact timed h h0 hclock i th hi _ hread _ rfl

theorem prunedByAny_mono (h : Step (raceSystem key limit window) c l c') {s : Rat}
    (hs : prunedByAny c s = true) : prunedByAny c' s = true := by
  obtain ⟨th, hth, hany⟩ := List.any_eq_true.mp hs
  obtain ⟨i, hi⟩ := List.getElem?_of_mem hth
  obtain ⟨th', hi', -, hprefix⟩ := h.extends i th hi
  obtain ⟨e, he, hprunes⟩ := List.any_eq_true.mp hany
  exact List.any_eq_true.mpr ⟨th', List.mem_of_getElem? hi',
    List.any_eq_true.mpr ⟨e, hprefix.subset he, hprunes⟩⟩

/-- A count that has just been made does not prune what nobody has pruned. -/
theorem start_lt_of_unpruned {i : Nat} {redisKey : Str} {start s : Rat} {r : Except Exc Nat}
    (h : Step (raceSystem key limit window) c (.call i ⟨.pruneAndCount redisKey start, r⟩) c')
    (hs : prunedByAny c' s = false) : start < s := by
  by_contra hle
  obtain ⟨th, th', -, hi', -, htrace⟩ := h.caller
  have hpruned : prunedByAny c' s = true := by
    refine List.any_eq_true.mpr ⟨th', List.mem_of_getElem? hi', ?_⟩
    rw [htrace, List.any_append, Bool.or_eq_true]
    exact .inr (by simpa [prunes] using hle)
  rw [hs] at hpruned
  cases hpruned

/-- What was recorded can be seen until it is pruned or its key's time is up. -/
def Lasting (key : Str) (window : Int) (c : RaceConf) : Prop :=
  ∀ th ∈ c.threads, ∀ e, th.trace.findSome? recordedEvent = some e →
    prunedByAny c (ofLex e).1 = false → ∀ t, c.shared.server ≤ t →
      t ≤ serverTime (ofLex e).1 + 1000 * (window + 60) →
        e ∈ c.shared.redis.visible t (keyPrefix ++ key)

/-- A step leaves it there. -/
theorem Lasting.kept (hlasting : Lasting key window c)
    (hreach : Reach (raceSystem key limit window) (Paced k limit window) c₀ c)
    (h0 : c₀.threads = []) (hclock : OneClock c₀) (hwindow : 0 < window)
    (hstep : Step (raceSystem key limit window) c l c') (hpaced : Paced k limit window c l c')
    {th : Thread LimiterCall LimiterCall.Resp Exc Unit} (hth : th ∈ c.threads) {e : Rat ×ₗ Nat}
    (he : th.trace.findSome? recordedEvent = some e) (hunpruned : prunedByAny c' (ofLex e).1 = false)
    {t : Int} (ht : c'.shared.server ≤ t)
    (hlives : t ≤ serverTime (ofLex e).1 + 1000 * (window + 60)) :
    e ∈ c'.shared.redis.visible t (keyPrefix ++ key) := by
  have hbefore : prunedByAny c (ofLex e).1 = false := by
    refine Bool.eq_false_iff.mpr fun h => ?_
    rw [prunedByAny_mono hstep h] at hunpruned
    cases hunpruned
  have hserver : c.shared.server ≤ t := (hpaced.server_le hstep (one_clock hreach hclock)).trans ht
  have hseen {t' : Int} (ht' : c.shared.server ≤ t') (hle : t' ≤ t) :
      e ∈ c.shared.redis.visible t' (keyPrefix ++ key) :=
    hlasting th hth e he hbefore t' ht' (hle.trans hlives)
  rcases hstep.shared_cases with hsame | ⟨-, hredis, -⟩ | ⟨i, th', ⟨call, r⟩, rfl, hcalls⟩
  · rw [hsame]
    exact hseen hserver le_rfl
  · rw [hredis]
    exact hseen hserver le_rfl
  · have hans : RaceAnswer c.shared call r c'.shared := hcalls.answer
    have hraced := raced_next hreach h0 hcalls
    generalize c'.shared = s' at hans
    cases hans with
    | time => exact hseen hserver le_rfl
    | oldest => exact hseen hserver le_rfl
    | uuid4 => exact hseen hserver le_rfl
    | pruneAndCount redisKey start =>
      obtain rfl : redisKey = keyPrefix ++ key := hraced.1
      rw [Redis.visible_prune hserver, Finset.mem_filter]
      exact ⟨hseen hserver le_rfl, start_lt_of_unpruned hstep hunpruned⟩
    | record redisKey member score ttl =>
      obtain ⟨hkey, httl, -, hdrawn, hnone⟩ := hraced
      subst hkey httl
      obtain ⟨hpast, hmember⟩ := recorded_passed hreach h0 hth he
      have hother : (ofLex e).2 ≠ member := by
        rintro rfl
        obtain ⟨j, hj⟩ := List.getElem?_of_mem hth
        obtain rfl := Conf.gather_index (drawn_nodup hreach h0).1 hcalls.thread hj hdrawn hmember
        rw [hcalls.thread_eq hj, hnone] at he
        cases he
      have hlate : t ≤ c.shared.server + 1000 * (window + 60) := by
        have := serverTime_mono (passed_past hreach h0 hclock hth hpast)
        rw [← one_clock hreach hclock] at this
        omega
      rw [Redis.visible_record (by omega), if_pos hlate]
      exact Finset.mem_insert_of_mem (Finset.mem_filter.mpr ⟨hseen le_rfl hserver, hother⟩)

theorem Lasting.step (hlasting : Lasting key window c)
    (hreach : Reach (raceSystem key limit window) (Paced k limit window) c₀ c)
    (h0 : c₀.threads = []) (hclock : OneClock c₀) (hwindow : 0 < window)
    (hstep : Step (raceSystem key limit window) c l c') (hpaced : Paced k limit window c l c') :
    Lasting key window c' := by
  intro th' hth' e he hunpruned t ht hlives
  obtain ⟨j, hj⟩ := List.getElem?_of_mem hth'
  have hkept {th : Thread LimiterCall LimiterCall.Resp Exc Unit} (hi : c.threads[j]? = some th)
      (he : th.trace.findSome? recordedEvent = some e) :=
    hlasting.kept hreach h0 hclock hwindow hstep hpaced (List.mem_of_getElem? hi) he hunpruned ht hlives
  rcases hstep.thread_cases hj with ⟨th, hi, -, htrace, -⟩ | ⟨_, -, -, rfl⟩ |
    ⟨th, ⟨call, r⟩, f, rfl, hcalls, -, rfl⟩
  · rw [htrace] at he
    exact hkept hi he
  · cases he
  · have htrace : (th.trace ++ [(⟨call, r⟩ : RaceEvent)]).findSome? recordedEvent = some e := he
    rw [List.findSome?_append, Option.or_eq_some_iff] at htrace
    rcases htrace with hold | ⟨-, hnew⟩
    · exact hkept hcalls.thread hold
    · -- its own record, made just now
      have hans : RaceAnswer c.shared call r c'.shared := hcalls.answer
      have hraced := raced_next hreach h0 hcalls
      have hserver : c.shared.server ≤ t := (hpaced.server_le hstep (one_clock hreach hclock)).trans ht
      generalize c'.shared = s' at hans
      cases hans with
      | record redisKey member score ttl =>
        obtain ⟨hkey, httl, hpass, -, -⟩ := hraced
        subst hkey httl
        obtain rfl : toLex (score, member) = e := Option.some.inj hnew
        have hlate : t ≤ c.shared.server + 1000 * (window + 60) := by
          have := serverTime_mono
            (passed_past hreach h0 hclock (List.mem_of_getElem? hcalls.thread) hpass)
          rw [← one_clock hreach hclock] at this
          exact hlives.trans (by simpa using this)
        rw [Redis.visible_record (by omega), if_pos hlate]
        exact Finset.mem_insert_self _ _
      | _ => cases hnew

/-- What has been recorded can be seen for as long as the key lives. -/
theorem lasting (h : Reach (raceSystem key limit window) (Paced k limit window) c₀ c)
    (h0 : c₀.threads = []) (hclock : OneClock c₀) (hwindow : 0 < window) :
    Lasting key window c := by
  induction h with
  | refl =>
    intro th hth
    rw [h0] at hth
    cases hth
  | tail hreach hstep hpaced ih => exact ih.step hreach h0 hclock hwindow hstep hpaced

/-- What a count does not find is out of sight. -/
theorem unseen_le_outOfSight
    (h : Reach (raceSystem key limit window) (Paced k limit window) c₀ c) (h0 : c₀.threads = [])
    (hclock : OneClock c₀) (hwindow : 0 < window) (start : Rat) :
    unseen key limit window c start ≤ outOfSight limit window c start := by
  refine List.countP_mono_left fun th hth hunseen => ?_
  rw [Bool.and_eq_true, Option.any_eq_true] at hunseen
  obtain ⟨⟨s, hs, hlate⟩, hgone⟩ := hunseen
  refine (Option.any_eq_true _ _).mpr ⟨s, hs, ?_⟩
  rw [Bool.and_eq_true]
  refine ⟨hlate, ?_⟩
  by_contra hsight
  rw [Bool.not_eq_true, Bool.or_eq_false_iff, Bool.or_eq_false_iff, decide_eq_false_iff_not,
    not_lt] at hsight
  obtain ⟨⟨hrecorded, hunpruned⟩, hyoung⟩ := hsight
  obtain ⟨e, he⟩ := Option.isSome_iff_exists.mp (Option.isNone_eq_false_iff.mp hrecorded)
  obtain rfl : (ofLex e).1 = s := Option.some.inj ((recorded_passed h h0 hth he).1.symm.trans hs)
  have hlives : c.shared.server ≤ serverTime (ofLex e).1 + 1000 * (window + 60) := by
    have hle := serverTime_mono hyoung
    rw [one_clock h hclock, ← serverTime_add]
    exact_mod_cast hle
  have hseen := lasting h h0 hclock hwindow th hth e he hunpruned _ le_rfl hlives
  rw [he, Option.all_some, decide_eq_true_eq] at hgone
  exact hgone (Finset.mem_filter.mpr ⟨hseen, of_decide_eq_true hlate⟩)

/-- What has passed stays within the limit and those out of sight, window by window. -/
theorem passed_bounded (hlimit : 1 ≤ limit) (hwindow : 0 < window)
    (h : Reach (raceSystem key limit window) (Paced k limit window) c₀ c)
    (h0 : c₀.threads = []) (hclock : OneClock c₀) :
    Bounded (window : Rat) (limit.toNat - 1 + k + 1) (c.gather (passTime limit window)) := by
  induction h with
  | refl =>
    rw [Conf.gather_of_nil h0]
    exact Bounded.nil
  | @tail c c' l hreach hstep hpaced ih =>
    by_cases hpass : ∃ i redisKey start n, l = .call i ⟨.pruneAndCount redisKey start, .ok n⟩ ∧
        ((n : Nat) : Int) < limit
    · obtain ⟨i, redisKey, start, n, rfl, hn⟩ := hpass
      obtain ⟨th, hcalls⟩ := hstep.calls
      obtain ⟨hkey, -, hfirst⟩ := raced_next hreach h0 hcalls
      have hperm := hstep.gather_new ((passTime_count limit window redisKey start n).trans
        (if_pos hn)) fun th' hi => by rw [hcalls.thread_eq hi, hfirst]
      have hcount : (countable key c start).card = n := by
        have hans : RaceAnswer c.shared (.pruneAndCount redisKey start) (.ok n) c'.shared :=
          hcalls.answer
        generalize c'.shared = s' at hans
        cases hans
        rw [hkey]
        exact congrArg Finset.card (Redis.visible_prune le_rfl start).symm
      have hle := passed_le hreach h0 start
      have hsight := unseen_le_outOfSight hreach h0 hclock hwindow start
      have hfew := hpaced.inSight i redisKey start n rfl hn
      refine (ih.cons ?_).perm hperm.symm
      omega
    · have hsame := hstep.gather_eq (g := passTime limit window) fun i e hl => by
        obtain ⟨call, r⟩ := e
        cases call <;> cases r <;> try rfl
        next redisKey start n =>
          rw [passTime_count, if_neg fun hn => hpass ⟨i, redisKey, start, n, hl, hn⟩]
      rw [hsame]
      exact ih

end Sight

/-- If at most one other call is out of the sight of each call that passes, no window
holds more than one event over the limit. -/
theorem race_costs_one_when (key : Str) (limit window : Int) (c₀ c : RaceConf)
    (hlimit : 1 ≤ limit) (hwindow : 0 < window) (h0 : c₀.threads = [])
    (hclock : OneClock c₀)
    (h : Reach (raceSystem key limit window) (Paced 1 limit window) c₀ c) (t : Rat) :
    (count (window : Rat) t (c.gather recordedTime) : Int) ≤ limit + 1 := by
  have hsub : (c.gather recordedTime).Sublist (c.gather (passTime limit window)) := by
    refine Conf.gather_sublist fun th hth s hs => ?_
    obtain ⟨e, he, rfl⟩ : ∃ e, th.trace.findSome? recordedEvent = some e ∧ (ofLex e).1 = s := by
      have hmap := List.map_findSome? (f := recordedEvent) (g := fun e => (ofLex e).1)
        (l := th.trace)
      exact Option.map_eq_some_iff.mp (hmap.trans hs)
    exact (recorded_passed h h0 hth he).1
  have hle := (passed_bounded hlimit hwindow h h0 hclock).sublist hsub t
  omega

/-! ## Three at once -/

/-- Nothing yet, at time 0. -/
def calm : RaceState := ⟨fun _ => none, 0, 0, []⟩

/-- A call that passes at time 0 with a window of a minute. -/
def counting : List RaceEvent :=
  [⟨.time, .ok 0⟩, ⟨.pruneAndCount (keyPrefix ++ str "1") (0 - 60), .ok 0⟩]

def recording (member : Nat) : List RaceEvent :=
  [⟨.uuid4, .ok member⟩, ⟨.record (keyPrefix ++ str "1") member 0 120, .ok ()⟩]

theorem steps_counting : ∃ q, Steps (Prog.map (fun _ => ()) (acquire (str "1") 1 60)) counting q ∧
    ∀ member, Steps q (recording member) (.ret ()) :=
  ⟨_, .call (.call (.done _)), fun _ => .call (.call (.done _))⟩

theorem steps_time {p q : Prog LimiterCall LimiterCall.Resp Exc Unit} (h : Steps p counting q) :
    ∃ k, Steps p [⟨.time, .ok 0⟩] k ∧
      Steps k [⟨.pruneAndCount (keyPrefix ++ str "1") (0 - 60), .ok 0⟩] q := by
  obtain ⟨k, rfl, hrest⟩ := h.uncons
  exact ⟨_, .call (.done _), hrest⟩

theorem answer_counting :
    RaceAnswer calm (.pruneAndCount (keyPrefix ++ str "1") (0 - 60)) (.ok 0) calm := by
  have hprune : calm.redis.zremrangebyscore 0 (keyPrefix ++ str "1") (0 - 60) = calm.redis := by
    funext k
    simp [calm, Redis.zremrangebyscore, Redis.put, Redis.get]
  have hans := RaceAnswer.pruneAndCount (s := calm) (keyPrefix ++ str "1") (0 - 60)
  rwa [show calm.server = 0 from rfl, hprune] at hans

theorem answers_counting : Answers (raceSystem (str "1") 1 60) () calm counting calm :=
  .cons .time (.cons answer_counting (.nil _))

/-- After a call has drawn `member` and recorded itself. -/
def afterRecording (s : RaceState) (member : Nat) : RaceState :=
  { s with
    redis := (s.redis.zadd s.server (keyPrefix ++ str "1") member 0).expire s.server
      (keyPrefix ++ str "1") 120
    drawn := member :: s.drawn }

theorem answers_recording {s : RaceState} {member : Nat} (h : member ∉ s.drawn) :
    Answers (raceSystem (str "1") 1 60) () s (recording member) (afterRecording s member) :=
  .cons (.uuid4 member h) (.cons (.record _ member 0 120) (.nil _))

/-- Three calls count before any of them records. -/
theorem race_costs_more :
    ¬ ∀ (key : Str) (limit window : Int) (c₀ c : RaceConf), 1 ≤ limit → 0 < window →
      c₀.threads = [] → Reach (raceSystem key limit window) (fun _ _ _ => True) c₀ c →
      ∀ t, (count (window : Rat) t (c.gather recordedTime) : Int) ≤ limit + 1 := by
  intro h
  obtain ⟨q, hcounting, hrecording⟩ := steps_counting
  let new : Thread LimiterCall LimiterCall.Resp Exc Unit := .new (raceSystem (str "1") 1 60) ()
  let waiting : Thread LimiterCall LimiterCall.Resp Exc Unit := ⟨(), q, counting, false⟩
  let done (member : Nat) : Thread LimiterCall LimiterCall.Resp Exc Unit :=
    ⟨(), .ret (), counting ++ recording member, false⟩
  have hstart : Reach (raceSystem (str "1") 1 60) (fun _ _ _ => True) ⟨calm, []⟩
      ⟨calm, [new, new, new]⟩ :=
    .tail (.tail (.tail .refl (.start trivial) trivial) (.start trivial) trivial)
      (.start trivial) trivial
  have hcounted : Reach (raceSystem (str "1") 1 60) (fun _ _ _ => True) ⟨calm, []⟩
      ⟨calm, [waiting, waiting, waiting]⟩ := by
    have h1 := hstart.runCalls (i := 0) (fun _ _ _ _ => trivial) rfl hcounting answers_counting
    have h2 := h1.runCalls (i := 1) (fun _ _ _ _ => trivial) rfl hcounting answers_counting
    exact h2.runCalls (i := 2) (fun _ _ _ _ => trivial) rfl hcounting answers_counting
  have hrecorded : Reach (raceSystem (str "1") 1 60) (fun _ _ _ => True) ⟨calm, []⟩
      ⟨afterRecording (afterRecording (afterRecording calm 1) 2) 3, [done 1, done 2, done 3]⟩ := by
    have h1 := hcounted.runCalls (i := 0) (fun _ _ _ _ => trivial) rfl (hrecording 1)
      (answers_recording (s := calm) (by decide))
    have h2 := h1.runCalls (i := 1) (fun _ _ _ _ => trivial) rfl (hrecording 2)
      (answers_recording (s := afterRecording calm 1) (by decide))
    exact h2.runCalls (i := 2) (fun _ _ _ _ => trivial) rfl (hrecording 3)
      (answers_recording (s := afterRecording (afterRecording calm 1) 2) (by decide))
  have hle := h _ _ _ _ _ (by decide) (by decide) rfl hrecorded 0
  revert hle
  decide +kernel

theorem paced_of_other {k : Nat} {limit window : Int} {c c' : RaceConf} {i : Nat} {e : RaceEvent}
    (h : ∀ redisKey start r, e ≠ ⟨.pruneAndCount redisKey start, r⟩) :
    Paced k limit window c (.call i e) c' := by
  refine ⟨fun h => (by cases h), fun _ redisKey start _ hl => ?_⟩
  cases hl
  exact absurd rfl (h redisKey start _)

/-- At most the calls that have passed are out of sight. -/
theorem outOfSight_le (limit window : Int) (c : RaceConf) (start : Rat) :
    outOfSight limit window c start ≤
      c.threads.countP fun th => (th.trace.findSome? (passTime limit window)).isSome := by
  refine List.countP_mono_left fun th _ h => ?_
  obtain ⟨s, hs, -⟩ := (Option.any_eq_true _ _).mp h
  rw [hs]
  rfl

/-- Two calls that both count before either records. -/
def together : RaceConf :=
  ⟨afterRecording (afterRecording calm 1) 2,
    [⟨(), .ret (), counting ++ recording 1, false⟩, ⟨(), .ret (), counting ++ recording 2, false⟩]⟩

theorem together_reached :
    Reach (raceSystem (str "1") 1 60) (Paced 1 1 60) ⟨calm, []⟩ together := by
  obtain ⟨q, hcounting, hrecording⟩ := steps_counting
  obtain ⟨k, htime, hcount⟩ := steps_time hcounting
  have hrecord (member : Nat) (e : RaceEvent) (he : e ∈ recording member) :
      ∀ redisKey start r, e ≠ ⟨.pruneAndCount redisKey start, r⟩ := by
    rintro redisKey start r rfl
    simp [recording] at he
  have hstart : Reach (raceSystem (str "1") 1 60) (Paced 1 1 60) ⟨calm, []⟩
      ⟨calm, [.new (raceSystem (str "1") 1 60) (), .new (raceSystem (str "1") 1 60) ()]⟩ :=
    .tail (.tail .refl (.start trivial) ⟨fun h => (by cases h), fun _ _ _ _ h => (by cases h)⟩)
      (.start trivial) ⟨fun h => (by cases h), fun _ _ _ _ h => (by cases h)⟩
  -- the first counts with nobody before it, the second with one out of its sight
  have htimed := hstart.runCall (i := 0) rfl htime (s := calm) .time
    fun _ => paced_of_other fun _ _ _ h => by cases h
  have hfirst := htimed.runCall (i := 0) rfl hcount answer_counting fun _ =>
    ⟨fun h => (by cases h), fun _ _ _ _ _ _ => (outOfSight_le ..).trans (Nat.zero_le 1)⟩
  have htimed' := hfirst.runCall (i := 1) rfl htime (s := calm) .time
    fun _ => paced_of_other fun _ _ _ h => by cases h
  have hsecond := htimed'.runCall (i := 1) rfl hcount answer_counting fun _ =>
    ⟨fun h => (by cases h), fun _ _ _ _ _ _ => (outOfSight_le ..).trans (Nat.le_refl 1)⟩
  have h1 := hsecond.runCalls (i := 0) (fun _ e _ he => paced_of_other (hrecord 1 e he)) rfl
    (hrecording 1) (answers_recording (s := calm) (by decide))
  exact h1.runCalls (i := 1) (fun _ e _ he => paced_of_other (hrecord 2 e he)) rfl
    (hrecording 2) (answers_recording (s := afterRecording calm 1) (by decide))

/-- Two at once are two events on a limit of one. -/
theorem race_costs_one_when_together :
    count (60 : Rat) 0 (together.gather recordedTime) = 2 ∧
      (count (60 : Rat) 0 (together.gather recordedTime) : Int) ≤ 1 + 1 := by
  have hclock : OneClock ⟨calm, []⟩ := by
    show (0 : Int) = serverTime 0
    decide +kernel
  refine ⟨by decide +kernel, ?_⟩
  exact race_costs_one_when (str "1") 1 60 ⟨calm, []⟩ together (by decide) (by decide) rfl hclock
    together_reached 0

end RedisRateLimiter

end MediaDownloader
