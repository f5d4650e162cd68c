import MediaDownloader.Lib.Interleaving
import MediaDownloader.Telegram.HandlerCalls

/-!
# The bot as a system

Any number of updates are handled side by side over one Redis, whose entries
may expire at any time and whose calls may fail with or without effect.
-/

namespace MediaDownloader

open Interaction

/-- The preview contexts in Redis, by key. -/
abbrev Store := Str → Option Entry

def Store.put (s : Store) (key : Str) (value : Option Entry) : Store :=
  fun k => if k = key then value else s k

@[simp] theorem Store.put_self (s : Store) (key : Str) (value : Option Entry) :
    s.put key value key = value := by
  simp [Store.put]

theorem Store.put_of_ne (s : Store) {key k : Str} (value : Option Entry) (h : k ≠ key) :
    s.put key value k = s k := by
  simp [Store.put, h]

/-- Calls whose answers the system determines. -/
def Call.isDetermined : Call → Bool
  | .redisSet _ _ _ => true
  | .redisGet _ => true
  | .redisGetdel _ => true
  | .redisDelete _ => true
  | .getPreview _ => true
  | .requestDownload _ _ _ _ => true
  | _ => false

/-- How a call is answered: an error of a writing command may come before or
after its effect. -/
inductive Stored : Store → (c : Call) → Except Exc (Resp c) → Store → Prop
  | set {s : Store} {key : Str} {value : Entry} {ttl : Int} :
      Stored s (.redisSet key value ttl) (.ok ()) (s.put key (some value))
  | setLost {s : Store} {key : Str} {value : Entry} {ttl : Int} {e : Exc} :
      Stored s (.redisSet key value ttl) (.error e) (s.put key (some value))
  | setFailed {s : Store} {key : Str} {value : Entry} {ttl : Int} {e : Exc} :
      Stored s (.redisSet key value ttl) (.error e) s
  | get {s : Store} {key : Str} : Stored s (.redisGet key) (.ok (s key)) s
  | getFailed {s : Store} {key : Str} {e : Exc} : Stored s (.redisGet key) (.error e) s
  | getdel {s : Store} {key : Str} : Stored s (.redisGetdel key) (.ok (s key)) (s.put key none)
  | getdelLost {s : Store} {key : Str} {e : Exc} :
      Stored s (.redisGetdel key) (.error e) (s.put key none)
  | getdelFailed {s : Store} {key : Str} {e : Exc} : Stored s (.redisGetdel key) (.error e) s
  | delete {s : Store} {key : Str} : Stored s (.redisDelete key) (.ok ()) (s.put key none)
  | deleteLost {s : Store} {key : Str} {e : Exc} :
      Stored s (.redisDelete key) (.error e) (s.put key none)
  | deleteFailed {s : Store} {key : Str} {e : Exc} : Stored s (.redisDelete key) (.error e) s
  | preview {s : Store} {url : Str} {facts : PreviewFacts} :
      Stored s (.getPreview url) (.ok (mediaPreview url facts)) s
  | previewFailed {s : Store} {url : Str} {e : Exc} : Stored s (.getPreview url) (.error e) s
  | entered {s : Store} {telegramId : Int} {url : Str} {spec : DownloadSpec}
      {extractorKey : Str} : Stored s (.requestDownload telegramId url spec extractorKey) (.ok ()) s
  | other {s : Store} {c : Call} {r : Except Exc (Resp c)} : c.isDetermined = false → Stored s c r s

theorem Stored.truthful {s s' : Store} {c : Call} {r : Except Exc (Resp c)}
    (h : Stored s c r s') : Truthful ⟨c, r⟩ := by
  cases h with
  | preview => rfl
  | previewFailed => trivial
  | other hd =>
    unfold Truthful
    split
    · next heq =>
      cases heq
      cases hd
    · trivial
  | _ => trivial

/-- All that an answered call does to the store. -/
theorem Stored.write_cases {s s' : Store} {c : Call} {r : Except Exc (Resp c)}
    (h : Stored s c r s') :
    s' = s ∨ (∃ key value ttl, c = .redisSet key value ttl ∧ s' = s.put key (some value)) ∨
      ∃ key, (c = .redisGetdel key ∨ c = .redisDelete key) ∧ s' = s.put key none := by
  cases h with
  | set => exact .inr (.inl ⟨_, _, _, rfl, rfl⟩)
  | setLost => exact .inr (.inl ⟨_, _, _, rfl, rfl⟩)
  | getdel => exact .inr (.inr ⟨_, .inl rfl, rfl⟩)
  | getdelLost => exact .inr (.inr ⟨_, .inl rfl, rfl⟩)
  | delete => exact .inr (.inr ⟨_, .inr rfl, rfl⟩)
  | deleteLost => exact .inr (.inr ⟨_, .inr rfl, rfl⟩)
  | _ => exact .inl rfl

theorem Stored.get_eq {s s' : Store} {key : Str} {entry : Option Entry}
    (h : Stored s (.redisGet key) (.ok entry) s') : entry = s key := by
  cases h with
  | get => rfl
  | other hd => cases hd

/-- A claimed entry is the one that was there, and it is gone. -/
theorem Stored.getdel_eq {s s' : Store} {key : Str} {entry : Option Entry}
    (h : Stored s (.redisGetdel key) (.ok entry) s') : entry = s key ∧ s' = s.put key none := by
  cases h with
  | getdel => exact ⟨rfl, rfl⟩
  | other hd => cases hd

theorem Stored.delete_eq {s s' : Store} {key : Str}
    (h : Stored s (.redisDelete key) (.ok ()) s') : s' = s.put key none := by
  cases h with
  | delete => rfl
  | other hd => cases hd

/-! ## The system -/

/-- Updates start at any time, entries expire at any time. -/
def botSystem (bot : Bot) : System Call Resp Exc Update Store where
  code update := Prog.map (fun _ => ()) (bot.handleUpdate update)
  start _ _ := True
  answer s _ c r s' := Stored s c r s'
  drift s s' := ∃ key, s' = s.put key none

abbrev Chats := Conf Call Resp Exc Update Store
abbrev ChatThread := Thread Call Resp Exc Update
abbrev ChatLabel := Label Call Resp Exc Update

theorem update_wp (bot : Bot) (update : Update) :
    wp (handlerMonitor bot update) ((botSystem bot).code update) [] fun _ _ => True :=
  (wp_map _ _ _ _ _).mpr (wp_mono _ (bot.wp_handleUpdate update) fun _ _ _ => trivial)

/-- Every thread runs its handler on truthful answers. -/
structure Handled (bot : Bot) (c : Chats) : Prop where
  coded : c.Coded (botSystem bot)
  answered : c.Answered Truthful

section Steps

variable {bot : Bot} {c c' : Chats} {l : ChatLabel}

theorem Handled.init (h : c.threads = []) : Handled bot c where
  coded := Conf.coded_of_nil h
  answered := Conf.answered_of_nil h

theorem Handled.step (hc : Handled bot c) (h : Step (botSystem bot) c l c') : Handled bot c' where
  coded := h.coded hc.coded
  answered := h.answered (fun _ _ _ _ _ hstored => Stored.truthful hstored) hc.answered

/-- Every call in a history was allowed when it was made. -/
theorem Handled.made (hc : Handled bot c) {i : Nat} {th : ChatThread}
    (hi : c.threads[i]? = some th) {u v : Trace} {e : Ev} (ht : th.trace = u ++ e :: v) :
    bot.Allowed th.kind u e.call :=
  hc.coded.made (update_wp bot) hi (hc.answered i th hi) ht

/-- The call a thread is about to make is allowed. -/
theorem Handled.allows (hc : Handled bot c) {i : Nat} {th : ChatThread} {e : Ev} {s : Store}
    (h : c.Calls (botSystem bot) i th e s) : bot.Allowed th.kind th.trace e.call := by
  obtain ⟨f, hf⟩ := h.next
  exact hc.coded.allows (update_wp bot) h.thread (hc.answered i th h.thread) hf

/-- The store stays, loses an entry, or gains a context a thread has just saved. -/
theorem Handled.store_cases (hc : Handled bot c) (h : Step (botSystem bot) c l c') :
    c'.shared = c.shared ∨ (∃ key, c'.shared = c.shared.put key none) ∨
      ∃ i th e key value preview, l = .call i e ∧ c.Calls (botSystem bot) i th e c'.shared ∧
        (∃ ttl, e.call = .redisSet key value ttl) ∧ Saves th.trace key value preview ∧
        bot.Accepts preview.sourceUrl ∧ c'.shared = c.shared.put key (some value) := by
  rcases h.shared_cases with he | ⟨-, key, he⟩ | ⟨i, th, e, hl, hcall⟩
  · exact .inl he
  · exact .inr (.inl ⟨key, he⟩)
  have hstored : Stored c.shared e.call e.resp c'.shared := hcall.answer
  rcases hstored.write_cases with he | ⟨key, value, ttl, hset, he⟩ | ⟨key, -, he⟩
  · exact .inl he
  · have hallow := hc.allows hcall
    rw [hset] at hallow
    obtain ⟨-, -, preview, hsaves, haccepts⟩ := hallow
    exact .inr (.inr ⟨i, th, e, key, value, preview, hl, hcall, ⟨ttl, hset⟩, hsaves, haccepts, he⟩)
  · exact .inr (.inl ⟨key, he⟩)

end Steps

end MediaDownloader
