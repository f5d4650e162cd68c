import MediaDownloader.Telegram.Gates

/-!
# Preview tokens

Previews, `q:`, `back:`, `dl:` and `cancel:` taps in any order, entries expiring
at any time; the only assumption is that a token is new when it is saved.

* `Tokens.step`: a stored entry was saved by a preview, and what has been
  claimed or deleted stays away;
* `tokenRequests_le_one`: a token pays for one request at most;
* `preview_token_once`: the promise of a preview card as a whole.
-/

namespace MediaDownloader

open Interaction PreviewContextStore

/-- A `dl:` or `cancel:` tap on the token. -/
def Update.Names (update : Update) (token : Str) : Prop :=
  update.confirms = some token ∨ update.cancels = some token

theorem not_names_message (locale : Str) (waiting : Bool) (message : Message) (token : Str) :
    ¬ (Update.message locale waiting message).Names token := by
  rintro (h | h)
  · cases h
  · cases h

/-- A token being saved is new: never saved before, named by no tap so far. -/
def Fresh (c : Chats) (l : ChatLabel) (_ : Chats) : Prop :=
  ∀ i key value ttl r, l = .call i ⟨.redisSet key value ttl, r⟩ →
    ∀ (j : Nat) (th : ChatThread), c.threads[j]? = some th →
      (∀ value' ttl' r', ⟨.redisSet key value' ttl', r'⟩ ∉ th.trace) ∧
        ∀ token, th.kind.Names token → key ≠ tokenKey token

/-- In the course of `t` the token was saved for `preview`. -/
def Saved (t : Trace) (token : Str) (preview : MediaPreview) : Prop :=
  ∃ u v url ttl r, t = u ++ ⟨.getPreview url, .ok preview⟩ :: ⟨.uuid4Hex, .ok token⟩ ::
    ⟨.redisSet (tokenKey token) (encode (.fromPreview preview)) ttl, r⟩ :: v

/-- Some handler has saved the token for `preview`. -/
def SavedFor (c : Chats) (token : Str) (preview : MediaPreview) : Prop :=
  ∃ (i : Nat) (th : ChatThread), c.threads[i]? = some th ∧ Saved th.trace token preview

/-- Redis has confirmed that the entry is gone. -/
def SpentKey (key : Str) (t : Trace) : Prop :=
  (∃ entry, ⟨.redisGetdel key, .ok entry⟩ ∈ t) ∨ ⟨.redisDelete key, .ok ()⟩ ∈ t

theorem tokenKey_injective {token token' : Str} (h : tokenKey token = tokenKey token') :
    token = token' :=
  List.append_cancel_left h

section Tokens

variable {bot : Bot} {c c' : Chats} {l : ChatLabel} {token : Str}

/-! ## What a step keeps -/

structure Tokens (bot : Bot) (c : Chats) : Prop extends Handled bot c where
  stored : ∀ token value, c.shared (tokenKey token) = some value →
    ∃ preview, SavedFor c token preview ∧ value = encode (.fromPreview preview)
  claimed : ∀ (i : Nat) (th : ChatThread) (token : Str) (value : Entry),
    c.threads[i]? = some th → ⟨.redisGetdel (tokenKey token), .ok (some value)⟩ ∈ th.trace →
      ∃ preview, SavedFor c token preview ∧ value = encode (.fromPreview preview)
  claimedOnce : ∀ (i j : Nat) (th th' : ChatThread) (token : Str) (value value' : Entry),
    c.threads[i]? = some th → c.threads[j]? = some th' →
      ⟨.redisGetdel (tokenKey token), .ok (some value)⟩ ∈ th.trace →
      ⟨.redisGetdel (tokenKey token), .ok (some value')⟩ ∈ th'.trace → i = j
  savedOnce : ∀ (i j : Nat) (th th' : ChatThread) (key : Str) (value value' : Entry)
    (ttl ttl' : Int) (r r' : Except Exc Unit), c.threads[i]? = some th →
      c.threads[j]? = some th' → ⟨.redisSet key value ttl, r⟩ ∈ th.trace →
      ⟨.redisSet key value' ttl', r'⟩ ∈ th'.trace → i = j
  spentGone : ∀ (i : Nat) (th : ChatThread) (token : Str), c.threads[i]? = some th →
    SpentKey (tokenKey token) th.trace → c.shared (tokenKey token) = none

theorem Saved.mono {t : Trace} {preview : MediaPreview} (h : Saved t token preview) {t' : Trace}
    (ht : t <+: t') : Saved t' token preview := by
  obtain ⟨u, v, url, ttl, r, rfl⟩ := h
  obtain ⟨w, rfl⟩ := ht
  exact ⟨u, v ++ w, url, ttl, r, by simp⟩

theorem SavedFor.step {preview : MediaPreview} (hs : SavedFor c token preview)
    (h : Step (botSystem bot) c l c') : SavedFor c' token preview := by
  obtain ⟨i, th, hi, hsaved⟩ := hs
  obtain ⟨th', hi', -, ht⟩ := h.extends i th hi
  exact ⟨i, th', hi', hsaved.mono ht⟩

/-- Only a tap that names the token claims or deletes its entry. -/
theorem SpentKey.names (hc : Handled bot c) {i : Nat} {th : ChatThread}
    (hi : c.threads[i]? = some th) (hs : SpentKey (tokenKey token) th.trace) :
    th.kind.Names token := by
  rcases hs with ⟨entry, hm⟩ | hm
  · obtain ⟨u, v, ht⟩ := List.append_of_mem hm
    obtain ⟨-, token', hk, hkey⟩ := hc.made hi ht
    rw [tokenKey_injective hkey]
    exact .inl hk
  · obtain ⟨u, v, ht⟩ := List.append_of_mem hm
    obtain ⟨-, token', hk, hkey⟩ := hc.made hi ht
    rw [tokenKey_injective hkey]
    exact .inr hk

/-- What is gone stays away while a tap that has named its token is around. -/
theorem gone_step (hc : Handled bot c) (h : Step (botSystem bot) c l c') (hA : Fresh c l c')
    {i : Nat} {th : ChatThread} (hi : c.threads[i]? = some th) (hn : th.kind.Names token)
    (hgone : c.shared (tokenKey token) = none) : c'.shared (tokenKey token) = none := by
  rcases hc.store_cases h with he | ⟨key, he⟩ |
    ⟨j, th', ⟨cl, r⟩, key, value, preview, hl, -, ⟨ttl, hcl⟩, -, -, he⟩
  · rw [he, hgone]
  · rw [he]
    by_cases hk : tokenKey token = key
    · rw [hk, Store.put_self]
    · rw [Store.put_of_ne _ _ hk, hgone]
  · simp only at hcl
    subst hcl
    have hne := (hA j key value ttl r hl i th hi).2 token hn
    rw [he, Store.put_of_ne _ _ (Ne.symm hne), hgone]

/-- The saving thread, after its SET. -/
theorem Saves.saved {g : Trace} {key : Str} {value : Entry} {preview : MediaPreview}
    (h : Saves g key value preview) (ttl : Int) (r : Except Exc Unit) :
    ∃ token, key = tokenKey token ∧ value = encode (.fromPreview preview) ∧
      Saved (g ++ [⟨.redisSet key value ttl, r⟩]) token preview := by
  obtain ⟨u, url, token, rfl, rfl, rfl⟩ := h
  exact ⟨token, rfl, rfl, u, [], url, ttl, r, by simp⟩

theorem Tokens.init : Tokens bot ⟨fun _ => none, []⟩ where
  toHandled := .init rfl
  stored := by rintro token value ⟨⟩
  claimed := by rintro i th token value ⟨⟩
  claimedOnce := by rintro i j th th' token value value' ⟨⟩
  savedOnce := by rintro i j th th' key value value' ttl ttl' r r' ⟨⟩
  spentGone := by rintro i th token ⟨⟩

theorem Tokens.stored_step (ht : Tokens bot c) (h : Step (botSystem bot) c l c') {value : Entry}
    (hv : c'.shared (tokenKey token) = some value) :
    ∃ preview, SavedFor c' token preview ∧ value = encode (.fromPreview preview) := by
  have keep (hv : c.shared (tokenKey token) = some value) :
      ∃ preview, SavedFor c' token preview ∧ value = encode (.fromPreview preview) := by
    obtain ⟨preview, hs, he⟩ := ht.stored token value hv
    exact ⟨preview, hs.step h, he⟩
  rcases ht.toHandled.store_cases h with he | ⟨key, he⟩ |
    ⟨i, th, ⟨cl, r⟩, key, value', preview, hl, hcall, ⟨ttl, hcl⟩, hsaves, -, he⟩
  · exact keep (he ▸ hv)
  · rw [he] at hv
    by_cases hk : tokenKey token = key
    · rw [hk, Store.put_self] at hv
      cases hv
    · rw [Store.put_of_ne _ _ hk] at hv
      exact keep hv
  · rw [he] at hv
    by_cases hk : tokenKey token = key
    · rw [hk, Store.put_self] at hv
      cases hv
      simp only at hcl
      subst hcl hl
      obtain ⟨token', hkey, hvalue, hsaved⟩ := hsaves.saved ttl r
      obtain ⟨th₀, th', hi, hi', -, htrace⟩ := h.caller
      rw [hcall.thread] at hi
      cases hi
      rw [← htrace, ← tokenKey_injective (hk.trans hkey)] at hsaved
      exact ⟨preview, ⟨i, th', hi', hsaved⟩, hvalue⟩
    · rw [Store.put_of_ne _ _ hk] at hv
      exact keep hv

/-- An entry claimed in the step was stored before it. -/
theorem claimed_answer (h : Step (botSystem bot) c l c') {i : Nat} {th' : ChatThread} {key : Str}
    {value : Entry} (hi : c'.threads[i]? = some th')
    (hm : ⟨.redisGetdel key, .ok (some value)⟩ ∈ th'.trace) :
    (∃ th, c.threads[i]? = some th ∧ ⟨.redisGetdel key, .ok (some value)⟩ ∈ th.trace) ∨
      l = .call i ⟨.redisGetdel key, .ok (some value)⟩ ∧ c.shared key = some value := by
  obtain ⟨th, -, ⟨hi, hm⟩ | ⟨hl, hcall⟩⟩ := h.event_cases hi hm
  · exact .inl ⟨th, hi, hm⟩
  · have hstored : Stored c.shared (.redisGetdel key) (.ok (some value)) c'.shared := hcall.answer
    exact .inr ⟨hl, hstored.getdel_eq.1.symm⟩

theorem Tokens.claimed_step (ht : Tokens bot c) (h : Step (botSystem bot) c l c') {i : Nat}
    {th' : ChatThread} {value : Entry} (hi : c'.threads[i]? = some th')
    (hm : ⟨.redisGetdel (tokenKey token), .ok (some value)⟩ ∈ th'.trace) :
    ∃ preview, SavedFor c' token preview ∧ value = encode (.fromPreview preview) := by
  rcases claimed_answer h hi hm with ⟨th, hi, hm⟩ | ⟨-, hv⟩
  · obtain ⟨preview, hs, he⟩ := ht.claimed i th token value hi hm
    exact ⟨preview, hs.step h, he⟩
  · obtain ⟨preview, hs, he⟩ := ht.stored token value hv
    exact ⟨preview, hs.step h, he⟩

/-- Whoever claims an entry now finds that nobody has claimed it before. -/
theorem Tokens.claimedOnce_step (ht : Tokens bot c) (h : Step (botSystem bot) c l c') {i j : Nat}
    {th th' : ChatThread} {value value' : Entry} (hi : c'.threads[i]? = some th)
    (hj : c'.threads[j]? = some th')
    (hm : ⟨.redisGetdel (tokenKey token), .ok (some value)⟩ ∈ th.trace)
    (hm' : ⟨.redisGetdel (tokenKey token), .ok (some value')⟩ ∈ th'.trace) : i = j := by
  rcases claimed_answer h hi hm with ⟨th₀, hi, hm⟩ | ⟨hl, hv⟩
  · rcases claimed_answer h hj hm' with ⟨th₁, hj, hm'⟩ | ⟨-, hv'⟩
    · exact ht.claimedOnce i j th₀ th₁ token value value' hi hj hm hm'
    · have hgone := ht.spentGone i th₀ token hi (.inl ⟨_, hm⟩)
      rw [hgone] at hv'
      cases hv'
  · rcases claimed_answer h hj hm' with ⟨th₁, hj, hm'⟩ | ⟨hl', -⟩
    · have hgone := ht.spentGone j th₁ token hj (.inl ⟨_, hm'⟩)
      rw [hgone] at hv
      cases hv
    · rw [hl] at hl'
      cases hl'
      rfl

theorem Tokens.savedOnce_step (ht : Tokens bot c) (h : Step (botSystem bot) c l c')
    (hA : Fresh c l c') {i j : Nat} {th th' : ChatThread} {key : Str} {value value' : Entry}
    {ttl ttl' : Int} {r r' : Except Exc Unit} (hi : c'.threads[i]? = some th)
    (hj : c'.threads[j]? = some th') (hm : ⟨.redisSet key value ttl, r⟩ ∈ th.trace)
    (hm' : ⟨.redisSet key value' ttl', r'⟩ ∈ th'.trace) : i = j := by
  obtain ⟨th₀, -, ⟨hi, hm⟩ | ⟨hl, -⟩⟩ := h.event_cases hi hm
  · obtain ⟨th₁, -, ⟨hj, hm'⟩ | ⟨hl', -⟩⟩ := h.event_cases hj hm'
    · exact ht.savedOnce i j th₀ th₁ key value value' ttl ttl' r r' hi hj hm hm'
    · exact absurd hm ((hA j key value' ttl' r' hl' i th₀ hi).1 value ttl r)
  · obtain ⟨th₁, -, ⟨hj, hm'⟩ | ⟨hl', -⟩⟩ := h.event_cases hj hm'
    · exact absurd hm' ((hA i key value ttl r hl j th₁ hj).1 value' ttl' r')
    · rw [hl] at hl'
      cases hl'
      rfl

theorem Tokens.spentGone_step (ht : Tokens bot c) (h : Step (botSystem bot) c l c')
    (hA : Fresh c l c') {i : Nat} {th' : ChatThread} (hi : c'.threads[i]? = some th')
    (hs : SpentKey (tokenKey token) th'.trace) : c'.shared (tokenKey token) = none := by
  have before {th : ChatThread} (hi : c.threads[i]? = some th)
      (hs : SpentKey (tokenKey token) th.trace) : c'.shared (tokenKey token) = none :=
    gone_step ht.toHandled h hA hi (hs.names ht.toHandled hi) (ht.spentGone i th token hi hs)
  rcases hs with ⟨entry, hm⟩ | hm
  · obtain ⟨th, -, ⟨hi, hm⟩ | ⟨-, hcall⟩⟩ := h.event_cases hi hm
    · exact before hi (.inl ⟨entry, hm⟩)
    · have hstored : Stored c.shared (.redisGetdel (tokenKey token)) (.ok entry) c'.shared :=
        hcall.answer
      rw [hstored.getdel_eq.2, Store.put_self]
  · obtain ⟨th, -, ⟨hi, hm⟩ | ⟨-, hcall⟩⟩ := h.event_cases hi hm
    · exact before hi (.inr hm)
    · have hstored : Stored c.shared (.redisDelete (tokenKey token)) (.ok ()) c'.shared :=
        hcall.answer
      rw [hstored.delete_eq, Store.put_self]

theorem Tokens.step (ht : Tokens bot c) (h : Step (botSystem bot) c l c') (hA : Fresh c l c') :
    Tokens bot c' where
  toHandled := ht.toHandled.step h
  stored _ _ hv := ht.stored_step h hv
  claimed _ _ _ _ hi hm := ht.claimed_step h hi hm
  claimedOnce _ _ _ _ _ _ _ hi hj hm hm' := ht.claimedOnce_step h hi hj hm hm'
  savedOnce _ _ _ _ _ _ _ _ _ _ _ hi hj hm hm' := ht.savedOnce_step h hA hi hj hm hm'
  spentGone _ _ _ hi hs := ht.spentGone_step h hA hi hs

theorem Tokens.reach (h : Reach (botSystem bot) Fresh ⟨fun _ => none, []⟩ c) : Tokens bot c :=
  h.invariant .init fun _ _ _ ht hs hA => ht.step hs hA

/-! ## What a card is good for -/

/-- Where the SET stands in the history. -/
theorem Saved.split {t : Trace} {preview : MediaPreview} (h : Saved t token preview) :
    ∃ u v ttl r,
      t = u ++ ⟨.redisSet (tokenKey token) (encode (.fromPreview preview)) ttl, r⟩ :: v := by
  obtain ⟨u, v, url, ttl, r, rfl⟩ := h
  exact ⟨u ++ [⟨.getPreview url, .ok preview⟩, ⟨.uuid4Hex, .ok token⟩], v, ttl, r, by simp⟩

/-- A token is saved for one context only. -/
theorem Tokens.saved_unique (ht : Tokens bot c) {preview preview' : MediaPreview}
    (hs : SavedFor c token preview) (hs' : SavedFor c token preview') :
    PreviewContext.fromPreview preview = .fromPreview preview' := by
  obtain ⟨i, th, hi, hsaved⟩ := hs
  obtain ⟨j, th', hj, hsaved'⟩ := hs'
  obtain ⟨u, v, ttl, r, htrace⟩ := hsaved.split
  obtain ⟨u', v', ttl', r', htrace'⟩ := hsaved'.split
  have hm : ⟨.redisSet (tokenKey token) (encode (.fromPreview preview)) ttl, r⟩ ∈ th.trace := by
    rw [htrace]
    exact List.mem_append_right _ List.mem_cons_self
  have hm' : ⟨.redisSet (tokenKey token) (encode (.fromPreview preview')) ttl', r'⟩ ∈
      th'.trace := by
    rw [htrace']
    exact List.mem_append_right _ List.mem_cons_self
  obtain rfl := ht.savedOnce i j th th' _ _ _ _ _ _ _ hi hj hm hm'
  rw [hi] at hj
  cases hj
  -- a handler saves once, so both are the same SET
  have hsame := first_eq (htrace.symm.trans htrace') (p := isSave) rfl rfl
    (ht.toHandled.made hi htrace).2.1 (ht.toHandled.made hi htrace').2.1
  have hcall := congrArg Event.call hsame
  injection hcall with _ hvalue
  exact encode_injective hvalue

/-- A `dl:` tap requests what its token was saved for. -/
theorem Tokens.request (ht : Tokens bot c) {i : Nat} {th : ChatThread}
    (hi : c.threads[i]? = some th) (hk : th.kind.confirms = some token) {e : Ev}
    (hm : e ∈ th.trace) {telegramId : Int} {url : Str} {spec : DownloadSpec} {extractorKey : Str}
    (he : e.call = .requestDownload telegramId url spec extractorKey) :
    ∃ value preview, ⟨.redisGetdel (tokenKey token), .ok (some value)⟩ ∈ th.trace ∧
      SavedFor c token preview ∧ url = preview.sourceUrl ∧ extractorKey = preview.extractorKey := by
  obtain ⟨u, v, htrace⟩ := List.append_of_mem hm
  have hallow := ht.toHandled.made hi htrace
  rw [he] at hallow
  obtain ⟨-, ⟨hnone, -⟩ | ⟨context, ⟨token', entry, hk', hclaim, hd⟩, hurl, hkey⟩⟩ := hallow
  · rw [hk] at hnone
    cases hnone
  · rw [hk] at hk'
    cases hk'
    cases entry with
    | none => cases hd
    | some value =>
      have hpopped : ⟨.redisGetdel (tokenKey token), .ok (some value)⟩ ∈ th.trace := by
        rw [htrace]
        exact List.mem_append_left _ hclaim
      obtain ⟨preview, hs, rfl⟩ := ht.claimed i th token value hi hpopped
      rw [decode_encode] at hd
      cases hd
      exact ⟨_, preview, hpopped, hs, hurl, hkey⟩

/-- Entries into the use case from taps on the token. -/
def tokenRequests (c : Chats) (token : Str) : Nat :=
  (c.threads.map fun th =>
    if th.kind.confirms = some token then th.trace.countP isRequest else 0).sum

theorem isRequest_iff {e : Ev} : isRequest e = true ↔
    ∃ telegramId url spec extractorKey, e.call = .requestDownload telegramId url spec extractorKey := by
  unfold isRequest
  constructor
  · intro h
    split at h
    · next heq => exact ⟨_, _, _, _, heq⟩
    · cases h
  · rintro ⟨telegramId, url, spec, extractorKey, he⟩
    rw [he]

theorem Tokens.tokenRequests_le_one (ht : Tokens bot c) (token : Str) :
    tokenRequests c token ≤ 1 := by
  refine sum_map_le_one ?_ ?_
  · intro th hth
    obtain ⟨i, hi⟩ := List.getElem?_of_mem hth
    split
    · refine countP_le_one fun u e v htrace he => ?_
      obtain ⟨_, _, _, _, hcall⟩ := isRequest_iff.mp he
      have hallow := ht.toHandled.made hi htrace
      rw [hcall] at hallow
      exact hallow.1
    · exact Nat.zero_le _
  · intro i j th th' hi hj hne hne'
    have claim {i : Nat} {th : ChatThread} (hi : c.threads[i]? = some th)
        (hne : (if th.kind.confirms = some token then th.trace.countP isRequest else 0) ≠ 0) :
        ∃ value, ⟨.redisGetdel (tokenKey token), .ok (some value)⟩ ∈ th.trace := by
      split at hne
      · next hk =>
        obtain ⟨e, hmem, he⟩ := List.countP_pos_iff.mp (Nat.pos_of_ne_zero hne)
        obtain ⟨_, _, _, _, hcall⟩ := isRequest_iff.mp he
        obtain ⟨value, _, hclaim, -⟩ := ht.request hi hk hmem hcall
        exact ⟨value, hclaim⟩
      · exact absurd rfl hne
    obtain ⟨value, hclaim⟩ := claim hi hne
    obtain ⟨value', hclaim'⟩ := claim hj hne'
    exact ht.claimedOnce i j th th' token value value' hi hj hclaim hclaim'

/-- What is persisted was requested, in a format the policy allows. -/
theorem Handled.create (hc : Handled bot c) {i : Nat} {th : ChatThread}
    (hi : c.threads[i]? = some th) {request : DownloadRequest} {r : Except Exc Unit}
    (hm : ⟨.create request, r⟩ ∈ th.trace) :
    ∃ telegramId url extractorKey,
      ⟨.requestDownload telegramId url request.spec extractorKey, .ok ()⟩ ∈ th.trace ∧
        bot.policy.isAllowed bot.unicode extractorKey request.spec = true := by
  obtain ⟨u, v, htrace⟩ := List.append_of_mem hm
  obtain ⟨telegramId, url, spec, extractorKey, hentered, -, hallowed, hspec⟩ := hc.made hi htrace
  refine ⟨telegramId, url, extractorKey, ?_, hspec ▸ hallowed⟩
  rw [htrace, hspec]
  exact List.mem_append_left _ hentered

/-- A `q:` or `back:` tap neither claims nor deletes. -/
theorem peeks_confirms {update : Update} (h : update.peeks = true) :
    update.confirms = none ∧ update.cancels = none := by
  cases update with
  | message _ _ _ => cases h
  | callback locale tap =>
    rw [confirms_callback, cancels_callback]
    rcases Bool.or_eq_true_iff.mp h with h | h
    · have hc : hasPrefix cbConfirmPrefix tap = false := hasPrefix_disjoint h rfl rfl
      have hx : hasPrefix cbCancelPrefix tap = false := hasPrefix_disjoint h rfl rfl
      simp [hc, hx]
    · have hc : hasPrefix cbConfirmPrefix tap = false := hasPrefix_disjoint h rfl rfl
      have hx : hasPrefix cbCancelPrefix tap = false := hasPrefix_disjoint h rfl rfl
      simp [hc, hx]

/-- Looking at a card leaves the store as it is. -/
theorem Handled.peek (hc : Handled bot c) {i : Nat} {th : ChatThread} {e : Ev}
    (hi : c.threads[i]? = some th) (hp : th.kind.peeks = true)
    (h : Step (botSystem bot) c (.call i e) c') : c'.shared = c.shared := by
  obtain ⟨hconf, hcanc⟩ := peeks_confirms hp
  rcases h.shared_cases with he | ⟨hl, -⟩ | ⟨j, th', e', hl, hcall⟩
  · exact he
  · cases hl
  cases hl
  obtain rfl := hcall.thread_eq hi
  have hallow := hc.allows hcall
  have hstored : Stored c.shared e.call e.resp c'.shared := hcall.answer
  rcases hstored.write_cases with he | ⟨key, value, ttl, hset, -⟩ | ⟨key, hget | hdel, -⟩
  · exact he
  · rw [hset] at hallow
    obtain ⟨⟨_, _, _, hk⟩, -⟩ := hallow
    rw [hk] at hp
    cases hp
  · rw [hget] at hallow
    obtain ⟨-, token, hk, -⟩ := hallow
    rw [hconf] at hk
    cases hk
  · rw [hdel] at hallow
    obtain ⟨-, token, hk, -⟩ := hallow
    rw [hcanc] at hk
    cases hk

/-- A tap that returned has spent its token. -/
theorem spentKey_of_returned {update : Update} {t : Trace} (hn : update.Names token)
    (hr : Runs (bot.handleUpdate update) t (.ok ())) (hg : ∀ e ∈ t, Truthful e) :
    SpentKey (tokenKey token) t := by
  obtain ⟨hconf, hcanc⟩ := historyMonitor_post (bot.wp_handleUpdate update) hr hg rfl
  rcases hn with hk | hk
  · exact .inl (hconf token hk)
  · exact .inr (hcanc token hk)

/-- Whoever starts after the token was spent finds nothing to claim. -/
theorem Tokens.late (ht : Tokens bot c) {i : Nat} {th : ChatThread}
    (hi : c.threads[i]? = some th) (hs : SpentKey (tokenKey token) th.trace)
    (h : Reach (botSystem bot) Fresh c c') :
    Tokens bot c' ∧ ∀ (j : Nat) (th' : ChatThread) (value : Entry), c.threads.length ≤ j →
      c'.threads[j]? = some th' → ⟨.redisGetdel (tokenKey token), .ok (some value)⟩ ∉ th'.trace := by
  induction h with
  | refl =>
    refine ⟨ht, fun j th' value hlen hj => ?_⟩
    rw [List.getElem?_eq_none hlen] at hj
    cases hj
  | tail hreach hstep hA ih =>
    obtain ⟨htmid, hmid⟩ := ih
    refine ⟨htmid.step hstep hA, fun j th' value hlen hj hm => ?_⟩
    rcases claimed_answer hstep hj hm with ⟨th₀, hj₀, hm⟩ | ⟨-, hv⟩
    · exact hmid j th₀ value hlen hj₀ hm
    · obtain ⟨thi, hi', -, hpre⟩ := hreach.extends i th hi
      have hspent : SpentKey (tokenKey token) thi.trace := by
        rcases hs with ⟨entry, hm⟩ | hm
        · exact .inl ⟨entry, hpre.subset hm⟩
        · exact .inr (hpre.subset hm)
      rw [htmid.spentGone i thi token hi' hspent] at hv
      cases hv

end Tokens

/-- What holds of preview cards and their buttons in a state of the bot. -/
structure CardPromise (bot : Bot) (c : Chats) : Prop where
  once : ∀ token, tokenRequests c token ≤ 1
  /-- A tap requests the URL and the extractor its token was saved for. -/
  facts : ∀ (i : Nat) (th : ChatThread) (token : Str) (telegramId : Int) (url : Str)
    (spec : DownloadSpec) (extractorKey : Str) (r : Except Exc Unit), c.threads[i]? = some th →
      th.kind.confirms = some token →
      ⟨.requestDownload telegramId url spec extractorKey, r⟩ ∈ th.trace →
      (∃ preview, SavedFor c token preview) ∧ ∀ preview, SavedFor c token preview →
        url = preview.sourceUrl ∧ extractorKey = preview.extractorKey
  peeking : ∀ (i : Nat) (th : ChatThread) (e : Ev) (c' : Chats), c.threads[i]? = some th →
    th.kind.peeks = true → Step (botSystem bot) c (.call i e) c' → c'.shared = c.shared
  /-- After a tap on the token has returned, no `dl:` tap that starts later requests. -/
  late : ∀ (i : Nat) (th : ChatThread) (token : Str), c.threads[i]? = some th →
    th.kind.Names token → Runs (bot.handleUpdate th.kind) th.trace (.ok ()) →
    ∀ (c' : Chats) (j : Nat) (th' : ChatThread), Reach (botSystem bot) Fresh c c' →
      c.threads.length ≤ j → c'.threads[j]? = some th' → th'.kind.confirms = some token →
      th'.trace.any isRequest = false ∧ ∀ request r, ⟨.create request, r⟩ ∉ th'.trace
  /-- Whatever is persisted, the policy allows for the extractor it was requested
  with, after a tap for the one its token was saved for. -/
  allowed : ∀ (i : Nat) (th : ChatThread) (request : DownloadRequest) (r : Except Exc Unit),
    c.threads[i]? = some th → ⟨.create request, r⟩ ∈ th.trace →
      ∃ telegramId url extractorKey,
        ⟨.requestDownload telegramId url request.spec extractorKey, .ok ()⟩ ∈ th.trace ∧
          bot.policy.isAllowed bot.unicode extractorKey request.spec = true ∧
          ∀ token preview, th.kind.confirms = some token → SavedFor c token preview →
            extractorKey = preview.extractorKey

/-- One preview token, at most one request, on what the preview found. -/
theorem preview_token_once (bot : Bot) {c : Chats}
    (h : Reach (botSystem bot) Fresh ⟨fun _ => none, []⟩ c) : CardPromise bot c := by
  have ht := Tokens.reach h
  have facts {i : Nat} {th : ChatThread} {token : Str} (hi : c.threads[i]? = some th)
      (hk : th.kind.confirms = some token) {telegramId : Int} {url : Str} {spec : DownloadSpec}
      {extractorKey : Str} {r : Except Exc Unit}
      (hm : ⟨.requestDownload telegramId url spec extractorKey, r⟩ ∈ th.trace) :
      (∃ preview, SavedFor c token preview) ∧ ∀ preview, SavedFor c token preview →
        url = preview.sourceUrl ∧ extractorKey = preview.extractorKey := by
    obtain ⟨value, preview, -, hs, rfl, rfl⟩ := ht.request hi hk hm rfl
    refine ⟨⟨preview, hs⟩, fun preview' hs' => ?_⟩
    have hsame := ht.saved_unique hs hs'
    exact ⟨congrArg PreviewContext.url hsame, congrArg PreviewContext.extractorKey hsame⟩
  constructor
  · exact ht.tokenRequests_le_one
  · exact fun i th token telegramId url spec extractorKey r hi hk hm => facts hi hk hm
  · exact fun i th e c' hi hp hstep => ht.toHandled.peek hi hp hstep
  · intro i th token hi hn hr c' j th' hreach hlen hj hk
    have hspent := spentKey_of_returned hn hr (ht.answered i th hi)
    obtain ⟨ht', hlate⟩ := ht.late hi hspent hreach
    have hnone (e : Ev) (he : e ∈ th'.trace) : ¬ isRequest e = true := by
      intro hreq
      obtain ⟨_, _, _, _, hcall⟩ := isRequest_iff.mp hreq
      obtain ⟨value, _, hclaim, -⟩ := ht'.request hj hk he hcall
      exact hlate j th' value hlen hj hclaim
    refine ⟨List.any_eq_false.mpr hnone, fun request r hm => ?_⟩
    obtain ⟨_, _, _, hentered, -⟩ := ht'.toHandled.create hj hm
    exact hnone _ hentered rfl
  · intro i th request r hi hm
    obtain ⟨telegramId, url, extractorKey, hentered, hallowed⟩ := ht.toHandled.create hi hm
    refine ⟨telegramId, url, extractorKey, hentered, hallowed, fun token preview hk hs => ?_⟩
    exact ((facts hi hk hentered).2 preview hs).2

/-! ## One card, one tap -/

namespace Pasted

/-- User 88 taps the audio button of the card. -/
def tap : Update :=
  .callback (str "en") ⟨88, some (str "dl:t:a"), some ⟨some 77, some (str "v"), 5, 7⟩⟩

def sender : User := User.createFromTelegram 2 0 88 none

def request : DownloadRequest := DownloadRequest.create 1 0 2 link .audio

def shown : Store :=
  Store.put (fun _ => none) (tokenKey (str "t")) (some (encode (.fromPreview preview)))

def tapped : Trace :=
  [⟨.redisGetdel (tokenKey (str "t")), .ok (shown (tokenKey (str "t")))⟩,
    ⟨.acquire (str "download:88") 10 3600, .ok ⟨true, 0⟩⟩,
    ⟨.requestDownload 88 link .audio (str "yt"), .ok ()⟩,
    ⟨.userGetByTelegramId 88, .ok (some sender)⟩, ⟨.uuid4, .ok (1 : Nat)⟩,
    ⟨.utcnow, .ok (0 : Int)⟩, ⟨.create request, .ok ()⟩]

theorem tapped_answers : Answers (botSystem bot) tap shown tapped
    (shown.put (tokenKey (str "t")) none) :=
  .cons .getdel (.cons (.other rfl) (.cons .entered (.cons (.other rfl) (.cons (.other rfl)
    (.cons (.other rfl) (.cons (.other rfl) (.nil _)))))))

theorem tapped_steps : ∃ q, Steps ((botSystem bot).code tap) tapped q :=
  ⟨_, .call (.call (.call (.call (.call (.call (.call (.done _)))))))⟩

/-- Steps that save nothing need no new token. -/
theorem fresh_of_not_save {c c' : Chats} {i : Nat} {e : Ev} (h : isSave e = false) :
    Fresh c (.call i e) c' := by
  rintro _ key value ttl r ⟨rfl⟩
  cases h

/-- The card is shown. -/
theorem shown_reach : ∃ q, Reach (botSystem bot) Fresh ⟨fun _ => none, []⟩
    ⟨shown, [⟨update, q, previewed ++ [saving], false⟩]⟩ := by
  obtain ⟨f, hreach⟩ := previewed_reach (by rintro c' i key value ttl r ⟨⟩)
    fun c e c' he => fresh_of_not_save (by
      simp only [previewed, List.mem_cons, List.not_mem_nil, or_false] at he
      rcases he with rfl | rfl | rfl | rfl <;> rfl)
  have hstep : Step (botSystem bot)
      ⟨fun _ => none, [⟨update, .call saving.call f, previewed, false⟩]⟩ (.call 0 saving)
      ⟨shown, [⟨update, f (.ok ()), previewed ++ [saving], false⟩]⟩ :=
    @Step.call _ _ _ _ _ (botSystem bot)
      ⟨fun _ => none, [⟨update, .call saving.call f, previewed, false⟩]⟩ 0 _ saving.call f (.ok ())
      shown rfl rfl rfl .set
  refine ⟨_, .tail hreach hstep ?_⟩
  rintro i key value ttl r - j th hj
  have hth : th = ⟨update, .call saving.call f, previewed, false⟩ :=
    List.mem_singleton.mp (List.mem_of_getElem? hj)
  subst hth
  constructor
  · intro value' ttl' r' hm
    simp [previewed] at hm
  · exact fun token hn => absurd hn (not_names_message _ _ _ token)

/-- The card is tapped. -/
theorem tapped_reach : ∃ q q', Reach (botSystem bot) Fresh ⟨fun _ => none, []⟩
    ⟨shown.put (tokenKey (str "t")) none, [⟨update, q, previewed ++ [saving], false⟩,
      ⟨tap, q', tapped, false⟩]⟩ := by
  obtain ⟨q, hshown⟩ := shown_reach
  obtain ⟨q', hsteps⟩ := tapped_steps
  have hstep : Step (botSystem bot) ⟨shown, [⟨update, q, previewed ++ [saving], false⟩]⟩
      (.start tap) ⟨shown, [⟨update, q, previewed ++ [saving], false⟩,
        Thread.new (botSystem bot) tap]⟩ := .start trivial
  have hstarted := Reach.tail hshown hstep (by rintro i key value ttl r ⟨⟩)
  have hnew : ([⟨update, q, previewed ++ [saving], false⟩,
      Thread.new (botSystem bot) tap] : List ChatThread)[1]? =
      some ⟨tap, (botSystem bot).code tap, [], false⟩ := rfl
  have hreach := hstarted.runCalls (fun c e c' he => fresh_of_not_save (by
      simp only [tapped, List.mem_cons, List.not_mem_nil, or_false] at he
      rcases he with rfl | rfl | rfl | rfl | rfl | rfl | rfl <;> rfl))
    hnew hsteps tapped_answers
  exact ⟨q, q', hreach⟩

end Pasted

/-- The tap on the shown card requests the link, once. -/
theorem preview_token_once_tapped : ∃ c : Chats,
    Reach (botSystem Pasted.bot) Fresh ⟨fun _ => none, []⟩ c ∧ CardPromise Pasted.bot c ∧
      tokenRequests c (str "t") = 1 := by
  obtain ⟨q, q', hreach⟩ := Pasted.tapped_reach
  exact ⟨_, hreach, preview_token_once Pasted.bot hreach, rfl⟩

end MediaDownloader
