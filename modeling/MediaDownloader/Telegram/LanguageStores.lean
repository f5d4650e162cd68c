import MediaDownloader.Telegram.Registration

/-!
# Two language stores

A `lang:` tap writes the override in Redis, then `users.language`; a row that is
not there yet is not written.  Rows come from `/start`, in the locale resolved
before it, and from download requests, in no language at all.

* `choosing_ends`: only its second write ends a choice;
* `Languages.step`: while no choice is half done, the stores agree;
* `languages_agree`: so they do once everybody has finished, if no late write
  and no new row went against the override;
* `languages_part`: such a write leaves them in two languages;
* `choice_lost`: a choice made before the user has a row.
-/

namespace MediaDownloader

open Interaction

/-- Some task of the user, other than `i`, is between its two writes. -/
def OtherChoice (telegramId : Int) (c : UserConf) (i : Nat) : Prop :=
  ∃ (j : Nat) (th : UserThread), c.threads[j]? = some th ∧ j ≠ i ∧
    th.kind.telegramId = some telegramId ∧ Choosing th.trace

/-- A tap updates the row, and a row is inserted, only in the language of the
override, or else while another choice has yet to write the row. -/
def InStep (telegramId : Int) (c : UserConf) (l : UserLabel) (_ : UserConf) : Prop :=
  (∀ i language row, l = .call i ⟨.userSetLanguage telegramId language, .ok (some row)⟩ →
    c.shared.override telegramId = language ∨ OtherChoice telegramId c i) ∧
  ∀ i user, l = .call i ⟨.userCreate user, .ok ()⟩ → user.telegramId = some telegramId →
    c.shared.override telegramId = none ∨ c.shared.override telegramId = user.language ∨
      OtherChoice telegramId c i

/-- The override is a locale of the bot, and the row, if there is one, has it too. -/
structure Agree (telegramId : Int) (w : UserStores) : Prop where
  supported : ∀ locale, w.override telegramId = some locale → locale ∈ Handler.supportedLocales
  same : ∀ locale row, w.override telegramId = some locale →
    w.users.getByTelegramId telegramId = some row → row.language = some locale

/-- The worker writes in the language the bot replies in. -/
theorem Agree.replies {u : Unicode} {telegramId : Int} {w : UserStores} (h : Agree telegramId w)
    (hlower : ∀ locale ∈ Handler.supportedLocales, u.lower locale = locale) {locale : Str}
    {row : User} (hover : w.override telegramId = some locale)
    (hrow : w.users.getByTelegramId telegramId = some row) (languageCode : Option Str) :
    row.language =
      some (UserLocaleManager.getLocale u (w.override telegramId) languageCode) := by
  have hsup := h.supported locale hover
  rw [h.same locale row hover hrow, hover,
    UserLocaleManager.getLocale_override u languageCode hsup (hlower locale hsup)]

/-- No choice of the user is half done. -/
def Quiet (telegramId : Int) (c : UserConf) : Prop :=
  ∀ (i : Nat) (th : UserThread), c.threads[i]? = some th →
    th.kind.telegramId = some telegramId → ¬ Choosing th.trace

section Languages

variable {bot : Bot} {telegramId : Int} {c c' : UserConf} {l : UserLabel}

/-! ## Choices in progress -/

/-- A choice that is no longer half done has just written the row. -/
theorem choosing_ends (hc : UserTasks bot c) (h : Step (userSystem bot) c l c')
    (hq : Quiet telegramId c') {j : Nat} {th : UserThread} (hj : c.threads[j]? = some th)
    (hk : th.kind.telegramId = some telegramId) (hch : Choosing th.trace) :
    ∃ language r, l = .call j ⟨.userSetLanguage telegramId language, r⟩ := by
  obtain ⟨th', hj', hkind, -⟩ := h.extends j th hj
  have hover : ¬ Choosing th'.trace := hq j th' hj' (by rw [hkind, hk])
  rcases h.thread_cases hj' with ⟨old, hold, -, ht, -⟩ | ⟨k, -, hlen, -⟩ |
    ⟨old, e, f, hl, hcall, -, rfl⟩
  · rw [hj] at hold
    cases hold
    rw [ht] at hover
    exact absurd hch hover
  · have hlt : j < c.threads.length := (List.getElem?_eq_some_iff.mp hj).1
    omega
  · obtain rfl := hcall.thread_eq hj
    by_contra hne
    apply hover
    obtain ⟨⟨locale, r, hm⟩, hno⟩ := hch
    refine ⟨⟨locale, r, List.mem_append_left _ hm⟩, ?_⟩
    intro d hd id language hd'
    rcases List.mem_append.mp hd with hd | hd
    · exact hno d hd id language hd'
    · obtain ⟨cl, r⟩ := e
      cases List.mem_singleton.mp hd
      cases hd'
      have hid : th.kind.telegramId = some id := (hc.allows hcall).1
      rw [hk] at hid
      cases hid
      exact hne ⟨language, r, hl⟩

/-- The task that writes the row next is half done. -/
theorem UserTasks.choosing (hc : UserTasks bot c) {i : Nat} {th : UserThread}
    {language : Option Str} {r : Except Exc (Option User)} {w : UserStores}
    (hcall : c.Calls (userSystem bot) i th ⟨.userSetLanguage telegramId language, r⟩ w) :
    th.kind.telegramId = some telegramId ∧ Choosing th.trace := by
  obtain ⟨hid, locale, -, -, ht⟩ := hc.allows hcall
  rw [ht]
  refine ⟨hid, ⟨locale, _, List.mem_singleton.mpr rfl⟩, ?_⟩
  intro e he id language' hset
  cases List.mem_singleton.mp he
  cases hset

/-- A finished task is not half done. -/
theorem UserTasks.quiet_of_finished (hc : UserTasks bot c) {i : Nat} {th : UserThread}
    (hi : c.threads[i]? = some th) (hfin : th.Finished) : ¬ Choosing th.trace := by
  intro hch
  obtain ⟨⟨locale, r, hm⟩, -⟩ := id hch
  obtain ⟨u, v, ht⟩ := List.append_of_mem hm
  have hchosen : th.kind.chosen = some locale := (hc.made hi ht).1
  refine (hc.done hi hfin).2 ?_ hch
  rw [hchosen]
  rfl

/-! ## The invariant -/

/-- The stores agree whenever no choice is half done. -/
structure Languages (bot : Bot) (telegramId : Int) (c : UserConf) : Prop
    extends UserTasks bot c where
  supported : ∀ locale, c.shared.override telegramId = some locale →
    locale ∈ Handler.supportedLocales
  same : Quiet telegramId c → ∀ locale row, c.shared.override telegramId = some locale →
    c.shared.users.getByTelegramId telegramId = some row → row.language = some locale

theorem Languages.init (h : c.threads = []) (hagree : Agree telegramId c.shared) :
    Languages bot telegramId c where
  toUserTasks := .init h
  supported := hagree.supported
  same _ := hagree.same

theorem Languages.supported_step (hc : Languages bot telegramId c)
    (h : Step (userSystem bot) c l c') {locale : Str}
    (hover : c'.shared.override telegramId = some locale) :
    locale ∈ Handler.supportedLocales := by
  rcases stores_cases h with he | ⟨i, th, e, -, hcall, hconsulted⟩
  · rw [he] at hover
    exact hc.supported locale hover
  · rcases hconsulted.override_cases telegramId with he | ⟨chosen, hset, -, he⟩
    · rw [he] at hover
      exact hc.supported locale hover
    · have hallow := hc.allows hcall
      rw [hset] at hallow
      rw [he] at hover
      cases hover
      exact hallow.2.1

/-- The write of the row that ends the last choice in progress. -/
theorem Languages.same_update (hc : Languages bot telegramId c) {j : Nat}
    {language : Option Str} {r : Except Exc (Option User)}
    (h : Step (userSystem bot) c (.call j ⟨.userSetLanguage telegramId language, r⟩) c')
    (hA : InStep telegramId c (.call j ⟨.userSetLanguage telegramId language, r⟩) c')
    (hq : Quiet telegramId c') {locale : Str} {row : User}
    (hover : c'.shared.override telegramId = some locale)
    (hrow : c'.shared.users.getByTelegramId telegramId = some row) :
    row.language = some locale := by
  obtain ⟨th, hcall⟩ := h.calls
  have hconsulted : Consulted c.shared th.kind (.userSetLanguage telegramId language) r c'.shared :=
    hcall.answer
  obtain ⟨hr, hshared⟩ := hconsulted.setLanguage_eq
  rw [hshared] at hover hrow
  have hlang : row.language = language := by
    rw [UserTable.getByTelegramId_setLanguage] at hrow
    obtain ⟨old, -, rfl⟩ := Option.map_eq_some_iff.mp hrow
    rfl
  rw [hrow] at hr
  subst hr
  rcases hA.1 j language row rfl with hin | ⟨k, other, hk, hne, hid, hch⟩
  · rw [hlang, ← hin]
    exact hover
  · obtain ⟨_, _, hl⟩ := choosing_ends hc.toUserTasks h hq hk hid hch
    cases hl
    exact absurd rfl hne

/-- Any other step, with no choice in progress before it. -/
theorem Languages.same_quiet (hc : Languages bot telegramId c)
    (h : Step (userSystem bot) c l c') (hA : InStep telegramId c l c')
    (hq : Quiet telegramId c) (hq' : Quiet telegramId c') {locale : Str} {row : User}
    (hover : c'.shared.override telegramId = some locale)
    (hrow : c'.shared.users.getByTelegramId telegramId = some row) :
    row.language = some locale := by
  rcases stores_cases h with he | ⟨i, th, e, hl, hcall, hconsulted⟩
  · rw [he] at hover hrow
    exact hc.same hq locale row hover hrow
  rcases hconsulted.override_cases telegramId with he | ⟨chosen, hset, hk, -⟩
  · rw [he] at hover
    rcases hconsulted.row_cases telegramId with he | ⟨user, createdAt, rfl, hu, -, hmade⟩ |
      ⟨language, hset, -⟩
    · rw [he] at hrow
      exact hc.same hq locale row hover hrow
    · rw [hmade] at hrow
      cases hrow
      rcases hA.2 i user hl hu with hnone | hsame | ⟨j, other, hj, -, hid, hch⟩
      · rw [hover] at hnone
        cases hnone
      · exact hsame.symm.trans hover
      · exact absurd hch (hq j other hj hid)
    · obtain ⟨cl, r⟩ := e
      cases hset
      obtain ⟨hid, hch⟩ := hc.choosing hcall
      exact absurd hch (hq i th hcall.thread hid)
  · -- the override was written: this choice is half done now
    subst hl
    obtain ⟨th₀, th', hi, hi', hkind, ht⟩ := h.caller
    obtain rfl := hcall.thread_eq hi
    have hallow := hc.allows hcall
    rw [hset] at hallow
    exfalso
    refine hq' i th' hi' (by rw [hkind, hk]) ?_
    rw [ht, hallow.2.2]
    obtain ⟨cl, r⟩ := e
    cases hset
    refine ⟨⟨chosen, r, List.mem_singleton.mpr rfl⟩, ?_⟩
    intro d hd id language hd'
    cases List.mem_singleton.mp hd
    cases hd'

theorem Languages.step (hc : Languages bot telegramId c) (h : Step (userSystem bot) c l c')
    (hA : InStep telegramId c l c') : Languages bot telegramId c' where
  toUserTasks := hc.toUserTasks.step h
  supported _ hover := hc.supported_step h hover
  same hq' locale row hover hrow := by
    by_cases hq : Quiet telegramId c
    · exact hc.same_quiet h hA hq hq' hover hrow
    · unfold Quiet at hq
      push Not at hq
      obtain ⟨j, th, hj, hk, hch⟩ := hq
      obtain ⟨language, r, rfl⟩ := choosing_ends hc.toUserTasks h hq' hj hk hch
      exact hc.same_update h hA hq' hover hrow

end Languages

/-- Once all tasks of a user have finished, the stores agree on the language. -/
theorem languages_agree (bot : Bot) (telegramId : Int) {c₀ c : UserConf} (h0 : c₀.threads = [])
    (hinit : Agree telegramId c₀.shared) (h : Reach (userSystem bot) (InStep telegramId) c₀ c)
    (hfin : ∀ (i : Nat) (th : UserThread), c.threads[i]? = some th →
      th.kind.telegramId = some telegramId → th.Finished) : Agree telegramId c.shared := by
  have hc : Languages bot telegramId c :=
    h.invariant (.init h0 hinit) fun _ _ _ hc hstep hA => hc.step hstep hA
  have hquiet : Quiet telegramId c := by
    intro i th hi hk
    exact hc.toUserTasks.quiet_of_finished hi (hfin i th hi hk)
  exact ⟨hc.supported, hc.same hquiet⟩

/-! ## A write against the override -/

section Parted

variable {bot : Bot} {telegramId : Int} {c c' : UserConf}

/-- A user who has chosen has an override. -/
structure Overridden (bot : Bot) (telegramId : Int) (c : UserConf) : Prop
    extends UserTasks bot c where
  chosen : ∀ (i : Nat) (th : UserThread) (locale : Str) (r : Except Exc Unit),
    c.threads[i]? = some th → th.kind.telegramId = some telegramId →
      ⟨.setLocale locale, r⟩ ∈ th.trace → c.shared.override telegramId ≠ none

theorem override_kept {l : UserLabel} (h : Step (userSystem bot) c l c')
    (hover : c.shared.override telegramId ≠ none) : c'.shared.override telegramId ≠ none := by
  rcases stores_cases h with he | ⟨i, th, e, -, -, hconsulted⟩
  · rw [he]
    exact hover
  · rcases hconsulted.override_cases telegramId with he | ⟨locale, -, -, he⟩
    · rw [he]
      exact hover
    · rw [he]
      exact Option.some_ne_none locale

theorem Overridden.step {l : UserLabel} (hc : Overridden bot telegramId c)
    (h : Step (userSystem bot) c l c') : Overridden bot telegramId c' where
  toUserTasks := hc.toUserTasks.step h
  chosen j th' locale r hj hk hm := by
    obtain ⟨th, hkind, ⟨hi, hold⟩ | ⟨-, hcall⟩⟩ := h.event_cases hj hm
    · rw [hkind] at hk
      exact override_kept h (hc.chosen j th locale r hi hk hold)
    · rw [hkind] at hk
      have hconsulted : Consulted c.shared th.kind (.setLocale locale) r c'.shared := hcall.answer
      rw [hconsulted.setLocale_eq hk]
      exact Option.some_ne_none locale

/-- With no other choice around, a call that leaves its own task no choice half
done leaves none. -/
theorem quiet_of_alone {i : Nat} {e : Ev} (h : Step (userSystem bot) c (.call i e) c')
    (hno : ¬ OtherChoice telegramId c i)
    (hown : ∀ th, c.threads[i]? = some th → ¬ Choosing (th.trace ++ [e])) :
    Quiet telegramId c' := by
  intro j th' hj hk hch
  rcases h.thread_cases hj with ⟨th, hi, hkind, ht, -, -, hother⟩ | ⟨k, hl, -, -⟩ |
    ⟨th, d, f, hl, hcall, -, rfl⟩
  · refine hno ⟨j, th, hi, ?_, by rw [← hkind, hk], by rw [← ht]; exact hch⟩
    rintro rfl
    exact hother e rfl
  · cases hl
  · cases hl
    exact hown th hcall.thread hch

/-- A row updated against the override. -/
theorem Overridden.parts_updated (hc : Overridden bot telegramId c) {i : Nat}
    {language : Option Str} {row : User}
    (hs : Step (userSystem bot) c (.call i ⟨.userSetLanguage telegramId language, .ok (some row)⟩) c')
    (hne : c.shared.override telegramId ≠ language) (hno : ¬ OtherChoice telegramId c i) :
    Quiet telegramId c' ∧ ¬ Agree telegramId c'.shared := by
  obtain ⟨th, hcall⟩ := hs.calls
  have hconsulted : Consulted c.shared th.kind (.userSetLanguage telegramId language)
    (.ok (some row)) c'.shared := hcall.answer
  obtain ⟨hr, hshared⟩ := hconsulted.setLanguage_eq
  obtain ⟨hk, hch⟩ := hc.choosing hcall
  constructor
  · refine quiet_of_alone hs hno fun th' _ hch' => ?_
    exact hch'.2 _ (List.mem_append_right _ (List.mem_singleton.mpr rfl)) _ _ rfl
  · obtain ⟨⟨locale, r, hm⟩, -⟩ := hch
    obtain ⟨chosen, hover⟩ := Option.ne_none_iff_exists'.mp
      (hc.chosen i th locale r hcall.thread hk hm)
    intro hagree
    rw [hshared] at hagree
    have hrow := (Except.ok.inj hr).symm
    have hsame := hagree.same chosen row hover hrow
    rw [UserTable.getByTelegramId_setLanguage] at hrow
    obtain ⟨old, -, rfl⟩ := Option.map_eq_some_iff.mp hrow
    exact hne (hover.trans hsame.symm)

/-- A row inserted against the override. -/
theorem Overridden.parts_inserted (hc : Overridden bot telegramId c) {i : Nat} {user : User}
    (hs : Step (userSystem bot) c (.call i ⟨.userCreate user, .ok ()⟩) c')
    (hu : user.telegramId = some telegramId) (hsome : c.shared.override telegramId ≠ none)
    (hne : c.shared.override telegramId ≠ user.language) (hno : ¬ OtherChoice telegramId c i) :
    Quiet telegramId c' ∧ ¬ Agree telegramId c'.shared := by
  obtain ⟨th, hcall⟩ := hs.calls
  have hconsulted : Consulted c.shared th.kind (.userCreate user) (.ok ()) c'.shared :=
    hcall.answer
  constructor
  · refine quiet_of_alone hs hno fun th' hi hch => ?_
    obtain rfl := hcall.thread_eq hi
    obtain ⟨id, uuid, now, -, -, ht⟩ := hc.allows hcall
    obtain ⟨⟨locale, r, hm⟩, -⟩ := hch
    rw [ht] at hm
    simp at hm
  · obtain ⟨chosen, hover⟩ := Option.ne_none_iff_exists'.mp hsome
    rcases hconsulted.create_cases hu with ⟨-, -, createdAt, hrow⟩ | ⟨_, -, hr⟩
    · intro hagree
      rcases Consulted.override_cases (e := ⟨.userCreate user, .ok ()⟩) hconsulted telegramId
        with he | ⟨locale, hset, -⟩
      · have hsame := hagree.same chosen _ (he.trans hover) hrow
        exact hne (hover.trans hsame.symm)
      · cases hset
    · cases hr

/-- A step that is not in step leaves the stores in two languages, with no
choice left that could mend it. -/
theorem languages_part (bot : Bot) (telegramId : Int) {c₀ c c' : UserConf} {l : UserLabel}
    (h0 : c₀.threads = []) (h : Reach (userSystem bot) (fun _ _ _ => True) c₀ c)
    (hs : Step (userSystem bot) c l c') (hA : ¬ InStep telegramId c l c') :
    Quiet telegramId c' ∧ ¬ Agree telegramId c'.shared := by
  have hc : Overridden bot telegramId c := by
    refine h.invariant ⟨.init h0, ?_⟩ fun _ _ _ hc hstep _ => hc.step hstep
    exact fun _ _ _ _ hi => absurd hi (Conf.not_started h0)
  rcases not_and_or.mp hA with hupdate | hinsert
  · push Not at hupdate
    obtain ⟨i, language, row, rfl, hne, hno⟩ := hupdate
    exact hc.parts_updated hs hne hno
  · push Not at hinsert
    obtain ⟨i, user, rfl, hu, hsome, hne, hno⟩ := hinsert
    exact hc.parts_inserted hs hu hsome hne hno

end Parted

/-! ## A choice before the first link -/

namespace FirstChoice

open FirstContact

/-- User 77 picks Russian. -/
def tap : UserTask := .choice ⟨bot.core, str "en"⟩ ⟨77, some (str "lang:ru"), none⟩

def tapped (row : Option User) : Trace :=
  [⟨.setLocale (str "ru"), .ok ()⟩, ⟨.userSetLanguage 77 (some (str "ru")), .ok row⟩,
    ⟨.answerCallback none false, .ok ()⟩]

/-- The stores after the tap on `users`. -/
def picked (users : UserTable) : UserStores :=
  ⟨users.setLanguage 77 (some (str "ru")), fun id => if id = 77 then some (str "ru") else none⟩

def newcomer : User := User.createFromTelegram 2 0 77 none

/-- A download request that registers its user. -/
def requested : Trace :=
  asked ++ [⟨.userCreate newcomer, .ok ()⟩, ⟨.uuid4, .ok (1 : Nat)⟩, ⟨.utcnow, .ok (0 : Int)⟩,
    ⟨.create (DownloadRequest.create 1 0 2 link .audio), .ok ()⟩,
    ⟨.enqueueDownload 1 5 6, .ok (str "job")⟩]

/-- Redis has Russian, the row has no language. -/
def parted : UserStores :=
  { picked .empty with users := ⟨[newcomer], List.pairwise_singleton _ _⟩ }

theorem tapped_steps : ∃ f, Steps ((userSystem bot).code tap) [⟨.setLocale (str "ru"), .ok ()⟩]
      (.call (.userSetLanguage 77 (some (str "ru"))) f) ∧
    ∀ row, Steps (f (.ok row)) [⟨.answerCallback none false, .ok ()⟩] (.ret ()) :=
  ⟨_, .call (.done _), fun _ => .call (.done _)⟩

theorem requested_steps : Steps ((userSystem bot).code download) requested (.ret ()) :=
  .call (.call (.call (.call (.call (.call (.call (.call (.done _))))))))

theorem requested_answers :
    Answers (userSystem bot) download (picked .empty) requested parted :=
  .cons (.got 77) (.cons (.uuid 2) (.cons (.clock 0) (.cons (@Consulted.created _ _ _ 0 _ rfl)
    (.cons (.uuid 1) (.cons (.clock 0) (.cons (.elsewhere _ rfl)
      (.cons (.elsewhere _ rfl) (.nil _))))))))

theorem inStep_of_reads {c c' : UserConf} {i : Nat} {e : Ev}
    (hset : ∀ id language, e.call ≠ .userSetLanguage id language)
    (hcreate : ∀ user, e.call ≠ .userCreate user) : InStep 77 c (.call i e) c' := by
  constructor
  · rintro _ language row ⟨rfl⟩
    exact absurd rfl (hset 77 language)
  · rintro _ user ⟨rfl⟩
    exact absurd rfl (hcreate user)

/-- The tap on its own keeps the stores in step. -/
theorem tapped_reach (users : UserTable) : Reach (userSystem bot) (InStep 77)
    ⟨⟨users, fun _ => none⟩, []⟩ ⟨picked users, [⟨tap, .ret (), tapped
      ((users.setLanguage 77 (some (str "ru"))).getByTelegramId 77), false⟩]⟩ := by
  obtain ⟨f, hfirst, hrest⟩ := tapped_steps
  have hstart := @Step.start _ _ _ _ _ (userSystem bot) ⟨⟨users, fun _ => none⟩, []⟩ tap
    (by rintro _ _ _ _ ⟨⟩)
  have hbegun : Reach (userSystem bot) (InStep 77) ⟨⟨users, fun _ => none⟩, []⟩ _ :=
    .tail .refl hstart ⟨by rintro _ _ _ ⟨⟩, by rintro _ _ ⟨⟩⟩
  have hchosen := hbegun.runCalls (i := 0) (fun c e c' he => by
      cases List.mem_singleton.mp he
      exact inStep_of_reads (by rintro _ _ ⟨⟩) (by rintro _ ⟨⟩))
    rfl hfirst (.cons (.overridden _ rfl) (.nil _))
  have hwritten := @Step.call _ _ _ _ _ (userSystem bot)
    ⟨(⟨users, fun _ => none⟩ : UserStores).setOverride 77 (str "ru"),
      [⟨tap, .call (.userSetLanguage 77 (some (str "ru"))) f,
        [⟨.setLocale (str "ru"), .ok ()⟩], false⟩]⟩ 0 _
    (.userSetLanguage 77 (some (str "ru"))) f _ (picked users) rfl rfl rfl (.updated 77 _)
  refine (Reach.tail hchosen hwritten ?_).runCalls (i := 0) (fun c e c' he => ?_) rfl (hrest _)
    (.cons (.elsewhere _ rfl) (.nil _))
  · constructor
    · intro i language row hl
      injection hl with _ he
      injection he with hset _
      cases hset
      exact .inl rfl
    · rintro i user ⟨⟩
  · cases List.mem_singleton.mp he
    exact inStep_of_reads (by rintro _ _ ⟨⟩) (by rintro _ ⟨⟩)

end FirstChoice

/-- With a row to write to, the tap changes both stores. -/
theorem languages_agree_tapped : Agree 77 (FirstChoice.picked FirstContact.occupied.users) := by
  refine languages_agree FirstContact.bot 77 rfl ?_
    (FirstChoice.tapped_reach FirstContact.occupied.users) ?_
  · constructor
    · rintro locale ⟨⟩
    · rintro locale row ⟨⟩
  · intro i th hi _
    have hth := List.mem_singleton.mp (List.mem_of_getElem? hi)
    rw [hth]
    rfl

/-- Without a row the tap writes Redis only, and the request's new row has no
language. -/
theorem choice_lost : ∃ c : UserConf,
    Reach (userSystem FirstContact.bot) (fun _ _ _ => True) ⟨FirstContact.vacant, []⟩ c ∧
      (∀ th ∈ c.threads, th.Finished) ∧
      c.shared.override 77 = some (str "ru") ∧
      c.shared.users.getByTelegramId 77 = some FirstChoice.newcomer ∧
      FirstChoice.newcomer.language = none ∧ ¬ Agree 77 c.shared := by
  have htapped := (FirstChoice.tapped_reach .empty).mono
    (B := fun _ _ _ => True) fun _ _ _ _ => trivial
  have hstart := @Step.start _ _ _ _ _ (userSystem FirstContact.bot)
    ⟨FirstChoice.picked .empty, [⟨FirstChoice.tap, .ret (), FirstChoice.tapped
      ((UserTable.empty.setLanguage 77 (some (str "ru"))).getByTelegramId 77), false⟩]⟩
    FirstContact.download (by rintro _ _ _ _ ⟨⟩)
  have hreach := (htapped.tail hstart trivial).runCalls (i := 1) (fun _ _ _ _ => trivial) rfl
    FirstChoice.requested_steps FirstChoice.requested_answers
  refine ⟨_, hreach, ?_, rfl, rfl, rfl, fun hagree => ?_⟩
  · intro th hth
    rcases List.mem_pair.mp hth with rfl | rfl
    · rfl
    · rfl
  · have hsame := hagree.same (str "ru") FirstChoice.newcomer rfl rfl
    cases hsame

end MediaDownloader
