import MediaDownloader.Application.FormatPolicy

/-!
# DISABLED_FORMATS, from the settings to the policy

The mapping is folded to lower case twice, by the settings and by the policy,
into a new dictionary each time.

* `dictGet_foldl`: of the entries that come to one key, the last is kept;
* `disabledFor_formatPolicy`: so for the two foldings together;
* `honoured_iff`: a kind that is listed stays disabled exactly when that entry
  lists it;
* `entry_lost`: two spellings of one extractor.
-/

namespace MediaDownloader

/-! ## Dictionaries -/

section Dict

variable {κ ν : Type} [DecidableEq κ]

/-- The entries that a dictionary comprehension brings under one key. -/
def entriesFor (f : κ → κ) (key : κ) (entries : List (κ × ν)) : List (κ × ν) :=
  entries.filter fun e => f e.1 = key

/-- `{f(k): v for k, v in entries}`: the last entry that comes to a key is kept. -/
theorem dictGet_foldl (f : κ → κ) (key : κ) (entries : List (κ × ν)) :
    dictGet key (entries.foldl (fun d e => dictSet (f e.1) e.2 d) []) =
      (entriesFor f key entries).getLast?.map Prod.snd := by
  induction entries using List.reverseRecOn with
  | nil => rfl
  | append_singleton entries e ih =>
    rw [List.foldl_append, List.foldl_cons, List.foldl_nil, dictGet_dictSet, ih]
    simp only [entriesFor, List.filter_append]
    by_cases hk : f e.1 = key <;> simp [hk]

theorem nodup_foldl (f : κ → κ) (entries : List (κ × ν)) :
    ((entries.foldl (fun d e => dictSet (f e.1) e.2 d) []).map Prod.fst).Nodup := by
  induction entries using List.reverseRecOn with
  | nil => simp
  | append_singleton entries e ih =>
    rw [List.foldl_append]
    exact nodup_dictSet ih _ _

/-- The keys of the new dictionary are values of `f`. -/
theorem keys_foldl (f : κ → κ) (entries : List (κ × ν)) {k : κ}
    (h : k ∈ (entries.foldl (fun d e => dictSet (f e.1) e.2 d) []).map Prod.fst) :
    ∃ e ∈ entries, f e.1 = k := by
  induction entries using List.reverseRecOn with
  | nil => cases h
  | append_singleton entries e ih =>
    rw [List.foldl_append, List.foldl_cons, List.foldl_nil, keys_dictSet] at h
    rcases h with rfl | h
    · exact ⟨e, by simp, rfl⟩
    · obtain ⟨e', he', hk⟩ := ih h
      exact ⟨e', List.mem_append_left _ he', hk⟩

/-- In a dictionary the entry of a key is the only one. -/
theorem getLast_of_nodup {d : List (κ × ν)} (h : (d.map Prod.fst).Nodup) (key : κ) :
    (entriesFor id key d).getLast?.map Prod.snd = dictGet key d := by
  induction d with
  | nil => rfl
  | cons e d ih =>
    rw [List.map_cons, List.nodup_cons] at h
    rw [dictGet]
    by_cases hk : e.1 = key
    · have hrest : d.filter (fun e' => decide (e'.1 = key)) = [] := by
        rw [List.filter_eq_nil_iff]
        intro e' he' hkey
        have hsame : e'.1 = e.1 := (of_decide_eq_true hkey).trans hk.symm
        exact h.1 (hsame ▸ List.mem_map_of_mem he')
      simp [entriesFor, hk, hrest]
    · have hrest := ih h.2
      simp only [entriesFor, id] at hrest ⊢
      rw [List.filter_cons_of_neg (by simpa using hk), hrest, if_neg hk]

end Dict

/-! ## From the settings to the policy -/

/-- `Literal["video", "audio"]`. -/
structure KindName where
  value : Str
  isKind : value = str "video" ∨ value = str "audio"

/-- `FormatKind(kind)`. -/
def KindName.formatKind (kind : KindName) : FormatKind :=
  if kind.value = str "video" then .video else .audio

/-- It is the enumeration's own parser, which cannot fail on a literal. -/
theorem KindName.parse_formatKind (kind : KindName) :
    FormatKind.parse kind.value = some kind.formatKind := by
  obtain ⟨value, rfl | rfl⟩ := kind <;> decide

/-- `Settings._lowercase_extractor_keys`. -/
def lowercaseExtractorKeys (u : Unicode) (value : List (Str × List KindName)) :
    List (Str × List KindName) :=
  value.foldl (fun d e => dictSet (u.lower e.1) e.2 d) []

/-- What `main` makes of `settings.disabled_formats`. -/
def formatPolicy (u : Unicode) (disabledFormats : List (Str × List KindName)) : FormatPolicy :=
  FormatPolicy.new u (disabledFormats.map fun e => (e.1, e.2.map KindName.formatKind))

/-- The policy of a running bot whose `DISABLED_FORMATS` is the mapping. -/
def configuredPolicy (u : Unicode) (mapping : List (Str × List KindName)) : FormatPolicy :=
  formatPolicy u (lowercaseExtractorKeys u mapping)

/-- The preview card has no button for the kind. -/
def OfferedChoices.hides (choices : OfferedChoices) : FormatKind → Bool
  | .video => !choices.video
  | .audio => !choices.audio

/-- The entry lists the kind. -/
def lists (e : Str × List KindName) (kind : FormatKind) : Prop :=
  kind ∈ e.2.map KindName.formatKind

/-- A configured entry for the extractor, in any case, lists the kind. -/
def Listed (u : Unicode) (mapping : List (Str × List KindName)) (extractorKey : Str)
    (kind : FormatKind) : Prop :=
  ∃ e ∈ mapping, u.lower e.1 = u.lower extractorKey ∧ lists e kind

/-- The last of those entries lists it. -/
def LastLists (u : Unicode) (mapping : List (Str × List KindName)) (extractorKey : Str)
    (kind : FormatKind) : Prop :=
  ∃ e, (entriesFor u.lower (u.lower extractorKey) mapping).getLast? = some e ∧ lists e kind

/-- The switch is on for the spec exactly when an entry says so, in the use case
and on the card. -/
structure Honoured (u : Unicode) (mapping : List (Str × List KindName)) (extractorKey : Str)
    (spec : DownloadSpec) : Prop where
  refused : (configuredPolicy u mapping).isAllowed u extractorKey spec = false ↔
    Listed u mapping extractorKey (specKind spec)
  hidden : ∀ side,
    ((configuredPolicy u mapping).offeredChoices u extractorKey side).hides (specKind spec) = true ↔
      Listed u mapping extractorKey (specKind spec)

theorem dictGet_map (key : Str) (g : List KindName → List FormatKind)
    (d : List (Str × List KindName)) :
    dictGet key (d.map fun e => (e.1, g e.2)) = (dictGet key d).map g := by
  induction d with
  | nil => rfl
  | cons e d ih =>
    rw [List.map_cons, dictGet, dictGet, ih]
    by_cases hk : e.1 = key <;> simp [hk]

section Lower

variable {u : Unicode} (hlower : ∀ s, u.lower (u.lower s) = u.lower s)

include hlower in
/-- The second folding finds the keys as the first has left them. -/
theorem disabledFor_formatPolicy (mapping : List (Str × List KindName)) (extractorKey : Str) :
    (configuredPolicy u mapping).disabledFor u extractorKey =
      (((entriesFor u.lower (u.lower extractorKey) mapping).getLast?.map Prod.snd).map
        (List.map KindName.formatKind)).getD [] := by
  have hlast := dictGet_foldl u.lower (u.lower extractorKey) mapping
  have hnodup := nodup_foldl u.lower mapping
  have hkeys : ∀ e ∈ lowercaseExtractorKeys u mapping, u.lower e.1 = e.1 := by
    intro e he
    obtain ⟨e', -, hk⟩ := keys_foldl u.lower mapping (List.mem_map_of_mem he)
    rw [← hk, hlower]
  rw [← hlast, ← dictGet_map, ← getLast_of_nodup]
  · unfold configuredPolicy formatPolicy FormatPolicy.new FormatPolicy.disabledFor
    rw [dictGet_foldl]
    congr 3
    refine List.filter_congr fun e he => ?_
    obtain ⟨e', he', rfl⟩ := List.mem_map.mp he
    simp only [id, hkeys e' he']
  · rw [List.map_map]
    exact hnodup

include hlower in
theorem mem_disabledFor (mapping : List (Str × List KindName)) (extractorKey : Str)
    (kind : FormatKind) : kind ∈ (configuredPolicy u mapping).disabledFor u extractorKey ↔
      LastLists u mapping extractorKey kind := by
  rw [disabledFor_formatPolicy hlower, LastLists]
  cases (entriesFor u.lower (u.lower extractorKey) mapping).getLast? with
  | none => simp
  | some e => simp [lists]

end Lower

/-- The use case and the card read the same list. -/
theorem hides_iff (u : Unicode) (policy : FormatPolicy) (extractorKey : Str) (side : Option Int)
    (kind : FormatKind) : (policy.offeredChoices u extractorKey side).hides kind = true ↔
      kind ∈ policy.disabledFor u extractorKey := by
  cases kind with
  | video => simp [OfferedChoices.hides, FormatPolicy.offeredChoices_video]
  | audio => simp [OfferedChoices.hides, FormatPolicy.offeredChoices_audio]

theorem refused_iff (u : Unicode) (policy : FormatPolicy) (extractorKey : Str)
    (spec : DownloadSpec) : policy.isAllowed u extractorKey spec = false ↔
      specKind spec ∈ policy.disabledFor u extractorKey := by
  simp [FormatPolicy.isAllowed]

theorem listed_of_last {u : Unicode} {mapping : List (Str × List KindName)} {extractorKey : Str}
    {kind : FormatKind} (h : LastLists u mapping extractorKey kind) :
    Listed u mapping extractorKey kind := by
  obtain ⟨e, hlast, hlists⟩ := h
  have he := List.mem_filter.mp (List.mem_of_getLast? hlast)
  exact ⟨e, he.1, of_decide_eq_true he.2, hlists⟩

/-- A kind that is listed is switched off exactly when the last of the entries
for the extractor lists it. -/
theorem honoured_iff (u : Unicode) (hlower : ∀ s, u.lower (u.lower s) = u.lower s)
    (mapping : List (Str × List KindName)) (extractorKey : Str) (spec : DownloadSpec) :
    Honoured u mapping extractorKey spec ↔
      (Listed u mapping extractorKey (specKind spec) →
        LastLists u mapping extractorKey (specKind spec)) := by
  have hmem := mem_disabledFor hlower mapping extractorKey (specKind spec)
  constructor
  · intro h hlisted
    exact hmem.mp ((refused_iff ..).mp (h.refused.mpr hlisted))
  · intro h
    have hlisted : LastLists u mapping extractorKey (specKind spec) ↔
        Listed u mapping extractorKey (specKind spec) := ⟨listed_of_last, h⟩
    exact ⟨(refused_iff ..).trans (hmem.trans hlisted),
      fun side => (hides_iff ..).trans (hmem.trans hlisted)⟩

theorem asciiLower_idem (s : Str) : asciiLower (asciiLower s) = asciiLower s := by
  unfold asciiLower
  rw [List.map_map]
  refine List.map_congr_left fun c _ => ?_
  simp only [Function.comp_apply, isAsciiUpper, Bool.and_eq_true, decide_eq_true_eq]
  by_cases hc : 65 ≤ c ∧ c ≤ 90
  · rw [if_pos hc, if_neg (by omega)]
  · rw [if_neg hc, if_neg hc]

namespace TwoSpellings

def kindVideo : KindName := ⟨str "video", .inl rfl⟩
def kindAudio : KindName := ⟨str "audio", .inr rfl⟩

/-- `{"YouTube": ["audio"], "youtube": ["video"]}`. -/
def mapping : List (Str × List KindName) :=
  [(str "YouTube", [kindAudio]), (str "youtube", [kindVideo])]

end TwoSpellings

/-- The other way round the last entry lists the audio, and it is switched off. -/
theorem honoured_reversed :
    Honoured ⟨asciiLower, id⟩ TwoSpellings.mapping.reverse (str "youtube") .audio :=
  (honoured_iff ⟨asciiLower, id⟩ asciiLower_idem _ _ _).mpr
    fun _ => ⟨_, rfl, List.mem_singleton.mpr rfl⟩

/-- Two spellings: the audio that the first one lists is on again. -/
theorem entry_lost :
    ¬ ∀ (u : Unicode), (∀ s, u.lower (u.lower s) = u.lower s) →
      ∀ mapping : List (Str × List KindName), (mapping.map Prod.fst).Nodup →
        ∀ extractorKey spec, Honoured u mapping extractorKey spec := by
  intro hall
  have h := (hall ⟨asciiLower, id⟩ asciiLower_idem TwoSpellings.mapping (by decide)
    (str "youtube") .audio).refused
  have hlisted : Listed ⟨asciiLower, id⟩ TwoSpellings.mapping (str "youtube") .audio :=
    ⟨_, List.mem_cons_self, by decide, List.mem_singleton.mpr rfl⟩
  have hrefused := h.mpr hlisted
  revert hrefused
  decide

end MediaDownloader
