import MediaDownloader.Domain.Text
import MediaDownloader.Domain.Values

/-!
# FormatPolicy

Which formats a source may be downloaded as, and which buttons the preview
card therefore offers.
-/

namespace MediaDownloader

/-! ## Dictionaries -/

/-- `d[key] = value` on a `dict`: an existing key keeps its place. -/
def dictSet {κ ν : Type} [DecidableEq κ] (key : κ) (value : ν) : List (κ × ν) → List (κ × ν)
  | [] => [(key, value)]
  | (k, v) :: d => if k = key then (k, value) :: d else (k, v) :: dictSet key value d

def dictGet {κ ν : Type} [DecidableEq κ] (key : κ) : List (κ × ν) → Option ν
  | [] => none
  | (k, v) :: d => if k = key then some v else dictGet key d

section Dict

variable {κ ν : Type} [DecidableEq κ]

theorem dictGet_dictSet (key key' : κ) (value : ν) (d : List (κ × ν)) :
    dictGet key (dictSet key' value d) = if key' = key then some value else dictGet key d := by
  induction d with
  | nil => rfl
  | cons e d ih =>
    obtain ⟨k, v⟩ := e
    rw [dictSet]
    by_cases hk : k = key'
    · rw [if_pos hk, hk, dictGet, dictGet]
      by_cases hkey : key' = key <;> simp [hkey]
    · rw [if_neg hk, dictGet, ih, dictGet]
      by_cases hkey : k = key
      · have hne : ¬ key' = key := fun h => hk (hkey.trans h.symm)
        rw [if_pos hkey, if_neg hne, if_pos hkey]
      · rw [if_neg hkey, if_neg hkey]

theorem keys_dictSet (key : κ) (value : ν) (d : List (κ × ν)) (k : κ) :
    k ∈ (dictSet key value d).map Prod.fst ↔ k = key ∨ k ∈ d.map Prod.fst := by
  induction d with
  | nil => simp [dictSet]
  | cons e d ih =>
    rw [dictSet]
    by_cases hk : e.1 = key
    · rw [if_pos hk]
      simp only [List.map_cons, List.mem_cons, hk]
      tauto
    · simp only [if_neg hk, List.map_cons, List.mem_cons, ih]
      tauto

theorem nodup_dictSet {d : List (κ × ν)} (h : (d.map Prod.fst).Nodup) (key : κ) (value : ν) :
    ((dictSet key value d).map Prod.fst).Nodup := by
  induction d with
  | nil => simp [dictSet]
  | cons e d ih =>
    rw [List.map_cons, List.nodup_cons] at h
    rw [dictSet]
    by_cases hk : e.1 = key
    · rw [if_pos hk, List.map_cons, List.nodup_cons]
      exact h
    · rw [if_neg hk, List.map_cons, List.nodup_cons, keys_dictSet]
      exact ⟨fun hmem => hmem.elim hk h.1, ih h.2⟩

/-- `d` without a key. -/
theorem dictGet_filter (key key' : κ) (d : List (κ × ν)) :
    dictGet key (d.filter fun entry => entry.1 ≠ key') =
      if key' = key then none else dictGet key d := by
  induction d with
  | nil => simp [dictGet]
  | cons entry d ih =>
    by_cases hentry : entry.1 = key'
    · rw [List.filter_cons_of_neg (by simpa using hentry), ih, dictGet, hentry]
      by_cases hkey : key' = key <;> simp [hkey]
    · rw [List.filter_cons_of_pos (by simpa using hentry), dictGet, dictGet, ih]
      by_cases hkey : entry.1 = key
      · have hne : ¬ key' = key := fun h => hentry (hkey.trans h.symm)
        rw [if_pos hkey, if_neg hne, if_pos hkey]
      · rw [if_neg hkey, if_neg hkey]

theorem mem_keys_iff (key : κ) (d : List (κ × ν)) :
    key ∈ d.map Prod.fst ↔ dictGet key d ≠ none := by
  induction d with
  | nil => simp [dictGet]
  | cons entry d ih =>
    rw [List.map_cons, List.mem_cons, ih, dictGet]
    by_cases hkey : entry.1 = key
    · simp [hkey]
    · simp [hkey, Ne.symm hkey]

end Dict

/-! ## The policy -/

structure FormatPolicy where
  disabled : List (Str × List FormatKind)

/-- What the preview card offers; empty `videoTiers` is "no quality step". -/
structure OfferedChoices where
  video : Bool
  audio : Bool
  videoTiers : List VideoTier
  deriving DecidableEq

def OfferedChoices.hasQualityStep (c : OfferedChoices) : Bool := !c.videoTiers.isEmpty

def qualityStepAbove : Int := VideoTier.p720.shortSide.getD 0
def fullHd : Int := VideoTier.p1080.shortSide.getD 0

/-- The spec the video button downloads when there is no quality step. -/
def directVideoSpec : DownloadSpec := .video .best

def tiersFor : Option Int → List VideoTier
  | none => []
  | some side =>
    if side ≤ qualityStepAbove then []
    else if side ≥ fullHd then [.p720, .p1080]
    else [.p720, .best]

namespace FormatPolicy

def new (u : Unicode) (disabledFormats : List (Str × List FormatKind)) : FormatPolicy :=
  ⟨disabledFormats.foldl (fun d e => dictSet (u.lower e.1) e.2 d) []⟩

def disabledFor (u : Unicode) (p : FormatPolicy) (extractorKey : Str) : List FormatKind :=
  (dictGet (u.lower extractorKey) p.disabled).getD []

def isAllowed (u : Unicode) (p : FormatPolicy) (extractorKey : Str) (spec : DownloadSpec) :
    Bool :=
  !decide (specKind spec ∈ p.disabledFor u extractorKey)

def offeredChoices (u : Unicode) (p : FormatPolicy) (extractorKey : Str)
    (maxCompatibleShortSide : Option Int) : OfferedChoices :=
  let disabled := p.disabledFor u extractorKey
  let video := !decide (FormatKind.video ∈ disabled)
  let audio := !decide (FormatKind.audio ∈ disabled)
  if !video then { video := false, audio := audio, videoTiers := [] }
  else { video := true, audio := audio, videoTiers := tiersFor maxCompatibleShortSide }

section Offered

variable (u : Unicode) (p : FormatPolicy) (extractorKey : Str) (side : Option Int)

theorem offeredChoices_video : (p.offeredChoices u extractorKey side).video =
    !decide (FormatKind.video ∈ p.disabledFor u extractorKey) := by
  unfold offeredChoices
  by_cases h : FormatKind.video ∈ p.disabledFor u extractorKey <;> simp [h]

theorem offeredChoices_audio : (p.offeredChoices u extractorKey side).audio =
    !decide (FormatKind.audio ∈ p.disabledFor u extractorKey) := by
  unfold offeredChoices
  by_cases h : FormatKind.video ∈ p.disabledFor u extractorKey <;> simp [h]

/-- The card offers these tiers with its video button, and none without it. -/
theorem offeredChoices_videoTiers : (p.offeredChoices u extractorKey side).videoTiers =
    if (p.offeredChoices u extractorKey side).video then tiersFor side else [] := by
  unfold offeredChoices
  by_cases h : FormatKind.video ∈ p.disabledFor u extractorKey <;> simp [h]

end Offered

def defaultVideoSpec (preview : MediaPreview) : DownloadSpec :=
  if (tiersFor preview.maxCompatibleShortSide).isEmpty then directVideoSpec else .video .p720

end FormatPolicy

end MediaDownloader
