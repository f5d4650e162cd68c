import MediaDownloader.Infrastructure.FormatSelection

/-!
# The quality buttons of the card

The buttons come from one number, the largest short side of a pool of formats.

* `maxCompatibleShortSide_eq_some`: the number is the largest short side of the
  pool, and a format of the pool has it;
* `maxCompatibleShortSide_none`: there is none exactly when the pool is empty;
* `maxCompatibleShortSide_congr`: the order and the repetitions of the list
  leave it as it is;
* `quality_buttons`: each button stands for formats of the pool.
-/

namespace MediaDownloader

/-- The formats the number is taken over: the sized ones in the compatible
codec, or all the sized ones when the list has none in it. -/
def InPool (formats : List VideoFormat) (f : VideoFormat) : Prop :=
  f ∈ formats ∧ f.isSized = true ∧
    (f.isCompatible = true ∨ ∀ g ∈ formats, g.isSized = true → g.isCompatible = false)

/-- `f` has the largest short side of the pool. -/
def Largest (formats : List VideoFormat) (f : VideoFormat) : Prop :=
  InPool formats f ∧ ∀ g, InPool formats g → g.shortSide ≤ f.shortSide

/-! ## The number -/

theorem maxShortSide_eq (pool : List VideoFormat) :
    maxShortSide pool = (pool.map VideoFormat.shortSide).max? := by
  cases pool with
  | nil => rfl
  | cons f pool => rw [maxShortSide, List.map_cons, List.max?_cons', List.foldl_map]

theorem mem_pool (formats : List VideoFormat) (f : VideoFormat) :
    (f ∈ if ((formats.filter VideoFormat.isSized).filter VideoFormat.isCompatible).isEmpty
      then formats.filter VideoFormat.isSized
      else (formats.filter VideoFormat.isSized).filter VideoFormat.isCompatible) ↔
      InPool formats f := by
  unfold InPool
  split
  case isTrue h =>
    have hnone : ∀ g ∈ formats, g.isSized = true → g.isCompatible = false := by
      simp only [List.isEmpty_iff, List.filter_eq_nil_iff, List.mem_filter, Bool.not_eq_true] at h
      exact fun g hg hs => h g ⟨hg, hs⟩
    rw [List.mem_filter]
    exact ⟨fun hf => ⟨hf.1, hf.2, .inr hnone⟩, fun hf => ⟨hf.1, hf.2.1⟩⟩
  case isFalse h =>
    obtain ⟨g, hg, hcg, hsized⟩ : ∃ g ∈ formats, g.isCompatible = true ∧ g.isSized = true := by
      simpa [List.isEmpty_iff, List.filter_eq_nil_iff] using h
    simp only [List.mem_filter]
    constructor
    · rintro ⟨⟨hf, hs⟩, hc⟩
      exact ⟨hf, hs, .inl hc⟩
    · rintro ⟨hf, hs, hc | hnone⟩
      · exact ⟨⟨hf, hs⟩, hc⟩
      · rw [hnone g hg hsized] at hcg
        cases hcg

theorem maxCompatibleShortSide_eq_some (formats : List VideoFormat) (side : Int) :
    maxCompatibleShortSide formats = some side ↔ ∃ f, Largest formats f ∧ f.shortSide = side := by
  simp only [maxCompatibleShortSide, maxShortSide_eq, List.max?_eq_some_iff, List.mem_map, mem_pool]
  constructor
  · rintro ⟨⟨f, hf, rfl⟩, hmax⟩
    exact ⟨f, ⟨hf, fun g hg => hmax _ ⟨g, hg, rfl⟩⟩, rfl⟩
  · rintro ⟨f, ⟨hf, hmax⟩, rfl⟩
    refine ⟨⟨f, hf, rfl⟩, ?_⟩
    rintro _ ⟨g, hg, rfl⟩
    exact hmax g hg

theorem maxCompatibleShortSide_none (formats : List VideoFormat) :
    maxCompatibleShortSide formats = none ↔ ∀ f, ¬ InPool formats f := by
  simp only [maxCompatibleShortSide, maxShortSide_eq, List.max?_eq_none_iff, List.map_eq_nil_iff]
  rw [List.eq_nil_iff_forall_not_mem]
  simp only [mem_pool]

/-- Only the set of the formats counts. -/
theorem maxCompatibleShortSide_congr {formats formats' : List VideoFormat}
    (h : ∀ f, f ∈ formats ↔ f ∈ formats') :
    maxCompatibleShortSide formats = maxCompatibleShortSide formats' := by
  have hpool : InPool formats = InPool formats' := by
    funext f
    simp only [InPool, h]
  refine Option.ext fun side => ?_
  simp only [maxCompatibleShortSide_eq_some, Largest, hpool]

/-- The number is above a bound exactly when a format of the pool is. -/
theorem maxCompatibleShortSide_ge (formats : List VideoFormat) (bound : Int) :
    (∃ side, maxCompatibleShortSide formats = some side ∧ bound ≤ side) ↔
      ∃ f, InPool formats f ∧ bound ≤ f.shortSide := by
  constructor
  · rintro ⟨side, hside, hle⟩
    obtain ⟨f, hf, rfl⟩ := (maxCompatibleShortSide_eq_some formats side).mp hside
    exact ⟨f, hf.1, hle⟩
  · rintro ⟨f, hf, hle⟩
    cases hmax : maxCompatibleShortSide formats with
    | none => exact absurd hf ((maxCompatibleShortSide_none formats).mp hmax f)
    | some side =>
      obtain ⟨g, hg, rfl⟩ := (maxCompatibleShortSide_eq_some formats side).mp hmax
      exact ⟨g.shortSide, rfl, Int.le_trans hle (hg.2 f hf)⟩

/-! ## The tiers -/

theorem tiersFor_none : tiersFor none = [] := rfl

theorem tiersFor_some (side : Int) :
    (side ≤ 720 ∧ tiersFor (some side) = []) ∨
      (720 < side ∧ side < 1080 ∧ tiersFor (some side) = [.p720, .best]) ∨
      (1080 ≤ side ∧ tiersFor (some side) = [.p720, .p1080]) := by
  by_cases hlow : side ≤ 720
  · exact .inl ⟨hlow, if_pos hlow⟩
  · have hstep : tiersFor (some side) =
        if side ≥ 1080 then [.p720, .p1080] else [.p720, .best] := if_neg hlow
    by_cases hhd : side ≥ 1080
    · exact .inr (.inr ⟨hhd, hstep.trans (if_pos hhd)⟩)
    · exact .inr (.inl ⟨by omega, by omega, hstep.trans (if_neg hhd)⟩)

theorem tiersFor_p1080 (side : Option Int) :
    .p1080 ∈ tiersFor side ↔ ∃ s, side = some s ∧ 1080 ≤ s := by
  cases side with
  | none => simp [tiersFor_none]
  | some s =>
    rcases tiersFor_some s with ⟨hs, h⟩ | ⟨-, hs, h⟩ | ⟨hs, h⟩ <;> simp [h] <;> omega

theorem tiersFor_best (side : Option Int) :
    .best ∈ tiersFor side ↔ ∃ s, side = some s ∧ 720 < s ∧ s < 1080 := by
  cases side with
  | none => simp [tiersFor_none]
  | some s =>
    rcases tiersFor_some s with ⟨hs, h⟩ | ⟨hlow, hs, h⟩ | ⟨hs, h⟩ <;> simp [h] <;> omega

theorem tiersFor_ne_nil (side : Option Int) :
    tiersFor side ≠ [] ↔ ∃ s, side = some s ∧ 721 ≤ s := by
  cases side with
  | none => simp [tiersFor_none]
  | some s =>
    rcases tiersFor_some s with ⟨hs, h⟩ | ⟨hs, -, h⟩ | ⟨hs, h⟩ <;> simp [h] <;> omega

/-- What the tiers offered say about the formats. -/
structure Attainable (formats : List VideoFormat) (tiers : List VideoTier) : Prop where
  /-- A fixed tier beyond 720p. -/
  fixed : ∀ tier side, tier.shortSide = some side → 720 < side →
    (tier ∈ tiers ↔ ∃ f, InPool formats f ∧ side ≤ f.shortSide)
  best : .best ∈ tiers ↔ ∃ f, Largest formats f ∧ 720 < f.shortSide ∧ f.shortSide < 1080
  noStep : tiers = [] ↔ ∀ f, InPool formats f → f.shortSide ≤ 720

theorem tiersFor_attainable (formats : List VideoFormat) :
    Attainable formats (tiersFor (maxCompatibleShortSide formats)) where
  fixed tier side htier hside := by
    cases tier with
    | p720 =>
      cases htier
      omega
    | best => cases htier
    | p1080 =>
      cases htier
      rw [tiersFor_p1080, maxCompatibleShortSide_ge]
  best := by
    simp only [tiersFor_best, maxCompatibleShortSide_eq_some]
    constructor
    · rintro ⟨_, ⟨f, hf, rfl⟩, hside⟩
      exact ⟨f, hf, hside⟩
    · rintro ⟨f, hf, hside⟩
      exact ⟨_, ⟨f, hf, rfl⟩, hside⟩
  noStep := by
    rw [← not_iff_not, ← ne_eq, tiersFor_ne_nil, maxCompatibleShortSide_ge]
    push Not
    exact exists_congr fun f => and_congr_right' (by omega)

/-- There is no number exactly when the pool is empty; the tiers that the video
button leads to are attainable; and only the set of the formats counts. -/
theorem quality_buttons (u : Unicode) (policy : FormatPolicy) (extractorKey : Str)
    (formats : List VideoFormat) :
    let choices := policy.offeredChoices u extractorKey (maxCompatibleShortSide formats)
    (maxCompatibleShortSide formats = none ↔ ∀ f, ¬ InPool formats f) ∧
      Attainable formats (tiersFor (maxCompatibleShortSide formats)) ∧
      choices.videoTiers =
        (if choices.video then tiersFor (maxCompatibleShortSide formats) else []) ∧
      (choices.hasQualityStep = true ↔
        choices.video = true ∧ ∃ f, InPool formats f ∧ 720 < f.shortSide) ∧
      ∀ formats', (∀ f, f ∈ formats ↔ f ∈ formats') →
        maxCompatibleShortSide formats' = maxCompatibleShortSide formats := by
  intro choices
  have htiers := FormatPolicy.offeredChoices_videoTiers u policy extractorKey (maxCompatibleShortSide formats)
  refine ⟨maxCompatibleShortSide_none formats, tiersFor_attainable formats, htiers, ?_,
    fun formats' h => (maxCompatibleShortSide_congr h).symm⟩
  have hstep : choices.hasQualityStep = true ↔ choices.videoTiers ≠ [] := by
    simp [OfferedChoices.hasQualityStep]
  rw [hstep, htiers]
  cases choices.video with
  | false => simp
  | true =>
    rw [if_pos rfl, tiersFor_ne_nil, maxCompatibleShortSide_ge, eq_self_iff_true, true_and]
    exact Iff.rfl

end MediaDownloader
