import MediaDownloader.Infrastructure.StoredRequests
import Mathlib.Data.List.Forall2

/-!
# Migration 0005

`quality_kind` gives way to `video_tier`.  Each direction is a few statements
over all rows, and the upgrade also adds a CHECK that can refuse a row.

* `upgrade_ok`: no row is refused;
* `upgraded`, `restored`: what one row becomes on the way up, and down again;
* `regained`: a row keeps its spec on the way down and up, unless its tier is
  `best`;
* `migration_preserves`: so for whole tables.
-/

namespace MediaDownloader

namespace VideoTierMigration

/-- The columns of `download_requests` that no statement of 0005 mentions. -/
structure OtherColumns where
  id : UUID
  userId : UUID
  sourceUrl : Str
  mediaType : Str
  status : Str
  createdAt : Time
  completedAt : Option Time
  deriving DecidableEq

structure Row0004 where
  other : OtherColumns
  formatKind : Str
  qualityKind : Str
  deriving DecidableEq

structure Row0005 where
  other : OtherColumns
  formatKind : Str
  videoTier : Option Str
  deriving DecidableEq

/-- Between `add_column` and `drop_column` the table has both columns. -/
structure MigratingRow where
  other : OtherColumns
  formatKind : Str
  qualityKind : Str
  videoTier : Option Str
  deriving DecidableEq

/-- `(format_kind = 'video') = (video_tier IS NOT NULL)`. -/
def checkVideoTierKind (formatKind : Str) (videoTier : Option Str) : Bool :=
  (formatKind == str "video") == videoTier.isSome

/-- What the application reads from the row. -/
def Row0005.spec (row : Row0005) : Option DownloadSpec := specFromParts row.formatKind row.videoTier

structure Table0004 where
  rows : List Row0004
  /-- The server default of `format_kind`. -/
  formatKindDefault : Option Str

/-- The CHECK is part of the schema. -/
structure Table0005 where
  rows : List Row0005
  formatKindDefault : Option Str
  check : ∀ row ∈ rows, checkVideoTierKind row.formatKind row.videoTier = true

structure CheckViolation where
  constraintName : Str
  deriving DecidableEq

def checkName : Str := str "ck_download_requests_video_tier_kind"

/-! ## upgrade -/

/-- `add_column("video_tier", nullable=True)`. -/
def addVideoTier (row : Row0004) : MigratingRow :=
  ⟨row.other, row.formatKind, row.qualityKind, none⟩

/-- `UPDATE .. SET video_tier = CASE quality_kind .. WHERE format_kind = 'video'`. -/
def backfillVideoTier (row : MigratingRow) : MigratingRow :=
  if row.formatKind = str "video" then
    { row with
      videoTier := some (if row.qualityKind = str "hd_1080" then str "p1080" else str "p720") }
  else row

def dropQualityKind (row : MigratingRow) : Row0005 := ⟨row.other, row.formatKind, row.videoTier⟩

def upgradeRow (row : Row0004) : Row0005 := dropQualityKind (backfillVideoTier (addVideoTier row))

/-- The rows when `create_check_constraint` looks at them. -/
def backfilled (t : Table0004) : List MigratingRow :=
  (t.rows.map addVideoTier).map backfillVideoTier

def upgrade (t : Table0004) : Except CheckViolation Table0005 :=
  if h : ∀ row ∈ backfilled t, checkVideoTierKind row.formatKind row.videoTier = true then
    .ok
      { rows := (backfilled t).map dropQualityKind
        formatKindDefault := none
        check := by
          intro row hrow
          obtain ⟨between, hbetween, rfl⟩ := List.mem_map.mp hrow
          exact h between hbetween }
  else .error ⟨checkName⟩

/-! ## downgrade -/

/-- `add_column("quality_kind", nullable=False, server_default="hd_720")`. -/
def addQualityKind (row : Row0005) : MigratingRow :=
  ⟨row.other, row.formatKind, str "hd_720", row.videoTier⟩

/-- `UPDATE .. SET quality_kind = 'hd_1080' WHERE video_tier = 'p1080'`; no row of
it can violate the CHECK, which does not read `quality_kind`. -/
def restoreQualityKind (row : MigratingRow) : MigratingRow :=
  if row.videoTier = some (str "p1080") then { row with qualityKind := str "hd_1080" } else row

def dropVideoTier (row : MigratingRow) : Row0004 := ⟨row.other, row.formatKind, row.qualityKind⟩

def downgradeRow (row : Row0005) : Row0004 :=
  dropVideoTier (restoreQualityKind (addQualityKind row))

def downgrade (t : Table0005) : Table0004 :=
  { rows := ((t.rows.map addQualityKind).map restoreQualityKind).map dropVideoTier
    formatKindDefault := some (str "video") }

/-! ## One row -/

theorem upgradeRow_videoTier (row : Row0004) : (upgradeRow row).videoTier =
    if row.formatKind = str "video" then
      some (if row.qualityKind = str "hd_1080" then str "p1080" else str "p720")
    else none := by
  unfold upgradeRow backfillVideoTier dropQualityKind addVideoTier
  by_cases h : row.formatKind = str "video" <;> simp [h]

theorem upgradeRow_formatKind (row : Row0004) : (upgradeRow row).formatKind = row.formatKind := by
  unfold upgradeRow backfillVideoTier dropQualityKind addVideoTier
  by_cases h : row.formatKind = str "video" <;> simp [h]

theorem upgradeRow_other (row : Row0004) : (upgradeRow row).other = row.other := by
  unfold upgradeRow backfillVideoTier dropQualityKind addVideoTier
  by_cases h : row.formatKind = str "video" <;> simp [h]

theorem downgradeRow_qualityKind (row : Row0005) : (downgradeRow row).qualityKind =
    if row.videoTier = some (str "p1080") then str "hd_1080" else str "hd_720" := by
  unfold downgradeRow restoreQualityKind dropVideoTier addQualityKind
  by_cases h : row.videoTier = some (str "p1080") <;> simp [h]

theorem downgradeRow_formatKind (row : Row0005) :
    (downgradeRow row).formatKind = row.formatKind := by
  unfold downgradeRow restoreQualityKind dropVideoTier addQualityKind
  by_cases h : row.videoTier = some (str "p1080") <;> simp [h]

theorem downgradeRow_other (row : Row0005) : (downgradeRow row).other = row.other := by
  unfold downgradeRow restoreQualityKind dropVideoTier addQualityKind
  by_cases h : row.videoTier = some (str "p1080") <;> simp [h]

theorem upgradeRow_check (row : Row0004) :
    checkVideoTierKind (upgradeRow row).formatKind (upgradeRow row).videoTier = true := by
  rw [upgradeRow_formatKind, upgradeRow_videoTier]
  by_cases h : row.formatKind = str "video" <;> simp [checkVideoTierKind, h]

/-- What an upgrade makes of a row. -/
structure Upgraded (before : Row0004) (after : Row0005) : Prop where
  check : checkVideoTierKind after.formatKind after.videoTier = true
  audio : before.formatKind = str "audio" → after.spec = some .audio
  hd1080 : before.formatKind = str "video" → before.qualityKind = str "hd_1080" →
    after.spec = some (.video .p1080)
  otherVideo : before.formatKind = str "video" → before.qualityKind ≠ str "hd_1080" →
    after.spec = some (.video .p720)
  formatKind : after.formatKind = before.formatKind
  other : after.other = before.other

theorem upgraded (row : Row0004) : Upgraded row (upgradeRow row) where
  check := upgradeRow_check row
  audio h := by
    have hvideo : ¬ str "audio" = str "video" := by decide
    rw [Row0005.spec, upgradeRow_formatKind, upgradeRow_videoTier, h, if_neg hvideo]
    decide
  hd1080 h hq := by
    rw [Row0005.spec, upgradeRow_formatKind, upgradeRow_videoTier, h, hq]
    decide
  otherVideo h hq := by
    rw [Row0005.spec, upgradeRow_formatKind, upgradeRow_videoTier, h, if_neg hq]
    decide
  formatKind := upgradeRow_formatKind row
  other := upgradeRow_other row

/-- What a downgrade after the upgrade gives back. -/
structure Restored (before after : Row0004) : Prop where
  qualityKind : before.formatKind = str "video" →
    (before.qualityKind = str "hd_720" ∨ before.qualityKind = str "hd_1080") →
    after.qualityKind = before.qualityKind
  formatKind : after.formatKind = before.formatKind
  other : after.other = before.other

theorem restored (row : Row0004) : Restored row (downgradeRow (upgradeRow row)) where
  qualityKind h hq := by
    rw [downgradeRow_qualityKind, upgradeRow_videoTier, if_pos h]
    rcases hq with hq | hq
    · rw [hq]
      decide
    · rw [hq]
      decide
  formatKind := by rw [downgradeRow_formatKind, upgradeRow_formatKind]
  other := by rw [downgradeRow_other, upgradeRow_other]

/-- What an upgrade after the downgrade gives back. -/
structure Regained (before after : Row0005) : Prop where
  spec : ∀ spec, before.spec = some spec → spec ≠ .video .best → after.spec = some spec
  formatKind : after.formatKind = before.formatKind
  other : after.other = before.other

theorem regained (row : Row0005) : Regained row (upgradeRow (downgradeRow row)) where
  spec spec hspec hbest := by
    obtain ⟨hkind, htier⟩ := specFromParts_eq_some hspec
    rw [Row0005.spec, upgradeRow_formatKind, upgradeRow_videoTier, downgradeRow_formatKind,
      downgradeRow_qualityKind, ← hkind, ← htier]
    cases spec with
    | audio => decide
    | video tier =>
      cases tier with
      | p720 => decide
      | p1080 => decide
      | best => exact absurd rfl hbest
  formatKind := by rw [upgradeRow_formatKind, downgradeRow_formatKind]
  other := by rw [upgradeRow_other, downgradeRow_other]

/-- A row that an upgrade made is regained as it was. -/
theorem upgradeRow_regained (row : Row0004) :
    upgradeRow (downgradeRow (upgradeRow row)) = upgradeRow row := by
  have htier : (upgradeRow (downgradeRow (upgradeRow row))).videoTier =
      (upgradeRow row).videoTier := by
    rw [upgradeRow_videoTier, downgradeRow_formatKind, upgradeRow_formatKind,
      downgradeRow_qualityKind, upgradeRow_videoTier]
    by_cases hkind : row.formatKind = str "video"
    · by_cases hq : row.qualityKind = str "hd_1080" <;> simp [hkind, hq, str]
    · simp [hkind]
  have hrow := regained (upgradeRow row)
  cases hafter : upgradeRow (downgradeRow (upgradeRow row)) with
  | mk other formatKind videoTier =>
    rw [hafter] at hrow htier
    cases hbefore : upgradeRow row with
    | mk other' formatKind' videoTier' =>
      rw [hbefore] at hrow htier
      simp only [Row0005.mk.injEq]
      exact ⟨hrow.other, hrow.formatKind, htier⟩

/-! ## Whole tables -/

theorem backfilled_upgraded (t : Table0004) :
    (backfilled t).map dropQualityKind = t.rows.map upgradeRow := by
  simp only [backfilled, List.map_map]
  rfl

theorem downgrade_rows (t : Table0005) : (downgrade t).rows = t.rows.map downgradeRow := by
  simp only [downgrade, List.map_map]
  rfl

/-- Adding the constraint refuses no row. -/
theorem backfilled_check (t : Table0004) :
    ∀ row ∈ backfilled t, checkVideoTierKind row.formatKind row.videoTier = true := by
  intro row hrow
  simp only [backfilled, List.map_map, List.mem_map] at hrow
  obtain ⟨before, -, rfl⟩ := hrow
  exact upgradeRow_check before

theorem upgrade_ok (t : Table0004) :
    ∃ after, upgrade t = .ok after ∧ after.rows = t.rows.map upgradeRow ∧
      after.formatKindDefault = none :=
  ⟨_, dif_pos (backfilled_check t), backfilled_upgraded t, rfl⟩

theorem Table0005.ext {t t' : Table0005} (hrows : t.rows = t'.rows)
    (hdefault : t.formatKindDefault = t'.formatKindDefault) : t = t' := by
  cases t
  cases t'
  cases hrows
  cases hdefault
  rfl

/-- Up, down and up again is up. -/
theorem upgrade_downgrade_upgrade {t : Table0004} {after : Table0005}
    (h : upgrade t = .ok after) : upgrade (downgrade after) = .ok after := by
  obtain ⟨after', hafter', hrows, hdefault⟩ := upgrade_ok t
  rw [h] at hafter'
  cases hafter'
  obtain ⟨again, hagain, hrows', hdefault'⟩ := upgrade_ok (downgrade after)
  rw [hagain]
  refine congrArg Except.ok (Table0005.ext ?_ (hdefault'.trans hdefault.symm))
  rw [hrows', downgrade_rows, hrows]
  simp only [List.map_map]
  exact List.map_congr_left fun row _ => upgradeRow_regained row

/-- Related rows, one by one. -/
theorem forall₂_map {α β : Type} {R : α → β → Prop} {f : α → β} (h : ∀ a, R a (f a))
    (rows : List α) : List.Forall₂ R rows (rows.map f) := by
  rw [List.forall₂_map_right_iff, List.forall₂_same]
  exact fun a _ => h a

/-- Of every table: the upgrade succeeds, each row reads as what it meant, the
downgrade restores the video rows, and whatever has been stored since, the
upgrade after it regains every spec but `best`. -/
theorem migration_preserves (t : Table0004) :
    (∃ after, upgrade t = .ok after ∧ List.Forall₂ Upgraded t.rows after.rows ∧
      List.Forall₂ Restored t.rows (downgrade after).rows ∧
      upgrade (downgrade after) = .ok after) ∧
    ∀ later : Table0005, ∃ again, upgrade (downgrade later) = .ok again ∧
      List.Forall₂ Regained later.rows again.rows := by
  constructor
  · obtain ⟨after, hafter, hrows, -⟩ := upgrade_ok t
    refine ⟨after, hafter, ?_, ?_, upgrade_downgrade_upgrade hafter⟩
    · rw [hrows]
      exact forall₂_map upgraded t.rows
    · rw [downgrade_rows, hrows, List.map_map]
      exact forall₂_map restored t.rows
  · intro later
    obtain ⟨again, hagain, hrows, -⟩ := upgrade_ok (downgrade later)
    refine ⟨again, hagain, ?_⟩
    rw [hrows, downgrade_rows, List.map_map]
    exact forall₂_map regained later.rows

end VideoTierMigration

end MediaDownloader
