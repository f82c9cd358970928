import DrepTalk.Badges.Catalog
import DrepTalk.Library.Grouped
import DrepTalk.Library.Table
import Mathlib.Data.List.Dedup
import Mathlib.Order.Nat

/-!
# Badge awards

`applyAwards` and `getAllAwards` of `src/lib/db/badgeAwards.ts`, and what `awardBadges` of
`src/lib/badges/engine.ts` makes of the awards that the data justifies and of those that are
stored: the collector badges, and the changes to write.

The engine's maps join type, subject and badge with colons. Here the key is the triple: neither a
type nor a badge id has a colon in it.
-/

namespace DrepTalk

inductive BadgeSubjectType
  | drep
  | spo
  | cc
  | proposer
  | user
  deriving DecidableEq

structure AwardKey where
  subjectType : BadgeSubjectType
  subjectId : String
  badgeId : String
  deriving DecidableEq

structure BadgeAward where
  key : AwardKey
  tier : ℕ
  deriving DecidableEq

/-- A row of `badge_awards`. -/
structure BadgeAwardRow extends BadgeAward where
  awardedAt : ℤ
  upgradedAt : Option ℤ
  deriving DecidableEq

abbrev AwardTable := KeyedTable fun row : BadgeAwardRow => row.key

/-! ### Writing -/

/-- A row after an award of its badge. -/
def upgrade (a : BadgeAward) (now : ℤ) (row : BadgeAwardRow) : BadgeAwardRow :=
  if row.tier < a.tier then { row with tier := a.tier, upgradedAt := some now } else row

variable (a : BadgeAward) (now : ℤ)

theorem upgrade_key (row : BadgeAwardRow) : (upgrade a now row).key = row.key := by
  rw [upgrade]
  split_ifs <;> rfl

/-- The upsert of `applyAwards`. -/
def applyAward (now : ℤ) (table : AwardTable) (a : BadgeAward) : AwardTable :=
  table.upsert ⟨a, now, none⟩ (upgrade a now) fun row _ => upgrade_key a now row

/-- `UPSERT_CHUNK`. -/
def AWARD_CHUNK : ℕ := 100

/-- One batch of `applyAwards`. -/
def applyChunk (table : AwardTable) (chunk : List BadgeAward) (now : ℤ) : AwardTable :=
  chunk.foldl (applyAward now) table

/-! ### What a run writes -/

/-- The awards that count towards the collector badge. -/
def isForumAward (key : AwardKey) : Bool :=
  key.subjectType == .user && forumBadgeIds.contains key.badgeId

/-- The users that have every visible forum badge. -/
def collectorAwards (existing desired : List AwardKey) : List BadgeAward :=
  (grouped (·.subjectId) ((existing ++ desired).filter isForumAward)).filterMap
    fun (userId, earned) =>
      if (earned.map (·.badgeId)).dedup.length = forumBadgeIds.length then
        some ⟨⟨.user, userId, "collector"⟩, 0⟩
      else none

/-- The desired awards of a run, with the collector badges. -/
def allDesired (existing : List BadgeAwardRow) (desired : List BadgeAward) : List BadgeAward :=
  desired ++ collectorAwards (existing.map (·.key)) (desired.map (·.key))

/-- `existingTier.get`. -/
def existingTier (existing : List BadgeAwardRow) (key : AwardKey) : Option ℕ :=
  (existing.filter fun row => row.key == key).getLast?.map (·.tier)

/-- An award that is new, or of a higher tier. -/
def isChange (existing : List BadgeAwardRow) (a : BadgeAward) : Bool :=
  match existingTier existing a.key with
  | none => true
  | some tier => decide (tier < a.tier)

def awardChanges (existing : List BadgeAwardRow) (desired : List BadgeAward) : List BadgeAward :=
  (allDesired existing desired).filter (isChange existing)

/-- `refreshBadgeHolderCounts`: how many have each badge. -/
def holderCounts (rows : List BadgeAwardRow) : List (String × ℕ) :=
  (grouped (·.key.badgeId) rows).map fun (badgeId, holders) => (badgeId, holders.length)

/-! ### The collector badge -/

theorem mem_collectorAwards {existing desired : List AwardKey} {userId : String}
    (h : ∀ badgeId ∈ forumBadgeIds, ⟨.user, userId, badgeId⟩ ∈ existing ++ desired) :
    ⟨⟨.user, userId, "collector"⟩, 0⟩ ∈ collectorAwards existing desired := by
  set noted := (existing ++ desired).filter isForumAward with hnoted
  have hmem : ∀ badgeId ∈ forumBadgeIds, ⟨.user, userId, badgeId⟩ ∈ noted := fun badgeId hb =>
    List.mem_filter.mpr ⟨h badgeId hb, by
      rw [isForumAward, Bool.and_eq_true, List.contains_iff_mem]
      exact ⟨rfl, hb⟩⟩
  have hearned := getD_lookup_grouped (·.subjectId) noted userId
  -- the user has an entry, as there are visible forum badges
  have hfirst : "hello-governance" ∈ forumBadgeIds := by decide
  obtain ⟨earned, hlookup⟩ :
      ∃ earned, (grouped (·.subjectId) noted).lookup userId = some earned := by
    rcases hlookup : (grouped (·.subjectId) noted).lookup userId with _ | earned
    · rw [hlookup, Option.getD_none, eq_comm, List.filter_eq_nil_iff] at hearned
      exact absurd (hearned _ (hmem _ hfirst)) (by simp)
    · exact ⟨earned, hlookup⟩
  rw [hlookup, Option.getD_some] at hearned
  refine List.mem_filterMap.mpr ⟨(userId, earned), mem_of_lookup hlookup, if_pos ?_⟩
  refine List.Perm.length_eq ((List.perm_ext_iff_of_nodup (List.nodup_dedup _)
    forumBadgeIds_nodup).mpr fun badgeId => ?_)
  rw [List.mem_dedup, hearned]
  constructor
  · intro hb
    obtain ⟨key, hkey, rfl⟩ := List.mem_map.mp hb
    have hforum := (List.mem_filter.mp (List.mem_filter.mp hkey).1).2
    rw [isForumAward, Bool.and_eq_true, List.contains_iff_mem] at hforum
    exact hforum.2
  · intro hb
    exact List.mem_map.mpr ⟨_, List.mem_filter.mpr ⟨hmem badgeId hb, by simp⟩, rfl⟩

/-! ### What an upsert does -/

/-- Every row stays, with a tier that is no lower. -/
structure Upgrades (row row' : BadgeAwardRow) : Prop where
  key : row'.key = row.key
  tier : row.tier ≤ row'.tier
  awardedAt : row'.awardedAt = row.awardedAt
  upgradedAt : row'.upgradedAt = row.upgradedAt ∨ row.tier < row'.tier

theorem Upgrades.refl (row : BadgeAwardRow) : Upgrades row row := ⟨rfl, le_rfl, rfl, .inl rfl⟩

variable {row : BadgeAwardRow} {table : AwardTable}

theorem Upgrades.trans {row' row'' : BadgeAwardRow} (h : Upgrades row row')
    (h' : Upgrades row' row'') : Upgrades row row'' := by
  refine ⟨h'.key.trans h.key, h.tier.trans h'.tier, h'.awardedAt.trans h.awardedAt, ?_⟩
  rcases h.upgradedAt with hsame | hlt
  · rcases h'.upgradedAt with hsame' | hlt'
    · exact .inl (hsame'.trans hsame)
    · exact .inr (h.tier.trans_lt hlt')
  · exact .inr (hlt.trans_le h'.tier)

theorem upgrades_upgrade (row : BadgeAwardRow) : Upgrades row (upgrade a now row) := by
  rw [upgrade]
  split_ifs with hlt
  · exact ⟨rfl, hlt.le, rfl, .inr hlt⟩
  · exact .refl row

theorem upgrade_tier (row : BadgeAwardRow) : (upgrade a now row).tier = max row.tier a.tier := by
  rw [upgrade]
  split_ifs with hlt
  · exact (max_eq_right hlt.le).symm
  · exact (max_eq_left (not_lt.mp hlt)).symm

theorem mem_applyAward {now : ℤ} {a : BadgeAward} :
    row ∈ (applyAward now table a).rows ↔ (row ∈ table.rows ∧ row.key ≠ a.key) ∨
      (∃ row₀ ∈ table.rows, row₀.key = a.key ∧ row = upgrade a now row₀) ∨
        row = ⟨a, now, none⟩ ∧ a.key ∉ table.rows.map (·.key) :=
  KeyedTable.mem_upsert _

theorem applyChunk_upgrades {now : ℤ} {chunk : List BadgeAward} (hrow : row ∈ table.rows) :
    ∃ row' ∈ (applyChunk table chunk now).rows, Upgrades row row' := by
  induction chunk generalizing table row with
  | nil => exact ⟨row, hrow, .refl row⟩
  | cons a chunk ih =>
    obtain ⟨row₁, hrow₁, hfirst⟩ :
        ∃ row₁ ∈ (applyAward now table a).rows, Upgrades row row₁ := by
      by_cases hkey : row.key = a.key
      · exact ⟨upgrade a now row, mem_applyAward.mpr (.inr (.inl ⟨row, hrow, hkey, rfl⟩)),
          upgrades_upgrade a now row⟩
      · exact ⟨row, mem_applyAward.mpr (.inl ⟨hrow, hkey⟩), .refl row⟩
    obtain ⟨row', hrow', hrest⟩ := ih hrow₁
    exact ⟨row', hrow', hfirst.trans hrest⟩

end DrepTalk
