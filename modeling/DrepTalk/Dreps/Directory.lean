import DrepTalk.Analytics.EpochStats
import DrepTalk.Library.Counting
import DrepTalk.Library.SqlRank
import Mathlib.Data.Prod.Lex

/-!
# The directory of the DReps

`src/lib/db/dreps.ts`. **The listing** (`listDreps`) is sorted by the database, with NULL below every
value; the order of ties is its own, so a listing is any that is sorted. **The rank** of one DRep
(`getDrepRanking`) is counted by a comparison with its own row, which is NULL where one side is.

The two agree but for a DRep without voting power: nobody compares as ahead of it, though everybody
it ties with up to there, and who has some, is listed ahead of it (`getDrepRanking_iff`). The
standing among **the movers** (`getDrepMoverStanding`) is counted over rows that have both
snapshots, and is right (`getDrepMoverStanding_right`).

Amounts in columns of text are the numbers that `CAST` and `BigInt` read.
-/

namespace DrepTalk

/-- A non-negative amount that fits into the integers of the database. -/
abbrev Lovelace := {n : ℕ // n < 2 ^ 63}

/-- What the directory reads of a row of `dreps`. -/
structure DirectoryRow where
  drepId : String
  active : Bool
  votingPower : Option Lovelace
  delegatorCount : Option Lovelace
  votingPowerSnapshot : Option Lovelace
  votingPowerPrev : Option Lovelace
  votingPowerSnapshotEpoch : Option ℤ
  deriving DecidableEq

abbrev DirectoryTable := KeyedTable DirectoryRow.drepId

inductive DrepSort
  | power
  | delegators
  deriving DecidableEq

structure DirectoryOptions where
  activeOnly : Bool
  sort : DrepSort

/-! ### The listing -/

/-- The `WHERE` of the listing. -/
def isListed (activeOnly : Bool) (row : DirectoryRow) : Bool :=
  !SPECIAL_DREP_IDS.contains row.drepId && (!activeOnly || row.active)

/-- Whether `a` sorts strictly before `b`: all keys are descending, with NULL last. -/
def sortsAhead : DrepSort → DirectoryRow → DirectoryRow → Bool
  | .power, a, b => nullsLow b.votingPower a.votingPower
  | .delegators, a, b => nullsLow b.delegatorCount a.delegatorCount ||
      (a.delegatorCount == b.delegatorCount && nullsLow b.votingPower a.votingPower)

/-- The rows that the database may list. -/
structure Listing (opts : DirectoryOptions) (dreps : DirectoryTable) where
  rows : List DirectoryRow
  perm : rows.Perm (dreps.rows.filter (isListed opts.activeOnly))
  sorted : rows.Pairwise fun a b => sortsAhead opts.sort b a = false

def listDreps {opts : DirectoryOptions} {dreps : DirectoryTable} (listing : Listing opts dreps)
    (limit offset : Option ℤ) : List DirectoryRow :=
  (listing.rows.drop (max (offset.getD 0) 0).toNat).take
    (min (max (limit.getD 50) 1) 100).toNat

/-! ### The rank -/

def directoryRow (dreps : DirectoryTable) (drepId : String) : Option DirectoryRow :=
  dreps.rows.find? fun row => row.drepId == drepId

/-- `aheadSql`, against what the subqueries read of the DRep's own row. -/
def aheadSql (sort : DrepSort) (row : DirectoryRow) (count power : Option Lovelace) : SqlBool :=
  match sort with
  | .power => SqlBool.gt row.votingPower power
  | .delegators => (SqlBool.ofBool row.delegatorCount.isSome).and
      ((SqlBool.gt row.delegatorCount count).or
        ((SqlBool.eq row.delegatorCount count).and (SqlBool.gt row.votingPower power)))

structure DrepRanking where
  drep : DirectoryRow
  rank : Option ℕ
  total : ℕ

def isUnranked (opts : DirectoryOptions) (drep : DirectoryRow) : Bool :=
  SPECIAL_DREP_IDS.contains drep.drepId || (opts.activeOnly && !drep.active) ||
    (opts.sort == .delegators && drep.delegatorCount.isNone)

def getDrepRanking (dreps : DirectoryTable) (drepId : String) (opts : DirectoryOptions) :
    Option DrepRanking :=
  (directoryRow dreps drepId).map fun drep =>
    let listed := dreps.rows.filter (isListed opts.activeOnly)
    let count := (directoryRow dreps drepId).bind fun own => own.delegatorCount
    let power := (directoryRow dreps drepId).bind fun own => own.votingPower
    let ahead := listed.countP fun row => (aheadSql opts.sort row count power).holds
    { drep
      rank := if isUnranked opts drep then none else some (ahead + 1)
      total := listed.length }

/-! ### Movers -/

inductive MoveDirection
  | up
  | down
  | flat
  deriving DecidableEq

/-- The difference of the snapshots, if there are both. -/
def DirectoryRow.delta (row : DirectoryRow) : Option ℤ :=
  row.votingPowerSnapshot.bind fun snapshot =>
    row.votingPowerPrev.map fun prev => (snapshot.1 : ℤ) - prev.1

/-- `direction` of `computeVotingPowerDelta`. -/
def moveDirection (delta : ℤ) : MoveDirection :=
  if 0 < delta then .up else if delta < 0 then .down else .flat

/-- The rows of `base`. -/
def hasMove (row : DirectoryRow) : Bool :=
  row.votingPowerSnapshot.isSome && row.votingPowerPrev.isSome &&
    !SPECIAL_DREP_IDS.contains row.drepId

def movesIn (direction : MoveDirection) (row : DirectoryRow) : SqlBool :=
  match direction with
  | .up => SqlBool.gt row.delta (some 0)
  | _ => SqlBool.gt (some 0) row.delta

/-- Further from zero than the move of another row. -/
def movesFurther (direction : MoveDirection) (row : DirectoryRow) (own : Option ℤ) : SqlBool :=
  match direction with
  | .up => SqlBool.gt row.delta own
  | _ => SqlBool.gt own row.delta

/-- The rows that the database may list as movers in a direction, without a limit. -/
structure MoverList (dreps : DirectoryTable) (direction : MoveDirection) where
  rows : List DirectoryRow
  perm : rows.Perm (dreps.rows.filter fun row => hasMove row && (movesIn direction row).holds)
  sorted : rows.Pairwise fun a b => (movesFurther direction b a.delta).holds = false

structure VotingPowerMovers where
  gainers : List DirectoryRow
  losers : List DirectoryRow
  epoch : Option ℤ

def listVotingPowerMovers {dreps : DirectoryTable} (allGainers : MoverList dreps .up)
    (allLosers : MoverList dreps .down) (limit : Option ℤ) : VotingPowerMovers :=
  let count := (min (max (limit.getD 10) 1) 25).toNat
  let gainers := allGainers.rows.take count
  let losers := allLosers.rows.take count
  { gainers
    losers
    epoch := (gainers.head?.bind fun row => row.votingPowerSnapshotEpoch).or
      (losers.head?.bind fun row => row.votingPowerSnapshotEpoch) }

structure DrepMoverStanding where
  drep : DirectoryRow
  direction : MoveDirection
  rank : Option ℕ
  total : ℕ
  epoch : Option ℤ

def getDrepMoverStanding (dreps : DirectoryTable) (drepId : String) : Option DrepMoverStanding :=
  (directoryRow dreps drepId).map fun drep =>
    let epoch := drep.votingPowerSnapshotEpoch
    match drep.delta with
    | none => ⟨drep, .flat, none, 0, epoch⟩
    | some delta =>
      let direction := moveDirection delta
      if direction = .flat ∨ SPECIAL_DREP_IDS.contains drepId then ⟨drep, .flat, none, 0, epoch⟩
      else
        let base := dreps.rows.filter hasMove
        let own := (directoryRow dreps drepId).bind fun own => own.delta
        let ahead := base.countP fun row =>
          ((movesIn direction row).and (movesFurther direction row own)).holds
        { drep
          direction
          rank := some (ahead + 1)
          total := base.countP fun row => (movesIn direction row).holds
          epoch }

/-! ### Comparison and order -/

section

variable {opts : DirectoryOptions} {dreps : DirectoryTable} {drepId : String}
  {drep row : DirectoryRow} {sort : DrepSort}

theorem directoryRow_eq_some (h : directoryRow dreps drepId = some drep) :
    drep ∈ dreps.rows ∧ drep.drepId = drepId :=
  ⟨List.mem_of_find?_eq_some h, by simpa using List.find?_some h⟩

theorem sortsAhead_irrefl (sort : DrepSort) (row : DirectoryRow) :
    sortsAhead sort row row = false := by
  cases sort <;> simp [sortsAhead, nullsLow_irrefl]

/-- Whether a row is level with a DRep when it comes to voting power. -/
def levelBeforePower : DrepSort → DirectoryRow → DirectoryRow → Bool
  | .power, _, _ => true
  | .delegators, row, drep => row.delegatorCount == drep.delegatorCount

/-- What the comparison misses: rows with voting power, ahead of a DRep that has none. -/
def isMissed (sort : DrepSort) (row drep : DirectoryRow) : Bool :=
  drep.votingPower.isNone && levelBeforePower sort row drep && row.votingPower.isSome

theorem holds_gt_or (x y : Option Lovelace) :
    nullsLow y x = ((SqlBool.gt x y).holds || (y.isNone && x.isSome)) := by
  cases x <;> cases y <;> simp [nullsLow, SqlBool.gt, SqlBool.holds]

theorem sortsAhead_eq (hcount : sort = .delegators → drep.delegatorCount ≠ none) :
    sortsAhead sort row drep =
      ((aheadSql sort row drep.delegatorCount drep.votingPower).holds ||
        isMissed sort row drep) := by
  cases sort with
  | power => simp [sortsAhead, aheadSql, isMissed, levelBeforePower, holds_gt_or]
  | delegators =>
    obtain ⟨c, hc⟩ := Option.ne_none_iff_exists'.mp (hcount rfl)
    simp only [sortsAhead, aheadSql, isMissed, levelBeforePower, holds_gt_or row.votingPower, hc,
      SqlBool.holds_and, SqlBool.holds_or, SqlBool.holds_ofBool, holds_gt_some]
    rcases row.delegatorCount with _ | d
    · simp [nullsLow]
    · have hequal : (SqlBool.eq (some d) (some c)).holds = (some d == some c) := by
        rw [Bool.eq_iff_iff, SqlBool.holds_eq, beq_iff_eq]
        simp [Eq.comm]
      rw [hequal, Option.isSome_some, Bool.true_and]
      cases nullsLow (some c) (some d) <;> cases some d == some c <;> simp

theorem countP_ahead_eq_iff (hcount : sort = .delegators → drep.delegatorCount ≠ none)
    (listed : List DirectoryRow) :
    listed.countP (sortsAhead sort · drep) = listed.countP (fun row =>
        (aheadSql sort row drep.delegatorCount drep.votingPower).holds) ↔
      ∀ row ∈ listed, isMissed sort row drep = false := by
  constructor
  · intro heq
    by_contra hmissed
    push Not at hmissed
    obtain ⟨row, hrow, hmissed⟩ := hmissed
    replace hmissed := Bool.eq_true_of_not_eq_false hmissed
    refine absurd heq (countP_lt_countP (fun r _ hr => ?_) hrow ?_ ?_).ne'
    · rw [sortsAhead_eq hcount, hr, Bool.true_or]
    · -- against no voting power nothing compares as more
      rw [isMissed, Bool.and_eq_true, Bool.and_eq_true, Option.isNone_iff_eq_none] at hmissed
      obtain ⟨⟨hnone, hlevel⟩, -⟩ := hmissed
      rw [hnone]
      cases sort with
      | power => exact holds_gt_none _
      | delegators =>
        rw [levelBeforePower, beq_iff_eq] at hlevel
        simp only [aheadSql, hlevel, SqlBool.holds_and, SqlBool.holds_or, holds_gt_none,
          Bool.and_false, Bool.or_false]
        rcases drep.delegatorCount with _ | c
        · rfl
        · rw [holds_gt_some, nullsLow_irrefl, Bool.and_false]
    · rw [sortsAhead_eq hcount, hmissed, Bool.or_true]
  · intro hnone
    refine List.countP_congr fun row hrow => ?_
    rw [sortsAhead_eq hcount, hnone row hrow, Bool.or_false]

/-! ### The place in the listing -/

/-- The keys of the sort, with no value below every value. -/
def sortKey (sort : DrepSort) (row : DirectoryRow) : WithBot Lovelace ×ₗ WithBot Lovelace :=
  match sort with
  | .power => toLex (⊥, lowKey row.votingPower)
  | .delegators => toLex (lowKey row.delegatorCount, lowKey row.votingPower)

theorem sortsAhead_iff {a b : DirectoryRow} :
    sortsAhead sort a b = true ↔ sortKey sort b < sortKey sort a := by
  cases sort with
  | power => simp [sortsAhead, sortKey, Prod.Lex.toLex_lt_toLex, nullsLow_iff]
  | delegators =>
    rw [sortsAhead, sortKey, sortKey, Prod.Lex.toLex_lt_toLex, Bool.or_eq_true, Bool.and_eq_true,
      nullsLow_iff, nullsLow_iff, beq_iff_eq, lowKey_injective.eq_iff, eq_comm]

/-- A listing that the database may give. -/
def directory (opts : DirectoryOptions) (dreps : DirectoryTable) : Listing opts dreps where
  rows := (dreps.rows.filter (isListed opts.activeOnly)).insertionSort
    fun a b => sortKey opts.sort b ≤ sortKey opts.sort a
  perm := List.perm_insertionSort _ _
  sorted := (pairwise_insertionSort_key (sortKey opts.sort) _).imp fun hle =>
    Bool.eq_false_iff.mpr fun hahead => absurd (sortsAhead_iff.mp hahead) (not_lt.mpr hle)

theorem Listing.nodup (listing : Listing opts dreps) : listing.rows.Nodup :=
  listing.perm.nodup_iff.mpr ((List.Nodup.of_map _ dreps.unique).filter _)

theorem isListed_of_ranked (h : isUnranked opts drep = false) :
    isListed opts.activeOnly drep = true ∧
      (opts.sort = .delegators → drep.delegatorCount ≠ none) := by
  rw [isUnranked, Bool.or_eq_false_iff, Bool.or_eq_false_iff] at h
  obtain ⟨⟨hspecial, hactive⟩, hcount⟩ := h
  refine ⟨?_, fun hsort hnone => ?_⟩
  · rw [isListed, hspecial]
    cases hall : opts.activeOnly
    · rfl
    · rw [hall, Bool.true_and, Bool.not_eq_false'] at hactive
      rw [hactive]
      rfl
  · rw [hsort, hnone] at hcount
    cases hcount

variable {ranking : DrepRanking} {r : ℕ} {direction : MoveDirection} {standing : DrepMoverStanding}

theorem getDrepRanking_eq_some (h : getDrepRanking dreps drepId opts = some ranking)
    (hrank : ranking.rank = some r) :
    ranking.drep ∈ dreps.rows.filter (isListed opts.activeOnly) ∧
      (opts.sort = .delegators → ranking.drep.delegatorCount ≠ none) ∧
      (dreps.rows.filter (isListed opts.activeOnly)).countP (fun row =>
        (aheadSql opts.sort row ranking.drep.delegatorCount ranking.drep.votingPower).holds) + 1 =
          r ∧
      ranking.total = (dreps.rows.filter (isListed opts.activeOnly)).length := by
  obtain ⟨drep, hrow, rfl⟩ := Option.map_eq_some_iff.mp h
  cases hunranked : isUnranked opts drep with
  | true => simp [hunranked] at hrank
  | false =>
    obtain ⟨hlisted, hcount⟩ := isListed_of_ranked hunranked
    refine ⟨List.mem_filter.mpr ⟨(directoryRow_eq_some hrow).1, hlisted⟩, hcount, ?_, rfl⟩
    simpa [hunranked, hrow] using hrank

/-- A rank that tells where the DRep is listed: so many rows are strictly ahead of it, and in any
listing it stands behind them, and before all but these and its ties. -/
structure RankRight (opts : DirectoryOptions) (dreps : DirectoryTable) (ranking : DrepRanking)
    (rank : ℕ) (listing : Listing opts dreps) : Prop where
  listed : ranking.drep ∈ listing.rows
  ahead : listing.rows.countP (sortsAhead opts.sort · ranking.drep) = rank - 1
  placed : ∃ i, listing.rows[i]? = some ranking.drep ∧ rank ≤ i + 1 ∧
    i + 1 ≤ rank + listing.rows.countP fun row =>
      !sortsAhead opts.sort row ranking.drep && !sortsAhead opts.sort ranking.drep row &&
        row != ranking.drep
  whole : listing.rows.length = ranking.total

/-- **The rank** tells where the DRep is listed exactly if no row is missed. -/
theorem getDrepRanking_iff (h : getDrepRanking dreps drepId opts = some ranking)
    (hrank : ranking.rank = some r) :
    (∀ listing : Listing opts dreps, RankRight opts dreps ranking r listing) ↔
      ∀ row ∈ dreps.rows, isListed opts.activeOnly row = true →
        isMissed opts.sort row ranking.drep = false := by
  obtain ⟨hmem, hcount, hahead, htotal⟩ := getDrepRanking_eq_some h hrank
  have hmissed := countP_ahead_eq_iff hcount (dreps.rows.filter (isListed opts.activeOnly))
  have hfilter : (∀ row ∈ dreps.rows.filter (isListed opts.activeOnly),
      isMissed opts.sort row ranking.drep = false) ↔
      ∀ row ∈ dreps.rows, isListed opts.activeOnly row = true →
        isMissed opts.sort row ranking.drep = false := by
    simp only [List.mem_filter, and_imp]
  rw [← hfilter, ← hmissed]
  constructor
  · intro hright
    have hcounted := (hright (directory opts dreps)).ahead
    rw [(directory opts dreps).perm.countP_eq] at hcounted
    omega
  · intro heq listing
    have hlisted := listing.perm.mem_iff.mpr hmem
    have hcounted : listing.rows.countP (sortsAhead opts.sort · ranking.drep) = r - 1 := by
      rw [listing.perm.countP_eq, heq]
      omega
    obtain ⟨i, hi, hbehind, hbefore⟩ := position_of_sorted listing.sorted listing.nodup
      (sortsAhead_irrefl opts.sort ranking.drep) hlisted
    rw [hcounted] at hbehind hbefore
    exact ⟨hlisted, hcounted, ⟨i, hi, by omega, by omega⟩,
      listing.perm.length_eq.trans htotal.symm⟩

/-! ### The place among the movers -/

/-- The larger move of two in one direction. -/
def moveSize (row : DirectoryRow) : ℕ := (row.delta.getD 0).natAbs

theorem holds_movesIn :
    (movesIn direction row).holds = true ↔
      ∃ delta ∈ row.delta, if direction = .up then 0 < delta else delta < 0 := by
  cases direction <;> simp [movesIn, SqlBool.holds_gt]

theorem holds_movesFurther (hrow : (movesIn direction row).holds = true)
    (hdrep : (movesIn direction drep).holds = true) :
    (movesFurther direction row drep.delta).holds = decide (moveSize drep < moveSize row) := by
  obtain ⟨delta, hdelta, hsign⟩ := holds_movesIn.mp hrow
  obtain ⟨own, hown, hsign'⟩ := holds_movesIn.mp hdrep
  rw [Option.mem_def] at hdelta hown
  rw [Bool.eq_iff_iff, decide_eq_true_eq, moveSize, moveSize, hdelta, hown]
  cases direction <;> simp only [if_true, reduceCtorEq, if_false] at hsign hsign' <;>
    simp [movesFurther, hdelta, SqlBool.holds_gt] <;> omega

/-- Movers that the database may list. -/
def movers (dreps : DirectoryTable) (direction : MoveDirection) : MoverList dreps direction where
  rows := (dreps.rows.filter fun row =>
    hasMove row && (movesIn direction row).holds).insertionSort fun a b => moveSize b ≤ moveSize a
  perm := List.perm_insertionSort _ _
  sorted := by
    refine (pairwise_insertionSort_key moveSize _).imp_of_mem fun ha hb hle => ?_
    rw [List.mem_insertionSort, List.mem_filter, Bool.and_eq_true] at ha hb
    rw [holds_movesFurther hb.2.2 ha.2.2]
    exact decide_eq_false (not_lt.mpr hle)

theorem moveDirection_sign {delta : ℤ} (h : moveDirection delta ≠ .flat) :
    if moveDirection delta = .up then 0 < delta else delta < 0 := by
  by_cases hup : 0 < delta
  · rw [moveDirection, if_pos hup, if_pos rfl]
    exact hup
  · by_cases hdown : delta < 0
    · rw [moveDirection, if_neg hup, if_pos hdown, if_neg (by decide)]
      exact hdown
    · exact absurd (by rw [moveDirection, if_neg hup, if_neg hdown]) h

/-- A standing that tells where the DRep is among the movers of its direction. -/
structure StandingRight (dreps : DirectoryTable) (standing : DrepMoverStanding) (rank : ℕ)
    (movers : MoverList dreps standing.direction) : Prop where
  whole : movers.rows.length = standing.total
  ahead : movers.rows.countP (fun row => moveSize standing.drep < moveSize row) = rank - 1

theorem getDrepMoverStanding_eq_some (h : getDrepMoverStanding dreps drepId = some standing)
    (hrank : standing.rank = some r) :
    (movesIn standing.direction standing.drep).holds = true ∧
      (dreps.rows.filter hasMove).countP (fun row => (movesIn standing.direction row).holds) =
        standing.total ∧
      (dreps.rows.filter hasMove).countP (fun row => ((movesIn standing.direction row).and
        (movesFurther standing.direction row standing.drep.delta)).holds) + 1 = r := by
  obtain ⟨drep, hrow, rfl⟩ := Option.map_eq_some_iff.mp h
  rcases hdelta : drep.delta with _ | delta
  · simp [hdelta] at hrank
  · by_cases hflat : moveDirection delta = .flat ∨ SPECIAL_DREP_IDS.contains drepId
    · simp only [hdelta, if_pos hflat, reduceCtorEq] at hrank
    · simp only [hdelta, if_neg hflat, hrow, Option.bind_some, Option.some.injEq] at hrank ⊢
      exact ⟨holds_movesIn.mpr ⟨delta, hdelta, moveDirection_sign fun h => hflat (.inl h)⟩,
        trivial, hrank⟩

/-- **The standing** is right. -/
theorem getDrepMoverStanding_right (h : getDrepMoverStanding dreps drepId = some standing)
    (hrank : standing.rank = some r) (movers : MoverList dreps standing.direction) :
    StandingRight dreps standing r movers := by
  obtain ⟨hmoves, htotal, hahead⟩ := getDrepMoverStanding_eq_some h hrank
  constructor
  · rw [movers.perm.length_eq, ← htotal, List.countP_eq_length_filter, List.filter_filter]
    exact congrArg List.length (List.filter_congr fun row _ => Bool.and_comm _ _)
  · rw [movers.perm.countP_eq, ← hahead, Nat.add_sub_cancel, List.countP_filter,
      List.countP_filter]
    refine List.countP_congr fun row _ => ?_
    rw [SqlBool.holds_and]
    cases hin : (movesIn standing.direction row).holds with
    | false => simp
    | true => simp [holds_movesFurther hin hmoves, Bool.and_comm]

/-! ### Both -/

/-- **A DRep's own rows.** The rank is the place in the listing iff no listed row is level with the
DRep before power has any, or it has power; the standing among the movers always is. -/
theorem drep_standing (dreps : DirectoryTable) (drepId : String) :
    (∀ opts ranking r, getDrepRanking dreps drepId opts = some ranking → ranking.rank = some r →
      ((∀ listing : Listing opts dreps, RankRight opts dreps ranking r listing) ↔
        ∀ row ∈ dreps.rows, isListed opts.activeOnly row = true →
          isMissed opts.sort row ranking.drep = false)) ∧
      ∀ standing r, getDrepMoverStanding dreps drepId = some standing →
        standing.rank = some r → ∀ movers : MoverList dreps standing.direction,
          StandingRight dreps standing r movers :=
  ⟨fun _ _ _ h hrank => getDrepRanking_iff h hrank,
    fun _ _ h hrank movers => getDrepMoverStanding_right h hrank movers⟩

end

/-- Two DReps with three delegators each, where the smaller one has moved further. -/
def levelDreps : DirectoryTable where
  rows := [⟨"drep1a", true, some ⟨9, by decide⟩, some ⟨3, by decide⟩, some ⟨9, by decide⟩,
      some ⟨4, by decide⟩, some 500⟩,
    ⟨"drep1b", true, some ⟨7, by decide⟩, some ⟨3, by decide⟩, some ⟨7, by decide⟩,
      some ⟨1, by decide⟩, some 500⟩]
  unique := by decide

theorem drep_standing_level :
    (∃ ranking, getDrepRanking levelDreps "drep1b" ⟨true, .delegators⟩ = some ranking ∧
      ranking.rank = some 2 ∧
        ∀ listing, RankRight ⟨true, .delegators⟩ levelDreps ranking 2 listing) ∧
    ∃ standing, getDrepMoverStanding levelDreps "drep1a" = some standing ∧
      standing.rank = some 2 ∧ ∀ movers, StandingRight levelDreps standing 2 movers := by
  have hboth := drep_standing levelDreps
  exact ⟨⟨_, rfl, rfl, ((hboth "drep1b").1 _ _ _ rfl rfl).mpr (by decide)⟩,
    ⟨_, rfl, rfl, (hboth "drep1a").2 _ _ rfl rfl⟩⟩

/-- A DRep without voting power, and one with some. -/
def unpoweredDreps : DirectoryTable where
  rows := [⟨"drep1a", true, none, none, none, none, none⟩,
    ⟨"drep1b", true, some ⟨5, by decide⟩, none, none, none, none⟩]
  unique := by decide

/-- The DRep without voting power is listed last of two, with the rank of the first. -/
theorem not_rankRight :
    ¬∀ (dreps : DirectoryTable) (drepId : String) (opts : DirectoryOptions)
      (ranking : DrepRanking) (r : ℕ), getDrepRanking dreps drepId opts = some ranking →
      ranking.rank = some r → ∀ listing, RankRight opts dreps ranking r listing := by
  intro h
  have hright := h unpoweredDreps "drep1a" ⟨false, .power⟩ _ 1 rfl rfl
  have hahead := (hright (directory _ unpoweredDreps)).ahead
  revert hahead
  decide

end DrepTalk
