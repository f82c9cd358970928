import DrepTalk.Governance.Epochs
import DrepTalk.Votes.VoteTables

/-!
# Statistics of an epoch

`src/lib/analytics/epochStats.ts`, `epochStatsSync.ts` and `src/lib/db/governanceEpochStats.ts`: a
row of `governance_epoch_stats` per epoch. The live pass writes the row of the open epoch over and
over; the backfill repairs rows of closed epochs whose votes were not complete, and inserts the rows
of epochs that have none.

A pass is a process that runs one statement, or one call to Koios, after the other; each may fail,
and then the pass ends (`statsStep`). Reads that are started together are taken in the order they
are written in. The columns that only describe the distribution of power are those of `EpochSpread`.
-/

namespace DrepTalk

def SPECIAL_DREP_IDS : List String := ["drep_always_abstain", "drep_always_no_confidence"]

def RECENT_VOTING_WINDOW_EPOCHS : ℤ := 12

def MAX_REPAIRS_PER_RUN : ℕ := 24

/-! ### Rows -/

/-- `EpochHistoryInput`: what a DRep holds in the snapshot of an epoch. -/
structure EpochHistoryInput where
  drepId : String
  amount : ℤ
  delegatorCount : Option ℕ

/-- `EpochStatsRow`, and a row of `governance_epoch_stats`. -/
structure EpochStatsRow where
  epoch : ℤ
  totalDrepPower : ℤ
  poweredDrepCount : ℕ
  recentlyVotingDrepCount : ℕ
  silentPoweredDrepCount : Option ℕ
  abstainPower : Option ℤ
  ancPower : Option ℤ
  delegatorTotal : Option ℕ
  abstainDelegators : Option ℕ
  ancDelegators : Option ℕ
  votesCast : ℕ
  voteDataComplete : Bool
  treasuryLovelace : Option ℤ

abbrev EpochStatsTable := KeyedTable fun row : EpochStatsRow => row.epoch

/-- The tables that the passes read and write; of an action, whether its votes have been swept. -/
structure StatsDb where
  votes : VoteTable
  history : HistoryTable
  actions : List (String × Option ℤ)
  powers : List (ℤ × EpochHistoryInput)
  stats : EpochStatsTable

/-! ### Figures -/

def countSilentPoweredDreps (history : List EpochHistoryInput) (voters : List String) : ℕ :=
  history.countP fun r =>
    !(SPECIAL_DREP_IDS.contains r.drepId || voters.contains r.drepId) && decide (0 < r.amount)

structure EpochStatsInput where
  epoch : ℤ
  history : List EpochHistoryInput
  recentlyVotingDrepIds : List String
  votesCast : ℕ
  voteDataComplete : Bool
  treasuryLovelace : Option ℤ

/-- `computeEpochStatsRow`; it throws where a DRep is in the snapshot twice. -/
def computeEpochStatsRow (input : EpochStatsInput) : Option EpochStatsRow :=
  let regular := input.history.filter fun r => !SPECIAL_DREP_IDS.contains r.drepId
  let special (id : String) := input.history.find? fun r => r.drepId == id
  let abstain := special "drep_always_abstain"
  let anc := special "drep_always_no_confidence"
  let delegatorsComplete := !regular.isEmpty && regular.all fun r => r.delegatorCount.isSome
  if (input.history.map (·.drepId)).Nodup then
    some {
      epoch := input.epoch
      totalDrepPower := (regular.map fun r => max r.amount 0).sum
      poweredDrepCount := regular.countP fun r => decide (0 < r.amount)
      recentlyVotingDrepCount := input.recentlyVotingDrepIds.length
      silentPoweredDrepCount := some (countSilentPoweredDreps regular input.recentlyVotingDrepIds)
      abstainPower := abstain.map (·.amount)
      ancPower := anc.map (·.amount)
      delegatorTotal :=
        if delegatorsComplete then some (regular.map fun r => r.delegatorCount.getD 0).sum else none
      abstainDelegators := abstain.bind (·.delegatorCount)
      ancDelegators := anc.bind (·.delegatorCount)
      votesCast := input.votesCast
      voteDataComplete := input.voteDataComplete
      treasuryLovelace := input.treasuryLovelace }
  else none

/-! ### Statements -/

section

variable (cfg : EpochAnchor)

/-- `block_time >= ? AND block_time < ?`, from the start of one epoch to the end of another. -/
def inEpochs (first last blockTime : ℤ) : Bool :=
  decide (cfg.epochStartUnix first ≤ blockTime) &&
    decide (blockTime < cfg.epochStartUnix (last + 1))

/-- The condition of the queries on a row of `drep_votes`. -/
def countedVote (first last : ℤ) (row : VoteRow) : Bool :=
  row.voterRole == "DRep" && row.blockTime.any (inEpochs cfg first last) &&
    !SPECIAL_DREP_IDS.contains row.voterId

/-- ... and on a row of `drep_vote_history`. -/
def countedHistory (first last : ℤ) (row : HistoryRow) : Bool :=
  row.voterRole == "DRep" && inEpochs cfg first last row.blockTime &&
    !SPECIAL_DREP_IDS.contains row.voterId

def countDrepVotesInEpoch (db : StatsDb) (epoch : ℤ) : ℕ :=
  db.votes.rows.countP (countedVote cfg epoch epoch) +
    db.history.rows.countP (countedHistory cfg epoch epoch)

/-- `listRecentlyVotingDrepIds`, over the window of the contract. -/
def listRecentlyVotingDrepIds (db : StatsDb) (epoch : ℤ) : List String :=
  let first := epoch - RECENT_VOTING_WINDOW_EPOCHS + 1
  ((db.votes.rows.filter (countedVote cfg first epoch)).map (·.voterId) ++
    (db.history.rows.filter (countedHistory cfg first epoch)).map (·.voterId)).dedup

end

def countUnsweptActions (db : StatsDb) : ℕ := db.actions.countP fun action => action.2.isNone

def loadStoredEpochHistory (db : StatsDb) (epoch : ℤ) : List EpochHistoryInput :=
  (db.powers.filter fun row => row.1 == epoch).map (·.2)

def listIncompleteVoteDataEpochs (db : StatsDb) : List ℤ :=
  ((db.stats.rows.filter fun row =>
    !row.voteDataComplete || row.silentPoweredDrepCount.isNone).map (·.epoch)).mergeSort

def getStoredStatsEpochs (db : StatsDb) : List ℤ := db.stats.rows.map (·.epoch)

/-- What an upsert makes of a stored row: a treasury that Koios did not serve stays. -/
def EpochStatsRow.over (row stored : EpochStatsRow) : EpochStatsRow :=
  { row with
    epoch := stored.epoch
    treasuryLovelace := row.treasuryLovelace <|> stored.treasuryLovelace }

def upsertEpochStats (db : StatsDb) (row : EpochStatsRow) : StatsDb :=
  { db with stats := db.stats.upsert row row.over fun _ _ => rfl }

/-- `insertEpochStatsIfMissing`, and whether the row was missing. -/
def insertEpochStatsIfMissing (db : StatsDb) (row : EpochStatsRow) : StatsDb × Bool :=
  ({ db with stats := db.stats.insertOrIgnore row },
    !(db.stats.rows.map (·.epoch)).contains row.epoch)

def updateVoteDerivedStats (db : StatsDb) (epoch : ℤ) (votesCast recentlyVotingDrepCount : ℕ)
    (silentPoweredDrepCount : Option ℕ) (complete : Bool) : StatsDb :=
  { db with
    stats := db.stats.updateWhere (fun row => row.epoch == epoch)
      (fun row => { row with
        votesCast := votesCast
        recentlyVotingDrepCount := recentlyVotingDrepCount
        silentPoweredDrepCount := silentPoweredDrepCount <|> row.silentPoweredDrepCount
        voteDataComplete := complete })
      fun _ _ => rfl }

/-! ### Passes -/

/-- What a backfill carries along: the fetches it has left, and the rows it has repaired. -/
structure Backfill where
  currentEpoch : ℤ
  fetchLeft : ℕ
  repaired : ℕ

/-- ... and, once it inserts, the epochs it still goes through, how many were missing, and how many
it has inserted. -/
structure InsertPass where
  backfill : Backfill
  todo : List ℤ
  missing : ℕ
  inserted : ℕ

/-- The arguments of `buildRow`, for the live pass, or for an insert: then the epoch has closed. -/
structure StatsJob where
  epoch : ℤ
  history : List EpochHistoryInput
  treasury : Option ℤ
  insert : Option InsertPass

/-- A pass, by what it is about to do. -/
inductive StatsProc
  | live (epoch : ℤ)
  | liveTotals (epoch : ℤ) (history : List EpochHistoryInput)
  | unswept (job : StatsJob)
  | voters (job : StatsJob) (unswept : ℕ)
  | votes (job : StatsJob) (unswept : ℕ) (voters : List String)
  | writing (job : StatsJob) (row : EpochStatsRow)
  | backfill (b : Backfill)
  | listing (b : Backfill)
  | repairVotes (b : Backfill) (epoch : ℤ) (rest : List ℤ)
  | repairVoters (b : Backfill) (epoch : ℤ) (rest : List ℤ) (votes : ℕ)
  | repairStored (b : Backfill) (epoch : ℤ) (rest : List ℤ) (votes : ℕ) (voters : List String)
  | repairFetch (b : Backfill) (epoch : ℤ) (rest : List ℤ) (votes : ℕ) (voters : List String)
  | repairWrite (b : Backfill) (epoch : ℤ) (rest : List ℤ) (votes : ℕ) (voters : List String)
      (history : List EpochHistoryInput)
  | floor (b : Backfill)
  | storedEpochs (b : Backfill) (floor : ℤ)
  | insertRows (pass : InsertPass) (epoch : ℤ)
  | insertTotals (pass : InsertPass) (epoch : ℤ) (history : List EpochHistoryInput)
  | liveDone (written : Bool)
  | done (inserted repaired remaining : ℕ)
  | failed

/-- What comes in from outside a step. -/
inductive StatsEvent
  | statement
  | totals (treasuryLovelace : Option ℤ)
  | powerRows (rows : List EpochHistoryInput)
  | firstEpoch (floor : Option ℤ)
  | fails

def nextRepair (b : Backfill) : List ℤ → StatsProc
  | [] => .floor b
  | epoch :: rest => .repairVotes b epoch rest

def nextInsert (pass : InsertPass) : StatsProc :=
  match pass.todo with
  | [] => .done pass.inserted pass.backfill.repaired (pass.missing - pass.inserted)
  | epoch :: rest => .insertRows { pass with todo := rest } epoch

/-- The epochs from the floor on that have no row. -/
def missingEpochs (stored : List ℤ) (floor currentEpoch : ℤ) : List ℤ :=
  ((List.range (currentEpoch - floor).toNat).map fun i : ℕ => floor + i).filter
    fun epoch => !stored.contains epoch

def statsStatement (cfg : EpochAnchor) (db : StatsDb) : StatsProc → Option (StatsDb × StatsProc)
  | .live epoch =>
    let history := loadStoredEpochHistory db epoch
    some (db, if history = [] then .liveDone false else .liveTotals epoch history)
  | .unswept job => some (db, .voters job (countUnsweptActions db))
  | .voters job unswept =>
    some (db, .votes job unswept (listRecentlyVotingDrepIds cfg db job.epoch))
  | .votes job unswept voters =>
    match computeEpochStatsRow
      { epoch := job.epoch
        history := job.history
        recentlyVotingDrepIds := voters
        votesCast := countDrepVotesInEpoch cfg db job.epoch
        voteDataComplete := job.insert.isSome && unswept == 0
        treasuryLovelace := job.treasury } with
    | none => some (db, .failed)
    | some row => some (db, .writing job row)
  | .writing job row =>
    match job.insert with
    | none => some (upsertEpochStats db row, .liveDone true)
    | some pass =>
      let (db', inserted) := insertEpochStatsIfMissing db row
      some (db', nextInsert { pass with
        inserted := if inserted then pass.inserted + 1 else pass.inserted })
  | .backfill b => some (db, if countUnsweptActions db = 0 then .listing b else .floor b)
  | .listing b =>
    let incomplete := (listIncompleteVoteDataEpochs db).filter fun epoch =>
      decide (epoch < b.currentEpoch)
    some (db, nextRepair b (incomplete.take MAX_REPAIRS_PER_RUN))
  | .repairVotes b epoch rest =>
    some (db, .repairVoters b epoch rest (countDrepVotesInEpoch cfg db epoch))
  | .repairVoters b epoch rest votes =>
    some (db, .repairStored b epoch rest votes (listRecentlyVotingDrepIds cfg db epoch))
  | .repairStored b epoch rest votes voters =>
    let stored := loadStoredEpochHistory db epoch
    some (db, if stored = [] ∧ 0 < b.fetchLeft then
        .repairFetch { b with fetchLeft := b.fetchLeft - 1 } epoch rest votes voters
      else .repairWrite b epoch rest votes voters stored)
  | .repairWrite b epoch rest votes voters history =>
    let silent := if history = [] then none else some (countSilentPoweredDreps history voters)
    some (updateVoteDerivedStats db epoch votes voters.length silent true,
      nextRepair { b with repaired := b.repaired + 1 } rest)
  | .storedEpochs b floor =>
    let missing := missingEpochs (getStoredStatsEpochs db) floor b.currentEpoch
    some (db, nextInsert ⟨b, missing.take b.fetchLeft, missing.length, 0⟩)
  | _ => none

/-- What a pass makes of an answer from Koios. -/
def statsAnswered : StatsEvent → StatsProc → Option StatsProc
  | .totals treasury, .liveTotals epoch history => some (.unswept ⟨epoch, history, treasury, none⟩)
  | .powerRows rows, .repairFetch b epoch rest votes voters =>
    some (.repairWrite b epoch rest votes voters rows)
  | .firstEpoch none, .floor b => some (.done 0 b.repaired 0)
  | .firstEpoch (some floor), .floor b =>
    some (if b.currentEpoch ≤ floor then .done 0 b.repaired 0 else .storedEpochs b floor)
  | .powerRows rows, .insertRows pass epoch =>
    some (if rows = [] then nextInsert pass else .insertTotals pass epoch rows)
  | .totals none, .insertTotals pass _ _ => some (nextInsert pass)
  | .totals (some treasury), .insertTotals pass epoch history =>
    some (.unswept ⟨epoch, history, some treasury, some pass⟩)
  | _, _ => none

/-- A pass whose statement, or whose call to Koios, fails. -/
def statsFails : StatsProc → Option StatsProc
  | .liveDone _ | .done _ _ _ | .failed => none
  | _ => some .failed

def statsStep (cfg : EpochAnchor) (event : StatsEvent) (db : StatsDb) (l : StatsProc) :
    Option (StatsDb × StatsProc) :=
  match event with
  | .statement => statsStatement cfg db l
  | .fails => (statsFails l).map fun l' => (db, l')
  | answer => (statsAnswered answer l).map fun l' => (db, l')

end DrepTalk
