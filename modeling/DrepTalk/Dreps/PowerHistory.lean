import DrepTalk.Library.Table
import DrepTalk.Library.Interleaving

/-!
# Voting power per epoch

`src/lib/dreps/votingPowerHistorySync.ts` over `src/lib/db/drepVotingPowerHistory.ts`, statement by
statement. A run stores the snapshots of the epochs that are missing, newest first and within a
budget, deletes those below the floor, projects the last two onto the rows of the DReps where it
fetched one of them, and stamps the delegator counts that it has observed.

What Koios answers for an epoch comes from outside: an error on some page, nothing, or the snapshot
in pages.
-/

namespace DrepTalk

/-! ### Snapshots of Koios -/

structure DrepVotingPowerHistoryRow where
  drepId : String
  amount : Option String

/-- The snapshot of an epoch, with a row for each DRep. -/
structure PowerSnapshot where
  rows : List DrepVotingPowerHistoryRow
  distinct : (rows.map (·.drepId)).Nodup

inductive PowerAnswer
  | failsAfter (pages : ℕ)
  | empty
  | snapshot

def PAGE_SIZE : ℕ := 1000

/-- The page at an offset; none is an error. -/
def koiosPage (snapshot : PowerSnapshot) (answer : PowerAnswer) (offset : ℕ) :
    Option (List DrepVotingPowerHistoryRow) :=
  match answer with
  | .failsAfter pages =>
    if pages * PAGE_SIZE ≤ offset then none
    else some ((snapshot.rows.drop offset).take PAGE_SIZE)
  | .empty => some []
  | .snapshot => some ((snapshot.rows.drop offset).take PAGE_SIZE)

structure VotingPowerHistoryRow where
  drepId : String
  epoch : ℤ
  amount : String

/-- The rows of a page; those without an amount are left out. -/
def powerRows (epoch : ℤ) (page : List DrepVotingPowerHistoryRow) : List VotingPowerHistoryRow :=
  page.filterMap fun row => row.amount.map fun amount => ⟨row.drepId, epoch, amount⟩

/-- Page after page until a short one; the fuel bounds the pages. -/
def fetchEpochPowerRows (page : ℕ → Option (List DrepVotingPowerHistoryRow)) (epoch : ℤ) :
    (fuel offset : ℕ) → Option (List VotingPowerHistoryRow)
  | 0, _ => none
  | fuel + 1, offset =>
    (page offset).bind fun rows =>
      if rows.length < PAGE_SIZE then some (powerRows epoch rows)
      else
        (fetchEpochPowerRows page epoch fuel (offset + PAGE_SIZE)).map (powerRows epoch rows ++ ·)

/-- What a run makes of the answer for an epoch. -/
def fetchAnswer (snapshot : PowerSnapshot) (epoch : ℤ) (answer : PowerAnswer) :
    Option (List VotingPowerHistoryRow) :=
  fetchEpochPowerRows (koiosPage snapshot answer) epoch (snapshot.rows.length + 1) 0

/-! ### Tables -/

/-- A row of `drep_voting_power_history`. -/
structure PowerHistoryRow extends VotingPowerHistoryRow where
  delegatorCount : Option ℤ

def PowerHistoryRow.key (r : PowerHistoryRow) : String × ℤ := (r.drepId, r.epoch)

/-- A row of `dreps`, by the projected columns. -/
structure DrepPowerRow where
  drepId : String
  votingPowerSnapshot : Option String
  votingPowerPrev : Option String
  votingPowerSnapshotEpoch : Option ℤ

structure PowerDb where
  history : KeyedTable PowerHistoryRow.key
  dreps : KeyedTable DrepPowerRow.drepId

namespace PowerDb

/-- `SELECT amount … WHERE drep_id = … AND epoch = …`. -/
def amountAt (db : PowerDb) (drepId : String) (epoch : ℤ) : Option String :=
  (db.history.rows.find? fun r => r.drepId == drepId && r.epoch == epoch).map (·.amount)

def Stored (db : PowerDb) (epoch : ℤ) : Prop := ∃ r ∈ db.history.rows, r.epoch = epoch

instance (db : PowerDb) (epoch : ℤ) : Decidable (db.Stored epoch) :=
  inferInstanceAs (Decidable (∃ r ∈ db.history.rows, r.epoch = epoch))

def getStoredEpochs (db : PowerDb) : List ℤ := (db.history.rows.map (·.epoch)).dedup

/-- `INSERT OR IGNORE` in chunks, in one batch. -/
def insertVotingPowerHistory (db : PowerDb) (rows : List VotingPowerHistoryRow) : PowerDb :=
  { db with
    history := (rows.map fun r => (⟨r, none⟩ : PowerHistoryRow)).foldl
      KeyedTable.insertOrIgnore db.history }

def pruneVotingPowerHistoryBefore (db : PowerDb) (minEpoch : ℤ) : PowerDb :=
  { db with history := db.history.deleteWhere fun r => decide (r.epoch < minEpoch) }

def denormalizeDrepVotingPower (db : PowerDb) (currentEpoch : ℤ) : PowerDb :=
  { db with
    dreps := db.dreps.updateWhere (fun _ => true)
      (fun d => ⟨d.drepId, db.amountAt d.drepId currentEpoch,
        db.amountAt d.drepId (currentEpoch - 1), some currentEpoch⟩) fun _ _ => rfl }

/-- The rows of an epoch that have no count yet, where one was observed. -/
def openCounts (db : PowerDb) (epoch : ℤ) (observed : List (String × ℤ)) : List (String × ℤ) :=
  (db.history.rows.filter fun r => r.epoch == epoch && r.delegatorCount.isNone).filterMap fun r =>
    (observed.lookup r.drepId).map fun count => (r.drepId, count)

/-- The update of `stampDelegatorCounts`, in chunks, in one batch. -/
def stampCounts (db : PowerDb) (epoch : ℤ) (pairs : List (String × ℤ)) : PowerDb :=
  { db with
    history := db.history.updateWhere
      (fun r => r.epoch == epoch && r.delegatorCount.isNone && (pairs.lookup r.drepId).isSome)
      (fun r => { r with delegatorCount := pairs.lookup r.drepId }) fun _ _ => rfl }

end PowerDb

/-! ### A run -/

/-- `VotingPowerHistorySyncDeps`, by the values. The counts are keyed by DRep. -/
structure PowerSyncInput where
  currentEpoch : ℤ
  windowSize : Option ℤ
  floorEpoch : Option ℤ
  maxFetchPerRun : Option ℕ
  observedDelegatorCounts : Option (List (String × ℤ))
  deriving DecidableEq

namespace PowerSyncInput

variable (input : PowerSyncInput)

def observed : List (String × ℤ) := input.observedDelegatorCounts.getD []

/-- The floor that was given, unless it lies ahead. -/
def absoluteFloor : Option ℤ :=
  input.floorEpoch.filter fun floor => decide (floor ≤ input.currentEpoch)

def floor : ℤ :=
  input.absoluteFloor.getD (max 0 (input.currentEpoch - input.windowSize.getD 16 + 1))

/-- The epochs from the floor to the current one. -/
def window : List ℤ :=
  (List.range (input.currentEpoch - input.floor + 1).toNat).map fun i : ℕ => input.floor + i

/-- The missing epochs, newest first, within the budget. -/
def toFetch (stored : List ℤ) : List ℤ :=
  ((input.window.filter fun epoch => !stored.contains epoch).reverse).take
    (input.maxFetchPerRun.getD 12)

/-- The current epoch or the one before. -/
def recent (epoch : ℤ) : Bool := decide (input.currentEpoch - 1 ≤ epoch)

end PowerSyncInput

/-- A run, by what it does next. Of the recent epochs it is noted whether their rows were new. -/
inductive PowerSyncProc
  | started (input : PowerSyncInput) (drepsAtStart : List String)
  | fetching (input : PowerSyncInput) (drepsAtStart : List String) (toFetch fetched : List ℤ)
      (added : Bool)
  | pruning (input : PowerSyncInput) (drepsAtStart : List String) (fetched : List ℤ) (added : Bool)
  | projecting (input : PowerSyncInput) (drepsAtStart : List String) (fetched : List ℤ)
      (added : Bool)
  | observing (input : PowerSyncInput) (drepsAtStart : List String)
  | stamping (input : PowerSyncInput) (drepsAtStart : List String) (pairs : List (String × ℤ))
  | finished (input : PowerSyncInput) (drepsAtStart : List String)
  | failed (input : PowerSyncInput)
  deriving DecidableEq

/-- The tables; the latest current epoch of a run; and whether rows of a recent epoch were stored
that no run has projected since. -/
structure PowerWorld where
  db : PowerDb
  latest : Option ℤ
  due : Bool

/-- What becomes of the next statement; where an epoch is fetched, what Koios answers. -/
inductive PowerOutcome
  | succeeds (answer : PowerAnswer)
  | fails

namespace PowerSyncProc

def input : PowerSyncProc → PowerSyncInput
  | .started input _ | .fetching input _ _ _ _ | .pruning input _ _ _ | .projecting input _ _ _
  | .observing input _ | .stamping input _ _ | .finished input _ | .failed input => input

/-- After the epochs are fetched: the floor is pruned to where it is absolute. -/
def afterFetch (input : PowerSyncInput) (dreps : List String) (fetched : List ℤ) (added : Bool) :
    PowerSyncProc :=
  if input.absoluteFloor.isSome then .pruning input dreps fetched added
  else .projecting input dreps fetched added

/-- After the pruning: without a recent epoch nothing is projected; without observed counts nothing
is stamped. -/
def afterProjection (input : PowerSyncInput) (dreps : List String) : PowerSyncProc :=
  if input.observed = [] then .finished input dreps else .observing input dreps

end PowerSyncProc

section

variable (snapshots : ℤ → PowerSnapshot)

/-- An epoch whose rows have been fetched is stored. -/
def PowerWorld.store (w : PowerWorld) (input : PowerSyncInput) (epoch : ℤ)
    (rows : List VotingPowerHistoryRow) : PowerWorld × Bool :=
  let added := input.recent epoch && rows.any fun r =>
    !(w.db.history.rows.map PowerHistoryRow.key).contains (r.drepId, r.epoch)
  ({ w with db := w.db.insertVotingPowerHistory rows, due := w.due || added }, added)

/-- The next statement of a run succeeds. A run that has nothing to project or to stamp goes on
without a statement. -/
def PowerSyncProc.next (answer : PowerAnswer) (w : PowerWorld) :
    PowerSyncProc → PowerWorld × PowerSyncProc
  | .started input dreps =>
    ({ w with latest := some (w.latest.elim input.currentEpoch (max input.currentEpoch)) },
      .fetching input dreps (input.toFetch w.db.getStoredEpochs) [] false)
  | .fetching input dreps [] fetched added => (w, afterFetch input dreps fetched added)
  | .fetching input dreps (epoch :: rest) fetched added =>
    match fetchAnswer (snapshots epoch) epoch answer with
    | none => (w, .failed input)
    | some rows =>
      let stored := w.store input epoch rows
      (stored.1, .fetching input dreps rest (fetched ++ [epoch]) (added || stored.2))
  | .pruning input dreps fetched added =>
    ({ w with db := input.absoluteFloor.elim w.db w.db.pruneVotingPowerHistoryBefore },
      .projecting input dreps fetched added)
  | .projecting input dreps fetched _ =>
    if fetched.any input.recent then
      ({ w with db := w.db.denormalizeDrepVotingPower input.currentEpoch, due := false },
        afterProjection input dreps)
    else (w, afterProjection input dreps)
  | .observing input dreps =>
    let pairs := w.db.openCounts input.currentEpoch input.observed
    (w, if pairs = [] then .finished input dreps else .stamping input dreps pairs)
  | .stamping input dreps pairs =>
    ({ w with db := w.db.stampCounts input.currentEpoch pairs }, .finished input dreps)
  | .finished input dreps => (w, .finished input dreps)
  | .failed input => (w, .failed input)

def powerSyncStep (how : PowerOutcome) (w : PowerWorld) (l : PowerSyncProc) :
    PowerWorld × PowerSyncProc :=
  match how with
  | .succeeds answer => l.next snapshots answer w
  | .fails => (w, .failed l.input)

end

end DrepTalk
