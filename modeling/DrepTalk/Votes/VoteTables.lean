import DrepTalk.Library.Table
import DrepTalk.Library.KeysetPage
import Mathlib.Algebra.Order.Ring.Int

/-!
# Votes on governance actions

`src/lib/db/drepVotes.ts` (`upsertVotes`, `recordLocalVote`), `src/lib/db/voteHistory.ts` and
`src/lib/db/actionRationale.ts`: one row for each voter and action holds the vote the chain shows,
or the one a voter has just cast through the site and the chain has not shown yet. A snapshot of
the chain overwrites the rows it names, and archives the votes it supersedes.

The notifications and fan-out jobs that go with a snapshot are left out: they read these tables
and write others. The multi-row statements of a batch are taken row by row.
-/

namespace DrepTalk

/-- `local_status` of a vote cast through the site; null once the chain has shown it. -/
inductive LocalStatus
  | pending
  | failed
  deriving DecidableEq

/-- A row of `drep_votes`. -/
structure VoteRow where
  gaId : String
  voterRole : String
  voterId : String
  voterHex : Option String
  vote : String
  metaUrl : Option String
  metaHash : Option String
  blockTime : Option ℤ
  syncedAt : ℤ
  votedPower : Option ℤ
  localStatus : Option LocalStatus
  txHash : Option String
  deriving DecidableEq

/-- A row of `drep_vote_history`. -/
structure HistoryRow where
  gaId : String
  voterId : String
  voterRole : String
  vote : String
  metaUrl : Option String
  metaHash : Option String
  blockTime : ℤ
  bodyHtml : Option String
  supersededAt : ℤ

/-- `source` of a rationale. -/
inductive RationaleSource
  | onchain
  | dreptalk
  deriving DecidableEq

/-- A row of `action_rationale`, by the columns that are read. -/
structure RationaleRow where
  gaId : String
  voterId : String
  bodyHtml : Option String
  source : RationaleSource
  deriving DecidableEq

/-- A row of `governance_actions`, by the columns that are read. -/
structure GovernanceActionRow where
  id : String
  topicId : Option String
  status : String

abbrev VoteTable := KeyedTable fun row : VoteRow => (row.gaId, row.voterId)

abbrev HistoryTable := KeyedTable fun row : HistoryRow => (row.gaId, row.voterId, row.blockTime)

abbrev RationaleTable := KeyedTable fun row : RationaleRow => (row.gaId, row.voterId)

/-- The tables a vote is written to, and the actions. -/
structure VoteDb where
  votes : VoteTable
  history : HistoryTable
  rationales : RationaleTable
  actions : List GovernanceActionRow

/-- `VoteInput`: a vote as the chain shows it. -/
structure VoteInput where
  voterRole : String
  voterId : String
  voterHex : Option String
  vote : String
  metaUrl : Option String
  metaHash : Option String
  blockTime : Option ℤ
  votedPower : Option ℤ
  deriving DecidableEq

/-! ### Superseded votes -/

/-- `SupersededChange`: a stored vote about to be replaced. -/
structure SupersededChange where
  old : VoteRow
  anchorChanged : Bool

/-- Whether an anchor has moved; no anchor and an empty one are the same. -/
def anchorMoved (old new : Option String) : Bool := old.getD "" != new.getD ""

def loadExistingVotes (db : VoteDb) (gaId : String) : List VoteRow :=
  db.votes.rows.filter fun row => row.gaId == gaId

/-- The stored row an incoming vote supersedes, if it does. -/
def supersededChange (existing : List VoteRow) (v : VoteInput) : Option SupersededChange :=
  match existing.find? fun row => row.voterId == v.voterId with
  | none => none
  | some old =>
    if old.localStatus.isSome then none
    else
      match old.blockTime, v.blockTime with
      | some stored, some shown =>
        if shown ≤ stored then none
        else
          let anchorChanged := anchorMoved old.metaUrl v.metaUrl
          if old.vote = v.vote ∧ anchorChanged = false then none
          else some ⟨old, anchorChanged⟩
      | _, _ => none

def computeSupersededChanges (incoming : List VoteInput) (existing : List VoteRow) :
    List SupersededChange :=
  incoming.filterMap (supersededChange existing)

/-- `readChangedRationaleBodies`: the bodies stored for some voters, by voter. -/
def readChangedRationaleBodies (db : VoteDb) (gaId : String) (changedIds : List String) :
    List (String × Option String) :=
  (db.rationales.rows.filter fun row =>
    row.gaId == gaId && changedIds.contains row.voterId).map fun row => (row.voterId, row.bodyHtml)

def bodyOf (bodies : List (String × Option String)) (voterId : String) : Option String :=
  (bodies.find? fun body => body.1 == voterId).bind (·.2)

/-- The history row of a superseded vote. -/
def archiveRow (gaId : String) (bodies : List (String × Option String)) (now : ℤ)
    (change : SupersededChange) : HistoryRow where
  gaId
  voterId := change.old.voterId
  voterRole := change.old.voterRole
  vote := change.old.vote
  metaUrl := change.old.metaUrl
  metaHash := change.old.metaHash
  blockTime := change.old.blockTime.getD 0
  bodyHtml := bodyOf bodies change.old.voterId
  supersededAt := now

/-- The voters whose stored rationale belongs to an anchor that is gone. -/
def staleRationaleIds (bodies : List (String × Option String)) (changed : List SupersededChange) :
    List String :=
  (changed.filter fun c =>
    c.anchorChanged && bodies.any fun body => body.1 == c.old.voterId).map (·.old.voterId)

/-! ### Writing votes -/

/-- The row a vote on the chain becomes, over the one that is stored. -/
def onChainRow (gaId : String) (now : ℤ) (v : VoteInput) (stored : Option VoteRow) : VoteRow where
  gaId
  voterRole := v.voterRole
  voterId := v.voterId
  voterHex := v.voterHex
  vote := v.vote
  metaUrl := v.metaUrl
  metaHash := v.metaHash
  blockTime := v.blockTime
  syncedAt := now
  votedPower := v.votedPower.or (stored.bind (·.votedPower))
  localStatus := none
  txHash := none

theorem onChainRow_key (gaId : String) (now : ℤ) (v : VoteInput) (row : VoteRow)
    (h : (row.gaId, row.voterId) = (gaId, v.voterId)) :
    ((onChainRow gaId now v (some row)).gaId, (onChainRow gaId now v (some row)).voterId) =
      (row.gaId, row.voterId) := h.symm

/-- A statement of `buildVoteUpsertStatements`. -/
def upsertVote (gaId : String) (now : ℤ) (votes : VoteTable) (v : VoteInput) : VoteTable :=
  votes.upsert (onChainRow gaId now v none) (fun row => onChainRow gaId now v (some row))
    (onChainRow_key gaId now v)

/-- The batch of a chunk of `upsertVotes`: the archive, and the votes. -/
def upsertChunk (gaId : String) (existing : List VoteRow) (bodies : List (String × Option String))
    (now : ℤ) (db : VoteDb) (chunk : List VoteInput) : VoteDb :=
  let changed := computeSupersededChanges chunk existing
  let stale := staleRationaleIds bodies changed
  { db with
    history := (changed.map (archiveRow gaId bodies now)).foldl KeyedTable.insertOrIgnore db.history
    rationales := db.rationales.deleteWhere fun row =>
      row.gaId == gaId && stale.contains row.voterId
    votes := chunk.foldl (upsertVote gaId now) db.votes }

def UPSERT_CHUNK : ℕ := 10

def D1_MAX_BINDS : ℕ := 100

/-- The slices of a list, so many at a time. -/
def slices {α : Type*} (size : ℕ) (l : List α) : List (List α) :=
  (List.range ((l.length + size - 1) / size)).map fun k => (l.drop (size * k)).take size

theorem slices_flatten {α : Type*} {size : ℕ} (hsize : 0 < size) (l : List α) :
    (slices size l).flatten = l := by
  simp only [slices, Nat.mul_comm size]
  rw [flatten_slices]
  refine List.take_of_length_le ?_
  rw [Nat.mul_comm]
  have hdiv := Nat.div_add_mod (l.length + size - 1) size
  have hmod := Nat.mod_lt (l.length + size - 1) hsize
  omega

/-- The bodies `upsertVotes` reads up front. -/
def readArchiveBodies (db : VoteDb) (gaId : String) (votes : List VoteInput)
    (existing : List VoteRow) : List (String × Option String) :=
  readChangedRationaleBodies db gaId
    ((computeSupersededChanges votes existing).map (·.old.voterId))

/-- `upsertVotes`, with nothing in between. -/
def upsertVotes (db : VoteDb) (gaId : String) (votes : List VoteInput) (now : ℤ) : VoteDb :=
  let existing := loadExistingVotes db gaId
  let bodies := readArchiveBodies db gaId votes existing
  (slices UPSERT_CHUNK votes).foldl (upsertChunk gaId existing bodies now) db

/-- The argument of `recordLocalVote`. -/
structure LocalVote where
  gaId : String
  drepId : String
  voterHex : Option String
  vote : String
  metaUrl : Option String
  txHash : String
  now : ℤ
  deriving DecidableEq

/-- The row a vote cast through the site becomes, over the one that is stored. -/
def localRow (r : LocalVote) (stored : Option VoteRow) : VoteRow where
  gaId := r.gaId
  voterRole := "DRep"
  voterId := r.drepId
  voterHex := r.voterHex
  vote := r.vote
  metaUrl := r.metaUrl
  metaHash := none
  blockTime := none
  syncedAt := r.now
  votedPower := stored.bind (·.votedPower)
  localStatus := some .pending
  txHash := some r.txHash

/-- What it makes of a stored row: one the chain has shown is overwritten only while its action is
active. -/
def overwriteLocally (r : LocalVote) (active : Bool) (row : VoteRow) : VoteRow :=
  if row.localStatus.isSome || active then localRow r (some row) else row

theorem overwriteLocally_key (r : LocalVote) (active : Bool) (row : VoteRow)
    (h : (row.gaId, row.voterId) = (r.gaId, r.drepId)) :
    ((overwriteLocally r active row).gaId, (overwriteLocally r active row).voterId) =
      (row.gaId, row.voterId) := by
  rw [overwriteLocally]
  split_ifs
  · exact h.symm
  · rfl

def recordLocalVote (db : VoteDb) (r : LocalVote) : VoteDb :=
  let active := db.actions.any fun action => action.id == r.gaId && action.status == "active"
  { db with
    votes := db.votes.upsert (localRow r none) (overwriteLocally r active)
      (overwriteLocally_key r active) }

/-- The flag `markStalePendingVotesFailed` sets. -/
def flagStaleVotes (db : VoteDb) (cutoffSeconds : ℤ) : VoteDb :=
  { db with
    votes := db.votes.updateWhere
      (fun row => row.localStatus == some .pending && decide (row.syncedAt < cutoffSeconds))
      (fun row => { row with localStatus := some .failed }) fun _ _ => rfl }

end DrepTalk
