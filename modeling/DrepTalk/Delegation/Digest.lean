import DrepTalk.Delegation.Refresh
import DrepTalk.Governance.Epochs
import DrepTalk.Text.JsText
import DrepTalk.Votes.VoteTables
import Mathlib.Data.List.Dedup

/-!
# The delegation digest

`src/lib/db/delegationDigest.ts`: once per epoch, every follower of a DRep that has voted is sent a
summary of its votes.

A pass goes through **stages that share nothing but tables**. The *build* reads the followed DReps
and their votes of the epoch, and stores a summary of each with a row that marks the epoch, in one
batch (`digestBatch`); the batch prunes what is older than the last two epochs. The *send* writes
the digests of so many followers that have none yet (`sendDigests`), and the *done check* marks the
epoch once nobody is left (`anyPending`).

Each query is counted against the allowance of the pass (`DigestPass.covers`).
-/

namespace DrepTalk

/-! ### The tables -/

structure DelegationDigestPayload where
  epoch : ℤ
  drepId : String
  votes : ℕ
  withRationale : ℕ
  titles : List Text
  openUnvoted : Option ℕ

/-- A row of `delegation_digest_dreps`. -/
structure DigestDrepRow where
  epoch : ℤ
  drepId : String
  payload : DelegationDigestPayload
  reportable : Bool

/-- A row of `delegation_digest_epochs`. -/
structure DigestEpochRow where
  epoch : ℤ
  builtAt : ℤ
  doneAt : Option ℤ

/-- A `delegation_digest` notification. -/
structure DigestNotice where
  id : String
  recipientId : String
  eventKey : String
  payload : DelegationDigestPayload
  createdAt : ℤ

abbrev DigestNoticeTable :=
  DoublyKeyedTable (fun n : DigestNotice => n.id) fun n => (n.recipientId, n.eventKey)

/-- A phase of a sync run, as `sync_runs.phases` records it. -/
structure PhaseRecord where
  phase : String
  ok : Bool
  failed : ℕ

/-- A row of `sync_runs`, by the columns that are read. -/
structure SyncRunRow where
  kind : String
  startedAt : ℤ
  finishedAt : Option ℤ
  phases : List PhaseRecord

/-- A row of `users`, by the columns that are read. -/
structure DigestUserRow where
  id : String
  status : String

/-- A row of `governance_actions`, by the columns that are read. -/
structure TitledAction where
  id : String
  title : Option String

/-- The tables a pass reads, and those it writes. -/
structure DigestDb where
  syncRuns : List SyncRunRow
  follows : FollowTable
  users : KeyedTable DigestUserRow.id
  votes : VoteTable
  history : HistoryTable
  actions : KeyedTable TitledAction.id
  summaries : KeyedTable fun s : DigestDrepRow => (s.epoch, s.drepId)
  epochs : KeyedTable DigestEpochRow.epoch
  notices : DigestNoticeTable

/-! ### Building -/

def DREP_CHUNK : ℕ := 45
def SUMMARY_INSERT_CHUNK : ℕ := 24
def DIGEST_TITLE_MAX : ℕ := 3
def DIGEST_TITLE_CHARS : ℕ := 80

/-- A clean run of the votes phase has started inside the current epoch. -/
def digestReady (db : DigestDb) (cfg : EpochAnchor) (currentEpoch : ℤ) : Bool :=
  db.syncRuns.any fun r =>
    r.kind == "votes" && r.finishedAt.isSome &&
      decide (cfg.epochStartMs currentEpoch ≤ r.startedAt) &&
        r.phases.any fun p => p.phase == "votes" && p.ok && p.failed == 0

/-- A follow that is resolved to a DRep. -/
def FollowRow.toDrep (f : FollowRow) : Option String :=
  if f.resolutionStatus = .resolved ∧ f.delegationType = some .drep then f.drepId else none

def getFollowedDrepIds (db : DigestDb) : List String := (db.follows.rows.filterMap (·.toDrep)).dedup

/-- `Math.ceil(count / size)`. -/
def ceilDiv (count size : ℕ) : ℕ := (count + size - 1) / size

/-- The statements of the batch of a build. -/
def batchCost (followedCount : ℕ) : ℕ := 2 + ceilDiv followedCount SUMMARY_INSERT_CHUNK + 1

def buildCost (followedCount : ℕ) : ℕ := ceilDiv followedCount DREP_CHUNK + batchCost followedCount

/-- A vote that has been read for a digest. -/
structure DigestVote where
  voterId : String
  gaId : String
  blockTime : ℤ
  metaUrl : Option String
  title : Option String

/-- `ORDER BY x.block_time DESC, x.ga_id`. -/
def newestFirst (a b : DigestVote) : Prop :=
  b.blockTime < a.blockTime ∨ a.blockTime = b.blockTime ∧ a.gaId ≤ b.gaId

instance : DecidableRel newestFirst := fun _ _ => inferInstanceAs (Decidable (_ ∨ _))

def titleOf (db : DigestDb) (gaId : String) : Option String :=
  (db.actions.rows.find? (·.id == gaId)).bind (·.title)

/-- The query for a chunk of DReps: their votes inside the epoch, current and superseded. -/
def votesInEpoch (db : DigestDb) (part : List String) (start stop : ℤ) : List DigestVote :=
  let current := db.votes.rows.filterMap fun v =>
    v.blockTime.bind fun blockTime =>
      if v.voterRole = "DRep" ∧ v.voterId ∈ part ∧ start ≤ blockTime ∧ blockTime < stop ∧
          v.localStatus = none then
        some ⟨v.voterId, v.gaId, blockTime, v.metaUrl, titleOf db v.gaId⟩
      else none
  let superseded := db.history.rows.filterMap fun v =>
    if v.voterRole = "DRep" ∧ v.voterId ∈ part ∧ start ≤ v.blockTime ∧ v.blockTime < stop then
      some ⟨v.voterId, v.gaId, v.blockTime, v.metaUrl, titleOf db v.gaId⟩
    else none
  (current ++ superseded).insertionSort newestFirst

/-- The newest version of each vote; the argument holds what has been seen. -/
def newestVersions (seen : List (String × String)) : List DigestVote → List DigestVote
  | [] => []
  | v :: rest =>
    if (v.voterId, v.gaId) ∈ seen then newestVersions seen rest
    else v :: newestVersions ((v.voterId, v.gaId) :: seen) rest

/-- `clip`. -/
def clipTitle (t : Text) : Text :=
  if t.length ≤ DIGEST_TITLE_CHARS then t
  else ((t.take (DIGEST_TITLE_CHARS - 1)).rdropWhile JsText.isSpace) ++ ['…']

/-- What a digest says of the votes of a DRep. -/
def digestPayload (epoch : ℤ) (drepId : String) (votes : List DigestVote) :
    DelegationDigestPayload where
  epoch := epoch
  drepId := drepId
  votes := votes.length
  withRationale := votes.countP fun v => v.metaUrl.any (· != "")
  titles := (((votes.map fun v => ((v.title.map fun t => JsText.trim t.toList).getD [])).filter
    (· ≠ [])).take DIGEST_TITLE_MAX).map clipTitle
  openUnvoted := none

def isReportable (p : DelegationDigestPayload) : Bool := decide (0 < p.votes)

/-- The summary row of a DRep, from the chunks that were read. -/
def summaryRow (epoch : ℤ) (voteChunks : List (List DigestVote)) (drepId : String) :
    DigestDrepRow :=
  let payload := digestPayload epoch drepId
    ((voteChunks.flatMap (newestVersions [])).filter (·.voterId == drepId))
  ⟨epoch, drepId, payload, isReportable payload⟩

def summaryRows (epoch : ℤ) (voteChunks : List (List DigestVote)) (followed : List String) :
    List DigestDrepRow :=
  followed.map (summaryRow epoch voteChunks)

/-- `reportable`: how many of the rows are. -/
def reportableCount (rows : List DigestDrepRow) : ℕ := rows.countP (·.reportable)

/-- The batch of a build: older epochs are pruned, the rows and the marker of this one go in where
they are not there yet. -/
def digestBatch (db : DigestDb) (epoch : ℤ) (rows : List DigestDrepRow) (dbNow : ℤ) : DigestDb :=
  { db with
    summaries := rows.foldl KeyedTable.insertOrIgnore
      (db.summaries.deleteWhere fun s => decide (s.epoch < epoch - 1))
    epochs := (db.epochs.deleteWhere fun m => decide (m.epoch < epoch - 1)).insertOrIgnore
      ⟨epoch, dbNow, if reportableCount rows = 0 then some dbNow else none⟩ }

/-! ### Sending -/

/-- `'delegation_digest:' || user_id || ':' || epoch`. -/
def digestKey (userId : String) (epoch : ℤ) : String := s!"delegation_digest:{userId}:{epoch}"

/-- The recipient has the digest of the epoch. -/
def hasDigest (db : DigestDb) (userId : String) (epoch : ℤ) : Bool :=
  db.notices.rows.any fun n => n.recipientId == userId && n.eventKey == digestKey userId epoch

def isActive (db : DigestDb) (userId : String) : Bool :=
  db.users.rows.any fun u => u.id == userId && u.status == "active"

/-- `PENDING_RECIPIENTS`: active followers of reportable DReps without a digest. -/
def pendingRecipients (db : DigestDb) (epoch : ℤ) : List (DigestDrepRow × FollowRow) :=
  (db.summaries.rows.filter fun s => s.epoch == epoch && s.reportable).flatMap fun s =>
    (db.follows.rows.filter fun f =>
      f.toDrep == some s.drepId && isActive db f.userId && !hasDigest db f.userId epoch).map
        fun f => (s, f)

/-- `ORDER BY f.drep_id, f.user_id`. -/
def recipientOrder (a b : DigestDrepRow × FollowRow) : Prop :=
  a.1.drepId < b.1.drepId ∨ a.1.drepId = b.1.drepId ∧ a.2.userId ≤ b.2.userId

instance : DecidableRel recipientOrder := fun _ _ => inferInstanceAs (Decidable (_ ∨ _))

def digestNotice (epoch dbNow : ℤ) (id : String) (r : DigestDrepRow × FollowRow) : DigestNotice :=
  ⟨id, r.2.userId, digestKey r.2.userId epoch, r.1.payload, dbNow⟩

/-- `ON CONFLICT(recipient_id, event_key) DO NOTHING`, with the rows inserted so far; a taken id
fails. -/
def insertDigest (t : DigestNoticeTable × ℕ) (n : DigestNotice) :
    Option (DigestNoticeTable × ℕ) :=
  if t.1.rows.any fun m => m.recipientId == n.recipientId && m.eventKey == n.eventKey then some t
  else if n.id ∈ t.1.rows.map (·.id) then none
  else some ((t.1.insertOrIgnore n).1, t.2 + 1)

/-- `sendDigests`, with the ids that are drawn; it returns the number of rows inserted. -/
def sendDigests (db : DigestDb) (epoch : ℤ) (limit : ℕ) (dbNow : ℤ) (draw : ℕ → String) :
    Option (DigestNoticeTable × ℕ) :=
  (((pendingRecipients db epoch).insertionSort recipientOrder).take limit).mapIdx
    (fun i r => digestNotice epoch dbNow (draw i) r) |>.foldlM insertDigest (db.notices, 0)

def anyPending (db : DigestDb) (epoch : ℤ) : Bool := !(pendingRecipients db epoch).isEmpty

def markDone (db : DigestDb) (epoch dbNow : ℤ) : DigestDb :=
  { db with
    epochs := db.epochs.updateWhere (fun m => m.epoch == epoch && m.doneAt.isNone)
      (fun m => { m with doneAt := some dbNow }) fun _ _ => rfl }

/-! ### A pass -/

inductive DigestRunState
  | waiting
  | sending
  | done
  | deferred

/-- What a pass has been given, and the queries it has issued. -/
structure DigestPass where
  current : ℤ
  recipients : ℕ
  limit : ℕ
  spent : ℕ

namespace DigestPass

def epoch (p : DigestPass) : ℤ := p.current - 1

/-- At least that many more queries fit. -/
def covers (p : DigestPass) (cost : ℕ) : Bool := decide (p.spent + cost ≤ p.limit)

def spend (p : DigestPass) (queries : ℕ) : DigestPass := { p with spent := p.spent + queries }

end DigestPass

/-- A pass, by the query it comes to next; or what became of it. -/
inductive DigestProc
  | start (p : DigestPass)
  | ready (p : DigestPass)
  | listing (p : DigestPass)
  | building (p : DigestPass) (followed : List String) (todo : List (List String))
      (voteChunks : List (List DigestVote))
  | sending (p : DigestPass)
  | checking (p : DigestPass) (inserted : ℕ)
  | marking (p : DigestPass) (inserted : ℕ)
  | ended (p : DigestPass) (state : DigestRunState) (inserted : ℕ)
  | died (p : DigestPass)

/-- Whether the pass goes on, the clock of the database, and the ids it draws. -/
structure DigestInput where
  dies : Bool
  dbNow : ℤ
  draw : ℕ → String

/-- The first query: the marker of the epoch. -/
def readMarker (db : DigestDb) (p : DigestPass) : DigestProc :=
  match db.epochs.rows.find? (·.epoch == p.epoch) with
  | none => .ready (p.spend 1)
  | some marker =>
    if marker.doneAt.isSome then .ended (p.spend 1) .done 0 else .sending (p.spend 1)

/-- The list of the followed DReps, and whether their build fits. -/
def readFollowed (db : DigestDb) (p : DigestPass) : DigestProc :=
  let followed := getFollowedDrepIds db
  if (p.spend 1).covers (buildCost followed.length) then
    .building (p.spend 1) followed (chunksOf DREP_CHUNK followed) []
  else .ended (p.spend 1) .deferred 0

/-- The next query of a pass. A pass that dies before it has at most issued the query. -/
def digestStep (cfg : EpochAnchor) (input : DigestInput) (db : DigestDb) :
    DigestProc → Option (DigestDb × DigestProc)
  | .start p =>
    if !p.covers 1 then some (db, .ended p .deferred 0)
    else if input.dies then some (db, .died (p.spend 1))
    else some (db, readMarker db p)
  | .ready p =>
    if !p.covers 2 then some (db, .ended p .deferred 0)
    else if input.dies then some (db, .died (p.spend 1))
    else if !digestReady db cfg p.current then some (db, .ended (p.spend 1) .waiting 0)
    else some (db, .listing (p.spend 1))
  | .listing p =>
    if input.dies then some (db, .died (p.spend 1)) else some (db, readFollowed db p)
  | .building p followed (part :: todo) voteChunks =>
    if input.dies then some (db, .died (p.spend 1))
    else
      let votes := votesInEpoch db part (cfg.epochStartUnix p.epoch)
        (cfg.epochStartUnix (p.epoch + 1))
      some (db, .building (p.spend 1) followed todo (voteChunks ++ [votes]))
  | .building p followed [] voteChunks =>
    let rows := summaryRows p.epoch voteChunks followed
    let p' := p.spend (batchCost followed.length)
    if input.dies then some (db, .died p')
    else
      some (digestBatch db p.epoch rows input.dbNow,
        if reportableCount rows = 0 then .ended p' .done 0 else .sending p')
  | .sending p =>
    if !p.covers 3 then some (db, .ended p .deferred 0)
    else if input.dies then some (db, .died (p.spend 1))
    else
      match sendDigests db p.epoch p.recipients input.dbNow input.draw with
      | none => some (db, .died (p.spend 1))
      | some (notices, inserted) =>
        some ({ db with notices := notices },
          if p.recipients ≤ inserted then .ended (p.spend 1) .sending inserted
          else .checking (p.spend 1) inserted)
  | .checking p inserted =>
    if input.dies then some (db, .died (p.spend 1))
    else if anyPending db p.epoch then some (db, .ended (p.spend 1) .sending inserted)
    else some (db, .marking (p.spend 1) inserted)
  | .marking p inserted =>
    if input.dies then some (db, .died (p.spend 1))
    else some (markDone db p.epoch input.dbNow, .ended (p.spend 1) .done inserted)
  | .ended _ _ _ | .died _ => none

end DrepTalk
