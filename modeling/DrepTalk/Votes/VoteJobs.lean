import DrepTalk.Votes.VoteProcs
import DrepTalk.Text.EventKeys

/-!
# What an on-chain vote sets off

`upsertVotes` of `src/lib/db/drepVotes.ts` once more, with the fan-out jobs and the notices that it
commits beside the votes. Whether an incoming vote is new is told from the row that was stored when
the call read it: where there is none, or one that was cast through the site, the vote counts as
**voted**; over a row of the chain it is **re-voted** if it is newer and another choice. A vote that
confirms one cast through the site and has an anchor makes a notice for each account of its DRep.

The random ids of notices are left out. A job or a notice whose key is taken is skipped.
-/

namespace DrepTalk

/-! ### Jobs -/

inductive VoteJobKind
  | voted
  | re_voted
  deriving DecidableEq

/-- `FanoutEventType`. -/
def VoteJobKind.eventType : VoteJobKind → String
  | .voted => "delegator_drep_voted"
  | .re_voted => "delegator_drep_re_voted"

/-- The word an event key begins with. -/
def VoteJobKind.keyStart : VoteJobKind → String
  | .voted => "drep-vote"
  | .re_voted => "drep-revote"

structure VoteJobPayload where
  sourceTime : ℤ
  gaId : String
  title : Option String
  vote : String
  sourceTimeApprox : Bool
  deriving DecidableEq

/-- A row of `notification_fanout_jobs`, by the columns that draining never touches. -/
structure VoteJob where
  eventKey : String
  eventType : String
  subjectId : String
  sourceTime : ℤ
  payload : VoteJobPayload
  createdAt : ℤ
  deriving DecidableEq

abbrev VoteJobTable := KeyedTable fun job : VoteJob => job.eventKey

def voteEventKey (start voterId gaId : String) (sourceTime : ℤ) : String :=
  s!"{start}:{voterId}:{gaId}:{sourceTime}"

/-- `existing.get`. -/
def existingOf (existing : List VoteRow) (voterId : String) : Option VoteRow :=
  existing.find? fun row => row.voterId == voterId

/-- The kind of job that a vote calls for over a stored row. -/
def jobKind (v : VoteInput) (old : Option VoteRow) : Option VoteJobKind :=
  match old with
  | none => some .voted
  | some old =>
    if old.localStatus.isSome then some .voted
    else
      match v.blockTime, old.blockTime with
      | some shown, some stored =>
        if old.vote ≠ v.vote ∧ stored < shown then some .re_voted else none
      | _, _ => none

def observedAtSec (now : ℤ) : ℤ := now.fdiv 1000

def voteJob (gaId : String) (now : ℤ) (title : Option String) (v : VoteInput) (kind : VoteJobKind) :
    VoteJob :=
  let sourceTime := v.blockTime.getD (observedAtSec now)
  { eventKey := voteEventKey kind.keyStart v.voterId gaId sourceTime
    eventType := kind.eventType
    subjectId := v.voterId
    sourceTime := sourceTime
    payload := ⟨sourceTime, gaId, title, v.vote, v.blockTime.isNone⟩
    createdAt := observedAtSec now }

def classifyVoteJobs (gaId : String) (incoming : List VoteInput) (existing : List VoteRow)
    (followed : List String) (now : ℤ) (title : Option String) : List VoteJob :=
  incoming.filterMap fun v =>
    if v.voterRole ≠ "DRep" ∨ v.voterId ∉ followed then none
    else (jobKind v (existingOf existing v.voterId)).map (voteJob gaId now title v)

/-! ### Notices -/

structure RationaleNoticePayload where
  sourceTime : ℤ
  gaId : String
  drepId : String
  title : Option String
  vote : String
  deriving DecidableEq

/-- A row of `notifications` of type `rationale_ready`. -/
structure RationaleNotice where
  recipientId : String
  eventKey : String
  payload : RationaleNoticePayload
  createdAt : ℤ
  deriving DecidableEq

abbrev RationaleNoticeTable :=
  KeyedTable fun notice : RationaleNotice => (notice.recipientId, notice.eventKey)

/-- A row of `users`, by the columns that are read. -/
structure OwnerRow where
  id : String
  drepId : Option String
  isDrep : Bool
  active : Bool

/-- `confirmsSelfCastRationale`, over the row that is stored. -/
def confirmsSelfCastRationale (v : VoteInput) (old : Option VoteRow) : Bool :=
  v.voterRole == "DRep" && v.metaUrl.isSome && old.any fun old => old.localStatus.isSome

/-- A statement of `lookupRationaleReadyRecipients`: the accounts, each with its DRep. -/
def readRecipients (users : List OwnerRow) (ids : List String) : List (String × String) :=
  (users.filter fun u => u.isDrep && u.active).filterMap fun u =>
    (u.drepId.filter ids.contains).map fun drepId => (drepId, u.id)

/-- The word the event key of a notice begins with. -/
def RATIONALE_READY : String := "rationale_ready"

def rationaleNotice (gaId : String) (now dbNow : ℤ) (title : Option String) (v : VoteInput)
    (userId : String) : RationaleNotice :=
  let sourceTime := v.blockTime.getD (observedAtSec now)
  { recipientId := userId
    eventKey := voteEventKey RATIONALE_READY v.voterId gaId sourceTime
    payload := ⟨sourceTime, gaId, v.voterId, title, v.vote⟩
    createdAt := dbNow }

def buildRationaleReadyStatements (gaId : String) (chunk : List VoteInput)
    (existing : List VoteRow) (recipients : List (String × String)) (now dbNow : ℤ)
    (title : Option String) : List RationaleNotice :=
  chunk.flatMap fun v =>
    if confirmsSelfCastRationale v (existingOf existing v.voterId) then
      (recipients.filter fun r => r.1 == v.voterId).map fun r =>
        rationaleNotice gaId now dbNow title v r.2
    else []

/-! ### Calls -/

/-- The tables, and the clock of the database. -/
structure VoteJobDb where
  voteDb : VoteDb
  jobs : VoteJobTable
  notices : RationaleNoticeTable
  users : List OwnerRow
  titles : String → Option String
  dbNow : ℤ

/-- The arguments of `upsertVotes`, with the options of the live sync. -/
structure UpsertVotesArgs where
  gaId : String
  votes : List VoteInput
  now : ℤ
  followed : List String

/-- The votes that confirm one cast through the site. -/
def UpsertVotesArgs.candidates (args : UpsertVotesArgs) (existing : List VoteRow) :
    List VoteInput :=
  args.votes.filter fun v => confirmsSelfCastRationale v (existingOf existing v.voterId)

/-- A call of `upsertVotes`: the stored rows, the bodies to archive, the accounts chunk by chunk,
the title, and a batch for each chunk of votes. -/
inductive VoteJobProc
  | load (args : UpsertVotesArgs)
  | bodies (args : UpsertVotesArgs) (existing : List VoteRow)
  | recipients (args : UpsertVotesArgs) (existing : List VoteRow)
    (bodies : List (String × Option String)) (found : List (String × String))
    (left : List (List String))
  | batch (args : UpsertVotesArgs) (existing : List VoteRow)
    (bodies : List (String × Option String)) (recipients : List (String × String))
    (title : Option String) (chunks : List (List VoteInput))

def commitChunk (db : VoteJobDb) (args : UpsertVotesArgs) (existing : List VoteRow)
    (bodies : List (String × Option String)) (recipients : List (String × String))
    (title : Option String) (chunk : List VoteInput) : VoteJobDb :=
  { db with
    voteDb := upsertChunk args.gaId existing bodies args.now db.voteDb chunk
    jobs := (if args.followed = [] then []
      else classifyVoteJobs args.gaId chunk existing args.followed args.now title).foldl
        KeyedTable.insertOrIgnore db.jobs
    notices := (buildRationaleReadyStatements args.gaId chunk existing recipients args.now
      db.dbNow title).foldl KeyedTable.insertOrIgnore db.notices }

def voteJobStep (db : VoteJobDb) : VoteJobProc → Option (VoteJobDb × VoteJobProc)
  | .load args => some (db, .bodies args (loadExistingVotes db.voteDb args.gaId))
  | .bodies args existing =>
    some (db, .recipients args existing (readArchiveBodies db.voteDb args.gaId args.votes existing)
      [] (slices D1_MAX_BINDS ((args.candidates existing).map (·.voterId)).dedup))
  | .recipients args existing bodies found (ids :: left) =>
    some (db, .recipients args existing bodies (found ++ readRecipients db.users ids) left)
  | .recipients args existing bodies found [] =>
    let title := if args.followed ≠ [] ∨ args.candidates existing ≠ [] then db.titles args.gaId
      else none
    some (db, .batch args existing bodies found title (slices UPSERT_CHUNK args.votes))
  | .batch args existing bodies recipients title (chunk :: chunks) =>
    some (commitChunk db args existing bodies recipients title chunk,
      .batch args existing bodies recipients title chunks)
  | .batch _ _ _ _ _ [] => none

end DrepTalk
