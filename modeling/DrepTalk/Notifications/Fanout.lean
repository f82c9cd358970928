import DrepTalk.Library.Table
import DrepTalk.Library.KeysetPage
import Mathlib.Data.String.Basic

/-!
# Fanning an event out to its followers

`src/lib/notifications/fanout.ts` and `src/lib/db/fanoutJobs.ts`: a job per event, drained page
by page into one notification per follower. A page reads the followers behind the job's cursor,
and inserts their notifications and moves the cursor, or completes the job, in one batch.

Notifications keep their two unique indexes. Of the columns nobody here reads or writes (an
actor, a topic, when it was read) none is kept. User ids are credentials, so none is empty.
-/

namespace DrepTalk

def INSERT_CHUNK : ℕ := 14

/-- A row of `notification_fanout_jobs`. -/
structure FanoutJobRow where
  eventKey : String
  eventType : String
  subjectId : String
  sourceTime : ℤ
  payload : String
  cursorUserId : Option String
  createdAt : ℤ
  updatedAt : ℤ
  completedAt : Option ℤ
  deriving DecidableEq

inductive ResolutionStatus
  | pending
  | resolved
  deriving DecidableEq

inductive DelegationType
  | drep
  | abstain
  | noConfidence
  | none
  deriving DecidableEq

/-- A row of `delegator_follows`, by the columns the fan-out reads. -/
structure FollowRow where
  userId : String
  resolutionStatus : ResolutionStatus
  delegationType : Option DelegationType
  drepId : Option String
  delegationSetAt : Option ℤ

/-- A row of `notifications`. -/
structure NotificationRow where
  id : String
  recipientId : String
  type : String
  eventKey : Option String
  payload : Option String
  createdAt : ℤ
  deriving DecidableEq

/-- What the partial index on events indexes. -/
def recipientEvent (n : NotificationRow) : Option (String × String) :=
  n.eventKey.map fun eventKey => (n.recipientId, eventKey)

/-- The notifications with their primary key and the index on events. -/
structure NotificationTable where
  rows : List NotificationRow
  id_unique : (rows.map (·.id)).Nodup
  event_unique : (rows.filterMap recipientEvent).Nodup

/-- The followed DReps; a user id is a credential and never empty. -/
structure FollowTable where
  rows : List FollowRow
  user_unique : (rows.map (·.userId)).Nodup
  user_nonempty : ∀ r ∈ rows, r.userId ≠ ""

abbrev JobTable := KeyedTable fun job : FanoutJobRow => job.eventKey

structure FanoutDb where
  jobs : JobTable
  follows : FollowTable
  notifications : NotificationTable

/-! ### The outbox -/

structure FanoutJobInput where
  eventKey : String
  eventType : String
  subjectId : String
  sourceTime : ℤ
  payload : String
  createdAt : ℤ

def FanoutJobInput.row (job : FanoutJobInput) : FanoutJobRow where
  eventKey := job.eventKey
  eventType := job.eventType
  subjectId := job.subjectId
  sourceTime := job.sourceTime
  payload := job.payload
  cursorUserId := none
  createdAt := job.createdAt
  updatedAt := job.createdAt
  completedAt := none

def buildJobInsert (jobs : JobTable) (job : FanoutJobInput) : JobTable :=
  jobs.insertOrIgnore job.row

/-- The order of the listing: least recently advanced first, then by event. -/
def jobBefore (a b : FanoutJobRow) : Prop :=
  a.updatedAt < b.updatedAt ∨ a.updatedAt = b.updatedAt ∧ a.eventKey ≤ b.eventKey

instance : DecidableRel jobBefore := fun _ _ => inferInstanceAs (Decidable (_ ∨ _))

/-- The first open jobs in that order. -/
def listOpenJobs (jobs : JobTable) (limit : ℕ) : List FanoutJobRow :=
  ((jobs.rows.filter fun job => job.completedAt.isNone).insertionSort jobBefore).take limit

def buildAdvanceJobCursor (jobs : JobTable) (eventKey cursorUserId : String) (nowSec : ℤ) :
    JobTable :=
  jobs.updateWhere (fun job => job.eventKey == eventKey)
    (fun job => { job with cursorUserId := some cursorUserId, updatedAt := nowSec })
    fun _ _ => rfl

def buildCompleteJob (jobs : JobTable) (eventKey : String) (nowSec : ℤ) : JobTable :=
  jobs.updateWhere (fun job => job.eventKey == eventKey)
    (fun job => { job with completedAt := some nowSec, updatedAt := nowSec })
    fun _ _ => rfl

/-! ### One page -/

/-- The row makes its user a follower the job is for. -/
def isFollower (job : FanoutJobRow) (r : FollowRow) : Bool :=
  r.resolutionStatus == .resolved && r.delegationType == some .drep &&
    r.drepId == some job.subjectId &&
      match r.delegationSetAt with
      | some setAt => decide (setAt ≤ job.sourceTime)
      | none => false

/-- The user ids of the followers a job is for. -/
def followersOf (job : FanoutJobRow) (follows : FollowTable) : List String :=
  (follows.rows.filter (isFollower job)).map (·.userId)

/-- The follower page behind the job's cursor. -/
def selectFollowers (follows : FollowTable) (job : FanoutJobRow) (pageSize : ℕ) : List String :=
  pageAfter (job.cursorUserId.getD "") pageSize (followersOf job follows)

/-- One inserted row: skipped if the recipient has the event, and an abort (`none`) if the
random id is taken. -/
def NotificationTable.insert (t : NotificationTable) (n : NotificationRow) :
    Option NotificationTable :=
  if hevent : ∃ key ∈ recipientEvent n, key ∈ t.rows.filterMap recipientEvent then some t
  else if hid : n.id ∈ t.rows.map (·.id) then none
  else some
    { rows := t.rows ++ [n]
      id_unique := by
        rw [List.map_append, List.nodup_append]
        refine ⟨t.id_unique, by simp, ?_⟩
        rintro k hk _ hn rfl
        rw [List.map_singleton, List.mem_singleton] at hn
        exact hid (hn ▸ hk)
      event_unique := by
        rw [List.filterMap_append, List.nodup_append]
        refine ⟨t.event_unique, ?_, ?_⟩
        · rcases hn : recipientEvent n with _ | key <;> simp [hn]
        · rintro k hk _ hn rfl
          obtain ⟨n', hn', hkey⟩ := List.mem_filterMap.mp hn
          exact hevent ⟨k, List.mem_singleton.mp hn' ▸ hkey, hk⟩ }

/-- The row for one follower, with the id drawn for it. -/
def noticeFor (job : FanoutJobRow) (dbNow : ℤ) (id userId : String) : NotificationRow :=
  ⟨id, userId, job.eventType, some job.eventKey, some job.payload, dbNow⟩

/-- The rows of a page; `draw` gives the random id of each. -/
def pageRows (job : FanoutJobRow) (draw : ℕ → String) (dbNow : ℤ) (followers : List String) :
    List NotificationRow :=
  followers.mapIdx fun i userId => noticeFor job dbNow (draw i) userId

/-- How many statements hold that many rows, `INSERT_CHUNK` in each. -/
def chunkCount (rows : ℕ) : ℕ := (rows + INSERT_CHUNK - 1) / INSERT_CHUNK

def buildNotificationPage (job : FanoutJobRow) (draw : ℕ → String) (dbNow : ℤ)
    (followers : List String) : List (List NotificationRow) :=
  (List.range (chunkCount followers.length)).map fun i =>
    ((pageRows job draw dbNow followers).drop (i * INSERT_CHUNK)).take INSERT_CHUNK

/-- The cursor step of a page, or the completion where the page was not full. -/
def pageStep (jobs : JobTable) (job : FanoutJobRow) (followers : List String) (pageSize : ℕ)
    (now : ℤ) : JobTable :=
  if followers.length < pageSize then buildCompleteJob jobs job.eventKey now
  else buildAdvanceJobCursor jobs job.eventKey (followers.getLastD "") now

/-- The batch of a page: the inserts and the step, together or not at all. -/
def pageBatch (db : FanoutDb) (job : FanoutJobRow) (followers : List String) (pageSize : ℕ)
    (now : ℤ) (draw : ℕ → String) (dbNow : ℤ) : Option FanoutDb :=
  match (buildNotificationPage job draw dbNow followers).foldlM
      (fun t chunk => chunk.foldlM NotificationTable.insert t) db.notifications with
  | some notifications =>
    some { db with notifications, jobs := pageStep db.jobs job followers pageSize now }
  | none => none

/-! ### The run -/

def fanoutPageCost (pageSize : ℕ) : ℕ := 1 + chunkCount pageSize + 1

/-- What is left of an allowance; `none` is `UNLIMITED`. -/
abbrev Allowance := Option ℤ

def Allowance.covers (budget : Allowance) (cost : ℕ) : Bool :=
  match budget with
  | some remaining => decide ((cost : ℤ) ≤ remaining)
  | none => true

/-- After that many more counted queries. -/
def Allowance.spend (budget : Allowance) (queries : ℕ) : Allowance :=
  Option.map (fun remaining => remaining - queries) budget

/-- How many jobs a pass can afford, capped at 1000. -/
def passLimit (budget : Allowance) (pageCost : ℕ) : ℕ :=
  match budget with
  | some remaining => (min 1000 ((remaining - 1) / pageCost)).toNat
  | none => 1000

/-- What `runFanout` returns. -/
structure FanoutResult where
  jobs : ℕ
  delivered : ℕ
  completed : ℕ
  deferred : Bool

/-- The variables of a `runFanout` invocation. -/
structure FanoutRun where
  now : ℤ
  pageSize : ℕ
  budget : Allowance
  touchedJobs : List String
  delivered : ℕ
  completed : ℕ

def FanoutRun.result (run : FanoutRun) (deferred : Bool) : FanoutResult :=
  ⟨run.touchedJobs.length, run.delivered, run.completed, deferred⟩

/-- An invocation, by what it is about to do: start a pass, take up the next listed job, commit
the page it has read; or what became of it. -/
inductive FanoutProc
  | pass (run : FanoutRun)
  | jobs (run : FanoutRun) (toProcess : List FanoutJobRow) (truncated allCompleted : Bool)
  | page (run : FanoutRun) (job : FanoutJobRow) (followers : List String)
      (toProcess : List FanoutJobRow) (truncated allCompleted : Bool)
  | returned (result : FanoutResult)
  | threw

/-- The start of a pass: list what the allowance affords, and one job more. -/
def fanoutPass (db : FanoutDb) (run : FanoutRun) : FanoutProc :=
  let pageCost := fanoutPageCost run.pageSize
  if !run.budget.covers (1 + pageCost) then .returned (run.result true)
  else
    let limit := passLimit run.budget pageCost
    let openJobs := listOpenJobs db.jobs (limit + 1)
    let run := { run with budget := run.budget.spend 1 }
    if openJobs.length = 0 then .returned (run.result false)
    else .jobs run (openJobs.take limit) (decide (limit < openJobs.length)) true

/-- The loop over the listed jobs, up to the page it reads. -/
def fanoutJobs (db : FanoutDb) (run : FanoutRun) (truncated allCompleted : Bool) :
    List FanoutJobRow → FanoutProc
  | [] => if !truncated && allCompleted then .returned (run.result false) else .pass run
  | job :: toProcess =>
    if !run.budget.covers (fanoutPageCost run.pageSize) then .returned (run.result true)
    else
      let followers := selectFollowers db.follows job run.pageSize
      let run := { run with
        touchedJobs := run.touchedJobs.insert job.eventKey
        budget := run.budget.spend 1 }
      -- the last follower of an empty page cannot be read
      if followers.length = 0 ∧ ¬ followers.length < run.pageSize then .threw
      else .page run job followers toProcess truncated allCompleted

/-- After a page: it counts what it inserted and whether it drained the job. -/
def FanoutRun.afterPage (run : FanoutRun) (followers : List String) (delivered : ℕ) : FanoutRun :=
  { run with
    budget := run.budget.spend (chunkCount followers.length + 1)
    delivered := run.delivered + delivered
    completed := if followers.length < run.pageSize then run.completed + 1 else run.completed }

/-- The next step of an invocation; a page draws its ids and reads the database clock. -/
def fanoutStep (draw : ℕ → String) (dbNow : ℤ) (db : FanoutDb) :
    FanoutProc → Option (FanoutDb × FanoutProc)
  | .pass run => some (db, fanoutPass db run)
  | .jobs run toProcess truncated allCompleted =>
    some (db, fanoutJobs db run truncated allCompleted toProcess)
  | .page run job followers toProcess truncated allCompleted =>
    match pageBatch db job followers run.pageSize run.now draw dbNow with
    | some db' =>
      let delivered := db'.notifications.rows.length - db.notifications.rows.length
      some (db', .jobs (run.afterPage followers delivered) toProcess truncated
        (allCompleted && decide (followers.length < run.pageSize)))
    | none => some (db, .threw)
  | .returned _ | .threw => none

end DrepTalk
