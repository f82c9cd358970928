import DrepTalk.Votes.VoteTables

/-!
# Calls that write votes, rationales and their cross-posts

`src/lib/db/voteRationalePost.ts`, `createPost` of `src/lib/db/forum.ts`, the reap of
`src/lib/db/drepVotes.ts`, and the statements of `upsertVotes`, `recordLocalVote` and
`upsertActionRationale` once more as calls that others may come between: each reads first and
writes later, a batch being one step.

An id that a call draws at random is an argument of it; where it is taken, the insert fails and the
batch with it. A statement that throws ends its call, like a call that is never scheduled again.
-/

namespace DrepTalk

/-- A row of `posts`, by the columns these calls read and write. -/
structure ThreadPost where
  id : String
  topicId : String
  authorId : String
  parentPostId : Option String
  bodyMd : String
  bodyHtml : String
  source : Option String
  vote : Option String
  editedAt : Option ℤ
  deleted : Bool
  deletedAt : Option ℤ
  createdAt : ℤ
  deriving DecidableEq

/-- A row of `topics`, by the columns these calls read and write. -/
structure ThreadTopic where
  id : String
  deleted : Bool
  locked : Bool
  postCount : ℤ
  lastPostAt : ℤ

inductive ActivityKind
  | topic_created
  | reply_created
  | gov_created
  | gov_status
  deriving DecidableEq

/-- A row of `activity`, without its random id. -/
structure ActivityEvent where
  type : ActivityKind
  topicId : String
  actorId : Option String
  refPostId : Option String
  createdAt : ℤ

/-- A row of `users`, by the columns the reap reads. -/
structure DrepUser where
  id : String
  drepId : Option String

abbrev ThreadPostTable := KeyedTable fun row : ThreadPost => row.id

abbrev ThreadTopicTable := KeyedTable fun row : ThreadTopic => row.id

/-- The tables of votes, and those of the threads. -/
structure ThreadDb where
  voteDb : VoteDb
  posts : ThreadPostTable
  topics : ThreadTopicTable
  activity : List ActivityEvent
  users : List DrepUser

/-- `source` of a cross-post. -/
def VOTE_RATIONALE : String := "vote_rationale"

/-! ### Parts of batches -/

def countPost (topics : ThreadTopicTable) (topicId : String) (now : ℤ) : ThreadTopicTable :=
  topics.updateWhere (fun t => t.id == topicId)
    (fun t => { t with postCount := t.postCount + 1, lastPostAt := now }) fun _ _ => rfl

def uncountPost (topics : ThreadTopicTable) (topicId : String) : ThreadTopicTable :=
  topics.updateWhere (fun t => t.id == topicId)
    (fun t => { t with postCount := max (t.postCount - 1) 0 }) fun _ _ => rfl

def replyEvent (topicId authorId postId : String) (now : ℤ) : ActivityEvent :=
  ⟨.reply_created, topicId, some authorId, some postId, now⟩

/-- A batch that inserts a post, counts it and announces it; it fails where the id is taken. -/
def insertPost (db : ThreadDb) (post : ThreadPost) : Option ThreadDb :=
  if post.id ∈ db.posts.rows.map (·.id) then none
  else
    some { db with
      posts := db.posts.insertOrIgnore post
      topics := countPost db.topics post.topicId post.createdAt
      activity := db.activity ++
        [replyEvent post.topicId post.authorId post.id post.createdAt] }

def softDelete (posts : ThreadPostTable) (postId : String) (now : ℤ) : ThreadPostTable :=
  posts.updateWhere (fun p => p.id == postId)
    (fun p => { p with deleted := true, deletedAt := some now }) fun _ _ => rfl

/-! ### Posts -/

inductive ThreadError
  | topic_not_found
  | topic_locked
  | parent_not_found
  | constraint_failed
  deriving DecidableEq

/-- The arguments of `createPost`, with the id it draws. -/
structure CreatePostArgs where
  topicId : String
  authorId : String
  bodyMd : String
  bodyHtml : String
  now : ℤ
  parentPostId : Option String
  postId : String
  deriving DecidableEq

/-- A call of `createPost`. -/
inductive CreateProc
  | lookup (args : CreatePostArgs)
  | insert (args : CreatePostArgs) (parentId : Option String)
  | returned (postId : String)
  | threw (error : ThreadError)
  deriving DecidableEq

/-- What follows the two lookups of `createPost`, which are one batch. -/
def createLookup (args : CreatePostArgs) (topic : Option ThreadTopic)
    (parent : String → Option ThreadPost) : CreateProc :=
  match topic with
  | none => .threw .topic_not_found
  | some topic =>
    if topic.deleted then .threw .topic_not_found
    else if topic.locked then .threw .topic_locked
    else
      match args.parentPostId.filter (· != "") with
      | none => .insert args none
      | some parentPostId =>
        match parent parentPostId with
        | none => .threw .parent_not_found
        | some parent =>
          if parent.deleted || parent.topicId != args.topicId then .threw .parent_not_found
          else .insert args (some (parent.parentPostId.getD parent.id))

def CreatePostArgs.post (args : CreatePostArgs) (parentId : Option String) : ThreadPost :=
  ⟨args.postId, args.topicId, args.authorId, parentId, args.bodyMd, args.bodyHtml, none, none,
    none, false, none, args.now⟩

/-- The next statement of a call of `createPost`. -/
def createStep (db : ThreadDb) : CreateProc → Option (ThreadDb × CreateProc)
  | .lookup args =>
    some (db, createLookup args (db.topics.rows.find? fun t => t.id == args.topicId)
      fun id => db.posts.rows.find? fun p => p.id == id)
  | .insert args parentId =>
    match insertPost db (args.post parentId) with
    | some db' => some (db', .returned args.postId)
    | none => some (db, .threw .constraint_failed)
  | .returned _ | .threw _ => none

/-! ### Cross-posts -/

/-- The arguments of `upsertVoteRationalePost`, with the id it may draw. -/
structure CrossPostArgs where
  topicId : String
  authorId : String
  vote : String
  bodyMd : String
  bodyHtml : String
  now : ℤ
  postId : String
  deriving DecidableEq

/-- Whether a post is the cross-post of an author in a topic. -/
def isCrossPost (topicId authorId : String) (p : ThreadPost) : Bool :=
  p.topicId == topicId && p.authorId == authorId && p.source == some VOTE_RATIONALE

/-- A call of `upsertVoteRationalePost`. -/
inductive UpsertPostProc
  | read (args : CrossPostArgs)
  | revive (args : CrossPostArgs) (postId : String)
  | edit (args : CrossPostArgs) (postId : String)
  | insert (args : CrossPostArgs)
  | returned
  | threw (error : ThreadError)
  deriving DecidableEq

/-- What follows the read of the cross-post that is there. -/
def upsertRead (args : CrossPostArgs) : Option ThreadPost → UpsertPostProc
  | none => .insert args
  | some existing =>
    if existing.deleted then .revive args existing.id else .edit args existing.id

def CrossPostArgs.post (args : CrossPostArgs) : ThreadPost :=
  ⟨args.postId, args.topicId, args.authorId, none, args.bodyMd, args.bodyHtml,
    some VOTE_RATIONALE, some args.vote, none, false, none, args.now⟩

/-- A cross-post with a new text and vote. -/
def CrossPostArgs.edited (args : CrossPostArgs) (p : ThreadPost) : ThreadPost :=
  { p with
    bodyMd := args.bodyMd
    bodyHtml := args.bodyHtml
    vote := some args.vote
    editedAt := some args.now }

def CrossPostArgs.revived (args : CrossPostArgs) (p : ThreadPost) : ThreadPost :=
  { args.edited p with deleted := false, deletedAt := none }

/-- Brings a removed cross-post back: into the thread, the count and the feed. -/
def revivePost (db : ThreadDb) (args : CrossPostArgs) (postId : String) : ThreadDb :=
  { db with
    posts := db.posts.updateWhere (fun p => p.id == postId) args.revived fun _ _ => rfl
    topics := countPost db.topics args.topicId args.now
    activity := db.activity ++ [replyEvent args.topicId args.authorId postId args.now] }

def editCrossPost (db : ThreadDb) (args : CrossPostArgs) (postId : String) : ThreadDb :=
  { db with
    posts := db.posts.updateWhere (fun p => p.id == postId) args.edited fun _ _ => rfl }

/-- The next statement of a call of `upsertVoteRationalePost`. -/
def upsertPostStep (db : ThreadDb) : UpsertPostProc → Option (ThreadDb × UpsertPostProc)
  | .read args =>
    some (db, upsertRead args (db.posts.rows.find? (isCrossPost args.topicId args.authorId)))
  | .revive args postId => some (revivePost db args postId, .returned)
  | .edit args postId => some (editCrossPost db args postId, .returned)
  | .insert args =>
    match insertPost db args.post with
    | some db' => some (db', .returned)
    | none => some (db, .threw .constraint_failed)
  | .returned | .threw _ => none

/-- The arguments of `removeVoteRationalePost`. -/
structure RemovePostArgs where
  topicId : String
  authorId : String
  now : ℤ
  deriving DecidableEq

/-- A call of `removeVoteRationalePost`. -/
inductive RemovePostProc
  | read (args : RemovePostArgs)
  | remove (args : RemovePostArgs) (postId : String)
  | returned
  deriving DecidableEq

/-- Takes a cross-post out of the thread, the count and the feed. -/
def removeCrossPost (db : ThreadDb) (args : RemovePostArgs) (postId : String) : ThreadDb :=
  { db with
    posts := softDelete db.posts postId args.now
    topics := uncountPost db.topics args.topicId
    activity := Table.deleteWhere
      (fun a => a.type == .reply_created && a.refPostId == some postId) db.activity }

/-- The next statement of a call of `removeVoteRationalePost`. -/
def removePostStep (db : ThreadDb) : RemovePostProc → Option (ThreadDb × RemovePostProc)
  | .read args =>
    let existing := db.posts.rows.find? fun p =>
      isCrossPost args.topicId args.authorId p && !p.deleted
    some (db, match existing with
      | some existing => .remove args existing.id
      | none => .returned)
  | .remove args postId => some (removeCrossPost db args postId, .returned)
  | .returned => none

/-! ### The reap -/

/-- A vote, by its action and its voter. -/
abbrev VoteKey := String × String

/-- A call of `markStalePendingVotesFailed`: the stale list, the flag, and for each vote on the
list its rationale, the read of its cross-posts, and one batch for each of these. -/
inductive ReapProc
  | stale (cutoffSeconds now : ℤ)
  | flag (cutoffSeconds now : ℤ) (todo : List VoteKey)
  | rationale (now : ℤ) (vote : VoteKey) (todo : List VoteKey) (count : ℕ)
  | select (now : ℤ) (vote : VoteKey) (todo : List VoteKey) (count : ℕ)
  | post (now : ℤ) (vote : VoteKey) (post : String × String) (posts : List (String × String))
    (todo : List VoteKey) (count : ℕ)
  | returned (count : ℕ)
  deriving DecidableEq

/-- The pending votes that are older than the cutoff. -/
def staleVotes (db : VoteDb) (cutoffSeconds : ℤ) : List VoteKey :=
  (db.votes.rows.filter fun row =>
    row.localStatus == some .pending && decide (row.syncedAt < cutoffSeconds)).map
      fun row => (row.gaId, row.voterId)

def reapNext (now : ℤ) (count : ℕ) : List VoteKey → ReapProc
  | [] => .returned count
  | vote :: todo => .rationale now vote todo count

/-- On to the next cross-post of a vote. -/
def reapNextPost (now : ℤ) (vote : VoteKey) (todo : List VoteKey) (count : ℕ) :
    List (String × String) → ReapProc
  | [] => reapNext now count todo
  | post :: posts => .post now vote post posts todo count

/-- Whether a rationale is the one a vote cast through the site has left. -/
def isSiteRationale (vote : VoteKey) (row : RationaleRow) : Bool :=
  row.gaId == vote.1 && row.voterId == vote.2 && row.source == .dreptalk

/-- The live cross-posts a voter's accounts have in the thread of an action. -/
def crossPostsOf (db : ThreadDb) (vote : VoteKey) : List (String × String) :=
  (db.posts.rows.filter fun p =>
    p.source == some VOTE_RATIONALE && !p.deleted &&
      (db.voteDb.actions.any fun g => g.id == vote.1 && g.topicId == some p.topicId) &&
      db.users.any fun u => u.id == p.authorId && u.drepId == some vote.2).map
    fun p => (p.id, p.topicId)

/-- The next statement of a call of `markStalePendingVotesFailed`. -/
def reapStep (db : ThreadDb) : ReapProc → Option (ThreadDb × ReapProc)
  | .stale cutoffSeconds now =>
    some (db, match staleVotes db.voteDb cutoffSeconds with
      | [] => .returned 0
      | vote :: todo => .flag cutoffSeconds now (vote :: todo))
  | .flag cutoffSeconds now todo =>
    some ({ db with voteDb := flagStaleVotes db.voteDb cutoffSeconds },
      reapNext now todo.length todo)
  | .rationale now vote todo count =>
    some ({ db with voteDb := { db.voteDb with
        rationales := db.voteDb.rationales.deleteWhere (isSiteRationale vote) } },
      .select now vote todo count)
  | .select now vote todo count =>
    some (db, reapNextPost now vote todo count (crossPostsOf db vote))
  | .post now vote post posts todo count =>
    some ({ db with
        posts := softDelete db.posts post.1 now
        topics := uncountPost db.topics post.2 },
      reapNextPost now vote todo count posts)
  | .returned _ => none

/-! ### Votes -/

/-- A call of `upsertVotes`: the stored rows, the bodies to archive, and a batch for each chunk. -/
inductive SyncProc
  | load (gaId : String) (votes : List VoteInput) (now : ℤ)
  | bodies (gaId : String) (votes : List VoteInput) (now : ℤ) (existing : List VoteRow)
  | batch (gaId : String) (now : ℤ) (existing : List VoteRow)
    (bodies : List (String × Option String)) (chunks : List (List VoteInput)) (count : ℕ)
  deriving DecidableEq

/-- The next statement of a call of `upsertVotes`. -/
def syncStep (db : VoteDb) : SyncProc → Option (VoteDb × SyncProc)
  | .load gaId votes now => some (db, .bodies gaId votes now (loadExistingVotes db gaId))
  | .bodies gaId votes now existing =>
    some (db, .batch gaId now existing (readArchiveBodies db gaId votes existing)
      (slices UPSERT_CHUNK votes) votes.length)
  | .batch gaId now existing bodies (chunk :: chunks) count =>
    some (upsertChunk gaId existing bodies now db chunk,
      .batch gaId now existing bodies chunks count)
  | .batch _ _ _ _ [] _ => none

def upsertActionRationale (db : VoteDb) (row : RationaleRow) : VoteDb :=
  { db with
    rationales := db.rationales.upsert row
      (fun stored => { stored with bodyHtml := row.bodyHtml, source := row.source })
      fun _ _ => rfl }

inductive VoteProc
  | create (l : CreateProc)
  | upsertPost (l : UpsertPostProc)
  | removePost (l : RemovePostProc)
  | reap (l : ReapProc)
  | sync (l : SyncProc)
  | record (r : LocalVote)
  | rationale (row : RationaleRow)
  | returned
  deriving DecidableEq

def voteProcStep (db : ThreadDb) : VoteProc → Option (ThreadDb × VoteProc)
  | .create l => (createStep db l).map fun out => (out.1, .create out.2)
  | .upsertPost l => (upsertPostStep db l).map fun out => (out.1, .upsertPost out.2)
  | .removePost l => (removePostStep db l).map fun out => (out.1, .removePost out.2)
  | .reap l => (reapStep db l).map fun out => (out.1, .reap out.2)
  | .sync l => (syncStep db.voteDb l).map fun out => ({ db with voteDb := out.1 }, .sync out.2)
  | .record r => some ({ db with voteDb := recordLocalVote db.voteDb r }, .returned)
  | .rationale row => some ({ db with voteDb := upsertActionRationale db.voteDb row }, .returned)
  | .returned => none

end DrepTalk
