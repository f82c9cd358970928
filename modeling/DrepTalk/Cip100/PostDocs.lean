import DrepTalk.Forum.PostEdits
import Mathlib.Data.List.MinMax

/-!
# The documents of a post

`src/lib/cip100/document.ts`, `src/lib/db/cip100.ts` and `src/lib/cip100/reconcile.ts`: the
reconciler reads a post, its author and its newest document, and either records that the document
is still right, or builds the next version and inserts it while the post still holds what was
read. Between any two of its statements anything may happen.

A document is taken by its content; the constant members of the JSON object are left out, and a
time stamp is the second its text names. The hash of a document is a parameter. The author of a
post is read from a table of what the identity resolver answers. A statement that throws ends its
call, like a call that is never scheduled again.
-/

namespace DrepTalk

inductive Cip100Network
  | mainnet
  | preprod
  deriving DecidableEq

/-- What the identity resolver answers, by the members a document names. -/
structure AuthorDescriptor where
  displayName : String
  drepId : Option String
  poolId : Option String

/-- `Cip100PostedBy`. -/
structure PostedBy where
  handle : String
  profile : Option String
  drepId : Option String
  poolId : Option String
  deriving DecidableEq

/-- An entry of `references`. -/
structure DocReference where
  label : String
  uri : String
  deriving DecidableEq

/-- The body of a discussion document. -/
structure Cip100Doc where
  postId : String
  version : ℕ
  postedAt : ℤ
  revisedAt : Option ℤ
  network : Cip100Network
  forum : String
  thread : String
  governanceActionId : Option String
  inReplyToPostId : Option String
  inReplyTo : Option String
  revisionOf : Option String
  postedBy : PostedBy
  comment : String
  externalUpdate : DocReference
  references : List DocReference
  deriving DecidableEq

/-- A row of `cip100_docs`; the body is gone once it has been erased. -/
structure DocRow where
  hash : String
  body : Option Cip100Doc
  postId : String
  topicId : String
  version : ℕ
  prevHash : Option String
  sourceEditedAt : Option ℤ
  createdAt : ℤ
  deriving DecidableEq

abbrev DocTable :=
  DoublyKeyedTable (fun d : DocRow => d.hash) fun d : DocRow => (d.postId, d.version)

/-- A row of `governance_actions`, by the columns a document reads. -/
structure ActionTopicRow where
  topicId : String
  proposalId : Option String

/-- The tables the reconciler reads beside those of the forum, and the one it writes. -/
structure Cip100Db where
  docs : DocTable
  authors : String → AuthorDescriptor
  actions : List ActionTopicRow

/-! ### Addresses -/

def snapshotUrl (origin hash : String) : String := origin ++ "/cip100/" ++ hash ++ ".json"

def postVersionsUrl (origin postId : String) : String :=
  origin ++ "/cip100/post/" ++ postId ++ ".json"

def threadManifestUrl (origin topicId : String) : String :=
  origin ++ "/cip100/topic/" ++ topicId ++ ".json"

/-- A text that is present and not empty. -/
def truthy (text : Option String) : Option String := text.filter (· != "")

def authorProfileUrl (origin : String) (author : AuthorDescriptor) : Option String :=
  match truthy author.drepId, truthy author.poolId with
  | some drepId, _ => some (origin ++ "/dreps/" ++ drepId ++ "/")
  | none, some poolId => some (origin ++ "/spos/" ++ poolId ++ "/")
  | none, none => none

/-! ### Building a document -/

structure DiscussionPostDocInput where
  origin : String
  network : Cip100Network
  postId : String
  topicId : String
  topicSlug : String
  version : ℕ
  postedAt : ℤ
  revisedAt : Option ℤ
  governanceActionId : Option String
  parentPostId : Option String
  parentDocHash : Option String
  prevHash : Option String
  postedBy : PostedBy
  comment : String

/-- The second a time stamp in milliseconds is in. -/
def isoSeconds (ms : ℤ) : ℤ := ms / 1000

def docReferences (input : DiscussionPostDocInput) : List DocReference :=
  let threadUrl := input.origin ++ "/t/" ++ input.topicSlug ++ "/"
  [⟨"Post permalink", threadUrl ++ "#post-" ++ input.postId⟩, ⟨"Discussion", threadUrl⟩] ++
    ((truthy input.governanceActionId).map fun id =>
      ⟨"Governance action", input.origin ++ "/ga/" ++ id⟩).toList ++
    ((truthy input.prevHash).map fun hash =>
      ⟨"Previous version", snapshotUrl input.origin hash⟩).toList ++
    ((truthy input.parentDocHash).map fun hash =>
      ⟨"In reply to", snapshotUrl input.origin hash⟩).toList

/-- `buildDiscussionPostDoc`, without the hash of the result. -/
def buildDiscussionPostDoc (input : DiscussionPostDocInput) : Cip100Doc where
  postId := input.postId
  version := input.version
  postedAt := isoSeconds input.postedAt
  revisedAt := input.revisedAt.map isoSeconds
  network := input.network
  forum := input.origin ++ "/"
  thread := threadManifestUrl input.origin input.topicId
  governanceActionId := truthy input.governanceActionId
  inReplyToPostId := truthy input.parentPostId
  inReplyTo := (truthy input.parentDocHash).map (snapshotUrl input.origin)
  revisionOf := (truthy input.prevHash).map (snapshotUrl input.origin)
  postedBy :=
    { handle := input.postedBy.handle
      profile := truthy input.postedBy.profile
      drepId := truthy input.postedBy.drepId
      poolId := truthy input.postedBy.poolId }
  comment := input.comment
  externalUpdate := ⟨"Versions of this post", postVersionsUrl input.origin input.postId⟩
  references := docReferences input

/-! ### Documents in the database -/

/-- The newest of some documents, by version. -/
def newestDoc (docs : List DocRow) : Option DocRow := docs.argmax (·.version)

def docsOf (db : Cip100Db) (postId : String) : List DocRow :=
  db.docs.rows.filter fun d => d.postId == postId

def getHeadDoc (db : Cip100Db) (postId : String) : Option DocRow := newestDoc (docsOf db postId)

/-- The newest document of a post that was there at a time. -/
def getDocAtOrBefore (db : Cip100Db) (postId : String) (at' : ℤ) : Option DocRow :=
  newestDoc ((docsOf db postId).filter fun d => decide (d.createdAt ≤ at'))

def getDocBody (db : Cip100Db) (hash : String) : Option Cip100Doc :=
  (db.docs.rows.find? fun d => d.hash == hash).bind (·.body)

def touchSourceEditedAt (db : Cip100Db) (hash : String) (sourceEditedAt : Option ℤ) : Cip100Db :=
  { db with
    docs := db.docs.updateWhere (fun d => d.hash == hash)
      (fun d => { d with sourceEditedAt }) (fun _ _ => rfl) fun _ _ => rfl }

/-- The guard of an insert: the post still holds what the document was built from. -/
def holdsBody (forum : ForumDb) (postId bodyMd : String) (editedAt : Option ℤ) : Bool :=
  forum.posts.rows.any fun row =>
    row.id == postId && row.bodyMd == bodyMd && row.editedAt == editedAt

/-- The insert of `insertDoc`; the answer says whether a row was written. -/
def insertDoc (forum : ForumDb) (db : Cip100Db) (doc : DocRow) (bodyMd : String)
    (editedAt : Option ℤ) : Cip100Db × Bool :=
  if holdsBody forum doc.postId bodyMd editedAt then
    let (docs, inserted) := db.docs.insertOrIgnore doc
    ({ db with docs }, inserted)
  else (db, false)

/-! ### Posts that are behind -/

/-- Whether a post is never to be emitted, whatever the time: deleted, hidden, a rationale, or
the mirror post of a topic that is not a user's. -/
def neverEmitted (row : PostRow) (topic : TopicRow) : Bool :=
  row.deleted || topic.deleted || row.hidden || row.source == some "vote_rationale" ||
    (topic.source != "user" && row.authorId == topic.authorId)

/-- The scope rule: not even in time inside the grace window. -/
def outOfScope (row : PostRow) (topic : TopicRow) (now : ℤ) : Bool :=
  neverEmitted row topic || isWithinGrace row.createdAt now

/-- Whether a post has been stamped since its newest document was reconciled. -/
def stampedSince (row : PostRow) (head : Option DocRow) : Bool :=
  row.editedAt.any fun editedAt => decide ((head.bind (·.sourceEditedAt)).getD 0 < editedAt)

/-- Whether a post has no document yet or is behind, as the candidate query has it. -/
def isStale (db : Cip100Db) (graceCutoff : ℤ) (row : PostRow) : Bool :=
  let head := getHeadDoc db row.id
  (head.isNone && decide (row.createdAt ≤ graceCutoff)) || stampedSince row head

/-- The condition of the candidate query. -/
def isStaleCandidate (forum : ForumDb) (db : Cip100Db) (graceCutoff : ℤ) (row : PostRow) : Bool :=
  (forum.topic row.topicId).any (fun topic => !neverEmitted row topic) &&
    isStale db graceCutoff row

def createdBefore (a b : PostRow) : Prop := a.createdAt ≤ b.createdAt

instance : DecidableRel createdBefore := fun _ _ => inferInstanceAs (Decidable (_ ≤ _))

/-- `findStalePostIds`, with or without a limit. -/
def findStalePostIds (forum : ForumDb) (db : Cip100Db) (graceCutoff : ℤ) (limit : Option ℕ) :
    List String :=
  let rows : List PostRow := (forum.posts.rows.filter
    (isStaleCandidate forum db graceCutoff)).insertionSort createdBefore
  let batch : List PostRow := limit.elim rows rows.take
  batch.map (·.id)

/-! ### Reconciling a post -/

/-- The arguments of `reconcilePostDocs`. -/
structure ReconcileArgs where
  postId : String
  origin : String
  network : Cip100Network
  now : ℤ

structure LoadedPost where
  row : PostRow
  topic : TopicRow
  proposalId : Option String

def loadPost (forum : ForumDb) (db : Cip100Db) (postId : String) : Option LoadedPost :=
  match forum.post postId with
  | none => none
  | some row =>
    match forum.topic row.topicId with
    | none => none
    | some topic =>
      some ⟨row, topic, (db.actions.find? fun a => a.topicId == topic.id).bind (·.proposalId)⟩

/-- `status` of a result. -/
inductive ReconcileStatus
  | created
  | unchanged
  | skipped
  | conflict

/-- A call of `reconcilePostDocs`, by what it is about to do, or its answer. -/
inductive ReconcileProc
  | load (args : ReconcileArgs) (attempt : ℕ)
  | identify (args : ReconcileArgs) (attempt : ℕ) (post : LoadedPost)
  | head (args : ReconcileArgs) (attempt : ℕ) (post : LoadedPost) (author : AuthorDescriptor)
  | compare (args : ReconcileArgs) (attempt : ℕ) (post : LoadedPost) (author : AuthorDescriptor)
    (head : DocRow)
  | touch (post : LoadedPost) (head : DocRow)
  | parent (args : ReconcileArgs) (attempt : ℕ) (post : LoadedPost) (author : AuthorDescriptor)
    (head : Option DocRow) (parentPostId : String)
  | insert (args : ReconcileArgs) (attempt : ℕ) (post : LoadedPost) (doc : DocRow)
  | slot (args : ReconcileArgs) (attempt : ℕ) (doc : DocRow)
  | returned (status : ReconcileStatus) (hash : Option String)

def RECONCILE_ATTEMPTS : ℕ := 2

section

variable (docHash : Cip100Doc → String)

/-- The row of the next version of a post. -/
def nextDoc (args : ReconcileArgs) (post : LoadedPost) (author : AuthorDescriptor)
    (head : Option DocRow) (parentDocHash : Option String) : DocRow :=
  let version := (head.map (·.version)).getD 0 + 1
  let prevHash := head.map (·.hash)
  let body := buildDiscussionPostDoc
    { origin := args.origin
      network := args.network
      postId := post.row.id
      topicId := post.row.topicId
      topicSlug := post.topic.slug
      version
      postedAt := post.row.createdAt
      revisedAt := post.row.editedAt
      governanceActionId := post.proposalId
      parentPostId := post.row.parentPostId
      parentDocHash
      prevHash
      postedBy :=
        ⟨author.displayName, authorProfileUrl args.origin author, author.drepId, author.poolId⟩
      comment := post.row.bodyMd }
  { hash := docHash body
    body := some body
    postId := post.row.id
    topicId := post.row.topicId
    version
    prevHash
    sourceEditedAt := post.row.editedAt
    createdAt := args.now }

/-- What follows where there is something to build: the parent's snapshot is looked up for a
reply. -/
def reconcileBuild (args : ReconcileArgs) (attempt : ℕ) (post : LoadedPost)
    (author : AuthorDescriptor) (head : Option DocRow) : ReconcileProc :=
  match truthy post.row.parentPostId with
  | some parentPostId => .parent args attempt post author head parentPostId
  | none => .insert args attempt post (nextDoc docHash args post author head none)

/-- What follows an attempt that came to nothing. -/
def reconcileRetry (args : ReconcileArgs) (attempt : ℕ) : ReconcileProc :=
  if attempt + 1 < RECONCILE_ATTEMPTS then .load args (attempt + 1)
  else .returned .conflict none

/-- What follows the read of the post. -/
def reconcileLoad (args : ReconcileArgs) (attempt : ℕ) : Option LoadedPost → ReconcileProc
  | none => .returned .skipped none
  | some post =>
    if outOfScope post.row post.topic args.now then .returned .skipped none
    else .identify args attempt post

/-- What follows the read of the stored body: the text the document froze may still be right. -/
def reconcileCompare (args : ReconcileArgs) (attempt : ℕ) (post : LoadedPost)
    (author : AuthorDescriptor) (head : DocRow) (stored : Option Cip100Doc) : ReconcileProc :=
  if stored.any fun body => body.comment == post.row.bodyMd then .touch post head
  else reconcileBuild docHash args attempt post author (some head)

/-- What follows the re-read of the slot. -/
def reconcileSlot (args : ReconcileArgs) (attempt : ℕ) (doc : DocRow) :
    Option DocRow → ReconcileProc
  | none => reconcileRetry args attempt
  | some existing =>
    if existing.hash = doc.hash then .returned .unchanged (some doc.hash)
    else reconcileRetry args attempt

/-- The next statement of a call of `reconcilePostDocs`. -/
def reconcileStep (forum : ForumDb) (db : Cip100Db) :
    ReconcileProc → Option (Cip100Db × ReconcileProc)
  | .load args attempt => some (db, reconcileLoad args attempt (loadPost forum db args.postId))
  | .identify args attempt post => some (db, .head args attempt post (db.authors post.row.authorId))
  | .head args attempt post author =>
    some (db,
      match getHeadDoc db args.postId with
      | some head => .compare args attempt post author head
      | none => reconcileBuild docHash args attempt post author none)
  | .compare args attempt post author head =>
    some (db, reconcileCompare docHash args attempt post author head (getDocBody db head.hash))
  | .touch post head =>
    some (touchSourceEditedAt db head.hash post.row.editedAt,
      .returned .unchanged (some head.hash))
  | .parent args attempt post author head parentPostId =>
    let parentDoc := getDocAtOrBefore db parentPostId post.row.createdAt
    some (db,
      .insert args attempt post (nextDoc docHash args post author head (parentDoc.map (·.hash))))
  | .insert args attempt post doc =>
    -- the guard of the insert reads the post once more
    let (db', inserted) := insertDoc forum db doc post.row.bodyMd post.row.editedAt
    some (db',
      if inserted then .returned .created (some doc.hash) else .slot args attempt doc)
  | .slot args attempt doc =>
    -- somebody else has taken the version, or the hash
    let existing := db.docs.rows.find? fun d => d.postId == doc.postId && d.version == doc.version
    some (db, reconcileSlot args attempt doc existing)
  | .returned _ _ => none

end

end DrepTalk
