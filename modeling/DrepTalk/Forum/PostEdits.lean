import DrepTalk.Library.Table
import Mathlib.Data.List.Sort

/-!
# Editing a post

`src/lib/db/forum.ts` (`getPostForEdit`, `editPost`, `getPostHistory`) and
`src/lib/forum/editPolicy.ts`: an edit reads the post, checks who edits what, reads the topic, and
then writes. Inside the grace window the write replaces the body and leaves no trace; after it the
body the edit has read is archived and the post is stamped, in one batch.

A caller that has read the post before it calls `editPost` passes the row on, so the read below is
that read. The activity of a grant is looked up in a list of grants and their users. A statement
that throws ends its call, like a call that is never scheduled again.
-/

namespace DrepTalk

/-- A row of `posts`, by the columns edits and documents read. -/
structure PostRow where
  id : String
  topicId : String
  authorId : String
  parentPostId : Option String
  bodyMd : String
  bodyHtml : String
  hidden : Bool
  editedAt : Option ℤ
  deleted : Bool
  createdAt : ℤ
  source : Option String
  proposerGrantId : Option String
  deriving DecidableEq

/-- A row of `topics`, by the columns edits, histories and documents read. -/
structure TopicRow where
  id : String
  authorId : String
  source : String
  title : String
  slug : String
  locked : Bool
  deleted : Bool
  deriving DecidableEq

/-- A row of `post_revisions`. -/
structure RevisionRow where
  postId : String
  bodyMd : String
  bodyHtml : String
  replacedAt : ℤ
  editorId : String

abbrev PostTable := KeyedTable fun row : PostRow => row.id

abbrev TopicTable := KeyedTable fun row : TopicRow => row.id

/-- The tables an edit reads and writes; a grant is active for a user while the pair is listed. -/
structure ForumDb where
  posts : PostTable
  topics : TopicTable
  revisions : List RevisionRow
  activeGrants : List (String × String)

def ForumDb.post (db : ForumDb) (id : String) : Option PostRow :=
  db.posts.rows.find? fun row => row.id == id

def ForumDb.topic (db : ForumDb) (id : String) : Option TopicRow :=
  db.topics.rows.find? fun row => row.id == id

/-! ### The edit policy -/

def EDIT_GRACE_MS : ℤ := 15 * 60 * 1000

/-- Whether an edit at `now` to a post of `createdAt` is still silent. -/
def isWithinGrace (createdAt now : ℤ) : Bool := decide (now - createdAt ≤ EDIT_GRACE_MS)

/-- A row stamped with a grant follows the grant, another one the editor's own writer role. -/
def mayEditRow (stampedGrantId : Option String) (ownWriter stampedGrantActive : Bool) : Bool :=
  if stampedGrantId.any (· != "") then stampedGrantActive else ownWriter

/-! ### An edit -/

/-- The arguments of `editPost`. -/
structure EditArgs where
  postId : String
  authorId : String
  bodyMd : String
  bodyHtml : String
  now : ℤ
  ownWriter : Bool
  stampedGrantActive : Option Bool

/-- What `editPost` throws. -/
inductive EditError
  | post_not_found
  | not_owner
  | mandate_mismatch
  | frozen_rationale
  | post_hidden
  | topic_not_found
  | topic_locked

/-- A call of `editPost`, by what it is about to do, or how it has ended. -/
inductive EditProc
  | read (args : EditArgs)
  | grant (args : EditArgs) (post : PostRow) (grantId : String)
  | topic (args : EditArgs) (post : PostRow)
  | write (args : EditArgs) (post : PostRow)
  | returned (edited : Bool)
  | threw (error : EditError)

/-- The checks behind the one on the mandate. -/
def editChecked (args : EditArgs) (post : PostRow) (stampedGrantActive : Bool) : EditProc :=
  if !mayEditRow post.proposerGrantId args.ownWriter stampedGrantActive then
    .threw .mandate_mismatch
  else if post.source = some "vote_rationale" then .threw .frozen_rationale
  else if post.hidden then .threw .post_hidden
  else .topic args post

/-- What follows the read of the post: the grant is looked up where the row is stamped and the
caller does not know. -/
def editRead (args : EditArgs) : Option PostRow → EditProc
  | none => .threw .post_not_found
  | some post =>
    if post.deleted then .threw .post_not_found
    else if post.authorId ≠ args.authorId then .threw .not_owner
    else
      match post.proposerGrantId.filter (· != ""), args.stampedGrantActive with
      | none, _ => editChecked args post false
      | some _, some active => editChecked args post active
      | some grantId, none => .grant args post grantId

/-- What follows the read of the topic. -/
def editTopic (args : EditArgs) (post : PostRow) : Option TopicRow → EditProc
  | none => .threw .topic_not_found
  | some topic =>
    if topic.deleted then .threw .topic_not_found
    else if topic.locked then .threw .topic_locked
    else .write args post

def writeSilent (db : ForumDb) (args : EditArgs) : ForumDb :=
  { db with
    posts := db.posts.updateWhere (fun row => row.id == args.postId)
      (fun row => { row with bodyMd := args.bodyMd, bodyHtml := args.bodyHtml }) fun _ _ => rfl }

/-- The marked write: the body that was read goes to the archive. -/
def writeMarked (db : ForumDb) (args : EditArgs) (post : PostRow) : ForumDb :=
  { db with
    revisions := db.revisions ++ [⟨args.postId, post.bodyMd, post.bodyHtml, args.now, args.authorId⟩]
    posts := db.posts.updateWhere (fun row => row.id == args.postId)
      (fun row => { row with
        bodyMd := args.bodyMd, bodyHtml := args.bodyHtml, editedAt := some args.now })
      fun _ _ => rfl }

/-- Whether the write of an edit is the marked one. -/
def EditArgs.marked (args : EditArgs) (post : PostRow) : Bool :=
  !isWithinGrace post.createdAt args.now

def editWrite (db : ForumDb) (args : EditArgs) (post : PostRow) : ForumDb :=
  if args.marked post then writeMarked db args post else writeSilent db args

/-- The next statement of a call of `editPost`. -/
def editStep (db : ForumDb) : EditProc → Option (ForumDb × EditProc)
  | .read args => some (db, editRead args (db.post args.postId))
  | .grant args post grantId =>
    some (db, editChecked args post (db.activeGrants.contains (grantId, args.authorId)))
  | .topic args post => some (db, editTopic args post (db.topic post.topicId))
  | .write args post => some (editWrite db args post, .returned (args.marked post))
  | .returned _ | .threw _ => none

/-! ### The history -/

structure PostVersion where
  bodyMd : String
  bodyHtml : String
  createdAt : ℤ
  current : Bool

structure PostHistory where
  versions : List PostVersion
  hidden : Bool
  authorId : String
  topicId : String
  topicSlug : String
  topicTitle : String

/-- The revisions of a post, oldest write first. -/
def revisionsOf (db : ForumDb) (postId : String) : List RevisionRow :=
  db.revisions.filter fun r => r.postId == postId

def replacedLater (a b : RevisionRow) : Prop := b.replacedAt ≤ a.replacedAt

instance : DecidableRel replacedLater := fun _ _ => inferInstanceAs (Decidable (_ ≤ _))

/-- The archived versions, each created when the one below it was replaced, the oldest with the
post. -/
def archivedVersions (createdAt : ℤ) : List RevisionRow → List PostVersion
  | [] => []
  | r :: older =>
    ⟨r.bodyMd, r.bodyHtml, (older.head?.map (·.replacedAt)).getD createdAt, false⟩ ::
      archivedVersions createdAt older

/-- The version history of a post, newest first. -/
def getPostHistory (db : ForumDb) (postId : String) : Option PostHistory :=
  match db.post postId with
  | none => none
  | some post =>
    match db.topic post.topicId with
    | none => none
    | some topic =>
      if post.deleted || topic.deleted then none
      else
        some
          { versions :=
              ⟨post.bodyMd, post.bodyHtml, post.editedAt.getD post.createdAt, true⟩ ::
                archivedVersions post.createdAt
                  ((revisionsOf db postId).insertionSort replacedLater)
            hidden := post.hidden
            authorId := post.authorId
            topicId := post.topicId
            topicSlug := topic.slug
            topicTitle := topic.title }

theorem archivedVersions_bodies (createdAt : ℤ) (revisions : List RevisionRow) :
    (archivedVersions createdAt revisions).map (·.bodyMd) = revisions.map (·.bodyMd) := by
  induction revisions with
  | nil => rfl
  | cons r older ih => rw [archivedVersions, List.map_cons, List.map_cons, ih]

end DrepTalk
