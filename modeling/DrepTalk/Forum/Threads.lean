import DrepTalk.Forum.ReplyTree
import DrepTalk.Votes.VoteProcs

/-!
# Threads and their pages

`createTopic`, `createPost` and `getThreadPage` of `src/lib/db/forum.ts`. A reply is stored under a
top-level post, `parent_post_id`, and names the post that it answers, `reply_to_post_id`. A page
has top-level posts, oldest first, and all the replies to them.

The lookups of `createPost` and what it makes of them are those of `createLookup`; here its row has
the target of the reply, too.

Posts of one time come in the order of their rows: the migration of `parent_post_id` says that the
pages ride the index on topic and time, whose entries of one time are in that order. A slug is what
`slugify` has made of the title and the random suffix.
-/

namespace DrepTalk

/-- A row of `posts`, by the columns the thread page reads. -/
structure ForumPost extends ThreadPost where
  replyToPostId : Option String
  upCount : ℕ
  downCount : ℕ
  flagCount : ℕ
  hidden : Bool
  proposerGrantId : Option String

/-- `source` of a topic. -/
inductive TopicSource
  | user
  | governance
  | survey
  deriving DecidableEq

/-- A row of `topics`. -/
structure ForumTopic extends ThreadTopic where
  categorySlug : String
  authorId : String
  source : TopicSource
  title : String
  slug : String
  pinned : Bool
  flagCount : ℕ
  createdAt : ℤ
  titleEditedAt : Option ℤ
  proposerGrantId : Option String

abbrev ForumPostTable := KeyedTable fun row : ForumPost => row.id

abbrev ForumTopicTable :=
  DoublyKeyedTable (fun row : ForumTopic => row.id) fun row : ForumTopic => row.slug

/-- The tables of threads, and the log of events. -/
structure ForumTables where
  topics : ForumTopicTable
  posts : ForumPostTable
  activity : List ActivityEvent

def ForumTables.topic (db : ForumTables) (id : String) : Option ForumTopic :=
  db.topics.rows.find? fun t => t.id == id

def ForumTables.post (db : ForumTables) (id : String) : Option ForumPost :=
  db.posts.rows.find? fun p => p.id == id

/-! ### Writing -/

/-- The arguments of `createTopic`, with the ids it draws and the slug it makes. -/
structure CreateTopicArgs where
  topicId : String
  postId : String
  slug : String
  categorySlug : String
  authorId : String
  title : String
  bodyMd : String
  bodyHtml : String
  source : TopicSource
  now : ℤ
  postedAt : Option ℤ
  proposerGrantId : Option String

/-- The date of the topic and its first post. -/
def CreateTopicArgs.date (args : CreateTopicArgs) : ℤ := args.postedAt.getD args.now

def CreateTopicArgs.topic (args : CreateTopicArgs) : ForumTopic where
  id := args.topicId
  deleted := false
  locked := false
  postCount := 1
  lastPostAt := args.date
  categorySlug := args.categorySlug
  authorId := args.authorId
  source := args.source
  title := args.title
  slug := args.slug
  pinned := false
  flagCount := 0
  createdAt := args.date
  titleEditedAt := none
  proposerGrantId := args.proposerGrantId

def CreateTopicArgs.firstPost (args : CreateTopicArgs) : ForumPost where
  id := args.postId
  topicId := args.topicId
  authorId := args.authorId
  parentPostId := none
  bodyMd := args.bodyMd
  bodyHtml := args.bodyHtml
  source := none
  vote := none
  editedAt := none
  deleted := false
  deletedAt := none
  createdAt := args.date
  replyToPostId := none
  upCount := 0
  downCount := 0
  flagCount := 0
  hidden := false
  proposerGrantId := args.proposerGrantId

/-- The events of a new topic: one by a user is announced. -/
def CreateTopicArgs.events (args : CreateTopicArgs) : List ActivityEvent :=
  match args.source with
  | .user => [⟨.topic_created, args.topicId, some args.authorId, none, args.date⟩]
  | _ => []

/-- The batch of `createTopic`, up to the caller's statements, where the guard, if any, holds:
it fails where a key is taken. -/
def createTopic (db : ForumTables) (args : CreateTopicArgs) : Option ForumTables :=
  let (topics, inserted) := db.topics.insertOrIgnore args.topic
  if !inserted || decide (args.postId ∈ db.posts.rows.map (·.id)) then none
  else
    some { topics := topics
           posts := db.posts.insertOrIgnore args.firstPost
           activity := db.activity ++ args.events }

theorem createTopic_topics {db db' : ForumTables} {args : CreateTopicArgs}
    (h : createTopic db args = some db') :
    db'.topics.rows = db.topics.rows ++ [args.topic] ∧
      args.topicId ∉ db.topics.rows.map (·.id) := by
  rw [createTopic] at h
  rcases hinsert : db.topics.insertOrIgnore args.topic with ⟨topics, inserted⟩
  rw [hinsert] at h
  dsimp only at h
  split_ifs at h with htaken
  cases h
  obtain rfl : inserted = true := by
    rcases inserted with _ | _
    · exact absurd (Bool.or_eq_true_iff.mpr (.inl rfl)) htaken
    · rfl
  have hnew : (db.topics.insertOrIgnore args.topic).2 = true := by rw [hinsert]
  obtain ⟨hrows, hfree, -⟩ := DoublyKeyedTable.insertOrIgnore_of_true hnew
  rw [hinsert] at hrows
  exact ⟨hrows, hfree⟩

def countReply (topics : ForumTopicTable) (topicId : String) (now : ℤ) : ForumTopicTable :=
  topics.updateWhere (fun t => t.id == topicId)
    (fun t => { t with postCount := t.postCount + 1, lastPostAt := now }) (fun _ _ => rfl)
    fun _ _ => rfl

/-- The row of `createPost`. -/
def CreatePostArgs.reply (args : CreatePostArgs) (parentId proposerGrantId : Option String) :
    ForumPost where
  toThreadPost := args.post parentId
  replyToPostId := args.parentPostId.filter (· != "")
  upCount := 0
  downCount := 0
  flagCount := 0
  hidden := false
  proposerGrantId := proposerGrantId

/-- The batch of `createPost`: it fails where the id is taken. -/
def insertReply (db : ForumTables) (reply : ForumPost) : Option ForumTables :=
  if reply.id ∈ db.posts.rows.map (·.id) then none
  else
    some { topics := countReply db.topics reply.topicId reply.createdAt
           posts := db.posts.insertOrIgnore reply
           activity := db.activity ++
            [replyEvent reply.topicId reply.authorId reply.id reply.createdAt] }

/-- The next batch of a call of `createPost`. -/
def createPostStep (db : ForumTables) (proposerGrantId : Option String) :
    CreateProc → Option (ForumTables × CreateProc)
  | .lookup args =>
    some (db, createLookup args ((db.topic args.topicId).map (·.toThreadTopic))
      fun id => (db.post id).map (·.toThreadPost))
  | .insert args parentId =>
    match insertReply db (args.reply parentId proposerGrantId) with
    | some db' => some (db', .returned args.postId)
    | none => some (db, .threw .constraint_failed)
  | .returned _ | .threw _ => none

def deletePost (db : ForumTables) (postId : String) (now : ℤ) : ForumTables :=
  { db with
    posts := db.posts.updateWhere (fun p => p.id == postId)
      (fun p => { p with deleted := true, deletedAt := some now }) fun _ _ => rfl }

/-! ### Pages -/

structure ThreadPage where
  topLevel : List ForumPost
  childrenByParent : List (String × List ForumPost)
  openingPost : Option ForumPost
  participants : Option ℕ

/-- `ORDER BY created_at ASC`. -/
def postedNotAfter (a b : ForumPost) : Prop := a.createdAt ≤ b.createdAt

instance : DecidableRel postedNotAfter :=
  fun a b => inferInstanceAs (Decidable (a.createdAt ≤ b.createdAt))

/-- The live top-level posts of a topic. -/
def isTopLevel (topicId : String) (p : ForumPost) : Bool :=
  p.topicId == topicId && !p.deleted && p.parentPostId.isNone

def topLevelPosts (db : ForumTables) (topicId : String) : List ForumPost :=
  (db.posts.rows.filter (isTopLevel topicId)).insertionSort postedNotAfter

/-- `TOP_LEVEL_PAGE_SQL`. -/
def topLevelPage (db : ForumTables) (topicId : String) (limit offset : ℕ) : List ForumPost :=
  ((topLevelPosts db topicId).drop offset).take limit

/-- A live reply to one of the given posts. -/
def isReplyTo (page : List ForumPost) (p : ForumPost) : Bool :=
  match p.parentPostId with
  | none => false
  | some parentId => (page.map (·.id)).contains parentId && !p.deleted

/-- The replies to the posts of a page. -/
def childRows (db : ForumTables) (page : List ForumPost) : List ForumPost :=
  (db.posts.rows.filter (isReplyTo page)).insertionSort postedNotAfter

/-- The opening post of a topic: the first live one that its author has at the top. -/
def openingPostOf (db : ForumTables) (topicId : String) : Option ForumPost :=
  (db.topic topicId).bind fun t =>
    ((db.posts.rows.filter fun p => isTopLevel topicId p && p.authorId == t.authorId).insertionSort
      postedNotAfter).head?

/-- `COUNT(DISTINCT author_id)` over the live posts of a topic. -/
def countParticipants (db : ForumTables) (topicId : String) : ℕ :=
  ((db.posts.rows.filter fun p => p.topicId == topicId && !p.deleted).map (·.authorId)).dedup.length

/-- The limit of a page, between 1 and 100. -/
def pageLimit (limit : Option ℤ) : ℕ := (min (max (limit.getD 50) 1) 100).toNat

def pageOffset (offset : Option ℤ) : ℕ := (max (offset.getD 0) 0).toNat

def getThreadPage (db : ForumTables) (topicId : String) (limit offset : Option ℤ) : ThreadPage :=
  let topLevel := topLevelPage db topicId (pageLimit limit) (pageOffset offset)
  let opening := openingPostOf db topicId
  { topLevel := topLevel
    childrenByParent := grouped (fun p => p.parentPostId.getD "") (childRows db topLevel)
    openingPost :=
      if pageOffset offset = 0 then
        opening.bind fun opening => topLevel.find? fun p => p.id == opening.id
      else none
    participants := opening.map fun _ => countParticipants db topicId }

/-- `childrenByParent.get`. -/
def ThreadPage.children (page : ThreadPage) (postId : String) : List ForumPost :=
  (page.childrenByParent.lookup postId).getD []

/-! ### What is on a page -/

theorem mem_topLevelPosts {db : ForumTables} {topicId : String} {p : ForumPost} :
    p ∈ topLevelPosts db topicId ↔ p ∈ db.posts.rows ∧ p.topicId = topicId ∧ p.deleted = false ∧
      p.parentPostId = none := by
  rw [topLevelPosts, List.mem_insertionSort, List.mem_filter, isTopLevel]
  simp [and_assoc]

variable (db : ForumTables) (topicId : String) (limit offset : Option ℤ) (postId : String)

theorem topLevelPosts_nodup : ((topLevelPosts db topicId).map (·.id)).Nodup :=
  (((List.perm_insertionSort _ _).map _).nodup_iff).mpr
    (db.posts.unique.sublist (List.filter_sublist.map _))

theorem pageLimit_pos : 0 < pageLimit limit := by
  rw [pageLimit]
  omega

theorem getThreadPage_topLevel (k : ℕ) :
    (getThreadPage db topicId limit (some ((k * pageLimit limit : ℕ) : ℤ))).topLevel =
      ((topLevelPosts db topicId).drop (k * pageLimit limit)).take (pageLimit limit) := by
  have hoffset : pageOffset (some ((k * pageLimit limit : ℕ) : ℤ)) = k * pageLimit limit := by
    rw [pageOffset, Option.getD_some]
    omega
  rw [getThreadPage, topLevelPage, hoffset]

theorem children_eq :
    (getThreadPage db topicId limit offset).children postId =
      (childRows db (getThreadPage db topicId limit offset).topLevel).filter
        fun p => p.parentPostId == some postId := by
  rw [ThreadPage.children, getThreadPage, getD_lookup_grouped]
  refine List.filter_congr fun p hp => ?_
  have hreply := (List.mem_filter.mp ((List.mem_insertionSort _).mp hp)).2
  rcases hparent : p.parentPostId with _ | parentId
  · rw [isReplyTo, hparent] at hreply
    cases hreply
  · simp

theorem mem_children {db : ForumTables} {topicId : String} {limit offset : Option ℤ}
    {top p : ForumPost} (htop : top ∈ (getThreadPage db topicId limit offset).topLevel) :
    p ∈ (getThreadPage db topicId limit offset).children top.id ↔
      p ∈ db.posts.rows ∧ p.deleted = false ∧ p.parentPostId = some top.id := by
  rw [children_eq, List.mem_filter, childRows, List.mem_insertionSort, List.mem_filter,
    beq_iff_eq, and_assoc]
  refine and_congr_right fun _ => ⟨fun ⟨hreply, hparent⟩ => ?_, fun ⟨hlive, hparent⟩ => ?_⟩
  · rw [isReplyTo, hparent] at hreply
    exact ⟨by simpa using (Bool.and_eq_true_iff.mp hreply).2, hparent⟩
  · refine ⟨?_, hparent⟩
    rw [isReplyTo, hparent]
    rw [Bool.and_eq_true, List.contains_iff_mem, hlive]
    exact ⟨List.mem_map_of_mem htop, rfl⟩

theorem children_nodup :
    (((getThreadPage db topicId limit offset).children postId).map (·.id)).Nodup := by
  rw [children_eq]
  refine List.Nodup.sublist (List.filter_sublist.map _) ?_
  exact (((List.perm_insertionSort _ _).map _).nodup_iff).mpr
    (db.posts.unique.sublist (List.filter_sublist.map _))

end DrepTalk
