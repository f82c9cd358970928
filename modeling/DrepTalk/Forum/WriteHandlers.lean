import DrepTalk.Forum.WriteMandate

/-!
# Writing in the forum

`handleCreateTopic`, `handleCreatePost`, `handleEditPost` and `handleEditTitle` of
`src/lib/forum/handlers.ts`, with `editPost` and `editTitle` of `src/lib/db/forum.ts`. A request
finds out by which rule its user may write, counts against the rate limit, checks what it was sent,
renders it and stores it. The four combine the same parts in different orders, and keep what they
have read for the statements behind.

A request is a process over the tables. The answer of the rate limiter, the rendered text, and ids
come from outside, and any statement may throw. Notifications and the documents of a post are
written beside, best effort, to tables that nothing here reads.
-/

namespace DrepTalk

/-! ### What a request is made with -/

structure CreateTopicInput where
  user : Option SessionUser
  categorySlug : Option JsonValue
  title : Option JsonValue
  bodyMd : Option JsonValue
  actAs : Option JsonValue
  now : ℤ

structure CreatePostInput where
  user : Option SessionUser
  topicId : String
  bodyMd : Option JsonValue
  parentPostId : Option JsonValue
  actAs : Option JsonValue
  now : ℤ

structure EditPostInput where
  user : Option SessionUser
  postId : String
  bodyMd : Option JsonValue
  now : ℤ

structure EditTitleInput where
  user : Option SessionUser
  topicId : String
  title : Option JsonValue
  now : ℤ

inductive ForumRequest
  | createTopic (input : CreateTopicInput)
  | createPost (input : CreatePostInput)
  | editPost (input : EditPostInput)
  | editTitle (input : EditTitleInput)

def ForumRequest.user : ForumRequest → Option SessionUser
  | .createTopic input => input.user
  | .createPost input => input.user
  | .editPost input => input.user
  | .editTitle input => input.user

/-! ### Categories and limits -/

inductive CategoryKind
  | governance
  | discussion
  | survey
  deriving DecidableEq

/-- `CATEGORIES`, by slug and kind. -/
def CATEGORIES : List (String × CategoryKind) :=
  [("governance-actions", .governance), ("proposal-drafts", .discussion),
    ("constitution", .discussion), ("budget", .discussion), ("general", .discussion),
    ("surveys", .survey)]

def getCategory (slug : String) : Option CategoryKind := CATEGORIES.lookup slug

def isDiscussion (slug : String) : Bool := getCategory slug == some .discussion

def POST_BODY_MAX : ℕ := 20000

def DRAFT_OPENING_BODY_MAX : ℕ := 150000

def maxPostBody (categorySlug : String) (isOpeningPost : Bool) : ℕ :=
  if isOpeningPost && categorySlug == PROPOSAL_DRAFTS_CATEGORY_SLUG then DRAFT_OPENING_BODY_MAX
  else POST_BODY_MAX

/-- `text.length`, in UTF-16 code units. -/
def jsLength (text : String) : ℕ :=
  (text.toList.map fun c => if c.toNat < 0x10000 then 1 else 2).sum

def bodyLengthError (bodyMax : ℕ) : HandlerResult :=
  .failed 400 ("body must be 1 to " ++ toString bodyMax ++ " characters")

def titleLengthError : HandlerResult := .failed 400 "title must be 3 to 200 characters"

/-- Whether a title has 3 to 200 characters. -/
def titleFits (title : String) : Bool := !(jsLength title < 3 || jsLength title > 200)

/-! ### Rows as edits read them -/

def TopicSource.text : TopicSource → String
  | .user => "user"
  | .governance => "governance"
  | .survey => "survey"

/-- `EditablePost`. -/
def ForumPost.editable (p : ForumPost) : PostRow where
  id := p.id
  topicId := p.topicId
  authorId := p.authorId
  parentPostId := p.parentPostId
  bodyMd := p.bodyMd
  bodyHtml := p.bodyHtml
  hidden := p.hidden
  editedAt := p.editedAt
  deleted := p.deleted
  createdAt := p.createdAt
  source := p.source
  proposerGrantId := p.proposerGrantId

/-- `EditableTopic`. -/
def ForumTopic.editable (t : ForumTopic) : TopicRow where
  id := t.id
  authorId := t.authorId
  source := t.source.text
  title := t.title
  slug := t.slug
  locked := t.locked
  deleted := t.deleted

def getPostForEdit (db : WriteDb) (postId : String) : Option ForumPost := db.gov.forum.post postId

def getTopicForEdit (db : WriteDb) (topicId : String) : Option ForumTopic :=
  db.gov.forum.topic topicId

/-- `getPostPlacement`: the category of the thread, and whether the post opens it. -/
def getPostPlacement (db : WriteDb) (postId : String) : Option (String × Bool) :=
  (db.gov.forum.post postId).bind fun p => (db.gov.forum.topic p.topicId).map fun t =>
    let opening := ((db.gov.forum.posts.rows.filter fun q =>
      q.topicId == t.id && q.authorId == t.authorId && q.parentPostId.isNone).insertionSort
        postedNotAfter).head?
    (t.categorySlug, opening.any fun q => q.id == postId)

/-! ### Errors -/

/-- The message of an error of `editPost`. -/
def EditError.message : EditError → String
  | .post_not_found => "post_not_found"
  | .not_owner => "not_owner"
  | .mandate_mismatch => "mandate_mismatch"
  | .frozen_rationale => "frozen_rationale"
  | .post_hidden => "post_hidden"
  | .topic_not_found => "topic_not_found"
  | .topic_locked => "topic_locked"

def editError (message : String) : HandlerResult :=
  if ["post_not_found", "topic_not_found"].contains message then .failed 404 message
  else if ["not_owner", "post_hidden", "topic_locked", "not_user_topic",
      "frozen_rationale"].contains message then .failed 403 message
  else if message = "mandate_mismatch" then .failed 403 "forbidden"
  else .failed 500 "internal error"

/-- What `handleCreatePost` makes of an error of `createPost`. -/
def createPostError : ThreadError → HandlerResult
  | .topic_locked => .failed 403 "topic_locked"
  | .topic_not_found => .failed 404 "topic_not_found"
  | .parent_not_found => .failed 404 "parent_not_found"
  | .constraint_failed => .failed 500 "internal error"

/-! ### Processes -/

/-- The arguments of `editTitle`. -/
structure EditTitleArgs where
  topicId : String
  authorId : String
  title : String
  now : ℤ
  ownWriter : Bool

/-- A request whose right to write is decided, with what it keeps of that. -/
inductive WriteTask
  | topic (input : CreateTopicInput) (proposerGrantId : Option String)
  | post (input : CreatePostInput) (proposerGrantId : Option String)
  | editPost (input : EditPostInput) (post : Option ForumPost)
  | editTitle (input : EditTitleInput) (topic : Option ForumTopic)

/-- A request, by what it is about to do, or its answer. -/
inductive WriteProc
  | received (request : ForumRequest)
  /-- A reply looks for the mandate in its topic. -/
  | mandate (user : SessionUser) (input : CreatePostInput) (topic : ForumTopic)
  /-- `ownWriterGate`. -/
  | gate (user : SessionUser) (task : WriteTask)
  /-- The edit of a stamped post looks for its grant. -/
  | grant (user : SessionUser) (input : EditPostInput) (post : ForumPost) (grantId : String)
  | rate (user : SessionUser) (task : WriteTask)
  | placement (user : SessionUser) (input : EditPostInput) (post : Option ForumPost)
      (bodyMd : String)
  /-- The text is good; mentions are resolved and it is rendered. -/
  | render (user : SessionUser) (task : WriteTask) (title bodyMd : String)
  | storeTopic (user : SessionUser) (input : CreateTopicInput) (proposerGrantId : Option String)
      (title bodyMd bodyHtml : String)
  | storePost (user : SessionUser) (proposerGrantId : Option String) (proc : CreateProc)
  | edit (user : SessionUser) (proc : EditProc)
  | titleRead (user : SessionUser) (args : EditTitleArgs)
  | titleGrant (user : SessionUser) (args : EditTitleArgs) (topic : ForumTopic) (grantId : String)
  | titleWrite (user : SessionUser) (args : EditTitleArgs) (topic : ForumTopic)
  | answered (result : HandlerResult)

/-- What comes in from outside a step. -/
inductive WriteEvent
  | statement
  | allowed (allowed : Bool)
  | rendered (bodyHtml : String) (ids : ThreadIds)
  | throws

def WriteProc.failed (status : ℕ) (error : String) : WriteProc := .answered (.failed status error)

/-- What follows a mandate: a write under a grant skips the writer's own rule. -/
def afterMandate (user : SessionUser) (task : Option String → WriteTask) :
    MandateResult → WriteProc
  | .own => .gate user (task none)
  | .grant grantId => .rate user (task (some grantId))
  | .choose_proposer => .failed 400 "choose_proposer"

/-- What follows the first statement of a request. -/
def writeReceived (db : WriteDb) (request : ForumRequest) : WriteProc :=
  match request.user with
  | none => .failed 401 "unauthorized"
  | some user =>
    match request with
    | .createTopic input =>
      afterMandate user (.topic input)
        (resolveTopicMandate db user.id (jsonText input.categorySlug) (parseActAs input.actAs))
    | .createPost input =>
      match (db.gov.forum.topic input.topicId).filter fun t => !t.deleted with
      | none => .failed 404 "topic_not_found"
      | some topic => .mandate user input topic
    | .editPost input =>
      match getPostForEdit db input.postId with
      | none => .gate user (.editPost input none)
      | some post =>
        match post.proposerGrantId with
        | none => .gate user (.editPost input (some post))
        | some grantId => .grant user input post grantId
    | .editTitle input =>
      let topic := getTopicForEdit db input.topicId
      if (topic.bind (·.proposerGrantId)).any (· != "") then .rate user (.editTitle input topic)
      else .gate user (.editTitle input topic)

/-- `ownWriterGate`, and what follows it. -/
def afterGate (db : WriteDb) (user : SessionUser) (task : WriteTask) : WriteProc :=
  if !isWriter user.roles then .failed 403 "forbidden"
  else if !drepActiveGate db user then
    .failed 403 "Your DRep registration has ended, so posting is disabled."
  else .rate user task

/-- How a call of `editPost` goes on, or what is made of its end. -/
def afterEdit (user : SessionUser) : EditProc → WriteProc
  | .returned edited => .answered ⟨200, .edited edited⟩
  | .threw error => .answered (editError error.message)
  | proc => .edit user proc

/-- The checks of `editTitle` behind the one on the mandate. -/
def titleChecked (user : SessionUser) (args : EditTitleArgs) (topic : ForumTopic)
    (stampedGrantActive : Bool) : WriteProc :=
  if !mayEditRow topic.proposerGrantId args.ownWriter stampedGrantActive then
    .answered (editError "mandate_mismatch")
  else if topic.locked then .answered (editError "topic_locked")
  else .titleWrite user args topic

/-- `editTitle`, once it has its row. -/
def titleFound (user : SessionUser) (args : EditTitleArgs) : Option ForumTopic → WriteProc
  | none => .answered (editError "topic_not_found")
  | some topic =>
    if topic.deleted then .answered (editError "topic_not_found")
    else if topic.source ≠ .user then .answered (editError "not_user_topic")
    else if topic.authorId ≠ args.authorId then .answered (editError "not_owner")
    else
      match topic.proposerGrantId.filter (· != "") with
      | some grantId => .titleGrant user args topic grantId
      | none => titleChecked user args topic false

/-- The checks of what was sent, behind the rate limit. -/
def writeChecked (user : SessionUser) : WriteTask → WriteProc
  | .topic input proposerGrantId =>
    let categorySlug := jsonText input.categorySlug
    let title := trimmed (jsonText input.title)
    let bodyMd := trimmed (jsonText input.bodyMd)
    let bodyMax := maxPostBody categorySlug true
    if (getCategory categorySlug).isNone then .failed 400 "unknown category"
    else if !isDiscussion categorySlug then .failed 403 "cannot post in this category"
    else if !titleFits title then .answered titleLengthError
    else if jsLength bodyMd = 0 ∨ jsLength bodyMd > bodyMax then .answered (bodyLengthError bodyMax)
    else .render user (.topic input proposerGrantId) title bodyMd
  | .post input proposerGrantId =>
    let bodyMd := trimmed (jsonText input.bodyMd)
    if jsLength bodyMd = 0 ∨ jsLength bodyMd > POST_BODY_MAX then
      .answered (bodyLengthError POST_BODY_MAX)
    else
      match input.parentPostId with
      | none | some .null | some (.string _) => .render user (.post input proposerGrantId) "" bodyMd
      | some _ => .failed 400 "invalid parent post id"
  | .editPost input post =>
    let bodyMd := trimmed (jsonText input.bodyMd)
    if jsLength bodyMd > POST_BODY_MAX then .placement user input post bodyMd
    else if jsLength bodyMd = 0 then .answered (bodyLengthError POST_BODY_MAX)
    else .render user (.editPost input post) "" bodyMd
  | .editTitle input topic =>
    let title := trimmed (jsonText input.title)
    let args : EditTitleArgs := ⟨input.topicId, user.id, title, input.now,
      !(topic.bind (·.proposerGrantId)).any (· != "")⟩
    if !titleFits title then .answered titleLengthError
    else
      match topic with
      | none => .titleRead user args
      | some topic => titleFound user args (some topic)

/-- What follows the placement of a post whose new body is long. -/
def afterPlacement (user : SessionUser) (input : EditPostInput) (post : Option ForumPost)
    (bodyMd : String) (placement : Option (String × Bool)) : WriteProc :=
  let bodyMax := (placement.map fun p => maxPostBody p.1 p.2).getD POST_BODY_MAX
  if jsLength bodyMd > bodyMax then .answered (bodyLengthError bodyMax)
  else .render user (.editPost input post) "" bodyMd

/-- What follows the rendering: the call that stores. -/
def writeRendered (user : SessionUser) (task : WriteTask) (title bodyMd bodyHtml : String)
    (ids : ThreadIds) : WriteProc :=
  match task with
  | .topic input proposerGrantId => .storeTopic user input proposerGrantId title bodyMd bodyHtml
  | .post input proposerGrantId =>
    .storePost user proposerGrantId (.lookup
      { topicId := input.topicId
        authorId := user.id
        bodyMd := bodyMd
        bodyHtml := bodyHtml
        now := input.now
        parentPostId := match input.parentPostId with
          | some (.string id) => some id
          | _ => none
        postId := ids.postId })
  | .editPost input post =>
    let grantId := post.bind (·.proposerGrantId)
    let args : EditArgs :=
      { postId := input.postId
        authorId := user.id
        bodyMd := bodyMd
        bodyHtml := bodyHtml
        now := input.now
        ownWriter := grantId.isNone
        stampedGrantActive := if grantId.isSome then some true else none }
    -- the row that the request has read stands in for the read of `editPost`
    match post with
    | none => .edit user (.read args)
    | some post => afterEdit user (editRead args (some post.editable))
  | .editTitle _ _ => .failed 500 "internal error"

/-! ### Statements -/

/-- What `handleCreateTopic` calls `createTopic` with. -/
def CreateTopicInput.args (slugify : String → String → String) (input : CreateTopicInput)
    (user : SessionUser) (proposerGrantId : Option String) (title bodyMd bodyHtml : String)
    (ids : ThreadIds) : CreateTopicArgs where
  topicId := ids.topicId
  postId := ids.postId
  slug := slugify title ids.rand
  categorySlug := jsonText input.categorySlug
  authorId := user.id
  title := title
  bodyMd := bodyMd
  bodyHtml := bodyHtml
  source := .user
  now := input.now
  postedAt := none
  proposerGrantId := proposerGrantId

/-- The write of `editPost`, silent or marked. -/
def writeBody (db : WriteDb) (args : EditArgs) (post : PostRow) : WriteDb :=
  let posts := db.gov.forum.posts.updateWhere (fun p => p.id == args.postId)
    (fun p => { p with
      bodyMd := args.bodyMd
      bodyHtml := args.bodyHtml
      editedAt := if args.marked post then some args.now else p.editedAt }) fun _ _ => rfl
  { db with
    gov := { db.gov with forum := { db.gov.forum with posts := posts } }
    revisions := if args.marked post then
      db.revisions ++ [⟨args.postId, post.bodyMd, post.bodyHtml, args.now, args.authorId⟩]
      else db.revisions }

/-- The write of `editTitle`. -/
def writeTitle (db : WriteDb) (args : EditTitleArgs) : WriteDb :=
  let topics := db.gov.forum.topics.updateWhere (fun t => t.id == args.topicId)
    (fun t => { t with title := args.title, titleEditedAt := some args.now }) (fun _ _ => rfl)
    fun _ _ => rfl
  { db with gov := { db.gov with forum := { db.gov.forum with topics := topics } } }

/-- The tables with others of the forum. -/
def WriteDb.withForum (db : WriteDb) (forum : ForumTables) : WriteDb :=
  { db with gov := { db.gov with forum := forum } }

/-- A call of `createPost` goes on. -/
def storePostStep (db : WriteDb) (user : SessionUser) (proposerGrantId : Option String)
    (proc : CreateProc) : Option (WriteDb × WriteProc) :=
  (createPostStep db.gov.forum proposerGrantId proc).map fun out =>
    (db.withForum out.1,
      match out.2 with
      | .returned postId => .answered ⟨201, .postId postId⟩
      | .threw error => .answered (createPostError error)
      | proc => .storePost user proposerGrantId proc)

/-- A call of `editPost` goes on. -/
def editPostStep (db : WriteDb) (user : SessionUser) : EditProc → Option (WriteDb × WriteProc)
  | .read args =>
    some (db, afterEdit user (editRead args ((getPostForEdit db args.postId).map (·.editable))))
  | .grant args post grantId =>
    some (db, afterEdit user
      (editChecked args post (isGrantActiveForUser db grantId args.authorId)))
  | .topic args post =>
    some (db, afterEdit user
      (editTopic args post ((db.gov.forum.topic post.topicId).map (·.editable))))
  | .write args post =>
    some (writeBody db args post, .answered ⟨200, .edited (args.marked post)⟩)
  | .returned _ | .threw _ => none

def writeStep (slugify : String → String → String) (event : WriteEvent) (db : WriteDb) :
    WriteProc → Option (WriteDb × WriteProc)
  | .answered _ => none
  | p =>
    match event, p with
    | .throws, _ => some (db, .failed 500 "internal error")
    | .statement, .received request => some (db, writeReceived db request)
    | .statement, .mandate user input topic =>
      some (db, afterMandate user (.post input)
        (resolvePostMandate db user.id topic (parseActAs input.actAs)))
    | .statement, .gate user task => some (db, afterGate db user task)
    | .statement, .grant user input post grantId =>
      some (db, if isGrantActiveForUser db grantId user.id then .rate user (.editPost input post)
        else .failed 403 "forbidden")
    | .allowed allowed, .rate user task =>
      some (db, if allowed then writeChecked user task else .failed 429 "rate_limited")
    | .statement, .placement user input post bodyMd =>
      some (db, afterPlacement user input post bodyMd (getPostPlacement db input.postId))
    | .rendered bodyHtml ids, .render user task title bodyMd =>
      some (db, writeRendered user task title bodyMd bodyHtml ids)
    | .rendered _ ids, .storeTopic user input proposerGrantId title bodyMd bodyHtml =>
      let args := input.args slugify user proposerGrantId title bodyMd bodyHtml ids
      match createTopic db.gov.forum args with
      | some forum => some (db.withForum forum, .answered ⟨201, .slug args.slug⟩)
      | none => some (db, .failed 500 "internal error")
    | .statement, .storePost user proposerGrantId proc =>
      storePostStep db user proposerGrantId proc
    | .statement, .edit user proc => editPostStep db user proc
    | .statement, .titleRead user args =>
      some (db, titleFound user args (getTopicForEdit db args.topicId))
    | .statement, .titleGrant user args topic grantId =>
      some (db, titleChecked user args topic (isGrantActiveForUser db grantId args.authorId))
    | .statement, .titleWrite _ args _ => some (writeTitle db args, .answered ⟨200, .ok⟩)
    | _, _ => none

end DrepTalk
