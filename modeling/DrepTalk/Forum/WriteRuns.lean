import DrepTalk.Forum.WriteHandlers
import DrepTalk.Grants.GrantRuns

/-!
# Who has written what

Any number of requests that write in the forum, interleaved with redemptions and revocations of
grants, withdrawn invites, and whatever else happens to the tables.

**Moments of a request.** A request decides by what it reads, and writes later. Beside it the run
records the tables as they were at each of its steps (`ServedWrite.moments`): what it may claim to
have seen, it has seen in one of them.

**The result** (`forum_writes_authorized`). A row that a request stores under a grant is stored in a
thread where the grant holds, and the grant was active for its author in one of the moments; one
without a grant, or an edit of it, had the writer's own rule in one. Nobody edits another's row, and
no row changes its grant. So a request that starts after a revocation has been answered writes
nothing under the grant.

Each part of a request hands on what it has found out: `WriteTask.Right` is what is known once the
right to write is decided, and `ServedWrite.Asserts` says it of all places in the code.
-/

namespace DrepTalk

/-! ### What a request has seen -/

/-- The writer's own rule held in one of the moments. -/
def OwnIn (moments : List WriteDb) (user : SessionUser) : Prop := ∃ m ∈ moments, OwnWriter user m

/-- A grant was active for the user in one of the moments. -/
def GrantedIn (moments : List WriteDb) (user : SessionUser) (grantId : String) : Prop :=
  ∃ m ∈ moments, isGrantActiveForUser m grantId user.id = true

/-- What a new row must have: under a grant, that it was active where it holds, else the writer's
own rule. -/
def StoredRight (moments : List WriteDb) (user : SessionUser) (place : WriteDb → String → Prop) :
    Option String → Prop
  | none => OwnIn moments user
  | some grantId => ∃ m ∈ moments, isGrantActiveForUser m grantId user.id = true ∧ place m grantId

/-- What an edit must have: the grant of a stamped row, else the writer's own rule. An empty id is
no stamp. -/
def EditedRight (moments : List WriteDb) (user : SessionUser) (stamp : Option String) : Prop :=
  match stamp.filter (· != "") with
  | none => OwnIn moments user
  | some grantId => GrantedIn moments user grantId

/-- The thread is one of Proposal Drafts. -/
def WriteDb.InDrafts (db : WriteDb) (topicId : String) : Prop :=
  ∃ t ∈ db.gov.forum.topics.rows, t.id = topicId ∧ t.categorySlug = PROPOSAL_DRAFTS_CATEGORY_SLUG

/-- Where a post may be stored under a grant. -/
def WriteDb.PostPlace (db : WriteDb) (topicId : String) (m : WriteDb) (grantId : String) : Prop :=
  db.InDrafts topicId ∨ m.IsThreadOf topicId grantId

/-- There is a topic of this author, with this stamp. -/
def WriteDb.HoldsTopic (db : WriteDb) (id authorId : String) (stamp : Option String) : Prop :=
  ∃ t ∈ db.gov.forum.topics.rows, t.id = id ∧ t.authorId = authorId ∧ t.proposerGrantId = stamp

/-- There is a post of this author, with this stamp. -/
def WriteDb.HoldsPost (db : WriteDb) (id authorId : String) (stamp : Option String) : Prop :=
  ∃ p ∈ db.gov.forum.posts.rows, p.id = id ∧ p.authorId = authorId ∧ p.proposerGrantId = stamp

/-- No topic or post goes, and none changes its author, its stamp or its category. -/
structure WriteDb.RowsKept (db db' : WriteDb) : Prop where
  topic : ∀ t ∈ db.gov.forum.topics.rows, ∃ t' ∈ db'.gov.forum.topics.rows, t'.id = t.id ∧
    t'.authorId = t.authorId ∧ t'.proposerGrantId = t.proposerGrantId ∧
      t'.categorySlug = t.categorySlug
  post : ∀ p ∈ db.gov.forum.posts.rows, ∃ p' ∈ db'.gov.forum.posts.rows, p'.id = p.id ∧
    p'.authorId = p.authorId ∧ p'.proposerGrantId = p.proposerGrantId

/-- A step that writes as it should, for the user and the moments of a request. -/
structure WriteRight (user : Option SessionUser) (moments : List WriteDb) (db db' : WriteDb) :
    Prop where
  topic : ∀ t' ∈ db'.gov.forum.topics.rows,
    (∃ t ∈ db.gov.forum.topics.rows, t.id = t'.id ∧ t.proposerGrantId = t'.proposerGrantId ∧
      (t'.title = t.title ∨ ∃ u ∈ user, t.authorId = u.id ∧
        EditedRight moments u t.proposerGrantId)) ∨
    ∃ u ∈ user, t'.authorId = u.id ∧ StoredRight moments u
      (fun _ _ => t'.categorySlug = PROPOSAL_DRAFTS_CATEGORY_SLUG) t'.proposerGrantId
  post : ∀ p' ∈ db'.gov.forum.posts.rows,
    (∃ p ∈ db.gov.forum.posts.rows, p.id = p'.id ∧ p.proposerGrantId = p'.proposerGrantId ∧
      (p'.bodyMd = p.bodyMd ∧ p'.bodyHtml = p.bodyHtml ∨ ∃ u ∈ user, p.authorId = u.id ∧
        EditedRight moments u p.proposerGrantId)) ∨
    ∃ u ∈ user, p'.authorId = u.id ∧
      StoredRight moments u (db'.PostPlace p'.topicId) p'.proposerGrantId

/-! ### What a request knows -/

/-- What is known once the right to write is decided. -/
def WriteTask.Right (db : WriteDb) (moments : List WriteDb) (user : SessionUser) :
    WriteTask → Prop
  | .topic input stamp => StoredRight moments user
      (fun _ _ => jsonText input.categorySlug = PROPOSAL_DRAFTS_CATEGORY_SLUG) stamp
  | .post input stamp => StoredRight moments user (db.PostPlace input.topicId) stamp
  | .editPost _ none => OwnIn moments user
  | .editPost input (some row) =>
    db.HoldsPost input.postId row.authorId row.proposerGrantId ∧ row.id = input.postId ∧
      match row.proposerGrantId with
      | none => OwnIn moments user
      | some grantId => GrantedIn moments user grantId
  | .editTitle input row =>
    (∀ t ∈ row, t.id = input.topicId ∧ db.HoldsTopic input.topicId t.authorId t.proposerGrantId) ∧
      ((row.bind (·.proposerGrantId)).filter (· != "") = none → OwnIn moments user)

/-- What is known at the statements of `editPost`. -/
def EditKnown (db : WriteDb) (moments : List WriteDb) (user : SessionUser) : EditProc → Prop
  | .read args => args.authorId = user.id ∧ args.stampedGrantActive = none ∧ OwnIn moments user
  | .grant args post grantId => args.authorId = user.id ∧ post.authorId = user.id ∧
      db.HoldsPost args.postId user.id post.proposerGrantId ∧
        post.proposerGrantId.filter (· != "") = some grantId
  | .topic args post | .write args post => args.authorId = user.id ∧ post.authorId = user.id ∧
      db.HoldsPost args.postId user.id post.proposerGrantId ∧
        EditedRight moments user post.proposerGrantId
  | .returned _ | .threw _ => True

/-- What is known at the batches of `createPost`. -/
def StoreKnown (db : WriteDb) (moments : List WriteDb) (user : SessionUser) (stamp : Option String) :
    CreateProc → Prop
  | .lookup args | .insert args _ => args.authorId = user.id ∧
      StoredRight moments user (db.PostPlace args.topicId) stamp
  | .returned _ | .threw _ => True

/-- A request, with the tables at each of its steps so far. -/
structure ServedWrite where
  user : Option SessionUser
  proc : WriteProc
  moments : List WriteDb

/-- What a request knows, where it stands. -/
def ServedWrite.Asserts (db : WriteDb) (s : ServedWrite) : Prop :=
  (∀ u ∈ s.user, u.roles.Nodup) ∧
  match s.proc with
  | .received request => request.user = s.user
  | .mandate user input topic => s.user = some user ∧ topic.id = input.topicId ∧
      (topic.categorySlug = PROPOSAL_DRAFTS_CATEGORY_SLUG → db.InDrafts topic.id)
  | .gate user task => s.user = some user ∧
      ∀ moments, OwnIn moments user → task.Right db moments user
  | .grant user input post grantId => s.user = some user ∧ post.proposerGrantId = some grantId ∧
      post.id = input.postId ∧ db.HoldsPost input.postId post.authorId post.proposerGrantId
  | .rate user task | .render user task _ _ => s.user = some user ∧ task.Right db s.moments user
  | .placement user input post _ => s.user = some user ∧
      (WriteTask.editPost input post).Right db s.moments user
  | .storeTopic user input stamp _ _ _ => s.user = some user ∧
      (WriteTask.topic input stamp).Right db s.moments user
  | .storePost user stamp proc => s.user = some user ∧ StoreKnown db s.moments user stamp proc
  | .edit user proc => s.user = some user ∧ EditKnown db s.moments user proc
  | .titleRead user args => s.user = some user ∧ args.authorId = user.id ∧ OwnIn s.moments user
  | .titleGrant user args topic grantId => s.user = some user ∧ args.authorId = user.id ∧
      topic.authorId = user.id ∧ topic.proposerGrantId.filter (· != "") = some grantId ∧
        db.HoldsTopic args.topicId user.id topic.proposerGrantId
  | .titleWrite user args topic => s.user = some user ∧
      db.HoldsTopic args.topicId user.id topic.proposerGrantId ∧
        EditedRight s.moments user topic.proposerGrantId
  | .answered _ => True

section Monotone

variable {db db' : WriteDb} {moments moments' : List WriteDb} {user : SessionUser}

theorem OwnIn.mono (h : OwnIn moments user) (hsub : moments ⊆ moments') : OwnIn moments' user :=
  h.imp fun _ ⟨hm, hown⟩ => ⟨hsub hm, hown⟩

theorem GrantedIn.mono {grantId : String} (h : GrantedIn moments user grantId)
    (hsub : moments ⊆ moments') : GrantedIn moments' user grantId :=
  h.imp fun _ ⟨hm, hactive⟩ => ⟨hsub hm, hactive⟩

variable {stamp : Option String} {task : WriteTask} {args : EditTitleArgs} {event : WriteEvent}

theorem EditedRight.mono (h : EditedRight moments user stamp) (hsub : moments ⊆ moments') :
    EditedRight moments' user stamp := by
  rw [EditedRight] at h ⊢
  split at h <;> exact h.mono hsub

theorem StoredRight.mono {place place' : WriteDb → String → Prop}
    (h : StoredRight moments user place stamp) (hsub : moments ⊆ moments')
    (hplace : ∀ m grantId, place m grantId → place' m grantId) :
    StoredRight moments' user place' stamp := by
  rcases stamp with _ | grantId
  · exact OwnIn.mono h hsub
  · obtain ⟨m, hm, hactive, hat⟩ := h
    exact ⟨m, hsub hm, hactive, hplace m grantId hat⟩

namespace WriteDb.RowsKept

theorem refl (db : WriteDb) : db.RowsKept db :=
  ⟨fun t ht => ⟨t, ht, rfl, rfl, rfl, rfl⟩, fun p hp => ⟨p, hp, rfl, rfl, rfl⟩⟩

theorem trans {db'' : WriteDb} (h : db.RowsKept db') (h' : db'.RowsKept db'') :
    db.RowsKept db'' := by
  refine ⟨fun t ht => ?_, fun p hp => ?_⟩
  · obtain ⟨t', ht', hid, hauthor, hstamp, hslug⟩ := h.topic t ht
    obtain ⟨t'', ht'', hid', hauthor', hstamp', hslug'⟩ := h'.topic t' ht'
    exact ⟨t'', ht'', hid'.trans hid, hauthor'.trans hauthor, hstamp'.trans hstamp,
      hslug'.trans hslug⟩
  · obtain ⟨p', hp', hid, hauthor, hstamp⟩ := h.post p hp
    obtain ⟨p'', hp'', hid', hauthor', hstamp'⟩ := h'.post p' hp'
    exact ⟨p'', hp'', hid'.trans hid, hauthor'.trans hauthor, hstamp'.trans hstamp⟩

variable {id authorId topicId : String}

theorem holdsTopic (h : db.RowsKept db') (hholds : db.HoldsTopic id authorId stamp) :
    db'.HoldsTopic id authorId stamp := by
  obtain ⟨t, ht, rfl, rfl, rfl⟩ := hholds
  obtain ⟨t', ht', hid, hauthor, hstamp, -⟩ := h.topic t ht
  exact ⟨t', ht', hid, hauthor, hstamp⟩

theorem holdsPost (h : db.RowsKept db') (hholds : db.HoldsPost id authorId stamp) :
    db'.HoldsPost id authorId stamp := by
  obtain ⟨p, hp, rfl, rfl, rfl⟩ := hholds
  obtain ⟨p', hp', hid, hauthor, hstamp⟩ := h.post p hp
  exact ⟨p', hp', hid, hauthor, hstamp⟩

theorem inDrafts (h : db.RowsKept db') (hdrafts : db.InDrafts topicId) : db'.InDrafts topicId := by
  obtain ⟨t, ht, rfl, hslug⟩ := hdrafts
  obtain ⟨t', ht', hid, -, -, hslug'⟩ := h.topic t ht
  exact ⟨t', ht', hid, hslug'.trans hslug⟩

theorem postPlace (h : db.RowsKept db') (m : WriteDb) (grantId : String)
    (hplace : db.PostPlace topicId m grantId) : db'.PostPlace topicId m grantId :=
  hplace.imp_left h.inDrafts

end WriteDb.RowsKept

theorem WriteTask.Right.mono (h : task.Right db moments user) (hkept : db.RowsKept db')
    (hsub : moments ⊆ moments') : task.Right db' moments' user := by
  rcases task with ⟨input, stamp⟩ | ⟨input, stamp⟩ | ⟨input, _ | post⟩ | ⟨input, topic⟩
  · exact StoredRight.mono h hsub fun _ _ => id
  · exact StoredRight.mono h hsub hkept.postPlace
  · exact OwnIn.mono h hsub
  · obtain ⟨hholds, hid, hright⟩ := h
    refine ⟨hkept.holdsPost hholds, hid, ?_⟩
    split at hright
    · exact hright.mono hsub
    · exact hright.mono hsub
  · exact ⟨fun t ht => ⟨(h.1 t ht).1, hkept.holdsTopic (h.1 t ht).2⟩,
      fun hnone => (h.2 hnone).mono hsub⟩

theorem EditKnown.mono {proc : EditProc} (h : EditKnown db moments user proc)
    (hkept : db.RowsKept db') (hsub : moments ⊆ moments') : EditKnown db' moments' user proc := by
  rcases proc with args | ⟨args, post, grantId⟩ | ⟨args, post⟩ | ⟨args, post⟩ | _ | _
  · exact ⟨h.1, h.2.1, h.2.2.mono hsub⟩
  · exact ⟨h.1, h.2.1, hkept.holdsPost h.2.2.1, h.2.2.2⟩
  · exact ⟨h.1, h.2.1, hkept.holdsPost h.2.2.1, h.2.2.2.mono hsub⟩
  · exact ⟨h.1, h.2.1, hkept.holdsPost h.2.2.1, h.2.2.2.mono hsub⟩
  · trivial
  · trivial

theorem StoreKnown.mono {proc : CreateProc} (h : StoreKnown db moments user stamp proc)
    (hkept : db.RowsKept db') (hsub : moments ⊆ moments') :
    StoreKnown db' moments' user stamp proc := by
  rcases proc with args | ⟨args, parentId⟩ | _ | _
  · exact ⟨h.1, StoredRight.mono h.2 hsub hkept.postPlace⟩
  · exact ⟨h.1, StoredRight.mono h.2 hsub hkept.postPlace⟩
  · trivial
  · trivial

theorem ServedWrite.Asserts.mono {s : ServedWrite} (h : s.Asserts db) (hkept : db.RowsKept db') :
    s.Asserts db' := by
  obtain ⟨user, proc, moments⟩ := s
  obtain ⟨hroles, h⟩ := h
  refine ⟨hroles, ?_⟩
  cases proc with
  | received | answered => exact h
  | mandate => exact ⟨h.1, h.2.1, fun hslug => hkept.inDrafts (h.2.2 hslug)⟩
  | gate => exact ⟨h.1, fun ms hown => (h.2 ms hown).mono hkept fun _ => id⟩
  | grant => exact ⟨h.1, h.2.1, h.2.2.1, hkept.holdsPost h.2.2.2⟩
  | rate | render | placement | storeTopic => exact ⟨h.1, h.2.mono hkept fun _ => id⟩
  | storePost => exact ⟨h.1, StoreKnown.mono h.2 hkept fun _ => id⟩
  | edit => exact ⟨h.1, EditKnown.mono h.2 hkept fun _ => id⟩
  | titleRead => exact h
  | titleGrant => exact ⟨h.1, h.2.1, h.2.2.1, h.2.2.2.1, hkept.holdsTopic h.2.2.2.2⟩
  | titleWrite => exact ⟨h.1, hkept.holdsTopic h.2.1, h.2.2⟩

end Monotone

/-! ### What each part finds out -/

section Parts

variable {db : WriteDb} {moments : List WriteDb} {su : Option SessionUser} {user : SessionUser}

theorem asserts_answered (hroles : ∀ u ∈ su, u.roles.Nodup) (result : HandlerResult) :
    ServedWrite.Asserts db ⟨su, .answered result, moments⟩ := ⟨hroles, trivial⟩

variable {actAs : Option ActAs} {topic : ForumTopic} {row : PostRow}

theorem resolveTopicMandate_grant {userId slug grantId : String}
    (h : resolveTopicMandate db userId slug actAs = .grant grantId) :
    isGrantActiveForUser db grantId userId = true ∧ slug = PROPOSAL_DRAFTS_CATEGORY_SLUG := by
  rw [resolveTopicMandate] at h
  split_ifs at h with hslug
  exact ⟨resolveDraftMandate_active h, hslug⟩

theorem resolvePostMandate_grant {userId grantId : String}
    (h : resolvePostMandate db userId topic actAs = .grant grantId) :
    isGrantActiveForUser db grantId userId = true ∧
      (topic.categorySlug = PROPOSAL_DRAFTS_CATEGORY_SLUG ∨ db.IsThreadOf topic.id grantId) := by
  rw [resolvePostMandate] at h
  split_ifs at h with hslug
  · exact ⟨resolveDraftMandate_active h, .inl hslug⟩
  · obtain ⟨hactive, hthread⟩ := getActiveGrantIdForTopic_active (MandateResult.of_eq_grant h)
    exact ⟨hactive, .inr hthread⟩

theorem afterMandate_asserts {task : Option String → WriteTask} {result : MandateResult}
    (hroles : ∀ u ∈ su, u.roles.Nodup) (hu : su = some user)
    (hown : ∀ moments, OwnIn moments user → (task none).Right db moments user)
    (hgrant : ∀ grantId, result = .grant grantId → (task (some grantId)).Right db moments user) :
    ServedWrite.Asserts db ⟨su, afterMandate user task result, moments⟩ := by
  rcases result with _ | grantId | _
  · exact ⟨hroles, hu, hown⟩
  · exact ⟨hroles, hu, hgrant grantId rfl⟩
  · exact asserts_answered hroles _

theorem afterGate_asserts (hroles : ∀ u ∈ su, u.roles.Nodup) (hu : su = some user)
    (hmem : db ∈ moments) (hown : OwnIn moments user → task.Right db moments user) :
    ServedWrite.Asserts db ⟨su, afterGate db user task, moments⟩ := by
  rw [afterGate]
  split_ifs with hwriter hgate
  · exact asserts_answered hroles _
  · exact asserts_answered hroles _
  · rw [Bool.not_eq_true', Bool.not_eq_false] at hwriter hgate
    exact ⟨hroles, hu, hown ⟨db, hmem, ownWriter_of_gates (hroles user hu) hwriter hgate⟩⟩

variable {own active : Bool}

theorem mayEditRow_of_stamp {grantId : String} (h : stamp.filter (· != "") = some grantId) :
    mayEditRow stamp own active = active := by
  obtain ⟨rfl, hne⟩ := Option.filter_eq_some_iff.mp h
  rw [mayEditRow, Option.any_some, if_pos hne]

theorem mayEditRow_of_unstamped (h : stamp.filter (· != "") = none) :
    mayEditRow stamp own active = own := by
  rw [mayEditRow, if_neg]
  intro hany
  rcases stamp with _ | grantId
  · cases hany
  · exact absurd h (by simpa [Option.filter] using hany)

theorem editedRight_of_unstamped (h : stamp.filter (· != "") = none) (hown : OwnIn moments user) :
    EditedRight moments user stamp := by
  rw [EditedRight, h]
  exact hown

theorem editedRight_of_stamp {grantId : String} (h : stamp.filter (· != "") = some grantId)
    (hgrant : GrantedIn moments user grantId) : EditedRight moments user stamp := by
  rw [EditedRight, h]
  exact hgrant

/-! #### Bodies -/

theorem afterEdit_asserts {proc : EditProc} (hroles : ∀ u ∈ su, u.roles.Nodup)
    (hu : su = some user) (h : EditKnown db moments user proc) :
    ServedWrite.Asserts db ⟨su, afterEdit user proc, moments⟩ := by
  cases proc with
  | read | grant | topic | write => exact ⟨hroles, hu, h⟩
  | returned | threw => exact asserts_answered hroles _

theorem editChecked_known {args : EditArgs} (hargs : args.authorId = user.id)
    (hrow : row.authorId = user.id) (hholds : db.HoldsPost args.postId user.id row.proposerGrantId)
    (hright : mayEditRow row.proposerGrantId args.ownWriter active = true →
      EditedRight moments user row.proposerGrantId) :
    EditKnown db moments user (editChecked args row active) := by
  rw [editChecked]
  split_ifs with hmay
  · trivial
  · trivial
  · trivial
  · rw [Bool.not_eq_true', Bool.not_eq_false] at hmay
    exact ⟨hargs, hrow, hholds, hright hmay⟩

theorem editRead_known {args : EditArgs} (hargs : args.authorId = user.id)
    (hholds : db.HoldsPost args.postId row.authorId row.proposerGrantId)
    (hown : row.proposerGrantId.filter (· != "") = none → args.ownWriter = true →
      OwnIn moments user) (hknown : ∀ grantId, row.proposerGrantId.filter (· != "") = some grantId →
      args.stampedGrantActive = some true → GrantedIn moments user grantId) :
    EditKnown db moments user (editRead args (some row)) := by
  simp only [editRead]
  split_ifs with hdeleted hauthor
  · trivial
  · trivial
  · rw [ne_eq, not_not] at hauthor
    rw [hauthor, hargs] at hholds
    rcases hstamp : row.proposerGrantId.filter (· != "") with _ | grantId
    · refine editChecked_known hargs (hauthor.trans hargs) hholds fun hmay => ?_
      rw [mayEditRow_of_unstamped hstamp] at hmay
      exact editedRight_of_unstamped hstamp (hown hstamp hmay)
    · rcases hactive : args.stampedGrantActive with _ | active
      · exact ⟨hargs, hauthor.trans hargs, hholds, hstamp⟩
      · refine editChecked_known hargs (hauthor.trans hargs) hholds fun hmay => ?_
        rw [mayEditRow_of_stamp hstamp] at hmay
        exact editedRight_of_stamp hstamp (hknown grantId hstamp (hmay ▸ hactive))

theorem editTopic_known {args : EditArgs} {topic : Option TopicRow}
    (h : EditKnown db moments user (.topic args row)) :
    EditKnown db moments user (editTopic args row topic) := by
  rcases topic with _ | topic
  · trivial
  · simp only [editTopic]
    split_ifs
    · trivial
    · trivial
    · exact h

/-! #### Titles -/

theorem titleChecked_asserts (hroles : ∀ u ∈ su, u.roles.Nodup) (hu : su = some user)
    (hholds : db.HoldsTopic args.topicId user.id topic.proposerGrantId)
    (hright : mayEditRow topic.proposerGrantId args.ownWriter active = true →
      EditedRight moments user topic.proposerGrantId) :
    ServedWrite.Asserts db ⟨su, titleChecked user args topic active, moments⟩ := by
  rw [titleChecked]
  split_ifs with hmay
  · exact asserts_answered hroles _
  · exact asserts_answered hroles _
  · rw [Bool.not_eq_true', Bool.not_eq_false] at hmay
    exact ⟨hroles, hu, hholds, hright hmay⟩

theorem titleFound_asserts {topic : Option ForumTopic} (hroles : ∀ u ∈ su, u.roles.Nodup)
    (hu : su = some user) (hargs : args.authorId = user.id)
    (hholds : ∀ t ∈ topic, db.HoldsTopic args.topicId t.authorId t.proposerGrantId)
    (hown : ∀ t ∈ topic, t.proposerGrantId.filter (· != "") = none → OwnIn moments user) :
    ServedWrite.Asserts db ⟨su, titleFound user args topic, moments⟩ := by
  rcases topic with _ | topic
  · exact asserts_answered hroles _
  · have hholds := hholds topic rfl
    simp only [titleFound]
    split_ifs with hdeleted hsource hauthor
    · exact asserts_answered hroles _
    · exact asserts_answered hroles _
    · exact asserts_answered hroles _
    · rw [ne_eq, not_not] at hauthor
      rw [hauthor, hargs] at hholds
      rcases hstamp : topic.proposerGrantId.filter (· != "") with _ | grantId
      · exact titleChecked_asserts hroles hu hholds fun _ =>
          editedRight_of_unstamped hstamp (hown topic rfl hstamp)
      · exact ⟨hroles, hu, hargs, hauthor.trans hargs, hstamp, hholds⟩

/-! #### Requests -/

theorem writeReceived_asserts {request : ForumRequest} (hroles : ∀ u ∈ su, u.roles.Nodup)
    (hrequest : request.user = su) (hmem : db ∈ moments) :
    ServedWrite.Asserts db ⟨su, writeReceived db request, moments⟩ := by
  rw [writeReceived, hrequest]
  rcases su with _ | user
  · exact asserts_answered hroles _
  · rcases request with input | input | input | input
    · refine afterMandate_asserts hroles rfl (fun _ hown => hown) fun grantId hgrant => ?_
      obtain ⟨hactive, hslug⟩ := resolveTopicMandate_grant hgrant
      exact ⟨db, hmem, hactive, hslug⟩
    · dsimp only
      split
      · exact asserts_answered hroles _
      · rename_i topic htopic
        have hfound := (Option.filter_eq_some_iff.mp htopic).1
        have hid := List.find?_some hfound
        exact ⟨hroles, rfl, beq_iff_eq.mp hid, fun hslug =>
          ⟨topic, List.mem_of_find?_eq_some hfound, rfl, hslug⟩⟩
    · dsimp only
      split
      · exact ⟨hroles, rfl, fun _ hown => hown⟩
      · rename_i post hpost
        have hid := List.find?_some hpost
        have hholds : db.HoldsPost input.postId post.authorId post.proposerGrantId :=
          ⟨post, List.mem_of_find?_eq_some hpost, beq_iff_eq.mp hid, rfl, rfl⟩
        split
        · rename_i hstamp
          refine ⟨hroles, rfl, fun _ hown => ⟨hholds, beq_iff_eq.mp hid, ?_⟩⟩
          rw [hstamp]
          exact hown
        · rename_i grantId hstamp
          exact ⟨hroles, rfl, hstamp, beq_iff_eq.mp hid, hholds⟩
    · dsimp only
      have hholds : ∀ t ∈ getTopicForEdit db input.topicId, t.id = input.topicId ∧
          db.HoldsTopic input.topicId t.authorId t.proposerGrantId := by
        intro t ht
        have hid := List.find?_some ht
        exact ⟨beq_iff_eq.mp hid, t, List.mem_of_find?_eq_some ht, beq_iff_eq.mp hid, rfl, rfl⟩
      split_ifs with hstamped
      · refine ⟨hroles, rfl, hholds, fun hnone => ?_⟩
        rcases hstamp : (getTopicForEdit db input.topicId).bind (·.proposerGrantId) with _ | grantId
        · rw [hstamp] at hstamped
          cases hstamped
        · rw [hstamp, Option.any_some] at hstamped
          rw [hstamp, Option.filter_some, if_pos hstamped] at hnone
          cases hnone
      · exact ⟨hroles, rfl, fun _ hown => ⟨hholds, fun _ => hown⟩⟩

theorem writeChecked_asserts (hroles : ∀ u ∈ su, u.roles.Nodup) (hu : su = some user)
    (h : task.Right db moments user) :
    ServedWrite.Asserts db ⟨su, writeChecked user task, moments⟩ := by
  rcases task with ⟨input, stamp⟩ | ⟨input, stamp⟩ | ⟨input, post⟩ | ⟨input, topic⟩
  · simp only [writeChecked]
    split_ifs
    all_goals first
      | exact asserts_answered hroles _
      | exact ⟨hroles, hu, h⟩
  · simp only [writeChecked]
    split_ifs
    · exact asserts_answered hroles _
    · split
      all_goals first
        | exact ⟨hroles, hu, h⟩
        | exact asserts_answered hroles _
  · simp only [writeChecked]
    split_ifs
    · exact ⟨hroles, hu, h⟩
    · exact asserts_answered hroles _
    · exact ⟨hroles, hu, h⟩
  · simp only [writeChecked]
    split_ifs
    · exact asserts_answered hroles _
    · rcases topic with _ | topic
      · exact ⟨hroles, hu, rfl, h.2 rfl⟩
      · refine titleFound_asserts hroles hu rfl (fun t ht => (h.1 t ht).2) fun t ht hstamp => ?_
        cases ht
        exact h.2 hstamp

theorem afterPlacement_asserts {input : EditPostInput} {post : Option ForumPost} {bodyMd : String}
    {placement : Option (String × Bool)} (hroles : ∀ u ∈ su, u.roles.Nodup) (hu : su = some user)
    (h : (WriteTask.editPost input post).Right db moments user) :
    ServedWrite.Asserts db ⟨su, afterPlacement user input post bodyMd placement, moments⟩ := by
  simp only [afterPlacement]
  split_ifs
  · exact asserts_answered hroles _
  · exact ⟨hroles, hu, h⟩

theorem writeRendered_asserts {title bodyMd bodyHtml : String} {ids : ThreadIds}
    (hroles : ∀ u ∈ su, u.roles.Nodup) (hu : su = some user) (h : task.Right db moments user) :
    ServedWrite.Asserts db ⟨su, writeRendered user task title bodyMd bodyHtml ids, moments⟩ := by
  rcases task with ⟨input, stamp⟩ | ⟨input, stamp⟩ | ⟨input, _ | post⟩ | ⟨input, topic⟩
  · exact ⟨hroles, hu, h⟩
  · exact ⟨hroles, hu, rfl, h⟩
  · exact ⟨hroles, hu, rfl, rfl, h⟩
  · obtain ⟨hholds, -, hright⟩ := h
    refine afterEdit_asserts hroles hu (editRead_known rfl hholds (fun _ hown => ?_)
      fun grantId hstamp hactive => ?_)
    · -- a row is edited as one's own only without any stamp
      rcases hstamp : post.proposerGrantId with _ | grantId
      · rw [hstamp] at hright
        exact hright
      · simp [hstamp] at hown
    · have hsome : post.proposerGrantId = some grantId := (Option.filter_eq_some_iff.mp hstamp).1
      rw [hsome] at hright
      exact hright
  · exact asserts_answered hroles _

end Parts

/-! ### What the writes do -/

section Writes

variable {db db' : WriteDb} {moments : List WriteDb} {su : Option SessionUser} {user : SessionUser}

theorem WriteRight.refl (user : Option SessionUser) (moments : List WriteDb) (db : WriteDb) :
    WriteRight user moments db db :=
  ⟨fun t ht => .inl ⟨t, ht, rfl, rfl, .inl rfl⟩,
    fun p hp => .inl ⟨p, hp, rfl, rfl, .inl ⟨rfl, rfl⟩⟩⟩

theorem writeBody_kept (db : WriteDb) (args : EditArgs) (post : PostRow) :
    db.RowsKept (writeBody db args post) :=
  ⟨(WriteDb.RowsKept.refl db).topic, fun _ hp =>
    Table.exists_mem_updateWhere hp (fun _ => ⟨rfl, rfl, rfl⟩) fun _ => ⟨rfl, rfl, rfl⟩⟩

theorem writeBody_right {args : EditArgs} {post : PostRow} (hu : su = some user)
    (hholds : db.HoldsPost args.postId user.id post.proposerGrantId)
    (hright : EditedRight moments user post.proposerGrantId) :
    WriteRight su moments db (writeBody db args post) := by
  refine ⟨(WriteRight.refl su moments db).topic, fun p' hp' => .inl ?_⟩
  rcases Table.mem_updateWhere.mp hp' with ⟨hp, -⟩ | ⟨p, hp, hid, rfl⟩
  · exact ⟨p', hp, rfl, rfl, .inl ⟨rfl, rfl⟩⟩
  · obtain ⟨q, hq, hqid, hauthor, hstamp⟩ := hholds
    obtain rfl := db.gov.forum.posts.eq_of_key hq hp (hqid.trans (beq_iff_eq.mp hid).symm)
    exact ⟨q, hq, rfl, rfl, .inr ⟨user, hu, hauthor, hstamp ▸ hright⟩⟩

theorem writeTitle_kept (db : WriteDb) (args : EditTitleArgs) : db.RowsKept (writeTitle db args) :=
  ⟨fun _ ht => Table.exists_mem_updateWhere ht (fun _ => ⟨rfl, rfl, rfl, rfl⟩) fun _ =>
    ⟨rfl, rfl, rfl, rfl⟩, (WriteDb.RowsKept.refl db).post⟩

theorem writeTitle_right (hu : su = some user) (hholds : db.HoldsTopic args.topicId user.id stamp)
    (hright : EditedRight moments user stamp) : WriteRight su moments db (writeTitle db args) := by
  refine ⟨fun t' ht' => .inl ?_, fun p hp => .inl ⟨p, hp, rfl, rfl, .inl ⟨rfl, rfl⟩⟩⟩
  rcases Table.mem_updateWhere.mp ht' with ⟨ht, -⟩ | ⟨t, ht, hid, rfl⟩
  · exact ⟨t', ht, rfl, rfl, .inl rfl⟩
  · obtain ⟨q, hq, hqid, hauthor, hstamp⟩ := hholds
    obtain rfl := db.gov.forum.topics.eq_of_key hq ht (hqid.trans (beq_iff_eq.mp hid).symm)
    exact ⟨q, hq, rfl, rfl, .inr ⟨user, hu, hauthor, hstamp ▸ hright⟩⟩

variable {forum : ForumTables}

theorem createTopic_posts {forum' : ForumTables} {args : CreateTopicArgs}
    (h : createTopic forum args = some forum') :
    forum'.posts = forum.posts.insertOrIgnore args.firstPost := by
  rw [createTopic] at h
  dsimp only at h
  split_ifs at h
  rw [← Option.some.inj h]

theorem createTopic_right {args : CreateTopicArgs} (h : createTopic db.gov.forum args = some forum)
    (hu : su = some user) (hauthor : args.authorId = user.id) (hright : StoredRight moments user
      (fun _ _ => args.categorySlug = PROPOSAL_DRAFTS_CATEGORY_SLUG) args.proposerGrantId) :
    db.RowsKept (db.withForum forum) ∧ WriteRight su moments db (db.withForum forum) := by
  obtain ⟨htopics, -⟩ := createTopic_topics h
  have hposts := createTopic_posts h
  have hnew : args.topic ∈ (db.withForum forum).gov.forum.topics.rows := by
    change args.topic ∈ forum.topics.rows
    rw [htopics]
    exact List.mem_append_right _ (List.mem_singleton.mpr rfl)
  refine ⟨⟨fun t ht => ⟨t, ?_, rfl, rfl, rfl, rfl⟩, fun p hp => ⟨p, ?_, rfl, rfl, rfl⟩⟩,
    fun t ht => ?_, fun p hp => ?_⟩
  · change t ∈ forum.topics.rows
    rw [htopics]
    exact List.mem_append_left _ ht
  · change p ∈ forum.posts.rows
    rw [hposts]
    exact KeyedTable.mem_insertOrIgnore.mpr (.inl hp)
  · change t ∈ forum.topics.rows at ht
    rw [htopics, List.mem_append, List.mem_singleton] at ht
    rcases ht with ht | rfl
    · exact .inl ⟨t, ht, rfl, rfl, .inl rfl⟩
    · exact .inr ⟨user, hu, hauthor, hright⟩
  · change p ∈ forum.posts.rows at hp
    rw [hposts] at hp
    rcases KeyedTable.mem_insertOrIgnore.mp hp with hp | ⟨rfl, -⟩
    · exact .inl ⟨p, hp, rfl, rfl, .inl ⟨rfl, rfl⟩⟩
    · refine .inr ⟨user, hu, hauthor, hright.mono (fun _ => id) fun _ _ hslug => .inl ?_⟩
      exact ⟨args.topic, hnew, rfl, hslug⟩

theorem insertReply_right {reply : ForumPost} (h : insertReply db.gov.forum reply = some forum)
    (hu : su = some user) (hauthor : reply.authorId = user.id)
    (hright : StoredRight moments user (db.PostPlace reply.topicId) reply.proposerGrantId) :
    db.RowsKept (db.withForum forum) ∧ WriteRight su moments db (db.withForum forum) := by
  rw [insertReply] at h
  split_ifs at h
  cases h
  have hkept : db.RowsKept (db.withForum
      { topics := countReply db.gov.forum.topics reply.topicId reply.createdAt
        posts := db.gov.forum.posts.insertOrIgnore reply
        activity := db.gov.forum.activity ++
          [replyEvent reply.topicId reply.authorId reply.id reply.createdAt] }) :=
    ⟨fun t ht => Table.exists_mem_updateWhere ht (fun _ => ⟨rfl, rfl, rfl, rfl⟩) fun _ =>
      ⟨rfl, rfl, rfl, rfl⟩, fun p hp =>
        ⟨p, KeyedTable.mem_insertOrIgnore.mpr (.inl hp), rfl, rfl, rfl⟩⟩
  refine ⟨hkept, fun t ht => ?_, fun p hp => ?_⟩
  · rcases Table.mem_updateWhere.mp ht with ⟨ht, -⟩ | ⟨t₀, ht₀, -, rfl⟩
    · exact .inl ⟨t, ht, rfl, rfl, .inl rfl⟩
    · exact .inl ⟨t₀, ht₀, rfl, rfl, .inl rfl⟩
  · rcases KeyedTable.mem_insertOrIgnore.mp hp with hp | ⟨rfl, -⟩
    · exact .inl ⟨p, hp, rfl, rfl, .inl ⟨rfl, rfl⟩⟩
    · exact .inr ⟨user, hu, hauthor, hright.mono (fun _ => id) hkept.postPlace⟩

theorem createLookup_known {args : CreatePostArgs} {topic : Option ThreadTopic}
    {parent : String → Option ThreadPost} (h : StoreKnown db moments user stamp (.lookup args)) :
    StoreKnown db moments user stamp (createLookup args topic parent) := by
  unfold createLookup
  split
  · trivial
  · split_ifs
    · trivial
    · trivial
    · split
      · exact h
      · split
        · trivial
        · split_ifs
          · trivial
          · exact h

/-- **A step of a request** keeps what it knows, and writes as it should. -/
theorem writeStep_right {slugify : String → String → String} {s : ServedWrite} {p' : WriteProc}
    (hs : s.Asserts db) (h : writeStep slugify event db s.proc = some (db', p')) :
    db.RowsKept db' ∧ WriteRight s.user (s.moments ++ [db]) db db' ∧
      ServedWrite.Asserts db' ⟨s.user, p', s.moments ++ [db]⟩ := by
  obtain ⟨su, proc, moments⟩ := s
  obtain ⟨hroles, hs⟩ := hs
  have hsub : moments ⊆ moments ++ [db] := List.subset_append_left _ _
  have hmem : db ∈ moments ++ [db] := List.mem_append_right _ (List.mem_singleton.mpr rfl)
  -- most steps only read
  have hread : ∀ {q : WriteProc}, ServedWrite.Asserts db ⟨su, q, moments ++ [db]⟩ →
      db.RowsKept db ∧ WriteRight su (moments ++ [db]) db db ∧
        ServedWrite.Asserts db ⟨su, q, moments ++ [db]⟩ := fun hq =>
    ⟨.refl db, .refl su _ db, hq⟩
  cases event with
  | throws =>
    cases proc with
    | answered => cases h
    | _ =>
      simp only [writeStep, Option.some.injEq, Prod.mk.injEq] at h
      obtain ⟨rfl, rfl⟩ := h
      exact hread (asserts_answered hroles _)
  | allowed allowed =>
    cases proc <;> simp only [writeStep, Option.some.injEq, Prod.mk.injEq, reduceCtorEq] at h
    obtain ⟨rfl, rfl⟩ := h
    refine hread ?_
    split_ifs
    · exact writeChecked_asserts hroles hs.1 (hs.2.mono (.refl db) hsub)
    · exact asserts_answered hroles _
  | rendered bodyHtml ids =>
    cases proc <;> simp only [writeStep, Option.some.injEq, Prod.mk.injEq, reduceCtorEq] at h
    case render =>
      obtain ⟨rfl, rfl⟩ := h
      exact hread (writeRendered_asserts hroles hs.1 (hs.2.mono (.refl db) hsub))
    case storeTopic user input stamp title bodyMd bodyHtml =>
      split at h
      · rename_i forum hcreate
        cases h
        obtain ⟨hkept, hright⟩ := createTopic_right hcreate hs.1 rfl
          (StoredRight.mono hs.2 hsub fun _ _ => id)
        exact ⟨hkept, hright, asserts_answered hroles _⟩
      · cases h
        exact hread (asserts_answered hroles _)
  | statement =>
    cases proc <;> simp only [writeStep, Option.some.injEq, Prod.mk.injEq, reduceCtorEq] at h
    case received request =>
      obtain ⟨rfl, rfl⟩ := h
      exact hread (writeReceived_asserts hroles hs hmem)
    case mandate user input topic =>
      obtain ⟨rfl, rfl⟩ := h
      obtain ⟨hu, hid, hdrafts⟩ := hs
      refine hread (afterMandate_asserts hroles hu (fun _ hown => hown) fun grantId hgrant => ?_)
      obtain ⟨hactive, hplace⟩ := resolvePostMandate_grant hgrant
      rw [hid] at hdrafts hplace
      exact ⟨db, hmem, hactive, hplace.imp_left hdrafts⟩
    case gate user task =>
      obtain ⟨rfl, rfl⟩ := h
      exact hread (afterGate_asserts hroles hs.1 hmem (hs.2 _))
    case grant user input post grantId =>
      obtain ⟨rfl, rfl⟩ := h
      obtain ⟨hu, hstamp, hid, hholds⟩ := hs
      refine hread ?_
      split_ifs with hactive
      · refine ⟨hroles, hu, hholds, hid, ?_⟩
        rw [hstamp]
        exact ⟨db, hmem, hactive⟩
      · exact asserts_answered hroles _
    case placement =>
      obtain ⟨rfl, rfl⟩ := h
      exact hread (afterPlacement_asserts hroles hs.1 (hs.2.mono (.refl db) hsub))
    case storePost user stamp proc =>
      obtain ⟨hu, hknown⟩ := hs
      have hknown := StoreKnown.mono hknown (.refl db) hsub
      cases proc with
      | returned | threw => cases h
      | lookup args =>
        simp only [storePostStep, createPostStep, Option.map_some, Option.some.injEq,
          Prod.mk.injEq] at h
        obtain ⟨rfl, rfl⟩ := h
        have hnext : StoreKnown db (moments ++ [db]) user stamp (createLookup args
            ((db.gov.forum.topic args.topicId).map (·.toThreadTopic))
            fun id => (db.gov.forum.post id).map (·.toThreadPost)) := createLookup_known hknown
        refine hread ?_
        split
        · exact asserts_answered hroles _
        · exact asserts_answered hroles _
        · exact ⟨hroles, hu, hnext⟩
      | insert args parentId =>
        rcases hreply : insertReply db.gov.forum (args.reply parentId stamp) with _ | forum
        · simp only [storePostStep, createPostStep, hreply, Option.map_some, Option.some.injEq,
            Prod.mk.injEq] at h
          obtain ⟨rfl, rfl⟩ := h
          exact hread (asserts_answered hroles _)
        · simp only [storePostStep, createPostStep, hreply, Option.map_some, Option.some.injEq,
            Prod.mk.injEq] at h
          obtain ⟨rfl, rfl⟩ := h
          obtain ⟨hkept, hright⟩ := insertReply_right hreply hu hknown.1 hknown.2
          exact ⟨hkept, hright, asserts_answered hroles _⟩
    case edit user proc =>
      obtain ⟨hu, hknown⟩ := hs
      have hknown := EditKnown.mono hknown (.refl db) hsub
      cases proc with
      | returned | threw => cases h
      | read args =>
        simp only [editPostStep, Option.some.injEq, Prod.mk.injEq] at h
        obtain ⟨rfl, rfl⟩ := h
        obtain ⟨hargs, hunknown, hown⟩ := hknown
        refine hread (afterEdit_asserts hroles hu ?_)
        rcases hpost : getPostForEdit db args.postId with _ | post
        · trivial
        · have hid := List.find?_some hpost
          refine editRead_known hargs ⟨post, List.mem_of_find?_eq_some hpost, beq_iff_eq.mp hid, rfl,
            rfl⟩ (fun _ _ => hown) fun _ _ hactive => ?_
          cases hunknown.symm.trans hactive
      | grant args post grantId =>
        simp only [editPostStep, Option.some.injEq, Prod.mk.injEq] at h
        obtain ⟨rfl, rfl⟩ := h
        obtain ⟨hargs, hauthor, hholds, hstamp⟩ := hknown
        refine hread (afterEdit_asserts hroles hu (editChecked_known hargs hauthor hholds
          fun hmay => ?_))
        rw [mayEditRow_of_stamp hstamp, hargs] at hmay
        exact editedRight_of_stamp hstamp ⟨db, hmem, hmay⟩
      | topic args post =>
        simp only [editPostStep, Option.some.injEq, Prod.mk.injEq] at h
        obtain ⟨rfl, rfl⟩ := h
        exact hread (afterEdit_asserts hroles hu (editTopic_known hknown))
      | write args post =>
        simp only [editPostStep, Option.some.injEq, Prod.mk.injEq] at h
        obtain ⟨rfl, rfl⟩ := h
        obtain ⟨-, -, hholds, hright⟩ := hknown
        exact ⟨writeBody_kept db args post, writeBody_right hu hholds hright,
          asserts_answered hroles _⟩
    case titleRead user args =>
      obtain ⟨rfl, rfl⟩ := h
      obtain ⟨hu, hargs, hown⟩ := hs
      refine hread (titleFound_asserts hroles hu hargs (fun t ht => ?_) fun _ _ _ => hown.mono hsub)
      have hid := List.find?_some ht
      exact ⟨t, List.mem_of_find?_eq_some ht, beq_iff_eq.mp hid, rfl, rfl⟩
    case titleGrant user args topic grantId =>
      obtain ⟨rfl, rfl⟩ := h
      obtain ⟨hu, hargs, hauthor, hstamp, hholds⟩ := hs
      refine hread (titleChecked_asserts hroles hu hholds fun hmay => ?_)
      rw [mayEditRow_of_stamp hstamp, hargs] at hmay
      exact editedRight_of_stamp hstamp ⟨db, hmem, hmay⟩
    case titleWrite user args topic =>
      obtain ⟨rfl, rfl⟩ := h
      obtain ⟨hu, hholds, hright⟩ := hs
      exact ⟨writeTitle_kept db args, writeTitle_right hu hholds (hright.mono hsub),
        asserts_answered hroles _⟩

theorem writeStep_grants {slugify : String → String → String} {p p' : WriteProc}
    (h : writeStep slugify event db p = some (db', p')) : db'.grants = db.grants := by
  cases event with
  | throws =>
    cases p with
    | answered => cases h
    | _ =>
      simp only [writeStep, Option.some.injEq, Prod.mk.injEq] at h
      exact (congrArg (·.grants) h.1).symm
  | allowed =>
    cases p <;> simp only [writeStep, Option.some.injEq, Prod.mk.injEq, reduceCtorEq] at h
    exact (congrArg (·.grants) h.1).symm
  | rendered =>
    cases p <;> simp only [writeStep, Option.some.injEq, Prod.mk.injEq, reduceCtorEq] at h
    case storeTopic =>
      split at h
      all_goals
        simp only [Option.some.injEq, Prod.mk.injEq] at h
        exact (congrArg (·.grants) h.1).symm
    all_goals exact (congrArg (·.grants) h.1).symm
  | statement =>
    cases p <;> simp only [writeStep, Option.some.injEq, Prod.mk.injEq, reduceCtorEq] at h
    case storePost user stamp proc =>
      obtain ⟨out, -, hout⟩ := Option.map_eq_some_iff.mp h
      exact (congrArg (·.grants) (Prod.mk.inj hout).1).symm
    case edit user proc =>
      cases proc <;> simp only [editPostStep, Option.some.injEq, Prod.mk.injEq, reduceCtorEq] at h
      all_goals exact (congrArg (·.grants) h.1).symm
    all_goals exact (congrArg (·.grants) h.1).symm

end Writes

/-! ### Runs -/

/-- A request that writes, or a call on grants with the step it is at. -/
inductive ForumCall
  | write (served : ServedWrite)
  | grants (call proc : GrantProc)

/-- What starts: requests of sessions, and the calls that activate and revoke grants. -/
inductive ForumCall.Starts : ForumCall → Prop
  | write (request : ForumRequest) (hroles : ∀ u ∈ request.user, u.roles.Nodup) :
    Starts (.write ⟨request.user, .received request, []⟩)
  | redeemGrant (args : RedeemArgs) (now : ℤ) :
    Starts (.grants (.redeemGrant args now) (.redeemGrant args now))
  | revokeGrant (grantId proposerUserId : String) (now : ℤ) :
    Starts (.grants (.revokeGrant grantId proposerUserId now)
      (.revokeGrant grantId proposerUserId now))
  | withdrawInvite (grantId proposerUserId : String) :
    Starts (.grants (.withdrawInvite grantId proposerUserId)
      (.withdrawInvite grantId proposerUserId))

/-- The next step of a request or a call. A request takes down what it has seen. -/
def forumStep (slugify : String → String → String) (sha256Hex : String → String)
    (event : WriteEvent) (db : WriteDb) : ForumCall → Option (WriteDb × ForumCall)
  | .write served =>
    (writeStep slugify event db served.proc).map fun out =>
      (out.1, .write ⟨served.user, out.2, served.moments ++ [db]⟩)
  | .grants call proc =>
    (grantStep sha256Hex ⟨db.grants, []⟩ proc).map fun out =>
      ({ db with grants := out.1.db }, .grants call out.2)

/-- Requests and calls on grants. Whatever else happens leaves the grants, and who wrote what. -/
def forumProgram (slugify : String → String → String) (sha256Hex : String → String) :
    Program WriteDb ForumCall where
  Start _ call := call.Starts
  Step db call db' call' := ∃ event, forumStep slugify sha256Hex event db call = some (db', call')
  Env db db' := db.RowsKept db' ∧ db'.grants.grants = db.grants.grants

/-- Grants have the ids that were drawn for them, and those are not empty. -/
def GrantIdsGiven (db : WriteDb) : Prop := ∀ r ∈ db.grants.grants.rows, r.id ≠ ""

def WriteDb.Revoked (db : WriteDb) (grantId : String) : Prop :=
  ∃ r ∈ db.grants.grants.rows, r.id = grantId ∧ r.status = .revoked

/-- The step writes nothing under the grant: rows stamped with it were there before, as they are. -/
structure WritesNothingUnder (grantId : String) (db db' : WriteDb) : Prop where
  topic : ∀ t' ∈ db'.gov.forum.topics.rows, t'.proposerGrantId = some grantId →
    ∃ t ∈ db.gov.forum.topics.rows, t.id = t'.id ∧ t'.title = t.title
  post : ∀ p' ∈ db'.gov.forum.posts.rows, p'.proposerGrantId = some grantId →
    ∃ p ∈ db.gov.forum.posts.rows, p.id = p'.id ∧ p'.bodyMd = p.bodyMd ∧ p'.bodyHtml = p.bodyHtml

/-- What a call on grants knows: it is no invitation, and a revocation that was answered is one. -/
def GrantCallKnown (db : WriteDb) (call proc : GrantProc) : Prop :=
  (∀ args now grantId code, proc ≠ .createGrantInvite args now grantId code) ∧
    ∀ grantId owner now, call = .revokeGrant grantId owner now →
      proc = .revokeGrant grantId owner now ∨ proc = .revokeCheck grantId owner ∨
        proc = .threw ∨ ∃ answer, proc = .revoked answer ∧ (answer = true → db.Revoked grantId)

section Grants

variable {db db' : WriteDb} {grantId : String}

theorem WriteDb.Revoked.not_active (h : db.Revoked grantId) (userId : String) :
    isGrantActiveForUser db grantId userId ≠ true := by
  intro hactive
  obtain ⟨r, hr, rfl, hstatus⟩ := h
  obtain ⟨r', hr', hid, -, hstatus', -⟩ := isGrantActiveForUser_iff.mp hactive
  rw [Table.eq_of_key db.grants.grants.id_unique hr' hr hid, hstatus] at hstatus'
  cases hstatus'

/-- No row comes in, and what is revoked stays. -/
def GrantsKept (db db' : GrantDb) : Prop :=
  (∀ r' ∈ db'.grants.rows, ∃ r ∈ db.grants.rows, r.id = r'.id) ∧
    ∀ r ∈ db.grants.rows, r.status = .revoked →
      ∃ r' ∈ db'.grants.rows, r'.id = r.id ∧ r'.status = .revoked

theorem GrantsKept.refl (db : GrantDb) : GrantsKept db db :=
  ⟨fun r hr => ⟨r, hr, rfl⟩, fun r hr hstatus => ⟨r, hr, rfl, hstatus⟩⟩

variable {p : GrantRow → Bool} {l l' call : GrantProc}

theorem grantsKept_update {db db' : GrantDb} {f : GrantRow → GrantRow}
    (hrows : db'.grants.rows = Table.updateWhere p f db.grants.rows) (hid : ∀ r, (f r).id = r.id)
    (hp : ∀ r, p r = true → r.status ≠ .revoked) : GrantsKept db db' := by
  refine ⟨fun r' hr' => ?_, fun r hr hstatus => ?_⟩
  · rw [hrows] at hr'
    rcases Table.mem_updateWhere.mp hr' with ⟨hr, -⟩ | ⟨r, hr, -, rfl⟩
    · exact ⟨r', hr, rfl⟩
    · exact ⟨r, hr, (hid r).symm⟩
  · rw [hrows]
    exact Table.exists_mem_updateWhere hr (fun hmatch => absurd hstatus (hp r hmatch))
      fun _ => ⟨rfl, hstatus⟩

theorem grantsKept_delete {db db' : GrantDb}
    (hrows : db'.grants.rows = Table.deleteWhere p db.grants.rows)
    (hp : ∀ r, p r = true → r.status = .pending) : GrantsKept db db' := by
  refine ⟨fun r' hr' => ?_, fun r hr hstatus => ?_⟩
  · rw [hrows] at hr'
    exact ⟨r', (Table.mem_deleteWhere.mp hr').1, rfl⟩
  · refine ⟨r, hrows ▸ Table.mem_deleteWhere.mpr ⟨hr, ?_⟩, rfl, hstatus⟩
    rw [← Bool.not_eq_true]
    exact fun hmatch => absurd ((hp r hmatch).symm.trans hstatus) (by decide)

theorem grantStep_kept {sha256Hex : String → String} {w w' : GrantWorld}
    (h : grantStep sha256Hex w l = some (w', l'))
    (hinvite : ∀ args now grantId code, l ≠ .createGrantInvite args now grantId code) :
    GrantsKept w.db w'.db := by
  cases l with
  | createGrantInvite args now grantId code => exact absurd rfl (hinvite args now grantId code)
  | created | redeemed | revoked | withdrawn | threw => cases h
  | redeemGrant | revokeCheck =>
    simp only [grantStep] at h
    cases h
    exact .refl _
  | redeemBatch args now =>
    have hnot : ∀ r, claims args now r = true → r.status ≠ .revoked := fun r hr hrevoked =>
      absurd ((of_claims hr).2.1.symm.trans hrevoked) (by decide)
    rcases hcommit : GrantTable.commit (Table.updateWhere (claims args now) (activate args now)
      w.db.grants.rows) with _ | grants
    · simp only [grantStep, redeemBatch, hcommit] at h
      cases h
      exact .refl _
    · have hkept : ∀ users, GrantsKept w.db ⟨grants, users⟩ := fun users =>
        grantsKept_update (GrantTable.rows_of_commit hcommit) (fun _ => rfl) hnot
      simp only [grantStep, redeemBatch, hcommit] at h
      split at h
      · rename_i heq
        simp only [Option.some.injEq, Prod.mk.injEq] at h heq
        obtain ⟨rfl, -⟩ := heq
        obtain ⟨rfl, -⟩ := h
        exact hkept _
      · rename_i heq
        simp only [Option.some.injEq, Prod.mk.injEq] at h heq
        obtain ⟨rfl, -⟩ := heq
        obtain ⟨rfl, -⟩ := h
        exact hkept _
      · rename_i heq
        cases heq
  | redeemDrop args =>
    simp only [grantStep] at h
    cases h
    refine grantsKept_delete rfl fun r hr => ?_
    simp only [Bool.and_eq_true, beq_iff_eq] at hr
    exact hr.2
  | revokeGrant grantId owner now =>
    rcases hcommit : GrantTable.commit (Table.updateWhere (revokes grantId owner) (revoke now)
      w.db.grants.rows) with _ | grants
    · simp only [grantStep, revokeFlip, hcommit] at h
      cases h
      exact .refl _
    · simp only [grantStep, revokeFlip, hcommit] at h
      cases h
      refine grantsKept_update (GrantTable.rows_of_commit hcommit) (fun _ => rfl)
        fun r hr hrevoked => ?_
      cases (of_revokes hr).2.symm.trans hrevoked
  | withdrawInvite grantId owner =>
    simp only [grantStep] at h
    cases h
    refine grantsKept_delete rfl fun r hr => ?_
    simp only [withdraws, Bool.and_eq_true, beq_iff_eq] at hr
    exact hr.2

theorem WriteDb.Revoked.kept (h : db.Revoked grantId) (hkept : GrantsKept db.grants db'.grants) :
    db'.Revoked grantId := by
  obtain ⟨r, hr, rfl, hstatus⟩ := h
  exact hkept.2 r hr hstatus

theorem GrantCallKnown.kept {proc : GrantProc} (h : GrantCallKnown db call proc)
    (hkept : GrantsKept db.grants db'.grants) : GrantCallKnown db' call proc := by
  refine ⟨h.1, fun grantId owner now hcall => ?_⟩
  rcases h.2 grantId owner now hcall with hproc | hproc | hproc | ⟨answer, hproc, hrevoked⟩
  · exact .inl hproc
  · exact .inr (.inl hproc)
  · exact .inr (.inr (.inl hproc))
  · exact .inr (.inr (.inr ⟨answer, hproc, fun h => (hrevoked h).kept hkept⟩))

theorem grantStep_known {sha256Hex : String → String} {w' : GrantWorld}
    (hl : GrantCallKnown db call l) (h : grantStep sha256Hex ⟨db.grants, []⟩ l = some (w', l')) :
    GrantCallKnown { db with grants := w'.db } call l' := by
  have hnext : ∀ args now grantId code, l' ≠ .createGrantInvite args now grantId code := by
    rintro args now grantId code rfl
    cases l <;> simp only [grantStep] at h
    all_goals first
      | (split at h <;> simp at h)
      | simp at h
  refine ⟨hnext, fun grantId owner now hcall => ?_⟩
  rcases hl.2 grantId owner now hcall with rfl | rfl | rfl | ⟨answer, rfl, -⟩
  · simp only [grantStep] at h
    split at h
    · simp only [Option.some.injEq, Prod.mk.injEq] at h
      exact .inr (.inl h.2.symm)
    · simp only [Option.some.injEq, Prod.mk.injEq] at h
      exact .inr (.inr (.inl h.2.symm))
  · simp only [grantStep] at h
    cases h
    refine .inr (.inr (.inr ⟨_, rfl, fun hrevoked => ?_⟩))
    obtain ⟨r, hr, hmatch⟩ := List.any_eq_true.mp hrevoked
    simp only [Bool.and_eq_true, beq_iff_eq] at hmatch
    exact ⟨r, hr, hmatch.1.1, hmatch.2⟩
  · cases h
  · cases h

end Grants

section Runs

variable {slugify : String → String → String} {sha256Hex : String → String}

def ForumCall.Asserts (db : WriteDb) : ForumCall → Prop
  | .write served => served.Asserts db
  | .grants call proc => GrantCallKnown db call proc

structure ForumEffect (db db' : WriteDb) : Prop where
  rows : db.RowsKept db'
  grants : GrantsKept db.grants db'.grants

theorem forumStep_effect {db db' : WriteDb} {call call' : ForumCall} (hcall : call.Asserts db)
    (h : forumStep slugify sha256Hex event db call = some (db', call')) :
    ForumEffect db db' ∧ call'.Asserts db' := by
  cases call with
  | write served =>
    obtain ⟨⟨db₁, p'⟩, hstep, hout⟩ := Option.map_eq_some_iff.mp h
    cases hout
    obtain ⟨hkept, -, hasserts⟩ := writeStep_right hcall hstep
    exact ⟨⟨hkept, writeStep_grants hstep ▸ .refl _⟩, hasserts⟩
  | grants call proc =>
    obtain ⟨⟨w', proc'⟩, hstep, hout⟩ := Option.map_eq_some_iff.mp h
    cases hout
    exact ⟨⟨⟨(WriteDb.RowsKept.refl db).topic, (WriteDb.RowsKept.refl db).post⟩,
      grantStep_kept hstep hcall.1⟩, grantStep_known hcall hstep⟩

theorem ForumCall.Asserts.mono {db db' : WriteDb} {call : ForumCall} (h : call.Asserts db)
    (heffect : ForumEffect db db') : call.Asserts db' := by
  cases call with
  | write served => exact ServedWrite.Asserts.mono h heffect.rows
  | grants call proc => exact GrantCallKnown.kept h heffect.grants

def writesSound (slugify : String → String → String) (sha256Hex : String → String) :
    (forumProgram slugify sha256Hex).Sound GrantIdsGiven where
  inv := GrantIdsGiven
  asserts db call := call.Asserts db
  apart _ _ := True
  symm _ _ _ := trivial
  init _ h := h
  start db call _ hstart := by
    refine ⟨?_, fun _ _ => trivial⟩
    cases hstart with
    | write request hroles => exact ⟨hroles, rfl⟩
    | redeemGrant => exact ⟨by simp, by simp⟩
    | revokeGrant => exact ⟨by simp, fun _ _ _ h => .inl h⟩
    | withdrawInvite => exact ⟨by simp, by simp⟩
  step db call db' call' hids hcall hstep := by
    obtain ⟨heffect, hcall'⟩ := forumStep_effect hcall hstep.choose_spec
    refine ⟨fun r' hr' => ?_, hcall'⟩
    obtain ⟨r, hr, hid⟩ := heffect.grants.1 r' hr'
    exact hid ▸ hids r hr
  noninterference db call db' call' other _ hcall hother _ hstep :=
    ⟨hother.mono (forumStep_effect hcall hstep.choose_spec).1, trivial⟩
  env db db' hids henv := by
    have hgrants : GrantsKept db.grants db'.grants := by
      refine ⟨fun r hr => ⟨r, henv.2 ▸ hr, rfl⟩, fun r hr hstatus => ⟨r, ?_, rfl, hstatus⟩⟩
      rw [henv.2]
      exact hr
    exact ⟨fun r hr => hids r (henv.2 ▸ hr), fun call hcall => hcall.mono ⟨henv.1, hgrants⟩⟩

variable {ι : Type*} [DecidableEq ι]

theorem forumEffect_of_moves {s s' : Interleaved WriteDb ForumCall ι} {move : Move ι}
    (h : ((forumProgram slugify sha256Hex).system ι GrantIdsGiven).Reachable s)
    (hmoves : (forumProgram slugify sha256Hex).Moves s move s') :
    ForumEffect s.shared s'.shared := by
  obtain ⟨-, hprocs, -⟩ := (writesSound slugify sha256Hex).holds h
  cases hmoves with
  | start => exact ⟨.refl _, .refl _⟩
  | step hproc hstep => exact (forumStep_effect (hprocs _ _ hproc) hstep.choose_spec).1
  | env henv =>
    refine ⟨henv.1, fun r hr => ⟨r, henv.2 ▸ hr, rfl⟩, fun r hr hstatus => ⟨r, ?_, rfl, hstatus⟩⟩
    rw [henv.2]
    exact hr

/-- The grant is revoked, and every request that was not there at the start of this has seen it
so. -/
def SeenRevoked (s t : Interleaved WriteDb ForumCall ι) (grantId : String) : Prop :=
  t.shared.Revoked grantId ∧ ∀ i, s.procs i = none → ∀ served, t.procs i = some (.write served) →
    ∀ m ∈ served.moments, m.Revoked grantId

omit [DecidableEq ι] in
theorem SeenRevoked.refl {s : Interleaved WriteDb ForumCall ι} {grantId : String}
    (h : s.shared.Revoked grantId) : SeenRevoked s s grantId :=
  ⟨h, fun _ hnone _ hsome => absurd (hnone.symm.trans hsome) (by simp)⟩

theorem moves_write {s s' : Interleaved WriteDb ForumCall ι} {i : ι} {served : ServedWrite}
    (hproc : s.procs i = some (.write served))
    (hmoves : (forumProgram slugify sha256Hex).Moves s (.step i) s') :
    ∃ event p', writeStep slugify event s.shared served.proc = some (s'.shared, p') ∧
      s'.procs = Function.update s.procs i
        (some (.write ⟨served.user, p', served.moments ++ [s.shared]⟩)) := by
  rcases hmoves with _ | ⟨hproc', event, hstep⟩ | _
  cases hproc'.symm.trans hproc
  obtain ⟨out, hout, heq⟩ := Option.map_eq_some_iff.mp hstep
  cases heq
  exact ⟨event, out.2, hout, rfl⟩

theorem SeenRevoked.moves {s t t' : Interleaved WriteDb ForumCall ι} {move : Move ι}
    {grantId : String} (ht : ((forumProgram slugify sha256Hex).system ι GrantIdsGiven).Reachable t)
    (h : SeenRevoked s t grantId) (hmoves : (forumProgram slugify sha256Hex).Moves t move t') :
    SeenRevoked s t' grantId := by
  refine ⟨h.1.kept (forumEffect_of_moves ht hmoves).grants, fun i hnone served hserved => ?_⟩
  have hsame : t'.procs i = t.procs i → ∀ m ∈ served.moments, m.Revoked grantId := fun hsame =>
    h.2 i hnone served (hsame ▸ hserved)
  rcases hmoves with ⟨hnew, hstart⟩ | ⟨hproc, hstep⟩ | henv
  · rename_i j call
    by_cases hij : i = j
    · -- it has only just started, and has seen nothing
      subst hij
      change Function.update _ _ _ _ = _ at hserved
      rw [Function.update_self] at hserved
      cases hserved
      cases hstart
      exact nofun
    · exact hsame (Function.update_of_ne hij _ _)
  · rename_i db' procs j call call'
    by_cases hij : i = j
    · subst hij
      change Function.update _ _ _ _ = _ at hserved
      rw [Function.update_self] at hserved
      cases hserved
      obtain ⟨event, hstep⟩ := hstep
      cases call with
      | grants call proc =>
        obtain ⟨out, -, heq⟩ := Option.map_eq_some_iff.mp hstep
        cases (Prod.mk.inj heq).2
      | write before =>
        obtain ⟨out, -, heq⟩ := Option.map_eq_some_iff.mp hstep
        obtain ⟨-, heq⟩ := Prod.mk.inj heq
        cases heq
        intro m hm
        rcases List.mem_append.mp hm with hm | hm
        · exact h.2 i hnone before hproc m hm
        · exact List.mem_singleton.mp hm ▸ h.1
    · exact hsame (Function.update_of_ne hij _ _)
  · exact hsame rfl

theorem WriteRight.nothingUnder {user : Option SessionUser} {moments : List WriteDb}
    {db db' : WriteDb} {grantId : String} (h : WriteRight user moments db db')
    (hne : grantId ≠ "") (hrevoked : ∀ m ∈ moments, m.Revoked grantId) :
    WritesNothingUnder grantId db db' := by
  have hstored : ∀ u place, ¬StoredRight moments u place (some grantId) := by
    rintro u place ⟨m, hm, hactive, -⟩
    exact (hrevoked m hm).not_active u.id hactive
  have hedited : ∀ u, ¬EditedRight moments u (some grantId) := by
    intro u hright
    rw [EditedRight, Option.filter_some, if_pos (bne_iff_ne.mpr hne)] at hright
    obtain ⟨m, hm, hactive⟩ := hright
    exact (hrevoked m hm).not_active u.id hactive
  refine ⟨fun t' ht' hstamp => ?_, fun p' hp' hstamp => ?_⟩
  · rcases h.topic t' ht' with ⟨t, ht, hid, hsame, htitle | ⟨u, -, -, hright⟩⟩ | ⟨u, -, -, hright⟩
    · exact ⟨t, ht, hid, htitle⟩
    · exact absurd (hsame.trans hstamp ▸ hright) (hedited u)
    · exact absurd (hstamp ▸ hright) (hstored u _)
  · rcases h.post p' hp' with ⟨p, hp, hid, hsame, hbody | ⟨u, -, -, hright⟩⟩ | ⟨u, -, -, hright⟩
    · exact ⟨p, hp, hid, hbody⟩
    · exact absurd (hsame.trans hstamp ▸ hright) (hedited u)
    · exact absurd (hstamp ▸ hright) (hstored u _)

/-- **Who writes what.** Each step writes as it should by what the request has seen; under a revoked
grant nothing is written; and no row changes its author, its category or its grant. -/
theorem forum_writes_authorized {s : Interleaved WriteDb ForumCall ι}
    (h : ((forumProgram slugify sha256Hex).system ι GrantIdsGiven).Reachable s) :
    (∀ i served s', s.procs i = some (.write served) →
      (forumProgram slugify sha256Hex).Moves s (.step i) s' →
        WriteRight served.user (served.moments ++ [s.shared]) s.shared s'.shared) ∧
    (∀ i call proc s', s.procs i = some (.grants call proc) →
      (forumProgram slugify sha256Hex).Moves s (.step i) s' → s'.shared.gov = s.shared.gov) ∧
    (∀ j grantId owner now,
      s.procs j = some (.grants (.revokeGrant grantId owner now) (.revoked true)) →
        ∀ s', ((forumProgram slugify sha256Hex).system ι GrantIdsGiven).Leads s s' →
          ∀ i, s.procs i = none → ∀ s'', (forumProgram slugify sha256Hex).Moves s' (.step i) s'' →
            WritesNothingUnder grantId s'.shared s''.shared) ∧
    ∀ s', ((forumProgram slugify sha256Hex).system ι GrantIdsGiven).Leads s s' →
      s.shared.RowsKept s'.shared := by
  have hright : ∀ {t t' : Interleaved WriteDb ForumCall ι} {i : ι} {served : ServedWrite},
      ((forumProgram slugify sha256Hex).system ι GrantIdsGiven).Reachable t →
        t.procs i = some (.write served) → (forumProgram slugify sha256Hex).Moves t (.step i) t' →
          WriteRight served.user (served.moments ++ [t.shared]) t.shared t'.shared := by
    intro t t' i served ht hproc hmoves
    obtain ⟨-, hprocs, -⟩ := (writesSound slugify sha256Hex).holds ht
    obtain ⟨event, p', hstep, -⟩ := moves_write hproc hmoves
    exact (writeStep_right (hprocs i _ hproc) hstep).2.1
  have hgrants : ∀ {t t' : Interleaved WriteDb ForumCall ι} {i : ι} {call proc : GrantProc},
      t.procs i = some (.grants call proc) →
        (forumProgram slugify sha256Hex).Moves t (.step i) t' → t'.shared.gov = t.shared.gov := by
    intro t t' i call proc hproc hmoves
    rcases hmoves with _ | ⟨hproc', event, hstep⟩ | _
    cases hproc'.symm.trans hproc
    obtain ⟨out, -, heq⟩ := Option.map_eq_some_iff.mp hstep
    rw [← (Prod.mk.inj heq).1]
  refine ⟨fun i served s' => hright h, fun i call proc s' => hgrants,
    fun j grantId owner now hanswered s' hleads i hnone s'' hmoves => ?_, fun s' hleads => ?_⟩
  · obtain ⟨hids, hprocs, -⟩ := (writesSound slugify sha256Hex).holds h
    have hrevoked : s.shared.Revoked grantId := by
      rcases (hprocs j _ hanswered).2 grantId owner now rfl with heq | heq | heq | ⟨_, heq, hyes⟩
      · cases heq
      · cases heq
      · cases heq
      · cases heq
        exact hyes rfl
    have hne : grantId ≠ "" := by
      obtain ⟨r, hr, rfl, -⟩ := hrevoked
      exact hids r hr
    have hseen : SeenRevoked s s' grantId :=
      h.stable (P := fun t => SeenRevoked s t grantId)
        (fun _ _ _ ht hseen hmoves => hseen.moves ht hmoves) hleads (.refl hrevoked)
    have hcall : ∃ call, s'.procs i = some call := by
      rcases hmoves with _ | ⟨hproc, -⟩ | _
      exact ⟨_, hproc⟩
    obtain ⟨call | ⟨call, proc⟩, hproc⟩ := hcall
    · refine (hright (h.leads hleads) hproc hmoves).nothingUnder hne fun m hm => ?_
      rcases List.mem_append.mp hm with hm | hm
      · exact hseen.2 i hnone call hproc m hm
      · exact List.mem_singleton.mp hm ▸ hseen.1
    · have hgov := hgrants hproc hmoves
      exact ⟨fun t ht _ => ⟨t, hgov ▸ ht, rfl, rfl⟩, fun p hp _ => ⟨p, hgov ▸ hp, rfl, rfl, rfl⟩⟩
  · exact h.stable (P := fun t => s.shared.RowsKept t.shared)
      (fun _ _ _ ht hkept hmoves => hkept.trans (forumEffect_of_moves ht hmoves).rows) hleads
      (.refl _)

end Runs

/-! ### A reply under a grant -/

def sampleThread : ForumTopic where
  id := "gov"
  deleted := false
  locked := false
  postCount := 1
  lastPostAt := 0
  categorySlug := GOVERNANCE_CATEGORY_SLUG
  authorId := GOV_SYNC_AUTHOR
  source := .governance
  title := "Action"
  slug := "action-x"
  pinned := false
  flagCount := 0
  createdAt := 0
  titleEditedAt := none
  proposerGrantId := none

/-- An action with its thread, and an invite to write there. -/
def sampleInvited : WriteDb where
  gov :=
    { forum :=
        { topics := ⟨⟨[sampleThread], by decide⟩, by decide⟩
          posts := .empty
          activity := [] }
      actions := ⟨[{ ProposalListRow.newRow ⟨"a", 0, "gov_action1", "InfoAction", none, none, none,
        none, none, none, none, none, none⟩ (.unread .no_anchor) 0 with topicId := some "gov" }],
        by decide⟩
      govCreated := [] }
  grants := ⟨⟨[⟨"g1", "u1", "stake1", some "a#0", none, none, none, "hash", .pending, 0, 100, none,
    none⟩], by decide, by decide, by decide⟩, []⟩
  users := .empty
  dreps := .empty
  revisions := []

def sampleReply : ForumRequest :=
  .createPost ⟨some ⟨"u2", ["co-proposer"], none⟩, "gov", some (.string "hello"), none, none, 20⟩

theorem forumStep_moves (event : WriteEvent) (db : WriteDb) (call : ForumCall) (db' : WriteDb)
    (call' : ForumCall) (h : forumStep (· ++ ·) id event db call = some (db', call')) :
    (forumProgram (· ++ ·) id).Step db call db' call' :=
  ⟨event, h⟩

/-- The invite is redeemed, and the reply goes up to its batch. -/
def sampleReplySteps : List (ℕ × WriteEvent) :=
  [(0, .statement), (0, .statement), (1, .statement), (1, .statement), (1, .allowed true),
    (1, .rendered "<p>hello</p>" ⟨"t1", "p1", "x"⟩), (1, .statement)]

def sampleCalls : Interleaved WriteDb ForumCall ℕ :=
  ⟨sampleInvited, Function.update (Function.update (fun _ => none) 0
    (some (.grants (.redeemGrant ⟨"g1", "u2", "stake2", "Name"⟩ 10)
      (.redeemGrant ⟨"g1", "u2", "stake2", "Name"⟩ 10))))
    1 (some (.write ⟨sampleReply.user, .received sampleReply, []⟩))⟩

def sampleReplying : Interleaved WriteDb ForumCall ℕ :=
  (Program.run (forumStep (· ++ ·) id) sampleReplySteps sampleCalls).get (by decide +kernel)

/-- The one who was invited redeems the grant, and the reply is stored under it. -/
theorem forum_writes_authorized_reply : ∃ (served : ServedWrite)
    (s s' : Interleaved WriteDb ForumCall ℕ), s.procs 1 = some (.write served) ∧
      s.shared.gov.forum.posts.rows = [] ∧
      s'.shared.gov.forum.posts.rows.map (fun p => (p.id, p.authorId, p.proposerGrantId)) =
        [("p1", "u2", some "g1")] ∧
      WriteRight served.user (served.moments ++ [s.shared]) s.shared s'.shared := by
  have h₀ : ((forumProgram (· ++ ·) id).system ℕ GrantIdsGiven).Reachable
      ⟨sampleInvited, fun _ => none⟩ := .init ⟨by
        change ∀ r ∈ sampleInvited.grants.grants.rows, r.id ≠ ""
        decide, fun _ => rfl⟩
  have h₁ := h₀.step (.start (i := 0) rfl (ForumCall.Starts.redeemGrant
    ⟨"g1", "u2", "stake2", "Name"⟩ 10))
  have h₂ : ((forumProgram (· ++ ·) id).system ℕ GrantIdsGiven).Reachable sampleCalls :=
    h₁.step (.start (i := 1) rfl (ForumCall.Starts.write sampleReply (by
      rintro u ⟨⟩
      decide)))
  have h₃ : ((forumProgram (· ++ ·) id).system ℕ GrantIdsGiven).Reachable sampleReplying :=
    Program.reachable_run forumStep_moves h₂ sampleReplySteps (by decide +kernel)
  have hmoves := Program.moves_run forumStep_moves sampleReplying 1 .statement (by decide +kernel)
  exact ⟨_, sampleReplying, _, rfl, by decide +kernel, by decide +kernel,
    (forum_writes_authorized h₃).1 1 _ _ rfl hmoves⟩

end DrepTalk
