import DrepTalk.Cip100.PostDocs
import DrepTalk.Forum.PostEditRuns

/-!
# Documents form one chain

Any number of reconcilers and edits, interleaved between their statements, each with whatever
reading of a clock it has, while posts are written, hidden, shown and deleted, and authors and
actions change; a deleted post may also be erased. Beside the tables the run records which text
each inserted document froze, and how many bodies the post had had replaced by then.

**One chain** (`documents_chain`). Rows are only ever added, each to a free version number of its
post. A writer builds on a document it has seen, so the number behind it is free only while that
document is still the newest; and the guard of the insert is evaluated with it, so what is frozen
is what the post holds.
-/

namespace DrepTalk

/-- A document as it went in: the text it froze, and how many bodies its post had had replaced. -/
structure Published where
  postId : String
  comment : String
  index : ℕ

/-- The tables of the forum and of the documents, and the documents published so far. -/
structure DocWorld where
  forum : EditWorld
  cip : Cip100Db
  published : List Published

inductive PostProc
  | edit (l : EditProc)
  | reconcile (l : ReconcileProc)

/-- The bodies a post has had replaced. -/
def replacedOf (w : EditWorld) (postId : String) : List ReplacedBody :=
  w.replaced.filter fun b => b.postId == postId

/-- All bodies a post has held, the current one last. -/
def heldBodies (w : EditWorld) (postId : String) : List String :=
  (replacedOf w postId).map (·.bodyMd) ++ ((w.db.post postId).map (·.bodyMd)).toList

def publishedBy (w : DocWorld) : ReconcileProc → List Published
  | .insert _ _ post doc =>
    if (insertDoc w.forum.db w.cip doc post.row.bodyMd post.row.editedAt).2 then
      [⟨doc.postId, (doc.body.map (·.comment)).getD "", (replacedOf w.forum doc.postId).length⟩]
    else []
  | _ => []

/-- A step of a process, with the record of what it publishes. -/
def docStep (docHash : Cip100Doc → String) (w : DocWorld) :
    PostProc → Option (DocWorld × PostProc)
  | .edit l => (editWorldStep w.forum l).map fun out => ({ w with forum := out.1 }, .edit out.2)
  | .reconcile l => (reconcileStep docHash w.forum.db w.cip l).map fun out =>
    (⟨w.forum, out.1, w.published ++ publishedBy w l⟩, .reconcile out.2)

inductive DocStart : PostProc → Prop
  | editPost (args : EditArgs) : DocStart (.edit (.read args))
  | reconcilePostDocs (args : ReconcileArgs) : DocStart (.reconcile (.load args 0))

/-- What happens beside edits and reconcilers. -/
inductive DocEnv (w : DocWorld) : DocWorld → Prop
  | forum (forum : EditWorld) (henv : PostEnv w.forum forum) : DocEnv w { w with forum }
  | identities (authors : String → AuthorDescriptor) (actions : List ActionTopicRow) :
    DocEnv w { w with cip := { w.cip with authors, actions } }

/-- Erases a post: its body, its revisions and the bytes of its documents. -/
def erasePostContent (w : DocWorld) (row : PostRow) : DocWorld where
  forum :=
    { w.forum with
      db := { w.forum.db with
        posts := w.forum.db.posts.updateWhere (fun r => r.id == row.id)
          (fun r => { r with bodyMd := "", bodyHtml := "" }) fun _ _ => rfl
        revisions := w.forum.db.revisions.filter fun r => r.postId != row.id }
      replaced := w.forum.replaced ++ [⟨row.id, row.bodyMd, w.forum.clock⟩] }
  cip := { w.cip with
    docs := w.cip.docs.updateWhere (fun d => d.postId == row.id)
      (fun d => { d with body := none }) (fun _ _ => rfl) fun _ _ => rfl }
  published := w.published

/-- A post that is deleted, or whose topic is, may be erased. -/
inductive ErasureEnv (w : DocWorld) : DocWorld → Prop
  | erase (row : PostRow) (hmem : row ∈ w.forum.db.posts.rows)
      (hdeleted : row.deleted = true ∨
        (w.forum.db.topic row.topicId).any (·.deleted) = true) :
    ErasureEnv w (erasePostContent w row)

/-- Edits and reconcilers, with what happens beside them. -/
def docProgram (docHash : Cip100Doc → String) (Env : DocWorld → DocWorld → Prop) :
    Program DocWorld PostProc where
  Start _ l := DocStart l
  Step w l w' l' := docStep docHash w l = some (w', l')
  Env := Env

/-- Before the first document nothing has been edited or published. -/
structure DocWorld.Initial (w : DocWorld) : Prop where
  forum : w.forum.Initial
  docs : w.cip.docs.rows = []
  published : w.published = []

/-! ### The chain -/

def publishedOf (w : DocWorld) (postId : String) : List Published :=
  w.published.filter fun p => p.postId == postId

/-- The documents of a post are linked versions 1 to n, of bodies the post held, in their order. -/
structure LinearChain (w : DocWorld) (postId : String) : Prop where
  versions : (docsOf w.cip postId).map (·.version) =
    List.range' 1 (docsOf w.cip postId).length
  first : ∀ d ∈ docsOf w.cip postId, d.version = 1 → d.prevHash = none
  links : ∀ d ∈ docsOf w.cip postId, ∀ e ∈ docsOf w.cip postId,
    e.version = d.version + 1 → e.prevHash = some d.hash
  frozen : List.Forall₂ (fun d p => ∀ body, d.body = some body → body.comment = p.comment)
    (docsOf w.cip postId) (publishedOf w postId)
  held : ∀ p ∈ publishedOf w postId, (heldBodies w.forum postId)[p.index]? = some p.comment
  ordered : (publishedOf w postId).Pairwise fun p q => p.index ≤ q.index

/-! ### What processes do to the bodies a post has held -/

/-- Bodies held before are still held before, in the same places. -/
def HeldBefore (w w' : EditWorld) : Prop := ∀ id, heldBodies w id <+: heldBodies w' id

theorem HeldBefore.refl (w : EditWorld) : HeldBefore w w := fun _ => List.prefix_refl _

theorem heldBefore_of_posts {w w' : EditWorld} (hreplaced : w'.replaced = w.replaced)
    (hposts : ∀ id row, w.db.post id = some row →
      ∃ row', w'.db.post id = some row' ∧ row'.bodyMd = row.bodyMd) : HeldBefore w w' := by
  intro id
  rw [heldBodies, heldBodies, replacedOf, replacedOf, hreplaced]
  refine List.prefix_append_right_inj _ |>.mpr ?_
  rcases hpost : w.db.post id with _ | row
  · exact List.nil_prefix
  · obtain ⟨row', hpost', hbody⟩ := hposts id row hpost
    have hsame : (w'.db.post id).map (·.bodyMd) = (some row).map (·.bodyMd) := by
      rw [hpost', Option.map_some, Option.map_some, hbody]
    exact hsame ▸ List.prefix_refl _

variable {f : PostRow → PostRow} {row : PostRow} {author : AuthorDescriptor}

theorem post_updateWhere {db db' : ForumDb} {p : PostRow → Bool}
    (hposts : db'.posts.rows = Table.updateWhere p f db.posts.rows)
    (hid : ∀ row, (f row).id = row.id) {id : String} (hpost : db.post id = some row) :
    db'.post id = some (if p row then f row else row) := by
  obtain ⟨hmem, rfl⟩ := ForumDb.post_eq_some.mp hpost
  refine ForumDb.post_eq_some.mpr ⟨?_, ?_⟩
  · rw [hposts]
    exact Table.mem_updateWhere_of_mem p f hmem
  · split_ifs
    · exact hid row
    · rfl

theorem heldBefore_write {w : EditWorld} {db' : ForumDb} (hmem : row ∈ w.db.posts.rows)
    (hposts : db'.posts.rows = Table.updateWhere (fun r => r.id == row.id) f w.db.posts.rows)
    (hid : ∀ r, (f r).id = r.id) :
    HeldBefore w ⟨db', w.clock, w.replaced ++ [⟨row.id, row.bodyMd, w.clock⟩]⟩ := by
  intro id
  rw [heldBodies, heldBodies, replacedOf, replacedOf, List.filter_append, List.filter_singleton]
  by_cases hown : row.id = id
  · subst hown
    rw [ForumDb.post_eq_some.mpr ⟨hmem, rfl⟩]
    simp
  · rw [beq_eq_false_iff_ne.mpr hown, cond_false, List.append_nil]
    refine List.prefix_append_right_inj _ |>.mpr ?_
    rcases hpost : w.db.post id with _ | other
    · exact List.nil_prefix
    · have hother : other.id = id := (ForumDb.post_eq_some.mp hpost).2
      have hsame : db'.post id = some other := by
        rw [post_updateWhere hposts hid hpost, if_neg (by simpa [hother] using Ne.symm hown)]
      exact hsame ▸ List.prefix_refl _

theorem heldBefore_edit {w w' : EditWorld} {l l' : EditProc}
    (h : editWorldStep w l = some (w', l')) : HeldBefore w w' := by
  have hsame : ∀ l, replacedBy w l = [] →
      HeldBefore w ⟨w.db, w.clock, w.replaced ++ replacedBy w l⟩ := fun l hnone => by
      rw [hnone, List.append_nil]
      exact .refl w
  cases l with
  | read args =>
    cases h
    exact hsame (.read args) rfl
  | grant args post grantId =>
    cases h
    exact hsame (.grant args post grantId) rfl
  | topic args post =>
    cases h
    exact hsame (.topic args post) rfl
  | write args post =>
    cases h
    rw [replacedBy]
    rcases hpost : w.db.post args.postId with _ | row
    · -- nothing to write to
      refine heldBefore_of_posts (List.append_nil _) fun id row hrow => ?_
      refine ⟨_, post_updateWhere (editWrite_posts _ args post) (fun _ => rfl) hrow, ?_⟩
      have hother : row.id ≠ args.postId := fun hid => by
        have hrow' := ForumDb.post_eq_some.mpr ⟨(ForumDb.post_eq_some.mp hrow).1, hid⟩
        cases hpost.symm.trans hrow'
      rw [if_neg (by simpa using hother)]
    · obtain ⟨hmem, hid⟩ := ForumDb.post_eq_some.mp hpost
      rw [← hid]
      exact heldBefore_write (f := args.written post) hmem
        (hid ▸ editWrite_posts w.db args post) fun _ => rfl
  | returned edited => cases h
  | threw error => cases h

theorem PostEnv.heldBefore {w w' : EditWorld} (h : PostEnv w w') : HeldBefore w w' := by
  cases h with
  | tick clock hle => exact .refl w
  | create row hnew =>
    refine heldBefore_of_posts rfl fun id old hold => ⟨old, ?_, rfl⟩
    obtain ⟨hmem, hid⟩ := ForumDb.post_eq_some.mp hold
    exact ForumDb.post_eq_some.mpr ⟨KeyedTable.mem_insertOrIgnore.mpr (.inl hmem), hid⟩
  | flag hidden deleted =>
    exact heldBefore_of_posts rfl fun id row hrow =>
      ⟨_, post_updateWhere (p := fun _ => true)
        (f := fun row => { row with hidden := hidden row, deleted := deleted row }) rfl
        (fun _ => rfl) hrow, rfl⟩
  | topics topics => exact .refl w
  | grants activeGrants => exact .refl w

/-! ### What processes know of the documents -/

/-- Rows of documents are only added, and keep their hash and their place in the chain. -/
structure DocsKept (db db' : Cip100Db) : Prop where
  kept : ∀ d ∈ db.docs.rows, ∃ d' ∈ db'.docs.rows, d'.hash = d.hash ∧ d'.postId = d.postId ∧
    d'.version = d.version

theorem DocsKept.refl (db : Cip100Db) : DocsKept db db := ⟨fun d hmem => ⟨d, hmem, rfl, rfl, rfl⟩⟩

/-- A document that continues what is stored: the first of its post, or the one behind a stored
document. -/
def Continues (db : Cip100Db) (postId : String) (version : ℕ) (prevHash : Option String) : Prop :=
  version = 1 ∧ prevHash = none ∨
    ∃ d ∈ db.docs.rows, d.postId = postId ∧ version = d.version + 1 ∧ prevHash = some d.hash

variable {db db' : Cip100Db}

variable {version attempt : ℕ} {prevHash : Option String} {d doc : DocRow}

theorem Continues.mono {postId : String} (h : Continues db postId version prevHash)
    (hkept : DocsKept db db') : Continues db' postId version prevHash := by
  refine h.imp_right ?_
  rintro ⟨d, hmem, hpost, rfl, rfl⟩
  obtain ⟨d', hmem', hhash, hpost', hversion⟩ := hkept.kept d hmem
  exact ⟨d', hmem', hpost'.trans hpost, by rw [hversion], by rw [hhash]⟩

/-- A stored document of the post that a reconciler has read. -/
def KnownHead (db : Cip100Db) (postId : String) (head : Option DocRow) : Prop :=
  ∀ h, head = some h → ∃ d ∈ db.docs.rows, d.postId = postId ∧ d.version = h.version ∧
    d.hash = h.hash

variable {head : Option DocRow}

theorem KnownHead.mono {postId : String} (h : KnownHead db postId head) (hkept : DocsKept db db') :
    KnownHead db' postId head := by
  intro known heq
  obtain ⟨d, hmem, hpost, hversion, hhash⟩ := h known heq
  obtain ⟨d', hmem', hhash', hpost', hversion'⟩ := hkept.kept d hmem
  exact ⟨d', hmem', hpost'.trans hpost, hversion'.trans hversion, hhash'.trans hhash⟩

/-- What is about to be inserted continues what is stored, and has frozen the text that was
read. -/
structure Prepared (db : Cip100Db) (post : LoadedPost) (doc : DocRow) : Prop where
  continues : Continues db doc.postId doc.version doc.prevHash
  body : ∃ body, doc.body = some body ∧ body.comment = post.row.bodyMd
  postId : doc.postId = post.row.id

def ReconcileProc.Knows (db : Cip100Db) : ReconcileProc → Prop
  | .identify args _ post => post.row.id = args.postId
  | .head args _ post _ => post.row.id = args.postId
  | .compare args _ post _ found =>
    post.row.id = args.postId ∧ KnownHead db args.postId (some found)
  | .parent args _ post _ found _ => post.row.id = args.postId ∧ KnownHead db args.postId found
  | .insert _ _ post doc => Prepared db post doc
  | .load _ _ | .touch _ _ | .slot _ _ _ | .returned _ _ => True

variable {l : ReconcileProc}

theorem ReconcileProc.Knows.mono (h : l.Knows db) (hkept : DocsKept db db') : l.Knows db' := by
  cases l with
  | identify args attempt post => exact h
  | head args attempt post author => exact h
  | compare args attempt post author head => exact ⟨h.1, h.2.mono hkept⟩
  | parent args attempt post author head parentPostId => exact ⟨h.1, h.2.mono hkept⟩
  | insert args attempt post doc => exact ⟨h.continues.mono hkept, h.body, h.postId⟩
  | load args attempt => exact trivial
  | touch post head => exact trivial
  | slot args attempt doc => exact trivial
  | returned status hash => exact trivial

variable {args : ReconcileArgs} {post : LoadedPost}

theorem prepared_nextDoc {docHash : Cip100Doc → String} {parentDocHash : Option String}
    (hid : post.row.id = args.postId) (hhead : KnownHead db args.postId head) :
    Prepared db post (nextDoc docHash args post author head parentDocHash) := by
  refine ⟨?_, ⟨_, rfl, rfl⟩, rfl⟩
  rcases head with _ | head
  · exact .inl ⟨rfl, rfl⟩
  · obtain ⟨d, hmem, hpost, hversion, hhash⟩ := hhead head rfl
    refine .inr ⟨d, hmem, hpost.trans hid.symm, ?_, ?_⟩
    · exact congrArg (· + 1) hversion.symm
    · exact congrArg some hhash.symm

theorem knows_reconcileBuild {docHash : Cip100Doc → String} (hid : post.row.id = args.postId)
    (hhead : KnownHead db args.postId head) :
    (reconcileBuild docHash args attempt post author head).Knows db := by
  rw [reconcileBuild]
  split
  · exact ⟨hid, hhead⟩
  · exact prepared_nextDoc hid hhead

theorem knows_reconcileRetry (db : Cip100Db) (args : ReconcileArgs) (attempt : ℕ) :
    (reconcileRetry args attempt).Knows db := by
  rw [reconcileRetry]
  split_ifs <;> exact trivial

theorem mem_docsOf {postId : String} :
    d ∈ docsOf db postId ↔ d ∈ db.docs.rows ∧ d.postId = postId := by
  rw [docsOf, List.mem_filter, beq_iff_eq]

theorem docsOf_map {f : DocRow → DocRow} (hrows : db'.docs.rows = db.docs.rows.map f)
    (hpost : ∀ d, (f d).postId = d.postId) (postId : String) :
    docsOf db' postId = (docsOf db postId).map f := by
  have hown : ((fun d => d.postId == postId) ∘ f : DocRow → Bool) =
      fun d => d.postId == postId := by
    funext d
    rw [Function.comp_apply, hpost]
  rw [docsOf, hrows, List.filter_map, hown, docsOf]

theorem docsOf_append (hrows : db'.docs.rows = db.docs.rows ++ [doc]) (postId : String) :
    docsOf db' postId = docsOf db postId ++ if doc.postId = postId then [doc] else [] := by
  rw [docsOf, hrows, Table.filter_concat (fun d : DocRow => d.postId), docsOf]

theorem loadPost_eq_some {forum : ForumDb} {postId : String}
    (h : loadPost forum db postId = some post) : forum.post postId = some post.row ∧
      forum.topic post.row.topicId = some post.topic := by
  rw [loadPost] at h
  split at h
  · cases h
  · rename_i row hrow
    split at h
    · cases h
    · rename_i topic htopic
      cases h
      exact ⟨hrow, htopic⟩

/-! ### The chain, kept -/

section Chain

variable {w w' : DocWorld} {postId : String}

/-- Documents that keep their place, their hash and their link, and whose bytes are at most
erased. -/
theorem LinearChain.map (h : LinearChain w postId) {f : DocRow → DocRow}
    (hrows : w'.cip.docs.rows = w.cip.docs.rows.map f)
    (hplace : ∀ d, (f d).postId = d.postId ∧ (f d).version = d.version)
    (hlink : ∀ d, (f d).hash = d.hash ∧ (f d).prevHash = d.prevHash)
    (hbody : ∀ d body, (f d).body = some body → d.body = some body)
    (hpublished : w'.published = w.published) (hheld : HeldBefore w.forum w'.forum) :
    LinearChain w' postId := by
  have hdocs := docsOf_map hrows (fun d => (hplace d).1) postId
  have hof : publishedOf w' postId = publishedOf w postId := by
    rw [publishedOf, publishedOf, hpublished]
  constructor
  · have hversion : ((fun d => d.version) ∘ f : DocRow → ℕ) = fun d => d.version := by
      funext d
      exact (hplace d).2
    rw [hdocs, List.map_map, List.length_map, hversion, h.versions]
  · intro d hd hfirst
    rw [hdocs] at hd
    obtain ⟨d, hmem, rfl⟩ := List.mem_map.mp hd
    rw [(hplace d).2] at hfirst
    rw [(hlink d).2]
    exact h.first d hmem hfirst
  · intro d hd e he hnext
    rw [hdocs] at hd he
    obtain ⟨d, hmem, rfl⟩ := List.mem_map.mp hd
    obtain ⟨e, hmem', rfl⟩ := List.mem_map.mp he
    rw [(hplace d).2, (hplace e).2] at hnext
    rw [(hlink d).1, (hlink e).2]
    exact h.links d hmem e hmem' hnext
  · rw [hdocs, hof, List.forall₂_map_left_iff]
    refine h.frozen.imp fun d p hfrozen body hsome => ?_
    exact hfrozen body (hbody d body hsome)
  · intro p hp
    obtain ⟨rest, hrest⟩ := hheld postId
    obtain ⟨hlt, hget⟩ := List.getElem?_eq_some_iff.mp (h.held p (hof ▸ hp))
    rw [← hrest, List.getElem?_append_left hlt]
    exact List.getElem?_eq_some_iff.mpr ⟨hlt, hget⟩
  · rw [hof]
    exact h.ordered

theorem LinearChain.version_range (h : LinearChain w postId) (hd : d ∈ docsOf w.cip postId) :
    1 ≤ d.version ∧ d.version ≤ (docsOf w.cip postId).length := by
  have hmem : d.version ∈ List.range' 1 (docsOf w.cip postId).length :=
    h.versions ▸ List.mem_map.mpr ⟨d, hd, rfl⟩
  obtain ⟨hone, hlt⟩ := List.mem_range'_1.mp hmem
  omega

theorem LinearChain.version_next (h : LinearChain w postId)
    (hcontinues : Continues w.cip postId version prevHash)
    (hfree : ∀ d ∈ docsOf w.cip postId, d.version ≠ version) :
    version = (docsOf w.cip postId).length + 1 := by
  have htaken : ∀ v, 1 ≤ v → v ≤ (docsOf w.cip postId).length → version ≠ v := by
    rintro v hone hle rfl
    have hmem : version ∈ (docsOf w.cip postId).map (·.version) := by
      rw [h.versions]
      exact List.mem_range'_1.mpr ⟨hone, by omega⟩
    obtain ⟨d, hd, hversion⟩ := List.mem_map.mp hmem
    exact hfree d hd hversion
  rcases hcontinues with ⟨rfl, -⟩ | ⟨d, hmem, hpost, rfl, -⟩
  · by_contra hne
    exact htaken 1 (le_refl _) (by omega) rfl
  · obtain ⟨hone, hle⟩ := h.version_range (mem_docsOf.mpr ⟨hmem, hpost⟩)
    by_contra hne
    exact htaken (d.version + 1) (by omega) (by omega) rfl

theorem LinearChain.linked (h : LinearChain w postId)
    (hcontinues : Continues w.cip postId version prevHash)
    (hnext : version = (docsOf w.cip postId).length + 1) :
    (version = 1 → prevHash = none) ∧
      ∀ d ∈ docsOf w.cip postId, version = d.version + 1 → prevHash = some d.hash := by
  rcases hcontinues with ⟨hfirst, hnone⟩ | ⟨c, hmem, hpostId, hversion, hprev⟩
  · refine ⟨fun _ => hnone, fun d hd hsucc => ?_⟩
    have hone := (h.version_range hd).1
    omega
  · have hone := (h.version_range (mem_docsOf.mpr ⟨hmem, hpostId⟩)).1
    refine ⟨fun hfirst => by omega, fun d hd hsucc => ?_⟩
    obtain ⟨hmem', hpostId'⟩ := mem_docsOf.mp hd
    have hsame : d.version = c.version := by omega
    rw [w.cip.docs.eq_of_key' hmem' hmem (by rw [hpostId', hpostId, hsame]), hprev]

theorem LinearChain.frame (h : LinearChain w postId)
    (hdocs : docsOf w'.cip postId = docsOf w.cip postId)
    (hof : publishedOf w' postId = publishedOf w postId) (hforum : w'.forum = w.forum) :
    LinearChain w' postId := by
  constructor
  · rw [hdocs]
    exact h.versions
  · rw [hdocs]
    exact h.first
  · rw [hdocs]
    exact h.links
  · rw [hdocs, hof]
    exact h.frozen
  · rw [hof, hforum]
    exact h.held
  · rw [hof]
    exact h.ordered

theorem holdsBody_eq_true {forum : ForumDb} {bodyMd : String} {editedAt : Option ℤ} :
    holdsBody forum postId bodyMd editedAt = true ↔ ∃ row, forum.post postId = some row ∧
      row.bodyMd = bodyMd ∧ row.editedAt = editedAt := by
  rw [holdsBody, List.any_eq_true]
  constructor
  · rintro ⟨row, hmem, hrow⟩
    simp only [Bool.and_eq_true, beq_iff_eq] at hrow
    exact ⟨row, ForumDb.post_eq_some.mpr ⟨hmem, hrow.1.1⟩, hrow.1.2, hrow.2⟩
  · rintro ⟨row, hpost, hbody, hedited⟩
    obtain ⟨hmem, hid⟩ := ForumDb.post_eq_some.mp hpost
    exact ⟨row, hmem, by simp [hid, hbody, hedited]⟩

theorem length_heldBodies {forum : EditWorld} (hpost : forum.db.post postId = some row) :
    (heldBodies forum postId).length = (replacedOf forum postId).length + 1 ∧
      (heldBodies forum postId)[(replacedOf forum postId).length]? = some row.bodyMd := by
  rw [heldBodies, hpost]
  constructor
  · simp
  · rw [List.getElem?_append_right (by simp)]
    simp

/-- The record of an insert that has gone through. -/
def publication (forum : EditWorld) (doc : DocRow) : Published :=
  ⟨doc.postId, (doc.body.map (·.comment)).getD "", (replacedOf forum doc.postId).length⟩

theorem publishedOf_append {p : Published} (hpublished : w'.published = w.published ++ [p])
    (postId : String) :
    publishedOf w' postId = publishedOf w postId ++ if p.postId = postId then [p] else [] := by
  rw [publishedOf, hpublished, Table.filter_concat (fun p : Published => p.postId), publishedOf]

/-- **An insert that goes through** adds the next version of its post. -/
theorem LinearChain.insert (h : LinearChain w postId) {post : LoadedPost}
    (hprepared : Prepared w.cip post doc)
    (hfree : (doc.postId, doc.version) ∉ w.cip.docs.rows.map fun d => (d.postId, d.version))
    (hguard : holdsBody w.forum.db doc.postId post.row.bodyMd post.row.editedAt = true)
    (hforum : w'.forum = w.forum) (hrows : w'.cip.docs.rows = w.cip.docs.rows ++ [doc])
    (hpublished : w'.published = w.published ++ [publication w.forum doc]) :
    LinearChain w' postId := by
  have hdocs := docsOf_append hrows postId
  have hof : publishedOf w' postId = publishedOf w postId ++
      if doc.postId = postId then [publication w.forum doc] else [] :=
    publishedOf_append hpublished postId
  by_cases hown : doc.postId = postId
  swap
  · -- a document of another post
    rw [if_neg hown, List.append_nil] at hdocs hof
    exact h.frame hdocs hof hforum
  subst hown
  rw [if_pos rfl] at hdocs hof
  obtain ⟨row, hpost, hrowbody, -⟩ := holdsBody_eq_true.mp hguard
  obtain ⟨body, hbody, hcomment⟩ := hprepared.body
  obtain ⟨hlength, hcurrent⟩ := length_heldBodies hpost
  have hslot : ∀ d ∈ docsOf w.cip doc.postId, d.version ≠ doc.version := by
    intro d hd hversion
    obtain ⟨hmem, hpostId⟩ := mem_docsOf.mp hd
    exact hfree (List.mem_map.mpr ⟨d, hmem, by rw [hpostId, hversion]⟩)
  have hnext := h.version_next hprepared.continues hslot
  obtain ⟨hfirst, hlinks⟩ := h.linked hprepared.continues hnext
  constructor
  · rw [hdocs, List.map_append, h.versions, List.length_append, List.map_singleton, hnext]
    rw [Nat.add_comm _ 1]
    exact List.range'_1_concat.symm
  · intro d hd hone
    rw [hdocs] at hd
    rcases List.mem_append.mp hd with hd | hd
    · exact h.first d hd hone
    · obtain rfl := List.mem_singleton.mp hd
      exact hfirst hone
  · intro d hd e he hsucc
    rw [hdocs] at hd he
    rcases List.mem_append.mp hd with hd | hd <;> rcases List.mem_append.mp he with he | he
    · exact h.links d hd e he hsucc
    · -- the one it is linked to is the one it was built on
      obtain rfl := List.mem_singleton.mp he
      exact hlinks d hd hsucc
    · obtain rfl := List.mem_singleton.mp hd
      have hle := (h.version_range he).2
      omega
    · obtain rfl := List.mem_singleton.mp hd
      obtain rfl := List.mem_singleton.mp he
      omega
  · rw [hdocs, hof]
    refine List.rel_append h.frozen (List.Forall₂.cons ?_ .nil)
    intro body' hbody'
    rw [publication, hbody']
    rfl
  · intro p hp
    rw [hof] at hp
    rw [hforum]
    rcases List.mem_append.mp hp with hp | hp
    · exact h.held p hp
    · obtain rfl := List.mem_singleton.mp hp
      rw [publication, hbody]
      exact hcurrent.trans (congrArg some (hrowbody.trans hcomment.symm))
  · rw [hof]
    refine List.pairwise_append.mpr ⟨h.ordered, List.pairwise_singleton _ _, ?_⟩
    intro p hp q hq
    obtain rfl := List.mem_singleton.mp hq
    obtain ⟨hlt, -⟩ := List.getElem?_eq_some_iff.mp (h.held p hp)
    rw [hlength] at hlt
    exact Nat.le_of_lt_succ hlt

end Chain

/-! ### One step -/

/-- A reconciler leaves the documents alone, records that one is still right, or adds the next one
while the post holds what was read. -/
inductive ReconcileEffect (w : DocWorld) (db' : Cip100Db) (l : ReconcileProc) : Prop
  | same (hdb : db' = w.cip) (hpublished : publishedBy w l = [])
  | touch (post : LoadedPost) (head : DocRow) (hl : l = .touch post head)
    (hdb : db' = touchSourceEditedAt w.cip head.hash post.row.editedAt)
    (hpublished : publishedBy w l = [])
  | insert (args : ReconcileArgs) (attempt : ℕ) (post : LoadedPost) (doc : DocRow)
    (hl : l = .insert args attempt post doc)
    (hguard : holdsBody w.forum.db doc.postId post.row.bodyMd post.row.editedAt = true)
    (hhash : doc.hash ∉ w.cip.docs.rows.map fun d => d.hash)
    (hslot : (doc.postId, doc.version) ∉ w.cip.docs.rows.map fun d => (d.postId, d.version))
    (hrows : db'.docs.rows = w.cip.docs.rows ++ [doc])
    (hpublished : publishedBy w l = [publication w.forum doc])

theorem insertDoc_effect {w : DocWorld} :
    ReconcileEffect w (insertDoc w.forum.db w.cip doc post.row.bodyMd post.row.editedAt).1
      (.insert args attempt post doc) := by
  by_cases hinserted :
      (insertDoc w.forum.db w.cip doc post.row.bodyMd post.row.editedAt).2 = true
  · have hboth := hinserted
    rw [insertDoc] at hboth
    split_ifs at hboth with hguard
    obtain ⟨hrows, hhash, hslot⟩ := DoublyKeyedTable.insertOrIgnore_of_true hboth
    refine .insert args attempt post doc rfl hguard hhash hslot ?_ ?_
    · rw [insertDoc, if_pos hguard]
      exact hrows
    · rw [publishedBy, if_pos hinserted, publication]
  · refine .same ?_ (by rw [publishedBy, if_neg hinserted])
    rw [Bool.not_eq_true] at hinserted
    rw [insertDoc] at hinserted ⊢
    split_ifs at hinserted ⊢ with hguard
    · exact congrArg (fun docs => { w.cip with docs })
        (DoublyKeyedTable.insertOrIgnore_of_false hinserted).1
    · rfl

theorem knownHead_of_getHeadDoc {postId : String} {head : DocRow}
    (h : getHeadDoc db postId = some head) : KnownHead db postId (some head) := by
  rintro known ⟨⟩
  obtain ⟨hmem, hpost⟩ := mem_docsOf.mp (List.argmax_mem h)
  exact ⟨head, hmem, hpost, rfl, rfl⟩

variable {docHash : Cip100Doc → String}

/-- **One step of a reconciler.** -/
theorem reconcileStep_spec {w : DocWorld} {l' : ReconcileProc} (hl : l.Knows w.cip)
    (h : reconcileStep docHash w.forum.db w.cip l = some (db', l')) :
    l'.Knows w.cip ∧ ReconcileEffect w db' l := by
  cases l with
  | load args attempt =>
    cases h
    refine ⟨?_, .same rfl rfl⟩
    rcases hpost : loadPost w.forum.db w.cip args.postId with _ | post
    · exact trivial
    · rw [reconcileLoad]
      split_ifs
      · exact trivial
      · exact (ForumDb.post_eq_some.mp (loadPost_eq_some hpost).1).2
  | identify args attempt post =>
    cases h
    exact ⟨hl, .same rfl rfl⟩
  | head args attempt post author =>
    cases h
    refine ⟨?_, .same rfl rfl⟩
    rcases hhead : getHeadDoc w.cip args.postId with _ | known
    · -- no document yet: the first one continues nothing
      exact knows_reconcileBuild hl fun _ hnone => absurd hnone (by simp)
    · -- the head that is read is a stored document, and stays one
      exact ⟨hl, knownHead_of_getHeadDoc hhead⟩
  | compare args attempt post author known =>
    cases h
    refine ⟨?_, .same rfl rfl⟩
    rw [reconcileCompare]
    split_ifs
    · exact trivial
    · exact knows_reconcileBuild hl.1 hl.2
  | touch post known =>
    cases h
    exact ⟨trivial, .touch post known rfl rfl rfl⟩
  | parent args attempt post author known parentPostId =>
    cases h
    exact ⟨prepared_nextDoc hl.1 hl.2, .same rfl rfl⟩
  | insert args attempt post doc =>
    cases h
    refine ⟨?_, insertDoc_effect⟩
    split_ifs <;> exact trivial
  | slot args attempt doc =>
    cases h
    refine ⟨?_, .same rfl rfl⟩
    rw [reconcileSlot.eq_def]
    split
    · exact knows_reconcileRetry w.cip args attempt
    · split_ifs
      · exact trivial
      · exact knows_reconcileRetry w.cip args attempt
  | returned status hash => cases h

theorem ReconcileEffect.docsKept {w : DocWorld} (h : ReconcileEffect w db' l) :
    DocsKept w.cip db' := by
  rcases h with ⟨rfl, -⟩ | ⟨post, head, -, rfl, -⟩ | ⟨-, -, -, doc, -, -, -, -, hrows, -⟩
  · exact .refl _
  · refine ⟨fun d hmem => ⟨_, Table.mem_updateWhere_of_mem _ _ hmem, ?_⟩⟩
    split_ifs <;> exact ⟨rfl, rfl, rfl⟩
  · refine ⟨fun d hmem => ⟨d, ?_, rfl, rfl, rfl⟩⟩
    rw [hrows]
    exact List.mem_append_left _ hmem

theorem LinearChain.reconcile {w : DocWorld} {postId : String} (h : LinearChain w postId)
    (hl : l.Knows w.cip) (heff : ReconcileEffect w db' l) :
    LinearChain ⟨w.forum, db', w.published ++ publishedBy w l⟩ postId := by
  rcases heff with ⟨rfl, hpublished⟩ | ⟨post, head, rfl, rfl, hpublished⟩ |
    ⟨args, attempt, post, doc, rfl, hguard, hhash, hslot, hrows, hpublished⟩
  · rw [hpublished, List.append_nil]
    exact h
  · refine h.map (f := fun d => if d.hash == head.hash then
      { d with sourceEditedAt := post.row.editedAt } else d) rfl ?_ ?_ ?_ (List.append_nil _)
      (.refl _)
    · intro d
      split_ifs <;> exact ⟨rfl, rfl⟩
    · intro d
      split_ifs <;> exact ⟨rfl, rfl⟩
    · intro d body
      split_ifs <;> exact id
  · exact h.insert hl hslot hguard rfl hrows (congrArg (w.published ++ ·) hpublished)

/-! ### Every interleaving -/

theorem ErasureEnv.heldBefore {w w' : DocWorld} (h : ErasureEnv w w') :
    HeldBefore w.forum w'.forum := by
  obtain ⟨row, hmem, -⟩ := h
  exact heldBefore_write (f := fun r => { r with bodyMd := "", bodyHtml := "" }) hmem rfl
    fun _ => rfl

theorem LinearChain.env {w w' : DocWorld} {postId : String} (h : LinearChain w postId)
    (henv : DocEnv w w' ∨ ErasureEnv w w') : LinearChain w' postId ∧ DocsKept w.cip w'.cip := by
  rcases henv with henv | henv
  · cases henv with
    | forum forum henv =>
      exact ⟨h.map (f := id) (List.map_id _).symm (fun _ => ⟨rfl, rfl⟩) (fun _ => ⟨rfl, rfl⟩)
        (fun _ _ => id) rfl henv.heldBefore, .refl _⟩
    | identities authors actions =>
      exact ⟨h.map (f := id) (List.map_id _).symm (fun _ => ⟨rfl, rfl⟩) (fun _ => ⟨rfl, rfl⟩)
        (fun _ _ => id) rfl (.refl _), ⟨fun d hmem => ⟨d, hmem, rfl, rfl, rfl⟩⟩⟩
  · -- an erasure drops bytes, and leaves hashes and links
    have hheld := henv.heldBefore
    obtain ⟨row, -, -⟩ := henv
    refine ⟨h.map (f := fun d => if d.postId == row.id then { d with body := none } else d) rfl
      ?_ ?_ ?_ rfl hheld, ⟨fun d hmem => ⟨_, Table.mem_updateWhere_of_mem _ _ hmem, ?_⟩⟩⟩
    · intro d
      split_ifs <;> exact ⟨rfl, rfl⟩
    · intro d
      split_ifs <;> exact ⟨rfl, rfl⟩
    · intro d body
      split_ifs
      · exact nofun
      · exact id
    · split_ifs <;> exact ⟨rfl, rfl, rfl⟩

def PostProc.Knows (w : DocWorld) : PostProc → Prop
  | .edit _ => True
  | .reconcile l => l.Knows w.cip

theorem PostProc.Knows.mono {w w' : DocWorld} {l : PostProc} (h : l.Knows w)
    (hkept : DocsKept w.cip w'.cip) : l.Knows w' := by
  cases l with
  | edit l => exact trivial
  | reconcile l => exact ReconcileProc.Knows.mono h hkept

theorem docStep_spec {w w' : DocWorld} {l l' : PostProc} (hinv : ∀ postId, LinearChain w postId)
    (hl : l.Knows w) (h : docStep docHash w l = some (w', l')) :
    l'.Knows w' ∧ DocsKept w.cip w'.cip ∧ ∀ postId, LinearChain w' postId := by
  cases l with
  | edit l =>
    obtain ⟨⟨forum, m⟩, hstep, hout⟩ := Option.map_eq_some_iff.mp h
    cases hout
    exact ⟨trivial, .refl _, fun postId => (hinv postId).map (f := id) (List.map_id _).symm
      (fun _ => ⟨rfl, rfl⟩) (fun _ => ⟨rfl, rfl⟩) (fun _ _ => id) rfl (heldBefore_edit hstep)⟩
  | reconcile l =>
    obtain ⟨⟨db', m⟩, hstep, hout⟩ := Option.map_eq_some_iff.mp h
    cases hout
    obtain ⟨hknows, heff⟩ := reconcileStep_spec hl hstep
    exact ⟨ReconcileProc.Knows.mono hknows heff.docsKept, heff.docsKept,
      fun postId => (hinv postId).reconcile hl heff⟩

/-- The invariant of all interleavings. -/
def docSound (docHash : Cip100Doc → String) :
    (docProgram docHash fun w w' => DocEnv w w' ∨ ErasureEnv w w').Sound DocWorld.Initial where
  inv w := ∀ postId, LinearChain w postId
  asserts w l := l.Knows w
  apart _ _ := True
  symm _ _ _ := trivial
  init w hinit postId := by
    -- the empty chain
    have hnone : docsOf w.cip postId = [] := by
      rw [docsOf, hinit.docs]
      rfl
    have hpublished : publishedOf w postId = [] := by
      rw [publishedOf, hinit.published]
      rfl
    constructor
    · rw [hnone]
      rfl
    · rw [hnone]
      exact fun d hd => absurd hd List.not_mem_nil
    · rw [hnone]
      exact fun d hd => absurd hd List.not_mem_nil
    · rw [hnone, hpublished]
      exact .nil
    · rw [hpublished]
      exact nofun
    · rw [hpublished]
      exact .nil
  start w l _ hstart := by
    cases hstart with
    | editPost args => exact ⟨trivial, fun _ _ => trivial⟩
    | reconcilePostDocs args => exact ⟨trivial, fun _ _ => trivial⟩
  step w l w' l' hinv hl hstep := by
    obtain ⟨hknows, -, hchain⟩ := docStep_spec hinv hl hstep
    exact ⟨hchain, hknows⟩
  noninterference w l w' l' m hinv hl hm _ hstep := by
    obtain ⟨-, hkept, -⟩ := docStep_spec hinv hl hstep
    exact ⟨hm.mono hkept, trivial⟩
  env w w' hinv henv :=
    ⟨fun postId => ((hinv postId).env henv).1, fun m hm => hm.mono ((hinv "").env henv).2⟩

section Runs

variable {ι : Type*} [DecidableEq ι] {s : Interleaved DocWorld PostProc ι}

/-- **The documents of a post form one chain** in every interleaving of edits and reconcilers,
whatever their clocks say and whatever is hidden, deleted or erased in between. -/
theorem documents_chain (docHash : Cip100Doc → String)
    (h : ((docProgram docHash fun w w' => DocEnv w w' ∨ ErasureEnv w w').system ι
      DocWorld.Initial).Reachable s) (postId : String) : LinearChain s.shared postId :=
  ((docSound docHash).holds h).inv postId

end Runs

/-! ### A post with two versions -/

def sampleDocHash (doc : Cip100Doc) : String := doc.postId ++ "/" ++ doc.comment

def sampleDocWorld : DocWorld where
  forum := sampleWorld
  cip := ⟨⟨⟨[], List.nodup_nil⟩, List.nodup_nil⟩, fun id => ⟨id, none, none⟩, []⟩
  published := []

def sampleReconcile : ReconcileArgs := ⟨"p1", "https://site", .preprod, 1000000⟩

/-- A document, an edit and a second document, with a second reconciler that is too late. -/
theorem documents_chain_edited :
    ∃ s : Interleaved DocWorld PostProc ℕ,
      ((docProgram sampleDocHash fun w w' => DocEnv w w' ∨ ErasureEnv w w').system ℕ
        DocWorld.Initial).Reachable s ∧
        (docsOf s.shared.cip "p1").map (fun d => (d.version, d.body.map (·.comment))) =
          [(1, some "a"), (2, some "b")] ∧
        LinearChain s.shared "p1" := by
  have h₀ : ((docProgram sampleDocHash fun w w' => DocEnv w w' ∨ ErasureEnv w w').system ℕ
      DocWorld.Initial).Reachable ⟨sampleDocWorld, fun _ => none⟩ :=
    .init ⟨⟨sampleWorld_initial, rfl, rfl⟩, fun _ => rfl⟩
  have h₁ := h₀.step (.start (i := 0) rfl (.reconcilePostDocs sampleReconcile))
  have h₂ := h₁.step (.start (i := 1) rfl (.reconcilePostDocs sampleReconcile))
  have h₃ := h₂.step (.start (i := 2) rfl (.editPost (sampleEdit "b")))
  have h₄ := h₃.step (.start (i := 3) rfl (.reconcilePostDocs sampleReconcile))
  -- the second reconciler finds its slot taken, the last one starts after the edit
  have h₅ := Program.reachable_run (fun _ _ _ _ _ h => h) h₄
    ([0, 1, 0, 1, 0, 1, 0, 1, 1, 2, 2, 2, 3, 3, 3, 3, 3].map fun i => (i, ()))
    (by decide +kernel)
  exact ⟨_, h₅, by decide +kernel, documents_chain sampleDocHash h₅ "p1"⟩

end DrepTalk
