import DrepTalk.Cip100.DocChain

/-!
# The repair sweep

`findStalePostIds` decides by time stamps which posts a sweep reconciles: a post past its grace
window without a document, or one stamped later than its newest document was reconciled. It should
return every post in scope whose newest document is not its current text, only posts in scope, and
no post twice once it has been reconciled (`SweepRight`).

**What the stamps cannot see.** A silent edit leaves no stamp, so one that is written when the
post already has a document is never repaired (`not_sweepRight`); nor is a marked edit whose stamp
is not later than the one it replaces. And the query and the scope rule disagree about a post that
is exactly as old as the grace window. Every other run is right, at every other time
(`sweepRight`).

Clocks are whatever each caller reads. The hash of a document is a parameter, taken to tell
documents of different posts or versions apart.
-/

namespace DrepTalk

/-- Documents of different posts or versions have different hashes. -/
def HashesApart (docHash : Cip100Doc → String) : Prop :=
  ∀ a b, docHash a = docHash b → a.postId = b.postId ∧ a.version = b.version

/-- A post that is to be emitted: not deleted, hidden, a rationale or a mirror post, and past its
grace window. -/
def InScope (w : DocWorld) (now : ℤ) (row : PostRow) : Prop :=
  ∃ topic, w.forum.db.topic row.topicId = some topic ∧ outOfScope row topic now = false

/-- A post without a document, or whose newest one froze another text. -/
def Behind (w : DocWorld) (row : PostRow) : Prop :=
  ∀ head ∈ getHeadDoc w.cip row.id, ∀ body ∈ head.body, body.comment ≠ row.bodyMd

instance (w : DocWorld) (row : PostRow) : Decidable (Behind w row) :=
  inferInstanceAs (Decidable (∀ head ∈ _, ∀ body ∈ _, _))

/-- The candidates of a sweep at a time, without a limit. -/
def sweep (w : DocWorld) (now : ℤ) : List String :=
  findStalePostIds w.forum.db w.cip (now - EDIT_GRACE_MS) none

section

variable (docHash : Cip100Doc → String)

/-- A reconciler with nothing else running, for so many statements. -/
def reconcileAlone (forum : ForumDb) : ℕ → Cip100Db × ReconcileProc → Cip100Db × ReconcileProc
  | 0, s => s
  | n + 1, (db, l) =>
    match reconcileStep docHash forum db l with
    | some out => reconcileAlone forum n out
    | none => (db, l)

structure SweepRight (w : DocWorld) (now : ℤ) : Prop where
  complete : ∀ row ∈ w.forum.db.posts.rows, InScope w now row → Behind w row →
    row.id ∈ sweep w now
  sound : ∀ id ∈ sweep w now, ∃ row ∈ w.forum.db.posts.rows, row.id = id ∧ InScope w now row
  settles : ∀ args : ReconcileArgs, args.postId ∈ sweep w now → now ≤ args.now →
    ∃ n cip status hash,
      reconcileAlone docHash w.forum.db n (w.cip, .load args 0) = (cip, .returned status hash) ∧
      args.postId ∉ sweep { w with cip } now

end

/-- A marked edit stamps the post later than before, and a silent one changes the text only while
there is no document. -/
def DocWorld.Visible (w : DocWorld) : PostProc → Prop
  | .edit (.write args post) => ∀ row ∈ w.forum.db.posts.rows, row.id = args.postId →
    if args.marked post then row.editedAt.getD 0 < args.now
    else docsOf w.cip args.postId = [] ∨ args.bodyMd = row.bodyMd
  | _ => True

instance (w : DocWorld) : DecidablePred w.Visible
  | .edit (.write _ _) => inferInstanceAs (Decidable (∀ row ∈ _, _))
  | .edit (.read _) | .edit (.grant _ _ _) | .edit (.topic _ _) | .edit (.returned _)
  | .edit (.threw _) | .reconcile _ => isTrue trivial

def editsVisible : Program.Condition DocWorld PostProc where
  state _ := True
  mover := DocWorld.Visible
  others _ _ _ := True

/-- Of the posts that may be emitted, none without a document is exactly as old as the grace window,
and none stamped later than its document is inside its own. -/
def SweepInTime (w : DocWorld) (now : ℤ) : Prop :=
  ∀ row ∈ w.forum.db.posts.rows, ∀ topic ∈ w.forum.db.topic row.topicId,
    neverEmitted row topic = false →
      (getHeadDoc w.cip row.id = none → now - row.createdAt ≠ EDIT_GRACE_MS) ∧
        (stampedSince row (getHeadDoc w.cip row.id) = true →
          isWithinGrace row.createdAt now = false)

instance (w : DocWorld) (now : ℤ) : Decidable (SweepInTime w now) :=
  inferInstanceAs (Decidable (∀ row ∈ _, ∀ topic ∈ _, _))

/-! ### The newest document -/

section Head

variable {w : DocWorld} {postId : String}

variable {d head : DocRow} {db cip : Cip100Db}

theorem LinearChain.getHeadDoc_iff (h : LinearChain w postId) :
    getHeadDoc w.cip postId = some d ↔
      d ∈ docsOf w.cip postId ∧ d.version = (docsOf w.cip postId).length := by
  have hforward : ∀ e, getHeadDoc w.cip postId = some e →
      e ∈ docsOf w.cip postId ∧ e.version = (docsOf w.cip postId).length := by
    intro e he
    have hmem := List.argmax_mem he
    refine ⟨hmem, Nat.le_antisymm (h.version_range hmem).2 ?_⟩
    have hpos : 0 < (docsOf w.cip postId).length := List.length_pos_of_mem hmem
    -- the versions are 1 to n, so one of them is n
    have hlast : (docsOf w.cip postId).length ∈ (docsOf w.cip postId).map (·.version) := by
      rw [h.versions]
      exact List.mem_range'_1.mpr ⟨hpos, by omega⟩
    obtain ⟨last, hlastmem, hversion⟩ := List.mem_map.mp hlast
    rw [← hversion]
    exact List.le_of_mem_argmax hlastmem he
  refine ⟨hforward d, fun ⟨hmem, hversion⟩ => ?_⟩
  rcases hhead : getHeadDoc w.cip postId with _ | e
  · have hempty := List.argmax_eq_none.mp hhead
    cases hempty ▸ hmem
  · obtain ⟨hmem', hversion'⟩ := hforward e hhead
    obtain ⟨hrow, hpost⟩ := mem_docsOf.mp hmem
    obtain ⟨hrow', hpost'⟩ := mem_docsOf.mp hmem'
    exact congrArg some (w.cip.docs.eq_of_key' hrow' hrow
      (by rw [hpost, hpost', hversion, hversion']))

theorem getHeadDoc_eq_none : getHeadDoc db postId = none ↔ docsOf db postId = [] :=
  List.argmax_eq_none

theorem getDocBody_of_mem (hmem : d ∈ db.docs.rows) : getDocBody db d.hash = d.body := by
  have hfound : db.docs.rows.find? (fun e => e.hash == d.hash) = some d :=
    (db.docs.find?_eq_some fun _ => beq_iff_eq).mpr ⟨hmem, rfl⟩
  rw [getDocBody, hfound, Option.bind_some]

end Head

/-! ### What reads still say -/

/-- A document that has frozen a text. -/
def DocRow.Froze (d : DocRow) (text : String) : Prop :=
  ∀ body, d.body = some body → body.comment = text

/-- What an old read of a post says of its row: either the stamp is the same, and so is the text
unless every document has frozen the new one, or the stamp is a later one. -/
def ReadOf (cip : Cip100Db) (old row : PostRow) : Prop :=
  row.id = old.id ∧
    (row.editedAt = old.editedAt ∧
        (row.bodyMd = old.bodyMd ∨ ∀ d ∈ docsOf cip row.id, d.Froze row.bodyMd) ∨
      ∃ later, row.editedAt = some later ∧ old.editedAt.getD 0 < later)

theorem ReadOf.refl (cip : Cip100Db) (row : PostRow) : ReadOf cip row row :=
  ⟨rfl, .inl ⟨rfl, .inl rfl⟩⟩

theorem ReadOf.trans {a b c : PostRow} (hab : ReadOf cip a b) (hbc : ReadOf cip b c) :
    ReadOf cip a c := by
  obtain ⟨hid, hab⟩ := hab
  obtain ⟨hid', hbc⟩ := hbc
  refine ⟨hid'.trans hid, ?_⟩
  rcases hbc with ⟨hsame', hbody'⟩ | ⟨later', hlater', hlt'⟩
  · rcases hab with ⟨hsame, hbody⟩ | ⟨later, hlater, hlt⟩
    · refine .inl ⟨hsame'.trans hsame, ?_⟩
      rcases hbody' with hbody' | hfroze'
      · rw [hbody', hid']
        exact hbody
      · exact .inr hfroze'
    · exact .inr ⟨later, hsame'.trans hlater, hlt⟩
  · refine .inr ⟨later', hlater', ?_⟩
    rcases hab with ⟨hsame, -⟩ | ⟨later, hlater, hlt⟩
    · exact hsame ▸ hlt'
    · rw [hlater, Option.getD_some] at hlt'
      exact hlt.trans hlt'

variable {row : PostRow}

theorem ReadOf.stamp_le {old : PostRow} (h : ReadOf cip old row) :
    old.editedAt.getD 0 ≤ row.editedAt.getD 0 := by
  rcases h.2 with ⟨hsame, -⟩ | ⟨later, hlater, hlt⟩
  · rw [hsame]
  · rw [hlater, Option.getD_some]
    exact hlt.le

/-- A post that a reconciler has read. -/
def Seen (w : DocWorld) (post : LoadedPost) : Prop :=
  ∃ row ∈ w.forum.db.posts.rows, ReadOf w.cip post.row row

/-- What no step takes back: rows are stamped later or changed while nothing has frozen them,
documents keep their bytes, and a new one has frozen the row of its post. -/
structure Moved (w w' : DocWorld) : Prop where
  rows : ∀ row ∈ w.forum.db.posts.rows, ∃ row' ∈ w'.forum.db.posts.rows, ReadOf w'.cip row row'
  texts : ∀ d ∈ w.cip.docs.rows, ∃ d' ∈ w'.cip.docs.rows, d'.hash = d.hash ∧
    d'.postId = d.postId ∧ d'.body = d.body
  frozen : ∀ d' ∈ w'.cip.docs.rows,
    (∃ d ∈ w.cip.docs.rows, d.postId = d'.postId ∧ d.body = d'.body) ∨
      ∀ row ∈ w.forum.db.posts.rows, row.id = d'.postId → d'.Froze row.bodyMd

variable {w' : DocWorld} {post : LoadedPost}

theorem Seen.mono {w : DocWorld} (h : Seen w post) (hmoved : Moved w w') :
    Seen w' post := by
  obtain ⟨row, hmem, hid, hread⟩ := h
  obtain ⟨row', hmem', hread'⟩ := hmoved.rows row hmem
  refine ⟨row', hmem', ReadOf.trans ⟨hid, hread.imp_left ?_⟩ hread'⟩
  refine And.imp_right fun hbody => hbody.imp_right fun hfroze d' hd' => ?_
  obtain ⟨hmemd', hpost'⟩ := mem_docsOf.mp hd'
  rcases hmoved.frozen d' hmemd' with ⟨d, hmemd, hpost, hbytes⟩ | hnew
  · intro body hbody
    exact hfroze d (mem_docsOf.mpr ⟨hmemd, hpost.trans hpost'⟩) body (hbytes.trans hbody)
  · exact hnew row hmem hpost'.symm

section

variable (docHash : Cip100Doc → String)

/-- A document with its own hash, that names its post and its version. -/
def DocRow.Hashed (d : DocRow) : Prop :=
  ∃ body, d.body = some body ∧ docHash body = d.hash ∧ body.postId = d.postId ∧
    body.version = d.version

/-- What a reconciler relies on beside what it knows of the documents. -/
def ReconcileProc.Faithful (w : DocWorld) : ReconcileProc → Prop
  | .identify _ _ post | .head _ _ post _ | .compare _ _ post _ _ => Seen w post
  | .touch post known => Seen w post ∧ ∃ d ∈ w.cip.docs.rows, d.hash = known.hash ∧
    d.postId = post.row.id ∧ d.Froze post.row.bodyMd
  | .insert _ _ post doc => doc.Hashed docHash ∧ doc.sourceEditedAt = post.row.editedAt
  | .load _ _ | .parent _ _ _ _ _ _ | .slot _ _ _ | .returned _ _ => True

end

variable {docHash : Cip100Doc → String}

variable {l : ReconcileProc}

theorem ReconcileProc.Faithful.mono
    {w : DocWorld}
    (h : l.Faithful docHash w)
    (hmoved : Moved w w') : l.Faithful docHash w' := by
  cases l with
  | identify args attempt post | head args attempt post author
  | compare args attempt post author known => exact Seen.mono h hmoved
  | touch post known =>
    obtain ⟨hseen, d, hmem, hhash, hpost, hfroze⟩ := h
    obtain ⟨d', hmem', hhash', hpost', hbytes⟩ := hmoved.texts d hmem
    refine ⟨hseen.mono hmoved, d', hmem', hhash'.trans hhash, hpost'.trans hpost, ?_⟩
    exact fun body hbody => hfroze body (hbytes ▸ hbody)
  | insert args attempt post doc => exact h
  | load args attempt => exact trivial
  | parent args attempt post author known parentPostId => exact trivial
  | slot args attempt doc => exact trivial
  | returned status hash => exact trivial

theorem faithful_reconcileBuild (w : DocWorld) (args : ReconcileArgs) (attempt : ℕ)
    (post : LoadedPost) (author : AuthorDescriptor) (head : Option DocRow) :
    (reconcileBuild docHash args attempt post author head).Faithful docHash w := by
  rw [reconcileBuild]
  split
  · exact trivial
  · exact ⟨⟨_, rfl, rfl, rfl, rfl⟩, rfl⟩

theorem faithful_reconcileRetry (w : DocWorld) (args : ReconcileArgs) (attempt : ℕ) :
    (reconcileRetry args attempt).Faithful docHash w := by
  rw [reconcileRetry]
  split_ifs <;> exact trivial

theorem faithful_reconcileStep {w : DocWorld} {db' : Cip100Db} {l' : ReconcileProc}
    (hknows : l.Knows w.cip) (hl : l.Faithful docHash w)
    (h : reconcileStep docHash w.forum.db w.cip l = some (db', l')) : l'.Faithful docHash w := by
  cases l with
  | load args attempt =>
    cases h
    rcases hpost : loadPost w.forum.db w.cip args.postId with _ | post
    · exact trivial
    · rw [reconcileLoad]
      split_ifs
      · exact trivial
      · obtain ⟨hmem, -⟩ := ForumDb.post_eq_some.mp (loadPost_eq_some hpost).1
        exact ⟨post.row, hmem, .refl _ _⟩
  | identify args attempt post =>
    cases h
    exact hl
  | head args attempt post author =>
    cases h
    rcases getHeadDoc w.cip args.postId with _ | known
    · exact faithful_reconcileBuild w args attempt post author none
    · exact hl
  | compare args attempt post author known =>
    cases h
    rw [reconcileCompare]
    split_ifs with hsame
    · -- the stored text is the one that was read
      obtain ⟨hid, hknown⟩ := hknows
      obtain ⟨d, hmem, hpost, -, hhash⟩ := hknown known rfl
      refine ⟨hl, d, hmem, hhash, hpost.trans hid.symm, fun body hbody => ?_⟩
      rw [← hhash, getDocBody_of_mem hmem, hbody] at hsame
      simpa using hsame
    · exact faithful_reconcileBuild w args attempt post author (some known)
  | touch post known =>
    cases h
    exact trivial
  | parent args attempt post author known parentPostId =>
    cases h
    exact ⟨⟨_, rfl, rfl, rfl, rfl⟩, rfl⟩
  | insert args attempt post doc =>
    cases h
    split_ifs <;> exact trivial
  | slot args attempt doc =>
    cases h
    rw [reconcileSlot.eq_def]
    split
    · exact faithful_reconcileRetry w args attempt
    · split_ifs
      · exact trivial
      · exact faithful_reconcileRetry w args attempt
  | returned status hash => cases h

/-! ### The invariant -/

theorem stampedSince_some : stampedSince row (some d) = true ↔
    ∃ editedAt, row.editedAt = some editedAt ∧ d.sourceEditedAt.getD 0 < editedAt := by
  rw [stampedSince, Option.any_eq_true]
  simp

/-- What holds of the documents in a run whose edits are visible. -/
structure DocsRight (docHash : Cip100Doc → String) (w : DocWorld) : Prop where
  chain : ∀ postId, LinearChain w postId
  bodies : ∀ d ∈ w.cip.docs.rows, d.Hashed docHash
  home : ∀ d ∈ w.cip.docs.rows, ∃ row ∈ w.forum.db.posts.rows, row.id = d.postId
  sources : ∀ d ∈ w.cip.docs.rows, ∀ row ∈ w.forum.db.posts.rows, row.id = d.postId →
    d.sourceEditedAt.getD 0 ≤ row.editedAt.getD 0
  behind : ∀ row ∈ w.forum.db.posts.rows, ∀ head, getHeadDoc w.cip row.id = some head →
    head.Froze row.bodyMd ∨ stampedSince row (some head) = true

theorem DocsRight.forum {w : DocWorld} (h : DocsRight docHash w)
    (hchain : ∀ postId, LinearChain w' postId) (hdocs : w'.cip.docs = w.cip.docs)
    (hmoved : Moved w w') : DocsRight docHash w' := by
  -- the row of a document's post, before and after
  have hread : ∀ d ∈ w'.cip.docs.rows, ∀ row' ∈ w'.forum.db.posts.rows, row'.id = d.postId →
      ∃ row ∈ w.forum.db.posts.rows, row.id = d.postId ∧ ReadOf w'.cip row row' := by
    intro d hd row' hmem' hid'
    obtain ⟨row, hmem, hid⟩ := h.home d (hdocs ▸ hd)
    obtain ⟨found, hfound, hread⟩ := hmoved.rows row hmem
    obtain rfl := w'.forum.db.posts.eq_of_key hfound hmem' (by rw [hread.1, hid, hid'])
    exact ⟨row, hmem, hid, hread⟩
  have hof : ∀ postId, docsOf w'.cip postId = docsOf w.cip postId := fun postId => by
    rw [docsOf, hdocs, docsOf]
  refine ⟨hchain, fun d hd => h.bodies d (hdocs ▸ hd), fun d hd => ?_,
    fun d hd row' hmem' hid' => ?_, fun row' hmem' head hhead => ?_⟩
  · obtain ⟨row, hmem, hid⟩ := h.home d (hdocs ▸ hd)
    obtain ⟨row', hmem', hread⟩ := hmoved.rows row hmem
    exact ⟨row', hmem', hread.1.trans hid⟩
  · obtain ⟨row, hmem, hid, hread⟩ := hread d hd row' hmem' hid'
    exact (h.sources d (hdocs ▸ hd) row hmem hid).trans hread.stamp_le
  · have hmem := List.argmax_mem hhead
    obtain ⟨hd, hpost⟩ := mem_docsOf.mp hmem
    obtain ⟨row, hrow, hid, hread⟩ := hread head hd row' hmem' hpost.symm
    have hhead' : getHeadDoc w.cip row.id = some head := by
      rw [getHeadDoc, ← hof, hid, hpost]
      exact hhead
    rcases hread.2 with ⟨hsame, hbody | hfroze⟩ | ⟨later, hlater, hlt⟩
    · rw [hbody, stampedSince, hsame]
      exact h.behind row hrow head hhead'
    · exact .inl (hfroze head hmem)
    · have hle := h.sources head (hdocs ▸ hd) row hrow hid
      exact .inr (stampedSince_some.mpr ⟨later, hlater, by omega⟩)

theorem moved_forum {w w' : DocWorld} (hdocs : w'.cip.docs = w.cip.docs)
    (hrows : ∀ row ∈ w.forum.db.posts.rows, ∃ row' ∈ w'.forum.db.posts.rows,
      ReadOf w'.cip row row') : Moved w w' :=
  ⟨hrows, fun d hd => ⟨d, hdocs ▸ hd, rfl, rfl, rfl⟩, fun d hd => .inl ⟨d, hdocs ▸ hd, rfl, rfl⟩⟩

theorem moved_edit {w : DocWorld} {forum : EditWorld} {l l' : EditProc}
    (hvisible : w.Visible (.edit l)) (h : editWorldStep w.forum l = some (forum, l')) :
    Moved w { w with forum } := by
  refine moved_forum rfl fun row hmem => ?_
  cases l with
  | write args post =>
    cases h
    refine ⟨if row.id == args.postId then args.written post row else row, ?_, ?_⟩
    · change _ ∈ (editWrite w.forum.db args post).posts.rows
      rw [editWrite_posts]
      exact Table.mem_updateWhere_of_mem _ _ hmem
    · -- the row that is written, and the others
      split_ifs with hid
      · have hwrite := hvisible row hmem (beq_iff_eq.mp hid)
        refine ⟨rfl, ?_⟩
        rw [EditArgs.written]
        split_ifs at hwrite ⊢ with hmarked
        · -- a marked edit stamps the post
          exact .inr ⟨args.now, rfl, hwrite⟩
        · -- a silent one leaves the text that is published, or nothing is
          refine .inl ⟨rfl, hwrite.symm.imp id fun hnone d hd => ?_⟩
          cases hnone ▸ (beq_iff_eq.mp hid) ▸ hd
      · exact .refl _ _
  | read args | grant args post grantId | topic args post =>
    cases h
    exact ⟨row, hmem, .refl _ _⟩
  | returned edited => cases h
  | threw error => cases h

theorem moved_env {w : DocWorld} (h : DocEnv w w') :
    Moved w w' ∧ w'.cip.docs = w.cip.docs := by
  cases h with
  | forum forum henv =>
    refine ⟨moved_forum rfl fun row hmem => ?_, rfl⟩
    cases henv with
    | create new hnew =>
      exact ⟨row, KeyedTable.mem_insertOrIgnore.mpr (.inl hmem), .refl _ _⟩
    | flag hidden deleted =>
      exact ⟨_, Table.mem_updateWhere_of_mem (fun _ => true) _ hmem, rfl, .inl ⟨rfl, .inl rfl⟩⟩
    | tick clock hle | topics topics | grants activeGrants => exact ⟨row, hmem, .refl _ _⟩
  | identities authors actions =>
    exact ⟨moved_forum rfl fun row hmem => ⟨row, hmem, .refl _ _⟩, rfl⟩

/-! ### A reconciler's writes -/

def DocRow.touched (hash : String) (sourceEditedAt : Option ℤ) (d : DocRow) : DocRow :=
  if d.hash == hash then { d with sourceEditedAt } else d

theorem touchSourceEditedAt_rows (db : Cip100Db) (hash : String) (sourceEditedAt : Option ℤ) :
    (touchSourceEditedAt db hash sourceEditedAt).docs.rows =
      db.docs.rows.map (DocRow.touched hash sourceEditedAt) := rfl

theorem DocRow.touched_kept (hash : String) (sourceEditedAt : Option ℤ) (d : DocRow) :
    (d.touched hash sourceEditedAt).hash = d.hash ∧
      (d.touched hash sourceEditedAt).postId = d.postId ∧
      (d.touched hash sourceEditedAt).version = d.version ∧
      (d.touched hash sourceEditedAt).body = d.body := by
  rw [DocRow.touched]
  split_ifs <;> exact ⟨rfl, rfl, rfl, rfl⟩

theorem moved_touch (w : DocWorld) (hash : String) (sourceEditedAt : Option ℤ)
    (published : List Published) :
    Moved w ⟨w.forum, touchSourceEditedAt w.cip hash sourceEditedAt, published⟩ := by
  refine ⟨fun row hmem => ⟨row, hmem, .refl _ _⟩, fun d hd => ?_, fun d' hd' => .inl ?_⟩
  · obtain ⟨hhash, hpost, -, hbody⟩ := DocRow.touched_kept hash sourceEditedAt d
    exact ⟨_, List.mem_map.mpr ⟨d, hd, rfl⟩, hhash, hpost, hbody⟩
  · obtain ⟨d, hd, rfl⟩ := List.mem_map.mp hd'
    obtain ⟨-, hpost, -, hbody⟩ := DocRow.touched_kept hash sourceEditedAt d
    exact ⟨d, hd, hpost.symm, hbody.symm⟩

theorem getHeadDoc_touched {w : DocWorld} {postId hash : String} {sourceEditedAt : Option ℤ}
    (hchain : LinearChain w postId) (hchain' : LinearChain w' postId)
    (hcip : w'.cip = touchSourceEditedAt w.cip hash sourceEditedAt) {head' : DocRow}
    (h : getHeadDoc w'.cip postId = some head') :
    ∃ head, getHeadDoc w.cip postId = some head ∧ head' = head.touched hash sourceEditedAt := by
  obtain ⟨hmem, hversion⟩ := hchain'.getHeadDoc_iff.mp h
  have hrows : w'.cip.docs.rows = w.cip.docs.rows.map (DocRow.touched hash sourceEditedAt) := by
    rw [hcip]
    rfl
  rw [docsOf_map hrows fun d => (DocRow.touched_kept hash sourceEditedAt d).2.1] at hmem hversion
  obtain ⟨head, hhead, rfl⟩ := List.mem_map.mp hmem
  refine ⟨head, hchain.getHeadDoc_iff.mpr ⟨hhead, ?_⟩, rfl⟩
  rw [← (DocRow.touched_kept hash sourceEditedAt head).2.2.1, hversion, List.length_map]

theorem DocsRight.touch {w : DocWorld} (h : DocsRight docHash w)
    (hchain : ∀ postId, LinearChain w' postId) (hforum : w'.forum = w.forum)
    (hcip : w'.cip = touchSourceEditedAt w.cip d.hash post.row.editedAt) (hseen : Seen w post)
    (hd : d ∈ w.cip.docs.rows) (hpost : d.postId = post.row.id) (hfroze : d.Froze post.row.bodyMd) :
    DocsRight docHash w' := by
  obtain ⟨row, hmem, hread⟩ := hseen
  have hdocs : ∀ e' ∈ w'.cip.docs.rows,
      ∃ e ∈ w.cip.docs.rows, e' = e.touched d.hash post.row.editedAt := by
    intro e' he'
    rw [hcip, touchSourceEditedAt_rows] at he'
    obtain ⟨e, he, rfl⟩ := List.mem_map.mp he'
    exact ⟨e, he, rfl⟩
  -- a document that is touched is the one that was read
  have hhit : ∀ e ∈ w.cip.docs.rows, e.touched d.hash post.row.editedAt = e ∨ e = d ∧
      e.touched d.hash post.row.editedAt = { d with sourceEditedAt := post.row.editedAt } := by
    intro e he
    rw [DocRow.touched]
    split_ifs with hhash
    · obtain rfl := w.cip.docs.eq_of_key he hd (beq_iff_eq.mp hhash)
      exact .inr ⟨rfl, rfl⟩
    · exact .inl rfl
  refine ⟨hchain, fun e' he' => ?_, fun e' he' => ?_, fun e' he' r hr hid => ?_,
    fun r hr head' hhead' => ?_⟩
  · obtain ⟨e, he, rfl⟩ := hdocs e' he'
    obtain ⟨body, hbody, hhash, hbodypost, hbodyversion⟩ := h.bodies e he
    obtain ⟨hhash', hpost', hversion', hbody'⟩ :=
      DocRow.touched_kept d.hash post.row.editedAt e
    exact ⟨body, hbody'.trans hbody, hhash.trans hhash'.symm, hbodypost.trans hpost'.symm,
      hbodyversion.trans hversion'.symm⟩
  · obtain ⟨e, he, rfl⟩ := hdocs e' he'
    rw [hforum, (DocRow.touched_kept d.hash post.row.editedAt e).2.1]
    exact h.home e he
  · obtain ⟨e, he, rfl⟩ := hdocs e' he'
    rw [hforum] at hr
    rw [(DocRow.touched_kept d.hash post.row.editedAt e).2.1] at hid
    rcases hhit e he with hsame | ⟨rfl, htouched⟩
    · rw [hsame]
      exact h.sources e he r hr hid
    · obtain rfl := w.forum.db.posts.eq_of_key hmem hr (by rw [hread.1, hid, hpost])
      rw [htouched]
      exact hread.stamp_le
  · rw [hforum] at hr
    obtain ⟨e, hhead, rfl⟩ := getHeadDoc_touched (h.chain r.id) (hchain r.id) hcip hhead'
    have he := List.argmax_mem hhead
    obtain ⟨hemem, hepost⟩ := mem_docsOf.mp he
    rcases hhit e hemem with hsame | ⟨rfl, htouched⟩
    · rw [hsame]
      exact h.behind r hr e hhead
    · obtain rfl := w.forum.db.posts.eq_of_key hmem hr (by rw [hread.1, ← hpost, hepost])
      rw [htouched]
      rcases hread.2 with ⟨-, hbody | hall⟩ | ⟨later, hlater, hlt⟩
      · exact .inl (hbody ▸ hfroze)
      · exact .inl (hall e he)
      · exact .inr (stampedSince_some.mpr ⟨later, hlater, hlt⟩)

variable {doc : DocRow}

theorem getHeadDoc_inserted {w : DocWorld} {postId : String} (hchain : LinearChain w postId)
    (hchain' : LinearChain w' postId) (hrows : w'.cip.docs.rows = w.cip.docs.rows ++ [doc])
    (h : getHeadDoc w'.cip postId = some head) :
    doc.postId = postId ∧ head = doc ∨
      doc.postId ≠ postId ∧ getHeadDoc w.cip postId = some head := by
  by_cases hown : doc.postId = postId
  · refine .inl ⟨hown, ?_⟩
    obtain ⟨hmem, hversion⟩ := hchain'.getHeadDoc_iff.mp h
    rw [docsOf_append hrows, if_pos hown] at hmem hversion
    rcases List.mem_append.mp hmem with hold | hnew
    · have hle := (hchain.version_range hold).2
      rw [List.length_append, List.length_singleton] at hversion
      omega
    · exact List.mem_singleton.mp hnew
  · refine .inr ⟨hown, ?_⟩
    rw [getHeadDoc, docsOf_append hrows, if_neg hown, List.append_nil] at h
    exact h

theorem moved_insert {w : DocWorld} (hforum : w'.forum = w.forum)
    (hrows : w'.cip.docs.rows = w.cip.docs.rows ++ [doc])
    (hguard : holdsBody w.forum.db doc.postId post.row.bodyMd post.row.editedAt = true)
    (hfroze : doc.Froze post.row.bodyMd) : Moved w w' := by
  refine ⟨fun row hmem => ⟨row, hforum ▸ hmem, .refl _ _⟩, fun d hd => ⟨d, ?_, rfl, rfl, rfl⟩,
    fun d hd => ?_⟩
  · rw [hrows]
    exact List.mem_append_left _ hd
  · rw [hrows] at hd
    rcases List.mem_append.mp hd with hold | hnew
    · exact .inl ⟨d, hold, rfl, rfl⟩
    · refine .inr fun row hmem hid => ?_
      obtain rfl := List.mem_singleton.mp hnew
      obtain ⟨found, hfound, hbody, -⟩ := holdsBody_eq_true.mp hguard
      cases hfound.symm.trans (ForumDb.post_eq_some.mpr ⟨hmem, hid⟩)
      exact hbody ▸ hfroze

theorem DocsRight.insert {w : DocWorld} (h : DocsRight docHash w)
    (hchain : ∀ postId, LinearChain w' postId) (hforum : w'.forum = w.forum)
    (hrows : w'.cip.docs.rows = w.cip.docs.rows ++ [doc])
    (hguard : holdsBody w.forum.db doc.postId post.row.bodyMd post.row.editedAt = true)
    (hhashed : doc.Hashed docHash) (hfroze : doc.Froze post.row.bodyMd)
    (hsource : doc.sourceEditedAt = post.row.editedAt) : DocsRight docHash w' := by
  obtain ⟨row, hfound, hbody, hedited⟩ := holdsBody_eq_true.mp hguard
  obtain ⟨hmem, hid⟩ := ForumDb.post_eq_some.mp hfound
  have hdocs : ∀ d ∈ w'.cip.docs.rows, d ∈ w.cip.docs.rows ∨ d = doc := by
    intro d hd
    rw [hrows] at hd
    exact (List.mem_append.mp hd).imp_right List.mem_singleton.mp
  refine ⟨hchain, fun d hd => ?_, fun d hd => ?_, fun d hd r hr hrid => ?_,
    fun r hr head hhead => ?_⟩
  · rcases hdocs d hd with hold | rfl
    · exact h.bodies d hold
    · exact hhashed
  · rw [hforum]
    rcases hdocs d hd with hold | rfl
    · exact h.home d hold
    · -- the guard has just found the post
      exact ⟨row, hmem, hid⟩
  · rw [hforum] at hr
    rcases hdocs d hd with hold | rfl
    · exact h.sources d hold r hr hrid
    · obtain rfl := w.forum.db.posts.eq_of_key hmem hr (hid.trans hrid.symm)
      rw [hsource, hedited]
  · rw [hforum] at hr
    rcases getHeadDoc_inserted (h.chain r.id) (hchain r.id) hrows hhead with
      ⟨hown, rfl⟩ | ⟨-, hhead⟩
    · -- the new head has frozen what the post holds
      obtain rfl := w.forum.db.posts.eq_of_key hmem hr (hid.trans hown)
      exact .inl (hbody ▸ hfroze)
    · exact h.behind r hr head hhead

theorem Prepared.froze (h : Prepared db post doc) : doc.Froze post.row.bodyMd := by
  obtain ⟨body, hbody, hcomment⟩ := h.body
  intro found hfound
  rw [← hcomment, Option.some.inj (hfound.symm.trans hbody)]

/-- **A step of a reconciler** keeps what holds of the documents. -/
theorem DocsRight.reconcile {w : DocWorld} (h : DocsRight docHash w) (hknows : l.Knows w.cip)
    (hl : l.Faithful docHash w) (heff : ReconcileEffect w w'.cip l)
    (hw' : w' = ⟨w.forum, w'.cip, w.published ++ publishedBy w l⟩) :
    DocsRight docHash w' ∧ Moved w w' := by
  have hchain : ∀ postId, LinearChain w' postId := fun postId => by
    rw [hw']
    exact (h.chain postId).reconcile hknows heff
  have hforum : w'.forum = w.forum := by rw [hw']
  rcases heff with ⟨hcip, -⟩ | ⟨post, known, rfl, hcip, -⟩ |
    ⟨args, attempt, post, doc, rfl, hguard, -, -, hrows, -⟩
  · have hmoved : Moved w w' := moved_forum (by rw [hcip]) fun row hmem =>
      ⟨row, hforum ▸ hmem, .refl _ _⟩
    exact ⟨h.forum hchain (by rw [hcip]) hmoved, hmoved⟩
  · obtain ⟨hseen, d, hd, hhash, hpost, hfroze⟩ := hl
    refine ⟨h.touch hchain hforum (hhash ▸ hcip) hseen hd hpost hfroze, ?_⟩
    rw [hw', hcip]
    exact moved_touch w known.hash post.row.editedAt _
  · exact ⟨h.insert hchain hforum hrows hguard hl.1 hknows.froze hl.2,
      moved_insert hforum hrows hguard hknows.froze⟩

/-! ### Every interleaving -/

/-- What a process relies on beside what it knows of the documents. -/
def PostProc.Faithful (docHash : Cip100Doc → String) (w : DocWorld) : PostProc → Prop
  | .edit _ => True
  | .reconcile l => l.Faithful docHash w

theorem PostProc.Faithful.mono {w : DocWorld} {l : PostProc} (h : l.Faithful docHash w)
    (hmoved : Moved w w') : l.Faithful docHash w' := by
  cases l with
  | edit l => exact trivial
  | reconcile l => exact ReconcileProc.Faithful.mono h hmoved

theorem docStep_visible {w : DocWorld} {l l' : PostProc} (hvisible : w.Visible l)
    (hinv : DocsRight docHash w) (hknows : l.Knows w) (hl : l.Faithful docHash w)
    (h : docStep docHash w l = some (w', l')) :
    l'.Faithful docHash w' ∧ DocsRight docHash w' ∧ Moved w w' := by
  obtain ⟨-, -, hchain⟩ := docStep_spec hinv.chain hknows h
  cases l with
  | edit l =>
    obtain ⟨⟨forum, m⟩, hstep, hout⟩ := Option.map_eq_some_iff.mp h
    cases hout
    have hmoved := moved_edit hvisible hstep
    exact ⟨trivial, hinv.forum hchain rfl hmoved, hmoved⟩
  | reconcile l =>
    obtain ⟨⟨db', m⟩, hstep, hout⟩ := Option.map_eq_some_iff.mp h
    cases hout
    obtain ⟨-, heff⟩ := reconcileStep_spec hknows hstep
    have hboth : DocsRight docHash ⟨w.forum, db', w.published ++ publishedBy w l⟩ ∧ _ :=
      hinv.reconcile hknows hl heff rfl
    obtain ⟨hright, hmoved⟩ := hboth
    exact ⟨(faithful_reconcileStep hknows hl hstep).mono hmoved, hright, hmoved⟩

/-- The invariant of all interleavings whose edits are visible. -/
def visibleSound (docHash : Cip100Doc → String) :
    (docProgram docHash DocEnv).SoundWhen editsVisible DocWorld.Initial where
  inv := DocsRight docHash
  asserts w l := l.Knows w ∧ l.Faithful docHash w
  apart _ _ := True
  symm _ _ _ := trivial
  init w hinit := by
    have hempty : ∀ d, d ∉ w.cip.docs.rows := fun d hd =>
      absurd (hinit.docs ▸ hd) List.not_mem_nil
    refine ⟨(docSound docHash).init w hinit, fun d hd => absurd hd (hempty d),
      fun d hd => absurd hd (hempty d), fun d hd => absurd hd (hempty d),
      fun row _ head hhead => ?_⟩
    exact absurd (mem_docsOf.mp (List.argmax_mem hhead)).1 (hempty head)
  start w l _ _ hstart := by
    cases hstart with
    | editPost args => exact ⟨⟨trivial, trivial⟩, fun _ _ => trivial⟩
    | reconcilePostDocs args => exact ⟨⟨trivial, trivial⟩, fun _ _ => trivial⟩
  step w l w' l' _ hvisible hinv hl hstep := by
    obtain ⟨hfaithful, hright, -⟩ := docStep_visible hvisible hinv hl.1 hl.2 hstep
    exact ⟨hright, (docStep_spec hinv.chain hl.1 hstep).1, hfaithful⟩
  noninterference w l w' l' m _ hvisible _ hinv hl hm _ hstep := by
    obtain ⟨-, -, hmoved⟩ := docStep_visible hvisible hinv hl.1 hl.2 hstep
    obtain ⟨-, hkept, -⟩ := docStep_spec hinv.chain hl.1 hstep
    exact ⟨⟨hm.1.mono hkept, hm.2.mono hmoved⟩, trivial⟩
  env w w' _ hinv henv := by
    obtain ⟨hmoved, hdocs⟩ := moved_env henv
    have hchain : ∀ postId, LinearChain w' postId ∧ DocsKept w.cip w'.cip := fun postId =>
      (hinv.chain postId).env (.inl henv)
    exact ⟨hinv.forum (fun postId => (hchain postId).1) hdocs hmoved,
      fun m hm => ⟨hm.1.mono (hchain "").2, hm.2.mono hmoved⟩⟩

/-! ### A sweep -/

variable {now : ℤ}

theorem mem_sweep {w : DocWorld} {id : String} : id ∈ sweep w now ↔
    ∃ row ∈ w.forum.db.posts.rows, row.id = id ∧
      (∃ topic, w.forum.db.topic row.topicId = some topic ∧ neverEmitted row topic = false) ∧
        isStale w.cip (now - EDIT_GRACE_MS) row = true := by
  rw [sweep, findStalePostIds, Option.elim_none, List.mem_map]
  refine exists_congr fun row => ?_
  rw [List.mem_insertionSort, List.mem_filter, isStaleCandidate, Bool.and_eq_true,
    Option.any_eq_true]
  simp only [Bool.not_eq_true', and_assoc]
  constructor
  · rintro ⟨hmem, htopic, hstale, hid⟩
    exact ⟨hmem, hid, htopic, hstale⟩
  · rintro ⟨hmem, hid, htopic, hstale⟩
    exact ⟨hmem, htopic, hstale, hid⟩

theorem inScope_of_mem_sweep {w : DocWorld} (htime : SweepInTime w now) {id : String}
    (h : id ∈ sweep w now) : ∃ row ∈ w.forum.db.posts.rows, row.id = id ∧ InScope w now row := by
  obtain ⟨row, hmem, hid, ⟨topic, htopic, hemitted⟩, hstale⟩ := mem_sweep.mp h
  refine ⟨row, hmem, hid, topic, htopic, ?_⟩
  rw [outOfScope, hemitted, Bool.false_or]
  obtain ⟨hboundary, hstamped⟩ := htime row hmem topic htopic hemitted
  rw [isStale, Bool.or_eq_true, Bool.and_eq_true, Option.isNone_iff_eq_none,
    decide_eq_true_iff] at hstale
  rcases hstale with ⟨hnone, hcutoff⟩ | hstale
  · have hne := hboundary hnone
    rw [isWithinGrace, decide_eq_false_iff_not]
    omega
  · exact hstamped hstale

theorem not_mem_sweep {w : DocWorld} (hmem : row ∈ w.forum.db.posts.rows)
    (hhead : getHeadDoc w.cip row.id = some head) (hsource : head.sourceEditedAt = row.editedAt) :
    row.id ∉ sweep w now := by
  intro h
  obtain ⟨found, hfound, hid, -, hstale⟩ := mem_sweep.mp h
  obtain rfl := w.forum.db.posts.eq_of_key hfound hmem hid
  rw [isStale, hhead, Option.isNone_some, Bool.false_and, Bool.false_or, stampedSince_some]
    at hstale
  obtain ⟨editedAt, hedited, hlt⟩ := hstale
  rw [hsource, hedited, Option.getD_some] at hlt
  exact lt_irrefl _ hlt

theorem DocsRight.complete {w : DocWorld} (h : DocsRight docHash w)
    (hmem : row ∈ w.forum.db.posts.rows) (hscope : InScope w now row) (hbehind : Behind w row) :
    row.id ∈ sweep w now := by
  obtain ⟨topic, htopic, hscope⟩ := hscope
  rw [outOfScope, Bool.or_eq_false_iff] at hscope
  refine mem_sweep.mpr ⟨row, hmem, rfl, ⟨topic, htopic, hscope.1⟩, ?_⟩
  rw [isStale, Bool.or_eq_true]
  rcases hhead : getHeadDoc w.cip row.id with _ | head
  · left
    have hpast := hscope.2
    rw [isWithinGrace, decide_eq_false_iff_not] at hpast
    rw [Option.isNone_none, Bool.true_and, decide_eq_true_iff]
    omega
  · right
    obtain ⟨hd, -⟩ := mem_docsOf.mp (List.argmax_mem hhead)
    obtain ⟨body, hbody, -⟩ := h.bodies head hd
    exact (h.behind row hmem head hhead).resolve_left fun hfroze =>
      hbehind head hhead body hbody (hfroze body hbody)

/-! ### A reconciler with nothing else running -/

section Alone

variable {w : DocWorld}

/-- A reconciler comes to an answer, and leaves the documents as described. -/
def EndsWith (docHash : Cip100Doc → String) (forum : ForumDb) (s : Cip100Db × ReconcileProc)
    (goal : Cip100Db → Prop) : Prop :=
  ∃ n cip status hash, reconcileAlone docHash forum n s = (cip, .returned status hash) ∧ goal cip

variable {goal : Cip100Db → Prop}

theorem EndsWith.returned {forum : ForumDb} {status : ReconcileStatus} {hash : Option String}
    (h : goal cip) : EndsWith docHash forum (cip, .returned status hash) goal :=
  ⟨0, cip, status, hash, rfl, h⟩

theorem EndsWith.step {forum : ForumDb} {l : ReconcileProc} {out : Cip100Db × ReconcileProc}
    (h : EndsWith docHash forum out goal) (hstep : reconcileStep docHash forum db l = some out) :
    EndsWith docHash forum (db, l) goal := by
  obtain ⟨n, cip, status, hash, hrun, hgoal⟩ := h
  refine ⟨n + 1, cip, status, hash, ?_, hgoal⟩
  rw [reconcileAlone, hstep]
  exact hrun

theorem nextDoc_free (h : DocsRight docHash w) (hapart : HashesApart docHash)
    (args : ReconcileArgs) (post : LoadedPost) (author : AuthorDescriptor)
    (parentDocHash : Option String) :
    let doc := nextDoc docHash args post author (getHeadDoc w.cip post.row.id) parentDocHash
    (∀ d ∈ w.cip.docs.rows, d.hash ≠ doc.hash) ∧
      ∀ d ∈ w.cip.docs.rows, (d.postId, d.version) ≠ (doc.postId, doc.version) := by
  intro doc
  have hversion : doc.version = (docsOf w.cip post.row.id).length + 1 := by
    change ((getHeadDoc w.cip post.row.id).map (·.version)).getD 0 + 1 = _
    rcases hhead : getHeadDoc w.cip post.row.id with _ | head
    · rw [getHeadDoc_eq_none.mp hhead]
      rfl
    · exact congrArg (· + 1) ((h.chain post.row.id).getHeadDoc_iff.mp hhead).2
  have hslot : ∀ d ∈ w.cip.docs.rows, d.postId = post.row.id → d.version ≠ doc.version := by
    intro d hd hpost hsame
    have hle := ((h.chain post.row.id).version_range (mem_docsOf.mpr ⟨hd, hpost⟩)).2
    omega
  refine ⟨fun d hd hhash => ?_, fun d hd hsame => ?_⟩
  · -- equal hashes would be of the same post and version
    obtain ⟨body, -, hbodyhash, hpost, hversion'⟩ := h.bodies d hd
    obtain ⟨hpost', hversion''⟩ := hapart body _ (hbodyhash.trans hhash)
    exact hslot d hd (hpost.symm.trans hpost') (hversion'.symm.trans hversion'')
  · obtain ⟨hpost, hversion'⟩ := Prod.mk.inj hsame
    exact hslot d hd hpost hversion'

theorem insertOrIgnore_free {docs : DocTable} {doc : DocRow}
    (hhash : ∀ d ∈ docs.rows, d.hash ≠ doc.hash)
    (hslot : ∀ d ∈ docs.rows, (d.postId, d.version) ≠ (doc.postId, doc.version)) :
    (docs.insertOrIgnore doc).2 = true := by
  by_contra hnot
  rcases (DoublyKeyedTable.insertOrIgnore_of_false (Bool.not_eq_true _ ▸ hnot)).2 with
    htaken | htaken
  · obtain ⟨d, hd, heq⟩ := List.mem_map.mp htaken
    exact hhash d hd heq
  · obtain ⟨d, hd, heq⟩ := List.mem_map.mp htaken
    exact hslot d hd heq

variable {args : ReconcileArgs} {post : LoadedPost}

theorem ends_insert (h : DocsRight docHash w) (hapart : HashesApart docHash) (now : ℤ) (attempt : ℕ)
    (hmem : post.row ∈ w.forum.db.posts.rows) (hid : post.row.id = args.postId)
    (author : AuthorDescriptor) (parentDocHash : Option String) :
    EndsWith docHash w.forum.db
      (w.cip, .insert args attempt post
        (nextDoc docHash args post author (getHeadDoc w.cip post.row.id) parentDocHash))
      fun cip => post.row.id ∉ sweep { w with cip } now := by
  obtain ⟨hhash, hslot⟩ := nextDoc_free h hapart args post author parentDocHash
  set doc := nextDoc docHash args post author (getHeadDoc w.cip post.row.id) parentDocHash with hdoc
  have hguard : holdsBody w.forum.db doc.postId post.row.bodyMd post.row.editedAt = true :=
    holdsBody_eq_true.mpr ⟨post.row, ForumDb.post_eq_some.mpr ⟨hmem, rfl⟩, rfl, rfl⟩
  have hinserted := insertOrIgnore_free hhash hslot
  obtain ⟨hrows, -, -⟩ := DoublyKeyedTable.insertOrIgnore_of_true hinserted
  have hinsert : insertDoc w.forum.db w.cip doc post.row.bodyMd post.row.editedAt =
      ({ w.cip with docs := (w.cip.docs.insertOrIgnore doc).1 }, true) := by
    rw [insertDoc, if_pos hguard, ← hinserted]
  have hstep : reconcileStep docHash w.forum.db w.cip (.insert args attempt post doc) =
      some ({ w.cip with docs := (w.cip.docs.insertOrIgnore doc).1 },
        .returned .created (some doc.hash)) := by
    rw [reconcileStep, hinsert]
    rfl
  refine .step (.returned ?_) hstep
  -- the chain behind the insert, and so its newest document
  have hknown : KnownHead w.cip args.postId (getHeadDoc w.cip post.row.id) := fun head hhead =>
    hid ▸ knownHead_of_getHeadDoc hhead head rfl
  have hprepared : Prepared w.cip post doc :=
    prepared_nextDoc hid hknown
  have hfree : (doc.postId, doc.version) ∉ w.cip.docs.rows.map fun d => (d.postId, d.version) := by
    intro htaken
    obtain ⟨d, hd, hsame⟩ := List.mem_map.mp htaken
    exact hslot d hd hsame
  have hchain : LinearChain ⟨w.forum, { w.cip with docs := (w.cip.docs.insertOrIgnore doc).1 },
      w.published ++ [publication w.forum doc]⟩ post.row.id :=
    (h.chain post.row.id).insert hprepared hfree hguard rfl hrows rfl
  rcases hhead : getHeadDoc { w.cip with docs := (w.cip.docs.insertOrIgnore doc).1 }
    post.row.id with _ | head
  · have hempty := getHeadDoc_eq_none.mp hhead
    have hown : doc.postId = post.row.id := rfl
    rw [docsOf_append hrows, if_pos hown] at hempty
    exact absurd hempty (by simp)
  · rcases getHeadDoc_inserted (h.chain post.row.id) hchain hrows hhead with ⟨-, rfl⟩ | ⟨hother, -⟩
    · exact not_mem_sweep (w := { w with cip := _ }) hmem hhead rfl
    · exact absurd rfl hother

theorem ends_build (h : DocsRight docHash w) (hapart : HashesApart docHash) (now : ℤ) (attempt : ℕ)
    (hmem : post.row ∈ w.forum.db.posts.rows) (hid : post.row.id = args.postId)
    (author : AuthorDescriptor) :
    EndsWith docHash w.forum.db
      (w.cip, reconcileBuild docHash args attempt post author (getHeadDoc w.cip post.row.id))
      fun cip => post.row.id ∉ sweep { w with cip } now := by
  rw [reconcileBuild]
  split
  · exact (ends_insert h hapart now attempt hmem hid author _).step rfl
  · exact ends_insert h hapart now attempt hmem hid author none

theorem ends_touch (h : DocsRight docHash w) (now : ℤ) (hmem : post.row ∈ w.forum.db.posts.rows)
    (hhead : getHeadDoc w.cip post.row.id = some head) :
    EndsWith docHash w.forum.db (w.cip, .touch post head)
      fun cip => post.row.id ∉ sweep { w with cip } now := by
  refine .step (.returned ?_) rfl
  set cip := touchSourceEditedAt w.cip head.hash post.row.editedAt with hcip
  have hrows := touchSourceEditedAt_rows w.cip head.hash post.row.editedAt
  have hchain : LinearChain ⟨w.forum, cip, w.published ++ []⟩ post.row.id :=
    (h.chain post.row.id).reconcile (l := .touch post head) trivial
      (.touch post head rfl hcip rfl)
  rcases hhead' : getHeadDoc cip post.row.id with _ | head'
  · have hempty := getHeadDoc_eq_none.mp hhead'
    rw [docsOf_map hrows fun d => (DocRow.touched_kept head.hash post.row.editedAt d).2.1,
      List.map_eq_nil_iff] at hempty
    exact absurd (getHeadDoc_eq_none.mpr hempty) (by simp [hhead])
  · obtain ⟨old, hold, rfl⟩ := getHeadDoc_touched (h.chain post.row.id) hchain hcip hhead'
    cases hhead.symm.trans hold
    refine not_mem_sweep (w := { w with cip := cip }) hmem hhead' ?_
    rw [DocRow.touched, if_pos (beq_self_eq_true head.hash)]

theorem ends_reconcile (h : DocsRight docHash w) (hapart : HashesApart docHash) (now : ℤ)
    {row : PostRow} (hmem : row ∈ w.forum.db.posts.rows) (hid : row.id = args.postId)
    (hscope : InScope w args.now row) :
    EndsWith docHash w.forum.db (w.cip, .load args 0)
      fun cip => args.postId ∉ sweep { w with cip } now := by
  obtain ⟨topic, htopic, hscope⟩ := hscope
  obtain ⟨post, hload, rfl, rfl⟩ : ∃ post, loadPost w.forum.db w.cip args.postId = some post ∧
      post.row = row ∧ post.topic = topic := by
    rw [loadPost, ForumDb.post_eq_some.mpr ⟨hmem, hid⟩]
    dsimp only
    rw [htopic]
    exact ⟨_, rfl, rfl, rfl⟩
  have hloaded : reconcileStep docHash w.forum.db w.cip (.load args 0) =
      some (w.cip, .identify args 0 post) := by
    rw [reconcileStep, hload, reconcileLoad, hscope]
    rfl
  refine .step (.step ?_ rfl) hloaded
  rw [← hid]
  set author := w.cip.authors post.row.authorId
  -- nothing is published yet, or the head is compared with the post
  rcases hhead : getHeadDoc w.cip post.row.id with _ | head
  · have hbuild := ends_build h hapart now 0 hmem hid author
    rw [hhead] at hbuild
    refine hbuild.step ?_
    rw [reconcileStep, ← hid, hhead]
  · have hfound : reconcileStep docHash w.forum.db w.cip (.head args 0 post author) =
        some (w.cip, .compare args 0 post author head) := by
      rw [reconcileStep, ← hid, hhead]
    refine .step (.step ?_ rfl) hfound
    rw [reconcileCompare]
    split_ifs
    · -- the same content: the head is stamped
      exact ends_touch h now hmem hhead
    · have hbuild := ends_build h hapart now 0 hmem hid author
      rw [hhead] at hbuild
      exact hbuild

end Alone

/-! ### Sweeps of runs whose edits are visible -/

theorem InScope.later {w : DocWorld} {now' : ℤ} (h : InScope w now row) (hle : now ≤ now') :
    InScope w now' row := by
  obtain ⟨topic, htopic, hscope⟩ := h
  refine ⟨topic, htopic, ?_⟩
  rw [outOfScope, Bool.or_eq_false_iff, isWithinGrace, decide_eq_false_iff_not] at hscope ⊢
  exact ⟨hscope.1, by omega⟩

section Runs

variable {ι : Type*} [DecidableEq ι] {s : Interleaved DocWorld PostProc ι}

/-- **The sweep is right**, in every run whose edits stamp and freeze in time, at every time that is
not the end of a grace window nor inside the one of a stamped post. -/
theorem sweepRight (hapart : HashesApart docHash)
    (h : (((docProgram docHash DocEnv).system ι DocWorld.Initial).restrict
      editsVisible.Met).Reachable s) {now : ℤ} (htime : SweepInTime s.shared now) :
    SweepRight docHash s.shared now := by
  have hright : DocsRight docHash s.shared := ((visibleSound docHash).holds h).inv
  refine ⟨fun row hmem => hright.complete hmem, fun id hid => inScope_of_mem_sweep htime hid,
    fun args hid hle => ?_⟩
  obtain ⟨row, hmem, hrow, hscope⟩ := inScope_of_mem_sweep htime hid
  exact ends_reconcile hright hapart now hmem hrow (hscope.later hle)

end Runs

/-! ### A post that is behind for good -/

/-- A sample hash that tells posts and versions apart. -/
def sweepDocHash (doc : Cip100Doc) : String :=
  String.ofList (List.replicate doc.version 'v' ++ '/' :: doc.postId.toList)

theorem sweepDocHash_apart : HashesApart sweepDocHash := by
  have hsplit : ∀ (n m : ℕ) (l l' : List Char),
      List.replicate n 'v' ++ '/' :: l = List.replicate m 'v' ++ '/' :: l' → l = l' ∧ n = m := by
    intro n
    induction n with
    | zero =>
      rintro (_ | m) l l' h
      · exact ⟨(List.cons.inj h).2, rfl⟩
      · exact absurd (List.cons.inj h).1 (by decide)
    | succ n ih =>
      rintro (_ | m) l l' h
      · exact absurd (List.cons.inj h).1 (by decide)
      · obtain ⟨hl, hn⟩ := ih m l l' (List.cons.inj h).2
        exact ⟨hl, congrArg (· + 1) hn⟩
  intro a b h
  obtain ⟨hpost, hversion⟩ := hsplit _ _ _ _ (String.ofList_injective h)
  exact ⟨String.toList_injective hpost, hversion⟩

/-- A step that is checked to be visible. -/
def docStepVisible (_ : Unit) (w : DocWorld) (l : PostProc) : Option (DocWorld × PostProc) :=
  if w.Visible l then docStep sweepDocHash w l else none

theorem docStepVisible_moves (k : Unit) (w : DocWorld) (l : PostProc) (w' : DocWorld)
    (l' : PostProc) (h : docStepVisible k w l = some (w', l')) :
    (docProgram sweepDocHash DocEnv).Step w l w' l' ∧ editsVisible.state w ∧
      editsVisible.mover w l := by
  rw [docStepVisible] at h
  split_ifs at h with hvisible
  exact ⟨h, trivial, hvisible⟩

/-- A document, and a marked edit: the sweep finds the post. -/
theorem sweepRight_edited :
    ∃ s : Interleaved DocWorld PostProc ℕ,
      (((docProgram sweepDocHash DocEnv).system ℕ DocWorld.Initial).restrict
        editsVisible.Met).Reachable s ∧
        sweep s.shared 2000000 = ["p1"] ∧ SweepRight sweepDocHash s.shared 2000000 := by
  have h₀ : (((docProgram sweepDocHash DocEnv).system ℕ DocWorld.Initial).restrict
      editsVisible.Met).Reachable ⟨sampleDocWorld, fun _ => none⟩ :=
    .init ⟨⟨sampleWorld_initial, rfl, rfl⟩, fun _ => rfl⟩
  have h₁ := Program.reachable_start h₀ (i := 0) trivial rfl (.reconcilePostDocs sampleReconcile)
  have h₂ := Program.reachable_start h₁ (i := 1) trivial rfl (.editPost (sampleEdit "b"))
  have h₃ := Program.reachable_runWhen (fun _ _ _ _ _ _ => trivial) docStepVisible_moves h₂
    ([0, 0, 0, 0, 1, 1, 1].map fun i => (i, ())) (by decide +kernel)
  exact ⟨_, h₃, by decide +kernel, sweepRight sweepDocHash_apart h₃ (by decide +kernel)⟩

/-- An edit that started inside the grace window writes after the first document: nobody is
running, and no sweep finds the post. -/
theorem not_sweepRight :
    ∃ s : Interleaved DocWorld PostProc Bool,
      ((docProgram sweepDocHash DocEnv).system Bool DocWorld.Initial).Reachable s ∧
        (∀ i, (s.procs i).all fun l => (docStep sweepDocHash s.shared l).isNone) ∧
        SweepInTime s.shared 2000000 ∧ sweep s.shared 2000000 = [] ∧
        ¬SweepRight sweepDocHash s.shared 2000000 := by
  have h₀ : ((docProgram sweepDocHash DocEnv).system Bool DocWorld.Initial).Reachable
      ⟨sampleDocWorld, fun _ => none⟩ := .init ⟨⟨sampleWorld_initial, rfl, rfl⟩, fun _ => rfl⟩
  have h₁ := h₀.step (.start (i := true) rfl (.editPost { sampleEdit "b" with now := 900000 }))
  have h₂ := h₁.step (.start (i := false) rfl (.reconcilePostDocs sampleReconcile))
  have h₃ := Program.reachable_run (fun _ _ _ _ _ h => h) h₂
    ([true, true, false, false, false, false, true].map fun i => (i, ())) (by decide +kernel)
  refine ⟨_, h₃, by decide +kernel, by decide +kernel, by decide +kernel, fun hright => ?_⟩
  have hmissed := hright.complete { samplePost with bodyMd := "b", bodyHtml := "b" }
    (by decide +kernel) ⟨sampleTopic, by decide +kernel, by decide +kernel⟩ (by decide +kernel)
  exact nomatch hmissed

end DrepTalk
