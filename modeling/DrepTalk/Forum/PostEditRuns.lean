import DrepTalk.Forum.PostEdits
import DrepTalk.Library.Interleaving

/-!
# Overlapping edits

Any number of edits, interleaved between their statements, while the clock advances, posts are
written, flags hide and show them, and topics and grants change. Beside the tables the run records
the bodies that writes have replaced, each with the time of the write.

**What the archive owes** (`HistoryKept`). A replaced body that the post still held after its
grace window is archived, once and in the order of the writes, and no other one is; the history
lists the current body and then the archived ones, newest first.

The archive entry is the body the edit has *read*, so two edits that read the same body archive
it twice and lose the one between them (`not_historyKept`). It is kept in every run in which no
edit writes over a body it has not read, with a reading of the clock that is not newer than the
stamp of the post, or silently after the window (`historyKept`).
-/

namespace DrepTalk

structure ReplacedBody where
  postId : String
  bodyMd : String
  replacedAt : ℤ

/-- The tables, the clock, and the bodies replaced so far. -/
structure EditWorld where
  db : ForumDb
  clock : ℤ
  replaced : List ReplacedBody

/-- What a step replaces: the body the post holds when it is written. -/
def replacedBy (w : EditWorld) : EditProc → List ReplacedBody
  | .write args _ =>
    match w.db.post args.postId with
    | some row => [⟨args.postId, row.bodyMd, w.clock⟩]
    | none => []
  | _ => []

/-- A step of an edit, with the record of what it replaces. -/
def editWorldStep (w : EditWorld) (l : EditProc) : Option (EditWorld × EditProc) :=
  (editStep w.db l).map fun out => (⟨out.1, w.clock, w.replaced ++ replacedBy w l⟩, out.2)

inductive PostEnv (w : EditWorld) : EditWorld → Prop
  | tick (clock : ℤ) (hle : w.clock ≤ clock) : PostEnv w { w with clock }
  | create (row : PostRow) (hnew : row.editedAt = none) :
    PostEnv w { w with db := { w.db with posts := w.db.posts.insertOrIgnore row } }
  | flag (hidden deleted : PostRow → Bool) :
    PostEnv w { w with db := { w.db with
      posts := w.db.posts.updateWhere (fun _ => true)
        (fun row => { row with hidden := hidden row, deleted := deleted row }) fun _ _ => rfl } }
  | topics (topics : TopicTable) : PostEnv w { w with db := { w.db with topics } }
  | grants (activeGrants : List (String × String)) :
    PostEnv w { w with db := { w.db with activeGrants } }

/-- Edits, each with a reading of the clock. -/
def editProgram : Program EditWorld EditProc where
  Start w l := ∃ args, args.now = w.clock ∧ l = .read args
  Step w l w' l' := editWorldStep w l = some (w', l')
  Env := PostEnv

/-- Before the first edit nothing has been replaced, archived or stamped. -/
structure EditWorld.Initial (w : EditWorld) : Prop where
  replaced : w.replaced = []
  revisions : w.db.revisions = []
  unedited : ∀ row ∈ w.db.posts.rows, row.editedAt = none

/-! ### What the archive owes -/

/-- Whether a replaced body of a post was still held after the grace window. -/
def heldAfterGrace (row : PostRow) (b : ReplacedBody) : Bool :=
  b.postId == row.id && !isWithinGrace row.createdAt b.replacedAt

/-- The replaced bodies of a post that were still held after its grace window. -/
def survivors (w : EditWorld) (row : PostRow) : List ReplacedBody :=
  w.replaced.filter (heldAfterGrace row)

/-- Each of them is archived once, in order, and the history shows them behind the current
body. -/
def HistoryKept (w : EditWorld) : Prop :=
  ∀ row ∈ w.db.posts.rows,
    (revisionsOf w.db row.id).map (·.bodyMd) = (survivors w row).map (·.bodyMd) ∧
      ∀ history, getPostHistory w.db row.id = some history →
        history.versions.map (·.bodyMd) =
          row.bodyMd :: ((survivors w row).map (·.bodyMd)).reverse

/-- An edit writes over the body it has read, and stamps the post later than before; a silent one
writes inside the grace window. -/
def EditWorld.InTime (w : EditWorld) : EditProc → Prop
  | .write args post =>
    if args.marked post then
      ∀ row ∈ w.db.posts.rows, row.id = args.postId → row.bodyMd = post.bodyMd ∧
        ∀ editedAt ∈ row.editedAt, editedAt < args.now
    else isWithinGrace post.createdAt w.clock = true
  | _ => True

instance (w : EditWorld) : DecidablePred w.InTime
  | .write args post => inferInstanceAs (Decidable (if args.marked post = true then _ else _))
  | .read _ | .grant _ _ _ | .topic _ _ | .returned _ | .threw _ => isTrue trivial

def editsInTime : Program.Condition EditWorld EditProc where
  state _ := True
  mover := EditWorld.InTime
  others _ _ _ := True

/-! ### Histories -/

variable {db : ForumDb} {row : PostRow}

theorem ForumDb.post_eq_some {id : String} :
    db.post id = some row ↔ row ∈ db.posts.rows ∧ row.id = id :=
  db.posts.find?_eq_some fun _ => beq_iff_eq

theorem orderedInsert_eq_append {a : RevisionRow} {l : List RevisionRow}
    (h : ∀ b ∈ l, ¬replacedLater a b) : l.orderedInsert replacedLater a = l ++ [a] := by
  induction l with
  | nil => rfl
  | cons b l ih =>
    rw [List.orderedInsert_cons, if_neg (h b List.mem_cons_self),
      ih fun c hc => h c (List.mem_cons_of_mem b hc), List.cons_append]

theorem insertionSort_eq_reverse {l : List RevisionRow}
    (h : l.Pairwise fun a b => a.replacedAt < b.replacedAt) :
    l.insertionSort replacedLater = l.reverse := by
  induction l with
  | nil => rfl
  | cons a l ih =>
    obtain ⟨hfirst, hrest⟩ := List.pairwise_cons.mp h
    rw [List.insertionSort_cons, ih hrest, List.reverse_cons]
    refine orderedInsert_eq_append fun b hb hlater => ?_
    have hlt := hfirst b (List.mem_reverse.mp hb)
    exact absurd (show b.replacedAt ≤ a.replacedAt from hlater) (by omega)

theorem getPostHistory_bodies (hmem : row ∈ db.posts.rows)
    (hordered : (revisionsOf db row.id).Pairwise fun a b => a.replacedAt < b.replacedAt)
    {history : PostHistory} (h : getPostHistory db row.id = some history) :
    history.versions.map (·.bodyMd) =
      row.bodyMd :: ((revisionsOf db row.id).map (·.bodyMd)).reverse := by
  rw [getPostHistory, ForumDb.post_eq_some.mpr ⟨hmem, rfl⟩] at h
  dsimp only at h
  split at h
  · cases h
  · split_ifs at h
    cases h
    rw [List.map_cons, archivedVersions_bodies, insertionSort_eq_reverse hordered,
      List.map_reverse]

/-! ### One step -/

/-- Posts that are still there, with the time they were created. -/
def RowsKept (db db' : ForumDb) : Prop :=
  ∀ row ∈ db.posts.rows, ∃ row' ∈ db'.posts.rows, row'.id = row.id ∧ row'.createdAt = row.createdAt

theorem RowsKept.refl (db : ForumDb) : RowsKept db db := fun row hmem => ⟨row, hmem, rfl, rfl⟩

theorem rowsKept_updateWhere {db' : ForumDb} {p : PostRow → Bool} {f : PostRow → PostRow}
    (hposts : db'.posts.rows = Table.updateWhere p f db.posts.rows)
    (hid : ∀ row, (f row).id = row.id) (hcreated : ∀ row, (f row).createdAt = row.createdAt) :
    RowsKept db db' := by
  intro row hmem
  refine ⟨if p row then f row else row, ?_, ?_⟩
  · rw [hposts]
    exact Table.mem_updateWhere_of_mem p f hmem
  · split_ifs
    · exact ⟨hid row, hcreated row⟩
    · exact ⟨rfl, rfl⟩

/-- What the write of an edit makes of a post. -/
def EditArgs.written (args : EditArgs) (post row : PostRow) : PostRow :=
  { row with
    bodyMd := args.bodyMd
    bodyHtml := args.bodyHtml
    editedAt := if args.marked post then some args.now else row.editedAt }

theorem editWrite_posts (db : ForumDb) (args : EditArgs) (post : PostRow) :
    (editWrite db args post).posts.rows =
      Table.updateWhere (fun row => row.id == args.postId) (args.written post) db.posts.rows := by
  have hwritten : args.written post = fun row => { row with
      bodyMd := args.bodyMd
      bodyHtml := args.bodyHtml
      editedAt := if args.marked post then some args.now else row.editedAt } := rfl
  rw [editWrite, hwritten]
  split_ifs <;> rfl

theorem rowsKept_editWrite (db : ForumDb) (args : EditArgs) (post : PostRow) :
    RowsKept db (editWrite db args post) :=
  rowsKept_updateWhere (editWrite_posts db args post) (fun _ => rfl) fun _ => rfl

/-- What an edit has read: the post is there, created when the edit thinks it was, and its clock
reading is an old one. -/
def EditProc.Reads (w : EditWorld) : EditProc → Prop
  | .read args => args.now ≤ w.clock
  | .grant args post _ | .topic args post | .write args post => args.now ≤ w.clock ∧
    ∃ row ∈ w.db.posts.rows, row.id = args.postId ∧ row.createdAt = post.createdAt
  | .returned _ | .threw _ => True

variable {w w' : EditWorld} {l : EditProc}

theorem EditProc.Reads.mono (h : l.Reads w) (hclock : w.clock ≤ w'.clock)
    (hkept : RowsKept w.db w'.db) : l.Reads w' := by
  have hrow : ∀ (args : EditArgs) (post : PostRow), (args.now ≤ w.clock ∧
      ∃ row ∈ w.db.posts.rows, row.id = args.postId ∧ row.createdAt = post.createdAt) →
      args.now ≤ w'.clock ∧
        ∃ row ∈ w'.db.posts.rows, row.id = args.postId ∧ row.createdAt = post.createdAt := by
    rintro args post ⟨hnow, row, hmem, hid, hcreated⟩
    obtain ⟨row', hmem', hid', hcreated'⟩ := hkept row hmem
    exact ⟨hnow.trans hclock, row', hmem', hid'.trans hid, hcreated'.trans hcreated⟩
  cases l with
  | read args => exact le_trans (show args.now ≤ w.clock from h) hclock
  | grant args post grantId | topic args post | write args post => exact hrow args post h
  | returned edited => exact trivial
  | threw error => exact trivial

variable {args : EditArgs}

theorem reads_editChecked
    {post : PostRow}
    {active : Bool}
    (h : (EditProc.topic args post).Reads w) : (editChecked args post active).Reads w := by
  rw [editChecked]
  split_ifs
  · exact trivial
  · exact trivial
  · exact trivial
  · exact h

theorem reads_editRead (hnow : args.now ≤ w.clock) :
    (editRead args (w.db.post args.postId)).Reads w := by
  rcases hpost : w.db.post args.postId with _ | post
  · exact trivial
  · obtain ⟨hmem, hid⟩ := ForumDb.post_eq_some.mp hpost
    have hreads : (EditProc.topic args post).Reads w := ⟨hnow, post, hmem, hid, rfl⟩
    rw [editRead]
    split_ifs
    · exact trivial
    · exact trivial
    · split
      · exact reads_editChecked hreads
      · exact reads_editChecked hreads
      · exact hreads

/-- **One step of an edit.** It leaves the tables alone, or is the write. -/
theorem editStep_spec {l' : EditProc} (hl : l.Reads w) (h : editWorldStep w l = some (w', l')) :
    l'.Reads w' ∧ (w' = w ∨ ∃ args post row, l = .write args post ∧ row ∈ w.db.posts.rows ∧
      row.id = args.postId ∧ row.createdAt = post.createdAt ∧
        w' = ⟨editWrite w.db args post, w.clock,
          w.replaced ++ [⟨args.postId, row.bodyMd, w.clock⟩]⟩) := by
  cases l with
  | read args =>
    cases h
    refine ⟨(reads_editRead hl).mono (le_refl _) (.refl _), .inl ?_⟩
    simp [replacedBy]
  | grant args post grantId =>
    cases h
    refine ⟨(reads_editChecked hl).mono (le_refl _) (.refl _), .inl ?_⟩
    simp [replacedBy]
  | topic args post =>
    cases h
    refine ⟨?_, .inl (by simp [replacedBy])⟩
    rcases w.db.topic post.topicId with _ | topic
    · exact trivial
    · rw [editTopic]
      split_ifs
      · exact trivial
      · exact trivial
      · exact hl.mono (le_refl _) (.refl _)
  | write args post =>
    cases h
    obtain ⟨-, row, hmem, hid, hcreated⟩ := hl
    refine ⟨trivial, .inr ⟨args, post, row, rfl, hmem, hid, hcreated, ?_⟩⟩
    rw [replacedBy, ForumDb.post_eq_some.mpr ⟨hmem, hid⟩]
  | returned edited => cases h
  | threw error => cases h

/-! ### The invariant -/

/-- What holds of the archive in a run that is in time. -/
structure EditSafe (w : EditWorld) : Prop where
  kept : ∀ row ∈ w.db.posts.rows,
    (revisionsOf w.db row.id).map (·.bodyMd) = (survivors w row).map (·.bodyMd)
  ordered : ∀ id, (revisionsOf w.db id).Pairwise fun a b => a.replacedAt < b.replacedAt
  stamped : ∀ row ∈ w.db.posts.rows, ∀ r ∈ revisionsOf w.db row.id,
    ∃ editedAt, row.editedAt = some editedAt ∧ r.replacedAt ≤ editedAt
  archived : ∀ r ∈ w.db.revisions, ∃ row ∈ w.db.posts.rows, row.id = r.postId
  replaced : ∀ b ∈ w.replaced, ∃ row ∈ w.db.posts.rows, row.id = b.postId

theorem EditSafe.archive_complete (h : EditSafe w) : HistoryKept w := by
  intro row hmem
  refine ⟨h.kept row hmem, fun history hhistory => ?_⟩
  rw [getPostHistory_bodies hmem (h.ordered row.id) hhistory, h.kept row hmem]

theorem survivors_congr {row' : PostRow} (hid : row'.id = row.id)
    (hcreated : row'.createdAt = row.createdAt) : survivors w row' = survivors w row := by
  have hheld : heldAfterGrace row' = heldAfterGrace row := by
    funext b
    rw [heldAfterGrace, heldAfterGrace, hid, hcreated]
  rw [survivors, survivors, hheld]

/-- What changes neither archive nor record, and posts only in other columns, keeps it all; so
does a new post. -/
theorem EditSafe.of_rows {w w' : EditWorld} (h : EditSafe w)
    (hrevisions : w'.db.revisions = w.db.revisions) (hreplaced : w'.replaced = w.replaced)
    (hrows : ∀ row' ∈ w'.db.posts.rows, (∃ row ∈ w.db.posts.rows, row'.id = row.id ∧
      row'.createdAt = row.createdAt ∧ row'.editedAt = row.editedAt) ∨
        ∀ row ∈ w.db.posts.rows, row.id ≠ row'.id)
    (hkept : RowsKept w.db w'.db) : EditSafe w' := by
  have hof : ∀ id, revisionsOf w'.db id = revisionsOf w.db id := fun id => by
    rw [revisionsOf, revisionsOf, hrevisions]
  have hsurvivors : ∀ row, survivors w' row = survivors w row := fun row => by
    rw [survivors, survivors, hreplaced]
  have hhome : ∀ id, (∃ row ∈ w.db.posts.rows, row.id = id) →
      ∃ row ∈ w'.db.posts.rows, row.id = id := by
    rintro id ⟨row, hmem, rfl⟩
    obtain ⟨row', hmem', hid', -⟩ := hkept row hmem
    exact ⟨row', hmem', hid'⟩
  -- a post nobody has written yet has neither archive nor record
  have hnone : ∀ row' : PostRow, (∀ row ∈ w.db.posts.rows, row.id ≠ row'.id) →
      revisionsOf w.db row'.id = [] ∧ survivors w row' = [] := by
    intro row' hnew
    constructor
    · refine List.filter_eq_nil_iff.mpr fun r hr hown => ?_
      obtain ⟨row, hmem, hid⟩ := h.archived r hr
      exact hnew row hmem (hid.trans (beq_iff_eq.mp hown))
    · refine List.filter_eq_nil_iff.mpr fun b hb hheld => ?_
      obtain ⟨row, hmem, hid⟩ := h.replaced b hb
      rw [heldAfterGrace, Bool.and_eq_true] at hheld
      exact hnew row hmem (hid.trans (beq_iff_eq.mp hheld.1))
  constructor
  · intro row' hmem'
    rw [hof, hsurvivors]
    rcases hrows row' hmem' with ⟨row, hmem, hid, hcreated, -⟩ | hnew
    · rw [survivors_congr hid hcreated, hid]
      exact h.kept row hmem
    · rw [(hnone row' hnew).1, (hnone row' hnew).2]
      rfl
  · exact fun id => hof id ▸ h.ordered id
  · intro row' hmem' r hr
    rw [hof] at hr
    rcases hrows row' hmem' with ⟨row, hmem, hid, -, hedited⟩ | hnew
    · rw [hedited]
      exact h.stamped row hmem r (hid ▸ hr)
    · cases (hnone row' hnew).1 ▸ hr
  · exact fun r hr => hhome r.postId (h.archived r (hrevisions ▸ hr))
  · exact fun b hb => hhome b.postId (h.replaced b (hreplaced ▸ hb))

theorem EditSafe.silent (h : EditSafe w) (hmem : row ∈ w.db.posts.rows) (hid : row.id = args.postId)
    (hgrace : isWithinGrace row.createdAt w.clock = true) :
    EditSafe ⟨writeSilent w.db args, w.clock,
      w.replaced ++ [⟨args.postId, row.bodyMd, w.clock⟩]⟩ := by
  have hsurvivors : ∀ other ∈ w.db.posts.rows,
      survivors ⟨w.db, w.clock, w.replaced ++ [⟨args.postId, row.bodyMd, w.clock⟩]⟩ other =
        survivors w other := by
    intro other hother
    rw [survivors, List.filter_append, List.filter_singleton]
    have hnot : heldAfterGrace other ⟨args.postId, row.bodyMd, w.clock⟩ = false := by
      by_cases hown : other.id = args.postId
      · obtain rfl := w.db.posts.eq_of_key hmem hother (hid.trans hown.symm)
        rw [heldAfterGrace, hgrace, Bool.not_true, Bool.and_false]
      · rw [heldAfterGrace, beq_eq_false_iff_ne.mpr (Ne.symm hown), Bool.false_and]
    rw [hnot]
    exact List.append_nil _
  have hrecord : EditSafe ⟨w.db, w.clock,
      w.replaced ++ [⟨args.postId, row.bodyMd, w.clock⟩]⟩ := by
    refine ⟨fun other hother => ?_, h.ordered, h.stamped, h.archived, fun b hb => ?_⟩
    · rw [hsurvivors other hother]
      exact h.kept other hother
    · rcases List.mem_append.mp hb with hb | hb
      · exact h.replaced b hb
      · obtain rfl := List.mem_singleton.mp hb
        exact ⟨row, hmem, hid⟩
  refine hrecord.of_rows rfl rfl (fun row' hmem' => .inl ?_)
    (rowsKept_updateWhere rfl (fun _ => rfl) fun _ => rfl)
  rcases Table.mem_updateWhere.mp hmem' with ⟨hold, -⟩ | ⟨old, hold, -, rfl⟩
  · exact ⟨row', hold, rfl, rfl, rfl⟩
  · exact ⟨old, hold, rfl, rfl, rfl⟩

theorem revisionsOf_writeMarked (db : ForumDb) (args : EditArgs) (post : PostRow) (id : String) :
    revisionsOf (writeMarked db args post) id = revisionsOf db id ++
      if args.postId = id then
        [⟨args.postId, post.bodyMd, post.bodyHtml, args.now, args.authorId⟩]
      else [] :=
  Table.filter_concat (fun r : RevisionRow => r.postId) db.revisions _ id

theorem EditSafe.marked (h : EditSafe w) {post : PostRow} (hmem : row ∈ w.db.posts.rows)
    (hid : row.id = args.postId) (hgrace : isWithinGrace row.createdAt w.clock = false)
    (hbody : row.bodyMd = post.bodyMd) (hlater : ∀ editedAt ∈ row.editedAt, editedAt < args.now) :
    EditSafe ⟨writeMarked w.db args post, w.clock,
      w.replaced ++ [⟨args.postId, row.bodyMd, w.clock⟩]⟩ := by
  -- every archived body of the post is older than this write
  have holder : ∀ r ∈ revisionsOf w.db args.postId, r.replacedAt < args.now := by
    intro r hr
    obtain ⟨editedAt, hedited, hle⟩ := h.stamped row hmem r (hid ▸ hr)
    have hlt := hlater editedAt hedited
    omega
  have hkept : ∀ id, (∃ other ∈ w.db.posts.rows, other.id = id) →
      ∃ other ∈ (writeMarked w.db args post).posts.rows, other.id = id := by
    rintro id ⟨other, hother, rfl⟩
    have hrows : RowsKept w.db (writeMarked w.db args post) :=
      rowsKept_updateWhere rfl (fun _ => rfl) fun _ => rfl
    obtain ⟨other', hother', hid', -⟩ := hrows other hother
    exact ⟨other', hother', hid'⟩
  constructor
  · intro row' hmem'
    rw [revisionsOf_writeMarked, List.map_append, survivors, List.filter_append, List.map_append,
      List.filter_singleton]
    rcases Table.mem_updateWhere.mp hmem' with ⟨hold, hother⟩ | ⟨old, hold, hown, rfl⟩
    · have hne : args.postId ≠ row'.id := fun heq => by simp [heq] at hother
      rw [if_neg hne, heldAfterGrace, beq_eq_false_iff_ne.mpr hne, Bool.false_and]
      exact congrArg (· ++ []) (h.kept row' hold)
    · obtain rfl := w.db.posts.eq_of_key hmem hold (hid.trans (beq_iff_eq.mp hown).symm)
      have hheld : heldAfterGrace { row with
          bodyMd := args.bodyMd, bodyHtml := args.bodyHtml, editedAt := some args.now }
          ⟨args.postId, row.bodyMd, w.clock⟩ = true := by
        rw [heldAfterGrace, hgrace, beq_iff_eq.mpr hid.symm, Bool.not_false, Bool.and_true]
      rw [if_pos hid.symm, hheld]
      refine congrArg₂ (· ++ ·) ?_ (by simp [hbody])
      exact h.kept row hmem
  · intro id
    rw [revisionsOf_writeMarked]
    split_ifs with hown
    · subst hown
      refine List.pairwise_append.mpr ⟨h.ordered _, List.pairwise_singleton _ _, ?_⟩
      intro r hr r' hr'
      obtain rfl := List.mem_singleton.mp hr'
      exact holder r hr
    · exact (List.append_nil _).symm ▸ h.ordered id
  · intro row' hmem' r hr
    rw [revisionsOf_writeMarked] at hr
    rcases Table.mem_updateWhere.mp hmem' with ⟨hold, hother⟩ | ⟨old, hold, hown, rfl⟩
    · have hne : args.postId ≠ row'.id := fun heq => by simp [heq] at hother
      rw [if_neg hne, List.append_nil] at hr
      exact h.stamped row' hold r hr
    · refine ⟨args.now, rfl, ?_⟩
      have hpost : old.id = args.postId := beq_iff_eq.mp hown
      rcases List.mem_append.mp hr with hr | hr
      · exact le_of_lt (holder r (hpost ▸ hr))
      · rw [if_pos hpost.symm] at hr
        obtain rfl := List.mem_singleton.mp hr
        exact le_refl _
  · intro r hr
    refine hkept r.postId ?_
    rcases List.mem_append.mp hr with hr | hr
    · exact h.archived r hr
    · obtain rfl := List.mem_singleton.mp hr
      exact ⟨row, hmem, hid⟩
  · intro b hb
    refine hkept b.postId ?_
    rcases List.mem_append.mp hb with hb | hb
    · exact h.replaced b hb
    · obtain rfl := List.mem_singleton.mp hb
      exact ⟨row, hmem, hid⟩

/-- **An edit in time** keeps what holds of the archive. -/
theorem EditSafe.step {l' : EditProc} (h : EditSafe w) (hl : l.Reads w) (htime : w.InTime l)
    (hstep : editWorldStep w l = some (w', l')) : EditSafe w' := by
  rcases (editStep_spec hl hstep).2 with rfl | ⟨args, post, row, rfl, hmem, hid, hcreated, rfl⟩
  · exact h
  · obtain ⟨hnow, -⟩ := hl
    rw [EditWorld.InTime] at htime
    rw [editWrite]
    split_ifs with hmarked
    · rw [if_pos hmarked] at htime
      obtain ⟨hbody, hlater⟩ := htime row hmem hid
      refine h.marked hmem hid ?_ hbody hlater
      rw [EditArgs.marked, Bool.not_eq_true', isWithinGrace, decide_eq_false_iff_not] at hmarked
      rw [isWithinGrace, decide_eq_false_iff_not, hcreated]
      omega
    · rw [if_neg hmarked] at htime
      exact h.silent hmem hid (hcreated ▸ htime)

theorem PostEnv.safe (h : PostEnv w w') (hsafe : EditSafe w) :
    EditSafe w' ∧ w.clock ≤ w'.clock ∧ RowsKept w.db w'.db := by
  cases h with
  | tick clock hle => exact ⟨hsafe.of_rows rfl rfl (fun row hmem => .inl ⟨row, hmem, rfl, rfl, rfl⟩)
      (.refl _), hle, .refl _⟩
  | create row hnew =>
    have hkept : RowsKept w.db { w.db with posts := w.db.posts.insertOrIgnore row } :=
      fun old hold => ⟨old, KeyedTable.mem_insertOrIgnore.mpr (.inl hold), rfl, rfl⟩
    refine ⟨hsafe.of_rows rfl rfl (fun row' hmem' => ?_) hkept, le_refl _, hkept⟩
    rcases KeyedTable.mem_insertOrIgnore.mp hmem' with hold | ⟨rfl, hfree⟩
    · exact .inl ⟨row', hold, rfl, rfl, rfl⟩
    · exact .inr fun old hold heq => hfree (List.mem_map.mpr ⟨old, hold, heq⟩)
  | flag hidden deleted =>
    have hkept : RowsKept w.db { w.db with
        posts := w.db.posts.updateWhere (fun _ => true)
          (fun row => { row with hidden := hidden row, deleted := deleted row }) fun _ _ => rfl } :=
      rowsKept_updateWhere rfl (fun _ => rfl) fun _ => rfl
    refine ⟨hsafe.of_rows rfl rfl (fun row' hmem' => .inl ?_) hkept, le_refl _, hkept⟩
    rcases Table.mem_updateWhere.mp hmem' with ⟨hold, -⟩ | ⟨old, hold, -, rfl⟩
    · exact ⟨row', hold, rfl, rfl, rfl⟩
    · exact ⟨old, hold, rfl, rfl, rfl⟩
  | topics topics | grants activeGrants => exact ⟨hsafe.of_rows rfl rfl
      (fun row hmem => .inl ⟨row, hmem, rfl, rfl, rfl⟩) (.refl _), le_refl _, .refl _⟩

/-- The invariant of all interleavings in time. -/
def editSound : editProgram.SoundWhen editsInTime EditWorld.Initial where
  inv := EditSafe
  asserts w l := l.Reads w
  apart _ _ := True
  symm _ _ _ := trivial
  init w hinit := by
    have hnone : ∀ id, revisionsOf w.db id = [] := by
      intro id
      rw [revisionsOf, hinit.revisions]
      rfl
    refine ⟨fun row _ => ?_, fun id => hnone id ▸ .nil, fun row _ r hr => ?_, fun r hr => ?_,
      fun b hb => ?_⟩
    · rw [hnone, survivors, hinit.replaced]
      rfl
    · cases hnone row.id ▸ hr
    · cases hinit.revisions ▸ hr
    · cases hinit.replaced ▸ hb
  start w l _ _ hstart := by
    obtain ⟨args, hnow, rfl⟩ := hstart
    exact ⟨le_of_eq hnow, fun _ _ => trivial⟩
  step w l w' l' _ htime hinv hl hstep := ⟨hinv.step hl htime hstep, (editStep_spec hl hstep).1⟩
  noninterference w l w' l' m _ _ _ _ hl hm _ hstep := by
    refine ⟨?_, trivial⟩
    rcases (editStep_spec hl hstep).2 with rfl | ⟨args, post, row, -, -, -, -, rfl⟩
    · exact hm
    · exact hm.mono (le_refl _) (rowsKept_editWrite _ _ _)
  env w w' _ hinv henv := by
    obtain ⟨hsafe, hclock, hkept⟩ := henv.safe hinv
    exact ⟨hsafe, fun m hm => hm.mono hclock hkept⟩

section Runs

variable {ι : Type*} [DecidableEq ι] {s : Interleaved EditWorld EditProc ι}

/-- **Edits in time keep the history**: the archive holds every replaced body the post still held
after the grace window, once and in order, and no other. -/
theorem historyKept
    (h : ((editProgram.system ι EditWorld.Initial).restrict editsInTime.Met).Reachable s) :
    HistoryKept s.shared :=
  (editSound.holds h).inv.archive_complete

end Runs

/-! ### Two editors -/

def samplePost : PostRow :=
  ⟨"p1", "t1", "u1", none, "a", "<p>a</p>", false, none, false, 0, none, none⟩

def sampleTopic : TopicRow := ⟨"t1", "u2", "user", "Title", "title", false, false⟩

def sampleWorld : EditWorld where
  db := ⟨⟨[samplePost], by simp⟩, ⟨[sampleTopic], by simp⟩, [], []⟩
  clock := 1000000
  replaced := []

def sampleEdit (bodyMd : String) : EditArgs := ⟨"p1", "u1", bodyMd, bodyMd, 1000000, true, none⟩

theorem sampleWorld_initial : sampleWorld.Initial :=
  ⟨rfl, rfl, fun row hmem => by rw [List.mem_singleton.mp hmem]; rfl⟩

/-- A step that is checked to be in time. -/
def editWorldStepInTime (_ : Unit) (w : EditWorld) (l : EditProc) : Option (EditWorld × EditProc) :=
  if w.InTime l then editWorldStep w l else none

theorem editWorldStepInTime_moves (k : Unit) (w : EditWorld) (l : EditProc) (w' : EditWorld)
    (l' : EditProc) (h : editWorldStepInTime k w l = some (w', l')) :
    editProgram.Step w l w' l' ∧ editsInTime.state w ∧ editsInTime.mover w l := by
  rw [editWorldStepInTime] at h
  split_ifs at h with htime
  exact ⟨h, trivial, htime⟩

/-- Two edits one after the other, with time in between. -/
theorem historyKept_later :
    ∃ s : Interleaved EditWorld EditProc ℕ,
      ((editProgram.system ℕ EditWorld.Initial).restrict editsInTime.Met).Reachable s ∧
        (revisionsOf s.shared.db "p1").map (·.bodyMd) = ["a", "b"] ∧ HistoryKept s.shared := by
  have h₀ : ((editProgram.system ℕ EditWorld.Initial).restrict editsInTime.Met).Reachable
      ⟨sampleWorld, fun _ => none⟩ := .init ⟨sampleWorld_initial, fun _ => rfl⟩
  have h₁ := Program.reachable_start h₀ (i := 0) trivial rfl ⟨sampleEdit "b", rfl, rfl⟩
  have h₂ := Program.reachable_runWhen (fun _ _ _ _ _ _ => trivial) editWorldStepInTime_moves h₁
    ([0, 0, 0].map fun i => (i, ())) (by decide +kernel)
  have h₃ := Program.reachable_env h₂ trivial (.tick 1000001 (by decide +kernel))
  have h₄ := Program.reachable_start h₃ (i := 1) trivial (by decide +kernel)
    ⟨{ sampleEdit "c" with now := 1000001 }, rfl, rfl⟩
  have h₅ := Program.reachable_runWhen (fun _ _ _ _ _ _ => trivial) editWorldStepInTime_moves h₄
    ([1, 1, 1].map fun i => (i, ())) (by decide +kernel)
  exact ⟨_, h₅, by decide +kernel, historyKept h₅⟩

/-- Two edits that have both read the first body: it is archived twice, the body between them is
lost. -/
theorem not_historyKept :
    ∃ s : Interleaved EditWorld EditProc ℕ,
      (editProgram.system ℕ EditWorld.Initial).Reachable s ∧
        (revisionsOf s.shared.db "p1").map (·.bodyMd) = ["a", "a"] ∧
        s.shared.replaced.map (·.bodyMd) = ["a", "b"] ∧ ¬HistoryKept s.shared := by
  have h₀ : (editProgram.system ℕ EditWorld.Initial).Reachable ⟨sampleWorld, fun _ => none⟩ :=
    .init ⟨sampleWorld_initial, fun _ => rfl⟩
  have h₁ := h₀.step (.start (i := 0) rfl ⟨sampleEdit "b", rfl, rfl⟩)
  have h₂ := h₁.step (.start (i := 1) rfl ⟨sampleEdit "c", rfl, rfl⟩)
  have h₃ := Program.reachable_run (fun _ _ _ _ _ h => h) h₂
    ([0, 1, 0, 1, 0, 1].map fun i => (i, ())) (by decide +kernel)
  refine ⟨_, h₃, by decide +kernel, by decide +kernel, fun hkept => ?_⟩
  obtain ⟨hbodies, -⟩ := hkept ⟨"p1", "t1", "u1", none, "c", "c", false, some 1000000, false, 0,
    none, none⟩ (by decide +kernel)
  exact nomatch hbodies

end DrepTalk
