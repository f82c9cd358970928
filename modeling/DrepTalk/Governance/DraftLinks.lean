import DrepTalk.Forum.WriteMandate

/-!
# Taking an action off its draft

`unlinkDraftAction` and `isDraftAuthor` of `src/lib/db/draftLinks.ts`, and the handler
`handleDraftUnlink` of `src/lib/forum/handlers.ts`: the author of a draft, or a moderator, undoes
the link of a governance action to it, and the draft is open again when no other action points at
it.

A request is a process over the tables. It reads the draft, may look up a grant, counts against the
rate limit, reads whether the action is linked, and then writes both halves of the unlinking in one
batch. Whether the limit allows it comes from outside, and any statement may throw.
-/

namespace DrepTalk

/-! ### Statements -/

/-- The condition of the first half: the action points at the draft. -/
def isLinkedTo (actionId draftTopicId : String) (a : GovernanceAction) : Bool :=
  a.id == actionId && a.draftTopicId == some draftTopicId

/-- An action without its link, which it never gets again. -/
def GovernanceAction.rejected (a : GovernanceAction) : GovernanceAction :=
  { a with draftTopicId := none, draftLinkRejected := true }

/-- `UPDATE topics SET locked = … WHERE id = … AND …`. -/
def GovDb.setLocked (db : GovDb) (topicId : String) (guard locked : Bool) : GovDb :=
  let topics := db.forum.topics.updateWhere (fun t => t.id == topicId && guard)
    (fun t => { t with locked := locked }) (fun _ _ => rfl) fun _ _ => rfl
  { db with forum := { db.forum with topics := topics } }

def GovDb.rejectLink (db : GovDb) (actionId draftTopicId : String) : GovDb :=
  { db with
    actions := db.actions.updateWhere (isLinkedTo actionId draftTopicId) (·.rejected) fun _ _ => rfl }

/-- Whether any action points at the draft. -/
def GovDb.isLinked (db : GovDb) (draftTopicId : String) : Bool :=
  db.actions.rows.any fun a => a.draftTopicId == some draftTopicId

/-- `unlinkDraftAction`: unlink, then unlock. The answer says whether there was a link. -/
def unlinkDraftAction (db : GovDb) (actionId draftTopicId : String) : GovDb × Bool :=
  let unlinked := db.rejectLink actionId draftTopicId
  (unlinked.setLocked draftTopicId (!unlinked.isLinked draftTopicId) false,
    db.actions.rows.any (isLinkedTo actionId draftTopicId))

/-! ### The handler -/

/-- The arguments of `handleDraftUnlink`. -/
structure DraftUnlinkInput where
  user : Option SessionUser
  topicId : String
  actionId : Option JsonValue

/-- A request, by the statement it is about to run, or its answer. -/
inductive UnlinkProc
  | received (input : DraftUnlinkInput)
  | grant (userId grantId topicId actionId : String)
  | rate (topicId actionId : String)
  | linked (topicId actionId : String)
  | unlink (topicId actionId : String)
  | answered (result : HandlerResult)

/-- What comes in from outside a step. -/
inductive UnlinkEvent
  | statement
  | allowed (allowed : Bool)
  | throws

/-- Who may unlink: a moderator, or the author (`isDraftAuthor`), for whom the grant of a stamped
draft is looked up. -/
def unlinkAuthor (user : SessionUser) (topic : ForumTopic) (topicId actionId : String) :
    UnlinkProc :=
  if isModerator user.roles then .rate topicId actionId
  else if topic.authorId ≠ user.id then .answered (.failed 403 "forbidden")
  else
    match topic.proposerGrantId.filter (· != "") with
    | some grantId => .grant user.id grantId topicId actionId
    | none =>
      if mayEditRow topic.proposerGrantId true false then .rate topicId actionId
      else .answered (.failed 403 "forbidden")

/-- What follows the read of the draft. -/
def unlinkReceived (db : WriteDb) (input : DraftUnlinkInput) : UnlinkProc :=
  match input.user with
  | none => .answered (.failed 401 "unauthorized")
  | some user =>
    let actionId := trimmed (jsonText input.actionId)
    if actionId = "" then .answered (.failed 400 "missing action id")
    else
      match db.gov.forum.topic input.topicId with
      | none => .answered (.failed 404 "not found")
      | some topic =>
        if topic.deleted || topic.categorySlug != PROPOSAL_DRAFTS_CATEGORY_SLUG then
          .answered (.failed 404 "not found")
        else unlinkAuthor user topic input.topicId actionId

def unlinkStep (event : UnlinkEvent) (db : WriteDb) : UnlinkProc → Option (WriteDb × UnlinkProc)
  | .answered _ => none
  | p =>
    match event, p with
    | .throws, _ => some (db, .answered (.failed 500 "internal error"))
    | .statement, .received input => some (db, unlinkReceived db input)
    | .statement, .grant userId grantId topicId actionId =>
      some (db, if mayEditRow (some grantId) true (isGrantActiveForUser db grantId userId) then
          .rate topicId actionId
        else .answered (.failed 403 "forbidden"))
    | .allowed allowed, .rate topicId actionId =>
      some (db, if allowed then .linked topicId actionId
        else .answered (.failed 429 "rate_limited"))
    | .statement, .linked topicId actionId =>
      some (db, if db.gov.actions.rows.any (isLinkedTo actionId topicId) then
          .unlink topicId actionId
        else .answered (.failed 404 "not linked"))
    | .statement, .unlink topicId actionId =>
      some ({ db with gov := (unlinkDraftAction db.gov actionId topicId).1 },
        .answered ⟨200, .ok⟩)
    | _, _ => none

/-! ### What the statements do to links and locks -/

def GovDb.PointsAt (db : GovDb) (actionId draftTopicId : String) : Prop :=
  ∃ a ∈ db.actions.rows, a.id = actionId ∧ a.draftTopicId = some draftTopicId

def GovDb.LockIs (db : GovDb) (topicId : String) (locked : Bool) : Prop :=
  ∃ t ∈ db.forum.topics.rows, t.id = topicId ∧ t.locked = locked

theorem isLinkedTo_iff {actionId draftTopicId : String} {a : GovernanceAction} :
    isLinkedTo actionId draftTopicId a = true ↔
      a.id = actionId ∧ a.draftTopicId = some draftTopicId := by
  simp [isLinkedTo]

section Statements

variable {db : GovDb} {actionId draftTopicId : String}

theorem GovDb.isLinked_iff : db.isLinked draftTopicId = true ↔ ∃ b, db.PointsAt b draftTopicId := by
  simp [GovDb.isLinked, GovDb.PointsAt]

theorem GovDb.lockIs_unique {b b' : Bool} (h : db.LockIs draftTopicId b)
    (h' : db.LockIs draftTopicId b') : b = b' := by
  obtain ⟨t, ht, hid, rfl⟩ := h
  obtain ⟨t', ht', hid', rfl⟩ := h'
  rw [db.forum.topics.eq_of_key ht ht' (hid.trans hid'.symm)]

theorem GovDb.lockIs_setLocked {topicId id : String} {guard locked b : Bool} :
    (db.setLocked topicId guard locked).LockIs id b ↔
      if id = topicId ∧ guard = true then b = locked ∧ ∃ b₀, db.LockIs id b₀
      else db.LockIs id b := by
  have hrow : ∀ t : ForumTopic, (t.id == topicId && guard) = true ↔ t.id = topicId ∧ guard = true :=
    fun t => by rw [Bool.and_eq_true, beq_iff_eq]
  constructor
  · rintro ⟨t, ht, rfl, rfl⟩
    rcases Table.mem_updateWhere.mp ht with ⟨ht, hnot⟩ | ⟨t₀, ht₀, hset, rfl⟩
    · rw [← Bool.not_eq_true, hrow] at hnot
      rw [if_neg hnot]
      exact ⟨t, ht, rfl, rfl⟩
    · rw [if_pos ((hrow t₀).mp hset)]
      exact ⟨rfl, t₀.locked, t₀, ht₀, rfl, rfl⟩
  · split_ifs with hset
    · rintro ⟨rfl, b₀, t, ht, rfl, -⟩
      exact ⟨_, Table.mem_updateWhere.mpr (.inr ⟨t, ht, (hrow t).mpr hset, rfl⟩), rfl, rfl⟩
    · rintro ⟨t, ht, rfl, rfl⟩
      refine ⟨t, Table.mem_updateWhere.mpr (.inl ⟨ht, ?_⟩), rfl, rfl⟩
      rw [← Bool.not_eq_true, hrow]
      exact hset

theorem GovDb.pointsAt_rejectLink {b d : String} :
    (db.rejectLink actionId draftTopicId).PointsAt b d ↔
      db.PointsAt b d ∧ ¬(b = actionId ∧ d = draftTopicId) := by
  constructor
  · rintro ⟨a, ha, rfl, hd⟩
    rcases Table.mem_updateWhere.mp ha with ⟨ha, hnot⟩ | ⟨a₀, -, -, rfl⟩
    · refine ⟨⟨a, ha, rfl, hd⟩, fun heq => ?_⟩
      have hlinked := isLinkedTo_iff.mpr ⟨heq.1, heq.2 ▸ hd⟩
      rw [hlinked] at hnot
      cases hnot
    · cases hd
  · rintro ⟨⟨a, ha, rfl, hd⟩, hne⟩
    refine ⟨a, Table.mem_updateWhere.mpr (.inl ⟨ha, ?_⟩), rfl, hd⟩
    rw [← Bool.not_eq_true, isLinkedTo_iff]
    rintro ⟨hid, hdraft⟩
    exact hne ⟨hid, Option.some.inj (hd.symm.trans hdraft)⟩

theorem GovDb.rejectLink_of_not (h : ¬db.PointsAt actionId draftTopicId) :
    (db.rejectLink actionId draftTopicId).actions.rows = db.actions.rows :=
  Table.updateWhere_eq_self fun a ha hlinked =>
    absurd ⟨a, ha, (isLinkedTo_iff.mp hlinked).1, (isLinkedTo_iff.mp hlinked).2⟩ h

/-- The condition of the first half of a link. -/
def GovernanceAction.isLinkable (actionId : String) (a : GovernanceAction) : Bool :=
  a.id == actionId && a.draftTopicId.isNone && !a.draftLinkRejected && a.topicId.isSome

def GovDb.link (db : GovDb) (actionId draftTopicId : String) : GovDb :=
  { db with
    actions := db.actions.updateWhere (·.isLinkable actionId)
      (fun a => { a with draftTopicId := some draftTopicId }) fun _ _ => rfl }

theorem linkDraft_eq : linkDraft db actionId draftTopicId =
    (db.link actionId draftTopicId).setLocked draftTopicId
      ((db.link actionId draftTopicId).actions.rows.any (isLinkedTo actionId draftTopicId)) true :=
  rfl

theorem isLinkable_iff {a : GovernanceAction} : a.isLinkable actionId = true ↔
    a.id = actionId ∧ a.draftTopicId = none ∧ a.draftLinkRejected = false ∧ a.topicId ≠ none := by
  simp [GovernanceAction.isLinkable, Option.isSome_iff_ne_none, and_assoc]

theorem GovDb.pointsAt_link {b d : String} (h : (db.link actionId draftTopicId).PointsAt b d) :
    db.PointsAt b d ∨ b = actionId ∧ d = draftTopicId := by
  obtain ⟨a, ha, rfl, hd⟩ := h
  rcases Table.mem_updateWhere.mp ha with ⟨ha, -⟩ | ⟨a₀, -, hlinkable, rfl⟩
  · exact .inl ⟨a, ha, rfl, hd⟩
  · exact .inr ⟨(isLinkable_iff.mp hlinkable).1, (Option.some.inj hd).symm⟩

theorem any_isLinkedTo {db : GovDb} :
    db.actions.rows.any (isLinkedTo actionId draftTopicId) = true ↔
      db.PointsAt actionId draftTopicId := by
  simp [GovDb.PointsAt, isLinkedTo]

end Statements

end DrepTalk
