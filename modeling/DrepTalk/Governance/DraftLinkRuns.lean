import DrepTalk.Governance.DraftLinks
import DrepTalk.Library.Interleaving

/-!
# Links and locks of drafts over whole runs

Any number of unlink requests, interleaved with batches that link any action to any draft, with
moderators who lock topics, or unlock those that no action points at, and with whatever else happens
to the tables.

**What holds in every run** (`draft_links_right`). A draft that an action points at is locked, and
the action has a topic. A link that was removed never comes back, and none is moved. A request that
removes the last link of a draft opens it.

**What goes wrong** (`not_draft_links_right`). The second half of an unlinking does not look at what
the first has done, as that of a link does: a request whose link another one has removed in between
opens the draft that a moderator has locked since. It does so exactly where nothing points at a
draft that is locked.
-/

namespace DrepTalk

/-! ### What else happens -/

/-- Nothing happens to links and locks, and what is new is not linked. -/
structure LinksUntouched (db db' : GovDb) : Prop where
  action : ∀ a ∈ db.actions.rows, ∃ a' ∈ db'.actions.rows, a'.id = a.id ∧
    a'.draftTopicId = a.draftTopicId ∧ a'.draftLinkRejected = a.draftLinkRejected ∧
      (a.topicId ≠ none → a'.topicId ≠ none)
  newAction : ∀ a' ∈ db'.actions.rows, (∃ a ∈ db.actions.rows, a.id = a'.id) ∨
    a'.draftTopicId = none
  topic : ∀ id b, db.LockIs id b → db'.LockIs id b
  newTopic : ∀ id b, db'.LockIs id b → db.LockIs id b ∨ ¬∃ a, db.PointsAt a id

/-- What happens between the statements of requests. -/
inductive DraftEnv (db : WriteDb) : WriteDb → Prop
  /-- The two statements of `buildDraftLinkStatements`, in the batch that they are part of. -/
  | link (actionId draftTopicId : String) :
    DraftEnv db { db with gov := linkDraft db.gov actionId draftTopicId }
  | lock (topicId : String) : DraftEnv db { db with gov := db.gov.setLocked topicId true true }
  | unlock (topicId : String) (hfree : ¬∃ a, db.gov.PointsAt a topicId) :
    DraftEnv db { db with gov := db.gov.setLocked topicId true false }
  | other {db' : WriteDb} (h : LinksUntouched db.gov db'.gov) : DraftEnv db db'

def unlinkProgram : Program WriteDb UnlinkProc where
  Start _ p := ∃ input, p = .received input
  Step db p db' p' := ∃ event, unlinkStep event db p = some (db', p')
  Env := DraftEnv

/-! ### What holds of links and locks -/

/-- The drafts that actions point at are locked. -/
structure DraftsRight (db : GovDb) : Prop where
  locked : ∀ a d, db.PointsAt a d → ¬db.LockIs d false
  threaded : ∀ a ∈ db.actions.rows, a.draftTopicId ≠ none → a.topicId ≠ none
  rejected : ∀ a ∈ db.actions.rows, a.draftLinkRejected = true → a.draftTopicId = none

/-- Links are given and removed, but none comes back and none is moved. -/
def LinksKept (db db' : GovDb) : Prop :=
  ∀ a ∈ db.actions.rows, ∃ a' ∈ db'.actions.rows, a'.id = a.id ∧
    (a.draftLinkRejected = true → a'.draftLinkRejected = true) ∧
      ∀ d, a.draftTopicId = some d → a'.draftTopicId = some d ∨ a'.draftLinkRejected = true

def Unlinked (db db' : GovDb) (actionId draftTopicId : String) : Prop :=
  db.PointsAt actionId draftTopicId ∧ ¬db'.PointsAt actionId draftTopicId

/-- An unlinking as it should be: it reopens the draft exactly when it has removed the last link,
and changes no row when it has removed none. -/
structure UnlinkRight (db db' : GovDb) (actionId draftTopicId : String) : Prop where
  reopens : db.LockIs draftTopicId true ∧ db'.LockIs draftTopicId false ↔
    Unlinked db db' actionId draftTopicId ∧ ¬∃ b, db'.PointsAt b draftTopicId
  unchanged : ¬Unlinked db db' actionId draftTopicId →
    db'.actions.rows = db.actions.rows ∧ db'.forum.topics.rows = db.forum.topics.rows ∧
      db'.forum.posts = db.forum.posts

/-- Where the second half of an unlinking opens nothing that it should not: something points at the
draft still, or the draft is not locked. -/
def GovDb.MayUnlink (db : GovDb) (draftTopicId : String) : Prop :=
  (∃ b, db.PointsAt b draftTopicId) ∨ ¬db.LockIs draftTopicId true

section Steps

variable {db db' : GovDb} {actionId draftTopicId : String}

theorem LinksKept.refl (db : GovDb) : LinksKept db db :=
  fun a ha => ⟨a, ha, rfl, id, fun _ hd => .inl hd⟩

theorem LinksKept.trans {db'' : GovDb} (h : LinksKept db db')
    (h' : LinksKept db' db'') : LinksKept db db'' := by
  intro a ha
  obtain ⟨a', ha', hid, hrejected, hlink⟩ := h a ha
  obtain ⟨a'', ha'', hid', hrejected', hlink'⟩ := h' a' ha'
  exact ⟨a'', ha'', hid'.trans hid, hrejected' ∘ hrejected, fun d hd =>
    (hlink d hd).elim (hlink' d) fun hr => .inr (hrejected' hr)⟩

theorem GovDb.not_lockIs {id : String} {b : Bool} (h : db.LockIs id b) : ¬db.LockIs id !b :=
  fun h' => absurd (GovDb.lockIs_unique h h') (by cases b <;> decide)

/-- **An unlinking** is as it should be exactly where it may be made. -/
theorem unlinkRight_iff (hdb : DraftsRight db) (htopic : ∃ b, db.LockIs draftTopicId b) :
    UnlinkRight db (unlinkDraftAction db actionId draftTopicId).1 actionId draftTopicId ↔
      db.MayUnlink draftTopicId := by
  set mid := db.rejectLink actionId draftTopicId with hmid
  have hpoints : ∀ b d, (unlinkDraftAction db actionId draftTopicId).1.PointsAt b d ↔
      db.PointsAt b d ∧ ¬(b = actionId ∧ d = draftTopicId) :=
    fun b d => GovDb.pointsAt_rejectLink
  have hlock : ∀ b, (unlinkDraftAction db actionId draftTopicId).1.LockIs draftTopicId b ↔
      if mid.isLinked draftTopicId = true then db.LockIs draftTopicId b else b = false := by
    intro b
    rw [unlinkDraftAction, GovDb.lockIs_setLocked]
    by_cases hlinked : mid.isLinked draftTopicId = true
    · rw [if_pos hlinked, if_neg (by simp [← hmid, hlinked])]
      exact Iff.rfl
    · rw [if_neg hlinked, if_pos ⟨rfl, by simpa [← hmid] using hlinked⟩]
      exact and_iff_left htopic
  have hremoved : Unlinked db (unlinkDraftAction db actionId draftTopicId).1 actionId
      draftTopicId ↔ db.PointsAt actionId draftTopicId := by
    rw [Unlinked, hpoints]
    exact and_iff_left_of_imp fun _ hnot => hnot.2 ⟨rfl, rfl⟩
  have hlast : (¬∃ b, (unlinkDraftAction db actionId draftTopicId).1.PointsAt b draftTopicId) ↔
      ¬mid.isLinked draftTopicId = true := not_congr GovDb.isLinked_iff.symm
  by_cases hlinked : mid.isLinked draftTopicId = true
  · -- another link is left, and the second half does nothing
    obtain ⟨b, hb⟩ := GovDb.isLinked_iff.mp hlinked
    have hfirst : db.PointsAt b draftTopicId := (GovDb.pointsAt_rejectLink.mp hb).1
    refine iff_of_true ⟨iff_of_false ?_ ?_, fun hnone => ⟨?_, ?_, rfl⟩⟩ (.inl ⟨b, hfirst⟩)
    · rw [hlock, if_pos hlinked]
      exact fun h => GovDb.not_lockIs h.1 h.2
    · exact fun h => hlast.mp h.2 hlinked
    · exact GovDb.rejectLink_of_not (hremoved.not.mp hnone)
    · refine Table.updateWhere_eq_self fun t _ ht => absurd ht ?_
      simp [← hmid, hlinked]
  · have hopen : (unlinkDraftAction db actionId draftTopicId).1.LockIs draftTopicId false :=
      (hlock false).mpr (by rw [if_neg hlinked])
    by_cases hpointed : db.PointsAt actionId draftTopicId
    · -- the last link goes, and the draft, which was locked, is open
      have hwas : db.LockIs draftTopicId true := by
        obtain ⟨_ | _, hb⟩ := htopic
        · exact absurd hb (hdb.locked _ _ hpointed)
        · exact hb
      exact iff_of_true ⟨iff_of_true ⟨hwas, hopen⟩ ⟨hremoved.mpr hpointed, hlast.mpr hlinked⟩,
        fun hnone => absurd (hremoved.mpr hpointed) hnone⟩ (.inl ⟨actionId, hpointed⟩)
    · have hnone : ¬∃ b, db.PointsAt b draftTopicId := by
        rintro ⟨b, hb⟩
        refine hlinked (GovDb.isLinked_iff.mpr ⟨b, GovDb.pointsAt_rejectLink.mpr ⟨hb, ?_⟩⟩)
        rintro ⟨rfl, -⟩
        exact hpointed hb
      constructor
      · intro hright
        exact .inr fun hwas => hpointed (hremoved.mp (hright.reopens.mp ⟨hwas, hopen⟩).1)
      · rintro (hsome | hunlocked)
        · exact absurd hsome hnone
        · refine ⟨iff_of_false (fun h => hunlocked h.1) fun h => hpointed (hremoved.mp h.1),
            fun _ => ⟨GovDb.rejectLink_of_not hpointed, ?_, rfl⟩⟩
          refine Table.updateWhere_eq_self fun t ht hguard => ?_
          have hid : t.id = draftTopicId := by simpa using (Bool.and_eq_true_iff.mp hguard).1
          have hfalse : t.locked = false := by
            rw [← Bool.not_eq_true]
            exact fun htrue => hunlocked ⟨t, ht, hid, htrue⟩
          rw [← hfalse]

theorem DraftsRight.unlink (h : DraftsRight db) :
    DraftsRight (unlinkDraftAction db actionId draftTopicId).1 := by
  refine ⟨fun a d hpoints hopen => ?_, fun a ha => ?_, fun a ha => ?_⟩
  · have hbefore := (GovDb.pointsAt_rejectLink.mp hpoints).1
    rw [unlinkDraftAction, GovDb.lockIs_setLocked] at hopen
    split_ifs at hopen with hset
    · obtain ⟨rfl, hnot⟩ := hset
      rw [Bool.not_eq_true', ← Bool.not_eq_true, GovDb.isLinked_iff] at hnot
      exact hnot ⟨a, hpoints⟩
    · exact h.locked a d hbefore hopen
  · rcases Table.mem_updateWhere.mp ha with ⟨ha, -⟩ | ⟨a₀, -, -, rfl⟩
    · exact h.threaded a ha
    · exact nofun
  · rcases Table.mem_updateWhere.mp ha with ⟨ha, -⟩ | ⟨a₀, -, -, rfl⟩
    · exact h.rejected a ha
    · exact fun _ => rfl

theorem linksKept_unlink : LinksKept db (unlinkDraftAction db actionId draftTopicId).1 := by
  intro a ha
  refine Table.exists_mem_updateWhere ha (fun _ => ⟨rfl, fun _ => rfl, fun _ _ => .inr rfl⟩)
    fun _ => ⟨rfl, id, fun _ hd => .inl hd⟩

theorem DraftsRight.link (h : DraftsRight db) :
    DraftsRight (linkDraft db actionId draftTopicId) := by
  refine ⟨fun a d hpoints hopen => ?_, fun a ha => ?_, fun a ha => ?_⟩
  · rw [linkDraft_eq] at hpoints hopen
    have hpoints : (db.link actionId draftTopicId).PointsAt a d := hpoints
    rw [GovDb.lockIs_setLocked] at hopen
    split_ifs at hopen with hset
    · exact absurd hopen.1 (by decide)
    · rcases GovDb.pointsAt_link hpoints with hbefore | ⟨rfl, rfl⟩
      · exact h.locked a d hbefore hopen
      · exact hset ⟨rfl, any_isLinkedTo.mpr hpoints⟩
  · rcases Table.mem_updateWhere.mp ha with ⟨ha, -⟩ | ⟨a₀, -, hlinkable, rfl⟩
    · exact h.threaded a ha
    · exact fun _ => (isLinkable_iff.mp hlinkable).2.2.2
  · rcases Table.mem_updateWhere.mp ha with ⟨ha, -⟩ | ⟨a₀, -, hlinkable, rfl⟩
    · exact h.rejected a ha
    · intro hrejected
      exact absurd hrejected (by simp [(isLinkable_iff.mp hlinkable).2.2.1])

theorem linksKept_link : LinksKept db (linkDraft db actionId draftTopicId) := by
  intro a ha
  refine Table.exists_mem_updateWhere ha (fun hlinkable => ⟨rfl, id, fun d hd => ?_⟩)
    fun _ => ⟨rfl, id, fun _ hd => .inl hd⟩
  cases hd.symm.trans (isLinkable_iff.mp hlinkable).2.1

theorem DraftsRight.setLocked (h : DraftsRight db) {topicId : String} {locked : Bool}
    (hfree : locked = false → ¬∃ a, db.PointsAt a topicId) :
    DraftsRight (db.setLocked topicId true locked) := by
  refine ⟨fun a d hpoints hopen => ?_, h.threaded, h.rejected⟩
  rw [GovDb.lockIs_setLocked] at hopen
  split_ifs at hopen with hset
  · obtain ⟨rfl, -⟩ := hset
    exact hfree hopen.1.symm ⟨a, hpoints⟩
  · exact h.locked a d hpoints hopen

theorem LinksUntouched.pointsAt (h : LinksUntouched db db') {a d : String}
    (hpoints : db'.PointsAt a d) : db.PointsAt a d := by
  obtain ⟨a', ha', rfl, hd⟩ := hpoints
  rcases h.newAction a' ha' with ⟨a, ha, hid⟩ | hnone
  · obtain ⟨a'', ha'', hid', hdraft, -⟩ := h.action a ha
    rw [db'.actions.eq_of_key ha'' ha' (hid'.trans hid)] at hdraft
    exact ⟨a, ha, hid, hdraft.symm.trans hd⟩
  · cases hd.symm.trans hnone

theorem DraftsRight.other (h : DraftsRight db) (hother : LinksUntouched db db') :
    DraftsRight db' := by
  refine ⟨fun a d hpoints hopen => ?_, fun a' ha' hlinked => ?_, fun a' ha' hrejected => ?_⟩
  · have hbefore := hother.pointsAt hpoints
    rcases hother.newTopic d false hopen with hwas | hnone
    · exact h.locked a d hbefore hwas
    · exact hnone ⟨a, hbefore⟩
  · rcases hother.newAction a' ha' with ⟨a, ha, hid⟩ | hnone
    · obtain ⟨a'', ha'', hid', hdraft, -, htopic⟩ := hother.action a ha
      obtain rfl := db'.actions.eq_of_key ha'' ha' (hid'.trans hid)
      exact htopic (h.threaded a ha (hdraft ▸ hlinked))
    · exact absurd hnone hlinked
  · rcases hother.newAction a' ha' with ⟨a, ha, hid⟩ | hnone
    · obtain ⟨a'', ha'', hid', hdraft, hflag, -⟩ := hother.action a ha
      obtain rfl := db'.actions.eq_of_key ha'' ha' (hid'.trans hid)
      exact hdraft.trans (h.rejected a ha (hflag.symm.trans hrejected))
    · exact hnone

theorem LinksUntouched.kept (h : LinksUntouched db db') : LinksKept db db' := by
  intro a ha
  obtain ⟨a', ha', hid, hdraft, hflag, -⟩ := h.action a ha
  exact ⟨a', ha', hid, hflag.trans, fun d hd => .inl (hdraft.trans hd)⟩

end Steps

/-! ### Runs -/

/-- The draft that a request has read. -/
def UnlinkProc.topic : UnlinkProc → Option String
  | .grant _ _ topicId _ | .rate topicId _ | .linked topicId _ | .unlink topicId _ => some topicId
  | .received _ | .answered _ => none

/-- The draft that a request has read is there. -/
def UnlinkProc.Asserts (db : WriteDb) (p : UnlinkProc) : Prop :=
  ∀ id, p.topic = some id → ∃ b, db.gov.LockIs id b

inductive UnlinkMove (db : WriteDb) (p : UnlinkProc) : WriteDb → UnlinkProc → Prop
  | read {p' : UnlinkProc} (h : ∀ id, p'.topic = some id → p.topic = some id ∨
      ∃ b, db.gov.LockIs id b) : UnlinkMove db p db p'
  | unlink (topicId actionId : String) (hp : p = .unlink topicId actionId) :
    UnlinkMove db p { db with gov := (unlinkDraftAction db.gov actionId topicId).1 }
      (.answered ⟨200, .ok⟩)

section Runs

variable {db db' : WriteDb} {p p' : UnlinkProc}

theorem unlinkAuthor_topic {user : SessionUser} {topic : ForumTopic} {topicId actionId id : String}
    (h : (unlinkAuthor user topic topicId actionId).topic = some id) : id = topicId := by
  rw [unlinkAuthor] at h
  split at h
  · exact (Option.some.inj h).symm
  · split at h
    · cases h
    · split at h
      · exact (Option.some.inj h).symm
      · split at h
        · exact (Option.some.inj h).symm
        · cases h

theorem unlinkReceived_topic {input : DraftUnlinkInput} {id : String}
    (h : (unlinkReceived db input).topic = some id) : ∃ b, db.gov.LockIs id b := by
  obtain ⟨_ | user, topicId, actionId⟩ := input
  · cases h
  · simp only [unlinkReceived] at h
    split_ifs at h
    · cases h
    · rcases htopic : db.gov.forum.topic topicId with _ | topic
      · rw [htopic] at h
        cases h
      · rw [htopic] at h
        dsimp only at h
        split_ifs at h
        · cases h
        · obtain rfl := unlinkAuthor_topic h
          have hid := List.find?_some htopic
          exact ⟨topic.locked, topic, List.mem_of_find?_eq_some htopic, beq_iff_eq.mp hid, rfl⟩

theorem unlinkStep_move {event : UnlinkEvent} (h : unlinkStep event db p = some (db', p')) :
    UnlinkMove db p db' p' := by
  rcases p with input | ⟨userId, grantId, topicId, actionId⟩ | ⟨topicId, actionId⟩ |
    ⟨topicId, actionId⟩ | ⟨topicId, actionId⟩ | result
  case answered => cases h
  all_goals
    rcases event with _ | allowed | _ <;>
      simp only [unlinkStep, Option.some.injEq, Prod.mk.injEq, reduceCtorEq] at h
  case received.statement =>
    obtain ⟨rfl, rfl⟩ := h
    exact .read fun id hid => .inr (unlinkReceived_topic hid)
  case unlink.statement =>
    obtain ⟨rfl, rfl⟩ := h
    exact .unlink topicId actionId rfl
  case grant.statement =>
    obtain ⟨rfl, rfl⟩ := h
    refine .read fun id hid => .inl ?_
    split_ifs at hid
    · exact hid
    · cases hid
  case rate.allowed =>
    obtain ⟨rfl, rfl⟩ := h
    refine .read fun id hid => .inl ?_
    split_ifs at hid
    · exact hid
    · cases hid
  case linked.statement =>
    obtain ⟨rfl, rfl⟩ := h
    refine .read fun id hid => .inl ?_
    split_ifs at hid
    · exact hid
    · cases hid
  all_goals
    obtain ⟨rfl, rfl⟩ := h
    refine .read fun id hid => ?_
    cases hid

theorem lockIs_unlink {id topicId actionId : String} {b : Bool} {db : GovDb}
    (h : db.LockIs id b) : ∃ b', (unlinkDraftAction db actionId topicId).1.LockIs id b' := by
  by_cases hset : id = topicId ∧ (!(db.rejectLink actionId topicId).isLinked topicId) = true
  · exact ⟨false, GovDb.lockIs_setLocked.mpr (by rw [if_pos hset]; exact ⟨rfl, b, h⟩)⟩
  · exact ⟨b, GovDb.lockIs_setLocked.mpr (by rw [if_neg hset]; exact h)⟩

theorem UnlinkMove.lockIs (h : UnlinkMove db p db' p') {id : String} {b : Bool}
    (hlock : db.gov.LockIs id b) : ∃ b', db'.gov.LockIs id b' := by
  cases h with
  | read => exact ⟨b, hlock⟩
  | unlink topicId actionId hp => exact lockIs_unlink hlock

theorem lockIs_set {id topicId : String} {guard locked b : Bool} {db : GovDb}
    (h : db.LockIs id b) : ∃ b', (db.setLocked topicId guard locked).LockIs id b' := by
  by_cases hset : id = topicId ∧ guard = true
  · exact ⟨locked, GovDb.lockIs_setLocked.mpr (by rw [if_pos hset]; exact ⟨rfl, b, h⟩)⟩
  · exact ⟨b, GovDb.lockIs_setLocked.mpr (by rw [if_neg hset]; exact h)⟩

theorem DraftEnv.lockIs (h : DraftEnv db db') {id : String} {b : Bool}
    (hlock : db.gov.LockIs id b) : ∃ b', db'.gov.LockIs id b' := by
  cases h with
  | link | lock | unlock => exact lockIs_set hlock
  | other hother => exact ⟨b, hother.topic id b hlock⟩

theorem DraftEnv.right (h : DraftEnv db db') (hdb : DraftsRight db.gov) : DraftsRight db'.gov := by
  cases h with
  | link => exact hdb.link
  | lock => exact hdb.setLocked nofun
  | unlock topicId hfree => exact hdb.setLocked fun _ => hfree
  | other hother => exact hdb.other hother

theorem DraftEnv.kept (h : DraftEnv db db') : LinksKept db.gov db'.gov := by
  cases h with
  | link => exact linksKept_link
  | lock | unlock => exact .refl db.gov
  | other hother => exact hother.kept

def unlinkSound : unlinkProgram.Sound fun db => DraftsRight db.gov where
  inv db := DraftsRight db.gov
  asserts db p := p.Asserts db
  apart _ _ := True
  symm _ _ _ := trivial
  init _ h := h
  start db p _ hstart := by
    obtain ⟨input, rfl⟩ := hstart
    refine ⟨fun id hid => ?_, fun _ _ => trivial⟩
    cases hid
  step db p db' p' hdb hp hstep := by
    cases unlinkStep_move hstep.choose_spec with
    | read hread => exact ⟨hdb, fun id hid => (hread id hid).elim (hp id) fun hlock => hlock⟩
    | unlink topicId actionId => exact ⟨hdb.unlink, fun id hid => by cases hid⟩
  noninterference db p db' p' q hdb hp hq _ hstep :=
    ⟨fun id hid => (hq id hid).elim fun _ hlock =>
      (unlinkStep_move hstep.choose_spec).lockIs hlock, trivial⟩
  env db db' hdb henv := ⟨henv.right hdb, fun q hq id hid =>
    (hq id hid).elim fun _ hlock => henv.lockIs hlock⟩

variable {ι : Type*} [DecidableEq ι]

theorem linksKept_of_moves {s s' : Interleaved WriteDb UnlinkProc ι} {move : Move ι}
    (h : unlinkProgram.Moves s move s') : LinksKept s.shared.gov s'.shared.gov := by
  cases h with
  | start => exact .refl _
  | step hproc hstep =>
    cases unlinkStep_move hstep.choose_spec with
    | read => exact .refl _
    | unlink => exact linksKept_unlink
  | env henv => exact henv.kept

/-- **Drafts and their actions.** Linked drafts are locked and have threads; no link comes back or
is moved; a request writes only in its batch, exactly where it may be made. -/
theorem draft_links_right {s : Interleaved WriteDb UnlinkProc ι}
    (h : (unlinkProgram.system ι fun db => DraftsRight db.gov).Reachable s) :
    DraftsRight s.shared.gov ∧
      (∀ s', (unlinkProgram.system ι fun db => DraftsRight db.gov).Leads s s' →
        LinksKept s.shared.gov s'.shared.gov) ∧
      (∀ i p s', s.procs i = some p → unlinkProgram.Moves s (.step i) s' →
        s'.procs i ≠ some (.answered ⟨200, .ok⟩) → s'.shared = s.shared) ∧
      ∀ i topicId actionId s', s.procs i = some (.unlink topicId actionId) →
        unlinkProgram.Moves s (.step i) s' → s'.procs i = some (.answered ⟨200, .ok⟩) →
          (UnlinkRight s.shared.gov s'.shared.gov actionId topicId ↔
            s.shared.gov.MayUnlink topicId) := by
  obtain ⟨hdb, hprocs, -⟩ := unlinkSound.holds h
  refine ⟨hdb, fun s' hleads => ?_, fun i p s' hp hmoves hnot => ?_,
    fun i topicId actionId s' hp hmoves hdone => ?_⟩
  · exact h.stable (P := fun t => LinksKept s.shared.gov t.shared.gov)
      (fun _ _ _ _ hkept hmoves => hkept.trans (linksKept_of_moves hmoves)) hleads (.refl _)
  · rcases hmoves with _ | ⟨hproc, hstep⟩ | _
    cases unlinkStep_move hstep.choose_spec with
    | read => rfl
    | unlink => exact absurd (Function.update_self _ _ _) hnot
  · have htopic := hprocs i _ hp topicId rfl
    rcases hmoves with _ | ⟨hproc, event, hstep⟩ | _
    cases hproc.symm.trans hp
    rcases event with _ | allowed | _ <;>
      simp only [unlinkStep, Option.some.injEq, Prod.mk.injEq, reduceCtorEq] at hstep
    · obtain ⟨rfl, rfl⟩ := hstep
      exact unlinkRight_iff hdb htopic
    · obtain ⟨rfl, rfl⟩ := hstep
      exact absurd ((Function.update_self _ _ _).symm.trans hdone) (by simp [HandlerResult.failed])

end Runs

/-! ### Two requests for one link -/

def sampleAction (draftTopicId : Option String) : GovernanceAction :=
  { ProposalListRow.newRow ⟨"a", 0, "gov_action1", "InfoAction", none, none, none, none, none, none,
      none, none, none⟩ (.unread .no_anchor) 0 with
    topicId := some "gov", draftTopicId := draftTopicId }

def sampleDraft : ForumTopic where
  id := "draft"
  deleted := false
  locked := true
  postCount := 1
  lastPostAt := 0
  categorySlug := PROPOSAL_DRAFTS_CATEGORY_SLUG
  authorId := "u1"
  source := .user
  title := "Draft"
  slug := "draft-x"
  pinned := false
  flagCount := 0
  createdAt := 0
  titleEditedAt := none
  proposerGrantId := none

def sampleLinked : WriteDb where
  gov :=
    { forum :=
        { topics := ⟨⟨[sampleDraft], by decide⟩, by decide⟩
          posts := .empty
          activity := [] }
      actions := ⟨[sampleAction (some "draft")], by decide⟩
      govCreated := [] }
  grants := ⟨⟨[], .nil, .nil, .nil⟩, []⟩
  users := .empty
  dreps := .empty
  revisions := []

/-- The author asks to take the action off the draft. -/
def sampleUnlink : DraftUnlinkInput :=
  ⟨some ⟨"u1", ["member"], none⟩, "draft", some (.string "a#0")⟩

theorem sampleLinked_right : DraftsRight sampleLinked.gov where
  locked := by
    rintro a d - ⟨t, ht, -, hopen⟩
    obtain rfl := List.mem_singleton.mp ht
    cases hopen
  threaded a ha _ := by
    obtain rfl := List.mem_singleton.mp ha
    simp [sampleAction]
  rejected a ha hrejected := by
    obtain rfl := List.mem_singleton.mp ha
    cases hrejected

theorem unlinkStep_moves (event : UnlinkEvent) (db : WriteDb) (p : UnlinkProc) (db' : WriteDb)
    (p' : UnlinkProc) (h : unlinkStep event db p = some (db', p')) :
    unlinkProgram.Step db p db' p' :=
  ⟨event, h⟩

instance (db : GovDb) (actionId draftTopicId : String) :
    Decidable (db.PointsAt actionId draftTopicId) :=
  inferInstanceAs (Decidable (∃ a ∈ db.actions.rows, _))

instance (db : GovDb) (topicId : String) (locked : Bool) : Decidable (db.LockIs topicId locked) :=
  inferInstanceAs (Decidable (∃ t ∈ db.forum.topics.rows, _))

def sampleAsked : Interleaved WriteDb UnlinkProc ℕ :=
  ⟨sampleLinked, Function.update (Function.update (fun _ => none) 0 (some (.received sampleUnlink)))
    1 (some (.received sampleUnlink))⟩

theorem sampleAsked_reachable :
    (unlinkProgram.system ℕ fun db => DraftsRight db.gov).Reachable sampleAsked := by
  have h₀ : (unlinkProgram.system ℕ fun db => DraftsRight db.gov).Reachable
      ⟨sampleLinked, fun _ => none⟩ := .init ⟨sampleLinked_right, fun _ => rfl⟩
  have h₁ := h₀.step (.start (i := 0) rfl ⟨sampleUnlink, rfl⟩)
  exact h₁.step (.start (i := 1) rfl ⟨sampleUnlink, rfl⟩)

def sampleChecks : List (ℕ × UnlinkEvent) :=
  [(0, .statement), (0, .allowed true), (0, .statement), (1, .statement), (1, .allowed true),
    (1, .statement)]

/-- ... and the state that they are in before their batches. -/
def sampleChecked : Interleaved WriteDb UnlinkProc ℕ :=
  (Program.run unlinkStep sampleChecks sampleAsked).get (by decide +kernel)

theorem sampleChecked_reachable :
    (unlinkProgram.system ℕ fun db => DraftsRight db.gov).Reachable sampleChecked :=
  Program.reachable_run unlinkStep_moves sampleAsked_reachable sampleChecks (by decide +kernel)

/-- A request that removes the one link of a draft opens it. -/
theorem draft_links_right_opened : ∃ s s' : Interleaved WriteDb UnlinkProc ℕ,
    s.shared.gov.LockIs "draft" true ∧ s'.shared.gov.LockIs "draft" false ∧
      UnlinkRight s.shared.gov s'.shared.gov "a#0" "draft" := by
  have hmoves := Program.moves_run unlinkStep_moves sampleChecked 0 .statement (by decide +kernel)
  refine ⟨_, _, ?_, ?_, ((draft_links_right sampleChecked_reachable).2.2.2 0 "draft" "a#0" _ rfl
    hmoves rfl).mpr (.inl ⟨"a#0", ?_⟩)⟩
  all_goals decide +kernel

/-- The first request has opened the draft, and a moderator has locked it again. -/
def sampleRelocked : Interleaved WriteDb UnlinkProc ℕ :=
  let s := (Program.run unlinkStep [(0, .statement)] sampleChecked).get (by decide +kernel)
  ⟨{ s.shared with gov := s.shared.gov.setLocked "draft" true true }, s.procs⟩

theorem sampleRelocked_reachable :
    (unlinkProgram.system ℕ fun db => DraftsRight db.gov).Reachable sampleRelocked := by
  have hfirst := Program.moves_run unlinkStep_moves sampleChecked 0 .statement (by decide +kernel)
  exact (sampleChecked_reachable.step hfirst).step (.env (DraftEnv.lock "draft"))

/-- The second request, which removes nothing, opens the draft that the moderator has locked. -/
theorem not_draft_links_right : ∃ s s' : Interleaved WriteDb UnlinkProc ℕ,
    (unlinkProgram.system ℕ fun db => DraftsRight db.gov).Reachable s ∧
      unlinkProgram.Moves s (.step 1) s' ∧ s'.procs 1 = some (.answered ⟨200, .ok⟩) ∧
      s.shared.gov.isLinked "draft" = false ∧ s.shared.gov.LockIs "draft" true ∧
      s'.shared.gov.LockIs "draft" false ∧
      ¬UnlinkRight s.shared.gov s'.shared.gov "a#0" "draft" := by
  have hmoves := Program.moves_run unlinkStep_moves sampleRelocked 1 .statement (by decide +kernel)
  refine ⟨sampleRelocked, _, sampleRelocked_reachable, hmoves, rfl, by decide +kernel,
    by decide +kernel, by decide +kernel, fun hright => ?_⟩
  have hremoved := (hright.reopens.mp ⟨by decide +kernel, by decide +kernel⟩).1.1
  revert hremoved
  decide +kernel

end DrepTalk
