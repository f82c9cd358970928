import DrepTalk.Votes.VoteProcs
import DrepTalk.Library.Interleaving

/-!
# Cross-posts, counts and events

Any number of the calls of `VoteProcs`, interleaved between their statements, while topics are
locked and deleted, and actions, users and rationales change.

**What the threads owe** (`ThreadsRight`). A voter has one cross-post in a topic; the count of a
topic is that of its posts that are not deleted; and a cross-post is announced once while it is
there, and not when it is not.

Each call reads first and writes later, with nothing to hold the two together: two calls that
find no cross-post insert two, two that find a removed one count it twice, and so on
(`not_threadsRight`). And the reap takes a cross-post out of the thread and the count, but not out
of the feed. In every run in which each batch finds the cross-post as its call has read it, and the
reap finds nothing to take, the threads are right (`threadsRight`).
-/

namespace DrepTalk

/-- A post of a topic that is not deleted. -/
def livePost (topicId : String) (p : ThreadPost) : Bool := p.topicId == topicId && !p.deleted

def eventsOf (db : ThreadDb) (postId : String) : ℕ :=
  db.activity.countP fun a => a.type == .reply_created && a.refPostId == some postId

structure ThreadsRight (db : ThreadDb) : Prop where
  single : ∀ p ∈ db.posts.rows, ∀ q ∈ db.posts.rows, p.source = some VOTE_RATIONALE →
    q.source = some VOTE_RATIONALE → p.topicId = q.topicId → p.authorId = q.authorId → p = q
  counted : ∀ t ∈ db.topics.rows, t.postCount = db.posts.rows.countP (livePost t.id)
  announced : ∀ p ∈ db.posts.rows, p.source = some VOTE_RATIONALE →
    eventsOf db p.id = if p.deleted then 0 else 1

inductive VoteStart : VoteProc → Prop
  | createPost (args : CreatePostArgs) : VoteStart (.create (.lookup args))
  | upsertVoteRationalePost (args : CrossPostArgs) : VoteStart (.upsertPost (.read args))
  | removeVoteRationalePost (args : RemovePostArgs) : VoteStart (.removePost (.read args))
  | markStalePendingVotesFailed (cutoffSeconds now : ℤ) :
    VoteStart (.reap (.stale cutoffSeconds now))
  | upsertVotes (gaId : String) (votes : List VoteInput) (now : ℤ) :
    VoteStart (.sync (.load gaId votes now))
  | recordLocalVote (r : LocalVote) : VoteStart (.record r)
  | upsertActionRationale (row : RationaleRow) : VoteStart (.rationale row)

inductive ThreadEnv (db : ThreadDb) : ThreadDb → Prop
  | actions (actions : List GovernanceActionRow) :
    ThreadEnv db { db with voteDb := { db.voteDb with actions } }
  | rationales (rationales : RationaleTable) :
    ThreadEnv db { db with voteDb := { db.voteDb with rationales } }
  | users (users : List DrepUser) : ThreadEnv db { db with users }
  | topics (deleted locked : ThreadTopic → Bool) :
    ThreadEnv db { db with
      topics := db.topics.updateWhere (fun _ => true)
        (fun t => { t with deleted := deleted t, locked := locked t }) fun _ _ => rfl }

/-- The calls, with what happens beside them. -/
def voteProgram : Program ThreadDb VoteProc where
  Start _ l := VoteStart l
  Step db l db' l' := voteProcStep db l = some (db', l')
  Env := ThreadEnv

/-- Every event is about a post that is there. -/
def Referenced (db : ThreadDb) : Prop :=
  ∀ a ∈ db.activity, a.type = .reply_created → ∀ id ∈ a.refPostId,
    ∃ p ∈ db.posts.rows, p.id = id

/-- Before the first call the threads are right. -/
structure ThreadDb.Initial (db : ThreadDb) : Prop where
  right : ThreadsRight db
  referenced : Referenced db

/-- A batch that finds the cross-post as its call has read it, or does nothing: an insert none, a
revival a deleted one, a removal one that is there. The reap finds nothing to take. -/
def ThreadDb.InTime (db : ThreadDb) : VoteProc → Prop
  | .upsertPost (.insert args) =>
    args.postId ∈ db.posts.rows.map (·.id) ∨
      ∀ p ∈ db.posts.rows, isCrossPost args.topicId args.authorId p = false
  | .upsertPost (.revive _ postId) => ∀ p ∈ db.posts.rows, p.id = postId → p.deleted = true
  | .removePost (.remove args postId) =>
    (∀ p ∈ db.posts.rows, p.id = postId → p.deleted = false) ∨
      ∀ t ∈ db.topics.rows, t.id = args.topicId → t.postCount = 0
  | .reap (.post _ _ post _ _ _) =>
    (∀ p ∈ db.posts.rows, p.id = post.1 → p.deleted = true) ∧
      ∀ t ∈ db.topics.rows, t.id = post.2 → t.postCount = 0
  | _ => True

def batchesInTime : Program.Condition ThreadDb VoteProc where
  state _ := True
  mover := ThreadDb.InTime
  others _ _ _ := True

/-! ### Batches -/

/-- What holds of the threads in a run whose batches are in time. -/
structure ThreadsSafe (db : ThreadDb) : Prop where
  right : ThreadsRight db
  referenced : Referenced db

/-- The columns that say which post a row is. -/
structure SamePost (p p' : ThreadPost) : Prop where
  id : p'.id = p.id
  topicId : p'.topicId = p.topicId
  authorId : p'.authorId = p.authorId
  source : p'.source = p.source

def PostsKept (db db' : ThreadDb) : Prop :=
  ∀ p ∈ db.posts.rows, ∃ p' ∈ db'.posts.rows, SamePost p p'

theorem PostsKept.refl (db : ThreadDb) : PostsKept db db :=
  fun p hmem => ⟨p, hmem, rfl, rfl, rfl, rfl⟩

variable {db db' : ThreadDb}

variable {p₀ post p : ThreadPost}

variable {f : ThreadPost → ThreadPost} {topics : ThreadTopicTable} {args : CrossPostArgs}
  {posts : List (String × String)} {todo : List VoteKey}

theorem ThreadsSafe.update {db db' : ThreadDb} (h : ThreadsSafe db) (hmem : p₀ ∈ db.posts.rows)
    (hsame : ∀ p, SamePost p (f p))
    (hposts : db'.posts.rows = Table.updateWhere (fun p => p.id == p₀.id) f db.posts.rows)
    (hown : p₀.source = some VOTE_RATIONALE → eventsOf db' p₀.id = if (f p₀).deleted then 0 else 1)
    (hother : ∀ id, id ≠ p₀.id → eventsOf db' id = eventsOf db id)
    (hreferenced : ∀ a ∈ db'.activity, a ∈ db.activity ∨ a.refPostId = some p₀.id)
    (hcounts : ∀ t' ∈ db'.topics.rows, ∃ t ∈ db.topics.rows, t'.id = t.id ∧
      t'.postCount + (if livePost t.id p₀ then 1 else 0) =
        t.postCount + if livePost t.id (f p₀) then 1 else 0) :
    ThreadsSafe db' ∧ PostsKept db db' := by
  have hrow : ∀ p' ∈ db'.posts.rows, ∃ p ∈ db.posts.rows,
      p' = (if p.id == p₀.id then f p else p) ∧ SamePost p p' := by
    intro p' hp'
    rw [hposts] at hp'
    obtain ⟨p, hp, rfl⟩ := List.mem_map.mp hp'
    refine ⟨p, hp, rfl, ?_⟩
    split_ifs
    · exact hsame p
    · exact ⟨rfl, rfl, rfl, rfl⟩
  have hkept : PostsKept db db' := by
    intro p hp
    refine ⟨if p.id == p₀.id then f p else p, ?_, ?_⟩
    · rw [hposts]
      exact Table.mem_updateWhere_of_mem _ _ hp
    · split_ifs
      · exact hsame p
      · exact ⟨rfl, rfl, rfl, rfl⟩
  refine ⟨⟨⟨fun p' hp' q' hq' hpsource hqsource htopic hauthor => ?_, fun t' ht' => ?_,
    fun p' hp' hsource => ?_⟩, fun a ha hkind id hid => ?_⟩, hkept⟩
  · -- the update changes neither source, topic nor author
    obtain ⟨p, hp, rfl, hpsame⟩ := hrow p' hp'
    obtain ⟨q, hq, rfl, hqsame⟩ := hrow q' hq'
    rw [hpsame.source] at hpsource
    rw [hqsame.source] at hqsource
    rw [hpsame.topicId, hqsame.topicId] at htopic
    rw [hpsame.authorId, hqsame.authorId] at hauthor
    rw [h.right.single p hp q hq hpsource hqsource htopic hauthor]
  · obtain ⟨t, ht, hid, hcount⟩ := hcounts t' ht'
    -- the topic of the post counts what the update does to it
    have hlive := db.posts.countP_updateWhere hmem (p := fun p => p.id == p₀.id)
      (fun _ => beq_iff_eq) f (livePost t.id)
    rw [hposts, hid]
    have hold := h.right.counted t ht
    split_ifs at hcount hlive <;> omega
  · obtain ⟨p, hp, hpdef, hpsame⟩ := hrow p' hp'
    rw [hpsame.source] at hsource
    rw [hpsame.id, hpdef]
    -- the events of the post itself, and those of the others
    by_cases hid : p.id = p₀.id
    · obtain rfl := db.posts.eq_of_key hp hmem hid
      rw [if_pos (beq_self_eq_true p.id)]
      exact hown hsource
    · rw [if_neg fun h => hid (beq_iff_eq.mp h), hother p.id hid]
      exact h.right.announced p hp hsource
  · rcases hreferenced a ha with hold | hown
    · obtain ⟨p, hp, rfl⟩ := h.referenced a hold hkind id hid
      obtain ⟨p', hp', hsame'⟩ := hkept p hp
      exact ⟨p', hp', hsame'.id⟩
    · obtain ⟨p', hp', hsame'⟩ := hkept p₀ hmem
      refine ⟨p', hp', hsame'.id.trans ?_⟩
      exact Option.some.inj (hown.symm.trans hid)

variable {topicId : String} {now : ℤ}

theorem mem_countPost {t' : ThreadTopic} (h : t' ∈ (countPost topics topicId now).rows) :
    ∃ t ∈ topics.rows, t'.id = t.id ∧
      t'.postCount = t.postCount + if t.id = topicId then 1 else 0 := by
  rcases Table.mem_updateWhere.mp h with ⟨hmem, hother⟩ | ⟨t, hmem, hown, rfl⟩
  · exact ⟨t', hmem, rfl, by rw [if_neg (by simpa using hother), add_zero]⟩
  · exact ⟨t, hmem, rfl, by rw [if_pos (by simpa using hown)]⟩

theorem mem_uncountPost {t' : ThreadTopic} (h : t' ∈ (uncountPost topics topicId).rows) :
    ∃ t ∈ topics.rows, t'.id = t.id ∧
      t'.postCount = if t.id = topicId then max (t.postCount - 1) 0 else t.postCount := by
  rcases Table.mem_updateWhere.mp h with ⟨hmem, hother⟩ | ⟨t, hmem, hown, rfl⟩
  · exact ⟨t', hmem, rfl, by rw [if_neg (by simpa using hother)]⟩
  · exact ⟨t, hmem, rfl, by rw [if_pos (by simpa using hown)]⟩

variable {authorId postId : String}

theorem eventsOf_append (h : db'.activity = db.activity ++ [replyEvent topicId authorId postId now])
    (id : String) :
    eventsOf db' id = eventsOf db id + if id = postId then 1 else 0 := by
  rw [eventsOf, h, List.countP_append, eventsOf, List.countP_singleton, replyEvent]
  by_cases hid : id = postId
  · simp [hid]
  · simp [hid, Ne.symm hid]

theorem Referenced.eventsOf_eq_zero (h : Referenced db) {id : String}
    (hfree : id ∉ db.posts.rows.map (·.id)) : eventsOf db id = 0 := by
  refine List.countP_eq_zero.mpr fun a ha hevent => hfree ?_
  rw [Bool.and_eq_true, beq_iff_eq, beq_iff_eq] at hevent
  obtain ⟨p, hmem, hid⟩ := h a ha hevent.1 id hevent.2
  exact List.mem_map.mpr ⟨p, hmem, hid⟩

theorem insertPost_eq_some (h : insertPost db post = some db') :
    post.id ∉ db.posts.rows.map (·.id) ∧
      db'.posts.rows = db.posts.rows ++ [post] ∧
      db'.topics = countPost db.topics post.topicId post.createdAt ∧
      db'.activity =
        db.activity ++ [replyEvent post.topicId post.authorId post.id post.createdAt] := by
  rw [insertPost] at h
  split_ifs at h with htaken
  cases h
  refine ⟨htaken, ?_, rfl, rfl⟩
  rw [KeyedTable.insertOrIgnore, dif_neg htaken]

theorem ThreadsSafe.insert {db db' : ThreadDb} (h : ThreadsSafe db)
    (hinsert : insertPost db post = some db') (hlive : post.deleted = false)
    (hsingle : post.source = some VOTE_RATIONALE →
      ∀ p ∈ db.posts.rows, isCrossPost post.topicId post.authorId p = false) :
    ThreadsSafe db' ∧ PostsKept db db' := by
  obtain ⟨hfree, hrows, htopics, hactivity⟩ := insertPost_eq_some hinsert
  have hrow : ∀ p ∈ db'.posts.rows, p ∈ db.posts.rows ∨ p = post := by
    intro p hp
    rw [hrows] at hp
    exact (List.mem_append.mp hp).imp_right List.mem_singleton.mp
  have hold : ∀ p ∈ db.posts.rows, p ∈ db'.posts.rows := fun p hp =>
    hrows ▸ List.mem_append_left _ hp
  have hother : ∀ p ∈ db.posts.rows, p.id ≠ post.id := fun p hp heq =>
    hfree (List.mem_map.mpr ⟨p, hp, heq⟩)
  -- there is no other cross-post of the same author in the same topic
  have hnone : ∀ p ∈ db.posts.rows, p.source = some VOTE_RATIONALE →
      post.source = some VOTE_RATIONALE → p.topicId = post.topicId →
        p.authorId = post.authorId → False := by
    intro p hp hpsource hsource htopic hauthor
    have hcross : isCrossPost post.topicId post.authorId p = true := by
      simp [isCrossPost, hpsource, htopic, hauthor]
    exact absurd hcross (by rw [hsingle hsource p hp]; exact Bool.false_ne_true)
  refine ⟨⟨⟨fun p hp q hq hpsource hqsource htopic hauthor => ?_, fun t' ht' => ?_,
    fun p hp hsource => ?_⟩, fun a ha hkind id hid => ?_⟩,
    fun p hp => ⟨p, hold p hp, rfl, rfl, rfl, rfl⟩⟩
  · rcases hrow p hp with hpold | rfl
    · rcases hrow q hq with hqold | rfl
      · exact h.right.single p hpold q hqold hpsource hqsource htopic hauthor
      · exact (hnone p hpold hpsource hqsource htopic hauthor).elim
    · rcases hrow q hq with hqold | rfl
      · exact (hnone q hqold hqsource hpsource htopic.symm hauthor.symm).elim
      · rfl
  · rw [htopics] at ht'
    obtain ⟨t, ht, hid, hcount⟩ := mem_countPost ht'
    have hone : List.countP (livePost t.id) [post] = if t.id = post.topicId then 1 else 0 := by
      rw [List.countP_singleton, livePost, hlive, Bool.not_false, Bool.and_true]
      exact if_congr (beq_iff_eq.trans eq_comm) rfl rfl
    rw [hrows, List.countP_append, hid, hone, hcount, h.right.counted t ht]
    split_ifs <;> simp
  · rw [eventsOf_append hactivity]
    rcases hrow p hp with hpold | rfl
    · rw [if_neg (hother p hpold), add_zero]
      exact h.right.announced p hpold hsource
    · rw [if_pos rfl, h.referenced.eventsOf_eq_zero hfree, hlive]
      rfl
  · rw [hactivity] at ha
    rcases List.mem_append.mp ha with haold | hnew
    · obtain ⟨p, hp, hpid⟩ := h.referenced a haold hkind id hid
      exact ⟨p, hold p hp, hpid⟩
    · obtain rfl := List.mem_singleton.mp hnew
      refine ⟨post, ?_, Option.some.inj hid⟩
      rw [hrows]
      exact List.mem_append_right _ List.mem_cons_self

/-! ### What calls know -/

/-- A cross-post that a call has read. -/
def KnownCrossPost (db : ThreadDb) (topicId authorId postId : String) : Prop :=
  ∃ p ∈ db.posts.rows, p.id = postId ∧ p.topicId = topicId ∧ p.authorId = authorId ∧
    p.source = some VOTE_RATIONALE

theorem KnownCrossPost.mono (h : KnownCrossPost db topicId authorId postId)
    (hkept : PostsKept db db') :
    KnownCrossPost db' topicId authorId postId := by
  obtain ⟨p, hmem, hid, htopic, hauthor, hsource⟩ := h
  obtain ⟨p', hmem', hsame⟩ := hkept p hmem
  exact ⟨p', hmem', hsame.id.trans hid, hsame.topicId.trans htopic,
    hsame.authorId.trans hauthor, hsame.source.trans hsource⟩

def VoteProc.Knows (db : ThreadDb) : VoteProc → Prop
  | .upsertPost (.revive args postId) | .upsertPost (.edit args postId) =>
    KnownCrossPost db args.topicId args.authorId postId
  | .removePost (.remove args postId) => KnownCrossPost db args.topicId args.authorId postId
  | .reap (.post _ _ post posts _ _) => ∀ q ∈ post :: posts, ∃ p ∈ db.posts.rows, p.id = q.1 ∧
    p.source = some VOTE_RATIONALE
  | _ => True

theorem VoteProc.Knows.mono {l : VoteProc} (h : l.Knows db) (hkept : PostsKept db db') :
    l.Knows db' := by
  cases l with
  | upsertPost l =>
    cases l with
    | revive args postId | edit args postId => exact KnownCrossPost.mono h hkept
    | read args | insert args | returned | threw error => exact trivial
  | removePost l =>
    cases l with
    | remove args postId => exact KnownCrossPost.mono h hkept
    | read args | returned => exact trivial
  | reap l =>
    cases l with
    | post now vote post posts todo count =>
      intro q hq
      -- a post keeps its id and its source
      obtain ⟨p, hmem, hid, hsource⟩ := h q hq
      obtain ⟨p', hmem', hsame⟩ := hkept p hmem
      exact ⟨p', hmem', hsame.id.trans hid, hsame.source.trans hsource⟩
    | stale cutoffSeconds now | flag cutoffSeconds now todo => exact trivial
    | rationale now vote todo count => exact trivial
    | select now vote todo count => exact trivial
    | returned count => exact trivial
  | create l => exact trivial
  | sync l => exact trivial
  | record r => exact trivial
  | rationale row => exact trivial
  | returned => exact trivial

theorem knownCrossPost_of_find (hmem : p ∈ db.posts.rows)
    (h : isCrossPost topicId authorId p = true) : KnownCrossPost db topicId authorId p.id := by
  rw [isCrossPost, Bool.and_eq_true, Bool.and_eq_true, beq_iff_eq, beq_iff_eq, beq_iff_eq] at h
  exact ⟨p, hmem, rfl, h.1.1, h.1.2, h.2⟩

/-! ### One step of each call -/

theorem counts_same (hsame : SamePost p (f p)) (hdeleted : (f p).deleted = p.deleted)
    {t : ThreadTopic} (ht : t ∈ db.topics.rows) :
    ∃ t₀ ∈ db.topics.rows, t.id = t₀.id ∧
      t.postCount + (if livePost t₀.id p then 1 else 0) =
        t₀.postCount + if livePost t₀.id (f p) then 1 else 0 := by
  refine ⟨t, ht, rfl, ?_⟩
  rw [livePost, livePost, hsame.topicId, hdeleted]

theorem ThreadsSafe.edit (h : ThreadsSafe db)
    (hknown : KnownCrossPost db args.topicId args.authorId postId) :
    ThreadsSafe (editCrossPost db args postId) ∧ PostsKept db (editCrossPost db args postId) := by
  obtain ⟨p₀, hmem, rfl, -⟩ := hknown
  exact h.update (f := args.edited) hmem (fun p => ⟨rfl, rfl, rfl, rfl⟩) rfl
    (h.right.announced p₀ hmem) (fun _ _ => rfl) (fun a ha => .inl ha)
    fun t ht => counts_same (f := args.edited) ⟨rfl, rfl, rfl, rfl⟩ rfl ht

theorem ThreadsSafe.revive (h : ThreadsSafe db)
    (hknown : KnownCrossPost db args.topicId args.authorId postId)
    (htime : db.InTime (.upsertPost (.revive args postId))) :
    ThreadsSafe (revivePost db args postId) ∧ PostsKept db (revivePost db args postId) := by
  obtain ⟨p₀, hmem, rfl, htopic, -, -⟩ := hknown
  have hdeleted := htime p₀ hmem rfl
  have hevents := eventsOf_append (rfl : (revivePost db args p₀.id).activity = db.activity ++ _)
  refine h.update (f := args.revived) hmem (fun p => ⟨rfl, rfl, rfl, rfl⟩) rfl
    (fun hsource => ?_) (fun id hid => ?_) (fun a ha => ?_) fun t' ht' => ?_
  · rw [hevents, h.right.announced p₀ hmem hsource, hdeleted, if_pos rfl, if_pos rfl]
    rfl
  · rw [hevents, if_neg hid, add_zero]
  · rcases List.mem_append.mp ha with hold | hnew
    · exact .inl hold
    · obtain rfl := List.mem_singleton.mp hnew
      exact .inr rfl
  · obtain ⟨t, ht, hid, hcount⟩ := mem_countPost ht'
    refine ⟨t, ht, hid, ?_⟩
    rw [hcount, livePost, livePost, hdeleted]
    by_cases hown : t.id = args.topicId
    · simp [hown, htopic, CrossPostArgs.revived, CrossPostArgs.edited]
    · simp [hown, htopic, Ne.symm hown, CrossPostArgs.revived, CrossPostArgs.edited]

theorem ThreadsSafe.redelete (h : ThreadsSafe db) (hmem : p₀ ∈ db.posts.rows)
    (hdeleted : p₀.deleted = true) (hposts : db'.posts = softDelete db.posts p₀.id now)
    (htopics : db'.topics = uncountPost db.topics topicId)
    (hevents : ∀ id, eventsOf db' id = eventsOf db id)
    (hactivity : ∀ a ∈ db'.activity, a ∈ db.activity)
    (hzero : ∀ t ∈ db.topics.rows, t.id = topicId → t.postCount = 0) :
    ThreadsSafe db' ∧ PostsKept db db' := by
  refine h.update (f := fun p => { p with deleted := true, deletedAt := some now }) hmem
    (fun p => ⟨rfl, rfl, rfl, rfl⟩) (by rw [hposts]; rfl) (fun hsource => ?_)
    (fun id _ => hevents id) (fun a ha => .inl (hactivity a ha)) fun t' ht' => ?_
  · rw [hevents, h.right.announced p₀ hmem hsource, hdeleted]
  · rw [htopics] at ht'
    obtain ⟨t, ht, hid, hcount⟩ := mem_uncountPost ht'
    refine ⟨t, ht, hid, ?_⟩
    rw [hcount, livePost, livePost, hdeleted]
    by_cases hown : t.id = topicId
    · rw [if_pos hown, hzero t ht hown]
      simp
    · rw [if_neg hown]

theorem ThreadsSafe.remove (h : ThreadsSafe db) {args : RemovePostArgs}
    (hknown : KnownCrossPost db args.topicId args.authorId postId)
    (htime : db.InTime (.removePost (.remove args postId))) :
    ThreadsSafe (removeCrossPost db args postId) ∧
      PostsKept db (removeCrossPost db args postId) := by
  obtain ⟨p₀, hmem, rfl, htopic, -, hsource₀⟩ := hknown
  have hown : eventsOf (removeCrossPost db args p₀.id) p₀.id = 0 := by
    refine List.countP_eq_zero.mpr fun a ha hevent => ?_
    exact absurd hevent (by rw [(Table.mem_deleteWhere.mp ha).2]; exact Bool.false_ne_true)
  have hother : ∀ id, id ≠ p₀.id →
      eventsOf (removeCrossPost db args p₀.id) id = eventsOf db id := by
    intro id hid
    rw [eventsOf, eventsOf, removeCrossPost, Table.deleteWhere, List.countP_filter]
    refine List.countP_congr fun a _ => ?_
    by_cases hevent : a.refPostId = some id
    · simp [hevent, hid]
    · simp [hevent]
  have hactivity : ∀ a ∈ (removeCrossPost db args p₀.id).activity, a ∈ db.activity :=
    fun a ha => (Table.mem_deleteWhere.mp ha).1
  rcases hdeleted : p₀.deleted with _ | _
  · -- it is there, and so it is counted
    refine h.update (f := fun p => { p with deleted := true, deletedAt := some args.now }) hmem
      (fun p => ⟨rfl, rfl, rfl, rfl⟩) rfl (fun _ => hown) hother
      (fun a ha => .inl (hactivity a ha)) fun t' ht' => ?_
    · obtain ⟨t, ht, hid, hcount⟩ := mem_uncountPost ht'
      refine ⟨t, ht, hid, ?_⟩
      rw [hcount, livePost, livePost, hdeleted]
      by_cases htown : t.id = args.topicId
      · have hpos : 0 < db.posts.rows.countP (livePost t.id) :=
          List.countP_pos_iff.mpr ⟨p₀, hmem, by simp [livePost, hdeleted, htopic, htown]⟩
        have hcounted := h.right.counted t ht
        rw [if_pos htown]
        simp only [htopic, htown, beq_self_eq_true, Bool.not_false, Bool.and_true, if_true,
          Bool.not_true, Bool.and_false, Bool.false_eq_true, if_false, add_zero]
        omega
      · rw [if_neg htown]
        simp [htopic, Ne.symm htown]
  · -- it has been removed already, and there is nothing left to count
    have hzero : ∀ t ∈ db.topics.rows, t.id = args.topicId → t.postCount = 0 := by
      refine htime.resolve_left fun hlive => ?_
      exact absurd (hlive p₀ hmem rfl) (by simp [hdeleted])
    refine h.redelete hmem hdeleted rfl rfl (fun id => ?_) hactivity hzero
    by_cases hid : id = p₀.id
    · rw [hid, hown, h.right.announced p₀ hmem hsource₀, hdeleted]
      rfl
    · exact hother id hid

variable {vote : VoteKey}

theorem ThreadsSafe.reapPost (h : ThreadsSafe db) {post : String × String} {count : ℕ}
    (hknown : ∃ p ∈ db.posts.rows, p.id = post.1 ∧ p.source = some VOTE_RATIONALE)
    (htime : db.InTime (.reap (.post now vote post posts todo count))) :
    ThreadsSafe { db with
      posts := softDelete db.posts post.1 now
      topics := uncountPost db.topics post.2 } ∧
    PostsKept db { db with
      posts := softDelete db.posts post.1 now
      topics := uncountPost db.topics post.2 } := by
  obtain ⟨p₀, hmem, hid, -⟩ := hknown
  obtain ⟨hdeleted, hzero⟩ := htime
  exact h.redelete hmem (hdeleted p₀ hmem hid) (by rw [hid]) rfl (fun _ => rfl) (fun _ ha => ha)
    hzero

theorem ThreadsSafe.frame {db db' : ThreadDb} (h : ThreadsSafe db) (hposts : db'.posts = db.posts)
    (hactivity : db'.activity = db.activity)
    (htopics : ∀ t' ∈ db'.topics.rows, ∃ t ∈ db.topics.rows,
      t'.id = t.id ∧ t'.postCount = t.postCount) :
    ThreadsSafe db' ∧ PostsKept db db' := by
  obtain ⟨voteDb, posts, topics, activity, users⟩ := db
  obtain ⟨voteDb', posts', topics', activity', users'⟩ := db'
  dsimp only at hposts hactivity
  subst hposts hactivity
  refine ⟨⟨⟨h.right.single, fun t' ht' => ?_, h.right.announced⟩, h.referenced⟩,
    PostsKept.refl _⟩
  obtain ⟨t, ht, hid, hcount⟩ := htopics t' ht'
  rw [hcount, hid]
  exact h.right.counted t ht

theorem same_topics (h : db'.topics = db.topics) : ∀ t' ∈ db'.topics.rows,
    ∃ t ∈ db.topics.rows, t'.id = t.id ∧ t'.postCount = t.postCount :=
  fun t' ht' => ⟨t', h ▸ ht', rfl, rfl⟩

/-- What one step of a call leaves: threads that are right, every post still there, and what the
call relies on. -/
structure StepSafe (db db' : ThreadDb) (l' : VoteProc) : Prop where
  safe : ThreadsSafe db'
  kept : PostsKept db db'
  knows : l'.Knows db'

variable {l' : VoteProc}

theorem ThreadsSafe.reads (h : ThreadsSafe db) (hknows : l'.Knows db) : StepSafe db db l' :=
  ⟨h, PostsKept.refl db, hknows⟩

theorem ThreadsSafe.votes (h : ThreadsSafe db) (voteDb : VoteDb)
    (hknows : l'.Knows { db with voteDb }) : StepSafe db { db with voteDb } l' := by
  obtain ⟨hsafe, hkept⟩ : ThreadsSafe { db with voteDb } ∧ PostsKept db { db with voteDb } :=
    h.frame rfl rfl (same_topics rfl)
  exact ⟨hsafe, hkept, hknows⟩

theorem createStep_safe {l l' : CreateProc} (h : ThreadsSafe db)
    (hstep : createStep db l = some (db', l')) : StepSafe db db' (.create l') := by
  cases l with
  | lookup args =>
    cases hstep
    exact h.reads trivial
  | insert args parentId =>
    rw [createStep] at hstep
    split at hstep
    · rename_i inserted hinsert
      cases hstep
      -- a post that is no cross-post
      obtain ⟨hsafe, hkept⟩ := h.insert hinsert rfl nofun
      exact ⟨hsafe, hkept, trivial⟩
    · cases hstep
      exact h.reads trivial
  | returned postId => cases hstep
  | threw error => cases hstep

theorem upsertPostStep_safe {l l' : UpsertPostProc} (h : ThreadsSafe db)
    (hknows : (VoteProc.upsertPost l).Knows db) (htime : db.InTime (.upsertPost l))
    (hstep : upsertPostStep db l = some (db', l')) : StepSafe db db' (.upsertPost l') := by
  cases l with
  | read args =>
    cases hstep
    refine h.reads ?_
    rcases hfound : db.posts.rows.find? (isCrossPost args.topicId args.authorId) with _ | p
    · exact trivial
    · have hknown := knownCrossPost_of_find (List.mem_of_find?_eq_some hfound)
        (List.find?_some hfound)
      rcases hdeleted : p.deleted with _ | _ <;> simpa [upsertRead, hdeleted, VoteProc.Knows]
  | revive args postId =>
    cases hstep
    obtain ⟨hsafe, hkept⟩ := h.revive hknows htime
    exact ⟨hsafe, hkept, trivial⟩
  | edit args postId =>
    cases hstep
    obtain ⟨hsafe, hkept⟩ := h.edit hknows
    exact ⟨hsafe, hkept, trivial⟩
  | insert args =>
    rw [upsertPostStep] at hstep
    split at hstep
    · rename_i inserted hinsert
      cases hstep
      -- the batch went through, so the condition leaves no cross-post
      have hnone := htime.resolve_left (insertPost_eq_some hinsert).1
      obtain ⟨hsafe, hkept⟩ := h.insert hinsert rfl fun _ => hnone
      exact ⟨hsafe, hkept, trivial⟩
    · -- the id is taken, and the batch fails
      cases hstep
      exact h.reads trivial
  | returned => cases hstep
  | threw error => cases hstep

theorem removePostStep_safe {l l' : RemovePostProc} (h : ThreadsSafe db)
    (hknows : (VoteProc.removePost l).Knows db) (htime : db.InTime (.removePost l))
    (hstep : removePostStep db l = some (db', l')) : StepSafe db db' (.removePost l') := by
  cases l with
  | read args =>
    cases hstep
    refine h.reads ?_
    split
    · rename_i p hfound
      have hcross := List.find?_some hfound
      rw [Bool.and_eq_true] at hcross
      exact knownCrossPost_of_find (List.mem_of_find?_eq_some hfound) hcross.1
    · exact trivial
  | remove args postId =>
    cases hstep
    obtain ⟨hsafe, hkept⟩ := h.remove hknows htime
    exact ⟨hsafe, hkept, trivial⟩
  | returned => cases hstep

theorem reapNextPost_knows {count : ℕ}
    (h : ∀ q ∈ posts, ∃ p ∈ db.posts.rows, p.id = q.1 ∧ p.source = some VOTE_RATIONALE) :
    (VoteProc.reap (reapNextPost now vote todo count posts)).Knows db := by
  cases posts with
  | nil => cases todo <;> exact trivial
  | cons post posts => exact h

theorem mem_crossPostsOf {q : String × String} (h : q ∈ crossPostsOf db vote) :
    ∃ p ∈ db.posts.rows, p.id = q.1 ∧ p.source = some VOTE_RATIONALE := by
  obtain ⟨p, hp, rfl⟩ := List.mem_map.mp h
  obtain ⟨hmem, hcross⟩ := List.mem_filter.mp hp
  simp only [Bool.and_eq_true, beq_iff_eq] at hcross
  exact ⟨p, hmem, rfl, hcross.1.1.1⟩

theorem reapStep_safe {l l' : ReapProc} (h : ThreadsSafe db) (hknows : (VoteProc.reap l).Knows db)
    (htime : db.InTime (.reap l)) (hstep : reapStep db l = some (db', l')) :
    StepSafe db db' (.reap l') := by
  cases l with
  | stale cutoffSeconds now =>
    cases hstep
    refine h.reads ?_
    split <;> exact trivial
  | flag cutoffSeconds now todo =>
    cases hstep
    exact h.votes _ (by cases todo <;> exact trivial)
  | rationale now vote todo count =>
    cases hstep
    exact h.votes _ trivial
  | select now vote todo count =>
    cases hstep
    exact h.reads (reapNextPost_knows fun q hq => mem_crossPostsOf hq)
  | post now vote post posts todo count =>
    cases hstep
    obtain ⟨hsafe, hkept⟩ := h.reapPost (hknows post List.mem_cons_self) htime
    -- the posts still to come are cross-posts as before
    have hrest : (VoteProc.reap (.post now vote post posts todo count)).Knows _ :=
      VoteProc.Knows.mono hknows hkept
    exact ⟨hsafe, hkept, reapNextPost_knows fun q hq => hrest q (List.mem_cons_of_mem _ hq)⟩
  | returned count => cases hstep

theorem voteProcStep_safe {l : VoteProc} (h : ThreadsSafe db) (hknows : l.Knows db)
    (htime : db.InTime l) (hstep : voteProcStep db l = some (db', l')) :
    StepSafe db db' l' := by
  cases l with
  | create l =>
    obtain ⟨out, hout, ⟨⟩⟩ := Option.map_eq_some_iff.mp hstep
    exact createStep_safe h hout
  | upsertPost l =>
    obtain ⟨out, hout, ⟨⟩⟩ := Option.map_eq_some_iff.mp hstep
    exact upsertPostStep_safe h hknows htime hout
  | removePost l =>
    obtain ⟨out, hout, ⟨⟩⟩ := Option.map_eq_some_iff.mp hstep
    exact removePostStep_safe h hknows htime hout
  | reap l =>
    obtain ⟨out, hout, ⟨⟩⟩ := Option.map_eq_some_iff.mp hstep
    exact reapStep_safe h hknows htime hout
  | sync l =>
    obtain ⟨out, hout, ⟨⟩⟩ := Option.map_eq_some_iff.mp hstep
    exact h.votes _ trivial
  | record r | rationale row =>
    cases hstep
    exact h.votes _ trivial
  | returned => cases hstep

/-! ### Batches that are late -/

theorem ThreadsSafe.env (h : ThreadsSafe db) (henv : ThreadEnv db db') :
    ThreadsSafe db' ∧ PostsKept db db' := by
  cases henv with
  | actions actions | rationales rationales | users users => exact h.frame rfl rfl (same_topics rfl)
  | topics deleted locked =>
    refine h.frame rfl rfl fun t' ht' => ?_
    obtain ⟨t, ht, rfl⟩ := List.mem_map.mp ht'
    exact ⟨t, ht, rfl, rfl⟩

/-! ### Every run -/

/-- What holds of the threads and the calls, step by step. -/
def threadsSound : voteProgram.SoundWhen batchesInTime ThreadDb.Initial where
  inv := ThreadsSafe
  asserts db l := l.Knows db
  apart _ _ := True
  symm _ _ h := h
  init _ h := ⟨h.right, h.referenced⟩
  start db l _ _ hstart := ⟨by cases hstart <;> exact trivial, fun _ _ => trivial⟩
  step db l db' l' _ htime hsafe hknows hstep :=
    have hdone := voteProcStep_safe hsafe hknows htime hstep
    ⟨hdone.safe, hdone.knows⟩
  noninterference db l db' l' m _ htime _ hsafe hknows hother _ hstep :=
    ⟨hother.mono (voteProcStep_safe hsafe hknows htime hstep).kept, trivial⟩
  env db db' _ hsafe henv := ⟨(hsafe.env henv).1, fun _ hknows => hknows.mono (hsafe.env henv).2⟩

variable {ι : Type*} [DecidableEq ι]

/-- **The threads are right** in every run in which each batch is in time. -/
theorem threadsRight {s : Interleaved ThreadDb VoteProc ι}
    (h : ((voteProgram.system ι ThreadDb.Initial).restrict batchesInTime.Met).Reachable s) :
    ThreadsRight s.shared :=
  (threadsSound.holds h).inv.right

/-! ### A cross-post that is removed and comes back -/

instance (db : ThreadDb) : DecidablePred db.InTime := fun l => by
  unfold ThreadDb.InTime
  split <;> infer_instance

/-- The next statement of a call, where it is in time. -/
def voteProcStepInTime (_ : Unit) (db : ThreadDb) (l : VoteProc) : Option (ThreadDb × VoteProc) :=
  if db.InTime l then voteProcStep db l else none

theorem voteProcStepInTime_moves (k : Unit) (db : ThreadDb) (l : VoteProc) (db' : ThreadDb)
    (l' : VoteProc) (h : voteProcStepInTime k db l = some (db', l')) :
    voteProgram.Step db l db' l' ∧ batchesInTime.state db ∧ batchesInTime.mover db l := by
  rw [voteProcStepInTime] at h
  split_ifs at h with htime
  exact ⟨h, trivial, htime⟩

def sampleThreadDb : ThreadDb where
  voteDb := ⟨.empty, .empty, .empty, [⟨"ga1", some "t1", "active"⟩]⟩
  posts := .empty
  topics := KeyedTable.empty.insertOrIgnore ⟨"t1", false, false, 0, 0⟩
  activity := []
  users := [⟨"alice", some "drep1"⟩]

theorem sampleThreadDb_initial : sampleThreadDb.Initial where
  right := ⟨by decide +kernel, by decide +kernel, by decide +kernel⟩
  referenced := nofun

def sampleCrossPost (body postId : String) (now : ℤ) : CrossPostArgs :=
  ⟨"t1", "alice", "yes", body, body, now, postId⟩

/-- A cross-post is written, removed and written again: it is there, counted and announced once. -/
theorem threadsRight_revived :
    ∃ s : Interleaved ThreadDb VoteProc ℕ,
      ((voteProgram.system ℕ ThreadDb.Initial).restrict batchesInTime.Met).Reachable s ∧
        s.shared.posts.rows.map (fun p => (p.id, p.bodyMd, p.deleted)) = [("p1", "b", false)] ∧
        s.shared.topics.rows.map (·.postCount) = [1] ∧ eventsOf s.shared "p1" = 1 ∧
        ThreadsRight s.shared := by
  have h₀ : ((voteProgram.system ℕ ThreadDb.Initial).restrict batchesInTime.Met).Reachable
      ⟨sampleThreadDb, fun _ => none⟩ := .init ⟨sampleThreadDb_initial, fun _ => rfl⟩
  have h₁ := Program.reachable_start h₀ (i := 0) trivial rfl
    (.upsertVoteRationalePost (sampleCrossPost "a" "p1" 1000))
  have h₂ := Program.reachable_start h₁ (i := 1) trivial rfl
    (.removeVoteRationalePost ⟨"t1", "alice", 2000⟩)
  have h₃ := Program.reachable_start h₂ (i := 2) trivial rfl
    (.upsertVoteRationalePost (sampleCrossPost "b" "p2" 3000))
  have h₄ := Program.reachable_runWhen (fun _ _ _ _ _ _ => trivial) voteProcStepInTime_moves h₃
    ([0, 0, 1, 1, 2, 2].map fun i => (i, ())) (by decide +kernel)
  exact ⟨_, h₄, by decide +kernel, by decide +kernel, by decide +kernel, threadsRight h₄⟩

/-- Two calls that have both found no cross-post write two. -/
theorem not_threadsRight :
    ∃ s : Interleaved ThreadDb VoteProc ℕ,
      (voteProgram.system ℕ ThreadDb.Initial).Reachable s ∧
        s.shared.posts.rows.map (fun p => (p.id, p.topicId, p.authorId, p.source)) =
          [("p1", "t1", "alice", some VOTE_RATIONALE),
            ("p2", "t1", "alice", some VOTE_RATIONALE)] ∧
        ¬ThreadsRight s.shared := by
  have h₀ : (voteProgram.system ℕ ThreadDb.Initial).Reachable ⟨sampleThreadDb, fun _ => none⟩ :=
    .init ⟨sampleThreadDb_initial, fun _ => rfl⟩
  have h₁ := h₀.step (.start (i := 0) rfl
    (VoteStart.upsertVoteRationalePost (sampleCrossPost "a" "p1" 1000)))
  have h₂ := h₁.step (.start (i := 1) rfl
    (VoteStart.upsertVoteRationalePost (sampleCrossPost "a" "p2" 1000)))
  have h₃ := Program.reachable_run (fun _ _ _ _ _ h => h) h₂
    ([0, 1, 0, 1].map fun i => (i, ())) (by decide +kernel)
  refine ⟨_, h₃, by decide +kernel, fun hright => ?_⟩
  exact absurd hright.single (by decide +kernel)

end DrepTalk
