import DrepTalk.Forum.Threads
import DrepTalk.Library.Interleaving

/-!
# Threads under interleaved calls

Any number of `createTopic`, `createPost` and deletion calls, interleaved between their batches,
with any reply targets. Meanwhile other code may change every other column of the posts (texts,
dates, counters, the deletion flag), change the topics, and add top-level posts.

**A reply comes after what it answers** (`LinksRight`). The lookups of `createPost` have seen the
post that is answered, and rows are never removed, so the row of a reply goes in behind it, next to
it or under it. Links are therefore acyclic, and what `buildReplyTree` relies on holds of the
children of each top-level post, whatever has been deleted.
-/

namespace DrepTalk

structure PostLink where
  id : String
  topicId : String
  parentPostId : Option String
  replyToPostId : Option String
  deriving DecidableEq

def ForumPost.link (p : ForumPost) : PostLink :=
  ⟨p.id, p.topicId, p.parentPostId, p.replyToPostId⟩

def ForumTables.links (db : ForumTables) : List PostLink := db.posts.rows.map (·.link)

/-- A call, by its next batch, or its answer. -/
inductive ThreadCall
  | createTopic (args : CreateTopicArgs)
  | createPost (proposerGrantId : Option String) (call : CreateProc)
  | deletePost (postId : String) (now : ℤ)
  | topicCreated (topicId : Option String)
  | threw
  | deleted

/-- The next batch of a call; a guard of `createTopic` may fail. -/
def threadStep (guard : Bool) (db : ForumTables) : ThreadCall → Option (ForumTables × ThreadCall)
  | .createTopic args =>
    if !guard then some (db, .topicCreated none)
    else
      match createTopic db args with
      | some db' => some (db', .topicCreated (some args.topicId))
      | none => some (db, .threw)
  | .createPost proposerGrantId call =>
    (createPostStep db proposerGrantId call).map fun (db', call) =>
      (db', .createPost proposerGrantId call)
  | .deletePost postId now => some (deletePost db postId now, .deleted)
  | .topicCreated _ | .threw | .deleted => none

inductive ThreadCall.Starts : ThreadCall → Prop
  | createTopic (args : CreateTopicArgs) : Starts (.createTopic args)
  | createPost (proposerGrantId : Option String) (args : CreatePostArgs) :
    Starts (.createPost proposerGrantId (.lookup args))
  | deletePost (postId : String) (now : ℤ) : Starts (.deletePost postId now)

/-- What other code does: it keeps the links of the posts, or adds a top-level post. -/
inductive ForumEnv (db : ForumTables) : ForumTables → Prop
  | update {db' : ForumTables} (hlinks : db'.links = db.links) : ForumEnv db db'
  | topLevel {db' : ForumTables} (id topicId : String)
      (hlinks : db'.links = db.links ++ [⟨id, topicId, none, none⟩]) : ForumEnv db db'

def threadProgram : Program ForumTables ThreadCall where
  Start _ l := l.Starts
  Step db l db' l' := ∃ guard, threadStep guard db l = some (db', l')
  Env := ForumEnv

/-! ### Right links -/

/-- Where a reply may be stored: under the post it answers, or next to it. -/
structure RepliesTo (topicId : String) (parentId : String) (q : PostLink) : Prop where
  topic : q.topicId = topicId
  parent : parentId = q.parentPostId.getD q.id

def MayFollow (links : List PostLink) (l : PostLink) : Prop :=
  (l.parentPostId = none ∧ l.replyToPostId = none) ∨
    ∃ q ∈ links, ∃ parentId, l.parentPostId = some parentId ∧ l.replyToPostId = some q.id ∧
      RepliesTo l.topicId parentId q

/-- What holds of the links in every run. -/
structure LinksRight (links : List PostLink) : Prop where
  parent : ∀ l ∈ links, ∀ parentId, l.parentPostId = some parentId →
    ∃ q ∈ links, q.id = parentId ∧ q.parentPostId = none ∧ q.topicId = l.topicId
  target : ∀ before l behind, links = before ++ l :: behind → ∀ t, l.replyToPostId = some t →
    ∃ q ∈ before, q.id = t ∧ ∃ parentId, l.parentPostId = some parentId ∧
      RepliesTo l.topicId parentId q

/-- The table before there were reply targets: every reply is under a top-level post. -/
def ForumTables.Untargeted (db : ForumTables) : Prop :=
  (∀ l ∈ db.links, l.replyToPostId = none) ∧
    ∀ l ∈ db.links, ∀ parentId, l.parentPostId = some parentId →
      ∃ q ∈ db.links, q.id = parentId ∧ q.parentPostId = none ∧ q.topicId = l.topicId

variable {links : List PostLink} {l : PostLink}

theorem LinksRight.concat (h : LinksRight links) (hl : MayFollow links l) :
    LinksRight (links ++ [l]) := by
  refine ⟨fun l' hl' parentId hparent => ?_, fun before l' behind hsplit t ht => ?_⟩
  · suffices hold : ∃ q ∈ links, q.id = parentId ∧ q.parentPostId = none ∧
        q.topicId = l'.topicId by
      obtain ⟨q, hq, hrest⟩ := hold
      exact ⟨q, List.mem_append_left _ hq, hrest⟩
    rcases List.mem_append.mp hl' with hl' | hl'
    · exact h.parent l' hl' parentId hparent
    · obtain rfl := List.mem_singleton.mp hl'
      rcases hl with ⟨hnone, -⟩ | ⟨q, hq, _, hsome, -, htopic, hunder⟩
      · cases hnone.symm.trans hparent
      · -- the parent is the post that is answered, or that one's parent
        cases hsome.symm.trans hparent
        rcases hqparent : q.parentPostId with _ | qparent
        · rw [hqparent] at hunder
          exact ⟨q, hq, hunder.symm, hqparent, htopic⟩
        · rw [hqparent] at hunder
          obtain ⟨top, htop, hid, hnone, htopic'⟩ := h.parent q hq qparent hqparent
          exact ⟨top, htop, hid.trans hunder.symm, hnone, htopic'.trans htopic⟩
  · rcases List.eq_nil_or_concat behind with rfl | ⟨behind, last, rfl⟩
    · obtain ⟨rfl, hlast⟩ := List.append_inj' hsplit rfl
      obtain rfl : l = l' := (List.cons.inj hlast).1
      rcases hl with ⟨-, hnone⟩ | ⟨q, hq, parentId, hparent, hsome, hreplies⟩
      · cases hnone.symm.trans ht
      · exact ⟨q, hq, Option.some.inj (hsome.symm.trans ht), parentId, hparent, hreplies⟩
    · rw [List.concat_eq_append, ← List.cons_append, ← List.append_assoc] at hsplit
      obtain ⟨hinit, -⟩ := List.append_inj' hsplit rfl
      exact h.target before l' behind hinit t ht

variable {t id : String}

theorem RepliesTo.mem_target (h : LinksRight links) (hl : l ∈ links)
    (ht : l.replyToPostId = some t) :
    ∃ q ∈ links, q.id = t ∧ ∃ parentId, l.parentPostId = some parentId ∧
      RepliesTo l.topicId parentId q := by
  obtain ⟨before, behind, hsplit⟩ := List.append_of_mem hl
  obtain ⟨q, hq, hrest⟩ := h.target before l behind hsplit t ht
  exact ⟨q, hsplit ▸ List.mem_append_left _ hq, hrest⟩

/-! ### Calls -/

/-- What a call of `createPost` has seen. -/
def ThreadCall.Asserts (db : ForumTables) : ThreadCall → Prop
  | .createPost _ (.insert args parentId) =>
    MayFollow db.links ⟨args.postId, args.topicId, parentId, args.parentPostId.filter (· != "")⟩
  | _ => True

/-- One batch changes no link, or adds a post that may come next. -/
inductive LinkEffect (db db' : ForumTables) : Prop
  | rest (hlinks : db'.links = db.links)
  | add (l : PostLink) (hl : MayFollow db.links l) (hlinks : db'.links = db.links ++ [l])

theorem MayFollow.mono (h : MayFollow links l) (more : List PostLink) :
    MayFollow (links ++ more) l := by
  refine h.imp_right ?_
  rintro ⟨q, hq, hrest⟩
  exact ⟨q, List.mem_append_left _ hq, hrest⟩

variable {db db' : ForumTables}

theorem ThreadCall.Asserts.mono {l : ThreadCall} (h : l.Asserts db) (heffect : LinkEffect db db') :
    l.Asserts db' := by
  rcases l with _ | ⟨_, _ | ⟨args, parentId⟩ | _ | _⟩ | _ | _ | _ | _
  case createPost.insert =>
    rcases heffect with hlinks | ⟨l, -, hlinks⟩
    · exact (congrArg (MayFollow · _) hlinks).mpr h
    · exact (congrArg (MayFollow · _) hlinks).mpr (MayFollow.mono h [l])
  all_goals exact trivial

variable {p : ForumPost}

theorem ForumTables.links_insert (db : ForumTables) (hfree : p.id ∉ db.posts.rows.map (·.id)) :
    (db.posts.insertOrIgnore p).rows.map (·.link) = db.links ++ [p.link] := by
  rw [KeyedTable.insertOrIgnore, dif_neg hfree, List.map_append]
  rfl

theorem ForumTables.post_eq_some (h : db.post id = some p) : p.link ∈ db.links ∧ p.id = id :=
  ⟨List.mem_map_of_mem (List.mem_of_find?_eq_some h), by simpa using List.find?_some h⟩

/-- **The lookups** lead to an insert only of a post that may come next. -/
theorem createLookup_asserts {db : ForumTables} {args args' : CreatePostArgs}
    {topic : Option ThreadTopic} {parentId : Option String}
    (h : createLookup args topic (fun id => (db.post id).map (·.toThreadPost)) =
      .insert args' parentId) :
    MayFollow db.links
      ⟨args'.postId, args'.topicId, parentId, args'.parentPostId.filter (· != "")⟩ := by
  rcases topic with _ | topic
  · cases h
  rw [createLookup] at h
  split_ifs at h
  rcases htarget : args.parentPostId.filter (· != "") with _ | parentPostId
  · rw [htarget] at h
    cases h
    exact .inl ⟨rfl, htarget⟩
  · rw [htarget] at h
    rcases hpost : db.post parentPostId with _ | p
    · simp [hpost] at h
    · simp only [hpost, Option.map_some] at h
      split_ifs at h with hfail
      cases h
      obtain ⟨hmem, hid⟩ := ForumTables.post_eq_some hpost
      have htopic : p.topicId = args.topicId := by
        simpa using (not_or.mp (Bool.or_eq_true_iff.not.mp hfail)).2
      exact .inr ⟨p.link, hmem, _, rfl, htarget.trans (congrArg some hid.symm), htopic, rfl⟩

theorem createTopic_effect {args : CreateTopicArgs} (h : createTopic db args = some db') :
    LinkEffect db db' := by
  rw [createTopic] at h
  rcases hinsert : db.topics.insertOrIgnore args.topic with ⟨topics, inserted⟩
  rw [hinsert] at h
  dsimp only at h
  split_ifs at h with htaken
  cases h
  have hfree : args.postId ∉ db.posts.rows.map (·.id) := by
    rw [Bool.or_eq_true_iff, decide_eq_true_eq] at htaken
    exact (not_or.mp htaken).2
  exact .add _ (.inl ⟨rfl, rfl⟩) (db.links_insert (p := args.firstPost) hfree)

theorem threadStep_effect {guard : Bool} {l l' : ThreadCall} (hl : l.Asserts db)
    (h : threadStep guard db l = some (db', l')) :
    LinkEffect db db' ∧ l'.Asserts db' := by
  rcases l with args | ⟨grant, call⟩ | ⟨postId, now⟩ | _ | _ | _
  · rw [threadStep] at h
    split_ifs at h
    · cases h
      exact ⟨.rest rfl, trivial⟩
    · rcases hcreate : createTopic db args with _ | db₁
      · rw [hcreate] at h
        cases h
        exact ⟨.rest rfl, trivial⟩
      · rw [hcreate] at h
        cases h
        exact ⟨createTopic_effect hcreate, trivial⟩
  · obtain ⟨⟨db₁, call₁⟩, hstep, heq⟩ := Option.map_eq_some_iff.mp h
    cases heq
    rcases call with args | ⟨args, parentId⟩ | _ | _
    · cases hstep
      refine ⟨.rest rfl, ?_⟩
      rcases hlookup : createLookup args ((db.topic args.topicId).map (·.toThreadTopic))
        (fun id => (db.post id).map (·.toThreadPost)) with _ | ⟨args', parentId⟩ | _ | _
      case insert =>
        rw [hlookup]
        exact createLookup_asserts hlookup
      all_goals
        rw [hlookup]
        exact trivial
    · rw [createPostStep] at hstep
      rcases hinsert : insertReply db (args.reply parentId grant) with _ | db₂
      · rw [hinsert] at hstep
        cases hstep
        exact ⟨.rest rfl, trivial⟩
      · rw [hinsert] at hstep
        cases hstep
        rw [insertReply] at hinsert
        split_ifs at hinsert with htaken
        cases hinsert
        exact ⟨.add _ hl (db.links_insert htaken), trivial⟩
    · cases hstep
    · cases hstep
  · cases h
    refine ⟨.rest ?_, trivial⟩
    exact Table.map_updateWhere ForumPost.link fun _ _ => rfl
  all_goals cases h

theorem LinksRight.effect (h : LinksRight db.links) (heffect : LinkEffect db db') :
    LinksRight db'.links := by
  rcases heffect with hlinks | ⟨l, hl, hlinks⟩
  · exact hlinks ▸ h
  · exact hlinks ▸ h.concat hl

theorem ForumEnv.effect (h : ForumEnv db db') : LinkEffect db db' := by
  rcases h with hlinks | ⟨id, topicId, hlinks⟩
  · exact .rest hlinks
  · exact .add ⟨id, topicId, none, none⟩ (.inl ⟨rfl, rfl⟩) hlinks

def threadSound : threadProgram.Sound ForumTables.Untargeted where
  inv db := LinksRight db.links
  asserts db l := l.Asserts db
  apart _ _ := True
  symm _ _ _ := trivial
  init db h := by
    refine ⟨h.2, fun before l behind hsplit t ht => ?_⟩
    have hmem : l ∈ db.links := hsplit ▸ List.mem_append_right _ List.mem_cons_self
    cases (h.1 l hmem).symm.trans ht
  start db l _ h := by
    refine ⟨?_, fun _ _ => trivial⟩
    rcases h with _ | _ | _ <;> exact trivial
  step db l db' l' hdb hl h := by
    obtain ⟨guard, h⟩ := h
    obtain ⟨heffect, hasserts⟩ := threadStep_effect hl h
    exact ⟨hdb.effect heffect, hasserts⟩
  noninterference db l db' l' m _ hl hm _ h := by
    obtain ⟨guard, h⟩ := h
    exact ⟨hm.mono (threadStep_effect hl h).1, trivial⟩
  env db db' hdb h := ⟨hdb.effect h.effect, fun _ hm => hm.mono h.effect⟩

/-! ### What follows for the pages -/

def Answers (links : List PostLink) (id t : String) : Prop :=
  ∃ l ∈ links, l.id = id ∧ l.replyToPostId = some t

/-- The place of a post among the rows. -/
def linkRank (links : List PostLink) (id : String) : ℕ := (links.map (·.id)).idxOf id

theorem LinksRight.rank_lt (h : LinksRight links) (hid : (links.map (·.id)).Nodup)
    (hanswers : Answers links id t) : linkRank links t < linkRank links id := by
  obtain ⟨l, hl, rfl, ht⟩ := hanswers
  obtain ⟨before, behind, rfl⟩ := List.append_of_mem hl
  obtain ⟨q, hq, rfl, -⟩ := h.target before l behind rfl t ht
  rw [List.map_append, List.map_cons, List.nodup_append] at hid
  obtain ⟨-, -, hapart⟩ := hid
  have hmem : q.id ∈ before.map (·.id) := List.mem_map_of_mem hq
  have hnew : l.id ∉ before.map (·.id) := fun hmem => hapart _ hmem _ List.mem_cons_self rfl
  rw [linkRank, linkRank, List.map_append, List.map_cons, List.idxOf_append_of_mem hmem,
    List.idxOf_append_of_notMem hnew, List.idxOf_cons_self, Nat.add_zero]
  exact List.idxOf_lt_length_of_mem hmem

theorem LinksRight.acyclic (h : LinksRight links) (hid : (links.map (·.id)).Nodup) (id : String) :
    ¬Relation.TransGen (Answers links) id id := by
  have hdown : ∀ t, Relation.TransGen (Answers links) id t →
      linkRank links t < linkRank links id := by
    intro t ht
    induction ht with
    | single hanswers => exact h.rank_lt hid hanswers
    | tail _ hanswers ih => exact (h.rank_lt hid hanswers).trans ih
  exact fun hcycle => lt_irrefl _ (hdown id hcycle)

theorem ForumTables.links_nodup (db : ForumTables) : (db.links.map (·.id)).Nodup := by
  rw [ForumTables.links, List.map_map]
  exact db.posts.unique

theorem LinksRight.tree_perm (h : LinksRight db.links) (topicId : String) (limit offset : Option ℤ)
    (postId : String) :
    ∃ nodes, buildReplyTree (fun p : ForumPost => p.id) ForumPost.replyToPostId
        ((getThreadPage db topicId limit offset).children postId) = some nodes ∧
      (nodes.map (·.post)).Perm ((getThreadPage db topicId limit offset).children postId) := by
  have hrows : ∀ p ∈ (getThreadPage db topicId limit offset).children postId, p.link ∈ db.links :=
    fun p hp => by
      rw [children_eq, List.mem_filter, childRows, List.mem_insertionSort] at hp
      exact List.mem_map_of_mem (List.mem_filter.mp hp.1).1
  have hrank : ∀ p q : ForumPost, AnswersReply (fun p : ForumPost => p.id) ForumPost.replyToPostId
      ((getThreadPage db topicId limit offset).children postId) p q →
      linkRank db.links q.id < linkRank db.links p.id := fun p q h' =>
    h.rank_lt db.links_nodup
      ⟨p.link, hrows p h'.1, rfl, (Option.filter_eq_some_iff.mp h'.2.2).1⟩
  exact buildReplyTree_perm (children_nodup db topicId limit offset postId) hrank

structure ThreadPagesRight (db : ForumTables) : Prop where
  /-- A parent is a top-level post of the same topic. -/
  parent : ∀ p ∈ db.posts.rows, ∀ parentId, p.parentPostId = some parentId →
    ∃ q ∈ db.posts.rows, q.id = parentId ∧ q.parentPostId = none ∧ q.topicId = p.topicId
  /-- A reply answers its parent, or another reply to that, of the same topic. -/
  target : ∀ p ∈ db.posts.rows, ∀ t, p.replyToPostId = some t →
    ∃ q ∈ db.posts.rows, q.id = t ∧ q.topicId = p.topicId ∧ ∃ parentId,
      p.parentPostId = some parentId ∧ (q.id = parentId ∨ q.parentPostId = some parentId)
  acyclic : ∀ id, ¬Relation.TransGen (Answers db.links) id id
  /-- Every live top-level post is on exactly one page, and nothing else is on a page. -/
  pages : ∀ topicId limit,
    (∀ p ∈ db.posts.rows, p.topicId = topicId → p.deleted = false → p.parentPostId = none →
      ∃! k : ℕ, p ∈ (getThreadPage db topicId limit
        (some ((k * pageLimit limit : ℕ) : ℤ))).topLevel) ∧
    ∀ offset, ((getThreadPage db topicId limit offset).topLevel.map (·.id)).Nodup ∧
      ∀ p ∈ (getThreadPage db topicId limit offset).topLevel,
        p ∈ db.posts.rows ∧ p.topicId = topicId ∧ p.deleted = false ∧ p.parentPostId = none
  /-- The tree under a listed post has every live reply to it once. -/
  tree : ∀ topicId limit offset, ∀ top ∈ (getThreadPage db topicId limit offset).topLevel,
    ∃ nodes, buildReplyTree (fun p : ForumPost => p.id) ForumPost.replyToPostId
        ((getThreadPage db topicId limit offset).children top.id) = some nodes ∧
      (nodes.map (·.post.id)).Nodup ∧ ∀ p, p ∈ nodes.map (·.post) ↔
        p ∈ db.posts.rows ∧ p.deleted = false ∧ p.parentPostId = some top.id

theorem LinksRight.pagesRight (h : LinksRight db.links) :
    ThreadPagesRight db := by
  refine ⟨fun p hp parentId hparent => ?_, fun p hp t ht => ?_, h.acyclic db.links_nodup,
    fun topicId limit => ⟨fun p hp htopic hlive hnone => ?_, fun offset => ⟨?_, fun p hp => ?_⟩⟩,
    fun topicId limit offset top htop => ?_⟩
  · obtain ⟨l, hl, hid, hnone, htopic⟩ := h.parent p.link (List.mem_map_of_mem hp) parentId hparent
    obtain ⟨q, hq, rfl⟩ := List.mem_map.mp hl
    exact ⟨q, hq, hid, hnone, htopic⟩
  · obtain ⟨l, hl, hid, parentId, hparent, htopic, hunder⟩ :=
      RepliesTo.mem_target h (List.mem_map_of_mem hp) ht
    obtain ⟨q, hq, rfl⟩ := List.mem_map.mp hl
    refine ⟨q, hq, hid, htopic, parentId, hparent, ?_⟩
    rcases hqparent : q.parentPostId with _ | qparent
    · exact .inl (hunder.trans (congrArg (·.getD q.id) hqparent)).symm
    · exact .inr (congrArg some (hunder.trans (congrArg (·.getD q.id) hqparent)).symm)
  · simp only [getThreadPage_topLevel]
    exact existsUnique_slice (topLevelPosts_nodup db topicId).of_map (pageLimit_pos limit)
      (mem_topLevelPosts.mpr ⟨hp, htopic, hlive, hnone⟩)
  · exact (topLevelPosts_nodup db topicId).sublist
      (((List.take_sublist _ _).trans (List.drop_sublist _ _)).map _)
  · exact (mem_topLevelPosts.mp (List.mem_of_mem_drop (List.mem_of_mem_take hp)))
  · obtain ⟨nodes, hbuild, hperm⟩ := h.tree_perm topicId limit offset top.id
    refine ⟨nodes, hbuild, ?_, fun p => hperm.mem_iff.trans (mem_children htop)⟩
    have hids := (hperm.map (·.id)).nodup_iff.mpr (children_nodup db topicId limit offset top.id)
    rwa [List.map_map] at hids

/-- **Threads are right in every run.** -/
theorem threads_linked {ι : Type*} [DecidableEq ι] {s : Interleaved ForumTables ThreadCall ι}
    (h : (threadProgram.system ι ForumTables.Untargeted).Reachable s) : ThreadPagesRight s.shared :=
  (threadSound.holds h).inv.pagesRight

/-- A topic with two posts of one time, a reply that has been deleted, and the reply to that. -/
theorem threads_linked_deleted :
    ∃ s : Interleaved ForumTables ThreadCall ℕ,
      (threadProgram.system ℕ ForumTables.Untargeted).Reachable s ∧
        s.shared.links = [⟨"p1", "t1", none, none⟩, ⟨"p2", "t1", none, none⟩,
          ⟨"p3", "t1", some "p2", some "p2"⟩, ⟨"p4", "t1", some "p2", some "p3"⟩] ∧
        [0, 1].map (fun k => (getThreadPage s.shared "t1" (some 1) (some k)).topLevel.map (·.id)) =
          [["p1"], ["p2"]] ∧
        ((getThreadPage s.shared "t1" none none).children "p2").map (·.id) = ["p4"] ∧
        ThreadPagesRight s.shared := by
  have h₀ : (threadProgram.system ℕ ForumTables.Untargeted).Reachable
      ⟨⟨.empty, .empty, []⟩, fun _ => none⟩ := .init ⟨⟨nofun, nofun⟩, fun _ => rfl⟩
  have h₁ := h₀.step (.start (i := 0) rfl (.createTopic
    ⟨"t1", "p1", "a-topic-x", "general", "ada", "A topic", "a", "a", .user, 10, none, none⟩))
  have h₂ := h₁.step (.start (i := 1) rfl (.createPost none
    ⟨"t1", "bob", "b", "b", 10, none, "p2"⟩))
  have h₃ := h₂.step (.start (i := 2) rfl (.createPost none
    ⟨"t1", "ada", "c", "c", 20, some "p2", "p3"⟩))
  have h₄ := h₃.step (.start (i := 3) rfl (.createPost none
    ⟨"t1", "bob", "d", "d", 30, some "p3", "p4"⟩))
  have h₅ := h₄.step (.start (i := 4) rfl (.deletePost "p3" 40))
  -- the reply is deleted after the last call has looked it up
  have h₆ := Program.reachable_run (P := threadProgram) (fun k _ _ _ _ h => ⟨k, h⟩) h₅
    ([0, 1, 1, 2, 2, 3, 4, 3].map fun i => (i, true)) (by decide +kernel)
  exact ⟨_, h₆, by decide +kernel, by decide +kernel, by decide +kernel, threads_linked h₆⟩

end DrepTalk
