import DrepTalk.Library.Grouped
import DrepTalk.Library.Join
import DrepTalk.Library.KeysetPage
import Mathlib.Data.List.Dedup
import Mathlib.Data.String.Basic

/-!
# The scopes of the search page

`src/lib/db/search.ts`. **A scope** is paged by one query, counted by a second one on the same page,
and by a third one for the facets (`countScopes`); the three join and filter on their own. The full
text tables are in step with the rows that they index, so a `MATCH` is a condition on such a row,
with a rank and a snippet where it holds (`FullText`).

**What a page lists** and what is counted agree in the forum and for DReps. They do not where a row
is counted that is not listed: a governance action without a live thread, which is dropped after the
query, and a rationale without its vote, which the query joins (`scopes_agree`).
-/

namespace DrepTalk

namespace Search

/-! ### Rows -/

structure TopicRow where
  id : String
  slug : String
  title : String
  source : String
  categorySlug : String
  postCount : ℕ
  deleted : Bool
  deriving DecidableEq

structure PostRow where
  id : String
  topicId : String
  deleted : Bool
  hidden : Bool
  deriving DecidableEq

structure ActionRow where
  id : String
  title : Option String
  type : String
  status : String
  topicId : Option String

structure DrepRow where
  drepId : String
  name : Option String
  slug : Option String
  status : String
  votingPower : Option String
  imageContentHash : Option String

structure VoteRow where
  gaId : String
  voterId : String
  voterRole : String
  voterHex : Option String
  vote : String
  deriving DecidableEq

/-- A row of `cc_member_name`. -/
structure MemberNameRow where
  hotKeyHex : String
  name : String

/-- A row of `action_rationale`. -/
structure StatementRow where
  gaId : String
  voterId : String
  status : String

/-- The tables that are searched and joined, under their primary keys. -/
structure SearchDb where
  topics : KeyedTable TopicRow.id
  posts : KeyedTable PostRow.id
  governanceActions : KeyedTable ActionRow.id
  dreps : KeyedTable DrepRow.drepId
  drepVotes : KeyedTable fun vote : VoteRow => (vote.gaId, vote.voterId)
  ccMemberNames : KeyedTable MemberNameRow.hotKeyHex
  actionRationales : KeyedTable fun row : StatementRow => (row.gaId, row.voterId)

/-- `bm25()` and `snippet()` of a row that matches. -/
structure FtsMatch (κ : Type) where
  rank : κ
  snip : Option String

/-- A `MATCH`, on each of the tables. -/
structure FullText (κ : Type) where
  topics : TopicRow → Option (FtsMatch κ)
  posts : PostRow → Option (FtsMatch κ)
  governanceActions : ActionRow → Option (FtsMatch κ)
  dreps : DrepRow → Option (FtsMatch κ)
  actionRationales : StatementRow → Option (FtsMatch κ)

section

variable {κ α : Type}

/-- The rows of a full text table that match, joined with the rows that they index. -/
def matched (found : α → Option (FtsMatch κ)) (rows : List α) : List (α × FtsMatch κ) :=
  rows.filterMap fun row => (found row).map (Prod.mk row)

end

/-! ### Hits -/

structure GaHit where
  href : String
  title : String
  type : String
  status : String
  snippet : Option String
  discussionMatches : ℕ

structure TopicHit where
  href : String
  title : String
  categorySlug : String
  postCount : ℕ
  snippet : Option String

structure DrepHit where
  href : String
  drepId : String
  name : Option String
  status : String
  votingPower : Option String
  snippet : Option String
  imageHash : Option String

structure RationaleHit where
  href : String
  voterId : String
  name : Option String
  imageHash : Option String
  vote : String
  actionTitle : String
  snippet : Option String

structure ScopedResult (α : Type) where
  hits : List α
  total : ℕ

structure ScopeCounts where
  forum : ℕ
  governance : ℕ
  dreps : ℕ
  rationales : ℕ

/-! ### Pages -/

def PAGE_SIZE : ℕ := 20

def pageToOffset (page pageSize : ℤ) : ℤ := (page - 1) * pageSize

/-- `LIMIT` and `OFFSET` of a page. -/
def pageRows {ρ : Type} (rows : List ρ) (page : ℤ) : List ρ :=
  (rows.drop (pageToOffset (max 1 page) PAGE_SIZE).toNat).take PAGE_SIZE

section

variable {κ : Type} [LinearOrder κ] (fts : FullText κ) (db : SearchDb)

/-! ### Governance -/

structure GaRow where
  gaId : String
  title : Option String
  type : String
  status : String
  slug : Option String
  snip : Option String

def gaRow (found : ActionRow × FtsMatch κ) (topic : Option TopicRow) : GaRow where
  gaId := found.1.id
  title := found.1.title
  type := found.1.type
  status := found.1.status
  slug := topic.map (·.slug)
  snip := found.2.snip

/-- `t.id = ga.topic_id AND t.deleted = 0`. -/
def isThreadOf (action : ActionRow) (topic : TopicRow) : Bool :=
  some topic.id == action.topicId && !topic.deleted

def governanceRows : List GaRow :=
  (orderedBy (fun row => row.1.2.rank) (leftJoin (fun found topic => isThreadOf found.1 topic)
    (matched fts.governanceActions db.governanceActions.rows) db.topics.rows)).map
      fun row => gaRow row.1 row.2

def governanceCount : ℕ := (matched fts.governanceActions db.governanceActions.rows).length

def toGaHit (row : GaRow) : GaHit where
  href := "/t/" ++ row.slug.getD "" ++ "/"
  title := row.title.getD row.gaId
  type := row.type
  status := row.status
  snippet := row.snip
  discussionMatches := 0

/-- `r.slug`, as a condition. -/
def GaRow.isLinked (row : GaRow) : Bool := row.slug.getD "" != ""

def searchGovernancePage (page : ℤ) : ScopedResult GaHit where
  hits := ((pageRows (governanceRows fts db) page).filter GaRow.isLinked).map toGaHit
  total := governanceCount fts db

/-! ### DReps -/

def drepPath (drepId : String) (slug : Option String) : String :=
  "/dreps/" ++ slug.getD drepId ++ "/"

def drepRows : List (DrepRow × FtsMatch κ) :=
  orderedBy (fun row => row.2.rank) (matched fts.dreps db.dreps.rows)

def toDrepHit (row : DrepRow × FtsMatch κ) : DrepHit where
  href := drepPath row.1.drepId row.1.slug
  drepId := row.1.drepId
  name := row.1.name
  status := row.1.status
  votingPower := row.1.votingPower
  snippet := row.2.snip
  imageHash := row.1.imageContentHash

def drepCount : ℕ := (matched fts.dreps db.dreps.rows).length

def searchDrepsPage (page : ℤ) : ScopedResult DrepHit where
  hits := (pageRows (drepRows fts db) page).map toDrepHit
  total := drepCount fts db

/-! ### The forum -/

/-- A row of `FORUM_MATCHED_ROWS`. -/
structure MatchedRow (κ : Type) where
  topicId : String
  rank : κ
  snip : Option String

def isForumSource (source : String) : Bool := source == "user" || source == "survey"

def isForumTopic (topic : TopicRow) : Bool := !topic.deleted && isForumSource topic.source

def titleRows : List (TopicRow × FtsMatch κ) :=
  (matched fts.topics db.topics.rows).filter fun row => isForumTopic row.1

def postRows : List ((PostRow × FtsMatch κ) × TopicRow) :=
  (innerJoin (fun found topic => topic.id == found.1.topicId)
    (matched fts.posts db.posts.rows) db.topics.rows).filter fun row =>
      !row.1.1.deleted && !row.1.1.hidden && isForumTopic row.2

def FORUM_MATCHED_ROWS : List (MatchedRow κ) :=
  ((titleRows fts db).map fun row => ⟨row.1.id, row.2.rank, none⟩) ++
    (postRows fts db).map fun row => ⟨row.1.1.topicId, row.1.2.rank, row.1.2.snip⟩

structure ForumRow (κ : Type) where
  slug : String
  title : String
  categorySlug : String
  postCount : ℕ
  bestRank : κ
  snip : Option String

/-- The row of a group, which has rows of one topic. -/
def forumRow (group : List (MatchedRow κ × TopicRow)) : Option (ForumRow κ) :=
  match group with
  | [] => none
  | (first, topic) :: rest => some {
      slug := topic.slug
      title := topic.title
      categorySlug := topic.categorySlug
      postCount := topic.postCount
      bestRank := rest.foldl (fun best row => min best row.1.rank) first.rank
      snip := (group.filterMap fun row => row.1.snip).max? }

def forumRows : List (ForumRow κ) :=
  orderedBy ForumRow.bestRank
    ((grouped (fun row => row.1.topicId) (innerJoin (fun row topic => topic.id == row.topicId)
      (FORUM_MATCHED_ROWS fts db) db.topics.rows)).filterMap fun entry => forumRow entry.2)

def toTopicHit (row : ForumRow κ) : TopicHit where
  href := "/t/" ++ row.slug ++ "/"
  title := row.title
  categorySlug := row.categorySlug
  postCount := row.postCount
  snippet := row.snip

def searchForumPage (page : ℤ) : ScopedResult TopicHit where
  hits := (pageRows (forumRows fts db) page).map toTopicHit
  total := (grouped MatchedRow.topicId (FORUM_MATCHED_ROWS fts db)).length

/-! ### Rationales -/

structure RationaleRow where
  voterId : String
  voterRole : String
  vote : String
  name : Option String
  imageContentHash : Option String
  actionTitle : Option String
  topicSlug : String
  snip : Option String

/-- `v.ga_id = r.ga_id AND v.voter_id = r.voter_id`. -/
def isVoteOf (statement : StatementRow) (vote : VoteRow) : Bool :=
  vote.gaId == statement.gaId && vote.voterId == statement.voterId

def rationaleRow (found : StatementRow × FtsMatch κ) (vote : VoteRow) (action : ActionRow)
    (topic : TopicRow) (drep : Option DrepRow) (name : Option MemberNameRow) : RationaleRow where
  voterId := found.1.voterId
  voterRole := vote.voterRole
  vote := vote.vote
  name := (drep.bind fun d => d.name).or (name.map fun n => n.name)
  imageContentHash := drep.bind fun d => d.imageContentHash
  actionTitle := action.title
  topicSlug := topic.slug
  snip := found.2.snip

def RATIONALE_SELECT : List RationaleRow :=
  let votes := innerJoin (fun found vote => isVoteOf found.1 vote)
    (matched fts.actionRationales db.actionRationales.rows) db.drepVotes.rows
  let actions := innerJoin (fun row action => action.id == row.1.1.gaId) votes
    db.governanceActions.rows
  let threads := innerJoin (fun row topic => isThreadOf row.2 topic) actions db.topics.rows
  let dreps := leftJoin (fun row drep => drep.drepId == row.1.1.1.1.voterId) threads db.dreps.rows
  let names := leftJoin (fun row name => some name.hotKeyHex == row.1.1.1.2.voterHex.map
    String.toLower) dreps db.ccMemberNames.rows
  (orderedBy (fun row => row.1.1.1.1.1.2.rank)
    (names.filter fun row => row.1.1.1.1.1.1.status == "ok")).map
      fun row => rationaleRow row.1.1.1.1.1 row.1.1.1.1.2 row.1.1.1.2 row.1.1.2 row.1.2 row.2

def RATIONALE_COUNT : ℕ :=
  let actions := innerJoin (fun row action => action.id == row.1.gaId)
    (matched fts.actionRationales db.actionRationales.rows) db.governanceActions.rows
  let threads := innerJoin (fun row topic => isThreadOf row.2 topic) actions db.topics.rows
  threads.countP fun row => row.1.1.1.status == "ok"

def positionsVoterAnchor (voterId : String) (role : Option String) : String :=
  "?tab=positions" ++ (role.map ("&role=" ++ ·)).getD "" ++
    (if role = some "cc" then "" else "&voter=" ++ voterId) ++ "#voter-" ++ voterId

def toRationaleHit (row : RationaleRow) : RationaleHit :=
  let cc := row.voterRole == "ConstitutionalCommittee"
  let role := if cc then some "cc" else if row.voterRole = "SPO" then some "spo" else none
  { href := "/t/" ++ row.topicSlug ++ "/" ++ positionsVoterAnchor row.voterId role
    voterId := row.voterId
    name := row.name
    imageHash := if cc then none else row.imageContentHash
    vote := row.vote
    actionTitle := row.actionTitle.getD row.topicSlug
    snippet := row.snip }

def searchRationalesPage (page : ℤ) : ScopedResult RationaleHit where
  hits := (pageRows (RATIONALE_SELECT fts db) page).map toRationaleHit
  total := RATIONALE_COUNT fts db

/-! ### Facets -/

def countScopes : ScopeCounts where
  forum := (((titleRows fts db).map fun row => row.1.id) ++
    (postRows fts db).map fun row => row.1.1.topicId).dedup.length
  governance := governanceCount fts db
  dreps := drepCount fts db
  rationales := RATIONALE_COUNT fts db

/-! ### What there is to list -/

def threadOf (action : ActionRow) : Option TopicRow := db.topics.rows.find? (isThreadOf action)

/-- Actions that match and have a page to link to. -/
def governanceHits : List GaHit :=
  (((matched fts.governanceActions db.governanceActions.rows).map
    fun found => gaRow found (threadOf db found.1)).filter GaRow.isLinked).map toGaHit

def drepHits : List DrepHit := (matched fts.dreps db.dreps.rows).map toDrepHit

/-- A topic of the forum whose title matches, or one of its visible posts. -/
def isFound (topic : TopicRow) : Bool :=
  isForumTopic topic && ((fts.topics topic).isSome || db.posts.rows.any fun post =>
    !post.deleted && !post.hidden && post.topicId == topic.id && (fts.posts post).isSome)

def topicGroup (topic : TopicRow) : List (MatchedRow κ × TopicRow) :=
  ((FORUM_MATCHED_ROWS fts db).filter fun row => row.topicId == topic.id).map (·, topic)

def forumHits : List TopicHit :=
  ((db.topics.rows.filter (isFound fts db)).filterMap fun topic =>
    forumRow (topicGroup fts db topic)).map toTopicHit

def actionOf (statement : StatementRow) : Option ActionRow :=
  db.governanceActions.rows.find? fun action => action.id == statement.gaId

def voteOf (statement : StatementRow) : Option VoteRow :=
  db.drepVotes.rows.find? (isVoteOf statement)

/-- Whether a statement can be read, on the page of its action. -/
def isReadable (statement : StatementRow) : Bool :=
  statement.status == "ok" && ((actionOf db statement).bind (threadOf db)).isSome

/-- A statement that can be read, with its vote, action and thread. -/
def statedRow (found : StatementRow × FtsMatch κ) : Option RationaleRow :=
  (voteOf db found.1).bind fun vote => (actionOf db found.1).bind fun action =>
    (threadOf db action).bind fun topic =>
      if found.1.status = "ok" then
        some (rationaleRow found vote action topic
          (db.dreps.rows.find? fun drep => drep.drepId == found.1.voterId)
          (db.ccMemberNames.rows.find? fun name =>
            some name.hotKeyHex == vote.voterHex.map String.toLower))
      else none

def rationaleHits : List RationaleHit :=
  ((matched fts.actionRationales db.actionRationales.rows).filterMap (statedRow db)).map
    toRationaleHit

end

/-! ### Pages and totals -/

def pageCount (total : ℕ) : ℕ := (total + (PAGE_SIZE - 1)) / PAGE_SIZE

/-- The first pages, one behind the other. -/
def concatPages {α : Type} (page : ℤ → ScopedResult α) (n : ℕ) : List α :=
  (List.range n).flatMap fun i : ℕ => (page (i + 1)).hits

/-- A scope that lists what it counts: every page reports the count of the facets, the pages that
it asks for have as many hits, each hit there is once, and all but the last are full. -/
structure ScopeAgrees {α : Type} (page : ℤ → ScopedResult α) (count : ℕ) (hits : List α) :
    Prop where
  total : ∀ n, (page n).total = count
  listed : (concatPages page (pageCount count)).length = count
  once : (concatPages page (pageCount count)).Perm hits
  full : ∀ i : ℕ, i + 1 < pageCount count → (page (i + 1)).hits.length = PAGE_SIZE

theorem le_pageCount (total : ℕ) : total ≤ pageCount total * PAGE_SIZE := by
  rw [pageCount, PAGE_SIZE]
  omega

theorem pageRows_succ {ρ : Type} (rows : List ρ) (i : ℕ) :
    pageRows rows (i + 1) = (rows.drop (i * PAGE_SIZE)).take PAGE_SIZE := by
  have hoffset : (pageToOffset (max 1 (i + 1 : ℤ)) PAGE_SIZE).toNat = i * PAGE_SIZE := by
    rw [pageToOffset, max_eq_right (by omega), Int.add_sub_cancel, PAGE_SIZE]
    omega
  rw [pageRows, hoffset]

section

variable {α ρ : Type} {rows : List ρ} {keep : ρ → Bool} {hit : ρ → α} {page : ℤ → ScopedResult α}
  {count : ℕ} {hits : List α}

theorem concatPages_eq (hpage : ∀ n, (page n).hits = ((pageRows rows n).filter keep).map hit)
    (n : ℕ) : concatPages page n = ((rows.take (n * PAGE_SIZE)).filter keep).map hit := by
  rw [concatPages, ← flatten_slices, List.filter_flatten, List.map_flatten, List.flatMap,
    List.map_map, List.map_map]
  refine congrArg List.flatten (List.map_congr_left fun i _ => ?_)
  rw [hpage, pageRows_succ]
  rfl

/-- **A scope agrees** if and only if there is a hit for all that is counted. -/
theorem scopeAgrees_iff (htotal : ∀ n, (page n).total = count)
    (hpage : ∀ n, (page n).hits = ((pageRows rows n).filter keep).map hit)
    (hrows : rows.length ≤ count) (hhits : ((rows.filter keep).map hit).Perm hits) :
    ScopeAgrees page count hits ↔ hits.length = count := by
  have hall : concatPages page (pageCount count) = (rows.filter keep).map hit := by
    rw [concatPages_eq hpage, List.take_of_length_le (hrows.trans (le_pageCount count))]
  constructor
  · intro hagrees
    rw [← hagrees.once.length_eq, hagrees.listed]
  · intro hcount
    have hkept : (rows.filter keep).length = count := by
      rw [← List.length_map hit, hhits.length_eq, hcount]
    refine ⟨htotal, ?_, hall ▸ hhits, fun i hi => ?_⟩
    · rw [hall, List.length_map, hkept]
    · have hwhole : rows.filter keep = rows :=
        List.filter_sublist.eq_of_length_le (hkept ▸ hrows)
      have hkeep : ∀ row ∈ rows, keep row = true := List.filter_eq_self.mp hwhole
      rw [hpage, pageRows_succ, List.length_map, List.filter_eq_self.mpr fun row hrow =>
        hkeep row (List.mem_of_mem_drop (List.mem_of_mem_take hrow)), List.length_take,
        List.length_drop]
      rw [hwhole] at hkept
      rw [pageCount, PAGE_SIZE] at hi
      rw [PAGE_SIZE]
      omega

theorem scopeAgrees_iff_of_map (htotal : ∀ n, (page n).total = count)
    (hpage : ∀ n, (page n).hits = (pageRows rows n).map hit) (hrows : rows.length ≤ count)
    (hhits : (rows.map hit).Perm hits) : ScopeAgrees page count hits ↔ hits.length = count :=
  @scopeAgrees_iff _ _ rows (fun _ => true) hit page count hits htotal
    (fun n => by rw [List.filter_true, hpage]) hrows (by rwa [List.filter_true])

end

/-! ### Governance and DReps -/

section

variable {κ : Type} (fts : FullText κ) (db : SearchDb)

theorem isLookup_isThreadOf {α : Type} (action : α → ActionRow) :
    IsLookup (fun row topic => isThreadOf (action row) topic) db.topics.rows := by
  refine isLookup_key db.topics (fun row => (action row).topicId) fun row topic h => ?_
  rw [isThreadOf, Bool.and_eq_true, beq_iff_eq] at h
  exact h.1

theorem governanceRows_perm [LinearOrder κ] : (governanceRows fts db).Perm
    ((matched fts.governanceActions db.governanceActions.rows).map
      fun found => gaRow found (threadOf db found.1)) := by
  rw [governanceRows]
  refine ((orderedBy_perm _ _).map _).trans (.of_eq ?_)
  rw [leftJoin_eq (isLookup_isThreadOf db Prod.fst), List.map_map]
  rfl

theorem isLinked_gaRow {found : ActionRow × FtsMatch κ} {topic : Option TopicRow} :
    (gaRow found topic).isLinked = true ↔ ∃ t ∈ topic, t.slug ≠ "" := by
  cases topic <;> simp [gaRow, GaRow.isLinked]

/-- **The governance scope** agrees exactly if all matching actions have a page. -/
theorem governance_agrees_iff [LinearOrder κ] :
    ScopeAgrees (searchGovernancePage fts db) (countScopes fts db).governance
        (governanceHits fts db) ↔
      ∀ action ∈ db.governanceActions.rows, (fts.governanceActions action).isSome = true →
        ∃ topic ∈ threadOf db action, topic.slug ≠ "" := by
  have hperm := governanceRows_perm fts db
  have hiff : ScopeAgrees (searchGovernancePage fts db) (countScopes fts db).governance
      (governanceHits fts db) ↔ (governanceHits fts db).length = governanceCount fts db :=
    scopeAgrees_iff (fun _ => rfl) (fun _ => rfl) (hperm.length_eq.trans (List.length_map _)).le
      ((hperm.filter _).map _)
  rw [hiff, governanceHits, List.length_map, List.filter_map, List.length_map, governanceCount,
    List.length_filter_eq_length_iff]
  simp only [matched, List.mem_filterMap, Option.map_eq_some_iff, Function.comp_apply,
    isLinked_gaRow]
  constructor
  · intro h action haction hfound
    obtain ⟨found, hfound⟩ := Option.isSome_iff_exists.mp hfound
    exact h (action, found) ⟨action, haction, found, hfound, rfl⟩
  · rintro h _ ⟨action, haction, found, hfound, rfl⟩
    exact h action haction (Option.isSome_iff_exists.mpr ⟨found, hfound⟩)

theorem dreps_agrees [LinearOrder κ] :
    ScopeAgrees (searchDrepsPage fts db) (countScopes fts db).dreps (drepHits fts db) := by
  have hperm : (drepRows fts db).Perm (matched fts.dreps db.dreps.rows) := orderedBy_perm _ _
  have hiff : ScopeAgrees (searchDrepsPage fts db) (countScopes fts db).dreps (drepHits fts db) ↔
      (drepHits fts db).length = drepCount fts db :=
    scopeAgrees_iff_of_map (fun _ => rfl) (fun _ => rfl) hperm.length_eq.le (hperm.map _)
  exact hiff.mpr (List.length_map _)

/-! ### The forum -/

theorem mem_matched {α : Type} {found : α → Option (FtsMatch κ)} {rows : List α} {row : α}
    {m : FtsMatch κ} : (row, m) ∈ matched found rows ↔ row ∈ rows ∧ found row = some m := by
  simp only [matched, List.mem_filterMap, Option.map_eq_some_iff, Prod.mk.injEq]
  constructor
  · rintro ⟨_, hrow, _, hfound, rfl, rfl⟩
    exact ⟨hrow, hfound⟩
  · rintro ⟨hrow, hfound⟩
    exact ⟨row, hrow, m, hfound, rfl, rfl⟩

theorem mem_topicIds {k : String} :
    k ∈ (FORUM_MATCHED_ROWS fts db).map MatchedRow.topicId ↔
      ∃ topic ∈ db.topics.rows, isFound fts db topic = true ∧ topic.id = k := by
  rw [FORUM_MATCHED_ROWS, List.map_append, List.map_map, List.map_map, List.mem_append]
  constructor
  · rintro (h | h) <;> obtain ⟨row, hrow, rfl⟩ := List.mem_map.mp h
    · obtain ⟨hmatched, hforum⟩ := List.mem_filter.mp hrow
      obtain ⟨htopic, hfound⟩ := mem_matched.mp hmatched
      exact ⟨row.1, htopic, by simp [isFound, hforum, hfound], rfl⟩
    · obtain ⟨hjoined, hvisible⟩ := List.mem_filter.mp hrow
      obtain ⟨hmatched, htopic, hid⟩ := mem_innerJoin.mp hjoined
      obtain ⟨hpost, hfound⟩ := mem_matched.mp hmatched
      rw [Bool.and_eq_true, Bool.and_eq_true] at hvisible
      rw [beq_iff_eq] at hid
      refine ⟨row.2, htopic, ?_, hid⟩
      rw [isFound, hvisible.2, Bool.true_and, Bool.or_eq_true]
      refine .inr (List.any_eq_true.mpr ⟨row.1.1, hpost, ?_⟩)
      rw [hvisible.1.1, hvisible.1.2, hfound, hid]
      simp
  · rintro ⟨topic, htopic, hfound, rfl⟩
    rw [isFound, Bool.and_eq_true, Bool.or_eq_true] at hfound
    obtain ⟨hforum, htitle | hpost⟩ := hfound
    · obtain ⟨found, hfound⟩ := Option.isSome_iff_exists.mp htitle
      exact .inl (List.mem_map.mpr ⟨(topic, found),
        List.mem_filter.mpr ⟨mem_matched.mpr ⟨htopic, hfound⟩, hforum⟩, rfl⟩)
    · obtain ⟨post, hpost, hvisible⟩ := List.any_eq_true.mp hpost
      rw [Bool.and_eq_true, Bool.and_eq_true, beq_iff_eq] at hvisible
      obtain ⟨⟨hvisible, hid⟩, hfound⟩ := hvisible
      obtain ⟨found, hfound⟩ := Option.isSome_iff_exists.mp hfound
      refine .inr (List.mem_map.mpr ⟨((post, found), topic), List.mem_filter.mpr ⟨?_, ?_⟩, hid⟩)
      · exact mem_innerJoin.mpr ⟨mem_matched.mpr ⟨hpost, hfound⟩, htopic, by simp [hid]⟩
      · rw [hvisible, hforum, Bool.and_self]

theorem foundIds_nodup : ((db.topics.rows.filter (isFound fts db)).map TopicRow.id).Nodup :=
  db.topics.unique.sublist (List.filter_sublist.map _)

theorem ids_perm {ids : List String} (hids : ids.Nodup)
    (hmem : ∀ k, k ∈ ids ↔ k ∈ (FORUM_MATCHED_ROWS fts db).map MatchedRow.topicId) :
    ids.Perm ((db.topics.rows.filter (isFound fts db)).map TopicRow.id) := by
  refine (List.perm_ext_iff_of_nodup hids (foundIds_nodup fts db)).mpr fun k => ?_
  rw [hmem, mem_topicIds, List.mem_map]
  simp only [List.mem_filter, and_assoc]

theorem length_grouped_topicId : (grouped MatchedRow.topicId (FORUM_MATCHED_ROWS fts db)).length =
    (db.topics.rows.filter (isFound fts db)).length := by
  have hperm := ids_perm fts db (grouped_keys MatchedRow.topicId (FORUM_MATCHED_ROWS fts db)).1
    fun k => mem_keys_grouped
  simpa using hperm.length_eq

theorem countScopes_forum : (countScopes fts db).forum =
    (db.topics.rows.filter (isFound fts db)).length := by
  have hperm := ids_perm fts db (List.nodup_dedup ((FORUM_MATCHED_ROWS fts db).map
    MatchedRow.topicId)) fun k => List.mem_dedup
  rw [FORUM_MATCHED_ROWS, List.map_append, List.map_map, List.map_map] at hperm
  exact hperm.length_eq.trans (List.length_map _)

theorem isLookup_id {α : Type} (wanted : α → String) :
    IsLookup (fun row topic => topic.id == wanted row) db.topics.rows :=
  isLookup_key db.topics (fun row => some (wanted row)) fun _ _ h => congrArg some (eq_of_beq h)

theorem filter_joined {topic : TopicRow} (htopic : topic ∈ db.topics.rows) :
    (innerJoin (fun row t => t.id == row.topicId) (FORUM_MATCHED_ROWS fts db)
      db.topics.rows).filter (fun row => row.1.topicId == topic.id) = topicGroup fts db topic := by
  rw [innerJoin_eq (isLookup_id db MatchedRow.topicId), List.filter_filterMap, topicGroup,
    ← List.filterMap_eq_map, List.filterMap_filter]
  refine List.filterMap_congr fun row _ => ?_
  by_cases hid : row.topicId = topic.id
  · have hfind : db.topics.rows.find? (fun t => t.id == topic.id) = some topic :=
      (db.topics.find?_eq_some fun t => beq_iff_eq).mpr ⟨htopic, rfl⟩
    simp [hid, hfind]
  · simp [hid]

theorem topicGroup_ne_nil {topic : TopicRow} (htopic : topic ∈ db.topics.rows) :
    topicGroup fts db topic ≠ [] ↔ isFound fts db topic = true := by
  have hmem := @mem_topicIds κ fts db topic.id
  rw [topicGroup, Ne, List.map_eq_nil_iff, List.filter_eq_nil_iff]
  constructor
  · intro h
    push Not at h
    obtain ⟨row, hrow, hid⟩ := h
    obtain ⟨t, ht, hfound, heq⟩ := hmem.mp (List.mem_map.mpr ⟨row, hrow, eq_of_beq hid⟩)
    exact db.topics.eq_of_key ht htopic heq ▸ hfound
  · intro hfound hnone
    obtain ⟨row, hrow, hid⟩ := List.mem_map.mp (hmem.mpr ⟨topic, htopic, hfound, rfl⟩)
    exact hnone row hrow (beq_iff_eq.mpr hid)

theorem groups_perm : (grouped (fun row => row.1.topicId) (innerJoin (fun row t =>
    t.id == row.topicId) (FORUM_MATCHED_ROWS fts db) db.topics.rows)).Perm
      ((db.topics.rows.filter (isFound fts db)).map fun topic =>
        (topic.id, topicGroup fts db topic)) := by
  have hkeys : (((db.topics.rows.filter (isFound fts db)).map fun topic =>
      (topic.id, topicGroup fts db topic)).map (·.1)).Nodup := by
    rw [List.map_map]
    exact foundIds_nodup fts db
  refine (List.perm_ext_iff_of_nodup (List.Nodup.of_map _ (grouped_keys _ _).1)
    (List.Nodup.of_map _ hkeys)).mpr ?_
  rintro ⟨k, group⟩
  rw [mem_grouped, List.mem_map]
  constructor
  · rintro ⟨rfl, hne⟩
    obtain ⟨⟨row, topic⟩, hrow⟩ := List.exists_mem_of_ne_nil _ hne
    obtain ⟨hjoined, hid⟩ := List.mem_filter.mp hrow
    obtain ⟨-, htopic, htopicId⟩ := mem_innerJoin.mp hjoined
    obtain rfl : topic.id = k := (eq_of_beq htopicId).trans (eq_of_beq hid)
    rw [filter_joined fts db htopic] at hne ⊢
    exact ⟨topic, List.mem_filter.mpr ⟨htopic, (topicGroup_ne_nil fts db htopic).mp hne⟩, rfl⟩
  · rintro ⟨topic, hfound, heq⟩
    cases heq
    obtain ⟨htopic, hfound⟩ := List.mem_filter.mp hfound
    exact ⟨(filter_joined fts db htopic).symm, (topicGroup_ne_nil fts db htopic).mpr hfound⟩

theorem forumRows_perm [LinearOrder κ] : (forumRows fts db).Perm
    ((db.topics.rows.filter (isFound fts db)).filterMap fun topic =>
      forumRow (topicGroup fts db topic)) := by
  refine (orderedBy_perm _ _).trans (((groups_perm fts db).filterMap _).trans (.of_eq ?_))
  rw [List.filterMap_map]
  rfl

theorem length_forumRows [LinearOrder κ] :
    ((db.topics.rows.filter (isFound fts db)).filterMap fun topic =>
      forumRow (topicGroup fts db topic)).length =
        (db.topics.rows.filter (isFound fts db)).length := by
  refine List.filterMap_length_eq_length.mpr fun topic hfound => ?_
  obtain ⟨htopic, hfound⟩ := List.mem_filter.mp hfound
  have hne := (topicGroup_ne_nil fts db htopic).mpr hfound
  rcases htopics : topicGroup fts db topic with _ | ⟨first, rest⟩
  · exact absurd htopics hne
  · rfl

/-- **The forum scope** agrees. -/
theorem forum_agrees [LinearOrder κ] :
    ScopeAgrees (searchForumPage fts db) (countScopes fts db).forum (forumHits fts db) := by
  have hperm := forumRows_perm fts db
  have hlength := length_forumRows fts db
  have hiff : ScopeAgrees (searchForumPage fts db) (countScopes fts db).forum (forumHits fts db) ↔
      (forumHits fts db).length = (countScopes fts db).forum := by
    refine scopeAgrees_iff_of_map (fun _ => ?_) (fun _ => rfl) ?_ (hperm.map _)
    · exact (length_grouped_topicId fts db).trans (countScopes_forum fts db).symm
    · rw [hperm.length_eq, hlength, countScopes_forum]
  rw [hiff, forumHits, List.length_map, hlength, countScopes_forum]

/-! ### Rationales -/

theorem isLookup_isVoteOf {α : Type} (statement : α → StatementRow) :
    IsLookup (fun row vote => isVoteOf (statement row) vote) db.drepVotes.rows := by
  refine isLookup_key db.drepVotes
    (fun row => some ((statement row).gaId, (statement row).voterId)) fun row vote h => ?_
  rw [isVoteOf, Bool.and_eq_true, beq_iff_eq, beq_iff_eq] at h
  rw [h.1, h.2]

theorem isLookup_action {α : Type} (gaId : α → String) :
    IsLookup (fun row action => action.id == gaId row) db.governanceActions.rows :=
  isLookup_key db.governanceActions (fun row => some (gaId row)) fun _ _ h =>
    congrArg some (eq_of_beq h)

theorem isLookup_drep {α : Type} (voterId : α → String) :
    IsLookup (fun row drep => drep.drepId == voterId row) db.dreps.rows :=
  isLookup_key db.dreps (fun row => some (voterId row)) fun _ _ h => congrArg some (eq_of_beq h)

theorem isLookup_name {α : Type} (hotKeyHex : α → Option String) :
    IsLookup (fun row name => some name.hotKeyHex == hotKeyHex row) db.ccMemberNames.rows :=
  isLookup_key db.ccMemberNames hotKeyHex fun _ _ h => eq_of_beq h

theorem select_perm [LinearOrder κ] : (RATIONALE_SELECT fts db).Perm
    ((matched fts.actionRationales db.actionRationales.rows).filterMap (statedRow db)) := by
  refine ((orderedBy_perm _ _).map _).trans (.of_eq ?_)
  rw [leftJoin_eq (isLookup_name db _), leftJoin_eq (isLookup_drep db _),
    innerJoin_eq (isLookup_isThreadOf db _), innerJoin_eq (isLookup_action db _),
    innerJoin_eq (isLookup_isVoteOf db _)]
  simp only [List.filterMap_filterMap, List.filter_filterMap, List.map_filterMap]
  refine List.filterMap_congr fun ⟨statement, found⟩ _ => ?_
  rw [statedRow]
  rcases hvote : voteOf db statement with _ | vote
  · simp only [voteOf] at hvote
    simp [hvote]
  · simp only [voteOf] at hvote
    rcases haction : actionOf db statement with _ | action
    · simp only [actionOf] at haction
      simp [hvote, haction]
    · simp only [actionOf] at haction
      rcases hthread : threadOf db action with _ | topic
      · simp only [threadOf] at hthread
        simp [hvote, haction, threadOf, hthread]
      · simp only [threadOf] at hthread
        by_cases hok : statement.status = "ok" <;> simp [hvote, haction, threadOf, hthread, hok]

theorem isSome_statedRow {found : StatementRow × FtsMatch κ} :
    (statedRow db found).isSome = (isReadable db found.1 && (voteOf db found.1).isSome) := by
  rw [statedRow, isReadable]
  rcases voteOf db found.1 with _ | vote
  · simp
  rw [Option.bind_some]
  rcases actionOf db found.1 with _ | action
  · simp
  rw [Option.bind_some, Option.bind_some]
  rcases threadOf db action with _ | topic
  · simp
  · by_cases hok : found.1.status = "ok" <;> simp [hok]

theorem rationaleCount_eq : RATIONALE_COUNT fts db =
    (matched fts.actionRationales db.actionRationales.rows).countP
      fun found => isReadable db found.1 := by
  rw [RATIONALE_COUNT, innerJoin_eq (isLookup_isThreadOf db _),
    innerJoin_eq (isLookup_action db _), List.filterMap_filterMap, List.countP_filterMap]
  refine List.countP_congr fun found _ => ?_
  rw [isReadable]
  rcases haction : actionOf db found.1 with _ | action
  · simp only [actionOf] at haction
    simp [haction]
  · simp only [actionOf] at haction
    rcases hthread : threadOf db action with _ | topic
    · simp only [threadOf] at hthread
      simp [haction, threadOf, hthread]
    · simp only [threadOf] at hthread
      simp [haction, threadOf, hthread]

/-- **The scope of the rationales** agrees exactly if all that match and can be read have a vote. -/
theorem rationales_agree_iff [LinearOrder κ] :
    ScopeAgrees (searchRationalesPage fts db) (countScopes fts db).rationales
        (rationaleHits fts db) ↔
      ∀ statement ∈ db.actionRationales.rows, (fts.actionRationales statement).isSome = true →
        isReadable db statement = true → (voteOf db statement).isSome = true := by
  have hperm := select_perm fts db
  have hlength : (rationaleHits fts db).length =
      (matched fts.actionRationales db.actionRationales.rows).countP
        fun found => (voteOf db found.1).isSome && isReadable db found.1 := by
    rw [rationaleHits, List.length_map, List.length_filterMap_eq_countP]
    refine List.countP_congr fun found _ => ?_
    rw [isSome_statedRow, Bool.and_comm]
  have hle : (RATIONALE_SELECT fts db).length ≤ RATIONALE_COUNT fts db := by
    rw [hperm.length_eq, ← List.length_map toRationaleHit, ← rationaleHits, hlength,
      rationaleCount_eq]
    exact List.countP_mono_left fun found _ h => (Bool.and_eq_true_iff.mp h).2
  have hiff : ScopeAgrees (searchRationalesPage fts db) (countScopes fts db).rationales
      (rationaleHits fts db) ↔ (rationaleHits fts db).length = RATIONALE_COUNT fts db :=
    scopeAgrees_iff_of_map (fun _ => rfl) (fun _ => rfl) hle (hperm.map _)
  rw [hiff, hlength, rationaleCount_eq, ← List.countP_filter, List.countP_eq_length_filter,
    List.countP_eq_length_filter, List.length_filter_eq_length_iff]
  simp only [List.mem_filter, matched, List.mem_filterMap, Option.map_eq_some_iff]
  constructor
  · intro h statement hstatement hfound hreadable
    obtain ⟨found, hfound⟩ := Option.isSome_iff_exists.mp hfound
    exact h (statement, found) ⟨⟨statement, hstatement, found, hfound, rfl⟩, hreadable⟩
  · rintro h _ ⟨⟨statement, hstatement, found, hfound, rfl⟩, hreadable⟩
    exact h statement hstatement (Option.isSome_iff_exists.mpr ⟨found, hfound⟩) hreadable

/-! ### All scopes -/

/-- **The scopes of the search page** list what they count if and only if every matching action has
a live thread to link to and every matching rationale that can be read has a vote. -/
theorem scopes_agree [LinearOrder κ] :
    (ScopeAgrees (searchForumPage fts db) (countScopes fts db).forum (forumHits fts db) ∧
        ScopeAgrees (searchGovernancePage fts db) (countScopes fts db).governance
          (governanceHits fts db) ∧
        ScopeAgrees (searchDrepsPage fts db) (countScopes fts db).dreps (drepHits fts db) ∧
        ScopeAgrees (searchRationalesPage fts db) (countScopes fts db).rationales
          (rationaleHits fts db)) ↔
      (∀ action ∈ db.governanceActions.rows, (fts.governanceActions action).isSome = true →
        ∃ topic ∈ threadOf db action, topic.slug ≠ "") ∧
      ∀ statement ∈ db.actionRationales.rows, (fts.actionRationales statement).isSome = true →
        isReadable db statement = true → (voteOf db statement).isSome = true := by
  rw [governance_agrees_iff, rationales_agree_iff]
  constructor
  · rintro ⟨-, hactions, -, hstatements⟩
    exact ⟨hactions, hstatements⟩
  · rintro ⟨hactions, hstatements⟩
    exact ⟨forum_agrees fts db, hactions, dreps_agrees fts db, hstatements⟩

end

/-- An action whose thread was deleted. -/
def unlinkedDb : SearchDb where
  topics := ⟨[⟨"t1", "raise-cap", "Raise the cap", "governance", "governance-actions", 0, true⟩],
    by decide⟩
  posts := .empty
  governanceActions := ⟨[⟨"ga1", some "Raise the cap", "InfoAction", "active", some "t1"⟩],
    by decide⟩
  dreps := .empty
  drepVotes := .empty
  ccMemberNames := .empty
  actionRationales := .empty

def findAll : FullText ℕ where
  topics _ := some ⟨0, none⟩
  posts _ := some ⟨0, none⟩
  governanceActions _ := some ⟨0, none⟩
  dreps _ := some ⟨0, none⟩
  actionRationales _ := some ⟨0, none⟩

/-- The action is counted, and its page is empty. -/
theorem not_scopeAgrees : ¬∀ (fts : FullText ℕ) (db : SearchDb),
    ScopeAgrees (searchGovernancePage fts db) (countScopes fts db).governance
      (governanceHits fts db) := by
  intro h
  have hlisted := (h findAll unlinkedDb).listed
  revert hlisted
  decide

end Search

end DrepTalk
