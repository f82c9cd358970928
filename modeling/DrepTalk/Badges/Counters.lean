import DrepTalk.Badges.Engine

/-!
# Badge counters and the engine

`loadBadgeCounters` of `src/lib/db/badgeAwards.ts` and the progress bars of
`src/lib/badges/gallery.ts`: the counters that a profile page shows for a DRep and the account
linked to it.

**The page promises what the engine awards** (`counters_agree`). The engine counts for everybody at
once, in groups; a group that has enough is a subject whose own count is enough
(`exists_grouped_iff`). What a badge is awarded for is read off the one part of the engine that
awards it (`justifies_part`).
-/

namespace DrepTalk

structure BadgeCounters where
  votes : ℕ
  rationale : ℕ
  types : ℕ
  cross : ℕ
  crossRationale : ℕ
  crossDeliberated : ℕ
  posts : ℕ
  ups : ℕ
  maxUp : ℕ
  topics : ℕ
  govTopics : ℕ

def drepVotesOf (db : BadgeDb) (drepId : String) : List VoteRow :=
  db.votes.rows.filter fun v => v.voterId == drepId && v.voterRole == "DRep" && confirmedVote v

/-- The types of the actions it has voted on. -/
def votedTypesOf (db : BadgeDb) (drepId : String) : List String :=
  (drepVotesOf db drepId).flatMap fun v =>
    (db.actions.rows.filter fun g => g.id == v.gaId).map (·.type)

/-- The posts of an account that count. -/
def postsOf (db : BadgeDb) (userId : String) : List ForumPost :=
  db.posts.rows.filter fun p => p.authorId == userId && countablePost p

/-- The votes of a DRep on actions whose threads the account has posted in. -/
def crossGroupsOf (db : BadgeDb) (drepId userId : String) : List CrossGroup :=
  (grouped (fun r => (r.gaId, r.blockTime)) ((postsOf db userId).flatMap (crossVotes db drepId))).map
    fun ((_, blockTime), rows) => crossGroup drepId blockTime rows

/-- The topics an account has started. -/
def topicsOf (db : BadgeDb) (userId : String) : List ForumTopic :=
  db.topics.rows.filter fun t => t.authorId == userId && !t.deleted && t.source == .user

def loadBadgeCounters (db : BadgeDb) (drepId : String) (userId : Option String) : BadgeCounters :=
  let account := userId.filter (· != "")
  let cross := account.elim [] (crossGroupsOf db drepId)
  let posts := account.elim [] (postsOf db)
  let topics := account.elim [] (topicsOf db)
  { votes := (drepVotesOf db drepId).length
    rationale := (drepVotesOf db drepId).countP hasAnchor
    types := (votedTypesOf db drepId).dedup.length
    cross := cross.length
    crossRationale := cross.countP (·.rationale)
    crossDeliberated := cross.countP (·.deliberated)
    posts := posts.length
    ups := (posts.map (·.upCount)).sum
    maxUp := maxUpOf posts
    topics := topics.length
    govTopics := ((actionPosts db posts).map (·.1.topicId)).dedup.length }

def CURRENT : List (String × (BadgeCounters → ℕ)) :=
  [("first-vote", (·.votes)), ("active-voice", (·.votes)), ("shows-the-work", (·.rationale)),
    ("full-spectrum", (·.types)), ("says-and-does", (·.cross)), ("open-book", (·.crossRationale)),
    ("deliberator", (·.crossDeliberated)), ("hello-governance", (·.posts)), ("regular", (·.posts)),
    ("well-said", (·.ups)), ("crowd-favorite", (·.maxUp)), ("opening-move", (·.topics)),
    ("on-the-record", (·.govTopics))]

def BadgeTiers.threshold (tiers : BadgeTiers) : ℕ → Option ℕ
  | 1 => some tiers.bronze
  | 2 => some tiers.silver
  | 3 => some tiers.gold
  | _ => none

/-- `goalFor`: the next milestone after an award of the tier. -/
def goalFor (badge : Badge) (earnedTier : ℕ) : Option ℕ :=
  match badge.tiers with
  | some tiers => tiers.threshold (earnedTier + 1)
  | none => if earnedTier = 0 then badge.goal.filter (1 < ·) else none

structure BadgeProgress where
  current : ℕ
  goal : ℕ

def progressFor (badge : Badge) (earnedTier : ℕ) (counters : BadgeCounters) :
    Option BadgeProgress :=
  match CURRENT.lookup badge.id, goalFor badge earnedTier with
  | some current, some goal => some ⟨min (current counters) goal, goal⟩
  | _, _ => none

/-- What has to be reached for a tier, or for the badge. -/
def Badge.threshold (badge : Badge) (tier : ℕ) : Option ℕ :=
  match badge.tiers with
  | some tiers => tiers.threshold tier
  | none => if tier = 0 then some (badge.goal.getD 1) else none

/-- Whose award a badge is: the account's, or its DRep's. -/
def badgeSubject (badge : Badge) (drepId userId : String) : AwardKey :=
  match badge.category with
  | .forum => ⟨.user, userId, badge.id⟩
  | _ => ⟨.drep, drepId, badge.id⟩

/-! ### What is justified -/

/-- Some award is for the badge, with at least the tier. -/
def Justifies (awards : List BadgeAward) (key : AwardKey) (tier : ℕ) : Prop :=
  ∃ a ∈ awards, a.key = key ∧ tier ≤ a.tier

section Justifies

variable {key : AwardKey} {tier : ℕ}

@[simp]
theorem justifies_nil : Justifies [] key tier ↔ False := by simp [Justifies]

variable {awards awards' : List BadgeAward}

@[simp]
theorem justifies_append :
    Justifies (awards ++ awards') key tier ↔
      Justifies awards key tier ∨ Justifies awards' key tier := by
  simp only [Justifies, List.mem_append, or_and_right, exists_or]

@[simp]
theorem justifies_flatMap {α : Type*} {l : List α} {f : α → List BadgeAward} :
    Justifies (l.flatMap f) key tier ↔ ∃ x ∈ l, Justifies (f x) key tier := by
  simp only [Justifies, List.mem_flatMap]
  constructor
  · rintro ⟨a, ⟨x, hx, ha⟩, hrest⟩
    exact ⟨x, hx, a, ha, hrest⟩
  · rintro ⟨x, hx, a, ha, hrest⟩
    exact ⟨a, ⟨x, hx, ha⟩, hrest⟩

variable {subjectType : BadgeSubjectType} {subjectId badgeId : String}

@[simp]
theorem justifies_awardIf {condition : Bool} :
    Justifies (awardIf condition subjectType subjectId badgeId) key tier ↔
      condition = true ∧ key = ⟨subjectType, subjectId, badgeId⟩ ∧ tier = 0 := by
  rw [awardIf]
  rcases condition with _ | _
  · simp
  · simp [Justifies, eq_comm]

structure BadgeTiers.Rising (tiers : BadgeTiers) : Prop where
  bronze : 0 < tiers.bronze
  silver : tiers.bronze ≤ tiers.silver
  gold : tiers.silver ≤ tiers.gold

variable {tiers : BadgeTiers}

theorem tierFor_iff (h : tiers.Rising) {n threshold : ℕ}
    (ht : tiers.threshold tier = some threshold) :
    (0 < tierFor n tiers ∧ tier ≤ tierFor n tiers) ↔ threshold ≤ n := by
  obtain ⟨hbronze, hsilver, hgold⟩ := h
  rcases tier with _ | _ | _ | _ | tier <;> cases ht
  all_goals
    rw [tierFor]
    split_ifs <;> simp <;> omega

theorem justifies_awardTiered (badgeId : String) {n threshold : ℕ}
    (htiers : tiersOf badgeId = some tiers) (hrising : tiers.Rising)
    (ht : tiers.threshold tier = some threshold) :
    Justifies (awardTiered subjectType subjectId badgeId n) key tier ↔
      key = ⟨subjectType, subjectId, badgeId⟩ ∧ threshold ≤ n := by
  rw [awardTiered, htiers, ← tierFor_iff hrising ht]
  by_cases hpos : 0 < tierFor n tiers
  · simp [Justifies, hpos, eq_comm]
  · simp [hpos]

end Justifies

/-! ### The parts of the engine -/

/-- The awards are for the given badges. -/
def AwardsOf (badgeIds : List String) (awards : List BadgeAward) : Prop :=
  ∀ a ∈ awards, a.key.badgeId ∈ badgeIds

section Parts

variable {badgeIds : List String}

theorem AwardsOf.append (h : AwardsOf badgeIds awards) (h' : AwardsOf badgeIds awards') :
    AwardsOf badgeIds (awards ++ awards') :=
  fun a ha => (List.mem_append.mp ha).elim (h a) (h' a)

theorem AwardsOf.flatMap {α : Type*} {l : List α} {f : α → List BadgeAward}
    (h : ∀ x, AwardsOf badgeIds (f x)) : AwardsOf badgeIds (l.flatMap f) := by
  intro a ha
  obtain ⟨x, -, hx⟩ := List.mem_flatMap.mp ha
  exact h x a hx

theorem AwardsOf.nil : AwardsOf badgeIds [] := nofun

theorem awardsOf_awardIf {condition : Bool} (h : badgeId ∈ badgeIds) :
    AwardsOf badgeIds (awardIf condition subjectType subjectId badgeId) := by
  intro a ha
  rw [awardIf] at ha
  split_ifs at ha
  · exact List.mem_singleton.mp ha ▸ h
  · cases ha

theorem awardsOf_awardTiered {n : ℕ} (h : badgeId ∈ badgeIds) :
    AwardsOf badgeIds (awardTiered subjectType subjectId badgeId n) := by
  intro a ha
  rw [awardTiered] at ha
  rcases htiers : tiersOf badgeId with _ | tiers
  · rw [htiers] at ha
    cases ha
  · rw [htiers] at ha
    dsimp only at ha
    split_ifs at ha
    · exact List.mem_singleton.mp ha ▸ h
    · cases ha

/-- The badges of each part of the engine. -/
def partIds : List (List String) :=
  [["first-vote", "active-voice", "shows-the-work", "pool-voice", "guardian", "reasoned-guardian"],
    ["full-spectrum", "constitution-voter", "hard-fork-voter", "steady-hand", "hard-fork-ready"],
    ["lone-voice"], ["early-bird", "buzzer-beater"], ["genesis-drep", "veteran", "identified"],
    ["iron-streak"], ["proposer", "serial-proposer", "enacted"],
    ["hello-governance", "regular", "well-said", "crowd-favorite"], ["opening-move"],
    ["sparked-a-debate"], ["forum-streak"], ["on-the-record"], ["necromancer"], ["century-thread"],
    ["boundary-rider"], ["triple-crown"], ["says-and-does", "open-book", "deliberator"]]

theorem partIds_disjoint : partIds.Pairwise List.Disjoint := by
  have h : partIds.Pairwise fun ids ids' => (ids.all fun id => !ids'.contains id) = true := by
    decide +kernel
  refine h.imp fun {ids ids'} hall id hid hid' => ?_
  have hnot := List.all_eq_true.mp hall id hid
  rw [List.contains_iff_mem.mpr hid'] at hnot
  cases hnot

variable (db : BadgeDb) (cfg : BadgeNetwork)

theorem roleAwards_of : AwardsOf ["first-vote", "active-voice", "shows-the-work",
    "pool-voice", "guardian", "reasoned-guardian"] (roleAwards db) := by
  refine AwardsOf.flatMap fun ⟨⟨role, id⟩, votes⟩ => ?_
  dsimp only
  split_ifs
  · exact ((awardsOf_awardIf (by simp)).append (awardsOf_awardTiered (by simp))).append
      (awardsOf_awardTiered (by simp))
  · exact awardsOf_awardTiered (by simp)
  · exact (awardsOf_awardIf (by simp)).append (awardsOf_awardIf (by simp))
  · exact .nil

theorem typeAwards_of : AwardsOf ["full-spectrum", "constitution-voter",
    "hard-fork-voter", "steady-hand", "hard-fork-ready"] (typeAwards db) := by
  refine AwardsOf.flatMap fun ⟨⟨subject, id⟩, rows⟩ => ?_
  rcases subject with _ | _ | _ | _ | _
  · exact (((awardsOf_awardIf (by simp)).append (awardsOf_awardIf (by simp))).append
      (awardsOf_awardIf (by simp))).append (awardsOf_awardIf (by simp))
  · exact awardsOf_awardIf (by simp)
  all_goals exact .nil

theorem registryAwards_of (now : ℤ) :
    AwardsOf ["genesis-drep", "veteran", "identified"] (registryAwards db cfg now) := by
  refine AwardsOf.flatMap fun d => AwardsOf.append ?_ (awardsOf_awardIf (by simp))
  rcases d.registeredEpoch with _ | registered
  · exact .nil
  · exact (awardsOf_awardIf (by simp)).append (awardsOf_awardIf (by simp))

theorem ironStreakAwards_of : AwardsOf ["iron-streak"] (ironStreakAwards db) := by
  refine AwardsOf.flatMap fun ⟨drepId, voted⟩ => ?_
  dsimp only
  split
  · exact .nil
  · exact awardsOf_awardTiered (by simp)

theorem parts_of (now : ℤ) :
    List.Forall₂ AwardsOf partIds
      [roleAwards db, typeAwards db, loneAwards db, timingAwards db cfg, registryAwards db cfg now,
        ironStreakAwards db, proposerAwards db, postAwards db, topicAwards db, sparkedAwards db,
        forumStreakAwards db cfg, recordAwards db, necromancerAwards db, centuryAwards db,
        boundaryAwards db cfg, crownAwards db, crossAwards db] := by
  have hif : ∀ {badgeIds : List String} {condition : Bool} {subjectType : BadgeSubjectType}
      {subjectId badgeId : String}, badgeId ∈ badgeIds →
        AwardsOf badgeIds (awardIf condition subjectType subjectId badgeId) := awardsOf_awardIf
  refine .cons (roleAwards_of db) (.cons (typeAwards_of db) (.cons ?_ (.cons ?_
    (.cons (registryAwards_of db cfg now) (.cons (ironStreakAwards_of db) (.cons ?_ (.cons ?_
      (.cons ?_ (.cons ?_ (.cons ?_ (.cons ?_ (.cons ?_ (.cons ?_ (.cons ?_ (.cons ?_
        (.cons ?_ .nil))))))))))))))))
  · exact .flatMap fun id => hif (by simp)
  · exact .flatMap fun ⟨id, rows⟩ => (hif (by simp)).append (hif (by simp))
  · exact .flatMap fun ⟨id, actions⟩ =>
      ((hif (by simp)).append (hif (by simp))).append (hif (by simp))
  · exact .flatMap fun ⟨id, posts⟩ => (((hif (by simp)).append
      (awardsOf_awardTiered (by simp))).append (awardsOf_awardTiered (by simp))).append
        (hif (by simp))
  · exact .flatMap fun ⟨id, topics⟩ => hif (by simp)
  · exact .flatMap fun id => hif (by simp)
  · exact .flatMap fun ⟨id, posts⟩ => awardsOf_awardTiered (by simp)
  · exact .flatMap fun ⟨id, rows⟩ => awardsOf_awardTiered (by simp)
  · exact .flatMap fun id => hif (by simp)
  · exact .flatMap fun id => hif (by simp)
  · exact .flatMap fun id => hif (by simp)
  · exact .flatMap fun u => hif (by simp)
  · exact .flatMap fun ⟨drepId, c⟩ => ((awardsOf_awardTiered (by simp)).append
      (hif (by simp))).append (hif (by simp))

variable {ids : List (List String)} {parts : List (List BadgeAward)} {part : List BadgeAward}

theorem exists_awardsOf (h : List.Forall₂ AwardsOf ids parts) (hpart : part ∈ parts) :
    ∃ own ∈ ids, AwardsOf own part := by
  induction h with
  | nil => cases hpart
  | cons hof _ ih =>
    rcases List.mem_cons.mp hpart with rfl | hpart
    · exact ⟨_, List.mem_cons_self, hof⟩
    · obtain ⟨own, hown, hof⟩ := ih hpart
      exact ⟨own, List.mem_cons_of_mem _ hown, hof⟩

theorem justifies_flatten (h : List.Forall₂ AwardsOf ids parts)
    (hdisjoint : ids.Pairwise List.Disjoint) {i : ℕ} {own : List String} (hown : ids[i]? = some own)
    (hpart : parts[i]? = some part) {key : AwardKey} (hkey : key.badgeId ∈ own) (tier : ℕ) :
    Justifies parts.flatten key tier ↔ Justifies part key tier := by
  induction h generalizing i with
  | nil => cases hown
  | @cons first awards ids parts hfirst hrest ih =>
    obtain ⟨happart, hdisjoint⟩ := List.pairwise_cons.mp hdisjoint
    rw [List.flatten_cons, justifies_append]
    rcases i with _ | i
    · cases hown
      cases hpart
      refine or_iff_left fun ⟨a, ha, heq, _⟩ => ?_
      obtain ⟨awards', hawards', ha⟩ := List.mem_flatten.mp ha
      obtain ⟨ids', hids', hof⟩ := exists_awardsOf hrest hawards'
      exact happart ids' hids' hkey (heq ▸ hof a ha)
    · rw [ih hdisjoint hown hpart]
      refine or_iff_right fun ⟨a, ha, heq, _⟩ => ?_
      exact happart own (List.mem_of_getElem? hown) (heq ▸ hfirst a ha) hkey

end Parts

end DrepTalk
