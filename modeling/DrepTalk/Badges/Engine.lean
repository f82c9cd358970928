import DrepTalk.Badges.Awards
import DrepTalk.Governance.ActionThreads
import Mathlib.Data.Rat.Defs

/-!
# The badge engine

`computeDesiredAwards` of `src/lib/badges/engine.ts`: the awards that the data justifies, one query
after the other. A `GROUP BY` is `grouped`, a `JOIN` goes through the rows of one table for each
row of the other.

No id of an account is empty; the gallery reads an empty one as no account.
-/

namespace DrepTalk

/-- A row of `governance_actions`, by the columns the engine reads. -/
structure BadgeActionRow where
  id : String
  type : String
  status : String
  topicId : Option String
  submittedEpoch : Option ℤ
  expiryEpoch : Option ℤ
  decidedEpoch : Option ℤ
  drepNoPct : Option ℚ
  drepYesPct : Option ℚ
  returnAddress : Option String

/-- A row of `users`, by the columns the engine reads. -/
structure BadgeUserRow where
  id : String
  drepId : Option String
  isDrep : Bool
  isSpo : Bool
  isCc : Bool
  isProposer : Bool
  id_ne : id ≠ ""

/-- A row of `dreps`, by the columns the engine reads. -/
structure BadgeDrepRow where
  drepId : String
  registeredEpoch : Option ℤ
  active : Bool
  name : Option String
  bio : Option String
  imageUrl : Option String
  links : Option String

structure BadgeDb where
  votes : VoteTable
  actions : KeyedTable fun row : BadgeActionRow => row.id
  posts : ForumPostTable
  topics : ForumTopicTable
  users : KeyedTable fun row : BadgeUserRow => row.id
  dreps : KeyedTable fun row : BadgeDrepRow => row.drepId

/-- The network, by what the engine reads of its configuration. -/
structure BadgeNetwork where
  genesisEpochLimit : ℤ
  anchorEpoch : ℤ
  anchorSec : ℤ

/-- `GENESIS_EPOCH_LIMIT` and `epochAnchor` of the two networks. -/
def mainnet : BadgeNetwork := ⟨520, 208, 1596059091⟩

def preprod : BadgeNetwork := ⟨175, 4, 1655769600⟩

def EPOCH_LENGTH_SECONDS : ℤ := 432000

def VETERAN_EPOCHS : ℤ := 73

def NECRO_DORMANT_MS : ℤ := 60 * 86400000

def BOUNDARY_WINDOW_SECONDS : ℤ := 600

def epochFromUnix (cfg : BadgeNetwork) (unixSeconds : ℤ) : ℤ :=
  cfg.anchorEpoch + (unixSeconds - cfg.anchorSec).fdiv EPOCH_LENGTH_SECONDS

/-- `epochSql`: SQLite divides towards zero. -/
def epochSql (cfg : BadgeNetwork) (unixSeconds : ℤ) : ℤ :=
  (unixSeconds - cfg.anchorSec).tdiv EPOCH_LENGTH_SECONDS + cfg.anchorEpoch

/-! ### Awards -/

def tierFor (n : ℕ) (tiers : BadgeTiers) : ℕ :=
  if tiers.gold ≤ n then 3 else if tiers.silver ≤ n then 2 else if tiers.bronze ≤ n then 1 else 0

/-- `tiersOf`; it throws where there are none. -/
def tiersOf (badgeId : String) : Option BadgeTiers :=
  (BADGES.find? fun b => b.id == badgeId).bind (·.tiers)

/-- `award`, where its condition holds. -/
def awardIf (condition : Bool) (subjectType : BadgeSubjectType) (subjectId badgeId : String) :
    List BadgeAward :=
  if condition then [⟨⟨subjectType, subjectId, badgeId⟩, 0⟩] else []

def awardTiered (subjectType : BadgeSubjectType) (subjectId badgeId : String) (n : ℕ) :
    List BadgeAward :=
  match tiersOf badgeId with
  | none => []
  | some tiers =>
    if 0 < tierFor n tiers then [⟨⟨subjectType, subjectId, badgeId⟩, tierFor n tiers⟩] else []

/-! ### Votes -/

/-- `confirmedVoteSql`. -/
def confirmedVote (v : VoteRow) : Bool := v.localStatus.isNone

def hasAnchor (v : VoteRow) : Bool := (v.metaUrl.filter (· != "")).isSome

/-- `ROLE_SUBJECT`. -/
def roleSubject : String → Option BadgeSubjectType
  | "DRep" => some .drep
  | "SPO" => some .spo
  | "ConstitutionalCommittee" => some .cc
  | _ => none

def roleAwards (db : BadgeDb) : List BadgeAward :=
  (grouped (fun v => (v.voterRole, v.voterId)) (db.votes.rows.filter confirmedVote)).flatMap
    fun ((role, id), votes) =>
      let n := votes.length
      let r := votes.countP hasAnchor
      if role = "DRep" then
        awardIf (decide (1 ≤ n)) .drep id "first-vote" ++ awardTiered .drep id "active-voice" n ++
          awardTiered .drep id "shows-the-work" r
      else if role = "SPO" then awardTiered .spo id "pool-voice" n
      else if role = "ConstitutionalCommittee" then
        awardIf (decide (1 ≤ n)) .cc id "guardian" ++
          awardIf (decide (10 ≤ r)) .cc id "reasoned-guardian"
      else []

/-- Confirmed votes with the actions they are on. -/
def votedActions (db : BadgeDb) : List (VoteRow × BadgeActionRow) :=
  (db.votes.rows.filter confirmedVote).flatMap fun v =>
    (db.actions.rows.filter fun g => g.id == v.gaId).map fun g => (v, g)

/-- The types of action each voter has voted on. -/
def votedTypes (db : BadgeDb) : List ((BadgeSubjectType × String) × String) :=
  (votedActions db).filterMap fun (v, g) =>
    (roleSubject v.voterRole).map fun subject => ((subject, v.voterId), g.type)

def typeAwards (db : BadgeDb) : List BadgeAward :=
  (grouped (·.1) (votedTypes db)).flatMap fun ((subject, id), rows) =>
    let types := (rows.map (·.2)).dedup
    match subject with
    | .drep =>
      awardIf (decide (7 ≤ types.length)) .drep id "full-spectrum" ++
        awardIf (types.contains "NewConstitution") .drep id "constitution-voter" ++
        awardIf (types.contains "HardForkInitiation") .drep id "hard-fork-voter" ++
        awardIf (types.contains "NoConfidence") .drep id "steady-hand"
    | .spo => awardIf (types.contains "HardForkInitiation") .spo id "hard-fork-ready"
    | _ => []

def over90 (pct : Option ℚ) : Bool := pct.any fun x => decide (90 < x)

/-- The minority side of a decided action. -/
def loneAwards (db : BadgeDb) : List BadgeAward :=
  ((votedActions db).filter fun (v, g) => v.voterRole == "DRep" &&
    !(["active", "pending"].contains g.status) &&
      (v.vote == "Yes" && over90 g.drepNoPct || v.vote == "No" && over90 g.drepYesPct)).map
    (·.1.voterId) |>.dedup.flatMap fun id => awardIf true .drep id "lone-voice"

def timingAwards (db : BadgeDb) (cfg : BadgeNetwork) : List BadgeAward :=
  (grouped (·.1.voterId) ((votedActions db).filter fun (v, _) =>
    v.voterRole == "DRep" && v.blockTime.isSome)).flatMap fun (id, rows) =>
      awardIf (rows.any fun (v, g) => v.blockTime.map (epochSql cfg) == g.submittedEpoch)
        .drep id "early-bird" ++
      awardIf (rows.any fun (v, g) => v.blockTime.map (epochSql cfg) == g.expiryEpoch)
        .drep id "buzzer-beater"

def filled (text : Option String) : Bool := (text.filter (· != "")).isSome

def registryAwards (db : BadgeDb) (cfg : BadgeNetwork) (now : ℤ) : List BadgeAward :=
  let currentEpoch := epochFromUnix cfg (now.fdiv 1000)
  db.dreps.rows.flatMap fun d =>
    (match d.registeredEpoch with
    | none => []
    | some registered =>
      awardIf (decide (registered < cfg.genesisEpochLimit)) .drep d.drepId "genesis-drep" ++
        awardIf (d.active && decide (registered ≤ currentEpoch - VETERAN_EPOCHS))
          .drep d.drepId "veteran") ++
    awardIf (filled d.name && filled d.bio && filled d.imageUrl && filled d.links &&
      d.links != some "[]") .drep d.drepId "identified"

/-! ### Streaks -/

/-- `concludedStatusSql`. -/
def isConcluded (status : String) : Bool :=
  ["ratified", "enacted", "expired", "closed"].contains status

/-- The concluded actions with a vote of a DRep, for each epoch. -/
def epochTotals (db : BadgeDb) : List (ℤ × ℕ) :=
  (grouped (fun g => g.decidedEpoch.getD 0) (db.actions.rows.filter fun g =>
    g.decidedEpoch.isSome && isConcluded g.status &&
      db.votes.rows.any fun v => v.gaId == g.id && v.voterRole == "DRep" && confirmedVote v)).map
    fun (e, actions) => (e, actions.length)

/-- The concluded actions a DRep has voted on, for each epoch. -/
def votedByDrep (db : BadgeDb) : List (String × List (ℤ × ℕ)) :=
  (grouped (·.1.voterId) ((votedActions db).filter fun (v, g) =>
    v.voterRole == "DRep" && g.decidedEpoch.isSome && isConcluded g.status)).map
    fun (id, rows) => (id, (grouped (fun (_, g) => g.decidedEpoch.getD 0) rows).map
      fun (e, actions) => (e, actions.length))

/-- One epoch of `longestCoveredSpan`: the best span, and where the current one began. -/
def coveredStep (totals voted : List (ℤ × ℕ)) (acc : ℕ × Option ℤ) (e : ℤ) : ℕ × Option ℤ :=
  if some ((voted.lookup e).getD 0) = totals.lookup e then
    let runFirst := acc.2.getD e
    (max acc.1 (e - runFirst + 1).toNat, some runFirst)
  else (acc.1, none)

def longestCoveredSpan (eligibleEpochs : List ℤ) (totals voted : List (ℤ × ℕ)) : ℕ :=
  (eligibleEpochs.foldl (coveredStep totals voted) (0, none)).1

def ironStreakAwards (db : BadgeDb) : List BadgeAward :=
  let totals := epochTotals db
  let eligibleEpochs := (totals.map (·.1)).insertionSort (· ≤ ·)
  (votedByDrep db).flatMap fun (drepId, voted) =>
    match (db.dreps.rows.find? fun d => d.drepId == drepId).bind (·.registeredEpoch) with
    | none => []
    | some reg => awardTiered .drep drepId "iron-streak"
        (longestCoveredSpan (eligibleEpochs.filter fun e => decide (reg ≤ e)) totals voted)

/-- One epoch of `longestConsecutiveRun`: the best run, its start and the epoch before. -/
def runStep (acc : ℕ × Option (ℤ × ℤ)) (e : ℤ) : ℕ × Option (ℤ × ℤ) :=
  let runStart := match acc.2 with
    | some (start, before) => if e = before + 1 then start else e
    | none => e
  (max acc.1 (e - runStart + 1).toNat, some (runStart, e))

def longestConsecutiveRun (epochs : List ℤ) : ℕ :=
  ((epochs.dedup.insertionSort (· ≤ ·)).foldl runStep (0, none)).1

/-! ### Proposers -/

def proposerAwards (db : BadgeDb) : List BadgeAward :=
  (grouped (fun g => g.returnAddress.getD "") (db.actions.rows.filter fun g =>
    filled g.returnAddress)).flatMap fun (id, actions) =>
      awardIf true .proposer id "proposer" ++
        awardIf (decide (5 ≤ actions.length)) .proposer id "serial-proposer" ++
        awardIf (actions.any fun g => ["ratified", "enacted"].contains g.status)
          .proposer id "enacted"

/-! ### Forum -/

/-- `countablePostSql`. -/
def countablePost (p : ForumPost) : Bool :=
  !p.deleted && !p.hidden && p.source != some VOTE_RATIONALE

/-- The posts that count, but for those of the sync author. -/
def memberPosts (db : BadgeDb) : List ForumPost :=
  db.posts.rows.filter fun p => p.authorId != GOV_SYNC_AUTHOR && countablePost p

def maxUpOf (posts : List ForumPost) : ℕ := (posts.map (·.upCount)).foldr max 0

def postAwards (db : BadgeDb) : List BadgeAward :=
  (grouped (·.authorId) (memberPosts db)).flatMap fun (id, posts) =>
    awardIf (decide (1 ≤ posts.length)) .user id "hello-governance" ++
      awardTiered .user id "regular" posts.length ++
      awardTiered .user id "well-said" (posts.map (·.upCount)).sum ++
      awardIf (decide (10 ≤ maxUpOf posts)) .user id "crowd-favorite"

def userTopics (db : BadgeDb) : List ForumTopic :=
  db.topics.rows.filter fun t => !t.deleted && t.source == .user

def topicAwards (db : BadgeDb) : List BadgeAward :=
  (grouped (·.authorId) (userTopics db)).flatMap fun (id, topics) =>
    awardIf (decide (1 ≤ topics.length)) .user id "opening-move"

/-- Topics with five replies by others. -/
def sparkedAwards (db : BadgeDb) : List BadgeAward :=
  (((userTopics db).filter fun t => decide (5 ≤ db.posts.rows.countP fun p =>
    p.topicId == t.id && p.authorId != t.authorId && countablePost p)).map (·.authorId)).dedup.flatMap
    fun id => awardIf true .user id "sparked-a-debate"

def forumStreakAwards (db : BadgeDb) (cfg : BadgeNetwork) : List BadgeAward :=
  (grouped (·.authorId) (memberPosts db)).flatMap fun (id, posts) =>
    awardTiered .user id "forum-streak" (longestConsecutiveRun
      (posts.map fun p => epochSql cfg (p.createdAt.tdiv 1000)))

def actionPosts (db : BadgeDb) (posts : List ForumPost) : List (ForumPost × BadgeActionRow) :=
  posts.flatMap fun p =>
    (db.actions.rows.filter fun g => g.topicId == some p.topicId).map fun g => (p, g)

def recordAwards (db : BadgeDb) : List BadgeAward :=
  (grouped (·.1.authorId) (actionPosts db (memberPosts db))).flatMap fun (id, rows) =>
    awardTiered .user id "on-the-record" (rows.map (·.1.topicId)).dedup.length

/-- The last live post of a topic before another. -/
def postedBefore (db : BadgeDb) (p : ForumPost) : Option ℤ :=
  ((db.posts.rows.filter fun p₂ => p₂.topicId == p.topicId && decide (p₂.createdAt < p.createdAt) &&
    !p₂.deleted).map (·.createdAt)).max?

def necromancerAwards (db : BadgeDb) : List BadgeAward :=
  (((memberPosts db).filter fun p =>
    (postedBefore db p).any fun before => decide (before < p.createdAt - NECRO_DORMANT_MS)).map
    (·.authorId)).dedup.flatMap fun id => awardIf true .user id "necromancer"

def centuryAwards (db : BadgeDb) : List BadgeAward :=
  (((memberPosts db).filter fun p =>
    db.topics.rows.any fun t => t.id == p.topicId && decide (100 ≤ t.postCount)).map
    (·.authorId)).dedup.flatMap fun id => awardIf true .user id "century-thread"

def boundaryAwards (db : BadgeDb) (cfg : BadgeNetwork) : List BadgeAward :=
  (((memberPosts db).filter fun p =>
    let offset := (p.createdAt.tdiv 1000 - cfg.anchorSec).tmod EPOCH_LENGTH_SECONDS
    decide (offset ≤ BOUNDARY_WINDOW_SECONDS) ||
      decide (EPOCH_LENGTH_SECONDS - BOUNDARY_WINDOW_SECONDS ≤ offset)).map
    (·.authorId)).dedup.flatMap fun id => awardIf true .user id "boundary-rider"

def crownAwards (db : BadgeDb) : List BadgeAward :=
  (db.users.rows.filter fun u =>
    decide (3 ≤ u.isDrep.toNat + u.isSpo.toNat + u.isCc.toNat + u.isProposer.toNat)).flatMap
    fun u => awardIf true .user u.id "triple-crown"

/-! ### Forum and chain -/

/-- A post of a DRep's account in the thread of an action, and the DRep's vote on it. -/
structure CrossRow where
  drepId : String
  gaId : String
  createdAt : ℤ
  blockTime : Option ℤ
  anchored : Bool

/-- The DRep's confirmed votes on the action of a thread. -/
def crossVotes (db : BadgeDb) (drepId : String) (p : ForumPost) : List CrossRow :=
  (db.actions.rows.filter fun g => g.topicId == some p.topicId).flatMap fun g =>
    (db.votes.rows.filter fun v => v.gaId == g.id && v.voterId == drepId && v.voterRole == "DRep" &&
      confirmedVote v).map fun v => ⟨drepId, g.id, p.createdAt, v.blockTime, hasAnchor v⟩

def crossRows (db : BadgeDb) : List CrossRow :=
  (db.posts.rows.filter countablePost).flatMap fun p =>
    (db.users.rows.filter fun u => u.id == p.authorId).flatMap fun u =>
      match u.drepId with
      | none => []
      | some drepId => crossVotes db drepId p

/-- A group of them, one for each vote. -/
structure CrossGroup where
  drepId : String
  rationale : Bool
  deliberated : Bool

/-- A vote that is anchored, or cast after the first of the posts. -/
def crossGroup (drepId : String) (blockTime : Option ℤ) (rows : List CrossRow) : CrossGroup where
  drepId := drepId
  rationale := rows.any (·.anchored)
  deliberated := blockTime.any fun bt =>
    (rows.map (·.createdAt)).min?.any fun first => decide (first < bt * 1000)

/-- Crossover badges, for the DRep of the account. -/
def crossAwards (db : BadgeDb) : List BadgeAward :=
  let groups := (grouped (fun r => (r.drepId, r.gaId, r.blockTime)) (crossRows db)).map
    fun ((drepId, _, blockTime), rows) => crossGroup drepId blockTime rows
  (grouped (·.drepId) groups).flatMap fun (drepId, c) =>
    awardTiered .drep drepId "says-and-does" c.length ++
      awardIf (decide (10 ≤ c.countP (·.rationale))) .drep drepId "open-book" ++
      awardIf (decide (10 ≤ c.countP (·.deliberated))) .drep drepId "deliberator"

def computeDesiredAwards (db : BadgeDb) (cfg : BadgeNetwork) (now : ℤ) : List BadgeAward :=
  [roleAwards db, typeAwards db, loneAwards db, timingAwards db cfg, registryAwards db cfg now,
    ironStreakAwards db, proposerAwards db, postAwards db, topicAwards db, sparkedAwards db,
    forumStreakAwards db cfg, recordAwards db, necromancerAwards db, centuryAwards db,
    boundaryAwards db cfg, crownAwards db, crossAwards db].flatten

end DrepTalk
