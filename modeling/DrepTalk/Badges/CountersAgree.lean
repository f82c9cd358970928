import DrepTalk.Badges.Counters

/-!
# The gallery and the engine agree

The counters of a profile page against the awards of the engine, badge by badge, for an account
with a DRep id.

**Reaching a threshold is being awarded** (`counters_agree`). Of the engine's groups only the one of
the account, or of its DRep, can award its badges, and that group holds the rows that the page
counts. For the crossover badges it does because the DRep id belongs to no other account.
-/

namespace DrepTalk

section Agree

variable {key : AwardKey} {tier : ℕ}

theorem justifies_grouped {α κ : Type*} [BEq κ] [LawfulBEq κ] {toKey : α → κ} {rows : List α}
    {f : κ × List α → List BadgeAward} {k : κ} {c : List α → ℕ} {n : ℕ}
    (hf : ∀ k' group, Justifies (f (k', group)) key tier ↔ k' = k ∧ n ≤ c group)
    (hnil : c [] = 0) (hn : 0 < n) :
    Justifies ((grouped toKey rows).flatMap f) key tier ↔
      n ≤ c (rows.filter fun a => toKey a == k) := by
  rw [justifies_flatMap, ← exists_grouped_iff hnil hn]
  exact exists_congr fun ⟨k', group⟩ => and_congr_right fun _ => hf k' group

theorem BadgeTiers.Rising.pos {tiers : BadgeTiers} (h : tiers.Rising) {threshold : ℕ}
    (ht : tiers.threshold tier = some threshold) : 0 < threshold := by
  obtain ⟨hbronze, hsilver, hgold⟩ := h
  rcases tier with _ | _ | _ | _ | tier <;> cases ht <;> omega

variable {subjectType : BadgeSubjectType} {subjectId badgeId : String}

@[simp]
theorem not_justifies_awardTiered {n : ℕ} (h : key ≠ ⟨subjectType, subjectId, badgeId⟩) :
    ¬Justifies (awardTiered subjectType subjectId badgeId n) key tier := by
  rintro ⟨a, ha, rfl, -⟩
  rw [awardTiered] at ha
  split at ha
  · cases ha
  · split_ifs at ha
    · exact h (List.mem_singleton.mp ha ▸ rfl)
    · cases ha

variable (db : BadgeDb) {drepId userId : String} {threshold : ℕ}

/-! ### Votes -/

theorem filter_roleVotes (drepId : String) :
    (db.votes.rows.filter confirmedVote).filter
        (fun v => (v.voterRole, v.voterId) == ("DRep", drepId)) = drepVotesOf db drepId := by
  rw [List.filter_filter, drepVotesOf]
  refine List.filter_congr fun v _ => ?_
  rw [Bool.eq_iff_iff]
  simp only [Bool.and_eq_true, beq_iff_eq, Prod.mk.injEq]
  tauto

theorem firstVote_agree (drepId : String) :
    Justifies (roleAwards db) ⟨.drep, drepId, "first-vote"⟩ 0 ↔
      1 ≤ (drepVotesOf db drepId).length := by
  rw [← filter_roleVotes]
  refine justifies_grouped (k := ("DRep", drepId)) (fun ⟨role, id⟩ votes => ?_) rfl one_pos
  dsimp only
  split_ifs with hdrep <;> simp [*, eq_comm, and_comm]

theorem activeVoice_agree (ht : (BadgeTiers.mk 10 50 150).threshold tier = some threshold) :
    Justifies (roleAwards db) ⟨.drep, drepId, "active-voice"⟩ tier ↔
      threshold ≤ (drepVotesOf db drepId).length := by
  have hrising : (BadgeTiers.mk 10 50 150).Rising := ⟨by decide, by decide, by decide⟩
  rw [← filter_roleVotes]
  refine justifies_grouped (k := ("DRep", drepId)) (fun ⟨role, id⟩ votes => ?_) rfl
    (hrising.pos ht)
  dsimp only
  split_ifs with hdrep <;>
    simp [*, eq_comm, justifies_awardTiered "active-voice" rfl hrising ht]

theorem showsTheWork_agree (ht : (BadgeTiers.mk 10 50 150).threshold tier = some threshold) :
    Justifies (roleAwards db) ⟨.drep, drepId, "shows-the-work"⟩ tier ↔
      threshold ≤ (drepVotesOf db drepId).countP hasAnchor := by
  have hrising : (BadgeTiers.mk 10 50 150).Rising := ⟨by decide, by decide, by decide⟩
  rw [← filter_roleVotes]
  refine justifies_grouped (k := ("DRep", drepId)) (fun ⟨role, id⟩ votes => ?_) rfl
    (hrising.pos ht)
  dsimp only
  split_ifs with hdrep <;>
    simp [*, eq_comm, justifies_awardTiered "shows-the-work" rfl hrising ht]

theorem roleSubject_drep {role : String} : roleSubject role = some .drep ↔ role = "DRep" := by
  unfold roleSubject
  split <;> simp_all

theorem filter_typesOf (v : VoteRow) (actions : List BadgeActionRow) (drepId : String) :
    (((actions.map fun g => (v, g)).filterMap fun (v, g) =>
      (roleSubject v.voterRole).map fun subject => ((subject, v.voterId), g.type)).filter
        fun row => row.1 == (BadgeSubjectType.drep, drepId)).map (·.2) =
      if v.voterId == drepId && v.voterRole == "DRep" then actions.map (·.type) else [] := by
  rw [List.filterMap_map]
  rcases hsubject : roleSubject v.voterRole with _ | subject
  · have hrole : v.voterRole ≠ "DRep" := fun h => by
      rw [roleSubject_drep.mpr h] at hsubject
      cases hsubject
    simp [hsubject, hrole]
  · have hrole : v.voterRole = "DRep" ↔ subject = .drep := by
      rw [← roleSubject_drep, hsubject, Option.some.injEq]
    by_cases hown : v.voterId = drepId ∧ subject = .drep
    · simp [hsubject, hrole, hown, List.filter_map, Function.comp_def]
    · have hkey : ((subject, v.voterId) == (BadgeSubjectType.drep, drepId)) = false :=
        beq_eq_false_iff_ne.mpr fun h => hown ⟨congrArg Prod.snd h, congrArg Prod.fst h⟩
      simp [hsubject, hrole, hown, hkey, List.filter_map, Function.comp_def]

theorem filter_votedTypes (drepId : String) :
    ((votedTypes db).filter fun row => row.1 == (BadgeSubjectType.drep, drepId)).map (·.2) =
      votedTypesOf db drepId := by
  rw [votedTypes, votedActions, votedTypesOf, drepVotesOf]
  generalize db.votes.rows = votes
  induction votes with
  | nil => rfl
  | cons v votes ih =>
    rw [List.filter_cons, List.filter_cons]
    rcases hconf : confirmedVote v with _ | _
    · simpa only [Bool.false_eq_true, if_false, Bool.and_false] using ih
    · rw [if_pos rfl, List.flatMap_cons, List.filterMap_append, List.filter_append,
        List.map_append, ih, filter_typesOf, Bool.and_true]
      split_ifs
      · rw [List.flatMap_cons]
      · rfl

theorem fullSpectrum_agree (drepId : String) :
    Justifies (typeAwards db) ⟨.drep, drepId, "full-spectrum"⟩ 0 ↔
      7 ≤ (votedTypesOf db drepId).dedup.length := by
  rw [← filter_votedTypes]
  refine justifies_grouped (k := (BadgeSubjectType.drep, drepId))
    (c := fun rows : List ((BadgeSubjectType × String) × String) =>
      (rows.map (·.2)).dedup.length) (fun ⟨subject, id⟩ rows => ?_) rfl (by decide)
  rcases subject with _ | _ | _ | _ | _ <;> simp [eq_comm, and_comm]

/-! ### Posts and topics -/

theorem filter_actionPosts (q : ForumPost → Bool) (posts : List ForumPost) :
    (actionPosts db posts).filter (fun row => q row.1) = actionPosts db (posts.filter q) := by
  induction posts with
  | nil => rfl
  | cons p posts ih =>
    rw [actionPosts, List.flatMap_cons, List.filter_append, ← actionPosts, ih, List.filter_map,
      List.filter_cons]
    rcases hq : q p with _ | _
    · simp [Function.comp_def, hq]
    · simp [Function.comp_def, hq, actionPosts]

section Forum

variable (huser : userId ≠ GOV_SYNC_AUTHOR)

include huser

theorem filter_memberPosts :
    (memberPosts db).filter (fun p => p.authorId == userId) = postsOf db userId := by
  rw [memberPosts, List.filter_filter, postsOf]
  refine List.filter_congr fun p _ => ?_
  rw [Bool.eq_iff_iff]
  simp only [Bool.and_eq_true, beq_iff_eq, bne_iff_ne]
  constructor
  · exact fun ⟨hauthor, _, hcount⟩ => ⟨hauthor, hcount⟩
  · exact fun ⟨hauthor, hcount⟩ => ⟨hauthor, hauthor.symm ▸ huser, hcount⟩

theorem helloGovernance_agree :
    Justifies (postAwards db) ⟨.user, userId, "hello-governance"⟩ 0 ↔
      1 ≤ (postsOf db userId).length := by
  rw [← filter_memberPosts db huser]
  exact justifies_grouped (fun id posts => by simp [eq_comm, and_comm]) rfl one_pos

theorem regular_agree (ht : (BadgeTiers.mk 10 50 250).threshold tier = some threshold) :
    Justifies (postAwards db) ⟨.user, userId, "regular"⟩ tier ↔
      threshold ≤ (postsOf db userId).length := by
  have hrising : (BadgeTiers.mk 10 50 250).Rising := ⟨by decide, by decide, by decide⟩
  rw [← filter_memberPosts db huser]
  exact justifies_grouped (fun id posts => by
    simp [eq_comm, justifies_awardTiered "regular" rfl hrising ht]) rfl
    (hrising.pos ht)

theorem wellSaid_agree (ht : (BadgeTiers.mk 10 50 200).threshold tier = some threshold) :
    Justifies (postAwards db) ⟨.user, userId, "well-said"⟩ tier ↔
      threshold ≤ ((postsOf db userId).map (·.upCount)).sum := by
  have hrising : (BadgeTiers.mk 10 50 200).Rising := ⟨by decide, by decide, by decide⟩
  rw [← filter_memberPosts db huser]
  refine justifies_grouped (k := userId)
    (c := fun posts : List ForumPost => (posts.map (·.upCount)).sum) (fun id posts => ?_) rfl
    (hrising.pos ht)
  simp [eq_comm, justifies_awardTiered "well-said" rfl hrising ht]

theorem crowdFavorite_agree :
    Justifies (postAwards db) ⟨.user, userId, "crowd-favorite"⟩ 0 ↔
      10 ≤ maxUpOf (postsOf db userId) := by
  rw [← filter_memberPosts db huser]
  exact justifies_grouped (fun id posts => by simp [eq_comm, and_comm]) rfl (by decide)

theorem onTheRecord_agree (ht : (BadgeTiers.mk 5 25 75).threshold tier = some threshold) :
    Justifies (recordAwards db) ⟨.user, userId, "on-the-record"⟩ tier ↔
      threshold ≤ ((actionPosts db (postsOf db userId)).map (·.1.topicId)).dedup.length := by
  have hrising : (BadgeTiers.mk 5 25 75).Rising := ⟨by decide, by decide, by decide⟩
  rw [← filter_memberPosts db huser, ← filter_actionPosts, recordAwards]
  refine justifies_grouped (k := userId) (c := fun rows : List (ForumPost × BadgeActionRow) =>
      (rows.map (·.1.topicId)).dedup.length)
    (fun id rows => ?_) rfl (hrising.pos ht)
  simp [eq_comm, justifies_awardTiered "on-the-record" rfl hrising ht]

end Forum

theorem openingMove_agree (userId : String) :
    Justifies (topicAwards db) ⟨.user, userId, "opening-move"⟩ 0 ↔
      1 ≤ (topicsOf db userId).length := by
  have htopics : (userTopics db).filter (fun t => t.authorId == userId) = topicsOf db userId := by
    rw [userTopics, List.filter_filter, topicsOf]
    exact List.filter_congr fun t _ => by simp only [Bool.and_assoc]
  rw [← htopics, topicAwards]
  exact justifies_grouped (k := userId) (fun id topics => by simp [eq_comm, and_comm]) rfl one_pos

/-! ### Forum and chain -/

/-- No DRep id belongs to two accounts. -/
def UniqueDreps (db : BadgeDb) : Prop :=
  ∀ u ∈ db.users.rows, ∀ u' ∈ db.users.rows, ∀ drepId, u.drepId = some drepId →
    u'.drepId = some drepId → u = u'

theorem crossVotes_drepId {p : ForumPost} {r : CrossRow} (h : r ∈ crossVotes db drepId p) :
    r.drepId = drepId := by
  obtain ⟨g, -, hr⟩ := List.mem_flatMap.mp h
  obtain ⟨v, -, rfl⟩ := List.mem_map.mp hr
  rfl

theorem filter_postRows (hunique : UniqueDreps db) {u : BadgeUserRow} (hu : u ∈ db.users.rows)
    (hdrep : u.drepId = some drepId) (p : ForumPost) :
    ((db.users.rows.filter fun u' => u'.id == p.authorId).flatMap fun u' =>
      match u'.drepId with
      | none => []
      | some drepId => crossVotes db drepId p).filter (fun r => r.drepId == drepId) =
        if p.authorId == u.id then crossVotes db drepId p else [] := by
  by_cases hauthor : p.authorId = u.id
  · have hrow : db.users.rows.filter (fun u' => u'.id == p.authorId) = [u] := by
      rw [hauthor, ← db.users.filter_key hu]
      exact List.filter_congr fun u' _ => (Bool.beq_eq_decide_eq _ _)
    rw [hrow, if_pos (beq_iff_eq.mpr hauthor), List.flatMap_singleton, hdrep]
    exact List.filter_eq_self.mpr fun r hr => beq_iff_eq.mpr (crossVotes_drepId db hr)
  · rw [if_neg (by simpa using hauthor), List.filter_eq_nil_iff]
    intro r hr hown
    obtain ⟨u', hu', hr⟩ := List.mem_flatMap.mp hr
    obtain ⟨hu', hid⟩ := List.mem_filter.mp hu'
    rcases hdrep' : u'.drepId with _ | drepId'
    · rw [hdrep'] at hr
      cases hr
    · rw [hdrep'] at hr
      -- the row's DRep is that of `u'`, who then is the account itself
      have heq : drepId' = drepId := (crossVotes_drepId db hr).symm.trans (beq_iff_eq.mp hown)
      obtain rfl := hunique u' hu' u hu drepId (heq ▸ hdrep') hdrep
      exact hauthor (beq_iff_eq.mp hid).symm

theorem flatMap_if {α β : Type*} (p q : α → Bool) (f : α → List β) (l : List α) :
    ((l.filter q).flatMap fun x => if p x then f x else []) =
      (l.filter fun x => p x && q x).flatMap f := by
  induction l with
  | nil => rfl
  | cons x l ih =>
    rw [List.filter_cons, List.filter_cons]
    rcases hq : q x with _ | _
    · simpa only [Bool.and_false, Bool.false_eq_true, if_false] using ih
    · rw [if_pos rfl, List.flatMap_cons, ih, Bool.and_true]
      split_ifs
      · rw [List.flatMap_cons]
      · rfl

theorem filter_crossRows (hunique : UniqueDreps db) {u : BadgeUserRow} (hu : u ∈ db.users.rows)
    (hdrep : u.drepId = some drepId) :
    (crossRows db).filter (fun r => r.drepId == drepId) =
      (postsOf db u.id).flatMap (crossVotes db drepId) := by
  rw [crossRows, List.filter_flatMap]
  exact (List.flatMap_congr fun p _ => filter_postRows db hunique hu hdrep p).trans
    (flatMap_if (fun p => p.authorId == u.id) countablePost (crossVotes db drepId) db.posts.rows)

theorem filter_crossGroups (hunique : UniqueDreps db) {u : BadgeUserRow} (hu : u ∈ db.users.rows)
    (hdrep : u.drepId = some drepId) :
    ((grouped (fun r => (r.drepId, r.gaId, r.blockTime)) (crossRows db)).map
      fun ((drepId, _, blockTime), rows) => crossGroup drepId blockTime rows).filter
        (fun group => group.drepId == drepId) = crossGroupsOf db drepId u.id := by
  have hkey : ∀ r ∈ (crossRows db).filter (fun r => r.drepId == drepId),
      (r.drepId, r.gaId, r.blockTime) = (drepId, r.gaId, r.blockTime) := by
    intro r hr
    rw [beq_iff_eq.mp (List.mem_filter.mp hr).2]
  have hinj : Function.Injective fun k : String × Option ℤ => (drepId, k) :=
    fun k k' h => congrArg Prod.snd h
  calc ((grouped (fun r => (r.drepId, r.gaId, r.blockTime)) (crossRows db)).map
        fun ((drepId, _, blockTime), rows) => crossGroup drepId blockTime rows).filter
          (fun group => group.drepId == drepId)
      = ((grouped (fun r : CrossRow => (r.drepId, r.gaId, r.blockTime)) (crossRows db)).filter
          fun entry => entry.1.1 == drepId).map
            fun ((drepId, _, blockTime), rows) => crossGroup drepId blockTime rows := by
        rw [List.filter_map]
        rfl
    _ = (grouped (fun r : CrossRow => (r.drepId, r.gaId, r.blockTime))
          ((crossRows db).filter fun r => r.drepId == drepId)).map
            fun ((drepId, _, blockTime), rows) => crossGroup drepId blockTime rows := by
        exact congrArg _ (filter_grouped (fun r : CrossRow => (r.drepId, r.gaId, r.blockTime))
          (fun k => k.1 == drepId) (crossRows db))
    _ = (grouped (fun r : CrossRow => (drepId, r.gaId, r.blockTime))
          ((crossRows db).filter fun r => r.drepId == drepId)).map
            fun ((drepId, _, blockTime), rows) => crossGroup drepId blockTime rows := by
        rw [grouped_congr hkey]
    _ = crossGroupsOf db drepId u.id := by
        have hcomp := grouped_comp hinj (fun r : CrossRow => (r.gaId, r.blockTime))
          ((postsOf db u.id).flatMap (crossVotes db drepId))
        rw [filter_crossRows db hunique hu hdrep, hcomp, List.map_map, crossGroupsOf]
        rfl

section Cross

variable (hunique : UniqueDreps db) {u : BadgeUserRow} (hu : u ∈ db.users.rows)
  (hdrep : u.drepId = some drepId)

include hunique hu hdrep

theorem saysAndDoes_agree (ht : (BadgeTiers.mk 5 25 75).threshold tier = some threshold) :
    Justifies (crossAwards db) ⟨.drep, drepId, "says-and-does"⟩ tier ↔
      threshold ≤ (crossGroupsOf db drepId u.id).length := by
  have hrising : (BadgeTiers.mk 5 25 75).Rising := ⟨by decide, by decide, by decide⟩
  rw [← filter_crossGroups db hunique hu hdrep, crossAwards]
  refine justifies_grouped (k := drepId) (fun id groups => ?_) rfl (hrising.pos ht)
  simp [eq_comm, justifies_awardTiered "says-and-does" rfl hrising ht]

theorem openBook_agree :
    Justifies (crossAwards db) ⟨.drep, drepId, "open-book"⟩ 0 ↔
      10 ≤ (crossGroupsOf db drepId u.id).countP (·.rationale) := by
  rw [← filter_crossGroups db hunique hu hdrep, crossAwards]
  refine justifies_grouped (k := drepId) (fun id groups => ?_) rfl (by decide)
  simp [eq_comm, and_comm]

theorem deliberator_agree :
    Justifies (crossAwards db) ⟨.drep, drepId, "deliberator"⟩ 0 ↔
      10 ≤ (crossGroupsOf db drepId u.id).countP (·.deliberated) := by
  rw [← filter_crossGroups db hunique hu hdrep, crossAwards]
  refine justifies_grouped (k := drepId) (fun id groups => ?_) rfl (by decide)
  simp [eq_comm, and_comm]

end Cross

end Agree

/-! ### The badges with a counter -/

def liveBadges : List Badge :=
  [.single "first-vote" .drep none,
    .tiered "active-voice" .drep 10 50 150,
    .tiered "shows-the-work" .drep 10 50 150,
    .single "full-spectrum" .drep (some 7),
    .single "hello-governance" .forum none,
    .single "opening-move" .forum none,
    .tiered "regular" .forum 10 50 250,
    .tiered "well-said" .forum 10 50 200,
    .single "crowd-favorite" .forum (some 10),
    .tiered "on-the-record" .forum 5 25 75,
    .tiered "says-and-does" .crossover 5 25 75,
    .single "open-book" .crossover (some 10),
    .single "deliberator" .crossover (some 10)]

theorem filter_badges : BADGES.filter (fun b => (CURRENT.lookup b.id).isSome) = liveBadges := rfl

theorem threshold_single {id : String} {category : BadgeCategory} {goal : Option ℕ}
    {tier threshold : ℕ} (ht : (Badge.single id category goal).threshold tier = some threshold) :
    tier = 0 ∧ threshold = goal.getD 1 := by
  change (if tier = 0 then some (goal.getD 1) else none) = some threshold at ht
  split_ifs at ht with htier
  cases ht
  exact ⟨htier, rfl⟩

section Desired

variable (db : BadgeDb) (cfg : BadgeNetwork) (now : ℤ)

theorem justifies_desired (i : ℕ) {own : List String} {part : List BadgeAward}
    (hown : partIds[i]? = some own)
    (hpart : [roleAwards db, typeAwards db, loneAwards db, timingAwards db cfg,
      registryAwards db cfg now, ironStreakAwards db, proposerAwards db, postAwards db,
      topicAwards db, sparkedAwards db, forumStreakAwards db cfg, recordAwards db,
      necromancerAwards db, centuryAwards db, boundaryAwards db cfg, crownAwards db,
      crossAwards db][i]? = some part) (hbadge : badgeId ∈ own) (tier : ℕ) :
    Justifies (computeDesiredAwards db cfg now) ⟨subjectType, subjectId, badgeId⟩ tier ↔
      Justifies part ⟨subjectType, subjectId, badgeId⟩ tier :=
  justifies_flatten (parts_of db cfg now) partIds_disjoint hown hpart hbadge tier

theorem loadBadgeCounters_account (drepId : String) (u : BadgeUserRow) :
    loadBadgeCounters db drepId (some u.id) =
      { votes := (drepVotesOf db drepId).length
        rationale := (drepVotesOf db drepId).countP hasAnchor
        types := (votedTypesOf db drepId).dedup.length
        cross := (crossGroupsOf db drepId u.id).length
        crossRationale := (crossGroupsOf db drepId u.id).countP (·.rationale)
        crossDeliberated := (crossGroupsOf db drepId u.id).countP (·.deliberated)
        posts := (postsOf db u.id).length
        ups := ((postsOf db u.id).map (·.upCount)).sum
        maxUp := maxUpOf (postsOf db u.id)
        topics := (topicsOf db u.id).length
        govTopics := ((actionPosts db (postsOf db u.id)).map (·.1.topicId)).dedup.length } := by
  have haccount : (some u.id).filter (· != "") = some u.id := by
    simp [Option.filter, u.id_ne]
  rw [loadBadgeCounters, haccount]
  rfl

/-- A badge with a counter is justified exactly when the counter reaches its threshold, which is
when its progress bar is full. -/
theorem counters_agree (hunique : UniqueDreps db) {u : BadgeUserRow} (hu : u ∈ db.users.rows)
    {drepId : String} (hdrep : u.drepId = some drepId) (hsync : u.id ≠ GOV_SYNC_AUTHOR)
    {badge : Badge} (hbadge : badge ∈ BADGES) {current : BadgeCounters → ℕ}
    (hcurrent : CURRENT.lookup badge.id = some current) {tier threshold : ℕ}
    (ht : badge.threshold tier = some threshold) :
    (Justifies (computeDesiredAwards db cfg now) (badgeSubject badge drepId u.id) tier ↔
        threshold ≤ current (loadBadgeCounters db drepId (some u.id))) ∧
      ∀ earnedTier, goalFor badge earnedTier = some threshold →
        (progressFor badge earnedTier (loadBadgeCounters db drepId (some u.id)) =
            some ⟨threshold, threshold⟩ ↔
          Justifies (computeDesiredAwards db cfg now) (badgeSubject badge drepId u.id) tier) := by
  have hagree : Justifies (computeDesiredAwards db cfg now) (badgeSubject badge drepId u.id) tier ↔
      threshold ≤ current (loadBadgeCounters db drepId (some u.id)) := by
    have hlive : badge ∈ liveBadges := by
      rw [← filter_badges, List.mem_filter, hcurrent]
      exact ⟨hbadge, rfl⟩
    rw [loadBadgeCounters_account]
    simp only [liveBadges, List.mem_cons, List.not_mem_nil, or_false] at hlive
    rcases hlive with rfl | rfl | rfl | rfl | rfl | rfl | rfl | rfl | rfl | rfl | rfl | rfl | rfl
    all_goals cases hcurrent
    · obtain ⟨rfl, rfl⟩ := threshold_single ht
      exact (justifies_desired db cfg now 0 rfl rfl (by decide) 0).trans
        (firstVote_agree db drepId)
    · exact (justifies_desired db cfg now 0 rfl rfl (by decide) tier).trans
        (activeVoice_agree db ht)
    · exact (justifies_desired db cfg now 0 rfl rfl (by decide) tier).trans
        (showsTheWork_agree db ht)
    · obtain ⟨rfl, rfl⟩ := threshold_single ht
      exact (justifies_desired db cfg now 1 rfl rfl (by decide) 0).trans
        (fullSpectrum_agree db drepId)
    · obtain ⟨rfl, rfl⟩ := threshold_single ht
      exact (justifies_desired db cfg now 7 rfl rfl (by decide) 0).trans
        (helloGovernance_agree db hsync)
    · obtain ⟨rfl, rfl⟩ := threshold_single ht
      exact (justifies_desired db cfg now 8 rfl rfl (by decide) 0).trans
        (openingMove_agree db u.id)
    · exact (justifies_desired db cfg now 7 rfl rfl (by decide) tier).trans
        (regular_agree db hsync ht)
    · exact (justifies_desired db cfg now 7 rfl rfl (by decide) tier).trans
        (wellSaid_agree db hsync ht)
    · obtain ⟨rfl, rfl⟩ := threshold_single ht
      exact (justifies_desired db cfg now 7 rfl rfl (by decide) 0).trans
        (crowdFavorite_agree db hsync)
    · exact (justifies_desired db cfg now 11 rfl rfl (by decide) tier).trans
        (onTheRecord_agree db hsync ht)
    · exact (justifies_desired db cfg now 16 rfl rfl (by decide) tier).trans
        (saysAndDoes_agree db hunique hu hdrep ht)
    · obtain ⟨rfl, rfl⟩ := threshold_single ht
      exact (justifies_desired db cfg now 16 rfl rfl (by decide) 0).trans
        (openBook_agree db hunique hu hdrep)
    · obtain ⟨rfl, rfl⟩ := threshold_single ht
      exact (justifies_desired db cfg now 16 rfl rfl (by decide) 0).trans
        (deliberator_agree db hunique hu hdrep)
  refine ⟨hagree, fun earnedTier hgoal => ?_⟩
  rw [hagree, progressFor, hcurrent, hgoal]
  simp

/-- A DRep with an account and one vote. -/
def votedOnce : BadgeDb where
  votes := ⟨[⟨"ga1", "DRep", "drep1", none, "Yes", none, none, some 5, 0, none, none, none⟩],
    List.nodup_singleton _⟩
  actions := ⟨[⟨"ga1", "InfoAction", "active", some "t1", none, none, none, none, none, none⟩],
    List.nodup_singleton _⟩
  posts := .empty
  topics := .empty
  users := ⟨[⟨"u1", some "drep1", true, false, false, false, by decide⟩], List.nodup_singleton _⟩
  dreps := .empty

/-- The first vote earns its badge: the counter is at 1. -/
theorem counters_agree_votedOnce :
    Justifies (computeDesiredAwards votedOnce mainnet 0) ⟨.drep, "drep1", "first-vote"⟩ 0 := by
  have hunique : UniqueDreps votedOnce := fun u hu u' hu' _ _ _ =>
    (List.mem_singleton.mp hu).trans (List.mem_singleton.mp hu').symm
  exact (counters_agree votedOnce mainnet 0 hunique List.mem_cons_self rfl (by decide)
    List.mem_cons_self rfl rfl).1.mpr (by decide)

end Desired

end DrepTalk
