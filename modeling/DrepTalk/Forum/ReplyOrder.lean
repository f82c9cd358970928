import DrepTalk.Forum.ReplyTree
import DrepTalk.Library.ForestWalk

/-!
# The order of replies

What the thread view relies on in `buildReplyTree` (`src/lib/forum/replyTree.ts`), beyond that every
reply comes once. The list it returns is the depth-first walk through the forest of the replies
(`forestWalk_of_walkReplies`), so that a reply stands behind the one it answers, within the block of
that one's replies and one level deeper; and replies to one post stand in the order they came in.

An empty `reply_to_post_id` counts as none here, whether or not some reply has an empty id.
-/

namespace DrepTalk

variable {P : Type*} {id : P → String} {replyToPostId : P → Option String} {replies : List P}

/-- The one reply names the other, by an id that is not empty. -/
def NamesTarget (id : P → String) (replyToPostId : P → Option String) (replies : List P) (p q : P) :
    Prop :=
  p ∈ replies ∧ q ∈ replies ∧ id q ≠ "" ∧ replyToPostId p = some (id q)

theorem replyTarget_eq_some {p q : P} (hq : q ∈ replies) :
    replyTarget id replyToPostId replies p = some (id q) ↔
      id q ≠ "" ∧ replyToPostId p = some (id q) := by
  have hsome : (replyById id replies (id q)).isSome = true := replyById_isSome.mpr ⟨q, hq, rfl⟩
  rw [replyTarget, Option.filter_eq_some_iff, hsome, Bool.and_true, bne_iff_ne, and_comm]

theorem answersReply_eq : AnswersReply id replyToPostId replies =
    NamesTarget id replyToPostId replies := by
  funext p q
  refine propext (and_congr_right fun _ => and_congr_right fun hq => ?_)
  exact replyTarget_eq_some hq

/-- The replies to a reply, in the order they came in. -/
def repliesOf (id : P → String) (replyToPostId : P → Option String) (replies : List P) (q : P) :
    List P :=
  replies.filter fun p => replyTarget id replyToPostId replies p == some (id q)

theorem mem_repliesOf {p q : P} (hq : q ∈ replies) :
    p ∈ repliesOf id replyToPostId replies q ↔ AnswersReply id replyToPostId replies p q := by
  rw [repliesOf, List.mem_filter, beq_iff_eq, AnswersReply, and_iff_right hq]

def replyNode (v : Visit P) : ReplyNode P := ⟨v.node, v.depth, v.parent⟩

theorem replyById_eq (hid : (replies.map id).Nodup) {q : P} (hq : q ∈ replies) :
    replyById id replies (id q) = some q := by
  obtain ⟨q', hq'⟩ := Option.isSome_iff_exists.mp (replyById_isSome.mpr ⟨q, hq, rfl⟩)
  have hmem := List.mem_of_getLast? hq'
  rw [List.mem_filter, beq_iff_eq] at hmem
  rw [hq', List.inj_on_of_nodup_map hid hmem.1 hq hmem.2]

theorem parent_of_key (hid : (replies.map id).Nodup) {parent : Option P} {p : P}
    (hparent : ∀ q ∈ parent, q ∈ replies)
    (hp : replyTarget id replyToPostId replies p = parent.map id) :
    ((parent.map id).filter (· != "")).bind (replyById id replies) = parent := by
  cases parent with
  | none => rfl
  | some q =>
    have hq := hparent q rfl
    have hne := ((replyTarget_eq_some hq).mp hp).1
    rw [Option.map_some, Option.filter_some, if_pos (bne_iff_ne.mpr hne), Option.bind_some,
      replyById_eq hid hq]

/-- **The walk is depth-first**: what it puts out for a post is the walk through its replies. -/
theorem forestWalk_of_walkReplies (hid : (replies.map id).Nodup) (fuel : ℕ) {parent : Option P}
    {depth : ℕ} {out res : List (ReplyNode P)} (hparent : ∀ q ∈ parent, q ∈ replies)
    (h : walkReplies id replyToPostId replies fuel (parent.map id) depth out = some res) :
    ∃ visits, res = out ++ visits.map replyNode ∧
      ForestWalk (repliesOf id replyToPostId replies) parent depth
        (replies.filter fun p => replyTarget id replyToPostId replies p == parent.map id)
        visits := by
  induction fuel generalizing parent depth out res with
  | zero => exact nomatch h
  | succ fuel ih =>
    rw [walkReplies, getD_lookup_childrenOf] at h
    have hmem : ∀ c ∈ replies.filter (fun p => replyTarget id replyToPostId replies p ==
        parent.map id), c ∈ replies ∧ replyTarget id replyToPostId replies c = parent.map id :=
      fun c hc => (List.mem_filter.mp hc).imp_right beq_iff_eq.mp
    generalize replies.filter (fun p => replyTarget id replyToPostId replies p == parent.map id) =
      siblings at h hmem ⊢
    induction siblings generalizing out with
    | nil =>
      refine ⟨[], ?_, .nil⟩
      rw [List.map_nil, List.append_nil]
      exact (Option.some.inj h).symm
    | cons c siblings ihs =>
      obtain ⟨hc, hkey⟩ := hmem c List.mem_cons_self
      rw [List.foldlM_cons] at h
      obtain ⟨mid, hwalk, hrest⟩ := Option.bind_eq_some_iff.mp h
      rw [parent_of_key hid hparent hkey] at hwalk
      have hc' : ∀ q ∈ some c, q ∈ replies := fun q hq => Option.some.inj hq ▸ hc
      obtain ⟨below, rfl, hbelow⟩ := ih hc' hwalk
      obtain ⟨rest, rfl, hwalkrest⟩ := ihs hrest fun p hp => hmem p (List.mem_cons_of_mem c hp)
      exact ⟨⟨c, depth, parent⟩ :: (below ++ rest), by simp [replyNode], .cons hbelow hwalkrest⟩

theorem exists_rank (hacyclic : ∀ p, ¬Relation.TransGen
    (AnswersReply id replyToPostId replies) p p) :
    ∃ rank : P → ℕ, ∀ p q, AnswersReply id replyToPostId replies p q → rank q < rank p := by
  classical
  refine ⟨fun p => replies.countP fun q =>
    decide (Relation.TransGen (AnswersReply id replyToPostId replies) p q), fun p q h => ?_⟩
  refine countP_lt_countP (fun a _ ha => ?_) h.2.1 (decide_eq_false (hacyclic q))
    (decide_eq_true (.single h))
  exact decide_eq_true ((of_decide_eq_true ha).head h)

theorem below_iff_transGen {p q : P} (hq : q ∈ replies) :
    (∃ c ∈ repliesOf id replyToPostId replies q, Relation.ReflTransGen
      (fun y z => y ∈ repliesOf id replyToPostId replies z) p c) ↔
      Relation.TransGen (AnswersReply id replyToPostId replies) p q := by
  have hup {c : P} (hc : c ∈ replies) (h : Relation.ReflTransGen
      (fun y z => y ∈ repliesOf id replyToPostId replies z) p c) :
      Relation.ReflTransGen (AnswersReply id replyToPostId replies) p c := by
    induction h with
    | refl => exact .refl
    | tail _ hlast ih => exact (ih (List.mem_filter.mp hlast).1).tail ((mem_repliesOf hc).mp hlast)
  rw [Relation.TransGen.tail'_iff]
  constructor
  · rintro ⟨c, hc, hp⟩
    exact ⟨c, hup (List.mem_filter.mp hc).1 hp, (mem_repliesOf hq).mp hc⟩
  · rintro ⟨c, hp, hc⟩
    exact ⟨c, (mem_repliesOf hq).mpr hc,
      Relation.ReflTransGen.mono (fun y z h => (mem_repliesOf h.2.1).mpr h) _ _ hp⟩

section Order

variable {visits : List (Visit P)}

theorem filter_target_eq (hperm : (visits.map (·.node)).Perm replies)
    (hwalk : ForestWalk (repliesOf id replyToPostId replies) none 1
      (replies.filter fun p => replyTarget id replyToPostId replies p == none) visits)
    (t : Option String) :
    (visits.map (·.node)).filter (fun p => replyTarget id replyToPostId replies p == t) =
      replies.filter fun p => replyTarget id replyToPostId replies p == t := by
  have hsub : (replies.filter fun p => replyTarget id replyToPostId replies p == t).Sublist
      (visits.map (·.node)) := by
    cases t with
    | none => exact hwalk.sublist_siblings
    | some t =>
      by_cases ht : ∃ q ∈ replies, id q = t
      · obtain ⟨q, hq, rfl⟩ := ht
        obtain ⟨v, hv, rfl⟩ := List.mem_map.mp (hperm.mem_iff.mpr hq)
        exact hwalk.sublist_children hv
      · -- nothing is listed under an id that is not there
        rw [List.filter_eq_nil_iff.mpr fun p hp hkey => ?_]
        · exact List.nil_sublist _
        · rcases replyTarget_cases id replyToPostId hp with htop | ⟨q, -, hq, htarget⟩
          · exact absurd (htop.symm.trans (beq_iff_eq.mp hkey)).symm (Option.some_ne_none t)
          · exact ht ⟨q, hq, Option.some.inj (htarget.symm.trans (beq_iff_eq.mp hkey))⟩
  have hfilter := hsub.filter fun p => replyTarget id replyToPostId replies p == t
  rw [List.filter_filter, List.filter_congr fun p _ => Bool.and_self _] at hfilter
  exact (hfilter.eq_of_length (hperm.filter _).length_eq.symm).symm

theorem depth_of_visit (hid : (replies.map id).Nodup)
    (hwalk : ForestWalk (repliesOf id replyToPostId replies) none 1
      (replies.filter fun p => replyTarget id replyToPostId replies p == none) visits)
    (hmem : ∀ v ∈ visits, v.node ∈ replies) {v : Visit P} (hv : v ∈ visits) :
    ((∀ q, ¬AnswersReply id replyToPostId replies v.node q) → v.depth = 1 ∧ v.parent = none) ∧
      ∀ q, AnswersReply id replyToPostId replies v.node q → v.parent = some q ∧
        ∃ u ∈ visits, u.node = q ∧ v.depth = u.depth + 1 := by
  rcases hwalk.depth_or_parent hv with ⟨hsibling, hdepth, hparent⟩ | ⟨u, hu, hchild, hdepth,
    hparent⟩
  · have htop := beq_iff_eq.mp (List.mem_filter.mp hsibling).2
    refine ⟨fun _ => ⟨hdepth, hparent⟩, fun q hq => ?_⟩
    exact absurd (htop.symm.trans hq.2.2).symm (Option.some_ne_none _)
  · have hanswers := (mem_repliesOf (hmem u hu)).mp hchild
    refine ⟨fun hnone => absurd hanswers (hnone _), fun q hq => ?_⟩
    obtain rfl := answersReply_unique hid hanswers hq
    exact ⟨hparent, u, hu, rfl, hdepth⟩

end Order

/-- **The tree in order.** Each reply comes once; behind it stand, in one block, those that answer
it, one level below; and replies with one target stand in the order they came in. -/
theorem buildReplyTree_order (hid : (replies.map id).Nodup)
    (hacyclic : ∀ p, ¬Relation.TransGen (NamesTarget id replyToPostId replies) p p) :
    ∃ nodes, buildReplyTree id replyToPostId replies = some nodes ∧
      (nodes.map (·.post)).Perm replies ∧
      (∀ node ∈ nodes,
        (∃ front block back, nodes = front ++ node :: (block ++ back) ∧ ∀ p, p ∈ block.map
          (·.post) ↔
          Relation.TransGen (NamesTarget id replyToPostId replies) p node.post) ∧
        ((∀ q, ¬NamesTarget id replyToPostId replies node.post q) →
          node.depth = 1 ∧ node.replyTo = none) ∧
        ∀ q, NamesTarget id replyToPostId replies node.post q → node.replyTo = some q ∧
          ∃ target ∈ nodes, target.post = q ∧ node.depth = target.depth + 1) ∧
      ∀ t, (nodes.map (·.post)).filter (fun p => replyTarget id replyToPostId replies p == t) =
        replies.filter fun p => replyTarget id replyToPostId replies p == t := by
  rw [← answersReply_eq] at hacyclic ⊢
  obtain ⟨rank, hrank⟩ := exists_rank hacyclic
  obtain ⟨nodes, hbuild, hperm⟩ := buildReplyTree_perm hid hrank
  obtain ⟨visits, rfl, hwalk⟩ := forestWalk_of_walkReplies hid (replies.length + 1)
    (fun q hq => absurd hq.symm (Option.some_ne_none q)) hbuild
  rw [List.nil_append] at hbuild hperm
  have hposts : (visits.map replyNode).map (·.post) = visits.map (·.node) := List.map_map ..
  have hmem : ∀ v ∈ visits, v.node ∈ replies := fun v hv =>
    hperm.mem_iff.mp (hposts ▸ List.mem_map_of_mem hv)
  refine ⟨visits.map replyNode, hbuild, hperm, fun node hnode => ?_, fun t => ?_⟩
  · obtain ⟨v, hv, rfl⟩ := List.mem_map.mp hnode
    obtain ⟨hfree, hanswers⟩ := depth_of_visit hid hwalk hmem hv
    refine ⟨?_, hfree, fun q hq => ?_⟩
    · obtain ⟨front, block, back, hsplit, hblock⟩ := hwalk.exists_block hv
      refine ⟨front.map replyNode, block.map replyNode, back.map replyNode, by simp [hsplit],
        fun p => ?_⟩
      rw [List.map_map]
      exact hblock.mem_nodes.trans (below_iff_transGen (hmem v hv))
    · obtain ⟨hparent, u, hu, hnode, hdepth⟩ := hanswers q hq
      exact ⟨hparent, replyNode u, List.mem_map_of_mem hu, hnode, hdepth⟩
  · rw [hposts]
    exact filter_target_eq (hposts ▸ hperm) hwalk t

theorem acyclic_of_rank {r : P → P → Prop} (rank : P → ℕ) (h : ∀ p q, r p q → rank q < rank p)
    (p : P) : ¬Relation.TransGen r p p := by
  have hlt {q : P} (hq : Relation.TransGen r p q) : rank q < rank p := by
    induction hq with
    | single hq => exact h _ _ hq
    | tail _ hlast ih => exact (h _ _ hlast).trans ih
  exact fun hp => absurd (hlt hp) (lt_irrefl _)

def sampleReplies : List (String × Option String) := [("b", some "a"), ("a", some "top")]

theorem buildReplyTree_order_sample : ∃ nodes,
    buildReplyTree Prod.fst Prod.snd sampleReplies = some nodes ∧
      (nodes.map (·.post)).Perm sampleReplies := by
  have hacyclic := acyclic_of_rank (fun p : String × Option String => if p.1 = "b" then 1 else 0)
    (r := NamesTarget Prod.fst Prod.snd sampleReplies) <| by
      rintro p q ⟨hp, hq, -, hlink⟩
      simp only [sampleReplies, List.mem_cons, List.not_mem_nil, or_false] at hp hq
      rcases hp with rfl | rfl <;> rcases hq with rfl | rfl <;> simp_all
  obtain ⟨nodes, hbuild, hperm, -, -⟩ := buildReplyTree_order (by decide) hacyclic
  exact ⟨nodes, hbuild, hperm⟩

/-- Where a reply has the empty id, one that names it is not put below it. -/
theorem not_buildReplyTree_order : ¬∀ replies : List (String × Option String),
    (replies.map Prod.fst).Nodup →
    (∀ p, ¬Relation.TransGen (fun p q => p ∈ replies ∧ q ∈ replies ∧ p.2 = some q.1) p p) →
    ∃ nodes, buildReplyTree Prod.fst Prod.snd replies = some nodes ∧
      ∀ node ∈ nodes, ∀ q ∈ replies, node.post.2 = some q.1 → node.replyTo = some q := by
  intro h
  have hacyclic := acyclic_of_rank (fun p : String × Option String => if p.1 = "b" then 1 else 0)
    (r := fun p q => p ∈ [("", none), ("b", some "")] ∧ q ∈ [("", none), ("b", some "")] ∧
      p.2 = some q.1) <| by
      rintro p q ⟨hp, hq, hlink⟩
      simp only [List.mem_cons, List.not_mem_nil, or_false] at hp hq
      rcases hp with rfl | rfl <;> rcases hq with rfl | rfl <;> simp_all
  obtain ⟨nodes, hbuild, hnodes⟩ := h [("", none), ("b", some "")] (by decide) hacyclic
  have hflat : buildReplyTree Prod.fst Prod.snd [("", none), ("b", some "")] =
      some [⟨("", none), 1, none⟩, ⟨("b", some ""), 1, none⟩] := by decide
  cases hflat.symm.trans hbuild
  cases hnodes ⟨("b", some ""), 1, none⟩ (by simp) ("", none) (by simp) rfl

end DrepTalk
