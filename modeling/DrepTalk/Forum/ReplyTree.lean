import DrepTalk.Library.Counting
import DrepTalk.Library.Grouped

/-!
# The tree of replies

`src/lib/forum/replyTree.ts`: the replies to one top-level post, a flat list, put in depth-first
order by the posts that they answer.

**Every reply once** (`buildReplyTree_perm`). The walk comes to each reply from the one that it
answers; it comes to all of them, and ends, because a reply has a higher rank than what it answers.
Two branches never meet, as a reply answers one post.

The walk has `fuel`, for the levels it may still go down. A list of replies has no more levels than
replies.
-/

namespace DrepTalk

structure ReplyNode (P : Type*) where
  post : P
  depth : ℕ
  replyTo : Option P
  deriving DecidableEq

section

variable {P : Type*} (id : P → String) (replyToPostId : P → Option String)

/-- `byId.get`: of posts with one id, the last. -/
def replyById (replies : List P) (postId : String) : Option P :=
  (replies.filter fun p => id p == postId).getLast?

/-- What a reply is listed under: the reply that it answers, or the top-level post. -/
def replyTarget (replies : List P) (p : P) : Option String :=
  (replyToPostId p).filter fun t => t != "" && (replyById id replies t).isSome

def childrenOf (replies : List P) : List (Option String × List P) :=
  grouped (replyTarget id replyToPostId replies) replies

/-- `walk`, with what has been put out so far. -/
def walkReplies (replies : List P) : ℕ → Option String → ℕ → List (ReplyNode P) →
    Option (List (ReplyNode P))
  | 0, _, _, _ => none
  | fuel + 1, parentId, depth, out =>
    (((childrenOf id replyToPostId replies).lookup parentId).getD []).foldlM
      (fun out post => walkReplies replies fuel (some (id post)) (depth + 1)
        (out ++ [⟨post, depth, (parentId.filter (· != "")).bind (replyById id replies)⟩])) out

def buildReplyTree (replies : List P) : Option (List (ReplyNode P)) :=
  walkReplies id replyToPostId replies (replies.length + 1) none 1 []

end

variable {P : Type*} {id : P → String} {replyToPostId : P → Option String} {replies : List P}

def AnswersReply (id : P → String) (replyToPostId : P → Option String) (replies : List P)
    (p q : P) : Prop :=
  p ∈ replies ∧ q ∈ replies ∧ replyTarget id replyToPostId replies p = some (id q)

theorem replyById_isSome {postId : String} :
    (replyById id replies postId).isSome = true ↔ ∃ q ∈ replies, id q = postId := by
  rw [replyById, List.getLast?_isSome, ne_eq, List.filter_eq_nil_iff]
  simp

variable (id replyToPostId) in
theorem replyTarget_cases {p : P} (hp : p ∈ replies) :
    replyTarget id replyToPostId replies p = none ∨
      ∃ q, AnswersReply id replyToPostId replies p q := by
  rcases htarget : replyTarget id replyToPostId replies p with _ | t
  · exact .inl rfl
  · obtain ⟨-, hsome⟩ := Option.filter_eq_some_iff.mp htarget
    obtain ⟨q, hq, rfl⟩ := replyById_isSome.mp (Bool.and_eq_true_iff.mp hsome).2
    exact .inr ⟨q, hp, hq, htarget⟩

theorem answersReply_unique (hid : (replies.map id).Nodup) :
    Relator.RightUnique (AnswersReply id replyToPostId replies) := by
  rintro p q q' ⟨-, hq, htarget⟩ ⟨-, hq', htarget'⟩
  exact List.inj_on_of_nodup_map hid hq hq' (Option.some.inj (htarget.symm.trans htarget'))

theorem getD_lookup_childrenOf (k : Option String) :
    ((childrenOf id replyToPostId replies).lookup k).getD [] =
      replies.filter fun p => replyTarget id replyToPostId replies p == k :=
  getD_lookup_grouped _ _ k

/-! ### Ranks -/

/-- A rank of replies, by how many others are below. -/
def rankAmong (replies : List P) (rank : P → ℕ) (p : P) : ℕ :=
  replies.countP fun q => decide (rank q < rank p)

theorem rankAmong_lt {rank : P → ℕ} {p q : P} (hq : q ∈ replies) (h : rank q < rank p) :
    rankAmong replies rank q < rankAmong replies rank p := by
  refine countP_lt_countP (fun a _ ha => ?_) hq (by simp) (decide_eq_true h)
  exact decide_eq_true ((of_decide_eq_true ha).trans h)

/-! ### The walk -/

section Walk

variable {rank : P → ℕ}

theorem rank_le (hrank : ∀ p q, AnswersReply id replyToPostId replies p q → rank q < rank p)
    {p q : P} (h : Relation.ReflTransGen (AnswersReply id replyToPostId replies) p q) :
    rank q ≤ rank p := by
  induction h with
  | refl => exact le_rfl
  | tail _ hlast ih => exact (hrank _ _ hlast).le.trans ih

theorem not_answers_sibling
    (hrank : ∀ p q, AnswersReply id replyToPostId replies p q → rank q < rank p)
    {k : Option String} {c c' : P} (hc' : c' ∈ replies)
    (hk : replyTarget id replyToPostId replies c = k)
    (hk' : replyTarget id replyToPostId replies c' = k) (hne : c ≠ c') :
    ¬Relation.ReflTransGen (AnswersReply id replyToPostId replies) c c' := by
  intro h
  rcases h.cases_head with rfl | ⟨x, ⟨-, hx, htarget⟩, hrest⟩
  · exact hne rfl
  · -- both answer the same reply, so the one would rank below itself
    have hanswers : AnswersReply id replyToPostId replies c' x :=
      ⟨hc', hx, hk'.trans (hk.symm.trans htarget)⟩
    exact absurd (rank_le hrank hrest) (not_le.mpr (hrank _ _ hanswers))

/-- **The walk** puts out, once each, the replies below the post it is called for. -/
theorem walkReplies_eq_some (hid : (replies.map id).Nodup)
    (hrank : ∀ p q, AnswersReply id replyToPostId replies p q → rank q < rank p) {n : ℕ}
    (hn : ∀ p ∈ replies, rank p < n) (fuel : ℕ) (k : Option String) (depth : ℕ)
    (out : List (ReplyNode P))
    (hfuel : ∀ c ∈ replies, replyTarget id replyToPostId replies c = k → n ≤ fuel + rank c) :
    ∃ nodes, walkReplies id replyToPostId replies (fuel + 1) k depth out = some (out ++ nodes) ∧
      (nodes.map (·.post)).Nodup ∧ ∀ p, p ∈ nodes.map (·.post) ↔
        ∃ c ∈ replies, replyTarget id replyToPostId replies c = k ∧
          Relation.ReflTransGen (AnswersReply id replyToPostId replies) p c := by
  induction fuel generalizing k depth out with
  | zero =>
    -- no reply is left to go down to
    have hnone : ∀ c ∈ replies, replyTarget id replyToPostId replies c ≠ k := fun c hc hk => by
      have := hfuel c hc hk
      have := hn c hc
      omega
    refine ⟨[], ?_, List.nodup_nil, fun p => ⟨nofun, ?_⟩⟩
    · rw [walkReplies, getD_lookup_childrenOf, List.filter_eq_nil_iff.mpr fun c hc => by
        simpa using hnone c hc]
      simp
    · rintro ⟨c, hc, hk, -⟩
      exact absurd hk (hnone c hc)
  | succ fuel ih =>
    suffices hfold : ∀ (children : List P) (out : List (ReplyNode P)), children.Sublist
        (replies.filter fun p => replyTarget id replyToPostId replies p == k) →
        ∃ nodes, children.foldlM (fun out post =>
            walkReplies id replyToPostId replies (fuel + 1) (some (id post)) (depth + 1)
              (out ++ [⟨post, depth, (k.filter (· != "")).bind (replyById id replies)⟩])) out =
          some (out ++ nodes) ∧ (nodes.map (·.post)).Nodup ∧ ∀ p, p ∈ nodes.map (·.post) ↔
            ∃ c ∈ children, Relation.ReflTransGen (AnswersReply id replyToPostId replies) p c by
      obtain ⟨nodes, hwalk, hnodup, hmem⟩ := hfold _ out (List.Sublist.refl _)
      refine ⟨nodes, ?_, hnodup, fun p => (hmem p).trans ?_⟩
      · rw [walkReplies, getD_lookup_childrenOf]
        exact hwalk
      · simp only [List.mem_filter, beq_iff_eq, and_assoc]
    intro children
    induction children with
    | nil =>
      intro out _
      exact ⟨[], by simp, List.nodup_nil, by simp⟩
    | cons c children ihc =>
      intro out hsub
      have hmemk : ∀ c' ∈ c :: children, c' ∈ replies ∧
          replyTarget id replyToPostId replies c' = k := fun c' hc' =>
        (List.mem_filter.mp (hsub.subset hc')).imp_right beq_iff_eq.mp
      obtain ⟨hc, hk⟩ := hmemk c List.mem_cons_self
      have hother : ∀ c' ∈ children, c ≠ c' := by
        have hnodup : (c :: children).Nodup := (hid.of_map.filter _).sublist hsub
        exact fun c' hc' heq => (List.nodup_cons.mp hnodup).1 (heq ▸ hc')
      -- the replies to this one rank above it, so the fuel suffices for them
      obtain ⟨below, hwalk, hbelow, hmembelow⟩ := ih (some (id c)) (depth + 1)
        (out ++ [⟨c, depth, (k.filter (· != "")).bind (replyById id replies)⟩])
        fun c' hc' htarget => by
          have := hfuel c hc hk
          have := hrank c' c ⟨hc', hc, htarget⟩
          omega
      obtain ⟨rest, hfold, hrest, hmemrest⟩ := ihc
        (out ++ [⟨c, depth, (k.filter (· != "")).bind (replyById id replies)⟩] ++ below)
        ((List.sublist_cons_self c children).trans hsub)
      have hbelow_iff : ∀ p, p ∈ below.map (·.post) ↔ ∃ c', AnswersReply id replyToPostId replies
          c' c ∧ Relation.ReflTransGen (AnswersReply id replyToPostId replies) p c' := fun p => by
        refine (hmembelow p).trans ⟨?_, ?_⟩
        · rintro ⟨c', hc', htarget, hp⟩
          exact ⟨c', ⟨hc', hc, htarget⟩, hp⟩
        · rintro ⟨c', ⟨hc', _, htarget⟩, hp⟩
          exact ⟨c', hc', htarget, hp⟩
      refine ⟨⟨c, depth, (k.filter (· != "")).bind (replyById id replies)⟩ :: (below ++ rest),
        ?_, ?_, fun p => ?_⟩
      · rw [List.foldlM_cons, hwalk, Option.bind_eq_bind, Option.bind_some, hfold]
        simp
      · rw [List.map_cons, List.map_append, List.nodup_cons, List.mem_append, List.nodup_append]
        refine ⟨?_, hbelow, hrest, ?_⟩
        · rintro (hmem | hmem)
          · obtain ⟨c', hanswers, hp⟩ := (hbelow_iff c).mp hmem
            exact absurd (rank_le hrank hp) (not_le.mpr (hrank _ _ hanswers))
          · obtain ⟨c', hc', hp⟩ := (hmemrest c).mp hmem
            obtain ⟨hc'mem, hk'⟩ := hmemk c' (List.mem_cons_of_mem c hc')
            exact not_answers_sibling hrank hc'mem hk hk' (hother c' hc') hp
        · -- who is below two replies of one post is below one of them through the other
          rintro p hp _ hp' rfl
          obtain ⟨c₁, hanswers, hc₁⟩ := (hbelow_iff p).mp hp
          obtain ⟨c', hc', hpc'⟩ := (hmemrest p).mp hp'
          obtain ⟨hc'mem, hk'⟩ := hmemk c' (List.mem_cons_of_mem c hc')
          rcases (hc₁.tail hanswers).total_of_right_unique (answersReply_unique hid) hpc' with
            h | h
          · exact not_answers_sibling hrank hc'mem hk hk' (hother c' hc') h
          · exact not_answers_sibling hrank hc hk' hk (hother c' hc').symm h
      · rw [List.map_cons, List.map_append, List.mem_cons, List.mem_append, hbelow_iff, hmemrest]
        constructor
        · rintro (rfl | ⟨c', hanswers, hp⟩ | ⟨c', hc', hp⟩)
          · exact ⟨p, List.mem_cons_self, .refl⟩
          · exact ⟨c, List.mem_cons_self, hp.tail hanswers⟩
          · exact ⟨c', List.mem_cons_of_mem c hc', hp⟩
        · rintro ⟨c', hc', hp⟩
          rcases List.mem_cons.mp hc' with rfl | hc'
          · rcases hp.cases_tail with rfl | ⟨c₁, hp, hanswers⟩
            · exact .inl rfl
            · exact .inr (.inl ⟨c₁, hanswers, hp⟩)
          · exact .inr (.inr ⟨c', hc', hp⟩)

theorem exists_top (hrank : ∀ p q, AnswersReply id replyToPostId replies p q → rank q < rank p)
    {p : P} (hp : p ∈ replies) : ∃ c ∈ replies, replyTarget id replyToPostId replies c = none ∧
      Relation.ReflTransGen (AnswersReply id replyToPostId replies) p c := by
  induction hr : rank p using Nat.strong_induction_on generalizing p with
  | _ r ih =>
    rcases replyTarget_cases id replyToPostId hp with htop | ⟨q, hanswers⟩
    · exact ⟨p, hp, htop, .refl⟩
    · obtain ⟨c, hc, htop, hq⟩ := ih (rank q) (hr ▸ hrank p q hanswers) hanswers.2.1 rfl
      exact ⟨c, hc, htop, hq.head hanswers⟩

/-- **Every reply once.** -/
theorem buildReplyTree_perm (hid : (replies.map id).Nodup)
    (hrank : ∀ p q, AnswersReply id replyToPostId replies p q → rank q < rank p) :
    ∃ nodes, buildReplyTree id replyToPostId replies = some nodes ∧
      (nodes.map (·.post)).Perm replies := by
  have hrank' : ∀ p q, AnswersReply id replyToPostId replies p q →
      rankAmong replies rank q < rankAmong replies rank p := fun p q h =>
    rankAmong_lt h.2.1 (hrank p q h)
  obtain ⟨nodes, hwalk, hnodup, hmem⟩ := walkReplies_eq_some hid hrank'
    (fun p hp => (List.countP_lt_length_iff.mpr ⟨p, hp, by simp⟩)) replies.length none 1 [] fun _ _
      _ => Nat.le_add_right _ _
  refine ⟨nodes, hwalk, (List.perm_ext_iff_of_nodup hnodup hid.of_map).mpr fun p => ?_⟩
  rw [hmem]
  refine ⟨?_, exists_top hrank⟩
  rintro ⟨c, hc, -, hp⟩
  rcases hp.cases_head with rfl | ⟨_, ⟨hp, -, -⟩, -⟩
  · exact hc
  · exact hp

end Walk

end DrepTalk
