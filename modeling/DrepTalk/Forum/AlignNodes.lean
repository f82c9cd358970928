import DrepTalk.Forum.HtmlRoundTrip
import DrepTalk.Forum.WordDiff
import Mathlib.Data.List.Sort

/-!
# Aligning two node lists

`src/lib/forum/alignNodes.ts` pairs two node lists into an ordered slot list. Anchors come
from the LCS walk over a strict key, leftovers are paired by word similarity inside the gaps
between two anchors, structural whitespace is taken out before and woven back after, and over
the cell budget the lists pair by position.

`aligned_alignNodes` is the contract the renderer relies on: whatever branch is taken, the
new indices are exactly all of them in order, the old indices exactly those of the content
nodes in order, and a paired slot joins two content nodes of one kind and tag.
-/

namespace DrepTalk

open JsText

/-- One output position: a pair, an old-only node, or a new-only node. -/
structure Slot where
  old : Option ℕ
  new : Option ℕ
  deriving DecidableEq

/-- Below this, two nodes are a replacement rather than a rewrite. -/
def SIMILAR_ENOUGH : ℚ := 3 / 10

/-- `s.replace(/\s+/g, ' ').trim()`. -/
def norm (s : Text) : Text := trim (collapse s)

def strictKey : HtmlNode → Text
  | .text t _ => 't' :: ':' :: norm t
  | .void tag => 'v' :: ':' :: tag.toList
  | .element tag attrs children =>
    'e' :: ':' :: tag.toList ++ ':' :: norm (nodeText (.element tag attrs children))

/-- Whether two nodes of a gap may be weighed against each other. -/
def sameShape : HtmlNode → HtmlNode → Bool
  | .element tag _ _, .element tag' _ _ => tag == tag'
  | .text _ _, .text _ _ => true
  | _, _ => false

/-- Whether two nodes could stand in for each other: one kind and, where it has one, one tag. -/
def interchangeable : HtmlNode → HtmlNode → Bool
  | .text _ _, .text _ _ => true
  | .element tag _ _, .element tag' _ _ => tag == tag'
  | .void tag, .void tag' => tag == tag'
  | _, _ => false

section Lists

variable (oldNodes newNodes : List HtmlNode)

/-- The score of one candidate of a gap, where there is one to take. -/
def candidateScore (oi k : ℕ) : Option ℚ :=
  match oldNodes[oi]?, newNodes[k]? with
  | some a, some b => if sameShape a b then some (similarity (nodeText a) (nodeText b)) else none
  | _, _ => none

/-- The leftmost best partner of `oi` among the new nodes from `nj` on. -/
def bestPartner (oi nj newTo : ℕ) : Option ℕ :=
  ((List.range' nj (newTo - nj)).foldl (fun best k =>
    match candidateScore oldNodes newNodes oi k with
    | some score => if score > best.2 then (some k, score) else best
    | none => best) (none, SIMILAR_ENOUGH)).1

def oldOnly (ks : List ℕ) : List Slot := ks.map fun k => ⟨some k, none⟩

def newOnly (ks : List ℕ) : List Slot := ks.map fun k => ⟨none, some k⟩

/-- The loop of `pairGap` over the old indices that are left. With the new side used up no
partner is found, so the tail of the old side needs no loop of its own. -/
def pairGapFrom (newTo : ℕ) : List ℕ → ℕ → List Slot
  | [], nj => newOnly (List.range' nj (newTo - nj))
  | oi :: ois, nj =>
    match bestPartner oldNodes newNodes oi nj newTo with
    | none => ⟨some oi, none⟩ :: pairGapFrom newTo ois nj
    | some best =>
      newOnly (List.range' nj (best - nj)) ++ ⟨some oi, some best⟩ ::
        pairGapFrom newTo ois (best + 1)

/-- Greedy left-to-right similarity pairing inside one gap. -/
def pairGap (oldFrom oldTo newFrom newTo : ℕ) : List Slot :=
  pairGapFrom oldNodes newNodes newTo (List.range' oldFrom (oldTo - oldFrom)) newFrom

/-- The over-budget fallback: index `k` with index `k` and nothing cleverer. -/
def pairByPosition : List Slot :=
  let shared := min oldNodes.length newNodes.length
  (List.range shared).flatMap (fun k =>
      match oldNodes[k]?, newNodes[k]? with
      | some a, some b =>
        if interchangeable a b then [⟨some k, some k⟩] else [⟨some k, none⟩, ⟨none, some k⟩]
      | _, _ => []) ++
    oldOnly (List.range' shared (oldNodes.length - shared)) ++
    newOnly (List.range' shared (newNodes.length - shared))

/-- The slots of the anchors from a pair of cursors on, with the gaps between them. -/
def anchoredSlots : List (ℕ × ℕ) → ℕ → ℕ → List Slot
  | [], oldCursor, newCursor =>
    pairGap oldNodes newNodes oldCursor oldNodes.length newCursor newNodes.length
  | (oi, nj) :: anchors, oldCursor, newCursor =>
    pairGap oldNodes newNodes oldCursor oi newCursor nj ++ ⟨some oi, some nj⟩ ::
      anchoredSlots anchors (oi + 1) (nj + 1)

/-- The matcher proper, over content nodes only. Indices are positions in its inputs. -/
def alignContent : List Slot :=
  if (oldNodes.length + 1) * (newNodes.length + 1) > LCS_CELL_BUDGET then
    pairByPosition oldNodes newNodes
  else
    anchoredSlots oldNodes newNodes
      (Lcs.anchors 0 0 (Lcs.lcsWalk (oldNodes.map strictKey) (newNodes.map strictKey))) 0 0

end Lists

/-- White text in a place where it is layout. -/
def isIgnorable : HtmlNode → Bool
  | .text _ ignorable => ignorable
  | _ => false

/-- The original indices of the nodes `p` keeps. -/
def indicesWhere (p : HtmlNode → Bool) (nodes : List HtmlNode) : List ℕ :=
  (List.range nodes.length).filter fun i => (nodes[i]?).any p

/-- Weaves the new tree's whitespace back in, keeping the new side monotonic. -/
def weave : List ℕ → List Slot → List Slot
  | whitespace, [] => newOnly whitespace
  | whitespace, slot :: slots =>
    match slot.new with
    | none => slot :: weave whitespace slots
    | some newOriginal =>
      newOnly (whitespace.takeWhile (· < newOriginal)) ++
        slot :: weave (whitespace.dropWhile (· < newOriginal)) slots

/-- Aligns two node lists into output order. -/
def alignNodes (oldNodes newNodes : List HtmlNode) : List Slot :=
  let oldIdx := indicesWhere (fun n => !isIgnorable n) oldNodes
  let newIdx := indicesWhere (fun n => !isIgnorable n) newNodes
  let oldContent := oldIdx.filterMap (oldNodes[·]?)
  let newContent := newIdx.filterMap (newNodes[·]?)
  let contentSlots := alignContent oldContent newContent
  weave (indicesWhere isIgnorable newNodes)
    (contentSlots.map fun slot => ⟨slot.old.bind (oldIdx[·]?), slot.new.bind (newIdx[·]?)⟩)

/-! ### The contract of a slot list -/

def olds (slots : List Slot) : List ℕ := slots.filterMap Slot.old

def news (slots : List Slot) : List ℕ := slots.filterMap Slot.new

@[simp] theorem olds_append (s s' : List Slot) : olds (s ++ s') = olds s ++ olds s' :=
  List.filterMap_append ..

@[simp] theorem news_append (s s' : List Slot) : news (s ++ s') = news s ++ news s' :=
  List.filterMap_append ..

@[simp] theorem olds_cons (s : Slot) (s' : List Slot) :
    olds (s :: s') = s.old.toList ++ olds s' := by
  rcases s with ⟨_ | i, _⟩ <;> rfl

@[simp] theorem news_cons (s : Slot) (s' : List Slot) :
    news (s :: s') = s.new.toList ++ news s' := by
  rcases s with ⟨_, _ | j⟩ <;> rfl

variable (ks : List ℕ)

@[simp] theorem olds_oldOnly : olds (oldOnly ks) = ks := by
  induction ks with
  | nil => rfl
  | cons k ks ih => simpa [oldOnly] using ih

@[simp] theorem news_oldOnly : news (oldOnly ks) = [] := by
  simp [oldOnly, news]

@[simp] theorem olds_newOnly : olds (newOnly ks) = [] := by
  simp [newOnly, olds]

@[simp] theorem news_newOnly : news (newOnly ks) = ks := by
  induction ks with
  | nil => rfl
  | cons k ks ih => simpa [newOnly] using ih

/-- Every slot has a side, and the two sides of a pair satisfy `R`. -/
def Paired (R : ℕ → ℕ → Prop) (slots : List Slot) : Prop :=
  ∀ s ∈ slots, (s.old ≠ none ∨ s.new ≠ none) ∧
    ∀ i j, s.old = some i → s.new = some j → R i j

variable {R : ℕ → ℕ → Prop}

@[simp] theorem paired_append {s s' : List Slot} :
    Paired R (s ++ s') ↔ Paired R s ∧ Paired R s' := List.forall_mem_append

theorem paired_cons {s : Slot} {s' : List Slot} :
    Paired R (s :: s') ↔ ((s.old ≠ none ∨ s.new ≠ none) ∧
      ∀ i j, s.old = some i → s.new = some j → R i j) ∧ Paired R s' := List.forall_mem_cons

@[simp] theorem paired_oldOnly : Paired R (oldOnly ks) := by
  simp [Paired, oldOnly]

@[simp] theorem paired_newOnly : Paired R (newOnly ks) := by
  simp [Paired, newOnly]

theorem Paired.mono {S : ℕ → ℕ → Prop} {slots : List Slot} (hp : Paired R slots)
    (h : ∀ i j, R i j → S i j) : Paired S slots :=
  fun s hs => ⟨(hp s hs).1, fun i j hi hj => h i j ((hp s hs).2 i j hi hj)⟩

/-- The nodes at two indices exist and could stand in for each other. -/
def Matches (oldNodes newNodes : List HtmlNode) (i j : ℕ) : Prop :=
  ∃ a b, oldNodes[i]? = some a ∧ newNodes[j]? = some b ∧ interchangeable a b = true

variable {a b : HtmlNode}

theorem interchangeable_of_sameShape (h : sameShape a b = true) :
    interchangeable a b = true := by
  cases a <;> cases b <;> simp_all [sameShape, interchangeable]

/-! ### Gaps -/

variable {i : ℕ}

private theorem range'_split {p n : ℕ} (hi : i ≤ p) (hp : p < n) :
    List.range' i (n - i) = List.range' i (p - i) ++ p :: List.range' (p + 1) (n - (p + 1)) := by
  rw [List.range'_eq_append_iff]
  refine ⟨p - i, by omega, rfl, ?_⟩
  rw [show n - i - (p - i) = n - (p + 1) + 1 by omega, List.range'_succ]
  congr 1 <;> congr 1 <;> omega

theorem bestPartner_spec {oldNodes newNodes : List HtmlNode} {oi nj newTo k : ℕ}
    (h : bestPartner oldNodes newNodes oi nj newTo = some k) :
    nj ≤ k ∧ k < newTo ∧ Matches oldNodes newNodes oi k := by
  -- the fold returns what it started with, or an index that got a score
  have hrun : ∀ (ks : List ℕ) (best : Option ℕ × ℚ),
      (ks.foldl (fun best k =>
        match candidateScore oldNodes newNodes oi k with
        | some score => if score > best.2 then (some k, score) else best
        | none => best) best).1 = some k →
      best.1 = some k ∨ (k ∈ ks ∧ (candidateScore oldNodes newNodes oi k).isSome) := by
    intro ks
    induction ks with
    | nil => exact fun best h => .inl h
    | cons k' ks ih =>
      intro best h
      rcases ih _ h with h | ⟨hmem, hsome⟩
      · rcases hscore : candidateScore oldNodes newNodes oi k' with _ | score
        · exact .inl (by simpa [hscore] using h)
        · simp only [hscore] at h
          split_ifs at h
          · obtain rfl : k' = k := by simpa using h
            exact .inr ⟨by simp, by simp [hscore]⟩
          · exact .inl h
      · exact .inr ⟨by simp [hmem], hsome⟩
  rcases hrun _ _ h with h | ⟨hmem, hsome⟩
  · cases h
  · rw [List.mem_range'_1] at hmem
    refine ⟨hmem.1, by omega, ?_⟩
    unfold candidateScore at hsome
    split at hsome
    · rename_i a b ha hb
      split_ifs at hsome with hshape
      · exact ⟨a, b, ha, hb, interchangeable_of_sameShape hshape⟩
      · simp at hsome
    · simp at hsome

theorem pairGapFrom_spec (oldNodes newNodes : List HtmlNode) (newTo : ℕ) :
    ∀ (ois : List ℕ) (nj : ℕ), nj ≤ newTo →
      olds (pairGapFrom oldNodes newNodes newTo ois nj) = ois ∧
      news (pairGapFrom oldNodes newNodes newTo ois nj) = List.range' nj (newTo - nj) ∧
      Paired (Matches oldNodes newNodes) (pairGapFrom oldNodes newNodes newTo ois nj) := by
  intro ois
  induction ois with
  | nil => intro nj _; simp [pairGapFrom]
  | cons oi ois ih =>
    intro nj hnj
    rw [pairGapFrom]
    split
    · obtain ⟨ho, hn, hp⟩ := ih nj hnj
      exact ⟨by simp [ho], by simp [hn], paired_cons.mpr ⟨by simp, hp⟩⟩
    · -- what lies in front of the partner is new, and the gap goes on behind it
      rename_i best hbest
      obtain ⟨hge, hlt, hmatch⟩ := bestPartner_spec hbest
      obtain ⟨ho, hn, hp⟩ := ih (best + 1) (by omega)
      refine ⟨by simp [ho], ?_, paired_append.mpr ⟨paired_newOnly _, paired_cons.mpr ⟨?_, hp⟩⟩⟩
      · simp [hn, range'_split hge hlt]
      · refine ⟨by simp, fun i j hi hj => ?_⟩
        cases hi
        cases hj
        exact hmatch

theorem pairGap_spec (oldNodes newNodes : List HtmlNode) (oldFrom oldTo : ℕ) {newFrom newTo : ℕ}
    (hn : newFrom ≤ newTo) :
    olds (pairGap oldNodes newNodes oldFrom oldTo newFrom newTo)
        = List.range' oldFrom (oldTo - oldFrom) ∧
      news (pairGap oldNodes newNodes oldFrom oldTo newFrom newTo)
        = List.range' newFrom (newTo - newFrom) ∧
      Paired (Matches oldNodes newNodes)
        (pairGap oldNodes newNodes oldFrom oldTo newFrom newTo) :=
  pairGapFrom_spec oldNodes newNodes newTo _ newFrom hn

/-! ### Anchors -/

/-- What holds of the tag of a node the parser built: no colon, so that a strict key can be
taken apart again. -/
def HtmlNode.PlainTag : HtmlNode → Prop
  | .element tag _ _ => ':' ∉ tag.toList
  | _ => True

theorem interchangeable_of_strictKey (ha : a.PlainTag) (hb : b.PlainTag)
    (h : strictKey a = strictKey b) : interchangeable a b = true := by
  cases a <;> cases b <;> simp only [strictKey, List.cons_append, List.cons.injEq] at h
  case text.text => rfl
  case void.void => simpa [interchangeable, String.toList_inj] using h
  case element.element tag _ _ tag' _ _ =>
    -- without a colon in it, the tag is what stands before the first colon of the key
    have hstop : ∀ {t r : Text}, ':' ∉ t → (t ++ ':' :: r).takeWhile (· != ':') = t := by
      intro t r ht
      rw [List.takeWhile_append_of_pos, List.takeWhile_cons_of_neg (by simp), List.append_nil]
      exact fun c hc => by
        simp only [bne_iff_ne, ne_eq]
        rintro rfl
        exact ht hc
    have htags := congrArg (List.takeWhile (· != ':')) h.2.2
    rw [hstop ha, hstop hb, String.toList_inj] at htags
    simp [interchangeable, htags]
  all_goals simp at h

section Content

variable {oldNodes newNodes : List HtmlNode}

theorem strictKey_of_mem_anchors {p q : ℕ}
    (h : (p, q) ∈ Lcs.anchors 0 0
      (Lcs.lcsWalk (oldNodes.map strictKey) (newNodes.map strictKey))) :
    ∃ a b, oldNodes[p]? = some a ∧ newNodes[q]? = some b ∧ strictKey a = strictKey b := by
  obtain ⟨key, ha, hb, -, -⟩ := Lcs.getElem?_of_mem_anchors _ _ _ _ p q h
  simp only [Nat.sub_zero, List.getElem?_map, Option.map_eq_some_iff] at ha hb
  obtain ⟨a, ha, hka⟩ := ha
  obtain ⟨b, hb, hkb⟩ := hb
  exact ⟨a, b, ha, hb, hka.trans hkb.symm⟩

theorem anchoredSlots_spec {R : ℕ → ℕ → Prop} {anchors : List (ℕ × ℕ)} {i j : ℕ}
    (h : Lcs.Increasing oldNodes.length newNodes.length i j anchors)
    (hgap : ∀ p q, Matches oldNodes newNodes p q → R p q)
    (hmatch : ∀ p q, (p, q) ∈ anchors → R p q) :
    olds (anchoredSlots oldNodes newNodes anchors i j)
        = List.range' i (oldNodes.length - i) ∧
      news (anchoredSlots oldNodes newNodes anchors i j)
        = List.range' j (newNodes.length - j) ∧
      Paired R (anchoredSlots oldNodes newNodes anchors i j) := by
  induction h with
  | nil hi hj =>
    obtain ⟨ho, hn, hpair⟩ := pairGap_spec oldNodes newNodes _ oldNodes.length hj
    exact ⟨ho, hn, hpair.mono hgap⟩
  | @cons i j p q rest hi hj hp hq tail ih =>
    obtain ⟨ho, hn, hpair⟩ := ih fun p' q' h => hmatch p' q' (by simp [h])
    obtain ⟨ho', hn', hpair'⟩ := pairGap_spec oldNodes newNodes i p hj
    -- the gap in front of the anchor, the anchor, and what follows it
    rw [anchoredSlots]
    refine ⟨by simp [ho, ho', range'_split hi hp], by simp [hn, hn', range'_split hj hq],
      paired_append.mpr ⟨hpair'.mono hgap,
        paired_cons.mpr ⟨⟨by simp, fun i' j' hi' hj' => ?_⟩, hpair⟩⟩⟩
    cases hi'
    cases hj'
    exact hmatch p q (by simp)

theorem pairByPosition_spec :
    olds (pairByPosition oldNodes newNodes) = List.range oldNodes.length ∧
      news (pairByPosition oldNodes newNodes) = List.range newNodes.length ∧
      Paired (Matches oldNodes newNodes) (pairByPosition oldNodes newNodes) := by
  -- over the positions both lists have, two nodes make one slot or two
  have hshared : ∀ ks : List ℕ, (∀ k ∈ ks, k < oldNodes.length ∧ k < newNodes.length) →
      let slots := ks.flatMap fun k =>
        match oldNodes[k]?, newNodes[k]? with
        | some a, some b =>
          if interchangeable a b then [(⟨some k, some k⟩ : Slot)]
          else [⟨some k, none⟩, ⟨none, some k⟩]
        | _, _ => []
      olds slots = ks ∧ news slots = ks ∧ Paired (Matches oldNodes newNodes) slots := by
    intro ks
    induction ks with
    | nil => exact fun _ => ⟨rfl, rfl, by simp [Paired]⟩
    | cons k ks ih =>
      intro hks
      obtain ⟨ho, hn, hp⟩ := ih fun k' hk' => hks k' (by simp [hk'])
      obtain ⟨hko, hkn⟩ := hks k (by simp)
      simp only [List.flatMap_cons, List.getElem?_eq_getElem hko, List.getElem?_eq_getElem hkn,
        olds_append, news_append, paired_append, ho, hn]
      split_ifs with hint
      · refine ⟨rfl, rfl, fun s hs => ?_, hp⟩
        obtain rfl := List.mem_singleton.mp hs
        refine ⟨by simp, fun i j hi hj => ?_⟩
        cases hi
        cases hj
        exact ⟨_, _, List.getElem?_eq_getElem hko, List.getElem?_eq_getElem hkn, hint⟩
      · exact ⟨rfl, rfl, by simp [Paired], hp⟩
  obtain ⟨ho, hn, hp⟩ := hshared (List.range (min oldNodes.length newNodes.length))
    fun k hk => by rw [List.mem_range] at hk; omega
  have hrange : ∀ {m n : ℕ}, m ≤ n → List.range m ++ List.range' m (n - m) = List.range n := by
    intro m n h
    have happ := List.range'_append_1 (s := 0) (m := m) (n := n - m)
    rw [Nat.zero_add, Nat.add_sub_cancel' h] at happ
    rw [List.range_eq_range', List.range_eq_range', happ]
  refine ⟨?_, ?_, ?_⟩
  · simp [pairByPosition, ho, hrange]
  · simp [pairByPosition, hn, hrange]
  · simp [pairByPosition, hp]

/-- The matcher covers both sides, on either side of the cell budget, and its pairs are in any
relation that interchangeable nodes and nodes with one strict key are in. -/
theorem alignContent_spec {P : HtmlNode → HtmlNode → Prop}
    (hinter : ∀ a b, interchangeable a b = true → P a b)
    (hkey : ∀ a ∈ oldNodes, ∀ b ∈ newNodes, strictKey a = strictKey b → P a b) :
    olds (alignContent oldNodes newNodes) = List.range oldNodes.length ∧
      news (alignContent oldNodes newNodes) = List.range newNodes.length ∧
      Paired (fun i j => ∃ a b, oldNodes[i]? = some a ∧ newNodes[j]? = some b ∧ P a b)
        (alignContent oldNodes newNodes) := by
  have hmatches : ∀ p q, Matches oldNodes newNodes p q →
      ∃ a b, oldNodes[p]? = some a ∧ newNodes[q]? = some b ∧ P a b := by
    rintro p q ⟨a, b, ha, hb, hab⟩
    exact ⟨a, b, ha, hb, hinter a b hab⟩
  rw [alignContent]
  split_ifs
  · obtain ⟨ho, hn, hp⟩ := @pairByPosition_spec oldNodes newNodes
    exact ⟨ho, hn, hp.mono hmatches⟩
  · have hinc := Lcs.increasing_anchors (oldNodes.map strictKey) (newNodes.map strictKey) 0 0
    simp only [Nat.zero_add, List.length_map] at hinc
    have hanchors := anchoredSlots_spec hinc hmatches fun p q h => by
      obtain ⟨a, b, ha, hb, heq⟩ := strictKey_of_mem_anchors h
      exact ⟨a, b, ha, hb, hkey a (List.mem_of_getElem? ha) b (List.mem_of_getElem? hb) heq⟩
    simpa only [Nat.sub_zero, ← List.range_eq_range'] using hanchors

end Content

/-! ### Weaving -/

theorem olds_weave : ∀ (slots : List Slot) (whitespace : List ℕ),
    olds (weave whitespace slots) = olds slots
  | [], whitespace => olds_newOnly whitespace
  | slot :: slots, whitespace => by
    rw [weave]
    split <;> simp [olds_weave slots]

theorem mem_news_weave {k : ℕ} : ∀ (slots : List Slot) (whitespace : List ℕ),
    k ∈ news (weave whitespace slots) ↔ k ∈ whitespace ∨ k ∈ news slots
  | [], whitespace => by rw [weave, news_newOnly]; simp [news]
  | slot :: slots, whitespace => by
    rw [weave]
    split
    · rename_i h
      simp [h, mem_news_weave slots]
    · rename_i j h
      have hws : k ∈ whitespace ↔ k ∈ whitespace.takeWhile (· < j) ∨
          k ∈ whitespace.dropWhile (· < j) := by
        rw [← List.mem_append, List.takeWhile_append_dropWhile]
      rw [hws]
      simp only [news_append, news_newOnly, news_cons, h, Option.toList_some, List.mem_append,
        List.mem_singleton, mem_news_weave slots]
      tauto

/-- What is left of a sorted list behind the elements below `j` lies above `j`, if `j` is no
element. -/
private theorem lt_of_mem_dropWhile {l : List ℕ} {j w : ℕ} (hl : l.Pairwise (· < ·))
    (hj : j ∉ l) (hw : w ∈ l.dropWhile (· < j)) : j < w := by
  have hne : w ≠ j := fun h => hj (h ▸ (List.dropWhile_sublist _).mem hw)
  induction l with
  | nil => simp at hw
  | cons v l ih =>
    obtain ⟨hv, hl⟩ := List.pairwise_cons.mp hl
    by_cases hvj : v < j
    · rw [List.dropWhile_cons_of_pos (by simpa using hvj)] at hw
      exact ih hl (fun h => hj (by simp [h])) hw
    · rw [List.dropWhile_cons_of_neg (by simpa using hvj)] at hw
      rcases List.mem_cons.mp hw with rfl | hw
      · omega
      · have := hv w hw
        omega

theorem pairwise_news_weave : ∀ (slots : List Slot) (whitespace : List ℕ),
    whitespace.Pairwise (· < ·) → (news slots).Pairwise (· < ·) →
      (∀ w ∈ whitespace, w ∉ news slots) → (news (weave whitespace slots)).Pairwise (· < ·)
  | [], whitespace => fun hw _ _ => by simpa [weave] using hw
  | slot :: slots, whitespace => fun hw hs hdisj => by
    rw [weave]
    split
    · rename_i h
      simp only [news_cons, h, Option.toList_none, List.nil_append] at hs hdisj ⊢
      exact pairwise_news_weave slots whitespace hw hs hdisj
    · rename_i j h
      simp only [news_cons, h, Option.toList_some, List.singleton_append, List.mem_cons,
        not_or, List.pairwise_cons] at hs hdisj
      -- the whitespace below `j` comes first, then `j`, then the rest, which lies above it
      have hdrop : ∀ w ∈ whitespace.dropWhile (· < j), j < w := fun w hmem =>
        lt_of_mem_dropWhile hw (fun hj => (hdisj j hj).1 rfl) hmem
      have hrec := pairwise_news_weave slots (whitespace.dropWhile (· < j))
        (hw.sublist (List.dropWhile_sublist _)) hs.2
        fun w hmem => (hdisj w ((List.dropWhile_sublist _).mem hmem)).2
      simp only [news_append, news_newOnly, news_cons, h, Option.toList_some,
        List.singleton_append]
      refine List.pairwise_append.mpr ⟨hw.sublist (List.takeWhile_sublist _),
        List.pairwise_cons.mpr ⟨fun k hk => ?_, hrec⟩, fun w hmem k hk => ?_⟩
      · rcases (mem_news_weave slots _).mp hk with hk | hk
        · exact hdrop k hk
        · exact hs.1 k hk
      · have hwj : w < j := by simpa using List.mem_takeWhile_imp hmem
        rcases List.mem_cons.mp hk with rfl | hk
        · exact hwj
        · rcases (mem_news_weave slots _).mp hk with hk | hk
          · exact hwj.trans (hdrop k hk)
          · exact hwj.trans (hs.1 k hk)

theorem paired_weave : ∀ (slots : List Slot) (whitespace : List ℕ),
    Paired R slots → Paired R (weave whitespace slots)
  | [], whitespace => fun _ => paired_newOnly _
  | slot :: slots, whitespace => fun h => by
    obtain ⟨hslot, hslots⟩ := paired_cons.mp h
    rw [weave]
    split
    · exact paired_cons.mpr ⟨hslot, paired_weave slots _ hslots⟩
    · exact paired_append.mpr
        ⟨paired_newOnly _, paired_cons.mpr ⟨hslot, paired_weave slots _ hslots⟩⟩

/-! ### The whole alignment -/

private theorem getElem?_filterMap_indices (nodes : List HtmlNode) : ∀ (is : List ℕ),
    (∀ i ∈ is, i < nodes.length) → ∀ p : ℕ,
      (is.filterMap (nodes[·]?))[p]? = (is[p]?).bind (nodes[·]?)
  | [], _, p => by simp
  | i :: is, h, p => by
    have hi := List.getElem?_eq_getElem (h i (by simp))
    rw [List.filterMap_cons_some hi]
    cases p with
    | zero => simp [hi]
    | succ p =>
      simpa using getElem?_filterMap_indices nodes is (fun k hk => h k (by simp [hk])) p

theorem filterMap_range_getElem? {α : Type*} (l : List α) :
    (List.range l.length).filterMap (l[·]?) = l := by
  induction l with
  | nil => rfl
  | cons a l ih =>
    rw [List.length_cons, List.range_succ_eq_map, List.filterMap_cons_some (by rfl),
      List.filterMap_map]
    exact congrArg (a :: ·) ih

theorem filterMap_indicesWhere (p : HtmlNode → Bool) (nodes : List HtmlNode) :
    (indicesWhere p nodes).filterMap (nodes[·]?) = nodes.filter p := by
  rw [indicesWhere]
  conv_rhs => rw [← filterMap_range_getElem? nodes, List.filter_filterMap]
  rw [List.filterMap_filter]
  refine List.filterMap_congr fun i _ => ?_
  cases nodes[i]? <;> simp [Option.filter]

variable {p : HtmlNode → Bool} {nodes : List HtmlNode}

theorem mem_indicesWhere :
    i ∈ indicesWhere p nodes ↔ ∃ n, nodes[i]? = some n ∧ p n = true := by
  rw [indicesWhere, List.mem_filter, List.mem_range, Option.any_eq_true]
  exact ⟨fun h => h.2, fun h => ⟨by
    obtain ⟨n, hn, -⟩ := h
    exact (List.getElem?_eq_some_iff.mp hn).1, h⟩⟩

theorem pairwise_indicesWhere (p : HtmlNode → Bool) (nodes : List HtmlNode) :
    (indicesWhere p nodes).Pairwise (· < ·) :=
  (List.pairwise_lt_range).sublist (List.filter_sublist)

theorem lt_of_mem_indicesWhere (h : i ∈ indicesWhere p nodes) : i < nodes.length := by
  obtain ⟨n, hn, -⟩ := mem_indicesWhere.mp h
  exact (List.getElem?_eq_some_iff.mp hn).1

theorem of_mem_indicesWhere
    {n : HtmlNode}
    (h : i ∈ indicesWhere p nodes)
    (hn : nodes[i]? = some n) : p n = true := by
  obtain ⟨n', hn', hp⟩ := mem_indicesWhere.mp h
  cases hn.symm.trans hn'
  exact hp

theorem mem_indicesWhere_or :
    i ∈ indicesWhere p nodes ∨ i ∈ indicesWhere (fun n => !p n) nodes ↔ i < nodes.length := by
  constructor
  · rintro (h | h)
    · exact lt_of_mem_indicesWhere h
    · exact lt_of_mem_indicesWhere h
  · intro h
    have hn := List.getElem?_eq_getElem h
    by_cases hp : p nodes[i] = true
    · exact .inl (mem_indicesWhere.mpr ⟨_, hn, hp⟩)
    · exact .inr (mem_indicesWhere.mpr ⟨_, hn, by simpa using hp⟩)

theorem length_filterMap_indicesWhere (p : HtmlNode → Bool) (nodes : List HtmlNode) :
    ((indicesWhere p nodes).filterMap (nodes[·]?)).length = (indicesWhere p nodes).length := by
  rw [List.length_filterMap_eq_countP, List.countP_eq_length]
  intro i hi
  simp [lt_of_mem_indicesWhere hi]

/-! ### From positions to indices -/

/-- Slots over the positions of two index lists, as slots over the indices there. -/
def translate (oldIdx newIdx : List ℕ) (slots : List Slot) : List Slot :=
  slots.map fun slot => ⟨slot.old.bind (oldIdx[·]?), slot.new.bind (newIdx[·]?)⟩

section Translate

variable {oldIdx newIdx : List ℕ} {slots : List Slot}

theorem olds_translate (ho : olds slots = List.range oldIdx.length) :
    olds (translate oldIdx newIdx slots) = oldIdx := by
  have hbind : olds (translate oldIdx newIdx slots) = (olds slots).filterMap (oldIdx[·]?) := by
    simp only [translate, olds, List.filterMap_map, List.filterMap_filterMap]
    rfl
  rw [hbind, ho, filterMap_range_getElem?]

theorem news_translate (hn : news slots = List.range newIdx.length) :
    news (translate oldIdx newIdx slots) = newIdx := by
  have hbind : news (translate oldIdx newIdx slots) = (news slots).filterMap (newIdx[·]?) := by
    simp only [translate, news, List.filterMap_map, List.filterMap_filterMap]
    rfl
  rw [hbind, hn, filterMap_range_getElem?]

theorem paired_translate {R S : ℕ → ℕ → Prop} (ho : olds slots = List.range oldIdx.length)
    (hn : news slots = List.range newIdx.length) (hp : Paired R slots)
    (hRS : ∀ p q i j, R p q → oldIdx[p]? = some i → newIdx[q]? = some j → S i j) :
    Paired S (translate oldIdx newIdx slots) := by
  intro s hs
  obtain ⟨t, ht, rfl⟩ := List.mem_map.mp hs
  obtain ⟨hside, hpair⟩ := hp t ht
  constructor
  · rcases hto : t.old with _ | p
    · rcases htn : t.new with _ | q
      · simp [hto, htn] at hside
      · have hmem : q ∈ news slots := List.mem_filterMap.mpr ⟨t, ht, htn⟩
        rw [hn, List.mem_range] at hmem
        exact .inr (by simpa using hmem)
    · have hmem : p ∈ olds slots := List.mem_filterMap.mpr ⟨t, ht, hto⟩
      rw [ho, List.mem_range] at hmem
      exact .inl (by simpa using hmem)
  · intro i j hi hj
    obtain ⟨p, hp', hpi⟩ := Option.bind_eq_some_iff.mp hi
    obtain ⟨q, hq', hqj⟩ := Option.bind_eq_some_iff.mp hj
    exact hRS p q i j (hpair p q hp' hq') hpi hqj

end Translate

/-! ### The contract of the matcher -/

/-- What a slot list between two node lists is for: the new side in full and in order, the
content of the old side in order, and pairs of interchangeable content nodes. -/
structure Aligned (oldNodes newNodes : List HtmlNode) (slots : List Slot) : Prop where
  olds_eq : olds slots = indicesWhere (fun n => !isIgnorable n) oldNodes
  news_eq : news slots = List.range newNodes.length
  paired : Paired (fun i j => ∃ a b, oldNodes[i]? = some a ∧ newNodes[j]? = some b ∧
    interchangeable a b = true ∧ isIgnorable a = false ∧ isIgnorable b = false) slots

theorem news_weave_eq_range {slots : List Slot}
    (hnews : news slots = indicesWhere (fun n => !isIgnorable n) nodes) :
    news (weave (indicesWhere isIgnorable nodes) slots) = List.range nodes.length := by
  -- increasing and with the same members, the two lists are one
  have hsorted : (news (weave (indicesWhere isIgnorable nodes) slots)).Pairwise (· < ·) := by
    refine pairwise_news_weave _ _ (pairwise_indicesWhere ..)
      (hnews ▸ pairwise_indicesWhere ..) fun w hw hmem => ?_
    rw [hnews] at hmem
    obtain ⟨n, hn, hignorable⟩ := mem_indicesWhere.mp hw
    have hcontent := of_mem_indicesWhere hmem hn
    simp [hignorable] at hcontent
  refine (List.sortedLT_iff_pairwise.mpr hsorted).eq_of_mem_iff
    (List.sortedLT_iff_pairwise.mpr List.pairwise_lt_range) fun i => ?_
  rw [mem_news_weave, hnews, mem_indicesWhere_or, List.mem_range]

/-- What `alignNodes` covers, for every branch of the matcher, and in which relation its pairs
are. -/
theorem alignNodes_spec {oldNodes newNodes : List HtmlNode} {P : HtmlNode → HtmlNode → Prop}
    (hinter : ∀ a b, interchangeable a b = true → P a b)
    (hkey : ∀ a ∈ oldNodes, ∀ b ∈ newNodes, strictKey a = strictKey b → P a b) :
    olds (alignNodes oldNodes newNodes) = indicesWhere (fun n => !isIgnorable n) oldNodes ∧
      news (alignNodes oldNodes newNodes) = List.range newNodes.length ∧
      Paired (fun i j => ∃ a b, oldNodes[i]? = some a ∧ newNodes[j]? = some b ∧ P a b ∧
        isIgnorable a = false ∧ isIgnorable b = false) (alignNodes oldNodes newNodes) := by
  have hmem : ∀ {nodes : List HtmlNode} {is : List ℕ}, ∀ n ∈ is.filterMap (nodes[·]?),
      n ∈ nodes := by
    intro nodes is n hn
    obtain ⟨i, -, hi⟩ := List.mem_filterMap.mp hn
    exact List.mem_of_getElem? hi
  set oldIdx := indicesWhere (fun n => !isIgnorable n) oldNodes with holdIdx
  set newIdx := indicesWhere (fun n => !isIgnorable n) newNodes with hnewIdx
  obtain ⟨ho', hn', hp⟩ := @alignContent_spec (oldIdx.filterMap (oldNodes[·]?))
    (newIdx.filterMap (newNodes[·]?)) P hinter fun a ha b hb => hkey a (hmem a ha) b (hmem b hb)
  rw [holdIdx, length_filterMap_indicesWhere] at ho'
  rw [hnewIdx, length_filterMap_indicesWhere] at hn'
  have heq : alignNodes oldNodes newNodes = weave (indicesWhere isIgnorable newNodes)
      (translate oldIdx newIdx (alignContent (oldIdx.filterMap (oldNodes[·]?))
        (newIdx.filterMap (newNodes[·]?)))) := rfl
  rw [heq]
  refine ⟨by rw [olds_weave, olds_translate ho'], news_weave_eq_range (news_translate hn'), ?_⟩
  refine paired_weave _ _ (paired_translate ho' hn' hp ?_)
  rintro p q i j ⟨a, b, ha, hb, hab⟩ hpi hqj
  -- a position of the content lists is an index of the node lists
  have hi : i ∈ oldIdx := List.mem_of_getElem? hpi
  have hj : j ∈ newIdx := List.mem_of_getElem? hqj
  rw [getElem?_filterMap_indices _ _ fun _ => lt_of_mem_indicesWhere, hpi] at ha
  rw [getElem?_filterMap_indices _ _ fun _ => lt_of_mem_indicesWhere, hqj] at hb
  have hcontenta := of_mem_indicesWhere hi ha
  have hcontentb := of_mem_indicesWhere hj hb
  exact ⟨a, b, ha, hb, hab, by simpa using hcontenta, by simpa using hcontentb⟩

/-- **The contract of `alignNodes`**, for every branch of the matcher. -/
theorem aligned_alignNodes {oldNodes newNodes : List HtmlNode}
    (ho : ∀ n ∈ oldNodes, n.PlainTag) (hn : ∀ n ∈ newNodes, n.PlainTag) :
    Aligned oldNodes newNodes (alignNodes oldNodes newNodes) := by
  obtain ⟨holds, hnews, hpaired⟩ := alignNodes_spec (fun _ _ h => h)
    fun a ha b hb => interchangeable_of_strictKey (ho a ha) (hn b hb)
  exact ⟨holds, hnews, hpaired⟩

def sameKind : HtmlNode → HtmlNode → Bool
  | .text _ _, .text _ _ => true
  | .element _ _ _, .element _ _ _ => true
  | .void _, .void _ => true
  | _, _ => false

theorem sameKind_of_strictKey (h : strictKey a = strictKey b) :
    sameKind a b = true := by
  cases a <;> cases b <;> simp_all [strictKey, sameKind]

theorem sameKind_of_interchangeable (h : interchangeable a b = true) :
    sameKind a b = true := by
  cases a <;> cases b <;> simp_all [interchangeable, sameKind]

/-- **A slot list of `alignNodes`** has the new indices, those of the old content nodes, in order,
and pairs of one kind, of one tag where the grammar has it. -/
theorem slots_alignNodes (oldNodes newNodes : List HtmlNode) :
    (∀ slot ∈ alignNodes oldNodes newNodes, slot.old ≠ none ∨ slot.new ≠ none) ∧
      news (alignNodes oldNodes newNodes) = List.range newNodes.length ∧
      (olds (alignNodes oldNodes newNodes)).Pairwise (· < ·) ∧
      (∀ i, i ∈ olds (alignNodes oldNodes newNodes) ↔
        ∃ n, oldNodes[i]? = some n ∧ isIgnorable n = false) ∧
      ∀ slot ∈ alignNodes oldNodes newNodes, ∀ i j, slot.old = some i → slot.new = some j →
        ∃ a b, oldNodes[i]? = some a ∧ newNodes[j]? = some b ∧ isIgnorable b = false ∧
          sameKind a b = true ∧ (a.PlainTag → b.PlainTag → interchangeable a b = true) := by
  obtain ⟨holds, hnews, hpaired⟩ := @alignNodes_spec oldNodes newNodes
    (fun a b => sameKind a b = true ∧ (a.PlainTag → b.PlainTag → interchangeable a b = true))
    (fun a b h => ⟨sameKind_of_interchangeable h, fun _ _ => h⟩)
    fun a _ b _ h => ⟨sameKind_of_strictKey h, fun ha hb => interchangeable_of_strictKey ha hb h⟩
  refine ⟨fun slot hslot => (hpaired slot hslot).1, hnews, ?_, fun i => ?_,
    fun slot hslot i j hi hj => ?_⟩
  · rw [holds]
    exact pairwise_indicesWhere ..
  · rw [holds, mem_indicesWhere]
    simp
  · obtain ⟨a, b, ha, hb, hab, -, hcontent⟩ := (hpaired slot hslot).2 i j hi hj
    exact ⟨a, b, ha, hb, hcontent, hab⟩

/-- Two line breaks are paired. -/
theorem slots_alignNodes_voids : ⟨some 0, some 0⟩ ∈ alignNodes [.void "br"] [.void "br"] ∧
    ∃ a b, [HtmlNode.void "br"][0]? = some a ∧ [HtmlNode.void "br"][0]? = some b ∧
      interchangeable a b = true := by
  have hpair : ⟨some 0, some 0⟩ ∈ alignNodes [.void "br"] [.void "br"] := by decide +kernel
  obtain ⟨a, b, ha, hb, -, -, hab⟩ :=
    (slots_alignNodes [.void "br"] [.void "br"]).2.2.2.2 _ hpair 0 0 rfl rfl
  obtain rfl : HtmlNode.void "br" = a := Option.some.inj ha
  obtain rfl : HtmlNode.void "br" = b := Option.some.inj hb
  exact ⟨hpair, _, _, rfl, rfl, hab trivial trivial⟩

end DrepTalk
