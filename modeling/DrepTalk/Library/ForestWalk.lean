import Mathlib.Data.List.Basic
import Mathlib.Logic.Relation

/-!
# Walks through forests

A forest is given by the list of children of each node. `ForestWalk` says that a list of visits is
the depth-first walk through some siblings: each is visited before what is below it, and all of that
before the next sibling. A visit records at which depth it happened and from which parent.

What can be read off such a list: its nodes are those below the siblings (`mem_nodes`); behind each
visit stands the walk through the children of its node, in one block (`exists_block`); every visit
happens at the depth and from the parent of the siblings, or one level below another visit
(`depth_or_parent`); and the children of a node come in their own order (`sublist_children`).
-/

namespace DrepTalk

/-- A node, where it was met. -/
structure Visit (α : Type*) where
  node : α
  depth : ℕ
  parent : Option α

variable {α : Type*}

/-- The visits of a depth-first walk through siblings that have one parent. -/
inductive ForestWalk (children : α → List α) : Option α → ℕ → List α → List (Visit α) → Prop
  | nil {parent : Option α} {depth : ℕ} : ForestWalk children parent depth [] []
  | cons {parent : Option α} {depth : ℕ} {a : α} {siblings : List α} {below rest : List (Visit α)}
    (hbelow : ForestWalk children (some a) (depth + 1) (children a) below)
    (hrest : ForestWalk children parent depth siblings rest) :
    ForestWalk children parent depth (a :: siblings) (⟨a, depth, parent⟩ :: (below ++ rest))

namespace ForestWalk

variable {children : α → List α} {parent : Option α} {depth : ℕ} {siblings : List α}
  {visits : List (Visit α)}

/-- The siblings come in their order. -/
theorem sublist_siblings (h : ForestWalk children parent depth siblings visits) :
    siblings.Sublist (visits.map (·.node)) := by
  induction h with
  | nil => exact .slnil
  | cons _ _ _ ih =>
    rw [List.map_cons, List.map_append]
    exact (ih.trans (List.sublist_append_right _ _)).cons_cons _

/-- The nodes of a walk are the siblings and what is below them. -/
theorem mem_nodes (h : ForestWalk children parent depth siblings visits) {x : α} :
    x ∈ visits.map (·.node) ↔
      ∃ a ∈ siblings, Relation.ReflTransGen (fun y z => y ∈ children z) x a := by
  induction h with
  | nil => simp
  | cons _ _ ihbelow ihrest =>
    rw [List.map_cons, List.mem_cons, List.map_append, List.mem_append, ihbelow, ihrest,
      List.exists_mem_cons_iff, Relation.ReflTransGen.cases_tail_iff]
    constructor
    · rintro (rfl | ⟨c, hc, hx⟩ | hx)
      · exact .inl (.inl rfl)
      · exact .inl (.inr ⟨c, hx, hc⟩)
      · exact .inr hx
    · rintro ((rfl | ⟨c, hx, hc⟩) | hx)
      · exact .inl rfl
      · exact .inr (.inl ⟨c, hc, hx⟩)
      · exact .inr (.inr hx)

/-- Behind each visit stands the walk through the children of its node. -/
theorem exists_block (h : ForestWalk children parent depth siblings visits) {v : Visit α}
    (hv : v ∈ visits) : ∃ front block back, visits = front ++ v :: (block ++ back) ∧
      ForestWalk children (some v.node) (v.depth + 1) (children v.node) block := by
  induction h with
  | nil => cases hv
  | @cons parent depth a _ below rest hbelow _ ihbelow ihrest =>
    rcases List.mem_cons.mp hv with rfl | hv
    · exact ⟨[], below, rest, rfl, hbelow⟩
    · rcases List.mem_append.mp hv with hv | hv
      · obtain ⟨front, block, back, hsplit, hblock⟩ := ihbelow hv
        exact ⟨⟨a, depth, parent⟩ :: front, block, back ++ rest, by simp [hsplit], hblock⟩
      · obtain ⟨front, block, back, hsplit, hblock⟩ := ihrest hv
        exact ⟨⟨a, depth, parent⟩ :: (below ++ front), block, back, by simp [hsplit], hblock⟩

/-- The children of a node come in their order. -/
theorem sublist_children (h : ForestWalk children parent depth siblings visits) {v : Visit α}
    (hv : v ∈ visits) : (children v.node).Sublist (visits.map (·.node)) := by
  obtain ⟨front, block, back, rfl, hblock⟩ := h.exists_block hv
  refine hblock.sublist_siblings.trans (List.Sublist.map _ ?_)
  exact ((List.sublist_append_left block back).cons v).trans (List.sublist_append_right front _)

/-- A visit is one of the siblings, or one level below another visit. -/
theorem depth_or_parent (h : ForestWalk children parent depth siblings visits) {v : Visit α}
    (hv : v ∈ visits) : (v.node ∈ siblings ∧ v.depth = depth ∧ v.parent = parent) ∨
      ∃ u ∈ visits, v.node ∈ children u.node ∧ v.depth = u.depth + 1 ∧ v.parent = some u.node := by
  induction h with
  | nil => cases hv
  | cons _ _ ihbelow ihrest =>
    rcases List.mem_cons.mp hv with rfl | hv
    · exact .inl ⟨List.mem_cons_self, rfl, rfl⟩
    · rcases List.mem_append.mp hv with hv | hv
      · right
        rcases ihbelow hv with ⟨hchild, hdepth, hparent⟩ | ⟨u, hu, hv⟩
        · exact ⟨_, List.mem_cons_self, hchild, hdepth, hparent⟩
        · exact ⟨u, List.mem_cons_of_mem _ (List.mem_append_left _ hu), hv⟩
      · rcases ihrest hv with ⟨hsibling, hv⟩ | ⟨u, hu, hv⟩
        · exact .inl ⟨List.mem_cons_of_mem _ hsibling, hv⟩
        · exact .inr ⟨u, List.mem_cons_of_mem _ (List.mem_append_right _ hu), hv⟩

end ForestWalk

end DrepTalk
