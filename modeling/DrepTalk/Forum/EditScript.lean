import DrepTalk.Forum.HtmlDiff

/-!
# The edit script behind the rich diff

What the renderer does to two node lists, apart from writing it down: an `Edit` pairs two
nodes, inserts, deletes or replaces one, and `editScript` is the list of edits one call of
`diffNodeLists` goes through, whether it zips the cells of a row, pairs the sole content
nodes or follows the slots of `alignNodes`.

* **Refinement**: on well-formed lists a call of `diffNodeLists` renders its edit script, one
  edit after the other (`diffNodeListsBy_eq`).
* **Soundness**: the new sides of the edits are the new list in full and in order
  (`newNodes_editScript`), and a paired edit joins interchangeable nodes of the two lists
  (`pair_mem_editScript`).

So whatever is proved of rendering one edit holds of a call in every branch.
-/

namespace DrepTalk

open JsText

inductive Edit
  /-- A node of the old list stands in for one of the new list. -/
  | pair (old new : HtmlNode)
  /-- A node of the new list only. -/
  | insert (new : HtmlNode)
  /-- A node of the old list only. -/
  | delete (old : HtmlNode)
  /-- A deletion and an insertion with one text, whitespace of the new list between them. -/
  | replace (old : HtmlNode) (between : List Text) (new : HtmlNode)

namespace Edit

/-- The nodes of the new list an edit accounts for. -/
def newNodes : Edit → List HtmlNode
  | .pair _ new => [new]
  | .insert new => [new]
  | .delete _ => []
  | .replace _ between new => between.map (.text · true) ++ [new]

/-- The node of the old list an edit accounts for. -/
def oldNode : Edit → Option HtmlNode
  | .pair old _ => some old
  | .insert _ => none
  | .delete old => some old
  | .replace old _ _ => some old

def render (diffNode : DiffNode) (parentTag : Option String) : Edit → Except DiffError Rendered
  | .pair old new => diffNode old new parentTag
  | .insert new => do return ⟨← renderAdded new parentTag, countWords (nodeText new), 0⟩
  | .delete old =>
    if isBareText old parentTag then return ⟨[], 0, countWords (nodeText old)⟩
    else do return ⟨← markWhole old .del, 0, countWords (nodeText old)⟩
  | .replace old between new => do
    return .plain ((← markWhole old .del) ++ between.flatten ++ (← renderAdded new parentTag))

end Edit

/-- The edits of the cells of one row. -/
def rowEdits : List HtmlNode → List HtmlNode → List Edit
  | oldCells, [] => oldCells.map .delete
  | oldCells, node :: newNodes =>
    if isIgnorable node then .insert node :: rowEdits oldCells newNodes
    else match oldCells with
      | [] => .insert node :: rowEdits [] newNodes
      | oldCell :: oldCells =>
        if canPairAsSoleCandidate oldCell node then
          .pair oldCell node :: rowEdits oldCells newNodes
        else .delete oldCell :: .insert node :: rowEdits oldCells newNodes

/-- The edit of one new node beside the sole content node. -/
def soleEdit (oldNode node : HtmlNode) : Edit :=
  if isContent node then .pair oldNode node else .insert node

/-- The edits of a slot list, the first `skip` slots left out. -/
def slotEdits (oldNodes newNodes : List HtmlNode) (parentTag : Option String) :
    ℕ → List Slot → List Edit
  | _, [] => []
  | skip + 1, _ :: slots => slotEdits oldNodes newNodes parentTag skip slots
  | 0, slot :: slots =>
    match slot.old.bind (oldNodes[·]?), slot.new.bind (newNodes[·]?) with
    | some old, some new => .pair old new :: slotEdits oldNodes newNodes parentTag 0 slots
    | none, some new => .insert new :: slotEdits oldNodes newNodes parentTag 0 slots
    | none, none => slotEdits oldNodes newNodes parentTag 0 slots
    | some old, none =>
      if isBareText old parentTag then
        .delete old :: slotEdits oldNodes newNodes parentTag 0 slots
      else match findWholeReplacement newNodes slots with
        | some (new, between) =>
          if nodeText old = nodeText new then
            .replace old between new ::
              slotEdits oldNodes newNodes parentTag (between.length + 1) slots
          else .delete old :: slotEdits oldNodes newNodes parentTag 0 slots
        | none => .delete old :: slotEdits oldNodes newNodes parentTag 0 slots

/-- The edits of one call of `diffNodeLists`. -/
def editScript (parentTag : Option String) (oldNodes newNodes : List HtmlNode) : List Edit :=
  if parentTag = some "tr" then rowEdits (oldNodes.filter isContent) newNodes
  else match oldNodes.filter isContent, newNodes.filter isContent with
    | [oldNode], [newNode] =>
      if canPairAsSoleCandidate oldNode newNode then newNodes.map (soleEdit oldNode)
      else slotEdits oldNodes newNodes parentTag 0 (alignNodes oldNodes newNodes)
    | _, _ => slotEdits oldNodes newNodes parentTag 0 (alignNodes oldNodes newNodes)

/-! ### Refinement -/

/-- Nodes whose ignorable texts are white, as the parser flags them. -/
def WhiteIgnorable (nodes : List HtmlNode) : Prop :=
  ∀ t, .text t true ∈ nodes → trim t = []

theorem Rendered.append_assoc (r s t : Rendered) : r ++ s ++ t = r ++ (s ++ t) := by
  show (⟨_, _, _⟩ : Rendered) = ⟨_, _, _⟩
  simp [List.append_assoc, Nat.add_assoc]

@[simp] theorem joinAll_nil : joinAll [] = .ok (.plain []) := rfl

theorem joinAll_cons (r : Except DiffError Rendered) (rs : List (Except DiffError Rendered)) :
    joinAll (r :: rs) = (do return (← r) ++ (← joinAll rs)) := rfl

theorem render_insert_ignorable {diffNode : DiffNode} {parentTag : Option String}
    {node : HtmlNode} (hi : isIgnorable node = true) (hw : WhiteIgnorable [node]) :
    (Edit.insert node).render diffNode parentTag = .ok (.plain (nodeText node)) := by
  cases node with
  | text t ignorable =>
    obtain rfl : ignorable = true := hi
    have ht : trim t = [] := hw t (by simp)
    have hwords : countWords t = 0 := by
      rw [countWords, words_eq_nil_of_white (trim_eq_nil_iff.mp ht), List.length_nil]
    simp only [Edit.render, renderAdded, markWhole, wrapWord, ht, if_true, nodeText, hwords]
    split <;> rfl
  | element => cases hi
  | void => cases hi

section Refinement

variable (diffNode : DiffNode)

theorem addedCell_eq (node : HtmlNode) :
    addedCell node = (Edit.insert node).render diffNode (some "tr") := by
  cases node <;> simp [addedCell, Edit.render, renderAdded, isBareText, noSpan, NO_SPAN_PARENTS,
    nodeText]

theorem removedCell_eq (node : HtmlNode) :
    removedCell node = (Edit.delete node).render diffNode (some "tr") := by
  cases node <;> simp [removedCell, Edit.render, isBareText, noSpan, NO_SPAN_PARENTS]

theorem diffRowCells_eq : ∀ (newNodes oldCells : List HtmlNode), WhiteIgnorable newNodes →
    diffRowCells diffNode oldCells newNodes
      = joinAll ((rowEdits oldCells newNodes).map (Edit.render diffNode (some "tr")))
  | [], oldCells, _ => by
    rw [diffRowCells.eq_def, rowEdits.eq_def, List.map_map]
    exact congrArg joinAll (List.map_congr_left fun c _ => removedCell_eq diffNode c)
  | node :: newNodes, oldCells, hw => by
    have ih := fun oldCells => diffRowCells_eq newNodes oldCells fun t ht => hw t (by simp [ht])
    rw [diffRowCells.eq_def, rowEdits.eq_def]
    dsimp only
    split_ifs with hi
    · rw [List.map_cons, joinAll_cons, ih, render_insert_ignorable hi fun t ht => hw t (by
        simp only [List.mem_singleton] at ht
        simp [ht])]
      rfl
    · cases oldCells with
      | nil => rw [List.map_cons, joinAll_cons, ih, addedCell_eq diffNode]
      | cons oldCell oldCells =>
        dsimp only
        split_ifs with hpair
        · rw [List.map_cons, joinAll_cons, ih]
          rfl
        · rw [List.map_cons, joinAll_cons, List.map_cons, joinAll_cons, ih,
            addedCell_eq diffNode, removedCell_eq diffNode]
          simp only [bind_assoc, pure_bind, Rendered.append_assoc]

theorem diffSoleContent_eq {oldNode : HtmlNode} {parentTag : Option String} {node : HtmlNode}
    (hw : WhiteIgnorable [node]) :
    diffSoleContent diffNode oldNode parentTag node
      = (soleEdit oldNode node).render diffNode parentTag := by
  cases node with
  | text t ignorable =>
    cases ignorable with
    | true => exact (render_insert_ignorable rfl hw).symm
    | false => rfl
  | element => rfl
  | void => rfl

/-- Slots whose indices lie in the lists. -/
def SlotsInRange (oldNodes newNodes : List HtmlNode) (slots : List Slot) : Prop :=
  ∀ s ∈ slots, (∀ i, s.old = some i → i < oldNodes.length) ∧
    ∀ j, s.new = some j → j < newNodes.length

theorem slotsInRange_alignNodes {oldNodes newNodes : List HtmlNode}
    (ho : ∀ n ∈ oldNodes, n.PlainTag) (hn : ∀ n ∈ newNodes, n.PlainTag) :
    SlotsInRange oldNodes newNodes (alignNodes oldNodes newNodes) := by
  obtain ⟨holds, hnews, -⟩ := aligned_alignNodes ho hn
  refine fun s hs => ⟨fun i hi => ?_, fun j hj => ?_⟩
  · have hmem : i ∈ olds (alignNodes oldNodes newNodes) := List.mem_filterMap.mpr ⟨s, hs, hi⟩
    rw [holds, mem_indicesWhere] at hmem
    obtain ⟨n, hn, -⟩ := hmem
    exact (List.getElem?_eq_some_iff.mp hn).1
  · have hmem : j ∈ news (alignNodes oldNodes newNodes) := List.mem_filterMap.mpr ⟨s, hs, hj⟩
    rwa [hnews, List.mem_range] at hmem

theorem renderSlots_eq (oldNodes newNodes : List HtmlNode) (parentTag : Option String) :
    ∀ (slots : List Slot) (skip : ℕ), SlotsInRange oldNodes newNodes slots →
      renderSlots diffNode oldNodes newNodes parentTag skip slots
        = joinAll ((slotEdits oldNodes newNodes parentTag skip slots).map
            (Edit.render diffNode parentTag))
  | [], skip, _ => by cases skip <;> rfl
  | _ :: slots, skip + 1, h => by
    rw [renderSlots, slotEdits]
    exact renderSlots_eq oldNodes newNodes parentTag slots skip fun s hs => h s (by simp [hs])
  | ⟨old, new⟩ :: slots, 0, h => by
    have ih := fun skip => renderSlots_eq oldNodes newNodes parentTag slots skip
      fun s hs => h s (by simp [hs])
    obtain ⟨hold, hnew⟩ := h ⟨old, new⟩ (by simp)
    rw [renderSlots, slotEdits]
    rcases old with _ | i <;> rcases new with _ | j
    · exact ih 0
    · -- new only
      simp only [Option.bind_none, Option.bind_some, List.getElem?_eq_getElem (hnew j rfl), ih,
        List.map_cons, joinAll_cons]
      simp [Edit.render]
    · -- old only: a bare text, a node replaced further on, or a deletion
      simp only [Option.bind_none, Option.bind_some, List.getElem?_eq_getElem (hold i rfl)]
      split_ifs with htext
      · simp only [ih, List.map_cons, joinAll_cons, Edit.render, if_pos htext]
        rfl
      · rcases findWholeReplacement newNodes slots with _ | ⟨new, between⟩
        · simp [ih, joinAll_cons, Edit.render, htext]
        · dsimp only
          split_ifs with heq
          · simp [ih, joinAll_cons, Edit.render]
          · simp [ih, joinAll_cons, Edit.render, htext]
    · -- a pair
      simp only [Option.bind_some, List.getElem?_eq_getElem (hold i rfl),
        List.getElem?_eq_getElem (hnew j rfl), ih, List.map_cons, joinAll_cons]
      rfl

/-- **Refinement.** A call of `diffNodeLists` renders its edit script. -/
theorem diffNodeListsBy_eq {oldNodes newNodes : List HtmlNode} {parentTag : Option String}
    (hw : WhiteIgnorable newNodes) (ho : ∀ n ∈ oldNodes, n.PlainTag)
    (hn : ∀ n ∈ newNodes, n.PlainTag) :
    diffNodeListsBy diffNode oldNodes newNodes parentTag
      = joinAll ((editScript parentTag oldNodes newNodes).map
          (Edit.render diffNode parentTag)) := by
  have hslots : renderSlots diffNode oldNodes newNodes parentTag 0 (alignNodes oldNodes newNodes)
      = joinAll ((slotEdits oldNodes newNodes parentTag 0 (alignNodes oldNodes newNodes)).map
          (Edit.render diffNode parentTag)) :=
    renderSlots_eq diffNode _ _ _ _ 0 (slotsInRange_alignNodes ho hn)
  rw [diffNodeListsBy, editScript]
  split_ifs with htr
  · rw [htr]
    exact diffRowCells_eq diffNode _ _ hw
  · rcases hold : oldNodes.filter isContent with _ | ⟨oldNode, _ | ⟨_, _⟩⟩
    · exact hslots
    · rcases hnew : newNodes.filter isContent with _ | ⟨newNode, _ | ⟨_, _⟩⟩
      · exact hslots
      · dsimp only
        split_ifs
        · rw [List.map_map]
          refine congrArg joinAll (List.map_congr_left fun node hnode => ?_)
          refine diffSoleContent_eq diffNode fun t ht => hw t ?_
          rwa [List.mem_singleton.mp ht]
        · exact hslots
      · exact hslots
    · exact hslots

end Refinement

/-! ### Soundness -/

/-- What a look-ahead for a replacement consumes: white texts of the new list and then its
first content node, all of them new-only. -/
theorem findWholeReplacement_spec {newNodes : List HtmlNode} : ∀ {slots : List Slot}
    {node : HtmlNode} {between : List Text},
    findWholeReplacement newNodes slots = some (node, between) →
      olds (slots.take (between.length + 1)) = [] ∧
      (news (slots.take (between.length + 1))).filterMap (newNodes[·]?)
        = between.map (.text · true) ++ [node]
  | [], _, _, h => by simp [findWholeReplacement] at h
  | slot :: slots, node, between, h => by
    rw [findWholeReplacement] at h
    split at h
    · rename_i j hold hnew
      split at h
      · rename_i t htext
        obtain ⟨⟨node', between'⟩, hrec, heq⟩ := Option.map_eq_some_iff.mp h
        cases heq
        obtain ⟨ho, hn⟩ := findWholeReplacement_spec hrec
        simp only [List.length_cons, List.take_succ_cons, olds_cons, news_cons, hold, hnew,
          Option.toList_none, Option.toList_some, List.nil_append,
          List.filterMap_cons_some htext, ho, hn, List.map_cons, List.cons_append]
        exact ⟨trivial, trivial⟩
      · rename_i candidate _ hcandidate
        cases h
        simp [hold, hnew, hcandidate, olds, news]
      · cases h
    · cases h

section Slots

variable (oldNodes newNodes : List HtmlNode) (parentTag : Option String)

theorem newNodes_slotEdits : ∀ (slots : List Slot) (skip : ℕ),
    (slotEdits oldNodes newNodes parentTag skip slots).flatMap Edit.newNodes
      = (news (slots.drop skip)).filterMap (newNodes[·]?)
  | [], skip => by cases skip <;> simp [slotEdits, news]
  | _ :: slots, skip + 1 => newNodes_slotEdits slots skip
  | slot :: slots, 0 => by
    have ih := newNodes_slotEdits slots
    have hhead : (news (slot :: slots)).filterMap (newNodes[·]?)
        = (slot.new.bind (newNodes[·]?)).toList ++ (news slots).filterMap (newNodes[·]?) := by
      rw [news_cons, List.filterMap_append]
      cases slot.new with
      | none => rfl
      | some j => cases hj : newNodes[j]? <;> simp [hj]
    rw [slotEdits, List.drop_zero, hhead]
    split
    · rename_i hnew
      simp [Edit.newNodes, ih, hnew]
    · rename_i hnew
      simp [Edit.newNodes, ih, hnew]
    · rename_i hnew
      simp [ih, hnew]
    · rename_i hnew
      simp only [hnew, Option.toList_none, List.nil_append]
      split_ifs
      · simp [Edit.newNodes, ih]
      · split
        · rename_i node between hfind
          split_ifs
          · -- the replacement writes the nodes of the slots it skips
            obtain ⟨-, hn⟩ := findWholeReplacement_spec hfind
            have hsplit := congrArg (fun l => (news l).filterMap (newNodes[·]?))
              (List.take_append_drop (between.length + 1) slots)
            simp only [news_append, List.filterMap_append, hn] at hsplit
            rw [List.flatMap_cons, ih, Edit.newNodes, hsplit]
          · simp [Edit.newNodes, ih]
        · simp [Edit.newNodes, ih]

theorem oldNode_slotEdits : ∀ (slots : List Slot) (skip : ℕ),
    (slotEdits oldNodes newNodes parentTag skip slots).filterMap Edit.oldNode
      = (olds (slots.drop skip)).filterMap (oldNodes[·]?)
  | [], skip => by cases skip <;> simp [slotEdits, olds]
  | _ :: slots, skip + 1 => oldNode_slotEdits slots skip
  | slot :: slots, 0 => by
    have ih := oldNode_slotEdits slots
    have hhead : (olds (slot :: slots)).filterMap (oldNodes[·]?)
        = (slot.old.bind (oldNodes[·]?)).toList ++ (olds slots).filterMap (oldNodes[·]?) := by
      rw [olds_cons, List.filterMap_append]
      cases slot.old with
      | none => rfl
      | some i => cases hi : oldNodes[i]? <;> simp [hi]
    rw [slotEdits, List.drop_zero, hhead]
    split
    · rename_i hold _
      simp [Edit.oldNode, ih, hold]
    · rename_i hold _
      simp [List.filterMap_cons, Edit.oldNode, ih, hold]
    · rename_i hold _
      simp [ih, hold]
    · rename_i hold _
      simp only [hold, Option.toList_some, List.singleton_append]
      split_ifs
      · simp [Edit.oldNode, ih]
      · split
        · rename_i node between hfind
          split_ifs
          · -- the slots it skips name no old node
            obtain ⟨ho, -⟩ := findWholeReplacement_spec hfind
            have hsplit := congrArg olds (List.take_append_drop (between.length + 1) slots)
            rw [olds_append, ho, List.nil_append] at hsplit
            rw [List.filterMap_cons_some (by rfl), ih, hsplit]
          · simp [Edit.oldNode, ih]
        · simp [Edit.oldNode, ih]

theorem slot_of_pair_mem {o n : HtmlNode} : ∀ {slots : List Slot} {skip : ℕ},
    .pair o n ∈ slotEdits oldNodes newNodes parentTag skip slots →
      ∃ s ∈ slots, s.old.bind (oldNodes[·]?) = some o ∧ s.new.bind (newNodes[·]?) = some n
  | [], skip, h => by cases skip <;> simp [slotEdits] at h
  | slot :: slots, skip + 1, h => by
    obtain ⟨s, hs, hside⟩ := slot_of_pair_mem
      (show .pair o n ∈ slotEdits oldNodes newNodes parentTag skip slots from h)
    exact ⟨s, by simp [hs], hside⟩
  | slot :: slots, 0, h => by
    have hrest : ∀ {skip}, .pair o n ∈ slotEdits oldNodes newNodes parentTag skip slots →
        ∃ s ∈ slot :: slots, s.old.bind (oldNodes[·]?) = some o ∧
          s.new.bind (newNodes[·]?) = some n := fun h => by
      obtain ⟨s, hs, hside⟩ := slot_of_pair_mem h
      exact ⟨s, by simp [hs], hside⟩
    rw [slotEdits] at h
    split at h
    · rename_i hold hnew
      rcases List.mem_cons.mp h with heq | h
      · cases heq
        exact ⟨slot, by simp, hold, hnew⟩
      · exact hrest h
    · exact hrest (by simpa using h)
    · exact hrest h
    · split_ifs at h
      · exact hrest (by simpa using h)
      · split at h
        · split_ifs at h
          · exact hrest (by simpa using h)
          · exact hrest (by simpa using h)
        · exact hrest (by simpa using h)

end Slots

/-- What an edit script between two lists is for: its sides are the lists, in order, and a pair
joins nodes that could stand in for each other. -/
structure Transforms (oldNodes newNodes : List HtmlNode) (script : List Edit) : Prop where
  new_eq : script.flatMap Edit.newNodes = newNodes
  old_eq : script.filterMap Edit.oldNode = oldNodes.filter isContent
  pair_interchangeable : ∀ o n, .pair o n ∈ script → interchangeable o n = true

/-- The edits lead from the one list to the other, and pair interchangeable nodes. -/
structure LeadsTo (old new : List HtmlNode) (script : List Edit) : Prop where
  new_eq : script.flatMap Edit.newNodes = new
  old_eq : script.filterMap Edit.oldNode = old
  pair_interchangeable : ∀ o n, .pair o n ∈ script → interchangeable o n = true

namespace LeadsTo

variable {old new : List HtmlNode} {script : List Edit} {o n : HtmlNode}

theorem insert (h : LeadsTo old new script) : LeadsTo old (n :: new) (.insert n :: script) where
  new_eq := by simp [Edit.newNodes, h.new_eq]
  old_eq := by simp [List.filterMap_cons, Edit.oldNode, h.old_eq]
  pair_interchangeable := by simpa using h.pair_interchangeable

theorem delete (h : LeadsTo old new script) : LeadsTo (o :: old) new (.delete o :: script) where
  new_eq := by simp [Edit.newNodes, h.new_eq]
  old_eq := by simp [Edit.oldNode, h.old_eq]
  pair_interchangeable := by simpa using h.pair_interchangeable

theorem pair (h : LeadsTo old new script) (hpair : interchangeable o n = true) :
    LeadsTo (o :: old) (n :: new) (.pair o n :: script) where
  new_eq := by simp [Edit.newNodes, h.new_eq]
  old_eq := by simp [Edit.oldNode, h.old_eq]
  pair_interchangeable o' n' hmem := by
    rcases List.mem_cons.mp hmem with heq | hmem
    · obtain ⟨rfl, rfl⟩ := Edit.pair.inj heq
      exact hpair
    · exact h.pair_interchangeable o' n' hmem

end LeadsTo

theorem leadsTo_rowEdits : ∀ (newNodes oldCells : List HtmlNode),
    LeadsTo oldCells newNodes (rowEdits oldCells newNodes)
  | [], oldCells => by
    rw [rowEdits.eq_def]
    refine ⟨?_, ?_, by simp⟩
    · simp [List.flatMap_map, Edit.newNodes]
    · simp [List.filterMap_map, Function.comp_def, Edit.oldNode]
  | node :: newNodes, oldCells => by
    have ih := leadsTo_rowEdits newNodes
    rw [rowEdits.eq_def]
    dsimp only
    split_ifs
    · exact (ih oldCells).insert
    · rcases oldCells with _ | ⟨oldCell, oldCells⟩
      · exact (ih []).insert
      · dsimp only
        split_ifs with hpair
        · exact (ih oldCells).pair hpair
        · exact (ih oldCells).insert.delete

theorem transforms_soleEdits {oldNodes newNodes : List HtmlNode} {oldNode newNode : HtmlNode}
    (hold : oldNodes.filter isContent = [oldNode]) (hnew : newNodes.filter isContent = [newNode])
    (hpair : interchangeable oldNode newNode = true) :
    Transforms oldNodes newNodes (newNodes.map (soleEdit oldNode)) := by
  refine ⟨?_, ?_, fun o n hmem => ?_⟩
  · have hone : ∀ node, (soleEdit oldNode node).newNodes = [node] := fun node => by
      rw [soleEdit]
      split_ifs <;> rfl
    simp [List.flatMap_map, hone]
  · have hold' : ∀ nodes : List HtmlNode, (nodes.map (soleEdit oldNode)).filterMap Edit.oldNode
        = (nodes.filter isContent).map fun _ => oldNode := by
      intro nodes
      induction nodes with
      | nil => rfl
      | cons node nodes ih => by_cases hc : isContent node <;>
        simp [List.filterMap_cons, soleEdit, hc, Edit.oldNode, ih]
    rw [hold', hnew, hold]
    rfl
  · obtain ⟨node, hnode, heq⟩ := List.mem_map.mp hmem
    rw [soleEdit] at heq
    split_ifs at heq with hc
    obtain ⟨rfl, rfl⟩ := Edit.pair.inj heq
    have hmem' : node ∈ newNodes.filter isContent := List.mem_filter.mpr ⟨hnode, hc⟩
    rw [hnew, List.mem_singleton] at hmem'
    exact hmem' ▸ hpair

theorem transforms_slotEdits {oldNodes newNodes : List HtmlNode} {slots : List Slot}
    (h : Aligned oldNodes newNodes slots) (parentTag : Option String) :
    Transforms oldNodes newNodes (slotEdits oldNodes newNodes parentTag 0 slots) := by
  refine ⟨?_, ?_, fun o n hmem => ?_⟩
  · rw [newNodes_slotEdits, List.drop_zero, h.news_eq, filterMap_range_getElem?]
  · rw [oldNode_slotEdits, List.drop_zero, h.olds_eq]
    exact filterMap_indicesWhere isContent oldNodes
  · obtain ⟨s, hs, hold, hnew⟩ := slot_of_pair_mem _ _ _ hmem
    obtain ⟨i, hi, hio⟩ := Option.bind_eq_some_iff.mp hold
    obtain ⟨j, hj, hjn⟩ := Option.bind_eq_some_iff.mp hnew
    obtain ⟨a, b, ha, hb, hab, -⟩ := (h.paired s hs).2 i j hi hj
    rw [hio] at ha
    rw [hjn] at hb
    cases ha
    cases hb
    exact hab

/-- **Soundness.** Whatever branch is taken, the edits of a call lead from the old list to the
new one. -/
theorem transforms_editScript {oldNodes newNodes : List HtmlNode} (parentTag : Option String)
    (ho : ∀ n ∈ oldNodes, n.PlainTag) (hn : ∀ n ∈ newNodes, n.PlainTag) :
    Transforms oldNodes newNodes (editScript parentTag oldNodes newNodes) := by
  have hslots := transforms_slotEdits (aligned_alignNodes ho hn) parentTag
  rw [editScript]
  split_ifs
  · obtain ⟨hnew, hold, hpair⟩ := leadsTo_rowEdits newNodes (oldNodes.filter isContent)
    exact ⟨hnew, hold, hpair⟩
  · split
    · rename_i oldNode newNode holdNode hnewNode
      split_ifs with hpair
      · exact transforms_soleEdits holdNode hnewNode hpair
      · exact hslots
    · exact hslots

end DrepTalk
