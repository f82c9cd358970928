import DrepTalk.Forum.AlignNodes

/-!
# The rich diff of two post bodies

`src/lib/forum/htmlDiff.ts`: both bodies are parsed into node trees, two functions that call
each other walk them and write marked HTML, and the words added and removed are counted on
the way. A mutable counter of the source is a pair of counts returned beside the markup, so
the scratch counter of a trial run is what the inner call returns. Every `throw` of the
source is an error of the model.

`diffNodeListsBy` and `diffNodeBy` are the bodies of the two functions with the call to the
other one as a parameter; `diffNodeLists` ties the knot with a recursion depth, for which
`richDiff` passes the depth of the new tree. A call that runs out of depth is an error too,
so that showing no error to be reachable includes showing the depth sufficient.
-/

namespace DrepTalk

open JsText

inductive DiffError
  /-- `diffClass` on a name outside `DIFF_CLASSES`. -/
  | unknownClass (name : String)
  /-- A node other than ignorable whitespace beside the sole content node. -/
  | besideSoleContent
  /-- A pair of different kinds or tags in `diffNode`. -/
  | mismatchedPair
  /-- A slot index without a node. -/
  | missingNode
  /-- The recursion depth of the model is used up. -/
  | tooDeep
  deriving DecidableEq

/-- Markup together with the words it adds and removes. -/
structure Rendered where
  html : Text
  added : ℕ
  removed : ℕ

namespace Rendered

def plain (html : Text) : Rendered := ⟨html, 0, 0⟩

instance : Append Rendered :=
  ⟨fun r s => ⟨r.html ++ s.html, r.added + s.added, r.removed + s.removed⟩⟩

@[simp] theorem html_append (r s : Rendered) : (r ++ s).html = r.html ++ s.html := rfl

@[simp] theorem added_append (r s : Rendered) : (r ++ s).added = r.added + s.added := rfl

@[simp] theorem removed_append (r s : Rendered) : (r ++ s).removed = r.removed + s.removed := rfl

end Rendered

/-- Runs renderers from left to right and joins what they write. -/
def joinAll : List (Except DiffError Rendered) → Except DiffError Rendered
  | [] => .ok (.plain [])
  | r :: rs => do
    let first ← r
    let rest ← joinAll rs
    return first ++ rest

def attrsEqual (a b : Attrs) : Bool :=
  a.length == b.length && a.all fun e => b.lookup e.1 == some e.2

def diffClass (name : String) : Except DiffError String :=
  if name ∈ DIFF_CLASSES then .ok name else .error (.unknownClass name)

inductive MarkKind
  | add
  | del

/-- The name of a side inside a class. -/
def MarkKind.name : MarkKind → String
  | .add => "add"
  | .del => "del"

/-- True for two nodes that could stand in for each other. -/
def canPairAsSoleCandidate : HtmlNode → HtmlNode → Bool := interchangeable

/-- Wraps the changed core of a text run in a marker span, whitespace kept outside. -/
def wrapWord (kind : MarkKind) (text : Text) : Except DiffError Text := do
  if trim text = [] then return text
  let cls ← diffClass ("diff-" ++ kind.name)
  let core := slice text (leading text).length (text.length - (trailing text).length)
  return leading text ++ "<span class=\"".toList ++ cls.toList ++ "\">".toList ++ core ++
    "</span>".toList ++ trailing text

def classString (cls : String) : Text := " class=\"".toList ++ cls.toList ++ "\"".toList

/-- An element as written around its content. -/
def elementString (tag : String) (attrs : Attrs) (cls content : Text) : Text :=
  '<' :: tag.toList ++ attrString attrs ++ cls ++ '>' :: content ++ '<' :: '/' :: tag.toList ++
    ['>']

/-- Serializes a whole subtree with one marker class on its outermost element. -/
def markWhole (node : HtmlNode) (kind : MarkKind) : Except DiffError Text :=
  match node with
  | .text t _ => wrapWord kind t
  | .void tag => return '<' :: tag.toList ++ ['>']
  | .element tag attrs children => do
    let cls ← diffClass
      (if tag ∈ BLOCK_TAGS then "diff-block-" ++ kind.name else "diff-" ++ kind.name)
    return elementString tag attrs (classString cls) (serializeNodes children)

/-- Containers whose content model has no room for a marker span as a direct child. -/
def NO_SPAN_PARENTS : List String := ["ul", "ol", "table", "thead", "tbody", "tr"]

/-- `parentTag !== null && NO_SPAN_PARENTS.has(parentTag)`. -/
def noSpan : Option String → Bool
  | some tag => decide (tag ∈ NO_SPAN_PARENTS)
  | none => false

/-- One operation of a word diff as markup. -/
def renderOp (op : WordOp) : Except DiffError Rendered :=
  match op.type with
  | .same => return .plain op.text
  | .add => do return ⟨← wrapWord .add op.text, countWords op.text, 0⟩
  | .del => do return ⟨← wrapWord .del op.text, 0, countWords op.text⟩

/-- The words of the operations of one type. -/
def opWords (type : OpType) (ops : List WordOp) : ℕ :=
  (ops.map fun op => if op.type = type then countWords op.text else 0).sum

def diffText (oldText newText : Text) (parentTag : Option String) : Except DiffError Rendered :=
  let ops := wordDiff oldText newText
  if noSpan parentTag then return ⟨newText, opWords .add ops, opWords .del ops⟩
  else joinAll (ops.map renderOp)

def isContent (node : HtmlNode) : Bool := !isIgnorable node

/-- Looks ahead from an old-only slot for the new-only slot it might be a whole-node
replacement for: the candidate and the whitespace passed on the way. -/
def findWholeReplacement (newNodes : List HtmlNode) : List Slot → Option (HtmlNode × List Text)
  | [] => none
  | slot :: slots =>
    match slot.old, slot.new with
    | none, some newIndex =>
      match newNodes[newIndex]? with
      | some (.text t true) =>
        (findWholeReplacement newNodes slots).map fun (node, between) => (node, t :: between)
      | some candidate => some (candidate, [])
      | none => none
    | _, _ => none

/-- The function `diffNode` as the list functions call it. -/
abbrev DiffNode := HtmlNode → HtmlNode → Option String → Except DiffError Rendered

/-- `added` of `diffRowCells`. -/
def addedCell (node : HtmlNode) : Except DiffError Rendered :=
  match node with
  | .text t _ => return ⟨t, countWords (nodeText node), 0⟩
  | _ => do return ⟨← markWhole node .add, countWords (nodeText node), 0⟩

/-- `removed` of `diffRowCells`. -/
def removedCell (node : HtmlNode) : Except DiffError Rendered :=
  match node with
  | .text _ _ => return ⟨[], 0, countWords (nodeText node)⟩
  | _ => do return ⟨← markWhole node .del, 0, countWords (nodeText node)⟩

/-- Cells inside one row, zipped by column: the old cells from the current column on against
the new nodes that are left. -/
def diffRowCells (diffNode : DiffNode) : List HtmlNode → List HtmlNode →
    Except DiffError Rendered
  | oldCells, [] => joinAll (oldCells.map removedCell)
  | oldCells, node :: newNodes => do
    if isIgnorable node then
      return .plain (nodeText node) ++ (← diffRowCells diffNode oldCells newNodes)
    match oldCells with
    | [] => return (← addedCell node) ++ (← diffRowCells diffNode [] newNodes)
    | oldCell :: oldCells =>
      if canPairAsSoleCandidate oldCell node then
        return (← diffNode oldCell node (some "tr")) ++
          (← diffRowCells diffNode oldCells newNodes)
      else
        return (← removedCell oldCell) ++ (← addedCell node) ++
          (← diffRowCells diffNode oldCells newNodes)

/-- The new side when each side has one content node and the two can be paired. The content
node is told from the whitespace around it by `isContent`, which only it satisfies. -/
def diffSoleContent (diffNode : DiffNode) (oldNode : HtmlNode) (parentTag : Option String)
    (node : HtmlNode) : Except DiffError Rendered :=
  if isContent node then diffNode oldNode node parentTag
  else match node with
    | .text t _ => return .plain t
    | _ => throw .besideSoleContent

/-- `node.kind === 'text'` in a place where no text may be wrapped. -/
def isBareText (node : HtmlNode) (parentTag : Option String) : Bool :=
  match node with
  | .text _ _ => noSpan parentTag
  | _ => false

/-- A new-only node: plain where a text may not be wrapped, marked whole elsewhere. -/
def renderAdded (node : HtmlNode) (parentTag : Option String) : Except DiffError Text :=
  if isBareText node parentTag then return nodeText node else markWhole node .add

/-- The slot loop. The first `skip` slots were consumed by a whole-node replacement. -/
def renderSlots (diffNode : DiffNode) (oldNodes newNodes : List HtmlNode)
    (parentTag : Option String) : ℕ → List Slot → Except DiffError Rendered
  | _, [] => .ok (.plain [])
  | skip + 1, _ :: slots => renderSlots diffNode oldNodes newNodes parentTag skip slots
  | 0, slot :: slots =>
    match slot.old, slot.new with
    | some oldIndex, some newIndex =>
      match oldNodes[oldIndex]?, newNodes[newIndex]? with
      | some oldNode, some node => do
        return (← diffNode oldNode node parentTag) ++
          (← renderSlots diffNode oldNodes newNodes parentTag 0 slots)
      | _, _ => throw .missingNode
    | none, some newIndex =>
      match newNodes[newIndex]? with
      | some node => do
        return ⟨← renderAdded node parentTag, countWords (nodeText node), 0⟩ ++
          (← renderSlots diffNode oldNodes newNodes parentTag 0 slots)
      | none => throw .missingNode
    | none, none => renderSlots diffNode oldNodes newNodes parentTag 0 slots
    | some oldIndex, none =>
      match oldNodes[oldIndex]? with
      | none => throw .missingNode
      | some oldNode => do
        -- text that may not be wrapped is dropped from the markup, but counted
        if isBareText oldNode parentTag then
          return ⟨[], 0, countWords (nodeText oldNode)⟩ ++
            (← renderSlots diffNode oldNodes newNodes parentTag 0 slots)
        match findWholeReplacement newNodes slots with
        | some (node, between) =>
          -- the two halves of one replacement with the same text: no word counts
          if nodeText oldNode = nodeText node then
            return .plain ((← markWhole oldNode .del) ++ between.flatten ++
                (← renderAdded node parentTag)) ++
              (← renderSlots diffNode oldNodes newNodes parentTag (between.length + 1) slots)
          else
            return ⟨← markWhole oldNode .del, 0, countWords (nodeText oldNode)⟩ ++
              (← renderSlots diffNode oldNodes newNodes parentTag 0 slots)
        | none =>
          return ⟨← markWhole oldNode .del, 0, countWords (nodeText oldNode)⟩ ++
            (← renderSlots diffNode oldNodes newNodes parentTag 0 slots)

/-- The body of `diffNodeLists`. -/
def diffNodeListsBy (diffNode : DiffNode) (oldNodes newNodes : List HtmlNode)
    (parentTag : Option String) : Except DiffError Rendered :=
  if parentTag = some "tr" then diffRowCells diffNode (oldNodes.filter isContent) newNodes
  else
    let slots := renderSlots diffNode oldNodes newNodes parentTag 0
    match oldNodes.filter isContent, newNodes.filter isContent with
    | [oldNode], [newNode] =>
      if canPairAsSoleCandidate oldNode newNode then
        joinAll (newNodes.map (diffSoleContent diffNode oldNode parentTag))
      else slots (alignNodes oldNodes newNodes)
    | _, _ => slots (alignNodes oldNodes newNodes)

/-- Prose blocks whose moved inline structure is marked quietly. -/
def META_SHORTCUT_TAGS : List String := ["p", "h1", "h2", "h3", "h4", "li", "td", "th"]

/-- The body of `diffNode`. -/
def diffNodeBy
    (diffNodeLists : List HtmlNode → List HtmlNode → Option String → Except DiffError Rendered)
    (oldNode newNode : HtmlNode) (parentTag : Option String) : Except DiffError Rendered :=
  match oldNode, newNode with
  | .text oldText _, .text newText _ => diffText oldText newText parentTag
  | .void _, _ => return .plain (serializeNodes [newNode])
  | _, .void _ => return .plain (serializeNodes [newNode])
  | .element oldTag oldAttrs oldChildren, .element tag attrs children => do
    if oldTag ≠ tag then throw .mismatchedPair
    if tag = "pre" then
      -- whitespace is meaningful inside pre, so a changed code block is replaced whole
      if nodeText oldNode = nodeText newNode then return .plain (serializeNodes [newNode])
      return ⟨(← markWhole oldNode .del) ++ (← markWhole newNode .add),
        countWords (nodeText newNode), countWords (nodeText oldNode)⟩
    let trial ← diffNodeLists oldChildren children (some tag)
    if tag ∈ META_SHORTCUT_TAGS ∧ nodeText oldNode = nodeText newNode ∧
        (trial.added > 0 ∨ trial.removed > 0) then
      let cls ← diffClass "diff-meta"
      return .plain (elementString tag attrs (classString cls) (serializeNodes children))
    let cls ← if attrsEqual oldAttrs attrs then pure [] else classString <$> diffClass "diff-meta"
    return { trial with html := elementString tag attrs cls trial.html }
  | _, _ => throw .mismatchedPair

/-- `diffNodeLists` and, through `diffNodeBy`, `diffNode`, to a bounded depth. -/
def diffNodeLists : ℕ → List HtmlNode → List HtmlNode → Option String →
    Except DiffError Rendered
  | 0 => fun _ _ _ => throw .tooDeep
  | depth + 1 => diffNodeListsBy (diffNodeBy (diffNodeLists depth))

mutual

def nodeDepth : HtmlNode → ℕ
  | .text _ _ => 0
  | .void _ => 0
  | .element _ _ children => nodesDepth children + 1

def nodesDepth : List HtmlNode → ℕ
  | [] => 0
  | n :: ns => max (nodeDepth n) (nodesDepth ns)

end

/-- What the diff of a version pair hands to the page. -/
structure RichDiff where
  html : Text
  added : ℕ
  removed : ℕ
  changed : Bool
  degraded : Bool
  deriving DecidableEq

/-- Diffs two sanitized post bodies into marked HTML plus word-level change stats. -/
def richDiff (oldHtml newHtml : Text) : Except DiffError RichDiff :=
  if oldHtml = newHtml then
    match parseSanitizedHtml newHtml with
    | .error _ => return ⟨[], 0, 0, false, true⟩
    | .ok _ => return ⟨newHtml, 0, 0, false, false⟩
  else
    match parseSanitizedHtml oldHtml, parseSanitizedHtml newHtml with
    | .ok oldNodes, .ok newNodes => do
      let r ← diffNodeLists (nodesDepth newNodes + 1) oldNodes newNodes none
      return ⟨r.html, r.added, r.removed, true, false⟩
    | _, _ => return ⟨[], 0, 0, true, true⟩

end DrepTalk
