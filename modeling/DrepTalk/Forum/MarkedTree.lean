import DrepTalk.Forum.HtmlDiff

/-!
# Trees with diff marks

What a reader of the marked HTML sees. The marks stand on top of the sanitizer's grammar:
`DIFF_TAGS` is `ALLOWED_TAGS` with a class on every tag and the element `span`. Undoing the
marks (`eraseMarks`) drops what is shown as deleted, replaces the spans of added words by
their content and strips the class attributes; of the tree that is left, `skeletons` keeps
everything but white characters and void elements, and `voids` the void elements.

`Marked` holds of the trees the renderer may write. They are well formed in `DIFF_TAGS`
(`Marked.wellFormed`), and their tokens are within the sanitizer's allowlist, widened by the
marks only (`Marked.safe`).
-/

namespace DrepTalk

open JsText

/-! ### Reading a tree -/

/-- A way of reading a tree from left to right: texts character by character, an element from
what was read inside it. -/
structure Reading (α : Type) where
  char : Char → List α
  void : String → List α
  element : String → Attrs → List α → List α

namespace Reading

variable {α : Type} (R : Reading α)

mutual

def node : HtmlNode → List α
  | .text t _ => t.flatMap R.char
  | .void tag => R.void tag
  | .element tag attrs children => R.element tag attrs (nodes children)

def nodes : List HtmlNode → List α
  | [] => []
  | n :: ns => node n ++ nodes ns

end

theorem nodes_append (ns ms : List HtmlNode) : R.nodes (ns ++ ms) = R.nodes ns ++ R.nodes ms := by
  induction ns with
  | nil => rfl
  | cons n ns ih => simp [nodes, ih]

private theorem nodes_consTextChar (layout : Bool) (c : Char) (ns : List HtmlNode) :
    R.nodes (consTextChar layout c ns) = R.char c ++ R.nodes ns := by
  rcases ns with _ | ⟨n, ns⟩
  · simp [consTextChar, nodes, node]
  · cases n <;> simp [consTextChar, nodes, node]

theorem nodes_coalesce_of {ms : List HtmlNode}
    (h : ∀ c ∈ ms, ∀ (layout : Bool) (ns : List HtmlNode),
      R.nodes (coalesceNode layout c ns) = R.node c ++ R.nodes ns) (layout : Bool) :
    R.nodes (coalesce layout ms) = R.nodes ms := by
  induction ms with
  | nil => rfl
  | cons c ms ih => rw [coalesce, h c (by simp), ih fun d hd => h d (by simp [hd]), nodes]

private theorem nodes_coalesceNode (n : HtmlNode) : ∀ (layout : Bool) (ns : List HtmlNode),
    R.nodes (coalesceNode layout n ns) = R.node n ++ R.nodes ns := by
  induction n using HtmlNode.tree_induction with
  | text t ignorable =>
    intro layout ns
    rw [coalesceNode, node]
    induction t with
    | nil => rfl
    | cons c t ih =>
      rw [List.foldr_cons, nodes_consTextChar, ih, List.flatMap_cons, List.append_assoc]
  | void tag => exact fun _ _ => rfl
  | element tag attrs children ih =>
    intro layout ns
    rw [coalesceNode, nodes, node, node, R.nodes_coalesce_of ih]

theorem nodes_coalesce (layout : Bool) (ns : List HtmlNode) :
    R.nodes (coalesce layout ns) = R.nodes ns :=
  R.nodes_coalesce_of (fun c _ => R.nodes_coalesceNode c) layout

end Reading

/-- A tree without white characters and void elements. -/
inductive Skeleton
  | char (c : Char)
  | element (tag : String) (attrs : Attrs) (children : List Skeleton)

mutual

def skeleton : HtmlNode → List Skeleton
  | .text t _ => (ink t).map .char
  | .void _ => []
  | .element tag attrs children => [.element tag attrs (skeletons children)]

def skeletons : List HtmlNode → List Skeleton
  | [] => []
  | n :: ns => skeleton n ++ skeletons ns

end

mutual

/-- The void elements of one node, in document order. -/
def nodeVoids : HtmlNode → List String
  | .text _ _ => []
  | .void tag => [tag]
  | .element _ _ children => voids children

/-- The void elements of a node list, in document order. -/
def voids : List HtmlNode → List String
  | [] => []
  | n :: ns => nodeVoids n ++ voids ns

end

/-- Attributes that mark an element as deleted. -/
def isDeletion (attrs : Attrs) : Bool :=
  attrs.lookup "class" == some "diff-del".toList ||
    attrs.lookup "class" == some "diff-block-del".toList

def isAdditionSpan (tag : String) (attrs : Attrs) : Bool :=
  tag == "span" && attrs.lookup "class" == some "diff-add".toList

/-- The attributes other than the class. -/
def dropClass (attrs : Attrs) : Attrs := attrs.filter fun a => a.1 != "class"

mutual

def eraseMarksNode : HtmlNode → List HtmlNode
  | .text t ignorable => [.text t ignorable]
  | .void tag => [.void tag]
  | .element tag attrs children =>
    if isDeletion attrs then []
    else if isAdditionSpan tag attrs then eraseMarks children
    else [.element tag (dropClass attrs) (eraseMarks children)]

/-- The marks undone: deletions erased, spans of added words replaced by their content, class
attributes dropped. -/
def eraseMarks : List HtmlNode → List HtmlNode
  | [] => []
  | n :: ns => eraseMarksNode n ++ eraseMarks ns

end

variable (ns ms : List HtmlNode)

theorem skeletons_append : skeletons (ns ++ ms) = skeletons ns ++ skeletons ms := by
  induction ns with
  | nil => rfl
  | cons n ns ih => simp [skeletons, ih]

theorem voids_append : voids (ns ++ ms) = voids ns ++ voids ms := by
  induction ns with
  | nil => rfl
  | cons n ns ih => simp [voids, ih]

/-- The skeleton behind the marks, as one reading. -/
def shownSkeleton : Reading Skeleton where
  char c := if isSpace c then [] else [.char c]
  void _ := []
  element tag attrs inner :=
    if isDeletion attrs then []
    else if isAdditionSpan tag attrs then inner
    else [.element tag (dropClass attrs) inner]

/-- The void elements behind the marks, as one reading. -/
def shownVoids : Reading String where
  char _ := []
  void tag := [tag]
  element _ attrs inner := if isDeletion attrs then [] else inner

/-- A list without its marks is read as its nodes are. -/
theorem eraseMarks_of {α : Type} {R : Reading α} {f : List HtmlNode → List α} (hnil : f [] = [])
    (happend : ∀ ns ms, f (ns ++ ms) = f ns ++ f ms) {ns : List HtmlNode}
    (h : ∀ c ∈ ns, f (eraseMarksNode c) = R.node c) : f (eraseMarks ns) = R.nodes ns := by
  induction ns with
  | nil => exact hnil
  | cons c ns ih =>
    rw [eraseMarks, happend, h c (by simp), ih fun d hd => h d (by simp [hd]), Reading.nodes]

theorem skeletons_eraseMarksNode (n : HtmlNode) :
    skeletons (eraseMarksNode n) = shownSkeleton.node n := by
  induction n using HtmlNode.tree_induction with
  | text t ignorable =>
    induction t with
    | nil => rfl
    | cons c t ih =>
      simp only [eraseMarksNode, skeletons, skeleton, Reading.node, List.append_nil, ink,
        List.flatMap_cons, List.filter_cons, shownSkeleton] at ih ⊢
      cases isSpace c <;> simp [ih]
  | void tag => rfl
  | element tag attrs children ih =>
    rw [eraseMarksNode, Reading.node, ← eraseMarks_of rfl skeletons_append ih, shownSkeleton]
    dsimp only
    split_ifs <;> simp [skeletons, skeleton]

theorem voids_eraseMarksNode (n : HtmlNode) :
    voids (eraseMarksNode n) = shownVoids.node n := by
  induction n using HtmlNode.tree_induction with
  | text t ignorable => simp [eraseMarksNode, voids, nodeVoids, Reading.node, shownVoids]
  | void tag => rfl
  | element tag attrs children ih =>
    rw [eraseMarksNode, Reading.node, ← eraseMarks_of rfl voids_append ih, shownVoids]
    dsimp only
    split_ifs <;> simp [voids, nodeVoids]

theorem skeletons_eraseMarks : skeletons (eraseMarks ns) = shownSkeleton.nodes ns :=
  eraseMarks_of rfl skeletons_append fun c _ => skeletons_eraseMarksNode c

theorem voids_eraseMarks : voids (eraseMarks ns) = shownVoids.nodes ns :=
  eraseMarks_of rfl voids_append fun c _ => voids_eraseMarksNode c

/-! ### The grammar of the marks -/

/-- The sanitizer's grammar widened by the marks: a class on every tag, and `span`. -/
def DIFF_TAGS : Grammar :=
  ("span", ["class"]) :: ALLOWED_TAGS.map fun e => (e.1, e.2 ++ ["class"])

theorem named_DIFF_TAGS : Grammar.Named DIFF_TAGS := by
  unfold Grammar.Named
  decide +kernel

variable {names : List String}

theorem markFree_ALLOWED_TAGS {tag : String} (h : ALLOWED_TAGS.lookup tag = some names) :
    tag ≠ "span" ∧ "class" ∉ names := by
  have hall : ∀ e ∈ ALLOWED_TAGS, e.1 ≠ "span" ∧ "class" ∉ e.2 := by decide +kernel
  obtain ⟨l₁, l₂, hl, -⟩ := List.lookup_eq_some_iff.mp h
  exact hall (tag, names) (by simp [hl])

theorem lookup_DIFF_TAGS {tag : String} (h : ALLOWED_TAGS.lookup tag = some names) :
    DIFF_TAGS.lookup tag = some (names ++ ["class"]) := by
  obtain ⟨l₁, l₂, hl, hfirst⟩ := List.lookup_eq_some_iff.mp h
  refine List.lookup_eq_some_iff.mpr
    ⟨("span", ["class"]) :: l₁.map fun e => (e.1, e.2 ++ ["class"]),
      l₂.map fun e => (e.1, e.2 ++ ["class"]), by simp [DIFF_TAGS, hl], fun e he => ?_⟩
  rcases List.mem_cons.mp he with rfl | he
  · simpa using (markFree_ALLOWED_TAGS h).1
  · obtain ⟨e', he', rfl⟩ := List.mem_map.mp he
    exact hfirst e' he'

/-- A class attribute, where there is a class. -/
def classAttr : Option String → Attrs
  | none => []
  | some cls => [("class", cls.toList)]

/-- Trees the diff may write: source trees, with a class of `DIFF_CLASSES` on any element and
spans of added or deleted words. -/
inductive Marked : HtmlNode → Prop
  | text {t : Text} {ignorable : Bool} (lt : '<' ∉ t) (white : ignorable = true → trim t = []) :
    Marked (.text t ignorable)
  | void {tag : String} {names : List String} (allowed : ALLOWED_TAGS.lookup tag = some names)
    (isVoid : tag ∈ VOID_TAGS) : Marked (.void tag)
  | element {tag : String} {attrs : Attrs} {children : List HtmlNode} {names : List String}
    (allowed : ALLOWED_TAGS.lookup tag = some names) (notVoid : tag ∉ VOID_TAGS)
    (attrs_allowed : AttrsAllowed names attrs) (cls : Option String)
    (cls_mem : ∀ c ∈ cls, c ∈ DIFF_CLASSES) (children_marked : ∀ c ∈ children, Marked c) :
    Marked (.element tag (attrs ++ classAttr cls) children)
  | span (kind : MarkKind) {children : List HtmlNode}
    (children_marked : ∀ c ∈ children, Marked c) :
    Marked (.element "span" [("class", ("diff-" ++ kind.name).toList)] children)

/-- A token within the sanitizer's allowlist, widened by the marks only: the tags of
`ALLOWED_TAGS` with their attributes and a class of `DIFF_CLASSES`, the two word spans, and
text without a `<`. -/
def HtmlToken.Safe : HtmlToken → Prop
  | .text t => '<' ∉ t
  | .closing tag => tag = "span" ∨ ∃ names, ALLOWED_TAGS.lookup tag = some names
  | .opening tag attrs =>
    (tag = "span" ∧
      (attrs = [("class", "diff-add".toList)] ∨ attrs = [("class", "diff-del".toList)])) ∨
    ∃ names, ALLOWED_TAGS.lookup tag = some names ∧
      ∀ a ∈ attrs, a.1 ∈ names ∨ a.1 = "class" ∧ ∃ cls ∈ DIFF_CLASSES, a.2 = cls.toList

theorem quote_notMem_DIFF_CLASSES {cls : String} (h : cls ∈ DIFF_CLASSES) : '"' ∉ cls.toList := by
  have hall : ∀ c ∈ DIFF_CLASSES, '"' ∉ c.toList := by decide +kernel
  exact hall cls h

theorem diffClass_wordMark (kind : MarkKind) : ("diff-" ++ kind.name) ∈ DIFF_CLASSES := by
  cases kind <;> decide +kernel

theorem attrsAllowed_append_classAttr {attrs : Attrs} {cls : Option String}
    (h : AttrsAllowed names attrs) (hclass : "class" ∉ names) (hcls : ∀ c ∈ cls, c ∈ DIFF_CLASSES) :
    AttrsAllowed (names ++ ["class"]) (attrs ++ classAttr cls) := by
  obtain ⟨hmem, hnd⟩ := h
  cases cls with
  | none =>
    simpa [classAttr, AttrsAllowed, hnd] using
      fun n v hv => ⟨.inl (hmem _ hv).1, (hmem _ hv).2⟩
  | some c =>
    refine ⟨fun a ha => ?_, ?_⟩
    · rcases List.mem_append.mp ha with ha | ha
      · exact ⟨by simp [(hmem a ha).1], (hmem a ha).2⟩
      · obtain rfl := List.mem_singleton.mp ha
        exact ⟨by simp, quote_notMem_DIFF_CLASSES (hcls c rfl)⟩
    · rw [List.map_append, List.nodup_append]
      refine ⟨hnd, by simp [classAttr], fun n hn n' hn' => ?_⟩
      obtain ⟨a, ha, rfl⟩ := List.mem_map.mp hn
      obtain rfl : n' = "class" := by simpa [classAttr] using hn'
      exact fun heq => hclass (heq ▸ (hmem a ha).1)

theorem Marked.wellFormed {n : HtmlNode} (h : Marked n) : WellFormed DIFF_TAGS n := by
  induction h with
  | text lt white => exact .text lt white
  | void allowed isVoid => exact .void (lookup_DIFF_TAGS allowed) isVoid
  | element allowed notVoid attrs_allowed cls cls_mem children_marked ih =>
    obtain ⟨hmem, hnd⟩ := attrsAllowed_append_classAttr attrs_allowed
      (markFree_ALLOWED_TAGS allowed).2 cls_mem
    exact .element (lookup_DIFF_TAGS allowed) notVoid hmem hnd ih
  | span kind children_marked ih =>
    have hspan : DIFF_TAGS.lookup "span" = some ["class"] := rfl
    refine .element hspan (by decide) (fun a ha => ?_) (by simp) ih
    obtain rfl := List.mem_singleton.mp ha
    exact ⟨by simp, quote_notMem_DIFF_CLASSES (diffClass_wordMark kind)⟩

theorem Marked.safe {n : HtmlNode} (h : Marked n) : ∀ t ∈ nodeTokens n, t.Safe := by
  induction h with
  | text lt white => simpa [nodeTokens, HtmlToken.Safe] using lt
  | void allowed isVoid => simp [nodeTokens, HtmlToken.Safe, allowed]
  | @element tag attrs children names allowed notVoid attrs_allowed cls cls_mem _ ih =>
    rw [nodeTokens, List.cons_append, List.forall_mem_cons, List.forall_mem_append]
    refine ⟨.inr ⟨names, allowed, fun a ha => ?_⟩, forall_nodesTokens ih,
      by simp [HtmlToken.Safe, allowed]⟩
    rcases List.mem_append.mp ha with ha | ha
    · exact .inl (attrs_allowed.1 a ha).1
    · cases cls with
      | none => cases ha
      | some c =>
        obtain rfl := List.mem_singleton.mp ha
        exact .inr ⟨rfl, c, cls_mem c rfl, rfl⟩
  | span kind children_marked ih =>
    rw [nodeTokens, List.cons_append, List.forall_mem_cons, List.forall_mem_append]
    refine ⟨.inl ⟨rfl, ?_⟩, forall_nodesTokens ih, by simp [HtmlToken.Safe]⟩
    cases kind
    · exact .inl rfl
    · exact .inr rfl

theorem safe_foldr_glue {tokens : List HtmlToken} (h : ∀ t ∈ tokens, t.Safe) :
    ∀ t ∈ tokens.foldr glue [], t.Safe := by
  have hchar : ∀ (c : Char) (l : List HtmlToken), '<' ≠ c → (∀ t ∈ l, t.Safe) →
      ∀ t ∈ consChar c l, t.Safe := by
    intro c l hc hl
    unfold consChar
    split
    · obtain ⟨ht, hrest⟩ := List.forall_mem_cons.mp hl
      exact List.forall_mem_cons.mpr ⟨by simpa [HtmlToken.Safe, hc] using ht, hrest⟩
    · exact List.forall_mem_cons.mpr ⟨by simp [HtmlToken.Safe, hc], hl⟩
  induction tokens with
  | nil => simp
  | cons token tokens ih =>
    obtain ⟨htoken, htokens⟩ := List.forall_mem_cons.mp h
    have hrest := ih htokens
    rw [List.foldr_cons]
    cases token with
    | text t =>
      replace htoken : '<' ∉ t := htoken
      rw [glue]
      induction t with
      | nil => exact hrest
      | cons c t iht =>
        simp only [List.mem_cons, not_or] at htoken
        exact hchar c _ htoken.1 (iht (List.forall_mem_cons.mpr ⟨htoken.2, htokens⟩) htoken.2)
    | closing tag | opening tag attrs => exact List.forall_mem_cons.mpr ⟨htoken, hrest⟩

end DrepTalk
