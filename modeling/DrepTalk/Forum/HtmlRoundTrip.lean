import DrepTalk.Forum.HtmlScan
import DrepTalk.Library.FoldM

/-!
# Writing a tree and parsing it back

`WellFormed G` holds of the trees the grammar `G` admits: allowed tags and attributes, no `<`
in a text and no quote in a value. The parser only builds such trees
(`wellFormed_of_parseHtml`).

A well-formed tree is written as a stream of printable tokens, so the scanner finds its tags
again. Parsing the written tree returns it up to text boundaries (`parseHtml_serializeNodes`):
`coalesce` joins neighbouring texts, drops empty ones and recomputes which white texts are
layout, which is all a parser can know of them.
-/

namespace DrepTalk

open JsText

/-! ### Well-formed trees -/

/-- The trees the grammar `G` admits. -/
inductive WellFormed (G : Grammar) : HtmlNode → Prop
  | text {t : Text} {ignorable : Bool} (lt : '<' ∉ t) (white : ignorable = true → trim t = []) :
    WellFormed G (.text t ignorable)
  | void {tag : String} {names : List String} (allowed : G.lookup tag = some names)
    (isVoid : tag ∈ VOID_TAGS) : WellFormed G (.void tag)
  | element {tag : String} {attrs : Attrs} {children : List HtmlNode} {names : List String}
    (allowed : G.lookup tag = some names) (notVoid : tag ∉ VOID_TAGS)
    (attrs_allowed : ∀ a ∈ attrs, a.1 ∈ names ∧ '"' ∉ a.2) (nodup : (attrs.map Prod.fst).Nodup)
    (children_wf : ∀ c ∈ children, WellFormed G c) : WellFormed G (.element tag attrs children)

/-- A grammar whose names the scanner's patterns match. -/
def Grammar.Named (G : Grammar) : Prop :=
  ∀ e ∈ G, IsTagName e.1 ∧ ∀ n ∈ e.2, IsAttrName n

theorem named_ALLOWED_TAGS : Grammar.Named ALLOWED_TAGS := by
  unfold Grammar.Named
  decide +kernel

variable {G : Grammar} {tag : String} {names : List String}

theorem Grammar.Named.of_lookup (hG : G.Named) (h : G.lookup tag = some names) :
    IsTagName tag ∧ ∀ n ∈ names, IsAttrName n := by
  obtain ⟨l₁, l₂, rfl, -⟩ := List.lookup_eq_some_iff.mp h
  exact hG (tag, names) (by simp)

/-! ### The tokens of a tree -/

mutual

def nodeTokens : HtmlNode → List HtmlToken
  | .text t _ => [.text t]
  | .void tag => [.opening tag []]
  | .element tag attrs children => .opening tag attrs :: nodesTokens children ++ [.closing tag]

/-- The tokens a node list is written as. -/
def nodesTokens : List HtmlNode → List HtmlToken
  | [] => []
  | n :: ns => nodeTokens n ++ nodesTokens ns

end

theorem serializeNodes_eq_print_of {ns : List HtmlNode}
    (h : ∀ c ∈ ns, serializeNode c = (nodeTokens c).flatMap HtmlToken.print) :
    serializeNodes ns = (nodesTokens ns).flatMap HtmlToken.print := by
  induction ns with
  | nil => rfl
  | cons c ns ih =>
    rw [serializeNodes, nodesTokens, List.flatMap_append, h c (by simp),
      ih fun d hd => h d (by simp [hd])]

theorem serializeNode_eq_print (n : HtmlNode) :
    serializeNode n = (nodeTokens n).flatMap HtmlToken.print := by
  induction n using HtmlNode.tree_induction with
  | text t ignorable => simp [serializeNode, nodeTokens, HtmlToken.print]
  | void tag => simp [serializeNode, nodeTokens, HtmlToken.print, attrString]
  | element tag attrs children ih =>
    simp [serializeNode, nodeTokens, HtmlToken.print, serializeNodes_eq_print_of ih]

theorem serializeNodes_eq_print (ns : List HtmlNode) :
    serializeNodes ns = (nodesTokens ns).flatMap HtmlToken.print :=
  serializeNodes_eq_print_of fun c _ => serializeNode_eq_print c

variable {n : HtmlNode}

theorem forall_nodesTokens {P : HtmlToken → Prop} {ns : List HtmlNode}
    (h : ∀ c ∈ ns, ∀ t ∈ nodeTokens c, P t) : ∀ t ∈ nodesTokens ns, P t := by
  induction ns with
  | nil => simp [nodesTokens]
  | cons c ns ih =>
    rw [nodesTokens, List.forall_mem_append]
    exact ⟨h c (by simp), ih fun d hd => h d (by simp [hd])⟩

theorem printable_nodeTokens (hG : G.Named) (h : WellFormed G n) :
    ∀ t ∈ nodeTokens n, t.Printable := by
  induction h with
  | text lt => simpa [nodeTokens, HtmlToken.Printable] using lt
  | void allowed =>
    simpa [nodeTokens, HtmlToken.Printable] using (hG.of_lookup allowed).1
  | element allowed notVoid attrs_allowed nodup children_wf ih =>
    obtain ⟨htag, hnames⟩ := hG.of_lookup allowed
    rw [nodeTokens, List.cons_append, List.forall_mem_cons, List.forall_mem_append]
    refine ⟨⟨htag, fun a ha => ?_⟩, forall_nodesTokens ih,
      by simpa [HtmlToken.Printable] using htag⟩
    exact ⟨hnames _ (attrs_allowed a ha).1, (attrs_allowed a ha).2⟩

variable {ns : List HtmlNode}

theorem printable_nodesTokens (hG : G.Named) (h : ∀ n ∈ ns, WellFormed G n) :
    ∀ t ∈ nodesTokens ns, t.Printable :=
  forall_nodesTokens fun c hc => printable_nodeTokens hG (h c hc)

/-! ### Joining neighbouring texts -/

/-- Whether a text is layout where white text is. -/
def isLayout (layout : Bool) (t : Text) : Bool := layout && decide (trim t = [])

/-- Puts one character in front of a node list, joining it to a leading text. -/
def consTextChar (layout : Bool) (c : Char) : List HtmlNode → List HtmlNode
  | .text t _ :: ns => .text (c :: t) (isLayout layout (c :: t)) :: ns
  | ns => .text [c] (isLayout layout [c]) :: ns

mutual

/-- Puts one node in front of a node list, joining texts on the way. -/
def coalesceNode (layout : Bool) : HtmlNode → List HtmlNode → List HtmlNode
  | .text t _, ns => t.foldr (consTextChar layout) ns
  | .void tag, ns => .void tag :: ns
  | .element tag attrs children, ns =>
    .element tag attrs (coalesce (decide (tag ∈ STRUCTURAL_TAGS)) children) :: ns

/-- The tree with neighbouring texts joined, empty ones dropped and layout flagged. -/
def coalesce (layout : Bool) : List HtmlNode → List HtmlNode
  | [] => []
  | n :: ns => coalesceNode layout n (coalesce layout ns)

end

theorem nodesTokens_consTextChar (layout : Bool) (c : Char) (ns : List HtmlNode) :
    nodesTokens (consTextChar layout c ns) = consChar c (nodesTokens ns) := by
  rcases ns with _ | ⟨n, ns⟩
  · rfl
  · cases n <;> rfl

theorem foldr_glue_cons {x : HtmlToken} (hx : ∀ t, x ≠ .text t) (rest : List HtmlToken) :
    ∀ tokens : List HtmlToken, tokens.foldr glue (x :: rest) = tokens.foldr glue [] ++ x :: rest
  | [] => rfl
  | token :: tokens => by
    have hchar : ∀ c (l : List HtmlToken),
        consChar c (l ++ x :: rest) = consChar c l ++ x :: rest := by
      intro c l
      rcases l with _ | ⟨y, l⟩
      · cases x with
        | text t => exact absurd rfl (hx t)
        | closing => rfl
        | opening => rfl
      · cases y <;> rfl
    rw [List.foldr_cons, List.foldr_cons, foldr_glue_cons hx rest tokens]
    cases token with
    | text t =>
      induction t with
      | nil => rfl
      | cons c t ih =>
        simp only [glue, List.foldr_cons] at ih ⊢
        rw [ih, hchar]
    | closing => rfl
    | opening => rfl

theorem nodesTokens_coalesce_of {ms : List HtmlNode}
    (h : ∀ c ∈ ms, ∀ (layout : Bool) (ns : List HtmlNode),
      nodesTokens (coalesceNode layout c ns) = (nodeTokens c).foldr glue (nodesTokens ns))
    (layout : Bool) : nodesTokens (coalesce layout ms) = (nodesTokens ms).foldr glue [] := by
  induction ms with
  | nil => rfl
  | cons c ms ih =>
    rw [coalesce, h c (by simp), ih fun d hd => h d (by simp [hd]), nodesTokens, List.foldr_append]

theorem nodesTokens_coalesceNode (n : HtmlNode) : ∀ (layout : Bool) (ns : List HtmlNode),
    nodesTokens (coalesceNode layout n ns) = (nodeTokens n).foldr glue (nodesTokens ns) := by
  induction n using HtmlNode.tree_induction with
  | text t ignorable =>
    intro layout ns
    simp only [coalesceNode, nodeTokens, List.foldr_cons, List.foldr_nil, glue]
    induction t with
    | nil => rfl
    | cons c t ih => rw [List.foldr_cons, nodesTokens_consTextChar, ih, List.foldr_cons]
  | void tag => exact fun _ _ => rfl
  | element tag attrs children ih =>
    intro layout ns
    rw [coalesceNode, nodesTokens, nodeTokens, nodeTokens, nodesTokens_coalesce_of ih]
    simp only [List.cons_append, List.append_assoc, List.foldr_cons, List.foldr_append,
      List.foldr_nil, List.nil_append, glue]
    rw [foldr_glue_cons (by simp)]

theorem nodesTokens_coalesce (layout : Bool) (ns : List HtmlNode) :
    nodesTokens (coalesce layout ns) = (nodesTokens ns).foldr glue [] :=
  nodesTokens_coalesce_of (fun c _ => nodesTokens_coalesceNode c) layout

/-- What each node keeps on its way to the front of a list, the joined list has. -/
theorem forall_coalesce {R : Bool → HtmlNode → Prop} {ms : List HtmlNode}
    (h : ∀ c ∈ ms, ∀ (layout : Bool) (ns : List HtmlNode), (∀ m ∈ ns, R layout m) →
      ∀ m ∈ coalesceNode layout c ns, R layout m) (layout : Bool) :
    ∀ m ∈ coalesce layout ms, R layout m := by
  induction ms with
  | nil => simp [coalesce]
  | cons c ms ih => exact h c (by simp) layout _ (ih fun d hd => h d (by simp [hd]))

/-- Text nodes are flagged as layout exactly where a parser would flag them. -/
inductive Flagged : Bool → HtmlNode → Prop
  | text (layout : Bool) (t : Text) : Flagged layout (.text t (isLayout layout t))
  | void (layout : Bool) (tag : String) : Flagged layout (.void tag)
  | element (layout : Bool) {tag : String} (attrs : Attrs) {children : List HtmlNode}
    (h : ∀ c ∈ children, Flagged (decide (tag ∈ STRUCTURAL_TAGS)) c) :
    Flagged layout (.element tag attrs children)

variable {layout : Bool}

private theorem flagged_consTextChar (c : Char) (h : ∀ m ∈ ns, Flagged layout m) :
    ∀ m ∈ consTextChar layout c ns, Flagged layout m := by
  unfold consTextChar
  split
  · exact List.forall_mem_cons.mpr ⟨.text .., (List.forall_mem_cons.mp h).2⟩
  · exact List.forall_mem_cons.mpr ⟨.text .., h⟩

private theorem flagged_foldr_consTextChar (t : Text) (h : ∀ m ∈ ns, Flagged layout m) :
    ∀ m ∈ t.foldr (consTextChar layout) ns, Flagged layout m := by
  induction t with
  | nil => exact h
  | cons c t ih => exact flagged_consTextChar c ih

theorem flagged_coalesceNode (n : HtmlNode) : ∀ (layout : Bool) (ns : List HtmlNode),
    (∀ m ∈ ns, Flagged layout m) → ∀ m ∈ coalesceNode layout n ns, Flagged layout m := by
  induction n using HtmlNode.tree_induction with
  | text t ignorable => exact fun layout ns h => flagged_foldr_consTextChar t h
  | void tag => exact fun layout ns h => List.forall_mem_cons.mpr ⟨.void .., h⟩
  | element tag attrs children ih =>
    exact fun layout ns h =>
      List.forall_mem_cons.mpr ⟨.element layout attrs (forall_coalesce ih _), h⟩

theorem flagged_coalesce (layout : Bool) (ns : List HtmlNode) :
    ∀ m ∈ coalesce layout ns, Flagged layout m :=
  forall_coalesce (fun c _ => flagged_coalesceNode c) layout

private theorem wellFormed_consTextChar {c : Char} (hc : '<' ≠ c) (h : ∀ m ∈ ns, WellFormed G m) :
    ∀ m ∈ consTextChar layout c ns, WellFormed G m := by
  have hflag : ∀ t, isLayout layout t = true → trim t = [] := fun t h => by
    simpa using (Bool.and_eq_true_iff.mp h).2
  unfold consTextChar
  split
  · obtain ⟨⟨lt, -⟩, hrest⟩ := List.forall_mem_cons.mp h
    exact List.forall_mem_cons.mpr ⟨.text (by simp [hc, lt]) (hflag _), hrest⟩
  · exact List.forall_mem_cons.mpr ⟨.text (by simp [hc]) (hflag _), h⟩

private theorem wellFormed_foldr_consTextChar {t : Text} (ht : '<' ∉ t)
    (h : ∀ m ∈ ns, WellFormed G m) :
    ∀ m ∈ t.foldr (consTextChar layout) ns, WellFormed G m := by
  induction t with
  | nil => exact h
  | cons c t ih =>
    simp only [List.mem_cons, not_or] at ht
    exact wellFormed_consTextChar ht.1 (ih ht.2)

theorem wellFormed_coalesceNode (hn : WellFormed G n) :
    ∀ (layout : Bool) (ns : List HtmlNode), (∀ m ∈ ns, WellFormed G m) →
      ∀ m ∈ coalesceNode layout n ns, WellFormed G m := by
  induction hn with
  | text lt => exact fun layout ns h => wellFormed_foldr_consTextChar lt h
  | void allowed isVoid =>
    exact fun layout ns h => List.forall_mem_cons.mpr ⟨.void allowed isVoid, h⟩
  | element allowed notVoid attrs_allowed nodup children_wf ih =>
    exact fun layout ns h => List.forall_mem_cons.mpr
      ⟨.element allowed notVoid attrs_allowed nodup (forall_coalesce ih _), h⟩

theorem wellFormed_coalesce (layout : Bool) (h : ∀ n ∈ ns, WellFormed G n) :
    ∀ m ∈ coalesce layout ns, WellFormed G m :=
  forall_coalesce (fun c hc => wellFormed_coalesceNode (h c hc)) layout

/-! ### Parsing the tokens of a tree -/

namespace ParseState

@[simp] theorem inStructuralContext_push (s : ParseState) (n : HtmlNode) :
    (s.push n).inStructuralContext = s.inStructuralContext := by
  obtain ⟨root, _ | ⟨e, stack⟩⟩ := s <;> rfl

theorem foldl_push_open (root : List HtmlNode) (e : OpenElement) (stack : List OpenElement)
    (ns : List HtmlNode) :
    ns.foldl push ⟨root, e :: stack⟩
      = ⟨root, { e with children := e.children ++ ns } :: stack⟩ := by
  induction ns generalizing e with
  | nil => simp
  | cons n ns ih => rw [List.foldl_cons, push, ih]; simp

theorem foldl_push_root (root ns : List HtmlNode) :
    ns.foldl push ⟨root, []⟩ = ⟨root ++ ns, []⟩ := by
  induction ns generalizing root with
  | nil => simp
  | cons n ns ih => rw [List.foldl_cons, push, ih]; simp

end ParseState

variable {attrs : Attrs}

theorem parseAttrs_of_nodup {allowed : List String} (h : ∀ a ∈ attrs, a.1 ∈ allowed)
    (hnd : (attrs.map Prod.fst).Nodup) :
    parseAttrs tag allowed attrs = .ok attrs := by
  have hrun : ∀ acc : Attrs, ((acc ++ attrs).map Prod.fst).Nodup →
      attrs.foldlM (fun attrs a => if a.1 ∈ allowed then .ok (setAttr attrs a.1 a.2)
        else .error (.unsupportedAttribute a.1 tag)) acc
        = (.ok (acc ++ attrs) : Except ParseError Attrs) := by
    induction attrs with
    | nil => intro acc _; simp [pure, Except.pure]
    | cons a attrs ih =>
      intro acc hacc
      have hnew : acc.any (·.1 == a.1) = false := by
        rw [List.map_append, List.map_cons, List.nodup_append] at hacc
        simp only [List.any_eq_false, beq_iff_eq]
        exact fun b hb hba =>
          hacc.2.2 b.1 (List.mem_map_of_mem hb) a.1 (by simp) hba
      have hset : setAttr acc a.1 a.2 = acc ++ [a] := by simp [setAttr, hnew]
      rw [List.foldlM_cons, if_pos (h a (by simp)), hset, ok_bind,
        ih (fun b hb => h b (by simp [hb])) (List.nodup_cons.mp hnd).2 (acc ++ [a])
          (by simpa using hacc), List.append_assoc, List.singleton_append]
  simpa [parseAttrs] using hrun [] (by simpa using hnd)

theorem foldlM_step_nodesTokens_of {G : Grammar} {ns : List HtmlNode}
    (h : ∀ n ∈ ns, ∀ s : ParseState, Flagged s.inStructuralContext n →
      (nodeTokens n).foldlM (ParseState.step G) s = .ok (s.push n)) (s : ParseState)
    (hflag : ∀ n ∈ ns, Flagged s.inStructuralContext n) :
    (nodesTokens ns).foldlM (ParseState.step G) s = .ok (ns.foldl ParseState.push s) := by
  induction ns generalizing s with
  | nil => rfl
  | cons n ns ih =>
    rw [nodesTokens, List.foldlM_append, h n (by simp) s (hflag n (by simp)), ok_bind]
    -- pushing a node does not change the context it is pushed into
    exact ih (fun m hm => h m (by simp [hm])) (s.push n) fun m hm => by
      rw [ParseState.inStructuralContext_push]
      exact hflag m (by simp [hm])

theorem foldlM_step_nodeTokens (hn : WellFormed G n) :
    ∀ s : ParseState, Flagged s.inStructuralContext n →
      (nodeTokens n).foldlM (ParseState.step G) s = .ok (s.push n) := by
  induction hn with
  | text lt white =>
    intro s hflag
    cases hflag
    simp [nodeTokens, ParseState.step, lt, isLayout]
  | void allowed isVoid =>
    intro s hflag
    simp [nodeTokens, ParseState.step, allowed, isVoid]
  | @element tag attrs children names allowed notVoid attrs_allowed nodup children_wf ih =>
    intro s hflag
    have hchildren : ∀ c ∈ children, Flagged (decide (tag ∈ STRUCTURAL_TAGS)) c := by
      cases hflag with
      | element _ _ h => exact h
    have hopen : ParseState.step G s (.opening tag attrs)
        = .ok { s with stack := ⟨tag, attrs, []⟩ :: s.stack } := by
      simp only [ParseState.step, allowed, if_neg notVoid,
        parseAttrs_of_nodup (fun a ha => (attrs_allowed a ha).1) nodup, ok_bind]
      rfl
    -- the opening tag opens an element, the children go into it, the closing tag pushes it
    rw [nodeTokens, List.cons_append, List.foldlM_cons, hopen, ok_bind, List.foldlM_append,
      foldlM_step_nodesTokens_of ih ⟨s.root, ⟨tag, attrs, []⟩ :: s.stack⟩ hchildren,
      ParseState.foldl_push_open, ok_bind]
    simp [ParseState.step]

/-- **Round trip.** Parsing a written well-formed tree returns it, texts joined. -/
theorem parseHtml_serializeNodes (hG : G.Named) (h : ∀ n ∈ ns, WellFormed G n) :
    parseHtml G (serializeNodes ns) = .ok (coalesce true ns) := by
  have htokens : htmlTokens (serializeNodes ns) = nodesTokens (coalesce true ns) := by
    rw [serializeNodes_eq_print, htmlTokens_print (printable_nodesTokens hG h),
      nodesTokens_coalesce]
  rw [parseHtml, htokens, foldlM_step_nodesTokens_of
    (fun n hn => foldlM_step_nodeTokens (wellFormed_coalesce true h n hn)) ⟨[], []⟩
    (flagged_coalesce true ns), ParseState.foldl_push_root]
  rfl

theorem parseSanitizedHtml_serializeNodes (h : ∀ n ∈ ns, WellFormed ALLOWED_TAGS n) :
    parseSanitizedHtml (serializeNodes ns) = .ok (coalesce true ns) :=
  parseHtml_serializeNodes named_ALLOWED_TAGS h

/-! ### The parser builds well-formed trees -/

/-- The attributes a tag with the names `names` may carry. -/
def AttrsAllowed (names : List String) (attrs : Attrs) : Prop :=
  (∀ a ∈ attrs, a.1 ∈ names ∧ '"' ∉ a.2) ∧ (attrs.map Prod.fst).Nodup

theorem attrsAllowed_setAttr {a : String × Text} (h : AttrsAllowed names attrs)
    (hname : a.1 ∈ names) (hv : '"' ∉ a.2) :
    AttrsAllowed names (setAttr attrs a.1 a.2) := by
  rw [setAttr]
  split
  · have hkeys : (attrs.map fun b => if b.1 = a.1 then (a.1, a.2) else b).map Prod.fst
        = attrs.map Prod.fst := by
      rw [List.map_map]
      refine List.map_congr_left fun b _ => ?_
      simp only [Function.comp_apply]
      split_ifs with hb
      · exact hb.symm
      · rfl
    refine ⟨fun c hc => ?_, hkeys ▸ h.2⟩
    obtain ⟨b, hb, rfl⟩ := List.mem_map.mp hc
    split_ifs
    · exact ⟨hname, hv⟩
    · exact h.1 b hb
  · -- a new name goes to the end, like a new key of a record
    rename_i hnew
    simp only [List.any_eq_true, beq_iff_eq, not_exists, not_and] at hnew
    refine ⟨fun c hc => ?_, ?_⟩
    · rcases List.mem_append.mp hc with hc | hc
      · exact h.1 c hc
      · obtain rfl := List.mem_singleton.mp hc
        exact ⟨hname, hv⟩
    · rw [List.map_append, List.nodup_append]
      refine ⟨h.2, by simp, fun k hk k' hk' => ?_⟩
      obtain ⟨b, hb, rfl⟩ := List.mem_map.mp hk
      simp only [List.map_cons, List.map_nil, List.mem_singleton] at hk'
      exact hk' ▸ hnew b hb

theorem attrsAllowed_of_parseAttrs {raw : Attrs} (hraw : ∀ a ∈ raw, '"' ∉ a.2)
    (h : parseAttrs tag names raw = .ok attrs) :
    AttrsAllowed names attrs ∧ ∀ a ∈ raw, a.1 ∈ names := by
  refine foldlM_ok (fun a ha acc acc' hacc hset => ?_) ⟨by simp, by simp⟩ h
  by_cases hname : a.1 ∈ names
  · rw [if_pos hname] at hset
    cases hset
    exact ⟨attrsAllowed_setAttr hacc hname (hraw a ha), hname⟩
  · rw [if_neg hname] at hset
    cases hset

/-- What holds of an open element: its tag may stand and its children are well formed. -/
structure OpenElement.Good (G : Grammar) (e : OpenElement) : Prop where
  allowed : ∃ names, G.lookup e.tag = some names ∧ AttrsAllowed names e.attrs
  notVoid : e.tag ∉ VOID_TAGS
  children_wf : ∀ c ∈ e.children, WellFormed G c

/-- The parser invariant: everything built so far is well formed. -/
structure ParseState.Good (G : Grammar) (s : ParseState) : Prop where
  root_wf : ∀ n ∈ s.root, WellFormed G n
  stack_good : ∀ e ∈ s.stack, e.Good G

theorem ParseState.Good.push {s : ParseState} (h : s.Good G) (hn : WellFormed G n) :
    (s.push n).Good G := by
  obtain ⟨root, stack⟩ := s
  rcases stack with _ | ⟨e, stack⟩
  · exact ⟨List.forall_mem_append.mpr ⟨h.root_wf, by simpa using hn⟩, h.stack_good⟩
  · obtain ⟨he, hstack⟩ := List.forall_mem_cons.mp h.stack_good
    refine ⟨h.root_wf, List.forall_mem_cons.mpr ⟨⟨he.allowed, he.notVoid, ?_⟩, hstack⟩⟩
    exact List.forall_mem_append.mpr ⟨he.children_wf, by simpa using hn⟩

theorem ParseState.Good.step {s s' : ParseState} {token : HtmlToken} (h : s.Good G)
    (htoken : token.Unquoted) (hs : ParseState.step G s token = .ok s') :
    s'.Good G := by
  cases token with
  | text t =>
    simp only [ParseState.step] at hs
    split at hs
    · cases hs
    · rename_i hlt
      cases hs
      exact h.push (.text hlt fun hi => by simpa using (Bool.and_eq_true_iff.mp hi).2)
  | closing tag =>
    simp only [ParseState.step] at hs
    split at hs
    · rename_i e stack hstack
      split at hs
      · cases hs
        -- the element on top of the stack is closed and becomes a node below
        have hgood := h.stack_good
        rw [hstack] at hgood
        obtain ⟨he, hrest⟩ := List.forall_mem_cons.mp hgood
        obtain ⟨names, hnames, hattrs, hnd⟩ := he.allowed
        exact ParseState.Good.push (s := { s with stack := stack }) ⟨h.root_wf, hrest⟩
          (.element hnames he.notVoid hattrs hnd he.children_wf)
      · cases hs
    · cases hs
  | opening tag raw =>
    simp only [ParseState.step] at hs
    split at hs
    · cases hs
    · rename_i names hnames
      split at hs
      · rename_i hvoid
        cases hs
        exact h.push (.void hnames hvoid)
      · rename_i hvoid
        rcases hattrs : parseAttrs tag names raw with err | attrs
        · rw [hattrs] at hs
          cases hs
        · rw [hattrs] at hs
          cases hs
          exact ⟨h.root_wf, List.forall_mem_cons.mpr
            ⟨⟨⟨names, hnames, (attrsAllowed_of_parseAttrs htoken hattrs).1⟩, hvoid, by simp⟩,
              h.stack_good⟩⟩

/-- **Soundness of the parser.** It only builds well-formed trees. -/
theorem wellFormed_of_parseHtml {html : Text} (h : parseHtml G html = .ok ns) :
    ∀ n ∈ ns, WellFormed G n := by
  rw [parseHtml] at h
  rcases hrun : (htmlTokens html).foldlM (ParseState.step G) ⟨[], []⟩ with err | s
  · rw [hrun] at h
    cases h
  · have hgood : s.Good G :=
      (foldlM_ok (Q := fun _ => True) (fun t ht _ _ hs hstep =>
        ⟨ParseState.Good.step hs (unquoted_of_mem_scan html 0 t ht) hstep, trivial⟩)
        ⟨by simp, by simp⟩ hrun).1
    rw [hrun, ok_bind] at h
    split at h
    · cases h
      exact hgood.root_wf
    · cases h

end DrepTalk
