import DrepTalk.Forum.MarkedTree

/-!
# Drawing marked markup

`Draws html sk vs` says that `html` is a marked tree, written out, whose skeleton and void
elements are `sk` and `vs` once the marks are undone. It is closed under concatenation
(`Draws.append`), so a renderer can be followed piece by piece, and it holds of every piece the
diff writes: plain subtrees, wrapped words, subtrees marked whole, and an element around
markup that draws something.

* `Draws.parse`: parsing markup that draws something gives that something back.
* `Draws.safe`: all of its tokens are safe.
-/

namespace DrepTalk

open JsText

/-- The markup is a marked tree, written out, with this skeleton and these void elements once
the marks are undone. -/
def Draws (html : Text) (sk : List Skeleton) (vs : List String) : Prop :=
  ∃ ns : List HtmlNode, html = serializeNodes ns ∧ (∀ n ∈ ns, Marked n) ∧
    shownSkeleton.nodes ns = sk ∧ shownVoids.nodes ns = vs

namespace Draws

theorem nil : Draws [] [] [] := ⟨[], rfl, by simp, rfl, rfl⟩

theorem append {h h' : Text} {sk sk' : List Skeleton} {vs vs' : List String}
    (hd : Draws h sk vs) (hd' : Draws h' sk' vs') :
    Draws (h ++ h') (sk ++ sk') (vs ++ vs') := by
  obtain ⟨ns, rfl, hm, rfl, rfl⟩ := hd
  obtain ⟨ns', rfl, hm', rfl, rfl⟩ := hd'
  exact ⟨ns ++ ns', (serializeNodes_append ns ns').symm, List.forall_mem_append.mpr ⟨hm, hm'⟩,
    Reading.nodes_append .., Reading.nodes_append ..⟩

variable {n : HtmlNode}

theorem of_node (hn : Marked n) :
    Draws (serializeNode n) (shownSkeleton.node n) (shownVoids.node n) :=
  ⟨[n], by simp, by simpa using hn, by simp [Reading.nodes], by simp [Reading.nodes]⟩

theorem parse {html : Text} {sk : List Skeleton} {vs : List String} (h : Draws html sk vs) :
    ∃ ns, parseHtml DIFF_TAGS html = .ok ns ∧ skeletons (eraseMarks ns) = sk ∧
      voids (eraseMarks ns) = vs := by
  obtain ⟨ns, rfl, hm, rfl, rfl⟩ := h
  refine ⟨coalesce true ns,
    parseHtml_serializeNodes named_DIFF_TAGS fun n hn => (hm n hn).wellFormed, ?_, ?_⟩
  · rw [skeletons_eraseMarks, Reading.nodes_coalesce]
  · rw [voids_eraseMarks, Reading.nodes_coalesce]

theorem safe {html : Text} {sk : List Skeleton} {vs : List String} (h : Draws html sk vs) :
    ∀ t ∈ htmlTokens html, t.Safe := by
  obtain ⟨ns, rfl, hm, -, -⟩ := h
  rw [serializeNodes_eq_print, htmlTokens_print
    (printable_nodesTokens named_DIFF_TAGS fun n hn => (hm n hn).wellFormed)]
  refine safe_foldr_glue ?_
  induction ns with
  | nil => simp [nodesTokens]
  | cons n ns ih =>
    rw [nodesTokens, List.forall_mem_append]
    exact ⟨(hm n (by simp)).safe, ih fun m hmem => hm m (by simp [hmem])⟩

end Draws

/-! ### Elements -/

private theorem lookup_class_append {names : List String} {attrs : Attrs}
    (h : AttrsAllowed names attrs) (hclass : "class" ∉ names) (cls : Option String) :
    (attrs ++ classAttr cls).lookup "class" = cls.map String.toList := by
  have hnone : attrs.lookup "class" = none := by
    rw [List.lookup_eq_none_iff]
    rintro ⟨name, value⟩ ha
    simp only [bne_iff_ne, ne_eq]
    rintro rfl
    exact hclass (h.1 _ ha).1
  rw [List.lookup_append, hnone]
  cases cls <;> simp [classAttr]

private theorem dropClass_append {names : List String} {attrs : Attrs}
    (h : AttrsAllowed names attrs) (hclass : "class" ∉ names) (cls : Option String) :
    dropClass (attrs ++ classAttr cls) = attrs := by
  have hkeep : dropClass attrs = attrs := by
    refine List.filter_eq_self.mpr fun a ha => ?_
    simp only [bne_iff_ne, ne_eq]
    exact fun heq => hclass (heq ▸ (h.1 a ha).1)
  rw [dropClass, List.filter_append, ← dropClass, hkeep]
  cases cls <;> simp [classAttr]

def DELETION_CLASSES : List String := ["diff-del", "diff-block-del"]

private theorem isDeletion_append {names : List String} {attrs : Attrs}
    (h : AttrsAllowed names attrs) (hclass : "class" ∉ names) (cls : Option String) :
    isDeletion (attrs ++ classAttr cls) = cls.any (· ∈ DELETION_CLASSES) := by
  rw [isDeletion, lookup_class_append h hclass]
  cases cls with
  | none => rfl
  | some c =>
    rw [Bool.eq_iff_iff]
    simp only [Option.map_some, Bool.or_eq_true, beq_iff_eq, Option.some.injEq, String.toList_inj,
      Option.any_some, decide_eq_true_eq, DELETION_CLASSES, List.mem_cons, List.not_mem_nil,
      or_false]

private theorem attrString_classAttr (cls : Option String) :
    attrString (classAttr cls) = cls.elim [] classString := by
  cases cls with
  | none => rfl
  | some c =>
    have hopen : " class=\"".toList = ' ' :: "class".toList ++ ['=', '"'] := by decide +kernel
    have hclose : "\"".toList = ['"'] := by decide +kernel
    change (' ' :: "class".toList ++ '=' :: '"' :: c.toList ++ ['"']) ++ []
      = " class=\"".toList ++ c.toList ++ "\"".toList
    generalize "class".toList = name at hopen ⊢
    simp only [hopen, hclose, List.append_assoc, List.cons_append, List.nil_append,
      List.append_nil]

private theorem serializeNode_element (tag : String) (attrs : Attrs) (cls : Option String)
    (children : List HtmlNode) :
    serializeNode (.element tag (attrs ++ classAttr cls) children)
      = elementString tag attrs (cls.elim [] classString) (serializeNodes children) := by
  have hattrs : attrString (attrs ++ classAttr cls)
      = attrString attrs ++ cls.elim [] classString := by
    rw [← attrString_classAttr, attrString, List.flatMap_append, ← attrString, ← attrString]
  simp only [serializeNode, elementString, hattrs, List.cons_append, List.append_assoc]

section Element

variable {tag : String} {names : List String} {attrs : Attrs} {inner : Text}
  {sk : List Skeleton} {vs : List String}

theorem Draws.element (cls : Option String) (allowed : ALLOWED_TAGS.lookup tag = some names)
    (notVoid : tag ∉ VOID_TAGS) (hattrs : AttrsAllowed names attrs)
    (hcls : ∀ c ∈ cls, c ∈ DIFF_CLASSES ∧ c ∉ DELETION_CLASSES) (h : Draws inner sk vs) :
    Draws (elementString tag attrs (cls.elim [] classString) inner) [.element tag attrs sk] vs := by
  obtain ⟨ns, rfl, hm, rfl, rfl⟩ := h
  obtain ⟨hspan, hclass⟩ := markFree_ALLOWED_TAGS allowed
  have hdel : isDeletion (attrs ++ classAttr cls) = false := by
    rw [isDeletion_append hattrs hclass]
    cases cls with
    | none => rfl
    | some c => simpa using (hcls c rfl).2
  have hadd : isAdditionSpan tag (attrs ++ classAttr cls) = false := by simp [isAdditionSpan, hspan]
  rw [← serializeNode_element]
  convert Draws.of_node (.element allowed notVoid hattrs cls (fun c hc => (hcls c hc).1) hm) using 1
  · simp [Reading.node, shownSkeleton, hdel, hadd, dropClass_append hattrs hclass]
  · simp [Reading.node, shownVoids, hdel]

theorem Draws.deleted {c : String} (allowed : ALLOWED_TAGS.lookup tag = some names)
    (notVoid : tag ∉ VOID_TAGS) (hattrs : AttrsAllowed names attrs)
    (hc : c ∈ DIFF_CLASSES) (hdel : c ∈ DELETION_CLASSES) (h : Draws inner sk vs) :
    Draws (elementString tag attrs (classString c) inner) [] [] := by
  obtain ⟨ns, rfl, hm, rfl, rfl⟩ := h
  have hdeletion : isDeletion (attrs ++ classAttr (some c)) = true := by
    rw [isDeletion_append hattrs (markFree_ALLOWED_TAGS allowed).2]
    simpa using hdel
  have hnode := Draws.of_node (.element allowed notVoid hattrs (some c)
    (fun c' hc' => by cases hc'; exact hc) hm)
  rw [serializeNode_element] at hnode
  simpa [Reading.node, shownSkeleton, shownVoids, hdeletion] using hnode

end Element

/-! ### Source trees -/

theorem shown_of_wellFormed (h : WellFormed ALLOWED_TAGS n) :
    Marked n ∧ shownSkeleton.node n = skeleton n ∧ shownVoids.node n = nodeVoids n := by
  have hlist : ∀ ns : List HtmlNode, (∀ c ∈ ns, Marked c ∧ shownSkeleton.node c = skeleton c ∧
      shownVoids.node c = nodeVoids c) →
      shownSkeleton.nodes ns = skeletons ns ∧ shownVoids.nodes ns = voids ns := by
    intro ns hns
    induction ns with
    | nil => exact ⟨rfl, rfl⟩
    | cons c ns ih =>
      obtain ⟨-, hs, hv⟩ := hns c (by simp)
      obtain ⟨hs', hv'⟩ := ih fun d hd => hns d (by simp [hd])
      exact ⟨by rw [Reading.nodes, hs, hs', skeletons], by rw [Reading.nodes, hv, hv', voids]⟩
  induction h with
  | @text t ignorable lt white =>
    refine ⟨.text lt white, ?_, by simp [Reading.node, shownVoids, nodeVoids]⟩
    have herase := skeletons_eraseMarksNode (.text t ignorable)
    rw [← herase, eraseMarksNode, skeletons, skeletons, List.append_nil]
  | void allowed isVoid => exact ⟨.void allowed isVoid, rfl, rfl⟩
  | @element tag attrs children names allowed notVoid attrs_allowed nodup _ ih =>
    obtain ⟨hspan, hclass⟩ := markFree_ALLOWED_TAGS allowed
    have hattrs : AttrsAllowed names attrs := ⟨attrs_allowed, nodup⟩
    have hdel := isDeletion_append hattrs hclass none
    have hdrop := dropClass_append hattrs hclass none
    have hmarked := Marked.element allowed notVoid hattrs none (by simp)
      fun c hc => (ih c hc).1
    rw [classAttr, List.append_nil] at hdel hdrop hmarked
    obtain ⟨hs, hv⟩ := hlist children ih
    refine ⟨hmarked, ?_, ?_⟩
    · simp [Reading.node, shownSkeleton, hdel, isAdditionSpan, hspan, hdrop, skeleton, ← hs]
    · simp [Reading.node, shownVoids, hdel, nodeVoids, ← hv]

theorem draws_serializeNode (h : WellFormed ALLOWED_TAGS n) :
    Draws (serializeNode n) (skeleton n) (nodeVoids n) := by
  obtain ⟨hm, hs, hv⟩ := shown_of_wellFormed h
  rw [← hs, ← hv]
  exact Draws.of_node hm

theorem draws_serializeNodes {ns : List HtmlNode} (h : ∀ n ∈ ns, WellFormed ALLOWED_TAGS n) :
    Draws (serializeNodes ns) (skeletons ns) (voids ns) := by
  induction ns with
  | nil => exact Draws.nil
  | cons n ns ih =>
    rw [serializeNodes, skeletons, voids]
    exact (draws_serializeNode (h n (by simp))).append (ih fun m hm => h m (by simp [hm]))

theorem draws_text {t : Text} (lt : '<' ∉ t) : Draws t ((ink t).map .char) [] := by
  simpa [serializeNode, skeleton, nodeVoids] using
    draws_serializeNode (@WellFormed.text _ t false lt (by simp))

/-! ### Marked pieces -/

/-- What the two markers leave of a word's ink. -/
def MarkKind.shown : MarkKind → List Skeleton → List Skeleton
  | .add, sk => sk
  | .del, _ => []

theorem draws_wrapWord (kind : MarkKind) {t : Text} (lt : '<' ∉ t) :
    ∃ h, wrapWord kind t = .ok h ∧ Draws h (kind.shown ((ink t).map .char)) [] := by
  by_cases ht : trim t = []
  · have hink : ink t = [] := ink_eq_nil_iff.mpr (trim_eq_nil_iff.mp ht)
    refine ⟨t, by rw [wrapWord, if_pos ht]; rfl, ?_⟩
    have hdraws := draws_text lt
    cases kind <;> simpa [MarkKind.shown, hink] using hdraws
  · set core := slice t (leading t).length (t.length - (trailing t).length) with hcore
    have hltcore : '<' ∉ core := (fun h => lt (List.mem_of_mem_take (List.mem_of_mem_drop h)))
    have hltlead : '<' ∉ leading t := fun h => lt ((List.takeWhile_prefix _).mem h)
    have hlttrail : '<' ∉ trailing t := fun h => lt ((List.rtakeWhile_suffix _ _).mem h)
    refine ⟨leading t ++ "<span class=\"".toList ++ ("diff-" ++ kind.name).toList ++ "\">".toList ++
      core ++ "</span>".toList ++ trailing t, ?_, ?_⟩
    · rw [wrapWord, if_neg ht, diffClass, if_pos (diffClass_wordMark kind)]
      rfl
    · have hmarked : Marked (.element "span" [("class", ("diff-" ++ kind.name).toList)]
          [.text core false]) :=
        .span kind (by simpa using Marked.text hltcore (by simp))
      have hspan : Draws (serializeNode (.element "span"
          [("class", ("diff-" ++ kind.name).toList)] [.text core false]))
          (kind.shown ((ink t).map .char)) [] := by
        convert Draws.of_node hmarked using 1
        · have hread : shownSkeleton.nodes [.text core false] = (ink t).map .char := by
            have := skeletons_eraseMarks [.text core false]
            rw [← this]
            simp [eraseMarks, eraseMarksNode, skeletons, skeleton, hcore, ink_core ht]
          rw [Reading.node, hread]
          cases kind <;> rfl
        · cases kind <;> simp [Reading.node, Reading.nodes, shownVoids]
      have hall := ((draws_text hltlead).append hspan).append (draws_text hlttrail)
      simpa [serializeNode, serializeNodes, attrString] using hall

theorem draws_void {tag : String} {names : List String}
    (allowed : ALLOWED_TAGS.lookup tag = some names) (isVoid : tag ∈ VOID_TAGS) :
    Draws ('<' :: tag.toList ++ ['>']) [] [tag] := by
  have hdraws := draws_serializeNode (.void allowed isVoid)
  rwa [serializeNode] at hdraws

theorem draws_markWhole_add (h : WellFormed ALLOWED_TAGS n) :
    ∃ m, markWhole n .add = .ok m ∧ Draws m (skeleton n) (nodeVoids n) := by
  cases h with
  | text lt white => exact draws_wrapWord .add lt
  | void allowed isVoid => exact ⟨_, rfl, draws_void allowed isVoid⟩
  | @element tag attrs children names allowed notVoid attrs_allowed nodup children_wf =>
    set c := if tag ∈ BLOCK_TAGS then "diff-block-" ++ MarkKind.add.name
      else "diff-" ++ MarkKind.add.name with hc
    have hmem : c ∈ DIFF_CLASSES ∧ c ∉ DELETION_CLASSES := by
      rw [hc]
      split_ifs <;> decide +kernel
    refine ⟨elementString tag attrs (classString c) (serializeNodes children), ?_, ?_⟩
    · rw [markWhole, ← hc, diffClass, if_pos hmem.1]
      rfl
    · exact Draws.element (some c) allowed notVoid ⟨attrs_allowed, nodup⟩
        (fun c' hc' => by cases hc'; exact hmem) (draws_serializeNodes children_wf)

/-- What a deletion leaves in view: there is no place for a marker on a void element. -/
def strayVoids : HtmlNode → List String
  | .void tag => [tag]
  | _ => []

theorem draws_markWhole_del (h : WellFormed ALLOWED_TAGS n) :
    ∃ m, markWhole n .del = .ok m ∧ Draws m [] (strayVoids n) := by
  cases h with
  | text lt white => exact draws_wrapWord .del lt
  | void allowed isVoid => exact ⟨_, rfl, draws_void allowed isVoid⟩
  | @element tag attrs children names allowed notVoid attrs_allowed nodup children_wf =>
    set c := if tag ∈ BLOCK_TAGS then "diff-block-" ++ MarkKind.del.name
      else "diff-" ++ MarkKind.del.name with hc
    have hmem : c ∈ DIFF_CLASSES ∧ c ∈ DELETION_CLASSES := by
      rw [hc]
      split_ifs <;> decide +kernel
    refine ⟨elementString tag attrs (classString c) (serializeNodes children), ?_, ?_⟩
    · rw [markWhole, ← hc, diffClass, if_pos hmem.1]
      rfl
    · exact Draws.deleted allowed notVoid ⟨attrs_allowed, nodup⟩ hmem.1 hmem.2
        (draws_serializeNodes children_wf)

end DrepTalk
