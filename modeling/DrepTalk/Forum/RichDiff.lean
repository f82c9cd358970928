import DrepTalk.Forum.DrawnMarkup
import DrepTalk.Forum.EditScript

/-!
# What the rich diff shows

The correctness of `richDiff`, by induction on the depth of the new tree: a call of
`diffNodeLists` renders its edit script, and each edit shows the nodes of the new list it
accounts for (`shows_render`), whatever became of the old ones.

Two questions cannot be answered by the new tree alone. Whether an edit counts a word
(`CountsWords`) decides the quiet marking of a prose block, for which the markup written
inside is thrown away. Whether a void element of the old tree is left in view
(`LeavesStray`) is the one way in which the markup shows more than the new tree: a `br` or
`hr` that is deleted is written without a mark, because there is no place for one.
-/

namespace DrepTalk

open JsText

mutual

/-- The edits between two child lists count a word as added or removed. -/
inductive CountsWords : Option String → List HtmlNode → List HtmlNode → Prop
  | edit {parentTag : Option String} {old new : List HtmlNode} {e : Edit}
    (mem : e ∈ editScript parentTag old new) (counts : Edit.CountsWords e) :
    CountsWords parentTag old new

/-- An edit counts a word as added or removed. -/
inductive Edit.CountsWords : Edit → Prop
  | insert {n : HtmlNode} (h : 0 < countWords (nodeText n)) : Edit.CountsWords (.insert n)
  | delete {n : HtmlNode} (h : 0 < countWords (nodeText n)) : Edit.CountsWords (.delete n)
  | text {a b : Text} {i j : Bool} {op : WordOp} (mem : op ∈ wordDiff a b)
    (changed : op.type ≠ .same) (h : 0 < countWords op.text) :
    Edit.CountsWords (.pair (.text a i) (.text b j))
  | pre {attrs attrs' : Attrs} {cs cs' : List HtmlNode} (differ : nodesText cs ≠ nodesText cs')
    (h : 0 < countWords (nodesText cs') + countWords (nodesText cs)) :
    Edit.CountsWords (.pair (.element "pre" attrs cs) (.element "pre" attrs' cs'))
  | child {tag : String} {attrs attrs' : Attrs} {cs cs' : List HtmlNode} (notPre : tag ≠ "pre")
    (loud : ¬ (tag ∈ META_SHORTCUT_TAGS ∧ nodesText cs = nodesText cs'))
    (h : CountsWords (some tag) cs cs') :
    Edit.CountsWords (.pair (.element tag attrs cs) (.element tag attrs' cs'))

end

/-- A matched block is shown whole, marked quietly: its text is the same, but its edits count
words. -/
def ShownWhole (tag : String) (cs cs' : List HtmlNode) : Prop :=
  tag ∈ META_SHORTCUT_TAGS ∧ nodesText cs = nodesText cs' ∧ CountsWords (some tag) cs cs'

mutual

/-- Among the edits between two child lists, a void element of the old side is deleted or
replaced. Blocks that are not descended into, code blocks and blocks shown whole, do not
matter. -/
inductive LeavesStray : Option String → List HtmlNode → List HtmlNode → Prop
  | edit {parentTag : Option String} {old new : List HtmlNode} {e : Edit}
    (mem : e ∈ editScript parentTag old new) (stray : Edit.LeavesStray e) :
    LeavesStray parentTag old new

/-- An edit deletes or replaces a void element, or pairs two blocks with such an edit inside. -/
inductive Edit.LeavesStray : Edit → Prop
  | delete (tag : String) : Edit.LeavesStray (.delete (.void tag))
  | replace (tag : String) (between : List Text) (n : HtmlNode) :
    Edit.LeavesStray (.replace (.void tag) between n)
  | child {tag : String} {attrs attrs' : Attrs} {cs cs' : List HtmlNode} (notPre : tag ≠ "pre")
    (descended : ¬ ShownWhole tag cs cs') (h : LeavesStray (some tag) cs cs') :
    Edit.LeavesStray (.pair (.element tag attrs cs) (.element tag attrs' cs'))

end

/-- The markup shows these nodes, with further void elements exactly if `stray`, and its counts
are not both zero exactly if `counts`. -/
def Shows (r : Rendered) (new : List HtmlNode) (stray counts : Prop) : Prop :=
  (∃ vs, Draws r.html (skeletons new) vs ∧ (voids new).Sublist vs ∧ (vs = voids new ↔ ¬ stray)) ∧
    (0 < r.added + r.removed ↔ counts)

namespace Shows

theorem nil : Shows (.plain []) [] False False :=
  ⟨⟨[], Draws.nil, List.Sublist.refl _, by simp [voids]⟩, by simp [Rendered.plain]⟩

private theorem append_eq_append_iff_of_sublist {l₁ l₂ m₁ m₂ : List String}
    (h₁ : l₁.Sublist m₁) (h₂ : l₂.Sublist m₂) :
    m₁ ++ m₂ = l₁ ++ l₂ ↔ m₁ = l₁ ∧ m₂ = l₂ := by
  refine ⟨fun h => ?_, fun h => by rw [h.1, h.2]⟩
  have hlen := congrArg List.length h
  rw [List.length_append, List.length_append] at hlen
  have h₁' := h₁.length_le
  have h₂' := h₂.length_le
  exact ⟨(h₁.eq_of_length (by omega)).symm, (h₂.eq_of_length (by omega)).symm⟩

theorem append {r r' : Rendered} {new new' : List HtmlNode} {s s' c c' : Prop}
    (h : Shows r new s c) (h' : Shows r' new' s' c') :
    Shows (r ++ r') (new ++ new') (s ∨ s') (c ∨ c') := by
  obtain ⟨⟨vs, hd, hsub, hs⟩, hc⟩ := h
  obtain ⟨⟨vs', hd', hsub', hs'⟩, hc'⟩ := h'
  refine ⟨⟨vs ++ vs', ?_, ?_, ?_⟩, ?_⟩
  · rw [skeletons_append]
    exact hd.append hd'
  · rw [voids_append]
    exact hsub.append hsub'
  · rw [voids_append, append_eq_append_iff_of_sublist hsub hsub', hs, hs', not_or]
  · rw [← hc, ← hc', Rendered.added_append, Rendered.removed_append]
    omega

theorem congr {r : Rendered} {new : List HtmlNode} {s s' c c' : Prop} (h : Shows r new s c)
    (hs : s ↔ s') (hc : c ↔ c') : Shows r new s' c' := by
  rwa [propext hs, propext hc] at h

theorem of_draws {r : Rendered} {new : List HtmlNode}
    (h : Draws r.html (skeletons new) (voids new)) :
    Shows r new False (0 < r.added + r.removed) :=
  ⟨⟨_, h, List.Sublist.refl _, by simp⟩, Iff.rfl⟩

end Shows

theorem shows_joinAll {render : Edit → Except DiffError Rendered} {stray counts : Edit → Prop}
    {script : List Edit}
    (h : ∀ e ∈ script, ∃ r, render e = .ok r ∧ Shows r e.newNodes (stray e) (counts e)) :
    ∃ r, joinAll (script.map render) = .ok r ∧
      Shows r (script.flatMap Edit.newNodes) (∃ e ∈ script, stray e) (∃ e ∈ script, counts e) := by
  induction script with
  | nil => exact ⟨_, rfl, Shows.nil.congr (by simp) (by simp)⟩
  | cons e script ih =>
    obtain ⟨r, hr, hshows⟩ := h e (by simp)
    obtain ⟨r', hr', hshows'⟩ := ih fun e' he' => h e' (by simp [he'])
    refine ⟨r ++ r', ?_, ?_⟩
    · rw [List.map_cons, joinAll_cons, hr, hr']
      rfl
    · exact (hshows.append hshows').congr (by simp) (by simp)

/-! ### Texts -/

theorem draws_joinAll_renderOp (ops : List WordOp) (lt : ∀ op ∈ ops, '<' ∉ op.text) :
    ∃ r, joinAll (ops.map renderOp) = .ok r ∧ Draws r.html ((ink (newSide ops)).map .char) [] ∧
      r.added = opWords .add ops ∧ r.removed = opWords .del ops := by
  induction ops with
  | nil => exact ⟨_, rfl, Draws.nil, rfl, rfl⟩
  | cons op ops ih =>
    obtain ⟨r', hr', hdraws', hadded, hremoved⟩ := ih fun o ho => lt o (by simp [ho])
    have hlt := lt op (by simp)
    have hside : newSide (op :: ops) =
        (if op.type = .del then [] else op.text) ++ newSide ops := rfl
    have hsum : ∀ type, opWords type (op :: ops)
        = (if op.type = type then countWords op.text else 0) + opWords type ops := fun _ => rfl
    have hop : ∃ r, renderOp op = .ok r ∧
        Draws r.html ((ink (if op.type = .del then [] else op.text)).map .char) [] ∧
        r.added = (if op.type = .add then countWords op.text else 0) ∧
        r.removed = if op.type = .del then countWords op.text else 0 := by
      rw [renderOp]
      rcases htype : op.type with _ | _ | _
      · exact ⟨.plain op.text, rfl, draws_text hlt, rfl, rfl⟩
      · obtain ⟨m, hm, hd⟩ := draws_wrapWord .add hlt
        exact ⟨_, by rw [hm]; rfl, hd, rfl, rfl⟩
      · obtain ⟨m, hm, hd⟩ := draws_wrapWord .del hlt
        exact ⟨_, by rw [hm]; rfl, hd, rfl, rfl⟩
    obtain ⟨r, hr, hdraws, ha, hd⟩ := hop
    refine ⟨r ++ r', ?_, ?_, ?_, ?_⟩
    · rw [List.map_cons, joinAll_cons, hr, hr']
      rfl
    · rw [hside, ink_append, List.map_append]
      exact hdraws.append hdraws'
    · rw [Rendered.added_append, ha, hadded, hsum]
    · rw [Rendered.removed_append, hd, hremoved, hsum]

theorem opWords_pos_iff (ops : List WordOp) :
    0 < opWords .add ops + opWords .del ops ↔
      ∃ op ∈ ops, op.type ≠ .same ∧ 0 < countWords op.text := by
  induction ops with
  | nil => simp [opWords]
  | cons op ops ih =>
    have hsum : ∀ type, opWords type (op :: ops)
        = (if op.type = type then countWords op.text else 0) + opWords type ops := fun _ => rfl
    rw [List.exists_mem_cons_iff, ← ih, hsum, hsum]
    rcases op.type with _ | _ | _ <;> simp <;> omega

theorem shows_diffText {a b : Text} (ha : '<' ∉ a) (hb : '<' ∉ b) (i j : Bool)
    (parentTag : Option String) :
    ∃ r, diffText a b parentTag = .ok r ∧
      Shows r [.text b j] (Edit.LeavesStray (.pair (.text a i) (.text b j)))
        (Edit.CountsWords (.pair (.text a i) (.text b j))) := by
  have hstray : False ↔ Edit.LeavesStray (.pair (.text a i) (.text b j)) :=
    ⟨False.elim, fun h => by cases h⟩
  have hcounts : 0 < opWords .add (wordDiff a b) + opWords .del (wordDiff a b) ↔
      Edit.CountsWords (.pair (.text a i) (.text b j)) := by
    rw [opWords_pos_iff]
    constructor
    · rintro ⟨op, hmem, hne, hpos⟩
      exact .text hmem hne hpos
    · rintro (_ | _ | ⟨hmem, hne, hpos⟩)
      exact ⟨_, hmem, hne, hpos⟩
  have hsk : skeletons [.text b j] = (ink b).map .char := by simp [skeletons, skeleton]
  have hvs : voids [.text b j] = [] := rfl
  rw [diffText]
  split_ifs with hspan
  · refine ⟨_, rfl, Shows.congr (Shows.of_draws ?_) hstray hcounts⟩
    rw [hsk, hvs]
    exact draws_text hb
  · obtain ⟨r, hr, hdraws, hadded, hremoved⟩ := draws_joinAll_renderOp (wordDiff a b)
      fun op hop hmem => (mem_of_mem_wordDiff hop hmem).elim ha hb
    refine ⟨r, hr, Shows.congr (Shows.of_draws ?_) hstray (by rwa [hadded, hremoved])⟩
    rw [hsk, hvs, ← newSide_wordDiff a b]
    exact hdraws

/-! ### Nodes -/

theorem draws_renderAdded {n : HtmlNode} (h : WellFormed ALLOWED_TAGS n)
    (parentTag : Option String) :
    ∃ m, renderAdded n parentTag = .ok m ∧ Draws m (skeleton n) (nodeVoids n) := by
  rw [renderAdded]
  split_ifs with hbare
  · cases n with
    | text t ignorable => exact ⟨t, rfl, by simpa [serializeNode] using draws_serializeNode h⟩
    | element => cases hbare
    | void => cases hbare
  · exact draws_markWhole_add h

section Node

variable {lists : List HtmlNode → List HtmlNode → Option String → Except DiffError Rendered}

theorem shows_diffNodeBy_pre {attrs attrs' : Attrs} {cs cs' : List HtmlNode}
    (ho : WellFormed ALLOWED_TAGS (.element "pre" attrs cs))
    (hn : WellFormed ALLOWED_TAGS (.element "pre" attrs' cs')) (parentTag : Option String) :
    ∃ r, diffNodeBy lists (.element "pre" attrs cs) (.element "pre" attrs' cs') parentTag = .ok r ∧
      Shows r [.element "pre" attrs' cs']
        (Edit.LeavesStray (.pair (.element "pre" attrs cs) (.element "pre" attrs' cs')))
        (Edit.CountsWords (.pair (.element "pre" attrs cs) (.element "pre" attrs' cs'))) := by
  have hstray : False ↔
      Edit.LeavesStray (.pair (.element "pre" attrs cs) (.element "pre" attrs' cs')) :=
    ⟨False.elim, by rintro (_ | _ | ⟨hne, _, _⟩); exact hne rfl⟩
  have hcounts : Edit.CountsWords (.pair (.element "pre" attrs cs) (.element "pre" attrs' cs')) ↔
      nodesText cs ≠ nodesText cs' ∧
        0 < countWords (nodesText cs') + countWords (nodesText cs) := by
    constructor
    · rintro (_ | _ | _ | ⟨hne, hpos⟩ | ⟨hne, _, _⟩)
      · exact ⟨hne, hpos⟩
      · exact absurd rfl hne
    · exact fun h => .pre h.1 h.2
  simp only [diffNodeBy, ne_eq, not_true_eq_false, if_false, if_true]
  by_cases htext : nodesText cs = nodesText cs'
  · rw [if_pos (by simpa only [nodeText] using htext)]
    refine ⟨_, rfl, Shows.congr (Shows.of_draws ?_) hstray
      (by simp [hcounts, htext, Rendered.plain])⟩
    exact draws_serializeNodes (by simpa using hn)
  · obtain ⟨m, hm, hd⟩ := draws_markWhole_del ho
    obtain ⟨m', hm', hd'⟩ := draws_markWhole_add hn
    rw [if_neg (by simpa only [nodeText] using htext), hm, hm']
    refine ⟨_, rfl, Shows.congr (Shows.of_draws ?_) hstray (by simp [hcounts, htext, nodeText])⟩
    simpa [skeletons, voids, strayVoids] using hd.append hd'

section Element

variable {tag : String} {attrs attrs' : Attrs} {cs cs' : List HtmlNode}

theorem leavesStray_element_iff (notPre : tag ≠ "pre") :
    Edit.LeavesStray (.pair (.element tag attrs cs) (.element tag attrs' cs')) ↔
      ¬ ShownWhole tag cs cs' ∧ LeavesStray (some tag) cs cs' := by
  constructor
  · rintro (_ | _ | ⟨_, hdesc, h⟩)
    exact ⟨hdesc, h⟩
  · exact fun h => .child notPre h.1 h.2

theorem countsWords_element_iff (notPre : tag ≠ "pre") :
    Edit.CountsWords (.pair (.element tag attrs cs) (.element tag attrs' cs')) ↔
      ¬ (tag ∈ META_SHORTCUT_TAGS ∧ nodesText cs = nodesText cs') ∧
        CountsWords (some tag) cs cs' := by
  constructor
  · rintro (_ | _ | _ | _ | ⟨_, hloud, h⟩)
    · exact absurd rfl notPre
    · exact ⟨hloud, h⟩
  · exact fun h => .child notPre h.1 h.2

private theorem diffMeta_mem : "diff-meta" ∈ DIFF_CLASSES ∧ "diff-meta" ∉ DELETION_CLASSES := by
  decide +kernel

theorem shows_elementString {trial : Rendered} (notPre : tag ≠ "pre")
    (hn : WellFormed ALLOWED_TAGS (.element tag attrs' cs')) (hdesc : ¬ ShownWhole tag cs cs')
    (htrial : Shows trial cs' (LeavesStray (some tag) cs cs') (CountsWords (some tag) cs cs'))
    (cls : Option String) (hcls : ∀ c ∈ cls, c ∈ DIFF_CLASSES ∧ c ∉ DELETION_CLASSES) :
    Shows { trial with html := elementString tag attrs' (cls.elim [] classString) trial.html }
      [.element tag attrs' cs']
      (Edit.LeavesStray (.pair (.element tag attrs cs) (.element tag attrs' cs')))
      (Edit.CountsWords (.pair (.element tag attrs cs) (.element tag attrs' cs'))) := by
  obtain ⟨⟨vs, hdraws, hsub, hvs⟩, hpos⟩ := htrial
  cases hn with
  | element allowed notVoid attrs_allowed nodup children_wf =>
    have hdraw := Draws.element cls allowed notVoid ⟨attrs_allowed, nodup⟩ hcls hdraws
    have hvoids : voids [.element tag attrs' cs'] = voids cs' := by simp [voids, nodeVoids]
    refine ⟨⟨vs, by simpa [skeletons, skeleton] using hdraw, hvoids ▸ hsub, ?_⟩, ?_⟩
    · rw [hvoids, hvs, leavesStray_element_iff notPre]
      simp [hdesc]
    · -- the children count words, so a block of equal texts would have been shown whole
      rw [hpos, countsWords_element_iff notPre]
      exact ⟨fun h => ⟨fun hq => hdesc ⟨hq.1, hq.2, h⟩, h⟩, fun h => h.2⟩

theorem shows_diffNodeBy_element (notPre : tag ≠ "pre")
    (hn : WellFormed ALLOWED_TAGS (.element tag attrs' cs'))
    (hlists : ∃ r, lists cs cs' (some tag) = .ok r ∧
      Shows r cs' (LeavesStray (some tag) cs cs') (CountsWords (some tag) cs cs'))
    (parentTag : Option String) :
    ∃ r, diffNodeBy lists (.element tag attrs cs) (.element tag attrs' cs') parentTag = .ok r ∧
      Shows r [.element tag attrs' cs']
        (Edit.LeavesStray (.pair (.element tag attrs cs) (.element tag attrs' cs')))
        (Edit.CountsWords (.pair (.element tag attrs cs) (.element tag attrs' cs'))) := by
  obtain ⟨trial, htrial, hshows⟩ := hlists
  simp only [diffNodeBy, ne_eq, not_true_eq_false, if_false, if_neg notPre, htrial, ok_bind]
  have hwhole : (tag ∈ META_SHORTCUT_TAGS ∧
      nodeText (.element tag attrs cs) = nodeText (.element tag attrs' cs') ∧
      (trial.added > 0 ∨ trial.removed > 0)) ↔ ShownWhole tag cs cs' := by
    rw [ShownWhole, ← hshows.2, nodeText, nodeText]
    exact and_congr_right fun _ => and_congr_right fun _ => by omega
  by_cases hdesc : ShownWhole tag cs cs'
  · -- the trial is thrown away, and the block is written anew
    rw [if_pos (hwhole.mpr hdesc), diffClass, if_pos diffMeta_mem.1]
    refine ⟨_, rfl, Shows.congr (Shows.of_draws ?_)
      (by simp [leavesStray_element_iff notPre, hdesc]) ?_⟩
    · cases hn with
      | element allowed notVoid attrs_allowed nodup children_wf =>
        have hdraw := Draws.element (some "diff-meta") allowed notVoid ⟨attrs_allowed, nodup⟩
          (fun c hc => by cases hc; exact diffMeta_mem) (draws_serializeNodes children_wf)
        simpa [skeletons, skeleton, voids, nodeVoids, Rendered.plain] using hdraw
    · rw [countsWords_element_iff notPre]
      simp [Rendered.plain, hdesc.1, hdesc.2.1]
  · rw [if_neg (mt hwhole.mp hdesc)]
    have hshown := @shows_elementString tag attrs attrs' cs cs' trial notPre hn hdesc hshows
    split_ifs with hattrs
    · exact ⟨_, rfl, hshown none (by simp)⟩
    · rw [diffClass, if_pos diffMeta_mem.1]
      exact ⟨_, rfl, hshown (some "diff-meta") fun c hc => by cases hc; exact diffMeta_mem⟩

end Element

theorem shows_diffNodeBy {old new : HtmlNode} (ho : WellFormed ALLOWED_TAGS old)
    (hn : WellFormed ALLOWED_TAGS new) (hpair : interchangeable old new = true)
    (hlists : ∀ tag attrs attrs' cs cs', old = .element tag attrs cs → new = .element tag attrs' cs' →
      ∃ r, lists cs cs' (some tag) = .ok r ∧
        Shows r cs' (LeavesStray (some tag) cs cs') (CountsWords (some tag) cs cs'))
    (parentTag : Option String) :
    ∃ r, diffNodeBy lists old new parentTag = .ok r ∧
      Shows r [new] (Edit.LeavesStray (.pair old new)) (Edit.CountsWords (.pair old new)) := by
  cases old <;> cases new <;> simp only [interchangeable, Bool.false_eq_true, beq_iff_eq] at hpair
  case text.text a i b j =>
    cases ho with
    | text lt =>
      cases hn with
      | text lt' => exact shows_diffText lt lt' i j parentTag
  case element.element tag attrs cs tag' attrs' cs' =>
    subst hpair
    by_cases hpre : tag = "pre"
    · subst hpre
      exact shows_diffNodeBy_pre ho hn parentTag
    · exact shows_diffNodeBy_element hpre hn (hlists tag attrs attrs' cs cs' rfl rfl) parentTag
  case void.void tag tag' =>
    refine ⟨_, rfl, Shows.congr (Shows.of_draws (draws_serializeNodes (by simpa using hn))) ?_ ?_⟩
    · exact ⟨False.elim, fun h => by cases h⟩
    · exact ⟨fun h => by simp [Rendered.plain] at h, fun h => by cases h⟩

end Node

/-! ### Calls -/

private theorem strayVoids_eq_nil_iff (n : HtmlNode) :
    strayVoids n = [] ↔ ¬ ∃ tag, n = .void tag := by
  cases n <;> simp [strayVoids]

theorem shows_delete {diffNode : DiffNode} {o : HtmlNode} (ho : WellFormed ALLOWED_TAGS o)
    (parentTag : Option String) :
    ∃ r, (Edit.delete o).render diffNode parentTag = .ok r ∧
      Shows r [] (Edit.LeavesStray (.delete o)) (Edit.CountsWords (.delete o)) := by
  have hcounts : 0 < countWords (nodeText o) ↔ Edit.CountsWords (.delete o) :=
    ⟨.delete, fun h => by cases h with | delete h => exact h⟩
  have hstray : (∃ tag, o = .void tag) ↔ Edit.LeavesStray (.delete o) :=
    ⟨fun h => by
      obtain ⟨tag, rfl⟩ := h
      exact .delete tag, fun h => by cases h with | delete tag => exact ⟨tag, rfl⟩⟩
  rw [Edit.render]
  split_ifs with hbare
  · have hnot : False ↔ Edit.LeavesStray (.delete o) := by
      rw [← hstray]
      cases o <;> simp_all [isBareText]
    exact ⟨_, rfl, Shows.congr (Shows.of_draws Draws.nil) hnot (by simpa using hcounts)⟩
  · obtain ⟨m, hm, hd⟩ := draws_markWhole_del ho
    rw [hm]
    refine ⟨_, rfl, ⟨⟨_, hd, List.nil_sublist _, ?_⟩, by simpa using hcounts⟩⟩
    rw [voids, strayVoids_eq_nil_iff, hstray]

/-- A replacement shows the whitespace on the way and the new node, and in front of them the
old one if it is a void element. -/
theorem shows_replace {diffNode : DiffNode} {o n : HtmlNode} {between : List Text}
    (ho : WellFormed ALLOWED_TAGS o)
    (hn : ∀ m ∈ (Edit.replace o between n).newNodes, WellFormed ALLOWED_TAGS m)
    (parentTag : Option String) :
    ∃ r, (Edit.replace o between n).render diffNode parentTag = .ok r ∧
      Shows r (Edit.replace o between n).newNodes (Edit.LeavesStray (.replace o between n))
        (Edit.CountsWords (.replace o between n)) := by
  obtain ⟨hbetween, hnode⟩ := List.forall_mem_append.mp hn
  obtain ⟨m, hm, hd⟩ := draws_markWhole_del ho
  obtain ⟨m', hm', hd'⟩ := draws_renderAdded (by simpa using hnode) parentTag
  have hwhite : serializeNodes (between.map (.text · true)) = between.flatten := by
    clear hn hbetween
    induction between with
    | nil => rfl
    | cons t between ih => simp [serializeNodes, serializeNode, ih]
  have hall := (hd.append (hwhite ▸ draws_serializeNodes hbetween)).append hd'
  have hstray : (∃ tag, o = .void tag) ↔ Edit.LeavesStray (.replace o between n) :=
    ⟨fun h => by
      obtain ⟨tag, rfl⟩ := h
      exact .replace tag between n, fun h => by cases h with | replace tag => exact ⟨tag, rfl⟩⟩
  rw [Edit.render, hm, hm']
  refine ⟨_, rfl, ⟨⟨strayVoids o ++ voids (Edit.replace o between n).newNodes, ?_, ?_, ?_⟩, ?_⟩⟩
  · simpa [Edit.newNodes, skeletons_append, voids_append, skeletons, voids,
      Rendered.plain] using hall
  · exact List.sublist_append_right _ _
  · rw [← hstray, ← strayVoids_eq_nil_iff, List.append_left_eq_self]
  · exact ⟨fun h => by simp [Rendered.plain] at h, fun h => by cases h⟩

/-- **One edit**, rendered, shows the nodes of the new list it accounts for. -/
theorem shows_render
    {lists : List HtmlNode → List HtmlNode → Option String → Except DiffError Rendered}
    {old new : List HtmlNode} {script : List Edit} (hscript : Transforms old new script)
    (ho : ∀ n ∈ old, WellFormed ALLOWED_TAGS n) (hn : ∀ n ∈ new, WellFormed ALLOWED_TAGS n)
    (hlists : ∀ tag attrs attrs' cs cs', .element tag attrs cs ∈ old → .element tag attrs' cs' ∈ new →
      ∃ r, lists cs cs' (some tag) = .ok r ∧
        Shows r cs' (LeavesStray (some tag) cs cs') (CountsWords (some tag) cs cs'))
    (parentTag : Option String) {e : Edit} (he : e ∈ script) :
    ∃ r, e.render (diffNodeBy lists) parentTag = .ok r ∧
      Shows r e.newNodes (Edit.LeavesStray e) (Edit.CountsWords e) := by
  have hnew : ∀ m ∈ e.newNodes, m ∈ new := fun m hm =>
    hscript.new_eq ▸ List.mem_flatMap.mpr ⟨e, he, hm⟩
  have hold : ∀ o, e.oldNode = some o → o ∈ old := fun o ho => by
    have hmem : o ∈ old.filter isContent := hscript.old_eq ▸ List.mem_filterMap.mpr ⟨e, he, ho⟩
    exact (List.mem_filter.mp hmem).1
  cases e with
  | pair o n =>
    have ho' := hold o rfl
    have hn' := hnew n (by simp [Edit.newNodes])
    exact shows_diffNodeBy (ho o ho') (hn n hn') (hscript.pair_interchangeable o n he)
      (fun tag attrs attrs' cs cs' heq heq' =>
        hlists tag attrs attrs' cs cs' (heq ▸ ho') (heq' ▸ hn')) parentTag
  | insert n =>
    obtain ⟨m, hm, hd⟩ := draws_renderAdded (hn n (hnew n (by simp [Edit.newNodes]))) parentTag
    rw [Edit.render, hm]
    refine ⟨_, rfl, Shows.congr (Shows.of_draws ?_) ⟨False.elim, fun h => by cases h⟩ ?_⟩
    · simpa [Edit.newNodes, skeletons, voids] using hd
    · exact ⟨fun h => .insert (by simpa using h), fun h => by
        cases h with | insert h => simpa using h⟩
  | delete o => exact shows_delete (ho o (hold o rfl)) parentTag
  | replace o between n =>
    exact shows_replace (ho o (hold o rfl)) (fun m hm => hn m (hnew m hm)) parentTag

theorem plainTag_of_wellFormed {n : HtmlNode} (h : WellFormed ALLOWED_TAGS n) : n.PlainTag := by
  cases h with
  | text => trivial
  | void => trivial
  | element allowed =>
    have hall : ∀ e ∈ ALLOWED_TAGS, ':' ∉ e.1.toList := by decide +kernel
    obtain ⟨l₁, l₂, hl, -⟩ := List.lookup_eq_some_iff.mp allowed
    exact hall _ (by rw [hl]; exact List.mem_append_right _ (List.mem_cons_self ..))

theorem nodesDepth_children_lt {tag : String} {attrs : Attrs} {cs ns : List HtmlNode}
    (h : .element tag attrs cs ∈ ns) : nodesDepth cs < nodesDepth ns := by
  induction ns with
  | nil => cases h
  | cons n ns ih =>
    rw [nodesDepth]
    rcases List.mem_cons.mp h with rfl | h
    · rw [nodeDepth]
      omega
    · have := ih h
      omega

/-- **A call of `diffNodeLists`** shows the new list, by induction on the depth that is left. -/
theorem shows_diffNodeLists : ∀ (depth : ℕ) (old new : List HtmlNode) (parentTag : Option String),
    (∀ n ∈ old, WellFormed ALLOWED_TAGS n) → (∀ n ∈ new, WellFormed ALLOWED_TAGS n) →
      nodesDepth new < depth →
      ∃ r, diffNodeLists depth old new parentTag = .ok r ∧
        Shows r new (LeavesStray parentTag old new) (CountsWords parentTag old new)
  | 0, _, _, _, _, _, h => absurd h (by omega)
  | depth + 1, old, new, parentTag, ho, hn, hdepth => by
    have hplain : ∀ {ns : List HtmlNode}, (∀ n ∈ ns, WellFormed ALLOWED_TAGS n) →
        ∀ n ∈ ns, n.PlainTag := fun h n hn => plainTag_of_wellFormed (h n hn)
    have hscript := transforms_editScript parentTag (hplain ho) (hplain hn)
    have hchildren : ∀ {tag attrs cs} {ns : List HtmlNode}, (∀ n ∈ ns, WellFormed ALLOWED_TAGS n) →
        .element tag attrs cs ∈ ns → ∀ c ∈ cs, WellFormed ALLOWED_TAGS c := by
      intro tag attrs cs ns h hmem
      cases h _ hmem with
      | element _ _ _ _ children_wf => exact children_wf
    obtain ⟨r, hr, hshows⟩ := shows_joinAll fun e he => shows_render hscript ho hn
      (fun tag attrs attrs' cs cs' hold hnew => shows_diffNodeLists depth cs cs' (some tag)
        (hchildren ho hold) (hchildren hn hnew)
        (by have := nodesDepth_children_lt hnew; omega)) parentTag he
    refine ⟨r, ?_, ?_⟩
    · rw [diffNodeLists, diffNodeListsBy_eq _ (
        (fun t ht => by cases hn _ ht with | text _ white => exact white rfl)) (hplain ho)
        (hplain hn), hr]
    · rw [hscript.new_eq] at hshows
      refine hshows.congr ⟨fun ⟨e, he, h⟩ => .edit he h, fun h => ?_⟩
        ⟨fun ⟨e, he, h⟩ => .edit he h, fun h => ?_⟩
      · cases h with
        | edit he h => exact ⟨_, he, h⟩
      · cases h with
        | edit he h => exact ⟨_, he, h⟩

theorem shows_richDiff {oldHtml newHtml : Text} {oldTree newTree : List HtmlNode}
    (hne : oldHtml ≠ newHtml) (ho : parseSanitizedHtml oldHtml = .ok oldTree)
    (hn : parseSanitizedHtml newHtml = .ok newTree) :
    ∃ r vs, richDiff oldHtml newHtml = .ok r ∧ r.degraded = false ∧
      Draws r.html (skeletons newTree) vs ∧
      (vs = voids newTree ↔ ¬ LeavesStray none oldTree newTree) := by
  obtain ⟨r, hr, ⟨vs, hdraws, -, hvs⟩, -⟩ := shows_diffNodeLists (nodesDepth newTree + 1) oldTree
    newTree none (wellFormed_of_parseHtml ho) (wellFormed_of_parseHtml hn) (by omega)
  refine ⟨⟨r.html, r.added, r.removed, true, false⟩, vs, ?_, rfl, hdraws, hvs⟩
  rw [richDiff, if_neg hne, ho, hn]
  simp only [hr, ok_bind]
  rfl

end DrepTalk
