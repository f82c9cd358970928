import DrepTalk.Forum.RichDiff

/-!
# The contract of the rich diff

What the history page may rely on, over all pairs of strings.

* **Nothing of the new body is lost** (`skeletons_richDiff`): undoing the marks gives the new
  tree back, up to white characters and void elements.
* **The diff returns** (`richDiff_returns`): no throw of the renderer is reachable, because
  every pair it renders is of one kind and tag.
* **The allowlist** (`safe_richDiff_iff`): the markup stays within the sanitizer's allowlist,
  widened by the marks, unless both bodies are one string in which a void element carries
  attributes: the parser drops those unread, and on that path the string itself is returned.
* **Void elements** (`voids_richDiff_iff`): the markup shows the void elements of the new body
  exactly if no void element of the old one is deleted or replaced on the way.
-/

namespace DrepTalk

open JsText

/-! ### Nothing of the new body is lost -/

/-- **Undoing the marks gives the new body back**, up to white characters and void elements. -/
theorem skeletons_richDiff {oldHtml newHtml : Text} {oldTree newTree : List HtmlNode}
    (hne : oldHtml ≠ newHtml) (ho : parseSanitizedHtml oldHtml = .ok oldTree)
    (hn : parseSanitizedHtml newHtml = .ok newTree) :
    ∃ r tree, richDiff oldHtml newHtml = .ok r ∧ parseHtml DIFF_TAGS r.html = .ok tree ∧
      skeletons (eraseMarks tree) = skeletons newTree := by
  obtain ⟨r, vs, hr, -, hdraws, -⟩ := shows_richDiff hne ho hn
  obtain ⟨tree, htree, hsk, -⟩ := hdraws.parse
  exact ⟨r, tree, hr, htree, hsk⟩

/-- One changed word of a paragraph. -/
theorem skeletons_richDiff_word :
    ∃ r tree, richDiff "<p>I vote No</p>".toList "<p>I vote Yes</p>".toList = .ok r ∧
      parseHtml DIFF_TAGS r.html = .ok tree ∧
      skeletons (eraseMarks tree)
        = skeletons [.element "p" [] [.text "I vote Yes".toList false]] :=
  skeletons_richDiff (by decide +kernel)
    (show parseSanitizedHtml "<p>I vote No</p>".toList
      = .ok [.element "p" [] [.text "I vote No".toList false]] by rfl) (by rfl)

/-! ### The diff returns -/

/-- The calls of `diffNodeLists` in the diff of two trees: the one on the trees themselves, and
one on the children of every pair of elements a call renders. -/
inductive Call (oldTree newTree : List HtmlNode) :
    Option String → List HtmlNode → List HtmlNode → Prop
  | root : Call oldTree newTree none oldTree newTree
  | child {parentTag : Option String} {old new : List HtmlNode} {tag tag' : String}
    {attrs attrs' : Attrs} {cs cs' : List HtmlNode} (call : Call oldTree newTree parentTag old new)
    (mem : .pair (.element tag attrs cs) (.element tag' attrs' cs') ∈ editScript parentTag old new) :
    Call oldTree newTree (some tag') cs cs'

theorem wellFormed_of_call {oldTree newTree : List HtmlNode}
    (ho : ∀ n ∈ oldTree, WellFormed ALLOWED_TAGS n) (hn : ∀ n ∈ newTree, WellFormed ALLOWED_TAGS n)
    {parentTag : Option String} {old new : List HtmlNode}
    (h : Call oldTree newTree parentTag old new) :
    (∀ n ∈ old, WellFormed ALLOWED_TAGS n) ∧ ∀ n ∈ new, WellFormed ALLOWED_TAGS n := by
  induction h with
  | root => exact ⟨ho, hn⟩
  | @child parentTag old new tag tag' attrs attrs' cs cs' call mem ih =>
    obtain ⟨ho, hn⟩ := ih
    have hscript := transforms_editScript parentTag (fun n h => plainTag_of_wellFormed (ho n h))
      fun n h => plainTag_of_wellFormed (hn n h)
    have hnew : .element tag' attrs' cs' ∈ new :=
      hscript.new_eq ▸ List.mem_flatMap.mpr ⟨_, mem, by simp [Edit.newNodes]⟩
    have hold : .element tag attrs cs ∈ old.filter isContent :=
      hscript.old_eq ▸ List.mem_filterMap.mpr ⟨_, mem, rfl⟩
    cases ho _ (List.mem_filter.mp hold).1 with
    | element _ _ _ _ hcs =>
      cases hn _ hnew with
      | element _ _ _ _ hcs' => exact ⟨hcs, hcs'⟩

/-- **The diff never throws**, and every pair of nodes that a call hands to `diffNode` has one
kind and, where there is one, one tag. -/
theorem richDiff_returns (oldHtml newHtml : Text) :
    (∃ r, richDiff oldHtml newHtml = .ok r) ∧
      ∀ oldTree newTree, parseSanitizedHtml oldHtml = .ok oldTree →
        parseSanitizedHtml newHtml = .ok newTree →
        ∀ parentTag old new o n, Call oldTree newTree parentTag old new →
          .pair o n ∈ editScript parentTag old new → interchangeable o n = true := by
  refine ⟨?_, fun oldTree newTree ho hn parentTag old new o n hcall hmem => ?_⟩
  · by_cases heq : oldHtml = newHtml
    · rw [richDiff, if_pos heq]
      rcases parseSanitizedHtml newHtml with err | ns
      · exact ⟨_, rfl⟩
      · exact ⟨_, rfl⟩
    · rcases ho : parseSanitizedHtml oldHtml with err | oldTree
      · exact ⟨_, by rw [richDiff, if_neg heq, ho]; rfl⟩
      · rcases hn : parseSanitizedHtml newHtml with err | newTree
        · exact ⟨_, by rw [richDiff, if_neg heq, ho, hn]; rfl⟩
        · obtain ⟨r, -, hr, -⟩ := shows_richDiff heq ho hn
          exact ⟨r, hr⟩
  · obtain ⟨hold, hnew⟩ :=
      wellFormed_of_call (wellFormed_of_parseHtml ho) (wellFormed_of_parseHtml hn) hcall
    exact (transforms_editScript parentTag (fun n h => plainTag_of_wellFormed (hold n h))
      fun n h => plainTag_of_wellFormed (hnew n h)).pair_interchangeable o n hmem

/-- A changed paragraph is diffed, and the pair it starts with is two paragraphs. -/
theorem richDiff_returns_word :
    (∃ r, richDiff "<p>No</p>".toList "<p>Yes</p>".toList = .ok r) ∧
      interchangeable (.element "p" [] [.text "No".toList false])
        (.element "p" [] [.text "Yes".toList false]) = true :=
  have h := richDiff_returns "<p>No</p>".toList "<p>Yes</p>".toList
  ⟨h.1, h.2 [.element "p" [] [.text "No".toList false]] [.element "p" [] [.text "Yes".toList false]]
    (by rfl) (by rfl) none _ _ _ _ .root (.head _)⟩

/-! ### The allowlist -/

/-- What the parser lets through of a token: everything but the attributes of void elements is
checked. -/
def HtmlToken.Accepted : HtmlToken → Prop
  | .text t => '<' ∉ t
  | .closing tag => ∃ names, ALLOWED_TAGS.lookup tag = some names
  | .opening tag attrs => ∃ names, ALLOWED_TAGS.lookup tag = some names ∧
    (tag ∈ VOID_TAGS ∨ ∀ a ∈ attrs, a.1 ∈ names)

theorem accepted_of_step {s s' : ParseState} {token : HtmlToken} (h : s.Good ALLOWED_TAGS)
    (htoken : token.Unquoted) (hs : ParseState.step ALLOWED_TAGS s token = .ok s') :
    token.Accepted := by
  cases token with
  | text t =>
    simp only [ParseState.step] at hs
    split at hs
    · cases hs
    · assumption
  | closing tag =>
    simp only [ParseState.step] at hs
    split at hs
    · rename_i e stack hstack
      split at hs
      · rename_i htag
        obtain ⟨names, hnames, -⟩ := (h.stack_good e (by simp [hstack])).allowed
        exact ⟨names, htag ▸ hnames⟩
      · cases hs
    · cases hs
  | opening tag raw =>
    simp only [ParseState.step] at hs
    split at hs
    · cases hs
    · rename_i names hnames
      split at hs
      · exact ⟨names, hnames, .inl ‹_›⟩
      · rcases hattrs : parseAttrs tag names raw with err | attrs
        · rw [hattrs] at hs
          cases hs
        · exact ⟨names, hnames, .inr (attrsAllowed_of_parseAttrs htoken hattrs).2⟩

theorem accepted_of_parse {html : Text} {ns : List HtmlNode}
    (h : parseSanitizedHtml html = .ok ns) : ∀ t ∈ htmlTokens html, t.Accepted := by
  rw [parseSanitizedHtml, parseHtml] at h
  rcases hfold : (htmlTokens html).foldlM (ParseState.step ALLOWED_TAGS) ⟨[], []⟩ with err | s
  · rw [hfold] at h
    cases h
  · refine (foldlM_ok (P := ParseState.Good ALLOWED_TAGS) (fun t ht s s' hs hstep => ?_)
      ⟨by simp, by simp⟩ hfold).2
    have hunquoted := unquoted_of_mem_scan html 0 t ht
    exact ⟨hs.step hunquoted hstep, accepted_of_step hs hunquoted hstep⟩

/-- The tag of a `br` or `hr` with an attribute other than a class of the diff. -/
def HtmlToken.Adorned : HtmlToken → Prop
  | .opening tag attrs => tag ∈ VOID_TAGS ∧
    ∃ a ∈ attrs, ¬ (a.1 = "class" ∧ ∃ cls ∈ DIFF_CLASSES, a.2 = cls.toList)
  | _ => False

theorem safe_iff_of_accepted {t : HtmlToken} (h : t.Accepted) : t.Safe ↔ ¬ t.Adorned := by
  cases t with
  | text t => exact ⟨fun _ h => h, fun _ => h⟩
  | closing tag => exact ⟨fun _ h => h, fun _ => .inr h⟩
  | opening tag attrs =>
    obtain ⟨names, hnames, hattrs⟩ := h
    have hvoid : tag ∈ VOID_TAGS → names = [] := by
      intro hmem
      have hall : ∀ v ∈ VOID_TAGS, ALLOWED_TAGS.lookup v = some [] := by decide +kernel
      simpa [hall tag hmem] using hnames.symm
    constructor
    · rintro (⟨hspan, -⟩ | ⟨names', hnames', hall⟩) ⟨hmem, a, ha, hbad⟩
      · exact absurd hspan (markFree_ALLOWED_TAGS hnames).1
      · obtain rfl : names = names' := by simpa [hnames] using hnames'
        rcases hall a ha with hin | hcls
        · simp [hvoid hmem] at hin
        · exact hbad hcls
    · intro hplain
      refine .inr ⟨names, hnames, fun a ha => ?_⟩
      rcases hattrs with hmem | hall
      · by_contra hcon
        exact hplain ⟨hmem, a, ha, fun hcls => hcon (.inr hcls)⟩
      · exact .inl (hall a ha)

/-- **The diff stays within the allowlist** exactly if the inputs are not one body, accepted by
the parser, in which a void element carries attributes other than a class of the diff. -/
theorem safe_richDiff_iff (oldHtml newHtml : Text) :
    (∀ r, richDiff oldHtml newHtml = .ok r → r.degraded = false → ∀ t ∈ htmlTokens r.html, t.Safe) ↔
      ¬ (oldHtml = newHtml ∧ (∃ tree, parseSanitizedHtml newHtml = .ok tree) ∧
        ∃ t ∈ htmlTokens newHtml, t.Adorned) := by
  by_cases heq : oldHtml = newHtml
  · rcases hn : parseSanitizedHtml newHtml with err | tree
    · have hdegraded : richDiff oldHtml newHtml = .ok ⟨[], 0, 0, false, true⟩ := by
        rw [richDiff, if_pos heq, hn]
        rfl
      simp [hdegraded]
    · have hsame : richDiff oldHtml newHtml = .ok ⟨newHtml, 0, 0, false, false⟩ := by
        rw [richDiff, if_pos heq, hn]
        rfl
      have haccepted := accepted_of_parse hn
      constructor
      · rintro h ⟨-, -, t, ht, hadorned⟩
        exact (safe_iff_of_accepted (haccepted t ht)).mp (h _ hsame rfl t ht) hadorned
      · intro h r hr _ t ht
        rw [hsame] at hr
        cases hr
        exact (safe_iff_of_accepted (haccepted t ht)).mpr fun hadorned =>
          h ⟨heq, ⟨tree, rfl⟩, t, ht, hadorned⟩
  · refine ⟨fun _ h => heq h.1, fun _ r hr hdegraded => ?_⟩
    rcases ho : parseSanitizedHtml oldHtml with err | oldTree
    · rw [richDiff, if_neg heq, ho] at hr
      cases hr
      cases hdegraded
    · rcases hn : parseSanitizedHtml newHtml with err | newTree
      · rw [richDiff, if_neg heq, ho, hn] at hr
        cases hr
        cases hdegraded
      · obtain ⟨r', vs, hr', -, hdraws, -⟩ := shows_richDiff heq ho hn
        rw [hr'] at hr
        cases hr
        exact hdraws.safe

/-- A body whose line break carries a handler is returned as it is against itself. -/
theorem not_safe_richDiff :
    ¬ ∀ oldHtml newHtml r, richDiff oldHtml newHtml = .ok r → r.degraded = false →
      ∀ t ∈ htmlTokens r.html, t.Safe := by
  intro h
  have hr : richDiff "<br onclick=\"x\">".toList "<br onclick=\"x\">".toList
      = .ok ⟨"<br onclick=\"x\">".toList, 0, 0, false, false⟩ := by decide +kernel
  have hmem : .opening "br" [("onclick", "x".toList)] ∈ htmlTokens "<br onclick=\"x\">".toList := by
    decide +kernel
  rcases h _ _ _ hr rfl _ hmem with ⟨hspan, -⟩ | ⟨names, hnames, hattrs⟩
  · exact nomatch hspan
  · obtain rfl : names = [] := by
      have : ALLOWED_TAGS.lookup "br" = some [] := by decide +kernel
      simpa [this] using hnames.symm
    rcases hattrs _ (List.mem_singleton_self _) with hin | ⟨hclass, -⟩
    · cases hin
    · exact nomatch hclass

/-! ### Void elements -/

/-- **The diff shows the void elements of the new body** and no others, exactly if no void
element of the old body is deleted or replaced where the diff descends. -/
theorem voids_richDiff_iff {oldHtml newHtml : Text} {oldTree newTree : List HtmlNode}
    (hne : oldHtml ≠ newHtml) (ho : parseSanitizedHtml oldHtml = .ok oldTree)
    (hn : parseSanitizedHtml newHtml = .ok newTree) :
    (∃ r tree, richDiff oldHtml newHtml = .ok r ∧ parseHtml DIFF_TAGS r.html = .ok tree ∧
      voids (eraseMarks tree) = voids newTree) ↔ ¬ LeavesStray none oldTree newTree := by
  obtain ⟨r, vs, hr, -, hdraws, hvs⟩ := shows_richDiff hne ho hn
  obtain ⟨tree, htree, -, hvoids⟩ := hdraws.parse
  rw [← hvs, ← hvoids]
  constructor
  · rintro ⟨r', tree', hr', htree', h⟩
    rw [hr] at hr'
    cases hr'
    rw [htree] at htree'
    cases htree'
    exact h
  · exact fun h => ⟨r, tree, hr, htree, h⟩

/-- Two paragraphs, one line break in each. -/
theorem voids_richDiff_iff_break :
    (∃ r tree, richDiff "<p>a<br></p>".toList "<p>b<br></p>".toList = .ok r ∧
      parseHtml DIFF_TAGS r.html = .ok tree ∧
      voids (eraseMarks tree) = voids [.element "p" [] [.text ['b'] false, .void "br"]]) ↔
      ¬ LeavesStray none [.element "p" [] [.text ['a'] false, .void "br"]]
        [.element "p" [] [.text ['b'] false, .void "br"]] :=
  voids_richDiff_iff (by decide +kernel) (by rfl) (by rfl)

/-- A rule that was replaced by a paragraph is still shown. -/
theorem not_voids_richDiff :
    ¬ ∀ oldHtml newHtml oldTree newTree, oldHtml ≠ newHtml →
      parseSanitizedHtml oldHtml = .ok oldTree → parseSanitizedHtml newHtml = .ok newTree →
      ∃ r tree, richDiff oldHtml newHtml = .ok r ∧ parseHtml DIFF_TAGS r.html = .ok tree ∧
        voids (eraseMarks tree) = voids newTree := by
  intro h
  obtain ⟨r, tree, hr, htree, hvoids⟩ := h "<hr>".toList "<p>x</p>".toList [.void "hr"]
    [.element "p" [] [.text ['x'] false]] (by decide +kernel) (by rfl) (by rfl)
  have hr' : richDiff "<hr>".toList "<p>x</p>".toList
      = .ok ⟨"<hr><p class=\"diff-block-add\">x</p>".toList, 1, 0, true, false⟩ := by decide +kernel
  rw [hr'] at hr
  cases hr
  have hshown : (parseHtml DIFF_TAGS "<hr><p class=\"diff-block-add\">x</p>".toList).map
      (fun ns => voids (eraseMarks ns)) = .ok ["hr"] := by decide +kernel
  rw [htree] at hshown
  have hhr : voids (eraseMarks tree) = ["hr"] := by simpa [Except.map] using hshown
  rw [hvoids] at hhr
  cases hhr

end DrepTalk
