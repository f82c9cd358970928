import DrepTalk.Forum.HtmlRoundTrip

/-!
# Parsing, writing and parsing again

Parsing a written tree returns it with its texts joined; a tree that comes from the parser has
nothing to join. The scanner collects a text up to the next tag it finds, so no token is an empty
text and no two texts are neighbours (`AlternatingTokens`). Between two texts the parser pushes a
node that is none, into whichever element is open then, and it flags a text by the element it is
in, so the trees it builds are their own joined form (`JoinedNodes`).
-/

namespace DrepTalk

open JsText

/-! ### Tokens -/

/-- No text is empty, and no two are neighbours. -/
inductive AlternatingTokens : List HtmlToken → Prop
  | nil : AlternatingTokens []
  | text {t : Text} {tokens : List HtmlToken} (nonempty : t ≠ [])
    (apart : ∀ t' tokens', tokens ≠ .text t' :: tokens') (rest : AlternatingTokens tokens) :
    AlternatingTokens (.text t :: tokens)
  | tag {token : HtmlToken} {tokens : List HtmlToken} (isTag : ∀ t, token ≠ .text t)
    (rest : AlternatingTokens tokens) : AlternatingTokens (token :: tokens)

variable {tokens : List HtmlToken} {token : HtmlToken} {layout : Bool} {n : HtmlNode}

theorem alternatingTokens_consChar (c : Char) (h : AlternatingTokens tokens) :
    AlternatingTokens (consChar c tokens) := by
  cases h with
  | nil => exact .text (List.cons_ne_nil c []) (fun _ _ => (List.cons_ne_nil _ _).symm) .nil
  | text nonempty apart rest => exact .text (List.cons_ne_nil c _) apart rest
  | @tag token tokens isTag rest =>
    have hsplit : consChar c (token :: tokens) = .text [c] :: token :: tokens := by
      rcases token with t | tag | ⟨tag, attrs⟩
      · exact absurd rfl (isTag t)
      · rfl
      · rfl
    rw [hsplit]
    refine .text (List.cons_ne_nil c []) (fun t tokens' heq => ?_) (.tag isTag rest)
    exact isTag t (List.cons.inj heq).1

theorem isTag_of_tagAt {s rest : Text} (h : tagAt s = some (token, rest)) :
    ∀ t, token ≠ .text t := by
  rintro t rfl
  rw [tagAt.eq_def] at h
  split at h
  · split at h
    · cases h
    · split at h <;> cases h
  · split at h
    · cases h
    · dsimp only at h
      split at h <;> cases h

theorem alternatingTokens_scan : ∀ (s : Text) (skip : ℕ), AlternatingTokens (scan skip s)
  | [], _ => by
    rw [scan]
    exact .nil
  | _ :: s, skip + 1 => by
    rw [scan]
    exact alternatingTokens_scan s skip
  | c :: s, 0 => by
    rw [scan]
    split
    · split
      · rename_i token rest h
        exact .tag (isTag_of_tagAt h) (alternatingTokens_scan s _)
      · exact alternatingTokens_consChar c (alternatingTokens_scan s 0)
    · exact alternatingTokens_consChar c (alternatingTokens_scan s 0)

/-! ### Trees -/

def HtmlNode.IsText : HtmlNode → Prop
  | .text _ _ => True
  | _ => False

/-- Node lists that are their own joined form: no text is empty, no two are neighbours, and those
that are layout are flagged. -/
inductive JoinedNodes : Bool → List HtmlNode → Prop
  | nil (layout : Bool) : JoinedNodes layout []
  | text {layout : Bool} {t : Text} {ns : List HtmlNode} (nonempty : t ≠ [])
    (apart : ∀ n ∈ ns.head?, ¬n.IsText) (rest : JoinedNodes layout ns) :
    JoinedNodes layout (.text t (isLayout layout t) :: ns)
  | void {layout : Bool} {ns : List HtmlNode} (tag : String) (rest : JoinedNodes layout ns) :
    JoinedNodes layout (.void tag :: ns)
  | element {layout : Bool} {tag : String} {children ns : List HtmlNode} (attrs : Attrs)
    (inner : JoinedNodes (decide (tag ∈ STRUCTURAL_TAGS)) children)
    (rest : JoinedNodes layout ns) : JoinedNodes layout (.element tag attrs children :: ns)

variable {ns : List HtmlNode} {G : Grammar}

theorem foldr_consTextChar {t : Text} (hne : t ≠ []) (hapart : ∀ n ∈ ns.head?, ¬n.IsText) :
    t.foldr (consTextChar layout) ns = .text t (isLayout layout t) :: ns := by
  induction t with
  | nil => exact absurd rfl hne
  | cons c t ih =>
    rw [List.foldr_cons]
    by_cases ht : t = []
    · rw [ht, List.foldr_nil]
      rcases ns with _ | ⟨n, ns⟩
      · rfl
      · have hn := hapart n (Option.mem_some.mpr rfl)
        rcases n with ⟨u, ignorable⟩ | _ | _
        · exact absurd trivial hn
        · rfl
        · rfl
    · rw [ih ht]
      rfl

/-- **Joined trees have nothing to join.** -/
theorem coalesce_of_joinedNodes (h : JoinedNodes layout ns) : coalesce layout ns = ns := by
  induction h with
  | nil layout => rfl
  | text nonempty apart rest ih =>
    rw [coalesce, ih, coalesceNode, foldr_consTextChar nonempty apart]
  | void tag rest ih => rw [coalesce, ih, coalesceNode]
  | element attrs inner rest ihInner ihRest => rw [coalesce, ihRest, coalesceNode, ihInner]

theorem JoinedNodes.concat (h : JoinedNodes layout ns) (hn : JoinedNodes layout [n])
    (hapart : n.IsText → ∀ m ∈ ns.getLast?, ¬m.IsText) : JoinedNodes layout (ns ++ [n]) := by
  induction h with
  | nil layout => exact hn
  | @text layout t ns nonempty apart rest ih =>
    rcases ns with _ | ⟨m, ns⟩
    · refine .text nonempty (fun m hm htext => ?_) hn
      obtain rfl : n = m := Option.some.inj hm
      exact hapart htext _ (Option.mem_some.mpr rfl) trivial
    · refine .text nonempty apart (ih hn fun htext m' hm' => hapart htext m' ?_)
      rwa [List.getLast?_cons_cons]
  | @void layout ns tag rest ih =>
    refine .void tag (ih hn fun htext m' hm' => hapart htext m' ?_)
    rcases ns with _ | ⟨m, ns⟩
    · exact nomatch hm'
    · rwa [List.getLast?_cons_cons]
  | @element layout tag children ns attrs inner rest ihInner ih =>
    refine .element attrs inner (ih hn fun htext m' hm' => hapart htext m' ?_)
    rcases ns with _ | ⟨m, ns⟩
    · exact nomatch hm'
    · rwa [List.getLast?_cons_cons]

/-! ### The parser -/

namespace ParseState

/-- `top()`. -/
def top (s : ParseState) : List HtmlNode :=
  match s.stack with
  | [] => s.root
  | e :: _ => e.children

/-- Everything built so far is in joined form. -/
structure Joined (s : ParseState) : Prop where
  root : JoinedNodes true s.root
  stack : ∀ e ∈ s.stack, JoinedNodes (decide (e.tag ∈ STRUCTURAL_TAGS)) e.children

theorem top_push (s : ParseState) (n : HtmlNode) : (s.push n).top = s.top ++ [n] := by
  obtain ⟨root, _ | ⟨e, stack⟩⟩ := s <;> rfl

variable {s s' : ParseState}

theorem Joined.push (h : s.Joined) (hn : JoinedNodes s.inStructuralContext [n])
    (hapart : n.IsText → ∀ m ∈ s.top.getLast?, ¬m.IsText) : (s.push n).Joined := by
  obtain ⟨root, _ | ⟨e, stack⟩⟩ := s
  · exact ⟨h.root.concat hn hapart, h.stack⟩
  · obtain ⟨he, hstack⟩ := List.forall_mem_cons.mp h.stack
    exact ⟨h.root, List.forall_mem_cons.mpr ⟨he.concat hn hapart, hstack⟩⟩

/-- What has been pushed last is no text. -/
def AfterTag (s : ParseState) : Prop := ∀ n ∈ s.top.getLast?, ¬n.IsText

theorem afterTag_push (h : ¬n.IsText) : (s.push n).AfterTag := by
  intro m hm
  rw [top_push, List.getLast?_concat, Option.mem_some] at hm
  exact hm ▸ h

theorem Joined.tag (h : s.Joined) (htag : ∀ t, token ≠ .text t) (hs : step G s token = .ok s') :
    s'.Joined ∧ s'.AfterTag := by
  cases token with
  | text t => exact absurd rfl (htag t)
  | closing tag =>
    simp only [step] at hs
    split at hs
    · rename_i e stack hstack
      split at hs
      · cases hs
        have hjoined := h.stack
        rw [hstack] at hjoined
        obtain ⟨he, hrest⟩ := List.forall_mem_cons.mp hjoined
        have hbelow : Joined { s with stack := stack } := ⟨h.root, hrest⟩
        exact ⟨hbelow.push (.element e.attrs he (.nil _)) (fun htext => htext.elim),
          afterTag_push not_false⟩
      · cases hs
    · cases hs
  | opening tag raw =>
    simp only [step] at hs
    split at hs
    · cases hs
    · rename_i names hnames
      split at hs
      · cases hs
        exact ⟨h.push (.void tag (.nil _)) (fun htext => htext.elim), afterTag_push not_false⟩
      · rcases hattrs : parseAttrs tag names raw with err | attrs
        · rw [hattrs] at hs
          cases hs
        · rw [hattrs] at hs
          cases hs
          refine ⟨⟨h.root, List.forall_mem_cons.mpr ⟨.nil _, h.stack⟩⟩, fun n hn => ?_⟩
          cases hn

theorem Joined.text {t : Text} (h : s.Joined) (hafter : s.AfterTag) (hne : t ≠ [])
    (hs : step G s (.text t) = .ok s') : s'.Joined := by
  simp only [step] at hs
  split at hs
  · cases hs
  · cases hs
    have hempty : ∀ n ∈ ([] : List HtmlNode).head?, ¬n.IsText := by simp
    exact h.push (.text hne hempty (.nil _)) fun _ => hafter

theorem joined_of_foldlM (h : AlternatingTokens tokens) :
    ∀ {s s' : ParseState}, s.Joined → (∀ t tokens', tokens = .text t :: tokens' → s.AfterTag) →
      tokens.foldlM (step G) s = .ok s' → s'.Joined := by
  induction h with
  | nil =>
    intro s s' hs _ hrun
    cases hrun
    exact hs
  | @text t tokens nonempty apart rest ih =>
    intro s s' hs hafter hrun
    rw [List.foldlM_cons] at hrun
    rcases hstep : step G s (.text t) with err | s₁
    · rw [hstep] at hrun
      cases hrun
    · rw [hstep, ok_bind] at hrun
      have hs₁ := hs.text (hafter t tokens rfl) nonempty hstep
      exact ih hs₁ (fun t' tokens' heq => absurd heq (apart t' tokens')) hrun
  | @tag token tokens isTag rest ih =>
    intro s s' hs _ hrun
    rw [List.foldlM_cons] at hrun
    rcases hstep : step G s token with err | s₁
    · rw [hstep] at hrun
      cases hrun
    · rw [hstep, ok_bind] at hrun
      obtain ⟨hs₁, hafter⟩ := hs.tag isTag hstep
      exact ih hs₁ (fun _ _ _ => hafter) hrun

end ParseState

theorem joinedNodes_of_parseHtml {html : Text} (h : parseHtml G html = .ok ns) :
    JoinedNodes true ns := by
  rw [parseHtml] at h
  rcases hrun : (htmlTokens html).foldlM (ParseState.step G) ⟨[], []⟩ with err | s
  · rw [hrun] at h
    cases h
  · have hstart : ParseState.Joined ⟨[], []⟩ := ⟨.nil true, by simp⟩
    have hafter : ParseState.AfterTag ⟨[], []⟩ := by simp [ParseState.AfterTag, ParseState.top]
    have hjoined := ParseState.joined_of_foldlM (alternatingTokens_scan html 0) hstart
      (fun _ _ _ => hafter) hrun
    rw [hrun, ok_bind] at h
    split at h
    · cases h
      exact hjoined.root
    · cases h

/-- **The parser is settled after one round.** Whatever the parser accepts, the tree it gives is
written as text that it accepts too and parses to the same tree. -/
theorem parseSanitizedHtml_reparse {html : Text} {ns : List HtmlNode}
    (h : parseSanitizedHtml html = .ok ns) : parseSanitizedHtml (serializeNodes ns) = .ok ns := by
  have hroundTrip := parseSanitizedHtml_serializeNodes (wellFormed_of_parseHtml h)
  rwa [coalesce_of_joinedNodes (joinedNodes_of_parseHtml h)] at hroundTrip

/-- Upper case, a self-closing tag, a bracket in a value and a name given twice. -/
theorem parseSanitizedHtml_reparse_list :
    parseSanitizedHtml (serializeNodes
        [.element "ul" [] [.text ['\n'] true,
          .element "li" [] [.element "a" [("href", "u<v".toList), ("rel", "n".toList)]
            [.text "1 > 0".toList false], .void "br"]]]) =
      .ok [.element "ul" [] [.text ['\n'] true,
        .element "li" [] [.element "a" [("href", "u<v".toList), ("rel", "n".toList)]
          [.text "1 > 0".toList false], .void "br"]]] :=
  parseSanitizedHtml_reparse (show parseSanitizedHtml
    "<UL>\n<li><a href=\"x\" rel=\"n\" href=\"u<v\">1 > 0</a ><BR/></li></ul>".toList = _ by rfl)

end DrepTalk
