import DrepTalk.Text.JsText

/-!
# The parser of sanitized post bodies

`src/lib/sanitizedHtmlGrammar.ts` lists what stored post HTML may contain, and
`src/lib/forum/htmlNodes.ts` parses exactly that: a global regular expression finds the tags,
everything between two matches is text, and a stack turns the token stream into a node tree
or throws.

`htmlTokens` is the `TOKEN` loop: at every `<` it tries to match a complete tag and resumes
one character further on when none matches, so unmatched markup ends up inside a text. Both
patterns are deterministic (a tag name is followed by a character outside the name class, an
attribute by a quote), so matching is greedy without backtracking, and scanning the captured
attribute text with `ATTR` finds the very pairs the repeated group went through.

The parser is stated over a `Grammar`, the table of allowed tags; `parseSanitizedHtml` runs
it on `ALLOWED_TAGS`.
-/

namespace DrepTalk

open JsText

/-! ### The grammar tables -/

abbrev Grammar := List (String × List String)

/-- The one definition of what stored post HTML may contain. -/
def ALLOWED_TAGS : Grammar :=
  [("p", []), ("br", []), ("h1", []), ("h2", []), ("h3", []), ("h4", []), ("strong", []),
    ("em", []), ("del", []), ("blockquote", []), ("code", []), ("pre", []), ("ul", []),
    ("ol", []), ("li", []), ("a", ["href", "rel"]), ("hr", []), ("table", []), ("thead", []),
    ("tbody", []), ("tr", []), ("th", []), ("td", [])]

/-- Tags with no closing tag and no children. -/
def VOID_TAGS : List String := ["br", "hr"]

/-- Tags that render as their own block. -/
def BLOCK_TAGS : List String :=
  ["p", "h1", "h2", "h3", "h4", "blockquote", "pre", "ul", "ol", "li", "table", "tr"]

/-- Containers whose direct text children are layout, not content. -/
def STRUCTURAL_TAGS : List String := ["ul", "ol", "table", "thead", "tbody", "tr", "blockquote"]

/-- The complete set of classes the diff renderer may emit. -/
def DIFF_CLASSES : List String :=
  ["diff-add", "diff-del", "diff-meta", "diff-block-add", "diff-block-del"]

/-! ### Nodes -/

/-- The attributes of an element, in insertion order. -/
abbrev Attrs := List (String × Text)

inductive HtmlNode
  | text (text : Text) (ignorable : Bool)
  | element (tag : String) (attrs : Attrs) (children : List HtmlNode)
  | void (tag : String)

@[elab_as_elim]
theorem HtmlNode.tree_induction {motive : HtmlNode → Prop}
    (text : ∀ t ignorable, motive (.text t ignorable))
    (element : ∀ tag attrs children, (∀ c ∈ children, motive c) →
      motive (.element tag attrs children))
    (void : ∀ tag, motive (.void tag)) (node : HtmlNode) : motive node :=
  @HtmlNode.rec motive (fun ns => ∀ n ∈ ns, motive n) text element void (by simp)
    (fun _ _ hn hns => List.forall_mem_cons.mpr ⟨hn, hns⟩) node

/-! ### Tokens -/

/-- One match of `TOKEN`, or the text in front of one. -/
inductive HtmlToken
  | text (text : Text)
  | closing (tag : String)
  | opening (tag : String) (attrs : Attrs)
  deriving DecidableEq

/-- The class `[a-z0-9]` under the flag `i`. -/
def isTagChar (c : Char) : Bool := c.isAlphanum

/-- The class `[a-z-]` under the flag `i`. -/
def isAttrChar (c : Char) : Bool := c.isAlpha || c == '-'

/-- `name.toLowerCase()` on a matched tag name. -/
def lowerName (name : Text) : String := String.ofList (name.map Char.toLower)

/-- One round of the group `\s+[a-z-]+="[^"]*"`: the pair it captures and the text behind. -/
def attrAt (s : Text) : Option ((String × Text) × Text) :=
  let s₁ := s.dropWhile isSpace
  let name := s₁.takeWhile isAttrChar
  if leading s = [] ∨ name = [] then none
  else match s₁.dropWhile isAttrChar with
    | '=' :: '"' :: s₂ =>
      match s₂.dropWhile (· != '"') with
      | '"' :: rest => some ((String.ofList name, s₂.takeWhile (· != '"')), rest)
      | _ => none
    | _ => none

/-- The repeated attribute group, with at most `fuel` rounds. -/
def attrsAt : ℕ → Text → Attrs × Text
  | 0, s => ([], s)
  | fuel + 1, s =>
    match attrAt s with
    | none => ([], s)
    | some (a, rest) => ((a :: (attrsAt fuel rest).1), (attrsAt fuel rest).2)

/-- The rest of `TOKEN` behind a `<`: the token it matches and the text behind the match. -/
def tagAt : Text → Option (HtmlToken × Text)
  | '/' :: s =>
    if s.takeWhile isTagChar = [] then none
    else match (s.dropWhile isTagChar).dropWhile isSpace with
      | '>' :: rest => some (.closing (lowerName (s.takeWhile isTagChar)), rest)
      | _ => none
  | s =>
    if s.takeWhile isTagChar = [] then none
    else
      let (attrs, s₁) := attrsAt s.length (s.dropWhile isTagChar)
      match s₁.dropWhile isSpace with
      | '>' :: rest => some (.opening (lowerName (s.takeWhile isTagChar)) attrs, rest)
      | '/' :: '>' :: rest => some (.opening (lowerName (s.takeWhile isTagChar)) attrs, rest)
      | _ => none

/-- Puts one character in front of a token stream, joining it to a leading text. -/
def consChar (c : Char) : List HtmlToken → List HtmlToken
  | .text t :: tokens => .text (c :: t) :: tokens
  | tokens => .text [c] :: tokens

/-- The `TOKEN` loop. The first `skip` characters belong to a match already taken. -/
def scan : ℕ → Text → List HtmlToken
  | _, [] => []
  | skip + 1, _ :: s => scan skip s
  | 0, c :: s =>
    if c = '<' then
      match tagAt s with
      | some (token, rest) => token :: scan (s.length - rest.length) s
      | none => consChar c (scan 0 s)
    else consChar c (scan 0 s)

def htmlTokens (html : Text) : List HtmlToken := scan 0 html

/-! ### The parser -/

inductive ParseError
  | unparsedMarkup (text : Text)
  | mismatchedClosing (tag : String)
  | mismatchedUnclosed (tag : String)
  | unsupportedTag (tag : String)
  | unsupportedAttribute (name tag : String)
  deriving DecidableEq

/-- An open element: its tag, its attributes and the children read so far. -/
structure OpenElement where
  tag : String
  attrs : Attrs
  children : List HtmlNode

/-- The parser between two tokens; the innermost open element comes first. -/
structure ParseState where
  root : List HtmlNode
  stack : List OpenElement

/-- `attrs[name] = value`: an assigned name keeps its place. -/
def setAttr (attrs : Attrs) (name : String) (value : Text) : Attrs :=
  if attrs.any (·.1 == name) then attrs.map fun a => if a.1 = name then (name, value) else a
  else attrs ++ [(name, value)]

/-- Reads the attributes of a tag, refusing names outside `allowed`. -/
def parseAttrs (tag : String) (allowed : List String) (raw : Attrs) : Except ParseError Attrs :=
  raw.foldlM (fun attrs a =>
    if a.1 ∈ allowed then .ok (setAttr attrs a.1 a.2)
    else .error (.unsupportedAttribute a.1 tag)) []

namespace ParseState

/-- `top().push(node)`. -/
def push (s : ParseState) (node : HtmlNode) : ParseState :=
  match s.stack with
  | [] => { s with root := s.root ++ [node] }
  | e :: stack => { s with stack := { e with children := e.children ++ [node] } :: stack }

/-- Whether white text at this place is layout. -/
def inStructuralContext (s : ParseState) : Bool :=
  match s.stack with
  | [] => true
  | e :: _ => decide (e.tag ∈ STRUCTURAL_TAGS)

def step (G : Grammar) (s : ParseState) : HtmlToken → Except ParseError ParseState
  | .text t =>
    if '<' ∈ t then .error (.unparsedMarkup t)
    else .ok (s.push (.text t (s.inStructuralContext && decide (trim t = []))))
  | .closing tag =>
    match s.stack with
    | e :: stack =>
      if e.tag = tag then
        .ok ({ s with stack := stack }.push (.element e.tag e.attrs e.children))
      else .error (.mismatchedClosing tag)
    | [] => .error (.mismatchedClosing tag)
  | .opening tag raw =>
    match G.lookup tag with
    | none => .error (.unsupportedTag tag)
    | some allowed =>
      if tag ∈ VOID_TAGS then .ok (s.push (.void tag))
      else do
        let attrs ← parseAttrs tag allowed raw
        return { s with stack := ⟨tag, attrs, []⟩ :: s.stack }

end ParseState

/-- Parses HTML of the grammar `G` into a node tree. -/
def parseHtml (G : Grammar) (html : Text) : Except ParseError (List HtmlNode) := do
  let s ← (htmlTokens html).foldlM (ParseState.step G) ⟨[], []⟩
  match s.stack with
  | [] => return s.root
  | e :: _ => throw (.mismatchedUnclosed e.tag)

/-- Parses sanitized HTML into a node tree. Throws on anything outside the grammar. -/
def parseSanitizedHtml (html : Text) : Except ParseError (List HtmlNode) :=
  parseHtml ALLOWED_TAGS html

/-! ### Writing trees out -/

/-- The attributes of a tag as written. -/
def attrString (attrs : Attrs) : Text :=
  attrs.flatMap fun a => ' ' :: a.1.toList ++ '=' :: '"' :: a.2 ++ ['"']

mutual

def serializeNode : HtmlNode → Text
  | .text t _ => t
  | .void tag => '<' :: tag.toList ++ ['>']
  | .element tag attrs children =>
    '<' :: tag.toList ++ attrString attrs ++ '>' :: serializeNodes children ++
      '<' :: '/' :: tag.toList ++ ['>']

def serializeNodes : List HtmlNode → Text
  | [] => []
  | n :: ns => serializeNode n ++ serializeNodes ns

end

mutual

/-- Concatenated text content of a node, used for pairing and stats. -/
def nodeText : HtmlNode → Text
  | .text t _ => t
  | .void tag => if tag = "br" then ['\n'] else []
  | .element _ _ children => nodesText children

/-- Concatenated text content of a node list. -/
def nodesText : List HtmlNode → Text
  | [] => []
  | n :: ns => nodeText n ++ nodesText ns

end

theorem serializeNodes_append (ns ms : List HtmlNode) :
    serializeNodes (ns ++ ms) = serializeNodes ns ++ serializeNodes ms := by
  induction ns with
  | nil => rfl
  | cons n ns ih => simp [serializeNodes, ih]

@[simp] theorem serializeNodes_singleton (n : HtmlNode) : serializeNodes [n] = serializeNode n := by
  simp [serializeNodes]

end DrepTalk
