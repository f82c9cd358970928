import DrepTalk.Auth.Signatures
import DrepTalk.Cardano.NativeScript
import DrepTalk.DrepLink.Assign
import DrepTalk.Library.FoldM

/-!
# The resolver of drep.link

`src/lib/drepLink/resolve.ts` decides what a request is (`routeFor`): the landing page, a lookup
typed there, the crawlers' file, a DRep id, a handle, or else a search. A handle is reached in two
ways. **As a path**, its one segment is decoded and folded to lower case. **As typed text**, it is
cut down by `normalizeHandleInput`, and the answer is a redirect to the path.

What may become a handle is decided elsewhere: by `validateHandle` for a claim and for what is
assigned automatically, and by the seed, whose overrides `planSeed` takes as they come. The seed
script checks the plan again before anything of it is written (`recheckPlan`).

Every such handle is routed to itself (`routeFor_handle`, `routeFor_typed`). The bech32 package is a
parameter, of which only one thing is used: it splits its input at the last `1`.
-/

namespace DrepTalk

/-! ### Components of a URL -/

/-- The characters of strictly valid UTF-8. -/
def utf8Decode (bytes : Bytes) : Option Text :=
  (ByteArray.mk bytes.toArray).utf8Decode?.map Array.toList

/-- `decodeURIComponent`, where it does not throw: each run of escapes is UTF-8. `run` holds the
bytes of the one that is open. -/
def decodeEscapes : Bytes → Text → Option Text
  | run, [] => utf8Decode run
  | run, c :: rest =>
    if c = '%' then
      match rest with
      | a :: b :: rest =>
        match hexDigit a, hexDigit b with
        | some high, some low => decodeEscapes (run ++ [UInt8.ofNat (16 * high + low)]) rest
        | _, _ => none
      | _ => none
    else
      (utf8Decode run).bind fun front => (decodeEscapes [] rest).map fun back => front ++ c :: back

def decodeURIComponent (t : Text) : Option Text := decodeEscapes [] t

/-- The characters that `encodeURIComponent` leaves alone. -/
def isUnreserved (c : Char) : Bool :=
  c.isAlphanum || "-_.!~*'()".toList.contains c

def encodeURIComponent (t : Text) : Text :=
  t.flatMap fun c =>
    if isUnreserved c then [c]
    else (utf8Encode [c]).flatMap fun b => '%' :: (bytesToHex [b]).map Char.toUpper

/-! ### Handles from outside -/

/-- Reserved and grandfathered handles, which are valid by assignment, are routable. -/
def isRoutableHandle (raw : Text) : Bool :=
  decide (raw.length ≤ HANDLE_MAX) && hasShape raw && !inIdNamespace raw

/-- `t.replace(/^start/, '')`. -/
def dropStart (start t : Text) : Text := if start.isPrefixOf t then t.drop start.length else t

/-- `replace(/^https?:\/\//, '')`. -/
def dropScheme (t : Text) : Text :=
  if "https://".toList.isPrefixOf t then t.drop 8 else dropStart "http://".toList t

def normalizeHandleInput (lc : Cardano.LowerCase) (raw : Text) : Text :=
  (dropStart "drep.link/".toList (dropScheme (lc.toLowerCase (JsText.trim raw)))).rdropWhile
    (· == '/')

/-! ### DRep ids -/

/-- `decodeBech32` and `encodeBech32`, over the package `bech32`. -/
structure Bech32Codec where
  decode : Text → Option (Text × Bytes)
  encode : Text → Bytes → Text
  /-- What it decodes, in lower case, is split at the last `1`. -/
  split : ∀ s start data, decode s = some (start, data) →
    ∃ rest, s.map Char.toLower = start ++ '1' :: rest ∧ '1' ∉ rest

section

variable (bech32 : Bech32Codec)

def drepIdFromKeyHash (keyHash : Bytes) : Text :=
  bech32.encode "drep".toList (DREP_KEY_HEADER :: keyHash)

def cip105ToCip129 (drepVkh : Text) : Option Text :=
  (bech32.decode drepVkh).map fun decoded => drepIdFromKeyHash bech32 decoded.2

def asDrepId (segment : Text) : Option Text :=
  (bech32.decode segment).bind fun (start, data) =>
    if start = "drep".toList ∧ data.length = 29 ∧
        (data.head? = some DREP_KEY_HEADER ∨ data.head? = some DREP_SCRIPT_HEADER) then
      some segment
    else if start = "drep_vkh".toList ∧ data.length = 28 then cip105ToCip129 bech32 segment
    else none

/-- `parseDrepId(drepId) !== null`. -/
def parsesAsDrepId (drepId : Text) : Bool :=
  match bech32.decode drepId with
  | some (_, data) =>
    if data.length = 29 then
      decide (data.head? = some DREP_KEY_HEADER ∨ data.head? = some DREP_SCRIPT_HEADER)
    else decide (data.length = 28)
  | none => false

end

/-! ### Routes -/

inductive Route
  | landing
  | robots
  | lookup (location : Text)
  | id (drepId : Text)
  | handle (handle : Text)
  | search (q : Text)
  deriving DecidableEq

def SEARCH_MAX : ℕ := 64

/-- What is read of a URL: its path, and the value of `h` in its query. -/
structure ResolverUrl where
  pathname : Text
  h : Option Text

def pathSegments (pathname : Text) : List Text :=
  ((pathname.splitOn '/').filter fun s => !s.isEmpty).map fun s => (decodeURIComponent s).getD s

def searchRoute (segments : List Text) : Route :=
  .search (([' '].intercalate segments).take SEARCH_MAX)

def routeFor (lc : Cardano.LowerCase) (bech32 : Bech32Codec) (url : ResolverUrl) : Route :=
  match pathSegments url.pathname with
  | [] =>
    let h := normalizeHandleInput lc (url.h.getD [])
    if h.isEmpty then .landing else .lookup ('/' :: encodeURIComponent h)
  | [segment] =>
    if segment = "robots.txt".toList then .robots
    else
      let raw := lc.toLowerCase segment
      let id := if "drep".toList.isPrefixOf raw then asDrepId bech32 raw else none
      match id.filter fun id => !id.isEmpty with
      | some id => .id id
      | none => if isRoutableHandle raw then .handle raw else searchRoute [segment]
  | segments => searchRoute segments

/-! ### The seed script -/

def ClaimError.name : ClaimError → String
  | shape => "shape"
  | length => "length"
  | id_namespace => "id_namespace"
  | reserved => "reserved"
  | unchanged => "unchanged"
  | cooldown => "cooldown"
  | previous_pending => "previous_pending"

section

variable (bech32 : Bech32Codec)

def isDrepId (id : String) : Bool :=
  "drep1".toList.isPrefixOf id.toList && parsesAsDrepId bech32 id.toList

/-- Overrides may take reserved names. -/
def recheckAssignment (a : SeedAssignment) : Except String Unit :=
  if isDrepId bech32 a.drepId then
    match validateHandle a.handle (some a.drepId) with
    | none => .ok ()
    | some reason =>
      if a.source = .manual ∧ reason = .reserved then .ok ()
      else .error s!"bad handle {String.ofList a.handle}: {reason.name}"
  else .error s!"bad drep id {a.drepId}"

def recheckDecided (id : String) : Except String Unit :=
  if isDrepId bech32 id then .ok () else .error s!"bad drep id {id}"

/-- What `scripts/drep-link-seed.ts` asks of a plan. -/
def recheckPlan (plan : SeedPlan) : Except String Unit := do
  plan.assigned.forM (recheckAssignment bech32)
  plan.decided.forM (recheckDecided bech32)

end

/-! ### Letters of a handle -/

/-- A character that may stand in a handle once it is in lower case. -/
def IsNameChar (c : Char) : Prop := isHandleChar c.toLower = true ∨ c.toLower = '-'

variable {c : Char}

theorem isHandleChar_iff : isHandleChar c = true ↔
    97 ≤ c.toNat ∧ c.toNat ≤ 122 ∨ 48 ≤ c.toNat ∧ c.toNat ≤ 57 := by
  simp only [isHandleChar, Bool.or_eq_true, Bool.and_eq_true, decide_eq_true_eq, Char.le_def,
    UInt32.le_iff_toNat_le]
  rfl

theorem toLower_eq_self (h : c.toNat < 65 ∨ 90 < c.toNat) : c.toLower = c := by
  refine dif_neg fun hupper => ?_
  have hlow : 65 ≤ c.toNat := UInt32.le_iff_toNat_le.mp hupper.1
  have hhigh : c.toNat ≤ 90 := UInt32.le_iff_toNat_le.mp hupper.2
  omega

theorem IsNameChar.toNat (h : IsNameChar c) :
    c.toNat = 45 ∨ 48 ≤ c.toNat ∧ c.toNat ≤ 57 ∨ 65 ≤ c.toNat ∧ c.toNat ≤ 90 ∨
      97 ≤ c.toNat ∧ c.toNat ≤ 122 := by
  by_cases hupper : c.toNat < 65 ∨ 90 < c.toNat
  · rw [IsNameChar, toLower_eq_self hupper, isHandleChar_iff] at h
    rcases h with h | rfl
    · omega
    · exact .inl rfl
  · omega

theorem mem_of_mem_intercalate {sep : Char} :
    ∀ {parts : List Text}, c ∈ [sep].intercalate parts → c = sep ∨ ∃ part ∈ parts, c ∈ part
  | [], h => absurd h List.not_mem_nil
  | [part], h => .inr ⟨part, List.mem_singleton_self part, by simpa using h⟩
  | part :: next :: rest, h => by
    rw [List.intercalate_cons_cons, List.mem_append, List.mem_append] at h
    rcases h with (h | h) | h
    · exact .inr ⟨part, List.mem_cons_self, h⟩
    · exact .inl (List.mem_singleton.mp h)
    · rcases mem_of_mem_intercalate h with heq | ⟨found, hfound, hc⟩
      · exact .inl heq
      · exact .inr ⟨found, List.mem_cons_of_mem _ hfound, hc⟩

theorem handleChar_of_hasShape {h : Text} (hshape : hasShape h = true) (hc : c ∈ h) :
    isHandleChar c = true ∨ c = '-' := by
  have hwhole : ['-'].intercalate (h.splitOn '-') = h := List.intercalate_splitOn '-'
  rw [← hwhole] at hc
  rcases mem_of_mem_intercalate hc with heq | ⟨part, hpart, hmem⟩
  · exact .inr heq
  · have hword := List.all_eq_true.mp hshape part hpart
    rw [Bool.and_eq_true, List.all_eq_true] at hword
    exact .inl (hword.2 c hmem)

theorem ne_nil_of_hasShape {h : Text} (hshape : hasShape h = true) : h ≠ [] := by
  rintro rfl
  cases hshape

/-- What is typed for a handle, in any mixture of letter cases. -/
structure IsTyping (t h : Text) : Prop where
  lower : t.map Char.toLower = h
  routable : isRoutableHandle h = true

section

variable {t h : Text}

theorem IsTyping.shape (ht : IsTyping t h) : hasShape h = true := by
  have hroutable := ht.routable
  rw [isRoutableHandle, Bool.and_eq_true, Bool.and_eq_true] at hroutable
  exact hroutable.1.2

theorem IsTyping.not_id (ht : IsTyping t h) : inIdNamespace h = false := by
  have hroutable := ht.routable
  rw [isRoutableHandle, Bool.and_eq_true, Bool.not_eq_true'] at hroutable
  exact hroutable.2

theorem IsTyping.nameChar (ht : IsTyping t h) (hc : c ∈ t) : IsNameChar c :=
  handleChar_of_hasShape ht.shape (ht.lower ▸ List.mem_map_of_mem hc)

theorem IsTyping.ne_nil (ht : IsTyping t h) : t ≠ [] := by
  rintro rfl
  exact ne_nil_of_hasShape ht.shape ht.lower.symm

theorem IsTyping.not_mem (ht : IsTyping t h) (hc : ¬IsNameChar c) : c ∉ t :=
  fun hmem => hc (ht.nameChar hmem)

theorem IsTyping.toLowerCase (ht : IsTyping t h) (lc : Cardano.LowerCase) :
    lc.toLowerCase t = h := by
  rw [lc.ascii t fun c hc => ?_, ht.lower]
  have := (ht.nameChar hc).toNat
  omega

theorem IsTyping.self (ht : IsTyping t h) : IsTyping h h := by
  refine ⟨?_, ht.routable⟩
  rw [← ht.lower, List.map_map]
  exact List.map_congr_left fun c _ => Cardano.toLower_toLower c

/-! ### The path -/

theorem utf8Decode_nil : utf8Decode [] = some [] := by
  rw [utf8Decode]
  exact congrArg (Option.map Array.toList) ByteArray.utf8Decode?_empty

theorem decodeEscapes_cons (hc : c ≠ '%') (run : Bytes) (rest : Text) :
    decodeEscapes run (c :: rest) =
      (utf8Decode run).bind fun front => (decodeEscapes [] rest).map fun back =>
        front ++ c :: back := by
  rcases rest with _ | ⟨a, _ | ⟨b, rest⟩⟩
  all_goals simp [decodeEscapes, hc]

theorem decodeURIComponent_eq_self (hnone : '%' ∉ t) : decodeURIComponent t = some t := by
  rw [decodeURIComponent]
  induction t with
  | nil => exact utf8Decode_nil
  | cons c rest ih =>
    obtain ⟨hc, hrest⟩ := not_or.mp (mt List.mem_cons.mpr hnone)
    rw [decodeEscapes_cons (Ne.symm hc), utf8Decode_nil, ih hrest]
    rfl

theorem encodeURIComponent_eq_self (hplain : ∀ c ∈ t, isUnreserved c = true) :
    encodeURIComponent t = t := by
  rw [encodeURIComponent]
  induction t with
  | nil => rfl
  | cons c rest ih =>
    rw [List.flatMap_cons, if_pos (hplain c List.mem_cons_self),
      ih fun d hd => hplain d (List.mem_cons_of_mem _ hd)]
    rfl

theorem pathSegments_slash (rest : Text) : pathSegments ('/' :: rest) = pathSegments rest := by
  have hsplit : ('/' :: rest).splitOn '/' = [] :: rest.splitOn '/' :=
    List.splitOn_append_cons_self_of_not_mem List.not_mem_nil rest
  rw [pathSegments, hsplit]
  rfl

theorem pathSegments_slashes (k : ℕ) (rest : Text) :
    pathSegments (List.replicate k '/' ++ rest) = pathSegments rest := by
  induction k with
  | zero => rfl
  | succ k ih => rw [List.replicate_succ, List.cons_append, pathSegments_slash, ih]

theorem pathSegments_replicate (k : ℕ) : pathSegments (List.replicate k '/') = [] := by
  rw [← List.append_nil (List.replicate k '/'), pathSegments_slashes]
  rfl

theorem pathSegments_single (before after : ℕ) (hslash : '/' ∉ t) (hescape : '%' ∉ t)
    (hne : t ≠ []) :
    pathSegments (List.replicate before '/' ++ t ++ List.replicate after '/') = [t] := by
  rw [List.append_assoc, pathSegments_slashes]
  have hdecoded : (decodeURIComponent t).getD t = t := by
    rw [decodeURIComponent_eq_self hescape, Option.getD_some]
  have hfilter : ∀ rest : List Text, (t :: rest).filter (fun s => !s.isEmpty) =
      t :: rest.filter fun s => !s.isEmpty :=
    fun _ => List.filter_cons_of_pos (by simpa using hne)
  rcases after with _ | after
  · rw [List.replicate_zero, List.append_nil, pathSegments, List.splitOn_eq_singleton hslash,
      hfilter, List.filter_nil, List.map_singleton, hdecoded]
  · rw [List.replicate_succ, pathSegments, List.splitOn_append_cons_self_of_not_mem hslash,
      hfilter, List.map_cons, hdecoded]
    exact congrArg (t :: ·) (pathSegments_replicate after)

theorem asDrepId_eq_none (bech32 : Bech32Codec) (ht : IsTyping t h) : asDrepId bech32 h = none := by
  rcases hdecode : bech32.decode h with _ | ⟨start, data⟩
  · rw [asDrepId, hdecode]
    rfl
  · obtain ⟨rest, hsplit, -⟩ := bech32.split h start data hdecode
    rw [ht.self.lower] at hsplit
    have hdrep : start ≠ "drep".toList := by
      rintro rfl
      have hid : inIdNamespace h = true := by
        rw [hsplit]
        rfl
      rw [ht.not_id] at hid
      cases hid
    have hvkh : start ≠ "drep_vkh".toList := by
      rintro rfl
      refine ht.self.not_mem (c := '_') ?_ ?_
      · rw [IsNameChar]
        decide
      · rw [hsplit]
        simp
    rw [asDrepId, hdecode, Option.bind_some]
    dsimp only
    rw [if_neg fun hpos => hdrep hpos.1, if_neg fun hpos => hvkh hpos.1]

variable (lc : Cardano.LowerCase)

/-- **A path** that is a handle in any casing, with slashes around it, is routed to the handle. -/
theorem routeFor_handle (bech32 : Bech32Codec) (ht : IsTyping t h) (before after : ℕ)
    (typed : Option Text) :
    routeFor lc bech32 ⟨List.replicate before '/' ++ t ++ List.replicate after '/', typed⟩ =
      .handle h := by
  have hslash : '/' ∉ t := ht.not_mem (by rw [IsNameChar]; decide)
  have hescape : '%' ∉ t := ht.not_mem (by rw [IsNameChar]; decide)
  have hrobots : t ≠ "robots.txt".toList := by
    rintro rfl
    exact ht.not_mem (c := '.') (by rw [IsNameChar]; decide) (by decide)
  rw [routeFor, pathSegments_single before after hslash hescape ht.ne_nil]
  dsimp only
  rw [if_neg hrobots, ht.toLowerCase lc, asDrepId_eq_none bech32 ht, ite_self, if_pos ht.routable]
  rfl

/-! ### The typed text -/

theorem IsTyping.isSpace (ht : IsTyping t h) (hc : c ∈ t) : JsText.isSpace c = false := by
  have := (ht.nameChar hc).toNat
  simp only [JsText.isSpace, Bool.or_eq_false_iff, Bool.and_eq_false_iff, decide_eq_false_iff_not,
    beq_eq_false_iff_ne]
  omega

variable {lead trail link start rest : Text}

theorem trim_append {core : Text} (hlead : ∀ c ∈ lead, JsText.isSpace c = true)
    (hcore : ∀ c ∈ core, JsText.isSpace c = false) (htrail : ∀ c ∈ trail, JsText.isSpace c = true) :
    JsText.trim (lead ++ core ++ trail) = core := by
  rw [JsText.trim, List.append_assoc, List.dropWhile_append_of_pos hlead]
  rcases core with _ | ⟨c, rest⟩
  · rw [List.nil_append, List.dropWhile_eq_nil_iff.mpr htrail]
    rfl
  · rw [List.cons_append, List.dropWhile_cons_of_neg (by simp [hcore c List.mem_cons_self]),
      ← List.cons_append, List.rdropWhile, List.reverse_append,
      List.dropWhile_append_of_pos fun d hd => htrail d (List.mem_reverse.mp hd)]
    refine (List.rdropWhile_eq_self_iff (p := JsText.isSpace)).mpr fun hne => ?_
    simp [hcore _ (List.getLast_mem hne)]

/-- What a pasted link may start with, in lower case. -/
def linkStarts : List Text :=
  [[], "drep.link/".toList, "http://drep.link/".toList, "https://drep.link/".toList]

theorem linkStarts_plain (hlink : link ∈ linkStarts) (hc : c ∈ link) :
    c.toNat < 128 ∧ JsText.isSpace c = false := by
  have hall : ∀ link ∈ linkStarts,
      link.all (fun c => decide (c.toNat < 128 ∧ JsText.isSpace c = false)) = true := by decide
  exact of_decide_eq_true (List.all_eq_true.mp (hall link hlink) c hc)

theorem plain_of_toLower (h : c.toLower.toNat < 128 ∧ JsText.isSpace c.toLower = false) :
    c.toNat < 128 ∧ JsText.isSpace c = false := by
  by_cases hupper : c.toNat < 65 ∨ 90 < c.toNat
  · rw [toLower_eq_self hupper] at h
    exact h
  · refine ⟨by omega, ?_⟩
    simp only [JsText.isSpace, Bool.or_eq_false_iff, Bool.and_eq_false_iff,
      decide_eq_false_iff_not, beq_eq_false_iff_ne]
    omega

theorem dropStart_append (start rest : Text) : dropStart start (start ++ rest) = rest := by
  rw [dropStart, if_pos (List.isPrefixOf_iff_prefix.mpr (List.prefix_append start rest)),
    List.drop_left]

theorem not_isPrefixOf (hc : c ∈ start) (hnot : c ∉ rest) : ¬start.isPrefixOf rest = true :=
  fun h => hnot ((List.isPrefixOf_iff_prefix.mp h).mem hc)

theorem dropStart_of_not_mem (hc : c ∈ start) (hnot : c ∉ rest) : dropStart start rest = rest := if_neg (not_isPrefixOf hc hnot)

theorem dropScheme_of_not_mem (hnot : ':' ∉ rest) : dropScheme rest = rest := by
  rw [dropScheme, if_neg (not_isPrefixOf (c := ':') (by decide) hnot),
    dropStart_of_not_mem (c := ':') (by decide) hnot]

theorem dropLink (hlink : link ∈ linkStarts) (hcolon : ':' ∉ rest) (hpoint : '.' ∉ rest) :
    dropStart "drep.link/".toList (dropScheme (link ++ rest)) = rest := by
  have hhost : ':' ∉ "drep.link/".toList ++ rest := by
    rw [List.mem_append, not_or]
    exact ⟨by decide, hcolon⟩
  simp only [linkStarts, List.mem_cons, List.not_mem_nil, or_false] at hlink
  rcases hlink with rfl | rfl | rfl | rfl
  · rw [List.nil_append, dropScheme_of_not_mem hcolon,
      dropStart_of_not_mem (c := '.') (by decide) hpoint]
  · rw [dropScheme_of_not_mem hhost, dropStart_append]
  · have hscheme : dropScheme ("http://drep.link/".toList ++ rest) =
        "drep.link/".toList ++ rest := dropStart_append "http://".toList _
    rw [hscheme, dropStart_append]
  · have hscheme : dropScheme ("https://drep.link/".toList ++ rest) =
        "drep.link/".toList ++ rest := rfl
    rw [hscheme, dropStart_append]

theorem rdropWhile_slashes (hslash : '/' ∉ h) (n : ℕ) :
    (h ++ List.replicate n '/').rdropWhile (· == '/') = h := by
  induction n with
  | zero =>
    rw [List.replicate_zero, List.append_nil, List.rdropWhile_eq_self_iff]
    intro hne heq
    exact hslash (beq_iff_eq.mp heq ▸ List.getLast_mem hne)
  | succ n ih =>
    rw [List.replicate_succ', ← List.append_assoc, List.rdropWhile_concat_pos _ _ _ rfl, ih]

/-- **Typed text** is cut down to the handle, whatever surrounds it. -/
theorem normalizeHandleInput_typed (ht : IsTyping t h) (hlead : ∀ c ∈ lead, JsText.isSpace c = true)
    (htrail : ∀ c ∈ trail, JsText.isSpace c = true) (hlink : link.map Char.toLower ∈ linkStarts)
    (after : ℕ) :
    normalizeHandleInput lc (lead ++ (link ++ t ++ List.replicate after '/') ++ trail) = h := by
  have hnot : ∀ c : Char, ¬IsNameChar c → c ≠ '/' → c ∉ h ++ List.replicate after '/' := by
    intro c hc hslash hmem
    rcases List.mem_append.mp hmem with hmem | hmem
    · exact ht.self.not_mem hc hmem
    · exact hslash (List.eq_of_mem_replicate hmem)
  have hplain : ∀ c ∈ link ++ t ++ List.replicate after '/',
      c.toNat < 128 ∧ JsText.isSpace c = false := by
    intro c hc
    rcases List.mem_append.mp hc with hc | hc
    · rcases List.mem_append.mp hc with hc | hc
      · exact plain_of_toLower (linkStarts_plain hlink (List.mem_map_of_mem hc))
      · have := (ht.nameChar hc).toNat
        exact ⟨by omega, ht.isSpace hc⟩
    · rw [List.eq_of_mem_replicate hc]
      decide
  have hlower : (link ++ t ++ List.replicate after '/').map Char.toLower =
      link.map Char.toLower ++ (h ++ List.replicate after '/') := by
    rw [List.map_append, List.map_append, ht.lower, List.map_replicate, List.append_assoc]
    rfl
  rw [normalizeHandleInput, trim_append hlead (fun c hc => (hplain c hc).2) htrail,
    lc.ascii _ fun c hc => (hplain c hc).1, hlower,
    dropLink hlink (hnot ':' (by rw [IsNameChar]; decide) (by decide))
      (hnot '.' (by rw [IsNameChar]; decide) (by decide)),
    rdropWhile_slashes (ht.self.not_mem (by rw [IsNameChar]; decide))]

theorem encodeURIComponent_handle (ht : IsTyping t h) : encodeURIComponent h = h := by
  refine encodeURIComponent_eq_self fun c hc => ?_
  rcases handleChar_of_hasShape ht.shape hc with hchar | rfl
  · rw [isHandleChar_iff] at hchar
    rw [isUnreserved, Bool.or_eq_true]
    refine .inl ?_
    delta Char.isAlphanum Char.isAlpha Char.isUpper Char.isLower Char.isDigit
    simp only [Bool.or_eq_true, Bool.and_eq_true, decide_eq_true_eq, UInt32.le_iff_toNat_le]
    rcases hchar with hchar | hchar
    · exact .inl (.inr hchar)
    · exact .inr hchar
  · rfl

theorem routeFor_typed (bech32 : Bech32Codec) (ht : IsTyping t h)
    (hlead : ∀ c ∈ lead, JsText.isSpace c = true) (htrail : ∀ c ∈ trail, JsText.isSpace c = true)
    (hlink : link.map Char.toLower ∈ linkStarts) (slashes after : ℕ) :
    routeFor lc bech32 ⟨List.replicate slashes '/',
      some (lead ++ (link ++ t ++ List.replicate after '/') ++ trail)⟩ = .lookup ('/' :: h) := by
  rw [routeFor, pathSegments_replicate]
  dsimp only
  rw [Option.getD_some, normalizeHandleInput_typed lc ht hlead htrail hlink after,
    encodeURIComponent_handle ht]
  exact if_neg fun hempty => ht.self.ne_nil (List.isEmpty_iff.mp hempty)

end

/-! ### Who may have a handle -/

theorem isRoutableHandle_of_valid {handle : Text} {drepId : Option String}
    (h : validateHandle handle drepId = none ∨ validateHandle handle drepId = some .reserved) :
    isRoutableHandle handle = true := by
  rw [validateHandle] at h
  rw [isRoutableHandle]
  split_ifs at h with hshape hshort hlong hid hreserved
  all_goals try simp at h
  all_goals simp_all

theorem valid_of_recheckPlan {bech32 : Bech32Codec} {plan : SeedPlan}
    (hplan : recheckPlan bech32 plan = .ok ()) {a : SeedAssignment} (ha : a ∈ plan.assigned) :
    validateHandle a.handle (some a.drepId) = none ∨
      validateHandle a.handle (some a.drepId) = some .reserved := by
  have hall : plan.assigned.forM (recheckAssignment bech32) = .ok () := by
    rw [recheckPlan] at hplan
    rcases hassigned : plan.assigned.forM (recheckAssignment bech32) with error | -
    · rw [hassigned] at hplan
      cases hplan
    · rfl
  have hchecked := forM_ok hall a ha
  rw [recheckAssignment] at hchecked
  split_ifs at hchecked with hid
  rcases hvalid : validateHandle a.handle (some a.drepId) with _ | reason
  · exact .inl rfl
  · rw [hvalid] at hchecked
    dsimp only at hchecked
    split_ifs at hchecked with hmanual
    exact .inr (congrArg some hmanual.2)

/-- A handle that a claim or an assignment may give, or that the seed writes. -/
inductive IsGiven (bech32 : Bech32Codec) (folding : TextFolding) : Text → Prop
  | valid {handle : Text} {drepId : Option String} (hvalid : validateHandle handle drepId = none) :
    IsGiven bech32 folding handle
  | seeded {rows : List HandleCandidate} {baseline : Baseline} {overrides : SeedOverrides}
    {plan : SeedPlan} {a : SeedAssignment}
    (hplan : planSeed folding rows baseline overrides = .ok plan)
    (hcheck : recheckPlan bech32 plan = .ok ()) (ha : a ∈ plan.assigned) :
    IsGiven bech32 folding a.handle

theorem IsGiven.routable {bech32 : Bech32Codec} {folding : TextFolding} {h : Text}
    (hgiven : IsGiven bech32 folding h) : isRoutableHandle h = true := by
  cases hgiven with
  | valid hvalid => exact isRoutableHandle_of_valid (.inl hvalid)
  | seeded _ hcheck ha => exact isRoutableHandle_of_valid (valid_of_recheckPlan hcheck ha)

/-- **The resolver reaches every handle**, in any casing, as a path and as text typed in. -/
theorem resolver_reaches (lc : Cardano.LowerCase) (bech32 : Bech32Codec) (folding : TextFolding)
    {h t : Text} (hgiven : IsGiven bech32 folding h) (hcase : t.map Char.toLower = h) :
    (∀ (before after : ℕ) (typed : Option Text),
      routeFor lc bech32 ⟨List.replicate before '/' ++ t ++ List.replicate after '/', typed⟩ =
        .handle h) ∧
    ∀ (slashes after : ℕ) (lead link trail : Text), (∀ c ∈ lead, JsText.isSpace c = true) →
      (∀ c ∈ trail, JsText.isSpace c = true) → link.map Char.toLower ∈ linkStarts →
      routeFor lc bech32 ⟨List.replicate slashes '/',
        some (lead ++ (link ++ t ++ List.replicate after '/') ++ trail)⟩ = .lookup ('/' :: h) ∧
      ∀ typed : Option Text, routeFor lc bech32 ⟨'/' :: h, typed⟩ = .handle h := by
  have ht : IsTyping t h := ⟨hcase, hgiven.routable⟩
  refine ⟨routeFor_handle lc bech32 ht, fun slashes after lead link trail hlead htrail hlink =>
    ⟨routeFor_typed lc bech32 ht hlead htrail hlink slashes after, fun typed => ?_⟩⟩
  have hpath := routeFor_handle lc bech32 ht.self 1 0 typed
  rw [List.replicate_zero, List.append_nil] at hpath
  exact hpath

/-- A package that decodes nothing, as the real one does for texts without a `1`. -/
def plainBech32 : Bech32Codec where
  decode _ := none
  encode start _ := start
  split _ _ _ h := by cases h

/-- No folding: the names are plain already. -/
def plainFolding : TextFolding := ⟨id, id⟩

theorem resolver_reaches_collective :
    routeFor Cardano.asciiLower plainBech32 ⟨"/DRep-Collective/".toList, none⟩ =
      .handle "drep-collective".toList ∧
    routeFor Cardano.asciiLower plainBech32
      ⟨"/".toList, some " https://DREP.link/Drep-Collective/ ".toList⟩ =
      .lookup "/drep-collective".toList := by
  have hgiven : IsGiven plainBech32 plainFolding "drep-collective".toList :=
    @IsGiven.valid _ _ _ none (by decide)
  exact ⟨(resolver_reaches Cardano.asciiLower plainBech32 plainFolding
      (t := "DRep-Collective".toList) hgiven (by decide)).1 1 1 none,
    ((resolver_reaches Cardano.asciiLower plainBech32 plainFolding
      (t := "Drep-Collective".toList) hgiven (by decide)).2 1 1 [' '] "https://DREP.link/".toList
        [' '] (List.forall_mem_singleton.mpr rfl) (List.forall_mem_singleton.mpr rfl)
        (by decide)).1⟩

/-- An override is assigned as it comes: a handle with an underscore leads to a search. -/
theorem planSeed_unroutable :
    ¬∀ (bech32 : Bech32Codec) (folding : TextFolding) (rows : List HandleCandidate)
        (baseline : Baseline) (overrides : SeedOverrides) (plan : SeedPlan),
      planSeed folding rows baseline overrides = .ok plan → ∀ a ∈ plan.assigned,
        routeFor Cardano.asciiLower bech32 ⟨'/' :: a.handle, none⟩ = .handle a.handle := by
  intro h
  have hroute := h plainBech32 plainFolding [] ⟨[]⟩
    ⟨[("ada_mate".toList, "drep1yftc8zs7gjcj4a9nxzplz4wg6cwweya0kxp8adnw59vsyrqvrysud")], [],
      List.nodup_singleton _⟩ _ rfl _ List.mem_cons_self
  have hsegments : pathSegments ('/' :: "ada_mate".toList) = ["ada_mate".toList] :=
    pathSegments_single (t := "ada_mate".toList) 1 0 (by decide) (by decide) (by decide)
  rw [routeFor, hsegments] at hroute
  cases hroute

end DrepTalk
