import DrepTalk.Forum.HtmlNodes

/-!
# Scanning written markup

The token loop of the parser run on markup that was written from tokens: it finds every tag
again, and neighbouring texts come back joined (`htmlTokens_print`). In the other direction,
whatever text is scanned, an attribute value of a found tag contains no quote
(`unquoted_of_mem_scan`).
-/

namespace DrepTalk

open JsText

namespace HtmlToken

def print : HtmlToken → Text
  | .text t => t
  | .closing tag => '<' :: '/' :: tag.toList ++ ['>']
  | .opening tag attrs => '<' :: tag.toList ++ attrString attrs ++ ['>']

end HtmlToken

/-- A tag name as the parser stores it: nonempty, in the name class and in lower case. -/
def IsTagName (tag : String) : Prop :=
  tag.toList ≠ [] ∧ ∀ c ∈ tag.toList, isTagChar c = true ∧ c.toLower = c

instance (tag : String) : Decidable (IsTagName tag) :=
  decidable_of_iff (tag.toList.isEmpty = false ∧
    (tag.toList.all fun c => isTagChar c && c.toLower == c) = true) (by simp [IsTagName])

/-- An attribute name the pattern matches. -/
def IsAttrName (name : String) : Prop :=
  name.toList ≠ [] ∧ ∀ c ∈ name.toList, isAttrChar c = true

instance (name : String) : Decidable (IsAttrName name) :=
  decidable_of_iff (name.toList.isEmpty = false ∧ name.toList.all isAttrChar = true)
    (by simp [IsAttrName])

/-- A token the scanner can read back. -/
def HtmlToken.Printable : HtmlToken → Prop
  | .text t => '<' ∉ t
  | .closing tag => IsTagName tag
  | .opening tag attrs => IsTagName tag ∧ ∀ a ∈ attrs, IsAttrName a.1 ∧ '"' ∉ a.2

/-! ### Matching one tag -/

variable {p : Char → Bool} {l r s rest : Text} {d c : Char} {a : String × Text} {tag : String}
  {token : HtmlToken} {tokens : List HtmlToken}

private theorem takeWhile_stop (hl : ∀ c ∈ l, p c = true) (hd : p d = false) :
    (l ++ d :: r).takeWhile p = l := by
  rw [List.takeWhile_append_of_pos hl, List.takeWhile_cons_of_neg (by simp [hd]),
    List.append_nil]

private theorem dropWhile_stop (hl : ∀ c ∈ l, p c = true) (hd : p d = false) :
    (l ++ d :: r).dropWhile p = d :: r := by
  rw [List.dropWhile_append_of_pos hl, List.dropWhile_cons_of_neg (by simp [hd])]

private theorem isSpace_eq_false_of_isAttrChar (h : isAttrChar c = true) : isSpace c = false := by
  have hbounds : 45 ≤ c.toNat ∧ c.toNat ≤ 122 := by
    rw [isAttrChar, Bool.or_eq_true, beq_iff_eq] at h
    rcases h with h | rfl
    · change (decide (c.val ≥ 65 ∧ c.val ≤ 90) ||
        decide (c.val ≥ 97) && decide (c.val ≤ 122)) = true at h
      simp only [Bool.or_eq_true, Bool.and_eq_true, decide_eq_true_eq, ge_iff_le,
        UInt32.le_iff_toNat_le] at h
      change (65 ≤ c.toNat ∧ c.toNat ≤ 90) ∨ (97 ≤ c.toNat ∧ c.toNat ≤ 122) at h
      omega
    · decide
  simp only [isSpace, Bool.or_eq_false_iff, Bool.and_eq_false_iff, decide_eq_false_iff_not,
    beq_eq_false_iff_ne]
  omega

theorem attrAt_print (hn : IsAttrName a.1) (hv : '"' ∉ a.2) (rest : Text) :
    attrAt (' ' :: a.1.toList ++ '=' :: '"' :: a.2 ++ '"' :: rest) = some (a, rest) := by
  obtain ⟨name, value⟩ := a
  obtain ⟨hne, hname⟩ := hn
  have hvalue : ∀ c ∈ value, (c != '"') = true := fun c hc => by
    simp only [bne_iff_ne, ne_eq]
    rintro rfl
    exact hv hc
  have hshape : ' ' :: name.toList ++ '=' :: '"' :: value ++ '"' :: rest
      = ' ' :: (name.toList ++ '=' :: '"' :: (value ++ '"' :: rest)) := by simp
  have hskip : (' ' :: (name.toList ++ '=' :: '"' :: (value ++ '"' :: rest))).dropWhile isSpace
      = name.toList ++ '=' :: '"' :: (value ++ '"' :: rest) := by
    rw [List.dropWhile_cons_of_pos (by decide)]
    obtain ⟨c, cs, hc⟩ := List.exists_cons_of_ne_nil hne
    rw [hc, List.cons_append, List.dropWhile_cons_of_neg]
    simp [isSpace_eq_false_of_isAttrChar (hname c (by simp [hc]))]
  rw [hshape, attrAt, hskip]
  simp only [takeWhile_stop hname (show isAttrChar '=' = false by decide),
    dropWhile_stop hname (show isAttrChar '=' = false by decide),
    takeWhile_stop hvalue (show (('"' : Char) != '"') = false by decide),
    dropWhile_stop hvalue (show (('"' : Char) != '"') = false by decide), hne, or_false,
    String.ofList_toList]
  rw [if_neg (by simp [leading, List.takeWhile_cons_of_pos (show isSpace ' ' = true by decide)])]

theorem attrsAt_print {attrs : Attrs} (h : ∀ a ∈ attrs, IsAttrName a.1 ∧ '"' ∉ a.2)
    (rest : Text) : ∀ fuel, attrs.length ≤ fuel →
      attrsAt fuel (attrString attrs ++ '>' :: rest) = (attrs, '>' :: rest) := by
  induction attrs with
  | nil =>
    intro fuel _
    cases fuel with
    | zero => rfl
    | succ fuel => simp [attrsAt, attrAt, attrString, leading, isSpace]
  | cons a attrs ih =>
    intro fuel hfuel
    obtain ⟨fuel, rfl⟩ : ∃ k, fuel = k + 1 :=
      ⟨fuel - 1, by simp only [List.length_cons] at hfuel; omega⟩
    have hshape : attrString (a :: attrs) ++ '>' :: rest
        = ' ' :: a.1.toList ++ '=' :: '"' :: a.2 ++ '"' :: (attrString attrs ++ '>' :: rest) := by
      simp [attrString]
    obtain ⟨hn, hv⟩ := h a (by simp)
    rw [hshape, attrsAt, attrAt_print hn hv]
    simp only [ih (fun b hb => h b (by simp [hb])) fuel (by simpa using hfuel)]

private theorem lowerName_toList (h : IsTagName tag) : lowerName tag.toList = tag := by
  rw [lowerName, List.map_congr_left (g := id) fun c hc => (h.2 c hc).2, List.map_id,
    String.ofList_toList]

private theorem length_le_attrString (attrs : Attrs) :
    attrs.length ≤ (attrString attrs).length := by
  induction attrs with
  | nil => simp
  | cons a attrs ih => simp [attrString] at ih ⊢; omega

theorem tagAt_opening {attrs : Attrs} (h : (HtmlToken.opening tag attrs).Printable) (rest : Text) :
    tagAt (tag.toList ++ attrString attrs ++ '>' :: rest)
      = some (.opening tag attrs, rest) := by
  obtain ⟨htag, hattrs⟩ := h
  obtain ⟨d, r, hdr, hd⟩ : ∃ d r, attrString attrs ++ '>' :: rest = d :: r ∧
      isTagChar d = false := by
    cases attrs with
    | nil => exact ⟨'>', rest, rfl, by decide⟩
    | cons a attrs => exact ⟨' ', _, rfl, by decide⟩
  have hmem : ∀ c ∈ tag.toList, isTagChar c = true := fun c hc => (htag.2 c hc).1
  have hslash : ∀ s, tag.toList ++ d :: r = '/' :: s → False := by
    obtain ⟨c, cs, hc⟩ := List.exists_cons_of_ne_nil htag.1
    intro s hs
    rw [hc, List.cons_append] at hs
    have hcc := hmem c (by simp [hc])
    rw [(List.cons.inj hs).1] at hcc
    cases hcc
  have hlen : attrs.length ≤ (tag.toList ++ d :: r).length := by
    rw [← hdr]
    have := length_le_attrString attrs
    simp only [List.length_append, List.length_cons]
    omega
  rw [List.append_assoc, hdr, tagAt.eq_2 _ hslash, takeWhile_stop hmem hd,
    dropWhile_stop hmem hd, if_neg htag.1, ← hdr, attrsAt_print hattrs rest _ (hdr ▸ hlen)]
  simp [lowerName_toList htag, List.dropWhile, isSpace]

theorem tagAt_closing (h : IsTagName tag) (rest : Text) :
    tagAt ('/' :: tag.toList ++ '>' :: rest) = some (.closing tag, rest) := by
  have hmem : ∀ c ∈ tag.toList, isTagChar c = true := fun c hc => (h.2 c hc).1
  have hgt : isTagChar '>' = false := by decide
  rw [List.cons_append, tagAt, takeWhile_stop hmem hgt, dropWhile_stop hmem hgt, if_neg h.1]
  simp [lowerName_toList h, List.dropWhile, isSpace]

/-! ### The token loop -/

theorem scan_eq_scan_drop : ∀ (skip : ℕ) (s : Text), scan skip s = scan 0 (s.drop skip)
  | 0, s => by simp
  | skip + 1, [] => by simp [scan]
  | skip + 1, _ :: s => by rw [scan, scan_eq_scan_drop skip s, List.drop_succ_cons]

theorem scan_text {t : Text} (h : '<' ∉ t) (s : Text) :
    scan 0 (t ++ s) = t.foldr consChar (scan 0 s) := by
  induction t with
  | nil => rfl
  | cons c t ih =>
    simp only [List.mem_cons, not_or] at h
    rw [List.cons_append, scan, if_neg (Ne.symm h.1), ih h.2, List.foldr_cons]

theorem scan_tag {w : Text} (h : tagAt (w ++ r) = some (token, r)) :
    scan 0 ('<' :: w ++ r) = token :: scan 0 r := by
  rw [List.cons_append, scan, if_pos rfl, h]
  simp only [List.length_append, Nat.add_sub_cancel, scan_eq_scan_drop w.length,
    List.drop_left]

/-- Joins a token to the stream behind it. -/
def glue : HtmlToken → List HtmlToken → List HtmlToken
  | .text t, tokens => t.foldr consChar tokens
  | token, tokens => token :: tokens

/-- **Written tokens are found again**, neighbouring texts joined. -/
theorem htmlTokens_print (h : ∀ t ∈ tokens, t.Printable) :
    htmlTokens (tokens.flatMap HtmlToken.print) = tokens.foldr glue [] := by
  have hrun : ∀ rest, scan 0 (tokens.flatMap HtmlToken.print ++ rest)
      = tokens.foldr glue (scan 0 rest) := by
    intro rest
    induction tokens with
    | nil => rfl
    | cons token tokens ih =>
      have hprint := h token (by simp)
      rw [List.flatMap_cons, List.append_assoc, List.foldr_cons,
        ← ih fun t ht => h t (by simp [ht])]
      cases token with
      | text t => exact scan_text hprint _
      | closing tag =>
        have htag := scan_tag (w := '/' :: tag.toList ++ ['>'])
          (r := tokens.flatMap HtmlToken.print ++ rest)
          (by simpa using tagAt_closing hprint (tokens.flatMap HtmlToken.print ++ rest))
        simpa [HtmlToken.print, glue] using htag
      | opening tag attrs =>
        have htag := scan_tag (w := tag.toList ++ attrString attrs ++ ['>'])
          (r := tokens.flatMap HtmlToken.print ++ rest)
          (by simpa using tagAt_opening hprint (tokens.flatMap HtmlToken.print ++ rest))
        simpa [HtmlToken.print, glue] using htag
  simpa [htmlTokens, scan] using hrun []

/-! ### Attribute values of found tags -/

private theorem quote_notMem_of_attrAt (h : attrAt s = some (a, rest)) : '"' ∉ a.2 := by
  simp only [attrAt] at h
  split at h
  · cases h
  · split at h
    · split at h
      · cases h
        exact fun hmem => absurd (List.mem_takeWhile_imp hmem) (by decide)
      · cases h
    · cases h

private theorem quote_notMem_of_attrsAt : ∀ (fuel : ℕ) (s : Text),
    ∀ a ∈ (attrsAt fuel s).1, '"' ∉ a.2
  | 0, s => by simp [attrsAt]
  | fuel + 1, s => by
    rw [attrsAt]
    split
    · simp
    · rename_i a rest h
      exact List.forall_mem_cons.mpr
        ⟨quote_notMem_of_attrAt h, quote_notMem_of_attrsAt fuel rest⟩

/-- The values of a token's attributes contain no quote. -/
def HtmlToken.Unquoted : HtmlToken → Prop
  | .opening _ attrs => ∀ a ∈ attrs, '"' ∉ a.2
  | _ => True

private theorem unquoted_of_tagAt (h : tagAt s = some (token, rest)) : token.Unquoted := by
  rw [tagAt.eq_def] at h
  split at h
  · split at h
    · cases h
    · split at h <;> cases h
      trivial
  · split at h
    · cases h
    · dsimp only at h
      split at h <;> cases h
      all_goals exact quote_notMem_of_attrsAt _ _

private theorem unquoted_consChar (h : ∀ t ∈ tokens, t.Unquoted) :
    ∀ t ∈ consChar c tokens, t.Unquoted := by
  unfold consChar
  split
  · exact List.forall_mem_cons.mpr ⟨trivial, (List.forall_mem_cons.mp h).2⟩
  · exact List.forall_mem_cons.mpr ⟨trivial, h⟩

theorem unquoted_of_mem_scan : ∀ (s : Text) (skip : ℕ), ∀ t ∈ scan skip s, t.Unquoted
  | [], _ => by simp [scan]
  | _ :: s, skip + 1 => by
    rw [scan]
    exact unquoted_of_mem_scan s skip
  | c :: s, 0 => by
    rw [scan]
    split
    · split
      · rename_i token rest h
        exact List.forall_mem_cons.mpr ⟨unquoted_of_tagAt h, unquoted_of_mem_scan s _⟩
      · exact unquoted_consChar (unquoted_of_mem_scan s 0)
    · exact unquoted_consChar (unquoted_of_mem_scan s 0)

end DrepTalk
