import DrepTalk.DrepLink.Handles

/-!
# The handle of a name

`slugBase` of `src/lib/slug.ts` and `handleBase` of `src/lib/drepLink/assign.ts`: a display name is
folded to ASCII, and whatever else it contains becomes single hyphens between its words. A name that
is longer than a handle may be is cut behind its last whole word.

What comes out has the shape of a handle, and its length, unless nothing does
(`handleBase_spec`). The Unicode tables are not modelled: they are two functions on texts.
-/

namespace DrepTalk

/-- `normalize('NFKD')` and `toLowerCase()`. -/
structure TextFolding where
  nfkd : Text → Text
  toLowerCase : Text → Text

/-- `[\u0300-\u036f]`. -/
def isCombiningMark (c : Char) : Bool := decide (0x300 ≤ c.toNat) && decide (c.toNat ≤ 0x36f)

/-- `replace(/[^a-z0-9]+/g, '-')`, after a character of such a run or not. -/
def hyphenRuns : Bool → Text → Text
  | _, [] => []
  | inRun, c :: rest =>
    if isHandleChar c then c :: hyphenRuns false rest
    else if inRun then hyphenRuns true rest
    else '-' :: hyphenRuns true rest

/-- `replace(/^-+|-+$/g, '')`. -/
def trimHyphens (t : Text) : Text := (t.dropWhile (· == '-')).rdropWhile (· == '-')

/-- Without a limit, the whole text is taken. -/
def slugBase (folding : TextFolding) (name : Text) (max : Option ℕ) : Text :=
  let folded := folding.toLowerCase ((folding.nfkd name).filter fun c => !isCombiningMark c)
  let base := trimHyphens (hyphenRuns false folded)
  ((max.map base.take).getD base).rdropWhile (· == '-')

/-- `t.lastIndexOf(c, start)`. -/
def lastIndexOf (c : Char) (t : Text) (start : ℕ) : Option ℕ :=
  (List.range (start + 1)).reverse.find? fun i => t[i]? == some c

def handleBase (folding : TextFolding) (name : Text) : Text :=
  let full := slugBase folding name none
  if full.length ≤ HANDLE_MAX then full
  else
    match lastIndexOf '-' full HANDLE_MAX with
    | some cut => if 0 < cut then full.take cut else full.take HANDLE_MAX
    | none => full.take HANDLE_MAX

/-! ### The shape -/

/-- Words with single hyphens between them, or nothing. -/
structure IsSlug (t : Text) : Prop where
  chars : ∀ c ∈ t, isHandleChar c = true ∨ c = '-'
  head : '-' ∉ t.head?
  last : '-' ∉ t.getLast?
  single : t.IsChain fun a b => a = '-' → b ≠ '-'

theorem isHandleChar_hyphen : isHandleChar '-' = false := by decide

theorem hyphenRuns_spec (inRun : Bool) (t : Text) :
    (∀ c ∈ hyphenRuns inRun t, isHandleChar c = true ∨ c = '-') ∧
      ((hyphenRuns inRun t).IsChain fun a b => a = '-' → b ≠ '-') ∧
      (inRun = true → '-' ∉ (hyphenRuns inRun t).head?) := by
  induction t generalizing inRun with
  | nil => exact ⟨by simp [hyphenRuns], .nil, by simp [hyphenRuns]⟩
  | cons c rest ih =>
    rw [hyphenRuns]
    split_ifs with hc hrun
    · obtain ⟨hchars, hsingle, -⟩ := ih false
      have hne : c ≠ '-' := by
        rintro rfl
        rw [isHandleChar_hyphen] at hc
        cases hc
      exact ⟨List.forall_mem_cons.mpr ⟨.inl hc, hchars⟩,
        List.isChain_cons.mpr ⟨fun b _ h => absurd h hne, hsingle⟩, fun _ h =>
          hne (Option.some.inj h)⟩
    · obtain ⟨hchars, hsingle, hhead⟩ := ih true
      exact ⟨hchars, hsingle, fun _ => hhead rfl⟩
    · obtain ⟨hchars, hsingle, hhead⟩ := ih true
      refine ⟨List.forall_mem_cons.mpr ⟨.inr rfl, hchars⟩,
        List.isChain_cons.mpr ⟨fun b hb _ heq => hhead rfl (heq ▸ hb), hsingle⟩,
        fun h => absurd h hrun⟩

variable {t : Text}

theorem IsSlug.trimHyphens (hchars : ∀ c ∈ t, isHandleChar c = true ∨ c = '-')
    (hsingle : t.IsChain fun a b => a = '-' → b ≠ '-') : IsSlug (trimHyphens t) := by
  have hpart : DrepTalk.trimHyphens t <:+: t :=
    (List.rdropWhile_prefix _ _).isInfix.trans (List.dropWhile_suffix _).isInfix
  refine ⟨fun c hc => hchars c (hpart.mem hc), fun hhead => ?_, fun hlast => ?_,
    hsingle.infix hpart⟩
  · obtain ⟨more, hmore⟩ := List.rdropWhile_prefix (· == '-') (t.dropWhile (· == '-'))
    have hfirst : '-' ∈ (t.dropWhile (· == '-')).head? := by
      rw [← hmore]
      exact List.mem_head?_append_of_mem_head? hhead
    have hnot := List.head?_dropWhile_not (· == '-') t
    rw [Option.mem_def.mp hfirst] at hnot
    cases hnot
  · have hne : DrepTalk.trimHyphens t ≠ [] := List.ne_nil_of_mem (List.mem_of_mem_getLast? hlast)
    have hnot := List.rdropWhile_last_not (· == '-') (t.dropWhile (· == '-')) hne
    rw [List.getLast?_eq_getLast_of_ne_nil hne, Option.mem_some_iff] at hlast
    exact hnot (beq_iff_eq.mpr hlast)

theorem IsSlug.rdropWhile (h : IsSlug t) : t.rdropWhile (· == '-') = t := by
  rw [List.rdropWhile_eq_self_iff]
  intro hne heq
  refine h.last ?_
  rw [List.getLast?_eq_getLast_of_ne_nil hne, Option.mem_some_iff]
  exact beq_iff_eq.mp heq

theorem isSlug_slugBase (folding : TextFolding) (name : Text) :
    IsSlug (slugBase folding name none) := by
  obtain ⟨hchars, hsingle, -⟩ := hyphenRuns_spec false
    (folding.toLowerCase ((folding.nfkd name).filter fun c => !isCombiningMark c))
  have hslug := IsSlug.trimHyphens hchars hsingle
  rw [slugBase]
  exact hslug.rdropWhile.symm ▸ hslug

theorem IsSlug.of_append {rest : Text} (h : IsSlug (t ++ rest)) (hlast : '-' ∉ t.getLast?) :
    IsSlug t where
  chars c hc := h.chars c (List.mem_append_left rest hc)
  head hhead := h.head (List.mem_head?_append_of_mem_head? hhead)
  last := hlast
  single := h.single.left_of_append

theorem lastIndexOf_eq_some {c : Char} {start i : ℕ} (h : lastIndexOf c t start = some i) :
    i ≤ start ∧ t[i]? = some c := by
  have hmem := List.mem_of_find?_eq_some h
  have hi := List.find?_some h
  rw [List.mem_reverse, List.mem_range] at hmem
  exact ⟨Nat.le_of_lt_succ hmem, beq_iff_eq.mp hi⟩

theorem lastIndexOf_eq_none {c : Char} {start : ℕ} (h : lastIndexOf c t start = none) :
    c ∉ t.take (start + 1) := by
  intro hmem
  obtain ⟨i, hi, hc⟩ := List.mem_iff_getElem.mp hmem
  have hlt : i < start + 1 := (hi.trans_le (List.length_take_le _ _))
  have hnone := List.find?_eq_none.mp h i (List.mem_reverse.mpr (List.mem_range.mpr hlt))
  rw [List.getElem_take] at hc
  exact hnone (beq_iff_eq.mpr (List.getElem?_eq_some_iff.mpr ⟨_, hc⟩))

theorem IsSlug.take_of_hyphen (h : IsSlug t) {cut : ℕ} (hcut : t[cut]? = some '-') :
    IsSlug (t.take cut) := by
  have hsplit : t.take cut ++ t.drop cut = t := List.take_append_drop cut t
  refine IsSlug.of_append (hsplit.symm ▸ h) fun hlast => ?_
  have hchain := h.single
  rw [← hsplit, List.isChain_append] at hchain
  refine hchain.2.2 '-' hlast '-' ?_ rfl rfl
  rw [List.head?_drop]
  exact hcut

/-- **The base of a handle** is not too long, and a slug. -/
theorem handleBase_spec (folding : TextFolding) (name : Text) :
    (handleBase folding name).length ≤ HANDLE_MAX ∧ IsSlug (handleBase folding name) := by
  have hslug := isSlug_slugBase folding name
  rw [handleBase]
  generalize slugBase folding name none = full at hslug
  split_ifs with hshort
  · exact ⟨hshort, hslug⟩
  · rcases hindex : lastIndexOf '-' full HANDLE_MAX with _ | cut
    · -- no hyphen so far: the word is cut
      refine ⟨List.length_take_le _ _, IsSlug.of_append
        ((List.take_append_drop HANDLE_MAX full).symm ▸ hslug) fun hlast => ?_⟩
      refine lastIndexOf_eq_none hindex ?_
      exact (List.take_prefix_take_left (Nat.le_succ _)).mem (List.mem_of_mem_getLast? hlast)
    · obtain ⟨hle, hcut⟩ := lastIndexOf_eq_some hindex
      have hpos : 0 < cut := by
        refine Nat.pos_of_ne_zero fun hzero => hslug.head ?_
        rw [hzero, ← List.head?_eq_getElem?] at hcut
        exact hcut
      dsimp only
      rw [if_pos hpos]
      exact ⟨(List.length_take_le _ _).trans hle, hslug.take_of_hyphen hcut⟩

theorem IsSlug.hasShape (h : IsSlug t) (hne : t ≠ []) : hasShape t = true := by
  induction hlength : t.length using Nat.strong_induction_on generalizing t with
  | _ n ih =>
    have hhyphen : ∀ {c : Char}, isHandleChar c = true → c ≠ '-' := by
      rintro c hc rfl
      rw [isHandleChar_hyphen] at hc
      cases hc
    obtain ⟨part, rest, hpart, hrest, rfl⟩ : ∃ part rest, (∀ c ∈ part, isHandleChar c = true) ∧
        (∀ c ∈ rest.head?, isHandleChar c = false) ∧ t = part ++ rest := by
      refine ⟨t.takeWhile isHandleChar, t.dropWhile isHandleChar,
        fun c hc => List.mem_takeWhile_imp hc, fun c hc => ?_, List.takeWhile_append_dropWhile.symm⟩
      have hnot := List.head?_dropWhile_not isHandleChar t
      rw [Option.mem_def.mp hc] at hnot
      exact hnot
    have hnone : '-' ∉ part := fun hmem => hhyphen (hpart _ hmem) rfl
    rcases rest with _ | ⟨c, rest⟩
    · -- one word
      rw [List.append_nil] at hne ⊢
      rw [DrepTalk.hasShape, List.splitOn_eq_singleton hnone, List.all_cons, List.all_nil,
        Bool.and_true, Bool.and_eq_true, Bool.not_eq_true', List.isEmpty_eq_false_iff,
        List.all_eq_true]
      exact ⟨hne, hpart⟩
    · -- a word, a hyphen and another slug
      obtain rfl : c = '-' := (h.chars c (List.mem_append_right _ List.mem_cons_self)).resolve_left
        (by rw [hrest c rfl]; decide)
      have hfirst : part ≠ [] := by
        rintro rfl
        exact h.head rfl
      have hlast : rest ≠ [] := by
        rintro rfl
        exact h.last (by rw [List.getLast?_append]; rfl)
      have hsingle := (List.isChain_append.mp h.single).2.1
      rw [List.isChain_cons] at hsingle
      have hslug : IsSlug rest := by
        refine ⟨fun c hc => h.chars c (List.mem_append_right _ (List.mem_cons_of_mem _ hc)),
          fun hhead => hsingle.1 '-' hhead rfl rfl, fun hend => h.last ?_, hsingle.2⟩
        rw [List.getLast?_append, List.getLast?_cons_of_ne_nil hlast]
        rw [Option.mem_def.mp hend]
        rfl
      have hshorter : rest.length < n := by
        rw [← hlength, List.length_append, List.length_cons]
        omega
      have hrestShape := ih rest.length hshorter hslug hlast rfl
      rw [DrepTalk.hasShape] at hrestShape ⊢
      rw [List.splitOn_append_cons_self_of_not_mem hnone, List.all_cons, hrestShape, Bool.and_true,
        Bool.and_eq_true, Bool.not_eq_true', List.isEmpty_eq_false_iff, List.all_eq_true]
      exact ⟨hfirst, hpart⟩

end DrepTalk
