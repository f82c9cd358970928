import DrepTalk.Text.JsText
import DrepTalk.Library.Lcs
import Mathlib.Algebra.Order.Field.Rat

/-!
# The word diff

The word-level LCS that the rich diff and the source diff of the forum share
(`src/lib/forum/wordDiff.ts`), together with `countWords` of `src/lib/forum/threadMap.ts`.
Tokens alternate inked and white runs, the walk is the one of `Lcs.lcsWalk`, and adjacent
operations of one type are merged as they are pushed.

Every way through `wordDiff` (identical texts, the whole replacement over the cell budget,
the table walk) keeps both texts: the operations other than deletions spell the new text
(`newSide_wordDiff`) and the operations other than additions the old one
(`oldSide_wordDiff`). Merging leaves blocks of one type each (`foldl_pushOp_blocks`), so that a diff
through the table keeps as many tokens as the walk has common steps (`wordDiff_right`).
-/

namespace DrepTalk

open JsText

inductive OpType
  | same
  | add
  | del
  deriving DecidableEq

structure WordOp where
  type : OpType
  text : Text
  deriving DecidableEq

/-- Cell budget for every LCS table in the diff engine. -/
def LCS_CELL_BUDGET : ℕ := 2000000

/-- Words in a text: the number of matches of `/\S+/gu`. -/
def countWords (t : Text) : ℕ := (words t).length

/-- `text.match(/\s+|[^\s]+/g) ?? []`. -/
def tokenize (t : Text) : List Text := runs t

/-- Appends an operation, merging it into the last one when the types agree. -/
def pushOp (ops : List WordOp) (op : WordOp) : List WordOp :=
  match ops.getLast? with
  | some last =>
    if last.type = op.type then ops.dropLast ++ [{ last with text := last.text ++ op.text }]
    else ops ++ [op]
  | none => ops ++ [op]

/-- The operation one step of the walk pushes. -/
def stepOp : Lcs.Step Text → WordOp
  | .both x => ⟨.same, x⟩
  | .left x => ⟨.del, x⟩
  | .right y => ⟨.add, y⟩

/-- Diffs two texts word by word. Adjacent operations of the same type are merged. -/
def wordDiff (oldText newText : Text) : List WordOp :=
  if oldText = newText then if oldText = [] then [] else [⟨.same, oldText⟩]
  else
    let a := tokenize oldText
    let b := tokenize newText
    if (a.length + 1) * (b.length + 1) > LCS_CELL_BUDGET then
      (if oldText = [] then [] else [⟨.del, oldText⟩]) ++
        (if newText = [] then [] else [⟨.add, newText⟩])
    else ((Lcs.lcsWalk a b).map stepOp).foldl pushOp []

/-- Removes the words of `wa` from `pool` one by one, counting the ones found there. -/
def sharedWords : List Text → List Text → ℕ
  | [], _ => 0
  | w :: wa, pool => if w ∈ pool then sharedWords wa (pool.erase w) + 1 else sharedWords wa pool

/-- Shared words over the longer word count, in `0..1`. -/
def similarity (a b : Text) : ℚ :=
  let wa := words a
  let wb := words b
  if wa.length = 0 ∧ wb.length = 0 then 1
  else (sharedWords wa wb : ℚ) / (max wa.length wb.length : ℕ)

/-! ### Reconstruction -/

/-- The text of all operations except those of type `drop`. -/
def sideText (drop : OpType) (ops : List WordOp) : Text :=
  ops.flatMap fun op => if op.type = drop then [] else op.text

def newSide (ops : List WordOp) : Text := sideText .del ops

def oldSide (ops : List WordOp) : Text := sideText .add ops

variable (drop : OpType) (ops : List WordOp) (oldText newText : Text)

theorem sideText_append (ops' : List WordOp) :
    sideText drop (ops ++ ops') = sideText drop ops ++ sideText drop ops' :=
  List.flatMap_append ..

theorem sideText_pushOp (op : WordOp) :
    sideText drop (pushOp ops op) = sideText drop (ops ++ [op]) := by
  rcases List.eq_nil_or_concat ops with rfl | ⟨init, last, rfl⟩
  · rfl
  · simp only [pushOp, List.concat_eq_append, List.getLast?_concat, List.dropLast_concat]
    split_ifs with h
    · simp only [sideText_append, List.append_assoc]
      congr 1
      by_cases hd : op.type = drop <;> simp [sideText, h, hd]
    · rfl

theorem sideText_foldl_pushOp (new : List WordOp) : ∀ ops : List WordOp,
    sideText drop (new.foldl pushOp ops) = sideText drop (ops ++ new) := by
  induction new with
  | nil => simp
  | cons op new ih =>
    intro ops
    rw [List.foldl_cons, ih, sideText_append, sideText_pushOp, ← sideText_append,
      List.append_assoc, List.singleton_append]

theorem newSide_walk (steps : List (Lcs.Step Text)) :
    newSide (steps.map stepOp) = (Lcs.rights steps).flatten := by
  induction steps with
  | nil => rfl
  | cons s steps ih => cases s <;> simpa [newSide, sideText, stepOp, Lcs.rights] using ih

theorem oldSide_walk (steps : List (Lcs.Step Text)) :
    oldSide (steps.map stepOp) = (Lcs.lefts steps).flatten := by
  induction steps with
  | nil => rfl
  | cons s steps ih => cases s <;> simpa [oldSide, sideText, stepOp, Lcs.lefts] using ih

/-- The three shapes of a word diff: identical texts, the whole replacement over the cell
budget, and the merged walk through the table. -/
theorem wordDiff_cases :
    (oldText = newText ∧
      wordDiff oldText newText = if oldText = [] then [] else [⟨.same, oldText⟩]) ∨
    wordDiff oldText newText = (if oldText = [] then [] else [⟨.del, oldText⟩]) ++
      (if newText = [] then [] else [⟨.add, newText⟩]) ∨
    wordDiff oldText newText
      = ((Lcs.lcsWalk (tokenize oldText) (tokenize newText)).map stepOp).foldl pushOp [] := by
  by_cases heq : oldText = newText
  · exact .inl ⟨heq, by rw [wordDiff, if_pos heq]⟩
  · simp only [wordDiff, if_neg heq]
    split
    · exact .inr (.inl rfl)
    · exact .inr (.inr rfl)

theorem sideText_optional (type : OpType) (t : Text) :
    sideText drop (if t = [] then [] else [⟨type, t⟩]) = if type = drop then [] else t := by
  by_cases ht : t = [] <;> simp [sideText, ht]

theorem newSide_wordDiff : newSide (wordDiff oldText newText) = newText := by
  rcases wordDiff_cases oldText newText with ⟨heq, h⟩ | h | h
  · rw [h, newSide, sideText_optional, heq]; rfl
  · rw [h, newSide, sideText_append, sideText_optional, sideText_optional]; rfl
  · rw [h, newSide, sideText_foldl_pushOp, List.nil_append]
    exact (newSide_walk _).trans (by rw [Lcs.rights_lcsWalk, tokenize, flatten_runs])

theorem oldSide_wordDiff : oldSide (wordDiff oldText newText) = oldText := by
  rcases wordDiff_cases oldText newText with ⟨-, h⟩ | h | h
  · rw [h, oldSide, sideText_optional]; rfl
  · rw [h, oldSide, sideText_append, sideText_optional, sideText_optional]
    exact List.append_nil _
  · rw [h, oldSide, sideText_foldl_pushOp, List.nil_append]
    exact (oldSide_walk _).trans (by rw [Lcs.lefts_lcsWalk, tokenize, flatten_runs])

theorem mem_of_mem_wordDiff {oldText newText : Text} {op : WordOp}
    (h : op ∈ wordDiff oldText newText) {c : Char} (hc : c ∈ op.text) :
    c ∈ oldText ∨ c ∈ newText := by
  have hside : ∀ drop, op.type ≠ drop → c ∈ sideText drop (wordDiff oldText newText) :=
    fun drop hne => List.mem_flatMap.mpr ⟨op, h, by rwa [if_neg hne]⟩
  by_cases hadd : op.type = .add
  · have hnew := hside .del (by simp [hadd])
    exact .inr (newSide_wordDiff oldText newText ▸ hnew)
  · have hold := hside .add hadd
    exact .inl (oldSide_wordDiff oldText newText ▸ hold)

/-! ### Blocks -/

/-- An operation with the tokens that were merged into it. -/
def blockOp (block : OpType × List Text) : WordOp := ⟨block.1, block.2.flatten⟩

theorem foldl_pushOp_blocks : ∃ blocks : List (OpType × List Text),
    ops.foldl pushOp [] = blocks.map blockOp ∧
      (blocks.flatMap fun block => block.2.map (WordOp.mk block.1)) = ops ∧
      blocks.IsChain (fun block next => block.1 ≠ next.1) ∧ ∀ block ∈ blocks, block.2 ≠ [] := by
  induction ops using List.reverseRecOn with
  | nil => exact ⟨[], rfl, rfl, .nil, by simp⟩
  | append_singleton ops op ih =>
    obtain ⟨blocks, hfold, hflat, hchain, hne⟩ := ih
    rw [List.foldl_append, List.foldl_cons, List.foldl_nil, hfold]
    rcases List.eq_nil_or_concat blocks with rfl | ⟨init, last, rfl⟩
    · refine ⟨[(op.type, [op.text])], ?_, ?_, .singleton _, by simp⟩
      · simp [pushOp, blockOp]
      · simp [← hflat]
    · rw [List.concat_eq_append] at hflat hchain hne ⊢
      by_cases htype : last.1 = op.type
      · -- the token goes into the last block
        refine ⟨init ++ [(last.1, last.2 ++ [op.text])], ?_, ?_, ?_, ?_⟩
        · simp [pushOp, blockOp, htype]
        · simp [← hflat, htype]
        · rw [List.isChain_append] at hchain ⊢
          exact ⟨hchain.1, .singleton _, by simpa using hchain.2.2⟩
        · intro block hblock
          rcases List.mem_append.mp hblock with h | h
          · exact hne block (List.mem_append_left _ h)
          · simp [List.mem_singleton.mp h]
      · -- or starts a block
        refine ⟨init ++ [last] ++ [(op.type, [op.text])], ?_, ?_, ?_, ?_⟩
        · simp [pushOp, blockOp, htype]
        · simp [← hflat]
        · rw [List.isChain_append]
          exact ⟨hchain, .singleton _, by simpa using htype⟩
        · intro block hblock
          rcases List.mem_append.mp hblock with h | h
          · exact hne block h
          · simp [List.mem_singleton.mp h]

/-- The tokens that operations of type `same` cover. -/
def sameTokens (ops : List WordOp) : ℕ :=
  ((ops.filter fun op => op.type = .same).map fun op => (tokenize op.text).length).sum

theorem tokenize_flatten {t : Text} {tokens : List Text} (h : tokens <:+: tokenize t) :
    tokenize tokens.flatten = tokens := by
  refine List.splitBy_flatten (fun hmem => ?_) (fun run hrun => ?_) ?_
  · exact List.nil_notMem_splitBy _ t (h.subset hmem)
  · exact List.isChain_of_mem_splitBy (h.subset hrun)
  · have hchain := List.isChain_getLast_head_splitBy (fun a b => isSpace a == isSpace b) t
    exact List.IsChain.infix hchain h

variable {steps : List (Lcs.Step Text)} {blocks : List (OpType × List Text)}

theorem sum_sameBlocks
    (h : (blocks.flatMap fun block => block.2.map (WordOp.mk block.1)) = steps.map stepOp) :
    ((blocks.filter fun block => block.1 = .same).map fun block => block.2.length).sum
      = Lcs.commons steps := by
  have hcount : Lcs.commons steps = (steps.map stepOp).countP fun op => op.type = .same := by
    rw [Lcs.commons, List.countP_map]
    congr 1
    funext step
    cases step <;> rfl
  rw [hcount, ← h]
  clear h hcount
  induction blocks with
  | nil => rfl
  | cons block blocks ih =>
    rw [List.flatMap_cons, List.countP_append, ← ih]
    by_cases hsame : block.1 = .same <;> simp [hsame, List.countP_map, Function.comp_def]

theorem sameBlock_infix
    (h : (blocks.flatMap fun block => block.2.map (WordOp.mk block.1)) = steps.map stepOp)
    {block : OpType × List Text} (hmem : block ∈ blocks) (hsame : block.1 = .same) :
    block.2 <:+: Lcs.lefts steps := by
  have hlefts : Lcs.lefts steps
      = (steps.map stepOp).filterMap fun op => if op.type = .add then none else some op.text := by
    rw [Lcs.lefts, List.filterMap_map]
    congr 1
    funext step
    cases step <;> rfl
  obtain ⟨front, back, rfl⟩ := List.append_of_mem hmem
  rw [hlefts, ← h]
  refine ⟨(front.flatMap fun block => block.2.map (WordOp.mk block.1)).filterMap
    fun op => if op.type = .add then none else some op.text,
    (back.flatMap fun block => block.2.map (WordOp.mk block.1)).filterMap
      fun op => if op.type = .add then none else some op.text, ?_⟩
  simp [hsame, List.filterMap_map]

theorem text_ne_nil_of_walk {a b : Text} {op : WordOp}
    (h : op ∈ (Lcs.lcsWalk (tokenize a) (tokenize b)).map stepOp) : op.text ≠ [] := by
  obtain ⟨step, hstep, rfl⟩ := List.mem_map.mp h
  have hleft : ∀ x, x ∈ Lcs.lefts (Lcs.lcsWalk (tokenize a) (tokenize b)) → x ≠ [] := by
    intro x hx
    rw [Lcs.lefts_lcsWalk] at hx
    exact List.ne_nil_of_mem_splitBy hx
  have hright : ∀ x, x ∈ Lcs.rights (Lcs.lcsWalk (tokenize a) (tokenize b)) → x ≠ [] := by
    intro x hx
    rw [Lcs.rights_lcsWalk] at hx
    exact List.ne_nil_of_mem_splitBy hx
  cases step with
  | both x | left x => exact hleft x (List.mem_filterMap.mpr ⟨_, hstep, rfl⟩)
  | right x => exact hright x (List.mem_filterMap.mpr ⟨_, hstep, rfl⟩)

/-- What `wordDiff` leaves of a walk: no empty operation, no two neighbors of one type, and the
common tokens of the walk. -/
theorem merged_walk (a b : Text) :
    let ops := ((Lcs.lcsWalk (tokenize a) (tokenize b)).map stepOp).foldl pushOp []
    (∀ op ∈ ops, op.text ≠ []) ∧ ops.IsChain (fun op next => op.type ≠ next.type) ∧
      sameTokens ops = Lcs.lcsLength (tokenize a) (tokenize b) := by
  intro ops
  obtain ⟨blocks, hops, hflat, hchain, hne⟩ :=
    foldl_pushOp_blocks ((Lcs.lcsWalk (tokenize a) (tokenize b)).map stepOp)
  have hops : ops = blocks.map blockOp := hops
  refine ⟨fun op hop => ?_, ?_, ?_⟩
  · rw [hops] at hop
    obtain ⟨block, hblock, rfl⟩ := List.mem_map.mp hop
    obtain ⟨token, hmem⟩ := List.exists_mem_of_ne_nil _ (hne block hblock)
    have hop : WordOp.mk block.1 token ∈ (Lcs.lcsWalk (tokenize a) (tokenize b)).map stepOp :=
      hflat ▸ List.mem_flatMap.mpr ⟨block, hblock, List.mem_map_of_mem hmem⟩
    exact fun hnil => text_ne_nil_of_walk hop (List.flatten_eq_nil_iff.mp hnil token hmem)
  · rw [hops, List.isChain_map]
    exact hchain
  · rw [← Lcs.commons_lcsWalk, ← sum_sameBlocks hflat, hops, sameTokens, List.filter_map,
      List.map_map]
    refine congrArg List.sum (List.map_congr_left fun block hblock => ?_)
    obtain ⟨hmem, hsame⟩ := List.mem_filter.mp hblock
    have hinfix := sameBlock_infix hflat hmem (of_decide_eq_true hsame)
    rw [Lcs.lefts_lcsWalk] at hinfix
    rw [Function.comp_apply, blockOp, tokenize_flatten hinfix]

/-- **What a word diff is.** Its operations spell the two texts, none empty, no neighbors of one
type; within the budget they keep as many tokens as the texts have in common. -/
theorem wordDiff_right (oldText newText : Text) :
    oldSide (wordDiff oldText newText) = oldText ∧
      newSide (wordDiff oldText newText) = newText ∧
      (∀ op ∈ wordDiff oldText newText, op.text ≠ []) ∧
      (wordDiff oldText newText).IsChain (fun op next => op.type ≠ next.type) ∧
      (((tokenize oldText).length + 1) * ((tokenize newText).length + 1) ≤ LCS_CELL_BUDGET →
        IsGreatest
          {k | ∃ c : List Text, c.Sublist (tokenize oldText) ∧ c.Sublist (tokenize newText) ∧
            c.length = k}
          (sameTokens (wordDiff oldText newText))) := by
  refine ⟨oldSide_wordDiff .., newSide_wordDiff .., ?_⟩
  by_cases heq : oldText = newText
  · -- identical texts are one operation, and have all their tokens in common
    subst heq
    rw [wordDiff, if_pos rfl]
    have hall : IsGreatest {k | ∃ c : List Text, c.Sublist (tokenize oldText) ∧
        c.Sublist (tokenize oldText) ∧ c.length = k} (tokenize oldText).length := by
      refine ⟨⟨_, .refl _, .refl _, rfl⟩, ?_⟩
      rintro k ⟨c, hc, -, rfl⟩
      exact hc.length_le
    by_cases hnil : oldText = []
    · subst hnil
      exact ⟨by simp, .nil, fun _ => hall⟩
    · rw [if_neg hnil]
      exact ⟨by simpa using hnil, .singleton _, fun _ => by simpa [sameTokens] using hall⟩
  · by_cases hbudget : ((tokenize oldText).length + 1) * ((tokenize newText).length + 1)
        > LCS_CELL_BUDGET
    · rw [wordDiff, if_neg heq]
      simp only [if_pos hbudget]
      refine ⟨?_, ?_, fun hle => absurd hbudget (by omega)⟩
      · intro op hop
        rcases List.mem_append.mp hop with h | h
        · split_ifs at h with hnil
          · simp at h
          · simpa [List.mem_singleton.mp h] using hnil
        · split_ifs at h with hnil
          · simp at h
          · simpa [List.mem_singleton.mp h] using hnil
      · split_ifs <;> simp
    · have hwalk : wordDiff oldText newText
          = ((Lcs.lcsWalk (tokenize oldText) (tokenize newText)).map stepOp).foldl pushOp [] := by
        rw [wordDiff, if_neg heq]
        exact if_neg hbudget
      obtain ⟨hne, hchain, hsame⟩ := merged_walk oldText newText
      rw [hwalk]
      refine ⟨hne, hchain, fun _ => ?_⟩
      rw [hsame]
      exact Lcs.isGreatest_lcsLength _ _

/-- Two of the three tokens stay. -/
theorem wordDiff_right_vote : IsGreatest
    {k | ∃ c : List Text, c.Sublist (tokenize ['N', 'o', ' ', 'i', 'f']) ∧
      c.Sublist (tokenize ['N', 'o', ' ', 'b', 'y']) ∧ c.length = k}
    (sameTokens (wordDiff ['N', 'o', ' ', 'i', 'f'] ['N', 'o', ' ', 'b', 'y'])) :=
  (wordDiff_right ['N', 'o', ' ', 'i', 'f'] ['N', 'o', ' ', 'b', 'y']).2.2.2.2 (by decide)

example : wordDiff "I voted No".toList "I voted Abstain".toList
    = [⟨.same, "I voted ".toList⟩, ⟨.del, "No".toList⟩, ⟨.add, "Abstain".toList⟩] := by
  decide

end DrepTalk
