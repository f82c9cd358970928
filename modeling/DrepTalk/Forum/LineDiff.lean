import DrepTalk.Forum.AlignNodes

/-!
# The line diff

The source view of the edit history (`src/lib/forum/lineDiff.ts`). Two texts are diffed line by
line, with the walk and the cell budget of the word diff; each run of changed lines falls apart into
its deletions and its insertions, these are zipped by position, and a pair that is similar enough is
diffed word by word.

A reader takes two texts off such a view, as off a word diff: leaving out the lines of type `add`
gives the old one and leaving out those of type `del` the new one. `sideOps` and `sideLines` are
these readings, before and after the word pass, and each stage keeps them: the walk
(`sideOps_lineDiff`), the zipped run (`sideLines_zipRun`) and the loop over the runs
(`sideLines_diffRuns`).
-/

namespace DrepTalk

structure DiffOp where
  type : OpType
  line : Text

/-- One line of the view, with its word operations. -/
structure DiffLine where
  type : OpType
  parts : List WordOp

/-- `text.split('\n')`. -/
def splitLines (text : Text) : List Text := text.splitOn '\n'

/-- The operation one step of the walk pushes. -/
def lineOp : Lcs.Step Text → DiffOp
  | .both x => ⟨.same, x⟩
  | .left x => ⟨.del, x⟩
  | .right y => ⟨.add, y⟩

def lineDiff (oldText newText : Text) : List DiffOp :=
  let a := splitLines oldText
  let b := splitLines newText
  if oldText = newText then a.map fun line => ⟨.same, line⟩
  else if (a.length + 1) * (b.length + 1) > LCS_CELL_BUDGET then
    (a.map fun line => ⟨.del, line⟩) ++ b.map fun line => ⟨.add, line⟩
  else (Lcs.lcsWalk a b).map lineOp

/-- A line that is shown as one operation. -/
def whole (op : DiffOp) : DiffLine := ⟨op.type, [⟨op.type, op.line⟩]⟩

def pairLines (del add : DiffOp) : List DiffLine :=
  if similarity del.line add.line ≥ SIMILAR_ENOUGH then
    let parts := wordDiff del.line add.line
    [⟨.del, parts.filter fun p => p.type ≠ .add⟩, ⟨.add, parts.filter fun p => p.type ≠ .del⟩]
  else [whole del, whole add]

def zipRun (run : List DiffOp) : List DiffLine :=
  let dels := run.filter fun op => op.type = .del
  let adds := run.filter fun op => op.type = .add
  let pairs := min dels.length adds.length
  (List.zipWith pairLines dels adds).flatten ++ (dels.drop pairs).map whole ++
    (adds.drop pairs).map whole

/-- The loop of `lineDiffWithWords`; `run` is the changed run that goes on here. -/
def diffRuns (run : List DiffOp) : List DiffOp → List DiffLine
  | [] => zipRun run
  | op :: ops =>
    if op.type = .same then zipRun run ++ ⟨.same, [⟨.same, op.line⟩]⟩ :: diffRuns [] ops
    else diffRuns (run ++ [op]) ops

/-- `lineDiff`, with a word pass inside each changed run. -/
def lineDiffWithWords (oldText newText : Text) : List DiffLine := diffRuns []
    (lineDiff oldText newText)

/-! ### The two sides -/

/-- The lines of all operations except those of type `drop`. -/
def sideOps (drop : OpType) (ops : List DiffOp) : List Text :=
  (ops.filter fun op => op.type ≠ drop).map (·.line)

def lineText (l : DiffLine) : Text := l.parts.flatMap (·.text)

/-- The texts of all lines of the view except those of type `drop`. -/
def sideLines (drop : OpType) (lines : List DiffLine) : List Text :=
  (lines.filter fun l => l.type ≠ drop).map lineText

variable (drop : OpType) (ops : List DiffOp)

theorem sideOps_append (ops' : List DiffOp) :
    sideOps drop (ops ++ ops') = sideOps drop ops ++ sideOps drop ops' := by
  simp [sideOps]

theorem sideLines_append (lines lines' : List DiffLine) :
    sideLines drop (lines ++ lines') = sideLines drop lines ++ sideLines drop lines' := by
  simp [sideLines]

theorem sideOps_map_mk (type : OpType) (lines : List Text) :
    sideOps drop (lines.map fun line => ⟨type, line⟩) = if type = drop then [] else lines := by
  by_cases h : type = drop <;> simp [sideOps, List.filter_map, Function.comp_def, h]

theorem sideOps_walk (steps : List (Lcs.Step Text)) :
    sideOps .add (steps.map lineOp) = Lcs.lefts steps ∧
      sideOps .del (steps.map lineOp) = Lcs.rights steps := by
  induction steps with
  | nil => exact ⟨rfl, rfl⟩
  | cons step steps ih =>
    obtain ⟨hleft, hright⟩ := ih
    cases step <;> simp_all [sideOps, lineOp, Lcs.lefts, Lcs.rights]

theorem sideOps_lineDiff (oldText newText : Text) :
    sideOps .add (lineDiff oldText newText) = splitLines oldText ∧
      sideOps .del (lineDiff oldText newText) = splitLines newText := by
  rw [lineDiff]
  split_ifs with heq hbudget
  · rw [sideOps_map_mk, sideOps_map_mk, heq]
    exact ⟨rfl, rfl⟩
  · rw [sideOps_append, sideOps_append, sideOps_map_mk, sideOps_map_mk, sideOps_map_mk,
      sideOps_map_mk]
    exact ⟨List.append_nil _, rfl⟩
  · obtain ⟨hleft, hright⟩ := sideOps_walk (Lcs.lcsWalk (splitLines oldText) (splitLines newText))
    rw [hleft, hright, Lcs.lefts_lcsWalk, Lcs.rights_lcsWalk]
    exact ⟨rfl, rfl⟩

theorem flatMap_filter_parts (parts : List WordOp) :
    (parts.filter fun p => p.type ≠ drop).flatMap (·.text) = sideText drop parts := by
  induction parts with
  | nil => rfl
  | cons p parts ih =>
    rw [sideText, List.flatMap_cons, ← sideText, ← ih]
    by_cases h : p.type = drop <;> simp [h]

theorem lineText_whole (op : DiffOp) : lineText (whole op) = op.line := by
  simp [lineText, whole]

theorem sideLines_map_whole : sideLines drop (ops.map whole) = sideOps drop ops := by
  rw [sideLines, sideOps, List.filter_map, List.map_map]
  exact List.map_congr_left fun op _ => lineText_whole op

theorem sideLines_pairLines {del add : DiffOp} (hdel : del.type = .del) (hadd : add.type = .add) :
    sideLines .add (pairLines del add) = [del.line] ∧
      sideLines .del (pairLines del add) = [add.line] := by
  rw [pairLines]
  split_ifs
  · have hold := oldSide_wordDiff del.line add.line
    have hnew := newSide_wordDiff del.line add.line
    rw [oldSide, ← flatMap_filter_parts] at hold
    rw [newSide, ← flatMap_filter_parts] at hnew
    simp only [sideLines]
    constructor
    · simpa [lineText] using hold
    · simpa [lineText] using hnew
  · simp [sideLines, whole, lineText, hdel, hadd]

theorem sideLines_zip {dels adds : List DiffOp} (hdels : ∀ op ∈ dels, op.type = .del)
    (hadds : ∀ op ∈ adds, op.type = .add) :
    sideLines .add ((List.zipWith pairLines dels adds).flatten) =
        (dels.take (min dels.length adds.length)).map (·.line) ∧
      sideLines .del ((List.zipWith pairLines dels adds).flatten) =
        (adds.take (min dels.length adds.length)).map (·.line) := by
  induction dels generalizing adds with
  | nil => simp [sideLines]
  | cons del dels ih =>
    cases adds with
    | nil => simp [sideLines]
    | cons add adds =>
      rw [List.forall_mem_cons] at hdels hadds
      obtain ⟨hold, hnew⟩ := sideLines_pairLines hdels.1 hadds.1
      obtain ⟨ihold, ihnew⟩ := ih hdels.2 hadds.2
      rw [List.zipWith_cons_cons, List.flatten_cons, sideLines_append, sideLines_append, hold, hnew,
        ihold, ihnew, List.length_cons, List.length_cons, Nat.succ_min_succ]
      exact ⟨rfl, rfl⟩

variable {run : List DiffOp}

theorem sideLines_zipRun (hrun : ∀ op ∈ run, op.type ≠ .same) :
    sideLines .add (zipRun run) = sideOps .add run ∧
      sideLines .del (zipRun run) = sideOps .del run := by
  have hdels : ∀ op ∈ run.filter (fun op => op.type = .del), op.type = .del := fun op hop =>
    of_decide_eq_true (List.mem_filter.mp hop).2
  have hadds : ∀ op ∈ run.filter (fun op => op.type = .add), op.type = .add := fun op hop =>
    of_decide_eq_true (List.mem_filter.mp hop).2
  have hold : run.filter (fun op => op.type ≠ .add) = run.filter fun op => op.type = .del := by
    refine List.filter_congr fun op hop => ?_
    have := hrun op hop
    cases h : op.type <;> simp_all
  have hnew : run.filter (fun op => op.type ≠ .del) = run.filter fun op => op.type = .add := by
    refine List.filter_congr fun op hop => ?_
    have := hrun op hop
    cases h : op.type <;> simp_all
  have hnone (type drop : OpType) (h : type = drop) (n : ℕ) : sideOps drop
      ((run.filter fun op => op.type = type).drop n) = [] := by
    rw [sideOps, List.filter_eq_nil_iff.mpr, List.map_nil]
    intro op hop
    have := of_decide_eq_true (List.mem_filter.mp (List.mem_of_mem_drop hop)).2
    simp [this, h]
  have hevery (type drop : OpType) (h : type ≠ drop) (n : ℕ) : sideOps drop
      ((run.filter fun op => op.type = type).drop n) =
        ((run.filter fun op => op.type = type).drop n).map (·.line) := by
    rw [sideOps, List.filter_eq_self.mpr]
    intro op hop
    have := of_decide_eq_true (List.mem_filter.mp (List.mem_of_mem_drop hop)).2
    simp [this, h]
  obtain ⟨hzipold, hzipnew⟩ := sideLines_zip hdels hadds
  rw [zipRun]
  simp only [sideLines_append, sideLines_map_whole]
  rw [hzipold, hzipnew, hnone .add .add rfl, hnone .del .del rfl, hevery .del .add (by decide),
    hevery .add .del (by decide), List.append_nil, List.append_nil, ← List.map_append,
    ← List.map_append, List.take_append_drop, List.take_append_drop, ← hold, ← hnew]
  exact ⟨rfl, rfl⟩

/-- **The loop keeps every line**: of the run it is in and of what follows. -/
theorem sideLines_diffRuns (hrun : ∀ op ∈ run, op.type ≠ .same) :
    sideLines .add (diffRuns run ops) = sideOps .add (run ++ ops) ∧
      sideLines .del (diffRuns run ops) = sideOps .del (run ++ ops) := by
  induction ops generalizing run with
  | nil =>
    rw [diffRuns, List.append_nil]
    exact sideLines_zipRun hrun
  | cons op ops ih =>
    rw [diffRuns]
    split_ifs with hsame
    · -- an unchanged line ends the run
      obtain ⟨hzipold, hzipnew⟩ := sideLines_zipRun hrun
      obtain ⟨ihold, ihnew⟩ := ih (List.forall_mem_nil _)
      rw [List.nil_append] at ihold ihnew
      have hline (drop : OpType) (hdrop : drop ≠ .same) (lines : List DiffLine) :
          sideLines drop (⟨.same, [⟨.same, op.line⟩]⟩ :: lines) =
            op.line :: sideLines drop lines := by
        simp [sideLines, lineText, hdrop.symm]
      have hop (drop : OpType) (hdrop : drop ≠ .same) :
          sideOps drop (op :: ops) = op.line :: sideOps drop ops := by
        simp [sideOps, hsame, hdrop.symm]
      rw [sideLines_append, sideLines_append, hzipold, hzipnew, hline _ (by decide),
        hline _ (by decide), ihold, ihnew, sideOps_append, sideOps_append, hop _ (by decide),
        hop _ (by decide)]
      exact ⟨rfl, rfl⟩
    · have hrun' : ∀ op' ∈ run ++ [op], op'.type ≠ .same := by
        simpa [or_imp, forall_and, hsame] using hrun
      rw [List.append_cons run op ops]
      exact ih hrun'

/-! ### The parts of a line -/

/-- Whether a line holds only common parts and parts of its own type. -/
def PartsFit (l : DiffLine) : Prop := ∀ p ∈ l.parts, p.type = .same ∨ p.type = l.type

theorem partsFit_whole (op : DiffOp) : PartsFit (whole op) := by simp [PartsFit, whole]

theorem partsFit_pairLines {del add : DiffOp} {l : DiffLine} (hdel : del.type = .del)
    (hadd : add.type = .add) (h : l ∈ pairLines del add) : PartsFit l ∧ l.type ≠ .same := by
  rw [pairLines] at h
  split_ifs at h
  · have hfilter (type drop : OpType) (hne : ∀ t : OpType, t ≠ drop → t = .same ∨ t = type) :
        PartsFit ⟨type, (wordDiff del.line add.line).filter fun p => p.type ≠ drop⟩ := by
      intro p hp
      exact hne p.type (of_decide_eq_true (List.mem_filter.mp hp).2)
    simp only [List.mem_cons, List.not_mem_nil, or_false] at h
    rcases h with rfl | rfl
    · exact ⟨hfilter .del .add (fun t => by cases t <;> decide), by simp⟩
    · exact ⟨hfilter .add .del (fun t => by cases t <;> decide), by simp⟩
  · simp only [List.mem_cons, List.not_mem_nil, or_false] at h
    rcases h with rfl | rfl
    · exact ⟨partsFit_whole del, by simp [whole, hdel]⟩
    · exact ⟨partsFit_whole add, by simp [whole, hadd]⟩

theorem partsFit_zipRun {l : DiffLine} (h : l ∈ zipRun run) : PartsFit l ∧ l.type ≠ .same := by
  have htype {type : OpType} {op : DiffOp} (hop : op ∈ run.filter fun op => op.type = type) :
      op.type = type := of_decide_eq_true (List.mem_filter.mp hop).2
  have hwhole {type : OpType} {n : ℕ} (hne : type ≠ .same)
      (hl : l ∈ ((run.filter fun op => op.type = type).drop n).map whole) :
      PartsFit l ∧ l.type ≠ .same := by
    obtain ⟨op, hop, rfl⟩ := List.mem_map.mp hl
    exact ⟨partsFit_whole op, by rw [whole, htype (List.mem_of_mem_drop hop)]; exact hne⟩
  rw [zipRun, List.mem_append, List.mem_append] at h
  rcases h with (h | h) | h
  · obtain ⟨lines, hlines, hl⟩ := List.mem_flatten.mp h
    rw [← List.map_uncurry_zip_eq_zipWith, List.mem_map] at hlines
    obtain ⟨⟨del, add⟩, hpair, rfl⟩ := hlines
    obtain ⟨hdel, hadd⟩ := List.of_mem_zip hpair
    exact partsFit_pairLines (htype hdel) (htype hadd) hl
  · exact hwhole (by decide) h
  · exact hwhole (by decide) h

theorem partsFit_diffRuns : ∀ l ∈ diffRuns run ops, PartsFit l := by
  induction ops generalizing run with
  | nil => exact fun l hl => (partsFit_zipRun hl).1
  | cons op ops ih =>
    rw [diffRuns]
    split_ifs
    · intro l hl
      rcases List.mem_append.mp hl with hl | hl
      · exact (partsFit_zipRun hl).1
      · rcases List.mem_cons.mp hl with rfl | hl
        · exact partsFit_whole ⟨.same, op.line⟩
        · exact ih l hl
    · exact ih

theorem countP_diffRuns :
    (diffRuns run ops).countP (fun l => l.type = .same) = ops.countP fun op => op.type = .same := by
  have hzip (run : List DiffOp) : (zipRun run).countP (fun l => l.type = .same) = 0 :=
    List.countP_eq_zero.mpr fun l hl => by simpa using (partsFit_zipRun hl).2
  induction ops generalizing run with
  | nil => exact hzip run
  | cons op ops ih =>
    rw [diffRuns]
    split_ifs with hsame
    · rw [List.countP_append, hzip, List.countP_cons, ih, List.countP_cons]
      simp [hsame]
    · rw [ih, List.countP_cons]
      simp [hsame]

/-! ### The longest common part -/

theorem isGreatest_countP_lineDiff {oldText newText : Text}
    (hbudget : ((splitLines oldText).length + 1) * ((splitLines newText).length + 1) ≤
      LCS_CELL_BUDGET) :
    IsGreatest {k | ∃ c : List Text, c.Sublist (splitLines oldText) ∧
      c.Sublist (splitLines newText) ∧ c.length = k}
      ((lineDiff oldText newText).countP fun op => op.type = .same) := by
  rw [lineDiff]
  split_ifs with heq hover
  · subst heq
    have hall : ((splitLines oldText).map fun line => (⟨.same, line⟩ : DiffOp)).countP
        (fun op => op.type = .same) = (splitLines oldText).length := by
      simp [List.countP_map, Function.comp_def]
    rw [hall]
    refine ⟨⟨_, .refl _, .refl _, rfl⟩, ?_⟩
    rintro k ⟨c, hc, -, rfl⟩
    exact hc.length_le
  · exact absurd hover (by omega)
  · have hcount (steps : List (Lcs.Step Text)) :
        (steps.map lineOp).countP (fun op => op.type = .same) = Lcs.commons steps := by
      rw [Lcs.commons, List.countP_map]
      congr 1
      funext step
      cases step <;> rfl
    rw [hcount, Lcs.commons_lcsWalk]
    exact Lcs.isGreatest_lcsLength _ _

/-- **The view holds both texts**, line by line and in order; every line shows parts of its own type
and common ones only; and within the budget as many lines are unchanged as possible. -/
theorem lineDiffWithWords_right (oldText newText : Text) :
    sideLines .add (lineDiffWithWords oldText newText) = splitLines oldText ∧
      sideLines .del (lineDiffWithWords oldText newText) = splitLines newText ∧
      (∀ l ∈ lineDiffWithWords oldText newText, PartsFit l) ∧
      (((splitLines oldText).length + 1) * ((splitLines newText).length + 1) ≤ LCS_CELL_BUDGET →
        IsGreatest {k | ∃ c : List Text, c.Sublist (splitLines oldText) ∧
          c.Sublist (splitLines newText) ∧ c.length = k}
          ((lineDiffWithWords oldText newText).countP fun l => l.type = .same)) := by
  obtain ⟨hold, hnew⟩ := sideOps_lineDiff oldText newText
  obtain ⟨hlinesold, hlinesnew⟩ :=
    sideLines_diffRuns (lineDiff oldText newText) (List.forall_mem_nil _)
  rw [List.nil_append] at hlinesold hlinesnew
  refine ⟨hlinesold.trans hold, hlinesnew.trans hnew, partsFit_diffRuns _, fun hbudget => ?_⟩
  rw [lineDiffWithWords, countP_diffRuns]
  exact isGreatest_countP_lineDiff hbudget

/-- One of two lines stays. -/
theorem lineDiffWithWords_right_vote : IsGreatest
    {k | ∃ c : List Text, c.Sublist (splitLines ['Y', '\n', 'N']) ∧
      c.Sublist (splitLines ['N', '\n']) ∧ c.length = k}
    ((lineDiffWithWords ['Y', '\n', 'N'] ['N', '\n']).countP fun l => l.type = .same) :=
  (lineDiffWithWords_right ['Y', '\n', 'N'] ['N', '\n']).2.2.2 (by decide)

end DrepTalk
