import DrepTalk.Surveys.TallyView

/-!
# Two tallies of one question side by side

`alignIndices` of `src/lib/surveys/tallyJoin.ts`. The weighted run and the head count of a question
may have different options answered, and their views are read one against the other by position. So
each gets an empty entry for every option that only the other has. A numeric question has bins by
value, of which the position says nothing, and is left alone.

**Neutral**: the views of an aligned pair describe the same options in the same order, and what a
view says of an option, of the whole question and of its median is what it said before
(`alignIndices_neutral`).
-/

namespace DrepTalk

/-! ### The join -/

/-- `fill` of both kinds: `all` are the indices of either side. -/
def fillIndices {β : Type*} (index : β → ℕ) (blank : ℕ → β) (all : List ℕ) (entries : List β) :
    List β :=
  let extra := (all.filter fun i => !(entries.map index).contains i).map blank
  if extra.isEmpty then entries
  else (entries ++ extra).insertionSort fun a b => index a ≤ index b

def alignIndices : ArtifactQuestion → ArtifactQuestion → ArtifactQuestion × ArtifactQuestion
  | .options unit options count weight, .options unit' options' count' weight' =>
    let all := (options.map OptionTally.index ++ options'.map OptionTally.index).eraseDups
    let fill := fillIndices OptionTally.index (fun i => ⟨i, 0, 0⟩) all
    (.options unit (fill options) count weight, .options unit' (fill options') count' weight')
  | .perOption unit options count weight, .perOption unit' options' count' weight' =>
    let all := (options.map PerOptionTally.index ++ options'.map PerOptionTally.index).eraseDups
    let fill := fillIndices PerOptionTally.index (fun i => ⟨i, 0, some 0, 0⟩) all
    (.perOption unit (fill options) count weight, .perOption unit' (fill options') count' weight')
  | w, h => (w, h)

/-! ### What a view says of an option -/

inductive QuestionKind
  | options
  | numeric
  | perOption
  | custom

/-- Tallies of one question are of one kind. -/
def ArtifactQuestion.kind : ArtifactQuestion → QuestionKind
  | options .. => .options
  | numeric .. => .numeric
  | perOption .. => .perOption
  | custom .. => .custom

/-- The indices of the option entries. -/
def ArtifactQuestion.indices : ArtifactQuestion → List ℕ
  | options _ entries _ _ => entries.map OptionTally.index
  | perOption _ entries _ _ => entries.map PerOptionTally.index
  | numeric .. | custom .. => []

inductive OptionFigures
  | bar (b : BarView)
  | row (r : RowView)

def OptionFigures.label : OptionFigures → String
  | bar b => b.label
  | row r => r.label

def OptionFigures.IsBlank : OptionFigures → Prop
  | bar b => b.weight = 0 ∧ b.count = 0 ∧ b.frac = 0
  | row r => r.avg = none ∧ r.count = 0

/-- The rows of a view that are about one option each. -/
def QuestionView.optionRows : QuestionView → List OptionFigures
  | bars _ views _ _ => views.map .bar
  | rows _ views _ _ => views.map .row
  | histogram .. | custom .. => []

def QuestionView.withoutRows : QuestionView → QuestionView
  | bars unit _ count weight => bars unit [] count weight
  | rows unit _ count weight => rows unit [] count weight
  | view => view

section

variable (number : String → ℚ) (optionLabelOf : Option SurveyQuestion → ℕ → String)
  (q : Option SurveyQuestion)

/-- The option that each position of a view is about. -/
def optionIndices : ArtifactQuestion → List ℕ
  | .options _ options _ _ => renderIndices q (options.map OptionTally.index)
  | .perOption _ options _ _ => renderIndices q (options.map PerOptionTally.index)
  | .numeric .. | .custom .. => []

/-- The rows of a view, each with its option. -/
def indexedRows (aq : ArtifactQuestion) : List (ℕ × OptionFigures) :=
  (optionIndices q aq).zip (questionView number optionLabelOf q aq).optionRows

/-- `aq'` is shown as `aq` is, with blank rows for more options. -/
structure Neutral (aq aq' : ArtifactQuestion) : Prop where
  described : (questionView number optionLabelOf q aq').optionRows.length =
    (optionIndices q aq').length
  labels : ∀ p ∈ indexedRows number optionLabelOf q aq', p.2.label = optionLabelOf q p.1
  totals : (questionView number optionLabelOf q aq').withoutRows =
    (questionView number optionLabelOf q aq).withoutRows
  kept : ((indexedRows number optionLabelOf q aq').filter fun p =>
    (optionIndices q aq).contains p.1) = indexedRows number optionLabelOf q aq
  injected : ∀ p ∈ indexedRows number optionLabelOf q aq', p.1 ∉ optionIndices q aq →
    p.2.IsBlank

end

/-! ### Filled entries -/

section

variable {β : Type*} {index : β → ℕ} {blank : ℕ → β} {all : List ℕ} {entries : List β}

theorem mem_fillIndices {e : β} : e ∈ fillIndices index blank all entries ↔
    e ∈ entries ∨ ∃ i ∈ all, i ∉ entries.map index ∧ blank i = e := by
  rw [fillIndices]
  have hextra : e ∈ ((all.filter fun i => !(entries.map index).contains i).map blank) ↔
      ∃ i ∈ all, i ∉ entries.map index ∧ blank i = e := by
    simp [and_assoc]
  split_ifs with hnone
  · rw [← hextra, List.isEmpty_iff.mp hnone]
    simp
  · rw [List.mem_insertionSort, List.mem_append, hextra]

variable {i : ℕ} {populated populated' : List ℕ}

theorem entryAt_eq_some {e : β} (he : e ∈ entries) (hi : index e = i)
    (hunique : ∀ e' ∈ entries, index e' = i → e' = e) : entryAt index entries i = some e := by
  rw [entryAt]
  rcases hfound : entries.reverse.find? fun e => index e == i with _ | e'
  · exact absurd (List.find?_eq_none.mp hfound e (List.mem_reverse.mpr he)) (by simp [hi])
  · have hindex := List.find?_some hfound
    exact congrArg some (hunique e' (List.mem_reverse.mp (List.mem_of_find?_eq_some hfound))
      (beq_iff_eq.mp hindex))

theorem entryAt_eq_none (hnone : i ∉ entries.map index) : entryAt index entries i = none := by
  refine List.find?_eq_none.mpr fun e he => ?_
  rw [beq_iff_eq]
  rintro rfl
  exact hnone (List.mem_map_of_mem (List.mem_reverse.mp he))

theorem entryAt_fillIndices (all : List ℕ) (hblank : ∀ i, index (blank i) = i) (hnodup : (entries.map index).Nodup)
    (i : ℕ) : entryAt index (fillIndices index blank all entries) i =
      if i ∈ entries.map index then entryAt index entries i
      else if i ∈ all then some (blank i) else none := by
  split_ifs with hold hall
  · obtain ⟨e, he, rfl⟩ := List.mem_map.mp hold
    have hunique : ∀ e' ∈ entries, index e' = index e → e' = e := fun e' he' heq =>
      List.inj_on_of_nodup_map hnodup he' he heq
    rw [entryAt_eq_some he rfl hunique]
    refine entryAt_eq_some (mem_fillIndices.mpr (.inl he)) rfl fun e' he' heq => ?_
    rcases mem_fillIndices.mp he' with hmem | ⟨j, -, hnew, rfl⟩
    · exact hunique e' hmem heq
    · rw [hblank] at heq
      exact absurd hold (heq ▸ hnew)
  · refine entryAt_eq_some (mem_fillIndices.mpr (.inr ⟨i, hall, hold, rfl⟩)) (hblank i)
      fun e' he' heq => ?_
    rcases mem_fillIndices.mp he' with hmem | ⟨j, -, -, rfl⟩
    · exact absurd (heq ▸ List.mem_map_of_mem hmem) hold
    · rw [hblank] at heq
      rw [heq]
  · refine entryAt_eq_none fun hmem => ?_
    obtain ⟨e, he, rfl⟩ := List.mem_map.mp hmem
    rcases mem_fillIndices.mp he with hmem | ⟨j, hj, -, rfl⟩
    · exact hold (List.mem_map_of_mem hmem)
    · exact hall ((hblank j).symm ▸ hj)

theorem toFinset_fillIndices (hblank : ∀ i, index (blank i) = i) :
    ((fillIndices index blank all entries).map index).toFinset =
      (entries.map index).toFinset ∪ all.toFinset := by
  ext i
  simp only [List.mem_toFinset, List.mem_map, mem_fillIndices, Finset.mem_union]
  constructor
  · rintro ⟨e, hmem | ⟨j, hj, -, rfl⟩, rfl⟩
    · exact .inl ⟨e, hmem, rfl⟩
    · exact .inr ((hblank j).symm ▸ hj)
  · intro h
    by_cases hold : ∃ e ∈ entries, index e = i
    · obtain ⟨e, he, rfl⟩ := hold
      exact ⟨e, .inl he, rfl⟩
    · refine ⟨blank i, .inr ⟨i, h.resolve_left hold, ?_, rfl⟩, hblank i⟩
      intro e
      exact hold e

end

/-! ### The indices shown -/

theorem mem_renderIndices {q : Option SurveyQuestion} (hi : i ∈ populated) :
    i ∈ renderIndices q populated := by
  rw [renderIndices, Finset.mem_sort, Finset.mem_union, List.mem_toFinset]
  exact .inr hi

theorem renderIndices_congr {q : Option SurveyQuestion}
    (h : populated.toFinset = populated'.toFinset) :
    renderIndices q populated = renderIndices q populated' := by
  rw [renderIndices, renderIndices, h]

theorem renderIndices_filter {q : Option SurveyQuestion}
    (h : populated.toFinset ⊆ populated'.toFinset) :
    (renderIndices q populated').filter (fun i => (renderIndices q populated).contains i) =
      renderIndices q populated := by
  have hpairwise : ((renderIndices q populated').filter fun i =>
      (renderIndices q populated).contains i).Pairwise (· ≤ ·) :=
    (Finset.pairwise_sort _ _).filter _
  have hnodup : ((renderIndices q populated').filter fun i =>
      (renderIndices q populated).contains i).Nodup := (Finset.sort_nodup _ _).filter _
  rw [← (List.toFinset_sort _ hnodup).mpr hpairwise]
  conv_rhs => rw [renderIndices]
  congr 1
  ext i
  rw [List.mem_toFinset, List.mem_filter, List.contains_iff_mem, renderIndices, renderIndices,
    Finset.mem_sort, Finset.mem_sort]
  exact and_iff_right_of_imp fun hi => Finset.union_subset_union_right h hi

/-! ### The views -/

theorem maxWeight_le {weights : List ℕ} {n : ℕ} :
    maxWeight weights ≤ n ↔ ∀ w ∈ weights, w ≤ n := by
  have hfold : ∀ start, weights.foldl max start ≤ n ↔ start ≤ n ∧ ∀ w ∈ weights, w ≤ n := by
    intro start
    induction weights generalizing start with
    | nil => simp
    | cons w rest ih => rw [List.foldl_cons, ih, max_le_iff, List.forall_mem_cons, and_assoc]
  rw [maxWeight, hfold 0]
  exact and_iff_right (Nat.zero_le n)

theorem maxWeight_fillIndices (all : List ℕ) (options : List OptionTally) :
    maxWeight ((fillIndices OptionTally.index (fun i => ⟨i, 0, 0⟩) all options).map
      fun o => o.weight) = maxWeight (options.map fun o => o.weight) := by
  refine eq_of_forall_ge_iff fun n => ?_
  rw [maxWeight_le, maxWeight_le, List.forall_mem_map, List.forall_mem_map]
  constructor
  · exact fun h o ho => h o (mem_fillIndices.mpr (.inl ho))
  · intro h o ho
    rcases mem_fillIndices.mp ho with hmem | ⟨i, -, -, rfl⟩
    · exact h o hmem
    · exact Nat.zero_le n

theorem fracOf_zero (max : ℕ) : fracOf 0 max = 0 := by
  rw [fracOf]
  split_ifs
  · rfl
  · simp

section

variable {number : String → ℚ} {optionLabelOf : Option SurveyQuestion → ℕ → String}
  {q : Option SurveyQuestion} {all : List ℕ}

theorem Neutral.of_rows {aq aq' : ArtifactQuestion} (f : ℕ → OptionFigures)
    (hrows : (questionView number optionLabelOf q aq).optionRows = (optionIndices q aq).map f)
    (hrows' : (questionView number optionLabelOf q aq').optionRows = (optionIndices q aq').map f)
    (hlabel : ∀ i, (f i).label = optionLabelOf q i)
    (htotals : (questionView number optionLabelOf q aq').withoutRows =
      (questionView number optionLabelOf q aq).withoutRows)
    (hkept : ((optionIndices q aq').filter fun i => (optionIndices q aq).contains i) =
      optionIndices q aq)
    (hblank : ∀ i, i ∉ optionIndices q aq → (f i).IsBlank) :
    Neutral number optionLabelOf q aq aq' := by
  have hindexed : indexedRows number optionLabelOf q aq =
      (optionIndices q aq).map fun i => (i, f i) := by
    rw [indexedRows, hrows, List.map_prod_left_eq_zip]
  have hindexed' : indexedRows number optionLabelOf q aq' =
      (optionIndices q aq').map fun i => (i, f i) := by
    rw [indexedRows, hrows', List.map_prod_left_eq_zip]
  refine ⟨?_, fun p hp => ?_, htotals, ?_, fun p hp hnew => ?_⟩
  · rw [hrows', List.length_map]
  · rw [hindexed'] at hp
    obtain ⟨i, -, rfl⟩ := List.mem_map.mp hp
    exact hlabel i
  · rw [hindexed, hindexed', List.filter_map]
    exact congrArg _ hkept
  · rw [hindexed'] at hp
    obtain ⟨i, -, rfl⟩ := List.mem_map.mp hp
    exact hblank i hnew

theorem Neutral.refl_of_nil {aq : ArtifactQuestion} (h : optionIndices q aq = [])
    (hrows : (questionView number optionLabelOf q aq).optionRows = []) :
    Neutral number optionLabelOf q aq aq := by
  have hindexed : indexedRows number optionLabelOf q aq = [] := by
    rw [indexedRows, h, List.zip_nil_left]
  refine ⟨?_, fun p hp => ?_, rfl, ?_, fun p hp => ?_⟩
  · rw [h, hrows]
    rfl
  · rw [hindexed] at hp
    cases hp
  · rw [hindexed, List.filter_nil]
  · rw [hindexed] at hp
    cases hp

theorem optionBar_fillIndices {options : List OptionTally}
    (hnodup : (options.map OptionTally.index).Nodup) (denom i : ℕ) :
    optionBar optionLabelOf q
        (fillIndices OptionTally.index (fun i => ⟨i, 0, 0⟩) all options) denom i =
      optionBar optionLabelOf q options denom i := by
  have hblank (i : ℕ) : (⟨i, 0, 0⟩ : OptionTally).index = i := rfl
  have hfound := entryAt_fillIndices all hblank hnodup i
  rw [optionBar, optionBar, hfound]
  split_ifs with hold hall
  · rfl
  · rw [entryAt_eq_none hold]
    rfl
  · rw [entryAt_eq_none hold]

variable {options : List PerOptionTally} {count weight : ℕ}

theorem optionRow_fillIndices (hnodup : (options.map PerOptionTally.index).Nodup) (weight i : ℕ) :
    optionRow optionLabelOf q
        (fillIndices PerOptionTally.index (fun i => ⟨i, 0, some 0, 0⟩) all options) weight i =
      optionRow optionLabelOf q options weight i := by
  have hblank (i : ℕ) : (⟨i, 0, some 0, 0⟩ : PerOptionTally).index = i := rfl
  have hfound := entryAt_fillIndices all hblank hnodup i
  rw [optionRow, optionRow, hfound]
  split_ifs with hold hall
  · rfl
  · rw [entryAt_eq_none hold]
    rfl
  · rw [entryAt_eq_none hold]

theorem neutral_options {unit : OptionsUnit} {options : List OptionTally}
    (hnodup : (options.map OptionTally.index).Nodup) :
    Neutral number optionLabelOf q (.options unit options count weight)
      (.options unit (fillIndices OptionTally.index (fun i => ⟨i, 0, 0⟩) all options) count
        weight) := by
  have hdenom : shareDenominator unit
      (fillIndices OptionTally.index (fun i => ⟨i, 0, 0⟩) all options) weight =
        shareDenominator unit options weight := by
    rw [shareDenominator, shareDenominator, maxWeight_fillIndices]
  refine Neutral.of_rows (fun i => .bar (optionBar optionLabelOf q options
    (shareDenominator unit options weight) i)) ?_ ?_ (fun _ => rfl) rfl ?_ ?_
  · rw [questionView, QuestionView.optionRows, List.map_map]
    rfl
  · rw [questionView, QuestionView.optionRows, List.map_map, hdenom]
    exact List.map_congr_left fun i _ => congrArg _ (optionBar_fillIndices hnodup _ i)
  · refine renderIndices_filter ?_
    rw [toFinset_fillIndices fun _ => rfl]
    exact Finset.subset_union_left
  · intro i hnew
    have hnone : entryAt OptionTally.index options i = none :=
      entryAt_eq_none fun hmem => hnew (mem_renderIndices hmem)
    rw [optionBar, hnone]
    exact ⟨rfl, rfl, fracOf_zero _⟩

theorem neutral_perOption {unit : RowsUnit} (hnodup : (options.map PerOptionTally.index).Nodup) :
    Neutral number optionLabelOf q (.perOption unit options count weight)
      (.perOption unit (fillIndices PerOptionTally.index (fun i => ⟨i, 0, some 0, 0⟩) all options)
        count weight) := by
  refine Neutral.of_rows (fun i => .row (optionRow optionLabelOf q options weight i)) ?_ ?_
    (fun _ => rfl) rfl ?_ ?_
  · rw [questionView, QuestionView.optionRows, List.map_map]
    rfl
  · rw [questionView, QuestionView.optionRows, List.map_map]
    exact List.map_congr_left fun i _ => congrArg _ (optionRow_fillIndices hnodup _ i)
  · refine renderIndices_filter ?_
    rw [toFinset_fillIndices fun _ => rfl]
    exact Finset.subset_union_left
  · intro i hnew
    have hnone : entryAt PerOptionTally.index options i = none :=
      entryAt_eq_none fun hmem => hnew (mem_renderIndices hmem)
    rw [optionRow, hnone]
    exact ⟨rfl, rfl⟩

/-- **Aligned tallies** of one question are shown with the same options at the same positions, and
neither says anything else than before. -/
theorem alignIndices_neutral (number : String → ℚ)
    (optionLabelOf : Option SurveyQuestion → ℕ → String) (q : Option SurveyQuestion)
    {w h : ArtifactQuestion} (hkind : w.kind = h.kind) (hw : w.indices.Nodup)
    (hh : h.indices.Nodup) :
    optionIndices q (alignIndices w h).1 = optionIndices q (alignIndices w h).2 ∧
      (questionView number optionLabelOf q (alignIndices w h).1).optionRows.length =
        (questionView number optionLabelOf q (alignIndices w h).2).optionRows.length ∧
      Neutral number optionLabelOf q w (alignIndices w h).1 ∧
      Neutral number optionLabelOf q h (alignIndices w h).2 := by
  suffices hall : optionIndices q (alignIndices w h).1 = optionIndices q (alignIndices w h).2 ∧
      Neutral number optionLabelOf q w (alignIndices w h).1 ∧
      Neutral number optionLabelOf q h (alignIndices w h).2 by
    obtain ⟨hindices, hleft, hright⟩ := hall
    refine ⟨hindices, ?_, hleft, hright⟩
    rw [hleft.described, hright.described, hindices]
  cases w with
  | options unit options count weight =>
    cases h with
    | options unit' options' count' weight' =>
      refine ⟨renderIndices_congr ?_, neutral_options hw, neutral_options hh⟩
      rw [toFinset_fillIndices fun _ => rfl, toFinset_fillIndices fun _ => rfl]
      ext i
      simp only [Finset.mem_union, List.mem_toFinset, List.mem_eraseDups, List.mem_append]
      tauto
    | numeric => cases hkind
    | perOption => cases hkind
    | custom => cases hkind
  | perOption unit options count weight =>
    cases h with
    | perOption unit' options' count' weight' =>
      refine ⟨renderIndices_congr ?_, neutral_perOption hw, neutral_perOption hh⟩
      rw [toFinset_fillIndices fun _ => rfl, toFinset_fillIndices fun _ => rfl]
      ext i
      simp only [Finset.mem_union, List.mem_toFinset, List.mem_eraseDups, List.mem_append]
      tauto
    | numeric => cases hkind
    | options => cases hkind
    | custom => cases hkind
  | numeric values sum count weight =>
    cases h with
    | numeric => exact ⟨rfl, .refl_of_nil rfl rfl, .refl_of_nil rfl rfl⟩
    | options => cases hkind
    | perOption => cases hkind
    | custom => cases hkind
  | custom count weight =>
    cases h with
    | custom => exact ⟨rfl, .refl_of_nil rfl rfl, .refl_of_nil rfl rfl⟩
    | options => cases hkind
    | perOption => cases hkind
    | numeric => cases hkind

/-- One option by weight, and two by heads. -/
theorem alignIndices_neutral_runs :
    Neutral wholeValue (fun _ i => toString i) none (.options .singleChoice [⟨2, 5, 1⟩] 1 5)
      (.options .singleChoice [⟨0, 0, 0⟩, ⟨2, 5, 1⟩] 1 5) :=
  (alignIndices_neutral wholeValue (fun _ i => toString i) none
    (w := .options .singleChoice [⟨2, 5, 1⟩] 1 5)
    (h := .options .singleChoice [⟨2, 1, 1⟩, ⟨0, 1, 1⟩] 2 2) rfl (by decide) (by decide)).2.2.1

end

end DrepTalk
