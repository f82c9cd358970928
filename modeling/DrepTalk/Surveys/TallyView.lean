import DrepTalk.Format.Decimal
import DrepTalk.Library.Median
import Mathlib.Data.Finset.Sort
import Mathlib.Tactic.NormNum
import Mathlib.Tactic.Ring

/-!
# A survey tally as it is shown

`src/lib/surveys/tallyView.ts` makes the tally of one question ready for the page (`questionView`).
A tally is sparse: it has the options that were answered, in any order. The view fills in those that
were declared, up to a cap, so that an option without an answer still has its row.

**The median** of a numeric question is where half the answered weight has accumulated
(`weightedMedian`), and it is the ordinary median of the values, each as often as it weighs
(`weightedMedian_eq`). Bins without weight, which a responder without voting power leaves behind,
have no part in it.

The decimal strings of weights and sums are the integers they denote, and the numbers shown are
exact. What the value of a bin is as a number is a parameter, as is the label of an option.
-/

namespace DrepTalk

/-! ### Tallies -/

/-- `options` of a question: the declared labels, or only their number. -/
inductive QuestionOptions
  | options (labels : List String)
  | count (count : ℕ)

structure SurveyQuestion where
  options : Option QuestionOptions

inductive OptionsUnit
  | singleChoice
  | multiSelect
  | rankingFirst
  deriving DecidableEq

inductive RowsUnit
  | points
  | rating

structure OptionTally where
  index : ℕ
  weight : ℕ
  count : ℕ

structure NumericBin where
  value : String
  weight : ℕ
  count : ℕ

/-- Points omits the denominator of an option. -/
structure PerOptionTally where
  index : ℕ
  weightedSum : ℤ
  answeredWeight : Option ℕ
  count : ℕ

inductive ArtifactQuestion
  | options (unit : OptionsUnit) (options : List OptionTally) (answeredCount answeredWeight : ℕ)
  | numeric (values : List NumericBin) (weightedSum : ℤ) (answeredCount answeredWeight : ℕ)
  | perOption (unit : RowsUnit) (perOption : List PerOptionTally)
    (answeredCount answeredWeight : ℕ)
  | custom (answeredCount answeredWeight : ℕ)

/-! ### Views -/

structure BarView where
  label : String
  weight : ℕ
  count : ℕ
  frac : ℚ

structure RowView where
  label : String
  avg : Option ℚ
  count : ℕ

inductive QuestionView
  | bars (unit : OptionsUnit) (bars : List BarView) (answeredCount answeredWeight : ℕ)
  | histogram (bins : List BarView) (mean median : Option ℚ) (answeredCount answeredWeight : ℕ)
  | rows (unit : RowsUnit) (rows : List RowView) (answeredCount answeredWeight : ℕ)
  | custom (answeredCount answeredWeight : ℕ)

/-- The share of a part, to four places. -/
def fracOf (part max : ℕ) : ℚ := if max ≤ 0 then 0 else ((part * 10000 / max : ℕ) : ℚ) / 10000

def ratioOf (num : ℤ) (den : ℕ) : Option ℚ :=
  if den ≤ 0 then none else some (((num * 10000).tdiv den : ℤ) / 10000)

def MAX_DISPLAY_BUCKETS : ℕ := 1000

def maxWeight (weights : List ℕ) : ℕ := weights.foldl max 0

def barViews (labels : List String) (weights counts : List ℕ) : List BarView :=
  labels.mapIdx fun i label =>
    { label
      weight := weights.getD i 0
      count := counts.getD i 0
      frac := fracOf (weights.getD i 0) (maxWeight weights) }

def declaredOptionCount (q : Option SurveyQuestion) : Option ℕ :=
  (q.bind fun q => q.options).map fun
    | .options labels => labels.length
    | .count count => count

/-- The option indices that are shown, in their order. -/
def renderIndices (q : Option SurveyQuestion) (populated : List ℕ) : List ℕ :=
  (((declaredOptionCount q).map fun declared =>
    Finset.range (min declared MAX_DISPLAY_BUCKETS)).getD ∅ ∪ populated.toFinset).sort (· ≤ ·)

section

variable (number : String → ℚ)

/-- The scan of `weightedMedian`, with the weight of the bins before. -/
def medianScan (answeredWeight : ℕ) : ℕ → List NumericBin → Option ℚ
  | _, [] => none
  | cumulative, bin :: rest =>
    if answeredWeight < (cumulative + bin.weight) * 2 then some (number bin.value)
    else if (cumulative + bin.weight) * 2 = answeredWeight then
      match rest.find? fun next => 0 < next.weight with
      | some next => some ((number bin.value + number next.value) / 2)
      | none => some (number bin.value)
    else medianScan answeredWeight (cumulative + bin.weight) rest

def weightedMedian (bins : List NumericBin) (answeredWeight : ℕ) : Option ℚ :=
  if answeredWeight ≤ 0 then none else medianScan number answeredWeight 0 bins

/-- The entry that a map keeps for an index: the last. -/
def entryAt {β : Type*} (index : β → ℕ) (entries : List β) (i : ℕ) : Option β :=
  entries.reverse.find? fun e => index e == i

variable (optionLabelOf : Option SurveyQuestion → ℕ → String) (q : Option SurveyQuestion)

def optionBar (options : List OptionTally) (denom index : ℕ) : BarView :=
  let o := entryAt OptionTally.index options index
  let weight := (o.map fun o => o.weight).getD 0
  { label := optionLabelOf q index
    weight
    count := (o.map fun o => o.count).getD 0
    frac := fracOf weight denom }

/-- The row of a rated option; where it has no denominator, that of the question is taken. -/
def optionRow (perOption : List PerOptionTally) (answeredWeight index : ℕ) : RowView :=
  let o := entryAt PerOptionTally.index perOption index
  let denom := (o.bind fun o => o.answeredWeight).getD answeredWeight
  { label := optionLabelOf q index
    avg := o.bind fun o => ratioOf o.weightedSum denom
    count := (o.map fun o => o.count).getD 0 }

/-- Of a single choice the shares are of the whole, else of the leading option. -/
def shareDenominator (unit : OptionsUnit) (options : List OptionTally) (answeredWeight : ℕ) : ℕ :=
  if unit = .singleChoice then answeredWeight else maxWeight (options.map fun o => o.weight)

def questionView : ArtifactQuestion → QuestionView
  | .options unit options answeredCount answeredWeight =>
    .bars unit ((renderIndices q (options.map fun o => o.index)).map
        (optionBar optionLabelOf q options (shareDenominator unit options answeredWeight)))
      answeredCount answeredWeight
  | .numeric values weightedSum answeredCount answeredWeight =>
    .histogram (barViews (values.map fun v => v.value) (values.map fun v => v.weight)
        (values.map fun v => v.count))
      (ratioOf weightedSum answeredWeight) (weightedMedian number values answeredWeight)
      answeredCount answeredWeight
  | .perOption unit perOption answeredCount answeredWeight =>
    .rows unit ((renderIndices q (perOption.map fun o => o.index)).map
        (optionRow optionLabelOf q perOption answeredWeight))
      answeredCount answeredWeight
  | .custom answeredCount answeredWeight => .custom answeredCount answeredWeight

end

/-! ### The median -/

def totalWeight (bins : List NumericBin) : ℕ := (bins.map fun b => b.weight).sum

section

variable (number : String → ℚ)

def occurrences (bins : List NumericBin) : List ℚ :=
  bins.flatMap fun b => List.replicate b.weight (number b.value)

variable {number} {bins : List NumericBin}

theorem length_occurrences (bins : List NumericBin) :
    (occurrences number bins).length = totalWeight bins := by
  simp [occurrences, totalWeight, List.length_flatMap]

theorem totalWeight_cons (b : NumericBin) (rest : List NumericBin) :
    totalWeight (b :: rest) = b.weight + totalWeight rest := List.sum_cons

theorem occurrences_cons (b : NumericBin) (rest : List NumericBin) :
    occurrences number (b :: rest) =
      List.replicate b.weight (number b.value) ++ occurrences number rest := List.flatMap_cons

theorem occurrences_pairwise
    (hsorted : bins.Pairwise fun a b => number a.value ≤ number b.value) :
    (occurrences number bins).Pairwise (· ≤ ·) := by
  induction bins with
  | nil => exact .nil
  | cons b rest ih =>
    obtain ⟨hfirst, hrest⟩ := List.pairwise_cons.mp hsorted
    rw [occurrences_cons, List.pairwise_append]
    refine ⟨List.pairwise_replicate.mpr (.inr le_rfl), ih hrest, fun x hx y hy => ?_⟩
    obtain ⟨c, hc, hmem⟩ := List.mem_flatMap.mp hy
    rw [List.eq_of_mem_replicate hx, List.eq_of_mem_replicate hmem]
    exact hfirst c hc

theorem occurrences_of_find? {next : NumericBin}
    (hnext : bins.find? (fun b => 0 < b.weight) = some next) :
    ∃ tail, occurrences number bins = number next.value :: tail := by
  induction bins with
  | nil => cases hnext
  | cons b rest ih =>
    rw [occurrences_cons]
    by_cases hweight : 0 < b.weight
    · rw [List.find?_cons_of_pos (by simpa using hweight)] at hnext
      cases hnext
      obtain ⟨k, hk⟩ := Nat.exists_eq_succ_of_ne_zero hweight.ne'
      rw [hk, List.replicate_succ]
      exact ⟨_, rfl⟩
    · rw [List.find?_cons_of_neg (by simpa using hweight)] at hnext
      rw [Nat.eq_zero_of_not_pos hweight]
      exact ih hnext

theorem occurrences_of_find?_none (hnone : bins.find? (fun b => 0 < b.weight) = none) :
    occurrences number bins = [] := by
  refine List.flatMap_eq_nil_iff.mpr fun b hb => ?_
  have hzero := List.find?_eq_none.mp hnone b hb
  rw [decide_eq_true_eq, Nat.not_lt, Nat.le_zero] at hzero
  rw [hzero]
  rfl

theorem medianScan_eq {front : List ℚ} {total : ℕ}
    (htotal : front.length + totalWeight bins = total) (hhalf : front.length * 2 < total) :
    medianScan number total front.length bins = middle (front ++ occurrences number bins) := by
  induction bins generalizing front with
  | nil =>
    exact absurd htotal (by rw [totalWeight, List.map_nil, List.sum_nil]; omega)
  | cons b rest ih =>
    have hrest : front.length + b.weight + (occurrences number rest).length = total := by
      rw [length_occurrences, ← htotal, totalWeight_cons, Nat.add_assoc]
    rw [medianScan, occurrences_cons, ← List.append_assoc]
    split_ifs with hover heven
    · -- half the weight is passed in this bin
      exact (middle_of_block hrest (by omega) (by omega)).symm
    · -- half the weight ends with this bin
      have hweight : 0 < b.weight := by omega
      obtain ⟨k, hk⟩ := Nat.exists_eq_succ_of_ne_zero hweight.ne'
      rcases hnext : rest.find? fun next => 0 < next.weight with _ | next
      · rw [occurrences_of_find?_none hnext, List.length_nil] at hrest
        omega
      · obtain ⟨tail, htail⟩ := @occurrences_of_find? number _ _ hnext
        rw [htail, hk, List.replicate_succ', ← List.append_assoc, hnext]
        refine (middle_of_halves ?_).symm
        rw [← htail, List.length_append, List.length_append, List.length_replicate,
          List.length_singleton]
        omega
    · -- more than half the weight is still to come
      have hlength : (front ++ List.replicate b.weight (number b.value)).length =
          front.length + b.weight := by rw [List.length_append, List.length_replicate]
      rw [← hlength]
      refine ih ?_ ?_
      · rw [hlength, ← @length_occurrences number rest, hrest]
      · rw [hlength]
        omega

/-- **The weighted median** is in the middle of the values, each as often as it weighs. -/
theorem weightedMedian_eq (bins : List NumericBin) :
    weightedMedian number bins (totalWeight bins) = middle (occurrences number bins) := by
  rw [weightedMedian]
  split_ifs with hnone
  · have hempty : occurrences number bins = [] := by
      rw [← List.length_eq_zero_iff, length_occurrences]
      exact Nat.le_zero.mp hnone
    rw [hempty]
    rfl
  · have hpos : ([] : List ℚ).length * 2 < totalWeight bins := Nat.not_le.mp hnone
    exact medianScan_eq (Nat.zero_add _) hpos

theorem weightedMedian_eq_none_iff (bins : List NumericBin) :
    weightedMedian number bins (totalWeight bins) = none ↔ totalWeight bins = 0 := by
  rw [weightedMedian_eq, middle_eq_none_iff, ← List.length_eq_zero_iff, length_occurrences]

theorem weightedMedian_congr {bins' : List NumericBin}
    (h : occurrences number bins' = occurrences number bins) :
    weightedMedian number bins' (totalWeight bins') =
      weightedMedian number bins (totalWeight bins) := by
  rw [weightedMedian_eq, weightedMedian_eq, h]

theorem occurrences_append (front back : List NumericBin) :
    occurrences number (front ++ back) = occurrences number front ++ occurrences number back :=
  List.flatMap_append

theorem occurrences_filter (bins : List NumericBin) :
    occurrences number (bins.filter fun b => 0 < b.weight) = occurrences number bins := by
  induction bins with
  | nil => rfl
  | cons b rest ih =>
    by_cases hweight : 0 < b.weight
    · rw [List.filter_cons_of_pos (by simpa using hweight), occurrences_cons, occurrences_cons, ih]
    · rw [List.filter_cons_of_neg (by simpa using hweight), occurrences_cons,
        Nat.eq_zero_of_not_pos hweight, ih]
      rfl

theorem occurrences_parts {parts : List NumericBin} {x : ℚ}
    (hparts : ∀ part ∈ parts, number part.value = x) :
    occurrences number parts = List.replicate (totalWeight parts) x := by
  rw [List.eq_replicate_iff, length_occurrences]
  refine ⟨rfl, fun y hy => ?_⟩
  obtain ⟨part, hpart, hmem⟩ := List.mem_flatMap.mp hy
  rw [List.eq_of_mem_replicate hmem]
  exact hparts part hpart

/-- The same values, with weights in one proportion. -/
def Scaled (number : String → ℚ) (factor : ℚ) : List NumericBin → List NumericBin → Prop :=
  List.Forall₂ fun b b' =>
    number b.value = number b'.value ∧ (b'.weight : ℚ) = factor * b.weight

variable {bins' : List NumericBin} {factor : ℚ}

theorem Scaled.totalWeight (hscaled : Scaled number factor bins bins') :
    (totalWeight bins' : ℚ) = factor * totalWeight bins := by
  induction hscaled with
  | nil => simp [DrepTalk.totalWeight]
  | cons hb _ ih => rw [totalWeight_cons, totalWeight_cons, Nat.cast_add, Nat.cast_add, hb.2, ih,
      mul_add]

theorem Scaled.find? (hfactor : 0 < factor) (hscaled : Scaled number factor bins bins') :
    (bins'.find? fun b => 0 < b.weight).map (fun b => number b.value) =
      (bins.find? fun b => 0 < b.weight).map fun b => number b.value := by
  induction hscaled with
  | nil => rfl
  | @cons b b' rest rest' hb _ ih =>
    have hweight : 0 < b'.weight ↔ 0 < b.weight := by
      rw [← Nat.cast_pos (α := ℚ), hb.2, mul_pos_iff_of_pos_left hfactor, Nat.cast_pos]
    by_cases hpos : 0 < b.weight
    · rw [List.find?_cons_of_pos (by simpa using hweight.mpr hpos),
        List.find?_cons_of_pos (by simpa using hpos), Option.map_some, Option.map_some,
        hb.1]
    · rw [List.find?_cons_of_neg (by simpa using mt hweight.mp hpos),
        List.find?_cons_of_neg (by simpa using hpos), ih]

theorem medianScan_scaled (hfactor : 0 < factor) (hscaled : Scaled number factor bins bins')
    {answered answered' cumulative cumulative' : ℕ} (hanswered : (answered' : ℚ) = factor * answered)
    (hcumulative : (cumulative' : ℚ) = factor * cumulative) :
    medianScan number answered' cumulative' bins' =
      medianScan number answered cumulative bins := by
  induction hscaled generalizing cumulative cumulative' with
  | nil => rfl
  | @cons b b' rest rest' hb hrest ih =>
    have hnow : (((cumulative' + b'.weight) * 2 : ℕ) : ℚ) =
        factor * ((cumulative + b.weight) * 2 : ℕ) := by
      push_cast
      rw [hcumulative, hb.2]
      ring
    have hover : answered' < (cumulative' + b'.weight) * 2 ↔
        answered < (cumulative + b.weight) * 2 := by
      rw [← Nat.cast_lt (α := ℚ), hnow, hanswered, mul_lt_mul_iff_right₀ hfactor, Nat.cast_lt]
    have heven : (cumulative' + b'.weight) * 2 = answered' ↔
        (cumulative + b.weight) * 2 = answered := by
      rw [← Nat.cast_inj (R := ℚ), hnow, hanswered, mul_right_inj' hfactor.ne', Nat.cast_inj]
    have hnext := Scaled.find? hfactor hrest
    rw [medianScan, medianScan]
    simp only [hover, heven, hb.1]
    split_ifs with h₁ h₂
    · rfl
    · rcases hfound : rest.find? fun b => 0 < b.weight with _ | next
      · rw [hfound, Option.map_none, Option.map_eq_none_iff] at hnext
        rw [hnext, hfound]
      · rw [hfound, Option.map_some] at hnext
        obtain ⟨next', hfound', hvalue⟩ := Option.map_eq_some_iff.mp hnext
        rw [hfound', hfound]
        dsimp only
        rw [hvalue]
    · refine ih ?_
      push_cast
      rw [hcumulative, hb.2]
      ring

/-- **The median of a numeric question** is the ordinary median of the values as often as they
weigh; neither bins without weight, nor a bin in parts, nor another unit makes a difference. -/
theorem weightedMedian_spec
    (hsorted : bins.Pairwise fun a b => number a.value ≤ number b.value) :
    weightedMedian number bins (totalWeight bins) =
        median (occurrences number bins : Multiset ℚ) ∧
      (weightedMedian number bins (totalWeight bins) = none ↔ totalWeight bins = 0) ∧
      (∀ bins' : List NumericBin,
        (bins'.filter fun b => 0 < b.weight) = bins.filter (fun b => 0 < b.weight) →
        weightedMedian number bins' (totalWeight bins') =
          weightedMedian number bins (totalWeight bins)) ∧
      (∀ (front back parts : List NumericBin) (b : NumericBin), bins = front ++ b :: back →
        (∀ part ∈ parts, number part.value = number b.value) → totalWeight parts = b.weight →
        weightedMedian number (front ++ parts ++ back) (totalWeight (front ++ parts ++ back)) =
          weightedMedian number bins (totalWeight bins)) ∧
      ∀ (factor : ℚ) (bins' : List NumericBin), 0 < factor → Scaled number factor bins bins' →
        weightedMedian number bins' (totalWeight bins') =
          weightedMedian number bins (totalWeight bins) := by
  refine ⟨?_, weightedMedian_eq_none_iff bins, fun bins' hfilter => ?_, ?_, ?_⟩
  · rw [median_coe (occurrences_pairwise hsorted), weightedMedian_eq]
  · refine weightedMedian_congr ?_
    rw [← occurrences_filter bins', hfilter, occurrences_filter]
  · rintro front back parts b rfl hvalue hweight
    refine weightedMedian_congr ?_
    rw [occurrences_append, occurrences_append, occurrences_append, occurrences_cons,
      occurrences_parts hvalue, hweight, List.append_assoc]
  · intro factor bins' hfactor hscaled
    have hzero : totalWeight bins' ≤ 0 ↔ totalWeight bins ≤ 0 := by
      rw [Nat.le_zero, Nat.le_zero, ← Nat.cast_eq_zero (R := ℚ), hscaled.totalWeight,
        mul_eq_zero, or_iff_right hfactor.ne', Nat.cast_eq_zero]
    have hstart : ((0 : ℕ) : ℚ) = factor * (0 : ℕ) := by rw [Nat.cast_zero, mul_zero]
    rw [weightedMedian, weightedMedian]
    simp only [hzero]
    rw [medianScan_scaled hfactor hscaled hscaled.totalWeight hstart]

/-- The value of a bin written in digits. -/
def wholeValue (value : String) : ℚ := (digitsValue value.toList : ℕ)

/-- A bin without weight lies where the halves meet. -/
theorem weightedMedian_spec_halves :
    weightedMedian wholeValue [⟨"1", 2, 1⟩, ⟨"5", 0, 1⟩, ⟨"9", 2, 2⟩] 4 =
      median (↑[(1 : ℚ), 1, 9, 9] : Multiset ℚ) :=
  (weightedMedian_spec (by decide)).1

end

end DrepTalk
