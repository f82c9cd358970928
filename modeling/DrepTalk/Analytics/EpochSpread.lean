import DrepTalk.Analytics.EpochStats
import DrepTalk.Dreps.Concentration
import DrepTalk.Library.FoldM
import DrepTalk.Library.Gini
import Mathlib.Data.List.GetD

/-!
# How the power of an epoch is spread

`computeGini` and the whole of `computeEpochStatsRow` (`src/lib/analytics/epochStats.ts`), with the
loop that throws and the columns on the distribution of power. Real operations are exact.

**The closed form is the coefficient.** It is cut off at the sixth decimal, so it lies below the
mean-difference coefficient of the positive amounts by less than that (`epochFigures_right`).
-/

namespace DrepTalk

/-! ### The coefficient -/

/-- The loop of `computeGini`: `total` and `weighted`. -/
def giniSums (xs : List ℤ) : ℤ × ℤ :=
  xs.zipIdx.foldl (fun s x => (s.1 + x.1, s.2 + ((x.2 + 1 : ℕ) : ℤ) * x.1)) (0, 0)

def positives (amounts : List ℤ) : List ℤ := amounts.filter fun a => 0 < a

def computeGini (amounts : List ℤ) : ℚ :=
  let xs := (positives amounts).insertionSort (· ≤ ·)
  let n := xs.length
  let (total, weighted) := giniSums xs
  if n = 0 ∨ total = 0 then 0
  else max 0 (((weighted * 2000000).tdiv (n * total) : ℤ) / 1000000 - ((n : ℚ) + 1) / n)

variable {amounts amounts' : List ℤ}

theorem giniSums_eq (xs : List ℤ) : giniSums xs = (xs.sum, Gini.ranked xs) := by
  have hrun : ∀ (k : ℕ) (s : ℤ × ℤ),
      (xs.zipIdx k).foldl (fun s x => (s.1 + x.1, s.2 + ((x.2 + 1 : ℕ) : ℤ) * x.1)) s =
        (s.1 + xs.sum, s.2 + Gini.ranked xs + k * xs.sum) := by
    induction xs with
    | nil => intro k s; simp [Gini.ranked]
    | cons x xs ih =>
      intro k s
      rw [List.zipIdx_cons, List.foldl_cons, ih, List.sum_cons, Gini.ranked]
      push_cast
      refine Prod.ext (add_assoc _ _ _) ?_
      dsimp only
      ring
  simpa [giniSums] using hrun 0 (0, 0)

/-- Cut off at the sixth decimal, over the part that is subtracted again. -/
def cutGini (g shift : ℚ) : ℚ := max 0 (⌊(g + shift) * 1000000⌋ / 1000000 - shift)

theorem computeGini_eq (h : positives amounts ≠ []) :
    computeGini amounts = cutGini (Gini.coefficient (positives amounts))
      (((positives amounts).length + 1) / (positives amounts).length) := by
  have hperm := List.perm_insertionSort (· ≤ ·) (positives amounts)
  have hsorted := List.pairwise_insertionSort (· ≤ ·) (positives amounts)
  have hpos : ∀ x ∈ (positives amounts).insertionSort (· ≤ ·), 0 < x := fun x hx => by
    simpa using (List.mem_filter.mp (hperm.mem_iff.mp hx)).2
  rw [← Gini.coefficient_perm hperm, ← hperm.length_eq]
  have hne : (positives amounts).insertionSort (· ≤ ·) ≠ [] := fun hnil =>
    h (List.nil_perm.mp (hnil ▸ hperm))
  rw [computeGini]
  generalize (positives amounts).insertionSort (· ≤ ·) = xs at *
  have hsum : 0 < xs.sum := List.sum_pos xs hpos hne
  have hn : 0 < (xs.length : ℤ) := by exact_mod_cast List.length_pos_iff.mpr hne
  have hranked : 0 ≤ Gini.ranked xs := by
    have hclosed := Gini.pairwise_add hsorted
    have := mul_pos (by omega : 0 < 2 * ((xs.length : ℤ) + 1)) hsum
    linarith [Gini.pairwise_nonneg xs]
  have hscale : (Gini.coefficient xs + (xs.length + 1) / xs.length) * 1000000 =
      ((Gini.ranked xs * 2000000 : ℤ) : ℚ) / ((xs.length * xs.sum : ℤ) : ℚ) := by
    rw [Gini.coefficient_eq hsorted hne hsum]
    push_cast
    ring
  simp only [giniSums_eq]
  rw [if_neg (by rintro (hz | hz) <;> omega), cutGini, hscale, floor_intCast_div _ (by positivity),
    Int.tdiv_eq_ediv_of_nonneg (by omega)]

theorem cutGini_mem {g : ℚ} (shift : ℚ) (hg : 0 ≤ g) :
    g - 1 / 10 ^ 6 < cutGini g shift ∧ cutGini g shift ≤ g := by
  have hlt := Int.lt_floor_add_one ((g + shift) * 1000000)
  have hle := Int.floor_le ((g + shift) * 1000000)
  refine ⟨lt_max_of_lt_right ?_, max_le hg ?_⟩ <;> linarith

/-! ### The row -/

/-- The columns on the distribution of power. -/
structure EpochSpread where
  gini : ℚ
  top10SharePct : ℚ
  minCoalition50 : ℕ
  minCoalition67 : ℕ

/-- `seen`, `specials` and `regular`. -/
structure SplitHistory where
  seen : List String
  specials : List EpochHistoryInput
  regular : List EpochHistoryInput

def splitRow (epoch : ℤ) (s : SplitHistory) (row : EpochHistoryInput) :
    Except String SplitHistory :=
  if s.seen.contains row.drepId then
    .error s!"duplicate snapshot row for {row.drepId} in epoch {epoch}"
  else if SPECIAL_DREP_IDS.contains row.drepId then
    .ok ⟨s.seen ++ [row.drepId], s.specials ++ [row], s.regular⟩
  else .ok ⟨s.seen ++ [row.drepId], s.specials, s.regular ++ [row]⟩

def concentrationInput (r : EpochHistoryInput) : ConcentrationInput :=
  ⟨r.drepId, none, none, r.amount⟩

section

variable (formatAda : ℤ → Text)

def epochSpread (regular : List EpochHistoryInput) : EpochSpread :=
  let powers := regular.map (·.amount)
  let clamped := powers.map clampPositive
  let top10 := ((clamped.insertionSort (· ≥ ·)).take 10).sum
  let conc := computeConcentration formatAda (regular.map concentrationInput)
  { gini := computeGini powers
    top10SharePct := pct4 top10 clamped.sum
    minCoalition50 := (conc.byPercent.getD 50 ⟨0, 0⟩).count
    minCoalition67 := (conc.byPercent.getD 67 ⟨0, 0⟩).count }

/-- `computeEpochStatsRow`, with all its columns. -/
def computeEpochStats (input : EpochStatsInput) : Except String (EpochStatsRow × EpochSpread) := do
  let split ← input.history.foldlM (splitRow input.epoch) ⟨[], [], []⟩
  let regular := split.regular
  let counts := regular.map (·.delegatorCount)
  let delegatorsComplete := !regular.isEmpty && counts.all (·.isSome)
  let abstain := split.specials.find? fun r => r.drepId == "drep_always_abstain"
  let anc := split.specials.find? fun r => r.drepId == "drep_always_no_confidence"
  return ({
    epoch := input.epoch
    totalDrepPower := (regular.map fun r => clampPositive r.amount).sum
    poweredDrepCount := regular.countP fun r => decide (0 < clampPositive r.amount)
    recentlyVotingDrepCount := input.recentlyVotingDrepIds.length
    silentPoweredDrepCount := some (countSilentPoweredDreps regular input.recentlyVotingDrepIds)
    abstainPower := abstain.map (·.amount)
    ancPower := anc.map (·.amount)
    delegatorTotal := if delegatorsComplete then some (counts.map (·.getD 0)).sum else none
    abstainDelegators := abstain.bind (·.delegatorCount)
    ancDelegators := anc.bind (·.delegatorCount)
    votesCast := input.votesCast
    voteDataComplete := input.voteDataComplete
    treasuryLovelace := input.treasuryLovelace }, epochSpread formatAda regular)

end

/-- The loop throws at the first id that it has seen, and splits the rows otherwise. -/
theorem foldlM_splitRow (epoch : ℤ) (rows : List EpochHistoryInput) : ∀ s : SplitHistory,
    s.seen.Nodup →
    if (s.seen ++ rows.map (·.drepId)).Nodup then
      rows.foldlM (splitRow epoch) s = .ok ⟨s.seen ++ rows.map (·.drepId),
        s.specials ++ rows.filter fun r => SPECIAL_DREP_IDS.contains r.drepId,
        s.regular ++ rows.filter fun r => !SPECIAL_DREP_IDS.contains r.drepId⟩
    else ∃ e, rows.foldlM (splitRow epoch) s = .error e := by
  induction rows with
  | nil => intro s hs; simp [hs, pure, Except.pure]
  | cons row rows ih =>
    intro s hs
    rw [List.foldlM_cons, splitRow]
    rcases hseen : s.seen.contains row.drepId with _ | _
    · have hnew : (s.seen ++ [row.drepId]).Nodup := by
        rw [← List.concat_eq_append, List.nodup_concat]
        exact ⟨by simpa using hseen, hs⟩
      rw [if_neg Bool.false_ne_true, List.map_cons, List.append_cons, List.filter_cons,
        List.filter_cons]
      rcases SPECIAL_DREP_IDS.contains row.drepId with _ | _
      · simpa [ok_bind] using ih ⟨s.seen ++ [row.drepId], s.specials, s.regular ++ [row]⟩ hnew
      · simpa [ok_bind] using ih ⟨s.seen ++ [row.drepId], s.specials ++ [row], s.regular⟩ hnew
    · rw [if_pos rfl, if_neg fun hnodup => ?_]
      · exact ⟨_, rfl⟩
      · rw [List.nodup_append] at hnodup
        exact hnodup.2.2 row.drepId (by simpa using hseen) row.drepId (by simp) rfl

variable (f : ℤ → Text)

theorem computeEpochStats_eq (input : EpochStatsInput) :
    (computeEpochStats f input).toOption = (computeEpochStatsRow input).map fun row =>
      (row, epochSpread f (input.history.filter fun r => !SPECIAL_DREP_IDS.contains r.drepId)) := by
  have hclamp : ∀ r : EpochHistoryInput, decide (0 < max r.amount 0) = decide (0 < r.amount) :=
    fun r => by simp
  -- a special id is looked for among the special rows only
  have hspecial : ∀ id ∈ SPECIAL_DREP_IDS,
      (input.history.filter fun r => SPECIAL_DREP_IDS.contains r.drepId).find?
        (fun r => r.drepId == id) = input.history.find? fun r => r.drepId == id := by
    intro id hid
    rw [List.find?_filter]
    refine congrArg (List.find? · input.history) (funext fun r => ?_)
    refine Bool.eq_iff_iff.mpr (decide_eq_true_iff.trans ⟨And.right, fun h => ⟨?_, h⟩⟩)
    rw [beq_iff_eq.mp h]
    exact List.contains_iff_mem.mpr hid
  have hsplit := foldlM_splitRow input.epoch input.history ⟨[], [], []⟩ List.nodup_nil
  rw [computeEpochStats, computeEpochStatsRow]
  by_cases hnodup : (input.history.map (·.drepId)).Nodup
  · rw [List.nil_append, if_pos hnodup] at hsplit
    rw [hsplit, ok_bind, if_pos hnodup]
    simp only [clampPositive_eq, hclamp, List.nil_append, List.all_map, List.map_map,
      hspecial "drep_always_abstain" (by decide),
      hspecial "drep_always_no_confidence" (by decide)]
    rfl
  · rw [List.nil_append, if_neg hnodup] at hsplit
    obtain ⟨e, he⟩ := hsplit
    rw [he, if_neg hnodup]
    rfl

/-! ### The figures -/

open LargestFirst

theorem isLeast_coalition {dreps : List ConcentrationInput} {p : ℕ}
    (hpos : 0 < total votePower dreps) (hp : p ≤ 100) :
    IsLeast (sizes votePower dreps (Reaches dreps p))
      ((computeConcentration f dreps).byPercent.getD p ⟨0, 0⟩).count := by
  have hlength := length_byPercent (f := f) hpos
  obtain ⟨k, hk, hkeq⟩ := byPercent_get (f := f) (p := p) hpos (by omega)
  rw [List.getD_eq_getElem _ _ (by omega), hkeq]
  exact hk.isLeast

/-- A coalition of the DReps that hold power reaches every percent. -/
theorem powered_mem_sizes (dreps : List ConcentrationInput) {p : ℕ} (hp : p ≤ 100) :
    dreps.countP (fun d => 0 < d.power) ∈ sizes votePower dreps (Reaches dreps p) := by
  refine ⟨dreps.filter fun d => 0 < d.power, List.filter_sublist.subperm,
    List.countP_eq_length_filter.symm, ?_⟩
  have hsame : total votePower (dreps.filter fun d => 0 < d.power) = total votePower dreps := by
    induction dreps with
    | nil => rfl
    | cons d dreps ih =>
      rw [total, total] at ih
      rw [total, total, List.filter_cons, List.map_cons, List.sum_cons, ← ih]
      split_ifs with hd
      · rw [List.map_cons, List.sum_cons]
      · have hzero : votePower d = 0 := if_neg (by simpa using hd)
        rw [hzero, zero_add]
  rw [Reaches, hsame, mul_comm]
  exact mul_le_mul_of_nonneg_right (by exact_mod_cast hp) (total_nonneg dreps)

theorem epochSpread_le (regular : List EpochHistoryInput) :
    (epochSpread f regular).minCoalition50 ≤ (epochSpread f regular).minCoalition67 ∧
      (epochSpread f regular).minCoalition67 ≤ regular.countP fun r => 0 < r.amount := by
  rw [epochSpread]
  have hcount : (regular.map concentrationInput).countP (fun d => decide (0 < d.power)) =
      regular.countP fun r => 0 < r.amount := List.countP_map ..
  generalize regular.map concentrationInput = dreps at *
  dsimp only
  by_cases hpos : 0 < total votePower dreps
  · have h67 := isLeast_coalition f hpos (by decide : 67 ≤ 100)
    exact ⟨h67.mono (isLeast_coalition f hpos (by decide)) (sizes_reaches_anti (by decide)),
      hcount ▸ h67.2 (powered_mem_sizes dreps (by decide))⟩
  · -- nobody holds power
    have hempty : (computeConcentration f dreps).byPercent = emptyByPercent := by
      rw [computeConcentration, foldl_votePower, total_perm (byPower_perm dreps),
        decide_eq_true (not_lt.mp hpos), Bool.or_true, if_pos rfl]
    rw [hempty]
    exact ⟨le_rfl, Nat.zero_le _⟩

/-- **Figures of an epoch.** The coefficient is the mean-difference one, cut off at the sixth
decimal; the row is refused for an id that occurs twice, and its counts are ordered. -/
theorem epochFigures_right (formatAda : ℤ → Text) :
    (∀ amounts : List ℤ, positives amounts ≠ [] →
      Gini.coefficient (positives amounts) - 1 / 10 ^ 6 < computeGini amounts ∧
        computeGini amounts ≤ Gini.coefficient (positives amounts) ∧ 0 ≤ computeGini amounts ∧
        computeGini amounts ≤ 1 - 1 / (positives amounts).length ∧
        ∀ amounts', (positives amounts).Perm (positives amounts') →
          computeGini amounts' = computeGini amounts) ∧
      ∀ input : EpochStatsInput,
        ((∃ e, computeEpochStats formatAda input = .error e) ↔
          ∃ id, 2 ≤ (input.history.map (·.drepId)).count id) ∧
        ∀ row spread, computeEpochStats formatAda input = .ok (row, spread) →
          spread.minCoalition50 ≤ spread.minCoalition67 ∧
            spread.minCoalition67 ≤ row.poweredDrepCount ∧
            ∃ silent, row.silentPoweredDrepCount = some silent ∧ silent ≤ row.poweredDrepCount := by
  refine ⟨fun amounts h => ?_, fun input => ?_⟩
  · have hpos : ∀ x ∈ positives amounts, 0 < x := fun x hx => by
      simpa using (List.mem_filter.mp hx).2
    obtain ⟨hlt, hle⟩ := cutGini_mem (((positives amounts).length + 1) / (positives amounts).length)
      (Gini.coefficient_nonneg fun x hx => (hpos x hx).le)
    rw [← computeGini_eq h] at hlt hle
    refine ⟨hlt, hle, ?_, hle.trans (Gini.coefficient_le (fun x hx => (hpos x hx).le)
      (List.sum_pos _ hpos h)), fun amounts' hperm => ?_⟩
    · rw [computeGini_eq h]
      exact le_max_left _ _
    · have h' : positives amounts' ≠ [] := fun hnil => h (List.perm_nil.mp (hnil ▸ hperm))
      rw [computeGini_eq h, computeGini_eq h', Gini.coefficient_perm hperm, hperm.length_eq]
  · have hstored := computeEpochStats_eq formatAda input
    rw [computeEpochStatsRow] at hstored
    have htwice : (∃ id, 2 ≤ (input.history.map (·.drepId)).count id) ↔
        ¬(input.history.map (·.drepId)).Nodup := by
      simp [List.nodup_iff_count_le_one, Nat.lt_iff_add_one_le]
    rw [htwice]
    rcases hrun : computeEpochStats formatAda input with e | out
    · rw [hrun] at hstored
      refine ⟨⟨fun _ hnodup => ?_, fun _ => ⟨e, rfl⟩⟩, fun _ _ h => (by cases h)⟩
      rw [if_pos hnodup] at hstored
      cases hstored
    · rw [hrun] at hstored
      by_cases hnodup : (input.history.map (·.drepId)).Nodup
      · rw [if_pos hnodup] at hstored
        obtain rfl := Option.some.inj hstored
        refine ⟨⟨fun ⟨_, h⟩ => (by cases h), fun hnot => absurd hnodup hnot⟩, ?_⟩
        rintro row spread ⟨⟩
        obtain ⟨h50, h67⟩ := epochSpread_le formatAda
          (input.history.filter fun r => !SPECIAL_DREP_IDS.contains r.drepId)
        refine ⟨h50, h67, _, rfl, List.countP_mono_left fun r _ hr => ?_⟩
        exact (Bool.and_eq_true_iff.mp hr).2
      · rw [if_neg hnodup] at hstored
        cases hstored

end DrepTalk
