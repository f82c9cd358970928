import DrepTalk.Governance.StakeShare
import DrepTalk.Library.LargestFirst

/-!
# Concentration of the power that voted

`src/lib/analytics/voteConcentration.ts`: how many of the largest voters hold half of the voted
power, and how many hold what ratification takes.

**Cut off.** The ledger's test is an inequality between integers; `requiredYesPower` divides and
cuts off. Where the division leaves a rest, a power of just the quotient fails the test and passes
here, and the count is right unless the largest voters add up to just that (`voteConcentration_iff`).
-/

namespace DrepTalk

structure VoteConcentrationView where
  voterCount : ℕ
  votedPower : ℤ
  halfCount : ℕ
  largestPct : ℚ
  top5Pct : Option ℚ
  thresholdCount : Option ℕ

/-- `requiredYesPower`; a power that is a number is a whole one. -/
def requiredYesPower (activeYesPower : Option ℤ) (noSidePower : Option Text)
    (approvalThresholdPct : Option ℚ) : Option ℤ :=
  match noSidePower, approvalThresholdPct with
  | some noSidePower, some approvalThresholdPct =>
    match bigIntOfText noSidePower with
    | none => none
    | some noSide =>
      let counted := activeYesPower.getD 0 + noSide
      let thrScaled := round (approvalThresholdPct * 10000)
      if counted ≤ 0 then none
      else if thrScaled ≤ 0 then none
      else some ((counted * thrScaled).tdiv 1000000)
  | _, _ => none

/-- The loops that add up until the sum is enough, and what they have counted then. -/
def countUntil (enough : ℤ → Bool) : List ℤ → ℕ → ℤ → Option ℕ
  | [], _, _ => none
  | p :: rest, count, cum =>
    if enough (cum + p) then some (count + 1) else countUntil enough rest (count + 1) (cum + p)

/-- The sort of the powers. -/
def knownPowers (powers : List ℤ) : List ℤ := powers.insertionSort (· ≥ ·)

/-- The view of powers that are sorted. -/
def concentrationView (known : List ℤ) (requiredYes : Option ℤ) : Option VoteConcentrationView :=
  let total := known.sum
  if total ≤ 0 then none
  else
    some {
      voterCount := known.length
      votedPower := total
      halfCount := (countUntil (fun cumulative => decide (total ≤ cumulative * 2)) known 0 0).getD
        known.length
      largestPct := pct4 (known.headD 0) total
      top5Pct := if 5 < known.length then some (pct4 (known.take 5).sum total) else none
      thresholdCount := requiredYes.bind fun requiredYes =>
        if 0 < requiredYes ∧ requiredYes ≤ total then
          countUntil (fun cum => decide (requiredYes ≤ cum)) known 0 0
        else none }

def buildVoteConcentration (powers : List (Option ℤ)) (requiredYes : Option ℤ) :
    Option VoteConcentrationView :=
  if powers.isEmpty || powers.any (·.isNone) then none
  else concentrationView (knownPowers (powers.filterMap id)) requiredYes

open LargestFirst

variable {powers : List ℤ} {required : ℤ} {enough : ℤ → Bool}

theorem total_id (l : List ℤ) : total id l = l.sum := by
  rw [total, List.map_id]

theorem total_id_le {s : List ℤ} (hnonneg : ∀ p ∈ powers, 0 ≤ p) (hs : s.Subperm powers) :
    total id s ≤ powers.sum := by
  rw [← total_id powers]
  exact total_le_of_subperm hnonneg hs

theorem knownPowers_perm (powers : List ℤ) : (knownPowers powers).Perm powers :=
  List.perm_insertionSort _ _

theorem knownPowers_pairwise (powers : List ℤ) :
    (knownPowers powers).Pairwise fun a b => id b ≤ id a :=
  List.pairwise_insertionSort _ _

theorem knownPowers_congr {powers' : List ℤ} (h : powers.Perm powers') :
    knownPowers powers = knownPowers powers' := by
  refine ((knownPowers_perm powers).trans (h.trans (knownPowers_perm powers').symm)).eq_of_pairwise
    (fun a b _ _ h h' => le_antisymm h' h) (knownPowers_pairwise _) (knownPowers_pairwise _)

/-! ### The loops -/

theorem countUntil_eq (l : List ℤ) (count : ℕ) (cum : ℤ) :
    countUntil enough l count cum =
      ((List.range l.length).find? fun m => enough (cum + (l.take (m + 1)).sum)).map
        (count + · + 1) := by
  induction l generalizing count cum with
  | nil => rfl
  | cons p rest ih =>
    rw [countUntil, List.length_cons, List.range_succ_eq_map, List.find?_cons, List.find?_map, ih]
    cases h : enough (cum + p)
    · simp [h, Function.comp_def, add_assoc, add_comm 1]
    · simp [h]

theorem isMinimum_countUntil (powers : List ℤ) {P : ℤ → Prop} [DecidablePred P]
    (hup : ∀ a b, a ≤ b → P a → P b) (hzero : ¬P 0) :
    IsMinimum (sizes id powers P)
      (countUntil (fun sum => decide (P sum)) (knownPowers powers) 0 0) := by
  rw [← sizes_perm (knownPowers_perm powers), countUntil_eq]
  have hsorted := knownPowers_pairwise powers
  rcases hfind : (List.range (knownPowers powers).length).find? fun m =>
    decide (P (0 + ((knownPowers powers).take (m + 1)).sum)) with _ | m
  · refine Set.eq_empty_of_forall_notMem ?_
    rintro k ⟨s, hs, rfl, henough⟩
    have hlargest := hup _ _ (sum_le_sum_take hsorted hs) henough
    rw [total_id] at hlargest
    rcases hlength : s.length with _ | k
    · exact hzero (by simpa [hlength] using hlargest)
    · have hlt : k < (knownPowers powers).length := by
        have := hs.length_le
        omega
      have hnot := List.find?_range_eq_none.mp hfind k hlt
      simp [hlength ▸ hlargest] at hnot
  · obtain ⟨henough, hm, hshort⟩ := List.find?_range_eq_some.mp hfind
    rw [List.mem_range] at hm
    refine isLeast_sizes (n := 0 + m + 1) hsorted hup (by omega) ?_ fun k hk => ?_
    · rw [total_id, zero_add]
      simpa using henough
    · rw [total_id]
      rcases k with _ | k
      · simpa using hzero
      · simpa using hshort k (by omega)

/-! ### The test -/

theorem total_take_of_greatest {n : ℕ} (h : IsGreatest (totals id powers n) required) :
    n ≤ powers.length ∧ required = total id ((knownPowers powers).take n) := by
  obtain ⟨s, hs, hlength, -⟩ := h.1
  have hn : n ≤ powers.length := hlength ▸ hs.length_le
  rw [← totals_perm (knownPowers_perm powers)] at h
  exact ⟨hn, h.unique (isGreatest_totals (knownPowers_pairwise powers)
    (by rwa [(knownPowers_perm powers).length_eq]))⟩

/-- What the ledger wants is one voter more where the division leaves a rest, unless the largest
voters have just the quotient. -/
theorem isMinimum_succ_iff (hnonneg : ∀ p ∈ powers, 0 ≤ p) (hpos : 0 < powers.sum)
    (hrequired : 0 ≤ required) {c : Option ℕ}
    (hc : if 0 < required ∧ required ≤ powers.sum then
        IsMinimum (sizes id powers fun sum => required ≤ sum) c else c = none) :
    IsMinimum (sizes id powers fun sum => required + 1 ≤ sum) c ↔
      ∀ n, ¬IsGreatest (totals id powers n) required := by
  have hsub : sizes id powers (fun sum => required + 1 ≤ sum) ⊆
      sizes id powers fun sum => required ≤ sum := by
    rintro k ⟨s, hs, hlength, hsum⟩
    exact ⟨s, hs, hlength, by omega⟩
  constructor
  · intro hmin n hgreatest
    obtain ⟨hn, htake⟩ := total_take_of_greatest hgreatest
    obtain ⟨s, hs, hlength, hsum⟩ := hgreatest.1
    have hmem : n ∈ sizes id powers fun sum => required ≤ sum := ⟨s, hs, hlength, hsum.ge⟩
    have hle : total id s ≤ powers.sum := total_id_le hnonneg hs
    rcases c with _ | k
    · split_ifs at hc with hif
      · exact absurd hmem (Set.eq_empty_iff_forall_notMem.mp hc n)
      · refine Set.eq_empty_iff_forall_notMem.mp hmin powers.length ⟨powers, .refl _, rfl, ?_⟩
        rw [total_id]
        omega
    · split_ifs at hc
      obtain ⟨s', hs', rfl, hsum'⟩ := hmin.1
      have hlargest := sum_le_sum_take (knownPowers_pairwise powers)
        (hs'.trans (knownPowers_perm powers).symm.subperm)
      have hmono : total id ((knownPowers powers).take s'.length) ≤
          total id ((knownPowers powers).take n) :=
        total_take_mono (fun p hp => hnonneg p ((knownPowers_perm powers).mem_iff.mp hp))
          (hc.2 hmem)
      omega
  · intro hnone
    have hne (n : ℕ) (hn : n ≤ powers.length) :
        total id ((knownPowers powers).take n) ≠ required := by
      rintro rfl
      have hgreatest := isGreatest_totals (knownPowers_pairwise powers)
        (hn.trans (knownPowers_perm powers).length_eq.ge)
      rw [totals_perm (knownPowers_perm powers)] at hgreatest
      exact hnone n hgreatest
    have hzero : required ≠ 0 := (hne 0 (Nat.zero_le _)).symm
    rcases c with _ | k
    · refine Set.eq_empty_of_forall_notMem fun k hk => ?_
      split_ifs at hc with hif
      · exact Set.eq_empty_iff_forall_notMem.mp hc k (hsub hk)
      · obtain ⟨s, hs, -, hsum⟩ := hk
        have hle : total id s ≤ powers.sum := total_id_le hnonneg hs
        omega
    · split_ifs at hc
      obtain ⟨s, hs, rfl, hsum⟩ := hc.1
      have hlargest := sum_le_sum_take (knownPowers_pairwise powers)
        (hs.trans (knownPowers_perm powers).symm.subperm)
      refine ⟨⟨(knownPowers powers).take s.length, ?_, ?_, ?_⟩, fun j hj => hc.2 (hsub hj)⟩
      · exact (List.take_sublist _ _).subperm.trans (knownPowers_perm powers).subperm
      · exact List.length_take_of_le (hs.length_le.trans (knownPowers_perm powers).length_eq.ge)
      · have := hne s.length hs.length_le
        omega

/-- **Concentration of the votes.** The counts are of the fewest voters, and of the voters only. -/
def VoteConcentrationRight (powers : List ℤ) (activeYesPower : ℤ) (noSidePower : Text)
    (threshold : ℚ) (counted : ℤ) : Prop :=
  ∃ view, buildVoteConcentration (powers.map some)
        (requiredYesPower (some activeYesPower) (some noSidePower) (some threshold)) = some view ∧
    IsMinimum (sizes id powers fun sum => threshold * counted ≤ 100 * sum) view.thresholdCount ∧
    IsLeast (sizes id powers fun sum => powers.sum ≤ 2 * sum) view.halfCount ∧
    ∀ powers', powers.Perm powers' → buildVoteConcentration (powers'.map some)
        (requiredYesPower (some activeYesPower) (some noSidePower) (some threshold)) = some view

theorem requiredYesPower_eq {y n k : ℤ} {noSidePower : Text} {threshold : ℚ}
    (htext : bigIntOfText noSidePower = some n) (hcounted : 0 < y + n)
    (hk : 0 < k) (hthreshold : threshold * 10000 = k) :
    requiredYesPower (some y) (some noSidePower) (some threshold) =
      some ((y + n) * k / 1000000) := by
  have hprod : 0 ≤ (y + n) * k := (mul_pos hcounted hk).le
  simp only [requiredYesPower, htext, hthreshold, round_intCast, Option.getD_some]
  rw [if_neg (not_le.mpr hcounted), if_neg (not_le.mpr hk), Int.tdiv_eq_ediv_of_nonneg hprod]

theorem buildVoteConcentration_some (hpos : 0 < powers.sum) (requiredYes : Option ℤ) :
    buildVoteConcentration (powers.map some) requiredYes =
      concentrationView (knownPowers powers) requiredYes := by
  have hne : powers.isEmpty = false := by
    rw [List.isEmpty_eq_false_iff]
    rintro rfl
    exact nomatch hpos
  simp [buildVoteConcentration, hne, List.filterMap_map, Function.comp_def]

theorem isLeast_halfCount (hpos : 0 < powers.sum) :
    IsLeast (sizes id powers fun sum => powers.sum ≤ 2 * sum)
      ((countUntil (fun cumulative => decide (powers.sum ≤ cumulative * 2)) (knownPowers powers) 0
        0).getD (knownPowers powers).length) := by
  have hmin := isMinimum_countUntil powers (P := fun sum => powers.sum ≤ sum * 2)
    (fun a b hab ha => by omega) (by omega)
  simp only [mul_comm _ (2 : ℤ)] at hmin ⊢
  generalize countUntil _ (knownPowers powers) 0 0 = c at hmin ⊢
  rcases c with _ | n
  · refine absurd ⟨powers, .refl _, rfl, ?_⟩ (Set.eq_empty_iff_forall_notMem.mp hmin powers.length)
    rw [total_id]
    omega
  · exact hmin

/-- **The condition.** Where a million does not divide the product of threshold and power, no sum is
just the quotient. -/
theorem voteConcentration_iff {y n k : ℤ} {noSidePower : Text} {threshold : ℚ}
    (hnonneg : ∀ p ∈ powers, 0 ≤ p) (hpos : 0 < powers.sum)
    (htext : bigIntOfText noSidePower = some n) (hcounted : 0 < y + n)
    (hk : 0 < k) (hthreshold : threshold * 10000 = k) :
    VoteConcentrationRight powers y noSidePower threshold (y + n) ↔
      1000000 ∣ (y + n) * k ∨
        ∀ m, ¬IsGreatest (totals id powers m) ((y + n) * k / 1000000) := by
  have hprod : 0 < (y + n) * k := mul_pos hcounted hk
  have htest (sum : ℤ) : threshold * (y + n : ℤ) ≤ 100 * (sum : ℚ) ↔
      (y + n) * k ≤ 1000000 * sum := by
    have hscale : threshold * (y + n : ℤ) ≤ 100 * (sum : ℚ) ↔
        (y + n : ℤ) * (threshold * 10000) ≤ 1000000 * (sum : ℚ) := by
      constructor <;> intro h <;> linarith
    rw [hscale, hthreshold]
    exact_mod_cast Iff.rfl
  rw [VoteConcentrationRight, requiredYesPower_eq htext hcounted hk hthreshold]
  simp only [htest, buildVoteConcentration_some hpos]
  generalize (y + n) * k = product at hprod ⊢
  generalize hrequired : product / 1000000 = required
  have hsum : (knownPowers powers).sum = powers.sum := (knownPowers_perm powers).sum_eq
  rw [concentrationView, hsum, if_neg (not_le.mpr hpos), Option.bind_some]
  set c := if 0 < required ∧ required ≤ powers.sum then
    countUntil (fun cum => decide (required ≤ cum)) (knownPowers powers) 0 0 else none with hc
  have hmin : if 0 < required ∧ required ≤ powers.sum then
      IsMinimum (sizes id powers fun sum => required ≤ sum) c else c = none := by
    split_ifs with hif
    · rw [hc, if_pos hif]
      exact isMinimum_countUntil powers (fun a b hab ha => ha.trans hab) (by omega)
    · rw [hc, if_neg hif]
  have hright : IsMinimum (sizes id powers fun sum => product ≤ 1000000 * sum) c ↔
      1000000 ∣ product ∨ ∀ m, ¬IsGreatest (totals id powers m) required := by
    by_cases hdvd : (1000000 : ℤ) ∣ product
    · have hsame : (fun sum => product ≤ 1000000 * sum) = fun sum => required ≤ sum := by
        funext sum
        exact propext (by omega)
      rw [hsame]
      refine iff_of_true ?_ (.inl hdvd)
      split_ifs at hmin with hif
      · exact hmin
      · rw [hmin]
        refine Set.eq_empty_of_forall_notMem ?_
        rintro k ⟨s, hs, -, hreach⟩
        have hle := total_id_le hnonneg hs
        omega
    · have hsame : (fun sum => product ≤ 1000000 * sum) = fun sum => required + 1 ≤ sum := by
        funext sum
        exact propext (by omega)
      rw [hsame, or_iff_right hdvd]
      exact isMinimum_succ_iff hnonneg hpos (by omega) hmin
  rw [← hright]
  constructor
  · rintro ⟨view, hview, hthreshold, -⟩
    cases hview
    exact hthreshold
  · intro hthreshold
    refine ⟨_, rfl, hthreshold, isLeast_halfCount hpos, fun powers' h => ?_⟩
    rw [buildVoteConcentration_some (h.sum_eq ▸ hpos), ← knownPowers_congr h, concentrationView,
      hsum, if_neg (not_le.mpr hpos), Option.bind_some]

theorem voteConcentration_iff_two : VoteConcentrationRight [3, 1] 1 "1".toList 50 2 :=
  (voteConcentration_iff (y := 1) (n := 1) (k := 500000) (by decide) (by decide)
    (by decide) (by decide) (by decide) (by norm_num)).mpr (.inl (by decide))

/-- One voter with a third of the power, and the test at a half. -/
theorem not_voteConcentration : ¬VoteConcentrationRight [1] 1 "2".toList 50 3 := by
  rintro ⟨view, hview, hmin, -⟩
  rw [requiredYesPower_eq (y := 1) (n := 2) (k := 500000) (by decide) (by decide)
    (by decide) (by norm_num), buildVoteConcentration_some (by decide)] at hview
  cases hview
  obtain ⟨⟨s, hs, -, hreach⟩, -⟩ := hmin
  have hle : total id s ≤ 1 := total_id_le (by decide) hs
  have hcast : 50 * ((3 : ℤ) : ℚ) ≤ 100 * ((1 : ℤ) : ℚ) :=
    hreach.trans (mul_le_mul_of_nonneg_left (Int.cast_le.mpr hle) (by norm_num))
  norm_num at hcast

end DrepTalk
