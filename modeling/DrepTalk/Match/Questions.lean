import DrepTalk.Library.CappedScan
import Mathlib.Algebra.Order.Field.Rat
import Mathlib.Data.Prod.Lex
import Mathlib.Data.String.Basic

/-!
# The questions of the match quiz

`selectQuestions` of `src/lib/match/logic.ts`: of the actions that enough DReps have decided on,
those are asked about that split the field best, with a cap on each type. The fingerprint of a share
link is taken of the order, so the candidates are ranked by keys that decide.

The loop stops once a pick makes the set full; with a set of no questions it picks one
(`not_questionsRight`). Otherwise the questions are the greedy ones, whatever order the candidates
come in (`questionsRight_iff`).
-/

namespace DrepTalk

/-- `MatchThresholds`, by the fields that the selection reads. -/
structure MatchThresholds where
  maxQuestions : ℕ
  minDecisiveVotes : ℕ
  maxAbstainShare : ℚ
  maxPerType : ℕ

structure CandidateAgg where
  gaId : String
  type : String
  expiryEpoch : Option ℤ
  yes : ℕ
  no : ℕ
  abstain : ℕ

def discriminativeScore (c : CandidateAgg) : ℚ :=
  let decisive := c.yes + c.no
  if decisive = 0 then 0 else 1 - |(c.yes : ℚ) - c.no| / decisive

/-- What the ranking compares, in turn: the score and the expiry the other way round, then the
id. -/
def rankKey (c : CandidateAgg) : ℚ ×ₗ ℤ ×ₗ String :=
  toLex (-discriminativeScore c, toLex (-c.expiryEpoch.getD (-1), c.gaId))

/-- The action has been decided on by enough DReps. -/
def Qualifies (t : MatchThresholds) (c : CandidateAgg) : Prop :=
  let decisive := c.yes + c.no
  let total := decisive + c.abstain
  t.minDecisiveVotes ≤ decisive ∧ 0 < total ∧ (c.abstain : ℚ) / total < t.maxAbstainShare

instance decidableQualifies (t : MatchThresholds) (c : CandidateAgg) : Decidable (Qualifies t c) :=
  inferInstanceAs (Decidable (_ ∧ _ ∧ _))

section

variable {τ : Type*} (agg : τ → CandidateAgg) (t : MatchThresholds)

def rankedBefore (a b : τ) : Prop := rankKey (agg a) ≤ rankKey (agg b)

instance decidableRankedBefore : DecidableRel (rankedBefore agg) := fun _ _ =>
  inferInstanceAs (Decidable (_ ≤ _))

instance totalRankedBefore : Std.Total (rankedBefore agg) := ⟨fun _ _ => le_total _ _⟩

instance transRankedBefore : IsTrans τ (rankedBefore agg) := ⟨fun _ _ _ => le_trans⟩

/-- The candidates that qualify, in rank order. -/
def rankedCandidates (candidates : List τ) : List τ :=
  (candidates.filter fun c => Qualifies t (agg c)).insertionSort (rankedBefore agg)

/-- The loop, with the picks of each type. -/
def pickQuestions : List τ → (String → ℕ) → List τ → List τ
  | [], _, picked => picked
  | c :: rest, perType, picked =>
    let seen := perType (agg c).type
    if t.maxPerType ≤ seen then pickQuestions rest perType picked
    else
      let picked := picked ++ [c]
      if t.maxQuestions ≤ picked.length then picked
      else pickQuestions rest (Function.update perType (agg c).type (seen + 1)) picked

/-- The candidates may carry more than what is ranked. -/
def selectQuestions (candidates : List τ) : List τ :=
  pickQuestions agg t (rankedCandidates agg t candidates) (fun _ => 0) []

structure QuestionsRight (candidates : List τ) : Prop where
  perm : ∀ candidates', candidates.Perm candidates' →
    selectQuestions agg t candidates' = selectQuestions agg t candidates
  length : (selectQuestions agg t candidates).length ≤ t.maxQuestions
  perType : ∀ type,
    CappedScan.ofKind (fun c => (agg c).type) type (selectQuestions agg t candidates) ≤ t.maxPerType
  qualified : ∀ c ∈ selectQuestions agg t candidates, c ∈ candidates ∧ Qualifies t (agg c)
  ranked : (selectQuestions agg t candidates).Pairwise fun a b =>
    rankKey (agg a) < rankKey (agg b)
  greedy : ∀ c ∈ candidates, Qualifies t (agg c) → c ∉ selectQuestions agg t candidates →
    CappedScan.Outranked (fun c => (agg c).type) t.maxPerType t.maxQuestions
      (fun a b => rankKey (agg a) < rankKey (agg b)) (selectQuestions agg t candidates) c

variable {agg t} {candidates : List τ}

theorem pickQuestions_eq {rest picked : List τ} {perType : String → ℕ}
    (hcounts : ∀ type, perType type = CappedScan.ofKind (fun c => (agg c).type) type picked) :
    pickQuestions agg t rest perType picked =
      CappedScan.scan (fun c => (agg c).type) t.maxPerType t.maxQuestions rest picked := by
  induction rest generalizing picked perType with
  | nil => rfl
  | cons c rest ih =>
    have hnext : ∀ type, Function.update perType (agg c).type (perType (agg c).type + 1) type =
        CappedScan.ofKind (fun c => (agg c).type) type (picked ++ [c]) := by
      intro type
      rw [CappedScan.ofKind_concat, Function.update_apply, hcounts, hcounts]
      by_cases htype : type = (agg c).type
      · rw [if_pos htype, if_pos htype.symm, htype]
      · rw [if_neg htype, if_neg (Ne.symm htype), Nat.add_zero]
    rw [pickQuestions, CappedScan.scan]
    dsimp only
    rw [ih hcounts, ih hnext, List.length_append, List.length_singleton, hcounts]

theorem selectQuestions_eq (agg : τ → CandidateAgg) (t : MatchThresholds) (candidates : List τ) :
    selectQuestions agg t candidates =
      CappedScan.scan (fun c => (agg c).type) t.maxPerType t.maxQuestions
        (rankedCandidates agg t candidates) [] :=
  pickQuestions_eq fun _ => rfl

theorem mem_rankedCandidates {c : τ} :
    c ∈ rankedCandidates agg t candidates ↔ c ∈ candidates ∧ Qualifies t (agg c) := by
  rw [rankedCandidates, List.mem_insertionSort, List.mem_filter, decide_eq_true_iff]

theorem rankedCandidates_pairwise (hids : (candidates.map fun c => (agg c).gaId).Nodup) :
    (rankedCandidates agg t candidates).Pairwise fun a b => rankKey (agg a) < rankKey (agg b) := by
  have hsorted : (rankedCandidates agg t candidates).Pairwise (rankedBefore agg) :=
    List.pairwise_insertionSort _ _
  have hdistinct : (rankedCandidates agg t candidates).Pairwise
      fun a b => (agg a).gaId ≠ (agg b).gaId := by
    have hfiltered := hids.sublist ((List.filter_sublist
      (p := fun c => decide (Qualifies t (agg c)))).map fun c => (agg c).gaId)
    exact List.pairwise_map.mp
      (((List.perm_insertionSort (rankedBefore agg) _).map _).nodup_iff.mpr hfiltered)
  exact (hsorted.and hdistinct).imp fun h => lt_of_le_of_ne h.1 fun heq =>
    h.2 ((congrArg (fun key => (ofLex (ofLex key).2).2) heq))

theorem rankedCandidates_perm (hids : (candidates.map fun c => (agg c).gaId).Nodup)
    {candidates' : List τ} (hperm : candidates.Perm candidates') :
    rankedCandidates agg t candidates' = rankedCandidates agg t candidates := by
  have hids' : (candidates'.map fun c => (agg c).gaId).Nodup :=
    (hperm.map _).nodup_iff.mp hids
  have hranked : (rankedCandidates agg t candidates').Perm (rankedCandidates agg t candidates) :=
    ((List.perm_insertionSort _ _).trans (hperm.symm.filter _)).trans
      (List.perm_insertionSort _ _).symm
  exact hranked.eq_of_pairwise (fun _ _ _ _ hab hba => absurd hab hba.asymm)
    (rankedCandidates_pairwise hids') (rankedCandidates_pairwise hids)

theorem length_selectQuestions_zero (hmax : t.maxQuestions = 0) (htype : t.maxPerType ≠ 0)
    (hsome : ∃ c ∈ candidates, Qualifies t (agg c)) :
    (selectQuestions agg t candidates).length = 1 := by
  rw [selectQuestions_eq]
  rcases hranked : rankedCandidates agg t candidates with _ | ⟨first, rest⟩
  · obtain ⟨c, hc, hqualifies⟩ := hsome
    exact absurd (mem_rankedCandidates.mpr ⟨hc, hqualifies⟩) (hranked ▸ List.not_mem_nil)
  · have hroom : ¬t.maxPerType ≤
        CappedScan.ofKind (fun c => (agg c).type) (agg first).type ([] : List τ) :=
      fun hle => htype (Nat.le_zero.mp hle)
    rw [CappedScan.scan, if_neg hroom, if_pos (hmax ▸ Nat.zero_le _)]
    rfl

/-- **The questions are the greedy ones**, in rank order, and the same for every order of the
candidates: exactly where the set may have a question, or none can be picked. -/
theorem questionsRight_iff (hids : (candidates.map fun c => (agg c).gaId).Nodup) :
    QuestionsRight agg t candidates ↔ t.maxQuestions ≠ 0 ∨ t.maxPerType = 0 ∨
      ∀ c ∈ candidates, ¬Qualifies t (agg c) := by
  constructor
  · intro hright
    by_contra hnot
    obtain ⟨hmax, htype, hsome⟩ : t.maxQuestions = 0 ∧ t.maxPerType ≠ 0 ∧
        ∃ c ∈ candidates, Qualifies t (agg c) := by
      push Not at hnot
      exact hnot
    have hlength := hright.length
    rw [length_selectQuestions_zero hmax htype hsome, hmax] at hlength
    cases hlength
  · intro hcondition
    have hsub : (selectQuestions agg t candidates).Sublist (rankedCandidates agg t candidates) := by
      rw [selectQuestions_eq]
      exact CappedScan.scan_sublist _
    have hcap : ∀ type, CappedScan.ofKind (fun c => (agg c).type) type
        (selectQuestions agg t candidates) ≤ t.maxPerType := by
      rw [selectQuestions_eq]
      exact CappedScan.ofKind_scan_le fun _ => Nat.zero_le _
    refine ⟨fun candidates' hperm => ?_, ?_, hcap,
      fun c hc => mem_rankedCandidates.mp (hsub.subset hc),
      (rankedCandidates_pairwise hids).sublist hsub, fun c hc hqualifies hout => ?_⟩
    · rw [selectQuestions_eq, selectQuestions_eq, rankedCandidates_perm hids hperm]
    · rcases Nat.eq_zero_or_pos t.maxQuestions with hzero | hpos
      · -- nothing can be picked
        have hnone : selectQuestions agg t candidates = [] := by
          refine List.eq_nil_iff_forall_not_mem.mpr fun c hc => ?_
          rcases hcondition with hmax | htype | hnone
          · exact hmax hzero
          · have hfew := hcap (agg c).type
            rw [htype, Nat.le_zero, CappedScan.ofKind, List.countP_eq_zero] at hfew
            exact hfew c hc (decide_eq_true rfl)
          · obtain ⟨hmem, hqualifies⟩ := mem_rankedCandidates.mp (hsub.subset hc)
            exact hnone c hmem hqualifies
        rw [hnone]
        exact Nat.zero_le _
      · rw [selectQuestions_eq]
        exact CappedScan.length_scan_le hpos
    · rw [selectQuestions_eq] at hout ⊢
      exact CappedScan.leftOut_scan (rankedCandidates_pairwise hids)
        (mem_rankedCandidates.mpr ⟨hc, hqualifies⟩) hout

end

/-! ### Two selections -/

def sampleThresholds (maxQuestions : ℕ) : MatchThresholds := ⟨maxQuestions, 3, 3 / 5, 1⟩

def sampleCandidates : List CandidateAgg :=
  [⟨"a", "InfoAction", none, 4, 0, 1⟩, ⟨"b", "InfoAction", some 500, 2, 2, 1⟩,
    ⟨"c", "NewConstitution", some 501, 3, 1, 0⟩]

/-- Two questions, one of each type. -/
theorem questionsRight_iff_two : QuestionsRight id (sampleThresholds 2) sampleCandidates ∧
    (selectQuestions id (sampleThresholds 2) sampleCandidates).map (·.gaId) = ["b", "c"] :=
  ⟨(questionsRight_iff (by decide)).mpr (.inl (by decide)), by decide +kernel⟩

/-- A set of no questions has one. -/
theorem not_questionsRight : ¬QuestionsRight id (sampleThresholds 0) sampleCandidates := by
  intro hright
  have hlength := hright.length
  have hone : (selectQuestions id (sampleThresholds 0) sampleCandidates).length = 1 :=
    length_selectQuestions_zero rfl (by decide)
      ⟨⟨"a", "InfoAction", none, 4, 0, 1⟩, List.mem_cons_self, by decide +kernel⟩
  rw [hone] at hlength
  cases hlength

end DrepTalk
