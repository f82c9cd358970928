import DrepTalk.Format.Decimal
import DrepTalk.Format.Pct
import DrepTalk.Governance.CommitteePct
import Mathlib.Data.Finset.Card

/-!
# The committee tally, member by member

What `ccTallyPct` of `src/lib/koios/corrections.ts` is for: each member that counts at a boundary
has one vote, the latest that it cast before the cutoff, under whichever hot key, and those who
abstain leave the denominator (`referenceTally`).

**The fold** over the votes arrives at that tally (`ccTallyPct_right`), whatever order they come in
and whatever other votes come with them. A vote without a block time cannot be placed, so the source
keeps it, as the first one.
-/

namespace DrepTalk

/-! ### The reference -/

/-- The members that count: those of a version in force whose standing is clear. -/
def countedMembers (members : List CommitteeMemberTerm) (boundary : ℤ) : Finset String :=
  ((members.filter fun m => versionCovers m boundary && (committeeStanding m boundary).isNone).map
    fun m => m.coldKeyHex).toFinset

/-- The vote is one of the member, and was not cast at the cutoff or after it. -/
def EligibleVote (timeline : CommitteeTimeline) (cutoff : Option ℤ) (cold : String) (v : CcVote) :
    Prop :=
  timeline.hotToCold v.hotKeyHex = some cold ∧
    ∀ start ∈ cutoff, ∀ time ∈ v.blockTime, time < start

instance (timeline : CommitteeTimeline) (cutoff : Option ℤ) (cold : String) (v : CcVote) :
    Decidable (EligibleVote timeline cutoff cold v) :=
  inferInstanceAs (Decidable (_ ∧ _))

/-- The vote is the latest of the member. -/
def LatestVote (votes : List CcVote) (timeline : CommitteeTimeline) (cutoff : Option ℤ)
    (cold : String) (v : CcVote) : Prop :=
  v ∈ votes ∧ EligibleVote timeline cutoff cold v ∧
    ∀ u ∈ votes, EligibleVote timeline cutoff cold u → u.time ≤ v.time

instance (votes : List CcVote) (timeline : CommitteeTimeline) (cutoff : Option ℤ) (cold : String)
    (v : CcVote) : Decidable (LatestVote votes timeline cutoff cold v) :=
  inferInstanceAs (Decidable (_ ∧ _))

/-- The members whose latest vote is that choice. -/
def membersFor (votes : List CcVote) (timeline : CommitteeTimeline) (boundary : ℤ)
    (cutoff : Option ℤ) (choice : CcChoice) : Finset String :=
  (countedMembers timeline.members boundary).filter fun cold =>
    ∃ v ∈ votes, LatestVote votes timeline cutoff cold v ∧ v.vote = choice

def referenceTally {ν : Type*} (js : JsNumbers ν) (votes : List CcVote)
    (timeline : CommitteeTimeline) (boundary : ℤ) (cutoff : Option ℤ) : CcTally ν :=
  let yes := (membersFor votes timeline boundary cutoff .yes).card
  let no := (membersFor votes timeline boundary cutoff .no).card
  let abstain := (membersFor votes timeline boundary cutoff .abstain).card
  let remaining := (countedMembers timeline.members boundary).card - abstain
  { yesPct := if remaining = 0 then none else some (js.percent yes remaining)
    noPct := if remaining = 0 then none else some (js.percent (remaining - yes) remaining)
    yes := yes
    no := no
    abstain := abstain }

/-- A vote that is not one of a member that counts, or is cast too late. -/
def IrrelevantVote (timeline : CommitteeTimeline) (boundary : ℤ) (cutoff : Option ℤ) (v : CcVote) :
    Prop :=
  timeline.hotToCold v.hotKeyHex = none ∨
    (∃ cold, timeline.hotToCold v.hotKeyHex = some cold ∧
      cold ∉ countedMembers timeline.members boundary) ∨
    ∃ start ∈ cutoff, ∃ time ∈ v.blockTime, start ≤ time

section

variable {ν : Type*} {votes : List CcVote} {timeline : CommitteeTimeline}
  {boundary : ℤ} {cutoff : Option ℤ} {cold : String} {v : CcVote}

/-! ### The members -/

variable (members : List CommitteeMemberTerm) (js : JsNumbers ν)

theorem nodup_active (boundary : ℤ) : (activeCommitteeMembersAtBoundary members boundary).Nodup :=
  List.nodup_dedup _

theorem toFinset_active (boundary : ℤ) :
    (activeCommitteeMembersAtBoundary members boundary).toFinset =
      countedMembers members boundary := by
  ext cold
  rw [activeCommitteeMembersAtBoundary, countedMembers, List.mem_toFinset, List.mem_toFinset,
    List.mem_dedup]

theorem mem_active : cold ∈ activeCommitteeMembersAtBoundary timeline.members boundary ↔
    cold ∈ countedMembers timeline.members boundary := by
  rw [← toFinset_active, List.mem_toFinset]

theorem length_active (boundary : ℤ) :
    (activeCommitteeMembersAtBoundary members boundary).length =
      (countedMembers members boundary).card := by
  rw [← toFinset_active, List.toFinset_card_of_nodup (nodup_active members boundary)]

/-! ### The latest vote -/

theorem castLate_iff : (cutoff.any fun start => v.blockTime.any fun time => decide (start ≤ time)) =
    true ↔ ∃ start ∈ cutoff, ∃ time ∈ v.blockTime, start ≤ time := by
  simp only [Option.any_eq_true, decide_eq_true_eq, Option.mem_def]

theorem countsFor_eq_some : v.countsFor timeline boundary cutoff = some cold ↔
    EligibleVote timeline cutoff cold v ∧ cold ∈ countedMembers timeline.members boundary := by
  rw [CcVote.countsFor, EligibleVote]
  split_ifs with hlate
  · obtain ⟨start, hstart, time, htime, hle⟩ := castLate_iff.mp hlate
    refine iff_of_false (fun h => by cases h) ?_
    rintro ⟨⟨-, hearly⟩, -⟩
    exact absurd (hearly start hstart time htime) (not_lt.mpr hle)
  · have hearly : ∀ start ∈ cutoff, ∀ time ∈ v.blockTime, time < start :=
      fun start hstart time htime => not_le.mp fun hle =>
        hlate (castLate_iff.mpr ⟨start, hstart, time, htime, hle⟩)
    rw [Option.filter_eq_some_iff, decide_eq_true_eq, mem_active, and_iff_left hearly]

theorem countsFor_of_irrelevant (h : IrrelevantVote timeline boundary cutoff v) :
    v.countsFor timeline boundary cutoff = none := by
  rw [Option.eq_none_iff_forall_ne_some]
  intro cold hcounts
  obtain ⟨⟨hcold, hearly⟩, hmember⟩ := countsFor_eq_some.mp hcounts
  rcases h with hunknown | ⟨other, hother, hnot⟩ | ⟨start, hstart, time, htime, hle⟩
  · rw [hunknown] at hcold
    cases hcold
  · rw [hcold, Option.some_inj] at hother
    exact hnot (hother ▸ hmember)
  · exact absurd (hearly start hstart time htime) (not_lt.mpr hle)

theorem foldl_laterVote (w : CcVote) (votes : List CcVote) :
    ∃ v, votes.foldl laterVote (some w) = some v ∧ v ∈ w :: votes ∧
      ∀ u ∈ w :: votes, u.time ≤ v.time := by
  induction votes generalizing w with
  | nil => exact ⟨w, rfl, List.mem_cons_self, fun u hu => (List.mem_singleton.mp hu ▸ le_refl _)⟩
  | cons next votes ih =>
    -- the induction goes on from whichever of the two votes is the later one
    rw [List.foldl_cons, laterVote, Option.all_some]
    split_ifs with hlater <;> rw [decide_eq_true_eq] at hlater
    · obtain ⟨v, hfold, hmem, hlatest⟩ := ih next
      refine ⟨v, hfold, List.mem_cons_of_mem w hmem, List.forall_mem_cons.mpr ⟨?_, hlatest⟩⟩
      exact hlater.trans (hlatest next List.mem_cons_self)
    · obtain ⟨v, hfold, hmem, hlatest⟩ := ih w
      obtain ⟨hw, hvotes⟩ := List.forall_mem_cons.mp hlatest
      refine ⟨v, hfold, ?_, List.forall_mem_cons.mpr ⟨hw, List.forall_mem_cons.mpr ⟨?_, hvotes⟩⟩⟩
      · rcases List.mem_cons.mp hmem with rfl | hmem
        · exact List.mem_cons_self
        · exact List.mem_cons_of_mem w (List.mem_cons_of_mem next hmem)
      · exact (not_le.mp hlater).le.trans hw

theorem foldl_laterVote_eq_some (hdistinct : ∀ u ∈ votes, ∀ v ∈ votes, u.time = v.time → u = v) :
    votes.foldl laterVote none = some v ↔ v ∈ votes ∧ ∀ u ∈ votes, u.time ≤ v.time := by
  cases votes with
  | nil => exact iff_of_false (fun h => by cases h) fun h => List.not_mem_nil h.1
  | cons w votes =>
    obtain ⟨latest, hfold, hmem, hlatest⟩ := foldl_laterVote w votes
    rw [List.foldl_cons, laterVote, Option.all_none, if_pos rfl, hfold, Option.some_inj]
    refine ⟨fun h => h ▸ ⟨hmem, hlatest⟩, fun h => ?_⟩
    exact hdistinct latest hmem v h.1 (le_antisymm (h.2 latest hmem) (hlatest v h.1))

/-- **What the fold keeps of a member**: its latest vote. -/
theorem finalCcVoteByMember_eq_some (hdistinct : DistinctTimes timeline votes)
    (hmember : cold ∈ countedMembers timeline.members boundary) :
    finalCcVoteByMember votes timeline boundary cutoff cold = some v ↔
      LatestVote votes timeline cutoff cold v := by
  have hkept : ∀ u, u ∈ votes.filter (fun v => v.countsFor timeline boundary cutoff = some cold) ↔
      u ∈ votes ∧ EligibleVote timeline cutoff cold u := fun u => by
    rw [List.mem_filter, decide_eq_true_eq, countsFor_eq_some, and_iff_left hmember]
  have hunique : ∀ u ∈ votes.filter (fun v => v.countsFor timeline boundary cutoff = some cold),
      ∀ v ∈ votes.filter (fun v => v.countsFor timeline boundary cutoff = some cold),
        u.time = v.time → u = v := fun u hu v hv htime => by
    obtain ⟨humem, hueligible⟩ := (hkept u).mp hu
    obtain ⟨hvmem, hveligible⟩ := (hkept v).mp hv
    by_contra hne
    have hdiffer : TimesDiffer timeline u v := List.Pairwise.forall hdistinct humem hvmem hne
    exact hdiffer cold hueligible.1 hveligible.1 htime
  rw [finalCcVoteByMember_apply, foldl_laterVote_eq_some hunique, hkept, LatestVote, and_assoc]
  simp only [hkept, and_imp]

/-! ### The counts -/

theorem countP_final (hdistinct : DistinctTimes timeline votes) (choice : CcChoice) :
    ((activeCommitteeMembersAtBoundary timeline.members boundary).filterMap
      (finalCcVoteByMember votes timeline boundary cutoff)).countP (fun v => v.vote = choice) =
        (membersFor votes timeline boundary cutoff choice).card := by
  rw [membersFor, ← toFinset_active, (nodup_active timeline.members boundary).card_eq_countP,
    List.countP_filterMap]
  -- both sides go through the members, so it is enough to look at one of them
  refine List.countP_congr fun cold hcold => ?_
  have hlatest : ∀ v, finalCcVoteByMember votes timeline boundary cutoff cold = some v ↔
      LatestVote votes timeline cutoff cold v := fun v =>
    finalCcVoteByMember_eq_some hdistinct (mem_active.mp hcold)
  rw [decide_eq_true_eq]
  rcases hfinal : finalCcVoteByMember votes timeline boundary cutoff cold with _ | v
  · refine iff_of_false (fun h => by cases h) ?_
    rintro ⟨v, -, hv, -⟩
    have hsome := (hlatest v).mpr hv
    rw [hfinal] at hsome
    cases hsome
  · have hv := (hlatest v).mp hfinal
    rw [Option.map_some, Option.getD_some, decide_eq_true_eq]
    refine ⟨fun h => ⟨v, hv.1, hv, h⟩, ?_⟩
    rintro ⟨u, -, hu, rfl⟩
    rw [← Option.some_inj.mp (hfinal.symm.trans ((hlatest u).mpr hu))]

/-- **The fold is the reference.** -/
theorem ccTallyPct_eq_reference (hdistinct : DistinctTimes timeline votes) :
    ccTallyPct js votes timeline boundary cutoff =
      referenceTally js votes timeline boundary cutoff := by
  rw [ccTallyPct, referenceTally]
  dsimp only
  rw [countP_final hdistinct, countP_final hdistinct, countP_final hdistinct, length_active]
  by_cases hempty : (countedMembers timeline.members boundary).card = 0
  · have hnone : ∀ choice, membersFor votes timeline boundary cutoff choice = ∅ := fun choice => by
      rw [membersFor, Finset.card_eq_zero.mp hempty, Finset.filter_empty]
    rw [if_pos hempty, hnone, hnone, hnone, hempty, Finset.card_empty, Nat.sub_self, if_pos rfl]
  · rw [if_neg hempty]

theorem ccTallyPct_irrelevant (before after : List CcVote)
    (h : IrrelevantVote timeline boundary cutoff v) :
    ccTallyPct js (before ++ v :: after) timeline boundary cutoff =
      ccTallyPct js (before ++ after) timeline boundary cutoff := by
  have hfinal : finalCcVoteByMember (before ++ v :: after) timeline boundary cutoff =
      finalCcVoteByMember (before ++ after) timeline boundary cutoff := by
    funext cold
    rw [finalCcVoteByMember_apply, finalCcVoteByMember_apply, List.filter_append,
      List.filter_append, List.filter_cons, countsFor_of_irrelevant h]
    rfl
  rw [ccTallyPct, ccTallyPct, hfinal]

theorem countP_choices (values : List CcVote) :
    values.countP (fun v => v.vote = .yes) + values.countP (fun v => v.vote = .no) +
      values.countP (fun v => v.vote = .abstain) = values.length := by
  induction values with
  | nil => rfl
  | cons v values ih =>
    rw [List.countP_cons, List.countP_cons, List.countP_cons, List.length_cons, ← ih]
    rcases v.vote with _ | _ | _ <;> simp only [decide_true, decide_false, reduceCtorEq, if_true,
      Bool.false_eq_true, if_false] <;> omega

theorem counts_le (votes : List CcVote) (timeline : CommitteeTimeline) (boundary : ℤ)
    (cutoff : Option ℤ) :
    (ccTallyPct js votes timeline boundary cutoff).yes +
      (ccTallyPct js votes timeline boundary cutoff).no +
      (ccTallyPct js votes timeline boundary cutoff).abstain ≤
        (countedMembers timeline.members boundary).card := by
  rw [ccTallyPct]
  split_ifs
  · exact Nat.zero_le _
  all_goals
    rw [countP_choices, ← length_active]
    exact List.length_filterMap_le _ _

end

/-! ### Exact percentages -/

/-- The numbers as exact ones: powers are digits, and a percentage is rounded to hundredths. -/
def exactNumbers : JsNumbers ℚ where
  ofString s := digitsValue s.toList
  ofNat n := n
  add a b := a + b
  percent part whole := round2 (part / whole * 100)

theorem percent_mem {part whole : ℕ} (h : part ≤ whole) :
    0 ≤ exactNumbers.percent part whole ∧ exactNumbers.percent part whole ≤ 100 := by
  have hpart : (part : ℚ) / whole ≤ 1 :=
    div_le_one_of_le₀ (Nat.cast_le.mpr h) (Nat.cast_nonneg whole)
  have hnonneg : 0 ≤ (part : ℚ) / whole := div_nonneg (Nat.cast_nonneg part) (Nat.cast_nonneg whole)
  exact round2_mem (by linarith) (by linarith)

/-- The percentages of a tally of so many members. -/
structure PercentagesRight (tally : CcTally ℚ) (members : ℕ) : Prop where
  yes : ∀ pct ∈ tally.yesPct, 0 ≤ pct ∧ pct ≤ 100
  no : ∀ pct ∈ tally.noPct, 0 ≤ pct ∧ pct ≤ 100
  noYes : tally.yesPct = none ↔ members = tally.abstain
  noNo : tally.noPct = none ↔ members = tally.abstain

theorem percentagesRight {yes no abstain members : ℕ} (h : yes + no + abstain ≤ members) :
    PercentagesRight
      { yesPct := if members - abstain = 0 then none
          else some (exactNumbers.percent yes (members - abstain))
        noPct := if members - abstain = 0 then none
          else some (exactNumbers.percent (members - abstain - yes) (members - abstain))
        yes := yes
        no := no
        abstain := abstain } members := by
  have hnone : members - abstain = 0 ↔ members = abstain := by omega
  refine ⟨fun pct hpct => ?_, fun pct hpct => ?_, ?_, ?_⟩
  · dsimp only at hpct
    split_ifs at hpct with hzero
    · cases hpct
    · cases hpct
      exact percent_mem (by omega)
  · dsimp only at hpct
    split_ifs at hpct with hzero
    · cases hpct
    · cases hpct
      exact percent_mem (Nat.sub_le _ _)
  all_goals
    rw [← hnone]
    split_ifs with hzero
    · exact iff_of_true rfl hzero
    · exact iff_of_false (fun h => by cases h) hzero

structure CcTallyRight {ν : Type*} (js : JsNumbers ν) (votes : List CcVote)
    (timeline : CommitteeTimeline) (boundary : ℤ) (cutoff : Option ℤ) : Prop where
  reference : ccTallyPct js votes timeline boundary cutoff =
    referenceTally js votes timeline boundary cutoff
  order : ∀ votes', votes.Perm votes' →
    ccTallyPct js votes' timeline boundary cutoff = ccTallyPct js votes timeline boundary cutoff
  irrelevant : ∀ before after v, before ++ after = votes →
    IrrelevantVote timeline boundary cutoff v →
      ccTallyPct js (before ++ v :: after) timeline boundary cutoff =
        ccTallyPct js votes timeline boundary cutoff
  counts : (ccTallyPct js votes timeline boundary cutoff).yes +
    (ccTallyPct js votes timeline boundary cutoff).no +
    (ccTallyPct js votes timeline boundary cutoff).abstain ≤
      (countedMembers timeline.members boundary).card

/-- **The committee tally** is the one taken member by member, in whatever order the votes come; and
its percentages are some, of those who do not abstain. -/
theorem ccTallyPct_right {ν : Type*} (js : JsNumbers ν) (votes : List CcVote)
    (timeline : CommitteeTimeline) (boundary : ℤ) (cutoff : Option ℤ)
    (hdistinct : DistinctTimes timeline votes) :
    CcTallyRight js votes timeline boundary cutoff ∧
      PercentagesRight (ccTallyPct exactNumbers votes timeline boundary cutoff)
        (countedMembers timeline.members boundary).card := by
  refine ⟨⟨ccTallyPct_eq_reference js hdistinct, fun votes' hperm => ?_,
    fun before after v hvotes hirrelevant => ?_, counts_le js votes timeline boundary cutoff⟩, ?_⟩
  · exact (ccTallyPct_perm hperm hdistinct).symm
  · rw [ccTallyPct_irrelevant js before after hirrelevant, hvotes]
  · have hcounts := counts_le exactNumbers votes timeline boundary cutoff
    rw [ccTallyPct_eq_reference exactNumbers hdistinct] at hcounts ⊢
    exact percentagesRight hcounts

/-! ### A rotated hot key -/

/-- A member with two hot keys, and one who has resigned. -/
def sampleRotation : CommitteeTimeline where
  members := [⟨"a", 500, none, 600, 500, none⟩, ⟨"b", 500, none, 600, 500, some 510⟩]
  hotToCold hot :=
    if hot = "a1" ∨ hot = "a2" then some "a" else if hot = "b1" then some "b" else none

def sampleRotatedVotes : List CcVote :=
  [⟨"a2", .yes, some 20⟩, ⟨"a1", .no, some 10⟩, ⟨"b1", .no, some 30⟩]

theorem ccTallyPct_right_rotated :
    ccTallyPct exactNumbers sampleRotatedVotes sampleRotation 520 (some 100) =
        ⟨some 100, some 0, 1, 0, 0⟩ ∧
      CcTallyRight exactNumbers sampleRotatedVotes sampleRotation 520 (some 100) ∧
      PercentagesRight (ccTallyPct exactNumbers sampleRotatedVotes sampleRotation 520 (some 100))
        (countedMembers sampleRotation.members 520).card := by
  have htimes : sampleRotatedVotes.Pairwise fun u v => u.time ≠ v.time := by decide
  refine ⟨by decide +kernel, ?_⟩
  exact ccTallyPct_right exactNumbers sampleRotatedVotes sampleRotation 520 (some 100)
    (htimes.imp fun hne _ _ _ => hne)

end DrepTalk
