import DrepTalk.Governance.StakeShare
import DrepTalk.Governance.TallyColumns

/-!
# The stake behind a vote

`buildBodyStake` of `src/lib/governance/fullStakeView.ts`. A body's vote is shown against two
wholes: the counted stake, which is that of the ratification, and the full stake. The No side is one
stored figure, which holds the voted No, the stake that did not vote, what always votes no
confidence, and, in the vote of the pools on a hard fork, what always abstains.

**The split** (`buildBodyStake_right`). The segments add up to the full stake, and the counted ones,
which come first, to the counted stake; each bucket is in one of them.
-/

namespace DrepTalk

inductive StakeBody
  | DRep
  | SPO
  deriving DecidableEq

/-! ### The segments -/

inductive FullStakeSegmentKey
  | yes
  | no
  | defaultNo
  | alwaysNoConfidence
  | activeAbstain
  | alwaysAbstain
  deriving DecidableEq

structure FullStakeSegment where
  key : FullStakeSegmentKey
  pct : ℚ
  label : String
  amountLabel : String
  counted : Bool

structure BodyStakeView where
  segments : List FullStakeSegment
  countedLabel : String
  totalLabel : String
  excludedLabel : String
  countedSharePct : ℚ
  turnoutPct : ℚ
  approvalThresholdPct : Option ℚ

structure BodyStakeInput where
  actionType : String
  body : StakeBody
  activeYesPower : Option ℤ
  activeNoPower : Option ℤ
  activeAbstainPower : Option ℤ
  noSidePower : Option Text
  alwaysAbstainPower : Option Text
  alwaysNoConfidencePower : Option Text
  approvalThresholdPct : Option ℚ

def SEGMENT_ORDER : List FullStakeSegmentKey :=
  [.yes, .no, .defaultNo, .alwaysNoConfidence, .activeAbstain, .alwaysAbstain]

def SEGMENT_ORDER_AA_COUNTED : List FullStakeSegmentKey :=
  [.yes, .no, .defaultNo, .alwaysNoConfidence, .alwaysAbstain, .activeAbstain]

def COUNTED : FullStakeSegmentKey → Bool
  | .yes => true
  | .no => true
  | .defaultNo => true
  | .alwaysNoConfidence => true
  | .activeAbstain => false
  | .alwaysAbstain => false

def LABELS : FullStakeSegmentKey → String
  | .yes => "Yes"
  | .no => "No, voted"
  | .defaultNo => "No by default, did not vote"
  | .alwaysNoConfidence => "Always no confidence"
  | .activeAbstain => "Abstain, voted"
  | .alwaysAbstain => "Always abstain"

def activePower (v : Option ℤ) : ℤ := v.getD 0

/-- `alwaysAbstainIsNoSide(input.actionType, input.body)`. -/
def BodyStakeInput.aaCounted (input : BodyStakeInput) : Bool :=
  input.body == .SPO && alwaysAbstainIsNoSide input.actionType

structure StakeAmounts where
  activeYes : ℤ
  activeNo : ℤ
  activeAbstain : ℤ
  noSide : ℤ
  alwaysAbstain : ℤ
  alwaysNoConfidence : ℤ
  aaCounted : Bool

/-- The columns read, `none` where `buildBodyStake` declines them. -/
def readAmounts (input : BodyStakeInput) : Option StakeAmounts :=
  match input.noSidePower, input.alwaysAbstainPower, input.alwaysNoConfidencePower with
  | some noSidePower, some alwaysAbstainPower, some alwaysNoConfidencePower =>
    if (input.activeYesPower.isNone && input.activeNoPower.isNone &&
        input.activeAbstainPower.isNone) || !ancIsNoSide input.actionType then none
    else
      match bigIntOfText noSidePower, bigIntOfText alwaysAbstainPower,
        bigIntOfText alwaysNoConfidencePower with
      | some noSide, some alwaysAbstain, some alwaysNoConfidence =>
        some
          { activeYes := activePower input.activeYesPower
            activeNo := activePower input.activeNoPower
            activeAbstain := activePower input.activeAbstainPower
            noSide := noSide
            alwaysAbstain := alwaysAbstain
            alwaysNoConfidence := alwaysNoConfidence
            aaCounted := input.aaCounted }
      | _, _, _ => none
  | _, _, _ => none

namespace StakeAmounts

variable (ada : ℤ → String) (a : StakeAmounts)

/-- What the No side holds besides its identifiable parts. -/
def defaultNo : ℤ :=
  a.noSide - a.activeNo - a.alwaysNoConfidence - if a.aaCounted then a.alwaysAbstain else 0

def counted : ℤ := a.activeYes + a.noSide

def excluded : ℤ := if a.aaCounted then a.activeAbstain else a.activeAbstain + a.alwaysAbstain

def total : ℤ := a.counted + a.excluded

def voted : ℤ := a.activeYes + a.activeNo + a.activeAbstain

def amounts : FullStakeSegmentKey → ℤ
  | .yes => a.activeYes
  | .no => a.activeNo
  | .defaultNo => a.defaultNo
  | .alwaysNoConfidence => a.alwaysNoConfidence
  | .activeAbstain => a.activeAbstain
  | .alwaysAbstain => a.alwaysAbstain

def order : List FullStakeSegmentKey :=
  if a.aaCounted then SEGMENT_ORDER_AA_COUNTED else SEGMENT_ORDER

def isCounted (key : FullStakeSegmentKey) : Bool :=
  if key = .alwaysAbstain then a.aaCounted else COUNTED key

def segment (key : FullStakeSegmentKey) : FullStakeSegment where
  key := key
  pct := pct4 (a.amounts key) a.total
  label := if key = .alwaysAbstain ∧ a.aaCounted = true then "Always abstain, counted as No"
    else LABELS key
  amountLabel := ada (a.amounts key)
  counted := a.isCounted key

def shown : List FullStakeSegmentKey := a.order.filter fun key => decide (0 < a.amounts key)

end StakeAmounts

/-- An amount is written by `ada`. -/
def buildBodyStake (ada : ℤ → String) (input : BodyStakeInput) : Option BodyStakeView :=
  match readAmounts input with
  | none => none
  | some a =>
    if a.defaultNo < 0 then none
    else if a.total ≤ 0 then none
    else
      some
        { segments := a.shown.map (a.segment ada)
          countedLabel := ada a.counted
          totalLabel := ada a.total
          excludedLabel := ada a.excluded
          countedSharePct := pct4 a.counted a.total
          turnoutPct := pct4 a.voted a.total
          approvalThresholdPct := input.approvalThresholdPct }

/-! ### Sums of segments -/

theorem sum_map_filter_pos {κ : Type*} {f : κ → ℤ} {keys : List κ} (h : ∀ key ∈ keys, 0 ≤ f key) :
    ((keys.filter fun key => decide (0 < f key)).map f).sum = (keys.map f).sum := by
  induction keys with
  | nil => rfl
  | cons key keys ih =>
    obtain ⟨hkey, hkeys⟩ := List.forall_mem_cons.mp h
    rw [List.filter_cons, List.map_cons, List.sum_cons, ← ih hkeys]
    split_ifs with hpos
    · rw [List.map_cons, List.sum_cons]
    · have hzero : f key = 0 := by
        rw [decide_eq_true_eq] at hpos
        omega
      rw [hzero, zero_add]

namespace StakeAmounts

variable {ada : ℤ → String} {a : StakeAmounts}

def Nonneg (a : StakeAmounts) : Prop := ∀ key, 0 ≤ a.amounts key

theorem mem_order (a : StakeAmounts) (key : FullStakeSegmentKey) : key ∈ a.order := by
  rw [order]
  split_ifs <;> cases key <;> decide

theorem nodup_order (a : StakeAmounts) : a.order.Nodup := by
  rw [order]
  split_ifs <;> decide

theorem sum_order (a : StakeAmounts) : (a.order.map a.amounts).sum = a.total := by
  rw [order]
  split_ifs with haa <;>
    simp [SEGMENT_ORDER, SEGMENT_ORDER_AA_COUNTED, amounts, defaultNo, total, counted, excluded,
      haa] <;> ring

theorem sum_order_counted (a : StakeAmounts) :
    ((a.order.filter a.isCounted).map a.amounts).sum = a.counted := by
  rw [order]
  split_ifs with haa <;>
    simp [SEGMENT_ORDER, SEGMENT_ORDER_AA_COUNTED, isCounted, COUNTED, amounts, defaultNo, counted,
      haa]

theorem order_eq_append (a : StakeAmounts) :
    a.order = a.order.filter a.isCounted ++ a.order.filter fun key => !a.isCounted key := by
  rw [order]
  split_ifs with haa <;>
    simp [SEGMENT_ORDER, SEGMENT_ORDER_AA_COUNTED, isCounted, COUNTED, haa]

variable {key : FullStakeSegmentKey} {power : Option Text}

theorem mem_shown : key ∈ a.shown ↔ 0 < a.amounts key := by
  rw [shown, List.mem_filter, decide_eq_true_eq]
  exact and_iff_right (a.mem_order key)

theorem filter_shown (p : FullStakeSegmentKey → Bool) : a.shown.filter p =
    (a.order.filter p).filter fun key => decide (0 < a.amounts key) :=
  List.filter_comm _ _ _

theorem sum_shown (h : a.Nonneg) : (a.shown.map a.amounts).sum = a.total := by
  rw [shown, sum_map_filter_pos fun key _ => h key, sum_order]

theorem sum_shown_counted (h : a.Nonneg) :
    ((a.shown.filter a.isCounted).map a.amounts).sum = a.counted := by
  rw [filter_shown, sum_map_filter_pos fun key _ => h key, sum_order_counted]

end StakeAmounts

/-! ### The split -/

/-- The amount of a text column, of one that is missing zero. -/
def textPower (power : Option Text) : ℤ := (power.bind bigIntOfText).getD 0

/-- The stored columns hold amounts, or nothing. -/
structure BodyStakeInput.HoldsAmounts (input : BodyStakeInput) : Prop where
  numbers : ∀ power ∈ [input.activeYesPower, input.activeNoPower, input.activeAbstainPower],
    ∀ n ∈ power, 0 ≤ n
  texts : ∀ power ∈ [input.noSidePower, input.alwaysAbstainPower, input.alwaysNoConfidencePower],
    ∀ text ∈ power, ∃ n : ℕ, bigIntOfText text = some (n : ℤ)

/-- A column that the split needs is missing. -/
def BodyStakeInput.MissesColumn (input : BodyStakeInput) : Prop :=
  input.noSidePower = none ∨ input.alwaysAbstainPower = none ∨
    input.alwaysNoConfidencePower = none ∨
      input.activeYesPower = none ∧ input.activeNoPower = none ∧ input.activeAbstainPower = none

/-- The amounts of the stored columns. -/
def BodyStakeInput.stored (input : BodyStakeInput) : StakeAmounts where
  activeYes := activePower input.activeYesPower
  activeNo := activePower input.activeNoPower
  activeAbstain := activePower input.activeAbstainPower
  noSide := textPower input.noSidePower
  alwaysAbstain := textPower input.alwaysAbstainPower
  alwaysNoConfidence := textPower input.alwaysNoConfidencePower
  aaCounted := decide (input.body = .SPO ∧ input.actionType = "HardForkInitiation")

/-- The parts of the No side are larger than it. -/
def StakeAmounts.Exceeds (a : StakeAmounts) : Prop :=
  a.noSide < a.activeNo + a.alwaysNoConfidence + if a.aaCounted then a.alwaysAbstain else 0

/-- What a view owes to the amounts that it is of. -/
structure StakeViewRight (ada : ℤ → String) (a : StakeAmounts) (view : BodyStakeView) : Prop where
  sum : (view.segments.map fun s => a.amounts s.key).sum = a.counted + a.excluded
  countedSum : ((view.segments.filter fun s => s.counted).map fun s => a.amounts s.key).sum =
    a.activeYes + a.noSide
  positive : ∀ s ∈ view.segments, 0 < a.amounts s.key
  countedFirst : ∃ front back, view.segments = front ++ back ∧ (∀ s ∈ front, s.counted = true) ∧
    ∀ s ∈ back, s.counted = false
  once : (view.segments.map fun s => s.key).Nodup
  every : ∀ key, 0 < a.amounts key → ∃ s ∈ view.segments, s.key = key
  sides : ∀ s ∈ view.segments, s.counted = true ↔
    s.key ≠ .activeAbstain ∧ (s.key = .alwaysAbstain → a.aaCounted = true)
  figures : ∀ s ∈ view.segments, s.amountLabel = ada (a.amounts s.key) ∧
    s.pct = pct4 (a.amounts s.key) (a.counted + a.excluded)
  turnout : view.turnoutPct = pct4 a.voted (a.counted + a.excluded) ∧
    0 ≤ 100 * (a.voted : ℚ) / (a.counted + a.excluded) ∧
      100 * (a.voted : ℚ) / (a.counted + a.excluded) ≤ 100
  countedShare : view.countedSharePct = pct4 a.counted (a.counted + a.excluded) ∧
    0 ≤ 100 * (a.counted : ℚ) / (a.counted + a.excluded) ∧
      100 * (a.counted : ℚ) / (a.counted + a.excluded) ≤ 100

variable {ada : ℤ → String} {input : BodyStakeInput}

theorem activePower_nonneg {power : Option ℤ} (h : ∀ n ∈ power, 0 ≤ n) : 0 ≤ activePower power := by
  cases power with
  | none => exact le_refl 0
  | some n => exact h n rfl

theorem textPower_nonneg (h : ∀ text ∈ power, ∃ n : ℕ, bigIntOfText text = some (n : ℤ)) :
    0 ≤ textPower power := by
  cases power with
  | none => exact le_refl 0
  | some text =>
    obtain ⟨n, hn⟩ := h text rfl
    rw [textPower, Option.bind_some, hn]
    exact Int.natCast_nonneg n

theorem bigIntOfText_eq {text : Text} (hpower : power = some text)
    (h : ∀ text ∈ power, ∃ n : ℕ, bigIntOfText text = some (n : ℤ)) :
    bigIntOfText text = some (textPower power) := by
  obtain ⟨n, hn⟩ := h text hpower
  rw [textPower, hpower, Option.bind_some, hn, Option.getD_some]

theorem aaCounted_eq (input : BodyStakeInput) : input.aaCounted = input.stored.aaCounted := by
  rw [BodyStakeInput.aaCounted, alwaysAbstainIsNoSide, BodyStakeInput.stored, Bool.eq_iff_iff,
    Bool.and_eq_true, beq_iff_eq, beq_iff_eq, decide_eq_true_eq]

theorem readAmounts_eq (h : input.HoldsAmounts) :
    (readAmounts input = none ∧ (input.MissesColumn ∨ input.actionType = "NoConfidence")) ∨
      readAmounts input = some input.stored ∧
        ¬(input.MissesColumn ∨ input.actionType = "NoConfidence") := by
  have htexts := h.texts
  simp only [List.forall_mem_cons] at htexts
  obtain ⟨hnoSide, halwaysAbstain, hanc, -⟩ := htexts
  rw [readAmounts, BodyStakeInput.MissesColumn]
  rcases h1 : input.noSidePower with _ | noSide
  · exact .inl ⟨rfl, .inl (.inl rfl)⟩
  rcases h2 : input.alwaysAbstainPower with _ | alwaysAbstain
  · exact .inl ⟨rfl, .inl (.inr (.inl rfl))⟩
  rcases h3 : input.alwaysNoConfidencePower with _ | alwaysNoConfidence
  · exact .inl ⟨rfl, .inl (.inr (.inr (.inl rfl)))⟩
  dsimp only
  rw [bigIntOfText_eq h1 hnoSide, bigIntOfText_eq h2 halwaysAbstain, bigIntOfText_eq h3 hanc]
  split_ifs with hif <;>
    rw [Bool.or_eq_true,
      Bool.and_eq_true, Bool.and_eq_true, Option.isNone_iff_eq_none, Option.isNone_iff_eq_none,
    Option.isNone_iff_eq_none, and_assoc, Bool.not_eq_true', ancIsNoSide, bne_eq_false_iff_eq] at hif
  · exact .inl ⟨rfl, hif.imp_left fun hnone => .inr (.inr (.inr hnone))⟩
  · refine .inr ⟨by rw [aaCounted_eq]; rfl, ?_⟩
    -- the texts are there, so what is missing can only be the three numbers
    rintro ((hnone | hnone | hnone | hnone) | htype)
    · cases hnone
    · cases hnone
    · cases hnone
    · exact hif (.inl hnone)
    · exact hif (.inr htype)

theorem stored_nonneg (h : input.HoldsAmounts) (hsplit : ¬input.stored.Exceeds) :
    input.stored.Nonneg := by
  have hnumbers := h.numbers
  have htexts := h.texts
  simp only [List.forall_mem_cons] at hnumbers htexts
  obtain ⟨hyes, hno, habstain, -⟩ := hnumbers
  obtain ⟨-, halwaysAbstain, hanc, -⟩ := htexts
  rintro (_ | _ | _ | _ | _ | _)
  · exact activePower_nonneg hyes
  · exact activePower_nonneg hno
  · rw [StakeAmounts.Exceeds] at hsplit
    show 0 ≤ input.stored.defaultNo
    rw [StakeAmounts.defaultNo]
    omega
  · exact textPower_nonneg hanc
  · exact activePower_nonneg habstain
  · exact textPower_nonneg halwaysAbstain

theorem share_mem {part whole : ℤ} (hpart : 0 ≤ part) (hle : part ≤ whole) (hwhole : 0 < whole) :
    0 ≤ 100 * (part : ℚ) / whole ∧ 100 * (part : ℚ) / whole ≤ 100 := by
  have hpart' : (0 : ℚ) ≤ part := Int.cast_nonneg hpart
  have hle' : (part : ℚ) ≤ whole := Int.cast_le.mpr hle
  have hwhole' : (0 : ℚ) < whole := Int.cast_pos.mpr hwhole
  refine ⟨by positivity, ?_⟩
  rw [div_le_iff₀ hwhole']
  exact mul_le_mul_of_nonneg_left hle' (by norm_num)

namespace StakeAmounts

variable {a : StakeAmounts}

theorem Nonneg.within (h : a.Nonneg) :
    (0 ≤ a.voted ∧ a.voted ≤ a.total) ∧ 0 ≤ a.counted ∧ a.counted ≤ a.total := by
  have hyes : 0 ≤ a.activeYes := h .yes
  have hno : 0 ≤ a.activeNo := h .no
  have hrest : 0 ≤ a.defaultNo := h .defaultNo
  have hanc : 0 ≤ a.alwaysNoConfidence := h .alwaysNoConfidence
  have habstain : 0 ≤ a.activeAbstain := h .activeAbstain
  have haa : 0 ≤ a.alwaysAbstain := h .alwaysAbstain
  rw [defaultNo] at hrest
  rw [voted, total, counted, excluded]
  split_ifs at hrest ⊢ <;> omega

theorem isCounted_iff : a.isCounted key = true ↔
    key ≠ .activeAbstain ∧ (key = .alwaysAbstain → a.aaCounted = true) := by
  cases key <;> simp [isCounted, COUNTED]

theorem viewRight (h : a.Nonneg) (htotal : 0 < a.total) (view : BodyStakeView)
    (hsegments : view.segments = a.shown.map (a.segment ada))
    (hturnout : view.turnoutPct = pct4 a.voted a.total)
    (hshare : view.countedSharePct = pct4 a.counted a.total) : StakeViewRight ada a view := by
  have hkeys : view.segments.map (fun s => s.key) = a.shown := by
    rw [hsegments, List.map_map]
    exact List.map_id a.shown
  have hmem : ∀ s ∈ view.segments, ∃ key ∈ a.shown, a.segment ada key = s := fun s hs => by
    rwa [hsegments, List.mem_map] at hs
  have hcast : (a.total : ℚ) = a.counted + a.excluded := by
    rw [total, Int.cast_add]
  obtain ⟨hvoted, hcounted⟩ := h.within
  -- each part is about the keys that are shown, of which the segments are made
  refine ⟨?_, ?_, fun s hs => ?_, ⟨(a.shown.filter a.isCounted).map (a.segment ada),
    (a.shown.filter fun key => !a.isCounted key).map (a.segment ada), ?_, fun s hs => ?_,
    fun s hs => ?_⟩, ?_, fun key hkey => ?_, fun s hs => ?_, fun s hs => ?_, ⟨hturnout, ?_⟩,
    hshare, ?_⟩
  · rw [hsegments, List.map_map]
    exact sum_shown h
  · rw [hsegments, List.filter_map, List.map_map]
    exact sum_shown_counted h
  · obtain ⟨key, hkey, rfl⟩ := hmem s hs
    exact mem_shown.mp hkey
  · rw [hsegments, ← List.map_append, filter_shown, filter_shown, ← List.filter_append,
      ← order_eq_append, shown]
  · obtain ⟨key, hkey, rfl⟩ := List.mem_map.mp hs
    exact (List.mem_filter.mp hkey).2
  · obtain ⟨key, hkey, rfl⟩ := List.mem_map.mp hs
    exact (Bool.not_eq_true' _).mp (List.mem_filter.mp hkey).2
  · rw [hkeys]
    exact a.nodup_order.filter _
  · exact ⟨a.segment ada key, hsegments ▸ List.mem_map_of_mem (mem_shown.mpr hkey), rfl⟩
  · obtain ⟨key, -, rfl⟩ := hmem s hs
    exact isCounted_iff
  · obtain ⟨key, -, rfl⟩ := hmem s hs
    exact ⟨rfl, rfl⟩
  · rw [← hcast]
    exact share_mem hvoted.1 hvoted.2 htotal
  · rw [← hcast]
    exact share_mem hcounted.1 hcounted.2 htotal

end StakeAmounts

/-- **The split of the stake** is right, and there is none exactly where a column is missing, for no
confidence, where the No side is smaller than its parts, and without stake. -/
theorem buildBodyStake_right (ada : ℤ → String) (input : BodyStakeInput)
    (h : input.HoldsAmounts) :
    (∀ view, buildBodyStake ada input = some view → StakeViewRight ada input.stored view) ∧
      (buildBodyStake ada input = none ↔ input.MissesColumn ∨
        input.actionType = "NoConfidence" ∨ input.stored.Exceeds ∨ input.stored.total = 0) := by
  rcases readAmounts_eq h with ⟨hread, hdeclined⟩ | ⟨hread, hkept⟩
  · rw [buildBodyStake, hread]
    exact ⟨fun view hview => (by cases hview), iff_of_true rfl (hdeclined.imp_right .inl)⟩
  rw [not_or] at hkept
  have hexceeds : input.stored.defaultNo < 0 ↔ input.stored.Exceeds := by
    rw [StakeAmounts.defaultNo, StakeAmounts.Exceeds]
    omega
  rw [buildBodyStake, hread]
  dsimp only
  split_ifs with hnegative hempty
  · exact ⟨fun view hview => (by cases hview),
      iff_of_true rfl (.inr (.inr (.inl (hexceeds.mp hnegative))))⟩
  · -- a whole that is not positive is none, since its parts are not negative
    have hnonneg := stored_nonneg h (fun hover => hnegative (hexceeds.mpr hover))
    obtain ⟨⟨hvoted, hwithin⟩, -⟩ := hnonneg.within
    exact ⟨fun view hview => (by cases hview), iff_of_true rfl (.inr (.inr (.inr (by omega))))⟩
  · have hnonneg := stored_nonneg h (fun hover => hnegative (hexceeds.mpr hover))
    refine ⟨fun view hview => ?_, iff_of_false (fun hnone => (by cases hnone)) ?_⟩
    · cases hview
      exact StakeAmounts.viewRight hnonneg (by omega) _ rfl rfl rfl
    · rintro (hmissing | htype | hover | hzero)
      · exact hkept.1 hmissing
      · exact hkept.2 htype
      · exact hnegative (hexceeds.mpr hover)
      · exact hempty hzero.le

/-! ### A hard fork -/

/-- A vote of the pools in which what always abstains is a part of the No side. -/
def sampleHardFork : BodyStakeInput where
  actionType := "HardForkInitiation"
  body := .SPO
  activeYesPower := some 10
  activeNoPower := none
  activeAbstainPower := some 5
  noSidePower := some "90".toList
  alwaysAbstainPower := some "40".toList
  alwaysNoConfidencePower := some "20".toList
  approvalThresholdPct := some 51

theorem sampleHardFork_holds : sampleHardFork.HoldsAmounts where
  numbers := by decide
  texts := by
    simp only [List.forall_mem_cons]
    refine ⟨fun text h => ⟨90, ?_⟩, fun text h => ⟨40, ?_⟩, fun text h => ⟨20, ?_⟩,
      List.forall_mem_nil _⟩
    all_goals
      cases h
      decide

/-- The segments of that vote. -/
theorem buildBodyStake_right_hardFork : ∃ view,
    buildBodyStake (fun n => toString n) sampleHardFork = some view ∧
      view.segments.map (fun s => (s.key, s.amountLabel, s.counted)) =
        [(.yes, "10", true), (.defaultNo, "30", true), (.alwaysNoConfidence, "20", true),
          (.alwaysAbstain, "40", true), (.activeAbstain, "5", false)] ∧
      StakeViewRight (fun n => toString n) sampleHardFork.stored view := by
  obtain ⟨hview, -⟩ :=
    buildBodyStake_right (fun n => toString n) sampleHardFork sampleHardFork_holds
  have hsome : (buildBodyStake (fun n => toString n) sampleHardFork).isSome = true := by
    decide +kernel
  obtain ⟨view, hbuilt⟩ := Option.isSome_iff_exists.mp hsome
  have hsegments : (buildBodyStake (fun n => toString n) sampleHardFork).map
      (fun view => view.segments.map fun s => (s.key, s.amountLabel, s.counted)) =
        some [(.yes, "10", true), (.defaultNo, "30", true), (.alwaysNoConfidence, "20", true),
          (.alwaysAbstain, "40", true), (.activeAbstain, "5", false)] := by
    decide +kernel
  rw [hbuilt] at hsegments
  exact ⟨view, hbuilt, Option.some.inj hsegments, hview view hbuilt⟩

end DrepTalk
