import DrepTalk.Format.Pct
import Mathlib.Data.List.GetD
import Mathlib.Data.List.Sort
import Mathlib.Tactic.Positivity

/-!
# The trend of a vote

`src/lib/governance/voteTrend.ts`. **A series** steps up at each yes vote of a body, in proportion
to its weight, and ends at the share that is stored for the action (`computeVoteTrendSeries`). What
it reads at a time (`sampleSeriesAt`) is that share of the weight so far (`sampleSeriesAt_eq`).

**The readout** under the cursor is one band per sample point (`buildHoverBands`): the step is
doubled until there are few enough, and each band goes half the way to its neighbours. Edges between
bands are rounded, and so is the width of a band; the bands tile the plot exactly when its own edges
are whole hundredths (`tiles_iff`), and up to half a hundredth in any case.

Numbers are exact.
-/

namespace DrepTalk

/-! ### Series -/

inductive TrendBodyKey
  | DRep
  | SPO
  | CC

structure TrendPoint where
  t : ℚ
  pct : ℚ

structure TrendSeries where
  key : TrendBodyKey
  points : List TrendPoint
  thresholdPct : Option ℚ
  finalLabel : String
  dashed : Option Bool

structure TrendVote where
  blockTime : ℚ
  weight : ℚ

structure TrendBodyInput where
  key : TrendBodyKey
  yesVotes : List TrendVote
  finalPct : Option ℚ
  thresholdPct : Option ℚ
  finalLabel : String
  dashed : Option Bool

structure TrendWindow where
  start : ℚ
  stop : ℚ

/-- A vote outside the window counts at its edge. -/
def TrendWindow.clamp (window : TrendWindow) (t : ℚ) : ℚ :=
  min (max t window.start) window.stop

def votesWeight (votes : List TrendVote) : ℚ := (votes.map fun v => v.weight).sum

/-- The loop over the votes, with the weight before. -/
def votePoints (window : TrendWindow) (finalPct total : ℚ) : ℚ → List TrendVote → List TrendPoint
  | _, [] => []
  | cum, v :: rest =>
    ⟨window.clamp v.blockTime, round2 (finalPct * (cum + v.weight) / total)⟩ ::
      votePoints window finalPct total (cum + v.weight) rest

def trendPoints (window : TrendWindow) (finalPct : ℚ) (votes : List TrendVote) : List TrendPoint :=
  ⟨window.start, 0⟩ ::
    (votePoints window finalPct (votesWeight votes) 0
      (votes.insertionSort fun a c => a.blockTime ≤ c.blockTime) ++
        [⟨window.stop, round2 finalPct⟩])

/-- The series of one body, which may be dropped. -/
def trendSeriesOf (window : TrendWindow) (b : TrendBodyInput) : Option TrendSeries :=
  b.finalPct.bind fun finalPct =>
    if b.yesVotes = [] then none
    else if votesWeight b.yesVotes ≤ 0 then none
    else some ⟨b.key, trendPoints window finalPct b.yesVotes, b.thresholdPct, b.finalLabel,
      b.dashed⟩

def computeVoteTrendSeries (bodies : List TrendBodyInput) (window : TrendWindow) :
    List TrendSeries :=
  bodies.filterMap (trendSeriesOf window)

/-- The loop of `sampleSeriesAt`, with the value read so far. -/
def samplePoints (t : ℚ) : ℚ → List TrendPoint → ℚ
  | pct, [] => pct
  | pct, p :: rest => if t < p.t then pct else samplePoints t p.pct rest

def sampleSeriesAt (series : TrendSeries) (t : ℚ) : ℚ :=
  match series.points with
  | [] => 0
  | first :: _ => samplePoints t first.pct series.points

/-! ### Bands -/

inductive ReadoutAnchor
  | start
  | stop
  deriving DecidableEq

structure HoverSample where
  key : TrendBodyKey
  pct : ℚ
  dashed : Bool

structure HoverBand where
  x : ℚ
  w : ℚ
  lineX : ℚ
  t : ℚ
  textX : ℚ
  anchor : ReadoutAnchor
  samples : List HoverSample

/-- What is read of the plot, the domain of times, and the step. -/
structure HoverBandOptions where
  plotX : ℚ
  plotW : ℚ
  tMin : ℚ
  tMax : ℚ
  step : ℚ

def MAX_HOVER_BANDS : ℕ := 41

def READOUT_GAP : ℚ := 6

abbrev PositiveStep := {step : ℚ // 0 < step}

/-- `step *= 2`. -/
def PositiveStep.double (step : PositiveStep) : PositiveStep :=
  ⟨step.1 * 2, mul_pos step.2 two_pos⟩

theorem floor_div_double_lt {span : ℚ} {step : PositiveStep} (h : 40 < span / step.1) :
    ⌊span / step.double.1⌋₊ < ⌊span / step.1⌋₊ := by
  have hhalf : span / step.double.1 ≤ span / step.1 - 1 := by
    rw [PositiveStep.double, ← div_div]
    linarith
  have hpos : 0 < ⌊span / step.1⌋₊ := Nat.floor_pos.mpr (by linarith)
  calc ⌊span / step.double.1⌋₊ ≤ ⌊span / step.1 - 1⌋₊ := Nat.floor_mono hhalf
    _ = ⌊span / step.1⌋₊ - 1 := Nat.floor_sub_one _
    _ < ⌊span / step.1⌋₊ := Nat.sub_lt hpos one_pos

/-- `while (span / step > MAX_HOVER_BANDS - 1) step *= 2`. -/
def coarsen (span : ℚ) (step : PositiveStep) : PositiveStep :=
  if ((MAX_HOVER_BANDS - 1 : ℕ) : ℚ) < span / step.1 then coarsen span step.double else step
termination_by ⌊span / step.1⌋₊
decreasing_by
  refine floor_div_double_lt ?_
  assumption

theorem ceil_div_sub_lt {tMax t : ℚ} {step : PositiveStep} (h : t < tMax) :
    ⌈(tMax - (t + step.1)) / step.1⌉₊ < ⌈(tMax - t) / step.1⌉₊ := by
  have hstep : (tMax - (t + step.1)) / step.1 = (tMax - t) / step.1 - 1 := by
    rw [← sub_sub, sub_div, div_self step.2.ne']
  have hpos : 0 < ⌈(tMax - t) / step.1⌉₊ := Nat.ceil_pos.mpr (div_pos (sub_pos.mpr h) step.2)
  rw [hstep, Nat.ceil_sub_one]
  exact Nat.sub_lt hpos one_pos

def sampleTimes (tMax : ℚ) (step : PositiveStep) (t : ℚ) : List ℚ :=
  if t < tMax then t :: sampleTimes tMax step (t + step.1) else []
termination_by ⌈(tMax - t) / step.1⌉₊
decreasing_by
  refine ceil_div_sub_lt ?_
  assumption

def HoverBandOptions.xFor (opts : HoverBandOptions) (t : ℚ) : ℚ :=
  round2 (opts.plotX + opts.plotW * (t - opts.tMin) / (opts.tMax - opts.tMin))

section

variable (opts : HoverBandOptions) (ts : List ℚ)

/-- The left edge of a band, from its index and time. -/
def bandLeft (i : ℕ) (t : ℚ) : ℚ :=
  if i = 0 then opts.plotX else round2 ((opts.xFor (ts.getD (i - 1) 0) + opts.xFor t) / 2)

def bandRight (i : ℕ) (t : ℚ) : ℚ :=
  if i = ts.length - 1 then opts.plotX + opts.plotW
  else round2 ((opts.xFor t + opts.xFor (ts.getD (i + 1) 0)) / 2)

def hoverBand (series : List TrendSeries) (i : ℕ) (t : ℚ) : HoverBand :=
  let lineX := opts.xFor t
  let left := bandLeft opts ts i t
  let right := bandRight opts ts i t
  let anchor := if opts.plotX + opts.plotW / 2 < lineX then ReadoutAnchor.stop else .start
  { x := left
    w := round2 (right - left)
    lineX
    t
    textX := if anchor = .stop then lineX - READOUT_GAP else lineX + READOUT_GAP
    anchor
    samples := series.map fun s => ⟨s.key, sampleSeriesAt s t, s.dashed == some true⟩ }

end

/-- The sample points, with the closing edge. -/
def hoverTimes (opts : HoverBandOptions) (step : PositiveStep) : List ℚ :=
  sampleTimes opts.tMax (coarsen (opts.tMax - opts.tMin) step) opts.tMin ++ [opts.tMax]

def buildHoverBands (series : List TrendSeries) (opts : HoverBandOptions) : List HoverBand :=
  if h : series = [] ∨ opts.tMax - opts.tMin ≤ 0 ∨ opts.step ≤ 0 then []
  else
    let step : PositiveStep := ⟨opts.step, not_le.mp fun hle => h (.inr (.inr hle))⟩
    (hoverTimes opts step).mapIdx (hoverBand opts (hoverTimes opts step) series)

/-! ### The points of a series -/

section

variable {window : TrendWindow} {finalPct total cum t : ℚ} {votes : List TrendVote}

theorem TrendWindow.clamp_mono (window : TrendWindow) : Monotone window.clamp :=
  fun _ _ h => min_le_min_right _ (max_le_max_right _ h)

theorem TrendWindow.clamp_mem (hwindow : window.start ≤ window.stop) (t : ℚ) :
    window.start ≤ window.clamp t ∧ window.clamp t ≤ window.stop :=
  ⟨le_min (le_max_right _ _) hwindow, min_le_right _ _⟩

theorem votesWeight_cons (v : TrendVote) (rest : List TrendVote) :
    votesWeight (v :: rest) = v.weight + votesWeight rest := List.sum_cons

theorem votesWeight_nonneg (hweights : ∀ v ∈ votes, 0 ≤ v.weight) : 0 ≤ votesWeight votes := by
  refine List.sum_nonneg fun w hw => ?_
  obtain ⟨v, hv, rfl⟩ := List.mem_map.mp hw
  exact hweights v hv

/-- The weight of the votes that count by a time. -/
def weightUpTo (window : TrendWindow) (t : ℚ) (votes : List TrendVote) : ℚ :=
  votesWeight (votes.filter fun v => window.clamp v.blockTime ≤ t)

theorem weightUpTo_perm {votes' : List TrendVote} (h : votes.Perm votes') :
    weightUpTo window t votes = weightUpTo window t votes' :=
  ((h.filter _).map _).sum_eq

theorem weightUpTo_eq_zero (h : ∀ v ∈ votes, t < window.clamp v.blockTime) :
    weightUpTo window t votes = 0 := by
  have hnone : (votes.filter fun v => window.clamp v.blockTime ≤ t) = [] := by
    rw [List.filter_eq_nil_iff]
    intro v hv
    simpa using h v hv
  rw [weightUpTo, hnone]
  rfl

theorem weightUpTo_eq_all (h : ∀ v ∈ votes, window.clamp v.blockTime ≤ t) :
    weightUpTo window t votes = votesWeight votes := by
  rw [weightUpTo, List.filter_eq_self.mpr]
  intro v hv
  simpa using h v hv

theorem round2_zero : round2 0 = 0 := round2_of_isHundredth ⟨0, by norm_num⟩

theorem mem_votePoints (hweights : ∀ v ∈ votes, 0 ≤ v.weight) {p : TrendPoint}
    (hp : p ∈ votePoints window finalPct total cum votes) :
    (∃ v ∈ votes, p.t = window.clamp v.blockTime) ∧
      ∃ c, cum ≤ c ∧ c ≤ cum + votesWeight votes ∧ p.pct = round2 (finalPct * c / total) := by
  induction votes generalizing cum with
  | nil => cases hp
  | cons v rest ih =>
    obtain ⟨hv, hrest⟩ := List.forall_mem_cons.mp hweights
    have hnonneg := votesWeight_nonneg hrest
    rw [votesWeight_cons]
    rcases List.mem_cons.mp hp with rfl | hp
    · exact ⟨⟨v, List.mem_cons_self, rfl⟩, cum + v.weight, by linarith, by linarith, rfl⟩
    · obtain ⟨⟨w, hw, ht⟩, c, hlow, hhigh, hpct⟩ := ih hrest hp
      exact ⟨⟨w, List.mem_cons_of_mem _ hw, ht⟩, c, by linarith, by linarith, hpct⟩

theorem round2_share_mono (hfinal : 0 ≤ finalPct) (htotal : 0 < total) {c c' : ℚ} (h : c ≤ c') :
    round2 (finalPct * c / total) ≤ round2 (finalPct * c' / total) :=
  round2_mono (div_le_div_of_nonneg_right (mul_le_mul_of_nonneg_left h hfinal) htotal.le)

theorem votePoints_pairwise (hfinal : 0 ≤ finalPct) (htotal : 0 < total)
    (hweights : ∀ v ∈ votes, 0 ≤ v.weight)
    (hsorted : votes.Pairwise fun a c => a.blockTime ≤ c.blockTime) :
    (votePoints window finalPct total cum votes).Pairwise fun p p' =>
      p.t ≤ p'.t ∧ p.pct ≤ p'.pct := by
  induction votes generalizing cum with
  | nil => exact .nil
  | cons v rest ih =>
    obtain ⟨hfirst, hrest⟩ := List.pairwise_cons.mp hsorted
    obtain ⟨-, hweights'⟩ := List.forall_mem_cons.mp hweights
    refine List.pairwise_cons.mpr ⟨fun p hp => ?_, ih hweights' hrest⟩
    obtain ⟨⟨w, hw, ht⟩, c, hlow, -, hpct⟩ := mem_votePoints hweights' hp
    rw [ht, hpct]
    exact ⟨window.clamp_mono (hfirst w hw), round2_share_mono hfinal htotal hlow⟩

theorem samplePoints_votePoints {tail : List TrendPoint}
    (htail : ∀ pct, samplePoints t pct tail = pct)
    (hsorted : votes.Pairwise fun a c => a.blockTime ≤ c.blockTime) :
    samplePoints t (round2 (finalPct * cum / total))
        (votePoints window finalPct total cum votes ++ tail) =
      round2 (finalPct * (cum + weightUpTo window t votes) / total) := by
  induction votes generalizing cum with
  | nil =>
    have hzero : weightUpTo window t [] = 0 := rfl
    rw [hzero, add_zero]
    exact htail _
  | cons v rest ih =>
    obtain ⟨hfirst, hrest⟩ := List.pairwise_cons.mp hsorted
    rw [votePoints, List.cons_append, samplePoints]
    split_ifs with hlater
    · -- the vote is later, and so are those behind it
      have hzero : weightUpTo window t (v :: rest) = 0 := by
        refine weightUpTo_eq_zero (List.forall_mem_cons.mpr ⟨hlater, fun w hw => ?_⟩)
        exact hlater.trans_le (window.clamp_mono (hfirst w hw))
      rw [hzero, add_zero]
    · have hcons : weightUpTo window t (v :: rest) = v.weight + weightUpTo window t rest := by
        rw [weightUpTo, List.filter_cons_of_pos (by simpa using hlater), votesWeight_cons]
        rfl
      rw [ih hrest, hcons, add_assoc]

theorem samplePoints_append (points : List TrendPoint) (p : TrendPoint) (pct : ℚ)
    (hpassed : ∀ p' ∈ points ++ [p], p'.t ≤ t) :
    samplePoints t pct (points ++ [p]) = p.pct := by
  induction points generalizing pct with
  | nil =>
    rw [List.nil_append, samplePoints, if_neg (not_lt.mpr (hpassed p (by simp)))]
    rfl
  | cons p' rest ih =>
    rw [List.cons_append, samplePoints, if_neg (not_lt.mpr (hpassed p' List.mem_cons_self))]
    exact ih _ fun q hq => hpassed q (List.mem_cons_of_mem _ hq)

/-- What a series owes: it lies in the window, rises from nothing to the final share, and reads at
any time the share of the weight by then. -/
structure IsTrend (window : TrendWindow) (finalPct : ℚ) (votes : List TrendVote)
    (s : TrendSeries) : Prop where
  times : ∀ p ∈ s.points, window.start ≤ p.t ∧ p.t ≤ window.stop
  rising : s.points.Pairwise fun p p' => p.t ≤ p'.t ∧ p.pct ≤ p'.pct
  first : s.points.head?.map (fun p => p.pct) = some 0
  last : s.points.getLast?.map (fun p => p.pct) = some (round2 finalPct)
  sampled : ∀ t, sampleSeriesAt s t =
    round2 (finalPct * weightUpTo window t votes / votesWeight votes)
  ended : ∀ t, window.stop ≤ t → sampleSeriesAt s t = round2 finalPct

theorem share_zero (finalPct total : ℚ) : round2 (finalPct * 0 / total) = 0 := by
  rw [mul_zero, zero_div, round2_zero]

theorem share_all (htotal : 0 < total) : finalPct * total / total = finalPct :=
  mul_div_cancel_right₀ _ htotal.ne'

theorem mem_middle (hwindow : window.start ≤ window.stop) (hfinal : 0 ≤ finalPct)
    (htotal : 0 < votesWeight votes) (hweights : ∀ v ∈ votes, 0 ≤ v.weight) {p : TrendPoint}
    (hp : p ∈ votePoints window finalPct (votesWeight votes) 0 votes) :
    (window.start ≤ p.t ∧ p.t ≤ window.stop) ∧ 0 ≤ p.pct ∧ p.pct ≤ round2 finalPct := by
  obtain ⟨⟨v, -, ht⟩, c, hlow, hhigh, hpct⟩ := mem_votePoints hweights hp
  rw [zero_add] at hhigh
  have hbelow := round2_share_mono hfinal htotal hlow
  have habove := round2_share_mono hfinal htotal hhigh
  rw [share_zero] at hbelow
  rw [share_all htotal] at habove
  rw [ht, hpct]
  exact ⟨window.clamp_mem hwindow _, hbelow, habove⟩

theorem isTrend_of_sorted (hwindow : window.start ≤ window.stop) (hfinal : 0 ≤ finalPct)
    (htotal : 0 < votesWeight votes) (hweights : ∀ v ∈ votes, 0 ≤ v.weight)
    (hsorted : votes.Pairwise fun a c => a.blockTime ≤ c.blockTime) {s : TrendSeries}
    (hpoints : s.points = ⟨window.start, 0⟩ ::
      (votePoints window finalPct (votesWeight votes) 0 votes ++ [⟨window.stop, round2 finalPct⟩])) :
    IsTrend window finalPct votes s := by
  have hzero : 0 ≤ round2 finalPct := round2_zero ▸ round2_mono hfinal
  have htimes : ∀ p ∈ s.points, window.start ≤ p.t ∧ p.t ≤ window.stop := by
    intro p hp
    rw [hpoints] at hp
    rcases List.mem_cons.mp hp with rfl | hp
    · exact ⟨le_rfl, hwindow⟩
    · rcases List.mem_append.mp hp with hp | hp
      · exact (mem_middle hwindow hfinal htotal hweights hp).1
      · obtain rfl := List.mem_singleton.mp hp
        exact ⟨hwindow, le_rfl⟩
  have hended : ∀ t, window.stop ≤ t → sampleSeriesAt s t = round2 finalPct := by
    intro t ht
    rw [sampleSeriesAt, hpoints]
    dsimp only
    rw [← List.cons_append]
    refine samplePoints_append _ _ _ fun p hp => ?_
    rw [List.cons_append, ← hpoints] at hp
    exact (htimes p hp).2.trans ht
  refine ⟨htimes, ?_, ?_, ?_, fun t => ?_, hended⟩
  · -- rising
    rw [hpoints, List.pairwise_cons, List.pairwise_append]
    refine ⟨fun p hp => ⟨?_, ?_⟩, votePoints_pairwise hfinal htotal hweights hsorted,
      List.pairwise_singleton _ _, fun p hp p' hp' => ?_⟩
    · rw [hpoints] at htimes
      exact (htimes p (List.mem_cons_of_mem _ hp)).1
    · rcases List.mem_append.mp hp with hp | hp
      · exact (mem_middle hwindow hfinal htotal hweights hp).2.1
      · obtain rfl := List.mem_singleton.mp hp
        exact hzero
    · obtain rfl := List.mem_singleton.mp hp'
      obtain ⟨hmem, -, hbelow⟩ := mem_middle hwindow hfinal htotal hweights hp
      exact ⟨hmem.2, hbelow⟩
  · rw [hpoints]
    rfl
  · rw [hpoints, ← List.cons_append, List.getLast?_concat]
    rfl
  · -- what is read at a time
    rcases le_or_gt window.stop t with hstop | hstop
    · have hall : weightUpTo window t votes = votesWeight votes :=
        weightUpTo_eq_all fun v _ => (window.clamp_mem hwindow _).2.trans hstop
      rw [hended t hstop, hall, share_all htotal]
    · have htail : ∀ pct, samplePoints t pct [⟨window.stop, round2 finalPct⟩] = pct :=
        fun pct => if_pos hstop
      have hread : samplePoints t (round2 (finalPct * 0 / votesWeight votes))
          (votePoints window finalPct (votesWeight votes) 0 votes ++
            [⟨window.stop, round2 finalPct⟩]) =
          round2 (finalPct * (0 + weightUpTo window t votes) / votesWeight votes) :=
        samplePoints_votePoints htail hsorted
      rw [share_zero, zero_add] at hread
      rw [sampleSeriesAt, hpoints]
      dsimp only
      rw [samplePoints]
      split_ifs with hstart
      · have hnone : weightUpTo window t votes = 0 :=
          weightUpTo_eq_zero fun v _ => hstart.trans_le (window.clamp_mem hwindow _).1
        rw [hnone, share_zero]
      · exact hread

theorem isTrend_trendSeriesOf (hwindow : window.start ≤ window.stop) {b : TrendBodyInput}
    (hweights : ∀ v ∈ b.yesVotes, 0 ≤ v.weight) (hfinal : b.finalPct = some finalPct)
    (hnonneg : 0 ≤ finalPct) {s : TrendSeries} (hs : trendSeriesOf window b = some s) :
    IsTrend window finalPct b.yesVotes s := by
  rw [trendSeriesOf, hfinal, Option.bind_some] at hs
  split_ifs at hs with hnone hzero
  cases hs
  have hperm := List.perm_insertionSort (fun a c : TrendVote => a.blockTime ≤ c.blockTime) b.yesVotes
  have hweight : votesWeight b.yesVotes =
      votesWeight (b.yesVotes.insertionSort fun a c => a.blockTime ≤ c.blockTime) :=
    (hperm.symm.map _).sum_eq
  have htrend := isTrend_of_sorted hwindow hnonneg (hweight ▸ not_le.mp hzero)
    (fun v hv => hweights v (hperm.mem_iff.mp hv)) (List.pairwise_insertionSort _ _)
    (s := ⟨b.key, trendPoints window finalPct b.yesVotes, b.thresholdPct, b.finalLabel, b.dashed⟩)
    (by rw [trendPoints, hweight])
  refine ⟨htrend.times, htrend.rising, htrend.first, htrend.last, fun t => ?_, htrend.ended⟩
  rw [htrend.sampled t, ← hweight, weightUpTo_perm hperm]

end

/-! ### The times of the bands -/

theorem coarsen_le (span : ℚ) (step : PositiveStep) :
    span / (coarsen span step).1 ≤ ((MAX_HOVER_BANDS - 1 : ℕ) : ℚ) := by
  induction step using coarsen.induct span with
  | case1 step h ih =>
    rw [coarsen, if_pos h]
    exact ih
  | case2 step h =>
    rw [coarsen, if_neg h]
    exact not_lt.mp h

theorem length_sampleTimes_le {tMax t : ℚ} {step : PositiveStep} {n : ℕ}
    (h : (tMax - t) / step.1 ≤ n) : (sampleTimes tMax step t).length ≤ n := by
  induction n generalizing t with
  | zero =>
    have hpast : ¬t < tMax := by
      intro hlt
      have hpos := div_pos (sub_pos.mpr hlt) step.2
      rw [Nat.cast_zero] at h
      exact absurd hpos (not_lt.mpr h)
    rw [sampleTimes, if_neg hpast]
    exact le_rfl
  | succ n ih =>
    rw [sampleTimes]
    split_ifs with hlt
    · refine Nat.succ_le_succ (ih ?_)
      rw [← sub_sub, sub_div, div_self step.2.ne', sub_le_iff_le_add]
      exact_mod_cast h
    · exact Nat.zero_le _

section

variable {opts : HoverBandOptions} {step : PositiveStep} {ts : List ℚ}

theorem length_hoverTimes_le (opts : HoverBandOptions) (step : PositiveStep) :
    (hoverTimes opts step).length ≤ MAX_HOVER_BANDS := by
  rw [hoverTimes, List.length_append, List.length_singleton]
  exact Nat.succ_le_succ (length_sampleTimes_le (coarsen_le _ _))

theorem two_le_length_hoverTimes (hspan : opts.tMin < opts.tMax) :
    2 ≤ (hoverTimes opts step).length := by
  rw [hoverTimes, sampleTimes, if_pos hspan]
  simp

/-! ### The edges of the bands -/

/-- Where a band ends and the next one begins, on paper. -/
def bandEdge (opts : HoverBandOptions) (ts : List ℚ) (i : ℕ) : ℚ :=
  if i = 0 then opts.plotX
  else if i = ts.length then opts.plotX + opts.plotW
  else round2 ((opts.xFor (ts.getD (i - 1) 0) + opts.xFor (ts.getD i 0)) / 2)

theorem bandLeft_eq {i : ℕ} (hi : i < ts.length) :
    bandLeft opts ts i (ts.getD i 0) = bandEdge opts ts i := by
  rw [bandLeft, bandEdge]
  split_ifs with hzero hlast
  · rfl
  · omega
  · rfl

theorem bandRight_eq {i : ℕ} (hi : i < ts.length) :
    bandRight opts ts i (ts.getD i 0) = bandEdge opts ts (i + 1) := by
  rw [bandRight, bandEdge, if_neg (Nat.succ_ne_zero i)]
  split_ifs with hlast hlast'
  · rfl
  · omega
  · omega
  · rfl

/-- The bands lie side by side over the plot, up to some slack. -/
structure BandsTile (opts : HoverBandOptions) (slack : ℚ) (bands : List HoverBand) : Prop where
  first : bands.head?.map (fun b => b.x) = some opts.plotX
  chain : bands.IsChain fun b b' => |b.x + b.w - b'.x| ≤ slack
  last : ∃ b, bands.getLast? = some b ∧ |b.x + b.w - (opts.plotX + opts.plotW)| ≤ slack

theorem gap_eq (left right : ℚ) :
    |left + round2 (right - left) - right| = |right - left - round2 (right - left)| := by
  rw [← abs_neg]
  congr 1
  ring

/-- How far a band misses the next one. -/
def bandGap (opts : HoverBandOptions) (ts : List ℚ) (i : ℕ) : ℚ :=
  |bandEdge opts ts (i + 1) - bandEdge opts ts i -
    round2 (bandEdge opts ts (i + 1) - bandEdge opts ts i)|

variable {series : List TrendSeries}

theorem getElem_bands {i : ℕ} (hi : i < (ts.mapIdx (hoverBand opts ts series)).length) :
    (ts.mapIdx (hoverBand opts ts series))[i].x = bandEdge opts ts i ∧
      |(ts.mapIdx (hoverBand opts ts series))[i].x + (ts.mapIdx (hoverBand opts ts series))[i].w -
        bandEdge opts ts (i + 1)| = bandGap opts ts i := by
  have hlt : i < ts.length := by simpa using hi
  have htime : ts[i] = ts.getD i 0 := (List.getD_eq_getElem _ _ hlt).symm
  rw [List.getElem_mapIdx, htime, bandGap, ← gap_eq]
  rw [hoverBand, bandLeft_eq hlt, bandRight_eq hlt]
  exact ⟨rfl, rfl⟩

theorem bandsTile_iff {slack : ℚ} (hts : ts ≠ []) :
    BandsTile opts slack (ts.mapIdx (hoverBand opts ts series)) ↔
      ∀ i < ts.length, bandGap opts ts i ≤ slack := by
  have hpos : 0 < ts.length := List.length_pos_of_ne_nil hts
  have hlength : (ts.mapIdx (hoverBand opts ts series)).length = ts.length := List.length_mapIdx
  have hlastLt : ts.length - 1 < (ts.mapIdx (hoverBand opts ts series)).length := by omega
  have hlast : (ts.mapIdx (hoverBand opts ts series)).getLast? =
      some (ts.mapIdx (hoverBand opts ts series))[ts.length - 1] := by
    rw [List.getLast?_eq_getElem?, hlength, List.getElem?_eq_getElem hlastLt]
  have hend : bandEdge opts ts (ts.length - 1 + 1) = opts.plotX + opts.plotW := by
    rw [Nat.sub_add_cancel hpos, bandEdge, if_neg hpos.ne', if_pos rfl]
  constructor
  · intro h i hi
    by_cases hnext : i + 1 < ts.length
    · have hbefore : i < (ts.mapIdx (hoverBand opts ts series)).length := by omega
      have hbehind : i + 1 < (ts.mapIdx (hoverBand opts ts series)).length := by omega
      have hchain := List.isChain_iff_getElem.mp h.chain i hbehind
      rw [(getElem_bands hbehind).1, (getElem_bands hbefore).2] at hchain
      exact hchain
    · obtain ⟨b, hb, hslack⟩ := h.last
      rw [hlast] at hb
      cases hb
      obtain rfl : i = ts.length - 1 := by omega
      rw [← hend, (getElem_bands hlastLt).2] at hslack
      exact hslack
  · intro h
    refine ⟨?_, List.isChain_iff_getElem.mpr fun i hi => ?_, _, hlast, ?_⟩
    · have hfirst : 0 < (ts.mapIdx (hoverBand opts ts series)).length := by omega
      rw [List.head?_eq_getElem?, List.getElem?_eq_getElem hfirst, Option.map_some,
        (getElem_bands hfirst).1]
      rfl
    · have hbefore : i < (ts.mapIdx (hoverBand opts ts series)).length := by omega
      rw [(getElem_bands hi).1, (getElem_bands hbefore).2]
      exact h i (by omega)
    · rw [← hend, (getElem_bands hlastLt).2]
      exact h _ (by omega)

/-! ### Whole hundredths -/

theorem IsHundredth.add {a b : ℚ} (ha : IsHundredth a) (hb : IsHundredth b) :
    IsHundredth (a + b) := by
  obtain ⟨m, rfl⟩ := ha
  obtain ⟨n, rfl⟩ := hb
  exact ⟨m + n, by push_cast; ring⟩

theorem IsHundredth.sub {a b : ℚ} (ha : IsHundredth a) (hb : IsHundredth b) :
    IsHundredth (a - b) := by
  obtain ⟨m, rfl⟩ := ha
  obtain ⟨n, rfl⟩ := hb
  exact ⟨m - n, by push_cast; ring⟩

theorem isHundredth_round2 (q : ℚ) : IsHundredth (round2 q) := ⟨_, rfl⟩

theorem abs_sub_round2_le_zero_iff {q : ℚ} : |q - round2 q| ≤ 0 ↔ IsHundredth q := by
  rw [abs_nonpos_iff, sub_eq_zero]
  exact ⟨fun h => h ▸ isHundredth_round2 q, fun h => (round2_of_isHundredth h).symm⟩

theorem isHundredth_bandEdge {i : ℕ} (hzero : i ≠ 0) (hlast : i ≠ ts.length) :
    IsHundredth (bandEdge opts ts i) := by
  rw [bandEdge, if_neg hzero, if_neg hlast]
  exact isHundredth_round2 _

theorem bandGap_le_zero_iff (hts : 2 ≤ ts.length) :
    (∀ i < ts.length, bandGap opts ts i ≤ 0) ↔
      IsHundredth opts.plotX ∧ IsHundredth (opts.plotX + opts.plotW) := by
  have hfirst : bandEdge opts ts 0 = opts.plotX := rfl
  have hlast : bandEdge opts ts ts.length = opts.plotX + opts.plotW := by
    rw [bandEdge, if_neg (by omega), if_pos rfl]
  simp only [bandGap, abs_sub_round2_le_zero_iff]
  constructor
  · intro h
    have hstart := h 0 (by omega)
    have hstop := h (ts.length - 1) (by omega)
    have hone : IsHundredth (bandEdge opts ts 1) := isHundredth_bandEdge one_ne_zero (by omega)
    have hbefore : IsHundredth (bandEdge opts ts (ts.length - 1)) :=
      isHundredth_bandEdge (by omega) (by omega)
    rw [Nat.sub_add_cancel (by omega), hlast] at hstop
    rw [Nat.zero_add, hfirst] at hstart
    refine ⟨?_, ?_⟩
    · have hsub := hone.sub hstart
      rw [sub_sub_cancel] at hsub
      exact hsub
    · have hadd := hstop.add hbefore
      rw [sub_add_cancel] at hadd
      exact hadd
  · rintro ⟨hstart, hstop⟩ i hi
    have hedge : ∀ j, IsHundredth (bandEdge opts ts j) := by
      intro j
      by_cases hj : j = 0
      · rw [hj, hfirst]
        exact hstart
      · by_cases hj' : j = ts.length
        · rw [hj', hlast]
          exact hstop
        · exact isHundredth_bandEdge hj hj'
    exact (hedge (i + 1)).sub (hedge i)

/-- **The bands** of a readout: few enough, side by side over the plot up to half a hundredth, and
exactly if the plot begins and ends on a whole hundredth; each reads every series at its own
time. -/
structure IsReadout (series : List TrendSeries) (opts : HoverBandOptions)
    (bands : List HoverBand) : Prop where
  few : bands.length ≤ MAX_HOVER_BANDS
  close : BandsTile opts (1 / 200) bands
  exact_iff : BandsTile opts 0 bands ↔
    IsHundredth opts.plotX ∧ IsHundredth (opts.plotX + opts.plotW)
  sampled : ∀ b ∈ bands, b.samples =
    series.map fun s => ⟨s.key, sampleSeriesAt s b.t, s.dashed == some true⟩

theorem isReadout_buildHoverBands (hseries : series ≠ []) (hspan : opts.tMin < opts.tMax)
    (hstep : 0 < opts.step) : IsReadout series opts (buildHoverBands series opts) := by
  have hgo : ¬(series = [] ∨ opts.tMax - opts.tMin ≤ 0 ∨ opts.step ≤ 0) := by
    rintro (h | h | h)
    · exact hseries h
    · exact absurd (sub_pos.mpr hspan) (not_lt.mpr h)
    · exact absurd hstep (not_lt.mpr h)
  rw [buildHoverBands, dif_neg hgo]
  have htwo : 2 ≤ (hoverTimes opts ⟨opts.step, hstep⟩).length := two_le_length_hoverTimes hspan
  have hfew := length_hoverTimes_le opts ⟨opts.step, hstep⟩
  dsimp only
  generalize hoverTimes opts ⟨opts.step, hstep⟩ = ts at htwo hfew
  have hne : ts ≠ [] := by
    rintro rfl
    cases htwo
  refine ⟨?_, ?_, ?_, fun b hb => ?_⟩
  · rw [List.length_mapIdx]
    exact hfew
  · exact (bandsTile_iff hne).mpr fun i _ => abs_sub_round2_le _
  · rw [bandsTile_iff hne]
    exact bandGap_le_zero_iff htwo
  · obtain ⟨i, hi, rfl⟩ := List.mem_mapIdx.mp hb
    rfl

end

/-! ### The chart -/

/-- **The trend of a vote**: every series built is what its body's votes make it, and every readout
of any series tiles its plot. -/
theorem voteTrend_spec {bodies : List TrendBodyInput} {window : TrendWindow}
    (hwindow : window.start ≤ window.stop)
    (hweights : ∀ b ∈ bodies, ∀ v ∈ b.yesVotes, 0 ≤ v.weight)
    (hfinal : ∀ b ∈ bodies, ∀ finalPct ∈ b.finalPct, 0 ≤ finalPct) :
    (∀ s ∈ computeVoteTrendSeries bodies window, ∃ b ∈ bodies, ∃ finalPct ∈ b.finalPct,
      s.key = b.key ∧ IsTrend window finalPct b.yesVotes s) ∧
    ∀ (series : List TrendSeries) (opts : HoverBandOptions), 0 < opts.step →
      (series ≠ [] → opts.tMin < opts.tMax → IsReadout series opts (buildHoverBands series opts)) ∧
      (series = [] ∨ opts.tMax ≤ opts.tMin → buildHoverBands series opts = []) := by
  refine ⟨fun s hs => ?_, fun series opts hstep => ⟨fun hseries hspan =>
    isReadout_buildHoverBands hseries hspan hstep, fun hnone => ?_⟩⟩
  · obtain ⟨b, hb, hs⟩ := List.mem_filterMap.mp hs
    obtain ⟨finalPct, hpct, hrest⟩ := Option.bind_eq_some_iff.mp hs
    refine ⟨b, hb, finalPct, hpct, ?_, isTrend_trendSeriesOf hwindow (hweights b hb) hpct
      (hfinal b hb finalPct hpct) hs⟩
    split_ifs at hrest
    rw [← Option.some.inj hrest]
  · rw [buildHoverBands, dif_pos]
    rcases hnone with h | h
    · exact .inl h
    · exact .inr (.inl (sub_nonpos.mpr h))

/-- Two votes at one time, and one that came too late. -/
def trendBody : TrendBodyInput :=
  ⟨.DRep, [⟨12, 1⟩, ⟨5, 2⟩, ⟨5, 1⟩], some 80, none, "80%", none⟩

theorem voteTrend_spec_body :
    (∀ s ∈ computeVoteTrendSeries [trendBody] ⟨0, 10⟩, ∃ b ∈ [trendBody], ∃ finalPct ∈ b.finalPct,
      s.key = b.key ∧ IsTrend ⟨0, 10⟩ finalPct b.yesVotes s) ∧
    IsReadout [⟨.DRep, [⟨0, 0⟩, ⟨10, 80⟩], none, "80%", none⟩] ⟨8, 576, 0, 10, 1⟩
      (buildHoverBands [⟨.DRep, [⟨0, 0⟩, ⟨10, 80⟩], none, "80%", none⟩] ⟨8, 576, 0, 10, 1⟩) :=
  have h := @voteTrend_spec [trendBody] ⟨0, 10⟩ (by decide) (by decide) (by decide)
  ⟨h.1, (h.2 _ _ (by decide)).1 (by decide) (by decide)⟩

/-- On a plot that begins at a third, the first band does not end where the next one starts. -/
theorem not_bandsTile :
    ¬∀ (series : List TrendSeries) (opts : HoverBandOptions), 0 < opts.step → series ≠ [] →
      opts.tMin < opts.tMax → BandsTile opts 0 (buildHoverBands series opts) := by
  intro h
  have htile := h [⟨.DRep, [⟨0, 0⟩, ⟨10, 80⟩], none, "80%", none⟩] ⟨1 / 3, 576, 0, 10, 1⟩
    (by decide) (by decide) (by decide)
  have hedges := (isReadout_buildHoverBands (by decide) (by decide) (by decide)).exact_iff.mp htile
  obtain ⟨n, hn⟩ := hedges.1
  have hthird : (100 : ℚ) = ((3 * n : ℤ) : ℚ) := by
    push_cast
    linarith
  have hint : (100 : ℤ) = 3 * n := by exact_mod_cast hthird
  omega

end DrepTalk
