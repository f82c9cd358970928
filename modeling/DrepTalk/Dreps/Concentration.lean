import DrepTalk.Format.Pct
import DrepTalk.Library.LargestFirst
import DrepTalk.Text.JsText

/-!
# Concentration of voting power

`src/lib/dreps/concentration.ts`: how many DReps it takes to reach each percent of the power, read
off with one pointer that only moves on. The label of an amount (`formatAda`) is any function.

**Fewest over all.** At every percent the pointer stands behind the first DReps that reach it
(`IsFirst`), which no other choice does with fewer (`computeConcentration_right`).
-/

namespace DrepTalk

structure ConcentrationInput where
  drepId : String
  name : Option String
  slug : Option String
  power : ℤ

structure ConcentrationTop where
  drepId : String
  name : Option String
  slug : Option String
  powerLabel : Text
  pct : ℚ

structure ConcentrationPoint where
  count : ℕ
  cumPct : ℚ

structure Concentration where
  drepCount : ℕ
  totalLabel : Text
  totalPower : ℤ
  topK : List ConcentrationTop
  byPercent : List ConcentrationPoint

def TOP_K : ℕ := 12

def clampPositive (power : ℤ) : ℤ := if 0 < power then power else 0

def pctOf (part total : ℤ) : ℚ :=
  if total ≤ 0 then 0 else ((part * 10000).tdiv total : ℤ) / 100

def emptyByPercent : List ConcentrationPoint := List.replicate 101 ⟨0, 0⟩

/-- The sort; it is stable. -/
def byPower (dreps : List ConcentrationInput) : List ConcentrationInput :=
  dreps.insertionSort fun a b => b.power ≤ a.power

/-- The DReps that are still to come, `idx` and `cum`. -/
structure Pointer where
  rest : List ConcentrationInput
  idx : ℕ
  cum : ℤ

/-- The `while` loop. -/
def advance (target : ℤ) : List ConcentrationInput → ℕ → ℤ → Pointer
  | [], idx, cum => ⟨[], idx, cum⟩
  | d :: rest, idx, cum =>
    if cum * 100 < target then advance target rest (idx + 1) (cum + clampPositive d.power)
    else ⟨d :: rest, idx, cum⟩

/-- The `for` loop over the percents. -/
def pointsFrom (total : ℤ) : List ℕ → Pointer → List ConcentrationPoint
  | [], _ => []
  | p :: ps, pointer =>
    let next := advance (total * p) pointer.rest pointer.idx pointer.cum
    ⟨next.idx, pctOf next.cum total⟩ :: pointsFrom total ps next

section

variable (formatAda : ℤ → Text)

def concentrationTop (total : ℤ) (d : ConcentrationInput) : ConcentrationTop :=
  ⟨d.drepId, d.name, d.slug, formatAda (clampPositive d.power), pctOf (clampPositive d.power) total⟩

def computeConcentration (dreps : List ConcentrationInput) : Concentration :=
  let sorted := byPower dreps
  let total := sorted.foldl (fun acc d => acc + clampPositive d.power) 0
  if sorted.isEmpty || decide (total ≤ 0) then
    ⟨sorted.length, formatAda 0, 0, [], emptyByPercent⟩
  else
    { drepCount := sorted.length
      totalLabel := formatAda total
      totalPower := total
      topK := (sorted.take TOP_K).map (concentrationTop formatAda total)
      byPercent := ⟨0, 0⟩ :: pointsFrom total (List.range' 1 100) ⟨sorted, 0, 0⟩ }

end

open LargestFirst

variable {dreps dreps' l : List ConcentrationInput} {whole : ℤ} {p n : ℕ}

/-- What a DRep counts for. -/
def votePower (d : ConcentrationInput) : ℤ := clampPositive d.power

theorem clampPositive_eq (power : ℤ) : clampPositive power = max power 0 := by
  rw [clampPositive]
  split_ifs with h
  · exact (max_eq_left h.le).symm
  · exact (max_eq_right (not_lt.mp h)).symm

theorem votePower_nonneg (d : ConcentrationInput) : 0 ≤ votePower d := by
  rw [votePower, clampPositive_eq]
  exact le_max_right _ _

theorem total_nonneg (l : List ConcentrationInput) : 0 ≤ total votePower l :=
  List.sum_nonneg (List.forall_mem_map.mpr fun d _ => votePower_nonneg d)

theorem total_pos_perm (h : dreps.Perm dreps') (hpos : 0 < total votePower dreps) :
    0 < total votePower dreps' := by
  rwa [← total_perm h]

theorem byPower_perm (dreps : List ConcentrationInput) : (byPower dreps).Perm dreps :=
  List.perm_insertionSort _ _

theorem byPower_pairwise (dreps : List ConcentrationInput) :
    (byPower dreps).Pairwise fun a b => b.power ≤ a.power := by
  have : Std.Total fun a b : ConcentrationInput => b.power ≤ a.power := ⟨fun a b => le_total _ _⟩
  have : IsTrans ConcentrationInput fun a b => b.power ≤ a.power := ⟨fun a b c h h' => h'.trans h⟩
  exact List.pairwise_insertionSort _ dreps

theorem byPower_votePower (dreps : List ConcentrationInput) :
    (byPower dreps).Pairwise fun a b => votePower b ≤ votePower a := by
  refine (byPower_pairwise dreps).imp fun {a b} h => ?_
  rw [votePower, votePower, clampPositive_eq, clampPositive_eq]
  exact max_le_max_right 0 h

theorem map_power_byPower (h : dreps.Perm dreps') :
    (byPower dreps).map (·.power) = (byPower dreps').map (·.power) := by
  have hperm := ((byPower_perm dreps).trans (h.trans (byPower_perm dreps').symm)).map (·.power)
  refine hperm.eq_of_pairwise (fun a b _ _ (h : a ≥ b) (h' : b ≥ a) => le_antisymm h' h) ?_ ?_
  · exact List.pairwise_map.mpr (byPower_pairwise dreps)
  · exact List.pairwise_map.mpr (byPower_pairwise dreps')

/-! ### Percents -/

theorem pctOf_eq (h : 0 < whole) {part : ℤ} (hpart : 0 ≤ part) :
    pctOf part whole = ((part * 10000 / whole : ℤ) : ℚ) / 100 := by
  rw [pctOf, if_neg (by omega), Int.tdiv_eq_ediv_of_nonneg (by omega)]

theorem pctOf_eq_floor (h : 0 < whole) {part : ℤ} (hpart : 0 ≤ part) :
    pctOf part whole = ⌊(100 * part / whole : ℚ) * 100⌋ / 100 := by
  have hscale : (100 * part / whole : ℚ) * 100 = ((part * 10000 : ℤ) : ℚ) / whole := by
    push_cast
    ring
  rw [pctOf_eq h hpart, hscale, floor_intCast_div _ h.le]

theorem pctOf_mono (h : 0 < whole) {a b : ℤ} (ha : 0 ≤ a) (hab : a ≤ b) :
    pctOf a whole ≤ pctOf b whole := by
  rw [pctOf_eq h ha, pctOf_eq h (ha.trans hab)]
  have hdiv : a * 10000 / whole ≤ b * 10000 / whole := Int.ediv_le_ediv h (by omega)
  exact div_le_div_of_nonneg_right (Int.cast_le.mpr hdiv) (by norm_num)

theorem pctOf_ge (h : 0 < whole) {part : ℤ} (hpart : 0 ≤ part) (hp : whole * p ≤ 100 * part) :
    (p : ℚ) ≤ pctOf part whole := by
  have hdiv : (100 * p : ℤ) ≤ part * 10000 / whole := by
    rw [Int.le_ediv_iff_mul_le h]
    linarith
  rw [pctOf_eq h hpart, le_div_iff₀ (by norm_num), mul_comm]
  exact_mod_cast hdiv

theorem sum_pctOf_le (h : 0 < whole) : ∀ l : List ConcentrationInput,
    (l.map fun d => pctOf (votePower d) whole).sum ≤ 100 * ((total votePower l : ℤ) : ℚ) / whole
  | [] => by simp [total]
  | d :: l => by
    have hd : pctOf (votePower d) whole ≤ 100 * (votePower d : ℚ) / whole := by
      rw [pctOf_eq_floor h (votePower_nonneg d), div_le_iff₀ (by norm_num)]
      exact Int.floor_le _
    have hsum := sum_pctOf_le h l
    simp only [total, List.map_cons, List.sum_cons, Int.cast_add] at hsum ⊢
    rw [mul_add, add_div]
    exact add_le_add hd hsum

/-! ### The pointer -/

/-- So much power is so many percent of that of the DReps. -/
def Reaches (dreps : List ConcentrationInput) (p : ℕ) (power : ℤ) : Prop :=
  total votePower dreps * p ≤ 100 * power

/-- The first `n` DReps reach the percent, and fewer of the first do not. -/
def IsFirst (l : List ConcentrationInput) (p n : ℕ) : Prop :=
  n ≤ l.length ∧ Reaches l p (total votePower (l.take n)) ∧
    ∀ m < n, ¬Reaches l p (total votePower (l.take m))

def pointerAt (l : List ConcentrationInput) (n : ℕ) : Pointer :=
  ⟨l.drop n, n, total votePower (l.take n)⟩

theorem total_take_succ (h : n < l.length) :
    total votePower (l.take (n + 1)) = total votePower (l.take n) + votePower l[n] := by
  rw [← List.take_concat_get' l n h, total, List.map_append, List.sum_append]
  simp [total]

theorem advance_isFirst (hp : p ≤ 100) (hn : n ≤ l.length)
    (hshort : ∀ m < n, ¬Reaches l p (total votePower (l.take m))) :
    ∃ next, IsFirst l p next ∧
      advance (total votePower l * p) (l.drop n) n (total votePower (l.take n)) =
        pointerAt l next := by
  induction hk : l.length - n generalizing n with
  | zero =>
    obtain rfl : n = l.length := by omega
    refine ⟨_, ⟨le_rfl, ?_, hshort⟩, by simp [pointerAt, advance]⟩
    rw [List.take_length, Reaches, mul_comm]
    exact mul_le_mul_of_nonneg_right (by exact_mod_cast hp) (total_nonneg l)
  | succ k ih =>
    have hlt : n < l.length := by omega
    rw [List.drop_eq_getElem_cons hlt, advance]
    split_ifs with hcum
    · rw [show clampPositive l[n].power = votePower l[n] from rfl, ← total_take_succ hlt]
      refine ih hlt (fun m hm => ?_) (by omega)
      rcases Nat.lt_succ_iff_lt_or_eq.mp hm with hm | rfl
      · exact hshort m hm
      · exact fun hreach => absurd hreach (by rw [Reaches]; linarith)
    · refine ⟨n, ⟨hn, ?_, hshort⟩, by rw [pointerAt, List.drop_eq_getElem_cons hlt]⟩
      rw [Reaches]
      linarith

theorem pointsFrom_isFirst {ps : List ℕ} (hps : ps.Pairwise (· ≤ ·)) (hle : ∀ p ∈ ps, p ≤ 100)
    (hn : n ≤ l.length)
    (hshort : ∀ p ∈ ps, ∀ m < n, ¬Reaches l p (total votePower (l.take m))) :
    List.Forall₂ (fun p point => ∃ k, IsFirst l p k ∧
        point = ⟨k, pctOf (total votePower (l.take k)) (total votePower l)⟩)
      ps (pointsFrom (total votePower l) ps (pointerAt l n)) := by
  induction ps generalizing n with
  | nil => exact .nil
  | cons p ps ih =>
    obtain ⟨hp, hps⟩ := List.pairwise_cons.mp hps
    obtain ⟨hle₀, hle⟩ := List.forall_mem_cons.mp hle
    obtain ⟨next, hfirst, hnext⟩ := advance_isFirst hle₀ hn (hshort p List.mem_cons_self)
    rw [pointsFrom, pointerAt, hnext]
    refine .cons ⟨next, hfirst, rfl⟩ (ih hps hle hfirst.1 fun q hq m hm hreach => ?_)
    refine hfirst.2.2 m hm (le_trans ?_ hreach)
    exact mul_le_mul_of_nonneg_left (by exact_mod_cast hp q hq) (total_nonneg l)

variable {f : ℤ → Text}

theorem foldl_votePower (l : List ConcentrationInput) :
    l.foldl (fun acc d => acc + clampPositive d.power) 0 = total votePower l := by
  rw [total, List.sum_eq_foldl, List.foldl_map]
  rfl

theorem computeConcentration_eq (hpos : 0 < total votePower dreps) :
    computeConcentration f dreps =
      { drepCount := dreps.length
        totalLabel := f (total votePower dreps)
        totalPower := total votePower dreps
        topK := ((byPower dreps).take TOP_K).map
          (concentrationTop f (total votePower dreps))
        byPercent := ⟨0, 0⟩ :: pointsFrom (total votePower dreps) (List.range' 1 100)
          (pointerAt (byPower dreps) 0) } := by
  have hne : (byPower dreps).isEmpty = false := by
    rw [List.isEmpty_eq_false_iff]
    intro hnil
    rw [← total_perm (byPower_perm dreps), hnil] at hpos
    exact nomatch hpos
  rw [computeConcentration, foldl_votePower, total_perm (byPower_perm dreps), hne,
    decide_eq_false (not_le.mpr hpos), if_neg (by decide), (byPower_perm dreps).length_eq]
  rfl

theorem byPercent_isFirst (hpos : 0 < total votePower dreps) :
    List.Forall₂ (fun p point => ∃ k, IsFirst (byPower dreps) p k ∧
        point = ⟨k, pctOf (total votePower ((byPower dreps).take k)) (total votePower dreps)⟩)
      (List.range' 0 101) (computeConcentration f dreps).byPercent := by
  rw [computeConcentration_eq hpos]
  have hrest := pointsFrom_isFirst (l := byPower dreps) (n := 0)
    (List.pairwise_lt_range' (s := 1) (n := 100) |>.imp fun h => h.le)
    (fun p hp => by rw [List.mem_range'_1] at hp; omega) (Nat.zero_le _)
    nofun
  rw [total_perm (byPower_perm dreps)] at hrest
  refine .cons ⟨0, ⟨Nat.zero_le _, by simp [Reaches, total], nofun⟩, ?_⟩
    hrest
  simp [total, pctOf]

theorem length_byPercent (hpos : 0 < total votePower dreps) :
    (computeConcentration f dreps).byPercent.length = 101 :=
  (byPercent_isFirst hpos).length_eq.symm.trans List.length_range'

theorem byPercent_get (hpos : 0 < total votePower dreps)
    (hp : p < (computeConcentration f dreps).byPercent.length) :
    ∃ k, IsFirst (byPower dreps) p k ∧ (computeConcentration f dreps).byPercent[p] =
      ⟨k, pctOf (total votePower ((byPower dreps).take k)) (total votePower dreps)⟩ := by
  have hget := (byPercent_isFirst (f := f) hpos).get (i := p)
    (by rwa [List.length_range', ← length_byPercent (f := f) hpos]) hp
  simpa using hget

theorem IsFirst.isLeast (h : IsFirst (byPower dreps) p n) :
    IsLeast (sizes votePower dreps (Reaches dreps p)) n := by
  obtain ⟨hn, hreach, hshort⟩ := h
  have hsame : Reaches (byPower dreps) p = Reaches dreps p := by
    funext power
    rw [Reaches, Reaches, total_perm (byPower_perm dreps)]
  rw [hsame] at hreach hshort
  rw [← sizes_perm (byPower_perm dreps)]
  refine isLeast_sizes (byPower_votePower dreps) (fun a b hab ha => ?_) hn hreach hshort
  exact ha.trans (by omega)

theorem sizes_reaches_anti {q : ℕ} (h : p ≤ q) :
    sizes votePower dreps (Reaches dreps q) ⊆ sizes votePower dreps (Reaches dreps p) := by
  rintro k ⟨s, hs, hlength, hreach⟩
  have hle : total votePower dreps * (p : ℤ) ≤ total votePower dreps * q :=
    mul_le_mul_of_nonneg_left (by exact_mod_cast h) (total_nonneg dreps)
  exact ⟨s, hs, hlength, hle.trans hreach⟩

theorem byPercent_perm (hpos : 0 < total votePower dreps) (h : dreps.Perm dreps') :
    (computeConcentration f dreps').byPercent =
      (computeConcentration f dreps).byPercent := by
  have hpos' : 0 < total votePower dreps' := total_pos_perm h hpos
  refine List.ext_getElem (by rw [length_byPercent hpos, length_byPercent hpos']) fun p hp' hp => ?_
  obtain ⟨k, hfirst, heq⟩ := byPercent_get hpos hp
  obtain ⟨k', hfirst', heq'⟩ := byPercent_get hpos' hp'
  have hleast := hfirst'.isLeast
  have hreaches : Reaches dreps' p = Reaches dreps p := by
    funext power
    rw [Reaches, Reaches, total_perm h]
  rw [hreaches, ← sizes_perm h] at hleast
  obtain rfl : k' = k := hleast.unique hfirst.isLeast
  have hsum := isGreatest_totals (byPower_votePower dreps') hfirst'.1
  rw [totals_perm ((byPower_perm dreps').trans h.symm), ← totals_perm (byPower_perm dreps)] at hsum
  rw [heq, heq', hsum.unique (isGreatest_totals (byPower_votePower dreps) hfirst.1), total_perm h]

/-- The lists differ, place by place, by DReps of one power only. -/
def SameButTies (formatAda : ℤ → Text) (dreps : List ConcentrationInput) :
    List ConcentrationTop → List ConcentrationTop → Prop :=
  List.Forall₂ fun a b => ∃ x ∈ dreps, ∃ y ∈ dreps, x.power = y.power ∧
    a = concentrationTop formatAda (total votePower dreps) x ∧
    b = concentrationTop formatAda (total votePower dreps) y

theorem topK_perm (hpos : 0 < total votePower dreps) (h : dreps.Perm dreps') :
    SameButTies f dreps (computeConcentration f dreps).topK
      (computeConcentration f dreps').topK := by
  rw [computeConcentration_eq hpos, computeConcentration_eq (total_pos_perm h hpos), total_perm h,
    SameButTies, total_perm h, List.forall₂_map_left_iff, List.forall₂_map_right_iff]
  have hpower : List.Forall₂ (fun x y : ConcentrationInput => x.power = y.power)
      ((byPower dreps).take TOP_K) ((byPower dreps').take TOP_K) := by
    have hsame : List.Forall₂ (· = ·) (((byPower dreps).take TOP_K).map (·.power))
        (((byPower dreps').take TOP_K).map (·.power)) := by
      rw [List.forall₂_eq_eq_eq, List.map_take, List.map_take, map_power_byPower h]
    simpa only [List.forall₂_map_left_iff, List.forall₂_map_right_iff] using hsame
  refine List.forall₂_iff_get.mpr ⟨hpower.length_eq, fun i hx hy => ?_⟩
  refine ⟨_, ?_, _, ?_, hpower.get hx hy, rfl, rfl⟩
  · exact (byPower_perm dreps).mem_iff.mp (List.mem_of_mem_take (List.get_mem _ _))
  · exact h.mem_iff.mpr
      ((byPower_perm dreps').mem_iff.mp (List.mem_of_mem_take (List.get_mem _ _)))

/-- **Concentration.** Each point has the fewest DReps of all choices that reach its percent, and
the share of the most powerful of these; only which of tied DReps is listed hangs on the order. -/
theorem computeConcentration_right (formatAda : ℤ → Text) (dreps : List ConcentrationInput)
    (hpos : 0 < total votePower dreps) :
    (∀ p ≤ 100, ∃ point : ConcentrationPoint, (computeConcentration formatAda dreps).byPercent[p]? = some point ∧
        IsLeast (sizes votePower dreps (Reaches dreps p)) point.count ∧ (p : ℚ) ≤ point.cumPct ∧
        ∃ most : ℤ, IsGreatest (totals votePower dreps point.count) most ∧ Reaches dreps p most ∧
          point.cumPct = ⌊(100 * most / total votePower dreps : ℚ) * 100⌋ / 100) ∧
      (computeConcentration formatAda dreps).byPercent.length = 101 ∧
      ((computeConcentration formatAda dreps).byPercent.map (·.count)).Pairwise (· ≤ ·) ∧
      (∀ dreps', dreps.Perm dreps' → ∃ topK,
        computeConcentration formatAda dreps' =
            { computeConcentration formatAda dreps with topK := topK } ∧
          SameButTies formatAda dreps (computeConcentration formatAda dreps).topK topK) ∧
      ((computeConcentration formatAda dreps).topK.map (·.pct)).Pairwise (· ≥ ·) ∧
      ((computeConcentration formatAda dreps).topK.map (·.pct)).sum ≤ 100 := by
  have hlength := length_byPercent (f := formatAda) hpos
  refine ⟨fun p hp => ?_, hlength, ?_, fun dreps' h => ?_, ?_, ?_⟩
  · obtain ⟨k, hfirst, heq⟩ := byPercent_get (f := formatAda) (p := p) hpos (by omega)
    have hmost := isGreatest_totals (byPower_votePower dreps) hfirst.1
    rw [totals_perm (byPower_perm dreps)] at hmost
    have hreach := hfirst.2.1
    rw [Reaches, total_perm (byPower_perm dreps)] at hreach
    exact ⟨_, (List.getElem?_eq_getElem (by omega)).trans (congrArg some heq), hfirst.isLeast,
      pctOf_ge hpos (total_nonneg _) hreach, _, hmost, hreach,
      pctOf_eq_floor hpos (total_nonneg _)⟩
  · refine List.pairwise_map.mpr (List.pairwise_iff_getElem.mpr fun p q hp hq hlt => ?_)
    obtain ⟨k, hfirst, heq⟩ := byPercent_get hpos hp
    obtain ⟨l, hfirst', heq'⟩ := byPercent_get hpos hq
    rw [heq, heq']
    exact hfirst'.isLeast.mono hfirst.isLeast (sizes_reaches_anti hlt.le)
  · refine ⟨_, ?_, topK_perm hpos h⟩
    have hpoints := byPercent_perm (f := formatAda) hpos h
    rw [computeConcentration_eq hpos, computeConcentration_eq (total_pos_perm h hpos),
      total_perm h] at hpoints ⊢
    rw [h.length_eq]
    exact congrArg _ hpoints
  all_goals rw [computeConcentration_eq hpos, List.map_map]
  · refine List.pairwise_map.mpr (((byPower_votePower dreps).sublist (List.take_sublist _ _)).imp
      fun {a b} hab => ?_)
    exact pctOf_mono hpos (votePower_nonneg b) hab
  · refine (sum_pctOf_le hpos ((byPower dreps).take TOP_K)).trans ?_
    have htop := (total_le_of_subperm (fun d _ => votePower_nonneg d) (List.take_sublist TOP_K
      (byPower dreps)).subperm)
    rw [total_perm (byPower_perm dreps)] at htop
    rw [div_le_iff₀ (by exact_mod_cast hpos)]
    exact mul_le_mul_of_nonneg_left (by exact_mod_cast htop) (by norm_num)

theorem computeConcentration_right_two :
    ((computeConcentration (fun _ => "0 ₳".toList)
      [⟨"a", none, none, 3⟩, ⟨"b", none, none, -1⟩]).topK.map (·.pct)).sum ≤ 100 :=
  (computeConcentration_right _ [⟨"a", none, none, 3⟩, ⟨"b", none, none, -1⟩] (by decide)).2.2.2.2.2

end DrepTalk
