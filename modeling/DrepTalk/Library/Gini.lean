import Mathlib.Algebra.Order.BigOperators.Group.List
import Mathlib.Tactic.FieldSimp
import Mathlib.Tactic.Linarith
import Mathlib.Tactic.Ring

/-!
# The Gini coefficient

How unequal amounts are: the distances of all pairs, over what these could sum up to
(`coefficient`). In ascending order an amount stands above those before it and below those behind
it, so the distances are a sum over the ranks (`pairwise_add`), and amounts that are not negative
stay `1 / n` below one (`coefficient_le`).
-/

namespace DrepTalk.Gini

/-- The sum of the distances, over all ordered pairs. -/
def pairwise (l : List ℤ) : ℤ := (l.map fun x => (l.map fun y => |x - y|).sum).sum

/-- The mean distance over twice the mean. -/
def coefficient (l : List ℤ) : ℚ := pairwise l / (2 * l.length * l.sum)

/-- The sum of the amounts, each times its rank. -/
def ranked : List ℤ → ℤ
  | [] => 0
  | a :: l => a + (ranked l + l.sum)

variable {l l' : List ℤ}

theorem pairwise_perm (h : l.Perm l') : pairwise l = pairwise l' := by
  have hrow : ∀ x : ℤ, (l.map fun y => |x - y|).sum = (l'.map fun y => |x - y|).sum :=
    fun x => (h.map _).sum_eq
  simp only [pairwise, hrow]
  exact (h.map _).sum_eq

theorem coefficient_perm (h : l.Perm l') : coefficient l = coefficient l' := by
  rw [coefficient, coefficient, pairwise_perm h, h.length_eq, h.sum_eq]

theorem pairwise_cons (a : ℤ) (l : List ℤ) :
    pairwise (a :: l) = pairwise l + 2 * (l.map fun y => |a - y|).sum := by
  have hswap : (l.map fun x => |x - a|) = l.map fun x => |a - x| :=
    List.map_congr_left fun x _ => abs_sub_comm x a
  simp only [pairwise, List.map_cons, List.sum_cons, List.sum_map_add, hswap, sub_self, abs_zero]
  ring

theorem sum_distances {a : ℤ} (h : ∀ y ∈ l, a ≤ y) :
    (l.map fun y => |a - y|).sum = l.sum - l.length * a := by
  induction l with
  | nil => simp
  | cons y l ih =>
    obtain ⟨hy, hl⟩ := List.forall_mem_cons.mp h
    rw [List.map_cons, List.sum_cons, ih hl, abs_sub_comm, abs_of_nonneg (sub_nonneg.mpr hy),
      List.sum_cons, List.length_cons]
    push_cast
    ring

/-- **Ranks.** The closed form of the distances of sorted amounts. -/
theorem pairwise_add (h : l.Pairwise (· ≤ ·)) :
    pairwise l + 2 * (l.length + 1) * l.sum = 4 * ranked l := by
  induction l with
  | nil => rfl
  | cons a l ih =>
    obtain ⟨ha, hl⟩ := List.pairwise_cons.mp h
    rw [pairwise_cons, sum_distances ha, ranked, List.sum_cons, List.length_cons]
    push_cast
    linarith [ih hl]

theorem sum_distances_le {a : ℤ} (ha : 0 ≤ a) (h : ∀ y ∈ l, 0 ≤ y) :
    (l.map fun y => |a - y|).sum ≤ l.length * a + l.sum := by
  induction l with
  | nil => simp
  | cons y l ih =>
    obtain ⟨hy, hl⟩ := List.forall_mem_cons.mp h
    have hdist : |a - y| ≤ a + y := abs_sub_le_iff.mpr ⟨by omega, by omega⟩
    rw [List.map_cons, List.sum_cons, List.sum_cons, List.length_cons]
    push_cast
    linarith [ih hl]

theorem pairwise_le (h : ∀ x ∈ l, 0 ≤ x) : pairwise l + 2 * l.sum ≤ 2 * l.length * l.sum := by
  induction l with
  | nil => rfl
  | cons a l ih =>
    obtain ⟨ha, hl⟩ := List.forall_mem_cons.mp h
    rw [pairwise_cons, List.sum_cons, List.length_cons]
    push_cast
    linarith [ih hl, sum_distances_le ha hl]

theorem pairwise_nonneg (l : List ℤ) : 0 ≤ pairwise l := by
  refine List.sum_nonneg fun row hrow => ?_
  obtain ⟨x, -, rfl⟩ := List.mem_map.mp hrow
  refine List.sum_nonneg fun d hd => ?_
  obtain ⟨y, -, rfl⟩ := List.mem_map.mp hd
  exact abs_nonneg _

theorem coefficient_nonneg (h : ∀ x ∈ l, 0 ≤ x) : 0 ≤ coefficient l :=
  div_nonneg (by exact_mod_cast pairwise_nonneg l)
    (mul_nonneg (by positivity) (by exact_mod_cast List.sum_nonneg h))

theorem coefficient_eq (h : l.Pairwise (· ≤ ·)) (hlength : l ≠ []) (hsum : 0 < l.sum) :
    coefficient l = 2 * ranked l / (l.length * l.sum) - (l.length + 1) / l.length := by
  have hn : (0 : ℚ) < l.length := by exact_mod_cast List.length_pos_iff.mpr hlength
  have hs : (0 : ℚ) < l.sum := by exact_mod_cast hsum
  have hclosed : (pairwise l : ℚ) + 2 * (l.length + 1) * l.sum = 4 * ranked l := by
    exact_mod_cast pairwise_add h
  rw [coefficient]
  field_simp
  linarith

theorem coefficient_le (h : ∀ x ∈ l, 0 ≤ x) (hsum : 0 < l.sum) :
    coefficient l ≤ 1 - 1 / l.length := by
  have hn : (0 : ℚ) < l.length := by
    refine Nat.cast_pos.mpr (List.length_pos_iff.mpr fun hnil => ?_)
    rw [hnil] at hsum
    exact nomatch hsum
  have hs : (0 : ℚ) < l.sum := by exact_mod_cast hsum
  have hle : (pairwise l : ℚ) + 2 * l.sum ≤ 2 * l.length * l.sum := by exact_mod_cast pairwise_le h
  rw [coefficient, div_le_iff₀ (by positivity), sub_mul]
  field_simp
  linarith

end DrepTalk.Gini
