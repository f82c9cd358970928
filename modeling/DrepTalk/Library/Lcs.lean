import Mathlib.Data.List.Range
import Mathlib.Order.Bounds.Defs

/-!
# The longest-common-subsequence table and its greedy walk

Over an arbitrary alphabet with decidable equality, `lcsRow a b` is the row of the classical
table that belongs to the suffix `a`: its entries are the LCS lengths of `a` against every
suffix of `b`, longest suffix first, built from the row below it. `lcsLength a b` is its
first entry, and the two recurrence lemmas are the ones the table is filled by. It is the length
of a longest common subsequence (`isGreatest_lcsLength`).

`lcsWalk a b` is the forward walk every textual diff reads off such a table: take a common
element when the heads agree, otherwise step on the side whose remaining table entry is not
smaller, the left one on a tie. Whatever the table says, the walk consumes both lists
completely and in order (`lefts_lcsWalk`, `rights_lcsWalk`); that the table holds LCS
lengths makes it optimal, with as many common steps as the table's first entry
(`commons_lcsWalk`). `anchors` are the index pairs of its common steps; they increase
strictly on both sides (`increasing_anchors`) and join equal elements
(`getElem?_of_mem_anchors`).
-/

namespace DrepTalk

namespace Lcs

variable {α : Type*} [DecidableEq α]

/-- One row of the table from the row below it: `x` against every suffix of `b`. -/
def extendRow (x : α) : List α → List ℕ → List ℕ
  | [], _ => [0]
  | y :: b, below =>
    let rest := extendRow x b below.tail
    (if x = y then below.tail.headD 0 + 1 else max (below.headD 0) (rest.headD 0)) :: rest

/-- The table row of the suffix `a`, one entry for every suffix of `b`. -/
def lcsRow : List α → List α → List ℕ
  | [], b => List.replicate (b.length + 1) 0
  | x :: a, b => extendRow x b (lcsRow a b)

/-- The table entry of the suffixes `a` and `b`. -/
def lcsLength (a b : List α) : ℕ := (lcsRow a b).headD 0

variable (a b : List α) (x : α)

theorem tail_extendRow (y : α) (b : List α) (row : List ℕ) :
    (extendRow x (y :: b) row).tail = extendRow x b row.tail := rfl

theorem tail_lcsRow (y : α) (b : List α) : ∀ a, (lcsRow a (y :: b)).tail = lcsRow a b
  | [] => rfl
  | x :: a => by rw [lcsRow, tail_extendRow, tail_lcsRow y b a, lcsRow]

@[simp] theorem lcsLength_nil_left : lcsLength [] b = 0 := rfl

@[simp] theorem lcsLength_nil_right : lcsLength a [] = 0 := by
  cases a <;> rfl

/-- The recurrence of the table on equal heads. -/
theorem lcsLength_cons_same (a b : List α) : lcsLength (x :: a) (x :: b) = lcsLength a b + 1 := by
  simp only [lcsLength, lcsRow, extendRow, if_pos, List.headD_cons, tail_lcsRow]

/-- The recurrence of the table on different heads. -/
theorem lcsLength_cons_ne {x y : α} (h : x ≠ y) (a b : List α) :
    lcsLength (x :: a) (y :: b) = max (lcsLength a (y :: b)) (lcsLength (x :: a) b) := by
  simp only [lcsLength, lcsRow, extendRow, if_neg h, List.headD_cons, tail_lcsRow]

/-- No common subsequence is longer than the table entry. -/
theorem length_le_lcsLength {a b c : List α} (ha : c.Sublist a) (hb : c.Sublist b) :
    c.length ≤ lcsLength a b := by
  induction a generalizing b c with
  | nil => simp [List.sublist_nil.mp ha]
  | cons x a iha =>
    induction b generalizing c with
    | nil => simp [List.sublist_nil.mp hb]
    | cons y b ihb =>
      by_cases hxy : x = y
      · subst hxy
        have htail : c.tail.length ≤ lcsLength a b := iha ha.tail hb.tail
        rw [List.length_tail] at htail
        rw [lcsLength_cons_same]
        omega
      · rw [lcsLength_cons_ne hxy]
        -- a subsequence of both begins with at most one of the two heads
        rcases List.sublist_cons_iff.mp ha with ha' | ⟨r, rfl, -⟩
        · exact (iha ha' hb).trans (le_max_left _ _)
        · rcases List.sublist_cons_iff.mp hb with hb' | ⟨r', heq, -⟩
          · exact (ihb ha hb').trans (le_max_right _ _)
          · exact absurd (List.cons.inj heq).1 hxy

/-! ### The walk -/

/-- One step of the walk: an element common to both sides, or of one side only. -/
inductive Step (α : Type*)
  | both (x : α)
  | left (x : α)
  | right (x : α)

/-- The part of the walk that stays on the left head `x`: `walkRest` walks on past `x`. -/
def walkRow (x : α) (a : List α) (walkRest : List α → List (Step α)) : List α → List (Step α)
  | [] => .left x :: walkRest []
  | y :: b =>
    if x = y then .both x :: walkRest b
    else if lcsLength a (y :: b) ≥ lcsLength (x :: a) b then .left x :: walkRest (y :: b)
    else .right y :: walkRow x a walkRest b

/-- The forward walk through the table of `a` and `b`, tails included. -/
def lcsWalk : List α → List α → List (Step α)
  | [], b => b.map .right
  | x :: a, b => walkRow x a (lcsWalk a) b

/-- The walk ends when the left list is used up. -/
theorem lcsWalk_nil : lcsWalk [] b = b.map .right := rfl

theorem lcsWalk_cons_nil (a : List α) : lcsWalk (x :: a) [] = .left x :: lcsWalk a [] :=
  rfl

theorem lcsWalk_cons_cons (y : α) (a b : List α) :
    lcsWalk (x :: a) (y :: b)
      = if x = y then .both x :: lcsWalk a b
        else if lcsLength a (y :: b) ≥ lcsLength (x :: a) b then .left x :: lcsWalk a (y :: b)
        else .right y :: lcsWalk (x :: a) b := rfl

/-- Induction along the walk: a property of the pair of remaining lists that each of its five
moves carries over holds of every pair. -/
theorem walk_induction {motive : List α → List α → Prop}
    (done : ∀ b, motive [] b)
    (tail : ∀ x a, motive a [] → motive (x :: a) [])
    (both : ∀ x a b, motive a b → motive (x :: a) (x :: b))
    (left : ∀ x y a b, x ≠ y → lcsLength a (y :: b) ≥ lcsLength (x :: a) b →
      motive a (y :: b) → motive (x :: a) (y :: b))
    (right : ∀ x y a b, x ≠ y → ¬ lcsLength a (y :: b) ≥ lcsLength (x :: a) b →
      motive (x :: a) b → motive (x :: a) (y :: b)) :
    ∀ a b, motive a b := by
  intro a
  induction a with
  | nil => exact done
  | cons x a iha =>
    intro b
    induction b with
    | nil => exact tail x a (iha [])
    | cons y b ihb =>
      by_cases hxy : x = y
      · subst hxy
        exact both x a b (iha b)
      · by_cases hge : lcsLength a (y :: b) ≥ lcsLength (x :: a) b
        · exact left x y a b hxy hge (iha (y :: b))
        · exact right x y a b hxy hge ihb

/-- The elements a walk takes from the left list. -/
def lefts (steps : List (Step α)) : List α :=
  steps.filterMap fun
    | .both x => some x
    | .left x => some x
    | .right _ => none

/-- The elements a walk takes from the right list. -/
def rights (steps : List (Step α)) : List α :=
  steps.filterMap fun
    | .both x => some x
    | .left _ => none
    | .right x => some x

/-- The walk takes exactly the left list, in order. -/
theorem lefts_lcsWalk : lefts (lcsWalk a b) = a := by
  induction a, b using walk_induction with
  | done b => simp [lcsWalk_nil, lefts, List.filterMap_map]
  | tail x a ih => simpa [lcsWalk_cons_nil, lefts] using ih
  | both x a b ih => simpa [lcsWalk_cons_cons, lefts] using ih
  | left x y a b hxy hge ih => simpa [lcsWalk_cons_cons, hxy, hge, lefts] using ih
  | right x y a b hxy hge ih =>
    rw [lcsWalk_cons_cons, if_neg hxy, if_neg hge]
    simpa [lefts] using ih

/-- The walk takes exactly the right list, in order. -/
theorem rights_lcsWalk : rights (lcsWalk a b) = b := by
  induction a, b using walk_induction with
  | done b => simp [lcsWalk_nil, rights, List.filterMap_map]
  | tail x a ih => simpa [lcsWalk_cons_nil, rights] using ih
  | both x a b ih => simpa [lcsWalk_cons_cons, rights] using ih
  | left x y a b hxy hge ih => simpa [lcsWalk_cons_cons, hxy, hge, rights] using ih
  | right x y a b hxy hge ih =>
    rw [lcsWalk_cons_cons, if_neg hxy, if_neg hge]
    simpa [rights] using ih

/-- The common steps of a walk. -/
def commons (steps : List (Step α)) : ℕ :=
  steps.countP fun
    | .both _ => true
    | _ => false

/-- The walk follows the table: it makes as many common steps as the table entry it starts
from. -/
theorem commons_lcsWalk : commons (lcsWalk a b) = lcsLength a b := by
  induction a, b using walk_induction with
  | done b => simp [lcsWalk_nil, commons]
  | tail x a ih => simpa [lcsWalk_cons_nil, commons] using ih
  | both x a b ih =>
    rw [lcsLength_cons_same, ← ih]
    simp [lcsWalk_cons_cons, commons]
  | left x y a b hxy hge ih =>
    rw [lcsLength_cons_ne hxy, max_eq_left hge, ← ih]
    simp [lcsWalk_cons_cons, hxy, hge, commons]
  | right x y a b hxy hge ih =>
    rw [lcsLength_cons_ne hxy, max_eq_right (by omega), ← ih, lcsWalk_cons_cons, if_neg hxy,
      if_neg hge]
    simp [commons]

/-- The common steps are a common subsequence. -/
theorem exists_sublist_lcsLength :
    ∃ c : List α, c.Sublist a ∧ c.Sublist b ∧ c.length = lcsLength a b := by
  induction a, b using walk_induction with
  | done b | tail x a ih => exact ⟨[], List.nil_sublist _, List.nil_sublist _, by simp⟩
  | both x a b ih =>
    obtain ⟨c, ha, hb, hc⟩ := ih
    exact ⟨x :: c, ha.cons_cons x, hb.cons_cons x, by
      rw [lcsLength_cons_same, ← hc, List.length_cons]⟩
  | left x y a b hxy hge ih =>
    obtain ⟨c, ha, hb, hc⟩ := ih
    exact ⟨c, ha.cons x, hb, by rw [lcsLength_cons_ne hxy, max_eq_left hge, hc]⟩
  | right x y a b hxy hge ih =>
    obtain ⟨c, ha, hb, hc⟩ := ih
    exact ⟨c, ha, hb.cons y, by rw [lcsLength_cons_ne hxy, max_eq_right (by omega), hc]⟩

/-- **The table entry is the length of a longest common subsequence.** -/
theorem isGreatest_lcsLength :
    IsGreatest {k | ∃ c : List α, c.Sublist a ∧ c.Sublist b ∧ c.length = k} (lcsLength a b) := by
  refine ⟨exists_sublist_lcsLength a b, ?_⟩
  rintro k ⟨c, ha, hb, rfl⟩
  exact length_le_lcsLength ha hb

/-! ### Anchors -/

/-- The index pairs of the common steps of a walk that starts at the indices `i` and `j`. -/
def anchors (i j : ℕ) : List (Step α) → List (ℕ × ℕ)
  | [] => []
  | .both _ :: steps => (i, j) :: anchors (i + 1) (j + 1) steps
  | .left _ :: steps => anchors (i + 1) j steps
  | .right _ :: steps => anchors i (j + 1) steps

/-- Index pairs that increase strictly on both sides from `i` and `j` and stay below `n` and
`m`. -/
inductive Increasing (n m : ℕ) : ℕ → ℕ → List (ℕ × ℕ) → Prop
  | nil {i j : ℕ} (hi : i ≤ n) (hj : j ≤ m) : Increasing n m i j []
  | cons {i j p q : ℕ} {rest : List (ℕ × ℕ)} (hi : i ≤ p) (hj : j ≤ q) (hp : p < n) (hq : q < m)
      (tail : Increasing n m (p + 1) (q + 1) rest) : Increasing n m i j ((p, q) :: rest)

theorem Increasing.mono {n m i i' j j' : ℕ} {l : List (ℕ × ℕ)} (h : Increasing n m i j l)
    (hi : i' ≤ i) (hj : j' ≤ j) : Increasing n m i' j' l := by
  cases h with
  | nil hn hm => exact .nil (hi.trans hn) (hj.trans hm)
  | cons hp hq hpn hqm tail => exact .cons (hi.trans hp) (hj.trans hq) hpn hqm tail

/-- Anchors increase strictly on both sides. -/
theorem increasing_anchors : ∀ i j,
    Increasing (i + a.length) (j + b.length) i j (anchors i j (lcsWalk a b)) := by
  induction a, b using walk_induction with
  | done b =>
    induction b with
    | nil => exact fun i j => .nil (by simp) (by simp)
    | cons y b ih =>
      intro i j
      have h := (ih i (j + 1)).mono (le_refl i) (show j ≤ j + 1 by omega)
      simpa [lcsWalk_nil, anchors, Nat.add_assoc, Nat.add_comm 1] using h
  | tail x a ih =>
    intro i j
    have h := (ih (i + 1) j).mono (show i ≤ i + 1 by omega) (le_refl j)
    simpa [lcsWalk_cons_nil, anchors, Nat.add_assoc, Nat.add_comm 1] using h
  | both x a b ih =>
    intro i j
    have h := ih (i + 1) (j + 1)
    rw [Nat.add_right_comm i, Nat.add_right_comm j] at h
    simp only [lcsWalk_cons_cons, if_pos, anchors, List.length_cons, ← Nat.add_assoc]
    exact .cons le_rfl le_rfl (by omega) (by omega) h
  | left x y a b hxy hge ih =>
    intro i j
    have h := (ih (i + 1) j).mono (show i ≤ i + 1 by omega) (le_refl j)
    simpa [lcsWalk_cons_cons, hxy, hge, anchors, Nat.add_assoc, Nat.add_comm 1] using h
  | right x y a b hxy hge ih =>
    intro i j
    have h := (ih i (j + 1)).mono (le_refl i) (show j ≤ j + 1 by omega)
    rw [lcsWalk_cons_cons, if_neg hxy, if_neg hge]
    simpa [anchors, Nat.add_assoc, Nat.add_comm 1] using h

/-- An anchor joins equal elements. -/
theorem getElem?_of_mem_anchors : ∀ i j p q,
    (p, q) ∈ anchors i j (lcsWalk a b) →
      ∃ x, a[p - i]? = some x ∧ b[q - j]? = some x ∧ i ≤ p ∧ j ≤ q := by
  have shift : ∀ {l : List α} {y x : α} {k p : ℕ}, l[p - (k + 1)]? = some x → k + 1 ≤ p →
      (y :: l)[p - k]? = some x := by
    intro l y x k p h hk
    rw [show p - k = p - (k + 1) + 1 by omega, List.getElem?_cons_succ]
    exact h
  induction a, b using walk_induction with
  | done b =>
    induction b with
    | nil => simp [lcsWalk_nil, anchors]
    | cons y b ih =>
      intro i j p q h
      obtain ⟨x, ha, -, -, -⟩ := ih i (j + 1) p q h
      simp at ha
  | tail x a ih =>
    intro i j p q h
    obtain ⟨z, -, hb, -, -⟩ := ih (i + 1) j p q h
    simp at hb
  | both x a b ih =>
    intro i j p q h
    rw [lcsWalk_cons_cons, if_pos rfl, anchors, List.mem_cons] at h
    rcases h with h | h
    · cases h
      exact ⟨x, by simp, by simp, le_rfl, le_rfl⟩
    · obtain ⟨z, ha, hb, hp, hq⟩ := ih _ _ p q h
      exact ⟨z, shift ha hp, shift hb hq, by omega, by omega⟩
  | left x y a b hxy hge ih =>
    intro i j p q h
    rw [lcsWalk_cons_cons, if_neg hxy, if_pos hge, anchors] at h
    obtain ⟨z, ha, hb, hp, hq⟩ := ih _ _ p q h
    exact ⟨z, shift ha hp, hb, by omega, hq⟩
  | right x y a b hxy hge ih =>
    intro i j p q h
    rw [lcsWalk_cons_cons, if_neg hxy, if_neg hge, anchors] at h
    obtain ⟨z, ha, hb, hp, hq⟩ := ih _ _ p q h
    exact ⟨z, ha, shift hb hq, hp, by omega⟩

end Lcs

end DrepTalk
