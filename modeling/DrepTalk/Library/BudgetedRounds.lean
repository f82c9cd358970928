import Mathlib.Algebra.Order.Ring.Nat

/-!
# Rounds with a budget, in a fixed order

Items stand in a fixed order, and in each round the first `M` of those that still need service are
served. Some of them are *stuck*: they need service again in the next round, whatever is done for
them. All others are done once they are served.

**Progress** (`drained`). Where fewer than `M` stuck items stand before each open one, each round
serves some of the open ones, and after a number of rounds none is left.

**Starvation** (`starved`). An open item behind `M` stuck ones is never served.
-/

namespace DrepTalk

/-- The rounds: who needs service in each of them. -/
structure BudgetedRounds {α : Type*} (items : List α) (M : ℕ) (stuck : α → Bool)
    (needs : ℕ → α → Bool) : Prop where
  stuck_needs : ∀ k a, a ∈ items → stuck a = true → needs k a = true
  done : ∀ k a, a ∈ items → needs k a = false → needs (k + 1) a = false
  served : ∀ k before a behind, items = before ++ a :: behind → stuck a = false →
    before.countP (needs k) < M → needs (k + 1) a = false
  unserved : ∀ k before a behind, items = before ++ a :: behind → needs k a = true →
    M ≤ before.countP (needs k) → needs (k + 1) a = true

namespace BudgetedRounds

variable {α : Type*} {items : List α} {M F : ℕ} {stuck : α → Bool} {needs : ℕ → α → Bool}

/-- The first of a list with a given number of hits. -/
theorem exists_prefix_countP {p : α → Bool} {n : ℕ} :
    ∀ {l : List α}, n ≤ l.countP p → ∃ first rest, l = first ++ rest ∧ first.countP p = n
  | l, h => by
    induction l generalizing n with
    | nil => exact ⟨[], [], rfl, (Nat.le_zero.mp h).symm⟩
    | cons a l ih =>
      rcases n with _ | n
      · exact ⟨[], a :: l, rfl, rfl⟩
      · by_cases hp : p a = true
        · rw [List.countP_cons_of_pos hp] at h
          obtain ⟨first, rest, rfl, hcount⟩ := ih (Nat.le_of_succ_le_succ h)
          exact ⟨a :: first, rest, rfl, by rw [List.countP_cons_of_pos hp, hcount]⟩
        · rw [List.countP_cons_of_neg hp] at h
          obtain ⟨first, rest, rfl, hcount⟩ := ih h
          exact ⟨a :: first, rest, rfl, by rw [List.countP_cons_of_neg hp, hcount]⟩

/-- The item is not stuck, and needs service. -/
def isOpen (stuck : α → Bool) (needs : ℕ → α → Bool) (k : ℕ) (a : α) : Bool :=
  needs k a && !stuck a

theorem isOpen_eq_true {k : ℕ} {a : α} :
    isOpen stuck needs k a = true ↔ needs k a = true ∧ stuck a = false := by
  rw [isOpen, Bool.and_eq_true, Bool.not_eq_true']

variable (h : BudgetedRounds items M stuck needs)
include h

/-- Nobody who is done needs service again. -/
theorem needs_of_le {k k' : ℕ} (hle : k ≤ k') {a : α} (ha : a ∈ items)
    (hneeds : needs k' a = true) : needs k a = true := by
  induction k', hle using Nat.le_induction with
  | base => exact hneeds
  | succ k' _ ih =>
    refine ih ?_
    by_contra hdone
    exact absurd (h.done k' a ha (Bool.eq_false_iff.mpr hdone)) (by simp [hneeds])

/-- Those who need service are the stuck and the open ones. -/
theorem countP_needs {part : List α} (hsub : ∀ a ∈ part, a ∈ items) (k : ℕ) :
    part.countP (needs k) = part.countP stuck + part.countP (isOpen stuck needs k) := by
  induction part with
  | nil => rfl
  | cons a part ih =>
    have hstuck := h.stuck_needs k a (hsub a List.mem_cons_self)
    have hrest := ih fun b hb => hsub b (List.mem_cons_of_mem a hb)
    rw [List.countP_cons, List.countP_cons, List.countP_cons, hrest, isOpen]
    cases hs : stuck a <;> cases hn : needs k a <;> simp_all <;> omega

/-- **One round** serves all of the open items, or at least as many of them as the stuck ones
leave. -/
theorem countP_isOpen_succ {k : ℕ} (hbehind : ∀ before a behind, items = before ++ a :: behind →
      isOpen stuck needs k a = true → before.countP stuck ≤ F) :
    items.countP (isOpen stuck needs (k + 1)) ≤ items.countP (isOpen stuck needs k) - (M - F) := by
  have hmono : ∀ part : List α, (∀ a ∈ part, a ∈ items) →
      part.countP (isOpen stuck needs (k + 1)) ≤ part.countP (isOpen stuck needs k) := by
    refine fun part hsub => List.countP_mono_left fun a ha hopen => ?_
    obtain ⟨hneeds, hstuck⟩ := isOpen_eq_true.mp hopen
    exact isOpen_eq_true.mpr ⟨h.needs_of_le (Nat.le_succ k) (hsub a ha) hneeds, hstuck⟩
  have hserved : ∀ before a behind, items = before ++ a :: behind →
      before.countP (needs k) < M → isOpen stuck needs (k + 1) a = false := by
    intro before a behind hitems hbudget
    rw [isOpen]
    rcases hs : stuck a with _ | _
    · rw [h.served k before a behind hitems hs hbudget]
      rfl
    · simp
  by_cases hall : items.countP (needs k) ≤ M
  · -- all are served
    have hnone : items.countP (isOpen stuck needs (k + 1)) = 0 := by
      refine List.countP_eq_zero.mpr fun a ha hopen => ?_
      obtain ⟨before, behind, hitems⟩ := List.append_of_mem ha
      have hneeds := h.needs_of_le (Nat.le_succ k) ha (isOpen_eq_true.mp hopen).1
      have hcount : before.countP (needs k) < items.countP (needs k) := by
        rw [hitems, List.countP_append, List.countP_cons_of_pos hneeds]
        omega
      exact absurd (hserved before a behind hitems (by omega)) (by simp [hopen])
    omega
  · obtain ⟨first, rest, hitems, hcount⟩ := exists_prefix_countP (Nat.le_of_lt (not_le.mp hall))
    have hsubFirst : ∀ a ∈ first, a ∈ items := fun a ha => hitems ▸ List.mem_append_left rest ha
    have hsubRest : ∀ a ∈ rest, a ∈ items := fun a ha => hitems ▸ List.mem_append_right first ha
    have hfirst : first.countP (isOpen stuck needs (k + 1)) = 0 := by
      refine List.countP_eq_zero.mpr fun a ha hopen => ?_
      obtain ⟨before, behind, rfl⟩ := List.append_of_mem ha
      have hneeds := h.needs_of_le (Nat.le_succ k) (hsubFirst a ha) (isOpen_eq_true.mp hopen).1
      rw [List.countP_append, List.countP_cons_of_pos hneeds] at hcount
      have hsplit : items = before ++ a :: (behind ++ rest) := by
        rw [hitems, List.append_assoc, List.cons_append]
      exact absurd (hserved before a _ hsplit (by omega)) (by simp [hopen])
    rw [hitems, List.countP_append, List.countP_append, hfirst]
    have hrest := hmono rest hsubRest
    by_cases hleft : rest.countP (isOpen stuck needs k) = 0
    · omega
    · -- an open item behind the served ones bounds the stuck among them
      obtain ⟨a, ha, hopen⟩ := List.countP_pos_iff.mp (Nat.pos_of_ne_zero hleft)
      obtain ⟨before, behind, rfl⟩ := List.append_of_mem ha
      have hbound := hbehind (first ++ before) a behind
        (by rw [hitems, List.append_assoc]) hopen
      rw [List.countP_append] at hbound
      have hparts := h.countP_needs hsubFirst k
      omega

variable (hstart : ∀ before a behind, items = before ++ a :: behind →
  isOpen stuck needs 0 a = true → before.countP stuck ≤ F)
include hstart

/-- What is left of the open items after a number of rounds. -/
theorem countP_isOpen_le (k : ℕ) :
    items.countP (isOpen stuck needs k) ≤ items.length - k * (M - F) := by
  induction k with
  | zero => exact (List.countP_le_length).trans (by simp)
  | succ k ih =>
    have hround := h.countP_isOpen_succ (k := k) fun before a behind hitems hopen => by
      obtain ⟨hneeds, hstuck⟩ := isOpen_eq_true.mp hopen
      have ha : a ∈ items := hitems ▸ List.mem_append_right before List.mem_cons_self
      exact hstart before a behind hitems
        (isOpen_eq_true.mpr ⟨h.needs_of_le (Nat.zero_le k) ha hneeds, hstuck⟩)
    rw [Nat.succ_mul]
    omega

/-- **Progress.** From a number of rounds on, only the stuck items need service. -/
theorem drained (hF : F < M) {k : ℕ} (hk : items.length / (M - F) + 1 ≤ k) {a : α}
    (ha : a ∈ items) : needs k a = stuck a := by
  have hpos : 0 < M - F := by omega
  have hrounds : items.length < k * (M - F) :=
    calc items.length < (items.length / (M - F) + 1) * (M - F) := by
          have hdiv := Nat.div_add_mod items.length (M - F)
          have hmod := Nat.mod_lt items.length hpos
          rw [Nat.succ_mul, Nat.mul_comm]
          omega
      _ ≤ k * (M - F) := Nat.mul_le_mul_right _ hk
  have hzero : items.countP (isOpen stuck needs k) = 0 := by
    have hle := h.countP_isOpen_le hstart k
    omega
  have hclosed := List.countP_eq_zero.mp hzero a ha
  rcases hs : stuck a with _ | _
  · by_contra hneeds
    exact hclosed (isOpen_eq_true.mpr ⟨by simpa using hneeds, hs⟩)
  · exact h.stuck_needs k a ha hs

omit hstart

/-- **Starvation.** -/
theorem starved {before behind : List α} {a : α} (hitems : items = before ++ a :: behind)
    (hneeds : needs 0 a = true) (hstuck : M ≤ before.countP stuck) (k : ℕ) :
    needs k a = true := by
  induction k with
  | zero => exact hneeds
  | succ k ih =>
    refine h.unserved k before a behind hitems ih (hstuck.trans ?_)
    refine List.countP_mono_left fun b hb hs => h.stuck_needs k b ?_ hs
    exact hitems ▸ List.mem_append_left _ hb

end BudgetedRounds

end DrepTalk
