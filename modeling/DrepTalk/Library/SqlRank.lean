import Mathlib.Data.List.Sort
import Mathlib.Order.WithBot

/-!
# Ranks in SQL

**Conditions** of SQL are true, false or NULL: a comparison with NULL is NULL, and `CASE WHEN` takes
what is true (`SqlBool`). **Orders** of SQLite have no such case: NULL sorts below every value
(`nullsLow`). A rank that counts rows by a comparison and a listing that is sorted agree where the
comparison does not meet NULL.

**Positions.** In a listing that is sorted, whatever the order of ties, a row stands behind those
that are strictly ahead, and before all but these and its ties (`position_of_sorted`).
-/

namespace DrepTalk

/-! ### Conditions -/

/-- A condition of SQL, with `none` for NULL. -/
abbrev SqlBool := Option Bool

namespace SqlBool

variable {α : Type*} [LinearOrder α]

def ofBool (b : Bool) : SqlBool := some b

/-- `x > y`. -/
def gt (x y : Option α) : SqlBool := x.bind fun a => y.map fun b => decide (b < a)

/-- `x = y`. -/
def eq (x y : Option α) : SqlBool := x.bind fun a => y.map fun b => decide (a = b)

def and : SqlBool → SqlBool → SqlBool
  | some false, _ => some false
  | _, some false => some false
  | some true, some true => some true
  | _, _ => none

def or : SqlBool → SqlBool → SqlBool
  | some true, _ => some true
  | _, some true => some true
  | some false, some false => some false
  | _, _ => none

/-- `CASE WHEN c THEN 1 ELSE 0 END`. -/
def holds (c : SqlBool) : Bool := c == some true

@[simp] theorem holds_ofBool (b : Bool) : (ofBool b).holds = b := by
  cases b <;> rfl

@[simp] theorem holds_and (c d : SqlBool) : (c.and d).holds = (c.holds && d.holds) := by
  rcases c with _ | _ | _ <;> rcases d with _ | _ | _ <;> rfl

@[simp] theorem holds_or (c d : SqlBool) : (c.or d).holds = (c.holds || d.holds) := by
  rcases c with _ | _ | _ <;> rcases d with _ | _ | _ <;> rfl

theorem holds_gt {x y : Option α} : (gt x y).holds = true ↔ ∃ a ∈ x, ∃ b ∈ y, b < a := by
  rcases x with _ | a <;> rcases y with _ | b <;> simp [gt, holds]

theorem holds_eq {x y : Option α} : (eq x y).holds = true ↔ ∃ a ∈ x, a ∈ y := by
  rcases x with _ | a <;> rcases y with _ | b <;> simp [eq, holds, Eq.comm]

end SqlBool

/-! ### Orders -/

section

variable {α : Type*} [LinearOrder α]

/-- Whether `x` sorts below `y`. -/
def nullsLow : Option α → Option α → Bool
  | none, some _ => true
  | some a, some b => decide (a < b)
  | _, none => false

/-- Against a value, the comparison and the order agree. -/
theorem holds_gt_some {x : Option α} {b : α} :
    (SqlBool.gt x (some b)).holds = nullsLow (some b) x := by
  cases x <;> simp [SqlBool.gt, SqlBool.holds, nullsLow]

theorem holds_gt_none (x : Option α) : (SqlBool.gt x none).holds = false := by
  cases x <;> rfl

/-- A value as a key, with NULL as the least. -/
def lowKey : Option α → WithBot α
  | none => ⊥
  | some a => a

theorem nullsLow_iff {x y : Option α} : nullsLow x y = true ↔ lowKey x < lowKey y := by
  cases x <;> cases y <;> simp [nullsLow, lowKey]

omit [LinearOrder α] in
theorem lowKey_injective : (lowKey : Option α → WithBot α).Injective := by
  intro x y h
  cases x <;> cases y <;> simp_all [lowKey]

theorem nullsLow_irrefl (x : Option α) : nullsLow x x = false := by
  cases x <;> simp [nullsLow]

end

/-! ### Positions -/

section

/-- A list can be sorted by any key, the largest first. -/
theorem pairwise_insertionSort_key {β κ : Type*} [LinearOrder κ] (key : β → κ) (l : List β) :
    (l.insertionSort fun a b => key b ≤ key a).Pairwise fun a b => key b ≤ key a := by
  have : Std.Total fun a b : β => key b ≤ key a := ⟨fun a b => le_total (key b) (key a)⟩
  have : IsTrans β fun a b => key b ≤ key a := ⟨fun _ _ _ hab hbc => le_trans hbc hab⟩
  exact List.pairwise_insertionSort _ l

variable {β : Type*} [DecidableEq β] {ahead : β → β → Bool} {l : List β} {x : β}

/-- **A row of a sorted listing** stands behind those strictly ahead, and behind no more than these
and its ties. -/
theorem position_of_sorted (hsorted : l.Pairwise fun a b => ahead b a = false) (hnodup : l.Nodup)
    (hirrefl : ahead x x = false) (hx : x ∈ l) :
    ∃ i, l[i]? = some x ∧ l.countP (ahead · x) ≤ i ∧
      i ≤ l.countP (ahead · x) + l.countP fun y => !ahead y x && !ahead x y && y != x := by
  obtain ⟨front, back, rfl⟩ := List.append_of_mem hx
  obtain ⟨-, hback, hcross⟩ := List.pairwise_append.mp hsorted
  have hbehind : back.countP (ahead · x) = 0 := by
    refine List.countP_eq_zero.mpr fun y hy => ?_
    rw [(List.pairwise_cons.mp hback).1 y hy]
    exact Bool.false_ne_true
  have hcount : (front ++ x :: back).countP (ahead · x) = front.countP (ahead · x) := by
    rw [List.countP_append, List.countP_cons_of_neg (by simp [hirrefl]), hbehind, Nat.add_zero]
  refine ⟨front.length, ?_, ?_, ?_⟩
  · rw [List.getElem?_append_right (Nat.le_refl _), Nat.sub_self]
    rfl
  · rw [hcount]
    exact List.countP_le_length
  · have hties : front.countP (fun y => ¬ahead y x = true) ≤
        (front ++ x :: back).countP fun y => !ahead y x && !ahead x y && y != x := by
      rw [List.countP_append]
      refine Nat.le_trans (List.countP_mono_left fun y hy hnot => ?_) (Nat.le_add_right _ _)
      have hne : y ≠ x := (List.nodup_append.mp hnodup).2.2 y hy x List.mem_cons_self
      have hlate : ahead x y = false := hcross y hy x List.mem_cons_self
      simpa [hlate, hne] using hnot
    have hsplit := List.length_eq_countP_add_countP (ahead · x) (l := front)
    rw [hcount]
    omega

end

end DrepTalk
