import DrepTalk.Library.Table
import Mathlib.Data.List.Sort

/-!
# Joins of tables

**Joins** of SQL over lists of rows: every row of the left is paired with all rows of the right that
the condition takes (`innerJoin`), and, in a `LEFT JOIN`, kept without one where there is none
(`leftJoin`). A join on a key does not multiply rows: it looks them up (`innerJoin_eq`,
`leftJoin_eq`).

**The order** of an answer is by rank, where a table's own order decides ties (`orderedBy`).
-/

namespace DrepTalk

variable {α β κ : Type*}

/-- `l JOIN r ON on`. -/
def innerJoin (on : α → β → Bool) (l : List α) (r : List β) : List (α × β) :=
  l.flatMap fun a => (r.filter (on a)).map (Prod.mk a)

/-- `l LEFT JOIN r ON on`. -/
def leftJoin (on : α → β → Bool) (l : List α) (r : List β) : List (α × Option β) :=
  l.flatMap fun a =>
    match r.filter (on a) with
    | [] => [(a, none)]
    | matched => matched.map fun b => (a, some b)

/-- No row of the left meets two of the right. -/
def IsLookup (on : α → β → Bool) (r : List β) : Prop :=
  r.Nodup ∧ ∀ a, ∀ b ∈ r, ∀ b' ∈ r, on a b = true → on a b' = true → b = b'

section

variable {on : α → β → Bool} {l : List α} {r : List β}

theorem mem_innerJoin {a : α} {b : β} :
    (a, b) ∈ innerJoin on l r ↔ a ∈ l ∧ b ∈ r ∧ on a b = true := by
  rw [innerJoin, List.mem_flatMap]
  constructor
  · rintro ⟨a', ha, hb⟩
    obtain ⟨b', hb', heq⟩ := List.mem_map.mp hb
    cases heq
    exact ⟨ha, List.mem_filter.mp hb'⟩
  · rintro ⟨ha, hb⟩
    exact ⟨a, ha, List.mem_map_of_mem (List.mem_filter.mpr hb)⟩

/-- A condition that at most one row meets finds it. -/
theorem filter_eq_toList_find? {p : β → Bool} (hr : r.Nodup)
    (hone : ∀ b ∈ r, ∀ b' ∈ r, p b = true → p b' = true → b = b') :
    r.filter p = (r.find? p).toList := by
  induction r with
  | nil => rfl
  | cons b rest ih =>
    obtain ⟨hb, hrest⟩ := List.nodup_cons.mp hr
    cases hp : p b with
    | false =>
      rw [List.filter_cons_of_neg (by simp [hp]), List.find?_cons_of_neg (by simp [hp])]
      exact ih hrest fun b hb b' hb' =>
        hone b (List.mem_cons_of_mem _ hb) b' (List.mem_cons_of_mem _ hb')
    | true =>
      rw [List.filter_cons_of_pos hp, List.find?_cons_of_pos hp, List.filter_eq_nil_iff.mpr]
      · rfl
      · intro b' hb' hp'
        exact hb (hone b List.mem_cons_self b' (List.mem_cons_of_mem _ hb') hp hp' ▸ hb')

theorem innerJoin_eq (hon : IsLookup on r) :
    innerJoin on l r = l.filterMap fun a => (r.find? (on a)).map (Prod.mk a) := by
  rw [innerJoin, List.filterMap_eq_flatMap_toList]
  refine congrArg (l.flatMap ·) (funext fun a => ?_)
  rw [filter_eq_toList_find? hon.1 (hon.2 a)]
  cases r.find? (on a) <;> rfl

theorem leftJoin_eq (hon : IsLookup on r) :
    leftJoin on l r = l.map fun a => (a, r.find? (on a)) := by
  rw [leftJoin, List.map_eq_flatMap]
  refine congrArg (l.flatMap ·) (funext fun a => ?_)
  rw [filter_eq_toList_find? hon.1 (hon.2 a)]
  cases r.find? (on a) <;> rfl

/-- A join on the key of a table, with further conditions on the row that it finds. -/
theorem isLookup_key {key : β → κ} (t : KeyedTable key) (wanted : α → Option κ)
    (hon : ∀ a b, on a b = true → some (key b) = wanted a) : IsLookup on t.rows := by
  refine ⟨List.Nodup.of_map _ t.unique, fun a b hb b' hb' h h' => ?_⟩
  exact t.eq_of_key hb hb' (Option.some.inj ((hon a b h).trans (hon a b' h').symm))

end

/-! ### Order -/

section

variable [LinearOrder κ]

/-- `ORDER BY rank`. -/
def orderedBy (rank : α → κ) (rows : List α) : List α :=
  rows.insertionSort fun a b => rank a ≤ rank b

theorem orderedBy_perm (rank : α → κ) (rows : List α) : (orderedBy rank rows).Perm rows :=
  List.perm_insertionSort _ _

end

end DrepTalk
