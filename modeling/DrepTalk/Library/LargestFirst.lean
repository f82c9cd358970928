import Mathlib.Data.List.Sort
import Mathlib.Algebra.Order.BigOperators.Group.List
import Mathlib.Order.Bounds.Basic

/-!
# Largest amounts first

Items with amounts in an ordered monoid, the largest first. The first so many of them have at least
the amount of any other choice of as many (`sum_le_sum_take`), and so, where no amount is negative,
the shortest initial segment that reaches a target has the fewest items of all choices that reach it
(`length_le_of_reaches`). More generally, where more is never worse, the first initial segment that
is enough has as many items as it takes (`isLeast_sizes`).
-/

namespace DrepTalk.LargestFirst

variable {α M : Type*} [AddCommMonoid M] {amount : α → M} {l s : List α} {target : M}

/-- What the items amount to. -/
def total (amount : α → M) (l : List α) : M := (l.map amount).sum

theorem total_perm {l l' : List α} (h : l.Perm l') : total amount l = total amount l' :=
  (h.map amount).sum_eq

/-- The sizes of the choices that amount to enough. -/
def sizes (amount : α → M) (l : List α) (enough : M → Prop) : Set ℕ :=
  {k | ∃ s : List α, s.Subperm l ∧ s.length = k ∧ enough (total amount s)}

theorem sizes_perm {l l' : List α} {enough : M → Prop} (h : l.Perm l') :
    sizes amount l enough = sizes amount l' enough := by
  ext k
  exact exists_congr fun s => and_congr_left' h.subperm_left

/-- The least of a set, if it has any. -/
def IsMinimum (S : Set ℕ) : Option ℕ → Prop
  | none => S = ∅
  | some n => IsLeast S n

/-- What choices of so many items amount to. -/
def totals (amount : α → M) (l : List α) (n : ℕ) : Set M :=
  {sum | ∃ s : List α, s.Subperm l ∧ s.length = n ∧ total amount s = sum}

variable {n : ℕ}

theorem totals_perm {l l' : List α} (h : l.Perm l') : totals amount l n = totals amount l' n := by
  ext sum
  exact exists_congr fun s => and_congr_left' h.subperm_left

variable [LinearOrder M] [IsOrderedAddMonoid M]

/-- The next item is no larger than one before it. -/
theorem total_take_le_cons {a : α} (ha : ∀ b ∈ l, amount b ≤ amount a) (hn : n ≤ l.length) :
    total amount (l.take n) ≤ total amount ((a :: l).take n) := by
  rcases n with _ | n
  · exact le_rfl
  · have hlast : l.take (n + 1) = l.take n ++ [l[n]] := (List.take_concat_get' l n hn).symm
    rw [hlast, total, List.map_append, List.sum_append, List.take_succ_cons, total, List.map_cons,
      List.sum_cons, add_comm]
    exact add_le_add_left (by simpa using ha _ (List.getElem_mem hn)) _

/-- No choice of so many items has more than the first so many. -/
theorem total_le_of_sublist (hl : l.Pairwise fun a b => amount b ≤ amount a) (hs : s.Sublist l) :
    total amount s ≤ total amount (l.take s.length) := by
  induction hs with
  | slnil => exact le_rfl
  | @cons s l a hs ih =>
    obtain ⟨ha, hl⟩ := List.pairwise_cons.mp hl
    exact (ih hl).trans (total_take_le_cons ha hs.length_le)
  | @cons_cons s l a hs ih =>
    obtain ⟨-, hl⟩ := List.pairwise_cons.mp hl
    simp only [total, List.length_cons, List.take_succ_cons, List.map_cons, List.sum_cons]
    exact add_le_add_right (ih hl) _

theorem sum_le_sum_take (hl : l.Pairwise fun a b => amount b ≤ amount a) (hs : s.Subperm l) :
    total amount s ≤ total amount (l.take s.length) := by
  obtain ⟨s', hperm, hsub⟩ := hs
  rw [← total_perm hperm, ← hperm.length_eq]
  exact total_le_of_sublist hl hsub

theorem isGreatest_totals (hl : l.Pairwise fun a b => amount b ≤ amount a) (hn : n ≤ l.length) :
    IsGreatest (totals amount l n) (total amount (l.take n)) := by
  refine ⟨⟨l.take n, (List.take_sublist n l).subperm, List.length_take_of_le hn, rfl⟩, ?_⟩
  rintro sum ⟨s, hs, rfl, rfl⟩
  exact sum_le_sum_take hl hs

theorem isLeast_sizes {enough : M → Prop} (hl : l.Pairwise fun a b => amount b ≤ amount a)
    (hup : ∀ a b, a ≤ b → enough a → enough b) (hn : n ≤ l.length)
    (henough : enough (total amount (l.take n)))
    (hshort : ∀ m < n, ¬enough (total amount (l.take m))) : IsLeast (sizes amount l enough) n := by
  refine ⟨⟨l.take n, (List.take_sublist n l).subperm, List.length_take_of_le hn, henough⟩, ?_⟩
  rintro k ⟨s, hs, rfl, hsum⟩
  by_contra hlt
  exact hshort _ (not_le.mp hlt) (hup _ _ (sum_le_sum_take hl hs) hsum)

/-- More of the items amount to more. -/
theorem total_le_of_subperm (hnonneg : ∀ a ∈ l, 0 ≤ amount a) (hs : s.Subperm l) :
    total amount s ≤ total amount l := by
  obtain ⟨s', hperm, hsub⟩ := hs
  rw [← total_perm hperm]
  refine (hsub.map amount).sum_le_sum fun x hx => ?_
  obtain ⟨a, ha, rfl⟩ := List.mem_map.mp hx
  exact hnonneg a ha

theorem total_take_mono (hnonneg : ∀ a ∈ l, 0 ≤ amount a) {m : ℕ} (h : m ≤ n) :
    total amount (l.take m) ≤ total amount (l.take n) :=
  total_le_of_subperm (fun a ha => hnonneg a (List.mem_of_mem_take ha))
    (List.take_prefix_take_left h).sublist.subperm

/-- Where the first `n` items do not reach the target, a choice that reaches it has more. -/
theorem length_le_of_reaches (hl : l.Pairwise fun a b => amount b ≤ amount a)
    (hnonneg : ∀ a ∈ l, 0 ≤ amount a) (hshort : total amount (l.take n) < target) (hs : s.Subperm l)
    (hreaches : target ≤ total amount s) : n < s.length := by
  by_contra hle
  have hmono : total amount (l.take s.length) ≤ total amount (l.take n) :=
    total_take_mono hnonneg (not_lt.mp hle)
  exact absurd ((hreaches.trans (sum_le_sum_take hl hs)).trans hmono) (not_le.mpr hshort)

end DrepTalk.LargestFirst
