import Mathlib.Algebra.Field.Defs
import Mathlib.Data.Multiset.Sort

/-!
# Medians

The **median** of a multiset is the element in the middle of its sorted list, or the mean of the two
that share the middle. It is read off any sorted list (`median_coe`), and off a sorted list in
parts: a block of equal elements over the middle is the median (`middle_of_block`), and where two
parts meet in the middle it is the mean of the elements that meet (`middle_of_halves`).
-/

namespace DrepTalk

variable {α : Type*} [Field α]

/-- The middle of a list; of two elements there, the mean. -/
def middle (l : List α) : Option α :=
  if l.length % 2 = 1 then l[l.length / 2]?
  else (l[l.length / 2 - 1]?).bind fun a => (l[l.length / 2]?).map fun b => (a + b) / (2 : ℕ)

/-- Only of nothing there is no middle. -/
theorem middle_eq_none_iff {l : List α} : middle l = none ↔ l = [] := by
  refine ⟨fun h => ?_, fun h => h ▸ rfl⟩
  by_contra hne
  have hpos : 0 < l.length := List.length_pos_of_ne_nil hne
  rw [middle] at h
  split_ifs at h with hodd
  · rw [List.getElem?_eq_none_iff] at h
    omega
  · rw [List.getElem?_eq_getElem (by omega), List.getElem?_eq_getElem (by omega)] at h
    cases h

/-- Where both middle positions hold the same element. -/
theorem middle_of_getElem? [NeZero (2 : α)] {l : List α} {a : α}
    (hupper : l[l.length / 2]? = some a) (hlower : l[(l.length - 1) / 2]? = some a) :
    middle l = some a := by
  rw [middle]
  split_ifs with hodd
  · exact hupper
  · have hlast : (l.length - 1) / 2 = l.length / 2 - 1 := by omega
    rw [hlast] at hlower
    rw [hlower, hupper, Option.bind_some, Option.map_some, Nat.cast_ofNat, ← two_mul,
      mul_div_cancel_left₀ _ (NeZero.ne (2 : α))]

/-- A block of equal elements over the middle. -/
theorem middle_of_block [NeZero (2 : α)] {front back : List α} {a : α} {k n : ℕ}
    (hlength : front.length + k + back.length = n) (hfront : 2 * front.length < n)
    (hback : n < 2 * (front.length + k)) :
    middle (front ++ List.replicate k a ++ back) = some a := by
  have hin : ∀ i, front.length ≤ i → i < front.length + k →
      (front ++ List.replicate k a ++ back)[i]? = some a := by
    intro i hlow hhigh
    rw [List.getElem?_append_left (by rw [List.length_append, List.length_replicate]; exact hhigh),
      List.getElem?_append_right hlow, List.getElem?_replicate, if_pos (by omega)]
  have htotal : (front ++ List.replicate k a ++ back).length = n := by
    rw [List.length_append, List.length_append, List.length_replicate, hlength]
  refine middle_of_getElem? ?_ ?_
  · rw [htotal]
    exact hin _ (by omega) (by omega)
  · rw [htotal]
    exact hin _ (by omega) (by omega)

/-- Two halves of one length. -/
theorem middle_of_halves {front back : List α} {a b : α}
    (hlength : (front ++ [a]).length = (b :: back).length) :
    middle (front ++ [a] ++ b :: back) = some ((a + b) / 2) := by
  have hback : back.length = front.length := by simpa using hlength.symm
  have htotal : (front ++ [a] ++ b :: back).length = 2 * (front.length + 1) := by
    rw [List.length_append, ← hlength, List.length_append, List.length_singleton, Nat.two_mul]
  have heven : ¬(front ++ [a] ++ b :: back).length % 2 = 1 := by
    rw [htotal]
    omega
  have hhalf : (front ++ [a] ++ b :: back).length / 2 = front.length + 1 := by
    rw [htotal]
    omega
  have hlower : (front ++ [a] ++ b :: back)[front.length]? = some a := by simp
  have hupper : (front ++ [a] ++ b :: back)[front.length + 1]? = some b := by simp
  rw [middle, if_neg heven, hhalf, Nat.add_sub_cancel, hlower, hupper, Option.bind_some,
    Option.map_some, Nat.cast_ofNat]

variable [LinearOrder α]

/-- The ordinary median. -/
def median (s : Multiset α) : Option α := middle (s.sort (· ≤ ·))

theorem median_coe {l : List α} (hl : l.Pairwise (· ≤ ·)) : median (l : Multiset α) = middle l := by
  rw [median, Multiset.coe_sort, List.mergeSort_eq_self _ hl]

end DrepTalk
