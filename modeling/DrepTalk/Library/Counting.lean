import Mathlib.Data.List.Count
import Mathlib.Order.Nat

/-!
# Counting in lists

Comparisons of `List.countP` for two conditions: one that is strictly weaker counts more
(`countP_lt_countP`), and an alternative counts no more than its parts together (`countP_or_le`).
-/

namespace DrepTalk

variable {α : Type*} {l : List α} {p q : α → Bool}

theorem countP_lt_countP (hle : ∀ a ∈ l, p a = true → q a = true) {b : α} (hb : b ∈ l)
    (hp : p b = false) (hq : q b = true) : l.countP p < l.countP q := by
  obtain ⟨before, behind, rfl⟩ := List.append_of_mem hb
  have hbefore : before.countP p ≤ before.countP q :=
    List.countP_mono_left fun a ha => hle a (List.mem_append_left _ ha)
  have hbehind : behind.countP p ≤ behind.countP q :=
    List.countP_mono_left fun a ha => hle a (List.mem_append_right _ (List.mem_cons_of_mem _ ha))
  simp only [List.countP_append, List.countP_cons, hp, hq, if_true, Bool.false_eq_true, if_false]
  omega

theorem countP_or_le (p q : α → Bool) (l : List α) :
    l.countP (fun a => p a || q a) ≤ l.countP p + l.countP q := by
  induction l with
  | nil => exact Nat.zero_le _
  | cons a rest ih =>
    rw [List.countP_cons, List.countP_cons, List.countP_cons]
    cases p a <;> cases q a <;> simp <;> omega

end DrepTalk
