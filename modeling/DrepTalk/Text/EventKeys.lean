import Mathlib.Data.String.Basic

/-!
# Texts with colons

Event keys are words with colons between them. Where a word has no colon of its own it can be told
from the key, from either end.
-/

namespace DrepTalk

variable {α : Type*} {c : α} {x y u v : List α}

theorem eq_of_lastOccurrence (h : x ++ c :: u = y ++ c :: v) (hu : c ∉ u) (hv : c ∉ v) :
    x = y ∧ u = v := by
  rcases List.append_eq_append_iff.mp h with ⟨z, rfl, hz⟩ | ⟨z, rfl, hz⟩ <;>
    rcases z with _ | ⟨a, z⟩ <;> simp only [List.nil_append, List.cons_append] at hz
  · exact ⟨(List.append_nil x).symm, (List.cons.inj hz).2⟩
  · exact absurd ((List.cons.inj hz).2 ▸ List.mem_append_right _ List.mem_cons_self) hu
  · exact ⟨List.append_nil y, (List.cons.inj hz).2.symm⟩
  · exact absurd ((List.cons.inj hz).2 ▸ List.mem_append_right _ List.mem_cons_self) hv

theorem eq_of_firstOccurrence (h : x ++ c :: u = y ++ c :: v) (hx : c ∉ x) (hy : c ∉ y) :
    x = y ∧ u = v := by
  have hreverse : u.reverse ++ c :: x.reverse = v.reverse ++ c :: y.reverse := by
    simpa using congrArg List.reverse h
  obtain ⟨hu, hx⟩ := eq_of_lastOccurrence hreverse (mt List.mem_reverse.mp hx)
    (mt List.mem_reverse.mp hy)
  exact ⟨List.reverse_inj.mp hx, List.reverse_inj.mp hu⟩

/-! ### Numbers -/

theorem isDigit_of_mem_toString {n : ℕ} {d : Char} (h : d ∈ (toString n).toList) :
    d.isDigit = true := by
  rw [Nat.toString_eq_repr, Nat.toList_repr] at h
  exact Nat.isDigit_of_mem_toDigits (by decide) (by decide) h

theorem colon_notMem_nat (n : ℕ) : ':' ∉ (toString n).toList := fun h =>
  absurd (isDigit_of_mem_toString h) (by decide)

theorem toList_negSucc (n : ℕ) :
    (toString (Int.negSucc n)).toList = '-' :: (toString (n + 1)).toList := by
  have hsign : toString (Int.negSucc n) = "-" ++ toString (n + 1) := rfl
  rw [hsign, String.toList_append]
  rfl

theorem colon_notMem_int (t : ℤ) : ':' ∉ (toString t).toList := by
  rcases t with n | n
  · exact colon_notMem_nat n
  · rw [toList_negSucc, List.mem_cons, not_or]
    exact ⟨by decide, colon_notMem_nat (n + 1)⟩

theorem toString_nat_inj {m n : ℕ} (h : (toString m).toList = (toString n).toList) : m = n := by
  rw [Nat.toString_eq_repr, Nat.toString_eq_repr, Nat.toList_repr, Nat.toList_repr] at h
  simpa only [Nat.ofDigitChars_ten_toDigits] using congrArg (fun s => Nat.ofDigitChars 10 s 0) h

theorem toString_int_inj {t t' : ℤ} (h : (toString t).toList = (toString t').toList) : t = t' := by
  have hminus : ∀ n : ℕ, '-' ∉ (toString n).toList := fun n hmem =>
    absurd (isDigit_of_mem_toString hmem) (by decide)
  rcases t with m | m <;> rcases t' with n | n
  · exact congrArg Int.ofNat (toString_nat_inj h)
  · rw [toList_negSucc] at h
    exact absurd (h ▸ List.mem_cons_self) (hminus m)
  · rw [toList_negSucc] at h
    exact absurd (h ▸ List.mem_cons_self) (hminus n)
  · rw [toList_negSucc, toList_negSucc] at h
    exact congrArg Int.negSucc (Nat.succ_inj.mp (toString_nat_inj (List.cons.inj h).2))

theorem toString_text (s : String) : toString s = s := rfl

theorem toList_colon : (":" : String).toList = [':'] := rfl

end DrepTalk
