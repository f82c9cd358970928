import Mathlib.Algebra.Order.Ring.Int

/-!
# Delta logs

A log of values that change over time, by key: an entry stands where the value of its key differs
from the one before. What was in force at a time is read from the newest entry at or before it.

**Reading back** (`IsDelta.value_of_newest`). The newest entry of a key at or before a time holds
its value at that time; without an entry, the value is the blank one (`IsDelta.blank_of_none`).

**No repeats** (`IsDelta.successive_ne`). Two successive entries of a key hold different values.
-/

namespace DrepTalk

namespace DeltaLog

variable {κ ν : Type*} (blank : ν) (value : ℤ → κ → ν)

/-- The value before a time, from the first one on. -/
def prior (first t : ℤ) (k : κ) : ν := if t = first then blank else value (t - 1) k

/-- The value of the key changes at that time. -/
def Changes (first t : ℤ) (k : κ) : Prop := value t k ≠ prior blank value first t k

/-- The entries are the changes from the first time to the last. -/
structure IsDelta (first last : ℤ) (entry : κ → ℤ → ν → Prop) : Prop where
  within : ∀ k t v, entry k t v → first ≤ t ∧ t ≤ last
  true_value : ∀ k t v, entry k t v → v = value t k
  is_change : ∀ k t v, entry k t v → Changes blank value first t k
  logged : ∀ k t, first ≤ t → t ≤ last → Changes blank value first t k → entry k t (value t k)

variable {blank value} {first last t t' : ℤ} {entry entry' : κ → ℤ → ν → Prop} {k : κ} {v v' : ν}

theorem changes_of_first_lt (h : first < t) :
    Changes blank value first t k ↔ value t k ≠ value (t - 1) k := by
  rw [Changes, prior, if_neg h.ne']

theorem changes_first : Changes blank value first first k ↔ value first k ≠ blank := by
  rw [Changes, prior, if_pos rfl]

namespace IsDelta

variable (h : IsDelta blank value first last entry)
include h

/-- Between entries nothing changes. -/
theorem value_eq (hfirst : first ≤ t) (hle : t ≤ t') (hlast : t' ≤ last)
    (hnone : ∀ u v, t < u → u ≤ t' → ¬entry k u v) : value t' k = value t k := by
  induction t', hle using Int.leInduction with
  | base => rfl
  | succ n hn ih =>
    have hkept : value n k = value t k := ih (by omega) fun u v hu hun => hnone u v hu (by omega)
    by_contra hne
    refine hnone (n + 1) _ (by omega) le_rfl (h.logged k (n + 1) (by omega) hlast ?_)
    rw [changes_of_first_lt (by omega), Int.add_sub_cancel, hkept]
    exact hne

/-- **The newest entry** at or before a time holds the value at that time. -/
theorem value_of_newest (hentry : entry k t v) (hle : t ≤ t') (hlast : t' ≤ last)
    (hnewest : ∀ u v, entry k u v → u ≤ t' → u ≤ t) : value t' k = v := by
  rw [h.true_value k t v hentry]
  exact h.value_eq (h.within k t v hentry).1 hle hlast fun u v hu hut' hentry' =>
    absurd (hnewest u v hentry' hut') (by omega)

/-- Without an entry at or before a time, nothing is in force. -/
theorem blank_of_none (hfirst : first ≤ t) (hlast : t ≤ last)
    (hnone : ∀ u v, entry k u v → ¬u ≤ t) : value t k = blank := by
  have hstart : value first k = blank := by
    by_contra hne
    exact hnone first _ (h.logged k first le_rfl (hfirst.trans hlast) (changes_first.mpr hne)) hfirst
  rw [← hstart]
  exact h.value_eq le_rfl hfirst hlast fun u v _ hut hentry => hnone u v hentry hut

/-- **No repeats.** Two successive entries of a key hold different values. -/
theorem successive_ne (hentry : entry k t v) (hentry' : entry k t' v') (hlt : t < t')
    (hnone : ∀ u v, t < u → u < t' → ¬entry k u v) : v ≠ v' := by
  have hchange := h.is_change k t' v' hentry'
  have hfirst := (h.within k t v hentry).1
  rw [changes_of_first_lt (by omega)] at hchange
  have hlast := (h.within k t' v' hentry').2
  have hbefore : value (t' - 1) k = v :=
    h.value_of_newest hentry (by omega) (by omega) fun u v hu hut' => by
      by_contra hlt
      exact hnone u v (by omega) (by omega) hu
  rw [h.true_value k t' v' hentry', ← hbefore]
  exact hchange.symm

/-- Further entries that are changes, up to a later time. -/
theorem extend {last' : ℤ} (hle : t ≤ last)
    (hsub : ∀ k u v, entry k u v → entry' k u v)
    (hnew : ∀ k u v, entry' k u v → entry k u v ∨ (first ≤ u ∧ u ≤ last' ∧ v = value u k ∧
      Changes blank value first u k))
    (hall : ∀ k u, t < u → u ≤ last' → Changes blank value first u k → entry' k u (value u k)) :
    IsDelta blank value first (max last last') entry' where
  within k u v hu := by
    rcases hnew k u v hu with hold | ⟨hfirst, hlast, -⟩
    · exact ⟨(h.within k u v hold).1, (h.within k u v hold).2.trans (le_max_left _ _)⟩
    · exact ⟨hfirst, hlast.trans (le_max_right _ _)⟩
  true_value k u v hu := by
    rcases hnew k u v hu with hold | ⟨-, -, hvalue, -⟩
    · exact h.true_value k u v hold
    · exact hvalue
  is_change k u v hu := by
    rcases hnew k u v hu with hold | ⟨-, -, -, hchange⟩
    · exact h.is_change k u v hold
    · exact hchange
  logged k u hfirst hlast hchange := by
    by_cases hin : u ≤ last
    · exact hsub k u _ (h.logged k u hfirst hin hchange)
    · exact hall k u (by omega) (by omega) hchange

end IsDelta

end DeltaLog

end DrepTalk
