import Mathlib.Data.Int.Order.Basic

/-!
# A key-value store whose entries expire

Every entry is written together with the moment from which on it is gone. Time is not part of
the store: `get` is told the clock reading, so that nothing has to happen for an entry to
expire.
-/

namespace DrepTalk

/-- A stored value and the moment from which on it is gone. -/
structure StoreEntry (υ : Type*) where
  value : υ
  expires : ℤ

/-- Keys to entries. -/
structure ExpiringStore (κ υ : Type*) where
  entry : κ → Option (StoreEntry υ)

namespace ExpiringStore

variable {κ υ : Type*}

/-- Nothing stored. -/
def empty : ExpiringStore κ υ := ⟨fun _ => none⟩

/-- The value under a key, if it has not expired. -/
def get (s : ExpiringStore κ υ) (now : ℤ) (k : κ) : Option υ :=
  match s.entry k with
  | some e => if now < e.expires then some e.value else none
  | none => none

variable (s : ExpiringStore κ υ) (k : κ)

@[simp] theorem entry_empty : (empty : ExpiringStore κ υ).entry k = none := rfl

theorem get_eq_some {s : ExpiringStore κ υ} {now : ℤ} {k : κ} {v : υ} :
    s.get now k = some v ↔ ∃ expires, s.entry k = some ⟨v, expires⟩ ∧ now < expires := by
  rw [get]
  constructor
  · rcases s.entry k with _ | ⟨w, expires⟩
    · simp
    · intro h
      change (if now < expires then some w else none) = some v at h
      split_ifs at h with hlt
      exact ⟨expires, by rw [← Option.some.inj h], hlt⟩
  · rintro ⟨expires, he, hlt⟩
    rw [he]
    exact if_pos hlt

/-- Reading depends on the entry only. -/
theorem get_congr {s s' : ExpiringStore κ υ} {k : κ} (now : ℤ) (h : s.entry k = s'.entry k) :
    s.get now k = s'.get now k := by
  rw [get, get, h]

variable [DecidableEq κ]

/-- Writes a value until the given moment. -/
def put (s : ExpiringStore κ υ) (k : κ) (v : υ) (expires : ℤ) : ExpiringStore κ υ :=
  ⟨fun k' => if k' = k then some ⟨v, expires⟩ else s.entry k'⟩

/-- Removes a key. -/
def delete (s : ExpiringStore κ υ) (k : κ) : ExpiringStore κ υ :=
  ⟨fun k' => if k' = k then none else s.entry k'⟩

@[simp] theorem entry_put_self (v : υ) (expires : ℤ) :
    (s.put k v expires).entry k = some ⟨v, expires⟩ := if_pos rfl

@[simp] theorem entry_delete_self : (s.delete k).entry k = none := if_pos rfl

theorem entry_put_of_ne {s : ExpiringStore κ υ} {k k' : κ} (h : k' ≠ k) (v : υ) (expires : ℤ) :
    (s.put k v expires).entry k' = s.entry k' := if_neg h

theorem entry_delete_of_ne {s : ExpiringStore κ υ} {k k' : κ} (h : k' ≠ k) :
    (s.delete k).entry k' = s.entry k' := if_neg h

/-- Deleting only removes. -/
theorem entry_of_delete {s : ExpiringStore κ υ} {k k' : κ} {e : StoreEntry υ}
    (h : (s.delete k).entry k' = some e) : k' ≠ k ∧ s.entry k' = some e := by
  by_cases hk : k' = k
  · rw [hk, entry_delete_self] at h
    cases h
  · exact ⟨hk, by rwa [entry_delete_of_ne hk] at h⟩

/-- An entry after a write is the one just written or was there before. -/
theorem entry_of_put {s : ExpiringStore κ υ} {k k' : κ} {v : υ} {expires : ℤ} {e : StoreEntry υ}
    (h : (s.put k v expires).entry k' = some e) :
    k' = k ∧ e = ⟨v, expires⟩ ∨ k' ≠ k ∧ s.entry k' = some e := by
  by_cases hk : k' = k
  · subst hk
    rw [entry_put_self, Option.some.injEq] at h
    exact .inl ⟨rfl, h.symm⟩
  · exact .inr ⟨hk, by rwa [entry_put_of_ne hk] at h⟩

end ExpiringStore

end DrepTalk
