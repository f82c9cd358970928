import Mathlib.Order.Lattice
import Mathlib.Order.Interval.Set.Defs

/-!
# Claims on a cursor

Workers share one cursor per key and deliver what lies behind it. A worker claims the work from
the cursor it has read up to a later point by moving the cursor there, if it is still where it
was, and may later move it back, if it is still where the claim left it.

**Why two claims never overlap** (`Behind.apart`, `Behind.le_of_back`). A claim that stands is
*behind* the cursor. Hence a new claim begins where the old ones end. And a claim that finds the
cursor at its own end, so that it can be handed back, lies beyond all others: they stay behind
the point to which the cursor returns.
-/

namespace DrepTalk

/-- The work of a key from the cursor a worker expected to the point it moved it to. -/
structure CursorClaim (κ α : Type*) where
  key : κ
  expected : α
  claimed : α

namespace CursorClaim

variable {κ α : Type*} [LinearOrder α] {x y : CursorClaim κ α}

/-- What the claim is on: after the cursor that was expected, up to the new one. -/
def span (x : CursorClaim κ α) : Set α := Set.Ioc x.expected x.claimed

/-- One of two claims on a key ends before the other begins. -/
def Apart (x y : CursorClaim κ α) : Prop :=
  x.key = y.key → x.claimed ≤ y.expected ∨ y.claimed ≤ x.expected

/-- A claim on some work, which the cursor, wherever it is, has passed. -/
structure Behind (At : κ → α → Prop) (x : CursorClaim κ α) : Prop where
  forward : x.expected < x.claimed
  passed : ∀ cursor, At x.key cursor → x.claimed ≤ cursor

theorem Apart.symm (h : x.Apart y) : y.Apart x := fun hkey => (h hkey.symm).symm

/-- Claims that are apart have no work in common. -/
theorem Apart.notMem_span (h : x.Apart y) (hkey : x.key = y.key) {t : α} (ht : t ∈ x.span) :
    t ∉ y.span := by
  rintro ⟨hafter, hbefore⟩
  rcases h hkey with hle | hle
  · exact absurd hafter (not_lt.mpr (ht.2.trans hle))
  · exact absurd ht.1 (not_lt.mpr (hbefore.trans hle))

variable {At At' : κ → α → Prop}

/-- A new claim begins at the cursor, and what stands ends there. -/
theorem Behind.apart (h : y.Behind At) (hat : At x.key x.expected) : x.Apart y := by
  intro hkey
  right
  exact h.passed _ (hkey ▸ hat)

/-- A claim that is handed back leaves the others behind the cursor. -/
theorem Behind.le_of_back (h : x.Behind At) (hapart : x.Apart y) (hkey : x.key = y.key)
    (hat : At y.key y.claimed) : x.claimed ≤ y.expected := by
  rcases hapart hkey with hle | hle
  · exact hle
  · -- otherwise it would begin where the cursor is, which it has not passed
    have hpassed : x.claimed ≤ y.claimed := h.passed _ (hkey.symm ▸ hat)
    exact absurd (hpassed.trans hle) (not_le.mpr h.forward)

/-- Cursors that only move on, or are new beyond the claim, leave it behind. -/
theorem Behind.mono (h : x.Behind At)
    (hmove : ∀ cursor, At' x.key cursor → x.claimed ≤ cursor ∨ ∃ old ≤ cursor, At x.key old) :
    x.Behind At' := by
  refine ⟨h.forward, fun cursor hcursor => ?_⟩
  rcases hmove cursor hcursor with hle | ⟨old, hle, hold⟩
  · exact hle
  · exact (h.passed old hold).trans hle

end CursorClaim

/-- Where no two members of a list share a property, at most one has it. -/
theorem countP_le_one {β : Type*} {p : β → Bool} {l : List β}
    (h : l.Pairwise fun x y => p x = true → p y = true → False) : l.countP p ≤ 1 := by
  induction l with
  | nil => exact Nat.zero_le 1
  | cons x l ih =>
    obtain ⟨hx, hl⟩ := List.pairwise_cons.mp h
    rw [List.countP_cons]
    split_ifs with hp
    · have hnone : l.countP p = 0 := List.countP_eq_zero.mpr fun y hy hpy => hx y hy hp hpy
      omega
    · exact ih hl

end DrepTalk
