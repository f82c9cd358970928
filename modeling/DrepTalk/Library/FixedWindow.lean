import DrepTalk.Library.Counting
import Mathlib.Algebra.Order.Group.Defs
import Mathlib.Data.Finset.Max

/-!
# Counting in fixed windows

Events are counted in windows of one width, the next of which opens once the last has passed, and
each takes up to some number of events (`Windowed`). Then that number also bounds the events in the
time of a window (`Windowed.length_window_le`), and twice that number the events in **any** span of
that width, since no span reaches into three windows (`Windowed.length_span_le`).
-/

namespace DrepTalk

/-- An event in the window that opened at `window`. -/
structure Stamp (α : Type*) where
  window : α
  time : α
  deriving DecidableEq

variable {α : Type*} [AddCommGroup α] [LinearOrder α] [IsOrderedAddMonoid α]

/-- Windows lie apart, and each has its events inside, and up to `max` of them. -/
structure Windowed (width : α) (max : ℕ) (stamps : List (Stamp α)) : Prop where
  inside : ∀ a ∈ stamps, a.window ≤ a.time ∧ a.time < a.window + width
  apart : ∀ a ∈ stamps, ∀ b ∈ stamps, a.window < b.window → a.window + width ≤ b.window
  few : ∀ w, stamps.countP (fun a => a.window = w) ≤ max

variable {width : α} {max : ℕ} {stamps : List (Stamp α)}

omit [IsOrderedAddMonoid α] in
theorem Windowed.nil (width : α) (max : ℕ) : Windowed width max ([] : List (Stamp α)) where
  inside _ ha := absurd ha List.not_mem_nil
  apart _ ha := absurd ha List.not_mem_nil
  few _ := Nat.zero_le _

/-- One more event, in the last window or in one behind it. -/
theorem Windowed.concat (h : Windowed width max stamps) {s : Stamp α}
    (hinside : s.window ≤ s.time ∧ s.time < s.window + width)
    (hlatest : ∀ a ∈ stamps, a.window = s.window ∨ a.window + width ≤ s.window)
    (hfew : stamps.countP (fun a => a.window = s.window) < max) (hwidth : 0 < width) :
    Windowed width max (stamps ++ [s]) := by
  refine ⟨fun a ha => ?_, fun a ha b hb hlt => ?_, fun w => ?_⟩
  · rcases List.mem_append.mp ha with ha | ha
    · exact h.inside a ha
    · obtain rfl := List.mem_singleton.mp ha
      exact hinside
  · rcases List.mem_append.mp ha with ha | ha
    · rcases List.mem_append.mp hb with hb | hb
      · exact h.apart a ha b hb hlt
      · obtain rfl := List.mem_singleton.mp hb
        exact (hlatest a ‹_›).resolve_left hlt.ne
    · obtain rfl := List.mem_singleton.mp ha
      rcases List.mem_append.mp hb with hb | hb
      · rcases hlatest b ‹_› with heq | hle
        · exact absurd hlt (heq ▸ lt_irrefl _)
        · exact absurd (hlt.trans_le (le_add_of_nonneg_right hwidth.le)) (not_lt.mpr hle)
      · obtain rfl := List.mem_singleton.mp hb
        exact absurd hlt (lt_irrefl _)
  · rw [List.countP_append]
    by_cases hw : s.window = w
    · rw [List.countP_cons_of_pos (by simpa using hw), List.countP_nil, ← hw]
      exact hfew
    · rw [List.countP_cons_of_neg (by simpa using hw), List.countP_nil]
      exact h.few w

omit [IsOrderedAddMonoid α] in
/-- **In the time of a window** lie only its own events. -/
theorem Windowed.countP_window_le (h : Windowed width max stamps) {a : Stamp α} (ha : a ∈ stamps) :
    stamps.countP (fun b => a.window ≤ b.time ∧ b.time < a.window + width) ≤ max := by
  refine (List.countP_mono_left fun b hb hin => ?_).trans (h.few a.window)
  rw [decide_eq_true_eq] at hin ⊢
  obtain ⟨hlow, hhigh⟩ := hin
  obtain ⟨hlow', hhigh'⟩ := h.inside b hb
  rcases lt_trichotomy b.window a.window with hlt | heq | hgt
  · exact absurd ((h.apart b hb a ha hlt).trans hlow) (not_le.mpr hhigh')
  · exact heq
  · exact absurd ((h.apart a ha b hb hgt).trans hlow') (not_le.mpr hhigh)

/-- Of events that lie within one width, those in the middle are in the first window or in the
last. -/
theorem Windowed.window_eq (h : Windowed width max stamps) {a b c : Stamp α} (ha : a ∈ stamps)
    (hb : b ∈ stamps) (hc : c ∈ stamps) (hab : a.window ≤ b.window) (hbc : b.window ≤ c.window)
    (hspan : c.time ≤ a.time + width) : b.window = a.window ∨ b.window = c.window := by
  by_contra hneither
  rw [not_or] at hneither
  have hfirst := h.apart a ha b hb (lt_of_le_of_ne hab (Ne.symm hneither.1))
  have hsecond := h.apart b hb c hc (lt_of_le_of_ne hbc hneither.2)
  have hlate : b.window + width ≤ a.time + width :=
    hsecond.trans ((h.inside c hc).1.trans hspan)
  have hearly : a.time < b.window := (h.inside a ha).2.trans_le hfirst
  exact absurd (le_of_add_le_add_right hlate) (not_le.mpr hearly)

/-- **No span of one width** reaches into three windows. -/
theorem Windowed.countP_span_le (h : Windowed width max stamps) (t : α) :
    stamps.countP (fun a => t ≤ a.time ∧ a.time ≤ t + width) ≤ 2 * max := by
  classical
  by_cases hnone : (stamps.filter fun a => t ≤ a.time ∧ a.time ≤ t + width) = []
  · rw [List.countP_eq_length_filter, hnone]
    exact Nat.zero_le _
  · have hne := List.toFinset_nonempty_iff _ |>.mpr hnone
    obtain ⟨a, ha, hfirst⟩ := Finset.exists_min_image _ Stamp.window hne
    obtain ⟨c, hc, hlast⟩ := Finset.exists_max_image _ Stamp.window hne
    simp only [List.mem_toFinset, List.mem_filter, decide_eq_true_eq] at ha hc hfirst hlast
    have hspan : c.time ≤ a.time + width := hc.2.2.trans (add_le_add_left ha.2.1 width)
    have htwo : stamps.countP (fun b => t ≤ b.time ∧ b.time ≤ t + width) ≤
        stamps.countP fun b => b.window = a.window ∨ b.window = c.window := by
      refine List.countP_mono_left fun b hb hin => ?_
      rw [decide_eq_true_eq] at hin ⊢
      exact h.window_eq ha.1 hb hc.1 (hfirst b ⟨hb, hin⟩) (hlast b ⟨hb, hin⟩) hspan
    have hsum : stamps.countP (fun b => b.window = a.window ∨ b.window = c.window) ≤
        stamps.countP (fun b => b.window = a.window) +
          stamps.countP fun b => b.window = c.window := by
      simp only [Bool.decide_or]
      exact countP_or_le _ _ _
    have hlow := h.few a.window
    have hhigh := h.few c.window
    omega

end DrepTalk
