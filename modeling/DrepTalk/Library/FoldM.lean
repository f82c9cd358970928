import Mathlib.Data.List.Basic

/-!
# Folds that may fail

`List.foldlM` in `Option` and `Except`. A fold that returns has been through every element with
success (`foldlM_ok`): what each step keeps of the accumulator holds at the end, and what a
successful step says of its element holds of all of them. Folding over parts, one after the
other, is folding over the whole (`foldlM_flatten`).
-/

namespace DrepTalk

variable {α β ε : Type*}

@[simp] theorem ok_bind {β : Type _} (a : α) (f : α → Except ε β) :
    (Except.ok a >>= f) = f a := rfl

/-- A fold that returns: what its steps keep, and what they say of the elements. -/
theorem foldlM_ok {f : β → α → Except ε β} {P : β → Prop} {Q : α → Prop} {l : List α}
    (hstep : ∀ a ∈ l, ∀ b b', P b → f b a = .ok b' → P b' ∧ Q a) {b b' : β} (hb : P b)
    (h : l.foldlM f b = .ok b') : P b' ∧ ∀ a ∈ l, Q a := by
  induction l generalizing b with
  | nil =>
    obtain rfl : b = b' := Except.ok.inj h
    exact ⟨hb, nofun⟩
  | cons a l ih =>
    rw [List.foldlM_cons] at h
    rcases hrun : f b a with err | b₁
    · rw [hrun] at h
      cases h
    · rw [hrun] at h
      obtain ⟨hb₁, ha⟩ := hstep a List.mem_cons_self b b₁ hb hrun
      have hrest := ih (fun c hc => hstep c (List.mem_cons_of_mem a hc)) hb₁ h
      exact ⟨hrest.1, List.forall_mem_cons.mpr ⟨ha, hrest.2⟩⟩

/-- A loop that throws nothing went through every element. -/
theorem forM_ok {f : α → Except ε PUnit} {l : List α} (h : l.forM f = .ok ⟨⟩) :
    ∀ a ∈ l, f a = .ok ⟨⟩ := by
  induction l with
  | nil => exact nofun
  | cons b rest ih =>
    rcases hb : f b with error | ⟨⟩
    · rw [List.forM, hb] at h
      cases h
    · rw [List.forM, hb] at h
      exact List.forall_mem_cons.mpr ⟨hb, ih h⟩

/-- ... and what its steps keep, in `Option`. -/
theorem foldlM_some {f : β → α → Option β} {P : β → Prop} {l : List α}
    (hstep : ∀ a ∈ l, ∀ b b', P b → f b a = some b' → P b') {b b' : β} (hb : P b)
    (h : l.foldlM f b = some b') : P b' := by
  induction l generalizing b with
  | nil =>
    obtain rfl : b = b' := Option.some.inj h
    exact hb
  | cons a l ih =>
    rw [List.foldlM_cons] at h
    obtain ⟨b₁, hrun, hrest⟩ := Option.bind_eq_some_iff.mp h
    exact ih (fun c hc => hstep c (List.mem_cons_of_mem a hc))
      (hstep a List.mem_cons_self b b₁ hb hrun) hrest

/-- Folding over slices one after the other is folding over the list. -/
theorem foldlM_flatten (f : β → α → Option β) (b : β) (slices : List (List α)) :
    slices.foldlM (fun b slice => slice.foldlM f b) b = slices.flatten.foldlM f b := by
  induction slices generalizing b with
  | nil => rfl
  | cons slice slices ih =>
    rw [List.foldlM_cons, List.flatten_cons, List.foldlM_append]
    simp only [ih]

end DrepTalk
