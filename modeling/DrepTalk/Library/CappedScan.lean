import Mathlib.Data.List.Sort

/-!
# Picking by rank, under caps

A list in rank order is scanned once. An item is picked unless as many of its kind have been as may
be, and the scan stops with the item that makes the total. So the picks are the greedy ones: what is
left out has enough of its kind before it, or a full set (`leftOut_scan`).

The total is compared once an item is picked: one is picked even where none may be.
-/

namespace DrepTalk.CappedScan

variable {α κ : Type*} [DecidableEq κ] (kind : α → κ) (perKind total : ℕ)

/-- How many of a kind there are. -/
def ofKind (k : κ) (l : List α) : ℕ := l.countP fun b => decide (kind b = k)

/-- What is picked, after what has been. -/
def scan : List α → List α → List α
  | [], picked => picked
  | a :: rest, picked =>
    if perKind ≤ ofKind kind (kind a) picked then scan rest picked
    else if total ≤ picked.length + 1 then picked ++ [a]
    else scan rest (picked ++ [a])

variable {kind perKind total} {rest picked : List α}

theorem ofKind_concat (k : κ) (l : List α) (a : α) :
    ofKind kind k (l ++ [a]) = ofKind kind k l + if kind a = k then 1 else 0 := by
  simp [ofKind, List.countP_append, List.countP_singleton]

/-- What has been picked stays, and more of the list may follow it, in its order. -/
theorem scan_eq_append (kind : α → κ) (perKind total : ℕ) (rest picked : List α) :
    ∃ more, more.Sublist rest ∧ scan kind perKind total rest picked = picked ++ more := by
  induction rest generalizing picked with
  | nil => exact ⟨[], .slnil, (List.append_nil picked).symm⟩
  | cons a rest ih =>
    rw [scan]
    split_ifs with hcapped hfull
    · obtain ⟨more, hsub, heq⟩ := ih picked
      exact ⟨more, hsub.cons a, heq⟩
    · exact ⟨[a], (List.nil_sublist rest).cons_cons a, rfl⟩
    · obtain ⟨more, hsub, heq⟩ := ih (picked ++ [a])
      exact ⟨a :: more, hsub.cons_cons a, by rw [heq, List.append_assoc]; rfl⟩

theorem scan_sublist (rest : List α) : (scan kind perKind total rest []).Sublist rest := by
  obtain ⟨more, hsub, heq⟩ := scan_eq_append kind perKind total rest []
  rwa [heq]

/-- Where a kind has room, one more of it may be picked. -/
theorem ofKind_concat_le (hpicked : ∀ k, ofKind kind k picked ≤ perKind) {a : α}
    (hroom : ofKind kind (kind a) picked < perKind) (k : κ) :
    ofKind kind k (picked ++ [a]) ≤ perKind := by
  rw [ofKind_concat]
  split_ifs with hkind
  · subst hkind
    exact hroom
  · exact hpicked k

/-- No kind has more than its cap. -/
theorem ofKind_scan_le (hpicked : ∀ k, ofKind kind k picked ≤ perKind) (k : κ) :
    ofKind kind k (scan kind perKind total rest picked) ≤ perKind := by
  induction rest generalizing picked with
  | nil => exact hpicked k
  | cons a rest ih =>
    rw [scan]
    split_ifs with hcapped hfull
    · exact ih hpicked
    · exact ofKind_concat_le hpicked (not_le.mp hcapped) k
    · exact ih (ofKind_concat_le hpicked (not_le.mp hcapped))

/-- There are no more than the total, if there is room for one. -/
theorem length_scan_le (hpicked : picked.length < total) :
    (scan kind perKind total rest picked).length ≤ total := by
  induction rest generalizing picked with
  | nil => exact hpicked.le
  | cons a rest ih =>
    rw [scan]
    split_ifs with hcapped hfull
    · exact ih hpicked
    · rw [List.length_append, List.length_singleton]
      exact hpicked
    · exact ih (by rw [List.length_append, List.length_singleton]; exact not_le.mp hfull)

/-- An item that is left out has as many of its kind before it as may be picked, or all that may be
picked. -/
def Outranked (kind : α → κ) (perKind total : ℕ) (before : α → α → Prop) (picks : List α)
    (a : α) : Prop :=
  (∃ others : List α, others.Sublist picks ∧ perKind ≤ others.length ∧
    ∀ b ∈ others, kind b = kind a ∧ before b a) ∨
      total ≤ picks.length ∧ ∀ b ∈ picks, before b a

/-- **The picks are the greedy ones.** -/
theorem leftOut_scan {before : α → α → Prop} (hsorted : (picked ++ rest).Pairwise before) {a : α}
    (ha : a ∈ rest) (hout : a ∉ scan kind perKind total rest picked) :
    Outranked kind perKind total before (scan kind perKind total rest picked) a := by
  induction rest generalizing picked with
  | nil => cases ha
  | cons x rest ih =>
    have hbefore : ∀ b ∈ picked, ∀ c ∈ x :: rest, before b c := (List.pairwise_append.mp hsorted).2.2
    have hnext : ((picked ++ [x]) ++ rest).Pairwise before := by
      rwa [List.append_assoc, List.singleton_append]
    rw [scan] at hout ⊢
    split_ifs at hout ⊢ with hcapped hfull
    · have hskip : (picked ++ rest).Pairwise before :=
        hsorted.sublist ((List.sublist_cons_self x rest).append_left picked)
      rcases List.mem_cons.mp ha with rfl | ha
      · -- enough of its kind have been picked
        obtain ⟨more, -, heq⟩ := scan_eq_append kind perKind total rest picked
        refine .inl ⟨picked.filter fun b => decide (kind b = kind a), ?_, ?_, fun b hb => ?_⟩
        · rw [heq]
          exact List.filter_sublist.trans (List.sublist_append_left picked more)
        · rwa [ofKind, List.countP_eq_length_filter] at hcapped
        · obtain ⟨hb, hkind⟩ := List.mem_filter.mp hb
          exact ⟨of_decide_eq_true hkind, hbefore b hb a List.mem_cons_self⟩
      · exact ih hskip ha hout
    · -- the set is full, and the rest comes after it
      refine .inr ⟨by rwa [List.length_append, List.length_singleton], fun b hb => ?_⟩
      have ha : a ∈ rest := by
        rcases List.mem_cons.mp ha with rfl | ha
        · exact absurd (List.mem_append_right _ (List.mem_singleton_self a)) hout
        · exact ha
      exact (List.pairwise_append.mp hnext).2.2 b hb a ha
    · rcases List.mem_cons.mp ha with rfl | ha
      · obtain ⟨more, -, heq⟩ := scan_eq_append kind perKind total rest (picked ++ [a])
        refine absurd ?_ hout
        rw [heq]
        exact List.mem_append_left _ (List.mem_append_right _ (List.mem_singleton_self a))
      · exact ih hnext ha hout

end DrepTalk.CappedScan
