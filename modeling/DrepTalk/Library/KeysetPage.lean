import Mathlib.Data.List.Sort

/-!
# Pages of a list

**Keyset pages.** `pageAfter cursor n keys` is what a query reads that asks for the first `n`
keys behind a cursor in their order. A page that is not full holds every key behind the cursor
(`mem_pageAfter_of_short`); a full one holds every key up to its last one
(`mem_pageAfter_of_le_last`), so that the last key can serve as the next cursor. Of rows with
increasing keys, what is behind that key is what the page has left (`filter_behind_take`).

**Slices.** A list cut into slices of `k` and joined again (`flatten_slices`).
-/

namespace DrepTalk

section Keyset

variable {κ : Type*} [LinearOrder κ] {cursor k last : κ} {n : ℕ} {keys : List κ}

/-- The keys behind the cursor, in order. -/
def keysAfter (cursor : κ) (keys : List κ) : List κ :=
  (keys.filter fun k => decide (cursor < k)).insertionSort (· ≤ ·)

/-- The first `n` keys behind the cursor. -/
def pageAfter (cursor : κ) (n : ℕ) (keys : List κ) : List κ := (keysAfter cursor keys).take n

theorem pairwise_keysAfter (cursor : κ) (keys : List κ) :
    (keysAfter cursor keys).Pairwise (· ≤ ·) :=
  List.pairwise_insertionSort (· ≤ ·) _

theorem mem_keysAfter : k ∈ keysAfter cursor keys ↔ k ∈ keys ∧ cursor < k := by
  rw [keysAfter, List.mem_insertionSort, List.mem_filter, decide_eq_true_eq]

/-- A page that is not full is the last one. -/
theorem mem_pageAfter_of_short (hshort : (pageAfter cursor n keys).length < n) (hk : k ∈ keys)
    (hcursor : cursor < k) : k ∈ pageAfter cursor n keys := by
  have hmem := mem_keysAfter.mpr ⟨hk, hcursor⟩
  rw [pageAfter, List.length_take] at hshort
  rwa [pageAfter, List.take_of_length_le (by omega)]

/-- A page skips no key on the way to its last one. -/
theorem mem_pageAfter_of_le_last (hlast : (pageAfter cursor n keys).getLast? = some last)
    (hk : k ∈ keys) (hcursor : cursor < k) (hle : k ≤ last) : k ∈ pageAfter cursor n keys := by
  have hsorted := pairwise_keysAfter cursor keys
  have hmem := mem_keysAfter.mpr ⟨hk, hcursor⟩
  rw [← List.take_append_drop n (keysAfter cursor keys)] at hsorted hmem
  rcases List.mem_append.mp hmem with hmem | hmem
  · exact hmem
  · -- a key behind the page is not smaller than its last one, so it is that one
    have hlast' := List.mem_of_getLast? hlast
    have hge := (List.pairwise_append.mp hsorted).2.2 last hlast' k hmem
    exact le_antisymm hle hge ▸ hlast'

end Keyset

/-- In a list with increasing keys, what is behind the last element of the first `n` is what
follows them. -/
theorem filter_behind_take {α κ : Type*} [LinearOrder κ] {f : α → κ} {l : List α} {n : ℕ}
    {last : α} (hl : l.Pairwise fun a b => f a < f b)
    (hlast : (l.take n).getLast? = some last) :
    (l.filter fun a => decide (f last < f a)) = l.drop n := by
  rw [← List.take_append_drop n l] at hl
  obtain ⟨hfront, -, hcross⟩ := List.pairwise_append.mp hl
  have hbehind : ∀ a ∈ l.drop n, f last < f a := fun a ha =>
    hcross last (List.mem_of_getLast? hlast) a ha
  have hfront' : ∀ a ∈ l.take n, ¬f last < f a := by
    intro a ha
    obtain ⟨front, hsplit⟩ := List.getLast?_eq_some_iff.mp hlast
    rw [hsplit] at ha hfront
    rcases List.mem_append.mp ha with ha | ha
    · exact ((List.pairwise_append.mp hfront).2.2 a ha last List.mem_cons_self).not_gt
    · exact List.mem_singleton.mp ha ▸ lt_irrefl _
  conv_lhs => rw [← List.take_append_drop n l]
  rw [List.filter_append, List.filter_eq_nil_iff.mpr (by simpa using hfront'),
    List.filter_eq_self.mpr (by simpa using hbehind), List.nil_append]

/-- The first slices are an initial part of the list. -/
theorem flatten_slices {α : Type*} (rows : List α) (k n : ℕ) :
    ((List.range n).map fun i => (rows.drop (i * k)).take k).flatten = rows.take (n * k) := by
  induction n with
  | zero => simp
  | succ n ih =>
    rw [List.range_succ, List.map_append, List.flatten_append, ih, Nat.succ_mul, List.take_add]
    simp

/-- Slices of one length share no row, and together have every row. -/
theorem existsUnique_slice {α : Type*} {rows : List α} (hrows : rows.Nodup) {k : ℕ} (hk : 0 < k)
    {a : α} (ha : a ∈ rows) : ∃! i, a ∈ (rows.drop (i * k)).take k := by
  obtain ⟨n, hn, rfl⟩ := List.mem_iff_getElem.mp ha
  refine ⟨n / k, ?_, fun i hi => ?_⟩
  · refine List.mem_take_iff_getElem.mpr ⟨n % k, ?_, ?_⟩
    · rw [List.length_drop, Nat.lt_min]
      have := Nat.div_add_mod' n k
      exact ⟨Nat.mod_lt n hk, by omega⟩
    · rw [List.getElem_drop]
      congr 1
      exact Nat.div_add_mod' n k
  · obtain ⟨j, hj, hget⟩ := List.mem_take_iff_getElem.mp hi
    rw [List.getElem_drop] at hget
    have hsame : i * k + j = n := (List.Nodup.getElem_inj_iff hrows).mp hget
    have hlt : j < k := hj.trans_le (Nat.min_le_left _ _)
    rw [← hsame, Nat.mul_comm, Nat.mul_add_div hk, Nat.div_eq_of_lt hlt, Nat.add_zero]

end DrepTalk
