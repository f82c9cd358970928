import Mathlib.Data.List.Nodup

/-!
# Rows grouped by a key

A map from keys to lists of rows that is filled row by row: a row goes behind those of its key, and
a key comes in with its first row. Looked up, a key has its rows, in order (`getD_lookup_grouped`);
the entries are the keys that have rows, with them (`mem_grouped`).
-/

namespace DrepTalk

variable {α κ : Type*} [BEq κ]

/-- One row more under its key. -/
def pushTo (k : κ) (a : α) : List (κ × List α) → List (κ × List α)
  | [] => [(k, [a])]
  | (k', rows) :: rest =>
    if k' == k then (k', rows ++ [a]) :: rest else (k', rows) :: pushTo k a rest

/-- Rows by their key. -/
def grouped (key : α → κ) (rows : List α) : List (κ × List α) :=
  rows.foldl (fun map a => pushTo (key a) a map) []

/-- The groups depend on the keys of the rows only. -/
theorem grouped_congr {key key' : α → κ} {rows : List α} (h : ∀ a ∈ rows, key a = key' a) :
    grouped key rows = grouped key' rows :=
  List.foldl_ext _ _ _ fun map a ha => by rw [h a ha]

variable [LawfulBEq κ]

theorem getD_lookup_pushTo (k k' : κ) (a : α) (map : List (κ × List α)) :
    ((pushTo k a map).lookup k').getD [] =
      (map.lookup k').getD [] ++ if k == k' then [a] else [] := by
  induction map with
  | nil =>
    by_cases h : k = k'
    · subst h
      simp [pushTo]
    · simp [pushTo, List.lookup_cons, beq_eq_false_iff_ne.mpr (Ne.symm h), h]
  | cons entry rest ih =>
    obtain ⟨k₀, rows⟩ := entry
    by_cases h₀ : k₀ = k
    · subst h₀
      by_cases h : k₀ = k'
      · subst h
        simp [pushTo]
      · simp [pushTo, List.lookup_cons, beq_eq_false_iff_ne.mpr (Ne.symm h),
          beq_eq_false_iff_ne.mpr h]
    · rw [pushTo, if_neg (by simpa using h₀)]
      by_cases h : k' = k₀
      · subst h
        simp [List.lookup_cons, beq_eq_false_iff_ne.mpr (Ne.symm h₀)]
      · simpa only [List.lookup_cons, beq_eq_false_iff_ne.mpr h] using ih

/-- What is found is an entry. -/
theorem mem_of_lookup {β : Type*} {k : κ} {b : β} {map : List (κ × β)}
    (h : map.lookup k = some b) : (k, b) ∈ map := by
  induction map with
  | nil => cases h
  | cons entry rest ih =>
    obtain ⟨k₀, b₀⟩ := entry
    by_cases hk : k = k₀
    · subst hk
      rw [List.lookup_cons_self, Option.some.injEq] at h
      exact h ▸ List.mem_cons_self
    · simp only [List.lookup_cons, beq_eq_false_iff_ne.mpr hk] at h
      exact List.mem_cons_of_mem _ (ih h)

/-- A key has its rows, in order. -/
theorem getD_lookup_grouped (key : α → κ) (rows : List α) (k : κ) :
    ((grouped key rows).lookup k).getD [] = rows.filter fun a => key a == k := by
  suffices h : ∀ map : List (κ × List α),
      ((rows.foldl (fun map a => pushTo (key a) a map) map).lookup k).getD [] =
        (map.lookup k).getD [] ++ rows.filter fun a => key a == k from h []
  induction rows with
  | nil => simp
  | cons a rows ih =>
    intro map
    rw [List.foldl_cons, ih, getD_lookup_pushTo, List.append_assoc, List.filter_cons]
    rcases key a == k with _ | _ <;> simp

/-! ### Entries -/

theorem keys_pushTo (k : κ) (a : α) (map : List (κ × List α)) :
    (pushTo k a map).map (·.1) =
      if k ∈ map.map (·.1) then map.map (·.1) else map.map (·.1) ++ [k] := by
  induction map with
  | nil => rfl
  | cons entry rest ih =>
    obtain ⟨k₀, rows⟩ := entry
    by_cases h₀ : k₀ = k
    · subst h₀
      simp [pushTo]
    · rw [pushTo, if_neg (by simpa using h₀), List.map_cons, ih, List.map_cons]
      by_cases hk : k ∈ rest.map (·.1)
      · rw [if_pos hk, if_pos (List.mem_cons_of_mem _ hk)]
      · have hall : k ∉ k₀ :: rest.map (·.1) := fun h => (List.mem_cons.mp h).elim (Ne.symm h₀) hk
        rw [if_neg hk, if_neg hall, List.cons_append]

omit [LawfulBEq κ] in
theorem pushTo_ne_nil {k : κ} {a : α} {map : List (κ × List α)}
    (h : ∀ entry ∈ map, entry.2 ≠ []) : ∀ entry ∈ pushTo k a map, entry.2 ≠ [] := by
  induction map with
  | nil =>
    rintro entry hmem
    obtain rfl := List.mem_singleton.mp hmem
    exact List.cons_ne_nil _ _
  | cons entry rest ih =>
    obtain ⟨k₀, rows⟩ := entry
    obtain ⟨hfirst, hrest⟩ := List.forall_mem_cons.mp h
    rw [pushTo]
    split_ifs
    · refine List.forall_mem_cons.mpr ⟨?_, hrest⟩
      exact List.append_ne_nil_of_right_ne_nil _ (List.cons_ne_nil _ _)
    · exact List.forall_mem_cons.mpr ⟨hfirst, ih hrest⟩

/-- Keys come once, and with rows. -/
theorem grouped_keys (key : α → κ) (rows : List α) :
    ((grouped key rows).map (·.1)).Nodup ∧ ∀ entry ∈ grouped key rows, entry.2 ≠ [] := by
  suffices h : ∀ map : List (κ × List α), (map.map (·.1)).Nodup → (∀ entry ∈ map, entry.2 ≠ []) →
      ((rows.foldl (fun map a => pushTo (key a) a map) map).map (·.1)).Nodup ∧
        ∀ entry ∈ rows.foldl (fun map a => pushTo (key a) a map) map, entry.2 ≠ [] from
    h [] List.nodup_nil nofun
  induction rows with
  | nil => exact fun map hkeys hrows => ⟨hkeys, hrows⟩
  | cons a rows ih =>
    intro map hkeys hrows
    refine ih _ ?_ ?_
    · rw [keys_pushTo]
      split_ifs with hk
      · exact hkeys
      · exact List.nodup_append.mpr ⟨hkeys, List.nodup_singleton _, fun k hk' _ hmem heq =>
          hk (List.mem_singleton.mp hmem ▸ heq ▸ hk')⟩
    · exact pushTo_ne_nil hrows

theorem lookup_of_mem {β : Type*} {k : κ} {b : β} {map : List (κ × β)}
    (hkeys : (map.map (·.1)).Nodup) (h : (k, b) ∈ map) : map.lookup k = some b := by
  induction map with
  | nil => cases h
  | cons entry rest ih =>
    obtain ⟨k₀, b₀⟩ := entry
    rw [List.map_cons, List.nodup_cons] at hkeys
    rcases List.mem_cons.mp h with heq | hmem
    · cases heq
      exact List.lookup_cons_self
    · have hne : k ≠ k₀ := by
        rintro rfl
        exact hkeys.1 (List.mem_map.mpr ⟨(k, b), hmem, rfl⟩)
      rw [List.lookup_cons, beq_eq_false_iff_ne.mpr hne]
      exact ih hkeys.2 hmem

/-- The entries are the keys that have rows, with them. -/
theorem mem_grouped {key : α → κ} {rows : List α} {k : κ} {group : List α} :
    (k, group) ∈ grouped key rows ↔ group = rows.filter (fun a => key a == k) ∧ group ≠ [] := by
  have hvalue := getD_lookup_grouped key rows k
  constructor
  · intro h
    obtain ⟨hkeys, hrows⟩ := grouped_keys key rows
    rw [lookup_of_mem hkeys h, Option.getD_some] at hvalue
    exact ⟨hvalue, hrows _ h⟩
  · rintro ⟨rfl, hne⟩
    rcases hlookup : (grouped key rows).lookup k with _ | group
    · rw [hlookup] at hvalue
      exact absurd hvalue.symm hne
    · rw [hlookup, Option.getD_some] at hvalue
      exact hvalue ▸ mem_of_lookup hlookup

/-- The keys of the entries are those of the rows. -/
theorem mem_keys_grouped {key : α → κ} {rows : List α} {k : κ} :
    k ∈ (grouped key rows).map (·.1) ↔ k ∈ rows.map key := by
  constructor
  · intro h
    obtain ⟨⟨_, group⟩, hmem, rfl⟩ := List.mem_map.mp h
    obtain ⟨rfl, hne⟩ := mem_grouped.mp hmem
    obtain ⟨a, ha⟩ := List.exists_mem_of_ne_nil _ hne
    obtain ⟨ha, hkey⟩ := List.mem_filter.mp ha
    exact List.mem_map.mpr ⟨a, ha, eq_of_beq hkey⟩
  · intro h
    obtain ⟨a, ha, rfl⟩ := List.mem_map.mp h
    refine List.mem_map.mpr ⟨(key a, _), mem_grouped.mpr ⟨rfl, ?_⟩, rfl⟩
    exact List.ne_nil_of_mem (List.mem_filter.mpr ⟨ha, beq_self_eq_true _⟩)

/-- Whether a group has enough of what is counted. -/
theorem exists_grouped_iff {key : α → κ} {rows : List α} {k : κ} {count : List α → ℕ} {n : ℕ}
    (hnil : count [] = 0) (hn : 0 < n) :
    (∃ entry ∈ grouped key rows, entry.1 = k ∧ n ≤ count entry.2) ↔
      n ≤ count (rows.filter fun a => key a == k) := by
  constructor
  · rintro ⟨⟨k', group⟩, hmem, rfl, hle⟩
    exact (mem_grouped.mp hmem).1 ▸ hle
  · intro hle
    refine ⟨(k, _), mem_grouped.mpr ⟨rfl, fun hempty => ?_⟩, rfl, hle⟩
    rw [hempty, hnil] at hle
    exact absurd hn (Nat.not_lt.mpr hle)

/-! ### Groups of some of the rows -/

theorem filter_pushTo (q : κ → Bool) (k : κ) (a : α) (map : List (κ × List α)) :
    (pushTo k a map).filter (fun entry => q entry.1) =
      if q k then pushTo k a (map.filter fun entry => q entry.1)
      else map.filter fun entry => q entry.1 := by
  induction map with
  | nil => rcases hq : q k with _ | _ <;> simp [pushTo, hq]
  | cons entry rest ih =>
    obtain ⟨k₀, rows⟩ := entry
    by_cases h₀ : k₀ = k
    · subst h₀
      rcases hq : q k₀ with _ | _ <;> simp [pushTo, hq]
    · rw [pushTo, if_neg (by simpa using h₀), List.filter_cons, List.filter_cons, ih]
      rcases hq₀ : q k₀ with _ | _
      · simp
      · rcases hq : q k with _ | _
        · simp
        · simp [pushTo, h₀]

/-- The groups of some keys are the groups of their rows. -/
theorem filter_grouped (key : α → κ) (q : κ → Bool) (rows : List α) :
    (grouped key rows).filter (fun entry => q entry.1) =
      grouped key (rows.filter fun a => q (key a)) := by
  suffices h : ∀ map : List (κ × List α),
      (rows.foldl (fun map a => pushTo (key a) a map) map).filter (fun entry => q entry.1) =
        (rows.filter fun a => q (key a)).foldl (fun map a => pushTo (key a) a map)
          (map.filter fun entry => q entry.1) from h []
  induction rows with
  | nil => exact fun map => rfl
  | cons a rows ih =>
    intro map
    rw [List.foldl_cons, ih, filter_pushTo, List.filter_cons]
    split_ifs <;> rfl

/-- Renaming the keys renames those of the groups. -/
theorem grouped_comp {κ' : Type*} [BEq κ'] [LawfulBEq κ'] {f : κ → κ'} (hf : Function.Injective f)
    (key : α → κ) (rows : List α) :
    grouped (fun a => f (key a)) rows = (grouped key rows).map fun entry => (f entry.1, entry.2) := by
  have hpush : ∀ (k : κ) (a : α) (map : List (κ × List α)),
      pushTo (f k) a (map.map fun entry => (f entry.1, entry.2)) =
        (pushTo k a map).map fun entry => (f entry.1, entry.2) := by
    intro k a map
    induction map with
    | nil => rfl
    | cons entry rest ih =>
      obtain ⟨k₀, rows⟩ := entry
      by_cases h₀ : k₀ = k
      · subst h₀
        simp [pushTo]
      · have hne : f k₀ ≠ f k := fun h => h₀ (hf h)
        simp only [pushTo, List.map_cons, beq_eq_false_iff_ne.mpr hne, beq_eq_false_iff_ne.mpr h₀,
          Bool.false_eq_true, if_false, ih]
  suffices h : ∀ map : List (κ × List α),
      rows.foldl (fun map a => pushTo (f (key a)) a map)
          (map.map fun entry => (f entry.1, entry.2)) =
        (rows.foldl (fun map a => pushTo (key a) a map) map).map
          fun entry => (f entry.1, entry.2) from h []
  induction rows with
  | nil => exact fun map => rfl
  | cons a rows ih =>
    intro map
    rw [List.foldl_cons, hpush, ih, List.foldl_cons]

end DrepTalk
