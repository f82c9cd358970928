import Mathlib.Data.List.Nodup

/-!
# Tables as lists of rows

The row-wise statements of a relational store, `deleteWhere` and `updateWhere`, over any type of
rows, and what they do to keys and to counts: a key that an update does not touch stays unique,
and a count grows only by rows that an update brings into it.
-/

namespace DrepTalk

namespace Table

variable {α β : Type*} {p q : α → Bool} {f : α → α} {rows : List α} {r : α}

/-- `DELETE … WHERE p`. -/
def deleteWhere (p : α → Bool) (rows : List α) : List α := rows.filter fun r => !p r

/-- `UPDATE … SET f WHERE p`. -/
def updateWhere (p : α → Bool) (f : α → α) (rows : List α) : List α :=
  rows.map fun r => if p r then f r else r

theorem mem_deleteWhere : r ∈ deleteWhere p rows ↔ r ∈ rows ∧ p r = false := by
  rw [deleteWhere, List.mem_filter, Bool.not_eq_true']

theorem mem_updateWhere : r ∈ updateWhere p f rows ↔
    (r ∈ rows ∧ p r = false) ∨ ∃ r₀ ∈ rows, p r₀ = true ∧ r = f r₀ := by
  rw [updateWhere, List.mem_map]
  constructor
  · rintro ⟨r₀, hmem, rfl⟩
    by_cases h : p r₀ = true
    · exact .inr ⟨r₀, hmem, h, if_pos h⟩
    · rw [if_neg h]
      exact .inl ⟨hmem, Bool.not_eq_true _ ▸ h⟩
  · rintro (⟨hmem, h⟩ | ⟨r₀, hmem, h, rfl⟩)
    · exact ⟨r, hmem, by simp [h]⟩
    · exact ⟨r₀, hmem, if_pos h⟩

/-- Every row is still there, updated or not. -/
theorem mem_updateWhere_of_mem (p : α → Bool) (f : α → α) (hmem : r ∈ rows) :
    (if p r then f r else r) ∈ updateWhere p f rows :=
  List.mem_map.mpr ⟨r, hmem, rfl⟩

/-- ... and so is what holds of it. -/
theorem exists_mem_updateWhere {P : α → Prop} (hmem : r ∈ rows) (hf : p r = true → P (f r))
    (hr : p r = false → P r) : ∃ r' ∈ updateWhere p f rows, P r' := by
  refine ⟨_, mem_updateWhere_of_mem p f hmem, ?_⟩
  by_cases h : p r = true
  · rw [if_pos h]
    exact hf h
  · rw [if_neg h]
    exact hr (Bool.not_eq_true _ ▸ h)

/-- An update that changes no row. -/
theorem updateWhere_eq_self (h : ∀ r ∈ rows, p r = true → f r = r) :
    updateWhere p f rows = rows := by
  refine (List.map_congr_left fun r hr => ?_).trans (List.map_id rows)
  by_cases hp : p r = true
  · rw [if_pos hp, h r hr hp, id]
  · rw [if_neg hp, id]

theorem deleteWhere_sublist (p : α → Bool) (rows : List α) :
    (deleteWhere p rows).Sublist rows := List.filter_sublist

/-- A key that the update leaves alone. -/
theorem map_updateWhere (key : α → β) (hkey : ∀ r, p r = true → key (f r) = key r) :
    (updateWhere p f rows).map key = rows.map key := by
  rw [updateWhere, List.map_map]
  refine List.map_congr_left fun r _ => ?_
  by_cases h : p r = true
  · simp [h, hkey r h]
  · simp [h]

/-- An update that takes partial keys away at most. -/
theorem filterMap_updateWhere_sublist {key : α → Option β} (rows : List α)
    (hkey : ∀ r, p r = true → key (f r) = key r ∨ key (f r) = none) :
    ((updateWhere p f rows).filterMap key).Sublist (rows.filterMap key) := by
  induction rows with
  | nil => exact .slnil
  | cons r rows ih =>
    have hhead : key (if p r = true then f r else r) = key r ∨
        key (if p r = true then f r else r) = none := by
      split_ifs with hp
      · exact hkey r hp
      · exact .inl rfl
    change (List.filterMap key ((if p r = true then f r else r) :: updateWhere p f rows)).Sublist _
    rw [List.filterMap_cons, List.filterMap_cons]
    rcases hr : key r with _ | b <;> rcases hhead with hhead | hhead <;> rw [hhead]
    · rw [hr]
      exact ih
    · exact ih
    · rw [hr]
      exact ih.cons_cons b
    · exact ih.cons b

/-- A count that the update brings no row into does not grow. -/
theorem countP_updateWhere_le (hq : ∀ r ∈ rows, p r = true → q (f r) = true → q r = true) :
    (updateWhere p f rows).countP q ≤ rows.countP q := by
  rw [updateWhere, List.countP_map]
  refine List.countP_mono_left fun r hmem h => ?_
  by_cases hp : p r = true
  · exact hq r hmem hp (by simpa [hp] using h)
  · simpa [hp] using h

/-- The rows of a key, with one row more. -/
theorem filter_concat [BEq β] [LawfulBEq β] [DecidableEq β] (key : α → β) (rows : List α) (r : α)
    (k : β) : (rows ++ [r]).filter (fun r => key r == k) =
      rows.filter (fun r => key r == k) ++ if key r = k then [r] else [] := by
  rw [List.filter_append, List.filter_singleton]
  by_cases hown : key r = k
  · rw [if_pos hown, beq_iff_eq.mpr hown, cond_true]
  · rw [if_neg hown, beq_eq_false_iff_ne.mpr hown, cond_false]

/-- Rows with a unique key are determined by it. -/
theorem eq_of_key {key : α → β} (hunique : (rows.map key).Nodup) {r r' : α} (hr : r ∈ rows)
    (hr' : r' ∈ rows) (h : key r = key r') : r = r' :=
  List.inj_on_of_nodup_map hunique hr hr' h

/-- Rows with the same value of a partial key that is unique where it is defined are equal. -/
theorem eq_of_partialKey {key : α → Option β} (hunique : (rows.filterMap key).Nodup) {r r' : α}
    (hr : r ∈ rows) (hr' : r' ∈ rows) {b : β} (h : key r = some b) (h' : key r' = some b) :
    r = r' := by
  induction rows with
  | nil => simp at hr
  | cons x rows ih =>
    have hkey : ∀ y ∈ rows, key y = some b → b ∈ rows.filterMap key := fun y hy hyb =>
      List.mem_filterMap.mpr ⟨y, hy, hyb⟩
    have hx : key x = some b → b ∉ rows.filterMap key := by
      intro hxb
      rw [List.filterMap_cons_some hxb] at hunique
      exact (List.nodup_cons.mp hunique).1
    have hrest : (rows.filterMap key).Nodup :=
      hunique.sublist ((List.sublist_cons_self x rows).filterMap key)
    rcases List.mem_cons.mp hr with rfl | hmem <;> rcases List.mem_cons.mp hr' with rfl | hmem'
    · rfl
    · exact absurd (hkey r' hmem' h') (hx h)
    · exact absurd (hkey r hmem h) (hx h')
    · exact ih hrest hmem hmem'

end Table

/-- A table with a primary key. -/
structure KeyedTable {α β : Type*} (key : α → β) where
  rows : List α
  unique : (rows.map key).Nodup

namespace KeyedTable

variable {α β : Type*} {key : α → β} {r : α}

/-- No rows. -/
def empty : KeyedTable key := ⟨[], List.nodup_nil⟩

theorem eq_of_key (t : KeyedTable key) {r r' : α} (hr : r ∈ t.rows) (hr' : r' ∈ t.rows)
    (h : key r = key r') : r = r' :=
  Table.eq_of_key t.unique hr hr' h

/-- An update that leaves the key alone. -/
def updateWhere (t : KeyedTable key) (p : α → Bool) (f : α → α)
    (hkey : ∀ r, p r = true → key (f r) = key r) : KeyedTable key :=
  ⟨Table.updateWhere p f t.rows, (Table.map_updateWhere key hkey).symm ▸ t.unique⟩

/-- Fewer rows. -/
def deleteWhere (t : KeyedTable key) (p : α → Bool) : KeyedTable key :=
  ⟨Table.deleteWhere p t.rows, t.unique.sublist ((Table.deleteWhere_sublist p t.rows).map _)⟩

/-- `INSERT OR IGNORE`: a row whose key is taken is left out. -/
def insertOrIgnore [DecidableEq β] (t : KeyedTable key) (row : α) : KeyedTable key :=
  if h : key row ∈ t.rows.map key then t
  else ⟨t.rows ++ [row], by
    rw [List.map_append, List.nodup_append]
    refine ⟨t.unique, by simp, ?_⟩
    rintro k hk _ hrow rfl
    rw [List.map_singleton, List.mem_singleton] at hrow
    exact h (hrow ▸ hk)⟩

/-- A row whose key is free comes last. -/
theorem rows_insertOrIgnore [DecidableEq β] (t : KeyedTable key) (row : α)
    (hfree : key row ∉ t.rows.map key) : (t.insertOrIgnore row).rows = t.rows ++ [row] := by
  rw [insertOrIgnore, dif_neg hfree]

theorem mem_insertOrIgnore [DecidableEq β] {t : KeyedTable key} {row : α} :
    r ∈ (t.insertOrIgnore row).rows ↔ r ∈ t.rows ∨ r = row ∧ key row ∉ t.rows.map key := by
  rw [insertOrIgnore]
  split_ifs with h <;> simp [h]

/-- Rows inserted one after the other: what is there, what may have come in, and which keys are
held then. -/
theorem mem_insertAll [DecidableEq β] {t : KeyedTable key} {rows : List α} :
    (∀ r ∈ t.rows, r ∈ (rows.foldl insertOrIgnore t).rows) ∧
      (∀ r ∈ (rows.foldl insertOrIgnore t).rows, r ∈ t.rows ∨ r ∈ rows) ∧
      ∀ r ∈ rows, ∃ r' ∈ (rows.foldl insertOrIgnore t).rows, key r' = key r := by
  induction rows generalizing t with
  | nil => exact ⟨fun r h => h, fun r h => .inl h, nofun⟩
  | cons row rows ih =>
    obtain ⟨hkept, hfrom, hheld⟩ := ih (t := t.insertOrIgnore row)
    refine ⟨fun r h => hkept r (mem_insertOrIgnore.mpr (.inl h)), fun r h => ?_, fun r h => ?_⟩
    · rcases hfrom r h with hmem | hmem
      · refine (mem_insertOrIgnore.mp hmem).imp_right ?_
        rintro ⟨rfl, -⟩
        exact List.mem_cons_self
      · exact .inr (List.mem_cons_of_mem row hmem)
    · rcases List.mem_cons.mp h with rfl | hmem
      · by_cases htaken : key r ∈ t.rows.map key
        · obtain ⟨r', hr', hkey⟩ := List.mem_map.mp htaken
          exact ⟨r', hkept r' (mem_insertOrIgnore.mpr (.inl hr')), hkey⟩
        · exact ⟨r, hkept r (mem_insertOrIgnore.mpr (.inr ⟨rfl, htaken⟩)), rfl⟩
      · exact hheld r hmem

/-- Looking a row up by its key. -/
theorem find?_eq_some (t : KeyedTable key) {p : α → Bool} {k : β}
    (hp : ∀ r, p r = true ↔ key r = k) : t.rows.find? p = some r ↔ r ∈ t.rows ∧ key r = k := by
  constructor
  · intro h
    exact ⟨List.mem_of_find?_eq_some h, (hp r).mp (List.find?_some h)⟩
  · rintro ⟨hmem, hkey⟩
    obtain ⟨found, hfound⟩ : ∃ found, t.rows.find? p = some found :=
      Option.isSome_iff_exists.mp (List.find?_isSome.mpr ⟨r, hmem, (hp r).mpr hkey⟩)
    have hkey' := (hp found).mp (List.find?_some hfound)
    rw [hfound, t.eq_of_key (List.mem_of_find?_eq_some hfound) hmem (hkey'.trans hkey.symm)]

/-- Looking a row up after an update that leaves the key alone. -/
theorem find?_updateWhere (t : KeyedTable key) {p q : α → Bool} {k : β}
    (hq : ∀ r, q r = true ↔ key r = k) {f : α → α} (hkey : ∀ r, p r = true → key (f r) = key r) :
    (t.updateWhere p f hkey).rows.find? q =
      (t.rows.find? q).map fun r => if p r then f r else r := by
  ext r
  rw [find?_eq_some _ hq, Option.map_eq_some_iff]
  constructor
  · rintro ⟨hmem, rfl⟩
    rcases Table.mem_updateWhere.mp hmem with ⟨hold, hp⟩ | ⟨r₀, hold, hp, rfl⟩
    · exact ⟨r, (find?_eq_some t hq).mpr ⟨hold, rfl⟩, by simp [hp]⟩
    · exact ⟨r₀, (find?_eq_some t hq).mpr ⟨hold, (hkey r₀ hp).symm⟩, if_pos hp⟩
  · rintro ⟨r₀, hfound, rfl⟩
    obtain ⟨hmem, rfl⟩ := (find?_eq_some t hq).mp hfound
    refine ⟨Table.mem_updateWhere_of_mem p f hmem, ?_⟩
    split_ifs with hp
    · exact hkey r₀ hp
    · rfl

/-- A row between rows with other keys. -/
theorem rows_split (t : KeyedTable key) (hmem : r ∈ t.rows) :
    ∃ before behind, t.rows = before ++ r :: behind ∧ (∀ r' ∈ before, key r' ≠ key r) ∧
      ∀ r' ∈ behind, key r' ≠ key r := by
  obtain ⟨before, behind, hrows⟩ := List.append_of_mem hmem
  have hunique := t.unique
  rw [hrows, List.map_append, List.map_cons, List.nodup_append, List.nodup_cons] at hunique
  obtain ⟨-, ⟨hbehind, -⟩, hbefore⟩ := hunique
  refine ⟨before, behind, hrows, fun r' hmem' => ?_, fun r' hmem' h => ?_⟩
  · exact hbefore _ (List.mem_map_of_mem hmem') _ List.mem_cons_self
  · exact hbehind (List.mem_map.mpr ⟨r', hmem', h⟩)

/-- A key is held by one row. -/
theorem filter_key [DecidableEq β] (t : KeyedTable key) (hmem : r ∈ t.rows) :
    t.rows.filter (fun r' => decide (key r' = key r)) = [r] := by
  obtain ⟨before, behind, hrows, hbefore, hbehind⟩ := t.rows_split hmem
  have hnone : ∀ rows : List α, (∀ r' ∈ rows, key r' ≠ key r) →
      rows.filter (fun r' => decide (key r' = key r)) = [] := fun rows hother =>
    List.filter_eq_nil_iff.mpr fun r' hmem' h => hother r' hmem' (of_decide_eq_true h)
  rw [hrows, List.filter_append, List.filter_cons_of_pos (by simp), hnone before hbefore,
    hnone behind hbehind, List.nil_append]

/-- What an update of one row does to a count. -/
theorem countP_updateWhere (t : KeyedTable key) (hmem : r ∈ t.rows) {p : α → Bool}
    (hp : ∀ r', p r' = true ↔ key r' = key r) (f : α → α) (q : α → Bool) :
    (Table.updateWhere p f t.rows).countP q + (if q r then 1 else 0) =
      t.rows.countP q + if q (f r) then 1 else 0 := by
  obtain ⟨before, behind, hrows, hbefore, hbehind⟩ := t.rows_split hmem
  have hsame : ∀ rows : List α, (∀ r' ∈ rows, key r' ≠ key r) →
      Table.updateWhere p f rows = rows := fun rows hother =>
    (List.map_congr_left fun r' hmem' => if_neg fun h => hother r' hmem' ((hp r').mp h)).trans
      (List.map_id _)
  have hupdate : Table.updateWhere p f t.rows = before ++ f r :: behind := by
    rw [hrows, Table.updateWhere, List.map_append, List.map_cons, if_pos ((hp r).mpr rfl)]
    exact congrArg₂ (fun a b => a ++ f r :: b) (hsame before hbefore) (hsame behind hbehind)
  rw [hupdate, hrows, List.countP_append, List.countP_append, List.countP_cons, List.countP_cons]
  omega

/-- What the delete of one row does to a count. -/
theorem countP_deleteWhere (t : KeyedTable key) (hmem : r ∈ t.rows) {p : α → Bool}
    (hr : p r = true) (hp : ∀ r', p r' = true → key r' = key r) (q : α → Bool) :
    (Table.deleteWhere p t.rows).countP q + (if q r then 1 else 0) = t.rows.countP q := by
  obtain ⟨before, behind, hrows, hbefore, hbehind⟩ := t.rows_split hmem
  have hsame : ∀ rows : List α, (∀ r' ∈ rows, key r' ≠ key r) →
      rows.filter (fun r' => !p r') = rows := fun rows hother =>
    List.filter_eq_self.mpr fun r' hmem' => by
      simpa using fun h => hother r' hmem' (hp r' h)
  have hdelete : Table.deleteWhere p t.rows = before ++ behind := by
    rw [hrows, Table.deleteWhere, List.filter_append, List.filter_cons_of_neg (by simp [hr]),
      hsame before hbefore, hsame behind hbehind]
  rw [hdelete, hrows, List.countP_append, List.countP_append, List.countP_cons]
  omega

/-- `INSERT … ON CONFLICT DO UPDATE`: the row, or what becomes of the one that holds its key. -/
def upsert [DecidableEq β] (t : KeyedTable key) (row : α) (merge : α → α)
    (hkey : ∀ r, key r = key row → key (merge r) = key r) : KeyedTable key :=
  if key row ∈ t.rows.map key then
    t.updateWhere (fun r => decide (key r = key row)) merge fun r h => hkey r (of_decide_eq_true h)
  else t.insertOrIgnore row

theorem mem_upsert [DecidableEq β] {t : KeyedTable key} {row : α} {merge : α → α}
    (hkey : ∀ r, key r = key row → key (merge r) = key r) :
    r ∈ (t.upsert row merge hkey).rows ↔
      (r ∈ t.rows ∧ key r ≠ key row) ∨ (∃ r₀ ∈ t.rows, key r₀ = key row ∧ r = merge r₀) ∨
        r = row ∧ key row ∉ t.rows.map key := by
  rw [upsert]
  split_ifs with htaken
  · refine Table.mem_updateWhere.trans ?_
    simp [htaken]
  · rw [mem_insertOrIgnore]
    have hfree : ∀ r' ∈ t.rows, key r' ≠ key row := fun r' hmem h =>
      htaken (List.mem_map.mpr ⟨r', hmem, h⟩)
    constructor
    · rintro (hmem | hrow)
      · exact .inl ⟨hmem, hfree r hmem⟩
      · exact .inr (.inr hrow)
    · rintro (⟨hmem, -⟩ | ⟨r₀, hmem, h, -⟩ | hrow)
      · exact .inl hmem
      · exact absurd h (hfree r₀ hmem)
      · exact .inr hrow

/-- Looking a row up after an upsert. -/
theorem find?_upsert [DecidableEq β] (t : KeyedTable key) {row : α} {merge : α → α}
    (hkey : ∀ r, key r = key row → key (merge r) = key r) {q : α → Bool} {k : β}
    (hq : ∀ r, q r = true ↔ key r = k) :
    (t.upsert row merge hkey).rows.find? q =
      if k = key row then some ((t.rows.find? q).elim row merge) else t.rows.find? q := by
  split_ifs with hrow
  · subst hrow
    rw [find?_eq_some _ hq, mem_upsert]
    rcases hfound : t.rows.find? q with _ | r
    · have hfree : key row ∉ t.rows.map key := by
        intro htaken
        obtain ⟨r, hmem, hr⟩ := List.mem_map.mp htaken
        exact List.find?_eq_none.mp hfound r hmem ((hq r).mpr hr)
      exact ⟨.inr (.inr ⟨rfl, hfree⟩), rfl⟩
    · obtain ⟨hmem, hr⟩ := (find?_eq_some t hq).mp hfound
      exact ⟨.inr (.inl ⟨r, hmem, hr, rfl⟩), (hkey r hr).trans hr⟩
  · ext r
    rw [find?_eq_some _ hq, find?_eq_some _ hq, mem_upsert]
    refine and_congr_left fun hr => ⟨?_, fun hmem => .inl ⟨hmem, hr ▸ hrow⟩⟩
    rintro (⟨hmem, -⟩ | ⟨r₀, -, hr₀, rfl⟩ | ⟨rfl, -⟩)
    · exact hmem
    · exact absurd (hr.symm.trans ((hkey r₀ hr₀).trans hr₀)) hrow
    · exact absurd hr.symm hrow

/-- A count of rows with other keys. -/
theorem countP_upsert_other [DecidableEq β] {t : KeyedTable key} {row : α} {merge : α → α}
    (hkey : ∀ r, key r = key row → key (merge r) = key r) {q : α → Bool}
    (hq : ∀ r, key r = key row → q r = false) :
    (t.upsert row merge hkey).rows.countP q = t.rows.countP q := by
  rw [upsert]
  split_ifs with htaken
  · change (Table.updateWhere (fun r => decide (key r = key row)) merge t.rows).countP q = _
    rw [Table.updateWhere, List.countP_map]
    refine List.countP_congr fun r _ => ?_
    rw [Function.comp_apply]
    by_cases hr : key r = key row
    · simp [hr, hq r hr, hq (merge r) ((hkey r hr).trans hr)]
    · simp [hr]
  · rw [rows_insertOrIgnore t row htaken, List.countP_append, List.countP_singleton, hq row rfl]
    rfl

/-- Keys that are held stay held. -/
theorem held_upsert [DecidableEq β] {t : KeyedTable key} (row : α) {merge : α → α}
    (hkey : ∀ r, key r = key row → key (merge r) = key r) (hmem : r ∈ t.rows) :
    ∃ r' ∈ (t.upsert row merge hkey).rows, key r' = key r := by
  by_cases hrow : key r = key row
  · exact ⟨merge r, (mem_upsert hkey).mpr (.inr (.inl ⟨r, hmem, hrow, rfl⟩)), hkey r hrow⟩
  · exact ⟨r, (mem_upsert hkey).mpr (.inl ⟨hmem, hrow⟩), rfl⟩

/-- ... and so is the one of the row. -/
theorem held_upsert_row [DecidableEq β] {t : KeyedTable key} {row : α} {merge : α → α}
    (hkey : ∀ r, key r = key row → key (merge r) = key r) :
    ∃ r' ∈ (t.upsert row merge hkey).rows, key r' = key row := by
  by_cases htaken : key row ∈ t.rows.map key
  · obtain ⟨r, hmem, hrow⟩ := List.mem_map.mp htaken
    obtain ⟨r', hmem', hkey'⟩ : ∃ r' ∈ (t.upsert row merge hkey).rows, key r' = key r :=
      held_upsert _ hkey hmem
    exact ⟨r', hmem', hkey'.trans hrow⟩
  · exact ⟨row, (mem_upsert hkey).mpr (.inr (.inr ⟨rfl, htaken⟩)), rfl⟩

end KeyedTable

/-- A table with a primary key and a second unique key. -/
structure DoublyKeyedTable {α β γ : Type*} (key : α → β) (key' : α → γ) extends
    KeyedTable key where
  unique' : (rows.map key').Nodup

namespace DoublyKeyedTable

variable {α β γ : Type*} {key : α → β} {key' : α → γ} {r : α}

/-- No rows. -/
def empty : DoublyKeyedTable key key' := ⟨⟨[], List.nodup_nil⟩, List.nodup_nil⟩

theorem eq_of_key' (t : DoublyKeyedTable key key') {r r' : α} (hr : r ∈ t.rows)
    (hr' : r' ∈ t.rows) (h : key' r = key' r') : r = r' :=
  Table.eq_of_key t.unique' hr hr' h

/-- An update that leaves both keys alone. -/
def updateWhere (t : DoublyKeyedTable key key') (p : α → Bool) (f : α → α)
    (hkey : ∀ r, p r = true → key (f r) = key r) (hkey' : ∀ r, p r = true → key' (f r) = key' r) :
    DoublyKeyedTable key key' :=
  ⟨t.toKeyedTable.updateWhere p f hkey, (Table.map_updateWhere key' hkey').symm ▸ t.unique'⟩

/-- Fewer rows. -/
def deleteWhere (t : DoublyKeyedTable key key') (p : α → Bool) : DoublyKeyedTable key key' :=
  ⟨t.toKeyedTable.deleteWhere p, t.unique'.sublist ((Table.deleteWhere_sublist p t.rows).map _)⟩

/-- `INSERT OR IGNORE`: a row one of whose keys is taken is left out; the answer says whether the
row went in. -/
def insertOrIgnore [DecidableEq β] [DecidableEq γ] (t : DoublyKeyedTable key key') (row : α) :
    DoublyKeyedTable key key' × Bool :=
  if h : key row ∈ t.rows.map key ∨ key' row ∈ t.rows.map key' then (t, false)
  else
    (⟨⟨t.rows ++ [row], by
        rw [List.map_append, List.map_singleton]
        exact List.nodup_append.mpr ⟨t.unique, List.nodup_singleton _, fun k hk _ hrow heq =>
          h (.inl (List.mem_singleton.mp hrow ▸ heq ▸ hk))⟩⟩, by
        rw [List.map_append, List.map_singleton]
        exact List.nodup_append.mpr ⟨t.unique', List.nodup_singleton _, fun k hk _ hrow heq =>
          h (.inr (List.mem_singleton.mp hrow ▸ heq ▸ hk))⟩⟩, true)

section

variable [DecidableEq β] [DecidableEq γ] {t : DoublyKeyedTable key key'} {row : α}

/-- Where the row goes in, both its keys were free and it comes last. -/
theorem insertOrIgnore_of_true (h : (t.insertOrIgnore row).2 = true) :
    (t.insertOrIgnore row).1.rows = t.rows ++ [row] ∧ key row ∉ t.rows.map key ∧
      key' row ∉ t.rows.map key' := by
  rw [insertOrIgnore] at h ⊢
  split_ifs at h ⊢ with htaken
  obtain ⟨hfree, hfree'⟩ := not_or.mp htaken
  exact ⟨rfl, hfree, hfree'⟩

/-- Where it does not, the table is what it was. -/
theorem insertOrIgnore_of_false (h : (t.insertOrIgnore row).2 = false) :
    (t.insertOrIgnore row).1 = t ∧
      (key row ∈ t.rows.map key ∨ key' row ∈ t.rows.map key') := by
  rw [insertOrIgnore] at h ⊢
  split_ifs at h ⊢ with htaken
  exact ⟨rfl, htaken⟩

end

end DoublyKeyedTable

/-- A table with a primary key and a key that is unique where it is defined, as one under a unique
index with a `WHERE` is. -/
structure PartlyKeyedTable {α β γ : Type*} (key : α → β) (key' : α → Option γ) extends
    KeyedTable key where
  unique' : (rows.filterMap key').Nodup

namespace PartlyKeyedTable

variable {α β γ : Type*} {key : α → β} {key' : α → Option γ} {r : α}

/-- No rows. -/
def empty : PartlyKeyedTable key key' := ⟨⟨[], List.nodup_nil⟩, List.nodup_nil⟩

theorem eq_of_key' (t : PartlyKeyedTable key key') {r r' : α} (hr : r ∈ t.rows)
    (hr' : r' ∈ t.rows) {c : γ} (h : key' r = some c) (h' : key' r' = some c) : r = r' :=
  Table.eq_of_partialKey t.unique' hr hr' h h'

/-- An update that leaves the one key alone, and the other too or takes it away. -/
def updateWhere (t : PartlyKeyedTable key key') (p : α → Bool) (f : α → α)
    (hkey : ∀ r, p r = true → key (f r) = key r)
    (hkey' : ∀ r, p r = true → key' (f r) = key' r ∨ key' (f r) = none) :
    PartlyKeyedTable key key' :=
  ⟨t.toKeyedTable.updateWhere p f hkey,
    t.unique'.sublist (Table.filterMap_updateWhere_sublist t.rows hkey')⟩

/-- `UPDATE`: it fails where two rows would come to have one key. -/
def update [DecidableEq γ] (t : PartlyKeyedTable key key') (p : α → Bool) (f : α → α)
    (hkey : ∀ r, p r = true → key (f r) = key r) : Option (PartlyKeyedTable key key') :=
  if h : ((Table.updateWhere p f t.rows).filterMap key').Nodup then
    some ⟨t.toKeyedTable.updateWhere p f hkey, h⟩
  else none

/-- Fewer rows. -/
def deleteWhere (t : PartlyKeyedTable key key') (p : α → Bool) : PartlyKeyedTable key key' :=
  ⟨t.toKeyedTable.deleteWhere p,
    t.unique'.sublist ((Table.deleteWhere_sublist p t.rows).filterMap key')⟩

/-- Whether a key of the row is taken. -/
def Takes (t : PartlyKeyedTable key key') (row : α) : Prop :=
  key row ∈ t.rows.map key ∨ ∃ c ∈ key' row, c ∈ t.rows.filterMap key'

instance [DecidableEq β] [DecidableEq γ] (t : PartlyKeyedTable key key') (row : α) :
    Decidable (t.Takes row) :=
  inferInstanceAs (Decidable (_ ∨ ∃ c, c ∈ key' row ∧ c ∈ t.rows.filterMap key'))

/-- `INSERT`: it fails where a key of the row is taken. -/
def insert [DecidableEq β] [DecidableEq γ] (t : PartlyKeyedTable key key') (row : α) :
    Option (PartlyKeyedTable key key') :=
  if h : t.Takes row then none
  else some ⟨⟨t.rows ++ [row], by
      rw [List.map_append, List.map_singleton]
      exact List.nodup_append.mpr ⟨t.unique, List.nodup_singleton _, fun k hk _ hrow heq =>
        h (.inl (List.mem_singleton.mp hrow ▸ heq ▸ hk))⟩⟩, by
      rw [List.filterMap_append, List.nodup_append]
      refine ⟨t.unique', ?_, fun c hc c' hc' heq => ?_⟩
      · rcases hrow : key' row with _ | c <;> simp [hrow]
      · rw [List.filterMap_cons, List.filterMap_nil] at hc'
        rcases hrow : key' row with _ | d
        · simp [hrow] at hc'
        · obtain rfl : c' = d := by simpa [hrow] using hc'
          exact h (.inr ⟨c', hrow, heq ▸ hc⟩)⟩

/-- `INSERT OR IGNORE`. -/
def insertOrIgnore [DecidableEq β] [DecidableEq γ] (t : PartlyKeyedTable key key') (row : α) :
    PartlyKeyedTable key key' :=
  (t.insert row).getD t

section

variable [DecidableEq β] [DecidableEq γ] {t t' : PartlyKeyedTable key key'} {row : α}

/-- Where the row goes in, both its keys were free and it comes last. -/
theorem insert_eq_some (h : t.insert row = some t') : t'.rows = t.rows ++ [row] ∧ ¬t.Takes row := by
  rw [insert] at h
  split_ifs at h with htaken
  cases h
  exact ⟨rfl, htaken⟩

/-- Where it does not go in, a key is taken. -/
theorem insert_eq_none : t.insert row = none ↔ t.Takes row := by
  rw [insert]
  split_ifs with htaken <;> simp [htaken]

/-- Where it does not, the table is what it was. -/
theorem rows_insertOrIgnore (t : PartlyKeyedTable key key') (row : α) :
    (t.insertOrIgnore row).rows = t.rows ∨ (t.insertOrIgnore row).rows = t.rows ++ [row] := by
  rw [insertOrIgnore]
  rcases hinsert : t.insert row with _ | t'
  · exact .inl rfl
  · exact .inr (insert_eq_some hinsert).1

omit [DecidableEq β] in
/-- An update that has gone through. -/
theorem update_eq_some {p : α → Bool} {f : α → α} {hkey : ∀ r, p r = true → key (f r) = key r}
    (h : t.update p f hkey = some t') : t'.rows = Table.updateWhere p f t.rows := by
  rw [update] at h
  split_ifs at h
  rw [← Option.some.inj h]
  rfl

omit [DecidableEq β] in
/-- **An update of one row** fails only where another row has the new key. -/
theorem update_eq_none {p : α → Bool} {f : α → α} {hkey : ∀ r, p r = true → key (f r) = key r}
    {k : β} (hp : ∀ r, p r = true → key r = k) (h : t.update p f hkey = none) :
    ∃ r ∈ t.rows, p r = true ∧ key' (f r) ≠ key' r ∧
      ∃ c, key' (f r) = some c ∧ ∃ r' ∈ t.rows, r' ≠ r ∧ key' r' = some c := by
  rw [update] at h
  split_ifs at h with hnodup
  by_contra hnone
  push Not at hnone
  refine hnodup ?_
  by_cases hsame : ∀ r ∈ t.rows, p r = true → key' (f r) = key' r
  · have heq : (Table.updateWhere p f t.rows).filterMap key' = t.rows.filterMap key' := by
      rw [Table.updateWhere, List.filterMap_map]
      refine List.filterMap_congr fun r hr => ?_
      by_cases hpr : p r = true
      · simp [hpr, hsame r hr hpr]
      · simp [hpr]
    exact heq ▸ t.unique'
  · -- the one row that changes its key, between rows that have other keys
    push Not at hsame
    obtain ⟨r, hr, hpr, hdiff⟩ := hsame
    obtain ⟨before, behind, hrows, hbefore, hbehind⟩ := t.rows_split hr
    have hkeep : ∀ rows : List α, (∀ r' ∈ rows, key r' ≠ key r) →
        Table.updateWhere p f rows = rows := fun rows hother =>
      Table.updateWhere_eq_self fun r' hr' hpr' =>
        absurd ((hp r' hpr').trans (hp r hpr).symm) (hother r' hr')
    have hupdate : Table.updateWhere p f t.rows = before ++ f r :: behind := by
      rw [hrows, Table.updateWhere, List.map_append, List.map_cons, if_pos hpr]
      exact congrArg₂ _ (hkeep before hbefore) (congrArg _ (hkeep behind hbehind))
    have hrest : (before.filterMap key' ++ behind.filterMap key').Nodup := by
      refine t.unique'.sublist ?_
      rw [hrows, List.filterMap_append]
      exact (List.Sublist.refl _).append ((List.sublist_cons_self _ _).filterMap key')
    rw [hupdate, List.filterMap_append, List.filterMap_cons]
    rcases hnew : key' (f r) with _ | c
    · exact hrest
    · refine List.nodup_middle.mpr (List.nodup_cons.mpr ⟨fun hmem => ?_, hrest⟩)
      rw [← List.filterMap_append] at hmem
      obtain ⟨r', hr', hc⟩ := List.mem_filterMap.mp hmem
      have hother : key r' ≠ key r := (List.mem_append.mp hr').elim (hbefore r') (hbehind r')
      refine hnone r hr hpr hdiff c hnew r' ?_ (fun heq => hother (heq ▸ rfl)) hc
      rw [hrows]
      exact (List.mem_append.mp hr').elim (List.mem_append_left _)
        fun h => List.mem_append_right _ (List.mem_cons_of_mem _ h)

end

end PartlyKeyedTable

end DrepTalk
