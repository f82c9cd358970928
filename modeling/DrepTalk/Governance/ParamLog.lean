import DrepTalk.Governance.ParamValues
import DrepTalk.Library.Table
import Mathlib.Data.Finset.Max

/-!
# The parameter change log

`syncParamLog` of `src/lib/governance/paramLogSync.ts` with the comparison of
`src/lib/governance/paramLog.ts` and the reads of `src/lib/db/paramLog.ts`. A run reads how far the
log has been brought, asks for the rows of `epoch_params` after that, reads the newest value of each
key, and writes in one batch what differs from row to row, together with how far it has come.

A row is given by its fields. The column `gov_action_id` is left out: it is set for rows that are
there, and no value depends on it.
-/

namespace DrepTalk

/-- Fields without repeated keys: a row of `epoch_params`, or a `Map` from keys to values. -/
abbrev ParamRow := List (String × JsonValue)

def PARAM_LOG_EXCLUDED : List String := ["epoch_no", "era", "nonce", "block_hash", "extra_entropy"]

def PARAM_LOG_BATCH : ℕ := 50

/-! ### Rows and changes -/

/-- `Map.set`. -/
def setField (fields : ParamRow) (key : String) (v : JsonValue) : ParamRow :=
  if fields.any (·.1 == key) then fields.map fun p => if p.1 == key then (key, v) else p
  else fields ++ [(key, v)]

structure ParamDiff where
  paramKey : String
  valueJson : JsonValue

/-- The value is not the newest one; a key without one has none. -/
def differsFrom (prev : Option JsonValue) (valueJson : JsonValue) : Bool :=
  match prev with
  | none => decide (valueJson ≠ .null)
  | some prev => decide (prev ≠ valueJson)

def diffEpochParams (latest row : ParamRow) : List ParamDiff :=
  let own := (row.map (·.1)).filter (· ∉ PARAM_LOG_EXCLUDED)
  let keys := own ++ (latest.map (·.1)).filter (· ∉ own)
  keys.filterMap fun paramKey =>
    let valueJson := normalizeParamValue ((row.lookup paramKey).getD .null)
    if differsFrom (latest.lookup paramKey) valueJson then some ⟨paramKey, valueJson⟩ else none

/-- An assignment to a field of a plain object. -/
def assignField (row : ParamRow) (key : String) (v : JsonValue) : ParamRow :=
  if key = PROTO then row else setField row key v

def paramRowFromLog (entries : List ParamDiff) : ParamRow :=
  entries.foldl
    (fun row e => if e.valueJson = .null then row else assignField row e.paramKey e.valueJson) []

/-! ### The tables -/

/-- A row of `param_changes`. -/
structure ParamChange where
  paramKey : String
  epoch : ℤ
  valueJson : JsonValue
  deriving DecidableEq

abbrev ParamChangeTable := KeyedTable fun c : ParamChange => (c.paramKey, c.epoch)

/-- `param_changes`, and `last_epoch` of `param_log_state`. -/
structure ParamLogDb where
  changes : ParamChangeTable
  lastEpoch : Option ℤ

def newestRows (rows : List ParamChange) : List ParamDiff :=
  (rows.filter fun p => rows.all fun q => q.paramKey != p.paramKey || decide (q.epoch ≤ p.epoch)).map
    fun p => ⟨p.paramKey, p.valueJson⟩

def getParamLogState (db : ParamLogDb) : Option ℤ := db.lastEpoch

def loadLatestParamValues (db : ParamLogDb) : ParamRow :=
  (newestRows db.changes.rows).map fun e => (e.paramKey, e.valueJson)

def ParamLogDb.upTo (db : ParamLogDb) (epoch : ℤ) : List ParamChange :=
  db.changes.rows.filter fun c => decide (c.epoch ≤ epoch)

def paramRowAsOf (db : ParamLogDb) (epoch : ℤ) : Option ParamRow :=
  match getParamLogState db with
  | none => none
  | some last => if last < epoch then none else some (paramRowFromLog (newestRows (db.upTo epoch)))

/-! ### A run -/

/-- `epoch_no`, where it is a whole number. -/
def epochNo (row : ParamRow) : Option ℤ :=
  match row.lookup "epoch_no" with
  | some (.number q) => if q.den = 1 then some q.num else none
  | _ => none

/-- The variables of the loop in `contiguousRun`. -/
structure RunScan where
  run : List (ℤ × ParamRow)
  prev : Option ℤ
  expected : Option ℤ
  ended : Bool

/-- One row of the answer; none where the answer is malformed. -/
def RunScan.next (s : RunScan) (row : ParamRow) : Option RunScan :=
  match epochNo row with
  | none => none
  | some epoch =>
    if s.prev.any fun prev => decide (epoch ≤ prev) then none
    else if !s.ended && s.expected.all (· == epoch) then
      some ⟨s.run ++ [(epoch, row)], some epoch, some (epoch + 1), false⟩
    else some ⟨s.run, some epoch, s.expected, true⟩

def contiguousRun (rows : List ParamRow) (after : ℤ) : Option (List (ℤ × ParamRow)) :=
  (rows.foldlM RunScan.next ⟨[], none, if 0 ≤ after then some (after + 1) else none, false⟩).map
    (·.run)

def plannedChanges (latest : ParamRow) : List (ℤ × ParamRow) → List ParamChange
  | [] => []
  | (epoch, row) :: run =>
    let changes := diffEpochParams latest row
    changes.map (fun c => ⟨c.paramKey, epoch, c.valueJson⟩) ++
      plannedChanges (changes.foldl (fun m c => setField m c.paramKey c.valueJson) latest) run

def ParamLogDb.write (db : ParamLogDb) (stmts : List ParamChange) (toEpoch : ℤ) : ParamLogDb where
  changes := stmts.foldl KeyedTable.insertOrIgnore db.changes
  lastEpoch := some toEpoch

/-- What comes into a run: the answers of Koios, and the epoch of the clock. -/
structure ParamLogInput where
  epochParamsAfter : ℤ → ℕ → List ParamRow
  clockEpoch : ℤ

/-- What a run returns; the count of linked rows is left out. -/
structure ParamLogResult where
  fromEpoch : Option ℤ
  toEpoch : Option ℤ
  inserted : ℕ

inductive ParamLogProc
  | begin (input : ParamLogInput)
  | found (after : ℤ) (first : ℤ × ParamRow) (rest : List (ℤ × ParamRow))
  | based (after : ℤ) (first : ℤ × ParamRow) (rest : List (ℤ × ParamRow)) (latest : ParamRow)
  | done (result : ParamLogResult)

def toEpochOf (first : ℤ × ParamRow) (rest : List (ℤ × ParamRow)) : ℤ :=
  (rest.getLast?.getD first).1

def syncParamLogStep (db : ParamLogDb) : ParamLogProc → Option (ParamLogDb × ParamLogProc)
  | .begin input =>
    let state := getParamLogState db
    let after := state.getD (-1)
    let run :=
      if state = some input.clockEpoch then none
      else contiguousRun (input.epochParamsAfter after PARAM_LOG_BATCH) after
    match run with
    | some (first :: rest) => some (db, .found after first rest)
    | _ => some (db, .done ⟨none, none, 0⟩)
  | .found after first rest => some (db, .based after first rest (loadLatestParamValues db))
  | .based _ first rest latest =>
    let stmts := plannedChanges latest (first :: rest)
    let toEpoch := toEpochOf first rest
    some (db.write stmts toEpoch, .done ⟨some first.1, some toEpoch, stmts.length⟩)
  | .done _ => none

/-! ### What is in force -/

/-- The value of a key in a map; a key that is not there has none. -/
def valueIn (fields : ParamRow) (key : String) : JsonValue := (fields.lookup key).getD .null

/-- The value of a key in a row, as it is compared. -/
def rowValue (row : ParamRow) (key : String) : JsonValue :=
  if key ∈ PARAM_LOG_EXCLUDED then .null else normalizeParamValue (valueIn row key)

theorem lookup_replaced (fields : ParamRow) (key k : String) (v : JsonValue) :
    (fields.map fun p => if p.1 == key then (key, v) else p).lookup k =
      if k = key then (fields.lookup key).map fun _ => v else fields.lookup k := by
  induction fields with
  | nil => simp
  | cons p fields ih =>
    obtain ⟨l, u⟩ := p
    rw [List.map_cons]
    by_cases hl : l = key
    · subst hl
      rw [if_pos (beq_self_eq_true l), List.lookup_cons, ih]
      by_cases hk : k = l
      · simp [hk]
      · simp [hk, List.lookup_cons, beq_eq_false_iff_ne.mpr hk]
    · rw [if_neg (by simpa using hl), List.lookup_cons, ih, List.lookup_cons,
        List.lookup_cons, beq_eq_false_iff_ne.mpr (Ne.symm hl)]
      by_cases hk : k = key
      · simp [hk, beq_eq_false_iff_ne.mpr (Ne.symm hl)]
      · simp [hk]

theorem lookup_setField (fields : ParamRow) (key k : String) (v : JsonValue) :
    (setField fields key v).lookup k = if k = key then some v else fields.lookup k := by
  rw [setField]
  split_ifs with hany hk hk
  · have hsome : ∃ u, fields.lookup key = some u := by
      refine Option.ne_none_iff_exists'.mp fun hnone => ?_
      obtain ⟨p, hp, hkey⟩ := List.any_eq_true.mp hany
      simpa [beq_iff_eq.mp hkey] using List.lookup_eq_none_iff.mp hnone p hp
    obtain ⟨u, hu⟩ := hsome
    rw [lookup_replaced, if_pos hk, hu]
    rfl
  · rw [lookup_replaced, if_neg hk]
  · have hnone : fields.lookup key = none := by
      rw [List.lookup_eq_none_iff]
      intro p hp
      refine bne_iff_ne.mpr fun h => hany (List.any_eq_true.mpr ⟨p, hp, ?_⟩)
      exact beq_iff_eq.mpr h.symm
    rw [List.lookup_append, hk, hnone, List.lookup_cons_self]
    rfl
  · rw [List.lookup_append, List.lookup_cons, beq_eq_false_iff_ne.mpr hk]
    simp

variable {k : String} {v : JsonValue} {rows : List ParamChange}

theorem lookup_foldl_setField {changes : List ParamDiff}
    (hall : ∀ c ∈ changes, c.paramKey = k → c.valueJson = v) (fields : ParamRow) :
    (changes.foldl (fun m c => setField m c.paramKey c.valueJson) fields).lookup k =
      if changes.any (·.paramKey == k) then some v else fields.lookup k := by
  induction changes generalizing fields with
  | nil => rfl
  | cons c changes ih =>
    rw [List.foldl_cons, ih fun d hd => hall d (List.mem_cons_of_mem c hd), lookup_setField,
      List.any_cons]
    by_cases hk : c.paramKey = k
    · rw [hall c List.mem_cons_self hk]
      simp [hk]
    · simp [hk, Ne.symm hk]

theorem differsFrom_iff {prev : Option JsonValue} :
    differsFrom prev v = true ↔ v ≠ prev.getD .null := by
  rcases prev with _ | prev
  · exact decide_eq_true_iff
  · exact decide_eq_true_iff.trans ne_comm

theorem mem_keys_iff_lookup {fields : ParamRow} :
    k ∈ fields.map (·.1) ↔ fields.lookup k ≠ none := by
  rw [ne_eq, List.lookup_eq_none_iff, List.mem_map]
  constructor
  · rintro ⟨p, hp, rfl⟩ hall
    simpa using hall p hp
  · intro h
    by_contra hnone
    exact h fun p hp => bne_iff_ne.mpr fun hk => hnone ⟨p, hp, hk.symm⟩

/-- **The changes** of a row are the values that differ. -/
theorem mem_diffEpochParams {latest row : ParamRow} {c : ParamDiff}
    (hlatest : ∀ k ∈ PARAM_LOG_EXCLUDED, latest.lookup k = none) :
    c ∈ diffEpochParams latest row ↔
      c.valueJson = rowValue row c.paramKey ∧ c.valueJson ≠ valueIn latest c.paramKey := by
  obtain ⟨k, v⟩ := c
  rw [diffEpochParams, List.mem_filterMap]
  set own := (row.map (·.1)).filter (· ∉ PARAM_LOG_EXCLUDED)
  have hkey : k ∈ own ++ (latest.map (·.1)).filter (· ∉ own) ↔
      k ∉ PARAM_LOG_EXCLUDED ∧ (row.lookup k ≠ none ∨ latest.lookup k ≠ none) := by
    rw [← mem_keys_iff_lookup, ← mem_keys_iff_lookup]
    have hout : k ∈ latest.map (·.1) → k ∉ PARAM_LOG_EXCLUDED := fun hmem hexcluded =>
      mem_keys_iff_lookup.mp hmem (hlatest k hexcluded)
    simp only [own, List.mem_append, List.mem_filter, decide_eq_true_eq]
    tauto
  constructor
  · rintro ⟨key, hmem, hsome⟩
    dsimp only at hsome
    split_ifs at hsome with hdiffers
    obtain ⟨rfl, rfl⟩ := ParamDiff.mk.inj (Option.some.inj hsome)
    refine ⟨?_, differsFrom_iff.mp hdiffers⟩
    rw [rowValue, if_neg (hkey.mp hmem).1]
    rfl
  · rintro ⟨hv, hne⟩
    change v = rowValue row k at hv
    subst hv
    by_cases hexcluded : k ∈ PARAM_LOG_EXCLUDED
    · rw [rowValue, if_pos hexcluded, valueIn, hlatest k hexcluded] at hne
      exact absurd rfl hne
    · have hvalue : rowValue row k = normalizeParamValue ((row.lookup k).getD .null) :=
        if_neg hexcluded
      refine ⟨k, hkey.mpr ⟨hexcluded, ?_⟩, ?_⟩
      · by_contra hnone
        obtain ⟨hrow, hlatestKey⟩ := not_or.mp hnone
        rw [hvalue, valueIn, not_not.mp hrow, not_not.mp hlatestKey] at hne
        exact hne rfl
      · rw [← hvalue, if_pos (differsFrom_iff.mpr hne)]

theorem valueIn_after_diff {latest : ParamRow} (row : ParamRow)
    (hlatest : ∀ k ∈ PARAM_LOG_EXCLUDED, latest.lookup k = none) :
    let after := (diffEpochParams latest row).foldl
      (fun m c => setField m c.paramKey c.valueJson) latest
    (∀ k ∈ PARAM_LOG_EXCLUDED, after.lookup k = none) ∧
      ∀ k, valueIn after k = rowValue row k := by
  have hlookup : ∀ k, ((diffEpochParams latest row).foldl
      (fun m c => setField m c.paramKey c.valueJson) latest).lookup k =
        if (diffEpochParams latest row).any (·.paramKey == k) then some (rowValue row k)
        else latest.lookup k := fun k =>
    lookup_foldl_setField (fun c hc hk => hk ▸ ((mem_diffEpochParams hlatest).mp hc).1) latest
  have hany : ∀ k, (diffEpochParams latest row).any (·.paramKey == k) = true ↔
      rowValue row k ≠ valueIn latest k := fun k => by
    rw [List.any_eq_true]
    constructor
    · rintro ⟨c, hc, hk⟩
      obtain ⟨hvalue, hne⟩ := (mem_diffEpochParams hlatest).mp hc
      rw [beq_iff_eq.mp hk] at hvalue hne
      exact hvalue ▸ hne
    · exact fun hne => ⟨⟨k, rowValue row k⟩, (mem_diffEpochParams hlatest).mpr ⟨rfl, hne⟩,
        beq_self_eq_true k⟩
  refine ⟨fun k hk => ?_, fun k => ?_⟩
  · have hsame : ¬(diffEpochParams latest row).any (·.paramKey == k) = true := fun h => by
      have hne := (hany k).mp h
      rw [rowValue, if_pos hk, valueIn, hlatest k hk] at hne
      exact hne rfl
    rw [hlookup, if_neg hsame, hlatest k hk]
  · rw [valueIn, hlookup]
    split_ifs with h
    · rfl
    · exact (not_not.mp fun hne => h ((hany k).mpr hne)).symm

/-! ### The newest rows -/

theorem mem_newestRows {e : ParamDiff} :
    e ∈ newestRows rows ↔ ∃ p ∈ rows, p.paramKey = e.paramKey ∧ p.valueJson = e.valueJson ∧
      ∀ q ∈ rows, q.paramKey = p.paramKey → q.epoch ≤ p.epoch := by
  obtain ⟨k, v⟩ := e
  simp only [newestRows, List.mem_map, List.mem_filter, List.all_eq_true, Bool.or_eq_true,
    bne_iff_ne, decide_eq_true_eq, ParamDiff.mk.injEq, ne_eq, ← imp_iff_not_or]
  constructor
  · rintro ⟨p, ⟨hp, hnewest⟩, hk, hv⟩
    exact ⟨p, hp, hk, hv, hnewest⟩
  · rintro ⟨p, hp, hk, hv, hnewest⟩
    exact ⟨p, ⟨hp, hnewest⟩, hk, hv⟩

theorem exists_newest (h : ∃ p ∈ rows, p.paramKey = k) :
    ∃ p ∈ rows, p.paramKey = k ∧ ∀ q ∈ rows, q.paramKey = k → q.epoch ≤ p.epoch := by
  obtain ⟨p₀, hp₀, hk₀⟩ := h
  obtain ⟨p, hp, hmax⟩ := (rows.toFinset.filter fun p => p.paramKey = k).exists_max_image
    (·.epoch) ⟨p₀, by simp [hp₀, hk₀]⟩
  simp only [Finset.mem_filter, List.mem_toFinset] at hp hmax
  exact ⟨p, hp.1, hp.2, fun q hq hqk => hmax q ⟨hq, hqk⟩⟩

theorem valueIn_newestRows (hall : ∀ p ∈ rows, p.paramKey = k →
      (∀ q ∈ rows, q.paramKey = k → q.epoch ≤ p.epoch) → p.valueJson = v)
    (hnone : (∀ p ∈ rows, p.paramKey ≠ k) → v = .null) :
    valueIn ((newestRows rows).map fun e => (e.paramKey, e.valueJson)) k = v := by
  rw [valueIn]
  rcases hlookup : ((newestRows rows).map fun e => (e.paramKey, e.valueJson)).lookup k with _ | u
  · rw [hlookup]
    refine (hnone fun p hp hk => ?_).symm
    obtain ⟨p, hp, hk, hnewest⟩ := exists_newest ⟨p, hp, hk⟩
    have hmem : (⟨k, p.valueJson⟩ : ParamDiff) ∈ newestRows rows :=
      mem_newestRows.mpr ⟨p, hp, hk, rfl, fun q hq hqk => hnewest q hq (hqk.trans hk)⟩
    have hfree := List.lookup_eq_none_iff.mp hlookup (k, p.valueJson)
      (List.mem_map.mpr ⟨_, hmem, rfl⟩)
    exact absurd rfl (bne_iff_ne.mp hfree)
  · obtain ⟨before, behind, hsplit, -⟩ := List.lookup_eq_some_iff.mp hlookup
    have hmem : (k, u) ∈ (newestRows rows).map fun e => (e.paramKey, e.valueJson) :=
      hsplit ▸ List.mem_append_right before List.mem_cons_self
    obtain ⟨e, he, heq⟩ := List.mem_map.mp hmem
    cases heq
    obtain ⟨p, hp, hk, hv, hnewest⟩ := mem_newestRows.mp he
    rw [hlookup, Option.getD_some, ← hv]
    exact hall p hp hk fun q hq hqk => hnewest q hq (hqk.trans hk.symm)

theorem lookup_paramRowFromLog {entries : List ParamDiff}
    (hall : ∀ e ∈ entries, e.paramKey = k → e.valueJson = v) :
    (paramRowFromLog entries).lookup k =
      if (∃ e ∈ entries, e.paramKey = k) ∧ v ≠ .null ∧ k ≠ PROTO then some v else none := by
  suffices hfold : ∀ row : ParamRow, (entries.foldl (fun row e =>
      if e.valueJson = .null then row else assignField row e.paramKey e.valueJson) row).lookup k =
        if (∃ e ∈ entries, e.paramKey = k) ∧ v ≠ .null ∧ k ≠ PROTO then some v else row.lookup k from
    hfold []
  induction entries with
  | nil => simp
  | cons e entries ih =>
    intro row
    rw [List.foldl_cons, ih fun d hd => hall d (List.mem_cons_of_mem e hd)]
    have hhead : (if e.valueJson = .null then row
        else assignField row e.paramKey e.valueJson).lookup k =
          if e.paramKey = k ∧ v ≠ .null ∧ k ≠ PROTO then some v else row.lookup k := by
      by_cases hk : e.paramKey = k
      · have hv := hall e List.mem_cons_self hk
        rw [hv, assignField, hk]
        by_cases hnull : v = .null
        · simp [hnull]
        · by_cases hproto : k = PROTO
          · simp [hproto]
          · simp [hnull, hproto, lookup_setField]
      · rw [assignField]
        split_ifs <;> simp_all [lookup_setField, Ne.symm hk]
    rw [hhead]
    by_cases hlater : ∃ d ∈ entries, d.paramKey = k
    · by_cases hv : v ≠ .null ∧ k ≠ PROTO
      · simp [hlater, hv]
      · simp [hv]
    · simp only [hlater, false_and, if_false, List.mem_cons, exists_eq_or_imp, or_false]

end DrepTalk
