import DrepTalk.Library.Table
import Mathlib.Data.Int.Basic
import Mathlib.Logic.Function.Iterate

/-!
# Hosted metadata that nobody wants

`gcDrepMetadata` of `src/lib/db/drepMetadata.ts`: of a bounded window of old rows, those of no
registered DRep and no anchor are deleted. The window has no order: the rows come in any order that
hangs on the table alone.

**A window full of keepers.** Rows that stay stay in the window too. Where there are as many of them
as it has places, an order has them first, and then repeated runs do not converge
(`metadataGcRight_iff`).
-/

namespace DrepTalk

/-- A row of `drep_metadata`, by the columns that are read. -/
structure DrepMetadata where
  drepId : String
  hash : String
  createdAt : ℤ

abbrev DrepMetadataTable := KeyedTable fun r : DrepMetadata => (r.drepId, r.hash)

structure MetadataGcArgs where
  registeredIds : List String
  keepHashes : List String
  olderThanSec : ℤ
  limit : Option ℕ

section

variable (toLowerCase : String → String) (scan : DrepMetadataTable → List DrepMetadata)
variable (args : MetadataGcArgs)

def MetadataGcArgs.isOld (r : DrepMetadata) : Bool := decide (r.createdAt < args.olderThanSec)

def MetadataGcArgs.isUnwanted (r : DrepMetadata) : Bool :=
  !args.registeredIds.contains r.drepId && !args.keepHashes.contains (toLowerCase r.hash)

def MetadataGcArgs.window (table : DrepMetadataTable) : List DrepMetadata :=
  ((scan table).filter args.isOld).take (args.limit.getD 2000)

/-- The table after it, and how many rows it has scanned and deleted. -/
def gcDrepMetadata (table : DrepMetadataTable) : DrepMetadataTable × ℕ × ℕ :=
  let rows := args.window scan table
  let toDelete := rows.filter (args.isUnwanted toLowerCase)
  (table.deleteWhere fun r => toDelete.any fun d => d.drepId == r.drepId && d.hash == r.hash,
    rows.length, toDelete.length)

/-! ### What it is to do -/

/-- The table after so many calls. -/
def gcRuns (n : ℕ) (table : DrepMetadataTable) : DrepMetadataTable :=
  (fun t => (gcDrepMetadata toLowerCase scan args t).1)^[n] table

/-- An old row that stays. -/
def MetadataGcArgs.isKeeper (r : DrepMetadata) : Bool :=
  args.isOld r && !args.isUnwanted toLowerCase r

/-- A row that is young, of a registered DRep, or with a kept hash in any letter case. -/
def MetadataGcArgs.Keeps (r : DrepMetadata) : Prop :=
  args.olderThanSec ≤ r.createdAt ∨ r.drepId ∈ args.registeredIds ∨
    ∃ hash ∈ args.keepHashes, toLowerCase hash = toLowerCase r.hash

/-- In every order of the rows, calls delete no row that is kept, and in the end all others. -/
def MetadataGcRight (table : DrepMetadataTable) : Prop :=
  ∀ scan : DrepMetadataTable → List DrepMetadata, (∀ t, (scan t).Perm t.rows) →
    (∀ n, ∀ r ∈ table.rows, args.Keeps toLowerCase r →
      r ∈ (gcRuns toLowerCase scan args n table).rows) ∧
    ∃ n, ∀ r ∈ (gcRuns toLowerCase scan args n table).rows, args.Keeps toLowerCase r

end

variable {toLowerCase : String → String} {scan : DrepMetadataTable → List DrepMetadata}
variable {args : MetadataGcArgs} {table : DrepMetadataTable} {r : DrepMetadata}

theorem not_keeps_iff (hlower : ∀ hash ∈ args.keepHashes, toLowerCase hash = hash) :
    ¬args.Keeps toLowerCase r ↔ args.isOld r = true ∧ args.isUnwanted toLowerCase r = true := by
  have hkept : (∃ hash ∈ args.keepHashes, toLowerCase hash = toLowerCase r.hash) ↔
      toLowerCase r.hash ∈ args.keepHashes := by
    constructor
    · rintro ⟨hash, hmem, heq⟩
      exact heq ▸ (hlower hash hmem).symm ▸ hmem
    · exact fun hmem => ⟨_, hmem, hlower _ hmem⟩
  simp [MetadataGcArgs.Keeps, hkept, MetadataGcArgs.isOld, MetadataGcArgs.isUnwanted]

theorem mem_gcDrepMetadata (hscan : ∀ t, (scan t).Perm t.rows) :
    r ∈ (gcDrepMetadata toLowerCase scan args table).1.rows ↔
      r ∈ table.rows ∧ r ∉ (args.window scan table).filter (args.isUnwanted toLowerCase) := by
  refine Table.mem_deleteWhere.trans (and_congr_right fun hr => ?_)
  rw [List.any_eq_false]
  constructor
  · exact fun h hdoomed => h r hdoomed (by simp)
  · intro h d hd hkey
    have hmem : d ∈ table.rows := (hscan table).mem_iff.mp
      (List.mem_of_mem_filter (List.mem_of_mem_take (List.mem_of_mem_filter hd)))
    refine h (table.eq_of_key hmem hr ?_ ▸ hd)
    simpa using hkey

/-- Where rows that stay leave a place in the window, a row that does not is found. -/
theorem exists_doomed (hscan : ∀ t, (scan t).Perm t.rows) (hr : r ∈ table.rows)
    (hold : args.isOld r = true) (hunwanted : args.isUnwanted toLowerCase r = true)
    (hroom : table.rows.countP (args.isKeeper toLowerCase) < args.limit.getD 2000) :
    ∃ d, d ∈ (args.window scan table).filter (args.isUnwanted toLowerCase) := by
  by_contra! hnone
  have hall : ∀ d ∈ args.window scan table, args.isUnwanted toLowerCase d = false := fun d hd =>
    Bool.not_eq_true _ ▸ fun h => hnone d (List.mem_filter.mpr ⟨hd, h⟩)
  have hlength : (args.window scan table).length ≤
      table.rows.countP (args.isKeeper toLowerCase) := by
    have hcount := ((List.take_sublist (args.limit.getD 2000) ((scan table).filter args.isOld)).trans
      List.filter_sublist).countP_le (p := args.isKeeper toLowerCase)
    rw [List.countP_eq_length.mpr fun d hd => ?_, (hscan table).countP_eq] at hcount
    · exact hcount
    · simp [MetadataGcArgs.isKeeper, hall d hd, (List.mem_filter.mp (List.mem_of_mem_take hd)).2]
  have hwhole : args.window scan table = (scan table).filter args.isOld := by
    refine List.take_of_length_le ?_
    rw [MetadataGcArgs.window, List.length_take] at hlength
    omega
  have hfound := hall r (hwhole ▸ List.mem_filter.mpr ⟨(hscan table).mem_iff.mpr hr, hold⟩)
  cases hfound.symm.trans hunwanted

/-- Each call with a place left in its window deletes something, or nothing is left to delete. -/
theorem converges (hlower : ∀ hash ∈ args.keepHashes, toLowerCase hash = hash)
    (hscan : ∀ t, (scan t).Perm t.rows)
    (hroom : table.rows.countP (args.isKeeper toLowerCase) < args.limit.getD 2000) :
    ∃ n, ∀ r ∈ (gcRuns toLowerCase scan args n table).rows, args.Keeps toLowerCase r := by
  induction hk : table.rows.length using Nat.strong_induction_on generalizing table with
  | h k ih =>
    by_cases hall : ∀ r ∈ table.rows, args.Keeps toLowerCase r
    · exact ⟨0, hall⟩
    · push Not at hall
      obtain ⟨r, hr, hnot⟩ := hall
      obtain ⟨hold, hunwanted⟩ := (not_keeps_iff hlower).mp hnot
      obtain ⟨d, hd⟩ := exists_doomed hscan hr hold hunwanted hroom
      have hsub := Table.deleteWhere_sublist (fun r => ((args.window scan table).filter
        (args.isUnwanted toLowerCase)).any fun d => d.drepId == r.drepId && d.hash == r.hash)
        table.rows
      have hne : (gcDrepMetadata toLowerCase scan args table).1.rows ≠ table.rows := fun heq =>
        ((mem_gcDrepMetadata hscan).mp (heq ▸ (hscan table).mem_iff.mp (List.mem_of_mem_filter
          (List.mem_of_mem_take (List.mem_of_mem_filter hd))))).2 hd
      have hlt := lt_of_le_of_ne hsub.length_le fun heq => hne (hsub.eq_of_length heq)
      have hless : (gcDrepMetadata toLowerCase scan args table).1.rows.length < k := hk ▸ hlt
      obtain ⟨n, hn⟩ := ih _ hless (Nat.lt_of_le_of_lt hsub.countP_le hroom) rfl
      exact ⟨n + 1, hn⟩

theorem gcDrepMetadata_fixed
    (h : ∀ d ∈ args.window scan table, args.isUnwanted toLowerCase d = false) :
    (gcDrepMetadata toLowerCase scan args table).1 = table := by
  have hnil : (args.window scan table).filter (args.isUnwanted toLowerCase) = [] :=
    List.filter_eq_nil_iff.mpr fun d hd => by simp [h d hd]
  obtain ⟨rows, unique⟩ := table
  simp [gcDrepMetadata, hnil, KeyedTable.deleteWhere, Table.deleteWhere]

/-- **The condition.** The others are all deleted in the end, in every order, just where the old
ones that are kept do not fill the window, or there are none. -/
theorem metadataGcRight_iff (hlower : ∀ hash ∈ args.keepHashes, toLowerCase hash = hash) :
    MetadataGcRight toLowerCase args table ↔ (∀ r ∈ table.rows, args.Keeps toLowerCase r) ∨
      table.rows.countP (args.isKeeper toLowerCase) < args.limit.getD 2000 := by
  constructor
  · intro hright
    by_contra! hcond
    obtain ⟨⟨r, hr, hnot⟩, hfull⟩ := hcond
    -- the order with the rows that stay in front
    let keeper := args.isKeeper toLowerCase
    let scan : DrepMetadataTable → List DrepMetadata := fun t =>
      t.rows.filter keeper ++ t.rows.filter fun r => !keeper r
    have hold : (table.rows.filter keeper).filter args.isOld = table.rows.filter keeper :=
      List.filter_eq_self.mpr fun a ha => (Bool.and_eq_true_iff.mp (List.mem_filter.mp ha).2).1
    have hfixed : (gcDrepMetadata toLowerCase scan args table).1 = table := by
      refine gcDrepMetadata_fixed fun d hd => ?_
      rw [MetadataGcArgs.window, List.filter_append, hold, List.take_append_of_le_length
        (by rwa [← List.countP_eq_length_filter])] at hd
      simpa using (Bool.and_eq_true_iff.mp (List.mem_filter.mp (List.mem_of_mem_take hd)).2).2
    obtain ⟨-, n, hn⟩ := hright scan fun t => List.filter_append_perm keeper t.rows
    rw [gcRuns, Function.iterate_fixed hfixed] at hn
    exact hnot (hn r hr)
  · intro hcond scan hscan
    refine ⟨fun n => ?_, ?_⟩
    · induction n with
      | zero => exact fun r hr _ => hr
      | succ n ih =>
        intro r hr hkeeps
        rw [gcRuns, Function.iterate_succ_apply']
        refine (mem_gcDrepMetadata hscan).mpr ⟨ih r hr hkeeps, fun hdoomed => ?_⟩
        obtain ⟨hfound, hunwanted⟩ := List.mem_filter.mp hdoomed
        exact (not_keeps_iff hlower).mpr
          ⟨(List.mem_filter.mp (List.mem_of_mem_take hfound)).2, hunwanted⟩ hkeeps
    · rcases hcond with hall | hroom
      · exact ⟨0, hall⟩
      · exact converges hlower hscan hroom

/-- A document of a registered DRep, and one that nobody wants. -/
def sampleHosted : DrepMetadataTable := ⟨[⟨"drep1", "aa", 0⟩, ⟨"drep2", "bb", 0⟩], by decide⟩

theorem metadataGcRight_iff_two : MetadataGcRight id ⟨["drep1"], [], 1, some 2⟩ sampleHosted :=
  (metadataGcRight_iff (by simp)).mpr (.inr (by decide))

theorem not_metadataGcRight : ¬MetadataGcRight id ⟨["drep1"], [], 1, some 1⟩ sampleHosted := by
  intro hright
  obtain ⟨-, n, hn⟩ := hright (·.rows) fun t => .refl t.rows
  rw [gcRuns, Function.iterate_fixed (gcDrepMetadata_fixed (by decide))] at hn
  have hkeeps := hn ⟨"drep2", "bb", 0⟩ (by simp [sampleHosted])
  simp [MetadataGcArgs.Keeps] at hkeeps

end DrepTalk
