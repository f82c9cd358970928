import DrepTalk.Governance.TallySync

/-!
# Stored pool distributions

`src/lib/governance/poolEconomics.ts` with `basisEpoch.ts`. The pool distribution of each epoch is
read once and stored; later it cannot be read any more. A **parameter change** is shown with the
distribution of one epoch, its basis, which it only has once it is ratified, or over. A run that
stores a new distribution deletes the older ones that no parameter change will want: it keeps the
basis of each, and all epochs since the oldest of those still open was submitted.

A body is the value that is stored as its text.
-/

namespace DrepTalk

/-! ### The distribution -/

/-- A row of `pool_list`. -/
structure PoolListRow where
  activeStake : Option String
  pledge : Option String
  fixedCost : Option String

/-- `totals`, by what is read of it. -/
structure PoolTotals where
  epochNo : ℤ
  reservesLovelace : String
  supplyLovelace : Option String

/-- `PoolEconomicsKoios`: the answers, none where a request fails. -/
structure PoolEconomicsKoios where
  poolList : ℕ → Option (List PoolListRow)
  totals : Option (Option PoolTotals)

/-- `PoolEconomicsJson`; a pool is its stake and its pledge in ada, and its fixed cost. -/
structure PoolEconomicsJson where
  epoch : ℤ
  supplyLovelace : String
  reservesLovelace : String
  pools : List (ℕ × ℕ × String)

def MAX_PAGES : ℕ := 20

/-- `KOIOS_PAGE_CAP`. -/
def POOL_PAGE_CAP : ℕ := 1000

/-- `/^\d+$/`. -/
def isLovelace (s : String) : Bool := s != "" && s.toList.all Char.isDigit

def lovelaceValue (s : String) : ℕ :=
  s.toList.foldl (fun n c => n * 10 + (c.toNat - '0'.toNat)) 0

def toAda (lovelace : Option String) : ℕ :=
  ((lovelace.filter isLovelace).map fun s => lovelaceValue s / 1000000).getD 0

/-- The pools of a distribution: those with stake, by their stake. -/
def poolsOf (rows : List PoolListRow) : List (ℕ × ℕ × String) :=
  ((rows.filter fun row => row.activeStake.any fun stake => isLovelace stake && stake != "0").map
    fun row => (toAda row.activeStake, toAda row.pledge,
      (row.fixedCost.filter isLovelace).getD "0")).insertionSort fun a b => b.1 ≤ a.1

/-- The loop over the pages, so many of which may be left; `none` inside where there is one page
more. -/
def readPages (koios : PoolEconomicsKoios) (pageNo : ℕ) (rows : List PoolListRow) :
    ℕ → Option (Option (List PoolListRow))
  | 0 => some none
  | left + 1 => (koios.poolList (pageNo * POOL_PAGE_CAP)).bind fun page =>
    if page.length < POOL_PAGE_CAP then some (some (rows ++ page))
    else readPages koios (pageNo + 1) (rows ++ page) left

/-- `readPoolEconomics`: outside, `none` where a request fails; inside, where the list is truncated
or there is no supply. -/
def readPoolEconomics (koios : PoolEconomicsKoios) : Option (Option PoolEconomicsJson) :=
  (readPages koios 0 [] MAX_PAGES).bind fun
    | none => some none
    | some rows => koios.totals.map fun totals =>
      totals.bind fun totals => (totals.supplyLovelace.filter (· ≠ "")).map fun supply =>
        ⟨totals.epochNo, supply, totals.reservesLovelace, poolsOf rows⟩

/-! ### The basis -/

/-- A row of `governance_actions`, by the columns that are read. -/
structure ImpactAction where
  id : String
  type : String
  status : GovStatus
  submittedEpoch : Option ℤ
  expiryEpoch : Option ℤ
  decidedEpoch : Option ℤ
  ratifiedEpoch : Option ℤ
  enactedEpoch : Option ℤ
  deriving DecidableEq

def basisEpoch (a : ImpactAction) : Option ℤ :=
  let before (epoch : Option ℤ) := epoch.map (· - 1)
  match a.status with
  | .ratified => a.ratifiedEpoch
  | .enacted => before (a.enactedEpoch <|> a.decidedEpoch)
  | .expired => before (a.expiryEpoch <|> a.decidedEpoch)
  | .dropped => before a.decidedEpoch
  | .pending | .active | .closed => none

def ImpactAction.Open (a : ImpactAction) : Prop := a.status = .active ∨ a.status = .pending

instance decidableImpactOpen (a : ImpactAction) : Decidable a.Open :=
  inferInstanceAs (Decidable (_ ∨ _))

/-- What is kept besides the newest: some epochs, and all from one on. -/
structure KeepEpochs where
  basis : List ℤ
  keepFrom : Option ℤ

def KeepEpochs.keep (k : KeepEpochs) (a : ImpactAction) : KeepEpochs where
  basis := k.basis ++ (basisEpoch a).toList
  keepFrom :=
    match (if a.Open then a.submittedEpoch else none), k.keepFrom with
    | none, keepFrom => keepFrom
    | some submitted, none => some submitted
    | some submitted, some keepFrom => some (min keepFrom submitted)

def poolEconomicsKeepEpochs (rows : List ImpactAction) : KeepEpochs :=
  rows.foldl KeepEpochs.keep ⟨[], none⟩

def KeepEpochs.Keeps (k : KeepEpochs) (epoch : ℤ) : Prop :=
  epoch ∈ k.basis ∨ ∃ from_ ∈ k.keepFrom, from_ ≤ epoch

instance decidableKeeps (k : KeepEpochs) (epoch : ℤ) : Decidable (k.Keeps epoch) :=
  inferInstanceAs (Decidable (_ ∨ _))

/-! ### The tables -/

/-- A row of `pool_economics`. -/
structure PoolEconomicsRow where
  epoch : ℤ
  body : PoolEconomicsJson
  computedAt : ℤ

abbrev PoolEconomicsTable := KeyedTable fun row : PoolEconomicsRow => row.epoch

/-- `type` of a parameter change. -/
def PARAMETER_CHANGE : String := "ParameterChange"

/-- `staleEpochs`: none where a read fails. -/
def staleEpochs (actions : List ImpactAction) (stored : PoolEconomicsTable) (readFails : Bool)
    (epoch : ℤ) : List ℤ :=
  if readFails then []
  else
    let keep := poolEconomicsKeepEpochs (actions.filter fun a => a.type == PARAMETER_CHANGE)
    ((stored.rows.map (·.epoch)).filter (· < epoch)).filter fun e =>
      !keep.basis.contains e && keep.keepFrom.all (e < ·)

structure PoolSyncResult where
  epoch : ℤ
  written : ℕ
  failed : ℕ

/-- `INSERT OR REPLACE`. -/
def storeDistribution (stored : PoolEconomicsTable) (row : PoolEconomicsRow) :
    PoolEconomicsTable :=
  stored.upsert row (fun _ => row) fun _ h => h.symm

/-- `syncPoolEconomics`; `none` where it rejects, with nothing changed. -/
def syncPoolEconomics (cfg : EpochAnchor) (actions : List ImpactAction)
    (stored : PoolEconomicsTable) (koios : PoolEconomicsKoios) (readFails : Bool) (now : ℤ) :
    Option (PoolEconomicsTable × PoolSyncResult) :=
  let epoch := cfg.epochFromUnix (now.fdiv 1000)
  if (stored.rows.map (·.epoch)).max? = some epoch then some (stored, ⟨epoch, 0, 0⟩)
  else
    (readPoolEconomics koios).map fun
      | none => (stored, ⟨epoch, 0, 1⟩)
      | some data =>
        if data.epoch ≠ epoch then (stored, ⟨epoch, 0, 0⟩)
        else
          let stored := storeDistribution stored ⟨epoch, data, now⟩
          let stale := staleEpochs actions stored readFails epoch
          (stored.deleteWhere fun row => stale.contains row.epoch, ⟨epoch, 1, 0⟩)

/-! ### What is kept -/

variable {epoch : ℤ}

theorem KeepEpochs.Keeps.keep {k : KeepEpochs} (h : k.Keeps epoch) (a : ImpactAction) :
    (k.keep a).Keeps epoch := by
  rcases h with hbasis | ⟨first, hfirst, hle⟩
  · exact .inl (List.mem_append_left _ hbasis)
  · refine .inr ?_
    rw [Option.mem_def] at hfirst
    rw [KeepEpochs.keep, hfirst]
    rcases (if a.Open then a.submittedEpoch else none) with _ | submitted
    · exact ⟨first, rfl, hle⟩
    · exact ⟨_, rfl, (min_le_left first submitted).trans hle⟩

theorem KeepEpochs.keeps_foldl {k : KeepEpochs} (h : k.Keeps epoch) (rows : List ImpactAction) :
    (rows.foldl KeepEpochs.keep k).Keeps epoch := by
  induction rows generalizing k with
  | nil => exact h
  | cons a rows ih => exact ih (h.keep a)

theorem KeepEpochs.keeps_keep (k : KeepEpochs) {a : ImpactAction}
    (h : basisEpoch a = some epoch ∨ a.Open ∧ ∃ submitted ∈ a.submittedEpoch, submitted ≤ epoch) :
    (k.keep a).Keeps epoch := by
  rcases h with hbasis | ⟨hopen, submitted, hsubmitted, hle⟩
  · exact .inl (List.mem_append_right _ (by simp [hbasis]))
  · refine .inr ?_
    rw [Option.mem_def] at hsubmitted
    rw [KeepEpochs.keep, if_pos hopen, hsubmitted]
    rcases k.keepFrom with _ | first
    · exact ⟨submitted, rfl, hle⟩
    · exact ⟨_, rfl, (min_le_right first submitted).trans hle⟩

theorem keeps_poolEconomicsKeepEpochs {rows : List ImpactAction} {a : ImpactAction}
    (hmem : a ∈ rows)
    (h : basisEpoch a = some epoch ∨ a.Open ∧ ∃ submitted ∈ a.submittedEpoch, submitted ≤ epoch) :
    (poolEconomicsKeepEpochs rows).Keeps epoch := by
  obtain ⟨before, after, rfl⟩ := List.append_of_mem hmem
  rw [poolEconomicsKeepEpochs, List.foldl_append, List.foldl_cons]
  exact KeepEpochs.keeps_foldl (KeepEpochs.keeps_keep _ h) after

theorem mem_staleEpochs {actions : List ImpactAction} {stored : PoolEconomicsTable}
    {readFails : Bool} {e : ℤ} (h : e ∈ staleEpochs actions stored readFails epoch) :
    e < epoch ∧ ¬(poolEconomicsKeepEpochs
      (actions.filter fun a => a.type == PARAMETER_CHANGE)).Keeps e := by
  rw [staleEpochs] at h
  split_ifs at h
  · cases h
  · obtain ⟨hstored, hnot⟩ := List.mem_filter.mp h
    obtain ⟨hbasis, hfrom⟩ := Bool.and_eq_true_iff.mp hnot
    refine ⟨of_decide_eq_true (List.mem_filter.mp hstored).2, ?_⟩
    rintro (hmem | ⟨first, hfirst, hle⟩)
    · rw [List.contains_eq_mem, decide_eq_true hmem] at hbasis
      cases hbasis
    · rw [Option.mem_def.mp hfirst, Option.all_some, decide_eq_true_eq] at hfrom
      exact absurd hle (not_le.mpr hfrom)

end DrepTalk
