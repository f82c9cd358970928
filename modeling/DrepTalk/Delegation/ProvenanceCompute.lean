import DrepTalk.Delegation.Provenance
import DrepTalk.Library.KeysetPage
import Mathlib.Data.Rat.Floor

/-!
# Where voting power came from: the request

`src/lib/delegation/provenanceCompute.ts`: the delegators of a DRep are read page by page, split
into proven base and candidates, the candidates capped, a budget decides for how many of them
transactions are looked up, and each of those is classified and grouped by its source. The
chain indexer and the table of known DReps are parameters, and the payload comes back together
with the transaction hashes that were looked up.

**Every delegator is accounted for once** (`computeProvenance_accounts`): the buckets of the
payload add up to the delegators, in number and in stake, whatever the headcount said and
wherever the budget ran out. The totals are followed from stage to stage: a page list is cut
and joined, a prefilter and a cap split a list in two, the walk keeps an initial part, the
classification moves one row into one bucket, and grouping keeps sums.
-/

namespace DrepTalk

/-- `PAGE`: the page size of the delegator list. -/
def PAGE : ℕ := 1000

/-- One row of the transaction lookup. -/
structure TxInfoCertsRow where
  txHash : String
  certificates : Option (List TxCert)

/-- The chain indexer. A row of `drepInfoBatch` is its live delegator count, where it has one. -/
structure ProvenanceKoios where
  drepInfoBatch : List String → List (Option ℚ)
  drepDelegators : String → ℕ → ℕ → List DrepDelegatorRow
  accountUpdateHistoryBatch : List String → List AccountUpdateHistoryRow
  txInfoCertsBatch : List String → List TxInfoCertsRow

/-- A row of the table of known DReps. -/
structure DrepRow where
  name : Option String
  hex : Option String
  slug : Option String

/-! ### Reading the delegators -/

/-- The tail loop: pages are read one after the other while the last one came back full. -/
def tailPages (page : ℕ → List DrepDelegatorRow) :
    ℕ → ℕ → ℕ → Option (List DrepDelegatorRow)
  | fuel, offset, lastLength =>
    if lastLength ≠ PAGE then some []
    else match fuel with
      | 0 => none
      | fuel + 1 =>
        (tailPages page fuel (offset + PAGE) (page offset).length).map (page offset ++ ·)

/-- The number of pages the headcount asks for. -/
def guidedPages (koios : ProvenanceKoios) (drepId : String) : ℕ :=
  let headcount := (koios.drepInfoBatch [drepId]).head?.join.getD 0
  max 1 ⌈headcount / PAGE⌉.toNat

/-- Fetches the full current delegator set: the guided pages, then the tail. -/
def allDelegators (koios : ProvenanceKoios) (drepId : String) (fuel : ℕ) :
    Option (List DrepDelegatorRow) :=
  let page := koios.drepDelegators drepId PAGE
  let guided := guidedPages koios drepId
  let pages := (List.range guided).map fun i => page (i * PAGE)
  (tailPages page fuel (guided * PAGE) ((pages.getLast?.map List.length).getD 0)).map
    (pages.flatten ++ ·)

/-! ### The transaction budget -/

/-- `Set.prototype.add` on a set in insertion order. -/
def addHash (hashes : List String) (h : String) : List String :=
  if h ∈ hashes then hashes else hashes ++ [h]

/-- The rows that are analyzed, those the budget drops, and the hashes to look up. -/
structure BudgetWalk where
  analyzedRows : List DrepDelegatorRow
  degraded : List DrepDelegatorRow
  txHashes : List String

/-- The budget loop over the candidates that are left. Once the union would exceed the budget,
this candidate and every later one are dropped. -/
def budgetWalk (budget : ℕ) (hashesOf : DrepDelegatorRow → List String) :
    List String → List DrepDelegatorRow → BudgetWalk
  | txHashes, [] => ⟨[], [], txHashes⟩
  | txHashes, row :: rows =>
    let own := (hashesOf row).foldl addHash []
    let add := own.filter fun h => decide (h ∉ txHashes)
    if budget < txHashes.length + add.length then ⟨[], row :: rows, txHashes⟩
    else
      let walk := budgetWalk budget hashesOf (add.foldl addHash txHashes) rows
      { walk with analyzedRows := row :: walk.analyzedRows }

/-! ### The classification loop -/

/-- The accumulators of the classification loop. -/
structure Buckets where
  baseCount : ℕ
  baseAmount : ℤ
  reclassifiedBaseCount : ℕ
  arrivals : List Arrival
  unresolvedRows : List DrepDelegatorRow

/-- One round of the classification loop. -/
def Buckets.add (b : Buckets) (row : DrepDelegatorRow) : Classification → Buckets
  | .base => { b with
      baseCount := b.baseCount + 1
      baseAmount := b.baseAmount + row.amount
      reclassifiedBaseCount := b.reclassifiedBaseCount + 1 }
  | .unresolved => { b with unresolvedRows := b.unresolvedRows ++ [row] }
  | .arrival source returning => { b with arrivals := b.arrivals ++ [⟨row, source, returning⟩] }

def classifyRows (classify : DrepDelegatorRow → Classification) (rows : List DrepDelegatorRow)
    (b : Buckets) : Buckets :=
  rows.foldl (fun b row => b.add row (classify row)) b

/-! ### The payload -/

/-- How much of the candidates was analyzed. -/
structure Coverage where
  analyzedCandidateCount : ℕ
  totalCandidateCount : ℕ
  analyzedCandidateAmount : ℤ
  totalCandidateAmount : ℤ

structure ProvenancePayload where
  version : ℕ
  computedAt : ℤ
  currentEpoch : ℤ
  windowEpochs : ℤ
  base : Tally
  sources : List ProvenanceSource
  coverage : Coverage
  notAnalyzed : Option Tally
  unresolved : Option Tally
  reclassifiedBaseCount : ℕ
  returningTotal : ℕ

/-- Fills the display fields of the DReps among the sources. -/
def joinNames (getDrepsByIds : List String → String → Option DrepRow)
    (sources : List ProvenanceSource) : List ProvenanceSource :=
  let drepIds := sources.filterMap fun s =>
    match s.source with
    | .drep drepId => if drepId = "" then none else some drepId
    | _ => none
  if drepIds = [] then sources
  else sources.map fun s =>
    match s.source with
    | .drep drepId =>
      if drepId = "" then s
      else
        let drep := getDrepsByIds drepIds drepId
        { s with name := drep.bind (·.name), hex := drep.bind (·.hex), slug := drep.bind (·.slug) }
    | _ => s

/-- A tally where there is something to count. -/
def tallyOrNull (t : Tally) : Option Tally := if t.count > 0 then some t else none

/-- The history of one account among the ordered candidates: the rows are grouped by address,
delegation events only. -/
def historyOf (koios : ProvenanceKoios) (ordered : List DrepDelegatorRow) (addr : String) :
    List AccountUpdateHistoryRow :=
  let historyRows :=
    if ordered = [] then [] else koios.accountUpdateHistoryBatch (ordered.map (·.stakeAddress))
  historyRows.filter fun r => r.actionType == "delegation_drep" && r.stakeAddress == addr

/-- The certificates by transaction: a later row of the lookup replaces an earlier one. -/
def certsOf (koios : ProvenanceKoios) (txHashes : List String) (h : String) :
    Option (List TxCert) :=
  let certRows := if txHashes = [] then [] else koios.txInfoCertsBatch txHashes
  (certRows.filter fun r => r.txHash == h).getLast?.map fun r => r.certificates.getD []

def payloadOf (now currentEpoch windowEpochs : ℤ) (candidates : List DrepDelegatorRow)
    (cappedOut : Tally) (walk : BudgetWalk) (buckets : Buckets) (sources : List ProvenanceSource) :
    ProvenancePayload where
  version := 1
  computedAt := now
  currentEpoch := currentEpoch
  windowEpochs := windowEpochs
  base := ⟨buckets.baseCount, buckets.baseAmount⟩
  sources := sources
  coverage :=
    { analyzedCandidateCount := walk.analyzedRows.length
      totalCandidateCount := candidates.length
      analyzedCandidateAmount := sumAmounts walk.analyzedRows
      totalCandidateAmount := sumAmounts candidates }
  notAnalyzed := tallyOrNull ⟨cappedOut.count + walk.degraded.length,
    cappedOut.amount + sumAmounts walk.degraded⟩
  unresolved := tallyOrNull (tally buckets.unresolvedRows)
  reclassifiedBaseCount := buckets.reclassifiedBaseCount
  returningTotal := (sources.map (·.returningCount)).sum

/-- Orchestrates the chain of lookups. The second component is what was looked up. -/
def computeProvenance (koios : ProvenanceKoios)
    (getDrepsByIds : List String → String → Option DrepRow) (localeCompare : String → String → ℤ)
    (drepId : String) (windowEpochs currentEpoch now : ℤ) (txLookupBudget fuel : ℕ) :
    Option (ProvenancePayload × List String) := do
  let delegators ← allDelegators koios drepId fuel
  let (candidates, base) := prefilterDelegators delegators currentEpoch windowEpochs
  let (capped, cappedOut) := capCandidates candidates ANALYSIS_CAP
  -- the largest stakes come first, so that the budget drops the smallest
  let ordered := sortByAmountDesc capped
  let historyByAddr := historyOf koios ordered
  let walk := budgetWalk txLookupBudget
    (fun row => (historyByAddr row.stakeAddress).map (·.txHash)) [] ordered
  let classify := fun row : DrepDelegatorRow => classifyCandidate
    (resolveEvents localeCompare (historyByAddr row.stakeAddress) row.stakeAddress
      (certsOf koios walk.txHashes)) drepId (currentEpoch - windowEpochs)
  let buckets := classifyRows classify walk.analyzedRows ⟨base.count, base.amount, 0, [], []⟩
  let sources := joinNames getDrepsByIds (aggregateSources buckets.arrivals)
  return (payloadOf now currentEpoch windowEpochs candidates (cappedOut.getD 0) walk buckets sources,
    walk.txHashes)

/-! ### Tallies -/

@[simp] theorem sumAmounts_nil : sumAmounts [] = 0 := rfl

@[simp] theorem sumAmounts_append (rows rows' : List DrepDelegatorRow) :
    sumAmounts (rows ++ rows') = sumAmounts rows + sumAmounts rows' := by
  simp [sumAmounts]

@[simp] theorem count_tally (rows : List DrepDelegatorRow) : (tally rows).count = rows.length := rfl

@[simp] theorem amount_tally (rows : List DrepDelegatorRow) :
    (tally rows).amount = sumAmounts rows := rfl

theorem tally_append (rows rows' : List DrepDelegatorRow) :
    tally (rows ++ rows') = tally rows + tally rows' :=
  Tally.ext List.length_append (sumAmounts_append rows rows')

theorem tally_perm {rows rows' : List DrepDelegatorRow} (h : rows.Perm rows') :
    tally rows = tally rows' :=
  Tally.ext h.length_eq (h.map _).sum_eq

theorem getD_tallyOrNull (rows : List DrepDelegatorRow) :
    (tallyOrNull (tally rows)).getD 0 = tally rows := by
  rcases rows with _ | ⟨row, rows⟩ <;> rfl

/-! ### The pages are the delegators -/

section Pages

variable {rows : List DrepDelegatorRow} {page : ℕ → List DrepDelegatorRow}

/-- The tail loop reads what is behind the offset. A last page that was not full leaves nothing
there, and every full one is paid for with one unit of fuel. -/
theorem tailPages_eq (hpage : ∀ offset, page offset = (rows.drop offset).take PAGE)
    (fuel : ℕ) : ∀ offset lastLength : ℕ, rows.length < offset + fuel * PAGE →
      (lastLength ≠ PAGE → rows.length ≤ offset) → (lastLength = PAGE → offset ≤ rows.length) →
      tailPages page fuel offset lastLength = some (rows.drop offset) := by
  have hdone : ∀ fuel offset lastLength, lastLength ≠ PAGE → rows.length ≤ offset →
      tailPages page fuel offset lastLength = some (rows.drop offset) := by
    intro fuel offset lastLength hlast hle
    rw [List.drop_eq_nil_of_le hle, tailPages.eq_def]
    exact if_pos hlast
  induction fuel with
  | zero =>
    intro offset lastLength hfuel hshort hfull
    refine hdone 0 offset lastLength (fun hlast => ?_) (by omega)
    have := hfull hlast
    omega
  | succ fuel ih =>
    intro offset lastLength hfuel hshort hfull
    by_cases hlast : lastLength = PAGE
    · have hle := hfull hlast
      have hlength : (page offset).length = min PAGE (rows.length - offset) := by
        rw [hpage, List.length_take, List.length_drop]
      rw [Nat.succ_mul] at hfuel
      rw [tailPages, if_neg (not_not.mpr hlast), ih (offset + PAGE) (page offset).length (by omega)
        (by omega) (by omega), Option.map_some, hpage, ← List.drop_drop, List.take_append_drop]
    · exact hdone _ _ _ hlast (hshort hlast)

end Pages

/-- **The whole list is read**, whatever the headcount says. -/
theorem allDelegators_eq {koios : ProvenanceKoios} {drepId : String}
    {rows : List DrepDelegatorRow} {fuel : ℕ}
    (hserves : ∀ limit offset, koios.drepDelegators drepId limit offset
      = (rows.drop offset).take limit) (hfuel : rows.length ≤ fuel) :
    allDelegators koios drepId fuel = some rows := by
  have hpage : ∀ offset, koios.drepDelegators drepId PAGE offset = (rows.drop offset).take PAGE :=
    hserves PAGE
  have hguided : 1 ≤ guidedPages koios drepId := le_max_left ..
  obtain ⟨n, hn⟩ : ∃ n, guidedPages koios drepId = n + 1 :=
    ⟨guidedPages koios drepId - 1, by omega⟩
  have hlast : ((((List.range (n + 1)).map fun i => koios.drepDelegators drepId PAGE
      (i * PAGE)).getLast?.map List.length).getD 0) = min PAGE (rows.length - n * PAGE) := by
    simp [List.range_succ, hpage]
  have hpages : ((List.range (n + 1)).map fun i => koios.drepDelegators drepId PAGE
      (i * PAGE)).flatten = rows.take ((n + 1) * PAGE) := by
    simp only [hpage]
    exact flatten_slices rows PAGE (n + 1)
  have hPAGE : PAGE = 1000 := rfl
  rw [allDelegators, hn, hlast, tailPages_eq hpage, hpages, Option.map_some,
    List.take_append_drop]
  all_goals
    rw [hPAGE]
    omega

/-! ### Splitting and capping -/

theorem tally_prefilterDelegators (rows : List DrepDelegatorRow) (currentEpoch windowEpochs : ℤ) :
    (prefilterDelegators rows currentEpoch windowEpochs).2
      + tally (prefilterDelegators rows currentEpoch windowEpochs).1 = tally rows := by
  set p : DrepDelegatorRow → Bool := fun row => decide (currentEpoch - windowEpochs ≤ row.epochNo)
  have hperm : (rows.filter (fun row => !p row) ++ rows.filter p).Perm rows :=
    List.perm_append_comm.trans (List.filter_append_perm p rows)
  rw [← tally_perm hperm, tally_append]
  rfl

theorem capCandidates_spec (candidates : List DrepDelegatorRow) (cap : ℕ) :
    ∃ rest, ((capCandidates candidates cap).1 ++ rest).Perm candidates ∧
      (capCandidates candidates cap).2.getD 0 = tally rest := by
  rw [capCandidates]
  split_ifs
  · exact ⟨[], by simp, rfl⟩
  · exact ⟨_, by rw [List.take_append_drop]; exact List.mergeSort_perm .., rfl⟩

/-! ### The budget -/

theorem nodup_foldl_addHash {hashes : List String} (h : hashes.Nodup) :
    ∀ add : List String, (add.foldl addHash hashes).Nodup := by
  intro add
  induction add generalizing hashes with
  | nil => exact h
  | cons x add ih =>
    refine ih ?_
    rw [addHash]
    split_ifs with hx
    · exact h
    · exact List.nodup_append.mpr ⟨h, by simp, fun a ha b hb => by
        rw [List.mem_singleton.mp hb]
        rintro rfl
        exact hx ha⟩

theorem length_foldl_addHash_le (add hashes : List String) :
    (add.foldl addHash hashes).length ≤ hashes.length + add.length := by
  induction add generalizing hashes with
  | nil => simp
  | cons x add ih =>
    have hstep : (addHash hashes x).length ≤ hashes.length + 1 := by
      rw [addHash]
      split_ifs <;> simp
    have := ih (addHash hashes x)
    rw [List.foldl_cons, List.length_cons]
    omega

theorem budgetWalk_spec (budget : ℕ) (hashesOf : DrepDelegatorRow → List String) :
    ∀ (rows : List DrepDelegatorRow) (txHashes : List String), txHashes.Nodup →
      txHashes.length ≤ budget →
      let walk := budgetWalk budget hashesOf txHashes rows
      walk.analyzedRows ++ walk.degraded = rows ∧ walk.txHashes.Nodup ∧
        walk.txHashes.length ≤ budget
  | [], txHashes, hnd, hle => ⟨rfl, hnd, hle⟩
  | row :: rows, txHashes, hnd, hle => by
    rw [budgetWalk]
    split_ifs with hover
    · exact ⟨rfl, hnd, hle⟩
    · -- no more hashes come in than are new to the walk
      have hlen := length_foldl_addHash_le
        (((hashesOf row).foldl addHash []).filter fun h => decide (h ∉ txHashes)) txHashes
      obtain ⟨hrows, hnd', hle'⟩ := budgetWalk_spec budget hashesOf rows _
        (nodup_foldl_addHash hnd _) (hlen.trans (not_lt.mp hover))
      exact ⟨by rw [List.cons_append, hrows], hnd', hle'⟩

/-! ### The buckets -/

def Buckets.held (b : Buckets) : Tally :=
  ⟨b.baseCount, b.baseAmount⟩ + tally (b.arrivals.map (·.row)) + tally b.unresolvedRows

def Buckets.classified (b : Buckets) : ℕ :=
  b.arrivals.length + b.unresolvedRows.length + b.reclassifiedBaseCount

theorem Buckets.held_add (b : Buckets) (row : DrepDelegatorRow) (c : Classification) :
    (b.add row c).held = b.held + tally [row] ∧ (b.add row c).classified = b.classified + 1 := by
  rcases c with _ | ⟨source, returning⟩ | _
  all_goals
    refine ⟨Tally.ext ?_ ?_, ?_⟩ <;>
      simp [Buckets.add, Buckets.held, Buckets.classified, sumAmounts] <;> omega

theorem held_classifyRows (classify : DrepDelegatorRow → Classification)
    (rows : List DrepDelegatorRow) (b : Buckets) :
    (classifyRows classify rows b).held = b.held + tally rows ∧
      (classifyRows classify rows b).classified = b.classified + rows.length := by
  induction rows generalizing b with
  | nil => exact ⟨Tally.ext (by simp [classifyRows]) (by simp [classifyRows]), rfl⟩
  | cons row rows ih =>
    obtain ⟨hheld, hcount⟩ := b.held_add row (classify row)
    obtain ⟨hheld', hcount'⟩ := ih (b.add row (classify row))
    have hsplit : tally (row :: rows) = tally [row] + tally rows := tally_append [row] rows
    refine ⟨?_, ?_⟩
    · rw [classifyRows, List.foldl_cons, ← classifyRows, hheld', hheld, hsplit]
      exact Tally.ext (by simp; omega) (by simp; omega)
    · rw [classifyRows, List.foldl_cons, ← classifyRows, hcount', hcount, List.length_cons]
      omega

/-! ### Grouping -/

def sourcesTally (sources : List ProvenanceSource) : Tally :=
  ⟨(sources.map (·.count)).sum, (sources.map (·.amount)).sum⟩

theorem sourcesTally_addArrival (groups : List ProvenanceSource) (a : Arrival) :
    sourcesTally (addArrival groups a) = sourcesTally groups + tally [a.row] := by
  induction groups with
  | nil => simp [addArrival, sourcesTally, ProvenanceSource.add, ProvenanceSource.empty, tally,
      sumAmounts, Tally.ext_iff]
  | cons s groups ih =>
    rw [Tally.ext_iff] at ih ⊢
    simp only [sourcesTally, tally, sumAmounts, Tally.count_add, Tally.amount_add] at ih ⊢
    rw [addArrival]
    split_ifs
    · simp [ProvenanceSource.add]
      omega
    · simp only [List.map_cons, List.sum_cons, ih.1, ih.2]
      omega

theorem sourcesTally_aggregateSources (arrivals : List Arrival) :
    sourcesTally (aggregateSources arrivals) = tally (arrivals.map (·.row)) := by
  have hrun : ∀ groups, sourcesTally (arrivals.foldl addArrival groups)
      = sourcesTally groups + tally (arrivals.map (·.row)) := by
    induction arrivals with
    | nil => exact fun groups => Tally.ext (by simp) (by simp)
    | cons a arrivals ih =>
      intro groups
      have hsplit : tally ((a :: arrivals).map (·.row))
          = tally [a.row] + tally (arrivals.map (·.row)) := tally_append [a.row] _
      rw [List.foldl_cons, ih, sourcesTally_addArrival, hsplit]
      exact Tally.ext (by simp; omega) (by simp; omega)
  have hperm : (aggregateSources arrivals).Perm (arrivals.foldl addArrival []) :=
    List.mergeSort_perm ..
  have hsort : sourcesTally (aggregateSources arrivals)
      = sourcesTally (arrivals.foldl addArrival []) :=
    Tally.ext (hperm.map _).sum_eq (hperm.map _).sum_eq
  rw [hsort, hrun]
  exact Tally.ext (by simp [sourcesTally]) (by simp [sourcesTally])

theorem sourcesTally_joinNames (getDrepsByIds : List String → String → Option DrepRow)
    (sources : List ProvenanceSource) :
    sourcesTally (joinNames getDrepsByIds sources) = sourcesTally sources := by
  rw [joinNames]
  split_ifs
  · rfl
  · refine Tally.ext (congrArg List.sum ?_) (congrArg List.sum ?_)
    all_goals
      rw [List.map_map]
      refine List.map_congr_left fun s _ => ?_
      simp only [Function.comp_apply]
      split
      · split_ifs <;> rfl
      · rfl

/-! ### The payload adds up -/

/-- The equations a payload satisfies: its buckets add up to the delegators, what was analyzed
and what was not to the candidates, and what was analyzed falls apart into three. -/
structure Accounts (rows : List DrepDelegatorRow) (p : ProvenancePayload) : Prop where
  count_eq : p.base.count + (p.sources.map (·.count)).sum + (p.unresolved.getD 0).count
    + (p.notAnalyzed.getD 0).count = rows.length
  amount_eq : p.base.amount + (p.sources.map (·.amount)).sum + (p.unresolved.getD 0).amount
    + (p.notAnalyzed.getD 0).amount = sumAmounts rows
  coverage_count_eq : p.coverage.analyzedCandidateCount + (p.notAnalyzed.getD 0).count
    = p.coverage.totalCandidateCount
  coverage_amount_eq : p.coverage.analyzedCandidateAmount + (p.notAnalyzed.getD 0).amount
    = p.coverage.totalCandidateAmount
  analyzed_eq : p.coverage.analyzedCandidateCount
    = (p.sources.map (·.count)).sum + (p.unresolved.getD 0).count + p.reclassifiedBaseCount

theorem accounts_payloadOf {now currentEpoch windowEpochs : ℤ}
    {rows candidates capped rest : List DrepDelegatorRow} {base : Tally} {walk : BudgetWalk}
    {classify : DrepDelegatorRow → Classification} {buckets : Buckets}
    {sources : List ProvenanceSource} (hbase : base + tally candidates = tally rows)
    (hcap : (capped ++ rest).Perm candidates)
    (hwalk : (walk.analyzedRows ++ walk.degraded).Perm capped)
    (hbuckets : buckets
      = classifyRows classify walk.analyzedRows ⟨base.count, base.amount, 0, [], []⟩)
    (hsources : sourcesTally sources = tally (buckets.arrivals.map (·.row))) :
    Accounts rows
      (payloadOf now currentEpoch windowEpochs candidates (tally rest) walk buckets sources) := by
  have hcandidates : tally candidates =
      tally walk.analyzedRows + tally walk.degraded + tally rest := by
    rw [← tally_perm hcap, tally_append, ← tally_perm hwalk, tally_append]
  have hnot : (tallyOrNull ⟨rest.length + walk.degraded.length,
      sumAmounts rest + sumAmounts walk.degraded⟩).getD 0 = tally rest + tally walk.degraded := by
    rw [← tally_append, ← getD_tallyOrNull, tally_append]
    rfl
  obtain ⟨hheld, hclassified⟩ := held_classifyRows classify walk.analyzedRows
    ⟨base.count, base.amount, 0, [], []⟩
  rw [← hbuckets] at hheld hclassified
  have hcount := congrArg Tally.count hheld
  have hamount := congrArg Tally.amount hheld
  have hccount := congrArg Tally.count hcandidates
  have hcamount := congrArg Tally.amount hcandidates
  have hbcount := congrArg Tally.count hbase
  have hbamount := congrArg Tally.amount hbase
  have hscount := congrArg Tally.count hsources
  have hsamount := congrArg Tally.amount hsources
  simp only [Buckets.held, Buckets.classified, sourcesTally, Tally.count_add, Tally.amount_add,
    count_tally, amount_tally, List.map_nil, List.length_nil, List.length_map, sumAmounts_nil]
    at hcount hamount hclassified hccount hcamount hbcount hbamount hscount hsamount
  refine ⟨?_, ?_, ?_, ?_, ?_⟩ <;>
    simp only [payloadOf, hnot, getD_tallyOrNull, Tally.count_add, Tally.amount_add, count_tally,
      amount_tally] <;> omega

section Payload

variable {koios : ProvenanceKoios} {getDrepsByIds : List String → String → Option DrepRow}
  {localeCompare : String → String → ℤ} {drepId : String} {windowEpochs currentEpoch now : ℤ}
  {txLookupBudget fuel : ℕ} {rows : List DrepDelegatorRow}

/-- **Every delegator is accounted for once**, in number and in stake, and no more transactions
are looked up than the budget allows. -/
theorem computeProvenance_accounts
    (hserves : ∀ limit offset, koios.drepDelegators drepId limit offset
      = (rows.drop offset).take limit) (hfuel : rows.length ≤ fuel) :
    ∃ p lookups, computeProvenance koios getDrepsByIds localeCompare drepId windowEpochs currentEpoch
        now txLookupBudget fuel = some (p, lookups) ∧
      Accounts rows p ∧ lookups.Nodup ∧ lookups.length ≤ txLookupBudget := by
  obtain ⟨rest, hcap, hrest⟩ := capCandidates_spec
    (prefilterDelegators rows currentEpoch windowEpochs).1 ANALYSIS_CAP
  rw [computeProvenance, allDelegators_eq hserves hfuel]
  simp only [Option.bind_eq_bind, Option.bind_some, Option.pure_def, hrest]
  refine ⟨_, _, rfl, ?_⟩
  obtain ⟨hwalk, hnodup, hle⟩ := budgetWalk_spec txLookupBudget
    (fun row => (historyOf koios (sortByAmountDesc (capCandidates (prefilterDelegators rows
      currentEpoch windowEpochs).1 ANALYSIS_CAP).1) row.stakeAddress).map (·.txHash))
    (sortByAmountDesc (capCandidates (prefilterDelegators rows currentEpoch windowEpochs).1
      ANALYSIS_CAP).1) [] List.nodup_nil (Nat.zero_le _)
  refine ⟨accounts_payloadOf (tally_prefilterDelegators rows currentEpoch windowEpochs) hcap ?_ rfl
    ?_, hnodup, hle⟩
  · rw [hwalk]
    exact List.mergeSort_perm ..
  · rw [sourcesTally_joinNames, sourcesTally_aggregateSources]

end Payload

/-- Two delegators, one of them with its newest certificate inside the window. -/
theorem computeProvenance_accounts_two :
    ∃ p lookups, computeProvenance
        { drepInfoBatch := fun _ => [some 2]
          drepDelegators := fun _ limit offset =>
            ([⟨"stake1", 10, 640⟩, ⟨"stake2", 5, 600⟩].drop offset).take limit
          accountUpdateHistoryBatch := fun _ => [⟨"stake1", "delegation_drep", "t1", 640, 7⟩]
          txInfoCertsBatch := fun _ =>
            [⟨"t1", some [⟨"vote_delegation", some ⟨some "drep1x", some "stake1"⟩⟩]⟩] }
        (fun _ _ => none) (fun a b => if a < b then -1 else if b < a then 1 else 0) "drep1x" 12 650
        1700000000 2500 2 = some (p, lookups) ∧
      Accounts [⟨"stake1", 10, 640⟩, ⟨"stake2", 5, 600⟩] p ∧ lookups.Nodup ∧
        lookups.length ≤ 2500 :=
  computeProvenance_accounts (fun _ _ => rfl) (by decide)

end DrepTalk
