import Mathlib.Data.List.Sort
import Mathlib.Algebra.Ring.Int.Defs

/-!
# Where voting power came from: the pure half

`src/lib/delegation/provenance.ts`: rows of the chain indexer in, buckets out. A delegator is
set aside as proven base by the epoch of its newest certificate, the rest are candidates,
capped at the largest by stake; a candidate's history is resolved into events, and
`classifyCandidate` tells an arrival inside the window from a stint that began before it.

Amounts are decimal strings of the indexer that the source reads with `BigInt` and writes back
with `toString`; here they are the integers themselves. The comparison of two hashes by
`localeCompare` is a parameter.
-/

namespace DrepTalk

def ANALYSIS_CAP : ℕ := 500

def TX_LOOKUP_BUDGET : ℕ := 2500

/-- A current delegator: its stake and the epoch of its newest certificate. -/
structure DrepDelegatorRow where
  stakeAddress : String
  amount : ℤ
  epochNo : ℤ

/-- One event of an account's certificate history. -/
structure AccountUpdateHistoryRow where
  stakeAddress : String
  actionType : String
  txHash : String
  epochNo : ℤ
  absoluteSlot : ℤ

/-- The fields of a vote delegation certificate; a field that is no string is `none`. -/
structure VoteDelegationCertInfo where
  drepId : Option String
  stakeAddress : Option String

structure TxCert where
  type : String
  info : Option VoteDelegationCertInfo

/-- A number of accounts and their stake. -/
structure Tally where
  count : ℕ
  amount : ℤ

namespace Tally

instance : Add Tally := ⟨fun s t => ⟨s.count + t.count, s.amount + t.amount⟩⟩

instance : Zero Tally := ⟨⟨0, 0⟩⟩

@[simp] theorem count_add (s t : Tally) : (s + t).count = s.count + t.count := rfl

@[simp] theorem amount_add (s t : Tally) : (s + t).amount = s.amount + t.amount := rfl

@[simp] theorem count_zero : (0 : Tally).count = 0 := rfl

@[simp] theorem amount_zero : (0 : Tally).amount = 0 := rfl

@[ext] theorem ext {s t : Tally} (hc : s.count = t.count) (ha : s.amount = t.amount) : s = t := by
  obtain ⟨c, a⟩ := s
  obtain ⟨c', a'⟩ := t
  exact congrArg₂ Tally.mk hc ha

end Tally

def sumAmounts (rows : List DrepDelegatorRow) : ℤ := (rows.map (·.amount)).sum

def tally (rows : List DrepDelegatorRow) : Tally := ⟨rows.length, sumAmounts rows⟩

def ABSTAIN_KEYS : List String := ["drep_always_abstain", "always_abstain", "abstain"]

def NO_CONFIDENCE_KEYS : List String :=
  ["drep_always_no_confidence", "always_no_confidence", "no_confidence"]

/-- Canonicalizes a raw certificate target. -/
def normalizeTarget (raw : Option String) : Option String :=
  match raw with
  | none => none
  | some s =>
    if s = "" then none
    else if s ∈ ABSTAIN_KEYS then some "abstain"
    else if s ∈ NO_CONFIDENCE_KEYS then some "no_confidence"
    else some s

/-- Splits current delegators into candidates and proven base. -/
def prefilterDelegators (rows : List DrepDelegatorRow) (currentEpoch windowEpochs : ℤ) :
    List DrepDelegatorRow × Tally :=
  let cutoff := currentEpoch - windowEpochs
  (rows.filter fun row => decide (cutoff ≤ row.epochNo),
    tally (rows.filter fun row => !decide (cutoff ≤ row.epochNo)))

/-- A stable sort by stake, largest first: `sort(byAmountDesc)`. -/
def sortByAmountDesc (rows : List DrepDelegatorRow) : List DrepDelegatorRow :=
  rows.mergeSort fun a b => decide (b.amount ≤ a.amount)

/-- Caps candidates at the top `cap` by current stake, summing the remainder. -/
def capCandidates (candidates : List DrepDelegatorRow) (cap : ℕ) :
    List DrepDelegatorRow × Option Tally :=
  if candidates.length ≤ cap then (candidates, none)
  else
    let sorted := sortByAmountDesc candidates
    (sorted.take cap, some (tally (sorted.drop cap)))

/-- A delegation event with its target, `none` where the certificate was not found. -/
structure ResolvedEvent where
  txHash : String
  epoch : ℤ
  slot : ℤ
  target : Option String

/-- One account's `delegation_drep` events in chain order with resolved targets: the last
matching certificate of a transaction wins. -/
def resolveEvents (localeCompare : String → String → ℤ)
    (historyRows : List AccountUpdateHistoryRow) (stakeAddress : String)
    (certsByTx : String → Option (List TxCert)) : List ResolvedEvent :=
  ((historyRows.filter fun r =>
      r.stakeAddress == stakeAddress && r.actionType == "delegation_drep").mergeSort fun a b =>
        decide (a.absoluteSlot < b.absoluteSlot) ||
          a.absoluteSlot == b.absoluteSlot && decide (localeCompare a.txHash b.txHash ≤ 0)).map
    fun r =>
      let target := ((certsByTx r.txHash).getD []).foldl (fun target cert =>
        if cert.type ≠ "vote_delegation" then target
        else match cert.info with
          | none => target
          | some info =>
            if info.stakeAddress = some stakeAddress then normalizeTarget info.drepId
            else target) none
      ⟨r.txHash, r.epochNo, r.absoluteSlot, target⟩

inductive Source
  | drep (drepId : String)
  | new
  | abstain
  | no_confidence
  | unknown
  deriving DecidableEq

inductive Classification
  | base
  | arrival (source : Source) (returning : Bool)
  | unresolved
  deriving DecidableEq

/-- Consecutive events of one resolved target, with the epoch of the first one. -/
structure Run where
  target : Option String
  epoch : ℤ

/-- One round of the collapsing loop. An unresolved event is never merged into a run. -/
def pushRun (runs : List Run) (e : ResolvedEvent) : List Run :=
  match runs.getLast? with
  | some prev =>
    if prev.target ≠ none ∧ prev.target = e.target then runs else runs ++ [⟨e.target, e.epoch⟩]
  | none => runs ++ [⟨e.target, e.epoch⟩]

/-- Collapses consecutive same-target events into runs. -/
def collapseRuns (events : List ResolvedEvent) : List Run := events.foldl pushRun []

/-- Classifies one candidate from its resolved event list. The runs are read from the back:
`last`, then `sourceRun`, then `beforeSource`. -/
def classifyCandidate (events : List ResolvedEvent) (selfDrepId : String) (cutoffEpoch : ℤ) :
    Classification :=
  match (collapseRuns events).reverse with
  | [] => .unresolved
  | last :: priorRuns =>
    if last.target ≠ some selfDrepId then .unresolved
    else if last.epoch < cutoffEpoch then .base
    else match priorRuns with
      | [] => .arrival .new false
      | sourceRun :: beforeRuns =>
        match sourceRun.target with
        | none =>
          if cutoffEpoch ≤ sourceRun.epoch then
            -- the null inside the window: safe unless it may join an old self run in front of it
            match beforeRuns with
            | beforeSource :: _ =>
              if beforeSource.target = some selfDrepId ∧ beforeSource.epoch < cutoffEpoch then
                .unresolved
              else .arrival .unknown false
            | [] => .arrival .unknown false
          else .unresolved
        | some target =>
          let returning := beforeRuns.any fun r => r.target == some selfDrepId
          if target = "abstain" then .arrival .abstain returning
          else if target = "no_confidence" then .arrival .no_confidence returning
          else .arrival (.drep target) returning

structure Arrival where
  row : DrepDelegatorRow
  source : Source
  returning : Bool

/-- Arrivals grouped by source. The display fields are filled in by the compute layer. -/
structure ProvenanceSource where
  source : Source
  name : Option String
  hex : Option String
  slug : Option String
  count : ℕ
  amount : ℤ
  returningCount : ℕ

def ProvenanceSource.add (s : ProvenanceSource) (a : Arrival) : ProvenanceSource :=
  { s with
    count := s.count + 1
    amount := s.amount + a.row.amount
    returningCount := s.returningCount + if a.returning then 1 else 0 }

def ProvenanceSource.empty (source : Source) : ProvenanceSource :=
  ⟨source, none, none, none, 0, 0, 0⟩

/-- Adds one arrival to the group of its source, which is created where it is missing. -/
def addArrival : List ProvenanceSource → Arrival → List ProvenanceSource
  | [], a => [(ProvenanceSource.empty a.source).add a]
  | s :: groups, a =>
    if s.source = a.source then s.add a :: groups else s :: addArrival groups a

/-- Groups classified arrivals by source, sorted by amount descending. -/
def aggregateSources (arrivals : List Arrival) : List ProvenanceSource :=
  (arrivals.foldl addArrival []).mergeSort fun a b => decide (b.amount ≤ a.amount)

end DrepTalk
