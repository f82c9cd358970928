import DrepTalk.Dreps.PowerHistory
import DrepTalk.Library.Grouped

/-!
# Voting power under overlapping runs

Runs of `syncDrepVotingPowerHistory` interleaved statement by statement, over epochs that go by, any
of which may fail or be cut off at any statement, while rows of new DReps come in.

**Snapshots** (`HoldsSnapshots`). An epoch is stored in one batch, from an answer that is nothing or
the whole snapshot, so its rows are none or all. Rows from the floor on stay, and a count that is
stamped stays.

**The projection** (`not_powerHistory_projected`). It is a later statement than the storing, and
made only by a run that has fetched one of the last two epochs: a run that fails on an older epoch
leaves the rows of the DReps as they were, and no later run of the epoch projects.

**What holds** (`powerHistory_of_reachable`). Where what is stored of a recent epoch is projected by
the run that stored it, and not over a later epoch, a run that finishes alone leaves every row with
the amounts of its two epochs.
-/

namespace DrepTalk

/-! ### What Koios answers -/

section

variable {snapshot : PowerSnapshot} {epoch : ℤ} {answer : PowerAnswer}

theorem powerRows_append (page rest : List DrepVotingPowerHistoryRow) :
    powerRows epoch (page ++ rest) = powerRows epoch page ++ powerRows epoch rest :=
  List.filterMap_append

theorem mem_powerRows {rows : List DrepVotingPowerHistoryRow} {r : VotingPowerHistoryRow} :
    r ∈ powerRows epoch rows ↔ r.epoch = epoch ∧ ⟨r.drepId, some r.amount⟩ ∈ rows := by
  unfold powerRows
  rw [List.mem_filterMap]
  constructor
  · rintro ⟨⟨drepId, amount⟩, hmem, hr⟩
    obtain ⟨a, rfl, rfl⟩ := Option.map_eq_some_iff.mp hr
    exact ⟨rfl, hmem⟩
  · rintro ⟨rfl, hmem⟩
    exact ⟨_, hmem, rfl⟩

theorem fetch_of_page {page : ℕ → Option (List DrepVotingPowerHistoryRow)}
    (hpage : ∀ offset rows, page offset = some rows →
      rows = (snapshot.rows.drop offset).take PAGE_SIZE) {fuel offset : ℕ}
    {rows : List VotingPowerHistoryRow}
    (h : fetchEpochPowerRows page epoch fuel offset = some rows) :
    rows = powerRows epoch (snapshot.rows.drop offset) := by
  induction fuel generalizing offset rows with
  | zero => exact nomatch h
  | succ fuel ih =>
    obtain ⟨first, hfirst, hrest⟩ := Option.bind_eq_some_iff.mp h
    obtain rfl := hpage offset first hfirst
    split at hrest
    · rename_i hshort
      cases hrest
      rw [List.length_take] at hshort
      rw [List.take_of_length_le (by omega)]
    · obtain ⟨later, hlater, rfl⟩ := Option.map_eq_some_iff.mp hrest
      rw [ih hlater, ← powerRows_append, ← List.drop_drop, List.take_append_drop]

theorem fetchAnswer_cases {rows : List VotingPowerHistoryRow}
    (h : fetchAnswer snapshot epoch answer = some rows) :
    rows = [] ∨ rows = powerRows epoch snapshot.rows := by
  cases answer with
  | empty => exact .inl (Option.some.inj h).symm
  | snapshot =>
    exact .inr (fetch_of_page (fun _ _ hpage => (Option.some.inj hpage).symm) h)
  | failsAfter pages =>
    refine .inr (fetch_of_page (fun offset rows hpage => ?_) h)
    unfold koiosPage at hpage
    dsimp only at hpage
    split at hpage
    · exact nomatch hpage
    · exact (Option.some.inj hpage).symm

end

/-! ### The statements -/

namespace PowerDb

variable {db : PowerDb} {epoch : ℤ} {rows : List VotingPowerHistoryRow}

variable {r : PowerHistoryRow} {drepId amount : String}

theorem mem_insertVotingPowerHistory_of_mem (h : r ∈ db.history.rows) :
    r ∈ (db.insertVotingPowerHistory rows).history.rows :=
  KeyedTable.mem_insertAll.1 r h

theorem mem_insertVotingPowerHistory (h : r ∈ (db.insertVotingPowerHistory rows).history.rows) :
    r ∈ db.history.rows ∨ r.toVotingPowerHistoryRow ∈ rows ∧ r.delegatorCount = none := by
  refine (KeyedTable.mem_insertAll.2.1 r h).imp_right fun hmem => ?_
  obtain ⟨row, hrow, rfl⟩ := List.mem_map.mp hmem
  exact ⟨hrow, rfl⟩

theorem held_insertVotingPowerHistory {row : VotingPowerHistoryRow} (h : row ∈ rows) :
    ∃ r ∈ (db.insertVotingPowerHistory rows).history.rows,
      r.drepId = row.drepId ∧ r.epoch = row.epoch := by
  have hrow : (⟨row, none⟩ : PowerHistoryRow) ∈
      rows.map fun r => (⟨r, none⟩ : PowerHistoryRow) := List.mem_map_of_mem h
  obtain ⟨r, hr, hkey⟩ := (KeyedTable.mem_insertAll (t := db.history)).2.2 _ hrow
  exact ⟨r, hr, congrArg Prod.fst hkey, congrArg Prod.snd hkey⟩

theorem insertVotingPowerHistory_of_held
    (h : ∀ row ∈ rows, (row.drepId, row.epoch) ∈ db.history.rows.map PowerHistoryRow.key) :
    db.insertVotingPowerHistory rows = db := by
  unfold insertVotingPowerHistory
  induction rows with
  | nil => rfl
  | cons row rest ih =>
    have hkeep : db.history.insertOrIgnore (⟨row, none⟩ : PowerHistoryRow) = db.history :=
      dif_pos (h row List.mem_cons_self)
    rw [List.map_cons, List.foldl_cons, hkeep]
    exact ih fun other hother => h other (List.mem_cons_of_mem row hother)

theorem amountAt_eq_some :
    db.amountAt drepId epoch = some amount ↔
      ∃ r ∈ db.history.rows, r.drepId = drepId ∧ r.epoch = epoch ∧ r.amount = amount := by
  have hkey : ∀ r : PowerHistoryRow, (r.drepId == drepId && r.epoch == epoch) = true ↔
      r.key = (drepId, epoch) := by
    intro r
    rw [Bool.and_eq_true, beq_iff_eq, beq_iff_eq, PowerHistoryRow.key, Prod.mk.injEq]
  unfold amountAt
  rw [Option.map_eq_some_iff]
  constructor
  · rintro ⟨r, hr, rfl⟩
    obtain ⟨hmem, hr⟩ := (KeyedTable.find?_eq_some db.history hkey).mp hr
    exact ⟨r, hmem, congrArg Prod.fst hr, congrArg Prod.snd hr, rfl⟩
  · rintro ⟨r, hmem, rfl, rfl, rfl⟩
    exact ⟨r, (KeyedTable.find?_eq_some db.history hkey).mpr ⟨hmem, rfl⟩, rfl⟩

theorem exists_row_iff (db : PowerDb) (drepId : String) (epoch : ℤ) (amount : String) :
    (∃ r ∈ db.history.rows, r.drepId = drepId ∧ r.epoch = epoch ∧ r.amount = amount) ↔
      ∃ r ∈ db.history.rows, r.toVotingPowerHistoryRow = ⟨drepId, epoch, amount⟩ := by
  refine exists_congr fun r => and_congr_right fun _ => ?_
  rw [VotingPowerHistoryRow.mk.injEq]

theorem amountAt_congr {db' : PowerDb}
    (h : ∀ row : VotingPowerHistoryRow, row.epoch = epoch →
      ((∃ r ∈ db'.history.rows, r.toVotingPowerHistoryRow = row) ↔
        ∃ r ∈ db.history.rows, r.toVotingPowerHistoryRow = row)) (drepId : String) :
    db'.amountAt drepId epoch = db.amountAt drepId epoch := by
  refine Option.ext fun amount => ?_
  rw [amountAt_eq_some, amountAt_eq_some]
  rw [exists_row_iff, exists_row_iff]
  exact h _ rfl

theorem exists_row_stampCounts {pairs : List (String × ℤ)} (row : VotingPowerHistoryRow) :
    (∃ r ∈ (db.stampCounts epoch pairs).history.rows, r.toVotingPowerHistoryRow = row) ↔
      ∃ r ∈ db.history.rows, r.toVotingPowerHistoryRow = row := by
  constructor
  · rintro ⟨r, hr, rfl⟩
    rcases Table.mem_updateWhere.mp hr with ⟨hmem, -⟩ | ⟨r₀, hmem, -, rfl⟩
    · exact ⟨r, hmem, rfl⟩
    · exact ⟨r₀, hmem, rfl⟩
  · rintro ⟨r, hr, rfl⟩
    exact Table.exists_mem_updateWhere hr (fun _ => rfl) fun _ => rfl

theorem mem_pruneVotingPowerHistoryBefore {floor : ℤ} :
    r ∈ (db.pruneVotingPowerHistoryBefore floor).history.rows ↔
      r ∈ db.history.rows ∧ floor ≤ r.epoch := by
  refine Table.mem_deleteWhere.trans (and_congr_right fun _ => ?_)
  rw [decide_eq_false_iff_not, not_lt]

end PowerDb

/-! ### Interleaved runs -/

namespace PowerSyncProc

def InFlight : PowerSyncProc → Prop
  | .finished _ _ | .failed _ => False
  | _ => True

/-- Whether it has stored rows of a recent epoch that were new, and is still to project. -/
def added : PowerSyncProc → Bool
  | .fetching _ _ _ _ added | .pruning _ _ _ added | .projecting _ _ _ added => added
  | _ => false

/-- Whether the next statement projects. -/
def projects : PowerSyncProc → Bool
  | .projecting input _ fetched _ => fetched.any input.recent
  | _ => false

end PowerSyncProc

/-- The row of a DRep comes in, with nothing projected. -/
def PowerWorld.addDrep (w : PowerWorld) (drepId : String) : PowerWorld :=
  { w with db := { w.db with dreps := w.db.dreps.insertOrIgnore ⟨drepId, none, none, none⟩ } }

def PowerHistoryInit (w : PowerWorld) : Prop :=
  w.db.history.rows = [] ∧ w.latest = none ∧ w.due = false

section

variable (snapshots : ℤ → PowerSnapshot) (floor : ℤ)
  (allowed : PowerWorld → PowerSyncProc → PowerOutcome → Prop)
  (admits : PowerWorld → String → Prop)

/-- Runs over epochs that do not decrease, with the absolute floor or without one, whose statements
have the outcomes that are allowed; and rows of DReps that come in where that is admitted. -/
def powerHistoryProgram : Program PowerWorld PowerSyncProc where
  Start w l := ∃ input, (∀ absolute ∈ input.floorEpoch, absolute = floor) ∧
    (∀ latest ∈ w.latest, latest ≤ input.currentEpoch) ∧
      l = .started input (w.db.dreps.rows.map (·.drepId))
  Step w l w' l' := l.InFlight ∧ ∃ how, allowed w l how ∧
    powerSyncStep snapshots how w l = (w', l')
  Env w w' := ∃ drepId, admits w drepId ∧ w' = w.addDrep drepId

/-! ### What is to hold -/

/-- The rows of an epoch are none, or the amounts of its snapshot. -/
def PowerDb.HoldsSnapshots (db : PowerDb) : Prop :=
  ∀ epoch, ¬db.Stored epoch ∨ ∀ drepId amount,
    (∃ r ∈ db.history.rows, r.drepId = drepId ∧ r.epoch = epoch ∧ r.amount = amount) ↔
      ⟨drepId, some amount⟩ ∈ (snapshots epoch).rows

/-- The rows from the floor on stay, and so do counts that are stamped. -/
structure PowerDb.Keeps (db db' : PowerDb) : Prop where
  rows : ∀ r ∈ db.history.rows, floor ≤ r.epoch → ∃ r' ∈ db'.history.rows,
    r'.toVotingPowerHistoryRow = r.toVotingPowerHistoryRow
  counts : ∀ r ∈ db.history.rows, ∀ r' ∈ db'.history.rows, r'.key = r.key →
    r.delegatorCount.isSome → r'.delegatorCount = r.delegatorCount

/-- The rows of the DReps carry the amounts of an epoch and of the one before. -/
def PowerDb.Projected (db : PowerDb) (epoch : ℤ) : Prop :=
  ∀ d ∈ db.dreps.rows, d.votingPowerSnapshot = db.amountAt d.drepId epoch ∧
    d.votingPowerPrev = db.amountAt d.drepId (epoch - 1)

namespace Interleaved

variable {ι : Type*}

/-- A count was observed in a run of the epoch of its row. -/
def CountsObserved (s : Interleaved PowerWorld PowerSyncProc ι) : Prop :=
  ∀ r ∈ s.shared.db.history.rows, ∀ count ∈ r.delegatorCount, ∃ i l, s.procs i = some l ∧
    l.input.currentEpoch = r.epoch ∧ l.input.observed.lookup r.drepId = some count

def AllEnded (s : Interleaved PowerWorld PowerSyncProc ι) : Prop :=
  ∀ i l, s.procs i = some l → ¬l.InFlight

/-- A run of the latest epoch that has finished, with its epoch and the one before stored, has left
the rows that it started with as projected. -/
def FinishedProjected (s : Interleaved PowerWorld PowerSyncProc ι) : Prop :=
  ∀ i input dreps, s.procs i = some (.finished input dreps) →
    s.shared.latest = some input.currentEpoch → s.shared.db.Stored input.currentEpoch →
      s.shared.db.Stored (input.currentEpoch - 1) → ∀ d ∈ s.shared.db.dreps.rows,
        d.drepId ∈ dreps →
          d.votingPowerSnapshot = s.shared.db.amountAt d.drepId input.currentEpoch ∧
            d.votingPowerPrev = s.shared.db.amountAt d.drepId (input.currentEpoch - 1)

end Interleaved

/-! ### The condition -/

/-- Whether the next statement fails, or Koios does. -/
def PowerSyncProc.interrupted (how : PowerOutcome) (l : PowerSyncProc) : Bool :=
  match how, l with
  | .fails, _ => true
  | .succeeds answer, .fetching _ _ (epoch :: _) _ _ =>
    (fetchAnswer (snapshots epoch) epoch answer).isNone
  | _, _ => false

/-- The condition on a statement: a run that has stored rows of a recent epoch is not interrupted
before they are projected; and a run does not project over a later epoch that is stored. -/
def projectsStored (w : PowerWorld) (l : PowerSyncProc) (how : PowerOutcome) : Prop :=
  (l.added = true → w.due = true → l.interrupted snapshots how = false) ∧
    (l.projects = true → l.interrupted snapshots how = false →
      ∀ r ∈ w.db.history.rows, r.epoch ≤ l.input.currentEpoch)

instance (w : PowerWorld) (l : PowerSyncProc) (how : PowerOutcome) :
    Decidable (projectsStored snapshots w l how) :=
  inferInstanceAs (Decidable (_ ∧ _))

/-- The condition on a row that comes in: the last two epochs hold nothing of it, unless they are
still to be projected. -/
def admitsUnstored (w : PowerWorld) (drepId : String) : Prop :=
  w.due = true ∨ ∀ latest ∈ w.latest, ∀ r ∈ w.db.history.rows, r.drepId = drepId →
    r.epoch < latest - 1

end

/-! ### What a statement does -/

section

variable {snapshots : ℤ → PowerSnapshot} {floor : ℤ} {w w' : PowerWorld} {l l' : PowerSyncProc}
  {how : PowerOutcome}

/-- The epochs that are still to be fetched. -/
def PowerSyncProc.toFetch : PowerSyncProc → List ℤ
  | .fetching _ _ toFetch _ _ => toFetch
  | _ => []

def PowerSyncProc.pairs : PowerSyncProc → List (String × ℤ)
  | .stamping _ _ pairs => pairs
  | _ => []

variable (snapshots) in
/-- What a statement does to the tables. -/
inductive PowerChange (w : PowerWorld) (l : PowerSyncProc) : PowerWorld → Prop
  | same : PowerChange w l w
  | read : PowerChange w l
      { w with latest := some (w.latest.elim l.input.currentEpoch (max l.input.currentEpoch)) }
  | store {epoch : ℤ} {rows : List VotingPowerHistoryRow} (hepoch : epoch ∈ l.toFetch)
      (hrows : rows = [] ∨ rows = powerRows epoch (snapshots epoch).rows) :
      PowerChange w l (w.store l.input epoch rows).1
  | prune {absolute : ℤ} (hfloor : l.input.absoluteFloor = some absolute) :
      PowerChange w l { w with db := w.db.pruneVotingPowerHistoryBefore absolute }
  | project (hprojects : l.projects = true) :
      PowerChange w l
        { w with db := w.db.denormalizeDrepVotingPower l.input.currentEpoch, due := false }
  | stamp : PowerChange w l { w with db := w.db.stampCounts l.input.currentEpoch l.pairs }

theorem powerChange_of_step (h : powerSyncStep snapshots how w l = (w', l')) :
    PowerChange snapshots w l w' := by
  cases how with
  | fails =>
    obtain ⟨rfl, -⟩ := Prod.mk.inj h
    exact .same
  | succeeds answer =>
    obtain rfl : _ = w' := congrArg Prod.fst h
    dsimp only [powerSyncStep]
    cases l with
    | started input dreps => exact .read
    | fetching input dreps toFetch fetched added =>
      cases toFetch with
      | nil => exact .same
      | cons epoch rest =>
        dsimp only [PowerSyncProc.next]
        cases hfetch : fetchAnswer (snapshots epoch) epoch answer with
        | none => exact .same
        | some rows => exact .store List.mem_cons_self (fetchAnswer_cases hfetch)
    | pruning input dreps fetched added =>
      dsimp only [PowerSyncProc.next]
      cases hfloor : input.absoluteFloor with
      | none => exact .same
      | some absolute => exact .prune hfloor
    | projecting input dreps fetched added =>
      dsimp only [PowerSyncProc.next]
      split
      · rename_i hrecent
        exact .project hrecent
      · exact .same
    | observing input dreps => exact .same
    | stamping input dreps pairs => exact .stamp
    | finished input dreps => exact .same
    | failed input => exact .same

theorem input_powerSyncStep (h : powerSyncStep snapshots how w l = (w', l')) :
    l'.input = l.input := by
  have hafter : ∀ (input : PowerSyncInput) dreps,
      (PowerSyncProc.afterProjection input dreps).input = input := by
    intro input dreps
    unfold PowerSyncProc.afterProjection
    split <;> rfl
  cases how with
  | fails =>
    obtain ⟨-, rfl⟩ := Prod.mk.inj h
    rfl
  | succeeds answer =>
    obtain rfl : _ = l' := congrArg Prod.snd h
    dsimp only [powerSyncStep]
    cases l with
    | fetching input dreps toFetch fetched added =>
      cases toFetch with
      | nil =>
        dsimp only [PowerSyncProc.next, PowerSyncProc.afterFetch]
        split <;> rfl
      | cons epoch rest =>
        dsimp only [PowerSyncProc.next]
        split <;> rfl
    | projecting input dreps fetched added =>
      dsimp only [PowerSyncProc.next]
      split <;> exact hafter input dreps
    | observing input dreps =>
      dsimp only [PowerSyncProc.next]
      split <;> rfl
    | started | pruning | stamping | finished | failed => rfl

/-! ### The snapshots -/

theorem distinct_amount {epoch : ℤ} {amount' : String}
    (h : ⟨drepId, some amount⟩ ∈ (snapshots epoch).rows)
    (h' : ⟨drepId, some amount'⟩ ∈ (snapshots epoch).rows) : amount = amount' := by
  have hrow : (⟨drepId, some amount⟩ : DrepVotingPowerHistoryRow) = ⟨drepId, some amount'⟩ :=
    Table.eq_of_key (snapshots epoch).distinct h h' rfl
  exact Option.some.inj (congrArg DrepVotingPowerHistoryRow.amount hrow)

theorem exists_row_insert_other {db : PowerDb} {rows : List VotingPowerHistoryRow}
    {row : VotingPowerHistoryRow} (h : ∀ r ∈ rows, r.epoch ≠ row.epoch) :
    (∃ r ∈ (db.insertVotingPowerHistory rows).history.rows, r.toVotingPowerHistoryRow = row) ↔
      ∃ r ∈ db.history.rows, r.toVotingPowerHistoryRow = row := by
  constructor
  · rintro ⟨r, hr, rfl⟩
    rcases PowerDb.mem_insertVotingPowerHistory hr with hmem | ⟨hmem, -⟩
    · exact ⟨r, hmem, rfl⟩
    · exact absurd rfl (h _ hmem)
  · rintro ⟨r, hr, rfl⟩
    exact ⟨r, PowerDb.mem_insertVotingPowerHistory_of_mem hr, rfl⟩

theorem holdsSnapshots_iff {db : PowerDb} : db.HoldsSnapshots snapshots ↔
    ∀ epoch, (∀ row : VotingPowerHistoryRow, row.epoch = epoch →
        ¬∃ r ∈ db.history.rows, r.toVotingPowerHistoryRow = row) ∨
      ∀ row : VotingPowerHistoryRow, row.epoch = epoch →
        ((∃ r ∈ db.history.rows, r.toVotingPowerHistoryRow = row) ↔
          ⟨row.drepId, some row.amount⟩ ∈ (snapshots epoch).rows) := by
  refine forall_congr' fun epoch => or_congr ?_ ?_
  · constructor
    · rintro h _ rfl ⟨r, hr, rfl⟩
      exact h ⟨r, hr, rfl⟩
    · rintro h ⟨r, hr, rfl⟩
      exact h _ rfl ⟨r, hr, rfl⟩
  · constructor
    · rintro h ⟨drepId, _, amount⟩ rfl
      rw [← h drepId amount, db.exists_row_iff]
    · intro h drepId amount
      rw [← h ⟨drepId, epoch, amount⟩ rfl, db.exists_row_iff]

theorem holdsSnapshots_congr {db db' : PowerDb} (h : db.HoldsSnapshots snapshots)
    (hrows : ∀ row : VotingPowerHistoryRow,
      (∃ r ∈ db'.history.rows, r.toVotingPowerHistoryRow = row) ↔
        ∃ r ∈ db.history.rows, r.toVotingPowerHistoryRow = row) :
    db'.HoldsSnapshots snapshots := by
  rw [holdsSnapshots_iff] at h ⊢
  simpa only [hrows] using h

theorem holdsSnapshots_insert {db : PowerDb} (h : db.HoldsSnapshots snapshots) (epoch : ℤ) :
    (db.insertVotingPowerHistory (powerRows epoch (snapshots epoch).rows)).HoldsSnapshots
      snapshots := by
  rw [holdsSnapshots_iff] at h ⊢
  intro e
  by_cases he : e = epoch
  · subst he
    -- a row of the epoch that was there says what the snapshot says
    have hold : ∀ r ∈ db.history.rows, r.epoch = e →
        ⟨r.drepId, some r.amount⟩ ∈ (snapshots e).rows := by
      intro r hr hepoch
      rcases h e with hnone | hall
      · exact absurd ⟨r, hr, rfl⟩ (hnone _ hepoch)
      · exact (hall _ hepoch).mp ⟨r, hr, rfl⟩
    have hnew : ∀ r ∈ (db.insertVotingPowerHistory
        (powerRows e (snapshots e).rows)).history.rows, r.epoch = e →
          ⟨r.drepId, some r.amount⟩ ∈ (snapshots e).rows := by
      intro r hr hepoch
      rcases PowerDb.mem_insertVotingPowerHistory hr with hmem | ⟨hmem, -⟩
      · exact hold r hmem hepoch
      · exact (mem_powerRows.mp hmem).2
    have held : ∀ row ∈ powerRows e (snapshots e).rows, ∃ r ∈ (db.insertVotingPowerHistory
        (powerRows e (snapshots e).rows)).history.rows,
          r.drepId = row.drepId ∧ r.epoch = row.epoch :=
      fun row => PowerDb.held_insertVotingPowerHistory
    refine .inr fun row hrow => ⟨?_, fun hmem => ?_⟩
    · rintro ⟨r, hr, rfl⟩
      exact hnew r hr hrow
    · obtain ⟨r, hr, hid, hepoch⟩ :=
        held row (mem_powerRows.mpr ⟨hrow, hmem⟩)
      have hamount : r.amount = row.amount :=
        distinct_amount (hid ▸ hnew r hr (hepoch.trans hrow)) hmem
      refine ⟨r, hr, ?_⟩
      obtain ⟨⟨drepId, epoch, amount⟩, count⟩ := r
      obtain ⟨drepId', epoch', amount'⟩ := row
      obtain rfl : drepId = drepId' := hid
      obtain rfl : epoch = epoch' := hepoch
      obtain rfl : amount = amount' := hamount
      rfl
  · have hother : ∀ row : VotingPowerHistoryRow, row.epoch = e →
        ∀ r ∈ powerRows epoch (snapshots epoch).rows, r.epoch ≠ row.epoch := by
      intro row hrow r hr hsame
      exact he (hrow.symm.trans (hsame.symm.trans (mem_powerRows.mp hr).1))
    refine (h e).imp (fun hnone row hrow => ?_) fun hall row hrow => ?_
    · rw [exists_row_insert_other (hother row hrow)]
      exact hnone row hrow
    · rw [exists_row_insert_other (hother row hrow)]
      exact hall row hrow

theorem holdsSnapshots_prune {db : PowerDb} (h : db.HoldsSnapshots snapshots) (absolute : ℤ) :
    (db.pruneVotingPowerHistoryBefore absolute).HoldsSnapshots snapshots := by
  have hrow : ∀ row : VotingPowerHistoryRow,
      (∃ r ∈ (db.pruneVotingPowerHistoryBefore absolute).history.rows,
        r.toVotingPowerHistoryRow = row) ↔
          absolute ≤ row.epoch ∧ ∃ r ∈ db.history.rows, r.toVotingPowerHistoryRow = row := by
    intro row
    constructor
    · rintro ⟨r, hr, rfl⟩
      obtain ⟨hmem, hle⟩ := PowerDb.mem_pruneVotingPowerHistoryBefore.mp hr
      exact ⟨hle, r, hmem, rfl⟩
    · rintro ⟨hle, r, hr, rfl⟩
      exact ⟨r, PowerDb.mem_pruneVotingPowerHistoryBefore.mpr ⟨hr, hle⟩, rfl⟩
  rw [holdsSnapshots_iff] at h ⊢
  intro epoch
  by_cases hle : absolute ≤ epoch
  · refine (h epoch).imp (fun hnone row hepoch => ?_) fun hall row hepoch => ?_
    · rw [hrow]
      exact fun hthere => hnone row hepoch hthere.2
    · rw [hrow, and_iff_right (hepoch ▸ hle)]
      exact hall row hepoch
  · refine .inl fun row hepoch => ?_
    rw [hrow]
    exact fun hthere => hle (hepoch ▸ hthere.1)

theorem holdsSnapshots_of_change (h : w.db.HoldsSnapshots snapshots)
    (hchange : PowerChange snapshots w l w') : w'.db.HoldsSnapshots snapshots := by
  cases hchange with
  | same => exact h
  | read => exact h
  | store hepoch hrows =>
    rcases hrows with rfl | rfl
    · exact h
    · exact holdsSnapshots_insert h _
  | prune hfloor => exact holdsSnapshots_prune h _
  | project hprojects => exact holdsSnapshots_congr h fun _ => Iff.rfl
  | stamp => exact holdsSnapshots_congr h PowerDb.exists_row_stampCounts

/-! ### Where a run stands -/

namespace PowerSyncProc

def fetched : PowerSyncProc → List ℤ
  | .fetching _ _ _ fetched _ | .pruning _ _ fetched _ | .projecting _ _ fetched _ => fetched
  | _ => []

/-- Whether it has read the stored epochs and goes on. -/
def hasRead : PowerSyncProc → Bool
  | .started _ _ | .failed _ => false
  | _ => true

structure Sensible (floor : ℤ) (w : PowerWorld) (l : PowerSyncProc) : Prop where
  floor : ∀ absolute ∈ l.input.floorEpoch, absolute = floor
  latest : l.hasRead = true → ∃ latest ∈ w.latest, l.input.currentEpoch ≤ latest
  window : ∀ epoch ∈ l.toFetch, epoch ≤ l.input.currentEpoch
  recent : l.added = true → l.fetched.any l.input.recent = true
  pairs : ∀ drepId count, l.pairs.lookup drepId = some count →
    l.input.observed.lookup drepId = some count

end PowerSyncProc

/-- The rows are of epochs up to the latest. -/
def PowerWorld.EpochsBounded (w : PowerWorld) : Prop :=
  ∀ r ∈ w.db.history.rows, ∃ latest ∈ w.latest, r.epoch ≤ latest

variable {input : PowerSyncInput}

theorem le_of_mem_window {epoch : ℤ} (h : epoch ∈ input.window) : epoch ≤ input.currentEpoch := by
  obtain ⟨i, hi, rfl⟩ := List.mem_map.mp h
  have hlt : i < (input.currentEpoch - input.floor + 1).toNat := List.mem_range.mp hi
  omega

theorem le_of_mem_toFetch {stored : List ℤ} {epoch : ℤ} (h : epoch ∈ input.toFetch stored) :
    epoch ≤ input.currentEpoch := by
  have hmem := List.mem_reverse.mp (List.mem_of_mem_take h)
  exact le_of_mem_window (List.mem_of_mem_filter hmem)

theorem lookup_openCounts {db : PowerDb} {epoch : ℤ} {observed : List (String × ℤ)} {count : ℤ}
    (h : (db.openCounts epoch observed).lookup drepId = some count) :
    observed.lookup drepId = some count := by
  obtain ⟨r, -, hr⟩ := List.mem_filterMap.mp (mem_of_lookup h)
  obtain ⟨observedCount, hobserved, hpair⟩ := Option.map_eq_some_iff.mp hr
  cases hpair
  exact hobserved

theorem latest_of_change (hchange : PowerChange snapshots w l w') {latest : ℤ}
    (h : w.latest = some latest) : ∃ latest', w'.latest = some latest' ∧ latest ≤ latest' := by
  cases hchange with
  | read =>
    refine ⟨_, rfl, ?_⟩
    rw [h]
    exact le_max_right _ _
  | same | store | prune | project | stamp => exact ⟨latest, h, le_rfl⟩

theorem PowerSyncProc.Sensible.mono {m : PowerSyncProc} (hm : m.Sensible floor w)
    (hlatest : ∀ latest, w.latest = some latest → ∃ latest', w'.latest = some latest' ∧
      latest ≤ latest') : m.Sensible floor w' := by
  refine { hm with latest := fun hread => ?_ }
  obtain ⟨latest, hsome, hle⟩ := hm.latest hread
  obtain ⟨latest', hsome', hle'⟩ := hlatest latest hsome
  exact ⟨latest', hsome', le_trans hle hle'⟩

theorem fetched_afterFetch (input : PowerSyncInput) (dreps : List String) (fetched : List ℤ)
    (added : Bool) :
    let l := PowerSyncProc.afterFetch input dreps fetched added
    l.toFetch = [] ∧ l.added = added ∧ l.fetched = fetched ∧ l.pairs = [] := by
  unfold PowerSyncProc.afterFetch
  split <;> exact ⟨rfl, rfl, rfl, rfl⟩

theorem added_afterProjection (input : PowerSyncInput) (dreps : List String) :
    let l := PowerSyncProc.afterProjection input dreps
    l.toFetch = [] ∧ l.added = false ∧ l.pairs = [] := by
  unfold PowerSyncProc.afterProjection
  split <;> exact ⟨rfl, rfl, rfl⟩

theorem sensible_of_step (hl : l.Sensible floor w)
    (hstep : powerSyncStep snapshots how w l = (w', l')) : l'.Sensible floor w' := by
  have hinput := input_powerSyncStep hstep
  have hchange := powerChange_of_step hstep
  have hfloor : ∀ absolute ∈ l'.input.floorEpoch, absolute = floor := hinput ▸ hl.floor
  have hlatest : l.hasRead = true → ∃ latest ∈ w'.latest, l'.input.currentEpoch ≤ latest := by
    intro hread
    rw [hinput]
    exact (hl.mono fun latest => latest_of_change hchange).latest hread
  -- what is left where nothing is to be fetched, projected or stamped
  have hdone : (l'.hasRead = true → l.hasRead = true) → l'.toFetch = [] → l'.added = false →
      l'.pairs = [] → l'.Sensible floor w' := by
    intro hread hfetch hadded hpairs
    refine ⟨hfloor, fun h => hlatest (hread h), ?_, ?_, ?_⟩
    · rw [hfetch]
      exact nofun
    · rw [hadded]
      exact nofun
    · rw [hpairs]
      exact nofun
  cases how with
  | fails =>
    cases hstep
    exact hdone nofun rfl rfl rfl
  | succeeds answer =>
    obtain ⟨hw, hl'⟩ := Prod.mk.inj hstep
    cases l with
    | started input dreps =>
      obtain rfl := hl'
      obtain rfl := hw
      refine ⟨hfloor, fun _ => ⟨_, rfl, ?_⟩, fun _ => le_of_mem_toFetch, nofun, hl.pairs⟩
      cases w.latest with
      | none => exact le_rfl
      | some latest => exact le_max_left _ _
    | fetching input dreps toFetch fetched added =>
      cases toFetch with
      | nil =>
        obtain ⟨hfetch, hadded, hfetched, hpairs⟩ :=
          fetched_afterFetch input dreps fetched added
        obtain rfl : PowerSyncProc.afterFetch input dreps fetched added = l' := hl'
        refine ⟨hfloor, fun _ => hlatest rfl, ?_, ?_, ?_⟩
        · rw [hfetch]
          exact nofun
        · rw [hadded, hfetched, hinput]
          exact hl.recent
        · rw [hpairs]
          exact nofun
      | cons epoch rest =>
        dsimp only [PowerSyncProc.next] at hl'
        cases hfetch : fetchAnswer (snapshots epoch) epoch answer with
        | none =>
          rw [hfetch] at hl'
          obtain rfl := hl'
          exact hdone nofun rfl rfl rfl
        | some rows =>
          rw [hfetch] at hl'
          obtain rfl := hl'
          refine ⟨hfloor, fun _ => hlatest rfl, fun e he =>
            hl.window e (List.mem_cons_of_mem epoch he), fun hadded => ?_, hl.pairs⟩
          -- rows that were new before, or now
          refine List.any_append.trans (Bool.or_eq_true_iff.mpr ?_)
          rcases Bool.or_eq_true_iff.mp hadded with hbefore | hnow
          · exact .inl (hl.recent hbefore)
          · refine .inr ?_
            rw [List.any_cons, List.any_nil, Bool.or_false]
            exact ((Bool.and_eq_true_iff.mp hnow).1)
    | pruning input dreps fetched added =>
      obtain rfl := hl'
      exact ⟨hfloor, fun _ => hlatest rfl, nofun, hl.recent,
        hl.pairs⟩
    | projecting input dreps fetched added =>
      have hl' : PowerSyncProc.afterProjection input dreps = l' := by
        dsimp only [PowerSyncProc.next] at hl'
        split at hl' <;> exact hl'
      obtain rfl := hl'
      obtain ⟨hfetch, hadded, hpairs⟩ := added_afterProjection input dreps
      exact hdone (fun _ => rfl) hfetch hadded hpairs
    | observing input dreps =>
      dsimp only [PowerSyncProc.next] at hl'
      split at hl'
      · obtain rfl := hl'
        exact hdone (fun _ => rfl) rfl rfl rfl
      · obtain rfl := hl'
        exact ⟨hfloor, fun _ => hlatest rfl, nofun,
          nofun, fun _ _ => lookup_openCounts⟩
    | stamping input dreps pairs | finished input dreps =>
      obtain rfl := hl'
      exact hdone (fun _ => rfl) rfl rfl rfl
    | failed input =>
      obtain rfl := hl'
      exact hdone (fun h => h) rfl rfl rfl

/-! ### Every run -/

theorem epochsBounded_of_change (h : w.EpochsBounded) (hl : l.Sensible floor w)
    (hchange : PowerChange snapshots w l w') : w'.EpochsBounded := by
  have hlatest : ∀ r : PowerHistoryRow, (∃ latest ∈ w.latest, r.epoch ≤ latest) →
      ∃ latest' ∈ w'.latest, r.epoch ≤ latest' := by
    rintro r ⟨latest, hsome, hle⟩
    obtain ⟨latest', hsome', hle'⟩ := latest_of_change hchange hsome
    exact ⟨latest', hsome', le_trans hle hle'⟩
  intro r hr
  refine hlatest r ?_
  cases hchange with
  | same => exact h r hr
  | read => exact h r hr
  | @store epoch rows hepoch hrows =>
    rcases PowerDb.mem_insertVotingPowerHistory hr with hmem | ⟨hmem, -⟩
    · exact h r hmem
    · -- the epoch is one of those to fetch
      have hread : l.hasRead = true := by
        cases l with
        | started | failed => cases hepoch
        | _ => rfl
      obtain ⟨latest, hsome, hle⟩ := hl.latest hread
      refine ⟨latest, hsome, ?_⟩
      have hrow : r.epoch = epoch := by
        rcases hrows with rfl | rfl
        · cases hmem
        · exact (mem_powerRows.mp hmem).1
      exact hrow ▸ le_trans (hl.window epoch hepoch) hle
  | prune hfloor => exact h r (PowerDb.mem_pruneVotingPowerHistoryBefore.mp hr).1
  | project hprojects => exact h r hr
  | stamp =>
    obtain ⟨r₀, hr₀, hrow⟩ := (PowerDb.exists_row_stampCounts _).mp ⟨r, hr, rfl⟩
    obtain ⟨latest, hsome, hle⟩ := h r₀ hr₀
    have hepoch : r₀.epoch = r.epoch := congrArg VotingPowerHistoryRow.epoch hrow
    exact ⟨latest, hsome, hepoch ▸ hle⟩

variable (snapshots floor) in
/-- The rows of each epoch, and where each run stands. -/
def powerSound (allowed : PowerWorld → PowerSyncProc → PowerOutcome → Prop)
    (admits : PowerWorld → String → Prop) :
    (powerHistoryProgram snapshots floor allowed admits).Sound PowerHistoryInit where
  inv w := w.db.HoldsSnapshots snapshots ∧ w.EpochsBounded
  asserts w l := l.Sensible floor w
  apart _ _ := True
  symm _ _ _ := trivial
  init w := by
    rintro ⟨hrows, -, -⟩
    refine ⟨fun epoch => .inl ?_, ?_⟩
    · rintro ⟨r, hr, -⟩
      cases hrows ▸ hr
    · intro r hr
      cases hrows ▸ hr
  start w l := by
    rintro - ⟨input, hfloor, -, rfl⟩
    exact ⟨⟨hfloor, nofun, nofun,
      nofun, nofun⟩,
      fun _ _ => trivial⟩
  step w l w' l' := by
    rintro ⟨hholds, hbounded⟩ hl ⟨-, how, -, hstep⟩
    have hchange := powerChange_of_step hstep
    exact ⟨⟨holdsSnapshots_of_change hholds hchange, epochsBounded_of_change hbounded hl hchange⟩,
      sensible_of_step hl hstep⟩
  noninterference w l w' l' m := by
    rintro - - hm - ⟨-, how, -, hstep⟩
    exact ⟨hm.mono fun latest => latest_of_change (powerChange_of_step hstep), trivial⟩
  env w w' := by
    rintro hinv ⟨drepId, -, rfl⟩
    exact ⟨hinv, fun m hm => hm.mono fun latest h => ⟨latest, h, le_rfl⟩⟩

theorem PowerDb.Keeps.of_history {db db' : PowerDb} (h : db'.history = db.history) :
    db.Keeps floor db' := by
  refine ⟨fun r hr _ => ⟨r, h ▸ hr, rfl⟩, fun r hr r' hr' hkey _ => ?_⟩
  rw [db.history.eq_of_key (h ▸ hr') hr hkey]

theorem keeps_of_change (hl : l.Sensible floor w) (hchange : PowerChange snapshots w l w') :
    w.db.Keeps floor w'.db := by
  cases hchange with
  | same | read | project hprojects => exact .of_history rfl
  | @store epoch rows hepoch hrows =>
    refine ⟨fun r hr _ => ⟨r, PowerDb.mem_insertVotingPowerHistory_of_mem hr, rfl⟩,
      fun r hr r' hr' hkey _ => ?_⟩
    have hrow : r' = r := (w.db.insertVotingPowerHistory rows).history.eq_of_key hr'
      (PowerDb.mem_insertVotingPowerHistory_of_mem hr) hkey
    rw [hrow]
  | @prune absolute hfloor =>
    refine ⟨fun r hr hle => ?_, fun r hr r' hr' hkey _ => ?_⟩
    · have habsolute : absolute = floor := by
        refine hl.floor absolute ?_
        exact (Option.filter_eq_some_iff.mp hfloor).1
      exact ⟨r, PowerDb.mem_pruneVotingPowerHistoryBefore.mpr ⟨hr, habsolute ▸ hle⟩, rfl⟩
    · have hmem := (PowerDb.mem_pruneVotingPowerHistoryBefore.mp hr').1
      rw [w.db.history.eq_of_key hmem hr hkey]
  | stamp =>
    refine ⟨fun r hr _ => (PowerDb.exists_row_stampCounts _).mpr ⟨r, hr, rfl⟩,
      fun r hr r' hr' hkey hsome => ?_⟩
    rcases Table.mem_updateWhere.mp hr' with ⟨hmem, -⟩ | ⟨r₀, hmem, hopen, rfl⟩
    · rw [w.db.history.eq_of_key hmem hr hkey]
    · -- only a row without a count is stamped
      obtain rfl : r₀ = r := w.db.history.eq_of_key hmem hr hkey
      have hnone : r₀.delegatorCount.isNone = true :=
        (Bool.and_eq_true_iff.mp (Bool.and_eq_true_iff.mp hopen).1).2
      rw [Option.isNone_iff_eq_none.mp hnone] at hsome
      cases hsome

theorem count_of_change (hl : l.Sensible floor w) (hchange : PowerChange snapshots w l w')
    (hr : r ∈ w'.db.history.rows) {count : ℤ} (hcount : r.delegatorCount = some count) :
    (∃ r₀ ∈ w.db.history.rows, r₀.key = r.key ∧ r₀.delegatorCount = some count) ∨
      l.input.currentEpoch = r.epoch ∧ l.input.observed.lookup r.drepId = some count := by
  cases hchange with
  | same | read | project hprojects => exact .inl ⟨r, hr, rfl, hcount⟩
  | store hepoch hrows =>
    rcases PowerDb.mem_insertVotingPowerHistory hr with hmem | ⟨-, hnone⟩
    · exact .inl ⟨r, hmem, rfl, hcount⟩
    · cases hcount.symm.trans hnone
  | prune hfloor =>
    exact .inl ⟨r, (PowerDb.mem_pruneVotingPowerHistoryBefore.mp hr).1, rfl, hcount⟩
  | stamp =>
    rcases Table.mem_updateWhere.mp hr with ⟨hmem, -⟩ | ⟨r₀, hmem, hopen, rfl⟩
    · exact .inl ⟨r, hmem, rfl, hcount⟩
    · have hepoch : (r₀.epoch == l.input.currentEpoch) = true :=
        (Bool.and_eq_true_iff.mp (Bool.and_eq_true_iff.mp hopen).1).1
      exact .inr ⟨(beq_iff_eq.mp hepoch).symm, hl.pairs _ _ hcount⟩

section

variable {ι : Type*} [DecidableEq ι] {s s' : Interleaved PowerWorld PowerSyncProc ι}
  {allowed : PowerWorld → PowerSyncProc → PowerOutcome → Prop} {admits : PowerWorld → String → Prop}

theorem keeps_of_moves
    (h : ((powerHistoryProgram snapshots floor allowed admits).system ι PowerHistoryInit).Reachable
      s) {e : Move ι} (hmoves : (powerHistoryProgram snapshots floor allowed admits).Moves s e s') :
    s.shared.db.Keeps floor s'.shared.db := by
  have hholds := (powerSound snapshots floor allowed admits).holds h
  rcases hmoves with ⟨hnew, hstart⟩ | ⟨hproc, -, how, -, hstep⟩ | ⟨drepId, -, rfl⟩
  · exact .of_history rfl
  · exact keeps_of_change (hholds.asserts _ _ hproc) (powerChange_of_step hstep)
  · exact .of_history rfl

theorem input_of_moves {e : Move ι}
    (hmoves : (powerHistoryProgram snapshots floor allowed admits).Moves s e s') {i : ι}
    {l : PowerSyncProc} (hi : s.procs i = some l) :
    ∃ l', s'.procs i = some l' ∧ l'.input = l.input := by
  rcases hmoves with ⟨hnew, -⟩ | ⟨hproc, -, how, -, hstep⟩ | henv
  · rename_i j m
    have hne : i ≠ j := by
      rintro rfl
      cases hi.symm.trans hnew
    exact ⟨l, (Function.update_of_ne hne _ _).trans hi, rfl⟩
  · rename_i j m m'
    by_cases hij : i = j
    · subst hij
      cases hproc.symm.trans hi
      exact ⟨m', Function.update_self _ _ _, input_powerSyncStep hstep⟩
    · exact ⟨l, (Function.update_of_ne hij _ _).trans hi, rfl⟩
  · exact ⟨l, hi, rfl⟩

theorem countsObserved_of_reachable
    (h : ((powerHistoryProgram snapshots floor allowed admits).system ι PowerHistoryInit).Reachable
      s) : s.CountsObserved := by
  induction h with
  | init h =>
    intro r hr
    cases h.1.1 ▸ hr
  | @step s s' e hs hmoves ih =>
    have hholds := (powerSound snapshots floor allowed admits).holds hs
    -- a count that was there: who observed it is still there
    have hold : ∀ {r r₀ : PowerHistoryRow} {count : ℤ}, r₀ ∈ s.shared.db.history.rows →
        r₀.key = r.key → r₀.delegatorCount = some count → ∃ i l, s'.procs i = some l ∧
          l.input.currentEpoch = r.epoch ∧ l.input.observed.lookup r.drepId = some count := by
      intro r r₀ count hmem hkey hcount
      obtain ⟨i, l, hi, hepoch, hobserved⟩ := ih r₀ hmem count hcount
      obtain ⟨l', hi', hinput⟩ := input_of_moves hmoves hi
      obtain ⟨hid, hsame⟩ := Prod.mk.inj hkey
      exact ⟨i, l', hi', hinput ▸ hepoch.trans hsame, hinput ▸ hid ▸ hobserved⟩
    intro r hr count hcount
    rcases hmoves with ⟨hnew, hstart⟩ | ⟨hproc, hflight, how, hallowed, hstep⟩ | ⟨drepId, -, rfl⟩
    · exact hold hr rfl hcount
    · rename_i i l l'
      rcases count_of_change (hholds.asserts _ _ hproc) (powerChange_of_step hstep) hr hcount with
        ⟨r₀, hmem, hkey, hsome⟩ | ⟨hepoch, hobserved⟩
      · exact hold hmem hkey hsome
      · have hinput := input_powerSyncStep hstep
        exact ⟨i, l', Function.update_self _ _ _, hinput ▸ hepoch, hinput ▸ hobserved⟩
    · exact hold hr rfl hcount

end

/-! ### The projection -/

/-- Where the latest epoch and the one before are stored, they are projected or still due. -/
def PowerWorld.ProjectionHolds (w : PowerWorld) : Prop :=
  ∀ latest ∈ w.latest, w.db.Stored latest → w.db.Stored (latest - 1) →
    w.due = true ∨ w.db.Projected latest

theorem stored_iff {db : PowerDb} {epoch : ℤ} : db.Stored epoch ↔
    ∃ row : VotingPowerHistoryRow, row.epoch = epoch ∧
      ∃ r ∈ db.history.rows, r.toVotingPowerHistoryRow = row := by
  constructor
  · rintro ⟨r, hr, rfl⟩
    exact ⟨_, rfl, r, hr, rfl⟩
  · rintro ⟨_, rfl, r, hr, rfl⟩
    exact ⟨r, hr, rfl⟩

theorem projected_congr {db db' : PowerDb} {epoch : ℤ} (hdreps : db'.dreps = db.dreps)
    (hrows : ∀ row : VotingPowerHistoryRow, epoch - 1 ≤ row.epoch →
      ((∃ r ∈ db'.history.rows, r.toVotingPowerHistoryRow = row) ↔
        ∃ r ∈ db.history.rows, r.toVotingPowerHistoryRow = row))
    (h : db.Projected epoch) : db'.Projected epoch := by
  intro d hd
  obtain ⟨hsnapshot, hprev⟩ := h d (hdreps ▸ hd)
  rw [hsnapshot, hprev]
  constructor <;> exact (PowerDb.amountAt_congr (fun row hrow => hrows row (by omega)) _).symm

theorem projectionHolds_congr (h : w.ProjectionHolds) (hlatest : w'.latest = w.latest)
    (hdue : w.due = true → w'.due = true) (hdreps : w'.db.dreps = w.db.dreps)
    (hrows : ∀ latest ∈ w.latest, w'.db.Stored (latest - 1) → ∀ row : VotingPowerHistoryRow,
      latest - 1 ≤ row.epoch →
        ((∃ r ∈ w'.db.history.rows, r.toVotingPowerHistoryRow = row) ↔
          ∃ r ∈ w.db.history.rows, r.toVotingPowerHistoryRow = row)) :
    w'.ProjectionHolds := by
  intro latest hsome hstored hbefore
  have hsome' : latest ∈ w.latest := hlatest ▸ hsome
  have hsame := hrows latest hsome' hbefore
  have hback : ∀ epoch, latest - 1 ≤ epoch → w'.db.Stored epoch → w.db.Stored epoch := by
    intro epoch hle hthere
    obtain ⟨row, rfl, hrow⟩ := stored_iff.mp hthere
    exact stored_iff.mpr ⟨row, rfl, (hsame row hle).mp hrow⟩
  refine (h latest hsome' (hback _ (by omega) hstored) (hback _ le_rfl hbefore)).imp hdue ?_
  exact projected_congr hdreps hsame

theorem projectionHolds_read (h : w.ProjectionHolds) (hbounded : w.EpochsBounded) (epoch : ℤ) :
    PowerWorld.ProjectionHolds { w with latest := some (w.latest.elim epoch (max epoch)) } := by
  rintro _ ⟨rfl⟩ ⟨r, hr, hepoch⟩ hbefore
  obtain ⟨latest, hsome, hle⟩ := hbounded r hr
  have helim : w.latest.elim epoch (max epoch) = max epoch latest := by
    rw [Option.mem_def.mp hsome]
    rfl
  have hmax : max epoch latest = latest := by
    rw [helim] at hepoch
    exact le_antisymm (hepoch ▸ hle) (le_max_right _ _)
  rw [helim, hmax] at hbefore hepoch ⊢
  exact h latest hsome ⟨r, hr, hepoch⟩ hbefore

theorem projectionHolds_store (h : w.ProjectionHolds) {epoch : ℤ}
    {rows : List VotingPowerHistoryRow} (hle : ∀ latest ∈ w.latest, input.currentEpoch ≤ latest)
    (hrows : ∀ r ∈ rows, r.epoch = epoch) : (w.store input epoch rows).1.ProjectionHolds := by
  by_cases hadded : (w.store input epoch rows).2 = true
  · exact fun _ _ _ _ => .inl (Bool.or_eq_true_iff.mpr (.inr hadded))
  · refine projectionHolds_congr h rfl (fun hdue => Bool.or_eq_true_iff.mpr (.inl hdue)) rfl
      fun latest hsome _ row hrow => ?_
    by_cases hepoch : latest - 1 ≤ epoch
    · -- a recent epoch without a new row
      have hrecent : input.recent epoch = true :=
        decide_eq_true (by have := hle latest hsome; omega)
      have hheld : ∀ r ∈ rows, (r.drepId, r.epoch) ∈ w.db.history.rows.map PowerHistoryRow.key := by
        intro r hr
        by_contra hnew
        refine hadded (Bool.and_eq_true_iff.mpr ⟨hrecent, List.any_eq_true.mpr ⟨r, hr, ?_⟩⟩)
        rw [Bool.not_eq_true', List.contains_eq_mem, decide_eq_false_iff_not]
        exact hnew
      have hsame : (w.store input epoch rows).1.db = w.db :=
        PowerDb.insertVotingPowerHistory_of_held hheld
      rw [hsame]
    · refine exists_row_insert_other fun r hr heq => hepoch ?_
      rw [← hrows r hr, heq]
      exact hrow

theorem projectionHolds_prune (h : w.ProjectionHolds) (absolute : ℤ) :
    PowerWorld.ProjectionHolds
      { w with db := w.db.pruneVotingPowerHistoryBefore absolute } := by
  refine projectionHolds_congr h rfl id rfl fun latest _ hbefore row hrow => ?_
  -- a row of the epoch before was kept, and so are those behind it
  obtain ⟨r₀, hr₀, hepoch⟩ := hbefore
  have hle : absolute ≤ latest - 1 := hepoch ▸ (PowerDb.mem_pruneVotingPowerHistoryBefore.mp hr₀).2
  constructor
  · rintro ⟨r, hr, rfl⟩
    exact ⟨r, (PowerDb.mem_pruneVotingPowerHistoryBefore.mp hr).1, rfl⟩
  · rintro ⟨r, hr, rfl⟩
    exact ⟨r, PowerDb.mem_pruneVotingPowerHistoryBefore.mpr ⟨hr, le_trans hle hrow⟩, rfl⟩

theorem projected_denormalize (db : PowerDb) (epoch : ℤ) :
    (db.denormalizeDrepVotingPower epoch).Projected epoch := by
  intro d hd
  rcases Table.mem_updateWhere.mp hd with ⟨-, hfalse⟩ | ⟨d₀, -, -, rfl⟩
  · exact nomatch hfalse
  · exact ⟨rfl, rfl⟩

theorem projectionHolds_project (hl : ∀ latest ∈ w.latest, l.input.currentEpoch ≤ latest)
    (hover : ∀ r ∈ w.db.history.rows, r.epoch ≤ l.input.currentEpoch) :
    PowerWorld.ProjectionHolds
      { w with db := w.db.denormalizeDrepVotingPower l.input.currentEpoch, due := false } := by
  rintro latest hsome ⟨r, hr, rfl⟩ -
  have hepoch : l.input.currentEpoch = r.epoch := le_antisymm (hl _ hsome) (hover r hr)
  exact .inr (hepoch ▸ projected_denormalize w.db l.input.currentEpoch)

theorem projectionHolds_of_change (h : w.ProjectionHolds) (hbounded : w.EpochsBounded)
    (hl : l.Sensible floor w) (hchange : PowerChange snapshots w l w')
    (hover : l.projects = true → ∀ r ∈ w.db.history.rows, r.epoch ≤ l.input.currentEpoch) :
    w'.ProjectionHolds := by
  have hlatest : l.hasRead = true → ∀ latest ∈ w.latest, l.input.currentEpoch ≤ latest := by
    intro hread latest hsome
    obtain ⟨latest', hsome', hle⟩ := hl.latest hread
    cases hsome'.symm.trans hsome
    exact hle
  cases hchange with
  | same => exact h
  | read => exact projectionHolds_read h hbounded _
  | @store epoch rows hepoch hrows =>
    refine projectionHolds_store h (hlatest ?_) fun r hr => ?_
    · cases l with
      | started | failed => cases hepoch
      | _ => rfl
    · rcases hrows with rfl | rfl
      · cases hr
      · exact (mem_powerRows.mp hr).1
  | prune hfloor => exact projectionHolds_prune h _
  | project hprojects =>
    refine projectionHolds_project (hlatest ?_) (hover hprojects)
    cases l with
    | started | failed => cases hprojects
    | _ => rfl
  | stamp =>
    exact projectionHolds_congr h rfl id rfl fun _ _ _ row _ => PowerDb.exists_row_stampCounts row

theorem projectionHolds_addDrep (h : w.ProjectionHolds) (hadmits : admitsUnstored w drepId) :
    (w.addDrep drepId).ProjectionHolds := by
  intro latest hsome hstored hbefore
  rcases hadmits with hdue | hunstored
  · exact .inl hdue
  · refine (h latest hsome hstored hbefore).imp_right fun hprojected d hd => ?_
    rcases KeyedTable.mem_insertOrIgnore.mp hd with hmem | ⟨rfl, -⟩
    · exact hprojected d hmem
    · have hnone : ∀ epoch, latest - 1 ≤ epoch → none = w.db.amountAt drepId epoch := by
        intro epoch hle
        cases hamount : w.db.amountAt drepId epoch with
        | none => rfl
        | some amount =>
          obtain ⟨r, hr, hid, rfl, -⟩ := PowerDb.amountAt_eq_some.mp hamount
          have hlt := hunstored latest hsome r hr hid
          omega
      exact ⟨hnone latest (by omega), hnone (latest - 1) le_rfl⟩

theorem due_of_step (hok : projectsStored snapshots w l how) (hl : l.Sensible floor w)
    (hstep : powerSyncStep snapshots how w l = (w', l')) (hdue : w'.due = true)
    (hnot : l'.added ≠ true) : w.due = true ∧ l.added ≠ true := by
  -- a run that has stored rows that are due is not interrupted
  have hgoes : w' = w → l.interrupted snapshots how = true → w.due = true ∧ l.added ≠ true := by
    rintro rfl hinterrupted
    refine ⟨hdue, fun hadded => ?_⟩
    cases (hok.1 hadded hdue).symm.trans hinterrupted
  cases how with
  | fails => exact hgoes (congrArg Prod.fst hstep).symm rfl
  | succeeds answer =>
    obtain ⟨hw, hl'⟩ := Prod.mk.inj hstep
    cases l with
    | started input dreps | observing | stamping | finished | failed =>
      obtain rfl := hw
      exact ⟨hdue, Bool.false_ne_true⟩
    | fetching input dreps toFetch fetched added =>
      cases toFetch with
      | nil =>
        obtain rfl := hw
        obtain rfl : PowerSyncProc.afterFetch input dreps fetched added = l' := hl'
        rw [(fetched_afterFetch input dreps fetched added).2.1] at hnot
        exact ⟨hdue, hnot⟩
      | cons epoch rest =>
        dsimp only [PowerSyncProc.next] at hw hl'
        cases hfetch : fetchAnswer (snapshots epoch) epoch answer with
        | none =>
          rw [hfetch] at hw
          exact hgoes hw.symm (Option.isNone_iff_eq_none.mpr hfetch)
        | some rows =>
          rw [hfetch] at hw hl'
          obtain rfl := hw
          obtain rfl := hl'
          refine ⟨(Bool.or_eq_true_iff.mp hdue).resolve_right fun h => ?_, fun h => ?_⟩
          · exact hnot (Bool.or_eq_true_iff.mpr (.inr h))
          · exact hnot (Bool.or_eq_true_iff.mpr (.inl h))
    | pruning input dreps fetched added =>
      obtain rfl := hw
      obtain rfl := hl'
      exact ⟨hdue, hnot⟩
    | projecting input dreps fetched added =>
      dsimp only [PowerSyncProc.next] at hw
      split at hw
      · obtain rfl := hw
        cases hdue
      · rename_i hrecent
        obtain rfl := hw
        exact ⟨hdue, fun hadded => hrecent (hl.recent hadded)⟩

theorem interrupted_of_projects {answer : PowerAnswer} (h : l.projects = true) :
    l.interrupted snapshots (.succeeds answer) = false := by
  cases l with
  | projecting => rfl
  | _ => cases h

theorem projectionHolds_of_step (hok : projectsStored snapshots w l how)
    (h : w.ProjectionHolds) (hbounded : w.EpochsBounded) (hl : l.Sensible floor w)
    (hstep : powerSyncStep snapshots how w l = (w', l')) : w'.ProjectionHolds := by
  cases how with
  | fails =>
    obtain rfl : w = w' := congrArg Prod.fst hstep
    exact h
  | succeeds answer =>
    exact projectionHolds_of_change h hbounded hl (powerChange_of_step hstep) fun hprojects =>
      hok.2 hprojects (interrupted_of_projects hprojects)

variable (snapshots floor) in
/-- Where the statements meet the condition, the projection is there or due besides. -/
def projectionSound : (powerHistoryProgram snapshots floor (projectsStored snapshots)
    admitsUnstored).Sound PowerHistoryInit where
  inv w := (w.db.HoldsSnapshots snapshots ∧ w.EpochsBounded) ∧ w.ProjectionHolds
  asserts w l := l.Sensible floor w
  apart _ _ := True
  symm _ _ _ := trivial
  init w hinit := by
    refine ⟨(powerSound snapshots floor (projectsStored snapshots) admitsUnstored).init w hinit,
      fun latest hsome => ?_⟩
    cases hsome.symm.trans hinit.2.1
  start w l hinv := (powerSound snapshots floor _ _).start w l hinv.1
  step w l w' l' := by
    rintro ⟨hinv, hprojection⟩ hl hmoves
    obtain ⟨hinv', hl'⟩ := (powerSound snapshots floor _ _).step w l w' l' hinv hl hmoves
    obtain ⟨-, how, hok, hstep⟩ := hmoves
    exact ⟨⟨hinv', projectionHolds_of_step hok hprojection hinv.2 hl hstep⟩, hl'⟩
  noninterference w l w' l' m hinv :=
    (powerSound snapshots floor _ _).noninterference w l w' l' m hinv.1
  env w w' := by
    rintro ⟨hinv, hprojection⟩ henv
    obtain ⟨hinv', hkeep⟩ := (powerSound snapshots floor _ _).env w w' hinv henv
    obtain ⟨drepId, hadmits, rfl⟩ := henv
    exact ⟨⟨hinv', projectionHolds_addDrep hprojection hadmits⟩, hkeep⟩

/-- **The history of voting power**: rows of an epoch are none or its snapshot, and stay; and in
runs that meet the condition, a finished run of the latest epoch has projected its amounts. -/
theorem powerHistory_of_reachable {ι : Type*} [DecidableEq ι]
    {s : Interleaved PowerWorld PowerSyncProc ι}
    (h : ((powerHistoryProgram snapshots floor (fun _ _ _ => True) fun _ _ => True).system ι
      PowerHistoryInit).Reachable s) :
    s.shared.db.HoldsSnapshots snapshots ∧ s.CountsObserved ∧
      (∀ e s', (powerHistoryProgram snapshots floor (fun _ _ _ => True) fun _ _ => True).Moves
        s e s' → s.shared.db.Keeps floor s'.shared.db) ∧
      (((powerHistoryProgram snapshots floor (projectsStored snapshots) admitsUnstored).system ι
        PowerHistoryInit).Reachable s → s.AllEnded → s.FinishedProjected) := by
  refine ⟨((powerSound snapshots floor _ _).holds h).inv.1, countsObserved_of_reachable h,
    fun e s' => keeps_of_moves h, ?_⟩
  intro h hended i input dreps hi hlatest hstored hbefore d hd _
  refine ((((projectionSound snapshots floor).holds h).inv.2 _ hlatest hstored
    hbefore).resolve_left fun hdue => ?_) d hd
  -- a projection that is due is owed by a run in flight
  obtain ⟨j, l, hj, hadded⟩ := (projectionSound snapshots floor).when.owed
    (fun w => w.due = true) (fun l => l.added = true)
    (fun w hinit hdue => Bool.false_ne_true (hinit.2.2.symm.trans hdue))
    (fun w l w' l' _ _ _ hl hmoves hdue hnot => by
      obtain ⟨-, how, hok, hstep⟩ := hmoves
      exact due_of_step hok hl hstep hdue hnot)
    (fun w w' _ _ henv hdue => by
      obtain ⟨drepId, -, rfl⟩ := henv
      exact hdue)
    (Program.reachable_none h) hdue
  cases l with
  | fetching | pruning | projecting => exact hended j _ hj trivial
  | _ => exact Bool.false_ne_true hadded

end

/-! ### A DRep over three epochs -/

section

instance PowerSyncProc.decidableInFlight (l : PowerSyncProc) : Decidable l.InFlight :=
  match l with
  | .finished _ _ | .failed _ => .isFalse id
  | .started _ _ | .fetching _ _ _ _ _ | .pruning _ _ _ _ | .projecting _ _ _ _ | .observing _ _
  | .stamping _ _ _ => .isTrue trivial

def steadySnapshots (_ : ℤ) : PowerSnapshot := ⟨[⟨"drep", some "5"⟩], List.nodup_singleton _⟩

/-- A run of the second epoch that wants the three epochs up to it. -/
def steadyInput : PowerSyncInput := ⟨2, some 3, none, none, none⟩

/-- Two runs have started, over a row of the DRep. -/
def steadyState : Interleaved PowerWorld PowerSyncProc Bool where
  shared := ⟨⟨.empty, ⟨[⟨"drep", none, none, none⟩], List.nodup_singleton _⟩⟩, none, false⟩
  procs _ := some (.started steadyInput ["drep"])

/-- A statement of a run in flight, where it is allowed. -/
def allowedPowerStep (allowed : PowerWorld → PowerSyncProc → PowerOutcome → Prop)
    [∀ w l how, Decidable (allowed w l how)] (how : PowerOutcome) (w : PowerWorld)
    (l : PowerSyncProc) : Option (PowerWorld × PowerSyncProc) :=
  if l.InFlight ∧ allowed w l how then some (powerSyncStep steadySnapshots how w l) else none

variable {allowed allowed' : PowerWorld → PowerSyncProc → PowerOutcome → Prop}
  {admits : PowerWorld → String → Prop}

theorem step_of_allowedPowerStep [∀ w l how, Decidable (allowed w l how)]
    (hallowed : ∀ w l how, allowed w l how → allowed' w l how) (how : PowerOutcome)
    (w : PowerWorld) (l : PowerSyncProc) (w' : PowerWorld) (l' : PowerSyncProc)
    (h : allowedPowerStep allowed how w l = some (w', l')) :
    (powerHistoryProgram steadySnapshots 0 allowed' admits).Step w l w' l' := by
  unfold allowedPowerStep at h
  split at h
  · rename_i hmet
    exact ⟨hmet.1, how, hallowed w l how hmet.2, Option.some.inj h⟩
  · exact nomatch h

theorem reachable_steadyState :
    ((powerHistoryProgram steadySnapshots 0 allowed admits).system Bool
      PowerHistoryInit).Reachable steadyState := by
  have hstart : (powerHistoryProgram steadySnapshots 0 allowed admits).Start steadyState.shared
      (.started steadyInput ["drep"]) := ⟨steadyInput, nofun, nofun, rfl⟩
  exact (Program.reachable_started (c := .none) ⟨rfl, rfl, rfl⟩ trivial _
    fun _ => hstart).of_restrict

theorem allEnded_of_decide {s : Interleaved PowerWorld PowerSyncProc Bool}
    (h : ∀ i, (s.procs i).all (fun l => decide ¬l.InFlight) = true) : s.AllEnded := by
  intro i l hi
  have hended := h i
  rw [hi] at hended
  exact of_decide_eq_true hended

/-- Both runs fetch the three epochs, one after the other, and finish. -/
def bothFinish : List (Bool × PowerOutcome) :=
  List.replicate 6 (false, .succeeds .snapshot) ++ List.replicate 3 (true, .succeeds .snapshot)

def projectedState : Option (Interleaved PowerWorld PowerSyncProc Bool) :=
  Program.run (allowedPowerStep (projectsStored steadySnapshots)) bothFinish steadyState

theorem isSome_projectedState : projectedState.isSome = true := by decide +kernel

theorem powerHistory_of_reachable_steady :
    (projectedState.get isSome_projectedState).shared.db.HoldsSnapshots steadySnapshots ∧
      (projectedState.get isSome_projectedState).FinishedProjected := by
  have hany : ((powerHistoryProgram steadySnapshots 0 (fun _ _ _ => True) fun _ _ => True).system
      Bool PowerHistoryInit).Reachable (projectedState.get isSome_projectedState) :=
    Program.reachable_run (step_of_allowedPowerStep fun _ _ _ _ => trivial) reachable_steadyState _
      isSome_projectedState
  have hmet : ((powerHistoryProgram steadySnapshots 0 (projectsStored steadySnapshots)
      admitsUnstored).system Bool PowerHistoryInit).Reachable
        (projectedState.get isSome_projectedState) :=
    Program.reachable_run (step_of_allowedPowerStep fun _ _ _ h => h) reachable_steadyState _
      isSome_projectedState
  obtain ⟨hholds, -, -, hprojected⟩ := powerHistory_of_reachable hany
  exact ⟨hholds, hprojected hmet (allEnded_of_decide (by decide +kernel))⟩

/-- Koios fails on the oldest epoch of the first run; the second finds the others stored. -/
def failsOnOldest : List (Bool × PowerOutcome) :=
  List.replicate 3 (false, .succeeds .snapshot) ++ (false, .succeeds (.failsAfter 0)) ::
    List.replicate 4 (true, .succeeds .snapshot)

def unprojectedState : Option (Interleaved PowerWorld PowerSyncProc Bool) :=
  Program.run (allowedPowerStep fun _ _ _ => True) failsOnOldest steadyState

theorem isSome_unprojectedState : unprojectedState.isSome = true := by decide +kernel

/-- **A projection that is lost**: the second run has finished, nothing is in flight, both epochs
are stored, and the row of the DRep carries neither. -/
theorem not_powerHistory_projected :
    ((powerHistoryProgram steadySnapshots 0 (fun _ _ _ => True) fun _ _ => True).system Bool
        PowerHistoryInit).Reachable (unprojectedState.get isSome_unprojectedState) ∧
      (unprojectedState.get isSome_unprojectedState).AllEnded ∧
        ¬(unprojectedState.get isSome_unprojectedState).FinishedProjected := by
  refine ⟨Program.reachable_run (step_of_allowedPowerStep fun _ _ _ h => h) reachable_steadyState _
    isSome_unprojectedState, allEnded_of_decide (by decide +kernel), fun h => ?_⟩
  have hproc : (unprojectedState.get isSome_unprojectedState).procs true =
      some (.finished steadyInput ["drep"]) := by decide +kernel
  have hrow : ∃ d ∈ (unprojectedState.get isSome_unprojectedState).shared.db.dreps.rows,
      d.drepId ∈ ["drep"] ∧ d.votingPowerSnapshot ≠
        (unprojectedState.get isSome_unprojectedState).shared.db.amountAt d.drepId 2 := by
    decide +kernel
  obtain ⟨d, hd, hid, hstale⟩ := hrow
  exact hstale (h true steadyInput ["drep"] hproc (by decide +kernel) (by decide +kernel)
    (by decide +kernel) d hd hid).1

end

end DrepTalk
