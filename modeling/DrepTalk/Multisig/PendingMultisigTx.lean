import DrepTalk.Library.Interleaving
import DrepTalk.Library.Table

/-!
# Collecting the signatures of a multisig transaction

`src/lib/db/pendingMultisigTx.ts`: the co-signers of a pending transaction append their
witnesses to one JSON column, each by a compare-and-swap that is retried a bounded number of
times, while somebody may mark the transaction submitted.

The column only ever holds what `JSON.stringify` wrote, and `JSON.parse` inverts that, so it is
taken as the list it encodes. A statement that throws ends its call, like a call that is never
scheduled again.

**No signature is lost** (`pending_multisig_safe`). A swap that goes through writes one witness
behind the list the row still holds, and one whose key that list does not have: the list of a
row only grows, and stays what it is once the row is no longer collecting.
-/

namespace DrepTalk

/-- `status` of a pending transaction. -/
inductive PendingStatus
  | collecting
  | submitted
  | expired
  deriving DecidableEq

/-- An entry of the `witnesses` column. -/
structure Witness where
  keyHash : String
  witnessHex : String
  deriving DecidableEq

/-- A row of `pending_multisig_tx`, by the columns its writers change. -/
structure PendingMultisigRow where
  id : String
  witnesses : List Witness
  status : PendingStatus
  txHash : Option String

abbrev PendingTable := KeyedTable fun row : PendingMultisigRow => row.id

def createPendingMultisig (table : PendingTable) (id : String) : PendingTable :=
  table.insertOrIgnore ⟨id, [], .collecting, none⟩

def getPendingMultisig (table : PendingTable) (id : String) : Option PendingMultisigRow :=
  table.rows.find? fun row => row.id == id

def ADD_WITNESS_MAX_ATTEMPTS : ℕ := 8

/-- Whether a row is the collecting one with the given id. -/
def isCollecting (id : String) (row : PendingMultisigRow) : Bool :=
  row.id == id && row.status == .collecting

/-- Whether a row still holds the witnesses that were read, and is still collecting. -/
def holdsBlob (id : String) (blob : List Witness) (row : PendingMultisigRow) : Bool :=
  isCollecting id row && row.witnesses == blob

/-- The compare-and-swap of the column; the answer says whether it went through. -/
def swapWitnesses (table : PendingTable) (id : String) (blob list : List Witness) :
    PendingTable × Bool :=
  (table.updateWhere (holdsBlob id blob) (fun row => { row with witnesses := list })
      fun _ _ => rfl,
    table.rows.any (holdsBlob id blob))

/-- Claims the transition to submitted; the answer says whether this call made it. -/
def markPendingSubmitted (table : PendingTable) (id txHash : String) : PendingTable × Bool :=
  (table.updateWhere (isCollecting id)
      (fun row => { row with status := .submitted, txHash := some txHash }) fun _ _ => rfl,
    table.rows.any (isCollecting id))

/-- A call, by what it is about to do, or its answer with what it was asked for. -/
inductive PendingProc
  | read (id : String) (witness : Witness) (attempt : ℕ)
  | swap (id : String) (witness : Witness) (attempt : ℕ) (blob : List Witness)
  | mark (id txHash : String)
  | added (id keyHash : String)
  | gone
  | marked (id txHash : String) (won : Bool)
  deriving DecidableEq

/-- Reads the row: nothing to do where it does not collect, or has the key. -/
def addWitnessRead (table : PendingTable) (id : String) (witness : Witness) (attempt : ℕ) :
    PendingProc :=
  match getPendingMultisig table id with
  | none => .gone
  | some row =>
    if row.status ≠ .collecting then .gone
    else if row.witnesses.any fun w => w.keyHash == witness.keyHash then
      .added id witness.keyHash
    else .swap id witness attempt row.witnesses

/-- After a swap that did not go through: once more from the read, or no more. -/
def addWitnessRetry (id : String) (witness : Witness) (attempt : ℕ) : PendingProc :=
  if attempt + 1 < ADD_WITNESS_MAX_ATTEMPTS then .read id witness (attempt + 1) else .gone

/-- The next statement of a call of `addPendingWitness` or `markPendingSubmitted`. -/
def pendingStep (table : PendingTable) : PendingProc → Option (PendingTable × PendingProc)
  | .read id witness attempt => some (table, addWitnessRead table id witness attempt)
  | .swap id witness attempt blob =>
    let (table', swapped) := swapWitnesses table id blob (blob ++ [witness])
    some (table',
      if swapped then .added id witness.keyHash else addWitnessRetry id witness attempt)
  | .mark id txHash =>
    let (table', won) := markPendingSubmitted table id txHash
    some (table', .marked id txHash won)
  | .added _ _ | .gone | .marked _ _ _ => none

inductive PendingStart : PendingProc → Prop
  | addPendingWitness (id : String) (witness : Witness) : PendingStart (.read id witness 0)
  | markPendingSubmitted (id txHash : String) : PendingStart (.mark id txHash)

/-- Calls on pending transactions, while new ones are created. -/
def pendingProgram : Program PendingTable PendingProc where
  Start _ l := PendingStart l
  Step table l table' l' := pendingStep table l = some (table', l')
  Env table table' := ∃ id, table' = createPendingMultisig table id

/-- Before the first record there is none. -/
def PendingTable.Initial (table : PendingTable) : Prop := table.rows = []

/-! ### What one step can do -/

def PendingMultisigRow.keys (row : PendingMultisigRow) : List String :=
  row.witnesses.map (·.keyHash)

/-- What a statement may do to a row: nothing, or, while it collects, append a witness with a
new key or mark it submitted. -/
inductive RowEffect (row : PendingMultisigRow) : PendingMultisigRow → Prop
  | same : RowEffect row row
  | append (witness : Witness) (hcollecting : row.status = .collecting)
      (hnew : witness.keyHash ∉ row.keys) :
    RowEffect row { row with witnesses := row.witnesses ++ [witness] }
  | submit (txHash : String) (hcollecting : row.status = .collecting) :
    RowEffect row { row with status := .submitted, txHash := some txHash }

/-- A row is what it was once it no longer collects, and until then it only gets witnesses. -/
structure RowGrows (row row' : PendingMultisigRow) : Prop where
  id : row'.id = row.id
  witnesses : row.witnesses <+: row'.witnesses
  settled : row.status ≠ .collecting → row' = row

theorem RowGrows.refl (row : PendingMultisigRow) : RowGrows row row :=
  ⟨rfl, List.prefix_refl _, fun _ => rfl⟩

theorem RowGrows.trans {a b c : PendingMultisigRow} (h : RowGrows a b) (h' : RowGrows b c) :
    RowGrows a c := by
  refine ⟨h'.id.trans h.id, h.witnesses.trans h'.witnesses, fun hsettled => ?_⟩
  obtain rfl := h.settled hsettled
  exact h'.settled hsettled

variable {row : PendingMultisigRow}

variable {row' : PendingMultisigRow} {witness : Witness}

theorem RowEffect.grows (h : RowEffect row row') : RowGrows row row' := by
  cases h with
  | same => exact .refl row
  | append witness hcollecting hnew =>
    exact ⟨rfl, List.prefix_append _ _, fun hsettled => absurd hcollecting hsettled⟩
  | submit txHash hcollecting =>
    exact ⟨rfl, List.prefix_refl _, fun hsettled => absurd hcollecting hsettled⟩

/-- What holds of every row: no key twice, and a hash exactly once it is submitted. -/
structure PendingMultisigRow.Sound (row : PendingMultisigRow) : Prop where
  keys : row.keys.Nodup
  txHash : row.txHash.isSome = true ↔ row.status = .submitted

theorem PendingMultisigRow.Sound.effect (h : row.Sound) (heff : RowEffect row row') :
    row'.Sound := by
  cases heff with
  | same => exact h
  | append witness hcollecting hnew =>
    refine ⟨?_, h.txHash⟩
    rw [PendingMultisigRow.keys, List.map_append, List.nodup_append]
    refine ⟨h.keys, by simp, fun k hk k' hk' => ?_⟩
    rintro rfl
    obtain rfl := List.mem_singleton.mp hk'
    exact hnew hk
  | submit txHash hcollecting => exact ⟨h.keys, iff_of_true rfl rfl⟩

variable {id : String}

theorem isCollecting_eq_true :
    isCollecting id row = true ↔ row.id = id ∧ row.status = .collecting := by
  rw [isCollecting, Bool.and_eq_true, beq_iff_eq, beq_iff_eq]

variable {blob : List Witness}

theorem holdsBlob_eq_true :
    holdsBlob id blob row = true ↔
      (row.id = id ∧ row.status = .collecting) ∧ row.witnesses = blob := by
  rw [holdsBlob, Bool.and_eq_true, isCollecting_eq_true, beq_iff_eq]

/-- What a call knows without looking at the table. -/
def PendingProc.Fresh : PendingProc → Prop
  | .swap _ witness _ blob => witness.keyHash ∉ blob.map (·.keyHash)
  | _ => True

/-- An answer that says the row has the key, or that this call has submitted it, is right. -/
def PendingProc.Right (table : PendingTable) : PendingProc → Prop
  | .added id keyHash => ∃ row ∈ table.rows, row.id = id ∧ keyHash ∈ row.keys
  | .marked id txHash true =>
    ∃ row ∈ table.rows, row.id = id ∧ row.status = .submitted ∧ row.txHash = some txHash
  | _ => True

/-- What a statement may do to a table: each row has its effect, and there is no other row. -/
structure TableEffect (table table' : PendingTable) : Prop where
  source : ∀ row' ∈ table'.rows, ∃ row ∈ table.rows, RowEffect row row'
  target : ∀ row ∈ table.rows, ∃ row' ∈ table'.rows, RowEffect row row'

theorem TableEffect.refl (table : PendingTable) : TableEffect table table :=
  ⟨fun row hmem => ⟨row, hmem, .same⟩, fun row hmem => ⟨row, hmem, .same⟩⟩

variable {table : PendingTable}

theorem TableEffect.updateWhere {p : PendingMultisigRow → Bool}
    {f : PendingMultisigRow → PendingMultisigRow} (hkey : ∀ row, p row = true → (f row).id = row.id)
    (heff : ∀ row ∈ table.rows, p row = true → RowEffect row (f row)) :
    TableEffect table (table.updateWhere p f hkey) := by
  constructor
  · intro row' hmem
    rcases Table.mem_updateWhere.mp hmem with ⟨hold, -⟩ | ⟨row, hold, hp, rfl⟩
    · exact ⟨row', hold, .same⟩
    · exact ⟨row, hold, heff row hold hp⟩
  · intro row hmem
    refine ⟨_, Table.mem_updateWhere_of_mem p f hmem, ?_⟩
    split_ifs with hp
    · exact heff row hmem hp
    · exact .same

/-- Every row of the one table, carried over to the other. -/
def TableGrows (table table' : PendingTable) : Prop :=
  ∀ row ∈ table.rows, ∃ row' ∈ table'.rows, RowGrows row row'

variable {table' : PendingTable}

theorem TableEffect.grows (h : TableEffect table table') :
    TableGrows table table' := by
  intro row hmem
  obtain ⟨row', hmem', heff⟩ := h.target row hmem
  exact ⟨row', hmem', heff.grows⟩

variable {l : PendingProc}

theorem PendingProc.Right.mono (h : l.Right table) (hgrows : TableGrows table table') :
    l.Right table' := by
  rcases l with _ | _ | _ | ⟨id, keyHash⟩ | _ | ⟨id, txHash, _ | _⟩
  · exact trivial
  · exact trivial
  · exact trivial
  · obtain ⟨row, hmem, hid, hkey⟩ := h
    obtain ⟨row', hmem', hrow⟩ := hgrows row hmem
    exact ⟨row', hmem', hrow.id.trans hid, (hrow.witnesses.sublist.map _).subset hkey⟩
  · exact trivial
  · exact trivial
  · obtain ⟨row, hmem, hid, hstatus, htx⟩ := h
    obtain ⟨row', hmem', hrow⟩ := hgrows row hmem
    obtain rfl := hrow.settled (by simp [hstatus])
    exact ⟨row', hmem', hid, hstatus, htx⟩

theorem swapWitnesses_effect (hnew : witness.keyHash ∉ blob.map (·.keyHash)) :
    TableEffect table (swapWitnesses table id blob (blob ++ [witness])).1 := by
  refine .updateWhere (by intros; rfl) fun row _ hholds => ?_
  obtain ⟨⟨-, hcollecting⟩, rfl⟩ := holdsBlob_eq_true.mp hholds
  exact .append witness hcollecting hnew

theorem markPendingSubmitted_effect {txHash : String} :
    TableEffect table (markPendingSubmitted table id txHash).1 := by
  refine .updateWhere (by intros; rfl) fun row _ hholds => ?_
  exact .submit txHash (isCollecting_eq_true.mp hholds).2

theorem right_of_swapped (hswapped : (swapWitnesses table id blob (blob ++ [witness])).2 = true) :
    (PendingProc.added id witness.keyHash).Right
      (swapWitnesses table id blob (blob ++ [witness])).1 := by
  obtain ⟨row, hmem, hholds⟩ := List.any_eq_true.mp hswapped
  have hmem' := Table.mem_updateWhere_of_mem (holdsBlob id blob)
    (fun row => { row with witnesses := blob ++ [witness] }) hmem
  rw [if_pos hholds] at hmem'
  exact ⟨_, hmem', (holdsBlob_eq_true.mp hholds).1.1, by simp [PendingMultisigRow.keys]⟩

theorem right_of_marked (table : PendingTable) (id txHash : String) :
    (PendingProc.marked id txHash (markPendingSubmitted table id txHash).2).Right
      (markPendingSubmitted table id txHash).1 := by
  rcases hwon : (markPendingSubmitted table id txHash).2 with _ | _
  · exact trivial
  obtain ⟨row, hmem, hholds⟩ := List.any_eq_true.mp hwon
  have hmem' := Table.mem_updateWhere_of_mem (isCollecting id)
    (fun row => { row with status := .submitted, txHash := some txHash }) hmem
  rw [if_pos hholds] at hmem'
  exact ⟨_, hmem', (isCollecting_eq_true.mp hholds).1, rfl, rfl⟩

theorem addWitnessRead_spec (table : PendingTable) (id : String) (witness : Witness)
    (attempt : ℕ) : (addWitnessRead table id witness attempt).Fresh ∧
      (addWitnessRead table id witness attempt).Right table := by
  rw [addWitnessRead]
  rcases hrow : getPendingMultisig table id with _ | row
  · exact ⟨trivial, trivial⟩
  · have hmem := List.mem_of_find?_eq_some hrow
    have hid : row.id = id := by simpa using List.find?_some hrow
    dsimp only
    split_ifs with hstatus hany
    · exact ⟨trivial, trivial⟩
    · obtain ⟨w, hw, hkey⟩ := List.any_eq_true.mp hany
      exact ⟨trivial, row, hmem, hid, List.mem_map.mpr ⟨w, hw, beq_iff_eq.mp hkey⟩⟩
    · refine ⟨fun hkey => hany ?_, trivial⟩
      obtain ⟨w, hw, hkey⟩ := List.mem_map.mp hkey
      exact List.any_eq_true.mpr ⟨w, hw, beq_iff_eq.mpr hkey⟩

variable {l' : PendingProc}

/-- **One statement.** Rows only have effects, and what the call then knows or answers is
right. -/
theorem pendingStep_spec (hfresh : l.Fresh) (h : pendingStep table l = some (table', l')) :
    TableEffect table table' ∧ l'.Fresh ∧ l'.Right table' := by
  cases l with
  | read id witness attempt =>
    cases h
    exact ⟨.refl table, addWitnessRead_spec table id witness attempt⟩
  | swap id witness attempt blob =>
    cases h
    refine ⟨swapWitnesses_effect hfresh, ?_⟩
    split_ifs with hswapped
    · exact ⟨trivial, right_of_swapped hswapped⟩
    · rw [addWitnessRetry]
      split_ifs <;> exact ⟨trivial, trivial⟩
  | mark id txHash =>
    cases h
    exact ⟨markPendingSubmitted_effect, trivial, right_of_marked table id txHash⟩
  | added _ _ => cases h
  | gone => cases h
  | marked _ _ _ => cases h

/-! ### Every interleaving -/

theorem createPendingMultisig_grows (table : PendingTable) (id : String) :
    TableGrows table (createPendingMultisig table id) := fun row hmem =>
  ⟨row, KeyedTable.mem_insertOrIgnore.mpr (.inl hmem), .refl row⟩

/-- Two calls that have both submitted the same record. -/
def BothWon (l m : PendingProc) : Prop :=
  ∃ id tx tx', l = .marked id tx true ∧ m = .marked id tx' true

theorem collecting_of_won {tx : String}
    (h : pendingStep table l = some (table', .marked id tx true)) :
    ∃ row ∈ table.rows, row.id = id ∧ row.status = .collecting := by
  cases l with
  | read id' witness attempt =>
    exfalso
    have hread : addWitnessRead table id' witness attempt = .marked id tx true :=
      congrArg Prod.snd (Option.some.inj h)
    rw [addWitnessRead] at hread
    split at hread
    · cases hread
    · split_ifs at hread
  | swap id' witness attempt blob =>
    exfalso
    have hswap := congrArg Prod.snd (Option.some.inj h)
    rw [addWitnessRetry] at hswap
    split_ifs at hswap
  | mark id' txHash =>
    have hmark : PendingProc.marked id' txHash (table.rows.any (isCollecting id')) =
      .marked id tx true := congrArg Prod.snd (Option.some.inj h)
    injection hmark with hid _ hwon
    obtain ⟨row, hmem, hcollecting⟩ := List.any_eq_true.mp hwon
    exact ⟨row, hmem, hid ▸ isCollecting_eq_true.mp hcollecting⟩
  | added _ _ => cases h
  | gone => cases h
  | marked _ _ _ => cases h

theorem not_bothWon {m : PendingProc} (h : pendingStep table l = some (table', l'))
    (hm : m.Right table) : ¬BothWon l' m := by
  rintro ⟨id, tx, tx', rfl, rfl⟩
  obtain ⟨row, hmem, hid, hstatus, -⟩ := hm
  obtain ⟨other, hother, hid', hstatus'⟩ := collecting_of_won h
  obtain rfl := table.eq_of_key hmem hother (hid.trans hid'.symm)
  cases hstatus.symm.trans hstatus'

/-- The invariant of all interleavings. -/
def pendingSound : pendingProgram.Sound PendingTable.Initial where
  inv table := ∀ row ∈ table.rows, row.Sound
  asserts table l := l.Fresh ∧ l.Right table
  apart l m := ¬BothWon l m
  symm l m h := by
    rintro ⟨id, tx, tx', rfl, rfl⟩
    exact h ⟨id, tx', tx, rfl, rfl⟩
  init table hinit row hmem := by
    rw [show table.rows = [] from hinit] at hmem
    cases hmem
  start table l _ hstart := by
    cases hstart with
    | addPendingWitness id witness =>
      exact ⟨⟨trivial, trivial⟩, fun m _ => by rintro ⟨_, _, _, hl, -⟩; cases hl⟩
    | markPendingSubmitted id txHash =>
      exact ⟨⟨trivial, trivial⟩, fun m _ => by rintro ⟨_, _, _, hl, -⟩; cases hl⟩
  step table l table' l' hinv hl hstep := by
    obtain ⟨heff, hanswer⟩ := pendingStep_spec hl.1 hstep
    refine ⟨fun row' hmem' => ?_, hanswer⟩
    obtain ⟨row, hmem, hrow⟩ := heff.source row' hmem'
    exact (hinv row hmem).effect hrow
  noninterference table l table' l' m _ hl hm _ hstep := by
    obtain ⟨heff, -⟩ := pendingStep_spec hl.1 hstep
    exact ⟨⟨hm.1, hm.2.mono heff.grows⟩, not_bothWon hstep hm.2⟩
  env table table' hinv henv := by
    obtain ⟨id, rfl⟩ := henv
    refine ⟨fun row hmem => ?_, fun m hm =>
      ⟨hm.1, hm.2.mono (createPendingMultisig_grows table id)⟩⟩
    rcases KeyedTable.mem_insertOrIgnore.mp hmem with hold | ⟨rfl, -⟩
    · exact hinv row hold
    · exact ⟨List.nodup_nil, by simp⟩

theorem txHash_step {tx : String} (h : pendingStep table l = some (table', l'))
    (hneed : ∃ row ∈ table'.rows, row.id = id ∧ row.txHash = some tx)
    (hnot : l' ≠ .marked id tx true) :
    (∃ row ∈ table.rows, row.id = id ∧ row.txHash = some tx) ∧ l ≠ .marked id tx true := by
  obtain ⟨row', hmem', hid, htx⟩ := hneed
  cases l with
  | read id' witness attempt =>
    cases h
    exact ⟨⟨row', hmem', hid, htx⟩, nofun⟩
  | swap id' witness attempt blob =>
    cases h
    refine ⟨?_, nofun⟩
    rcases Table.mem_updateWhere.mp hmem' with ⟨hold, -⟩ | ⟨row, hold, -, rfl⟩
    · exact ⟨row', hold, hid, htx⟩
    · exact ⟨row, hold, hid, htx⟩
  | mark id' txHash =>
    cases h
    refine ⟨?_, nofun⟩
    rcases Table.mem_updateWhere.mp hmem' with ⟨hold, -⟩ | ⟨row, hold, hcollecting, rfl⟩
    · exact ⟨row', hold, hid, htx⟩
    · -- the row is the one this call has just marked
      obtain rfl : txHash = tx := Option.some.inj htx
      obtain rfl : id' = id := ((isCollecting_eq_true.mp hcollecting).1).symm.trans hid
      have hwon : table.rows.any (isCollecting id') = true :=
        List.any_eq_true.mpr ⟨row, hold, hcollecting⟩
      exact absurd (congrArg (PendingProc.marked id' txHash) hwon) hnot
  | added _ _ => cases h
  | gone => cases h
  | marked _ _ _ => cases h

section Runs

variable {ι : Type*} [DecidableEq ι] {s s' : Interleaved PendingTable PendingProc ι}

theorem pending_grows (hs : (pendingProgram.system ι PendingTable.Initial).Reachable s)
    (hl : (pendingProgram.system ι PendingTable.Initial).Leads s s') :
    TableGrows s.shared s'.shared := by
  refine hs.stable (P := fun t => TableGrows s.shared t.shared) ?_ hl
    fun row hmem => ⟨row, hmem, .refl row⟩
  intro t move t' ht hgrows hstep row hmem
  obtain ⟨row₁, hmem₁, hrow₁⟩ := hgrows row hmem
  have hnext : TableGrows t.shared t'.shared := by
    rcases hstep with ⟨-, -⟩ | ⟨hproc, hstep⟩ | ⟨id, rfl⟩
    · exact fun row hmem => ⟨row, hmem, .refl row⟩
    · have hfresh := ((pendingSound.holds ht).asserts _ _ hproc).1
      exact (pendingStep_spec hfresh hstep).1.grows
    · exact createPendingMultisig_grows _ id
  obtain ⟨row₂, hmem₂, hrow₂⟩ := hnext row₁ hmem₁
  exact ⟨row₂, hmem₂, hrow₁.trans hrow₂⟩

/-- **No signature is lost, and one submission wins**: no key is twice in the witnesses, they only
grow, at most one call submits a record, and one that no longer collects is not changed. -/
theorem pending_multisig_safe
    (h : (pendingProgram.system ι PendingTable.Initial).Reachable s) :
    (∀ row ∈ s.shared.rows, row.keys.Nodup) ∧
      (∀ i id keyHash, s.procs i = some (.added id keyHash) →
        ∃ row ∈ s.shared.rows, row.id = id ∧ keyHash ∈ row.keys) ∧
      (∀ i j id tx tx', s.procs i = some (.marked id tx true) →
        s.procs j = some (.marked id tx' true) → i = j) ∧
      (∀ i id tx, s.procs i = some (.marked id tx true) →
        ∃ row ∈ s.shared.rows, row.id = id ∧ row.status = .submitted ∧ row.txHash = some tx) ∧
      (∀ row ∈ s.shared.rows, ∀ tx, row.txHash = some tx →
        ∃ i, s.procs i = some (.marked row.id tx true)) ∧
      ∀ s', (pendingProgram.system ι PendingTable.Initial).Leads s s' →
        ∀ row ∈ s.shared.rows, ∃ row' ∈ s'.shared.rows, row'.id = row.id ∧
          row.witnesses <+: row'.witnesses ∧ (row.status ≠ .collecting → row' = row) := by
  obtain ⟨hinv, hasserts, hapart⟩ := pendingSound.holds h
  refine ⟨fun row hmem => (hinv row hmem).keys, fun i id keyHash hi => (hasserts i _ hi).2,
    fun i j id tx tx' hi hj => ?_, fun i id tx hi => (hasserts i _ hi).2,
    fun row hmem tx htx => ?_, fun s' hl row hmem => ?_⟩
  · by_contra hij
    exact hapart i j _ _ hij hi hj ⟨id, tx, tx', rfl, rfl⟩
  · have howed := pendingSound.when.owed
      (fun table => ∃ r ∈ table.rows, r.id = row.id ∧ r.txHash = some tx)
      (fun l => l = .marked row.id tx true) ?_ ?_ ?_ (Program.reachable_none h)
      ⟨row, hmem, rfl, htx⟩
    · obtain ⟨i, l, hi, rfl⟩ := howed
      exact ⟨i, hi⟩
    · rintro table hinit ⟨r, hr, -⟩
      rw [show table.rows = [] from hinit] at hr
      cases hr
    · exact fun table l table' l' _ _ _ _ hstep hneed hnot => txHash_step hstep hneed hnot
    · rintro table table' _ _ ⟨id, rfl⟩ ⟨r, hr, hid, hrtx⟩
      rcases KeyedTable.mem_insertOrIgnore.mp hr with hold | ⟨rfl, -⟩
      · exact ⟨r, hold, hid, hrtx⟩
      · cases hrtx
  · obtain ⟨row', hmem', hrow⟩ := pending_grows h hl row hmem
    exact ⟨row', hmem', hrow.id, hrow.witnesses, hrow.settled⟩

end Runs

/-- Two co-signers who read the same list, the second of whom has to swap twice, and then a
submission. -/
theorem pending_multisig_safe_contended :
    ∃ s : Interleaved PendingTable PendingProc ℕ,
      (pendingProgram.system ℕ PendingTable.Initial).Reachable s ∧
        (∃ row ∈ s.shared.rows, row.id = "tok" ∧ "bb" ∈ row.keys) ∧
        ∃ row ∈ s.shared.rows, row.id = "tok" ∧ row.status = .submitted ∧
          row.txHash = some "ff" := by
  have h₀ : (pendingProgram.system ℕ PendingTable.Initial).Reachable ⟨.empty, fun _ => none⟩ :=
    .init ⟨rfl, fun _ => rfl⟩
  have h₁ := h₀.step (.env ⟨"tok", rfl⟩)
  have h₂ := h₁.step (.start (i := 0) rfl (.addPendingWitness "tok" ⟨"aa", "00"⟩))
  have h₃ := h₂.step (.start (i := 1) rfl (.addPendingWitness "tok" ⟨"bb", "01"⟩))
  have h₄ := h₃.step (.start (i := 2) rfl (.markPendingSubmitted "tok" "ff"))
  have h₅ := Program.reachable_run (fun _ _ _ _ _ h => h) h₄
    ([0, 1, 0, 1, 1, 1, 2].map fun i => (i, ())) (by decide +kernel)
  obtain ⟨-, hadded, -, hmarked, -, -⟩ := pending_multisig_safe h₅
  exact ⟨_, h₅, hadded 1 "tok" "bb" (by decide +kernel), hmarked 2 "tok" "ff" (by decide +kernel)⟩

end DrepTalk
