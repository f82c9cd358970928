import DrepTalk.Notifications.Fanout

/-!
# Tracked delegations

`src/lib/db/delegatorFollows.ts`: a row per account that follows its own delegation, what a
resolution makes of it, and the start of the delegation that is looked up for it.

`applyResolution` is a few statements, each of which may find what another call has left; the ones
that decide carry their predicate with them and read the outcome from the number of rows they have
changed. Ids drawn at random and the clock of the database are arguments; where a batch fails on a
taken id, its call throws.
-/

namespace DrepTalk

def EXPECTED_TTL_SEC : ℤ := 60 * 3600

inductive DelegationState
  | drep (drepId : String)
  | abstain
  | no_confidence
  | none
  deriving DecidableEq

structure DelegatorFollowRow where
  userId : String
  stakeAddr : String
  resolutionStatus : ResolutionStatus
  delegationType : Option DelegationType
  drepId : Option String
  checkedAt : Option ℤ
  delegationSetAt : Option ℤ
  refreshAttemptedAt : Option ℤ
  refreshErrorAt : Option ℤ
  delegatedSinceEpoch : Option ℤ
  sinceCheckedAt : Option ℤ
  sinceAttempts : ℕ
  expectedDrepId : Option String
  expectedAt : Option ℤ
  expectedTx : Option String

/-- The payload of a `delegation_changed` notification. -/
structure DelegationPayload where
  fromState : Option DelegationState
  toState : DelegationState
  deriving DecidableEq

/-- A `delegation_changed` notification. -/
structure ChangeNotice where
  id : String
  recipientId : String
  eventKey : String
  payload : DelegationPayload
  createdAt : ℤ
  deriving DecidableEq

abbrev DelegatorFollowTable := KeyedTable fun row : DelegatorFollowRow => row.userId

abbrev ChangeNoticeTable :=
  DoublyKeyedTable (fun n : ChangeNotice => n.id) fun n => (n.recipientId, n.eventKey)

/-- The tables a resolution writes to. -/
structure DelegationDb where
  follows : DelegatorFollowTable
  notices : ChangeNoticeTable

inductive ResolutionOutcome
  | resolved (state : DelegationState)
  | error
  deriving DecidableEq

/-- What `applyResolution` returns. -/
inductive Applied
  | created
  | changed
  | unchanged
  | error
  deriving DecidableEq

def columnsFor : DelegationState → DelegationType × Option String
  | .drep drepId => (.drep, some drepId)
  | .abstain => (.abstain, none)
  | .no_confidence => (.noConfidence, none)
  | .none => (.none, none)

def stateOf (row : DelegatorFollowRow) : Option DelegationState :=
  if row.resolutionStatus = .resolved then
    row.delegationType.map fun type =>
      match type with
      | .drep => .drep (row.drepId.getD "")
      | .abstain => .abstain
      | .noConfidence => .no_confidence
      | .none => .none
  else none

def getFollow (db : DelegationDb) (userId : String) : Option DelegatorFollowRow :=
  db.follows.rows.find? fun row => row.userId == userId

/-- An update of one row that leaves its key alone, under a predicate. -/
def updateFollow (follows : DelegatorFollowTable) (userId : String)
    (p : DelegatorFollowRow → Bool) (f : DelegatorFollowRow → DelegatorFollowRow)
    (hf : ∀ row, (f row).userId = row.userId) : DelegatorFollowTable :=
  follows.updateWhere (fun row => row.userId == userId && p row) f fun row _ => hf row

/-- Whether an update changes a row: `meta.changes`. -/
def changesFollow (follows : DelegatorFollowTable) (userId : String)
    (p : DelegatorFollowRow → Bool) : Bool :=
  follows.rows.any fun row => row.userId == userId && p row

/-! ### What a resolution writes -/

def recordError (now : ℤ) (row : DelegatorFollowRow) : DelegatorFollowRow :=
  { row with refreshErrorAt := some now, refreshAttemptedAt := some now }

def setBaseline (state : DelegationState) (now : ℤ) (row : DelegatorFollowRow) :
    DelegatorFollowRow :=
  { row with
    resolutionStatus := .resolved
    delegationType := some (columnsFor state).1
    drepId := (columnsFor state).2
    checkedAt := some now
    delegationSetAt := some now
    refreshAttemptedAt := some now
    refreshErrorAt := none }

/-- Whether a resolved row says something else: `pred`. -/
def differs (state : DelegationState) (row : DelegatorFollowRow) : Bool :=
  row.resolutionStatus == .resolved &&
    ((row.delegationType.any fun type => type != (columnsFor state).1) ||
      row.drepId.getD "" != (columnsFor state).2.getD "")

/-- Whether a delegation is awaited, and has been for no longer than it may. -/
def expecting (now : ℤ) (row : DelegatorFollowRow) : Bool :=
  row.expectedDrepId.isSome && decide (now - EXPECTED_TTL_SEC ≤ row.expectedAt.getD 0)

def clearExpired (now : ℤ) (row : DelegatorFollowRow) : DelegatorFollowRow :=
  if row.expectedAt.getD 0 < now - EXPECTED_TTL_SEC then
    { row with expectedDrepId := none, expectedTx := none, expectedAt := none }
  else row

/-- A new delegation, with nothing known of its start. -/
def changeDelegation (state : DelegationState) (now : ℤ) (row : DelegatorFollowRow) :
    DelegatorFollowRow :=
  clearExpired now { row with
    delegationType := some (columnsFor state).1
    drepId := (columnsFor state).2
    delegationSetAt := some now
    checkedAt := some now
    refreshAttemptedAt := some now
    refreshErrorAt := none
    delegatedSinceEpoch := none
    sinceCheckedAt := none
    sinceAttempts := 0 }

def confirmDelegation (now : ℤ) (row : DelegatorFollowRow) : DelegatorFollowRow :=
  clearExpired now { row with
    checkedAt := some now, refreshAttemptedAt := some now, refreshErrorAt := none }

theorem clearExpired_userId (now : ℤ) (row : DelegatorFollowRow) :
    (clearExpired now row).userId = row.userId := by
  rw [clearExpired]
  split_ifs <;> rfl

def changeEventKey (userId : String) (now : ℤ) : String := s!"deleg-change:{userId}:{now}"

/-- The arguments of `applyResolution` for an account that is resolved, with what the insert
draws. -/
structure ResolveArgs where
  userId : String
  state : DelegationState
  now : ℤ
  noticeId : String
  dbNow : ℤ
  deriving DecidableEq

def ResolveArgs.notice (args : ResolveArgs) (old : Option DelegationState) : ChangeNotice :=
  ⟨args.noticeId, args.userId, changeEventKey args.userId args.now, ⟨old, args.state⟩, args.dbNow⟩

/-- `INSERT ... ON CONFLICT(recipient_id, event_key) DO NOTHING`: a notification the recipient has
already is left out; a taken id fails. -/
def insertNotice (notices : ChangeNoticeTable) (n : ChangeNotice) : Option ChangeNoticeTable :=
  if notices.rows.any fun m => m.recipientId == n.recipientId && m.eventKey == n.eventKey then
    some notices
  else if n.id ∈ notices.rows.map (·.id) then none
  else some (notices.insertOrIgnore n).1

/-- The batch of a change: the notification, where nothing is awaited, and the row. -/
def changeBatch (db : DelegationDb) (args : ResolveArgs) (old : Option DelegationState) :
    Option DelegationDb :=
  let notices :=
    if changesFollow db.follows args.userId fun row =>
        differs args.state row && !expecting args.now row then
      insertNotice db.notices (args.notice old)
    else some db.notices
  notices.map fun notices =>
    { notices
      follows := updateFollow db.follows args.userId (differs args.state)
        (changeDelegation args.state args.now) fun _ => clearExpired_userId _ _ }

/-! ### Applying a resolution -/

/-- A call of `applyResolution`. -/
inductive ApplyProc
  | error (userId : String) (now : ℤ)
  | base (args : ResolveArgs)
  | read (args : ResolveArgs)
  | batch (args : ResolveArgs) (old : Option DelegationState)
  | confirm (args : ResolveArgs)
  | returned (applied : Applied)
  | threw
  deriving DecidableEq

def applyResolution (userId : String) (outcome : ResolutionOutcome) (now : ℤ) (noticeId : String)
    (dbNow : ℤ) : ApplyProc :=
  match outcome with
  | .error => .error userId now
  | .resolved state => .base ⟨userId, state, now, noticeId, dbNow⟩

/-- The next statement of a call of `applyResolution`. -/
def applyStep (db : DelegationDb) : ApplyProc → Option (DelegationDb × ApplyProc)
  | .error userId now =>
    some ({ db with
      follows := updateFollow db.follows userId (fun _ => true) (recordError now) fun _ => rfl },
      .returned .error)
  | .base args =>
    let pending : DelegatorFollowRow → Bool := fun row => row.resolutionStatus == .pending
    some ({ db with
      follows := updateFollow db.follows args.userId pending (setBaseline args.state args.now)
        fun _ => rfl },
      if changesFollow db.follows args.userId pending then .returned .created else .read args)
  -- the old value only words the notification
  | .read args => some (db, .batch args ((getFollow db args.userId).bind stateOf))
  | .batch args old =>
    match changeBatch db args old with
    | none => some (db, .threw)
    | some db' =>
      some (db', if changesFollow db.follows args.userId (differs args.state) then
        .returned .changed else .confirm args)
  | .confirm args =>
    some ({ db with
      follows := updateFollow db.follows args.userId
        (fun row => row.resolutionStatus == .resolved) (confirmDelegation args.now)
        fun _ => clearExpired_userId _ _ },
      .returned .unchanged)
  | .returned _ | .threw => none

/-! ### What a statement does to a row -/

/-- What the next statement of a call of `applyResolution` makes of a row, where it does not
fail. -/
def ApplyProc.onRow : ApplyProc → DelegatorFollowRow → DelegatorFollowRow
  | .error userId now, row => if row.userId == userId && true then recordError now row else row
  | .base args, row =>
    if row.userId == args.userId && row.resolutionStatus == .pending then
      setBaseline args.state args.now row
    else row
  | .batch args _, row =>
    if row.userId == args.userId && differs args.state row then
      changeDelegation args.state args.now row
    else row
  | .confirm args, row =>
    if row.userId == args.userId && row.resolutionStatus == .resolved then
      confirmDelegation args.now row
    else row
  | .read _, row | .returned _, row | .threw, row => row

theorem changeBatch_eq_some {db db' : DelegationDb} {args : ResolveArgs}
    {old : Option DelegationState} (h : changeBatch db args old = some db') :
    (if changesFollow db.follows args.userId fun row =>
        differs args.state row && !expecting args.now row then
      insertNotice db.notices (args.notice old) else some db.notices) = some db'.notices ∧
      db'.follows = updateFollow db.follows args.userId (differs args.state)
        (changeDelegation args.state args.now) fun _ => clearExpired_userId _ _ := by
  obtain ⟨notices, hnotices, rfl⟩ := Option.map_eq_some_iff.mp h
  exact ⟨hnotices, rfl⟩

/-- **One statement on the rows**: each is changed by itself, or the batch has failed and nothing
has. -/
theorem applyStep_rows {db db' : DelegationDb} {l l' : ApplyProc}
    (h : applyStep db l = some (db', l')) :
    (l' ≠ .threw ∧ db'.follows.rows = db.follows.rows.map l.onRow) ∨
      l' = .threw ∧ db' = db ∧
        ∃ args old, l = .batch args old ∧ changeBatch db args old = none := by
  cases l with
  | error userId now | confirm args =>
    cases h
    exact .inl ⟨by simp, rfl⟩
  | base args =>
    cases h
    exact .inl ⟨by split_ifs <;> simp, rfl⟩
  | read args =>
    cases h
    exact .inl ⟨by simp, (List.map_id' _).symm⟩
  | batch args old =>
    rw [applyStep] at h
    split at h
    · -- a batch that fails leaves everything
      rename_i hfails
      cases h
      exact .inr ⟨rfl, rfl, args, old, rfl, hfails⟩
    · rename_i changed hchanged
      cases h
      refine .inl ⟨by split_ifs <;> simp, ?_⟩
      -- the notice is inserted, the rows are updated
      rw [(changeBatch_eq_some hchanged).2]
      rfl
  | returned applied => cases h
  | threw => cases h

theorem ApplyProc.onRow_userId (l : ApplyProc) (row : DelegatorFollowRow) :
    (l.onRow row).userId = row.userId := by
  cases l <;> rw [ApplyProc.onRow]
  case batch args old =>
    split_ifs
    · exact clearExpired_userId _ _
    · rfl
  case confirm args =>
    split_ifs
    · exact clearExpired_userId _ _
    · rfl
  all_goals split_ifs <;> rfl

/-! ### What is awaited, and new accounts -/

/-- The row `ensureFollow` inserts. -/
def newFollow (userId stakeAddr : String) : DelegatorFollowRow :=
  ⟨userId, stakeAddr, .pending, none, none, none, none, none, none, none, none, 0, none, none, none⟩

def setExpectedDelegation (db : DelegationDb) (userId expectedDrepId : String)
    (expectedTx : Option String) (now : ℤ) : DelegationDb :=
  { db with
    follows := updateFollow db.follows userId (fun _ => true)
      (fun row => { row with
        expectedDrepId := some expectedDrepId, expectedAt := some now, expectedTx := expectedTx })
      fun _ => rfl }

/-- `markBatchError`, a chunk of it. -/
def markErrors (db : DelegationDb) (userIds : List String) (now : ℤ) : DelegationDb :=
  { db with
    follows := db.follows.updateWhere (fun row => userIds.contains row.userId) (recordError now)
      fun _ _ => rfl }

/-! ### The start of a delegation -/

/-- What a lookup of the start writes, with the attempts that found nothing. -/
def recordSince (epoch : Option ℤ) (now : ℤ) (failed : Bool) (row : DelegatorFollowRow) :
    DelegatorFollowRow :=
  { row with
    delegatedSinceEpoch := epoch
    sinceCheckedAt := some now
    sinceAttempts :=
      if failed then row.sinceAttempts else if epoch.isSome then 0 else row.sinceAttempts + 1 }

def setDelegatedSince (db : DelegationDb) (userId : String) (epoch : Option ℤ) (now : ℤ)
    (failed : Bool) : DelegationDb :=
  { db with
    follows := updateFollow db.follows userId (fun _ => true) (recordSince epoch now failed)
      fun _ => rfl }

/-- Whether a row has no start, and the attempt stamp that was observed. -/
def sinceObserved (observed : Option ℤ) (row : DelegatorFollowRow) : Bool :=
  row.delegatedSinceEpoch.isNone && row.sinceCheckedAt.getD (-1) == observed.getD (-1)

def captureDelegatedSince (db : DelegationDb) (userId : String) (epoch : Option ℤ) (now : ℤ)
    (observed : Option ℤ) (failed : Bool) : DelegationDb :=
  { db with
    follows := updateFollow db.follows userId (sinceObserved observed)
      (recordSince epoch now failed) fun _ => rfl }

structure FollowMissingSince where
  userId : String
  stakeAddr : String
  sinceCheckedAt : Option ℤ

def FollowMissingSince.before (f g : FollowMissingSince) : Bool :=
  f.sinceCheckedAt.getD 0 < g.sinceCheckedAt.getD 0 ||
    f.sinceCheckedAt.getD 0 == g.sinceCheckedAt.getD 0 && decide (f.userId ≤ g.userId)

/-- The order of `listFollowsMissingSince`, and its cap. -/
def stalestMissing (limit : ℕ) (found : List FollowMissingSince) : List FollowMissingSince :=
  (found.insertionSort fun f g => f.before g = true).take limit

/-- The statement of `listFollowsMissingSince` for a chunk of ids. -/
def listMissingChunk (db : DelegationDb) (chunk : List String) (staleBefore : ℤ) (limit : ℕ) :
    List FollowMissingSince :=
  stalestMissing limit <|
    (db.follows.rows.filter fun row =>
      chunk.contains row.userId && row.delegatedSinceEpoch.isNone &&
        row.sinceCheckedAt.all fun stamp => decide (stamp < staleBefore)).map
      fun row => ⟨row.userId, row.stakeAddr, row.sinceCheckedAt⟩

end DrepTalk
