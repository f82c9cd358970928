import DrepTalk.Delegation.DelegatorFollows
import DrepTalk.Delegation.Provenance

/-!
# Refreshing delegations

`src/lib/delegation/refresh.ts` with `resolve.ts` and `delegationStart.ts`: a login resolves one
account, the cron the accounts that are due, and both look up the start of a delegation that has
none. A call of either is a sequence of statements and of requests to the chain indexer, whose
answers come in from outside; a request that throws or times out has no answer.

Whether a text is the id of a DRep is a parameter. A write that fails for reasons of its own is a
call that ends.
-/

namespace DrepTalk

def SINCE_RETRY_SEC : ℤ := 86400

def SINCE_BULK_CAP : ℕ := 15

def DUE_INTERVAL_SEC : ℤ := 86400

/-- `AccountInfo`, by the fields that are read. -/
structure AccountInfo where
  stakeAddress : String
  delegatedDrep : Option String

/-- `resolveDelegation`; no state is an answer that is invalid. -/
def resolveDelegation (isDrepId : String → Bool) (info : AccountInfo) : Option DelegationState :=
  match info.delegatedDrep with
  | none => some .none
  | some raw =>
    if raw.toLower ∈ ["abstain", "drep_always_abstain"] then some .abstain
    else if raw.toLower ∈ ["no_confidence", "drep_always_no_confidence"] then some .no_confidence
    else if isDrepId raw then some (.drep raw)
    else none

def outcomeFor (isDrepId : String → Bool) (info : Option AccountInfo) : ResolutionOutcome :=
  match info.bind (resolveDelegation isDrepId) with
  | none => .error
  | some state => .resolved state

/-- Whether an event is newer than the newest so far. -/
def newerStart (best row : AccountUpdateHistoryRow) : Bool :=
  row.absoluteSlot > best.absoluteSlot ||
    row.absoluteSlot == best.absoluteSlot && decide (row.epochNo > best.epochNo)

def delegationStartEpoch (rows : List AccountUpdateHistoryRow) : Option ℤ :=
  let best : Option AccountUpdateHistoryRow := rows.foldl (fun best row =>
    if row.actionType != "delegation_drep" then best
    else if best.all fun best => newerStart best row then some row else best) none
  best.map (·.epochNo)

/-- How a start is written: flat, or only while the row has none and the stamp that was
observed. -/
inductive SinceMode
  | flat
  | compare (observed : Option ℤ)

/-- A start that has been looked up and is about to be written. -/
structure SinceWrite where
  userId : String
  epoch : Option ℤ
  failed : Bool
  mode : SinceMode

/-- `setDelegatedSince` or `captureDelegatedSince`. -/
def SinceWrite.write (c : SinceWrite) (now : ℤ) (db : DelegationDb) : DelegationDb :=
  match c.mode with
  | .flat => setDelegatedSince db c.userId c.epoch now c.failed
  | .compare observed => captureDelegatedSince db c.userId c.epoch now observed c.failed

structure KoiosAnswer where
  account : Option (Option AccountInfo)
  accounts : Option (List AccountInfo)
  history : Option (List AccountUpdateHistoryRow)

/-! ### A login -/

/-- The arguments of `resolveFollow`, with what its insert draws. -/
structure LoginArgs where
  userId : String
  stakeAddr : String
  now : ℤ
  noticeId : String
  dbNow : ℤ

/-- A call of `resolveFollow`. -/
inductive LoginProc
  | account (args : LoginArgs)
  | apply (args : LoginArgs) (l : ApplyProc)
  | read (args : LoginArgs)
  | lookup (args : LoginArgs) (mode : SinceMode)
  | write (args : LoginArgs) (c : SinceWrite)
  | returned

/-- What follows a statement of `applyResolution`: a fresh baseline looks up its start, anything
else reads whether a retry is due. -/
def loginApplied (args : LoginArgs) : ApplyProc → LoginProc
  | .returned .created | .returned .changed => .lookup args .flat
  | .returned .unchanged | .returned .error => .read args
  | .threw => .returned
  | l => .apply args l

def loginRead (args : LoginArgs) : Option DelegatorFollowRow → LoginProc
  | none => .returned
  | some row =>
    if row.delegatedSinceEpoch.isNone &&
        row.sinceCheckedAt.all fun stamp => decide (stamp < args.now - SINCE_RETRY_SEC) then
      .lookup args (.compare row.sinceCheckedAt)
    else .returned

def lookupSince (stakeAddr : String) (history : Option (List AccountUpdateHistoryRow)) :
    Option ℤ × Bool :=
  match history with
  | some rows => (delegationStartEpoch (rows.filter fun r => r.stakeAddress == stakeAddr), false)
  | none => (none, true)

/-- The next step of a call of `resolveFollow`. -/
def loginStep (isDrepId : String → Bool) (answer : KoiosAnswer) (db : DelegationDb) :
    LoginProc → Option (DelegationDb × LoginProc)
  | .account args => some (db, .apply args (applyResolution args.userId
      (match answer.account with
        | some info => outcomeFor isDrepId info
        | none => .error)
      args.now args.noticeId args.dbNow))
  | .apply args l => (applyStep db l).map fun out => (out.1, loginApplied args out.2)
  | .read args => some (db, loginRead args (getFollow db args.userId))
  | .lookup args mode =>
    let found := lookupSince args.stakeAddr answer.history
    some (db, .write args ⟨args.userId, found.1, found.2, mode⟩)
  | .write args c => some (c.write args.now db, .returned)
  | .returned => none

/-! ### The cron -/

/-- What `refreshBulk` counts. -/
structure BulkCounts where
  attempted : ℕ
  resolved : ℕ
  failed : ℕ
  changed : ℕ

/-- The arguments of `refreshBulk`, with what its inserts draw. -/
structure BulkArgs where
  now : ℤ
  limit : ℕ
  draws : List (String × ℤ)

/-- An account that is due: its address and its user. -/
abbrev DueFollow := String × String

/-- A call of `refreshBulk`. -/
inductive BulkProc
  | due (args : BulkArgs)
  | accounts (args : BulkArgs) (byAddr : List DueFollow)
  | errors (args : BulkArgs) (chunks : List (List String)) (counts : BulkCounts)
  | apply (args : BulkArgs) (l : ApplyProc) (infos : List AccountInfo) (todo : List DueFollow)
    (userIds : List String) (counts : BulkCounts)
  | list (args : BulkArgs) (chunks : List (List String)) (found : List FollowMissingSince)
    (counts : BulkCounts)
  | history (args : BulkArgs) (pending : List FollowMissingSince) (counts : BulkCounts)
  | capture (args : BulkArgs) (writes : List SinceWrite) (counts : BulkCounts)
  | returned (counts : BulkCounts)

def chunksOf (size : ℕ) (ids : List String) : List (List String) :=
  (List.range ((ids.length + size - 1) / size)).map fun i => (ids.drop (i * size)).take size

/-- Stalest attempt first, then by user. -/
def dueBefore (r r' : DelegatorFollowRow) : Bool :=
  r.refreshAttemptedAt.getD 0 < r'.refreshAttemptedAt.getD 0 ||
    r.refreshAttemptedAt.getD 0 == r'.refreshAttemptedAt.getD 0 && decide (r.userId ≤ r'.userId)

def dueFollows (db : DelegationDb) (args : BulkArgs) : List DueFollow :=
  let due := db.follows.rows.filter fun row =>
    row.refreshAttemptedAt.all fun attempted => decide (attempted ≤ args.now - DUE_INTERVAL_SEC)
  ((due.insertionSort fun r r' => dueBefore r r' = true).take args.limit).map fun row =>
    (row.stakeAddr, row.userId)

/-- On to the statements of `listFollowsMissingSince`. -/
def bulkList (args : BulkArgs) (counts : BulkCounts) (found : List FollowMissingSince) :
    List (List String) → BulkProc
  | [] =>
    match stalestMissing SINCE_BULK_CAP found with
    | [] => .returned counts
    | pending => .history args pending counts
  | chunk :: chunks => .list args (chunk :: chunks) found counts

/-- On to the next account of the batch. The answer for an address is the last one that names it;
one that is not named could not be resolved. -/
def bulkNext (isDrepId : String → Bool) (args : BulkArgs) (infos : List AccountInfo)
    (userIds : List String) (counts : BulkCounts) : List DueFollow → BulkProc
  | [] => bulkList args counts [] (chunksOf 90 userIds)
  | (stakeAddr, userId) :: todo =>
    let info := infos.reverse.find? fun info => info.stakeAddress == stakeAddr
    let draw := args.draws.headD ("", 0)
    .apply { args with draws := args.draws.tail }
      (applyResolution userId (outcomeFor isDrepId info) args.now draw.1 draw.2) infos todo userIds
      counts

/-- What follows a statement of `applyResolution`. -/
def bulkApplied (isDrepId : String → Bool) (args : BulkArgs) (infos : List AccountInfo)
    (todo : List DueFollow) (userIds : List String) (counts : BulkCounts) : ApplyProc → BulkProc
  | .returned .changed => bulkNext isDrepId args infos userIds
    { counts with resolved := counts.resolved + 1, changed := counts.changed + 1 } todo
  | .returned .created | .returned .unchanged => bulkNext isDrepId args infos userIds
    { counts with resolved := counts.resolved + 1 } todo
  | .returned .error | .threw => bulkNext isDrepId args infos userIds
    { counts with failed := counts.failed + 1 } todo
  | l => .apply args l infos todo userIds counts

/-- The writes of `captureBulkSince`, from one answer for all. -/
def bulkWrites (pending : List FollowMissingSince)
    (history : Option (List AccountUpdateHistoryRow)) : List SinceWrite :=
  let rows := history.getD []
  let batchFailed := history.isNone
  let anyAddressResponded := !rows.isEmpty
  let wholeBatchEmpty := !batchFailed && decide (2 ≤ pending.length) && !anyAddressResponded
  pending.map fun p =>
    let addrRows := rows.filter fun r => r.stakeAddress == p.stakeAddr
    ⟨p.userId, delegationStartEpoch addrRows,
      batchFailed || wholeBatchEmpty || addrRows.isEmpty && anyAddressResponded,
      .compare p.sinceCheckedAt⟩

/-- The next step of a call of `refreshBulk`. -/
def bulkStep (isDrepId : String → Bool) (answer : KoiosAnswer) (db : DelegationDb) :
    BulkProc → Option (DelegationDb × BulkProc)
  | .due args =>
    some (db, match dueFollows db args with
      | [] => .returned ⟨0, 0, 0, 0⟩
      | byAddr => .accounts args byAddr)
  | .accounts args byAddr =>
    some (db, match answer.accounts with
      | none => .errors args (chunksOf 40 (byAddr.map (·.2))) ⟨byAddr.length, 0, byAddr.length, 0⟩
      | some infos =>
        bulkNext isDrepId args infos (byAddr.map (·.2)) ⟨byAddr.length, 0, 0, 0⟩ byAddr)
  -- the lookup failed: every account is marked, 40 to a statement
  | .errors args (chunk :: chunks) counts =>
    some (markErrors db chunk args.now, .errors args chunks counts)
  | .errors _ [] counts => some (db, .returned counts)
  | .apply args l infos todo userIds counts => (applyStep db l).map fun out =>
    (out.1, bulkApplied isDrepId args infos todo userIds counts out.2)
  | .list args (chunk :: chunks) found counts =>
    some (db, bulkList args counts
      (found ++ listMissingChunk db chunk (args.now - SINCE_RETRY_SEC) SINCE_BULK_CAP) chunks)
  | .list args [] found counts => some (db, bulkList args counts found [])
  | .history args pending counts =>
    some (db, .capture args (bulkWrites pending answer.history) counts)
  -- each start is written by itself
  | .capture args (c :: writes) counts => some (c.write args.now db, .capture args writes counts)
  | .capture _ [] counts => some (db, .returned counts)
  | .returned _ => none

inductive RefreshProc
  | login (l : LoginProc)
  | bulk (l : BulkProc)

def refreshStep (isDrepId : String → Bool) (answer : KoiosAnswer) (db : DelegationDb) :
    RefreshProc → Option (DelegationDb × RefreshProc)
  | .login l => (loginStep isDrepId answer db l).map fun out => (out.1, .login out.2)
  | .bulk l => (bulkStep isDrepId answer db l).map fun out => (out.1, .bulk out.2)

end DrepTalk
