import DrepTalk.Library.Table
import Mathlib.Data.Int.Order.Basic

/-!
# Co-proposer grants

`src/lib/db/proposerGrants.ts` over the tables of the migrations: the statements of
`createGrantInvite`, `redeemGrant`, `revokeGrant` and `withdrawInvite`, each as the atomic unit
it is for the database. A table carries its unique indexes (`GrantTable`): a statement that
would break one aborts, and with it the batch it is part of.

The random id and code of an invite are arguments, and so are the clock reading of a call and
the hash function. Of a user only the name is kept that a redeemed invite may fill in.
-/

namespace DrepTalk

def MAX_GRANTS_PER_ACTION : ℕ := 4

def GRANT_INVITE_TTL_SEC : ℤ := 604800

inductive GrantStatus
  | pending
  | active
  | revoked
  deriving DecidableEq

/-- A row of `proposer_grants`. -/
structure GrantRow where
  id : String
  proposerUserId : String
  proposerStakeAddr : String
  govActionId : Option String
  teamLabel : Option String
  coUserId : Option String
  coStakeAddr : Option String
  inviteCodeHash : String
  status : GrantStatus
  createdAt : ℤ
  expiresAt : ℤ
  redeemedAt : Option ℤ
  revokedAt : Option ℤ

/-- What the partial index on active grants indexes; a `NULL` is never equal to another. -/
def activeKey (r : GrantRow) : Option (String × String) :=
  if r.status = .active then
    match r.coStakeAddr, r.govActionId with
    | some coStakeAddr, some govActionId => some (coStakeAddr, govActionId)
    | _, _ => none
  else none

/-- The table with its primary key and its unique indexes. -/
structure GrantTable where
  rows : List GrantRow
  id_unique : (rows.map (·.id)).Nodup
  hash_unique : (rows.map (·.inviteCodeHash)).Nodup
  active_unique : (rows.filterMap activeKey).Nodup

namespace GrantTable

/-- The table with these rows, unless they break a unique index. -/
def commit (rows : List GrantRow) : Option GrantTable :=
  if h : (rows.map (·.id)).Nodup ∧ (rows.map (·.inviteCodeHash)).Nodup ∧
      (rows.filterMap activeKey).Nodup then
    some ⟨rows, h.1, h.2.1, h.2.2⟩
  else none

def deleteWhere (t : GrantTable) (p : GrantRow → Bool) : GrantTable where
  rows := Table.deleteWhere p t.rows
  id_unique := t.id_unique.sublist ((Table.deleteWhere_sublist p t.rows).map _)
  hash_unique := t.hash_unique.sublist ((Table.deleteWhere_sublist p t.rows).map _)
  active_unique := t.active_unique.sublist ((Table.deleteWhere_sublist p t.rows).filterMap _)

theorem rows_of_commit {rows : List GrantRow} {t : GrantTable} (h : commit rows = some t) :
    t.rows = rows := by
  rw [commit] at h
  split_ifs at h
  rw [← Option.some.inj h]

end GrantTable

/-- The columns of `users` a redeemed invite reads and writes. -/
structure GrantUser where
  id : String
  displayName : Option String
  deriving DecidableEq

structure GrantDb where
  grants : GrantTable
  users : List GrantUser

/-! ### Inviting -/

/-- The arguments of `createGrantInvite`. -/
structure InviteArgs where
  proposerUserId : String
  proposerStakeAddr : String
  govActionId : String
  teamLabel : Option String

/-- What `createGrantInvite` returns. -/
structure Invite where
  grantId : String
  inviteCode : String
  expiresAt : ℤ

/-- Rows the sweep removes: without an action, or pending and expired. -/
def sweeps (now : ℤ) (r : GrantRow) : Bool :=
  r.govActionId.isNone || r.status == .pending && decide (r.expiresAt ≤ now)

/-- Rows the limit of an action counts: active, or pending and not expired. -/
def occupies (govActionId : String) (now : ℤ) (r : GrantRow) : Bool :=
  r.govActionId == some govActionId &&
    (r.status == .active || r.status == .pending && decide (now < r.expiresAt))

def inviteRow (args : InviteArgs) (now : ℤ) (grantId codeHash : String) : GrantRow where
  id := grantId
  proposerUserId := args.proposerUserId
  proposerStakeAddr := args.proposerStakeAddr
  govActionId := some args.govActionId
  teamLabel := args.teamLabel
  coUserId := none
  coStakeAddr := none
  inviteCodeHash := codeHash
  status := .pending
  createdAt := now
  expiresAt := now + GRANT_INVITE_TTL_SEC
  redeemedAt := none
  revokedAt := none

/-- The batch of `createGrantInvite`: the sweep, and the insert that counts again. `none` stands
for an abort, after which the call throws. -/
def createGrantInvite (sha256Hex : String → String) (db : GrantDb) (args : InviteArgs) (now : ℤ)
    (grantId inviteCode : String) : Option (GrantDb × Option Invite) :=
  let codeHash := sha256Hex inviteCode
  let swept := db.grants.deleteWhere (sweeps now)
  if swept.rows.countP (occupies args.govActionId now) < MAX_GRANTS_PER_ACTION then
    match GrantTable.commit (swept.rows ++ [inviteRow args now grantId codeHash]) with
    | some grants =>
      some ({ db with grants }, some ⟨grantId, inviteCode, now + GRANT_INVITE_TTL_SEC⟩)
    | none => none
  else some ({ db with grants := swept }, none)

/-! ### Redeeming -/

/-- The arguments of `redeemGrant`. -/
structure RedeemArgs where
  grantId : String
  coUserId : String
  coStakeAddr : String
  displayName : String
  deriving DecidableEq

/-- What `redeemGrant` returns. -/
inductive RedeemAnswer
  | ok (proposerUserId proposerStakeAddr : String)
  | unavailable
  | mandateTaken
  | self

/-- The read before the claim: the proposer redeems their own code. -/
def isSelfInvite (db : GrantDb) (args : RedeemArgs) : Bool :=
  db.grants.rows.any fun r =>
    r.id == args.grantId && r.proposerStakeAddr == args.coStakeAddr

def claims (args : RedeemArgs) (now : ℤ) (r : GrantRow) : Bool :=
  r.id == args.grantId && r.status == .pending && decide (now < r.expiresAt) &&
    r.govActionId.isSome && r.proposerStakeAddr != args.coStakeAddr

def activate (args : RedeemArgs) (now : ℤ) (r : GrantRow) : GrantRow :=
  { r with
    status := .active
    coUserId := some args.coUserId
    coStakeAddr := some args.coStakeAddr
    redeemedAt := some now }

/-- The user whose empty name is filled in, where the grant is active for them. -/
def fillsName (grants : GrantTable) (args : RedeemArgs) (u : GrantUser) : Bool :=
  u.id == args.coUserId && (u.displayName == none || u.displayName == some "") &&
    grants.rows.any fun r =>
      r.id == args.grantId && r.status == .active && r.coUserId == some args.coUserId

/-- The batch of `redeemGrant`, with the row the claim returns. `none` stands for an abort by
the index on active grants. -/
def redeemBatch (db : GrantDb) (args : RedeemArgs) (now : ℤ) : Option (GrantDb × Option GrantRow) :=
  match GrantTable.commit (Table.updateWhere (claims args now) (activate args now) db.grants.rows) with
  | some grants =>
    some (⟨grants, Table.updateWhere (fillsName grants args)
        (fun u => { u with displayName := some args.displayName }) db.users⟩,
      ((db.grants.rows.filter (claims args now)).map (activate args now)).head?)
  | none => none

/-- The compensating delete after an abort. -/
def dropPending (db : GrantDb) (grantId : String) : GrantDb :=
  { db with grants := db.grants.deleteWhere fun r => r.id == grantId && r.status == .pending }

/-! ### Revoking and withdrawing -/

/-- The condition of the flip in `revokeGrant`. -/
def revokes (grantId proposerUserId : String) (r : GrantRow) : Bool :=
  r.id == grantId && r.proposerUserId == proposerUserId && r.status == .active

def revoke (now : ℤ) (r : GrantRow) : GrantRow :=
  { r with status := .revoked, revokedAt := some now }

/-- The flip of `revokeGrant`. -/
def revokeFlip (db : GrantDb) (grantId proposerUserId : String) (now : ℤ) : Option GrantDb :=
  match GrantTable.commit
      (Table.updateWhere (revokes grantId proposerUserId) (revoke now) db.grants.rows) with
  | some grants => some { db with grants }
  | none => none

/-- The read after the flip, which is the answer of `revokeGrant`. -/
def isRevoked (db : GrantDb) (grantId proposerUserId : String) : Bool :=
  db.grants.rows.any fun r =>
    r.id == grantId && r.proposerUserId == proposerUserId && r.status == .revoked

/-- The condition of `withdrawInvite`. -/
def withdraws (grantId proposerUserId : String) (r : GrantRow) : Bool :=
  r.id == grantId && r.proposerUserId == proposerUserId && r.status == .pending

/-- Deletes a pending invite; the answer says whether there was one. -/
def withdrawInvite (db : GrantDb) (grantId proposerUserId : String) : GrantDb × Bool :=
  ({ db with grants := db.grants.deleteWhere (withdraws grantId proposerUserId) },
    db.grants.rows.any (withdraws grantId proposerUserId))

end DrepTalk
