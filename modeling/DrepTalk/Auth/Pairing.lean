import DrepTalk.Auth.Session
import DrepTalk.Library.Table
import DrepTalk.Text.JsText

/-!
# Pairing a device

`src/lib/auth/pairing.ts`, with the endpoints that approve a pairing and redeem it: a device starts
a pairing and shows its code, a session approves the code, and the device trades its secret for a
session of its own, with at most the roles and no more than the lifetime of the one that approved.

A call is a process over the database and the key-value store. The hash function, upper case and the
list of moderators are parameters, tokens and codes are drawn from outside, and any statement may
fail. Rate limits can only end a call early; the notice about a new device comes after everything
else.
-/

namespace DrepTalk

/-! ### Roles -/

def WRITER_ROLES : List String := ["drep", "spo", "cc", "proposer"]

def CO_PROPOSER_ROLE : String := "co-proposer"

def MODERATOR_ROLES : List String := ["admin", "moderator"]

def ROLE_PRIORITY : List String :=
  ["drep", "spo", "cc", "proposer", "co-proposer", "admin", "moderator", "member"]

def normalizeSessionRoles (roles : List String) : List String :=
  ROLE_PRIORITY.filter fun r => roles.contains r

/-- A row of `users`, by the columns a redemption reads. -/
structure AccountRow where
  id : String
  stakeAddr : Option String
  drepId : Option String
  isDrep : Bool
  isProposer : Bool
  isSpo : Bool
  isCc : Bool
  displayName : Option String
  deriving DecidableEq

def rolesFromUser (user : AccountRow) (modRole : Option String) : List String :=
  let roles := (if user.isDrep then ["drep"] else []) ++
    (if user.isProposer then ["proposer"] else []) ++ (if user.isSpo then ["spo"] else []) ++
    (if user.isCc then ["cc"] else []) ++ (modRole.filter (· != "")).toList
  if roles = [] then ["member"] else roles

def withCoProposerRole (roles : List String) : List String :=
  normalizeSessionRoles (roles.filter (· != "member") ++ [CO_PROPOSER_ROLE])

def redeemedRoles (currentRoles : List String) (cap : Option (List String)) (hasGrant : Bool) :
    List String :=
  let pairedRoles := match cap with
    | none => currentRoles
    | some cap => currentRoles.filter fun r => cap.contains r
  let withGrant := if hasGrant then withCoProposerRole pairedRoles else pairedRoles
  if withGrant.length > 0 then withGrant else ["member"]

/-! ### Pairings -/

def PAIRING_TTL_SEC : ℤ := 600

def PAIRING_CODE_ALPHABET : Text := "23456789ABCDEFGHJKMNPQRSTUVWXYZ".toList

def PAIRING_CODE_LENGTH : ℕ := 8

/-- `status` of a pairing. -/
inductive PairingStatus
  | pending
  | approved
  | consumed
  deriving DecidableEq

/-- The column `approver_roles`: an array, by its strings, or some other text. -/
inductive StoredRoles
  | array (roles : List String)
  | unreadable

/-- A row of `device_pairings`. -/
structure PairingRow where
  pairingId : String
  codeHash : String
  secretHash : String
  status : PairingStatus
  userId : Option String
  approverRoles : Option StoredRoles
  approverLifetimeStart : Option ℤ
  userAgent : Option String
  createdAt : ℤ
  expiresAt : ℤ

abbrev PairingTable :=
  DoublyKeyedTable (fun row : PairingRow => row.pairingId) fun row : PairingRow => row.codeHash

/-- What the calls are given by the platform and the operator. -/
structure PairingEnv where
  sha256Hex : String → String
  toUpperCase : Text → Text
  moderators : String → Option String

def normalizePairingCode (env : PairingEnv) (input : Text) : Option Text :=
  let stripped := (env.toUpperCase input).filter fun c => !(JsText.isSpace c || c == '-')
  if stripped.length ≠ PAIRING_CODE_LENGTH then none
  else if stripped.all fun ch => PAIRING_CODE_ALPHABET.contains ch then some stripped
  else none

/-- `parseApproverRoles`: only an empty column means that there is no cap. -/
def parseApproverRoles : Option StoredRoles → Option (List String)
  | none => none
  | some (.array roles) => some (normalizeSessionRoles roles)
  | some .unreadable => some []

structure PairingStart where
  pairingId : String
  deviceSecret : String
  code : Text
  expiresAt : ℤ

def PairingStart.row (env : PairingEnv) (p : PairingStart) (userAgent : Option String) (now : ℤ) :
    PairingRow where
  pairingId := p.pairingId
  codeHash := env.sha256Hex (String.ofList p.code)
  secretHash := env.sha256Hex p.deviceSecret
  status := .pending
  userId := none
  approverRoles := none
  approverLifetimeStart := none
  userAgent := userAgent
  createdAt := now
  expiresAt := p.expiresAt

/-- The batch of `createPairing`: sweep, then insert. It fails where a key is taken. -/
def insertPairing (table : PairingTable) (row : PairingRow) (now : ℤ) : Option PairingTable :=
  let (table, inserted) :=
    (table.deleteWhere fun r => decide (r.expiresAt ≤ now)).insertOrIgnore row
  if inserted then some table else none

/-- The session that approves, as the endpoint knows it. -/
structure ApproverSession where
  id : String
  roles : List String
  lifetimeStart : ℤ

def isApprovable (codeHash : String) (now : ℤ) (row : PairingRow) : Bool :=
  row.codeHash == codeHash && row.status == .pending && decide (now < row.expiresAt)

/-- The statement of `approvePairing`. -/
def approveRow (table : PairingTable) (codeHash : String) (approver : ApproverSession) (now : ℤ) :
    PairingTable × Option String :=
  (table.updateWhere (isApprovable codeHash now)
    (fun row => { row with
      status := .approved, userId := some approver.id,
      approverRoles := some (.array (normalizeSessionRoles approver.roles)),
      approverLifetimeStart := some approver.lifetimeStart }) (fun _ _ => rfl) fun _ _ => rfl,
    (table.rows.find? (isApprovable codeHash now)).map (·.pairingId))

def isClaimable (pairingId : String) (row : PairingRow) : Bool :=
  row.pairingId == pairingId && row.status == .approved

/-- The statement with which `pollPairing` claims a pairing, and the row that it returns. -/
def claimRow (table : PairingTable) (pairingId : String) : PairingTable × Option PairingRow :=
  (table.updateWhere (isClaimable pairingId) (fun row => { row with status := .consumed })
    (fun _ _ => rfl) fun _ _ => rfl,
    table.rows.find? (isClaimable pairingId))

/-! ### Where sessions come from -/

/-- How a session has come about: from a sign-in, or from a pairing that another one approved, with
the account as it was. -/
inductive SessionBirth
  | login (record : SessionRecord)
  | paired (record : SessionRecord) (account : AccountRow) (modRole : Option String)
      (approver : SessionBirth)
  deriving DecidableEq

def SessionBirth.record : SessionBirth → SessionRecord
  | .login record => record
  | .paired record _ _ _ => record

/-- An approval that has gone through. -/
structure PairingApproval where
  pairingId : String
  code : Text
  now : ℤ
  approver : SessionBirth

/-- A session that a pairing has been traded for. -/
structure PairingRedemption where
  pairingId : String
  deviceSecret : String
  hasGrant : Bool
  now : ℤ
  record : SessionRecord
  account : AccountRow
  modRole : Option String
  approver : SessionBirth

def PairingRedemption.birth (m : PairingRedemption) : SessionBirth :=
  .paired m.record m.account m.modRole m.approver

/-- The tables and the store; and what has been drawn, started, approved and redeemed so far, and
how the session under each key has come about. -/
structure PairingWorld where
  pairings : PairingTable
  users : KeyedTable fun row : AccountRow => row.id
  grantHolders : List String
  sessions : SessionStore
  drawn : List String
  started : List PairingStart
  approvals : List PairingApproval
  redemptions : List PairingRedemption
  births : String → Option SessionBirth

/-! ### Calls -/

/-- A pairing that a poll has claimed. -/
structure PairingClaim where
  pairingId : String
  deviceSecret : String
  label : Option String
  userId : String
  approverRoles : Option StoredRoles
  approverLifetimeStart : Option ℤ

inductive PairingAnswer
  | started (start : PairingStart)
  | approved (answer : Bool)
  | unauthorized
  | pending
  | unknown
  | signedIn (userId : String) (roles : List String) (displayName : Option String) (token : String)
  | failed

inductive PairingProc
  | createPairing (userAgent : Option String) (now : ℤ)
  | inserting (pairingId deviceSecret : String) (userAgent : Option String) (now : ℤ)
      (attempts : ℕ)
  | approve (token : String) (rawCode : Text) (readAt now : ℤ)
  | approving (approver : SessionBirth) (session : ApproverSession) (rawCode : Text) (now : ℤ)
  | pollPairing (pairingId deviceSecret : String) (label : Option String) (now : ℤ)
  | claiming (pairingId deviceSecret : String) (label : Option String)
  | resolving (claim : PairingClaim)
  | granting (claim : PairingClaim) (account : AccountRow)
  | minting (claim : PairingClaim) (account : AccountRow) (hasGrant : Bool)
  | indexing (now : ℤ) (keyHash : String) (hashes : List String) (userId : String)
      (answer : PairingAnswer)
  | returned (answer : PairingAnswer)

/-- What comes in from outside a step. -/
inductive PairingInput
  | statement
  | tokens (pairingId deviceSecret : String)
  | code (code : Text)
  | mint (now : ℤ) (token : String)
  | fails

def modRoleOf (env : PairingEnv) (account : AccountRow) : Option String :=
  (account.stakeAddr.filter (· != "")).bind env.moderators

/-- The session that `resolveSessionLocals` finds under a token, and how it has come about. -/
def approverOf (env : PairingEnv) (w : PairingWorld) (token : String) (readAt : ℤ) :
    Option (SessionBirth × ApproverSession) :=
  match readRecord w.sessions readAt (env.sha256Hex token) with
  | none => none
  | some record =>
    if readAt > lifetimeEndsAt record ∨ (record.grantId.filter (· != "")).isSome ∨
        record.actsFor.isSome then none
    else some ((w.births (env.sha256Hex token)).getD (.login record),
      ⟨record.userId, record.roles, sessionLifetimeStart record⟩)

/-- The record of the device's session. -/
def PairingClaim.newRecord (env : PairingEnv) (claim : PairingClaim) (account : AccountRow)
    (hasGrant : Bool) (now : ℤ) : SessionRecord :=
  let roles := redeemedRoles (rolesFromUser account (modRoleOf env account))
    (parseApproverRoles claim.approverRoles) hasGrant
  DrepTalk.newRecord now
    ⟨account.id, roles, if roles.contains "drep" then account.drepId else none⟩
    claim.approverLifetimeStart claim.label

/-- The approval of a pairing that has been claimed. -/
def PairingWorld.approverFor (w : PairingWorld) (pairingId : String) : Option SessionBirth :=
  (w.approvals.find? fun a => a.pairingId == pairingId).map (·.approver)

/-- The record of the device goes into the store. -/
def mintSession (env : PairingEnv) (w : PairingWorld) (claim : PairingClaim) (account : AccountRow)
    (hasGrant : Bool) (now : ℤ) (token : String) : PairingWorld :=
  let keyHash := env.sha256Hex token
  let record := claim.newRecord env account hasGrant now
  let redemption : PairingRedemption :=
    ⟨claim.pairingId, claim.deviceSecret, hasGrant, now, record, account, modRoleOf env account,
      (w.approverFor claim.pairingId).getD (.login record)⟩
  { w with
    sessions := w.sessions.putFor now (sessKey keyHash) (.session record) (renewalTtl record now)
    redemptions := w.redemptions ++ [redemption]
    births := fun k => if k = keyHash then some redemption.birth else w.births k }

/-- The next step of a call. A token that is drawn has not been drawn before. -/
def pairingStep (env : PairingEnv) (input : PairingInput) (w : PairingWorld) :
    PairingProc → Option (PairingWorld × PairingProc)
  | .createPairing userAgent now =>
    match input with
    | .tokens pairingId deviceSecret =>
      if pairingId ∈ w.drawn then none
      else some ({ w with drawn := pairingId :: w.drawn },
        .inserting pairingId deviceSecret userAgent now 2)
    | _ => none
  | .inserting pairingId deviceSecret userAgent now attempts =>
    match attempts, input with
    | 0, _ => some (w, .returned .failed)
    | attempts + 1, .code code =>
      let start : PairingStart := ⟨pairingId, deviceSecret, code, now + PAIRING_TTL_SEC⟩
      match insertPairing w.pairings (start.row env userAgent now) now with
      | some pairings =>
        some ({ w with pairings := pairings, started := w.started ++ [start] },
          .returned (.started start))
      | none => some (w, .inserting pairingId deviceSecret userAgent now attempts)
    | attempts + 1, .fails => some (w, .inserting pairingId deviceSecret userAgent now attempts)
    | _, _ => none
  | .approve token rawCode readAt now =>
    match input with
    | .statement =>
      match approverOf env w token readAt with
      | none => some (w, .returned .unauthorized)
      | some (approver, session) => some (w, .approving approver session rawCode now)
    | .fails => some (w, .returned .unauthorized)
    | _ => none
  | .approving approver session rawCode now =>
    match input with
    | .statement =>
      match normalizePairingCode env rawCode with
      | none => some (w, .returned (.approved false))
      | some code =>
        match approveRow w.pairings (env.sha256Hex (String.ofList code)) session now with
        | (pairings, some pairingId) =>
          some ({ w with
            pairings := pairings
            approvals := w.approvals ++ [⟨pairingId, code, now, approver⟩] },
            .returned (.approved true))
        | (pairings, none) => some ({ w with pairings := pairings }, .returned (.approved false))
    | .fails => some (w, .returned .failed)
    | _ => none
  | .pollPairing pairingId deviceSecret label now =>
    match input with
    | .statement =>
      match w.pairings.rows.find? fun r => r.pairingId == pairingId && decide (now < r.expiresAt) with
      | none => some (w, .returned .unknown)
      | some row =>
        if row.secretHash ≠ env.sha256Hex deviceSecret then some (w, .returned .unknown)
        else
          match row.status with
          | .pending => some (w, .returned .pending)
          | .consumed => some (w, .returned .unknown)
          | .approved => some (w, .claiming pairingId deviceSecret label)
    | .fails => some (w, .returned .failed)
    | _ => none
  | .claiming pairingId deviceSecret label =>
    match input with
    | .statement =>
      let (pairings, claimed) := claimRow w.pairings pairingId
      let w := { w with pairings := pairings }
      match claimed.bind fun row => (row.userId.filter (· != "")).map fun userId =>
          (⟨pairingId, deviceSecret, label, userId, row.approverRoles,
            row.approverLifetimeStart⟩ : PairingClaim) with
      | none => some (w, .returned .unknown)
      | some claim => some (w, .resolving claim)
    | .fails => some (w, .returned .failed)
    | _ => none
  | .resolving claim =>
    match input with
    | .statement =>
      match w.users.rows.find? fun u => u.id == claim.userId with
      | none => some (w, .returned .unknown)
      | some account => some (w, .granting claim account)
    | .fails => some (w, .returned .failed)
    | _ => none
  | .granting claim account =>
    match input with
    | .statement => some (w, .minting claim account (w.grantHolders.contains account.id))
    | .fails => some (w, .returned .failed)
    | _ => none
  | .minting claim account hasGrant =>
    match input with
    | .mint now token =>
      let record := claim.newRecord env account hasGrant now
      some (mintSession env w claim account hasGrant now token,
        .indexing now (env.sha256Hex token) (readHashIndex w.sessions now account.id) account.id
          (.signedIn account.id record.roles account.displayName token))
    | .fails => some (w, .returned .failed)
    | _ => none
  | .indexing now keyHash hashes userId answer =>
    match input with
    | .statement =>
      some ({ w with
        sessions := w.sessions.putFor now (usessKey userId) (.hashes (hashes ++ [keyHash]))
          SESSION_TTL_SEC }, .returned answer)
    | .fails => some (w, .returned .failed)
    | _ => none
  | .returned _ => none

end DrepTalk
