import DrepTalk.Auth.Accounts
import DrepTalk.Auth.NonceRuns
import DrepTalk.Auth.Signatures

/-!
# Proofs at the door

`handleVerify`, `handleLinkStake` and `handleRedeemGrant` (`src/lib/auth/handlers.ts`,
`linkStake.ts`, `coProposerRedeem.ts`), with the challenges they answer to. Each takes a payload
that somebody has signed: to log in, to link a stake key to an account, or to redeem an invite. All
consume it as a nonce, and verify the signature, before they look at accounts.

A request is a process that runs one statement, or one call to Koios, after the other. Any of them
may fail (`loginFails`); the handler then answers 500, or goes on where the code catches the error.
Which nonce is drawn, what Koios answers and what the clock says come in from outside.

Beside the tables the world records what has been signed with which key, which payloads have been
issued for what, what Koios has answered, and which requests have succeeded.
-/

namespace DrepTalk

def MAX_PAYLOAD_LEN : ℕ := 2048

def MAX_KEY_HEX_LEN : ℕ := 4096

def MAX_SIG_HEX_LEN : ℕ := 16384

def RAW_SIG_HEX_LEN : ℕ := 128

def RAW_PUBKEY_HEX_LEN : ℕ := 64

def MAX_CODE_LEN : ℕ := 64

def MAX_CO_PROPOSER_NAME : ℕ := 60

/-- What the handlers are given by packages, the platform and the operator. -/
structure LoginEnv extends SignatureEnv where
  network : CardanoNetwork
  sha256Hex : String → String
  getModeratorRole : String → Option String

/-! ### Challenges -/

def isHostChar (c : Char) : Bool := c.isAlphanum || c == '.' || c == '-'

/-- `HOST_RE`. -/
def matchesHost (rawHost : Text) : Bool :=
  !(rawHost.takeWhile isHostChar).isEmpty &&
    match rawHost.dropWhile isHostChar with
    | [] => true
    | ':' :: port => port.all Char.isDigit && decide (1 ≤ port.length) && decide (port.length ≤ 5)
    | _ => false

inductive Intent
  | login (rawHost : Text)
  | linkStake (userId : String)
  | redeemGrant (grantId : String)
  deriving DecidableEq

def LINK_STAKE_PREFIX : Text := "link_stake:".toList

def GRANT_REDEEM_PREFIX : Text := "proposer_grant_redeem:".toList

/-- The domain of a payload that links a stake key. -/
def linkStakeDomain (userId : String) : Text := LINK_STAKE_PREFIX ++ userId.toList

def grantRedeemDomain (grantId : String) : Text := GRANT_REDEEM_PREFIX ++ grantId.toList

/-- The domain bound into the payload. -/
def Intent.domain : Intent → Text
  | .login rawHost => if matchesHost rawHost then rawHost else "unknown".toList
  | .linkStake userId => linkStakeDomain userId
  | .redeemGrant grantId => grantRedeemDomain grantId

def isValidCode (code : Text) : Bool :=
  decide (0 < code.length) && decide (code.length ≤ MAX_CODE_LEN) && code.all isBase64Url

/-! ### Requests -/

/-- `VerifyBody`. A field that is not a string counts as missing, and the origin token is what
`parseSignupRef` reads. -/
structure VerifyBody where
  payload : Option Text
  signatureHex : Option Text
  keyHex : Option Text
  publicKeyHex : Option Text
  role : Option String
  scriptDrepId : Option Text
  ref : Option String
  deriving DecidableEq

structure LinkStakeBody where
  payload : Option Text
  signatureHex : Option Text
  keyHex : Option Text
  deriving DecidableEq

structure RedeemGrantBody where
  code : Option Text
  payload : Option Text
  signatureHex : Option Text
  keyHex : Option Text
  displayName : Option Text
  deriving DecidableEq

/-- A request; `userId` is that of the session. -/
inductive ProofRequest
  | verify (body : VerifyBody)
  | linkStake (userId : String) (body : LinkStakeBody)
  | redeemGrant (body : RedeemGrantBody)
  deriving DecidableEq

inductive LoginRole
  | drep
  | proposer
  | delegator
  | spo
  | cc
  deriving DecidableEq

def LoginRole.parse : String → Option LoginRole
  | "drep" => some .drep
  | "proposer" => some .proposer
  | "delegator" => some .delegator
  | "spo" => some .spo
  | "cc" => some .cc
  | _ => none

/-- What a request wants its payload for. -/
inductive Purpose
  | login (role : LoginRole) (scriptDrepId : Option Text) (ref : Option String)
  | linkStake (userId : String)
  | redeemGrant (grantId displayName : String)
  deriving DecidableEq

/-- The domain that `consumeNonceForDomain` is called with. A login calls `consumeNonce`. -/
def Purpose.expectedDomain : Purpose → Option Text
  | .login _ _ _ => none
  | .linkStake userId => some (linkStakeDomain userId)
  | .redeemGrant grantId _ => some (grantRedeemDomain grantId)

inductive SignatureKind
  | wallet
  | raw
  deriving DecidableEq

structure SignedProof where
  purpose : Purpose
  kind : SignatureKind
  payload : Text
  signatureHex : Text
  keyHex : Text
  deriving DecidableEq

structure Proven where
  purpose : Purpose
  payload : Text
  pubKey : Bytes
  deriving DecidableEq

inductive ProofAnswer
  | failed (status : ℕ) (error : String)
  | session (user : SessionUser)
  | linked
  deriving DecidableEq

/-- Who asks for the account of a stake address. -/
inductive Door
  | delegator
  | coProposer (modRole : Option String)
  | redeemGrant (grantId displayName : String)
  deriving DecidableEq

/-- A call, by the statement it is about to run, or its answer. -/
inductive DoorProc
  | redeemChallenge (code : Text)
  | challenge (intent : Intent)
  | issued (payload : Text)
  | received (request : ProofRequest)
  | inviteOf (code payload signatureHex keyHex : Text) (displayName : String)
  | consuming (proof : SignedProof)
  | scriptDrep (p : Proven) (drepId : String)
  | drep (p : Proven) (drepId : String)
  | proposer (p : Proven) (stakeAddr : String)
  | grantee (p : Proven) (stakeAddr : String) (modRole : Option String)
  | granteeGrant (p : Proven) (stakeAddr : String) (modRole : Option String) (userId : String)
  | spo (p : Proven)
  | cc (p : Proven)
  | upserting (p : Proven) (identity : Identity) (roles : List AuthRole) (modRole : Option String)
  | upserted (p : Proven) (identity : Identity) (modRole : Option String)
  | grantOf (p : Proven) (identity : Identity) (modRole : Option String) (user : UserRow)
  | resolving (p : Proven) (stakeAddr : String) (door : Door)
  | touching (p : Proven) (stakeAddr : String) (door : Door) (userId : String)
  | touched (p : Proven) (stakeAddr : String) (door : Door) (userId : String)
  | creating (p : Proven) (stakeAddr : String) (door : Door)
  | created (p : Proven) (stakeAddr : String) (door : Door)
  | rereading (p : Proven) (stakeAddr : String) (door : Door) (broken : Bool)
  | following (p : Proven) (stakeAddr : String) (user : UserRow)
  | followed (p : Proven) (stakeAddr : String) (user : UserRow)
  | delegatorGrant (p : Proven) (stakeAddr : String) (user : UserRow)
  | selfInvite (p : Proven) (user : UserRow) (args : RedeemArgs)
  | claiming (p : Proven) (user : UserRow) (args : RedeemArgs)
  | dropping (p : Proven) (args : RedeemArgs)
  | minting (p : Proven) (identity : Identity) (session : SessionUser)
  | linking (p : Proven) (userId stakeAddr : String)
  | linkOwner (p : Proven) (userId stakeAddr : String)
  | linkSelf (p : Proven) (userId stakeAddr : String)
  | refused (answer : ProofAnswer)
  | answered (p : Proven) (identity : Identity) (answer : ProofAnswer)
  | unavailable
  deriving DecidableEq

def DoorProc.refuse (status : ℕ) (error : String) : DoorProc := .refused (.failed status error)

def DoorProc.fail (p : Proven) (identity : Identity) (status : ℕ) (error : String) : DoorProc :=
  .answered p identity (.failed status error)

/-! ### What Koios answers -/

/-- `DrepInfo`. -/
structure KoiosDrepInfo where
  hasScript : Bool
  drepStatus : String
  active : Bool

structure PoolCalidusKeyRow where
  calidusPubKey : Text
  registered : Bool
  poolStatus : String
  poolIdBech32 : String

/-- `CommitteeMember`. -/
structure KoiosCommitteeMember where
  status : String
  ccHotHasScript : Option Bool
  ccHotHex : Option Text
  ccHotId : Option String
  ccColdId : Option String

/-- An answer to one of the questions. The script is what `parseNativeScriptJson` makes of the
answer. -/
inductive RoleAnswer
  | drepInfo (info : Option KoiosDrepInfo)
  | scriptDrep (info : Option KoiosDrepInfo) (script : Option NativeScript)
  | proposals (returnAddresses : List String)
  | calidusKey (row : Option PoolCalidusKeyRow)
  | committee (members : List KoiosCommitteeMember)

def resolveDRep : Option KoiosDrepInfo → Bool
  | none => false
  | some info => !info.hasScript && info.drepStatus == "registered" && info.active

def resolveProposer (stakeAddress : String) (returnAddresses : List String) : Bool :=
  returnAddresses.any (· == stakeAddress)

/-- `resolveSpo`: the pool. -/
def resolveSpo (calidusPubKeyHex : Text) : Option PoolCalidusKeyRow → Option String
  | none => none
  | some row =>
    if row.calidusPubKey.map Char.toLower ≠ calidusPubKeyHex.map Char.toLower then none
    else if !row.registered || row.poolStatus != "registered" then none
    else some row.poolIdBech32

/-- The member that `resolveCc` finds. -/
def isHotMember (hotKeyHashHex : Text) (m : KoiosCommitteeMember) : Bool :=
  m.status == "authorized" && m.ccHotHasScript == some false &&
    m.ccHotHex.map (·.map Char.toLower) == some (hotKeyHashHex.map Char.toLower)

/-- `resolveCc`: the cold credential, or else the hot one. -/
def resolveCc (hotKeyHashHex : Text) (members : List KoiosCommitteeMember) : Option String :=
  match members.find? (isHotMember hotKeyHashHex) with
  | none => none
  | some m =>
    if m.ccColdId.getD "" == "" && m.ccHotId.getD "" == "" then none
    else m.ccColdId <|> m.ccHotId

/-- `resolveScriptDRep`: nothing where the hash cannot be taken, else the reason why the key is not
a member's. -/
def resolveScriptDRep (env : SignatureEnv) (drepId : String) (candidateKeyHashHex : Text)
    (info : Option KoiosDrepInfo) (script : Option NativeScript) : Option (Except String Unit) :=
  match parseScriptDrepId env drepId with
  | none => some (.error "not a script id")
  | some hashHex =>
    match info with
    | none => some (.error "not found")
    | some info =>
      if !info.hasScript then some (.error "not a script drep")
      else if info.drepStatus != "registered" then some (.error "not registered")
      else if !info.active then some (.error "inactive")
      else
        match script with
        | none => some (.error "unsupported script")
        | some native =>
          (nativeScriptHash env native).map fun hash =>
            if hash ≠ hashHex.map Char.toLower then .error "script hash mismatch"
            else if (collectSigKeyHashes native).contains (candidateKeyHashHex.map Char.toLower) then
              .ok ()
            else .error "not a signer"

def scriptMembershipError (reason : String) : String :=
  if reason = "not a script drep" ∨ reason = "not a script id" then "key-based drep in script flow"
  else if reason = "unsupported script" then "plutus script drep unsupported"
  else "not a script DRep member"

def isLikelyDrepId (s : Text) : Bool :=
  decide (s.length ≤ 70) && s.take 5 == "drep1".toList && decide (5 < s.length) &&
    (s.drop 5).all fun c => c.isDigit || c.isLower

/-! ### The world -/

/-- A request that has succeeded, with the credential it has proven and the session it has
opened. -/
structure Success where
  proven : Proven
  identity : Identity
  session : Option SessionUser

/-- The tables; and what has been signed, issued, answered and accepted so far. -/
structure LoginWorld where
  nonces : NonceWorld
  users : UserTable
  follows : DelegatorFollowTable
  grants : GrantTable
  signed : List (Bytes × Bytes)
  challenges : List (Intent × Text)
  answers : List RoleAnswer
  successes : List Success

/-- What comes in from outside a step. -/
inductive LoginEvent
  | statement (now : ℕ)
  | nonce (nonce : Text)
  | koios (answer : RoleAnswer)
  | fails

/-! ### Validation -/

/-- A wallet signature with the lengths and letters it must have. -/
def walletProof (purpose : Purpose) (payload signatureHex keyHex : Text) : Option SignedProof :=
  if isHex keyHex MAX_KEY_HEX_LEN && isHex signatureHex MAX_SIG_HEX_LEN then
    some ⟨purpose, .wallet, payload, signatureHex, keyHex⟩
  else none

def rawProof (purpose : Purpose) (payload signatureHex publicKeyHex : Text) : Option SignedProof :=
  if isHexExact signatureHex RAW_SIG_HEX_LEN && isHexExact publicKeyHex RAW_PUBKEY_HEX_LEN then
    some ⟨purpose, .raw, payload, signatureHex, publicKeyHex⟩
  else none

/-- `handleVerify`, up to its nonce: which of the two flows takes the request. -/
def verifyProof (body : VerifyBody) : Option SignedProof :=
  match body.payload, body.signatureHex, body.role.bind LoginRole.parse with
  | some payload, some signatureHex, some role =>
    if MAX_PAYLOAD_LEN < utf16Length payload then none
    else
      let purpose := Purpose.login role body.scriptDrepId body.ref
      match role, body.keyHex, body.publicKeyHex with
      | .drep, none, some publicKeyHex | .spo, _, some publicKeyHex | .cc, _, some publicKeyHex =>
        rawProof purpose payload signatureHex publicKeyHex
      | .drep, some keyHex, _ | .proposer, some keyHex, _ | .delegator, some keyHex, _ =>
        walletProof purpose payload signatureHex keyHex
      | _, _, _ => none
  | _, _, _ => none

/-- `handleLinkStake`, up to its nonce. -/
def linkStakeProof (userId : String) (body : LinkStakeBody) : Option SignedProof :=
  match body.payload, body.signatureHex, body.keyHex with
  | some payload, some signatureHex, some keyHex =>
    if MAX_PAYLOAD_LEN < utf16Length payload then none
    else walletProof (.linkStake userId) payload signatureHex keyHex
  | _, _, _ => none

def isControlCode (c : Char) : Bool :=
  decide (c.toNat ≤ 31) || (decide (127 ≤ c.toNat) && decide (c.toNat ≤ 159))

/-- The display name of a redemption. What is sanitized is short enough already. -/
def redeemName (displayName : Text) : Option String :=
  let trimmedName := JsText.trim displayName
  if trimmedName = [] ∨ MAX_CO_PROPOSER_NAME < utf16Length trimmedName then none
  else
    let name := JsText.trim (trimmedName.filter fun c => !isControlCode c)
    if name = [] then none else some (String.ofList name)

/-- `handleRedeemGrant`, up to the lookup of its code. -/
def redeemReceived (body : RedeemGrantBody) : Option DoorProc :=
  match body.code, body.payload, body.signatureHex, body.keyHex, body.displayName with
  | some code, some payload, some signatureHex, some keyHex, some displayName =>
    if !isValidCode code || decide (MAX_PAYLOAD_LEN < utf16Length payload) ||
        !isHex signatureHex MAX_SIG_HEX_LEN || !isHex keyHex MAX_KEY_HEX_LEN then none
    else (redeemName displayName).map (DoorProc.inviteOf code payload signatureHex keyHex)
  | _, _, _, _, _ => none

/-- A request up to its first statement. -/
def requestReceived : ProofRequest → DoorProc
  | .verify body => ((verifyProof body).map DoorProc.consuming).getD (.refuse 400 "invalid request")
  | .linkStake userId body =>
    ((linkStakeProof userId body).map DoorProc.consuming).getD (.refuse 400 "invalid request")
  | .redeemGrant body => (redeemReceived body).getD (.refuse 400 "invalid request")

/-! ### Signatures -/

/-- The key, and the address that a wallet has signed with. -/
def verifySignature (env : LoginEnv) (proof : SignedProof) : Option (Bytes × Bytes) :=
  match proof.kind with
  | .wallet => verifyCip8 env.toSignatureEnv proof.signatureHex proof.keyHex proof.payload
  | .raw =>
    match hexToBytes proof.keyHex, hexToBytes proof.signatureHex with
    | some pubKey, some sig =>
      if env.verifyEd25519 sig (utf8Encode proof.payload) pubKey then some (pubKey, []) else none
    | _, _ => none

/-- A wallet login, once its signature is verified. -/
def walletVerified (env : LoginEnv) (p : Proven) (role : LoginRole) (scriptDrepId : Option Text)
    (address : Bytes) : DoorProc :=
  if address = [] then .refuse 401 "invalid address in signature"
  else
    match role, scriptDrepId with
    | .drep, some drepId =>
      if isLikelyDrepId drepId then .scriptDrep p (String.ofList drepId)
      else .refuse 400 "invalid request"
    | .drep, none =>
      let expectedHeader := match env.network with
        | .mainnet => ENTERPRISE_ADDR_MAINNET
        | .preprod => ENTERPRISE_ADDR_PREPROD
      if !isDrepCredentialAddress address then .refuse 401 "address type mismatch for role"
      else if address.length = 29 ∧ address.headD 0 ≠ expectedHeader then
        .refuse 401 WALLET_NETWORK_MISMATCH
      else .drep p (drepIdFromPubKey env.toSignatureEnv p.pubKey)
    | role, _ =>
      match checkRewardAddressHeader env.toSignatureEnv address p.pubKey env.network with
      | .error error => .refuse 401 error
      | .ok stakeAddr =>
        if role = .delegator then .resolving p stakeAddr .delegator else .proposer p stakeAddr

/-- A raw login, once its signature is verified. -/
def rawVerified (env : LoginEnv) (p : Proven) (role : LoginRole) (scriptDrepId : Option Text) :
    DoorProc :=
  match role, scriptDrepId with
  | .drep, some drepId =>
    if isLikelyDrepId drepId then .scriptDrep p (String.ofList drepId)
    else .refuse 400 "invalid request"
  | .drep, none => .drep p (drepIdFromPubKey env.toSignatureEnv p.pubKey)
  | .spo, _ => .spo p
  | _, _ => .cc p

/-- A request, once its nonce is consumed: the signature, and what comes after it. -/
def nonceConsumed (env : LoginEnv) (proof : SignedProof) : DoorProc :=
  match verifySignature env proof with
  | none => .refuse 401 "signature verification failed"
  | some (pubKey, address) =>
    let p : Proven := ⟨proof.purpose, proof.payload, pubKey⟩
    match proof.purpose with
    | .login role scriptDrepId _ =>
      match proof.kind with
      | .wallet => walletVerified env p role scriptDrepId address
      | .raw => rawVerified env p role scriptDrepId
    | .linkStake userId =>
      match checkRewardAddressHeader env.toSignatureEnv address pubKey env.network with
      | .error error => .refuse 401 error
      | .ok stakeAddr => .linking p userId stakeAddr
    | .redeemGrant grantId displayName =>
      match checkRewardAddressHeader env.toSignatureEnv address pubKey env.network with
      | .error error => .refuse 401 error
      | .ok stakeAddr => .resolving p stakeAddr (.redeemGrant grantId displayName)

/-! ### Roles and accounts -/

/-- A login, once Koios has answered about the role. -/
def roleResolved (env : LoginEnv) : RoleAnswer → DoorProc → Option DoorProc
  | .scriptDrep info script, .scriptDrep p drepId =>
    match resolveScriptDRep env.toSignatureEnv drepId (ccHotKeyHashHex env.toSignatureEnv p.pubKey)
        info script with
    | none => some (.refuse 500 "internal error")
    | some (.error reason) => some (.refuse 401 (scriptMembershipError reason))
    | some (.ok ()) => some (.upserting p (.drep drepId) [.drep] none)
  | .drepInfo info, .drep p drepId =>
    if resolveDRep info then some (.upserting p (.drep drepId) [.drep] none)
    else some (.refuse 401 "not an active DRep")
  | .proposals returnAddresses, .proposer p stakeAddr =>
    let modRole := env.getModeratorRole stakeAddr
    if resolveProposer stakeAddr returnAddresses then
      some (.upserting p (.stake stakeAddr) [.proposer] modRole)
    else some (.grantee p stakeAddr modRole)
  | .calidusKey row, .spo p =>
    match resolveSpo (bytesToHex p.pubKey) row with
    | none => some (.refuse 401 "not an active SPO")
    | some poolId => some (.upserting p (.pool poolId) [.spo] none)
  | .committee members, .cc p =>
    match resolveCc (ccHotKeyHashHex env.toSignatureEnv p.pubKey) members with
    | none => some (.refuse 401 "not an authorized CC member")
    | some ccCred => some (.upserting p (.committee ccCred) [.cc] none)
  | _, _ => none

/-- Neither a proposer nor a co-proposer: only a moderator may go on. -/
def withoutGrant (p : Proven) (stakeAddr : String) (modRole : Option String) : DoorProc :=
  if modRole = none then .refuse 401 "not a proposer or moderator"
  else .upserting p (.stake stakeAddr) [] modRole

def coProposerRoles (user : UserRow) (modRole : Option String) : List String :=
  withCoProposerRole (rolesFromUser user.account modRole)

/-- The origin token of a login that creates an account. -/
def Purpose.signupRef : Purpose → Option String
  | .login _ _ ref => ref
  | _ => none

/-- The token `resolveDelegatorAccount` is given: only at the delegator's door there is one. -/
def Door.signupRef (door : Door) (purpose : Purpose) : Option String :=
  match door with
  | .delegator => purpose.signupRef
  | _ => none

/-- What the doors do with the account of a stake address. -/
def accountResolved (p : Proven) (stakeAddr : String) (user : UserRow) : Door → DoorProc
  | .delegator => .following p stakeAddr user
  | .coProposer modRole =>
    .minting p (.stake stakeAddr) ⟨user.id, coProposerRoles user modRole, user.drepId⟩
  | .redeemGrant grantId displayName =>
    .selfInvite p user ⟨grantId, user.id, stakeAddr, displayName⟩

/-- The insert of `ensureFollow`. An account that has a row keeps it; else a stake address that is
followed already breaks the unique index. -/
def insertFollow (follows : DelegatorFollowTable) (userId stakeAddr : String) :
    Option DelegatorFollowTable :=
  if !(follows.rows.map (·.userId)).contains userId &&
      (follows.rows.map (·.stakeAddr)).contains stakeAddr then none
  else some (follows.insertOrIgnore (newFollow userId stakeAddr))

def LoginWorld.succeed (w : LoginWorld) (p : Proven) (identity : Identity)
    (session : Option SessionUser) : LoginWorld :=
  { w with successes := w.successes ++ [⟨p, identity, session⟩] }

/-! ### Steps -/

/-- What a call becomes where its statement, or its call to Koios, fails. -/
def loginFails : DoorProc → Option DoorProc
  | .creating p stakeAddr door | .created p stakeAddr door => some (.rereading p stakeAddr door true)
  | .linking p userId stakeAddr => some (.linkOwner p userId stakeAddr)
  | .received _ | .issued _ | .refused _ | .answered _ _ _ | .unavailable => none
  | _ => some .unavailable

/-- A nonce is drawn and stored. Random bytes are never drawn twice. -/
def issueStep (w : LoginWorld) (nonce : Text) : DoorProc → Option (LoginWorld × DoorProc)
  | .challenge intent =>
    if nonce.all isBase64Url && !(w.nonces.issued.map (·.nonce)).contains nonce then
      let issuedAt := w.nonces.clock
      match issueNonceBatch w.nonces.table intent.domain nonce issuedAt with
      | none => some (w, .unavailable)
      | some table =>
        let payload := noncePayload intent.domain nonce issuedAt
        some ({ w with
          nonces := { w.nonces with
            table := table
            issued := w.nonces.issued ++ [⟨intent.domain, nonce, issuedAt⟩] }
          challenges := w.challenges ++ [(intent, payload)] }, .issued payload)
    else none
  | _ => none

/-- The nonce of a request is consumed, or the request refused. -/
def consumeStep (env : LoginEnv) (now : ℕ) (w : LoginWorld) (proof : SignedProof) :
    LoginWorld × DoorProc :=
  let args : ConsumeArgs := ⟨proof.payload, proof.purpose.expectedDomain, now, none⟩
  match args.check with
  | none => (w, .refuse 401 "invalid or expired nonce")
  | some nonce =>
    let (table, answer) := deleteNonce w.nonces.table nonce proof.payload
    ({ w with nonces := { w.nonces with
        table := table
        consumed := if answer then w.nonces.consumed ++ [args] else w.nonces.consumed } },
      if answer then nonceConsumed env proof else .refuse 401 "invalid or expired nonce")

/-- The statements that look for an account and write it. -/
def accountStep (now : ℕ) (w : LoginWorld) : DoorProc → Option (LoginWorld × DoorProc)
  | .upserting p identity roles modRole =>
    let args := identity.authArgs roles now p.purpose.signupRef
    match args.id with
    | none => some (w, .fail p identity 500 "internal error")
    | some id =>
      match upsertUser w.users args id with
      | none => some (w, .fail p identity 500 "internal error")
      | some users => some ({ w with users }, .upserted p identity modRole)
  | .upserted p identity modRole =>
    match getUserById w.users identity.id with
    | none => some (w, .fail p identity 500 "internal error")
    | some user => some (w, .grantOf p identity modRole user)
  | .resolving p stakeAddr door =>
    match getUserByStakeAddr w.users stakeAddr with
    | none => some (w, .creating p stakeAddr door)
    | some user => some (w, .touching p stakeAddr door user.id)
  | .touching p stakeAddr door userId =>
    some ({ w with users := touchUser w.users userId now }, .touched p stakeAddr door userId)
  | .touched p stakeAddr door userId =>
    match getUserById w.users userId with
    | none => some (w, .fail p (.stake stakeAddr) 500 "internal error")
    | some user => some (w, accountResolved p stakeAddr user door)
  | .creating p stakeAddr door =>
    let args := (Identity.stake stakeAddr).authArgs [] now (door.signupRef p.purpose)
    match args.id with
    | none => some (w, .rereading p stakeAddr door false)
    | some id =>
      match upsertUser w.users args id with
      | none => some (w, .rereading p stakeAddr door false)
      | some users => some ({ w with users }, .created p stakeAddr door)
  | .created p stakeAddr door =>
    match getUserById w.users stakeAddr with
    | none => some (w, .rereading p stakeAddr door false)
    | some user => some (w, accountResolved p stakeAddr user door)
  | .rereading p stakeAddr door broken =>
    match getUserByStakeAddr w.users stakeAddr with
    | none =>
      some (w, if broken then .unavailable else .fail p (.stake stakeAddr) 500 "internal error")
    | some user => some (w, .touching p stakeAddr door user.id)
  | _ => none

/-- The statements of a login with an account, up to the session. -/
def sessionStep (w : LoginWorld) : DoorProc → Option (LoginWorld × DoorProc)
  | .grantee p stakeAddr modRole =>
    match getUserByStakeAddr w.users stakeAddr with
    | none => some (w, withoutGrant p stakeAddr modRole)
    | some user => some (w, .granteeGrant p stakeAddr modRole user.id)
  | .granteeGrant p stakeAddr modRole userId =>
    if hasActiveGrantForCoUser w.grants userId then
      some (w, .resolving p stakeAddr (.coProposer modRole))
    else some (w, withoutGrant p stakeAddr modRole)
  | .grantOf p identity modRole user =>
    let roles := if hasActiveGrantForCoUser w.grants user.id then coProposerRoles user modRole
      else rolesFromUser user.account modRole
    some (w, .minting p identity ⟨user.id, roles, user.drepId⟩)
  | .following p stakeAddr user =>
    match insertFollow w.follows user.id stakeAddr with
    | none => some (w, .fail p (.stake stakeAddr) 500 "internal error")
    | some follows => some ({ w with follows }, .followed p stakeAddr user)
  | .followed p stakeAddr user =>
    match w.follows.rows.find? fun f => f.userId == user.id with
    | some f =>
      if f.stakeAddr ≠ stakeAddr then some (w, .fail p (.stake stakeAddr) 500 "internal error")
      else some (w, .delegatorGrant p stakeAddr user)
    | none => some (w, .delegatorGrant p stakeAddr user)
  | .delegatorGrant p stakeAddr user =>
    let roles := if hasActiveGrantForCoUser w.grants user.id then withCoProposerRole []
      else ["member"]
    some (w, .minting p (.stake stakeAddr) ⟨user.id, roles, none⟩)
  | .minting p identity session =>
    some (w.succeed p identity (some session), .answered p identity (.session session))
  | _ => none

/-- The statements of `redeemGrant`, for the account of the stake address. Its batch fills in the
name as well. -/
def redeemStep (now : ℕ) (w : LoginWorld) : DoorProc → Option (LoginWorld × DoorProc)
  | .selfInvite p user args =>
    some (w, if isSelfInvite ⟨w.grants, []⟩ args then
      .fail p (.stake args.coStakeAddr) 400 "cannot invite yourself" else .claiming p user args)
  | .claiming p user args =>
    match redeemBatch ⟨w.grants, []⟩ args now with
    | none => some (w, .dropping p args)
    | some (db, row) =>
      some ({ w with grants := db.grants, users := fillName w.users db.grants args },
        match row with
        | none => .fail p (.stake args.coStakeAddr) 410 "invite unavailable"
        | some _ => .minting p (.stake args.coStakeAddr)
            ⟨user.id, coProposerRoles user none, user.drepId⟩)
  | .dropping p args =>
    some ({ w with grants := (dropPending ⟨w.grants, []⟩ args.grantId).grants },
      .fail p (.stake args.coStakeAddr) 409 "mandate_taken")
  | _ => none

/-- The statements of `handleLinkStake`. -/
def linkStep (w : LoginWorld) : DoorProc → Option (LoginWorld × DoorProc)
  | .linking p userId stakeAddr =>
    match linkStakeAddr w.users userId stakeAddr with
    | none => some (w, .linkOwner p userId stakeAddr)
    | some (users, true) =>
      some ({ w with users }.succeed p (.stake stakeAddr) none,
        .answered p (.stake stakeAddr) .linked)
    | some (users, false) => some ({ w with users }, .linkSelf p userId stakeAddr)
  | .linkOwner p userId stakeAddr =>
    match getUserByStakeAddr w.users stakeAddr with
    | some owner =>
      if owner.id ≠ userId then
        some (w, .fail p (.stake stakeAddr) 409 "stake wallet already linked to another account")
      else some (w, .fail p (.stake stakeAddr) 500 "internal error")
    | none => some (w, .fail p (.stake stakeAddr) 500 "internal error")
  | .linkSelf p userId stakeAddr =>
    match getUserById w.users userId with
    | none => some (w, .fail p (.stake stakeAddr) 401 "unauthorized")
    | some self =>
      if self.stakeAddr = some stakeAddr then
        some (w.succeed p (.stake stakeAddr) none, .answered p (.stake stakeAddr) .linked)
      else some (w, .fail p (.stake stakeAddr) 409 "account already has a stake wallet")
  | _ => none

def loginStatement (env : LoginEnv) (now : ℕ) (w : LoginWorld) :
    DoorProc → Option (LoginWorld × DoorProc)
  | .redeemChallenge code =>
    if !isValidCode code then some (w, .refuse 404 "invite unavailable")
    else
      match lookupInviteByCode env.sha256Hex w.grants (String.ofList code) now with
      | none => some (w, .refuse 404 "invite unavailable")
      | some grantId => some (w, .challenge (.redeemGrant grantId))
  | .received request => some (w, requestReceived request)
  | .inviteOf code payload signatureHex keyHex displayName =>
    match lookupInviteByCode env.sha256Hex w.grants (String.ofList code) now with
    | none => some (w, .refuse 410 "invite unavailable")
    | some grantId => some (w, .consuming
        ⟨.redeemGrant grantId displayName, .wallet, payload, signatureHex, keyHex⟩)
  | .consuming proof => some (consumeStep env now w proof)
  | l => (((accountStep now w l).or (sessionStep w l)).or (redeemStep now w l)).or (linkStep w l)

def doorStep (env : LoginEnv) (event : LoginEvent) (w : LoginWorld) (l : DoorProc) :
    Option (LoginWorld × DoorProc) :=
  match event with
  | .statement now => loginStatement env now w l
  | .nonce nonce => issueStep w nonce l
  | .koios answer =>
    (roleResolved env answer l).map fun l' => ({ w with answers := w.answers ++ [answer] }, l')
  | .fails => (loginFails l).map fun l' => (w, l')

end DrepTalk
