import DrepTalk.Auth.Accounts
import DrepTalk.Cardano.ScriptHash
import DrepTalk.Cardano.ScriptSatisfaction
import DrepTalk.Governance.ParamValues
import DrepTalk.Multisig.PendingMultisigTx
import DrepTalk.Votes.VoteTables

/-!
# The endpoints of multisig votes

`src/pages/api/drep/multisig`, with `src/lib/governance/multisigWitness.ts` and
`src/lib/governance/drepNativeScript.ts`. A member of a script DRep stores an unsigned transaction
together with the vote it is declared to cast. The members add their signatures; one of them fetches
the assembled transaction once the script is satisfied, and reports that it has been submitted,
which records the declared vote.

The decoder, the hashes and the signature check come from packages (`MultisigEnv`). A record is the
row of `PendingMultisigTx.lean` with the columns that its writers leave alone; its JSON columns are
taken as the values they encode. `signers` of a script are sets, as they are there.
-/

namespace DrepTalk

/-! ### What the packages decode -/

inductive SdkDRep
  | keyHash (hash : Bytes)
  | scriptHash (hash : Bytes)
  | alwaysAbstain
  | alwaysNoConfidence

/-- `Voter`. -/
inductive SdkVoter
  | committee (credential : Bytes)
  | drep (drep : SdkDRep)
  | stakePool (keyHash : Bytes)

/-- `Vote`. -/
inductive SdkVote
  | yesVote
  | noVote
  | abstainVote

/-- `Anchor`. -/
structure SdkAnchor where
  anchorUrl : String
  anchorDataHash : Bytes

structure GovActionId where
  transactionId : Bytes
  govActionIndex : ℕ

structure VotingProcedure where
  vote : SdkVote
  anchor : Option SdkAnchor

/-- The body of a transaction: its voting procedures by voter and action, and the bytes of all that
nothing here reads. -/
structure TransactionBody where
  votingProcedures : Option (List (SdkVoter × List (GovActionId × VotingProcedure)))
  rest : Bytes

/-- A signature of a witness set, with its key. -/
structure VKeyWitness where
  vkey : Bytes
  signature : Bytes

/-- What comes from packages and from the language. -/
structure MultisigEnv extends SignatureEnv where
  lc : Cardano.LowerCase
  /-- The body of `Transaction.fromCBORHex(hex)`; where it throws, nothing. -/
  fromCBORHex : String → Option TransactionBody
  toHash : TransactionBody → Bytes
  /-- The keys and signatures of `TransactionWitnessSet.fromCBORHex(hex)`. -/
  vkeyWitnesses : String → Option (List VKeyWitness)
  addVKeyWitnessesHex : String → String → Option String
  /-- Whether a text is a URL that `resolveAnchorUrl` resolves. -/
  acceptsUrl : String → Bool

/-! ### Records -/

/-- `'yes' | 'no' | 'abstain'`. -/
inductive VoteChoice
  | yes
  | no
  | abstain
  deriving DecidableEq

def VoteChoice.text : VoteChoice → String
  | .yes => "yes"
  | .no => "no"
  | .abstain => "abstain"

/-- `action_params`. -/
structure ActionParams where
  gaId : String
  vote : VoteChoice
  anchorUrl : Option String
  anchorHashHex : Option String

/-- A whole row of `pending_multisig_tx`. -/
structure PendingVoteRow extends PendingMultisigRow where
  drepId : String
  actionParams : ActionParams
  unsignedTxCbor : String
  bodyHash : String
  nativeScript : Cardano.ScriptJson
  createdBy : String
  createdAt : ℤ
  expiresAt : ℤ

abbrev PendingVoteTable := KeyedTable fun row : PendingVoteRow => row.id

/-- `getPendingMultisig`, on whole rows. -/
def getPendingVote (table : PendingVoteTable) (id : String) : Option PendingVoteRow :=
  table.rows.find? fun row => row.id == id

/-- The compare-and-swap of `addPendingWitness`, on whole rows. -/
def swapVoteWitnesses (table : PendingVoteTable) (id : String) (blob list : List Witness) :
    PendingVoteTable × Bool :=
  (table.updateWhere (fun row => holdsBlob id blob row.toPendingMultisigRow)
      (fun row => { row with witnesses := list }) fun _ _ => rfl,
    table.rows.any fun row => holdsBlob id blob row.toPendingMultisigRow)

/-- `markPendingSubmitted`, on whole rows. -/
def markVoteSubmitted (table : PendingVoteTable) (id txHash : String) : PendingVoteTable × Bool :=
  (table.updateWhere (fun row => isCollecting id row.toPendingMultisigRow)
      (fun row => { row with status := .submitted, txHash := some txHash }) fun _ _ => rfl,
    table.rows.any fun row => isCollecting id row.toPendingMultisigRow)

/-- Whether a record is over by the clock, and nobody has submitted it. -/
def isOver (now : ℤ) (row : PendingVoteRow) : Bool :=
  row.status == .collecting && decide (row.expiresAt ≤ now)

/-- `deleteExpiredPending`, and how many it deletes. -/
def deleteExpiredPending (table : PendingVoteTable) (now : ℤ) : PendingVoteTable × ℕ :=
  (table.deleteWhere (isOver now), table.rows.countP (isOver now))

/-! ### Answers -/

inductive MultisigAnswer
  | error (status : ℕ) (error : String)
  /-- Something has thrown that nothing catches. -/
  | crashed
  | created (id : String)
  | witnessed (satisfied : Bool) (signedLeaves : ℕ) (threshold : Option Cardano.JsNumber)
  | assembled (assembledTxHex : String)
  | recorded
  | deleted (count : ℕ)

def isDrepUser (user : SessionUser) : Bool := user.roles.contains "drep"

/-! ### `POST /api/drep/multisig` -/

/-- The body of a request that creates a record, as it came. -/
structure CreateBody where
  scriptDrepId : Option JsonValue
  gaId : Option JsonValue
  vote : Option JsonValue
  unsignedTxCbor : Option JsonValue
  bodyHash : Option JsonValue
  anchorUrl : Option JsonValue
  anchorHashHex : Option JsonValue

/-- `/^[0-9a-fA-F]+$/.test(text)`. -/
def isHexText (text : String) : Bool :=
  !text.toList.isEmpty && text.toList.all fun c => (hexDigit c).isSome

/-- `/^[0-9a-fA-F]{64}$/.test(text)`. -/
def isHexHash (text : String) : Bool := isHexExact text.toList 64

/-- `/^[0-9a-fA-F]{64}#\d{1,5}$/.test(text)`. -/
def isGaId (text : String) : Bool :=
  isHexExact (text.toList.take 64) 64 &&
    match text.toList.drop 64 with
    | '#' :: digits => decide (1 ≤ digits.length) && decide (digits.length ≤ 5) &&
        digits.all fun c => decide (0x30 ≤ c.toNat) && decide (c.toNat ≤ 0x39)
    | _ => false

structure CreateFields where
  scriptDrepId : String
  gaId : String
  vote : VoteChoice
  unsignedTxCbor : String
  bodyHash : String
  anchorUrl : Option String
  anchorHashHex : Option String
  hex64 : isHexHash bodyHash = true

/-- A field that is there, is a text and passes a test. -/
def textField (test : String → Bool) : Option JsonValue → Option String
  | some (.string text) => if test text then some text else none
  | _ => none

def optionalText (test : String → Bool) : Option JsonValue → Option (Option String)
  | none => some none
  | some value => (textField test (some value)).map some

def voteField : Option JsonValue → Option VoteChoice
  | some (.string "yes") => some .yes
  | some (.string "no") => some .no
  | some (.string "abstain") => some .abstain
  | _ => none

/-- `schema.safeParse(raw)`. -/
def CreateBody.parse (env : MultisigEnv) (raw : CreateBody) : Option CreateFields := do
  let scriptDrepId ← textField (fun _ => true) raw.scriptDrepId
  let gaId ← textField isGaId raw.gaId
  let vote ← voteField raw.vote
  let unsignedTxCbor ← textField isHexText raw.unsignedTxCbor
  let bodyHash ← textField isHexHash raw.bodyHash
  let anchorUrl ← optionalText env.acceptsUrl raw.anchorUrl
  let anchorHashHex ← optionalText isHexHash raw.anchorHashHex
  if h : isHexHash bodyHash = true then
    some ⟨scriptDrepId, gaId, vote, unsignedTxCbor, bodyHash, anchorUrl, anchorHashHex, h⟩
  else none

/-- What the script endpoint of Koios answers. -/
inductive ScriptInfo
  | threw
  | missing
  | script (type : String) (value : Cardano.ScriptJson)

/-- `loadDrepNativeScript`: the script of a DRep and its hash, or a status and an error. -/
def loadDrepNativeScript (env : MultisigEnv) (drepId : String) (info : ScriptInfo) :
    Except (ℕ × String) (Cardano.NativeScript × Text) :=
  match parseScriptDrepId env.toSignatureEnv drepId with
  | none => .error (422, "not a script drep")
  | some hashHex =>
    match info with
    | .threw => .error (503, "service unavailable")
    | .missing => .error (422, "script not found")
    | .script type value =>
      if type ≠ "timelock" then
        .error (422,
          "Plutus-script DReps cannot vote. Only native-script DReps are supported.")
      else
        match Cardano.parseNativeScriptJson env.lc value with
        | none => .error (422, "unsupported script")
        | some script =>
          match Cardano.nativeScriptHash env.blake2b224 script with
          | .error _ => .error (422, "unsupported script")
          | .ok hash =>
            if hash = hashHex then .ok (script, hashHex) else .error (422, "script hash mismatch")

def SdkVote.choice : SdkVote → VoteChoice
  | .yesVote => .yes
  | .noVote => .no
  | .abstainVote => .abstain

/-- The id of an action as the site writes it. -/
def GovActionId.text (id : GovActionId) : Text :=
  bytesToHex id.transactionId ++ '#' :: (Nat.toDigits 10 id.govActionIndex)

/-- Whether a voter is the script DRep with the given hash. -/
def isScriptVoter (hashHex : Text) : SdkVoter → Bool
  | .drep (.scriptHash hash) => bytesToHex hash == hashHex
  | _ => false

/-- `foundVoteMatch`: whether some procedure casts the declared vote. -/
def foundVoteMatch (hashHex : Text) (b : CreateFields)
    (procedures : List (SdkVoter × List (GovActionId × VotingProcedure))) : Bool :=
  procedures.any fun entry => isScriptVoter hashHex entry.1 && entry.2.any fun action =>
    action.1.text == b.gaId.toList && decide (action.2.vote.choice = b.vote)

/-- What is wrong with the transaction of a request, if anything is. -/
def transactionError (env : MultisigEnv) (hashHex : Text) (b : CreateFields) : Option String :=
  match env.fromCBORHex b.unsignedTxCbor with
  | none => some "invalid transaction"
  | some body =>
    if bytesToHex (env.toHash body) ≠ env.lc.toLowerCase b.bodyHash.toList then
      some "body hash does not match transaction"
    else
      match body.votingProcedures with
      | none => some "transaction does not match the declared vote"
      | some procedures =>
        if procedures.isEmpty || !foundVoteMatch hashHex b procedures then
          some "transaction does not match the declared vote"
        else none

mutual

/-- What `JSON.parse(JSON.stringify(script))` returns. -/
def scriptJson : Cardano.NativeScript → Cardano.ScriptJson
  | .sig keyHash =>
    .object [("type", .string "sig"), ("keyHash", .string (String.ofList keyHash))]
  | .all scripts => .object [("type", .string "all"), ("scripts", .array (scriptsJson scripts))]
  | .any scripts => .object [("type", .string "any"), ("scripts", .array (scriptsJson scripts))]
  | .atLeast required scripts =>
    .object [("type", .string "atLeast"), ("required", numberJson required),
      ("scripts", .array (scriptsJson scripts))]
  | .before slot => .object [("type", .string "before"), ("slot", numberJson slot)]
  | .after slot => .object [("type", .string "after"), ("slot", numberJson slot)]

def scriptsJson : List Cardano.NativeScript → List Cardano.ScriptJson
  | [] => []
  | script :: scripts => scriptJson script :: scriptsJson scripts

/-- A number that is not finite comes back as null. -/
def numberJson : Cardano.JsNumber → Cardano.ScriptJson
  | .finite q => .number (.finite q)
  | .infinite _ | .nan => .null

end

/-- How long signatures are collected. -/
def COLLECTING_SEC : ℤ := 36 * 3600

def CreateFields.row (b : CreateFields) (user : SessionUser) (script : Cardano.NativeScript)
    (id : String) (now : ℤ) : PendingVoteRow where
  id := id
  witnesses := []
  status := .collecting
  txHash := none
  drepId := b.scriptDrepId
  actionParams := ⟨b.gaId, b.vote, b.anchorUrl, b.anchorHashHex⟩
  unsignedTxCbor := b.unsignedTxCbor
  bodyHash := b.bodyHash
  nativeScript := scriptJson script
  createdBy := user.id
  createdAt := now
  expiresAt := now + COLLECTING_SEC

/-! ### `POST /api/drep/multisig/[id]/witness` -/

def signers (witnesses : List Witness) : Finset Text :=
  (witnesses.map fun w => w.keyHash.toList).toFinset

inductive WitnessRefusal
  | noVkey
  | badSignature
  | notAMember
  | duplicate

def WitnessRefusal.answer : WitnessRefusal → MultisigAnswer
  | .noVkey => .error 400 "That signature could not be read."
  | .badSignature => .error 422 "That signature does not match this transaction."
  | .notAMember => .error 422 "That key is not one of this DRep's authorized signers."
  | .duplicate => .error 409 "This signer has already added a witness."

/-- `validateWitness`: the hash of the key that has signed. Where it throws, nothing. -/
def validateWitness (env : MultisigEnv) (witnessSetHex bodyHashHex : String)
    (sigLeaves already : Finset Text) : Option (Except WitnessRefusal Text) :=
  match env.vkeyWitnesses witnessSetHex with
  | none | some [] => some (.error .noVkey)
  | some (w :: _) =>
    let keyHashHex := bytesToHex (env.blake2b224 w.vkey)
    if keyHashHex ∉ sigLeaves then some (.error .notAMember)
    else if keyHashHex ∈ already then some (.error .duplicate)
    else
      (hexToBytes bodyHashHex.toList).map fun bodyHash =>
        if env.verifyEd25519 w.signature bodyHash w.vkey then .ok keyHashHex
        else .error .badSignature

/-- The script of a record, where it can be parsed. -/
def PendingVoteRow.script (env : MultisigEnv) (row : PendingVoteRow) :
    Option Cardano.NativeScript :=
  Cardano.parseNativeScriptJson env.lc row.nativeScript

/-- What a witness set adds to a record, or what is wrong with it. -/
def witnessFor (env : MultisigEnv) (row : PendingVoteRow) (witnessSetHex : String) :
    Except MultisigAnswer Witness :=
  match row.script env with
  | none => .error (.error 500 "corrupt record")
  | some script =>
    match env.vkeyWitnesses witnessSetHex with
    | some [_] =>
      match validateWitness env witnessSetHex row.bodyHash
        (Cardano.collectSigKeyHashes env.lc script ∅) (signers row.witnesses) with
      | none => .error .crashed
      | some (.error refusal) => .error refusal.answer
      | some (.ok keyHashHex) => .ok ⟨String.ofList keyHashHex, witnessSetHex⟩
    | _ => .error (.error 400 "expected exactly one signature")

/-- The progress after a witness, by the record as it is now or, where it has gone, as it was. -/
def progressAnswer (env : MultisigEnv) (row : PendingVoteRow) (witness : Witness)
    (updated : Option PendingVoteRow) : MultisigAnswer :=
  match row.script env with
  | none => .error 500 "corrupt record"
  | some script =>
    let witnesses := match updated with
      | some row => row.witnesses
      | none => row.witnesses ++ [witness]
    let progress := Cardano.satisfactionProgress env.lc script (signers witnesses)
    .witnessed progress.satisfied progress.signedLeaves progress.threshold

/-! ### `POST /api/drep/multisig/[id]/submit` and `submitted` -/

/-- Folds the collected witness sets into the transaction. -/
def assemble (env : MultisigEnv) (row : PendingVoteRow) : Option String :=
  row.witnesses.foldlM (fun hex w => env.addVKeyWitnessesHex hex w.witnessHex) row.unsignedTxCbor

/-- Whether the stored witnesses satisfy the script. -/
def PendingVoteRow.satisfied (env : MultisigEnv) (row : PendingVoteRow) : Bool :=
  (row.script env).any fun script =>
    Cardano.isNativeScriptSatisfied script (signers row.witnesses)

/-- What a request for the assembled transaction is answered with. -/
def submitAnswer (env : MultisigEnv) (row : PendingVoteRow) (now : ℤ) : MultisigAnswer :=
  if row.expiresAt < now then .error 410 "expired"
  else if row.status ≠ .collecting then .error 409 "no longer collecting"
  else if (row.script env).isNone then .error 500 "corrupt record"
  else if !row.satisfied env then .error 409 "not yet satisfied"
  else
    match assemble env row with
    | some hex => .assembled hex
    | none => .crashed

/-- The body of a report that a transaction has been submitted, as it came. -/
structure SubmittedBody where
  txHash : Option JsonValue

/-- The declared vote, as it is recorded. -/
def PendingVoteRow.localVote (row : PendingVoteRow) (txHash : String) (now : ℤ) : LocalVote where
  gaId := row.actionParams.gaId
  drepId := row.drepId
  voterHex := none
  vote := row.actionParams.vote.text
  metaUrl := row.actionParams.anchorUrl
  txHash := txHash
  now := now

/-- Whether a user's account stands for a DRep. -/
def isMember (users : UserTable) (user : SessionUser) (drepId : String) : Bool :=
  match (getUserById users user.id).bind (·.drepId) with
  | some id => id != "" && id == drepId
  | none => false

/-! ### Requests, statement by statement -/

/-- The body of a request that adds a witness, as it came. -/
structure WitnessBody where
  witnessSetHex : Option JsonValue

/-- A request, with the user of its session and the id of its path. -/
inductive MultisigRequest
  | create (user : Option SessionUser) (raw : Option CreateBody)
  | witness (user : Option SessionUser) (id : String) (raw : Option WitnessBody)
  | submit (user : Option SessionUser) (id : String)
  | submitted (user : Option SessionUser) (id : String) (raw : Option SubmittedBody)
  | expire

/-- A request by the statement it is about to run, or its answer. -/
inductive MultisigProc
  | createUser (user : SessionUser) (b : CreateFields)
  | createAction (user : SessionUser) (b : CreateFields)
  | createScript (user : SessionUser) (b : CreateFields)
  | createInsert (row : PendingVoteRow)
  | witnessRow (user : SessionUser) (id witnessSetHex : String)
  | witnessUser (user : SessionUser) (row : PendingVoteRow) (witnessSetHex : String)
  | appendRead (row : PendingVoteRow) (witness : Witness) (attempt : ℕ)
  | appendSwap (row : PendingVoteRow) (witness : Witness) (attempt : ℕ) (blob : List Witness)
  | witnessProgress (row : PendingVoteRow) (witness : Witness)
  | submitRow (user : SessionUser) (id : String)
  | submitUser (user : SessionUser) (row : PendingVoteRow)
  | submittedRow (user : SessionUser) (id : String) (raw : Option SubmittedBody)
  | submittedUser (user : SessionUser) (row : PendingVoteRow) (raw : Option SubmittedBody)
  | submittedMark (row : PendingVoteRow) (txHash : String) (now : ℤ)
  | submittedRecord (row : PendingVoteRow) (txHash : String) (now : ℤ)
  | deleteExpired (now : ℤ)
  | answered (answer : MultisigAnswer)

def MultisigProc.failed (status : ℕ) (error : String) : MultisigProc :=
  .answered (.error status error)

/-- A transaction that has been handed out: when, and the record as it stood then. -/
structure HandedTx where
  assembledTxHex : String
  stored : Option PendingVoteRow
  givenAt : ℤ

/-- The tables, the clock, and what has happened: ids drawn and stored, transactions handed out, and
the votes recorded, by record. -/
structure MultisigWorld where
  pending : PendingVoteTable
  users : UserTable
  votes : VoteDb
  now : ℤ
  drawnIds : List String
  storedIds : List String
  handed : List HandedTx
  recorded : List (String × LocalVote)

/-- What a request does before its first statement. -/
def multisigReceived (env : MultisigEnv) (now : ℤ) : MultisigRequest → MultisigProc
  | .create user raw =>
    match user.filter isDrepUser with
    | none => .failed 401 "unauthorized"
    | some user =>
      match raw with
      | none => .failed 400 "invalid JSON"
      | some raw =>
        match raw.parse env with
        | none => .failed 400 "invalid input"
        | some b => .createUser user b
  | .witness user id raw =>
    match user.filter isDrepUser with
    | none => .failed 401 "unauthorized"
    | some user =>
      if id = "" then .failed 400 "invalid input"
      else
        match raw with
        | none => .failed 400 "invalid JSON"
        | some raw =>
          match textField (fun t => isHexText t && decide (2 ≤ t.length)) raw.witnessSetHex with
          | none => .failed 400 "invalid input"
          | some witnessSetHex => .witnessRow user id witnessSetHex
  | .submit user id =>
    match user.filter isDrepUser with
    | none => .failed 401 "unauthorized"
    | some user => if id = "" then .failed 400 "invalid input" else .submitRow user id
  | .submitted user id raw =>
    match user.filter isDrepUser with
    | none => .failed 401 "unauthorized"
    | some user => if id = "" then .failed 400 "invalid input" else .submittedRow user id raw
  | .expire => .deleteExpired now

def isOpenAction (votes : VoteDb) (gaId : String) : Bool :=
  ((votes.actions.find? fun action => action.id == gaId).map (·.status)) == some "active"

/-- After the script has been looked up: the checks of the transaction, and the new record under a
fresh id. -/
def createChecked (env : MultisigEnv) (w : MultisigWorld) (user : SessionUser) (b : CreateFields)
    (info : ScriptInfo) (id : String) : Option (MultisigWorld × MultisigProc) :=
  match loadDrepNativeScript env b.scriptDrepId info with
  | .error (status, error) => some (w, .failed status error)
  | .ok (script, hashHex) =>
    match transactionError env hashHex b with
    | some error => some (w, .failed 422 error)
    | none =>
      if w.drawnIds.contains id then none
      else
        some ({ w with drawnIds := id :: w.drawnIds }, .createInsert (b.row user script id w.now))

/-- The first read of `addPendingWitness`, or a later one. -/
def appendChecked (row : PendingVoteRow) (witness : Witness) (attempt : ℕ) :
    Option PendingVoteRow → MultisigProc
  | none => .failed 409 "no longer collecting"
  | some stored =>
    if stored.status ≠ .collecting then .failed 409 "no longer collecting"
    else if stored.witnesses.any fun w => w.keyHash == witness.keyHash then
      .witnessProgress row witness
    else .appendSwap row witness attempt stored.witnesses

/-- After the swap of `addPendingWitness`. -/
def appendSwapped (row : PendingVoteRow) (witness : Witness) (attempt : ℕ) (swapped : Bool) :
    MultisigProc :=
  if swapped then .witnessProgress row witness
  else if attempt + 1 < ADD_WITNESS_MAX_ATTEMPTS then .appendRead row witness (attempt + 1)
  else .failed 409 "no longer collecting"

/-- Checks a report before the record is claimed. -/
def submittedChecked (row : PendingVoteRow) (raw : Option SubmittedBody) (now : ℤ) :
    MultisigProc :=
  match raw with
  | none => .failed 400 "invalid JSON"
  | some raw =>
    match textField isHexHash raw.txHash with
    | none => .failed 400 "invalid input"
    | some txHash =>
      if row.status ≠ .collecting then .failed 409 "already submitted"
      else .submittedMark row txHash now

/-- The answer of a request for the assembled transaction, noted where it hands one out. -/
def submitGiven (env : MultisigEnv) (w : MultisigWorld) (row : PendingVoteRow) :
    MultisigWorld × MultisigProc :=
  match submitAnswer env row w.now with
  | .assembled hex =>
    ({ w with handed := ⟨hex, getPendingVote w.pending row.id, w.now⟩ :: w.handed },
      .answered (.assembled hex))
  | answer => (w, .answered answer)

/-- The next statement of a request. What comes in from outside is the answer of Koios and the id
that is drawn. -/
def multisigStep (env : MultisigEnv) (k : ScriptInfo × String) (w : MultisigWorld) :
    MultisigProc → Option (MultisigWorld × MultisigProc)
  | .createUser user b =>
    some (w, if isMember w.users user b.scriptDrepId then .createAction user b
      else .failed 403 "not a member")
  | .createAction user b =>
    some (w, if isOpenAction w.votes b.gaId then .createScript user b
      else .failed 409 "governance action is not open for voting")
  | .createScript user b => createChecked env w user b k.1 k.2
  | .createInsert row =>
    some ({ w with
      pending := w.pending.insertOrIgnore row
      storedIds := row.id :: w.storedIds }, .answered (.created row.id))
  | .witnessRow user id witnessSetHex =>
    some (w, match getPendingVote w.pending id with
      | none => .failed 404 "not found"
      | some row => if row.status ≠ .collecting then .failed 409 "no longer collecting"
        else .witnessUser user row witnessSetHex)
  | .witnessUser user row witnessSetHex =>
    some (w, if !isMember w.users user row.drepId then .failed 403 "not a member"
      else match witnessFor env row witnessSetHex with
        | .error answer => .answered answer
        | .ok witness => .appendRead row witness 0)
  | .appendRead row witness attempt =>
    some (w, appendChecked row witness attempt (getPendingVote w.pending row.id))
  | .appendSwap row witness attempt blob =>
    let (pending, swapped) := swapVoteWitnesses w.pending row.id blob (blob ++ [witness])
    some ({ w with pending := pending }, appendSwapped row witness attempt swapped)
  | .witnessProgress row witness =>
    some (w, .answered (progressAnswer env row witness (getPendingVote w.pending row.id)))
  | .submitRow user id =>
    some (w, match getPendingVote w.pending id with
      | none => .failed 404 "not found"
      | some row => .submitUser user row)
  | .submitUser user row =>
    some (if isMember w.users user row.drepId then submitGiven env w row
      else (w, .failed 403 "not a member"))
  | .submittedRow user id raw =>
    some (w, match getPendingVote w.pending id with
      | none => .failed 404 "not found"
      | some row => .submittedUser user row raw)
  | .submittedUser user row raw =>
    some (w, if isMember w.users user row.drepId then submittedChecked row raw w.now
      else .failed 403 "not a member")
  | .submittedMark row txHash now =>
    let (pending, won) := markVoteSubmitted w.pending row.id txHash
    some ({ w with pending := pending },
      if won then .submittedRecord row txHash now else .failed 409 "already submitted")
  | .submittedRecord row txHash now =>
    let vote := row.localVote txHash now
    some ({ w with
      votes := recordLocalVote w.votes vote
      recorded := (row.id, vote) :: w.recorded }, .answered .recorded)
  | .deleteExpired now =>
    let (pending, count) := deleteExpiredPending w.pending now
    some ({ w with pending := pending }, .answered (.deleted count))
  | .answered _ => none

/-- Requests at the endpoints, while the clock advances and others write the accounts, the actions
and the votes. -/
def multisigProgram (env : MultisigEnv) : Program MultisigWorld MultisigProc where
  Start w l := ∃ request, l = multisigReceived env w.now request
  Step w l w' l' := ∃ k, multisigStep env k w l = some (w', l')
  Env w w' := ∃ users votes now, w.now ≤ now ∧
    w' = { w with users := users, votes := votes, now := now }

/-- Before the first record nothing has happened. -/
structure MultisigWorld.Initial (w : MultisigWorld) : Prop where
  pending : w.pending.rows = []
  storedIds : w.storedIds = []
  handed : w.handed = []
  recorded : w.recorded = []

end DrepTalk
