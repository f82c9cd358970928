import DrepTalk.Multisig.MultisigHandlers

/-!
# What the multisig endpoints guarantee

Any number of requests at once, statement by statement. A record is to carry one voting procedure,
the declared one, and signatures of its transaction by keys of its script; a transaction is to be
handed out only while its record collects, and the declared vote to be recorded once, for that
transaction (`MultisigSafe`).

**Records are what they were.** A request keeps the row it has read and acts on it later. By then
the row has more witnesses at most, or has been submitted (`VoteRowGrows`), and an id that has been
stored is never stored again; so what has been checked against the row that was read holds for the
one that is stored.

**Three gaps.** The new record is accepted if some procedure casts the declared vote: there may be
more, and their anchors are never looked at. A report of a submission is never compared with the
record. And the assembled transaction is handed out on the strength of the row as it was read. Runs
without these are safe (`multisig_safe`).
-/

namespace DrepTalk

/-! ### The script of a record -/

section ScriptJson

variable {lc : Cardano.LowerCase}

theorem numberJson_of_isNatural {x : Cardano.JsNumber} (h : x.isNatural = true) :
    numberJson x = .number x := by
  rw [Cardano.JsNumber.isNatural_iff.mp h, numberJson]

theorem keyHashOf_sig (keyHash : Text) :
    Cardano.keyHashOf lc [("type", .string "sig"), ("keyHash", .string (String.ofList keyHash))] =
      lc.toLowerCase keyHash :=
  congrArg lc.toLowerCase String.toList_ofList

theorem numberField_slot (type : String) (slot : Cardano.JsNumber) :
    Cardano.numberField "slot" [("type", .string type), ("slot", .number slot)] = some slot := rfl

theorem numberField_required (required : Cardano.JsNumber) (scripts : Cardano.ScriptJson) :
    Cardano.numberField "required" [("type", .string "atLeast"), ("required", .number required),
      ("scripts", scripts)] = some required := rfl

mutual

theorem parse_scriptJson (s : Cardano.NativeScript) (hparsed : s.Parsed) (hnat : s.Natural) :
    Cardano.parseNativeScriptJson lc (scriptJson s) = some s := by
  cases s with
  | sig keyHash =>
    have hkey : Cardano.isKeyHashHex keyHash = true := hparsed
    have hlower := Cardano.toLowerCase_of_isKeyHashHex lc hkey
    simp [scriptJson, Cardano.parseNativeScriptJson, keyHashOf_sig, hlower, hkey]
  | all scripts | any scripts =>
    have hitems := parseItems_scriptsJson scripts hparsed hnat
    simp [scriptJson, Cardano.parseNativeScriptJson, Cardano.parseScripts, Cardano.parseChildren,
      hitems]
  | atLeast required scripts =>
    have hitems := parseItems_scriptsJson scripts hparsed.2 hnat.2
    simp [scriptJson, Cardano.parseNativeScriptJson, Cardano.parseScripts, Cardano.parseChildren,
      numberField_required, numberJson_of_isNatural hnat.1, hparsed.1, hitems]
  | before slot | after slot =>
    have hslot := numberJson_of_isNatural hnat
    simp [scriptJson, Cardano.parseNativeScriptJson, numberField_slot, hslot]

theorem parseItems_scriptsJson (scripts : List Cardano.NativeScript)
    (hparsed : Cardano.AllParsed scripts) (hnat : Cardano.AllNatural scripts) :
    Cardano.parseItems lc (scriptsJson scripts) = some scripts := by
  cases scripts with
  | nil => rfl
  | cons script scripts =>
    rw [scriptsJson, Cardano.parseItems, parse_scriptJson script hparsed.1 hnat.1,
      parseItems_scriptsJson scripts hparsed.2 hnat.2]

end

end ScriptJson

/-! ### What a record is to be -/

/-- The voting procedures of a transaction, one by one. -/
def TransactionBody.procedures (body : TransactionBody) :
    List (SdkVoter × GovActionId × VotingProcedure) :=
  (body.votingProcedures.getD []).flatMap fun entry => entry.2.map fun action => (entry.1, action)

/-- Whether the anchor of a procedure is the declared one. -/
def AnchorDeclared (lc : Cardano.LowerCase) (anchorUrl anchorHashHex : Option String)
    (anchor : Option SdkAnchor) : Prop :=
  anchor.map (·.anchorUrl) = anchorUrl ∧
    anchor.map (fun a => bytesToHex a.anchorDataHash) =
      anchorHashHex.map fun hash => lc.toLowerCase hash.toList

variable {env : MultisigEnv}

/-- The transaction of a request carries one procedure, with the declared anchor. -/
def CreateFields.OnlyDeclared (env : MultisigEnv) (b : CreateFields) : Prop :=
  ∀ body, env.fromCBORHex b.unsignedTxCbor = some body →
    ∃ voter action procedure, body.procedures = [(voter, action, procedure)] ∧
      AnchorDeclared env.lc b.anchorUrl b.anchorHashHex procedure.anchor

/-- A transaction casts the vote that a record declares, and no other. -/
def PendingVoteRow.CastsDeclared (env : MultisigEnv) (row : PendingVoteRow)
    (body : TransactionBody) : Prop :=
  ∃ hash action procedure,
    body.procedures = [(.drep (.scriptHash hash), action, procedure)] ∧
      parseScriptDrepId env.toSignatureEnv row.drepId = some (bytesToHex hash) ∧
      action.text = row.actionParams.gaId.toList ∧
      procedure.vote.choice = row.actionParams.vote ∧
      AnchorDeclared env.lc row.actionParams.anchorUrl row.actionParams.anchorHashHex
        procedure.anchor

/-- A valid signature of a transaction by a key that a script lists. -/
def Witness.Signs (env : MultisigEnv) (body : TransactionBody) (script : Cardano.NativeScript)
    (w : Witness) : Prop :=
  ∃ vkey signature, env.vkeyWitnesses w.witnessHex = some [⟨vkey, signature⟩] ∧
    w.keyHash.toList = bytesToHex (env.blake2b224 vkey) ∧
    w.keyHash.toList ∈ Cardano.collectSigKeyHashes env.lc script ∅ ∧
    env.verifyEd25519 signature (env.toHash body) vkey = true

structure PendingVoteRow.Right (env : MultisigEnv) (row : PendingVoteRow) (body : TransactionBody)
    (script : Cardano.NativeScript) : Prop where
  decoded : env.fromCBORHex row.unsignedTxCbor = some body
  declared : row.CastsDeclared env body
  bodyHash : hexToBytes row.bodyHash.toList = some (env.toHash body)
  parsed : row.script env = some script
  drep : ∃ hash, parseScriptDrepId env.toSignatureEnv row.drepId = some hash ∧
    Cardano.nativeScriptHash env.blake2b224 script = .ok hash
  signed : ∀ w ∈ row.witnesses, w.Signs env body script

/-- A transaction is handed out while its record collects, is not over, and its script is satisfied
by the witnesses that are stored. -/
def HandedTx.Right (env : MultisigEnv) (h : HandedTx) : Prop :=
  ∃ row, h.stored = some row ∧ row.status = .collecting ∧ h.givenAt ≤ row.expiresAt ∧
    row.satisfied env = true

/-- A vote that has been recorded is the one its record declares, for the transaction that the
record has been submitted with. -/
def RecordedFrom (row : PendingVoteRow) (r : String × LocalVote) : Prop :=
  row.id = r.1 ∧ row.status = .submitted ∧ row.txHash = some r.2.txHash ∧
    r.2 = row.localVote r.2.txHash r.2.now ∧
    hexToBytes r.2.txHash.toList = hexToBytes row.bodyHash.toList

/-- What the endpoints guarantee of a state. -/
structure MultisigSafe (env : MultisigEnv) (w : MultisigWorld) : Prop where
  /-- The transaction of a record casts the declared vote and no other, and its witnesses are
  signatures of that transaction by keys that the script of the DRep lists. -/
  right : ∀ row ∈ w.pending.rows, ∃ body script, row.Right env body script
  handed : ∀ h ∈ w.handed, h.Right env
  /-- The vote of a record is recorded at most once ... -/
  once : (w.recorded.map (·.1)).Nodup
  /-- ... and for the stored transaction. -/
  recorded : ∀ r ∈ w.recorded, ∃ row ∈ w.pending.rows, RecordedFrom row r ∧
    ∃ body, env.fromCBORHex row.unsignedTxCbor = some body ∧
      hexToBytes r.2.txHash.toList = some (env.toHash body)

/-! ### Creating a record -/

variable {body : TransactionBody}

theorem mem_procedures {voter : SdkVoter} {action : GovActionId} {procedure : VotingProcedure} :
    (voter, action, procedure) ∈ body.procedures ↔
      ∃ entries, body.votingProcedures = some entries ∧
        ∃ entry ∈ entries, entry.1 = voter ∧ (action, procedure) ∈ entry.2 := by
  rcases hentries : body.votingProcedures with _ | entries
  · simp [TransactionBody.procedures, hentries]
  · simp only [TransactionBody.procedures, hentries, Option.getD_some, List.mem_flatMap,
      List.mem_map, Prod.mk.injEq, Option.some.injEq, exists_eq_left']
    constructor
    · rintro ⟨entry, hmem, pair, hpair, rfl, rfl⟩
      exact ⟨entry, hmem, rfl, hpair⟩
    · rintro ⟨entry, hmem, rfl, hpair⟩
      exact ⟨entry, hmem, _, hpair, rfl, rfl⟩

variable {hashHex : Text}

theorem isScriptVoter_iff {voter : SdkVoter} :
    isScriptVoter hashHex voter = true ↔
      ∃ hash, voter = .drep (.scriptHash hash) ∧ bytesToHex hash = hashHex := by
  rcases voter with _ | drep | _
  · simp [isScriptVoter]
  · cases drep <;> simp [isScriptVoter]
  · simp [isScriptVoter]

theorem toNat_lt_of_hexDigit {c : Char} (h : (hexDigit c).isSome = true) : c.toNat < 128 := by
  rw [hexDigit] at h
  by_contra hge
  rw [if_neg (by omega), if_neg (by omega), if_neg (by omega)] at h
  cases h

theorem hexDigit_toLower {c : Char} (h : (hexDigit c).isSome = true) :
    hexDigit c.toLower = hexDigit c := by
  have hall : ∀ n < 128, hexDigit (Char.ofNat n).toLower = hexDigit (Char.ofNat n) := by decide
  have hc := hall c.toNat (toNat_lt_of_hexDigit h)
  rwa [Char.ofNat_toNat] at hc

theorem hexToBytes_map_toLower : ∀ {text : Text}, (∀ c ∈ text, (hexDigit c).isSome = true) →
    hexToBytes (text.map Char.toLower) = hexToBytes text
  | [], _ => rfl
  | [_], _ => rfl
  | a :: b :: rest, h => by
    rw [List.map_cons, List.map_cons, hexToBytes, hexToBytes, hexDigit_toLower (h a (by simp)),
      hexDigit_toLower (h b (by simp)), hexToBytes_map_toLower fun c hc => h c (by simp [hc])]

theorem hexToBytes_of_lower {lc : Cardano.LowerCase} {text : String} {bytes : Bytes}
    (hhex : isHexHash text = true) (h : bytesToHex bytes = lc.toLowerCase text.toList) :
    hexToBytes text.toList = some bytes := by
  have hdigits : ∀ c ∈ text.toList, (hexDigit c).isSome = true := by
    rw [isHexHash, isHexExact, Bool.and_eq_true] at hhex
    exact List.all_eq_true.mp hhex.2
  rw [lc.ascii _ fun c hc => toNat_lt_of_hexDigit (hdigits c hc)] at h
  rw [← hexToBytes_map_toLower hdigits, ← h, hexToBytes_bytesToHex]

variable {info : ScriptInfo} {script : Cardano.NativeScript}

theorem loadDrepNativeScript_spec {drepId : String}
    (h : loadDrepNativeScript env drepId info = .ok (script, hashHex)) :
    parseScriptDrepId env.toSignatureEnv drepId = some hashHex ∧
      Cardano.nativeScriptHash env.blake2b224 script = .ok hashHex ∧
      script.Parsed ∧ script.Natural := by
  rw [loadDrepNativeScript] at h
  split at h
  · cases h
  rename_i hash hdrep
  split at h
  · cases h
  · cases h
  split_ifs at h
  split at h
  · cases h
  rename_i parsed hparse
  split at h
  · cases h
  rename_i hash' hhash
  split_ifs at h with heq
  cases h
  refine ⟨hdrep, heq ▸ hhash, Cardano.parsed_of_parse _ hparse, ?_⟩
  simp only [Cardano.nativeScriptHash, Cardano.tagged, Cardano.bind_eq_ok] at hhash
  obtain ⟨_, ⟨bytes, hbytes, -⟩, -⟩ := hhash
  exact Cardano.natural_of_encode _ hbytes

variable {b : CreateFields}

/-- What has been checked of a transaction: its hash, and that some procedure casts the declared
vote. -/
theorem transactionError_eq_none (h : transactionError env hashHex b = none) :
    ∃ body, env.fromCBORHex b.unsignedTxCbor = some body ∧
      hexToBytes b.bodyHash.toList = some (env.toHash body) ∧
      ∃ hash action procedure, bytesToHex hash = hashHex ∧
        (.drep (.scriptHash hash), action, procedure) ∈ body.procedures ∧
        action.text = b.gaId.toList ∧ procedure.vote.choice = b.vote := by
  rw [transactionError] at h
  split at h
  · cases h
  rename_i body hbody
  split_ifs at h with hhash
  split at h
  · cases h
  rename_i entries hentries
  split_ifs at h with hfound
  refine ⟨body, hbody, hexToBytes_of_lower b.hex64 (not_not.mp hhash), ?_⟩
  rw [Bool.or_eq_true, not_or, Bool.not_eq_true', Bool.not_eq_false, foundVoteMatch] at hfound
  obtain ⟨entry, hentry, hmatch⟩ := List.any_eq_true.mp hfound.2
  rw [Bool.and_eq_true] at hmatch
  obtain ⟨hash, hvoter, hhex⟩ := isScriptVoter_iff.mp hmatch.1
  obtain ⟨⟨action, procedure⟩, haction, hcast⟩ := List.any_eq_true.mp hmatch.2
  rw [Bool.and_eq_true, beq_iff_eq, decide_eq_true_eq] at hcast
  exact ⟨hash, action, procedure, hhex,
    mem_procedures.mpr ⟨entries, hentries, entry, hentry, hvoter, haction⟩, hcast⟩

variable {user : SessionUser} {id : String} {now : ℤ}

/-- **A record that has passed the checks** casts the declared vote alone, if and only if its
transaction carries one procedure with the declared anchor. -/
theorem castsDeclared_iff
    (hdrep : parseScriptDrepId env.toSignatureEnv b.scriptDrepId = some hashHex)
    (h : transactionError env hashHex b = none)
    (hbody : env.fromCBORHex b.unsignedTxCbor = some body) :
    (b.row user script id now).CastsDeclared env body ↔ b.OnlyDeclared env := by
  obtain ⟨body', hbody', -, hash, action, procedure, hhex, hmem, hid, hvote⟩ :=
    transactionError_eq_none h
  cases hbody'.symm.trans hbody
  constructor
  · rintro ⟨hash', action', procedure', hone, -, -, -, hanchor⟩ body hbody'
    cases hbody'.symm.trans hbody
    exact ⟨_, _, _, hone, hanchor⟩
  · intro hone
    obtain ⟨voter, action', procedure', hone, hanchor⟩ := hone _ hbody
    rw [hone, List.mem_singleton] at hmem
    cases hmem
    exact ⟨hash, action, procedure, hone, hdrep.trans (congrArg some hhex.symm), hid, hvote,
      hanchor⟩

theorem CreateFields.row_right (user : SessionUser) (id : String) (now : ℤ)
    (hload : loadDrepNativeScript env b.scriptDrepId info = .ok (script, hashHex))
    (h : transactionError env hashHex b = none) (honly : b.OnlyDeclared env) :
    ∃ body, (b.row user script id now).Right env body script := by
  obtain ⟨hdrep, hhash, hparsed, hnat⟩ := loadDrepNativeScript_spec hload
  obtain ⟨body, hbody, hbytes, -⟩ := transactionError_eq_none h
  exact ⟨body, hbody, (castsDeclared_iff hdrep h hbody).mpr honly, hbytes,
    parse_scriptJson script hparsed hnat, ⟨hashHex, hdrep, hhash⟩,
    nofun⟩

/-! ### Adding a witness -/

variable {row : PendingVoteRow}

variable {witness : Witness} {p : PendingVoteRow → Bool}

theorem witnessFor_spec {witnessSetHex : String} (hright : row.Right env body script)
    (h : witnessFor env row witnessSetHex = .ok witness) : witness.Signs env body script := by
  rw [witnessFor, hright.parsed] at h
  dsimp only at h
  split at h
  · rename_i w hwitness
    rw [validateWitness, hwitness] at h
    dsimp only at h
    rw [hright.bodyHash, Option.map_some] at h
    split_ifs at h with hmember hdup hverify
    cases h
    exact ⟨w.vkey, w.signature, hwitness, by simp, by simpa using hmember, hverify⟩
  · cases h

/-! ### What becomes of a record -/

/-- A record gets witnesses, or is submitted; nothing else of it changes. -/
structure VoteRowGrows (row row' : PendingVoteRow) : Prop where
  same : row' = { row with toPendingMultisigRow := row'.toPendingMultisigRow }
  grows : RowGrows row.toPendingMultisigRow row'.toPendingMultisigRow

theorem VoteRowGrows.refl (row : PendingVoteRow) : VoteRowGrows row row := ⟨rfl, .refl _⟩

theorem VoteRowGrows.trans {a b c : PendingVoteRow} (h : VoteRowGrows a b)
    (h' : VoteRowGrows b c) : VoteRowGrows a c := by
  refine ⟨?_, h.grows.trans h'.grows⟩
  rw [h'.same, h.same]

variable {row' : PendingVoteRow}

theorem signers_subset {witnesses witnesses' : List Witness} (h : witnesses <+: witnesses') :
    signers witnesses ⊆ signers witnesses' := by
  intro k hk
  rw [signers, List.mem_toFinset, List.mem_map] at hk ⊢
  obtain ⟨w, hw, rfl⟩ := hk
  exact ⟨w, h.subset hw, rfl⟩

theorem VoteRowGrows.satisfied (h : VoteRowGrows row row') (hrow : row.satisfied env = true) :
    row'.satisfied env = true := by
  have hscript : row'.script env = row.script env := by rw [h.same]; rfl
  rw [PendingVoteRow.satisfied] at hrow ⊢
  rw [hscript]
  rcases hparse : row.script env with _ | script
  · rw [hparse] at hrow
    cases hrow
  · rw [hparse, Option.any_some] at hrow
    rw [Option.any_some]
    exact Cardano.satisfied_mono (signers_subset h.grows.witnesses) hrow

theorem PendingVoteRow.Right.grown (h : row.Right env body script) (hgrows : VoteRowGrows row row')
    (hsigned : ∀ w ∈ row'.witnesses, w.Signs env body script) : row'.Right env body script := by
  have hsame := hgrows.same
  generalize row'.toPendingMultisigRow = part at hsame
  subst hsame
  exact ⟨h.decoded, h.declared, h.bodyHash, h.parsed, h.drep, hsigned⟩

theorem PendingVoteRow.Right.unique {body' : TransactionBody} {script' : Cardano.NativeScript}
    (h : row.Right env body script) (h' : row'.Right env body' script')
    (hgrows : VoteRowGrows row row') :
    body' = body ∧ script' = script := by
  have hdecoded := h'.decoded
  have hparsed := h'.parsed
  rw [hgrows.same] at hdecoded hparsed
  exact ⟨Option.some.inj (hdecoded.symm.trans h.decoded),
    Option.some.inj (hparsed.symm.trans h.parsed)⟩

/-- What may happen to the records: they grow, new ones come in under new ids, and those that have
been submitted stay. -/
structure MultisigWorld.Grows (w w' : MultisigWorld) : Prop where
  now : w.now ≤ w'.now
  drawnIds : ∀ id ∈ w.drawnIds, id ∈ w'.drawnIds
  storedIds : ∀ id ∈ w.storedIds, id ∈ w'.storedIds
  source : ∀ row' ∈ w'.pending.rows,
    (∃ row ∈ w.pending.rows, VoteRowGrows row row') ∨ row'.id ∉ w.storedIds
  submitted : ∀ row ∈ w.pending.rows, row.status = .submitted → row ∈ w'.pending.rows

variable {w w' : MultisigWorld}

theorem MultisigWorld.Grows.of_pending (hnow : w.now ≤ w'.now)
    (hdrawn : ∀ id ∈ w.drawnIds, id ∈ w'.drawnIds) (hstored : w'.storedIds = w.storedIds)
    (hpending : w'.pending = w.pending) : w.Grows w' := by
  refine ⟨hnow, hdrawn, fun id hid => hstored ▸ hid, ?_, ?_⟩
  · rw [hpending]
    exact fun row hmem => .inl ⟨row, hmem, .refl row⟩
  · rw [hpending]
    exact fun row hmem _ => hmem

variable {f : PendingVoteRow → PendingVoteRow} {hex txHash : String}

theorem MultisigWorld.Grows.updateWhere (w : MultisigWorld)
    (hkey : ∀ row, p row = true → (f row).id = row.id)
    (hcollecting : ∀ row, p row = true → row.status = .collecting)
    (hgrows : ∀ row, p row = true → VoteRowGrows row (f row)) :
    w.Grows { w with pending := w.pending.updateWhere p f hkey } := by
  refine ⟨le_rfl, fun _ h => h, fun _ h => h, fun row' hmem' => ?_, fun row hmem hstatus => ?_⟩
  · rcases Table.mem_updateWhere.mp hmem' with ⟨hold, -⟩ | ⟨row, hold, hp, rfl⟩
    · exact .inl ⟨row', hold, .refl row'⟩
    · exact .inl ⟨row, hold, hgrows row hp⟩
  · refine Table.mem_updateWhere.mpr (.inl ⟨hmem, ?_⟩)
    rw [← Bool.not_eq_true]
    intro hp
    cases hstatus.symm.trans (hcollecting row hp)

theorem swapVoteWitnesses_grows (w : MultisigWorld) (id : String) (blob : List Witness)
    (witness : Witness) :
    w.Grows { w with pending := (swapVoteWitnesses w.pending id blob (blob ++ [witness])).1 } := by
  refine .updateWhere w (by intros; rfl) (fun row hholds => ?_) fun row hholds => ?_
  · exact (holdsBlob_eq_true.mp hholds).1.2
  · obtain ⟨⟨-, hcollecting⟩, hblob⟩ := holdsBlob_eq_true.mp hholds
    exact ⟨rfl, rfl, hblob ▸ List.prefix_append _ _, fun hsettled => absurd hcollecting hsettled⟩

theorem markVoteSubmitted_grows (w : MultisigWorld) (id txHash : String) :
    w.Grows { w with pending := (markVoteSubmitted w.pending id txHash).1 } := by
  refine .updateWhere w (by intros; rfl) (fun row hholds => ?_) fun row hholds => ?_
  · exact (isCollecting_eq_true.mp hholds).2
  · exact ⟨rfl, rfl, List.prefix_refl _,
      fun hsettled => absurd (isCollecting_eq_true.mp hholds).2 hsettled⟩

theorem isOver_iff :
    isOver now row = true ↔ row.status = .collecting ∧ row.expiresAt ≤ now := by
  rw [isOver, Bool.and_eq_true, beq_iff_eq, decide_eq_true_eq]

theorem deleteExpiredPending_grows (w : MultisigWorld) (now : ℤ) :
    w.Grows { w with pending := (deleteExpiredPending w.pending now).1 } := by
  refine ⟨le_rfl, fun _ h => h, fun _ h => h, fun row' hmem' => ?_, fun row hmem hstatus => ?_⟩
  · exact .inl ⟨row', (Table.mem_deleteWhere.mp hmem').1, .refl row'⟩
  · refine Table.mem_deleteWhere.mpr ⟨hmem, ?_⟩
    rw [← Bool.not_eq_true, isOver_iff, hstatus]
    exact fun hover => absurd hover.1 (by decide)

/-! ### What a request knows -/

/-- A row that a request has read, and what has become of it. -/
structure Held (env : MultisigEnv) (w : MultisigWorld) (row : PendingVoteRow) : Prop where
  right : ∃ body script, row.Right env body script
  stored : row.id ∈ w.storedIds
  grown : ∀ row' ∈ w.pending.rows, row'.id = row.id → VoteRowGrows row row'

theorem Held.mono (h : Held env w row) (hgrows : w.Grows w') : Held env w' row := by
  refine ⟨h.right, hgrows.storedIds _ h.stored, fun row' hmem' hid => ?_⟩
  rcases hgrows.source row' hmem' with ⟨old, hold, hrow⟩ | hnew
  · exact (h.grown old hold (hrow.grows.id.symm.trans hid)).trans hrow
  · exact absurd (hid ▸ h.stored) hnew

/-- Whether a row that has been read leads to a transaction being handed out, unless time is
over. -/
def PendingVoteRow.handsOut (env : MultisigEnv) (row : PendingVoteRow) : Bool :=
  row.status == .collecting && row.satisfied env

/-- A record that is about to be handed out collects, unless it is over. -/
def StillCollects (w : MultisigWorld) (row : PendingVoteRow) : Prop :=
  (∃ row' ∈ w.pending.rows, row'.id = row.id ∧ row'.status = .collecting) ∨ row.expiresAt < w.now

/-- A record that this request has claimed, and whose vote nobody has recorded. -/
structure VoteClaimed (w : MultisigWorld) (row : PendingVoteRow) (txHash : String) : Prop where
  submitted : ∃ row' ∈ w.pending.rows, row'.id = row.id ∧ row'.status = .submitted ∧
    row'.txHash = some txHash
  unrecorded : row.id ∉ w.recorded.map (·.1)
  reported : hexToBytes txHash.toList = hexToBytes row.bodyHash.toList

def MultisigProc.Sound (env : MultisigEnv) (w : MultisigWorld) : MultisigProc → Prop
  | .createInsert row => (∃ body script, row.Right env body script) ∧ row.id ∈ w.drawnIds ∧
      row.id ∉ w.storedIds ∧ row.status = .collecting
  | .witnessUser _ row _ | .submittedUser _ row _ | .submittedMark row _ _ => Held env w row
  | .appendRead row witness _ | .appendSwap row witness _ _ => Held env w row ∧
      ∀ body script, row.Right env body script → witness.Signs env body script
  | .submitUser _ row => Held env w row ∧ (row.handsOut env = true → StillCollects w row)
  | .submittedRecord row txHash _ => Held env w row ∧ VoteClaimed w row txHash
  | .deleteExpired now => now ≤ w.now
  | _ => True

/-- What a request alone may do: insert a record, or record its vote. -/
def MultisigProc.owns : MultisigProc → Option (String ⊕ String)
  | .createInsert row => some (.inl row.id)
  | .submittedRecord row _ _ => some (.inr row.id)
  | _ => none

structure MultisigInv (env : MultisigEnv) (w : MultisigWorld) : Prop where
  right : ∀ row ∈ w.pending.rows, ∃ body script, row.Right env body script
  stored : ∀ row ∈ w.pending.rows, row.id ∈ w.storedIds
  drawn : ∀ id ∈ w.storedIds, id ∈ w.drawnIds
  handed : ∀ h ∈ w.handed, h.Right env
  once : (w.recorded.map (·.1)).Nodup
  recorded : ∀ r ∈ w.recorded, ∃ row ∈ w.pending.rows, RecordedFrom row r

/-- Without these gaps: one procedure with the declared anchor; a report names the stored
transaction; and no record about to be handed out is claimed, or deleted as it is over. -/
def multisigCondition (env : MultisigEnv) : Program.Condition MultisigWorld MultisigProc where
  state _ := True
  mover _ l := match l with
    | .createScript _ b => b.OnlyDeclared env
    | .submittedMark row txHash _ => hexToBytes txHash.toList = hexToBytes row.bodyHash.toList
    | _ => True
  others w l m := match l, m with
    | .submittedMark row _ _, .submitUser _ held =>
      ¬(held.id = row.id ∧ held.handsOut env = true)
    | .deleteExpired now, .submitUser _ held =>
      ¬(held.handsOut env = true ∧ held.expiresAt ≤ now ∧ w.now ≤ held.expiresAt)
    | _, _ => True

/-! ### One statement -/

/-- What a statement may do to the world: leave the tables of records and what has been recorded
alone, or write one of them. -/
inductive MultisigEffect (env : MultisigEnv) (w : MultisigWorld) :
    MultisigProc → MultisigWorld → Prop
  | aside (l : MultisigProc) (drawnIds : List String) (handed : List HandedTx)
      (hdrawn : ∀ id ∈ w.drawnIds, id ∈ drawnIds)
      (hhanded : ∀ h ∈ handed, h ∈ w.handed ∨ h.Right env) :
    MultisigEffect env w l { w with drawnIds := drawnIds, handed := handed }
  | insert (row : PendingVoteRow) : MultisigEffect env w (.createInsert row)
      { w with pending := w.pending.insertOrIgnore row, storedIds := row.id :: w.storedIds }
  | swap (row : PendingVoteRow) (witness : Witness) (attempt : ℕ) (blob : List Witness) :
    MultisigEffect env w (.appendSwap row witness attempt blob)
      { w with pending := (swapVoteWitnesses w.pending row.id blob (blob ++ [witness])).1 }
  | mark (row : PendingVoteRow) (txHash : String) (now : ℤ) :
    MultisigEffect env w (.submittedMark row txHash now)
      { w with pending := (markVoteSubmitted w.pending row.id txHash).1 }
  | record (row : PendingVoteRow) (txHash : String) (now : ℤ) :
    MultisigEffect env w (.submittedRecord row txHash now)
      { w with
        votes := recordLocalVote w.votes (row.localVote txHash now)
        recorded := (row.id, row.localVote txHash now) :: w.recorded }
  | delete (now : ℤ) : MultisigEffect env w (.deleteExpired now)
      { w with pending := (deleteExpiredPending w.pending now).1 }

theorem MultisigEffect.same (l : MultisigProc) (w : MultisigWorld) : MultisigEffect env w l w :=
  .aside l w.drawnIds w.handed (fun _ h => h) fun _ h => .inl h

variable {l : MultisigProc}

theorem MultisigEffect.grows (h : MultisigEffect env w l w') (hl : l.Sound env w) : w.Grows w' := by
  cases h with
  | aside l drawnIds handed hdrawn _ => exact .of_pending le_rfl hdrawn rfl rfl
  | insert row =>
    refine ⟨le_rfl, fun _ h => h, fun _ h => List.mem_cons_of_mem _ h, fun row' hmem' => ?_,
      fun row' hmem' _ => KeyedTable.mem_insertOrIgnore.mpr (.inl hmem')⟩
    rcases KeyedTable.mem_insertOrIgnore.mp hmem' with hold | ⟨rfl, -⟩
    · exact .inl ⟨row', hold, .refl row'⟩
    · exact .inr hl.2.2.1
  | swap row witness attempt blob => exact swapVoteWitnesses_grows w row.id blob witness
  | mark row txHash now => exact markVoteSubmitted_grows w row.id txHash
  | record row txHash now => exact .of_pending le_rfl (fun _ h => h) rfl rfl
  | delete now => exact deleteExpiredPending_grows w now

theorem getPendingVote_eq_some {table : PendingVoteTable} :
    getPendingVote table id = some row ↔ row ∈ table.rows ∧ row.id = id :=
  table.find?_eq_some fun _ => beq_iff_eq

theorem MultisigInv.held (hinv : MultisigInv env w) (h : getPendingVote w.pending id = some row) :
    Held env w row := by
  obtain ⟨hmem, -⟩ := getPendingVote_eq_some.mp h
  refine ⟨hinv.right row hmem, hinv.stored row hmem, fun row' hmem' hid => ?_⟩
  obtain rfl := w.pending.eq_of_key hmem hmem' hid.symm
  exact .refl row

theorem submitAnswer_eq_assembled (h : submitAnswer env row now = .assembled hex) :
    now ≤ row.expiresAt ∧ row.handsOut env = true := by
  rw [submitAnswer] at h
  split_ifs at h with hover hstatus hscript hsatisfied
  refine ⟨not_lt.mp hover, ?_⟩
  rw [PendingVoteRow.handsOut, Bool.and_eq_true, beq_iff_eq]
  exact ⟨not_not.mp hstatus, by simpa using hsatisfied⟩

theorem submitGiven_right (hheld : Held env w row)
    (hcollects : row.handsOut env = true → StillCollects w row)
    (h : submitAnswer env row w.now = .assembled hex) :
    HandedTx.Right env ⟨hex, getPendingVote w.pending row.id, w.now⟩ := by
  obtain ⟨hnow, hhands⟩ := submitAnswer_eq_assembled h
  rcases hcollects hhands with ⟨row', hmem', hid, hstatus⟩ | hover
  · have hgrows := hheld.grown row' hmem' hid
    have hexpires : row'.expiresAt = row.expiresAt := by rw [hgrows.same]
    rw [PendingVoteRow.handsOut, Bool.and_eq_true] at hhands
    exact ⟨row', getPendingVote_eq_some.mpr ⟨hmem', hid⟩, hstatus, hexpires ▸ hnow,
      hgrows.satisfied hhands.2⟩
  · exact absurd hnow (not_le.mpr hover)

variable {l' : MultisigProc} {k : ScriptInfo × String}

theorem multisigStep_effect (hl : l.Sound env w) (h : multisigStep env k w l = some (w', l')) :
    MultisigEffect env w l w' := by
  cases l with
  | createScript user b =>
    rw [multisigStep, createChecked] at h
    split at h
    · cases h
      exact .same _ _
    · split at h
      · cases h
        exact .same _ _
      · split_ifs at h
        cases h
        exact .aside _ _ _ (fun _ h => List.mem_cons_of_mem _ h) fun _ h => .inl h
  | createInsert row =>
    cases h
    exact .insert row
  | appendSwap row witness attempt blob =>
    cases h
    exact .swap row witness attempt blob
  | submitUser user row =>
    rw [multisigStep, Option.some_inj] at h
    split_ifs at h
    · rw [submitGiven] at h
      split at h
      · rename_i hex hanswer
        cases h
        refine .aside _ _ _ (fun _ h => h) fun handed hmem => ?_
        rcases List.mem_cons.mp hmem with rfl | hold
        · exact .inr (submitGiven_right hl.1 hl.2 hanswer)
        · exact .inl hold
      · cases h
        exact .same _ _
    · cases h
      exact .same _ _
  | submittedMark row txHash now =>
    cases h
    exact .mark row txHash now
  | submittedRecord row txHash now =>
    cases h
    exact .record row txHash now
  | deleteExpired now =>
    cases h
    exact .delete now
  | answered answer => cases h
  | createUser _ _ | createAction _ _ | witnessRow _ _ _ | witnessUser _ _ _ | appendRead _ _ _
  | witnessProgress _ _ | submitRow _ _ | submittedRow _ _ _ | submittedUser _ _ _ =>
    cases h
    exact .same _ _

theorem MultisigInv.swap_right (hinv : MultisigInv env w) {blob : List Witness}
    (hheld : Held env w row)
    (hsigns : ∀ body script, row.Right env body script → witness.Signs env body script)
    (hmem : row' ∈ (swapVoteWitnesses w.pending row.id blob (blob ++ [witness])).1.rows) :
    ∃ body script, row'.Right env body script := by
  rcases Table.mem_updateWhere.mp hmem with ⟨hold, -⟩ | ⟨stored, hold, hholds, rfl⟩
  · exact hinv.right row' hold
  · obtain ⟨⟨hid, hcollecting⟩, hblob⟩ := holdsBlob_eq_true.mp hholds
    obtain ⟨body, script, hright⟩ := hheld.right
    obtain ⟨body', script', hright'⟩ := hinv.right stored hold
    obtain ⟨rfl, rfl⟩ := hright.unique hright' (hheld.grown stored hold hid)
    have hgrows : VoteRowGrows stored { stored with witnesses := blob ++ [witness] } :=
      ⟨rfl, rfl, hblob ▸ List.prefix_append _ _, fun hsettled => absurd hcollecting hsettled⟩
    refine ⟨_, _, hright'.grown hgrows fun w' hw' => ?_⟩
    rcases List.mem_append.mp hw' with hw' | hw'
    · exact hright'.signed w' (hblob ▸ hw')
    · rw [List.mem_singleton.mp hw']
      exact hsigns _ _ hright

theorem VoteClaimed.recorded (hheld : Held env w row) (h : VoteClaimed w row txHash) (now : ℤ) :
    ∃ row' ∈ w.pending.rows, RecordedFrom row' (row.id, row.localVote txHash now) := by
  obtain ⟨row', hmem, hid, hstatus, htx⟩ := h.submitted
  have hsame := (hheld.grown row' hmem hid).same
  refine ⟨row', hmem, hid, hstatus, htx, ?_, h.reported.trans ?_⟩
  · rw [hsame]
    rfl
  · rw [hsame]

theorem MultisigEffect.inv (h : MultisigEffect env w l w') (hinv : MultisigInv env w)
    (hl : l.Sound env w) :
    MultisigInv env w' := by
  have hgrows := h.grows hl
  -- a record whose vote has been recorded has been submitted, and stays
  have hkept : ∀ r ∈ w.recorded, ∃ row ∈ w'.pending.rows, RecordedFrom row r := by
    intro r hr
    obtain ⟨row, hmem, hfrom⟩ := hinv.recorded r hr
    exact ⟨row, hgrows.submitted row hmem hfrom.2.1, hfrom⟩
  cases h with
  | aside l drawnIds handed hdrawn hhanded =>
    refine ⟨hinv.right, hinv.stored, fun id hid => hdrawn id (hinv.drawn id hid), fun h hmem => ?_,
      hinv.once, hinv.recorded⟩
    rcases hhanded h hmem with hold | hright
    · exact hinv.handed h hold
    · exact hright
  | insert row =>
    obtain ⟨hright, hdrawn, hfresh, -⟩ := hl
    refine ⟨fun row' hmem' => ?_, fun row' hmem' => ?_, fun id hid => ?_, hinv.handed, hinv.once,
      hkept⟩
    · rcases KeyedTable.mem_insertOrIgnore.mp hmem' with hold | ⟨rfl, -⟩
      · exact hinv.right row' hold
      · exact hright
    · rcases KeyedTable.mem_insertOrIgnore.mp hmem' with hold | ⟨rfl, -⟩
      · exact List.mem_cons_of_mem _ (hinv.stored row' hold)
      · exact List.mem_cons_self
    · rcases List.mem_cons.mp hid with rfl | hid
      · exact hdrawn
      · exact hinv.drawn id hid
  | swap row witness attempt blob =>
    refine ⟨fun row' hmem' => hinv.swap_right hl.1 hl.2 hmem', fun row' hmem' => ?_, hinv.drawn,
      hinv.handed, hinv.once, hkept⟩
    rcases Table.mem_updateWhere.mp hmem' with ⟨hold, -⟩ | ⟨stored, hold, -, rfl⟩
    · exact hinv.stored row' hold
    · exact hinv.stored stored hold
  | mark row txHash now =>
    refine ⟨fun row' hmem' => ?_, fun row' hmem' => ?_, hinv.drawn, hinv.handed, hinv.once, hkept⟩
    · rcases Table.mem_updateWhere.mp hmem' with ⟨hold, -⟩ | ⟨stored, hold, hholds, rfl⟩
      · exact hinv.right row' hold
      · obtain ⟨body, script, hright⟩ := hinv.right stored hold
        exact ⟨body, script, hright.decoded, hright.declared, hright.bodyHash, hright.parsed,
          hright.drep, hright.signed⟩
    · rcases Table.mem_updateWhere.mp hmem' with ⟨hold, -⟩ | ⟨stored, hold, -, rfl⟩
      · exact hinv.stored row' hold
      · exact hinv.stored stored hold
  | record row txHash now =>
    refine ⟨hinv.right, hinv.stored, hinv.drawn, hinv.handed,
      List.nodup_cons.mpr ⟨hl.2.unrecorded, hinv.once⟩, fun r hr => ?_⟩
    rcases List.mem_cons.mp hr with rfl | hold
    · exact hl.2.recorded hl.1 now
    · exact hinv.recorded r hold
  | delete now =>
    exact ⟨fun row hmem => hinv.right row (Table.mem_deleteWhere.mp hmem).1,
      fun row hmem => hinv.stored row (Table.mem_deleteWhere.mp hmem).1, hinv.drawn, hinv.handed,
      hinv.once, hkept⟩

theorem createChecked_sound (hinv : MultisigInv env w) (honly : b.OnlyDeclared env)
    (h : createChecked env w user b info id = some (w', l')) :
    l'.Sound env w' ∧ ∀ o, l'.owns = some o → o = .inl id ∧ id ∉ w.drawnIds := by
  rw [createChecked] at h
  split at h
  · cases h
    exact ⟨trivial, nofun⟩
  rename_i script hashHex hload
  split at h
  · cases h
    exact ⟨trivial, nofun⟩
  rename_i herror
  split_ifs at h with hdrawn
  cases h
  have hfresh : id ∉ w.drawnIds := fun hmem => hdrawn (List.contains_iff_mem.mpr hmem)
  obtain ⟨body, hright⟩ := CreateFields.row_right user id w.now hload herror honly
  refine ⟨⟨⟨body, script, hright⟩, List.mem_cons_self, fun hmem => ?_, rfl⟩, fun o ho => ?_⟩
  · exact hfresh (hinv.drawn id hmem)
  · exact ⟨(Option.some.inj ho).symm, hfresh⟩

theorem markVoteSubmitted_claimed (hinv : MultisigInv env w)
    (hreported : hexToBytes txHash.toList = hexToBytes row.bodyHash.toList)
    (hwon : (markVoteSubmitted w.pending row.id txHash).2 = true) :
    VoteClaimed { w with pending := (markVoteSubmitted w.pending row.id txHash).1 } row txHash := by
  obtain ⟨stored, hmem, hholds⟩ := List.any_eq_true.mp hwon
  have hmem' := Table.mem_updateWhere_of_mem
    (fun row' : PendingVoteRow => isCollecting row.id row'.toPendingMultisigRow)
    (fun row => { row with status := .submitted, txHash := some txHash }) hmem
  rw [if_pos hholds] at hmem'
  obtain ⟨hid, hcollecting⟩ := isCollecting_eq_true.mp hholds
  refine ⟨⟨_, hmem', hid, rfl, rfl⟩, fun hrecorded => ?_, hreported⟩
  -- a record whose vote has been recorded does not collect
  obtain ⟨r, hr, hrid⟩ := List.mem_map.mp hrecorded
  obtain ⟨other, hother, hid', hstatus, -⟩ := hinv.recorded r hr
  obtain rfl := w.pending.eq_of_key hmem hother (hid.trans (hrid.symm.trans hid'.symm))
  cases hstatus.symm.trans hcollecting

/-- **One statement.** What a request may assert behind it. -/
theorem multisigStep_sound (hinv : MultisigInv env w) (hl : l.Sound env w)
    (hmover : (multisigCondition env).mover w l) (h : multisigStep env k w l = some (w', l')) :
    l'.Sound env w' := by
  have hgrows := (multisigStep_effect hl h).grows hl
  cases l with
  | createUser user b | createAction user b =>
    cases h
    split_ifs <;> trivial
  | createScript user b => exact (createChecked_sound hinv hmover h).1
  | createInsert row | witnessProgress row witness | submittedRecord row txHash now
  | deleteExpired now =>
    cases h
    trivial
  | witnessRow user id witnessSetHex =>
    cases h
    rcases hget : getPendingVote w.pending id with _ | row
    · trivial
    · dsimp only
      split_ifs
      · trivial
      · exact hinv.held hget
  | witnessUser user row witnessSetHex =>
    cases h
    split_ifs
    · trivial
    · rcases hwitness : witnessFor env row witnessSetHex with _ | witness
      · trivial
      · exact ⟨hl, fun body script hright => witnessFor_spec hright hwitness⟩
  | appendRead row witness attempt =>
    cases h
    rcases getPendingVote w.pending row.id with _ | stored
    · trivial
    · rw [appendChecked]
      split_ifs
      · trivial
      · trivial
      · exact hl
  | appendSwap row witness attempt blob =>
    cases h
    rw [appendSwapped]
    split_ifs
    · trivial
    · exact ⟨hl.1.mono hgrows, hl.2⟩
    · trivial
  | submitRow user id =>
    cases h
    rcases hget : getPendingVote w.pending id with _ | row
    · trivial
    · refine ⟨hinv.held hget, fun hhands => .inl ⟨row, (getPendingVote_eq_some.mp hget).1, rfl, ?_⟩⟩
      rw [PendingVoteRow.handsOut, Bool.and_eq_true, beq_iff_eq] at hhands
      exact hhands.1
  | submitUser user row =>
    rw [multisigStep, Option.some_inj] at h
    split_ifs at h
    · rw [submitGiven] at h
      split at h <;> cases h <;> trivial
    · cases h
      trivial
  | submittedRow user id raw =>
    cases h
    rcases hget : getPendingVote w.pending id with _ | row
    · trivial
    · exact hinv.held hget
  | submittedUser user row raw =>
    cases h
    split_ifs
    · rcases raw with _ | raw
      · trivial
      · rw [submittedChecked]
        split
        · trivial
        · split_ifs
          · trivial
          · exact hl
    · trivial
  | submittedMark row txHash now =>
    cases h
    split_ifs with hwon
    · exact ⟨hl.mono hgrows, markVoteSubmitted_claimed hinv hmover hwon⟩
    · trivial
  | answered answer => cases h

/-! ### Requests beside each other -/

variable {m : MultisigProc}

/-- What another request asserts stays, if its record is neither inserted, nor recorded, nor, while
it is about to be handed out, claimed or deleted. -/
theorem MultisigProc.Sound.mono {w w' : MultisigWorld} {m : MultisigProc} (hm : m.Sound env w)
    (hgrows : w.Grows w')
    (hinsert : ∀ row, m = .createInsert row → row.id ∉ w'.storedIds)
    (hrecord : ∀ row txHash now, m = .submittedRecord row txHash now →
      row.id ∉ w'.recorded.map (·.1))
    (hcollects : ∀ user row, m = .submitUser user row → row.handsOut env = true →
      StillCollects w row → StillCollects w' row) : m.Sound env w' := by
  cases m with
  | createInsert row =>
    exact ⟨hm.1, hgrows.drawnIds _ hm.2.1, hinsert row rfl, hm.2.2.2⟩
  | witnessUser user row witnessSetHex | submittedUser user row raw
  | submittedMark row txHash now => exact Held.mono hm hgrows
  | appendRead row witness attempt => exact ⟨hm.1.mono hgrows, hm.2⟩
  | appendSwap row witness attempt blob => exact ⟨hm.1.mono hgrows, hm.2⟩
  | submitUser user row =>
    exact ⟨hm.1.mono hgrows, fun hhands => hcollects user row rfl hhands (hm.2 hhands)⟩
  | submittedRecord row txHash now =>
    obtain ⟨hheld, ⟨row', hmem, hid, hstatus, htx⟩, -, hreported⟩ := hm
    exact ⟨hheld.mono hgrows,
      ⟨row', hgrows.submitted row' hmem hstatus, hid, hstatus, htx⟩, hrecord _ _ _ rfl, hreported⟩
  | deleteExpired now => exact le_trans hm hgrows.now
  | createUser _ _ | createAction _ _ | createScript _ _ | witnessRow _ _ _ | witnessProgress _ _
  | submitRow _ _ | submittedRow _ _ _ | answered _ => trivial

theorem StillCollects.updateWhere (h : StillCollects w row)
    (hkey : ∀ r, p r = true → (f r).id = r.id)
    (hstatus : ∀ r, p r = true → r.id = row.id → (f r).status = r.status) :
    StillCollects { w with pending := w.pending.updateWhere p f hkey } row := by
  refine h.imp_left ?_
  rintro ⟨row', hmem, hid, hcollecting⟩
  exact Table.exists_mem_updateWhere hmem
    (fun hp => ⟨(hkey row' hp).trans hid, (hstatus row' hp hid).trans hcollecting⟩)
    fun _ => ⟨hid, hcollecting⟩

theorem MultisigEffect.collects (h : MultisigEffect env w l w') (hl : l.Sound env w)
    (hheld : Held env w row) (hothers : (multisigCondition env).others w l (.submitUser user row))
    (hhands : row.handsOut env = true) (hcollects : StillCollects w row) :
    StillCollects w' row := by
  cases h with
  | aside l drawnIds handed _ _ | record recorded txHash now => exact hcollects
  | insert inserted =>
    refine hcollects.imp_left ?_
    rintro ⟨row', hmem, hrow⟩
    exact ⟨row', KeyedTable.mem_insertOrIgnore.mpr (.inl hmem), hrow⟩
  | swap swapped witness attempt blob =>
    exact hcollects.updateWhere (by intros; rfl) fun _ _ _ => rfl
  | mark marked txHash now =>
    refine hcollects.updateWhere (by intros; rfl) fun r hp hid => ?_
    exact absurd ⟨hid.symm.trans (isCollecting_eq_true.mp hp).1, hhands⟩ hothers
  | delete now =>
    rcases hcollects with ⟨row', hmem, hid, hcollecting⟩ | hover
    · have hexpires : row'.expiresAt = row.expiresAt := by rw [(hheld.grown row' hmem hid).same]
      by_cases hdeleted : isOver now row' = true
      · -- it is over for the one who deletes it, whose clock is not ahead
        have hle := (isOver_iff.mp hdeleted).2
        rw [hexpires] at hle
        exact .inr (not_le.mp fun hnow => hothers ⟨hhands, hle, hnow⟩)
      · exact .inl ⟨row', Table.mem_deleteWhere.mpr ⟨hmem, Bool.not_eq_true _ ▸ hdeleted⟩, hid,
          hcollecting⟩
    · exact .inr hover

theorem multisigStep_noninterference (hl : l.Sound env w) (hm : m.Sound env w)
    (hothers : (multisigCondition env).others w l m)
    (hapart : ∀ o, l.owns = some o → m.owns ≠ some o) (h : multisigStep env k w l = some (w', l')) :
    m.Sound env w' := by
  have heffect := multisigStep_effect hl h
  refine hm.mono (heffect.grows hl) ?_ ?_ ?_
  · rintro row rfl
    cases heffect with
    | insert inserted =>
      intro hmem
      rcases List.mem_cons.mp hmem with hid | hold
      · exact hapart _ rfl (congrArg (fun id => some (Sum.inl id)) hid)
      · exact hm.2.2.1 hold
    | aside _ _ _ _ _ | swap _ _ _ _ | mark _ _ _ | record _ _ _ | delete _ => exact hm.2.2.1
  · rintro row txHash now rfl
    cases heffect with
    | record recorded _ _ =>
      intro hmem
      rcases List.mem_cons.mp hmem with hid | hold
      · exact hapart _ rfl (congrArg (fun id => some (Sum.inr id)) hid)
      · exact hm.2.unrecorded hold
    | aside _ _ _ _ _ | insert _ | swap _ _ _ _ | mark _ _ _ | delete _ => exact hm.2.unrecorded
  · rintro user row rfl hhands
    exact heffect.collects hl hm.1 hothers hhands

/-- Who gets a record to insert has drawn its id; who gets one to record has found it collecting. -/
theorem multisigStep_owns (hinv : MultisigInv env w) (hmover : (multisigCondition env).mover w l)
    (h : multisigStep env k w l = some (w', l')) {o : String ⊕ String} (ho : l'.owns = some o) :
    (∃ id ∉ w.drawnIds, o = .inl id) ∨
      ∃ row ∈ w.pending.rows, row.status = .collecting ∧ o = .inr row.id := by
  cases l with
  | createScript user b =>
    obtain ⟨hown, hfresh⟩ := (createChecked_sound hinv hmover h).2 o ho
    exact .inl ⟨k.2, hfresh, hown⟩
  | submittedMark row txHash now =>
    cases h
    split_ifs at ho with hwon
    · obtain ⟨stored, hmem, hholds⟩ := List.any_eq_true.mp hwon
      obtain ⟨hid, hcollecting⟩ := isCollecting_eq_true.mp hholds
      refine .inr ⟨stored, hmem, hcollecting, (Option.some.inj ho).symm.trans ?_⟩
      exact congrArg Sum.inr hid.symm
    · cases ho
  | appendRead row witness attempt =>
    cases h
    rw [appendChecked.eq_def] at ho
    split at ho
    · cases ho
    · split_ifs at ho <;> cases ho
  | appendSwap row witness attempt blob =>
    cases h
    rw [appendSwapped] at ho
    split_ifs at ho <;> cases ho
  | submittedUser user row raw =>
    cases h
    split_ifs at ho
    · rw [submittedChecked.eq_def] at ho
      split at ho
      · cases ho
      · split at ho
        · cases ho
        · split_ifs at ho <;> cases ho
    · cases ho
  | submitUser user row =>
    rw [multisigStep, Option.some_inj] at h
    split_ifs at h
    · rw [submitGiven] at h
      split at h <;> cases h <;> cases ho
    · cases h
      cases ho
  | witnessUser user row witnessSetHex =>
    cases h
    split_ifs at ho
    · cases ho
    · split at ho <;> cases ho
  | witnessRow user id witnessSetHex =>
    cases h
    split at ho
    · cases ho
    · split_ifs at ho <;> cases ho
  | createUser _ _ | createAction _ _ =>
    cases h
    split_ifs at ho <;> cases ho
  | submitRow _ _ | submittedRow _ _ _ =>
    cases h
    split at ho <;> cases ho
  | createInsert _ | witnessProgress _ _ | submittedRecord _ _ _ | deleteExpired _ =>
    cases h
    cases ho
  | answered _ => cases h

theorem multisigStep_apart (hinv : MultisigInv env w) (hmover : (multisigCondition env).mover w l)
    (hm : m.Sound env w) (h : multisigStep env k w l = some (w', l')) :
    ∀ o, l'.owns = some o → m.owns ≠ some o := by
  intro o ho hother
  rcases multisigStep_owns hinv hmover h ho with ⟨id, hfresh, rfl⟩ | ⟨row, hmem, hcollecting, rfl⟩
  · cases m with
    | createInsert row =>
      rw [MultisigProc.owns, Option.some_inj, Sum.inl.injEq] at hother
      exact hfresh (hother ▸ hm.2.1)
    | _ => cases hother
  · cases m with
    | submittedRecord row' txHash now =>
      rw [MultisigProc.owns, Option.some_inj, Sum.inr.injEq] at hother
      obtain ⟨other, hmem', hid, hstatus, -⟩ := hm.2.submitted
      obtain rfl := w.pending.eq_of_key hmem hmem' (hother.symm.trans hid.symm)
      cases hstatus.symm.trans hcollecting
    | _ => cases hother

theorem multisigReceived_sound (env : MultisigEnv) (w : MultisigWorld) (request : MultisigRequest) :
    (multisigReceived env w.now request).Sound env w ∧
      (multisigReceived env w.now request).owns = none := by
  cases request with
  | create user raw | witness user id raw | submit user id | submitted user id raw =>
    rw [multisigReceived]
    repeat' split
    all_goals exact ⟨trivial, rfl⟩
  | expire => exact ⟨le_refl w.now, rfl⟩

/-- The invariant of all runs without the gaps. -/
def multisigSound (env : MultisigEnv) :
    (multisigProgram env).SoundWhen (multisigCondition env) MultisigWorld.Initial where
  inv := MultisigInv env
  asserts w l := l.Sound env w
  apart l m := ∀ o, l.owns = some o → m.owns ≠ some o
  symm l m h o hm hl := h o hl hm
  init w hinit := by
    refine ⟨?_, ?_, ?_, ?_, ?_, ?_⟩
    · simp [hinit.pending]
    · simp [hinit.pending]
    · simp [hinit.storedIds]
    · simp [hinit.handed]
    · simp [hinit.recorded]
    · simp [hinit.recorded]
  start w l _ _ hstart := by
    obtain ⟨request, rfl⟩ := hstart
    obtain ⟨hsound, hnone⟩ := multisigReceived_sound env w request
    exact ⟨hsound, fun m _ o ho => absurd (hnone.symm.trans ho) (by simp)⟩
  step w l w' l' _ hmover hinv hl hstep := by
    obtain ⟨k, h⟩ := hstep
    exact ⟨(multisigStep_effect hl h).inv hinv hl, multisigStep_sound hinv hl hmover h⟩
  noninterference w l w' l' m _ hmover hothers hinv hl hm hapart hstep := by
    obtain ⟨k, h⟩ := hstep
    exact ⟨multisigStep_noninterference hl hm hothers hapart h,
      multisigStep_apart hinv hmover hm h⟩
  env w w' _ hinv henv := by
    obtain ⟨users, votes, now, hnow, rfl⟩ := henv
    refine ⟨⟨hinv.right, hinv.stored, hinv.drawn, hinv.handed, hinv.once, hinv.recorded⟩,
      fun m hm => ?_⟩
    refine hm.mono (.of_pending hnow (fun _ h => h) rfl rfl) ?_ ?_ ?_
    · rintro row rfl
      exact hm.2.2.1
    · rintro row txHash now' rfl
      exact hm.2.unrecorded
    · rintro user row - - hcollects
      exact hcollects.imp_right fun hover => lt_of_lt_of_le hover hnow

/-- **Runs without the three gaps are safe**, in every state. -/
theorem multisig_safe {ι : Type*} [DecidableEq ι]
    {s : Interleaved MultisigWorld MultisigProc ι}
    (h : (((multisigProgram env).system ι MultisigWorld.Initial).restrict
      (multisigCondition env).Met).Reachable s) : MultisigSafe env s.shared := by
  obtain ⟨hinv, -, -⟩ := (multisigSound env).holds h
  refine ⟨hinv.right, hinv.handed, hinv.once, fun r hr => ?_⟩
  obtain ⟨row, hmem, hfrom⟩ := hinv.recorded r hr
  obtain ⟨body, script, hright⟩ := hinv.right row hmem
  exact ⟨row, hmem, hfrom, body, hright.decoded, hfrom.2.2.2.2.trans hright.bodyHash⟩

/-! ### Two runs -/

section Samples

def zeroHex (n : ℕ) : String := String.ofList (List.replicate n '0')

def sampleGaId : String := String.ofList (List.replicate 64 '0' ++ ['#', '0'])

def sampleEntry : SdkVoter × List (GovActionId × VotingProcedure) :=
  (.drep (.scriptHash (List.replicate 28 0)),
    [(⟨List.replicate 32 0, 0⟩, ⟨.yesVote, none⟩)])

/-- ... and a stake pool votes no, in the same transaction. -/
def sampleSmuggled : SdkVoter × List (GovActionId × VotingProcedure) :=
  (.stakePool [1], [(⟨List.replicate 32 0, 0⟩, ⟨.noVote, none⟩)])

/-- Packages that know two transactions and one signature. -/
def sampleMultisigEnv : MultisigEnv where
  decode _ := none
  encode _ := []
  blake2b224 _ := List.replicate 28 0
  blake2b256 _ := List.replicate 32 0
  verifyEd25519 sig _ pubKey := sig == [2] && pubKey == [1]
  encodeBech32 name _ := name
  decodeBech32 id := if id = "drep" then some (DREP_SCRIPT_HEADER :: List.replicate 28 0) else none
  lc := Cardano.asciiLower
  fromCBORHex hex :=
    if hex = "00" then some ⟨some [sampleEntry], [0]⟩
    else if hex = "01" then some ⟨some [sampleEntry, sampleSmuggled], [1]⟩
    else none
  toHash _ := List.replicate 32 0
  vkeyWitnesses hex := if hex = "aa" then some [⟨[1], [2]⟩] else none
  addVKeyWitnessesHex hex witnessSetHex := some (hex ++ witnessSetHex)
  acceptsUrl _ := true

def sampleCosigner : SessionUser := ⟨"member", ["drep"], some "drep"⟩

/-- The member's account, and an action that is open. -/
def sampleMultisigWorld : MultisigWorld where
  pending := .empty
  users := ⟨⟨[⟨"member", some "drep", none, none, none, true, false, false, false, none, 0, 0,
    none⟩], by decide⟩, by decide⟩
  votes := ⟨.empty, .empty, .empty, [⟨sampleGaId, none, "active"⟩]⟩
  now := 1000
  drawnIds := []
  storedIds := []
  handed := []
  recorded := []

def sampleFields (unsignedTxCbor : String) : CreateFields where
  scriptDrepId := "drep"
  gaId := sampleGaId
  vote := .yes
  unsignedTxCbor := unsignedTxCbor
  bodyHash := zeroHex 64
  anchorUrl := none
  anchorHashHex := none
  hex64 := by decide +kernel

def sampleCreate (unsignedTxCbor : String) : MultisigRequest :=
  .create (some sampleCosigner) (some ⟨some (.string "drep"), some (.string sampleGaId),
    some (.string "yes"), some (.string unsignedTxCbor), some (.string (zeroHex 64)), none, none⟩)

/-- The script that Koios knows, and the id that is drawn. -/
def sampleOutside : ScriptInfo × String :=
  (.script "timelock" (.object [("type", .string "sig"), ("keyHash", .string (zeroHex 56))]), "tok")

variable {unsignedTxCbor : String}

theorem sampleCreate_received (h : isHexText unsignedTxCbor = true) :
    multisigReceived sampleMultisigEnv 1000 (sampleCreate unsignedTxCbor) =
      .createUser sampleCosigner (sampleFields unsignedTxCbor) := by
  have hgaId : isGaId sampleGaId = true := by decide +kernel
  have hhash : isHexHash (zeroHex 64) = true := by decide +kernel
  have hparse : CreateBody.parse sampleMultisigEnv ⟨some (.string "drep"),
      some (.string sampleGaId), some (.string "yes"), some (.string unsignedTxCbor),
      some (.string (zeroHex 64)), none, none⟩ = some (sampleFields unsignedTxCbor) := by
    simp [CreateBody.parse, textField, voteField, optionalText, sampleFields, h, hgaId, hhash]
  simp only [multisigReceived, sampleCreate, hparse]
  rfl

/-- The request that creates a record, that of a witness, that for the assembled transaction, and
the report of its submission. -/
def sampleRequests (unsignedTxCbor : String) : Fin 4 → MultisigRequest
  | 0 => sampleCreate unsignedTxCbor
  | 1 => .witness (some sampleCosigner) "tok" (some ⟨some (.string "aa")⟩)
  | 2 => .submit (some sampleCosigner) "tok"
  | 3 => .submitted (some sampleCosigner) "tok" (some ⟨some (.string (zeroHex 64))⟩)

def sampleProcs (unsignedTxCbor : String) : Fin 4 → MultisigProc
  | 0 => .createUser sampleCosigner (sampleFields unsignedTxCbor)
  | 1 => .witnessRow sampleCosigner "tok" "aa"
  | 2 => .submitRow sampleCosigner "tok"
  | 3 => .submittedRow sampleCosigner "tok" (some ⟨some (.string (zeroHex 64))⟩)

theorem sampleProcs_start (h : isHexText unsignedTxCbor = true) (i : Fin 4) :
    (multisigProgram sampleMultisigEnv).Start sampleMultisigWorld
      (sampleProcs unsignedTxCbor i) := by
  refine ⟨sampleRequests unsignedTxCbor i, ?_⟩
  match i with
  | 0 => exact (sampleCreate_received h).symm
  | 1 =>
    have hhex : (isHexText "aa" && decide (2 ≤ "aa".length)) = true := by decide +kernel
    simp only [sampleProcs, sampleRequests, multisigReceived, textField, hhex]
    rfl
  | 2 | 3 => rfl

def sampleStarted (unsignedTxCbor : String) : Interleaved MultisigWorld MultisigProc (Fin 4) :=
  ⟨sampleMultisigWorld, fun i => some (sampleProcs unsignedTxCbor i)⟩

/-- Statements of a schedule, with what comes in from outside. -/
def sampleStatements (schedule : List (Fin 4)) : List (Fin 4 × (ScriptInfo × String)) :=
  schedule.map fun i => (i, sampleOutside)

theorem multisigStep_moves (env : MultisigEnv) (k : ScriptInfo × String) (w : MultisigWorld)
    (l : MultisigProc) (w' : MultisigWorld) (l' : MultisigProc) (h : multisigStep env k w l = some (w', l')) :
    (multisigProgram env).Step w l w' l' :=
  ⟨k, h⟩

theorem sampleStarted_reachable (unsignedTxCbor : String) (h : isHexText unsignedTxCbor = true) :
    (((multisigProgram sampleMultisigEnv).system (Fin 4) MultisigWorld.Initial).restrict
      (multisigCondition sampleMultisigEnv).Met).Reachable (sampleStarted unsignedTxCbor) :=
  Program.reachable_started ⟨rfl, rfl, rfl, rfl⟩ trivial _ (sampleProcs_start h)

/-- Statements that the gaps are not about, and reports of the stored transaction. -/
def MultisigProc.steady : MultisigProc → Bool
  | .createScript _ b => b.unsignedTxCbor == "00" && b.anchorUrl.isNone && b.anchorHashHex.isNone
  | .submittedMark _ _ _ | .deleteExpired _ => false
  | _ => true

/-- A statement, where the gaps are not about it. -/
def steadyMultisigStep (k : ScriptInfo × String) (w : MultisigWorld) (l : MultisigProc) :
    Option (MultisigWorld × MultisigProc) :=
  if l.steady then multisigStep sampleMultisigEnv k w l else none

theorem sampleFields_only {b : CreateFields} (hcbor : b.unsignedTxCbor = "00")
    (hurl : b.anchorUrl = none) (hhash : b.anchorHashHex = none) :
    b.OnlyDeclared sampleMultisigEnv := by
  intro body hbody
  rw [hcbor] at hbody
  cases hbody
  exact ⟨_, _, _, rfl, by rw [hurl, hhash]; exact ⟨rfl, rfl⟩⟩

theorem steadyMultisigStep_moves (k : ScriptInfo × String) (w : MultisigWorld) (l : MultisigProc)
    (w' : MultisigWorld) (l' : MultisigProc) (h : steadyMultisigStep k w l = some (w', l')) :
    (multisigProgram sampleMultisigEnv).Step w l w' l' ∧ True ∧
      (multisigCondition sampleMultisigEnv).mover w l := by
  rw [steadyMultisigStep] at h
  split_ifs at h with hsteady
  refine ⟨⟨k, h⟩, trivial, ?_⟩
  cases l with
  | createScript user b =>
    simp only [MultisigProc.steady, Bool.and_eq_true, beq_iff_eq, Option.isNone_iff_eq_none]
      at hsteady
    exact sampleFields_only hsteady.1.1 hsteady.1.2 hsteady.2
  | submittedMark _ _ _ => cases hsteady
  | _ => trivial

theorem steadyMultisigStep_others (k : ScriptInfo × String) (w : MultisigWorld) (l : MultisigProc)
    (out : MultisigWorld × MultisigProc) (h : steadyMultisigStep k w l = some out)
    (m : MultisigProc) : (multisigCondition sampleMultisigEnv).others w l m := by
  rw [steadyMultisigStep] at h
  split_ifs at h with hsteady
  cases l with
  | submittedMark _ _ _ | deleteExpired _ => cases hsteady
  | _ => trivial

/-- A report of the stored transaction. -/
def MultisigProc.reports : MultisigProc → Bool
  | .submittedMark row txHash _ => hexToBytes txHash.toList == hexToBytes row.bodyHash.toList
  | _ => false

def MultisigProc.isAnswered : MultisigProc → Bool
  | .answered _ => true
  | _ => false

theorem met_of_reports {s : Interleaved MultisigWorld MultisigProc (Fin 4)} {i : Fin 4}
    (h : (s.procs i).all MultisigProc.reports = true ∧
      ∀ j, j ≠ i → (s.procs j).all MultisigProc.isAnswered = true) :
    (multisigCondition env).Met s (.step i) := by
  obtain ⟨hreports, hothers⟩ := h
  refine ⟨trivial, fun l hl => ?_⟩
  rw [hl, Option.all_some] at hreports
  cases l with
  | submittedMark row txHash now =>
    refine ⟨beq_iff_eq.mp hreports, fun j m hji hj => ?_⟩
    have hanswered := hothers j hji
    rw [hj, Option.all_some] at hanswered
    cases m with
    | submitUser _ _ => cases hanswered
    | _ => trivial
  | _ => cases hreports

/-- A record is created, signed, handed out, submitted, and its vote recorded. -/
theorem multisig_safe_recorded :
    ∃ s : Interleaved MultisigWorld MultisigProc (Fin 4),
      (((multisigProgram sampleMultisigEnv).system (Fin 4) MultisigWorld.Initial).restrict
        (multisigCondition sampleMultisigEnv).Met).Reachable s ∧
      MultisigSafe sampleMultisigEnv s.shared ∧
      s.shared.handed.length = 1 ∧ s.shared.recorded.length = 1 := by
  have h₁ := Program.reachable_runWhen steadyMultisigStep_others steadyMultisigStep_moves
    (sampleStarted_reachable "00" (by decide +kernel))
    (sampleStatements [0, 0, 0, 0, 1, 1, 1, 1, 1, 2, 2, 3, 3]) (by decide +kernel)
  have h₂ := h₁.step ⟨met_of_reports (i := 3) (by decide +kernel),
    Program.moves_run (multisigStep_moves sampleMultisigEnv) _ 3 sampleOutside
      (by decide +kernel)⟩
  have h₃ := Program.reachable_runWhen steadyMultisigStep_others steadyMultisigStep_moves h₂
    (sampleStatements [3]) (by decide +kernel)
  exact ⟨_, h₃, multisig_safe h₃, by decide +kernel⟩

/-- A second procedure in the transaction: the checks find the first one, and the record casts a
vote that it does not declare. -/
theorem not_multisig_safe : ¬∀ (env : MultisigEnv)
    (s : Interleaved MultisigWorld MultisigProc (Fin 4)),
      ((multisigProgram env).system (Fin 4) MultisigWorld.Initial).Reachable s →
        MultisigSafe env s.shared := by
  intro h
  have hrun := Program.reachable_run (multisigStep_moves sampleMultisigEnv)
    (sampleStarted_reachable "01" (by decide +kernel)).of_restrict
    (sampleStatements [0, 0, 0, 0]) (by decide +kernel)
  have hsafe := h sampleMultisigEnv _ hrun
  obtain ⟨row, hmem, hcbor⟩ : ∃ row ∈ (Option.get (Program.run (multisigStep sampleMultisigEnv)
      (sampleStatements [0, 0, 0, 0]) (sampleStarted "01"))
        (by decide +kernel)).shared.pending.rows, row.unsignedTxCbor = "01" := by decide +kernel
  obtain ⟨body, script, hright⟩ := hsafe.right row hmem
  obtain ⟨hash, action, procedure, hone, -⟩ := hright.declared
  have hdecoded := hright.decoded
  rw [hcbor] at hdecoded
  cases hdecoded
  exact absurd (congrArg List.length hone) (by rw [List.length_singleton]; decide)

end Samples

end DrepTalk
