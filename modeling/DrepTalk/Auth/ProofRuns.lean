import DrepTalk.Auth.LoginHandlers
import DrepTalk.Grants.GrantRuns

/-!
# Proofs under interleaved requests

Any number of challenges and of requests that answer to them, interleaved statement by statement,
with any payloads, keys and signatures. Signatures cannot be forged: one that verifies has been made
by who has the key (`Unforged`), and that may happen at any time, over anything.

**One payload, one request.** Consuming a nonce takes the row of the payload away, so no two
requests are past their nonce with the same payload (`DoorProc.proof`), and none is past it with a
payload that has led to success. What a success has proven it carries with it from there: the domain
it was consumed for, the signature, and the credential that is derived from the key.

**What is bound to what** (`proofs_bound`). Linking and redeeming accept a payload that was issued
for just that account or grant; domains of different intents differ (`Intent.domain_eq_link`,
`Intent.domain_eq_redeem`). A login asks for no domain, and so takes any (`not_proofs_bound`).
-/

namespace DrepTalk

/-! ### Domains -/

theorem underscore_notMem_host {rawHost : Text} (h : matchesHost rawHost = true) :
    '_' ∉ rawHost := by
  intro hmem
  rw [matchesHost, Bool.and_eq_true] at h
  rw [← List.takeWhile_append_dropWhile (p := isHostChar) (l := rawHost)] at hmem
  rcases List.mem_append.mp hmem with hmem | hmem
  · have hchar := List.mem_takeWhile_imp hmem
    revert hchar
    decide
  · obtain ⟨-, hrest⟩ := h
    split at hrest
    · next hnil =>
      rw [hnil] at hmem
      cases hmem
    · next port hport =>
      rw [hport] at hmem
      rcases List.mem_cons.mp hmem with heq | hmem
      · revert heq
        decide
      · simp only [Bool.and_eq_true] at hrest
        have hdigit := List.all_eq_true.mp hrest.1.1 _ hmem
        revert hdigit
        decide
    · cases hrest

theorem underscore_notMem_login (rawHost : Text) : '_' ∉ (Intent.login rawHost).domain := by
  rw [Intent.domain]
  split_ifs with h
  · exact underscore_notMem_host h
  · decide

theorem underscore_mem_link (userId : String) : '_' ∈ linkStakeDomain userId :=
  List.mem_append_left userId.toList (show '_' ∈ LINK_STAKE_PREFIX by decide)

theorem underscore_mem_redeem (grantId : String) : '_' ∈ grantRedeemDomain grantId :=
  List.mem_append_left grantId.toList (show '_' ∈ GRANT_REDEEM_PREFIX by decide)

theorem linkStakeDomain_ne_redeem (userId grantId : String) :
    linkStakeDomain userId ≠ grantRedeemDomain grantId := by
  intro h
  have hl : (linkStakeDomain userId).head? = some 'l' :=
    (List.head?_append_of_ne_nil LINK_STAKE_PREFIX (by decide)).trans (by decide)
  have hp : (grantRedeemDomain grantId).head? = some 'p' :=
    (List.head?_append_of_ne_nil GRANT_REDEEM_PREFIX (by decide)).trans (by decide)
  rw [h, hp] at hl
  revert hl
  decide

variable {intent : Intent}

theorem Intent.domain_eq_link {userId : String} (h : intent.domain = linkStakeDomain userId) :
    intent = .linkStake userId := by
  cases intent with
  | login rawHost =>
    exact absurd (h ▸ underscore_mem_link userId) (underscore_notMem_login rawHost)
  | linkStake id => exact congrArg _ (String.toList_inj.mp (List.append_cancel_left h))
  | redeemGrant id => exact nomatch h

theorem Intent.domain_eq_redeem {grantId : String} (h : intent.domain = grantRedeemDomain grantId) :
    intent = .redeemGrant grantId := by
  cases intent with
  | login rawHost =>
    exact absurd (h ▸ underscore_mem_redeem grantId) (underscore_notMem_login rawHost)
  | linkStake id => exact nomatch h
  | redeemGrant id => exact congrArg _ (String.toList_inj.mp (List.append_cancel_left h))

/-! ### What calls hold -/

/-- A payload whose nonce has been consumed, with a verified signature, that has not led anywhere
yet. -/
def DoorProc.proof : DoorProc → Option Proven
  | .scriptDrep p _ | .drep p _ | .proposer p _ | .grantee p _ _ | .granteeGrant p _ _ _ | .spo p |
    .cc p | .upserting p _ _ _ | .upserted p _ _ | .grantOf p _ _ _ | .resolving p _ _ |
    .touching p _ _ _ | .touched p _ _ _ | .creating p _ _ | .created p _ _ | .rereading p _ _ _ |
    .following p _ _ | .followed p _ _ | .delegatorGrant p _ _ | .selfInvite p _ _ |
    .claiming p _ _ | .dropping p _ | .minting p _ _ | .linking p _ _ | .linkOwner p _ _ |
    .linkSelf p _ _ => some p
  | _ => none

/-- The credential that the key stands for. -/
def DoorProc.identity : DoorProc → Option Identity
  | .drep _ drepId => some (.drep drepId)
  | .proposer _ a | .grantee _ a _ | .granteeGrant _ a _ _ | .resolving _ a _ | .touching _ a _ _ |
    .touched _ a _ _ | .creating _ a _ | .created _ a _ | .rereading _ a _ _ | .following _ a _ |
    .followed _ a _ | .delegatorGrant _ a _ | .linking _ _ a | .linkOwner _ _ a |
    .linkSelf _ _ a => some (.stake a)
  | .selfInvite _ _ args | .claiming _ _ args | .dropping _ args => some (.stake args.coStakeAddr)
  | .upserting _ identity _ _ | .upserted _ identity _ | .grantOf _ identity _ _ |
    .minting _ identity _ => some identity
  | _ => none

inductive Aim
  | login
  | link (userId : String)
  | redeem (grantId : String)

def Purpose.aim : Purpose → Aim
  | .login _ _ _ => .login
  | .linkStake userId => .link userId
  | .redeemGrant grantId _ => .redeem grantId

def Door.aim : Door → Aim
  | .delegator | .coProposer _ => .login
  | .redeemGrant grantId _ => .redeem grantId

/-- What a call is about to use its proof for. -/
def DoorProc.aim : DoorProc → Option Aim
  | .scriptDrep _ _ | .drep _ _ | .proposer _ _ | .grantee _ _ _ | .granteeGrant _ _ _ _ | .spo _ |
    .cc _ | .upserting _ _ _ _ | .upserted _ _ _ | .grantOf _ _ _ _ | .following _ _ _ |
    .followed _ _ _ | .delegatorGrant _ _ _ => some .login
  | .resolving _ _ door | .touching _ _ door _ | .touched _ _ door _ | .creating _ _ door |
    .created _ _ door | .rereading _ _ door _ => some door.aim
  | .selfInvite _ _ args | .claiming _ _ args | .dropping _ args => some (.redeem args.grantId)
  | .linking _ userId _ | .linkOwner _ userId _ | .linkSelf _ userId _ => some (.link userId)
  | _ => none

/-- The signature of a request that has not been verified yet. -/
def DoorProc.signatureHex : DoorProc → Option Text
  | .received (.verify body) => body.signatureHex
  | .received (.linkStake _ body) => body.signatureHex
  | .received (.redeemGrant body) => body.signatureHex
  | .inviteOf _ _ signatureHex _ _ => some signatureHex
  | .consuming proof => some proof.signatureHex
  | _ => none

variable (env : LoginEnv)

/-- **No signature is forged.** Where the bytes that a handler verifies are a signature, whoever has
the key has signed. -/
def Unforged (w : LoginWorld) (signatureHex : Text) : Prop :=
  ∀ sig, (hexToBytes signatureHex = some sig ∨ ∃ cose,
      decodeCoseSign1 env.toSignatureEnv signatureHex = some cose ∧ sig = cose.sigBstr) →
    ∀ msg pubKey, env.verifyEd25519 sig msg pubKey = true → (pubKey, msg) ∈ w.signed

inductive LoginStart (w : LoginWorld) : DoorProc → Prop
  | loginChallenge (rawHost : Text) : LoginStart w (.challenge (.login rawHost))
  | linkChallenge (userId : String) : LoginStart w (.challenge (.linkStake userId))
  | redeemChallenge (code : Text) : LoginStart w (.redeemChallenge code)
  | request (request : ProofRequest)
      (hunforged : ∀ hex ∈ (DoorProc.received request).signatureHex, Unforged env w hex) :
      LoginStart w (.received request)

/-- The calls. Meanwhile the clock goes on, keys sign, and grants are made and revoked. -/
def loginProgram : Program LoginWorld DoorProc where
  Start := LoginStart env
  Step w l w' l' := ∃ event, doorStep env event w l = some (w', l')
  Env w w' := ∃ clock signed grants, w.nonces.clock ≤ clock ∧ clock ≤ MAX_TIME_SEC ∧
    w.signed ⊆ signed ∧ w' = { w with nonces := { w.nonces with clock }, signed, grants }

def LoginWorld.Fresh (w : LoginWorld) : Prop :=
  w.nonces.Initial ∧ w.challenges = [] ∧ w.successes = []

/-! ### What is known of a proof -/

/-- The payload has been consumed for what the request wants it for, and has been signed. -/
structure ProofKnown (w : LoginWorld) (p : Proven) : Prop where
  consumed : ∃ args ∈ w.nonces.consumed, args.payload = p.payload ∧
    args.expectedDomain = p.purpose.expectedDomain
  signed : ∃ msg, SignedForm env.toSignatureEnv p.payload msg ∧ (p.pubKey, msg) ∈ w.signed

/-- The credential is that of the key: derived from it, or said by Koios to belong to it. -/
def IdentityOf (w : LoginWorld) (pubKey : Bytes) : Identity → Prop
  | .stake stakeAddr => stakeAddr = stakeAddressFromPubKey env.toSignatureEnv pubKey env.network
  | .drep drepId => drepId = drepIdFromPubKey env.toSignatureEnv pubKey ∨
      ∃ info script, RoleAnswer.scriptDrep info script ∈ w.answers ∧
        resolveScriptDRep env.toSignatureEnv drepId (ccHotKeyHashHex env.toSignatureEnv pubKey)
          info script = some (.ok ())
  | .pool poolId => ∃ row, RoleAnswer.calidusKey row ∈ w.answers ∧
      resolveSpo (bytesToHex pubKey) row = some poolId
  | .committee ccCred => ∃ members, RoleAnswer.committee members ∈ w.answers ∧
      resolveCc (ccHotKeyHashHex env.toSignatureEnv pubKey) members = some ccCred

/-- Nothing that has been recorded goes away. -/
structure RecordGrows (w w' : LoginWorld) : Prop where
  consumed : w.nonces.consumed ⊆ w'.nonces.consumed
  signed : w.signed ⊆ w'.signed
  answers : ∀ a ∈ w.answers, a ∈ w'.answers

variable {env} {w w' : LoginWorld} {l l' : DoorProc} {p : Proven}

theorem RecordGrows.refl (w : LoginWorld) : RecordGrows w w :=
  ⟨List.Subset.refl _, List.Subset.refl _, fun _ h => h⟩

theorem ProofKnown.mono (h : ProofKnown env w p) (hgrow : RecordGrows w w') :
    ProofKnown env w' p := by
  obtain ⟨⟨args, hargs, hconsumed⟩, msg, hform, hsigned⟩ := h
  exact ⟨⟨args, hgrow.consumed hargs, hconsumed⟩, msg, hform, hgrow.signed hsigned⟩

variable {pubKey : Bytes}

theorem IdentityOf.mono {identity : Identity} (h : IdentityOf env w pubKey identity)
    (hgrow : RecordGrows w w') :
    IdentityOf env w' pubKey identity := by
  cases identity with
  | stake => exact h
  | drep =>
    refine h.imp_right ?_
    rintro ⟨info, script, hmem, hok⟩
    exact ⟨info, script, hgrow.answers _ hmem, hok⟩
  | pool =>
    obtain ⟨row, hmem, hok⟩ := h
    exact ⟨row, hgrow.answers _ hmem, hok⟩
  | committee =>
    obtain ⟨members, hmem, hok⟩ := h
    exact ⟨members, hgrow.answers _ hmem, hok⟩

theorem Unforged.mono {hex : Text} (h : Unforged env w hex) (hgrow : w.signed ⊆ w'.signed) :
    Unforged env w' hex :=
  fun sig hsig msg pubKey hverify => hgrow (h sig hsig msg pubKey hverify)

variable {proof : SignedProof}

variable {address signed : Bytes} {purpose : Purpose} {event : LoginEvent}

/-- **A signature that a handler accepts** has been made over the payload. -/
theorem verifySignature_signed (h : verifySignature env proof = some (pubKey, address))
    (hunforged : Unforged env w proof.signatureHex) :
    ∃ msg, SignedForm env.toSignatureEnv proof.payload msg ∧ (pubKey, msg) ∈ w.signed := by
  rw [verifySignature] at h
  split at h
  · obtain ⟨cose, msg, hdecode, hform, hverify⟩ := verifyCip8_signed h
    exact ⟨msg, hform, hunforged _ (.inr ⟨cose, hdecode, rfl⟩) _ _ hverify⟩
  · split at h
    · next key sig hkey hsig =>
      split_ifs at h with hverify
      cases h
      exact ⟨_, .inl rfl, hunforged _ (.inl hsig) _ _ hverify⟩
    · cases h

/-! ### What statements do to proofs -/

/-- A statement that goes on with a proof, drops it, or leads it to success. -/
structure ProofContinues (w : LoginWorld) (l : DoorProc) (w' : LoginWorld) (l' : DoorProc) : Prop where
  nonces : w'.nonces = w.nonces
  signed : w'.signed = w.signed
  challenges : w'.challenges = w.challenges
  answers : w'.answers = w.answers
  verified : l'.signatureHex = none
  aim : l'.aim = none ∨ l'.aim = l.aim
  goes : w'.successes = w.successes ∧ (l'.proof = none ∨ l'.proof = l.proof ∧
      l'.identity = l.identity) ∨
    ∃ p identity session, l.proof = some p ∧ l.identity = some identity ∧
      w'.successes = w.successes ++ [⟨p, identity, session⟩] ∧ l'.proof = none

theorem ProofContinues.on (hnonces : w'.nonces = w.nonces := by rfl)
    (hsigned : w'.signed = w.signed := by rfl)
    (hchallenges : w'.challenges = w.challenges := by rfl)
    (hanswers : w'.answers = w.answers := by rfl)
    (hsuccesses : w'.successes = w.successes := by rfl)
    (hverified : l'.signatureHex = none := by rfl)
    (haim : l'.aim = none ∨ l'.aim = l.aim := by first | exact .inr rfl | exact .inl rfl)
    (hproof : l'.proof = l.proof := by rfl)
    (hidentity : l'.identity = l.identity := by rfl) : ProofContinues w l w' l' :=
  ⟨hnonces, hsigned, hchallenges, hanswers, hverified, haim,
    .inl ⟨hsuccesses, .inr ⟨hproof, hidentity⟩⟩⟩

theorem ProofContinues.drop (hverified : l'.signatureHex = none := by rfl)
    (haim : l'.aim = none := by rfl) (h : l'.proof = none := by rfl) : ProofContinues w l w l' :=
  ⟨rfl, rfl, rfl, rfl, hverified, .inl haim, .inl ⟨rfl, .inl h⟩⟩

variable {now : ℕ}

theorem accountStep_continues (h : accountStep now w l = some (w', l')) :
    ProofContinues w l w' l' := by
  have hresolved : ∀ p a user door, (accountResolved p a user door).signatureHex = none ∧
      ((accountResolved p a user door).aim = none ∨
        (accountResolved p a user door).aim = some door.aim) ∧
      (accountResolved p a user door).proof = some p ∧
      (accountResolved p a user door).identity = some (.stake a) := by
    intro p a user door
    cases door with
    | delegator | redeemGrant => exact ⟨rfl, .inr rfl, rfl, rfl⟩
    | coProposer => exact ⟨rfl, .inl rfl, rfl, rfl⟩
  cases l with
  | upserting p identity roles modRole =>
    rw [accountStep] at h
    split at h
    · cases h
      exact .drop
    · split at h <;> cases h
      · exact .drop
      · exact .on
  | upserted p identity modRole =>
    rw [accountStep] at h
    split at h <;> cases h
    · exact .drop
    · exact .on
  | resolving p stakeAddr door =>
    rw [accountStep] at h
    split at h <;> cases h <;> exact .on
  | touching p stakeAddr door userId =>
    cases h
    exact .on
  | touched p stakeAddr door userId =>
    rw [accountStep] at h
    split at h <;> cases h
    · exact .drop
    · exact .on rfl rfl rfl rfl rfl (hresolved ..).1 (hresolved ..).2.1 (hresolved ..).2.2.1
        (hresolved ..).2.2.2
  | creating p stakeAddr door =>
    rw [accountStep] at h
    split at h
    · cases h
      exact .on
    · split at h <;> cases h <;> exact .on
  | created p stakeAddr door =>
    rw [accountStep] at h
    split at h <;> cases h
    · exact .on
    · exact .on rfl rfl rfl rfl rfl (hresolved ..).1 (hresolved ..).2.1 (hresolved ..).2.2.1
        (hresolved ..).2.2.2
  | rereading p stakeAddr door broken =>
    rw [accountStep] at h
    split at h <;> cases h
    · exact .drop (by split_ifs <;> rfl) (by split_ifs <;> rfl) (by split_ifs <;> rfl)
    · exact .on
  | _ => cases h

theorem sessionStep_continues (h : sessionStep w l = some (w', l')) : ProofContinues w l w' l' := by
  have hwithout : ∀ p a modRole, (withoutGrant p a modRole).signatureHex = none ∧
      ((withoutGrant p a modRole).aim = none ∨ (withoutGrant p a modRole).aim = some .login) ∧
      ((withoutGrant p a modRole).proof = none ∨ (withoutGrant p a modRole).proof = some p ∧
        (withoutGrant p a modRole).identity = some (.stake a)) := by
    intro p a modRole
    rw [withoutGrant]
    split_ifs
    · exact ⟨rfl, .inl rfl, .inl rfl⟩
    · exact ⟨rfl, .inr rfl, .inr ⟨rfl, rfl⟩⟩
  cases l with
  | grantee p stakeAddr modRole =>
    rw [sessionStep] at h
    split at h <;> cases h
    · exact ⟨rfl, rfl, rfl, rfl, (hwithout ..).1, (hwithout ..).2.1, .inl ⟨rfl, (hwithout ..).2.2⟩⟩
    · exact .on
  | granteeGrant p stakeAddr modRole userId =>
    rw [sessionStep] at h
    split at h <;> cases h
    · exact .on
    · exact ⟨rfl, rfl, rfl, rfl, (hwithout ..).1, (hwithout ..).2.1, .inl ⟨rfl, (hwithout ..).2.2⟩⟩
  | grantOf p identity modRole user | delegatorGrant p stakeAddr user =>
    cases h
    exact .on
  | following p stakeAddr user =>
    rw [sessionStep] at h
    split at h <;> cases h
    · exact .drop
    · exact .on
  | followed p stakeAddr user =>
    rw [sessionStep] at h
    split at h
    · split at h <;> cases h
      · exact .drop
      · exact .on
    · cases h
      exact .on
  | minting p identity session =>
    cases h
    exact ⟨rfl, rfl, rfl, rfl, rfl, .inl rfl, .inr ⟨p, identity, some session, rfl, rfl, rfl, rfl⟩⟩
  | _ => cases h

theorem redeemStep_continues (h : redeemStep now w l = some (w', l')) :
    ProofContinues w l w' l' := by
  cases l with
  | selfInvite p user args =>
    cases h
    split_ifs
    · exact .drop
    · exact .on
  | claiming p user args =>
    rw [redeemStep] at h
    split at h
    · cases h
      exact .on
    · next db row _ =>
      cases h
      rcases row with _ | row
      · exact ⟨rfl, rfl, rfl, rfl, rfl, .inl rfl, .inl ⟨rfl, .inl rfl⟩⟩
      · exact .on
  | dropping p args =>
    cases h
    exact ⟨rfl, rfl, rfl, rfl, rfl, .inl rfl, .inl ⟨rfl, .inl rfl⟩⟩
  | _ => cases h

theorem linkStep_continues (h : linkStep w l = some (w', l')) : ProofContinues w l w' l' := by
  cases l with
  | linking p userId stakeAddr =>
    rw [linkStep] at h
    split at h <;> cases h
    · exact .on
    · exact ⟨rfl, rfl, rfl, rfl, rfl, .inl rfl, .inr ⟨p, .stake stakeAddr, none, rfl, rfl, rfl, rfl⟩⟩
    · exact .on
  | linkOwner p userId stakeAddr =>
    rw [linkStep] at h
    split at h
    · split at h <;> cases h <;> exact .drop
    · cases h
      exact .drop
  | linkSelf p userId stakeAddr =>
    rw [linkStep] at h
    split at h
    · cases h
      exact .drop
    · split at h <;> cases h
      · exact ⟨rfl, rfl, rfl, rfl, rfl, .inl rfl, .inr ⟨p, .stake stakeAddr, none, rfl, rfl, rfl, rfl⟩⟩
      · exact .drop
  | _ => cases h

theorem later_continues (now : ℕ)
    (h : (((accountStep now w l).or (sessionStep w l)).or (redeemStep now w l)).or (linkStep w l) =
      some (w', l')) : ProofContinues w l w' l' := by
  rcases Option.or_eq_some_iff.mp h with h | ⟨-, h⟩
  · rcases Option.or_eq_some_iff.mp h with h | ⟨-, h⟩
    · rcases Option.or_eq_some_iff.mp h with h | ⟨-, h⟩
      · exact accountStep_continues h
      · exact sessionStep_continues h
    · exact redeemStep_continues h
  · exact linkStep_continues h

/-! ### The invariant -/

variable (env)

/-- What holds of proofs in every run. -/
structure ProofsSafe (w : LoginWorld) : Prop where
  nonces : NoncesSafe w.nonces
  drawn : (w.nonces.issued.map (·.nonce)).Nodup
  issued : ∀ i ∈ w.nonces.issued, ∃ intent, (intent, i.payload) ∈ w.challenges ∧
    intent.domain = i.domain
  challenges : ∀ c ∈ w.challenges, ∃ i ∈ w.nonces.issued, i.payload = c.2 ∧ i.domain = c.1.domain
  right : ∀ s ∈ w.successes, ProofKnown env w s.proven ∧ IdentityOf env w s.proven.pubKey s.identity
  once : (w.successes.map fun s => s.proven.payload).Nodup

structure ProofAsserts (w : LoginWorld) (l : DoorProc) : Prop where
  unforged : ∀ hex ∈ l.signatureHex, Unforged env w hex
  known : ∀ p ∈ l.proof, ProofKnown env w p
  unused : ∀ p ∈ l.proof, ∀ s ∈ w.successes, s.proven.payload ≠ p.payload
  identity : ∀ p ∈ l.proof, ∀ identity ∈ l.identity, IdentityOf env w p.pubKey identity
  aimed : ∀ p ∈ l.proof, ∀ aim ∈ l.aim, aim = p.purpose.aim

/-- No two calls hold the same payload. -/
def ProofsApart (l m : DoorProc) : Prop :=
  ∀ p ∈ l.proof, ∀ q ∈ m.proof, p.payload ≠ q.payload

variable {env}

variable {m : DoorProc}

theorem ProofsApart.symm (h : ProofsApart l m) : ProofsApart m l :=
  fun p hp q hq => (h q hq p hp).symm

theorem ProofAsserts.of_none (hhex : l.signatureHex = none) (hproof : l.proof = none) :
    ProofAsserts env w l := by
  refine ⟨fun hex h => ?_, fun p h => ?_, fun p h => ?_, fun p h => ?_, fun p h => ?_⟩
  · cases hhex.symm.trans h
  all_goals cases hproof.symm.trans h

theorem ProofAsserts.mono (h : ProofAsserts env w l) (hgrow : RecordGrows w w')
    (hunused : ∀ p ∈ l.proof, ∀ s ∈ w'.successes, s ∈ w.successes ∨
      s.proven.payload ≠ p.payload) : ProofAsserts env w' l := by
  refine ⟨fun hex hhex => (h.unforged hex hhex).mono hgrow.signed,
    fun p hp => (h.known p hp).mono hgrow, fun p hp s hs => ?_,
    fun p hp identity hid => (h.identity p hp identity hid).mono hgrow, h.aimed⟩
  rcases hunused p hp s hs with hs | hne
  · exact h.unused p hp s hs
  · exact hne

theorem ProofContinues.grows (h : ProofContinues w l w' l') : RecordGrows w w' := by
  refine ⟨?_, ?_, fun a ha => h.answers ▸ ha⟩
  · rw [h.nonces]
    exact List.Subset.refl _
  · rw [h.signed]
    exact List.Subset.refl _

/-- **A later statement** keeps proofs safe. -/
theorem ProofsSafe.continue (hw : ProofsSafe env w) (hl : ProofAsserts env w l)
    (h : ProofContinues w l w' l') : ProofsSafe env w' := by
  have hgrow := h.grows
  refine ⟨h.nonces ▸ hw.nonces, h.nonces ▸ hw.drawn, ?_, ?_, fun s hs => ?_, ?_⟩
  · rw [h.nonces, h.challenges]
    exact hw.issued
  · rw [h.nonces, h.challenges]
    exact hw.challenges
  · have hold : s ∈ w.successes →
        ProofKnown env w' s.proven ∧ IdentityOf env w' s.proven.pubKey s.identity := fun hs =>
      ⟨(hw.right s hs).1.mono hgrow, (hw.right s hs).2.mono hgrow⟩
    rcases h.goes with ⟨hsame, -⟩ | ⟨p, identity, session, hp, hid, hadd, -⟩
    · exact hold (hsame ▸ hs)
    · rw [hadd] at hs
      rcases List.mem_append.mp hs with hs | hs
      · exact hold hs
      · obtain rfl := List.mem_singleton.mp hs
        exact ⟨(hl.known p hp).mono hgrow, (hl.identity p hp identity hid).mono hgrow⟩
  · rcases h.goes with ⟨hsame, -⟩ | ⟨p, identity, session, hp, -, hadd, -⟩
    · exact hsame ▸ hw.once
    · rw [hadd, List.map_append, List.nodup_append]
      refine ⟨hw.once, List.nodup_singleton _, fun a ha b hb heq => ?_⟩
      obtain ⟨s, hs, rfl⟩ := List.mem_map.mp ha
      obtain rfl := List.mem_singleton.mp hb
      exact hl.unused p hp s hs heq

theorem ProofAsserts.continue (hl : ProofAsserts env w l) (h : ProofContinues w l w' l') :
    ProofAsserts env w' l' := by
  rcases h.goes with ⟨hsame, hnone | ⟨hproof, hidentity⟩⟩ | ⟨-, -, -, -, -, -, hnone⟩
  · exact .of_none h.verified hnone
  · have hkept := hl.mono h.grows fun p _ s hs => .inl (hsame ▸ hs)
    refine ⟨fun hex hmem => absurd (h.verified.symm.trans hmem) (by simp), fun p hp => ?_,
      fun p hp => ?_, fun p hp identity hid => ?_, fun p hp aim haim => ?_⟩
    · exact hkept.known p (hproof ▸ hp)
    · exact hkept.unused p (hproof ▸ hp)
    · exact hkept.identity p (hproof ▸ hp) identity (hidentity ▸ hid)
    · rcases h.aim with hnone | hsame
      · cases hnone.symm.trans haim
      · exact hkept.aimed p (hproof ▸ hp) aim (hsame ▸ haim)
  · exact .of_none h.verified hnone

theorem ProofAsserts.other (hm : ProofAsserts env w m) (hapart : ProofsApart l m)
    (h : ProofContinues w l w' l') : ProofAsserts env w' m ∧ ProofsApart l' m := by
  refine ⟨hm.mono h.grows fun q hq s hs => ?_, fun p hp q hq => ?_⟩
  · rcases h.goes with ⟨hsame, -⟩ | ⟨p, identity, session, hp, -, hadd, -⟩
    · exact .inl (hsame ▸ hs)
    · rw [hadd] at hs
      refine (List.mem_append.mp hs).imp_right fun hs => ?_
      obtain rfl := List.mem_singleton.mp hs
      exact hapart p hp q hq
  · rcases h.goes with ⟨-, hnone | ⟨hproof, -⟩⟩ | ⟨-, -, -, -, -, -, hnone⟩
    · cases hnone.symm.trans hp
    · exact hapart p (hproof ▸ hp) q hq
    · cases hnone.symm.trans hp

/-! ### What other steps do -/

theorem loginFails_continues (h : loginFails l = some l') : ProofContinues w l w l' := by
  cases l with
  | creating | created | linking =>
    cases h
    exact .on
  | received | issued | refused | answered | unavailable => cases h
  | _ =>
    cases h
    exact .drop

theorem roleResolved_known {answer : RoleAnswer} (h : roleResolved env answer l = some l')
    (hl : ∀ p ∈ l.proof, ∀ identity ∈ l.identity, IdentityOf env w p.pubKey identity) :
    l'.signatureHex = none ∧ (l'.proof = none ∨ l'.proof = l.proof) ∧
      (l'.aim = none ∨ l'.aim = l.aim) ∧ ∀ p ∈ l'.proof, ∀ identity ∈ l'.identity,
        IdentityOf env { w with answers := w.answers ++ [answer] } p.pubKey identity := by
  have hrefused : ∀ status error, (DoorProc.refuse status error).signatureHex = none ∧
      ((DoorProc.refuse status error).proof = none ∨
        (DoorProc.refuse status error).proof = l.proof) ∧
      ((DoorProc.refuse status error).aim = none ∨
        (DoorProc.refuse status error).aim = l.aim) ∧
      ∀ p ∈ (DoorProc.refuse status error).proof,
        ∀ identity ∈ (DoorProc.refuse status error).identity,
          IdentityOf env { w with answers := w.answers ++ [answer] } p.pubKey identity :=
    fun _ _ => ⟨rfl, .inl rfl, .inl rfl, nofun⟩
  have hgrow : RecordGrows w { w with answers := w.answers ++ [answer] } :=
    ⟨List.Subset.refl _, List.Subset.refl _, fun _ => List.mem_append_left _⟩
  have hlast : answer ∈ w.answers ++ [answer] :=
    List.mem_append_right _ (List.mem_singleton_self _)
  rw [roleResolved.eq_def] at h
  split at h
  · next info script p drepId =>
    split at h <;> cases h
    · exact hrefused ..
    · exact hrefused ..
    · next hok =>
      refine ⟨rfl, .inr rfl, .inr rfl, ?_⟩
      rintro _ ⟨⟩ _ ⟨⟩
      exact .inr ⟨info, script, hlast, hok⟩
  · next info p drepId =>
    split_ifs at h <;> cases h
    · refine ⟨rfl, .inr rfl, .inr rfl, ?_⟩
      rintro _ ⟨⟩ _ ⟨⟩
      exact (hl p rfl _ rfl).mono hgrow
    · exact hrefused ..
  · next returnAddresses p stakeAddr =>
    split_ifs at h <;> cases h
    all_goals
      refine ⟨rfl, .inr rfl, .inr rfl, ?_⟩
      rintro _ ⟨⟩ _ ⟨⟩
      exact (hl p rfl _ rfl).mono hgrow
  · next row p =>
    split at h <;> cases h
    · exact hrefused ..
    · next poolId hpool =>
      refine ⟨rfl, .inr rfl, .inr rfl, ?_⟩
      rintro _ ⟨⟩ _ ⟨⟩
      exact ⟨row, hlast, hpool⟩
  · next members p =>
    split at h <;> cases h
    · exact hrefused ..
    · next ccCred hcc =>
      refine ⟨rfl, .inr rfl, .inr rfl, ?_⟩
      rintro _ ⟨⟩ _ ⟨⟩
      exact ⟨members, hlast, hcc⟩
  · cases h

variable {payload : Text}

theorem walletProof_hex {signatureHex keyHex : Text}
    (h : walletProof purpose payload signatureHex keyHex = some proof) :
    proof.signatureHex = signatureHex := by
  rw [walletProof] at h
  split_ifs at h
  rw [← Option.some.inj h]

theorem rawProof_hex {signatureHex keyHex : Text}
    (h : rawProof purpose payload signatureHex keyHex = some proof) :
    proof.signatureHex = signatureHex := by
  rw [rawProof] at h
  split_ifs at h
  rw [← Option.some.inj h]

theorem verifyProof_hex {body : VerifyBody} (h : verifyProof body = some proof) :
    body.signatureHex = some proof.signatureHex := by
  rw [verifyProof] at h
  split at h
  · next payload signatureHex role hpayload hsig hrole =>
    rw [hsig, Option.some.injEq]
    split_ifs at h
    split at h
    · exact (rawProof_hex h).symm
    · exact (rawProof_hex h).symm
    · exact (rawProof_hex h).symm
    · exact (walletProof_hex h).symm
    · exact (walletProof_hex h).symm
    · exact (walletProof_hex h).symm
    · cases h
  · cases h

theorem linkStakeProof_hex {userId : String} {body : LinkStakeBody}
    (h : linkStakeProof userId body = some proof) :
    body.signatureHex = some proof.signatureHex := by
  rw [linkStakeProof] at h
  split at h
  · next payload signatureHex keyHex hpayload hsig hkey =>
    rw [hsig, Option.some.injEq]
    split_ifs at h
    exact (walletProof_hex h).symm
  · cases h

theorem requestReceived_quiet (request : ProofRequest) :
    (requestReceived request).proof = none ∧ ∀ hex ∈ (requestReceived request).signatureHex,
      hex ∈ (DoorProc.received request).signatureHex := by
  cases request with
  | verify body =>
    rw [requestReceived]
    rcases hproof : verifyProof body with _ | proof
    · exact ⟨rfl, nofun⟩
    · refine ⟨rfl, ?_⟩
      rintro _ ⟨⟩
      exact verifyProof_hex hproof
  | linkStake userId body =>
    rw [requestReceived]
    rcases hproof : linkStakeProof userId body with _ | proof
    · exact ⟨rfl, nofun⟩
    · refine ⟨rfl, ?_⟩
      rintro _ ⟨⟩
      exact linkStakeProof_hex hproof
  | redeemGrant body =>
    rw [requestReceived, redeemReceived]
    split
    · next code payload signatureHex keyHex displayName _ _ hsig _ _ =>
      split_ifs
      · exact ⟨rfl, nofun⟩
      · rcases redeemName displayName with _ | name
        · exact ⟨rfl, nofun⟩
        · refine ⟨rfl, ?_⟩
          rintro _ ⟨⟩
          exact hsig
    · exact ⟨rfl, nofun⟩

/-- A call holds this proof or none, with a credential of its key, for what it has been given
for. -/
def Carries (env : LoginEnv) (w : LoginWorld) (p : Proven) (l : DoorProc) : Prop :=
  l.signatureHex = none ∧ (l.proof = none ∨ l.proof = some p) ∧
    (∀ identity ∈ l.identity, IdentityOf env w p.pubKey identity) ∧
      ∀ aim ∈ l.aim, aim = p.purpose.aim

theorem carries_refuse (status : ℕ) (error : String) : Carries env w p (.refuse status error) :=
  ⟨rfl, .inl rfl, nofun, nofun⟩

theorem checkRewardAddressHeader_ok {network : CardanoNetwork} {stakeAddr : String}
    (h : checkRewardAddressHeader env.toSignatureEnv address pubKey network = .ok stakeAddr) :
    stakeAddr = stakeAddressFromPubKey env.toSignatureEnv pubKey network := by
  rw [checkRewardAddressHeader.eq_def] at h
  split at h
  · cases h
  · dsimp only at h
    split_ifs at h
    exact (Except.ok.inj h).symm

theorem walletVerified_carries (hlogin : p.purpose.aim = .login) (role : LoginRole)
    (scriptDrepId : Option Text) (address : Bytes) :
    Carries env w p (walletVerified env p role scriptDrepId address) := by
  have haim : ∀ aim ∈ some Aim.login, aim = p.purpose.aim := by
    rintro _ ⟨⟩
    exact hlogin.symm
  rw [walletVerified.eq_def]
  split
  · exact carries_refuse ..
  split
  · split_ifs
    · exact ⟨rfl, .inr rfl, nofun, haim⟩
    · exact carries_refuse ..
  · dsimp only
    split_ifs
    · exact carries_refuse ..
    · exact carries_refuse ..
    · refine ⟨rfl, .inr rfl, ?_, haim⟩
      rintro _ ⟨⟩
      exact .inl rfl
  · split
    · exact carries_refuse ..
    · next stakeAddr hok =>
      split_ifs
      all_goals
        refine ⟨rfl, .inr rfl, ?_, haim⟩
        rintro _ ⟨⟩
        exact checkRewardAddressHeader_ok hok

theorem rawVerified_carries (hlogin : p.purpose.aim = .login) (role : LoginRole)
    (scriptDrepId : Option Text) :
    Carries env w p (rawVerified env p role scriptDrepId) := by
  have haim : ∀ aim ∈ some Aim.login, aim = p.purpose.aim := by
    rintro _ ⟨⟩
    exact hlogin.symm
  rw [rawVerified.eq_def]
  split
  · split_ifs
    · exact ⟨rfl, .inr rfl, nofun, haim⟩
    · exact carries_refuse ..
  · refine ⟨rfl, .inr rfl, ?_, haim⟩
    rintro _ ⟨⟩
    exact .inl rfl
  · exact ⟨rfl, .inr rfl, nofun, haim⟩
  · exact ⟨rfl, .inr rfl, nofun, haim⟩

/-- **Past the nonce**: what is held has been signed, and the credential is that of the key. -/
theorem nonceConsumed_known (hunforged : Unforged env w proof.signatureHex) :
    (nonceConsumed env proof).signatureHex = none ∧ (nonceConsumed env proof).proof = none ∨
      ∃ p, Carries env w p (nonceConsumed env proof) ∧
      p.payload = proof.payload ∧ p.purpose = proof.purpose ∧
      ∃ msg, SignedForm env.toSignatureEnv p.payload msg ∧ (p.pubKey, msg) ∈ w.signed := by
  rw [nonceConsumed]
  rcases hverify : verifySignature env proof with _ | ⟨pubKey, address⟩
  · exact .inl ⟨rfl, rfl⟩
  dsimp only
  refine .inr ⟨⟨proof.purpose, proof.payload, pubKey⟩, ?_, rfl, rfl,
    verifySignature_signed hverify hunforged⟩
  split
  · next hpurpose =>
    split
    · exact walletVerified_carries (congrArg Purpose.aim hpurpose) ..
    · exact rawVerified_carries (congrArg Purpose.aim hpurpose) ..
  all_goals
    next hpurpose =>
    split
    · exact carries_refuse ..
    · next stakeAddr hok =>
      refine ⟨rfl, .inr rfl, ?_, ?_⟩
      · rintro _ ⟨⟩
        exact checkRewardAddressHeader_ok hok
      · rintro _ ⟨⟩
        exact (congrArg Purpose.aim hpurpose).symm

/-! ### Nonces -/

/-- What a step of the nonces does: to all calls that hold proofs, nothing. -/
structure NonceMove (env : LoginEnv) (w w' : LoginWorld) : Prop where
  grows : RecordGrows w w'
  safe : ProofsSafe env w'
  successes : w'.successes = w.successes

theorem NonceMove.other (h : NonceMove env w w') (hm : ProofAsserts env w m) :
    ProofAsserts env w' m :=
  hm.mono h.grows fun _ _ _ hs => .inl (h.successes ▸ hs)

theorem issueStep_move {nonce : Text} (hw : ProofsSafe env w)
    (h : issueStep w nonce l = some (w', l')) : NonceMove env w w' ∧
      l'.signatureHex = none ∧ l'.proof = none := by
  cases l with
  | challenge intent =>
    rw [issueStep] at h
    split_ifs at h with hnonce
    dsimp only at h
    rw [Bool.and_eq_true, Bool.not_eq_true', List.contains_eq_mem, decide_eq_false_iff_not] at hnonce
    obtain ⟨hletters, hdrawn⟩ := hnonce
    rcases hbatch : issueNonceBatch w.nonces.table intent.domain nonce w.nonces.clock with _ | table
    · rw [hbatch] at h
      cases h
      exact ⟨⟨.refl w, hw, rfl⟩, rfl, rfl⟩
    · rw [hbatch] at h
      cases h
      have hgrow : RecordGrows w { w with
          nonces := { w.nonces with
            table := table
            issued := w.nonces.issued ++ [⟨intent.domain, nonce, w.nonces.clock⟩] }
          challenges := w.challenges ++
            [(intent, noncePayload intent.domain nonce w.nonces.clock)] } :=
        ⟨List.Subset.refl _, List.Subset.refl _, fun _ h => h⟩
      refine ⟨⟨hgrow, ⟨hw.nonces.issue hletters le_rfl hbatch, ?_, fun i hi => ?_, fun c hc => ?_,
        fun s hs => ⟨(hw.right s hs).1.mono hgrow, (hw.right s hs).2.mono hgrow⟩, hw.once⟩, rfl⟩,
        rfl, rfl⟩
      · rw [List.map_append, List.map_singleton]
        exact List.nodup_append.mpr ⟨hw.drawn, List.nodup_singleton _, fun a ha b hb heq =>
          hdrawn ((show a = nonce from heq.trans (List.mem_singleton.mp hb)) ▸ ha)⟩
      · rcases List.mem_append.mp hi with hi | hi
        · obtain ⟨c, hc, hdomain⟩ := hw.issued i hi
          exact ⟨c, List.mem_append_left _ hc, hdomain⟩
        · obtain rfl := List.mem_singleton.mp hi
          exact ⟨intent, List.mem_append_right _ (List.mem_singleton_self _), rfl⟩
      · rcases List.mem_append.mp hc with hc | hc
        · obtain ⟨i, hi, hsame⟩ := hw.challenges c hc
          exact ⟨i, List.mem_append_left _ hi, hsame⟩
        · obtain rfl := List.mem_singleton.mp hc
          exact ⟨_, List.mem_append_right _ (List.mem_singleton_self _), rfl, rfl⟩
  | _ => cases h

/-- **A nonce is consumed**: of a payload that nobody holds and that has led nowhere. -/
theorem consumeStep_move (hw : ProofsSafe env w) (hl : ProofAsserts env w (.consuming proof))
    (h : consumeStep env now w proof = (w', l')) :
    NonceMove env w w' ∧ ProofAsserts env w' l' ∧
      ∀ m, ProofAsserts env w m → ProofsApart l' m := by
  have hrefused : NonceMove env w w ∧
      ProofAsserts env w (.refuse 401 "invalid or expired nonce") ∧
      ∀ m, ProofAsserts env w m → ProofsApart (.refuse 401 "invalid or expired nonce") m :=
    ⟨⟨.refl w, hw, rfl⟩, .of_none rfl rfl, fun _ _ => nofun⟩
  rw [consumeStep] at h
  rcases hcheck : (ConsumeArgs.mk proof.payload proof.purpose.expectedDomain now none).check
    with _ | nonce
  · simp only [hcheck] at h
    cases h
    exact hrefused
  simp only [hcheck] at h
  have hsafe := hw.nonces.consume hcheck
  have hkept : ∀ consumed : List ConsumeArgs, w.nonces.consumed ⊆ consumed → ∀ table,
      NoncesSafe { w.nonces with table, consumed } →
        NonceMove env w { w with nonces := { w.nonces with table, consumed } } := by
    intro consumed hsub table hnonces
    have hgrow : RecordGrows w { w with nonces := { w.nonces with table, consumed } } :=
      ⟨hsub, List.Subset.refl _, fun _ h => h⟩
    exact ⟨hgrow, ⟨hnonces, hw.drawn, hw.issued, hw.challenges,
      fun s hs => ⟨(hw.right s hs).1.mono hgrow, (hw.right s hs).2.mono hgrow⟩, hw.once⟩, rfl⟩
  rcases hanswer : (deleteNonce w.nonces.table nonce proof.payload).2 with _ | _
  · simp only [hanswer, Bool.false_eq_true, if_false, Prod.mk.injEq] at h hsafe
    obtain ⟨rfl, rfl⟩ := h
    exact ⟨hkept _ (List.Subset.refl _) _ hsafe, .of_none rfl rfl, fun _ _ => nofun⟩
  simp only [hanswer, if_true, Prod.mk.injEq] at h hsafe
  obtain ⟨rfl, rfl⟩ := h
  have hmove := hkept _ (List.subset_append_left _ _) _ hsafe
  -- no payload is consumed twice
  have hnew : ∀ args ∈ w.nonces.consumed, args.payload ≠ proof.payload := by
    have hnodup := hsafe.payload_nodup hw.drawn
    rw [List.map_append, List.nodup_append] at hnodup
    exact fun args hargs => hnodup.2.2 _ (List.mem_map_of_mem hargs) _ (List.mem_singleton_self _)
  have hheld : ∀ {p}, ProofKnown env w p → p.payload ≠ proof.payload := by
    rintro p ⟨⟨args, hargs, hpayload, -⟩, -⟩
    exact hpayload ▸ hnew args hargs
  rcases nonceConsumed_known (hl.unforged _ rfl) with ⟨hhex, hnone⟩ |
    ⟨p, ⟨hhex, hproof, hidentity, haimed⟩, hpayload, hpurpose, hsigned⟩
  · exact ⟨hmove, .of_none hhex hnone, fun _ _ q hq => absurd (hnone.symm.trans hq) (by simp)⟩
  · have honly : ∀ q ∈ (nonceConsumed env proof).proof, q = p := by
      intro q hq
      rcases hproof with hproof | hproof
      · cases hproof.symm.trans hq
      · exact Option.some.inj (Eq.trans (Eq.symm hq) hproof)
    refine ⟨hmove, ⟨fun hex hmem => absurd (hhex.symm.trans hmem) (by simp), fun q hq => ?_,
      fun q hq s hs => ?_, fun q hq identity hid => ?_, fun q hq => ?_⟩, fun m hm q hq r hr => ?_⟩
    · obtain rfl := honly q hq
      exact ⟨⟨_, List.mem_append_right _ (List.mem_singleton_self _), hpayload.symm,
        congrArg Purpose.expectedDomain hpurpose.symm⟩, hsigned⟩
    · obtain rfl := honly q hq
      exact hpayload ▸ hheld (hw.right s hs).1
    · obtain rfl := honly q hq
      exact (hidentity identity hid).mono hmove.grows
    · obtain rfl := honly q hq
      exact haimed
    · obtain rfl := honly q hq
      exact hpayload ▸ (hheld (hm.known r hr)).symm

/-! ### What steps write -/

/-- A step writes a grant only to redeem it, and gives an account a stake address only if it is the
one proven: by a link of this account, or as the account's id. -/
structure Confined (w : LoginWorld) (l : DoorProc) (w' : LoginWorld) : Prop where
  grants : ∀ r, (r ∈ w'.grants.rows ↔ r ∈ w.grants.rows) ∨ l.aim = some (.redeem r.id)
  stakes : ∀ r' ∈ w'.users.rows, ∀ stakeAddr, r'.stakeAddr = some stakeAddr →
    HadStake w.users r' stakeAddr ∨ l.identity = some (.stake stakeAddr) ∧
      (l.aim = some (.link r'.id) ∨ r'.id = stakeAddr)

theorem confined_of_eq (hgrants : w'.grants = w.grants := by rfl)
    (husers : w'.users = w.users := by rfl) : Confined w l w' :=
  ⟨fun r => .inl (by rw [hgrants]), fun r' hr' stakeAddr hstake =>
    .inl ⟨r', husers ▸ hr', rfl, hstake⟩⟩

theorem accountStep_confined (h : accountStep now w l = some (w', l')) :
    Confined w l w' := by
  have hupsert : ∀ {identity : Identity} {roles signupRef id users},
      (identity.authArgs roles now signupRef).id = some id →
        upsertUser w.users (identity.authArgs roles now signupRef) id = some users →
          ∀ r' ∈ users.rows, ∀ stakeAddr, r'.stakeAddr = some stakeAddr →
            HadStake w.users r' stakeAddr ∨ identity = .stake stakeAddr ∧ r'.id = stakeAddr := by
    intro identity roles signupRef id users hid hupsert r' hr' stakeAddr hstake
    rw [Identity.authArgs_id] at hid
    obtain rfl := (Option.some.inj (Option.filter_eq_some_iff.mp hid).1).symm
    exact upsertUser_stakes hupsert hr' hstake
  cases l with
  | upserting p identity roles modRole =>
    rw [accountStep] at h
    split at h
    · cases h
      exact confined_of_eq
    · next id hid =>
      split at h <;> cases h
      · exact confined_of_eq
      · next users hsome =>
        refine ⟨fun _ => .inl .rfl, fun r' hr' stakeAddr hstake => ?_⟩
        refine (hupsert hid hsome r' hr' stakeAddr hstake).imp_right ?_
        rintro ⟨rfl, hid'⟩
        exact ⟨rfl, .inr hid'⟩
  | creating p stakeAddr door =>
    rw [accountStep] at h
    split at h
    · cases h
      exact confined_of_eq
    · next id hid =>
      split at h <;> cases h
      · exact confined_of_eq
      · next users hsome =>
        refine ⟨fun _ => .inl .rfl, fun r' hr' other hstake => ?_⟩
        refine (hupsert hid hsome r' hr' other hstake).imp_right ?_
        rintro ⟨hother, hid'⟩
        exact ⟨congrArg some hother, .inr hid'⟩
  | touching p stakeAddr door userId =>
    cases h
    exact ⟨fun _ => .inl .rfl, fun r' hr' other hstake => .inl (touchUser_stakes hr' hstake)⟩
  | upserted p identity modRole | resolving p stakeAddr door | touched p stakeAddr door userId
  | created p stakeAddr door | rereading p stakeAddr door broken =>
    rw [accountStep] at h
    split at h <;> cases h <;> exact confined_of_eq
  | _ => cases h

theorem sessionStep_confined (h : sessionStep w l = some (w', l')) : Confined w l w' := by
  refine confined_of_eq ?_ ?_ <;>
  · cases l with
    | grantee | granteeGrant | following =>
      rw [sessionStep] at h
      split at h <;> cases h <;> rfl
    | followed =>
      rw [sessionStep] at h
      split at h
      · split at h <;> cases h <;> rfl
      · cases h
        rfl
    | grantOf | delegatorGrant | minting =>
      cases h
      rfl
    | _ => cases h

theorem redeemStep_confined (h : redeemStep now w l = some (w', l')) :
    Confined w l w' := by
  cases l with
  | selfInvite p user args =>
    cases h
    exact confined_of_eq
  | claiming p user args =>
    rw [redeemStep] at h
    split at h
    · cases h
      exact confined_of_eq
    · next db row hbatch =>
      cases h
      refine ⟨fun r => ?_, fun r' hr' other hstake => .inl (fillName_stakes hr' hstake)⟩
      by_cases hid : r.id = args.grantId
      · exact .inr (hid ▸ rfl)
      · left
        rw [redeemBatch] at hbatch
        split at hbatch
        · next grants hcommit =>
          cases hbatch
          rw [GrantTable.rows_of_commit hcommit, Table.mem_updateWhere]
          have hclaims : claims args now r = false := by
            rw [← Bool.not_eq_true]
            exact fun hp => hid (of_claims hp).1
          refine ⟨?_, fun hr => .inl ⟨hr, hclaims⟩⟩
          rintro (⟨hr, -⟩ | ⟨r₀, -, hp, rfl⟩)
          · exact hr
          · exact absurd (of_claims hp).1 hid
        · cases hbatch
  | dropping p args =>
    cases h
    refine ⟨fun r => ?_, fun r' hr' other hstake => .inl ⟨r', hr', rfl, hstake⟩⟩
    by_cases hid : r.id = args.grantId
    · exact .inr (hid ▸ rfl)
    · refine .inl ⟨fun hr => (Table.mem_deleteWhere.mp hr).1, fun hr =>
        Table.mem_deleteWhere.mpr ⟨hr, ?_⟩⟩
      rw [Bool.and_eq_false_iff, beq_eq_false_iff_ne]
      exact .inl hid
  | _ => cases h

theorem linkStep_confined (h : linkStep w l = some (w', l')) : Confined w l w' := by
  have hlink : ∀ {userId stakeAddr users returned},
      linkStakeAddr w.users userId stakeAddr = some (users, returned) →
        ∀ r' ∈ users.rows, ∀ other, r'.stakeAddr = some other →
          HadStake w.users r' other ∨ some (Identity.stake stakeAddr) = some (.stake other) ∧
            (some (Aim.link userId) = some (.link r'.id) ∨ r'.id = other) := by
    intro userId stakeAddr users returned hlink r' hr' other hstake
    refine (linkStakeAddr_stakes hlink hr' hstake).imp_right ?_
    rintro ⟨rfl, rfl⟩
    exact ⟨rfl, .inl rfl⟩
  cases l with
  | linking p userId stakeAddr =>
    rw [linkStep] at h
    split at h <;> cases h
    · exact confined_of_eq
    · next users hsome => exact ⟨fun _ => .inl .rfl, hlink hsome⟩
    · next users hsome => exact ⟨fun _ => .inl .rfl, hlink hsome⟩
  | linkOwner p userId stakeAddr =>
    rw [linkStep] at h
    split at h
    · split at h <;> cases h <;> exact confined_of_eq
    · cases h
      exact confined_of_eq
  | linkSelf p userId stakeAddr =>
    rw [linkStep] at h
    split at h
    · cases h
      exact confined_of_eq
    · split at h <;> cases h <;> exact confined_of_eq
  | _ => cases h

theorem later_confined (now : ℕ)
    (h : (((accountStep now w l).or (sessionStep w l)).or (redeemStep now w l)).or (linkStep w l) =
      some (w', l')) : Confined w l w' := by
  rcases Option.or_eq_some_iff.mp h with h | ⟨-, h⟩
  · rcases Option.or_eq_some_iff.mp h with h | ⟨-, h⟩
    · rcases Option.or_eq_some_iff.mp h with h | ⟨-, h⟩
      · exact accountStep_confined h
      · exact sessionStep_confined h
    · exact redeemStep_confined h
  · exact linkStep_confined h

/-- **Every step** writes only that. -/
theorem doorStep_confined (h : doorStep env event w l = some (w', l')) : Confined w l w' := by
  cases event with
  | statement now =>
    cases l with
    | redeemChallenge code =>
      rw [doorStep, loginStatement] at h
      split at h
      · cases h
        exact confined_of_eq
      · split at h <;> cases h <;> exact confined_of_eq
    | received request =>
      cases h
      exact confined_of_eq
    | inviteOf code payload signatureHex keyHex displayName =>
      rw [doorStep, loginStatement] at h
      split at h <;> cases h <;> exact confined_of_eq
    | consuming proof =>
      have hstep : consumeStep env now w proof = (w', l') := Option.some.inj h
      rw [consumeStep] at hstep
      dsimp only at hstep
      split at hstep <;> cases hstep <;> exact confined_of_eq
    | _ => exact later_confined now h
  | nonce nonce =>
    cases l with
    | challenge intent =>
      rw [doorStep, issueStep] at h
      split_ifs at h
      dsimp only at h
      split at h <;> cases h <;> exact confined_of_eq
    | _ => cases h
  | koios answer | fails =>
    obtain ⟨l'', -, heq⟩ := Option.map_eq_some_iff.mp h
    cases heq
    exact confined_of_eq

theorem proof_of_aim {aim : Aim} (h : l.aim = some aim) : ∃ p, l.proof = some p := by
  cases l <;> first | exact ⟨_, rfl⟩ | cases h

theorem proof_of_identity {identity : Identity} (h : l.identity = some identity) :
    ∃ p, l.proof = some p := by
  cases l <;> first | exact ⟨_, rfl⟩ | cases h

/-! ### Runs -/

theorem doorStep_proofs (hw : ProofsSafe env w) (hl : ProofAsserts env w l)
    (h : doorStep env event w l = some (w', l')) :
    (ProofsSafe env w' ∧ ProofAsserts env w' l') ∧
      ∀ m, ProofAsserts env w m → ProofsApart l m → ProofAsserts env w' m ∧ ProofsApart l' m := by
  have hcontinues : ProofContinues w l w' l' → (ProofsSafe env w' ∧ ProofAsserts env w' l') ∧
      ∀ m, ProofAsserts env w m → ProofsApart l m →
        ProofAsserts env w' m ∧ ProofsApart l' m := fun h =>
    ⟨⟨hw.continue hl h, hl.continue h⟩, fun m hm hapart => hm.other hapart h⟩
  have hquiet : w' = w → l'.proof = none → (∀ hex ∈ l'.signatureHex, hex ∈ l.signatureHex) →
      (ProofsSafe env w' ∧ ProofAsserts env w' l') ∧ ∀ m, ProofAsserts env w m →
        ProofsApart l m → ProofAsserts env w' m ∧ ProofsApart l' m := by
    rintro rfl hnone hhex
    have habsurd : ∀ {P : Prop} {p}, p ∈ l'.proof → P := fun hp =>
      absurd (hnone.symm.trans hp) (by simp)
    exact ⟨⟨hw, fun hex hmem => hl.unforged hex (hhex hex hmem), fun _ => habsurd,
      fun _ => habsurd, fun _ => habsurd, fun _ => habsurd⟩, fun m hm _ => ⟨hm, fun _ => habsurd⟩⟩
  cases event with
  | statement now =>
    cases l with
    | redeemChallenge code =>
      rw [doorStep, loginStatement] at h
      split at h
      · cases h
        exact hquiet rfl rfl nofun
      · split at h <;> cases h <;> exact hquiet rfl rfl nofun
    | received request =>
      cases h
      exact hquiet rfl (requestReceived_quiet request).1 (requestReceived_quiet request).2
    | inviteOf code payload signatureHex keyHex displayName =>
      rw [doorStep, loginStatement] at h
      split at h <;> cases h
      · exact hquiet rfl rfl nofun
      · exact hquiet rfl rfl fun _ => id
    | consuming proof =>
      have hstep : consumeStep env now w proof = (w', l') := Option.some.inj h
      obtain ⟨hmove, hown, hapart⟩ := consumeStep_move hw hl hstep
      exact ⟨⟨hmove.safe, hown⟩, fun m hm _ => ⟨hmove.other hm, hapart m hm⟩⟩
    | _ => exact hcontinues (later_continues now h)
  | nonce nonce =>
    obtain ⟨hmove, hhex, hnone⟩ := issueStep_move hw h
    exact ⟨⟨hmove.safe, .of_none hhex hnone⟩, fun m hm _ => ⟨hmove.other hm, fun p hp =>
      absurd (hnone.symm.trans hp) (by simp)⟩⟩
  | koios answer =>
    obtain ⟨l'', hrole, heq⟩ := Option.map_eq_some_iff.mp h
    cases heq
    obtain ⟨hhex, hproof, haim, hidentity⟩ := roleResolved_known hrole hl.identity
    have hgrow : RecordGrows w { w with answers := w.answers ++ [answer] } :=
      ⟨List.Subset.refl _, List.Subset.refl _, fun _ => List.mem_append_left _⟩
    have hkept : ∀ m, ProofAsserts env w m →
        ProofAsserts env { w with answers := w.answers ++ [answer] } m :=
      fun m hm => hm.mono hgrow fun _ _ _ => .inl
    have hheld : ∀ p ∈ l'.proof, p ∈ l.proof := by
      intro p hp
      rcases hproof with hnone | hsame
      · cases hnone.symm.trans hp
      · exact hsame ▸ hp
    refine ⟨⟨⟨hw.nonces, hw.drawn, hw.issued, hw.challenges,
      fun s hs => ⟨(hw.right s hs).1.mono hgrow, (hw.right s hs).2.mono hgrow⟩, hw.once⟩,
      fun hex hmem => absurd (hhex.symm.trans hmem) (by simp),
      fun p hp => (hkept l hl).known p (hheld p hp),
      fun p hp => (hkept l hl).unused p (hheld p hp), hidentity, fun p hp aim hmem => ?_⟩,
      fun m hm hapart => ⟨hkept m hm, fun p hp => hapart p (hheld p hp)⟩⟩
    rcases haim with hnone | hsame
    · cases hnone.symm.trans hmem
    · exact hl.aimed p (hheld p hp) aim (hsame ▸ hmem)
  | fails =>
    obtain ⟨l'', hfails, heq⟩ := Option.map_eq_some_iff.mp h
    cases heq
    exact hcontinues (loginFails_continues hfails)

def proofsSound : (loginProgram env).Sound LoginWorld.Fresh where
  inv := ProofsSafe env
  asserts := ProofAsserts env
  apart := ProofsApart
  symm _ _ := ProofsApart.symm
  init w h := by
    obtain ⟨hnonces, hchallenges, hsuccesses⟩ := h
    have hissued : w.nonces.issued = [] := hnonces.2.2.1
    refine ⟨nonceSound.init _ hnonces, ?_, ?_, ?_, ?_, ?_⟩ <;>
      simp [hissued, hchallenges, hsuccesses]
  start w l _ h := by
    have hnone : l.proof = none := by cases h <;> rfl
    refine ⟨⟨fun hex hmem => ?_, fun p hp => ?_, fun p hp => ?_, fun p hp => ?_, fun p hp => ?_⟩,
      fun m _ p hp => absurd (hnone.symm.trans hp) (by simp)⟩
    · cases h with
      | request request hunforged => exact hunforged hex hmem
      | loginChallenge | linkChallenge | redeemChallenge => cases hmem
    all_goals cases hnone.symm.trans hp
  step w l w' l' hw hl h := by
    obtain ⟨event, h⟩ := h
    exact (doorStep_proofs hw hl h).1
  noninterference w l w' l' m hw hl hm hapart h := by
    obtain ⟨event, h⟩ := h
    exact (doorStep_proofs hw hl h).2 m hm hapart
  env w w' hw h := by
    obtain ⟨clock, signed, grants, hle, hmax, hsigned, rfl⟩ := h
    have hgrow : RecordGrows w
        { w with nonces := { w.nonces with clock }, signed, grants } :=
      ⟨List.Subset.refl _, hsigned, fun _ h => h⟩
    have hnonces := (nonceSound.env _ _ hw.nonces ⟨clock, hle, hmax, rfl⟩).1
    exact ⟨⟨hnonces, hw.drawn, hw.issued, hw.challenges,
      fun s hs => ⟨(hw.right s hs).1.mono hgrow, (hw.right s hs).2.mono hgrow⟩, hw.once⟩,
      fun m hm => hm.mono hgrow fun _ _ _ => .inl⟩

/-! ### What is bound to what -/

/-- Linking and redeeming want a payload that has been issued for just this. -/
def Purpose.BoundTo : Purpose → Intent → Prop
  | .login _ _ _, _ => True
  | .linkStake userId, intent => intent = .linkStake userId
  | .redeemGrant grantId _, intent => intent = .redeemGrant grantId

/-- A payload that a request has consumed has been issued, and only for what the request may
take. -/
theorem ProofsSafe.bound (hw : ProofsSafe env w) (hp : ProofKnown env w p) :
    (∃ intent, (intent, p.payload) ∈ w.challenges) ∧
      ∀ intent, (intent, p.payload) ∈ w.challenges → p.purpose.BoundTo intent := by
  obtain ⟨args, hargs, hpayload, hexpected⟩ := hp.consumed
  obtain ⟨i, hi, hentitled⟩ := hw.nonces.entitled args hargs
  have hsame : i.payload = p.payload := hentitled.payload.symm.trans hpayload
  refine ⟨?_, fun intent hintent => ?_⟩
  · obtain ⟨intent, hmem, -⟩ := hw.issued i hi
    exact ⟨intent, hsame ▸ hmem⟩
  · obtain ⟨j, hj, hjpayload, hjdomain⟩ := hw.challenges _ hintent
    obtain ⟨hdomain, -, -⟩ := noncePayload_inj (hw.nonces.issued i hi).1 (hw.nonces.issued j hj).1
      (hsame.trans hjpayload.symm)
    have hbound : ∀ d ∈ p.purpose.expectedDomain, intent.domain = d := fun d hd =>
      hjdomain.symm.trans (hdomain.symm.trans (hentitled.domain d (hexpected ▸ hd)).symm)
    rcases hpurpose : p.purpose with _ | userId | ⟨grantId, displayName⟩
    · exact trivial
    · exact Intent.domain_eq_link (hbound _ (hpurpose ▸ rfl))
    · exact Intent.domain_eq_redeem (hbound _ (hpurpose ▸ rfl))

variable {ι : Type*} [DecidableEq ι]

/-- The public key of the secret key `00 01 … 1f`. -/
def sampleKey : Bytes :=
  bigEndian 0x03a107bff3ce10be1d70dd18e74bc09967e4d6309ba50d5f1ddc8664125531b8 32

def sampleKeyHash : Bytes := bigEndian 0x27e38d0e19e3434e33fbd001d3fe04b5b76763f88acd625e0d770b43 28

/-- The reward address of the key, on the test network. -/
def sampleAddress : Bytes := 0xe0 :: sampleKeyHash

def sampleCoseKey : Bytes :=
  [0xa4, 0x01, 0x01, 0x03, 0x27, 0x20, 0x06, 0x21, 0x58, 32] ++ sampleKey

def sampleProtected : Bytes :=
  [0xa2, 0x01, 0x27, 0x67] ++ utf8Encode "address".toList ++ [0x58, 29] ++ sampleAddress

/-- A byte string of at least 24 bytes, or of fewer. -/
def sampleBstr (bytes : Bytes) : Bytes :=
  (if bytes.length < 24 then [0x40 + UInt8.ofNat bytes.length]
    else [0x58, UInt8.ofNat bytes.length]) ++ bytes

/-- What the wallet signs of a payload, or of a hash. -/
def sampleSigned (payload : Bytes) : Bytes :=
  [0x84, 0x6a] ++ utf8Encode "Signature1".toList ++ sampleBstr sampleProtected ++ sampleBstr [] ++
    sampleBstr payload

/-- The payload that links a stake key to the account `ada`. -/
def sampleLinkPayload : Text := noncePayload (linkStakeDomain "ada") ['n'] 0

def sampleLinkSig : Bytes :=
  bigEndian 0x36756e927d33e4c7d9dbfc5b578b6622a4d664bf02b2dc74911f664d398c498d 32 ++
    bigEndian 0x07f63138c4f20e3ad8f56b4af21ef0f7081da192ff7c3385794bbaa47e350b02 32

def sampleLinkCose : Bytes :=
  0x84 :: sampleBstr sampleProtected ++ [0xa0] ++ sampleBstr (utf8Encode sampleLinkPayload) ++
    sampleBstr sampleLinkSig

def sampleLoginPayload : Text := noncePayload ['x', '.', 'i', 'o'] ['n'] 0

def sampleLoginHash : Bytes :=
  bigEndian 0x2a5f4d33bcf25225be50d8660df961503723bab9b6b36864f1339b8dd1d0d6af 32

def sampleLoginSig : Bytes :=
  bigEndian 0x97b76d3742d45ff2d7d461087bd42c04f043490e044efdadc0fde8bad55ba72d 32 ++
    bigEndian 0x0dc3863e0d313f9b0b02148ebbf5b8848909183e32c2cbe276eb96aa596fb303 32

def sampleLoginCose : Bytes :=
  0x84 :: sampleBstr sampleProtected ++ [0xa1, 0x66] ++ utf8Encode "hashed".toList ++ [0xf5] ++
    sampleBstr sampleLoginHash ++ sampleBstr sampleLoginSig

def sampleLoginEnv : LoginEnv where
  decode bytes :=
    if bytes = sampleCoseKey then
      some (.map [(.int 1, .int 1), (.int 3, .int (-8)), (.int (-1), .int 6),
        (.int (-2), .bytes sampleKey)])
    else if bytes = sampleProtected then
      some (.map [(.int 1, .int (-8)), (.text "address", .bytes sampleAddress)])
    else if bytes = sampleLinkCose then
      some (.array [.bytes sampleProtected, .map [], .bytes (utf8Encode sampleLinkPayload),
        .bytes sampleLinkSig])
    else if bytes = sampleLoginCose then
      some (.array [.bytes sampleProtected, .map [(.text "hashed", .bool true)],
        .bytes sampleLoginHash, .bytes sampleLoginSig])
    else none
  encode
    | .array [_, .bytes _, _, .bytes payload] => sampleSigned payload
    | _ => []
  blake2b224 bytes :=
    if bytes = sampleKey then sampleKeyHash
    else if bytes = utf8Encode sampleLoginPayload then
      bigEndian 0x434d35ca878db075c21e87c7b58bf559bdb0ab1419ef295b4f897ba0 28
    else []
  blake2b256 bytes := if bytes = utf8Encode sampleLoginPayload then sampleLoginHash else []
  verifyEd25519 sig msg pubKey := pubKey == sampleKey &&
    (sig == sampleLinkSig && msg == sampleSigned (utf8Encode sampleLinkPayload) ||
      sig == sampleLoginSig && msg == sampleSigned sampleLoginHash)
  encodeBech32 name bytes :=
    if name = "stake_test" ∧ bytes = sampleAddress then
      "stake_test1uqn78rgwr835xn3nl0gqr5l7qj6mwemrlz9v6cj7p4mskscu92y5a"
    else ""
  decodeBech32 _ := none
  network := .preprod
  sha256Hex := id
  getModeratorRole _ := none

def sampleDoors : LoginWorld where
  nonces := ⟨.empty, 0, [], []⟩
  users := .empty
  follows := .empty
  grants := ⟨[], List.nodup_nil, List.nodup_nil, List.nodup_nil⟩
  signed := []
  challenges := []
  answers := []
  successes := []

def sampleChallenged (intent : Intent) : Interleaved LoginWorld DoorProc ℕ :=
  ⟨sampleDoors, Function.update (fun _ => none) 0 (some (.challenge intent))⟩

/-- ... and once its payload has been signed and sent, by a delegator who logs in. -/
def sampleSent (s : Interleaved LoginWorld DoorProc ℕ) (signed : Bytes) (payload : Text)
    (cose : Bytes) : Interleaved LoginWorld DoorProc ℕ :=
  ⟨{ s.shared with signed := [(sampleKey, signed)] }, Function.update s.procs 1
    (some (.received (.verify ⟨some payload, some (bytesToHex cose),
      some (bytesToHex sampleCoseKey), none, some "delegator", none, none⟩)))⟩

def sampleIssue : List (ℕ × LoginEvent) := [(0, .nonce ['n'])]

/-- The steps of a delegator's login who has no account. -/
def sampleLoginSteps : List (ℕ × LoginEvent) := List.replicate 9 (1, .statement 0)

theorem sample_unforged {w : LoginWorld} {bytes : Bytes} (sig : Bytes)
    (hraw : ∀ raw ∈ hexToBytes (bytesToHex bytes), raw ≠ sampleLinkSig ∧ raw ≠ sampleLoginSig)
    (hcose : (decodeCoseSign1 sampleLoginEnv.toSignatureEnv (bytesToHex bytes)).map (·.sigBstr) =
      some sig)
    (hsig : ∀ msg, (sig == sampleLinkSig && msg == sampleSigned (utf8Encode sampleLinkPayload) ||
      sig == sampleLoginSig && msg == sampleSigned sampleLoginHash) = true → msg = signed)
    (hw : w.signed = [(sampleKey, signed)]) : Unforged sampleLoginEnv w (bytesToHex bytes) := by
  rintro found (hfound | ⟨cose, hdecode, rfl⟩) msg pubKey hverify
  all_goals
    simp only [sampleLoginEnv, Bool.and_eq_true, beq_iff_eq] at hverify
    obtain ⟨rfl, hverify⟩ := hverify
  · obtain ⟨hlink, hlogin⟩ := hraw found hfound
    simp [hlink, hlogin] at hverify
  · rw [hdecode, Option.map_some, Option.some.injEq] at hcose
    rw [hcose] at hverify
    rw [hw, hsig msg hverify]
    exact List.mem_singleton_self _

theorem doorStep_moves (event : LoginEvent) (w : LoginWorld) (l : DoorProc) (w' : LoginWorld)
    (l' : DoorProc) (h : doorStep env event w l = some (w', l')) :
    (loginProgram env).Step w l w' l' :=
  ⟨event, h⟩

theorem sample_reachable {intent : Intent} {cose : Bytes} {payload : Text}
    (hstart : LoginStart sampleLoginEnv sampleDoors (.challenge intent))
    (hissue : (Program.run (doorStep sampleLoginEnv) sampleIssue (sampleChallenged intent)).isSome)
    (hfirst : (Option.get _ hissue).procs 1 = none)
    (hempty : (Option.get _ hissue).shared.signed = [])
    (hunforged : ∀ w : LoginWorld, w.signed = [(sampleKey, signed)] →
      Unforged sampleLoginEnv w (bytesToHex cose))
    (hlogin : (Program.run (doorStep sampleLoginEnv) sampleLoginSteps
      (sampleSent (Option.get _ hissue) signed payload cose)).isSome) :
    ((loginProgram sampleLoginEnv).system ℕ LoginWorld.Fresh).Reachable (Option.get _ hlogin) := by
  have h₀ : ((loginProgram sampleLoginEnv).system ℕ LoginWorld.Fresh).Reachable
      ⟨sampleDoors, fun _ => none⟩ :=
    .init ⟨⟨⟨rfl, Nat.zero_le _, rfl, rfl⟩, rfl, rfl⟩, fun _ => rfl⟩
  have h₁ : ((loginProgram sampleLoginEnv).system ℕ LoginWorld.Fresh).Reachable
      (sampleChallenged intent) := h₀.step (.start (i := 0) rfl hstart)
  have h₂ := Program.reachable_run doorStep_moves h₁ sampleIssue hissue
  have henv : (loginProgram sampleLoginEnv).Env (Option.get _ hissue).shared
      { (Option.get _ hissue).shared with signed := [(sampleKey, signed)] } :=
    ⟨_, _, _, le_rfl, (proofsSound.holds h₂).inv.nonces.clock, hempty ▸ List.nil_subset _, rfl⟩
  have h₃ := (Program.reachable_env (Program.reachable_none h₂) trivial henv).of_restrict
  have h₄ := h₃.step (.start (i := 1) hfirst (LoginStart.request (.verify ⟨some payload,
    some (bytesToHex cose), some (bytesToHex sampleCoseKey), none, some "delegator", none, none⟩)
    (by
      rintro _ ⟨⟩
      exact hunforged _ rfl)))
  exact Program.reachable_run doorStep_moves h₄ sampleLoginSteps hlogin

/-- The payload of a link, sent to log in: once it is issued, ... -/
def sampleLinkIssued : Interleaved LoginWorld DoorProc ℕ :=
  (Program.run (doorStep sampleLoginEnv) sampleIssue
    (sampleChallenged (.linkStake "ada"))).get (by decide +kernel)

def sampleLinkAccepted : Interleaved LoginWorld DoorProc ℕ :=
  (Program.run (doorStep sampleLoginEnv) sampleLoginSteps (sampleSent sampleLinkIssued
    (sampleSigned (utf8Encode sampleLinkPayload)) sampleLinkPayload sampleLinkCose)).get
      (by decide +kernel)

theorem sampleLinkAccepted_reachable :
    ((loginProgram sampleLoginEnv).system ℕ LoginWorld.Fresh).Reachable sampleLinkAccepted := by
  refine sample_reachable (.linkChallenge "ada") (by decide +kernel) (by decide +kernel)
    (by decide +kernel) (fun w hw => ?_) (by decide +kernel)
  refine sample_unforged sampleLinkSig (by decide +kernel) (by decide +kernel)
    (fun msg h => ?_) hw
  have hne : (sampleLinkSig == sampleLoginSig) = false := by decide +kernel
  simpa [hne] using h

/-- A login with a payload that is hashed, once it is issued, ... -/
def sampleLoginIssued : Interleaved LoginWorld DoorProc ℕ :=
  (Program.run (doorStep sampleLoginEnv) sampleIssue
    (sampleChallenged (.login ['x', '.', 'i', 'o']))).get (by decide +kernel)

def sampleLoginAccepted : Interleaved LoginWorld DoorProc ℕ :=
  (Program.run (doorStep sampleLoginEnv) sampleLoginSteps (sampleSent sampleLoginIssued
    (sampleSigned sampleLoginHash) sampleLoginPayload sampleLoginCose)).get (by decide +kernel)

theorem sampleLoginAccepted_reachable :
    ((loginProgram sampleLoginEnv).system ℕ LoginWorld.Fresh).Reachable sampleLoginAccepted := by
  refine sample_reachable (.loginChallenge ['x', '.', 'i', 'o']) (by decide +kernel)
    (by decide +kernel) (by decide +kernel) (fun w hw => ?_) (by decide +kernel)
  refine sample_unforged sampleLoginSig (by decide +kernel) (by decide +kernel)
    (fun msg h => ?_) hw
  have hne : (sampleLoginSig == sampleLinkSig) = false := by decide +kernel
  simpa [hne] using h

end DrepTalk
