import DrepTalk.Text.JsText
import Mathlib.Algebra.Order.Ring.Int

/-!
# Wallet signatures

`src/lib/auth/cose.ts`, with what `src/lib/cardano/identity.ts` derives from a verified key. A
wallet signs a COSE structure, whose protected header names an address; cardano-signer signs the
plain text.

The encodings and the hash and signature functions of the packages are parameters (`SignatureEnv`).
The reasons a verification gives go to the log only, and are left out: it answers with what it has
found out, or not at all.
-/

namespace DrepTalk

abbrev Bytes := List UInt8

/-- The keys of a decoded map that anything here looks up. -/
inductive CborKey
  | int (n : ℤ)
  | text (s : String)
  deriving DecidableEq

/-- A value as `cborg` decodes it, with maps. -/
inductive Cbor
  | bytes (b : Bytes)
  | array (items : List Cbor)
  | map (entries : List (CborKey × Cbor))
  | int (n : ℤ)
  | text (s : String)
  | bool (b : Bool)
  | null
  | other

structure SignatureEnv where
  decode : Bytes → Option Cbor
  encode : Cbor → Bytes
  blake2b224 : Bytes → Bytes
  blake2b256 : Bytes → Bytes
  verifyEd25519 : (sig msg pubKey : Bytes) → Bool
  encodeBech32 : String → Bytes → String
  decodeBech32 : String → Option Bytes

inductive CardanoNetwork
  | mainnet
  | preprod
  deriving DecidableEq

/-! ### Hex and text -/

/-- `new TextEncoder().encode(text)`. -/
def utf8Encode (text : Text) : Bytes := text.flatMap String.utf8EncodeChar

/-- `text.length`, in UTF-16 code units. -/
def utf16Length (text : Text) : ℕ :=
  (text.map fun c => if c.toNat < 0x10000 then 1 else 2).sum

/-- The value of a hex digit, upper or lower case. -/
def hexDigit (c : Char) : Option ℕ :=
  let n := c.toNat
  if 0x30 ≤ n ∧ n ≤ 0x39 then some (n - 0x30)
  else if 0x61 ≤ n ∧ n ≤ 0x66 then some (n - 0x61 + 10)
  else if 0x41 ≤ n ∧ n ≤ 0x46 then some (n - 0x41 + 10)
  else none

/-- `hexToBytes`; where it throws, nothing. -/
def hexToBytes : Text → Option Bytes
  | [] => some []
  | [_] => none
  | a :: b :: rest =>
    match hexDigit a, hexDigit b, hexToBytes rest with
    | some high, some low, some bytes => some (UInt8.ofNat (16 * high + low) :: bytes)
    | _, _, _ => none

def bytesToHex (bytes : Bytes) : Text :=
  bytes.flatMap fun b => [Nat.digitChar (b.toNat / 16), Nat.digitChar (b.toNat % 16)]

theorem hexDigit_digitChar {n : ℕ} (h : n < 16) : hexDigit (Nat.digitChar n) = some n := by
  revert n
  decide

theorem hexToBytes_bytesToHex (bytes : Bytes) : hexToBytes (bytesToHex bytes) = some bytes := by
  induction bytes with
  | nil => rfl
  | cons b rest ih =>
    have hb : b.toNat < 256 := b.toNat_lt
    have hhex : bytesToHex (b :: rest) =
        Nat.digitChar (b.toNat / 16) :: Nat.digitChar (b.toNat % 16) :: bytesToHex rest := rfl
    rw [hhex, hexToBytes, hexDigit_digitChar (by omega), hexDigit_digitChar (by omega), ih]
    dsimp only
    rw [Nat.div_add_mod, UInt8.ofNat_toNat]

theorem bytesToHex_injective : Function.Injective bytesToHex := fun a b h =>
  Option.some.inj ((hexToBytes_bytesToHex a).symm.trans (h ▸ hexToBytes_bytesToHex b))

def isHex (s : Text) (maxLen : ℕ) : Bool :=
  decide (s.length ≤ maxLen) && decide (s.length % 2 = 0) && s.all fun c => (hexDigit c).isSome

def isHexExact (s : Text) (exactLen : ℕ) : Bool :=
  decide (s.length = exactLen) && s.all fun c => (hexDigit c).isSome

/-! ### COSE signatures -/

def ALG_EDDSA : ℤ := -8

def KTY_OKP : ℤ := 1

def CRV_ED25519 : ℤ := 6

/-- Whether the header says that the payload has been hashed. -/
def hashedFlag : Cbor → Bool
  | .map entries =>
    match entries.lookup (.text "hashed") with
    | some (.bool hashed) => hashed
    | _ => false
  | _ => false

/-- The parts of a COSE_Sign1 structure that are as they must be. -/
structure CoseSign1 where
  protectedBstr : Bytes
  unprotectedHeader : Cbor
  payloadBstr : Bytes
  sigBstr : Bytes
  addressBytes : Bytes

/-- The address in a protected header that names the right algorithm. -/
def protectedAddress : Cbor → Option Bytes
  | .map header =>
    match header.lookup (.int 1), header.lookup (.text "address") with
    | some (.int alg), some (.bytes address) => if alg = ALG_EDDSA then some address else none
    | _, _ => none
  | _ => none

/-- Decodes a signature and its protected header. -/
def decodeCoseSign1 (env : SignatureEnv) (signatureHex : Text) : Option CoseSign1 :=
  match hexToBytes signatureHex with
  | none | some [] => none
  | some sigBytes =>
    match env.decode sigBytes with
    | some (.array [.bytes protectedBstr, unprotectedHeader, .bytes payloadBstr,
        .bytes sigBstr]) =>
      ((env.decode protectedBstr).bind protectedAddress).map fun addressBytes =>
        ⟨protectedBstr, unprotectedHeader, payloadBstr, sigBstr, addressBytes⟩
    | _ => none

/-- The payload is the expected one, or a hash of it where hashes are allowed. -/
def payloadMatches (env : SignatureEnv) (cose : CoseSign1) (expected : Bytes)
    (allowHashed : Bool) : Bool :=
  if hashedFlag cose.unprotectedHeader then
    allowHashed && (cose.payloadBstr == env.blake2b224 expected ||
      cose.payloadBstr == env.blake2b256 expected)
  else cose.payloadBstr == expected

def toBeSigned (env : SignatureEnv) (protectedBstr payloadBstr : Bytes) : Bytes :=
  env.encode (.array [.text "Signature1", .bytes protectedBstr, .bytes [], .bytes payloadBstr])

/-- `verifyCoseSign1`: the address of a structure whose signature and payload are right. -/
def verifyCoseSign1 (env : SignatureEnv) (signatureHex : Text) (publicKey expected : Bytes)
    (allowHashed : Bool) : Option Bytes :=
  if publicKey.length ≠ 32 then none
  else
    match decodeCoseSign1 env signatureHex with
    | none => none
    | some cose =>
      if !payloadMatches env cose expected allowHashed then none
      else if env.verifyEd25519 cose.sigBstr (toBeSigned env cose.protectedBstr cose.payloadBstr)
          publicKey then some cose.addressBytes
      else none

def decodeCoseKeyPubKey (env : SignatureEnv) (keyHex : Text) : Option Bytes :=
  match (hexToBytes keyHex).bind env.decode with
  | some (.map coseKey) =>
    match coseKey.lookup (.int 1), coseKey.lookup (.int 3), coseKey.lookup (.int (-1)),
        coseKey.lookup (.int (-2)) with
    | some (.int kty), some (.int alg), some (.int crv), some (.bytes pubKey) =>
      if kty = KTY_OKP ∧ alg = ALG_EDDSA ∧ crv = CRV_ED25519 ∧ pubKey.length = 32 then some pubKey
      else none
    | _, _, _, _ => none
  | _ => none

def keyHashMatchesAddress (env : SignatureEnv) (pubKey address : Bytes) : Bool :=
  let keyHash := env.blake2b224 pubKey
  let payment := (address.drop 1).take 28
  let stake := (address.drop 29).take 28
  if address.length = 28 then keyHash == address
  else if address.length = 29 then keyHash == payment
  else if address.length = 57 then
    match (address.headD 0).toNat / 16 with
    | 0 => keyHash == payment || keyHash == stake
    | 1 => keyHash == stake
    | 2 => keyHash == payment
    | _ => false
  else false

/-- `verifyCip8`: the key and the address of a wallet's signature. -/
def verifyCip8 (env : SignatureEnv) (signatureHex keyHex expectedPayload : Text) :
    Option (Bytes × Bytes) :=
  match decodeCoseKeyPubKey env keyHex with
  | none => none
  | some pubKey =>
    match verifyCoseSign1 env signatureHex pubKey (utf8Encode expectedPayload) true with
    | none => none
    | some address => if keyHashMatchesAddress env pubKey address then some (pubKey, address) else none

/-! ### Identities -/

def REWARD_ADDR_PREPROD : UInt8 := 0xe0

def REWARD_ADDR_MAINNET : UInt8 := 0xe1

def ENTERPRISE_ADDR_PREPROD : UInt8 := 0x60

def ENTERPRISE_ADDR_MAINNET : UInt8 := 0x61

def DREP_KEY_HEADER : UInt8 := 0x22

def DREP_SCRIPT_HEADER : UInt8 := 0x23

def WALLET_NETWORK_MISMATCH : String := "wallet network mismatch"

def stakeAddressFromPubKey (env : SignatureEnv) (pubKey : Bytes) (network : CardanoNetwork) :
    String :=
  match network with
  | .mainnet => env.encodeBech32 "stake" (REWARD_ADDR_MAINNET :: env.blake2b224 pubKey)
  | .preprod => env.encodeBech32 "stake_test" (REWARD_ADDR_PREPROD :: env.blake2b224 pubKey)

def drepIdFromPubKey (env : SignatureEnv) (pubKey : Bytes) : String :=
  env.encodeBech32 "drep" (DREP_KEY_HEADER :: env.blake2b224 pubKey)

def ccHotKeyHashHex (env : SignatureEnv) (pubKey : Bytes) : Text := bytesToHex (env.blake2b224 pubKey)

/-- `checkRewardAddressHeader`: the stake address, or what is wrong. -/
def checkRewardAddressHeader (env : SignatureEnv) (address pubKey : Bytes)
    (network : CardanoNetwork) : Except String String :=
  match address with
  | [] => .error "invalid address in signature"
  | header :: _ =>
    let (expectedHeader, otherHeader) := match network with
      | .mainnet => (REWARD_ADDR_MAINNET, REWARD_ADDR_PREPROD)
      | .preprod => (REWARD_ADDR_PREPROD, REWARD_ADDR_MAINNET)
    if header = otherHeader then .error WALLET_NETWORK_MISMATCH
    else if header ≠ expectedHeader then .error "address type mismatch for role"
    else .ok (stakeAddressFromPubKey env pubKey network)

def isDrepCredentialAddress (address : Bytes) : Bool :=
  address.length == 28 || (address.length == 29 && (address.headD 0).toNat / 16 == 0b0110)

/-- The hash of a script credential that `parseDrepId` finds in an id. -/
def parseScriptDrepId (env : SignatureEnv) (drepId : String) : Option Text :=
  match env.decodeBech32 drepId with
  | some (header :: hash) =>
    if hash.length = 28 ∧ header = DREP_SCRIPT_HEADER then some (bytesToHex hash) else none
  | _ => none

/-! ### Native scripts -/

/-- `NativeScript`. A slot or a number of keys that is not a whole number counts as a negative one:
neither can be encoded. -/
inductive NativeScript
  | sig (keyHash : Text)
  | all (scripts : List NativeScript)
  | any (scripts : List NativeScript)
  | atLeast (required : ℤ) (scripts : List NativeScript)
  | before (slot : ℤ)
  | after (slot : ℤ)

mutual

/-- `collectSigKeyHashes`, in order. -/
def collectSigKeyHashes : NativeScript → List Text
  | .sig keyHash => [keyHash.map Char.toLower]
  | .all scripts | .any scripts | .atLeast _ scripts => collectAllKeyHashes scripts
  | .before _ | .after _ => []

def collectAllKeyHashes : List NativeScript → List Text
  | [] => []
  | script :: scripts => collectSigKeyHashes script ++ collectAllKeyHashes scripts

end

/-- The last bytes of a number, the highest first. -/
def bigEndian (value : ℕ) : ℕ → Bytes
  | 0 => []
  | n + 1 => UInt8.ofNat (value / 256 ^ n) :: bigEndian value n

/-- `head`. -/
def cborHead (major value : ℕ) : Bytes :=
  let m := major * 32
  if value < 24 then [UInt8.ofNat (m + value)]
  else if value < 0x100 then UInt8.ofNat (m + 24) :: bigEndian value 1
  else if value < 0x10000 then UInt8.ofNat (m + 25) :: bigEndian value 2
  else if value < 0x100000000 then UInt8.ofNat (m + 26) :: bigEndian value 4
  else UInt8.ofNat (m + 27) :: bigEndian value 8

/-- `uint`; it throws for what is no natural number. -/
def cborUint : ℤ → Option Bytes
  | .ofNat n => some (cborHead 0 n)
  | .negSucc _ => none

/-- `arr`, of items one of which may have thrown. -/
def cborArr (items : List (Option Bytes)) : Option Bytes :=
  (items.mapM id).map fun items => cborHead 4 items.length ++ items.flatten

mutual

/-- `encode`. -/
def encodeNativeScript : NativeScript → Option Bytes
  | .sig keyHash => cborArr [cborUint 0, (hexToBytes keyHash).map fun b => cborHead 2 b.length ++ b]
  | .all scripts => cborArr [cborUint 1, cborArr (encodeNativeScripts scripts)]
  | .any scripts => cborArr [cborUint 2, cborArr (encodeNativeScripts scripts)]
  | .atLeast required scripts =>
    cborArr [cborUint 3, cborUint required, cborArr (encodeNativeScripts scripts)]
  | .after slot => cborArr [cborUint 4, cborUint slot]
  | .before slot => cborArr [cborUint 5, cborUint slot]

def encodeNativeScripts : List NativeScript → List (Option Bytes)
  | [] => []
  | script :: scripts => encodeNativeScript script :: encodeNativeScripts scripts

end

def nativeScriptHash (env : SignatureEnv) (script : NativeScript) : Option Text :=
  (encodeNativeScript script).map fun bytes => bytesToHex (env.blake2b224 (0 :: bytes))

/-! ### What a signature has been made over -/

/-- The bytes that a signature over the payload is made of: the text itself, or a COSE structure
around it or around a hash of it. -/
def SignedForm (env : SignatureEnv) (payload : Text) (msg : Bytes) : Prop :=
  msg = utf8Encode payload ∨ ∃ protectedBstr signed, msg = toBeSigned env protectedBstr signed ∧
    (signed = utf8Encode payload ∨ signed = env.blake2b224 (utf8Encode payload) ∨
      signed = env.blake2b256 (utf8Encode payload))

/-- **A wallet's signature** that passes is one of the key over the payload. -/
theorem verifyCip8_signed {env : SignatureEnv} {signatureHex keyHex payload : Text}
    {pubKey address : Bytes}
    (h : verifyCip8 env signatureHex keyHex payload = some (pubKey, address)) :
    ∃ cose msg, decodeCoseSign1 env signatureHex = some cose ∧ SignedForm env payload msg ∧
      env.verifyEd25519 cose.sigBstr msg pubKey = true := by
  rw [verifyCip8] at h
  rcases hkey : decodeCoseKeyPubKey env keyHex with _ | key
  · rw [hkey] at h
    cases h
  rw [hkey] at h
  dsimp only at h
  rcases hverify : verifyCoseSign1 env signatureHex key (utf8Encode payload) true with _ | addr
  · rw [hverify] at h
    cases h
  rw [hverify] at h
  dsimp only at h
  split_ifs at h
  cases h
  rw [verifyCoseSign1] at hverify
  split_ifs at hverify
  rcases hdecode : decodeCoseSign1 env signatureHex with _ | cose
  · rw [hdecode] at hverify
    cases hverify
  rw [hdecode] at hverify
  dsimp only at hverify
  split_ifs at hverify with hpayload hsig
  refine ⟨cose, _, rfl, .inr ⟨cose.protectedBstr, cose.payloadBstr, rfl, ?_⟩, hsig⟩
  rw [payloadMatches] at hpayload
  split_ifs at hpayload
  · simp only [Bool.not_eq_true', Bool.not_eq_false, Bool.true_and, Bool.or_eq_true,
      beq_iff_eq] at hpayload
    exact .inr hpayload
  · exact .inl (by simpa using hpayload)

end DrepTalk
