import DrepTalk.Auth.Signatures
import DrepTalk.Cardano.NativeScript
import DrepTalk.Library.CborItem
import Mathlib.Tactic.IntervalCases

/-!
# The encoding of native scripts

The second half of `src/lib/cardano/nativeScript.ts`: the bytes of a script and the hash of them
that names a script credential. The encoder writes its heads with the 32-bit shifts of the
language, which are the digits of the format (`head_eq_itemHead`).

A script is one item of the format (`toItem`), and the encoder writes that item (`encode_eq`). For a
slot or a threshold that is no natural number it throws (`natural_of_encode`).
-/

namespace DrepTalk.Cardano

/-! ### The encoder -/

/-- `value >>> bits`, on the 32 low bits of a number. -/
def shiftRight32 (value bits : ℕ) : ℕ := (value % 2 ^ 32) >>> bits

/-- `new Uint8Array(numbers)`. -/
def byteArray (numbers : List ℕ) : Bytes := numbers.map UInt8.ofNat

def head (major value : ℕ) : Bytes :=
  let m := major <<< 5
  if value < 24 then byteArray [m ||| value]
  else if value < 0x100 then byteArray [m ||| 24, value]
  else if value < 0x10000 then byteArray [m ||| 25, value >>> 8, value &&& 0xff]
  else if value < 0x100000000 then
    byteArray [m ||| 26, shiftRight32 value 24 &&& 0xff, shiftRight32 value 16 &&& 0xff,
      shiftRight32 value 8 &&& 0xff, value &&& 0xff]
  else
    let hi := value / 0x100000000
    let lo := value % 0x100000000
    byteArray [m ||| 27, shiftRight32 hi 24 &&& 0xff, shiftRight32 hi 16 &&& 0xff,
      shiftRight32 hi 8 &&& 0xff, hi &&& 0xff, shiftRight32 lo 24 &&& 0xff,
      shiftRight32 lo 16 &&& 0xff, shiftRight32 lo 8 &&& 0xff, lo &&& 0xff]

def uint (n : JsNumber) : Except String Bytes :=
  if n.isNegative || !n.isInteger then .error "native script: non-negative integer required"
  else .ok (head 0 n.toNat)

def concat (arrs : List Bytes) : Bytes := arrs.flatten

def bstr (b : Bytes) : Bytes := concat [head 2 b.length, b]

def arr (items : List Bytes) : Bytes := concat (head 4 items.length :: items)

/-- `hexToBytes`, with its errors. -/
def hexBytes (hex : Text) : Except String Bytes :=
  if utf16Length hex % 2 ≠ 0 then .error "hex string must have even length"
  else
    match hexToBytes hex with
    | some bytes => .ok bytes
    | none => .error "invalid hex string"

mutual

def encode : NativeScript → Except String Bytes
  | .sig keyHash => do return arr [← uint (.finite 0), bstr (← hexBytes keyHash)]
  | .all scripts => do return arr [← uint (.finite 1), arr (← encodeScripts scripts)]
  | .any scripts => do return arr [← uint (.finite 2), arr (← encodeScripts scripts)]
  | .atLeast required scripts => do
    return arr [← uint (.finite 3), ← uint required, arr (← encodeScripts scripts)]
  | .after slot => do return arr [← uint (.finite 4), ← uint slot]
  | .before slot => do return arr [← uint (.finite 5), ← uint slot]

/-- `s.scripts.map(encode)`. -/
def encodeScripts : List NativeScript → Except String (List Bytes)
  | [] => .ok []
  | script :: scripts => do return (← encode script) :: (← encodeScripts scripts)

end

/-- The `tagged` bytes of `nativeScriptHash`, from which the hash is made. -/
def tagged (s : NativeScript) : Except String Bytes := do
  return concat [byteArray [0x00], ← encode s]

def nativeScriptHash (blake2b224 : Bytes → Bytes) (s : NativeScript) : Except String Text := do
  return bytesToHex (blake2b224 (← tagged s))

/-! ### Heads -/

theorem ofNat_eq_of_mod {a b : ℕ} (h : a % 256 = b % 256) : UInt8.ofNat a = UInt8.ofNat b :=
  UInt8.toNat_inj.mp h

theorem and_low_byte (n : ℕ) : n &&& 0xff = n % 256 := Nat.and_two_pow_sub_one_eq_mod n 8

theorem ofNat_shiftRight32 (value : ℕ) {k : ℕ} (hk : k < 4) :
    UInt8.ofNat (shiftRight32 value (8 * k) &&& 0xff) = UInt8.ofNat (value / 256 ^ k) := by
  refine ofNat_eq_of_mod ?_
  rw [and_low_byte, shiftRight32, Nat.shiftRight_eq_div_pow]
  interval_cases k <;> norm_num <;> omega

theorem head_or {major value : ℕ} (hvalue : value < 32) :
    major <<< 5 ||| value = 32 * major + value := by
  rw [Nat.shiftLeft_eq, Nat.mul_comm]
  exact (Nat.two_pow_add_eq_or_of_lt (i := 5) hvalue major).symm

theorem head_eq_itemHead (major value : ℕ) : head major value = itemHead major value := by
  have h0 (n : ℕ) : UInt8.ofNat (n &&& 0xff) = UInt8.ofNat (n / 256 ^ 0) :=
    ofNat_eq_of_mod (by rw [and_low_byte]; omega)
  have h1 (n : ℕ) : UInt8.ofNat (shiftRight32 n 8 &&& 0xff) = UInt8.ofNat (n / 256 ^ 1) :=
    ofNat_shiftRight32 n (k := 1) (by omega)
  have h2 (n : ℕ) : UInt8.ofNat (shiftRight32 n 16 &&& 0xff) = UInt8.ofNat (n / 256 ^ 2) :=
    ofNat_shiftRight32 n (k := 2) (by omega)
  have h3 (n : ℕ) : UInt8.ofNat (shiftRight32 n 24 &&& 0xff) = UInt8.ofNat (n / 256 ^ 3) :=
    ofNat_shiftRight32 n (k := 3) (by omega)
  -- the high and the low half of eight bytes
  have hhi (k : ℕ) : value / 0x100000000 / 256 ^ k = value / 256 ^ (4 + k) := by
    rw [Nat.div_div_eq_div_mul, pow_add, show 256 ^ 4 = 0x100000000 from rfl]
  have hlo {k : ℕ} (hk : k < 4) :
      UInt8.ofNat (value % 0x100000000 / 256 ^ k) = UInt8.ofNat (value / 256 ^ k) := by
    refine ofNat_eq_of_mod ?_
    interval_cases k <;> omega
  have hnum : 256 ^ 1 = 0x100 ∧ 256 ^ 2 = 0x10000 ∧ 256 ^ 4 = 0x100000000 := by norm_num
  rw [head, itemHead, hnum.1, hnum.2.1, hnum.2.2]
  split_ifs <;> simp only [byteArray, bytesOfNat, List.map_cons, List.map_nil]
  · rw [head_or (by omega)]
  · rw [head_or (by omega), pow_zero, Nat.div_one]
  · have hshift : value >>> 8 = value / 256 ^ 1 := Nat.shiftRight_eq_div_pow value 8
    rw [head_or (by omega), h0, hshift]
  · rw [head_or (by omega), h3, h2, h1, h0 value]
  · rw [head_or (by omega), h3, h2, h1, h0 (value / _), h3, h2, h1, h0 (value % _), hhi, hhi, hhi,
      hhi, hlo (k := 3) (by omega), hlo (k := 2) (by omega), hlo (k := 1) (by omega),
      hlo (k := 0) (by omega)]

/-! ### Key hashes -/

theorem hexDigit_of_isLowerHex {c : Char} (h : isLowerHex c = true) :
    ∃ d < 16, hexDigit c = some d ∧ Nat.digitChar d = c := by
  simp only [isLowerHex, Bool.or_eq_true, Bool.and_eq_true, decide_eq_true_eq] at h
  rw [← Char.ofNat_toNat c]
  generalize c.toNat = n at h
  obtain ⟨hlow, hhigh⟩ | ⟨hlow, hhigh⟩ := h
  · refine ⟨n - 0x30, by omega, ?_⟩
    interval_cases n <;> decide
  · refine ⟨n - 0x61 + 10, by omega, ?_⟩
    interval_cases n <;> decide

theorem hexToBytes_of_isLowerHex : ∀ {text : Text} {n : ℕ}, text.length = 2 * n →
    (∀ c ∈ text, isLowerHex c = true) →
      ∃ bytes, hexToBytes text = some bytes ∧ bytes.length = n ∧ bytesToHex bytes = text
  | [], n, hlen, _ => ⟨[], rfl, by simp at hlen ⊢; omega, rfl⟩
  | [_], n, hlen, _ => by simp at hlen; omega
  | a :: b :: rest, n, hlen, hhex => by
    obtain ⟨high, hhigh, ha, ha'⟩ := hexDigit_of_isLowerHex (hhex a (by simp))
    obtain ⟨low, hlow, hb, hb'⟩ := hexDigit_of_isLowerHex (hhex b (by simp))
    have hrest : rest.length = 2 * (n - 1) := by
      simp at hlen
      omega
    obtain ⟨bytes, hbytes, hcount, hback⟩ :=
      hexToBytes_of_isLowerHex hrest fun c hc => hhex c (by simp [hc])
    have hbyte : (UInt8.ofNat (16 * high + low)).toNat = 16 * high + low :=
      UInt8.toNat_ofNat_of_lt' (by change _ < 256; omega)
    refine ⟨UInt8.ofNat (16 * high + low) :: bytes, ?_, ?_, ?_⟩
    · rw [hexToBytes, ha, hb, hbytes]
    · simp at hlen ⊢
      omega
    · rw [bytesToHex, List.flatMap_cons, hbyte, ← bytesToHex, hback,
        show (16 * high + low) / 16 = high by omega, show (16 * high + low) % 16 = low by omega,
        ha', hb']
      rfl

theorem hexToBytes_of_isKeyHashHex {keyHash : Text} (h : isKeyHashHex keyHash = true) :
    ∃ bytes, hexToBytes keyHash = some bytes ∧ bytes.length = 28 ∧ bytesToHex bytes = keyHash := by
  rw [isKeyHashHex, Bool.and_eq_true, decide_eq_true_eq, List.all_eq_true] at h
  exact hexToBytes_of_isLowerHex (n := 28) h.1 h.2

theorem hexBytes_of_isKeyHashHex {keyHash : Text} {bytes : Bytes} (h : isKeyHashHex keyHash = true)
    (hbytes : hexToBytes keyHash = some bytes) : hexBytes keyHash = .ok bytes := by
  rw [isKeyHashHex, Bool.and_eq_true, decide_eq_true_eq, List.all_eq_true] at h
  have hunits : utf16Length keyHash = 56 := by
    have hone : keyHash.map (fun c => if c.toNat < 0x10000 then 1 else 2) =
        keyHash.map fun _ => 1 := by
      refine List.map_congr_left fun c hc => if_pos ?_
      have := h.2 c hc
      simp only [isLowerHex, Bool.or_eq_true, Bool.and_eq_true, decide_eq_true_eq] at this
      omega
    rw [utf16Length, hone]
    simp [h.1]
  rw [hexBytes, hunits, hbytes]
  rfl

/-! ### Scripts as items -/

mutual

/-- The item of a script in the format of the ledger. -/
def toItem : NativeScript → CborItem
  | .sig keyHash => .array [.nat 0, .bytes ((hexToBytes keyHash).getD [])]
  | .all scripts => .array [.nat 1, .array (toItems scripts)]
  | .any scripts => .array [.nat 2, .array (toItems scripts)]
  | .atLeast required scripts => .array [.nat 3, .nat required.toNat, .array (toItems scripts)]
  | .after slot => .array [.nat 4, .nat slot.toNat]
  | .before slot => .array [.nat 5, .nat slot.toNat]

def toItems : List NativeScript → List CborItem
  | [] => []
  | script :: scripts => toItem script :: toItems scripts

end

theorem uint_of_isNatural {x : JsNumber} (h : x.isNatural = true) :
    uint x = .ok (itemHead 0 x.toNat) := by
  rw [JsNumber.isNatural, Bool.and_eq_true, Bool.not_eq_true'] at h
  rw [uint, h.1, h.2, head_eq_itemHead]
  rfl

theorem isNatural_of_uint {x : JsNumber} {bytes : Bytes} (h : uint x = .ok bytes) :
    x.isNatural = true := by
  rw [uint] at h
  split_ifs at h with hthrow
  rwa [Bool.not_eq_true, ← Bool.not_eq_true', Bool.not_or, Bool.not_not] at hthrow

theorem uint_natCast {q : ℚ} (n : ℕ) (h : q = n) : uint (.finite q) = .ok (itemHead 0 n) := by
  rw [h, uint_of_isNatural (JsNumber.isNatural_natCast n), JsNumber.toNat_natCast]

theorem arr_eq (items : List CborItem) :
    arr (items.map CborItem.encode) = (CborItem.array items).encode := by
  have hall : ∀ items : List CborItem,
      (items.map CborItem.encode).flatten = CborItem.encodeAll items := by
    intro items
    induction items with
    | nil => rfl
    | cons item items ih => rw [List.map_cons, List.flatten_cons, ih, CborItem.encodeAll]
  rw [arr, concat, List.flatten_cons, List.length_map, head_eq_itemHead, hall, CborItem.encode]

theorem bstr_eq (b : Bytes) : bstr b = (CborItem.bytes b).encode := by
  rw [bstr, concat, head_eq_itemHead, CborItem.encode]
  simp

mutual

/-- Whether every slot and every threshold is a natural number. -/
def NativeScript.Natural : NativeScript → Prop
  | .sig _ => True
  | .all scripts | .any scripts => AllNatural scripts
  | .atLeast required scripts => required.isNatural = true ∧ AllNatural scripts
  | .before slot | .after slot => slot.isNatural = true

def AllNatural : List NativeScript → Prop
  | [] => True
  | script :: scripts => script.Natural ∧ AllNatural scripts

end

mutual

theorem encode_eq (s : NativeScript) (hparsed : s.Parsed) (hnat : s.Natural) :
    encode s = .ok (toItem s).encode := by
  cases s with
  | sig keyHash =>
    obtain ⟨bytes, hbytes, -, -⟩ := hexToBytes_of_isKeyHashHex hparsed
    rw [encode, uint_natCast 0 (by norm_num), hexBytes_of_isKeyHashHex hparsed hbytes, toItem,
      hbytes, ← arr_eq]
    simp [bstr_eq, CborItem.encode, bind, Except.bind, pure, Except.pure]
  | all scripts =>
    rw [encode, uint_natCast 1 (by norm_num), encodeScripts_eq scripts hparsed hnat, toItem,
      ← arr_eq]
    simp [arr_eq, CborItem.encode, bind, Except.bind, pure, Except.pure]
  | any scripts =>
    rw [encode, uint_natCast 2 (by norm_num), encodeScripts_eq scripts hparsed hnat, toItem,
      ← arr_eq]
    simp [arr_eq, CborItem.encode, bind, Except.bind, pure, Except.pure]
  | atLeast required scripts =>
    rw [encode, uint_natCast 3 (by norm_num), uint_of_isNatural hnat.1,
      encodeScripts_eq scripts hparsed.2 hnat.2, toItem, ← arr_eq]
    simp [arr_eq, CborItem.encode, bind, Except.bind, pure, Except.pure]
  | after slot =>
    rw [encode, uint_natCast 4 (by norm_num), uint_of_isNatural hnat, toItem, ← arr_eq]
    simp [CborItem.encode, bind, Except.bind, pure, Except.pure]
  | before slot =>
    rw [encode, uint_natCast 5 (by norm_num), uint_of_isNatural hnat, toItem, ← arr_eq]
    simp [CborItem.encode, bind, Except.bind, pure, Except.pure]

theorem encodeScripts_eq (scripts : List NativeScript) (hparsed : AllParsed scripts)
    (hnat : AllNatural scripts) :
    encodeScripts scripts = .ok ((toItems scripts).map CborItem.encode) := by
  cases scripts with
  | nil => rfl
  | cons script scripts =>
    rw [encodeScripts, encode_eq script hparsed.1 hnat.1, encodeScripts_eq scripts hparsed.2 hnat.2,
      toItems]
    rfl

end

theorem bind_eq_ok {α β : Type} {x : Except String α} {f : α → Except String β} {b : β} :
    (x >>= f) = .ok b ↔ ∃ a, x = .ok a ∧ f a = .ok b := by
  cases x <;> simp [bind, Except.bind]

mutual

theorem natural_of_encode (s : NativeScript) {bytes : Bytes} (h : encode s = .ok bytes) :
    s.Natural := by
  cases s with
  | sig keyHash => trivial
  | all scripts | any scripts =>
    simp only [encode, bind_eq_ok] at h
    obtain ⟨_, -, _, hscripts, -⟩ := h
    exact allNatural_of_encodeScripts scripts hscripts
  | atLeast required scripts =>
    simp only [encode, bind_eq_ok] at h
    obtain ⟨_, -, _, hrequired, _, hscripts, -⟩ := h
    exact ⟨isNatural_of_uint hrequired, allNatural_of_encodeScripts scripts hscripts⟩
  | after slot | before slot =>
    simp only [encode, bind_eq_ok] at h
    obtain ⟨_, -, _, hslot, -⟩ := h
    exact isNatural_of_uint hslot

theorem allNatural_of_encodeScripts (scripts : List NativeScript) {parts : List Bytes}
    (h : encodeScripts scripts = .ok parts) : AllNatural scripts := by
  cases scripts with
  | nil => trivial
  | cons script scripts =>
    simp only [encodeScripts, bind_eq_ok] at h
    obtain ⟨_, hscript, _, hscripts, -⟩ := h
    exact ⟨natural_of_encode script hscript, allNatural_of_encodeScripts scripts hscripts⟩

end

end DrepTalk.Cardano
