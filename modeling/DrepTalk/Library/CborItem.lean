import Mathlib.Tactic.Ring

/-!
# CBOR items

**Items.** Natural numbers, byte strings and arrays of definite length: three of the eight major
types of the format. An item is written behind a *head*, whose first byte holds the major type in
three bits and in the other five the argument itself or the width of the bytes that hold it
(`itemHead`, which takes the shortest form).

**Reading.** `readItem` reads one item off the front of a byte string and leaves the rest. It takes
heads of every width, the longer than necessary too; the types that are no items here it refuses.
Its fuel bounds the depth of arrays, and every nested array takes a byte of its own.

**Round trip.** What has been written is read back with everything behind it untouched
(`readItem_encode`), if every number in it, and every length, fits 64 bits. An encoding is therefore
never an initial part of another one.
-/

namespace DrepTalk

/-- A data item. -/
inductive CborItem
  | nat (n : ℕ)
  | bytes (b : List UInt8)
  | array (items : List CborItem)

/-! ### Numbers in bytes -/

/-- The last `width` bytes of a number, the highest first. -/
def bytesOfNat (value : ℕ) : ℕ → List UInt8
  | 0 => []
  | width + 1 => UInt8.ofNat (value / 256 ^ width) :: bytesOfNat value width

/-- The number that bytes stand for, the highest first. -/
def natOfBytes (bytes : List UInt8) : ℕ := bytes.foldl (fun n b => 256 * n + b.toNat) 0

@[simp] theorem length_bytesOfNat (value width : ℕ) : (bytesOfNat value width).length = width := by
  induction width with
  | zero => rfl
  | succ width ih => rw [bytesOfNat, List.length_cons, ih]

theorem foldl_bytesOfNat (value width n : ℕ) :
    (bytesOfNat value width).foldl (fun n b => 256 * n + b.toNat) n =
      n * 256 ^ width + value % 256 ^ width := by
  induction width generalizing n with
  | zero => simp [bytesOfNat, Nat.mod_one]
  | succ width ih =>
    have hbyte : (UInt8.ofNat (value / 256 ^ width)).toNat = value / 256 ^ width % 256 := rfl
    have hsplit : value % 256 ^ (width + 1) =
        value % 256 ^ width + 256 ^ width * (value / 256 ^ width % 256) := by
      rw [Nat.pow_succ, Nat.mod_mul]
    rw [bytesOfNat, List.foldl_cons, ih, hbyte, hsplit, Nat.pow_succ]
    ring

variable {value width major : ℕ}

/-- A number that fits its width is read back. -/
theorem natOfBytes_bytesOfNat (h : value < 256 ^ width) :
    natOfBytes (bytesOfNat value width) = value := by
  rw [natOfBytes, foldl_bytesOfNat, Nat.mod_eq_of_lt h, Nat.zero_mul, Nat.zero_add]

/-! ### Heads -/

/-- The head of an item, in its shortest form. -/
def itemHead (major value : ℕ) : List UInt8 :=
  if value < 24 then [UInt8.ofNat (32 * major + value)]
  else if value < 256 ^ 1 then UInt8.ofNat (32 * major + 24) :: bytesOfNat value 1
  else if value < 256 ^ 2 then UInt8.ofNat (32 * major + 25) :: bytesOfNat value 2
  else if value < 256 ^ 4 then UInt8.ofNat (32 * major + 26) :: bytesOfNat value 4
  else UInt8.ofNat (32 * major + 27) :: bytesOfNat value 8

/-- The argument in the next `width` bytes. -/
def readArgument (width : ℕ) (bytes : List UInt8) : Option (ℕ × List UInt8) :=
  if width ≤ bytes.length then some (natOfBytes (bytes.take width), bytes.drop width) else none

/-- The major type and the argument of the next item. -/
def readHead : List UInt8 → Option (ℕ × ℕ × List UInt8)
  | [] => none
  | first :: rest =>
    let major := first.toNat / 32
    let info := first.toNat % 32
    if info < 24 then some (major, info, rest)
    else if info < 28 then (readArgument (2 ^ (info - 24)) rest).map fun read => (major, read)
    else none

theorem itemHead_ne_nil (major value : ℕ) : itemHead major value ≠ [] := by
  rw [itemHead]
  split_ifs <;> exact List.cons_ne_nil _ _

theorem readArgument_append (h : value < 256 ^ width) (rest : List UInt8) :
    readArgument width (bytesOfNat value width ++ rest) = some (value, rest) := by
  have hlen := length_bytesOfNat value width
  rw [readArgument, if_pos (by simp), List.take_left' hlen, List.drop_left' hlen,
    natOfBytes_bytesOfNat h]

/-- The first byte of a head falls apart into its two parts. -/
theorem toNat_headByte (major info : ℕ) (hmajor : major < 8) (hinfo : info < 32) :
    (UInt8.ofNat (32 * major + info)).toNat / 32 = major ∧
      (UInt8.ofNat (32 * major + info)).toNat % 32 = info := by
  have hbyte : (UInt8.ofNat (32 * major + info)).toNat = 32 * major + info :=
    UInt8.toNat_ofNat_of_lt' (by change _ < 256; omega)
  rw [hbyte]
  omega

/-- A head with its argument in `2 ^ k` bytes is read back. -/
theorem readHead_wide {k : ℕ} (hmajor : major < 8) (hk : k < 4) (h : value < 256 ^ 2 ^ k)
    (rest : List UInt8) :
    readHead (UInt8.ofNat (32 * major + (24 + k)) :: bytesOfNat value (2 ^ k) ++ rest) =
      some (major, value, rest) := by
  obtain ⟨hquot, hrem⟩ := toNat_headByte major (24 + k) hmajor (by omega)
  rw [List.cons_append, readHead]
  simp only [hquot, hrem]
  rw [if_neg (by omega), if_pos (by omega), Nat.add_sub_cancel_left, readArgument_append h,
    Option.map_some]

/-- A head is read back, with everything behind it left over. -/
theorem readHead_itemHead (hmajor : major < 8) (hvalue : value < 2 ^ 64) (rest : List UInt8) :
    readHead (itemHead major value ++ rest) = some (major, value, rest) := by
  rw [itemHead]
  split_ifs with h0 h1 h2 h4
  · obtain ⟨hquot, hrem⟩ := toNat_headByte major value hmajor (by omega)
    rw [List.singleton_append, readHead]
    simp only [hquot, hrem, if_pos h0]
  · exact readHead_wide (k := 0) hmajor (by omega) h1 rest
  · exact readHead_wide (k := 1) hmajor (by omega) h2 rest
  · exact readHead_wide (k := 2) hmajor (by omega) h4 rest
  · have h8 : value < 256 ^ 2 ^ 3 := by norm_num at hvalue ⊢; omega
    exact readHead_wide (k := 3) hmajor (by omega) h8 rest

/-! ### Items -/

namespace CborItem

mutual

/-- The bytes of an item. -/
def encode : CborItem → List UInt8
  | nat n => itemHead 0 n
  | bytes b => itemHead 2 b.length ++ b
  | array items => itemHead 4 items.length ++ encodeAll items

def encodeAll : List CborItem → List UInt8
  | [] => []
  | item :: items => encode item ++ encodeAll items

end

mutual

/-- Whether every number in an item, and every length, fits 64 bits. -/
def Fits : CborItem → Prop
  | nat n => n < 2 ^ 64
  | bytes b => b.length < 2 ^ 64
  | array items => items.length < 2 ^ 64 ∧ AllFit items

def AllFit : List CborItem → Prop
  | [] => True
  | item :: items => item.Fits ∧ AllFit items

end

end CborItem

/-- Reads `count` times. -/
def readMany {α : Type*} (read : List UInt8 → Option (α × List UInt8)) :
    ℕ → List UInt8 → Option (List α × List UInt8)
  | 0, bytes => some ([], bytes)
  | count + 1, bytes =>
    (read bytes).bind fun (a, rest) => (readMany read count rest).map fun (as, rest) =>
      (a :: as, rest)

/-- Reads the next item, of arrays nested less deep than the fuel. -/
def readItem : ℕ → List UInt8 → Option (CborItem × List UInt8)
  | 0, _ => none
  | fuel + 1, bytes =>
    (readHead bytes).bind fun (major, value, rest) =>
      if major = 0 then some (.nat value, rest)
      else if major = 2 then
        if value ≤ rest.length then some (.bytes (rest.take value), rest.drop value) else none
      else if major = 4 then
        (readMany (readItem fuel) value rest).map fun (items, rest) => (.array items, rest)
      else none

open CborItem in
mutual

/-- What has been written is read back, with everything behind it left over. -/
theorem readItem_encode (item : CborItem) (hfits : item.Fits) {fuel : ℕ}
    (hfuel : item.encode.length ≤ fuel) (rest : List UInt8) :
    readItem fuel (item.encode ++ rest) = some (item, rest) := by
  cases fuel with
  | zero => cases item <;> simp [encode, itemHead_ne_nil] at hfuel
  | succ fuel =>
    cases item with
    | nat n =>
      rw [encode, readItem, readHead_itemHead (by omega) hfits]
      rfl
    | bytes b =>
      rw [encode, readItem, List.append_assoc, readHead_itemHead (by omega) hfits]
      simp
    | array items =>
      rw [encode, readItem, List.append_assoc, readHead_itemHead (by omega) hfits.1]
      have hhead := List.length_pos_iff.mpr (itemHead_ne_nil 4 items.length)
      rw [encode, List.length_append] at hfuel
      simp [readMany_encodeAll items hfits.2 (show (encodeAll items).length ≤ fuel by omega) rest]

theorem readMany_encodeAll (items : List CborItem) (hfits : AllFit items) {fuel : ℕ}
    (hfuel : (encodeAll items).length ≤ fuel) (rest : List UInt8) :
    readMany (readItem fuel) items.length (encodeAll items ++ rest) = some (items, rest) := by
  cases items with
  | nil => rfl
  | cons item items =>
    rw [encodeAll, List.length_append] at hfuel
    rw [encodeAll, List.append_assoc, List.length_cons, readMany,
      readItem_encode item hfits.1 (by omega) _]
    simp [readMany_encodeAll items hfits.2 (show (encodeAll items).length ≤ fuel by omega) rest]

end

end DrepTalk
