import DrepTalk.Text.JsText
import Mathlib.Algebra.Order.Ring.Int

/-!
# Numbers as decimal digits

A template string writes a number by its decimal digits (`decimal`), and `BigInt` reads digits back
(`digitsValue`). A plain decimal has some digits, and perhaps a point with some more
(`decimalParts`). Zeros at the end of the part behind the point are trimmed and padded again, which
changes the digits and not what they stand for.
-/

namespace DrepTalk

def decimal (n : ℕ) : Text := Nat.toDigits 10 n

def integerText (n : ℤ) : Text := if n < 0 then '-' :: decimal n.natAbs else decimal n.natAbs

/-- Digits in groups of three, read from the last. -/
def groupDigits : Text → Text
  | a :: b :: c :: d :: rest => a :: b :: c :: ',' :: groupDigits (d :: rest)
  | short => short

/-- `toLocaleString('en-US')` of an integer. -/
def localeText (n : ℤ) : Text :=
  let grouped := (groupDigits (decimal n.natAbs).reverse).reverse
  if n < 0 then '-' :: grouped else grouped

/-- `BigInt` of some digits. -/
def digitsValue (digits : Text) : ℕ := Nat.ofDigitChars 10 digits 0

/-- `/^\d+$/`. -/
def isDigits (t : Text) : Bool := !t.isEmpty && t.all Char.isDigit

/-- `/^-?\d+$/`. -/
def isIntegerText : Text → Bool
  | '-' :: digits => isDigits digits
  | digits => isDigits digits

/-- `BigInt` of an integer in digits. -/
def integerValue : Text → ℤ
  | '-' :: digits => -digitsValue digits
  | digits => digitsValue digits

/-- The groups of `/^(\d*)(?:\.(\d+))?$/`. -/
def decimalParts (t : Text) : Option (Text × Option Text) :=
  match t.dropWhile Char.isDigit with
  | [] => some (t.takeWhile Char.isDigit, none)
  | c :: frac =>
    if c = '.' ∧ frac ≠ [] ∧ frac.all Char.isDigit = true then
      some (t.takeWhile Char.isDigit, some frac)
    else none

/-- `replace(/0+$/, '')`. -/
def trimZeros (t : Text) : Text := t.rdropWhile (· == '0')

/-- `padStart` with zeros. -/
def padStartZeros (n : ℕ) (t : Text) : Text := List.replicate (n - t.length) '0' ++ t

/-- `padEnd` with zeros. -/
def padEndZeros (n : ℕ) (t : Text) : Text := t ++ List.replicate (n - t.length) '0'

variable {n : ℕ} {t s whole frac : Text}

/-! ### What digits stand for -/

@[simp] theorem digitsValue_decimal (n : ℕ) : digitsValue (decimal n) = n :=
  Nat.ofDigitChars_ten_toDigits

theorem isDigit_of_mem_decimal {c : Char} (h : c ∈ decimal n) : c.isDigit = true :=
  Nat.isDigit_of_mem_toDigits (by decide) (by decide) h

theorem decimal_ne_nil (n : ℕ) : decimal n ≠ [] := Nat.toDigits_ne_nil

theorem isDigits_decimal (n : ℕ) : isDigits (decimal n) = true := by
  rw [isDigits, Bool.and_eq_true, List.all_eq_true, Bool.not_eq_true', List.isEmpty_eq_false_iff]
  exact ⟨decimal_ne_nil n, fun _ => isDigit_of_mem_decimal⟩

theorem head_decimal_ne (n : ℕ) (rest : Text) : decimal n ≠ '-' :: rest := fun h =>
  absurd (isDigit_of_mem_decimal (n := n) (h ▸ List.mem_cons_self)) (by decide)

theorem length_decimal_of_lt (h : n < 10) : (decimal n).length = 1 := by
  rw [decimal, Nat.toDigits_of_lt_base h, List.length_singleton]

theorem length_integerText_pos (n : ℤ) : 0 < (integerText n).length := by
  rw [integerText]
  split_ifs
  · exact Nat.succ_pos _
  · exact Nat.length_toDigits_pos

theorem integerText_natCast (n : ℕ) : integerText (n : ℤ) = decimal n := by
  rw [integerText, if_neg (by omega), Int.natAbs_natCast]

theorem isIntegerText_integerText (n : ℤ) : isIntegerText (integerText n) = true := by
  rw [integerText]
  split_ifs
  · exact isDigits_decimal _
  · rw [isIntegerText]
    · exact isDigits_decimal _
    · exact head_decimal_ne _

theorem integerValue_integerText (n : ℤ) : integerValue (integerText n) = n := by
  rw [integerText]
  split_ifs with hneg
  · rw [integerValue, digitsValue_decimal]
    omega
  · rw [integerValue, digitsValue_decimal]
    · omega
    · exact head_decimal_ne _

theorem digitsValue_append (s t : Text) :
    digitsValue (s ++ t) = digitsValue s * 10 ^ t.length + digitsValue t := by
  rw [digitsValue, Nat.ofDigitChars_append, Nat.ofDigitChars_eq_ofDigitChars_zero, Nat.mul_comm]
  rfl

theorem digitsValue_replicate_zero (k : ℕ) : digitsValue (List.replicate k '0') = 0 := by
  rw [digitsValue, Nat.ofDigitChars_replicate_zero, Nat.mul_zero]

/-! ### Zeros at the end -/

theorem trimZeros_append (t : Text) :
    ∃ k, trimZeros t ++ List.replicate k '0' = t ∧ t.length = (trimZeros t).length + k := by
  have hzeros : ∀ c ∈ t.rtakeWhile (· == '0'), c = '0' := fun c hc =>
    beq_iff_eq.mp (List.mem_rtakeWhile_imp (p := (· == '0')) hc)
  have hsplit : trimZeros t ++ t.rtakeWhile (· == '0') = t := List.rdropWhile_append_rtakeWhile
  refine ⟨(t.rtakeWhile (· == '0')).length, ?_, ?_⟩
  · rw [← List.eq_replicate_of_mem hzeros, hsplit]
  · rw [← List.length_append, hsplit]

theorem padEndZeros_trimZeros (t : Text) : padEndZeros t.length (trimZeros t) = t := by
  obtain ⟨k, heq, hlength⟩ := trimZeros_append t
  rw [padEndZeros, hlength, Nat.add_sub_cancel_left, heq]

theorem digitsValue_trimZeros (t : Text) :
    digitsValue (trimZeros t) * 10 ^ t.length =
      digitsValue t * 10 ^ (trimZeros t).length := by
  obtain ⟨k, heq, hlength⟩ := trimZeros_append t
  have hvalue : digitsValue t = digitsValue (trimZeros t) * 10 ^ k := by
    conv_lhs => rw [← heq]
    rw [digitsValue_append, List.length_replicate, digitsValue_replicate_zero, Nat.add_zero]
  rw [hvalue, hlength, Nat.mul_assoc, ← Nat.pow_add, Nat.add_comm]

theorem mem_of_mem_trimZeros {c : Char} (h : c ∈ trimZeros t) : c ∈ t :=
  (List.rdropWhile_prefix _ _).mem h

theorem getLast_trimZeros (h : trimZeros t ≠ []) : (trimZeros t).getLast h ≠ '0' :=
  fun hzero => List.rdropWhile_last_not _ _ h (beq_iff_eq.mpr hzero)

theorem length_padStartZeros (h : t.length ≤ n) : (padStartZeros n t).length = n := by
  rw [padStartZeros, List.length_append, List.length_replicate, Nat.sub_add_cancel h]

theorem digitsValue_padStartZeros (n : ℕ) (t : Text) :
    digitsValue (padStartZeros n t) = digitsValue t := by
  rw [padStartZeros, digitsValue_append, digitsValue_replicate_zero, Nat.zero_mul, Nat.zero_add]

/-! ### Plain decimals -/

theorem decimalParts_whole (hwhole : ∀ c ∈ whole, c.isDigit = true) :
    decimalParts whole = some (whole, none) := by
  rw [decimalParts, List.dropWhile_eq_nil_iff.mpr hwhole, List.takeWhile_eq_self_iff.mpr hwhole]

theorem decimalParts_point (hwhole : ∀ c ∈ whole, c.isDigit = true)
    (hfrac : ∀ c ∈ frac, c.isDigit = true) (hne : frac ≠ []) :
    decimalParts (whole ++ '.' :: frac) = some (whole, some frac) := by
  have hdrop : (whole ++ '.' :: frac).dropWhile Char.isDigit = '.' :: frac := by
    rw [List.dropWhile_append_of_pos hwhole]
    rfl
  have htake : (whole ++ '.' :: frac).takeWhile Char.isDigit = whole := by
    rw [List.takeWhile_append_of_pos hwhole]
    exact List.append_nil whole
  rw [decimalParts, hdrop, htake]
  exact if_pos ⟨rfl, hne, List.all_eq_true.mpr hfrac⟩

theorem isSpace_of_isDigit {c : Char} (h : c.isDigit = true) : JsText.isSpace c = false := by
  have hrange : 48 ≤ c.toNat ∧ c.toNat ≤ 57 := by
    simpa [Char.isDigit, UInt32.le_iff_toNat_le] using h
  simp only [JsText.isSpace, Bool.or_eq_false_iff, Bool.and_eq_false_iff, decide_eq_false_iff_not,
    beq_eq_false_iff_ne]
  omega

theorem trim_eq_self (h : ∀ c ∈ t, JsText.isSpace c = false) : JsText.trim t = t := by
  rcases t with _ | ⟨c, rest⟩
  · rfl
  · have hhead : (c :: rest).dropWhile JsText.isSpace = c :: rest :=
      List.dropWhile_cons_of_neg (by simp [h c List.mem_cons_self])
    rw [JsText.trim, hhead, List.rdropWhile_eq_self_iff]
    intro hne
    simp [h _ (List.getLast_mem hne)]

end DrepTalk
