import DrepTalk.Auth.Signatures
import DrepTalk.Format.Decimal
import DrepTalk.Format.Pct

/-!
# The percentage that is shown

The first part of `src/lib/governance/fullStakeView.ts`: a stored percentage is refined to four
decimals from the stored amounts, where these are of the same ledger state (`shownYesPct`). That
they are is read off the percentage: the share that they give has to round to it, half up.

**Safe refinement** (`shownYesPct_right`). The two floor divisions of `bucketsReproduceTally` are
that rounding exactly, and the refined percentage, which is cut off, never rounds to another.
-/

namespace DrepTalk

/-! ### Stored amounts -/

/-- The value of digits behind `0x`, `0o` or `0b`. -/
def radixValue (radix : ℕ) : Text → Option ℕ
  | [] => none
  | digits => digits.foldl (fun value c =>
      match value, hexDigit c with
      | some value, some digit => if digit < radix then some (radix * value + digit) else none
      | _, _ => none) (some 0)

/-- `BigInt` of any text, `none` where it throws. -/
def bigIntOfText (text : Text) : Option ℤ :=
  match JsText.trim text with
  | [] => some 0
  | '0' :: 'x' :: digits => (radixValue 16 digits).map Int.ofNat
  | '0' :: 'X' :: digits => (radixValue 16 digits).map Int.ofNat
  | '0' :: 'o' :: digits => (radixValue 8 digits).map Int.ofNat
  | '0' :: 'O' :: digits => (radixValue 8 digits).map Int.ofNat
  | '0' :: 'b' :: digits => (radixValue 2 digits).map Int.ofNat
  | '0' :: 'B' :: digits => (radixValue 2 digits).map Int.ofNat
  | '+' :: digits => if isDigits digits then some (digitsValue digits) else none
  | '-' :: digits => if isDigits digits then some (-digitsValue digits) else none
  | digits => if isDigits digits then some (digitsValue digits) else none

/-- A power that is stored as a number or as a text. -/
inductive StoredPower
  | number (n : ℚ)
  | text (t : Text)

/-- `BigInt` of it. -/
def StoredPower.toBigInt : StoredPower → Option ℤ
  | .number n => if n.den = 1 then some n.num else none
  | .text t => bigIntOfText t

def ancIsNoSide (actionType : String) : Bool := actionType != "NoConfidence"

/-! ### The percentage -/

/-- `BodyTallyInput`, by the fields that are read. -/
structure BodyTallyInput where
  actionType : String
  storedPct : Option ℚ
  yesPower : Option StoredPower
  noSidePower : Option Text

structure RatificationParts where
  yes : ℤ
  counted : ℤ
  pos : 0 < counted
  deriving DecidableEq

def ratificationParts (input : BodyTallyInput) : Option RatificationParts :=
  match input.yesPower, input.noSidePower with
  | some yesPower, some noSidePower =>
    if ancIsNoSide input.actionType = false then none
    else
      match yesPower.toBigInt, bigIntOfText noSidePower with
      | some yes, some noSide =>
        if hpos : 0 < yes + noSide then some ⟨yes, yes + noSide, hpos⟩ else none
      | _, _ => none
  | _, _ => none

def bucketsReproduceTally (storedPct : ℚ) (parts : RatificationParts) : Bool :=
  decide (((parts.yes * 20000).tdiv parts.counted + 1).tdiv 2 = round (storedPct * 100))

def bucketsDrifted (input : BodyTallyInput) : Bool :=
  match input.storedPct, ratificationParts input with
  | some storedPct, some parts => !bucketsReproduceTally storedPct parts
  | _, _ => false

def shownYesPct (input : BodyTallyInput) : Option ℚ :=
  match input.storedPct, ratificationParts input with
  | none, _ => none
  | some storedPct, none => some storedPct
  | some storedPct, some parts =>
    if bucketsReproduceTally storedPct parts then some (pct4 parts.yes parts.counted)
    else some storedPct

/-- The exact share of the ratification, in percent. -/
def RatificationParts.share (parts : RatificationParts) : ℚ := 100 * parts.yes / parts.counted

variable {parts : RatificationParts} {storedPct : ℚ}

theorem hundredths_eq_round (hyes : 0 ≤ parts.yes) :
    ((parts.yes * 20000).tdiv parts.counted + 1).tdiv 2 = round (parts.share * 100) := by
  have hpos := parts.pos
  have hdouble : 2 * (parts.share * 100) = ((parts.yes * 20000 : ℤ) : ℚ) / parts.counted := by
    rw [RatificationParts.share]
    push_cast
    ring
  have hquotient : 0 ≤ (parts.yes * 20000).tdiv parts.counted :=
    Int.tdiv_nonneg (by omega) hpos.le
  rw [round_eq_div, hdouble, floor_intCast_div _ hpos.le,
    Int.tdiv_eq_ediv_of_nonneg (by omega : 0 ≤ (parts.yes * 20000).tdiv parts.counted + 1),
    Int.tdiv_eq_ediv_of_nonneg (by omega)]

theorem bucketsReproduceTally_iff (hyes : 0 ≤ parts.yes) (hstored : IsHundredth storedPct) :
    bucketsReproduceTally storedPct parts = true ↔ storedPct = round2 parts.share := by
  obtain ⟨n, rfl⟩ := hstored
  rw [bucketsReproduceTally, decide_eq_true_eq, hundredths_eq_round hyes, eq_round2_iff,
    div_mul_cancel₀ _ (by norm_num), round_intCast, eq_comm]

theorem bucketsDrifted_eq {input : BodyTallyInput} (hpct : input.storedPct = some storedPct)
    (hparts : ratificationParts input = some parts) :
    bucketsDrifted input = !bucketsReproduceTally storedPct parts := by
  rw [bucketsDrifted, hpct, hparts]

theorem shownYesPct_eq {input : BodyTallyInput} (hpct : input.storedPct = some storedPct)
    (hparts : ratificationParts input = some parts) :
    shownYesPct input = if bucketsReproduceTally storedPct parts = true then
      some (pct4 parts.yes parts.counted) else some storedPct := by
  rw [shownYesPct, hpct, hparts]

/-- A refined percentage rounds to the stored one. -/
structure Refines (pct storedPct : ℚ) : Prop where
  near : |pct - storedPct| ≤ 1 / 200
  rounds : round2 pct = storedPct

/-- **The shown percentage** refines a stored one by less than would round to another, exactly where
the share of the amounts rounds to it, half up; otherwise it counts as drifted. -/
theorem shownYesPct_right :
    (∀ (parts : RatificationParts) (storedPct : ℚ), 0 ≤ parts.yes → parts.yes ≤ parts.counted →
      IsHundredth storedPct →
        (bucketsReproduceTally storedPct parts = true ↔ storedPct = round2 parts.share)) ∧
    ∀ (input : BodyTallyInput) (parts : RatificationParts) (storedPct : ℚ),
      input.storedPct = some storedPct → ratificationParts input = some parts →
        bucketsDrifted input = !bucketsReproduceTally storedPct parts ∧
        shownYesPct input = (if bucketsReproduceTally storedPct parts = true then
          some (pct4 parts.yes parts.counted) else some storedPct) ∧
        (0 ≤ parts.yes → parts.yes ≤ parts.counted → IsHundredth storedPct →
          bucketsReproduceTally storedPct parts = true →
            Refines (pct4 parts.yes parts.counted) storedPct) := by
  refine ⟨fun parts storedPct hyes _ hstored => bucketsReproduceTally_iff hyes hstored,
    fun input parts storedPct hpct hparts => ⟨bucketsDrifted_eq hpct hparts,
      shownYesPct_eq hpct hparts, fun hyes _ hstored hsame => ?_⟩⟩
  rw [(bucketsReproduceTally_iff hyes hstored).mp hsame]
  exact ⟨abs_pct4_sub_le hyes parts.pos, round2_pct4 hyes parts.pos⟩

/-- Amounts that give a percentage exactly between two hundredths when it is cut off. -/
def sampleBodyTally : BodyTallyInput where
  actionType := "ParameterChange"
  storedPct := some (101 / 100)
  yesPower := some (.number 100501)
  noSidePower := some "9899499".toList

theorem shownYesPct_right_boundary : ∃ parts, ratificationParts sampleBodyTally = some parts ∧
    (bucketsReproduceTally (101 / 100) parts = true ↔ (101 / 100 : ℚ) = round2 parts.share) ∧
      shownYesPct sampleBodyTally = some (1005 / 1000) ∧ Refines (1005 / 1000) (101 / 100) := by
  have hparts : ratificationParts sampleBodyTally = some ⟨100501, 10000000, by decide⟩ := by
    decide +kernel
  have hsame : bucketsReproduceTally (101 / 100) ⟨100501, 10000000, by decide⟩ = true := by
    decide +kernel
  have hpct : pct4 100501 10000000 = 1005 / 1000 := by decide +kernel
  have hstored : IsHundredth (101 / 100) := ⟨101, by norm_num⟩
  obtain ⟨hiff, hinput⟩ := shownYesPct_right
  obtain ⟨-, hshown, hrefines⟩ := hinput sampleBodyTally _ _ rfl hparts
  have hpositive : (0 : ℤ) ≤ 100501 := by decide
  have hwithin : (100501 : ℤ) ≤ 10000000 := by decide
  refine ⟨_, hparts, hiff _ _ hpositive hwithin hstored, hshown.trans ?_,
    hpct ▸ hrefines hpositive hwithin hstored hsame⟩
  rw [if_pos hsame, hpct]

end DrepTalk
