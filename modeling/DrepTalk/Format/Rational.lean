import DrepTalk.Format.Decimal
import Mathlib.Tactic.FieldSimp
import Mathlib.Tactic.Linarith
import Mathlib.Tactic.Ring

/-!
# Exact rationals

`src/lib/format/rational.ts`: protocol parameters are compared exactly, so a value is never rounded
between the input field and the transaction. `parseDecimal` reads a plain decimal, and
`formatRationalDecimal` writes one by long division, with a mark where it has to stop short.

**Lowest terms.** `reduce` gives the numerator and the denominator of the number itself
(`lowestTerms_eq`), so rationals of one value are reduced to one form.
-/

namespace DrepTalk

abbrev Throws (α : Type) := Except String α

theorem Throws.map_eq_ok {α β : Type} {f : α → β} {x : Throws α} {b : β} (h : x.map f = .ok b) :
    ∃ a, x = .ok a ∧ f a = b := by
  cases x with
  | error _ => cases h
  | ok a => exact ⟨a, rfl, Except.ok.inj h⟩

/-- A `Rational`. -/
structure Rational where
  n : ℤ
  d : ℤ
  deriving DecidableEq

namespace Rational

/-- The loop of `gcd`. -/
def gcdLoop (x y : ℤ) : ℤ := if y = 0 then x else gcdLoop y (x.tmod y)
termination_by y.natAbs
decreasing_by
  rw [Int.natAbs_tmod]
  exact Nat.mod_lt _ (Int.natAbs_pos.mpr ‹_›)

def gcd (a b : ℤ) : ℤ := gcdLoop (if a < 0 then -a else a) (if b < 0 then -b else b)

/-- What `reduce` gives of a nonzero denominator. -/
def lowestTerms (r : Rational) : Rational :=
  if r.n = 0 then ⟨0, 1⟩
  else
    let sign := if r.d < 0 then -1 else 1
    let g := gcd r.n r.d
    ⟨(sign * r.n).tdiv g, (sign * r.d).tdiv g⟩

def reduce (r : Rational) : Throws Rational :=
  if r.d = 0 then .error "A rational needs a nonzero denominator." else .ok r.lowestTerms

def value (r : Rational) : ℚ := r.n / r.d

/-- Coprime parts, and the sign on the numerator. -/
structure LowestTerms (r : Rational) : Prop where
  d_pos : 0 < r.d
  coprime : Int.gcd r.n r.d = 1

variable {r s : Rational}

theorem gcdLoop_eq {x y : ℤ} (hx : 0 ≤ x) (hy : 0 ≤ y) : gcdLoop x y = Int.gcd x y := by
  fun_induction gcdLoop x y with
  | case1 x => rw [Int.gcd_zero_right, Int.natAbs_of_nonneg hx]
  | case2 x y hne ih =>
    have hmod : x.tmod y = x % y := Int.tmod_eq_emod_of_nonneg hx
    rw [ih hy (hmod ▸ Int.emod_nonneg x hne), hmod, Int.gcd_comm, Int.gcd_emod]

theorem gcd_eq (a b : ℤ) : gcd a b = Int.gcd a b := by
  rw [gcd, gcdLoop_eq (by split_ifs <;> omega) (by split_ifs <;> omega)]
  split_ifs <;> simp

theorem value_neg (n d : ℤ) : value ⟨-n, -d⟩ = value ⟨n, d⟩ := by
  simp only [value, Int.cast_neg, neg_div_neg_eq]

theorem LowestTerms.eq (h : r.LowestTerms) : r = ⟨r.value.num, r.value.den⟩ := by
  have hcoprime : Nat.Coprime r.n.natAbs r.d.natAbs := h.coprime
  have hn : r.value.num = r.n := Rat.num_div_eq_of_coprime h.d_pos hcoprime
  have hd : (r.value.den : ℤ) = r.d := Rat.den_div_eq_of_coprime h.d_pos hcoprime
  rw [hn, hd]

theorem LowestTerms.unique (hr : r.LowestTerms) (hs : s.LowestTerms) (h : r.value = s.value) :
    r = s := by
  rw [hr.eq, hs.eq, h]

theorem exists_scaled (hd : r.d ≠ 0) :
    ∃ n d g : ℤ, 0 < g ∧ d ≠ 0 ∧ Int.gcd n d = 1 ∧ gcd r.n r.d = g ∧ r = ⟨n * g, d * g⟩ := by
  have hpos : 0 < Int.gcd r.n r.d := Int.gcd_pos_of_ne_zero_right r.n hd
  obtain ⟨n, d, hcoprime, hrn, hrd⟩ := Int.exists_gcd_one hpos
  refine ⟨n, d, Int.gcd r.n r.d, by exact_mod_cast hpos, fun h => hd ?_, hcoprime, gcd_eq _ _, ?_⟩
  · rw [hrd, h, Int.zero_mul]
  · rw [← hrn, ← hrd]

theorem lowestTerms_spec (hd : r.d ≠ 0) :
    r.lowestTerms.LowestTerms ∧ r.lowestTerms.value = r.value := by
  rw [lowestTerms]
  by_cases hn : r.n = 0
  · rw [if_pos hn]
    exact ⟨⟨one_pos, rfl⟩, by simp [value, hn]⟩
  · rw [if_neg hn]
    obtain ⟨n, d, g, hg, hdne, hcoprime, hgcd, hr⟩ := exists_scaled hd
    have hvalue : r.value = value ⟨n, d⟩ := by
      have hgq : (g : ℚ) ≠ 0 := by exact_mod_cast hg.ne'
      simp only [hr, value, Int.cast_mul, mul_div_mul_right _ _ hgq]
    have hquotient : ∀ sign a : ℤ, (sign * (a * g)).tdiv g = sign * a := fun sign a => by
      rw [← Int.mul_assoc, Int.mul_tdiv_cancel _ hg.ne']
    have hsign : r.d < 0 ↔ d < 0 := by
      rw [hr]
      exact ⟨fun h => by nlinarith, fun h => by nlinarith⟩
    rw [hgcd, hvalue]
    by_cases hneg : d < 0
    · rw [if_pos (hsign.mpr hneg)]
      simp only [hr, hquotient]
      rw [neg_one_mul, neg_one_mul, value_neg]
      exact ⟨⟨neg_pos.mpr hneg, by rwa [Int.gcd_neg, Int.neg_gcd]⟩, rfl⟩
    · rw [if_neg (mt hsign.mp hneg)]
      simp only [hr, hquotient]
      rw [Int.one_mul, Int.one_mul]
      exact ⟨⟨lt_of_le_of_ne (not_lt.mp hneg) hdne.symm, hcoprime⟩, rfl⟩

theorem lowestTerms_eq_of_value (hr : r.d ≠ 0) (hs : s.d ≠ 0) (h : r.value = s.value) :
    r.lowestTerms = s.lowestTerms := by
  obtain ⟨hrlow, hrvalue⟩ := lowestTerms_spec hr
  obtain ⟨hslow, hsvalue⟩ := lowestTerms_spec hs
  exact hrlow.unique hslow (by rw [hrvalue, hsvalue, h])

theorem reduce_eq (hd : r.d ≠ 0) : r.reduce = .ok r.lowestTerms := if_neg hd

theorem reduce_ok (hd : r.d ≠ 0) (h : r.reduce = .ok s) : s.LowestTerms ∧ s.value = r.value := by
  rw [reduce_eq hd] at h
  exact Except.ok.inj h ▸ lowestTerms_spec hd

end Rational

/-- The order of two rationals with positive denominators. -/
def compareRational (a b : Rational) : Ordering :=
  let left := a.n * b.d
  let right := b.n * a.d
  if left < right then .lt else if right < left then .gt else .eq

def equalRational (a b : Rational) : Bool := compareRational a b == .eq

theorem compareRational_ne_lt {a b : Rational} :
    compareRational a b ≠ .lt ↔ b.n * a.d ≤ a.n * b.d := by
  rw [compareRational, ← not_lt]
  split_ifs with hlt hgt <;> simp [hlt]

theorem compareRational_ne_gt {a b : Rational} :
    compareRational a b ≠ .gt ↔ a.n * b.d ≤ b.n * a.d := by
  rw [compareRational]
  split_ifs with hlt hgt
  · simp [hlt.le]
  · simp [hgt]
  · simp [not_lt.mp hgt]

/-- How `parseDecimal` fails. -/
inductive DecimalError
  | nan | places

/-- A single comma counts as the point, where there is none. -/
def pointForComma (s : Text) : Text :=
  if !s.contains '.' && s.count ',' == 1 then s.replace ',' '.' else s

def parseDecimal (input : Text) (maxPlaces : ℕ) : Throws (Except DecimalError Rational) :=
  match decimalParts (pointForComma (JsText.trim input)) with
  | none => .ok (.error .nan)
  | some (whole, frac) =>
    if whole = [] ∧ frac = none then .ok (.error .nan)
    else
      let whole := if whole = [] then ['0'] else whole
      let frac := frac.getD []
      if maxPlaces < frac.length then .ok (.error .places)
      else (Rational.reduce ⟨digitsValue (whole ++ frac), 10 ^ frac.length⟩).map .ok

def longDivision (d : ℤ) (maxDigits : ℕ) (digits : Text) (rest : ℤ) : Text × ℤ :=
  if rest ≠ 0 ∧ digits.length < maxDigits then
    longDivision d maxDigits (digits ++ integerText ((rest * 10).tdiv d)) ((rest * 10).tmod d)
  else (digits, rest)
termination_by maxDigits - digits.length
decreasing_by
  have hsome : 0 < (integerText ((rest * 10).tdiv d)).length := length_integerText_pos _
  rw [List.length_append]
  omega

/-- The decimal form of a rational in lowest terms. -/
def formatLowestTerms (r : Rational) (maxFractionDigits : ℕ) : Text :=
  let divided := longDivision r.d maxFractionDigits [] (r.n.tmod r.d)
  let whole := integerText (r.n.tdiv r.d)
  let trimmed := trimZeros divided.1
  let body := if trimmed = [] then whole else whole ++ '.' :: trimmed
  if divided.2 = 0 then body else '≈' :: body

def formatRationalDecimal (r : Rational) (maxFractionDigits : ℕ) : Throws Text :=
  r.reduce.map fun reduced => formatLowestTerms reduced maxFractionDigits

def formatRationalPercent (r : Rational) : Throws Text :=
  (formatRationalDecimal ⟨r.n * 100, r.d⟩ 12).map (· ++ ['%'])

/-- Lovelace as ada with every digit that counts. -/
def formatLovelaceExact (lovelace : ℤ) : Text :=
  let whole := localeText (lovelace.tdiv 1000000)
  let frac := trimZeros (padStartZeros 6 (integerText (lovelace.tmod 1000000)))
  (if frac = [] then whole else whole ++ '.' :: frac) ++ [' ', '₳']

/-! ### The long division -/

/-- Where the long division of a proper fraction has got to. -/
structure Divided (q : ℚ) (d : ℤ) (maxDigits : ℕ) (digits : Text) (rest : ℤ) : Prop where
  isDigit : ∀ c ∈ digits, c.isDigit = true
  length_le : digits.length ≤ maxDigits
  rest_nonneg : 0 ≤ rest
  rest_lt : rest < d
  value : q * 10 ^ digits.length = digitsValue digits + rest / d

section

variable {q : ℚ} {d rest : ℤ} {maxDigits : ℕ} {digits : Text}

theorem Divided.step (h : Divided q d maxDigits digits rest) (hlength : digits.length < maxDigits) :
    Divided q d maxDigits (digits ++ integerText ((rest * 10).tdiv d)) ((rest * 10).tmod d) := by
  have hd : 0 < d := h.rest_nonneg.trans_lt h.rest_lt
  have hnonneg : 0 ≤ rest * 10 := by have := h.rest_nonneg; omega
  obtain ⟨digit, hdigit⟩ := Int.eq_ofNat_of_zero_le (Int.tdiv_nonneg hnonneg hd.le)
  have hdivmod : d * digit + (rest * 10).tmod d = rest * 10 := by
    rw [← hdigit, Int.mul_tdiv_add_tmod]
  have hrest : 0 ≤ (rest * 10).tmod d := Int.tmod_nonneg d hnonneg
  have hlt : digit < 10 := by
    have hrest_lt := h.rest_lt
    by_contra hge
    have : d * 10 ≤ d * digit := Int.mul_le_mul_of_nonneg_left (by omega) hd.le
    omega
  rw [hdigit, integerText_natCast]
  refine ⟨fun c hc => ?_, ?_, hrest, Int.tmod_lt_of_pos _ hd, ?_⟩
  · rcases List.mem_append.mp hc with hc | hc
    · exact h.isDigit c hc
    · exact isDigit_of_mem_decimal hc
  · rw [List.length_append, length_decimal_of_lt hlt]
    exact hlength
  · have hdq : (d : ℚ) ≠ 0 := by exact_mod_cast hd.ne'
    have hcast : (d : ℚ) * digit + ((rest * 10).tmod d : ℤ) = rest * 10 := by exact_mod_cast hdivmod
    rw [List.length_append, length_decimal_of_lt hlt, pow_succ, ← mul_assoc, h.value,
      digitsValue_append, length_decimal_of_lt hlt, digitsValue_decimal]
    push_cast
    field_simp
    linarith

theorem longDivision_spec (h : Divided q d maxDigits digits rest) :
    Divided q d maxDigits (longDivision d maxDigits digits rest).1
        (longDivision d maxDigits digits rest).2 ∧
      ((longDivision d maxDigits digits rest).2 = 0 ∨
        (longDivision d maxDigits digits rest).1.length = maxDigits) := by
  fun_induction longDivision d maxDigits digits rest with
  | case1 digits rest hmore ih => exact ih (h.step hmore.2)
  | case2 digits rest hdone =>
    refine ⟨h, ?_⟩
    by_cases hrest : rest = 0
    · exact .inl hrest
    · exact .inr (le_antisymm h.length_le (not_lt.mp fun hlt => hdone ⟨hrest, hlt⟩))

end

/-! ### Reading a decimal -/

/-- A decimal as it is written: with a point where there are digits to follow. -/
def decimalText (whole : ℕ) (frac : Text) : Text :=
  if frac = [] then decimal whole else decimal whole ++ '.' :: frac

section

variable {whole places : ℕ} {frac : Text}

theorem mem_decimalText {c : Char} (hfrac : ∀ c ∈ frac, c.isDigit = true)
    (hc : c ∈ decimalText whole frac) : c = '.' ∨ c.isDigit = true := by
  rw [decimalText] at hc
  split_ifs at hc
  · exact .inr (isDigit_of_mem_decimal hc)
  · rcases List.mem_append.mp hc with hc | hc
    · exact .inr (isDigit_of_mem_decimal hc)
    · exact (List.mem_cons.mp hc).imp_right (hfrac c)

theorem decimalParts_decimalText (hfrac : ∀ c ∈ frac, c.isDigit = true) :
    decimalParts (decimalText whole frac) =
      some (decimal whole, if frac = [] then none else some frac) := by
  have hwhole : ∀ c ∈ decimal whole, c.isDigit = true := fun _ => isDigit_of_mem_decimal
  rw [decimalText]
  split_ifs with hempty
  · exact decimalParts_whole hwhole
  · exact decimalParts_point hwhole hfrac hempty

theorem trim_decimalText (hfrac : ∀ c ∈ frac, c.isDigit = true) :
    JsText.trim (decimalText whole frac) = decimalText whole frac := by
  refine trim_eq_self fun c hc => ?_
  rcases mem_decimalText hfrac hc with rfl | hdigit
  · decide
  · exact isSpace_of_isDigit hdigit

theorem getD_fraction (frac : Text) : (if frac = [] then none else some frac).getD [] = frac := by
  split_ifs with hempty
  · exact hempty.symm
  · rfl

theorem parseDecimal_decimalText (hfrac : ∀ c ∈ frac, c.isDigit = true)
    (hplaces : frac.length ≤ places) :
    parseDecimal (decimalText whole frac) places =
      .ok (.ok (Rational.lowestTerms ⟨digitsValue (decimal whole ++ frac), 10 ^ frac.length⟩)) := by
  have hcomma : ',' ∉ decimalText whole frac := fun hmem => by
    rcases mem_decimalText hfrac hmem with h | h <;> cases h
  have hpoint : pointForComma (decimalText whole frac) = decimalText whole frac := by
    rw [pointForComma, List.count_eq_zero_of_not_mem hcomma]
    simp
  have hden : (10 : ℤ) ^ frac.length ≠ 0 := by positivity
  rw [parseDecimal, trim_decimalText hfrac, hpoint, decimalParts_decimalText hfrac]
  dsimp only
  rw [if_neg fun h => decimal_ne_nil whole h.1, if_neg (decimal_ne_nil whole), getD_fraction,
    if_neg (not_lt.mpr hplaces), Rational.reduce_eq hden]
  rfl

theorem value_decimal (whole : ℕ) (frac : Text) :
    Rational.value ⟨digitsValue (decimal whole ++ frac), 10 ^ frac.length⟩ =
      whole + digitsValue frac / 10 ^ frac.length := by
  rw [Rational.value, digitsValue_append, digitsValue_decimal]
  push_cast
  field_simp

end

/-! ### The printed form -/

/-- What the printed form of a rational owes. -/
structure PrintedRight (r : Rational) (maxFractionDigits : ℕ) (text : Text) : Prop where
  exact : '≈' ∉ text → ∀ places, maxFractionDigits ≤ places →
    parseDecimal text places = r.reduce.map .ok
  shortened : '≈' ∈ text → ∃ body v, text = '≈' :: body ∧
    (∀ places, maxFractionDigits ≤ places → parseDecimal body places = .ok (.ok v)) ∧
    v.value ≤ r.value ∧ r.value < v.value + 1 / 10 ^ maxFractionDigits ∧
    ∀ k ≤ maxFractionDigits, ∀ a : ℤ, r.value ≠ a / 10 ^ k
  tidy : '.' ∈ text → ∃ c ∈ text.getLast?, c ≠ '0' ∧ c ≠ '.'

theorem tidy_decimalText {whole : ℕ} {frac : Text} (hfrac : ∀ c ∈ frac, c.isDigit = true)
    (hlast : ∀ h : frac ≠ [], frac.getLast h ≠ '0') (hpoint : '.' ∈ decimalText whole frac) :
    ∃ c ∈ (decimalText whole frac).getLast?, c ≠ '0' ∧ c ≠ '.' := by
  by_cases hempty : frac = []
  · rw [decimalText, if_pos hempty] at hpoint
    cases isDigit_of_mem_decimal hpoint
  · refine ⟨frac.getLast hempty, ?_, hlast hempty, fun h => ?_⟩
    · rw [decimalText, if_neg hempty, List.getLast?_append, List.getLast?_cons_of_ne_nil hempty,
        List.getLast?_eq_getLast_of_ne_nil hempty]
      rfl
    · have hdigit := hfrac _ (List.getLast_mem hempty)
      rw [h] at hdigit
      cases hdigit

namespace Rational

variable {r : Rational} {maxFractionDigits : ℕ}

/-- The printed form of a rational that is not negative, by its whole part and its long division. -/
theorem formatLowestTerms_spec (h : r.LowestTerms) (hnonneg : 0 ≤ r.value)
    (maxFractionDigits : ℕ) :
    ∃ (whole : ℕ) (digits : Text) (rest : ℤ),
      formatLowestTerms r maxFractionDigits =
        (if rest = 0 then decimalText whole (trimZeros digits)
          else '≈' :: decimalText whole (trimZeros digits)) ∧
      Divided (r.value - whole) r.d maxFractionDigits digits rest ∧
      (rest = 0 ∨ digits.length = maxFractionDigits) := by
  have hd : (0 : ℚ) < r.d := by exact_mod_cast h.d_pos
  have hn : 0 ≤ r.n := by
    have hprod : (0 : ℚ) ≤ r.value * r.d := mul_nonneg hnonneg hd.le
    rw [value, div_mul_cancel₀ _ hd.ne'] at hprod
    exact_mod_cast hprod
  obtain ⟨whole, hwhole⟩ := Int.eq_ofNat_of_zero_le (Int.tdiv_nonneg hn h.d_pos.le)
  have hstart : Divided (r.value - whole) r.d maxFractionDigits [] (r.n.tmod r.d) := by
    refine ⟨by simp, Nat.zero_le _, Int.tmod_nonneg _ hn, Int.tmod_lt_of_pos _ h.d_pos, ?_⟩
    have hdivmod : (r.d : ℚ) * whole + (r.n.tmod r.d : ℤ) = r.n := by
      have := Int.mul_tdiv_add_tmod r.n r.d
      rw [hwhole] at this
      exact_mod_cast this
    have hzero : digitsValue [] = 0 := rfl
    rw [hzero, value, List.length_nil, pow_zero, mul_one, Nat.cast_zero, zero_add]
    field_simp
    linarith
  obtain ⟨hdivided, hend⟩ := longDivision_spec hstart
  refine ⟨whole, _, _, ?_, hdivided, hend⟩
  rw [formatLowestTerms, hwhole, integerText_natCast]
  rfl

theorem value_trimZeros (whole : ℕ) (digits : Text) :
    value ⟨digitsValue (decimal whole ++ trimZeros digits), 10 ^ (trimZeros digits).length⟩ =
      whole + digitsValue digits / 10 ^ digits.length := by
  have htrim : (digitsValue (trimZeros digits) : ℚ) * 10 ^ digits.length =
      digitsValue digits * 10 ^ (trimZeros digits).length := by
    exact_mod_cast digitsValue_trimZeros digits
  rw [value_decimal, add_right_inj, div_eq_div_iff (by positivity) (by positivity), htrim]

theorem ne_div_pow {q fraction : ℚ} {m k : ℕ} {printed : ℤ} (hfraction : 0 < fraction ∧ fraction < 1)
    (hq : q * 10 ^ m = printed + fraction) (hk : k ≤ m) (a : ℤ) : q ≠ a / 10 ^ k := by
  rintro rfl
  obtain ⟨j, rfl⟩ := Nat.exists_eq_add_of_le hk
  have hwhole : ((a * 10 ^ j : ℤ) : ℚ) = printed + fraction := by
    rw [← hq, pow_add]
    push_cast
    field_simp
  have hlow : printed < a * 10 ^ j := by
    have : (printed : ℚ) < (a * 10 ^ j : ℤ) := by rw [hwhole]; linarith [hfraction.1]
    exact_mod_cast this
  have hhigh : a * 10 ^ j < printed + 1 := by
    have : ((a * 10 ^ j : ℤ) : ℚ) < printed + 1 := by rw [hwhole]; linarith [hfraction.2]
    exact_mod_cast this
  omega

theorem printedRight {d rest : ℤ} {whole : ℕ} {digits : Text} (hd : r.d ≠ 0)
    (hdivided : Divided (r.value - whole) d maxFractionDigits digits rest)
    (hend : rest = 0 ∨ digits.length = maxFractionDigits) :
    PrintedRight r maxFractionDigits (if rest = 0 then decimalText whole (trimZeros digits)
      else '≈' :: decimalText whole (trimZeros digits)) := by
  have hfrac : ∀ c ∈ trimZeros digits, c.isDigit = true :=
    fun c hc => hdivided.isDigit c (mem_of_mem_trimZeros hc)
  have hmark : '≈' ∉ decimalText whole (trimZeros digits) := fun hmem => by
    rcases mem_decimalText hfrac hmem with h | h <;> cases h
  have htidy : '.' ∈ decimalText whole (trimZeros digits) →
      ∃ c ∈ (decimalText whole (trimZeros digits)).getLast?, c ≠ '0' ∧ c ≠ '.' :=
    tidy_decimalText hfrac fun h => getLast_trimZeros h
  have hlength : (trimZeros digits).length ≤ maxFractionDigits :=
    (List.rdropWhile_prefix _ _).length_le.trans hdivided.length_le
  have hden : (10 : ℤ) ^ (trimZeros digits).length ≠ 0 := by positivity
  have hpow : (0 : ℚ) < 10 ^ digits.length := by positivity
  have hprinted := value_trimZeros whole digits
  have hvalue := hdivided.value
  split_ifs with hrest
  · -- nothing is left over
    rw [hrest, Int.cast_zero, zero_div, add_zero] at hvalue
    refine ⟨fun _ places hplaces => ?_, fun h => absurd h hmark, htidy⟩
    rw [parseDecimal_decimalText hfrac (hlength.trans hplaces), reduce_eq hd,
      lowestTerms_eq_of_value hden hd (hprinted.trans ?_)]
    · rfl
    · rw [← hvalue, mul_div_cancel_right₀ _ hpow.ne']
      ring
  · have hfull : digits.length = maxFractionDigits := hend.resolve_left hrest
    have hdq : (0 : ℚ) < d := by exact_mod_cast hdivided.rest_nonneg.trans_lt hdivided.rest_lt
    have hpos : (0 : ℚ) < rest := by
      exact_mod_cast lt_of_le_of_ne hdivided.rest_nonneg (Ne.symm hrest)
    have hfraction : 0 < (rest : ℚ) / d ∧ (rest : ℚ) / d < 1 := by
      refine ⟨div_pos hpos hdq, (div_lt_one₀ hdq).mpr ?_⟩
      exact_mod_cast hdivided.rest_lt
    obtain ⟨-, hsame⟩ := lowestTerms_spec (r := ⟨_, _⟩) hden
    refine ⟨fun h => absurd List.mem_cons_self h, fun _ =>
      ⟨_, _, rfl, fun places hplaces => parseDecimal_decimalText hfrac (hlength.trans hplaces),
        ?_, ?_, ?_⟩, fun hpoint => ?_⟩
    · rw [hsame, hprinted, ← le_sub_iff_add_le', div_le_iff₀ hpow, hvalue]
      exact le_add_of_nonneg_right hfraction.1.le
    · rw [hsame, hprinted, ← hfull, add_assoc, ← add_div, ← sub_lt_iff_lt_add', lt_div_iff₀ hpow,
        hvalue]
      exact add_lt_add_right hfraction.2 _
    · have hsplit : r.value * 10 ^ maxFractionDigits =
          (whole * 10 ^ maxFractionDigits + digitsValue digits : ℤ) + (rest : ℚ) / d := by
        rw [hfull] at hvalue
        push_cast
        linarith
      exact fun k hk a => ne_div_pow hfraction hsplit hk a
    · -- the mark stands before the decimal
      have hbody : '.' ∈ decimalText whole (trimZeros digits) :=
        (List.mem_cons.mp hpoint).resolve_left (by decide)
      rw [List.getLast?_cons_of_ne_nil (List.ne_nil_of_mem hbody)]
      exact htidy hbody

/-- **The printed form.** Reducing gives the one form of coprime parts; without the mark the text
reads back as just that, and with it the text is the number cut off at the limit. -/
theorem formatRationalDecimal_right (hd : r.d ≠ 0) (hnonneg : 0 ≤ r.value)
    (maxFractionDigits : ℕ) :
    (∃ reduced : Rational, r.reduce = .ok reduced ∧
      ∀ s : Rational, s = reduced ↔ s.value = r.value ∧ s.LowestTerms) ∧
    ∃ text, formatRationalDecimal r maxFractionDigits = .ok text ∧
      PrintedRight r maxFractionDigits text := by
  obtain ⟨hlowest, hvalue⟩ := lowestTerms_spec hd
  refine ⟨⟨r.lowestTerms, reduce_eq hd, fun s => ⟨?_, fun ⟨hs, hslow⟩ => ?_⟩⟩,
    formatLowestTerms r.lowestTerms maxFractionDigits, ?_, ?_⟩
  · rintro rfl
    exact ⟨hvalue, hlowest⟩
  · exact hslow.unique hlowest (hs.trans hvalue.symm)
  · rw [formatRationalDecimal, reduce_eq hd]
    rfl
  · obtain ⟨whole, digits, rest, htext, hdivided, hend⟩ :=
      formatLowestTerms_spec hlowest (hvalue ▸ hnonneg) maxFractionDigits
    rw [htext]
    rw [hvalue] at hdivided
    exact printedRight hd hdivided hend

/-- Five thirds, to two digits and whole. -/
theorem formatRationalDecimal_right_thirds :
    formatRationalDecimal ⟨10, 6⟩ 2 = .ok "≈1.66".toList ∧
      ∃ text, formatRationalDecimal ⟨10, 6⟩ 2 = .ok text ∧ PrintedRight ⟨10, 6⟩ 2 text :=
  ⟨by decide +kernel,
    (formatRationalDecimal_right (by decide) (by norm_num [value]) 2).2⟩

end Rational

end DrepTalk
