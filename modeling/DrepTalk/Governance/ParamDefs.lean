import DrepTalk.Format.Rational

/-!
# The parameters that may be changed

`src/lib/governance/paramDefs.ts`: the six parameters of the submit form as one table, with the
bounds of the constitution. What is typed is a plain decimal in the unit of its field, and is scaled
to the canonical unit (`parseParamInput`); it may go on chain if it is within the bounds and is a
change (`checkParamValue`). A draft keeps the values as JSON.

Nothing is rounded on the way (`parseParamInput_spec`).
-/

namespace DrepTalk

inductive ParamKey
  | k
  | a0
  | minPoolCost
  | rho
  | tau
  | utxoCostPerByte
  deriving DecidableEq

def PARAM_KEYS : List ParamKey := [.k, .a0, .minPoolCost, .rho, .tau, .utxoCostPerByte]

def ParamKey.name : ParamKey → String
  | .k => "k"
  | .a0 => "a0"
  | .minPoolCost => "minPoolCost"
  | .rho => "rho"
  | .tau => "tau"
  | .utxoCostPerByte => "utxoCostPerByte"

/-- `ParamValues`. -/
abbrev ParamValues := ParamKey → Option Rational

inductive SdkField
  | nOpt
  | poolPledgeInfluence
  | minPoolCost
  | expansionRate
  | treasuryGrowthRate
  | adaPerUtxoByte

inductive ParamInput
  | int
  | lovelace
  | decimal
  | ada
  | percent
  deriving DecidableEq

/-- `ParamDef`, by what a value is read and checked with. -/
structure ParamDef where
  sdkField : SdkField
  title : String
  input : ParamInput
  places : ℕ
  min : Rational
  max : Rational

def PARAM_DEFS : ParamKey → ParamDef
  | .k => ⟨.nOpt, "Target number of pools", .int, 0, ⟨250, 1⟩, ⟨2000, 1⟩⟩
  | .a0 => ⟨.poolPledgeInfluence, "Pledge influence", .decimal, 3, ⟨1, 10⟩, ⟨1, 1⟩⟩
  | .minPoolCost => ⟨.minPoolCost, "Minimum pool cost", .ada, 6, ⟨0, 1⟩, ⟨500000000, 1⟩⟩
  | .rho => ⟨.expansionRate, "Monetary expansion", .percent, 4, ⟨1, 1000⟩, ⟨5, 1000⟩⟩
  | .tau => ⟨.treasuryGrowthRate, "Treasury cut", .percent, 2, ⟨1, 10⟩, ⟨3, 10⟩⟩
  | .utxoCostPerByte =>
    ⟨.adaPerUtxoByte, "UTxO cost per byte", .lovelace, 0, ⟨3000, 1⟩, ⟨6500, 1⟩⟩

def fromTyped (paramDef : ParamDef) (typed : Rational) : Throws Rational :=
  match paramDef.input with
  | .ada => Rational.reduce ⟨typed.n * 1000000, typed.d⟩
  | .percent => Rational.reduce ⟨typed.n, typed.d * 100⟩
  | .int | .lovelace | .decimal => .ok typed

def wholeLovelace (paramDef : ParamDef) (value : Rational) : Except String Rational :=
  if paramDef.input = .ada ∧ value.d ≠ 1 then .error "Use at most 6 decimal places." else .ok value

/-- The sentence to show where a number cannot be read. -/
def parseMessage (paramDef : ParamDef) : DecimalError → String
  | .nan => "Enter a number."
  | .places =>
    if paramDef.places = 0 then "Enter a whole number."
    else s!"Use at most {paramDef.places} decimal places."

def parseParamInput (key : ParamKey) (raw : Text) : Throws (Except String Rational) :=
  parseDecimal raw (PARAM_DEFS key).places >>= fun
    | .error error => .ok (.error (parseMessage (PARAM_DEFS key) error))
    | .ok typed => (fromTyped (PARAM_DEFS key) typed).map (wholeLovelace (PARAM_DEFS key))

/-- A division of the language, which throws on zero. -/
def bigintQuotient (r : Rational) : Throws ℤ :=
  if r.d = 0 then .error "Division by zero" else .ok (r.n.tdiv r.d)

def formatParamValue (key : ParamKey) (value : Rational) : Throws Text :=
  match (PARAM_DEFS key).input with
  | .ada => (bigintQuotient value).map formatLovelaceExact
  | .percent => formatRationalPercent value
  | .lovelace => (bigintQuotient value).map fun n => localeText n ++ " lovelace/byte".toList
  | .int => (bigintQuotient value).map localeText
  | .decimal => formatRationalDecimal value 12

def boundsMessage (min max : Text) : String :=
  s!"The constitution allows {String.ofList min} to {String.ofList max}. " ++
    "The guardrails script would reject this action, so it cannot be submitted."

def checkParamValue (key : ParamKey) (value : Rational) (current : Option Rational) :
    Throws (Option String) :=
  let paramDef := PARAM_DEFS key
  if compareRational value paramDef.min = .lt ∨ compareRational value paramDef.max = .gt then
    formatParamValue key paramDef.min >>= fun min =>
      (formatParamValue key paramDef.max).map fun max => some (boundsMessage min max)
  else if current.any (equalRational value) = true then
    .ok (some s!"{paramDef.title} has the same value as now. Change it or remove it.")
  else .ok none

structure RationalJson where
  n : Text
  d : Text

/-- `ParamValuesJson`. -/
abbrev ParamValuesJson := ParamKey → Option RationalJson

def valuesToJson (values : ParamValues) : ParamValuesJson := fun key =>
  (values key).map fun v => ⟨integerText v.n, integerText v.d⟩

/-- A record with a value for each parameter that has one, filled in the order of the table. -/
def eachParam (value : ParamKey → Throws (Option Rational)) : Throws ParamValues :=
  PARAM_KEYS.foldlM (fun out key => (value key).map fun v => Function.update out key (v.or (out key)))
    fun _ => none

/-- What is read of one parameter of a draft. -/
def rationalFromJson (v : RationalJson) : Throws (Option Rational) :=
  if isIntegerText v.n && isDigits v.d && v.d != ['0'] then
    (Rational.reduce ⟨integerValue v.n, digitsValue v.d⟩).map some
  else .ok none

def valuesFromJson (json : Option ParamValuesJson) : Throws ParamValues :=
  eachParam fun key => ((json.bind fun values => values key).map rationalFromJson).getD (.ok none)

/-! ### What is typed -/

/-- What one typed stands for, in the canonical unit. -/
def ParamInput.unit : ParamInput → ℚ
  | .ada => 1000000
  | .percent => 1 / 100
  | .int | .lovelace | .decimal => 1

section

variable {key : ParamKey} {raw : Text} {v typed : Rational}

theorem parseDecimal_ok {places : ℕ} (h : parseDecimal raw places = .ok (.ok v)) :
    v.LowestTerms ∧ ∃ n k : ℕ, k ≤ places ∧ v.value = n / 10 ^ k := by
  rw [parseDecimal] at h
  rcases hparts : decimalParts (pointForComma (JsText.trim raw)) with _ | ⟨whole, frac⟩
  · rw [hparts] at h
    cases h
  · rw [hparts] at h
    dsimp only at h
    generalize (if whole = [] then ['0'] else whole) = digits at h
    split_ifs at h with hempty hplaces
    · cases h
    · cases h
    · obtain ⟨value, hreduce, hvalue⟩ := Throws.map_eq_ok h
      obtain rfl := Except.ok.inj hvalue
      have hden : (10 : ℤ) ^ (frac.getD []).length ≠ 0 := by positivity
      obtain ⟨hlowest, hsame⟩ := Rational.reduce_ok hden hreduce
      refine ⟨hlowest, digitsValue (digits ++ frac.getD []), (frac.getD []).length,
        not_lt.mp hplaces, hsame.trans ?_⟩
      rw [Rational.value]
      push_cast
      rfl

theorem fromTyped_ok {paramDef : ParamDef} (htyped : typed.LowestTerms)
    (h : fromTyped paramDef typed = .ok v) :
    v.LowestTerms ∧ v.value = typed.value * paramDef.input.unit := by
  have hd : typed.d ≠ 0 := htyped.d_pos.ne'
  rw [fromTyped] at h
  cases hinput : paramDef.input with
  | ada =>
    rw [hinput] at h
    obtain ⟨hlowest, hvalue⟩ := Rational.reduce_ok (r := ⟨typed.n * 1000000, typed.d⟩) hd h
    refine ⟨hlowest, hvalue.trans ?_⟩
    rw [Rational.value, Rational.value, ParamInput.unit]
    push_cast
    ring
  | percent =>
    rw [hinput] at h
    obtain ⟨hlowest, hvalue⟩ := Rational.reduce_ok (Int.mul_ne_zero hd (by decide)) h
    refine ⟨hlowest, hvalue.trans ?_⟩
    rw [Rational.value, Rational.value, ParamInput.unit]
    push_cast
    field_simp
  | int | lovelace | decimal =>
    rw [hinput] at h
    obtain rfl := Except.ok.inj h
    exact ⟨htyped, (mul_one _).symm⟩

/-- What a field that takes whole numbers may be. -/
def ParamInput.Whole : ParamInput → Prop
  | .int | .lovelace | .ada => True
  | .decimal | .percent => False

theorem places_eq_zero (key : ParamKey) (hwhole : (PARAM_DEFS key).input.Whole)
    (hada : (PARAM_DEFS key).input ≠ .ada) : (PARAM_DEFS key).places = 0 := by
  cases key with
  | k | utxoCostPerByte => rfl
  | minPoolCost => exact absurd rfl hada
  | a0 | rho | tau => exact hwhole.elim

theorem unit_eq_one (key : ParamKey) (hwhole : (PARAM_DEFS key).input.Whole)
    (hada : (PARAM_DEFS key).input ≠ .ada) : (PARAM_DEFS key).input.unit = 1 := by
  cases key with
  | k | utxoCostPerByte => rfl
  | minPoolCost => exact absurd rfl hada
  | a0 | rho | tau => exact hwhole.elim

/-- **Nothing is rounded.** What is read of a field is the decimal typed, scaled, in lowest terms. -/
theorem parseParamInput_spec (h : parseParamInput key raw = .ok (.ok v)) :
    v.LowestTerms ∧ ((PARAM_DEFS key).input.Whole → v.d = 1) ∧
      ∃ typed, parseDecimal raw (PARAM_DEFS key).places = .ok (.ok typed) ∧
        v.value = typed.value * (PARAM_DEFS key).input.unit := by
  rw [parseParamInput] at h
  rcases hparsed : parseDecimal raw (PARAM_DEFS key).places with thrown | error | typed
  · rw [hparsed] at h
    cases h
  · rw [hparsed] at h
    cases h
  · rw [hparsed] at h
    obtain ⟨htyped, n, k, hk, htypedValue⟩ := parseDecimal_ok hparsed
    obtain ⟨value, hvalue, hwhole⟩ := Throws.map_eq_ok h
    obtain ⟨hlowest, hscaled⟩ := fromTyped_ok htyped hvalue
    rw [wholeLovelace] at hwhole
    split_ifs at hwhole with hada
    obtain rfl := Except.ok.inj hwhole
    refine ⟨hlowest, fun hw => ?_, typed, rfl, hscaled⟩
    by_cases hinput : (PARAM_DEFS key).input = .ada
    · exact not_not.mp fun hne => hada ⟨hinput, hne⟩
    · -- no places: the value is what was typed, a whole number
      have hzero := places_eq_zero key hw hinput
      obtain rfl : k = 0 := Nat.le_zero.mp (hzero ▸ hk)
      have hunit : (PARAM_DEFS key).input.unit = 1 := unit_eq_one key hw hinput
      have hn : value.value = (n : ℤ) := by
        rw [hscaled, hunit, mul_one, htypedValue, pow_zero, div_one, Int.cast_natCast]
      rw [hlowest.eq, hn, Rat.den_intCast]
      rfl

theorem d_le_of_parseParamInput (h : parseParamInput key raw = .ok (.ok v)) : v.d ≤ 10 ^ 6 := by
  obtain ⟨hlowest, hwhole, typed, hparsed, hvalue⟩ := parseParamInput_spec h
  obtain ⟨-, n, k, hk, htyped⟩ := parseDecimal_ok hparsed
  have hdvd : ∀ m : ℤ, ∀ e : ℕ, v.value = m / 10 ^ e → e ≤ 6 → v.d ≤ 10 ^ 6 := by
    intro m e hm he
    have hcast : v.value = Rat.divInt m (10 ^ e) := by
      rw [hm, Rat.divInt_eq_div]
      push_cast
      rfl
    have hden : ((v.value.den : ℤ)) ∣ 10 ^ e := hcast ▸ Rat.den_dvd m (10 ^ e)
    rw [hlowest.eq]
    exact (Int.le_of_dvd (by positivity) hden).trans (pow_le_pow_right₀ (by decide) he)
  cases key with
  | k | minPoolCost | utxoCostPerByte =>
    rw [hwhole trivial]
    decide
  | a0 =>
    refine hdvd n k ?_ (hk.trans (by decide))
    rw [hvalue, htyped]
    exact mul_one _
  | rho | tau =>
    refine hdvd n (k + 2) ?_ (Nat.add_le_add_right (hk.trans (by decide)) 2)
    rw [hvalue, htyped]
    change _ * (1 / 100 : ℚ) = _
    rw [pow_add]
    push_cast
    field_simp
    norm_num

theorem bounds_of_checkParamValue {current : Option Rational}
    (h : checkParamValue key v current = .ok none) :
    compareRational v (PARAM_DEFS key).min ≠ .lt ∧ compareRational v (PARAM_DEFS key).max ≠ .gt := by
  rw [checkParamValue] at h
  split_ifs at h with hout hsame
  · rcases hmin : formatParamValue key (PARAM_DEFS key).min with thrown | min
    · rw [hmin] at h
      cases h
    · rw [hmin] at h
      obtain ⟨max, -, hmessage⟩ := Throws.map_eq_ok h
      cases hmessage
  · cases h
  · exact not_or.mp hout

theorem checkParamValue_of_bounds
    (h : compareRational v (PARAM_DEFS key).min ≠ .lt ∧
      compareRational v (PARAM_DEFS key).max ≠ .gt) : checkParamValue key v none = .ok none := by
  rw [checkParamValue]
  rw [if_neg (not_or.mpr h)]
  rfl

end

/-! ### Drafts -/

theorem mem_paramKeys (key : ParamKey) : key ∈ PARAM_KEYS := by
  cases key <;> decide

theorem eachParam_eq {value : ParamKey → Throws (Option Rational)} {out : ParamValues}
    (h : ∀ key, value key = .ok (out key)) : eachParam value = .ok out := by
  have hfold : ∀ (keys : List ParamKey) (init : ParamValues),
      keys.foldlM (fun out key => (value key).map fun v =>
          Function.update out key (v.or (out key))) init =
        .ok fun key => if key ∈ keys then (out key).or (init key) else init key := by
    intro keys
    induction keys with
    | nil => exact fun init => congrArg Except.ok (funext fun key => by simp)
    | cons first rest ih =>
      intro init
      rw [List.foldlM_cons, h first]
      refine (ih _).trans (congrArg Except.ok (funext fun key => ?_))
      by_cases hfirst : key = first
      · subst hfirst
        cases out key <;> simp
      · simp [hfirst]
  rw [eachParam, hfold]
  exact congrArg Except.ok (funext fun key => by simp [mem_paramKeys key])

theorem rationalFromJson_eq {v : Rational} (hv : v.LowestTerms) :
    rationalFromJson ⟨integerText v.n, integerText v.d⟩ = .ok (some v) := by
  obtain ⟨d, hd⟩ := Int.eq_ofNat_of_zero_le hv.d_pos.le
  have hne : v.d ≠ 0 := hv.d_pos.ne'
  have hzero : (decimal d != ['0']) = true := by
    rw [bne_iff_ne]
    intro h
    have hvalue := congrArg digitsValue h
    rw [digitsValue_decimal] at hvalue
    exact hne (by rw [hd, hvalue]; rfl)
  obtain ⟨hlowest, hvalue⟩ := Rational.lowestTerms_spec hne
  rw [rationalFromJson, isIntegerText_integerText, integerValue_integerText]
  rw [hd, integerText_natCast, isDigits_decimal, hzero, digitsValue_decimal, ← hd]
  simp only [Bool.and_self, if_true]
  rw [Rational.reduce_eq hne, hlowest.unique hv hvalue]
  rfl

/-- **The draft.** Values in lowest terms are read back as they were. -/
theorem valuesFromJson_valuesToJson {values : ParamValues}
    (h : ∀ key v, values key = some v → v.LowestTerms) :
    valuesFromJson (some (valuesToJson values)) = .ok values := by
  refine eachParam_eq fun key => ?_
  rw [Option.bind_some, valuesToJson]
  cases hv : values key with
  | none => rfl
  | some v => exact rationalFromJson_eq (h key v hv)

end DrepTalk
