import DrepTalk.Governance.ParamDefs
import DrepTalk.Governance.ParamValues

/-!
# The update of a parameter change

`src/lib/governance/paramUpdate.ts`: the values that are picked become the fields of the SDK's
update, and `parseParamUpdate` reads an update back; with it the site checks that a transaction
proposes nothing that the form does not offer.

**Exactness.** What is typed, passes the check and is put into the transaction is read back as the
same rationals (`paramUpdate_readsBack`). The SDK is a parameter: its classes keep what they are
given, where the ledger takes it.
-/

namespace DrepTalk

inductive SdkValue
  | undefined
  | bigint (n : ℤ)
  | number (x : ℚ)
  | interval (numerator denominator : ℤ)
  | other
  deriving DecidableEq

def SdkField.name : SdkField → String
  | .nOpt => "nOpt"
  | .poolPledgeInfluence => "poolPledgeInfluence"
  | .minPoolCost => "minPoolCost"
  | .expansionRate => "expansionRate"
  | .treasuryGrowthRate => "treasuryGrowthRate"
  | .adaPerUtxoByte => "adaPerUtxoByte"

abbrev SdkEntries := List (String × SdkValue)

structure Sdk where
  NonnegativeInterval : ℤ → ℤ → Throws SdkValue
  UnitInterval : ℤ → ℤ → Throws SdkValue
  ProtocolParamUpdate : SdkEntries → Throws SdkEntries

/-- The switch of `buildParamUpdate`, on reduced values. -/
def sdkValue (sdk : Sdk) (key : ParamKey) (v : Rational) : Throws SdkValue :=
  match (PARAM_DEFS key).sdkField with
  | .nOpt | .minPoolCost | .adaPerUtxoByte =>
    if v.d ≠ 1 then .error s!"{(PARAM_DEFS key).title} must be a whole number."
    else .ok (.bigint v.n)
  | .poolPledgeInfluence => sdk.NonnegativeInterval v.n v.d
  | .expansionRate | .treasuryGrowthRate => sdk.UnitInterval v.n v.d

/-- The loop of `buildParamUpdate`. Each parameter has a field of its own. -/
def updateFields (sdk : Sdk) (values : ParamValues) : List ParamKey → Throws SdkEntries
  | [] => .ok []
  | key :: rest =>
    match values key with
    | none => updateFields sdk values rest
    | some v =>
      v.reduce >>= fun reduced =>
        sdkValue sdk key reduced >>= fun value =>
          (updateFields sdk values rest).map (((PARAM_DEFS key).sdkField.name, value) :: ·)

def buildParamUpdate (sdk : Sdk) (values : ParamValues) : Throws SdkEntries :=
  updateFields sdk values PARAM_KEYS >>= fun fields =>
    if fields = [] then .error "A parameter change needs at least one parameter."
    else sdk.ProtocolParamUpdate fields

def rationalOf : SdkValue → Throws (Option Rational)
  | .bigint n => .ok (some ⟨n, 1⟩)
  | .number x => .ok (if isSafeInteger x then some ⟨x.num, 1⟩ else none)
  | .interval numerator denominator =>
    if 0 < denominator then (Rational.reduce ⟨numerator, denominator⟩).map some else .ok none
  | .undefined | .other => .ok none

/-- Why an update is not one that is offered. -/
inductive UpdateProblem
  | empty
  | foreignKey (field : String)
  | outOfRange (field : String)

/-- `BY_SDK_FIELD`. -/
def bySdkField (field : String) : Option ParamKey :=
  PARAM_KEYS.find? fun key => decide ((PARAM_DEFS key).sdkField.name = field)

/-- The value of an entry, if it may be offered. -/
def offeredValue (key : ParamKey) (value : SdkValue) : Throws (Option Rational) :=
  rationalOf value >>= fun
    | none => .ok none
    | some q => (checkParamValue key q none).map fun problem => if problem = none then some q else none

def isSetField (entry : String × SdkValue) : Bool :=
  entry.1 != "_tag" && decide (entry.2 ≠ .undefined)

/-- The loop of `parseParamUpdate`. -/
def parseEntries : SdkEntries → ParamValues → Throws (Except UpdateProblem ParamValues)
  | [], values => .ok (.ok values)
  | entry :: rest, values =>
    if !isSetField entry then parseEntries rest values
    else
      match bySdkField entry.1 with
      | none => .ok (.error (.foreignKey entry.1))
      | some key =>
        offeredValue key entry.2 >>= fun
          | none => .ok (.error (.outOfRange entry.1))
          | some q => parseEntries rest (Function.update values key (some q))

def isEmptyValues (values : ParamValues) : Bool := PARAM_KEYS.all fun key => (values key).isNone

def parseParamUpdate (update : SdkEntries) : Throws (Except UpdateProblem ParamValues) :=
  (parseEntries update fun _ => none).map fun parsed =>
    parsed.bind fun values => if isEmptyValues values then .error .empty else .ok values

/-! ### What the SDK keeps -/

/-- The values that the ledger takes for a field. -/
def SdkField.Takes : SdkField → SdkValue → Prop
  | .nOpt, .bigint n => 0 ≤ n ∧ n < 2 ^ 16
  | .minPoolCost, .bigint n | .adaPerUtxoByte, .bigint n => 0 ≤ n ∧ n < 2 ^ 64
  | .poolPledgeInfluence, .interval n d => 0 ≤ n ∧ n < 2 ^ 64 ∧ 0 < d ∧ d < 2 ^ 64
  | .expansionRate, .interval n d | .treasuryGrowthRate, .interval n d =>
    0 ≤ n ∧ n ≤ d ∧ 0 < d ∧ d < 2 ^ 64
  | _, _ => False

theorem SdkField.not_takes_undefined (field : SdkField) : ¬field.Takes .undefined := by
  cases field <;> exact id

/-- The classes keep what they are given, and add no field that is set. -/
structure Sdk.Keeps (sdk : Sdk) : Prop where
  nonnegativeInterval : ∀ n d, 0 ≤ n → n < 2 ^ 64 → 0 < d → d < 2 ^ 64 →
    sdk.NonnegativeInterval n d = .ok (.interval n d)
  unitInterval : ∀ n d, 0 ≤ n → n ≤ d → 0 < d → d < 2 ^ 64 →
    sdk.UnitInterval n d = .ok (.interval n d)
  protocolParamUpdate : ∀ fields : List (SdkField × SdkValue),
    (fields.map fun field => field.1).Nodup → (∀ field ∈ fields, field.1.Takes field.2) →
    ∃ update, sdk.ProtocolParamUpdate (fields.map fun field => (field.1.name, field.2)) = .ok update ∧
      (update.filter isSetField).Perm (fields.map fun field => (field.1.name, field.2))

/-- A value that was typed and passed the check. -/
structure Accepted (key : ParamKey) (v : Rational) : Prop where
  lowest : v.LowestTerms
  whole : (PARAM_DEFS key).input.Whole → v.d = 1
  small : v.d ≤ 10 ^ 6
  bounds : compareRational v (PARAM_DEFS key).min ≠ .lt ∧
    compareRational v (PARAM_DEFS key).max ≠ .gt

def fieldValue (key : ParamKey) (v : Rational) : SdkValue :=
  match (PARAM_DEFS key).sdkField with
  | .nOpt | .minPoolCost | .adaPerUtxoByte => .bigint v.n
  | .poolPledgeInfluence | .expansionRate | .treasuryGrowthRate => .interval v.n v.d

section

variable {sdk : Sdk} {key : ParamKey} {v : Rational} {values : ParamValues}

theorem Accepted.reduce (h : Accepted key v) : v.reduce = .ok v := by
  obtain ⟨hlowest, hvalue⟩ := Rational.lowestTerms_spec h.lowest.d_pos.ne'
  rw [Rational.reduce_eq h.lowest.d_pos.ne', hlowest.unique h.lowest hvalue]

theorem Accepted.takes (h : Accepted key v) :
    (PARAM_DEFS key).sdkField.Takes (fieldValue key v) := by
  have hpos := h.lowest.d_pos
  have hsmall := h.small
  have hlow := compareRational_ne_lt.mp h.bounds.1
  have hhigh := compareRational_ne_gt.mp h.bounds.2
  have hwhole := h.whole
  cases key with
  | k | minPoolCost | utxoCostPerByte =>
    specialize hwhole trivial
    simp only [PARAM_DEFS, hwhole] at hlow hhigh
    exact ⟨by omega, by omega⟩
  | a0 | rho | tau =>
    simp only [PARAM_DEFS] at hlow hhigh
    exact ⟨by omega, by omega, hpos, by omega⟩

theorem Accepted.sdkValue (hsdk : sdk.Keeps) (h : Accepted key v) :
    sdkValue sdk key v = .ok (fieldValue key v) := by
  have htakes := h.takes
  have hwhole := h.whole
  cases key with
  | k | minPoolCost | utxoCostPerByte => exact if_neg (not_not.mpr (hwhole trivial))
  | a0 =>
    obtain ⟨hn, hnsmall, hd, hdsmall⟩ := htakes
    exact hsdk.nonnegativeInterval _ _ hn hnsmall hd hdsmall
  | rho | tau =>
    obtain ⟨hn, hle, hd, hdsmall⟩ := htakes
    exact hsdk.unitInterval _ _ hn hle hd hdsmall

theorem Accepted.offeredValue (h : Accepted key v) :
    offeredValue key (fieldValue key v) = .ok (some v) := by
  have hrational : rationalOf (fieldValue key v) = .ok (some v) := by
    have hwhole := h.whole
    have hinterval : rationalOf (.interval v.n v.d) = .ok (some v) := by
      rw [rationalOf, if_pos h.lowest.d_pos, h.reduce]
      rfl
    cases key with
    | k | minPoolCost | utxoCostPerByte =>
      have hone : v = ⟨v.n, 1⟩ := by rw [← hwhole trivial]
      exact congrArg (fun q : Rational => Except.ok (some q)) hone.symm
    | a0 | rho | tau => exact hinterval
  rw [DrepTalk.offeredValue, hrational]
  change (checkParamValue key v none).map _ = _
  rw [checkParamValue_of_bounds h.bounds]
  rfl

def builtFields (values : ParamValues) (keys : List ParamKey) : List (SdkField × SdkValue) :=
  keys.filterMap fun key => (values key).map fun v => ((PARAM_DEFS key).sdkField, fieldValue key v)

theorem updateFields_eq (hsdk : sdk.Keeps) (h : ∀ key v, values key = some v → Accepted key v)
    (keys : List ParamKey) :
    updateFields sdk values keys =
      .ok ((builtFields values keys).map fun field => (field.1.name, field.2)) := by
  induction keys with
  | nil => rfl
  | cons key rest ih =>
    rw [updateFields, builtFields, List.filterMap_cons]
    cases hv : values key with
    | none => exact ih
    | some v =>
      have haccepted := h key v hv
      dsimp only
      rw [haccepted.reduce]
      change DrepTalk.sdkValue sdk key v >>= _ = _
      rw [haccepted.sdkValue hsdk, ih]
      rfl

/-! ### Reading an update back -/

theorem bySdkField_name (key : ParamKey) :
    bySdkField (PARAM_DEFS key).sdkField.name = some key := by
  cases key <;> decide

theorem fieldName_injective : Function.Injective fun key => (PARAM_DEFS key).sdkField.name := by
  intro key key' h
  cases key <;> cases key' <;> first | rfl | exact nomatch h

theorem isSetField_fieldValue (key : ParamKey) (v : Rational) :
    isSetField ((PARAM_DEFS key).sdkField.name, fieldValue key v) = true := by
  cases key <;> rfl

theorem parseEntries_eq {entries : SdkEntries} (init : ParamValues)
    (haccepted : ∀ key v, values key = some v → Accepted key v)
    (hentries : ∀ entry ∈ entries.filter isSetField, ∃ key v, values key = some v ∧
      entry = ((PARAM_DEFS key).sdkField.name, fieldValue key v)) :
    ∃ out, parseEntries entries init = .ok (.ok out) ∧ ∀ key, out key = values key ∨
      out key = init key ∧ ∀ v, ((PARAM_DEFS key).sdkField.name, fieldValue key v) ∉ entries := by
  induction entries generalizing init with
  | nil => exact ⟨init, rfl, fun key => .inr ⟨rfl, fun v => List.not_mem_nil⟩⟩
  | cons entry rest ih =>
    rw [parseEntries]
    cases hset : isSetField entry with
    | false =>
      -- a field that is not set cannot be one of those that were built
      rw [List.filter_cons_of_neg (by simp [hset])] at hentries
      obtain ⟨out, hout, hkeys⟩ := ih init hentries
      refine ⟨out, hout, fun key => (hkeys key).imp_right fun ⟨hsame, hnone⟩ =>
        ⟨hsame, fun v hmem => ?_⟩⟩
      rcases List.mem_cons.mp hmem with rfl | hmem
      · rw [isSetField_fieldValue] at hset
        cases hset
      · exact hnone v hmem
    | true =>
      rw [List.filter_cons_of_pos hset] at hentries
      obtain ⟨key, v, hv, rfl⟩ := hentries entry List.mem_cons_self
      obtain ⟨out, hout, hkeys⟩ := ih (Function.update init key (some v))
        fun entry hmem => hentries entry (List.mem_cons_of_mem _ hmem)
      refine ⟨out, ?_, fun key' => ?_⟩
      · dsimp only
        rw [bySdkField_name]
        dsimp only
        rw [(haccepted key v hv).offeredValue]
        exact hout
      · rcases hkeys key' with hsame | ⟨hsame, hnone⟩
        · exact .inl hsame
        · -- what the rest leaves alone is this field's parameter, or as it was before
          by_cases hkey : key' = key
          · subst hkey
            exact .inl (by rw [hsame, Function.update_self, hv])
          · refine .inr ⟨by rw [hsame, Function.update_of_ne hkey], fun v' hmem => ?_⟩
            rcases List.mem_cons.mp hmem with heq | hmem
            · exact hkey (fieldName_injective (congrArg Prod.fst heq))
            · exact hnone v' hmem

theorem mem_builtFields {keys : List ParamKey} {field : SdkField × SdkValue} :
    field ∈ builtFields values keys ↔ ∃ key v, key ∈ keys ∧ values key = some v ∧
      field = ((PARAM_DEFS key).sdkField, fieldValue key v) := by
  rw [builtFields, List.mem_filterMap]
  constructor
  · rintro ⟨key, hkey, h⟩
    obtain ⟨v, hv, rfl⟩ := Option.map_eq_some_iff.mp h
    exact ⟨key, v, hkey, hv, rfl⟩
  · rintro ⟨key, v, hkey, hv, rfl⟩
    exact ⟨key, hkey, by rw [hv]; rfl⟩

theorem builtFields_nodup {keys : List ParamKey} (hkeys : keys.Nodup) :
    ((builtFields values keys).map fun field => field.1).Nodup := by
  induction keys with
  | nil => exact List.nodup_nil
  | cons key rest ih =>
    obtain ⟨hkey, hrest⟩ := List.nodup_cons.mp hkeys
    rw [builtFields, List.filterMap_cons]
    cases hv : values key with
    | none => exact ih hrest
    | some v =>
      refine List.nodup_cons.mpr ⟨fun hmem => ?_, ih hrest⟩
      obtain ⟨field, hfield, hname⟩ := List.mem_map.mp hmem
      obtain ⟨key', v', hkey', -, rfl⟩ := mem_builtFields.mp hfield
      exact hkey (fieldName_injective (congrArg SdkField.name hname) ▸ hkey')

theorem buildParamUpdate_readsBack (hsdk : sdk.Keeps)
    (haccepted : ∀ key v, values key = some v → Accepted key v)
    (hsome : ∃ key v, values key = some v) :
    ∃ update, buildParamUpdate sdk values = .ok update ∧
      parseParamUpdate update = .ok (.ok values) := by
  obtain ⟨key₀, v₀, hv₀⟩ := hsome
  obtain ⟨update, hupdate, hperm⟩ := hsdk.protocolParamUpdate (builtFields values PARAM_KEYS)
    (builtFields_nodup (by decide)) (fun field hfield => by
      obtain ⟨key, v, -, hv, rfl⟩ := mem_builtFields.mp hfield
      exact (haccepted key v hv).takes)
  have hmem : ∀ entry, entry ∈ update.filter isSetField ↔ ∃ key v, values key = some v ∧
      entry = ((PARAM_DEFS key).sdkField.name, fieldValue key v) := by
    intro entry
    rw [hperm.mem_iff, List.mem_map]
    constructor
    · rintro ⟨field, hfield, rfl⟩
      obtain ⟨key, v, -, hv, rfl⟩ := mem_builtFields.mp hfield
      exact ⟨key, v, hv, rfl⟩
    · rintro ⟨key, v, hv, rfl⟩
      exact ⟨_, mem_builtFields.mpr ⟨key, v, mem_paramKeys key, hv, rfl⟩, rfl⟩
  refine ⟨update, ?_, ?_⟩
  · have hne : builtFields values PARAM_KEYS ≠ [] :=
      List.ne_nil_of_mem (mem_builtFields.mpr ⟨key₀, v₀, mem_paramKeys key₀, hv₀, rfl⟩)
    rw [buildParamUpdate, updateFields_eq hsdk haccepted]
    exact (if_neg (mt List.map_eq_nil_iff.mp hne)).trans hupdate
  · obtain ⟨out, hout, hkeys⟩ := parseEntries_eq (fun _ => none) haccepted
      fun entry hentry => (hmem entry).mp hentry
    have hvalues : out = values := by
      funext key
      rcases hkeys key with hsame | ⟨hnone, hmissing⟩
      · exact hsame
      · cases hv : values key with
        | none => exact hnone
        | some v =>
          exact absurd (List.mem_of_mem_filter ((hmem _).mpr ⟨key, v, hv, rfl⟩)) (hmissing v)
    have hfull : isEmptyValues values = false := by
      rw [isEmptyValues, List.all_eq_false]
      exact ⟨key₀, mem_paramKeys key₀, by simp [hv₀]⟩
    rw [parseParamUpdate, hout, hvalues]
    change Except.ok (if isEmptyValues values then _ else _) = _
    rw [hfull]
    rfl

/-- What is set of one parameter: what is typed for it, if anything is, reads as the value, and the
value passes the check. -/
def TypedAs (key : ParamKey) (current : Option Rational) : Option Text → Option Rational → Prop
  | none, value => value = none
  | some raw, value => ∃ v, value = some v ∧ parseParamInput key raw = .ok (.ok v) ∧
      checkParamValue key v current = .ok none

theorem accepted_of_typedAs {current : Option Rational} {typed : Option Text}
    (h : TypedAs key current typed (some v)) :
    Accepted key v ∧ ∃ raw ∈ typed, ∃ number,
      parseDecimal raw (PARAM_DEFS key).places = .ok (.ok number) ∧
        v.value = number.value * (PARAM_DEFS key).input.unit := by
  rcases typed with _ | raw
  · cases h
  · obtain ⟨v', hv, hparse, hcheck⟩ := h
    cases hv
    obtain ⟨hlowest, hwhole, number, hnumber⟩ := parseParamInput_spec hparse
    exact ⟨⟨hlowest, hwhole, d_le_of_parseParamInput hparse, bounds_of_checkParamValue hcheck⟩,
      raw, rfl, number, hnumber⟩

/-- **Exactness.** Values that are typed and pass the check are the decimals typed, scaled; they go
into the transaction and are read back from it and from a draft, as they are. -/
theorem paramUpdate_readsBack {typed : ParamKey → Option Text} {current : ParamValues}
    (hsdk : sdk.Keeps) (htyped : ∀ key, TypedAs key (current key) (typed key) (values key)) :
    (∀ key v, values key = some v → v.LowestTerms ∧ ∃ raw ∈ typed key, ∃ number,
        parseDecimal raw (PARAM_DEFS key).places = .ok (.ok number) ∧
          v.value = number.value * (PARAM_DEFS key).input.unit) ∧
      ((∃ key raw, typed key = some raw) → ∃ update, buildParamUpdate sdk values = .ok update ∧
        parseParamUpdate update = .ok (.ok values)) ∧
      valuesFromJson (some (valuesToJson values)) = .ok values := by
  have haccepted : ∀ key v, values key = some v → Accepted key v := fun key v hv =>
    (accepted_of_typedAs (hv ▸ htyped key)).1
  refine ⟨fun key v hv => ?_, fun ⟨key, raw, hraw⟩ => ?_,
    valuesFromJson_valuesToJson fun key v hv => (haccepted key v hv).lowest⟩
  · obtain ⟨h, hnumber⟩ := accepted_of_typedAs (hv ▸ htyped key)
    exact ⟨h.lowest, hnumber⟩
  · have hset := htyped key
    rw [hraw] at hset
    obtain ⟨v, hv, -⟩ := hset
    exact buildParamUpdate_readsBack hsdk haccepted ⟨key, v, hv⟩

end

/-! ### Two parameters -/

def sampleSdk : Sdk where
  NonnegativeInterval n d :=
    if 0 ≤ n ∧ 0 < d then .ok (.interval n d) else .error "not an interval"
  UnitInterval n d :=
    if 0 ≤ n ∧ n ≤ d ∧ 0 < d then .ok (.interval n d) else .error "not a unit interval"
  ProtocolParamUpdate fields := .ok (("_tag", .other) :: fields)

theorem sampleSdk_keeps : sampleSdk.Keeps where
  nonnegativeInterval _ _ hn _ hd _ := if_pos ⟨hn, hd⟩
  unitInterval _ _ hn hle hd _ := if_pos ⟨hn, hle, hd⟩
  protocolParamUpdate fields _ htakes := by
    refine ⟨_, rfl, ?_⟩
    rw [List.filter_cons_of_neg (by decide), List.filter_eq_self.mpr]
    intro entry hentry
    obtain ⟨⟨field, value⟩, hfield, rfl⟩ := List.mem_map.mp hentry
    have hvalue : value ≠ .undefined := by
      rintro rfl
      exact SdkField.not_takes_undefined field (htakes _ hfield)
    cases field <;> simp [isSetField, SdkField.name, hvalue]

/-- The number of pools, and the monetary expansion in percent. -/
def sampleTyped : ParamKey → Option Text
  | .k => some "800".toList
  | .rho => some " 0,35".toList
  | _ => none

def sampleValues : ParamValues
  | .k => some ⟨800, 1⟩
  | .rho => some ⟨7, 2000⟩
  | _ => none

theorem paramUpdate_readsBack_two : ∃ update, buildParamUpdate sampleSdk sampleValues = .ok update ∧
    parseParamUpdate update = .ok (.ok sampleValues) := by
  have htyped : ∀ key, TypedAs key ((fun _ => none : ParamValues) key) (sampleTyped key)
      (sampleValues key) := by
    intro key
    cases key with
    | k => exact ⟨⟨800, 1⟩, rfl, by decide +kernel, by decide +kernel⟩
    | rho => exact ⟨⟨7, 2000⟩, rfl, by decide +kernel, by decide +kernel⟩
    | a0 | minPoolCost | tau | utxoCostPerByte => exact rfl
  exact (paramUpdate_readsBack sampleSdk_keeps htyped).2.1
    ⟨.k, _, rfl⟩

end DrepTalk
