import DrepTalk.Text.JsText
import Mathlib.Algebra.Order.Field.Rat
import Mathlib.Data.Finset.Card

/-!
# Native scripts

`src/lib/cardano/nativeScript.ts`, without its encoder: the script tree, the parser of its JSON, the
key hashes that occur in it, whether a set of signers satisfies it, and the figures shown beside
that.

**Numbers.** A threshold or a slot is a number of the language: a finite one, an infinity (which
`JSON.parse` makes of `1e400`) or not a number at all. A finite number is the rational that the
double stands for.

**Lower case.** What `toLowerCase` makes of letters outside ASCII is in the tables of the language.
The model takes the mapping as it comes, with two facts about it (`LowerCase`).

**Sets.** A set of the language remembers the order of insertion. Nothing here depends on it, so
sets are finite sets.
-/

namespace DrepTalk.Cardano

/-! ### Values of the language -/

inductive JsNumber
  | finite (q : ℚ)
  | infinite (negative : Bool)
  | nan

namespace JsNumber

/-- `Number.isInteger(x)`. -/
def isInteger : JsNumber → Bool
  | finite q => q.den == 1
  | infinite _ | nan => false

/-- `x < 0`. -/
def isNegative : JsNumber → Bool
  | finite q => decide (q < 0)
  | infinite negative => negative
  | nan => false

/-- `count >= x`. -/
def reachedBy : JsNumber → ℕ → Bool
  | finite q, count => decide (q ≤ count)
  | infinite negative, _ => negative
  | nan, _ => false

/-- Whether a number is a natural one. -/
def isNatural (x : JsNumber) : Bool := !x.isNegative && x.isInteger

/-- The natural number that a number is. -/
def toNat : JsNumber → ℕ
  | finite q => q.num.toNat
  | infinite _ | nan => 0

theorem isNatural_iff {x : JsNumber} : x.isNatural = true ↔ x = finite x.toNat := by
  cases x with
  | finite q =>
    simp only [isNatural, isNegative, isInteger, toNat, Bool.and_eq_true, Bool.not_eq_true',
      decide_eq_false_iff_not, not_lt, beq_iff_eq, finite.injEq]
    constructor
    · rintro ⟨hnonneg, hden⟩
      have hnum : ((q.num.toNat : ℕ) : ℤ) = q.num :=
        Int.toNat_of_nonneg (Rat.num_nonneg.mpr hnonneg)
      rw [← Int.cast_natCast, hnum]
      exact (Rat.den_eq_one_iff q).mp hden |>.symm
    · intro h
      rw [h]
      exact ⟨Nat.cast_nonneg _, Rat.den_natCast _⟩
  | infinite negative | nan => simp [isNatural, isInteger]

theorem isNatural_natCast (n : ℕ) : (finite n).isNatural = true := by
  simp [isNatural, isNegative, isInteger]

@[simp] theorem toNat_natCast (n : ℕ) : (finite n).toNat = n := by simp [toNat]

theorem reachedBy_natCast (n count : ℕ) : (finite n).reachedBy count = true ↔ n ≤ count := by
  simp [reachedBy]

theorem reachedBy_mono {x : JsNumber} {count count' : ℕ} (hle : count ≤ count')
    (h : x.reachedBy count = true) : x.reachedBy count' = true := by
  cases x with
  | finite q =>
    simp only [reachedBy, decide_eq_true_eq] at h ⊢
    exact h.trans (Nat.cast_le.mpr hle)
  | infinite negative => exact h
  | nan => exact h

end JsNumber

/-- `text.toLowerCase()`. -/
structure LowerCase where
  toLowerCase : Text → Text
  /-- In ASCII it maps letter by letter. -/
  ascii : ∀ text : Text, (∀ c ∈ text, c.toNat < 128) → toLowerCase text = text.map Char.toLower
  /-- What is in lower case stays. -/
  idem : ∀ text, toLowerCase (toLowerCase text) = toLowerCase text

theorem toLower_toLower (c : Char) : c.toLower.toLower = c.toLower := by
  have hnot : ¬(c.toLower.val ≥ 'A'.val ∧ c.toLower.val ≤ 'Z'.val) := by
    delta Char.toLower
    split <;> grind [UInt32.toNat_add, Char.toNat_val]
  exact dif_neg hnot

/-- The mapping that leaves everything outside ASCII as it is. -/
def asciiLower : LowerCase where
  toLowerCase text := text.map Char.toLower
  ascii _ _ := rfl
  idem text := by simp [Function.comp_def, toLower_toLower]

/-- A value that `JSON.parse` returns. -/
inductive ScriptJson
  | null
  | bool (b : Bool)
  | number (x : JsNumber)
  | string (s : String)
  | array (items : List ScriptJson)
  | object (fields : List (String × ScriptJson))

/-! ### Scripts and their parser -/

inductive NativeScript
  | sig (keyHash : Text)
  | all (scripts : List NativeScript)
  | any (scripts : List NativeScript)
  | atLeast (required : JsNumber) (scripts : List NativeScript)
  | before (slot : JsNumber)
  | after (slot : JsNumber)

/-- The class `[0-9a-f]`. -/
def isLowerHex (c : Char) : Bool :=
  let n := c.toNat
  (0x30 ≤ n && n ≤ 0x39) || (0x61 ≤ n && n ≤ 0x66)

/-- `KEYHASH_HEX.test(text)`. -/
def isKeyHashHex (text : Text) : Bool := decide (text.length = 56) && text.all isLowerHex

theorem toLower_of_isLowerHex {c : Char} (h : isLowerHex c = true) : c.toLower = c := by
  have hnot : ¬(c.val ≥ 'A'.val ∧ c.val ≤ 'Z'.val) := by
    simp only [isLowerHex, Bool.or_eq_true, Bool.and_eq_true, decide_eq_true_eq, Char.toNat] at h
    simp only [ge_iff_le, UInt32.le_iff_toNat_le]
    change ¬(65 ≤ c.val.toNat ∧ c.val.toNat ≤ 90)
    omega
  exact dif_neg hnot

theorem toLowerCase_of_isKeyHashHex (lc : LowerCase) {text : Text} (h : isKeyHashHex text = true) :
    lc.toLowerCase text = text := by
  have hhex : ∀ c ∈ text, isLowerHex c = true := by
    rw [isKeyHashHex, Bool.and_eq_true] at h
    exact List.all_eq_true.mp h.2
  have hascii : ∀ c ∈ text, c.toNat < 128 := by
    intro c hc
    have := hhex c hc
    simp only [isLowerHex, Bool.or_eq_true, Bool.and_eq_true, decide_eq_true_eq] at this
    omega
  rw [lc.ascii text hascii]
  calc text.map Char.toLower = text.map id :=
        List.map_congr_left fun c hc => toLower_of_isLowerHex (hhex c hc)
    _ = text := List.map_id text

section Parser

variable (lc : LowerCase)

/-- `typeof v.keyHash === 'string' ? v.keyHash.toLowerCase() : ''`. -/
def keyHashOf (fields : List (String × ScriptJson)) : Text :=
  match fields.lookup "keyHash" with
  | some (.string s) => lc.toLowerCase s.toList
  | _ => []

def numberField (name : String) (fields : List (String × ScriptJson)) : Option JsNumber :=
  match fields.lookup name with
  | some (.number x) => some x
  | _ => none

mutual

def parseNativeScriptJson : ScriptJson → Option NativeScript
  | .object fields =>
    match fields.lookup "type" with
    | some (.string type) =>
      if type = "sig" then
        if isKeyHashHex (keyHashOf lc fields) then some (.sig (keyHashOf lc fields)) else none
      else if type = "all" then (parseScripts fields).map .all
      else if type = "any" then (parseScripts fields).map .any
      else if type = "atLeast" then
        match parseScripts fields, numberField "required" fields with
        | some children, some required =>
          if required.isInteger then some (.atLeast required children) else none
        | _, _ => none
      else if type = "before" then (numberField "slot" fields).map .before
      else if type = "after" then (numberField "slot" fields).map .after
      else none
    | _ => none
  | _ => none

/-- `parseChildren(v.scripts)`. -/
def parseScripts : List (String × ScriptJson) → Option (List NativeScript)
  | [] => none
  | (name, value) :: fields => if name = "scripts" then parseChildren value else parseScripts fields

def parseChildren : ScriptJson → Option (List NativeScript)
  | .array items => parseItems items
  | _ => none

/-- The loop of `parseChildren`. -/
def parseItems : List ScriptJson → Option (List NativeScript)
  | [] => some []
  | item :: items =>
    match parseNativeScriptJson item, parseItems items with
    | some script, some scripts => some (script :: scripts)
    | _, _ => none

end

mutual

def collectSigKeyHashes : NativeScript → Finset Text → Finset Text
  | .sig keyHash, acc => insert (lc.toLowerCase keyHash) acc
  | .all scripts, acc | .any scripts, acc | .atLeast _ scripts, acc => collectFrom scripts acc
  | .before _, acc | .after _, acc => acc

/-- The loop of `collectSigKeyHashes`. -/
def collectFrom : List NativeScript → Finset Text → Finset Text
  | [], acc => acc
  | script :: scripts, acc => collectFrom scripts (collectSigKeyHashes script acc)

end

end Parser

/-! ### Satisfaction -/

mutual

def isNativeScriptSatisfied : NativeScript → Finset Text → Bool
  | .sig keyHash, signers => decide (keyHash ∈ signers)
  | .all scripts, signers => (satisfiedScripts scripts signers).all id
  | .any scripts, signers => (satisfiedScripts scripts signers).any id
  | .atLeast required scripts, signers =>
    required.reachedBy ((satisfiedScripts scripts signers).filter id).length
  | .before _, _ | .after _, _ => true

/-- `isNativeScriptSatisfied` of each script of a list. -/
def satisfiedScripts : List NativeScript → Finset Text → List Bool
  | [], _ => []
  | script :: scripts, signers =>
    isNativeScriptSatisfied script signers :: satisfiedScripts scripts signers

end

/-- `c.type === 'sig'`. -/
def NativeScript.isSig : NativeScript → Bool
  | .sig _ => true
  | _ => false

/-- What `satisfactionProgress` returns. -/
structure SatisfactionProgress where
  satisfied : Bool
  signedLeaves : ℕ
  totalLeaves : ℕ
  threshold : Option JsNumber

/-- The `flatThreshold` of `satisfactionProgress`. -/
def flatThreshold : NativeScript → Option JsNumber
  | .all scripts => if scripts.all NativeScript.isSig then some (.finite scripts.length) else none
  | .any scripts => if scripts.all NativeScript.isSig then some (.finite 1) else none
  | .atLeast required scripts => if scripts.all NativeScript.isSig then some required else none
  | _ => none

def satisfactionProgress (lc : LowerCase) (s : NativeScript) (signers : Finset Text) :
    SatisfactionProgress :=
  let leaves := collectSigKeyHashes lc s ∅
  { satisfied := isNativeScriptSatisfied s signers
    signedLeaves := (leaves.filter fun k => k ∈ signers).card
    totalLeaves := leaves.card
    threshold := flatThreshold s }

/-! ### What the parser lets through -/

mutual

/-- What the parser checks of a script: the key hashes are hexadecimal and in lower case, the
thresholds whole numbers. It says nothing of the slots. -/
def NativeScript.Parsed : NativeScript → Prop
  | .sig keyHash => isKeyHashHex keyHash = true
  | .all scripts | .any scripts => AllParsed scripts
  | .atLeast required scripts => required.isInteger = true ∧ AllParsed scripts
  | .before _ | .after _ => True

def AllParsed : List NativeScript → Prop
  | [] => True
  | script :: scripts => script.Parsed ∧ AllParsed scripts

end

variable {lc : LowerCase}

mutual

theorem parsed_of_parse (value : ScriptJson) {s : NativeScript}
    (h : parseNativeScriptJson lc value = some s) : s.Parsed := by
  cases value with
  | object fields =>
    rw [parseNativeScriptJson] at h
    split at h
    · split_ifs at h with _ hkey
      · cases h
        exact hkey
      · obtain ⟨children, hchildren, rfl⟩ := Option.map_eq_some_iff.mp h
        exact allParsed_of_parseScripts fields hchildren
      · obtain ⟨children, hchildren, rfl⟩ := Option.map_eq_some_iff.mp h
        exact allParsed_of_parseScripts fields hchildren
      · split at h
        · split_ifs at h with hint
          cases h
          exact ⟨hint, allParsed_of_parseScripts fields ‹_›⟩
        · cases h
      · obtain ⟨slot, -, rfl⟩ := Option.map_eq_some_iff.mp h
        trivial
      · obtain ⟨slot, -, rfl⟩ := Option.map_eq_some_iff.mp h
        trivial
    · cases h
  | null | bool _ | number _ | string _ | array _ => simp [parseNativeScriptJson] at h

theorem allParsed_of_parseScripts (fields : List (String × ScriptJson))
    {scripts : List NativeScript}
    (h : parseScripts lc fields = some scripts) : AllParsed scripts := by
  match fields with
  | [] => simp [parseScripts] at h
  | (name, value) :: fields =>
    rw [parseScripts] at h
    split_ifs at h
    · exact allParsed_of_parseChildren value h
    · exact allParsed_of_parseScripts fields h

theorem allParsed_of_parseChildren (value : ScriptJson) {scripts : List NativeScript}
    (h : parseChildren lc value = some scripts) : AllParsed scripts := by
  cases value with
  | array items =>
    rw [parseChildren] at h
    exact allParsed_of_parseItems items h
  | null | bool _ | number _ | string _ | object _ => simp [parseChildren] at h

theorem allParsed_of_parseItems (items : List ScriptJson) {scripts : List NativeScript}
    (h : parseItems lc items = some scripts) : AllParsed scripts := by
  cases items with
  | nil =>
    rw [parseItems, Option.some_inj] at h
    subst h
    trivial
  | cons item items =>
    rw [parseItems] at h
    split at h
    · cases h
      exact ⟨parsed_of_parse item ‹_›, allParsed_of_parseItems items ‹_›⟩
    · cases h

end

end DrepTalk.Cardano
