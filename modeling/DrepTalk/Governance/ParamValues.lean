import Mathlib.Data.Rat.Defs
import Mathlib.Data.String.Basic
import Mathlib.Data.List.Sort
import Mathlib.Algebra.Order.Group.Unbundled.Int

/-!
# Values of protocol parameters

The values of an `epoch_params` row as JSON (`src/lib/governance/paramLog.ts`), and the canonical
form in which they are compared: keys sorted, whole numbers as digit strings.

A number is the rational that a finite double stands for. The canonical form is a value, not its
text: `JSON.stringify` writes different ones differently, and `JSON.parse` reads back what it wrote.
For this the order of the keys does not matter, as long as it is fixed.
-/

namespace DrepTalk

inductive JsonValue
  | null
  | bool (b : Bool)
  | number (q : ℚ)
  | string (s : String)
  | array (items : List JsonValue)
  | object (fields : List (String × JsonValue))

namespace JsonValue

mutual

def same : JsonValue → JsonValue → Bool
  | .null, .null => true
  | .bool b, .bool c => b == c
  | .number q, .number r => decide (q = r)
  | .string s, .string t => s == t
  | .array items, .array items' => sameItems items items'
  | .object fields, .object fields' => sameFields fields fields'
  | _, _ => false

def sameItems : List JsonValue → List JsonValue → Bool
  | [], [] => true
  | v :: vs, w :: ws => same v w && sameItems vs ws
  | _, _ => false

def sameFields : List (String × JsonValue) → List (String × JsonValue) → Bool
  | [], [] => true
  | (k, v) :: rest, (l, w) :: rest' => k == l && (same v w && sameFields rest rest')
  | _, _ => false

end

mutual

theorem same_iff (v w : JsonValue) : same v w = true ↔ v = w := by
  cases v <;> cases w <;>
    simp [same, sameItems_iff, sameFields_iff]

theorem sameItems_iff (vs ws : List JsonValue) : sameItems vs ws = true ↔ vs = ws := by
  cases vs <;> cases ws <;> simp [sameItems, same_iff, sameItems_iff]

theorem sameFields_iff (vs ws : List (String × JsonValue)) :
    sameFields vs ws = true ↔ vs = ws := by
  rcases vs with _ | ⟨⟨k, v⟩, vs⟩ <;> rcases ws with _ | ⟨⟨l, w⟩, ws⟩ <;>
    simp [sameFields, same_iff, sameFields_iff, and_assoc]

end

instance : DecidableEq JsonValue := fun v w => decidable_of_iff _ (same_iff v w)

end JsonValue

def isSafeInteger (q : ℚ) : Bool := q.den == 1 && decide (|q.num| ≤ 2 ^ 53 - 1)

/-- An assignment to this key of a plain object sets its prototype, and no field. -/
def PROTO : String := "__proto__"

/-- The order of the fields of an object. -/
def fieldBefore (a b : String × JsonValue) : Prop := a.1 ≤ b.1

instance : DecidableRel fieldBefore := fun a b => inferInstanceAs (Decidable (a.1 ≤ b.1))

instance : Std.Total fieldBefore := ⟨fun a b => le_total a.1 b.1⟩

instance : IsTrans _ fieldBefore := ⟨fun _ _ _ hab hbc => le_trans (α := String) hab hbc⟩

mutual

def canonical : JsonValue → JsonValue
  | .null => .null
  | .number q => if isSafeInteger q then .string (toString q.num) else .number q
  | .string s => .string s
  | .array items => .array (canonicalItems items)
  | .object fields =>
    .object (((canonicalFields fields).filter (·.1 ≠ PROTO)).insertionSort fieldBefore)
  | .bool b => .bool b

def canonicalItems : List JsonValue → List JsonValue
  | [] => []
  | v :: vs => canonical v :: canonicalItems vs

def canonicalFields : List (String × JsonValue) → List (String × JsonValue)
  | [] => []
  | (k, v) :: rest => (k, canonical v) :: canonicalFields rest

end

def normalizeParamValue (v : JsonValue) : JsonValue := canonical v

example : normalizeParamValue (.number 2000000) = normalizeParamValue (.string "2000000") := by
  decide +kernel

theorem canonical_eq_null {v : JsonValue} : canonical v = .null ↔ v = .null := by
  cases v <;> simp only [canonical, reduceCtorEq]
  split_ifs <;> simp

theorem canonicalFields_eq_self {fields : List (String × JsonValue)}
    (h : ∀ p ∈ fields, canonical p.2 = p.2) : canonicalFields fields = fields := by
  induction fields with
  | nil => rfl
  | cons p fields ih =>
    obtain ⟨k, v⟩ := p
    rw [canonicalFields, h (k, v) List.mem_cons_self, ih fun q hq => h q (List.mem_cons_of_mem _ hq)]

mutual

theorem canonical_canonical (v : JsonValue) : canonical (canonical v) = canonical v := by
  cases v with
  | number q =>
    by_cases hq : isSafeInteger q = true
    · rw [canonical, if_pos hq, canonical]
    · rw [canonical, if_neg hq, canonical, if_neg hq]
  | array items => rw [canonical, canonical, canonicalItems_canonicalItems items]
  | object fields =>
    let sorted := ((canonicalFields fields).filter (·.1 ≠ PROTO)).insertionSort fieldBefore
    have hmem : ∀ p ∈ sorted, p ∈ canonicalFields fields ∧ p.1 ≠ PROTO := fun p hp => by
      simpa using (List.mem_insertionSort _).mp hp
    have hself : canonicalFields sorted = sorted := canonicalFields_eq_self fun p hp =>
      canonical_of_mem_canonicalFields fields p (hmem p hp).1
    have hfilter : sorted.filter (·.1 ≠ PROTO) = sorted :=
      List.filter_eq_self.mpr fun p hp => by simpa using (hmem p hp).2
    have hsort : sorted.insertionSort fieldBefore = sorted :=
      (List.pairwise_insertionSort fieldBefore _).insertionSort_eq
    rw [canonical]
    change JsonValue.object (((canonicalFields sorted).filter (·.1 ≠ PROTO)).insertionSort
      fieldBefore) = .object sorted
    rw [hself, hfilter, hsort]
  | _ => rfl

theorem canonicalItems_canonicalItems (vs : List JsonValue) :
    canonicalItems (canonicalItems vs) = canonicalItems vs := by
  cases vs with
  | nil => rfl
  | cons v vs =>
    rw [canonicalItems, canonicalItems, canonical_canonical v, canonicalItems_canonicalItems vs]

theorem canonical_of_mem_canonicalFields (fields : List (String × JsonValue))
    (p : String × JsonValue) (hp : p ∈ canonicalFields fields) : canonical p.2 = p.2 := by
  rcases fields with _ | ⟨⟨k, v⟩, fields⟩
  · cases hp
  · rw [canonicalFields] at hp
    rcases List.mem_cons.mp hp with rfl | hp
    · exact canonical_canonical v
    · exact canonical_of_mem_canonicalFields fields p hp

end

end DrepTalk
