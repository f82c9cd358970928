import Mathlib.Algebra.Order.Field.Rat

/-!
# Updates of the committee

`validateCommitteeUpdate` of `src/lib/governance/committeeUpdate.ts`: the rules for the members that
are added and removed, for the quorum, and that the proposal changes something. The committee that
a proposal meets is known in enacted mode only.

**A change** is looked for in the lists and in how the quorum is written. So a member who is added
again with the expiry it has counts as one, and 4/6 for 2/3 (`not_committeeUpdateRight`); these are
all the proposals that pass and change nothing (`committeeUpdateRight_iff`).
-/

namespace DrepTalk

structure ColdCredential where
  hashHex : String
  isScript : Bool
  deriving DecidableEq

structure CurrentMember where
  credential : ColdCredential
  expirationEpoch : Option ℚ

structure AddedMember where
  credential : ColdCredential
  expiryEpoch : ℚ
  deriving DecidableEq

/-- The `Quorum` of a proposal. -/
@[ext]
structure QuorumFraction where
  numerator : ℚ
  denominator : ℚ
  deriving DecidableEq

structure CommitteeUpdate where
  remove : List ColdCredential
  add : List AddedMember
  quorum : QuorumFraction
  deriving DecidableEq

/-- `ValidationError` and `ValidationWarning`. -/
structure ValidationNote where
  field : String
  message : String
  deriving DecidableEq

inductive UpdateMode
  | enacted
  | opened
  deriving DecidableEq

/-- `ValidateCommitteeUpdateInput`. -/
structure CommitteeUpdateInput where
  mode : UpdateMode
  epoch : ℚ
  maxTermLength : Option ℚ
  current : List CurrentMember
  remove : List ColdCredential
  add : List AddedMember
  quorum : Option QuorumFraction
  currentQuorum : Option QuorumFraction

def isNonNegativeInteger (n : ℚ) : Prop := n.den = 1 ∧ 0 ≤ n

def isPositiveInteger (n : ℚ) : Prop := n.den = 1 ∧ 0 < n

instance decidableIsNonNegativeInteger (n : ℚ) : Decidable (isNonNegativeInteger n) :=
  inferInstanceAs (Decidable (_ ∧ _))

instance decidableIsPositiveInteger (n : ℚ) : Decidable (isPositiveInteger n) :=
  inferInstanceAs (Decidable (_ ∧ _))

def quorumsEqual (a b : QuorumFraction) : Bool :=
  decide (a.numerator = b.numerator) && decide (a.denominator = b.denominator)

section

variable (toLowerCase : String → String)

def credentialKey (c : ColdCredential) : String := s!"{toLowerCase c.hashHex}:{c.isScript}"

/-- `currentByKey`: of members with one key, the last. -/
def currentByKey (current : List CurrentMember) (key : String) : Option CurrentMember :=
  current.reverse.find? fun member => decide (credentialKey toLowerCase member.credential = key)

def expiryErrors (input : CommitteeUpdateInput) (i : ℕ) (entry : AddedMember) :
    List ValidationNote :=
  if entry.expiryEpoch ≤ input.epoch then
    [⟨s!"add[{i}].expiryEpoch", "expiry epoch must be after the current epoch"⟩]
  else if input.maxTermLength.any fun max => decide (input.epoch + max < entry.expiryEpoch) then
    [⟨s!"add[{i}].expiryEpoch", "expiry epoch is beyond the maximum committee term, " ++
      "the action could pass the vote and still never ratify"⟩]
  else []

/-- The loop over the members that are added, with the keys of those before. -/
def addErrors (input : CommitteeUpdateInput) :
    ℕ → List String → List AddedMember → List ValidationNote
  | _, _, [] => []
  | i, seenAddKeys, entry :: rest =>
    let key := credentialKey toLowerCase entry.credential
    expiryErrors input i entry ++
      (if key ∈ input.remove.map (credentialKey toLowerCase) then
        [⟨s!"add[{i}].credential", "credential is in both the add and remove lists"⟩] else []) ++
      (if key ∈ seenAddKeys then
        [⟨s!"add[{i}].credential", "credential is listed more than once in add"⟩] else []) ++
      addErrors input (i + 1) (key :: seenAddKeys) rest

def addKeys (input : CommitteeUpdateInput) : List String :=
  input.add.map fun entry => credentialKey toLowerCase entry.credential

def removeError (input : CommitteeUpdateInput) (i : ℕ) (c : ColdCredential) : List ValidationNote :=
  let key := credentialKey toLowerCase c
  (if key ∈ addKeys toLowerCase input then
    [⟨s!"remove[{i}]", "credential is in both the add and remove lists"⟩] else []) ++
  (if input.mode = .enacted ∧ currentByKey toLowerCase input.current key = none then
    [⟨s!"remove[{i}]", "credential is not a current committee member"⟩] else [])

def removeErrors (input : CommitteeUpdateInput) : ℕ → List ColdCredential → List ValidationNote
  | _, [] => []
  | i, c :: rest => removeError toLowerCase input i c ++ removeErrors input (i + 1) rest

def quorumErrors : Option QuorumFraction → List ValidationNote
  | none => [⟨"quorum.numerator", "quorum is required"⟩]
  | some ⟨numerator, denominator⟩ =>
    (if ¬isNonNegativeInteger numerator then
      [⟨"quorum.numerator", "quorum numerator must be a non-negative integer"⟩] else []) ++
    (if ¬isPositiveInteger denominator then
      [⟨"quorum.denominator", "quorum denominator must be a positive integer"⟩] else []) ++
    (if isNonNegativeInteger numerator ∧ isPositiveInteger denominator ∧
        denominator < numerator then
      [⟨"quorum.numerator", "quorum numerator cannot exceed the denominator"⟩] else [])

def quorumChanged (input : CommitteeUpdateInput) : Bool :=
  input.quorum.any fun quorum => !input.currentQuorum.any (quorumsEqual quorum)

def fieldErrors (input : CommitteeUpdateInput) : List ValidationNote :=
  addErrors toLowerCase input 0 [] input.add ++ removeErrors toLowerCase input 0 input.remove ++
    quorumErrors input.quorum

def validationErrors (input : CommitteeUpdateInput) : List ValidationNote :=
  let errors := fieldErrors toLowerCase input
  if input.mode = .enacted ∧ (input.add = [] ∧ input.remove = []) ∧ quorumChanged input = false ∧
      errors = [] then
    errors ++ [⟨"changes", "nothing to change"⟩]
  else errors

def addWarnings (input : CommitteeUpdateInput) : ℕ → List AddedMember → List ValidationNote
  | _, [] => []
  | i, entry :: rest =>
    (if input.mode = .enacted ∧ (currentByKey toLowerCase input.current
        (credentialKey toLowerCase entry.credential)).isSome then
      [⟨s!"add[{i}].credential",
        "credential is already a current committee member, this extends its term"⟩] else []) ++
    addWarnings input (i + 1) rest

/-- A quorum is there once there are no errors. -/
def validateCommitteeUpdate (input : CommitteeUpdateInput) :
    Except (List ValidationNote) (CommitteeUpdate × List ValidationNote) :=
  match input.quorum, validationErrors toLowerCase input with
  | some quorum, [] =>
    .ok (⟨input.remove, input.add, quorum⟩, addWarnings toLowerCase input 0 input.add)
  | _, errors => .error errors

/-! ### What a proposal does -/

def committeeTerms (current : List CurrentMember) : String → Option (Option ℚ) := fun key =>
  (currentByKey toLowerCase current key).map (·.expirationEpoch)

/-- The committee with the removed members removed, and then the added ones set. -/
def applyUpdate (terms : String → Option (Option ℚ)) (update : CommitteeUpdate) :
    String → Option (Option ℚ) :=
  update.add.foldl
    (fun terms entry =>
      Function.update terms (credentialKey toLowerCase entry.credential) (some entry.expiryEpoch))
    fun key => if key ∈ update.remove.map (credentialKey toLowerCase) then none else terms key

def QuorumFraction.share (quorum : QuorumFraction) : ℚ := quorum.numerator / quorum.denominator

/-- The update changes the committee, or the quorum. -/
def ChangesCommittee (input : CommitteeUpdateInput) (update : CommitteeUpdate) : Prop :=
  applyUpdate toLowerCase (committeeTerms toLowerCase input.current) update ≠
      committeeTerms toLowerCase input.current ∨
    some update.quorum.share ≠ input.currentQuorum.map QuorumFraction.share

/-- What the fields of a proposal owe. -/
structure WellFormedUpdate (input : CommitteeUpdateInput) : Prop where
  addOnce : (addKeys toLowerCase input).Nodup
  disjoint : ∀ key ∈ addKeys toLowerCase input,
    key ∉ input.remove.map (credentialKey toLowerCase)
  expiry : ∀ entry ∈ input.add, input.epoch < entry.expiryEpoch ∧
    ∀ max ∈ input.maxTermLength, entry.expiryEpoch ≤ input.epoch + max
  quorum : ∃ quorum ∈ input.quorum, isNonNegativeInteger quorum.numerator ∧
    isPositiveInteger quorum.denominator ∧ quorum.numerator ≤ quorum.denominator
  members : input.mode = .enacted → ∀ c ∈ input.remove,
    (currentByKey toLowerCase input.current (credentialKey toLowerCase c)).isSome = true

structure CommitteeUpdateRight (input : CommitteeUpdateInput) : Prop where
  changes : input.mode = .enacted → ∀ update warnings,
    validateCommitteeUpdate toLowerCase input = .ok (update, warnings) →
      ChangesCommittee toLowerCase input update
  wellFormed : ∀ update warnings,
    validateCommitteeUpdate toLowerCase input = .ok (update, warnings) →
      WellFormedUpdate toLowerCase input

/-- Nobody is removed, those who are added have just the expiry that they are given, and the quorum
is the one in force; but somebody is added, or that quorum is written differently. -/
structure Restates (input : CommitteeUpdateInput) : Prop where
  remove : input.remove = []
  add : ∀ entry ∈ input.add,
    committeeTerms toLowerCase input.current (credentialKey toLowerCase entry.credential) =
      some (some entry.expiryEpoch)
  quorum : input.quorum.map QuorumFraction.share = input.currentQuorum.map QuorumFraction.share
  written : input.add ≠ [] ∨ input.quorum ≠ input.currentQuorum

variable {toLowerCase} {input : CommitteeUpdateInput}

/-! ### The errors of the fields -/

variable {i : ℕ} {entry : AddedMember} {entries : List AddedMember}

theorem expiryErrors_eq_nil :
    expiryErrors input i entry = [] ↔ input.epoch < entry.expiryEpoch ∧
      ∀ max ∈ input.maxTermLength, entry.expiryEpoch ≤ input.epoch + max := by
  rw [expiryErrors]
  rcases input.maxTermLength with _ | max
  · by_cases hpast : entry.expiryEpoch ≤ input.epoch
    · simp [hpast]
    · simp [hpast, not_le.mp hpast]
  · by_cases hpast : entry.expiryEpoch ≤ input.epoch
    · simp [hpast]
    · by_cases hfar : input.epoch + max < entry.expiryEpoch
      · simp [hpast, hfar]
      · simp [hpast, hfar, not_le.mp hpast, not_lt.mp hfar]

theorem addErrors_eq_nil {seen : List String} :
    addErrors toLowerCase input i seen entries = [] ↔
      (∀ entry ∈ entries, (input.epoch < entry.expiryEpoch ∧
        ∀ max ∈ input.maxTermLength, entry.expiryEpoch ≤ input.epoch + max) ∧
        credentialKey toLowerCase entry.credential ∉
          input.remove.map (credentialKey toLowerCase)) ∧
      (entries.map fun entry => credentialKey toLowerCase entry.credential).Nodup ∧
      ∀ entry ∈ entries, credentialKey toLowerCase entry.credential ∉ seen := by
  induction entries generalizing i seen with
  | nil => simp [addErrors]
  | cons entry rest ih =>
    rw [addErrors]
    rw [List.append_eq_nil_iff, List.append_eq_nil_iff, List.append_eq_nil_iff,
      expiryErrors_eq_nil, ih, ite_eq_right_iff, ite_eq_right_iff, List.map_cons, List.nodup_cons]
    simp only [List.forall_mem_cons]
    simp only [List.cons_ne_nil, imp_false, List.mem_cons, not_or]
    constructor
    · rintro ⟨⟨⟨hexpiry, hremove⟩, hseen⟩, hrest, hnodup, hfresh⟩
      refine ⟨⟨⟨hexpiry, hremove⟩, hrest⟩, ⟨fun hmem => ?_, hnodup⟩, hseen,
        fun e he => (hfresh e he).2⟩
      obtain ⟨e, he, heq⟩ := List.mem_map.mp hmem
      exact (hfresh e he).1 heq
    · rintro ⟨⟨⟨hexpiry, hremove⟩, hrest⟩, ⟨hhead, hnodup⟩, hseen, hfresh⟩
      exact ⟨⟨⟨hexpiry, hremove⟩, hseen⟩, hrest, hnodup, fun e he =>
        ⟨fun heq => hhead (List.mem_map.mpr ⟨e, he, heq⟩), hfresh e he⟩⟩

theorem removeErrors_eq_nil {cs : List ColdCredential} :
    removeErrors toLowerCase input i cs = [] ↔ ∀ c ∈ cs,
      credentialKey toLowerCase c ∉ addKeys toLowerCase input ∧ (input.mode = .enacted →
        (currentByKey toLowerCase input.current (credentialKey toLowerCase c)).isSome = true) := by
  induction cs generalizing i with
  | nil => simp [removeErrors]
  | cons c rest ih =>
    rw [removeErrors, List.append_eq_nil_iff, ih, List.forall_mem_cons]
    refine and_congr_left fun _ => ?_
    rw [removeError, List.append_eq_nil_iff, ite_eq_right_iff, ite_eq_right_iff]
    simp only [List.cons_ne_nil, imp_false, not_and, Option.isSome_iff_ne_none]

theorem quorumErrors_eq_nil {quorum : Option QuorumFraction} :
    quorumErrors quorum = [] ↔ ∃ q ∈ quorum, isNonNegativeInteger q.numerator ∧
      isPositiveInteger q.denominator ∧ q.numerator ≤ q.denominator := by
  rcases quorum with _ | ⟨numerator, denominator⟩
  · simp [quorumErrors]
  · rw [quorumErrors, List.append_eq_nil_iff, List.append_eq_nil_iff, ite_eq_right_iff,
      ite_eq_right_iff, ite_eq_right_iff]
    simp only [List.cons_ne_nil, imp_false, not_not, not_and, not_lt, Option.mem_def,
      Option.some.injEq, exists_eq_left']
    exact ⟨fun ⟨⟨hn, hd⟩, hle⟩ => ⟨hn, hd, hle hn hd⟩, fun ⟨hn, hd, hle⟩ =>
      ⟨⟨hn, hd⟩, fun _ _ => hle⟩⟩

theorem fieldErrors_eq_nil :
    fieldErrors toLowerCase input = [] ↔ WellFormedUpdate toLowerCase input := by
  rw [fieldErrors, List.append_eq_nil_iff, List.append_eq_nil_iff, addErrors_eq_nil,
    removeErrors_eq_nil, quorumErrors_eq_nil]
  constructor
  · rintro ⟨⟨⟨hadd, hnodup, -⟩, hremove⟩, hquorum⟩
    refine ⟨hnodup, fun key hkey => ?_, fun entry he => (hadd entry he).1, hquorum,
      fun hmode c hc => (hremove c hc).2 hmode⟩
    obtain ⟨entry, he, rfl⟩ := List.mem_map.mp hkey
    exact (hadd entry he).2
  · intro h
    refine ⟨⟨⟨fun entry he => ⟨h.expiry entry he, ?_⟩, h.addOnce, fun _ _ => List.not_mem_nil⟩,
      fun c hc => ⟨fun hkey => ?_, fun hmode => h.members hmode c hc⟩⟩, h.quorum⟩
    · exact h.disjoint _ (List.mem_map.mpr ⟨entry, he, rfl⟩)
    · exact h.disjoint _ hkey (List.mem_map.mpr ⟨c, hc, rfl⟩)

/-! ### What passes -/

theorem quorumsEqual_iff {a b : QuorumFraction} : quorumsEqual a b = true ↔ a = b := by
  rw [quorumsEqual, Bool.and_eq_true, decide_eq_true_iff, decide_eq_true_iff]
  exact QuorumFraction.ext_iff.symm

theorem quorumChanged_eq_false {quorum : QuorumFraction} (hquorum : input.quorum = some quorum) :
    quorumChanged input = false ↔ input.currentQuorum = some quorum := by
  rw [quorumChanged, hquorum, Option.any_some, Bool.not_eq_false']
  rcases input.currentQuorum with _ | current
  · simp
  · rw [Option.any_some, quorumsEqual_iff, Option.some.injEq, eq_comm]

/-- No list has an entry, and the quorum is written as it is. -/
def NothingToChange (input : CommitteeUpdateInput) : Prop :=
  (input.add = [] ∧ input.remove = []) ∧ quorumChanged input = false

theorem validationErrors_eq_nil :
    validationErrors toLowerCase input = [] ↔ WellFormedUpdate toLowerCase input ∧
      (input.mode = .enacted → ¬NothingToChange input) := by
  rw [validationErrors, ← fieldErrors_eq_nil]
  split_ifs with hnothing
  · obtain ⟨hmode, hlists, hquorum, -⟩ := hnothing
    simp only [List.append_eq_nil_iff, List.cons_ne_nil, and_false, false_iff, not_and]
    exact fun _ h => h hmode ⟨hlists, hquorum⟩
  · refine ⟨fun h => ⟨h, fun hmode ⟨hlists, hquorum⟩ => hnothing ⟨hmode, hlists, hquorum, h⟩⟩,
      fun h => h.1⟩

theorem validateCommitteeUpdate_eq_ok {update : CommitteeUpdate} {warnings : List ValidationNote} :
    validateCommitteeUpdate toLowerCase input = .ok (update, warnings) ↔
      (WellFormedUpdate toLowerCase input ∧ (input.mode = .enacted → ¬NothingToChange input)) ∧
      (∃ quorum, input.quorum = some quorum ∧ update = ⟨input.remove, input.add, quorum⟩) ∧
      warnings = addWarnings toLowerCase input 0 input.add := by
  rw [validateCommitteeUpdate, ← validationErrors_eq_nil]
  rcases input.quorum with _ | quorum
  · simp
  · rcases validationErrors toLowerCase input with _ | ⟨error, errors⟩
    · simp [eq_comm]
    · simp

/-! ### What a proposal changes -/

theorem foldl_terms_of_notMem {key : String}
    (h : key ∉ entries.map fun entry => credentialKey toLowerCase entry.credential)
    (terms : String → Option (Option ℚ)) :
    entries.foldl (fun terms entry => Function.update terms
      (credentialKey toLowerCase entry.credential) (some (some entry.expiryEpoch))) terms key =
        terms key := by
  induction entries generalizing terms with
  | nil => rfl
  | cons entry rest ih =>
    rw [List.map_cons, List.mem_cons, not_or] at h
    rw [List.foldl_cons, ih h.2, Function.update_of_ne h.1]

theorem foldl_terms_of_mem
    (hnodup : (entries.map fun entry => credentialKey toLowerCase entry.credential).Nodup)
    (he : entry ∈ entries) (terms : String → Option (Option ℚ)) :
    entries.foldl (fun terms entry => Function.update terms
      (credentialKey toLowerCase entry.credential) (some (some entry.expiryEpoch))) terms
        (credentialKey toLowerCase entry.credential) = some (some entry.expiryEpoch) := by
  induction entries generalizing terms with
  | nil => cases he
  | cons first rest ih =>
    obtain ⟨hfirst, hrest⟩ := List.nodup_cons.mp hnodup
    rw [List.foldl_cons]
    rcases List.mem_cons.mp he with rfl | he
    · rw [foldl_terms_of_notMem hfirst, Function.update_self]
    · exact ih hrest he _

/-- A well-formed update leaves the committee as it is only if it removes nobody, and adds those who
sit with just the expiry that they are given. -/
theorem applyUpdate_eq_iff (h : WellFormedUpdate toLowerCase input) (hmode : input.mode = .enacted)
    (quorum : QuorumFraction) :
    applyUpdate toLowerCase (committeeTerms toLowerCase input.current)
        ⟨input.remove, input.add, quorum⟩ = committeeTerms toLowerCase input.current ↔
      input.remove = [] ∧ ∀ entry ∈ input.add,
        committeeTerms toLowerCase input.current (credentialKey toLowerCase entry.credential) =
          some (some entry.expiryEpoch) := by
  constructor
  · intro hsame
    refine ⟨List.eq_nil_iff_forall_not_mem.mpr fun c hc => ?_, fun entry he => ?_⟩
    · have hkey : credentialKey toLowerCase c ∈ input.remove.map (credentialKey toLowerCase) :=
        List.mem_map.mpr ⟨c, hc, rfl⟩
      have hgone := congrFun hsame (credentialKey toLowerCase c)
      rw [applyUpdate, foldl_terms_of_notMem fun hadd => h.disjoint _ hadd hkey] at hgone
      have hmember := h.members hmode c hc
      rw [if_pos hkey, committeeTerms, eq_comm, Option.map_eq_none_iff] at hgone
      rw [hgone] at hmember
      cases hmember
    · rw [← hsame, applyUpdate]
      exact foldl_terms_of_mem h.addOnce he _
  · rintro ⟨hremove, hadd⟩
    funext key
    rw [applyUpdate]
    by_cases hkey : key ∈ addKeys toLowerCase input
    · obtain ⟨entry, he, rfl⟩ := List.mem_map.mp hkey
      rw [hadd entry he]
      exact foldl_terms_of_mem h.addOnce he _
    · rw [foldl_terms_of_notMem hkey]
      simp [hremove]

/-- **A proposal that passes is a change**, in enacted mode, exactly where a well-formed one does
not just restate what is in force. -/
theorem committeeUpdateRight_iff (toLowerCase : String → String) (input : CommitteeUpdateInput) :
    CommitteeUpdateRight toLowerCase input ↔
      (input.mode = .enacted → WellFormedUpdate toLowerCase input →
        ¬Restates toLowerCase input) := by
  constructor
  · intro hright hmode hwell hrestates
    obtain ⟨quorum, hquorum, -⟩ := hwell.quorum
    have hok : validateCommitteeUpdate toLowerCase input =
        .ok (⟨input.remove, input.add, quorum⟩, addWarnings toLowerCase input 0 input.add) := by
      refine validateCommitteeUpdate_eq_ok.mpr
        ⟨⟨hwell, fun _ hnothing => ?_⟩, ⟨quorum, hquorum, rfl⟩, rfl⟩
      rcases hrestates.written with hadd | hwritten
      · exact hadd hnothing.1.1
      · exact hwritten (hquorum.trans ((quorumChanged_eq_false hquorum).mp hnothing.2).symm)
    rcases hright.changes hmode _ _ hok with hcommittee | hshare
    · exact hcommittee ((applyUpdate_eq_iff hwell hmode quorum).mpr
        ⟨hrestates.remove, hrestates.add⟩)
    · exact hshare (by rw [← hrestates.quorum, hquorum, Option.map_some])
  · intro hcondition
    refine ⟨fun hmode update warnings hok => ?_, fun update warnings hok =>
      (validateCommitteeUpdate_eq_ok.mp hok).1.1⟩
    obtain ⟨⟨hwell, htouched⟩, ⟨quorum, hquorum, rfl⟩, -⟩ := validateCommitteeUpdate_eq_ok.mp hok
    by_contra hsame
    rw [ChangesCommittee, not_or, not_not, not_not, applyUpdate_eq_iff hwell hmode] at hsame
    obtain ⟨⟨hremove, hadd⟩, hshare⟩ := hsame
    refine hcondition hmode hwell ⟨hremove, hadd, by rw [hquorum, Option.map_some, hshare], ?_⟩
    by_contra hwritten
    rw [not_or, not_not, not_not] at hwritten
    exact htouched hmode ⟨⟨hwritten.1, hremove⟩,
      (quorumChanged_eq_false hquorum).mpr (hwritten.2.symm.trans hquorum)⟩

end

/-! ### A term restated -/

def sampleMember : ColdCredential :=
  ⟨"aaaaaaaaaaaaaaaaaaaaaaaaaaaaaaaaaaaaaaaaaaaaaaaaaaaaaaaa", false⟩

/-- A sitting member is added again with the expiry it has. -/
def sampleRestatement : CommitteeUpdateInput where
  mode := .enacted
  epoch := 500
  maxTermLength := some 146
  current := [⟨sampleMember, some 600⟩]
  remove := []
  add := [⟨sampleMember, 600⟩]
  quorum := some ⟨2, 3⟩
  currentQuorum := some ⟨2, 3⟩

/-- The proposal passes and changes nothing. -/
theorem not_committeeUpdateRight : ¬CommitteeUpdateRight id sampleRestatement := by
  intro hright
  have hok : validateCommitteeUpdate id sampleRestatement =
      .ok (⟨[], [⟨sampleMember, 600⟩], ⟨2, 3⟩⟩, addWarnings id sampleRestatement 0
        sampleRestatement.add) := by
    decide +kernel
  have hterms : ∀ entry ∈ sampleRestatement.add,
      committeeTerms id sampleRestatement.current (credentialKey id entry.credential) =
        some (some entry.expiryEpoch) := by
    decide +kernel
  rcases hright.changes rfl _ _ hok with hcommittee | hshare
  · exact hcommittee ((applyUpdate_eq_iff (hright.wellFormed _ _ hok) rfl _).mpr ⟨rfl, hterms⟩)
  · exact hshare rfl

end DrepTalk
