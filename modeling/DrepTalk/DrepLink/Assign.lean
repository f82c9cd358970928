import DrepTalk.DrepLink.HandleBase
import DrepTalk.Library.Grouped
import Mathlib.Data.Prod.Lex
import Mathlib.Data.String.Basic

/-!
# The assignment of handles

`src/lib/drepLink/assign.ts`: free handles go to the candidates in the order of their registration
(`assignHandles`). The launch seed (`planSeed`) first picks one candidate for each base; one that
the baseline knows goes to its earliest owner there, if one still has that base.

**Renamed owners.** An owner who has taken another name is no longer a candidate for the old base,
and whoever has it now may take it; the report flags it (`not_ownersFirst`).
-/

namespace DrepTalk

structure HandleCandidate where
  drepId : String
  name : Option Text
  registeredAt : Option ℤ

/-- `SkipReason`: the reasons of `validateHandle`, and two more. -/
inductive SkipReason
  | no_base
  | rule (error : ClaimError)
  | taken
  deriving DecidableEq

structure AssignedHandle where
  drepId : String
  handle : Text

structure SkippedHandle where
  drepId : String
  base : Text
  reason : SkipReason

structure AssignResult where
  assigned : List AssignedHandle
  skipped : List SkippedHandle

def MAX_SAFE_INTEGER : ℤ := 9007199254740991

/-- What `byRegistration` compares: the time, and the id. -/
def registrationKey (c : HandleCandidate) : ℤ ×ₗ String :=
  toLex (c.registeredAt.getD MAX_SAFE_INTEGER, c.drepId)

def byRegistration (a b : HandleCandidate) : Prop := registrationKey a ≤ registrationKey b

instance decidableByRegistration : DecidableRel byRegistration := fun _ _ =>
  inferInstanceAs (Decidable (_ ≤ _))

instance totalByRegistration : Std.Total byRegistration := ⟨fun _ _ => le_total _ _⟩

instance transByRegistration : IsTrans HandleCandidate byRegistration := ⟨fun _ _ _ => le_trans⟩

section

variable (folding : TextFolding)

/-- The base of a candidate's name, if it has one. -/
def candidateBase (c : HandleCandidate) : Text :=
  match c.name with
  | some (first :: rest) => handleBase folding (first :: rest)
  | _ => []

def skipReason (c : HandleCandidate) (taken : List Text) : Option SkipReason :=
  let base := candidateBase folding c
  if base = [] then some .no_base
  else
    match validateHandle base (some c.drepId) with
    | some error => some (.rule error)
    | none => if taken.contains base then some .taken else none

/-- The loop of `assignHandles`. -/
def assignLoop : List HandleCandidate → List Text → AssignResult
  | [], _ => ⟨[], []⟩
  | row :: rest, taken =>
    match skipReason folding row taken with
    | some reason =>
      let out := assignLoop rest taken
      ⟨out.assigned, ⟨row.drepId, candidateBase folding row, reason⟩ :: out.skipped⟩
    | none =>
      let out := assignLoop rest (candidateBase folding row :: taken)
      ⟨⟨row.drepId, candidateBase folding row⟩ :: out.assigned, out.skipped⟩

def assignHandles (rows : List HandleCandidate) (taken : List Text) : AssignResult :=
  assignLoop folding (rows.insertionSort byRegistration) taken

end

/-! ### The seed -/

/-- `Baseline`: the owners of each base. -/
structure Baseline where
  bases : List (Text × List String)

/-- `SeedOverrides`; the handles are the keys of an object. -/
structure SeedOverrides where
  assign : List (Text × String)
  skip : List Text
  keys : (assign.map fun entry => entry.1).Nodup

inductive SeedFlagKind
  | collision
  | owner_changed
  | not_in_baseline
  | reserved
  | missing_registered_at
  | override
  | skipped (reason : SkipReason)
  deriving DecidableEq

structure SeedFlag where
  handle : Text
  kind : SeedFlagKind
  drepIds : List String
  deriving DecidableEq

structure SeedAssignment where
  drepId : String
  handle : Text
  source : HandleSource
  deriving DecidableEq

structure SeedPlan where
  assigned : List SeedAssignment
  decided : List String
  flags : List SeedFlag
  deriving DecidableEq

/-- `baseline.bases[base]`. Of all bases only one is the name of an inherited property, on which
`includes` is then not a function. -/
def Baseline.owners (baseline : Baseline) (base : Text) : Except String (Option (List String)) :=
  match baseline.bases.lookup base with
  | some owners => .ok (some owners)
  | none =>
    if base = "constructor".toList then .error "owners.includes is not a function" else .ok none

/-- The candidate that is picked for a base, of those in the order of their registration. -/
def seedWinner (owners : Option (List String)) (sorted : List HandleCandidate) :
    Option HandleCandidate :=
  (owners.bind fun owners => sorted.find? fun row => owners.contains row.drepId).or sorted.head?

def seedFlags (base : Text) (owners : Option (List String)) (sorted : List HandleCandidate) :
    List SeedFlag :=
  let ids := sorted.map fun row => row.drepId
  (match owners with
    | some owners =>
      if ids.any fun id => owners.contains id then [] else [⟨base, .owner_changed, ids⟩]
    | none => [⟨base, .not_in_baseline, ids⟩]) ++
  (if 1 < sorted.length then [⟨base, .collision, ids.insertionSort (· ≤ ·)⟩] else []) ++
  ((seedWinner owners sorted).filter fun row => row.registeredAt.isNone).toList.map fun row =>
    ⟨base, .missing_registered_at, [row.drepId]⟩

def seedWinners (baseline : Baseline) :
    List (Text × List HandleCandidate) → Except String (List HandleCandidate × List SeedFlag)
  | [] => .ok ([], [])
  | (base, group) :: rest =>
    baseline.owners base >>= fun owners =>
      (seedWinners baseline rest).map fun others =>
        let sorted := group.insertionSort byRegistration
        ((seedWinner owners sorted).toList ++ others.1, seedFlags base owners sorted ++ others.2)

def skippedFlag (s : SkippedHandle) : SeedFlag :=
  if s.reason = .rule .reserved then ⟨s.base, .reserved, [s.drepId]⟩
  else ⟨s.base, .skipped s.reason, [s.drepId]⟩

/-- What the seed assigns itself is kept unless it is skipped or overridden. -/
def keptBySeed (overrides : SeedOverrides) (a : AssignedHandle) : Bool :=
  !overrides.skip.contains a.handle &&
    !(overrides.assign.map fun entry => entry.1).contains a.handle &&
    !(overrides.assign.map fun entry => entry.2).contains a.drepId

section

variable (folding : TextFolding)

def byBase (rows : List HandleCandidate) : List (Text × List HandleCandidate) :=
  grouped (candidateBase folding) (rows.filter fun row => !(candidateBase folding row).isEmpty)

def planSeed (rows : List HandleCandidate) (baseline : Baseline) (overrides : SeedOverrides) :
    Except String SeedPlan :=
  (seedWinners baseline (byBase folding rows)).map fun picked =>
    let auto := assignHandles folding picked.1 []
    { assigned :=
        ((auto.assigned.filter (keptBySeed overrides)).map fun a => ⟨a.drepId, a.handle, .seed⟩) ++
          overrides.assign.map fun entry => ⟨entry.2, entry.1, .manual⟩
      decided := rows.map fun row => row.drepId
      flags := picked.2 ++ auto.skipped.map skippedFlag ++
        overrides.assign.map fun entry => ⟨entry.1, .override, [entry.2]⟩ }

end

/-! ### What an assignment owes -/

/-- Every candidate is assigned or skipped; handles are valid, free, and given once; what is skipped
as taken was taken before, or has gone to a candidate that comes first. -/
structure AssignRight (rows : List HandleCandidate) (taken : List Text) (out : AssignResult) :
    Prop where
  each : ((out.assigned.map fun a => a.drepId) ++ out.skipped.map fun s => s.drepId).Perm
    (rows.map fun row => row.drepId)
  valid : ∀ a ∈ out.assigned, validateHandle a.handle (some a.drepId) = none ∧ a.handle ∉ taken
  once : (out.assigned.map fun a => a.handle).Nodup
  lost : ∀ s ∈ out.skipped, s.reason = .taken → s.base ∈ taken ∨ ∃ a ∈ out.assigned,
    a.handle = s.base ∧ ∃ row ∈ rows, ∃ row' ∈ rows, row.drepId = a.drepId ∧
      row'.drepId = s.drepId ∧ registrationKey row < registrationKey row'
  shaped : ∀ s ∈ out.skipped, s.reason ≠ .rule .shape ∧
    (s.reason = .rule .length → s.base.length < HANDLE_MIN)

section

variable {folding : TextFolding} {rows : List HandleCandidate} {taken : List Text}
  {c : HandleCandidate}

theorem candidateBase_spec (folding : TextFolding) (c : HandleCandidate) :
    (candidateBase folding c).length ≤ HANDLE_MAX ∧ IsSlug (candidateBase folding c) := by
  rw [candidateBase]
  split
  · exact handleBase_spec _ _
  · exact ⟨by decide, by simp, by simp, by simp, .nil⟩

theorem skipReason_of_nil (h : candidateBase folding c = []) :
    skipReason folding c taken = some .no_base := if_pos h

theorem skipReason_of_valid (h : candidateBase folding c ≠ [])
    (hvalid : validateHandle (candidateBase folding c) (some c.drepId) = none) :
    skipReason folding c taken =
      if taken.contains (candidateBase folding c) = true then some .taken else none := by
  rw [skipReason]
  simp only [if_neg h, hvalid]

variable {error : ClaimError} {baseline : Baseline} {overrides : SeedOverrides}

theorem skipReason_of_error (h : candidateBase folding c ≠ [])
    (herror : validateHandle (candidateBase folding c) (some c.drepId) = some error) :
    skipReason folding c taken = some (.rule error) := by
  rw [skipReason]
  simp only [if_neg h, herror]

theorem skipReason_eq_none : skipReason folding c taken = none ↔ candidateBase folding c ≠ [] ∧
    validateHandle (candidateBase folding c) (some c.drepId) = none ∧
      candidateBase folding c ∉ taken := by
  by_cases hbase : candidateBase folding c = []
  · simp [skipReason_of_nil hbase, hbase]
  · rcases hvalid : validateHandle (candidateBase folding c) (some c.drepId) with _ | error
    · simp [skipReason_of_valid hbase hvalid, hbase]
    · simp [skipReason_of_error hbase hvalid]

theorem skipReason_eq_taken (h : skipReason folding c taken = some .taken) :
    candidateBase folding c ∈ taken := by
  by_cases hbase : candidateBase folding c = []
  · rw [skipReason_of_nil hbase] at h
    cases h
  · rcases hvalid : validateHandle (candidateBase folding c) (some c.drepId) with _ | error
    · rw [skipReason_of_valid hbase hvalid] at h
      by_contra hnot
      rw [if_neg fun hmem => hnot (List.contains_iff_mem.mp hmem)] at h
      cases h
    · rw [skipReason_of_error hbase hvalid] at h
      cases h

/-- A slug of a handle's length is refused for its shape never, and for its length only if it is too
short. -/
theorem validateHandle_of_isSlug {handle : Text} {drepId : Option String} (hslug : IsSlug handle)
    (hne : handle ≠ []) (hlength : handle.length ≤ HANDLE_MAX)
    (h : validateHandle handle drepId = some error) :
    error ≠ .shape ∧ (error = .length → handle.length < HANDLE_MIN) := by
  rw [validateHandle, hslug.hasShape hne] at h
  simp only [Bool.not_true, Bool.false_eq_true, if_false, if_neg (not_lt.mpr hlength)] at h
  split_ifs at h with hshort hid hreserved
  all_goals
    cases h
    refine ⟨by decide, fun hlen => ?_⟩
  · exact hshort.1
  · cases hlen
  · cases hlen

theorem skipReason_rule (h : skipReason folding c taken = some (.rule error)) :
    error ≠ .shape ∧ (error = .length → (candidateBase folding c).length < HANDLE_MIN) := by
  obtain ⟨hlength, hslug⟩ := candidateBase_spec folding c
  by_cases hbase : candidateBase folding c = []
  · rw [skipReason_of_nil hbase] at h
    cases h
  · rcases hvalid : validateHandle (candidateBase folding c) (some c.drepId) with _ | error'
    · rw [skipReason_of_valid hbase hvalid] at h
      split_ifs at h
      cases h
    · rw [skipReason_of_error hbase hvalid] at h
      obtain rfl := SkipReason.rule.inj (Option.some.inj h)
      exact validateHandle_of_isSlug hslug hbase hlength hvalid

/-! ### The loop -/

variable {a : AssignedHandle} {winners : List HandleCandidate} {flags : List SeedFlag}

theorem mem_assigned (h : a ∈ (assignLoop folding rows taken).assigned) :
    ∃ row ∈ rows, row.drepId = a.drepId ∧ candidateBase folding row = a.handle ∧
      validateHandle a.handle (some a.drepId) = none ∧ a.handle ∉ taken := by
  induction rows generalizing taken with
  | nil => cases h
  | cons row rest ih =>
    rw [assignLoop] at h
    rcases hreason : skipReason folding row taken with _ | reason
    · rw [hreason] at h
      obtain ⟨-, hvalid, hfree⟩ := skipReason_eq_none.mp hreason
      rcases List.mem_cons.mp h with rfl | h
      · exact ⟨row, List.mem_cons_self, rfl, rfl, hvalid, hfree⟩
      · obtain ⟨row', hrow', hid, hbase, hok, hnot⟩ := ih h
        exact ⟨row', List.mem_cons_of_mem _ hrow', hid, hbase, hok,
          fun hmem => hnot (List.mem_cons_of_mem _ hmem)⟩
    · rw [hreason] at h
      obtain ⟨row', hrow', hrest⟩ := ih h
      exact ⟨row', List.mem_cons_of_mem _ hrow', hrest⟩

theorem assigned_nodup (folding : TextFolding) (rows : List HandleCandidate) (taken : List Text) :
    ((assignLoop folding rows taken).assigned.map fun a => a.handle).Nodup := by
  induction rows generalizing taken with
  | nil => exact List.nodup_nil
  | cons row rest ih =>
    rw [assignLoop]
    rcases skipReason folding row taken with _ | reason
    · refine List.nodup_cons.mpr ⟨fun hmem => ?_, ih _⟩
      obtain ⟨a, ha, heq⟩ := List.mem_map.mp hmem
      obtain ⟨-, -, -, -, -, hfree⟩ := mem_assigned ha
      exact hfree (heq ▸ List.mem_cons_self)
    · exact ih taken

theorem assignLoop_perm (folding : TextFolding) (rows : List HandleCandidate) (taken : List Text) :
    (((assignLoop folding rows taken).assigned.map fun a => a.drepId) ++
      (assignLoop folding rows taken).skipped.map fun s => s.drepId).Perm
        (rows.map fun row => row.drepId) := by
  induction rows generalizing taken with
  | nil => exact List.Perm.refl _
  | cons row rest ih =>
    rw [assignLoop]
    rcases skipReason folding row taken with _ | reason
    · exact (ih _).cons row.drepId
    · exact List.perm_middle.trans ((ih taken).cons row.drepId)

theorem mem_skipped {s : SkippedHandle} (hsorted : rows.Pairwise fun a b =>
    registrationKey a < registrationKey b) (h : s ∈ (assignLoop folding rows taken).skipped) :
    ∃ row ∈ rows, row.drepId = s.drepId ∧ candidateBase folding row = s.base ∧
      (∀ error, s.reason = .rule error → error ≠ .shape ∧
        (error = .length → s.base.length < HANDLE_MIN)) ∧
      (s.reason = .taken → s.base ∈ taken ∨ ∃ a ∈ (assignLoop folding rows taken).assigned,
        a.handle = s.base ∧ ∃ before ∈ rows, before.drepId = a.drepId ∧
          registrationKey before < registrationKey row) := by
  induction rows generalizing taken with
  | nil => cases h
  | cons row rest ih =>
    obtain ⟨hfirst, hrest⟩ := List.pairwise_cons.mp hsorted
    rw [assignLoop] at h ⊢
    rcases hreason : skipReason folding row taken with _ | reason
    · -- the row is assigned its base, which is then taken for those behind it
      rw [hreason] at h
      obtain ⟨row', hrow', hid, hbase, hrule, htaken⟩ := ih hrest h
      refine ⟨row', List.mem_cons_of_mem _ hrow', hid, hbase, hrule, fun hs => ?_⟩
      rcases htaken hs with hmem | ⟨a, ha, hhandle, before, hbefore, hbid, hlt⟩
      · rcases List.mem_cons.mp hmem with heq | hmem
        · exact .inr ⟨_, List.mem_cons_self, heq.symm, row, List.mem_cons_self, rfl,
            hfirst row' hrow'⟩
        · exact .inl hmem
      · exact .inr ⟨a, List.mem_cons_of_mem _ ha, hhandle, before,
          List.mem_cons_of_mem _ hbefore, hbid, hlt⟩
    · rw [hreason] at h
      rcases List.mem_cons.mp h with rfl | h
      · refine ⟨row, List.mem_cons_self, rfl, rfl, fun error herror => ?_, fun hs => ?_⟩
        · obtain rfl : reason = .rule error := herror
          exact skipReason_rule hreason
        · obtain rfl : reason = .taken := hs
          exact .inl (skipReason_eq_taken hreason)
      · obtain ⟨row', hrow', hid, hbase, hrule, htaken⟩ := ih hrest h
        refine ⟨row', List.mem_cons_of_mem _ hrow', hid, hbase, hrule, fun hs => ?_⟩
        rcases htaken hs with hmem | ⟨a, ha, hhandle, before, hbefore, hbid, hlt⟩
        · exact .inl hmem
        · exact .inr ⟨a, ha, hhandle, before, List.mem_cons_of_mem _ hbefore, hbid, hlt⟩

/-! ### The assignment -/

theorem sorted_pairwise (hids : (rows.map fun row => row.drepId).Nodup) :
    (rows.insertionSort byRegistration).Pairwise fun a b =>
      registrationKey a < registrationKey b := by
  have hsorted : (rows.insertionSort byRegistration).Pairwise byRegistration :=
    List.pairwise_insertionSort _ _
  have hdistinct : (rows.insertionSort byRegistration).Pairwise
      fun a b => a.drepId ≠ b.drepId := by
    refine List.pairwise_map.mp ?_
    exact ((List.perm_insertionSort byRegistration rows).map _).nodup_iff.mpr hids
  exact (hsorted.and hdistinct).imp fun h => lt_of_le_of_ne h.1 fun heq =>
    h.2 ((congrArg (fun key => (ofLex key).2) heq))

theorem sorted_perm (hids : (rows.map fun row => row.drepId).Nodup) {rows' : List HandleCandidate}
    (hperm : rows.Perm rows') :
    rows'.insertionSort byRegistration = rows.insertionSort byRegistration := by
  have hids' : (rows'.map fun row => row.drepId).Nodup := (hperm.map _).nodup_iff.mp hids
  have hsame : (rows'.insertionSort byRegistration).Perm (rows.insertionSort byRegistration) :=
    ((List.perm_insertionSort _ _).trans hperm.symm).trans (List.perm_insertionSort _ _).symm
  exact hsame.eq_of_pairwise (fun _ _ _ _ hab hba => absurd hab hba.asymm)
    (sorted_pairwise hids') (sorted_pairwise hids)

theorem assignRight (folding : TextFolding) (taken : List Text)
    (hids : (rows.map fun row => row.drepId).Nodup) :
    AssignRight rows taken (assignHandles folding rows taken) := by
  have hperm := List.perm_insertionSort byRegistration rows
  refine ⟨(assignLoop_perm _ _ _).trans (hperm.map _), fun a ha => ?_, assigned_nodup _ _ _,
    fun s hs htaken => ?_, fun s hs => ?_⟩
  · obtain ⟨-, -, -, -, hvalid, hfree⟩ := mem_assigned ha
    exact ⟨hvalid, hfree⟩
  · obtain ⟨row, hrow, hid, -, -, hlost⟩ := mem_skipped (sorted_pairwise hids) hs
    refine (hlost htaken).imp_right fun ⟨a, ha, hhandle, before, hbefore, hbid, hlt⟩ => ?_
    exact ⟨a, ha, hhandle, before, hperm.mem_iff.mp hbefore, row, hperm.mem_iff.mp hrow, hbid, hid,
      hlt⟩
  · obtain ⟨row, -, -, -, hrule, -⟩ := mem_skipped (sorted_pairwise hids) hs
    exact ⟨fun h => (hrule _ h).1 rfl, fun h => (hrule _ h).2 rfl⟩

/-! ### The seed -/

/-- No DRep outside the owners of a base takes it by seed, while one of them is present. -/
def OwnersFirst (baseline : Baseline) (plan : SeedPlan) (present : Text → List HandleCandidate) :
    Prop :=
  ∀ a ∈ plan.assigned, a.source = .seed → ∀ owners, baseline.bases.lookup a.handle = some owners →
    a.drepId ∉ owners → ∀ row ∈ present a.handle, row.drepId ∉ owners

structure SeedRight (folding : TextFolding) (rows : List HandleCandidate) (baseline : Baseline)
    (plan : SeedPlan) : Prop where
  handles : (plan.assigned.map fun a => a.handle).Nodup
  dreps : (plan.assigned.map fun a => a.drepId).Nodup
  ownersFirst : OwnersFirst baseline plan fun base =>
    rows.filter fun row => candidateBase folding row == base

theorem seedWinner_spec {owners : Option (List String)} {sorted : List HandleCandidate}
    {w : HandleCandidate} (h : seedWinner owners sorted = some w) :
    w ∈ sorted ∧ ∀ ids ∈ owners, w.drepId ∉ ids → ∀ row ∈ sorted, row.drepId ∉ ids := by
  rw [seedWinner] at h
  rcases owners with _ | ids
  · rw [Option.bind_none, Option.none_or] at h
    exact ⟨List.mem_of_mem_head? h, nofun⟩
  · rw [Option.bind_some] at h
    rcases hfind : sorted.find? (fun row => ids.contains row.drepId) with _ | owner
    · rw [hfind, Option.none_or] at h
      refine ⟨List.mem_of_mem_head? h, fun ids' hids _ row hrow => ?_⟩
      cases hids
      have hnot := List.find?_eq_none.mp hfind row hrow
      rwa [List.contains_iff_mem] at hnot
    · rw [hfind, Option.some_or] at h
      cases h
      refine ⟨List.mem_of_find?_eq_some hfind, fun ids' hids hout => ?_⟩
      cases hids
      have howner := List.find?_some hfind
      exact absurd (List.contains_iff_mem.mp howner) hout

theorem Baseline.owners_eq_ok {base : Text} {owners : Option (List String)}
    (h : baseline.owners base = .ok owners) : owners = baseline.bases.lookup base := by
  rw [Baseline.owners] at h
  rcases hlookup : baseline.bases.lookup base with _ | ids
  · rw [hlookup] at h
    split_ifs at h
    exact (Except.ok.inj h).symm
  · rw [hlookup] at h
    exact (Except.ok.inj h).symm

theorem seedWinners_spec {groups : List (Text × List HandleCandidate)}
    (hgroups : ∀ entry ∈ groups, ∀ row ∈ entry.2, candidateBase folding row = entry.1)
    (h : seedWinners baseline groups = .ok (winners, flags)) :
    (winners.map (candidateBase folding)).Sublist (groups.map fun entry => entry.1) ∧
    ∀ w ∈ winners, ∃ entry ∈ groups, w ∈ entry.2 ∧
      ∀ ids, baseline.bases.lookup entry.1 = some ids → w.drepId ∉ ids →
        ∀ row ∈ entry.2, row.drepId ∉ ids := by
  induction groups generalizing winners flags with
  | nil =>
    obtain ⟨rfl, rfl⟩ := Prod.mk.inj (Except.ok.inj h)
    exact ⟨.slnil, nofun⟩
  | cons entry rest ih =>
    obtain ⟨base, group⟩ := entry
    obtain ⟨hgroup, hrest⟩ := List.forall_mem_cons.mp hgroups
    rw [seedWinners] at h
    rcases howners : baseline.owners base with thrown | owners
    · rw [howners] at h
      cases h
    · rw [howners] at h
      rcases hothers : seedWinners baseline rest with thrown | others
      · rw [hothers] at h
        cases h
      · rw [hothers] at h
        obtain ⟨rfl, -⟩ := Prod.mk.inj (Except.ok.inj h)
        obtain ⟨hsub, hpicked⟩ := ih hrest hothers
        have hperm := List.perm_insertionSort byRegistration group
        -- a base of which nobody is picked is left out of the sublist
        rcases hw : seedWinner owners (group.insertionSort byRegistration) with _ | w
        · refine ⟨hsub.cons base, fun w' hw' => ?_⟩
          obtain ⟨entry, hentry, hrow⟩ := hpicked w' hw'
          exact ⟨entry, List.mem_cons_of_mem _ hentry, hrow⟩
        · obtain ⟨hmem, hfirst⟩ := seedWinner_spec hw
          refine ⟨?_, fun w' hw' => ?_⟩
          · have hbase : candidateBase folding w = base := hgroup w (hperm.mem_iff.mp hmem)
            exact hbase ▸ hsub.cons_cons (candidateBase folding w)
          · rcases List.mem_cons.mp hw' with rfl | hw'
            · refine ⟨(base, group), List.mem_cons_self, hperm.mem_iff.mp hmem,
                fun ids hids hout row hrow => ?_⟩
              exact hfirst ids ((Baseline.owners_eq_ok howners).trans hids) hout row
                (hperm.mem_iff.mpr hrow)
            · obtain ⟨entry, hentry, hrow⟩ := hpicked w' hw'
              exact ⟨entry, List.mem_cons_of_mem _ hentry, hrow⟩

theorem mem_byBase {entry : Text × List HandleCandidate} (h : entry ∈ byBase folding rows) :
    ∀ row, row ∈ entry.2 ↔ row ∈ rows ∧ candidateBase folding row = entry.1 := by
  obtain ⟨base, group⟩ := entry
  obtain ⟨rfl, hne⟩ := mem_grouped.mp h
  obtain ⟨first, hfirst⟩ := List.exists_mem_of_ne_nil _ hne
  have hsome : base ≠ [] := by
    obtain ⟨hmem, hbase⟩ := List.mem_filter.mp hfirst
    have hnonempty := (List.mem_filter.mp hmem).2
    rw [beq_iff_eq.mp hbase, Bool.not_eq_true', List.isEmpty_eq_false_iff] at hnonempty
    exact hnonempty
  intro row
  rw [List.mem_filter, List.mem_filter, beq_iff_eq, Bool.not_eq_true', List.isEmpty_eq_false_iff]
  exact ⟨fun h => ⟨h.1.1, h.2⟩, fun h => ⟨⟨h.1, fun hnil => hsome (h.2.symm.trans hnil)⟩, h.2⟩⟩

theorem picked_spec (hids : (rows.map fun row => row.drepId).Nodup)
    (h : seedWinners baseline (byBase folding rows) = .ok (winners, flags)) :
    (winners.map fun row => row.drepId).Nodup ∧
    ∀ w ∈ winners, ∀ owners, baseline.bases.lookup (candidateBase folding w) = some owners →
      w.drepId ∉ owners → ∀ row ∈ rows, candidateBase folding row = candidateBase folding w →
        row.drepId ∉ owners := by
  obtain ⟨hbases, hwinners⟩ := seedWinners_spec
    (fun entry hentry row hrow => ((mem_byBase hentry row).mp hrow).2) h
  have hsubset : ∀ w ∈ winners, w ∈ rows := fun w hw => by
    obtain ⟨entry, hentry, hrow, -⟩ := hwinners w hw
    exact ((mem_byBase hentry w).mp hrow).1
  constructor
  · -- the bases of the groups differ, so what is picked of them does
    refine (List.Nodup.of_map _ (hbases.nodup (grouped_keys _ _).1)).map_on
      fun w hw w' hw' heq => ?_
    exact List.inj_on_of_nodup_map hids (hsubset w hw) (hsubset w' hw') heq
  · intro w hw owners hlookup hout row hrow hbase
    obtain ⟨entry, hentry, hgroup, hfirst⟩ := hwinners w hw
    have hsame : candidateBase folding w = entry.1 := ((mem_byBase hentry w).mp hgroup).2
    exact hfirst owners (hsame ▸ hlookup) hout row
      ((mem_byBase hentry row).mpr ⟨hrow, hbase.trans hsame⟩)

theorem keptBySeed_spec (h : keptBySeed overrides a = true) :
    a.handle ∉ overrides.assign.map (fun entry => entry.1) ∧
      a.drepId ∉ overrides.assign.map fun entry => entry.2 := by
  simp only [keptBySeed, Bool.and_eq_true, Bool.not_eq_true', List.contains_eq_mem,
    decide_eq_false_iff_not] at h
  exact ⟨h.1.2, h.2⟩

theorem nodup_kept_append {β : Type} {auto : List AssignedHandle} {f : AssignedHandle → β}
    {g : Text × String → β} (hauto : (auto.map f).Nodup) (hmanual : (overrides.assign.map g).Nodup)
    (hkept : ∀ a, keptBySeed overrides a = true → f a ∉ overrides.assign.map g) :
    ((auto.filter (keptBySeed overrides)).map f ++ overrides.assign.map g).Nodup := by
  refine List.nodup_append.mpr ⟨hauto.sublist (List.filter_sublist.map f), hmanual,
    fun b hb b' hb' heq => ?_⟩
  obtain ⟨a, ha, rfl⟩ := List.mem_map.mp hb
  exact hkept a (List.mem_filter.mp ha).2 (heq ▸ hb')

theorem seedRight {plan : SeedPlan} (hids : (rows.map fun row => row.drepId).Nodup)
    (howners : (overrides.assign.map fun entry => entry.2).Nodup)
    (h : planSeed folding rows baseline overrides = .ok plan) :
    SeedRight folding rows baseline plan := by
  rw [planSeed] at h
  rcases hpicked : seedWinners baseline (byBase folding rows) with thrown | ⟨winners, flags⟩
  · rw [hpicked] at h
    cases h
  rw [hpicked] at h
  obtain rfl := Except.ok.inj h
  obtain ⟨hwinnerIds, hfirst⟩ := picked_spec hids hpicked
  have hauto := assignRight folding [] hwinnerIds
  have hautoIds : ((assignHandles folding winners []).assigned.map fun a => a.drepId).Nodup :=
    (List.nodup_append.mp (hauto.each.nodup_iff.mpr hwinnerIds)).1
  refine ⟨?_, ?_, fun a ha hseed owners hlookup hout row hrow => ?_⟩
  · rw [List.map_append, List.map_map, List.map_map]
    exact nodup_kept_append hauto.once overrides.keys fun a ha => (keptBySeed_spec ha).1
  · rw [List.map_append, List.map_map, List.map_map]
    exact nodup_kept_append hautoIds howners fun a ha => (keptBySeed_spec ha).2
  · rcases List.mem_append.mp ha with ha | ha
    · obtain ⟨assigned, hassigned, rfl⟩ := List.mem_map.mp ha
      obtain ⟨w, hw, hid, hbase, -⟩ := mem_assigned (List.mem_filter.mp hassigned).1
      have hwinner := (List.perm_insertionSort byRegistration winners).mem_iff.mp hw
      obtain ⟨hmem, hrowBase⟩ := List.mem_filter.mp hrow
      exact hfirst w hwinner owners (hbase ▸ hlookup) (hid ▸ hout) row hmem
        ((beq_iff_eq.mp hrowBase).trans hbase.symm)
    · -- an override is not by seed
      obtain ⟨entry, -, rfl⟩ := List.mem_map.mp ha
      cases hseed

/-- **The assignment of handles**: by the rules and in the order of registration, whatever order the
candidates come in; a seed plan gives each handle and each DRep once, owners of a base first. -/
theorem assignHandles_right (folding : TextFolding)
    (hids : (rows.map fun row => row.drepId).Nodup) (taken : List Text) :
    AssignRight rows taken (assignHandles folding rows taken) ∧
    (∀ rows', rows.Perm rows' →
      assignHandles folding rows' taken = assignHandles folding rows taken) ∧
    (∀ name, handleBase folding name ≠ [] → (handleBase folding name).length ≤ HANDLE_MAX ∧
      hasShape (handleBase folding name) = true) ∧
    ∀ (baseline : Baseline) (overrides : SeedOverrides) (plan : SeedPlan),
      (overrides.assign.map fun entry => entry.2).Nodup →
      planSeed folding rows baseline overrides = .ok plan →
        SeedRight folding rows baseline plan := by
  refine ⟨assignRight folding taken hids, fun rows' hperm => ?_, fun name hne => ?_,
    fun baseline overrides plan howners h => seedRight hids howners h⟩
  · rw [assignHandles, assignHandles, sorted_perm hids hperm]
  · obtain ⟨hlength, hslug⟩ := handleBase_spec folding name
    exact ⟨hlength, hslug.hasShape hne⟩

end

/-! ### An owner renamed -/

def sampleFolding : TextFolding := ⟨id, List.map Char.toLower⟩

/-- The owner of a base, who has another name now, and a DRep who has taken that name. -/
def sampleHandleRows : List HandleCandidate :=
  [⟨"drep1a", some "Bob".toList, some 10⟩, ⟨"drep1b", some "Alice".toList, some 20⟩]

theorem sampleHandleIds : (sampleHandleRows.map fun row => row.drepId).Nodup := by decide

def sampleBaseline : Baseline := ⟨[("alice".toList, ["drep1a"])]⟩

def noOverrides : SeedOverrides := ⟨[], [], List.nodup_nil⟩

def sampleSeedPlan : SeedPlan where
  assigned := [⟨"drep1a", "bob".toList, .seed⟩, ⟨"drep1b", "alice".toList, .seed⟩]
  decided := ["drep1a", "drep1b"]
  flags := [⟨"bob".toList, .not_in_baseline, ["drep1a"]⟩,
    ⟨"alice".toList, .owner_changed, ["drep1b"]⟩]

theorem assignHandles_right_renamed :
    AssignRight sampleHandleRows [] (assignHandles sampleFolding sampleHandleRows []) ∧
      SeedRight sampleFolding sampleHandleRows sampleBaseline sampleSeedPlan := by
  obtain ⟨hassign, -, -, hseed⟩ :=
    assignHandles_right sampleFolding sampleHandleIds []
  exact ⟨hassign,
    hseed sampleBaseline noOverrides sampleSeedPlan List.nodup_nil (by decide +kernel)⟩

/-- The base goes to the other DRep, while its owner is among the candidates, by another name. -/
theorem not_ownersFirst : ∃ plan,
    planSeed sampleFolding sampleHandleRows sampleBaseline noOverrides = .ok plan ∧
      ¬OwnersFirst sampleBaseline plan fun _ => sampleHandleRows := by
  refine ⟨sampleSeedPlan, by decide +kernel, fun h => ?_⟩
  exact h ⟨"drep1b", "alice".toList, .seed⟩ (by decide) rfl ["drep1a"] (by decide) (by decide)
    ⟨"drep1a", some "Bob".toList, some 10⟩ List.mem_cons_self (by decide)

end DrepTalk
