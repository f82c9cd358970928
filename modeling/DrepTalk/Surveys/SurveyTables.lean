import DrepTalk.Forum.Threads

/-!
# The tables of the survey mirror

The rows of `survey`, `survey_gov_link`, `survey_tally`, `survey_tally_queue` and
`survey_sync_state`, and the statements on them (`src/lib/db/surveys.ts`,
`src/lib/db/surveyTally.ts`). A survey is stored as it was delivered; its thread is opened from the
row, later; its tally is worked off a queue.

The figures of a tally are left out, as no statement reads them: a tally is known by what it was
computed from.
-/

namespace DrepTalk

/-! ### Rows -/

/-- `final_state` of a survey. -/
inductive SurveyFinalState
  | finalized
  | cancelled
  | untalliable
  deriving DecidableEq

def Role.DRep : ℕ := 0

/-- `drepAnswerable`, and `drepAnswerableSql`. -/
def drepAnswerable (eligibleRoles : List ℕ) : Bool := eligibleRoles.contains Role.DRep

/-- A row of `survey`. -/
structure SurveyRow where
  ref : String
  topicId : Option String
  endEpoch : ℤ
  eligibleRoles : List ℕ
  «sealed» : Bool
  cancelled : Bool
  externalContent : Bool
  definitionJson : String
  countedDreps : Option ℕ
  finalCountedDreps : Option ℕ
  finalState : Option SurveyFinalState
  artifactHash : Option String
  unavailable : Bool
  submittedAt : ℤ
  syncedAt : ℤ

/-- A row of `survey_gov_link`. -/
structure SurveyGovLink where
  surveyRef : String
  actionId : String
  title : Option String

inductive WeightedSource
  | live
  | artifact
  deriving DecidableEq

/-- A row of `survey_tally`. -/
structure SurveyTallyRow where
  surveyRef : String
  weightedSource : WeightedSource
  artifactHash : Option String
  powerEpoch : ℤ
  bundleFetchedAt : ℤ
  computedAt : ℤ

/-- A row of `survey_tally_queue`. -/
structure SurveyTallyWork where
  surveyRef : String
  queuedAt : ℤ
  attempts : ℕ
  lastAttempt : Option ℤ

structure SurveySyncState where
  changesCursor : Option String
  tesseraFetchedAt : Option ℤ
  incomplete : Bool

abbrev SurveyTable := KeyedTable fun row : SurveyRow => row.ref

abbrev SurveyLinkTable := KeyedTable fun row : SurveyGovLink => (row.surveyRef, row.actionId)

abbrev SurveyTallyTable := KeyedTable fun row : SurveyTallyRow => row.surveyRef

abbrev SurveyQueue := KeyedTable fun row : SurveyTallyWork => row.surveyRef

/-- The tables, with the `proposal_id` of each imported action. -/
structure SurveyDb where
  forum : ForumTables
  actions : List String
  surveys : SurveyTable
  links : SurveyLinkTable
  tallies : SurveyTallyTable
  queue : SurveyQueue
  state : SurveySyncState

/-! ### The mirror -/

structure NewSurvey where
  ref : String
  endEpoch : ℤ
  eligibleRoles : List ℕ
  «sealed» : Bool
  cancelled : Bool
  externalContent : Bool
  definitionJson : String
  countedDreps : Option ℕ
  finalState : Option SurveyFinalState
  artifactHash : Option String
  submittedAt : ℤ
  now : ℤ

def NewSurvey.row (s : NewSurvey) : SurveyRow where
  ref := s.ref
  topicId := none
  endEpoch := s.endEpoch
  eligibleRoles := s.eligibleRoles
  «sealed» := s.sealed
  cancelled := s.cancelled
  externalContent := s.externalContent
  definitionJson := s.definitionJson
  countedDreps := s.countedDreps
  finalCountedDreps := none
  finalState := s.finalState
  artifactHash := s.artifactHash
  unavailable := false
  submittedAt := s.submittedAt
  syncedAt := s.now

def NewSurvey.merge (s : NewSurvey) (stored : SurveyRow) : SurveyRow :=
  { stored with
    definitionJson := s.definitionJson
    countedDreps := s.countedDreps
    cancelled := s.cancelled
    finalState := s.finalState
    finalCountedDreps :=
      if s.artifactHash = stored.artifactHash then stored.finalCountedDreps else none
    artifactHash := s.artifactHash
    unavailable := false
    syncedAt := s.now }

/-- A delivered survey that is admitted, with the actions that link it. -/
structure SurveyDelivery extends NewSurvey where
  govLinks : List (String × Option String)

/-- `buildUpsertSurvey`. -/
def upsertSurvey (surveys : SurveyTable) (s : NewSurvey) : SurveyTable :=
  surveys.upsert s.row s.merge fun _ _ => rfl

/-- `buildInsertGovLink`. -/
def insertGovLink (surveyRef : String) (links : SurveyLinkTable) (link : String × Option String) :
    SurveyLinkTable :=
  links.upsert ⟨surveyRef, link.1, link.2⟩ (fun l => { l with title := link.2 }) fun _ _ => rfl

/-- The statements of one admitted survey: `buildDeleteGovLinks` between the two. -/
def storeSurvey (db : SurveyDb) (d : SurveyDelivery) : SurveyDb :=
  { db with
    surveys := upsertSurvey db.surveys d.toNewSurvey
    links := d.govLinks.foldl (insertGovLink d.ref)
      (db.links.deleteWhere fun l => l.surveyRef == d.ref) }

/-- One batch of `withdrawSurveys`. -/
def withdrawSurveys (db : SurveyDb) (refs : List String) (now : ℤ) : SurveyDb :=
  let kept := db.surveys.deleteWhere fun s => refs.contains s.ref && s.topicId.isNone
  { db with
    links := db.links.deleteWhere fun l => refs.contains l.surveyRef
    surveys := kept.updateWhere
      (fun s => refs.contains s.ref && s.topicId.isSome && !s.unavailable)
      (fun s => { s with unavailable := true, syncedAt := now }) fun _ _ => rfl }

def withdrawn (db : SurveyDb) (refs : List String) : ℕ :=
  db.surveys.rows.countP fun s =>
    refs.contains s.ref && (s.topicId.isNone || (s.topicId.isSome && !s.unavailable))

/-- What a run has to know of a stored survey. -/
structure SurveyFacts where
  published : Bool
  artifactHash : Option String

def SurveyRow.facts (s : SurveyRow) : SurveyFacts := ⟨s.topicId.isSome, s.artifactHash⟩

/-- One statement of `getStoredSurveyFacts`. -/
def getStoredSurveyFacts (db : SurveyDb) (refs : List String) : List (String × SurveyFacts) :=
  (db.surveys.rows.filter fun s => refs.contains s.ref).map fun s => (s.ref, s.facts)

/-! ### Threads -/

structure PublishableSurvey where
  ref : String
  definitionJson : String
  externalContent : Bool
  submittedAt : ℤ

/-- The survey waits for a thread, and an imported action links it. -/
def SurveyDb.isPublishable (db : SurveyDb) (s : SurveyRow) : Bool :=
  s.topicId.isNone && drepAnswerable s.eligibleRoles &&
    db.links.rows.any fun l => l.surveyRef == s.ref && db.actions.contains l.actionId

def publishedBefore (a b : SurveyRow) : Prop :=
  a.submittedAt < b.submittedAt ∨ a.submittedAt = b.submittedAt ∧ a.ref ≤ b.ref

instance : DecidableRel publishedBefore := fun _ _ => inferInstanceAs (Decidable (_ ∨ _))

def getPublishableSurveys (db : SurveyDb) : List PublishableSurvey :=
  ((db.surveys.rows.filter db.isPublishable).insertionSort publishedBefore).map fun s =>
    ⟨s.ref, s.definitionJson, s.externalContent, s.submittedAt⟩

/-- `UNCLAIMED`. -/
def SurveyRow.isUnclaimed (ref : String) (s : SurveyRow) : Bool := s.ref == ref && s.topicId.isNone

/-- `buildSurveyClaim`, the update. -/
def claimSurvey (surveys : SurveyTable) (ref topicId : String) : SurveyTable :=
  surveys.updateWhere (·.isUnclaimed ref) (fun s => { s with topicId := some topicId })
    fun _ _ => rfl

/-- The batch of `createTopic` under the claim: it fails where a key is taken, and writes nothing
where the guard does not hold. -/
def createSurveyTopic (db : SurveyDb) (ref : String) (args : CreateTopicArgs) :
    Option (SurveyDb × Bool) :=
  if db.surveys.rows.any (·.isUnclaimed ref) then
    (createTopic db.forum args).map fun forum =>
      ({ db with forum := forum, surveys := claimSurvey db.surveys ref args.topicId }, true)
  else some (db, false)

/-! ### Final counts -/

def getSurveysAwaitingFinalCount (db : SurveyDb) : List (String × String) :=
  (((db.surveys.rows.filter fun s => s.finalState == some .finalized &&
    s.finalCountedDreps.isNone).insertionSort (·.ref ≤ ·.ref)).filterMap fun s =>
      s.artifactHash.map (s.ref, ·))

/-- The row still names the artifact, and has no count. -/
def SurveyRow.awaitsCount (ref artifactHash : String) (s : SurveyRow) : Bool :=
  s.ref == ref && s.artifactHash == some artifactHash && s.finalCountedDreps.isNone

/-- `setSurveyFinalCount`, and whether it wrote. -/
def setSurveyFinalCount (db : SurveyDb) (ref artifactHash : String) (dreps : ℕ) (now : ℤ) :
    SurveyDb × Bool :=
  ({ db with
      surveys := db.surveys.updateWhere (·.awaitsCount ref artifactHash)
        (fun s => { s with finalCountedDreps := some dreps, syncedAt := now }) fun _ _ => rfl },
    db.surveys.rows.any (·.awaitsCount ref artifactHash))

/-! ### Tallies -/

def getSurveyByRef (db : SurveyDb) (ref : String) : Option SurveyRow :=
  db.surveys.rows.find? fun s => s.ref == ref

/-- The survey is there, available, and names the artifact that the tally was bound to. -/
def SurveyRow.takesTally (ref : String) (expected : Option String) (s : SurveyRow) : Bool :=
  s.ref == ref && !s.unavailable && s.artifactHash == expected

/-- `upsertSurveyTally`, and whether it wrote. -/
def upsertSurveyTally (db : SurveyDb) (t : SurveyTallyRow) (expected : Option String) :
    SurveyDb × Bool :=
  if db.surveys.rows.any (·.takesTally t.surveyRef expected) then
    ({ db with
        tallies := db.tallies.upsert t (fun r => { t with surveyRef := r.surveyRef })
          fun _ _ => rfl }, true)
  else (db, false)

/-- One batch of `deleteSurveyTallies`. -/
def deleteSurveyTallies (db : SurveyDb) (refs : List String) : SurveyDb :=
  { db with
    tallies := db.tallies.deleteWhere fun t => refs.contains t.surveyRef
    queue := db.queue.deleteWhere fun q => refs.contains q.surveyRef }

def getStaleLiveRefs (db : SurveyDb) (epoch : ℤ) (limit : ℕ) : List String :=
  (((db.tallies.rows.filter fun t => t.weightedSource == .live && decide (t.powerEpoch < epoch))
    |>.insertionSort fun a b => a.powerEpoch < b.powerEpoch ∨
      a.powerEpoch = b.powerEpoch ∧ a.surveyRef ≤ b.surveyRef).take limit).map (·.surveyRef)

/-- A survey with no tally and no work queued. -/
def SurveyDb.lacksTally (db : SurveyDb) (s : SurveyRow) : Bool :=
  !db.tallies.rows.any (·.surveyRef == s.ref) && !db.queue.rows.any (·.surveyRef == s.ref) &&
    !s.unavailable && !s.cancelled && !s.externalContent &&
    s.finalState != some .untalliable && drepAnswerable s.eligibleRoles

def getRefsWithoutTally (db : SurveyDb) (limit : ℕ) : List String :=
  (((db.surveys.rows.filter db.lacksTally).map (·.ref)).insertionSort (· ≤ ·)).take limit

/-! ### The queue -/

/-- One statement of `enqueueSurveyTallies`. -/
def enqueueSurveyTally (now : ℤ) (queue : SurveyQueue) (ref : String) : SurveyQueue :=
  queue.upsert ⟨ref, now, 0, none⟩ (fun q => { q with queuedAt := now }) fun _ _ => rfl

/-- One batch of `enqueueSurveyTallies`. -/
def enqueueSurveyTallies (db : SurveyDb) (refs : List String) (now : ℤ) : SurveyDb :=
  { db with queue := refs.foldl (enqueueSurveyTally now) db.queue }

/-- Least recently attempted first, what was never tried before all others. -/
def triedBefore (a b : SurveyTallyWork) : Prop :=
  match a.lastAttempt, b.lastAttempt with
  | none, none => a.queuedAt ≤ b.queuedAt
  | none, some _ => True
  | some _, none => False
  | some s, some t => s < t ∨ s = t ∧ a.queuedAt ≤ b.queuedAt

instance : DecidableRel triedBefore := fun a b => by
  unfold triedBefore
  split <;> infer_instance

def takeSurveyTallyWork (db : SurveyDb) (limit : ℕ) : List String :=
  ((db.queue.rows.insertionSort triedBefore).take limit).map (·.surveyRef)

def markSurveyTallyAttempt (db : SurveyDb) (ref : String) (now : ℤ) : SurveyDb :=
  { db with
    queue := db.queue.updateWhere (fun q => q.surveyRef == ref)
      (fun q => { q with attempts := q.attempts + 1, lastAttempt := some now }) fun _ _ => rfl }

def SurveyTallyWork.isDone (ref : String) (attemptedAt : ℤ) (q : SurveyTallyWork) : Bool :=
  q.surveyRef == ref && q.lastAttempt == some attemptedAt && decide (q.queuedAt ≤ attemptedAt)

def dequeueSurveyTally (db : SurveyDb) (ref : String) (attemptedAt : ℤ) : SurveyDb :=
  { db with queue := db.queue.deleteWhere (·.isDone ref attemptedAt) }

/-! ### What the statements leave -/

section

variable {db : SurveyDb} {surveys : SurveyTable} {links : SurveyLinkTable} {queue : SurveyQueue}

theorem mem_upsertSurvey {d : NewSurvey} {s : SurveyRow} :
    s ∈ (upsertSurvey surveys d).rows ↔ (s ∈ surveys.rows ∧ s.ref ≠ d.ref) ∨
      (∃ s₀ ∈ surveys.rows, s₀.ref = d.ref ∧ s = d.merge s₀) ∨
        s = d.row ∧ d.ref ∉ surveys.rows.map (·.ref) :=
  KeyedTable.mem_upsert _

theorem held_upsertSurvey {d : NewSurvey} {ref : String}
    (h : (∃ s ∈ surveys.rows, s.ref = ref) ∨ ref = d.ref) :
    ∃ s ∈ (upsertSurvey surveys d).rows, s.ref = ref := by
  rcases h with ⟨s, hs, rfl⟩ | rfl
  · exact KeyedTable.held_upsert _ _ hs
  · exact KeyedTable.held_upsert_row _

theorem mem_insertGovLink {ref : String} {link : String × Option String} {l : SurveyGovLink} :
    l ∈ (insertGovLink ref links link).rows ↔
      (l ∈ links.rows ∧ (l.surveyRef, l.actionId) ≠ (ref, link.1)) ∨
        (∃ l₀ ∈ links.rows, (l₀.surveyRef, l₀.actionId) = (ref, link.1) ∧
          l = { l₀ with title := link.2 }) ∨
        l = ⟨ref, link.1, link.2⟩ ∧ (ref, link.1) ∉ links.rows.map fun l =>
          (l.surveyRef, l.actionId) :=
  KeyedTable.mem_upsert _

theorem mem_withdrawSurveys {refs : List String} {now : ℤ} {s : SurveyRow} :
    s ∈ (withdrawSurveys db refs now).surveys.rows ↔
      (s ∈ db.surveys.rows ∧ (refs.contains s.ref = true → s.topicId.isSome = true) ∧
        (refs.contains s.ref && s.topicId.isSome && !s.unavailable) = false) ∨
      ∃ s₀ ∈ db.surveys.rows, (refs.contains s₀.ref && s₀.topicId.isSome && !s₀.unavailable) = true ∧
        s = { s₀ with unavailable := true, syncedAt := now } := by
  have hkept : ∀ s : SurveyRow, (refs.contains s.ref && s.topicId.isNone) = false ↔
      (refs.contains s.ref = true → s.topicId.isSome = true) := fun s => by
    rcases refs.contains s.ref <;> rcases s.topicId <;> simp
  refine Table.mem_updateWhere.trans (or_congr ?_ ?_)
  · exact (and_congr_left' Table.mem_deleteWhere).trans (by rw [hkept, and_assoc])
  · refine exists_congr fun s₀ => ⟨?_, ?_⟩
    · rintro ⟨hmem, hmatch, rfl⟩
      exact ⟨(Table.mem_deleteWhere.mp hmem).1, hmatch, rfl⟩
    · rintro ⟨hmem, hmatch, rfl⟩
      refine ⟨Table.mem_deleteWhere.mpr ⟨hmem, (hkept s₀).mpr fun _ => ?_⟩, hmatch, rfl⟩
      simp only [Bool.and_eq_true] at hmatch
      exact hmatch.1.2

end

end DrepTalk
