import DrepTalk.Surveys.SurveyTables
import DrepTalk.Library.Interleaving

/-!
# The sync of the survey mirror

One run of `syncSurveys` (`src/lib/surveys/sync.ts`), statement by statement, in its four passes:
the mirror applies the pages of a delta and writes down where it continues; the thread of each
survey that waits for one is opened; final counts are read off artifacts; tallies are worked off the
queue.

What the serving backend answers is an input of a step. So are the decoded aggregates of a page, and
what the power history weighs a tally by. Any call may throw, and a run may be cut off.

The figures of a tally are left out, and so is the text of the warnings.
-/

namespace DrepTalk

/-! ### Deltas -/

structure ChainTip where
  time : ℤ
  slot : ℤ
  deriving DecidableEq

structure SurveyAggregate where
  key : String
  endEpoch : ℤ
  eligibleRoles : List ℕ
  «sealed» : Bool
  cancelled : Bool
  external : Bool
  recordJson : String
  slot : ℤ
  govLinks : List (String × Option String)
  talliable : Bool
  sealedUnsupported : Bool
  deriving DecidableEq

/-- What was decided of a survey, with the artifact that it published. -/
inductive SurveyDecision
  | finalized (artifactHash : String)
  | cancelled (artifactHash : String)
  | untalliable
  deriving DecidableEq

def SurveyDecision.state : SurveyDecision → SurveyFinalState
  | .finalized _ => .finalized
  | .cancelled _ => .cancelled
  | .untalliable => .untalliable

def SurveyDecision.artifactHash : SurveyDecision → Option String
  | .finalized hash | .cancelled hash => some hash
  | .untalliable => none

structure DecodedSet where
  aggregates : List SurveyAggregate
  tip : ChainTip
  countedByRole : List (String × List (ℕ × ℕ))
  finalState : List (String × SurveyDecision)
  fetchedAt : Option ℤ
  incomplete : Bool
  deriving DecidableEq

/-- A page of a delta: `surveyCount` is the length of its surveys. -/
structure SurveyChanges where
  set : DecodedSet
  surveyCount : ℕ
  removed : List String
  nextCursor : String
  deriving DecidableEq

def MAX_PAGE_LIMIT : ℕ := 200

def MAX_LIST_PAGES : ℕ := 25

def MAX_TALLY_REQUESTS : ℕ := 40

def MAX_EXTERNAL_TITLE_LEN : ℕ := 300

def SURVEYS_CATEGORY_SLUG : String := "surveys"

/-- `GOV_SYNC_AUTHOR`, as the sync of surveys uses it. -/
def SURVEY_SYNC_AUTHOR : String := "gov-sync"

def SurveyChanges.isFull (c : SurveyChanges) : Bool :=
  !(decide (c.surveyCount < MAX_PAGE_LIMIT) && decide (c.removed.length < MAX_PAGE_LIMIT))

/-- The texts of a thread, and what a definition is read as. -/
structure SurveyTexts where
  sanitizeExternalText : String → ℕ → String
  decodes : String → Bool
  surveyTitle : String → String → String
  composeFirstPostMd : String → Bool → String
  renderMarkdown : String → String
  slugify : String → String → String

def eligibleSurvey (a : SurveyAggregate) : Bool :=
  !a.govLinks.isEmpty && a.talliable && !a.sealedUnsupported

def DecodedSet.countedDreps (set : DecodedSet) (key : String) : Option ℕ :=
  (set.countedByRole.lookup key).map fun byRole => (byRole.lookup Role.DRep).getD 0

def recordUnixMs (slot : ℤ) (tip : ChainTip) : ℤ := (tip.time - (tip.slot - slot)) * 1000

def SurveyTexts.linkTitle (cfg : SurveyTexts) (title : Option String) : Option String :=
  (title.map (cfg.sanitizeExternalText · MAX_EXTERNAL_TITLE_LEN)).filter (· != "")

/-- What is written of an admitted survey. -/
def SurveyTexts.delivery (cfg : SurveyTexts) (set : DecodedSet) (now : ℤ) (a : SurveyAggregate) :
    SurveyDelivery where
  ref := a.key
  endEpoch := a.endEpoch
  eligibleRoles := a.eligibleRoles
  «sealed» := a.sealed
  cancelled := a.cancelled
  externalContent := a.external
  definitionJson := a.recordJson
  countedDreps := set.countedDreps a.key
  finalState := (set.finalState.lookup a.key).map (·.state)
  artifactHash := (set.finalState.lookup a.key).bind (·.artifactHash)
  submittedAt := recordUnixMs a.slot set.tip
  now := now
  govLinks := a.govLinks.map fun l => (l.1, cfg.linkTitle l.2)

def SurveyChanges.admitted (c : SurveyChanges) (cfg : SurveyTexts) (now : ℤ) :
    List SurveyDelivery :=
  (c.set.aggregates.filter eligibleSurvey).map (cfg.delivery c.set now)

/-- The refused ones, behind the removed keys. -/
def SurveyChanges.withdrawn (c : SurveyChanges) : List String :=
  c.removed ++ (c.set.aggregates.filter fun a => !eligibleSurvey a).map (·.key)

/-- A statement, or batch, of `applyDelta`. -/
inductive SurveyOp
  | withdraw (refs : List String)
  | store (rows : List SurveyDelivery)
  | dropTallies (refs : List String)
  | enqueue (refs : List String)

def SurveyOp.apply (now : ℤ) (db : SurveyDb) : SurveyOp → SurveyDb
  | .withdraw refs => withdrawSurveys db refs now
  | .store rows => rows.foldl storeSurvey db
  | .dropTallies refs => deleteSurveyTallies db refs
  | .enqueue refs => enqueueSurveyTallies db refs now

def SurveyOp.withdraws (db : SurveyDb) : SurveyOp → ℕ
  | .withdraw refs => withdrawn db refs
  | _ => 0

/-- The withdrawn surveys whose tally goes, and those whose artifact moves. -/
def tallyDrops (withdrawn : List String) (admitted : List SurveyDelivery)
    (before : List (String × SurveyFacts)) : List String :=
  (withdrawn.filter (fun ref => (before.lookup ref).any fun f => !f.published) ++
    (admitted.filter fun r => (before.lookup r.ref).any fun f =>
      f.artifactHash != r.artifactHash).map (·.ref)).eraseDups

/-- What `applyDelta` writes, after it has read the stored facts. -/
def applyDelta (withdrawn : List String) (admitted : List SurveyDelivery)
    (before : List (String × SurveyFacts)) : List SurveyOp :=
  (slices (D1_MAX_BINDS - 1) withdrawn).map .withdraw ++
    (if admitted.isEmpty then [] else [.store admitted]) ++
    (slices D1_MAX_BINDS (tallyDrops withdrawn admitted before)).map .dropTallies ++
    (slices (D1_MAX_BINDS / 2) ((admitted.filter fun r => drepAnswerable r.eligibleRoles).map
      (·.ref))).map .enqueue

/-! ### Where a run stands -/

structure SurveysSyncResult where
  notReady : Bool
  written : ℕ
  published : ℕ
  rolledBack : ℕ
  finalCounts : ℕ
  tallies : ℕ
  failed : ℕ

/-- A run: its clock, what it has counted, and the requests it has spent. -/
structure SurveyRun where
  now : ℤ
  result : SurveysSyncResult
  requestsSpent : ℕ

def SurveyRun.fail (run : SurveyRun) : SurveyRun :=
  { run with result := { run.result with failed := run.result.failed + 1 } }

/-- The mirror pass: the state it has read, the pages it has applied, and what it knows since. -/
structure MirrorPass where
  run : SurveyRun
  state : SurveySyncState
  pages : ℕ
  cursor : Option String
  asOf : Option ℤ
  sourceIncomplete : Bool

inductive MirrorProc
  | asking
  | reading (changes : SurveyChanges) (chunks : List (List String))
      (facts : List (String × SurveyFacts))
  | applying (changes : SurveyChanges) (facts : List (String × SurveyFacts)) (ops : List SurveyOp)
      (rolledBack : ℕ)
  | bookkeeping (complete : Bool)

inductive PublishProc
  | listing
  | publishing (rest : List PublishableSurvey)

/-- The steps of the final count pass. -/
inductive CountProc
  | listing
  | asking (rest : List (String × String))
  | writing (ref artifactHash : String) (dreps : ℕ) (rest : List (String × String))

/-- A complete bundle, by the time of its snapshot. -/
structure SurveyBundle where
  fetchedAt : Option ℤ
  deriving DecidableEq

/-- `tallyOneSurvey` for one survey: the row as it was read. -/
structure TallyCall where
  budget : ℕ
  rest : List String
  ref : String
  row : SurveyRow

inductive TallyProc
  | powering
  | stale (epoch : ℤ)
  | missing (staleRefs : List String)
  | enqueueing (chunks : List (List String))
  | taking
  | tallying (budget : ℕ) (rest : List String)
  | marked (budget : ℕ) (ref : String) (rest : List String)
  | collecting (call : TallyCall)
  | weighing (call : TallyCall) (bundle : SurveyBundle)
  | reading (call : TallyCall) (bundle : SurveyBundle) (powerEpoch : ℤ)
  | writing (call : TallyCall) (tally : SurveyTallyRow)
  | dequeueing (call : TallyCall)

inductive SurveyProc
  | start (now : ℤ)
  | mirror (pass : MirrorPass) (proc : MirrorProc)
  | publish (run : SurveyRun) (proc : PublishProc)
  | count (run : SurveyRun) (proc : CountProc)
  | tally (run : SurveyRun) (proc : TallyProc)
  | done (result : SurveysSyncResult)

/-- An artifact, by its end epoch and the number of its DRep responders, if it has that role. -/
structure TallyArtifact where
  endEpoch : ℤ
  drepResponders : Option ℕ
  deriving DecidableEq

/-- What a step is given: the next answer from outside, the ids of a thread, or nothing. A call may
throw, and a run may be cut off. -/
inductive SurveyInput
  | statement
  | changes (page : Option SurveyChanges)
  | ids (topicId postId rand : String)
  | artifact (found : Option TallyArtifact)
  | bundlePage (complete : Option SurveyBundle)
  | power (epoch : Option ℤ)
  | throws
  | dies
  deriving DecidableEq

/-! ### The passes -/

def SurveyRun.begin (now : ℤ) : SurveyRun := ⟨now, ⟨false, 0, 0, 0, 0, 0, 0⟩, 0⟩

/-- The end of a page: the loop goes on, or has reached its end. -/
def MirrorPass.applied (pass : MirrorPass) (changes : SurveyChanges) (cfg : SurveyTexts)
    (rolledBack : ℕ) : SurveyProc :=
  let pass := { pass with
    run := { pass.run with result := { pass.run.result with
      written := pass.run.result.written + (changes.admitted cfg pass.run.now).length
      rolledBack := pass.run.result.rolledBack + rolledBack } }
    pages := pass.pages + 1
    cursor := some changes.nextCursor
    asOf := changes.set.fetchedAt <|> pass.asOf
    sourceIncomplete := pass.sourceIncomplete || changes.set.incomplete }
  if changes.isFull then
    .mirror pass (if pass.pages < MAX_LIST_PAGES then .asking else .bookkeeping false)
  else .mirror pass (.bookkeeping true)

/-- What `putSurveySyncState` writes. -/
def MirrorPass.newState (pass : MirrorPass) (complete : Bool) : SurveySyncState :=
  let advanced := complete && pass.asOf.isSome
  { changesCursor := pass.cursor
    tesseraFetchedAt := if advanced then pass.asOf else pass.state.tesseraFetchedAt
    incomplete := if advanced then pass.sourceIncomplete else pass.state.incomplete }

def mirrorStep (cfg : SurveyTexts) (input : SurveyInput) (db : SurveyDb) (pass : MirrorPass) :
    MirrorProc → Option (SurveyDb × SurveyProc)
  | .asking =>
    let asked := { pass with run.requestsSpent := pass.run.requestsSpent + 1 }
    match input with
    | .changes none => some (db, .done { pass.run.result with notReady := true })
    | .changes (some changes) =>
      some (db, .mirror asked (.reading changes (slices D1_MAX_BINDS
        (changes.withdrawn ++ (changes.admitted cfg pass.run.now).map (·.ref))) []))
    | .throws => some (db, .mirror { asked with run := asked.run.fail } (.bookkeeping false))
    | _ => none
  | .reading changes chunks facts =>
    match input, chunks with
    | .statement, [] =>
      some (db, .mirror pass (.applying changes facts
        (applyDelta changes.withdrawn (changes.admitted cfg pass.run.now) facts) 0))
    | .statement, refs :: chunks =>
      some (db, .mirror pass (.reading changes chunks (getStoredSurveyFacts db refs ++ facts)))
    | .throws, _ => some (db, .mirror { pass with run := pass.run.fail } (.bookkeeping false))
    | _, _ => none
  | .applying changes facts ops rolledBack =>
    match input, ops with
    | .statement, [] => some (db, pass.applied changes cfg rolledBack)
    | .statement, op :: ops =>
      some (op.apply pass.run.now db,
        .mirror pass (.applying changes facts ops (rolledBack + op.withdraws db)))
    | .throws, _ => some (db, .mirror { pass with run := pass.run.fail } (.bookkeeping false))
    | _, _ => none
  | .bookkeeping complete =>
    match input with
    | .statement =>
      some ({ db with state := pass.newState complete }, .publish pass.run .listing)
    | .throws => some (db, .done pass.run.result)
    | _ => none

/-- What `createTopic` is called with for a survey. -/
def SurveyTexts.topicArgs (cfg : SurveyTexts) (p : PublishableSurvey) (now : ℤ)
    (topicId postId rand : String) : CreateTopicArgs where
  topicId := topicId
  postId := postId
  slug := cfg.slugify (cfg.surveyTitle p.definitionJson p.ref) rand
  categorySlug := SURVEYS_CATEGORY_SLUG
  authorId := SURVEY_SYNC_AUTHOR
  title := cfg.surveyTitle p.definitionJson p.ref
  bodyMd := cfg.composeFirstPostMd p.definitionJson p.externalContent
  bodyHtml := cfg.renderMarkdown (cfg.composeFirstPostMd p.definitionJson p.externalContent)
  source := .survey
  now := now
  postedAt := some p.submittedAt
  proposerGrantId := none

/-- `publishSurvey`: nothing if it throws, or whether it has opened the thread. -/
def publishSurvey (cfg : SurveyTexts) (db : SurveyDb) (p : PublishableSurvey) (now : ℤ)
    (topicId postId rand : String) : Option (SurveyDb × Bool) :=
  if cfg.decodes p.definitionJson then
    createSurveyTopic db p.ref (cfg.topicArgs p now topicId postId rand)
  else none

def publishStep (cfg : SurveyTexts) (input : SurveyInput) (db : SurveyDb) (run : SurveyRun) :
    PublishProc → Option (SurveyDb × SurveyProc)
  | .listing =>
    match input with
    | .statement => some (db, .publish run (.publishing (getPublishableSurveys db)))
    | .throws => some (db, .count run.fail .listing)
    | _ => none
  | .publishing [] =>
    match input with
    | .statement => some (db, .count run .listing)
    | _ => none
  | .publishing (p :: rest) =>
    match input with
    | .ids topicId postId rand =>
      match publishSurvey cfg db p run.now topicId postId rand with
      | some (db', opened) =>
        let published := if opened then run.result.published + 1 else run.result.published
        some (db', .publish { run with result.published := published } (.publishing rest))
      | none => some (db, .publish run.fail (.publishing rest))
    | .throws => some (db, .publish run.fail (.publishing rest))
    | _ => none

def countStep (input : SurveyInput) (db : SurveyDb) (run : SurveyRun) :
    CountProc → Option (SurveyDb × SurveyProc)
  | .listing =>
    match input with
    | .statement => some (db, .count run (.asking (getSurveysAwaitingFinalCount db)))
    | .throws => some (db, .tally run.fail .powering)
    | _ => none
  | .asking [] =>
    match input with
    | .statement => some (db, .tally run .powering)
    | _ => none
  | .asking ((ref, artifactHash) :: rest) =>
    let asked := { run with requestsSpent := run.requestsSpent + 1 }
    match input with
    | .artifact (some found) =>
      some (db, .count asked (.writing ref artifactHash (found.drepResponders.getD 0) rest))
    | .artifact none | .throws => some (db, .count asked.fail (.asking rest))
    | _ => none
  | .writing ref artifactHash dreps rest =>
    match input with
    | .statement =>
      let wrote := setSurveyFinalCount db ref artifactHash dreps run.now
      let finalCounts := if wrote.2 then run.result.finalCounts + 1 else run.result.finalCounts
      some (wrote.1, .count { run with result.finalCounts := finalCounts } (.asking rest))
    | .throws => some (db, .count run.fail (.asking rest))
    | _ => none

/-- The survey is finalized, with its artifact. -/
def SurveyRow.isFinalized (s : SurveyRow) : Bool :=
  s.finalState == some .finalized && s.artifactHash.isSome

/-- The flags of the row let a tally be computed. -/
def SurveyRow.isTallied (s : SurveyRow) : Bool :=
  !(s.unavailable || s.externalContent || s.cancelled || s.finalState == some .untalliable ||
    !drepAnswerable s.eligibleRoles) && !(s.sealed && !s.isFinalized)

/-- The tally as it is written: bound to the artifact, if there is one. -/
def TallyCall.tally (call : TallyCall) (bundle : SurveyBundle) (powerEpoch now : ℤ)
    (artifact : Option TallyArtifact) : SurveyTallyRow where
  surveyRef := call.ref
  weightedSource := if artifact.isSome then .artifact else .live
  artifactHash := artifact.bind fun _ => call.row.artifactHash
  powerEpoch := (artifact.map (·.endEpoch)).getD powerEpoch
  bundleFetchedAt := bundle.fetchedAt.getD (now / 1000)
  computedAt := now / 1000

/-- Pass 4: nothing is written of a survey that is not tallied, and its work stays queued. -/
def tallyStep (cfg : SurveyTexts) (input : SurveyInput) (db : SurveyDb) (run : SurveyRun) :
    TallyProc → Option (SurveyDb × SurveyProc)
  | .powering =>
    match input with
    | .power none => some (db, .done run.result)
    | .power (some epoch) => some (db, .tally run (.stale epoch))
    | .throws => some (db, .done run.fail.result)
    | _ => none
  | .stale epoch =>
    match input with
    | .statement => some (db, .tally run (.missing (getStaleLiveRefs db epoch MAX_TALLY_REQUESTS)))
    | .throws => some (db, .done run.fail.result)
    | _ => none
  | .missing staleRefs =>
    match input with
    | .statement => some (db, .tally run (.enqueueing (slices (D1_MAX_BINDS / 2)
        (staleRefs ++ getRefsWithoutTally db MAX_TALLY_REQUESTS))))
    | .throws => some (db, .done run.fail.result)
    | _ => none
  | .enqueueing chunks =>
    match input, chunks with
    | .statement, [] => some (db, .tally run .taking)
    | .statement, refs :: chunks =>
      some (enqueueSurveyTallies db refs run.now, .tally run (.enqueueing chunks))
    | .throws, _ => some (db, .done run.fail.result)
    | _, _ => none
  | .taking =>
    match input with
    | .statement => some (db, .tally run (.tallying (MAX_TALLY_REQUESTS - run.requestsSpent)
        (takeSurveyTallyWork db MAX_TALLY_REQUESTS)))
    | .throws => some (db, .done run.fail.result)
    | _ => none
  | .tallying budget rest =>
    match input, rest with
    | .statement, [] => some (db, .done run.result)
    | .statement, ref :: rest =>
      if budget = 0 then some (db, .done run.result)
      else some (markSurveyTallyAttempt db ref run.now, .tally run (.marked budget ref rest))
    | .throws, _ => some (db, .done run.fail.result)
    | _, _ => none
  | .marked budget ref rest =>
    match input with
    | .statement =>
      match getSurveyByRef db ref with
      | some row =>
        if row.isTallied && cfg.decodes row.definitionJson then
          some (db, .tally run (.collecting ⟨budget, rest, ref, row⟩))
        else some (db, .tally run (.tallying budget rest))
      | none => some (db, .tally run (.tallying budget rest))
    | .throws => some (db, .tally run.fail (.tallying budget rest))
    | _ => none
  | .collecting call =>
    if call.budget = 0 then some (db, .tally run (.tallying 0 call.rest))
    else
      let call := { call with budget := call.budget - 1 }
      match input with
      | .bundlePage none => some (db, .tally run (.collecting call))
      | .bundlePage (some bundle) => some (db, .tally run (.weighing call bundle))
      | .throws => some (db, .tally run.fail (.tallying call.budget call.rest))
      | _ => none
  | .weighing call bundle =>
    match input with
    | .power none => some (db, .tally run (.tallying call.budget call.rest))
    | .power (some epoch) =>
      if call.row.isFinalized then some (db, .tally run (.reading call bundle epoch))
      else some (db, .tally run (.writing call (call.tally bundle epoch run.now none)))
    | .throws => some (db, .tally run.fail (.tallying call.budget call.rest))
    | _ => none
  | .reading call bundle epoch =>
    if call.budget = 0 then some (db, .tally run (.tallying 0 call.rest))
    else
      let call := { call with budget := call.budget - 1 }
      match input with
      | .artifact (some found) =>
        some (db, .tally run (.writing call (call.tally bundle epoch run.now (some found))))
      | .artifact none | .throws => some (db, .tally run.fail (.tallying call.budget call.rest))
      | _ => none
  | .writing call tally =>
    match input with
    | .statement =>
      let wrote := upsertSurveyTally db tally call.row.artifactHash
      some (wrote.1, .tally run
        (if wrote.2 then .dequeueing call else .tallying call.budget call.rest))
    | .throws => some (db, .tally run.fail (.tallying call.budget call.rest))
    | _ => none
  | .dequeueing call =>
    match input with
    | .statement =>
      some (dequeueSurveyTally db call.ref run.now,
        .tally { run with result.tallies := run.result.tallies + 1 }
          (.tallying call.budget call.rest))
    | .throws => some (db, .tally run.fail (.tallying call.budget call.rest))
    | _ => none

def SurveyProc.result : SurveyProc → SurveysSyncResult
  | .start now => (SurveyRun.begin now).result
  | .mirror pass _ => pass.run.result
  | .publish run _ | .count run _ | .tally run _ => run.result
  | .done result => result

def surveyStep (cfg : SurveyTexts) (input : SurveyInput) (db : SurveyDb) (p : SurveyProc) :
    Option (SurveyDb × SurveyProc) :=
  match input, p with
  | _, .done _ => none
  | .dies, p => some (db, .done p.result)
  | .throws, .start now => some (db, .done (SurveyRun.begin now).result)
  | .statement, .start now =>
    some (db, .mirror ⟨.begin now, db.state, 0, db.state.changesCursor, none, false⟩ .asking)
  | _, .start _ => none
  | input, .mirror pass proc => mirrorStep cfg input db pass proc
  | input, .publish run proc => publishStep cfg input db run proc
  | input, .count run proc => countStep input db run proc
  | input, .tally run proc => tallyStep cfg input db run proc

/-! ### The moves of a pass -/

inductive MirrorMove (cfg : SurveyTexts) (db : SurveyDb) (pass : MirrorPass) :
    MirrorProc → SurveyInput → SurveyDb → SurveyProc → Prop
  | notReady (result : SurveysSyncResult) :
      MirrorMove cfg db pass .asking (.changes none) db (.done result)
  | page (c : SurveyChanges) (requestsSpent : ℕ) :
      MirrorMove cfg db pass .asking (.changes (some c)) db
        (.mirror { pass with run.requestsSpent := requestsSpent } (.reading c
          (slices D1_MAX_BINDS (c.withdrawn ++ (c.admitted cfg pass.run.now).map (·.ref))) []))
  | facts (c : SurveyChanges) (refs : List String) (chunks : List (List String))
      (facts : List (String × SurveyFacts)) :
      MirrorMove cfg db pass (.reading c (refs :: chunks) facts) .statement db
        (.mirror pass (.reading c chunks (getStoredSurveyFacts db refs ++ facts)))
  | plan (c : SurveyChanges) (facts : List (String × SurveyFacts)) :
      MirrorMove cfg db pass (.reading c [] facts) .statement db (.mirror pass (.applying c facts
        (applyDelta c.withdrawn (c.admitted cfg pass.run.now) facts) 0))
  | op (c : SurveyChanges) (facts : List (String × SurveyFacts)) (op : SurveyOp)
      (ops : List SurveyOp) (n n' : ℕ) :
      MirrorMove cfg db pass (.applying c facts (op :: ops) n) .statement
        (op.apply pass.run.now db) (.mirror pass (.applying c facts ops n'))
  | applied (c : SurveyChanges) (facts : List (String × SurveyFacts)) (n : ℕ) :
      MirrorMove cfg db pass (.applying c facts [] n) .statement db (pass.applied c cfg n)
  | caught (proc : MirrorProc) (run : SurveyRun) (hnow : run.now = pass.run.now) :
      MirrorMove cfg db pass proc .throws db (.mirror { pass with run := run } (.bookkeeping false))
  | put (complete : Bool) :
      MirrorMove cfg db pass (.bookkeeping complete) .statement
        { db with state := pass.newState complete } (.publish pass.run .listing)
  | putThrows (complete : Bool) :
      MirrorMove cfg db pass (.bookkeeping complete) .throws db (.done pass.run.result)

/-- The survey that is being tallied, with its row as it was read. -/
def TallyProc.call : TallyProc → Option TallyCall
  | .collecting call | .weighing call _ | .reading call _ _ | .writing call _ | .dequeueing call =>
    some call
  | _ => none

inductive SurveyTallyMove (db : SurveyDb) (run : SurveyRun) :
    TallyProc → SurveyInput → SurveyDb → SurveyProc → Prop
  | next {proc : TallyProc} {input : SurveyInput} (run' : SurveyRun) (proc' : TallyProc)
      (hnow : run'.now = run.now) (hcall : proc'.call = none)
      (hmarked : ∀ budget ref rest, proc' ≠ .marked budget ref rest) :
      SurveyTallyMove db run proc input db (.tally run' proc')
  | over {proc : TallyProc} {input : SurveyInput} (result : SurveysSyncResult) :
      SurveyTallyMove db run proc input db (.done result)
  | enqueue (refs : List String) (chunks : List (List String)) :
      SurveyTallyMove db run (.enqueueing (refs :: chunks)) .statement
        (enqueueSurveyTallies db refs run.now) (.tally run (.enqueueing chunks))
  | mark (budget : ℕ) (ref : String) (rest : List String) :
      SurveyTallyMove db run (.tallying budget (ref :: rest)) .statement
        (markSurveyTallyAttempt db ref run.now) (.tally run (.marked budget ref rest))
  | «begin» (budget : ℕ) (ref : String) (rest : List String) {row : SurveyRow}
      (hrow : getSurveyByRef db ref = some row) (htallied : row.isTallied = true) :
      SurveyTallyMove db run (.marked budget ref rest) .statement db
        (.tally run (.collecting ⟨budget, rest, ref, row⟩))
  | page (call : TallyCall) (budget : ℕ) :
      SurveyTallyMove db run (.collecting call) (.bundlePage none) db
        (.tally run (.collecting { call with budget := budget }))
  | bundle (call : TallyCall) (budget : ℕ) (b : SurveyBundle) :
      SurveyTallyMove db run (.collecting call) (.bundlePage (some b)) db
        (.tally run (.weighing { call with budget := budget } b))
  | weigh (call : TallyCall) (b : SurveyBundle) (epoch : ℤ) :
      SurveyTallyMove db run (.weighing call b) (.power (some epoch)) db
        (.tally run (.reading call b epoch))
  | live (call : TallyCall) (b : SurveyBundle) (epoch : ℤ) (hlive : call.row.isFinalized = false) :
      SurveyTallyMove db run (.weighing call b) (.power (some epoch)) db
        (.tally run (.writing call (call.tally b epoch run.now none)))
  | artifact (call : TallyCall) (budget : ℕ) (b : SurveyBundle) (epoch : ℤ)
      (found : TallyArtifact) :
      SurveyTallyMove db run (.reading call b epoch) (.artifact (some found)) db
        (.tally run (.writing { call with budget := budget }
          (call.tally b epoch run.now (some found))))
  | write (call : TallyCall) (tally : SurveyTallyRow) :
      SurveyTallyMove db run (.writing call tally) .statement
        (upsertSurveyTally db tally call.row.artifactHash).1
        (.tally run (if (upsertSurveyTally db tally call.row.artifactHash).2 then .dequeueing call
          else .tallying call.budget call.rest))
  | dequeue (call : TallyCall) (run' : SurveyRun) (hnow : run'.now = run.now) :
      SurveyTallyMove db run (.dequeueing call) .statement (dequeueSurveyTally db call.ref run.now)
        (.tally run' (.tallying call.budget call.rest))

section Moves

variable {cfg : SurveyTexts} {input : SurveyInput} {db db' : SurveyDb} {p' : SurveyProc}

theorem mirrorStep_move {pass : MirrorPass} {proc : MirrorProc}
    (h : mirrorStep cfg input db pass proc = some (db', p')) :
    MirrorMove cfg db pass proc input db' p' := by
  cases proc with
  | asking =>
    simp only [mirrorStep] at h
    split at h <;> cases h
    · exact .notReady _
    · exact .page _ _
    · exact .caught _ _ rfl
  | reading c chunks facts =>
    simp only [mirrorStep] at h
    split at h <;> cases h
    · exact .plan c facts
    · exact .facts c _ _ facts
    · exact .caught _ _ rfl
  | applying c facts ops n =>
    simp only [mirrorStep] at h
    split at h <;> cases h
    · exact .applied c facts n
    · exact .op c facts _ _ n _
    · exact .caught _ _ rfl
  | bookkeeping complete =>
    simp only [mirrorStep] at h
    split at h <;> cases h
    · exact .put complete
    · exact .putThrows complete

variable {run : SurveyRun} {proc : TallyProc}

private theorem next_of_some {run' : SurveyRun} {proc' : TallyProc}
    (h : some (db, SurveyProc.tally run' proc') = some (db', p'))
    (hnow : run'.now = run.now := by rfl) (hcall : proc'.call = none := by rfl)
    (hmarked : ∀ budget ref rest, proc' ≠ .marked budget ref rest := by simp) :
    SurveyTallyMove db run proc input db' p' := by
  cases h
  exact .next run' proc' hnow hcall hmarked

private theorem over_of_some {result : SurveysSyncResult}
    (h : some (db, SurveyProc.done result) = some (db', p')) :
    SurveyTallyMove db run proc input db' p' := by
  cases h
  exact .over result

theorem surveyTallyStep_move (h : tallyStep cfg input db run proc = some (db', p')) :
    SurveyTallyMove db run proc input db' p' := by
  cases proc with
  | powering | stale | missing | taking =>
    simp only [tallyStep] at h
    split at h
    all_goals first
      | exact over_of_some h
      | exact next_of_some h
      | cases h
  | enqueueing chunks =>
    simp only [tallyStep] at h
    split at h
    · exact next_of_some h
    · cases h
      exact .enqueue _ _
    · exact over_of_some h
    · cases h
  | tallying budget rest =>
    simp only [tallyStep] at h
    split at h
    · exact over_of_some h
    · split_ifs at h
      · exact over_of_some h
      · cases h
        exact .mark budget _ _
    · exact over_of_some h
    · cases h
  | marked budget ref rest =>
    simp only [tallyStep] at h
    split at h
    · split at h
      · rename_i row hrow
        split_ifs at h with htallied
        · cases h
          exact .begin budget ref rest hrow (Bool.and_eq_true_iff.mp htallied).1
        · exact next_of_some h
      · exact next_of_some h
    · exact next_of_some h
    · cases h
  | collecting call =>
    simp only [tallyStep] at h
    split_ifs at h
    · exact next_of_some h
    · split at h
      · cases h
        exact .page call _
      · cases h
        exact .bundle call _ _
      · exact next_of_some h
      · cases h
  | weighing call b =>
    simp only [tallyStep] at h
    split at h
    · exact next_of_some h
    · split_ifs at h with hfinal <;> cases h
      · exact .weigh call b _
      · exact .live call b _ (Bool.not_eq_true _ ▸ hfinal)
    · exact next_of_some h
    · cases h
  | reading call b epoch =>
    simp only [tallyStep] at h
    split_ifs at h
    · exact next_of_some h
    · split at h
      · cases h
        exact .artifact call _ b epoch _
      · exact next_of_some h
      · exact next_of_some h
      · cases h
  | writing call tally =>
    simp only [tallyStep] at h
    split at h
    · cases h
      exact .write call tally
    · exact next_of_some h
    · cases h
  | dequeueing call =>
    simp only [tallyStep] at h
    split at h
    · cases h
      exact .dequeue call _ rfl
    · exact next_of_some h
    · cases h

end Moves

end DrepTalk
