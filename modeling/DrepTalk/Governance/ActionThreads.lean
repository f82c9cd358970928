import DrepTalk.Forum.Threads

/-!
# The threads of governance actions

`syncGovernanceActions` and `createDeferredGovTopics` of `src/lib/governance/sync.ts`, with the
statements that they write to `governance_actions`: actions that the chain lists are stored, and
each gets a thread, at once or when its document can be read.

A run is a process over the database: it reads which actions are known, or which wait for a thread,
and goes through them one by one. Fetching a document is a step whose result comes from outside, and
any step may throw; a batch throws where a key is taken. The texts that a run composes, and the
slugs of threads that references name, are parameters.
-/

namespace DrepTalk

/-- `AnchorStatus`, and `no-anchor`. -/
inductive AnchorStatus
  | ok
  | no_anchor
  | unsupported_url
  | fetch_failed
  | rate_limited
  | too_large
  | bad_content_type
  | hash_mismatch
  | parse_failed
  deriving DecidableEq

structure AnchorReference where
  label : String
  uri : String

structure AnchorMetadata where
  title : Option String
  abstract : Option String
  rationaleHtml : Option String
  authors : Option (List String)
  references : Option (List AnchorReference)

/-- `AnchorResult`: the metadata is there only when the document could be read. -/
inductive AnchorResult
  | read (metadata : AnchorMetadata)
  | unread (status : AnchorStatus)

def AnchorResult.status : AnchorResult → AnchorStatus
  | .read _ => .ok
  | .unread status => status

def AnchorResult.metadata : AnchorResult → AnchorMetadata
  | .read metadata => metadata
  | .unread _ => ⟨none, none, none, none, none⟩

/-- A row of `governance_actions`. -/
structure GovernanceAction where
  id : String
  proposalId : Option String
  type : String
  title : Option String
  abstract : Option String
  rationaleHtml : Option String
  authors : Option (List String)
  references : Option (List AnchorReference)
  anchorUrl : Option String
  anchorHash : Option String
  anchorStatus : AnchorStatus
  returnAddress : Option String
  deposit : Option String
  submittedEpoch : Option ℤ
  submittedAt : Option ℤ
  expiryEpoch : Option ℤ
  enactedEpoch : Option ℤ
  onchainPayload : Option String
  status : String
  metaVersion : ℕ
  metaAttempts : ℕ
  topicId : Option String
  draftTopicId : Option String
  draftLinkRejected : Bool
  createdAt : ℤ
  lastSyncedAt : ℤ

/-- An event of type `gov_created`. -/
structure GovCreatedEvent where
  topicId : String
  type : String
  title : String
  createdAt : ℤ

structure GovDb where
  forum : ForumTables
  actions : KeyedTable fun row : GovernanceAction => row.id
  govCreated : List GovCreatedEvent

structure ProposalListRow where
  proposalTxHash : String
  proposalIndex : ℕ
  proposalId : String
  proposalType : String
  metaUrl : Option String
  metaHash : Option String
  returnAddress : Option String
  deposit : Option String
  proposedEpoch : Option ℤ
  expiration : Option ℤ
  enactedEpoch : Option ℤ
  blockTime : Option ℤ
  proposalDescription : Option String
  deriving DecidableEq

def ProposalListRow.id (p : ProposalListRow) : String :=
  p.proposalTxHash ++ "#" ++ toString p.proposalIndex

structure FirstPostFields where
  proposalType : String
  returnAddress : Option String
  deposit : Option String
  proposedEpoch : Option ℤ
  expiration : Option ℤ
  proposalId : Option String

/-- The texts of a thread, and what is read off references. -/
structure ThreadTexts where
  fallbackActionTitle : String → String → String
  composeFirstPostMd : FirstPostFields → Option String → String
  renderMarkdown : String → String
  slugify : String → String → String
  draftSlugsFromReferences : List AnchorReference → List String

/-- The network: its texts, and where an epoch starts. -/
structure GovNetwork extends ThreadTexts where
  epochStartMs : ℤ → ℤ

def GOV_SYNC_AUTHOR : String := "gov-sync"

def GOVERNANCE_CATEGORY_SLUG : String := "governance-actions"

def PROPOSAL_DRAFTS_CATEGORY_SLUG : String := "proposal-drafts"

def META_EXTRACT_VERSION : ℕ := 5

def DEFERRED_TOPIC_MAX_ATTEMPTS : ℕ := 6

def anchorMayStillAnswer (status : AnchorStatus) : Bool :=
  [AnchorStatus.fetch_failed, .rate_limited, .bad_content_type].contains status

def nonEmpty (text : Option String) : Option String := text.filter (· != "")

def govPostedAtMs (cfg : GovNetwork) (submittedAt submittedEpoch : Option ℤ) (now : ℤ) : ℤ :=
  submittedAt.getD ((submittedEpoch.map cfg.epochStartMs).getD now)

/-! ### Statements -/

/-- `buildInsertGovernanceAction`. -/
def insertGovernanceAction (db : GovDb) (row : GovernanceAction) : GovDb :=
  { db with actions := db.actions.insertOrIgnore row }

/-- `buildAttachActionTopic`. -/
def attachActionTopic (db : GovDb) (id topicId : String) : GovDb :=
  { db with
    actions := db.actions.updateWhere (fun a => a.id == id && a.topicId.isNone)
      (fun a => { a with topicId := some topicId }) fun _ _ => rfl }

def incrementActionMetaAttempts (db : GovDb) (id : String) : GovDb :=
  { db with
    actions := db.actions.updateWhere (fun a => a.id == id)
      (fun a => { a with metaAttempts := a.metaAttempts + 1 }) fun _ _ => rfl }

def updateActionMetadata (db : GovDb) (id : String) (m : AnchorMetadata) : GovDb :=
  { db with
    actions := db.actions.updateWhere (fun a => a.id == id)
      (fun a => { a with
        title := m.title, abstract := m.abstract, rationaleHtml := m.rationaleHtml,
        authors := m.authors, references := m.references, anchorStatus := .ok,
        metaVersion := META_EXTRACT_VERSION, metaAttempts := 0 }) fun _ _ => rfl }

def backfillEnacted (db : GovDb) (enacted : List (String × ℤ)) : GovDb :=
  enacted.foldl (fun db (id, epoch) =>
    { db with
      actions := db.actions.updateWhere (fun a => a.id == id && a.enactedEpoch.isNone)
        (fun a => { a with enactedEpoch := some epoch }) fun _ _ => rfl }) db

/-- `buildDraftLinkStatements`: link, then lock. -/
def linkDraft (db : GovDb) (actionId draftTopicId : String) : GovDb :=
  let actions := db.actions.updateWhere
    (fun a => a.id == actionId && a.draftTopicId.isNone && !a.draftLinkRejected && a.topicId.isSome)
    (fun a => { a with draftTopicId := some draftTopicId }) fun _ _ => rfl
  let topics := db.forum.topics.updateWhere
    (fun t => t.id == draftTopicId &&
      actions.rows.any fun a => a.id == actionId && a.draftTopicId == some draftTopicId)
    (fun t => { t with locked := true }) (fun _ _ => rfl) fun _ _ => rfl
  { db with forum := { db.forum with topics := topics }, actions := actions }

/-- `resolveDraftTopic`: the first of the slugs that is a live draft. -/
def resolveDraftTopic (db : GovDb) (slugs : List String) : Option String :=
  slugs.findSome? fun slug =>
    (db.forum.topics.rows.find? fun t => t.slug == slug &&
      t.categorySlug == PROPOSAL_DRAFTS_CATEGORY_SLUG && !t.deleted).map (·.id)

def draftTopicFor (cfg : GovNetwork) (db : GovDb) (refs : Option (List AnchorReference)) :
    Option String :=
  resolveDraftTopic db (cfg.draftSlugsFromReferences (refs.getD []))

/-! ### Opening a thread -/

/-- The statement that links an action to its thread. -/
inductive ThreadLink
  | insert (row : GovernanceAction)
  | attach

/-- The arguments of `openGovActionTopic`. -/
structure ThreadOpening where
  actionId : String
  type : String
  title : String
  bodyMd : String
  postedAt : ℤ
  link : ThreadLink

/-- The ids a thread is written under, and the suffix of its slug. -/
structure ThreadIds where
  topicId : String
  postId : String
  rand : String

/-- What `createTopic` is called with. -/
def ThreadOpening.createArgs (cfg : GovNetwork) (a : ThreadOpening) (ids : ThreadIds) (now : ℤ) :
    CreateTopicArgs where
  topicId := ids.topicId
  postId := ids.postId
  slug := cfg.slugify a.title ids.rand
  categorySlug := GOVERNANCE_CATEGORY_SLUG
  authorId := GOV_SYNC_AUTHOR
  title := a.title
  bodyMd := a.bodyMd
  bodyHtml := cfg.renderMarkdown a.bodyMd
  source := .governance
  now := now
  postedAt := some a.postedAt
  proposerGrantId := none

/-- The statement `link`. -/
def ThreadOpening.runLink (a : ThreadOpening) (topicId : String) (db : GovDb) : GovDb :=
  match a.link with
  | .insert row => insertGovernanceAction db { row with topicId := some topicId }
  | .attach => attachActionTopic db a.actionId topicId

/-- `openGovActionTopic`: one batch. It fails where a key is taken. -/
def openGovActionTopic (cfg : GovNetwork) (db : GovDb) (a : ThreadOpening)
    (draftTopicId : Option String) (ids : ThreadIds) (now : ℤ) : Option GovDb :=
  (createTopic db.forum (a.createArgs cfg ids now)).map fun forum =>
    let db := a.runLink ids.topicId { db with forum := forum }
    let db := { db with
      govCreated := db.govCreated ++ [⟨ids.topicId, a.type, a.title, a.postedAt⟩] }
    draftTopicId.elim db (linkDraft db a.actionId)

/-! ### Runs -/

/-- A run of `syncGovernanceActions`. -/
structure SyncRun where
  now : ℤ
  proposals : List ProposalListRow
  known : List String
  rest : List ProposalListRow
  created : ℕ
  deferred : ℕ
  skipped : ℕ
  failed : ℕ
  enactedBackfill : List (String × ℤ)

/-- A run of `createDeferredGovTopics`. -/
structure DeferredRun where
  now : ℤ
  scanned : ℕ
  rest : List GovernanceAction
  created : ℕ
  deferred : ℕ
  failed : ℕ

def ProposalListRow.newRow (p : ProposalListRow) (anchor : AnchorResult) (now : ℤ) :
    GovernanceAction where
  id := p.id
  proposalId := some p.proposalId
  type := p.proposalType
  title := anchor.metadata.title
  abstract := anchor.metadata.abstract
  rationaleHtml := anchor.metadata.rationaleHtml
  authors := anchor.metadata.authors
  references := anchor.metadata.references
  anchorUrl := p.metaUrl
  anchorHash := p.metaHash
  anchorStatus := anchor.status
  returnAddress := p.returnAddress
  deposit := p.deposit
  submittedEpoch := p.proposedEpoch
  submittedAt := p.blockTime.map (· * 1000)
  expiryEpoch := p.expiration
  enactedEpoch := p.enactedEpoch
  onchainPayload := p.proposalDescription
  status := "pending"
  metaVersion :=
    if anchor.status = .ok ∨ anchor.status = .no_anchor then META_EXTRACT_VERSION else 0
  metaAttempts := 0
  topicId := none
  draftTopicId := none
  draftLinkRejected := false
  createdAt := now
  lastSyncedAt := now

def ProposalListRow.opening (cfg : GovNetwork) (p : ProposalListRow) (anchor : AnchorResult)
    (now : ℤ) : ThreadOpening where
  actionId := p.id
  type := p.proposalType
  title := (nonEmpty anchor.metadata.title).getD (cfg.fallbackActionTitle p.proposalType p.id)
  bodyMd := cfg.composeFirstPostMd
    ⟨p.proposalType, p.returnAddress, p.deposit, p.proposedEpoch, p.expiration,
      some p.proposalId⟩
    anchor.metadata.abstract
  postedAt := govPostedAtMs cfg (p.blockTime.map (· * 1000)) p.proposedEpoch now
  link := .insert (p.newRow anchor now)

/-- The thread of an action that has waited for it. -/
def GovernanceAction.opening (cfg : GovNetwork) (ga : GovernanceAction)
    (title abstract : Option String) (now : ℤ) : ThreadOpening where
  actionId := ga.id
  type := ga.type
  title := (nonEmpty title).getD (cfg.fallbackActionTitle ga.type ga.id)
  bodyMd := cfg.composeFirstPostMd
    ⟨ga.type, ga.returnAddress, ga.deposit, ga.submittedEpoch, ga.expiryEpoch, ga.proposalId⟩ abstract
  postedAt := govPostedAtMs cfg ga.submittedAt ga.submittedEpoch now
  link := .attach

/-- Whether the document of an action that waits is read once more. -/
def GovernanceAction.rereads (ga : GovernanceAction) : Bool :=
  (nonEmpty ga.title).isNone && (nonEmpty ga.anchorUrl).isSome && (nonEmpty ga.anchorHash).isSome &&
    decide (ga.metaAttempts < DEFERRED_TOPIC_MAX_ATTEMPTS)

inductive GovProc
  /-- The chain's list has come; what is known is read next. -/
  | listed (now : ℤ) (proposals : List ProposalListRow)
  | syncing (run : SyncRun)
  | fetched (run : SyncRun) (p : ProposalListRow) (anchor : AnchorResult)
  | opening (run : SyncRun) (p : ProposalListRow) (anchor : AnchorResult)
      (draftTopicId : Option String)
  | synced (run : SyncRun)
  | waiting (now : ℤ) (limit : ℕ)
  | holding (run : DeferredRun)
  | reread (run : DeferredRun) (ga : GovernanceAction) (anchor : AnchorResult)
  | drafting (run : DeferredRun) (ga : GovernanceAction) (title abstract : Option String)
      (references : Option (List AnchorReference))
  | attaching (run : DeferredRun) (ga : GovernanceAction) (title abstract : Option String)
      (draftTopicId : Option String)
  | held (run : DeferredRun)
  | threw

/-- What comes in from outside a step. -/
inductive GovInput
  | db
  | anchor (result : AnchorResult)
  | ids (ids : ThreadIds)
  | fails

/-- The batch that opens a thread, with the ids that have been drawn for it. -/
def openStep (cfg : GovNetwork) (db : GovDb) (a : ThreadOpening) (draftTopicId : Option String)
    (now : ℤ) (opened failed : GovProc) (ids : ThreadIds) : GovDb × GovProc :=
  match openGovActionTopic cfg db a draftTopicId ids now with
  | some db' => (db', opened)
  | none => (db, failed)

def govStep (cfg : GovNetwork) (input : GovInput) (db : GovDb) :
    GovProc → Option (GovDb × GovProc)
  | .listed now proposals =>
    match input with
    | .db =>
      some (db, .syncing ⟨now, proposals, db.actions.rows.map (·.id), proposals, 0, 0, 0, 0, []⟩)
    | .fails => some (db, .threw)
    | _ => none
  | .syncing run =>
    match run.rest with
    | [] =>
      match input with
      | .db => some (backfillEnacted db run.enactedBackfill, .synced run)
      | .fails => some (db, .threw)
      | _ => none
    | p :: rest =>
      if run.known.contains p.id then
        some (db, .syncing { run with
          rest := rest, skipped := run.skipped + 1,
          enactedBackfill := run.enactedBackfill ++ (p.enactedEpoch.map fun e => (p.id, e)).toList })
      else
        match input with
        | .anchor result =>
          let result :=
            if (nonEmpty p.metaUrl).isSome && (nonEmpty p.metaHash).isSome then result
            else .unread .no_anchor
          some (db, .fetched { run with rest := rest } p result)
        | .fails => some (db, .syncing { run with rest := rest, failed := run.failed + 1 })
        | _ => none
  | .fetched run p anchor =>
    match input with
    | .db =>
      if (nonEmpty anchor.metadata.title).isNone && anchorMayStillAnswer anchor.status then
        some (insertGovernanceAction db (p.newRow anchor run.now),
          .syncing { run with deferred := run.deferred + 1 })
      else some (db, .opening run p anchor (draftTopicFor cfg db anchor.metadata.references))
    | .fails => some (db, .syncing { run with failed := run.failed + 1 })
    | _ => none
  | .opening run p anchor draftTopicId =>
    match input with
    | .ids ids =>
      some (openStep cfg db (p.opening cfg anchor run.now) draftTopicId run.now
        (.syncing { run with created := run.created + 1 })
        (.syncing { run with failed := run.failed + 1 }) ids)
    | .fails => some (db, .syncing { run with failed := run.failed + 1 })
    | _ => none
  | .waiting now limit =>
    match input with
    | .db =>
      let candidates := (db.actions.rows.filter fun a => a.topicId.isNone).take limit
      some (db, .holding ⟨now, candidates.length, candidates, 0, 0, 0⟩)
    | .fails => some (db, .threw)
    | _ => none
  | .holding run =>
    match run.rest with
    | [] => some (db, .held run)
    | ga :: rest =>
      if ga.rereads then
        match input with
        | .anchor result => some (db, .reread { run with rest := rest } ga result)
        | .fails => some (db, .holding { run with rest := rest, failed := run.failed + 1 })
        | _ => none
      else some (db, .drafting { run with rest := rest } ga ga.title ga.abstract ga.references)
  | .reread run ga anchor =>
    match input with
    | .db =>
      match anchor with
      | .read m =>
        some (updateActionMetadata db ga.id m, .drafting run ga m.title m.abstract m.references)
      | .unread status =>
        some (incrementActionMetaAttempts db ga.id,
          if anchorMayStillAnswer status then .holding { run with deferred := run.deferred + 1 }
          else .drafting run ga ga.title ga.abstract ga.references)
    | .fails => some (db, .holding { run with failed := run.failed + 1 })
    | _ => none
  | .drafting run ga title abstract references =>
    match input with
    | .db => some (db, .attaching run ga title abstract (draftTopicFor cfg db references))
    | .fails => some (db, .holding { run with failed := run.failed + 1 })
    | _ => none
  | .attaching run ga title abstract draftTopicId =>
    match input with
    | .ids ids =>
      some (openStep cfg db (ga.opening cfg title abstract run.now) draftTopicId run.now
        (.holding { run with created := run.created + 1 })
        (.holding { run with failed := run.failed + 1 }) ids)
    | .fails => some (db, .holding { run with failed := run.failed + 1 })
    | _ => none
  | .synced _ | .held _ | .threw => none

end DrepTalk
