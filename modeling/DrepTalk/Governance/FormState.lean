import DrepTalk.Governance.FormDraft

/-!
# The submit form of a governance action

`govActionFormReducer` of `src/lib/governance/govActionFormState.ts`: the type of the action, its
metadata, a panel of each type, the live context of the chain, the wallet and the check of the
recipients, as they follow from the actions of the user and the answers of requests.

What `new URL` and `toLowerCase` make of a text comes from outside.
-/

namespace DrepTalk

/-! ### State -/

structure MetadataState where
  title : String
  abstract : String
  motivation : String
  rationale : String
  signAsAuthor : Bool
  authorName : String
  references : List AnchorReference
  surveyRef : String

/-- `GovActionRef`, by the fields that are read. -/
structure GovActionRef where
  txHash : String
  index : ℤ
  id : String

/-- A member of the committee in a context. -/
structure ContextMember where
  coldHex : Option String
  hasScript : Bool

structure Quorum where
  numerator : ℤ
  denominator : ℤ
  deriving DecidableEq

structure PrevContext where
  lastEnacted : Option GovActionRef
  opened : List GovActionRef

structure CommitteeContext where
  members : List ContextMember
  quorum : Option Quorum

/-- `ActionContextResponse`, by the fields that the reducer reads. -/
structure ActionContextResponse where
  prev : Option PrevContext
  protocolVersion : Option ProtocolVersion
  committee : Option CommitteeContext
  constitution : Option (Option String)

structure ContextChangeNotes where
  prevAction : Option String
  quorum : Option String
  scriptHash : Option String
  protocolVersion : Option String

def NO_CONTEXT_CHANGES : ContextChangeNotes := ⟨none, none, none, none⟩

inductive ContextState
  | idle (requestId : ℤ) (changes : ContextChangeNotes)
  | loading (requestId : ℤ) (data : Option ActionContextResponse) (loadedAt : Option ℤ)
      (changes : ContextChangeNotes)
  | ready (requestId : ℤ) (data : ActionContextResponse) (loadedAt : ℤ)
      (changes : ContextChangeNotes)
  | error (requestId : ℤ) (changes : ContextChangeNotes) (code : Option String)

namespace ContextState

def requestId : ContextState → ℤ
  | .idle requestId _ | .loading requestId _ _ _ | .ready requestId _ _ _
  | .error requestId _ _ => requestId

def data : ContextState → Option ActionContextResponse
  | .loading _ data _ _ => data
  | .ready _ data _ _ => some data
  | _ => none

def loadedAt : ContextState → Option ℤ
  | .loading _ _ loadedAt _ => loadedAt
  | .ready _ _ loadedAt _ => some loadedAt
  | _ => none

def changes : ContextState → ContextChangeNotes
  | .idle _ changes | .loading _ _ _ changes | .ready _ _ _ changes | .error _ changes _ => changes

/-- `clearContextChanges`. -/
def cleared : ContextState → ContextState
  | .idle requestId _ => .idle requestId NO_CONTEXT_CHANGES
  | .loading requestId data loadedAt _ => .loading requestId data loadedAt NO_CONTEXT_CHANGES
  | .ready requestId data loadedAt _ => .ready requestId data loadedAt NO_CONTEXT_CHANGES
  | .error requestId _ code => .error requestId NO_CONTEXT_CHANGES code

@[simp] theorem requestId_cleared (c : ContextState) : c.cleared.requestId = c.requestId := by
  cases c <;> rfl

@[simp] theorem data_cleared (c : ContextState) : c.cleared.data = c.data := by
  cases c <;> rfl

end ContextState

inductive WalletBalanceState
  | loading
  | ready (lovelace : ℕ) (rewardRegistered : Option Bool)
  | error (message : String)
  deriving DecidableEq

inductive WalletState
  | none
  | connecting
  | connected (rewardAddressHex : String) (balance : WalletBalanceState)
  deriving DecidableEq

inductive RecipientStatus
  | checking
  | registered
  | unregistered
  | failed

structure RecipientCheckState where
  requestId : ℤ
  byAddress : String → Option RecipientStatus

def NO_RECIPIENT_CHECK : RecipientCheckState := ⟨0, fun _ => none⟩

structure GovActionFormState where
  type : GovActionFormType
  metadata : MetadataState
  panels : PanelStates
  context : ContextState
  wallet : WalletState
  recipients : RecipientCheckState
  dirty : Bool
  linkedDraftSlug : Option String
  draftLinkError : Option String

def emptyMetadataState : MetadataState := ⟨"", "", "", "", false, "", [], ""⟩

def defaultMetadataState (displayName : String) : MetadataState :=
  { emptyMetadataState with signAsAuthor := true, authorName := displayName }

def initialGovActionFormState (displayName : String) : GovActionFormState where
  type := .InfoAction
  metadata := defaultMetadataState displayName
  panels := emptyPanelStates
  context := .idle 0 NO_CONTEXT_CHANGES
  wallet := .none
  recipients := NO_RECIPIENT_CHECK
  dirty := false
  linkedDraftSlug := none
  draftLinkError := none

/-! ### Actions -/

/-- `Partial<MetadataState>`. -/
structure MetadataPatch where
  title : Option String := none
  abstract : Option String := none
  motivation : Option String := none
  rationale : Option String := none
  signAsAuthor : Option Bool := none
  authorName : Option String := none
  references : Option (List AnchorReference) := none
  surveyRef : Option String := none

inductive PanelUpdate
  | NoConfidence (state : NoConfidencePanelState)
  | HardForkInitiation (state : HardForkPanelState)
  | NewConstitution (state : NewConstitutionPanelState)
  | UpdateCommittee (state : UpdateCommitteePanelState)
  | TreasuryWithdrawals (state : TreasuryPanelState)
  | ParameterChange (state : ParamChangePanelState)

/-- `GovActionFormAction`. A selected slug that is absent or null selects nothing. -/
inductive GovActionFormAction
  | setType (type : GovActionFormType)
  | setMetadata (patch : MetadataPatch) (siteOrigin : Option String)
  | setPanel (panel : PanelUpdate)
  | contextRequested (requestId : ℤ)
  | contextLoaded (requestId : ℤ) (data : ActionContextResponse) (now : ℤ)
  | contextFailed (requestId : ℤ) (code : Option String)
  | recipientsCheckRequested (requestId : ℤ) (addresses : List String)
  | recipientsChecked (requestId : ℤ) (registered : String → Bool)
  | recipientsCheckFailed (requestId : ℤ)
  | restoreDraft (draft : GovActionDraft) (openDrafts : List String) (siteOrigin : String)
  | discardDraft (displayName : String)
  | linkDraft (slug title siteOrigin : String) (selectedSlug : Option String)
  | unlinkDraft (siteOrigin : String) (selectedSlug : Option String)
  | walletConnecting
  | walletConnected (rewardAddressHex : String)
  | walletBalanceLoading
  | walletBalance (lovelace : ℕ) (rewardRegistered : Option Bool)
  | walletBalanceFailed (message : String)
  | walletDisconnected

/-! ### References to drafts -/

/-- A URL, by the parts that are read. -/
structure ParsedUrl where
  origin : String
  pathname : String

/-- `new URL(text)`, none where it throws, and `text.toLowerCase()`. -/
structure BrowserText where
  parseUrl : String → Option ParsedUrl
  toLowerCase : String → String

/-- The match of `/^\/t\/([^/]+)\/?$/`. -/
def threadPathSlug (pathname : String) : Option String :=
  match pathname.toList with
  | '/' :: 't' :: '/' :: rest =>
    let slug := rest.takeWhile (· != '/')
    let after := rest.dropWhile (· != '/')
    if slug ≠ [] ∧ (after = [] ∨ after = ['/']) then some (String.ofList slug) else none
  | _ => none

section

variable (web : BrowserText)

/-- The slug of the thread that a reference names. -/
def referenceSlug (siteOrigin : String) (r : AnchorReference) : Option String :=
  (web.parseUrl r.uri).bind fun url =>
    if url.origin = siteOrigin then threadPathSlug url.pathname else none

def draftSlugsFromReferences (refs : List AnchorReference) (siteOrigin : String) : List String :=
  refs.foldl (fun slugs r =>
    match referenceSlug web siteOrigin r with
    | some slug => if slugs.contains slug then slugs else slugs ++ [slug]
    | none => slugs) []

def draftReferenceUri (siteOrigin slug : String) : String := siteOrigin ++ "/t/" ++ slug ++ "/"

def referenceIndexForSlug (references : List AnchorReference) (slug : Option String)
    (siteOrigin : String) : Option ℕ :=
  (slug.filter (· != "")).bind fun slug =>
    references.findIdx? fun r => (draftSlugsFromReferences web [r] siteOrigin).contains slug

/-- `DRAFT_SLUG_RE`. -/
def isDraftSlug (slug : String) : Bool :=
  slug != "" && slug.toList.all fun c => c.isAlphanum || c == '-'

def firstOpenDraftSlugInReferences (references : List AnchorReference) (openDrafts : List String)
    (siteOrigin : String) : Option String :=
  references.findSome? fun ref =>
    ((draftSlugsFromReferences web [ref] siteOrigin).head?.filter (· != "")).filter
      openDrafts.contains

def actedOnDraftSlug (references : List AnchorReference) (trackedSlug selectedSlug : Option String)
    (siteOrigin : String) : Option String :=
  if (referenceIndexForSlug web references trackedSlug siteOrigin).isSome then trackedSlug
  else if (referenceIndexForSlug web references selectedSlug siteOrigin).isSome then selectedSlug
  else none

def draftReferenceFirst (references : List AnchorReference) (slug : Option String)
    (siteOrigin : String) : List AnchorReference :=
  match referenceIndexForSlug web references slug siteOrigin with
  | none | some 0 => references
  | some index => references[index]?.toList ++ references.eraseIdx index

def linkedDraftSlugFromDraft (draft : GovActionDraft) (openDrafts : List String)
    (siteOrigin : String) : Option String :=
  match draft.linkedDraftSlug with
  | some slug => slug.filter isDraftSlug
  | none => firstOpenDraftSlugInReferences web draft.references openDrafts siteOrigin

/-! ### Panels -/

def matchesRef (ref : PrevActionRef) (candidate : GovActionRef) : Bool :=
  web.toLowerCase ref.txHashHex == web.toLowerCase candidate.txHash && ref.index == candidate.index

/-- `committeeMode` is `open`. -/
def committeeModeOpen (prev : Option PrevActionRef) (context : Option ActionContextResponse) :
    Bool :=
  match prev with
  | none => false
  | some prev => (((context.bind (·.prev)).map (·.opened)).getD []).any (matchesRef web prev)

/-- The rows that the removals of members give, except for those that are there already. -/
def seededRemovals (members : List ContextMember) :
    List String → List String → List CommitteeCredentialRow
  | [], _ => []
  | hex :: rest, alreadyThere =>
    let key := web.toLowerCase hex
    if alreadyThere.contains key then seededRemovals members rest alreadyThere
    else
      let member := members.find? fun m => m.coldHex.map web.toLowerCase == some key
      ⟨hex, if member.any (·.hasScript) then .script else .key⟩ ::
        seededRemovals members rest (key :: alreadyThere)

def carryCommitteeRemovals (before next : UpdateCommitteePanelState)
    (context : Option ActionContextResponse) : UpdateCommitteePanelState :=
  if committeeModeOpen web before.prev context || !committeeModeOpen web next.prev context then next
  else
    let members := ((context.bind (·.committee)).map (·.members)).getD []
    { next with
      removeFree := next.removeFree ++ seededRemovals web members next.removeHex
        (next.removeFree.map fun r => web.toLowerCase (trimmed r.input)) }

def resetHardForkVersionOnPrevChange (before next : HardForkPanelState) : HardForkPanelState :=
  if before.version.isSome && before.prev != next.prev then { next with version := none } else next

def setPanel (panels : PanelStates) (context : Option ActionContextResponse) :
    PanelUpdate → PanelStates
  | .NoConfidence state => { panels with NoConfidence := state }
  | .HardForkInitiation state =>
    { panels with
      HardForkInitiation := resetHardForkVersionOnPrevChange panels.HardForkInitiation state }
  | .NewConstitution state => { panels with NewConstitution := state }
  | .UpdateCommittee state =>
    { panels with
      UpdateCommittee := carryCommitteeRemovals web panels.UpdateCommittee state context }
  | .TreasuryWithdrawals state => { panels with TreasuryWithdrawals := state }
  | .ParameterChange state => { panels with ParameterChange := state }

end

/-! ### Notes on a context that has moved -/

def shortenHash (h : String) : String :=
  let text := h.toList
  if 16 < text.length then
    String.ofList (text.take 8 ++ '…' :: text.drop (text.length - 6))
  else h

/-- The note on a field: a new one where it has moved. -/
def movedNote {α : Type*} [DecidableEq α] (previous next : α) (existing note : Option String) :
    Option String :=
  if previous = next then existing else note

def present (text : Option String) : Option String := text.filter (· != "")

def mergeContextChanges (previous : Option ActionContextResponse) (next : ActionContextResponse)
    (existing : ContextChangeNotes) : ContextChangeNotes :=
  match previous with
  | none => existing
  | some previous =>
    let rootId (r : ActionContextResponse) := (r.prev.bind (·.lastEnacted)).map (·.id)
    let quorum (r : ActionContextResponse) := r.committee.bind (·.quorum)
    let scriptHash (r : ActionContextResponse) := r.constitution.join
    { prevAction := movedNote (rootId previous) (rootId next) existing.prevAction
        (some (match present (rootId next) with
          | some id => "The previous action changed to " ++ id
          | none => "The previous action changed to none, this now starts the chain"))
      quorum := movedNote (quorum previous) (quorum next) existing.quorum
        ((quorum next).map fun q => "The committee quorum changed to " ++ toString q.numerator ++
          "/" ++ toString q.denominator)
      scriptHash := movedNote (scriptHash previous) (scriptHash next) existing.scriptHash
        (some (match present (scriptHash next) with
          | some hash => "The guardrails script hash changed to " ++ shortenHash hash
          | none => "The guardrails script hash is no longer on record"))
      protocolVersion := movedNote previous.protocolVersion next.protocolVersion
        existing.protocolVersion (next.protocolVersion.map fun v =>
          "The active protocol version changed to " ++ toString v.major ++ "." ++
            toString v.minor) }

/-! ### The reducer -/

def REFERENCES_MAX : ℕ := 10

def REFERENCES_FULL : String := "Remove a reference first, the list is full"

def MetadataState.patched (m : MetadataState) (p : MetadataPatch) : MetadataState where
  title := p.title.getD m.title
  abstract := p.abstract.getD m.abstract
  motivation := p.motivation.getD m.motivation
  rationale := p.rationale.getD m.rationale
  signAsAuthor := p.signAsAuthor.getD m.signAsAuthor
  authorName := p.authorName.getD m.authorName
  references := p.references.getD m.references
  surveyRef := p.surveyRef.getD m.surveyRef

def settleRecipients (state : GovActionFormState) (requestId : ℤ)
    (statusFor : String → RecipientStatus) : GovActionFormState :=
  if requestId ≠ state.recipients.requestId then state
  else
    { state with
      recipients :=
        { state.recipients with
          byAddress := fun address =>
            match state.recipients.byAddress address with
            | some .checking => some (statusFor address)
            | status => status } }

def GovActionDraft.metadata (draft : GovActionDraft) (references : List AnchorReference) :
    MetadataState :=
  ⟨draft.title, draft.abstract, draft.motivation, draft.rationale, draft.signAsAuthor,
    draft.authorName, references, draft.surveyRef⟩

section

variable (web : BrowserText)

/-- The case `setMetadata`. -/
def setMetadata (state : GovActionFormState) (patch : MetadataPatch) (siteOrigin : Option String) :
    GovActionFormState :=
  let nextMetadata := state.metadata.patched patch
  match siteOrigin.filter (· != "") with
  | some origin =>
    if patch.references.isSome then
      let linkedDraftSlug := state.linkedDraftSlug.filter fun slug =>
        (referenceIndexForSlug web nextMetadata.references (some slug) origin).isSome
      { state with
        metadata :=
          { nextMetadata with
            references := draftReferenceFirst web nextMetadata.references linkedDraftSlug origin }
        linkedDraftSlug := linkedDraftSlug
        context := state.context.cleared
        dirty := true }
    else
      { state with metadata := nextMetadata, context := state.context.cleared, dirty := true }
  | none => { state with metadata := nextMetadata, context := state.context.cleared, dirty := true }

/-- The case `restoreDraft`. -/
def restoreDraft (state : GovActionFormState) (draft : GovActionDraft) (openDrafts : List String)
    (siteOrigin : String) : GovActionFormState :=
  let linkedDraftSlug := linkedDraftSlugFromDraft web draft openDrafts siteOrigin
  { state with
    type := draft.type
    metadata := draft.metadata (draftReferenceFirst web draft.references linkedDraftSlug siteOrigin)
    panels := panelStatesFromDraft draft
    linkedDraftSlug := linkedDraftSlug
    draftLinkError := none
    dirty := false }

/-- The case `linkDraft`. -/
def linkDraftReference (state : GovActionFormState) (slug title siteOrigin : String)
    (selectedSlug : Option String) : GovActionFormState :=
  let references := state.metadata.references
  let existingIndex := referenceIndexForSlug web references
    (actedOnDraftSlug web references state.linkedDraftSlug selectedSlug siteOrigin) siteOrigin
  if existingIndex.isNone ∧ REFERENCES_MAX ≤ references.length then
    { state with draftLinkError := some REFERENCES_FULL }
  else
    let kept := match existingIndex with
      | none => references
      | some index => references.eraseIdx index
    { state with
      linkedDraftSlug := some slug
      metadata :=
        { state.metadata with
          references := draftReferenceFirst web
            (kept ++ [⟨title, draftReferenceUri siteOrigin slug⟩]) (some slug) siteOrigin }
      draftLinkError := none
      context := state.context.cleared
      dirty := true }

/-- The case `unlinkDraft`. -/
def unlinkDraftReference (state : GovActionFormState) (siteOrigin : String)
    (selectedSlug : Option String) : GovActionFormState :=
  let references := state.metadata.references
  match actedOnDraftSlug web references state.linkedDraftSlug selectedSlug siteOrigin with
  | none =>
    { state with linkedDraftSlug := none, draftLinkError := none, context := state.context.cleared }
  | some slug =>
    { state with
      linkedDraftSlug := none
      metadata :=
        { state.metadata with
          references :=
            match referenceIndexForSlug web references (some slug) siteOrigin with
            | none => references
            | some index => references.eraseIdx index }
      draftLinkError := none
      context := state.context.cleared
      dirty := true }

/-- The balance of a wallet that is connected. -/
def setBalance (state : GovActionFormState) (balance : WalletBalanceState) : GovActionFormState :=
  match state.wallet with
  | .connected rewardAddressHex _ =>
    { state with wallet := .connected rewardAddressHex balance }
  | _ => state

def govActionFormReducer (state : GovActionFormState) :
    GovActionFormAction → GovActionFormState
  | .setType type =>
    if type = state.type then state
    else
      { state with
        type := type, context := .idle state.context.requestId NO_CONTEXT_CHANGES, dirty := true }
  | .setMetadata patch siteOrigin => setMetadata web state patch siteOrigin
  | .setPanel panel =>
    { state with
      panels := setPanel web state.panels state.context.data panel
      context := state.context.cleared
      dirty := true }
  | .contextRequested requestId =>
    { state with
      context := .loading requestId state.context.data state.context.loadedAt
        state.context.changes }
  | .contextLoaded requestId data now =>
    if requestId ≠ state.context.requestId then state
    else
      { state with
        context := .ready requestId data now
          (mergeContextChanges state.context.data data state.context.changes) }
  | .contextFailed requestId code =>
    if requestId ≠ state.context.requestId then state
    else { state with context := .error requestId NO_CONTEXT_CHANGES code }
  | .restoreDraft draft openDrafts siteOrigin => restoreDraft web state draft openDrafts siteOrigin
  | .discardDraft displayName =>
    { state with
      type := .InfoAction
      metadata := defaultMetadataState displayName
      panels := emptyPanelStates
      recipients := NO_RECIPIENT_CHECK
      linkedDraftSlug := none
      draftLinkError := none
      context := state.context.cleared
      dirty := false }
  | .linkDraft slug title siteOrigin selectedSlug =>
    linkDraftReference web state slug title siteOrigin selectedSlug
  | .unlinkDraft siteOrigin selectedSlug => unlinkDraftReference web state siteOrigin selectedSlug
  | .walletConnecting =>
    if state.wallet = .connecting then state else { state with wallet := .connecting }
  | .walletConnected rewardAddressHex =>
    { state with wallet := .connected rewardAddressHex .loading }
  | .walletBalanceLoading => setBalance state .loading
  | .walletBalance lovelace rewardRegistered => setBalance state (.ready lovelace rewardRegistered)
  | .walletBalanceFailed message => setBalance state (.error message)
  | .walletDisconnected => { state with wallet := .none }
  | .recipientsCheckRequested requestId addresses =>
    { state with
      recipients := ⟨requestId, fun address =>
        if address ∈ addresses then some .checking else none⟩ }
  | .recipientsChecked requestId registered =>
    settleRecipients state requestId fun address =>
      if registered address then .registered else .unregistered
  | .recipientsCheckFailed requestId => settleRecipients state requestId fun _ => .failed

end

/-- The one type that needs no context is the info action. -/
def needsContext (type : GovActionFormType) : Bool := type != .InfoAction

/-- The draft of a state. The key of the slug is always there. -/
def draftFromState (state : GovActionFormState) : GovActionDraft where
  type := state.type
  title := state.metadata.title
  abstract := state.metadata.abstract
  motivation := state.metadata.motivation
  rationale := state.metadata.rationale
  signAsAuthor := state.metadata.signAsAuthor
  authorName := state.metadata.authorName
  references := state.metadata.references
  surveyRef := state.metadata.surveyRef
  panels := state.panels.draftPanels
  savedAt := none
  linkedDraftSlug := some state.linkedDraftSlug

end DrepTalk
