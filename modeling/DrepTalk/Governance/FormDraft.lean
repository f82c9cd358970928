import DrepTalk.Forum.WriteHandlers
import DrepTalk.Governance.ParamDefs
import DrepTalk.Governance.TreasuryWithdrawals

/-!
# Drafts of a governance action

`src/lib/governance/govActionDraft.ts`, and what `src/lib/governance/govActionFormState.ts` reads
back from it: the form at `/ga/new` is stored as JSON, written as a whole and read field by field,
the metadata by `loadGovActionDraft`, the panels by `panelStatesFromDraft`.

The stored text is the value that it stands for, as `JSON.parse` reads back what `JSON.stringify`
wrote. An index and the parts of a version or of a quorum are integers.
-/

namespace DrepTalk

/-! ### Types and panels -/

inductive GovActionFormType
  | InfoAction
  | NoConfidence
  | HardForkInitiation
  | NewConstitution
  | UpdateCommittee
  | TreasuryWithdrawals
  | ParameterChange
  deriving DecidableEq

def GOV_ACTION_FORM_TYPES : List GovActionFormType :=
  [.InfoAction, .NoConfidence, .HardForkInitiation, .NewConstitution, .UpdateCommittee,
    .TreasuryWithdrawals, .ParameterChange]

def GovActionFormType.name : GovActionFormType → String
  | .InfoAction => "InfoAction"
  | .NoConfidence => "NoConfidence"
  | .HardForkInitiation => "HardForkInitiation"
  | .NewConstitution => "NewConstitution"
  | .UpdateCommittee => "UpdateCommittee"
  | .TreasuryWithdrawals => "TreasuryWithdrawals"
  | .ParameterChange => "ParameterChange"

structure PrevActionRef where
  txHashHex : String
  index : ℤ
  deriving DecidableEq

structure ProtocolVersion where
  major : ℤ
  minor : ℤ
  deriving DecidableEq

structure NoConfidencePanelState where
  prev : Option PrevActionRef

structure HardForkPanelState where
  prev : Option PrevActionRef
  version : Option ProtocolVersion

structure NewConstitutionPanelState where
  prev : Option PrevActionRef
  text : String
  scriptHashHex : Option String

/-- `'key' | 'script'`. -/
inductive HexKind
  | key
  | script

structure CommitteeCredentialRow where
  input : String
  hexKind : HexKind

structure CommitteeAddRow extends CommitteeCredentialRow where
  expiryEpoch : String

structure QuorumInput where
  numerator : String
  denominator : String

structure UpdateCommitteePanelState where
  prev : Option PrevActionRef
  removeHex : List String
  removeFree : List CommitteeCredentialRow
  add : List CommitteeAddRow
  quorum : Option QuorumInput

structure TreasuryPanelState where
  rows : List TreasuryRowInput

/-- The values that are typed are a partial record. -/
structure ParamChangePanelState where
  prev : Option PrevActionRef
  picked : List ParamKey
  inputs : ParamKey → Option String

structure PanelStates where
  NoConfidence : NoConfidencePanelState
  HardForkInitiation : HardForkPanelState
  NewConstitution : NewConstitutionPanelState
  UpdateCommittee : UpdateCommitteePanelState
  TreasuryWithdrawals : TreasuryPanelState
  ParameterChange : ParamChangePanelState

def emptyPanelStates : PanelStates where
  NoConfidence := ⟨none⟩
  HardForkInitiation := ⟨none, none⟩
  NewConstitution := ⟨none, "", none⟩
  UpdateCommittee := ⟨none, [], [], [], none⟩
  TreasuryWithdrawals := ⟨[EMPTY_TREASURY_ROW]⟩
  ParameterChange := ⟨none, [], fun _ => none⟩

/-! ### Drafts -/

/-- `panels` of a draft: of each type a value, which is not looked at here. -/
structure DraftPanels where
  NoConfidence : Option JsonValue
  HardForkInitiation : Option JsonValue
  NewConstitution : Option JsonValue
  UpdateCommittee : Option JsonValue
  TreasuryWithdrawals : Option JsonValue
  ParameterChange : Option JsonValue

/-- `GovActionDraft`. The key of the tracked slug may be absent. -/
structure GovActionDraft where
  type : GovActionFormType
  title : String
  abstract : String
  motivation : String
  rationale : String
  signAsAuthor : Bool
  authorName : String
  references : List AnchorReference
  surveyRef : String
  panels : DraftPanels
  savedAt : Option ℚ
  linkedDraftSlug : Option (Option String)

def JsonValue.field (v : JsonValue) (key : String) : Option JsonValue :=
  match v with
  | .object fields => fields.lookup key
  | _ => none

def isPlainObject : JsonValue → Bool
  | .object _ => true
  | _ => false

/-- `isFormType`. -/
def formType (v : Option JsonValue) : Option GovActionFormType :=
  match v with
  | some (.string s) => GOV_ACTION_FORM_TYPES.find? (·.name == s)
  | _ => none

def coerceReferenceRow (raw : JsonValue) : Option AnchorReference :=
  match raw.field "label", raw.field "uri" with
  | some (.string label), some (.string uri) => some ⟨label, uri⟩
  | _, _ => none

def coercePanels (raw : Option JsonValue) : DraftPanels :=
  let panel (type : GovActionFormType) : Option JsonValue :=
    (raw.bind (·.field type.name)).filter isPlainObject
  ⟨panel .NoConfidence, panel .HardForkInitiation, panel .NewConstitution, panel .UpdateCommittee,
    panel .TreasuryWithdrawals, panel .ParameterChange⟩

/-- What `parsed.savedAt` is, where it is a number. -/
def savedTime (parsed : JsonValue) : Option ℚ :=
  match parsed.field "savedAt" with
  | some (.number q) => some q
  | _ => none

/-- The draft of a value that has been parsed. -/
def draftOfJson (parsed : JsonValue) : GovActionDraft where
  type := (formType (parsed.field "type")).getD .InfoAction
  title := jsonText (parsed.field "title")
  abstract := jsonText (parsed.field "abstract")
  motivation := jsonText (parsed.field "motivation")
  rationale := jsonText (parsed.field "rationale")
  signAsAuthor :=
    if (savedTime parsed).isSome then parsed.field "signAsAuthor" != some (.bool false) else true
  authorName := jsonText (parsed.field "authorName")
  references :=
    match parsed.field "references" with
    | some (.array items) => items.filterMap coerceReferenceRow
    | _ => []
  surveyRef := jsonText (parsed.field "surveyRef")
  panels := coercePanels (parsed.field "panels")
  savedAt := savedTime parsed
  linkedDraftSlug :=
    match parsed.field "linkedDraftSlug" with
    | some (.string slug) => some (some slug)
    | some .null => some none
    | _ => none

/-- A text of the storage: JSON, or empty or something else. -/
inductive StoredText
  | json (v : JsonValue)
  | other

/-- The storage of the browser: its items, and whether it takes one and gives one. -/
structure DraftStorage where
  items : String → Option StoredText
  writable : Bool
  readable : Bool

def loadGovActionDraft (storage : DraftStorage) (key : String) : Option GovActionDraft :=
  if !storage.readable then none
  else
    match storage.items key with
    | some (.json parsed) => if isPlainObject parsed then some (draftOfJson parsed) else none
    | _ => none

/-- A field that is absent is left out. -/
def optionalField (key : String) (v : Option JsonValue) : List (String × JsonValue) :=
  (v.map fun v => (key, v)).toList

def nullable (text : Option String) : JsonValue := (text.map JsonValue.string).getD .null

def DraftPanels.toJson (panels : DraftPanels) : JsonValue :=
  .object (optionalField "NoConfidence" panels.NoConfidence ++
    optionalField "HardForkInitiation" panels.HardForkInitiation ++
    optionalField "NewConstitution" panels.NewConstitution ++
    optionalField "UpdateCommittee" panels.UpdateCommittee ++
    optionalField "TreasuryWithdrawals" panels.TreasuryWithdrawals ++
    optionalField "ParameterChange" panels.ParameterChange)

def referenceJson (r : AnchorReference) : JsonValue :=
  .object [("label", .string r.label), ("uri", .string r.uri)]

/-- `{ ...draft, savedAt: nowMs }`. -/
def GovActionDraft.toJson (draft : GovActionDraft) (nowMs : ℚ) : JsonValue :=
  .object ([("v", .number 2), ("type", .string draft.type.name), ("title", .string draft.title),
    ("abstract", .string draft.abstract), ("motivation", .string draft.motivation),
    ("rationale", .string draft.rationale), ("signAsAuthor", .bool draft.signAsAuthor),
    ("authorName", .string draft.authorName),
    ("references", .array (draft.references.map referenceJson)),
    ("surveyRef", .string draft.surveyRef), ("panels", draft.panels.toJson),
    ("savedAt", .number nowMs)] ++
      optionalField "linkedDraftSlug" (draft.linkedDraftSlug.map nullable))

def saveGovActionDraft (storage : DraftStorage) (key : String) (draft : GovActionDraft)
    (nowMs : ℚ) : DraftStorage :=
  if storage.writable then
    { storage with items := Function.update storage.items key (some (.json (draft.toJson nowMs))) }
  else storage

/-! ### Panels as JSON -/

def prevJson (prev : Option PrevActionRef) : JsonValue :=
  (prev.map fun p => JsonValue.object
    [("txHashHex", .string p.txHashHex), ("index", .number p.index)]).getD .null

def versionJson (version : Option ProtocolVersion) : JsonValue :=
  (version.map fun v => JsonValue.object
    [("major", .number v.major), ("minor", .number v.minor)]).getD .null

def HexKind.name : HexKind → String
  | .key => "key"
  | .script => "script"

def credentialRowJson (r : CommitteeCredentialRow) : JsonValue :=
  .object [("input", .string r.input), ("hexKind", .string r.hexKind.name)]

def addRowJson (r : CommitteeAddRow) : JsonValue :=
  .object [("input", .string r.input), ("hexKind", .string r.hexKind.name),
    ("expiryEpoch", .string r.expiryEpoch)]

def quorumJson (quorum : Option QuorumInput) : JsonValue :=
  (quorum.map fun q => JsonValue.object
    [("numerator", .string q.numerator), ("denominator", .string q.denominator)]).getD .null

def treasuryRowJson (r : TreasuryRowInput) : JsonValue :=
  .object [("address", .string r.address), ("amountAda", .string r.amountAda)]

/-- The typed values: an absent one is left out. -/
def inputsJson (inputs : ParamKey → Option String) : JsonValue :=
  .object (PARAM_KEYS.flatMap fun key => optionalField key.name ((inputs key).map .string))

/-- The panels of a draft, from those of the form. -/
def PanelStates.draftPanels (panels : PanelStates) : DraftPanels where
  NoConfidence := some (.object [("prev", prevJson panels.NoConfidence.prev)])
  HardForkInitiation := some (.object [("prev", prevJson panels.HardForkInitiation.prev),
    ("version", versionJson panels.HardForkInitiation.version)])
  NewConstitution := some (.object [("prev", prevJson panels.NewConstitution.prev),
    ("text", .string panels.NewConstitution.text),
    ("scriptHashHex", nullable panels.NewConstitution.scriptHashHex)])
  UpdateCommittee := some (.object [("prev", prevJson panels.UpdateCommittee.prev),
    ("removeHex", .array (panels.UpdateCommittee.removeHex.map .string)),
    ("removeFree", .array (panels.UpdateCommittee.removeFree.map credentialRowJson)),
    ("add", .array (panels.UpdateCommittee.add.map addRowJson)),
    ("quorum", quorumJson panels.UpdateCommittee.quorum)])
  TreasuryWithdrawals := some (.object
    [("rows", .array (panels.TreasuryWithdrawals.rows.map treasuryRowJson))])
  ParameterChange := some (.object [("prev", prevJson panels.ParameterChange.prev),
    ("picked", .array (panels.ParameterChange.picked.map fun key => .string key.name)),
    ("inputs", inputsJson panels.ParameterChange.inputs)])

/-! ### Reading the panels back -/

/-- `Number.isInteger`. -/
def jsonInteger (v : Option JsonValue) : Option ℤ :=
  match v with
  | some (.number q) => if q.den = 1 then some q.num else none
  | _ => none

def coercePrev (v : Option JsonValue) : Option PrevActionRef :=
  match v.bind (·.field "txHashHex"), jsonInteger (v.bind (·.field "index")) with
  | some (.string txHashHex), some index => some ⟨txHashHex, index⟩
  | _, _ => none

def coerceVersion (v : Option JsonValue) : Option ProtocolVersion :=
  match jsonInteger (v.bind (·.field "major")), jsonInteger (v.bind (·.field "minor")) with
  | some major, some minor => some ⟨major, minor⟩
  | _, _ => none

def coerceHexKind (v : Option JsonValue) : HexKind :=
  if v = some (.string "script") then .script else .key

/-- The items of a list, where it is one. -/
def jsonItems (v : Option JsonValue) : List JsonValue :=
  match v with
  | some (.array items) => items
  | _ => []

def coerceNoConfidencePanel (raw : Option JsonValue) : NoConfidencePanelState :=
  ⟨coercePrev (raw.bind (·.field "prev"))⟩

def coerceHardForkPanel (raw : Option JsonValue) : HardForkPanelState :=
  ⟨coercePrev (raw.bind (·.field "prev")), coerceVersion (raw.bind (·.field "version"))⟩

def jsonString (v : Option JsonValue) : Option String :=
  match v with
  | some (.string s) => some s
  | _ => none

def coerceNewConstitutionPanel (raw : Option JsonValue) : NewConstitutionPanelState where
  prev := coercePrev (raw.bind (·.field "prev"))
  text := jsonText (raw.bind (·.field "text"))
  scriptHashHex := jsonString (raw.bind (·.field "scriptHashHex"))

def coerceCredentialRow (r : JsonValue) : CommitteeCredentialRow :=
  ⟨jsonText (r.field "input"), coerceHexKind (r.field "hexKind")⟩

def coerceUpdateCommitteePanel (raw : Option JsonValue) : UpdateCommitteePanelState where
  prev := coercePrev (raw.bind (·.field "prev"))
  removeHex := (jsonItems (raw.bind (·.field "removeHex"))).filterMap fun h => jsonString (some h)
  removeFree := ((jsonItems (raw.bind (·.field "removeFree"))).filter isPlainObject).map
    coerceCredentialRow
  add := ((jsonItems (raw.bind (·.field "add"))).filter isPlainObject).map fun r =>
    ⟨coerceCredentialRow r, jsonText (r.field "expiryEpoch")⟩
  quorum := ((raw.bind (·.field "quorum")).filter isPlainObject).map fun q =>
    ⟨jsonText (q.field "numerator"), jsonText (q.field "denominator")⟩

def coerceTreasuryPanel (raw : Option JsonValue) : TreasuryPanelState :=
  let rows := (((jsonItems (raw.bind (·.field "rows"))).filter isPlainObject).take
    TREASURY_RECIPIENTS_MAX).map fun r =>
      (⟨jsonText (r.field "address"), jsonText (r.field "amountAda")⟩ : TreasuryRowInput)
  ⟨if rows = [] then [EMPTY_TREASURY_ROW] else rows⟩

/-- `text.slice(0, length)`, in UTF-16 code units. -/
def jsTake (length : ℕ) (text : String) : String :=
  String.ofList (go length text.toList)
where
  go (length : ℕ) : List Char → List Char
    | [] => []
    | c :: rest =>
      let units := if c.toNat < 0x10000 then 1 else 2
      if units ≤ length then c :: go (length - units) rest else []

/-- The most that is read of a typed value. -/
def PARAM_INPUT_MAX : ℕ := 32

def coerceParamChangePanel (raw : Option JsonValue) : ParamChangePanelState where
  prev := coercePrev (raw.bind (·.field "prev"))
  picked := PARAM_KEYS.filter fun key =>
    (jsonItems (raw.bind (·.field "picked"))).contains (.string key.name)
  inputs key := (jsonString ((raw.bind (·.field "inputs")).bind (·.field key.name))).map
    (jsTake PARAM_INPUT_MAX)

def panelStatesFromDraft (draft : GovActionDraft) : PanelStates where
  NoConfidence := coerceNoConfidencePanel draft.panels.NoConfidence
  HardForkInitiation := coerceHardForkPanel draft.panels.HardForkInitiation
  NewConstitution := coerceNewConstitutionPanel draft.panels.NewConstitution
  UpdateCommittee := coerceUpdateCommitteePanel draft.panels.UpdateCommittee
  TreasuryWithdrawals := coerceTreasuryPanel draft.panels.TreasuryWithdrawals
  ParameterChange := coerceParamChangePanel draft.panels.ParameterChange

end DrepTalk
