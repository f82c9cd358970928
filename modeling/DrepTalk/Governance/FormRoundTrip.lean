import DrepTalk.Governance.FormReferences

/-!
# A draft comes back as it was

A draft is written as a whole and read field by field, in two modules: what `saveGovActionDraft`
stores for `draftFromState`, `loadGovActionDraft` reads as a draft, and `restoreDraft` reads the
panels of that. The limits of the form are what the reader cuts to (`RespectsLimits`).

**Lossless** (`restoreDraft_load_save`). One lemma for each part that is written says that it is
read back; a panel is put together of them, and the form of the panels and of the metadata.
-/

namespace DrepTalk

/-! ### Parts -/

theorem coercePrev_prevJson (prev : Option PrevActionRef) :
    coercePrev (some (prevJson prev)) = prev := by
  cases prev with
  | none => rfl
  | some prev => rfl

theorem coerceVersion_versionJson (version : Option ProtocolVersion) :
    coerceVersion (some (versionJson version)) = version := by
  cases version with
  | none => rfl
  | some version => rfl

theorem jsonString_nullable (text : Option String) :
    jsonString (some (nullable text)) = text := by
  cases text with
  | none => rfl
  | some text => rfl

theorem coerceHexKind_name (kind : HexKind) :
    coerceHexKind (some (.string kind.name)) = kind := by
  cases kind with
  | key => rfl
  | script => rfl

theorem coerceQuorum_quorumJson (quorum : Option QuorumInput) :
    (((some (quorumJson quorum)).filter isPlainObject).map fun q =>
      (⟨jsonText (q.field "numerator"), jsonText (q.field "denominator")⟩ : QuorumInput)) =
        quorum := by
  cases quorum with
  | none => rfl
  | some quorum => rfl

theorem coerceCredentialRow_json (r : CommitteeCredentialRow) :
    coerceCredentialRow (credentialRowJson r) = r := by
  obtain ⟨input, hexKind⟩ := r
  exact congrArg (CommitteeCredentialRow.mk input) (coerceHexKind_name hexKind)

theorem coerceAddRow_json (r : CommitteeAddRow) :
    (⟨coerceCredentialRow (addRowJson r), jsonText ((addRowJson r).field "expiryEpoch")⟩ :
      CommitteeAddRow) = r := by
  obtain ⟨⟨input, hexKind⟩, expiryEpoch⟩ := r
  exact congrArg (fun kind => CommitteeAddRow.mk ⟨input, kind⟩ expiryEpoch)
    (coerceHexKind_name hexKind)

theorem coerceReferenceRow_json (r : AnchorReference) :
    coerceReferenceRow (referenceJson r) = some r := rfl

variable {α : Type*} {keys : List ParamKey}

theorem filter_rows {write : α → JsonValue} (hobject : ∀ r, isPlainObject (write r) = true)
    (rows : List α) : (rows.map write).filter isPlainObject = rows.map write := by
  rw [List.filter_eq_self]
  rintro _ hv
  obtain ⟨r, -, rfl⟩ := List.mem_map.mp hv
  exact hobject r

theorem map_rows {write : α → JsonValue} {read : JsonValue → α} (hread : ∀ r, read (write r) = r)
    (rows : List α) : (rows.map write).map read = rows := by
  rw [List.map_map]
  exact (List.map_congr_left fun r _ => hread r).trans (List.map_id _)

theorem filterMap_rows {write : α → JsonValue} {read : JsonValue → Option α}
    (hread : ∀ r, read (write r) = some r) (rows : List α) :
    (rows.map write).filterMap read = rows := by
  rw [List.filterMap_map]
  exact (List.filterMap_congr fun r _ => hread r).trans List.filterMap_some

/-! ### Typed values -/

theorem jsTake_go_of_le {units : ℕ} {text : List Char}
    (h : jsLength (String.ofList text) ≤ units) : jsTake.go units text = text := by
  induction text generalizing units with
  | nil => rfl
  | cons c rest ih =>
    simp only [jsLength, String.toList_ofList, List.map_cons, List.sum_cons] at h ih
    unfold jsTake.go
    rw [if_pos (by omega), ih (by omega)]

theorem jsTake_of_le {units : ℕ} {text : String} (h : jsLength text ≤ units) :
    jsTake units text = text := by
  unfold jsTake
  rw [jsTake_go_of_le (by rwa [String.ofList_toList]), String.ofList_toList]

theorem ParamKey.name_injective : Function.Injective ParamKey.name := by
  intro key key' h
  cases key <;> cases key' <;> first | rfl | exact nomatch h

theorem lookup_inputs_of_notMem {key : ParamKey} (hkey : key ∉ keys)
    (value : ParamKey → Option JsonValue) :
    (keys.flatMap fun other => optionalField other.name (value other)).lookup key.name = none := by
  rw [List.lookup_eq_none_iff]
  rintro ⟨name, v⟩ hmem
  obtain ⟨other, hother, hv⟩ := List.mem_flatMap.mp hmem
  unfold optionalField at hv
  obtain ⟨v', -, hpair⟩ := Option.map_eq_some_iff.mp (Option.mem_toList.mp hv)
  rw [bne_iff_ne]
  rintro hname
  have hsame : other.name = key.name := (congrArg Prod.fst hpair).trans hname.symm
  exact hkey (ParamKey.name_injective hsame ▸ hother)

theorem lookup_inputs (hkeys : keys.Nodup) {key : ParamKey} (hkey : key ∈ keys)
    (value : ParamKey → Option JsonValue) :
    (keys.flatMap fun other => optionalField other.name (value other)).lookup key.name =
      value key := by
  induction keys with
  | nil => cases hkey
  | cons first rest ih =>
    rw [List.flatMap_cons, List.lookup_append]
    obtain ⟨hfirst, hrest⟩ := List.nodup_cons.mp hkeys
    by_cases h : key = first
    · subst h
      rw [lookup_inputs_of_notMem hfirst, Option.or_none]
      cases value key with
      | none => rfl
      | some v => simp [optionalField]
    · have hne : (key.name == first.name) = false :=
        beq_eq_false_iff_ne.mpr fun hname => h (ParamKey.name_injective hname)
      have hhead : (optionalField first.name (value first)).lookup key.name = none := by
        cases value first with
        | none => rfl
        | some v => simp [optionalField, List.lookup_cons, hne]
      rw [hhead, Option.none_or]
      exact ih hrest ((List.mem_cons.mp hkey).resolve_left h)

theorem filter_mem_of_sublist {α : Type*} [DecidableEq α] {keys all : List α}
    (h : keys.Sublist all) (hall : all.Nodup) :
    (all.filter fun key => decide (key ∈ keys)) = keys := by
  have hself : keys.filter (fun key => decide (key ∈ keys)) = keys := by
    rw [List.filter_eq_self]
    exact fun key hkey => decide_eq_true hkey
  have hsub : keys.Sublist (all.filter fun key => decide (key ∈ keys)) := by
    have hfilter := h.filter fun key => decide (key ∈ keys)
    rwa [hself] at hfilter
  have hperm : keys.Perm (all.filter fun key => decide (key ∈ keys)) := by
    rw [List.perm_ext_iff_of_nodup (hall.sublist h) (hall.filter _)]
    intro key
    rw [List.mem_filter, decide_eq_true_iff]
    exact ⟨fun hkey => ⟨h.subset hkey, hkey⟩, And.right⟩
  exact (hsub.eq_of_length hperm.length_eq).symm

theorem picked_json {picked : List ParamKey} (h : picked.Sublist PARAM_KEYS) :
    (PARAM_KEYS.filter fun key =>
      (picked.map fun key => JsonValue.string key.name).contains (.string key.name)) = picked := by
  have hcontains : ∀ key : ParamKey, (picked.map fun key => JsonValue.string key.name).contains
      (.string key.name) = decide (key ∈ picked) := by
    intro key
    rw [Bool.eq_iff_iff, List.contains_iff_mem, List.mem_map, decide_eq_true_iff]
    constructor
    · rintro ⟨other, hother, heq⟩
      rw [JsonValue.string.injEq] at heq
      exact ParamKey.name_injective heq ▸ hother
    · exact fun hkey => ⟨key, hkey, rfl⟩
  simp only [hcontains]
  exact filter_mem_of_sublist h (by decide)

/-! ### Panels -/

/-- The limits of the form: rows of a withdrawal, the order of the parameters that are picked, the
length of what is typed for one, and the slug of the draft that is linked, whose reference is the
first. -/
structure GovActionFormState.RespectsLimits (web : BrowserText) (siteOrigin : String)
    (s : GovActionFormState) : Prop where
  rows_pos : 1 ≤ s.panels.TreasuryWithdrawals.rows.length
  rows_max : s.panels.TreasuryWithdrawals.rows.length ≤ TREASURY_RECIPIENTS_MAX
  picked : s.panels.ParameterChange.picked.Sublist PARAM_KEYS
  inputs : ∀ key, ∀ text ∈ s.panels.ParameterChange.inputs key, jsLength text ≤ PARAM_INPUT_MAX
  slug : ∀ slug ∈ s.linkedDraftSlug, isDraftSlug slug = true
  first : ∀ slug ∈ s.linkedDraftSlug,
    (∃ r ∈ s.metadata.references, referenceSlug web siteOrigin r = some slug) →
      ∃ r ∈ s.metadata.references.head?, referenceSlug web siteOrigin r = some slug

section

variable (panels : PanelStates)

theorem coerceNoConfidencePanel_draftPanels :
    coerceNoConfidencePanel panels.draftPanels.NoConfidence = panels.NoConfidence :=
  congrArg NoConfidencePanelState.mk (coercePrev_prevJson panels.NoConfidence.prev)

theorem coerceHardForkPanel_draftPanels :
    coerceHardForkPanel panels.draftPanels.HardForkInitiation = panels.HardForkInitiation :=
  congrArg₂ HardForkPanelState.mk (coercePrev_prevJson panels.HardForkInitiation.prev)
    (coerceVersion_versionJson panels.HardForkInitiation.version)

theorem coerceNewConstitutionPanel_draftPanels :
    coerceNewConstitutionPanel panels.draftPanels.NewConstitution = panels.NewConstitution := by
  have hprev := coercePrev_prevJson panels.NewConstitution.prev
  have hscript := jsonString_nullable panels.NewConstitution.scriptHashHex
  exact congrArg₂ (fun prev script =>
    NewConstitutionPanelState.mk prev panels.NewConstitution.text script) hprev hscript

theorem coerceUpdateCommitteePanel_draftPanels :
    coerceUpdateCommitteePanel panels.draftPanels.UpdateCommittee = panels.UpdateCommittee := by
  have hhex : ∀ h : String, jsonString (some (JsonValue.string h)) = some h := fun _ => rfl
  have hremoveHex : (panels.UpdateCommittee.removeHex.map JsonValue.string).filterMap
      (fun h => jsonString (some h)) = panels.UpdateCommittee.removeHex := filterMap_rows hhex _
  have hremoveFree : ((panels.UpdateCommittee.removeFree.map credentialRowJson).filter
      isPlainObject).map coerceCredentialRow = panels.UpdateCommittee.removeFree := by
    rw [filter_rows fun _ => rfl]
    exact map_rows coerceCredentialRow_json _
  have hadd : ((panels.UpdateCommittee.add.map addRowJson).filter isPlainObject).map (fun r =>
      (⟨coerceCredentialRow r, jsonText (r.field "expiryEpoch")⟩ : CommitteeAddRow)) =
        panels.UpdateCommittee.add := by
    rw [filter_rows fun _ => rfl]
    exact map_rows coerceAddRow_json _
  calc coerceUpdateCommitteePanel panels.draftPanels.UpdateCommittee
      = ⟨coercePrev (some (prevJson panels.UpdateCommittee.prev)),
          (panels.UpdateCommittee.removeHex.map JsonValue.string).filterMap
            (fun h => jsonString (some h)),
          ((panels.UpdateCommittee.removeFree.map credentialRowJson).filter isPlainObject).map
            coerceCredentialRow,
          ((panels.UpdateCommittee.add.map addRowJson).filter isPlainObject).map (fun r =>
            ⟨coerceCredentialRow r, jsonText (r.field "expiryEpoch")⟩),
          ((some (quorumJson panels.UpdateCommittee.quorum)).filter isPlainObject).map fun q =>
            ⟨jsonText (q.field "numerator"), jsonText (q.field "denominator")⟩⟩ := rfl
    _ = panels.UpdateCommittee := by
      rw [coercePrev_prevJson, hremoveHex, hremoveFree, hadd, coerceQuorum_quorumJson]

theorem coerceTreasuryPanel_draftPanels (hpos : 1 ≤ panels.TreasuryWithdrawals.rows.length)
    (hmax : panels.TreasuryWithdrawals.rows.length ≤ TREASURY_RECIPIENTS_MAX) :
    coerceTreasuryPanel panels.draftPanels.TreasuryWithdrawals = panels.TreasuryWithdrawals := by
  have hrows : (((panels.TreasuryWithdrawals.rows.map treasuryRowJson).filter isPlainObject).take
      TREASURY_RECIPIENTS_MAX).map (fun r =>
        (⟨jsonText (r.field "address"), jsonText (r.field "amountAda")⟩ : TreasuryRowInput)) =
          panels.TreasuryWithdrawals.rows := by
    rw [filter_rows fun _ => rfl, List.take_of_length_le (by rwa [List.length_map])]
    exact map_rows (fun _ => rfl) _
  have hne : panels.TreasuryWithdrawals.rows ≠ [] := List.ne_nil_of_length_pos hpos
  calc coerceTreasuryPanel panels.draftPanels.TreasuryWithdrawals
      = ⟨if (((panels.TreasuryWithdrawals.rows.map treasuryRowJson).filter isPlainObject).take
            TREASURY_RECIPIENTS_MAX).map (fun r =>
              (⟨jsonText (r.field "address"), jsonText (r.field "amountAda")⟩ :
                TreasuryRowInput)) = [] then [EMPTY_TREASURY_ROW]
          else (((panels.TreasuryWithdrawals.rows.map treasuryRowJson).filter isPlainObject).take
            TREASURY_RECIPIENTS_MAX).map fun r =>
              ⟨jsonText (r.field "address"), jsonText (r.field "amountAda")⟩⟩ := rfl
    _ = panels.TreasuryWithdrawals := by rw [hrows, if_neg hne]

theorem coerceParamChangePanel_draftPanels
    (hpicked : panels.ParameterChange.picked.Sublist PARAM_KEYS)
    (hinputs : ∀ key, ∀ text ∈ panels.ParameterChange.inputs key,
      jsLength text ≤ PARAM_INPUT_MAX) :
    coerceParamChangePanel panels.draftPanels.ParameterChange = panels.ParameterChange := by
  have hread : (fun key : ParamKey => (jsonString ((inputsJson panels.ParameterChange.inputs).field
      key.name)).map (jsTake PARAM_INPUT_MAX)) = panels.ParameterChange.inputs := by
    funext key
    have hfield : (inputsJson panels.ParameterChange.inputs).field key.name =
        (panels.ParameterChange.inputs key).map .string :=
      lookup_inputs (by decide) (mem_paramKeys key) _
    rw [hfield]
    cases hinput : panels.ParameterChange.inputs key with
    | none => rfl
    | some text => exact congrArg some (jsTake_of_le (hinputs key text hinput))
  calc coerceParamChangePanel panels.draftPanels.ParameterChange
      = ⟨coercePrev (some (prevJson panels.ParameterChange.prev)),
          PARAM_KEYS.filter fun key =>
            (panels.ParameterChange.picked.map fun key => JsonValue.string key.name).contains
              (.string key.name),
          fun key => (jsonString ((inputsJson panels.ParameterChange.inputs).field key.name)).map
            (jsTake PARAM_INPUT_MAX)⟩ := rfl
    _ = panels.ParameterChange := by rw [coercePrev_prevJson, picked_json hpicked, hread]

end

/-! ### Drafts -/

theorem draftOfJson_toJson (state : GovActionFormState) (nowMs : ℚ) :
    draftOfJson ((draftFromState state).toJson nowMs) =
      { draftFromState state with savedAt := some nowMs } := by
  have htype : (formType (some (.string state.type.name))).getD .InfoAction = state.type := by
    cases state.type <;> rfl
  have hreferences : (state.metadata.references.map referenceJson).filterMap coerceReferenceRow =
      state.metadata.references := filterMap_rows coerceReferenceRow_json _
  have hsigned : (some (JsonValue.bool state.metadata.signAsAuthor) != some (.bool false)) =
      state.metadata.signAsAuthor := by
    cases state.metadata.signAsAuthor <;> rfl
  calc draftOfJson ((draftFromState state).toJson nowMs)
      = { draftFromState state with
          type := (formType (some (.string state.type.name))).getD .InfoAction
          signAsAuthor := some (JsonValue.bool state.metadata.signAsAuthor) != some (.bool false)
          references :=
            (state.metadata.references.map referenceJson).filterMap coerceReferenceRow
          savedAt := some nowMs } := by
        obtain ⟨type, metadata, panels, context, wallet, recipients, dirty, linkedDraftSlug,
          draftLinkError⟩ := state
        cases linkedDraftSlug with
        | none => rfl
        | some slug => rfl
    _ = { draftFromState state with savedAt := some nowMs } := by
        rw [htype, hreferences, hsigned]
        rfl

/-! ### The round trip -/

section

variable {web : BrowserText} {siteOrigin : String} {s : GovActionFormState}

theorem panelStatesFromDraft_draftFromState (h : s.RespectsLimits web siteOrigin)
    (savedAt : Option ℚ) :
    panelStatesFromDraft { draftFromState s with savedAt := savedAt } = s.panels := by
  unfold panelStatesFromDraft draftFromState
  rw [coerceNoConfidencePanel_draftPanels, coerceHardForkPanel_draftPanels,
    coerceNewConstitutionPanel_draftPanels, coerceUpdateCommitteePanel_draftPanels,
    coerceTreasuryPanel_draftPanels _ h.rows_pos h.rows_max,
    coerceParamChangePanel_draftPanels _ h.picked h.inputs]

theorem draftReferenceFirst_of_first (h : s.RespectsLimits web siteOrigin) :
    draftReferenceFirst web s.metadata.references s.linkedDraftSlug siteOrigin =
      s.metadata.references := by
  cases hslug : s.linkedDraftSlug with
  | none => exact draftReferenceFirst_of_none rfl
  | some slug =>
    by_cases hnamed : ∃ r ∈ s.metadata.references, referenceSlug web siteOrigin r = some slug
    · obtain ⟨first, hfirst, hnames⟩ := h.first slug hslug hnamed
      obtain ⟨rest, hrefs⟩ : ∃ rest, s.metadata.references = first :: rest :=
        ⟨_, List.eq_cons_of_mem_head? hfirst⟩
      have hindex : referenceIndexForSlug web (first :: rest) (some slug) siteOrigin = some 0 := by
        rw [referenceIndexForSlug_eq, List.findIdx?_cons, hnames, beq_self_eq_true]
        rfl
      unfold draftReferenceFirst
      rw [hrefs, hindex]
      rfl
    · refine draftReferenceFirst_of_none (referenceIndexForSlug_eq_none.mpr ?_)
      exact fun r hr hr' => hnamed ⟨r, hr, hr'⟩

/-- **Lossless**: what is stored for a form within its limits, read back and restored in any form,
gives the same type, metadata, panels and slug. -/
theorem restoreDraft_load_save (h : s.RespectsLimits web siteOrigin) {storage : DraftStorage}
    (hwritable : storage.writable = true) (hreadable : storage.readable = true) (key : String)
    (nowMs : ℚ) :
    ∃ draft, loadGovActionDraft (saveGovActionDraft storage key (draftFromState s) nowMs) key =
        some draft ∧
      ∀ (state : GovActionFormState) (openDrafts : List String),
        let s' := govActionFormReducer web state (.restoreDraft draft openDrafts siteOrigin)
        s'.type = s.type ∧ s'.metadata = s.metadata ∧ s'.panels = s.panels ∧
          s'.linkedDraftSlug = s.linkedDraftSlug := by
  refine ⟨{ draftFromState s with savedAt := some nowMs }, ?_, ?_⟩
  · unfold loadGovActionDraft saveGovActionDraft
    rw [if_pos hwritable]
    simp only [hreadable, Bool.not_true, Bool.false_eq_true, if_false, Function.update_self]
    rw [draftOfJson_toJson]
    rfl
  · intro state openDrafts
    have hslug : linkedDraftSlugFromDraft web { draftFromState s with savedAt := some nowMs }
        openDrafts siteOrigin = s.linkedDraftSlug := by
      show s.linkedDraftSlug.filter isDraftSlug = s.linkedDraftSlug
      cases hlinked : s.linkedDraftSlug with
      | none => rfl
      | some slug => exact Option.filter_some_pos (h.slug slug hlinked)
    dsimp only [govActionFormReducer, restoreDraft]
    rw [hslug]
    refine ⟨rfl, ?_, panelStatesFromDraft_draftFromState h _, rfl⟩
    dsimp only [GovActionDraft.metadata, draftFromState]
    rw [draftReferenceFirst_of_first h]

end

/-! ### A form on fixed values -/

/-- A withdrawal, with parameters that were typed before and a draft that is linked. -/
def filledForm : GovActionFormState :=
  { initialGovActionFormState "Ada" with
    type := .TreasuryWithdrawals
    metadata :=
      { defaultMetadataState "Ada" with
        references := [draftReference exampleOrigin "budget" "Budget"] }
    panels :=
      { emptyPanelStates with
        TreasuryWithdrawals := ⟨[⟨"stake1", "10"⟩, EMPTY_TREASURY_ROW]⟩
        ParameterChange := ⟨some ⟨"ab", 0⟩, [.k, .rho], fun _ => some "0.3"⟩ }
    linkedDraftSlug := some "budget" }

theorem respectsLimits_filledForm : filledForm.RespectsLimits exampleSite exampleOrigin where
  rows_pos := by decide
  rows_max := by decide
  picked := by decide
  inputs key text htext := by
    obtain rfl : "0.3" = text := Option.some_injective _ htext
    decide
  slug slug hslug := by
    obtain rfl : "budget" = slug := Option.some_injective _ hslug
    decide
  first slug hslug _ := by
    obtain rfl : "budget" = slug := Option.some_injective _ hslug
    exact ⟨_, rfl, referenceSlug_thread isSiteOrigin_exampleSite (by decide) "Budget"⟩

theorem restoreDraft_load_save_filled :
    ∃ draft, loadGovActionDraft (saveGovActionDraft ⟨fun _ => none, true, true⟩ "draft"
        (draftFromState filledForm) 0) "draft" = some draft ∧
      (govActionFormReducer exampleSite (initialGovActionFormState "")
        (.restoreDraft draft [] exampleOrigin)).panels = filledForm.panels := by
  have hwritable : (⟨fun _ => none, true, true⟩ : DraftStorage).writable = true := rfl
  obtain ⟨draft, hload, hrestored⟩ :=
    restoreDraft_load_save respectsLimits_filledForm hwritable rfl "draft" 0
  exact ⟨draft, hload, (hrestored (initialGovActionFormState "") []).2.2.1⟩

end DrepTalk
