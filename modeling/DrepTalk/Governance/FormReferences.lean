import DrepTalk.Governance.FormContext

/-!
# The reference to the linked draft

The form keeps the slug of the draft that it links; what the server links is the first thread that
the references name. `govActionFormReducer` under every order of actions that pass the origin of
the site.

**First** (`LinkedFirst`). Where a reference names the slug that is kept, the first one does. The
invariant is carried by the position: where a reference is found it is moved to the front
(`head_draftReferenceFirst`), and every action that sets the references or the slug does so.

**Others stay** (`KeepsOthers`). A draft that is linked takes the place of the row acted on and the
row of the slug goes to the front; one that is unlinked takes its row away. The other rows keep
their order.
-/

namespace DrepTalk

/-! ### Slugs of references -/

theorem threadPathSlug_ne_empty {pathname slug : String} (h : threadPathSlug pathname = some slug) :
    slug ≠ "" := by
  unfold threadPathSlug at h
  split at h
  · dsimp only at h
    split at h
    · rename_i hne
      obtain rfl := Option.some_injective _ h
      exact fun hempty => hne.1 (by simpa using congrArg String.toList hempty)
    · exact nomatch h
  · exact nomatch h

section

variable {web : BrowserText} {siteOrigin slug : String} {r : AnchorReference}
variable {refs : List AnchorReference}

theorem referenceSlug_ne_empty (h : referenceSlug web siteOrigin r = some slug) : slug ≠ "" := by
  unfold referenceSlug at h
  obtain ⟨url, -, hslug⟩ := Option.bind_eq_some_iff.mp h
  split at hslug
  · exact threadPathSlug_ne_empty hslug
  · exact nomatch hslug

theorem prefix_foldl_slugs (slugs : List String) :
    slugs <+: refs.foldl (fun slugs r =>
      match referenceSlug web siteOrigin r with
      | some slug => if slugs.contains slug then slugs else slugs ++ [slug]
      | none => slugs) slugs := by
  induction refs generalizing slugs with
  | nil => exact List.prefix_rfl
  | cons r rest ih =>
    refine List.IsPrefix.trans ?_ (ih _)
    dsimp only
    split
    · split
      · exact List.prefix_rfl
      · exact List.prefix_append _ _
    · exact List.prefix_rfl

theorem head_draftSlugsFromReferences (h : referenceSlug web siteOrigin r = some slug) :
    (draftSlugsFromReferences web (r :: refs) siteOrigin).head? = some slug := by
  have hprefix : [slug] <+: draftSlugsFromReferences web (r :: refs) siteOrigin := by
    unfold draftSlugsFromReferences
    rw [List.foldl_cons, h]
    exact prefix_foldl_slugs [slug]
  obtain ⟨rest, hrest⟩ := hprefix
  rw [← hrest]
  rfl

theorem contains_draftSlugs_singleton :
    (draftSlugsFromReferences web [r] siteOrigin).contains slug =
      (referenceSlug web siteOrigin r == some slug) := by
  unfold draftSlugsFromReferences
  rw [List.foldl_cons, List.foldl_nil]
  split
  · rename_i named hnamed
    rw [hnamed]
    simp [eq_comm, Bool.beq_eq_decide_eq]
  · rename_i hnamed
    rw [hnamed]
    simp

theorem referenceIndexForSlug_eq :
    referenceIndexForSlug web refs (some slug) siteOrigin =
      refs.findIdx? fun r => referenceSlug web siteOrigin r == some slug := by
  unfold referenceIndexForSlug
  by_cases hempty : slug = ""
  · -- no reference names the empty slug
    have hnone : refs.findIdx? (fun r => referenceSlug web siteOrigin r == some slug) = none := by
      rw [List.findIdx?_eq_none_iff]
      intro r _
      rw [beq_eq_false_iff_ne]
      exact fun h => referenceSlug_ne_empty h hempty
    rw [hnone]
    simp [hempty]
  · have hfilter : (some slug).filter (fun s => s != "") = some slug := by simp [hempty]
    rw [hfilter, Option.bind_some]
    simp only [contains_draftSlugs_singleton]

theorem referenceIndexForSlug_eq_none :
    referenceIndexForSlug web refs (some slug) siteOrigin = none ↔
      ∀ r ∈ refs, referenceSlug web siteOrigin r ≠ some slug := by
  rw [referenceIndexForSlug_eq, List.findIdx?_eq_none_iff]
  simp only [beq_eq_false_iff_ne]

theorem getElem_of_referenceIndexForSlug {i : ℕ}
    (h : referenceIndexForSlug web refs (some slug) siteOrigin = some i) :
    ∃ r, refs[i]? = some r ∧ referenceSlug web siteOrigin r = some slug := by
  rw [referenceIndexForSlug_eq, List.findIdx?_eq_some_iff_getElem] at h
  obtain ⟨hi, hnames, -⟩ := h
  exact ⟨refs[i], List.getElem?_eq_getElem hi, beq_iff_eq.mp hnames⟩

/-! ### The front -/

theorem draftReferenceFirst_eq_cons {i : ℕ}
    (h : referenceIndexForSlug web refs (some slug) siteOrigin = some i) :
    ∃ r, refs[i]? = some r ∧ referenceSlug web siteOrigin r = some slug ∧
      draftReferenceFirst web refs (some slug) siteOrigin = r :: refs.eraseIdx i := by
  obtain ⟨r, hr, hnames⟩ := getElem_of_referenceIndexForSlug h
  refine ⟨r, hr, hnames, ?_⟩
  unfold draftReferenceFirst
  rw [h]
  cases i with
  | zero =>
    obtain ⟨rest, rfl⟩ : ∃ rest, refs = r :: rest := by
      cases refs with
      | nil => exact nomatch hr
      | cons first rest => exact ⟨rest, by simpa using hr⟩
    rfl
  | succ i => simp [hr]

theorem draftReferenceFirst_of_none {slug : Option String}
    (h : referenceIndexForSlug web refs slug siteOrigin = none) :
    draftReferenceFirst web refs slug siteOrigin = refs := by
  unfold draftReferenceFirst
  rw [h]

theorem draftReferenceFirst_perm (slug : Option String) :
    (draftReferenceFirst web refs slug siteOrigin).Perm refs := by
  cases slug with
  | none => exact .of_eq (draftReferenceFirst_of_none rfl)
  | some slug =>
    cases hindex : referenceIndexForSlug web refs (some slug) siteOrigin with
    | none => exact .of_eq (draftReferenceFirst_of_none hindex)
    | some i =>
      obtain ⟨r, hr, -, heq⟩ := draftReferenceFirst_eq_cons hindex
      obtain ⟨hi, rfl⟩ := List.getElem?_eq_some_iff.mp hr
      rw [heq]
      exact List.getElem_cons_eraseIdx_perm hi

theorem head_draftReferenceFirst
    (h : ∃ r ∈ draftReferenceFirst web refs (some slug) siteOrigin,
      referenceSlug web siteOrigin r = some slug) :
    (draftSlugsFromReferences web (draftReferenceFirst web refs (some slug) siteOrigin)
      siteOrigin).head? = some slug := by
  obtain ⟨r, hr, hnames⟩ := h
  have hmem : r ∈ refs := (draftReferenceFirst_perm _).mem_iff.mp hr
  cases hindex : referenceIndexForSlug web refs (some slug) siteOrigin with
  | none => exact absurd hnames (referenceIndexForSlug_eq_none.mp hindex r hmem)
  | some i =>
    obtain ⟨first, -, hfirst, heq⟩ := draftReferenceFirst_eq_cons hindex
    rw [heq]
    exact head_draftSlugsFromReferences hfirst

end

/-! ### Runs with the origin of the site -/

/-- What the form relies on of `new URL`: no origin is empty, and the address of a thread of the
site has its origin and its path. -/
structure IsSiteOrigin (web : BrowserText) (siteOrigin : String) : Prop where
  origin_ne : ∀ text url, web.parseUrl text = some url → url.origin ≠ ""
  thread : ∀ slug, isDraftSlug slug = true →
    web.parseUrl (draftReferenceUri siteOrigin slug) = some ⟨siteOrigin, "/t/" ++ slug ++ "/"⟩

/-- The actions on references pass the origin of the site, and a draft is linked by a slug. -/
def GovActionFormAction.PassesOrigin (siteOrigin : String) : GovActionFormAction → Prop
  | .setMetadata _ origin => origin = some siteOrigin
  | .restoreDraft _ _ origin => origin = siteOrigin
  | .linkDraft slug _ origin _ => origin = siteOrigin ∧ isDraftSlug slug = true
  | .unlinkDraft origin _ => origin = siteOrigin
  | _ => True

/-- The runs of the form from its initial state, at the origin of the site. -/
def referenceSystem (web : BrowserText) (siteOrigin : String) :
    TransitionSystem GovActionFormState GovActionFormAction where
  Init s := ∃ displayName, s = initialGovActionFormState displayName
  Step s a s' := a.PassesOrigin siteOrigin ∧ s' = govActionFormReducer web s a

/-- The row of a draft that is linked. -/
def draftReference (siteOrigin slug title : String) : AnchorReference :=
  ⟨title, draftReferenceUri siteOrigin slug⟩

namespace GovActionFormState

/-- Where a reference names the slug that is kept, it is the first that the references name. -/
def LinkedFirst (web : BrowserText) (siteOrigin : String) (s : GovActionFormState) : Prop :=
  ∀ slug, s.linkedDraftSlug = some slug →
    (∃ r ∈ s.metadata.references, referenceSlug web siteOrigin r = some slug) →
      (draftSlugsFromReferences web s.metadata.references siteOrigin).head? = some slug

/-- A row that the control shows as chosen, and the list without it. -/
def Without (web : BrowserText) (siteOrigin : String) (s : GovActionFormState)
    (selectedSlug : Option String) (refs : List AnchorReference) : Prop :=
  ∃ i r slug, (s.linkedDraftSlug = some slug ∨ selectedSlug = some slug) ∧
    s.metadata.references[i]? = some r ∧ referenceSlug web siteOrigin r = some slug ∧
      refs = s.metadata.references.eraseIdx i

/-- One that is linked is appended, in place of the chosen one where there is one, and a row of its
slug goes to the front; one that is unlinked is taken away. -/
def KeepsOthers (web : BrowserText) (siteOrigin : String) (s s' : GovActionFormState) :
    GovActionFormAction → Prop
  | .linkDraft slug title _ selectedSlug =>
    (s'.draftLinkError ≠ none → s'.metadata.references = s.metadata.references) ∧
      (s'.draftLinkError = none → ∃ kept,
        (kept = s.metadata.references ∨ s.Without web siteOrigin selectedSlug kept) ∧
          ∃ i moved, (kept ++ [draftReference siteOrigin slug title])[i]? = some moved ∧
            referenceSlug web siteOrigin moved = some slug ∧
              s'.metadata.references =
                moved :: (kept ++ [draftReference siteOrigin slug title]).eraseIdx i)
  | .unlinkDraft _ selectedSlug =>
    s'.metadata.references = s.metadata.references ∨
      s.Without web siteOrigin selectedSlug s'.metadata.references
  | _ => True

/-- A draft that is accepted has its row, which names it. -/
def HasLinked (web : BrowserText) (siteOrigin : String) (s' : GovActionFormState) :
    GovActionFormAction → Prop
  | .linkDraft slug title _ _ =>
    s'.draftLinkError = none →
      draftReference siteOrigin slug title ∈ s'.metadata.references ∧
        referenceSlug web siteOrigin (draftReference siteOrigin slug title) = some slug
  | _ => True

/-- An action other than the two that set the references as a whole keeps them in bounds. -/
def InBounds (s s' : GovActionFormState) : GovActionFormAction → Prop
  | .restoreDraft _ _ _ | .setMetadata _ _ => True
  | _ => s'.metadata.references.length ≤ max REFERENCES_MAX s.metadata.references.length

end GovActionFormState

/-! ### What an action does to the references -/

section

variable {web : BrowserText} {siteOrigin : String} {s : GovActionFormState}

variable {selectedSlug : Option String} {a : GovActionFormAction} {s' : GovActionFormState}

theorem actedOnDraftSlug_cases {refs : List AnchorReference} {trackedSlug : Option String}
    {slug : String}
    (h : actedOnDraftSlug web refs trackedSlug selectedSlug siteOrigin = some slug) :
    trackedSlug = some slug ∨ selectedSlug = some slug := by
  unfold actedOnDraftSlug at h
  split at h
  · exact .inl h
  · split at h
    · exact .inr h
    · exact nomatch h

theorem without_of_index {i : ℕ} (h : referenceIndexForSlug web s.metadata.references
      (actedOnDraftSlug web s.metadata.references s.linkedDraftSlug selectedSlug siteOrigin)
      siteOrigin = some i) :
    s.Without web siteOrigin selectedSlug (s.metadata.references.eraseIdx i) := by
  cases hacted : actedOnDraftSlug web s.metadata.references s.linkedDraftSlug selectedSlug
      siteOrigin with
  | none =>
    rw [hacted] at h
    exact nomatch h
  | some slug =>
    rw [hacted] at h
    obtain ⟨r, hr, hnames⟩ := getElem_of_referenceIndexForSlug h
    exact ⟨i, r, slug, actedOnDraftSlug_cases hacted, hr, hnames, rfl⟩

theorem threadPathSlug_thread {slug : String} (h : isDraftSlug slug = true) :
    threadPathSlug ("/t/" ++ slug ++ "/") = some slug := by
  unfold isDraftSlug at h
  rw [Bool.and_eq_true, bne_iff_ne, List.all_eq_true] at h
  obtain ⟨hne, hall⟩ := h
  have hslash : ∀ c ∈ slug.toList, (c != '/') = true := by
    intro c hc
    rw [bne_iff_ne]
    rintro rfl
    cases hall _ hc
  have hlist : ("/t/" ++ slug ++ "/").toList = '/' :: 't' :: '/' :: (slug.toList ++ ['/']) := by
    simp
  have htake : (slug.toList ++ ['/']).takeWhile (· != '/') = slug.toList := by
    rw [List.takeWhile_append_of_pos hslash]
    simp
  have hdrop : (slug.toList ++ ['/']).dropWhile (· != '/') = ['/'] := by
    rw [List.dropWhile_append_of_pos hslash]
    simp
  have hnil : slug.toList ≠ [] := fun hnil => hne (by simpa using hnil)
  unfold threadPathSlug
  rw [hlist]
  simp only [htake, hdrop]
  simp [hnil]

theorem referenceSlug_thread (h : IsSiteOrigin web siteOrigin) {slug : String}
    (hslug : isDraftSlug slug = true) (title : String) :
    referenceSlug web siteOrigin (draftReference siteOrigin slug title) = some slug := by
  unfold referenceSlug draftReference
  rw [h.thread slug hslug]
  simp [threadPathSlug_thread hslug]

/-! ### One action -/

variable (balance : WalletBalanceState) (requestId : ℤ) (statusFor : String → RecipientStatus)

@[simp] theorem metadata_settleRecipients :
    (settleRecipients s requestId statusFor).metadata = s.metadata := by
  unfold settleRecipients
  split <;> rfl

@[simp] theorem linkedDraftSlug_settleRecipients :
    (settleRecipients s requestId statusFor).linkedDraftSlug = s.linkedDraftSlug := by
  unfold settleRecipients
  split <;> rfl

@[simp] theorem metadata_setBalance : (setBalance s balance).metadata = s.metadata := by
  unfold setBalance
  split <;> rfl

@[simp] theorem linkedDraftSlug_setBalance :
    (setBalance s balance).linkedDraftSlug = s.linkedDraftSlug := by
  unfold setBalance
  split <;> rfl

/-- The actions that are about the references. -/
def GovActionFormAction.onReferences : GovActionFormAction → Prop
  | .setMetadata _ _ | .restoreDraft _ _ _ | .discardDraft _ | .linkDraft _ _ _ _
  | .unlinkDraft _ _ => True
  | _ => False

theorem references_of_not_onReferences (h : ¬a.onReferences) :
    (govActionFormReducer web s a).metadata = s.metadata ∧
      (govActionFormReducer web s a).linkedDraftSlug = s.linkedDraftSlug := by
  cases a with
  | setMetadata | restoreDraft | discardDraft | linkDraft | unlinkDraft => exact absurd trivial h
  | setType | contextLoaded | contextFailed | walletConnecting =>
    dsimp only [govActionFormReducer]
    split <;> exact ⟨rfl, rfl⟩
  | setPanel | contextRequested | walletConnected | walletDisconnected
  | recipientsCheckRequested => exact ⟨rfl, rfl⟩
  | walletBalanceLoading | walletBalance | walletBalanceFailed =>
    exact ⟨metadata_setBalance _, linkedDraftSlug_setBalance _⟩
  | recipientsChecked | recipientsCheckFailed =>
    exact ⟨metadata_settleRecipients _ _, linkedDraftSlug_settleRecipients _ _⟩

theorem linkedFirst_of_first {refs : List AnchorReference}
    (h : s'.metadata.references = draftReferenceFirst web refs s'.linkedDraftSlug siteOrigin) :
    s'.LinkedFirst web siteOrigin := by
  intro slug hslug hnamed
  rw [h, hslug] at hnamed ⊢
  exact head_draftReferenceFirst hnamed

theorem linkedFirst_of_same (hs : s.LinkedFirst web siteOrigin)
    (hrefs : s'.metadata.references = s.metadata.references)
    (hslug : s'.linkedDraftSlug = s.linkedDraftSlug) : s'.LinkedFirst web siteOrigin := by
  unfold GovActionFormState.LinkedFirst
  rw [hrefs, hslug]
  exact hs

theorem linkedFirst_of_unlinked (h : s'.linkedDraftSlug = none) :
    s'.LinkedFirst web siteOrigin := by
  intro slug hslug
  cases hslug.symm.trans h

theorem linkedFirst_setMetadata (hne : siteOrigin ≠ "") (hs : s.LinkedFirst web siteOrigin)
    (patch : MetadataPatch) :
    (setMetadata web s patch (some siteOrigin)).LinkedFirst web siteOrigin := by
  have hfilter : (some siteOrigin).filter (fun o => o != "") = some siteOrigin := by simp [hne]
  unfold setMetadata
  rw [hfilter]
  cases hpatch : patch.references with
  | none =>
    refine linkedFirst_of_same hs ?_ rfl
    simp [MetadataState.patched, hpatch]
  | some refs => exact linkedFirst_of_first rfl

theorem linkedFirst_linkDraftReference (hs : s.LinkedFirst web siteOrigin) (slug title : String)
    (selectedSlug : Option String) :
    (linkDraftReference web s slug title siteOrigin selectedSlug).LinkedFirst web siteOrigin := by
  unfold linkDraftReference
  dsimp only
  split
  · exact linkedFirst_of_same hs rfl rfl
  · exact linkedFirst_of_first rfl

theorem linkedFirst_step (hne : siteOrigin ≠ "") (ha : a.PassesOrigin siteOrigin)
    (hs : s.LinkedFirst web siteOrigin) :
    (govActionFormReducer web s a).LinkedFirst web siteOrigin := by
  by_cases hon : a.onReferences
  · cases a with
    | setMetadata patch origin =>
      obtain rfl : origin = some siteOrigin := ha
      exact linkedFirst_setMetadata hne hs patch
    | restoreDraft draft openDrafts origin =>
      obtain rfl : origin = siteOrigin := ha
      exact linkedFirst_of_first rfl
    | discardDraft displayName => exact linkedFirst_of_unlinked rfl
    | linkDraft slug title origin selectedSlug =>
      obtain rfl : origin = siteOrigin := ha.1
      exact linkedFirst_linkDraftReference hs slug title selectedSlug
    | unlinkDraft origin selectedSlug =>
      refine linkedFirst_of_unlinked ?_
      dsimp only [govActionFormReducer, unlinkDraftReference]
      split <;> rfl
    | _ => exact absurd hon id
  · obtain ⟨hmetadata, hslug⟩ := references_of_not_onReferences hon
    exact linkedFirst_of_same hs (congrArg _ hmetadata) hslug

/-! ### Linking and unlinking -/

/-- A draft that is linked: the list is full, or the row is appended, in place of the chosen one,
and goes to the front. -/
theorem linkDraftReference_cases (slug title : String) (selectedSlug : Option String) :
    let s' := linkDraftReference web s slug title siteOrigin selectedSlug
    (s'.draftLinkError = some REFERENCES_FULL ∧
        s'.metadata.references = s.metadata.references) ∨
      (s'.draftLinkError = none ∧ ∃ kept,
        (kept = s.metadata.references ∧ s.metadata.references.length < REFERENCES_MAX ∨
          s.Without web siteOrigin selectedSlug kept) ∧
            s'.metadata.references =
              draftReferenceFirst web (kept ++ [draftReference siteOrigin slug title]) (some slug)
                siteOrigin) := by
  unfold linkDraftReference
  dsimp only
  split
  · exact .inl ⟨rfl, rfl⟩
  · rename_i hroom
    refine .inr ⟨rfl, ?_⟩
    cases hindex : referenceIndexForSlug web s.metadata.references
        (actedOnDraftSlug web s.metadata.references s.linkedDraftSlug selectedSlug siteOrigin)
        siteOrigin with
    | none =>
      rw [hindex] at hroom
      have hlength : s.metadata.references.length < REFERENCES_MAX := by
        by_contra hfull
        exact hroom ⟨rfl, not_lt.mp hfull⟩
      exact ⟨s.metadata.references, .inl ⟨rfl, hlength⟩, rfl⟩
    | some i => exact ⟨_, .inr (without_of_index hindex), rfl⟩

theorem unlinkDraftReference_cases (selectedSlug : Option String) :
    let s' := unlinkDraftReference web s siteOrigin selectedSlug
    s'.metadata.references = s.metadata.references ∨
      s.Without web siteOrigin selectedSlug s'.metadata.references := by
  dsimp only [unlinkDraftReference]
  cases hacted : actedOnDraftSlug web s.metadata.references s.linkedDraftSlug selectedSlug
      siteOrigin with
  | none => exact .inl rfl
  | some slug =>
    dsimp only
    cases hindex : referenceIndexForSlug web s.metadata.references (some slug) siteOrigin with
    | none => exact .inl rfl
    | some i => exact .inr (without_of_index (hacted ▸ hindex))

theorem length_of_without {refs : List AnchorReference}
    (h : s.Without web siteOrigin selectedSlug refs) :
    refs.length + 1 = s.metadata.references.length := by
  obtain ⟨i, r, slug, -, hr, -, rfl⟩ := h
  have hi : i < s.metadata.references.length := (List.getElem?_eq_some_iff.mp hr).1
  rw [List.length_eraseIdx_of_lt hi]
  omega

theorem hasLinked_step (h : IsSiteOrigin web siteOrigin) (ha : a.PassesOrigin siteOrigin) :
    (govActionFormReducer web s a).HasLinked web siteOrigin a := by
  cases a with
  | linkDraft slug title origin selectedSlug =>
    obtain ⟨rfl, hslug⟩ := ha
    intro hok
    refine ⟨?_, referenceSlug_thread h hslug title⟩
    rcases linkDraftReference_cases slug title
      selectedSlug with ⟨hfull, -⟩ | ⟨-, kept, -, hrefs⟩
    · cases hfull.symm.trans hok
    · exact hrefs ▸ ((draftReferenceFirst_perm _).mem_iff.mpr (List.mem_append_right _
        (List.mem_singleton_self _)))
  | _ => trivial

theorem keepsOthers_step (h : IsSiteOrigin web siteOrigin) (ha : a.PassesOrigin siteOrigin) :
    s.KeepsOthers web siteOrigin (govActionFormReducer web s a) a := by
  cases a with
  | linkDraft slug title origin selectedSlug =>
    obtain ⟨rfl, hslug⟩ := ha
    rcases linkDraftReference_cases slug title
      selectedSlug with ⟨hfull, hrefs⟩ | ⟨hok, kept, hkept, hrefs⟩
    · exact ⟨fun _ => hrefs, fun hok => absurd (hfull.symm.trans hok) (Option.some_ne_none _)⟩
    · refine ⟨fun herror => absurd hok herror, fun _ => ⟨kept, hkept.imp_left And.left, ?_⟩⟩
      -- the row that is appended names the slug, so some row is found
      cases hindex : referenceIndexForSlug web (kept ++ [draftReference origin slug title])
          (some slug) origin with
      | none =>
        exact absurd (referenceSlug_thread h hslug title) (referenceIndexForSlug_eq_none.mp hindex _
          (List.mem_append_right _ (List.mem_singleton_self _)))
      | some i =>
        obtain ⟨moved, hmoved, hnames, heq⟩ := draftReferenceFirst_eq_cons hindex
        exact ⟨i, moved, hmoved, hnames, hrefs.trans heq⟩
  | unlinkDraft origin selectedSlug =>
    obtain rfl : origin = siteOrigin := ha
    exact unlinkDraftReference_cases selectedSlug
  | _ => trivial

theorem inBounds_step (ha : a.PassesOrigin siteOrigin) :
    s.InBounds (govActionFormReducer web s a) a := by
  have hsame : ∀ {refs : List AnchorReference}, refs = s.metadata.references →
      refs.length ≤ max REFERENCES_MAX s.metadata.references.length := by
    rintro _ rfl
    exact le_max_right _ _
  by_cases hon : a.onReferences
  · cases a with
    | setMetadata | restoreDraft => trivial
    | discardDraft displayName => exact Nat.zero_le _
    | linkDraft slug title origin selectedSlug =>
      rcases linkDraftReference_cases slug title
        selectedSlug with ⟨-, hrefs⟩ | ⟨-, kept, hkept, hrefs⟩
      · exact hsame hrefs
      · have hlength : (govActionFormReducer web s
            (.linkDraft slug title origin selectedSlug)).metadata.references.length =
              kept.length + 1 := by
          rw [show (govActionFormReducer web s
              (.linkDraft slug title origin selectedSlug)).metadata.references = _ from hrefs,
            (draftReferenceFirst_perm _).length_eq, List.length_append, List.length_singleton]
        have hbound : kept.length + 1 ≤ max REFERENCES_MAX s.metadata.references.length := by
          rcases hkept with ⟨rfl, hroom⟩ | hwithout
          · exact le_max_of_le_left hroom
          · exact le_max_of_le_right (length_of_without hwithout).le
        exact hlength.trans_le hbound
    | unlinkDraft origin selectedSlug =>
      obtain rfl : origin = siteOrigin := ha
      rcases unlinkDraftReference_cases selectedSlug
        with hrefs | hwithout
      · exact hsame hrefs
      · exact le_max_of_le_right ((Nat.le_succ _).trans (length_of_without hwithout).le)
    | _ => exact absurd hon id
  · have hrefs : (govActionFormReducer web s a).metadata = s.metadata :=
      (references_of_not_onReferences hon).1
    cases a with
    | setMetadata | restoreDraft => trivial
    | _ => exact hsame (congrArg _ hrefs)

/-- **The linked draft**, in every run that passes the origin of the site: the server links the slug
that is kept where a reference names it, and the other rows and the bound are kept. -/
theorem linkedDraft_of_reachable (h : IsSiteOrigin web siteOrigin)
    (hs : (referenceSystem web siteOrigin).Reachable s) :
    s.LinkedFirst web siteOrigin ∧
      ∀ a s', (referenceSystem web siteOrigin).Step s a s' →
        s'.HasLinked web siteOrigin a ∧ s.InBounds s' a ∧ s.KeepsOthers web siteOrigin s' a := by
  have hne : siteOrigin ≠ "" := by
    intro hempty
    exact h.origin_ne _ _ (h.thread "a" (by decide)) hempty
  constructor
  · refine hs.invariant ?_ ?_
    · rintro _ ⟨displayName, rfl⟩
      exact linkedFirst_of_unlinked rfl
    · rintro s a _ hfirst ⟨ha, rfl⟩
      exact linkedFirst_step hne ha hfirst
  · rintro a _ ⟨ha, rfl⟩
    exact ⟨hasLinked_step h ha, inBounds_step ha, keepsOthers_step h ha⟩

end

/-! ### A site -/

def exampleOrigin : String := "https://dreptalk.com"

/-- `new URL` on the addresses of one site with plain paths; nothing else is a URL. -/
def exampleSite : BrowserText where
  parseUrl text :=
    let path := text.toList.drop exampleOrigin.toList.length
    if exampleOrigin.toList <+: text.toList ∧ path.head? = some '/' ∧
        path.all (fun c => c.isAlphanum || c == '-' || c == '/') = true then
      some ⟨exampleOrigin, String.ofList path⟩
    else none
  toLowerCase := String.map Char.toLower

theorem isSiteOrigin_exampleSite : IsSiteOrigin exampleSite exampleOrigin where
  origin_ne text url h := by
    simp only [exampleSite] at h
    split at h
    · obtain rfl := Option.some_injective _ h
      exact show exampleOrigin ≠ "" by decide
    · exact nomatch h
  thread slug hslug := by
    have hall : slug.toList.all (fun c => c.isAlphanum || c == '-' || c == '/') = true := by
      unfold isDraftSlug at hslug
      rw [Bool.and_eq_true, List.all_eq_true] at hslug
      rw [List.all_eq_true]
      exact fun c hc => Bool.or_eq_true_iff.mpr (.inl (hslug.2 c hc))
    have hlist : (draftReferenceUri exampleOrigin slug).toList =
        exampleOrigin.toList ++ ('/' :: 't' :: '/' :: (slug.toList ++ ['/'])) := by
      simp [draftReferenceUri]
    have hpath : String.ofList ('/' :: 't' :: '/' :: (slug.toList ++ ['/'])) =
        "/t/" ++ slug ++ "/" := by
      apply String.toList_injective
      simp
    simp only [exampleSite]
    rw [hlist, List.drop_left, hpath]
    refine if_pos ⟨List.prefix_append _ _, rfl, ?_⟩
    simp only [List.all_cons, List.all_append, hall]
    decide

/-- A draft that is linked in a fresh form is what the server links. -/
theorem linkedDraft_of_reachable_linked :
    (draftSlugsFromReferences exampleSite
      (linkDraftReference exampleSite (initialGovActionFormState "") "budget" "Budget"
        exampleOrigin none).metadata.references exampleOrigin).head? = some "budget" := by
  have hinit : (referenceSystem exampleSite exampleOrigin).Reachable
      (initialGovActionFormState "") := .init ⟨"", rfl⟩
  have hstep : (referenceSystem exampleSite exampleOrigin).Step (initialGovActionFormState "")
      (.linkDraft "budget" "Budget" exampleOrigin none)
      (linkDraftReference exampleSite (initialGovActionFormState "") "budget" "Budget"
        exampleOrigin none) := ⟨⟨rfl, by decide⟩, rfl⟩
  obtain ⟨hmem, hnames⟩ :=
    ((linkedDraft_of_reachable isSiteOrigin_exampleSite hinit).2 _ _ hstep).1 rfl
  exact (linkedDraft_of_reachable isSiteOrigin_exampleSite (hinit.step hstep)).1 "budget" rfl
    ⟨_, hmem, hnames⟩

end DrepTalk
