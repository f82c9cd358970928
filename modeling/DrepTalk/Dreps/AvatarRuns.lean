import DrepTalk.Dreps.Avatars

/-!
# The avatar of a DRep over time

All runs of the three writers of the avatar columns (`src/lib/db/dreps.ts`): upserts of the sync,
each with a row of the DRep as it was read some time before; profiles that the DRep applies; passes
of the avatar store. Rows of other DReps change freely.

Documents are addressed by their hash (`docOf`), as the fetch and the hosted documents are. A hash
of a stored image is `bytesAt` a URL if it is the hash of bytes that came from there.

**What goes wrong.** A row that has failed `AVATAR_FETCH_MAX_ATTEMPTS` times is not downloaded for
any URL, as the count is kept when the URL changes. A stored image without a source URL is an
inline one to `clearOrphanedImageStore`, also when the document has none any more. The hash that an
applied document declares for its image is taken over unseen.

**What holds.** The stored hash is true, if the declared ones are; a row with attempts left gets its
image (`AvatarStable.bounded`, `AvatarQuiet.stored_iff`); a linked image that is gone is cleared
(`avatar_cleared_iff`).
-/

namespace DrepTalk

/-! ### The columns of the avatar -/

section Columns

variable {δ : Type*} (setup : DrepSyncSetup δ)

/-- What is stored of the inline image of a document. -/
def DrepSyncSetup.inlineHash (doc : δ) : Option String :=
  setup.ingestDataUriAvatar.bind fun ingest =>
    (setup.extractCip119Profile doc).imageDataUri.bind ingest

/-- The document that the sync gets for the anchor of the DRep. -/
def DrepUpsert.document (input : DrepUpsert δ) : Option δ :=
  input.info.anchor.bind fun anchor =>
    match input.run.attempt anchor.1 anchor.2 input.canFetch with
    | some (.ok doc) => some doc
    | _ => none

variable {setup} {existing : Option StoredDrep} {input : DrepUpsert δ}

theorem avatar_resolveProfile (setup : DrepSyncSetup δ) (existing : Option StoredDrep)
    (input : DrepUpsert δ) :
    let profile := (resolveProfile setup input.run input.info existing input.canFetch).1
    (profile.imageContentHash = existing.bind (·.imageContentHash) ∧
        profile.imageStoredUrl = existing.bind (·.imageStoredUrl)) ∨
      ∃ doc hash, input.document = some doc ∧ setup.inlineHash doc = some hash ∧
        profile.imageContentHash = some hash ∧ profile.imageStoredUrl = none := by
  intro profile
  rcases h : input.info.anchor with _ | ⟨metaUrl, metaHash⟩
  · have hprofile : profile = unanchoredProfile existing := resolveProfile_unanchored h
    exact .inl (hprofile ▸ ⟨rfl, rfl⟩)
  · rcases attempt_cases existing input.run metaUrl metaHash input.canFetch with
      ⟨row, rfl, hholds⟩ | ⟨hholds, ⟨doc, hattempt⟩ | hattempt⟩
    · have hprofile : profile = { row.toResolvedProfile with
          anchorUrl := some metaUrl
          anchorHash := some metaHash
          anchorStatus := .ok
          profileExtractVersion := PROFILE_EXTRACT_VERSION } := resolveProfile_holds h hholds
      exact .inl (hprofile ▸ ⟨rfl, rfl⟩)
    · have hprofile : profile = setup.extracted existing metaUrl metaHash doc :=
        resolveProfile_fetched_ok h hholds hattempt
      have hdocument : input.document = some doc := by
        rw [DrepUpsert.document, h, Option.bind_some, hattempt]
      have hhash : profile.imageContentHash =
          (setup.inlineHash doc <|> existing.bind (·.imageContentHash)) := hprofile ▸ rfl
      have hurl : profile.imageStoredUrl = if (setup.inlineHash doc).isSome then none
          else existing.bind (·.imageStoredUrl) := hprofile ▸ rfl
      rcases hinline : setup.inlineHash doc with _ | hash <;> rw [hinline] at hhash hurl
      · exact .inl ⟨hhash, hurl⟩
      · exact .inr ⟨doc, hash, hdocument, hinline, hhash, hurl⟩
    · have hprofile : profile = keptProfile existing metaUrl metaHash
          (statusWithout (input.run.attempt metaUrl metaHash input.canFetch)) :=
        resolveProfile_kept h hholds hattempt
      exact .inl (hprofile ▸ ⟨rfl, rfl⟩)

/-- The row that the sync leaves: the one that is there, or the one it writes, with the count of
the one that is there. -/
theorem drepById_syncDrepRow (setup : DrepSyncSetup δ) (existing : Option StoredDrep)
    (input : DrepUpsert δ) (dreps : DrepTable) :
    drepById (syncDrepRow setup dreps existing input) input.info.drepId =
        drepById dreps input.info.drepId ∨
      ∃ row, drepById (syncDrepRow setup dreps existing input) input.info.drepId = some row ∧
        row.toResolvedProfile =
          (resolveProfile setup input.run input.info existing input.canFetch).1 ∧
        row.imageFetchFailedAt = existing.bind (·.imageFetchFailedAt) ∧
        row.imageFetchAttempts =
          ((drepById dreps input.info.drepId).map (·.imageFetchAttempts)).getD 0 := by
  rw [syncDrepRow]
  by_cases hchanged : hasChanged (setup.row input.run input.info existing input.canFetch) existing
  · rw [if_pos hchanged, drepById_upsert, if_pos (by rfl)]
    refine .inr ⟨_, rfl, ?_⟩
    rcases drepById dreps input.info.drepId with _ | row <;> exact ⟨rfl, rfl, rfl⟩
  · rw [if_neg hchanged]
    exact .inl rfl

theorem drepById_applyDrepProfile (dreps : DrepTable) (apply : ProfileApply δ) :
    drepById (applyDrepProfile setup dreps apply) apply.drepId =
      (drepById dreps apply.drepId).map (setup.applied apply) := by
  refine (drepById_updateWhere dreps _ _).trans (Option.map_congr fun row hrow => if_pos ?_)
  exact beq_iff_eq.mpr (drepById_eq_some.mp hrow).2

theorem imageUrl_cleared (r : StoredDrep) : r.cleared.imageUrl = r.imageUrl := by
  rw [StoredDrep.cleared]
  split_ifs <;> rfl

variable (pass : AvatarPass) (queue : List StoredDrep) (r : StoredDrep)

theorem leaves_rest : (pass.leaves queue r).imageUrl = r.imageUrl ∧
    (pass.leaves queue r).anchorHash = r.anchorHash ∧
    (pass.leaves queue r).anchorStatus = r.anchorStatus ∧
    (pass.leaves queue r).profileExtractVersion = r.profileExtractVersion := by
  have hcleared : r.cleared.imageUrl = r.imageUrl ∧ r.cleared.anchorHash = r.anchorHash ∧
      r.cleared.anchorStatus = r.anchorStatus ∧
      r.cleared.profileExtractVersion = r.profileExtractVersion := by
    rw [StoredDrep.cleared]
    split_ifs <;> exact ⟨rfl, rfl, rfl, rfl⟩
  rw [AvatarPass.leaves, AvatarPass.attempted]
  split_ifs
  · split <;> exact hcleared
  · exact hcleared

def StoredDrep.avatarColumns (r : StoredDrep) :
    Option String × Option String × Option String × Option ℤ × ℕ :=
  (r.imageUrl, r.imageContentHash, r.imageStoredUrl, r.imageFetchFailedAt, r.imageFetchAttempts)

/-- What a pass leaves of the columns of the avatar: it clears them, or stores a download, or
counts a failure. -/
theorem leaves_avatar :
    (pass.leaves queue r).imageStoredUrl = none ∧ (pass.leaves queue r).imageContentHash = none ∨
      (∃ imageUrl hash, r.imageUrl = some imageUrl ∧ pass.storeImage imageUrl = some hash ∧
        (pass.leaves queue r).imageStoredUrl = some imageUrl ∧
        (pass.leaves queue r).imageContentHash = some hash) ∨
      (pass.leaves queue r).imageStoredUrl = r.imageStoredUrl ∧
        (pass.leaves queue r).imageContentHash = r.imageContentHash := by
  have hcleared : r.cleared.imageStoredUrl = none ∧ r.cleared.imageContentHash = none ∨
      r.cleared.imageStoredUrl = r.imageStoredUrl ∧
        r.cleared.imageContentHash = r.imageContentHash := by
    rw [StoredDrep.cleared]
    split_ifs
    · exact .inl ⟨rfl, rfl⟩
    · exact .inr ⟨rfl, rfl⟩
  rw [AvatarPass.leaves]
  split_ifs
  · rw [AvatarPass.attempted]
    rcases hstores : pass.stores r.cleared with _ | hash
    · exact hcleared.imp_right .inr
    · rw [AvatarPass.stores, imageUrl_cleared] at hstores
      obtain ⟨imageUrl, himage, hstore⟩ := Option.bind_eq_some_iff.mp hstores
      exact .inr (.inl ⟨imageUrl, hash, himage, hstore, (imageUrl_cleared r).trans himage, rfl⟩)
  · exact hcleared.imp_right .inr

end Columns

/-! ### The runs -/

/-- The table, the rows of the DRep as a sync may have read them, and the documents that the sync
got for it. -/
structure AvatarWorld (δ : Type*) where
  dreps : DrepTable
  reads : List (Option StoredDrep)
  docs : List δ

inductive AvatarAct (δ : Type*)
  | sync (existing : Option StoredDrep) (input : DrepUpsert δ)
  | apply (input : ProfileApply δ)
  | pass (pass : AvatarPass)
  | others

section Runs

variable {δ : Type*} (setup : DrepSyncSetup δ) (docOf : String → Option δ)
  (bytesAt : String → String → Prop) (drepId : String)

def AvatarWorld.next (w : AvatarWorld δ) (dreps : DrepTable) (docs : List δ) : AvatarWorld δ :=
  ⟨dreps, drepById dreps drepId :: w.reads, docs ++ w.docs⟩

/-- One step. Fetched and applied documents are those of their hashes, and a pass stores bytes that
it has downloaded. -/
inductive AvatarStep (w : AvatarWorld δ) : AvatarAct δ → AvatarWorld δ → Prop
  | sync {existing : Option StoredDrep} {input : DrepUpsert δ} (hread : existing ∈ w.reads)
      (hid : input.info.drepId = drepId)
      (hdoc : ∀ metaUrl metaHash doc, input.run.fetchAnchorDoc metaUrl metaHash = .ok doc →
        docOf metaHash = some doc) :
      AvatarStep w (.sync existing input)
        (w.next drepId (syncDrepRow setup w.dreps existing input) input.document.toList)
  | apply {input : ProfileApply δ} (hid : input.drepId = drepId)
      (hdoc : docOf input.hash = some input.doc) :
      AvatarStep w (.apply input) (w.next drepId (applyDrepProfile setup w.dreps input) [])
  | pass {pass : AvatarPass}
      (hbytes : ∀ url hash, pass.storeImage url = some hash → bytesAt url hash) :
      AvatarStep w (.pass pass) (w.next drepId (storeDrepAvatars w.dreps pass) [])
  | others {dreps : DrepTable} (hrow : drepById dreps drepId = drepById w.dreps drepId) :
      AvatarStep w .others (w.next drepId dreps [])

/-- The runs, from before the DRep is known. -/
def avatarSystem : TransitionSystem (AvatarWorld δ) (AvatarAct δ) where
  Init w := drepById w.dreps drepId = none ∧ w.reads = [none] ∧ w.docs = []
  Step := AvatarStep setup docOf bytesAt drepId

/-- A hash that an applied document declares for its image is that of the bytes. -/
def TrueDeclarations (_ : AvatarWorld δ) : AvatarAct δ → Prop
  | .apply input => ∀ imageUrl sha,
      (setup.extractCip119Profile input.doc).ownImage = some (imageUrl, sha) → bytesAt imageUrl sha
  | _ => True

/-- The stored hash is that of bytes from the source URL, or of the inline image of a document. -/
def AvatarTrue (docs : List δ) (hash storedUrl : Option String) : Prop :=
  match storedUrl with
  | some url => ∃ h, hash = some h ∧ bytesAt url h
  | none => ∀ h, hash = some h → ∃ doc ∈ docs, setup.inlineHash doc = some h

/-- What holds of each row that a sync may have read. -/
structure AvatarRow (docs : List δ) (row : StoredDrep) : Prop where
  true_hash : AvatarTrue setup bytesAt docs row.imageContentHash row.imageStoredUrl
  held : ∀ metaHash doc, row.holds metaHash = true → docOf metaHash = some doc →
    row.imageUrl = (setup.extractCip119Profile doc).imageUrl

structure AvatarInv (w : AvatarWorld δ) : Prop where
  current : drepById w.dreps drepId ∈ w.reads
  rows : ∀ row, some row ∈ w.reads → AvatarRow setup docOf bytesAt w.docs row

variable {setup docOf bytesAt drepId}

theorem AvatarTrue.mono {docs docs' : List δ} {hash storedUrl : Option String}
    (h : AvatarTrue setup bytesAt docs hash storedUrl) (hsub : docs ⊆ docs') :
    AvatarTrue setup bytesAt docs' hash storedUrl := by
  rcases storedUrl with _ | url
  · intro h' hhash
    obtain ⟨doc, hdoc, hinline⟩ := h h' hhash
    exact ⟨doc, hsub hdoc, hinline⟩
  · exact h

variable {row : StoredDrep}

theorem AvatarRow.mono {docs docs' : List δ} (h : AvatarRow setup docOf bytesAt docs row)
    (hsub : docs ⊆ docs') : AvatarRow setup docOf bytesAt docs' row := ⟨h.true_hash.mono hsub, h.held⟩

theorem avatarTrue_none {docs : List δ} : AvatarTrue setup bytesAt docs none none :=
  nofun

variable {dreps : DrepTable} {m n : ℕ}

theorem AvatarInv.next {w : AvatarWorld δ} (hw : AvatarInv setup docOf bytesAt drepId w)
    {docs : List δ} (hrow : ∀ row, drepById dreps drepId = some row →
      AvatarRow setup docOf bytesAt (docs ++ w.docs) row) :
    AvatarInv setup docOf bytesAt drepId (w.next drepId dreps docs) where
  current := List.mem_cons_self
  rows row hmem := by
    rcases List.mem_cons.mp hmem with h | hmem
    · exact hrow row h.symm
    · exact (hw.rows row hmem).mono (List.subset_append_right docs w.docs)

theorem avatarRow_of_resolved {docs : List δ} {existing : Option StoredDrep} {input : DrepUpsert δ}
    (hexisting : ∀ r, existing = some r → AvatarRow setup docOf bytesAt docs r)
    (hdoc : ∀ metaUrl metaHash doc, input.run.fetchAnchorDoc metaUrl metaHash = .ok doc →
      docOf metaHash = some doc) (hrow : row.toResolvedProfile =
      (resolveProfile setup input.run input.info existing input.canFetch).1) :
    AvatarRow setup docOf bytesAt (input.document.toList ++ docs) row where
  true_hash := by
    rw [hrow]
    rcases avatar_resolveProfile setup existing input with
      ⟨hhash, hurl⟩ | ⟨doc, hash, hdocument, hinline, hhash, hurl⟩
    · rw [hhash, hurl]
      rcases existing with _ | r
      · exact avatarTrue_none
      · exact (hexisting r rfl).true_hash.mono (List.subset_append_right _ docs)
    · rw [hhash, hurl]
      rintro h ⟨⟩
      exact ⟨doc, by simp [hdocument], hinline⟩
  held metaHash doc hholds hof := by
    obtain ⟨hhash, hstatus, -⟩ := holds_eq_true.mp hholds
    rw [hrow] at hhash hstatus ⊢
    rcases h : input.info.anchor with _ | ⟨metaUrl, anchorHash⟩
    · rw [resolveProfile_unanchored h] at hhash
      exact nomatch hhash
    · rcases attempt_cases existing input.run metaUrl anchorHash input.canFetch with
        ⟨r, rfl, hr⟩ | ⟨hany, ⟨fetched, hattempt⟩ | hattempt⟩
      · rw [resolveProfile_holds h hr] at hhash ⊢
        obtain rfl : anchorHash = metaHash := Option.some.inj hhash
        exact (hexisting r rfl).held anchorHash doc hr hof
      · rw [resolveProfile_fetched_ok h hany hattempt] at hhash ⊢
        obtain rfl : anchorHash = metaHash := Option.some.inj hhash
        rw [DrepSyncRun.attempt] at hattempt
        split_ifs at hattempt
        have hfetched := hdoc metaUrl anchorHash fetched (Option.some.inj hattempt)
        rw [Option.some.inj (hof.symm.trans hfetched)]
        rfl
      · rw [resolveProfile_kept h hany hattempt] at hstatus
        rcases hresult : input.run.attempt metaUrl anchorHash input.canFetch with _ | got | miss
        · exact absurd (hresult ▸ hstatus) (by simp [keptProfile, statusWithout])
        · exact absurd hresult (hattempt got)
        · exact absurd (hresult ▸ hstatus) (by simp [keptProfile, statusWithout])

theorem AvatarInv.step {w w' : AvatarWorld δ} {a : AvatarAct δ}
    (hw : AvatarInv setup docOf bytesAt drepId w) (hok : TrueDeclarations setup bytesAt w a)
    (h : AvatarStep setup docOf bytesAt drepId w a w') :
    AvatarInv setup docOf bytesAt drepId w' := by
  have hcurrent : ∀ row, drepById w.dreps drepId = some row →
      AvatarRow setup docOf bytesAt w.docs row := fun row hrow =>
    hw.rows row (hrow ▸ hw.current)
  cases h with
  | @sync existing input hread hid hdoc =>
    refine hw.next fun row hrow => ?_
    subst hid
    rcases drepById_syncDrepRow setup existing input w.dreps with
      hsame | ⟨row', hrow', hprofile, -⟩
    · exact (hcurrent row (hsame ▸ hrow)).mono (List.subset_append_right _ w.docs)
    · obtain rfl : row = row' := Option.some.inj (hrow.symm.trans hrow')
      exact avatarRow_of_resolved (fun r hr => hw.rows r (hr ▸ hread)) hdoc hprofile
  | @apply input hid hdoc =>
    refine hw.next fun row hrow => ?_
    subst hid
    rw [drepById_applyDrepProfile] at hrow
    obtain ⟨r, hr, rfl⟩ := Option.map_eq_some_iff.mp hrow
    constructor
    · change AvatarTrue setup bytesAt _
        ((setup.extractCip119Profile input.doc).ownImage.map (·.2))
        ((setup.extractCip119Profile input.doc).ownImage.map (·.1))
      rcases hown : (setup.extractCip119Profile input.doc).ownImage with _ | ⟨imageUrl, sha⟩
      · exact avatarTrue_none
      · exact ⟨sha, rfl, hok imageUrl sha hown⟩
    · intro metaHash doc hholds hof
      obtain rfl : input.hash = metaHash := Option.some.inj (holds_eq_true.mp hholds).1
      rw [Option.some.inj (hof.symm.trans hdoc)]
      rfl
  | @pass pass hbytes =>
    refine hw.next fun row hrow => ?_
    rw [drepById_storeDrepAvatars] at hrow
    obtain ⟨r, hr, rfl⟩ := Option.map_eq_some_iff.mp hrow
    have hrow' := hcurrent r hr
    obtain ⟨himage, hhash, hstatus, hversion⟩ :=
      leaves_rest pass (avatarQueue w.dreps) r
    constructor
    · rcases leaves_avatar pass (avatarQueue w.dreps) r with
        ⟨hurl, hstored⟩ | ⟨imageUrl, hash, -, hstore, hurl, hstored⟩ | ⟨hurl, hstored⟩
      · rw [hurl, hstored]
        exact avatarTrue_none
      · rw [hurl, hstored]
        exact ⟨hash, rfl, hbytes imageUrl hash hstore⟩
      · rw [hurl, hstored]
        exact hrow'.true_hash
    · intro metaHash doc hholds hof
      rw [holds_eq_true, hhash, hstatus, hversion, ← holds_eq_true] at hholds
      rw [himage]
      exact hrow'.held metaHash doc hholds hof
  | @others dreps hsame =>
    exact hw.next fun row hrow => hcurrent row (hsame ▸ hrow)

/-- **A true hash.** Where declared hashes are true, what is stored of the avatar is true. -/
theorem avatarInv_of_reachable {w : AvatarWorld δ}
    (h : ((avatarSystem setup docOf bytesAt drepId).restrict
      (TrueDeclarations setup bytesAt)).Reachable w) :
    AvatarInv setup docOf bytesAt drepId w := by
  have hkeep : ∀ w a w', AvatarInv setup docOf bytesAt drepId w →
      ((avatarSystem setup docOf bytesAt drepId).restrict (TrueDeclarations setup bytesAt)).Step
        w a w' → AvatarInv setup docOf bytesAt drepId w' := fun w a w' hw hstep =>
    hw.step hstep.1 hstep.2
  refine h.invariant ?_ hkeep
  rintro w ⟨hrow, hreads, -⟩
  refine ⟨by simp [hrow, hreads], fun row hmem => ?_⟩
  rw [hreads] at hmem
  exact nomatch hmem

/-! ### A document without an image -/

/-- The sync has the document of the DRep, if there is one, and it carries no image. -/
def DrepUpsert.Imageless (setup : DrepSyncSetup δ) (docOf : String → Option δ)
    (input : DrepUpsert δ) (existing : Option StoredDrep) : Prop :=
  input.info.anchor = none ∨
    ∃ metaUrl metaHash doc, input.info.anchor = some (metaUrl, metaHash) ∧
      docOf metaHash = some doc ∧ (setup.extractCip119Profile doc).imageUrl = none ∧
      (setup.extractCip119Profile doc).imageDataUri = none ∧
      (existing.any (·.holds metaHash) = true ∨
        input.run.attempt metaUrl metaHash input.canFetch = some (.ok doc))

theorem drepById_syncDrepRow_fresh {input : DrepUpsert δ} :
    drepById (syncDrepRow setup dreps (drepById dreps input.info.drepId) input)
        input.info.drepId =
      some (setup.next input.run input.info (drepById dreps input.info.drepId)
        input.canFetch) := by
  rw [syncDrepRow, DrepSyncSetup.next]
  by_cases hchanged : hasChanged (setup.row input.run input.info
      (drepById dreps input.info.drepId) input.canFetch) (drepById dreps input.info.drepId) = true
  · rw [if_pos hchanged, if_pos hchanged, drepById_upsert, if_pos (by rfl)]
  · rw [if_neg hchanged, if_neg hchanged]
    rcases hrow : drepById dreps input.info.drepId with _ | row
    · exact absurd rfl (hrow ▸ hchanged)
    · rfl

theorem avatar_next_of_imageless {existing : Option StoredDrep} {input : DrepUpsert δ}
    (hheld : ∀ r, existing = some r → ∀ metaHash doc, r.holds metaHash = true →
      docOf metaHash = some doc → r.imageUrl = (setup.extractCip119Profile doc).imageUrl)
    (h : input.Imageless setup docOf existing) :
    let row := setup.next input.run input.info existing input.canFetch
    row.imageUrl = none ∧ row.imageContentHash = existing.bind (·.imageContentHash) ∧
      row.imageStoredUrl = existing.bind (·.imageStoredUrl) := by
  intro row
  have hshows : row.Shows _ := shows_next
  have hprofile : let profile :=
        (resolveProfile setup input.run input.info existing input.canFetch).1
      profile.imageUrl = none ∧ profile.imageContentHash = existing.bind (·.imageContentHash) ∧
        profile.imageStoredUrl = existing.bind (·.imageStoredUrl) := by
    rcases h with hnone | ⟨metaUrl, metaHash, doc, hanchor, hof, himage, hdata, hhave⟩
    · rw [resolveProfile_unanchored hnone]
      exact ⟨rfl, rfl, rfl⟩
    · rcases hany : existing.any (·.holds metaHash) with _ | _
      · have hattempt := hhave.resolve_left (by simp [hany])
        have hinline : setup.inlineHash doc = none := by
          rw [DrepSyncSetup.inlineHash, hdata]
          cases setup.ingestDataUriAvatar <;> rfl
        rw [DrepSyncSetup.inlineHash] at hinline
        rw [resolveProfile_fetched_ok hanchor hany hattempt]
        exact ⟨himage, by simp [DrepSyncSetup.extracted, hinline],
          by simp [DrepSyncSetup.extracted, hinline]⟩
      · obtain ⟨r, rfl, hholds⟩ := (Option.any_eq_true _ _).mp hany
        rw [resolveProfile_holds hanchor hholds]
        exact ⟨(hheld r rfl metaHash doc hholds hof).trans himage, rfl, rfl⟩
  refine ⟨hshows.imageUrl.trans hprofile.1, hshows.imageContentHash.trans hprofile.2.1, ?_⟩
  change (setup.next input.run input.info existing input.canFetch).imageStoredUrl = _
  rw [DrepSyncSetup.next]
  rcases existing with _ | r
  · exact hprofile.2.2
  · split_ifs
    · exact hprofile.2.2
    · rfl

/-- **A gone image** is cleared by the sync and the pass after it, unless it was inline. -/
theorem avatar_cleared_iff {w w₁ w₂ : AvatarWorld δ} {input : DrepUpsert δ} {pass : AvatarPass}
    (hw : AvatarInv setup docOf bytesAt drepId w)
    (hsync : AvatarStep setup docOf bytesAt drepId w (.sync (drepById w.dreps drepId) input) w₁)
    (hless : input.Imageless setup docOf (drepById w.dreps drepId))
    (hpass : AvatarStep setup docOf bytesAt drepId w₁ (.pass pass) w₂) :
    (∃ row, drepById w₂.dreps drepId = some row ∧ row.imageContentHash = none ∧
        row.imageStoredUrl = none) ↔
      ∀ row, drepById w.dreps drepId = some row →
        row.imageContentHash = none ∨ row.imageStoredUrl ≠ none := by
  have hbefore : ∀ row, drepById w.dreps drepId = some row →
      AvatarRow setup docOf bytesAt w.docs row := fun row hrow =>
    hw.rows row (hrow ▸ hw.current)
  obtain ⟨himage, hhash, hurl⟩ := avatar_next_of_imageless
    (fun r hr metaHash doc => (hbefore r hr).held metaHash doc) hless
  cases hsync with
  | sync hread hid hdoc =>
  cases hpass with
  | pass hbytes =>
  subst hid
  set row₁ := setup.next input.run input.info (drepById w.dreps input.info.drepId) input.canFetch
  have hrow₁ : drepById (syncDrepRow setup w.dreps (drepById w.dreps input.info.drepId) input)
      input.info.drepId = some row₁ := drepById_syncDrepRow_fresh
  -- without a link the row is not queued
  have hleaves : ∀ queue : List StoredDrep, (∀ q ∈ queue, q.needsAvatar = true) →
      pass.leaves queue row₁ = row₁.cleared := fun queue hqueue => if_neg fun hmem => by
    have hneeds := hqueue _ hmem
    rw [StoredDrep.needsAvatar, imageUrl_cleared, himage] at hneeds
    cases hneeds
  have hrow₂ : drepById (storeDrepAvatars
      (syncDrepRow setup w.dreps (drepById w.dreps input.info.drepId) input) pass)
        input.info.drepId = some row₁.cleared := by
    rw [drepById_storeDrepAvatars, hrow₁, Option.map_some]
    exact congrArg some (hleaves _ fun q hq => (of_mem_listDrepsNeedingAvatar hq).2)
  have hleft : (∃ row, drepById (storeDrepAvatars
      (syncDrepRow setup w.dreps (drepById w.dreps input.info.drepId) input) pass)
        input.info.drepId = some row ∧ row.imageContentHash = none ∧ row.imageStoredUrl = none) ↔
      row₁.cleared.imageContentHash = none ∧ row₁.cleared.imageStoredUrl = none := by
    rw [hrow₂]
    constructor
    · rintro ⟨row, hrow, h⟩
      exact Option.some.inj hrow ▸ h
    · exact fun h => ⟨_, rfl, h⟩
  refine hleft.trans ?_
  rw [StoredDrep.cleared, himage]
  rcases hexisting : drepById w.dreps input.info.drepId with _ | row
  · simp [hexisting] at hhash hurl
    simp [hhash, hurl]
  · have htrue := (hbefore row hexisting).true_hash
    rw [hexisting] at hhash hurl
    simp only [Option.bind_some] at hhash hurl
    rw [← hhash, ← hurl] at htrue
    have hmine : (∀ r, some row = some r → r.imageContentHash = none ∨ r.imageStoredUrl ≠ none) ↔
        (row₁.imageContentHash = none ∨ row₁.imageStoredUrl ≠ none) := by
      rw [hhash, hurl]
      exact ⟨fun h => h row rfl, fun h r hr => Option.some.inj hr ▸ h⟩
    rw [hmine]
    rcases hstored : row₁.imageStoredUrl with _ | url <;> rw [hstored] at htrue
    · rcases hrowHash : row₁.imageContentHash with _ | hash <;> simp [hstored, hrowHash]
    · obtain ⟨hash, hrowHash, -⟩ := htrue
      simp [hrowHash]

/-! ### A document with a linked image -/

variable (setup docOf bytesAt drepId)

/-- The runs in which declared hashes are true. -/
def trueAvatars : TransitionSystem (AvatarWorld δ) (AvatarAct δ) :=
  (avatarSystem setup docOf bytesAt drepId).restrict (TrueDeclarations setup bytesAt)

/-- The image is stored, with the hash of its bytes. -/
def AvatarStored (imageUrl : String) (w : AvatarWorld δ) : Prop :=
  ∃ row hash, drepById w.dreps drepId = some row ∧ row.imageStoredUrl = some imageUrl ∧
    row.imageContentHash = some hash ∧ bytesAt imageUrl hash

/-- The download of the image succeeds in the pass, whose clock has gone on. -/
def AvatarPass.Gets (pass : AvatarPass) (imageUrl : String) (since : ℤ) : Prop :=
  (pass.storeImage imageUrl).isSome = true ∧ since < pass.nowMs

/-- A further run with a stable document, by the number of passes that do not leave its image
stored. Upserts of the sync may still write rows that were read before a pass. -/
inductive AvatarStable (imageUrl : String) (since : ℤ) (w₀ : AvatarWorld δ) :
    ℕ → AvatarWorld δ → Prop
  | start : AvatarStable imageUrl since w₀ 0 w₀
  | stored {m : ℕ} {w w' : AvatarWorld δ} {pass : AvatarPass}
      (h : AvatarStable imageUrl since w₀ m w)
      (hstep : (trueAvatars setup docOf bytesAt drepId).Step w (.pass pass) w')
      (hgets : pass.Gets imageUrl since) (hstored : AvatarStored bytesAt drepId imageUrl w') :
      AvatarStable imageUrl since w₀ m w'
  | missed {m : ℕ} {w w' : AvatarWorld δ} {pass : AvatarPass}
      (h : AvatarStable imageUrl since w₀ m w)
      (hstep : (trueAvatars setup docOf bytesAt drepId).Step w (.pass pass) w')
      (hgets : pass.Gets imageUrl since) (hmissed : ¬AvatarStored bytesAt drepId imageUrl w') :
      AvatarStable imageUrl since w₀ (m + 1) w'
  | other {m : ℕ} {w w' : AvatarWorld δ} {a : AvatarAct δ}
      (h : AvatarStable imageUrl since w₀ m w)
      (hstep : (trueAvatars setup docOf bytesAt drepId).Step w a w')
      (hpass : ∀ pass, a ≠ .pass pass)
      (hshown : ∃ row, drepById w'.dreps drepId = some row ∧ row.imageUrl = some imageUrl)
      (hfront : a = .others → queueAhead w'.dreps drepId since ≤ queueAhead w.dreps drepId since) :
      AvatarStable imageUrl since w₀ m w'

/-- A further run, by the number of passes, in which nothing but the passes changes what is stored
of the avatar. -/
inductive AvatarQuiet (imageUrl : String) (since : ℤ) (w₀ : AvatarWorld δ) :
    ℕ → AvatarWorld δ → Prop
  | start : AvatarQuiet imageUrl since w₀ 0 w₀
  | pass {n : ℕ} {w w' : AvatarWorld δ} {pass : AvatarPass}
      (h : AvatarQuiet imageUrl since w₀ n w)
      (hstep : (trueAvatars setup docOf bytesAt drepId).Step w (.pass pass) w')
      (hgets : pass.Gets imageUrl since) : AvatarQuiet imageUrl since w₀ (n + 1) w'
  | other {n : ℕ} {w w' : AvatarWorld δ} {a : AvatarAct δ}
      (h : AvatarQuiet imageUrl since w₀ n w)
      (hstep : (trueAvatars setup docOf bytesAt drepId).Step w a w')
      (hpass : ∀ pass, a ≠ .pass pass)
      (hsame : (drepById w'.dreps drepId).map (·.avatarColumns) =
        (drepById w.dreps drepId).map (·.avatarColumns))
      (hfront : queueAhead w'.dreps drepId since ≤ queueAhead w.dreps drepId since) :
      AvatarQuiet imageUrl since w₀ n w'

variable {setup docOf bytesAt drepId} {imageUrl : String} {since : ℤ} {w₀ w w' : AvatarWorld δ}

theorem AvatarInv.step_true {a : AvatarAct δ} (hw : AvatarInv setup docOf bytesAt drepId w)
    (h : (trueAvatars setup docOf bytesAt drepId).Step w a w') :
    AvatarInv setup docOf bytesAt drepId w' := hw.step h.1 h.2

theorem avatarStored_of_url (hw : AvatarInv setup docOf bytesAt drepId w)
    (hrow : drepById w.dreps drepId = some row) (hurl : row.imageStoredUrl = some imageUrl) :
    AvatarStored bytesAt drepId imageUrl w := by
  have htrue := (hw.rows row (hrow ▸ hw.current)).true_hash
  rw [hurl] at htrue
  obtain ⟨hash, hhash, hbytes⟩ := htrue
  exact ⟨row, hash, hrow, hurl, hhash, hbytes⟩

theorem leaves_of_gets {pass : AvatarPass} (queue : List StoredDrep) {hash : String}
    (himage : row.imageUrl = some imageUrl) (hstore : pass.storeImage imageUrl = some hash) :
    pass.leaves queue row =
      if row ∈ queue then
        { row with
          imageContentHash := some hash
          imageStoredUrl := some imageUrl
          imageFetchFailedAt := none
          imageFetchAttempts := 0 }
      else row := by
  have hcleared : row.cleared = row := cleared_of_imageUrl (by simp [himage])
  have hstores : pass.stores row = some hash := by rw [AvatarPass.stores, himage]; exact hstore
  rw [AvatarPass.leaves, hcleared]
  split_ifs
  · rw [AvatarPass.attempted, hstores]
    simp only [himage]
  · rfl

theorem queueAhead_step {a : AvatarAct δ} (h : AvatarStep setup docOf bytesAt drepId w a w')
    (hpass : ∀ pass, a ≠ .pass pass) (hothers : a ≠ .others) :
    queueAhead w'.dreps drepId since = queueAhead w.dreps drepId since := by
  have hmine : ∀ r : StoredDrep, r.drepId = drepId → r.waits drepId since = false := fun r hr => by
    simp [StoredDrep.waits, hr]
  cases h with
  | @sync existing input hread hid hdoc =>
    change (syncDrepRow setup w.dreps existing input).rows.countP _ = w.dreps.rows.countP _
    rw [syncDrepRow]
    split_ifs
    · exact KeyedTable.countP_upsert_other _ fun r hr => hmine r (hr.trans hid)
    · rfl
  | @apply input hid hdoc =>
    change (Table.updateWhere _ (setup.applied input) w.dreps.rows).countP _ = _
    rw [Table.updateWhere, List.countP_map, queueAhead]
    refine List.countP_congr fun r _ => ?_
    rw [Function.comp_apply]
    by_cases hr : r.drepId = drepId
    · have happlied : (setup.applied input r).waits drepId since = false := hmine _ hr
      simp [hr, hid, happlied, hmine r hr]
    · simp [hr, hid]
  | pass => exact absurd rfl (hpass _)
  | others => exact absurd rfl hothers

/-- The other steps of a DRep bring back no later failure than one that was read, and keep the
count. -/
theorem row_step {a : AvatarAct δ} (h : AvatarStep setup docOf bytesAt drepId w a w')
    (hcurrent : drepById w.dreps drepId ∈ w.reads) (hpass : ∀ pass, a ≠ .pass pass)
    {row' : StoredDrep} (hrow : drepById w.dreps drepId = some row)
    (hrow' : drepById w'.dreps drepId = some row') :
    row'.imageFetchAttempts = row.imageFetchAttempts ∧
      (row'.imageFetchFailedAt = none ∨
        ∃ r, some r ∈ w.reads ∧ row'.imageFetchFailedAt = r.imageFetchFailedAt) := by
  have hsame : drepById w'.dreps drepId = drepById w.dreps drepId →
      row'.imageFetchAttempts = row.imageFetchAttempts ∧
        (row'.imageFetchFailedAt = none ∨
          ∃ r, some r ∈ w.reads ∧ row'.imageFetchFailedAt = r.imageFetchFailedAt) := by
    intro hsame
    obtain rfl : row' = row := by simpa [hsame, hrow] using hrow'.symm
    exact ⟨rfl, .inr ⟨row', hrow ▸ hcurrent, rfl⟩⟩
  cases h with
  | @sync existing input hread hid hdoc =>
    subst hid
    rcases drepById_syncDrepRow setup existing input w.dreps with
      hleft | ⟨written, hwritten, -, hfailed, hattempts⟩
    · exact hsame hleft
    · obtain rfl : row' = written := Option.some.inj (hrow'.symm.trans hwritten)
      refine ⟨by simpa [hrow] using hattempts, ?_⟩
      rcases existing with _ | r
      · exact .inl hfailed
      · exact .inr ⟨r, hread, hfailed⟩
  | @apply input hid hdoc =>
    subst hid
    have hleft : drepById (applyDrepProfile setup w.dreps input) input.drepId = some row' := hrow'
    rw [drepById_applyDrepProfile, hrow] at hleft
    obtain rfl : setup.applied input row = row' := Option.some.inj hleft
    exact ⟨rfl, .inl rfl⟩
  | pass => exact absurd rfl (hpass _)
  | others hleft => exact hsame hleft

/-- What holds along a stable run: the row is on its way, and every pass that misses it has taken a
full pass of those in front of it out. -/
structure OnTheWay (setup : DrepSyncSetup δ) (docOf : String → Option δ)
    (bytesAt : String → String → Prop) (drepId imageUrl : String) (since : ℤ)
    (w₀ : AvatarWorld δ) (m : ℕ) (w : AvatarWorld δ) : Prop where
  inv : AvatarInv setup docOf bytesAt drepId w
  row : ∃ row, drepById w.dreps drepId = some row ∧ row.imageUrl = some imageUrl ∧
    row.imageFetchAttempts < AVATAR_FETCH_MAX_ATTEMPTS
  failed : ∀ r, some r ∈ w.reads → r.imageFetchFailedAt.all (fun t => decide (t ≤ since)) = true
  left : queueAhead w.dreps drepId since + m * AVATAR_PASS_LIMIT ≤ queueAhead w₀.dreps drepId since

theorem OnTheWay.pass {pass : AvatarPass}
    (h : OnTheWay setup docOf bytesAt drepId imageUrl since w₀ m w)
    (hstep : (trueAvatars setup docOf bytesAt drepId).Step w (.pass pass) w')
    (hgets : pass.Gets imageUrl since) :
    OnTheWay setup docOf bytesAt drepId imageUrl since w₀ m w' ∧
      (AvatarStored bytesAt drepId imageUrl w' ∨
        OnTheWay setup docOf bytesAt drepId imageUrl since w₀ (m + 1) w') := by
  have hinv' := h.inv.step_true hstep
  obtain ⟨row, hrow, himage, hattempts⟩ := h.row
  obtain ⟨hash, hstore⟩ := Option.isSome_iff_exists.mp hgets.1
  obtain ⟨-, hstep⟩ := hstep
  cases hstep with
  | pass hbytes =>
  have hrow' : drepById (storeDrepAvatars w.dreps pass) drepId =
      some (pass.leaves (avatarQueue w.dreps) row) := by
    rw [drepById_storeDrepAvatars, hrow, Option.map_some]
  have hfailed := h.failed row (hrow ▸ h.inv.current)
  have hless : queueAhead (storeDrepAvatars w.dreps pass) drepId since ≤
      queueAhead w.dreps drepId since :=
    (Nat.le_add_right _ _).trans (queueAhead_storeDrepAvatars hgets.2)
  have hleaves := leaves_of_gets (avatarQueue w.dreps) himage hstore
  have hon : ∀ m',
      queueAhead (storeDrepAvatars w.dreps pass) drepId since + m' * AVATAR_PASS_LIMIT ≤
        queueAhead w₀.dreps drepId since →
      OnTheWay setup docOf bytesAt drepId imageUrl since w₀ m'
        (w.next drepId (storeDrepAvatars w.dreps pass) []) := fun m' hleft => by
    refine ⟨hinv', ⟨_, hrow', ?_⟩, fun r hr => ?_, hleft⟩
    · rw [hleaves]
      split_ifs
      · exact ⟨himage, (by decide : 0 < AVATAR_FETCH_MAX_ATTEMPTS)⟩
      · exact ⟨himage, hattempts⟩
    · rcases List.mem_cons.mp hr with hr | hr
      · obtain rfl : r = _ := Option.some.inj (hr.trans hrow')
        rw [hleaves]
        split_ifs
        · rfl
        · exact hfailed
      · exact h.failed r hr
  have hleft := h.left
  refine ⟨hon m (by omega), ?_⟩
  by_cases hurl : row.imageStoredUrl = some imageUrl
  · refine .inl (avatarStored_of_url hinv' hrow' ?_)
    rw [hleaves]
    split_ifs
    · rfl
    · exact hurl
  · have hneeds : row.needsAvatar = true := by
      simp [StoredDrep.needsAvatar, himage, hurl, hattempts]
    rcases turn_or_progress hgets.2 hrow hneeds hfailed with hin | hprogress
    · refine .inl (avatarStored_of_url hinv' hrow' ?_)
      rw [hleaves, if_pos hin]
    · exact .inr (hon (m + 1) (by rw [Nat.add_mul]; omega))

theorem AvatarStable.onTheWay (h₀ : OnTheWay setup docOf bytesAt drepId imageUrl since w₀ 0 w₀)
    (h : AvatarStable setup docOf bytesAt drepId imageUrl since w₀ m w) :
    OnTheWay setup docOf bytesAt drepId imageUrl since w₀ m w := by
  induction h with
  | start => exact h₀
  | stored _ hstep hgets _ ih => exact (ih.pass hstep hgets).1
  | missed _ hstep hgets hmissed ih =>
    exact (ih.pass hstep hgets).2.resolve_left hmissed
  | @other m w w' a _ hstep hpass hshown hfront ih =>
    obtain ⟨row, hrow, -, hattempts⟩ := ih.row
    obtain ⟨row', hrow', himage'⟩ := hshown
    obtain ⟨hcount, hfailed⟩ := row_step hstep.2 ih.inv.current hpass hrow hrow'
    refine ⟨ih.inv.step_true hstep, ⟨row', hrow', himage', hcount ▸ hattempts⟩, ?_, ?_⟩
    · have hreads : w'.reads = drepById w'.dreps drepId :: w.reads := by cases hstep.2 <;> rfl
      intro r hr
      rw [hreads] at hr
      rcases List.mem_cons.mp hr with hr | hr
      · obtain rfl : r = row' := Option.some.inj (hr.trans hrow')
        rcases hfailed with hnone | ⟨r', hr', hsame⟩
        · rw [hnone]
          rfl
        · rw [hsame]
          exact ih.failed r' hr'
      · exact ih.failed r hr
    · have hleft := ih.left
      have hle : queueAhead w'.dreps drepId since ≤ queueAhead w.dreps drepId since := by
        by_cases hothers : a = .others
        · exact hfront hothers
        · exact (queueAhead_step hstep.2 hpass hothers).le
      omega

/-- **A linked image** with attempts left is stored by all but a bounded number of passes. -/
theorem AvatarStable.bounded (hw₀ : AvatarInv setup docOf bytesAt drepId w₀)
    (hrow : drepById w₀.dreps drepId = some row) (himage : row.imageUrl = some imageUrl)
    (hattempts : row.imageFetchAttempts < AVATAR_FETCH_MAX_ATTEMPTS)
    (hsince : ∀ r, some r ∈ w₀.reads →
      r.imageFetchFailedAt.all (fun t => decide (t ≤ since)) = true)
    (h : AvatarStable setup docOf bytesAt drepId imageUrl since w₀ m w) :
    m * AVATAR_PASS_LIMIT ≤ queueAhead w₀.dreps drepId since := by
  have hway : OnTheWay setup docOf bytesAt drepId imageUrl since w₀ m w :=
    h.onTheWay ⟨hw₀, ⟨row, hrow, himage, hattempts⟩, hsince, by omega⟩
  exact (Nat.le_add_left _ _).trans hway.left

theorem AvatarQuiet.stored_or (hw₀ : AvatarInv setup docOf bytesAt drepId w₀)
    (hrow : drepById w₀.dreps drepId = some row) (himage : row.imageUrl = some imageUrl)
    (hsince : row.imageFetchFailedAt.all (fun t => decide (t ≤ since)) = true)
    (h : AvatarQuiet setup docOf bytesAt drepId imageUrl since w₀ n w) :
    AvatarInv setup docOf bytesAt drepId w ∧ ∃ row', drepById w.dreps drepId = some row' ∧
      row'.imageUrl = some imageUrl ∧
      ((row'.imageStoredUrl = some imageUrl ∧
          (row.imageFetchAttempts < AVATAR_FETCH_MAX_ATTEMPTS ∨
            row.imageStoredUrl = some imageUrl)) ∨
        row'.avatarColumns = row.avatarColumns ∧ row.imageStoredUrl ≠ some imageUrl ∧
          (row.imageFetchAttempts < AVATAR_FETCH_MAX_ATTEMPTS →
            queueAhead w.dreps drepId since + n * AVATAR_PASS_LIMIT ≤
              queueAhead w₀.dreps drepId since)) := by
  induction h with
  | start =>
    refine ⟨hw₀, row, hrow, himage, ?_⟩
    by_cases hurl : row.imageStoredUrl = some imageUrl
    · exact .inl ⟨hurl, .inr hurl⟩
    · exact .inr ⟨rfl, hurl, fun _ => by omega⟩
  | @pass n w w' pass _ hstep hgets ih =>
    obtain ⟨hinv, row', hrow', himage', hcases⟩ := ih
    obtain ⟨hash, hstore⟩ := Option.isSome_iff_exists.mp hgets.1
    refine ⟨hinv.step_true hstep, pass.leaves (avatarQueue w.dreps) row', ?_⟩
    obtain ⟨-, hstep⟩ := hstep
    cases hstep with
    | pass hbytes =>
    have hleaves := leaves_of_gets (avatarQueue w.dreps) himage' hstore
    refine ⟨by exact drepById_storeDrepAvatars.trans (by rw [hrow', Option.map_some]), ?_, ?_⟩
    · exact (leaves_rest pass _ row').1.trans himage'
    rw [hleaves]
    rcases hcases with ⟨hurl, hcan⟩ | ⟨hsame, hurl, hleft⟩
    · left
      split_ifs
      · exact ⟨rfl, hcan⟩
      · exact ⟨hurl, hcan⟩
    · obtain ⟨-, -, hurl', hfailed', hattempts'⟩ :
          row'.imageUrl = row.imageUrl ∧ row'.imageContentHash = row.imageContentHash ∧
            row'.imageStoredUrl = row.imageStoredUrl ∧
            row'.imageFetchFailedAt = row.imageFetchFailedAt ∧
            row'.imageFetchAttempts = row.imageFetchAttempts := by
        simpa only [StoredDrep.avatarColumns, Prod.mk.injEq] using hsame
      by_cases hattempts : row.imageFetchAttempts < AVATAR_FETCH_MAX_ATTEMPTS
      · have hneeds : row'.needsAvatar = true := by
          simp [StoredDrep.needsAvatar, himage', hurl', hurl, hattempts', hattempts]
        rcases turn_or_progress hgets.2 hrow' hneeds (hfailed' ▸ hsince) with hin | hprogress
        · rw [if_pos hin]
          exact .inl ⟨rfl, .inl hattempts⟩
        · split_ifs
          · exact .inl ⟨rfl, .inl hattempts⟩
          · refine .inr ⟨hsame, hurl, fun _ => ?_⟩
            have hbefore := hleft hattempts
            change queueAhead (storeDrepAvatars w.dreps pass) drepId since + _ ≤ _
            rw [Nat.add_mul]
            omega
      · -- the row is not in the queue
        have hout : row' ∉ avatarQueue w.dreps := fun hin => by
          have hneeds := (of_mem_listDrepsNeedingAvatar hin).2
          simp only [StoredDrep.needsAvatar, Bool.and_eq_true, decide_eq_true_eq] at hneeds
          exact hattempts (hattempts' ▸ hneeds.2)
        rw [if_neg hout]
        exact .inr ⟨hsame, hurl, fun h => absurd h hattempts⟩
  | @other n w w' a _ hstep hpass hsame hfront ih =>
    obtain ⟨hinv, row', hrow', himage', hcases⟩ := ih
    rw [hrow', Option.map_some] at hsame
    obtain ⟨row'', hrow'', hcolumns⟩ := Option.map_eq_some_iff.mp hsame
    have hparts : row''.imageUrl = row'.imageUrl ∧
        row''.imageContentHash = row'.imageContentHash ∧
          row''.imageStoredUrl = row'.imageStoredUrl ∧
          row''.imageFetchFailedAt = row'.imageFetchFailedAt ∧
          row''.imageFetchAttempts = row'.imageFetchAttempts := by
      simpa only [StoredDrep.avatarColumns, Prod.mk.injEq] using hcolumns
    refine ⟨hinv.step_true hstep, row'', hrow'', hparts.1.trans himage', ?_⟩
    rcases hcases with ⟨hurl, hcan⟩ | ⟨hsame, hurl, hleft⟩
    · exact .inl ⟨hparts.2.2.1.trans hurl, hcan⟩
    · exact .inr ⟨hcolumns.trans hsame, hurl, fun h =>
        (Nat.add_le_add_right hfront _).trans (hleft h)⟩

/-- **The image settles** iff the row has attempts left, or it is stored at first. -/
theorem AvatarQuiet.stored_iff (hw₀ : AvatarInv setup docOf bytesAt drepId w₀)
    (hrow : drepById w₀.dreps drepId = some row) (himage : row.imageUrl = some imageUrl)
    (hsince : row.imageFetchFailedAt.all (fun t => decide (t ≤ since)) = true)
    (h : AvatarQuiet setup docOf bytesAt drepId imageUrl since w₀ n w)
    (hn : queueAhead w₀.dreps drepId since < n * AVATAR_PASS_LIMIT) :
    AvatarStored bytesAt drepId imageUrl w ↔
      row.imageFetchAttempts < AVATAR_FETCH_MAX_ATTEMPTS ∨
        row.imageStoredUrl = some imageUrl := by
  obtain ⟨hinv, row', hrow', himage', hcases⟩ := h.stored_or hw₀ hrow himage hsince
  rcases hcases with ⟨hurl, hcan⟩ | ⟨hsame, hurl, hleft⟩
  · exact iff_of_true (avatarStored_of_url hinv hrow' hurl) hcan
  · refine iff_of_false ?_ (not_or.mpr ⟨fun hattempts => ?_, hurl⟩)
    · rintro ⟨found, hash, hfound, hfoundUrl, -⟩
      obtain rfl : row' = found := Option.some.inj (hrow'.symm.trans hfound)
      have hurl' : row'.imageStoredUrl = row.imageStoredUrl := congrArg (·.2.2.1) hsame
      exact hurl (hurl'.symm.trans hfoundUrl)
    · have hbound := hleft hattempts
      omega

end Runs

/-- **The avatar settles.** The stored hash is true; a document without an image ends without an
avatar iff no inline one is stored before; a linked image is stored iff attempts are left. -/
theorem avatar_settles_iff {δ : Type*} {setup : DrepSyncSetup δ} {docOf : String → Option δ}
    {bytesAt : String → String → Prop} {drepId : String} {w : AvatarWorld δ}
    (hw : (trueAvatars setup docOf bytesAt drepId).Reachable w) :
    (∀ row, drepById w.dreps drepId = some row →
      AvatarTrue setup bytesAt w.docs row.imageContentHash row.imageStoredUrl) ∧
    (∀ input pass w₁ w₂,
      AvatarStep setup docOf bytesAt drepId w (.sync (drepById w.dreps drepId) input) w₁ →
      input.Imageless setup docOf (drepById w.dreps drepId) →
      AvatarStep setup docOf bytesAt drepId w₁ (.pass pass) w₂ →
      ((∃ row, drepById w₂.dreps drepId = some row ∧ row.imageContentHash = none ∧
          row.imageStoredUrl = none) ↔
        ∀ row, drepById w.dreps drepId = some row →
          row.imageContentHash = none ∨ row.imageStoredUrl ≠ none)) ∧
    (∀ row imageUrl since, drepById w.dreps drepId = some row → row.imageUrl = some imageUrl →
      (∀ r, some r ∈ w.reads →
        r.imageFetchFailedAt.all (fun t => decide (t ≤ since)) = true) →
      (row.imageFetchAttempts < AVATAR_FETCH_MAX_ATTEMPTS → ∀ m w',
        AvatarStable setup docOf bytesAt drepId imageUrl since w m w' →
          m * AVATAR_PASS_LIMIT ≤ queueAhead w.dreps drepId since) ∧
      ∀ n w', AvatarQuiet setup docOf bytesAt drepId imageUrl since w n w' →
        queueAhead w.dreps drepId since < n * AVATAR_PASS_LIMIT →
        (AvatarStored bytesAt drepId imageUrl w' ↔
          row.imageFetchAttempts < AVATAR_FETCH_MAX_ATTEMPTS ∨
            row.imageStoredUrl = some imageUrl)) := by
  have hinv : AvatarInv setup docOf bytesAt drepId w := avatarInv_of_reachable hw
  refine ⟨fun row hrow => (hinv.rows row (hrow ▸ hinv.current)).true_hash,
    fun _ _ _ _ hsync hless hpass => avatar_cleared_iff hinv hsync hless hpass,
    fun row imageUrl since hrow himage hsince => ⟨fun hattempts m w' h =>
      h.bounded hinv hrow himage hattempts hsince, fun n w' h hn => ?_⟩⟩
  exact h.stored_iff hinv hrow himage (hsince row (hrow ▸ hinv.current)) hn

/-! ### Two runs -/

/-- Documents with a link or an inline image, and no more. -/
def sampleAvatars : DrepSyncSetup (Option String × Option String) where
  extractCip119Profile doc := ⟨.blank, doc.1, doc.2, none⟩
  ingestDataUriAvatar := some some
  maxAnchorFetches := 1

def sampleDocOf (hash : String) : Option (Option String × Option String) :=
  [("broken", some "gone.png", none), ("linked", some "ada.png", none),
    ("inline", none, some "data:"), ("plain", none, none)].lookup hash

def sampleBytesAt (url hash : String) : Prop := hash = url

def sampleUpsert (hash : String) : DrepUpsert (Option String × Option String) where
  info := { sampleInfo "ada" with metaUrl := some hash, metaHash := some hash }
  run := ⟨fun _ hash => ((sampleDocOf hash).map .ok).getD (.missed .fetch_failed), 0⟩
  canFetch := true

def samplePass : AvatarPass where
  storeImage url := if url = "gone.png" then none else some url
  nowMs := 1

def sampleStart : AvatarWorld (Option String × Option String) := ⟨.empty, [none], []⟩

def sampleSynced (hash : String) (w : AvatarWorld (Option String × Option String)) :
    AvatarWorld (Option String × Option String) :=
  w.next "ada"
    (syncDrepRow sampleAvatars w.dreps (drepById w.dreps "ada") (sampleUpsert hash))
    (sampleUpsert hash).document.toList

def samplePassed (w : AvatarWorld (Option String × Option String)) :
    AvatarWorld (Option String × Option String) :=
  w.next "ada" (storeDrepAvatars w.dreps samplePass) []

theorem step_sampleSynced (hash : String) {w : AvatarWorld (Option String × Option String)}
    (hcurrent : drepById w.dreps "ada" ∈ w.reads) :
    (trueAvatars sampleAvatars sampleDocOf sampleBytesAt "ada").Step w
      (.sync (drepById w.dreps "ada") (sampleUpsert hash)) (sampleSynced hash w) := by
  refine ⟨trivial, .sync hcurrent rfl fun metaUrl metaHash doc hfetch => ?_⟩
  change ((sampleDocOf metaHash).map AnchorDocResult.ok).getD (.missed .fetch_failed) = .ok doc
    at hfetch
  rcases hof : sampleDocOf metaHash with _ | found
  · rw [hof] at hfetch
    cases hfetch
  · rw [hof] at hfetch
    cases hfetch
    rfl

theorem step_samplePassed (w : AvatarWorld (Option String × Option String)) :
    (trueAvatars sampleAvatars sampleDocOf sampleBytesAt "ada").Step w (.pass samplePass)
      (samplePassed w) := by
  refine ⟨trivial, .pass fun url hash hstore => ?_⟩
  change (if url = "gone.png" then none else some url) = some hash at hstore
  split_ifs at hstore
  exact (Option.some.inj hstore).symm

theorem reachable_sampleSynced (hash : String) :
    (trueAvatars sampleAvatars sampleDocOf sampleBytesAt "ada").Reachable
      (sampleSynced hash sampleStart) := by
  have hinit : (trueAvatars sampleAvatars sampleDocOf sampleBytesAt "ada").Init sampleStart :=
    ⟨rfl, rfl, rfl⟩
  exact (TransitionSystem.Reachable.init hinit).step (step_sampleSynced hash List.mem_cons_self)

/-- A linked image that is there is stored by the first pass. -/
theorem avatar_settles_iff_linked : AvatarStored sampleBytesAt "ada" "ada.png"
    (samplePassed (sampleSynced "linked" sampleStart)) := by
  have hrow : ∃ row, drepById (sampleSynced "linked" sampleStart).dreps "ada" = some row ∧
      row.imageUrl = some "ada.png" ∧ row.imageFetchFailedAt = none ∧
        row.imageFetchAttempts = 0 :=
    ⟨(drepById (sampleSynced "linked" sampleStart).dreps "ada").get (by decide +kernel),
      by simp, by decide +kernel, by decide +kernel, by decide +kernel⟩
  obtain ⟨row, hrow, himage, hfailed, hattempts⟩ := hrow
  refine (((avatar_settles_iff (reachable_sampleSynced "linked")).2.2 row "ada.png" 0 hrow himage
    ?_).2 1 _ (.pass .start (step_samplePassed _) ⟨by decide, by decide⟩) ?_).mpr (.inl ?_)
  · have hreads : (sampleSynced "linked" sampleStart).reads = [some row, none] := by
      rw [← hrow]
      rfl
    intro r hr
    rw [hreads] at hr
    obtain rfl : r = row := by simpa using hr
    rw [hfailed]
    rfl
  · decide +kernel
  · rw [hattempts]
    decide

/-- Ten failures with an image that is gone, and then a document with another one. -/
def sampleGivenUp : AvatarWorld (Option String × Option String) :=
  sampleSynced "linked" (samplePassed^[10] (sampleSynced "broken" sampleStart))

/-- A row that was given up is never stored, for any image; and an inline image stays, without a
document that has one. -/
theorem not_avatar_settles :
    ((trueAvatars sampleAvatars sampleDocOf sampleBytesAt "ada").Reachable sampleGivenUp ∧
      (∃ row, drepById sampleGivenUp.dreps "ada" = some row ∧ row.imageUrl = some "ada.png" ∧
        row.imageStoredUrl = none) ∧
      ∀ n w, AvatarQuiet sampleAvatars sampleDocOf sampleBytesAt "ada" "ada.png" 1 sampleGivenUp
        n w → ¬AvatarStored sampleBytesAt "ada" "ada.png" w) ∧
    (trueAvatars sampleAvatars sampleDocOf sampleBytesAt "ada").Reachable
        (sampleSynced "inline" sampleStart) ∧
      (sampleUpsert "plain").Imageless sampleAvatars sampleDocOf
        (drepById (sampleSynced "inline" sampleStart).dreps "ada") ∧
      (drepById (samplePassed (sampleSynced "plain" (sampleSynced "inline" sampleStart))).dreps
        "ada").bind (·.imageContentHash) = some "data:" := by
  have hcurrent : ∀ k, drepById (samplePassed^[k] (sampleSynced "broken" sampleStart)).dreps
      "ada" ∈ (samplePassed^[k] (sampleSynced "broken" sampleStart)).reads := fun k => by
    rcases k with _ | k
    · exact List.mem_cons_self
    · rw [Function.iterate_succ_apply']
      exact List.mem_cons_self
  have hpassed : ∀ k, (trueAvatars sampleAvatars sampleDocOf sampleBytesAt "ada").Reachable
      (samplePassed^[k] (sampleSynced "broken" sampleStart)) := fun k => by
    induction k with
    | zero => exact reachable_sampleSynced "broken"
    | succ k ih =>
      rw [Function.iterate_succ_apply']
      exact ih.step (step_samplePassed _)
  have hreach : (trueAvatars sampleAvatars sampleDocOf sampleBytesAt "ada").Reachable
      sampleGivenUp := (hpassed 10).step (step_sampleSynced "linked" (hcurrent 10))
  have hrow : ∃ row, drepById sampleGivenUp.dreps "ada" = some row ∧
      row.imageUrl = some "ada.png" ∧ row.imageStoredUrl = none ∧
      row.imageFetchFailedAt = some 1 ∧ row.imageFetchAttempts = AVATAR_FETCH_MAX_ATTEMPTS :=
    ⟨(drepById sampleGivenUp.dreps "ada").get (by decide +kernel), by simp, by decide +kernel,
      by decide +kernel, by decide +kernel, by decide +kernel⟩
  obtain ⟨row, hrow, himage, hurl, hfailed, hattempts⟩ := hrow
  refine ⟨⟨hreach, ⟨row, hrow, himage, hurl⟩, fun n w h => ?_⟩, reachable_sampleSynced "inline",
    .inr ⟨"plain", "plain", (none, none), by decide +kernel, by decide, rfl, rfl,
      .inr (by decide +kernel)⟩, by decide +kernel⟩
  obtain ⟨-, row', hrow', -, hcases⟩ := h.stored_or (avatarInv_of_reachable hreach) hrow himage
    (by simp [hfailed])
  rintro ⟨found, hash, hfound, hfoundUrl, -⟩
  obtain rfl : row' = found := Option.some.inj (hrow'.symm.trans hfound)
  rcases hcases with ⟨-, hcan | hstored⟩ | ⟨hsame, -, -⟩
  · exact absurd hattempts hcan.ne
  · cases hurl.symm.trans hstored
  · have hurl' : row'.imageStoredUrl = row.imageStoredUrl := congrArg (·.2.2.1) hsame
    exact absurd (hurl'.symm.trans hfoundUrl) (by simp [hurl])

end DrepTalk
