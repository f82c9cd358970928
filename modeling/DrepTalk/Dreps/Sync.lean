import DrepTalk.Dreps.Row
import DrepTalk.Library.KeysetPage
import Mathlib.Data.List.Induction

/-!
# The sync of the registered DReps

`syncDreps` of `src/lib/dreps/sync.ts`, by its pipeline over the registered DReps: it enumerates
them, asks for their state in chunks, resolves the profile of each from its anchor, and upserts the
rows that change. A document that was fetched once is not fetched again; beyond the budget of a run,
a fetch is put off (`resolveProfile`).

What the chain answers does not change in between, so its pages are one list. The documents are of
any type, with the extraction of a profile and the storing of an inline image as functions. What
else a run does (the predefined options, deactivations, hosted documents) is about other rows.

The chunks and the reads at their start make no difference to a list of different DReps
(`syncDreps_eq_foldl`), and what a run makes of a row depends on that row and on how many fetches
have come before (`drepById_syncDreps`).
-/

namespace DrepTalk

def PROFILE_EXTRACT_VERSION : ℕ := 2

def CHUNK_SIZE : ℕ := 100

/-! ### What comes in -/

/-- A row of `drep_list`. -/
structure DrepListRow where
  drepId : String
  registered : Bool

/-- A row of `drep_info`, by the fields that are read. -/
structure DrepInfo where
  drepId : String
  hex : Option String
  hasScript : Bool
  drepStatus : String
  active : Bool
  deposit : Option String
  amount : Option String
  expiresEpochNo : Option ℤ
  liveDelegatorCount : Option ℕ
  metaUrl : Option String
  metaHash : Option String

/-- `Cip119Profile`, by the fields that are read. -/
structure Cip119Profile extends ProfileText where
  imageUrl : Option String
  imageDataUri : Option String
  imageSha256 : Option String

inductive AnchorDocResult (δ : Type*)
  | ok (doc : δ)
  | missed (miss : AnchorMiss)
  deriving DecidableEq

def enumerateRegistered (drepList : List DrepListRow) : List String :=
  (drepList.filter (·.registered)).map (·.drepId)

/-- A chain answer: every DRep is listed once, and a lookup answers for the ids it is asked for. -/
structure DrepChain where
  drepList : List DrepListRow
  drepInfoBatch : List String → List DrepInfo
  list_unique : (drepList.map (·.drepId)).Nodup
  answers : ∀ ids, ids.Sublist (enumerateRegistered drepList) →
    ((drepInfoBatch ids).map (·.drepId)).Perm ids

/-- What stays the same from run to run: the extraction, the storing of inline images, if there is a
bucket, and the budget. -/
structure DrepSyncSetup (δ : Type*) where
  extractCip119Profile : δ → Cip119Profile
  ingestDataUriAvatar : Option (String → Option String)
  maxAnchorFetches : ℕ

/-- One run: what it fetches, and its clock. -/
structure DrepSyncRun (δ : Type*) where
  fetchAnchorDoc : String → String → AnchorDocResult δ
  now : ℤ

/-! ### One DRep -/

/-- The anchor on chain; an empty text is none. -/
def DrepInfo.anchor (info : DrepInfo) : Option (String × String) :=
  match info.metaUrl, info.metaHash with
  | some metaUrl, some metaHash =>
    if metaUrl = "" ∨ metaHash = "" then none else some (metaUrl, metaHash)
  | _, _ => none

/-- The stored profile is that of the anchor. -/
def StoredDrep.holds (existing : StoredDrep) (metaHash : String) : Bool :=
  existing.anchorHash == some metaHash && existing.anchorStatus == .ok &&
    existing.profileExtractVersion == PROFILE_EXTRACT_VERSION

def ProfileText.blank : ProfileText := ⟨none, none, none, none, none, none, false⟩

def DrepSyncSetup.extracted {δ : Type*} (setup : DrepSyncSetup δ) (existing : Option StoredDrep)
    (metaUrl metaHash : String) (doc : δ) : ResolvedProfile :=
  let cip119 := setup.extractCip119Profile doc
  let ingested := setup.ingestDataUriAvatar.bind fun ingest => cip119.imageDataUri.bind ingest
  { cip119.toProfileText with
    imageUrl := cip119.imageUrl
    imageContentHash := ingested <|> existing.bind (·.imageContentHash)
    imageStoredUrl := if ingested.isSome then none else existing.bind (·.imageStoredUrl)
    anchorUrl := some metaUrl
    anchorHash := some metaHash
    anchorStatus := .ok
    profileExtractVersion := PROFILE_EXTRACT_VERSION }

/-- The profile that is kept where there is no document. -/
def keptProfile (existing : Option StoredDrep) (metaUrl metaHash : String)
    (status : DrepAnchorStatus) : ResolvedProfile :=
  { (existing.map (·.toProfileText)).getD .blank with
    imageUrl := existing.bind (·.imageUrl)
    imageContentHash := existing.bind (·.imageContentHash)
    imageStoredUrl := existing.bind (·.imageStoredUrl)
    anchorUrl := some metaUrl
    anchorHash := some metaHash
    anchorStatus := status
    profileExtractVersion := (existing.map (·.profileExtractVersion)).getD 0 }

/-- The profile of a DRep without an anchor. -/
def unanchoredProfile (existing : Option StoredDrep) : ResolvedProfile :=
  { ProfileText.blank with
    imageUrl := none
    imageContentHash := existing.bind (·.imageContentHash)
    imageStoredUrl := existing.bind (·.imageStoredUrl)
    anchorUrl := none
    anchorHash := none
    anchorStatus := .no_anchor
    profileExtractVersion := PROFILE_EXTRACT_VERSION }

/-- The profile, and whether a fetch was made for it. -/
def resolveProfile {δ : Type*} (setup : DrepSyncSetup δ) (run : DrepSyncRun δ) (info : DrepInfo)
    (existing : Option StoredDrep) (canFetch : Bool) : ResolvedProfile × Bool :=
  match info.anchor with
  | none => (unanchoredProfile existing, false)
  | some (metaUrl, metaHash) =>
    match existing.filter (·.holds metaHash) with
    | some row =>
      ({ row.toResolvedProfile with
          anchorUrl := some metaUrl
          anchorHash := some metaHash
          anchorStatus := .ok
          profileExtractVersion := PROFILE_EXTRACT_VERSION }, false)
    | none =>
      -- beyond the budget there is no result
      match if canFetch then some (run.fetchAnchorDoc metaUrl metaHash) else none with
      | some (.ok doc) => (setup.extracted existing metaUrl metaHash doc, true)
      | some (.missed miss) => (keptProfile existing metaUrl metaHash (.missed miss), canFetch)
      | none => (keptProfile existing metaUrl metaHash .deferred, canFetch)

def buildDrepRow (info : DrepInfo) (profile : ResolvedProfile) (existing : Option StoredDrep)
    (now : ℤ) : Drep :=
  { profile with
    drepId := info.drepId
    hex := info.hex
    hasScript := info.hasScript
    status := info.drepStatus
    active := info.active
    deposit := info.deposit
    votingPower := info.amount
    expiresEpochNo := info.expiresEpochNo
    delegatorCount := info.liveDelegatorCount <|> existing.bind (·.delegatorCount)
    delegatorCountSyncedAt :=
      if info.liveDelegatorCount.isSome then some now
      else existing.bind (·.delegatorCountSyncedAt)
    imageFetchFailedAt := existing.bind (·.imageFetchFailedAt)
    metadataLastUpdatedAt :=
      if existing.any fun row => decide (profile.anchorHash ≠ row.anchorHash) then
        some (now / 1000)
      else existing.bind (·.metadataLastUpdatedAt)
    lastSyncedAt := now
    createdAt := (existing.map (·.createdAt)).getD now }

/-- The columns that a change is seen in. -/
structure Drep.SameAs (next row : Drep) : Prop where
  status : next.status = row.status
  active : next.active = row.active
  deposit : next.deposit = row.deposit
  votingPower : next.votingPower = row.votingPower
  delegatorCount : next.delegatorCount = row.delegatorCount
  expiresEpochNo : next.expiresEpochNo = row.expiresEpochNo
  text : next.toProfileText = row.toProfileText
  imageUrl : next.imageUrl = row.imageUrl
  imageContentHash : next.imageContentHash = row.imageContentHash
  anchorUrl : next.anchorUrl = row.anchorUrl
  anchorHash : next.anchorHash = row.anchorHash
  anchorStatus : next.anchorStatus = row.anchorStatus
  profileExtractVersion : next.profileExtractVersion = row.profileExtractVersion

/-- `hasChanged` of a row that exists. -/
def Drep.differs (next row : Drep) : Bool :=
  next.status != row.status || next.active != row.active || next.deposit != row.deposit ||
    next.votingPower != row.votingPower || next.delegatorCount != row.delegatorCount ||
    next.expiresEpochNo != row.expiresEpochNo || next.toProfileText != row.toProfileText ||
    next.imageUrl != row.imageUrl || next.imageContentHash != row.imageContentHash ||
    next.anchorUrl != row.anchorUrl || next.anchorHash != row.anchorHash ||
    next.anchorStatus != row.anchorStatus ||
    next.profileExtractVersion != row.profileExtractVersion

def hasChanged (next : Drep) (existing : Option StoredDrep) : Bool :=
  existing.all fun row => next.differs row.toDrep

/-! ### A run -/

/-- The table and the counts of a run. -/
structure DrepSyncState where
  dreps : DrepTable
  updated : ℕ
  skipped : ℕ
  anchorsFetched : ℕ
  anchorsDeferred : ℕ

/-- One DRep, with its row as it was read. -/
def syncDrep {δ : Type*} (setup : DrepSyncSetup δ) (run : DrepSyncRun δ)
    (existing : Option StoredDrep) (s : DrepSyncState) (info : DrepInfo) : DrepSyncState :=
  let canFetch := decide (s.anchorsFetched < setup.maxAnchorFetches)
  let (profile, fetched) := resolveProfile setup run info existing canFetch
  let row := buildDrepRow info profile existing run.now
  let changed := hasChanged row existing
  { dreps := if changed then buildDrepUpsertStatement s.dreps row else s.dreps
    updated := if changed then s.updated + 1 else s.updated
    skipped := if changed then s.skipped else s.skipped + 1
    anchorsFetched := if fetched then s.anchorsFetched + 1 else s.anchorsFetched
    anchorsDeferred :=
      if profile.anchorStatus = DrepAnchorStatus.deferred then s.anchorsDeferred + 1
      else s.anchorsDeferred }

/-- One chunk: the rows are read at its start. -/
def syncDrepChunk {δ : Type*} (setup : DrepSyncSetup δ) (run : DrepSyncRun δ) (s : DrepSyncState)
    (infos : List DrepInfo) : DrepSyncState :=
  infos.foldl (fun s' info => syncDrep setup run (drepById s.dreps info.drepId) s' info) s

def chunk {α : Type*} (items : List α) (size : ℕ) : List (List α) :=
  (List.range ((items.length + size - 1) / size)).map fun i => (items.drop (i * size)).take size

/-- The answers for the chunks of the enumeration. -/
def DrepChain.infoChunks (chain : DrepChain) : List (List DrepInfo) :=
  (chunk (enumerateRegistered chain.drepList) CHUNK_SIZE).map chain.drepInfoBatch

def syncDreps {δ : Type*} (setup : DrepSyncSetup δ) (run : DrepSyncRun δ) (chain : DrepChain)
    (dreps : DrepTable) : DrepSyncState :=
  chain.infoChunks.foldl (syncDrepChunk setup run) ⟨dreps, 0, 0, 0, 0⟩

/-! ### What a run makes of a row -/

section

variable {δ : Type*} {setup : DrepSyncSetup δ} {run : DrepSyncRun δ} {chain : DrepChain}

/-- The profile of the DRep has to be fetched. -/
def DrepInfo.needsFetch (info : DrepInfo) (existing : Option StoredDrep) : Bool :=
  info.anchor.any fun anchor => !existing.any (·.holds anchor.2)

/-- The row that the sync would write. -/
def DrepSyncSetup.row (setup : DrepSyncSetup δ) (run : DrepSyncRun δ) (info : DrepInfo)
    (existing : Option StoredDrep) (canFetch : Bool) : Drep :=
  buildDrepRow info (resolveProfile setup run info existing canFetch).1 existing run.now

def DrepSyncSetup.next (setup : DrepSyncSetup δ) (run : DrepSyncRun δ) (info : DrepInfo)
    (existing : Option StoredDrep) (canFetch : Bool) : StoredDrep :=
  if hasChanged (setup.row run info existing canFetch) existing then
    (existing.map (setup.row run info existing canFetch).merge).getD
      ⟨setup.row run info existing canFetch, 0⟩
  else existing.getD ⟨setup.row run info existing canFetch, 0⟩

theorem filter_holds (existing : Option StoredDrep) (metaHash : String) :
    existing.filter (·.holds metaHash) =
      if existing.any (·.holds metaHash) then existing else none := by
  rcases existing with _ | row
  · rfl
  · by_cases h : row.holds metaHash = true <;> simp [Option.filter, h]

theorem resolveProfile_fetched (info : DrepInfo) (existing : Option StoredDrep)
    (canFetch : Bool) : (resolveProfile setup run info existing canFetch).2 =
      (info.needsFetch existing && canFetch) := by
  rw [resolveProfile, DrepInfo.needsFetch]
  rcases info.anchor with _ | ⟨metaUrl, metaHash⟩
  · rfl
  · simp only [filter_holds, Option.any_some]
    by_cases hholds : existing.any (·.holds metaHash) = true
    · obtain ⟨row, rfl⟩ : ∃ row, existing = some row := by
        rcases existing with _ | row
        · cases hholds
        · exact ⟨row, rfl⟩
      simp [hholds]
    · cases canFetch
      · simp [hholds]
      · rcases hfetch : run.fetchAnchorDoc metaUrl metaHash with doc | miss <;>
          simp [hholds]

theorem differs_eq_false {next row : Drep} : next.differs row = false ↔ next.SameAs row := by
  constructor
  · intro h
    simp only [Drep.differs, Bool.or_eq_false_iff, bne_eq_false_iff_eq] at h
    obtain ⟨⟨⟨⟨⟨⟨⟨⟨⟨⟨⟨⟨h₁, h₂⟩, h₃⟩, h₄⟩, h₅⟩, h₆⟩, h₇⟩, h₈⟩, h₉⟩, h₁₀⟩, h₁₁⟩, h₁₂⟩, h₁₃⟩ := h
    exact ⟨h₁, h₂, h₃, h₄, h₅, h₆, h₇, h₈, h₉, h₁₀, h₁₁, h₁₂, h₁₃⟩
  · rintro ⟨h₁, h₂, h₃, h₄, h₅, h₆, h₇, h₈, h₉, h₁₀, h₁₁, h₁₂, h₁₃⟩
    simp only [Drep.differs, h₁, h₂, h₃, h₄, h₅, h₆, h₇, h₈, h₉, h₁₀, h₁₁, h₁₂, h₁₃,
      bne_self_eq_false, Bool.or_self]

theorem sameAs_next (info : DrepInfo) (existing : Option StoredDrep) (canFetch : Bool) :
    (setup.row run info existing canFetch).SameAs
      (setup.next run info existing canFetch).toDrep := by
  rw [DrepSyncSetup.next]
  rcases existing with _ | stored
  · exact ⟨rfl, rfl, rfl, rfl, rfl, rfl, rfl, rfl, rfl, rfl, rfl, rfl, rfl⟩
  · by_cases hchanged : hasChanged (setup.row run info (some stored) canFetch) (some stored) = true
    · rw [if_pos hchanged]
      exact ⟨rfl, rfl, rfl, rfl, rfl, rfl, rfl, rfl, rfl, rfl, rfl, rfl, rfl⟩
    · rw [if_neg hchanged]
      exact differs_eq_false.mp (Bool.eq_false_iff.mpr hchanged)

theorem drepById_syncDrep (s : DrepSyncState) (info : DrepInfo) (drepId : String) :
    drepById (syncDrep setup run (drepById s.dreps info.drepId) s info).dreps drepId =
      if info.drepId = drepId then
        some (setup.next run info (drepById s.dreps info.drepId)
          (decide (s.anchorsFetched < setup.maxAnchorFetches)))
      else drepById s.dreps drepId := by
  change drepById (if hasChanged (setup.row run info _ _) _ then
    buildDrepUpsertStatement s.dreps (setup.row run info _ _) else s.dreps) drepId = _
  rw [DrepSyncSetup.next]
  by_cases hchanged : hasChanged (setup.row run info (drepById s.dreps info.drepId)
      (decide (s.anchorsFetched < setup.maxAnchorFetches))) (drepById s.dreps info.drepId) = true
  · rw [if_pos hchanged, if_pos hchanged, drepById_upsert]
    by_cases hid : info.drepId = drepId
    · subst hid
      rw [if_pos rfl]
      exact if_pos rfl
    · rw [if_neg hid]
      exact if_neg hid
  · rw [if_neg hchanged, if_neg hchanged]
    split_ifs with hid
    · subst hid
      rcases hrow : drepById s.dreps info.drepId with _ | stored
      · rw [hrow] at hchanged
        exact absurd rfl hchanged
      · rfl
    · rfl

theorem counts_syncDrep (existing : Option StoredDrep) (s : DrepSyncState) (info : DrepInfo) :
    let canFetch := decide (s.anchorsFetched < setup.maxAnchorFetches)
    let s' := syncDrep setup run existing s info
    s'.anchorsFetched =
        s.anchorsFetched + (if info.needsFetch existing && canFetch then 1 else 0) ∧
      s'.updated = s.updated +
        if hasChanged (setup.row run info existing canFetch) existing then 1 else 0 := by
  intro canFetch s'
  constructor
  · have hfetched : (resolveProfile setup run info existing canFetch).2 =
        (info.needsFetch existing && canFetch) := resolveProfile_fetched info existing canFetch
    change (if (resolveProfile setup run info existing canFetch).2 then s.anchorsFetched + 1
      else s.anchorsFetched) = _
    rw [hfetched]
    split_ifs <;> rfl
  · change (if hasChanged (setup.row run info existing canFetch) existing then s.updated + 1
      else s.updated) = _
    split_ifs <;> rfl

def syncDrepNow (setup : DrepSyncSetup δ) (run : DrepSyncRun δ) (s : DrepSyncState)
    (info : DrepInfo) : DrepSyncState :=
  syncDrep setup run (drepById s.dreps info.drepId) s info

/-- The profile of the DRep has to be fetched, by the table. -/
def DrepInfo.needsFetchIn (dreps : DrepTable) (info : DrepInfo) : Bool :=
  info.needsFetch (drepById dreps info.drepId)

theorem drepById_foldl_other {infos : List DrepInfo} {drepId : String}
    (hother : ∀ info ∈ infos, info.drepId ≠ drepId) (s : DrepSyncState) :
    drepById (infos.foldl (syncDrepNow setup run) s).dreps drepId = drepById s.dreps drepId := by
  induction infos generalizing s with
  | nil => rfl
  | cons info infos ih =>
    rw [List.foldl_cons, ih fun i h => hother i (List.mem_cons_of_mem info h), syncDrepNow,
      drepById_syncDrep, if_neg (hother info List.mem_cons_self)]

theorem anchorsFetched_foldl {infos : List DrepInfo} (hunique : (infos.map (·.drepId)).Nodup)
    (s : DrepSyncState) (hle : s.anchorsFetched ≤ setup.maxAnchorFetches) :
    (infos.foldl (syncDrepNow setup run) s).anchorsFetched =
      min setup.maxAnchorFetches
        (s.anchorsFetched + infos.countP (DrepInfo.needsFetchIn s.dreps)) := by
  induction infos generalizing s with
  | nil => exact (Nat.min_eq_right hle).symm
  | cons info infos ih =>
    obtain ⟨hnew, hunique⟩ := List.nodup_cons.mp hunique
    -- the rows of the others are as before
    have hneeds : infos.countP (DrepInfo.needsFetchIn (syncDrepNow setup run s info).dreps) =
        infos.countP (DrepInfo.needsFetchIn s.dreps) := by
      refine List.countP_congr fun i hi => ?_
      have hother : info.drepId ≠ i.drepId := fun h =>
        hnew (List.mem_map.mpr ⟨i, hi, h.symm⟩)
      rw [DrepInfo.needsFetchIn, DrepInfo.needsFetchIn, syncDrepNow, drepById_syncDrep,
        if_neg hother]
    have hstep : (syncDrepNow setup run s info).anchorsFetched = s.anchorsFetched +
        if info.needsFetchIn s.dreps && decide (s.anchorsFetched < setup.maxAnchorFetches) then 1
        else 0 := (counts_syncDrep _ s info).1
    rw [List.foldl_cons, ih hunique, hneeds, hstep, List.countP_cons]
    · by_cases hbudget : s.anchorsFetched < setup.maxAnchorFetches <;>
        by_cases hneed : info.needsFetchIn s.dreps = true <;> simp [hbudget, hneed] <;> omega
    · rw [hstep]
      split_ifs with h
      · exact of_decide_eq_true (Bool.and_eq_true_iff.mp h).2
      · exact hle

theorem drepById_foldl {before behind : List DrepInfo} {info : DrepInfo}
    (hunique : ((before ++ info :: behind).map (·.drepId)).Nodup) (s : DrepSyncState)
    (hle : s.anchorsFetched ≤ setup.maxAnchorFetches) :
    drepById ((before ++ info :: behind).foldl (syncDrepNow setup run) s).dreps info.drepId =
      some (setup.next run info (drepById s.dreps info.drepId)
        (decide (s.anchorsFetched + before.countP (DrepInfo.needsFetchIn s.dreps) <
          setup.maxAnchorFetches))) := by
  rw [List.map_append, List.map_cons, List.nodup_append, List.nodup_cons] at hunique
  obtain ⟨hbefore, ⟨hbehind, -⟩, hapart⟩ := hunique
  have hrow : drepById (before.foldl (syncDrepNow setup run) s).dreps info.drepId =
      drepById s.dreps info.drepId :=
    drepById_foldl_other (fun i hi => hapart _ (List.mem_map_of_mem hi) _ List.mem_cons_self) s
  have hother : ∀ i ∈ behind, i.drepId ≠ info.drepId := fun i hi h =>
    hbehind (List.mem_map.mpr ⟨i, hi, h⟩)
  rw [List.foldl_append, List.foldl_cons, drepById_foldl_other hother, syncDrepNow,
    drepById_syncDrep, if_pos rfl, hrow, anchorsFetched_foldl hbefore s hle]
  congr 3
  exact propext (by omega)

theorem updated_foldl {infos : List DrepInfo} (hunique : (infos.map (·.drepId)).Nodup)
    (s : DrepSyncState) (hle : s.anchorsFetched ≤ setup.maxAnchorFetches)
    (hquiet : ∀ before info behind, infos = before ++ info :: behind →
      hasChanged (setup.row run info (drepById s.dreps info.drepId)
        (decide (s.anchorsFetched + before.countP (DrepInfo.needsFetchIn s.dreps) <
          setup.maxAnchorFetches))) (drepById s.dreps info.drepId) = false) :
    (infos.foldl (syncDrepNow setup run) s).updated = s.updated := by
  suffices hbefore : ∀ behind before, infos = before ++ behind →
      (before.foldl (syncDrepNow setup run) s).updated = s.updated from
    hbefore [] infos (List.append_nil infos).symm
  intro behind before
  induction before using List.reverseRecOn generalizing behind with
  | nil => exact fun _ => rfl
  | append_singleton before info ih =>
    intro hinfos
    rw [List.append_assoc, List.singleton_append] at hinfos
    rw [hinfos, List.map_append, List.map_cons, List.nodup_append] at hunique
    obtain ⟨hnodup, -, hapart⟩ := hunique
    have hrow : drepById (before.foldl (syncDrepNow setup run) s).dreps info.drepId =
        drepById s.dreps info.drepId :=
      drepById_foldl_other (fun i hi => hapart _ (List.mem_map_of_mem hi) _ List.mem_cons_self) s
    have hbudget : decide ((before.foldl (syncDrepNow setup run) s).anchorsFetched <
        setup.maxAnchorFetches) =
        decide (s.anchorsFetched + before.countP (DrepInfo.needsFetchIn s.dreps) <
          setup.maxAnchorFetches) := by
      rw [anchorsFetched_foldl hnodup s hle]
      exact decide_eq_decide.mpr (by omega)
    rw [List.foldl_append, List.foldl_cons, List.foldl_nil, syncDrepNow,
      (counts_syncDrep _ _ info).2, hrow, hbudget, hquiet before info behind hinfos,
      ih (info :: behind) hinfos]
    rfl

/-! ### The chunks -/

/-- The answers of the chain, in the order of the run. -/
def DrepChain.infos (chain : DrepChain) : List DrepInfo := chain.infoChunks.flatten

theorem flatten_chunk {α : Type*} (items : List α) {size : ℕ} (hsize : 0 < size) :
    (chunk items size).flatten = items := by
  rw [chunk, flatten_slices, List.take_of_length_le]
  have hdiv := Nat.div_add_mod (items.length + size - 1) size
  have hmod := Nat.mod_lt (items.length + size - 1) hsize
  rw [Nat.mul_comm]
  omega

theorem sublist_of_mem_chunk {α : Type*} {items part : List α} {size : ℕ}
    (h : part ∈ chunk items size) : part.Sublist items := by
  obtain ⟨i, -, rfl⟩ := List.mem_map.mp h
  exact (List.take_sublist _ _).trans (List.drop_sublist _ _)

theorem drepIds_infos (chain : DrepChain) :
    (chain.infos.map (·.drepId)).Perm (enumerateRegistered chain.drepList) := by
  suffices hparts : ∀ parts : List (List String),
      (∀ part ∈ parts, part.Sublist (enumerateRegistered chain.drepList)) →
        (((parts.map chain.drepInfoBatch).flatten).map (·.drepId)).Perm parts.flatten by
    have hperm := hparts (chunk (enumerateRegistered chain.drepList) CHUNK_SIZE)
      fun part h => sublist_of_mem_chunk h
    rwa [flatten_chunk _ (by decide)] at hperm
  intro parts hsub
  induction parts with
  | nil => exact .nil
  | cons part parts ih =>
    rw [List.map_cons, List.flatten_cons, List.flatten_cons, List.map_append]
    exact (chain.answers part (hsub part List.mem_cons_self)).append
      (ih fun p h => hsub p (List.mem_cons_of_mem part h))

theorem nodup_infos (chain : DrepChain) : (chain.infos.map (·.drepId)).Nodup :=
  (drepIds_infos chain).nodup_iff.mpr ((chain.list_unique.sublist (List.filter_sublist.map _)))

theorem syncDrepChunk_eq {infos : List DrepInfo} (hunique : (infos.map (·.drepId)).Nodup)
    (s : DrepSyncState) :
    syncDrepChunk setup run s infos = infos.foldl (syncDrepNow setup run) s := by
  suffices hrest : ∀ s', (∀ info ∈ infos,
      drepById s'.dreps info.drepId = drepById s.dreps info.drepId) →
      infos.foldl (fun s' info => syncDrep setup run (drepById s.dreps info.drepId) s' info) s' =
        infos.foldl (syncDrepNow setup run) s' from hrest s fun _ _ => rfl
  induction infos with
  | nil => exact fun _ _ => rfl
  | cons info infos ih =>
    intro s' hsame
    obtain ⟨hnew, hunique⟩ := List.nodup_cons.mp hunique
    have hstep : syncDrep setup run (drepById s.dreps info.drepId) s' info =
        syncDrepNow setup run s' info := by
      rw [syncDrepNow, hsame info List.mem_cons_self]
    rw [List.foldl_cons, List.foldl_cons, hstep]
    refine ih hunique _ fun i hi => ?_
    have hother : info.drepId ≠ i.drepId := fun h => hnew (List.mem_map.mpr ⟨i, hi, h.symm⟩)
    rw [syncDrepNow, drepById_syncDrep, if_neg hother, hsame i (List.mem_cons_of_mem info hi)]

/-- **A run** goes through the answers one by one. -/
theorem syncDreps_eq_foldl (dreps : DrepTable) : syncDreps setup run chain dreps =
    chain.infos.foldl (syncDrepNow setup run) ⟨dreps, 0, 0, 0, 0⟩ := by
  have hunique := nodup_infos chain
  rw [DrepChain.infos] at hunique ⊢
  rw [syncDreps]
  generalize (⟨dreps, 0, 0, 0, 0⟩ : DrepSyncState) = s
  generalize chain.infoChunks = chunks at hunique ⊢
  induction chunks generalizing s with
  | nil => rfl
  | cons infos chunks ih =>
    rw [List.flatten_cons, List.map_append, List.nodup_append] at hunique
    rw [List.foldl_cons, List.flatten_cons, List.foldl_append, syncDrepChunk_eq hunique.1]
    exact ih _ hunique.2.1

theorem drepById_syncDreps (dreps : DrepTable) {before behind : List DrepInfo} {info : DrepInfo}
    (hinfos : chain.infos = before ++ info :: behind) :
    drepById (syncDreps setup run chain dreps).dreps info.drepId =
      some (setup.next run info (drepById dreps info.drepId)
        (decide (before.countP (DrepInfo.needsFetchIn dreps) < setup.maxAnchorFetches))) := by
  have hunique := nodup_infos chain
  rw [hinfos] at hunique
  rw [syncDreps_eq_foldl, hinfos, drepById_foldl hunique _ (Nat.zero_le _)]
  simp only [Nat.zero_add]

theorem updated_syncDreps {dreps : DrepTable}
    (hquiet : ∀ before info behind, chain.infos = before ++ info :: behind →
      hasChanged (setup.row run info (drepById dreps info.drepId)
        (decide (before.countP (DrepInfo.needsFetchIn dreps) < setup.maxAnchorFetches)))
        (drepById dreps info.drepId) = false) :
    (syncDreps setup run chain dreps).updated = 0 := by
  rw [syncDreps_eq_foldl]
  refine updated_foldl (nodup_infos chain) _ (Nat.zero_le _) fun before info behind h => ?_
  simpa only [Nat.zero_add] using hquiet before info behind h

end

end DrepTalk
