import DrepTalk.Dreps.SyncFixpoint
import DrepTalk.Library.TransitionSystem
import Mathlib.Data.String.Basic

/-!
# Stored avatars

`storeDrepAvatars` of `src/lib/dreps/avatarStore.ts` with its statements in `src/lib/db/dreps.ts`,
and the profile write of `src/lib/governance/drepProfileApply.ts`. Three writers share the avatar
columns of a row: the sync, which stores an inline image itself and carries the rest over; a DRep
who applies a hosted document; and the avatar pass, which downloads linked images from a queue.

A pass is given by what a download leads to: the hash of the bytes that are stored for a URL, if
they are. It runs with its default limits.
-/

namespace DrepTalk

def AVATAR_PASS_LIMIT : ℕ := 25

def AVATAR_FETCH_MAX_ATTEMPTS : ℕ := 10

/-! ### The avatar pass -/

/-- A pass: what is stored for a URL, and its clock. -/
structure AvatarPass where
  storeImage : String → Option String
  nowMs : ℤ

def StoredDrep.needsAvatar (r : StoredDrep) : Bool :=
  r.imageUrl.isSome && r.imageStoredUrl != r.imageUrl &&
    decide (r.imageFetchAttempts < AVATAR_FETCH_MAX_ATTEMPTS)

/-- The order of the queue: never failed first, then by the last failure, then by id. -/
def avatarBefore (a b : StoredDrep) : Prop :=
  match a.imageFetchFailedAt, b.imageFetchFailedAt with
  | none, some _ => True
  | some _, none => False
  | none, none => a.drepId ≤ b.drepId
  | some s, some t => s < t ∨ s = t ∧ a.drepId ≤ b.drepId

instance : DecidableRel avatarBefore := fun a b => by
  unfold avatarBefore
  exact match a.imageFetchFailedAt, b.imageFetchFailedAt with
  | none, some _ => isTrue trivial
  | some _, none => isFalse id
  | none, none => inferInstanceAs (Decidable (_ ≤ _))
  | some _, some _ => inferInstanceAs (Decidable (_ ∨ _))

/-- The rows at the head of the queue. -/
def listDrepsNeedingAvatar (dreps : DrepTable) : List StoredDrep :=
  ((dreps.rows.filter (·.needsAvatar)).insertionSort avatarBefore).take AVATAR_PASS_LIMIT

def setDrepImageStored (dreps : DrepTable) (drepId contentHash storedUrl : String) : DrepTable :=
  dreps.updateWhere (·.drepId == drepId)
    (fun r =>
      { r with
        imageContentHash := some contentHash
        imageStoredUrl := some storedUrl
        imageFetchFailedAt := none
        imageFetchAttempts := 0 })
    fun _ _ => rfl

def markDrepImageFetchFailed (dreps : DrepTable) (drepIds : List String) (failedAtMs : ℤ) :
    DrepTable :=
  dreps.updateWhere (fun r => drepIds.contains r.drepId)
    (fun r =>
      { r with
        imageFetchFailedAt := some failedAtMs
        imageFetchAttempts := r.imageFetchAttempts + 1 })
    fun _ _ => rfl

def clearOrphanedImageStore (dreps : DrepTable) : DrepTable :=
  dreps.updateWhere
    (fun r => r.imageUrl.isNone && r.imageContentHash.isSome && r.imageStoredUrl.isSome)
    (fun r => { r with imageContentHash := none, imageStoredUrl := none }) fun _ _ => rfl

/-- What is stored for the linked image of a row of the queue. -/
def AvatarPass.stores (pass : AvatarPass) (r : StoredDrep) : Option String :=
  r.imageUrl.bind pass.storeImage

/-- The writes of a pass for the rows of the queue that are downloaded. -/
def AvatarPass.storeAll (pass : AvatarPass) (rows : List StoredDrep) (dreps : DrepTable) :
    DrepTable :=
  rows.foldl
    (fun t r =>
      match r.imageUrl, pass.stores r with
      | some imageUrl, some hash => setDrepImageStored t r.drepId hash imageUrl
      | _, _ => t)
    dreps

def storeDrepAvatars (dreps : DrepTable) (pass : AvatarPass) : DrepTable :=
  let cleared := clearOrphanedImageStore dreps
  let rows := listDrepsNeedingAvatar cleared
  let failedIds := (rows.filter fun r => (pass.stores r).isNone).map (·.drepId)
  markDrepImageFetchFailed (pass.storeAll rows cleared) failedIds pass.nowMs

/-! ### The other writers -/

/-- A hosted document that a DRep applies: its hash, its URL, and the time. -/
structure ProfileApply (δ : Type*) where
  drepId : String
  doc : δ
  hash : String
  anchorUrl : String
  now : ℤ

/-- The document names an image together with the hash of its bytes. -/
def Cip119Profile.ownImage (profile : Cip119Profile) : Option (String × String) :=
  profile.imageUrl.bind fun imageUrl => profile.imageSha256.map fun sha => (imageUrl, sha)

/-- What applying a document makes of the row. -/
def DrepSyncSetup.applied {δ : Type*} (setup : DrepSyncSetup δ) (input : ProfileApply δ)
    (r : StoredDrep) : StoredDrep :=
  let profile := setup.extractCip119Profile input.doc
  { r with
    toProfileText := profile.toProfileText
    imageUrl := profile.imageUrl
    imageContentHash := profile.ownImage.map (·.2)
    imageStoredUrl := profile.ownImage.map (·.1)
    imageFetchFailedAt := none
    anchorUrl := some input.anchorUrl
    anchorHash := some input.hash
    anchorStatus := .ok
    profileExtractVersion := PROFILE_EXTRACT_VERSION
    lastSyncedAt := input.now }

/-- `applyDrepProfile`, with `updateDrepProfileFromAnchor`. -/
def applyDrepProfile {δ : Type*} (setup : DrepSyncSetup δ) (dreps : DrepTable)
    (input : ProfileApply δ) : DrepTable :=
  dreps.updateWhere (·.drepId == input.drepId) (setup.applied input) fun _ _ => rfl

/-- The upsert of the sync for one DRep. -/
structure DrepUpsert (δ : Type*) where
  info : DrepInfo
  run : DrepSyncRun δ
  canFetch : Bool

/-- The upsert, with the row of the DRep as it was read. -/
def syncDrepRow {δ : Type*} (setup : DrepSyncSetup δ) (dreps : DrepTable)
    (existing : Option StoredDrep) (input : DrepUpsert δ) : DrepTable :=
  let row := setup.row input.run input.info existing input.canFetch
  if hasChanged row existing then buildDrepUpsertStatement dreps row else dreps

/-! ### What a pass makes of a row -/

section

variable {dreps : DrepTable} {pass : AvatarPass} {queue : List StoredDrep} {drepId : String}

/-- The row without a stored image whose link is gone. -/
def StoredDrep.cleared (r : StoredDrep) : StoredDrep :=
  if r.imageUrl.isNone && r.imageContentHash.isSome && r.imageStoredUrl.isSome then
    { r with imageContentHash := none, imageStoredUrl := none }
  else r

def AvatarPass.attempted (pass : AvatarPass) (r : StoredDrep) : StoredDrep :=
  match pass.stores r with
  | some hash =>
    { r with
      imageContentHash := some hash
      imageStoredUrl := r.imageUrl
      imageFetchFailedAt := none
      imageFetchAttempts := 0 }
  | none =>
    { r with
      imageFetchFailedAt := some pass.nowMs
      imageFetchAttempts := r.imageFetchAttempts + 1 }

/-- The row after the pass, by the queue. -/
def AvatarPass.leaves (pass : AvatarPass) (queue : List StoredDrep) (r : StoredDrep) :
    StoredDrep :=
  if r.cleared ∈ queue then pass.attempted r.cleared else r.cleared

def avatarQueue (dreps : DrepTable) : List StoredDrep :=
  listDrepsNeedingAvatar (clearOrphanedImageStore dreps)

theorem rows_clearOrphanedImageStore :
    (clearOrphanedImageStore dreps).rows = dreps.rows.map (·.cleared) := rfl

/-- The write for a row of the queue, seen from a row. -/
def AvatarPass.storeFor (pass : AvatarPass) (r q : StoredDrep) : StoredDrep :=
  if r.drepId = q.drepId ∧ (pass.stores q).isSome then
    { r with
      imageContentHash := pass.stores q
      imageStoredUrl := q.imageUrl
      imageFetchFailedAt := none
      imageFetchAttempts := 0 }
  else r

theorem rows_storeAll :
    (pass.storeAll queue dreps).rows = dreps.rows.map fun r => queue.foldl pass.storeFor r := by
  induction queue generalizing dreps with
  | nil => exact (List.map_id' _).symm
  | cons q queue ih =>
    rw [AvatarPass.storeAll, List.foldl_cons]
    refine ih.trans ?_
    simp only [List.foldl_cons]
    rcases himage : q.imageUrl with _ | imageUrl
    · have hstores : pass.stores q = none := by rw [AvatarPass.stores, himage]; rfl
      simp [AvatarPass.storeFor, hstores]
    · rcases hstores : pass.stores q with _ | hash
      · simp [AvatarPass.storeFor, hstores]
      · change ((dreps.rows.map fun r => if r.drepId == q.drepId then _ else r).map _) = _
        rw [List.map_map]
        refine List.map_congr_left fun r _ => ?_
        simp [AvatarPass.storeFor, hstores, himage]

variable {r : StoredDrep}

theorem foldl_storeFor_other (h : ∀ q ∈ queue, q.drepId ≠ r.drepId) :
    queue.foldl pass.storeFor r = r := by
  induction queue with
  | nil => rfl
  | cons q queue ih =>
    have hq : pass.storeFor r q = r := if_neg fun hboth => h q List.mem_cons_self hboth.1.symm
    rw [List.foldl_cons, hq]
    exact ih fun q' hq' => h q' (List.mem_cons_of_mem q hq')

theorem drepId_storeFor (r q : StoredDrep) : (pass.storeFor r q).drepId = r.drepId := by
  rw [AvatarPass.storeFor]
  split_ifs <;> rfl

theorem foldl_storeFor (hunique : (queue.map (·.drepId)).Nodup) (hmem : r ∈ queue) :
    queue.foldl pass.storeFor r = pass.storeFor r r := by
  induction queue with
  | nil => cases hmem
  | cons q queue ih =>
    obtain ⟨hnew, hunique⟩ := List.nodup_cons.mp hunique
    have hother : ∀ q' ∈ queue, q'.drepId ≠ q.drepId := fun q' hq' h =>
      hnew (List.mem_map.mpr ⟨q', hq', h⟩)
    rw [List.foldl_cons]
    rcases List.mem_cons.mp hmem with rfl | hmem
    · refine foldl_storeFor_other fun q' hq' => ?_
      rw [drepId_storeFor]
      exact hother q' hq'
    · have hq : pass.storeFor r q = r := if_neg fun hboth => hother r hmem hboth.1
      rw [hq]
      exact ih hunique hmem

theorem subperm_listDrepsNeedingAvatar (dreps : DrepTable) :
    ∃ rest, (listDrepsNeedingAvatar dreps ++ rest).Perm
      (dreps.rows.filter (·.needsAvatar)) := by
  refine ⟨((dreps.rows.filter (·.needsAvatar)).insertionSort avatarBefore).drop
    AVATAR_PASS_LIMIT, ?_⟩
  rw [listDrepsNeedingAvatar, List.take_append_drop]
  exact List.perm_insertionSort _ _

theorem of_mem_listDrepsNeedingAvatar (h : r ∈ listDrepsNeedingAvatar dreps) :
    r ∈ dreps.rows ∧ r.needsAvatar = true := by
  obtain ⟨rest, hperm⟩ := subperm_listDrepsNeedingAvatar dreps
  exact List.mem_filter.mp (hperm.mem_iff.mp (List.mem_append_left rest h))

theorem nodup_listDrepsNeedingAvatar :
    ((listDrepsNeedingAvatar dreps).map (·.drepId)).Nodup := by
  obtain ⟨rest, hperm⟩ := subperm_listDrepsNeedingAvatar dreps
  have hnodup : ((listDrepsNeedingAvatar dreps ++ rest).map (·.drepId)).Nodup :=
    (hperm.map _).nodup_iff.mpr (dreps.unique.sublist (List.filter_sublist.map _))
  rw [List.map_append] at hnodup
  exact hnodup.of_append_left

/-- **A pass**, row by row. -/
theorem rows_storeDrepAvatars : (storeDrepAvatars dreps pass).rows =
    dreps.rows.map (pass.leaves (avatarQueue dreps)) := by
  have hqueue : listDrepsNeedingAvatar (clearOrphanedImageStore dreps) = avatarQueue dreps := rfl
  change Table.updateWhere _ _ (pass.storeAll _ (clearOrphanedImageStore dreps)).rows = _
  rw [rows_storeAll, Table.updateWhere, rows_clearOrphanedImageStore, List.map_map, List.map_map]
  refine List.map_congr_left fun r hr => ?_
  have hrow : r.cleared ∈ (clearOrphanedImageStore dreps).rows := List.mem_map_of_mem hr
  simp only [Function.comp_apply, hqueue]
  have hunique : ((avatarQueue dreps).map (·.drepId)).Nodup := nodup_listDrepsNeedingAvatar
  -- a row of the queue with the id is the row
  have hself : ∀ q ∈ avatarQueue dreps, q.drepId = r.cleared.drepId → q = r.cleared :=
    fun q hq => (clearOrphanedImageStore dreps).eq_of_key (of_mem_listDrepsNeedingAvatar hq).1 hrow
  by_cases hmem : r.cleared ∈ avatarQueue dreps
  · rw [foldl_storeFor hunique hmem, AvatarPass.leaves, if_pos hmem, AvatarPass.attempted]
    rcases hstores : pass.stores r.cleared with _ | hash
    · have hstay : pass.storeFor r.cleared r.cleared = r.cleared :=
        if_neg fun hboth => by simp [hstores] at hboth
      rw [hstay, if_pos]
      simp only [List.contains_eq_mem, decide_eq_true_eq]
      exact List.mem_map.mpr ⟨r.cleared, List.mem_filter.mpr ⟨hmem, by simp [hstores]⟩, rfl⟩
    · have hset : pass.storeFor r.cleared r.cleared =
          { r.cleared with
            imageContentHash := some hash
            imageStoredUrl := r.cleared.imageUrl
            imageFetchFailedAt := none
            imageFetchAttempts := 0 } := by
        rw [AvatarPass.storeFor, if_pos ⟨rfl, by rw [hstores]; rfl⟩, hstores]
      rw [hset, if_neg]
      simp only [List.contains_eq_mem, decide_eq_true_eq]
      intro hfailed
      obtain ⟨q, hq, hid⟩ := List.mem_map.mp hfailed
      obtain ⟨hq, hnone⟩ := List.mem_filter.mp hq
      rw [hself q hq hid, hstores] at hnone
      cases hnone
  · have hother : ∀ q ∈ avatarQueue dreps, q.drepId ≠ r.cleared.drepId := fun q hq hid =>
      hmem (hself q hq hid ▸ hq)
    rw [foldl_storeFor_other hother, AvatarPass.leaves, if_neg hmem, if_neg]
    simp only [List.contains_eq_mem, decide_eq_true_eq]
    intro hfailed
    obtain ⟨q, hq, hid⟩ := List.mem_map.mp hfailed
    exact hother q (List.mem_filter.mp hq).1 hid

theorem drepId_cleared (r : StoredDrep) : r.cleared.drepId = r.drepId := by
  rw [StoredDrep.cleared]
  split_ifs <;> rfl

theorem drepId_leaves (r : StoredDrep) : (pass.leaves queue r).drepId = r.drepId := by
  rw [AvatarPass.leaves, AvatarPass.attempted]
  split_ifs
  · split <;> exact drepId_cleared r
  · exact drepId_cleared r

theorem drepById_storeDrepAvatars : drepById (storeDrepAvatars dreps pass) drepId =
    (drepById dreps drepId).map (pass.leaves (avatarQueue dreps)) := by
  have hsame : (fun r : StoredDrep => r.drepId == drepId) ∘ pass.leaves (avatarQueue dreps) =
      fun r => r.drepId == drepId := funext fun r => by rw [Function.comp_apply, drepId_leaves]
  rw [drepById, rows_storeDrepAvatars, List.find?_map, hsame]
  rfl

/-! ### The queue moves on -/

/-- The row stands in the queue and has not failed since. -/
def StoredDrep.waits (drepId : String) (since : ℤ) (r : StoredDrep) : Bool :=
  r.drepId != drepId && r.needsAvatar && r.imageFetchFailedAt.all fun t => decide (t ≤ since)

/-- The rows that can stand in front of a DRep which has not failed since either. -/
def queueAhead (dreps : DrepTable) (drepId : String) (since : ℤ) : ℕ :=
  dreps.rows.countP (·.waits drepId since)

instance : IsTrans StoredDrep avatarBefore where
  trans a b c hab hbc := by
    unfold avatarBefore at *
    generalize a.imageFetchFailedAt = s at hab ⊢
    generalize b.imageFetchFailedAt = t at hab hbc
    generalize c.imageFetchFailedAt = u at hbc ⊢
    rcases s with _ | s <;> rcases t with _ | t <;> rcases u with _ | u <;>
      simp only at hab hbc ⊢
    · exact hab.trans hbc
    · rcases hab with hab | ⟨rfl, hab⟩ <;> rcases hbc with hbc | ⟨rfl, hbc⟩
      · exact .inl (hab.trans hbc)
      · exact .inl hab
      · exact .inl hbc
      · exact .inr ⟨rfl, hab.trans hbc⟩

instance : Std.Total (α := StoredDrep) avatarBefore where
  total a b := by
    unfold avatarBefore
    rcases a.imageFetchFailedAt with _ | s <;> rcases b.imageFetchFailedAt with _ | t <;>
      simp only
    · exact le_total _ _
    · exact .inl trivial
    · exact .inr trivial
    · rcases lt_trichotomy s t with h | rfl | h
      · exact .inl (.inl h)
      · exact (le_total a.drepId b.drepId).imp (fun h => .inr ⟨rfl, h⟩) fun h => .inr ⟨rfl, h⟩
      · exact .inr (.inl h)

theorem left_behind (hmem : r ∈ dreps.rows) (hneeds : r.needsAvatar = true)
    (hout : r ∉ listDrepsNeedingAvatar dreps) :
    (listDrepsNeedingAvatar dreps).length = AVATAR_PASS_LIMIT ∧
      ∀ q ∈ listDrepsNeedingAvatar dreps, avatarBefore q r := by
  let sorted := (dreps.rows.filter (·.needsAvatar)).insertionSort avatarBefore
  have hsorted : sorted.Pairwise avatarBefore := List.pairwise_insertionSort _ _
  have hqueue : listDrepsNeedingAvatar dreps = sorted.take AVATAR_PASS_LIMIT := rfl
  have hin : r ∈ sorted := (List.mem_insertionSort _).mpr (List.mem_filter.mpr ⟨hmem, hneeds⟩)
  rw [hqueue] at hout ⊢
  have hdrop : r ∈ sorted.drop AVATAR_PASS_LIMIT := by
    rw [← List.take_append_drop AVATAR_PASS_LIMIT sorted, List.mem_append] at hin
    exact hin.resolve_left hout
  constructor
  · have hpos : 0 < (sorted.drop AVATAR_PASS_LIMIT).length := List.length_pos_of_mem hdrop
    rw [List.length_drop] at hpos
    rw [List.length_take]
    omega
  · rw [← List.take_append_drop AVATAR_PASS_LIMIT sorted, List.pairwise_append] at hsorted
    exact fun q hq => hsorted.2.2 q hq r hdrop

variable {since : ℤ}

theorem waits_cleared (r : StoredDrep) :
    r.cleared.waits drepId since = r.waits drepId since := by
  rw [StoredDrep.cleared]
  split_ifs with h
  · simp only [Bool.and_eq_true, Option.isNone_iff_eq_none] at h
    simp [StoredDrep.waits, StoredDrep.needsAvatar, h.1.1]
  · rfl

theorem waits_leaves (hclock : since < pass.nowMs)
    (h : (pass.leaves queue r).waits drepId since = true) :
    r.waits drepId since = true ∧ r.cleared ∉ queue := by
  rw [AvatarPass.leaves] at h
  split_ifs at h with hmem
  · refine absurd h (Bool.eq_false_iff.mp ?_)
    rw [AvatarPass.attempted]
    rcases pass.stores r.cleared with _ | hash
    · simp [StoredDrep.waits, hclock]
    · simp [StoredDrep.waits, StoredDrep.needsAvatar]
  · exact ⟨waits_cleared r ▸ h, hmem⟩

theorem queueAhead_storeDrepAvatars (hclock : since < pass.nowMs) :
    queueAhead (storeDrepAvatars dreps pass) drepId since +
        (dreps.rows.filter fun r => decide (r.cleared ∈ avatarQueue dreps)).countP
          (·.waits drepId since) ≤
      queueAhead dreps drepId since := by
  rw [queueAhead, queueAhead, rows_storeDrepAvatars, List.countP_map,
    List.countP_eq_countP_filter_add dreps.rows (·.waits drepId since)
      fun r => decide (r.cleared ∈ avatarQueue dreps), Nat.add_comm,
    List.countP_filter (l := dreps.rows) (q := fun r => !decide (r.cleared ∈ avatarQueue dreps))]
  refine Nat.add_le_add_left (List.countP_mono_left fun r _ h => ?_) _
  obtain ⟨hwaits, hout⟩ := waits_leaves hclock h
  simp [hwaits, hout]

theorem cleared_of_imageUrl (h : r.imageUrl ≠ none) : r.cleared = r :=
  if_neg fun hgone => h (by simp_all)

theorem waits_of_left_behind (hrow : drepById dreps drepId = some r) (hneeds : r.needsAvatar = true)
    (hsince : r.imageFetchFailedAt.all (fun t => decide (t ≤ since)) = true)
    (hout : r ∉ avatarQueue dreps) :
    (avatarQueue dreps).length = AVATAR_PASS_LIMIT ∧
      ∀ q ∈ avatarQueue dreps, q.waits drepId since = true := by
  obtain ⟨hmem, rfl⟩ := drepById_eq_some.mp hrow
  have himage : r.imageUrl ≠ none := fun h => by simp [StoredDrep.needsAvatar, h] at hneeds
  have hcleared : r ∈ (clearOrphanedImageStore dreps).rows :=
    List.mem_map.mpr ⟨r, hmem, cleared_of_imageUrl himage⟩
  obtain ⟨hfull, hbefore⟩ := left_behind hcleared hneeds hout
  refine ⟨hfull, fun q hq => ?_⟩
  obtain ⟨hqmem, hqneeds⟩ := of_mem_listDrepsNeedingAvatar hq
  have hne : q.drepId ≠ r.drepId := fun hqid =>
    hout ((clearOrphanedImageStore dreps).eq_of_key hqmem hcleared hqid ▸ hq)
  have hbefore : avatarBefore q r := hbefore q hq
  rw [avatarBefore] at hbefore
  rcases hfailed : q.imageFetchFailedAt with _ | t
  · simp [StoredDrep.waits, hne, hqneeds, hfailed]
  · rcases hr : r.imageFetchFailedAt with _ | u <;> rw [hr, hfailed] at hbefore
    · exact hbefore.elim
    · have hu : u ≤ since := by simpa [hr] using hsince
      have hle : t ≤ since := by
        rcases hbefore with h | ⟨rfl, -⟩
        · exact h.le.trans hu
        · exact hu
      simp [StoredDrep.waits, hne, hqneeds, hfailed, hle]

/-- **The queue moves on.** A pass takes up the DRep, or takes a full pass of those in front of it
out. -/
theorem turn_or_progress (hclock : since < pass.nowMs) (hrow : drepById dreps drepId = some r)
    (hneeds : r.needsAvatar = true)
    (hsince : r.imageFetchFailedAt.all (fun t => decide (t ≤ since)) = true) :
    r ∈ avatarQueue dreps ∨
      queueAhead (storeDrepAvatars dreps pass) drepId since + AVATAR_PASS_LIMIT ≤
        queueAhead dreps drepId since := by
  refine or_iff_not_imp_left.mpr fun hout => ?_
  obtain ⟨hfull, hwaits⟩ := waits_of_left_behind hrow hneeds hsince hout
  let taken := dreps.rows.filter fun r => decide (r.cleared ∈ avatarQueue dreps)
  have hsub : (avatarQueue dreps).Subperm (taken.map (·.cleared)) := by
    refine List.subperm_of_subset (nodup_listDrepsNeedingAvatar.of_map _) fun q hq => ?_
    obtain ⟨r', hr', rfl⟩ := List.mem_map.mp (of_mem_listDrepsNeedingAvatar hq).1
    exact List.mem_map_of_mem (List.mem_filter.mpr ⟨hr', decide_eq_true hq⟩)
  have htaken : AVATAR_PASS_LIMIT ≤ taken.countP (·.waits drepId since) :=
    calc AVATAR_PASS_LIMIT = (avatarQueue dreps).countP (·.waits drepId since) :=
          hfull.symm.trans (List.countP_eq_length.mpr hwaits).symm
      _ ≤ (taken.map (·.cleared)).countP (·.waits drepId since) := hsub.countP_le _
      _ = taken.countP (·.waits drepId since) := by
          rw [List.countP_map]
          exact List.countP_congr fun r _ => by simp [waits_cleared]
  have hleft : queueAhead (storeDrepAvatars dreps pass) drepId since +
      taken.countP (·.waits drepId since) ≤ queueAhead dreps drepId since :=
    queueAhead_storeDrepAvatars hclock
  omega

end

end DrepTalk
