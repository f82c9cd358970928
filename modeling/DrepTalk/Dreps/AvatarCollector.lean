import DrepTalk.Dreps.AvatarBucket

/-!
# The collector of the avatar bucket

`gcDrepAvatars` of `src/lib/dreps/avatarStore.ts`, as the `avatars` phase of the sync of the DReps
calls it: with its default limit, and with the hashes of the pools read before. It deletes the
objects of all three prefixes whose hash no row names and that have lain there for the grace period.

A run takes one step for each statement (`gcStep`): the pools, the clock, the DReps, one listing
after the other, the deletes. What it has read stays as it was read.

**With nothing else running**, a run comes to an end, and has then deleted everything it may delete
or as much as its limit allows. So as many runs as there are objects leave none that could be
deleted at their start (`collected_of_gcRuns`).
-/

namespace DrepTalk

/-! ### What is read -/

/-- A row of `pools`, by the columns of its logo. -/
structure PoolRow where
  poolId : String
  imageUrl : Option String
  imageContentHash : Option String
  imageStoredUrl : Option String
  imageFetchFailedAt : Option ℤ
  imageFetchAttempts : ℕ

abbrev PoolTable := KeyedTable fun r : PoolRow => r.poolId

/-- The clock, the rows and the objects. -/
structure BucketWorld where
  clockMs : ℤ
  dreps : DrepTable
  pools : PoolTable
  bucket : AvatarBucket

def listReferencedImageHashes (dreps : DrepTable) : List String :=
  dreps.rows.filterMap (·.imageContentHash)

def listReferencedPoolImageHashes (pools : PoolTable) : List String :=
  pools.rows.filterMap (·.imageContentHash)

def BucketWorld.References (w : BucketWorld) (hash : String) : Prop :=
  hash ∈ listReferencedImageHashes w.dreps ∨ hash ∈ listReferencedPoolImageHashes w.pools

instance decidableReferences (w : BucketWorld) (hash : String) : Decidable (w.References hash) :=
  inferInstanceAs (Decidable (_ ∨ _))

/-! ### A run -/

def AVATAR_GC_GRACE_MS : ℤ := 24 * 60 * 60 * 1000

def DELETE_LIMIT : ℕ := 200

def DELETE_BATCH : ℕ := 1000

/-- Where a run stands, with what it has read. -/
inductive AvatarGc
  | starting
  | pooled (extra : List String)
  | timed (extra : List String) (nowMs : ℤ)
  | listing (referenced : List String) (nowMs : ℤ) (under : AvatarPrefix) (cursor : Option String)
      (toDelete : List AvatarKey)
  | deleting (toDelete : List AvatarKey)
  | done
  deriving DecidableEq

/-- The object is old and its hash is not named. -/
def Collectable (referenced : List String) (nowMs : ℤ) (o : AvatarObject) : Prop :=
  o.key.hashOf ∉ referenced ∧ AVATAR_GC_GRACE_MS ≤ nowMs - o.uploaded

instance decidableCollectable (referenced : List String) (nowMs : ℤ) (o : AvatarObject) :
    Decidable (Collectable referenced nowMs o) :=
  inferInstanceAs (Decidable (_ ∧ _))

def collect (referenced : List String) (nowMs : ℤ) (toDelete : List AvatarKey) (o : AvatarObject) :
    List AvatarKey :=
  if DELETE_LIMIT ≤ toDelete.length then toDelete
  else if Collectable referenced nowMs o then toDelete ++ [o.key]
  else toDelete

/-- After the sweep of a prefix comes the next one, and after the last one the deletes. -/
def AvatarGc.swept (referenced : List String) (nowMs : ℤ) (under : AvatarPrefix)
    (toDelete : List AvatarKey) : AvatarGc :=
  match under with
  | .avatars => .listing referenced nowMs .og_avatars none toDelete
  | .og_avatars => .listing referenced nowMs .avatar_thumbs none toDelete
  | .avatar_thumbs => .deleting toDelete

def AvatarGc.listed (referenced : List String) (nowMs : ℤ) (under : AvatarPrefix)
    (cursor : Option String) (toDelete : List AvatarKey) : AvatarGc :=
  if cursor.isSome ∧ toDelete.length < DELETE_LIMIT then
    .listing referenced nowMs under cursor toDelete
  else .swept referenced nowMs under toDelete

def gcStep (w : BucketWorld) : AvatarGc → BucketWorld × AvatarGc
  | .starting => (w, .pooled (listReferencedPoolImageHashes w.pools))
  | .pooled extra => (w, .timed extra w.clockMs)
  | .timed extra nowMs =>
    (w, .listing (listReferencedImageHashes w.dreps ++ extra) nowMs .avatars none [])
  | .listing referenced nowMs under cursor toDelete =>
    let page := w.bucket.page under cursor
    (w, .listed referenced nowMs under page.2 (page.1.foldl (collect referenced nowMs) toDelete))
  | .deleting [] => (w, .done)
  | .deleting (key :: keys) =>
    ({ w with bucket := w.bucket.delete ((key :: keys).take DELETE_BATCH) },
      .deleting ((key :: keys).drop DELETE_BATCH))
  | .done => (w, .done)

/-! ### What is collected -/

section

variable {w w' : BucketWorld} {referenced : List String} {nowMs : ℤ} {under : AvatarPrefix}
  {cursor : Option String} {objects objects' : List AvatarObject}
  {toDelete toDelete' toDelete'' : List AvatarKey} {key : AvatarKey} {o : AvatarObject}

/-- From the one list to the other, all that may go of the objects has been collected, or as much
as the limit allows, and nothing else. -/
structure Collects (referenced : List String) (nowMs : ℤ) (objects : List AvatarObject)
    (toDelete toDelete' : List AvatarKey) : Prop where
  keeps : ∀ key ∈ toDelete, key ∈ toDelete'
  grows : toDelete.length ≤ toDelete'.length
  only : ∀ key ∈ toDelete', key ∈ toDelete ∨
    ∃ o ∈ objects, o.key = key ∧ Collectable referenced nowMs o
  all : DELETE_LIMIT ≤ toDelete'.length ∨
    ∀ o ∈ objects, Collectable referenced nowMs o → o.key ∈ toDelete'

theorem Collects.nil : Collects referenced nowMs [] toDelete toDelete :=
  ⟨fun _ h => h, le_refl _, fun _ h => .inl h, .inr nofun⟩

theorem Collects.full (hfull : DELETE_LIMIT ≤ toDelete.length) :
    Collects referenced nowMs objects toDelete toDelete :=
  ⟨fun _ h => h, le_refl _, fun _ h => .inl h, .inl hfull⟩

theorem Collects.append (h : Collects referenced nowMs objects toDelete toDelete')
    (h' : Collects referenced nowMs objects' toDelete' toDelete'') :
    Collects referenced nowMs (objects ++ objects') toDelete toDelete'' where
  keeps key hkey := h'.keeps key (h.keeps key hkey)
  grows := h.grows.trans h'.grows
  only := by
    intro key hkey
    rcases h'.only key hkey with hkey | ⟨o, ho, hcollectable⟩
    · refine (h.only key hkey).imp_right ?_
      rintro ⟨o, ho, hcollectable⟩
      exact ⟨o, List.mem_append_left _ ho, hcollectable⟩
    · exact .inr ⟨o, List.mem_append_right _ ho, hcollectable⟩
  all := by
    rcases h.all with hfull | hall
    · exact .inl (hfull.trans h'.grows)
    refine h'.all.imp_right fun hall' o ho hcollectable => ?_
    rcases List.mem_append.mp ho with ho | ho
    · exact h'.keeps _ (hall o ho hcollectable)
    · exact hall' o ho hcollectable

theorem collects_collect :
    Collects referenced nowMs [o] toDelete (collect referenced nowMs toDelete o) := by
  rw [collect]
  split_ifs with hfull hcollectable
  · exact .full hfull
  · refine ⟨fun key hkey => List.mem_append_left _ hkey, by simp, fun key hkey => ?_, .inr ?_⟩
    · refine (List.mem_append.mp hkey).imp_right fun hkey => ?_
      exact ⟨o, List.mem_cons_self, (List.mem_singleton.mp hkey).symm, hcollectable⟩
    · intro o' ho' _
      rw [List.mem_singleton.mp ho']
      exact List.mem_append_right _ List.mem_cons_self
  · refine ⟨fun _ h => h, le_refl _, fun _ h => .inl h, .inr fun o' ho' h => ?_⟩
    exact absurd (List.mem_singleton.mp ho' ▸ h) hcollectable

theorem collects_page (referenced : List String) (nowMs : ℤ) (objects : List AvatarObject)
    (toDelete : List AvatarKey) : Collects referenced nowMs objects toDelete
      (objects.foldl (collect referenced nowMs) toDelete) := by
  induction objects generalizing toDelete with
  | nil => exact .nil
  | cons o objects ih => exact collects_collect.append (ih _)

/-! ### A run with nothing else running -/

/-- Some number of steps leads from the one to the other. -/
def GcLeads (s s' : BucketWorld × AvatarGc) : Prop :=
  ∃ n, (fun s : BucketWorld × AvatarGc => gcStep s.1 s.2)^[n] s = s'

theorem GcLeads.refl (s : BucketWorld × AvatarGc) : GcLeads s s := ⟨0, rfl⟩

variable {s s' : BucketWorld × AvatarGc}

theorem GcLeads.head (h : GcLeads (gcStep s.1 s.2) s') : GcLeads s s' :=
  let ⟨n, hn⟩ := h
  ⟨n + 1, hn⟩

theorem GcLeads.trans {s'' : BucketWorld × AvatarGc} (h : GcLeads s s') (h' : GcLeads s' s'') :
    GcLeads s s'' := by
  obtain ⟨n, rfl⟩ := h
  obtain ⟨m, rfl⟩ := h'
  exact ⟨m + n, Function.iterate_add_apply _ m n s⟩

theorem GcLeads.of_done (h : GcLeads (w, .done) s) : s = (w, .done) := by
  obtain ⟨n, rfl⟩ := h
  exact Function.iterate_fixed rfl n

theorem GcLeads.unique (h : GcLeads s (w, .done)) (h' : GcLeads s (w', .done)) : w = w' := by
  obtain ⟨n, hn⟩ := h
  obtain ⟨m, hm⟩ := h'
  have hsame : ((w, .done) : BucketWorld × AvatarGc) = (w', .done) := by
    rcases Nat.le_total n m with hle | hle
    · refine (GcLeads.of_done ⟨m - n, ?_⟩).symm
      rw [← hn, ← Function.iterate_add_apply, Nat.sub_add_cancel hle, hm]
    · refine GcLeads.of_done ⟨n - m, ?_⟩
      rw [← hm, ← Function.iterate_add_apply, Nat.sub_add_cancel hle, hn]
  exact congrArg Prod.fst hsame

theorem sweep_alone (w : BucketWorld) (referenced : List String) (nowMs : ℤ)
    (under : AvatarPrefix) (cursor : Option String) (toDelete : List AvatarKey) :
    ∃ toDelete', GcLeads (w, .listing referenced nowMs under cursor toDelete)
        (w, .swept referenced nowMs under toDelete') ∧
      Collects referenced nowMs (w.bucket.objectsAfter under cursor) toDelete toDelete' := by
  -- by the number of objects that are left
  induction hn : (w.bucket.objectsAfter under cursor).length using Nat.strong_induction_on
    generalizing cursor toDelete with
  | _ n ih =>
    have hpage := collects_page referenced nowMs (w.bucket.page under cursor).1 toDelete
    have hsplit : (w.bucket.page under cursor).1 ++
        (w.bucket.objectsAfter under cursor).drop AvatarBucket.LIST_PAGE =
          w.bucket.objectsAfter under cursor := List.take_append_drop _ _
    set listed := (w.bucket.page under cursor).1.foldl (collect referenced nowMs) toDelete
    have hstep : gcStep w (.listing referenced nowMs under cursor toDelete) =
        (w, .listed referenced nowMs under (w.bucket.page under cursor).2 listed) := rfl
    rw [AvatarGc.listed] at hstep
    split_ifs at hstep with hmore
    · obtain ⟨last, hlast⟩ := Option.isSome_iff_exists.mp hmore.1
      have hrest := AvatarBucket.objectsAfter_last hlast
      rw [hlast] at hstep
      have hshorter : (w.bucket.objectsAfter under (some last)).length < n := by
        have hlong : AvatarBucket.LIST_PAGE < (w.bucket.objectsAfter under cursor).length := by
          by_contra hshort
          rw [AvatarBucket.page, if_neg hshort] at hlast
          cases hlast
        rw [hrest, List.length_drop, hn]
        rw [hn] at hlong
        exact Nat.sub_lt (Nat.zero_lt_of_lt hlong) (by decide)
      obtain ⟨toDelete', hleads, hcollects⟩ := ih _ hshorter (some last) listed rfl
      refine ⟨toDelete', .head (hstep ▸ hleads), ?_⟩
      rw [← hsplit]
      exact hpage.append (hrest ▸ hcollects)
    · refine ⟨listed, .head (hstep ▸ .refl _), ?_⟩
      rw [← hsplit]
      refine hpage.append ?_
      -- there is no more, or the limit is reached
      by_cases hfull : DELETE_LIMIT ≤ listed.length
      · exact .full hfull
      · have hlast : ¬(w.bucket.page under cursor).2.isSome := fun hsome =>
          hmore ⟨hsome, Nat.not_le.mp hfull⟩
        have hshort : (w.bucket.objectsAfter under cursor).length ≤ AvatarBucket.LIST_PAGE := by
          by_contra hlong
          refine hlast ?_
          have hne : (w.bucket.objectsAfter under cursor).take AvatarBucket.LIST_PAGE ≠ [] := by
            intro hnil
            have hlength := congrArg List.length hnil
            rw [List.length_take, List.length_nil] at hlength
            have hpos : 0 < AvatarBucket.LIST_PAGE := by decide
            omega
          rw [AvatarBucket.page, if_pos (Nat.not_le.mp hlong), Option.isSome_map,
            List.getLast?_isSome]
          exact hne
        rw [List.drop_eq_nil_of_le hshort]
        exact .nil

/-- The worlds of a run that deletes nothing but keys of the list. -/
structure DeletedTo (w : BucketWorld) (toDelete : List AvatarKey) (w' : BucketWorld) : Prop where
  clock : w'.clockMs = w.clockMs
  dreps : w'.dreps = w.dreps
  pools : w'.pools = w.pools
  objects : w'.bucket.rows = w.bucket.rows.filter fun o => !toDelete.contains o.key

theorem deletes_alone (w : BucketWorld) (toDelete : List AvatarKey) :
    ∃ w', GcLeads (w, .deleting toDelete) (w', .done) ∧ DeletedTo w toDelete w' := by
  induction hn : toDelete.length using Nat.strong_induction_on generalizing w toDelete with
  | _ n ih =>
    rcases toDelete with _ | ⟨key, keys⟩
    · exact ⟨w, .head (.refl _), rfl, rfl, rfl, by simp⟩
    · have hshorter : ((key :: keys).drop DELETE_BATCH).length < n := by
        rw [List.length_drop, hn]
        have hpos : 0 < n := hn ▸ Nat.succ_pos _
        exact Nat.sub_lt hpos (by decide)
      obtain ⟨w', hleads, hclock, hdreps, hpools, hobjects⟩ := ih _ hshorter
        { w with bucket := w.bucket.delete ((key :: keys).take DELETE_BATCH) }
        ((key :: keys).drop DELETE_BATCH) rfl
      refine ⟨w', .head hleads, hclock, hdreps, hpools, hobjects.trans ?_⟩
      refine List.filter_filter.trans (List.filter_congr fun o _ => ?_)
      conv_rhs => rw [← List.take_append_drop DELETE_BATCH (key :: keys)]
      simp only [List.contains_eq_mem, List.mem_append, Bool.decide_or, Bool.not_or]
      exact Bool.and_comm _ _

/-- A whole run leads from the one world to the other. -/
def CollectsAlone (w w' : BucketWorld) : Prop := GcLeads (w, .starting) (w', .done)

/-- The object is old and no row names its hash. -/
def BucketWorld.Unused (w : BucketWorld) (o : AvatarObject) : Prop :=
  ¬w.References o.key.hashOf ∧ AVATAR_GC_GRACE_MS ≤ w.clockMs - o.uploaded

structure CollectedTo (w w' : BucketWorld) : Prop where
  clock : w'.clockMs = w.clockMs
  references : ∀ hash, w'.References hash ↔ w.References hash
  left : ∀ o ∈ w'.bucket.rows, o ∈ w.bucket.rows
  unused : ∀ o ∈ w.bucket.rows, o ∉ w'.bucket.rows → w.Unused o
  done : (∀ o ∈ w'.bucket.rows, ¬w.Unused o) ∨
    w'.bucket.rows.length < w.bucket.rows.length

/-- **A run with nothing else running** ends, and leaves less, if it leaves anything to collect. -/
theorem collects_alone (w : BucketWorld) : ∃ w', CollectsAlone w w' ∧ CollectedTo w w' := by
  set referenced := listReferencedImageHashes w.dreps ++ listReferencedPoolImageHashes w.pools
  obtain ⟨keys, hleads, hkeys⟩ := sweep_alone w referenced w.clockMs .avatars none []
  obtain ⟨keys', hleads', hkeys'⟩ := sweep_alone w referenced w.clockMs .og_avatars none keys
  obtain ⟨toDelete, hleads'', hkeys''⟩ :=
    sweep_alone w referenced w.clockMs .avatar_thumbs none keys'
  obtain ⟨w', hdone, hclock, hdreps, hpools, hobjects⟩ := deletes_alone w toDelete
  have hcollects := (hkeys.append hkeys').append hkeys''
  have hunused : ∀ o, Collectable referenced w.clockMs o ↔ w.Unused o := fun o =>
    and_congr_left fun _ => not_congr List.mem_append
  -- every object is under one of the prefixes
  have hmem : ∀ o, o ∈ w.bucket.objectsAfter .avatars none ++
      w.bucket.objectsAfter .og_avatars none ++ w.bucket.objectsAfter .avatar_thumbs none ↔
        o ∈ w.bucket.rows := by
    intro o
    rw [List.mem_append, List.mem_append, AvatarBucket.mem_objectsAfter,
      AvatarBucket.mem_objectsAfter, AvatarBucket.mem_objectsAfter]
    rcases o.key.under <;> simp [AvatarBucket.behind]
  have hleft : ∀ o, o ∈ w'.bucket.rows ↔ o ∈ w.bucket.rows ∧ o.key ∉ toDelete := fun o => by
    rw [hobjects]
    simp
  refine ⟨w', ?_, hclock, fun hash => ?_, fun o ho => ((hleft o).mp ho).1, ?_, ?_⟩
  · exact .head (.head (.head (hleads.trans (hleads'.trans (hleads''.trans hdone)))))
  · rw [BucketWorld.References, hdreps, hpools]
    rfl
  · intro o ho hgone
    have hkey : o.key ∈ toDelete := by
      by_contra hkey
      exact hgone ((hleft o).mpr ⟨ho, hkey⟩)
    obtain ⟨o', ho', hsame, hcollectable⟩ := (hcollects.only _ hkey).resolve_left List.not_mem_nil
    exact w.bucket.eq_of_key ((hmem o').mp ho') ho hsame ▸ (hunused o').mp hcollectable
  · rcases hcollects.all with hfull | hall
    · -- some key was collected, and its object is gone
      obtain ⟨key, hkey⟩ := List.exists_mem_of_length_pos
        (Nat.lt_of_lt_of_le (by decide : 0 < DELETE_LIMIT) hfull)
      obtain ⟨o, ho, hsame, -⟩ := (hcollects.only _ hkey).resolve_left List.not_mem_nil
      refine .inr ?_
      rw [hobjects]
      refine List.length_filter_lt_length_iff_exists.mpr ⟨o, (hmem o).mp ho, ?_⟩
      simp [hsame, hkey]
    · refine .inl fun o ho hold => ?_
      obtain ⟨ho, hkey⟩ := (hleft o).mp ho
      exact hkey (hall o ((hmem o).mpr ho) ((hunused o).mpr hold))

/-- Runs one after the other, with time passing in between. -/
inductive GcRuns : ℕ → BucketWorld → BucketWorld → Prop
  | none (w : BucketWorld) : GcRuns 0 w w
  | next {n : ℕ} {w w' w'' : BucketWorld} {nowMs : ℤ} (hruns : GcRuns n w w')
      (hlater : w'.clockMs ≤ nowMs) (hrun : CollectsAlone { w' with clockMs := nowMs } w'') :
      GcRuns (n + 1) w w''

theorem collectedTo_of_gcRuns {n : ℕ} (h : GcRuns n w w') :
    w.clockMs ≤ w'.clockMs ∧ (∀ hash, w'.References hash ↔ w.References hash) ∧
      (∀ o ∈ w'.bucket.rows, o ∈ w.bucket.rows) ∧
      ((∀ o ∈ w'.bucket.rows, ¬w.Unused o) ∨
        w'.bucket.rows.length + n ≤ w.bucket.rows.length) := by
  induction h with
  | none w => exact ⟨le_refl _, fun _ => Iff.rfl, fun _ h => h, .inr (le_refl _)⟩
  | @next n w w' w'' nowMs hruns hlater hrun ih =>
    obtain ⟨hclock, hreferences, hleft, hcount⟩ := ih
    obtain ⟨wEnd, halone, hcollected⟩ := collects_alone { w' with clockMs := nowMs }
    obtain rfl := hrun.unique halone
    refine ⟨?_, fun hash => (hcollected.references hash).trans (hreferences hash),
      fun o ho => hleft o (hcollected.left o ho), ?_⟩
    · rw [hcollected.clock]
      exact hclock.trans hlater
    · rcases hcount with hall | hcount
      · exact .inl fun o ho => hall o (hcollected.left o ho)
      rcases hcollected.done with hall | hless
      · -- what could be collected at the start can be collected in this run
        refine .inl fun o ho hold => hall o ho ⟨?_, ?_⟩
        · exact fun hnamed => hold.1 ((hreferences _).mp hnamed)
        · have hage := hold.2
          change AVATAR_GC_GRACE_MS ≤ nowMs - o.uploaded
          omega
      · refine .inr ?_
        change _ < w'.bucket.rows.length at hless
        omega

/-- **As many runs as there are objects** leave none that could be collected at their start. -/
theorem collected_of_gcRuns (h : GcRuns w.bucket.rows.length w w') (ho : o ∈ w'.bucket.rows) :
    ¬w.Unused o := by
  obtain ⟨-, -, -, hall | hcount⟩ := collectedTo_of_gcRuns h
  · exact hall o ho
  · have hempty : w'.bucket.rows.length = 0 := by omega
    rw [List.length_eq_zero_iff.mp hempty] at ho
    cases ho

end

end DrepTalk
