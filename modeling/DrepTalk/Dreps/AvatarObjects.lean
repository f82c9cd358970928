import DrepTalk.Dreps.AvatarPasses

/-!
# What the writers of avatars name

What each statement adds to the hashes that the rows name (`BucketWorld.Names`), and from it what a
step of a pass or of the sync does (`AvatarWrites`): it names what the process held, puts what it
was about to put, and holds what a row named, what it has found, or what it has put.
-/

namespace DrepTalk

/-! ### What a statement names -/

section Statements

variable {hash : String}

theorem named_updateWhere {α : Type*} {content : α → Option String} {rows : List α} {p : α → Bool}
    {f : α → α} {new : Option String}
    (h : hash ∈ (Table.updateWhere p f rows).filterMap content)
    (hf : ∀ r, content (f r) = content r ∨ content (f r) = new) :
    hash ∈ rows.filterMap content ∨ new = some hash := by
  obtain ⟨r, hr, hhash⟩ := List.mem_filterMap.mp h
  rcases Table.mem_updateWhere.mp hr with ⟨hr, -⟩ | ⟨r₀, hr₀, -, rfl⟩
  · exact .inl (List.mem_filterMap.mpr ⟨r, hr, hhash⟩)
  · rcases hf r₀ with hsame | hnew
    · exact .inl (List.mem_filterMap.mpr ⟨r₀, hr₀, hsame ▸ hhash⟩)
    · exact .inr (hnew ▸ hhash)

theorem named_upsert {dreps : DrepTable} {args : Drep}
    (h : hash ∈ listReferencedImageHashes (buildDrepUpsertStatement dreps args)) :
    hash ∈ listReferencedImageHashes dreps ∨ args.imageContentHash = some hash := by
  obtain ⟨r, hr, hhash⟩ := List.mem_filterMap.mp h
  have hkey : ∀ r : StoredDrep, r.drepId = args.drepId → (args.merge r).drepId = r.drepId :=
    fun _ h => h.symm
  rcases (KeyedTable.mem_upsert hkey).mp hr with ⟨hr, -⟩ | ⟨r₀, -, -, rfl⟩ | ⟨rfl, -⟩
  · exact .inl (List.mem_filterMap.mpr ⟨r, hr, hhash⟩)
  · exact .inr hhash
  · exact .inr hhash

/-- The DReps and the pools name what they did, but for one hash each. -/
structure BucketWorld.Names (w w' : BucketWorld) (new newLogo : Option String) : Prop where
  dreps : ∀ hash ∈ listReferencedImageHashes w'.dreps,
    hash ∈ listReferencedImageHashes w.dreps ∨ new = some hash
  pools : ∀ hash ∈ listReferencedPoolImageHashes w'.pools,
    hash ∈ listReferencedPoolImageHashes w.pools ∨ newLogo = some hash

theorem BucketWorld.Names.refl (w : BucketWorld) : w.Names w none none :=
  ⟨fun _ h => .inl h, fun _ h => .inl h⟩

theorem names_clearOrphaned (w : BucketWorld) (owner : AvatarOwner) :
    w.Names (w.clearOrphaned owner) none none := by
  rcases owner with _ | _
  · exact ⟨fun _ h => named_updateWhere h fun _ => .inr rfl, fun _ h => .inl h⟩
  · exact ⟨fun _ h => .inl h, fun _ h => named_updateWhere h fun _ => .inr rfl⟩

theorem names_markImageFetchFailed (w : BucketWorld) (ids : List String) (nowMs : ℤ)
    (owner : AvatarOwner) : w.Names (w.markImageFetchFailed ids nowMs owner) none none := by
  rcases owner with _ | _
  · exact ⟨fun _ h => named_updateWhere h fun _ => .inl rfl, fun _ h => .inl h⟩
  · exact ⟨fun _ h => .inl h, fun _ h => named_updateWhere h fun _ => .inl rfl⟩

theorem names_setImageStored (w : BucketWorld) (row : AvatarSource) (hash : String)
    (owner : AvatarOwner) : w.Names (w.setImageStored row hash owner) (some hash)
      (if owner = .pool then some hash else none) := by
  rcases owner with _ | _
  · exact ⟨fun _ h => named_updateWhere h fun _ => .inr rfl, fun _ h => .inl h⟩
  · exact ⟨fun _ h => .inl h, fun _ h => named_updateWhere h fun _ => .inr rfl⟩

end Statements

/-! ### What a writer does -/

section Writers

variable {δ : Type*} {setup : DrepSyncSetup δ} {parseUrl : String → Option ImageUrl}
  {w w' : BucketWorld} {event : StoreEvent}

theorem imageContentHash_row (input : DrepUpsert δ) (existing : Option StoredDrep) :
    (setup.row input.run input.info existing input.canFetch).imageContentHash =
      (setup.ingests input existing <|> existing.bind (·.imageContentHash)) := by
  change (resolveProfile setup input.run input.info existing
    input.canFetch).1.imageContentHash = _
  rcases h : input.info.anchor with _ | ⟨metaUrl, metaHash⟩
  · have hdocument : input.document = none := by rw [DrepUpsert.document, h, Option.bind_none]
    have hingests : setup.ingests input existing = none := by
      rw [DrepSyncSetup.ingests, hdocument, Option.bind_none, ite_self]
    rw [resolveProfile_unanchored h, hingests]
    rfl
  have hany : (existing.any fun row => input.info.anchor.any fun anchor => row.holds anchor.2) =
      existing.any (·.holds metaHash) := by rw [h]; rfl
  rcases attempt_cases existing input.run metaUrl metaHash input.canFetch with
    ⟨row, rfl, hholds⟩ | ⟨hholds, ⟨doc, hattempt⟩ | hattempt⟩
  · have hingests : setup.ingests input (some row) = none := by
      rw [DrepSyncSetup.ingests, hany, Option.any_some, hholds, if_pos rfl]
    rw [resolveProfile_holds h hholds, hingests]
    rfl
  · have hdocument : input.document = some doc := by
      rw [DrepUpsert.document, h, Option.bind_some, hattempt]
    have hingests : setup.ingests input existing = setup.inlineHash doc := by
      rw [DrepSyncSetup.ingests, hany, hholds, if_neg Bool.false_ne_true, hdocument,
        Option.bind_some]
    rw [resolveProfile_fetched_ok h hholds hattempt, hingests]
    rfl
  · have hdocument : input.document = none := by
      rw [DrepUpsert.document, h, Option.bind_some]
      split
      · exact absurd ‹_› (hattempt _)
      · rfl
    have hingests : setup.ingests input existing = none := by
      rw [DrepSyncSetup.ingests, hdocument, Option.bind_none, ite_self]
    rw [resolveProfile_kept h hholds hattempt, hingests]
    rfl

/-- The process is one that can come about: only the images of DReps are adopted. -/
def AvatarProc.Proper : AvatarProc δ → Prop
  | .storing ⟨owner, _, .setting _ _ none _ _⟩ => owner = .drep
  | _ => True

/-- What a step of a writer does: it names at most what it holds, in time, and for a pool only what
was put; it puts at most what it is about to put; and it holds then at most what a row names, what
it has found, or what it has put. -/
structure AvatarWrites (setup : DrepSyncSetup δ) (parseUrl : String → Option ImageUrl)
    (w w' : BucketWorld) (p p' : AvatarProc δ) : Prop where
  clock : w'.clockMs = w.clockMs
  dreps : ∀ hash ∈ listReferencedImageHashes w'.dreps, hash ∈ listReferencedImageHashes w.dreps ∨
    ∃ putAt, p.holds setup = some (hash, putAt) ∧ w.InTime putAt
  pools : ∀ hash ∈ listReferencedPoolImageHashes w'.pools,
    hash ∈ listReferencedPoolImageHashes w.pools ∨
      ∃ time, p.holds setup = some (hash, some time) ∧ w.InTime (some time)
  bucket : w'.bucket = w.bucket ∨
    ∃ hash, p.puts setup = some hash ∧ w'.bucket = w.bucket.put (avatarKey hash) w.clockMs
  holds : ∀ hash putAt, p'.holds setup = some (hash, putAt) →
    putAt = none ∧ (hash ∈ listReferencedImageHashes w.dreps ∨
      p.adopts parseUrl = some hash ∧ w.bucket.Has (avatarKey hash)) ∨
    putAt = some w.clockMs ∧ p.puts setup = some hash ∧
      w'.bucket = w.bucket.put (avatarKey hash) w.clockMs
  proper : p'.Proper

theorem AvatarWrites.of_names {p p' : AvatarProc δ} (hclock : w'.clockMs = w.clockMs)
    (hbucket : w'.bucket = w.bucket) (hnames : w.Names w' none none)
    (hholds : p'.holds setup = none) (hproper : p'.Proper) :
    AvatarWrites setup parseUrl w w' p p' where
  clock := hclock
  dreps hash h := (hnames.dreps hash h).imp_right nofun
  pools hash h := (hnames.pools hash h).imp_right nofun
  bucket := .inl hbucket
  holds _ _ h := absurd (h.symm.trans hholds) (Option.some_ne_none _)
  proper := hproper

theorem AvatarWrites.same {p p' : AvatarProc δ} (hholds : p'.holds setup = none)
    (hproper : p'.Proper) : AvatarWrites setup parseUrl w w p p' :=
  .of_names rfl rfl (.refl w) hholds hproper

theorem AvatarWrites.of_put {p p' : AvatarProc δ} {hash : String} (hputs : p.puts setup = some hash)
    (hholds : p'.holds setup = some (hash, some w.clockMs)) (hproper : p'.Proper) :
    AvatarWrites setup parseUrl w (w.putAvatar hash) p p' where
  clock := rfl
  dreps _ h := .inl h
  pools _ h := .inl h
  bucket := .inr ⟨hash, hputs, rfl⟩
  holds hash' putAt h := by
    cases hholds.symm.trans h
    exact .inr ⟨rfl, hputs, rfl⟩
  proper := hproper

theorem storeRow_cases (w : BucketWorld) (owner : AvatarOwner) (image : Option String)
    (row : AvatarSource) (todo : List AvatarSource) (failedIds : List String) :
    let stage := storeRow parseUrl w owner image row todo failedIds
    stage = .storing todo (failedIds ++ [row.id]) ∨
      (∃ hash, adopted parseUrl owner row = some hash ∧ w.bucket.Has (avatarKey hash) ∧
        stage = .setting row hash none todo failedIds) ∨
      ∃ hash, image = some hash ∧ stage = .putting row hash todo failedIds := by
  intro stage
  by_cases hself : (selfHostedRef parseUrl row.imageUrl).isSome
  · rcases hadopted : adopted parseUrl owner row with _ | hash
    · exact .inl (by simp [stage, storeRow, hself, hadopted])
    by_cases hhas : w.bucket.Has (avatarKey hash)
    · exact .inr (.inl ⟨hash, rfl, hhas, by simp [stage, storeRow, hself, hadopted, hhas]⟩)
    · exact .inl (by simp [stage, storeRow, hself, hadopted, hhas])
  · rcases image with _ | hash
    · exact .inl (by simp [stage, storeRow, hself])
    · exact .inr (.inr ⟨hash, rfl, by simp [stage, storeRow, hself]⟩)

theorem writes_storeStep {p p' : StorePass}
    (hproper : AvatarProc.Proper (δ := δ) (.storing p))
    (h : storeStep parseUrl event w p = some (w', p')) :
    AvatarWrites setup parseUrl w w' (.storing p) (.storing p') := by
  obtain ⟨owner, nowMs, stage⟩ := p
  dsimp only [storeStep] at h
  split at h
  · cases h
    refine .of_names ?_ ?_ (names_clearOrphaned w owner) rfl trivial <;> cases owner <;> rfl
  · cases h
    exact .same rfl trivial
  · cases h
    refine .of_names ?_ ?_ (names_markImageFetchFailed w _ nowMs owner) rfl trivial <;>
      cases owner <;> rfl
  · cases h
    rename_i row todo failedIds image
    rcases storeRow_cases w owner image row todo failedIds with
      hstage | ⟨hash, hadopts, hhas, hstage⟩ | ⟨hash, -, hstage⟩ <;> rw [hstage]
    · exact .same rfl trivial
    · have howner : owner = .drep := by
        by_contra hother
        rcases owner with _ | _
        · exact hother rfl
        · exact nomatch hadopts
      refine ⟨rfl, fun _ h => .inl h, fun _ h => .inl h, .inl rfl, fun hash' putAt hholds => ?_,
        howner⟩
      left
      cases hholds
      exact ⟨rfl, .inr ⟨hadopts, hhas⟩⟩
    · exact .same rfl trivial
  · cases h
    exact .of_put rfl rfl trivial
  · split_ifs at h with htime
    cases h
    rename_i row hash putAt todo failedIds
    have hnames := names_setImageStored w row hash owner
    refine ⟨by cases owner <;> rfl, fun hash' h => ?_, fun hash' h => ?_,
      .inl (by cases owner <;> rfl), nofun, trivial⟩
    · refine (hnames.dreps hash' h).imp_right fun hnew => ?_
      exact ⟨putAt, by rw [← Option.some.inj hnew]; rfl, htime⟩
    · refine (hnames.pools hash' h).imp_right fun hnew => ?_
      split_ifs at hnew with howner
      cases hnew
      rcases putAt with _ | time
      · cases howner.symm.trans hproper
      · exact ⟨time, rfl, htime⟩
  · cases h
    exact .same rfl trivial
  · cases h
    exact .same rfl trivial
  · cases h
    exact .same rfl trivial
  · exact nomatch h

theorem writes_syncAvatarStep {p p' : AvatarSync δ}
    (h : syncAvatarStep setup event w p = some (w', p')) :
    AvatarWrites setup parseUrl w w' (.syncing p) (.syncing p') := by
  obtain ⟨input, stage⟩ := p
  dsimp only [syncAvatarStep] at h
  split at h
  · cases h
    split_ifs with hingests
    · exact .same rfl trivial
    · -- the hash that will be written back was read
      refine ⟨rfl, fun _ h => .inl h, fun _ h => .inl h, .inl rfl, fun hash putAt hholds => .inl ?_,
        trivial⟩
      obtain ⟨hash', hrow, hpair⟩ := Option.map_eq_some_iff.mp hholds
      cases hpair
      rw [imageContentHash_row, Option.not_isSome_iff_eq_none.mp hingests] at hrow
      obtain ⟨row, hrow, hhash⟩ := Option.bind_eq_some_iff.mp hrow
      exact ⟨rfl, .inl (List.mem_filterMap.mpr ⟨row, (drepById_eq_some.mp hrow).1, hhash⟩)⟩
  · obtain ⟨hash, hingests, hpair⟩ := Option.map_eq_some_iff.mp h
    cases hpair
    refine .of_put hingests (Option.map_eq_some_iff.mpr ⟨hash, ?_, rfl⟩) trivial
    rw [imageContentHash_row, hingests]
    rfl
  · cases h
    exact .same rfl trivial
  · split_ifs at h with htime
    cases h
    refine ⟨rfl, fun hash h => ?_, fun _ h => .inl h, .inl rfl,
      fun _ _ h => (by cases h), trivial⟩
    rw [syncDrepRow] at h
    split_ifs at h
    · refine (named_upsert h).imp_right fun hhash => ?_
      exact ⟨_, Option.map_eq_some_iff.mpr ⟨hash, hhash, rfl⟩, htime⟩
    · exact .inl h
  · cases h

end Writers

end DrepTalk
