import DrepTalk.Dreps.Sync
import DrepTalk.Library.BudgetedRounds

/-!
# Repeated runs of the sync

Runs of `syncDreps` (`src/lib/dreps/sync.ts`) over one chain answer. The budget of a run is spent in
the order of the enumeration, and an anchor that has failed is fetched again in the next run: the
runs are rounds with a budget, in which the DReps with failing anchors are stuck
(`syncRuns_budgeted`).

**The fixed point** (`syncRuns_settle_iff`). The profiles settle, and runs stop to write, iff fewer
failing anchors than the budget stand before each DRep whose profile is still to be fetched. The
number of runs grows with what the failing ones leave of the budget.
-/

namespace DrepTalk

section Row

variable {δ : Type*} {setup : DrepSyncSetup δ} {run run' : DrepSyncRun δ} {info : DrepInfo}
  {metaUrl metaHash : String} {existing : Option StoredDrep} {canFetch : Bool}

/-! ### The profile, case by case -/

theorem resolveProfile_unanchored (h : info.anchor = none) :
    (resolveProfile setup run info existing canFetch).1 = unanchoredProfile existing := by
  rw [resolveProfile, h]

variable {row : StoredDrep}

theorem resolveProfile_holds (h : info.anchor = some (metaUrl, metaHash))
    (hholds : row.holds metaHash = true) :
    (resolveProfile setup run info (some row) canFetch).1 =
      { row.toResolvedProfile with
        anchorUrl := some metaUrl
        anchorHash := some metaHash
        anchorStatus := .ok
        profileExtractVersion := PROFILE_EXTRACT_VERSION } := by
  have hfilter : (some row).filter (·.holds metaHash) = some row := by
    rw [filter_holds, if_pos (by simpa using hholds)]
  simp only [resolveProfile, h, hfilter]

def DrepSyncRun.attempt (run : DrepSyncRun δ) (metaUrl metaHash : String) (canFetch : Bool) :
    Option (AnchorDocResult δ) :=
  if canFetch then some (run.fetchAnchorDoc metaUrl metaHash) else none

theorem resolveProfile_fetched_ok {doc : δ} (h : info.anchor = some (metaUrl, metaHash))
    (hholds : existing.any (·.holds metaHash) = false)
    (hattempt : run.attempt metaUrl metaHash canFetch = some (.ok doc)) :
    (resolveProfile setup run info existing canFetch).1 =
      setup.extracted existing metaUrl metaHash doc := by
  rw [DrepSyncRun.attempt] at hattempt
  simp only [resolveProfile, h, filter_holds, hholds, Bool.false_eq_true, if_false, hattempt]

/-- The status of an attempt without a document. -/
def statusWithout : Option (AnchorDocResult δ) → DrepAnchorStatus
  | some (.missed miss) => .missed miss
  | _ => .deferred

theorem resolveProfile_kept (h : info.anchor = some (metaUrl, metaHash))
    (hholds : existing.any (·.holds metaHash) = false)
    (hattempt : ∀ doc, run.attempt metaUrl metaHash canFetch ≠ some (.ok doc)) :
    (resolveProfile setup run info existing canFetch).1 =
      keptProfile existing metaUrl metaHash
        (statusWithout (run.attempt metaUrl metaHash canFetch)) := by
  rw [DrepSyncRun.attempt] at hattempt ⊢
  simp only [resolveProfile, h, filter_holds, hholds, Bool.false_eq_true, if_false]
  split
  · exact absurd ‹_› (hattempt _)
  · simp [*, statusWithout]
  · simp [*, statusWithout]

/-! ### What a run leaves of a row -/

/-- The row shows a resolved profile, up to the source of its avatar. -/
structure StoredDrep.Shows (row : StoredDrep) (profile : ResolvedProfile) : Prop where
  text : row.toProfileText = profile.toProfileText
  imageUrl : row.imageUrl = profile.imageUrl
  imageContentHash : row.imageContentHash = profile.imageContentHash
  anchorUrl : row.anchorUrl = profile.anchorUrl
  anchorHash : row.anchorHash = profile.anchorHash
  anchorStatus : row.anchorStatus = profile.anchorStatus
  profileExtractVersion : row.profileExtractVersion = profile.profileExtractVersion

theorem shows_next : (setup.next run info existing canFetch).Shows
    (resolveProfile setup run info existing canFetch).1 := by
  have hsame : (setup.row run info existing canFetch).SameAs
      (setup.next run info existing canFetch).toDrep := sameAs_next info existing canFetch
  exact ⟨hsame.text.symm, hsame.imageUrl.symm, hsame.imageContentHash.symm, hsame.anchorUrl.symm,
    hsame.anchorHash.symm, hsame.anchorStatus.symm, hsame.profileExtractVersion.symm⟩

theorem holds_eq_true : row.holds metaHash = true ↔
    row.anchorHash = some metaHash ∧ row.anchorStatus = .ok ∧
      row.profileExtractVersion = PROFILE_EXTRACT_VERSION := by
  simp only [StoredDrep.holds, Bool.and_eq_true, beq_iff_eq, and_assoc]

theorem holds_next (h : info.anchor = some (metaUrl, metaHash))
    (hholds : row.holds metaHash = true) :
    (setup.next run info (some row) canFetch).holds metaHash = true ∧
      (setup.next run info (some row) canFetch).toProfileText = row.toProfileText ∧
        (setup.next run info (some row) canFetch).imageUrl = row.imageUrl := by
  have hshows : (setup.next run info (some row) canFetch).Shows _ := shows_next
  rw [resolveProfile_holds h hholds] at hshows
  exact ⟨holds_eq_true.mpr ⟨hshows.anchorHash, hshows.anchorStatus, hshows.profileExtractVersion⟩,
    hshows.text, hshows.imageUrl⟩

theorem holds_next_of_fetched {doc : δ} (h : info.anchor = some (metaUrl, metaHash))
    (hholds : existing.any (·.holds metaHash) = false)
    (hattempt : run.attempt metaUrl metaHash canFetch = some (.ok doc)) :
    (setup.next run info existing canFetch).holds metaHash = true ∧
      (setup.next run info existing canFetch).toProfileText =
        (setup.extractCip119Profile doc).toProfileText ∧
      (setup.next run info existing canFetch).imageUrl =
        (setup.extractCip119Profile doc).imageUrl := by
  have hshows : (setup.next run info existing canFetch).Shows _ := shows_next
  rw [resolveProfile_fetched_ok h hholds hattempt] at hshows
  exact ⟨holds_eq_true.mpr ⟨hshows.anchorHash, hshows.anchorStatus, hshows.profileExtractVersion⟩,
    hshows.text, hshows.imageUrl⟩

theorem not_holds_next (h : info.anchor = some (metaUrl, metaHash))
    (hholds : existing.any (·.holds metaHash) = false)
    (hattempt : ∀ doc, run.attempt metaUrl metaHash canFetch ≠ some (.ok doc)) :
    (setup.next run info existing canFetch).holds metaHash = false := by
  have hshows : (setup.next run info existing canFetch).Shows _ := shows_next
  rw [resolveProfile_kept h hholds hattempt] at hshows
  refine Bool.eq_false_iff.mpr fun hnext => ?_
  have hstatus := hshows.anchorStatus.symm.trans (holds_eq_true.mp hnext).2.1
  rcases hresult : run.attempt metaUrl metaHash canFetch with _ | doc | miss
  · exact absurd (hresult ▸ hstatus) (by simp [keptProfile, statusWithout])
  · exact hattempt doc hresult
  · exact absurd (hresult ▸ hstatus) (by simp [keptProfile, statusWithout])

theorem attempt_cases (existing : Option StoredDrep) (run : DrepSyncRun δ)
    (metaUrl metaHash : String) (canFetch : Bool) :
    (∃ row, existing = some row ∧ row.holds metaHash = true) ∨
      existing.any (·.holds metaHash) = false ∧
        ((∃ doc, run.attempt metaUrl metaHash canFetch = some (.ok doc)) ∨
          ∀ doc, run.attempt metaUrl metaHash canFetch ≠ some (.ok doc)) := by
  rcases hany : existing.any (·.holds metaHash) with _ | _
  · refine .inr ⟨hany, ?_⟩
    by_cases hdoc : ∃ doc, run.attempt metaUrl metaHash canFetch = some (.ok doc)
    · exact .inl hdoc
    · exact .inr (not_exists.mp hdoc)
  · obtain ⟨row, hrow, hholds⟩ := (Option.any_eq_true _ _).mp hany
    exact .inl ⟨row, hrow, hholds⟩

theorem anchorUrl_next (h : info.anchor = some (metaUrl, metaHash)) :
    (setup.next run info existing canFetch).anchorUrl = some metaUrl := by
  have hshows : (setup.next run info existing canFetch).Shows _ := shows_next
  rcases attempt_cases existing run metaUrl metaHash canFetch with
    ⟨row, rfl, hholds⟩ | ⟨hholds, ⟨doc, hattempt⟩ | hattempt⟩
  · rw [resolveProfile_holds h hholds] at hshows
    exact hshows.anchorUrl
  · rw [resolveProfile_fetched_ok h hholds hattempt] at hshows
    exact hshows.anchorUrl
  · rw [resolveProfile_kept h hholds hattempt] at hshows
    exact hshows.anchorUrl

/-- **Again.** A run that finds the row as another one has left it, with the same budget and the
same answer, does not see it change. -/
theorem hasChanged_again {canFetch : Bool} (hanswer : ∀ metaUrl metaHash,
      info.anchor = some (metaUrl, metaHash) →
        run.fetchAnchorDoc metaUrl metaHash = run'.fetchAnchorDoc metaUrl metaHash) :
    let after := some (setup.next run info existing canFetch)
    hasChanged (setup.row run' info after canFetch) after = false := by
  intro after
  have hsame : (setup.row run info existing canFetch).SameAs
      (setup.next run info existing canFetch).toDrep := sameAs_next info existing canFetch
  have hshows : (setup.next run info existing canFetch).Shows _ := shows_next
  suffices hprofile : (setup.next run info existing canFetch).Shows
      (resolveProfile setup run' info after canFetch).1 by
    refine differs_eq_false.mpr ⟨hsame.status, hsame.active, hsame.deposit, hsame.votingPower, ?_,
      hsame.expiresEpochNo, hprofile.text.symm, hprofile.imageUrl.symm,
      hprofile.imageContentHash.symm, hprofile.anchorUrl.symm, hprofile.anchorHash.symm,
      hprofile.anchorStatus.symm, hprofile.profileExtractVersion.symm⟩
    have hcount := hsame.delegatorCount
    change (info.liveDelegatorCount <|> existing.bind (·.delegatorCount)) =
      (setup.next run info existing canFetch).delegatorCount at hcount
    change (info.liveDelegatorCount <|> (setup.next run info existing canFetch).delegatorCount) = _
    rw [← hcount]
    rcases info.liveDelegatorCount with _ | count <;> rfl
  rcases h : info.anchor with _ | ⟨metaUrl, metaHash⟩
  · rw [resolveProfile_unanchored h] at hshows ⊢
    exact ⟨hshows.text, hshows.imageUrl, rfl, hshows.anchorUrl, hshows.anchorHash,
      hshows.anchorStatus, hshows.profileExtractVersion⟩
  · rcases hholds : (setup.next run info existing canFetch).holds metaHash with _ | _
    · -- what has not been fetched then is not fetched now
      rcases attempt_cases existing run metaUrl metaHash canFetch with
        ⟨row, rfl, hrow⟩ | ⟨hany, ⟨doc, hattempt⟩ | hattempt⟩
      · cases hholds.symm.trans (holds_next h hrow).1
      · exact absurd (hholds.symm.trans (holds_next_of_fetched h hany hattempt).1)
          Bool.false_ne_true
      · have hsameAttempt : run'.attempt metaUrl metaHash canFetch =
            run.attempt metaUrl metaHash canFetch := by
          rw [DrepSyncRun.attempt, DrepSyncRun.attempt, hanswer metaUrl metaHash h]
        rw [resolveProfile_kept h hany hattempt] at hshows
        rw [resolveProfile_kept h (by simpa [after] using hholds) (hsameAttempt ▸ hattempt),
          hsameAttempt]
        exact ⟨rfl, rfl, rfl, hshows.anchorUrl, hshows.anchorHash, hshows.anchorStatus, rfl⟩
    · obtain ⟨hhash, hstatus, hversion⟩ := holds_eq_true.mp hholds
      rw [resolveProfile_holds h hholds]
      exact ⟨rfl, rfl, rfl, anchorUrl_next h, hhash, hstatus, hversion⟩

end Row

/-! ### The runs -/

section Runs

variable {δ : Type*} (setup : DrepSyncSetup δ) (runs : ℕ → DrepSyncRun δ) (chain : DrepChain)
  (tables : ℕ → DrepTable)

/-- The tables before each run. What else may have happened in between is about other rows. -/
def SyncRuns : Prop :=
  ∀ k, ∀ info ∈ chain.infos, drepById (tables (k + 1)) info.drepId =
    drepById (syncDreps setup (runs k) chain (tables k)).dreps info.drepId

/-- The anchor verifies in each run, with this document. -/
def Verifies (info : DrepInfo) (doc : δ) : Prop :=
  ∃ metaUrl metaHash, info.anchor = some (metaUrl, metaHash) ∧
    ∀ k, (runs k).fetchAnchorDoc metaUrl metaHash = .ok doc

/-- The anchor fails in each run, each time for a reason of its own. -/
def Fails (info : DrepInfo) : Prop :=
  ∃ metaUrl metaHash, info.anchor = some (metaUrl, metaHash) ∧
    ∀ k, ∃ miss, (runs k).fetchAnchorDoc metaUrl metaHash = .missed miss

/-- Each anchor verifies always, or fails always. -/
def SteadyAnchors : Prop :=
  ∀ info ∈ chain.infos, info.anchor = none ∨ (∃ doc, Verifies runs info doc) ∨ Fails runs info

/-- The profile of the document is stored, for the anchor of the chain and by the current
extraction. -/
def ProfileStored (dreps : DrepTable) (info : DrepInfo) (doc : δ) : Prop :=
  ∃ row metaUrl metaHash, drepById dreps info.drepId = some row ∧
    info.anchor = some (metaUrl, metaHash) ∧ row.anchorStatus = .ok ∧
      row.anchorHash = some metaHash ∧ row.profileExtractVersion = PROFILE_EXTRACT_VERSION ∧
        row.toProfileText = (setup.extractCip119Profile doc).toProfileText ∧
          row.imageUrl = (setup.extractCip119Profile doc).imageUrl

/-- The anchors that fail, fail as in the run before. -/
def SameMisses (k : ℕ) : Prop :=
  0 < k ∧ ∀ info ∈ chain.infos, ∀ metaUrl metaHash, info.anchor = some (metaUrl, metaHash) →
    (runs (k - 1)).fetchAnchorDoc metaUrl metaHash = (runs k).fetchAnchorDoc metaUrl metaHash

/-- From this run on, all profiles are stored and nothing is written. -/
def SettledFrom (k : ℕ) : Prop :=
  ∀ k', k ≤ k' →
    (∀ info ∈ chain.infos, ∀ doc, Verifies runs info doc →
      ProfileStored setup (tables k') info doc) ∧
    (SameMisses runs chain k' → (syncDreps setup (runs k') chain (tables k')).updated = 0)

/-- The anchor fails, and its profile is not there from before. -/
def stuckAnchor (info : DrepInfo) : Bool :=
  info.needsFetchIn (tables 0) &&
    !info.anchor.any fun anchor =>
      match (runs 0).fetchAnchorDoc anchor.1 anchor.2 with
      | .ok _ => true
      | .missed _ => false

/-- In front of a profile that has to be fetched at first there are at most this many that fail. -/
def BlockedBy (n : ℕ) : Prop :=
  ∀ before info behind, chain.infos = before ++ info :: behind → ∀ doc, Verifies runs info doc →
    info.needsFetchIn (tables 0) = true → before.countP (stuckAnchor runs tables) ≤ n

/-- A profile that needs no fetch at first is that of its document. -/
def TrueAtStart : Prop :=
  ∀ info ∈ chain.infos, ∀ doc, Verifies runs info doc → info.needsFetchIn (tables 0) = false →
    ProfileStored setup (tables 0) info doc

variable {setup runs chain tables}

theorem needsFetchIn_eq_true {dreps : DrepTable} {info : DrepInfo} :
    info.needsFetchIn dreps = true ↔ ∃ metaUrl metaHash, info.anchor = some (metaUrl, metaHash) ∧
      (drepById dreps info.drepId).any (·.holds metaHash) = false := by
  rw [DrepInfo.needsFetchIn, DrepInfo.needsFetch]
  rcases info.anchor with _ | ⟨metaUrl, metaHash⟩ <;> simp

variable {before behind : List DrepInfo} {k : ℕ}

theorem drepById_succ (hruns : SyncRuns setup runs chain tables) (k : ℕ) {info : DrepInfo}
    (hinfos : chain.infos = before ++ info :: behind) :
    drepById (tables (k + 1)) info.drepId =
      some (setup.next (runs k) info (drepById (tables k) info.drepId)
        (decide (before.countP (DrepInfo.needsFetchIn (tables k)) < setup.maxAnchorFetches))) := by
  rw [hruns k info (hinfos ▸ List.mem_append_right before List.mem_cons_self)]
  exact drepById_syncDreps (tables k) hinfos

theorem stuckAnchor_of_verifies {info : DrepInfo} {doc : δ} (h : Verifies runs info doc) :
    stuckAnchor runs tables info = false := by
  obtain ⟨metaUrl, metaHash, hanchor, hfetch⟩ := h
  simp [stuckAnchor, hanchor, hfetch 0]

theorem stuckAnchor_of_fails {info : DrepInfo} (h : Fails runs info) :
    stuckAnchor runs tables info = info.needsFetchIn (tables 0) := by
  obtain ⟨metaUrl, metaHash, hanchor, hfetch⟩ := h
  obtain ⟨miss, hmiss⟩ := hfetch 0
  simp [stuckAnchor, hanchor, hmiss]

theorem needsFetchIn_succ_of_some (hruns : SyncRuns setup runs chain tables) {info : DrepInfo}
    {metaUrl metaHash : String} (hinfos : chain.infos = before ++ info :: behind)
    (hanchor : info.anchor = some (metaUrl, metaHash)) :
    info.needsFetchIn (tables (k + 1)) =
      !(setup.next (runs k) info (drepById (tables k) info.drepId)
        (decide (before.countP (DrepInfo.needsFetchIn (tables k)) < setup.maxAnchorFetches))).holds
          metaHash := by
  rw [DrepInfo.needsFetchIn, DrepInfo.needsFetch, drepById_succ hruns k hinfos, hanchor]
  rfl

/-- **The runs are rounds with a budget**, in which the failing anchors are stuck. -/
theorem syncRuns_budgeted (hruns : SyncRuns setup runs chain tables)
    (hsteady : SteadyAnchors runs chain) :
    BudgetedRounds chain.infos setup.maxAnchorFetches (stuckAnchor runs tables)
      fun k info => info.needsFetchIn (tables k) := by
  have hdone : ∀ k info, info ∈ chain.infos → info.needsFetchIn (tables k) = false →
      info.needsFetchIn (tables (k + 1)) = false := by
    intro k info hmem hneeds
    obtain ⟨before, behind, hinfos⟩ := List.append_of_mem hmem
    rcases hanchor : info.anchor with _ | ⟨metaUrl, metaHash⟩
    · rw [DrepInfo.needsFetchIn, DrepInfo.needsFetch, hanchor]
      rfl
    · rw [needsFetchIn_succ_of_some hruns hinfos hanchor, Bool.not_eq_false']
      rcases attempt_cases (drepById (tables k) info.drepId) (runs k) metaUrl metaHash true with
        ⟨row, hrow, hholds⟩ | ⟨hany, -⟩
      · rw [hrow]
        exact (holds_next hanchor hholds).1
      · exact absurd (needsFetchIn_eq_true.mpr ⟨metaUrl, metaHash, hanchor, hany⟩)
          (by simp [hneeds])
  have hkept : ∀ k before info behind, chain.infos = before ++ info :: behind →
      info.needsFetchIn (tables k) = true →
      (Fails runs info ∨
        setup.maxAnchorFetches ≤ before.countP (DrepInfo.needsFetchIn (tables k))) →
      info.needsFetchIn (tables (k + 1)) = true := by
    intro k before info behind hinfos hneeds hwithout
    obtain ⟨metaUrl, metaHash, hanchor, hany⟩ := needsFetchIn_eq_true.mp hneeds
    rw [needsFetchIn_succ_of_some hruns hinfos hanchor, Bool.not_eq_true']
    refine not_holds_next hanchor hany fun doc hattempt => ?_
    rw [DrepSyncRun.attempt] at hattempt
    rcases hwithout with ⟨metaUrl', metaHash', hanchor', hfetch⟩ | hbudget
    · obtain ⟨rfl, rfl⟩ : metaUrl = metaUrl' ∧ metaHash = metaHash' := by
        simpa [hanchor] using hanchor'
      obtain ⟨miss, hmiss⟩ := hfetch k
      split_ifs at hattempt
      simp [hmiss] at hattempt
    · rw [if_neg (by simpa using hbudget)] at hattempt
      cases hattempt
  have hstuck : ∀ info ∈ chain.infos, stuckAnchor runs tables info = true →
      Fails runs info ∧ info.needsFetchIn (tables 0) = true := by
    intro info hmem hs
    rcases hsteady info hmem with hnone | ⟨doc, hverifies⟩ | hfails
    · simp [stuckAnchor, DrepInfo.needsFetchIn, DrepInfo.needsFetch, hnone] at hs
    · cases hs.symm.trans (stuckAnchor_of_verifies hverifies)
    · exact ⟨hfails, stuckAnchor_of_fails hfails ▸ hs⟩
  refine ⟨fun k info hmem hs => ?_, hdone, fun k before info behind hinfos hs hbudget => ?_,
    fun k before info behind hinfos hneeds hbudget =>
      hkept k before info behind hinfos hneeds (.inr hbudget)⟩
  · obtain ⟨hfails, hneeds⟩ := hstuck info hmem hs
    obtain ⟨before, behind, hinfos⟩ := List.append_of_mem hmem
    induction k with
    | zero => exact hneeds
    | succ k ih => exact hkept k before info behind hinfos ih (.inl hfails)
  · have hmem : info ∈ chain.infos := hinfos ▸ List.mem_append_right before List.mem_cons_self
    rcases hneeds : info.needsFetchIn (tables k) with _ | _
    · exact hdone k info hmem hneeds
    · obtain ⟨metaUrl, metaHash, hanchor, hany⟩ := needsFetchIn_eq_true.mp hneeds
      rw [needsFetchIn_succ_of_some hruns hinfos hanchor, Bool.not_eq_false']
      rcases hsteady info hmem with hnone | ⟨doc, metaUrl', metaHash', hanchor', hfetch⟩ | hfails
      · cases hnone.symm.trans hanchor
      · obtain ⟨rfl, rfl⟩ : metaUrl = metaUrl' ∧ metaHash = metaHash' := by
          simpa [hanchor] using hanchor'
        have hattempt : (runs k).attempt metaUrl metaHash (decide
            (before.countP (DrepInfo.needsFetchIn (tables k)) < setup.maxAnchorFetches)) =
              some (.ok doc) := by
          rw [DrepSyncRun.attempt, if_pos (by simpa using hbudget), hfetch k]
        exact (holds_next_of_fetched hanchor hany hattempt).1
      · -- a failing anchor that is not stuck has its profile from before
        rw [stuckAnchor_of_fails hfails] at hs
        have hnever : ∀ k, info.needsFetchIn (tables k) = false := fun k => by
          induction k with
          | zero => exact hs
          | succ k ih => exact hdone k info hmem ih
        cases hneeds.symm.trans (hnever k)

section Steady

variable (hruns : SyncRuns setup runs chain tables)
include hruns

theorem row_of_done {info : DrepInfo} (hmem : info ∈ chain.infos) {metaUrl metaHash : String}
    (hanchor : info.anchor = some (metaUrl, metaHash))
    (hrow : drepById (tables k) info.drepId = some row) (hholds : row.holds metaHash = true) :
    ∃ row', drepById (tables (k + 1)) info.drepId = some row' ∧ row'.holds metaHash = true ∧
      row'.toProfileText = row.toProfileText ∧ row'.imageUrl = row.imageUrl := by
  obtain ⟨before, behind, hinfos⟩ := List.append_of_mem hmem
  have hnext := drepById_succ hruns k hinfos
  rw [hrow] at hnext
  exact ⟨_, hnext, holds_next hanchor hholds⟩

theorem row_of_done_at_start {info : DrepInfo} (hmem : info ∈ chain.infos)
    {metaUrl metaHash : String} (hanchor : info.anchor = some (metaUrl, metaHash))
    (hrow : drepById (tables 0) info.drepId = some row) (hholds : row.holds metaHash = true)
    (k : ℕ) :
    ∃ row', drepById (tables k) info.drepId = some row' ∧ row'.holds metaHash = true ∧
      row'.toProfileText = row.toProfileText ∧ row'.imageUrl = row.imageUrl := by
  induction k with
  | zero => exact ⟨row, hrow, hholds, rfl, rfl⟩
  | succ k ih =>
    obtain ⟨row', hrow', hholds', htext, himage⟩ := ih
    obtain ⟨row'', hrow'', hholds'', htext', himage'⟩ :=
      row_of_done hruns hmem hanchor hrow' hholds'
    exact ⟨row'', hrow'', hholds'', htext'.trans htext, himage'.trans himage⟩

variable (hsteady : SteadyAnchors runs chain)

theorem updated_of_drained (hdrained : ∀ k', k ≤ k' → ∀ info ∈ chain.infos,
      info.needsFetchIn (tables k') = stuckAnchor runs tables info)
    (hmisses : SameMisses runs chain (k + 1)) :
    (syncDreps setup (runs (k + 1)) chain (tables (k + 1))).updated = 0 := by
  refine updated_syncDreps fun before info behind hinfos => ?_
  have hmem : info ∈ chain.infos := hinfos ▸ List.mem_append_right before List.mem_cons_self
  have hcount : before.countP (DrepInfo.needsFetchIn (tables (k + 1))) =
      before.countP (DrepInfo.needsFetchIn (tables k)) := by
    refine List.countP_congr fun i hi => ?_
    have himem : i ∈ chain.infos := hinfos ▸ List.mem_append_left _ hi
    rw [hdrained (k + 1) (Nat.le_succ k) i himem, hdrained k le_rfl i himem]
  rw [drepById_succ hruns k hinfos, hcount]
  exact hasChanged_again fun metaUrl metaHash hanchor => hmisses.2 info hmem metaUrl metaHash hanchor

include hsteady

theorem profileStored_of_done (hstart : TrueAtStart setup runs chain tables) {info : DrepInfo}
    (hmem : info ∈ chain.infos) {doc : δ} (hverifies : Verifies runs info doc)
    (hdone : info.needsFetchIn (tables k) = false) : ProfileStored setup (tables k) info doc := by
  induction k with
  | zero => exact hstart info hmem doc hverifies hdone
  | succ k ih =>
    obtain ⟨metaUrl, metaHash, hanchor, hfetch⟩ := hverifies
    rcases hneeds : info.needsFetchIn (tables k) with _ | _
    · obtain ⟨row, metaUrl', metaHash', hrow, hanchor', hstatus, hhash, hversion, htext, himage⟩ :=
        ih hneeds
      have hholds := holds_eq_true.mpr ⟨hhash, hstatus, hversion⟩
      obtain ⟨row', hrow', hholds', htext', himage'⟩ :=
        row_of_done hruns hmem hanchor' hrow hholds
      obtain ⟨hhash', hstatus', hversion'⟩ := holds_eq_true.mp hholds'
      exact ⟨row', metaUrl', metaHash', hrow', hanchor', hstatus', hhash', hversion',
        htext'.trans htext, himage'.trans himage⟩
    · -- the run before has fetched the document
      obtain ⟨before, behind, hinfos⟩ := List.append_of_mem hmem
      obtain ⟨metaUrl', metaHash', hanchor', hany⟩ := needsFetchIn_eq_true.mp hneeds
      obtain ⟨rfl, rfl⟩ : metaUrl = metaUrl' ∧ metaHash = metaHash' := by
        simpa [hanchor] using hanchor'
      have hbudget : before.countP (DrepInfo.needsFetchIn (tables k)) < setup.maxAnchorFetches := by
        by_contra hle
        have hunserved := (syncRuns_budgeted hruns hsteady).unserved k before info behind hinfos
          hneeds (not_lt.mp hle)
        cases hdone.symm.trans hunserved
      have hattempt : (runs k).attempt metaUrl metaHash (decide
          (before.countP (DrepInfo.needsFetchIn (tables k)) < setup.maxAnchorFetches)) =
            some (.ok doc) := by
        rw [DrepSyncRun.attempt, if_pos (decide_eq_true hbudget), hfetch k]
      obtain ⟨hholds, htext, himage⟩ := holds_next_of_fetched hanchor hany hattempt
      obtain ⟨hhash, hstatus, hversion⟩ := holds_eq_true.mp hholds
      exact ⟨_, metaUrl, metaHash, drepById_succ hruns k hinfos, hanchor, hstatus, hhash, hversion,
        htext, himage⟩

end Steady

theorem length_infos (chain : DrepChain) :
    chain.infos.length = (enumerateRegistered chain.drepList).length := by
  simpa using (drepIds_infos chain).length_eq

theorem settledFrom_of_blockedBy (hruns : SyncRuns setup runs chain tables)
    (hsteady : SteadyAnchors runs chain) (hstart : TrueAtStart setup runs chain tables) {n : ℕ}
    (hn : n < setup.maxAnchorFetches) (hblocked : BlockedBy runs chain tables n) :
    SettledFrom setup runs chain tables
      ((enumerateRegistered chain.drepList).length / (setup.maxAnchorFetches - n) + 2) := by
  have hrounds := syncRuns_budgeted hruns hsteady
  have hopen : ∀ before info behind, chain.infos = before ++ info :: behind →
      BudgetedRounds.isOpen (stuckAnchor runs tables)
        (fun k info => DrepInfo.needsFetchIn (tables k) info) 0 info = true →
      before.countP (stuckAnchor runs tables) ≤ n := by
    intro before info behind hinfos hopen
    obtain ⟨hneeds, hstuck⟩ := BudgetedRounds.isOpen_eq_true.mp hopen
    have hmem : info ∈ chain.infos := hinfos ▸ List.mem_append_right before List.mem_cons_self
    rcases hsteady info hmem with hnone | ⟨doc, hverifies⟩ | hfails
    · simp [DrepInfo.needsFetchIn, DrepInfo.needsFetch, hnone] at hneeds
    · exact hblocked before info behind hinfos doc hverifies hneeds
    · rw [stuckAnchor_of_fails hfails] at hstuck
      cases hneeds.symm.trans hstuck
  rw [← length_infos chain]
  intro k' hk'
  rcases k' with _ | k
  · cases hk'
  have hdrained : ∀ k', k ≤ k' → ∀ info ∈ chain.infos,
      info.needsFetchIn (tables k') = stuckAnchor runs tables info := fun k' hle info hmem =>
    hrounds.drained hopen hn (by omega) hmem
  refine ⟨fun info hmem doc hverifies => ?_, fun hmisses =>
    updated_of_drained hruns hdrained hmisses⟩
  refine profileStored_of_done hruns hsteady hstart hmem hverifies ?_
  rw [hdrained (k + 1) (Nat.le_succ k) info hmem, stuckAnchor_of_verifies hverifies]

theorem trueAtStart_of_settledFrom (hruns : SyncRuns setup runs chain tables)
    (hsettled : SettledFrom setup runs chain tables k) : TrueAtStart setup runs chain tables := by
  intro info hmem doc hverifies hdone
  obtain ⟨metaUrl, metaHash, hanchor, -⟩ := id hverifies
  obtain ⟨row, hrow, hholds⟩ : ∃ row, drepById (tables 0) info.drepId = some row ∧
      row.holds metaHash = true := by
    refine (Option.any_eq_true _ _).mp ?_
    simpa [DrepInfo.needsFetchIn, DrepInfo.needsFetch, hanchor] using hdone
  -- what the runs have left alone was true before
  obtain ⟨row', hrow', hholds', htext, himage⟩ :=
    row_of_done_at_start hruns hmem hanchor hrow hholds k
  obtain ⟨found, _, _, hfound, -, -, -, -, htrue, htrueImage⟩ :=
    (hsettled k le_rfl).1 info hmem doc hverifies
  obtain rfl : row' = found := Option.some.inj (hrow'.symm.trans hfound)
  obtain ⟨hhash, hstatus, hversion⟩ := holds_eq_true.mp hholds
  exact ⟨row, metaUrl, metaHash, hrow, hanchor, hstatus, hhash, hversion,
    htext.symm.trans htrue, himage.symm.trans htrueImage⟩

theorem not_profileStored_of_blocked (hruns : SyncRuns setup runs chain tables)
    (hsteady : SteadyAnchors runs chain) {info : DrepInfo}
    (hinfos : chain.infos = before ++ info :: behind) (hneeds : info.needsFetchIn (tables 0) = true)
    (hblocked : setup.maxAnchorFetches ≤ before.countP (stuckAnchor runs tables)) (k : ℕ)
    (doc : δ) : ¬ProfileStored setup (tables k) info doc := by
  rintro ⟨row, metaUrl, metaHash, hrow, hanchor, hstatus, hhash, hversion, -⟩
  have hstarved := (syncRuns_budgeted hruns hsteady).starved hinfos hneeds hblocked k
  obtain ⟨metaUrl', metaHash', hanchor', hany⟩ := needsFetchIn_eq_true.mp hstarved
  obtain ⟨rfl, rfl⟩ : metaUrl = metaUrl' ∧ metaHash = metaHash' := by
    simpa [hanchor] using hanchor'
  have hholds : row.holds metaHash = true := holds_eq_true.mpr ⟨hhash, hstatus, hversion⟩
  rw [hrow, Option.any_some, hholds] at hany
  exact nomatch hany

end Runs

/-- **The fixed point.** The runs settle iff fewer failing anchors than the budget stand before each
profile that has to be fetched at first, and those that need no fetch are true. -/
theorem syncRuns_settle_iff {δ : Type*} {setup : DrepSyncSetup δ} {runs : ℕ → DrepSyncRun δ}
    {chain : DrepChain} {tables : ℕ → DrepTable} (hM : 1 ≤ setup.maxAnchorFetches)
    (hruns : SyncRuns setup runs chain tables) (hsteady : SteadyAnchors runs chain) :
    ((∃ k, SettledFrom setup runs chain tables k) ↔
      TrueAtStart setup runs chain tables ∧
        BlockedBy runs chain tables (setup.maxAnchorFetches - 1)) ∧
    (TrueAtStart setup runs chain tables → ∀ n < setup.maxAnchorFetches,
      BlockedBy runs chain tables n → SettledFrom setup runs chain tables
        ((enumerateRegistered chain.drepList).length / (setup.maxAnchorFetches - n) + 2)) := by
  refine ⟨⟨?_, fun ⟨hstart, hblocked⟩ => ⟨_, settledFrom_of_blockedBy hruns hsteady hstart
    (by omega) hblocked⟩⟩, fun hstart n hn hblocked =>
      settledFrom_of_blockedBy hruns hsteady hstart hn hblocked⟩
  rintro ⟨k, hsettled⟩
  refine ⟨trueAtStart_of_settledFrom hruns hsettled,
    fun before info behind hinfos doc hverifies hneeds => ?_⟩
  have hmem : info ∈ chain.infos := hinfos ▸ List.mem_append_right before List.mem_cons_self
  by_contra hblocked
  exact not_profileStored_of_blocked hruns hsteady hinfos hneeds (by omega) k doc
    ((hsettled k le_rfl).1 info hmem doc hverifies)

/-- Documents that all say the same, one fetch in a run. -/
def sampleSync : DrepSyncSetup Unit where
  extractCip119Profile _ := ⟨{ ProfileText.blank with name := some "Ada" }, none, none, none⟩
  ingestDataUriAvatar := none
  maxAnchorFetches := 1

def sampleSyncRun : DrepSyncRun Unit where
  fetchAnchorDoc metaUrl _ := if metaUrl = "bad" then .missed .fetch_failed else .ok ()
  now := 1000

def sampleInfo (drepId : String) : DrepInfo where
  drepId := drepId
  hex := none
  hasScript := false
  drepStatus := "registered"
  active := true
  deposit := none
  amount := some "1"
  expiresEpochNo := none
  liveDelegatorCount := none
  metaUrl := some drepId
  metaHash := some drepId

def sampleChain (first second : String) (h : first ≠ second) : DrepChain where
  drepList := [⟨first, true⟩, ⟨second, true⟩]
  drepInfoBatch ids := ids.map sampleInfo
  list_unique := by simpa using h
  answers ids _ := by
    rw [List.map_map]
    exact .of_eq (List.map_id' ids)

def sampleTables (chain : DrepChain) : ℕ → DrepTable
  | 0 => .empty
  | k + 1 => (syncDreps sampleSync sampleSyncRun chain (sampleTables chain k)).dreps

theorem infos_sampleChain {first second : String} (h : first ≠ second) :
    (sampleChain first second h).infos = [sampleInfo first, sampleInfo second] := by
  simp [DrepChain.infos, DrepChain.infoChunks, enumerateRegistered, sampleChain, chunk, CHUNK_SIZE]

theorem syncRuns_sample (chain : DrepChain) :
    SyncRuns sampleSync (fun _ => sampleSyncRun) chain (sampleTables chain) := fun _ _ _ => rfl

theorem steadyAnchors_sample {first second : String} (h : first ≠ second) (hfirst : first ≠ "")
    (hsecond : second ≠ "") :
    SteadyAnchors (fun _ => sampleSyncRun) (sampleChain first second h) := by
  have hanchor : ∀ id, id ≠ "" → (sampleInfo id).anchor = some (id, id) := fun id hid => by
    simp [DrepInfo.anchor, sampleInfo, hid]
  have hid : ∀ id, id ≠ "" → (∃ doc, Verifies (fun _ => sampleSyncRun) (sampleInfo id) doc) ∨
      Fails (fun _ => sampleSyncRun) (sampleInfo id) := by
    intro id hne
    by_cases hbad : id = "bad"
    · exact .inr ⟨id, id, hanchor id hne, fun _ => ⟨.fetch_failed, if_pos hbad⟩⟩
    · exact .inl ⟨(), id, id, hanchor id hne, fun _ => if_neg hbad⟩
  rw [SteadyAnchors, infos_sampleChain h]
  intro info hmem
  rcases List.mem_pair.mp hmem with rfl | rfl
  · exact .inr (hid first hfirst)
  · exact .inr (hid second hsecond)

/-- A failing anchor behind a working one. -/
theorem syncRuns_settle_iff_behind :
    ∃ k, SettledFrom sampleSync (fun _ => sampleSyncRun) (sampleChain "good" "bad" (by decide))
      (sampleTables (sampleChain "good" "bad" (by decide))) k := by
  refine (syncRuns_settle_iff (by decide) (syncRuns_sample _)
    (steadyAnchors_sample (by decide) (by decide) (by decide))).1.mpr ⟨?_, ?_⟩
  · intro info hmem doc _ hdone
    rw [infos_sampleChain] at hmem
    rcases List.mem_pair.mp hmem with rfl | rfl
    · cases hdone
    · cases hdone
  · rintro (_ | ⟨first, _ | ⟨second, before⟩⟩) info behind hinfos doc hverifies -
    · exact Nat.zero_le _
    · -- the second anchor fails
      rw [infos_sampleChain] at hinfos
      obtain ⟨-, rfl, -⟩ : sampleInfo "good" = first ∧ sampleInfo "bad" = info ∧ [] = behind := by
        simpa using hinfos
      obtain ⟨metaUrl, metaHash, hanchor, hfetch⟩ := hverifies
      obtain ⟨rfl, rfl⟩ : "bad" = metaUrl ∧ "bad" = metaHash := by
        simpa [DrepInfo.anchor, sampleInfo] using hanchor
      exact absurd (hfetch 0) (by simp [sampleSyncRun])
    · rw [infos_sampleChain] at hinfos
      simp at hinfos

/-- A failing anchor in front of a working one takes the whole budget of each run. -/
theorem not_syncRuns_settle :
    1 ≤ sampleSync.maxAnchorFetches ∧
      SyncRuns sampleSync (fun _ => sampleSyncRun) (sampleChain "bad" "good" (by decide))
        (sampleTables (sampleChain "bad" "good" (by decide))) ∧
      SteadyAnchors (fun _ => sampleSyncRun) (sampleChain "bad" "good" (by decide)) ∧
      Verifies (fun _ => sampleSyncRun) (sampleInfo "good") () ∧
      ∀ k, ¬ProfileStored sampleSync
        (sampleTables (sampleChain "bad" "good" (by decide)) k) (sampleInfo "good") () := by
  have hsteady : SteadyAnchors (fun _ => sampleSyncRun) (sampleChain "bad" "good" (by decide)) :=
    steadyAnchors_sample (by decide) (by decide) (by decide)
  refine ⟨le_rfl, syncRuns_sample _, hsteady, ⟨"good", "good", by decide, fun _ => ?_⟩,
    fun k => ?_⟩
  · simp [sampleSyncRun]
  · have hinfos : (sampleChain "bad" "good" (by decide)).infos =
        [sampleInfo "bad"] ++ sampleInfo "good" :: [] := infos_sampleChain _
    exact not_profileStored_of_blocked (syncRuns_sample _) hsteady hinfos (by decide) (by decide) k
      ()

end DrepTalk
