import Mathlib.Data.List.Pairwise
import DrepTalk.Governance.TallyColumnRuns

/-!
# The recompute of the committee figures

`recomputeCommitteePct` of `src/lib/db/committee.ts`, run on the state that a tally run leaves
behind. Both passes count the committee votes of an action at its decision boundary; the tally run
derives the boundary from the row of `proposal_list`, the recompute from the stored columns.

**Where they differ.** A ratified epoch is stored once and kept, so the recompute may see one where
the row has none; and the expiry that a row reports is not stored, so the recompute falls back to
the decided epoch (`not_committee_agrees`).

**Where they agree** (`committee_agrees_iff`). Elsewhere the boundary is the same, and then the
cutoff, the committee and the votes are, in whatever order these are read.
-/

namespace DrepTalk

section

variable {ν ρ : Type*} (js : JsNumbers ν)

/-! ### The recompute -/

def TallyAction.stored {τ : Type*} (ga : TallyAction τ) : TallyDecision :=
  ⟨ga.status, ga.decidedEpoch, ga.ratifiedEpoch, ga.expiryEpoch⟩

/-- The votes on one action, of all that have been read. -/
def votesOn (rows : List CcVoteDbRow) (id : String) : List CcVote :=
  (rows.filter (·.gaId == id)).filterMap toCcVote

/-- The figures that the recompute finds for an action, none where it is skipped. -/
def recomputed (timeline : CommitteeTimeline) (rows : List CcVoteDbRow) (currentEpoch : Option ℤ)
    (cfg : EpochAnchor) (ga : TallyAction (TallyColumns ν ρ)) : Option (LedgerTally ν) :=
  match committeeBoundaryForAction ga.stored currentEpoch with
  | none => none
  | some boundary =>
    (ccTallyPct js (votesOn rows ga.id) timeline boundary
      (some (cfg.epochStartUnix boundary))).ledger

def GovernanceTally.HasFigures (tally : GovernanceTally ν) (ledgerCc : LedgerTally ν) : Prop :=
  tally.ccYesPct = some ledgerCc.yesPct ∧ tally.ccNoPct = some ledgerCc.noPct ∧
    tally.ccYes = some (js.ofNat ledgerCc.yes) ∧ tally.ccNo = some (js.ofNat ledgerCc.no) ∧
      tally.ccAbstain = some (js.ofNat ledgerCc.abstain)

instance [DecidableEq ν] (tally : GovernanceTally ν) (ledgerCc : LedgerTally ν) :
    Decidable (tally.HasFigures js ledgerCc) :=
  inferInstanceAs (Decidable (_ ∧ _))

/-- The write of one action, where a value moves. -/
def recomputeWrite [DecidableEq ν] (timeline : CommitteeTimeline) (rows : List CcVoteDbRow)
    (currentEpoch : Option ℤ) (cfg : EpochAnchor) (ga : TallyAction (TallyColumns ν ρ)) :
    Option (String × LedgerTally ν) :=
  (recomputed js timeline rows currentEpoch cfg ga).bind fun ledgerCc =>
    if ga.tally.tally.HasFigures js ledgerCc then none else some (ga.id, ledgerCc)

/-- `UPDATE governance_actions SET cc_yes_pct = ?, ... WHERE id = ?`. -/
def writeCommittee (db : TallyDb (TallyColumns ν ρ)) (write : String × LedgerTally ν) :
    TallyDb (TallyColumns ν ρ) :=
  { db with
    actions := db.actions.updateWhere (·.id == write.1)
      (fun ga =>
        { ga with tally := { ga.tally with tally := ga.tally.tally.withLedger js (some write.2) } })
      fun _ _ => rfl }

structure CommitteePctRecomputeResult where
  scanned : ℕ
  updated : ℕ
  skipped : ℕ

/-- A run: the actions with votes are looked at, and those written whose figures move. -/
def recomputeCommitteePct [DecidableEq ν] (timeline : CommitteeTimeline) (rows : List CcVoteDbRow)
    (currentEpoch : Option ℤ) (cfg : EpochAnchor) (db : TallyDb (TallyColumns ν ρ)) :
    TallyDb (TallyColumns ν ρ) × CommitteePctRecomputeResult :=
  if timeline.members = [] then (db, ⟨0, 0, 0⟩)
  else
    let actions := db.actions.rows.filter fun ga => !(votesOn rows ga.id).isEmpty
    let writes := actions.filterMap (recomputeWrite js timeline rows currentEpoch cfg)
    (writes.foldl (writeCommittee js) db,
      { scanned := actions.length
        updated := writes.length
        skipped := actions.countP fun ga =>
          (recomputed js timeline rows currentEpoch cfg ga).isNone })

end

/-! ### Votes in any order -/

section

variable {ν : Type*} {js : JsNumbers ν} {votes votes' : List CcVote} {timeline : CommitteeTimeline}
  {boundary : ℤ} {cutoff : Option ℤ}

/-- The later of two votes, the second on a tie. -/
def laterVote (prev : Option CcVote) (v : CcVote) : Option CcVote :=
  if prev.all fun prev => decide (prev.time ≤ v.time) then some v else prev

theorem finalCcVoteByMember_apply (cold : String) :
    finalCcVoteByMember votes timeline boundary cutoff cold =
      (votes.filter fun v => v.countsFor timeline boundary cutoff = some cold).foldl laterVote
        none := by
  unfold finalCcVoteByMember
  change _ = List.foldl laterVote ((fun (_ : String) => (none : Option CcVote)) cold) _
  generalize (fun (_ : String) => (none : Option CcVote)) = finalByMember
  induction votes generalizing finalByMember with
  | nil => rfl
  | cons v votes ih =>
    rw [List.foldl_cons, ih, List.filter_cons]
    rcases hcounts : v.countsFor timeline boundary cutoff with _ | member
    · simp
    · by_cases hmember : member = cold
      · subst hmember
        simp only [decide_true, if_true, List.foldl_cons]
        congr 1
        by_cases hlater : ((finalByMember member).all fun prev => decide (prev.time ≤ v.time))
            = true
        · rw [if_pos hlater, Function.update_self, laterVote, if_pos hlater]
        · rw [if_neg hlater, laterVote, if_neg hlater]
      · have hother : (if ((finalByMember member).all fun prev => decide (prev.time ≤ v.time))
            = true then Function.update finalByMember member (some v) else finalByMember) cold
              = finalByMember cold := by
          split_ifs
          · exact Function.update_of_ne (Ne.symm hmember) _ _
          · rfl
        simp only [hother, Option.some.injEq, hmember, decide_false, Bool.false_eq_true, if_false]

/-- Two votes of one member have different block times. -/
def TimesDiffer (timeline : CommitteeTimeline) (u v : CcVote) : Prop :=
  ∀ cold, timeline.hotToCold u.hotKeyHex = some cold →
    timeline.hotToCold v.hotKeyHex = some cold → u.time ≠ v.time

instance : Std.Symm (TimesDiffer timeline) := ⟨fun _ _ h cold hv hu => (h cold hu hv).symm⟩

/-- The votes of one member have pairwise distinct block times, where a missing one is 0. -/
def DistinctTimes (timeline : CommitteeTimeline) (votes : List CcVote) : Prop :=
  votes.Pairwise (TimesDiffer timeline)

theorem laterVote_comm {u v : CcVote} (h : u ≠ v → u.time ≠ v.time) (prev : Option CcVote) :
    laterVote (laterVote prev u) v = laterVote (laterVote prev v) u := by
  by_cases huv : u = v
  · rw [huv]
  · have hne := h huv
    rcases prev with _ | w
    · simp only [laterVote, Option.all_none, if_true, Option.all_some, decide_eq_true_eq]
      split_ifs <;> first | rfl | omega
    · simp only [laterVote, Option.all_some, decide_eq_true_eq]
      by_cases hu : w.time ≤ u.time <;> by_cases hv : w.time ≤ v.time <;>
        simp only [hu, hv, if_true, if_false, Option.all_some, decide_eq_true_eq] <;>
        split_ifs <;> first | rfl | omega

theorem hotToCold_of_countsFor {v : CcVote} {cold : String}
    (h : v.countsFor timeline boundary cutoff = some cold) :
    timeline.hotToCold v.hotKeyHex = some cold := by
  rw [CcVote.countsFor] at h
  split_ifs at h
  exact (Option.filter_eq_some_iff.mp h).1

theorem ccTallyPct_perm (hperm : votes.Perm votes') (hdistinct : DistinctTimes timeline votes) :
    ccTallyPct js votes timeline boundary cutoff =
      ccTallyPct js votes' timeline boundary cutoff := by
  have hfinal : finalCcVoteByMember votes timeline boundary cutoff =
      finalCcVoteByMember votes' timeline boundary cutoff := by
    funext cold
    rw [finalCcVoteByMember_apply, finalCcVoteByMember_apply]
    refine (hperm.filter _).foldl_eq' (fun u hu v hv prev => ?_) none
    refine laterVote_comm (fun hne => ?_) prev
    obtain ⟨hu, hucold⟩ := List.mem_filter.mp hu
    obtain ⟨hv, hvcold⟩ := List.mem_filter.mp hv
    have hdiffer : TimesDiffer timeline u v := List.Pairwise.forall hdistinct hu hv hne
    exact hdiffer cold (hotToCold_of_countsFor (of_decide_eq_true hucold))
      (hotToCold_of_countsFor (of_decide_eq_true hvcold))
  rw [ccTallyPct, ccTallyPct, hfinal]

end

/-! ### After a tally run -/

section

variable {τ : Type*} {input : TallyInput τ} {db : TallyDb τ} {ga : TallyAction τ}
  {acc : TallyDb τ × TallySyncResult}

/-- A row with the property is stored. -/
def TallyDb.HasRow (db : TallyDb τ) (R : TallyAction τ → Prop) : Prop :=
  ∃ ga ∈ db.actions.rows, R ga

theorem hasRow_tallyAction_other {R : TallyAction τ → Prop} {ga' : TallyAction τ} {id : String}
    (hR : ∀ r, R r → r.id = id) (hid : id ≠ ga'.id) (h : acc.1.HasRow R) :
    (tallyAction input acc ga').1.HasRow R := by
  obtain ⟨r, hmem, hr⟩ := h
  refine ⟨r, ?_, hr⟩
  rcases htally : input.tallyOf ga' (tallyDecision (input.lifecycle ga'.id) ga'
    input.currentEpoch) with _ | tally
  · rwa [tallyAction_of_none htally]
  · rw [actions_tallyAction htally]
    exact Table.mem_updateWhere.mpr (.inl ⟨hmem, by simpa using hR r hr ▸ hid⟩)

theorem hasRow_recheckRatified_other {R : TallyAction τ → Prop} {ga' : TallyAction τ} {id : String}
    (hR : ∀ r, R r → r.id = id) (hid : id ≠ ga'.id) (h : acc.1.HasRow R) :
    (recheckRatified input acc ga').1.HasRow R := by
  obtain ⟨r, hmem, hr⟩ := h
  refine ⟨r, ?_, hr⟩
  by_cases hsame : ∀ life ∈ input.lifecycle ga'.id,
    deriveStatus (some life) ga' input.currentEpoch = ga'.status
  · rwa [recheckRatified_of_same hsame]
  · push Not at hsame
    obtain ⟨life, hlife, hother⟩ := hsame
    rw [Option.mem_def] at hlife
    rw [actions_recheckRatified hlife hother]
    exact Table.mem_updateWhere.mpr (.inl ⟨hmem, by simpa using hR r hr ▸ hid⟩)

/-- The run tallies the action, with these columns. -/
def TallyInput.Updates (input : TallyInput τ) (db : TallyDb τ) (ga : TallyAction τ) (tally : τ) :
    Prop :=
  ga ∈ db.getStaleSyncableActions input.limit ∧
    input.tallyOf ga (tallyDecision (input.lifecycle ga.id) ga input.currentEpoch) = some tally

/-- The lifecycle columns that a run stores: a ratified epoch is kept where it finds none. -/
def storedDecision (input : TallyInput τ) (ga : TallyAction τ) : TallyDecision :=
  let decision := tallyDecision (input.lifecycle ga.id) ga input.currentEpoch
  ⟨decision.status, decision.decidedEpoch, decision.ratifiedEpoch <|> ga.ratifiedEpoch,
    ga.expiryEpoch⟩

/-- **What a run stores of an action that it tallies.** -/
theorem hasRow_run {tally : τ} (h : input.Updates db ga tally) :
    (syncGovernanceTallies input db).1.HasRow fun r =>
      r.id = ga.id ∧ r.stored = storedDecision input ga ∧ r.tally = tally := by
  obtain ⟨hstale, htally⟩ := h
  obtain ⟨hga, hopen⟩ := mem_open.mp (mem_of_mem_getStale hstale)
  have hsome : ¬(db.getStaleSyncableActions input.limit = [] ∧
      db.getRatifiedActions input.limit = []) := fun hnone =>
    List.ne_nil_of_mem hstale hnone.1
  unfold syncGovernanceTallies
  rw [if_neg hsome]
  -- the row before it is tallied, as the backfill leaves it
  have hbackfilled : (db.backfillRatifiedEpochs input.lifecycle).HasRow fun r =>
      r.id = ga.id ∧ r.expiryEpoch = ga.expiryEpoch ∧
        ((input.lifecycle ga.id).bind (·.ratifiedEpoch) <|> r.ratifiedEpoch) =
          ((input.lifecycle ga.id).bind (·.ratifiedEpoch) <|> ga.ratifiedEpoch) := by
    refine ⟨_, Table.mem_updateWhere_of_mem _ _ hga, ?_⟩
    by_cases hnone : ga.ratifiedEpoch.isNone = true
    · rw [if_pos hnone, Option.isNone_iff_eq_none.mp hnone]
      exact ⟨rfl, rfl, by cases (input.lifecycle ga.id).bind (·.ratifiedEpoch) <;> rfl⟩
    · rw [if_neg hnone]
      exact ⟨rfl, rfl, rfl⟩
  have htallied : ((db.getStaleSyncableActions input.limit).foldl (tallyAction input)
      (db.backfillRatifiedEpochs input.lifecycle,
        ⟨(db.getStaleSyncableActions input.limit).length, 0, 0, 0, 0⟩)).1.HasRow
      fun r => r.id = ga.id ∧ r.stored = storedDecision input ga ∧ r.tally = tally :=
    foldl_moves
    (P := fun acc => acc.1.HasRow fun r => r.id = ga.id ∧ r.expiryEpoch = ga.expiryEpoch ∧
      ((input.lifecycle ga.id).bind (·.ratifiedEpoch) <|> r.ratifiedEpoch) =
        ((input.lifecycle ga.id).bind (·.ratifiedEpoch) <|> ga.ratifiedEpoch))
    (Q := fun acc => acc.1.HasRow fun r => r.id = ga.id ∧ r.stored = storedDecision input ga ∧
      r.tally = tally)
    (nodup_ids db _ _ _) hstale
    (fun acc ga' _ hid h => hasRow_tallyAction_other (fun _ hr => hr.1) hid h)
    (fun acc h => by
      obtain ⟨r, hmem, hid, hexpiry, hratified⟩ := h
      rw [TallyDb.HasRow, actions_tallyAction htally]
      refine ⟨_, Table.mem_updateWhere_of_mem _ _ hmem, ?_⟩
      rw [if_pos (beq_iff_eq.mpr hid)]
      have hstored : ((input.lifecycle ga.id).bind (·.ratifiedEpoch) <|> r.ratifiedEpoch) =
        (storedDecision input ga).ratifiedEpoch := hratified
      refine ⟨hid, ?_, rfl⟩
      show TallyDecision.mk _ _ ((input.lifecycle ga.id).bind (·.ratifiedEpoch) <|> r.ratifiedEpoch)
        r.expiryEpoch = _
      rw [hstored, hexpiry]
      rfl)
    (fun acc ga' _ hid h => hasRow_tallyAction_other (fun _ hr => hr.1) hid h) hbackfilled
  -- it is not among the ratified actions, which are read before
  refine foldl_keeps (P := fun acc => acc.1.HasRow fun r => r.id = ga.id ∧
    r.stored = storedDecision input ga ∧ r.tally = tally) (fun acc ga' hga' h => ?_) htallied
  refine hasRow_recheckRatified_other (fun _ hr => hr.1) (fun hid => ?_) h
  obtain ⟨hrow, hratified⟩ := mem_ratified.mp (mem_of_mem_getRatified hga')
  obtain rfl := db.actions.eq_of_key hga hrow hid
  rw [hratified] at hopen
  rcases hopen with h | h <;> cases h

end

/-! ### A run writes once -/

section

variable {ν ρ : Type*} [DecidableEq ν] {js : JsNumbers ν} {timeline : CommitteeTimeline}
  {rows : List CcVoteDbRow} {currentEpoch : Option ℤ} {cfg : EpochAnchor}
  {db : TallyDb (TallyColumns ν ρ)} {ga : TallyAction (TallyColumns ν ρ)}
  {writes : List (String × LedgerTally ν)}

def writeRow (js : JsNumbers ν) (ga : TallyAction (TallyColumns ν ρ))
    (write : String × LedgerTally ν) : TallyAction (TallyColumns ν ρ) :=
  if ga.id == write.1 then
    { ga with tally := { ga.tally with tally := ga.tally.tally.withLedger js (some write.2) } }
  else ga

omit [DecidableEq ν] in
theorem rows_writes (writes : List (String × LedgerTally ν)) (db : TallyDb (TallyColumns ν ρ)) :
    (writes.foldl (writeCommittee js) db).actions.rows =
      db.actions.rows.map fun ga => writes.foldl (writeRow js) ga := by
  induction writes generalizing db with
  | nil => exact (List.map_id _).symm
  | cons write writes ih =>
    rw [List.foldl_cons, ih]
    show (db.actions.rows.map fun ga => writeRow js ga write).map _ = _
    rw [List.map_map]
    rfl

omit [DecidableEq ν] in
theorem stored_writes (js : JsNumbers ν) (writes : List (String × LedgerTally ν))
    (ga : TallyAction (TallyColumns ν ρ)) :
    (writes.foldl (writeRow js) ga).id = ga.id ∧
      (writes.foldl (writeRow js) ga).stored = ga.stored := by
  induction writes generalizing ga with
  | nil => exact ⟨rfl, rfl⟩
  | cons write writes ih =>
    have hone : (writeRow js ga write).id = ga.id ∧
        (writeRow js ga write).stored = ga.stored := by
      rw [writeRow]
      split_ifs <;> exact ⟨rfl, rfl⟩
    obtain ⟨hid, hstored⟩ := ih (writeRow js ga write)
    exact ⟨hid.trans hone.1, hstored.trans hone.2⟩

omit [DecidableEq ν] in
theorem writes_of_other (h : ∀ write ∈ writes, write.1 ≠ ga.id) :
    writes.foldl (writeRow js) ga = ga := by
  induction writes with
  | nil => rfl
  | cons write writes ih =>
    have hother : writeRow js ga write = ga :=
      if_neg (by simpa using (h write List.mem_cons_self).symm)
    rw [List.foldl_cons, hother]
    exact ih fun write hmem => h write (List.mem_cons_of_mem _ hmem)

omit [DecidableEq ν] in
theorem hasFigures_writes {ledgerCc : LedgerTally ν}
    (hsame : ∀ write ∈ writes, write.1 = ga.id → write.2 = ledgerCc)
    (h : ga.tally.tally.HasFigures js ledgerCc ∨ ∃ write ∈ writes, write.1 = ga.id) :
    (writes.foldl (writeRow js) ga).tally.tally.HasFigures js ledgerCc := by
  induction writes generalizing ga with
  | nil => simpa using h
  | cons write writes ih =>
    rw [List.foldl_cons]
    have hrest : ∀ later ∈ writes, later.1 = (writeRow js ga write).id → later.2 = ledgerCc := by
      intro later hmem hid
      exact hsame later (List.mem_cons_of_mem _ hmem)
        (hid.trans (stored_writes js [write] ga).1)
    by_cases hid : write.1 = ga.id
    · refine ih hrest (.inl ?_)
      rw [writeRow, if_pos (beq_iff_eq.mpr hid.symm), hsame write List.mem_cons_self hid]
      exact ⟨rfl, rfl, rfl, rfl, rfl⟩
    · have hother : writeRow js ga write = ga := if_neg (by simpa using Ne.symm hid)
      rw [hother]
      refine ih (hother ▸ hrest) (h.imp_right fun ⟨later, hmem, hlater⟩ => ?_)
      rcases List.mem_cons.mp hmem with rfl | hmem
      · exact absurd hlater hid
      · exact ⟨later, hmem, hlater⟩

def recomputeWrites (js : JsNumbers ν) (timeline : CommitteeTimeline) (rows : List CcVoteDbRow)
    (currentEpoch : Option ℤ) (cfg : EpochAnchor) (db : TallyDb (TallyColumns ν ρ)) :
    List (String × LedgerTally ν) :=
  (db.actions.rows.filter fun ga => !(votesOn rows ga.id).isEmpty).filterMap
    (recomputeWrite js timeline rows currentEpoch cfg)

theorem recomputeWrite_eq_some {write : String × LedgerTally ν} :
    recomputeWrite js timeline rows currentEpoch cfg ga = some write ↔
      write.1 = ga.id ∧ recomputed js timeline rows currentEpoch cfg ga = some write.2 ∧
        ¬ga.tally.tally.HasFigures js write.2 := by
  obtain ⟨id, ledgerCc⟩ := write
  rw [recomputeWrite, Option.bind_eq_some_iff]
  constructor
  · rintro ⟨found, hfound, h⟩
    split_ifs at h with hfigures
    cases h
    exact ⟨rfl, hfound, hfigures⟩
  · rintro ⟨rfl, hfound, hfigures⟩
    exact ⟨ledgerCc, hfound, if_neg hfigures⟩

theorem mem_recomputeWrites {write : String × LedgerTally ν} (hga : ga ∈ db.actions.rows)
    (hid : write.1 = ga.id) :
    write ∈ recomputeWrites js timeline rows currentEpoch cfg db ↔
      votesOn rows ga.id ≠ [] ∧ recomputed js timeline rows currentEpoch cfg ga = some write.2 ∧
        ¬ga.tally.tally.HasFigures js write.2 := by
  rw [recomputeWrites, List.mem_filterMap]
  constructor
  · rintro ⟨ga', hmem, hwrite⟩
    obtain ⟨hrow, hvotes⟩ := List.mem_filter.mp hmem
    obtain ⟨hid', hfound, hfigures⟩ := recomputeWrite_eq_some.mp hwrite
    obtain rfl := db.actions.eq_of_key hrow hga (hid'.symm.trans hid)
    exact ⟨by simpa using hvotes, hfound, hfigures⟩
  · rintro ⟨hvotes, hfound, hfigures⟩
    exact ⟨ga, List.mem_filter.mpr ⟨hga, by simpa using hvotes⟩,
      recomputeWrite_eq_some.mpr ⟨hid, hfound, hfigures⟩⟩

theorem recomputeCommitteePct_of_members (hmembers : timeline.members ≠ []) :
    (recomputeCommitteePct js timeline rows currentEpoch cfg db).1 =
        (recomputeWrites js timeline rows currentEpoch cfg db).foldl (writeCommittee js) db ∧
      (recomputeCommitteePct js timeline rows currentEpoch cfg db).2.updated =
        (recomputeWrites js timeline rows currentEpoch cfg db).length := by
  rw [recomputeCommitteePct, if_neg hmembers]
  exact ⟨rfl, rfl⟩

theorem mem_recompute (hga : ga ∈ db.actions.rows)
    (hkept : ∀ ledgerCc, votesOn rows ga.id ≠ [] → timeline.members ≠ [] →
      recomputed js timeline rows currentEpoch cfg ga = some ledgerCc →
        ga.tally.tally.HasFigures js ledgerCc) :
    ga ∈ (recomputeCommitteePct js timeline rows currentEpoch cfg db).1.actions.rows := by
  by_cases hmembers : timeline.members = []
  · rwa [recomputeCommitteePct, if_pos hmembers]
  · rw [(recomputeCommitteePct_of_members hmembers).1, rows_writes]
    refine List.mem_map.mpr ⟨ga, hga, writes_of_other fun write hmem hid => ?_⟩
    obtain ⟨hvotes, hfound, hfigures⟩ := (mem_recomputeWrites hga hid).mp hmem
    exact hfigures (hkept write.2 hvotes hmembers hfound)

omit [DecidableEq ν] in
theorem recomputed_congr {ga' : TallyAction (TallyColumns ν ρ)} (hid : ga'.id = ga.id)
    (hstored : ga'.stored = ga.stored) :
    recomputed js timeline rows currentEpoch cfg ga' =
      recomputed js timeline rows currentEpoch cfg ga := by
  rw [recomputed, recomputed, hid, hstored]

/-- **Running it again writes nothing.** -/
theorem recompute_again :
    let after := (recomputeCommitteePct js timeline rows currentEpoch cfg db).1
    (recomputeCommitteePct js timeline rows currentEpoch cfg after).1 = after ∧
      (recomputeCommitteePct js timeline rows currentEpoch cfg after).2.updated = 0 := by
  intro after
  by_cases hmembers : timeline.members = []
  · rw [recomputeCommitteePct, if_pos hmembers]
    exact ⟨rfl, rfl⟩
  · have hafter : after = (recomputeWrites js timeline rows currentEpoch cfg db).foldl
        (writeCommittee js) db := (recomputeCommitteePct_of_members hmembers).1
    have hnone : recomputeWrites js timeline rows currentEpoch cfg after = [] := by
      refine List.eq_nil_iff_forall_not_mem.mpr fun write hmem => ?_
      obtain ⟨ga', hmem', hwrite⟩ := List.mem_filterMap.mp hmem
      obtain ⟨hrow, hvotes⟩ := List.mem_filter.mp hmem'
      obtain ⟨hid, hfound, hfigures⟩ := recomputeWrite_eq_some.mp hwrite
      have hrow : ga' ∈ after.actions.rows := hrow
      rw [hafter, rows_writes] at hrow
      obtain ⟨ga, hga, rfl⟩ := List.mem_map.mp hrow
      obtain ⟨hsameid, hstored⟩ := stored_writes js
        (recomputeWrites js timeline rows currentEpoch cfg db) ga
      rw [recomputed_congr hsameid hstored] at hfound
      rw [hsameid] at hvotes hid
      have hvotes : votesOn rows ga.id ≠ [] := by simpa using hvotes
      refine hfigures (hasFigures_writes (fun earlier hmem hid' => ?_) ?_)
      · obtain ⟨-, hfound', -⟩ := (mem_recomputeWrites hga hid').mp hmem
        exact Option.some_injective _ (hfound'.symm.trans hfound)
      · by_cases hhas : ga.tally.tally.HasFigures js write.2
        · exact .inl hhas
        · exact .inr ⟨write, (mem_recomputeWrites hga hid).mpr ⟨hvotes, hfound, hhas⟩, hid⟩
    rw [(recomputeCommitteePct_of_members hmembers).1,
      (recomputeCommitteePct_of_members hmembers).2, hnone]
    exact ⟨rfl, rfl⟩

end

/-! ### The two boundaries -/

section

variable {τ : Type*} {input : TallyInput τ} {ga : TallyAction τ}

/-- A ratified epoch that is stored is the one that the row of an action without one gives: the
epoch before it is enacted, the epoch it expires, or the one it is dropped or closed at. -/
def RatifiedFits (life : Option ProposalLifecycle) (ga : TallyAction τ) (currentEpoch : Option ℤ)
    (ratified : ℤ) : Prop :=
  match life.bind (·.enactedEpoch), life.bind (·.expiredEpoch), life.bind (·.droppedEpoch) with
  | some enacted, _, _ => ratified = enacted - 1
  | none, some expired, _ =>
    ratified = if ga.type == "InfoAction" then expired
      else (ga.expiryEpoch <|> life.bind (·.expiration)).getD expired
  | none, none, some dropped => ratified = dropped
  | none, none, none => ∀ expiry ∈ ga.expiryEpoch <|> life.bind (·.expiration),
      ∀ epoch ∈ currentEpoch, expiry ≤ epoch → ratified = expiry

/-- The expiry that only the row has is the epoch that it reports the action expired at. -/
def ExpiryFits (life : Option ProposalLifecycle) (ga : TallyAction τ) : Prop :=
  life.bind (·.enactedEpoch) = none → ga.type ≠ "InfoAction" → ga.expiryEpoch = none →
    ∀ expired ∈ life.bind (·.expiredEpoch), ∀ expiration ∈ life.bind (·.expiration),
      expiration = expired

/-- The columns that are stored give the boundary that the row gives. -/
def ColumnsSuffice (life : Option ProposalLifecycle) (ga : TallyAction τ)
    (currentEpoch : Option ℤ) : Prop :=
  life.bind (·.ratifiedEpoch) = none →
    match ga.ratifiedEpoch with
    | some ratified => RatifiedFits life ga currentEpoch ratified
    | none => ExpiryFits life ga

variable {life : Option ProposalLifecycle} {currentEpoch : Option ℤ} {status : GovStatus}
  {decided ratified expiry expiry' : Option ℤ}

theorem boundary_of_ratified {epoch : ℤ} (hstatus : isTerminalStatus status = true) :
    committeeBoundaryForAction ⟨status, decided, some epoch, expiry⟩ currentEpoch = some epoch := by
  rw [committeeBoundaryForAction, if_pos hstatus, decisionBoundaryEpoch]
  simp [hstatus]

/-- A row without a ratified epoch: the boundary that is stored is that of the decision, unless a
ratified epoch is stored, or the two expiries differ. -/
theorem boundary_kept_iff (hstatus : isTerminalStatus status = true) (stored : Option ℤ) :
    committeeBoundaryForAction ⟨status, decided, stored, expiry⟩ currentEpoch =
        committeeBoundaryForAction ⟨status, decided, none, expiry'⟩ currentEpoch ↔
      match stored with
      | some epoch => decisionBoundaryEpoch ⟨status, decided, none, expiry'⟩ = some epoch
      | none => status = .expired → (expiry <|> decided) = (expiry' <|> decided) := by
  rcases stored with _ | epoch
  · rw [committeeBoundaryForAction, committeeBoundaryForAction, if_pos hstatus, if_pos hstatus]
    by_cases hexpired : status = .expired
    · subst hexpired
      simp [decisionBoundaryEpoch, isTerminalStatus, TERMINAL_STATUSES]
    · simp [decisionBoundaryEpoch, hexpired]
  · rw [boundary_of_ratified hstatus, committeeBoundaryForAction, if_pos hstatus]
    exact eq_comm

theorem outcomeEpoch_of_unratified (hratified : life.bind (·.ratifiedEpoch) = none) :
    life.bind (·.outcomeEpoch) = (life.bind (·.enactedEpoch) <|>
      life.bind (·.expiredEpoch) <|> life.bind (·.droppedEpoch)) := by
  rcases life with _ | p
  · rfl
  · show (p.enactedEpoch <|> p.ratifiedEpoch <|> p.expiredEpoch <|> p.droppedEpoch) = _
    rw [show p.ratifiedEpoch = none from hratified]
    cases hnone : p.enactedEpoch <;> simp [hnone]

theorem closed_kept_iff (other : GovStatus) {epoch : ℤ} (hother : isTerminalStatus other = true)
    (hne : other ≠ .enacted) :
    committeeBoundaryForAction ⟨if ga.type == "InfoAction" then .closed else other, some epoch,
          ga.ratifiedEpoch, ga.expiryEpoch⟩ currentEpoch =
        committeeBoundaryForAction ⟨if ga.type == "InfoAction" then .closed else other, some epoch,
          none, ga.expiryEpoch <|> expiry⟩ currentEpoch ↔
      match ga.ratifiedEpoch with
      | some stored => stored = if ga.type == "InfoAction" then epoch else
          if other = .expired then (ga.expiryEpoch <|> expiry).getD epoch else epoch
      | none => other = .expired → ga.type ≠ "InfoAction" → ga.expiryEpoch = none →
          ∀ listed ∈ expiry, listed = epoch := by
  by_cases hinfo : ga.type = "InfoAction"
  · have htrue : (ga.type == "InfoAction") = true := beq_iff_eq.mpr hinfo
    rw [if_pos htrue, boundary_kept_iff rfl]
    rcases ga.ratifiedEpoch with _ | stored
    · simp [hinfo]
    · simp [hinfo, decisionBoundaryEpoch, isTerminalStatus, TERMINAL_STATUSES, eq_comm]
  · have hfalse : ¬(ga.type == "InfoAction") = true := fun h => hinfo (beq_iff_eq.mp h)
    rw [if_neg hfalse, boundary_kept_iff hother]
    rcases ga.ratifiedEpoch with _ | stored
    · rcases ga.expiryEpoch with _ | own
      · rcases expiry with _ | listed
        · simp
        · simp [hinfo, eq_comm]
      · simp
    · simp only [decisionBoundaryEpoch, hother, hne, if_neg hfalse]
      by_cases hexpired : other = .expired
      · rcases ga.expiryEpoch with _ | own <;> rcases expiry with _ | listed <;>
          simp [hexpired, eq_comm]
      · simp [hexpired, eq_comm]

/-- **The boundaries are the same on exactly these rows.** -/
theorem boundary_stored_iff :
    committeeBoundaryForAction (storedDecision input ga) input.currentEpoch =
        committeeBoundaryForAction (tallyDecision (input.lifecycle ga.id) ga input.currentEpoch)
          input.currentEpoch ↔
      ColumnsSuffice (input.lifecycle ga.id) ga input.currentEpoch := by
  unfold storedDecision tallyDecision ColumnsSuffice
  generalize input.lifecycle ga.id = life
  generalize input.currentEpoch = currentEpoch
  rcases hratified : life.bind (·.ratifiedEpoch) with _ | epoch
  · have hnone : (none <|> ga.ratifiedEpoch) = ga.ratifiedEpoch := by
      cases ga.ratifiedEpoch <;> rfl
    simp only [forall_const, hnone, outcomeEpoch_of_unratified hratified]
    unfold RatifiedFits ExpiryFits
    rcases henacted : life.bind (·.enactedEpoch) with _ | enacted
    · rcases hexpired : life.bind (·.expiredEpoch) with _ | expired
      · rcases hdropped : life.bind (·.droppedEpoch) with _ | dropped
        · -- by the expiry
          have hstatus : deriveStatus life ga currentEpoch = _ := deriveStatus_of_unreported
            (by rw [reported, henacted, hratified, hexpired, hdropped]; rfl)
          by_cases hpassed : ∃ expiry ∈ (ga.expiryEpoch <|> life.bind (·.expiration)),
            ∃ epoch ∈ currentEpoch, expiry ≤ epoch
          · rw [if_pos hpassed] at hstatus
            obtain ⟨expiry, hexpiry, epoch, hepoch, hle⟩ := hpassed
            rw [Option.mem_def] at hexpiry hepoch
            have hdecided : (if deriveStatus life ga currentEpoch = .active then none
                else ga.expiryEpoch <|> life.bind (·.expiration)) = some expiry := by
              rw [hstatus, if_neg (by split_ifs <;> simp), hexpiry]
            rw [hdecided, hstatus]
            refine (closed_kept_iff .expired rfl (by decide)).trans ?_
            rcases ga.ratifiedEpoch with _ | stored
            · refine iff_of_true (fun _ _ hnone listed hlisted => ?_)
                (by simp)
              rw [hnone, Option.mem_def.mp hlisted] at hexpiry
              exact Option.some_injective _ hexpiry
            · rw [hexpiry]
              simp only [Option.getD_some, ite_self, Option.mem_def]
              constructor
              · intro hstored listed hlisted _ _ _
                exact hstored.trans (Option.some_injective _ hlisted)
              · exact fun h => h expiry rfl epoch hepoch hle
          · rw [if_neg hpassed] at hstatus
            rw [hstatus]
            refine iff_of_true rfl ?_
            rcases ga.ratifiedEpoch with _ | stored
            · intro _ _ _ expired hmem
              cases hmem
            · intro expiry hexpiry epoch hepoch hle
              exact absurd ⟨expiry, hexpiry, epoch, hepoch, hle⟩ hpassed
        · have hstatus : deriveStatus life ga currentEpoch =
              if ga.type == "InfoAction" then .closed else .dropped := by
            unfold deriveStatus
            rw [henacted, hratified, hexpired, hdropped]
            rfl
          rw [hstatus]
          refine (closed_kept_iff .dropped rfl (by decide)).trans ?_
          cases ga.ratifiedEpoch <;> simp
      · have hstatus : deriveStatus life ga currentEpoch =
            if ga.type == "InfoAction" then .closed else .expired := by
          unfold deriveStatus
          rw [henacted, hratified, hexpired]
          rfl
        rw [hstatus]
        refine (closed_kept_iff .expired rfl (by decide)).trans ?_
        cases ga.ratifiedEpoch <;> simp
    · -- enacted
      have hstatus : deriveStatus life ga currentEpoch = .enacted := by
        unfold deriveStatus
        rw [henacted]
        rfl
      rw [hstatus]
      refine (boundary_kept_iff rfl _).trans ?_
      rcases ga.ratifiedEpoch with _ | stored
      · simp
      · simp [decisionBoundaryEpoch, isTerminalStatus, TERMINAL_STATUSES, eq_comm]
  · -- the ratified epoch is stored as it is reported
    have hterminal : isTerminalStatus (deriveStatus life ga currentEpoch) = true := by
      unfold deriveStatus
      rw [hratified]
      by_cases henacted : (life.bind (·.enactedEpoch)).isSome = true
      · rw [if_pos henacted]
        rfl
      · rw [if_neg henacted]
        rfl
    refine iff_of_true ?_ (by simp)
    exact (boundary_of_ratified hterminal).trans (boundary_of_ratified hterminal).symm

end

/-! ### Both passes -/

section

variable {ν ρ : Type*}

/-- The committee votes that the requests of a run read are those that are stored, in any order. -/
def TallyReads.VotesOf (reads : TallyReads ν ρ) (rows : List CcVoteDbRow) : Prop :=
  ∀ id found, reads.votes id = some found → found.Perm (rows.filter (·.gaId == id))

/-- **The passes agree** on the actions that the run tallies: they are judged at one boundary, the
recompute leaves them as they are, and another one writes nothing. -/
def CommitteeAgrees [DecidableEq ν] (js : JsNumbers ν) (args : TallyRunArgs)
    (timeline : CommitteeTimeline) (reads : TallyReads ν ρ) (rows : List CcVoteDbRow)
    (cfg : EpochAnchor) (db : TallyDb (TallyColumns ν ρ)) : Prop :=
  let input := args.input js timeline reads
  let run := (syncGovernanceTallies input db).1
  let after := (recomputeCommitteePct js timeline rows args.currentEpoch cfg run).1
  let again := recomputeCommitteePct js timeline rows args.currentEpoch cfg after
  (∀ ga tally, input.Updates db ga tally → ∀ r ∈ run.actions.rows, r.id = ga.id →
      r ∈ after.actions.rows ∧ committeeBoundaryForAction r.stored args.currentEpoch =
        committeeBoundaryForAction (tallyDecision (input.lifecycle ga.id) ga args.currentEpoch)
          args.currentEpoch) ∧
    again.1 = after ∧ again.2.updated = 0

variable [DecidableEq ν] {js : JsNumbers ν} {args : TallyRunArgs} {timeline : CommitteeTimeline}
  {reads : TallyReads ν ρ} {votes : List VoteRow} {history : List HistoryRow}
  {rows : List CcVoteDbRow} {cfg : EpochAnchor} {db : TallyDb (TallyColumns ν ρ)}
  {ga : TallyAction (TallyColumns ν ρ)} {decision : TallyDecision} {columns : TallyColumns ν ρ}

omit [DecidableEq ν] in
theorem hasFigures_columns {boundary : ℤ} {ledgerCc : LedgerTally ν}
    (hreads : reads.VotesOf rows) (hmembers : timeline.members ≠ [])
    (hvotes : votesOn rows ga.id ≠ []) (hdistinct : DistinctTimes timeline (votesOn rows ga.id))
    (hboundary : committeeBoundaryForAction decision args.currentEpoch = some boundary)
    (hledger : (ccTallyPct js (votesOn rows ga.id) timeline boundary
      (some (cfg.epochStartUnix boundary))).ledger = some ledgerCc)
    (hcolumns : reads.columns js timeline (some cfg) args.currentEpoch ga decision = some columns) :
    columns.tally.HasFigures js ledgerCc := by
  unfold TallyReads.columns at hcolumns
  rcases hsummary : reads.summaryOf ga with _ | summary
  · simp [hsummary] at hcolumns
  · simp only [hsummary, hboundary, hmembers, Option.isNone_some, Bool.false_eq_true, or_self,
      if_false] at hcolumns
    rcases hfound : reads.votes ga.id with _ | found
    · simp [hfound] at hcolumns
    · simp only [hfound] at hcolumns
      have hperm : (found.filterMap toCcVote).Perm (votesOn rows ga.id) :=
        (hreads ga.id found hfound).filterMap toCcVote
      have hsome : found.filterMap toCcVote ≠ [] := fun hnone =>
        hvotes (List.nil_perm.mp (hnone ▸ hperm))
      have hcc : ledgerCcTally js timeline (found.filterMap toCcVote) (some boundary) (some cfg) =
          some ledgerCc := by
        rw [ledgerCcTally, if_neg (not_or.mpr ⟨hmembers, hsome⟩)]
        exact (congrArg CcTally.ledger (ccTallyPct_perm hperm.symm hdistinct)).symm.trans hledger
      rw [hcc] at hcolumns
      split at hcolumns
      · cases hcolumns
      · cases hcolumns
        exact ⟨rfl, rfl, rfl, rfl, rfl⟩

/-- **Where the two passes agree.** They do if and only if, of each action that the run tallies, the
columns that are stored give the boundary that its row of `proposal_list` gives. -/
theorem committee_agrees_iff (hnetwork : args.network = some cfg)
    (hrows : rows.Perm (ccVotesSql votes history))
    (hreads : reads.VotesOf (ccVotesSql votes history))
    (hdistinct : ∀ id, DistinctTimes timeline (votesOn (ccVotesSql votes history) id)) :
    CommitteeAgrees js args timeline reads rows cfg db ↔
      ∀ ga tally, (args.input js timeline reads).Updates db ga tally →
        ColumnsSuffice ((args.input js timeline reads).lifecycle ga.id) ga args.currentEpoch := by
  have hsame (id : String) : (votesOn (ccVotesSql votes history) id).Perm (votesOn rows id) :=
    ((hrows.symm.filter _).filterMap toCcVote)
  have hreads : reads.VotesOf rows := fun id found hfound =>
    (hreads id found hfound).trans (hrows.symm.filter _)
  have hdistinct (id : String) : DistinctTimes timeline (votesOn rows id) :=
    (hsame id).pairwise_iff (fun h => symm h) |>.mp (hdistinct id)
  constructor
  · rintro ⟨hagree, -⟩ ga tally hupdates
    obtain ⟨r, hr, hid, hstored, -⟩ := hasRow_run hupdates
    obtain ⟨-, hboundary⟩ := hagree ga tally hupdates r hr hid
    rw [hstored] at hboundary
    exact boundary_stored_iff.mp hboundary
  · intro hsuffice
    refine ⟨fun ga tally hupdates r hr hid => ?_, recompute_again⟩
    obtain ⟨r', hr', hid', hstored, htally⟩ := hasRow_run hupdates
    obtain rfl := TallyDb.actions _ |>.eq_of_key hr hr' (hid.trans hid'.symm)
    have hboundary := boundary_stored_iff.mpr (hsuffice ga tally hupdates)
    rw [← hstored] at hboundary
    refine ⟨mem_recompute hr fun ledgerCc hvotes hmembers hfound => ?_, hboundary⟩
    rw [recomputed] at hfound
    rcases hat : committeeBoundaryForAction r.stored args.currentEpoch with _ | boundary
    · simp [hat] at hfound
    · simp only [hat] at hfound
      rw [htally]
      rw [hid] at hfound hvotes
      have hcolumns := hupdates.2
      refine hasFigures_columns hreads hmembers hvotes (hdistinct ga.id) (hboundary.symm.trans hat)
        hfound ?_
      rw [← hnetwork]
      exact hcolumns

end

/-! ### An action that is not in the answer -/

/-- An action with expiry 110 that has not been decided, with a ratified epoch or without. -/
def undecided (ratified : Option ℤ) : TallyDb (TallyColumns ℕ Unit) :=
  ⟨⟨[{ untallied with status := .active, expiryEpoch := some 110, ratifiedEpoch := ratified }],
    List.nodup_singleton _⟩, .empty⟩

/-- A committee of one, until epoch 105. -/
def formerCommittee : CommitteeTimeline :=
  ⟨[⟨"cold", 0, none, 105, 0, none⟩], fun hot => if hot = "hot" then some "cold" else none⟩

def formerVotes : List VoteRow :=
  [⟨"tx#0", "ConstitutionalCommittee", "cc_hot1", some "hot", "Yes", none, none, some 1, 0, none,
    none, none⟩]

def formerReads : TallyReads ℕ Unit :=
  ⟨fun _ => some none, fun id => some ((ccVotesSql formerVotes []).filter (·.gaId == id)),
    fun _ _ _ => some ()⟩

/-- A run at epoch 115 whose `proposal_list` is empty. -/
def unlistedArgs : TallyRunArgs := ⟨some 115, 0, 0, some ⟨0, 0⟩, 25, [], id⟩

theorem distinctTimes_formerVotes (id : String) :
    DistinctTimes formerCommittee (votesOn (ccVotesSql formerVotes []) id) := by
  have hlength : (votesOn (ccVotesSql formerVotes []) id).length ≤ 1 :=
    (List.length_filterMap_le _ _).trans (List.length_filter_le _ _)
  rcases hvotes : votesOn (ccVotesSql formerVotes []) id with _ | ⟨v, _ | ⟨w, rest⟩⟩
  · exact .nil
  · exact List.pairwise_singleton _ _
  · rw [hvotes] at hlength
    simp at hlength

/-- Without a ratified epoch, both passes judge it at its expiry. -/
theorem committee_agrees_undecided :
    CommitteeAgrees sampleNumbers unlistedArgs formerCommittee formerReads
      (ccVotesSql formerVotes []) ⟨0, 0⟩ (undecided none) := by
  refine (committee_agrees_iff rfl (.refl (ccVotesSql formerVotes [])) (fun id found hfound => ?_)
    distinctTimes_formerVotes).mpr fun ga tally hupdates _ => ?_
  · cases hfound
    exact .refl _
  · have hrow := (mem_open.mp (mem_of_mem_getStale hupdates.1)).1
    obtain rfl := List.mem_singleton.mp hrow
    intro _ _ hexpiry
    cases hexpiry

/-- **A percentage that flips.** The run judges an open action with a ratified epoch at its expiry,
the recompute at the epoch that is stored. -/
theorem not_committee_agrees :
    ¬∀ (args : TallyRunArgs) (timeline : CommitteeTimeline) (reads : TallyReads ℕ Unit)
      (votes : List VoteRow) (history : List HistoryRow) (rows : List CcVoteDbRow)
      (cfg : EpochAnchor) (db : TallyDb (TallyColumns ℕ Unit)), args.network = some cfg →
        rows.Perm (ccVotesSql votes history) → reads.VotesOf (ccVotesSql votes history) →
        (∀ id, DistinctTimes timeline (votesOn (ccVotesSql votes history) id)) →
          CommitteeAgrees sampleNumbers args timeline reads rows cfg db := by
  intro h
  obtain ⟨hagree, -⟩ := h unlistedArgs formerCommittee formerReads formerVotes []
    (ccVotesSql formerVotes []) ⟨0, 0⟩ (undecided (some 100)) rfl (.refl _)
    (fun id found hfound => by cases hfound; exact .refl _) distinctTimes_formerVotes
  have hflips : ∃ ga ∈ (undecided (some 100)).getStaleSyncableActions 25, ∃ r ∈
      (syncGovernanceTallies (unlistedArgs.input sampleNumbers formerCommittee formerReads)
        (undecided (some 100))).1.actions.rows, r.id = ga.id ∧
      ((unlistedArgs.input sampleNumbers formerCommittee formerReads).tallyOf ga (tallyDecision
        ((unlistedArgs.input sampleNumbers formerCommittee formerReads).lifecycle ga.id) ga
        (some 115))).isSome ∧
      r.tally.tally.ccYesPct = none ∧
      r ∉ (recomputeCommitteePct sampleNumbers formerCommittee (ccVotesSql formerVotes [])
        (some 115) ⟨0, 0⟩ (syncGovernanceTallies (unlistedArgs.input sampleNumbers formerCommittee
          formerReads) (undecided (some 100))).1).1.actions.rows := by
    decide +kernel
  obtain ⟨ga, hstale, r, hr, hid, htally, -, hgone⟩ := hflips
  obtain ⟨tally, htally⟩ := Option.isSome_iff_exists.mp htally
  exact hgone (hagree ga tally ⟨hstale, htally⟩ r hr hid).1

end DrepTalk
