import DrepTalk.Governance.PoolEconomics
import DrepTalk.Library.TransitionSystem

/-!
# Retention of pool distributions over all runs

Runs of `syncPoolEconomics` over nondecreasing epochs, any of which may find its requests failing,
while the mirrored actions move on. A parameter change is discovered, becomes active, and is
ratified in some epoch and enacted in the next, or expires at its expiry epoch, or is dropped; none
of this before it was submitted (`LifecycleStep`).

**What retention owes** (`PoolHistoryRight`). No deleted distribution is the basis of an action that
was mirrored then, in its state at that time or in one it could still reach; each row holds the data
of its epoch; and a newer one is left wherever one is deleted.

**What is lost.** An action that is open and has no submission epoch is not waited for
(`not_poolHistoryRight`). In every run that only finds open parameter changes with one, retention is
right (`poolHistoryRight`).
-/

namespace DrepTalk

/-! ### Lifecycles -/

/-- The action was submitted by the epoch. -/
def ImpactAction.Since (a : ImpactAction) (epoch : ℤ) : Prop :=
  ∀ submitted ∈ a.submittedEpoch, submitted ≤ epoch

/-- What the mirror may do to an action. -/
inductive LifecycleStep (a : ImpactAction) : ImpactAction → Prop
  | active (h : a.Open) : LifecycleStep a { a with status := .active }
  /-- The epoch of the enactment is written by another phase than the status. -/
  | enactedEpoch (epoch : ℤ) (h : a.enactedEpoch = none) (hsince : a.Since (epoch - 1))
    (hratified : ∀ r ∈ a.ratifiedEpoch, epoch = r + 1) (hopen : a.Open ∨ a.status = .ratified) :
    LifecycleStep a { a with enactedEpoch := some epoch }
  | ratified (r : ℤ) (h : a.Open) (hsince : a.Since r)
    (henacted : ∀ enacted ∈ a.enactedEpoch, enacted = r + 1) :
    LifecycleStep a
      { a with status := .ratified, decidedEpoch := some r, ratifiedEpoch := some r }
  /-- The mirror may miss the epoch in which the action was ratified only. -/
  | enacted (r : ℤ) (h : a.Open ∧ a.Since r ∨ a.status = .ratified ∧ a.ratifiedEpoch = some r)
    (henacted : ∀ enacted ∈ a.enactedEpoch, enacted = r + 1) :
    LifecycleStep a
      { a with status := .enacted, decidedEpoch := some (r + 1), ratifiedEpoch := some r }
  | expired (expiry : ℤ) (h : a.Open) (hexpiry : a.expiryEpoch.getD expiry = expiry)
    (hsince : a.Since (expiry - 1)) :
    LifecycleStep a { a with status := .expired, decidedEpoch := some expiry }
  | dropped (epoch : ℤ) (h : a.Open) (hsince : a.Since (epoch - 1)) :
    LifecycleStep a { a with status := .dropped, decidedEpoch := some epoch }

/-- The states an action may still reach. -/
def ImpactAction.MayBecome : ImpactAction → ImpactAction → Prop :=
  Relation.ReflTransGen LifecycleStep

section Lifecycle

variable {a b : ImpactAction} {epoch : ℤ}

theorem LifecycleStep.submittedEpoch (h : LifecycleStep a b) :
    b.submittedEpoch = a.submittedEpoch := by
  cases h <;> rfl

theorem LifecycleStep.open_of_open (h : LifecycleStep a b) (hopen : b.Open) : a.Open := by
  cases h with
  | active h | ratified r h | expired expiry h | dropped epoch h => exact h
  | enactedEpoch epoch h => exact hopen
  | enacted r h => rcases hopen with hopen | hopen <;> cases hopen

/-- **Where a basis comes from.** It stays the same, or an action that was open gets one, and not
from before its submission. -/
theorem LifecycleStep.basisEpoch (h : LifecycleStep a b) (hbasis : basisEpoch b = some epoch) :
    DrepTalk.basisEpoch a = some epoch ∨ a.Open ∧ a.Since epoch := by
  cases h with
  | active h => cases hbasis
  | enactedEpoch enacted h hsince hratified hopen =>
    left
    rcases hopen with (hstatus | hstatus) | hstatus <;>
      simpa only [DrepTalk.basisEpoch, hstatus] using hbasis
  | ratified r h hsince henacted =>
    obtain rfl : r = epoch := Option.some.inj hbasis
    exact .inr ⟨h, hsince⟩
  | enacted r h henacted =>
    have hr : r = epoch := by
      simp only [DrepTalk.basisEpoch] at hbasis
      rcases henactedEpoch : a.enactedEpoch with _ | enacted
      · rw [henactedEpoch] at hbasis
        have hsub : r + 1 - 1 = epoch := Option.some.inj hbasis
        omega
      · rw [henactedEpoch] at hbasis
        have hsub : enacted - 1 = epoch := Option.some.inj hbasis
        have := henacted enacted henactedEpoch
        omega
    subst hr
    refine h.symm.imp ?_ id
    rintro ⟨hstatus, hratified⟩
    simp only [DrepTalk.basisEpoch, hstatus, hratified]
  | expired expiry h hexpiry hsince =>
    have hepoch : expiry - 1 = epoch := by
      simp only [DrepTalk.basisEpoch] at hbasis
      rcases hexpiryEpoch : a.expiryEpoch with _ | stored
      · rw [hexpiryEpoch] at hbasis
        exact Option.some.inj hbasis
      · rw [hexpiryEpoch] at hbasis hexpiry
        obtain rfl : stored = expiry := hexpiry
        exact Option.some.inj hbasis
    exact .inr ⟨h, hepoch ▸ hsince⟩
  | dropped dropped h hsince =>
    obtain rfl : dropped - 1 = epoch := Option.some.inj hbasis
    exact .inr ⟨h, hsince⟩

theorem ImpactAction.MayBecome.basisEpoch (h : a.MayBecome b)
    (hbasis : DrepTalk.basisEpoch b = some epoch) :
    DrepTalk.basisEpoch a = some epoch ∨ a.Open ∧ a.Since epoch := by
  induction h using Relation.ReflTransGen.head_induction_on with
  | refl => exact .inl hbasis
  | head hstep _ ih =>
    rcases ih with hlater | ⟨hopen, hsince⟩
    · exact hstep.basisEpoch hlater
    · refine .inr ⟨hstep.open_of_open hopen, fun submitted hsubmitted => hsince submitted ?_⟩
      rwa [hstep.submittedEpoch]

end Lifecycle

/-! ### Runs -/

/-- A row that a run has deleted: its epoch, the actions that were mirrored then, and the epochs that
the run has left. -/
structure PoolDeletion where
  epoch : ℤ
  actions : List ImpactAction
  left : List ℤ
  deriving DecidableEq

/-- The tables, the clock, and what has been deleted so far. -/
structure PoolWorld where
  actions : List ImpactAction
  stored : PoolEconomicsTable
  now : ℤ
  deletions : List PoolDeletion

/-- The world after a run: what is not there any more has been deleted. -/
def PoolWorld.afterSync (cfg : EpochAnchor) (w : PoolWorld) (koios : PoolEconomicsKoios)
    (readFails : Bool) (now : ℤ) : PoolWorld :=
  match syncPoolEconomics cfg w.actions w.stored koios readFails now with
  | none => { w with now }
  | some (stored, _) =>
    let left := stored.rows.map (·.epoch)
    let gone := (w.stored.rows.map (·.epoch)).filter fun e => !left.contains e
    { w with stored, now, deletions := w.deletions ++ gone.map (⟨·, w.actions, left⟩) }

inductive PoolEvent
  | sync
  | mirror

/-- A run, in a later epoch or the same; or the mirror moves on: actions come in, and those that are
there take steps of their lifecycles. -/
inductive PoolStep (cfg : EpochAnchor) (w : PoolWorld) : PoolEvent → PoolWorld → Prop
  | sync (koios : PoolEconomicsKoios) (readFails : Bool) (now : ℤ)
    (h : cfg.epochFromUnix (w.now.fdiv 1000) ≤ cfg.epochFromUnix (now.fdiv 1000)) :
    PoolStep cfg w .sync (w.afterSync cfg koios readFails now)
  | mirror (actions : List ImpactAction)
    (h : ∀ b ∈ actions, (∀ a ∈ w.actions, a.id ≠ b.id) ∨
      ∃ a ∈ w.actions, a.id = b.id ∧ (a.type = PARAMETER_CHANGE → a.MayBecome b)) :
    PoolStep cfg w .mirror { w with actions }

/-- Before the first run; distributions may be stored. -/
structure PoolWorld.Initial (w : PoolWorld) : Prop where
  labelled : ∀ row ∈ w.stored.rows, row.body.epoch = row.epoch
  deletions : w.deletions = []

def poolSystem (cfg : EpochAnchor) : TransitionSystem PoolWorld PoolEvent where
  Init := PoolWorld.Initial
  Step := PoolStep cfg

structure PoolHistoryRight (w : PoolWorld) : Prop where
  deletions : ∀ d ∈ w.deletions, ∀ a ∈ d.actions, a.type = PARAMETER_CHANGE →
    ∀ b, a.MayBecome b → basisEpoch b ≠ some d.epoch
  labelled : ∀ row ∈ w.stored.rows, row.body.epoch = row.epoch
  newest : ∀ d ∈ w.deletions, ∃ e ∈ d.left, d.epoch < e

/-- The condition on a run: it finds every open parameter change with its submission epoch. -/
def submissionsKnown (w : PoolWorld) (event : PoolEvent) : Prop :=
  event = .sync → ∀ a ∈ w.actions, a.type = PARAMETER_CHANGE → a.Open → a.submittedEpoch.isSome

/-! ### One run -/

section Sync

variable {cfg : EpochAnchor} {actions : List ImpactAction} {stored stored' : PoolEconomicsTable}
  {koios : PoolEconomicsKoios} {readFails : Bool} {now : ℤ} {result : PoolSyncResult}

/-- The epochs a run deletes, once it has stored a distribution. -/
def staleAfter (actions : List ImpactAction) (stored : PoolEconomicsTable) (readFails : Bool)
    (row : PoolEconomicsRow) : List ℤ :=
  staleEpochs actions (storeDistribution stored row) readFails row.epoch

theorem syncPoolEconomics_effect
    (h : syncPoolEconomics cfg actions stored koios readFails now = some (stored', result)) :
    stored' = stored ∨ ∃ data : PoolEconomicsJson,
      data.epoch = cfg.epochFromUnix (now.fdiv 1000) ∧
        stored' = (storeDistribution stored ⟨data.epoch, data, now⟩).deleteWhere fun row =>
          (staleAfter actions stored readFails ⟨data.epoch, data, now⟩).contains row.epoch := by
  rw [syncPoolEconomics] at h
  split_ifs at h with hmax
  · exact .inl (Prod.mk.inj (Option.some.inj h)).1.symm
  · obtain ⟨data, -, hout⟩ := Option.map_eq_some_iff.mp h
    rcases data with _ | data
    · exact .inl (Prod.mk.inj hout).1.symm
    · by_cases hlabel : data.epoch = cfg.epochFromUnix (now.fdiv 1000)
      · refine .inr ⟨data, hlabel, ?_⟩
        simp only [← hlabel, ne_eq, not_true_eq_false, if_false] at hout
        exact (Prod.mk.inj hout).1.symm
      · simp only [ne_eq, hlabel, not_false_eq_true, if_true] at hout
        exact .inl (Prod.mk.inj hout).1.symm

theorem mem_storeDistribution {row r : PoolEconomicsRow} :
    r ∈ (storeDistribution stored row).rows ↔ r ∈ stored.rows ∧ r.epoch ≠ row.epoch ∨ r = row := by
  refine (KeyedTable.mem_upsert _).trans (or_congr_right ⟨?_, ?_⟩)
  · rintro (⟨-, -, -, rfl⟩ | ⟨rfl, -⟩) <;> rfl
  · rintro rfl
    by_cases htaken : r.epoch ∈ stored.rows.map (·.epoch)
    · obtain ⟨r₀, hr₀, hkey⟩ := List.mem_map.mp htaken
      exact .inl ⟨r₀, hr₀, hkey, rfl⟩
    · exact .inr ⟨rfl, htaken⟩

theorem syncPoolEconomics_rows
    (h : syncPoolEconomics cfg actions stored koios readFails now = some (stored', result))
    {row : PoolEconomicsRow} (hrow : row ∈ stored'.rows) :
    row ∈ stored.rows ∨
      row.epoch = cfg.epochFromUnix (now.fdiv 1000) ∧ row.body.epoch = row.epoch := by
  rcases syncPoolEconomics_effect h with rfl | ⟨data, hdata, rfl⟩
  · exact .inl hrow
  · rcases mem_storeDistribution.mp (Table.mem_deleteWhere.mp hrow).1 with ⟨hmem, -⟩ | rfl
    · exact .inl hmem
    · exact .inr ⟨hdata, rfl⟩

theorem syncPoolEconomics_gone
    (h : syncPoolEconomics cfg actions stored koios readFails now = some (stored', result)) {e : ℤ}
    (hstored : e ∈ stored.rows.map (·.epoch)) (hgone : e ∉ stored'.rows.map (·.epoch)) :
    ¬(poolEconomicsKeepEpochs (actions.filter fun a => a.type == PARAMETER_CHANGE)).Keeps e ∧
      ∃ e' ∈ stored'.rows.map (·.epoch), e < e' := by
  rcases syncPoolEconomics_effect h with rfl | ⟨data, -, rfl⟩
  · exact absurd hstored hgone
  · -- a row that is not among the stale ones is still there
    have hleft : ∀ row ∈ (storeDistribution stored ⟨data.epoch, data, now⟩).rows,
        row.epoch ∉ staleAfter actions stored readFails ⟨data.epoch, data, now⟩ →
          row.epoch ∈ ((storeDistribution stored ⟨data.epoch, data, now⟩).deleteWhere fun row =>
            (staleAfter actions stored readFails
              ⟨data.epoch, data, now⟩).contains row.epoch).rows.map (·.epoch) := by
      intro row hrow hfresh
      refine List.mem_map_of_mem (Table.mem_deleteWhere.mpr ⟨hrow, ?_⟩)
      rw [List.contains_eq_mem, decide_eq_false hfresh]
    have hheld : ∃ row ∈ (storeDistribution stored ⟨data.epoch, data, now⟩).rows,
        row.epoch = e := by
      obtain ⟨row, hrow, rfl⟩ := List.mem_map.mp hstored
      by_cases hnew : row.epoch = data.epoch
      · exact ⟨_, mem_storeDistribution.mpr (.inr rfl), hnew.symm⟩
      · exact ⟨row, mem_storeDistribution.mpr (.inl ⟨hrow, hnew⟩), rfl⟩
    obtain ⟨row, hrow, rfl⟩ := hheld
    have hstale : row.epoch ∈ staleAfter actions stored readFails ⟨data.epoch, data, now⟩ := by
      by_contra hfresh
      exact hgone (hleft row hrow hfresh)
    obtain ⟨hlt, hkeeps⟩ := mem_staleEpochs hstale
    refine ⟨hkeeps, data.epoch, ?_, hlt⟩
    exact hleft ⟨data.epoch, data, now⟩ (mem_storeDistribution.mpr (.inr rfl)) fun hmem =>
      absurd (mem_staleEpochs hmem).1 (lt_irrefl _)

end Sync

/-! ### All runs -/

section Runs

variable {cfg : EpochAnchor} {w w' : PoolWorld}

theorem basisEpoch_ne_of_not_keeps {actions : List ImpactAction} {epoch : ℤ}
    (hknown : ∀ a ∈ actions, a.type = PARAMETER_CHANGE → a.Open → a.submittedEpoch.isSome)
    (hkeeps : ¬(poolEconomicsKeepEpochs
      (actions.filter fun a => a.type == PARAMETER_CHANGE)).Keeps epoch) {a : ImpactAction}
    (hmem : a ∈ actions) (htype : a.type = PARAMETER_CHANGE) {b : ImpactAction}
    (h : a.MayBecome b) : basisEpoch b ≠ some epoch := by
  intro hbasis
  refine hkeeps (keeps_poolEconomicsKeepEpochs
    (List.mem_filter.mpr ⟨hmem, beq_iff_eq.mpr htype⟩) ?_)
  refine (h.basisEpoch hbasis).imp_right ?_
  rintro ⟨hopen, hsince⟩
  obtain ⟨submitted, hsubmitted⟩ := Option.isSome_iff_exists.mp (hknown a hmem htype hopen)
  exact ⟨hopen, submitted, hsubmitted, hsince submitted hsubmitted⟩

theorem PoolHistoryRight.afterSync (h : PoolHistoryRight w) (koios : PoolEconomicsKoios)
    (readFails : Bool) (now : ℤ) (hknown : submissionsKnown w .sync) :
    PoolHistoryRight (w.afterSync cfg koios readFails now) := by
  rw [PoolWorld.afterSync]
  rcases hsync : syncPoolEconomics cfg w.actions w.stored koios readFails now with
    _ | ⟨stored, result⟩
  · exact ⟨h.deletions, h.labelled, h.newest⟩
  · have hdeletion : ∀ d ∈ w.deletions ++ ((w.stored.rows.map (·.epoch)).filter fun e =>
        !(stored.rows.map (·.epoch)).contains e).map
          (⟨·, w.actions, stored.rows.map (·.epoch)⟩),
        (∀ a ∈ d.actions, a.type = PARAMETER_CHANGE → ∀ b, a.MayBecome b →
          basisEpoch b ≠ some d.epoch) ∧ ∃ e ∈ d.left, d.epoch < e := by
      intro d hd
      rcases List.mem_append.mp hd with hold | hnew
      · exact ⟨h.deletions d hold, h.newest d hold⟩
      · obtain ⟨e, he, rfl⟩ := List.mem_map.mp hnew
        obtain ⟨hstored, hgone⟩ := List.mem_filter.mp he
        rw [Bool.not_eq_true', List.contains_eq_mem, decide_eq_false_iff_not] at hgone
        obtain ⟨hkeeps, hnewer⟩ := syncPoolEconomics_gone hsync hstored hgone
        exact ⟨fun a ha htype b hb =>
          basisEpoch_ne_of_not_keeps (hknown rfl) hkeeps ha htype hb, hnewer⟩
    refine ⟨fun d hd => (hdeletion d hd).1, fun row hrow => ?_, fun d hd => (hdeletion d hd).2⟩
    rcases syncPoolEconomics_rows hsync hrow with hmem | ⟨-, hlabel⟩
    · exact h.labelled row hmem
    · exact hlabel

theorem PoolHistoryRight.step (h : PoolHistoryRight w) {event : PoolEvent}
    (hknown : submissionsKnown w event) (hstep : PoolStep cfg w event w') :
    PoolHistoryRight w' := by
  cases hstep with
  | sync koios readFails now => exact h.afterSync koios readFails now hknown
  | mirror actions => exact ⟨h.deletions, h.labelled, h.newest⟩

end Runs

/-- **Retention is right** in every run that only finds open parameter changes with a submission
epoch: no distribution that an action rests on is deleted, nor the newest. -/
theorem poolHistoryRight {cfg : EpochAnchor} {w : PoolWorld}
    (h : ((poolSystem cfg).restrict submissionsKnown).Reachable w) : PoolHistoryRight w := by
  refine h.invariant ?_ ?_
  · rintro w ⟨hlabelled, hnone⟩
    refine ⟨fun d hd => ?_, hlabelled, fun d hd => ?_⟩ <;>
      cases hnone ▸ hd
  · rintro w event w' hw ⟨hknown, hstep⟩
    exact hw.step hknown hstep

/-! ### Two runs -/

def sampleEpochs : EpochAnchor := ⟨0, 0⟩

def sampleEpochMs (epoch : ℤ) : ℤ := epoch * 432000000

def sampleDistribution (epoch : ℤ) : PoolEconomicsRow := ⟨epoch, ⟨epoch, "3", "1", []⟩, 1⟩

def sampleUpstream (epoch : ℤ) : PoolEconomicsKoios :=
  ⟨fun _ => some [], some (some ⟨epoch, "1", some "3"⟩)⟩

/-- Two parameter changes that are over, and two that are open. -/
def samplePools : PoolWorld where
  actions := [⟨"a", PARAMETER_CHANGE, .enacted, some 600, none, some 614, some 613, some 614⟩,
    ⟨"b", PARAMETER_CHANGE, .expired, some 655, some 661, some 661, none, none⟩,
    ⟨"c", PARAMETER_CHANGE, .active, some 655, some 670, none, none, none⟩,
    ⟨"d", PARAMETER_CHANGE, .pending, some 657, none, none, none, none⟩]
  stored := ⟨[612, 613, 650, 655, 659, 660].map sampleDistribution, by decide⟩
  now := sampleEpochMs 661
  deletions := []

/-- A run deletes what none of them will want. -/
theorem poolHistoryRight_kept : ∃ w : PoolWorld,
    w.deletions.map (·.epoch) = [612, 650] ∧ PoolHistoryRight w := by
  have hinit : samplePools.Initial := ⟨by decide, rfl⟩
  have hknown : submissionsKnown samplePools .sync := fun _ => by decide
  have hsync : PoolStep sampleEpochs samplePools .sync
      (samplePools.afterSync sampleEpochs (sampleUpstream 662) false (sampleEpochMs 662)) :=
    .sync _ _ _ (by decide)
  exact ⟨_, by decide +kernel, poolHistoryRight (.step (.init hinit) ⟨hknown, hsync⟩)⟩

/-- An open parameter change whose submission epoch is not known. -/
def sampleUndated : PoolWorld where
  actions := [⟨"a", PARAMETER_CHANGE, .active, none, some 661, none, none, none⟩]
  stored := ⟨[sampleDistribution 660], List.nodup_singleton _⟩
  now := sampleEpochMs 660
  deletions := []

/-- The last epoch before it expires is deleted while it is open. -/
theorem not_poolHistoryRight : ¬∀ w : PoolWorld,
    (poolSystem sampleEpochs).Reachable w → PoolHistoryRight w := by
  intro hall
  have hinit : sampleUndated.Initial := ⟨by decide, rfl⟩
  have hsync : PoolStep sampleEpochs sampleUndated .sync
      (sampleUndated.afterSync sampleEpochs (sampleUpstream 661) false (sampleEpochMs 661)) :=
    .sync _ _ _ (by decide)
  have hright := hall _ (.step (.init hinit) hsync)
  refine hright.deletions ⟨660, sampleUndated.actions, [661]⟩ (by decide +kernel) _
    (List.mem_singleton_self _) rfl _ (.single (.expired 661 (.inl rfl) rfl ?_)) rfl
  rintro _ ⟨⟩

end DrepTalk
