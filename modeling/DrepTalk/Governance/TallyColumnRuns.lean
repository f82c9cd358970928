import DrepTalk.Governance.TallyColumns
import DrepTalk.Governance.TallyRuns

/-!
# What becomes of a published tally

Runs of `syncGovernanceTallies`, each of which gets a summary for an action that it tallies, gets
none, or fails on the action.

**What goes wrong** (`not_tallies_published`). A run that gets no summary stores a tally without any
figure. If the same run freezes the action, no later run reads a summary for it, and the figures
that an earlier run has published are gone.

**What holds** (`tallies_published`). Where no action gets an empty answer once a summary of it has
been read, and the run that reads the first one stores it, each tally is that of a summary that was
read, with the committee figures of the summary or of the ledger.
-/

namespace DrepTalk

section

variable {τ : Type*} {input : TallyInput τ} {acc : TallyDb τ × TallySyncResult}
  {step : TallyDb τ × TallySyncResult → TallyAction τ → TallyDb τ × TallySyncResult}
  {actions : List (TallyAction τ)} {ga : TallyAction τ}

/-! ### Loops over actions -/

theorem foldl_keeps {P : TallyDb τ × TallySyncResult → Prop}
    (hstep : ∀ acc, ∀ ga' ∈ actions, P acc → P (step acc ga')) (h : P acc) :
    P (actions.foldl step acc) := by
  induction actions generalizing acc with
  | nil => exact h
  | cons first rest ih =>
    exact ih (fun acc ga' hga' => hstep acc ga' (List.mem_cons_of_mem _ hga'))
      (hstep acc first List.mem_cons_self h)

theorem foldl_moves {P Q : TallyDb τ × TallySyncResult → Prop}
    (hnodup : (actions.map (·.id)).Nodup) (hmem : ga ∈ actions)
    (hbefore : ∀ acc, ∀ ga' ∈ actions, ga.id ≠ ga'.id → P acc → P (step acc ga'))
    (hmove : ∀ acc, P acc → Q (step acc ga))
    (hafter : ∀ acc, ∀ ga' ∈ actions, ga.id ≠ ga'.id → Q acc → Q (step acc ga')) (h : P acc) :
    Q (actions.foldl step acc) := by
  obtain ⟨front, back, rfl⟩ := List.append_of_mem hmem
  rw [List.map_append, List.map_cons, List.nodup_append, List.nodup_cons] at hnodup
  obtain ⟨-, ⟨hback, -⟩, hfront⟩ := hnodup
  rw [List.foldl_append, List.foldl_cons]
  refine foldl_keeps (fun acc ga' hga' => hafter acc ga' ?_ fun hid => hback ?_)
    (hmove _ (foldl_keeps (fun acc ga' hga' => hbefore acc ga' ?_ fun hid => ?_) h))
  · exact List.mem_append_right _ (List.mem_cons_of_mem _ hga')
  · exact hid ▸ List.mem_map_of_mem hga'
  · exact List.mem_append_left _ hga'
  · exact hfront _ (List.mem_map_of_mem hga') _ List.mem_cons_self hid.symm

/-! ### The tally of an action -/

/-- The action is stored with the tally. -/
def TallyDb.Holds (db : TallyDb τ) (id : String) (tally : τ) : Prop :=
  ∃ ga ∈ db.actions.rows, ga.id = id ∧ ga.tally = tally

theorem TallyDb.Holds.eq {db : TallyDb τ} {tally : τ} (h : db.Holds ga.id tally)
    (hga : ga ∈ db.actions.rows) : ga.tally = tally := by
  obtain ⟨ga', hmem, hid, htally⟩ := h
  exact db.actions.eq_of_key hga hmem hid.symm ▸ htally

theorem holds_updateWhere {db : TallyDb τ} {id : String} {tally : τ} {p : TallyAction τ → Bool}
    {f : TallyAction τ → TallyAction τ} {hkey : ∀ ga, p ga = true → (f ga).id = ga.id}
    (hf : ∀ ga, p ga = true → ga.id = id → (f ga).tally = ga.tally) (h : db.Holds id tally) :
    TallyDb.Holds { db with actions := db.actions.updateWhere p f hkey } id tally := by
  obtain ⟨ga, hmem, hid, rfl⟩ := h
  refine ⟨_, Table.mem_updateWhere_of_mem p f hmem, ?_⟩
  by_cases hp : p ga = true
  · rw [if_pos hp]
    exact ⟨(hkey ga hp).trans hid, hf ga hp hid⟩
  · rw [if_neg hp]
    exact ⟨hid, rfl⟩

theorem holds_tallyAction_self {tally old : τ}
    (htally : input.tallyOf ga (tallyDecision (input.lifecycle ga.id) ga input.currentEpoch) =
      some tally) (h : acc.1.Holds ga.id old) : (tallyAction input acc ga).1.Holds ga.id tally := by
  obtain ⟨ga', hmem, hid, -⟩ := h
  rw [TallyDb.Holds, actions_tallyAction htally]
  refine ⟨_, Table.mem_updateWhere_of_mem _ _ hmem, ?_⟩
  rw [if_pos (beq_iff_eq.mpr hid)]
  exact ⟨hid, rfl⟩

theorem holds_tallyAction_other {ga' : TallyAction τ} {id : String} {tally : τ} (hid : id ≠ ga'.id)
    (h : acc.1.Holds id tally) : (tallyAction input acc ga').1.Holds id tally := by
  rcases htally : input.tallyOf ga' (tallyDecision (input.lifecycle ga'.id) ga'
    input.currentEpoch) with _ | tally'
  · rwa [tallyAction_of_none htally]
  · rw [TallyDb.Holds, actions_tallyAction htally]
    refine holds_updateWhere (fun ga hp hga => ?_) h
    exact absurd (hga.symm.trans (beq_iff_eq.mp hp)) hid

theorem holds_recheckRatified {ga' : TallyAction τ} {id : String} {tally : τ}
    (h : acc.1.Holds id tally) : (recheckRatified input acc ga').1.Holds id tally := by
  by_cases hsame : ∀ life ∈ input.lifecycle ga'.id,
    deriveStatus (some life) ga' input.currentEpoch = ga'.status
  · rwa [recheckRatified_of_same hsame]
  · push Not at hsame
    obtain ⟨life, hlife, hother⟩ := hsame
    rw [Option.mem_def] at hlife
    rw [TallyDb.Holds, actions_recheckRatified hlife hother]
    exact holds_updateWhere (fun _ _ _ => rfl) h

def tallyAfter (input : TallyInput τ) (db : TallyDb τ) (ga : TallyAction τ) : τ :=
  if ga.id ∈ (db.getStaleSyncableActions input.limit).map (·.id) then
    (input.tallyOf ga (tallyDecision (input.lifecycle ga.id) ga input.currentEpoch)).getD ga.tally
  else ga.tally

theorem holds_run {db : TallyDb τ} (input : TallyInput τ) (hga : ga ∈ db.actions.rows) :
    (syncGovernanceTallies input db).1.Holds ga.id (tallyAfter input db ga) := by
  have hself : db.Holds ga.id ga.tally := ⟨ga, hga, rfl, rfl⟩
  unfold syncGovernanceTallies
  by_cases hnone : db.getStaleSyncableActions input.limit = [] ∧
    db.getRatifiedActions input.limit = []
  · rw [if_pos hnone, tallyAfter, hnone.1]
    exact hself
  · rw [if_neg hnone]
    refine foldl_keeps (P := fun acc => acc.1.Holds ga.id (tallyAfter input db ga))
      (fun acc ga' _ h => holds_recheckRatified h) ?_
    have hbackfilled : (db.backfillRatifiedEpochs input.lifecycle).Holds ga.id ga.tally :=
      holds_updateWhere (fun _ _ _ => rfl) hself
    by_cases hmem : ga.id ∈ (db.getStaleSyncableActions input.limit).map (·.id)
    · have hlisted := (mem_ids (fun ga' hmem => (mem_open.mp (mem_of_mem_getStale hmem)).1) hga).mp
        hmem
      rw [tallyAfter, if_pos hmem]
      rcases htally : input.tallyOf ga (tallyDecision (input.lifecycle ga.id) ga
        input.currentEpoch) with _ | tally
      · -- the run fails on the action
        refine foldl_keeps (P := fun acc => acc.1.Holds ga.id ga.tally) (fun acc ga' hga' h => ?_)
          hbackfilled
        by_cases hid : ga.id = ga'.id
        · have hrow := (mem_open.mp (mem_of_mem_getStale hga')).1
          obtain rfl := db.actions.eq_of_key hga hrow hid
          rwa [tallyAction_of_none htally]
        · exact holds_tallyAction_other hid h
      · exact foldl_moves (P := fun acc => acc.1.Holds ga.id ga.tally)
          (Q := fun acc => acc.1.Holds ga.id tally) (nodup_ids db _ _ _) hlisted
          (fun acc ga' _ hid h => holds_tallyAction_other hid h)
          (fun acc h => holds_tallyAction_self htally h)
          (fun acc ga' _ hid h => holds_tallyAction_other hid h) hbackfilled
    · rw [tallyAfter, if_neg hmem]
      refine foldl_keeps (P := fun acc => acc.1.Holds ga.id ga.tally) (fun acc ga' hga' h => ?_)
        hbackfilled
      exact holds_tallyAction_other
        (fun hid => hmem (hid ▸ List.mem_map_of_mem hga')) h

end

/-! ### The system -/

/-- The tables, and for each action the summaries that runs have read of it. -/
structure SummaryWorld (ν ρ : Type*) where
  db : TallyDb (TallyColumns ν ρ)
  read : String → List (VotingSummary ν)

section

variable {ν ρ : Type*}

/-- The summaries of an action that a run reads. -/
def TallyReads.summaries (reads : TallyReads ν ρ) (db : TallyDb (TallyColumns ν ρ)) (limit : ℕ)
    (id : String) : List (VotingSummary ν) :=
  ((db.getStaleSyncableActions limit).filter (·.id == id)).filterMap fun ga =>
    (reads.summaryOf ga).join

inductive SummaryMove (ν ρ : Type*)
  | run (args : TallyRunArgs) (timeline : CommitteeTimeline) (reads : TallyReads ν ρ)
  | site

/-- The site keeps the actions with their tallies and statuses, and adds new ones. -/
structure SummarySite (db db' : TallyDb (TallyColumns ν ρ)) : Prop where
  kept : ∀ ga ∈ db.actions.rows, db'.Holds ga.id ga.tally
  status : ∀ ga ∈ db.actions.rows, db'.Stores ga ga.status

/-- Runs from a state in which none has been made. -/
def summarySystem (js : JsNumbers ν) (ρ : Type*) :
    TransitionSystem (SummaryWorld ν ρ) (SummaryMove ν ρ) where
  Init w := w.read = fun _ => []
  Step w move w' :=
    match move with
    | .run args timeline reads =>
      w' = ⟨(syncGovernanceTallies (args.input js timeline reads) w.db).1,
        fun id => w.read id ++ reads.summaries w.db args.limit id⟩
    | .site => SummarySite w.db w'.db ∧ w'.read = w.read

/-- The condition on the runs: an action gets an empty answer only while no summary of it has been
read, and the run that reads the first one gets as far as to store it. -/
def answered (js : JsNumbers ν) (w : SummaryWorld ν ρ) : SummaryMove ν ρ → Prop
  | .run args timeline reads => ∀ ga ∈ w.db.getStaleSyncableActions args.limit,
      (reads.summaryOf ga = some none → w.read ga.id = []) ∧
        (w.read ga.id = [] → (reads.summaryOf ga).join.isSome →
          ((args.input js timeline reads).tallyOf ga (tallyDecision
            ((args.input js timeline reads).lifecycle ga.id) ga args.currentEpoch)).isSome)
  | .site => True

/-- The figures are those of the summary, those of the committee possibly of the ledger. -/
def GovernanceTally.FiguresOf (js : JsNumbers ν) (tally : GovernanceTally ν)
    (s : VotingSummary ν) : Prop :=
  ∃ ledgerCc, tally = (tallyFields js (some s)).withLedger js ledgerCc

/-- Each action of which a summary has been read holds the figures of one that was read. -/
def SummaryWorld.Published (js : JsNumbers ν) (w : SummaryWorld ν ρ) : Prop :=
  ∀ ga ∈ w.db.actions.rows, w.read ga.id ≠ [] → ∃ s ∈ w.read ga.id, ga.tally.tally.FiguresOf js s

/-- Summaries are read of actions that are stored. -/
def SummaryWorld.ReadsStored (w : SummaryWorld ν ρ) : Prop :=
  ∀ id, w.read id ≠ [] → id ∈ w.db.ids

variable {js : JsNumbers ν} {w w' : SummaryWorld ν ρ} {reads : TallyReads ν ρ}
  {ga : TallyAction (TallyColumns ν ρ)}

theorem columns_spec {timeline : CommitteeTimeline} {cfg : Option EpochAnchor}
    {currentEpoch : Option ℤ} {decision : TallyDecision} {columns : TallyColumns ν ρ}
    (h : reads.columns js timeline cfg currentEpoch ga decision = some columns) :
    ∃ summary ledgerCc, reads.summaryOf ga = some summary ∧
      columns.tally = (tallyFields js summary).withLedger js ledgerCc := by
  unfold TallyReads.columns at h
  rcases hsummary : reads.summaryOf ga with _ | summary
  · simp [hsummary] at h
  · simp only [hsummary] at h
    split at h
    · cases h
    · split at h
      · cases h
      · cases h
        exact ⟨summary, _, rfl, rfl⟩

theorem mem_summaries {db : TallyDb (TallyColumns ν ρ)} {limit : ℕ} {s : VotingSummary ν} :
    s ∈ reads.summaries db limit ga.id ↔ ∃ ga' ∈ db.getStaleSyncableActions limit,
      ga'.id = ga.id ∧ reads.summaryOf ga' = some (some s) := by
  simp only [TallyReads.summaries, List.mem_filterMap, List.mem_filter, beq_iff_eq, and_assoc,
    Option.join_eq_some_iff]

theorem readsStored_of_step {move : SummaryMove ν ρ} (hw : w.ReadsStored)
    (hstep : (summarySystem js ρ).Step w move w') : w'.ReadsStored := by
  intro id hread
  rcases move with ⟨args, timeline, reads⟩ | _
  · obtain rfl : w' = _ := hstep
    rw [ids_syncGovernanceTallies]
    by_cases hold : w.read id = []
    · have hread : w.read id ++ reads.summaries w.db args.limit id ≠ [] := hread
      rw [hold, List.nil_append] at hread
      obtain ⟨s, hs⟩ := List.exists_mem_of_ne_nil _ hread
      obtain ⟨ga, hga, -⟩ := List.mem_filterMap.mp hs
      obtain ⟨hstale, hid⟩ := List.mem_filter.mp hga
      have hrow := (mem_open.mp (mem_of_mem_getStale hstale)).1
      exact beq_iff_eq.mp hid ▸ List.mem_map_of_mem hrow
    · exact hw id hold
  · obtain ⟨hsite, hsame⟩ := hstep
    rw [hsame] at hread
    obtain ⟨ga, hga, rfl⟩ := List.mem_map.mp (hw id hread)
    obtain ⟨ga', hga', hid, -⟩ := hsite.kept ga hga
    exact hid ▸ List.mem_map_of_mem hga'

/-- **One run.** An action that it tallies gets the figures of the summary that was read for it, or
keeps those that it has. -/
theorem published_run (hw : w.Published js) {args : TallyRunArgs} {timeline : CommitteeTimeline}
    (hmet : answered js w (.run args timeline reads)) (hga : ga ∈ w.db.actions.rows)
    (hread : w.read ga.id ++ reads.summaries w.db args.limit ga.id ≠ []) :
    ∃ s ∈ w.read ga.id ++ reads.summaries w.db args.limit ga.id,
      (tallyAfter (args.input js timeline reads) w.db ga).tally.FiguresOf js s := by
  have hkept : w.read ga.id ≠ [] → ga.tally = tallyAfter (args.input js timeline reads) w.db ga →
      ∃ s ∈ w.read ga.id ++ reads.summaries w.db args.limit ga.id,
        (tallyAfter (args.input js timeline reads) w.db ga).tally.FiguresOf js s := by
    intro hold heq
    obtain ⟨s, hs, hfigures⟩ := hw ga hga hold
    exact ⟨s, List.mem_append_left _ hs, heq ▸ hfigures⟩
  by_cases hmem : ga.id ∈ (w.db.getStaleSyncableActions args.limit).map (·.id)
  · have hlisted := (mem_ids (fun ga' hmem => (mem_open.mp (mem_of_mem_getStale hmem)).1) hga).mp
      hmem
    obtain ⟨hempty, hfirst⟩ := hmet ga hlisted
    rcases htally : (args.input js timeline reads).tallyOf ga (tallyDecision
      ((args.input js timeline reads).lifecycle ga.id) ga args.currentEpoch) with _ | columns
    · -- the run fails on the action, so that it has not read the first summary
      refine hkept (fun hold => hread ?_) ?_
      · rw [hold, List.nil_append]
        refine List.eq_nil_iff_forall_not_mem.mpr fun s hs => ?_
        obtain ⟨ga', hstale, hid, hsome⟩ := mem_summaries.mp hs
        obtain rfl := w.db.actions.eq_of_key (mem_open.mp (mem_of_mem_getStale hstale)).1 hga hid
        have hsome := hfirst hold (by rw [hsome]; rfl)
        rw [htally] at hsome
        cases hsome
      · exact (congrArg (Option.getD · ga.tally) htally |>.symm.trans (if_pos hmem).symm :)
    · obtain ⟨summary, ledgerCc, hsummary, hcolumns⟩ := columns_spec htally
      have hafter : tallyAfter (args.input js timeline reads) w.db ga = columns :=
        (if_pos hmem).trans (congrArg (Option.getD · ga.tally) htally)
      rcases summary with _ | s
      · -- an empty answer, where nothing has been read
        exfalso
        refine hread ?_
        rw [hempty hsummary, List.nil_append]
        refine List.eq_nil_iff_forall_not_mem.mpr fun s hs => ?_
        obtain ⟨ga', hstale, hid, hsome⟩ := mem_summaries.mp hs
        obtain rfl := w.db.actions.eq_of_key (mem_open.mp (mem_of_mem_getStale hstale)).1 hga hid
        rw [hsummary] at hsome
        cases hsome
      · refine ⟨s, List.mem_append_right _ (mem_summaries.mpr ⟨ga, hlisted, rfl, hsummary⟩), ?_⟩
        rw [hafter]
        exact ⟨ledgerCc, hcolumns⟩
  · refine hkept (fun hold => hread ?_) (if_neg hmem).symm
    rw [hold, List.nil_append]
    refine List.eq_nil_iff_forall_not_mem.mpr fun s hs => hmem ?_
    obtain ⟨ga', hstale, hid, -⟩ := mem_summaries.mp hs
    exact hid ▸ List.mem_map_of_mem hstale

theorem published_of_step {move : SummaryMove ν ρ} (hw : w.Published js) (hstored : w.ReadsStored)
    (hmet : answered js w move) (hstep : (summarySystem js ρ).Step w move w') :
    w'.Published js := by
  intro ga' hga' hread
  rcases move with ⟨args, timeline, reads⟩ | _
  · obtain rfl : w' = _ := hstep
    have hmem : ga'.id ∈ w.db.ids :=
      ids_syncGovernanceTallies (args.input js timeline reads) w.db ▸ List.mem_map_of_mem hga'
    obtain ⟨ga, hga, hid⟩ := List.mem_map.mp hmem
    have hholds := holds_run (args.input js timeline reads) hga
    rw [hid] at hholds
    rw [hholds.eq hga']
    rw [← hid] at hread ⊢
    exact published_run hw hmet hga hread
  · obtain ⟨hsite, hsame⟩ := hstep
    rw [hsame] at hread ⊢
    obtain ⟨ga, hga, hid⟩ := List.mem_map.mp (hstored _ hread)
    have hholds := hsite.kept ga hga
    rw [hid] at hholds
    rw [hholds.eq hga']
    rw [← hid] at hread ⊢
    exact hw ga hga hread

/-- **Published tallies stay**, in every run in which no action gets an empty answer once a summary
of it has been read, and the first one is stored. -/
theorem tallies_published (h : ((summarySystem js ρ).restrict (answered js)).Reachable w) :
    w.Published js := by
  have hinit : ∀ w, ((summarySystem js ρ).restrict (answered js)).Init w →
      w.Published js ∧ w.ReadsStored := by
    intro w hw
    have hnone : w.read = fun _ => [] := hw
    exact ⟨fun ga _ hread => absurd (congrFun hnone ga.id) hread,
      fun id hread => absurd (congrFun hnone id) hread⟩
  have hstep : ∀ w move w', w.Published js ∧ w.ReadsStored →
      ((summarySystem js ρ).restrict (answered js)).Step w move w' →
        w'.Published js ∧ w'.ReadsStored := fun w move w' hw hstep =>
    ⟨published_of_step hw.1 hw.2 hstep.1 hstep.2, readsStored_of_step hw.2 hstep.2⟩
  exact (h.invariant hinit hstep).1

/-- The action is frozen with the tally. -/
def TallyDb.Froze (db : TallyDb (TallyColumns ν ρ)) (id : String) (tally : TallyColumns ν ρ) :
    Prop :=
  ∃ ga ∈ db.actions.rows, ga.id = id ∧ ga.tally = tally ∧ ga.status.Frozen

theorem froze_of_leads {id : String} {tally : TallyColumns ν ρ} (h : w.db.Froze id tally)
    (hl : (summarySystem js ρ).Leads w w') : w'.db.Froze id tally := by
  induction hl with
  | refl => exact h
  | @tail w₁ w₂ _ hlast ih =>
    obtain ⟨ga, hga, rfl, rfl, hfrozen⟩ := ih
    have hnext : w₂.db.Holds ga.id ga.tally ∧ w₂.db.Stores ga ga.status := by
      obtain ⟨⟨args, timeline, reads⟩ | _, hstep⟩ := hlast
      · obtain rfl : w₂ = _ := hstep
        refine ⟨?_, stores_run_of_frozen _ hga hfrozen⟩
        have hholds := holds_run (args.input js timeline reads) hga
        have hmem : ga.id ∉ (w₁.db.getStaleSyncableActions args.limit).map (·.id) := by
          intro hmem
          have hlisted := (mem_ids (fun ga' hmem => (mem_open.mp (mem_of_mem_getStale hmem)).1)
            hga).mp hmem
          have hopen := (mem_open.mp (mem_of_mem_getStale hlisted)).2
          rcases hfrozen with h | h | h | h <;> rw [h] at hopen <;> simp at hopen
        rwa [show tallyAfter (args.input js timeline reads) w₁.db ga = ga.tally from
          if_neg hmem] at hholds
      · exact ⟨hstep.1.kept ga hga, hstep.1.status ga hga⟩
    obtain ⟨⟨ga', hga', hid, htally⟩, hstores⟩ := hnext
    exact ⟨ga', hga', hid, htally, (hstores.eq hga' hid).2 ▸ hfrozen⟩

end

/-! ### Two runs -/

def sampleNumbers : JsNumbers ℕ where
  ofString s := Nat.ofDigitChars 10 s.toList 0
  ofNat := id
  add := (· + ·)
  percent part whole := part * 100 / whole

def sampleSummary : VotingSummary ℕ :=
  ⟨none, none, some 5, none, none, none, none, none, none, none, none, none, none, none, none, none,
    none, none, none, none, none, none, none, none, none, none, none, none, none⟩

/-- An action that has not been tallied. -/
def untallied : TallyAction (TallyColumns ℕ Unit) where
  id := "tx#0"
  proposalId := some "gov_action1"
  type := "ParameterChange"
  status := .pending
  expiryEpoch := some 10
  decidedEpoch := none
  ratifiedEpoch := none
  tallySyncedAt := none
  lastSyncedAt := 0
  votesSyncedAt := none
  topicId := none
  tally := ⟨tallyFields sampleNumbers none, ()⟩

def untalliedWorld : SummaryWorld ℕ Unit where
  db := ⟨⟨[untallied], List.nodup_singleton _⟩, .empty⟩
  read _ := []

/-- A run at an epoch whose request for a summary is answered so. -/
def sampleArgs (epoch : ℤ) : TallyRunArgs :=
  ⟨some epoch, 100 * epoch, 100 * epoch, none, 25, [], id⟩

def sampleReads (summary : Option (VotingSummary ℕ)) : TallyReads ℕ Unit :=
  ⟨fun _ => some summary, fun _ => some [], fun _ _ _ => some ()⟩

def SummaryWorld.tallied (w : SummaryWorld ℕ Unit) (epoch : ℤ)
    (summary : Option (VotingSummary ℕ)) : SummaryWorld ℕ Unit :=
  ⟨(syncGovernanceTallies ((sampleArgs epoch).input sampleNumbers ⟨[], fun _ => none⟩
      (sampleReads summary)) w.db).1,
    fun id => w.read id ++ (sampleReads summary).summaries w.db 25 id⟩

theorem answered_sampleReads {w : SummaryWorld ℕ Unit} {epoch : ℤ}
    (hids : ∀ ga ∈ w.db.actions.rows, ga.proposalId.isSome) :
    answered sampleNumbers w
      (.run (sampleArgs epoch) ⟨[], fun _ => none⟩ (sampleReads (some sampleSummary))) := by
  intro ga hga
  have hsome := hids ga (mem_open.mp (mem_of_mem_getStale hga)).1
  rcases hid : ga.proposalId with _ | pid
  · rw [hid] at hsome
    cases hsome
  · simp [TallyReads.summaryOf, TallyReads.columns, TallyRunArgs.input, sampleReads, hid]

/-- The action is tallied while it is open, and when it expires. -/
theorem tallies_published_expired :
    ∃ ga ∈ ((untalliedWorld.tallied 9 (some sampleSummary)).tallied 10
        (some sampleSummary)).db.actions.rows, ga.status = .expired ∧
      ∃ s ∈ ((untalliedWorld.tallied 9 (some sampleSummary)).tallied 10
        (some sampleSummary)).read ga.id, ga.tally.tally.FiguresOf sampleNumbers s := by
  have h₀ : ((summarySystem sampleNumbers Unit).restrict (answered sampleNumbers)).Reachable
      untalliedWorld := .init rfl
  have h₁ : ((summarySystem sampleNumbers Unit).restrict (answered sampleNumbers)).Reachable
      (untalliedWorld.tallied 9 (some sampleSummary)) :=
    h₀.step (e := .run _ _ _) ⟨answered_sampleReads (by decide), rfl⟩
  have h₂ : ((summarySystem sampleNumbers Unit).restrict (answered sampleNumbers)).Reachable
      ((untalliedWorld.tallied 9 (some sampleSummary)).tallied 10 (some sampleSummary)) :=
    h₁.step (e := .run _ _ _) ⟨answered_sampleReads (by decide +kernel), rfl⟩
  have hrow : ∃ ga ∈ ((untalliedWorld.tallied 9 (some sampleSummary)).tallied 10
      (some sampleSummary)).db.actions.rows, ga.status = .expired ∧
        ((untalliedWorld.tallied 9 (some sampleSummary)).tallied 10
          (some sampleSummary)).read ga.id ≠ [] := by
    decide +kernel
  obtain ⟨ga, hga, hstatus, hread⟩ := hrow
  exact ⟨ga, hga, hstatus, tallies_published h₂ ga hga hread⟩

/-- **A tally that is lost**: the run in which the action expires gets no summary. -/
theorem not_tallies_published :
    (summarySystem sampleNumbers Unit).Reachable
        ((untalliedWorld.tallied 9 (some sampleSummary)).tallied 10 none) ∧
      ((untalliedWorld.tallied 9 (some sampleSummary)).tallied 10 none).read "tx#0" =
        [sampleSummary] ∧
      ∀ w', (summarySystem sampleNumbers Unit).Leads
          ((untalliedWorld.tallied 9 (some sampleSummary)).tallied 10 none) w' →
        w'.db.Froze "tx#0" ⟨tallyFields sampleNumbers none, ()⟩ ∧
          ¬(tallyFields sampleNumbers none).FiguresOf sampleNumbers sampleSummary := by
  refine ⟨?_, by decide +kernel, fun w' hl => ⟨froze_of_leads ?_ hl, ?_⟩⟩
  · have h₀ : (summarySystem sampleNumbers Unit).Reachable untalliedWorld := .init rfl
    have h₁ : (summarySystem sampleNumbers Unit).Reachable
        (untalliedWorld.tallied 9 (some sampleSummary)) := h₀.step (e := .run _ _ _) rfl
    exact h₁.step (e := .run _ _ _) rfl
  · have hrow : ∃ ga ∈ ((untalliedWorld.tallied 9 (some sampleSummary)).tallied 10
        none).db.actions.rows, ga.id = "tx#0" ∧ ga.tally = ⟨tallyFields sampleNumbers none, ()⟩ ∧
          ga.status.Frozen := by
      decide +kernel
    exact hrow
  · rintro ⟨ledgerCc, heq⟩
    have hvotes := congrArg (·.drepYes) heq
    have hfive : ((tallyFields sampleNumbers (some sampleSummary)).withLedger sampleNumbers
        ledgerCc).drepYes = some 5 := by rcases ledgerCc with _ | ledgerCc <;> rfl
    cases hvotes.trans hfive

end DrepTalk
