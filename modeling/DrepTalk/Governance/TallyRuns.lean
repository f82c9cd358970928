import DrepTalk.Governance.TallySync
import DrepTalk.Library.TransitionSystem

/-!
# Runs of the tally sync

Runs of `syncGovernanceTallies` over nondecreasing epochs, each of which finds the `proposal_list`
rows with at least the lifecycle epochs that earlier runs have found, or does not find them, while
the site does the rest of its work.

**What becomes of a status** (`nextStatus`). An open action takes the status that the run derives, a
ratified one too if it is listed, and any other status stays for good. So an action follows its row
to the final form unless an earlier run has frozen it (`statuses_settle`): on a form of the row that
had not gained all its epochs, or on the expiry, before any epoch was reported
(`not_statuses_settle`).
-/

namespace DrepTalk

variable {τ : Type*}

/-! ### What a run stores -/

/-- The status is not looked at again. -/
def GovStatus.Frozen (status : GovStatus) : Prop :=
  status = .enacted ∨ status = .dropped ∨ status = .expired ∨ status = .closed

instance (status : GovStatus) : Decidable status.Frozen := inferInstanceAs (Decidable (_ ∨ _))

/-- The status after a run that finds the action and does not fail on it. -/
def nextStatus (life : Option ProposalLifecycle) (currentEpoch : Option ℤ) (ga : TallyAction τ) :
    GovStatus :=
  match ga.status, life with
  | .pending, _ | .active, _ => deriveStatus life ga currentEpoch
  | .ratified, some life => deriveStatus (some life) ga currentEpoch
  | status, _ => status

theorem nextStatus_of_open {ga : TallyAction τ} (h : ga.status = .active ∨ ga.status = .pending)
    (life : Option ProposalLifecycle) (currentEpoch : Option ℤ) :
    nextStatus life currentEpoch ga = deriveStatus life ga currentEpoch := by
  unfold nextStatus
  rcases h with h | h <;> rw [h]

theorem nextStatus_of_ratified {ga : TallyAction τ} (h : ga.status = .ratified)
    (life : Option ProposalLifecycle) (currentEpoch : Option ℤ) :
    nextStatus life currentEpoch ga =
      if life.isSome then deriveStatus life ga currentEpoch else .ratified := by
  unfold nextStatus
  rw [h]
  rcases life with _ | life <;> rfl

theorem nextStatus_of_frozen {ga : TallyAction τ} (h : ga.status.Frozen)
    (life : Option ProposalLifecycle) (currentEpoch : Option ℤ) :
    nextStatus life currentEpoch ga = ga.status := by
  unfold nextStatus
  rcases h with h | h | h | h <;> rw [h]

theorem nextStatus_of_not_frozen {life : ProposalLifecycle} {currentEpoch : Option ℤ}
    {ga : TallyAction τ} (h : ¬ga.status.Frozen) :
    nextStatus (some life) currentEpoch ga = deriveStatus (some life) ga currentEpoch := by
  unfold nextStatus
  rcases hstatus : ga.status with _ | _ | _ | _ | _ | _ | _ <;> first
    | rfl
    | exact absurd (by simp [GovStatus.Frozen, hstatus]) h

/-- The action, with what its status is derived from. -/
structure TallyAction.SameAction (ga ga' : TallyAction τ) : Prop where
  id : ga'.id = ga.id
  type : ga'.type = ga.type
  expiryEpoch : ga'.expiryEpoch = ga.expiryEpoch

theorem TallyAction.SameAction.trans {ga ga' ga'' : TallyAction τ} (h : ga.SameAction ga')
    (h' : ga'.SameAction ga'') : ga.SameAction ga'' :=
  ⟨h'.id.trans h.id, h'.type.trans h.type, h'.expiryEpoch.trans h.expiryEpoch⟩

/-- The action is stored with the status. -/
def TallyDb.Stores (db : TallyDb τ) (ga : TallyAction τ) (status : GovStatus) : Prop :=
  ∃ ga' ∈ db.actions.rows, ga.SameAction ga' ∧ ga'.status = status

theorem stores_self {db : TallyDb τ} {ga : TallyAction τ} (h : ga ∈ db.actions.rows) :
    db.Stores ga ga.status :=
  ⟨ga, h, ⟨rfl, rfl, rfl⟩, rfl⟩

theorem deriveStatus_congr {ga ga' : TallyAction τ} (h : ga.SameAction ga')
    (life : Option ProposalLifecycle) (currentEpoch : Option ℤ) :
    deriveStatus life ga' currentEpoch = deriveStatus life ga currentEpoch := by
  unfold deriveStatus
  rw [h.type, h.expiryEpoch]

section

variable {db db' : TallyDb τ} {ga ga' : TallyAction τ} {status : GovStatus}

theorem stores_updateWhere {p : TallyAction τ → Bool} {f : TallyAction τ → TallyAction τ}
    {hkey : ∀ ga, p ga = true → (f ga).id = ga.id}
    (hf : ∀ ga, p ga = true → ga.SameAction (f ga) ∧ (f ga).status = ga.status)
    (h : db.Stores ga status) :
    TallyDb.Stores { db with actions := db.actions.updateWhere p f hkey } ga status := by
  obtain ⟨ga', hmem, hsame, rfl⟩ := h
  refine ⟨_, Table.mem_updateWhere_of_mem p f hmem, ?_⟩
  by_cases hp : p ga' = true
  · rw [if_pos hp]
    exact ⟨hsame.trans (hf ga' hp).1, (hf ga' hp).2⟩
  · rw [if_neg hp]
    exact ⟨hsame, rfl⟩

theorem stores_updateId {id : String} {f : TallyAction τ → TallyAction τ} {new : GovStatus}
    {hkey : ∀ ga : TallyAction τ, (ga.id == id) = true → (f ga).id = ga.id}
    (hf : ∀ ga, ga.SameAction (f ga) ∧ (f ga).status = new) (h : db.Stores ga status) :
    TallyDb.Stores { db with actions := db.actions.updateWhere (·.id == id) f hkey } ga
      (if ga.id = id then new else status) := by
  obtain ⟨ga', hmem, hsame, rfl⟩ := h
  refine ⟨_, Table.mem_updateWhere_of_mem _ f hmem, ?_⟩
  by_cases hid : ga'.id = id
  · rw [if_pos (beq_iff_eq.mpr hid), if_pos (hsame.id ▸ hid)]
    exact ⟨hsame.trans (hf ga').1, (hf ga').2⟩
  · rw [if_neg (fun h => hid (beq_iff_eq.mp h)), if_neg (hsame.id ▸ hid)]
    exact ⟨hsame, rfl⟩

theorem actions_insertGovStatusEventIfNew {event : GovStatusEvent}
    (h : db.insertGovStatusEventIfNew event = some db') : db'.actions = db.actions := by
  unfold TallyDb.insertGovStatusEventIfNew at h
  split_ifs at h <;> cases h <;> rfl

theorem actions_announce {input : TallyInput τ} {decidedEpoch : Option ℤ}
    (h : announce input db ga status decidedEpoch = some db') : db'.actions = db.actions := by
  unfold announce at h
  split at h
  · cases h
    rfl
  · split_ifs at h
    · exact actions_insertGovStatusEventIfNew h
    · cases h
      rfl

/-! ### One action of a run -/

variable {input : TallyInput τ} {acc : TallyDb τ × TallySyncResult}

theorem tallyAction_of_none
    (h : input.tallyOf ga (tallyDecision (input.lifecycle ga.id) ga input.currentEpoch) = none) :
    (tallyAction input acc ga).1 = acc.1 := by
  rw [tallyAction]
  simp only [h]

theorem actions_tallyAction {tally : τ}
    (h : input.tallyOf ga (tallyDecision (input.lifecycle ga.id) ga input.currentEpoch) =
      some tally) :
    (tallyAction input acc ga).1.actions = (acc.1.updateGovernanceTallyAndStatus ga.id
      (tallyDecision (input.lifecycle ga.id) ga input.currentEpoch) tally input.now).actions := by
  rw [tallyAction]
  simp only [h]
  split
  · rfl
  · rename_i db' hannounce
    exact actions_announce hannounce

theorem recheckRatified_of_same (h : ∀ life ∈ input.lifecycle ga.id,
    deriveStatus (some life) ga input.currentEpoch = ga.status) :
    recheckRatified input acc ga = acc := by
  rw [recheckRatified]
  split
  · rfl
  · rename_i life hlife
    exact if_pos (h life hlife)

theorem actions_recheckRatified {life : ProposalLifecycle} (hlife : input.lifecycle ga.id = some life)
    (h : deriveStatus (some life) ga input.currentEpoch ≠ ga.status) :
    (recheckRatified input acc ga).1.actions = (acc.1.updateGovernanceActionStatus ga.id
      (deriveStatus (some life) ga input.currentEpoch) (life.outcomeEpoch <|> ga.decidedEpoch)
      life.ratifiedEpoch input.now).actions := by
  rw [recheckRatified]
  simp only [hlife, h, if_false]
  split
  · rfl
  · rename_i db' hannounce
    exact actions_announce hannounce

theorem stores_tallyAction {ga' : TallyAction τ} {tally : τ}
    (htally : input.tallyOf ga' (tallyDecision (input.lifecycle ga'.id) ga' input.currentEpoch) =
      some tally) (h : acc.1.Stores ga status) :
    (tallyAction input acc ga').1.Stores ga (if ga.id = ga'.id then
      deriveStatus (input.lifecycle ga'.id) ga' input.currentEpoch else status) := by
  rw [TallyDb.Stores, actions_tallyAction htally]
  exact stores_updateId (fun _ => ⟨⟨rfl, rfl, rfl⟩, rfl⟩) h

theorem stores_tallyAction_other {ga' : TallyAction τ} (hid : ga.id ≠ ga'.id)
    (h : acc.1.Stores ga status) : (tallyAction input acc ga').1.Stores ga status := by
  rcases htally : input.tallyOf ga' (tallyDecision (input.lifecycle ga'.id) ga'
    input.currentEpoch) with _ | tally
  · rwa [tallyAction_of_none htally]
  · simpa only [if_neg hid] using stores_tallyAction htally h

theorem stores_recheckRatified {ga' : TallyAction τ} (hratified : ga'.status = .ratified)
    (hstatus : ga.id = ga'.id → status = ga'.status) (h : acc.1.Stores ga status) :
    (recheckRatified input acc ga').1.Stores ga (if ga.id = ga'.id then
      nextStatus (input.lifecycle ga'.id) input.currentEpoch ga' else status) := by
  rw [nextStatus_of_ratified hratified]
  by_cases hsame : ∀ life ∈ input.lifecycle ga'.id,
    deriveStatus (some life) ga' input.currentEpoch = ga'.status
  · have hkept : (if ga.id = ga'.id then if (input.lifecycle ga'.id).isSome then deriveStatus
        (input.lifecycle ga'.id) ga' input.currentEpoch else .ratified else status) = status := by
      split_ifs with hid hlisted
      · obtain ⟨life, hlife⟩ := Option.isSome_iff_exists.mp hlisted
        rw [hlife, hsame life hlife, hstatus hid]
      · rw [hstatus hid, hratified]
      · rfl
    rwa [recheckRatified_of_same hsame, hkept]
  · push Not at hsame
    obtain ⟨life, hlife, hother⟩ := hsame
    rw [Option.mem_def] at hlife
    rw [TallyDb.Stores, actions_recheckRatified hlife hother, hlife]
    exact stores_updateId (fun _ => ⟨⟨rfl, rfl, rfl⟩, rfl⟩) h

/-! ### A run -/

theorem stores_foldl {step : TallyDb τ × TallySyncResult → TallyAction τ →
    TallyDb τ × TallySyncResult} (old : GovStatus) {new : GovStatus} {actions : List (TallyAction τ)}
    (hstep : ∀ acc status, ∀ ga' ∈ actions, (ga.id = ga'.id → status = old) →
      acc.1.Stores ga status → (step acc ga').1.Stores ga (if ga.id = ga'.id then new else status))
    (hnodup : (actions.map (·.id)).Nodup) (hold : ga.id ∈ actions.map (·.id) → status = old)
    (h : acc.1.Stores ga status) :
    (actions.foldl step acc).1.Stores ga
      (if ga.id ∈ actions.map (·.id) then new else status) := by
  induction actions generalizing acc status with
  | nil => exact h
  | cons first rest ih =>
    rw [List.map_cons, List.nodup_cons] at hnodup
    have hfirst := hstep acc status first List.mem_cons_self
      (fun hid => hold (List.mem_map.mpr ⟨first, List.mem_cons_self, hid.symm⟩)) h
    have hrest := ih (fun acc status ga' hga' => hstep acc status ga' (List.mem_cons_of_mem _ hga'))
      hnodup.2 (fun hmem => ?_) hfirst
    · rw [List.foldl_cons]
      by_cases hid : ga.id = first.id
      · rw [if_pos hid] at hrest
        simpa only [List.map_cons, List.mem_cons, hid, true_or, if_true, ite_self] using hrest
      · rw [if_neg hid] at hrest
        simpa only [List.map_cons, List.mem_cons, hid, false_or] using hrest
    · have hid : ga.id ≠ first.id := fun hid => hnodup.1 (hid ▸ hmem)
      rw [if_neg hid]
      exact hold (List.mem_cons_of_mem _ hmem)

theorem nodup_ids (db : TallyDb τ) (p : TallyAction τ → Bool)
    (r : TallyAction τ → TallyAction τ → Prop) [DecidableRel r] (limit : ℕ) :
    ((((db.actions.rows.filter p).insertionSort r).take limit).map (·.id)).Nodup := by
  have hsorted : (((db.actions.rows.filter p).insertionSort r).map (·.id)).Nodup :=
    ((List.perm_insertionSort r _).map _).nodup_iff.mpr
      (db.actions.unique.sublist (List.filter_sublist.map _))
  exact hsorted.sublist ((List.take_sublist _ _).map _)

theorem mem_open {ga' : TallyAction τ} : ga' ∈ db.open_ ↔
    ga' ∈ db.actions.rows ∧ (ga'.status = .active ∨ ga'.status = .pending) := by
  rw [TallyDb.open_, List.mem_filter, decide_eq_true_eq]

theorem mem_ratified {ga' : TallyAction τ} : ga' ∈ db.ratified ↔
    ga' ∈ db.actions.rows ∧ ga'.status = .ratified := by
  rw [TallyDb.ratified, List.mem_filter, decide_eq_true_eq]

theorem mem_of_mem_getStale {limit : ℕ} {ga' : TallyAction τ}
    (h : ga' ∈ db.getStaleSyncableActions limit) : ga' ∈ db.open_ :=
  (List.mem_insertionSort _).mp (List.mem_of_mem_take h)

theorem mem_of_mem_getRatified {limit : ℕ} {ga' : TallyAction τ}
    (h : ga' ∈ db.getRatifiedActions limit) : ga' ∈ db.ratified :=
  (List.mem_insertionSort _).mp (List.mem_of_mem_take h)

theorem mem_ids {actions : List (TallyAction τ)} (hrows : ∀ ga' ∈ actions, ga' ∈ db.actions.rows)
    (hga : ga ∈ db.actions.rows) : ga.id ∈ actions.map (·.id) ↔ ga ∈ actions := by
  constructor
  · intro h
    obtain ⟨ga', hmem, hid⟩ := List.mem_map.mp h
    exact db.actions.eq_of_key (hrows ga' hmem) hga hid ▸ hmem
  · exact fun h => List.mem_map_of_mem h

theorem stores_tallied (hga : ga ∈ db.actions.rows)
    (hanswers : ga ∈ db.getStaleSyncableActions input.limit →
      (input.tallyOf ga (tallyDecision (input.lifecycle ga.id) ga input.currentEpoch)).isSome)
    (h : acc.1.Stores ga ga.status) :
    ((db.getStaleSyncableActions input.limit).foldl (tallyAction input) acc).1.Stores ga
      (if ga.id ∈ (db.getStaleSyncableActions input.limit).map (·.id) then
        nextStatus (input.lifecycle ga.id) input.currentEpoch ga else ga.status) := by
  refine stores_foldl ga.status (fun acc status ga' hmem _ hstores => ?_) (nodup_ids db _ _ _)
    (fun _ => rfl) h
  obtain ⟨hrow, hopen⟩ := mem_open.mp (mem_of_mem_getStale hmem)
  by_cases hid : ga.id = ga'.id
  · obtain rfl := db.actions.eq_of_key hga hrow hid
    obtain ⟨tally, htally⟩ := Option.isSome_iff_exists.mp (hanswers hmem)
    rw [nextStatus_of_open hopen]
    exact stores_tallyAction htally hstores
  · rw [if_neg hid]
    exact stores_tallyAction_other hid hstores

theorem stores_rechecked (hga : ga ∈ db.actions.rows)
    (hold : ga ∈ db.ratified → status = ga.status) (h : acc.1.Stores ga status) :
    ((db.getRatifiedActions input.limit).foldl (recheckRatified input) acc).1.Stores ga
      (if ga.id ∈ (db.getRatifiedActions input.limit).map (·.id) then
        nextStatus (input.lifecycle ga.id) input.currentEpoch ga else status) := by
  refine stores_foldl ga.status (fun acc status ga' hmem hstatus hstores => ?_)
    (nodup_ids db _ _ _) (fun hmem => ?_) h
  · obtain ⟨hrow, hratified⟩ := mem_ratified.mp (mem_of_mem_getRatified hmem)
    by_cases hid : ga.id = ga'.id
    · obtain rfl := db.actions.eq_of_key hga hrow hid
      exact stores_recheckRatified hratified hstatus hstores
    · simpa only [if_neg hid] using
        stores_recheckRatified hratified (fun h => absurd h hid) hstores
  · exact hold (mem_of_mem_getRatified ((mem_ids (fun ga' hmem =>
      (mem_ratified.mp (mem_of_mem_getRatified hmem)).1) hga).mp hmem))

theorem stores_run (input : TallyInput τ) (hga : ga ∈ db.actions.rows)
    (hanswers : ga ∈ db.getStaleSyncableActions input.limit →
      (input.tallyOf ga (tallyDecision (input.lifecycle ga.id) ga input.currentEpoch)).isSome) :
    (syncGovernanceTallies input db).1.Stores ga
      (if ga.id ∈ (db.getRatifiedActions input.limit).map (·.id) then
        nextStatus (input.lifecycle ga.id) input.currentEpoch ga
      else if ga.id ∈ (db.getStaleSyncableActions input.limit).map (·.id) then
        nextStatus (input.lifecycle ga.id) input.currentEpoch ga
      else ga.status) := by
  unfold syncGovernanceTallies
  by_cases hnone : db.getStaleSyncableActions input.limit = [] ∧
    db.getRatifiedActions input.limit = []
  · simp only [hnone, List.map_nil, List.not_mem_nil, if_false, and_self, if_true]
    exact stores_self hga
  · have hbackfilled : ((db.backfillRatifiedEpochs input.lifecycle,
        ⟨(db.getStaleSyncableActions input.limit).length, 0, 0, 0, 0⟩) :
        TallyDb τ × TallySyncResult).1.Stores ga ga.status :=
      stores_updateWhere (fun _ _ => ⟨⟨rfl, rfl, rfl⟩, rfl⟩) (stores_self hga)
    have htallied := stores_tallied hga hanswers hbackfilled
    -- a ratified action is not among the open ones
    have hkept : ga ∈ db.ratified → ga.id ∉ (db.getStaleSyncableActions input.limit).map (·.id) := by
      intro hratified hmem
      have hopen := mem_open.mp (mem_of_mem_getStale ((mem_ids (fun ga' hmem =>
        (mem_open.mp (mem_of_mem_getStale hmem)).1) hga).mp hmem))
      rw [(mem_ratified.mp hratified).2] at hopen
      rcases hopen.2 with h | h <;> cases h
    rw [if_neg hnone]
    exact stores_rechecked hga (fun hratified => if_neg (hkept hratified)) htallied

theorem stores_run_of_frozen (input : TallyInput τ) (hga : ga ∈ db.actions.rows)
    (hfrozen : ga.status.Frozen) : (syncGovernanceTallies input db).1.Stores ga ga.status := by
  have h := stores_run input hga fun hmem => ?_
  · simpa only [nextStatus_of_frozen hfrozen, ite_self] using h
  · have hopen := (mem_open.mp (mem_of_mem_getStale hmem)).2
    rcases hfrozen with h | h | h | h <;> rw [h] at hopen <;> simp at hopen

/-- The limits cover all actions, and no request fails. -/
structure TallyInput.Covers (input : TallyInput τ) (db : TallyDb τ) : Prop where
  open_ : db.open_.length ≤ input.limit
  ratified : db.ratified.length ≤ input.limit
  answers : ∀ ga ∈ db.open_,
    (input.tallyOf ga (tallyDecision (input.lifecycle ga.id) ga input.currentEpoch)).isSome

theorem mem_take_insertionSort {r : TallyAction τ → TallyAction τ → Prop} [DecidableRel r]
    {actions : List (TallyAction τ)} {limit : ℕ} (hlimit : actions.length ≤ limit)
    (h : ga ∈ actions) : ga ∈ (actions.insertionSort r).take limit := by
  rw [List.take_of_length_le ((List.length_insertionSort r actions).trans_le hlimit)]
  exact (List.mem_insertionSort r).mpr h

theorem stores_run_of_covers (hcovers : input.Covers db) (hga : ga ∈ db.actions.rows) :
    (syncGovernanceTallies input db).1.Stores ga
      (nextStatus (input.lifecycle ga.id) input.currentEpoch ga) := by
  have h := stores_run input hga fun hmem => hcovers.answers ga (mem_of_mem_getStale hmem)
  rcases hstatus : ga.status with _ | _ | _ | _ | _ | _ | _
  case ratified =>
    have hmem : ga ∈ db.getRatifiedActions input.limit :=
      mem_take_insertionSort hcovers.ratified (mem_ratified.mpr ⟨hga, hstatus⟩)
    rwa [if_pos (List.mem_map_of_mem hmem)] at h
  case pending | active =>
    have hmem : ga ∈ db.getStaleSyncableActions input.limit :=
      mem_take_insertionSort hcovers.open_ (mem_open.mpr ⟨hga, by simp [hstatus]⟩)
    rwa [if_pos (List.mem_map_of_mem hmem), ite_self] at h
  all_goals
    have hfrozen : ga.status.Frozen := by simp [GovStatus.Frozen, hstatus]
    rw [nextStatus_of_frozen hfrozen]
    exact stores_run_of_frozen input hga hfrozen

def TallyDb.ids (db : TallyDb τ) : List String := db.actions.rows.map (·.id)

theorem ids_tallyAction (input : TallyInput τ) (acc : TallyDb τ × TallySyncResult)
    (ga : TallyAction τ) : (tallyAction input acc ga).1.ids = acc.1.ids := by
  rcases htally : input.tallyOf ga (tallyDecision (input.lifecycle ga.id) ga input.currentEpoch)
    with _ | tally
  · rw [tallyAction_of_none htally]
  · rw [TallyDb.ids, actions_tallyAction htally]
    exact Table.map_updateWhere _ fun _ _ => rfl

theorem ids_recheckRatified (input : TallyInput τ) (acc : TallyDb τ × TallySyncResult)
    (ga : TallyAction τ) : (recheckRatified input acc ga).1.ids = acc.1.ids := by
  by_cases hsame : ∀ life ∈ input.lifecycle ga.id,
    deriveStatus (some life) ga input.currentEpoch = ga.status
  · rw [recheckRatified_of_same hsame]
  · push Not at hsame
    obtain ⟨life, hlife, hother⟩ := hsame
    rw [TallyDb.ids, actions_recheckRatified hlife hother]
    exact Table.map_updateWhere _ fun _ _ => rfl

theorem ids_foldl {step : TallyDb τ × TallySyncResult → TallyAction τ → TallyDb τ × TallySyncResult}
    (hstep : ∀ acc ga, (step acc ga).1.ids = acc.1.ids) (actions : List (TallyAction τ))
    (acc : TallyDb τ × TallySyncResult) : (actions.foldl step acc).1.ids = acc.1.ids := by
  induction actions generalizing acc with
  | nil => rfl
  | cons first rest ih => exact (ih _).trans (hstep acc first)

theorem ids_syncGovernanceTallies (input : TallyInput τ) (db : TallyDb τ) :
    (syncGovernanceTallies input db).1.ids = db.ids := by
  simp only [syncGovernanceTallies]
  split_ifs
  · rfl
  · rw [ids_foldl (ids_recheckRatified input), ids_foldl (ids_tallyAction input)]
    exact Table.map_updateWhere _ fun _ _ => rfl

end

/-! ### The system -/

/-- A later form of a row: lifecycle epochs are only gained. -/
structure ProposalLifecycle.Gains (p q : ProposalLifecycle) : Prop where
  expiration : q.expiration = p.expiration
  enacted : ∀ e ∈ p.enactedEpoch, e ∈ q.enactedEpoch
  ratified : ∀ e ∈ p.ratifiedEpoch, e ∈ q.ratifiedEpoch
  expired : ∀ e ∈ p.expiredEpoch, e ∈ q.expiredEpoch
  dropped : ∀ e ∈ p.droppedEpoch, e ∈ q.droppedEpoch

/-- The tables, the latest epoch that a run was given, and the latest form of each row that a run
has found. -/
structure TallyWorld (τ : Type*) where
  db : TallyDb τ
  epoch : Option ℤ
  seen : String → Option ProposalLifecycle

def TallyWorld.run (w : TallyWorld τ) (input : TallyInput τ) : TallyWorld τ where
  db := (syncGovernanceTallies input w.db).1
  epoch := input.currentEpoch <|> w.epoch
  seen id := input.lifecycle id <|> w.seen id

inductive TallyMove (τ : Type*)
  | run (input : TallyInput τ)
  | site

/-- The site keeps the actions with their statuses, and stores new ones as pending. -/
structure TallySite (db db' : TallyDb τ) : Prop where
  kept : ∀ ga ∈ db.actions.rows, db'.Stores ga ga.status
  added : ∀ ga' ∈ db'.actions.rows, ga'.id ∉ db.ids → ga'.status = .pending

/-- Runs, from a state in which none has been made. -/
def tallySystem (τ : Type*) : TransitionSystem (TallyWorld τ) (TallyMove τ) where
  Init w := (∀ ga ∈ w.db.actions.rows, ga.status = .pending) ∧ w.epoch = none ∧ w.seen = fun _ => none
  Step w move w' :=
    match move with
    | .run input => w' = w.run input
    | .site => TallySite w.db w'.db ∧ w'.epoch = w.epoch ∧ w'.seen = w.seen

/-- The condition on the runs: limits cover all actions, no request fails, epochs do not decrease
and rows only gain lifecycle epochs. -/
def orderly (w : TallyWorld τ) : TallyMove τ → Prop
  | .run input => input.Covers w.db ∧ (∀ e₀ ∈ w.epoch, ∀ e ∈ input.currentEpoch, e₀ ≤ e) ∧
      ∀ id, ∀ p ∈ w.seen id, ∀ q ∈ input.lifecycle id, p.Gains q
  | .site => True

/-- Which lifecycle epochs have been reported. -/
def reported (life : Option ProposalLifecycle) : Bool × Bool × Bool × Bool :=
  ((life.bind (·.enactedEpoch)).isSome, (life.bind (·.ratifiedEpoch)).isSome,
    (life.bind (·.expiredEpoch)).isSome, (life.bind (·.droppedEpoch)).isSome)

def ProposalLifecycle.Decided (life : ProposalLifecycle) : Prop := life.outcomeEpoch.isSome = true

/-- The status of the action has been derived from that form of its row, at an epoch that a run was
given. -/
def TallyWorld.DerivedFrom (w : TallyWorld τ) (ga : TallyAction τ)
    (life : Option ProposalLifecycle) : Prop :=
  (∀ p ∈ life, ∃ q ∈ w.seen ga.id, p.Gains q) ∧
    ∃ e, (∀ x ∈ e, ∃ y ∈ w.epoch, x ≤ y) ∧ ga.status = deriveStatus life ga e

section

variable {p q r : ProposalLifecycle} {life life' : Option ProposalLifecycle} {ga ga' : TallyAction τ}
  {e : Option ℤ}

theorem ProposalLifecycle.Gains.refl (p : ProposalLifecycle) : p.Gains p :=
  ⟨rfl, fun _ h => h, fun _ h => h, fun _ h => h, fun _ h => h⟩

theorem ProposalLifecycle.Gains.trans (h : p.Gains q) (h' : q.Gains r) : p.Gains r :=
  ⟨h'.expiration.trans h.expiration, fun e he => h'.enacted e (h.enacted e he),
    fun e he => h'.ratified e (h.ratified e he), fun e he => h'.expired e (h.expired e he),
    fun e he => h'.dropped e (h.dropped e he)⟩

theorem reported_of_gains (h : p.Gains q) (h' : q.Gains p) :
    reported (some p) = reported (some q) := by
  have hsome {x y : Option ℤ} (hxy : ∀ e ∈ x, e ∈ y) (hyx : ∀ e ∈ y, e ∈ x) :
      x.isSome = y.isSome := congrArg _ (Option.ext fun e => ⟨hxy e, hyx e⟩)
  exact Prod.ext (hsome h.enacted h'.enacted) (Prod.ext (hsome h.ratified h'.ratified)
    (Prod.ext (hsome h.expired h'.expired) (hsome h.dropped h'.dropped)))

theorem decided_iff : p.Decided ↔ reported (some p) ≠ (false, false, false, false) := by
  rcases p with ⟨p, _ | r, _ | x, _ | d⟩ <;> rcases hp : p.enactedEpoch with _ | n <;>
    simp [ProposalLifecycle.Decided, ProposalLifecycle.outcomeEpoch, reported, hp]

theorem deriveStatus_of_reported (h : reported life = reported (some p)) (hdecided : p.Decided)
    (e e' : Option ℤ) : deriveStatus life ga e = deriveStatus (some p) ga e' := by
  rw [decided_iff, ← h] at hdecided
  simp only [reported, Prod.mk.injEq] at h
  obtain ⟨henacted, hratified, hexpired, hdropped⟩ := h
  unfold deriveStatus
  rw [← henacted, ← hratified, ← hexpired, ← hdropped]
  by_cases h₁ : (life.bind (·.enactedEpoch)).isSome = true
  · rw [if_pos h₁, if_pos h₁]
  by_cases h₂ : (life.bind (·.ratifiedEpoch)).isSome = true
  · rw [if_neg h₁, if_neg h₁, if_pos h₂, if_pos h₂]
  by_cases h₃ : (life.bind (·.expiredEpoch)).isSome = true
  · rw [if_neg h₁, if_neg h₁, if_neg h₂, if_neg h₂, if_pos h₃, if_pos h₃]
  by_cases h₄ : (life.bind (·.droppedEpoch)).isSome = true
  · rw [if_neg h₁, if_neg h₁, if_neg h₂, if_neg h₂, if_neg h₃, if_neg h₃, if_pos h₄, if_pos h₄]
  · rw [Bool.not_eq_true] at h₁ h₂ h₃ h₄
    exact absurd (by rw [reported, h₁, h₂, h₃, h₄]) hdecided

theorem isTerminalStatus_of_decided (hdecided : p.Decided) :
    isTerminalStatus (deriveStatus (some p) ga e) = true := by
  rw [decided_iff, reported] at hdecided
  unfold deriveStatus
  generalize ((some p).bind (·.enactedEpoch)).isSome = enacted at hdecided ⊢
  generalize ((some p).bind (·.ratifiedEpoch)).isSome = ratified at hdecided ⊢
  generalize ((some p).bind (·.expiredEpoch)).isSome = expired at hdecided ⊢
  generalize ((some p).bind (·.droppedEpoch)).isSome = dropped at hdecided ⊢
  rcases enacted with _ | _
  · rcases ratified with _ | _
    · rcases expired with _ | _
      · rcases dropped with _ | _
        · exact absurd rfl hdecided
        · cases ga.type == "InfoAction" <;> rfl
      · cases ga.type == "InfoAction" <;> rfl
    · rfl
  · rfl

theorem deriveStatus_of_unreported (h : reported life = (false, false, false, false)) :
    deriveStatus life ga e =
      if ∃ expiry ∈ (ga.expiryEpoch <|> life.bind (·.expiration)), ∃ epoch ∈ e, expiry ≤ epoch then
        if ga.type == "InfoAction" then .closed else .expired
      else .active := by
  simp only [reported, Prod.mk.injEq] at h
  obtain ⟨h₁, h₂, h₃, h₄⟩ := h
  unfold deriveStatus
  rw [h₁, h₂, h₃, h₄]
  simp only [Bool.false_eq_true, if_false]
  split
  · rename_i expiry epoch hexpiry
    simp only [hexpiry, Option.mem_def, Option.some.injEq, exists_eq_left']
  · rename_i hnone
    rw [if_neg]
    rintro ⟨expiry, hexpiry, epoch, hepoch, -⟩
    exact hnone expiry epoch hexpiry hepoch

theorem expiry_of_gains (hgains : ∀ q ∈ life, q.Gains p) {expiry : ℤ}
    (h : expiry ∈ (ga.expiryEpoch <|> life.bind (·.expiration))) :
    expiry ∈ (ga.expiryEpoch <|> (some p).bind (·.expiration)) := by
  revert h
  rcases ga.expiryEpoch with _ | own <;> intro h
  · obtain ⟨q, hq, hexpiration⟩ := Option.bind_eq_some_iff.mp h
    exact ((hgains q hq).expiration.trans hexpiration :)
  · exact h

/-- **What a frozen status can differ in.** A status that was derived from an earlier form of the
row at an earlier epoch is that of the present form, unless that has an epoch more. -/
theorem deriveStatus_of_gains {x : ℤ} (hfrozen : (deriveStatus life ga e).Frozen)
    (hsame : reported life = reported (some p)) (hgains : ∀ q ∈ life, q.Gains p)
    (hepoch : ∀ y ∈ e, y ≤ x) : deriveStatus life ga e = deriveStatus (some p) ga (some x) := by
  by_cases hdecided : p.Decided
  · exact deriveStatus_of_reported hsame hdecided _ _
  · rw [decided_iff, not_not] at hdecided
    rw [deriveStatus_of_unreported (hsame.trans hdecided)] at hfrozen ⊢
    have hexpired : ∃ expiry ∈ (ga.expiryEpoch <|> life.bind (·.expiration)), ∃ epoch ∈ e,
        expiry ≤ epoch := by
      by_contra hnone
      rw [if_neg hnone] at hfrozen
      simp [GovStatus.Frozen] at hfrozen
    have hexpired' : ∃ expiry ∈ (ga.expiryEpoch <|> (some p).bind (·.expiration)),
        ∃ epoch ∈ some x, expiry ≤ epoch := by
      obtain ⟨expiry, hexpiry, epoch, hmem, hle⟩ := hexpired
      exact ⟨expiry, expiry_of_gains hgains hexpiry, x, rfl, hle.trans (hepoch epoch hmem)⟩
    rw [if_pos hexpired, deriveStatus_of_unreported hdecided, if_pos hexpired']

end

/-! ### Where a frozen status comes from -/

section

variable {w w' w'' : TallyWorld τ} {ga ga' : TallyAction τ} {life : Option ProposalLifecycle}

theorem mem_seen_run {input : TallyInput τ} {id : String} {p : ProposalLifecycle}
    (h : p ∈ input.lifecycle id) : p ∈ (w.run input).seen id := by
  rw [Option.mem_def] at h
  simp [TallyWorld.run, h]

theorem mem_epoch_run {input : TallyInput τ} {x : ℤ} (h : x ∈ input.currentEpoch) :
    x ∈ (w.run input).epoch := by
  rw [Option.mem_def] at h
  simp [TallyWorld.run, h]

/-- What runs have been told only grows. -/
structure TallyWorld.Later (w w' : TallyWorld τ) : Prop where
  seen : ∀ id, ∀ p ∈ w.seen id, ∃ q ∈ w'.seen id, p.Gains q
  epoch : ∀ x ∈ w.epoch, ∃ y ∈ w'.epoch, x ≤ y

theorem later_of_step {move : TallyMove τ} (hmet : orderly w move)
    (h : (tallySystem τ).Step w move w') : w.Later w' := by
  rcases move with input | _
  · obtain ⟨-, hepochs, hgains⟩ := hmet
    obtain rfl : w' = _ := h
    refine ⟨fun id p hp => ?_, fun x hx => ?_⟩
    · rcases hlife : input.lifecycle id with _ | q
      · exact ⟨p, by simpa [TallyWorld.run, hlife] using hp, .refl p⟩
      · exact ⟨q, mem_seen_run hlife, hgains id p hp q hlife⟩
    · rcases hepoch : input.currentEpoch with _ | y
      · exact ⟨x, by simpa [TallyWorld.run, hepoch] using hx, le_rfl⟩
      · exact ⟨y, mem_epoch_run hepoch, hepochs x hx y hepoch⟩
  · obtain ⟨-, hepoch, hseen⟩ := h
    exact ⟨fun id p hp => ⟨p, hseen ▸ hp, .refl p⟩, fun x hx => ⟨x, hepoch ▸ hx, le_rfl⟩⟩

theorem TallyWorld.DerivedFrom.mono (h : w.DerivedFrom ga life) (hlater : w.Later w')
    (hsame : ga.SameAction ga') (hstatus : ga'.status = ga.status) : w'.DerivedFrom ga' life := by
  obtain ⟨hseen, e, hepoch, hderived⟩ := h
  refine ⟨fun p hp => ?_, e, fun x hx => ?_, ?_⟩
  · obtain ⟨q, hq, hgains⟩ := hseen p hp
    obtain ⟨r, hr, hgains'⟩ := hlater.seen _ q hq
    exact ⟨r, hsame.id ▸ hr, hgains.trans hgains'⟩
  · obtain ⟨y, hy, hle⟩ := hepoch x hx
    obtain ⟨z, hz, hle'⟩ := hlater.epoch y hy
    exact ⟨z, hz, hle.trans hle'⟩
  · rw [hstatus, hderived, deriveStatus_congr hsame]

theorem nextStatus_cases (life : Option ProposalLifecycle) (e : Option ℤ) (ga : TallyAction τ) :
    nextStatus life e ga = deriveStatus life ga e ∨ nextStatus life e ga = ga.status := by
  unfold nextStatus
  rcases ga.status with _ | _ | _ | _ | _ | _ | _ <;> rcases life with _ | life <;> simp

theorem TallyDb.Stores.eq {db : TallyDb τ} {status : GovStatus} (h : db.Stores ga status)
    (hga' : ga' ∈ db.actions.rows) (hid : ga'.id = ga.id) :
    ga.SameAction ga' ∧ ga'.status = status := by
  obtain ⟨ga'', hmem, hsame, hstatus⟩ := h
  obtain rfl := db.actions.eq_of_key hga' hmem (hid.trans hsame.id.symm)
  exact ⟨hsame, hstatus⟩

/-- Each status that is stored has been derived, or the action has not been tallied. -/
def TallyWorld.Accounted (w : TallyWorld τ) : Prop :=
  ∀ ga ∈ w.db.actions.rows, ga.status = .pending ∨ ∃ life, w.DerivedFrom ga life

theorem accounted_of_step {move : TallyMove τ} (h : w.Accounted) (hmet : orderly w move)
    (hstep : (tallySystem τ).Step w move w') : w'.Accounted := by
  have hlater := later_of_step hmet hstep
  have hkept {ga ga' : TallyAction τ} (hga : ga ∈ w.db.actions.rows) (hsame : ga.SameAction ga')
      (hstatus : ga'.status = ga.status) :
      ga'.status = .pending ∨ ∃ life, w'.DerivedFrom ga' life :=
    (h ga hga).imp (hstatus.trans ·) fun ⟨life, hderived⟩ =>
      ⟨life, hderived.mono hlater hsame hstatus⟩
  intro ga' hga'
  rcases move with input | _
  · obtain rfl : w' = _ := hstep
    have hmem : ga'.id ∈ w.db.ids := ids_syncGovernanceTallies input w.db ▸ List.mem_map_of_mem hga'
    obtain ⟨ga, hga, hid⟩ := List.mem_map.mp hmem
    obtain ⟨hsame, hstatus⟩ := (stores_run_of_covers hmet.1 hga).eq hga' hid.symm
    rcases nextStatus_cases (input.lifecycle ga.id) input.currentEpoch ga with hnext | hnext
    · -- the run has derived it, from what it has found
      refine .inr ⟨input.lifecycle ga.id, fun p hp => ⟨p, ?_, .refl p⟩, input.currentEpoch,
        fun x hx => ⟨x, ?_, le_rfl⟩, ?_⟩
      · exact mem_seen_run (hid ▸ hp)
      · exact mem_epoch_run hx
      · rw [hstatus, hnext, deriveStatus_congr hsame]
    · exact hkept hga hsame (hstatus.trans hnext)
  · obtain ⟨hsite, -⟩ := hstep
    by_cases hmem : ga'.id ∈ w.db.ids
    · obtain ⟨ga, hga, hid⟩ := List.mem_map.mp hmem
      obtain ⟨hsame, hstatus⟩ := (hsite.kept ga hga).eq hga' hid.symm
      exact hkept hga hsame hstatus
    · exact .inl (hsite.added ga' hga' hmem)

theorem accounted_of_reachable (h : ((tallySystem τ).restrict orderly).Reachable w) :
    w.Accounted := by
  have hinit : ∀ w, ((tallySystem τ).restrict orderly).Init w → w.Accounted :=
    fun w hw ga hga => .inl (hw.1 ga hga)
  have hstep : ∀ w move w', w.Accounted → ((tallySystem τ).restrict orderly).Step w move w' →
      w'.Accounted := fun w move w' hw hstep => accounted_of_step hw hstep.1 hstep.2
  exact h.invariant hinit hstep

end

/-! ### What becomes of a status -/

section

variable {w w' w'' : TallyWorld τ} {ga ga' : TallyAction τ} {status : GovStatus}
  {final : ProposalLifecycle}

theorem stores_of_frozen (hfrozen : status.Frozen) (h : w.db.Stores ga status)
    (hl : (tallySystem τ).Leads w w') : w'.db.Stores ga status := by
  induction hl with
  | refl => exact h
  | @tail w₁ w₂ _ hlast ih =>
    obtain ⟨ga₁, hga₁, hsame, rfl⟩ := ih
    have hnext : w₂.db.Stores ga₁ ga₁.status := by
      obtain ⟨input | _, hstep⟩ := hlast
      · obtain rfl : w₂ = _ := hstep
        exact stores_run_of_frozen input hga₁ hfrozen
      · exact hstep.1.kept ga₁ hga₁
    obtain ⟨ga₂, hga₂, hsame', hstatus⟩ := hnext
    exact ⟨ga₂, hga₂, hsame.trans hsame', hstatus⟩

theorem nextStatus_of_decided {life : Option ProposalLifecycle} {e e' : Option ℤ}
    (hdecided : final.Decided) (hstatus : ga.status = deriveStatus (some final) ga e')
    (hlife : ∀ p ∈ life, reported (some p) = reported (some final)) :
    nextStatus life e ga = ga.status := by
  have hterminal : isTerminalStatus ga.status = true :=
    hstatus ▸ isTerminalStatus_of_decided hdecided
  rcases h : ga.status with _ | _ | _ | _ | _ | _ | _
  case pending | active =>
    rw [h] at hterminal
    cases hterminal
  case ratified =>
    rw [nextStatus_of_ratified h, ← h]
    rcases life with _ | p
    · rfl
    · rw [if_pos Option.isSome_some, hstatus]
      exact deriveStatus_of_reported (hlife p rfl) hdecided e e'
  all_goals
    rw [nextStatus_of_frozen (by simp [GovStatus.Frozen, h]), h]

theorem later_of_leads (hl : ((tallySystem τ).restrict orderly).Leads w w') : w.Later w' := by
  induction hl with
  | refl => exact ⟨fun _ p hp => ⟨p, hp, .refl p⟩, fun x hx => ⟨x, hx, le_rfl⟩⟩
  | tail _ hlast ih =>
    obtain ⟨move, hmet, hstep⟩ := hlast
    have hlater := later_of_step hmet hstep
    refine ⟨fun id p hp => ?_, fun x hx => ?_⟩
    · obtain ⟨q, hq, hgains⟩ := ih.seen id p hp
      obtain ⟨r, hr, hgains'⟩ := hlater.seen id q hq
      exact ⟨r, hr, hgains.trans hgains'⟩
    · obtain ⟨y, hy, hle⟩ := ih.epoch x hx
      obtain ⟨z, hz, hle'⟩ := hlater.epoch y hy
      exact ⟨z, hz, hle.trans hle'⟩

theorem stores_of_decided (hdecided : final.Decided) {e : Option ℤ}
    (hstatus : status = deriveStatus (some final) ga e) (h : w.db.Stores ga status)
    (hseen : ∃ p ∈ w.seen ga.id, final.Gains p)
    (hl : ((tallySystem τ).restrict orderly).Leads w w') (hfinal : w'.seen ga.id = some final) :
    w'.db.Stores ga status := by
  induction hl using Relation.ReflTransGen.head_induction_on with
  | refl => exact h
  | @head w₁ w₂ hfirst hl ih =>
    obtain ⟨move, hmet, hstep⟩ := hfirst
    have hlater := later_of_step hmet hstep
    -- the row is the final one on the way as well
    have hsame : ∀ p ∈ w₂.seen ga.id, reported (some p) = reported (some final) := by
      intro p hp
      obtain ⟨p₁, hp₁, hgains⟩ := hseen
      obtain ⟨p₂, hp₂, hgains₂⟩ := hlater.seen _ p₁ hp₁
      obtain ⟨p₃, hp₃, hgains₃⟩ := (later_of_leads hl).seen _ p hp
      obtain rfl : p = p₂ := Option.some.inj (hp.symm.trans hp₂)
      obtain rfl : final = p₃ := Option.some.inj (hfinal.symm.trans hp₃)
      exact reported_of_gains hgains₃ (hgains.trans hgains₂)
    refine ih ?_ ?_
    · obtain ⟨ga₁, hga₁, hga, rfl⟩ := h
      have hnext : w₂.db.Stores ga₁ ga₁.status := by
        rcases move with input | _
        · obtain rfl : w₂ = _ := hstep
          have hrun := stores_run_of_covers hmet.1 hga₁
          rwa [nextStatus_of_decided hdecided (hstatus.trans (deriveStatus_congr hga _ _).symm)
            fun p hp => hsame p ?_] at hrun
          exact mem_seen_run (hga.id ▸ hp)
        · exact hstep.1.kept ga₁ hga₁
      obtain ⟨ga₂, hga₂, hga', hstatus'⟩ := hnext
      exact ⟨ga₂, hga₂, hga.trans hga', hstatus'⟩
    · obtain ⟨p₁, hp₁, hgains⟩ := hseen
      obtain ⟨p₂, hp₂, hgains₂⟩ := hlater.seen _ p₁ hp₁
      exact ⟨p₂, hp₂, hgains.trans hgains₂⟩

/-- What the claims about a run that finds the final form of a row come to, with the status that it
stores and what is stored later. -/
structure Settles (w : TallyWorld τ) (ga : TallyAction τ) (final : ProposalLifecycle)
    (currentEpoch : Option ℤ) (status : GovStatus) (later : TallyDb τ) : Prop where
  followed : ¬ga.status.Frozen → status = deriveStatus (some final) ga currentEpoch
  frozen : ga.status.Frozen → status = ga.status ∧
    (currentEpoch.isSome = true → status ≠ deriveStatus (some final) ga currentEpoch →
      ∃ life, w.DerivedFrom ga life ∧ reported life ≠ reported (some final))
  stays : final.Decided ∨ status.Frozen → later.Stores ga status

/-- A run that finds the final form of a row stores the status that it gives, unless an earlier run
has frozen another one; and what is decided, or frozen, no later run changes. -/
theorem statuses_settle (h : ((tallySystem τ).restrict orderly).Reachable w) {input : TallyInput τ}
    (hrun : ((tallySystem τ).restrict orderly).Step w (.run input) w')
    (hlater : ((tallySystem τ).restrict orderly).Leads w' w'') (hga : ga ∈ w.db.actions.rows)
    (hsees : input.lifecycle ga.id = some final) (hfinal : w''.seen ga.id = some final) :
    ∃ status, w'.db.Stores ga status ∧
      Settles w ga final input.currentEpoch status w''.db := by
  obtain ⟨hmet, hstep⟩ := hrun
  obtain rfl : w' = _ := hstep
  have hstores := stores_run_of_covers hmet.1 hga
  rw [hsees] at hstores
  have hfollowed : ¬ga.status.Frozen → nextStatus (some final) input.currentEpoch ga =
      deriveStatus (some final) ga input.currentEpoch := nextStatus_of_not_frozen
  have hsubrun : ∀ t move t', ((tallySystem τ).restrict orderly).Step t move t' →
      (tallySystem τ).Step t move t' := fun _ _ _ hstep => hstep.2
  refine ⟨_, hstores, hfollowed, fun hfrozen => ⟨nextStatus_of_frozen hfrozen _ _, ?_⟩,
    fun hstays => ?_⟩
  · intro hepoch hdiffers
    obtain ⟨x, hx⟩ := Option.isSome_iff_exists.mp hepoch
    rw [nextStatus_of_frozen hfrozen, hx] at hdiffers
    rcases accounted_of_reachable h ga hga with hpending | ⟨life, hderived⟩
    · simp [GovStatus.Frozen, hpending] at hfrozen
    · refine ⟨life, hderived, fun hsame => hdiffers ?_⟩
      obtain ⟨hseen, e, he, hstatus⟩ := hderived
      rw [hstatus] at hfrozen ⊢
      refine deriveStatus_of_gains hfrozen hsame (fun p hp => ?_) fun y hy => ?_
      · obtain ⟨q, hq, hgains⟩ := hseen p hp
        exact hgains.trans (hmet.2.2 _ q hq final hsees)
      · obtain ⟨z, hz, hle⟩ := he y hy
        exact hle.trans (hmet.2.1 z hz x hx)
  · by_cases hfrozen : (nextStatus (some final) input.currentEpoch ga).Frozen
    · exact stores_of_frozen hfrozen hstores (TransitionSystem.Leads.mono hsubrun hlater)
    · have hopen : ¬ga.status.Frozen := fun hga => hfrozen (nextStatus_of_frozen hga _ _ ▸ hga)
      exact stores_of_decided (hstays.resolve_right hfrozen) (hfollowed hopen) hstores
        ⟨final, mem_seen_run hsees, .refl final⟩ hlater hfinal

end

/-! ### Three runs -/

instance (p q : ProposalLifecycle) : Decidable (p.Gains q) :=
  decidable_of_iff (q.expiration = p.expiration ∧ (∀ e ∈ p.enactedEpoch, e ∈ q.enactedEpoch) ∧
      (∀ e ∈ p.ratifiedEpoch, e ∈ q.ratifiedEpoch) ∧ (∀ e ∈ p.expiredEpoch, e ∈ q.expiredEpoch) ∧
      ∀ e ∈ p.droppedEpoch, e ∈ q.droppedEpoch)
    ⟨fun ⟨h₁, h₂, h₃, h₄, h₅⟩ => ⟨h₁, h₂, h₃, h₄, h₅⟩,
      fun ⟨h₁, h₂, h₃, h₄, h₅⟩ => ⟨h₁, h₂, h₃, h₄, h₅⟩⟩

instance (ga ga' : TallyAction τ) : Decidable (ga.SameAction ga') :=
  decidable_of_iff (ga'.id = ga.id ∧ ga'.type = ga.type ∧ ga'.expiryEpoch = ga.expiryEpoch)
    ⟨fun ⟨h₁, h₂, h₃⟩ => ⟨h₁, h₂, h₃⟩, fun ⟨h₁, h₂, h₃⟩ => ⟨h₁, h₂, h₃⟩⟩

instance (db : TallyDb τ) (ga : TallyAction τ) (status : GovStatus) :
    Decidable (db.Stores ga status) :=
  inferInstanceAs (Decidable (∃ ga' ∈ db.actions.rows, _ ∧ _))

/-- What makes a run orderly, for the rows that it finds. -/
def TallyInput.orderlyIn (input : TallyInput τ) (w : TallyWorld τ) : Bool :=
  decide (w.db.open_.length ≤ input.limit) && decide (w.db.ratified.length ≤ input.limit) &&
    w.db.open_.all (fun ga => (input.tallyOf ga
      (tallyDecision (input.lifecycle ga.id) ga input.currentEpoch)).isSome) &&
    decide (∀ e₀ ∈ w.epoch, ∀ e ∈ input.currentEpoch, e₀ ≤ e) &&
    input.proposals.all fun q => decide (∀ p ∈ w.seen q.id, p.Gains q)

theorem orderly_run {w : TallyWorld τ} {input : TallyInput τ} (h : input.orderlyIn w = true) :
    orderly w (.run input) := by
  simp only [TallyInput.orderlyIn, Bool.and_eq_true, decide_eq_true_eq, List.all_eq_true] at h
  obtain ⟨⟨⟨⟨hopen, hratified⟩, hanswers⟩, hepochs⟩, hgains⟩ := h
  refine ⟨⟨hopen, hratified, hanswers⟩, hepochs, fun id p hp q hq => ?_⟩
  obtain rfl : q.id = id := by simpa using List.find?_some hq
  exact hgains q (List.mem_reverse.mp (List.mem_of_find?_eq_some hq)) p hp

/-- A parameter change that can be voted on until epoch 10. -/
def sampleTally : TallyAction Unit :=
  ⟨"tx#0", none, "ParameterChange", .pending, some 10, none, none, none, 0, none, none, ()⟩

def sampleTallies : TallyWorld Unit where
  db := ⟨⟨[sampleTally], List.nodup_singleton _⟩, .empty⟩
  epoch := none
  seen _ := none

/-- Its row, with the epochs in which it was ratified and enacted. -/
def sampleLife (ratifiedEpoch enactedEpoch : Option ℤ) : ProposalLifecycle :=
  ⟨⟨"tx", 0, "gov_action1", "ParameterChange", none, none, none, none, some 4, some 10, enactedEpoch,
    none, none⟩, ratifiedEpoch, none, none⟩

/-- A run at an epoch that is answered with these rows. -/
def sampleRun (epoch : ℤ) (proposals : List ProposalLifecycle) : TallyInput Unit where
  currentEpoch := some epoch
  now := 100 * epoch
  dbNow := 100 * epoch
  network := none
  limit := 25
  proposals := proposals
  tallyOf _ _ := some ()
  draw := id

theorem reachable_sampleTallies :
    ((tallySystem Unit).restrict orderly).Reachable sampleTallies :=
  .init ⟨by decide, rfl, rfl⟩

theorem reachable_sampleRun (epoch : ℤ) (proposals : List ProposalLifecycle)
    {w : TallyWorld Unit} (h : ((tallySystem Unit).restrict orderly).Reachable w)
    (hok : (sampleRun epoch proposals).orderlyIn w = true) :
    ((tallySystem Unit).restrict orderly).Reachable (w.run (sampleRun epoch proposals)) :=
  h.step (e := .run _) ⟨orderly_run hok, rfl⟩

def ratifiedTally : TallyAction Unit :=
  { sampleTally with
    status := .ratified
    decidedEpoch := some 9
    ratifiedEpoch := some 9
    tallySyncedAt := some 900
    lastSyncedAt := 900 }

def ratifiedTallies : TallyWorld Unit :=
  (sampleTallies.run (sampleRun 5 [sampleLife none none])).run
    (sampleRun 9 [sampleLife (some 9) none])

/-- It is ratified before it expires, then enacted, and then no longer listed. -/
theorem statuses_settle_enacted :
    ∃ (w w' w'' : TallyWorld Unit) (status : GovStatus),
      ((tallySystem Unit).restrict orderly).Reachable w ∧ w'.db.Stores ratifiedTally status ∧
        Settles w ratifiedTally (sampleLife (some 9) (some 10)) (some 10) status w''.db := by
  have hbefore : ((tallySystem Unit).restrict orderly).Reachable ratifiedTallies :=
    reachable_sampleRun _ _ (reachable_sampleRun _ _ reachable_sampleTallies (by decide +kernel))
      (by decide +kernel)
  have hrun : orderly ratifiedTallies (.run (sampleRun 10 [sampleLife (some 9) (some 10)])) :=
    orderly_run (by decide +kernel)
  have hlater : orderly (ratifiedTallies.run (sampleRun 10 [sampleLife (some 9) (some 10)]))
    (.run (sampleRun 11 [])) := orderly_run (by decide +kernel)
  have hmem : ratifiedTally ∈ ratifiedTallies.db.actions.rows := by decide +kernel
  have hsees : (sampleRun 10 [sampleLife (some 9) (some 10)]).lifecycle ratifiedTally.id =
      some (sampleLife (some 9) (some 10)) := by decide +kernel
  obtain ⟨status, hstores, hsettles⟩ := statuses_settle hbefore ⟨hrun, rfl⟩
    (.single ⟨_, hlater, rfl⟩) hmem hsees (by decide +kernel)
  exact ⟨_, _, _, status, hbefore, hstores, hsettles⟩

/-- The expiry may freeze an action before its epochs are reported, for good, and an action that no
epoch is reported of expires later. -/
theorem not_statuses_settle :
    (∃ (w : TallyWorld Unit) (input : TallyInput Unit) (ga : TallyAction Unit)
        (final : ProposalLifecycle), ((tallySystem Unit).restrict orderly).Reachable w ∧
      orderly w (.run input) ∧ ga ∈ w.db.actions.rows ∧ input.lifecycle ga.id = some final ∧
        deriveStatus (some final) ga input.currentEpoch = .ratified ∧
          ∀ w'', (tallySystem Unit).Leads (w.run input) w'' → w''.db.Stores ga .expired) ∧
    ∃ (w : TallyWorld Unit) (input later : TallyInput Unit) (ga : TallyAction Unit)
        (final : ProposalLifecycle), ((tallySystem Unit).restrict orderly).Reachable w ∧
      orderly w (.run input) ∧ ga ∈ w.db.actions.rows ∧ input.lifecycle ga.id = some final ∧
        (w.run input).db.Stores ga .active ∧ orderly (w.run input) (.run later) ∧
          ((w.run input).run later).seen ga.id = some final ∧
            ((w.run input).run later).db.Stores ga .expired := by
  constructor
  · have h₁ := reachable_sampleRun 10 [sampleLife none none] reachable_sampleTallies
      (by decide +kernel)
    refine ⟨_, sampleRun 10 [sampleLife (some 10) none],
      { sampleTally with
        status := .expired
        decidedEpoch := some 10
        tallySyncedAt := some 1000
        lastSyncedAt := 1000 }, sampleLife (some 10) none, h₁, orderly_run (by decide +kernel),
      by decide +kernel, by decide +kernel, by decide +kernel, fun w'' hl => ?_⟩
    exact stores_of_frozen (by decide) (by decide +kernel) hl
  · exact ⟨_, sampleRun 5 [sampleLife none none], sampleRun 10 [sampleLife none none], sampleTally,
      sampleLife none none, reachable_sampleTallies, orderly_run (by decide +kernel),
      by decide +kernel, by decide +kernel, by decide +kernel, orderly_run (by decide +kernel),
      by decide +kernel, by decide +kernel⟩

end DrepTalk
