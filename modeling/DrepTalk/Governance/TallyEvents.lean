import DrepTalk.Governance.TallyRuns
import DrepTalk.Library.Interleaving

/-!
# Events of status changes

`syncGovernanceTallies` statement by statement: runs overlap in any order, and any of them may fail
on a statement or be cut off before it. The status of an action is stored by one statement, and the
`gov_status` event that announces it by the next (`insertGovStatusEventIfNew` of
`src/lib/db/activity.ts`), for the topic that the action had when the run read it.

**Never twice** (`eventsOnce_of_reachable`). One statement looks for the event and inserts it.

**Not always** (`not_events_announced`). A run that is cut off between the two leaves the status
without its event, and the stored status takes the action out of the work of the next run.

**What holds** (`events_announced`). Where no run is cut off there, and no action gets its topic
between the reading and the storing of a run, each milestone is announced.
-/

namespace DrepTalk

section

variable {τ : Type*}

/-! ### Statement by statement -/

/-- The tables, and for each action the topic it had when a run last stored its status. -/
structure EventWorld (τ : Type*) where
  db : TallyDb τ
  topicAtStore : String → Option String

/-- What becomes of the next statement. An id is drawn for the event of an action. -/
inductive StatementOutcome
  | succeeds (id : String)
  | throws
  | dies

inductive TallySyncProc (τ : Type*)
  | started (input : TallyInput τ)
  | reading (input : TallyInput τ) (active : List (TallyAction τ))
  | listing (input : TallyInput τ) (active ratified : List (TallyAction τ))
  | looping (input : TallyInput τ) (active ratified : List (TallyAction τ))
  | announcing (input : TallyInput τ) (event : GovStatusEvent)
      (active ratified : List (TallyAction τ))
  | ended

def TallyDb.topicOf (db : TallyDb τ) (id : String) : Option String :=
  (db.actions.rows.find? (·.id == id)).bind (·.topicId)

def EventWorld.store (w : EventWorld τ) (id : String) (db : TallyDb τ) : EventWorld τ :=
  ⟨db, Function.update w.topicAtStore id (w.db.topicOf id)⟩

/-- The event of a transition into a terminal status, if the action has a topic. -/
def dueEvent (input : TallyInput τ) (id : String) (ga : TallyAction τ) (status : GovStatus)
    (decidedEpoch : Option ℤ) : Option GovStatusEvent :=
  match ga.topicId with
  | none => none
  | some topicId =>
    if status ≠ ga.status ∧ isTerminalStatus status then
      some ⟨id, topicId, ga.status, status, input.statusEventTime decidedEpoch, input.dbNow⟩
    else none

namespace TallySyncProc

def stored (input : TallyInput τ) (due : Option GovStatusEvent)
    (active ratified : List (TallyAction τ)) : TallySyncProc τ :=
  match due with
  | none => .looping input active ratified
  | some event => .announcing input event active ratified

/-- A statement throws: the loops go on with the next action, and elsewhere the run fails. -/
def caught : TallySyncProc τ → TallySyncProc τ
  | .looping input (_ :: active) ratified => .looping input active ratified
  | .looping input [] (_ :: ratified) => .looping input [] ratified
  | .announcing input _ active ratified => .looping input active ratified
  | _ => .ended

def next (id : String) (w : EventWorld τ) : TallySyncProc τ → EventWorld τ × TallySyncProc τ
  | .started input => (w, .reading input (w.db.getStaleSyncableActions input.limit))
  | .reading input active =>
    let ratified := w.db.getRatifiedActions input.limit
    if active = [] ∧ ratified = [] then (w, .ended) else (w, .listing input active ratified)
  | .listing input active ratified =>
    ({ w with db := w.db.backfillRatifiedEpochs input.lifecycle }, .looping input active ratified)
  | .looping input (ga :: active) ratified =>
    let decision := tallyDecision (input.lifecycle ga.id) ga input.currentEpoch
    match input.tallyOf ga decision with
    | none => (w, .looping input active ratified)
    | some tally =>
      (w.store ga.id (w.db.updateGovernanceTallyAndStatus ga.id decision tally input.now),
        stored input (dueEvent input id ga decision.status decision.decidedEpoch) active ratified)
  | .looping input [] (ga :: ratified) =>
    match input.lifecycle ga.id with
    | none => (w, .looping input [] ratified)
    | some life =>
      let status := deriveStatus (some life) ga input.currentEpoch
      if status = ga.status then (w, .looping input [] ratified)
      else
        let decidedEpoch := life.outcomeEpoch <|> ga.decidedEpoch
        (w.store ga.id (w.db.updateGovernanceActionStatus ga.id status decidedEpoch
            life.ratifiedEpoch input.now),
          stored input (dueEvent input id ga status decidedEpoch) [] ratified)
  | .looping _ [] [] => (w, .ended)
  | .announcing input event active ratified =>
    ({ w with db := (w.db.insertGovStatusEventIfNew event).getD w.db },
      .looping input active ratified)
  | .ended => (w, .ended)

end TallySyncProc

def tallySyncStep (how : StatementOutcome) (w : EventWorld τ) (l : TallySyncProc τ) :
    EventWorld τ × TallySyncProc τ :=
  match how with
  | .succeeds id => l.next id w
  | .throws => (w, l.caught)
  | .dies => (w, .ended)

/-- The events, by the identity of the milestone. -/
def TallyDb.milestones (db : TallyDb τ) : List (String × GovStatus) :=
  db.events.rows.map fun e => (e.topicId, e.toStatus)

/-- The site besides: it keeps the actions with their statuses and topics, stores new ones as
pending, and keeps the events, which it may date anew. -/
structure EventEnv (w w' : EventWorld τ) : Prop where
  kept : ∀ ga ∈ w.db.actions.rows, ∃ ga' ∈ w'.db.actions.rows, ga'.id = ga.id ∧
    ga'.status = ga.status ∧ ∀ t ∈ ga.topicId, ga'.topicId = some t
  added : ∀ ga' ∈ w'.db.actions.rows, ga'.id ∉ w.db.ids → ga'.status = .pending
  events : w'.db.milestones = w.db.milestones
  topicAtStore : w'.topicAtStore = w.topicAtStore

/-- Runs whose statements have the outcomes that are allowed. -/
def tallySyncProgram (allowed : EventWorld τ → TallySyncProc τ → StatementOutcome → Prop) :
    Program (EventWorld τ) (TallySyncProc τ) where
  Start _ l := ∃ input, l = .started input
  Step w l w' l' := ∃ how, allowed w l how ∧ tallySyncStep how w l = (w', l')
  Env := EventEnv

/-! ### What is to hold -/

/-- Any events, each milestone at most once. -/
def EventsInit (w : EventWorld τ) : Prop :=
  w.db.milestones.Nodup ∧ w.topicAtStore = fun _ => none

def Interleaved.Quiet {ι : Type*} (s : Interleaved (EventWorld τ) (TallySyncProc τ) ι) : Prop :=
  ∀ i l, s.procs i = some l → l = .ended

/-- Each action that had a topic when a run stored its present terminal status has exactly one
event of it. -/
def EventWorld.Announced (w : EventWorld τ) : Prop :=
  ∀ ga ∈ w.db.actions.rows, isTerminalStatus ga.status = true → ∀ t,
    w.topicAtStore ga.id = some t → ga.topicId = some t ∧ w.db.milestones.count (t, ga.status) = 1

/-! ### The condition -/

/-- The event that the run inserts next. -/
def TallySyncProc.due : TallySyncProc τ → Option GovStatusEvent
  | .announcing _ event _ _ => some event
  | _ => none

/-- The action and the status that the run stores next. -/
def TallySyncProc.storing : TallySyncProc τ → Option (TallyAction τ × GovStatus)
  | .looping input (ga :: _) _ =>
    let decision := tallyDecision (input.lifecycle ga.id) ga input.currentEpoch
    (input.tallyOf ga decision).map fun _ => (ga, decision.status)
  | .looping input [] (ga :: _) =>
    match input.lifecycle ga.id with
    | none => none
    | some life =>
      let status := deriveStatus (some life) ga input.currentEpoch
      if status = ga.status then none else some (ga, status)
  | _ => none

def StatementOutcome.Succeeds : StatementOutcome → Prop
  | .succeeds _ => True
  | _ => False

instance (how : StatementOutcome) : Decidable how.Succeeds :=
  match how with
  | .succeeds _ => .isTrue trivial
  | .throws | .dies => .isFalse id

/-- The condition on a statement: a new event is inserted, with a new id; and a terminal status
without one is stored by a run that has read the topic of the action. -/
def announces (w : EventWorld τ) (l : TallySyncProc τ) (how : StatementOutcome) : Prop :=
  (∀ event ∈ l.due, (event.topicId, event.toStatus) ∉ w.db.milestones →
    event.id ∉ w.db.events.rows.map (·.id) ∧ how.Succeeds) ∧
  ∀ store ∈ l.storing, how.Succeeds → isTerminalStatus store.2 = true →
    ∀ t ∈ w.db.topicOf store.1.id, (t, store.2) ∉ w.db.milestones → store.1.topicId = some t

instance (w : EventWorld τ) (l : TallySyncProc τ) (how : StatementOutcome) :
    Decidable (announces w l how) :=
  inferInstanceAs (Decidable (_ ∧ _))

variable {w w' : EventWorld τ} {l l' : TallySyncProc τ} {how : StatementOutcome}
  {db db' : TallyDb τ} {ga : TallyAction τ} {status : GovStatus} {event : GovStatusEvent}

/-! ### What a statement does -/

theorem insert_spec (h : db.insertGovStatusEventIfNew event = some db') :
    db'.actions = db.actions ∧ (event.topicId, event.toStatus) ∈ db'.milestones ∧
      (∀ m ∈ db.milestones, m ∈ db'.milestones) ∧
      (db.milestones.Nodup → db'.milestones.Nodup) := by
  have hany : (db.events.rows.any fun e => e.topicId == event.topicId &&
      e.toStatus == event.toStatus) = true ↔ (event.topicId, event.toStatus) ∈ db.milestones := by
    simp only [TallyDb.milestones, List.any_eq_true, Bool.and_eq_true, beq_iff_eq, List.mem_map,
      Prod.mk.injEq]
  refine ⟨actions_insertGovStatusEventIfNew h, ?_⟩
  unfold TallyDb.insertGovStatusEventIfNew at h
  split_ifs at h with hthere htaken
  · obtain rfl := Option.some_injective _ h
    exact ⟨hany.mp hthere, fun _ hm => hm, id⟩
  · obtain rfl := Option.some_injective _ h
    have hnew : (event.topicId, event.toStatus) ∉ db.milestones := fun hm => hthere (hany.mpr hm)
    have hrows : (db.events.insertOrIgnore event).rows = db.events.rows ++ [event] :=
      db.events.rows_insertOrIgnore event htaken
    have hmilestones : TallyDb.milestones { db with events := db.events.insertOrIgnore event } =
        db.milestones ++ [(event.topicId, event.toStatus)] := by
      rw [TallyDb.milestones, hrows, List.map_append]
      rfl
    rw [hmilestones]
    refine ⟨by simp, fun m hm => List.mem_append_left _ hm, fun hnodup => ?_⟩
    rw [← List.concat_eq_append]
    exact hnodup.concat hnew

theorem insert_eq_none (h : db.insertGovStatusEventIfNew event = none) :
    event.id ∈ db.events.rows.map (·.id) := by
  unfold TallyDb.insertGovStatusEventIfNew at h
  split_ifs at h with _ htaken
  exact htaken

/-- The rows stay, with these statuses. -/
def EventWorld.Rewrites (w w' : EventWorld τ) (g : TallyAction τ → GovStatus) : Prop :=
  ∃ f : TallyAction τ → TallyAction τ, w'.db.actions.rows = w.db.actions.rows.map f ∧
    ∀ ga, (f ga).id = ga.id ∧ (f ga).topicId = ga.topicId ∧ (f ga).status = g ga

theorem rewrites_updateWhere {p : TallyAction τ → Bool} {f : TallyAction τ → TallyAction τ}
    {g : TallyAction τ → GovStatus} {hkey : ∀ ga, p ga = true → (f ga).id = ga.id}
    {topicAtStore : String → Option String}
    (hf : ∀ ga, p ga = true → (f ga).topicId = ga.topicId ∧ (f ga).status = g ga)
    (hother : ∀ ga, p ga = false → ga.status = g ga) :
    w.Rewrites ⟨{ w.db with actions := w.db.actions.updateWhere p f hkey }, topicAtStore⟩ g := by
  refine ⟨fun ga => if p ga then f ga else ga, rfl, fun ga => ?_⟩
  beta_reduce
  by_cases hp : p ga = true
  · rw [if_pos hp]
    exact ⟨hkey ga hp, hf ga hp⟩
  · rw [if_neg hp]
    exact ⟨rfl, rfl, hother ga (Bool.not_eq_true _ ▸ hp)⟩

/-- Nothing that counts for the events is written. -/
structure EventWorld.Same (w w' : EventWorld τ) : Prop where
  rows : w.Rewrites w' (·.status)
  milestones : w'.db.milestones = w.db.milestones
  topicAtStore : w'.topicAtStore = w.topicAtStore

theorem EventWorld.Same.refl (w : EventWorld τ) : w.Same w :=
  ⟨⟨id, (List.map_id _).symm, fun _ => ⟨rfl, rfl, rfl⟩⟩, rfl, rfl⟩

/-- The status of an action is written. -/
structure EventWorld.StoresStatus (w w' : EventWorld τ) (id : String) (status : GovStatus) :
    Prop where
  rows : w.Rewrites w' fun ga => if ga.id = id then status else ga.status
  milestones : w'.db.milestones = w.db.milestones
  topicAtStore : w'.topicAtStore = Function.update w.topicAtStore id (w.db.topicOf id)

/-- The actions of a run that are still to be tallied. -/
def TallySyncProc.active : TallySyncProc τ → List (TallyAction τ)
  | .reading _ active | .listing _ active _ | .looping _ active _ | .announcing _ _ active _ =>
    active
  | _ => []

/-- They were open when they were read. -/
def TallySyncProc.ReadOpen (l : TallySyncProc τ) : Prop :=
  ∀ ga ∈ l.active, ga.status = .active ∨ ga.status = .pending

@[simp] theorem due_stored {input : TallyInput τ} {due : Option GovStatusEvent}
    {active ratified : List (TallyAction τ)} :
    (TallySyncProc.stored input due active ratified).due = due := by
  rcases due with _ | event <;> rfl

@[simp] theorem active_stored {input : TallyInput τ} {due : Option GovStatusEvent}
    {active ratified : List (TallyAction τ)} :
    (TallySyncProc.stored input due active ratified).active = active := by
  rcases due with _ | event <;> rfl

variable {id t : String}

theorem dueEvent_of_terminal {input : TallyInput τ} {decidedEpoch : Option ℤ}
    (hother : status ≠ ga.status) (hterminal : isTerminalStatus status = true)
    (htopic : ga.topicId = some t) :
    ∃ event, dueEvent input id ga status decidedEpoch = some event ∧ event.topicId = t ∧
      event.toStatus = status := by
  rw [dueEvent, htopic]
  exact ⟨_, if_pos ⟨hother, hterminal⟩, rfl, rfl⟩

theorem ne_of_readOpen (hopen : ga.status = .active ∨ ga.status = .pending)
    (hterminal : isTerminalStatus status = true) : status ≠ ga.status := by
  rintro rfl
  rcases hopen with h | h <;> rw [h] at hterminal <;> cases hterminal

/-- One of three things is done: nothing that counts is written; or a status is stored, which the
run announces next if it has read the topic of the action; or the event is inserted. -/
def Effect (how : StatementOutcome) (w : EventWorld τ) (l : TallySyncProc τ) (w' : EventWorld τ)
    (l' : TallySyncProc τ) : Prop :=
  (w.Same w' ∧ l'.due = none ∧ (l.due.isSome → ¬how.Succeeds)) ∨
  (∃ ga status, l.storing = some (ga, status) ∧ l.due = none ∧ how.Succeeds ∧
    w.StoresStatus w' ga.id status ∧
    ∀ t, ga.topicId = some t → isTerminalStatus status = true →
      ∃ event, l'.due = some event ∧ event.topicId = t ∧ event.toStatus = status) ∨
  ∃ event, l.due = some event ∧ l'.due = none ∧
    w' = { w with db := (w.db.insertGovStatusEventIfNew event).getD w.db }

theorem tally_effect {input : TallyInput τ} {active ratified : List (TallyAction τ)}
    (hopen : ga.status = .active ∨ ga.status = .pending)
    (h : TallySyncProc.next id w (.looping input (ga :: active) ratified) = (w', l')) :
    Effect (.succeeds id) w (.looping input (ga :: active) ratified) w' l' := by
  unfold TallySyncProc.next at h
  rcases htally : input.tallyOf ga (tallyDecision (input.lifecycle ga.id) ga input.currentEpoch)
    with _ | tally
  · simp only [htally] at h
    cases h
    exact .inl ⟨.refl w, rfl, nofun⟩
  · simp only [htally] at h
    cases h
    refine .inr (.inl ⟨ga, (tallyDecision (input.lifecycle ga.id) ga input.currentEpoch).status,
      by simp only [TallySyncProc.storing, htally, Option.map_some], rfl,
      trivial, ⟨rewrites_updateWhere (fun other hid => ⟨rfl, ?_⟩) fun other hid => ?_, rfl, rfl⟩,
      fun t htopic hterminal => ?_⟩)
    · exact (if_pos (beq_iff_eq.mp hid)).symm
    · exact (if_neg (by simpa using hid)).symm
    · rw [due_stored]
      exact dueEvent_of_terminal (ne_of_readOpen hopen hterminal) hterminal htopic

theorem recheck_effect {input : TallyInput τ} {ratified : List (TallyAction τ)}
    (h : TallySyncProc.next id w (.looping input [] (ga :: ratified)) = (w', l')) :
    Effect (.succeeds id) w (.looping input [] (ga :: ratified)) w' l' := by
  unfold TallySyncProc.next at h
  rcases hlife : input.lifecycle ga.id with _ | life
  · simp only [hlife] at h
    cases h
    exact .inl ⟨.refl w, rfl, nofun⟩
  · by_cases hsame : deriveStatus (some life) ga input.currentEpoch = ga.status
    · simp only [hlife, hsame, if_true] at h
      cases h
      exact .inl ⟨.refl w, rfl, nofun⟩
    · simp only [hlife, hsame, if_false] at h
      cases h
      refine .inr (.inl ⟨ga, deriveStatus (some life) ga input.currentEpoch,
        by simp only [TallySyncProc.storing, hlife, hsame, if_false], rfl,
        trivial, ⟨rewrites_updateWhere (fun other hid => ⟨rfl, ?_⟩) fun other hid => ?_, rfl,
        rfl⟩, fun t htopic hterminal => ?_⟩)
      · exact (if_pos (beq_iff_eq.mp hid)).symm
      · exact (if_neg (by simpa using hid)).symm
      · rw [due_stored]
        exact dueEvent_of_terminal hsame hterminal htopic

/-- **What a statement does.** -/
theorem effect_of_step (hopen : l.ReadOpen) (h : tallySyncStep how w l = (w', l')) :
    Effect how w l w' l' := by
  rcases how with id | _ | _
  · rcases l with input | ⟨input, active⟩ | ⟨input, active, ratified⟩ |
      ⟨input, _ | ⟨ga, active⟩, ratified⟩ | ⟨input, event, active, ratified⟩ | _
    · cases h
      exact .inl ⟨.refl w, rfl, nofun⟩
    · have h : (if active = [] ∧ w.db.getRatifiedActions input.limit = [] then (w, .ended) else
        (w, .listing input active (w.db.getRatifiedActions input.limit))) = (w', l') := h
      split_ifs at h <;> cases h
      · exact .inl ⟨.refl w, rfl, nofun⟩
      · exact .inl ⟨.refl w, rfl, nofun⟩
    · cases h
      exact .inl ⟨⟨rewrites_updateWhere (fun _ _ => ⟨rfl, rfl⟩) fun _ _ => rfl, rfl, rfl⟩, rfl,
        nofun⟩
    · rcases ratified with _ | ⟨ga, ratified⟩
      · cases h
        exact .inl ⟨.refl w, rfl, nofun⟩
      · exact recheck_effect h
    · exact tally_effect (hopen ga List.mem_cons_self) h
    · cases h
      exact .inr (.inr ⟨event, rfl, rfl, rfl⟩)
    · cases h
      exact .inl ⟨.refl w, rfl, nofun⟩
  · cases h
    refine .inl ⟨.refl w, ?_, fun _ h => h⟩
    rcases l with input | ⟨input, active⟩ | ⟨input, active, ratified⟩ |
      ⟨input, _ | ⟨ga, active⟩, _ | ⟨ga', ratified⟩⟩ | ⟨input, event, active, ratified⟩ | _ <;> rfl
  · cases h
    exact .inl ⟨.refl w, rfl, fun _ h => h⟩

theorem active_tally (id : String) (input : TallyInput τ) (active ratified : List (TallyAction τ)) :
    (TallySyncProc.next id w (.looping input (ga :: active) ratified)).2.active = active := by
  unfold TallySyncProc.next
  dsimp only
  split
  · rfl
  · exact active_stored

theorem active_recheck (id : String) (input : TallyInput τ) (ratified : List (TallyAction τ)) :
    (TallySyncProc.next id w (.looping input [] ratified)).2.active = [] := by
  rcases ratified with _ | ⟨ga, ratified⟩
  · rfl
  · unfold TallySyncProc.next
    dsimp only
    split
    · rfl
    · split_ifs
      · rfl
      · exact active_stored

theorem active_of_step (how : StatementOutcome) (w : EventWorld τ) (l : TallySyncProc τ) :
    ∀ ga ∈ (tallySyncStep how w l).2.active, ga ∈ l.active ∨ ga ∈ w.db.open_ := by
  intro ga hga
  rcases how with id | _ | _
  · rcases l with input | ⟨input, active⟩ | ⟨input, active, ratified⟩ |
      ⟨input, _ | ⟨first, active⟩, ratified⟩ | ⟨input, event, active, ratified⟩ | _
    · exact .inr (mem_of_mem_getStale hga)
    · left
      unfold tallySyncStep TallySyncProc.next at hga
      dsimp only at hga
      split_ifs at hga
      · exact nomatch hga
      · exact hga
    · exact .inl hga
    · rw [show (tallySyncStep (.succeeds id) w _).2.active = [] from active_recheck ..] at hga
      exact nomatch hga
    · rw [show (tallySyncStep (.succeeds id) w _).2.active = active from active_tally ..] at hga
      exact .inl (List.mem_cons_of_mem _ hga)
    · exact .inl hga
    · exact .inl hga
  · left
    rcases l with input | ⟨input, active⟩ | ⟨input, active, ratified⟩ |
      ⟨input, _ | ⟨first, active⟩, _ | ⟨second, ratified⟩⟩ | ⟨input, event, active, ratified⟩ | _
    all_goals first
      | exact hga
      | exact absurd hga List.not_mem_nil
      | exact List.mem_cons_of_mem _ hga
  · exact nomatch hga

theorem readOpen_of_step (hopen : l.ReadOpen) (h : tallySyncStep how w l = (w', l')) :
    l'.ReadOpen := by
  intro ga hga
  have hga : ga ∈ (tallySyncStep how w l).2.active := by rwa [h]
  rcases active_of_step how w l ga hga with hmem | hmem
  · exact hopen ga hmem
  · exact (mem_open.mp hmem).2

/-! ### A run alone -/

/-! ### Each milestone at most once -/

variable {allowed : EventWorld τ → TallySyncProc τ → StatementOutcome → Prop} {ι : Type*}
  [DecidableEq ι] {s : Interleaved (EventWorld τ) (TallySyncProc τ) ι}

/-- A topic that a run has found when it stored a status is that of the action. -/
def EventWorld.TopicsKept (w : EventWorld τ) : Prop :=
  ∀ id t, w.topicAtStore id = some t → ∃ ga ∈ w.db.actions.rows, ga.id = id ∧ ga.topicId = some t

theorem EventWorld.Rewrites.forward {g : TallyAction τ → GovStatus} (h : w.Rewrites w' g)
    (hga : ga ∈ w.db.actions.rows) :
    ∃ ga' ∈ w'.db.actions.rows, ga'.id = ga.id ∧ ga'.topicId = ga.topicId ∧ ga'.status = g ga := by
  obtain ⟨f, hrows, hf⟩ := h
  exact ⟨f ga, hrows ▸ List.mem_map_of_mem hga, hf ga⟩

theorem EventWorld.Rewrites.back {g : TallyAction τ → GovStatus} {ga' : TallyAction τ}
    (h : w.Rewrites w' g) (hga' : ga' ∈ w'.db.actions.rows) :
    ∃ ga ∈ w.db.actions.rows, ga'.id = ga.id ∧ ga'.topicId = ga.topicId ∧ ga'.status = g ga := by
  obtain ⟨f, hrows, hf⟩ := h
  rw [hrows] at hga'
  obtain ⟨ga, hga, rfl⟩ := List.mem_map.mp hga'
  exact ⟨ga, hga, hf ga⟩

theorem topicOf_eq_some (h : db.topicOf id = some t) :
    ∃ ga ∈ db.actions.rows, ga.id = id ∧ ga.topicId = some t := by
  obtain ⟨ga, hfind, htopic⟩ := Option.bind_eq_some_iff.mp h
  obtain ⟨hga, hid⟩ := (db.actions.find?_eq_some fun _ => beq_iff_eq).mp hfind
  exact ⟨ga, hga, hid, htopic⟩

theorem kept_of_effect (h : Effect how w l w' l') (hinv : w.db.milestones.Nodup ∧ w.TopicsKept) :
    w'.db.milestones.Nodup ∧ w'.TopicsKept := by
  obtain ⟨hnodup, htopics⟩ := hinv
  rcases h with ⟨hsame, -⟩ | ⟨ga, status, -, -, -, hstores, -⟩ | ⟨event, -, -, rfl⟩
  · refine ⟨hsame.milestones ▸ hnodup, fun id t htopic => ?_⟩
    obtain ⟨ga, hga, hid, hga_topic⟩ := htopics id t (hsame.topicAtStore ▸ htopic)
    obtain ⟨ga', hga', hid', htopic', -⟩ := hsame.rows.forward hga
    exact ⟨ga', hga', hid'.trans hid, htopic'.trans hga_topic⟩
  · refine ⟨hstores.milestones ▸ hnodup, fun id t htopic => ?_⟩
    have hfound : ∃ ga ∈ w.db.actions.rows, ga.id = id ∧ ga.topicId = some t := by
      rw [hstores.topicAtStore] at htopic
      by_cases hid : id = ga.id
      · subst hid
        rw [Function.update_self] at htopic
        exact topicOf_eq_some htopic
      · rw [Function.update_of_ne hid] at htopic
        exact htopics id t htopic
    obtain ⟨other, hother, hid, hother_topic⟩ := hfound
    obtain ⟨ga', hga', hid', htopic', -⟩ := hstores.rows.forward hother
    exact ⟨ga', hga', hid'.trans hid, htopic'.trans hother_topic⟩
  · rcases hinsert : w.db.insertGovStatusEventIfNew event with _ | db'
    · exact ⟨hnodup, htopics⟩
    · obtain ⟨hactions, -, -, hkeeps⟩ := insert_spec hinsert
      refine ⟨hkeeps hnodup, fun id t htopic => ?_⟩
      obtain ⟨ga, hga, hfound⟩ := htopics id t htopic
      exact ⟨ga, (congrArg (·.rows) hactions : db'.actions.rows = _) ▸ hga, hfound⟩

theorem kept_of_env (h : EventEnv w w') (hinv : w.db.milestones.Nodup ∧ w.TopicsKept) :
    w'.db.milestones.Nodup ∧ w'.TopicsKept := by
  refine ⟨h.events ▸ hinv.1, fun id t htopic => ?_⟩
  obtain ⟨ga, hga, hid, hga_topic⟩ := hinv.2 id t (h.topicAtStore ▸ htopic)
  obtain ⟨ga', hga', hid', -, htopic'⟩ := h.kept ga hga
  exact ⟨ga', hga', hid'.trans hid, htopic' t hga_topic⟩

/-- What holds in any interleaving, whatever becomes of the statements. -/
def eventsSound (allowed : EventWorld τ → TallySyncProc τ → StatementOutcome → Prop) :
    (tallySyncProgram allowed).Sound EventsInit where
  inv w := w.db.milestones.Nodup ∧ w.TopicsKept
  asserts _ l := l.ReadOpen
  apart _ _ := True
  symm _ _ _ := trivial
  init w hinit := ⟨hinit.1, fun id t htopic => by rw [hinit.2] at htopic; cases htopic⟩
  start w l _ hstart := by
    obtain ⟨input, rfl⟩ := hstart
    exact ⟨fun ga hga => absurd hga List.not_mem_nil, fun _ _ => trivial⟩
  step w l w' l' hinv hopen hstep := by
    obtain ⟨how, -, hstep⟩ := hstep
    exact ⟨kept_of_effect (effect_of_step hopen hstep) hinv, readOpen_of_step hopen hstep⟩
  noninterference _ _ _ _ _ _ _ hother _ _ := ⟨hother, trivial⟩
  env w w' hinv henv := ⟨kept_of_env henv hinv, fun _ hother => hother⟩

/-- **No milestone is announced twice**, in any interleaving. -/
theorem eventsOnce_of_reachable (h : ((tallySyncProgram allowed).system ι EventsInit).Reachable s) :
    s.shared.db.milestones.Nodup :=
  ((eventsSound allowed).holds h).inv.1

/-! ### Each milestone at least once -/

/-- A milestone that has no event: the action has this status, and had this topic when it was
stored. -/
def EventWorld.Missing (id t : String) (status : GovStatus) (w : EventWorld τ) : Prop :=
  (∃ ga ∈ w.db.actions.rows, ga.id = id ∧ ga.status = status) ∧ w.topicAtStore id = some t ∧
    (t, status) ∉ w.db.milestones

def TallySyncProc.Owes (t : String) (status : GovStatus) (l : TallySyncProc τ) : Prop :=
  ∃ event, l.due = some event ∧ event.topicId = t ∧ event.toStatus = status

/-- **One statement**: a milestone goes missing only to a run that is about to announce it. -/
theorem missing_of_step (hterminal : isTerminalStatus status = true) (hopen : l.ReadOpen)
    (hallowed : announces w l how) (h : tallySyncStep how w l = (w', l'))
    (hmissing : w'.Missing id t status) (howes : ¬l'.Owes t status) :
    w.Missing id t status ∧ ¬l.Owes t status := by
  obtain ⟨⟨ga', hga', hid', hstatus'⟩, htopic', hnone'⟩ := hmissing
  obtain ⟨hinserts, hstores'⟩ := hallowed
  rcases effect_of_step hopen h with ⟨hsame, -, hnot⟩ | ⟨ga, stored, hstoring, hdue, hsucceeds,
    hstores, hannounces⟩ | ⟨event, hdue, -, rfl⟩
  · rw [hsame.milestones] at hnone'
    obtain ⟨ga, hga, hid, -, hstatus⟩ := hsame.rows.back hga'
    refine ⟨⟨⟨ga, hga, hid.symm.trans hid', hstatus.symm.trans hstatus'⟩,
      hsame.topicAtStore ▸ htopic', hnone'⟩, ?_⟩
    rintro ⟨event, hdue, rfl, rfl⟩
    exact hnot (hdue ▸ rfl) (hinserts event hdue hnone').2
  · rw [hstores.milestones] at hnone'
    rw [hstores.topicAtStore] at htopic'
    obtain ⟨old, hold, hid, -, hstatus⟩ := hstores.rows.back hga'
    have hnotDue : ¬l.Owes t status := by
      rintro ⟨event, hevent, -⟩
      cases hdue.symm.trans hevent
    by_cases hself : id = ga.id
    · -- its own status: the run has read the topic, and announces it next
      subst hself
      rw [Function.update_self] at htopic'
      rw [if_pos (hid.symm.trans hid'), hstatus'] at hstatus
      subst hstatus
      have htopic := hstores' (ga, status) hstoring hsucceeds hterminal t htopic' hnone'
      exact absurd (hannounces t htopic hterminal) howes
    · rw [Function.update_of_ne hself] at htopic'
      rw [if_neg fun hsame => hself (hid'.symm.trans (hid.trans hsame))] at hstatus
      exact ⟨⟨⟨old, hold, hid.symm.trans hid', hstatus.symm.trans hstatus'⟩, htopic', hnone'⟩,
        hnotDue⟩
  · rcases hinsert : w.db.insertGovStatusEventIfNew event with _ | db'
    · simp only [hinsert, Option.getD_none] at hga' hnone'
      refine ⟨⟨⟨ga', hga', hid', hstatus'⟩, htopic', hnone'⟩, ?_⟩
      rintro ⟨owed, howed, rfl, rfl⟩
      obtain rfl := Option.some_injective _ (hdue.symm.trans howed)
      exact (hinserts event hdue hnone').1 (insert_eq_none hinsert)
    · simp only [hinsert, Option.getD_some] at hga' hnone'
      obtain ⟨hactions, hthere, hkeeps, -⟩ := insert_spec hinsert
      rw [hactions] at hga'
      refine ⟨⟨⟨ga', hga', hid', hstatus'⟩, htopic', fun hm => hnone' (hkeeps _ hm)⟩, ?_⟩
      rintro ⟨owed, howed, rfl, rfl⟩
      obtain rfl := Option.some_injective _ (hdue.symm.trans howed)
      exact hnone' hthere

theorem missing_of_env (hterminal : isTerminalStatus status = true) (h : EventEnv w w')
    (hmissing : w'.Missing id t status) : w.Missing id t status := by
  obtain ⟨⟨ga', hga', hid', hstatus'⟩, htopic', hnone'⟩ := hmissing
  refine ⟨?_, h.topicAtStore ▸ htopic', h.events ▸ hnone'⟩
  by_cases hold : ga'.id ∈ w.db.ids
  · obtain ⟨ga, hga, hid⟩ := List.mem_map.mp hold
    obtain ⟨kept, hkept, hkept_id, hkept_status, -⟩ := h.kept ga hga
    obtain rfl := w'.db.actions.eq_of_key hkept hga' (hkept_id.trans hid)
    exact ⟨ga, hga, hid.trans hid', hkept_status.symm.trans hstatus'⟩
  · rw [← hstatus', h.added ga' hga' hold] at hterminal
    cases hterminal

/-- **Each milestone has one event**, in every run whose statements meet the condition, once no run
is in flight; and no milestone has two, in any state of any run. -/
theorem events_announced
    (h : ((tallySyncProgram fun (_ : EventWorld τ) _ _ => True).system ι EventsInit).Reachable s) :
    s.shared.db.milestones.Nodup ∧
      (((tallySyncProgram announces).system ι EventsInit).Reachable s → s.Quiet →
        s.shared.Announced) := by
  refine ⟨eventsOnce_of_reachable h, fun h hquiet ga hga hterminal t htopic => ?_⟩
  obtain ⟨hnodup, htopics⟩ := ((eventsSound announces).holds h).inv
  refine ⟨?_, ?_⟩
  · obtain ⟨other, hother, hid, hother_topic⟩ := htopics ga.id t htopic
    exact s.shared.db.actions.eq_of_key hother hga hid ▸ hother_topic
  · refine List.count_eq_one_of_mem hnodup (not_not.mp fun hnone => ?_)
    obtain ⟨i, l, hproc, event, hdue, -⟩ := (eventsSound announces).when.owed
      (EventWorld.Missing ga.id t ga.status) (TallySyncProc.Owes t ga.status)
      (fun w hinit hmissing => by
        have htopic := hmissing.2.1
        rw [hinit.2] at htopic
        cases htopic)
      (fun w l w' l' _ _ _ hopen hstep hmissing howes => by
        obtain ⟨how, hallowed, hstep⟩ := hstep
        exact missing_of_step hterminal hopen hallowed hstep hmissing howes)
      (fun w w' _ _ henv hmissing => missing_of_env hterminal henv hmissing)
      (Program.reachable_none h) ⟨⟨ga, hga, rfl, rfl⟩, htopic, hnone⟩
    obtain rfl := hquiet i l hproc
    cases hdue

end

/-! ### An action that is enacted -/

def threadTally : TallyAction Unit :=
  { sampleTally with status := .active, topicId := some "thread" }

/-- A run has started that finds it enacted. -/
def enactingState : Interleaved (EventWorld Unit) (TallySyncProc Unit) Unit where
  shared := ⟨⟨⟨[threadTally], List.nodup_singleton _⟩, .empty⟩, fun _ => none⟩
  procs _ := some (.started (sampleRun 10 [sampleLife none (some 9)]))

def allowedStep (allowed : EventWorld Unit → TallySyncProc Unit → StatementOutcome → Prop)
    [∀ w l how, Decidable (allowed w l how)] (how : StatementOutcome) (w : EventWorld Unit)
    (l : TallySyncProc Unit) : Option (EventWorld Unit × TallySyncProc Unit) :=
  if allowed w l how then some (tallySyncStep how w l) else none

theorem step_of_allowedStep
    {allowed allowed' : EventWorld Unit → TallySyncProc Unit → StatementOutcome → Prop}
    [∀ w l how, Decidable (allowed w l how)] (hallowed : ∀ w l how, allowed w l how →
      allowed' w l how) (how : StatementOutcome) (w : EventWorld Unit) (l : TallySyncProc Unit)
    (w' : EventWorld Unit) (l' : TallySyncProc Unit)
    (h : allowedStep allowed how w l = some (w', l')) :
    (tallySyncProgram allowed').Step w l w' l' := by
  rw [allowedStep] at h
  split at h
  · next hmet => exact ⟨how, hallowed w l how hmet, Option.some_injective _ h⟩
  · cases h

theorem reachable_enactingState
    (allowed : EventWorld Unit → TallySyncProc Unit → StatementOutcome → Prop) :
    ((tallySyncProgram allowed).system Unit EventsInit).Reachable enactingState := by
  have hstart : (tallySyncProgram allowed).Start enactingState.shared
      (.started (sampleRun 10 [sampleLife none (some 9)])) := ⟨_, rfl⟩
  exact (Program.reachable_started (c := .none) ⟨List.nodup_nil, rfl⟩ trivial _
    fun _ => hstart).of_restrict

def TallySyncProc.hasEnded {τ : Type*} : TallySyncProc τ → Bool
  | .ended => true
  | _ => false

theorem quiet_of_hasEnded {s : Interleaved (EventWorld Unit) (TallySyncProc Unit) Unit}
    (h : (s.procs ()).all TallySyncProc.hasEnded = true) : s.Quiet := by
  intro _ l hl
  rw [hl] at h
  cases l <;> first | rfl | cases h

def enactedState : Option (Interleaved (EventWorld Unit) (TallySyncProc Unit) Unit) :=
  Program.run (allowedStep announces) (List.replicate 6 ((), .succeeds "event")) enactingState

theorem isSome_enactedState : enactedState.isSome = true := by decide +kernel

/-- Its milestone is announced once. -/
theorem events_announced_enacted :
    (enactedState.get isSome_enactedState).shared.topicAtStore "tx#0" = some "thread" ∧
      (enactedState.get isSome_enactedState).shared.Announced := by
  have hany : ((tallySyncProgram fun _ _ _ => True).system Unit EventsInit).Reachable
      (enactedState.get isSome_enactedState) :=
    Program.reachable_run (step_of_allowedStep fun _ _ _ _ => trivial)
      (reachable_enactingState _) _ isSome_enactedState
  have hmet : ((tallySyncProgram announces).system Unit EventsInit).Reachable
      (enactedState.get isSome_enactedState) :=
    Program.reachable_run (step_of_allowedStep fun _ _ _ h => h)
      (reachable_enactingState _) _ isSome_enactedState
  exact ⟨by decide +kernel, (events_announced hany).2 hmet (quiet_of_hasEnded (by decide +kernel))⟩

/-- The run is cut off once the status is stored. -/
def cutOffState : Option (Interleaved (EventWorld Unit) (TallySyncProc Unit) Unit) :=
  Program.run (allowedStep fun _ _ _ => True)
    (List.replicate 4 ((), .succeeds "event") ++ [((), .dies)]) enactingState

theorem isSome_cutOffState : cutOffState.isSome = true := by decide +kernel

/-- **A milestone that is lost**: no run is in flight, the action is enacted and had a topic when
that was stored, and nothing has been announced. -/
theorem not_events_announced :
    ((tallySyncProgram fun _ _ _ => True).system Unit EventsInit).Reachable
        (cutOffState.get isSome_cutOffState) ∧
      (cutOffState.get isSome_cutOffState).Quiet ∧
        ¬(cutOffState.get isSome_cutOffState).shared.Announced := by
  refine ⟨Program.reachable_run (step_of_allowedStep fun _ _ _ h => h)
    (reachable_enactingState _) _ isSome_cutOffState, quiet_of_hasEnded (by decide +kernel),
    fun h => ?_⟩
  have hrow : ∃ ga ∈ (cutOffState.get isSome_cutOffState).shared.db.actions.rows,
      isTerminalStatus ga.status = true ∧
        (cutOffState.get isSome_cutOffState).shared.topicAtStore ga.id = some "thread" ∧
          (cutOffState.get isSome_cutOffState).shared.db.milestones.count ("thread", ga.status) =
            0 := by
    decide +kernel
  obtain ⟨ga, hga, hterminal, htopic, hnone⟩ := hrow
  cases hnone.symm.trans (h ga hga hterminal "thread" htopic).2

end DrepTalk
