import DrepTalk.Governance.ActionThreads
import DrepTalk.Governance.Epochs

/-!
# The tally sync

`syncGovernanceTallies` of `src/lib/governance/tallySync.ts` with the statements that it writes to
`governance_actions`. A run tallies the actions that are open and derives the **status** of each
from the lifecycle epochs that `proposal_list` reports, or from its expiry; an action that is
ratified is looked at again, without a tally, until it is enacted.

What a run stores of a tally (the counts, powers, percentages and thresholds) is one value, and
comes from a parameter: the requests that it takes may fail, and no status depends on it.
-/

namespace DrepTalk

/-- `status` of an action. -/
inductive GovStatus
  | pending
  | active
  | ratified
  | enacted
  | dropped
  | expired
  | closed
  deriving DecidableEq

def TERMINAL_STATUSES : List GovStatus := [.ratified, .enacted, .dropped, .expired, .closed]

def isTerminalStatus (status : GovStatus) : Bool := TERMINAL_STATUSES.contains status

/-- A row of `governance_actions`, by the columns that a run reads or writes; `tally` stands for
those of the tally and the thresholds. -/
structure TallyAction (τ : Type*) where
  id : String
  proposalId : Option String
  type : String
  status : GovStatus
  expiryEpoch : Option ℤ
  decidedEpoch : Option ℤ
  ratifiedEpoch : Option ℤ
  tallySyncedAt : Option ℤ
  lastSyncedAt : ℤ
  votesSyncedAt : Option ℤ
  topicId : Option String
  tally : τ
  deriving DecidableEq

/-- An event of type `gov_status`. -/
structure GovStatusEvent where
  id : String
  topicId : String
  fromStatus : GovStatus
  toStatus : GovStatus
  createdAt : ℤ
  notifiedAt : ℤ

/-- The tables a run reads and writes. -/
structure TallyDb (τ : Type*) where
  actions : KeyedTable fun ga : TallyAction τ => ga.id
  events : KeyedTable fun e : GovStatusEvent => e.id

/-- A row of `proposal_list` with all its lifecycle epochs. -/
structure ProposalLifecycle extends ProposalListRow where
  ratifiedEpoch : Option ℤ
  expiredEpoch : Option ℤ
  droppedEpoch : Option ℤ
  deriving DecidableEq

section

variable {τ : Type*}

/-! ### Statuses -/

/-- The status that the lifecycle epochs give, or else the expiry. -/
def deriveStatus (life : Option ProposalLifecycle) (ga : TallyAction τ)
    (currentEpoch : Option ℤ) : GovStatus :=
  let isInfo := ga.type == "InfoAction"
  if (life.bind (·.enactedEpoch)).isSome then .enacted
  else if (life.bind (·.ratifiedEpoch)).isSome then .ratified
  else if (life.bind (·.expiredEpoch)).isSome then if isInfo then .closed else .expired
  else if (life.bind (·.droppedEpoch)).isSome then if isInfo then .closed else .dropped
  else
    match ga.expiryEpoch <|> life.bind (·.expiration), currentEpoch with
    | some expiry, some epoch =>
      if expiry ≤ epoch then if isInfo then .closed else .expired else .active
    | _, _ => .active

/-- `enacted_epoch ?? ratified_epoch ?? expired_epoch ?? dropped_epoch`. -/
def ProposalLifecycle.outcomeEpoch (life : ProposalLifecycle) : Option ℤ :=
  life.enactedEpoch <|> life.ratifiedEpoch <|> life.expiredEpoch <|> life.droppedEpoch

/-- What a run has decided on an action before it reads the tally. -/
structure TallyDecision where
  status : GovStatus
  decidedEpoch : Option ℤ
  ratifiedEpoch : Option ℤ
  expiryEpoch : Option ℤ

def tallyDecision (life : Option ProposalLifecycle) (ga : TallyAction τ)
    (currentEpoch : Option ℤ) : TallyDecision :=
  let status := deriveStatus life ga currentEpoch
  let expiryEpoch := ga.expiryEpoch <|> life.bind (·.expiration)
  { status := status
    decidedEpoch := life.bind (·.outcomeEpoch) <|> if status = .active then none else expiryEpoch
    ratifiedEpoch := life.bind (·.ratifiedEpoch)
    expiryEpoch := expiryEpoch }

/-! ### Statements -/

/-- `ORDER BY` of a nullable column. -/
def nullsFirst (x y : Option ℤ) : Bool :=
  match x, y with
  | none, _ => true
  | some _, none => false
  | some a, some b => decide (a ≤ b)

/-- `ORDER BY tally_synced_at IS NOT NULL, tally_synced_at, expiry_epoch`. -/
def staleFirst (a b : TallyAction τ) : Prop :=
  nullsFirst a.tallySyncedAt b.tallySyncedAt = true ∧
    (a.tallySyncedAt = b.tallySyncedAt → nullsFirst a.expiryEpoch b.expiryEpoch = true)

instance : DecidableRel (staleFirst (τ := τ)) := fun _ _ => inferInstanceAs (Decidable (_ ∧ _))

/-- `ORDER BY last_synced_at, expiry_epoch`. -/
def leastRecent (a b : TallyAction τ) : Prop :=
  a.lastSyncedAt ≤ b.lastSyncedAt ∧
    (a.lastSyncedAt = b.lastSyncedAt → nullsFirst a.expiryEpoch b.expiryEpoch = true)

instance : DecidableRel (leastRecent (τ := τ)) := fun _ _ => inferInstanceAs (Decidable (_ ∧ _))

namespace TallyDb

/-- The actions that are not decided yet. -/
def open_ (db : TallyDb τ) : List (TallyAction τ) :=
  db.actions.rows.filter fun ga => ga.status = .active ∨ ga.status = .pending

def ratified (db : TallyDb τ) : List (TallyAction τ) :=
  db.actions.rows.filter fun ga => ga.status = .ratified

def getStaleSyncableActions (db : TallyDb τ) (limit : ℕ) : List (TallyAction τ) :=
  (db.open_.insertionSort staleFirst).take limit

def getRatifiedActions (db : TallyDb τ) (limit : ℕ) : List (TallyAction τ) :=
  (db.ratified.insertionSort leastRecent).take limit

/-- `backfillRatifiedEpochs`: the ratified epochs of all rows that have none. -/
def backfillRatifiedEpochs (db : TallyDb τ) (lifecycle : String → Option ProposalLifecycle) :
    TallyDb τ :=
  { db with
    actions := db.actions.updateWhere (·.ratifiedEpoch.isNone)
      (fun ga => { ga with ratifiedEpoch := (lifecycle ga.id).bind (·.ratifiedEpoch) })
      fun _ _ => rfl }

def updateGovernanceTallyAndStatus (db : TallyDb τ) (id : String) (decision : TallyDecision)
    (tally : τ) (now : ℤ) : TallyDb τ :=
  { db with
    actions := db.actions.updateWhere (·.id == id)
      (fun ga =>
        { ga with
          status := decision.status
          tally := tally
          decidedEpoch := decision.decidedEpoch
          ratifiedEpoch := decision.ratifiedEpoch <|> ga.ratifiedEpoch
          tallySyncedAt := some now
          lastSyncedAt := now
          votesSyncedAt := if decision.status = .active then ga.votesSyncedAt else none })
      fun _ _ => rfl }

def updateGovernanceActionStatus (db : TallyDb τ) (id : String) (status : GovStatus)
    (decidedEpoch ratifiedEpoch : Option ℤ) (now : ℤ) : TallyDb τ :=
  { db with
    actions := db.actions.updateWhere (·.id == id)
      (fun ga =>
        { ga with
          status := status
          decidedEpoch := decidedEpoch
          ratifiedEpoch := ratifiedEpoch <|> ga.ratifiedEpoch
          lastSyncedAt := now
          votesSyncedAt := none })
      fun _ _ => rfl }

def insertGovStatusEventIfNew (db : TallyDb τ) (event : GovStatusEvent) : Option (TallyDb τ) :=
  if db.events.rows.any fun e => e.topicId == event.topicId && e.toStatus == event.toStatus then
    some db
  else if event.id ∈ db.events.rows.map (·.id) then none
  else some { db with events := db.events.insertOrIgnore event }

end TallyDb

/-! ### A run -/

/-- What a run is given: the tip, `proposal_list`, what the requests for one action come to (none
where one fails), and the ids of its events. -/
structure TallyInput (τ : Type*) where
  currentEpoch : Option ℤ
  now : ℤ
  dbNow : ℤ
  network : Option EpochAnchor
  limit : ℕ
  proposals : List ProposalLifecycle
  tallyOf : TallyAction τ → TallyDecision → Option τ
  draw : String → String

/-- The map of the run: a later row replaces an earlier one. -/
def TallyInput.lifecycle (input : TallyInput τ) (id : String) : Option ProposalLifecycle :=
  input.proposals.reverse.find? fun p => p.id == id

structure TallySyncResult where
  active : ℕ
  updated : ℕ
  frozen : ℕ
  failed : ℕ
  reSynced : ℕ

def TallyInput.statusEventTime (input : TallyInput τ) (decidedEpoch : Option ℤ) : ℤ :=
  match input.network, decidedEpoch with
  | some cfg, some epoch => cfg.epochStartMs epoch
  | _, _ => input.now

/-- The event of a transition into a terminal status, if the action has a topic. -/
def announce (input : TallyInput τ) (db : TallyDb τ) (ga : TallyAction τ) (status : GovStatus)
    (decidedEpoch : Option ℤ) : Option (TallyDb τ) :=
  match ga.topicId with
  | none => some db
  | some topicId =>
    if status ≠ ga.status ∧ isTerminalStatus status then
      db.insertGovStatusEventIfNew ⟨input.draw ga.id, topicId, ga.status, status,
        input.statusEventTime decidedEpoch, input.dbNow⟩
    else some db

def tallyAction (input : TallyInput τ) (acc : TallyDb τ × TallySyncResult) (ga : TallyAction τ) :
    TallyDb τ × TallySyncResult :=
  let decision := tallyDecision (input.lifecycle ga.id) ga input.currentEpoch
  match input.tallyOf ga decision with
  | none => (acc.1, { acc.2 with failed := acc.2.failed + 1 })
  | some tally =>
    let db := acc.1.updateGovernanceTallyAndStatus ga.id decision tally input.now
    match announce input db ga decision.status decision.decidedEpoch with
    | none => (db, { acc.2 with failed := acc.2.failed + 1 })
    | some db' =>
      (db',
        { acc.2 with
          updated := acc.2.updated + 1
          frozen := acc.2.frozen + if decision.status = .active then 0 else 1 })

/-- One ratified action: nothing happens where `proposal_list` does not have it, or it is ratified
still. -/
def recheckRatified (input : TallyInput τ) (acc : TallyDb τ × TallySyncResult)
    (ga : TallyAction τ) : TallyDb τ × TallySyncResult :=
  match input.lifecycle ga.id with
  | none => acc
  | some life =>
    let status := deriveStatus (some life) ga input.currentEpoch
    if status = ga.status then acc
    else
      let decidedEpoch := life.outcomeEpoch <|> ga.decidedEpoch
      let db := acc.1.updateGovernanceActionStatus ga.id status decidedEpoch life.ratifiedEpoch
        input.now
      match announce input db ga status decidedEpoch with
      | none => (db, { acc.2 with failed := acc.2.failed + 1 })
      | some db' => (db', { acc.2 with reSynced := acc.2.reSynced + 1 })

def syncGovernanceTallies (input : TallyInput τ) (db : TallyDb τ) : TallyDb τ × TallySyncResult :=
  let active := db.getStaleSyncableActions input.limit
  let ratified := db.getRatifiedActions input.limit
  if active = [] ∧ ratified = [] then (db, ⟨0, 0, 0, 0, 0⟩)
  else
    let tallied := active.foldl (tallyAction input)
      (db.backfillRatifiedEpochs input.lifecycle, ⟨active.length, 0, 0, 0, 0⟩)
    ratified.foldl (recheckRatified input) tallied

end

end DrepTalk
