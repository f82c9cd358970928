import DrepTalk.Governance.TallySync
import DrepTalk.Governance.Committee

/-!
# The columns of a tally

What `syncGovernanceTallies` stores of one action besides its status: the voting summary of Koios,
mapped column by column (`tallyFields`), with the committee figures replaced by those of the ledger
where the timeline gives them (`ledgerCcTally`, from `src/lib/db/committee.ts` and
`src/lib/koios/corrections.ts`).

A summary that Koios does not have is mapped as well, to a tally without any figure. The numbers of
the source are those of a type with its four operations (`JsNumbers`); the snapshot of the
thresholds is a value of any type.
-/

namespace DrepTalk

/-- The numbers of the source: `Number(s)`, integers, sums, and `round2((part / whole) * 100)`. -/
structure JsNumbers (ν : Type*) where
  ofString : String → ν
  ofNat : ℕ → ν
  add : ν → ν → ν
  percent : ℕ → ℕ → ν

/-- `VotingSummary`, by the fields that are read; powers are strings of digits. -/
structure VotingSummary (ν : Type*) where
  proposal_type : Option String
  epoch_no : Option ν
  drep_yes_votes_cast : Option ν
  drep_no_votes_cast : Option ν
  drep_abstain_votes_cast : Option ν
  drep_yes_pct : Option ν
  drep_no_pct : Option ν
  drep_active_yes_vote_power : Option String
  drep_active_no_vote_power : Option String
  drep_active_abstain_vote_power : Option String
  drep_no_vote_power : Option String
  drep_always_abstain_vote_power : Option String
  drep_always_no_confidence_vote_power : Option String
  pool_yes_votes_cast : Option ν
  pool_no_votes_cast : Option ν
  pool_abstain_votes_cast : Option ν
  pool_yes_pct : Option ν
  pool_no_pct : Option ν
  pool_active_yes_vote_power : Option String
  pool_active_no_vote_power : Option String
  pool_active_abstain_vote_power : Option String
  pool_no_vote_power : Option String
  pool_passive_always_abstain_vote_power : Option String
  pool_passive_always_no_confidence_vote_power : Option String
  committee_yes_votes_cast : Option ν
  committee_no_votes_cast : Option ν
  committee_abstain_votes_cast : Option ν
  committee_yes_pct : Option ν
  committee_no_pct : Option ν
  deriving DecidableEq

/-- `GovernanceTally`: the columns, as they are stored. -/
structure GovernanceTally (ν : Type*) where
  drepYes : Option ν
  drepNo : Option ν
  drepAbstain : Option ν
  spoYes : Option ν
  spoNo : Option ν
  spoAbstain : Option ν
  ccYes : Option ν
  ccNo : Option ν
  ccAbstain : Option ν
  drepYesPower : Option ν
  drepNoPower : Option ν
  drepAbstainPower : Option ν
  spoYesPower : Option ν
  spoNoPower : Option ν
  spoAbstainPower : Option ν
  drepNoSidePower : Option String
  spoNoSidePower : Option String
  drepAlwaysAbstainPower : Option String
  drepAlwaysNoConfidencePower : Option String
  spoAlwaysAbstainPower : Option String
  spoAlwaysNoConfidencePower : Option String
  spoEligiblePower : Option ν
  drepYesPct : Option ν
  drepNoPct : Option ν
  spoYesPct : Option ν
  spoNoPct : Option ν
  ccYesPct : Option ν
  ccNoPct : Option ν
  drepVotedPower : Option ν
  tallyEpoch : Option ν
  deriving DecidableEq

section

variable {ν : Type*} (js : JsNumbers ν)

/-! ### A summary -/

/-- A sum in which a missing part counts as zero; none where all are missing. -/
def sumPowers (parts : List (Option String)) : Option ν :=
  if parts.all Option.isNone then none
  else some (parts.foldl (fun sum part => js.add sum (part.elim (js.ofNat 0) js.ofString))
    (js.ofNat 0))

/-- `votedPower`, which adds the first two parts to each other. -/
def votedPower (s : VotingSummary ν) : Option ν :=
  let part (power : Option String) := power.elim (js.ofNat 0) js.ofString
  if s.drep_active_yes_vote_power.isNone && s.drep_active_no_vote_power.isNone &&
      s.drep_active_abstain_vote_power.isNone then none
  else some (js.add (js.add (part s.drep_active_yes_vote_power) (part s.drep_active_no_vote_power))
    (part s.drep_active_abstain_vote_power))

/-- `alwaysAbstainIsNoSide` for the SPO vote. -/
def alwaysAbstainIsNoSide (actionType : String) : Bool := actionType == "HardForkInitiation"

/-- `eligibleStake` for the SPO vote. -/
def spoEligiblePower (s : VotingSummary ν) : Option ν :=
  sumPowers js
    [s.pool_active_yes_vote_power, s.pool_no_vote_power, s.pool_active_abstain_vote_power,
      if alwaysAbstainIsNoSide (s.proposal_type.getD "") then none
      else s.pool_passive_always_abstain_vote_power]

def tallyFields (summary : Option (VotingSummary ν)) : GovernanceTally ν where
  drepYes := summary.bind (·.drep_yes_votes_cast)
  drepNo := summary.bind (·.drep_no_votes_cast)
  drepAbstain := summary.bind (·.drep_abstain_votes_cast)
  spoYes := summary.bind (·.pool_yes_votes_cast)
  spoNo := summary.bind (·.pool_no_votes_cast)
  spoAbstain := summary.bind (·.pool_abstain_votes_cast)
  ccYes := summary.bind (·.committee_yes_votes_cast)
  ccNo := summary.bind (·.committee_no_votes_cast)
  ccAbstain := summary.bind (·.committee_abstain_votes_cast)
  drepYesPower := (summary.bind (·.drep_active_yes_vote_power)).map js.ofString
  drepNoPower := (summary.bind (·.drep_active_no_vote_power)).map js.ofString
  drepAbstainPower := (summary.bind (·.drep_active_abstain_vote_power)).map js.ofString
  spoYesPower := (summary.bind (·.pool_active_yes_vote_power)).map js.ofString
  spoNoPower := (summary.bind (·.pool_active_no_vote_power)).map js.ofString
  spoAbstainPower := (summary.bind (·.pool_active_abstain_vote_power)).map js.ofString
  drepNoSidePower := summary.bind (·.drep_no_vote_power)
  spoNoSidePower := summary.bind (·.pool_no_vote_power)
  drepAlwaysAbstainPower := summary.bind (·.drep_always_abstain_vote_power)
  drepAlwaysNoConfidencePower := summary.bind (·.drep_always_no_confidence_vote_power)
  spoAlwaysAbstainPower := summary.bind (·.pool_passive_always_abstain_vote_power)
  spoAlwaysNoConfidencePower := summary.bind (·.pool_passive_always_no_confidence_vote_power)
  spoEligiblePower := summary.bind (spoEligiblePower js)
  drepYesPct := summary.bind (·.drep_yes_pct)
  drepNoPct := summary.bind (·.drep_no_pct)
  spoYesPct := summary.bind (·.pool_yes_pct)
  spoNoPct := summary.bind (·.pool_no_pct)
  ccYesPct := summary.bind (·.committee_yes_pct)
  ccNoPct := summary.bind (·.committee_no_pct)
  drepVotedPower := summary.bind (votedPower js)
  tallyEpoch := summary.bind (·.epoch_no)

/-! ### Votes of the committee -/

inductive CcChoice
  | yes
  | no
  | abstain
  deriving DecidableEq

structure CcVote where
  hotKeyHex : String
  vote : CcChoice
  blockTime : Option ℤ
  deriving DecidableEq

structure CcVoteDbRow where
  gaId : String
  voterHex : Option String
  vote : String
  blockTime : Option ℤ

/-- The rows of `ccVotesSql`: the current votes of the committee, and the superseded ones with the
hot keys of their voters' current rows. -/
def ccVotesSql (votes : List VoteRow) (history : List HistoryRow) : List CcVoteDbRow :=
  (votes.filter fun v => v.voterRole == "ConstitutionalCommittee").map
      (fun v => ⟨v.gaId, v.voterHex, v.vote, v.blockTime⟩) ++
    (history.filter fun h => h.voterRole == "ConstitutionalCommittee").flatMap fun h =>
      (votes.filter fun v => v.gaId == h.gaId && v.voterId == h.voterId).map
        fun v => ⟨h.gaId, v.voterHex, h.vote, some h.blockTime⟩

/-- `isCcChoice`. -/
def ccChoice (vote : String) : Option CcChoice :=
  if vote == "Yes" then some .yes
  else if vote == "No" then some .no
  else if vote == "Abstain" then some .abstain
  else none

def toCcVote (r : CcVoteDbRow) : Option CcVote :=
  match r.voterHex, ccChoice r.vote with
  | some hot, some choice => if hot == "" then none else some ⟨hot, choice, r.blockTime⟩
  | _, _ => none

structure CommitteeTimeline where
  members : List CommitteeMemberTerm
  hotToCold : String → Option String

/-- The time that decides which of two votes is the later one. -/
def CcVote.time (v : CcVote) : ℤ := v.blockTime.getD 0

/-- The vote counts for that member: it was cast before the cutoff, by a member that is active. -/
def CcVote.countsFor (timeline : CommitteeTimeline) (boundaryEpoch : ℤ) (cutoff : Option ℤ)
    (v : CcVote) : Option String :=
  if cutoff.any fun start => v.blockTime.any fun time => decide (start ≤ time) then none
  else (timeline.hotToCold v.hotKeyHex).filter fun cold =>
    decide (cold ∈ activeCommitteeMembersAtBoundary timeline.members boundaryEpoch)

def finalCcVoteByMember (votes : List CcVote) (timeline : CommitteeTimeline) (boundaryEpoch : ℤ)
    (cutoff : Option ℤ) : String → Option CcVote :=
  votes.foldl (fun finalByMember v =>
    match v.countsFor timeline boundaryEpoch cutoff with
    | none => finalByMember
    | some cold =>
      if (finalByMember cold).all fun prev => decide (prev.time ≤ v.time) then
        Function.update finalByMember cold (some v)
      else finalByMember) fun _ => none

/-- What `ccTallyPct` returns. -/
structure CcTally (ν : Type*) where
  yesPct : Option ν
  noPct : Option ν
  yes : ℕ
  no : ℕ
  abstain : ℕ
  deriving DecidableEq

/-- The committee votes of a boundary, counted. The keys of the map are active members. -/
def ccTallyPct (votes : List CcVote) (timeline : CommitteeTimeline) (boundaryEpoch : ℤ)
    (cutoff : Option ℤ) : CcTally ν :=
  let active := activeCommitteeMembersAtBoundary timeline.members boundaryEpoch
  if active.length = 0 then ⟨none, none, 0, 0, 0⟩
  else
    let values := active.filterMap (finalCcVoteByMember votes timeline boundaryEpoch cutoff)
    let yes := values.countP fun v => v.vote = .yes
    let no := values.countP fun v => v.vote = .no
    let abstain := values.countP fun v => v.vote = .abstain
    let denom := active.length - abstain
    { yesPct := if denom = 0 then none else some (js.percent yes denom)
      noPct := if denom = 0 then none else some (js.percent (denom - yes) denom)
      yes := yes
      no := no
      abstain := abstain }

/-! ### Boundaries -/

/-- The epoch whose opening boundary decided an action. -/
def decisionBoundaryEpoch (a : TallyDecision) : Option ℤ :=
  if !isTerminalStatus a.status then none
  else if a.ratifiedEpoch.isSome then a.ratifiedEpoch
  else if a.status = .enacted then a.decidedEpoch.map (· - 1)
  else if a.status = .expired then a.expiryEpoch <|> a.decidedEpoch
  else a.decidedEpoch

/-- The boundary whose committee judges an action. -/
def committeeBoundaryForAction (a : TallyDecision) (currentEpoch : Option ℤ) : Option ℤ :=
  if isTerminalStatus a.status then decisionBoundaryEpoch a else currentEpoch.map (· + 1)

/-- The figures that replace those of a summary. -/
structure LedgerTally (ν : Type*) where
  yesPct : ν
  noPct : ν
  yes : ℕ
  no : ℕ
  abstain : ℕ

/-- The percentages of a count, where it has them. -/
def CcTally.ledger (t : CcTally ν) : Option (LedgerTally ν) :=
  match t.yesPct, t.noPct with
  | some yesPct, some noPct => some ⟨yesPct, noPct, t.yes, t.no, t.abstain⟩
  | _, _ => none

/-- `ledgerCcTally` over the votes that it reads. -/
def ledgerCcTally (timeline : CommitteeTimeline) (votes : List CcVote) (boundaryEpoch : Option ℤ)
    (cfg : Option EpochAnchor) : Option (LedgerTally ν) :=
  match boundaryEpoch with
  | none => none
  | some boundary =>
    if timeline.members = [] ∨ votes = [] then none
    else (ccTallyPct js votes timeline boundary (cfg.map fun c => c.epochStartUnix boundary)).ledger

/-- The committee figures of the ledger in the place of Koios'. -/
def GovernanceTally.withLedger (tally : GovernanceTally ν) (ledgerCc : Option (LedgerTally ν)) :
    GovernanceTally ν :=
  match ledgerCc with
  | none => tally
  | some ledgerCc =>
    { tally with
      ccYes := some (js.ofNat ledgerCc.yes)
      ccNo := some (js.ofNat ledgerCc.no)
      ccAbstain := some (js.ofNat ledgerCc.abstain)
      ccYesPct := some ledgerCc.yesPct
      ccNoPct := some ledgerCc.noPct }

/-! ### What a run reads -/

/-- The tally columns, and those of the thresholds. -/
structure TallyColumns (ν ρ : Type*) where
  tally : GovernanceTally ν
  thresholds : ρ
  deriving DecidableEq

/-- What the requests of a run come to, none where one throws: the summary of a proposal, the
committee votes on an action, and the thresholds with the gate they are frozen with. -/
structure TallyReads (ν ρ : Type*) where
  summary : String → Option (Option (VotingSummary ν))
  votes : String → Option (List CcVoteDbRow)
  thresholds : TallyAction (TallyColumns ν ρ) → TallyDecision → GovernanceTally ν → Option ρ

/-- `ga.proposalId ? await koios.proposalVotingSummary(ga.proposalId) : null`. -/
def TallyReads.summaryOf {ρ : Type*} (reads : TallyReads ν ρ)
    (ga : TallyAction (TallyColumns ν ρ)) : Option (Option (VotingSummary ν)) :=
  match ga.proposalId with
  | none => some none
  | some proposalId => reads.summary proposalId

/-- The columns of one action: nothing is stored where a request throws. The committee votes are
read where there is a timeline and a boundary. -/
def TallyReads.columns {ρ : Type*} (reads : TallyReads ν ρ) (timeline : CommitteeTimeline)
    (cfg : Option EpochAnchor) (currentEpoch : Option ℤ) (ga : TallyAction (TallyColumns ν ρ))
    (decision : TallyDecision) : Option (TallyColumns ν ρ) :=
  match reads.summaryOf ga with
  | none => none
  | some summary =>
    let boundary := committeeBoundaryForAction decision currentEpoch
    let rows :=
      if timeline.members = [] ∨ boundary.isNone then some [] else reads.votes ga.id
    match rows with
    | none => none
    | some rows =>
      let tally := (tallyFields js summary).withLedger js
        (ledgerCcTally js timeline (rows.filterMap toCcVote) boundary cfg)
      match reads.thresholds ga decision tally with
      | none => none
      | some thresholds => some ⟨tally, thresholds⟩

/-- What a run is given besides its reads. -/
structure TallyRunArgs where
  currentEpoch : Option ℤ
  now : ℤ
  dbNow : ℤ
  network : Option EpochAnchor
  limit : ℕ
  proposals : List ProposalLifecycle
  draw : String → String

/-- A run of `syncGovernanceTallies` with its reads. -/
def TallyRunArgs.input {ρ : Type*} (args : TallyRunArgs) (timeline : CommitteeTimeline)
    (reads : TallyReads ν ρ) : TallyInput (TallyColumns ν ρ) where
  currentEpoch := args.currentEpoch
  now := args.now
  dbNow := args.dbNow
  network := args.network
  limit := args.limit
  proposals := args.proposals
  tallyOf := reads.columns js timeline args.network args.currentEpoch
  draw := args.draw

end

end DrepTalk
