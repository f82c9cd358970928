import DrepTalk.Votes.VoteJobs
import DrepTalk.Library.Interleaving

/-!
# One job for each vote

Any number of calls of `upsertVotes`, statement by statement and batch by batch, between votes that
are cast through the site and the reaping of stale ones. For one action and one DRep that is
followed, the run records which of its on-chain votes have been stored, newest write first, which
of them need a job (the first, and those with another choice than the one stored before), and which
keys have come in with a vote that had been stored already.

**What the jobs owe** (`VoteJobsRight`). A vote has at most one job, and one notice for an account;
a vote that had been stored makes neither; and one that needs a job has it.

**What goes wrong.** A row cast through the site hides the vote that the chain shows. A snapshot
that is not yet past that vote makes it voted once more, beside the job it has
(`not_voteJobsRight`); and calls that overlap may go by rows that are gone. In every run in which no
vote but a new one is stored over a row of the site, and each call has read what still calls for the
same, the jobs are right (`voteJobsRight`).
-/

namespace DrepTalk

/-! ### Keys -/

section Keys

variable {start start' voterId voterId' gaId gaId' : String} {t t' : ℤ}

theorem toList_voteEventKey (start voterId gaId : String) (t : ℤ) :
    (voteEventKey start voterId gaId t).toList =
      ((start.toList ++ ':' :: voterId.toList) ++ ':' :: gaId.toList) ++
        ':' :: (toString t).toList := by
  unfold voteEventKey
  simp only [String.toList_append, toString_text, toList_colon, List.append_assoc,
    List.cons_append, List.nil_append]

theorem voteEventKey_inj (hstart : ':' ∉ start.toList) (hstart' : ':' ∉ start'.toList)
    (hga : ':' ∉ gaId.toList) (hga' : ':' ∉ gaId'.toList)
    (h : voteEventKey start voterId gaId t = voteEventKey start' voterId' gaId' t') :
    voterId = voterId' ∧ gaId = gaId' ∧ t = t' := by
  have hlist := congrArg String.toList h
  rw [toList_voteEventKey, toList_voteEventKey] at hlist
  obtain ⟨hrest, htime⟩ := eq_of_lastOccurrence hlist (colon_notMem_int t) (colon_notMem_int t')
  obtain ⟨hrest, haction⟩ := eq_of_lastOccurrence hrest hga hga'
  obtain ⟨-, hvoter⟩ := eq_of_firstOccurrence hrest hstart hstart'
  exact ⟨String.toList_inj.mp hvoter, String.toList_inj.mp haction, toString_int_inj htime⟩

theorem colon_notMem_keyStart (kind : VoteJobKind) : ':' ∉ kind.keyStart.toList := by
  cases kind <;> decide

end Keys

/-! ### The world -/

/-- The job is for the DRep on the action. -/
def VoteJob.IsOf (drepId gaId : String) (job : VoteJob) : Prop :=
  job.subjectId = drepId ∧ job.payload.gaId = gaId

instance decidableJobIsOf (drepId gaId : String) (job : VoteJob) :
    Decidable (job.IsOf drepId gaId) := inferInstanceAs (Decidable (_ ∧ _))

/-- The notice is about the DRep on the action. -/
def RationaleNotice.IsOf (drepId gaId : String) (notice : RationaleNotice) : Prop :=
  notice.payload.drepId = drepId ∧ notice.payload.gaId = gaId

instance decidableNoticeIsOf (drepId gaId : String) (notice : RationaleNotice) :
    Decidable (notice.IsOf drepId gaId) := inferInstanceAs (Decidable (_ ∧ _))

/-- The stored row of the DRep on the action. -/
def storedVote (db : VoteDb) (drepId gaId : String) : Option VoteRow :=
  db.votes.rows.find? fun row => row.gaId == gaId && row.voterId == drepId

/-- The tables, and the record: the votes that have been stored, those that need a job, and the keys
that have come in with a vote that had been stored. -/
structure VoteJobWorld where
  db : VoteJobDb
  shown : List (ℤ × String)
  owed : List ℤ
  again : List String

/-- The keys of the jobs and notices about the DRep that come in with a step. -/
def newKeys (drepId gaId : String) (db db' : VoteJobDb) : List String :=
  (db'.jobs.rows.filter fun j => j ∉ db.jobs.rows ∧ j.IsOf drepId gaId).map (·.eventKey) ++
    (db'.notices.rows.filter fun n => n ∉ db.notices.rows ∧ n.IsOf drepId gaId).map (·.eventKey)

/-- What the next batch stores for the DRep: its vote, and the row that the call has read. -/
def VoteJobProc.stores (drepId gaId : String) : VoteJobProc → Option (VoteInput × Option VoteRow)
  | .batch args existing _ _ _ (chunk :: _) =>
    if args.gaId = gaId then
      (chunk.find? fun v => v.voterId == drepId).map fun v => (v, existingOf existing drepId)
    else none
  | _ => none

/-- The world after a step that may store a vote. -/
def VoteJobWorld.after (drepId gaId : String) (w : VoteJobWorld) (db' : VoteJobDb) :
    Option VoteInput → VoteJobWorld
  | none => { w with db := db' }
  | some v =>
    let blockTime := v.blockTime.getD 0
    { db := db'
      shown := (blockTime, v.vote) :: w.shown
      owed := if w.shown.head?.map (·.2) = some v.vote then w.owed else blockTime :: w.owed
      again := if blockTime ∈ w.shown.map (·.1) then w.again ++ newKeys drepId gaId w.db db'
        else w.again }

/-- The next statement of a call, with the record. -/
def voteJobCall (drepId gaId : String) (w : VoteJobWorld) (l : VoteJobProc) :
    Option (VoteJobWorld × VoteJobProc) :=
  (voteJobStep w.db l).map fun out =>
    (w.after drepId gaId out.1 ((l.stores drepId gaId).map (·.1)), out.2)

/-- A snapshot of the chain: at most one vote of each voter; the one of the DRep, which is followed,
has a block time, and that tells its choice. -/
structure UpsertVotesArgs.Snapshot (choice : ℤ → String) (drepId gaId : String)
    (args : UpsertVotesArgs) : Prop where
  nodup : (args.votes.map (·.voterId)).Nodup
  followed : drepId ∈ args.followed
  colon : ':' ∉ args.gaId.toList
  own : ∀ v ∈ args.votes, args.gaId = gaId → v.voterId = drepId →
    v.voterRole = "DRep" ∧ ∃ blockTime, v.blockTime = some blockTime ∧ v.vote = choice blockTime

/-- What comes in: a snapshot, with no vote of the DRep before one that has been stored. -/
inductive VoteJobStart (choice : ℤ → String) (drepId gaId : String) (w : VoteJobWorld) :
    VoteJobProc → Prop
  | upsertVotes (args : UpsertVotesArgs) (h : args.Snapshot choice drepId gaId)
    (hnondecreasing : ∀ v ∈ args.votes, args.gaId = gaId → v.voterId = drepId →
      ∀ p ∈ w.shown, p.1 ≤ v.blockTime.getD 0) :
    VoteJobStart choice drepId gaId w (.load args)

/-- What happens beside the calls: a vote is cast through the site, stale ones are flagged, and
everything that calls read beside votes may change. -/
inductive VoteJobEnv (w : VoteJobWorld) : VoteJobWorld → Prop
  | recordLocalVote (r : LocalVote) : VoteJobEnv w
    { w with db := { w.db with voteDb := DrepTalk.recordLocalVote w.db.voteDb r } }
  | flagStaleVotes (cutoffSeconds : ℤ) : VoteJobEnv w
    { w with db := { w.db with voteDb := DrepTalk.flagStaleVotes w.db.voteDb cutoffSeconds } }
  | rest (rationales : RationaleTable) (actions : List GovernanceActionRow)
    (users : List OwnerRow) (titles : String → Option String) (dbNow : ℤ) : VoteJobEnv w
    { w with db := { w.db with
        voteDb := { w.db.voteDb with rationales, actions }, users, titles, dbNow } }

def voteJobProgram (choice : ℤ → String) (drepId gaId : String) :
    Program VoteJobWorld VoteJobProc where
  Start := VoteJobStart choice drepId gaId
  Step w l w' l' := voteJobCall drepId gaId w l = some (w', l')
  Env := VoteJobEnv

def VoteJob.Keyed (job : VoteJob) : Prop :=
  ':' ∉ job.payload.gaId.toList ∧ ∃ kind : VoteJobKind,
    job.eventKey = voteEventKey kind.keyStart job.subjectId job.payload.gaId job.sourceTime

def RationaleNotice.Keyed (notice : RationaleNotice) : Prop :=
  notice.eventKey = voteEventKey RATIONALE_READY notice.payload.drepId notice.payload.gaId
    notice.payload.sourceTime

/-- Before the DRep has voted on the action. -/
structure VoteJobWorld.Initial (drepId gaId : String) (w : VoteJobWorld) : Prop where
  stored : storedVote w.db.voteDb drepId gaId = none
  jobs : ∀ job ∈ w.db.jobs.rows, job.Keyed ∧ ¬job.IsOf drepId gaId
  notices : ∀ notice ∈ w.db.notices.rows, notice.Keyed ∧ ¬notice.IsOf drepId gaId
  shown : w.shown = []
  owed : w.owed = []
  again : w.again = []

structure VoteJobsRight (drepId gaId : String) (w : VoteJobWorld) : Prop where
  job : ∀ j ∈ w.db.jobs.rows, ∀ j' ∈ w.db.jobs.rows, j.IsOf drepId gaId → j'.IsOf drepId gaId →
    j.sourceTime = j'.sourceTime → j = j'
  notice : ∀ n ∈ w.db.notices.rows, ∀ n' ∈ w.db.notices.rows, n.IsOf drepId gaId →
    n'.IsOf drepId gaId → n.recipientId = n'.recipientId →
      n.payload.sourceTime = n'.payload.sourceTime → n = n'
  again : w.again = []
  owed : ∀ blockTime ∈ w.owed, ∃ j ∈ w.db.jobs.rows, j.IsOf drepId gaId ∧ j.sourceTime = blockTime

/-! ### The condition -/

/-- What a batch stores is not before a stored vote, and past all of them over a row of the site;
and the row calls for the job and the notice that the one read calls for. -/
structure StoresInTurn (drepId gaId : String) (w : VoteJobWorld) (v : VoteInput)
    (old : Option VoteRow) : Prop where
  notBefore : ∀ p ∈ w.shown, p.1 ≤ v.blockTime.getD 0
  past : ∀ row ∈ storedVote w.db.voteDb drepId gaId, row.localStatus.isSome →
    ∀ p ∈ w.shown, p.1 < v.blockTime.getD 0
  job : jobKind v old = jobKind v (storedVote w.db.voteDb drepId gaId)
  notice : confirmsSelfCastRationale v old =
    confirmsSelfCastRationale v (storedVote w.db.voteDb drepId gaId)

instance decidableStoresInTurn (drepId gaId : String) (w : VoteJobWorld) (v : VoteInput)
    (old : Option VoteRow) : Decidable (StoresInTurn drepId gaId w v old) :=
  decidable_of_iff
    ((∀ p ∈ w.shown, p.1 ≤ v.blockTime.getD 0) ∧
      (∀ row ∈ storedVote w.db.voteDb drepId gaId, row.localStatus.isSome →
        ∀ p ∈ w.shown, p.1 < v.blockTime.getD 0) ∧
      jobKind v old = jobKind v (storedVote w.db.voteDb drepId gaId) ∧
      confirmsSelfCastRationale v old =
        confirmsSelfCastRationale v (storedVote w.db.voteDb drepId gaId))
    ⟨fun ⟨notBefore, past, job, notice⟩ => ⟨notBefore, past, job, notice⟩,
      fun ⟨notBefore, past, job, notice⟩ => ⟨notBefore, past, job, notice⟩⟩

def votesInTurn (drepId gaId : String) : Program.Condition VoteJobWorld VoteJobProc where
  state _ := True
  mover w l := ∀ out ∈ l.stores drepId gaId, StoresInTurn drepId gaId w out.1 out.2
  others _ _ _ := True

instance decidableVotesInTurn (drepId gaId : String) (w : VoteJobWorld) (l : VoteJobProc) :
    Decidable ((votesInTurn drepId gaId).mover w l) :=
  inferInstanceAs (Decidable (∀ out ∈ l.stores drepId gaId, StoresInTurn drepId gaId w out.1 out.2))

/-! ### What a batch does -/

section Batch

variable {drepId gaId : String} {votes : VoteTable} {chunk : List VoteInput} {v : VoteInput}

theorem storedVote_key (drepId gaId : String) (row : VoteRow) :
    (row.gaId == gaId && row.voterId == drepId) = true ↔
      (row.gaId, row.voterId) = (gaId, drepId) := by
  rw [Bool.and_eq_true, beq_iff_eq, beq_iff_eq, Prod.mk.injEq]

theorem elim_onChainRow (ga : String) (now : ℤ) (v : VoteInput) (stored : Option VoteRow) :
    (stored.elim (onChainRow ga now v none) fun row => onChainRow ga now v (some row)) =
      onChainRow ga now v stored := by
  rcases stored with _ | row <;> rfl

theorem find?_upsertVote (ga : String) (now : ℤ) (votes : VoteTable) (v : VoteInput) :
    ((upsertVote ga now votes v).rows.find? fun row => row.gaId == gaId && row.voterId == drepId) =
      if (gaId, drepId) = (ga, v.voterId) then
        some (onChainRow ga now v
          (votes.rows.find? fun row => row.gaId == gaId && row.voterId == drepId))
      else votes.rows.find? fun row => row.gaId == gaId && row.voterId == drepId := by
  rw [upsertVote, KeyedTable.find?_upsert votes (onChainRow_key ga now v)
    (storedVote_key drepId gaId)]
  exact if_congr Iff.rfl (congrArg some (elim_onChainRow ga now v _)) rfl

variable {now : ℤ}

theorem find?_upsertVotes_other {ga : String} (h : ga = gaId → ∀ v ∈ chunk, v.voterId ≠ drepId) :
    ((chunk.foldl (upsertVote ga now) votes).rows.find? fun row =>
        row.gaId == gaId && row.voterId == drepId) =
      votes.rows.find? fun row => row.gaId == gaId && row.voterId == drepId := by
  induction chunk generalizing votes with
  | nil => rfl
  | cons v chunk ih =>
    refine (ih fun hga v' hv' => h hga v' (List.mem_cons_of_mem v hv')).trans ?_
    rw [find?_upsertVote, if_neg]
    intro hkey
    cases hkey
    exact h rfl v List.mem_cons_self rfl

theorem find?_upsertVotes_own (hnodup : (chunk.map (·.voterId)).Nodup)
    (hfind : (chunk.find? fun v => v.voterId == drepId) = some v) :
    ((chunk.foldl (upsertVote gaId now) votes).rows.find? fun row =>
        row.gaId == gaId && row.voterId == drepId) =
      some (onChainRow gaId now v
        (votes.rows.find? fun row => row.gaId == gaId && row.voterId == drepId)) := by
  induction chunk generalizing votes with
  | nil => cases hfind
  | cons x chunk ih =>
    obtain ⟨hfresh, hrest⟩ := List.nodup_cons.mp hnodup
    by_cases hx : x.voterId = drepId
    · rw [List.find?_cons, beq_iff_eq.mpr hx] at hfind
      cases hfind
      rw [List.foldl_cons, find?_upsertVotes_other fun _ v' hv' hother =>
        hfresh (List.mem_map.mpr ⟨v', hv', hother.trans hx.symm⟩)]
      rw [find?_upsertVote, if_pos (by rw [hx])]
    · rw [List.find?_cons, beq_eq_false_iff_ne.mpr hx] at hfind
      rw [List.foldl_cons, ih hrest hfind, find?_upsertVote, if_neg]
      exact fun hkey => hx (Prod.mk.inj hkey).2.symm

variable {job : VoteJob} {notice : RationaleNotice}

theorem mem_classifyVoteJobs {ga : String} {existing : List VoteRow} {followed : List String}
    {title : Option String} :
    job ∈ classifyVoteJobs ga chunk existing followed now title ↔
      ∃ v ∈ chunk, (v.voterRole = "DRep" ∧ v.voterId ∈ followed) ∧
        ∃ kind, jobKind v (existingOf existing v.voterId) = some kind ∧
          voteJob ga now title v kind = job := by
  rw [classifyVoteJobs, List.mem_filterMap]
  refine exists_congr fun v => and_congr_right fun _ => ?_
  split_ifs with hnot
  · refine iff_of_false (by simp) ?_
    rintro ⟨⟨hrole, hfollowed⟩, -⟩
    exact hnot.elim (fun h => h hrole) fun h => h hfollowed
  · rw [not_or, not_not, not_not] at hnot
    rw [Option.map_eq_some_iff]
    exact (and_iff_right hnot).symm

variable {db : VoteJobDb} {args : UpsertVotesArgs} {existing : List VoteRow}
  {bodies : List (String × Option String)} {recipients : List (String × String)}
  {title : Option String}

theorem mem_jobs_commitChunk
    (h : job ∈ (commitChunk db args existing bodies recipients title chunk).jobs.rows) :
    job ∈ db.jobs.rows ∨ job ∈ classifyVoteJobs args.gaId chunk existing args.followed args.now
      title := by
  refine (KeyedTable.mem_insertAll.2.1 job h).imp_right fun hnew => ?_
  split_ifs at hnew
  · cases hnew
  · exact hnew

theorem jobs_commitChunk_of_mem (h : job ∈ db.jobs.rows) :
    job ∈ (commitChunk db args existing bodies recipients title chunk).jobs.rows :=
  KeyedTable.mem_insertAll.1 job h

variable (db bodies recipients) in
theorem key_jobs_commitChunk
    (h : job ∈ classifyVoteJobs args.gaId chunk existing args.followed args.now title) :
    ∃ j ∈ (commitChunk db args existing bodies recipients title chunk).jobs.rows,
      j.eventKey = job.eventKey := by
  refine KeyedTable.mem_insertAll.2.2 job ?_
  obtain ⟨v, -, ⟨-, hfollowed⟩, -⟩ := mem_classifyVoteJobs.mp h
  rw [if_neg (List.ne_nil_of_mem hfollowed)]
  exact h

theorem mem_notices_commitChunk
    (h : notice ∈ (commitChunk db args existing bodies recipients title chunk).notices.rows) :
    notice ∈ db.notices.rows ∨ ∃ v ∈ chunk,
      confirmsSelfCastRationale v (existingOf existing v.voterId) = true ∧
        ∃ userId, rationaleNotice args.gaId args.now db.dbNow title v userId = notice := by
  refine (KeyedTable.mem_insertAll.2.1 notice h).imp_right fun hnew => ?_
  obtain ⟨v, hv, hnotice⟩ := List.mem_flatMap.mp hnew
  split_ifs at hnotice with hconfirms
  · obtain ⟨r, -, rfl⟩ := List.mem_map.mp hnotice
    exact ⟨v, hv, hconfirms, r.2, rfl⟩
  · cases hnotice

end Batch

/-! ### The invariant -/

/-- What holds of the tables and the record. -/
structure VoteJobInv (choice : ℤ → String) (drepId gaId : String) (w : VoteJobWorld) : Prop where
  unvoted : storedVote w.db.voteDb drepId gaId = none → w.shown = []
  /-- A row of the chain is the vote that was stored last. -/
  chain : ∀ row, storedVote w.db.voteDb drepId gaId = some row → row.localStatus = none →
    ∃ blockTime, row.blockTime = some blockTime ∧ w.shown.head? = some (blockTime, row.vote)
  newest : ∀ q, w.shown.head? = some q → ∀ p ∈ w.shown, p.1 ≤ q.1
  choices : ∀ p ∈ w.shown, p.2 = choice p.1
  jobKeyed : ∀ job ∈ w.db.jobs.rows, job.Keyed
  jobShown : ∀ job ∈ w.db.jobs.rows, job.IsOf drepId gaId → job.sourceTime ∈ w.shown.map (·.1)
  noticeKeyed : ∀ notice ∈ w.db.notices.rows, notice.Keyed
  right : VoteJobsRight drepId gaId w

section Invariant

variable {choice : ℤ → String} {drepId gaId : String} {w : VoteJobWorld} {v : VoteInput}

/-- What a vote that is stored in turn calls for. -/
inductive VoteInTurn (drepId gaId : String) (w : VoteJobWorld) (v : VoteInput)
    (blockTime : ℤ) : Prop
  /-- It is new; and where it is the first, or another choice than the one before, it has a job. -/
  | new (hnew : ∀ p ∈ w.shown, p.1 < blockTime)
    (hjob : w.shown.head?.map (·.2) ≠ some v.vote →
      ∃ kind, jobKind v (storedVote w.db.voteDb drepId gaId) = some kind)
  /-- It is the one that was stored last, and makes nothing. -/
  | again (hlast : w.shown.head? = some (blockTime, v.vote))
    (hjob : jobKind v (storedVote w.db.voteDb drepId gaId) = none)
    (hnotice : confirmsSelfCastRationale v (storedVote w.db.voteDb drepId gaId) = false)

theorem VoteJobInv.inTurn (h : VoteJobInv choice drepId gaId w) {old : Option VoteRow}
    (hturn : StoresInTurn drepId gaId w v old) {blockTime : ℤ}
    (htime : v.blockTime = some blockTime) (hvote : v.vote = choice blockTime) :
    VoteInTurn drepId gaId w v blockTime := by
  have hle : ∀ p ∈ w.shown, p.1 ≤ blockTime := by simpa [htime] using hturn.notBefore
  rcases hstored : storedVote w.db.voteDb drepId gaId with _ | row
  · have hnone := h.unvoted hstored
    refine .new (fun p hp => ?_) fun _ => ⟨.voted, by rw [hstored]; rfl⟩
    rw [hnone] at hp
    cases hp
  · rcases hstatus : row.localStatus with _ | status
    · obtain ⟨stored, hrow, hlast⟩ := h.chain row hstored hstatus
      rcases (hle _ (List.mem_of_mem_head? hlast)).eq_or_lt with heq | hlt
      · -- the vote of the row
        obtain rfl : stored = blockTime := heq
        have hsame : row.vote = v.vote :=
          (h.choices _ (List.mem_of_mem_head? hlast)).trans hvote.symm
        refine .again (hsame ▸ hlast) ?_ ?_
        · simp [jobKind, hstored, hstatus, htime, hrow]
        · simp [confirmsSelfCastRationale, hstored, hstatus]
      · refine .new (fun p hp => (h.newest _ hlast p hp).trans_lt hlt) fun hother => ?_
        have hdiffer : row.vote ≠ v.vote := fun heq => hother (by rw [hlast, Option.map_some, heq])
        exact ⟨.re_voted, by simp [jobKind, hstored, hstatus, htime, hrow, hdiffer, hlt]⟩
    · refine .new (fun p hp => ?_) fun _ => ⟨.voted, by simp [jobKind, hstored, hstatus]⟩
      simpa [htime] using hturn.past row hstored (by rw [hstatus]; rfl) p hp

theorem eq_of_noticeKeyed {t : RationaleNoticeTable} (hkeyed : ∀ n ∈ t.rows, n.Keyed) :
    ∀ n ∈ t.rows, ∀ n' ∈ t.rows, n.IsOf drepId gaId → n'.IsOf drepId gaId →
      n.recipientId = n'.recipientId → n.payload.sourceTime = n'.payload.sourceTime → n = n' := by
  rintro n hn n' hn' ⟨hdrep, hga⟩ ⟨hdrep', hga'⟩ hrecipient htime
  refine t.eq_of_key hn hn' (Prod.ext hrecipient ?_)
  rw [hkeyed n hn, hkeyed n' hn', hdrep, hdrep', hga, hga', htime]

variable {args : UpsertVotesArgs} {existing : List VoteRow}
  {bodies : List (String × Option String)} {recipients : List (String × String)}
  {title : Option String} {chunk : List VoteInput}

variable (existing bodies recipients title chunk) in
theorem VoteJobInv.keyed_commitChunk (h : VoteJobInv choice drepId gaId w)
    (hcolon : ':' ∉ args.gaId.toList) :
    (∀ job ∈ (commitChunk w.db args existing bodies recipients title chunk).jobs.rows, job.Keyed) ∧
      ∀ n ∈ (commitChunk w.db args existing bodies recipients title chunk).notices.rows,
        n.Keyed := by
  constructor
  · intro job hjob
    rcases mem_jobs_commitChunk hjob with hold | hnew
    · exact h.jobKeyed job hold
    · obtain ⟨v, -, -, kind, -, rfl⟩ := mem_classifyVoteJobs.mp hnew
      exact (⟨hcolon, _, rfl⟩)
  · intro n hn
    rcases mem_notices_commitChunk hn with hold | ⟨v, -, -, userId, rfl⟩
    · exact h.noticeKeyed n hold
    · rfl

theorem VoteJobInv.other (h : VoteJobInv choice drepId gaId w) (hcolon : ':' ∉ args.gaId.toList)
    (hother : args.gaId = gaId → ∀ v ∈ chunk, v.voterId ≠ drepId) :
    VoteJobInv choice drepId gaId
      { w with db := commitChunk w.db args existing bodies recipients title chunk } := by
  have hstored : storedVote (commitChunk w.db args existing bodies recipients title chunk).voteDb
      drepId gaId = storedVote w.db.voteDb drepId gaId := find?_upsertVotes_other hother
  have hjobs : ∀ job ∈ (commitChunk w.db args existing bodies recipients title chunk).jobs.rows,
      job.IsOf drepId gaId → job ∈ w.db.jobs.rows := by
    rintro job hjob ⟨hsubject, hga⟩
    rcases mem_jobs_commitChunk hjob with hold | hnew
    · exact hold
    · obtain ⟨v, hv, -, kind, -, rfl⟩ := mem_classifyVoteJobs.mp hnew
      exact absurd hsubject (hother hga v hv)
  obtain ⟨hjobKeyed, hnoticeKeyed⟩ := h.keyed_commitChunk existing bodies recipients
    title chunk hcolon
  refine ⟨fun hnone => h.unvoted (hstored ▸ hnone), fun row hrow => h.chain row (hstored ▸ hrow),
    h.newest, h.choices, hjobKeyed, fun job hjob hof => h.jobShown job (hjobs job hjob hof) hof,
    hnoticeKeyed,
    ⟨fun j hj j' hj' hof hof' => h.right.job j (hjobs j hj hof) j' (hjobs j' hj' hof') hof hof',
      eq_of_noticeKeyed hnoticeKeyed, h.right.again, fun blockTime howed => ?_⟩⟩
  obtain ⟨j, hj, hof⟩ := h.right.owed blockTime howed
  exact ⟨j, jobs_commitChunk_of_mem hj, hof⟩

theorem eq_of_find_voter (hnodup : (chunk.map (·.voterId)).Nodup)
    (hfind : (chunk.find? fun v => v.voterId == drepId) = some v) {v' : VoteInput}
    (hv' : v' ∈ chunk) (hvoter : v'.voterId = drepId) : v' = v := by
  have hv : (v.voterId == drepId) = true :=
    List.find?_some (p := fun v : VoteInput => v.voterId == drepId) hfind
  exact List.inj_on_of_nodup_map hnodup hv' (List.mem_of_find?_eq_some hfind)
    (hvoter.trans (beq_iff_eq.mp hv).symm)

theorem mem_jobs_own (hnodup : (chunk.map (·.voterId)).Nodup)
    (hfind : (chunk.find? fun v => v.voterId == drepId) = some v)
    (hjob : job ∈ (commitChunk w.db args existing bodies recipients title chunk).jobs.rows)
    (hof : job.IsOf drepId gaId) :
    job ∈ w.db.jobs.rows ∨ ∃ kind, jobKind v (existingOf existing drepId) = some kind ∧
      voteJob args.gaId args.now title v kind = job := by
  refine (mem_jobs_commitChunk hjob).imp_right fun hnew => ?_
  obtain ⟨v', hv', -, kind, hkind, rfl⟩ := mem_classifyVoteJobs.mp hnew
  have hvoter : v'.voterId = drepId := hof.1
  obtain rfl := eq_of_find_voter hnodup hfind hv' hvoter
  exact ⟨kind, hvoter ▸ hkind, rfl⟩

theorem mem_notices_own (hnodup : (chunk.map (·.voterId)).Nodup)
    (hfind : (chunk.find? fun v => v.voterId == drepId) = some v)
    (hnotice : notice ∈ (commitChunk w.db args existing bodies recipients title chunk).notices.rows)
    (hof : notice.IsOf drepId gaId) :
    notice ∈ w.db.notices.rows ∨
      confirmsSelfCastRationale v (existingOf existing drepId) = true := by
  refine (mem_notices_commitChunk hnotice).imp_right ?_
  rintro ⟨v', hv', hconfirms, userId, rfl⟩
  have hvoter : v'.voterId = drepId := hof.1
  obtain rfl := eq_of_find_voter hnodup hfind hv' hvoter
  exact hvoter ▸ hconfirms

/-- **A batch with the vote of the DRep**, in turn. -/
theorem VoteJobInv.own (h : VoteJobInv choice drepId gaId w) (hga : args.gaId = gaId)
    (hcolon : ':' ∉ args.gaId.toList) (hfollowed : drepId ∈ args.followed)
    (hnodup : (chunk.map (·.voterId)).Nodup)
    (hfind : (chunk.find? fun v => v.voterId == drepId) = some v) (hrole : v.voterRole = "DRep")
    {blockTime : ℤ} (htime : v.blockTime = some blockTime) (hvote : v.vote = choice blockTime)
    (hturn : StoresInTurn drepId gaId w v (existingOf existing drepId)) :
    VoteJobInv choice drepId gaId (w.after drepId gaId
      (commitChunk w.db args existing bodies recipients title chunk) (some v)) := by
  subst hga
  have hvoter : v.voterId = drepId := beq_iff_eq.mp
    (List.find?_some (p := fun v : VoteInput => v.voterId == drepId) hfind)
  have hstored : storedVote (commitChunk w.db args existing bodies recipients title chunk).voteDb
      drepId args.gaId = some (onChainRow args.gaId args.now v
        (storedVote w.db.voteDb drepId args.gaId)) := find?_upsertVotes_own hnodup hfind
  obtain ⟨hjobKeyed, hnoticeKeyed⟩ := h.keyed_commitChunk existing bodies recipients
    title chunk hcolon
  have hjobs : ∀ job ∈ (commitChunk w.db args existing bodies recipients title chunk).jobs.rows,
      job.IsOf drepId args.gaId → job ∈ w.db.jobs.rows ∨
        ∃ kind, jobKind v (storedVote w.db.voteDb drepId args.gaId) = some kind ∧
          voteJob args.gaId args.now title v kind = job := by
    intro job hjob hof
    rw [← hturn.job]
    exact mem_jobs_own hnodup hfind hjob hof
  have hsource : ∀ kind, (voteJob args.gaId args.now title v kind).sourceTime = blockTime := by
    intro kind
    simp [voteJob, htime]
  have hcase := h.inTurn hturn htime hvote
  simp only [VoteJobWorld.after, htime, Option.getD_some]
  refine ⟨fun hnone => ?_, fun row hrow _ => ?_, ?_, ?_, hjobKeyed, fun job hjob hof => ?_,
    hnoticeKeyed, ⟨?_, eq_of_noticeKeyed hnoticeKeyed, ?_, fun time howed => ?_⟩⟩
  · cases hstored.symm.trans hnone
  · cases hstored.symm.trans hrow
    exact ⟨blockTime, htime, rfl⟩
  · rintro q hq p hp
    cases hq
    rcases List.mem_cons.mp hp with rfl | hold
    · exact le_rfl
    · simpa [htime] using hturn.notBefore p hold
  · intro p hp
    rcases List.mem_cons.mp hp with rfl | hold
    · exact hvote
    · exact h.choices p hold
  · rcases hjobs job hjob hof with hold | ⟨kind, -, rfl⟩
    · exact List.mem_cons_of_mem _ (h.jobShown job hold hof)
    · rw [hsource]
      exact List.mem_cons_self
  · -- a new job is of a vote that has none
    have hnew : ∀ j ∈ w.db.jobs.rows, j.IsOf drepId args.gaId → ∀ kind,
        jobKind v (storedVote w.db.voteDb drepId args.gaId) = some kind →
          j.sourceTime ≠ blockTime := by
      intro j hj hof kind hkind heq
      rcases hcase with ⟨hpast, -⟩ | ⟨-, hnone, -⟩
      · obtain ⟨p, hp, htimes⟩ := List.mem_map.mp (h.jobShown j hj hof)
        exact (hpast p hp).ne (htimes.trans heq)
      · cases hkind.symm.trans hnone
    intro j hj j' hj' hof hof' heq
    rcases hjobs j hj hof with hold | ⟨kind, hkind, rfl⟩ <;>
      rcases hjobs j' hj' hof' with hold' | ⟨kind', hkind', rfl⟩
    · exact h.right.job j hold j' hold' hof hof' heq
    · exact absurd (heq.trans (hsource kind')) (hnew j hold hof kind' hkind')
    · exact absurd (heq.symm.trans (hsource kind)) (hnew j' hold' hof' kind hkind)
    · rw [Option.some.inj (hkind.symm.trans hkind')]
  · rcases hcase with ⟨hpast, -⟩ | ⟨-, hnojob, hnonotice⟩
    · refine (if_neg fun hmem => ?_).trans h.right.again
      obtain ⟨p, hp, hsame⟩ := List.mem_map.mp hmem
      exact (hpast p hp).ne hsame
    · -- the vote that was stored last makes nothing
      have hnone : newKeys drepId args.gaId w.db
          (commitChunk w.db args existing bodies recipients title chunk) = [] := by
        refine List.append_eq_nil_iff.mpr ⟨?_, ?_⟩ <;>
          refine List.map_eq_nil_iff.mpr (List.filter_eq_nil_iff.mpr fun x hx hin => ?_) <;>
          obtain ⟨hfresh, hof⟩ := of_decide_eq_true hin
        · rcases hjobs x hx hof with hold | ⟨kind, hkind, -⟩
          · exact hfresh hold
          · cases hkind.symm.trans hnojob
        · rcases mem_notices_own hnodup hfind hx hof with hold | hconfirms
          · exact hfresh hold
          · cases hconfirms.symm.trans (hturn.notice.trans hnonotice)
      simp only [hnone, List.append_nil, ite_self]
      exact h.right.again
  · have hkept : ∀ time ∈ w.owed,
        ∃ j ∈ (commitChunk w.db args existing bodies recipients title chunk).jobs.rows,
          j.IsOf drepId args.gaId ∧ j.sourceTime = time := by
      intro time hold
      obtain ⟨j, hj, hof⟩ := h.right.owed time hold
      exact ⟨j, jobs_commitChunk_of_mem hj, hof⟩
    by_cases hsame : w.shown.head?.map (·.2) = some v.vote
    · rw [if_pos hsame] at howed
      exact hkept time howed
    · rw [if_neg hsame] at howed
      rcases List.mem_cons.mp howed with rfl | hold
      · rcases hcase with ⟨-, hjob⟩ | ⟨hlast, -, -⟩
        · -- its job is there, or one with its key
          obtain ⟨kind, hkind⟩ := hjob hsame
          have hmem : voteJob args.gaId args.now title v kind ∈
              classifyVoteJobs args.gaId chunk existing args.followed args.now title :=
            mem_classifyVoteJobs.mpr ⟨v, List.mem_of_find?_eq_some hfind,
              ⟨hrole, hvoter ▸ hfollowed⟩, kind, by rw [hvoter, hturn.job, hkind], rfl⟩
          obtain ⟨j, hj, hkey⟩ := key_jobs_commitChunk w.db bodies recipients hmem
          obtain ⟨hga, kind', hkey'⟩ := hjobKeyed j hj
          obtain ⟨hsubject, haction, htimes⟩ := voteEventKey_inj
            (colon_notMem_keyStart kind') (colon_notMem_keyStart kind) hga hcolon
            (hkey'.symm.trans hkey)
          exact ⟨j, hj, ⟨hsubject.trans hvoter, haction⟩, htimes.trans (hsource kind)⟩
        · exact absurd (by rw [hlast]; rfl) hsame
      · exact hkept time hold

/-! ### What happens beside a batch -/

theorem VoteJobInv.beside (h : VoteJobInv choice drepId gaId w) {db : VoteJobDb}
    (hjobs : db.jobs = w.db.jobs) (hnotices : db.notices = w.db.notices)
    (hnone : storedVote db.voteDb drepId gaId = none → storedVote w.db.voteDb drepId gaId = none)
    (hchain : ∀ row, storedVote db.voteDb drepId gaId = some row → row.localStatus = none →
      storedVote w.db.voteDb drepId gaId = some row) :
    VoteJobInv choice drepId gaId { w with db } where
  unvoted hstored := h.unvoted (hnone hstored)
  chain row hrow hstatus := h.chain row (hchain row hrow hstatus) hstatus
  newest := h.newest
  choices := h.choices
  jobKeyed := by rw [hjobs]; exact h.jobKeyed
  jobShown := by rw [hjobs]; exact h.jobShown
  noticeKeyed := by rw [hnotices]; exact h.noticeKeyed
  right := by
    refine ⟨?_, ?_, h.right.again, ?_⟩
    · rw [hjobs]
      exact h.right.job
    · rw [hnotices]
      exact h.right.notice
    · rw [hjobs]
      exact h.right.owed

theorem storedVote_recordLocalVote (db : VoteDb) (r : LocalVote) :
    storedVote (recordLocalVote db r) drepId gaId = storedVote db drepId gaId ∨
      ∃ row, storedVote (recordLocalVote db r) drepId gaId = some row ∧
        row.localStatus = some .pending := by
  have hfind : storedVote (recordLocalVote db r) drepId gaId =
      if (gaId, drepId) = (r.gaId, r.drepId) then
        some ((storedVote db drepId gaId).elim (localRow r none) (overwriteLocally r
          (db.actions.any fun action => action.id == r.gaId && action.status == "active")))
      else storedVote db drepId gaId :=
    KeyedTable.find?_upsert db.votes (overwriteLocally_key r _) (storedVote_key drepId gaId)
  rw [hfind]
  split_ifs
  · rcases storedVote db drepId gaId with _ | row
    · exact .inr ⟨_, rfl, rfl⟩
    · rw [Option.elim_some, overwriteLocally]
      split_ifs
      · exact .inr ⟨_, rfl, rfl⟩
      · exact .inl rfl
  · exact .inl rfl

theorem storedVote_flagStaleVotes (db : VoteDb) (cutoffSeconds : ℤ) :
    storedVote (flagStaleVotes db cutoffSeconds) drepId gaId = storedVote db drepId gaId ∨
      ∃ row, storedVote (flagStaleVotes db cutoffSeconds) drepId gaId = some row ∧
        row.localStatus = some .failed := by
  rw [storedVote, storedVote, flagStaleVotes,
    KeyedTable.find?_updateWhere db.votes (storedVote_key drepId gaId)]
  rcases db.votes.rows.find? _ with _ | row
  · exact .inl rfl
  · rw [Option.map_some]
    split_ifs
    · exact .inr ⟨_, rfl, rfl⟩
    · exact .inl rfl

theorem VoteJobInv.withVoteDb (h : VoteJobInv choice drepId gaId w) {voteDb : VoteDb}
    {status : LocalStatus}
    (hstored : storedVote voteDb drepId gaId = storedVote w.db.voteDb drepId gaId ∨
      ∃ row, storedVote voteDb drepId gaId = some row ∧ row.localStatus = some status) :
    VoteJobInv choice drepId gaId { w with db := { w.db with voteDb } } := by
  refine h.beside rfl rfl (fun hnone => ?_) fun row hrow hstatus => ?_ <;>
    rcases hstored with hsame | ⟨site, hsite, hpending⟩
  · exact hsame.symm.trans hnone
  · cases hsite.symm.trans hnone
  · exact hsame.symm.trans hrow
  · cases hsite.symm.trans hrow
    cases hpending.symm.trans hstatus

theorem VoteJobEnv.keeps {w' : VoteJobWorld} (henv : VoteJobEnv w w')
    (h : VoteJobInv choice drepId gaId w) : VoteJobInv choice drepId gaId w' := by
  cases henv with
  | recordLocalVote r => exact h.withVoteDb (storedVote_recordLocalVote _ r)
  | flagStaleVotes cutoffSeconds => exact h.withVoteDb (storedVote_flagStaleVotes _ cutoffSeconds)
  | rest rationales actions users titles dbNow =>
    exact h.beside rfl rfl (fun hnone => hnone) fun _ hrow _ => hrow

/-! ### Runs -/

/-- What a call relies on: its chunks are those of its snapshot. -/
def VoteJobAsserts (choice : ℤ → String) (drepId gaId : String) : VoteJobProc → Prop
  | .load args | .bodies args _ | .recipients args _ _ _ _ => args.Snapshot choice drepId gaId
  | .batch args _ _ _ _ chunks =>
    args.Snapshot choice drepId gaId ∧ chunks.flatten.Sublist args.votes

variable {l l' : VoteJobProc} {db' : VoteJobDb} {w' : VoteJobWorld}

theorem VoteJobAsserts.step (hl : VoteJobAsserts choice drepId gaId l) {db : VoteJobDb}
    (hstep : voteJobStep db l = some (db', l')) : VoteJobAsserts choice drepId gaId l' := by
  cases l with
  | load args | bodies args existing =>
    obtain ⟨-, rfl⟩ := Prod.mk.inj (Option.some.inj hstep)
    exact hl
  | recipients args existing bodies found left =>
    cases left with
    | nil =>
      obtain ⟨-, rfl⟩ := Prod.mk.inj (Option.some.inj hstep)
      refine ⟨hl, ?_⟩
      rw [slices_flatten (by decide)]
    | cons ids left =>
      obtain ⟨-, rfl⟩ := Prod.mk.inj (Option.some.inj hstep)
      exact hl
  | batch args existing bodies recipients title chunks =>
    cases chunks with
    | nil => cases hstep
    | cons chunk chunks =>
      obtain ⟨-, rfl⟩ := Prod.mk.inj (Option.some.inj hstep)
      exact ⟨hl.1, (List.sublist_append_right chunk chunks.flatten).trans hl.2⟩

theorem VoteJobInv.step (h : VoteJobInv choice drepId gaId w)
    (hl : VoteJobAsserts choice drepId gaId l) (hturn : (votesInTurn drepId gaId).mover w l)
    (hstep : voteJobStep w.db l = some (db', l')) :
    VoteJobInv choice drepId gaId
      (w.after drepId gaId db' ((l.stores drepId gaId).map (·.1))) := by
  cases l with
  | load args | bodies args existing =>
    obtain ⟨rfl, -⟩ := Prod.mk.inj (Option.some.inj hstep)
    exact h
  | recipients args existing bodies found left =>
    cases left <;> obtain ⟨rfl, -⟩ := Prod.mk.inj (Option.some.inj hstep) <;> exact h
  | batch args existing bodies recipients title chunks =>
    cases chunks with
    | nil => cases hstep
    | cons chunk chunks =>
      obtain ⟨rfl, -⟩ := Prod.mk.inj (Option.some.inj hstep)
      obtain ⟨hsnapshot, hsub⟩ := hl
      have hchunk : chunk.Sublist args.votes :=
        (List.sublist_append_left chunk chunks.flatten).trans hsub
      by_cases hga : args.gaId = gaId
      · rcases hfind : chunk.find? fun v => v.voterId == drepId with _ | v
        · have hother : ∀ v ∈ chunk, v.voterId ≠ drepId := fun v hv hvoter =>
            List.find?_eq_none.mp hfind v hv (beq_iff_eq.mpr hvoter)
          simp only [VoteJobProc.stores, if_pos hga, hfind, Option.map_none]
          exact h.other hsnapshot.colon fun _ => hother
        · have hv : v ∈ args.votes := hchunk.subset (List.mem_of_find?_eq_some hfind)
          have hvoter : v.voterId = drepId := beq_iff_eq.mp
            (List.find?_some (p := fun v : VoteInput => v.voterId == drepId) hfind)
          obtain ⟨hrole, blockTime, htime, hvote⟩ := hsnapshot.own v hv hga hvoter
          have hstores : (VoteJobProc.batch args existing bodies recipients title
              (chunk :: chunks)).stores drepId gaId = some (v, existingOf existing drepId) := by
            simp only [VoteJobProc.stores, if_pos hga, hfind, Option.map_some]
          rw [hstores]
          exact h.own hga hsnapshot.colon hsnapshot.followed
            (hsnapshot.nodup.sublist (hchunk.map _)) hfind hrole htime hvote (hturn _ hstores)
      · simp only [VoteJobProc.stores, if_neg hga]
        exact h.other hsnapshot.colon fun heq => absurd heq hga

theorem VoteJobWorld.Initial.inv (h : w.Initial drepId gaId) :
    VoteJobInv choice drepId gaId w where
  unvoted _ := h.shown
  chain row hrow _ := absurd (h.stored.symm.trans hrow) (by simp)
  newest q hq := absurd (h.shown ▸ hq) (by simp)
  choices p hp := absurd (h.shown ▸ hp) List.not_mem_nil
  jobKeyed job hjob := (h.jobs job hjob).1
  jobShown job hjob hof := absurd hof (h.jobs job hjob).2
  noticeKeyed n hn := (h.notices n hn).1
  right := by
    refine ⟨fun j hj _ _ hof => absurd hof (h.jobs j hj).2, fun n hn _ _ hof =>
      absurd hof (h.notices n hn).2, h.again, fun time howed => ?_⟩
    cases h.owed ▸ howed

def voteJobsSound (choice : ℤ → String) (drepId gaId : String) :
    (voteJobProgram choice drepId gaId).SoundWhen (votesInTurn drepId gaId)
      (VoteJobWorld.Initial drepId gaId) where
  inv := VoteJobInv choice drepId gaId
  asserts _ := VoteJobAsserts choice drepId gaId
  apart _ _ := True
  symm _ _ _ := trivial
  init _ h := h.inv
  start w l _ _ hstart := by
    refine ⟨?_, fun _ _ => trivial⟩
    obtain ⟨args, hsnapshot, -⟩ := hstart
    exact hsnapshot
  step w l w' l' _ hturn hw hl hstep := by
    obtain ⟨⟨db', l''⟩, hcall, hout⟩ := Option.map_eq_some_iff.mp hstep
    cases hout
    exact ⟨hw.step hl hturn hcall, hl.step hcall⟩
  noninterference _ _ _ _ _ _ _ _ _ _ hm _ _ := ⟨hm, trivial⟩
  env _ _ _ hw henv := ⟨henv.keeps hw, fun _ hm => hm⟩

end Invariant

/-- **One job for each vote**, where none but a new one is stored over a row of the site, and each
call has read what still calls for the same; and one notice for an account. -/
theorem voteJobsRight {ι : Type*} [DecidableEq ι] {choice : ℤ → String} {drepId gaId : String}
    {s : Interleaved VoteJobWorld VoteJobProc ι}
    (h : (((voteJobProgram choice drepId gaId).system ι
      (VoteJobWorld.Initial drepId gaId)).restrict (votesInTurn drepId gaId).Met).Reachable s) :
    VoteJobsRight drepId gaId s.shared :=
  ((voteJobsSound choice drepId gaId).holds h).inv.right

/-! ### Two runs -/

def sampleChoice (blockTime : ℤ) : String :=
  if blockTime ≤ 10 then "Yes" else if blockTime ≤ 20 then "No" else "Abstain"

def sampleVoteShown (blockTime : ℤ) : UpsertVotesArgs :=
  ⟨"ga1", [⟨"DRep", "drep1", none, sampleChoice blockTime, some "ipfs://a", none, some blockTime,
    none⟩], 30000, ["drep1"]⟩

theorem snapshot_sampleVoteShown (blockTime : ℤ) :
    (sampleVoteShown blockTime).Snapshot sampleChoice "drep1" "ga1" where
  nodup := List.nodup_singleton _
  followed := List.mem_singleton_self _
  colon := by
    change ':' ∉ "ga1".toList
    decide
  own v hv _ _ := by
    obtain rfl := List.mem_singleton.mp hv
    exact ⟨rfl, blockTime, rfl, rfl⟩

def sampleSiteVote : LocalVote := ⟨"ga1", "drep1", none, "Abstain", some "ipfs://a", "tx", 25⟩

def sampleVoteJobs : VoteJobWorld where
  db := ⟨⟨.empty, .empty, .empty, [⟨"ga1", none, "active"⟩]⟩, .empty, .empty,
    [⟨"ada", some "drep1", true, true⟩], fun _ => none, 30⟩
  shown := []
  owed := []
  again := []

theorem initial_sampleVoteJobs : sampleVoteJobs.Initial "drep1" "ga1" where
  stored := rfl
  jobs _ hjob := absurd hjob List.not_mem_nil
  notices _ hnotice := absurd hnotice List.not_mem_nil
  shown := rfl
  owed := rfl
  again := rfl

/-- A vote is shown, then another, and one more that was cast through the site in between. -/
theorem voteJobsRight_three : ∃ s : Interleaved VoteJobWorld VoteJobProc ℕ,
    s.shared.db.jobs.rows.map (·.eventKey) =
        ["drep-vote:drep1:ga1:10", "drep-revote:drep1:ga1:20", "drep-vote:drep1:ga1:30"] ∧
      s.shared.db.notices.rows.map (·.eventKey) = ["rationale_ready:drep1:ga1:30"] ∧
      VoteJobsRight "drep1" "ga1" s.shared := by
  have h₀ : (((voteJobProgram sampleChoice "drep1" "ga1").system ℕ
      (VoteJobWorld.Initial "drep1" "ga1")).restrict (votesInTurn "drep1" "ga1").Met).Reachable
        ⟨sampleVoteJobs, fun _ => none⟩ :=
    .init ⟨initial_sampleVoteJobs, fun _ => rfl⟩
  have hmoves : ∀ (_ : Unit) (w : VoteJobWorld) (l : VoteJobProc) (w' : VoteJobWorld)
      (l' : VoteJobProc), voteJobCall "drep1" "ga1" w l = some (w', l') →
        (voteJobProgram sampleChoice "drep1" "ga1").Step w l w' l' := fun _ _ _ _ _ hcall => hcall
  have h₁ := Program.reachable_start h₀ (i := 0) trivial rfl
    (.upsertVotes (sampleVoteShown 10) (snapshot_sampleVoteShown 10) (by decide +kernel))
  have h₂ := Program.reachable_runChecked (fun _ => trivial) (fun _ _ _ => trivial) hmoves h₁
    (List.replicate 4 (0, ())) (by decide +kernel)
  have h₃ := Program.reachable_start h₂ (i := 1) trivial (by decide +kernel)
    (.upsertVotes (sampleVoteShown 20) (snapshot_sampleVoteShown 20) (by decide +kernel))
  have h₄ := Program.reachable_runChecked (fun _ => trivial) (fun _ _ _ => trivial) hmoves h₃
    (List.replicate 4 (1, ())) (by decide +kernel)
  have h₅ := Program.reachable_env h₄ trivial (.recordLocalVote sampleSiteVote)
  have h₆ := Program.reachable_start h₅ (i := 2) trivial (by decide +kernel)
    (.upsertVotes (sampleVoteShown 30) (snapshot_sampleVoteShown 30) (by decide +kernel))
  have h₇ := Program.reachable_runChecked (fun _ => trivial) (fun _ _ _ => trivial) hmoves h₆
    (List.replicate 5 (2, ())) (by decide +kernel)
  exact ⟨_, by decide +kernel, by decide +kernel, voteJobsRight h₇⟩

/-- A vote is shown, then another; one is cast through the site, and the next snapshot, which still
shows the second, makes it voted once more. -/
theorem not_voteJobsRight : ¬∀ s : Interleaved VoteJobWorld VoteJobProc ℕ,
    ((voteJobProgram sampleChoice "drep1" "ga1").system ℕ
      (VoteJobWorld.Initial "drep1" "ga1")).Reachable s → VoteJobsRight "drep1" "ga1" s.shared := by
  intro hall
  have h₀ : ((voteJobProgram sampleChoice "drep1" "ga1").system ℕ
      (VoteJobWorld.Initial "drep1" "ga1")).Reachable ⟨sampleVoteJobs, fun _ => none⟩ :=
    .init ⟨initial_sampleVoteJobs, fun _ => rfl⟩
  have hmoves : ∀ (_ : Unit) (w : VoteJobWorld) (l : VoteJobProc) (w' : VoteJobWorld)
      (l' : VoteJobProc), voteJobCall "drep1" "ga1" w l = some (w', l') →
        (voteJobProgram sampleChoice "drep1" "ga1").Step w l w' l' := fun _ _ _ _ _ hcall => hcall
  have h₁ := h₀.step (.start (i := 0) rfl
    (.upsertVotes (sampleVoteShown 10) (snapshot_sampleVoteShown 10) (by decide +kernel)))
  have h₂ := Program.reachable_run hmoves h₁ (List.replicate 4 (0, ())) (by decide +kernel)
  have h₃ := h₂.step (.start (i := 1) (by decide +kernel)
    (.upsertVotes (sampleVoteShown 20) (snapshot_sampleVoteShown 20) (by decide +kernel)))
  have h₄ := Program.reachable_run hmoves h₃ (List.replicate 4 (1, ())) (by decide +kernel)
  have h₅ := h₄.step (.env (.recordLocalVote sampleSiteVote))
  have h₆ := h₅.step (.start (i := 2) (by decide +kernel)
    (.upsertVotes (sampleVoteShown 20) (snapshot_sampleVoteShown 20) (by decide +kernel)))
  have h₇ := Program.reachable_run hmoves h₆ (List.replicate 5 (2, ())) (by decide +kernel)
  have hagain := (hall _ h₇).again
  revert hagain
  decide +kernel

end DrepTalk
