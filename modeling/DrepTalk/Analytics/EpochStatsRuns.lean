import DrepTalk.Analytics.EpochStats
import DrepTalk.Library.Interleaving

/-!
# Statistics of an epoch while votes come in late

Passes of both kinds, interleaved statement by statement, while votes are cast, epochs go by, and
vote syncs and sweeps write what the chain shows, each vote at any time after it was cast.

**What a complete row says.** A row that is marked complete is not computed again. Its figures are
those of the chain (`Exact`) where at the time of each read all votes up to the end of the epoch
had been stored, each once, and where the snapshot of the epoch was at hand; no pass checks either.
A live pass that is late writes an open row over a complete one. In runs that avoid all this
(`statsSettled`) complete rows stay, and stay right (`complete_rows_right`); others leave a row that
stays wrong (`not_complete_rows_right`).
-/

namespace DrepTalk

/-! ### Votes on the chain -/

structure CastVote where
  gaId : String
  voterRole : String
  voterId : String
  blockTime : ℤ
  deriving DecidableEq

/-- The vote of a row, once the chain has shown it. -/
def VoteRow.cast (row : VoteRow) : Option CastVote :=
  row.blockTime.map fun blockTime => ⟨row.gaId, row.voterRole, row.voterId, blockTime⟩

def HistoryRow.cast (row : HistoryRow) : CastVote :=
  ⟨row.gaId, row.voterRole, row.voterId, row.blockTime⟩

/-- The votes of the chain that are stored. -/
def StatsDb.stored (db : StatsDb) : List CastVote :=
  db.votes.rows.filterMap VoteRow.cast ++ db.history.rows.map HistoryRow.cast

variable (cfg : EpochAnchor)

def countedCast (first last : ℤ) (v : CastVote) : Bool :=
  v.voterRole == "DRep" && inEpochs cfg first last v.blockTime &&
    !SPECIAL_DREP_IDS.contains v.voterId

/-- The votes of an epoch, among these. -/
def votesIn (votes : List CastVote) (epoch : ℤ) : ℕ := votes.countP (countedCast cfg epoch epoch)

/-- The DReps that have voted in the window that ends with an epoch. -/
def votersIn (votes : List CastVote) (epoch : ℤ) : List String :=
  ((votes.filter (countedCast cfg (epoch - RECENT_VOTING_WINDOW_EPOCHS + 1) epoch)).map
    (·.voterId)).dedup

/-- The votes up to the end of an epoch. -/
def upTo (votes : List CastVote) (epoch : ℤ) : List CastVote :=
  votes.filter fun v => decide (v.blockTime < cfg.epochStartUnix (epoch + 1))

variable {cfg}

theorem countDrepVotesInEpoch_eq (db : StatsDb) (epoch : ℤ) :
    countDrepVotesInEpoch cfg db epoch = votesIn cfg db.stored epoch := by
  rw [votesIn, StatsDb.stored, List.countP_append, List.countP_filterMap, List.countP_map,
    countDrepVotesInEpoch]
  congr 1
  refine List.countP_congr fun row _ => ?_
  rcases hshown : row.blockTime with _ | blockTime <;>
    simp [countedVote, VoteRow.cast, hshown, countedCast]

variable {epoch : ℤ}

theorem mem_listRecentlyVotingDrepIds {db : StatsDb} {id : String} :
    id ∈ listRecentlyVotingDrepIds cfg db epoch ↔ id ∈ votersIn cfg db.stored epoch := by
  simp only [listRecentlyVotingDrepIds, votersIn, StatsDb.stored, List.mem_dedup, List.mem_append,
    List.mem_map, List.mem_filter, List.mem_filterMap]
  constructor
  · rintro (⟨row, ⟨hrow, hcounted⟩, rfl⟩ | ⟨row, ⟨hrow, hcounted⟩, rfl⟩)
    · rcases hshown : row.blockTime with _ | blockTime
      · simp [countedVote, hshown] at hcounted
      · refine ⟨⟨row.gaId, row.voterRole, row.voterId, blockTime⟩,
          ⟨.inl ⟨row, hrow, by simp [VoteRow.cast, hshown]⟩, ?_⟩, rfl⟩
        simpa [countedVote, hshown, countedCast] using hcounted
    · exact ⟨row.cast, ⟨.inr ⟨row, hrow, rfl⟩, hcounted⟩, rfl⟩
  · rintro ⟨v, ⟨⟨row, hrow, hcast⟩ | ⟨row, hrow, rfl⟩, hcounted⟩, rfl⟩
    · obtain ⟨blockTime, hshown, rfl⟩ := Option.map_eq_some_iff.mp hcast
      refine .inl ⟨row, ⟨hrow, ?_⟩, rfl⟩
      simpa [countedVote, hshown, countedCast] using hcounted
    · exact .inr ⟨row, ⟨hrow, hcounted⟩, rfl⟩

theorem countedCast_upTo {first : ℤ} {v : CastVote} (h : countedCast cfg first epoch v = true) :
    decide (v.blockTime < cfg.epochStartUnix (epoch + 1)) = true := by
  simp only [countedCast, inEpochs, Bool.and_eq_true] at h
  exact h.1.2.2

theorem votesIn_upTo (votes : List CastVote) (epoch : ℤ) :
    votesIn cfg (upTo cfg votes epoch) epoch = votesIn cfg votes epoch := by
  rw [votesIn, upTo, List.countP_filter]
  refine List.countP_congr fun v _ => ?_
  rw [Bool.and_eq_true]
  exact ⟨fun h => h.1, fun h => ⟨h, countedCast_upTo h⟩⟩

theorem votersIn_upTo (votes : List CastVote) (epoch : ℤ) :
    votersIn cfg (upTo cfg votes epoch) epoch = votersIn cfg votes epoch := by
  rw [votersIn, votersIn, upTo, List.filter_filter]
  congr 2
  refine List.filter_congr fun v _ => ?_
  rw [Bool.and_eq_left_iff_imp]
  exact countedCast_upTo

theorem figures_of_perm {votes votes' : List CastVote}
    (h : (upTo cfg votes epoch).Perm (upTo cfg votes' epoch)) :
    votesIn cfg votes epoch = votesIn cfg votes' epoch ∧
      ∀ id, id ∈ votersIn cfg votes epoch ↔ id ∈ votersIn cfg votes' epoch := by
  refine ⟨?_, fun id => ?_⟩
  · rw [← votesIn_upTo, ← votesIn_upTo votes']
    exact h.countP_eq _
  · rw [← votersIn_upTo, ← votersIn_upTo votes']
    simp only [votersIn, List.mem_dedup, List.mem_map, List.mem_filter, h.mem_iff]

/-! ### The world -/

/-- The tables, the epoch that is open, and the votes cast so far. -/
structure StatsWorld where
  db : StatsDb
  epoch : ℤ
  chain : List CastVote

variable (cfg)

/-- What else happens: votes are cast, epochs go by, vote syncs and sweeps write votes that the
chain has shown, actions wait to be swept, snapshots of power come and go. -/
inductive StatsEnv (w : StatsWorld) : StatsWorld → Prop
  | cast (v : CastVote) (hnew : v ∉ w.chain) (hfrom : cfg.epochStartUnix w.epoch ≤ v.blockTime)
      (huntil : v.blockTime < cfg.epochStartUnix (w.epoch + 1)) :
      StatsEnv w { w with chain := w.chain ++ [v] }
  | roll (epoch : ℤ) (hle : w.epoch ≤ epoch) : StatsEnv w { w with epoch }
  | sync (votes : VoteTable) (history : HistoryTable)
      (hshown : ∀ v ∈ ({ w.db with votes, history } : StatsDb).stored, v ∈ w.chain) :
      StatsEnv w { w with db := { w.db with votes, history } }
  | sweep (actions : List (String × Option ℤ)) :
      StatsEnv w { w with db := { w.db with actions } }
  | powers (powers : List (ℤ × EpochHistoryInput)) :
      StatsEnv w { w with db := { w.db with powers } }

/-- How passes start: for an epoch that has been seen on the chain. -/
inductive StatsStart (w : StatsWorld) : StatsProc → Prop
  | live (epoch : ℤ) (hle : epoch ≤ w.epoch) : StatsStart w (.live epoch)
  | backfill (currentEpoch : ℤ) (budget : ℕ) (hle : currentEpoch ≤ w.epoch) :
      StatsStart w (.backfill ⟨currentEpoch, budget, 0⟩)

def statsMove (event : StatsEvent) (w : StatsWorld) (l : StatsProc) :
    Option (StatsWorld × StatsProc) :=
  (statsStep cfg event w.db l).map fun out => ({ w with db := out.1 }, out.2)

def statsProgram : Program StatsWorld StatsProc where
  Start := StatsStart
  Step w l w' l' := ∃ event, statsMove cfg event w l = some (w', l')
  Env := StatsEnv cfg

/-! ### Rows that are right -/

def holdings (history : List EpochHistoryInput) : List (String × ℤ) :=
  history.map fun r => (r.drepId, r.amount)

/-- All votes up to the end of the epoch are stored. -/
def AllStored (w : StatsWorld) (epoch : ℤ) : Prop := ∀ v ∈ upTo cfg w.chain epoch, v ∈ w.db.stored

/-- None of them is stored twice, in both tables. -/
def StoredOnce (w : StatsWorld) (epoch : ℤ) : Prop := (upTo cfg w.db.stored epoch).Nodup

/-- The DReps read are those that have voted. -/
def RightVoters (chain : List CastVote) (epoch : ℤ) (voters : List String) : Prop :=
  voters.Nodup ∧ ∀ id, id ∈ voters ↔ id ∈ votersIn cfg chain epoch

variable (snapshot : ℤ → List EpochHistoryInput)

/-- The snapshot of the epoch is at hand. -/
def AtHand (history : List EpochHistoryInput) (epoch : ℤ) : Prop :=
  history ≠ [] ∧ (holdings history).Perm (holdings (snapshot epoch))

/-- The figures of the row are those of the chain. -/
structure Exact (chain : List CastVote) (row : EpochStatsRow) : Prop where
  votesCast : row.votesCast = votesIn cfg chain row.epoch
  recentlyVoting : row.recentlyVotingDrepCount = (votersIn cfg chain row.epoch).length
  silent : row.silentPoweredDrepCount =
    some (countSilentPoweredDreps (snapshot row.epoch) (votersIn cfg chain row.epoch))

/-- What holds of the tables in every run. -/
structure StatsSafe (w : StatsWorld) : Prop where
  chain : w.chain.Nodup
  cast : ∀ v ∈ w.chain, v.blockTime < cfg.epochStartUnix (w.epoch + 1)
  stored : ∀ v ∈ w.db.stored, v ∈ w.chain
  complete : ∀ row ∈ w.db.stats.rows, row.voteDataComplete = true →
    row.epoch < w.epoch ∧ Exact cfg snapshot w.chain row

/-- These epochs have closed when the backfill began. -/
def Closed (w : StatsWorld) (b : Backfill) (epochs : List ℤ) : Prop :=
  b.currentEpoch ≤ w.epoch ∧ ∀ epoch ∈ epochs, epoch < b.currentEpoch

/-- A row is built for an epoch that has closed, unless it is the live pass that builds it. -/
def JobClosed (w : StatsWorld) (job : StatsJob) : Prop :=
  ∀ pass ∈ job.insert, Closed w pass.backfill (job.epoch :: pass.todo)

def StatsAsserts (w : StatsWorld) : StatsProc → Prop
  | .unswept job | .voters job _ => JobClosed w job
  | .votes job unswept voters => JobClosed w job ∧
      (job.insert.isSome = true → unswept = 0 → RightVoters cfg w.chain job.epoch voters)
  | .writing job row => JobClosed w job ∧ row.epoch = job.epoch ∧
      (row.voteDataComplete = true → job.insert.isSome = true ∧ Exact cfg snapshot w.chain row)
  | .backfill b | .listing b | .floor b | .storedEpochs b _ => b.currentEpoch ≤ w.epoch
  | .repairVotes b epoch rest => Closed w b (epoch :: rest)
  | .repairVoters b epoch rest votes =>
    Closed w b (epoch :: rest) ∧ votes = votesIn cfg w.chain epoch
  | .repairStored b epoch rest votes voters | .repairFetch b epoch rest votes voters |
    .repairWrite b epoch rest votes voters _ =>
    Closed w b (epoch :: rest) ∧ votes = votesIn cfg w.chain epoch ∧
      RightVoters cfg w.chain epoch voters
  | .insertRows pass epoch | .insertTotals pass epoch _ =>
    Closed w pass.backfill (epoch :: pass.todo)
  | _ => True

/-- **The condition.** A row is made complete when all votes of its epoch are stored, each once, and
its snapshot is at hand; no live pass writes over a complete row. -/
def statsSettled : Program.Condition StatsWorld StatsProc where
  state _ := True
  mover w l := match l with
    | .repairVotes _ epoch _ | .repairVoters _ epoch _ _ =>
      AllStored cfg w epoch ∧ StoredOnce cfg w epoch
    | .repairWrite _ epoch _ _ _ history => AtHand snapshot history epoch
    | .voters job unswept => job.insert.isSome = true → unswept = 0 →
      AllStored cfg w job.epoch ∧ StoredOnce cfg w job.epoch
    | .votes job unswept _ => job.insert.isSome = true → unswept = 0 →
      AllStored cfg w job.epoch ∧ StoredOnce cfg w job.epoch ∧
        AtHand snapshot job.history job.epoch
    | .writing job _ => job.insert = none → ∀ row ∈ w.db.stats.rows, row.epoch = job.epoch →
      row.voteDataComplete = false
    | _ => True
  others _ _ _ := True

/-- Rows stay, complete ones stay complete, and a treasury that is there stays there. -/
def StatsRowsKept (stats stats' : EpochStatsTable) : Prop :=
  ∀ row ∈ stats.rows, ∃ row' ∈ stats'.rows, row'.epoch = row.epoch ∧
    (row.voteDataComplete = true → row'.voteDataComplete = true) ∧
    (row.treasuryLovelace.isSome = true → row'.treasuryLovelace.isSome = true)

/-- Before any pass, complete rows are right. -/
def StatsInit (w : StatsWorld) : Prop := StatsSafe cfg snapshot w

variable {cfg snapshot} {w w' : StatsWorld} {l l' : StatsProc}

theorem StatsRowsKept.refl (stats : EpochStatsTable) : StatsRowsKept stats stats :=
  fun row hrow => ⟨row, hrow, rfl, id, id⟩

/-! ### Figures that are right -/

variable {voters : List String}

theorem RightVoters.length_eq {chain : List CastVote} (h : RightVoters cfg chain epoch voters) :
    voters.length = (votersIn cfg chain epoch).length :=
  ((List.perm_ext_iff_of_nodup h.1 (List.nodup_dedup _)).mpr h.2).length_eq

theorem countSilentPoweredDreps_congr {history history' : List EpochHistoryInput}
    {voters' : List String} (hheld : (holdings history).Perm (holdings history'))
    (hvoted : ∀ id, id ∈ voters ↔ id ∈ voters') :
    countSilentPoweredDreps history voters = countSilentPoweredDreps history' voters' := by
  have hsame : ∀ voters : List String, ∀ history : List EpochHistoryInput,
      countSilentPoweredDreps history voters = (holdings history).countP fun held =>
        !(SPECIAL_DREP_IDS.contains held.1 || voters.contains held.1) && decide (0 < held.2) := by
    intro voters history
    rw [holdings, List.countP_map]
    rfl
  have hcontains : ∀ id, voters.contains id = voters'.contains id := fun id => by
    rw [List.contains_eq_mem, List.contains_eq_mem, decide_eq_decide]
    exact hvoted id
  rw [hsame, hsame, hheld.countP_eq]
  simp only [hcontains]

theorem countSilentPoweredDreps_regular (history : List EpochHistoryInput) (voters : List String) :
    countSilentPoweredDreps (history.filter fun r => !SPECIAL_DREP_IDS.contains r.drepId) voters =
      countSilentPoweredDreps history voters := by
  rw [countSilentPoweredDreps, List.countP_filter]
  refine List.countP_congr fun r _ => ?_
  rcases SPECIAL_DREP_IDS.contains r.drepId <;> simp

theorem StatsSafe.perm (hw : StatsSafe cfg snapshot w) (hall : AllStored cfg w epoch)
    (honce : StoredOnce cfg w epoch) :
    (upTo cfg w.db.stored epoch).Perm (upTo cfg w.chain epoch) := by
  refine (List.perm_ext_iff_of_nodup honce (hw.chain.filter _)).mpr fun v =>
    ⟨fun hv => ?_, fun hv => List.mem_filter.mpr ⟨hall v hv, (List.mem_filter.mp hv).2⟩⟩
  obtain ⟨hv, hearly⟩ := List.mem_filter.mp hv
  exact List.mem_filter.mpr ⟨hw.stored v hv, hearly⟩

theorem StatsSafe.votes_eq (hw : StatsSafe cfg snapshot w) (hall : AllStored cfg w epoch)
    (honce : StoredOnce cfg w epoch) :
    countDrepVotesInEpoch cfg w.db epoch = votesIn cfg w.chain epoch :=
  (countDrepVotesInEpoch_eq w.db epoch).trans (figures_of_perm (hw.perm hall honce)).1

theorem StatsSafe.voters_right (hw : StatsSafe cfg snapshot w) (hall : AllStored cfg w epoch)
    (honce : StoredOnce cfg w epoch) :
    RightVoters cfg w.chain epoch (listRecentlyVotingDrepIds cfg w.db epoch) :=
  ⟨List.nodup_dedup _, fun id => mem_listRecentlyVotingDrepIds.trans
    ((figures_of_perm (hw.perm hall honce)).2 id)⟩

/-! ### What the statements do -/

/-- What a step of a pass does, to the tables and for itself. -/
structure StatsStep (cfg : EpochAnchor) (snapshot : ℤ → List EpochHistoryInput) (w : StatsWorld)
    (db' : StatsDb) (l' : StatsProc) : Prop where
  votes : db'.votes = w.db.votes
  history : db'.history = w.db.history
  kept : StatsRowsKept w.db.stats db'.stats
  complete : ∀ row ∈ db'.stats.rows, row ∈ w.db.stats.rows ∨
    (row.voteDataComplete = true → row.epoch < w.epoch ∧ Exact cfg snapshot w.chain row)
  asserts : StatsAsserts cfg snapshot w l'

theorem StatsStep.read (h : StatsAsserts cfg snapshot w l') :
    StatsStep cfg snapshot w w.db l' :=
  ⟨rfl, rfl, .refl _, fun _ => .inl, h⟩

variable {db' : StatsDb}

theorem StatsSafe.step (hw : StatsSafe cfg snapshot w) (h : StatsStep cfg snapshot w db' l') :
    StatsSafe cfg snapshot { w with db := db' } := by
  refine ⟨hw.chain, hw.cast, fun v hv => hw.stored v ?_, fun row hrow hcomplete => ?_⟩
  · rw [StatsDb.stored, ← h.votes, ← h.history]
    exact hv
  · rcases h.complete row hrow with hold | hnew
    · exact hw.complete row hold hcomplete
    · exact hnew hcomplete

variable {b : Backfill} {epochs : List ℤ}

theorem asserts_nextRepair (h : Closed w b epochs) :
    StatsAsserts cfg snapshot w (nextRepair b epochs) := by
  cases epochs with
  | nil => exact h.1
  | cons => exact h

theorem asserts_nextInsert {pass : InsertPass} (h : Closed w pass.backfill pass.todo) :
    StatsAsserts cfg snapshot w (nextInsert pass) := by
  rw [nextInsert]
  split
  · exact trivial
  · next epoch rest htodo =>
    rw [htodo] at h
    exact h

theorem Closed.mono {b' : Backfill} {epochs' : List ℤ} (h : Closed w b epochs)
    (hepoch : b'.currentEpoch = b.currentEpoch) (hsub : ∀ epoch ∈ epochs', epoch ∈ epochs) :
    Closed w b' epochs' :=
  ⟨hepoch ▸ h.1, fun epoch hmem => hepoch ▸ h.2 epoch (hsub epoch hmem)⟩

theorem Closed.lt {rest : List ℤ} (h : Closed w b (epoch :: rest)) :
    epoch < w.epoch :=
  lt_of_lt_of_le (h.2 epoch List.mem_cons_self) h.1

variable {row : EpochStatsRow}

theorem computeEpochStatsRow_some {input : EpochStatsInput}
    (h : computeEpochStatsRow input = some row) :
    row.epoch = input.epoch ∧ row.votesCast = input.votesCast ∧
      row.recentlyVotingDrepCount = input.recentlyVotingDrepIds.length ∧
      row.silentPoweredDrepCount =
        some (countSilentPoweredDreps input.history input.recentlyVotingDrepIds) ∧
      row.voteDataComplete = input.voteDataComplete := by
  rw [computeEpochStatsRow] at h
  by_cases hnodup : (input.history.map (·.drepId)).Nodup
  · simp only [if_pos hnodup, Option.some.injEq] at h
    subst h
    exact ⟨rfl, rfl, rfl, congrArg some (countSilentPoweredDreps_regular _ _), rfl⟩
  · simp only [if_neg hnodup, reduceCtorEq] at h

/-- **The live pass** writes an open row, over none that is complete. -/
theorem upsertEpochStats_step {row : EpochStatsRow} (hopen : row.voteDataComplete = false)
    (hfree : ∀ stored ∈ w.db.stats.rows, stored.epoch = row.epoch →
      stored.voteDataComplete = false) :
    StatsStep cfg snapshot w (upsertEpochStats w.db row) (.liveDone true) := by
  have hkey : ∀ stored : EpochStatsRow, stored.epoch = row.epoch →
      (row.over stored).epoch = stored.epoch := fun _ _ => rfl
  refine ⟨rfl, rfl, fun stored hstored => ?_, fun r hr => ?_, trivial⟩
  · by_cases hepoch : stored.epoch = row.epoch
    · have hover := (KeyedTable.mem_upsert hkey).mpr (.inr (.inl ⟨stored, hstored, hepoch, rfl⟩))
      refine ⟨row.over stored, hover, rfl, fun hcomplete => ?_, fun htreasury => ?_⟩
      · cases (hfree stored hstored hepoch).symm.trans hcomplete
      · rw [EpochStatsRow.over]
        rcases row.treasuryLovelace with _ | t
        · exact htreasury
        · rfl
    · exact ⟨stored, (KeyedTable.mem_upsert hkey).mpr (.inl ⟨hstored, hepoch⟩), rfl, id, id⟩
  · rcases (KeyedTable.mem_upsert hkey).mp hr with ⟨hr, -⟩ | ⟨stored, -, -, rfl⟩ | ⟨rfl, -⟩
    · exact .inl hr
    · exact .inr fun hcomplete => absurd (hopen.symm.trans hcomplete) (by decide)
    · exact .inr fun hcomplete => absurd (hopen.symm.trans hcomplete) (by decide)

/-- **An insert** leaves a row that is there. -/
theorem insertEpochStats_step
    (hrow : row.voteDataComplete = true → row.epoch < w.epoch ∧ Exact cfg snapshot w.chain row)
    (hasserts : StatsAsserts cfg snapshot w l') :
    StatsStep cfg snapshot w (insertEpochStatsIfMissing w.db row).1 l' := by
  refine ⟨rfl, rfl, fun stored hstored =>
    ⟨stored, KeyedTable.mem_insertOrIgnore.mpr (.inl hstored), rfl, id, id⟩,
    fun r hr => ?_, hasserts⟩
  rcases KeyedTable.mem_insertOrIgnore.mp hr with hr | ⟨rfl, -⟩
  · exact .inl hr
  · exact .inr hrow

/-- **A repair** makes the row complete, with the figures it has read. -/
theorem updateVoteDerivedStats_step {votes voting silent : ℕ} (hclosed : epoch < w.epoch)
    (hvotes : votes = votesIn cfg w.chain epoch)
    (hvoting : voting = (votersIn cfg w.chain epoch).length)
    (hsilent : silent = countSilentPoweredDreps (snapshot epoch) (votersIn cfg w.chain epoch))
    (hasserts : StatsAsserts cfg snapshot w l') :
    StatsStep cfg snapshot w (updateVoteDerivedStats w.db epoch votes voting (some silent) true)
      l' := by
  refine ⟨rfl, rfl, fun stored hstored => ?_, fun r hr => ?_, hasserts⟩
  · refine ⟨_, Table.mem_updateWhere_of_mem _ _ hstored, ?_⟩
    split_ifs
    · exact ⟨rfl, fun _ => rfl, id⟩
    · exact ⟨rfl, id, id⟩
  · rcases Table.mem_updateWhere.mp hr with ⟨hr, -⟩ | ⟨stored, -, hepoch, rfl⟩
    · exact .inl hr
    · obtain rfl : stored.epoch = epoch := beq_iff_eq.mp hepoch
      exact .inr fun _ => ⟨hclosed, hvotes, hvoting, congrArg some hsilent⟩

theorem buildStatement_step {db' : StatsDb} (hw : StatsSafe cfg snapshot w)
    (hl : StatsAsserts cfg snapshot w l) (hmover : (statsSettled cfg snapshot).mover w l)
    (hbuild : ∃ job, l = .unswept job ∨ (∃ n, l = .voters job n) ∨ (∃ n ids, l = .votes job n ids) ∨
      ∃ row, l = .writing job row)
    (h : statsStatement cfg w.db l = some (db', l')) : StatsStep cfg snapshot w db' l' := by
  obtain ⟨job, rfl | ⟨n, rfl⟩ | ⟨n, ids, rfl⟩ | ⟨row, rfl⟩⟩ := hbuild
  · cases h
    exact .read hl
  · cases h
    refine .read ⟨hl, fun hinsert hswept => ?_⟩
    obtain ⟨hall, honce⟩ := hmover hinsert hswept
    exact hw.voters_right hall honce
  · obtain ⟨hclosed, hvoters⟩ := hl
    rw [statsStatement] at h
    split at h
    · cases h
      exact .read trivial
    · next row hrow =>
      cases h
      obtain ⟨hepoch, hvotes, hvoting, hsilent, hcomplete⟩ := computeEpochStatsRow_some hrow
      refine .read ⟨hclosed, hepoch, fun hmarked => ?_⟩
      obtain ⟨hinsert, hswept⟩ : job.insert.isSome = true ∧ n = 0 := by
        simpa [hcomplete] using hmarked
      obtain ⟨hall, honce, hhand⟩ := hmover hinsert hswept
      have hright := hvoters hinsert hswept
      refine ⟨hinsert, ?_, ?_, ?_⟩
      · rw [hvotes, hepoch]
        exact hw.votes_eq hall honce
      · rw [hvoting, hepoch]
        exact hright.length_eq
      · rw [hsilent, hepoch]
        exact congrArg some (countSilentPoweredDreps_congr hhand.2 hright.2)
  · obtain ⟨hclosed, hepoch, hmarked⟩ := hl
    rw [statsStatement] at h
    split at h
    · next hlive =>
      cases h
      have hopen : row.voteDataComplete = false := by
        rw [← Bool.not_eq_true]
        exact fun hcomplete => by simpa [hlive] using (hmarked hcomplete).1
      exact upsertEpochStats_step hopen fun stored hstored hsame =>
        hmover hlive stored hstored (hsame.trans hepoch)
    · next pass hpass =>
      cases h
      have hpass' := hclosed pass hpass
      refine insertEpochStats_step (fun hcomplete => ⟨?_, (hmarked hcomplete).2⟩)
        (asserts_nextInsert (hpass'.mono rfl fun _ => List.mem_cons_of_mem _))
      exact hepoch ▸ hpass'.lt

/-- **Every statement** of a pass. -/
theorem statsStatement_step (hw : StatsSafe cfg snapshot w) (hl : StatsAsserts cfg snapshot w l)
    (hmover : (statsSettled cfg snapshot).mover w l)
    (h : statsStatement cfg w.db l = some (db', l')) : StatsStep cfg snapshot w db' l' := by
  cases l with
  | live epoch =>
    cases h
    split_ifs <;> exact .read trivial
  | unswept job => exact buildStatement_step hw hl hmover ⟨job, .inl rfl⟩ h
  | voters job n => exact buildStatement_step hw hl hmover ⟨job, .inr (.inl ⟨n, rfl⟩)⟩ h
  | votes job n ids =>
    exact buildStatement_step hw hl hmover ⟨job, .inr (.inr (.inl ⟨n, ids, rfl⟩))⟩ h
  | writing job row =>
    exact buildStatement_step hw hl hmover ⟨job, .inr (.inr (.inr ⟨row, rfl⟩))⟩ h
  | backfill b =>
    cases h
    split_ifs <;> exact .read hl
  | listing b =>
    cases h
    refine .read (asserts_nextRepair ⟨hl, fun epoch hmem => ?_⟩)
    exact of_decide_eq_true (List.mem_filter.mp (List.mem_of_mem_take hmem)).2
  | repairVotes b epoch rest =>
    cases h
    exact .read ⟨hl, hw.votes_eq hmover.1 hmover.2⟩
  | repairVoters b epoch rest votes =>
    cases h
    exact .read ⟨hl.1, hl.2, hw.voters_right hmover.1 hmover.2⟩
  | repairStored b epoch rest votes voters =>
    cases h
    split_ifs
    · exact .read ⟨hl.1.mono rfl fun _ => id, hl.2⟩
    · exact .read hl
  | repairWrite b epoch rest votes voters history =>
    cases h
    obtain ⟨hclosed, hvotes, hvoters⟩ := hl
    rw [if_neg hmover.1]
    exact updateVoteDerivedStats_step hclosed.lt hvotes hvoters.length_eq
      (countSilentPoweredDreps_congr hmover.2 hvoters.2)
      (asserts_nextRepair (hclosed.mono rfl fun _ => List.mem_cons_of_mem _))
  | storedEpochs b floor =>
    cases h
    refine .read (asserts_nextInsert ⟨hl, fun epoch hmem => ?_⟩)
    obtain ⟨hrange, -⟩ := List.mem_filter.mp (List.mem_of_mem_take hmem)
    obtain ⟨i, hi, rfl⟩ := List.mem_map.mp hrange
    rw [List.mem_range] at hi
    change floor + i < b.currentEpoch
    omega
  | _ => cases h

theorem statsAnswered_step {event : StatsEvent} (hl : StatsAsserts cfg snapshot w l)
    (h : statsAnswered event l = some l') : StatsAsserts cfg snapshot w l' := by
  rw [statsAnswered.eq_def] at h
  split at h
  · cases h
    exact nofun
  · cases h
    exact hl
  · cases h
    exact trivial
  · cases h
    split_ifs
    · exact trivial
    · exact hl
  · next pass epoch =>
    have hclosed : Closed w pass.backfill (epoch :: pass.todo) := hl
    cases h
    split_ifs
    · exact asserts_nextInsert (hclosed.mono rfl fun _ => List.mem_cons_of_mem _)
    · exact hclosed
  · next pass epoch history =>
    have hclosed : Closed w pass.backfill (epoch :: pass.todo) := hl
    cases h
    exact asserts_nextInsert (hclosed.mono rfl fun _ => List.mem_cons_of_mem _)
  · next treasury pass epoch history =>
    have hclosed : Closed w pass.backfill (epoch :: pass.todo) := hl
    cases h
    rintro _ ⟨⟩
    exact hclosed
  · cases h

/-- **Any step** that meets the condition. -/
theorem statsStep_step {event : StatsEvent} (hw : StatsSafe cfg snapshot w)
    (hl : StatsAsserts cfg snapshot w l) (hmover : (statsSettled cfg snapshot).mover w l)
    (h : statsStep cfg event w.db l = some (db', l')) : StatsStep cfg snapshot w db' l' := by
  cases event with
  | statement => exact statsStatement_step hw hl hmover h
  | fails =>
    obtain ⟨l'', hfails, heq⟩ := Option.map_eq_some_iff.mp h
    cases heq
    refine .read ?_
    cases l <;> cases hfails <;> exact trivial
  | totals | powerRows | firstEpoch =>
    obtain ⟨l'', hanswered, heq⟩ := Option.map_eq_some_iff.mp h
    cases heq
    exact .read (statsAnswered_step hl hanswered)

/-! ### Runs -/

/-- Epochs go on, and in those that have closed no vote is cast any more. -/
structure ChainKept (cfg : EpochAnchor) (w w' : StatsWorld) : Prop where
  epoch : w.epoch ≤ w'.epoch
  closed : ∀ epoch, epoch < w.epoch → upTo cfg w'.chain epoch = upTo cfg w.chain epoch

theorem ChainKept.votesIn_eq (h : ChainKept cfg w w') (hlt : epoch < w.epoch) :
    votesIn cfg w'.chain epoch = votesIn cfg w.chain epoch := by
  rw [← votesIn_upTo, h.closed epoch hlt, votesIn_upTo]

theorem ChainKept.votersIn_eq (h : ChainKept cfg w w') (hlt : epoch < w.epoch) :
    votersIn cfg w'.chain epoch = votersIn cfg w.chain epoch := by
  rw [← votersIn_upTo, h.closed epoch hlt, votersIn_upTo]

theorem Exact.mono (hrow : Exact cfg snapshot w.chain row) (h : ChainKept cfg w w')
    (hlt : row.epoch < w.epoch) : Exact cfg snapshot w'.chain row := by
  refine ⟨?_, ?_, ?_⟩
  · rw [h.votesIn_eq hlt]
    exact hrow.votesCast
  · rw [h.votersIn_eq hlt]
    exact hrow.recentlyVoting
  · rw [h.votersIn_eq hlt]
    exact hrow.silent

theorem RightVoters.mono (hright : RightVoters cfg w.chain epoch voters) (h : ChainKept cfg w w')
    (hlt : epoch < w.epoch) : RightVoters cfg w'.chain epoch voters := by
  rw [RightVoters, h.votersIn_eq hlt]
  exact hright

theorem Closed.later (hclosed : Closed w b epochs) (h : ChainKept cfg w w') : Closed w' b epochs :=
  ⟨hclosed.1.trans h.epoch, hclosed.2⟩

theorem StatsAsserts.mono (hl : StatsAsserts cfg snapshot w l) (h : ChainKept cfg w w') :
    StatsAsserts cfg snapshot w' l := by
  have hjob : ∀ {job : StatsJob}, JobClosed w job → JobClosed w' job := fun hjob pass hpass =>
    (hjob pass hpass).later h
  have hlt : ∀ {job : StatsJob}, JobClosed w job → job.insert.isSome = true → job.epoch < w.epoch :=
    fun hjob hinsert => (hjob _ (Option.get_mem hinsert)).lt
  cases l with
  | unswept | voters => exact hjob hl
  | votes =>
    exact ⟨hjob hl.1, fun hinsert hswept => (hl.2 hinsert hswept).mono h (hlt hl.1 hinsert)⟩
  | writing job row =>
    obtain ⟨hclosed, hepoch, hmarked⟩ := hl
    refine ⟨hjob hclosed, hepoch, fun hcomplete => ?_⟩
    obtain ⟨hinsert, hexact⟩ := hmarked hcomplete
    exact ⟨hinsert, hexact.mono h (hepoch ▸ hlt hclosed hinsert)⟩
  | backfill | listing | floor | storedEpochs => exact le_trans hl h.epoch
  | repairVotes | insertRows | insertTotals => exact Closed.later hl h
  | repairVoters => exact ⟨hl.1.later h, hl.2.trans (h.votesIn_eq hl.1.lt).symm⟩
  | repairStored | repairFetch | repairWrite =>
    exact ⟨hl.1.later h, hl.2.1.trans (h.votesIn_eq hl.1.lt).symm, hl.2.2.mono h hl.1.lt⟩
  | live | liveTotals | liveDone | done | failed => exact trivial

theorem statsEnv_step (hw : StatsSafe cfg snapshot w) (h : StatsEnv cfg w w') :
    StatsSafe cfg snapshot w' ∧ ChainKept cfg w w' ∧ w'.db.stats = w.db.stats := by
  cases h with
  | cast v hnew hfrom huntil =>
    have hkept : ChainKept cfg w { w with chain := w.chain ++ [v] } := by
      refine ⟨le_rfl, fun epoch hlt => ?_⟩
      have hlate : ¬v.blockTime < cfg.epochStartUnix (epoch + 1) := by
        rw [EpochAnchor.epochStartUnix, EpochAnchor.length] at *
        omega
      rw [upTo, List.filter_append, List.filter_singleton, decide_eq_false hlate]
      exact List.append_nil _
    refine ⟨⟨List.nodup_append.mpr ⟨hw.chain, List.nodup_singleton _, ?_⟩, fun u hu => ?_,
      fun u hu => List.mem_append_left _ (hw.stored u hu), fun row hrow hcomplete => ?_⟩,
      hkept, rfl⟩
    · rintro a ha b hb rfl
      exact hnew (List.mem_singleton.mp hb ▸ ha)
    · rcases List.mem_append.mp hu with hu | hu
      · exact hw.cast u hu
      · exact List.mem_singleton.mp hu ▸ huntil
    · obtain ⟨hlt, hexact⟩ := hw.complete row hrow hcomplete
      exact ⟨hlt, hexact.mono hkept hlt⟩
  | roll epoch hle =>
    refine ⟨⟨hw.chain, fun v hv => lt_of_lt_of_le (hw.cast v hv) ?_, hw.stored,
      fun row hrow hcomplete => ?_⟩, ⟨hle, fun _ _ => rfl⟩, rfl⟩
    · rw [EpochAnchor.epochStartUnix, EpochAnchor.epochStartUnix, EpochAnchor.length]
      dsimp only
      omega
    · obtain ⟨hlt, hexact⟩ := hw.complete row hrow hcomplete
      exact ⟨hlt.trans_le hle, hexact⟩
  | sync votes history hshown =>
    exact ⟨⟨hw.chain, hw.cast, hshown, hw.complete⟩, ⟨le_rfl, fun _ _ => rfl⟩, rfl⟩
  | sweep | powers =>
    exact ⟨⟨hw.chain, hw.cast, hw.stored, hw.complete⟩, ⟨le_rfl, fun _ _ => rfl⟩, rfl⟩

variable (cfg snapshot)

def statsSound :
    (statsProgram cfg).SoundWhen (statsSettled cfg snapshot) (StatsInit cfg snapshot) where
  inv := StatsSafe cfg snapshot
  asserts := StatsAsserts cfg snapshot
  apart _ _ := True
  symm _ _ _ := trivial
  init _ h := h
  start w l _ _ h := by
    refine ⟨?_, fun _ _ => trivial⟩
    cases h with
    | live => exact trivial
    | backfill currentEpoch budget hle => exact hle
  step w l w' l' _ hmover hw hl h := by
    obtain ⟨event, h⟩ := h
    obtain ⟨⟨db', l''⟩, hstep, heq⟩ := Option.map_eq_some_iff.mp h
    cases heq
    have hdone := statsStep_step hw hl hmover hstep
    exact ⟨hw.step hdone, hdone.asserts⟩
  noninterference w l w' l' m _ hmover _ hw hl hm _ h := by
    obtain ⟨event, h⟩ := h
    obtain ⟨⟨db', l''⟩, hstep, heq⟩ := Option.map_eq_some_iff.mp h
    cases heq
    exact ⟨hm, trivial⟩
  env w w' _ hw h := by
    obtain ⟨hw', hkept, -⟩ := statsEnv_step hw h
    exact ⟨hw', fun m hm => hm.mono hkept⟩

variable {ι : Type*} [DecidableEq ι]

abbrev settledStats (ι : Type*) [DecidableEq ι] :=
  ((statsProgram cfg).system ι (StatsInit cfg snapshot)).restrict (statsSettled cfg snapshot).Met

variable {cfg snapshot}

theorem moves_rowsKept {s s' : Interleaved StatsWorld StatsProc ι} {move : Move ι}
    (hs : (settledStats cfg snapshot ι).Reachable s)
    (h : (settledStats cfg snapshot ι).Step s move s') :
    StatsRowsKept s.shared.db.stats s'.shared.db.stats := by
  obtain ⟨hinv, hasserts, -⟩ := (statsSound cfg snapshot).holds hs
  obtain ⟨hmet, hmoves⟩ := h
  rcases hmoves with - | ⟨hproc, event, hmoved⟩ | henv
  · exact .refl _
  · obtain ⟨⟨db', l'⟩, hstep, heq⟩ := Option.map_eq_some_iff.mp hmoved
    cases heq
    exact (statsStep_step hinv (hasserts _ _ hproc) (hmet.2 _ hproc).1 hstep).kept
  · rw [(statsEnv_step hinv henv).2.2]
    exact .refl _

theorem StatsRowsKept.trans {stats stats' stats'' : EpochStatsTable}
    (h : StatsRowsKept stats stats') (h' : StatsRowsKept stats' stats'') :
    StatsRowsKept stats stats'' := by
  intro row hrow
  obtain ⟨row', hrow', hepoch, hcomplete, htreasury⟩ := h row hrow
  obtain ⟨row'', hrow'', hepoch', hcomplete', htreasury'⟩ := h' row' hrow'
  exact ⟨row'', hrow'', hepoch'.trans hepoch, hcomplete' ∘ hcomplete, htreasury' ∘ htreasury⟩

instance (w : StatsWorld) (epoch : ℤ) : Decidable (AllStored cfg w epoch) :=
  List.decidableBAll _ _

instance (w : StatsWorld) (epoch : ℤ) : Decidable (StoredOnce cfg w epoch) :=
  inferInstanceAs (Decidable (List.Nodup _))

instance (history : List EpochHistoryInput) (epoch : ℤ) :
    Decidable (AtHand snapshot history epoch) :=
  inferInstanceAs (Decidable (_ ∧ _))

instance (w : StatsWorld) : DecidablePred ((statsSettled cfg snapshot).mover w)
  | .repairVotes _ _ _ | .repairVoters _ _ _ _ => inferInstanceAs (Decidable (_ ∧ _))
  | .repairWrite _ epoch _ _ _ history =>
    inferInstanceAs (Decidable (AtHand snapshot history epoch))
  | .voters _ _ | .votes _ _ _ => inferInstanceAs (Decidable (_ → _ → _ ∧ _))
  | .writing job _ => inferInstanceAs (Decidable (job.insert = none → ∀ row ∈ w.db.stats.rows,
      row.epoch = job.epoch → row.voteDataComplete = false))
  | .live _ | .liveTotals _ _ | .unswept _ | .backfill _ | .listing _ | .repairStored _ _ _ _ _ |
    .repairFetch _ _ _ _ _ | .floor _ | .storedEpochs _ _ | .insertRows _ _ | .insertTotals _ _ _ |
    .liveDone _ | .done _ _ _ | .failed => isTrue trivial

def sampleAnchor : EpochAnchor := ⟨0, 0⟩

def samplePowers : List EpochHistoryInput := [⟨"drep1", 7, none⟩]

def samplePowerSnapshot (epoch : ℤ) : List EpochHistoryInput :=
  if epoch = 5 then samplePowers else []

def sampleStats : StatsWorld where
  db := ⟨.empty, .empty, [], [(5, ⟨"drep1", 7, none⟩)], .empty⟩
  epoch := 5
  chain := []

def sampleLivePass : List (ℕ × StatsEvent) :=
  [(0, .statement), (0, .totals (some 9)), (0, .statement), (0, .statement), (0, .statement),
    (0, .statement)]

def sampleLiveStart : Interleaved StatsWorld StatsProc ℕ :=
  ⟨sampleStats, Function.update (fun _ => none) 0 (some (.live 5))⟩

def sampleLive : Interleaved StatsWorld StatsProc ℕ :=
  (Program.run ((statsSettled sampleAnchor samplePowerSnapshot).checked (statsMove sampleAnchor))
    sampleLivePass sampleLiveStart).get (by decide +kernel)

def sampleCastVote : CastVote := ⟨"ga1", "DRep", "drep1", 2160010⟩

def sampleVoteRow : VoteRow where
  gaId := "ga1"
  voterRole := "DRep"
  voterId := "drep1"
  voterHex := none
  vote := "Yes"
  metaUrl := none
  metaHash := none
  blockTime := some 2160010
  syncedAt := 0
  votedPower := none
  localStatus := none
  txHash := none

def StatsWorld.storeVote (w : StatsWorld) : StatsWorld :=
  { w with db := { w.db with votes := ⟨[sampleVoteRow], List.nodup_singleton _⟩ } }

def sampleRolled : StatsWorld :=
  { sampleLive.shared with epoch := 6, chain := [sampleCastVote] }

def sampleBackfillStart (w : StatsWorld) : Interleaved StatsWorld StatsProc ℕ :=
  ⟨w, Function.update sampleLive.procs 1 (some (.backfill ⟨6, 0, 0⟩))⟩

def sampleBackfillPass : List (ℕ × StatsEvent) := List.replicate 6 (1, .statement)

/-- The backfill has run once the vote is stored, ... -/
def sampleInTime : Interleaved StatsWorld StatsProc ℕ :=
  (Program.run ((statsSettled sampleAnchor samplePowerSnapshot).checked (statsMove sampleAnchor))
    sampleBackfillPass (sampleBackfillStart sampleRolled.storeVote)).get (by decide +kernel)

def sampleEarly : Interleaved StatsWorld StatsProc ℕ :=
  (Program.run (statsMove sampleAnchor) sampleBackfillPass
    (sampleBackfillStart sampleRolled)).get (by decide +kernel)

def sampleLate : Interleaved StatsWorld StatsProc ℕ :=
  ⟨sampleEarly.shared.storeVote, sampleEarly.procs⟩

theorem statsMove_moves (event : StatsEvent) (w : StatsWorld) (l : StatsProc) (w' : StatsWorld)
    (l' : StatsProc) (h : statsMove cfg event w l = some (w', l')) :
    (statsProgram cfg).Step w l w' l' :=
  ⟨event, h⟩

theorem sampleRolled_reachable :
    (settledStats sampleAnchor samplePowerSnapshot ℕ).Reachable
      ⟨sampleRolled, sampleLive.procs⟩ := by
  have h₀ : (settledStats sampleAnchor samplePowerSnapshot ℕ).Reachable
      ⟨sampleStats, fun _ => none⟩ :=
    .init ⟨⟨List.nodup_nil, by decide, by decide,
      nofun⟩, fun _ => rfl⟩
  have h₁ := Program.reachable_start h₀ (i := 0) trivial rfl (StatsStart.live 5 le_rfl)
  have h₂ := Program.reachable_runChecked (fun _ => trivial) (fun _ _ _ => trivial) statsMove_moves
    h₁ sampleLivePass (by decide +kernel)
  have h₃ := Program.reachable_env h₂ trivial
    (StatsEnv.cast sampleCastVote (by decide +kernel) (by decide +kernel) (by decide +kernel))
  exact Program.reachable_env h₃ trivial (StatsEnv.roll 6 (by decide +kernel))

end DrepTalk
