import DrepTalk.Notifications.FanoutRuns
import DrepTalk.Library.RankedRun

/-!
# One fan-out run with an allowance

A `runFanout` invocation alone with the tables: nobody else adds jobs or changes followers while
it runs. Its statements are counted as the counting database counts them (`countedQueries`), a
batch as one query for each statement in it, and independently of what the invocation makes of
its allowance.

**The books balance** (`Accounted`). What the invocation takes for the rest of its allowance is
what it has not issued. A page is only read where the allowance covers a full one, and what has
been read has at most as many rows, so there is room for its batch.

**Nothing is left behind** (`OpenAmong`). A run that stops without deferring has listed every
open job in its last pass, and completed every one it took up.
-/

namespace DrepTalk

/-- An invocation alone with its tables, and the counted queries it has issued. -/
structure FanoutAlone where
  db : FanoutDb
  proc : FanoutProc
  issued : ℕ

/-- The counted queries of a step: the listing of a pass, the follower select of a page, or the
statements of its batch, whether they commit or not. -/
def countedQueries (draw : ℕ → String) (dbNow : ℤ) : FanoutProc → ℕ
  | .pass run => if run.budget.covers (1 + fanoutPageCost run.pageSize) then 1 else 0
  | .jobs _ [] _ _ => 0
  | .jobs run (_ :: _) _ _ => if run.budget.covers (fanoutPageCost run.pageSize) then 1 else 0
  | .page _ job followers _ _ _ => (buildNotificationPage job draw dbNow followers).length + 1
  | .returned _ | .threw => 0

/-- A step; the ids it draws and the database clock it reads come from outside. -/
def aloneStep (outside : ℕ → (ℕ → String) × ℤ) (n : ℕ) (s : FanoutAlone) : Option FanoutAlone :=
  (fanoutStep (outside n).1 (outside n).2 s.db s.proc).map fun next =>
    ⟨next.1, next.2, s.issued + countedQueries (outside n).1 (outside n).2 s.proc⟩

/-- The start of an invocation with that allowance. -/
def aloneStart (db : FanoutDb) (now : ℤ) (pageSize : ℕ) (limit : ℤ) : FanoutAlone :=
  ⟨db, .pass ⟨now, pageSize, some limit, [], 0, 0⟩, 0⟩

/-- The invocation has returned or thrown. -/
def FanoutProc.Ended : FanoutProc → Prop
  | .returned _ | .threw => True
  | _ => False

variable {outside : ℕ → (ℕ → String) × ℤ} {s : FanoutAlone}

theorem ended_of_aloneStep {n : ℕ} (h : aloneStep outside n s = none) : s.proc.Ended := by
  have hstep := Option.map_eq_none_iff.mp h
  rcases hproc : s.proc with run | ⟨run, toProcess, truncated, all⟩ |
    ⟨run, job, followers, toProcess, truncated, all⟩ | result | _
  · rw [hproc, fanoutStep] at hstep
    cases hstep
  · rw [hproc, fanoutStep] at hstep
    cases hstep
  · rw [hproc, fanoutStep] at hstep
    rcases hbatch : pageBatch s.db job followers run.pageSize run.now (outside n).1 (outside n).2
      with _ | db
    · rw [hbatch] at hstep
      cases hstep
    · rw [hbatch] at hstep
      cases hstep
  · trivial
  · trivial

theorem aloneStep_of_ended (n : ℕ) (h : s.proc.Ended) : aloneStep outside n s = none := by
  rw [aloneStep, Option.map_eq_none_iff]
  rcases hproc : s.proc with run | ⟨run, toProcess, truncated, all⟩ |
    ⟨run, job, followers, toProcess, truncated, all⟩ | result | _
  · exact absurd h (by rw [hproc]; exact not_false)
  · exact absurd h (by rw [hproc]; exact not_false)
  · exact absurd h (by rw [hproc]; exact not_false)
  · rfl
  · rfl

/-! ### Queries -/

theorem chunkCount_mono {rows rows' : ℕ} (h : rows ≤ rows') : chunkCount rows ≤ chunkCount rows' :=
  Nat.div_le_div_right (by omega)

theorem length_selectFollowers_le (follows : FollowTable) (job : FanoutJobRow) (pageSize : ℕ) :
    (selectFollowers follows job pageSize).length ≤ pageSize := by
  rw [selectFollowers, pageAfter, List.length_take]
  exact Nat.min_le_left _ _

/-- The rest of the allowance is what has not been issued, and no more has been issued than it
allows. -/
structure Accounted (limit : ℤ) (issued : ℕ) (run : FanoutRun) : Prop where
  budget_eq : run.budget = some (limit - issued)
  issued_le : issued ≤ limit.toNat

variable {limit : ℤ} {issued : ℕ} {run : FanoutRun}

theorem Accounted.room {cost : ℕ} (h : Accounted limit issued run)
    (hcovers : run.budget.covers cost = true) :
    (issued : ℤ) + cost ≤ limit := by
  rw [h.budget_eq] at hcovers
  have hle : (cost : ℤ) ≤ limit - issued := of_decide_eq_true hcovers
  omega

theorem Accounted.spend {queries : ℕ} {run' : FanoutRun} (h : Accounted limit issued run)
    (hroom : (issued : ℤ) + queries ≤ limit) (hrun : run'.budget = run.budget.spend queries) :
    Accounted limit (issued + queries) run' := by
  refine ⟨?_, by omega⟩
  rw [hrun, h.budget_eq, Allowance.spend, Option.map_some]
  congr 1
  omega

def FanoutRun.queriesLeft (run : FanoutRun) : ℕ := (run.budget.getD 0).toNat

theorem Accounted.queriesLeft_eq (h : Accounted limit issued run) :
    run.queriesLeft = (limit - issued).toNat := by
  rw [FanoutRun.queriesLeft, h.budget_eq, Option.getD_some]

/-! ### Open jobs -/

def OpenAmong (jobs : JobTable) (toProcess : List FanoutJobRow) : Prop :=
  ∀ job ∈ jobs.rows, job.completedAt = none → job.eventKey ∈ toProcess.map (·.eventKey)

variable {jobs : JobTable} {job : FanoutJobRow}

theorem mem_listOpenJobs_of_short {limit : ℕ} (hshort : (listOpenJobs jobs limit).length < limit)
    (hmem : job ∈ jobs.rows) (hopen : job.completedAt = none) : job ∈ listOpenJobs jobs limit := by
  have hlisted : job ∈ (jobs.rows.filter fun job => job.completedAt.isNone).insertionSort
      jobBefore :=
    (List.mem_insertionSort jobBefore).mpr
      (List.mem_filter.mpr ⟨hmem, Option.isNone_iff_eq_none.mpr hopen⟩)
  rw [listOpenJobs, List.length_take] at hshort
  rwa [listOpenJobs, List.take_of_length_le (by omega)]

variable {followers : List String}

theorem open_of_pageStep {row' : FanoutJobRow} {pageSize : ℕ} {now : ℤ}
    (h : row' ∈ (pageStep jobs job followers pageSize now).rows) (hopen : row'.completedAt = none) :
    (∃ row ∈ jobs.rows, row.eventKey = row'.eventKey ∧ row.completedAt = none) ∧
      (followers.length < pageSize → row'.eventKey ≠ job.eventKey) := by
  rw [pageStep] at h
  split_ifs at h with hshort
  · rcases Table.mem_updateWhere.mp h with ⟨hmem, hother⟩ | ⟨row, -, -, rfl⟩
    · exact ⟨⟨row', hmem, rfl, hopen⟩, fun _ => beq_eq_false_iff_ne.mp hother⟩
    · cases hopen
  · rcases Table.mem_updateWhere.mp h with ⟨hmem, -⟩ | ⟨row, hmem, -, rfl⟩
    · exact ⟨⟨row', hmem, rfl, hopen⟩, fun h => absurd h hshort⟩
    · exact ⟨⟨row, hmem, rfl, hopen⟩, fun h => absurd h hshort⟩

variable {toProcess : List FanoutJobRow}

theorem OpenAmong.pageStep {pageSize : ℕ} (h : OpenAmong jobs (job :: toProcess))
    (hshort : followers.length < pageSize) (now : ℤ) :
    OpenAmong (pageStep jobs job followers pageSize now) toProcess := by
  intro row' hrow' hopen
  obtain ⟨⟨row, hrow, hkey, hopenRow⟩, hother⟩ := open_of_pageStep hrow' hopen
  have hlisted := h row hrow hopenRow
  rw [List.map_cons, List.mem_cons, hkey] at hlisted
  exact hlisted.resolve_left (hother hshort)

/-! ### The invariant -/

/-- What holds of an invocation, where it stands. -/
def AloneInv (limit : ℤ) (s : FanoutAlone) : Prop :=
  match s.proc with
  | .pass run => Accounted limit s.issued run
  | .jobs run toProcess truncated allCompleted =>
    Accounted limit s.issued run ∧
      (truncated = false → allCompleted = true → OpenAmong s.db.jobs toProcess)
  | .page run job followers toProcess truncated allCompleted =>
    Accounted limit s.issued run ∧ (s.issued : ℤ) + (chunkCount followers.length + 1 : ℕ) ≤ limit ∧
      (truncated = false → allCompleted = true → OpenAmong s.db.jobs (job :: toProcess))
  | .returned result =>
    s.issued ≤ limit.toNat ∧ (result.deferred = false → OpenAmong s.db.jobs [])
  | .threw => s.issued ≤ limit.toNat

/-- An upper bound for the steps to come: two for each query that is left. -/
def stepsLeft (s : FanoutAlone) : ℕ :=
  match s.proc with
  | .pass run => 2 * run.queriesLeft + 1
  | .jobs run _ _ _ => 2 * run.queriesLeft + 2
  | .page run _ _ _ _ _ => 2 * run.queriesLeft + 3
  | .returned _ | .threw => 0

theorem AloneInv.issued_le (h : AloneInv limit s) :
    s.issued ≤ limit.toNat := by
  rw [AloneInv] at h
  rcases hproc : s.proc with run | ⟨run, toProcess, truncated, all⟩ |
    ⟨run, job, followers, toProcess, truncated, all⟩ | result | _ <;>
    simp only [hproc] at h
  · exact h.issued_le
  · exact h.1.issued_le
  · exact h.1.issued_le
  · exact h.1
  · exact h

variable {db : FanoutDb}

theorem fanoutPass_alone (h : Accounted limit issued run) (draw : ℕ → String) (dbNow : ℤ) :
    let s' : FanoutAlone := ⟨db, fanoutPass db run, issued + countedQueries draw dbNow (.pass run)⟩
    AloneInv limit s' ∧ stepsLeft s' < stepsLeft ⟨db, .pass run, issued⟩ := by
  rw [fanoutPass, countedQueries]
  dsimp only
  by_cases hcovers : run.budget.covers (1 + fanoutPageCost run.pageSize) = true
  · rw [if_neg (by simp [hcovers]), if_pos hcovers]
    have hroom := h.room hcovers
    have hroom' : (issued : ℤ) + (1 : ℕ) ≤ limit := by omega
    have hspent : Accounted limit (issued + 1) { run with budget := run.budget.spend 1 } :=
      h.spend hroom' rfl
    split_ifs with hempty
    · refine ⟨⟨hspent.issued_le, fun _ job hmem hopen => ?_⟩, Nat.succ_pos _⟩
      -- where nothing is listed nothing is open
      have hlisted := mem_listOpenJobs_of_short (by rw [hempty]; exact Nat.succ_pos _) hmem hopen
      exact absurd hempty (List.length_pos_of_mem hlisted).ne'
    · refine ⟨⟨hspent, fun htruncated _ job hmem hopen => ?_⟩, ?_⟩
      · have hle := not_lt.mp (of_decide_eq_false htruncated)
        have hlisted := mem_listOpenJobs_of_short (Nat.lt_succ_of_le hle) hmem hopen
        rw [List.take_of_length_le hle]
        exact List.mem_map_of_mem hlisted
      · change 2 * FanoutRun.queriesLeft _ + 2 < 2 * run.queriesLeft + 1
        rw [hspent.queriesLeft_eq, h.queriesLeft_eq]
        omega
  · rw [if_pos (by simp [hcovers]), if_neg hcovers]
    exact ⟨⟨h.issued_le, fun h => by cases h⟩, Nat.succ_pos _⟩

variable {truncated allCompleted : Bool}

theorem fanoutJobs_alone
    (h : AloneInv limit ⟨db, .jobs run toProcess truncated allCompleted, issued⟩)
    (draw : ℕ → String) (dbNow : ℤ) : let s' : FanoutAlone := ⟨db, fanoutJobs db run truncated allCompleted toProcess,
      issued + countedQueries draw dbNow (.jobs run toProcess truncated allCompleted)⟩
    AloneInv limit s' ∧
      stepsLeft s' < stepsLeft ⟨db, .jobs run toProcess truncated allCompleted, issued⟩ := by
  obtain ⟨hrun, hopen⟩ := h
  change Accounted limit issued run at hrun
  rcases toProcess with _ | ⟨job, toProcess⟩
  · rw [fanoutJobs, countedQueries]
    dsimp only
    split_ifs with hdone
    · rw [Bool.and_eq_true, Bool.not_eq_true'] at hdone
      exact ⟨⟨hrun.issued_le, fun _ => hopen hdone.1 hdone.2⟩, Nat.succ_pos _⟩
    · exact ⟨hrun, Nat.lt_succ_self _⟩
  · rw [fanoutJobs, countedQueries]
    dsimp only
    by_cases hcovers : run.budget.covers (fanoutPageCost run.pageSize) = true
    · rw [if_neg (by simp [hcovers]), if_pos hcovers]
      have hroom := hrun.room hcovers
      rw [fanoutPageCost] at hroom
      have hspent : Accounted limit (issued + 1) { run with
          touchedJobs := run.touchedJobs.insert job.eventKey
          budget := run.budget.spend 1 } :=
        hrun.spend (by omega) rfl
      split_ifs with hempty
      · exact ⟨hspent.issued_le, Nat.succ_pos _⟩
      · refine ⟨⟨hspent, ?_, hopen⟩, ?_⟩
        · -- the page has at most as many rows as were asked for
          have hchunks := chunkCount_mono (length_selectFollowers_le db.follows job run.pageSize)
          change ((issued + 1 : ℕ) : ℤ) + (chunkCount _ + 1 : ℕ) ≤ limit
          omega
        · change 2 * FanoutRun.queriesLeft _ + 3 < 2 * run.queriesLeft + 2
          rw [hspent.queriesLeft_eq, hrun.queriesLeft_eq]
          omega
    · rw [if_pos (by simp [hcovers]), if_neg hcovers]
      exact ⟨⟨hrun.issued_le, fun h => by cases h⟩, Nat.succ_pos _⟩

theorem pageBatch_alone {db' : FanoutDb} {draw : ℕ → String} {dbNow : ℤ}
    (h : AloneInv limit ⟨db, .page run job followers toProcess truncated allCompleted, issued⟩)
    (hbatch : pageBatch db job followers run.pageSize run.now draw dbNow = some db')
    (delivered : ℕ) : let s' : FanoutAlone := ⟨db', .jobs (run.afterPage followers delivered) toProcess truncated
      (allCompleted && decide (followers.length < run.pageSize)),
      issued + (chunkCount followers.length + 1)⟩
    AloneInv limit s' ∧
      stepsLeft s' < stepsLeft ⟨db, .page run job followers toProcess truncated allCompleted,
        issued⟩ := by
  obtain ⟨hrun, hroom, hopen⟩ := h
  change Accounted limit issued run at hrun
  have hspent : Accounted limit (issued + (chunkCount followers.length + 1))
      (run.afterPage followers delivered) := hrun.spend hroom rfl
  refine ⟨⟨hspent, fun htruncated hall => ?_⟩, ?_⟩
  · rw [Bool.and_eq_true, decide_eq_true_eq] at hall
    obtain ⟨-, -, -, hjobs⟩ := events_of_pageBatch hbatch
    rw [hjobs]
    exact (hopen htruncated hall.1).pageStep hall.2 run.now
  · change 2 * FanoutRun.queriesLeft _ + 2 < 2 * run.queriesLeft + 3
    rw [hspent.queriesLeft_eq, hrun.queriesLeft_eq]
    omega

theorem aloneStep_inv (n : ℕ) (s s' : FanoutAlone) (h : AloneInv limit s)
    (hstep : aloneStep outside n s = some s') :
    AloneInv limit s' ∧ stepsLeft s' < stepsLeft s := by
  obtain ⟨db, proc, issued⟩ := s
  obtain ⟨⟨db', proc'⟩, hnext, rfl⟩ := Option.map_eq_some_iff.mp hstep
  rcases proc with run | ⟨run, toProcess, truncated, all⟩ |
    ⟨run, job, followers, toProcess, truncated, all⟩ | result | _
  · cases hnext
    exact fanoutPass_alone h _ _
  · cases hnext
    exact fanoutJobs_alone h _ _
  · rw [fanoutStep] at hnext
    dsimp only [countedQueries]
    rw [buildNotificationPage, List.length_map, List.length_range]
    rcases hbatch : pageBatch db job followers run.pageSize run.now (outside n).1 (outside n).2
      with _ | db₁
    · -- a batch that fails has been counted all the same
      rw [hbatch] at hnext
      cases hnext
      have hroom : (issued : ℤ) + (chunkCount followers.length + 1 : ℕ) ≤ limit := h.2.1
      refine ⟨?_, Nat.succ_pos _⟩
      change issued + (chunkCount followers.length + 1) ≤ limit.toNat
      omega
    · rw [hbatch] at hnext
      cases hnext
      exact pageBatch_alone h hbatch _
  · cases hnext
  · cases hnext

/-- **A run within its allowance** returns or throws, after at most two steps for each query it is
allowed and one more; where it returns without deferring, no job is open. -/
theorem runFanout_alone (db : FanoutDb) (now : ℤ) (pageSize : ℕ) (limit : ℤ)
    (outside : ℕ → (ℕ → String) × ℤ) :
    (runSteps (aloneStep outside) (aloneStart db now pageSize limit)
        (2 * limit.toNat + 1)).proc.Ended ∧
      ∀ n, let s := runSteps (aloneStep outside) (aloneStart db now pageSize limit) n
        s.issued ≤ limit.toNat ∧ ∀ result, s.proc = .returned result → result.deferred = false →
          ∀ job ∈ s.db.jobs.rows, job.completedAt ≠ none := by
  have hstart : AloneInv limit (aloneStart db now pageSize limit) := by
    refine ⟨?_, Nat.zero_le _⟩
    exact congrArg some (Int.sub_zero limit).symm
  refine ⟨?_, fun n => ?_⟩
  · have hstops : ∀ n m s, aloneStep outside n s = none → aloneStep outside m s = none :=
      fun n m s h => aloneStep_of_ended m (ended_of_aloneStep h)
    exact ended_of_aloneStep (runSteps_stops hstart aloneStep_inv hstops 0)
  · have hkeeps : ∀ n s s', AloneInv limit s → aloneStep outside n s = some s' →
        AloneInv limit s' := fun n s s' h hstep => (aloneStep_inv n s s' h hstep).1
    have hinv := runSteps_invariant hstart hkeeps n
    refine ⟨hinv.issued_le, fun result hproc hdeferred job hmem hopen => ?_⟩
    rw [AloneInv, hproc] at hinv
    cases hinv.2 hdeferred job hmem hopen

end DrepTalk
