import DrepTalk.Notifications.FanoutAlone

/-!
# Whose turn it is

One `runFanout` invocation over any set of open jobs and with any allowance, while followers
change and jobs and notifications are added. For each job the run counts the pages it has had.

**The order of the listing is all the fairness there is.** A page moves its job behind the others
only if the clock has moved on since they were advanced: times are in seconds, and a run keeps
one time throughout. Jobs with equal times stand in the order of their event keys, so that in a
pass which cannot list them all the first of them may have its second page before the last has
its first (`not_runFanout_fair`).

**Where the listing puts those first that had fewer pages** (`InTurn`), a pass gives everybody a
page whom it puts before a job it serves, and no two counts come to differ by more than one.
-/

namespace DrepTalk

/-- An invocation, the jobs that were open when it started, and the pages each job has had. -/
structure FanoutTurns where
  db : FanoutDb
  proc : FanoutProc
  starters : List String
  pages : String → ℕ

def openKeys (jobs : JobTable) : List String :=
  (jobs.rows.filter fun job => job.completedAt.isNone).map (·.eventKey)

/-- A page is counted once its batch has committed. -/
def pagesAfter (pages : String → ℕ) : FanoutProc → FanoutProc → String → ℕ
  | .page _ job _ _ _ _, .jobs _ _ _ _ =>
    Function.update pages job.eventKey (pages job.eventKey + 1)
  | _, _ => pages

/-- Who takes a step: the invocation, or somebody else. -/
inductive TurnEvent
  | own
  | env

inductive TurnStep (s : FanoutTurns) : TurnEvent → FanoutTurns → Prop
  /-- The invocation takes a step. -/
  | own (draw : ℕ → String) (dbNow : ℤ) {db : FanoutDb} {proc : FanoutProc}
      (h : fanoutStep draw dbNow s.db s.proc = some (db, proc)) :
    TurnStep s .own ⟨db, proc, s.starters, pagesAfter s.pages s.proc proc⟩
  /-- Followers change, or jobs or notifications are added. -/
  | env {since since' : String → List FollowTable} {db : FanoutDb}
      (h : FanoutEnv ⟨s.db, since⟩ ⟨db, since'⟩) :
    TurnStep s .env { s with db }

def fanoutTurns : TransitionSystem FanoutTurns TurnEvent where
  Init s := s.proc.Starts ∧ s.starters = openKeys s.db.jobs ∧ s.pages = fun _ => 0
  Step := TurnStep

/-- The job was open before the run started, and still is. -/
def OpenThroughout (s : FanoutTurns) (eventKey : String) : Prop :=
  eventKey ∈ s.starters ∧ eventKey ∈ openKeys s.db.jobs

instance decidableOpenThroughout (s : FanoutTurns) (eventKey : String) :
    Decidable (OpenThroughout s eventKey) :=
  inferInstanceAs (Decidable (_ ∧ _))

/-- No second page before everybody's first, and no two counts that differ by more than one. -/
structure FairTurns (s : FanoutTurns) : Prop where
  second : ∀ eventKey eventKey', OpenThroughout s eventKey' → 2 ≤ s.pages eventKey →
    1 ≤ s.pages eventKey'
  within_one : ∀ eventKey eventKey', OpenThroughout s eventKey → OpenThroughout s eventKey' →
    s.pages eventKey ≤ s.pages eventKey' + 1

/-- The jobs a pass is about to serve. -/
def aboutToServe (s : FanoutTurns) : List FanoutJobRow :=
  match s.proc with
  | .pass run => listOpenJobs s.db.jobs (passLimit run.budget (fanoutPageCost run.pageSize))
  | _ => []

/-- Of the jobs a pass is about to serve, none stands before an open one that had fewer pages. -/
def InTurn (s : FanoutTurns) : Prop :=
  ∀ job ∈ aboutToServe s, ∀ job' ∈ s.db.jobs.rows, OpenThroughout s job'.eventKey →
    s.pages job'.eventKey < s.pages job.eventKey → jobBefore job' job

instance decidableInTurn (s : FanoutTurns) : Decidable (InTurn s) :=
  inferInstanceAs (Decidable (∀ job ∈ _, ∀ job' ∈ _, _ → _ → _))

/-- ... whenever the invocation takes a step. -/
def StepInTurn (s : FanoutTurns) : TurnEvent → Prop
  | .own => InTurn s
  | .env => True

/-! ### The listing -/

instance jobBefore_total : Std.Total jobBefore := ⟨fun a b => by
  rcases lt_trichotomy a.updatedAt b.updatedAt with h | h | h
  · exact .inl (.inl h)
  · exact (le_total a.eventKey b.eventKey).imp (fun hle => .inr ⟨h, hle⟩)
      fun hle => .inr ⟨h.symm, hle⟩
  · exact .inr (.inl h)⟩

instance jobBefore_trans : IsTrans _ jobBefore := ⟨fun a b c hab hbc => by
  rcases hab with hab | ⟨hab, hle⟩ <;> rcases hbc with hbc | ⟨hbc, hle'⟩
  · exact .inl (hab.trans hbc)
  · exact .inl (hbc ▸ hab)
  · exact .inl (hab ▸ hbc)
  · exact .inr ⟨hab.trans hbc, hle.trans hle'⟩⟩

variable {job job' : FanoutJobRow} {toProcess : List FanoutJobRow}

theorem eventKey_eq_of_jobBefore (h : jobBefore job job') (h' : jobBefore job' job) :
    job.eventKey = job'.eventKey := by
  rcases h with h | ⟨h, hle⟩ <;> rcases h' with h' | ⟨h', hle'⟩
  · exact absurd h' (lt_asymm h)
  · exact absurd h (h' ▸ lt_irrefl _)
  · exact absurd h' (h ▸ lt_irrefl _)
  · exact le_antisymm hle hle'

theorem mem_openKeys {jobs : JobTable} {eventKey : String} : eventKey ∈ openKeys jobs ↔
    ∃ job ∈ jobs.rows, job.completedAt = none ∧ job.eventKey = eventKey := by
  rw [openKeys, List.mem_map]
  constructor
  · rintro ⟨job, hjob, hkey⟩
    obtain ⟨hmem, hopen⟩ := List.mem_filter.mp hjob
    exact ⟨job, hmem, Option.isNone_iff_eq_none.mp hopen, hkey⟩
  · rintro ⟨job, hmem, hopen, hkey⟩
    exact ⟨job, List.mem_filter.mpr ⟨hmem, Option.isNone_iff_eq_none.mpr hopen⟩, hkey⟩

theorem nodup_listOpenJobs (jobs : JobTable) (limit : ℕ) :
    ((listOpenJobs jobs limit).map (·.eventKey)).Nodup := by
  have hopen : ((jobs.rows.filter fun job => job.completedAt.isNone).map (·.eventKey)).Nodup :=
    jobs.unique.sublist (List.filter_sublist.map _)
  have hsorted := ((List.perm_insertionSort jobBefore _).map (·.eventKey)).nodup_iff.mpr hopen
  exact hsorted.sublist ((List.take_sublist limit _).map _)

theorem listed_before {jobs : JobTable} {limit : ℕ} {before behind : List FanoutJobRow}
    (hlist : listOpenJobs jobs limit = before ++ job :: behind) (hmem : job' ∈ jobs.rows)
    (hopen : job'.completedAt = none) (hbefore : jobBefore job' job)
    (hne : job'.eventKey ≠ job.eventKey) : job' ∈ before := by
  have hsorted := List.pairwise_insertionSort jobBefore
    (jobs.rows.filter fun job => job.completedAt.isNone)
  have hin : job' ∈ (jobs.rows.filter fun job => job.completedAt.isNone).insertionSort jobBefore :=
    (List.mem_insertionSort jobBefore).mpr
      (List.mem_filter.mpr ⟨hmem, Option.isNone_iff_eq_none.mpr hopen⟩)
  rw [listOpenJobs] at hlist
  rw [← List.take_append_drop limit (List.insertionSort jobBefore _), hlist,
    List.append_assoc, List.cons_append] at hsorted hin
  rcases List.mem_append.mp hin with hin | hin
  · exact hin
  · -- whoever stands behind the job has its event or does not stand before it
    rcases List.mem_cons.mp hin with rfl | hin
    · exact absurd rfl hne
    · have hafter := (List.pairwise_cons.mp (List.pairwise_append.mp hsorted).2.1).1 job' hin
      exact absurd (eventKey_eq_of_jobBefore hbefore hafter) hne

/-! ### The invariant -/

/-- Nobody has had two pages more than a job that was open throughout. -/
def Balanced (s : FanoutTurns) : Prop :=
  ∀ eventKey eventKey', OpenThroughout s eventKey' → s.pages eventKey ≤ s.pages eventKey' + 1

/-- What is left of a pass: the jobs are different ones, and before each of them stands every open
one that has had fewer pages. -/
structure LeftInTurn (s : FanoutTurns) (toProcess : List FanoutJobRow) : Prop where
  nodup : (toProcess.map (·.eventKey)).Nodup
  fewer_before : ∀ before job behind, toProcess = before ++ job :: behind →
    ∀ eventKey, OpenThroughout s eventKey → s.pages eventKey < s.pages job.eventKey →
      eventKey ∈ before.map (·.eventKey)

/-- The jobs the pass under way has left to serve. -/
def leftToServe : FanoutProc → List FanoutJobRow
  | .jobs _ toProcess _ _ => toProcess
  | .page _ job _ toProcess _ _ => job :: toProcess
  | _ => []

structure TurnInv (s : FanoutTurns) : Prop where
  /-- The starters have rows. -/
  starters_mem : ∀ eventKey ∈ s.starters, eventKey ∈ s.db.jobs.rows.map (·.eventKey)
  balanced : Balanced s
  inTurn : LeftInTurn s (leftToServe s.proc)

section Kept

variable {s s' : FanoutTurns}

theorem Balanced.mono (h : Balanced s) (hpages : s'.pages = s.pages)
    (hopen : ∀ eventKey, OpenThroughout s' eventKey → OpenThroughout s eventKey) :
    Balanced s' := by
  intro eventKey eventKey' hkey
  rw [hpages]
  exact h eventKey eventKey' (hopen eventKey' hkey)

theorem LeftInTurn.mono (h : LeftInTurn s toProcess) (hpages : s'.pages = s.pages)
    (hopen : ∀ eventKey, OpenThroughout s' eventKey → OpenThroughout s eventKey) :
    LeftInTurn s' toProcess := by
  refine ⟨h.nodup, fun before job behind hsplit eventKey hkey hlt => ?_⟩
  rw [hpages] at hlt
  exact h.fewer_before before job behind hsplit eventKey (hopen eventKey hkey) hlt

theorem leftInTurn_nil : LeftInTurn s [] :=
  ⟨List.nodup_nil, fun _ _ _ hsplit =>
    absurd hsplit.symm (List.append_ne_nil_of_right_ne_nil _ (List.cons_ne_nil _ _))⟩

/-- **A page for the next job in turn** keeps the counts balanced, and the others in turn. -/
theorem LeftInTurn.served (h : LeftInTurn s (job :: toProcess)) (hbalanced : Balanced s)
    (hpages : s'.pages = Function.update s.pages job.eventKey (s.pages job.eventKey + 1))
    (hopen : ∀ eventKey, OpenThroughout s' eventKey → OpenThroughout s eventKey) :
    Balanced s' ∧ LeftInTurn s' toProcess := by
  have hnodup := h.nodup
  rw [List.map_cons, List.nodup_cons] at hnodup
  have hother : ∀ eventKey, eventKey ≠ job.eventKey → s'.pages eventKey = s.pages eventKey :=
    fun eventKey hne => by rw [hpages, Function.update_of_ne hne]
  have hown : s'.pages job.eventKey = s.pages job.eventKey + 1 := by
    rw [hpages, Function.update_self]
  have hle : ∀ eventKey, s.pages eventKey ≤ s'.pages eventKey := by
    intro eventKey
    by_cases hkey : eventKey = job.eventKey
    · rw [hkey, hown]
      exact Nat.le_succ _
    · exact (hother eventKey hkey).ge
  refine ⟨fun eventKey eventKey' hkey' => ?_, hnodup.2, ?_⟩
  · by_cases hkey : eventKey = job.eventKey
    · -- nobody stands before the job, so no open one has had fewer pages
      have hfewest : ¬s.pages eventKey' < s.pages job.eventKey := fun hlt =>
        List.not_mem_nil (h.fewer_before [] job toProcess rfl eventKey' (hopen _ hkey') hlt)
      have hle' := hle eventKey'
      rw [hkey, hown]
      omega
    · rw [hother eventKey hkey]
      exact (hbalanced eventKey eventKey' (hopen _ hkey')).trans
        (Nat.add_le_add_right (hle eventKey') 1)
  · rintro before job' behind rfl eventKey hkey hlt
    have hne : job'.eventKey ≠ job.eventKey := fun heq =>
      hnodup.1 (heq ▸ List.mem_map_of_mem (List.mem_append_right before List.mem_cons_self))
    rw [hother _ hne] at hlt
    have hlisted := h.fewer_before (job :: before) job' behind rfl eventKey (hopen _ hkey)
      ((hle eventKey).trans_lt hlt)
    rw [List.map_cons, List.mem_cons] at hlisted
    refine hlisted.resolve_left ?_
    -- the job itself has now had as many as anybody
    rintro rfl
    have hbound := hbalanced job'.eventKey job.eventKey (hopen _ hkey)
    omega

end Kept

/-! ### Steps -/

section Steps

variable {s s' : FanoutTurns}

theorem leftInTurn_listOpenJobs (hturn : InTurn s) {run : FanoutRun} (hproc : s.proc = .pass run) :
    LeftInTurn s (listOpenJobs s.db.jobs
      (passLimit run.budget (fanoutPageCost run.pageSize))) := by
  refine ⟨nodup_listOpenJobs _ _, fun before job behind hsplit eventKey hkey hlt => ?_⟩
  obtain ⟨job', hmem, hopen, rfl⟩ := mem_openKeys.mp hkey.2
  have hserve : job ∈ aboutToServe s := by
    rw [aboutToServe, hproc]
    change job ∈ listOpenJobs _ _
    rw [hsplit]
    exact List.mem_append_right before List.mem_cons_self
  have hne : job'.eventKey ≠ job.eventKey := fun heq => hlt.ne (congrArg s.pages heq)
  have hbefore := hturn job hserve job' hmem hkey hlt
  exact List.mem_map_of_mem (listed_before hsplit hmem hopen hbefore hne)

theorem leftToServe_fanoutPass (db : FanoutDb) (run : FanoutRun) :
    leftToServe (fanoutPass db run) = [] ∨ leftToServe (fanoutPass db run) =
      listOpenJobs db.jobs (passLimit run.budget (fanoutPageCost run.pageSize)) := by
  rw [fanoutPass]
  dsimp only
  split_ifs
  · exact .inl rfl
  · exact .inl rfl
  · right
    change (listOpenJobs _ _).take _ = listOpenJobs _ _
    rw [listOpenJobs, listOpenJobs, List.take_take, Nat.min_eq_left (Nat.le_succ _)]

theorem leftToServe_fanoutJobs (db : FanoutDb) (run : FanoutRun) (truncated allCompleted : Bool)
    (toProcess : List FanoutJobRow) :
    leftToServe (fanoutJobs db run truncated allCompleted toProcess) = [] ∨
      leftToServe (fanoutJobs db run truncated allCompleted toProcess) = toProcess := by
  rcases toProcess with _ | ⟨job, toProcess⟩
  · rw [fanoutJobs]
    split_ifs
    · exact .inl rfl
    · exact .inl rfl
  · rw [fanoutJobs]
    dsimp only
    split_ifs
    · exact .inl rfl
    · exact .inl rfl
    · exact .inr rfl

theorem TurnInv.quiet (h : TurnInv s) (hjobs : s'.db.jobs = s.db.jobs)
    (hstarters : s'.starters = s.starters) (hpages : s'.pages = s.pages)
    (hleft : leftToServe s'.proc = [] ∨ LeftInTurn s (leftToServe s'.proc)) : TurnInv s' := by
  have hopen : ∀ eventKey, OpenThroughout s' eventKey → OpenThroughout s eventKey := by
    intro eventKey hkey
    rwa [OpenThroughout, hstarters, hjobs] at hkey
  refine ⟨?_, h.balanced.mono hpages hopen, ?_⟩
  · rw [hstarters, hjobs]
    exact h.starters_mem
  · rcases hleft with hnone | hturn
    · exact hnone ▸ leftInTurn_nil
    · exact hturn.mono hpages hopen

variable {draw : ℕ → String} {db : FanoutDb}

theorem TurnInv.page (h : TurnInv s) {run : FanoutRun} {followers : List String}
    {truncated allCompleted : Bool} {dbNow : ℤ}
    (hproc : s.proc = .page run job followers toProcess truncated allCompleted)
    (hbatch : pageBatch s.db job followers run.pageSize run.now draw dbNow = some db)
    (hdb : s'.db = db) (hstarters : s'.starters = s.starters)
    (hpages : s'.pages = Function.update s.pages job.eventKey (s.pages job.eventKey + 1))
    (hleft : leftToServe s'.proc = toProcess) : TurnInv s' := by
  obtain ⟨-, -, -, hjobs⟩ := events_of_pageBatch hbatch
  rw [← hdb] at hjobs
  have hopen : ∀ eventKey, OpenThroughout s' eventKey → OpenThroughout s eventKey := by
    rintro eventKey ⟨hstart, hkey⟩
    refine ⟨hstarters ▸ hstart, ?_⟩
    obtain ⟨row', hrow', hopen', rfl⟩ := mem_openKeys.mp hkey
    rw [hjobs] at hrow'
    obtain ⟨⟨row, hrow, heq, hopenRow⟩, -⟩ := open_of_pageStep hrow' hopen'
    exact mem_openKeys.mpr ⟨row, hrow, hopenRow, heq⟩
  have hturn : LeftInTurn s (job :: toProcess) := by
    have hold := h.inTurn
    rwa [hproc] at hold
  obtain ⟨hbalanced, hrest⟩ := hturn.served h.balanced hpages hopen
  refine ⟨fun eventKey hkey => ?_, hbalanced, hleft ▸ hrest⟩
  rw [hstarters] at hkey
  obtain ⟨row, hrow, rfl⟩ := List.mem_map.mp (h.starters_mem eventKey hkey)
  obtain ⟨row', hrow', hsame⟩ := pageStep_keeps hrow job followers run.pageSize run.now
  exact List.mem_map.mpr ⟨row', hjobs ▸ hrow', hsame.eventKey_eq⟩

theorem TurnInv.own (h : TurnInv s) (hturn : InTurn s) {dbNow : ℤ} {proc : FanoutProc}
    (hstep : fanoutStep draw dbNow s.db s.proc = some (db, proc)) :
    TurnInv ⟨db, proc, s.starters, pagesAfter s.pages s.proc proc⟩ := by
  rcases hproc : s.proc with run | ⟨run, toProcess, truncated, all⟩ |
    ⟨run, job, followers, toProcess, truncated, all⟩ | result | _
  · rw [hproc, fanoutStep] at hstep
    cases hstep
    refine h.quiet rfl rfl rfl ((leftToServe_fanoutPass s.db run).imp_right fun hlist => ?_)
    exact hlist ▸ leftInTurn_listOpenJobs hturn hproc
  · rw [hproc, fanoutStep] at hstep
    cases hstep
    refine h.quiet rfl rfl rfl
      ((leftToServe_fanoutJobs s.db run truncated all toProcess).imp_right fun hlist => ?_)
    have hleft := h.inTurn
    rw [hproc] at hleft
    rw [hlist]
    exact hleft
  · rw [hproc, fanoutStep] at hstep
    rcases hbatch : pageBatch s.db job followers run.pageSize run.now draw dbNow with _ | db'
    · simp only [hbatch] at hstep
      cases hstep
      exact h.quiet rfl rfl rfl (.inl rfl)
    · simp only [hbatch] at hstep
      cases hstep
      exact h.page hproc hbatch rfl rfl rfl rfl
  · rw [hproc] at hstep
    cases hstep
  · rw [hproc] at hstep
    cases hstep

theorem TurnInv.env (h : TurnInv s) {since since' : String → List FollowTable}
    (henv : FanoutEnv ⟨s.db, since⟩ ⟨db, since'⟩) : TurnInv { s with db } := by
  rcases henv with follows | input | ⟨notifications, -⟩
  · exact h.quiet rfl rfl rfl (.inr h.inTurn)
  · have hopen : ∀ eventKey,
        OpenThroughout { s with db := { s.db with jobs := buildJobInsert s.db.jobs input } }
          eventKey → OpenThroughout s eventKey := by
      rintro eventKey ⟨hstart, hkey⟩
      obtain ⟨job, hmem, hopenJob, rfl⟩ := mem_openKeys.mp hkey
      rcases KeyedTable.mem_insertOrIgnore.mp hmem with hmem | ⟨rfl, hfresh⟩
      · exact ⟨hstart, mem_openKeys.mpr ⟨job, hmem, hopenJob, rfl⟩⟩
      · exact absurd (h.starters_mem _ hstart) hfresh
    refine ⟨fun eventKey hkey => ?_, h.balanced.mono rfl hopen, h.inTurn.mono rfl hopen⟩
    obtain ⟨job, hmem, rfl⟩ := List.mem_map.mp (h.starters_mem eventKey hkey)
    exact List.mem_map.mpr ⟨job, KeyedTable.mem_insertOrIgnore.mpr (.inl hmem), rfl⟩
  · exact h.quiet rfl rfl rfl (.inr h.inTurn)

end Steps

/-! ### Runs -/

section Runs

variable {s : FanoutTurns}

theorem turnInv_of_reachable (h : (fanoutTurns.restrict StepInTurn).Reachable s) : TurnInv s := by
  refine h.invariant ?_ ?_
  · rintro s ⟨⟨now, pageSize, budget, hproc⟩, hstarters, hpages⟩
    refine ⟨fun eventKey hkey => ?_, fun eventKey eventKey' _ => ?_, ?_⟩
    · rw [hstarters] at hkey
      obtain ⟨job, hmem, -, rfl⟩ := mem_openKeys.mp hkey
      exact List.mem_map_of_mem hmem
    · rw [hpages]
      exact Nat.zero_le _
    · rw [hproc]
      exact leftInTurn_nil
  · rintro s e s' hinv ⟨hturn, hstep⟩
    rcases hstep with ⟨draw, dbNow, hown⟩ | henv
    · exact hinv.own hturn hown
    · exact hinv.env henv

/-- **Fair turns.** Where no pass serves a job before an open one that has had fewer pages, the page
counts of two jobs open throughout differ by at most one. -/
theorem runFanout_fair (h : (fanoutTurns.restrict StepInTurn).Reachable s) : FairTurns s := by
  have hbalanced := (turnInv_of_reachable h).balanced
  refine ⟨fun eventKey eventKey' hopen hsecond => ?_, fun eventKey eventKey' _ hopen => ?_⟩
  · have hle := hbalanced eventKey eventKey' hopen
    omega
  · exact hbalanced eventKey eventKey' hopen

/-- A step of the invocation; the ids it draws and the database clock come from outside. -/
def turnsStep (outside : ℕ → (ℕ → String) × ℤ) (n : ℕ) (s : FanoutTurns) : Option FanoutTurns :=
  (fanoutStep (outside n).1 (outside n).2 s.db s.proc).map fun next =>
    ⟨next.1, next.2, s.starters, pagesAfter s.pages s.proc next.2⟩

theorem reachable_runSteps {ok : FanoutTurns → TurnEvent → Prop}
    {outside : ℕ → (ℕ → String) × ℤ} (h : fanoutTurns.Init s) {n : ℕ}
    (hok : ∀ k < n, ok (runSteps (turnsStep outside) s k) .own) :
    (fanoutTurns.restrict ok).Reachable (runSteps (turnsStep outside) s n) := by
  induction n with
  | zero => exact .init h
  | succ n ih =>
    have hbefore := ih fun k hk => hok k (Nat.lt_succ_of_lt hk)
    rw [runSteps]
    rcases hnext : turnsStep outside n (runSteps (turnsStep outside) s n) with _ | s'
    · exact hbefore
    · obtain ⟨⟨db, proc⟩, hstep, rfl⟩ := Option.map_eq_some_iff.mp hnext
      exact hbefore.step ⟨hok n (Nat.lt_succ_self n), .own _ _ hstep⟩

/-- Four open jobs: two without followers, one with two and one with one. -/
def fourJobs (updatedAt : ℤ) : FanoutDb where
  jobs := ⟨["1", "2", "3", "4"].map fun eventKey =>
    ⟨eventKey, "delegator_drep_voted", eventKey, 60, "", none, updatedAt, updatedAt, none⟩, by
      simp⟩
  follows := ⟨[⟨"stake1", .resolved, some .drep, some "3", some 50⟩,
    ⟨"stake2", .resolved, some .drep, some "3", some 50⟩,
    ⟨"stake3", .resolved, some .drep, some "4", some 50⟩], by simp, by simp⟩
  notifications := ⟨[], List.nodup_nil, by decide⟩

/-- An invocation at time 100 with pages of one follower and an allowance of twelve queries. -/
def fourJobsStart (updatedAt : ℤ) : FanoutTurns :=
  ⟨fourJobs updatedAt, .pass ⟨100, 1, some 12, [], 0, 0⟩, ["1", "2", "3", "4"], fun _ => 0⟩

def fourJobsOutside (n : ℕ) : (ℕ → String) × ℤ :=
  (fun _ => String.ofList (List.replicate n 'n'), 100)

theorem init_fourJobsStart (updatedAt : ℤ) : fanoutTurns.Init (fourJobsStart updatedAt) :=
  ⟨⟨100, 1, some 12, rfl⟩, rfl, rfl⟩

/-- The jobs were last advanced before the run: the second pass begins with the one that the first
could not list. -/
theorem runFanout_fair_four :
    ∃ s, (fanoutTurns.restrict StepInTurn).Reachable s ∧ s.pages "3" = 1 ∧ s.pages "4" = 1 ∧
      FairTurns s := by
  have hturn : ∀ k < 11, InTurn (runSteps (turnsStep fourJobsOutside) (fourJobsStart 90) k) := by
    decide +kernel
  have hreach : (fanoutTurns.restrict StepInTurn).Reachable
      (runSteps (turnsStep fourJobsOutside) (fourJobsStart 90) 11) :=
    reachable_runSteps (init_fourJobsStart 90) hturn
  exact ⟨_, hreach, by decide +kernel, by decide +kernel, runFanout_fair hreach⟩

/-- **Jobs advanced in the second of the run are not served in turn**: the third has its second
page while the fourth has had none. -/
theorem not_runFanout_fair : ¬∀ s, fanoutTurns.Reachable s → FairTurns s := by
  intro h
  have hreach : (fanoutTurns.restrict fun _ _ => True).Reachable
      (runSteps (turnsStep fourJobsOutside) (fourJobsStart 100) 11) :=
    reachable_runSteps (init_fourJobsStart 100) fun _ _ => trivial
  have hfirst := (h _ hreach.of_restrict).second "3" "4" (by decide +kernel) (by decide +kernel)
  exact nomatch hfirst

end Runs

end DrepTalk
