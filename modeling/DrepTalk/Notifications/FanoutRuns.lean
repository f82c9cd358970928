import DrepTalk.Notifications.Fanout
import DrepTalk.Library.FoldM
import DrepTalk.Library.Interleaving

/-!
# Interleaved fan-out runs

Any number of `runFanout` invocations, concurrent or one after the other, with page sizes and
allowances of their own, each free to die between two statements. Meanwhile followers come, go
and change, jobs are added and other code inserts notifications; none is deleted. For each job
the run remembers the followers there have been since it was added (`since`), and a user is
*steady* for a job who was a follower throughout.

**A cursor may move backwards, and no harm is done.** What a cursor claims is that every steady
user up to it has the notification (`Claims`). Steadiness is only ever lost and notifications
are only ever gained, so this claim, once true, stays true of any copy of the job that a slow
invocation still holds (`Claims.mono`), and with it what a page it has read will establish
(`PageClaims.mono`).
-/

namespace DrepTalk

/-- The tables, and for each job the follow tables since it was added. -/
structure FanoutWorld where
  db : FanoutDb
  since : String → List FollowTable

/-- From when a job is added on, its follow tables are kept. -/
def sinceJob (w : FanoutWorld) (input : FanoutJobInput) : String → List FollowTable :=
  if input.eventKey ∈ w.db.jobs.rows.map (·.eventKey) then w.since
  else Function.update w.since input.eventKey [w.db.follows]

inductive FanoutEnv (w : FanoutWorld) : FanoutWorld → Prop
  /-- Followers change. -/
  | follows (follows : FollowTable) :
    FanoutEnv w ⟨{ w.db with follows }, fun eventKey => follows :: w.since eventKey⟩
  /-- A job is added, unless its event has one. -/
  | job (input : FanoutJobInput) :
    FanoutEnv w ⟨{ w.db with jobs := buildJobInsert w.db.jobs input }, sinceJob w input⟩
  /-- Other code inserts notifications. -/
  | notify (notifications : NotificationTable)
      (hkeeps : ∀ n ∈ w.db.notifications.rows, n ∈ notifications.rows) :
    FanoutEnv w ⟨{ w.db with notifications }, w.since⟩

/-- An invocation before its first pass. -/
def FanoutProc.Starts (l : FanoutProc) : Prop :=
  ∃ now pageSize budget, l = .pass ⟨now, pageSize, budget, [], 0, 0⟩

/-- Fan-out invocations over the tables. -/
def fanoutProgram : Program FanoutWorld FanoutProc where
  Start _ l := l.Starts
  Step w l w' l' := ∃ draw dbNow db, fanoutStep draw dbNow w.db l = some (db, l') ∧
    w' = ⟨db, w.since⟩
  Env := FanoutEnv

def FanoutWorld.Initial (w : FanoutWorld) : Prop := w.db.jobs.rows = []

/-- The user was a follower the job is for, all the time since it was added. -/
def Steady (w : FanoutWorld) (job : FanoutJobRow) (userId : String) : Prop :=
  ∀ follows ∈ w.since job.eventKey, userId ∈ followersOf job follows

/-- How many notifications of the event the user has. -/
def noticeCount (t : NotificationTable) (userId eventKey : String) : ℕ :=
  t.rows.countP fun n => n.recipientId == userId && n.eventKey == some eventKey

/-! ### Notifications -/

def NotificationTable.events (t : NotificationTable) : List (String × String) :=
  t.rows.filterMap recipientEvent

variable {userId eventKey : String} {t t' : NotificationTable}

variable {n : NotificationRow} {follows : FollowTable}

theorem recipientEvent_eq_some :
    recipientEvent n = some (userId, eventKey) ↔
      n.recipientId = userId ∧ n.eventKey = some eventKey := by
  rw [recipientEvent, Option.map_eq_some_iff]
  constructor
  · rintro ⟨key, hkey, heq⟩
    rw [Prod.mk.injEq] at heq
    exact ⟨heq.1, heq.2 ▸ hkey⟩
  · rintro ⟨rfl, hkey⟩
    exact ⟨eventKey, hkey, rfl⟩

theorem noticeCount_eq (t : NotificationTable) (userId eventKey : String) :
    noticeCount t userId eventKey = t.events.count (userId, eventKey) := by
  rw [noticeCount, NotificationTable.events, List.count, List.countP_filterMap]
  refine List.countP_congr fun n _ => ?_
  rw [Bool.and_eq_true, beq_iff_eq, beq_iff_eq, ← recipientEvent_eq_some]
  rcases recipientEvent n with _ | key <;> simp

theorem noticeCount_le_one (t : NotificationTable) (userId eventKey : String) :
    noticeCount t userId eventKey ≤ 1 := by
  rw [noticeCount_eq]
  exact List.nodup_iff_count_le_one.mp t.event_unique _

theorem noticeCount_eq_one (h : (userId, eventKey) ∈ t.events) :
    noticeCount t userId eventKey = 1 := by
  rw [noticeCount_eq]
  exact List.count_eq_one_of_mem t.event_unique h

theorem events_of_insert (h : t.insert n = some t') :
    (∀ pair ∈ t.events, pair ∈ t'.events) ∧
      ∀ pair, recipientEvent n = some pair → pair ∈ t'.events := by
  rw [NotificationTable.insert] at h
  split_ifs at h with hevent hid
  · cases h
    obtain ⟨pair, hpair, hmem⟩ := hevent
    refine ⟨fun _ h => h, fun pair' hpair' => ?_⟩
    rw [Option.mem_def, hpair', Option.some.injEq] at hpair
    exact hpair ▸ hmem
  · cases h
    rw [NotificationTable.events, NotificationTable.events, List.filterMap_append]
    refine ⟨fun _ h => List.mem_append_left _ h, fun pair hpair => List.mem_append_right _ ?_⟩
    exact List.mem_filterMap.mpr ⟨n, List.mem_singleton_self n, hpair⟩

theorem events_of_foldlM {rows : List NotificationRow}
    (h : rows.foldlM NotificationTable.insert t = some t') :
    (∀ pair ∈ t.events, pair ∈ t'.events) ∧
      ∀ n ∈ rows, ∀ pair, recipientEvent n = some pair → pair ∈ t'.events := by
  induction rows generalizing t with
  | nil =>
    cases h
    exact ⟨fun _ h => h, by simp⟩
  | cons n rows ih =>
    rw [List.foldlM_cons] at h
    obtain ⟨t₁, hinsert, hrest⟩ := Option.bind_eq_some_iff.mp h
    obtain ⟨hkeeps, hadds⟩ := events_of_insert hinsert
    obtain ⟨hkeeps', hadds'⟩ := ih hrest
    refine ⟨fun pair hp => hkeeps' pair (hkeeps pair hp), fun n' hn' pair hpair => ?_⟩
    rcases List.mem_cons.mp hn' with rfl | hn'
    · exact hkeeps' pair (hadds pair hpair)
    · exact hadds' n' hn' pair hpair

theorem flatten_buildNotificationPage (job : FanoutJobRow) (draw : ℕ → String) (dbNow : ℤ)
    (followers : List String) :
    (buildNotificationPage job draw dbNow followers).flatten =
      pageRows job draw dbNow followers := by
  rw [buildNotificationPage, flatten_slices, List.take_of_length_le]
  rw [pageRows, List.length_mapIdx, chunkCount, INSERT_CHUNK]
  omega

theorem events_of_pageBatch {db db' : FanoutDb} {job : FanoutJobRow} {followers : List String}
    {pageSize : ℕ} {now dbNow : ℤ} {draw : ℕ → String}
    (h : pageBatch db job followers pageSize now draw dbNow = some db') :
    (∀ pair ∈ db.notifications.events, pair ∈ db'.notifications.events) ∧
      (∀ userId ∈ followers, (userId, job.eventKey) ∈ db'.notifications.events) ∧
      db'.follows = db.follows ∧ db'.jobs = pageStep db.jobs job followers pageSize now := by
  rw [pageBatch, foldlM_flatten, flatten_buildNotificationPage] at h
  rcases hrows : (pageRows job draw dbNow followers).foldlM NotificationTable.insert
    db.notifications with _ | notifications
  · rw [hrows] at h
    cases h
  · simp only [hrows, Option.some.injEq] at h
    obtain ⟨hkeeps, hadds⟩ := events_of_foldlM hrows
    subst h
    refine ⟨hkeeps, fun userId huser => ?_, rfl, rfl⟩
    obtain ⟨i, hi, rfl⟩ := List.mem_iff_getElem.mp huser
    refine hadds _ (List.mem_mapIdx.mpr ⟨i, hi, rfl⟩) _ ?_
    exact recipientEvent_eq_some.mpr ⟨rfl, rfl⟩

/-! ### Claims of a cursor -/

/-- The same job, whatever has become of its cursor. -/
structure SameJob (job job' : FanoutJobRow) : Prop where
  eventKey_eq : job'.eventKey = job.eventKey
  subjectId_eq : job'.subjectId = job.subjectId
  sourceTime_eq : job'.sourceTime = job.sourceTime

/-- The job is in the table, maybe with another cursor. -/
def InTable (w : FanoutWorld) (job : FanoutJobRow) : Prop :=
  ∃ job' ∈ w.db.jobs.rows, SameJob job job'

/-- The user has the notification of the job's event. -/
def Notified (w : FanoutWorld) (job : FanoutJobRow) (userId : String) : Prop :=
  (userId, job.eventKey) ∈ w.db.notifications.events

/-- What a cursor claims: every steady user up to it has the notification. -/
def Claims (w : FanoutWorld) (job : FanoutJobRow) : Prop :=
  ∀ userId, Steady w job userId → userId ≤ job.cursorUserId.getD "" → Notified w job userId

/-- What a page claims: every steady user it had to cover is on it or has the notification. -/
def PageClaims (w : FanoutWorld) (pageSize : ℕ) (job : FanoutJobRow) (followers : List String) :
    Prop :=
  ∀ userId, Steady w job userId →
    (followers.length < pageSize ∨ ∃ last, followers.getLast? = some last ∧ userId ≤ last) →
      userId ∈ followers ∨ Notified w job userId

/-- How the tables change: jobs stay, users stop being steady, notifications are added. -/
structure Grows (w w' : FanoutWorld) : Prop where
  jobs : ∀ job ∈ w.db.jobs.rows, InTable w' job
  steady : ∀ job, InTable w job → ∀ userId, Steady w' job userId → Steady w job userId
  notified : ∀ pair ∈ w.db.notifications.events, pair ∈ w'.db.notifications.events

theorem SameJob.trans {job job' job'' : FanoutJobRow} (h : SameJob job job')
    (h' : SameJob job' job'') : SameJob job job'' :=
  ⟨h'.eventKey_eq.trans h.eventKey_eq, h'.subjectId_eq.trans h.subjectId_eq,
    h'.sourceTime_eq.trans h.sourceTime_eq⟩

theorem SameJob.followersOf_eq {job job' : FanoutJobRow} (h : SameJob job job')
    (follows : FollowTable) : followersOf job' follows = followersOf job follows := by
  have hsame : isFollower job' = isFollower job := by
    funext r
    rw [isFollower, isFollower, h.subjectId_eq, h.sourceTime_eq]
  rw [followersOf, followersOf, hsame]

theorem SameJob.steady_iff {job job' : FanoutJobRow} (h : SameJob job job') (w : FanoutWorld)
    (userId : String) : Steady w job' userId ↔ Steady w job userId := by
  simp only [Steady, h.eventKey_eq, h.followersOf_eq]

theorem SameJob.notified_iff {job job' : FanoutJobRow} (h : SameJob job job') (w : FanoutWorld)
    (userId : String) : Notified w job' userId ↔ Notified w job userId := by
  rw [Notified, Notified, h.eventKey_eq]

section Grows

variable {w w' : FanoutWorld} {job : FanoutJobRow}

theorem Grows.listed (h : Grows w w') (hjob : InTable w job) : InTable w' job := by
  obtain ⟨job₁, hmem, hsame⟩ := hjob
  obtain ⟨job₂, hmem₂, hsame₂⟩ := h.jobs job₁ hmem
  exact ⟨job₂, hmem₂, hsame.trans hsame₂⟩

theorem Claims.mono (hclaims : Claims w job) (h : Grows w w') (hjob : InTable w job) :
    Claims w' job :=
  fun userId hsteady hle => h.notified _ (hclaims userId (h.steady job hjob userId hsteady) hle)

theorem PageClaims.mono {pageSize : ℕ} {followers : List String}
    (hclaims : PageClaims w pageSize job followers) (h : Grows w w') (hjob : InTable w job) :
    PageClaims w' pageSize job followers :=
  fun userId hsteady hcovered =>
    (hclaims userId (h.steady job hjob userId hsteady) hcovered).imp_right (h.notified _)

end Grows

/-! ### What a step establishes -/

/-- What holds of the tables in every run. -/
structure FanoutInv (w : FanoutWorld) : Prop where
  /-- The followers of now are among those a job has seen. -/
  seen : ∀ job ∈ w.db.jobs.rows, w.db.follows ∈ w.since job.eventKey
  reached : ∀ job ∈ w.db.jobs.rows, Claims w job
  finished : ∀ job ∈ w.db.jobs.rows, job.completedAt ≠ none →
    ∀ userId, Steady w job userId → Notified w job userId

/-- What an invocation may rely on, where it stands. -/
def FanoutAsserts (w : FanoutWorld) : FanoutProc → Prop
  | .jobs _ toProcess _ _ => ∀ job ∈ toProcess, InTable w job ∧ Claims w job
  | .page run job followers toProcess _ _ =>
    (InTable w job ∧ (followers.length < run.pageSize ∨ followers ≠ []) ∧
      PageClaims w run.pageSize job followers) ∧ ∀ job ∈ toProcess, InTable w job ∧ Claims w job
  | _ => True

section Steps

variable {w w' : FanoutWorld}

theorem FanoutAsserts.mono {l : FanoutProc} (hl : FanoutAsserts w l) (h : Grows w w') :
    FanoutAsserts w' l := by
  have hrest : ∀ toProcess : List FanoutJobRow, (∀ job ∈ toProcess, InTable w job ∧ Claims w job) →
      ∀ job ∈ toProcess, InTable w' job ∧ Claims w' job := by
    intro toProcess hold job hjob
    obtain ⟨htable, hclaims⟩ := hold job hjob
    exact ⟨h.listed htable, hclaims.mono h htable⟩
  rcases l with _ | ⟨run, toProcess, _, _⟩ | ⟨run, job, followers, toProcess, _, _⟩ | _ | _
  · exact hl
  · exact hrest toProcess hl
  · obtain ⟨⟨htable, hlast, hclaims⟩, hothers⟩ := hl
    exact ⟨⟨h.listed htable, hlast, hclaims.mono h htable⟩, hrest toProcess hothers⟩
  · exact hl
  · exact hl

theorem fanoutPass_asserts (h : FanoutInv w) (run : FanoutRun) :
    FanoutAsserts w (fanoutPass w.db run) := by
  rw [fanoutPass]
  dsimp only
  split_ifs
  · trivial
  · trivial
  · intro job hjob
    have hmem := ((List.mem_filter.mp ((List.mem_insertionSort jobBefore).mp (List.mem_of_mem_take
      (List.mem_of_mem_take hjob)))).1)
    exact ⟨⟨job, hmem, rfl, rfl, rfl⟩, h.reached job hmem⟩

theorem pageClaims_select (h : FanoutInv w) {job : FanoutJobRow} (htable : InTable w job)
    (hclaims : Claims w job) (pageSize : ℕ) :
    PageClaims w pageSize job (selectFollowers w.db.follows job pageSize) := by
  intro userId hsteady hcovered
  obtain ⟨job', hmem, hsame⟩ := htable
  have hfollows : userId ∈ followersOf job w.db.follows :=
    hsteady _ (hsame.eventKey_eq ▸ h.seen job' hmem)
  rcases le_or_gt userId (job.cursorUserId.getD "") with hle | hlt
  · exact .inr (hclaims userId hsteady hle)
  · -- behind the cursor, the page skips nobody
    rcases hcovered with hshort | ⟨last, hlast, hle⟩
    · exact .inl (mem_pageAfter_of_short hshort hfollows hlt)
    · exact .inl (mem_pageAfter_of_le_last hlast hfollows hlt hle)

theorem fanoutJobs_asserts (h : FanoutInv w) {toProcess : List FanoutJobRow}
    (hjobs : ∀ job ∈ toProcess, InTable w job ∧ Claims w job) (run : FanoutRun)
    (truncated allCompleted : Bool) :
    FanoutAsserts w (fanoutJobs w.db run truncated allCompleted toProcess) := by
  rcases toProcess with _ | ⟨job, toProcess⟩
  · rw [fanoutJobs]
    split_ifs <;> trivial
  · obtain ⟨⟨htable, hclaims⟩, hothers⟩ := List.forall_mem_cons.mp hjobs
    rw [fanoutJobs]
    dsimp only
    split_ifs with hcovers hempty
    · trivial
    · trivial
    · refine ⟨⟨htable, ?_, pageClaims_select h htable hclaims _⟩, hothers⟩
      -- an empty page that counts as full does not get here: reading its last row throws
      by_contra hcontra
      rw [not_or, not_not] at hcontra
      exact hempty ⟨by rw [hcontra.2]; rfl, hcontra.1⟩

theorem mem_pageStep {jobs : JobTable} {job row' : FanoutJobRow} {followers : List String}
    {pageSize : ℕ} {now : ℤ} (h : row' ∈ (pageStep jobs job followers pageSize now).rows) :
    ∃ row ∈ jobs.rows, SameJob row row' ∧ (row' = row ∨ row.eventKey = job.eventKey ∧
      (followers.length < pageSize ∧ row'.cursorUserId = row.cursorUserId ∨
        ¬ followers.length < pageSize ∧ row'.cursorUserId = some (followers.getLastD "") ∧
          row'.completedAt = row.completedAt)) := by
  rw [pageStep] at h
  split_ifs at h with hshort <;>
    rcases Table.mem_updateWhere.mp h with ⟨hmem, -⟩ | ⟨row, hmem, hkey, rfl⟩
  · exact ⟨row', hmem, ⟨rfl, rfl, rfl⟩, .inl rfl⟩
  · exact ⟨row, hmem, ⟨rfl, rfl, rfl⟩, .inr ⟨eq_of_beq hkey, .inl ⟨hshort, rfl⟩⟩⟩
  · exact ⟨row', hmem, ⟨rfl, rfl, rfl⟩, .inl rfl⟩
  · exact ⟨row, hmem, ⟨rfl, rfl, rfl⟩, .inr ⟨eq_of_beq hkey, .inr ⟨hshort, rfl, rfl⟩⟩⟩

theorem pageStep_keeps {jobs : JobTable} {row : FanoutJobRow} (h : row ∈ jobs.rows)
    (job : FanoutJobRow) (followers : List String) (pageSize : ℕ) (now : ℤ) :
    ∃ row' ∈ (pageStep jobs job followers pageSize now).rows, SameJob row row' := by
  rw [pageStep]
  split_ifs
  all_goals
    by_cases hkey : row.eventKey = job.eventKey
    · exact ⟨_, Table.mem_updateWhere.mpr (.inr ⟨row, h, beq_iff_eq.mpr hkey, rfl⟩),
        ⟨rfl, rfl, rfl⟩⟩
    · exact ⟨row, Table.mem_updateWhere.mpr (.inl ⟨h, beq_eq_false_iff_ne.mpr hkey⟩),
        ⟨rfl, rfl, rfl⟩⟩

section Page

variable {db : FanoutDb} {job : FanoutJobRow} {followers : List String} {pageSize : ℕ}
  {now dbNow : ℤ} {draw : ℕ → String}

theorem grows_pageBatch (h : pageBatch w.db job followers pageSize now draw dbNow = some db) :
    Grows w ⟨db, w.since⟩ := by
  obtain ⟨hkeeps, -, -, hjobs⟩ := events_of_pageBatch h
  refine ⟨fun row hrow => ?_, fun _ _ _ hsteady => hsteady, hkeeps⟩
  obtain ⟨row', hrow', hsame⟩ := pageStep_keeps hrow job followers pageSize now
  exact ⟨row', by rwa [hjobs], hsame⟩

theorem FanoutInv.pageBatch (hinv : FanoutInv w) (htable : InTable w job)
    (hlast : followers.length < pageSize ∨ followers ≠ [])
    (hclaims : PageClaims w pageSize job followers)
    (h : pageBatch w.db job followers pageSize now draw dbNow = some db) :
    FanoutInv ⟨db, w.since⟩ := by
  have hgrows := grows_pageBatch h
  obtain ⟨hkeeps, hadds, hfollows, hjobs⟩ := events_of_pageBatch h
  -- whoever the page covers has the notification now
  have hcovered : ∀ row ∈ w.db.jobs.rows, row.eventKey = job.eventKey → ∀ row', SameJob row row' →
      ∀ userId, Steady w row' userId → (followers.length < pageSize ∨
        ∃ last, followers.getLast? = some last ∧ userId ≤ last) →
          Notified ⟨db, w.since⟩ row' userId := by
    intro row hrow hkey row' hsame userId hsteady hcover
    obtain ⟨job', hjob', hsame'⟩ := htable
    obtain rfl : job' = row :=
      w.db.jobs.eq_of_key hjob' hrow (hsame'.eventKey_eq.trans hkey.symm)
    have hsame'' := hsame'.trans hsame
    rw [hsame''.notified_iff]
    rcases hclaims userId ((hsame''.steady_iff w userId).mp hsteady) hcover with hmem | hold
    · exact hadds userId hmem
    · exact hkeeps _ hold
  refine ⟨fun row' hrow' => ?_, fun row' hrow' => ?_, fun row' hrow' hdone => ?_⟩
  all_goals
    rw [hjobs] at hrow'
    obtain ⟨row, hrow, hsame, hcase⟩ := mem_pageStep hrow'
  · -- a page leaves the followers alone
    rw [hfollows, hsame.eventKey_eq]
    exact hinv.seen row hrow
  · have hold := (hinv.reached row hrow).mono hgrows ⟨row, hrow, rfl, rfl, rfl⟩
    rcases hcase with rfl | ⟨hkey, ⟨-, hcursor⟩ | ⟨hfull, hcursor, -⟩⟩
    · exact hold
    · intro userId hsteady hle
      rw [hcursor] at hle
      exact (hsame.notified_iff _ _).mpr (hold userId ((hsame.steady_iff _ _).mp hsteady) hle)
    · -- the new cursor is the last one on the page
      intro userId hsteady hle
      refine hcovered row hrow hkey row' hsame userId hsteady (.inr ?_)
      obtain ⟨last, hlast'⟩ : ∃ last, followers.getLast? = some last :=
        ⟨_, List.getLast?_eq_some_getLast (hlast.resolve_left hfull)⟩
      rw [hcursor, Option.getD_some, List.getLastD_eq_getLast?, hlast'] at hle
      exact ⟨last, hlast', hle⟩
  · intro userId hsteady
    have hold : row.completedAt ≠ none → Notified ⟨db, w.since⟩ row' userId := fun hrowDone =>
      hkeeps _ ((hsame.notified_iff _ _).mpr
        (hinv.finished row hrow hrowDone userId ((hsame.steady_iff _ _).mp hsteady)))
    rcases hcase with rfl | ⟨hkey, ⟨hshort, -⟩ | ⟨-, -, hsameDone⟩⟩
    · exact hold hdone
    · -- a page that was not full covers everyone behind the cursor
      exact hcovered row hrow hkey row' hsame userId hsteady (.inl hshort)
    · exact hold (hsameDone ▸ hdone)

end Page

end Steps

/-! ### What happens meanwhile -/

theorem nonempty_of_mem_followersOf {job : FanoutJobRow} (h : userId ∈ followersOf job follows) :
    userId ≠ "" := by
  obtain ⟨r, hr, rfl⟩ := List.mem_map.mp h
  exact follows.user_nonempty r (List.mem_filter.mp hr).1

theorem sinceJob_of_mem {w : FanoutWorld} (input : FanoutJobInput)
    (h : eventKey ∈ w.db.jobs.rows.map (·.eventKey)) :
    sinceJob w input eventKey = w.since eventKey := by
  rw [sinceJob]
  split_ifs with htaken
  · rfl
  · have hne : eventKey ≠ input.eventKey := by
      rintro rfl
      exact htaken h
    exact Function.update_of_ne hne _ _

theorem sinceJob_new {w : FanoutWorld} {input : FanoutJobInput}
    (h : input.eventKey ∉ w.db.jobs.rows.map (·.eventKey)) :
    sinceJob w input input.eventKey = [w.db.follows] := by
  rw [sinceJob, if_neg h, Function.update_self]

theorem grows_env {w w' : FanoutWorld} (h : FanoutEnv w w') : Grows w w' := by
  rcases h with follows | input | ⟨notifications, hkeeps⟩
  · refine ⟨fun job hjob => ⟨job, hjob, rfl, rfl, rfl⟩, fun job _ userId hsteady => ?_,
      fun _ h => h⟩
    exact fun old hold => hsteady old (List.mem_cons_of_mem _ hold)
  · refine ⟨fun job hjob => ?_, fun job hjob userId hsteady old hold => ?_, fun _ h => h⟩
    · exact ⟨job, KeyedTable.mem_insertOrIgnore.mpr (.inl hjob), rfl, rfl, rfl⟩
    · -- the new job is another one
      obtain ⟨job', hjob', hsame⟩ := hjob
      have hkey : job.eventKey ∈ w.db.jobs.rows.map (·.eventKey) :=
        List.mem_map.mpr ⟨job', hjob', hsame.eventKey_eq⟩
      have hsince : old ∈ sinceJob w input _ := (sinceJob_of_mem input hkey).symm ▸ hold
      exact hsteady old hsince
  · refine ⟨fun job hjob => ⟨job, hjob, rfl, rfl, rfl⟩, fun _ _ _ hsteady => hsteady, ?_⟩
    intro pair hpair
    obtain ⟨n, hn, hevent⟩ := List.mem_filterMap.mp hpair
    exact List.mem_filterMap.mpr ⟨n, hkeeps n hn, hevent⟩

theorem claims_new {w : FanoutWorld} {job : FanoutJobRow} (hcursor : job.cursorUserId = none)
    (hseen : follows ∈ w.since job.eventKey) : Claims w job := by
  intro userId hsteady hle
  have hne := nonempty_of_mem_followersOf (hsteady follows hseen)
  have hlt : "" < userId := by
    rw [String.lt_iff_toList_lt]
    rcases hlist : userId.toList with _ | ⟨c, cs⟩
    · exact absurd (String.toList_eq_nil_iff.mp hlist) hne
    · exact List.nil_lt_cons c cs
  rw [hcursor, Option.getD_none] at hle
  exact absurd hle (not_le.mpr hlt)

theorem FanoutInv.env {w w' : FanoutWorld} (hinv : FanoutInv w) (h : FanoutEnv w w') :
    FanoutInv w' := by
  have hgrows := grows_env h
  have hreached : ∀ job ∈ w.db.jobs.rows, Claims w' job := fun job hjob =>
    (hinv.reached job hjob).mono hgrows ⟨job, hjob, rfl, rfl, rfl⟩
  have hfinished : ∀ job ∈ w.db.jobs.rows, job.completedAt ≠ none →
      ∀ userId, Steady w' job userId → Notified w' job userId := by
    intro job hjob hdone userId hsteady
    exact hgrows.notified _ (hinv.finished job hjob hdone userId
      (hgrows.steady job ⟨job, hjob, rfl, rfl, rfl⟩ userId hsteady))
  rcases h with follows | input | ⟨notifications, hkeeps⟩
  · exact ⟨fun job _ => List.mem_cons_self, hreached, hfinished⟩
  · have hseen : ∀ job ∈ w.db.jobs.rows, w.db.follows ∈ sinceJob w input job.eventKey := by
      intro job hjob
      rw [sinceJob_of_mem input (List.mem_map.mpr ⟨job, hjob, rfl⟩)]
      exact hinv.seen job hjob
    have hnew : input.row.eventKey ∉ w.db.jobs.rows.map (·.eventKey) →
        w.db.follows ∈ sinceJob w input input.row.eventKey := fun hfresh =>
      sinceJob_new hfresh ▸ List.mem_singleton_self _
    refine ⟨fun job hjob => ?_, fun job hjob => ?_, fun job hjob => ?_⟩ <;>
      rcases KeyedTable.mem_insertOrIgnore.mp hjob with hjob | ⟨rfl, hfresh⟩
    · exact hseen job hjob
    · exact hnew hfresh
    · exact hreached job hjob
    · exact claims_new rfl (hnew hfresh)
    · exact hfinished job hjob
    · exact nofun
  · exact ⟨hinv.seen, hreached, hfinished⟩

/-! ### Every interleaving -/

/-- A step of an invocation keeps the invariant, grows the tables and establishes what the
invocation then relies on. -/
theorem fanoutStep_sound {w : FanoutWorld} {l l' : FanoutProc} {db : FanoutDb} {draw : ℕ → String}
    {dbNow : ℤ} (hinv : FanoutInv w) (hl : FanoutAsserts w l)
    (h : fanoutStep draw dbNow w.db l = some (db, l')) :
    Grows w ⟨db, w.since⟩ ∧ FanoutInv ⟨db, w.since⟩ ∧ FanoutAsserts ⟨db, w.since⟩ l' := by
  have hrefl : Grows w w :=
    ⟨fun job hjob => ⟨job, hjob, rfl, rfl, rfl⟩, fun _ _ _ h => h, fun _ h => h⟩
  rcases l with run | ⟨run, toProcess, truncated, all⟩ |
    ⟨run, job, followers, toProcess, truncated, all⟩ | _ | _
  · rw [fanoutStep] at h
    cases h
    exact ⟨hrefl, hinv, fanoutPass_asserts hinv run⟩
  · rw [fanoutStep] at h
    cases h
    exact ⟨hrefl, hinv, fanoutJobs_asserts hinv hl run truncated all⟩
  · rw [fanoutStep] at h
    obtain ⟨⟨htable, hlast, hclaims⟩, hothers⟩ := hl
    rcases hbatch : pageBatch w.db job followers run.pageSize run.now draw dbNow with _ | db'
    · simp only [hbatch] at h
      cases h
      exact ⟨hrefl, hinv, trivial⟩
    · simp only [hbatch] at h
      cases h
      have hgrows := grows_pageBatch hbatch
      refine ⟨hgrows, hinv.pageBatch htable hlast hclaims hbatch, fun job' hjob' => ?_⟩
      obtain ⟨htable', hclaims'⟩ := hothers job' hjob'
      exact ⟨hgrows.listed htable', hclaims'.mono hgrows htable'⟩
  · cases h
  · cases h

/-- The invariant of all interleavings. -/
def fanoutSound : fanoutProgram.Sound FanoutWorld.Initial where
  inv := FanoutInv
  asserts := FanoutAsserts
  apart _ _ := True
  symm _ _ _ := trivial
  init w hinit := by
    have hnone : ∀ job, job ∉ w.db.jobs.rows := by
      rw [show w.db.jobs.rows = [] from hinit]
      exact fun _ => List.not_mem_nil
    exact ⟨fun job h => absurd h (hnone job), fun job h => absurd h (hnone job),
      fun job h => absurd h (hnone job)⟩
  start w l _ hstart := by
    obtain ⟨now, pageSize, budget, rfl⟩ := hstart
    exact ⟨trivial, fun _ _ => trivial⟩
  step w l w' l' hinv hl hstep := by
    obtain ⟨draw, dbNow, db, hstep, rfl⟩ := hstep
    exact (fanoutStep_sound hinv hl hstep).2
  noninterference w l w' l' m hinv hl hm _ hstep := by
    obtain ⟨draw, dbNow, db, hstep, rfl⟩ := hstep
    exact ⟨hm.mono (fanoutStep_sound hinv hl hstep).1, trivial⟩
  env w w' hinv henv := ⟨hinv.env henv, fun _ hm => hm.mono (grows_env henv)⟩

section Runs

variable {ι : Type*} [DecidableEq ι] {s : Interleaved FanoutWorld FanoutProc ι}

/-- **Every steady follower is notified exactly once.** In every interleaving nobody has an
event twice, every steady user up to the cursor of a job has its event, and every steady user
has the event of a completed job. -/
theorem fanout_delivers (h : (fanoutProgram.system ι FanoutWorld.Initial).Reachable s) :
    (∀ userId eventKey, noticeCount s.shared.db.notifications userId eventKey ≤ 1) ∧
      (∀ job ∈ s.shared.db.jobs.rows, ∀ cursor, job.cursorUserId = some cursor →
        ∀ userId, Steady s.shared job userId → userId ≤ cursor →
          noticeCount s.shared.db.notifications userId job.eventKey = 1) ∧
      ∀ job ∈ s.shared.db.jobs.rows, job.completedAt ≠ none →
        ∀ userId, Steady s.shared job userId →
          noticeCount s.shared.db.notifications userId job.eventKey = 1 := by
  have hinv := (fanoutSound.holds h).inv
  refine ⟨noticeCount_le_one _, ?_, ?_⟩
  · intro job hjob cursor hcursor userId hsteady hle
    refine noticeCount_eq_one (hinv.reached job hjob userId hsteady ?_)
    rwa [hcursor]
  · intro job hjob hdone userId hsteady
    exact noticeCount_eq_one (hinv.finished job hjob hdone userId hsteady)

end Runs

/-- A step of an invocation, with the follow tables that are on record. -/
def fanoutWorldStep (outside : (ℕ → String) × ℤ) (w : FanoutWorld) (l : FanoutProc) :
    Option (FanoutWorld × FanoutProc) :=
  (fanoutStep outside.1 outside.2 w.db l).map fun out => (⟨out.1, w.since⟩, out.2)

theorem step_of_fanoutWorldStep (outside : (ℕ → String) × ℤ) (w : FanoutWorld) (l : FanoutProc)
    (w' : FanoutWorld) (l' : FanoutProc) (h : fanoutWorldStep outside w l = some (w', l')) :
    fanoutProgram.Step w l w' l' := by
  obtain ⟨⟨db, m⟩, hstep, hout⟩ := Option.map_eq_some_iff.mp h
  cases hout
  exact ⟨outside.1, outside.2, db, hstep, rfl⟩

def drainedJob : FanoutJobRow :=
  ⟨"vote1", "delegator_drep_voted", "drep1", 60, "", none, 70, 100, some 100⟩

/-- One job, one follower, one invocation. -/
theorem fanout_delivers_one :
    ∃ s : Interleaved FanoutWorld FanoutProc ℕ,
      (fanoutProgram.system ℕ FanoutWorld.Initial).Reachable s ∧
        drainedJob ∈ s.shared.db.jobs.rows ∧
          noticeCount s.shared.db.notifications "stake1" "vote1" = 1 := by
  have h₀ : (fanoutProgram.system ℕ FanoutWorld.Initial).Reachable
      ⟨⟨⟨.empty, ⟨[⟨"stake1", .resolved, some .drep, some "drep1", some 50⟩], by simp, by simp⟩,
        ⟨[], by simp, by simp⟩⟩, fun _ => []⟩, fun _ => none⟩ :=
    .init ⟨rfl, fun _ => rfl⟩
  have h₁ := h₀.step (.env (.job ⟨"vote1", "delegator_drep_voted", "drep1", 60, "", 70⟩))
  have h₂ := h₁.step (.start (i := 0) rfl ⟨100, 100, none, rfl⟩)
  have h₃ := Program.reachable_run step_of_fanoutWorldStep h₂
    (List.replicate 3 (0, fun _ => "n1", 90)) (by decide +kernel)
  refine ⟨_, h₃, by decide +kernel, ?_⟩
  exact (fanout_delivers h₃).2.2 drainedJob (by decide +kernel) (by decide) "stake1"
    (show ∀ follows ∈ _, _ from by decide +kernel)

end DrepTalk
