import DrepTalk.Dreps.Row
import DrepTalk.Library.Interleaving
import DrepTalk.Text.EventKeys

/-!
# Announcing the status of a DRep

`upsertDrep` and `deactivateDreps` of `src/lib/db/dreps.ts`: two writers of the `active` flag, each
of which commits a `delegator_drep_status_changed` job with the write if the flag it read before
differs from the one it writes. Reads are single statements, a write and its jobs are one batch.

The jobs are those of the outbox by the columns that draining never touches; the payload is the
record that becomes its text. A call without a followed set is one with an empty set.

**Flips and jobs** (`jobs_follow_flips`). A batch announces the flip it makes iff the flag was read
when it still was what the batch overwrites, and iff no earlier job announces a flip in the same
direction within the same second (`announced_iff`). Overlapping calls read the same old row, and so
announce one flip twice or miss one.
-/

namespace DrepTalk

/-! ### Jobs -/

inductive EffectiveDrepStatus
  | active
  | inactive
  deriving DecidableEq

def EffectiveDrepStatus.text : EffectiveDrepStatus → String
  | .active => "active"
  | .inactive => "inactive"

def effectiveDrepStatus (active : Bool) : EffectiveDrepStatus :=
  if active then .active else .inactive

/-- One side of a change: the effective status with the raw one. -/
structure StatusSide where
  effective : EffectiveDrepStatus
  status : String

/-- The payload of a job; `fromSide` and `toSide` are its `from` and `to`. -/
structure DrepStatusPayload where
  sourceTime : ℤ
  drepId : String
  fromSide : StatusSide
  toSide : StatusSide

structure DrepStatusJob where
  eventKey : String
  eventType : String
  subjectId : String
  sourceTime : ℤ
  payload : DrepStatusPayload
  createdAt : ℤ

abbrev DrepStatusJobs := KeyedTable fun job : DrepStatusJob => job.eventKey

/-- The event key, with the time in seconds. -/
def drepStatusKey (drepId : String) (fromEff toEff : EffectiveDrepStatus) (sourceTime : ℤ) :
    String :=
  s!"drep-status:{drepId}:{fromEff.text}:{toEff.text}:{sourceTime}"

/-- The state of a row that both writers read. -/
structure StoredStatus where
  active : Bool
  status : String

def buildDrepStatusJob (drepId : String) (old new : StoredStatus) (lastSyncedAt : ℤ) :
    Option DrepStatusJob :=
  let fromEff := effectiveDrepStatus old.active
  let toEff := effectiveDrepStatus new.active
  if fromEff = toEff then none
  else
    let sourceTime := lastSyncedAt / 1000
    some {
      eventKey := drepStatusKey drepId fromEff toEff sourceTime
      eventType := "delegator_drep_status_changed"
      subjectId := drepId
      sourceTime := sourceTime
      payload := ⟨sourceTime, drepId, ⟨fromEff, old.status⟩, ⟨toEff, new.status⟩⟩
      createdAt := sourceTime }

/-! ### The two writers -/

/-- A row of `deactivateDreps`. -/
structure DrepDeactivation where
  drepId : String
  status : String
  deposit : Option String
  expiresEpochNo : Option ℤ
  lastSyncedAt : ℤ

/-- The rows of one call. The sync takes them from a listing of the table by its primary key. -/
structure Deactivations where
  rows : List DrepDeactivation
  drep_unique : (rows.map (·.drepId)).Nodup

def OLD_STATE_CHUNK : ℕ := 100

/-- The columns that a deactivation refreshes. -/
def DrepDeactivation.record (r : DrepDeactivation) (row : StoredDrep) : StoredDrep :=
  { row with
    status := r.status
    active := false
    votingPower := some "0"
    deposit := r.deposit
    expiresEpochNo := r.expiresEpochNo
    lastSyncedAt := r.lastSyncedAt }

def deactivateDrep (dreps : DrepTable) (r : DrepDeactivation) : DrepTable :=
  dreps.updateWhere (fun row => row.drepId == r.drepId) r.record fun _ _ => rfl

/-- The tables, and the changes that the flag of each DRep has seen, in order of commit. -/
structure DrepStatusWorld where
  dreps : DrepTable
  jobs : DrepStatusJobs
  flips : String → List (Bool × Bool)

def storedStatus (dreps : DrepTable) (drepId : String) : Option StoredStatus :=
  (drepById dreps drepId).map fun row => ⟨row.active, row.status⟩

def storedFlag (dreps : DrepTable) (drepId : String) : Option Bool :=
  (drepById dreps drepId).map (·.active)

/-- The change between two states of a flag; a first insert is none. -/
def flagChange : Option Bool → Option Bool → List (Bool × Bool)
  | some a, some b => if a = b then [] else [(a, b)]
  | _, _ => []

def DrepStatusWorld.commit (w : DrepStatusWorld) (dreps : DrepTable)
    (jobs : List DrepStatusJob) : DrepStatusWorld where
  dreps := dreps
  jobs := jobs.foldl KeyedTable.insertOrIgnore w.jobs
  flips drepId :=
    w.flips drepId ++ flagChange (storedFlag w.dreps drepId) (storedFlag dreps drepId)

/-- A call of one of the writers, before each of its statements. -/
inductive StatusCall
  /-- `upsertDrep`, from its start. -/
  | upsert (args : Drep) (followed : List String)
  /-- ... at its write, with what it has read. -/
  | upserting (args : Drep) (old : Option StoredStatus)
  /-- `deactivateDreps`, with what it has read and the ids left to read. -/
  | deactivating (rows : Deactivations) (followed : List String)
      (oldById : List (String × StoredStatus)) (left : List (List String))
  | returned

/-- A call of `deactivateDreps`. -/
def deactivateDreps (rows : Deactivations) (followed : List String) : StatusCall :=
  .deactivating rows followed []
    (((rows.rows.map (·.drepId)).filter followed.contains).toChunks OLD_STATE_CHUNK)

/-- The statement that reads a chunk of old states. -/
def readStatuses (dreps : DrepTable) (ids : List String) : List (String × StoredStatus) :=
  (dreps.rows.filter fun row => ids.contains row.drepId).map fun row =>
    (row.drepId, ⟨row.active, row.status⟩)

def DrepDeactivation.job (oldById : List (String × StoredStatus)) (r : DrepDeactivation) :
    Option DrepStatusJob :=
  (oldById.lookup r.drepId).bind fun old =>
    buildDrepStatusJob r.drepId old ⟨false, r.status⟩ r.lastSyncedAt

/-- The jobs of a call of `deactivateDreps`. -/
def Deactivations.jobs (rows : Deactivations) (followed : List String)
    (oldById : List (String × StoredStatus)) : List DrepStatusJob :=
  (rows.rows.filter fun r => followed.contains r.drepId).filterMap (·.job oldById)

def Drep.job (args : Drep) (old : Option StoredStatus) : Option DrepStatusJob :=
  old.bind fun old =>
    buildDrepStatusJob args.drepId old ⟨args.active, args.status⟩ args.lastSyncedAt

/-- One statement, or one batch, of a call. -/
def statusStep (w : DrepStatusWorld) : StatusCall → Option (DrepStatusWorld × StatusCall)
  | .upsert args followed =>
    if followed.contains args.drepId then
      some (w, .upserting args (storedStatus w.dreps args.drepId))
    else some (w.commit (buildDrepUpsertStatement w.dreps args) [], .returned)
  | .upserting args old =>
    some (w.commit (buildDrepUpsertStatement w.dreps args) (args.job old).toList, .returned)
  | .deactivating rows followed oldById (ids :: left) =>
    some (w, .deactivating rows followed (readStatuses w.dreps ids ++ oldById) left)
  | .deactivating rows followed oldById [] =>
    some (w.commit (rows.rows.foldl deactivateDrep w.dreps) (rows.jobs followed oldById), .returned)
  | .returned => none

/-! ### What a batch does for one DRep -/

/-- The jobs of a DRep, in order of insertion. -/
def DrepStatusWorld.jobsOf (w : DrepStatusWorld) (drepId : String) : List DrepStatusJob :=
  w.jobs.rows.filter (·.subjectId == drepId)

def DrepStatusJob.change (job : DrepStatusJob) : EffectiveDrepStatus × EffectiveDrepStatus :=
  (job.payload.fromSide.effective, job.payload.toSide.effective)

/-- The jobs of a DRep are the changes of its flag, one for one and in order. -/
def DrepStatusWorld.Announced (w : DrepStatusWorld) (drepId : String) : Prop :=
  (w.jobsOf drepId).map (·.change) =
    (w.flips drepId).map fun flip => (effectiveDrepStatus flip.1, effectiveDrepStatus flip.2)

/-- What a batch that is about to be committed writes for a DRep: the flag, when, and the flag that
the call has read. -/
structure StatusWrite where
  active : Bool
  lastSyncedAt : ℤ
  read : Option Bool

def StatusCall.writes (drepId : String) : StatusCall → Option StatusWrite
  | .upserting args old =>
    if args.drepId = drepId then some ⟨args.active, args.lastSyncedAt, old.map (·.active)⟩ else none
  | .deactivating rows _ oldById [] =>
    (rows.rows.find? fun r => r.drepId == drepId).map fun r =>
      ⟨false, r.lastSyncedAt, (oldById.lookup drepId).map (·.active)⟩
  | _ => none

/-- The event key of the flip to the flag that is written. -/
def StatusWrite.key (wr : StatusWrite) (drepId : String) : String :=
  drepStatusKey drepId (effectiveDrepStatus !wr.active) (effectiveDrepStatus wr.active)
    (wr.lastSyncedAt / 1000)

/-- The write flips the stored flag iff it would have flipped the one that was read, and no job has
its event key yet. -/
def StatusWrite.Current (wr : StatusWrite) (w : DrepStatusWorld) (drepId : String) : Prop :=
  storedFlag w.dreps drepId = some (!wr.active) ↔
    wr.read = some (!wr.active) ∧ wr.key drepId ∉ w.jobs.rows.map (·.eventKey)

instance (wr : StatusWrite) (w : DrepStatusWorld) (drepId : String) :
    Decidable (wr.Current w drepId) :=
  inferInstanceAs (Decidable (_ ↔ _))

section EventKeys

private theorem colon_notMem_effective (eff : EffectiveDrepStatus) : ':' ∉ eff.text.toList := by
  cases eff <;> decide

private theorem toList_drepStatusKey : ∃ start : List Char, ∀ drepId a b t,
    (drepStatusKey drepId a b t).toList =
      (((start ++ drepId.toList) ++ ':' :: a.text.toList) ++ ':' :: b.text.toList) ++
        ':' :: (toString t).toList := by
  refine ⟨"drep-status:".toList, fun drepId a b t => ?_⟩
  unfold drepStatusKey
  generalize "drep-status:" = start
  simp only [String.toList_append, toString_text, toList_colon, List.append_assoc,
    List.cons_append, List.nil_append]

theorem drep_of_drepStatusKey {drepId drepId' : String} {a b a' b' : EffectiveDrepStatus}
    {t t' : ℤ} (h : drepStatusKey drepId a b t = drepStatusKey drepId' a' b' t') :
    drepId = drepId' := by
  obtain ⟨start, hkey⟩ := toList_drepStatusKey
  have hlist := congrArg String.toList h
  rw [hkey, hkey] at hlist
  obtain ⟨htime, -⟩ := eq_of_lastOccurrence hlist (colon_notMem_int t) (colon_notMem_int t')
  obtain ⟨hto, -⟩ :=
    eq_of_lastOccurrence htime (colon_notMem_effective b) (colon_notMem_effective b')
  obtain ⟨hfrom, -⟩ :=
    eq_of_lastOccurrence hto (colon_notMem_effective a) (colon_notMem_effective a')
  exact String.toList_inj.mp (List.append_cancel_left hfrom)

end EventKeys

section Batch

variable {drepId : String} {w : DrepStatusWorld}

theorem change_buildDrepStatusJob (old new : StoredStatus) (lastSyncedAt : ℤ) :
    (buildDrepStatusJob drepId old new lastSyncedAt).map (·.change) =
      if old.active = !new.active then
        some (effectiveDrepStatus !new.active, effectiveDrepStatus new.active)
      else none := by
  obtain ⟨a, status⟩ := old
  obtain ⟨b, status'⟩ := new
  cases a <;> cases b <;> rfl

theorem key_buildDrepStatusJob {old new : StoredStatus} {lastSyncedAt : ℤ} {job : DrepStatusJob}
    (h : buildDrepStatusJob drepId old new lastSyncedAt = some job) :
    job.subjectId = drepId ∧ job.eventKey = drepStatusKey drepId (effectiveDrepStatus old.active)
      (effectiveDrepStatus new.active) (lastSyncedAt / 1000) := by
  rw [buildDrepStatusJob] at h
  split_ifs at h
  cases h
  exact ⟨rfl, rfl⟩

/-- A job with an event key of its own DRep. -/
def DrepStatusJob.Keyed (job : DrepStatusJob) : Prop :=
  ∃ a b t, job.eventKey = drepStatusKey job.subjectId a b t

theorem keyed_buildDrepStatusJob {old new : StoredStatus} {lastSyncedAt : ℤ} {job : DrepStatusJob}
    (h : buildDrepStatusJob drepId old new lastSyncedAt = some job) : job.Keyed := by
  obtain ⟨hsubject, hkey⟩ := key_buildDrepStatusJob h
  exact ⟨_, _, _, hsubject ▸ hkey⟩

theorem jobsOf_foldl_other {jobs : List DrepStatusJob} (hkeyed : ∀ job ∈ jobs, job.Keyed)
    (hother : ∀ job ∈ jobs, job.subjectId ≠ drepId) (t : DrepStatusJobs) :
    (jobs.foldl KeyedTable.insertOrIgnore t).rows.filter (·.subjectId == drepId) =
        t.rows.filter (·.subjectId == drepId) ∧
      ∀ a b time, drepStatusKey drepId a b time ∈
        (jobs.foldl KeyedTable.insertOrIgnore t).rows.map (·.eventKey) ↔
          drepStatusKey drepId a b time ∈ t.rows.map (·.eventKey) := by
  induction jobs generalizing t with
  | nil => exact ⟨rfl, fun _ _ _ => Iff.rfl⟩
  | cons job jobs ih =>
    obtain ⟨hjobs, hkeys⟩ := ih (fun j h => hkeyed j (List.mem_cons_of_mem job h))
      (fun j h => hother j (List.mem_cons_of_mem job h)) (t.insertOrIgnore job)
    have hsubject := hother job List.mem_cons_self
    obtain ⟨a', b', time', hkey⟩ := hkeyed job List.mem_cons_self
    by_cases hfree : job.eventKey ∈ t.rows.map (·.eventKey)
    · have hsame : t.insertOrIgnore job = t := by rw [KeyedTable.insertOrIgnore, dif_pos hfree]
      rw [List.foldl_cons]
      rw [hsame] at hjobs hkeys ⊢
      exact ⟨hjobs, hkeys⟩
    · have hrows := KeyedTable.rows_insertOrIgnore t job hfree
      refine ⟨hjobs.trans ?_, fun a b time => (hkeys a b time).trans ?_⟩
      · rw [hrows, List.filter_append, List.filter_cons_of_neg (by simpa using hsubject),
          List.filter_nil, List.append_nil]
      · rw [hrows, List.map_append, List.mem_append, List.map_singleton, List.mem_singleton]
        refine or_iff_left fun h => hsubject (drep_of_drepStatusKey (h.trans hkey)).symm

/-- What a batch does for the DRep, by the flag that is stored then. -/
structure StatusWrite.Committed (wr : StatusWrite) (w w' : DrepStatusWorld) (drepId : String) :
    Prop where
  flips : w'.flips drepId = w.flips drepId ++
    if storedFlag w.dreps drepId = some (!wr.active) then [(!wr.active, wr.active)] else []
  jobs : (w'.jobsOf drepId).map (·.change) = (w.jobsOf drepId).map (·.change) ++
    if wr.read = some (!wr.active) ∧ wr.key drepId ∉ w.jobs.rows.map (·.eventKey) then
      [(effectiveDrepStatus !wr.active, effectiveDrepStatus wr.active)]
    else []

structure LeavesStatusAlone (w w' : DrepStatusWorld) (drepId : String) : Prop where
  flips : w'.flips drepId = w.flips drepId
  jobs : w'.jobsOf drepId = w.jobsOf drepId

/-- **One batch.** Where the jobs were the flips before, they are after it iff what the call has
read is current. -/
theorem announced_iff {wr : StatusWrite} {w' : DrepStatusWorld} (hw : w.Announced drepId)
    (h : wr.Committed w w' drepId) : w'.Announced drepId ↔ wr.Current w drepId := by
  rw [DrepStatusWorld.Announced, h.jobs, h.flips, List.map_append, hw, List.append_right_inj,
    StatusWrite.Current]
  by_cases hstored : storedFlag w.dreps drepId = some (!wr.active) <;>
    by_cases hread : wr.read = some (!wr.active) ∧
      wr.key drepId ∉ w.jobs.rows.map (·.eventKey) <;>
    simp only [hstored, hread, if_true, if_false] <;> simp

theorem flagChange_of_write {stored after : Option Bool} {b : Bool}
    (h : after = some b ∨ stored = none ∧ after = none) :
    flagChange stored after = if stored = some (!b) then [(!b, b)] else [] := by
  rcases h with rfl | ⟨rfl, rfl⟩
  · rcases stored with _ | a
    · rfl
    · cases a <;> cases b <;> rfl
  · rfl

theorem flagChange_self (flag : Option Bool) : flagChange flag flag = [] := by
  rcases flag with _ | a
  · rfl
  · exact if_pos rfl

theorem leavesStatusAlone_commit {dreps : DrepTable} {jobs : List DrepStatusJob}
    (hflag : storedFlag dreps drepId = storedFlag w.dreps drepId)
    (hkeyed : ∀ job ∈ jobs, job.Keyed) (hother : ∀ job ∈ jobs, job.subjectId ≠ drepId) :
    LeavesStatusAlone w (w.commit dreps jobs) drepId where
  flips := by
    change w.flips drepId ++ flagChange _ _ = _
    rw [hflag, flagChange_self, List.append_nil]
  jobs := (jobsOf_foldl_other hkeyed hother w.jobs).1

theorem committed_commit {wr : StatusWrite} {dreps : DrepTable}
    {before behind : List DrepStatusJob} {own : Option DrepStatusJob}
    (hflag : storedFlag dreps drepId = some wr.active ∨
      storedFlag w.dreps drepId = none ∧ storedFlag dreps drepId = none)
    (hkeyed : ∀ job ∈ before ++ behind, job.Keyed)
    (hother : ∀ job ∈ before ++ behind, job.subjectId ≠ drepId)
    (hown : own.map (·.change) = if wr.read = some (!wr.active) then
      some (effectiveDrepStatus !wr.active, effectiveDrepStatus wr.active) else none)
    (hkey : ∀ job ∈ own, job.subjectId = drepId ∧ job.eventKey = wr.key drepId) :
    wr.Committed w (w.commit dreps (before ++ (own.toList ++ behind))) drepId where
  flips := congrArg (w.flips drepId ++ ·) (flagChange_of_write hflag)
  jobs := by
    obtain ⟨hbefore, hkeys⟩ := jobsOf_foldl_other
      (fun job h => hkeyed job (List.mem_append_left _ h))
      (fun job h => hother job (List.mem_append_left _ h)) w.jobs
    have hbehind : ∀ t : DrepStatusJobs,
        (behind.foldl KeyedTable.insertOrIgnore t).rows.filter (·.subjectId == drepId) =
          t.rows.filter (·.subjectId == drepId) := fun t =>
      (jobsOf_foldl_other (fun job h => hkeyed job (List.mem_append_right before h))
        (fun job h => hother job (List.mem_append_right before h)) t).1
    have hfree := hkeys (effectiveDrepStatus !wr.active) (effectiveDrepStatus wr.active)
      (wr.lastSyncedAt / 1000)
    rw [DrepStatusWorld.jobsOf, DrepStatusWorld.commit, List.foldl_append, List.foldl_append,
      hbehind]
    rcases own with _ | job
    · have hread : wr.read ≠ some (!wr.active) := fun h => by simp [h] at hown
      rw [if_neg fun h => hread h.1, List.append_nil]
      exact congrArg (List.map _) hbefore
    · have hread : wr.read = some (!wr.active) := by
        by_contra h
        simp [h] at hown
      obtain ⟨hsubject, hjob⟩ := hkey job rfl
      rw [if_pos hread, Option.map_some] at hown
      change (List.filter _ (KeyedTable.insertOrIgnore _ job).rows).map _ = _
      by_cases htaken : wr.key drepId ∈ w.jobs.rows.map (·.eventKey)
      · rw [if_neg fun h => h.2 htaken, List.append_nil, KeyedTable.insertOrIgnore,
          dif_pos (hjob ▸ hfree.mpr htaken), hbefore]
        rfl
      · rw [if_pos ⟨hread, htaken⟩, KeyedTable.rows_insertOrIgnore _ _
          (hjob ▸ fun h => htaken (hfree.mp h)), List.filter_append, hbefore,
          List.filter_cons_of_pos (by simpa using hsubject), List.filter_nil, List.map_append,
          List.map_singleton, Option.some.inj hown]
        rfl

theorem storedFlag_upsert (dreps : DrepTable) (args : Drep) :
    storedFlag (buildDrepUpsertStatement dreps args) drepId =
      if args.drepId = drepId then some args.active else storedFlag dreps drepId := by
  rw [storedFlag, drepById_upsert, storedFlag]
  split_ifs with h
  · rcases drepById dreps drepId with _ | row <;> rfl
  · rfl

theorem storedFlag_deactivate (rows : List DrepDeactivation) (dreps : DrepTable) :
    storedFlag (rows.foldl deactivateDrep dreps) drepId =
      if drepId ∈ rows.map (·.drepId) then (storedFlag dreps drepId).map fun _ => false
      else storedFlag dreps drepId := by
  induction rows generalizing dreps with
  | nil => rfl
  | cons r rows ih =>
    have hone : storedFlag (deactivateDrep dreps r) drepId =
        if r.drepId = drepId then (storedFlag dreps drepId).map fun _ => false
        else storedFlag dreps drepId := by
      have hupdate : drepById (deactivateDrep dreps r) drepId = (drepById dreps drepId).map
          fun row => if row.drepId == r.drepId then r.record row else row :=
        drepById_updateWhere dreps _ drepId
      rw [storedFlag, hupdate, storedFlag]
      rcases hrow : drepById dreps drepId with _ | row
      · simp
      · obtain ⟨-, hid⟩ := drepById_eq_some.mp hrow
        by_cases h : r.drepId = drepId
        · simp [h, hid, DrepDeactivation.record]
        · rw [if_neg h, Option.map_some, if_neg (by simpa [hid] using fun h' => h h'.symm)]
    rw [List.foldl_cons, ih, hone, List.map_cons]
    by_cases hr : r.drepId = drepId
    · simp [hr, Function.comp_def]
    · have hcons : drepId ∈ r.drepId :: rows.map (·.drepId) ↔ drepId ∈ rows.map (·.drepId) :=
        List.mem_cons.trans (or_iff_right fun h => hr h.symm)
      simp only [hr, if_false, hcons]

theorem job_of_deactivation {rows : List DrepDeactivation} {followed : List String}
    {oldById : List (String × StoredStatus)} {job : DrepStatusJob}
    (h : job ∈ (rows.filter fun r => followed.contains r.drepId).filterMap (·.job oldById)) :
    job.Keyed ∧ job.subjectId ∈ rows.map (·.drepId) := by
  obtain ⟨r, hr, hjob⟩ := List.mem_filterMap.mp h
  obtain ⟨old, -, hbuilt⟩ := Option.bind_eq_some_iff.mp hjob
  refine ⟨keyed_buildDrepStatusJob hbuilt, ?_⟩
  rw [(key_buildDrepStatusJob hbuilt).1]
  exact List.mem_map_of_mem (List.mem_filter.mp hr).1

variable (old : Option StoredStatus) (new : StoredStatus) (lastSyncedAt : ℤ)

theorem change_bind_job :
    (old.bind fun old => buildDrepStatusJob drepId old new lastSyncedAt).map (·.change) =
      if old.map (·.active) = some (!new.active) then
        some (effectiveDrepStatus !new.active, effectiveDrepStatus new.active) else none := by
  rcases old with _ | old
  · rfl
  · rw [Option.bind_some, change_buildDrepStatusJob, Option.map_some]
    simp only [Option.some.injEq]

theorem key_bind_job (job : DrepStatusJob)
    (h : job ∈ old.bind fun old => buildDrepStatusJob drepId old new lastSyncedAt) :
    job.subjectId = drepId ∧ job.eventKey =
      StatusWrite.key ⟨new.active, lastSyncedAt, old.map (·.active)⟩ drepId := by
  obtain ⟨o, rfl, hbuilt⟩ := Option.bind_eq_some_iff.mp h
  obtain ⟨hsubject, hkey⟩ := key_buildDrepStatusJob hbuilt
  refine ⟨hsubject, hkey.trans ?_⟩
  have hflip : o.active = !new.active := by
    by_contra hsame
    have hchange : (buildDrepStatusJob drepId o new lastSyncedAt).map (·.change) = none :=
      (change_buildDrepStatusJob o new lastSyncedAt).trans (if_neg hsame)
    rw [hbuilt] at hchange
    cases hchange
  rw [StatusWrite.key, hflip]

end Batch

/-! ### Runs -/

section Runs

variable {drepId : String} {w w' : DrepStatusWorld} {l l' : StatusCall}

/-- The call is made with a followed set that contains the DRep. -/
def StatusCall.Follows (drepId : String) : StatusCall → Prop
  | .upsert _ followed => drepId ∈ followed
  | .deactivating _ followed _ _ => drepId ∈ followed
  | _ => True

theorem upserting_effect (w : DrepStatusWorld) (args : Drep) (old : Option StoredStatus) :
    let call := StatusCall.upserting args old
    let w' := w.commit (buildDrepUpsertStatement w.dreps args) (args.job old).toList
    (call.writes drepId = none ∧ LeavesStatusAlone w w' drepId) ∨
      ∃ wr, call.writes drepId = some wr ∧ wr.Committed w w' drepId := by
  intro call w'
  by_cases hid : args.drepId = drepId
  · subst hid
    let wr : StatusWrite := ⟨args.active, args.lastSyncedAt, old.map (·.active)⟩
    refine .inr ⟨wr, if_pos rfl, ?_⟩
    have hflag : storedFlag (buildDrepUpsertStatement w.dreps args) args.drepId =
        some wr.active := (storedFlag_upsert w.dreps args).trans (if_pos rfl)
    have hnone : ∀ job ∈ ([] ++ [] : List DrepStatusJob), job.Keyed := by simp
    have hnone' : ∀ job ∈ ([] ++ [] : List DrepStatusJob), job.subjectId ≠ args.drepId := by simp
    have hcommit := committed_commit (w := w) (.inl hflag) hnone hnone'
      (change_bind_job old ⟨args.active, args.status⟩ args.lastSyncedAt)
      (key_bind_job old ⟨args.active, args.status⟩ args.lastSyncedAt)
    rwa [List.nil_append, List.append_nil] at hcommit
  · refine .inl ⟨if_neg hid, leavesStatusAlone_commit ?_ (fun job h => ?_) fun job h => ?_⟩
    · rw [storedFlag_upsert, if_neg hid]
    · obtain ⟨o, -, hbuilt⟩ := Option.bind_eq_some_iff.mp (Option.mem_toList.mp h)
      exact keyed_buildDrepStatusJob hbuilt
    · obtain ⟨o, -, hbuilt⟩ := Option.bind_eq_some_iff.mp (Option.mem_toList.mp h)
      exact (key_buildDrepStatusJob hbuilt).1 ▸ hid

theorem jobs_split {rows before behind : List DrepDeactivation} {r : DrepDeactivation}
    {followed : List String} (oldById : List (String × StoredStatus))
    (hrows : rows = before ++ r :: behind) (hfollowed : r.drepId ∈ followed) :
    (rows.filter fun r => followed.contains r.drepId).filterMap (·.job oldById) =
      (before.filter fun r => followed.contains r.drepId).filterMap (·.job oldById) ++
        ((r.job oldById).toList ++
          (behind.filter fun r => followed.contains r.drepId).filterMap (·.job oldById)) := by
  have hcons : (r :: behind).filter (fun r => followed.contains r.drepId) =
      r :: behind.filter fun r => followed.contains r.drepId :=
    List.filter_cons_of_pos (List.contains_iff_mem.mpr hfollowed)
  rw [hrows, List.filter_append, hcons, List.filterMap_append, List.filterMap_cons]
  rcases r.job oldById with _ | job <;> rfl

theorem deactivating_effect (w : DrepStatusWorld) (rows : Deactivations) {followed : List String}
    (oldById : List (String × StoredStatus)) (hfollowed : drepId ∈ followed) :
    let call := StatusCall.deactivating rows followed oldById []
    let w' := w.commit (rows.rows.foldl deactivateDrep w.dreps) (rows.jobs followed oldById)
    (call.writes drepId = none ∧ LeavesStatusAlone w w' drepId) ∨
      ∃ wr, call.writes drepId = some wr ∧ wr.Committed w w' drepId := by
  intro call w'
  rcases hfind : rows.rows.find? fun r => r.drepId == drepId with _ | r
  · have hnone : drepId ∉ rows.rows.map (·.drepId) := fun hmem => by
      obtain ⟨r, hr, hid⟩ := List.mem_map.mp hmem
      exact List.find?_eq_none.mp hfind r hr (beq_iff_eq.mpr hid)
    refine .inl ⟨congrArg (Option.map _) hfind, leavesStatusAlone_commit ?_ (fun job h => ?_)
      fun job h hid => ?_⟩
    · rw [storedFlag_deactivate, if_neg hnone]
    · exact (job_of_deactivation h).1
    · exact hnone (hid ▸ (job_of_deactivation h).2)
  · obtain ⟨hid, before, behind, hrows, -⟩ := List.find?_eq_some_iff_append.mp hfind
    obtain rfl := beq_iff_eq.mp hid
    let wr : StatusWrite := ⟨false, r.lastSyncedAt, (oldById.lookup r.drepId).map (·.active)⟩
    refine .inr ⟨wr, congrArg (Option.map _) hfind, ?_⟩
    -- the rows are of different DReps
    have hunique := rows.drep_unique
    rw [hrows, List.map_append, List.map_cons, List.nodup_append, List.nodup_cons] at hunique
    obtain ⟨-, ⟨hbehind, -⟩, hbefore⟩ := hunique
    have hflag : storedFlag (rows.rows.foldl deactivateDrep w.dreps) r.drepId = some wr.active ∨
        storedFlag w.dreps r.drepId = none ∧
          storedFlag (rows.rows.foldl deactivateDrep w.dreps) r.drepId = none := by
      rw [storedFlag_deactivate, hrows, if_pos (by simp)]
      rcases storedFlag w.dreps r.drepId with _ | flag
      · exact .inr ⟨rfl, rfl⟩
      · exact .inl rfl
    change wr.Committed w (w.commit _ (rows.jobs followed oldById)) r.drepId
    rw [Deactivations.jobs, jobs_split oldById hrows hfollowed]
    refine committed_commit hflag (fun job h => ?_) (fun job h hid => ?_)
      (change_bind_job (oldById.lookup r.drepId) ⟨false, r.status⟩ r.lastSyncedAt)
      (key_bind_job (oldById.lookup r.drepId) ⟨false, r.status⟩ r.lastSyncedAt)
    · exact (List.mem_append.mp h).elim (fun h => (job_of_deactivation h).1)
        fun h => (job_of_deactivation h).1
    · rcases List.mem_append.mp h with h | h
      · exact hbefore _ (job_of_deactivation h).2 _ List.mem_cons_self hid
      · exact hbehind (hid ▸ (job_of_deactivation h).2)

/-- **One statement** leaves the DRep alone, or is a batch that writes its row. -/
theorem statusStep_effect (hfollows : l.Follows drepId)
    (h : statusStep w l = some (w', l')) : l'.Follows drepId ∧
      ((l.writes drepId = none ∧ LeavesStatusAlone w w' drepId) ∨
        ∃ wr, l.writes drepId = some wr ∧ wr.Committed w w' drepId) := by
  rcases l with ⟨args, followed⟩ | ⟨args, old⟩ | ⟨rows, followed, oldById, _ | ⟨ids, left⟩⟩ | _
  · rw [statusStep] at h
    split_ifs at h with hfollowed <;>
      obtain ⟨rfl, rfl⟩ := Prod.ext_iff.mp (Option.some.inj h)
    · exact ⟨trivial, .inl ⟨rfl, rfl, rfl⟩⟩
    · -- an upsert that reads nothing is of another DRep
      have hother : args.drepId ≠ drepId := fun hid =>
        hfollowed (List.contains_iff_mem.mpr (hid ▸ hfollows))
      refine ⟨trivial, .inl ⟨rfl, leavesStatusAlone_commit ?_ (by simp) (by simp)⟩⟩
      rw [storedFlag_upsert, if_neg hother]
  · obtain ⟨rfl, rfl⟩ := Prod.ext_iff.mp (Option.some.inj h)
    exact ⟨trivial, upserting_effect w args old⟩
  · obtain ⟨rfl, rfl⟩ := Prod.ext_iff.mp (Option.some.inj h)
    exact ⟨trivial, deactivating_effect w rows oldById hfollows⟩
  · obtain ⟨rfl, rfl⟩ := Prod.ext_iff.mp (Option.some.inj h)
    exact ⟨hfollows, .inl ⟨rfl, rfl, rfl⟩⟩
  · exact nomatch h

/-- Calls with a followed set that contains the DRep. -/
def statusCalls (drepId : String) : Program DrepStatusWorld StatusCall where
  Start _ l := (∃ args followed, drepId ∈ followed ∧ l = .upsert args followed) ∨
    ∃ rows followed, drepId ∈ followed ∧ l = deactivateDreps rows followed
  Step w l w' l' := statusStep w l = some (w', l')
  Env _ _ := False

structure Unannounced (drepId : String) (w : DrepStatusWorld) : Prop where
  jobs : w.jobsOf drepId = []
  flips : w.flips drepId = []

/-- Each batch writes the DRep's row while what its call has read is current. -/
def currentReads (drepId : String) : Program.Condition DrepStatusWorld StatusCall where
  state _ := True
  mover w l := ∀ wr ∈ l.writes drepId, wr.Current w drepId
  others _ _ _ := True

/-- What a batch with current reads keeps. -/
def soundReads (drepId : String) :
    (statusCalls drepId).SoundWhen (currentReads drepId) (Unannounced drepId) where
  inv w := w.Announced drepId
  asserts _ l := l.Follows drepId
  apart _ _ := True
  symm _ _ _ := trivial
  init w h := by rw [DrepStatusWorld.Announced, h.jobs, h.flips]; rfl
  start w l _ _ h := by
    refine ⟨?_, fun _ _ => trivial⟩
    rcases h with ⟨args, followed, hmem, rfl⟩ | ⟨rows, followed, hmem, rfl⟩ <;> exact hmem
  step w l w' l' _ hcurrent hw hl h := by
    obtain ⟨hl', ⟨-, halone⟩ | ⟨wr, hwrites, hcommitted⟩⟩ := statusStep_effect hl h
    · refine ⟨?_, hl'⟩
      rw [DrepStatusWorld.Announced, halone.jobs, halone.flips]
      exact hw
    · exact ⟨(announced_iff hw hcommitted).mpr (hcurrent wr hwrites), hl'⟩
  noninterference _ _ _ _ _ _ _ _ _ _ hm _ _ := ⟨hm, trivial⟩
  env _ _ _ _ h := h.elim

end Runs

/-- **Jobs follow flips.** In every interleaving of calls in which each batch writes the DRep's row
while what its call has read is current, its jobs are the changes of its flag. -/
theorem jobs_follow_flips {ι : Type*} [DecidableEq ι] (drepId : String)
    {s : Interleaved DrepStatusWorld StatusCall ι}
    (h : (((statusCalls drepId).system ι (Unannounced drepId)).restrict
      (currentReads drepId).Met).Reachable s) : s.shared.Announced drepId :=
  ((soundReads drepId).holds h).inv

theorem statusStep_moves (drepId : String) (_ : Unit) (w : DrepStatusWorld) (l : StatusCall)
    (w' : DrepStatusWorld) (l' : StatusCall) (h : statusStep w l = some (w', l')) :
    (statusCalls drepId).Step w l w' l' := h

/-- A step whose batch writes what it has read, if it is of the DRep. -/
def currentStep (drepId : String) (_ : Unit) (w : DrepStatusWorld) (l : StatusCall) :
    Option (DrepStatusWorld × StatusCall) :=
  if (l.writes drepId).all fun wr => decide (wr.Current w drepId) then statusStep w l else none

theorem currentStep_eq_some (drepId : String) (_ : Unit) (w : DrepStatusWorld) (l : StatusCall)
    (w' : DrepStatusWorld) (l' : StatusCall) (h : currentStep drepId () w l = some (w', l')) :
    statusStep w l = some (w', l') ∧ True ∧ ∀ wr ∈ l.writes drepId, wr.Current w drepId := by
  rw [currentStep] at h
  split_ifs at h with hcurrent
  refine ⟨h, trivial, fun wr hwr => ?_⟩
  rw [Option.mem_def.mp hwr, Option.all_some] at hcurrent
  exact of_decide_eq_true hcurrent

def sampleDrep (active : Bool) (lastSyncedAt : ℤ) : Drep where
  drepId := "drep1"
  hex := none
  hasScript := false
  status := "registered"
  active := active
  deposit := none
  votingPower := none
  expiresEpochNo := none
  delegatorCount := none
  delegatorCountSyncedAt := none
  name := none
  bio := none
  links := none
  motivations := none
  qualifications := none
  paymentAddress := none
  doNotList := false
  imageUrl := none
  imageContentHash := none
  imageStoredUrl := none
  anchorUrl := none
  anchorHash := none
  anchorStatus := .no_anchor
  profileExtractVersion := 2
  imageFetchFailedAt := none
  metadataLastUpdatedAt := none
  lastSyncedAt := lastSyncedAt
  createdAt := 0

def sampleStatuses : DrepStatusWorld where
  dreps := ⟨[⟨sampleDrep true 0, 0⟩], List.nodup_singleton _⟩
  jobs := .empty
  flips _ := []

theorem unannounced_sample : Unannounced "drep1" sampleStatuses := ⟨rfl, rfl⟩

/-- One call after the other flips the flag and flips it back, a second later. -/
theorem jobs_follow_flips_back :
    ∃ s : Interleaved DrepStatusWorld StatusCall ℕ,
      (((statusCalls "drep1").system ℕ (Unannounced "drep1")).restrict
        (currentReads "drep1").Met).Reachable s ∧
        s.shared.flips "drep1" = [(true, false), (false, true)] ∧ s.shared.Announced "drep1" := by
  have h₀ : (((statusCalls "drep1").system ℕ (Unannounced "drep1")).restrict
      (currentReads "drep1").Met).Reachable ⟨sampleStatuses, fun _ => none⟩ :=
    .init ⟨unannounced_sample, fun _ => rfl⟩
  have h₁ := Program.reachable_start h₀ (i := 0) trivial rfl
    (.inr ⟨⟨[⟨"drep1", "retired", none, none, 1000⟩], List.nodup_singleton _⟩, ["drep1"],
      List.mem_singleton_self _, rfl⟩)
  have h₂ := Program.reachable_start h₁ (i := 1) trivial rfl
    (.inl ⟨sampleDrep true 2000, ["drep1"], List.mem_singleton_self _, rfl⟩)
  have h₃ := Program.reachable_runWhen (fun _ _ _ _ _ _ => trivial)
    (currentStep_eq_some "drep1") h₂ ([0, 0, 1, 1].map fun i => (i, ())) (by decide +kernel)
  exact ⟨_, h₃, by decide +kernel, jobs_follow_flips "drep1" h₃⟩

/-- Two upserts that have read the same row announce one flip twice; and of three flips within one
second, one has no job. -/
theorem not_jobs_follow_flips :
    (∃ s : Interleaved DrepStatusWorld StatusCall ℕ,
      ((statusCalls "drep1").system ℕ (Unannounced "drep1")).Reachable s ∧
        s.shared.flips "drep1" = [(true, false)] ∧
        (s.shared.jobsOf "drep1").map (·.change) =
          [(.active, .inactive), (.active, .inactive)]) ∧
    ∃ s : Interleaved DrepStatusWorld StatusCall ℕ,
      ((statusCalls "drep1").system ℕ (Unannounced "drep1")).Reachable s ∧
        s.shared.flips "drep1" = [(true, false), (false, true), (true, false)] ∧
        (s.shared.jobsOf "drep1").map (·.change) =
          [(.active, .inactive), (.inactive, .active)] := by
  have hupsert : ∀ (w : DrepStatusWorld) (active : Bool) (lastSyncedAt : ℤ),
      (statusCalls "drep1").Start w (.upsert (sampleDrep active lastSyncedAt) ["drep1"]) :=
    fun _ _ _ => .inl ⟨_, _, List.mem_singleton_self _, rfl⟩
  have h₀ : ((statusCalls "drep1").system ℕ (Unannounced "drep1")).Reachable
      ⟨sampleStatuses, fun _ => none⟩ := .init ⟨unannounced_sample, fun _ => rfl⟩
  constructor
  · have h₁ := h₀.step (.start (i := 0) rfl (hupsert _ false 1000))
    have h₂ := h₁.step (.start (i := 1) rfl (hupsert _ false 2000))
    have h₃ := Program.reachable_run (statusStep_moves "drep1") h₂
      ([0, 1, 0, 1].map fun i => (i, ())) (by decide +kernel)
    exact ⟨_, h₃, by decide +kernel, by decide +kernel⟩
  · have h₁ := h₀.step (.start (i := 0) rfl (hupsert _ false 1000))
    have h₂ := h₁.step (.start (i := 1) rfl (hupsert _ true 1500))
    have h₃ := h₂.step (.start (i := 2) rfl (hupsert _ false 1900))
    have h₄ := Program.reachable_run (statusStep_moves "drep1") h₃
      ([0, 0, 1, 1, 2, 2].map fun i => (i, ())) (by decide +kernel)
    exact ⟨_, h₄, by decide +kernel, by decide +kernel⟩

end DrepTalk
