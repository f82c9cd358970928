import DrepTalk.Delegation.Refresh
import DrepTalk.Library.Interleaving

/-!
# Since when a delegation

Any number of logins and cron passes, interleaved between their statements and requests, with the
chain answering whatever it likes. The world counts how often a delegation has been stored for each
account, and keeps the count that was current when the start in its row was looked up; a call keeps
the counts of its last lookup.

**What a start owes** (`StartsRight`). It was looked up after the delegation in its row had been
stored: the two counts agree.

A login that has found a new delegation writes its start flat, and the others compare with the
attempt stamp they have read; but a change clears the stamp, which is what a row that has never been
looked up has, and a first resolution leaves both as they are. So a start that was looked up for one
delegation can land on the next (`not_startsRight`). In every run in which no call stores a
delegation, or stamps a row, while a start of the account is about to land that was looked up
before, every start is right (`startsRight`).
-/

namespace DrepTalk

/-! ### What a step does to a row -/

/-- Whether a write lands on a row that has this start and this stamp. -/
def SinceWrite.landsAt (c : SinceWrite) (epoch stamp : Option ℤ) : Bool :=
  match c.mode with
  | .flat => true
  | .compare observed => epoch.isNone && stamp.getD (-1) == observed.getD (-1)

def SinceWrite.lands (c : SinceWrite) (row : DelegatorFollowRow) : Bool :=
  c.landsAt row.delegatedSinceEpoch row.sinceCheckedAt

/-- Whether the next statement stores the first delegation of a row. -/
def ApplyProc.creates (row : DelegatorFollowRow) : ApplyProc → Bool
  | .base args => row.userId == args.userId && row.resolutionStatus == .pending
  | _ => false

/-- Whether the next statement stores another delegation in a row. -/
def ApplyProc.changes (db : DelegationDb) (row : DelegatorFollowRow) : ApplyProc → Bool
  | .batch args old =>
    (changeBatch db args old).isSome && (row.userId == args.userId && differs args.state row)
  | _ => false

namespace RefreshProc

/-- The call of `applyResolution` a call is in. -/
def applying : RefreshProc → Option ApplyProc
  | .login (.apply _ l) => some l
  | .bulk (.apply _ l _ _ _ _) => some l
  | _ => none

/-- The starts a call has looked up and is about to write. -/
def waiting : RefreshProc → List SinceWrite
  | .login (.write _ c) => [c]
  | .bulk (.capture _ writes _) => writes
  | _ => []

def now : RefreshProc → ℤ
  | .login (.write args _) => args.now
  | .bulk (.capture args _ _) => args.now
  | _ => 0

/-- Whether the next step is the lookup of a start. -/
def looksUp : RefreshProc → Bool
  | .login (.lookup _ _) | .bulk (.history _ _ _) => true
  | _ => false

/-- Whether the next statement stores the first delegation of a row. -/
def creates (l : RefreshProc) (row : DelegatorFollowRow) : Bool :=
  l.applying.any (·.creates row)

/-- Whether the next statement stores another delegation in a row. -/
def changes (db : DelegationDb) (l : RefreshProc) (row : DelegatorFollowRow) : Bool :=
  l.applying.any (·.changes db row)

/-- The start the next statement writes to a row. -/
def writes (l : RefreshProc) (row : DelegatorFollowRow) : Option SinceWrite :=
  l.waiting.head?.filter fun c => row.userId == c.userId && c.lands row

/-- The start and the stamp a row has after the next statement. -/
def sinceAfter (db : DelegationDb) (l : RefreshProc) (row : DelegatorFollowRow) :
    Option ℤ × Option ℤ :=
  match l.writes row with
  | some c => (c.epoch, some l.now)
  | none =>
    if l.changes db row then (none, none) else (row.delegatedSinceEpoch, row.sinceCheckedAt)

end RefreshProc

/-! ### The world -/

/-- The tables; how often a delegation has been stored for an account, and how often it had been
when the start in its row was looked up. -/
structure SinceWorld where
  db : DelegationDb
  stored : String → ℕ
  looked : String → ℕ

/-- A call, with how often delegations had been stored at its last lookup. -/
structure RefreshCall where
  proc : RefreshProc
  seen : String → ℕ

/-- Whether a row of an account satisfies a predicate. -/
def anyOf (db : DelegationDb) (userId : String) (p : DelegatorFollowRow → Bool) : Bool :=
  db.follows.rows.any fun row => row.userId == userId && p row

/-- The next step of a call, with the records. -/
def sinceStep (isDrepId : String → Bool) (answer : KoiosAnswer) (w : SinceWorld) (c : RefreshCall) :
    Option (SinceWorld × RefreshCall) :=
  (refreshStep isDrepId answer w.db c.proc).map fun out =>
    ({ db := out.1
       stored := fun userId =>
        if anyOf w.db userId fun row => c.proc.creates row || c.proc.changes w.db row then
          w.stored userId + 1
        else w.stored userId
       looked := fun userId =>
        if anyOf w.db userId fun row => (c.proc.writes row).isSome then c.seen userId
        else w.looked userId },
      ⟨out.2, if c.proc.looksUp then w.stored else c.seen⟩)

/-- What comes in; a clock is not before its epoch. -/
inductive RefreshStart : RefreshCall → Prop
  | resolveFollow (args : LoginArgs) (seen : String → ℕ) :
    RefreshStart ⟨.login (.account args), seen⟩
  | refreshBulk (args : BulkArgs) (seen : String → ℕ) (hnow : 0 ≤ args.now) :
    RefreshStart ⟨.bulk (.due args), seen⟩

inductive SinceEnv (w : SinceWorld) : SinceWorld → Prop
  | ensureFollow (userId stakeAddr : String) : SinceEnv w { w with
      db := { w.db with follows := w.db.follows.insertOrIgnore (newFollow userId stakeAddr) } }
  | setExpectedDelegation (userId expectedDrepId : String) (expectedTx : Option String) (now : ℤ) :
    SinceEnv w { w with db := setExpectedDelegation w.db userId expectedDrepId expectedTx now }
  | notices (notices : ChangeNoticeTable) : SinceEnv w { w with db := { w.db with notices } }

/-- The calls, with what happens beside them. -/
def sinceProgram (isDrepId : String → Bool) : Program SinceWorld RefreshCall where
  Start _ c := RefreshStart c
  Step w c w' c' := ∃ answer, sinceStep isDrepId answer w c = some (w', c')
  Env := SinceEnv

def StartsRight (w : SinceWorld) : Prop :=
  ∀ row ∈ w.db.follows.rows, row.delegatedSinceEpoch.isSome →
    w.looked row.userId = w.stored row.userId

/-- The condition on a run: a row has no start when its first delegation is stored; and no step
leaves a row as the outdated write of another call wants it. -/
def startsLeftAlone : Program.Condition SinceWorld RefreshCall where
  state _ := True
  mover w c := ∀ row ∈ w.db.follows.rows, c.proc.creates row → row.delegatedSinceEpoch = none
  others w c m := ∀ x ∈ m.proc.waiting, x.epoch.isSome → ∀ row ∈ w.db.follows.rows,
    row.userId = x.userId →
      (c.proc.creates row → x.lands row = false) ∧
      (c.proc.changes w.db row → x.landsAt none none = false) ∧
      (∀ y, c.proc.writes row = some y → y.epoch = none → m.seen x.userId ≠ w.stored x.userId →
        x.landsAt none (some c.proc.now) = false)

/-! ### One step on the rows -/

theorem clearExpired_since (now : ℤ) (row : DelegatorFollowRow) :
    (clearExpired now row).delegatedSinceEpoch = row.delegatedSinceEpoch ∧
      (clearExpired now row).sinceCheckedAt = row.sinceCheckedAt := by
  rw [clearExpired]
  split_ifs <;> exact ⟨rfl, rfl⟩

theorem ApplyProc.onRow_since (l : ApplyProc) (row : DelegatorFollowRow) :
    ((l.onRow row).delegatedSinceEpoch, (l.onRow row).sinceCheckedAt) =
      match l with
      | .batch args _ =>
        if row.userId == args.userId && differs args.state row then (none, none)
        else (row.delegatedSinceEpoch, row.sinceCheckedAt)
      | _ => (row.delegatedSinceEpoch, row.sinceCheckedAt) := by
  cases l with
  | batch args old =>
    dsimp only
    rw [ApplyProc.onRow]
    split_ifs
    · -- a change takes the start and its stamp away
      rw [changeDelegation]
      exact Prod.ext (clearExpired_since _ _).1 (clearExpired_since _ _).2
    · rfl
  | confirm args =>
    rw [ApplyProc.onRow]
    split_ifs
    · -- a confirmation keeps them
      rw [confirmDelegation]
      exact Prod.ext (clearExpired_since _ _).1 (clearExpired_since _ _).2
    · rfl
  | error userId now | base args =>
    rw [ApplyProc.onRow]
    split_ifs <;> rfl
  | read args | returned applied => rfl
  | threw => rfl

/-- The rows after a step, by their starts and stamps. -/
def RowsAfter (db db' : DelegationDb) (l : RefreshProc) : Prop :=
  ∃ g : DelegatorFollowRow → DelegatorFollowRow, db'.follows.rows = db.follows.rows.map g ∧
    ∀ row, (g row).userId = row.userId ∧
      ((g row).delegatedSinceEpoch, (g row).sinceCheckedAt) = l.sinceAfter db row

variable {db db' : DelegationDb} {l l' : RefreshProc} {isDrepId : String → Bool}
  {answer : KoiosAnswer} {c c' : RefreshCall} {w w' : SinceWorld} {counts : BulkCounts}

theorem RowsAfter.same
    (h : ∀ row, l.sinceAfter db row = (row.delegatedSinceEpoch, row.sinceCheckedAt)) :
    RowsAfter db db l :=
  ⟨id, (List.map_id _).symm, fun row => ⟨rfl, (h row).symm⟩⟩

theorem RowsAfter.apply {a a' : ApplyProc}
    (hl : ∀ row, l.sinceAfter db row = if a.changes db row then (none, none) else
      (row.delegatedSinceEpoch, row.sinceCheckedAt)) (hstep : applyStep db a = some (db', a')) :
    RowsAfter db db' l := by
  rcases applyStep_rows hstep with ⟨hdone, hrows⟩ | ⟨rfl, rfl, args, old, rfl, hfails⟩
  · refine ⟨a.onRow, hrows, fun row => ⟨a.onRow_userId row, ?_⟩⟩
    rw [hl, ApplyProc.onRow_since]
    cases a with
    | batch args old =>
      have hbatch : (changeBatch db args old).isSome := by
        rw [applyStep] at hstep
        split at hstep
        · exact absurd (Prod.mk.inj (Option.some.inj hstep)).2.symm hdone
        · rename_i hbatch
          rw [hbatch]
          rfl
      simp only [ApplyProc.changes, hbatch, Bool.true_and]
    | error userId now | base args | read args | confirm args | returned applied => rfl
    | threw => rfl
  · refine .same fun row => ?_
    rw [hl, ApplyProc.changes, hfails, Option.isSome_none, Bool.false_and, if_neg (by simp)]

theorem SinceWrite.write_rows (c : SinceWrite) (now : ℤ) (db : DelegationDb) :
    (c.write now db).follows.rows = db.follows.rows.map fun row =>
      if row.userId == c.userId && c.lands row then recordSince c.epoch now c.failed row else row := by
  obtain ⟨userId, epoch, failed, mode⟩ := c
  cases mode <;> rfl

theorem RowsAfter.write {c : SinceWrite} (hl : l.waiting.head? = some c)
    (hnone : l.applying = none) : RowsAfter db (c.write l.now db) l := by
  refine ⟨_, c.write_rows l.now db, fun row => ?_⟩
  have hwrites : l.writes row = if row.userId == c.userId && c.lands row then some c else none := by
    rw [RefreshProc.writes, hl, Option.filter_some]
  rw [RefreshProc.sinceAfter, hwrites, RefreshProc.changes, hnone, Option.any_none,
    if_neg Bool.false_ne_true]
  split_ifs <;> exact ⟨rfl, rfl⟩

/-- **One step on the rows.** -/
theorem refreshStep_rows (h : refreshStep isDrepId answer db l = some (db', l')) :
    RowsAfter db db' l := by
  cases l with
  | login l =>
    obtain ⟨out, hout, ⟨⟩⟩ := Option.map_eq_some_iff.mp h
    cases l with
    | account args | read args | lookup args mode =>
      cases hout
      exact .same fun _ => rfl
    | apply args a =>
      obtain ⟨applied, happlied, rfl⟩ := Option.map_eq_some_iff.mp hout
      exact .apply (fun _ => rfl) happlied
    | write args c =>
      cases hout
      exact RowsAfter.write (l := .login (.write args c)) rfl rfl
    | returned => cases hout
  | bulk l =>
    obtain ⟨out, hout, ⟨⟩⟩ := Option.map_eq_some_iff.mp h
    cases l with
    | due args | accounts args byAddr | history args pending counts =>
      cases hout
      exact .same fun _ => rfl
    | errors args chunks counts =>
      cases chunks with
      | nil =>
        cases hout
        exact .same fun _ => rfl
      | cons chunk chunks =>
        cases hout
        refine ⟨_, rfl, fun row => ?_⟩
        split_ifs <;> exact ⟨rfl, rfl⟩
    | apply args a infos todo userIds counts =>
      obtain ⟨applied, happlied, rfl⟩ := Option.map_eq_some_iff.mp hout
      exact .apply (fun _ => rfl) happlied
    | list args chunks found counts =>
      cases chunks <;>
      · cases hout
        exact .same fun _ => rfl
    | capture args writes counts =>
      cases writes with
      | nil =>
        cases hout
        exact .same fun _ => rfl
      | cons c writes =>
        cases hout
        exact RowsAfter.write (l := .bulk (.capture args (c :: writes) counts)) rfl rfl
    | returned counts => cases hout

theorem RowsAfter.row (h : RowsAfter db db' l) {row : DelegatorFollowRow}
    (hrow : row ∈ db.follows.rows) :
    ∃ row' ∈ db'.follows.rows, row'.userId = row.userId ∧
      (row'.delegatedSinceEpoch, row'.sinceCheckedAt) = l.sinceAfter db row := by
  obtain ⟨g, hrows, hg⟩ := h
  exact ⟨g row, hrows ▸ List.mem_map_of_mem hrow, hg row⟩

theorem RowsAfter.row' (h : RowsAfter db db' l) {row' : DelegatorFollowRow}
    (hrow' : row' ∈ db'.follows.rows) :
    ∃ row ∈ db.follows.rows, row'.userId = row.userId ∧
      (row'.delegatedSinceEpoch, row'.sinceCheckedAt) = l.sinceAfter db row := by
  obtain ⟨g, hrows, hg⟩ := h
  rw [hrows] at hrow'
  obtain ⟨row, hrow, rfl⟩ := List.mem_map.mp hrow'
  exact ⟨row, hrow, hg row⟩

theorem anyOf_row {row : DelegatorFollowRow} (hrow : row ∈ db.follows.rows)
    (p : DelegatorFollowRow → Bool) : anyOf db row.userId p = p row := by
  refine Bool.eq_iff_iff.mpr ⟨fun hany => ?_, fun hp => ?_⟩
  · obtain ⟨row', hrow', hboth⟩ := List.any_eq_true.mp hany
    rw [Bool.and_eq_true, beq_iff_eq] at hboth
    obtain rfl := db.follows.eq_of_key hrow' hrow hboth.1
    exact hboth.2
  · exact List.any_eq_true.mpr ⟨row, hrow, by rw [beq_self_eq_true, Bool.true_and, hp]⟩

theorem of_anyOf {userId : String} {p : DelegatorFollowRow → Bool} (h : anyOf db userId p = true) :
    ∃ row ∈ db.follows.rows, row.userId = userId ∧ p row = true := by
  obtain ⟨row, hrow, hboth⟩ := List.any_eq_true.mp h
  rw [Bool.and_eq_true, beq_iff_eq] at hboth
  exact ⟨row, hrow, hboth⟩

/-! ### Starts that are about to land -/

/-- A start that was looked up for the delegation that is stored, or does not land. -/
def Settled (w : SinceWorld) (seen : String → ℕ) (x : SinceWrite) : Prop :=
  seen x.userId = w.stored x.userId ∨
    ∃ row ∈ w.db.follows.rows, row.userId = x.userId ∧ x.lands row = false

/-- What a step has to leave alone for a start that is about to land. -/
def LeavesAlone (w : SinceWorld) (l : RefreshProc) (seen : String → ℕ) (x : SinceWrite) : Prop :=
  ∀ row ∈ w.db.follows.rows, row.userId = x.userId →
    (l.creates row → x.lands row = false) ∧
    (l.changes w.db row → x.landsAt none none = false) ∧
    (∀ y, l.writes row = some y → y.epoch = none → seen x.userId ≠ w.stored x.userId →
      x.landsAt none (some l.now) = false)

theorem RefreshProc.applying_of_writes {row : DelegatorFollowRow} {c : SinceWrite}
    (h : l.writes row = some c) : l.applying = none ∧ c ∈ l.waiting ∧ row.userId = c.userId ∧
      c.lands row = true := by
  obtain ⟨hhead, hrow⟩ := Option.filter_eq_some_iff.mp h
  rw [Bool.and_eq_true, beq_iff_eq] at hrow
  refine ⟨?_, List.mem_of_head? hhead, hrow⟩
  cases l with
  | login l | bulk l => cases l <;> first | rfl | cases hhead

variable {x : SinceWrite} {seen : String → ℕ} {found : List FollowMissingSince}
  {f : FollowMissingSince} {args : BulkArgs} {infos : List AccountInfo} {userIds : List String}
  {todo : List DueFollow}

theorem SinceWrite.not_lands_some {row : DelegatorFollowRow} (h : x.lands row = false) (epoch : ℤ)
    (stamp : Option ℤ) : x.landsAt (some epoch) stamp = false := by
  obtain ⟨userId, start, failed, mode⟩ := x
  cases mode with
  | flat => cases h
  | compare observed => rfl

/-- **A step that leaves a start alone** leaves it settled. -/
theorem Settled.step (h : Settled w seen x) (hleft : LeavesAlone w c.proc seen x)
    (hstep : sinceStep isDrepId answer w c = some (w', c')) : Settled w' seen x := by
  obtain ⟨out, hout, ⟨⟩⟩ := Option.map_eq_some_iff.mp hstep
  have hrows := refreshStep_rows hout
  by_cases hstores : anyOf w.db x.userId fun row => c.proc.creates row || c.proc.changes w.db row
  · -- a delegation is stored, and the start does not land on it
    obtain ⟨row, hrow, hid, hboth⟩ := of_anyOf hstores
    obtain ⟨row', hrow', hid', hsince⟩ := hrows.row hrow
    refine .inr ⟨row', hrow', hid'.trans hid, ?_⟩
    obtain ⟨hcreates, hchanges, -⟩ := hleft row hrow hid
    have hnone : c.proc.writes row = none := by
      rcases hwrites : c.proc.writes row with _ | y
      · rfl
      · have hidle := (RefreshProc.applying_of_writes hwrites).1
        rw [RefreshProc.creates, RefreshProc.changes, hidle] at hboth
        cases hboth
    rw [RefreshProc.sinceAfter, hnone] at hsince
    rcases hchanged : c.proc.changes w.db row with _ | _
    · rw [hchanged, Bool.or_false] at hboth
      rw [hchanged, if_neg Bool.false_ne_true] at hsince
      obtain ⟨hepoch, hstamp⟩ := Prod.mk.inj hsince
      rw [SinceWrite.lands, hepoch, hstamp]
      exact hcreates hboth
    · rw [hchanged, if_pos rfl] at hsince
      obtain ⟨hepoch, hstamp⟩ := Prod.mk.inj hsince
      rw [SinceWrite.lands, hepoch, hstamp]
      exact hchanges hchanged
  · have hstored : ∀ fresh, seen x.userId = w.stored x.userId → Settled
        ⟨out.1, fun userId => if anyOf w.db userId fun row =>
            c.proc.creates row || c.proc.changes w.db row then w.stored userId + 1
          else w.stored userId, fresh⟩ seen x := fun fresh hseen =>
      .inl (by rw [hseen]; exact (if_neg hstores).symm)
    by_cases hseen : seen x.userId = w.stored x.userId
    · exact hstored _ hseen
    · -- the start is outdated, and did not land before
      obtain ⟨row, hrow, hid, hlands⟩ := h.resolve_left hseen
      obtain ⟨row', hrow', hid', hsince⟩ := hrows.row hrow
      refine .inr ⟨row', hrow', hid'.trans hid, ?_⟩
      rw [RefreshProc.sinceAfter] at hsince
      rcases hwrites : c.proc.writes row with _ | y
      · have hchanges : c.proc.changes w.db row = false := by
          rw [← hid, anyOf_row hrow, Bool.or_eq_true, not_or] at hstores
          exact Bool.eq_false_iff.mpr hstores.2
        rw [hwrites] at hsince
        rw [hchanges, if_neg Bool.false_ne_true] at hsince
        obtain ⟨hepoch, hstamp⟩ := Prod.mk.inj hsince
        rw [SinceWrite.lands, hepoch, hstamp]
        exact hlands
      · rw [hwrites] at hsince
        obtain ⟨hepoch, hstamp⟩ := Prod.mk.inj hsince
        rw [SinceWrite.lands, hepoch, hstamp]
        rcases hfound : y.epoch with _ | epoch
        · exact (hleft row hrow hid).2.2 y hwrites hfound hseen
        · exact x.not_lands_some hlands epoch _

/-! ### The calls -/

/-- What a call relies on: a clock that is not before its epoch, and observed stamps that are before
now. -/
def BulkProc.Timely : BulkProc → Prop
  | .due args | .accounts args _ | .errors args _ _ | .apply args _ _ _ _ _ => 0 ≤ args.now
  | .list args _ found _ | .history args found _ =>
    0 ≤ args.now ∧ ∀ f ∈ found, f.sinceCheckedAt.getD (-1) < args.now
  | .capture args writes _ =>
    ∀ x ∈ writes, ∃ observed, x.mode = .compare observed ∧ observed.getD (-1) < args.now
  | .returned _ => True

theorem mem_stalestMissing {limit : ℕ} (h : f ∈ stalestMissing limit found) : f ∈ found :=
  (List.mem_insertionSort _).mp (List.mem_of_mem_take h)

theorem lt_of_mem_listMissingChunk {chunk : List String} {now : ℤ} {limit : ℕ} (hnow : 0 ≤ now)
    (h : f ∈ listMissingChunk db chunk (now - SINCE_RETRY_SEC) limit) :
    f.sinceCheckedAt.getD (-1) < now := by
  obtain ⟨row, hrow, rfl⟩ := List.mem_map.mp (mem_stalestMissing h)
  have hstale := (List.mem_filter.mp hrow).2
  rw [Bool.and_eq_true] at hstale
  rcases hstamp : row.sinceCheckedAt with _ | stamp
  · rw [Option.getD_none]
    omega
  · have hlt : stamp < now - SINCE_RETRY_SEC := by simpa [hstamp] using hstale.2
    rw [SINCE_RETRY_SEC] at hlt
    rw [Option.getD_some]
    omega

theorem bulkList_timely {chunks : List (List String)} (hnow : 0 ≤ args.now)
    (hfound : ∀ f ∈ found, f.sinceCheckedAt.getD (-1) < args.now) :
    (bulkList args counts found chunks).Timely := by
  cases chunks with
  | nil =>
    rw [bulkList]
    split
    · exact trivial
    · exact ⟨hnow, fun f hf => hfound f (mem_stalestMissing hf)⟩
  | cons chunk chunks => exact ⟨hnow, hfound⟩

theorem bulkNext_timely (hnow : 0 ≤ args.now) :
    (bulkNext isDrepId args infos userIds counts todo).Timely := by
  cases todo with
  | nil => exact bulkList_timely hnow fun f hf => absurd hf List.not_mem_nil
  | cons due todo => exact hnow

theorem bulkApplied_timely (hnow : 0 ≤ args.now) (a : ApplyProc) :
    (bulkApplied isDrepId args infos todo userIds counts a).Timely := by
  cases a with
  | returned applied => cases applied <;> exact bulkNext_timely hnow
  | threw => exact bulkNext_timely hnow
  | error userId now => exact hnow
  | base args' | read args' | confirm args' => exact hnow
  | batch args' old => exact hnow

theorem bulkStep_timely {l : BulkProc} {out : DelegationDb × BulkProc} (h : l.Timely)
    (hstep : bulkStep isDrepId answer db l = some out) : out.2.Timely := by
  cases l with
  | due args =>
    cases hstep
    split
    · exact trivial
    · exact h
  | accounts args byAddr =>
    cases hstep
    split
    · exact h
    · exact bulkNext_timely h
  | errors args chunks counts =>
    cases chunks with
    | nil =>
      cases hstep
      exact trivial
    | cons chunk chunks =>
      cases hstep
      exact h
  | apply args a infos todo userIds counts =>
    obtain ⟨applied, -, rfl⟩ := Option.map_eq_some_iff.mp hstep
    exact bulkApplied_timely h _
  | list args chunks found counts =>
    cases chunks with
    | nil =>
      cases hstep
      exact (bulkList_timely h.1 h.2 : (bulkList args counts found []).Timely)
    | cons chunk chunks =>
      cases hstep
      refine bulkList_timely h.1 fun f hf => ?_
      rcases List.mem_append.mp hf with hold | hnew
      · -- found before, and just now
        exact h.2 f hold
      · exact lt_of_mem_listMissingChunk h.1 hnew
  | history args pending counts =>
    cases hstep
    intro x hx
    obtain ⟨p, hp, rfl⟩ := List.mem_map.mp hx
    -- every write compares with the stamp that was listed
    exact ⟨p.sinceCheckedAt, rfl, h.2 p hp⟩
  | capture args writes counts =>
    cases writes with
    | nil =>
      cases hstep
      exact trivial
    | cons c writes =>
      cases hstep
      exact fun x hx => h x (List.mem_cons_of_mem _ hx)
  | returned counts => cases hstep

theorem waiting_bulkList (args : BulkArgs) (counts : BulkCounts) (found : List FollowMissingSince)
    (chunks : List (List String)) :
    (RefreshProc.bulk (bulkList args counts found chunks)).waiting = [] := by
  cases chunks with
  | nil =>
    rw [bulkList]
    split <;> rfl
  | cons chunk chunks => rfl

theorem waiting_bulkNext (isDrepId : String → Bool) (args : BulkArgs) (infos : List AccountInfo)
    (userIds : List String) (counts : BulkCounts) (todo : List DueFollow) :
    (RefreshProc.bulk (bulkNext isDrepId args infos userIds counts todo)).waiting = [] := by
  cases todo with
  | nil => exact waiting_bulkList args counts [] _
  | cons due todo => rfl

theorem waiting_bulkApplied (isDrepId : String → Bool) (args : BulkArgs) (infos : List AccountInfo)
    (todo : List DueFollow) (userIds : List String) (counts : BulkCounts) (a : ApplyProc) :
    (RefreshProc.bulk (bulkApplied isDrepId args infos todo userIds counts a)).waiting = [] := by
  cases a with
  | returned applied => cases applied <;> exact waiting_bulkNext _ _ _ _ _ _
  | threw => exact waiting_bulkNext _ _ _ _ _ _
  | error userId now | base args' | read args' | confirm args' => rfl
  | batch args' old => rfl

theorem waiting_loginApplied (args : LoginArgs) (a : ApplyProc) :
    (RefreshProc.login (loginApplied args a)).waiting = [] := by
  cases a with
  | returned applied => cases applied <;> rfl
  | threw | error userId now | base args' | read args' | confirm args' => rfl
  | batch args' old => rfl

/-- **Where waiting starts come from**: a lookup, or a pass that has more than one to write. -/
theorem refreshStep_waiting (h : refreshStep isDrepId answer db l = some (db', l')) :
    l'.waiting = [] ∨ (l.looksUp = true ∧ l.applying = none) ∨
      ∃ args c writes counts, l = .bulk (.capture args (c :: writes) counts) ∧
        l' = .bulk (.capture args writes counts) := by
  cases l with
  | login l =>
    obtain ⟨out, hout, ⟨⟩⟩ := Option.map_eq_some_iff.mp h
    cases l with
    | account args | write args c =>
      cases hout
      exact .inl rfl
    | read args =>
      cases hout
      refine .inl ?_
      rcases getFollow db args.userId with _ | row
      · rfl
      · rw [loginRead]
        split_ifs <;> rfl
    -- the answer of a lookup is what waits
    | lookup args mode => exact .inr (.inl ⟨rfl, rfl⟩)
    | apply args a =>
      obtain ⟨applied, -, rfl⟩ := Option.map_eq_some_iff.mp hout
      exact .inl (waiting_loginApplied args _)
    | returned => cases hout
  | bulk l =>
    obtain ⟨out, hout, ⟨⟩⟩ := Option.map_eq_some_iff.mp h
    cases l with
    | due args =>
      cases hout
      refine .inl ?_
      split <;> rfl
    | accounts args byAddr =>
      cases hout
      refine .inl ?_
      split
      · rfl
      · exact waiting_bulkNext _ _ _ _ _ _
    | errors args chunks counts =>
      cases chunks <;>
      · cases hout
        exact .inl rfl
    | apply args a infos todo userIds counts =>
      obtain ⟨applied, -, rfl⟩ := Option.map_eq_some_iff.mp hout
      exact .inl (waiting_bulkApplied _ _ _ _ _ _ _)
    | list args chunks found counts =>
      cases chunks with
      | nil =>
        cases hout
        exact .inl (waiting_bulkList args counts found [])
      | cons chunk chunks =>
        cases hout
        exact .inl (waiting_bulkList args counts _ chunks)
    | history args pending counts => exact .inr (.inl ⟨rfl, rfl⟩)
    | capture args writes counts =>
      cases writes with
      | nil =>
        cases hout
        exact .inl rfl
      | cons c writes =>
        cases hout
        -- the write at the head has gone, the others still wait
        exact .inr (.inr ⟨args, c, writes, counts, rfl, rfl⟩)
    | returned counts => cases hout

structure RefreshCall.Sure (w : SinceWorld) (c : RefreshCall) : Prop where
  timely : ∀ l, c.proc = .bulk l → l.Timely
  settled : ∀ x ∈ c.proc.waiting, x.epoch.isSome → Settled w c.seen x

theorem RefreshCall.Sure.step (h : c.Sure w)
    (hstep : sinceStep isDrepId answer w c = some (w', c')) : c'.Sure w' := by
  obtain ⟨out, hout, heq⟩ := Option.map_eq_some_iff.mp hstep
  obtain ⟨hw, rfl⟩ := Prod.mk.inj heq
  refine ⟨fun l hl => ?_, fun x hx hsome => ?_⟩
  · obtain ⟨proc, seen⟩ := c
    cases proc with
    | login l' =>
      obtain ⟨done, -, rfl⟩ := Option.map_eq_some_iff.mp hout
      cases hl
    | bulk l' =>
      obtain ⟨done, hdone, rfl⟩ := Option.map_eq_some_iff.mp hout
      obtain rfl := RefreshProc.bulk.inj hl
      exact bulkStep_timely (h.timely l' rfl) hdone
  · rcases refreshStep_waiting hout with hnone | ⟨hlooks, hidle⟩ |
      ⟨args, y, writes, counts, hl, hl'⟩
    · dsimp only at hx
      rw [hnone] at hx
      cases hx
    · -- what has just been looked up belongs to the delegation that is stored
      left
      dsimp only
      rw [hlooks, if_pos rfl, ← hw]
      refine (if_neg fun hstores => ?_).symm
      obtain ⟨row, -, -, hboth⟩ := of_anyOf hstores
      rw [RefreshProc.creates, RefreshProc.changes, hidle] at hboth
      cases hboth
    · obtain ⟨proc, seen⟩ := c
      dsimp only at hl hl' hx
      subst hl
      rw [hl'] at hx
      have hmem : x ∈ (RefreshProc.bulk (.capture args (y :: writes) counts)).waiting :=
        List.mem_cons_of_mem _ hx
      refine (h.settled x hmem hsome).step (fun row _ _ => ⟨fun hcreates => ?_, fun hchanges => ?_,
        fun y' _ _ _ => ?_⟩) hstep
      · cases hcreates
      · cases hchanges
      · obtain ⟨observed, hmode, hlt⟩ := h.timely _ rfl x hmem
        rw [SinceWrite.landsAt, hmode]
        exact beq_eq_false_iff_ne.mpr (ne_of_gt hlt)

theorem startsRight_step (h : StartsRight w) (hsure : c.Sure w)
    (hcreates : ∀ row ∈ w.db.follows.rows, c.proc.creates row → row.delegatedSinceEpoch = none)
    (hstep : sinceStep isDrepId answer w c = some (w', c')) : StartsRight w' := by
  obtain ⟨out, hout, ⟨⟩⟩ := Option.map_eq_some_iff.mp hstep
  intro row' hrow' hsome
  obtain ⟨row, hrow, hid, hsince⟩ := (refreshStep_rows hout).row' hrow'
  dsimp only
  rw [hid, anyOf_row hrow, anyOf_row hrow]
  rw [RefreshProc.sinceAfter] at hsince
  rcases hwrites : c.proc.writes row with _ | x
  · rw [hwrites] at hsince
    rw [Option.isSome_none, if_neg Bool.false_ne_true]
    -- the step writes no start of the row: it stores a delegation, or leaves the row
    rcases hchanges : c.proc.changes w.db row with _ | _
    · rw [hchanges, if_neg Bool.false_ne_true] at hsince
      rw [(Prod.mk.inj hsince).1] at hsome
      rw [Bool.or_false, if_neg]
      · exact h row hrow hsome
      · intro hcreated
        rw [hcreates row hrow hcreated] at hsome
        cases hsome
    · rw [hchanges, if_pos rfl] at hsince
      rw [(Prod.mk.inj hsince).1] at hsome
      cases hsome
  · rw [hwrites] at hsince
    rw [(Prod.mk.inj hsince).1] at hsome
    obtain ⟨hidle, hmem, huser, hlands⟩ := RefreshProc.applying_of_writes hwrites
    have hquiet : (c.proc.creates row || c.proc.changes w.db row) = false := by
      rw [RefreshProc.creates, RefreshProc.changes, hidle]
      rfl
    rw [Option.isSome_some, if_pos rfl, hquiet, if_neg Bool.false_ne_true, huser]
    -- the start that lands was looked up after the stored delegation
    refine (hsure.settled x hmem hsome).resolve_right ?_
    rintro ⟨other, hother, hotherid, hnot⟩
    obtain rfl := w.db.follows.eq_of_key hother hrow (hotherid.trans huser.symm)
    rw [hlands] at hnot
    cases hnot

/-! ### Every run -/

theorem Settled.kept (h : Settled w seen x) (hstored : w'.stored = w.stored)
    (hrows : ∀ row ∈ w.db.follows.rows, ∃ row' ∈ w'.db.follows.rows, row'.userId = row.userId ∧
      row'.delegatedSinceEpoch = row.delegatedSinceEpoch ∧
        row'.sinceCheckedAt = row.sinceCheckedAt) : Settled w' seen x := by
  rcases h with hseen | ⟨row, hrow, hid, hlands⟩
  · exact .inl (hseen.trans (congrFun hstored _).symm)
  · obtain ⟨row', hrow', hid', hepoch, hstamp⟩ := hrows row hrow
    refine .inr ⟨row', hrow', hid'.trans hid, ?_⟩
    rw [SinceWrite.lands, hepoch, hstamp]
    exact hlands

theorem SinceEnv.kept (h : SinceEnv w w') : w'.stored = w.stored ∧
    w'.looked = w.looked ∧
    (∀ row ∈ w.db.follows.rows, ∃ row' ∈ w'.db.follows.rows, row'.userId = row.userId ∧
      row'.delegatedSinceEpoch = row.delegatedSinceEpoch ∧
        row'.sinceCheckedAt = row.sinceCheckedAt) ∧
    ∀ row' ∈ w'.db.follows.rows, row'.delegatedSinceEpoch = none ∨
      ∃ row ∈ w.db.follows.rows, row'.userId = row.userId ∧
        row'.delegatedSinceEpoch = row.delegatedSinceEpoch := by
  cases h with
  | ensureFollow userId stakeAddr =>
    refine ⟨rfl, rfl, fun row hrow => ?_, fun row' hrow' => ?_⟩
    · exact ⟨row, KeyedTable.mem_insertOrIgnore.mpr (.inl hrow), rfl, rfl, rfl⟩
    · rcases KeyedTable.mem_insertOrIgnore.mp hrow' with hold | ⟨rfl, -⟩
      · exact .inr ⟨row', hold, rfl, rfl⟩
      · exact .inl rfl
  | setExpectedDelegation userId expectedDrepId expectedTx now =>
    refine ⟨rfl, rfl, fun row hrow => ?_, fun row' hrow' => .inr ?_⟩
    · refine ⟨_, Table.mem_updateWhere_of_mem _ _ hrow, ?_⟩
      split_ifs <;> exact ⟨rfl, rfl, rfl⟩
    · obtain ⟨row, hrow, rfl⟩ := List.mem_map.mp hrow'
      refine ⟨row, hrow, ?_⟩
      split_ifs <;> exact ⟨rfl, rfl⟩
  | notices notices =>
    exact ⟨rfl, rfl, fun row hrow => ⟨row, hrow, rfl, rfl, rfl⟩,
      fun row hrow => .inr ⟨row, hrow, rfl, rfl⟩⟩

/-- What holds of the starts and the calls, step by step. -/
def startsSound (isDrepId : String → Bool) :
    (sinceProgram isDrepId).SoundWhen startsLeftAlone StartsRight where
  inv := StartsRight
  asserts w c := c.Sure w
  apart _ _ := True
  symm _ _ h := h
  init _ h := h
  start w c _ _ hstart := by
    refine ⟨?_, fun _ _ => trivial⟩
    cases hstart with
    | resolveFollow args seen =>
      exact ⟨fun l hl => (by cases hl), nofun⟩
    | refreshBulk args seen hnow =>
      refine ⟨fun l hl => ?_, nofun⟩
      obtain rfl := RefreshProc.bulk.inj hl
      exact hnow
  step w c w' c' _ hcreates hright hsure hstep := by
    obtain ⟨answer, hstep⟩ := hstep
    exact ⟨startsRight_step hright hsure hcreates hstep, hsure.step hstep⟩
  noninterference w c w' c' m _ _ hleft _ _ hother _ hstep := by
    obtain ⟨answer, hstep⟩ := hstep
    refine ⟨⟨hother.timely, fun x hx hsome => ?_⟩, trivial⟩
    -- the condition: the step leaves alone what the other is about to write
    exact (hother.settled x hx hsome).step (hleft x hx hsome) hstep
  env w w' _ hright henv := by
    obtain ⟨hstored, hlooked, hkept, hrows⟩ := henv.kept
    refine ⟨fun row' hrow' hsome => ?_, fun m hsure => ⟨hsure.timely, fun x hx hsome =>
      (hsure.settled x hx hsome).kept hstored hkept⟩⟩
    rcases hrows row' hrow' with hnone | ⟨row, hrow, hid, hepoch⟩
    · rw [hnone] at hsome
      cases hsome
    · rw [hlooked, hstored, hid]
      exact hright row hrow (hepoch ▸ hsome)

variable {ι : Type*} [DecidableEq ι]

/-- **Every start is right** in every run that leaves starts alone that are about to land. -/
theorem startsRight {isDrepId : String → Bool} {s : Interleaved SinceWorld RefreshCall ι}
    (h : (((sinceProgram isDrepId).system ι StartsRight).restrict startsLeftAlone.Met).Reachable s) :
    StartsRight s.shared :=
  ((startsSound isDrepId).holds h).inv

/-! ### A start that moves on with its delegation -/

/-- The next step of a call, where it meets the condition on itself. -/
def sinceStepAlone (isDrepId : String → Bool) (answer : KoiosAnswer) (w : SinceWorld)
    (c : RefreshCall) : Option (SinceWorld × RefreshCall) :=
  if ∀ row ∈ w.db.follows.rows, c.proc.creates row → row.delegatedSinceEpoch = none then
    sinceStep isDrepId answer w c
  else none

theorem sinceStepAlone_met (s : Interleaved SinceWorld RefreshCall Unit) (i : Unit)
    (answer : KoiosAnswer) (c : RefreshCall) (w' : SinceWorld) (c' : RefreshCall)
    (hproc : s.procs i = some c) (h : sinceStepAlone isDrepId answer s.shared c = some (w', c')) :
    (sinceProgram isDrepId).Step s.shared c w' c' ∧ startsLeftAlone.Met s (.step i) := by
  rw [sinceStepAlone] at h
  split_ifs at h with hcreates
  refine ⟨⟨answer, h⟩, trivial, fun d hd => ?_⟩
  cases hproc.symm.trans hd
  exact ⟨hcreates, fun j _ hji => absurd rfl hji⟩

def sampleTracked : DelegatorFollowRow :=
  ⟨"alice", "stake1", .resolved, some .drep, some "drepA", some 10, some 10, some 10, none,
    some 400, some 10, 0, none, none, none⟩

def sampleSinceWorld : SinceWorld where
  db := ⟨KeyedTable.empty.insertOrIgnore sampleTracked, .empty⟩
  stored _ := 0
  looked _ := 0

theorem sampleSinceWorld_right : StartsRight sampleSinceWorld := by
  unfold StartsRight
  decide +kernel

/-- The chain names a DRep, and the epoch its delegation started in. -/
def sampleAnswer (drepId : String) (epoch : ℤ) : KoiosAnswer where
  account := some (some ⟨"stake1", some drepId⟩)
  accounts := some [⟨"stake1", some drepId⟩]
  history := some [⟨"stake1", "delegation_drep", "tx", epoch, epoch⟩]

/-- A cron pass finds another DRep, and looks up its start. -/
theorem startsRight_refreshed :
    ∃ s : Interleaved SinceWorld RefreshCall Unit,
      (((sinceProgram fun _ => true).system Unit StartsRight).restrict
        startsLeftAlone.Met).Reachable s ∧
        s.shared.db.follows.rows.map (fun row => (row.drepId, row.delegatedSinceEpoch)) =
          [(some "drepB", some 500)] ∧
        s.shared.stored "alice" = 1 ∧ StartsRight s.shared := by
  have h₀ : (((sinceProgram fun _ => true).system Unit StartsRight).restrict
      startsLeftAlone.Met).Reachable ⟨sampleSinceWorld, fun _ => none⟩ :=
    .init ⟨sampleSinceWorld_right, fun _ => rfl⟩
  have h₁ := Program.reachable_start h₀ (i := ()) trivial rfl
    (.refreshBulk ⟨200000, 200, [("n1", 0)]⟩ (fun _ => 0) (by decide))
  have h₂ := Program.reachable_runMet sinceStepAlone_met h₁
    (List.replicate 8 ((), sampleAnswer "drepB" 500)) (by decide +kernel)
  exact ⟨_, h₂, by decide +kernel, by decide +kernel, startsRight h₂⟩

/-- Two logins find another DRep each. The start that the first has looked up lands on the
delegation that the second has stored. -/
theorem not_startsRight :
    ∃ s : Interleaved SinceWorld RefreshCall ℕ,
      ((sinceProgram fun _ => true).system ℕ StartsRight).Reachable s ∧
        s.shared.db.follows.rows.map (fun row => (row.drepId, row.delegatedSinceEpoch)) =
          [(some "drepC", some 500)] ∧
        s.shared.looked "alice" = 1 ∧ s.shared.stored "alice" = 2 ∧ ¬StartsRight s.shared := by
  have h₀ : ((sinceProgram fun _ => true).system ℕ StartsRight).Reachable
      ⟨sampleSinceWorld, fun _ => none⟩ := .init ⟨sampleSinceWorld_right, fun _ => rfl⟩
  have h₁ := h₀.step (.start (i := 0) rfl
    (RefreshStart.resolveFollow ⟨"alice", "stake1", 1000, "n1", 0⟩ fun _ => 0))
  have h₂ := h₁.step (.start (i := 1) rfl
    (RefreshStart.resolveFollow ⟨"alice", "stake1", 1001, "n2", 0⟩ fun _ => 0))
  have h₃ := Program.reachable_run (P := sinceProgram _) (fun k _ _ _ _ h => ⟨k, h⟩) h₂
    (List.replicate 5 (0, sampleAnswer "drepB" 500) ++
      List.replicate 4 (1, sampleAnswer "drepC" 600) ++ [(0, sampleAnswer "drepB" 500)])
    (by decide +kernel)
  refine ⟨_, h₃, by decide +kernel, by decide +kernel, by decide +kernel, fun hright => ?_⟩
  exact absurd hright (by unfold StartsRight; decide +kernel)

end DrepTalk
