import DrepTalk.Delegation.DelegatorFollows
import DrepTalk.Library.Interleaving

/-!
# Resolutions, their notifications and what is awaited

Any number of calls of `applyResolution` and `setExpectedDelegation`, interleaved between their
statements, while accounts are added, starts are looked up and notifications come and go. Each call
of `applyResolution` keeps a record of the notifications it has inserted, and the world one of when
a delegation was last recorded as awaited.

**What a step owes** (`ResolutionRight`). A call that returns `changed` has stored its state, and
where nothing is awaited it has inserted one notification that names it, unless the account has one
of the same event already. No other call has inserted any; a failed resolution only leaves a trace
of itself; the first resolution notifies nobody; and what is awaited is only cleared by a resolution
that comes after its time. It holds of every step of every run (`resolutionRight`).

The event of a change is named by the account and the second (`changeEventKey`). A second change in
the same second is stored, and nobody hears of it (`not_notifies`).
-/

namespace DrepTalk

/-- The tables, and when a delegation was last recorded as awaited. -/
structure DelegationWorld where
  db : DelegationDb
  recordedAt : String → Option ℤ

/-- A call of `applyResolution`, with the notifications it has inserted. -/
structure ResolutionCall where
  userId : String
  outcome : ResolutionOutcome
  now : ℤ
  proc : ApplyProc
  inserted : List ChangeNotice
  deriving DecidableEq

inductive ResolutionProc
  | apply (c : ResolutionCall)
  | expect (userId expectedDrepId : String) (expectedTx : Option String) (now : ℤ)
  | returned
  deriving DecidableEq

/-- The notifications that have come to a table. -/
def newNotices (db db' : DelegationDb) : List ChangeNotice :=
  db'.notices.rows.drop db.notices.rows.length

def resolutionStep (w : DelegationWorld) :
    ResolutionProc → Option (DelegationWorld × ResolutionProc)
  | .apply c => (applyStep w.db c.proc).map fun out =>
    ({ w with db := out.1 },
      .apply { c with proc := out.2, inserted := c.inserted ++ newNotices w.db out.1 })
  | .expect userId expectedDrepId expectedTx now => some
    ({ w with
        db := setExpectedDelegation w.db userId expectedDrepId expectedTx now
        recordedAt := Function.update w.recordedAt userId (some now) },
      .returned)
  | .returned => none

inductive ResolutionStart : ResolutionProc → Prop
  | applyResolution (userId : String) (outcome : ResolutionOutcome) (now : ℤ) (noticeId : String)
    (dbNow : ℤ) : ResolutionStart (.apply
      ⟨userId, outcome, now, applyResolution userId outcome now noticeId dbNow, []⟩)
  | setExpectedDelegation (userId expectedDrepId : String) (expectedTx : Option String) (now : ℤ) :
    ResolutionStart (.expect userId expectedDrepId expectedTx now)

inductive DelegationEnv (w : DelegationWorld) : DelegationWorld → Prop
  | ensureFollow (userId stakeAddr : String) : DelegationEnv w { w with
      db := { w.db with follows := w.db.follows.insertOrIgnore (newFollow userId stakeAddr) } }
  | starts (epoch stamp : DelegatorFollowRow → Option ℤ) (attempts : DelegatorFollowRow → ℕ) :
    DelegationEnv w { w with
      db := { w.db with
        follows := w.db.follows.updateWhere (fun _ => true)
          (fun row => { row with
            delegatedSinceEpoch := epoch row
            sinceCheckedAt := stamp row
            sinceAttempts := attempts row })
          fun _ _ => rfl } }
  | notices (notices : ChangeNoticeTable) : DelegationEnv w { w with db := { w.db with notices } }

/-- The calls, with what happens beside them. -/
def resolutionProgram : Program DelegationWorld ResolutionProc where
  Start _ l := ResolutionStart l
  Step w l w' l' := resolutionStep w l = some (w', l')
  Env := DelegationEnv

/-- What is awaited was recorded when its row says. -/
def ExpectationsDated (w : DelegationWorld) : Prop :=
  ∀ row ∈ w.db.follows.rows, row.expectedDrepId.isSome →
    row.expectedAt.isSome ∧ row.expectedAt = w.recordedAt row.userId

/-! ### What a step owes -/

/-- A call has inserted one notification, which names the state. -/
def ResolutionCall.Notifies (c : ResolutionCall) (state : DelegationState) : Prop :=
  ∃ n, c.inserted = [n] ∧ n.recipientId = c.userId ∧ n.payload.toState = state

/-- The account has a notification of the event a change would be. -/
def ResolutionCall.EventTaken (w : DelegationWorld) (c : ResolutionCall) : Prop :=
  (c.userId, changeEventKey c.userId c.now) ∈
    w.db.notices.rows.map fun n => (n.recipientId, n.eventKey)

/-- A row as it is stored for a state. -/
def DelegatorFollowRow.Stores (row : DelegatorFollowRow) (state : DelegationState) : Prop :=
  row.resolutionStatus = .resolved ∧ row.delegationType = some (columnsFor state).1 ∧
    row.drepId = (columnsFor state).2

variable {ι : Type*} [DecidableEq ι]

structure ResolutionRight (s : Interleaved DelegationWorld ResolutionProc ι) (move : Move ι)
    (s' : Interleaved DelegationWorld ResolutionProc ι) : Prop where
  changed : ∀ i c c', move = .step i → s.procs i = some (.apply c) →
    s'.procs i = some (.apply c') → c'.proc = .returned .changed →
      ∃ state, c.outcome = .resolved state ∧
        ∃ row ∈ s.shared.db.follows.rows, row.userId = c.userId ∧
        ∃ row' ∈ s'.shared.db.follows.rows, row'.userId = c.userId ∧ row'.Stores state ∧
          (expecting c.now row = false → ¬c.EventTaken s.shared → c'.Notifies state) ∧
          (expecting c.now row = false → c.EventTaken s.shared → c'.inserted = [])
  silent : ∀ i c applied, s'.procs i = some (.apply c) → c.proc = .returned applied →
    applied ≠ .changed → c.inserted = []
  failed : ∀ i c, s'.procs i = some (.apply c) → c.proc = .returned .error → c.outcome = .error
  error : ∀ i c, move = .step i → s.procs i = some (.apply c) → c.outcome = .error →
    s'.shared.db.notices = s.shared.db.notices ∧
      ∀ row ∈ s.shared.db.follows.rows, ∀ row' ∈ s'.shared.db.follows.rows,
        row'.userId = row.userId → row' = { row with
          refreshErrorAt := row'.refreshErrorAt, refreshAttemptedAt := row'.refreshAttemptedAt }
  first : ∀ row ∈ s.shared.db.follows.rows, ∀ row' ∈ s'.shared.db.follows.rows,
    row'.userId = row.userId → row.resolutionStatus = .pending →
      row'.resolutionStatus = .resolved → s'.shared.db.notices = s.shared.db.notices ∧
        ∃ i c, move = .step i ∧ s'.procs i = some (.apply c) ∧ c.userId = row.userId ∧
          c.proc = .returned .created ∧ c.inserted = []
  cleared : ∀ row ∈ s.shared.db.follows.rows, ∀ row' ∈ s'.shared.db.follows.rows,
    row'.userId = row.userId → row.expectedDrepId.isSome → row'.expectedDrepId = none →
      ∃ i c state recorded, move = .step i ∧ s.procs i = some (.apply c) ∧
        c.userId = row.userId ∧ c.outcome = .resolved state ∧
          s.shared.recordedAt row.userId = some recorded ∧ recorded + EXPECTED_TTL_SEC < c.now

/-! ### What a statement does to the notifications -/

theorem insertNotice_eq_some {notices notices' : ChangeNoticeTable} {n : ChangeNotice}
    (h : insertNotice notices n = some notices') :
    ((n.recipientId, n.eventKey) ∈ notices.rows.map (fun n => (n.recipientId, n.eventKey)) →
      notices' = notices) ∧
    ((n.recipientId, n.eventKey) ∉ notices.rows.map (fun n => (n.recipientId, n.eventKey)) →
      notices'.rows = notices.rows ++ [n]) := by
  have htaken_iff : (notices.rows.any fun m =>
      m.recipientId == n.recipientId && m.eventKey == n.eventKey) = true ↔
      (n.recipientId, n.eventKey) ∈ notices.rows.map (fun n => (n.recipientId, n.eventKey)) := by
    simp [List.any_eq_true, List.mem_map]
  rw [insertNotice, if_congr htaken_iff rfl rfl] at h
  split_ifs at h with htaken hid
  · exact ⟨fun _ => (Option.some.inj h).symm, fun hfree => absurd htaken hfree⟩
  · cases h
    refine ⟨fun hkey => absurd hkey htaken, fun _ => ?_⟩
    rw [DoublyKeyedTable.insertOrIgnore, dif_neg (not_or.mpr ⟨hid, htaken⟩)]

variable {db db' : DelegationDb} {l : ApplyProc}

/-- A call that returns `changed` has found a row that differs, and has inserted its notification
where nothing is awaited and the account does not have it. -/
theorem applyStep_changed (h : applyStep db l = some (db', .returned .changed)) :
    ∃ args old, l = .batch args old ∧
      ∃ row ∈ db.follows.rows, row.userId = args.userId ∧ differs args.state row = true ∧
        (expecting args.now row = false →
          ((args.userId, changeEventKey args.userId args.now) ∈
              db.notices.rows.map (fun n => (n.recipientId, n.eventKey)) →
            db'.notices = db.notices) ∧
          ((args.userId, changeEventKey args.userId args.now) ∉
              db.notices.rows.map (fun n => (n.recipientId, n.eventKey)) →
            db'.notices.rows = db.notices.rows ++ [args.notice old])) := by
  cases l with
  | batch args old =>
    rw [applyStep] at h
    split at h
    · cases (Prod.mk.inj (Option.some.inj h)).2
    · rename_i changed hbatch
      obtain ⟨rfl, hreturned⟩ := Prod.mk.inj (Option.some.inj h)
      split_ifs at hreturned with hchanges
      obtain ⟨row, hmem, hrow⟩ := List.any_eq_true.mp hchanges
      rw [Bool.and_eq_true, beq_iff_eq] at hrow
      refine ⟨args, old, rfl, row, hmem, hrow.1, hrow.2, fun hnone => ?_⟩
      -- the row differs and expects nothing, so the insert applies
      have hinsert := (changeBatch_eq_some hbatch).1
      rw [if_pos] at hinsert
      · exact insertNotice_eq_some hinsert
      · exact List.any_eq_true.mpr ⟨row, hmem, by simp [hrow.1, hrow.2, hnone]⟩
  | base args =>
    have hreturned := (Prod.mk.inj (Option.some.inj h)).2
    split_ifs at hreturned
    cases hreturned
  | error userId now | read args | confirm args => cases (Prod.mk.inj (Option.some.inj h)).2
  | returned applied => cases h
  | threw => cases h

variable {l' : ApplyProc}

theorem applyStep_silent (h : applyStep db l = some (db', l')) (hl : l' ≠ .returned .changed) :
    db'.notices = db.notices := by
  cases l with
  | error userId now | base args | read args | confirm args =>
    obtain ⟨rfl, -⟩ := Prod.mk.inj (Option.some.inj h)
    rfl
  | batch args old =>
    rw [applyStep] at h
    split at h
    · obtain ⟨rfl, -⟩ := Prod.mk.inj (Option.some.inj h)
      rfl
    · rename_i changed hbatch
      cases h
      split_ifs at hl with hchanges
      · exact absurd rfl hl
      · -- the insert has the predicate of the update, and more
        have hinsert := (changeBatch_eq_some hbatch).1
        rw [if_neg] at hinsert
        · exact (Option.some.inj hinsert).symm
        · intro hany
          obtain ⟨row, hmem, hrow⟩ := List.any_eq_true.mp hany
          rw [Bool.and_eq_true, Bool.and_eq_true] at hrow
          exact hchanges (List.any_eq_true.mpr ⟨row, hmem, by simp [hrow.1, hrow.2.1]⟩)
  | returned applied => cases h
  | threw => cases h

theorem newNotices_same (h : db'.notices = db.notices) :
    newNotices db db' = [] := by
  rw [newNotices, h, List.drop_length]

theorem newNotices_append {n : ChangeNotice} (h : db'.notices.rows = db.notices.rows ++ [n]) :
    newNotices db db' = [n] := by
  rw [newNotices, h, List.drop_left']
  rfl

/-! ### What a call knows of itself -/

/-- A call that goes by its arguments, and has inserted nothing before it returns `changed`. -/
def ResolutionCall.Coherent (c : ResolutionCall) : Prop :=
  match c.proc with
  | .error userId _ => userId = c.userId ∧ c.outcome = .error ∧ c.inserted = []
  | .base args | .read args | .batch args _ | .confirm args =>
    args.userId = c.userId ∧ args.now = c.now ∧ c.outcome = .resolved args.state ∧ c.inserted = []
  | .returned .changed | .threw => True
  | .returned applied => c.inserted = [] ∧ (applied = .error → c.outcome = .error)

variable {c : ResolutionCall}

theorem ResolutionCall.Coherent.step
    (h : c.Coherent)
    (hstep : applyStep db c.proc = some (db', l')) :
    ResolutionCall.Coherent
      { c with proc := l', inserted := c.inserted ++ newNotices db db' } := by
  by_cases hl : l' = .returned .changed
  · -- what `changed` says is about the step itself
    subst hl
    exact trivial
  · rw [newNotices_same (applyStep_silent hstep hl), List.append_nil]
    obtain ⟨userId, outcome, now, proc, inserted⟩ := c
    cases proc with
    | error userId' now' =>
      obtain ⟨-, rfl⟩ := Prod.mk.inj (Option.some.inj hstep)
      exact ⟨h.2.2, fun _ => h.2.1⟩
    | base args =>
      obtain ⟨-, rfl⟩ := Prod.mk.inj (Option.some.inj hstep)
      split_ifs
      · exact ⟨h.2.2.2, fun hcreated => by cases hcreated⟩
      · exact h
    | read args =>
      obtain ⟨-, rfl⟩ := Prod.mk.inj (Option.some.inj hstep)
      exact h
    | batch args old =>
      rw [applyStep] at hstep
      split at hstep
      · obtain ⟨-, rfl⟩ := Prod.mk.inj (Option.some.inj hstep)
        exact trivial
      · obtain ⟨-, rfl⟩ := Prod.mk.inj (Option.some.inj hstep)
        split_ifs at hl ⊢
        · exact absurd rfl hl
        · exact h
    | confirm args =>
      obtain ⟨-, rfl⟩ := Prod.mk.inj (Option.some.inj hstep)
      exact ⟨h.2.2.2, fun hunchanged => by cases hunchanged⟩
    | returned applied => cases hstep
    | threw => cases hstep

/-! ### What a statement may do to a row -/

variable {row : DelegatorFollowRow}

theorem stores_changeDelegation {state : DelegationState} (now : ℤ) (h : differs state row = true) :
    (changeDelegation state now row).Stores state := by
  rw [differs, Bool.and_eq_true, beq_iff_eq] at h
  rw [changeDelegation, clearExpired]
  split_ifs <;> exact ⟨h.1, rfl, rfl⟩

theorem ApplyProc.onRow_resolves (hpending : row.resolutionStatus = .pending)
    (hresolved : (l.onRow row).resolutionStatus = .resolved) :
    ∃ args, l = .base args ∧ row.userId = args.userId := by
  have hne : (ResolutionStatus.pending == .resolved) = false := rfl
  cases l with
  | base args =>
    rw [ApplyProc.onRow] at hresolved
    split_ifs at hresolved with hrow
    · rw [Bool.and_eq_true, beq_iff_eq] at hrow
      exact ⟨args, rfl, hrow.1⟩
    · cases hpending.symm.trans hresolved
  | batch args old =>
    -- a pending row stores nothing that could differ
    rw [ApplyProc.onRow, differs, hpending, hne, Bool.false_and, Bool.and_false, if_neg (by simp)]
      at hresolved
    cases hpending.symm.trans hresolved
  | confirm args =>
    rw [ApplyProc.onRow, hpending, hne, Bool.and_false, if_neg (by simp)] at hresolved
    cases hpending.symm.trans hresolved
  | error userId now =>
    rw [ApplyProc.onRow] at hresolved
    split_ifs at hresolved <;> cases hpending.symm.trans hresolved
  | read args | returned applied | threw => cases hpending.symm.trans hresolved

theorem clearExpired_clears {now : ℤ} (hnone : (clearExpired now row).expectedDrepId = none)
    (hsome : row.expectedDrepId.isSome) :
    row.expectedAt.getD 0 < now - EXPECTED_TTL_SEC := by
  rw [clearExpired] at hnone
  split_ifs at hnone with hlt
  · exact hlt
  · rw [hnone] at hsome
    cases hsome

theorem ApplyProc.onRow_clears (hsome : row.expectedDrepId.isSome)
    (hnone : (l.onRow row).expectedDrepId = none) :
    ∃ args, ((∃ old, l = .batch args old) ∨ l = .confirm args) ∧ row.userId = args.userId ∧
      row.expectedAt.getD 0 < args.now - EXPECTED_TTL_SEC := by
  have hsame : row.expectedDrepId ≠ none := by
    rw [← Option.isSome_iff_ne_none]
    exact hsome
  cases l with
  | batch args old =>
    rw [ApplyProc.onRow] at hnone
    split_ifs at hnone with hrow
    · rw [Bool.and_eq_true, beq_iff_eq] at hrow
      have hlt := clearExpired_clears hnone hsome
      exact ⟨args, .inl ⟨old, rfl⟩, hrow.1, hlt⟩
    · exact absurd hnone hsame
  | confirm args =>
    rw [ApplyProc.onRow] at hnone
    split_ifs at hnone with hrow
    · rw [Bool.and_eq_true, beq_iff_eq] at hrow
      have hlt := clearExpired_clears hnone hsome
      exact ⟨args, .inr rfl, hrow.1, hlt⟩
    · exact absurd hnone hsame
  | error userId now | base args =>
    rw [ApplyProc.onRow] at hnone
    split_ifs at hnone <;> exact absurd hnone hsame
  | read args | returned applied | threw => exact absurd hnone hsame

theorem ApplyProc.onRow_expectedAt (hsome : (l.onRow row).expectedDrepId.isSome) :
    row.expectedDrepId.isSome ∧ (l.onRow row).expectedAt = row.expectedAt := by
  have hclear : ∀ (now : ℤ) (row : DelegatorFollowRow),
      (clearExpired now row).expectedDrepId.isSome →
        row.expectedDrepId.isSome ∧ (clearExpired now row).expectedAt = row.expectedAt := by
    intro now row hsome
    rw [clearExpired] at hsome ⊢
    split_ifs at hsome ⊢
    · cases hsome
    · exact ⟨hsome, rfl⟩
  cases l with
  | batch args old | confirm args =>
    rw [ApplyProc.onRow] at hsome ⊢
    split_ifs at hsome ⊢
    · exact hclear _ _ hsome
    · exact ⟨hsome, rfl⟩
  | error userId now | base args =>
    rw [ApplyProc.onRow] at hsome ⊢
    split_ifs at hsome ⊢ <;> exact ⟨hsome, rfl⟩
  | read args | returned applied | threw => exact ⟨hsome, rfl⟩

/-! ### Every run -/

variable {w : DelegationWorld}

theorem ExpectationsDated.step {w' : DelegationWorld} {l l' : ResolutionProc}
    (h : ExpectationsDated w) (hstep : resolutionStep w l = some (w', l')) :
    ExpectationsDated w' := by
  cases l with
  | apply c =>
    obtain ⟨out, hout, ⟨⟩⟩ := Option.map_eq_some_iff.mp hstep
    rcases applyStep_rows hout with ⟨-, hrows⟩ | ⟨-, hsame, -⟩
    · intro row' hrow' hsome
      dsimp only at hrow' ⊢
      rw [hrows] at hrow'
      obtain ⟨row, hrow, rfl⟩ := List.mem_map.mp hrow'
      obtain ⟨hold, hat⟩ := ApplyProc.onRow_expectedAt hsome
      rw [hat, ApplyProc.onRow_userId]
      exact h row hrow hold
    · rw [hsame]
      exact h
  | expect userId expectedDrepId expectedTx now =>
    obtain ⟨rfl, -⟩ := Prod.mk.inj (Option.some.inj hstep)
    intro row' hrow' hsome
    rcases Table.mem_updateWhere.mp hrow' with ⟨hrow, hother⟩ | ⟨row, hrow, hown, rfl⟩
    · -- the row of another user, and of this one
      rw [Bool.and_true, beq_eq_false_iff_ne] at hother
      change _ ∧ row'.expectedAt = Function.update w.recordedAt userId (some now) row'.userId
      rw [Function.update_of_ne hother]
      exact h row' hrow hsome
    · rw [Bool.and_true, beq_iff_eq] at hown
      refine ⟨rfl, ?_⟩
      change some now = Function.update w.recordedAt userId (some now) row.userId
      rw [hown, Function.update_self]
  | returned => cases hstep

theorem ExpectationsDated.env {w' : DelegationWorld} (h : ExpectationsDated w)
    (henv : DelegationEnv w w') : ExpectationsDated w' := by
  cases henv with
  | ensureFollow userId stakeAddr =>
    intro row hrow hsome
    rcases KeyedTable.mem_insertOrIgnore.mp hrow with hold | ⟨rfl, -⟩
    · exact h row hold hsome
    · cases hsome
  | starts epoch stamp attempts =>
    intro row' hrow' hsome
    obtain ⟨row, hrow, rfl⟩ := List.mem_map.mp hrow'
    exact h row hrow hsome
  | notices notices => exact h

/-- What holds of the rows and the calls, step by step. -/
def resolutionSound : resolutionProgram.Sound ExpectationsDated where
  inv := ExpectationsDated
  asserts _ l := ∀ c, l = .apply c → c.Coherent
  apart _ _ := True
  symm _ _ h := h
  init _ h := h
  start w l _ hstart := by
    refine ⟨?_, fun _ _ => trivial⟩
    rintro c rfl
    cases hstart with
    | applyResolution userId outcome now noticeId dbNow =>
      cases outcome with
      | error => exact ⟨rfl, rfl, rfl⟩
      | resolved state => exact ⟨rfl, rfl, rfl, rfl⟩
  step w l w' l' hdated hcoherent hstep := by
    refine ⟨hdated.step hstep, ?_⟩
    rintro c rfl
    cases l with
    | apply c₀ =>
      obtain ⟨out, hout, heq⟩ := Option.map_eq_some_iff.mp hstep
      obtain ⟨-, hproc⟩ := Prod.mk.inj heq
      obtain rfl := ResolutionProc.apply.inj hproc
      exact (hcoherent c₀ rfl).step hout
    | expect userId expectedDrepId expectedTx now => cases (Prod.mk.inj (Option.some.inj hstep)).2
    | returned => cases hstep
  noninterference _ _ _ _ m _ _ hcoherent _ _ := ⟨hcoherent, trivial⟩
  env w w' hdated henv := ⟨hdated.env henv, fun _ hcoherent => hcoherent⟩

theorem ResolutionCall.Coherent.returned (h : c.Coherent) {applied : Applied}
    (hproc : c.proc = .returned applied) (hne : applied ≠ .changed) :
    c.inserted = [] ∧ (applied = .error → c.outcome = .error) := by
  unfold ResolutionCall.Coherent at h
  rw [hproc] at h
  cases applied with
  | changed => exact absurd rfl hne
  | created | unchanged | error => exact h

omit [DecidableEq ι] in
theorem ResolutionRight.of_quiet {s s' : Interleaved DelegationWorld ResolutionProc ι}
    {move : Move ι} (hcalls : ∀ i c, s'.procs i = some (.apply c) → c.Coherent)
    (hother : ∀ i c, move = .step i → s.procs i ≠ some (.apply c))
    (hrows : ∀ row ∈ s.shared.db.follows.rows, ∀ row' ∈ s'.shared.db.follows.rows,
      row'.userId = row.userId → row'.resolutionStatus = row.resolutionStatus ∧
        (row.expectedDrepId.isSome → row'.expectedDrepId.isSome)) :
    ResolutionRight s move s' where
  changed i c _ hmove hproc _ _ := absurd hproc (hother i c hmove)
  silent i c applied hproc hreturned hne := ((hcalls i c hproc).returned hreturned hne).1
  failed i c hproc hreturned := ((hcalls i c hproc).returned hreturned (by simp)).2 rfl
  error i c hmove hproc _ := absurd hproc (hother i c hmove)
  first row hrow row' hrow' hid hpending hresolved := by
    rw [(hrows row hrow row' hrow' hid).1, hpending] at hresolved
    cases hresolved
  cleared row hrow row' hrow' hid hsome hnone := by
    have hstill := (hrows row hrow row' hrow' hid).2 hsome
    rw [hnone] at hstill
    cases hstill

theorem row_of_applyStep {row' : DelegatorFollowRow} (hstep : applyStep db l = some (db', l'))
    (hrow : row ∈ db.follows.rows) (hrow' : row' ∈ db'.follows.rows)
    (hid : row'.userId = row.userId) :
    row' = l.onRow row ∨ l' = .threw ∧ row' = row := by
  rcases applyStep_rows hstep with ⟨-, hrows⟩ | ⟨hthrew, rfl, -⟩
  · refine .inl (db'.follows.eq_of_key hrow' ?_ (hid.trans (l.onRow_userId row).symm))
    rw [hrows]
    exact List.mem_map_of_mem hrow
  · exact .inr ⟨hthrew, db'.follows.eq_of_key hrow' hrow hid⟩

theorem changed_of_applyStep (hcoherent : c.Coherent)
    (hstep : applyStep w.db c.proc = some (db', .returned .changed)) :
    ∃ state, c.outcome = .resolved state ∧
      ∃ row ∈ w.db.follows.rows, row.userId = c.userId ∧
      ∃ row' ∈ db'.follows.rows, row'.userId = c.userId ∧ row'.Stores state ∧
        (expecting c.now row = false → ¬c.EventTaken w → ResolutionCall.Notifies
          { c with
            proc := .returned .changed, inserted := c.inserted ++ newNotices w.db db' } state) ∧
        (expecting c.now row = false → c.EventTaken w →
          c.inserted ++ newNotices w.db db' = []) := by
  obtain ⟨args, old, hproc, row, hrow, hid, hdiffers, hnotice⟩ := applyStep_changed hstep
  unfold ResolutionCall.Coherent at hcoherent
  rw [hproc] at hcoherent
  obtain ⟨huser, hnow, houtcome, hnone⟩ := hcoherent
  have honRow : (ApplyProc.batch args old).onRow row =
      changeDelegation args.state args.now row := by
    rw [ApplyProc.onRow, if_pos (by simp [hid, hdiffers])]
  have hrow' : changeDelegation args.state args.now row ∈ db'.follows.rows := by
    rcases applyStep_rows hstep with ⟨-, hrows⟩ | ⟨hthrew, -⟩
    · rw [hrows, hproc, ← honRow]
      exact List.mem_map_of_mem hrow
    · cases hthrew
  have hid' : (changeDelegation args.state args.now row).userId = c.userId :=
    (clearExpired_userId _ _).trans (hid.trans huser)
  rw [huser, hnow] at hnotice
  refine ⟨args.state, houtcome, row, hrow, hid.trans huser, _, hrow', hid',
    stores_changeDelegation args.now hdiffers, fun hfree htaken => ?_, fun hfree htaken => ?_⟩
  · have happended := (hnotice hfree).2 htaken
    refine ⟨args.notice old, ?_, huser, rfl⟩
    rw [hnone, newNotices_append happended, List.nil_append]
  · rw [hnone, newNotices_same ((hnotice hfree).1 htaken), List.append_nil]

theorem ResolutionRight.of_apply {w : DelegationWorld} {procs : ι → Option ResolutionProc} {i : ι}
    {c : ResolutionCall} {db' : DelegationDb} {l' : ApplyProc} (hproc : procs i = some (.apply c))
    (hdated : ExpectationsDated w) (hcoherent : c.Coherent)
    (hstep : applyStep w.db c.proc = some (db', l'))
    (hcalls : ∀ j d, Function.update procs i (some (.apply
      { c with proc := l', inserted := c.inserted ++ newNotices w.db db' })) j = some (.apply d) →
        d.Coherent) :
    ResolutionRight ⟨w, procs⟩ (.step i) ⟨{ w with db := db' }, Function.update procs i (some (.apply
      { c with proc := l', inserted := c.inserted ++ newNotices w.db db' }))⟩ where
  changed j d d' hmove hd hd' hreturned := by
    obtain rfl := Move.step.inj hmove
    obtain rfl := ResolutionProc.apply.inj (Option.some.inj (hproc.symm.trans hd))
    dsimp only at hd'
    rw [Function.update_self] at hd'
    obtain rfl := ResolutionProc.apply.inj (Option.some.inj hd')
    -- only a batch returns `changed`
    obtain rfl : l' = .returned .changed := hreturned
    exact changed_of_applyStep hcoherent hstep
  silent j d applied hd hreturned hne := ((hcalls j d hd).returned hreturned hne).1
  failed j d hd hreturned := ((hcalls j d hd).returned hreturned (by simp)).2 rfl
  error j d hmove hd houtcome := by
    obtain rfl := Move.step.inj hmove
    obtain rfl := ResolutionProc.apply.inj (Option.some.inj (hproc.symm.trans hd))
    obtain ⟨userId, outcome, now, proc, inserted⟩ := c
    dsimp only at houtcome hstep
    subst houtcome
    cases proc with
    | error userId' now' =>
      -- an error writes its stamp, and nothing else
      refine ⟨applyStep_silent hstep fun hchanged => ?_, fun row hrow row' hrow' hid => ?_⟩
      · subst hchanged
        cases (Prod.mk.inj (Option.some.inj hstep)).2
      · rcases row_of_applyStep hstep hrow hrow' hid with rfl | ⟨hthrew, -⟩
        · rw [ApplyProc.onRow]
          split_ifs <;> rfl
        · subst hthrew
          cases (Prod.mk.inj (Option.some.inj hstep)).2
    | base args | read args | confirm args | batch args old => cases hcoherent.2.2.1
    | returned applied => cases hstep
    | threw => cases hstep
  first row hrow row' hrow' hid hpending hresolved := by
    rcases row_of_applyStep hstep hrow hrow' hid with rfl | ⟨-, rfl⟩
    · obtain ⟨args, hbase, huser⟩ := ApplyProc.onRow_resolves hpending hresolved
      unfold ResolutionCall.Coherent at hcoherent
      rw [hbase] at hcoherent hstep
      have hchanges : (changesFollow w.db.follows args.userId fun row =>
          row.resolutionStatus == .pending) = true :=
        List.any_eq_true.mpr ⟨row, hrow, by simp [huser, hpending]⟩
      -- the row was pending, so the call returns `created`
      obtain ⟨-, hl'⟩ := Prod.mk.inj (Option.some.inj hstep)
      rw [if_pos hchanges] at hl'
      subst hl'
      have hsame := applyStep_silent hstep (by simp)
      refine ⟨hsame, i, _, rfl, Function.update_self _ _ _, ?_, rfl, ?_⟩
      · exact hcoherent.1.symm.trans huser.symm
      · change c.inserted ++ newNotices w.db db' = []
        rw [newNotices_same hsame, List.append_nil]
        exact hcoherent.2.2.2
    · cases hpending.symm.trans hresolved
  cleared row hrow row' hrow' hid hsome hnone := by
    rcases row_of_applyStep hstep hrow hrow' hid with rfl | ⟨-, rfl⟩
    · obtain ⟨args, hproc', huser, hlt⟩ := ApplyProc.onRow_clears hsome hnone
      -- the statement is one of a call about the stored account
      obtain ⟨hargs, hnow, houtcome⟩ : args.userId = c.userId ∧ args.now = c.now ∧
          c.outcome = .resolved args.state := by
        unfold ResolutionCall.Coherent at hcoherent
        rcases hproc' with ⟨old, hbatch⟩ | hconfirm
        · rw [hbatch] at hcoherent
          exact ⟨hcoherent.1, hcoherent.2.1, hcoherent.2.2.1⟩
        · rw [hconfirm] at hcoherent
          exact ⟨hcoherent.1, hcoherent.2.1, hcoherent.2.2.1⟩
      obtain ⟨hat, hrecorded⟩ := hdated row hrow hsome
      obtain ⟨recorded, hat⟩ := Option.isSome_iff_exists.mp hat
      rw [hat, Option.getD_some] at hlt
      refine ⟨i, c, args.state, recorded, rfl, hproc, (huser.trans hargs).symm, houtcome,
        hrecorded.symm.trans hat, ?_⟩
      omega
    · rw [hnone] at hsome
      cases hsome

/-- **Every step of every run is right.** -/
theorem resolutionRight {s s' : Interleaved DelegationWorld ResolutionProc ι} {move : Move ι}
    (h : (resolutionProgram.system ι ExpectationsDated).Reachable s)
    (hmove : resolutionProgram.Moves s move s') : ResolutionRight s move s' := by
  have hs := resolutionSound.holds h
  have hcalls : ∀ i c, s'.procs i = some (.apply c) → c.Coherent := fun i c hproc =>
    (resolutionSound.holds (h.step hmove)).asserts i _ hproc c rfl
  cases hmove with
  | @start w procs i l hnew hstart =>
    refine .of_quiet hcalls (fun j c hmove => by cases hmove) fun row hrow row' hrow' hid => ?_
    obtain rfl := w.db.follows.eq_of_key hrow' hrow hid
    exact ⟨rfl, fun hsome => hsome⟩
  | @step w w' procs i l l' hproc hstep =>
    cases l with
    | apply c =>
      obtain ⟨out, hout, ⟨⟩⟩ := Option.map_eq_some_iff.mp hstep
      exact .of_apply hproc hs.inv (hs.asserts i _ hproc c rfl) hout hcalls
    | expect userId expectedDrepId expectedTx now =>
      cases hstep
      refine .of_quiet hcalls (fun j c hmove hc => ?_) fun row hrow row' hrow' hid => ?_
      · obtain rfl := Move.step.inj hmove
        cases hproc.symm.trans hc
      · -- a new expectation resolves nothing and clears nothing
        rcases Table.mem_updateWhere.mp hrow' with ⟨hold, -⟩ | ⟨old, hold, -, rfl⟩
        · obtain rfl := w.db.follows.eq_of_key hold hrow hid
          exact ⟨rfl, fun hsome => hsome⟩
        · obtain rfl := w.db.follows.eq_of_key hold hrow hid
          exact ⟨rfl, fun _ => rfl⟩
    | returned => cases hstep
  | @env w w' procs henv =>
    refine .of_quiet hcalls (fun j c hmove => by cases hmove) fun row hrow row' hrow' hid => ?_
    cases henv with
    | ensureFollow userId stakeAddr =>
      -- the rows that were there stay
      have hkept : row ∈ (w.db.follows.insertOrIgnore (newFollow userId stakeAddr)).rows :=
        KeyedTable.mem_insertOrIgnore.mpr (.inl hrow)
      obtain rfl := KeyedTable.eq_of_key _ hrow' hkept hid
      exact ⟨rfl, fun hsome => hsome⟩
    | starts epoch stamp attempts =>
      obtain ⟨old, hold, rfl⟩ := List.mem_map.mp hrow'
      obtain rfl := w.db.follows.eq_of_key hold hrow hid
      exact ⟨rfl, fun hsome => hsome⟩
    | notices notices =>
      obtain rfl := w.db.follows.eq_of_key hrow' hrow hid
      exact ⟨rfl, fun hsome => hsome⟩

/-! ### Two changes -/

theorem resolutionStep_moves (_ : Unit) (w : DelegationWorld) (l : ResolutionProc)
    (w' : DelegationWorld) (l' : ResolutionProc) (h : resolutionStep w l = some (w', l')) :
    resolutionProgram.Step w l w' l' := h

def sampleFollow : DelegatorFollowRow :=
  ⟨"alice", "stake1", .resolved, some .drep, some "drepA", some 10, some 10, some 10, none, none,
    none, 0, none, none, none⟩

def sampleDelegationWorld : DelegationWorld where
  db := ⟨KeyedTable.empty.insertOrIgnore sampleFollow, .empty⟩
  recordedAt _ := none

theorem sampleDelegationWorld_dated : ExpectationsDated sampleDelegationWorld := by
  unfold ExpectationsDated
  decide +kernel

/-- A call that finds the account with another DRep. -/
def sampleResolution (drepId noticeId : String) (now : ℤ) : ResolutionCall :=
  ⟨"alice", .resolved (.drep drepId), now,
    applyResolution "alice" (.resolved (.drep drepId)) now noticeId (1000 * now), []⟩

/-- Two calls that find the account with another DRep each, in two seconds. -/
def sampleResolutions (now now' : ℤ) : Interleaved DelegationWorld ResolutionProc ℕ :=
  ⟨sampleDelegationWorld, Function.update
    (Function.update (fun _ => none) 0 (some (.apply (sampleResolution "drepB" "n1" now))))
    1 (some (.apply (sampleResolution "drepC" "n2" now')))⟩

theorem reachable_sampleResolutions (now now' : ℤ) :
    (resolutionProgram.system ℕ ExpectationsDated).Reachable (sampleResolutions now now') := by
  have h₀ : (resolutionProgram.system ℕ ExpectationsDated).Reachable
      ⟨sampleDelegationWorld, fun _ => none⟩ := .init ⟨sampleDelegationWorld_dated, fun _ => rfl⟩
  have h₁ := h₀.step (.start (i := 0) rfl (ResolutionStart.applyResolution "alice"
    (.resolved (.drep "drepB")) now "n1" (1000 * now)))
  exact h₁.step (.start (i := 1) rfl (ResolutionStart.applyResolution "alice"
    (.resolved (.drep "drepC")) now' "n2" (1000 * now')))

/-- The first call up to its batch, or both up to the batch of the second. -/
def sampleSchedule (both : Bool) : List (ℕ × Unit) :=
  (if both then [0, 0, 0, 1, 1] else [0, 0]).map fun i => (i, ())

/-- A change that is stored, with a notification of it. -/
theorem resolutionRight_changed :
    ∃ (s s' : Interleaved DelegationWorld ResolutionProc ℕ) (c : ResolutionCall),
      ResolutionRight s (.step 0) s' ∧ s'.procs 0 = some (.apply c) ∧
        c.proc = .returned .changed ∧ c.inserted.map (·.payload) =
          [⟨some (.drep "drepA"), .drep "drepB"⟩] := by
  have h := Program.reachable_run resolutionStep_moves (reachable_sampleResolutions 1000 1001)
    (sampleSchedule false) (by decide +kernel)
  refine ⟨_, _, ⟨"alice", .resolved (.drep "drepB"), 1000, .returned .changed,
    [⟨"n1", "alice", "deleg-change:alice:1000", ⟨some (.drep "drepA"), .drep "drepB"⟩, 1000000⟩]⟩,
    resolutionRight h (Program.moves_run resolutionStep_moves _ 0 () (by decide +kernel)), ?_, rfl,
    rfl⟩
  decide +kernel

/-- Two changes in one second: the second call returns `changed`, nothing is awaited, and nobody is
notified. -/
theorem not_notifies :
    ∃ (s s' : Interleaved DelegationWorld ResolutionProc ℕ) (c c' : ResolutionCall),
      (resolutionProgram.system ℕ ExpectationsDated).Reachable s ∧
        resolutionProgram.Moves s (.step 1) s' ∧ s.procs 1 = some (.apply c) ∧
        s'.procs 1 = some (.apply c') ∧ c.outcome = .resolved (.drep "drepC") ∧
        (∀ row ∈ s.shared.db.follows.rows, expecting c.now row = false) ∧
        c'.proc = .returned .changed ∧ ¬c'.Notifies (.drep "drepC") := by
  have h := Program.reachable_run resolutionStep_moves (reachable_sampleResolutions 1000 1000)
    (sampleSchedule true) (by decide +kernel)
  refine ⟨_, _, { sampleResolution "drepC" "n2" 1000 with
      proc := .batch ⟨"alice", .drep "drepC", 1000, "n2", 1000000⟩ (some (.drep "drepB")) },
    ⟨"alice", .resolved (.drep "drepC"), 1000, .returned .changed, []⟩, h,
    Program.moves_run resolutionStep_moves _ 1 () (by decide +kernel), by decide +kernel,
    by decide +kernel, rfl, by decide +kernel, rfl, ?_⟩
  rintro ⟨n, hinserted, -⟩
  cases hinserted

end DrepTalk
