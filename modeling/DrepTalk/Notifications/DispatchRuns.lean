import DrepTalk.Notifications.Dispatch
import DrepTalk.Library.Interleaving
import DrepTalk.Library.CursorClaim

/-!
# Overlapping dispatch passes

Any number of dispatch passes, interleaved between their statements and deliveries, while the
clock advances and users connect and remove channels, get notifications and set their prefs.
Beside the tables the run records the bundles whose delivery answered `sent`, each with the
claim it was sent under.

**Claims that stand** are those a pass holds (`DispatchProc.held`) and those it has sent under.
They are behind the cursor and pairwise apart, whatever the order of claims and hand-backs: the
moves of a cursor are those of `Library/CursorClaim`, and a channel that is connected anew, under
whatever id, starts at a clock that every claim lies behind.
-/

namespace DrepTalk

/-- A bundle that has been sent, under a claim. -/
structure SentBundle where
  claim : CursorClaim String ℤ
  bundle : List NotificationRow

/-- The tables, and the bundles sent so far. -/
structure DispatchWorld where
  db : DispatchDb
  sent : List SentBundle

def claimOf (pass : DispatchPass) (row : ChannelRow) : CursorClaim String ℤ :=
  ⟨row.id, row.deliveredUntil, pass.nextCursor row⟩

def sentBy (o : StepOutcome) : DispatchProc → List SentBundle
  | .deliver pass pending _ =>
    if !o.fails && o.delivery == .sent then [⟨claimOf pass pending.row, pending.bundle⟩] else []
  | _ => []

/-- What happens beside the passes. Notifications come with the time of the clock. -/
inductive DispatchEnv (w : DispatchWorld) : DispatchWorld → Prop
  | tick (clock : ℤ) (hle : w.db.clock ≤ clock) : DispatchEnv w { w with db := { w.db with clock } }
  | notify (notifications : NotificationTable) (hnew : ∀ n ∈ notifications.rows,
      n ∈ w.db.notifications.rows ∨ n.createdAt = w.db.clock) :
    DispatchEnv w { w with db := { w.db with notifications } }
  | governance (activity : List ActivityRow) (liveTopics : List String) :
    DispatchEnv w { w with db := { w.db with activity, liveTopics } }
  | prefs (prefs : PrefTable) : DispatchEnv w { w with db := { w.db with prefs } }
  | connect (id : String) (args : AddChannelArgs) :
    DispatchEnv w { w with db := addChannel w.db id args }
  | disconnect (p : ChannelRow → Bool) :
    DispatchEnv w { w with db := { w.db with channels := w.db.channels.deleteWhere p } }

def dispatchProgram : Program DispatchWorld DispatchProc where
  Start _ l := ∃ kind budget, l = .start kind budget
  Step w l w' l' := ∃ o db,
    dispatchStep o w.db l = some (db, l') ∧ w' = ⟨db, w.sent ++ sentBy o l⟩
  Env := DispatchEnv

/-- Before the first pass nothing has been sent. -/
def DispatchWorld.Initial (w : DispatchWorld) : Prop := w.sent = []

/-! ### Where a pass stands -/

def DispatchProc.held : DispatchProc → Option (CursorClaim String ℤ)
  | .deliver pass pending _ => some (claimOf pass pending.row)
  | .handBack pass row _ => some (claimOf pass row)
  | _ => none

/-- A bundle is of the interval of its pass, which is not empty. -/
structure Pending.Within (pending : Pending) (passEnd : ℤ) : Prop where
  forward : pending.row.deliveredUntil < passEnd
  bundle : ∀ n ∈ pending.bundle, inPass pending.row passEnd n.createdAt = true

/-- What a pass knows without looking at the channels. -/
def DispatchProc.Sane (clock : ℤ) : DispatchProc → Prop
  | .start _ _ | .returned _ | .threw => True
  | .list pass _ | .visit pass _ | .prefs pass _ _ | .counts pass _ _ _ | .mute pass _ _
  | .markSent pass _ _ | .prune pass _ _ | .handBack pass _ _ => pass.dbNow ≤ clock
  | .lead pass pending _ | .claim pass pending _ | .deliver pass pending _ =>
    pass.dbNow ≤ clock ∧ pending.Within pass.passEnd

variable {row : ChannelRow} {passEnd : ℤ}

theorem inPass_eq_true {at' : ℤ} :
    inPass row passEnd at' = true ↔ row.deliveredUntil < at' ∧ at' ≤ passEnd := by
  rw [inPass, Bool.and_eq_true, decide_eq_true_eq, decide_eq_true_eq]

variable {prefs : Prefs}

theorem total_eq_zero {db : DispatchDb} (hempty : passEnd ≤ row.deliveredUntil) :
    (getPendingCounts db row prefs passEnd).total = 0 := by
  have hout : ∀ at', inPass row passEnd at' = false := by
    intro at'
    rw [← Bool.not_eq_true, inPass_eq_true]
    omega
  have hpersonal : ∀ pref, countPersonal db row passEnd pref = 0 := by
    intro pref
    refine List.countP_eq_zero.mpr fun n _ => ?_
    rw [hout]
    simp
  have hgov : countGovThreads db row passEnd = 0 := by
    have hnone : ∀ at' : Option ℤ, at'.any (inPass row passEnd) = false := by
      rintro (_ | at')
      · rfl
      · exact hout at'
    rw [countGovThreads]
    simp [hnone]
  simp [PendingCounts.total, getPendingCounts, hpersonal, hgov]

theorem within_pendingBundle {db : DispatchDb} {counts : PendingCounts}
    (htotal : (getPendingCounts db row prefs passEnd).total ≠ 0) :
    Pending.Within ⟨row, counts, pendingBundle db row prefs passEnd⟩ passEnd := by
  constructor
  · exact lt_of_not_ge fun hle => htotal (total_eq_zero hle)
  · intro n hn
    have hfilter := (List.mem_filter.mp hn).2
    rw [Bool.and_eq_true] at hfilter
    exact hfilter.2

variable {clock : ℤ} {pass : DispatchPass}

theorem sane_dispatchVisit (hnow : pass.dbNow ≤ clock) (rows : List ChannelRow) :
    (dispatchVisit pass rows).Sane clock := by
  rcases rows with _ | ⟨row, rows⟩
  · exact trivial
  · rw [dispatchVisit]
    split_ifs
    · exact trivial
    · rcases pass.prefsByUser.lookup row.userId with _ | prefs <;> exact hnow

variable {rows : List ChannelRow}

theorem sane_dispatchCounts {db : DispatchDb} (hnow : pass.dbNow ≤ clock) :
    (dispatchCounts db pass row prefs rows).Sane clock := by
  rw [dispatchCounts]
  split_ifs with htotal
  · exact hnow
  · exact ⟨hnow, within_pendingBundle htotal⟩
  · exact ⟨hnow, within_pendingBundle htotal⟩

theorem DispatchProc.Sane.mono {clock' : ℤ} {l : DispatchProc} (h : l.Sane clock)
    (hle : clock ≤ clock') : l.Sane clock' := by
  rcases l with _ | _ | _ | _ | _ | _ | _ | _ | _ | _ | _ | _ | _ | _ <;>
    simp only [DispatchProc.Sane] at h ⊢ <;> first | omega | exact ⟨by omega, h.2⟩

/-! ### Cursors -/

def cursorAt (channels : ChannelTable) (id : String) (cursor : ℤ) : Prop :=
  ∃ row ∈ channels.rows, row.id = id ∧ row.deliveredUntil = cursor

variable {channels : ChannelTable} {id k : String} {cursor expected target : ℤ}

theorem holdsCursor_eq_true :
    holdsCursor id expected row = true ↔ row.id = id ∧ row.deliveredUntil = expected := by
  rw [holdsCursor, Bool.and_eq_true, beq_iff_eq, beq_iff_eq]

theorem cursorAt_unique {cursor' : ℤ} (h : cursorAt channels id cursor)
    (h' : cursorAt channels id cursor') : cursor = cursor' := by
  obtain ⟨row, hmem, hid, rfl⟩ := h
  obtain ⟨row', hmem', hid', rfl⟩ := h'
  rw [channels.eq_of_key hmem hmem' (hid.trans hid'.symm)]

variable {f : ChannelRow → ChannelRow}

theorem cursorAt_move (hkey : ∀ row, holdsCursor id expected row = true → (f row).id = row.id)
    (h : cursorAt (channels.updateWhere (holdsCursor id expected) f hkey) k cursor)
    (hmove : ∀ row, (f row).deliveredUntil = target) :
    cursorAt channels k cursor ∧ ¬(k = id ∧ cursor = expected) ∨
      k = id ∧ cursor = target ∧ cursorAt channels id expected := by
  obtain ⟨row, hmem, rfl, rfl⟩ := h
  rcases Table.mem_updateWhere.mp hmem with ⟨hmem, hother⟩ | ⟨old, hold, hholds, rfl⟩
  · left
    refine ⟨⟨row, hmem, rfl, rfl⟩, ?_⟩
    rwa [← holdsCursor_eq_true, Bool.not_eq_true]
  · right
    obtain ⟨hid, hexpected⟩ := holdsCursor_eq_true.mp hholds
    exact ⟨(hkey old hholds).trans hid, hmove old, old, hold, hid, hexpected⟩

variable {deliveredUntil attemptedAt : ℤ}

theorem cursorAt_claim
    (h : cursorAt (claimChannelCursor channels id expected deliveredUntil attemptedAt).1 k cursor) :
    cursorAt channels k cursor ∧ ¬(k = id ∧ cursor = expected) ∨
      k = id ∧ cursor = deliveredUntil ∧ cursorAt channels id expected :=
  cursorAt_move (by intros; rfl) h fun _ => rfl

theorem cursorAt_of_claimed
    (h : (claimChannelCursor channels id expected deliveredUntil attemptedAt).2 = true) :
    cursorAt channels id expected := by
  obtain ⟨row, hmem, hholds⟩ := List.any_eq_true.mp h
  exact ⟨row, hmem, holdsCursor_eq_true.mp hholds⟩

/-- The cursors have moved on, or are those of channels connected since. -/
def Advances (db db' : DispatchDb) : Prop :=
  db.clock ≤ db'.clock ∧ ∀ id cursor, cursorAt db'.channels id cursor →
    db.clock ≤ cursor ∨ ∃ old ≤ cursor, cursorAt db.channels id old

theorem advances_of_sameCursors {db db' : DispatchDb} (hclock : db.clock ≤ db'.clock)
    (hsame : ∀ id cursor, cursorAt db'.channels id cursor → cursorAt db.channels id cursor) :
    Advances db db' :=
  ⟨hclock, fun id cursor h => .inr ⟨cursor, le_refl _, hsame id cursor h⟩⟩

theorem advances_claim {db : DispatchDb} (hle : expected ≤ deliveredUntil) :
    Advances db { db with
      channels := (claimChannelCursor db.channels id expected deliveredUntil attemptedAt).1 } := by
  refine ⟨le_refl _, fun k cursor h => .inr ?_⟩
  rcases cursorAt_claim h with ⟨hold, -⟩ | ⟨rfl, rfl, hold⟩
  · exact ⟨cursor, le_refl _, hold⟩
  · exact ⟨expected, hle, hold⟩

theorem advances_delete {db : DispatchDb} (p : ChannelRow → Bool) :
    Advances db { db with channels := db.channels.deleteWhere p } := by
  refine advances_of_sameCursors (le_refl _) ?_
  rintro id cursor ⟨row, hmem, hrow⟩
  exact ⟨row, (Table.mem_deleteWhere.mp hmem).1, hrow⟩

theorem cursorAt_updateWhere {p : ChannelRow → Bool}
    (hkey : ∀ row, p row = true → (f row).id = row.id)
    (h : cursorAt (channels.updateWhere p f hkey) id cursor)
    (hf : ∀ row, (f row).deliveredUntil = row.deliveredUntil) : cursorAt channels id cursor := by
  obtain ⟨row, hmem, rfl, rfl⟩ := h
  rcases Table.mem_updateWhere.mp hmem with ⟨hmem, -⟩ | ⟨old, hold, hp, rfl⟩
  · exact ⟨row, hmem, rfl, rfl⟩
  · exact ⟨old, hold, (hkey old hp).symm, (hf old).symm⟩

theorem advances_addChannel {db : DispatchDb} (id : String) (args : AddChannelArgs) :
    Advances db (addChannel db id args) := by
  refine ⟨le_refl _, fun k cursor h => ?_⟩
  change cursorAt (upsertChannel db.channels db.clock id args) k cursor at h
  rw [upsertChannel] at h
  split_ifs at h
  · exact .inr ⟨cursor, le_refl _, cursorAt_updateWhere (by intros; rfl) h fun _ => rfl⟩
  · obtain ⟨row, hmem, rfl, rfl⟩ := h
    rcases KeyedTable.mem_insertOrIgnore.mp hmem with hmem | ⟨rfl, -⟩
    · exact .inr ⟨row.deliveredUntil, le_refl _, row, hmem, rfl, rfl⟩
    · exact .inl (le_refl _)

/-! ### What one step can do -/

/-- The effect of a step of a pass on the channels, on the claim it holds and on what is sent. -/
inductive DispatchEffect (db db' : DispatchDb) (l l' : DispatchProc) (sent : List SentBundle) : Prop
  | rest (hadv : Advances db db') (hheld' : l'.held = none) (hsent : sent = [])
  | keep (hchannels : db'.channels = db.channels) (hheld : l'.held = l.held) (hsent : sent = [])
  | send (b : SentBundle) (hchannels : db'.channels = db.channels) (hheld : l.held = some b.claim)
      (hheld' : l'.held = none) (hbundle : ∀ n ∈ b.bundle, n.createdAt ∈ b.claim.span)
      (hsent : sent = [b])
  | win (c : CursorClaim String ℤ) (attemptedAt : ℤ) (hforward : c.expected < c.claimed)
      (hpast : c.claimed ≤ db.clock) (hat : cursorAt db.channels c.key c.expected)
      (hchannels : db'.channels =
        (claimChannelCursor db.channels c.key c.expected c.claimed attemptedAt).1)
      (hheld' : l'.held = some c) (hsent : sent = [])
  | handBack (c : CursorClaim String ℤ) (hheld : l.held = some c)
      (hchannels : db'.channels = handBackChannelCursor db.channels c.key c.claimed c.expected)
      (hheld' : l'.held = none) (hsent : sent = [])

theorem held_dispatchVisit (pass : DispatchPass) (rows : List ChannelRow) :
    (dispatchVisit pass rows).held = none := by
  rcases rows with _ | ⟨row, rows⟩
  · rfl
  · rw [dispatchVisit]
    split_ifs
    · rfl
    · rcases pass.prefsByUser.lookup row.userId with _ | prefs <;> rfl

theorem advances_refl (db : DispatchDb) : Advances db db :=
  advances_of_sameCursors (le_refl _) fun _ _ h => h

variable {pending : Pending}

theorem Pending.Within.nextCursor_eq (h : pending.Within pass.passEnd) :
    pass.nextCursor pending.row = pass.passEnd :=
  max_eq_right (le_of_lt h.forward)

theorem Pending.Within.mem_span (h : pending.Within pass.passEnd) {n : NotificationRow}
    (hn : n ∈ pending.bundle) :
    n.createdAt ∈ (claimOf pass pending.row).span := by
  obtain ⟨hafter, hbefore⟩ := inPass_eq_true.mp (h.bundle n hn)
  exact ⟨hafter, le_of_le_of_eq hbefore h.nextCursor_eq.symm⟩

theorem dispatchDeliver_effect {db : DispatchDb} {o : StepOutcome}
    (hwithin : pending.Within pass.passEnd) :
    DispatchEffect db db (.deliver pass pending rows)
      (dispatchDeliver o (pass.spend o.queries) pending.row rows)
      (sentBy o (.deliver pass pending rows)) := by
  rcases o with ⟨fails, delivery, queries⟩
  rcases fails with _ | _
  · rcases delivery with _ | _ | _
    · exact .send ⟨claimOf pass pending.row, pending.bundle⟩ rfl rfl rfl
        (fun n hn => hwithin.mem_span hn) rfl
    · exact .rest (advances_refl db) rfl rfl
    · exact .keep rfl rfl rfl
  · exact .keep rfl rfl rfl

theorem claimFor_effect {db : DispatchDb} (hnow : pass.dbNow ≤ db.clock)
    (hwithin : pending.Within pass.passEnd) (hwon : (claimFor db pass pending.row).2 = true) :
    DispatchEffect db { db with channels := (claimFor db pass pending.row).1 }
      (.claim pass pending rows) (.deliver (pass.spend 1) pending rows) [] := by
  have hend : pass.passEnd < db.clock := by
    rw [DispatchPass.passEnd]
    omega
  refine .win (claimOf pass pending.row) pass.dbNow ?_ ?_ (cursorAt_of_claimed hwon) rfl rfl rfl
  · exact lt_of_lt_of_eq hwithin.forward hwithin.nextCursor_eq.symm
  · exact le_of_eq_of_le hwithin.nextCursor_eq (le_of_lt hend)

theorem dispatchStep_effect {o : StepOutcome} {db db' : DispatchDb} {l l' : DispatchProc}
    (hsane : l.Sane db.clock) (h : dispatchStep o db l = some (db', l')) :
    DispatchEffect db db' l l' (sentBy o l) ∧ db'.clock = db.clock ∧ l'.Sane db.clock := by
  have hrefl := advances_refl db
  rcases l with ⟨kind, budget⟩ | ⟨pass, latestGovAt⟩ | ⟨pass, rows⟩ | ⟨pass, row, rows⟩ |
    ⟨pass, row, prefs, rows⟩ | ⟨pass, row, rows⟩ | ⟨pass, pending, rows⟩ | ⟨pass, pending, rows⟩ |
    ⟨pass, pending, rows⟩ | ⟨pass, row, rows⟩ | ⟨pass, row, rows⟩ | ⟨pass, row, rows⟩ | _ | _
  · rw [dispatchStep] at h
    cases h
    rw [dispatchStart]
    split_ifs
    · exact ⟨.rest hrefl rfl rfl, rfl, trivial⟩
    · exact ⟨.rest hrefl rfl rfl, rfl, trivial⟩
    · exact ⟨.rest hrefl rfl rfl, rfl, le_refl _⟩
  · rw [dispatchStep] at h
    cases h
    rw [dispatchList]
    split_ifs
    · exact ⟨.rest hrefl rfl rfl, rfl, hsane⟩
    · exact ⟨.rest hrefl rfl rfl, rfl, trivial⟩
    · exact ⟨.rest hrefl rfl rfl, rfl, hsane⟩
  · rw [dispatchStep] at h
    cases h
    exact ⟨.rest hrefl (held_dispatchVisit pass rows) rfl, rfl, sane_dispatchVisit hsane rows⟩
  · rw [dispatchStep] at h
    split_ifs at h <;> cases h
    · exact ⟨.rest hrefl rfl rfl, rfl, hsane⟩
    · exact ⟨.rest hrefl rfl rfl, rfl, hsane⟩
  · rw [dispatchStep] at h
    split_ifs at h <;> cases h
    · exact ⟨.rest hrefl rfl rfl, rfl, hsane⟩
    · refine ⟨.rest hrefl ?_ rfl, rfl, sane_dispatchCounts hsane⟩
      rw [dispatchCounts]
      split_ifs <;> rfl
  · rw [dispatchStep] at h
    split_ifs at h <;> cases h
    · exact ⟨.rest hrefl rfl rfl, rfl, hsane⟩
    · -- muted work is stepped over: the cursor moves on, and nothing is held
      exact ⟨.rest (advances_claim (le_max_left _ _)) rfl rfl, rfl, hsane⟩
  · rw [dispatchStep] at h
    split_ifs at h <;> cases h
    · exact ⟨.rest hrefl rfl rfl, rfl, hsane.1⟩
    · exact ⟨.rest hrefl rfl rfl, rfl, hsane⟩
  · -- the claim, won or lost
    obtain ⟨hnow, hwithin⟩ := hsane
    rw [dispatchStep] at h
    split_ifs at h with hfails hwon <;> cases h
    · exact ⟨.rest hrefl rfl rfl, rfl, hnow⟩
    · exact ⟨claimFor_effect hnow hwithin hwon, rfl, hnow, hwithin⟩
    · exact ⟨.rest hrefl rfl rfl, rfl, hnow⟩
  · obtain ⟨hnow, hwithin⟩ := hsane
    rw [dispatchStep] at h
    cases h
    refine ⟨dispatchDeliver_effect hwithin, rfl, ?_⟩
    rw [dispatchDeliver]
    split_ifs
    · exact hnow
    · rcases o.delivery with _ | _ | _ <;> exact hnow
  · rw [dispatchStep] at h
    split_ifs at h <;> cases h
    · exact ⟨.rest hrefl rfl rfl, rfl, hsane⟩
    · refine ⟨.rest (advances_of_sameCursors (le_refl _) fun id cursor hcursor => ?_) rfl rfl, rfl,
        hsane⟩
      exact cursorAt_updateWhere (by intros; rfl) hcursor fun _ => rfl
  · rw [dispatchStep] at h
    split_ifs at h <;> cases h
    · exact ⟨.rest hrefl rfl rfl, rfl, hsane⟩
    · exact ⟨.rest (advances_delete _) rfl rfl, rfl, hsane⟩
  · rw [dispatchStep] at h
    split_ifs at h <;> cases h
    · exact ⟨.rest hrefl rfl rfl, rfl, trivial⟩
    · exact ⟨.handBack (claimOf pass row) rfl rfl rfl rfl, rfl, hsane⟩
  · cases h
  · cases h

/-! ### Claims that stand -/

/-- A claim behind its cursor, and behind the clock. -/
structure Stands (db : DispatchDb) (c : CursorClaim String ℤ) : Prop where
  behind : c.Behind (cursorAt db.channels)
  past : c.claimed ≤ db.clock

theorem Stands.mono {db db' : DispatchDb} {c : CursorClaim String ℤ} (h : Stands db c)
    (hadv : Advances db db') : Stands db' c := by
  refine ⟨h.behind.mono fun cursor hcursor => ?_, h.past.trans hadv.1⟩
  exact (hadv.2 c.key cursor hcursor).imp_left h.past.trans

section Step

variable {db db' : DispatchDb} {l l' : DispatchProc} {sent : List SentBundle}
  {c : CursorClaim String ℤ}

/-- **Others' claims stand.** Whatever a pass does, a claim that stands and is apart from the one
it holds still stands, and is apart from the one it then holds. -/
theorem Stands.step (h : Stands db c) (heff : DispatchEffect db db' l l' sent)
    (hclock : db'.clock = db.clock) (hapart : ∀ d, l.held = some d → c.Apart d) :
    Stands db' c ∧ ∀ d, l'.held = some d → c.Apart d := by
  have hsame : db'.channels = db.channels → Stands db' c := fun hchannels =>
    ⟨hchannels ▸ h.behind, hclock ▸ h.past⟩
  have hnone : l'.held = none → ∀ d, l'.held = some d → c.Apart d := fun hheld' d hd =>
    absurd (hheld'.symm.trans hd) (by simp)
  rcases heff with ⟨hadv, hheld', -⟩ | ⟨hchannels, hheld, -⟩ |
    ⟨b, hchannels, -, hheld', -, -⟩ | ⟨e, at', hforward, -, hat, hchannels, hheld', -⟩ |
    ⟨e, hheld, hchannels, hheld', -⟩
  · exact ⟨h.mono hadv, hnone hheld'⟩
  · exact ⟨hsame hchannels, fun d hd => hapart d (hheld ▸ hd)⟩
  · exact ⟨hsame hchannels, hnone hheld'⟩
  · -- a new claim begins at the cursor and moves it on
    refine ⟨⟨h.behind.mono fun cursor hcursor => .inr ?_, hclock ▸ h.past⟩, fun d hd => ?_⟩
    · rw [hchannels] at hcursor
      rcases cursorAt_claim hcursor with ⟨hold, -⟩ | ⟨hkey, rfl, hold⟩
      · exact ⟨cursor, le_refl _, hold⟩
      · exact ⟨e.expected, le_of_lt hforward, hkey ▸ hold⟩
    · cases hheld'.symm.trans hd
      exact (h.behind.apart hat).symm
  · -- the cursor returns to where the claim began, and the other ends before that
    refine ⟨⟨⟨h.behind.forward, fun cursor hcursor => ?_⟩, hclock ▸ h.past⟩, hnone hheld'⟩
    rw [hchannels] at hcursor
    rcases (cursorAt_move (by intros; rfl) hcursor fun _ => rfl) with ⟨hold, -⟩ | ⟨hkey, rfl, hold⟩
    · exact h.behind.passed cursor hold
    · exact h.behind.le_of_back (hapart e hheld) hkey hold

theorem Stands.own (heff : DispatchEffect db db' l l' sent) (hclock : db'.clock = db.clock)
    (hheld : ∀ d, l.held = some d → Stands db d) : ∀ d, l'.held = some d → Stands db' d := by
  intro d hd
  have hnone : l'.held ≠ none := fun hheld' => absurd (hheld'.symm.trans hd) (by simp)
  rcases heff with ⟨-, hheld', -⟩ | ⟨hchannels, hkeep, -⟩ | ⟨-, -, -, hheld', -, -⟩ |
    ⟨c, at', hforward, hpast, hat, hchannels, hheld', -⟩ | ⟨-, -, -, hheld', -⟩
  · exact absurd hheld' hnone
  · obtain ⟨hbehind, hpast⟩ := hheld d (hkeep ▸ hd)
    exact ⟨hchannels ▸ hbehind, hclock ▸ hpast⟩
  · exact absurd hheld' hnone
  · cases hheld'.symm.trans hd
    refine ⟨⟨hforward, fun cursor hcursor => ?_⟩, hclock ▸ hpast⟩
    rw [hchannels] at hcursor
    rcases cursorAt_claim hcursor with ⟨hold, hother⟩ | ⟨-, rfl, -⟩
    · -- there is only one cursor, and it was the expected one
      exact absurd ⟨rfl, cursorAt_unique hold hat⟩ hother
    · exact le_refl _
  · exact absurd hheld' hnone

end Step

/-! ### Every interleaving -/

/-- What holds of the bundles sent so far. -/
structure SentSafe (w : DispatchWorld) : Prop where
  stands : ∀ b ∈ w.sent, Stands w.db b.claim
  bundle : ∀ b ∈ w.sent, ∀ n ∈ b.bundle, n.createdAt ∈ b.claim.span
  apart : w.sent.Pairwise fun a b => a.claim.Apart b.claim

structure DispatchAsserts (w : DispatchWorld) (l : DispatchProc) : Prop where
  sane : l.Sane w.db.clock
  stands : ∀ c, l.held = some c → Stands w.db c
  unsent : ∀ c, l.held = some c → ∀ b ∈ w.sent, c.Apart b.claim

/-- Two passes hold claims that are apart. -/
def HoldApart (l m : DispatchProc) : Prop :=
  ∀ c d, l.held = some c → m.held = some d → c.Apart d

section

variable {db db' : DispatchDb} {l l' m : DispatchProc} {old sent : List SentBundle}

theorem DispatchEffect.of_mem {b : SentBundle} (heff : DispatchEffect db db' l l' sent)
    (hb : b ∈ sent) : sent = [b] ∧ l.held = some b.claim ∧ l'.held = none ∧
      db'.channels = db.channels ∧ ∀ n ∈ b.bundle, n.createdAt ∈ b.claim.span := by
  have hempty : sent ≠ [] := List.ne_nil_of_mem hb
  rcases heff with ⟨-, -, hsent⟩ | ⟨-, -, hsent⟩ | ⟨a, hchannels, hheld, hheld', hbundle, rfl⟩ |
    ⟨-, -, -, -, -, -, -, hsent⟩ | ⟨-, -, -, -, hsent⟩
  · exact absurd hsent hempty
  · exact absurd hsent hempty
  · obtain rfl := List.mem_singleton.mp hb
    exact ⟨rfl, hheld, hheld', hchannels, hbundle⟩
  · exact absurd hsent hempty
  · exact absurd hsent hempty

theorem SentSafe.step (hinv : SentSafe ⟨db, old⟩) (hl : DispatchAsserts ⟨db, old⟩ l)
    (heff : DispatchEffect db db' l l' sent) (hclock : db'.clock = db.clock) :
    SentSafe ⟨db', old ++ sent⟩ := by
  have hold : ∀ b ∈ old, Stands db' b.claim := fun b hb =>
    ((hinv.stands b hb).step heff hclock fun d hd => (hl.unsent d hd b hb).symm).1
  constructor
  · intro b hb
    rcases List.mem_append.mp hb with hb | hb
    · exact hold b hb
    · obtain ⟨-, hheld, -, hchannels, -⟩ := heff.of_mem hb
      obtain ⟨hbehind, hpast⟩ := hl.stands _ hheld
      exact ⟨hchannels ▸ hbehind, hclock ▸ hpast⟩
  · intro b hb
    rcases List.mem_append.mp hb with hb | hb
    · exact hinv.bundle b hb
    · exact (heff.of_mem hb).2.2.2.2
  · refine List.pairwise_append.mpr ⟨hinv.apart, ?_, fun a ha b hb => ?_⟩
    · rcases sent with _ | ⟨b, rest⟩
      · exact .nil
      · rw [(heff.of_mem List.mem_cons_self).1]
        exact List.pairwise_singleton _ b
    · exact (hl.unsent _ (heff.of_mem hb).2.1 a ha).symm

theorem DispatchAsserts.step (hinv : SentSafe ⟨db, old⟩) (hl : DispatchAsserts ⟨db, old⟩ l)
    (heff : DispatchEffect db db' l l' sent) (hclock : db'.clock = db.clock)
    (hsane : l'.Sane db'.clock) : DispatchAsserts ⟨db', old ++ sent⟩ l' := by
  refine ⟨hsane, Stands.own heff hclock hl.stands, fun c hc b hb => ?_⟩
  rcases List.mem_append.mp hb with hb | hb
  · have hstep := (hinv.stands b hb).step heff hclock fun d hd => (hl.unsent d hd b hb).symm
    exact (hstep.2 c hc).symm
  · cases (heff.of_mem hb).2.2.1.symm.trans hc

theorem DispatchAsserts.other (hm : DispatchAsserts ⟨db, old⟩ m) (hapart : HoldApart l m)
    (heff : DispatchEffect db db' l l' sent) (hclock : db'.clock = db.clock) :
    DispatchAsserts ⟨db', old ++ sent⟩ m ∧ HoldApart l' m := by
  have hstep : ∀ c, m.held = some c → _ := fun c hc =>
    (hm.stands c hc).step heff hclock fun d hd => (hapart d c hd hc).symm
  refine ⟨⟨hclock.symm ▸ hm.sane, fun c hc => (hstep c hc).1, fun c hc b hb => ?_⟩,
    fun d c hd hc => ((hstep c hc).2 d hd).symm⟩
  rcases List.mem_append.mp hb with hb | hb
  · exact hm.unsent c hc b hb
  · exact (hapart b.claim c (heff.of_mem hb).2.1 hc).symm

end

theorem DispatchEnv.advances {w w' : DispatchWorld} (h : DispatchEnv w w') :
    w'.sent = w.sent ∧ Advances w.db w'.db := by
  rcases h with ⟨clock, hle⟩ | _ | _ | _ | ⟨id, args⟩ | p
  · exact ⟨rfl, advances_of_sameCursors hle fun _ _ h => h⟩
  · exact ⟨rfl, advances_refl _⟩
  · exact ⟨rfl, advances_refl _⟩
  · exact ⟨rfl, advances_refl _⟩
  · exact ⟨rfl, advances_addChannel id args⟩
  · exact ⟨rfl, advances_delete p⟩

/-- The invariant of all interleavings. -/
def dispatchSound : dispatchProgram.Sound DispatchWorld.Initial where
  inv := SentSafe
  asserts := DispatchAsserts
  apart := HoldApart
  symm l m h c d hc hd := (h d c hd hc).symm
  init w hinit := by
    have hnone : ∀ b, b ∉ w.sent := by
      rw [show w.sent = [] from hinit]
      exact fun _ => List.not_mem_nil
    refine ⟨fun b hb => absurd hb (hnone b), fun b hb => absurd hb (hnone b), ?_⟩
    rw [show w.sent = [] from hinit]
    exact .nil
  start w l _ hstart := by
    obtain ⟨kind, budget, rfl⟩ := hstart
    refine ⟨⟨trivial, fun c hc => ?_, fun c hc => ?_⟩, fun m _ c d hc => ?_⟩ <;>
      exact nomatch hc
  step w l w' l' hinv hl hstep := by
    obtain ⟨o, db, hstep, rfl⟩ := hstep
    obtain ⟨heff, hclock, hsane⟩ := dispatchStep_effect hl.sane hstep
    exact ⟨hinv.step hl heff hclock, hl.step hinv heff hclock (hclock.symm ▸ hsane)⟩
  noninterference w l w' l' m hinv hl hm hapart hstep := by
    obtain ⟨o, db, hstep, rfl⟩ := hstep
    obtain ⟨heff, hclock, -⟩ := dispatchStep_effect hl.sane hstep
    exact hm.other hapart heff hclock
  env w w' hinv henv := by
    obtain ⟨hsent, hadv⟩ := henv.advances
    refine ⟨⟨fun b hb => ?_, fun b hb => hinv.bundle b (hsent ▸ hb), hsent.symm ▸ hinv.apart⟩,
      fun m hm => ⟨hm.sane.mono hadv.1, fun c hc => (hm.stands c hc).mono hadv,
        fun c hc b hb => ?_⟩⟩
    · exact (hinv.stands b (hsent ▸ hb)).mono hadv
    · exact hm.unsent c hc b (hsent ▸ hb)

/-- How often a notification has been sent to a channel. -/
def sentCount (sent : List SentBundle) (channelId : String) (n : NotificationRow) : ℕ :=
  sent.countP fun b => b.claim.key == channelId && b.bundle.contains n

section Runs

variable {ι : Type*} [DecidableEq ι] {s : Interleaved DispatchWorld DispatchProc ι}

/-- **No notification is sent twice**: in every interleaving of passes the intervals of the bundles
sent to a channel are disjoint, and a bundle is of its interval. -/
theorem dispatch_sends_once (h : (dispatchProgram.system ι DispatchWorld.Initial).Reachable s) :
    (s.shared.sent.Pairwise fun a b =>
        a.claim.key = b.claim.key → ∀ t ∈ a.claim.span, t ∉ b.claim.span) ∧
      (∀ b ∈ s.shared.sent, ∀ n ∈ b.bundle, n.createdAt ∈ b.claim.span) ∧
      ∀ channelId n, sentCount s.shared.sent channelId n ≤ 1 := by
  obtain ⟨-, hbundle, hapart⟩ := (dispatchSound.holds h).inv
  have hdisjoint : s.shared.sent.Pairwise fun a b =>
      a.claim.key = b.claim.key → ∀ t ∈ a.claim.span, t ∉ b.claim.span := by
    refine hapart.imp ?_
    intro a b hab hkey t ht
    exact hab.notMem_span hkey ht
  refine ⟨hdisjoint, hbundle, fun channelId n => countP_le_one ?_⟩
  refine hdisjoint.imp_of_mem fun {a b} ha hb hab hina hinb => ?_
  simp only [Bool.and_eq_true, beq_iff_eq, List.contains_iff_mem] at hina hinb
  have hkey := hina.1.trans hinb.1.symm
  exact hab hkey n.createdAt (hbundle a ha n hina.2) (hbundle b hb n hinb.2)

end Runs

/-- A step of a pass, with the record of what has been sent. -/
def dispatchWorldStep (o : StepOutcome) (w : DispatchWorld) (l : DispatchProc) :
    Option (DispatchWorld × DispatchProc) :=
  (dispatchStep o w.db l).map fun out => (⟨out.1, w.sent ++ sentBy o l⟩, out.2)

theorem step_of_dispatchWorldStep (o : StepOutcome) (w : DispatchWorld) (l : DispatchProc)
    (w' : DispatchWorld) (l' : DispatchProc) (h : dispatchWorldStep o w l = some (w', l')) :
    dispatchProgram.Step w l w' l' := by
  obtain ⟨⟨db, m⟩, hstep, hout⟩ := Option.map_eq_some_iff.mp h
  cases hout
  exact ⟨o, db, hstep, rfl⟩

def replyNotice : NotificationRow := ⟨"n1", "stake1", "reply", none, none, 50⟩

def replyChannel : ChannelRow :=
  ⟨"c1", "stake1", .webpush, "key", "https://push", none, 10, 10, none, 0⟩

/-- Two passes in lockstep, of which one wins the claim and sends. -/
theorem dispatch_sends_once_lockstep :
    ∃ s : Interleaved DispatchWorld DispatchProc ℕ,
      (dispatchProgram.system ℕ DispatchWorld.Initial).Reachable s ∧
        s.shared.sent.length = 1 ∧ sentCount s.shared.sent "c1" replyNotice = 1 := by
  have h₀ : (dispatchProgram.system ℕ DispatchWorld.Initial).Reachable
      ⟨⟨⟨⟨[replyChannel], by simp⟩, .empty, ⟨[replyNotice], by simp, by decide⟩, [], [], 60⟩, []⟩,
        fun _ => none⟩ :=
    .init ⟨rfl, fun _ => rfl⟩
  have h₁ := h₀.step (.start (i := 0) rfl ⟨.webpush, none, rfl⟩)
  have h₂ := h₁.step (.start (i := 1) rfl ⟨.webpush, none, rfl⟩)
  have h₃ := Program.reachable_run step_of_dispatchWorldStep h₂
    ([0, 1, 0, 1, 0, 1, 0, 1, 0, 1, 0, 1, 0, 1, 0].map fun i => (i, ⟨false, .sent, 1⟩))
    (by decide +kernel)
  refine ⟨_, h₃, by decide +kernel, ?_⟩
  exact Nat.le_antisymm ((dispatch_sends_once h₃).2.2 "c1" replyNotice)
    (show 0 < _ from by decide +kernel)

end DrepTalk
