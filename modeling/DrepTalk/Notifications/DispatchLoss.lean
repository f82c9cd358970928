import DrepTalk.Notifications.DispatchRuns

/-!
# What a failed send loses

Once more any number of dispatch passes, interleaved, now for one notification `n` of a user and
the channel with a given `id`, of a given `kind`. A notification is **lost** (`Lost`) where it is
newer than the channel, the cursor has passed it, and no bundle sent to the channel contained it.

**Who answers for it.** A pass steps over a channel only where its counts found nothing, and the
bundle of a claim is all that was pending. So a notification the cursor has passed without its being
sent is in the span of a claim that some pass has still to settle (`Lost.step`).

**Hand-backs that come too late.** A claim that is handed back takes the cursor along if the cursor
is still where the claim left it. A later pass may have moved it on; then the hand-back does nothing
and the bundle is gone (`lost_of_late`, `not_dispatch_loses_none`). In every run in which claims on
the notification are handed back in time, it is not lost (`dispatch_loses_none`).
-/

namespace DrepTalk

section

variable (n : NotificationRow) (kind : ChannelKind) (id : String)

/-- The channel is one of the recipient, and is older than the notification. -/
structure Awaits (row : ChannelRow) : Prop where
  key : row.id = id
  kind : row.channel = kind
  user : row.userId = n.recipientId
  since : row.createdAt < n.createdAt

/-- The cursor of the channel has passed the notification. -/
def Passed (channels : ChannelTable) : Prop :=
  ∃ row ∈ channels.rows, Awaits n kind id row ∧ n.createdAt ≤ row.deliveredUntil

/-- The cursor has passed the notification, which has not been sent to the channel. -/
structure Lost (w : DispatchWorld) : Prop where
  mem : n ∈ w.db.notifications.rows
  passed : Passed n kind id w.db.channels
  unsent : ∀ b ∈ w.sent, b.claim.key = id → n ∉ b.bundle

end

/-- The claim a pass has neither sent under nor handed back, nor removed the channel of. -/
def DispatchProc.unsettled : DispatchProc → Option (CursorClaim String ℤ)
  | .prune pass row _ => some (claimOf pass row)
  | l => l.held

/-- Whether the next statement of a pass ends a claim it has not sent under. -/
def DispatchProc.ends : DispatchProc → Bool
  | .prune _ _ _ | .handBack _ _ _ => true
  | _ => false

/-- Dispatch passes whose hand-backs and removals do not themselves fail. -/
def steadyDispatch : Program DispatchWorld DispatchProc where
  Start := dispatchProgram.Start
  Step w l w' l' := ∃ o db, (l.ends = true → o.fails = false) ∧
    dispatchStep o w.db l = some (db, l') ∧ w' = ⟨db, w.sent ++ sentBy o l⟩
  Env := dispatchProgram.Env

/-- Nothing has been sent, and every cursor is where its channel was connected. -/
structure DispatchWorld.Fresh (w : DispatchWorld) : Prop where
  initial : w.Initial
  cursors : ∀ row ∈ w.db.channels.rows, row.deliveredUntil = row.createdAt

/-- A claim on the notification is handed back while the cursor is where the claim left it, unless
the channel is gone or has been connected anew. -/
def HandsBackInTime (n : NotificationRow) (id : String) (w : DispatchWorld) : DispatchProc → Prop
  | .handBack pass row _ =>
    row.id = id → row.deliveredUntil < n.createdAt → n.createdAt ≤ pass.nextCursor row →
      ∀ c ∈ w.db.channels.rows, c.id = id →
        c.deliveredUntil = pass.nextCursor row ∨ pass.nextCursor row ≤ c.createdAt
  | _ => True

/-- The condition on a run: the prefs let the notification through, and claims on it are handed
back in time. -/
def handedBackInTime (n : NotificationRow) (kind : ChannelKind) (id : String) :
    Program.Condition DispatchWorld DispatchProc where
  state w := isEnabled (getPrefs w.db n.recipientId kind) n = true
  mover := HandsBackInTime n id
  others _ _ _ := True

/-! ### What counts count -/

theorem personalPref_ne_governance (type : String) :
    personalPref type ≠ some (some .governance) := by
  have hite : ∀ {p : Prop} [Decidable p] {a b : Option (Option NotificationEventType)},
      a ≠ some (some .governance) → b ≠ some (some .governance) →
        (if p then a else b) ≠ some (some .governance) := by
    intro p _ a b ha hb
    split_ifs
    · exact ha
    · exact hb
  rw [personalPref]
  iterate 10 refine hite (by simp) ?_
  simp

section

variable (n : NotificationRow) (kind : ChannelKind) (id : String)

/-- The notification is in the interval of a pass on a channel of the recipient. -/
structure Due (db : DispatchDb) (row : ChannelRow) (passEnd : ℤ) : Prop where
  mem : n ∈ db.notifications.rows
  kind : row.channel = kind
  user : row.userId = n.recipientId
  within : inPass row passEnd n.createdAt = true

end

variable {n : NotificationRow} {kind : ChannelKind} {id : String} {db db' : DispatchDb}
  {pass : DispatchPass} {row : ChannelRow} {rows : List ChannelRow} {passEnd : ℤ} {prefs : Prefs}

theorem Due.mem_pendingBundle (h : Due n kind db row passEnd) (hprefs : isEnabled prefs n = true) :
    n ∈ pendingBundle db row prefs passEnd := by
  refine List.mem_filter.mpr ⟨h.mem, ?_⟩
  rw [Bool.and_eq_true, Bool.and_eq_true, beq_iff_eq]
  exact ⟨⟨h.user.symm, hprefs⟩, h.within⟩

theorem Due.countPersonal_pos (h : Due n kind db row passEnd)
    {pref : Option NotificationEventType} (hpref : personalPref n.type = some pref) :
    0 < countPersonal db row passEnd pref := by
  refine List.countP_pos_iff.mpr ⟨n, h.mem, ?_⟩
  rw [Bool.and_eq_true, Bool.and_eq_true, beq_iff_eq, beq_iff_eq]
  exact ⟨⟨h.user.symm, hpref⟩, h.within⟩

/-- **Muted work only.** A pass that counts nothing has nothing due that the prefs let through. -/
theorem Due.total_ne_zero (h : Due n kind db row passEnd) (hprefs : isEnabled prefs n = true) :
    (getPendingCounts db row prefs passEnd).total ≠ 0 := by
  rw [isEnabled] at hprefs
  rcases htype : personalPref n.type with _ | _ | pref
  · rw [htype] at hprefs
    cases hprefs
  · have hpos := h.countPersonal_pos htype
    simp only [PendingCounts.total, getPendingCounts]
    omega
  · have hpos := h.countPersonal_pos htype
    rw [htype] at hprefs
    simp only [PendingCounts.total, getPendingCounts]
    rcases pref with _ | _ | _ | _ | _ | _ | _ | _ | _ | _
    case governance => exact absurd htype (personalPref_ne_governance n.type)
    all_goals
      simp only at hprefs
      rw [if_pos hprefs]
      omega

/-! ### Channels over time -/

/-- A row of a channel, and a later one. -/
structure SameChannel (old c : ChannelRow) : Prop where
  key : old.id = c.id
  user : old.userId = c.userId
  kind : old.channel = c.channel
  created : old.createdAt = c.createdAt

/-- What may have happened to the tables. Channels are those that were there, with no cursor moved
up to the clock, or are connected now; notifications were there, or come now. -/
structure Follows (db db' : DispatchDb) : Prop where
  clock : db.clock ≤ db'.clock
  notifications : ∀ m ∈ db'.notifications.rows,
    m ∈ db.notifications.rows ∨ m.createdAt = db.clock
  channels : ∀ c ∈ db'.channels.rows, (∃ old ∈ db.channels.rows, SameChannel old c ∧
    (c.deliveredUntil ≤ old.deliveredUntil ∨ c.deliveredUntil < db.clock)) ∨
    c.createdAt = db.clock ∧ c.deliveredUntil = db.clock

theorem same_channels {c : ChannelRow} (hc : c ∈ db.channels.rows) :
    ∃ old ∈ db.channels.rows, SameChannel old c ∧
      (c.deliveredUntil ≤ old.deliveredUntil ∨ c.deliveredUntil < db.clock) :=
  ⟨c, hc, ⟨rfl, rfl, rfl, rfl⟩, .inl (le_refl _)⟩

theorem follows_refl (db : DispatchDb) : Follows db db :=
  ⟨le_refl _, fun _ hm => .inl hm, fun _ hc => .inl (same_channels hc)⟩

variable {f : ChannelRow → ChannelRow} {w' : DispatchWorld}

theorem follows_updateWhere {p : ChannelRow → Bool}
    (hkey : ∀ row, p row = true → (f row).id = row.id)
    (hf : ∀ row, p row = true → SameChannel row (f row) ∧
      ((f row).deliveredUntil ≤ row.deliveredUntil ∨ (f row).deliveredUntil < db.clock)) :
    Follows db { db with channels := db.channels.updateWhere p f hkey } := by
  refine ⟨le_refl _, fun _ hm => .inl hm, fun c hc => .inl ?_⟩
  rcases Table.mem_updateWhere.mp hc with ⟨hmem, -⟩ | ⟨old, hold, hp, rfl⟩
  · exact same_channels hmem
  · exact ⟨old, hold, hf old hp⟩

theorem follows_deleteWhere (p : ChannelRow → Bool) :
    Follows db { db with channels := db.channels.deleteWhere p } :=
  ⟨le_refl _, fun _ hm => .inl hm, fun _ hc => .inl (same_channels (Table.mem_deleteWhere.mp hc).1)⟩

theorem follows_claim (hnow : pass.dbNow ≤ db.clock) (row : ChannelRow) :
    Follows db { db with channels := (claimFor db pass row).1 } := by
  refine follows_updateWhere (by intros; rfl) fun c hc => ⟨⟨rfl, rfl, rfl, rfl⟩, ?_⟩
  obtain ⟨-, hcursor⟩ := holdsCursor_eq_true.mp hc
  change pass.nextCursor row ≤ c.deliveredUntil ∨ pass.nextCursor row < db.clock
  rw [hcursor, DispatchPass.nextCursor, DispatchPass.passEnd]
  omega

theorem follows_handBack (pass : DispatchPass) (row : ChannelRow) :
    Follows db { db with channels := handBackFor db pass row } := by
  refine follows_updateWhere (by intros; rfl) fun c hc => ⟨⟨rfl, rfl, rfl, rfl⟩, .inl ?_⟩
  obtain ⟨-, hcursor⟩ := holdsCursor_eq_true.mp hc
  exact le_of_le_of_eq (le_max_left _ _) hcursor.symm

theorem follows_addChannel (k : String) (args : AddChannelArgs) :
    Follows db (addChannel db k args) := by
  refine ⟨le_refl _, fun _ hm => .inl hm, fun c hc => ?_⟩
  change c ∈ (upsertChannel db.channels db.clock k args).rows at hc
  rw [upsertChannel] at hc
  split_ifs at hc
  · rcases Table.mem_updateWhere.mp hc with ⟨hmem, -⟩ | ⟨old, hold, -, rfl⟩
    · exact .inl (same_channels hmem)
    · exact .inl ⟨old, hold, ⟨rfl, rfl, rfl, rfl⟩, .inl (le_refl _)⟩
  · rcases KeyedTable.mem_insertOrIgnore.mp hc with hmem | ⟨rfl, -⟩
    · exact .inl (same_channels hmem)
    · exact .inr ⟨rfl, rfl⟩

variable {o : StepOutcome} {l l' : DispatchProc}

theorem dispatchStep_follows (hsane : l.Sane db.clock) (h : dispatchStep o db l = some (db', l')) :
    Follows db db' := by
  have hrefl := follows_refl db
  cases l with
  | start kind budget | list pass latestGovAt | visit pass rows | deliver pass pending rows =>
    rw [dispatchStep, Option.some.injEq, Prod.mk.injEq] at h
    exact h.1 ▸ hrefl
  | prefs pass row rows | counts pass row prefs rows | lead pass pending rows =>
    rw [dispatchStep] at h
    split_ifs at h <;> rw [Option.some.injEq, Prod.mk.injEq] at h <;> exact h.1 ▸ hrefl
  | mute pass row rows =>
    rw [dispatchStep] at h
    split_ifs at h <;> cases h
    · exact hrefl
    · exact follows_claim hsane row
  | claim pass pending rows =>
    rw [dispatchStep] at h
    split_ifs at h <;> cases h
    · exact hrefl
    · exact follows_claim hsane.1 pending.row
    · exact hrefl
  | markSent pass row rows =>
    rw [dispatchStep] at h
    split_ifs at h <;> cases h
    · exact hrefl
    · exact follows_updateWhere (by intros; rfl) fun _ _ => ⟨⟨rfl, rfl, rfl, rfl⟩, .inl (le_refl _)⟩
  | prune pass row rows =>
    rw [dispatchStep] at h
    split_ifs at h <;> cases h
    · exact hrefl
    · exact follows_deleteWhere _
  | handBack pass row rows =>
    rw [dispatchStep] at h
    split_ifs at h <;> cases h
    · exact hrefl
    · exact follows_handBack pass row
  | returned result | threw => cases h

variable {w : DispatchWorld}

theorem DispatchEnv.follows (h : DispatchEnv w w') : Follows w.db w'.db := by
  have hrefl := follows_refl w.db
  rcases h with ⟨clock, hle⟩ | ⟨notifications, hnew⟩ | _ | _ | ⟨id, args⟩ | p
  · exact ⟨hle, hrefl.notifications, hrefl.channels⟩
  · exact ⟨le_refl _, hnew, hrefl.channels⟩
  · exact ⟨le_refl _, hrefl.notifications, hrefl.channels⟩
  · exact ⟨le_refl _, hrefl.notifications, hrefl.channels⟩
  · exact follows_addChannel id args
  · exact follows_deleteWhere p

/-- No cursor has reached the clock, other than that of a channel connected just now. -/
def BehindClock (db : DispatchDb) : Prop :=
  ∀ c ∈ db.channels.rows, c.deliveredUntil < db.clock ∨ c.deliveredUntil ≤ c.createdAt

theorem BehindClock.of_follows (h : BehindClock db) (hfollows : Follows db db') :
    BehindClock db' := by
  intro c hc
  have hclock := hfollows.clock
  rcases hfollows.channels c hc with ⟨old, hold, hsame, hcursor⟩ | ⟨hcreated, hcursor⟩
  · have hcreated := hsame.created
    have hbehind := h old hold
    omega
  · exact .inr (le_of_eq (hcursor.trans hcreated.symm))

theorem Due.of_follows (h : Due n kind db' row passEnd) (hfollows : Follows db db')
    (hend : passEnd < db.clock) : Due n kind db row passEnd := by
  refine ⟨(hfollows.notifications n h.mem).resolve_right fun hnow => ?_, h.kind, h.user, h.within⟩
  have hbefore := (inPass_eq_true.mp h.within).2
  omega

/-! ### What a pass knows -/

section

variable (n : NotificationRow) (kind : ChannelKind)

/-- What a pass has read: its cached prefs let the notification through, and a channel is still
whose it was, or has been connected since. -/
structure PassKnows (db : DispatchDb) (passKind : ChannelKind) (passEnd : ℤ)
    (prefsByUser : List (String × Prefs)) (rows : List ChannelRow) : Prop where
  cached : passKind = kind → ∀ prefs, prefsByUser.lookup n.recipientId = some prefs →
    isEnabled prefs n = true
  kinds : ∀ row ∈ rows, row.channel = passKind
  same : ∀ row ∈ rows, ∀ c ∈ db.channels.rows, c.id = row.id →
    c.userId = row.userId ∧ c.channel = row.channel ∨ passEnd < c.createdAt

/-- What a pass relies on for the notification: it steps over a channel only where nothing is due,
and what is due is in its bundle. -/
def DispatchProc.Informed (db : DispatchDb) : DispatchProc → Prop
  | .start _ _ | .returned _ | .threw => True
  | .list pass _ => PassKnows n kind db pass.kind pass.passEnd pass.prefsByUser []
  | .visit pass rows => PassKnows n kind db pass.kind pass.passEnd pass.prefsByUser rows
  | .prefs pass row rows | .markSent pass row rows | .prune pass row rows
  | .handBack pass row rows =>
    PassKnows n kind db pass.kind pass.passEnd pass.prefsByUser (row :: rows)
  | .counts pass row prefs rows =>
    PassKnows n kind db pass.kind pass.passEnd pass.prefsByUser (row :: rows) ∧
      (pass.kind = kind → row.userId = n.recipientId → isEnabled prefs n = true)
  | .mute pass row rows =>
    PassKnows n kind db pass.kind pass.passEnd pass.prefsByUser (row :: rows) ∧
      ¬Due n kind db row pass.passEnd
  | .lead pass pending rows | .claim pass pending rows | .deliver pass pending rows =>
    PassKnows n kind db pass.kind pass.passEnd pass.prefsByUser (pending.row :: rows) ∧
      (Due n kind db pending.row pass.passEnd → n ∈ pending.bundle)

end

variable {prefsByUser : List (String × Prefs)} {passKind : ChannelKind}

theorem PassKnows.of_follows
    (h : PassKnows n kind db passKind passEnd prefsByUser rows)
    (hfollows : Follows db db') (hend : passEnd < db.clock) :
    PassKnows n kind db' passKind passEnd prefsByUser rows := by
  refine ⟨h.cached, h.kinds, fun row hrow c hc hid => ?_⟩
  rcases hfollows.channels c hc with ⟨old, hold, hsame, -⟩ | ⟨hnow, -⟩
  · rw [← hsame.user, ← hsame.kind, ← hsame.created]
    exact h.same row hrow old hold (hsame.key.trans hid)
  · exact .inr (hnow ▸ hend)

theorem PassKnows.tail
    (h : PassKnows n kind db passKind passEnd prefsByUser (row :: rows)) :
    PassKnows n kind db passKind passEnd prefsByUser rows :=
  ⟨h.cached, fun r hr => h.kinds r (List.mem_cons_of_mem row hr), fun r hr =>
    h.same r (List.mem_cons_of_mem row hr)⟩

theorem DispatchProc.Informed.of_follows (h : l.Informed n kind db) (hsane : l.Sane db.clock)
    (hfollows : Follows db db') : l.Informed n kind db' := by
  have hend : ∀ pass : DispatchPass, pass.dbNow ≤ db.clock → pass.passEnd < db.clock := by
    intro pass hnow
    rw [DispatchPass.passEnd]
    omega
  cases l with
  | start kind budget | returned result | threw => exact trivial
  | list pass latestGovAt | visit pass rows | prefs pass row rows | markSent pass row rows
  | prune pass row rows | handBack pass row rows =>
    exact PassKnows.of_follows h hfollows (hend pass hsane)
  | counts pass row prefs rows => exact ⟨h.1.of_follows hfollows (hend pass hsane), h.2⟩
  | mute pass row rows =>
    exact ⟨h.1.of_follows hfollows (hend pass hsane), fun hdue =>
      h.2 (hdue.of_follows hfollows (hend pass hsane))⟩
  | lead pass pending rows | claim pass pending rows | deliver pass pending rows =>
    exact ⟨h.1.of_follows hfollows (hend pass hsane.1), fun hdue =>
      h.2 (hdue.of_follows hfollows (hend pass hsane.1))⟩

theorem mem_listDispatchCandidates {latestGovAt : Option ℤ} {limit : ℕ}
    (h : row ∈ listDispatchCandidates db passKind latestGovAt limit) :
    row ∈ db.channels.rows ∧ row.channel = passKind := by
  have hsorted := (List.mem_insertionSort _).mp (List.mem_of_mem_take h)
  obtain ⟨hmem, hcandidate⟩ := List.mem_filter.mp hsorted
  simp only [isCandidate, Bool.and_eq_true, beq_iff_eq] at hcandidate
  exact ⟨hmem, hcandidate.1⟩

theorem PassKnows.candidates (h : PassKnows n kind db passKind passEnd prefsByUser rows)
    (latestGovAt : Option ℤ) (limit : ℕ) : PassKnows n kind db passKind passEnd prefsByUser
      (listDispatchCandidates db passKind latestGovAt limit) := by
  refine ⟨h.cached, fun row hrow => (mem_listDispatchCandidates hrow).2,
    fun row hrow c hc hid => ?_⟩
  rw [db.channels.eq_of_key hc (mem_listDispatchCandidates hrow).1 hid]
  exact .inl ⟨rfl, rfl⟩

theorem PassKnows.cache (h : PassKnows n kind db passKind passEnd prefsByUser (row :: rows))
    (hstate : isEnabled (getPrefs db n.recipientId kind) n = true) :
    PassKnows n kind db passKind passEnd
        ((row.userId, getPrefs db row.userId row.channel) :: prefsByUser) (row :: rows) ∧
      (passKind = kind → row.userId = n.recipientId →
        isEnabled (getPrefs db row.userId row.channel) n = true) := by
  have hread : passKind = kind → row.userId = n.recipientId →
      isEnabled (getPrefs db row.userId row.channel) n = true := by
    intro hkind huser
    rw [h.kinds row List.mem_cons_self, hkind, huser]
    exact hstate
  refine ⟨⟨fun hkind prefs hlookup => ?_, h.kinds, h.same⟩, hread⟩
  rw [List.lookup_cons] at hlookup
  split at hlookup
  · next huser =>
    cases hlookup
    exact hread hkind (beq_iff_eq.mp huser).symm
  · exact h.cached hkind prefs hlookup

theorem informed_dispatchVisit
    (h : PassKnows n kind db pass.kind pass.passEnd pass.prefsByUser rows) :
    (dispatchVisit pass rows).Informed n kind db := by
  rcases rows with _ | ⟨row, rows⟩
  · exact trivial
  · rw [dispatchVisit]
    split_ifs
    · exact trivial
    · rcases hlookup : pass.prefsByUser.lookup row.userId with _ | prefs
      · exact h
      · exact ⟨h, fun hkind huser => h.cached hkind prefs (huser ▸ hlookup)⟩

theorem informed_dispatchCounts
    (h : PassKnows n kind db pass.kind pass.passEnd pass.prefsByUser (row :: rows))
    (hprefs : pass.kind = kind → row.userId = n.recipientId → isEnabled prefs n = true) :
    (dispatchCounts db pass row prefs rows).Informed n kind db := by
  have hdue : Due n kind db row pass.passEnd → isEnabled prefs n = true := fun hdue =>
    hprefs ((h.kinds row List.mem_cons_self).symm.trans hdue.kind) hdue.user
  rw [dispatchCounts]
  split_ifs with htotal
  · exact ⟨h, fun hd => hd.total_ne_zero (hdue hd) htotal⟩
  · exact ⟨h, fun hd => hd.mem_pendingBundle (hdue hd)⟩
  · exact ⟨h, fun hd => hd.mem_pendingBundle (hdue hd)⟩

theorem dispatchStep_learns (hstate : isEnabled (getPrefs db n.recipientId kind) n = true)
    (h : l.Informed n kind db) (hstep : dispatchStep o db l = some (db', l')) :
    l'.Informed n kind db := by
  cases l with
  | start kind budget =>
    rw [dispatchStep] at hstep
    cases hstep
    rw [dispatchStart]
    split_ifs
    · exact trivial
    · exact trivial
    · exact ⟨by simp, by simp, by simp⟩
  | list pass latestGovAt =>
    rw [dispatchStep] at hstep
    cases hstep
    rw [dispatchList]
    split_ifs
    · exact h
    · exact trivial
    · exact PassKnows.candidates h _ _
  | visit pass rows =>
    rw [dispatchStep, Option.some.injEq, Prod.mk.injEq] at hstep
    exact hstep.2 ▸ informed_dispatchVisit h
  | prefs pass row rows =>
    rw [dispatchStep] at hstep
    split_ifs at hstep <;> cases hstep
    · exact PassKnows.tail h
    · exact PassKnows.cache h hstate
  | counts pass row prefs rows =>
    rw [dispatchStep] at hstep
    split_ifs at hstep <;> cases hstep
    · exact h.1.tail
    · exact informed_dispatchCounts h.1 h.2
  | mute pass row rows =>
    rw [dispatchStep] at hstep
    split_ifs at hstep <;> rw [Option.some.injEq, Prod.mk.injEq] at hstep <;>
      obtain ⟨-, rfl⟩ := hstep <;> exact h.1.tail
  | lead pass pending rows =>
    rw [dispatchStep] at hstep
    split_ifs at hstep <;> cases hstep
    · exact h.1.tail
    · exact h
  | claim pass pending rows =>
    rw [dispatchStep] at hstep
    split_ifs at hstep <;> cases hstep
    · exact h.1.tail
    · exact h
    · exact h.1.tail
  | deliver pass pending rows =>
    rw [dispatchStep] at hstep
    cases hstep
    rw [dispatchDeliver]
    split_ifs
    · exact h.1
    · rcases o.delivery with _ | _ | _ <;> exact h.1
  | markSent pass row rows | prune pass row rows =>
    rw [dispatchStep] at hstep
    split_ifs at hstep <;> rw [Option.some.injEq, Prod.mk.injEq] at hstep <;>
      obtain ⟨-, rfl⟩ := hstep <;> exact PassKnows.tail h
  | handBack pass row rows =>
    rw [dispatchStep] at hstep
    split_ifs at hstep <;> cases hstep
    · exact trivial
    · exact PassKnows.tail h
  | returned result | threw => cases hstep

theorem DispatchProc.Informed.step (hstate : isEnabled (getPrefs db n.recipientId kind) n = true)
    (h : l.Informed n kind db) (hsane : l.Sane db.clock)
    (hstep : dispatchStep o db l = some (db', l')) :
    l'.Informed n kind db' :=
  (dispatchStep_learns hstate h hstep).of_follows (dispatchStep_effect hsane hstep).2.2
    (dispatchStep_follows hsane hstep)

/-! ### Who answers for a notification -/

/-- A pass answers for the notification: it is in the span of the claim that is not settled. -/
def DispatchProc.Owes (n : NotificationRow) (id : String) (l : DispatchProc) : Prop :=
  ∃ c ∈ l.unsettled, c.key = id ∧ n.createdAt ∈ c.span

theorem not_owes (h : l.unsettled = none) : ¬l.Owes n id := by
  rintro ⟨c, hc, -⟩
  rw [h] at hc
  cases hc

variable {channels : ChannelTable} {k : String} {expected : ℤ} {sent more : List SentBundle}

theorem Passed.of_move (target : ℤ)
    (hkey : ∀ row, holdsCursor k expected row = true → (f row).id = row.id)
    (h : Passed n kind id (channels.updateWhere (holdsCursor k expected) f hkey))
    (hawaits : ∀ row, Awaits n kind id (f row) → Awaits n kind id row)
    (hmove : ∀ row, (f row).deliveredUntil = target) :
    ∃ row ∈ channels.rows, Awaits n kind id row ∧
      (n.createdAt ≤ row.deliveredUntil ∧ ¬(row.id = k ∧ row.deliveredUntil = expected) ∨
        row.id = k ∧ row.deliveredUntil = expected ∧ n.createdAt ≤ target) := by
  obtain ⟨row, hmem, hrow, hpast⟩ := h
  rcases Table.mem_updateWhere.mp hmem with ⟨hmem, hother⟩ | ⟨old, hold, hholds, rfl⟩
  · refine ⟨row, hmem, hrow, .inl ⟨hpast, ?_⟩⟩
    rwa [← holdsCursor_eq_true, Bool.not_eq_true]
  · obtain ⟨hid, hcursor⟩ := holdsCursor_eq_true.mp hholds
    exact ⟨old, hold, hawaits old hrow, .inr ⟨hid, hcursor, hmove old ▸ hpast⟩⟩

/-- **A claim passes what is due.** Where a claim moves the cursor past the notification, it was
due. -/
theorem Passed.of_claim (h : Passed n kind id (claimFor db pass row).1)
    (hknows : PassKnows n kind db pass.kind pass.passEnd pass.prefsByUser (row :: rows))
    (hmem : n ∈ db.notifications.rows) :
    Passed n kind id db.channels ∨ row.id = id ∧ Due n kind db row pass.passEnd := by
  obtain ⟨c, hc, hawaits, hcase⟩ := Passed.of_move (pass.nextCursor row) (by intros; rfl) h
    (fun _ h => ⟨h.key, h.kind, h.user, h.since⟩) fun _ => rfl
  rcases hcase with ⟨hpast, -⟩ | ⟨hid, hcursor, hpast⟩
  · exact .inl ⟨c, hc, hawaits, hpast⟩
  · by_cases hle : n.createdAt ≤ row.deliveredUntil
    · exact .inl ⟨c, hc, hawaits, hcursor.symm ▸ hle⟩
    · have hend : n.createdAt ≤ pass.passEnd := (le_max_iff.mp hpast).resolve_left hle
      rcases hknows.same row List.mem_cons_self c hc hid with ⟨huser, hkind⟩ | hlater
      · exact .inr ⟨hid.symm.trans hawaits.key, hmem, hkind.symm.trans hawaits.kind,
          huser.symm.trans hawaits.user, inPass_eq_true.mpr ⟨not_le.mp hle, hend⟩⟩
      · have hsince := hawaits.since
        omega

theorem Due.mem_span (h : Due n kind db row pass.passEnd) :
    n.createdAt ∈ (claimOf pass row).span := by
  obtain ⟨hafter, hbefore⟩ := inPass_eq_true.mp h.within
  exact ⟨hafter, hbefore.trans (le_max_right _ _)⟩

theorem Due.of_mem_span (hmem : n ∈ db.notifications.rows)
    (hpassed : Passed n kind id db.channels)
    (hknows : PassKnows n kind db pass.kind pass.passEnd pass.prefsByUser (row :: rows))
    (hforward : row.deliveredUntil < pass.passEnd) (hid : row.id = id)
    (hspan : n.createdAt ∈ (claimOf pass row).span) : Due n kind db row pass.passEnd := by
  obtain ⟨c, hc, hawaits, -⟩ := hpassed
  obtain ⟨hafter, hbefore⟩ := hspan
  have hend : n.createdAt ≤ pass.passEnd :=
    le_of_le_of_eq hbefore (max_eq_right (le_of_lt hforward))
  rcases hknows.same row List.mem_cons_self c hc (hawaits.key.trans hid.symm) with
    ⟨huser, hkind⟩ | hlater
  · exact ⟨hmem, hkind.symm.trans hawaits.kind, huser.symm.trans hawaits.user,
      inPass_eq_true.mpr ⟨hafter, hend⟩⟩
  · have hsince := hawaits.since
    omega

theorem Lost.back (h : Lost n kind id ⟨db', sent ++ more⟩)
    (hnotifications : db'.notifications = db.notifications)
    (hpassed : Passed n kind id db.channels) : Lost n kind id ⟨db, sent⟩ :=
  ⟨hnotifications ▸ h.mem, hpassed, fun b hb => h.unsent b (List.mem_append_left _ hb)⟩

theorem Passed.of_delete (h : Passed n kind id (deleteChannelById channels k)) :
    Passed n kind id channels ∧ k ≠ id := by
  obtain ⟨row, hrow, hawaits, hpast⟩ := h
  obtain ⟨hmem, hother⟩ := Table.mem_deleteWhere.mp hrow
  refine ⟨⟨row, hmem, hawaits, hpast⟩, ?_⟩
  rintro rfl
  exact absurd (beq_iff_eq.mpr hawaits.key) (Bool.eq_false_iff.mp hother)

theorem Passed.of_markSent {clock : ℤ} (h : Passed n kind id (markChannelSent channels k clock)) :
    Passed n kind id channels := by
  obtain ⟨row, hrow, hawaits, hpast⟩ := h
  rcases Table.mem_updateWhere.mp hrow with ⟨hmem, -⟩ | ⟨old, hold, -, rfl⟩
  · exact ⟨row, hmem, hawaits, hpast⟩
  · exact ⟨old, hold, ⟨hawaits.key, hawaits.kind, hawaits.user, hawaits.since⟩, hpast⟩

/-- **A claim handed back in time** takes the cursor along: what the cursor has passed then, it had
passed before, and was not in the span of the claim. -/
theorem Passed.of_handBack (h : Passed n kind id (handBackFor db pass row))
    (htime : HandsBackInTime n id ⟨db, sent⟩ (.handBack pass row rows)) :
    Passed n kind id db.channels ∧ ¬(row.id = id ∧ n.createdAt ∈ (claimOf pass row).span) := by
  obtain ⟨c, hc, hawaits, hcase⟩ := Passed.of_move row.deliveredUntil (by intros; rfl) h
    (fun _ h => ⟨h.key, h.kind, h.user, h.since⟩) fun _ => rfl
  have hsince := hawaits.since
  rcases hcase with ⟨hpast, hother⟩ | ⟨hid, hcursor, hpast⟩
  · refine ⟨⟨c, hc, hawaits, hpast⟩, ?_⟩
    rintro ⟨hid, hspan⟩
    rcases htime hid hspan.1 hspan.2 c hc hawaits.key with hcursor | hlater
    · exact hother ⟨hawaits.key.trans hid.symm, hcursor⟩
    · exact absurd hspan.2 (not_le.mpr (hlater.trans_lt hsince))
  · refine ⟨⟨c, hc, hawaits, ?_⟩, fun hspan => absurd hspan.2.1 (not_lt.mpr hpast)⟩
    rw [hcursor]
    exact hpast.trans (le_max_left _ _)

/-- **A delivery** ends a claim on the notification by sending it, or keeps it open. -/
theorem not_owes_deliver {pending : Pending}
    (hl : (DispatchProc.deliver pass pending rows).Informed n kind db)
    (hsane : (DispatchProc.deliver pass pending rows).Sane db.clock)
    (h : Lost n kind id ⟨db, sent ++ sentBy o (.deliver pass pending rows)⟩)
    (hnot : ¬(dispatchDeliver o (pass.spend o.queries) pending.row rows).Owes n id) :
    ¬(DispatchProc.deliver pass pending rows).Owes n id := by
  rintro ⟨_, ⟨⟩, hid, hspan⟩
  by_cases hfails : o.fails = true
  · rw [dispatchDeliver, if_pos hfails] at hnot
    exact hnot ⟨_, rfl, hid, hspan⟩
  · rw [dispatchDeliver, if_neg hfails] at hnot
    rcases hout : o.delivery with _ | _ | _
    · -- what is due is in the bundle, which has been sent
      have hdue := Due.of_mem_span h.mem h.passed hl.1 hsane.2.forward hid hspan
      have hsent : sentBy o (.deliver pass pending rows) =
          [⟨claimOf pass pending.row, pending.bundle⟩] := by
        rw [sentBy, if_pos]
        simp [hfails, hout]
      refine h.unsent ⟨claimOf pass pending.row, pending.bundle⟩ ?_ hid (hl.2 hdue)
      rw [hsent]
      exact List.mem_append_right _ (List.mem_singleton_self _)
    · rw [hout] at hnot
      exact hnot ⟨_, rfl, hid, hspan⟩
    · rw [hout] at hnot
      exact hnot ⟨_, rfl, hid, hspan⟩

/-- **One step.** A notification that is lost after a step, without the pass that has moved
answering for it, was lost before, and the pass did not answer for it then. -/
theorem Lost.step (hmover : HandsBackInTime n id ⟨db, sent⟩ l) (hl : l.Informed n kind db)
    (hsane : l.Sane db.clock) (hends : l.ends = true → o.fails = false)
    (hstep : dispatchStep o db l = some (db', l')) (h : Lost n kind id ⟨db', sent ++ sentBy o l⟩)
    (hnot : ¬l'.Owes n id) :
    Lost n kind id ⟨db, sent⟩ ∧ ¬l.Owes n id := by
  cases l with
  | start kind budget | list pass latestGovAt | visit pass rows =>
    rw [dispatchStep] at hstep
    cases hstep
    exact ⟨h.back rfl h.passed, not_owes rfl⟩
  | prefs pass row rows | counts pass row prefs rows | lead pass pending rows =>
    rw [dispatchStep] at hstep
    split_ifs at hstep <;> rw [Option.some.injEq, Prod.mk.injEq] at hstep <;>
      obtain ⟨rfl, -⟩ := hstep <;> exact ⟨h.back rfl h.passed, not_owes rfl⟩
  | mute pass row rows =>
    rw [dispatchStep] at hstep
    split_ifs at hstep <;> cases hstep
    · exact ⟨h.back rfl h.passed, not_owes rfl⟩
    · -- muted work is stepped over, and nothing of it is due
      have hpassed := Passed.of_claim h.passed hl.1 h.mem
      exact ⟨h.back rfl (hpassed.resolve_right fun hdue => hl.2 hdue.2), not_owes rfl⟩
  | claim pass pending rows =>
    rw [dispatchStep] at hstep
    split_ifs at hstep <;> cases hstep
    · exact ⟨h.back rfl h.passed, not_owes rfl⟩
    · -- who has claimed what is due answers for it
      have hpassed := Passed.of_claim h.passed hl.1 h.mem
      refine ⟨h.back rfl (hpassed.resolve_right ?_), not_owes rfl⟩
      rintro ⟨hid, hdue⟩
      exact hnot ⟨_, rfl, hid, hdue.mem_span⟩
    · exact ⟨h.back rfl h.passed, not_owes rfl⟩
  | deliver pass pending rows =>
    rw [dispatchStep] at hstep
    cases hstep
    exact ⟨h.back rfl h.passed, not_owes_deliver hl hsane h hnot⟩
  | markSent pass row rows =>
    rw [dispatchStep] at hstep
    split_ifs at hstep <;> cases hstep
    · exact ⟨h.back rfl h.passed, not_owes rfl⟩
    · exact ⟨h.back rfl (Passed.of_markSent h.passed), not_owes rfl⟩
  | prune pass row rows =>
    rw [dispatchStep, hends rfl, if_neg Bool.false_ne_true] at hstep
    cases hstep
    obtain ⟨hpassed, hother⟩ := Passed.of_delete h.passed
    refine ⟨h.back rfl hpassed, ?_⟩
    rintro ⟨_, ⟨⟩, hid, -⟩
    exact hother hid
  | handBack pass row rows =>
    rw [dispatchStep, hends rfl, if_neg Bool.false_ne_true] at hstep
    cases hstep
    obtain ⟨hpassed, hother⟩ := Passed.of_handBack h.passed hmover
    refine ⟨h.back rfl hpassed, ?_⟩
    rintro ⟨_, ⟨⟩, hspan⟩
    exact hother hspan
  | returned result | threw => cases hstep

/-! ### Every interleaving -/

/-- What passes know, in every interleaving. -/
def informedSound (n : NotificationRow) (kind : ChannelKind) (id : String) :
    steadyDispatch.SoundWhen (handedBackInTime n kind id) DispatchWorld.Fresh where
  inv w := BehindClock w.db
  asserts w l := l.Sane w.db.clock ∧ l.Informed n kind w.db
  apart _ _ := True
  symm _ _ _ := trivial
  init _ hinit c hc := .inr (le_of_eq (hinit.cursors c hc))
  start w l _ _ hstart := by
    obtain ⟨passKind, budget, rfl⟩ := hstart
    exact ⟨⟨trivial, trivial⟩, fun _ _ => trivial⟩
  step w l w' l' hstate _ hinv hl hstep := by
    obtain ⟨o, db, -, hstep, rfl⟩ := hstep
    obtain ⟨-, hclock, hsane⟩ := dispatchStep_effect hl.1 hstep
    exact ⟨hinv.of_follows (dispatchStep_follows hl.1 hstep), hclock.symm ▸ hsane,
      hl.2.step hstate hl.1 hstep⟩
  noninterference w l w' l' m _ _ _ _ hl hm _ hstep := by
    obtain ⟨o, db, -, hstep, rfl⟩ := hstep
    have hfollows := dispatchStep_follows hl.1 hstep
    exact ⟨⟨hm.1.mono hfollows.clock, hm.2.of_follows hm.1 hfollows⟩, trivial⟩
  env w w' _ hinv henv := by
    refine ⟨hinv.of_follows henv.follows, fun m hm => ?_⟩
    exact ⟨hm.1.mono henv.follows.clock, hm.2.of_follows hm.1 henv.follows⟩

theorem Lost.env (hbehind : BehindClock w.db) (henv : DispatchEnv w w') (h : Lost n kind id w') :
    Lost n kind id w := by
  obtain ⟨hmem, ⟨c, hc, hawaits, hpast⟩, hunsent⟩ := h
  have hsince := hawaits.since
  rcases henv with ⟨clock, hle⟩ | ⟨notifications, hnew⟩ | _ | _ | ⟨k, args⟩ | p
  · exact ⟨hmem, ⟨c, hc, hawaits, hpast⟩, hunsent⟩
  · -- what comes now is ahead of every cursor
    refine ⟨(hnew n hmem).resolve_right fun hnow => ?_, ⟨c, hc, hawaits, hpast⟩, hunsent⟩
    have hcursor := hbehind c hc
    omega
  · exact ⟨hmem, ⟨c, hc, hawaits, hpast⟩, hunsent⟩
  · exact ⟨hmem, ⟨c, hc, hawaits, hpast⟩, hunsent⟩
  · refine ⟨hmem, ?_, hunsent⟩
    change c ∈ (upsertChannel w.db.channels w.db.clock k args).rows at hc
    rw [upsertChannel] at hc
    split_ifs at hc
    · rcases Table.mem_updateWhere.mp hc with ⟨hc, -⟩ | ⟨old, hold, -, rfl⟩
      · exact ⟨c, hc, hawaits, hpast⟩
      · exact ⟨old, hold, ⟨hawaits.key, hawaits.kind, hawaits.user, hawaits.since⟩, hpast⟩
    · rcases KeyedTable.mem_insertOrIgnore.mp hc with hc | ⟨rfl, -⟩
      · exact ⟨c, hc, hawaits, hpast⟩
      · exact absurd hsince (not_lt.mpr hpast)
  · exact ⟨hmem, ⟨c, (Table.mem_deleteWhere.mp hc).1, hawaits, hpast⟩, hunsent⟩

theorem not_lost_of_fresh (h : w.Fresh) : ¬Lost n kind id w := by
  rintro ⟨-, ⟨c, hc, hawaits, hpast⟩, -⟩
  have hsince := hawaits.since
  have hcursor := h.cursors c hc
  omega

section Runs

variable {ι : Type*} [DecidableEq ι] {s : Interleaved DispatchWorld DispatchProc ι}

/-- No pass has a claim that is not settled. -/
def ClaimsSettled (s : Interleaved DispatchWorld DispatchProc ι) : Prop :=
  ∀ i, (s.procs i).bind DispatchProc.unsettled = none

/-- **Nothing is lost.** Where hand-backs come in time, a notification that a cursor has passed has
been sent, or some pass has still to settle a claim on it. -/
theorem dispatch_loses_none
    (h : ((steadyDispatch.system ι DispatchWorld.Fresh).restrict
      (handedBackInTime n kind id).Met).Reachable s) (hsettled : ClaimsSettled s) :
    ¬Lost n kind id s.shared := by
  intro hlost
  obtain ⟨i, l, hproc, c, hc, -⟩ :=
    (informedSound n kind id).owed (Lost n kind id) (DispatchProc.Owes n id)
      (fun w hfresh => not_lost_of_fresh hfresh)
      (by
        rintro w l _ l' - hmover - ⟨hsane, hl⟩ ⟨o, db, hends, hstep, rfl⟩ hlost hnot
        exact hlost.step hmover hl hsane hends hstep hnot)
      (fun w w' _ hbehind henv hlost => hlost.env hbehind henv) h hlost
  have hnone := hsettled i
  rw [hproc, Option.bind_some, hc] at hnone
  cases hnone

end Runs

/-! ### A send that fails -/

instance (n : NotificationRow) (id : String) (w : DispatchWorld) :
    ∀ l, Decidable (HandsBackInTime n id w l)
  | .handBack pass row _ => inferInstanceAs (Decidable (row.id = id →
      row.deliveredUntil < n.createdAt → n.createdAt ≤ pass.nextCursor row →
        ∀ c ∈ w.db.channels.rows, c.id = id →
          c.deliveredUntil = pass.nextCursor row ∨ pass.nextCursor row ≤ c.createdAt))
  | .start _ _ | .list _ _ | .visit _ _ | .prefs _ _ _ | .counts _ _ _ _ | .mute _ _ _
  | .lead _ _ _ | .claim _ _ _ | .deliver _ _ _ | .markSent _ _ _ | .prune _ _ _ | .returned _
  | .threw => isTrue trivial

/-- A step, if it is no hand-back or removal that fails. -/
def steadyStep (o : StepOutcome) (w : DispatchWorld) (l : DispatchProc) :
    Option (DispatchWorld × DispatchProc) :=
  if l.ends && o.fails then none else dispatchWorldStep o w l

theorem step_of_steadyStep (o : StepOutcome) (w : DispatchWorld) (l : DispatchProc)
    (w' : DispatchWorld) (l' : DispatchProc) (h : steadyStep o w l = some (w', l')) :
    steadyDispatch.Step w l w' l' := by
  rw [steadyStep] at h
  split_ifs at h with hfails
  obtain ⟨⟨db, m⟩, hstep, hout⟩ := Option.map_eq_some_iff.mp h
  cases hout
  exact ⟨o, db, fun hends => by simpa [hends] using hfails, hstep, rfl⟩

/-- ... and the notification may be handed back in time. -/
def inTimeStep (n : NotificationRow) (kind : ChannelKind) (id : String) (o : StepOutcome)
    (w : DispatchWorld) (l : DispatchProc) : Option (DispatchWorld × DispatchProc) :=
  if isEnabled (getPrefs w.db n.recipientId kind) n = true ∧ HandsBackInTime n id w l then
    steadyStep o w l
  else none

theorem step_of_inTimeStep (o : StepOutcome) (w : DispatchWorld) (l : DispatchProc)
    (w' : DispatchWorld) (l' : DispatchProc) (h : inTimeStep n kind id o w l = some (w', l')) :
    steadyDispatch.Step w l w' l' ∧ (handedBackInTime n kind id).state w ∧
      (handedBackInTime n kind id).mover w l := by
  rw [inTimeStep] at h
  split_ifs at h with hmet
  exact ⟨step_of_steadyStep o w l w' l' h, hmet⟩

/-- A channel that has yet to get a reply. -/
def replyWorld : DispatchWorld :=
  ⟨⟨⟨[replyChannel], by simp⟩, .empty, ⟨[replyNotice], by simp, by decide⟩, [], [], 60⟩, []⟩

theorem fresh_replyWorld : replyWorld.Fresh :=
  ⟨rfl, by decide⟩

/-- A send fails, the claim is handed back, and a later pass sends the reply. -/
theorem dispatch_loses_none_retried :
    ∃ s : Interleaved DispatchWorld DispatchProc (Fin 2),
      ((steadyDispatch.system (Fin 2) DispatchWorld.Fresh).restrict
          (handedBackInTime replyNotice .webpush "c1").Met).Reachable s ∧ ClaimsSettled s ∧
        s.shared.db.channels.rows.map (fun row => row.deliveredUntil) = [59] ∧
        s.shared.sent.length = 1 ∧ ¬Lost replyNotice .webpush "c1" s.shared := by
  have h₀ : ((steadyDispatch.system (Fin 2) DispatchWorld.Fresh).restrict
      (handedBackInTime replyNotice .webpush "c1").Met).Reachable ⟨replyWorld, fun _ => none⟩ :=
    .init ⟨fresh_replyWorld, fun _ => rfl⟩
  have hstate : isEnabled (getPrefs replyWorld.db "stake1" .webpush) replyNotice = true := by
    decide +kernel
  have h₁ := Program.reachable_start h₀ (i := 0) hstate rfl ⟨.webpush, none, rfl⟩
  have h₂ := Program.reachable_start h₁ (i := 1) hstate rfl ⟨.webpush, none, rfl⟩
  have h₃ := Program.reachable_runWhen (fun _ _ _ _ _ _ => trivial) step_of_inTimeStep h₂
    ((List.replicate 10 0).map (fun i => (i, ⟨false, .failed, 1⟩)) ++
      (List.replicate 10 1).map fun i => (i, ⟨false, .sent, 1⟩)) (by decide +kernel)
  refine ⟨_, h₃, ?_, by decide +kernel, by decide +kernel, dispatch_loses_none h₃ ?_⟩ <;>
    (rw [ClaimsSettled]; decide +kernel)

def laterNotice : NotificationRow := ⟨"n2", "stake1", "reply", none, none, 60⟩

/-- A later pass claims the next reply and sends it; then the first send fails, the hand-back finds
that the cursor has moved on, and the first reply is lost. -/
theorem not_dispatch_loses_none :
    ∃ s : Interleaved DispatchWorld DispatchProc (Fin 2),
      (steadyDispatch.system (Fin 2) DispatchWorld.Fresh).Reachable s ∧ ClaimsSettled s ∧
        isEnabled (getPrefs s.shared.db replyNotice.recipientId .webpush) replyNotice = true ∧
        s.shared.sent.map (fun b => b.bundle) = [[laterNotice]] ∧
        Lost replyNotice .webpush "c1" s.shared := by
  have h₀ : (steadyDispatch.system (Fin 2) DispatchWorld.Fresh).Reachable
      ⟨replyWorld, fun _ => none⟩ := .init ⟨fresh_replyWorld, fun _ => rfl⟩
  have h₁ := h₀.step (.start (i := 0) rfl ⟨.webpush, none, rfl⟩)
  have h₂ := Program.reachable_run step_of_steadyStep h₁
    ((List.replicate 7 0).map fun i => (i, ⟨false, .sent, 1⟩)) (by decide +kernel)
  have h₃ := h₂.step (.env (DispatchEnv.notify
    ⟨[replyNotice, laterNotice], by decide, by decide⟩ (by decide +kernel)))
  have h₄ := h₃.step (.env (DispatchEnv.tick 70 (by decide +kernel)))
  have h₅ := h₄.step (.start (i := 1) (by decide +kernel) ⟨.webpush, none, rfl⟩)
  have h₆ := Program.reachable_run step_of_steadyStep h₅
    ((List.replicate 10 1).map (fun i => (i, ⟨false, .sent, 1⟩)) ++
      (List.replicate 3 0).map fun i => (i, ⟨false, .failed, 1⟩)) (by decide +kernel)
  refine ⟨_, h₆, by rw [ClaimsSettled]; decide +kernel, by decide +kernel, by decide +kernel,
    by decide +kernel, ?_, by decide +kernel⟩
  exact ⟨⟨"c1", "stake1", .webpush, "key", "https://push", none, 10, 69, some 70, 70⟩,
    by decide +kernel, ⟨rfl, rfl, rfl, by decide⟩, by decide⟩

end DrepTalk
