import DrepTalk.Grants.ProposerGrants
import DrepTalk.Library.Interleaving

/-!
# Interleaved grant calls

Any number of `createGrantInvite`, `redeemGrant`, `revokeGrant` and `withdrawInvite` calls, each
with a clock reading of its own, interleaved between their statements and batches. Beside the
tables the run records the rows that the claims of `redeemGrant` returned, in order: the
activations.

**What one statement can do** to the grants is one of five things (`GrantEffect`): nothing,
delete rows that are pending or belong to no action, sweep and insert an invite below the limit,
activate the one row a claim matches, or revoke. The limit survives any clock because the insert
counts right after the sweep of its own batch: what the sweep leaves pending it counts
(`countP_occupies`). An activated row is never pending again and is never deleted, so it cannot
be claimed twice.
-/

namespace DrepTalk

/-- A call, by the statement it is about to run, or its answer. -/
inductive GrantProc
  | createGrantInvite (args : InviteArgs) (now : ℤ) (grantId inviteCode : String)
  | redeemGrant (args : RedeemArgs) (now : ℤ)
  | redeemBatch (args : RedeemArgs) (now : ℤ)
  | redeemDrop (args : RedeemArgs)
  | revokeGrant (grantId proposerUserId : String) (now : ℤ)
  | revokeCheck (grantId proposerUserId : String)
  | withdrawInvite (grantId proposerUserId : String)
  | created (answer : Option Invite)
  | redeemed (answer : RedeemAnswer)
  | revoked (answer : Bool)
  | withdrawn (answer : Bool)
  | threw

/-- A call before its first statement. -/
inductive GrantProc.Starts : GrantProc → Prop
  | createGrantInvite (args : InviteArgs) (now : ℤ) (grantId inviteCode : String) :
    Starts (.createGrantInvite args now grantId inviteCode)
  | redeemGrant (args : RedeemArgs) (now : ℤ) : Starts (.redeemGrant args now)
  | revokeGrant (grantId proposerUserId : String) (now : ℤ) :
    Starts (.revokeGrant grantId proposerUserId now)
  | withdrawInvite (grantId proposerUserId : String) :
    Starts (.withdrawInvite grantId proposerUserId)

/-- The tables, and the rows the claims returned so far. -/
structure GrantWorld where
  db : GrantDb
  activations : List GrantRow

/-- The rows of `proposer_grants`. -/
def GrantWorld.rows (w : GrantWorld) : List GrantRow := w.db.grants.rows

def grantStep (sha256Hex : String → String) (w : GrantWorld) :
    GrantProc → Option (GrantWorld × GrantProc)
  | .createGrantInvite args now grantId inviteCode =>
    match createGrantInvite sha256Hex w.db args now grantId inviteCode with
    | some (db, answer) => some (⟨db, w.activations⟩, .created answer)
    | none => some (w, .threw)
  | .redeemGrant args now =>
    some (w, if isSelfInvite w.db args then .redeemed .self else .redeemBatch args now)
  | .redeemBatch args now =>
    match redeemBatch w.db args now with
    | some (db, some row) => some (⟨db, w.activations ++ [row]⟩,
        .redeemed (.ok row.proposerUserId row.proposerStakeAddr))
    | some (db, none) => some (⟨db, w.activations⟩, .redeemed .unavailable)
    | none => some (w, .redeemDrop args)
  | .redeemDrop args =>
    some (⟨dropPending w.db args.grantId, w.activations⟩, .redeemed .mandateTaken)
  | .revokeGrant grantId proposerUserId now =>
    match revokeFlip w.db grantId proposerUserId now with
    | some db => some (⟨db, w.activations⟩, .revokeCheck grantId proposerUserId)
    | none => some (w, .threw)
  | .revokeCheck grantId proposerUserId =>
    some (w, .revoked (isRevoked w.db grantId proposerUserId))
  | .withdrawInvite grantId proposerUserId =>
    let (db, answer) := withdrawInvite w.db grantId proposerUserId
    some (⟨db, w.activations⟩, .withdrawn answer)
  | .created _ | .redeemed _ | .revoked _ | .withdrawn _ | .threw => none

/-- Grant calls; meanwhile other code may change the users. -/
def grantProgram (sha256Hex : String → String) : Program GrantWorld GrantProc where
  Start _ l := l.Starts
  Step w l w' l' := grantStep sha256Hex w l = some (w', l')
  Env w w' := w'.db.grants = w.db.grants ∧ w'.activations = w.activations

/-- The table the migration leaves: rows of the code from before it have no action. -/
def GrantWorld.Initial (w : GrantWorld) : Prop :=
  w.activations = [] ∧ ∀ r ∈ w.rows, r.govActionId = none

/-! ### What one statement can do -/

/-- The effect of one statement on the grants and the activations. -/
inductive GrantEffect (w w' : GrantWorld) : Prop
  | rest (hrows : w'.rows = w.rows) (hlog : w'.activations = w.activations)
  | delete (p : GrantRow → Bool) (hrows : w'.rows = Table.deleteWhere p w.rows)
      (hp : ∀ r, p r = true → r.govActionId = none ∨ r.status = .pending)
      (hlog : w'.activations = w.activations)
  | invite (args : InviteArgs) (now : ℤ) (grantId codeHash : String)
      (hlimit : (Table.deleteWhere (sweeps now) w.rows).countP (occupies args.govActionId now) <
        MAX_GRANTS_PER_ACTION)
      (hrows : w'.rows =
        Table.deleteWhere (sweeps now) w.rows ++ [inviteRow args now grantId codeHash])
      (hlog : w'.activations = w.activations)
  | claim (args : RedeemArgs) (now : ℤ) (row : GrantRow) (hmem : row ∈ w.rows)
      (hclaims : claims args now row = true)
      (hrows : w'.rows = Table.updateWhere (claims args now) (activate args now) w.rows)
      (hlog : w'.activations = w.activations ++ [activate args now row])
  | revoke (grantId proposerUserId : String) (now : ℤ)
      (hrows : w'.rows =
        Table.updateWhere (revokes grantId proposerUserId) (revoke now) w.rows)
      (hlog : w'.activations = w.activations)

variable {now : ℤ} {args : RedeemArgs}

theorem of_sweeps {r : GrantRow} (h : sweeps now r = true) :
    r.govActionId = none ∨ r.status = .pending := by
  rw [sweeps, Bool.or_eq_true, Option.isNone_iff_eq_none, Bool.and_eq_true, beq_iff_eq] at h
  exact h.imp_right And.left

theorem of_claims {r : GrantRow} (h : claims args now r = true) :
    r.id = args.grantId ∧ r.status = .pending ∧ now < r.expiresAt ∧ r.govActionId ≠ none ∧
      args.coStakeAddr ≠ r.proposerStakeAddr := by
  simp only [claims, Bool.and_eq_true, beq_iff_eq, decide_eq_true_eq, bne_iff_ne,
    Option.isSome_iff_ne_none] at h
  obtain ⟨⟨⟨⟨hid, hstatus⟩, hexpires⟩, haction⟩, hself⟩ := h
  exact ⟨hid, hstatus, hexpires, haction, hself.symm⟩

variable {grantId proposerUserId : String} {a row : GrantRow}

theorem of_revokes {r : GrantRow} (h : revokes grantId proposerUserId r = true) :
    r.id = grantId ∧ r.status = .active := by
  simp only [revokes, Bool.and_eq_true, beq_iff_eq] at h
  exact ⟨h.1.1, h.2⟩

theorem redeemBatch_effect {w : GrantWorld} {db : GrantDb} {row : Option GrantRow}
    (h : redeemBatch w.db args now = some (db, row)) :
    GrantEffect w ⟨db, w.activations ++ row.toList⟩ := by
  rw [redeemBatch] at h
  rcases hcommit : GrantTable.commit (Table.updateWhere (claims args now) (activate args now)
    w.db.grants.rows) with _ | grants
  · rw [hcommit] at h
    cases h
  · simp only [hcommit, Option.some.injEq, Prod.mk.injEq] at h
    obtain ⟨rfl, hrow⟩ := h
    have hrows := GrantTable.rows_of_commit hcommit
    rcases row with _ | row
    · -- nothing matched, so the update has changed nothing
      rw [List.head?_eq_none_iff, List.map_eq_nil_iff, List.filter_eq_nil_iff] at hrow
      refine .rest (hrows.trans ?_) (List.append_nil _)
      exact (List.map_congr_left fun r hr => if_neg (hrow r hr)).trans (List.map_id' _)
    · obtain ⟨r, hmem, rfl⟩ := List.mem_map.mp (List.mem_of_mem_head? hrow)
      obtain ⟨hmem, hclaims⟩ := List.mem_filter.mp hmem
      exact .claim args now r hmem hclaims hrows rfl

theorem grantStep_effect {sha256Hex : String → String} {w w' : GrantWorld} {l l' : GrantProc}
    (h : grantStep sha256Hex w l = some (w', l')) : GrantEffect w w' := by
  rcases l with ⟨args, now, grantId, code⟩ | ⟨args, now⟩ | ⟨args, now⟩ | args | ⟨id, user, now⟩ |
    ⟨id, user⟩ | ⟨id, user⟩ | _ | _ | _ | _ | _
  · rw [grantStep, createGrantInvite] at h
    split_ifs at h with hlimit
    · rcases hcommit : GrantTable.commit ((w.db.grants.deleteWhere (sweeps now)).rows ++
        [inviteRow args now grantId (sha256Hex code)]) with _ | grants
      · simp only [hcommit, Option.some.injEq, Prod.mk.injEq] at h
        exact .rest (by rw [← h.1]) (by rw [← h.1])
      · simp only [hcommit] at h
        cases h
        exact .invite args now grantId _ hlimit (GrantTable.rows_of_commit hcommit) rfl
    · cases h
      exact .delete (sweeps now) rfl (fun r hr => of_sweeps hr) rfl
  · rw [grantStep, Option.some.injEq, Prod.mk.injEq] at h
    exact .rest (by rw [← h.1]) (by rw [← h.1])
  · rw [grantStep] at h
    rcases hbatch : redeemBatch w.db args now with _ | ⟨db, _ | row⟩
    · simp only [hbatch, Option.some.injEq, Prod.mk.injEq] at h
      exact .rest (by rw [← h.1]) (by rw [← h.1])
    · simp only [hbatch] at h
      cases h
      simpa using redeemBatch_effect hbatch
    · simp only [hbatch] at h
      cases h
      exact redeemBatch_effect hbatch
  · rw [grantStep] at h
    cases h
    refine .delete _ rfl (fun r hr => .inr ?_) rfl
    simp only [Bool.and_eq_true, beq_iff_eq] at hr
    exact hr.2
  · rw [grantStep, revokeFlip] at h
    rcases hcommit : GrantTable.commit (Table.updateWhere (revokes id user) (revoke now)
      w.db.grants.rows) with _ | grants
    · simp only [hcommit, Option.some.injEq, Prod.mk.injEq] at h
      exact .rest (by rw [← h.1]) (by rw [← h.1])
    · simp only [hcommit] at h
      cases h
      exact .revoke id user now (GrantTable.rows_of_commit hcommit) rfl
  · rw [grantStep, Option.some.injEq, Prod.mk.injEq] at h
    exact .rest (by rw [← h.1]) (by rw [← h.1])
  · rw [grantStep, withdrawInvite] at h
    cases h
    refine .delete (withdraws id user) rfl (fun r hr => .inr ?_) rfl
    simp only [withdraws, Bool.and_eq_true, beq_iff_eq] at hr
    exact hr.2
  all_goals cases h

/-! ### The invariant -/

/-- A row that takes one of the places of an action. -/
def holdsPlace (govActionId : String) (r : GrantRow) : Bool :=
  r.govActionId == some govActionId && (r.status == .pending || r.status == .active)

/-- An activation as it should be: for another stake key than the proposer's, and in time. -/
structure Activated (a : GrantRow) : Prop where
  active : a.status = .active
  hasAction : a.govActionId ≠ none
  other_key : ∃ coStakeAddr, a.coStakeAddr = some coStakeAddr ∧ coStakeAddr ≠ a.proposerStakeAddr
  in_time : ∃ redeemedAt, a.redeemedAt = some redeemedAt ∧ redeemedAt < a.expiresAt

/-- The row is the activated one, or that one revoked. -/
def ComesFrom (r a : GrantRow) : Prop := r = a ∨ ∃ now, r = revoke now a

/-- What holds of the grants in every run. -/
structure GrantsSafe (w : GrantWorld) : Prop where
  /-- An action has no more pending or active grants than it may have. -/
  limit : ∀ govActionId, w.rows.countP (holdsPlace govActionId) ≤ MAX_GRANTS_PER_ACTION
  /-- No grant is activated twice. -/
  once : (w.activations.map (·.id)).Nodup
  activated : ∀ a ∈ w.activations, Activated a
  /-- Activated rows stay, and only activated rows are active or revoked. -/
  kept : ∀ a ∈ w.activations, ∃ r ∈ w.rows, ComesFrom r a
  logged : ∀ r ∈ w.rows, r.govActionId ≠ none → r.status ≠ .pending →
    ∃ a ∈ w.activations, ComesFrom r a

theorem ComesFrom.id_eq {r : GrantRow} (h : ComesFrom r a) : r.id = a.id := by
  rcases h with rfl | ⟨now, rfl⟩ <;> rfl

theorem ComesFrom.govActionId_eq {r : GrantRow} (h : ComesFrom r a) :
    r.govActionId = a.govActionId := by
  rcases h with rfl | ⟨now, rfl⟩ <;> rfl

theorem ComesFrom.not_pending {r : GrantRow} (h : ComesFrom r a) (ha : Activated a) :
    r.status ≠ .pending := by
  rcases h with rfl | ⟨now, rfl⟩
  · rw [ha.active]
    decide
  · change GrantStatus.revoked ≠ .pending
    decide

theorem countP_occupies (govActionId : String) (now : ℤ) (rows : List GrantRow) :
    (Table.deleteWhere (sweeps now) rows).countP (holdsPlace govActionId) ≤
      (Table.deleteWhere (sweeps now) rows).countP (occupies govActionId now) := by
  refine List.countP_mono_left fun r hmem h => ?_
  obtain ⟨-, hkept⟩ := Table.mem_deleteWhere.mp hmem
  simp only [sweeps, Bool.or_eq_false_iff, Bool.and_eq_false_iff, beq_eq_false_iff_ne,
    decide_eq_false_iff_not] at hkept
  simp only [holdsPlace, occupies, Bool.and_eq_true, Bool.or_eq_true, beq_iff_eq,
    decide_eq_true_eq] at h ⊢
  obtain ⟨haction, hpending | hactive⟩ := h
  · -- a pending row the sweep left is not expired
    have hlate := hkept.2.resolve_left (by simp [hpending])
    exact ⟨haction, .inr ⟨hpending, by omega⟩⟩
  · exact ⟨haction, .inl hactive⟩

theorem activated_activate (h : claims args now row = true) :
    Activated (activate args now row) := by
  obtain ⟨-, -, hexpires, haction, hself⟩ := of_claims h
  exact ⟨rfl, haction, ⟨args.coStakeAddr, rfl, hself⟩, ⟨now, rfl, hexpires⟩⟩

namespace GrantsSafe

variable {w w' : GrantWorld}

theorem delete (h : GrantsSafe w) {p : GrantRow → Bool}
    (hp : ∀ r, p r = true → r.govActionId = none ∨ r.status = .pending)
    (hrows : w'.rows = Table.deleteWhere p w.rows) (hlog : w'.activations = w.activations) :
    GrantsSafe w' := by
  refine ⟨fun action => ?_, hlog ▸ h.once, hlog ▸ h.activated, fun a ha => ?_, fun r hr => ?_⟩
  · rw [hrows]
    exact Nat.le_trans (Table.deleteWhere_sublist p w.rows).countP_le (h.limit action)
  · rw [hlog] at ha
    obtain ⟨r, hr, hfrom⟩ := h.kept a ha
    refine ⟨r, hrows ▸ Table.mem_deleteWhere.mpr ⟨hr, ?_⟩, hfrom⟩
    by_contra hdel
    rcases hp r (by simpa using hdel) with haction | hpending
    · exact (h.activated a ha).hasAction (hfrom.govActionId_eq ▸ haction)
    · exact hfrom.not_pending (h.activated a ha) hpending
  · rw [hrows] at hr
    rw [hlog]
    exact h.logged r (Table.mem_deleteWhere.mp hr).1

theorem insert (h : GrantsSafe w) (hpending : row.status = .pending)
    (hplace : ∀ action, holdsPlace action row = true →
      w.rows.countP (holdsPlace action) < MAX_GRANTS_PER_ACTION) (hrows : w'.rows = w.rows ++ [row])
    (hlog : w'.activations = w.activations) : GrantsSafe w' := by
  refine ⟨fun action => ?_, hlog ▸ h.once, hlog ▸ h.activated, fun a ha => ?_,
    fun r hr haction hstatus => ?_⟩
  · rw [hrows, List.countP_append, List.countP_singleton]
    have hold := h.limit action
    split_ifs with hplaced
    · have := hplace action hplaced
      omega
    · exact hold
  · rw [hlog] at ha
    obtain ⟨r, hr, hfrom⟩ := h.kept a ha
    exact ⟨r, hrows ▸ List.mem_append_left _ hr, hfrom⟩
  · rw [hlog]
    rw [hrows] at hr
    rcases List.mem_append.mp hr with hr | hr
    · exact h.logged r hr haction hstatus
    · exact absurd (List.mem_singleton.mp hr ▸ hpending) hstatus

theorem claim (h : GrantsSafe w) (hmem : row ∈ w.rows) (hclaims : claims args now row = true)
    (hrows : w'.rows = Table.updateWhere (claims args now) (activate args now) w.rows)
    (hlog : w'.activations = w.activations ++ [activate args now row]) : GrantsSafe w' := by
  obtain ⟨hid, hpending, -, -, -⟩ := of_claims hclaims
  -- the primary key leaves one row for the claim to match
  have honly : ∀ r ∈ w.rows, r.id = row.id → r = row := fun r hr heq =>
    Table.eq_of_key w.db.grants.id_unique hr hmem heq
  refine ⟨fun action => ?_, ?_, ?_, ?_, ?_⟩
  · -- an activated row had its place as a pending one
    rw [hrows]
    refine Nat.le_trans (Table.countP_updateWhere_le fun r hr hr' hplace => ?_) (h.limit action)
    simp only [holdsPlace, activate, Bool.and_eq_true] at hplace ⊢
    exact ⟨hplace.1, by simp [(of_claims hr').2.1]⟩
  · rw [hlog, List.map_append, List.nodup_append]
    refine ⟨h.once, by simp, ?_⟩
    rintro _ hold _ hnew heq
    obtain ⟨a, ha, rfl⟩ := List.mem_map.mp hold
    rw [List.map_singleton, List.mem_singleton] at hnew
    subst hnew
    -- a grant activated before is in the table and not pending
    obtain ⟨r, hr, hfrom⟩ := h.kept a ha
    have hr' := honly r hr (hfrom.id_eq.trans heq)
    exact hfrom.not_pending (h.activated a ha) (hr' ▸ hpending)
  · rw [hlog]
    intro a ha
    rcases List.mem_append.mp ha with ha | ha
    · exact h.activated a ha
    · exact List.mem_singleton.mp ha ▸ activated_activate hclaims
  · rw [hlog, hrows]
    intro a ha
    rcases List.mem_append.mp ha with ha | ha
    · -- the claim matches pending rows only
      obtain ⟨r, hr, hfrom⟩ := h.kept a ha
      refine ⟨r, Table.mem_updateWhere.mpr (.inl ⟨hr, ?_⟩), hfrom⟩
      by_contra hmatch
      exact hfrom.not_pending (h.activated a ha) (of_claims (by simpa using hmatch)).2.1
    · refine ⟨activate args now row, Table.mem_updateWhere.mpr (.inr ⟨row, hmem, hclaims, rfl⟩), ?_⟩
      exact .inl (List.mem_singleton.mp ha).symm
  · rw [hlog, hrows]
    intro r hr haction hstatus
    rcases Table.mem_updateWhere.mp hr with ⟨hr, -⟩ | ⟨r₀, hr₀, hclaims₀, rfl⟩
    · obtain ⟨a, ha, hfrom⟩ := h.logged r hr haction hstatus
      exact ⟨a, List.mem_append_left _ ha, hfrom⟩
    · -- the only row it matched is the one recorded
      have hrow := honly r₀ hr₀ ((of_claims hclaims₀).1.trans hid.symm)
      exact ⟨_, List.mem_append_right _ (List.mem_singleton_self _), .inl (by rw [hrow])⟩

theorem revoke (h : GrantsSafe w)
    (hrows : w'.rows = Table.updateWhere (revokes grantId proposerUserId) (revoke now) w.rows)
    (hlog : w'.activations = w.activations) : GrantsSafe w' := by
  refine ⟨fun action => ?_, hlog ▸ h.once, hlog ▸ h.activated, ?_, ?_⟩
  · rw [hrows]
    refine Nat.le_trans (Table.countP_updateWhere_le fun r hr hr' hplace => ?_) (h.limit action)
    simp [holdsPlace, DrepTalk.revoke] at hplace
  · rw [hlog, hrows]
    intro a ha
    obtain ⟨r, hr, hfrom⟩ := h.kept a ha
    by_cases hmatch : revokes grantId proposerUserId r = true
    · refine ⟨_, Table.mem_updateWhere.mpr (.inr ⟨r, hr, hmatch, rfl⟩), .inr ⟨now, ?_⟩⟩
      rcases hfrom with rfl | ⟨t, rfl⟩ <;> rfl
    · exact ⟨r, Table.mem_updateWhere.mpr (.inl ⟨hr, by simpa using hmatch⟩), hfrom⟩
  · rw [hlog, hrows]
    intro r hr haction hstatus
    rcases Table.mem_updateWhere.mp hr with ⟨hr, -⟩ | ⟨r₀, hr₀, hmatch, rfl⟩
    · exact h.logged r hr haction hstatus
    · -- the row was active, hence recorded
      have hactive := (of_revokes hmatch).2
      obtain ⟨a, ha, hfrom⟩ := h.logged r₀ hr₀ haction (by rw [hactive]; decide)
      refine ⟨a, ha, .inr ⟨now, ?_⟩⟩
      rcases hfrom with rfl | ⟨t, rfl⟩ <;> rfl

theorem of_effect (h : GrantsSafe w) (he : GrantEffect w w') : GrantsSafe w' := by
  rcases he with ⟨hrows, hlog⟩ | ⟨p, hrows, hp, hlog⟩ | ⟨args, now, id, hash, hlimit, hrows, hlog⟩ |
    ⟨args, now, row, hmem, hclaims, hrows, hlog⟩ | ⟨id, user, now, hrows, hlog⟩
  · obtain ⟨limit, once, activated, kept, logged⟩ := h
    exact ⟨hrows ▸ limit, hlog ▸ once, hlog ▸ activated, by rwa [hrows, hlog],
      by rwa [hrows, hlog]⟩
  · exact h.delete hp hrows hlog
  · -- the batch sweeps before it inserts
    have hswept : GrantsSafe
        ⟨{ w.db with grants := w.db.grants.deleteWhere (sweeps now) }, w.activations⟩ :=
      h.delete (fun r hr => of_sweeps hr) rfl rfl
    refine hswept.insert rfl (fun action hplace => ?_) hrows hlog
    simp only [holdsPlace, inviteRow, Bool.and_eq_true, beq_iff_eq, Option.some.injEq] at hplace
    rw [← hplace.1]
    exact Nat.lt_of_le_of_lt (countP_occupies _ now w.rows) hlimit
  · exact h.claim hmem hclaims hrows hlog
  · exact h.revoke hrows hlog

end GrantsSafe

/-! ### What one statement keeps -/

namespace GrantEffect

variable {w w' : GrantWorld} {r : GrantRow}

theorem keeps_revoked (he : GrantEffect w w') (hr : r ∈ w.rows) (hrevoked : r.status = .revoked)
    (haction : r.govActionId ≠ none) : r ∈ w'.rows := by
  have hnot : r.status ≠ .pending ∧ r.status ≠ .active := by
    rw [hrevoked]
    decide
  have hdelete : ∀ p : GrantRow → Bool,
      (∀ r, p r = true → r.govActionId = none ∨ r.status = .pending) →
        r ∈ Table.deleteWhere p w.rows := by
    intro p hp
    refine Table.mem_deleteWhere.mpr ⟨hr, ?_⟩
    by_contra hdel
    rcases hp r (by simpa using hdel) with hnone | hpending
    · exact haction hnone
    · exact hnot.1 hpending
  rcases he with ⟨hrows, -⟩ | ⟨p, hrows, hp, -⟩ | ⟨args, now, id, hash, -, hrows, -⟩ |
    ⟨args, now, row, -, -, hrows, -⟩ | ⟨id, user, now, hrows, -⟩ <;> rw [hrows]
  · exact hr
  · exact hdelete p hp
  · exact List.mem_append_left _ (hdelete _ fun _ h => of_sweeps h)
  · refine Table.mem_updateWhere.mpr (.inl ⟨hr, ?_⟩)
    by_contra h
    exact hnot.1 (of_claims (by simpa using h)).2.1
  · refine Table.mem_updateWhere.mpr (.inl ⟨hr, ?_⟩)
    by_contra h
    exact hnot.2 (of_revokes (by simpa using h)).2

theorem of_noAction (he : GrantEffect w w') (hr : r ∈ w'.rows) (haction : r.govActionId = none) :
    ∃ r₀ ∈ w.rows, r₀.id = r.id ∧ r₀.govActionId = none ∧ (r = r₀ ∨ r.status = .revoked) := by
  rcases he with ⟨hrows, -⟩ | ⟨p, hrows, -, -⟩ | ⟨args, now, id, hash, -, hrows, -⟩ |
    ⟨args, now, row, -, -, hrows, -⟩ | ⟨id, user, now, hrows, -⟩ <;> rw [hrows] at hr
  · exact ⟨r, hr, rfl, haction, .inl rfl⟩
  · exact ⟨r, (Table.mem_deleteWhere.mp hr).1, rfl, haction, .inl rfl⟩
  · rcases List.mem_append.mp hr with hr | hr
    · exact ⟨r, (Table.mem_deleteWhere.mp hr).1, rfl, haction, .inl rfl⟩
    · rw [List.mem_singleton.mp hr] at haction
      cases haction
  · rcases Table.mem_updateWhere.mp hr with ⟨hr, -⟩ | ⟨r₀, -, hclaims, rfl⟩
    · exact ⟨r, hr, rfl, haction, .inl rfl⟩
    · exact absurd haction (of_claims hclaims).2.2.2.1
  · rcases Table.mem_updateWhere.mp hr with ⟨hr, -⟩ | ⟨r₀, hr₀, -, rfl⟩
    · exact ⟨r, hr, rfl, haction, .inl rfl⟩
    · exact ⟨r₀, hr₀, rfl, haction, .inr rfl⟩

theorem logs_activation (he : GrantEffect w w') (hr : r ∈ w'.rows) (hactive : r.status = .active)
    (hnew : r ∉ w.rows) : w'.activations = w.activations ++ [r] := by
  rcases he with ⟨hrows, -⟩ | ⟨p, hrows, -, -⟩ | ⟨args, now, id, hash, -, hrows, -⟩ |
    ⟨args, now, row, hmem, hclaims, hrows, hlog⟩ | ⟨id, user, now, hrows, -⟩ <;> rw [hrows] at hr
  · exact absurd hr hnew
  · exact absurd (Table.mem_deleteWhere.mp hr).1 hnew
  · rcases List.mem_append.mp hr with hr | hr
    · exact absurd (Table.mem_deleteWhere.mp hr).1 hnew
    · rw [List.mem_singleton.mp hr] at hactive
      cases hactive
  · rcases Table.mem_updateWhere.mp hr with ⟨hr, -⟩ | ⟨r₀, hr₀, hclaims₀, rfl⟩
    · exact absurd hr hnew
    · -- the claim matches one row, the one it returned
      have hid := (of_claims hclaims₀).1.trans (of_claims hclaims).1.symm
      rw [hlog, Table.eq_of_key w.db.grants.id_unique hr₀ hmem hid]
  · rcases Table.mem_updateWhere.mp hr with ⟨hr, -⟩ | ⟨r₀, -, -, rfl⟩
    · exact absurd hr hnew
    · cases hactive

end GrantEffect

/-! ### Every interleaving -/

section Runs

variable {ι : Type*} [DecidableEq ι] {sha256Hex : String → String}
  {s s' : Interleaved GrantWorld GrantProc ι}

theorem moves_effect {m : Move ι} (h : (grantProgram sha256Hex).Moves s m s') :
    GrantEffect s.shared s'.shared := by
  rcases h with ⟨-, -⟩ | ⟨-, hstep⟩ | ⟨hgrants, hlog⟩
  · exact .rest rfl rfl
  · exact grantStep_effect hstep
  · exact .rest (congrArg GrantTable.rows hgrants) hlog

theorem grantsSafe_of_reachable
    (h : ((grantProgram sha256Hex).system ι GrantWorld.Initial).Reachable s) :
    GrantsSafe s.shared := by
  refine h.invariant (I := fun s => GrantsSafe s.shared) ?_
    fun s m s' hsafe hmoves => hsafe.of_effect (moves_effect hmoves)
  rintro s ⟨⟨hlog, hlegacy⟩, -⟩
  refine ⟨fun action => ?_, by simp [hlog], by simp [hlog], by simp [hlog], fun r hr haction => ?_⟩
  · rw [List.countP_eq_zero.mpr fun r hr => by simp [holdsPlace, hlegacy r hr]]
    exact Nat.zero_le _
  · exact absurd (hlegacy r hr) haction

theorem GrantTable.eq_of_active (t : GrantTable) {r r' : GrantRow} (hr : r ∈ t.rows)
    (hr' : r' ∈ t.rows) (hactive : r.status = .active) (hactive' : r'.status = .active)
    {coStakeAddr govActionId : String} (hkey : r.coStakeAddr = some coStakeAddr)
    (hkey' : r'.coStakeAddr = some coStakeAddr) (haction : r.govActionId = some govActionId)
    (haction' : r'.govActionId = some govActionId) : r = r' := by
  refine Table.eq_of_partialKey t.active_unique hr hr' (b := (coStakeAddr, govActionId)) ?_ ?_
  · rw [activeKey, if_pos hactive, hkey, haction]
  · rw [activeKey, if_pos hactive', hkey', haction']

/-- **Grants are safe in every interleaving**: no more than there may be, each activated once, in
time, for another key than the proposer's; one of a key and an action; and a revoked one stays so.
-/
theorem grants_safe (h : ((grantProgram sha256Hex).system ι GrantWorld.Initial).Reachable s) :
    GrantsSafe s.shared ∧
      (∀ r ∈ s.shared.rows, ∀ r' ∈ s.shared.rows, r.status = .active → r'.status = .active →
        ∀ coStakeAddr govActionId, r.coStakeAddr = some coStakeAddr →
          r'.coStakeAddr = some coStakeAddr → r.govActionId = some govActionId →
            r'.govActionId = some govActionId → r = r') ∧
      (∀ s', ((grantProgram sha256Hex).system ι GrantWorld.Initial).Leads s s' →
        ∀ r ∈ s.shared.rows, r.status = .revoked →
          (r.govActionId ≠ none → r ∈ s'.shared.rows) ∧
            ∀ r' ∈ s'.shared.rows, r'.id = r.id → r'.govActionId = r.govActionId →
              r'.status = .revoked) ∧
      ∀ m s', ((grantProgram sha256Hex).system ι GrantWorld.Initial).Step s m s' →
        ∀ r ∈ s'.shared.rows, r.status = .active → r ∉ s.shared.rows →
          s'.shared.activations = s.shared.activations ++ [r] := by
  refine ⟨grantsSafe_of_reachable h, ?_, ?_, fun m s' hstep r hr => ?_⟩
  · intro r hr r' hr' hactive hactive' coStakeAddr govActionId hkey hkey' haction haction'
    exact s.shared.db.grants.eq_of_active hr hr' hactive hactive' hkey hkey' haction haction'
  · intro s' hleads r hr hrevoked
    have hstays : r.govActionId ≠ none → r ∈ s'.shared.rows := fun haction =>
      h.stable (P := fun s => r ∈ s.shared.rows)
        (fun _ _ _ _ hmem hstep => (moves_effect hstep).keeps_revoked hmem hrevoked haction)
        hleads hr
    refine ⟨hstays, fun r' hr' hid haction' => ?_⟩
    by_cases haction : r.govActionId = none
    · -- a row without an action can only be revoked, never brought back
      refine h.stable (P := fun s => ∀ r' ∈ s.shared.rows, r'.id = r.id →
        r'.govActionId = none → r'.status = .revoked) ?_ hleads ?_ r' hr' hid
        (haction'.trans haction)
      · intro s₁ m s₂ _ hold hstep r' hr' hid haction
        obtain ⟨r₀, hr₀, hid₀, haction₀, hr'⟩ := (moves_effect hstep).of_noAction hr' haction
        rcases hr' with rfl | hrevoked'
        · exact hold r' hr₀ hid haction
        · exact hrevoked'
      · intro r₁ hr₁ hid₁ _
        rw [Table.eq_of_key s.shared.db.grants.id_unique hr₁ hr hid₁, hrevoked]
    · rw [Table.eq_of_key s'.shared.db.grants.id_unique hr' (hstays haction) hid, hrevoked]
  · exact (moves_effect hstep).logs_activation hr

end Runs

/-- One invite, redeemed by another key. -/
theorem grants_safe_redeemed :
    ∃ s : Interleaved GrantWorld GrantProc ℕ,
      ((grantProgram fun _ =>
        "d1626873473efa4d4dc8b74180f38cd9bcdbd2afd992b68cdb789d326ef48b90").system ℕ
          GrantWorld.Initial).Reachable s ∧
        s.shared.activations.length = 1 ∧ GrantsSafe s.shared := by
  have h₀ : ((grantProgram fun _ =>
      "d1626873473efa4d4dc8b74180f38cd9bcdbd2afd992b68cdb789d326ef48b90").system ℕ
        GrantWorld.Initial).Reachable
      ⟨⟨⟨⟨[], by simp, by simp, by simp⟩, [⟨"u2", none⟩]⟩, []⟩, fun _ => none⟩ :=
    .init ⟨⟨rfl, nofun⟩, fun _ => rfl⟩
  have h₁ := h₀.step (.start (i := 0) rfl (.createGrantInvite ⟨"u1", "stake1", "gov1", none⟩ 1000
    "g1" "BxQhLjtIVWJvfImWo7C9ytfk8f4LGCUyP0xZZnOAjZo"))
  have h₂ := Program.reachable_run (fun (_ : Unit) _ _ _ _ h => h) h₁ [(0, ())] (by decide +kernel)
  have h₃ := h₂.step (.start (i := 1) rfl (.redeemGrant ⟨"g1", "u2", "stake2", "Ada"⟩ 2000))
  have h₄ := Program.reachable_run (fun (_ : Unit) _ _ _ _ h => h) h₃ [(1, ()), (1, ())]
    (by decide +kernel)
  exact ⟨_, h₄, by decide +kernel, (grants_safe h₄).1⟩

end DrepTalk
