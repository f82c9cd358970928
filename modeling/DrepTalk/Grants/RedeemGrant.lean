import DrepTalk.Grants.GrantRuns

/-!
# A redemption that fails

`redeemGrant` of `src/lib/db/proposerGrants.ts` as a whole call with nothing else running, and what
it leaves behind when it does not succeed.

The claim and the filling of the name are two statements of one batch. The second one asks whether
the grant is active for the user, which is what the first one has just made it if it won, but also
what an earlier call may have made it. So a redemption that comes too late still fills an empty name
(`RefillsName`); apart from that it changes nothing, but for the pending invite that an abort
makes useless (`redeemGrant_spares_iff`).
-/

namespace DrepTalk

def redeemGrant (db : GrantDb) (args : RedeemArgs) (now : ℤ) : GrantDb × RedeemAnswer :=
  if isSelfInvite db args then (db, .self)
  else
    match redeemBatch db args now with
    | some (db, some row) => (db, .ok row.proposerUserId row.proposerStakeAddr)
    | some (db, none) => (db, .unavailable)
    | none => (dropPending db args.grantId, .mandateTaken)

/-- What a failed redemption may leave behind: the tables as they were, or without the named grant
if it was pending and the stake key holds a mandate already. -/
def SparesTables (db db' : GrantDb) (args : RedeemArgs) (answer : RedeemAnswer) : Prop :=
  db'.users = db.users ∧ (db'.grants.rows = db.grants.rows ∨ answer = .mandateTaken ∧
    db'.grants.rows = db.grants.rows.filter fun r =>
      !(r.id == args.grantId && r.status == .pending))

/-- The grant is active already, for the user who redeems it, and the user has no name. -/
def RefillsName (db : GrantDb) (args : RedeemArgs) : Prop :=
  isSelfInvite db args = false ∧
    (∃ r ∈ db.grants.rows, r.id = args.grantId ∧ r.status = .active ∧
      r.coUserId = some args.coUserId) ∧
    ∃ u ∈ db.users, u.id = args.coUserId ∧ (u.displayName = none ∨ u.displayName = some "") ∧
      u.displayName ≠ some args.displayName

theorem commit_rows (t : GrantTable) : GrantTable.commit t.rows = some t := by
  rw [GrantTable.commit, dif_pos ⟨t.id_unique, t.hash_unique, t.active_unique⟩]

variable {args : RedeemArgs}

theorem fillsName_iff {grants : GrantTable} {u : GrantUser} :
    fillsName grants args u = true ↔
      u.id = args.coUserId ∧ (u.displayName = none ∨ u.displayName = some "") ∧
        ∃ r ∈ grants.rows, r.id = args.grantId ∧ r.status = .active ∧
          r.coUserId = some args.coUserId := by
  simp [fillsName, and_assoc]

theorem redeemBatch_of_no_claim {db : GrantDb} {now : ℤ}
    (hnone : ∀ r ∈ db.grants.rows, claims args now r = false) :
    redeemBatch db args now = some (⟨db.grants, Table.updateWhere (fillsName db.grants args)
      (fun u => { u with displayName := some args.displayName }) db.users⟩, none) := by
  have hrows : Table.updateWhere (claims args now) (activate args now) db.grants.rows =
      db.grants.rows :=
    Table.updateWhere_eq_self fun r hr hclaims => absurd hclaims (by simp [hnone r hr])
  have hfilter : db.grants.rows.filter (claims args now) = [] :=
    List.filter_eq_nil_iff.mpr fun r hr => by simp [hnone r hr]
  rw [redeemBatch, hrows, commit_rows, hfilter]
  rfl

theorem redeemBatch_of_claim {db : GrantDb} {now : ℤ} {r : GrantRow} (hr : r ∈ db.grants.rows)
    (hclaims : claims args now r = true) :
    redeemBatch db args now = none ∨ ∃ db' row, redeemBatch db args now = some (db', some row) := by
  obtain ⟨row, hrow⟩ : ∃ row,
      ((db.grants.rows.filter (claims args now)).map (activate args now)).head? = some row := by
    refine Option.isSome_iff_exists.mp ?_
    simpa using ⟨r, hr, hclaims⟩
  rw [redeemBatch]
  rcases GrantTable.commit (Table.updateWhere (claims args now) (activate args now)
    db.grants.rows) with _ | grants
  · exact .inl rfl
  · exact .inr ⟨_, row, by rw [← hrow]⟩

/-- **A redemption that fails** changes nothing but a pending invite of no more use, iff it does not
come from the user for whom the grant is active already and who has no name. -/
theorem redeemGrant_spares_iff (db : GrantDb) (args : RedeemArgs) (now : ℤ) :
    ((∀ proposerUserId proposerStakeAddr,
        (redeemGrant db args now).2 ≠ .ok proposerUserId proposerStakeAddr) →
      SparesTables db (redeemGrant db args now).1 args (redeemGrant db args now).2) ↔
      ¬RefillsName db args := by
  rw [redeemGrant]
  by_cases hself : isSelfInvite db args = true
  · rw [if_pos hself]
    refine iff_of_true (fun _ => ⟨rfl, .inl rfl⟩) fun h => ?_
    exact Bool.noConfusion (hself.symm.trans h.1)
  rw [if_neg hself]
  by_cases hclaim : ∃ r ∈ db.grants.rows, claims args now r = true
  · obtain ⟨r, hr, hclaims⟩ := hclaim
    obtain ⟨hid, hpending, -⟩ := of_claims hclaims
    -- the grant is pending, so it is active for nobody
    have hnot : ¬RefillsName db args := by
      rintro ⟨-, ⟨r', hr', hid', hactive, -⟩, -⟩
      obtain rfl := Table.eq_of_key db.grants.id_unique hr hr' (hid.trans hid'.symm)
      cases hpending.symm.trans hactive
    refine iff_of_true (fun hfail => ?_) hnot
    rcases redeemBatch_of_claim hr hclaims with hbatch | ⟨db', row, hbatch⟩
    · rw [hbatch]
      exact ⟨rfl, .inr ⟨rfl, rfl⟩⟩
    · rw [hbatch] at hfail
      exact absurd rfl (hfail _ _)
  · have hnone : ∀ r ∈ db.grants.rows, claims args now r = false := fun r hr =>
      Bool.eq_false_iff.mpr fun h => hclaim ⟨r, hr, h⟩
    have hself' : isSelfInvite db args = false := Bool.eq_false_iff.mpr hself
    rw [redeemBatch_of_no_claim hnone]
    constructor
    · rintro h ⟨-, hactive, u, hu, hid, hempty, hother⟩
      obtain ⟨husers, -⟩ := h fun _ _ => RedeemAnswer.noConfusion
      -- this user is filled in, and was not called so before
      have hfill : fillsName db.grants args u = true := fillsName_iff.mpr ⟨hid, hempty, hactive⟩
      have hsame := List.map_inj_left.mp (husers.trans (List.map_id db.users).symm) u hu
      rw [if_pos hfill] at hsame
      exact hother (congrArg GrantUser.displayName hsame).symm
    · intro hnot _
      refine ⟨Table.updateWhere_eq_self fun u hu hfill => ?_, .inl rfl⟩
      obtain ⟨hid, hempty, hactive⟩ := fillsName_iff.mp hfill
      by_contra hne
      refine hnot ⟨hself', hactive, u, hu, hid, hempty, fun hname => hne ?_⟩
      rw [← hname]

/-- A grant that is active for the user `u2`, who has taken the name off again. -/
def refilledDb : GrantDb where
  grants := ⟨[⟨"g", "u1", "stake1", some "ga", none, some "u2", some "stake2", "hash", .active, 0,
    9,
    some 5, none⟩], by decide, by decide, by decide⟩
  users := [⟨"u2", none⟩]

/-- The user redeems the invite again: it is not available, and the name is filled in. -/
theorem not_redeemGrant_spares : ¬∀ (db : GrantDb) (args : RedeemArgs) (now : ℤ),
    (∀ proposerUserId proposerStakeAddr,
      (redeemGrant db args now).2 ≠ .ok proposerUserId proposerStakeAddr) →
    SparesTables db (redeemGrant db args now).1 args (redeemGrant db args now).2 := by
  intro h
  have hspares := h refilledDb ⟨"g", "u2", "stake2", "Name"⟩ 7
  have hbatch : redeemBatch refilledDb ⟨"g", "u2", "stake2", "Name"⟩ 7 =
      some (⟨refilledDb.grants, [⟨"u2", some "Name"⟩]⟩, none) :=
    redeemBatch_of_no_claim (by decide)
  have hself : isSelfInvite refilledDb ⟨"g", "u2", "stake2", "Name"⟩ = false := by decide
  rw [redeemGrant, hself, if_neg Bool.false_ne_true, hbatch] at hspares
  exact absurd (hspares fun _ _ => RedeemAnswer.noConfusion).1 (by decide)

end DrepTalk
