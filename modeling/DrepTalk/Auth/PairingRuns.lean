import DrepTalk.Auth.Pairing
import DrepTalk.Auth.SessionIndex
import DrepTalk.Library.Interleaving

/-!
# Device pairing under interleaved calls

Any number of `createPairing`, `approvePairing` and `pollPairing` calls, interleaved between their
statements, while people sign in and out, accounts and grants change, and sessions are renewed.

**A pairing is good for one session** (`PairingsRight`): an approval of its code, in time, and a
poll with its secret come first, and the session has the account, at most the roles, and no more
than the lifetime of the approving session. Along a chain of pairings this adds up
(`Chain.bounded`).

A poll holds a pairing from the claim on (`PairingProc.holds`): no two calls hold the same one, and
one that is held has no row left that could be claimed.
-/

namespace DrepTalk

open ExpiringStore

/-! ### What the runs owe -/

/-- The same session, whenever it was last seen. -/
structure SameSession (r r' : SessionRecord) : Prop where
  userId : r.userId = r'.userId
  roles : r.roles = r'.roles
  lifetimeStart : sessionLifetimeStart r = sessionLifetimeStart r'

def IsBoundedRole (r : String) : Prop := r ∈ WRITER_ROLES ∨ r ∈ MODERATOR_ROLES

/-- What a session has from the one that approved it, back to a sign-in. -/
def SessionBirth.Right : SessionBirth → Prop
  | .login _ => True
  | .paired record account modRole approver =>
    record.userId = account.id ∧ approver.record.userId = account.id ∧
      (∀ r ∈ record.roles, IsBoundedRole r →
        r ∈ approver.record.roles ∧ r ∈ rolesFromUser account modRole) ∧
      sessionLifetimeStart record ≤ sessionLifetimeStart approver.record ∧ approver.Right

/-- A chain of pairings, from its first session to its last. -/
inductive Chain : SessionBirth → SessionBirth → Prop
  | refl (b : SessionBirth) : Chain b b
  | pair {first approver : SessionBirth} (h : Chain first approver) (record : SessionRecord)
      (account : AccountRow) (modRole : Option String) :
      Chain first (.paired record account modRole approver)

theorem Chain.bounded {first last : SessionBirth} (h : Chain first last) (hlast : last.Right) :
    (∀ r ∈ last.record.roles, IsBoundedRole r → r ∈ first.record.roles) ∧
      lifetimeEndsAt last.record ≤ lifetimeEndsAt first.record ∧ first.Right := by
  induction h with
  | refl => exact ⟨fun r hr _ => hr, le_refl _, hlast⟩
  | pair _ record account modRole ih =>
    obtain ⟨-, -, hroles, hlife, happrover⟩ := hlast
    obtain ⟨hroles', hlife', hfirst⟩ := ih happrover
    refine ⟨fun r hr hbounded => hroles' r (hroles r hr hbounded).1 hbounded, ?_, hfirst⟩
    rw [lifetimeEndsAt, lifetimeEndsAt] at hlife' ⊢
    exact (Int.add_le_add_right hlife _).trans hlife'

/-- What a redemption rests on: a pairing, and an approval of its code, in time. -/
structure Redeemed (env : PairingEnv) (m : PairingRedemption) (p : PairingStart)
    (a : PairingApproval) : Prop where
  pairing : m.pairingId = p.pairingId
  approval : a.pairingId = p.pairingId
  code : env.sha256Hex (String.ofList a.code) = env.sha256Hex (String.ofList p.code)
  inTime : a.now < p.expiresAt
  secret : env.sha256Hex m.deviceSecret = env.sha256Hex p.deviceSecret
  approver : m.approver = a.approver
  account : m.account.id = a.approver.record.userId
  userId : m.record.userId = m.account.id
  roles : m.record.roles = redeemedRoles (rolesFromUser m.account m.modRole)
    (some (normalizeSessionRoles a.approver.record.roles)) m.hasGrant
  lifetimeStart : m.record.lifetimeStart =
    some (min (sessionLifetimeStart a.approver.record) m.now)

variable {p : PairingStart} {a : PairingApproval}

/-- What holds of pairings in every run. -/
structure PairingsRight (env : PairingEnv) (w : PairingWorld) : Prop where
  single : (w.redemptions.map (·.pairingId)).Nodup
  approvedOnce : (w.approvals.map (·.pairingId)).Nodup
  startedOnce : (w.started.map (·.pairingId)).Nodup
  redeemed : ∀ m ∈ w.redemptions, ∃ p ∈ w.started, ∃ a ∈ w.approvals, Redeemed env m p a ∧
    (Function.Injective env.sha256Hex → a.code = p.code ∧ m.deviceSecret = p.deviceSecret)
  chains : ∀ m ∈ w.redemptions, ∀ first, Chain first m.birth →
    (∀ r ∈ m.record.roles, IsBoundedRole r →
      r ∈ m.approver.record.roles ∧ r ∈ rolesFromUser m.account m.modRole ∧
        r ∈ first.record.roles) ∧
      lifetimeEndsAt m.record ≤ lifetimeEndsAt first.record
  sessions : ∀ keyHash record e, w.sessions.entry (sessKey keyHash) = some ⟨.session record, e⟩ →
    ∃ b, w.births keyHash = some b ∧ SameSession record b.record

/-! ### Roles -/

variable {r : String}

theorem mem_normalizeSessionRoles {roles : List String} :
    r ∈ normalizeSessionRoles roles ↔ r ∈ ROLE_PRIORITY ∧ r ∈ roles := by
  rw [normalizeSessionRoles, List.mem_filter, List.contains_iff_mem]

theorem IsBoundedRole.ne (h : IsBoundedRole r) :
    r ≠ "member" ∧ r ≠ CO_PROPOSER_ROLE := by
  have hall : ∀ r ∈ WRITER_ROLES ++ MODERATOR_ROLES, r ≠ "member" ∧ r ≠ CO_PROPOSER_ROLE := by
    decide
  exact hall r (List.mem_append.mpr h)

theorem mem_redeemedRoles {currentRoles cap : List String} {hasGrant : Bool}
    (h : r ∈ redeemedRoles currentRoles (some cap) hasGrant) (hbounded : IsBoundedRole r) :
    r ∈ currentRoles ∧ r ∈ cap := by
  obtain ⟨hmember, hco⟩ := hbounded.ne
  have hpaired : r ∈ currentRoles.filter fun r => cap.contains r := by
    rw [redeemedRoles] at h
    split_ifs at h with hgrant
    · rw [withCoProposerRole, mem_normalizeSessionRoles, List.mem_append, List.mem_singleton] at h
      rcases h.2 with h | h
      · exact (List.mem_filter.mp h).1
      · exact absurd h hco
    · exact absurd (List.mem_singleton.mp h) hmember
    · exact h
    · exact absurd (List.mem_singleton.mp h) hmember
  obtain ⟨hcurrent, hcap⟩ := List.mem_filter.mp hpaired
  exact ⟨hcurrent, List.contains_iff_mem.mp hcap⟩

theorem Redeemed.right {env : PairingEnv} {m : PairingRedemption} (h : Redeemed env m p a)
    (ha : a.approver.Right) : m.birth.Right := by
  refine ⟨h.userId, h.approver ▸ h.account.symm, fun r hr hbounded => ?_, ?_, h.approver ▸ ha⟩
  · rw [h.roles] at hr
    obtain ⟨hcurrent, hcap⟩ := mem_redeemedRoles hr hbounded
    exact ⟨h.approver ▸ (mem_normalizeSessionRoles.mp hcap).2, hcurrent⟩
  · rw [sessionLifetimeStart, h.lifetimeStart, Option.getD_some, h.approver]
    exact min_le_left _ _

/-! ### The calls -/

inductive PairingCall : PairingWorld → PairingProc → Prop
  | createPairing (w : PairingWorld) (userAgent : Option String) (now : ℤ) :
      PairingCall w (.createPairing userAgent now)
  | approve (w : PairingWorld) (token : String) (rawCode : Text) (readAt now : ℤ) :
      PairingCall w (.approve token rawCode readAt now)
  | pollPairing (w : PairingWorld) (pairingId deviceSecret : String) (label : Option String)
      (now : ℤ) : PairingCall w (.pollPairing pairingId deviceSecret label now)

/-- Everything else: accounts and grants change, people sign in and out, sessions are renewed. -/
structure PairingRest (w w' : PairingWorld) : Prop where
  pairings : w'.pairings = w.pairings
  drawn : w'.drawn = w.drawn
  started : w'.started = w.started
  approvals : w'.approvals = w.approvals
  redemptions : w'.redemptions = w.redemptions
  births : ∀ keyHash b, w'.births keyHash = some b →
    w.births keyHash = some b ∨ ∃ record, b = .login record
  sessions : ∀ keyHash record e, w'.sessions.entry (sessKey keyHash) = some ⟨.session record, e⟩ →
    ∃ b, w'.births keyHash = some b ∧ SameSession record b.record

/-- The calls, over one store and one database. -/
def pairingProgram (env : PairingEnv) : Program PairingWorld PairingProc where
  Start := PairingCall
  Step w l w' l' := ∃ input, pairingStep env input w l = some (w', l')
  Env := PairingRest

/-- No pairing yet, and every session is from a sign-in. -/
structure PairingWorld.Initial (w : PairingWorld) : Prop where
  pairings : w.pairings = .empty
  drawn : w.drawn = []
  started : w.started = []
  approvals : w.approvals = []
  redemptions : w.redemptions = []
  births : ∀ keyHash b, w.births keyHash = some b → ∃ record, b = .login record
  sessions : ∀ keyHash record e, w.sessions.entry (sessKey keyHash) = some ⟨.session record, e⟩ →
    ∃ b, w.births keyHash = some b ∧ SameSession record b.record

/-! ### The invariant -/

/-- The row of a pairing, whatever has become of it. -/
structure RowOf (env : PairingEnv) (row : PairingRow) (p : PairingStart) : Prop where
  pairingId : row.pairingId = p.pairingId
  codeHash : row.codeHash = env.sha256Hex (String.ofList p.code)
  secretHash : row.secretHash = env.sha256Hex p.deviceSecret
  expiresAt : row.expiresAt = p.expiresAt

structure ApprovedAs (a : PairingApproval) (userId : Option String)
    (approverRoles : Option StoredRoles) (lifetimeStart : Option ℤ) : Prop where
  userId : userId = some a.approver.record.userId
  roles : approverRoles = some (.array (normalizeSessionRoles a.approver.record.roles))
  lifetimeStart : lifetimeStart = some (sessionLifetimeStart a.approver.record)

/-- What holds of the tables, the store and the record of what has happened. -/
structure PairingsSafe (env : PairingEnv) (w : PairingWorld) : Prop where
  startedOnce : (w.started.map (·.pairingId)).Nodup
  drawn : ∀ p ∈ w.started, p.pairingId ∈ w.drawn
  rows : ∀ row ∈ w.pairings.rows, ∃ p ∈ w.started, RowOf env row p
  pending : ∀ row ∈ w.pairings.rows, row.status = .pending →
    ∀ a ∈ w.approvals, a.pairingId ≠ row.pairingId
  approved : ∀ row ∈ w.pairings.rows, row.status = .approved →
    ∃ a ∈ w.approvals, a.pairingId = row.pairingId ∧
      ApprovedAs a row.userId row.approverRoles row.approverLifetimeStart
  approvedOnce : (w.approvals.map (·.pairingId)).Nodup
  approvals : ∀ a ∈ w.approvals, a.approver.Right ∧ ∃ p ∈ w.started, a.pairingId = p.pairingId ∧
    env.sha256Hex (String.ofList a.code) = env.sha256Hex (String.ofList p.code) ∧ a.now < p.expiresAt
  single : (w.redemptions.map (·.pairingId)).Nodup
  gone : ∀ m ∈ w.redemptions, ∀ row ∈ w.pairings.rows, row.pairingId = m.pairingId →
    row.status = .consumed
  redeemed : ∀ m ∈ w.redemptions, ∃ p ∈ w.started, ∃ a ∈ w.approvals, Redeemed env m p a
  births : ∀ keyHash b, w.births keyHash = some b → b.Right
  sessions : ∀ keyHash record e, w.sessions.entry (sessKey keyHash) = some ⟨.session record, e⟩ →
    ∃ b, w.births keyHash = some b ∧ SameSession record b.record

/-- A pairing that a call has claimed. -/
structure Claimed (env : PairingEnv) (w : PairingWorld) (claim : PairingClaim) : Prop where
  unredeemed : ∀ m ∈ w.redemptions, m.pairingId ≠ claim.pairingId
  gone : ∀ row ∈ w.pairings.rows, row.pairingId = claim.pairingId → row.status = .consumed
  pairing : ∃ p ∈ w.started, p.pairingId = claim.pairingId ∧
    env.sha256Hex claim.deviceSecret = env.sha256Hex p.deviceSecret
  approval : ∃ a ∈ w.approvals, a.pairingId = claim.pairingId ∧
    ApprovedAs a (some claim.userId) claim.approverRoles claim.approverLifetimeStart

def PairingProc.Asserts (env : PairingEnv) (w : PairingWorld) : PairingProc → Prop
  | .inserting pairingId _ _ _ _ =>
    pairingId ∈ w.drawn ∧ ∀ p ∈ w.started, p.pairingId ≠ pairingId
  | .approving approver session _ _ => approver.Right ∧
    session = ⟨approver.record.userId, approver.record.roles, sessionLifetimeStart approver.record⟩
  | .claiming pairingId deviceSecret _ => ∃ p ∈ w.started, p.pairingId = pairingId ∧
    env.sha256Hex deviceSecret = env.sha256Hex p.deviceSecret
  | .resolving claim => Claimed env w claim
  | .granting claim account | .minting claim account _ =>
    Claimed env w claim ∧ account.id = claim.userId
  | _ => True

/-- The pairing that a call has drawn, or claimed. -/
def PairingProc.holds : PairingProc → Option String
  | .inserting pairingId _ _ _ _ => some pairingId
  | .resolving claim | .granting claim _ | .minting claim _ _ => some claim.pairingId
  | _ => none

/-- Two calls hold different pairings. -/
def PairingProc.Apart (l m : PairingProc) : Prop :=
  ∀ pairingId, l.holds = some pairingId → m.holds ≠ some pairingId

/-! ### Growth -/

/-- What a step by a call that holds `held` leaves as it is. -/
structure PairingWorld.Extends (held : Option String) (w w' : PairingWorld) : Prop where
  drawn : ∀ id ∈ w.drawn, id ∈ w'.drawn
  started : ∀ p ∈ w.started, p ∈ w'.started
  startedNew : ∀ p ∈ w'.started, p ∈ w.started ∨ held = some p.pairingId
  approvals : ∀ a ∈ w.approvals, a ∈ w'.approvals
  redeemedNew : ∀ m ∈ w'.redemptions, m ∈ w.redemptions ∨ held = some m.pairingId
  rows : ∀ row' ∈ w'.pairings.rows, row'.status = .consumed ∨ held = some row'.pairingId ∨
    ∃ row ∈ w.pairings.rows, row.pairingId = row'.pairingId ∧ row.status ≠ .consumed

theorem PairingWorld.Extends.refl (held : Option String) (w : PairingWorld) :
    w.Extends held w := by
  refine ⟨fun _ h => h, fun _ h => h, fun _ h => .inl h, fun _ h => h, fun _ h => .inl h, ?_⟩
  intro row hrow
  by_cases hstatus : row.status = .consumed
  · exact .inl hstatus
  · exact .inr (.inr ⟨row, hrow, rfl, hstatus⟩)

variable {held userAgent : Option String} {approver : SessionBirth}

theorem Claimed.extends {env : PairingEnv} {w w' : PairingWorld} {claim : PairingClaim}
    (h : Claimed env w claim) (hstep : w.Extends held w') (hheld : held ≠ some claim.pairingId) :
    Claimed env w' claim := by
  refine ⟨fun m hm heq => ?_, fun row' hrow' heq => ?_, ?_, ?_⟩
  · rcases hstep.redeemedNew m hm with hm | hm
    · exact h.unredeemed m hm heq
    · exact hheld (heq ▸ hm)
  · rcases hstep.rows row' hrow' with hstatus | hrow | ⟨row, hrow, hid, hstatus⟩
    · exact hstatus
    · exact absurd (heq ▸ hrow) hheld
    · exact absurd (h.gone row hrow (hid.trans heq)) hstatus
  · obtain ⟨p, hp, hrest⟩ := h.pairing
    exact ⟨p, hstep.started p hp, hrest⟩
  · obtain ⟨a, ha, hrest⟩ := h.approval
    exact ⟨a, hstep.approvals a ha, hrest⟩

variable {m l : PairingProc} {codeHash : String}

theorem PairingProc.Asserts.extends {env : PairingEnv} {w w' : PairingWorld} (h : m.Asserts env w)
    (hstep : w.Extends held w')
    (hheld : ∀ pairingId, held = some pairingId → m.holds ≠ some pairingId) : m.Asserts env w' := by
  have hclaim : ∀ {claim : PairingClaim}, m.holds = some claim.pairingId → Claimed env w claim →
      Claimed env w' claim := fun hholds hclaimed =>
    hclaimed.extends hstep fun hsome => hheld _ hsome hholds
  rcases m with _ | ⟨pairingId, _, _, _, _⟩ | _ | _ | _ | _ | _ | _ | _ | _ | _
  case inserting =>
    refine ⟨hstep.drawn _ h.1, fun p hp heq => ?_⟩
    rcases hstep.startedNew p hp with hp | hp
    · exact h.2 p hp heq
    · exact hheld _ hp (congrArg some heq.symm)
  case approving => exact h
  case claiming =>
    obtain ⟨p, hp, hrest⟩ := h
    exact ⟨p, hstep.started p hp, hrest⟩
  case resolving => exact hclaim rfl h
  case granting | minting => exact ⟨hclaim rfl h.1, h.2⟩
  all_goals trivial

/-! ### Statements -/

variable {table table' : PairingTable} {row : PairingRow} {now : ℤ}

theorem insertPairing_eq_some (h : insertPairing table row now = some table') :
    table'.rows = Table.deleteWhere (fun r => decide (r.expiresAt ≤ now)) table.rows ++ [row] := by
  rw [insertPairing] at h
  rcases hinsert : (table.deleteWhere fun r => decide (r.expiresAt ≤ now)).insertOrIgnore row with
    ⟨swept, inserted⟩
  rw [hinsert] at h
  rcases inserted with _ | _
  · cases h
  · cases h
    have hnew : ((table.deleteWhere fun r => decide (r.expiresAt ≤ now)).insertOrIgnore row).2 =
        true := by rw [hinsert]
    have hrows := (DoublyKeyedTable.insertOrIgnore_of_true hnew).1
    rw [hinsert] at hrows
    exact hrows

variable {pairings : PairingTable}

/-- **Starting.** The new pairing has a row, and the others lose theirs at most. -/
theorem PairingsSafe.insert {env : PairingEnv} {w : PairingWorld} (hw : PairingsSafe env w)
    {start : PairingStart} (hdrawn : start.pairingId ∈ w.drawn)
    (hnew : ∀ p ∈ w.started, p.pairingId ≠ start.pairingId)
    (h : insertPairing w.pairings (start.row env userAgent now) now = some pairings) :
    PairingsSafe env { w with pairings := pairings, started := w.started ++ [start] } ∧
      w.Extends (some start.pairingId)
        { w with pairings := pairings, started := w.started ++ [start] } := by
  have hrows : ∀ row ∈ pairings.rows, row ∈ w.pairings.rows ∨ row = start.row env userAgent now := by
    intro row hrow
    rw [insertPairing_eq_some h, List.mem_append, List.mem_singleton] at hrow
    exact hrow.imp_left fun hmem => (Table.mem_deleteWhere.mp hmem).1
  have hof : RowOf env (start.row env userAgent now) start := ⟨rfl, rfl, rfl, rfl⟩
  have hlift : ∀ {P : PairingStart → Prop}, (∃ p ∈ w.started, P p) →
      ∃ p ∈ w.started ++ [start], P p := fun ⟨p, hp, hrest⟩ =>
    ⟨p, List.mem_append_left _ hp, hrest⟩
  refine ⟨⟨?_, fun p hp => ?_, fun row hrow => ?_, fun row hrow hstatus a ha => ?_,
    fun row hrow hstatus => ?_, hw.approvedOnce, fun a ha => ?_, hw.single,
    fun m hm row hrow hid => ?_, fun m hm => hlift (hw.redeemed m hm), hw.births, hw.sessions⟩, ?_⟩
  · rw [List.map_append, List.map_singleton]
    refine List.nodup_append.mpr ⟨hw.startedOnce, List.nodup_singleton _, ?_⟩
    rintro id hid _ hid' rfl
    obtain ⟨p, hp, rfl⟩ := List.mem_map.mp hid
    exact hnew p hp (List.mem_singleton.mp hid')
  · rcases List.mem_append.mp hp with hp | hp
    · exact hw.drawn p hp
    · exact List.mem_singleton.mp hp ▸ hdrawn
  · rcases hrows row hrow with hrow | rfl
    · exact hlift (hw.rows row hrow)
    · exact ⟨start, List.mem_append_right _ (List.mem_singleton_self _), hof⟩
  · rcases hrows row hrow with hrow | rfl
    · exact hw.pending row hrow hstatus a ha
    · intro heq
      obtain ⟨-, p, hp, hid, -⟩ := hw.approvals a ha
      exact hnew p hp (hid.symm.trans heq)
  · rcases hrows row hrow with hrow | rfl
    · exact hw.approved row hrow hstatus
    · cases hstatus
  · exact (hw.approvals a ha).imp_right hlift
  · rcases hrows row hrow with hrow | rfl
    · exact hw.gone m hm row hrow hid
    · obtain ⟨p, hp, a, -, hredeemed⟩ := hw.redeemed m hm
      exact absurd (hredeemed.pairing.symm.trans hid.symm) (hnew p hp)
  · refine ⟨fun _ h => h, fun p hp => List.mem_append_left _ hp, fun p hp => ?_, fun _ h => h,
      fun _ h => .inl h, fun row hrow => ?_⟩
    · exact (List.mem_append.mp hp).imp_right fun hp => congrArg (some ·.pairingId)
        (List.mem_singleton.mp hp).symm
    · rcases hrows row hrow with hrow | rfl
      · exact (PairingWorld.Extends.refl (some start.pairingId) w).rows row hrow
      · exact .inr (.inl rfl)

theorem PairingsSafe.fewer {env : PairingEnv} {w : PairingWorld} (hw : PairingsSafe env w)
    (hrows : ∀ row ∈ pairings.rows, row ∈ w.pairings.rows) :
    PairingsSafe env { w with pairings := pairings } ∧
      w.Extends none { w with pairings := pairings } := by
  refine ⟨⟨hw.startedOnce, hw.drawn, fun row hrow => hw.rows row (hrows row hrow),
    fun row hrow => hw.pending row (hrows row hrow),
    fun row hrow => hw.approved row (hrows row hrow), hw.approvedOnce, hw.approvals, hw.single,
    fun m hm row hrow => hw.gone m hm row (hrows row hrow), hw.redeemed, hw.births,
    hw.sessions⟩, ?_⟩
  exact { PairingWorld.Extends.refl none w with
    rows := fun row hrow => (PairingWorld.Extends.refl none w).rows row (hrows row hrow) }

variable {pairingId : String} {session : ApproverSession}

theorem approveRow_some (h : approveRow table codeHash session now = (table', some pairingId)) :
    ∃ row ∈ table.rows, row.pairingId = pairingId ∧ row.codeHash = codeHash ∧
      row.status = .pending ∧ now < row.expiresAt ∧
      ∀ row' ∈ table'.rows, (row' ∈ table.rows ∧ row'.pairingId ≠ pairingId) ∨
        row' = { row with
          status := .approved, userId := some session.id,
          approverRoles := some (.array (normalizeSessionRoles session.roles)),
          approverLifetimeStart := some session.lifetimeStart } := by
  rw [approveRow, Prod.mk.injEq] at h
  obtain ⟨htable, hfind⟩ := h
  obtain ⟨row, hrow, hid⟩ := Option.map_eq_some_iff.mp hfind
  have happrovable := List.find?_some hrow
  have hmem := List.mem_of_find?_eq_some hrow
  have hrest : row.codeHash = codeHash ∧ row.status = .pending ∧ now < row.expiresAt := by
    simpa [isApprovable, and_assoc] using happrovable
  refine ⟨row, hmem, hid, hrest.1, hrest.2.1, hrest.2.2, fun row' hrow' => ?_⟩
  rw [← htable] at hrow'
  rcases Table.mem_updateWhere.mp hrow' with ⟨hrow', hnot⟩ | ⟨row₀, hrow₀, hwhere, rfl⟩
  · refine .inl ⟨hrow', fun heq => ?_⟩
    obtain rfl := table.eq_of_key hrow' hmem (heq.trans hid.symm)
    rw [happrovable] at hnot
    cases hnot
  · -- codes are unique
    have hcode : row₀.codeHash = codeHash := by
      simp only [isApprovable, Bool.and_eq_true, beq_iff_eq] at hwhere
      exact hwhere.1.1
    obtain rfl := table.eq_of_key' hrow₀ hmem (hcode.trans hrest.1.symm)
    exact .inr rfl

theorem approveRow_none (h : approveRow table codeHash session now = (table', none)) :
    ∀ row ∈ table'.rows, row ∈ table.rows := by
  rw [approveRow, Prod.mk.injEq] at h
  obtain ⟨htable, hfind⟩ := h
  intro row hrow
  rw [← htable] at hrow
  rcases Table.mem_updateWhere.mp hrow with ⟨hrow, -⟩ | ⟨row₀, hrow₀, hwhere, -⟩
  · exact hrow
  · exact absurd hwhere (List.find?_eq_none.mp (Option.map_eq_none_iff.mp hfind) row₀ hrow₀)

/-- **Approving.** The one pending row of the code becomes the approval's. -/
theorem PairingsSafe.approve {env : PairingEnv} {w : PairingWorld} (hw : PairingsSafe env w)
    (happrover : approver.Right) {code : Text} {now : ℤ} {pairings : PairingTable}
    {pairingId : String} (h : approveRow w.pairings (env.sha256Hex (String.ofList code))
      ⟨approver.record.userId, approver.record.roles, sessionLifetimeStart approver.record⟩ now =
        (pairings, some pairingId)) :
    PairingsSafe env { w with
        pairings := pairings, approvals := w.approvals ++ [⟨pairingId, code, now, approver⟩] } ∧
      w.Extends none { w with
        pairings := pairings, approvals := w.approvals ++ [⟨pairingId, code, now, approver⟩] } := by
  obtain ⟨row, hrow, rfl, hcode, hpending, hlive, hrows⟩ := approveRow_some h
  obtain ⟨p, hp, hof⟩ := hw.rows row hrow
  have hold : ∀ a ∈ w.approvals, a ∈ w.approvals ++ [⟨row.pairingId, code, now, approver⟩] :=
    fun a ha => List.mem_append_left _ ha
  refine ⟨⟨hw.startedOnce, hw.drawn, fun row' hrow' => ?_, fun row' hrow' hstatus a ha => ?_,
    fun row' hrow' hstatus => ?_, ?_, fun a ha => ?_, hw.single, fun m hm row' hrow' hid => ?_,
    fun m hm => ?_, hw.births, hw.sessions⟩, ?_⟩
  · rcases hrows row' hrow' with ⟨hmem, -⟩ | rfl
    · exact hw.rows row' hmem
    · exact ⟨p, hp, hof.pairingId, hof.codeHash, hof.secretHash, hof.expiresAt⟩
  · rcases hrows row' hrow' with ⟨hmem, hne⟩ | rfl
    · rcases List.mem_append.mp ha with ha | ha
      · exact hw.pending row' hmem hstatus a ha
      · exact List.mem_singleton.mp ha ▸ hne.symm
    · cases hstatus
  · rcases hrows row' hrow' with ⟨hmem, -⟩ | rfl
    · obtain ⟨a, ha, hrest⟩ := hw.approved row' hmem hstatus
      exact ⟨a, hold a ha, hrest⟩
    · exact ⟨_, List.mem_append_right _ (List.mem_singleton_self _), rfl, rfl, rfl, rfl⟩
  · rw [List.map_append, List.map_singleton]
    refine List.nodup_append.mpr ⟨hw.approvedOnce, List.nodup_singleton _, ?_⟩
    rintro id hid _ hid' rfl
    obtain ⟨a, ha, rfl⟩ := List.mem_map.mp hid
    exact hw.pending row hrow hpending a ha (List.mem_singleton.mp hid')
  · rcases List.mem_append.mp ha with ha | ha
    · exact hw.approvals a ha
    · obtain rfl := List.mem_singleton.mp ha
      exact ⟨happrover, p, hp, hof.pairingId, hcode.symm.trans hof.codeHash, hof.expiresAt ▸ hlive⟩
  · rcases hrows row' hrow' with ⟨hmem, -⟩ | rfl
    · exact hw.gone m hm row' hmem hid
    · cases hpending.symm.trans (hw.gone m hm row hrow hid)
  · obtain ⟨p, hp, a, ha, hrest⟩ := hw.redeemed m hm
    exact ⟨p, hp, a, hold a ha, hrest⟩
  · refine ⟨fun _ h => h, fun _ h => h, fun _ h => .inl h, hold, fun _ h => .inl h,
      fun row' hrow' => ?_⟩
    rcases hrows row' hrow' with ⟨hmem, -⟩ | rfl
    · exact (PairingWorld.Extends.refl none w).rows row' hmem
    · exact .inr (.inr ⟨row, hrow, rfl, by simp [hpending]⟩)

theorem claimRow_some (h : claimRow table pairingId = (table', some row)) :
    row ∈ table.rows ∧ row.pairingId = pairingId ∧ row.status = .approved ∧
      ∀ row' ∈ table'.rows, (row' ∈ table.rows ∧ row'.pairingId ≠ pairingId) ∨
        row' = { row with status := .consumed } := by
  rw [claimRow, Prod.mk.injEq] at h
  obtain ⟨htable, hfind⟩ := h
  have hclaimable := List.find?_some hfind
  have hmem := List.mem_of_find?_eq_some hfind
  have hrest : row.pairingId = pairingId ∧ row.status = .approved := by
    simpa [isClaimable] using hclaimable
  refine ⟨hmem, hrest.1, hrest.2, fun row' hrow' => ?_⟩
  rw [← htable] at hrow'
  rcases Table.mem_updateWhere.mp hrow' with ⟨hrow', hnot⟩ | ⟨row₀, hrow₀, hwhere, rfl⟩
  · refine .inl ⟨hrow', fun heq => ?_⟩
    obtain rfl := table.eq_of_key hrow' hmem (heq.trans hrest.1.symm)
    rw [hclaimable] at hnot
    cases hnot
  · have hid : row₀.pairingId = pairingId := by
      simp only [isClaimable, Bool.and_eq_true, beq_iff_eq] at hwhere
      exact hwhere.1
    obtain rfl := table.eq_of_key hrow₀ hmem (hid.trans hrest.1.symm)
    exact .inr rfl

theorem claimRow_none (h : claimRow table pairingId = (table', none)) :
    ∀ row ∈ table'.rows, row ∈ table.rows := by
  rw [claimRow, Prod.mk.injEq] at h
  obtain ⟨htable, hfind⟩ := h
  intro row hrow
  rw [← htable] at hrow
  rcases Table.mem_updateWhere.mp hrow with ⟨hrow, -⟩ | ⟨row₀, hrow₀, hwhere, -⟩
  · exact hrow
  · exact absurd hwhere (List.find?_eq_none.mp hfind row₀ hrow₀)

/-- **Claiming.** The approved row is consumed, and nobody has redeemed it. -/
theorem PairingsSafe.claim {env : PairingEnv} {w : PairingWorld} (hw : PairingsSafe env w)
    (h : claimRow w.pairings pairingId = (pairings, some row)) :
    PairingsSafe env { w with pairings := pairings } ∧
      w.Extends none { w with pairings := pairings } ∧
      (∀ m ∈ w.redemptions, m.pairingId ≠ pairingId) ∧
      ∀ row' ∈ pairings.rows, row'.pairingId = pairingId → row'.status = .consumed := by
  obtain ⟨hrow, rfl, happroved, hrows⟩ := claimRow_some h
  refine ⟨⟨hw.startedOnce, hw.drawn, fun row' hrow' => ?_, fun row' hrow' hstatus => ?_,
    fun row' hrow' hstatus => ?_, hw.approvedOnce, hw.approvals, hw.single,
    fun m hm row' hrow' hid => ?_, hw.redeemed, hw.births, hw.sessions⟩, ?_, fun m hm heq => ?_,
    fun row' hrow' hid => ?_⟩
  · rcases hrows row' hrow' with ⟨hmem, -⟩ | rfl
    · exact hw.rows row' hmem
    · obtain ⟨p, hp, hof⟩ := hw.rows row hrow
      exact ⟨p, hp, hof.pairingId, hof.codeHash, hof.secretHash, hof.expiresAt⟩
  · rcases hrows row' hrow' with ⟨hmem, -⟩ | rfl
    · exact hw.pending row' hmem hstatus
    · cases hstatus
  · rcases hrows row' hrow' with ⟨hmem, -⟩ | rfl
    · exact hw.approved row' hmem hstatus
    · cases hstatus
  · rcases hrows row' hrow' with ⟨hmem, -⟩ | rfl
    · exact hw.gone m hm row' hmem hid
    · rfl
  · exact { PairingWorld.Extends.refl none w with
      rows := fun row' hrow' => by
        rcases hrows row' hrow' with ⟨hmem, -⟩ | rfl
        · exact (PairingWorld.Extends.refl none w).rows row' hmem
        · exact .inl rfl }
  · cases happroved.symm.trans (hw.gone m hm row hrow heq.symm)
  · rcases hrows row' hrow' with ⟨-, hne⟩ | rfl
    · exact absurd hid hne
    · rfl

theorem normalizeSessionRoles_idem (roles : List String) :
    normalizeSessionRoles (normalizeSessionRoles roles) = normalizeSessionRoles roles := by
  rw [normalizeSessionRoles]
  refine List.filter_congr fun r hr => ?_
  rw [Bool.eq_iff_iff, List.contains_iff_mem, List.contains_iff_mem, mem_normalizeSessionRoles]
  exact and_iff_right hr

theorem PairingsSafe.approverFor {env : PairingEnv} {w : PairingWorld} (hw : PairingsSafe env w)
    (ha : a ∈ w.approvals) : w.approverFor a.pairingId = some a.approver := by
  rw [PairingWorld.approverFor, Option.map_eq_some_iff]
  rcases hfind : w.approvals.find? fun a' => a'.pairingId == a.pairingId with _ | a'
  · exact absurd (beq_self_eq_true _) (List.find?_eq_none.mp hfind a ha)
  · obtain rfl := Table.eq_of_key hw.approvedOnce (List.mem_of_find?_eq_some hfind) ha
      (beq_iff_eq.mp (List.find?_some hfind :))
    exact ⟨a', hfind, rfl⟩

/-- **Redeeming.** A pairing that has been claimed is traded for its session. -/
theorem PairingsSafe.mint {env : PairingEnv} {w : PairingWorld} (hw : PairingsSafe env w)
    {claim : PairingClaim} (hclaim : Claimed env w claim) {account : AccountRow}
    (haccount : account.id = claim.userId) (hasGrant : Bool) (now : ℤ) (token : String) :
    PairingsSafe env (mintSession env w claim account hasGrant now token) ∧
      w.Extends (some claim.pairingId) (mintSession env w claim account hasGrant now token) := by
  obtain ⟨p, hp, hpid, hsecret⟩ := hclaim.pairing
  obtain ⟨a, ha, haid, huser, hroles, hlife⟩ := hclaim.approval
  obtain ⟨happrover, p', hp', haid', hcode, hlive⟩ := hw.approvals a ha
  obtain rfl := (Table.eq_of_key hw.startedOnce hp hp' (hpid.trans (haid.symm.trans haid')))
  have hfor : w.approverFor claim.pairingId = some a.approver := haid ▸ hw.approverFor ha
  have hredeemed : Redeemed env ⟨claim.pairingId, claim.deviceSecret, hasGrant, now,
      claim.newRecord env account hasGrant now, account, modRoleOf env account, a.approver⟩ p a := by
    refine ⟨hpid.symm, haid', hcode, hlive, hsecret, rfl, ?_, rfl, ?_, ?_⟩
    · exact haccount.trans (Option.some.inj huser)
    · change redeemedRoles _ (parseApproverRoles claim.approverRoles) hasGrant = _
      rw [hroles, parseApproverRoles, normalizeSessionRoles_idem]
    · change claim.approverLifetimeStart.map _ = _
      rw [hlife]
      rfl
  rw [mintSession, hfor, Option.getD_some]
  refine ⟨⟨hw.startedOnce, hw.drawn, hw.rows, hw.pending, hw.approved, hw.approvedOnce,
    hw.approvals, ?_, fun m hm => ?_, fun m hm => ?_, fun keyHash b hb => ?_,
    fun keyHash record e he => ?_⟩, ?_⟩
  · rw [List.map_append, List.map_singleton]
    refine List.nodup_append.mpr ⟨hw.single, List.nodup_singleton _, ?_⟩
    rintro id hid _ hid' rfl
    obtain ⟨m, hm, rfl⟩ := List.mem_map.mp hid
    exact hclaim.unredeemed m hm (List.mem_singleton.mp hid')
  · rcases List.mem_append.mp hm with hm | hm
    · exact hw.gone m hm
    · obtain rfl := List.mem_singleton.mp hm
      exact hclaim.gone
  · rcases List.mem_append.mp hm with hm | hm
    · exact hw.redeemed m hm
    · obtain rfl := List.mem_singleton.mp hm
      exact ⟨p, hp, a, ha, hredeemed⟩
  · dsimp only at hb
    split_ifs at hb
    · cases hb
      exact hredeemed.right happrover
    · exact hw.births keyHash b hb
  · by_cases hkey : keyHash = env.sha256Hex token
    · subst hkey
      rw [SessionStore.putFor, entry_put_self, Option.some.injEq, StoreEntry.mk.injEq,
        KvValue.session.injEq] at he
      obtain ⟨rfl, -⟩ := he
      exact ⟨_, if_pos rfl, rfl, rfl, rfl⟩
    · rw [SessionStore.putFor, entry_put_of_ne fun heq => hkey (sessKey_injective heq)] at he
      obtain ⟨b, hb, hsame⟩ := hw.sessions keyHash record e he
      exact ⟨b, (if_neg hkey).trans hb, hsame⟩
  · refine ⟨fun _ h => h, fun _ h => h, fun _ h => .inl h, fun _ h => h, fun m hm => ?_,
      (PairingWorld.Extends.refl _ w).rows⟩
    exact (List.mem_append.mp hm).imp_right fun hm => congrArg (some ·.pairingId)
      (List.mem_singleton.mp hm).symm

theorem PairingsSafe.index {env : PairingEnv} {w : PairingWorld} (hw : PairingsSafe env w)
    (now : ℤ) (userId : String) (hashes : List String) :
    PairingsSafe env { w with
      sessions := w.sessions.putFor now (usessKey userId) (.hashes hashes) SESSION_TTL_SEC } := by
  refine { hw with sessions := fun keyHash record e he => ?_ }
  rw [SessionStore.putFor, entry_put_of_ne (sessKey_ne_usessKey _ _)] at he
  exact hw.sessions keyHash record e he

/-! ### Steps -/

theorem PairingsSafe.approverOf {env : PairingEnv} {w : PairingWorld} (hw : PairingsSafe env w)
    {token : String} {readAt : ℤ} (h : approverOf env w token readAt = some (approver, session)) :
    approver.Right ∧ session = ⟨approver.record.userId, approver.record.roles,
      sessionLifetimeStart approver.record⟩ := by
  rw [DrepTalk.approverOf] at h
  rcases hread : readRecord w.sessions readAt (env.sha256Hex token) with _ | record
  · rw [hread] at h
    cases h
  · rw [hread] at h
    dsimp only at h
    split_ifs at h
    obtain ⟨e, he, -⟩ := readRecord_eq_some.mp hread
    obtain ⟨b, hb, hsame⟩ := hw.sessions _ record e he
    rw [hb, Option.getD_some, Option.some.injEq, Prod.mk.injEq] at h
    obtain ⟨rfl, rfl⟩ := h
    exact ⟨hw.births _ b hb, by rw [hsame.userId, hsame.roles, hsame.lifetimeStart]⟩

/-- A pairing is held by nobody else when a step takes it. -/
def Unheld (w : PairingWorld) (pairingId : String) : Prop :=
  pairingId ∉ w.drawn ∨
    ∃ row ∈ w.pairings.rows, row.pairingId = pairingId ∧ row.status = .approved

structure PairingEffect (env : PairingEnv) (w : PairingWorld) (l : PairingProc)
    (w' : PairingWorld) (l' : PairingProc) : Prop where
  safe : PairingsSafe env w'
  asserts : l'.Asserts env w'
  extended : w.Extends l.holds w'
  holds : ∀ pairingId, l'.holds = some pairingId → l.holds = some pairingId ∨ Unheld w pairingId

theorem PairingEffect.rest {env : PairingEnv} {w : PairingWorld} {l' : PairingProc}
    (hw : PairingsSafe env w) (hl' : l'.Asserts env w)
    (hholds : ∀ pairingId, l'.holds = some pairingId → l.holds = some pairingId) :
    PairingEffect env w l w l' :=
  ⟨hw, hl', .refl _ w, fun pairingId h => .inl (hholds pairingId h)⟩

section Step

variable {env : PairingEnv} {input : PairingInput} {w w' : PairingWorld} {l' : PairingProc}

variable {now : ℤ}

theorem createPairing_effect (hw : PairingsSafe env w)
    (h : pairingStep env input w (.createPairing userAgent now) = some (w', l')) :
    PairingEffect env w (.createPairing userAgent now) w' l' := by
  unfold pairingStep at h
  rcases input with _ | ⟨pairingId, deviceSecret⟩ | _ | _ | _
  case tokens =>
    dsimp only at h
    split_ifs at h with hdrawn
    cases h
    have hnew : ∀ p ∈ w.started, p.pairingId ≠ pairingId := fun p hp heq =>
      hdrawn (heq ▸ hw.drawn p hp)
    refine ⟨{ hw with drawn := fun p hp => List.mem_cons_of_mem _ (hw.drawn p hp) },
      ⟨List.mem_cons_self, hnew⟩, ?_, fun id hid => .inr (.inl (Option.some.inj hid ▸ hdrawn))⟩
    exact { PairingWorld.Extends.refl none w with
      drawn := fun id hid => List.mem_cons_of_mem _ hid }
  all_goals cases h

variable {pairingId deviceSecret : String}

theorem inserting_effect {pairingId deviceSecret : String} {now : ℤ} {attempts : ℕ}
    (hw : PairingsSafe env w)
    (hl : (PairingProc.inserting pairingId deviceSecret userAgent now attempts).Asserts env w)
    (h : pairingStep env input w (.inserting pairingId deviceSecret userAgent now attempts) =
      some (w', l')) :
    PairingEffect env w (.inserting pairingId deviceSecret userAgent now attempts) w' l' := by
  unfold pairingStep at h
  rcases attempts with _ | attempts
  · cases h
    exact .rest hw trivial nofun
  · rcases input with _ | _ | code | _ | _
    case code =>
      dsimp only at h
      rcases hinsert : insertPairing w.pairings
        ((PairingStart.mk pairingId deviceSecret code (now + PAIRING_TTL_SEC)).row env userAgent now)
          now with _ | pairings
      · rw [hinsert] at h
        cases h
        exact .rest hw hl fun _ hid => hid
      · rw [hinsert] at h
        cases h
        obtain ⟨hsafe, hextends⟩ := hw.insert hl.1 hl.2 hinsert
        exact ⟨hsafe, trivial, hextends, nofun⟩
    case fails =>
      cases h
      exact .rest hw hl fun _ hid => hid
    all_goals cases h

theorem approving_effect {session : ApproverSession} {rawCode : Text} (hw : PairingsSafe env w)
    (hl : (PairingProc.approving approver session rawCode now).Asserts env w)
    (h : pairingStep env input w (.approving approver session rawCode now) = some (w', l')) :
    PairingEffect env w (.approving approver session rawCode now) w' l' := by
  unfold pairingStep at h
  obtain ⟨happrover, rfl⟩ := hl
  rcases input with _ | _ | _ | _ | _
  case statement =>
    dsimp only at h
    rcases hcode : normalizePairingCode env rawCode with _ | code
    · rw [hcode] at h
      cases h
      exact .rest hw trivial nofun
    · rw [hcode] at h
      dsimp only at h
      rcases happrove : approveRow w.pairings (env.sha256Hex (String.ofList code))
        ⟨approver.record.userId, approver.record.roles, sessionLifetimeStart approver.record⟩ now
        with ⟨pairings, _ | pairingId⟩
      · rw [happrove] at h
        cases h
        obtain ⟨hsafe, hextends⟩ := hw.fewer (approveRow_none happrove)
        exact ⟨hsafe, trivial, hextends, nofun⟩
      · rw [happrove] at h
        cases h
        obtain ⟨hsafe, hextends⟩ := hw.approve happrover happrove
        exact ⟨hsafe, trivial, hextends, nofun⟩
  case fails =>
    cases h
    exact .rest hw trivial nofun
  all_goals cases h

variable {label : Option String}

theorem pollPairing_effect (hw : PairingsSafe env w)
    (h : pairingStep env input w (.pollPairing pairingId deviceSecret label now) = some (w', l')) :
    PairingEffect env w (.pollPairing pairingId deviceSecret label now) w' l' := by
  unfold pairingStep at h
  rcases input with _ | _ | _ | _ | _
  case statement =>
    dsimp only at h
    rcases hfind : w.pairings.rows.find? fun r =>
      r.pairingId == pairingId && decide (now < r.expiresAt) with _ | row
    · rw [hfind] at h
      cases h
      exact .rest hw trivial nofun
    · rw [hfind] at h
      dsimp only at h
      split_ifs at h with hsecret
      · cases h
        exact .rest hw trivial nofun
      · rcases hstatus : row.status with _ | _ | _ <;> rw [hstatus] at h <;> cases h
        · exact .rest hw trivial nofun
        · obtain ⟨p, hp, hof⟩ := hw.rows row (List.mem_of_find?_eq_some hfind)
          have hid : row.pairingId = pairingId := by
            have hmatch := List.find?_some hfind
            simp only [Bool.and_eq_true, beq_iff_eq] at hmatch
            exact hmatch.1
          refine .rest hw ⟨p, hp, hof.pairingId.symm.trans hid, ?_⟩ nofun
          exact (not_not.mp hsecret).symm.trans hof.secretHash
        · exact .rest hw trivial nofun
  case fails =>
    cases h
    exact .rest hw trivial nofun
  all_goals cases h

theorem claiming_effect (hw : PairingsSafe env w)
    (hl : (PairingProc.claiming pairingId deviceSecret label).Asserts env w)
    (h : pairingStep env input w (.claiming pairingId deviceSecret label) = some (w', l')) :
    PairingEffect env w (.claiming pairingId deviceSecret label) w' l' := by
  unfold pairingStep at h
  rcases input with _ | _ | _ | _ | _
  case statement =>
    dsimp only at h
    rcases hclaim : claimRow w.pairings pairingId with ⟨pairings, _ | row⟩
    · rw [hclaim] at h
      cases h
      obtain ⟨hsafe, hextends⟩ := hw.fewer (claimRow_none hclaim)
      exact ⟨hsafe, trivial, hextends, nofun⟩
    · obtain ⟨hsafe, hextends, hunredeemed, hgone⟩ := hw.claim hclaim
      obtain ⟨hrow, hid, happroved, -⟩ := claimRow_some hclaim
      rw [hclaim] at h
      rcases huser : row.userId.filter (· != "") with _ | userId
      · simp only [Option.bind_some, huser, Option.map_none] at h
        cases h
        exact ⟨hsafe, trivial, hextends, nofun⟩
      · simp only [Option.bind_some, huser, Option.map_some] at h
        cases h
        have huserId : row.userId = some userId := (Option.filter_eq_some_iff.mp huser).1
        obtain ⟨a, ha, haid, has⟩ := hw.approved row hrow happroved
        refine ⟨hsafe, ⟨hunredeemed, hgone, hl, a, ha, haid.trans hid, ?_⟩, hextends, ?_⟩
        · exact ⟨huserId ▸ has.userId, has.roles, has.lifetimeStart⟩
        · exact fun id hsome => .inr (.inr ⟨row, hrow, hid.trans (Option.some.inj hsome), happroved⟩)
  case fails =>
    cases h
    exact .rest hw trivial nofun
  all_goals cases h

theorem pairingStep_effect (hw : PairingsSafe env w) (hl : l.Asserts env w)
    (h : pairingStep env input w l = some (w', l')) : PairingEffect env w l w' l' := by
  rcases l with _ | _ | ⟨token, rawCode, readAt, now⟩ | _ | _ | _ | claim | ⟨claim, account⟩ |
    ⟨claim, account, hasGrant⟩ | ⟨now, keyHash, hashes, userId, answer⟩ | _
  case createPairing => exact createPairing_effect hw h
  case inserting => exact inserting_effect hw hl h
  case approving => exact approving_effect hw hl h
  case pollPairing => exact pollPairing_effect hw h
  case claiming => exact claiming_effect hw hl h
  all_goals unfold pairingStep at h
  case approve =>
    rcases input with _ | _ | _ | _ | _
    case statement =>
      dsimp only at h
      rcases happrover : approverOf env w token readAt with _ | ⟨approver, session⟩
      · rw [happrover] at h
        cases h
        exact .rest hw trivial nofun
      · rw [happrover] at h
        cases h
        exact .rest hw (hw.approverOf happrover) nofun
    case fails =>
      cases h
      exact .rest hw trivial nofun
    all_goals cases h
  case resolving =>
    rcases input with _ | _ | _ | _ | _
    case statement =>
      dsimp only at h
      rcases hfind : w.users.rows.find? fun u => u.id == claim.userId with _ | account
      · rw [hfind] at h
        cases h
        exact .rest hw trivial nofun
      · rw [hfind] at h
        cases h
        exact .rest hw ⟨hl, beq_iff_eq.mp (List.find?_some hfind :)⟩ fun _ hid => hid
    case fails =>
      cases h
      exact .rest hw trivial nofun
    all_goals cases h
  case granting =>
    rcases input with _ | _ | _ | _ | _
    case statement =>
      cases h
      exact .rest hw hl fun _ hid => hid
    case fails =>
      cases h
      exact .rest hw trivial nofun
    all_goals cases h
  case minting =>
    rcases input with _ | _ | _ | ⟨now, token⟩ | _
    case mint =>
      cases h
      obtain ⟨hsafe, hextends⟩ := hw.mint hl.1 hl.2 hasGrant now token
      exact ⟨hsafe, trivial, hextends, nofun⟩
    case fails =>
      cases h
      exact .rest hw trivial nofun
    all_goals cases h
  case indexing =>
    rcases input with _ | _ | _ | _ | _
    case statement =>
      cases h
      exact ⟨hw.index now userId _, trivial, { PairingWorld.Extends.refl none w with }, nofun⟩
    case fails =>
      cases h
      exact .rest hw trivial nofun
    all_goals cases h
  case returned => cases h

end Step

/-! ### Runs -/

theorem PairingWorld.Initial.safe {w : PairingWorld} (h : w.Initial) (env : PairingEnv) :
    PairingsSafe env w := by
  obtain ⟨hpairings, -, hstarted, happrovals, hredemptions, hbirths, hsessions⟩ := h
  have hrows : ∀ row, row ∉ w.pairings.rows := by
    rw [hpairings]
    exact fun row => List.not_mem_nil
  refine ⟨by simp [hstarted], by simp [hstarted], fun row hrow => absurd hrow (hrows row),
    fun row hrow => absurd hrow (hrows row), fun row hrow => absurd hrow (hrows row),
    by simp [happrovals], by simp [happrovals], by simp [hredemptions], by simp [hredemptions],
    by simp [hredemptions], fun keyHash b hb => ?_, hsessions⟩
  obtain ⟨record, rfl⟩ := hbirths keyHash b hb
  trivial

theorem PairingsSafe.rest {env : PairingEnv} {w w' : PairingWorld} (hw : PairingsSafe env w)
    (h : PairingRest w w') : PairingsSafe env w' := by
  obtain ⟨pairings, users, grantHolders, sessions, drawn, started, approvals, redemptions, births⟩ :=
    w'
  obtain ⟨rfl, rfl, rfl, rfl, rfl, hbirths, hsessions⟩ := h
  refine { hw with births := fun keyHash b hb => ?_, sessions := hsessions }
  rcases hbirths keyHash b hb with hb | ⟨record, rfl⟩
  · exact hw.births keyHash b hb
  · trivial

theorem PairingProc.Asserts.unheld {env : PairingEnv} {w : PairingWorld} (hw : PairingsSafe env w)
    (hm : m.Asserts env w) (h : Unheld w pairingId) : m.holds ≠ some pairingId := by
  have hclaimed : ∀ {claim : PairingClaim}, Claimed env w claim → claim.pairingId ≠ pairingId := by
    rintro claim hclaim rfl
    rcases h with hdrawn | ⟨row, hrow, hid, happroved⟩
    · obtain ⟨p, hp, hpid, -⟩ := hclaim.pairing
      exact hdrawn (hpid ▸ hw.drawn p hp)
    · cases happroved.symm.trans (hclaim.gone row hrow hid)
  rcases m with _ | ⟨drawnId, _, _, _, _⟩ | _ | _ | _ | _ | claim | ⟨claim, _⟩ | ⟨claim, _, _⟩ | _ | _
  case inserting =>
    intro heq
    cases heq
    rcases h with hdrawn | ⟨row, hrow, hid, -⟩
    · exact hdrawn hm.1
    · obtain ⟨p, hp, hof⟩ := hw.rows row hrow
      exact hm.2 p hp (hof.pairingId.symm.trans hid)
  case resolving => exact fun heq => hclaimed hm (Option.some.inj heq)
  case granting | minting => exact fun heq => hclaimed hm.1 (Option.some.inj heq)
  all_goals exact nofun

def pairingSound (env : PairingEnv) : (pairingProgram env).Sound PairingWorld.Initial where
  inv := PairingsSafe env
  asserts w l := l.Asserts env w
  apart := PairingProc.Apart
  symm l m h id hm hl := h id hl hm
  init _ h := h.safe env
  start := by
    rintro w l hw hstart
    cases hstart <;> exact ⟨trivial, fun _ _ _ hholds => nomatch hholds⟩
  step := by
    rintro w l w' l' hw hl ⟨input, h⟩
    have heffect := pairingStep_effect hw hl h
    exact ⟨heffect.safe, heffect.asserts⟩
  noninterference := by
    rintro w l w' l' m hw hl hm hapart ⟨input, h⟩
    have heffect := pairingStep_effect hw hl h
    refine ⟨hm.extends heffect.extended hapart, fun id hl' => ?_⟩
    rcases heffect.holds id hl' with hheld | hunheld
    · exact hapart id hheld
    · exact hm.unheld hw hunheld
  env := by
    rintro w w' hw henv
    refine ⟨hw.rest henv, fun m hm => ?_⟩
    suffices hextends : w.Extends none w' from hm.extends hextends nofun
    obtain ⟨pairings, users, grantHolders, sessions, drawn, started, approvals, redemptions,
      births⟩ := w'
    obtain ⟨rfl, rfl, rfl, rfl, rfl, -, -⟩ := henv
    exact { PairingWorld.Extends.refl none w with }

/-- **Pairings are right in every run.** -/
theorem pairingsRight {env : PairingEnv} {ι : Type*} [DecidableEq ι]
    {s : Interleaved PairingWorld PairingProc ι}
    (h : ((pairingProgram env).system ι PairingWorld.Initial).Reachable s) :
    PairingsRight env s.shared := by
  have hw : PairingsSafe env s.shared := ((pairingSound env).holds h).inv
  refine ⟨hw.single, hw.approvedOnce, hw.startedOnce, fun m hm => ?_, fun m hm first hchain => ?_,
    hw.sessions⟩
  · obtain ⟨p, hp, a, ha, hredeemed⟩ := hw.redeemed m hm
    exact ⟨p, hp, a, ha, hredeemed,
      (fun hsha => ⟨String.ofList_injective (hsha hredeemed.code), hsha hredeemed.secret⟩)⟩
  obtain ⟨p, hp, a, ha, hredeemed⟩ := hw.redeemed m hm
  have hright : m.birth.Right := hredeemed.right (hw.approvals a ha).1
  obtain ⟨hroles, hlife, -⟩ := hchain.bounded hright
  obtain ⟨-, -, hbounded, -, -⟩ := hright
  exact ⟨fun r hr hrole => ⟨(hbounded r hr hrole).1, (hbounded r hr hrole).2, hroles r hr hrole⟩,
    hlife⟩

def plainPairingEnv : PairingEnv := ⟨id, id, fun _ => none⟩

def deskRecord : SessionRecord :=
  ⟨"u1", ["drep", "member"], some (some "drep1"), none, none, none, 0, none, 0⟩

/-- An account that has become a DRep and a proposer, and its one session. -/
def deskWorld : PairingWorld where
  pairings := .empty
  users := ⟨[⟨"u1", none, some "drep1", true, true, false, false, none⟩], List.nodup_singleton _⟩
  grantHolders := []
  sessions := ExpiringStore.empty.put (sessKey "desk") (.session deskRecord) 1000
  drawn := []
  started := []
  approvals := []
  redemptions := []
  births keyHash := if keyHash = "desk" then some (.login deskRecord) else none

theorem deskWorld_initial : deskWorld.Initial := by
  refine ⟨rfl, rfl, rfl, rfl, rfl, fun keyHash b hb => ?_, fun keyHash record e he => ?_⟩
  · change (if keyHash = "desk" then some (SessionBirth.login deskRecord) else none) = some b at hb
    split_ifs at hb
    exact ⟨deskRecord, (Option.some.inj hb).symm⟩
  · by_cases hkey : keyHash = "desk"
    · subst hkey
      have hentry : deskWorld.sessions.entry (sessKey "desk") = some ⟨.session deskRecord, 1000⟩ :=
        entry_put_self _ _ _ _
      rw [hentry, Option.some.injEq, StoreEntry.mk.injEq, KvValue.session.injEq] at he
      obtain ⟨rfl, -⟩ := he
      have hbirth : deskWorld.births "desk" = some (.login deskRecord) := by decide +kernel
      exact ⟨_, hbirth, rfl, rfl, rfl⟩
    · have hentry : deskWorld.sessions.entry (sessKey keyHash) = none :=
        entry_put_of_ne (fun heq => hkey (sessKey_injective heq)) _ _
      rw [hentry] at he
      cases he

/-- The desk approves a phone, and the phone a tablet: its session has the one role of the desk's,
and its lifetime began at the desk. -/
theorem pairingsRight_chain :
    ∃ s : Interleaved PairingWorld PairingProc ℕ,
      ((pairingProgram plainPairingEnv).system ℕ PairingWorld.Initial).Reachable s ∧
        s.shared.redemptions.map (fun m => (m.pairingId, m.record.roles, m.record.lifetimeStart)) =
          [("p1", ["drep"], some 0), ("p2", ["drep"], some 0)] ∧
        (readRecord s.shared.sessions 70 "tablet").map (·.userId) = some "u1" ∧
        PairingsRight plainPairingEnv s.shared := by
  have h₀ : ((pairingProgram plainPairingEnv).system ℕ PairingWorld.Initial).Reachable
      ⟨deskWorld, fun _ => none⟩ := .init ⟨deskWorld_initial, fun _ => rfl⟩
  have h₁ := h₀.step (.start (i := 0) rfl (PairingCall.createPairing _ none 10))
  have h₂ := h₁.step (.start (i := 1) rfl (PairingCall.approve _ "desk" "2222-2222".toList 20 20))
  have h₃ := h₂.step (.start (i := 2) rfl (PairingCall.pollPairing _ "p1" "s1" none 30))
  have h₄ := h₃.step (.start (i := 3) rfl (PairingCall.pollPairing _ "p1" "s1" none 30))
  have h₅ := h₄.step (.start (i := 4) rfl (PairingCall.createPairing _ none 40))
  have h₆ := h₅.step (.start (i := 5) rfl (PairingCall.approve _ "phone" "3333-3333".toList 50 50))
  have h₇ := h₆.step (.start (i := 6) rfl (PairingCall.pollPairing _ "p2" "s2" none 60))
  -- two polls for the phone meet, and one of them gets the session
  have h₈ := Program.reachable_run (P := pairingProgram _) (fun k _ _ _ _ h => ⟨k, h⟩) h₇
    [(0, .tokens "p1" "s1"), (0, .code "22222222".toList), (1, .statement), (1, .statement),
      (2, .statement), (3, .statement), (2, .statement), (3, .statement), (2, .statement),
      (2, .statement), (2, .mint 35 "phone"), (2, .statement),
      (4, .tokens "p2" "s2"), (4, .code "33333333".toList), (5, .statement), (5, .statement),
      (6, .statement), (6, .statement), (6, .statement), (6, .statement), (6, .mint 65 "tablet")]
    (by decide +kernel)
  exact ⟨_, h₈, by decide +kernel, by decide +kernel, pairingsRight h₈⟩

end DrepTalk
