import DrepTalk.Auth.Pairing
import DrepTalk.Delegation.DelegatorFollows
import DrepTalk.Grants.ProposerGrants

/-!
# Accounts

`src/lib/db/users.ts`: a row of `users` is found by its id or by the stake address it holds. A login
upserts the row whose id is the proven credential; linking sets the stake address of a row that has
none. The migration's unique index keeps stake addresses apart, so both statements may fail.

**What a statement does to accounts** is the same for all of them (`UsersGrow`): no row goes, no row
changes its id, and a credential that is there stays what it is.
-/

namespace DrepTalk

/-! ### Rows and statements -/

/-- A row of `users`, by the columns a login reads and writes. -/
structure UserRow where
  id : String
  drepId : Option String
  stakeAddr : Option String
  poolId : Option String
  ccCred : Option String
  isDrep : Bool
  isProposer : Bool
  isSpo : Bool
  isCc : Bool
  displayName : Option String
  createdAt : ℤ
  lastVerifiedAt : ℤ
  signupRef : Option String
  deriving DecidableEq

/-- The columns that roles are read from. -/
def UserRow.account (u : UserRow) : AccountRow :=
  ⟨u.id, u.stakeAddr, u.drepId, u.isDrep, u.isProposer, u.isSpo, u.isCc, u.displayName⟩

/-- `users`, under the unique index on stake addresses. -/
abbrev UserTable := PartlyKeyedTable (fun row : UserRow => row.id) fun row => row.stakeAddr

inductive AuthRole
  | drep
  | proposer
  | spo
  | cc
  deriving DecidableEq

/-- The arguments of `upsertUserFromAuth`. -/
structure AuthArgs where
  drepId : Option String
  stakeAddr : Option String
  poolId : Option String
  ccCred : Option String
  roles : List AuthRole
  now : ℤ
  signupRef : Option String

/-- The id of the account; where it is empty, the call throws. -/
def AuthArgs.id (args : AuthArgs) : Option String :=
  (((args.drepId <|> args.stakeAddr) <|> args.poolId) <|> args.ccCred).filter (· != "")

def AuthArgs.row (args : AuthArgs) (id : String) : UserRow where
  id := id
  drepId := args.drepId
  stakeAddr := args.stakeAddr
  poolId := args.poolId
  ccCred := args.ccCred
  isDrep := args.roles.contains .drep
  isProposer := args.roles.contains .proposer
  isSpo := args.roles.contains .spo
  isCc := args.roles.contains .cc
  displayName := none
  createdAt := args.now
  lastVerifiedAt := args.now
  signupRef := args.signupRef

/-- What the upsert makes of a row that is there. -/
def AuthArgs.merge (args : AuthArgs) (u : UserRow) : UserRow :=
  { u with
    lastVerifiedAt := args.now
    isDrep := u.isDrep || args.roles.contains .drep
    isProposer := u.isProposer || args.roles.contains .proposer
    isSpo := u.isSpo || args.roles.contains .spo
    isCc := u.isCc || args.roles.contains .cc
    drepId := u.drepId <|> args.drepId
    stakeAddr := u.stakeAddr <|> args.stakeAddr
    poolId := u.poolId <|> args.poolId
    ccCred := u.ccCred <|> args.ccCred }

/-- The statement of `upsertUserFromAuth`. The conflict on the id is looked at first; what is left
is for the index on stake addresses. -/
def upsertUser (users : UserTable) (args : AuthArgs) (id : String) : Option UserTable :=
  if id ∈ users.rows.map (·.id) then
    users.update (fun r => r.id == id) args.merge fun _ _ => rfl
  else users.insert (args.row id)

def getUserById (users : UserTable) (id : String) : Option UserRow :=
  users.rows.find? fun r => r.id == id

def getUserByStakeAddr (users : UserTable) (stakeAddr : String) : Option UserRow :=
  users.rows.find? fun r => r.stakeAddr == some stakeAddr

/-- The statement of `touchUserVerification`. -/
def touchUser (users : UserTable) (userId : String) (now : ℤ) : UserTable :=
  users.updateWhere (fun r => r.id == userId) (fun r => { r with lastVerifiedAt := now })
    (fun _ _ => rfl) fun _ _ => .inl rfl

def linksTo (userId : String) (r : UserRow) : Bool := r.id == userId && r.stakeAddr == none

/-- The statement of `handleLinkStake`, and whether it returns a row. -/
def linkStakeAddr (users : UserTable) (userId stakeAddr : String) : Option (UserTable × Bool) :=
  (users.update (linksTo userId) (fun r => { r with stakeAddr := some stakeAddr })
    fun _ _ => rfl).map fun users' => (users', users.rows.any (linksTo userId))

/-- The name that a redeemed invite fills in. -/
def fillName (users : UserTable) (grants : GrantTable) (args : RedeemArgs) : UserTable :=
  users.updateWhere (fun r => fillsName grants args ⟨r.id, r.displayName⟩)
    (fun r => { r with displayName := some args.displayName }) (fun _ _ => rfl) fun _ _ => .inl rfl

def hasActiveGrantForCoUser (grants : GrantTable) (coUserId : String) : Bool :=
  grants.rows.any fun r => r.coUserId == some coUserId && r.status == .active && r.govActionId.isSome

/-- `lookupInviteByCode`: the id of the grant. -/
def lookupInviteByCode (sha256Hex : String → String) (grants : GrantTable) (code : String)
    (now : ℤ) : Option String :=
  (grants.rows.find? fun r => r.inviteCodeHash == sha256Hex code && r.status == .pending &&
    decide (now < r.expiresAt) && r.govActionId.isSome).map (·.id)

/-! ### Credentials -/

/-- A credential that a signature can prove. -/
inductive Identity
  | drep (drepId : String)
  | stake (stakeAddr : String)
  | pool (poolId : String)
  | committee (ccCred : String)
  deriving DecidableEq

/-- The credential itself, the id of the account it opens of its own. -/
def Identity.id : Identity → String
  | .drep id | .stake id | .pool id | .committee id => id

def UserRow.Holds (r : UserRow) : Identity → Prop
  | .drep id => r.drepId = some id
  | .stake stakeAddr => r.stakeAddr = some stakeAddr
  | .pool poolId => r.poolId = some poolId
  | .committee ccCred => r.ccCred = some ccCred

/-- What `finishLogin` and `resolveDelegatorAccount` upsert: the one credential. -/
def Identity.authArgs (identity : Identity) (roles : List AuthRole) (now : ℤ)
    (signupRef : Option String) : AuthArgs where
  drepId := match identity with
    | .drep id => some id
    | _ => none
  stakeAddr := match identity with
    | .stake stakeAddr => some stakeAddr
    | _ => none
  poolId := match identity with
    | .pool poolId => some poolId
    | _ => none
  ccCred := match identity with
    | .committee ccCred => some ccCred
    | _ => none
  roles := roles
  now := now
  signupRef := signupRef

theorem Identity.authArgs_id (identity : Identity) (roles : List AuthRole) (now : ℤ)
    (signupRef : Option String) :
    (identity.authArgs roles now signupRef).id = (some identity.id).filter (· != "") := by
  cases identity <;> rfl

/-- Only an account of its own has a credential other than a stake address. -/
def UserRow.Own (r : UserRow) : Prop :=
  (∀ id ∈ r.drepId, id = r.id) ∧ (∀ id ∈ r.poolId, id = r.id) ∧ ∀ id ∈ r.ccCred, id = r.id

/-- The row is the same account, with no credential gone or changed. -/
structure UserRow.Grows (r r' : UserRow) : Prop where
  id : r'.id = r.id
  holds : ∀ identity, r.Holds identity → r'.Holds identity

theorem UserRow.Grows.refl (r : UserRow) : r.Grows r := ⟨rfl, fun _ h => h⟩

/-- No account goes, and none loses or changes a credential. -/
def UsersGrow (users users' : UserTable) : Prop := ∀ r ∈ users.rows, ∃ r' ∈ users'.rows, r.Grows r'

theorem UsersGrow.refl (users : UserTable) : UsersGrow users users := fun r hr => ⟨r, hr, .refl r⟩

/-- There is an account with this id that holds the credential. -/
def Holding (users : UserTable) (id : String) (identity : Identity) : Prop :=
  ∃ r ∈ users.rows, r.id = id ∧ r.Holds identity

variable {users users' : UserTable} {id : String} {identity : Identity}

theorem Holding.mono (h : Holding users id identity) (hgrow : UsersGrow users users') :
    Holding users' id identity := by
  obtain ⟨r, hr, rfl, hholds⟩ := h
  obtain ⟨r', hr', hgrows⟩ := hgrow r hr
  exact ⟨r', hr', hgrows.id, hgrows.holds identity hholds⟩

variable {stakeAddr : String}

theorem Holding.eq {id' : String} (h : Holding users id (.stake stakeAddr))
    (h' : Holding users id' (.stake stakeAddr)) :
    id = id' := by
  obtain ⟨r, hr, rfl, hholds⟩ := h
  obtain ⟨r', hr', rfl, hholds'⟩ := h'
  rw [users.eq_of_key' hr hr' hholds hholds']

theorem Holding.stake_eq {stakeAddr' : String} (h : Holding users id (.stake stakeAddr))
    (h' : Holding users id (.stake stakeAddr')) :
    stakeAddr = stakeAddr' := by
  obtain ⟨r, hr, hid, hholds⟩ := h
  obtain ⟨r', hr', hid', hholds'⟩ := h'
  obtain rfl := users.toKeyedTable.eq_of_key hr hr' (hid.trans hid'.symm)
  exact Option.some.inj (Eq.trans (Eq.symm hholds) hholds')

/-! ### What the statements do -/

variable {p : UserRow → Bool} {f : UserRow → UserRow}

theorem usersGrow_updateWhere (hrows : users'.rows = Table.updateWhere p f users.rows)
    (hf : ∀ r, p r = true → r.Grows (f r)) : UsersGrow users users' := by
  intro r hr
  have hmem := Table.mem_updateWhere_of_mem p f hr
  rw [← hrows] at hmem
  refine ⟨_, hmem, ?_⟩
  split_ifs with hp
  · exact hf r hp
  · exact .refl r

theorem own_updateWhere (hrows : users'.rows = Table.updateWhere p f users.rows)
    (hf : ∀ r, p r = true → r.Own → (f r).Own) (hown : ∀ r ∈ users.rows, r.Own) :
    ∀ r ∈ users'.rows, r.Own := by
  intro r hr
  rw [hrows] at hr
  obtain ⟨u, hu, rfl⟩ := List.mem_map.mp hr
  split_ifs with hp
  · exact hf u hp (hown u hu)
  · exact hown u hu

theorem touchUser_grow (users : UserTable) (userId : String) (now : ℤ) :
    UsersGrow users (touchUser users userId now) :=
  usersGrow_updateWhere rfl fun r _ => ⟨rfl, fun identity h => by cases identity <;> exact h⟩

variable {userId : String} {now : ℤ}

theorem touchUser_own (hown : ∀ r ∈ users.rows, r.Own) :
    ∀ r ∈ (touchUser users userId now).rows, r.Own :=
  own_updateWhere rfl (fun _ _ => id) hown

theorem fillName_grow (users : UserTable) (grants : GrantTable) (args : RedeemArgs) :
    UsersGrow users (fillName users grants args) :=
  usersGrow_updateWhere rfl fun r _ => ⟨rfl, fun identity h => by cases identity <;> exact h⟩

variable {grants : GrantTable} {args : RedeemArgs}

theorem fillName_own (hown : ∀ r ∈ users.rows, r.Own) :
    ∀ r ∈ (fillName users grants args).rows, r.Own :=
  own_updateWhere rfl (fun _ _ => id) hown

theorem linkStakeAddr_effect {returned : Bool}
    (h : linkStakeAddr users userId stakeAddr = some (users', returned)) :
    UsersGrow users users' ∧ ((∀ r ∈ users.rows, r.Own) → ∀ r ∈ users'.rows, r.Own) ∧
      (returned = true → Holding users' userId (.stake stakeAddr)) := by
  obtain ⟨users'', hupdate, heq⟩ := Option.map_eq_some_iff.mp h
  cases heq
  have hrows := PartlyKeyedTable.update_eq_some hupdate
  refine ⟨usersGrow_updateWhere hrows fun r hp => ⟨rfl, fun identity hholds => ?_⟩,
    own_updateWhere hrows fun _ _ => id, fun hreturned => ?_⟩
  · rw [linksTo, Bool.and_eq_true, beq_iff_eq, beq_iff_eq] at hp
    cases identity with
    | stake => cases hp.2.symm.trans hholds
    | drep | pool | committee => exact hholds
  · obtain ⟨r, hr, hp⟩ := List.any_eq_true.mp hreturned
    have hmem := Table.mem_updateWhere_of_mem (linksTo userId)
      (fun r => { r with stakeAddr := some stakeAddr }) hr
    rw [if_pos hp, ← hrows] at hmem
    rw [linksTo, Bool.and_eq_true, beq_iff_eq] at hp
    exact ⟨_, hmem, hp.1, rfl⟩

theorem merge_grows (args : AuthArgs) (r : UserRow) : r.Grows (args.merge r) := by
  refine ⟨rfl, fun identity h => ?_⟩
  cases identity with
  | drep | stake | pool | committee =>
    simp only [UserRow.Holds] at h
    simp only [UserRow.Holds, AuthArgs.merge, h]
    rfl

variable {roles : List AuthRole} {signupRef : Option String}

theorem merge_own {r : UserRow} (hid : r.id = identity.id) (h : r.Own) :
    ((identity.authArgs roles now signupRef).merge r).Own := by
  have hcol : ∀ (old new : Option String), (∀ id ∈ old, id = r.id) → (∀ id ∈ new, id = r.id) →
      ∀ id ∈ (old <|> new), id = r.id := by
    intro old new hold hnew id hmem
    rcases old with _ | o
    · exact hnew id hmem
    · exact hold id hmem
  refine ⟨hcol _ _ h.1 ?_, hcol _ _ h.2.1 ?_, hcol _ _ h.2.2 ?_⟩ <;>
    cases identity <;> simp [Identity.authArgs, hid, Identity.id]

theorem row_own (identity : Identity) (roles : List AuthRole) (now : ℤ)
    (signupRef : Option String) :
    ((identity.authArgs roles now signupRef).row identity.id).Own := by
  cases identity <;> simp [UserRow.Own, AuthArgs.row, Identity.authArgs, Identity.id]

theorem row_holds (identity : Identity) (roles : List AuthRole) (now : ℤ)
    (signupRef : Option String) :
    ((identity.authArgs roles now signupRef).row identity.id).Holds identity := by
  cases identity <;> rfl

/-- The row whose id is the credential may hold it: a stake address, unless it has another. -/
def MayHold (users : UserTable) : Identity → Prop
  | .stake stakeAddr => ∀ u ∈ users.rows, u.id = stakeAddr → ∀ other ∈ u.stakeAddr, other = stakeAddr
  | _ => True

theorem merge_holds {r : UserRow} (hr : r ∈ users.rows) (hid : r.id = identity.id) (hown : r.Own)
    (hmay : MayHold users identity) :
    ((identity.authArgs roles now signupRef).merge r).Holds identity := by
  have hcol : ∀ (old : Option String) (new : String), (∀ id ∈ old, id = new) →
      (old <|> some new) = some new := by
    intro old new hold
    rcases old with _ | o
    · rfl
    · exact congrArg some (hold o rfl)
  cases identity with
  | drep id => exact hcol _ _ fun o ho => (hown.1 o ho).trans hid
  | stake stakeAddr => exact hcol _ _ (hmay r hr hid)
  | pool poolId => exact hcol _ _ fun o ho => (hown.2.1 o ho).trans hid
  | committee ccCred => exact hcol _ _ fun o ho => (hown.2.2 o ho).trans hid

/-- **An upsert** of one credential: afterwards the account of this id is there, and holds it where
it may. -/
theorem upsertUser_effect (hown : ∀ r ∈ users.rows, r.Own)
    (h : upsertUser users (identity.authArgs roles now signupRef) identity.id = some users') :
    UsersGrow users users' ∧ (∀ r ∈ users'.rows, r.Own) ∧
      (∃ r ∈ users'.rows, r.id = identity.id) ∧
      (MayHold users identity → Holding users' identity.id identity) := by
  rw [upsertUser] at h
  split_ifs at h with htaken
  · have hrows := PartlyKeyedTable.update_eq_some h
    obtain ⟨u, hu, hid⟩ := List.mem_map.mp htaken
    have hmem := Table.mem_updateWhere_of_mem (fun r : UserRow => r.id == identity.id)
      (identity.authArgs roles now signupRef).merge hu
    rw [if_pos (beq_iff_eq.mpr hid), ← hrows] at hmem
    exact ⟨usersGrow_updateWhere hrows fun r _ => merge_grows _ r,
      own_updateWhere hrows (fun r hp => merge_own (beq_iff_eq.mp hp)) hown, ⟨_, hmem, hid⟩,
      fun hmay => ⟨_, hmem, hid, merge_holds hu hid (hown u hu) hmay⟩⟩
  · obtain ⟨hrows, -⟩ := PartlyKeyedTable.insert_eq_some h
    have hmem : (identity.authArgs roles now signupRef).row identity.id ∈ users'.rows :=
      hrows ▸ List.mem_append_right _ (List.mem_singleton_self _)
    refine ⟨fun r hr => ⟨r, hrows ▸ List.mem_append_left _ hr, .refl r⟩, fun r hr => ?_,
      ⟨_, hmem, rfl⟩, fun _ => ⟨_, hmem, rfl, row_holds ..⟩⟩
    rw [hrows] at hr
    rcases List.mem_append.mp hr with hr | hr
    · exact hown r hr
    · exact List.mem_singleton.mp hr ▸ row_own ..

theorem upsertUser_eq_none
    (h : upsertUser users (identity.authArgs roles now signupRef) identity.id = none) :
    ∃ stakeAddr, identity = .stake stakeAddr ∧
      ∃ r ∈ users.rows, r.id ≠ stakeAddr ∧ r.stakeAddr = some stakeAddr := by
  rw [upsertUser] at h
  split_ifs at h with htaken
  · obtain ⟨r, hr, hid, hdiff, c, hc, r', hr', hne, hheld⟩ :=
      PartlyKeyedTable.update_eq_none (fun r hp => beq_iff_eq.mp hp) h
    have hcol : r.stakeAddr = none ∧ ∃ stakeAddr, identity = .stake stakeAddr := by
      rcases hold : r.stakeAddr with _ | old
      · refine ⟨rfl, ?_⟩
        cases identity with
        | stake stakeAddr => exact ⟨stakeAddr, rfl⟩
        | drep | pool | committee =>
          refine absurd ?_ hdiff
          simp [AuthArgs.merge, Identity.authArgs, hold]
      · refine absurd ?_ hdiff
        simp [AuthArgs.merge, hold]
    obtain ⟨hnone, stakeAddr, rfl⟩ := hcol
    obtain rfl : stakeAddr = c := by simpa [AuthArgs.merge, Identity.authArgs, hnone] using hc
    refine ⟨stakeAddr, rfl, r', hr', fun hid' => hne ?_, hheld⟩
    exact users.toKeyedTable.eq_of_key hr' hr (hid'.trans (beq_iff_eq.mp hid).symm)
  · obtain hin | ⟨c, hc, hmem⟩ := PartlyKeyedTable.insert_eq_none.mp h
    · exact absurd hin htaken
    · cases identity with
      | stake stakeAddr =>
        obtain ⟨r, hr, hheld⟩ := List.mem_filterMap.mp hmem
        obtain rfl : stakeAddr = c := by simpa [AuthArgs.row, Identity.authArgs] using hc
        exact ⟨stakeAddr, rfl, r, hr, fun hid => htaken (List.mem_map.mpr ⟨r, hr, hid⟩), hheld⟩
      | drep | pool | committee => simp [AuthArgs.row, Identity.authArgs] at hc

/-! ### Where stake addresses come from -/

/-- The row's stake address was there before. -/
def HadStake (users : UserTable) (r' : UserRow) (stakeAddr : String) : Prop :=
  ∃ r ∈ users.rows, r.id = r'.id ∧ r.stakeAddr = some stakeAddr

variable {r' : UserRow}

theorem hadStake_updateWhere (hrows : users'.rows = Table.updateWhere p f users.rows)
    (hid : ∀ r, (f r).id = r.id) (hr' : r' ∈ users'.rows) (hstake : r'.stakeAddr = some stakeAddr) :
    HadStake users r' stakeAddr ∨ ∃ r ∈ users.rows, p r = true ∧ f r = r' ∧
      r.stakeAddr ≠ some stakeAddr := by
  rw [hrows] at hr'
  obtain ⟨r, hr, rfl⟩ := List.mem_map.mp hr'
  split_ifs at hstake ⊢ with hp
  · by_cases hsame : r.stakeAddr = some stakeAddr
    · exact .inl ⟨r, hr, (hid r).symm, hsame⟩
    · exact .inr ⟨r, hr, hp, rfl, hsame⟩
  · exact .inl ⟨r, hr, rfl, hstake⟩

theorem touchUser_stakes (hr' : r' ∈ (touchUser users userId now).rows)
    (hstake : r'.stakeAddr = some stakeAddr) :
    HadStake users r' stakeAddr := by
  rcases hadStake_updateWhere
      (show (touchUser users userId now).rows = _ from rfl) (fun _ => rfl) hr' hstake
    with h | ⟨r, -, -, rfl, hne⟩
  · exact h
  · exact absurd hstake hne

theorem fillName_stakes (hr' : r' ∈ (fillName users grants args).rows)
    (hstake : r'.stakeAddr = some stakeAddr) : HadStake users r' stakeAddr := by
  rcases hadStake_updateWhere
      (show (fillName users grants args).rows = _ from rfl) (fun _ => rfl) hr' hstake
    with h | ⟨r, -, -, rfl, hne⟩
  · exact h
  · exact absurd hstake hne

theorem linkStakeAddr_stakes {other : String} {returned : Bool}
    (h : linkStakeAddr users userId stakeAddr = some (users', returned)) (hr' : r' ∈ users'.rows)
    (hstake : r'.stakeAddr = some other) :
    HadStake users r' other ∨ other = stakeAddr ∧ r'.id = userId := by
  obtain ⟨users'', hupdate, heq⟩ := Option.map_eq_some_iff.mp h
  cases heq
  refine (hadStake_updateWhere (PartlyKeyedTable.update_eq_some hupdate) (fun _ => rfl) hr'
    hstake).imp_right ?_
  rintro ⟨r, -, hp, rfl, -⟩
  rw [linksTo, Bool.and_eq_true, beq_iff_eq] at hp
  exact ⟨(Option.some.inj hstake).symm, hp.1⟩

theorem upsertUser_stakes
    (h : upsertUser users (identity.authArgs roles now signupRef) identity.id = some users')
    (hr' : r' ∈ users'.rows) (hstake : r'.stakeAddr = some stakeAddr) :
    HadStake users r' stakeAddr ∨ identity = .stake stakeAddr ∧ r'.id = stakeAddr := by
  have hnew : ∀ addr, (identity.authArgs roles now signupRef).stakeAddr = some addr →
      identity = .stake addr := by
    intro addr haddr
    cases identity <;> cases haddr
    rfl
  rw [upsertUser] at h
  split_ifs at h with htaken
  · refine (hadStake_updateWhere (PartlyKeyedTable.update_eq_some h) (fun _ => rfl) hr'
      hstake).imp_right ?_
    rintro ⟨r, -, hp, rfl, hne⟩
    have hid : r.id = identity.id := beq_iff_eq.mp hp
    rcases hold : r.stakeAddr with _ | old
    · have hstake' := hnew stakeAddr (by simpa [AuthArgs.merge, hold] using hstake)
      exact ⟨hstake', hid.trans (congrArg Identity.id hstake')⟩
    · exact absurd (by simpa [AuthArgs.merge, hold] using hstake) (hold ▸ hne)
  · obtain ⟨hrows, -⟩ := PartlyKeyedTable.insert_eq_some h
    rw [hrows] at hr'
    rcases List.mem_append.mp hr' with hr' | hr'
    · exact .inl ⟨r', hr', rfl, hstake⟩
    · obtain rfl := List.mem_singleton.mp hr'
      exact .inr ⟨hnew stakeAddr hstake, congrArg Identity.id (hnew stakeAddr hstake)⟩

end DrepTalk
