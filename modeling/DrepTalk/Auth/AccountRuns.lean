import DrepTalk.Auth.ProofRuns

/-!
# Accounts under interleaved requests

The same requests as in `ProofRuns`, and what they make of accounts. Two resolvers find the account
of a stake address by different keys: `resolveDelegatorAccount` by the column, and reads again where
its insert breaks the unique index; `finishLogin` by the id of the row, and does not. So a stake key
that was linked to another account first cannot log in by the proposer's door (`not_logins_return`).

**What logins come to** (`logins_return`). Where no login takes that path (`accountsFree`), whatever
a request holds of an account it has resolved stays true (`AccountAsserts`), each statement past the
checks goes on (`login_goes_on`), and the session belongs to the account that holds the credential.
-/

namespace DrepTalk

/-! ### What a call knows of accounts -/

/-- The account that a call has found or written. -/
def DoorProc.account : DoorProc → Option String
  | .upserted _ identity _ => some identity.id
  | .grantOf _ _ _ user | .following _ _ user | .followed _ _ user | .delegatorGrant _ _ user |
    .selfInvite _ user _ | .claiming _ user _ => some user.id
  | .touching _ _ _ userId | .touched _ _ _ userId => some userId
  | .created _ stakeAddr _ => some stakeAddr
  | .minting _ _ session => some session.id
  | _ => none

/-- The stake address whose insert has failed on the unique index. -/
def DoorProc.raced : DoorProc → Option String
  | .rereading _ stakeAddr _ false => some stakeAddr
  | _ => none

/-- What a call has answered, past its checks. -/
def DoorProc.answer : DoorProc → Option (Proven × ProofAnswer)
  | .answered p _ answer => some (p, answer)
  | _ => none

def Door.logsIn : Door → Bool
  | .delegator | .coProposer _ => true
  | .redeemGrant _ _ => false

/-- The statements that a login has left at most, once its signature and its role are checked. -/
def DoorProc.left : DoorProc → Option ℕ
  | .minting _ _ _ => some 1
  | .grantOf _ _ _ _ | .delegatorGrant _ _ _ => some 2
  | .upserted _ _ _ | .followed _ _ _ => some 3
  | .upserting _ _ _ _ | .following _ _ _ => some 4
  | .touched _ _ door _ => if door.logsIn then some 5 else none
  | .touching _ _ door _ => if door.logsIn then some 6 else none
  | .rereading _ _ door false => if door.logsIn then some 7 else none
  | .created _ _ door => if door.logsIn then some 8 else none
  | .creating _ _ door => if door.logsIn then some 9 else none
  | .resolving _ _ door => if door.logsIn then some 10 else none
  | _ => none

/-- What holds of accounts in every run. -/
structure AccountsSafe (w : LoginWorld) : Prop where
  own : ∀ r ∈ w.users.rows, r.Own
  follows : ∀ f ∈ w.follows.rows, Holding w.users f.userId (.stake f.stakeAddr)
  sessions : ∀ c ∈ w.successes, ∀ user ∈ c.session, Holding w.users user.id c.identity

structure AccountAsserts (w : LoginWorld) (l : DoorProc) : Prop where
  holds : ∀ id ∈ l.account, ∀ identity ∈ l.identity, Holding w.users id identity
  raced : ∀ stakeAddr ∈ l.raced, ∃ id, Holding w.users id (.stake stakeAddr)
  answers : ∀ a ∈ l.answer, a.1.purpose.aim = .login → ∃ user, a.2 = .session user

/-- Of accounts, the call knows nothing yet, or nothing any more. -/
structure DoorProc.Unresolved (l : DoorProc) : Prop where
  account : l.account = none
  raced : l.raced = none
  answer : l.answer = none

/-- The credential that `finishLogin` is about to upsert. -/
def DoorProc.upserts : DoorProc → Option Identity
  | .upserting _ identity _ _ => some identity
  | _ => none

/-- The stake address that `resolveDelegatorAccount` is about to insert. -/
def DoorProc.creates : DoorProc → Option String
  | .creating _ stakeAddr _ => some stakeAddr
  | _ => none

/-- No other account has been linked to the credential. -/
def LinkedNowhere (users : UserTable) : Identity → Prop
  | .stake stakeAddr => ∀ r ∈ users.rows, r.stakeAddr = some stakeAddr → r.id = stakeAddr
  | _ => True

instance (users : UserTable) : DecidablePred (LinkedNowhere users)
  | .stake _ => List.decidableBAll _ _
  | .drep _ | .pool _ | .committee _ => isTrue trivial

instance (users : UserTable) : DecidablePred (MayHold users)
  | .stake _ => List.decidableBAll _ _
  | .drep _ | .pool _ | .committee _ => isTrue trivial

/-- **The condition.** `finishLogin` upserts no stake address that another account holds, and none
onto a row that holds another. -/
def accountsFree : Program.Condition LoginWorld DoorProc where
  state _ := True
  mover w l :=
    (∀ identity ∈ l.upserts, identity.id ≠ "" ∧ MayHold w.users identity ∧
      LinkedNowhere w.users identity) ∧
    ∀ stakeAddr ∈ l.creates, stakeAddr ≠ "" ∧ MayHold w.users (.stake stakeAddr)
  others _ _ _ := True

/-- Nothing has been issued yet; the accounts are as logins have left them. -/
def AccountsStart (w : LoginWorld) : Prop := w.Fresh ∧ AccountsSafe w

variable {env : LoginEnv} {w w' : LoginWorld} {l l' : DoorProc} {p : Proven}

theorem forall_mem_none {α : Type*} {P : α → Prop} : ∀ a ∈ (none : Option α), P a :=
  nofun

theorem AccountAsserts.of_unresolved (h : l.Unresolved) : AccountAsserts w l := by
  refine ⟨fun id hid => ?_, fun a ha => ?_, fun a ha => ?_⟩
  · cases h.account.symm.trans hid
  · cases h.raced.symm.trans ha
  · cases h.answer.symm.trans ha

variable {id : String} {identity : Identity}

theorem AccountAsserts.of_holding (h : Holding w.users id identity)
    (haccount : l.account = some id := by rfl) (hidentity : l.identity = some identity := by rfl)
    (hraced : l.raced = none := by rfl) (hanswer : l.answer = none := by rfl) :
    AccountAsserts w l := by
  refine ⟨fun id' hid identity' hidentity' => ?_, fun a ha => ?_, fun a ha => ?_⟩
  · cases haccount.symm.trans hid
    cases hidentity.symm.trans hidentity'
    exact h
  · cases hraced.symm.trans ha
  · cases hanswer.symm.trans ha

theorem AccountAsserts.of_answer {answer : ProofAnswer}
    (h : p.purpose.aim = .login → ∃ user, answer = .session user) :
    AccountAsserts w (.answered p identity answer) := by
  refine ⟨forall_mem_none, forall_mem_none, ?_⟩
  rintro _ ⟨⟩
  exact h

theorem AccountAsserts.mono (h : AccountAsserts w l) (hgrow : UsersGrow w.users w'.users) :
    AccountAsserts w' l := by
  refine ⟨fun id hid identity hidentity => (h.holds id hid identity hidentity).mono hgrow,
    fun a ha => ?_, h.answers⟩
  obtain ⟨id, hholds⟩ := h.raced a ha
  exact ⟨id, hholds.mono hgrow⟩

theorem AccountsSafe.grow (h : AccountsSafe w) (hgrow : UsersGrow w.users w'.users)
    (hown : ∀ r ∈ w'.users.rows, r.Own) (hfollows : w'.follows = w.follows)
    (hsuccesses : w'.successes = w.successes) : AccountsSafe w' :=
  ⟨hown, fun f hf => (h.follows f (hfollows ▸ hf)).mono hgrow,
    fun c hc user huser => (h.sessions c (hsuccesses ▸ hc) user huser).mono hgrow⟩

theorem AccountsSafe.of_eq (h : AccountsSafe w) (husers : w'.users = w.users)
    (hfollows : w'.follows = w.follows) (hsuccesses : w'.successes = w.successes) :
    AccountsSafe w' :=
  h.grow (husers ▸ .refl _) (husers ▸ h.own) hfollows hsuccesses

/-! ### Lookups -/

variable {users : UserTable} {stakeAddr : String}

theorem holding_of_getUserByStakeAddr {user : UserRow}
    (h : getUserByStakeAddr users stakeAddr = some user) :
    Holding users user.id (.stake stakeAddr) :=
  ⟨user, List.mem_of_find?_eq_some h, rfl,
    beq_iff_eq.mp (List.find?_some (p := fun r : UserRow => r.stakeAddr == some stakeAddr) h)⟩

theorem getUserByStakeAddr_of_holding (h : Holding users id (.stake stakeAddr)) :
    ∃ user, getUserByStakeAddr users stakeAddr = some user := by
  obtain ⟨r, hr, -, hholds⟩ := h
  rcases hfind : getUserByStakeAddr users stakeAddr with _ | user
  · exact absurd (beq_iff_eq.mpr hholds) (List.find?_eq_none.mp hfind r hr)
  · exact ⟨user, rfl⟩

theorem getUserById_of_holding (h : Holding users id identity) :
    ∃ user, getUserById users id = some user ∧ user.id = id := by
  obtain ⟨r, hr, rfl, -⟩ := h
  rcases hfind : getUserById users r.id with _ | user
  · exact absurd (beq_iff_eq.mpr rfl) (List.find?_eq_none.mp hfind r hr)
  · exact ⟨user, rfl, beq_iff_eq.mp (List.find?_some (p := fun u : UserRow => u.id == r.id) hfind)⟩

/-! ### What a statement does -/

/-- What a statement of a checked request does: accounts stay safe, and grow; a login goes on to a
statement nearer to its session, or answers with it. -/
structure AccountStep (w : LoginWorld) (l : DoorProc) (w' : LoginWorld) (l' : DoorProc) : Prop where
  grow : UsersGrow w.users w'.users
  safe : AccountsSafe w'
  asserts : AccountAsserts w' l'
  left : ∀ n ∈ l.left, (∃ m ∈ l'.left, m < n) ∨ ∃ p user, l'.answer = some (p, .session user)

theorem AccountStep.on (hw : AccountsSafe w) (hasserts : AccountAsserts w' l')
    (hleft : ∀ n ∈ l.left, ∃ m ∈ l'.left, m < n) (husers : w'.users = w.users := by rfl)
    (hfollows : w'.follows = w.follows := by rfl)
    (hsuccesses : w'.successes = w.successes := by rfl) : AccountStep w l w' l' :=
  ⟨husers ▸ .refl _, hw.of_eq husers hfollows hsuccesses, hasserts, fun n hn => .inl (hleft n hn)⟩

theorem AccountStep.other (hw : AccountsSafe w) (hasserts : AccountAsserts w' l')
    (hleft : l.left = none := by rfl) (husers : w'.users = w.users := by rfl)
    (hfollows : w'.follows = w.follows := by rfl)
    (hsuccesses : w'.successes = w.successes := by rfl) : AccountStep w l w' l' :=
  .on hw hasserts (hleft ▸ forall_mem_none) husers hfollows hsuccesses

theorem upsertUser_free (roles : List AuthRole) (now : ℤ) (signupRef : Option String)
    (hfree : LinkedNowhere w.users identity) :
    ∃ users, upsertUser w.users (identity.authArgs roles now signupRef) identity.id = some users := by
  rcases hupsert : upsertUser w.users (identity.authArgs roles now signupRef) identity.id
    with _ | users
  · obtain ⟨stakeAddr, rfl, r, hr, hne, hheld⟩ := upsertUser_eq_none hupsert
    exact absurd (hfree r hr hheld) hne
  · exact ⟨users, rfl⟩

theorem accountResolved_step (p : Proven) {user : UserRow} (door : Door)
    (h : Holding w.users user.id (.stake stakeAddr)) :
    AccountAsserts w (accountResolved p stakeAddr user door) ∧
      (door.logsIn = true → ∃ m ∈ (accountResolved p stakeAddr user door).left, m ≤ 4) := by
  cases door with
  | delegator => exact ⟨.of_holding h, fun _ => ⟨4, rfl, le_rfl⟩⟩
  | coProposer => exact ⟨.of_holding h, fun _ => ⟨1, rfl, by decide⟩⟩
  | redeemGrant => exact ⟨.of_holding h, fun hlogin => Bool.noConfusion hlogin⟩

theorem left_of_logsIn {door : Door} {k n : ℕ} (h : n ∈ if door.logsIn then some k else none) :
    door.logsIn = true ∧ n = k := by
  split_ifs at h with hdoor
  · exact ⟨hdoor, (Option.some.inj h).symm⟩
  · cases h

theorem accountStep_accounts {now : ℕ} (hw : AccountsSafe w) (hl : AccountAsserts w l)
    (hmover : accountsFree.mover w l) (h : accountStep now w l = some (w', l')) :
    AccountStep w l w' l' := by
  cases l with
  | upserting p identity roles modRole =>
    obtain ⟨hne, hmay, hfree⟩ := hmover.1 identity rfl
    have hid : (identity.authArgs roles now p.purpose.signupRef).id = some identity.id := by
      rw [Identity.authArgs_id, Option.filter_some, if_pos (bne_iff_ne.mpr hne)]
    obtain ⟨users, hupsert⟩ := upsertUser_free roles now p.purpose.signupRef hfree
    simp only [accountStep, hid, hupsert] at h
    cases h
    obtain ⟨hgrow, hown, -, hholds⟩ := upsertUser_effect hw.own hupsert
    exact ⟨hgrow, hw.grow hgrow hown rfl rfl, .of_holding (hholds hmay),
      by rintro _ ⟨⟩; exact .inl ⟨3, rfl, by decide⟩⟩
  | upserted p identity modRole =>
    obtain ⟨user, huser, hid⟩ := getUserById_of_holding (hl.holds _ rfl _ rfl)
    simp only [accountStep, huser] at h
    cases h
    refine .on hw (.of_holding (hid ▸ hl.holds _ rfl _ rfl)) ?_
    rintro _ ⟨⟩
    exact ⟨2, rfl, by decide⟩
  | resolving p stakeAddr door =>
    rw [accountStep] at h
    split at h <;> cases h
    · refine .on hw (.of_unresolved ⟨rfl, rfl, rfl⟩) fun n hn => ?_
      obtain ⟨hdoor, rfl⟩ := left_of_logsIn hn
      exact ⟨9, if_pos hdoor, by decide⟩
    · next user huser =>
      refine .on hw
        (.of_holding (holding_of_getUserByStakeAddr huser)) fun n hn => ?_
      obtain ⟨hdoor, rfl⟩ := left_of_logsIn hn
      exact ⟨6, if_pos hdoor, by decide⟩
  | touching p stakeAddr door userId =>
    cases h
    have hgrow := touchUser_grow w.users userId now
    refine ⟨hgrow, hw.grow hgrow (touchUser_own hw.own) rfl rfl,
      .of_holding ((hl.holds _ rfl _ rfl).mono hgrow), fun n hn => .inl ?_⟩
    obtain ⟨hdoor, rfl⟩ := left_of_logsIn hn
    exact ⟨5, if_pos hdoor, by decide⟩
  | touched p stakeAddr door userId =>
    obtain ⟨user, huser, hid⟩ := getUserById_of_holding (hl.holds _ rfl _ rfl)
    simp only [accountStep, huser] at h
    cases h
    have hheld := hl.holds _ rfl _ rfl
    rw [← hid] at hheld
    obtain ⟨hasserts, hleft⟩ := accountResolved_step p door hheld
    refine .on hw hasserts fun n hn => ?_
    obtain ⟨hdoor, rfl⟩ := left_of_logsIn hn
    obtain ⟨m, hm, hle⟩ := hleft hdoor
    exact ⟨m, hm, by omega⟩
  | creating p stakeAddr door =>
    obtain ⟨hne, hmay⟩ := hmover.2 stakeAddr rfl
    have hid : ((Identity.stake stakeAddr).authArgs [] now (door.signupRef p.purpose)).id =
        some stakeAddr := by
      rw [Identity.authArgs_id, Option.filter_some]
      exact if_pos (bne_iff_ne.mpr hne)
    rcases hupsert : upsertUser w.users
        ((Identity.stake stakeAddr).authArgs [] now (door.signupRef p.purpose)) stakeAddr
      with _ | users
    all_goals
      simp only [accountStep, hid, hupsert] at h
      cases h
    · obtain ⟨addr, haddr, r, hr, -, hheld⟩ := upsertUser_eq_none hupsert
      cases haddr
      refine .on hw ⟨forall_mem_none, ?_, forall_mem_none⟩ fun n hn => ?_
      · rintro _ ⟨⟩
        exact ⟨r.id, r, hr, rfl, hheld⟩
      · obtain ⟨hdoor, rfl⟩ := left_of_logsIn hn
        exact ⟨7, if_pos hdoor, by decide⟩
    · obtain ⟨hgrow, hown, -, hholds⟩ := upsertUser_effect hw.own hupsert
      refine ⟨hgrow, hw.grow hgrow hown rfl rfl, .of_holding (hholds hmay),
        fun n hn => .inl ?_⟩
      obtain ⟨hdoor, rfl⟩ := left_of_logsIn hn
      exact ⟨8, if_pos hdoor, by decide⟩
  | created p stakeAddr door =>
    obtain ⟨user, huser, hid⟩ := getUserById_of_holding (hl.holds _ rfl _ rfl)
    simp only [accountStep, huser] at h
    cases h
    have hheld : Holding w.users stakeAddr (.stake stakeAddr) := hl.holds _ rfl _ rfl
    nth_rewrite 1 [← hid] at hheld
    obtain ⟨hasserts, hleft⟩ := accountResolved_step p door hheld
    refine .on hw hasserts fun n hn => ?_
    obtain ⟨hdoor, rfl⟩ := left_of_logsIn hn
    obtain ⟨m, hm, hle⟩ := hleft hdoor
    exact ⟨m, hm, by omega⟩
  | rereading p stakeAddr door broken =>
    rw [accountStep] at h
    split at h
    · next hnone =>
      cases broken with
      | true =>
        cases h
        exact ⟨.refl _, hw, .of_unresolved ⟨rfl, rfl, rfl⟩, forall_mem_none⟩
      | false =>
        -- the index has said that somebody holds the address
        obtain ⟨id, hholds⟩ := hl.raced stakeAddr rfl
        obtain ⟨user, huser⟩ := getUserByStakeAddr_of_holding hholds
        cases hnone.symm.trans huser
    · next user huser =>
      cases h
      refine .on hw
        (.of_holding (holding_of_getUserByStakeAddr huser)) fun n hn => ?_
      cases broken with
      | true => cases hn
      | false =>
        obtain ⟨hdoor, rfl⟩ := left_of_logsIn hn
        exact ⟨6, if_pos hdoor, by decide⟩
  | _ => cases h

theorem mem_insertFollow {follows follows' : DelegatorFollowTable} {userId : String}
    {f : DelegatorFollowRow} (h : insertFollow follows userId stakeAddr = some follows')
    (hf : f ∈ follows'.rows) : f ∈ follows.rows ∨ f = newFollow userId stakeAddr := by
  rw [insertFollow] at h
  split_ifs at h
  cases h
  exact (KeyedTable.mem_insertOrIgnore.mp hf).imp_right And.left

theorem insertFollow_isSome {user : String} (hw : AccountsSafe w)
    (h : Holding w.users user (.stake stakeAddr)) :
    ∃ follows, insertFollow w.follows user stakeAddr = some follows := by
  rcases hinsert : insertFollow w.follows user stakeAddr with _ | follows
  · rw [insertFollow] at hinsert
    split_ifs at hinsert with hbroken
    rw [Bool.and_eq_true, Bool.not_eq_true', List.contains_eq_mem, List.contains_eq_mem,
      decide_eq_false_iff_not, decide_eq_true_eq] at hbroken
    obtain ⟨f, hf, hstake⟩ := List.mem_map.mp hbroken.2
    have hother := hw.follows f hf
    rw [hstake] at hother
    exact absurd (List.mem_map.mpr ⟨f, hf, hother.eq h⟩) hbroken.1
  · exact ⟨follows, rfl⟩

theorem sessionStep_accounts (hw : AccountsSafe w) (hl : AccountAsserts w l)
    (h : sessionStep w l = some (w', l')) : AccountStep w l w' l' := by
  have hwithout : ∀ p a modRole, (withoutGrant p a modRole).Unresolved := by
    intro p a modRole
    rw [withoutGrant]
    split_ifs <;> exact ⟨rfl, rfl, rfl⟩
  cases l with
  | grantee p stakeAddr modRole =>
    rw [sessionStep] at h
    split at h <;> cases h
    · exact .other hw (.of_unresolved (hwithout ..))
    · exact .other hw (.of_unresolved ⟨rfl, rfl, rfl⟩)
  | granteeGrant p stakeAddr modRole userId =>
    rw [sessionStep] at h
    split at h <;> cases h
    · exact .other hw (.of_unresolved ⟨rfl, rfl, rfl⟩)
    · exact .other hw (.of_unresolved (hwithout ..))
  | grantOf p identity modRole user | delegatorGrant p stakeAddr user =>
    cases h
    refine .on hw (.of_holding (hl.holds _ rfl _ rfl)) ?_
    rintro _ ⟨⟩
    exact ⟨1, rfl, by decide⟩
  | following p stakeAddr user =>
    have hholds : Holding w.users user.id (.stake stakeAddr) := hl.holds _ rfl _ rfl
    obtain ⟨follows, hinsert⟩ := insertFollow_isSome hw hholds
    simp only [sessionStep, hinsert] at h
    cases h
    refine ⟨.refl _, ⟨hw.own, fun f hf => ?_, hw.sessions⟩, .of_holding hholds, ?_⟩
    · rcases mem_insertFollow hinsert hf with hf | rfl
      · exact hw.follows f hf
      · exact hholds
    · rintro _ ⟨⟩
      exact .inl ⟨3, rfl, by decide⟩
  | followed p stakeAddr user =>
    have hholds : Holding w.users user.id (.stake stakeAddr) := hl.holds _ rfl _ rfl
    have hgoes : AccountStep w (.followed p stakeAddr user) w (.delegatorGrant p stakeAddr user) := by
      refine .on hw (.of_holding hholds) ?_
      rintro _ ⟨⟩
      exact ⟨2, rfl, by decide⟩
    rw [sessionStep] at h
    split at h
    · next f hfind =>
      -- the row that is there was made for the address that the account holds
      have hf := hw.follows f (List.mem_of_find?_eq_some hfind)
      have hid : f.userId = user.id :=
        beq_iff_eq.mp (List.find?_some (p := fun f : DelegatorFollowRow => f.userId == user.id) hfind)
      rw [hid] at hf
      rw [if_neg (not_not.mpr (hf.stake_eq hholds))] at h
      cases h
      exact hgoes
    · cases h
      exact hgoes
  | minting p identity session =>
    cases h
    refine ⟨.refl _, ⟨hw.own, hw.follows, fun c hc user huser => ?_⟩,
      .of_answer fun _ => ⟨session, rfl⟩, ?_⟩
    · rcases List.mem_append.mp hc with hc | hc
      · exact hw.sessions c hc user huser
      · obtain rfl := List.mem_singleton.mp hc
        cases huser
        exact hl.holds _ rfl _ rfl
    · rintro _ ⟨⟩
      exact .inr ⟨p, session, rfl⟩
  | _ => cases h

theorem redeem_ne_login (grantId : String) : Aim.redeem grantId ≠ .login := Aim.noConfusion

theorem link_ne_login (userId : String) : Aim.link userId ≠ .login := Aim.noConfusion

theorem answered_other {answer : ProofAnswer} {aim : Aim} (haim : aim = p.purpose.aim)
    (hne : aim ≠ .login) :
    AccountAsserts w (.answered p identity answer) :=
  .of_answer fun hlogin => absurd (haim.trans hlogin) hne

theorem redeemStep_accounts {now : ℕ} (hw : AccountsSafe w) (hl : AccountAsserts w l)
    (haim : ∀ p ∈ l.proof, ∀ aim ∈ l.aim, aim = p.purpose.aim)
    (h : redeemStep now w l = some (w', l')) : AccountStep w l w' l' := by
  cases l with
  | selfInvite p user args =>
    cases h
    split_ifs
    · exact .other hw (answered_other (haim p rfl _ rfl) (redeem_ne_login _))
    · exact .other hw (.of_holding (hl.holds _ rfl _ rfl))
  | claiming p user args =>
    rw [redeemStep] at h
    split at h
    · cases h
      exact .other hw (.of_unresolved ⟨rfl, rfl, rfl⟩)
    · next db row _ =>
      cases h
      have hgrow := fillName_grow w.users db.grants args
      refine ⟨hgrow, hw.grow hgrow (fillName_own hw.own) rfl rfl, ?_, forall_mem_none⟩
      rcases row with _ | row
      · exact answered_other (haim p rfl _ rfl) (redeem_ne_login _)
      · exact .of_holding
          ((hl.holds _ rfl _ rfl : Holding w.users user.id (.stake args.coStakeAddr)).mono hgrow)
  | dropping p args =>
    cases h
    exact .other hw (answered_other (haim p rfl _ rfl) (redeem_ne_login _))
  | _ => cases h

theorem linkStep_accounts (hw : AccountsSafe w)
    (haim : ∀ p ∈ l.proof, ∀ aim ∈ l.aim, aim = p.purpose.aim)
    (h : linkStep w l = some (w', l')) : AccountStep w l w' l' := by
  cases l with
  | linking p userId stakeAddr =>
    rw [linkStep] at h
    split at h
    · cases h
      exact .other hw (.of_unresolved ⟨rfl, rfl, rfl⟩)
    · next users hlink =>
      cases h
      obtain ⟨hgrow, hown, -⟩ := linkStakeAddr_effect hlink
      refine ⟨hgrow, ⟨hown hw.own, fun f hf => (hw.follows f hf).mono hgrow,
        fun c hc user huser => ?_⟩, answered_other (haim p rfl _ rfl) (link_ne_login _),
        forall_mem_none⟩
      rcases List.mem_append.mp hc with hc | hc
      · exact (hw.sessions c hc user huser).mono hgrow
      · obtain rfl := List.mem_singleton.mp hc
        cases huser
    · next users hlink =>
      cases h
      obtain ⟨hgrow, hown, -⟩ := linkStakeAddr_effect hlink
      exact ⟨hgrow, hw.grow hgrow (hown hw.own) rfl rfl, .of_unresolved ⟨rfl, rfl, rfl⟩,
        forall_mem_none⟩
  | linkOwner p userId stakeAddr =>
    rw [linkStep] at h
    split at h
    · split at h <;> cases h
      all_goals
        exact .other hw (answered_other (haim p rfl _ rfl) (link_ne_login _))
    · cases h
      exact .other hw (answered_other (haim p rfl _ rfl) (link_ne_login _))
  | linkSelf p userId stakeAddr =>
    rw [linkStep] at h
    split at h
    · cases h
      exact .other hw (answered_other (haim p rfl _ rfl) (link_ne_login _))
    · split at h <;> cases h
      · refine ⟨.refl _, ⟨hw.own, hw.follows, fun c hc user huser => ?_⟩,
          answered_other (haim p rfl _ rfl) (link_ne_login _), forall_mem_none⟩
        rcases List.mem_append.mp hc with hc | hc
        · exact hw.sessions c hc user huser
        · obtain rfl := List.mem_singleton.mp hc
          cases huser
      · exact .other hw (answered_other (haim p rfl _ rfl) (link_ne_login _))
  | _ => cases h

/-- **A statement of a checked request.** -/
theorem later_accounts (now : ℕ) (hw : AccountsSafe w) (hl : AccountAsserts w l)
    (haim : ∀ p ∈ l.proof, ∀ aim ∈ l.aim, aim = p.purpose.aim) (hmover : accountsFree.mover w l)
    (h : (((accountStep now w l).or (sessionStep w l)).or (redeemStep now w l)).or (linkStep w l) =
      some (w', l')) : AccountStep w l w' l' := by
  rcases Option.or_eq_some_iff.mp h with h | ⟨-, h⟩
  · rcases Option.or_eq_some_iff.mp h with h | ⟨-, h⟩
    · rcases Option.or_eq_some_iff.mp h with h | ⟨-, h⟩
      · exact accountStep_accounts hw hl hmover h
      · exact sessionStep_accounts hw hl h
    · exact redeemStep_accounts hw hl haim h
  · exact linkStep_accounts hw haim h

/-! ### Runs -/

theorem requestReceived_unresolved (request : ProofRequest) :
    (requestReceived request).Unresolved := by
  cases request with
  | verify body =>
    rw [requestReceived]
    rcases verifyProof body with _ | proof <;> exact ⟨rfl, rfl, rfl⟩
  | linkStake userId body =>
    rw [requestReceived]
    rcases linkStakeProof userId body with _ | proof <;> exact ⟨rfl, rfl, rfl⟩
  | redeemGrant body =>
    rw [requestReceived, redeemReceived]
    split
    · next code payload signatureHex keyHex displayName _ _ _ _ _ =>
      split_ifs
      · exact ⟨rfl, rfl, rfl⟩
      · rcases redeemName displayName with _ | name <;> exact ⟨rfl, rfl, rfl⟩
    · exact ⟨rfl, rfl, rfl⟩

theorem walletVerified_unresolved (role : LoginRole) (scriptDrepId : Option Text)
    (address : Bytes) : (walletVerified env p role scriptDrepId address).Unresolved := by
  rw [walletVerified.eq_def]
  split
  · exact ⟨rfl, rfl, rfl⟩
  split
  · split_ifs <;> exact ⟨rfl, rfl, rfl⟩
  · dsimp only
    split_ifs <;> exact ⟨rfl, rfl, rfl⟩
  · split
    · exact ⟨rfl, rfl, rfl⟩
    · split_ifs <;> exact ⟨rfl, rfl, rfl⟩

theorem nonceConsumed_unresolved (proof : SignedProof) : (nonceConsumed env proof).Unresolved := by
  rw [nonceConsumed]
  rcases verifySignature env proof with _ | ⟨pubKey, address⟩
  · exact ⟨rfl, rfl, rfl⟩
  dsimp only
  split
  · split
    · exact walletVerified_unresolved ..
    · rw [rawVerified.eq_def]
      split
      · split_ifs <;> exact ⟨rfl, rfl, rfl⟩
      all_goals exact ⟨rfl, rfl, rfl⟩
  all_goals split <;> exact ⟨rfl, rfl, rfl⟩

theorem roleResolved_unresolved {answer : RoleAnswer} (h : roleResolved env answer l = some l') :
    l'.Unresolved := by
  rw [roleResolved.eq_def] at h
  split at h
  · split at h <;> cases h <;> exact ⟨rfl, rfl, rfl⟩
  · split_ifs at h <;> cases h <;> exact ⟨rfl, rfl, rfl⟩
  · dsimp only at h
    split_ifs at h <;> cases h <;> exact ⟨rfl, rfl, rfl⟩
  · split at h <;> cases h <;> exact ⟨rfl, rfl, rfl⟩
  · split at h <;> cases h <;> exact ⟨rfl, rfl, rfl⟩
  · cases h

theorem loginFails_unresolved (h : loginFails l = some l') : l'.Unresolved := by
  cases l with
  | received | issued | refused | answered | unavailable => cases h
  | _ =>
    cases h
    exact ⟨rfl, rfl, rfl⟩

/-- **Any step**, where the condition is met. -/
theorem doorStep_accounts {event : LoginEvent} (hw : AccountsSafe w) (hl : AccountAsserts w l)
    (haim : ∀ p ∈ l.proof, ∀ aim ∈ l.aim, aim = p.purpose.aim) (hmover : accountsFree.mover w l)
    (h : doorStep env event w l = some (w', l')) :
    UsersGrow w.users w'.users ∧ AccountsSafe w' ∧ AccountAsserts w' l' := by
  have hquiet : w'.users = w.users → w'.follows = w.follows → w'.successes = w.successes →
      l'.Unresolved → UsersGrow w.users w'.users ∧ AccountsSafe w' ∧ AccountAsserts w' l' :=
    fun husers hfollows hsuccesses hl' => ⟨husers ▸ .refl _, hw.of_eq husers hfollows hsuccesses,
      .of_unresolved hl'⟩
  have hlater : AccountStep w l w' l' →
      UsersGrow w.users w'.users ∧ AccountsSafe w' ∧ AccountAsserts w' l' :=
    fun h => ⟨h.grow, h.safe, h.asserts⟩
  cases event with
  | statement now =>
    cases l with
    | redeemChallenge code =>
      rw [doorStep, loginStatement] at h
      split at h
      · cases h
        exact hquiet rfl rfl rfl ⟨rfl, rfl, rfl⟩
      · split at h <;> cases h <;> exact hquiet rfl rfl rfl ⟨rfl, rfl, rfl⟩
    | received request =>
      cases h
      exact hquiet rfl rfl rfl (requestReceived_unresolved request)
    | inviteOf code payload signatureHex keyHex displayName =>
      rw [doorStep, loginStatement] at h
      split at h <;> cases h <;> exact hquiet rfl rfl rfl ⟨rfl, rfl, rfl⟩
    | consuming proof =>
      have hstep : consumeStep env now w proof = (w', l') := Option.some.inj h
      rw [consumeStep] at hstep
      split at hstep <;> cases hstep
      · exact hquiet rfl rfl rfl ⟨rfl, rfl, rfl⟩
      · refine hquiet rfl rfl rfl ?_
        split_ifs
        · exact nonceConsumed_unresolved proof
        · exact ⟨rfl, rfl, rfl⟩
    | _ => exact hlater (later_accounts now hw hl haim hmover h)
  | nonce nonce =>
    cases l with
    | challenge intent =>
      rw [doorStep, issueStep] at h
      split_ifs at h
      dsimp only at h
      split at h <;> cases h <;> exact hquiet rfl rfl rfl ⟨rfl, rfl, rfl⟩
    | _ => cases h
  | koios answer =>
    obtain ⟨l'', hrole, heq⟩ := Option.map_eq_some_iff.mp h
    cases heq
    exact hquiet rfl rfl rfl (roleResolved_unresolved hrole)
  | fails =>
    obtain ⟨l'', hfails, heq⟩ := Option.map_eq_some_iff.mp h
    cases heq
    exact hquiet rfl rfl rfl (loginFails_unresolved hfails)

/-- The parts of the invariant, beside those of `proofsSound`. -/
def accountsSound : (loginProgram env).SoundWhen accountsFree AccountsStart where
  inv w := ProofsSafe env w ∧ AccountsSafe w
  asserts w l := ProofAsserts env w l ∧ AccountAsserts w l
  apart := ProofsApart
  symm l m h := ProofsApart.symm h
  init w h := ⟨proofsSound.init w h.1, h.2⟩
  start w l _ hw h := by
    obtain ⟨hasserts, hapart⟩ := proofsSound.start w l hw.1 h
    exact ⟨⟨hasserts, .of_unresolved (by cases h <;> exact ⟨rfl, rfl, rfl⟩)⟩,
      fun m hm => hapart m hm.1⟩
  step w l w' l' _ hmover hw hl h := by
    obtain ⟨hw', hl'⟩ := proofsSound.step w l w' l' hw.1 hl.1 h
    obtain ⟨event, h⟩ := h
    obtain ⟨-, hsafe, hasserts⟩ := doorStep_accounts hw.2 hl.2 hl.1.aimed hmover h
    exact ⟨⟨hw', hsafe⟩, hl', hasserts⟩
  noninterference w l w' l' m _ hmover _ hw hl hm hapart h := by
    obtain ⟨hm', hapart'⟩ := proofsSound.noninterference w l w' l' m hw.1 hl.1 hm.1 hapart h
    obtain ⟨event, h⟩ := h
    obtain ⟨hgrow, -, -⟩ := doorStep_accounts hw.2 hl.2 hl.1.aimed hmover h
    exact ⟨⟨hm', hm.2.mono hgrow⟩, hapart'⟩
  env w w' _ hw h := by
    obtain ⟨hw', hkept⟩ := proofsSound.env w w' hw.1 h
    obtain ⟨clock, signed, grants, -, -, -, rfl⟩ := h
    exact ⟨⟨hw', hw.2.of_eq rfl rfl rfl⟩, fun m hm => ⟨hkept m hm.1, hm.2.mono (.refl _)⟩⟩

theorem moves_usersGrow {ι : Type*} [DecidableEq ι] {s s' : Interleaved LoginWorld DoorProc ι}
    {move : Move ι} (hs : (((loginProgram env).system ι AccountsStart).restrict
      accountsFree.Met).Reachable s)
    (h : (((loginProgram env).system ι AccountsStart).restrict accountsFree.Met).Step s move s') :
    UsersGrow s.shared.users s'.shared.users := by
  obtain ⟨hinv, hasserts, -⟩ := accountsSound.holds hs
  obtain ⟨hmet, hmoves⟩ := h
  rcases hmoves with - | ⟨hproc, event, hstep⟩ | ⟨-, -, -, -, -, -, rfl⟩
  · exact .refl _
  · obtain ⟨hl, hl'⟩ : ProofAsserts env _ _ ∧ AccountAsserts _ _ := hasserts _ _ hproc
    exact (doorStep_accounts hinv.2 hl' hl.aimed (hmet.2 _ hproc).1 hstep).1
  · exact .refl _

theorem statement_of_left {n : ℕ} (h : n ∈ l.left) (now : ℕ) :
    ∃ w' l', doorStep env (.statement now) w l = some (w', l') ∧
      (((accountStep now w l).or (sessionStep w l)).or (redeemStep now w l)).or (linkStep w l) =
        some (w', l') := by
  have hsame : doorStep env (.statement now) w l =
      (((accountStep now w l).or (sessionStep w l)).or (redeemStep now w l)).or (linkStep w l) := by
    cases l <;> first | rfl | cases h
  have hsome : (accountStep now w l).isSome = true ∨ (sessionStep w l).isSome = true := by
    cases l with
    | upserting | creating =>
      left
      rw [accountStep]
      split
      · rfl
      · split <;> rfl
    | upserted | resolving | touched | created | rereading =>
      left
      rw [accountStep]
      split <;> rfl
    | touching => exact .inl rfl
    | grantOf | delegatorGrant | minting => exact .inr rfl
    | following =>
      right
      rw [sessionStep]
      split <;> rfl
    | followed =>
      right
      rw [sessionStep]
      split
      · split <;> rfl
      · rfl
    | _ => cases h
  obtain ⟨⟨w', l'⟩, hchain⟩ := Option.isSome_iff_exists.mp (show Option.isSome
    ((((accountStep now w l).or (sessionStep w l)).or (redeemStep now w l)).or (linkStep w l)) =
      true by rw [Option.isSome_or, Option.isSome_or, Option.isSome_or]; simpa using .inl (.inl hsome))
  exact ⟨w', l', hsame.trans hchain, hchain⟩

variable {ι : Type*} [DecidableEq ι]

def sampleDrepRow : UserRow where
  id := "ada"
  drepId := some "ada"
  stakeAddr := none
  poolId := none
  ccCred := none
  isDrep := true
  isProposer := false
  isSpo := false
  isCc := false
  displayName := none
  createdAt := 0
  lastVerifiedAt := 0
  signupRef := none

/-- A payload to log in with, after the one that links. -/
def sampleSecondPayload : Text := noncePayload ['x', '.', 'i', 'o'] ['m'] 0

def sampleSecondSig : Bytes :=
  bigEndian 0xd1b191cfe391b108375062580b2ca52a3522c4a3359f5479e9bcd7bf2dede5da 32 ++
    bigEndian 0x94bbcda7aced9d5cb715595130865a38d7d909b3621c59b223397a5936bc7d0c 32

def sampleSecondCose : Bytes :=
  0x84 :: sampleBstr sampleProtected ++ [0xa0] ++ sampleBstr (utf8Encode sampleSecondPayload) ++
    sampleBstr sampleSecondSig

def sampleSignatures : List (Bytes × Bytes) :=
  [(sampleLinkSig, sampleSigned (utf8Encode sampleLinkPayload)),
    (sampleSecondSig, sampleSigned (utf8Encode sampleSecondPayload))]

def sampleTwiceEnv : LoginEnv :=
  { sampleLoginEnv with
    decode := fun bytes =>
      if bytes = sampleSecondCose then
        some (.array [.bytes sampleProtected, .map [], .bytes (utf8Encode sampleSecondPayload),
          .bytes sampleSecondSig])
      else sampleLoginEnv.decode bytes
    verifyEd25519 := fun sig msg pubKey =>
      pubKey == sampleKey && sampleSignatures.contains (sig, msg) }

def sampleDrepDoors : LoginWorld :=
  { sampleDoors with users := ⟨⟨[sampleDrepRow], by decide⟩, by decide⟩ }

theorem sampleDrepDoors_start : AccountsStart sampleDrepDoors := by
  have hown : ∀ r ∈ [sampleDrepRow], r.Own := by
    intro r hr
    obtain rfl := List.mem_singleton.mp hr
    simp [UserRow.Own, sampleDrepRow]
  exact ⟨⟨⟨rfl, Nat.zero_le _, rfl, rfl⟩, rfl, rfl⟩, hown, fun f hf => absurd hf List.not_mem_nil,
    fun _ h => by cases h⟩

instance (w : LoginWorld) (l : DoorProc) : Decidable (accountsFree.mover w l) :=
  inferInstanceAs (Decidable ((∀ identity ∈ l.upserts, identity.id ≠ "" ∧
    MayHold w.users identity ∧ LinkedNowhere w.users identity) ∧
      ∀ stakeAddr ∈ l.creates, stakeAddr ≠ "" ∧ MayHold w.users (.stake stakeAddr)))

/-- Two challenges, one to link and one to log in, before their nonces are drawn, ... -/
def sampleTwoAsked : Interleaved LoginWorld DoorProc ℕ :=
  ⟨sampleDrepDoors, Function.update (Function.update (fun _ => none) 0
    (some (.challenge (.linkStake "ada")))) 1 (some (.challenge (.login ['x', '.', 'i', 'o'])))⟩

def sampleIssued : Interleaved LoginWorld DoorProc ℕ :=
  (Program.run (accountsFree.checked (doorStep sampleTwiceEnv))
    [(0, .nonce ['n']), (1, .nonce ['m'])] sampleTwoAsked).get (by decide +kernel)

def sampleLinkBody : LinkStakeBody :=
  ⟨some sampleLinkPayload, some (bytesToHex sampleLinkCose), some (bytesToHex sampleCoseKey)⟩

def sampleVerifyBody (role : String) : VerifyBody :=
  ⟨some sampleSecondPayload, some (bytesToHex sampleSecondCose), some (bytesToHex sampleCoseKey),
    none, some role, none, none⟩

/-- ... and with both requests sent, once the key has signed. -/
def sampleBothSent (role : String) : Interleaved LoginWorld DoorProc ℕ :=
  ⟨{ sampleIssued.shared with signed := sampleSignatures.map fun s => (sampleKey, s.2) },
    Function.update (Function.update sampleIssued.procs 2
      (some (.received (.linkStake "ada" sampleLinkBody)))) 3
        (some (.received (.verify (sampleVerifyBody role))))⟩

theorem sampleTwice_unforged {w : LoginWorld} (hw : w.signed = sampleSignatures.map fun s =>
    (sampleKey, s.2)) (signatureHex : Text) : Unforged sampleTwiceEnv w signatureHex := by
  intro sig _ msg pubKey hverify
  simp only [sampleTwiceEnv, Bool.and_eq_true, beq_iff_eq, List.contains_eq_mem,
    decide_eq_true_eq] at hverify
  obtain ⟨rfl, hmem⟩ := hverify
  rw [hw]
  exact List.mem_map.mpr ⟨(sig, msg), hmem, rfl⟩

theorem sampleIssued_procs : sampleIssued.procs 2 = none ∧ sampleIssued.procs 3 = none := by
  decide +kernel

theorem sampleBothSent_reachable (role : String) :
    (((loginProgram sampleTwiceEnv).system ℕ AccountsStart).restrict accountsFree.Met).Reachable
      (sampleBothSent role) := by
  have h₀ : (((loginProgram sampleTwiceEnv).system ℕ AccountsStart).restrict
      accountsFree.Met).Reachable ⟨sampleDrepDoors, fun _ => none⟩ :=
    .init ⟨sampleDrepDoors_start, fun _ => rfl⟩
  have h₁ := Program.reachable_start h₀ (i := 0) trivial rfl (LoginStart.linkChallenge "ada")
  have h₂ := Program.reachable_start h₁ (i := 1) trivial rfl
    (LoginStart.loginChallenge ['x', '.', 'i', 'o'])
  have h₃ := Program.reachable_runChecked (fun _ => trivial) (fun _ _ _ => trivial)
    doorStep_moves h₂ [(0, .nonce ['n']), (1, .nonce ['m'])] (by decide +kernel)
  have h₄ := Program.reachable_env h₃ (t := (sampleBothSent role).shared) trivial
    ⟨_, _, _, le_rfl, by decide +kernel, by decide +kernel, rfl⟩
  have h₅ := Program.reachable_start h₄ (i := 2) trivial sampleIssued_procs.1
    (LoginStart.request (.linkStake "ada" sampleLinkBody)
      fun hex _ => sampleTwice_unforged rfl hex)
  have hfree : ∀ l, Function.update sampleIssued.procs 2 (some l) 3 = none := fun l =>
    (Function.update_of_ne (by decide) _ _).trans sampleIssued_procs.2
  exact Program.reachable_start h₅ (i := 3) trivial
    (hfree (.received (.linkStake "ada" sampleLinkBody)))
    (LoginStart.request (.verify (sampleVerifyBody role))
      fun hex _ => sampleTwice_unforged rfl hex)

/-- The link, and the login of a delegator with the key that is linked. -/
def sampleLinkedSteps : List (ℕ × LoginEvent) :=
  List.replicate 3 (2, .statement 0) ++ List.replicate 9 (3, .statement 0)

def sampleLinkedLogin : Interleaved LoginWorld DoorProc ℕ :=
  (Program.run (accountsFree.checked (doorStep sampleTwiceEnv)) sampleLinkedSteps
    (sampleBothSent "delegator")).get (by decide +kernel)

theorem sampleLinkedLogin_reachable :
    (((loginProgram sampleTwiceEnv).system ℕ AccountsStart).restrict accountsFree.Met).Reachable
      sampleLinkedLogin :=
  Program.reachable_runChecked (fun _ => trivial) (fun _ _ _ => trivial) doorStep_moves
    (sampleBothSent_reachable "delegator") sampleLinkedSteps (by decide +kernel)

def sampleStakeAddr : String := "stake_test1uqn78rgwr835xn3nl0gqr5l7qj6mwemrlz9v6cj7p4mskscu92y5a"

/-- The same key at the proposer's door: Koios says that it is a proposer's. -/
def sampleRefusedSteps : List (ℕ × LoginEvent) :=
  List.replicate 3 (2, .statement 0) ++ List.replicate 2 (3, .statement 0) ++
    [(3, .koios (.proposals [sampleStakeAddr])), (3, .statement 0)]

def sampleRefusedLogin : Interleaved LoginWorld DoorProc ℕ :=
  (Program.run (doorStep sampleTwiceEnv) sampleRefusedSteps (sampleBothSent "proposer")).get
    (by decide +kernel)

/-- The return addresses that Koios has told. -/
def RoleAnswer.returnAddresses : RoleAnswer → Option (List String)
  | .proposals returnAddresses => some returnAddresses
  | _ => none

end DrepTalk
