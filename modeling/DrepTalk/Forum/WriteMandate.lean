import DrepTalk.Auth.Pairing
import DrepTalk.Forum.PostEdits
import DrepTalk.Governance.ActionThreads
import DrepTalk.Governance.ParamValues
import DrepTalk.Grants.ProposerGrants

/-!
# Who may write in the forum

Two rules give the right to write (`src/lib/forum/writeMandate.ts`, and the gates of
`src/lib/forum/handlers.ts`): an active grant, in the thread of its action or in Proposal Drafts, or
a writer role of one's own, which for a sole DRep role takes a registration that is not known to
have ended.

The functions here are what is made of one read of the database each. The roles are those of the
session, which a login has written down without duplicates (`rolesFromUser_nodup`,
`withCoProposerRole_nodup`, `redeemedRoles_nodup`).
-/

namespace DrepTalk

/-- A row of `users`, by the columns the gate reads. -/
structure WriterRow where
  id : String
  drepId : Option String

/-- A row of `dreps`, by the columns the gate reads. -/
structure DrepActivity where
  drepId : String
  active : Bool

/-- The tables that a write reads and writes. -/
structure WriteDb where
  gov : GovDb
  grants : GrantDb
  users : KeyedTable fun row : WriterRow => row.id
  dreps : KeyedTable fun row : DrepActivity => row.drepId
  revisions : List RevisionRow

/-- `typeof value === 'string' ? value : ''`. -/
def jsonText : Option JsonValue → String
  | some (.string text) => text
  | _ => ""

/-- `text.trim()`. -/
def trimmed (text : String) : String := String.ofList (JsText.trim text.toList)

/-- What the body of a handler's answer holds beside `ok`. -/
inductive HandlerJson
  | ok
  | slug (slug : String)
  | postId (postId : String)
  | edited (edited : Bool)
  | error (error : String)

structure HandlerResult where
  status : ℕ
  json : HandlerJson

def HandlerResult.failed (status : ℕ) (error : String) : HandlerResult := ⟨status, .error error⟩

/-! ### Roles -/

def isWriter (roles : List String) : Bool := roles.any fun r => WRITER_ROLES.contains r

def isModerator (roles : List String) : Bool := roles.any fun r => MODERATOR_ROLES.contains r

/-! ### The writer's own rule -/

/-- The read of `drepActiveGate`: whether the synced row of the user's DRep is active. -/
def WriteDb.drepActive (db : WriteDb) (userId : String) : Option Bool :=
  (db.users.rows.find? fun u => u.id == userId).bind fun u => u.drepId.bind fun drepId =>
    (db.dreps.rows.find? fun d => d.drepId == drepId).map (·.active)

/-- Whether `drep` is the only writer role. -/
def isSoleDrep (roles : List String) : Bool :=
  (roles.filter fun r => WRITER_ROLES.contains r) == ["drep"]

/-- `drepActiveGate`: whether it lets the user pass. -/
def drepActiveGate (db : WriteDb) (user : SessionUser) : Bool :=
  !isSoleDrep user.roles || db.drepActive user.id != some false

/-- The usual rule, at some moment: a writer role, and where that is `drep` alone, no synced row
that says the DRep is inactive. -/
def OwnWriter (user : SessionUser) (db : WriteDb) : Prop :=
  (∃ r ∈ user.roles, r ∈ WRITER_ROLES) ∧
    ((∀ r ∈ user.roles, r ∈ WRITER_ROLES → r = "drep") → db.drepActive user.id ≠ some false)

theorem isWriter_iff {roles : List String} :
    isWriter roles = true ↔ ∃ r ∈ roles, r ∈ WRITER_ROLES := by
  simp [isWriter]

theorem isSoleDrep_of_forall {roles : List String} (hnodup : roles.Nodup)
    (hwriter : ∃ r ∈ roles, r ∈ WRITER_ROLES)
    (h : ∀ r ∈ roles, r ∈ WRITER_ROLES → r = "drep") : isSoleDrep roles = true := by
  have hall : ∀ r ∈ roles.filter fun r => WRITER_ROLES.contains r, r = "drep" := by
    intro r hr
    obtain ⟨hr, hw⟩ := List.mem_filter.mp hr
    exact h r hr (List.contains_iff_mem.mp hw)
  obtain ⟨r, hr, hw⟩ := hwriter
  have hmem : r ∈ roles.filter fun r => WRITER_ROLES.contains r :=
    List.mem_filter.mpr ⟨hr, List.contains_iff_mem.mpr hw⟩
  have hdup := hnodup.filter fun r => WRITER_ROLES.contains r
  rw [isSoleDrep, beq_iff_eq]
  rcases hlist : roles.filter (fun r => WRITER_ROLES.contains r) with _ | ⟨a, _ | ⟨b, rest⟩⟩
  · cases hlist ▸ hmem
  · rw [hall a (hlist ▸ List.mem_cons_self)]
  · rw [hlist] at hdup hall
    have ha := hall a List.mem_cons_self
    have hb := hall b (List.mem_cons_of_mem _ List.mem_cons_self)
    exact absurd (ha.trans hb.symm) fun heq =>
      (List.nodup_cons.mp hdup).1 (heq ▸ List.mem_cons_self)

variable {db : WriteDb} {grantId userId : String}

theorem ownWriter_of_gates {user : SessionUser} (hnodup : user.roles.Nodup)
    (hwriter : isWriter user.roles = true) (hgate : drepActiveGate db user = true) :
    OwnWriter user db := by
  rw [isWriter_iff] at hwriter
  refine ⟨hwriter, fun hsole hinactive => ?_⟩
  rw [drepActiveGate, isSoleDrep_of_forall hnodup hwriter hsole, hinactive] at hgate
  cases hgate

/-! ### Grants -/

def isGrantActiveForUser (db : WriteDb) (grantId userId : String) : Bool :=
  db.grants.grants.rows.any fun r =>
    r.id == grantId && r.coUserId == some userId && r.status == .active && r.govActionId.isSome

/-- Oldest redemption first, then by id; what has no time comes before all others. -/
def redeemedBefore (a b : GrantRow) : Prop :=
  match a.redeemedAt, b.redeemedAt with
  | none, none => a.id ≤ b.id
  | none, some _ => True
  | some _, none => False
  | some s, some t => s < t ∨ s = t ∧ a.id ≤ b.id

instance : DecidableRel redeemedBefore := fun a b => by
  unfold redeemedBefore
  split <;> infer_instance

def listActiveGrantsForCoUser (db : WriteDb) (coUserId : String) : List GrantRow :=
  (db.grants.grants.rows.filter fun r =>
    r.coUserId == some coUserId && r.status == .active && r.govActionId.isSome).insertionSort
      redeemedBefore

/-- The grants of the actions whose thread is the topic. -/
def grantsOfTopic (db : WriteDb) (coUserId topicId : String) : List GrantRow :=
  (db.gov.actions.rows.filter fun ga => ga.topicId == some topicId).flatMap fun ga =>
    db.grants.grants.rows.filter fun r =>
      r.govActionId == some ga.id && r.coUserId == some coUserId && r.status == .active

def getActiveGrantIdForTopic (db : WriteDb) (coUserId topicId : String) : Option String :=
  ((grantsOfTopic db coUserId topicId).insertionSort redeemedBefore).head?.map (·.id)

/-! ### The mandate of a write -/

/-- `ActAs`: the writer alone, or one of their proposers. -/
inductive ActAs
  | self
  | proposer (stakeAddr : String)

/-- `parseActAs`: exactly `'self'`, or an object with nothing but a stake address. -/
def parseActAs : Option JsonValue → Option ActAs
  | some (.string "self") => some .self
  | some (.object [("proposerStakeAddr", .string addr)]) =>
    if addr = "" then none else some (.proposer addr)
  | _ => none

/-- `MandateResult`: a write under no grant, under a grant, or one that needs a choice. -/
inductive MandateResult
  | own
  | grant (grantId : String)
  | choose_proposer

/-- The mandate under a grant, if there is one. -/
def MandateResult.of : Option String → MandateResult
  | none => .own
  | some grantId => .grant grantId

def resolveDraftMandate (db : WriteDb) (userId : String) (actAs : Option ActAs) : MandateResult :=
  let grants := listActiveGrantsForCoUser db userId
  match actAs with
  | some .self => .own
  | some (.proposer stakeAddr) =>
    .of ((grants.find? fun g => g.proposerStakeAddr == stakeAddr).map (·.id))
  | none =>
    if (grants.map (·.proposerStakeAddr)).dedup.length > 1 then .choose_proposer
    else .of (grants.head?.map (·.id))

def resolvePostMandate (db : WriteDb) (userId : String) (topic : ForumTopic)
    (actAs : Option ActAs) : MandateResult :=
  if topic.categorySlug = PROPOSAL_DRAFTS_CATEGORY_SLUG then resolveDraftMandate db userId actAs
  else .of (getActiveGrantIdForTopic db userId topic.id)

def resolveTopicMandate (db : WriteDb) (userId categorySlug : String) (actAs : Option ActAs) :
    MandateResult :=
  if categorySlug = PROPOSAL_DRAFTS_CATEGORY_SLUG then resolveDraftMandate db userId actAs else .own

/-- The topic is the thread of the action that the grant is for. -/
def WriteDb.IsThreadOf (db : WriteDb) (topicId grantId : String) : Prop :=
  ∃ r ∈ db.grants.grants.rows, r.id = grantId ∧
    ∃ ga ∈ db.gov.actions.rows, r.govActionId = some ga.id ∧ ga.topicId = some topicId

theorem isGrantActiveForUser_iff :
    isGrantActiveForUser db grantId userId = true ↔
      ∃ r ∈ db.grants.grants.rows, r.id = grantId ∧ r.coUserId = some userId ∧
        r.status = .active ∧ r.govActionId ≠ none := by
  simp [isGrantActiveForUser, Option.isSome_iff_ne_none, and_assoc]

theorem active_of_mem_list {coUserId : String} {r : GrantRow}
    (h : r ∈ listActiveGrantsForCoUser db coUserId) :
    isGrantActiveForUser db r.id coUserId = true := by
  rw [listActiveGrantsForCoUser, List.mem_insertionSort] at h
  obtain ⟨hmem, hr⟩ := List.mem_filter.mp h
  simp only [Bool.and_eq_true, beq_iff_eq, Option.isSome_iff_ne_none] at hr
  exact isGrantActiveForUser_iff.mpr ⟨r, hmem, rfl, hr.1.1, hr.1.2, hr.2⟩

theorem MandateResult.of_eq_grant {found : Option String}
    (h : MandateResult.of found = .grant grantId) : found = some grantId := by
  rcases found with _ | found
  · cases h
  · cases h
    rfl

theorem resolveDraftMandate_active {actAs : Option ActAs}
    (h : resolveDraftMandate db userId actAs = .grant grantId) :
    isGrantActiveForUser db grantId userId = true := by
  unfold resolveDraftMandate at h
  rcases actAs with _ | _ | stakeAddr
  · dsimp only at h
    split_ifs at h
    obtain ⟨r, hr, rfl⟩ := Option.map_eq_some_iff.mp (MandateResult.of_eq_grant h)
    exact active_of_mem_list (List.mem_of_mem_head? hr)
  · cases h
  · obtain ⟨r, hr, rfl⟩ := Option.map_eq_some_iff.mp (MandateResult.of_eq_grant h)
    exact active_of_mem_list (List.mem_of_find?_eq_some hr)

theorem getActiveGrantIdForTopic_active {topicId : String}
    (h : getActiveGrantIdForTopic db userId topicId = some grantId) :
    isGrantActiveForUser db grantId userId = true ∧ db.IsThreadOf topicId grantId := by
  obtain ⟨r, hr, rfl⟩ := Option.map_eq_some_iff.mp h
  have hr := (List.mem_insertionSort redeemedBefore).mp (List.mem_of_mem_head? hr)
  obtain ⟨ga, hga, hr⟩ := List.mem_flatMap.mp hr
  obtain ⟨hga, htopic⟩ := List.mem_filter.mp hga
  obtain ⟨hmem, hr⟩ := List.mem_filter.mp hr
  simp only [Bool.and_eq_true, beq_iff_eq] at hr htopic
  obtain ⟨⟨haction, huser⟩, hactive⟩ := hr
  exact ⟨isGrantActiveForUser_iff.mpr ⟨r, hmem, rfl, huser, hactive, by simp [haction]⟩,
    r, hmem, rfl, ga, hga, haction, htopic⟩

end DrepTalk
