import DrepTalk.Library.Table
import Mathlib.Data.Int.Notation
import Mathlib.Data.List.Dedup

/-!
# The constitutional committee

The membership timeline of `src/lib/db/committee.ts` and `src/lib/koios/committeeTimeline.ts`: a
migration seeds the members of each version of the committee, and each snapshot of Koios
`committee_info` is folded into the current version. Who counts at the boundary that opens an epoch
(`activeCommitteeMembersAtBoundary`) is read off four epochs of a member.

**A snapshot** (`syncCurrentCommitteeMembership`) carries a status, and the timeline an epoch of
resignation that is written once: by the seed, or by the first snapshot in which the status is
another than `authorized`. So a member that has not authorized its hot key yet, and one that
authorizes a new one after a resignation, are out for good (`membership_follows_iff`).
-/

namespace DrepTalk

/-! ### The timeline -/

structure CommitteeMemberTerm where
  coldKeyHex : String
  versionFrom : ℤ
  versionTo : Option ℤ
  termExpiration : ℤ
  authorizedFrom : ℤ
  resignedAt : Option ℤ
  deriving DecidableEq

inductive CommitteeExclusion
  | expired
  | not_authorized
  | resigned

def versionCovers (m : CommitteeMemberTerm) (epoch : ℤ) : Bool :=
  decide (m.versionFrom ≤ epoch) && m.versionTo.all fun last => decide (epoch ≤ last)

def committeeStanding (m : CommitteeMemberTerm) (epoch : ℤ) : Option CommitteeExclusion :=
  if m.termExpiration < epoch then some .expired
  else if epoch - 1 < m.authorizedFrom then some .not_authorized
  else if m.resignedAt.any fun resigned => decide (resigned < epoch) then some .resigned
  else none

/-- The set of the members that count. -/
def activeCommitteeMembersAtBoundary (members : List CommitteeMemberTerm) (epoch : ℤ) :
    List String :=
  ((members.filter fun m => versionCovers m epoch && (committeeStanding m epoch).isNone).map
    (·.coldKeyHex)).dedup

/-! ### Snapshots -/

/-- A member in `committee_info`, by the fields that are read. -/
structure CommitteeMember where
  status : String
  hotHex : Option String
  coldHex : Option String
  expirationEpoch : Option ℤ
  deriving DecidableEq

/-- A row of `committee_hot_key`. -/
structure CommitteeHotKey where
  hotKeyHex : String
  coldKeyHex : String

structure CommitteeDb where
  members : KeyedTable fun m : CommitteeMemberTerm => (m.coldKeyHex, m.versionFrom)
  hotKeys : KeyedTable fun k : CommitteeHotKey => k.hotKeyHex

/-- What `committee_info` answers, and the epoch of the parameters read with it. -/
structure CommitteeSnapshot where
  members : List CommitteeMember
  currentEpoch : Option ℤ

/-- `upsertCommitteeHotKeys`: `INSERT OR REPLACE`. -/
def upsertCommitteeHotKeys (keys : KeyedTable fun k : CommitteeHotKey => k.hotKeyHex)
    (pairs : List CommitteeHotKey) : KeyedTable fun k : CommitteeHotKey => k.hotKeyHex :=
  pairs.foldl (fun t k => (t.deleteWhere (·.hotKeyHex == k.hotKeyHex)).insertOrIgnore k) keys

/-- The hot keys that a snapshot registers. -/
def hotPairs (members : List CommitteeMember) : List CommitteeHotKey :=
  members.filterMap fun m =>
    match m.hotHex, m.coldHex with
    | some hot, some cold => if hot ≠ "" ∧ cold ≠ "" then some ⟨hot, cold⟩ else none
    | _, _ => none

/-- The epoch that a snapshot records as that of a resignation. -/
def CommitteeMember.resignedNow (m : CommitteeMember) (currentEpoch : Option ℤ) : Option ℤ :=
  if m.status ≠ "authorized" then currentEpoch else none

/-- The row is of the current version of the member. -/
def CommitteeMemberTerm.isOf (m : CommitteeMember) (row : CommitteeMemberTerm) : Bool :=
  m.coldHex.any (fun cold => cold != "" && row.coldKeyHex == cold) && row.versionTo.isNone

/-- What a snapshot says of a member, as the row takes it on. -/
def CommitteeMemberTerm.record (currentEpoch : Option ℤ) (m : CommitteeMember)
    (row : CommitteeMemberTerm) : CommitteeMemberTerm :=
  { row with
    termExpiration := m.expirationEpoch.getD row.termExpiration
    resignedAt := row.resignedAt <|> m.resignedNow currentEpoch }

structure CommitteeSyncResult where
  hotKeys : ℕ
  updated : ℕ
  unknown : ℕ

def syncCommitteeMember (currentEpoch : Option ℤ) (acc : CommitteeDb × CommitteeSyncResult)
    (m : CommitteeMember) : CommitteeDb × CommitteeSyncResult :=
  if m.coldHex.all (· == "") then acc
  else
    ({ acc.1 with
        members := acc.1.members.updateWhere (·.isOf m) (·.record currentEpoch m) fun _ _ => rfl },
      if acc.1.members.rows.any (·.isOf m) then { acc.2 with updated := acc.2.updated + 1 }
      else { acc.2 with unknown := acc.2.unknown + 1 })

def syncCurrentCommitteeMembership (db : CommitteeDb) (snapshot : CommitteeSnapshot) :
    CommitteeDb × CommitteeSyncResult :=
  let pairs := hotPairs snapshot.members
  snapshot.members.foldl (syncCommitteeMember snapshot.currentEpoch)
    ({ db with hotKeys := upsertCommitteeHotKeys db.hotKeys pairs }, ⟨pairs.length, 0, 0⟩)

def CommitteeDb.after (db : CommitteeDb) (snapshots : List CommitteeSnapshot) : CommitteeDb :=
  snapshots.foldl (fun db snapshot => (syncCurrentCommitteeMembership db snapshot).1) db

/-! ### What snapshots make of a row -/

def CommitteeMemberTerm.seenIn (row : CommitteeMemberTerm) (snapshot : CommitteeSnapshot) :
    CommitteeMemberTerm :=
  snapshot.members.foldl
    (fun row m => if row.isOf m then row.record snapshot.currentEpoch m else row) row

/-- The epoch that the snapshot records as that of a resignation of the member. -/
def CommitteeSnapshot.resignation (snapshot : CommitteeSnapshot) (row : CommitteeMemberTerm) :
    Option ℤ :=
  if snapshot.members.any fun m => row.isOf m && m.status != "authorized" then
    snapshot.currentEpoch
  else none

structure CommitteeMemberTerm.SameSeat (row row' : CommitteeMemberTerm) : Prop where
  coldKeyHex : row'.coldKeyHex = row.coldKeyHex
  versionFrom : row'.versionFrom = row.versionFrom
  versionTo : row'.versionTo = row.versionTo
  authorizedFrom : row'.authorizedFrom = row.authorizedFrom

section

variable {row row' : CommitteeMemberTerm} {db : CommitteeDb}

theorem CommitteeMemberTerm.SameSeat.refl (row : CommitteeMemberTerm) : row.SameSeat row :=
  ⟨rfl, rfl, rfl, rfl⟩

theorem CommitteeMemberTerm.SameSeat.trans {row'' : CommitteeMemberTerm} (h : row.SameSeat row')
    (h' : row'.SameSeat row'') : row.SameSeat row'' :=
  ⟨h'.coldKeyHex.trans h.coldKeyHex, h'.versionFrom.trans h.versionFrom,
    h'.versionTo.trans h.versionTo, h'.authorizedFrom.trans h.authorizedFrom⟩

theorem CommitteeMemberTerm.SameSeat.isOf (h : row.SameSeat row') (m : CommitteeMember) :
    row'.isOf m = row.isOf m := by
  rw [CommitteeMemberTerm.isOf, CommitteeMemberTerm.isOf, h.coldKeyHex, h.versionTo]

theorem CommitteeMemberTerm.SameSeat.resignation (h : row.SameSeat row')
    (snapshot : CommitteeSnapshot) : snapshot.resignation row' = snapshot.resignation row := by
  simp only [CommitteeSnapshot.resignation, h.isOf]

variable {m : CommitteeMember} {epoch : ℤ}

theorem isOf_of_noColdKey (h : m.coldHex.all (· == "") = true) : row.isOf m = false := by
  rw [CommitteeMemberTerm.isOf]
  rcases hcold : m.coldHex with _ | cold
  · rfl
  · obtain rfl : cold = "" := by simpa [hcold] using h
    rfl

theorem rows_syncCommitteeMember (currentEpoch : Option ℤ)
    (acc : CommitteeDb × CommitteeSyncResult) (m : CommitteeMember) :
    (syncCommitteeMember currentEpoch acc m).1.members.rows =
      acc.1.members.rows.map fun row => if row.isOf m then row.record currentEpoch m else row := by
  rw [syncCommitteeMember]
  by_cases h : m.coldHex.all (· == "") = true
  · rw [if_pos h]
    simp [isOf_of_noColdKey h]
  · rw [if_neg h]
    rfl

theorem rows_syncCurrentCommitteeMembership (db : CommitteeDb) (snapshot : CommitteeSnapshot) :
    (syncCurrentCommitteeMembership db snapshot).1.members.rows =
      db.members.rows.map (·.seenIn snapshot) := by
  have hfold : ∀ (members : List CommitteeMember) (acc : CommitteeDb × CommitteeSyncResult),
      (members.foldl (syncCommitteeMember snapshot.currentEpoch) acc).1.members.rows =
        acc.1.members.rows.map fun row => members.foldl (fun row m =>
          if row.isOf m then row.record snapshot.currentEpoch m else row) row := by
    intro members
    induction members with
    | nil => simp
    | cons m rest ih =>
      intro acc
      rw [List.foldl_cons, ih, rows_syncCommitteeMember, List.map_map]
      rfl
  exact hfold _ _

theorem rows_after (db : CommitteeDb) (snapshots : List CommitteeSnapshot) :
    (db.after snapshots).members.rows = db.members.rows.map fun row => snapshots.foldl
      CommitteeMemberTerm.seenIn row := by
  induction snapshots generalizing db with
  | nil => simp [CommitteeDb.after]
  | cons snapshot rest ih =>
    have hrest := ih (syncCurrentCommitteeMembership db snapshot).1
    rw [rows_syncCurrentCommitteeMembership, List.map_map] at hrest
    exact hrest

theorem record_cases (currentEpoch : Option ℤ) (row : CommitteeMemberTerm) (m : CommitteeMember) :
    row.SameSeat (if row.isOf m then row.record currentEpoch m else row) ∧
      (if row.isOf m then row.record currentEpoch m else row).resignedAt =
        (row.resignedAt <|> if row.isOf m && m.status != "authorized" then currentEpoch else none) := by
  rcases hof : row.isOf m with _ | _
  · exact ⟨.refl row, by simp⟩
  · refine ⟨⟨rfl, rfl, rfl, rfl⟩, ?_⟩
    simp [CommitteeMemberTerm.record, CommitteeMember.resignedNow]

theorem orElse_ite (stored value : Option ℤ) (a b : Bool) :
    ((stored <|> if a then value else none) <|> if b then value else none) =
      (stored <|> if a || b then value else none) := by
  rcases stored with _ | r
  · cases a <;> cases b <;> rcases value with _ | e <;> rfl
  · rfl

/-- **The write-once epoch.** A snapshot records a resignation where none has been recorded. -/
theorem seenIn_spec (row : CommitteeMemberTerm) (snapshot : CommitteeSnapshot) :
    row.SameSeat (row.seenIn snapshot) ∧
      (row.seenIn snapshot).resignedAt = (row.resignedAt <|> snapshot.resignation row) := by
  have hfold : ∀ (members : List CommitteeMember) (row : CommitteeMemberTerm),
      row.SameSeat (members.foldl (fun row m => if row.isOf m then
        row.record snapshot.currentEpoch m else row) row) ∧
      (members.foldl (fun row m => if row.isOf m then
        row.record snapshot.currentEpoch m else row) row).resignedAt =
        (row.resignedAt <|> if members.any fun m => row.isOf m && m.status != "authorized" then
          snapshot.currentEpoch else none) := by
    intro members
    induction members with
    | nil => exact fun row => ⟨.refl row, by simp⟩
    | cons m rest ih =>
      intro row
      obtain ⟨hsame, hresigned⟩ := record_cases snapshot.currentEpoch row m
      obtain ⟨hsame', hresigned'⟩ :=
        ih (if row.isOf m then row.record snapshot.currentEpoch m else row)
      refine ⟨hsame.trans hsame', ?_⟩
      rw [List.foldl_cons, hresigned', hresigned]
      simp only [hsame.isOf, List.any_cons]
      exact orElse_ite _ _ _ _
  exact hfold _ _

/-- The first resignation that is recorded. -/
def firstResignation (row : CommitteeMemberTerm) (snapshots : List CommitteeSnapshot) : Option ℤ :=
  snapshots.findSome? (·.resignation row)

theorem seenIn_foldl (row : CommitteeMemberTerm) (snapshots : List CommitteeSnapshot) :
    row.SameSeat (snapshots.foldl CommitteeMemberTerm.seenIn row) ∧
      (snapshots.foldl CommitteeMemberTerm.seenIn row).resignedAt =
        (row.resignedAt <|> firstResignation row snapshots) := by
  induction snapshots generalizing row with
  | nil => exact ⟨.refl row, by simp [firstResignation]⟩
  | cons snapshot rest ih =>
    obtain ⟨hsame, hresigned⟩ := seenIn_spec row snapshot
    obtain ⟨hsame', hresigned'⟩ := ih (row.seenIn snapshot)
    refine ⟨hsame.trans hsame', ?_⟩
    rw [List.foldl_cons, hresigned', hresigned]
    have hrest : firstResignation (row.seenIn snapshot) rest = firstResignation row rest := by
      simp only [firstResignation, hsame.resignation]
    rw [hrest, firstResignation, firstResignation, List.findSome?_cons]
    rcases row.resignedAt with _ | r
    · rcases snapshot.resignation row with _ | e <;> simp
    · rfl

end

/-! ### Who counts -/

/-- The timeline before the snapshots: the current version holds while they are taken, and the
resignations that it stores lie before them. -/
structure SeededTimeline (db : CommitteeDb) (snapshots : List CommitteeSnapshot) : Prop where
  version : ∃ current, (∀ m ∈ db.members.rows, m.versionTo = none → m.versionFrom = current) ∧
    (∀ m ∈ db.members.rows, ∀ last ∈ m.versionTo, last < current) ∧
      ∀ s ∈ snapshots, ∀ e ∈ s.currentEpoch, current ≤ e
  past : ∀ m ∈ db.members.rows, m.versionTo = none → ∀ r ∈ m.resignedAt, ∀ s ∈ snapshots,
    ∀ e ∈ s.currentEpoch, r ≤ e

/-- The latest snapshot, taken in that epoch, shows the member as authorized, with a term that goes
on, and it was authorized by then. -/
def SeatedIn (snapshots : List CommitteeSnapshot) (row : CommitteeMemberTerm) (epoch : ℤ) : Prop :=
  ∃ latest m expiration, snapshots.getLast? = some latest ∧ latest.currentEpoch = some epoch ∧
    latest.members.filter row.isOf = [m] ∧ m.status = "authorized" ∧
      m.expirationEpoch = some expiration ∧ epoch + 1 ≤ expiration ∧ row.authorizedFrom ≤ epoch

/-- What the claims about a member come to, after the snapshots. -/
structure MembershipFollows (db : CommitteeDb) (snapshots : List CommitteeSnapshot)
    (row : CommitteeMemberTerm) : Prop where
  seated : ∀ epoch, SeatedIn snapshots row epoch → row.coldKeyHex ∈
    activeCommitteeMembersAtBoundary (db.after snapshots).members.rows (epoch + 1)
  out : ∀ s ∈ snapshots, ∀ epoch ∈ s.resignation row, ∀ boundary, epoch < boundary →
    row.coldKeyHex ∉ activeCommitteeMembersAtBoundary (db.after snapshots).members.rows boundary
  kept : ∀ r ∈ row.resignedAt, ∃ row' ∈ (db.after snapshots).members.rows,
    row.SameSeat row' ∧ row'.resignedAt = some r

theorem mem_activeCommitteeMembersAtBoundary {members : List CommitteeMemberTerm} {cold : String} :
    cold ∈ activeCommitteeMembersAtBoundary members epoch ↔
      ∃ m ∈ members, versionCovers m epoch = true ∧ committeeStanding m epoch = none ∧
        m.coldKeyHex = cold := by
  simp only [activeCommitteeMembersAtBoundary, List.mem_dedup, List.mem_map, List.mem_filter,
    Bool.and_eq_true, Option.isNone_iff_eq_none, and_assoc]

theorem committeeStanding_eq_none {m : CommitteeMemberTerm} :
    committeeStanding m epoch = none ↔ epoch ≤ m.termExpiration ∧ m.authorizedFrom ≤ epoch - 1 ∧
      ∀ r ∈ m.resignedAt, epoch ≤ r := by
  rw [committeeStanding]
  rcases hresigned : m.resignedAt with _ | r
  · simp only [Option.any_none, Bool.false_eq_true, if_false, Option.mem_def, reduceCtorEq,
      false_implies, implies_true, and_true]
    split_ifs <;> simp only [false_iff, true_iff] <;> omega
  · simp only [Option.any_some, decide_eq_true_eq, Option.mem_def, Option.some.injEq,
      forall_eq']
    split_ifs <;> simp <;> omega

section

variable {db : CommitteeDb} {snapshots : List CommitteeSnapshot} {row : CommitteeMemberTerm}

theorem active_iff (hseed : SeededTimeline db snapshots) (hrow : row ∈ db.members.rows)
    (hcurrent : row.versionTo = none) {boundary : ℤ}
    (hafter : ∃ s ∈ snapshots, ∃ e ∈ s.currentEpoch, e < boundary) :
    row.coldKeyHex ∈ activeCommitteeMembersAtBoundary (db.after snapshots).members.rows boundary ↔
      committeeStanding (snapshots.foldl CommitteeMemberTerm.seenIn row) boundary = none := by
  obtain ⟨current, honly, hclosed, hfrom⟩ := hseed.version
  obtain ⟨s, hs, e, he, hlt⟩ := hafter
  have hle := hfrom s hs e he
  rw [mem_activeCommitteeMembersAtBoundary, rows_after]
  constructor
  · rintro ⟨m, hm, hcovers, hstanding, hcold⟩
    obtain ⟨m₀, hm₀, rfl⟩ := List.mem_map.mp hm
    have hsame := (seenIn_foldl m₀ snapshots).1
    -- a closed version does not cover the boundary, so it is the current row of the key
    have hopen : m₀.versionTo = none := by
      rcases hto : m₀.versionTo with _ | last
      · rfl
      · have hlast := hclosed m₀ hm₀ last hto
        simp only [versionCovers, hsame.versionTo, hto, Bool.and_eq_true, Option.all_some,
          decide_eq_true_eq] at hcovers
        omega
    have hkey : (m₀.coldKeyHex, m₀.versionFrom) = (row.coldKeyHex, row.versionFrom) :=
      Prod.ext (hsame.coldKeyHex.symm.trans hcold)
        ((honly m₀ hm₀ hopen).trans (honly row hrow hcurrent).symm)
    rwa [db.members.eq_of_key hm₀ hrow hkey] at hstanding
  · intro hstanding
    have hsame := (seenIn_foldl row snapshots).1
    refine ⟨_, List.mem_map_of_mem hrow, ?_, hstanding, hsame.coldKeyHex⟩
    have hversion := honly row hrow hcurrent
    simp only [versionCovers, hsame.versionTo, hcurrent, hsame.versionFrom, Option.all_none,
      Bool.and_true, decide_eq_true_eq]
    omega

variable {s : CommitteeSnapshot}

theorem epoch_of_resignation {e : ℤ} (h : e ∈ s.resignation row) : s.currentEpoch = some e := by
  rw [CommitteeSnapshot.resignation] at h
  split_ifs at h
  · exact h
  · cases h

theorem epoch_le_of_getLast? (hepochs : (snapshots.filterMap (·.currentEpoch)).Pairwise (· ≤ ·))
    {latest : CommitteeSnapshot} (hs : s ∈ snapshots) {e : ℤ} (he : s.currentEpoch = some e)
    (hlast : snapshots.getLast? = some latest) (hepoch : latest.currentEpoch = some epoch) :
    e ≤ epoch := by
  obtain ⟨before, rfl⟩ := List.getLast?_eq_some_iff.mp hlast
  rw [List.filterMap_append, List.pairwise_append] at hepochs
  rcases List.mem_append.mp hs with hbefore | hlatest
  · exact hepochs.2.2 e (List.mem_filterMap.mpr ⟨s, hbefore, he⟩) epoch
      (List.mem_filterMap.mpr ⟨latest, List.mem_singleton_self _, hepoch⟩)
  · obtain rfl := List.mem_singleton.mp hlatest
    exact Int.le_of_eq (Option.some.inj (he.symm.trans hepoch))

theorem firstResignation_le (hepochs : (snapshots.filterMap (·.currentEpoch)).Pairwise (· ≤ ·))
    (hs : s ∈ snapshots) {e : ℤ} (he : e ∈ s.resignation row) :
    ∃ first ∈ firstResignation row snapshots, first ≤ e := by
  induction snapshots with
  | nil => cases hs
  | cons head rest ih =>
    rw [firstResignation, List.findSome?_cons]
    rcases hhead : head.resignation row with _ | first
    · rcases List.mem_cons.mp hs with rfl | hrest
      · rw [hhead] at he
        cases he
      · refine ih ?_ hrest
        rcases hnone : head.currentEpoch with _ | e₀
        · rwa [List.filterMap_cons_none hnone] at hepochs
        · rw [List.filterMap_cons_some hnone] at hepochs
          exact (List.pairwise_cons.mp hepochs).2
    · refine ⟨first, rfl, ?_⟩
      rcases List.mem_cons.mp hs with rfl | hrest
      · exact Int.le_of_eq (Option.some.inj (hhead.symm.trans he))
      · rw [List.filterMap_cons_some (epoch_of_resignation hhead)] at hepochs
        exact (List.pairwise_cons.mp hepochs).1 e
          (List.mem_filterMap.mpr ⟨s, hrest, epoch_of_resignation he⟩)

theorem termExpiration_seenIn {snapshot : CommitteeSnapshot}
    (hshown : snapshot.members.filter row.isOf = [m]) :
    (row.seenIn snapshot).termExpiration = m.expirationEpoch.getD row.termExpiration := by
  have hfold : ∀ (members : List CommitteeMember) (row : CommitteeMemberTerm),
      (members.foldl (fun row m => if row.isOf m then
        row.record snapshot.currentEpoch m else row) row).termExpiration =
        (members.filter row.isOf).foldl (fun term m => m.expirationEpoch.getD term)
          row.termExpiration := by
    intro members
    induction members with
    | nil => exact fun row => rfl
    | cons m rest ih =>
      intro row
      have hsame := (record_cases snapshot.currentEpoch row m).1
      have hfilter :
          rest.filter (if row.isOf m then row.record snapshot.currentEpoch m else row).isOf =
            rest.filter row.isOf := List.filter_congr fun m _ => hsame.isOf m
      rw [List.foldl_cons, ih, hfilter, List.filter_cons]
      rcases row.isOf m with _ | _ <;> rfl
  exact (hfold snapshot.members row).trans (hshown ▸ rfl)

/-- **Who follows the snapshots.** A member that the latest snapshot seats counts at the next
boundary if and only if neither the timeline nor a snapshot so far has a resignation of it. -/
theorem membership_follows_iff (hseed : SeededTimeline db snapshots)
    (hepochs : (snapshots.filterMap (·.currentEpoch)).Pairwise (· ≤ ·))
    (hrow : row ∈ db.members.rows) (hcurrent : row.versionTo = none) :
    MembershipFollows db snapshots row ↔ ∀ epoch, SeatedIn snapshots row epoch →
      row.resignedAt = none ∧ ∀ s ∈ snapshots, s.resignation row = none := by
  obtain ⟨hsame, hresigned⟩ := seenIn_foldl row snapshots
  constructor
  · intro hfollows epoch hseated
    obtain ⟨latest, m, expiration, hlast, hepoch, -⟩ := id hseated
    have hmem := List.mem_of_getLast? hlast
    have hactive := hfollows.seated epoch hseated
    rw [active_iff hseed hrow hcurrent ⟨latest, hmem, epoch, hepoch, by omega⟩,
      committeeStanding_eq_none] at hactive
    have hlate : ∀ r ∈ (snapshots.foldl CommitteeMemberTerm.seenIn row).resignedAt, epoch < r :=
      fun r hr => by
        have := hactive.2.2 r hr
        omega
    rw [hresigned] at hlate
    -- a resignation that the timeline or a snapshot has lies before the boundary
    have hnone : row.resignedAt = none := by
      rcases hstored : row.resignedAt with _ | r
      · rfl
      · have hpast := hseed.past row hrow hcurrent r hstored latest hmem epoch hepoch
        have := hlate r (by rw [hstored]; rfl)
        omega
    refine ⟨hnone, fun s hs => ?_⟩
    rcases hs' : s.resignation row with _ | e
    · rfl
    · obtain ⟨first, hfirst, hle⟩ := firstResignation_le hepochs hs hs'
      have hearly := epoch_le_of_getLast? hepochs hs (epoch_of_resignation hs') hlast hepoch
      have := hlate first (by rw [hnone]; exact hfirst)
      omega
  · intro hcondition
    refine ⟨fun epoch hseated => ?_, fun s hs epoch hepoch boundary hlt => ?_, fun r hr => ?_⟩
    · obtain ⟨hnone, hsnapshots⟩ := hcondition epoch hseated
      obtain ⟨latest, m, expiration, hlast, hepoch, hshown, -, hexpiration, hterm, hfrom⟩ := hseated
      have hmem := List.mem_of_getLast? hlast
      rw [active_iff hseed hrow hcurrent ⟨latest, hmem, epoch, hepoch, by omega⟩,
        committeeStanding_eq_none]
      refine ⟨?_, ?_, ?_⟩
      · obtain ⟨before, rfl⟩ := List.getLast?_eq_some_iff.mp hlast
        have hbefore := (seenIn_foldl row before).1
        have hshown' : latest.members.filter (before.foldl CommitteeMemberTerm.seenIn row).isOf =
            [m] := hshown ▸ List.filter_congr fun m _ => hbefore.isOf m
        rw [List.foldl_append, List.foldl_cons, List.foldl_nil, termExpiration_seenIn hshown',
          hexpiration]
        exact hterm
      · rw [hsame.authorizedFrom]
        omega
      · rw [hresigned, hnone, firstResignation, List.findSome?_eq_none_iff.mpr hsnapshots]
        nofun
    · rw [active_iff hseed hrow hcurrent ⟨s, hs, epoch, epoch_of_resignation hepoch, hlt⟩,
        committeeStanding_eq_none, hresigned]
      rintro ⟨-, -, hlate⟩
      rcases hstored : row.resignedAt with _ | r
      · obtain ⟨first, hfirst, hle⟩ := firstResignation_le hepochs hs hepoch
        have := hlate first (by rw [hstored]; exact hfirst)
        omega
      · have hpast := hseed.past row hrow hcurrent r hstored s hs epoch
          (epoch_of_resignation hepoch)
        have := hlate r (by rw [hstored]; rfl)
        omega
    · refine ⟨_, ?_, hsame, hresigned.trans (by rw [hr]; rfl)⟩
      rw [rows_after]
      exact List.mem_map_of_mem hrow

end

/-! ### Two members -/

/-- A seat from epoch 654 on, authorized since epoch 600. -/
def sampleSeat : CommitteeMemberTerm := ⟨"cold", 654, none, 799, 600, none⟩

def sampleCommittee : CommitteeDb := ⟨⟨[sampleSeat], List.nodup_singleton _⟩, .empty⟩

/-- A snapshot that shows the seat with that status. -/
def sampleSnapshot (status : String) (epoch : ℤ) : CommitteeSnapshot :=
  ⟨[⟨status, some "hot", some "cold", some 799⟩], some epoch⟩

theorem seededTimeline_sample (status status' : String) : SeededTimeline sampleCommittee
    [sampleSnapshot status 655, sampleSnapshot status' 656] where
  version := ⟨654, by simp [sampleCommittee, sampleSeat, sampleSnapshot]⟩
  past := by simp [sampleCommittee, sampleSeat]

/-- It is authorized in each snapshot. -/
theorem membership_follows_authorized : MembershipFollows sampleCommittee
    [sampleSnapshot "authorized" 655, sampleSnapshot "authorized" 656] sampleSeat :=
  (membership_follows_iff (seededTimeline_sample _ _) (by decide) (by decide) rfl).mpr
    fun _ _ => ⟨rfl, by decide⟩

/-- It has not authorized its hot key when it is first seen, and is out for good. -/
theorem not_membership_follows : ¬MembershipFollows sampleCommittee
    [sampleSnapshot "not_authorized" 655, sampleSnapshot "authorized" 656] sampleSeat := by
  intro h
  have hseated := h.seated 656 ⟨_, ⟨"authorized", some "hot", some "cold", some 799⟩, 799, rfl, rfl,
    by decide, rfl, rfl, by decide, by decide⟩
  revert hseated
  decide

end DrepTalk
