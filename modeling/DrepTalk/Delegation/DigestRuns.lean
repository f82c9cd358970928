import DrepTalk.Delegation.Digest
import DrepTalk.Library.FoldM
import DrepTalk.Library.Interleaving

/-!
# Runs of the delegation digest

Overlapping passes of `runDelegationDigest`, of any epochs, each of which may die before any query,
while the site changes everything but the tables of the digest.

**What the passes keep** (`DigestsRight`). A user has one digest of an epoch; an epoch that is
marked done has served everyone who was an active follower of a reportable DRep before its first
pass; and no pass issues more queries than it was given.

The tables hold the last two epochs. A pass that is still there when a later build prunes its epoch
may mark a row done that another such pass has built anew, and a user who is not active while an
epoch is served gets no digest when it is (`not_digestsRight`). In every run in which no epoch is
pruned while a pass of it is in flight, all of it holds for who has been active all along
(`digestsRight`).

**The argument.** The row of a DRep comes into its epoch with the marker and goes with it
(`DigestSettled`), and is never rewritten in between. So what the done check has seen of a follower
is still true when the mark is set.
-/

namespace DrepTalk

/-! ### Passes -/

def DigestProc.pass : DigestProc → DigestPass
  | .start p | .ready p | .listing p | .building p _ _ _ | .sending p | .checking p _
  | .marking p _ | .ended p _ _ | .died p => p

def DigestProc.epoch (l : DigestProc) : ℤ := l.pass.epoch

def DigestProc.InFlight : DigestProc → Prop
  | .ended _ _ _ | .died _ => False
  | _ => True

instance (l : DigestProc) : Decidable l.InFlight := by
  cases l <;> first | exact .isTrue trivial | exact .isFalse id

inductive DigestStart : DigestDb → DigestProc → Prop
  | pass (db : DigestDb) (current : ℤ) (recipients limit : ℕ) :
      DigestStart db (.start ⟨current, recipients, limit, 0⟩)

/-- The site leaves the tables of the digest alone. -/
structure DigestEnv (db db' : DigestDb) : Prop where
  summaries : db'.summaries = db.summaries
  epochs : db'.epochs = db.epochs
  notices : db'.notices = db.notices

structure NoDigests (db : DigestDb) : Prop where
  summaries : db.summaries.rows = []
  epochs : db.epochs.rows = []
  notices : db.notices.rows = []

def digestProgram (cfg : EpochAnchor) : Program DigestDb DigestProc where
  Start := DigestStart
  Step db l db' l' := ∃ input, digestStep cfg input db l = some (db', l')
  Env := DigestEnv

def DigestDb.Marked (db : DigestDb) (epoch : ℤ) : Prop := ∃ m ∈ db.epochs.rows, m.epoch = epoch

def DigestProc.Prunes (db : DigestDb) (epoch : ℤ) : DigestProc → Prop
  | .building p _ [] _ => epoch < p.epoch - 1 ∧ db.Marked epoch
  | _ => False

/-- The condition on a run: no epoch is pruned while a pass of it is in flight. -/
def prunesIdle : Program.Condition DigestDb DigestProc where
  state _ := True
  mover _ _ := True
  others db l m := m.InFlight → ¬l.Prunes db m.epoch

/-! ### What holds of a run -/

/-- The user's follow is resolved to the DRep. -/
def DigestDb.Follows (db : DigestDb) (userId drepId : String) : Prop :=
  ∃ f ∈ db.follows.rows, f.userId = userId ∧ f.toDrep = some drepId

def DigestDb.FollowsActive (db : DigestDb) (userId drepId : String) : Prop :=
  db.Follows userId drepId ∧ isActive db userId = true

/-- The DRep has a summary for the epoch. -/
def DigestDb.HasRow (db : DigestDb) (epoch : ℤ) (drepId : String) : Prop :=
  ∃ s ∈ db.summaries.rows, s.epoch = epoch ∧ s.drepId = drepId

def DigestDb.Reports (db : DigestDb) (epoch : ℤ) (drepId : String) : Prop :=
  ∃ s ∈ db.summaries.rows, s.epoch = epoch ∧ s.drepId = drepId ∧ s.reportable = true

def DigestDb.Done (db : DigestDb) (epoch : ℤ) : Prop :=
  ∃ m ∈ db.epochs.rows, m.epoch = epoch ∧ m.doneAt.isSome = true

section

variable {ι : Type*} (M : TransitionSystem (Interleaved DigestDb DigestProc ι) (Move ι))

/-- Something has held since before the first pass of the epoch. -/
def HeldSince (epoch : ℤ) (P : DigestDb → Prop) (s : Interleaved DigestDb DigestProc ι) : Prop :=
  ∃ s₀, M.Reachable s₀ ∧ (∀ i l, s₀.procs i = some l → l.epoch ≠ epoch) ∧
    (M.restrict fun t _ => P t.shared).Leads s₀ s ∧ P s.shared

/-- What the claims about a run come to. -/
structure DigestsRight (s : Interleaved DigestDb DigestProc ι) : Prop where
  once : ∀ n ∈ s.shared.notices.rows, ∀ n' ∈ s.shared.notices.rows,
    n.recipientId = n'.recipientId → n.payload.epoch = n'.payload.epoch → n = n'
  delivered : (∀ i l, s.procs i = some l → ¬l.InFlight) → ∀ epoch userId drepId,
    s.shared.Done epoch → s.shared.Reports epoch drepId →
      HeldSince M epoch (·.FollowsActive userId drepId) s → hasDigest s.shared userId epoch = true
  withinAllowance : ∀ i l, s.procs i = some l → l.pass.spent ≤ l.pass.limit

end

/-! ### One query -/

/-- The queries a pass may issue before it asks again. -/
def DigestProc.owes : DigestProc → ℕ
  | .listing _ => 1
  | .building _ followed todo _ => todo.length + batchCost followed.length
  | .checking _ _ => 2
  | .marking _ _ => 1
  | .start _ | .ready _ | .sending _ | .ended _ _ _ | .died _ => 0

/-- What a query does: to the pass, and to the tables. -/
inductive DigestMoves (db : DigestDb) : DigestProc → DigestDb → DigestProc → Prop
  | stops {l l' : DigestProc} {n : ℕ} (hends : ¬l'.InFlight) (hpass : l'.pass = l.pass.spend n)
      (hcost : n ≤ l.owes ∨ l.pass.covers n = true) : DigestMoves db l db l'
  | unmarked {p : DigestPass} (hcovers : p.covers 1 = true) :
      DigestMoves db (.start p) db (.ready (p.spend 1))
  | marked {p : DigestPass} (hcovers : p.covers 1 = true) (hmarked : db.Marked p.epoch) :
      DigestMoves db (.start p) db (.sending (p.spend 1))
  | readied {p : DigestPass} (hcovers : p.covers 2 = true) :
      DigestMoves db (.ready p) db (.listing (p.spend 1))
  | listed {p : DigestPass}
      (hcovers : (p.spend 1).covers (buildCost (getFollowedDrepIds db).length) = true) :
      DigestMoves db (.listing p) db
        (.building (p.spend 1) (getFollowedDrepIds db) (chunksOf DREP_CHUNK (getFollowedDrepIds db))
          [])
  | read {p : DigestPass} {followed part : List String} {todo : List (List String)}
      {voteChunks voteChunks' : List (List DigestVote)} :
      DigestMoves db (.building p followed (part :: todo) voteChunks) db
        (.building (p.spend 1) followed todo voteChunks')
  | built {p : DigestPass} {followed : List String} {voteChunks : List (List DigestVote)}
      {dbNow : ℤ} {l' : DigestProc}
      (hends : l' = .ended (p.spend (batchCost followed.length)) .done 0 ∨
        l' = .sending (p.spend (batchCost followed.length))) :
      DigestMoves db (.building p followed [] voteChunks)
        (digestBatch db p.epoch (summaryRows p.epoch voteChunks followed) dbNow) l'
  | sent {p : DigestPass} {dbNow : ℤ} {draw : ℕ → String} {notices : DigestNoticeTable}
      {inserted : ℕ} {l' : DigestProc} (hcovers : p.covers 3 = true)
      (hsent : sendDigests db p.epoch p.recipients dbNow draw = some (notices, inserted))
      (hends : l' = .ended (p.spend 1) .sending inserted ∨ l' = .checking (p.spend 1) inserted) :
      DigestMoves db (.sending p) { db with notices := notices } l'
  | checked {p : DigestPass} {inserted : ℕ} (hnone : anyPending db p.epoch = false) :
      DigestMoves db (.checking p inserted) db (.marking (p.spend 1) inserted)
  | done {p : DigestPass} {inserted : ℕ} {dbNow : ℤ} :
      DigestMoves db (.marking p inserted) (markDone db p.epoch dbNow)
        (.ended (p.spend 1) .done inserted)

theorem covers_mono {p : DigestPass} {n m : ℕ} (h : p.covers m = true) (hle : n ≤ m) :
    p.covers n = true := by
  rw [DigestPass.covers, decide_eq_true_eq] at h ⊢
  omega

variable {l l' : DigestProc}

theorem digestStep_moves {cfg : EpochAnchor} {input : DigestInput} {db db' : DigestDb}
    (h : digestStep cfg input db l = some (db', l')) :
    DigestMoves db l db' l' := by
  cases l with
  | start p =>
    simp only [digestStep] at h
    split_ifs at h with hdeferred hdies
    · cases h
      exact .stops id rfl (.inl le_rfl)
    · have hcovers : p.covers 1 = true := by simpa using hdeferred
      cases h
      exact .stops id rfl (.inr hcovers)
    · have hcovers : p.covers 1 = true := by simpa using hdeferred
      cases h
      unfold readMarker
      split
      · exact .unmarked hcovers
      · rename_i marker hmarker
        split_ifs
        · exact .stops id rfl (.inr hcovers)
        · exact .marked hcovers
            ⟨marker, List.mem_of_find?_eq_some hmarker, by simpa using List.find?_some hmarker⟩
  | ready p =>
    simp only [digestStep] at h
    split_ifs at h with hdeferred hdies hready
    · cases h
      exact .stops id rfl (.inl le_rfl)
    all_goals
      have hcovers : p.covers 2 = true := by simpa using hdeferred
      have hone : p.covers 1 = true := covers_mono hcovers (by decide)
      cases h
    exacts [.stops id rfl (.inr hone), .stops id rfl (.inr hone), .readied hcovers]
  | listing p =>
    simp only [digestStep] at h
    split_ifs at h with hdies
    · cases h
      exact .stops id rfl (.inl le_rfl)
    · cases h
      unfold readFollowed
      by_cases hcovers : (p.spend 1).covers (buildCost (getFollowedDrepIds db).length) = true
      · simp only [hcovers, if_true]
        exact .listed hcovers
      · simp only [hcovers]
        exact .stops id rfl (.inl le_rfl)
  | building p followed todo voteChunks =>
    rcases todo with _ | ⟨part, todo⟩
    · simp only [digestStep] at h
      split_ifs at h <;> cases h
      · exact .stops id rfl (.inl (Nat.le_add_left _ _))
      · exact .built (.inl rfl)
      · exact .built (.inr rfl)
    · simp only [digestStep] at h
      split_ifs at h with hdies
      · cases h
        exact .stops id rfl (.inl (by simp only [DigestProc.owes, List.length_cons]; omega))
      · cases h
        exact .read
  | sending p =>
    simp only [digestStep] at h
    split_ifs at h with hdeferred hdies
    · cases h
      exact .stops id rfl (.inl le_rfl)
    all_goals
      have hcovers : p.covers 3 = true := by simpa using hdeferred
      have hone : p.covers 1 = true := covers_mono hcovers (by decide)
    · cases h
      exact .stops id rfl (.inr hone)
    · split at h
      · cases h
        exact .stops id rfl (.inr hone)
      · rename_i notices inserted hsent
        split_ifs at h <;> cases h
        · exact .sent hcovers hsent (.inl rfl)
        · exact .sent hcovers hsent (.inr rfl)
  | checking p inserted =>
    simp only [digestStep] at h
    split_ifs at h with hdies hpending
    · cases h
      exact .stops id rfl (.inl one_le_two)
    · cases h
      exact .stops id rfl (.inl one_le_two)
    · cases h
      exact .checked (Bool.not_eq_true _ ▸ hpending)
  | marking p inserted =>
    simp only [digestStep] at h
    split_ifs at h with hdies
    · cases h
      exact .stops id rfl (.inl le_rfl)
    · cases h
      exact .done
  | ended | died => cases h

/-! ### Queries -/

/-- A pass has been given what it has spent and may still spend. -/
def DigestProc.Affords (l : DigestProc) : Prop := l.pass.covers l.owes = true

theorem length_chunksOf (size : ℕ) (ids : List String) :
    (chunksOf size ids).length = ceilDiv ids.length size := by
  rw [chunksOf, List.length_map, List.length_range, ceilDiv]

theorem owes_of_not_inFlight (h : ¬l.InFlight) : l.owes = 0 := by
  cases l with
  | ended | died => rfl
  | _ => exact absurd trivial h

/-- **The budget.** A pass never issues a query it has not asked for. -/
theorem DigestMoves.affords {db db' : DigestDb} (h : DigestMoves db l db' l') (hl : l.Affords) :
    l'.Affords := by
  simp only [DigestProc.Affords, DigestPass.covers, decide_eq_true_eq] at hl ⊢
  cases h with
  | stops hends hpass hcost =>
    rw [owes_of_not_inFlight hends, hpass]
    simp only [DigestPass.covers, decide_eq_true_eq, DigestPass.spend] at hcost ⊢
    omega
  | unmarked hcovers | marked hcovers | readied hcovers =>
    exact of_decide_eq_true hcovers
  | listed hcovers =>
    rw [DigestProc.pass, DigestProc.owes, length_chunksOf]
    exact of_decide_eq_true hcovers
  | read =>
    simp only [DigestProc.pass, DigestProc.owes, List.length_cons, DigestPass.spend] at hl ⊢
    omega
  | built hends =>
    simp only [DigestProc.pass, DigestProc.owes, List.length_nil] at hl
    rcases hends with rfl | rfl <;> simp only [DigestProc.pass, DigestProc.owes, DigestPass.spend] <;>
      omega
  | sent hcovers _ hends =>
    simp only [DigestPass.covers, decide_eq_true_eq] at hcovers
    rcases hends with rfl | rfl <;> simp only [DigestProc.pass, DigestProc.owes, DigestPass.spend] <;>
      omega
  | checked | done =>
    simp only [DigestProc.pass, DigestProc.owes, DigestPass.spend] at hl ⊢
    omega

/-! ### Sending -/

theorem insertDigest_spec {t t' : DigestNoticeTable × ℕ} {n : DigestNotice}
    (h : insertDigest t n = some t') : (∀ m ∈ t.1.rows, m ∈ t'.1.rows) ∧
      ∀ m ∈ t'.1.rows, m ∈ t.1.rows ∨ m = n := by
  rw [insertDigest] at h
  split_ifs at h <;> cases h
  · exact ⟨fun m hm => hm, fun m hm => .inl hm⟩
  · rcases hinserted : (t.1.insertOrIgnore n).2 with _ | _
    · have hrows : (t.1.insertOrIgnore n).1.rows = t.1.rows :=
        congrArg (·.rows) (DoublyKeyedTable.insertOrIgnore_of_false hinserted).1
      rw [hrows]
      exact ⟨fun m hm => hm, fun m hm => .inl hm⟩
    · obtain ⟨hrows, -⟩ := DoublyKeyedTable.insertOrIgnore_of_true hinserted
      rw [hrows]
      refine ⟨fun m hm => List.mem_append_left _ hm, fun m hm => ?_⟩
      exact (List.mem_append.mp hm).imp_right List.mem_singleton.mp

theorem sendDigests_spec {db : DigestDb} {epoch dbNow : ℤ} {limit : ℕ} {draw : ℕ → String}
    {t : DigestNoticeTable × ℕ} (h : sendDigests db epoch limit dbNow draw = some t) :
    (∀ n ∈ db.notices.rows, n ∈ t.1.rows) ∧ ∀ n ∈ t.1.rows, n ∈ db.notices.rows ∨
      ∃ id, ∃ r ∈ pendingRecipients db epoch, n = digestNotice epoch dbNow id r := by
  refine foldlM_some (P := fun t : DigestNoticeTable × ℕ => (∀ n ∈ db.notices.rows, n ∈ t.1.rows) ∧
    ∀ n ∈ t.1.rows, n ∈ db.notices.rows ∨
      ∃ id, ∃ r ∈ pendingRecipients db epoch, n = digestNotice epoch dbNow id r)
    (fun n hn b b' hb hinsert => ?_) ⟨fun n hn => hn, fun n hn => .inl hn⟩ h
  obtain ⟨i, hi, rfl⟩ := List.mem_mapIdx.mp hn
  have hpending : (((pendingRecipients db epoch).insertionSort recipientOrder).take limit)[i] ∈
      pendingRecipients db epoch :=
    List.mem_insertionSort _ |>.mp (List.mem_of_mem_take (List.getElem_mem hi))
  obtain ⟨hkept, hfrom⟩ := insertDigest_spec hinsert
  refine ⟨fun n hn => hkept n (hb.1 n hn), fun n hn => ?_⟩
  rcases hfrom n hn with hold | rfl
  · exact hb.2 n hold
  · exact .inr ⟨_, _, hpending, rfl⟩

theorem mem_pendingRecipients {db : DigestDb} {epoch : ℤ} {s : DigestDrepRow} {f : FollowRow} :
    (s, f) ∈ pendingRecipients db epoch ↔ (s ∈ db.summaries.rows ∧ s.epoch = epoch ∧
      s.reportable = true) ∧ f ∈ db.follows.rows ∧ f.toDrep = some s.drepId ∧
        isActive db f.userId = true ∧ hasDigest db f.userId epoch = false := by
  simp only [pendingRecipients, List.mem_flatMap, List.mem_filter, List.mem_map, Bool.and_eq_true,
    beq_iff_eq, Bool.not_eq_true', Prod.mk.injEq, and_assoc]
  constructor
  · rintro ⟨s', hs', hepoch, hreports, f', hf', hdrep, hactive, hnone, rfl, rfl⟩
    exact ⟨hs', hepoch, hreports, hf', hdrep, hactive, hnone⟩
  · rintro ⟨hs, hepoch, hreports, hf, hdrep, hactive, hnone⟩
    exact ⟨s, hs, hepoch, hreports, f, hf, hdrep, hactive, hnone, rfl, rfl⟩

theorem hasDigest_iff {db : DigestDb} {userId : String} {epoch : ℤ} :
    hasDigest db userId epoch = true ↔
      ∃ n ∈ db.notices.rows, n.recipientId = userId ∧ n.eventKey = digestKey userId epoch := by
  simp only [hasDigest, List.any_eq_true, Bool.and_eq_true, beq_iff_eq]

/-! ### One digest for each epoch -/

/-- A digest says its epoch, and its key does too. -/
structure DigestsKeyed (db : DigestDb) : Prop where
  summaries : ∀ s ∈ db.summaries.rows, s.payload.epoch = s.epoch
  notices : ∀ n ∈ db.notices.rows, n.eventKey = digestKey n.recipientId n.payload.epoch

theorem mem_digestBatch (db : DigestDb) (epoch : ℤ) (rows : List DigestDrepRow) (dbNow : ℤ) :
    (∀ s ∈ db.summaries.rows, epoch - 1 ≤ s.epoch →
      s ∈ (digestBatch db epoch rows dbNow).summaries.rows) ∧
    (∀ s ∈ (digestBatch db epoch rows dbNow).summaries.rows,
      s ∈ db.summaries.rows ∧ epoch - 1 ≤ s.epoch ∨ s ∈ rows) ∧
    ∀ s ∈ rows, ∃ s' ∈ (digestBatch db epoch rows dbNow).summaries.rows,
      s'.epoch = s.epoch ∧ s'.drepId = s.drepId := by
  have hkept : ∀ s, s ∈ (db.summaries.deleteWhere fun s => decide (s.epoch < epoch - 1)).rows ↔
      s ∈ db.summaries.rows ∧ epoch - 1 ≤ s.epoch := fun s =>
    Table.mem_deleteWhere.trans (and_congr_right fun _ => by simp)
  have hinserted := @KeyedTable.mem_insertAll _ _ _ _
    (db.summaries.deleteWhere fun s => decide (s.epoch < epoch - 1)) rows
  obtain ⟨hstay, hfrom, hheld⟩ := hinserted
  refine ⟨fun s hs hle => hstay s ((hkept s).mpr ⟨hs, hle⟩), fun s hs =>
    (hfrom s hs).imp_left (hkept s).mp, fun s hs => ?_⟩
  obtain ⟨s', hs', hkey⟩ := hheld s hs
  exact ⟨s', hs', (Prod.mk.inj hkey).1, (Prod.mk.inj hkey).2⟩

theorem mem_summaryRows {epoch : ℤ} {voteChunks : List (List DigestVote)} {followed : List String}
    {s : DigestDrepRow} (h : s ∈ summaryRows epoch voteChunks followed) :
    s.epoch = epoch ∧ s.payload.epoch = epoch := by
  obtain ⟨drepId, -, rfl⟩ := List.mem_map.mp h
  exact ⟨rfl, rfl⟩

theorem DigestsKeyed.moves
    {db db' : DigestDb}
    (hdb : DigestsKeyed db)
    (h : DigestMoves db l db' l') : DigestsKeyed db' := by
  cases h with
  | built =>
    refine ⟨fun s hs => ?_, hdb.notices⟩
    rcases (mem_digestBatch _ _ _ _).2.1 s hs with ⟨hold, -⟩ | hnew
    · exact hdb.summaries s hold
    · obtain ⟨hepoch, hpayload⟩ := mem_summaryRows hnew
      exact hpayload.trans hepoch.symm
  | sent _ hsent =>
    refine ⟨hdb.summaries, fun n hn => ?_⟩
    rcases (sendDigests_spec hsent).2 n hn with hold | ⟨id, ⟨s, f⟩, hr, rfl⟩
    · exact hdb.notices n hold
    · obtain ⟨⟨hs, hepoch, -⟩, -⟩ := mem_pendingRecipients.mp hr
      have hpayload : s.payload.epoch = _ := (hdb.summaries s hs).trans hepoch
      rw [digestNotice, hpayload]
  | done => exact ⟨hdb.summaries, hdb.notices⟩
  | stops | unmarked | marked | readied | listed | read | checked => exact hdb

/-- The parts of the invariant that needs no condition. -/
def digestSound (cfg : EpochAnchor) : (digestProgram cfg).Sound NoDigests where
  inv := DigestsKeyed
  asserts _ l := l.Affords
  apart _ _ := True
  symm _ _ _ := trivial
  init db h := ⟨by rw [h.summaries]; nofun, by rw [h.notices]; nofun⟩
  start db l _ hstart := by
    cases hstart
    exact ⟨decide_eq_true (Nat.zero_le _), fun _ _ => trivial⟩
  step := by
    rintro db l db' l' hdb hl ⟨input, h⟩
    exact ⟨hdb.moves (digestStep_moves h), (digestStep_moves h).affords hl⟩
  noninterference _ _ _ _ _ _ _ hm _ _ := ⟨hm, trivial⟩
  env := by
    rintro db db' hdb henv
    exact ⟨⟨henv.summaries ▸ hdb.summaries, henv.notices ▸ hdb.notices⟩, fun _ hm => hm⟩

/-! ### The rows of an epoch -/

/-- A user who waits for the digest of a DRep has it. -/
def DigestDb.Delivered (db : DigestDb) (epoch : ℤ) (userId drepId : String) : Prop :=
  db.Reports epoch drepId → hasDigest db userId epoch = true

/-- The row of a DRep is there with the marker, and a done epoch has served the user. -/
structure DigestSettled (epoch : ℤ) (userId drepId : String) (db : DigestDb) : Prop where
  marked : db.Marked epoch ↔ db.HasRow epoch drepId
  done : db.Done epoch → db.Delivered epoch userId drepId

/-- What a pass may assert: it has read the DRep, it works on an epoch that is marked, and what it
is about to mark done is. -/
def DigestProc.Asserts (epoch : ℤ) (userId drepId : String) (db : DigestDb) : DigestProc → Prop
  | .building p followed _ _ => p.epoch = epoch → drepId ∈ followed
  | .sending p | .checking p _ => p.epoch = epoch → db.Marked epoch
  | .marking p _ => p.epoch = epoch → db.Marked epoch ∧ db.Delivered epoch userId drepId
  | .start _ | .ready _ | .listing _ | .ended _ _ _ | .died _ => True

/-- The row of a DRep and the marker of its epoch are as they were. -/
structure Untouched (epoch : ℤ) (drepId : String) (db db' : DigestDb) : Prop where
  summaries : ∀ s, s.epoch = epoch → s.drepId = drepId →
    (s ∈ db'.summaries.rows ↔ s ∈ db.summaries.rows)
  epochs : ∀ m, m.epoch = epoch → (m ∈ db'.epochs.rows ↔ m ∈ db.epochs.rows)
  notices : ∀ n ∈ db.notices.rows, n ∈ db'.notices.rows

theorem Untouched.refl (epoch : ℤ) (drepId : String) (db : DigestDb) :
    Untouched epoch drepId db db :=
  ⟨fun _ _ _ => .rfl, fun _ _ => .rfl, fun _ h => h⟩

section

variable {epoch : ℤ} {userId drepId : String} {db db' : DigestDb}

theorem hasDigest_mono (h : ∀ n ∈ db.notices.rows, n ∈ db'.notices.rows)
    (hhas : hasDigest db userId epoch = true) : hasDigest db' userId epoch = true := by
  obtain ⟨n, hn, hkey⟩ := hasDigest_iff.mp hhas
  exact hasDigest_iff.mpr ⟨n, h n hn, hkey⟩

namespace Untouched

variable (h : Untouched epoch drepId db db')

include h

theorem marked : db'.Marked epoch ↔ db.Marked epoch :=
  exists_congr fun m => and_congr_left fun hm => h.epochs m hm

theorem done : db'.Done epoch ↔ db.Done epoch :=
  exists_congr fun m => and_congr_left fun hm => h.epochs m hm.1

theorem reports : db'.Reports epoch drepId ↔ db.Reports epoch drepId :=
  exists_congr fun s => and_congr_left fun hs => h.summaries s hs.1 hs.2.1

theorem delivered (hdb : db.Delivered epoch userId drepId) : db'.Delivered epoch userId drepId :=
  fun hreports => hasDigest_mono h.notices (hdb (h.reports.mp hreports))

theorem settled (hdb : DigestSettled epoch userId drepId db) :
    DigestSettled epoch userId drepId db' where
  marked := h.marked.trans (hdb.marked.trans
    (exists_congr fun s => and_congr_left fun hs => h.summaries s hs.1 hs.2).symm)
  done hdone := h.delivered (hdb.done (h.done.mp hdone))

end Untouched

variable {epoch' dbNow : ℤ} {rows : List DigestDrepRow}

theorem untouched_digestBatch (hrows : ∀ s ∈ rows, s.epoch = epoch') (hne : epoch' ≠ epoch)
    (hle : epoch' - 1 ≤ epoch) :
    Untouched epoch drepId db (digestBatch db epoch' rows dbNow) := by
  obtain ⟨hstay, hfrom, -⟩ := mem_digestBatch db epoch' rows dbNow
  refine ⟨fun s hs _ => ⟨fun hmem => ?_, fun hmem => hstay s hmem (hs ▸ hle)⟩, fun m hm => ?_,
    fun _ hn => hn⟩
  · rcases hfrom s hmem with ⟨hold, -⟩ | hnew
    · exact hold
    · exact absurd ((hrows s hnew).symm.trans hs) hne
  · refine KeyedTable.mem_insertOrIgnore.trans ⟨?_, fun hmem => .inl ?_⟩
    · rintro (hmem | ⟨rfl, -⟩)
      · exact (Table.mem_deleteWhere.mp hmem).1
      · exact absurd hm hne
    · exact Table.mem_deleteWhere.mpr ⟨hmem, by simpa [hm] using hle⟩

theorem untouched_rebuild (hmarked : db.Marked epoch) (hrow : db.HasRow epoch drepId) :
    Untouched epoch drepId db (digestBatch db epoch rows dbNow) := by
  obtain ⟨hstay, -, -⟩ := mem_digestBatch db epoch rows dbNow
  have hkeep : epoch - 1 ≤ epoch := by omega
  refine ⟨fun s hs hdrep => ⟨fun hmem => ?_, fun hmem => hstay s hmem (hs ▸ hkeep)⟩,
    fun m hm => ?_, fun _ hn => hn⟩
  · -- the key is taken by the row that has been there
    obtain ⟨s', hs', hepoch', hdrep'⟩ := hrow
    have hstays := hstay s' hs' (hepoch' ▸ hkeep)
    have hsame := (digestBatch db epoch rows dbNow).summaries.eq_of_key hmem hstays
      (Prod.ext (hs.trans hepoch'.symm) (hdrep.trans hdrep'.symm))
    exact hsame ▸ hs'
  · have hold : ∀ m : DigestEpochRow, m.epoch = epoch → m ∈ db.epochs.rows →
        m ∈ (db.epochs.deleteWhere fun m => decide (m.epoch < epoch - 1)).rows := fun m hm hmem =>
      Table.mem_deleteWhere.mpr ⟨hmem, by simp [hm]⟩
    refine KeyedTable.mem_insertOrIgnore.trans ⟨?_, fun hmem => .inl (hold m hm hmem)⟩
    rintro (hmem | ⟨-, hfree⟩)
    · exact (Table.mem_deleteWhere.mp hmem).1
    · obtain ⟨m', hm', hepoch'⟩ := hmarked
      exact absurd (List.mem_map.mpr ⟨m', hold m' hepoch' hm', hepoch'⟩) hfree

theorem marked_firstBuild (hnew : ¬db.Marked epoch) :
    (digestBatch db epoch rows dbNow).Marked epoch := by
  refine ⟨_, KeyedTable.mem_insertOrIgnore.mpr (.inr ⟨rfl, fun htaken => ?_⟩), rfl⟩
  obtain ⟨m, hm, hepoch⟩ := List.mem_map.mp htaken
  exact hnew ⟨m, (Table.mem_deleteWhere.mp hm).1, hepoch⟩

theorem settled_firstBuild (hnew : ¬db.Marked epoch) (hnone : ¬db.HasRow epoch drepId)
    (hrow : ∃ s ∈ rows, s.epoch = epoch ∧ s.drepId = drepId) :
    DigestSettled epoch userId drepId (digestBatch db epoch rows dbNow) := by
  obtain ⟨-, hfrom, hheld⟩ := mem_digestBatch db epoch rows dbNow
  refine ⟨⟨fun _ => ?_, fun _ => marked_firstBuild hnew⟩, fun ⟨m, hm, hepoch, hdone⟩ => ?_⟩
  · obtain ⟨s, hs, hepoch, hdrep⟩ := hrow
    obtain ⟨s', hs', hepoch', hdrep'⟩ := hheld s hs
    exact ⟨s', hs', hepoch'.trans hepoch, hdrep'.trans hdrep⟩
  · rintro ⟨s, hs, hsepoch, hdrep, hreports⟩
    rcases KeyedTable.mem_insertOrIgnore.mp hm with hold | ⟨rfl, -⟩
    · exact absurd ⟨m, (Table.mem_deleteWhere.mp hold).1, hepoch⟩ hnew
    · have hzero : reportableCount rows = 0 := by
        by_contra hcount
        rw [if_neg hcount] at hdone
        cases hdone
      rcases hfrom s hs with ⟨hold, -⟩ | hmem
      · exact absurd ⟨s, hold, hsepoch, hdrep⟩ hnone
      · exact absurd hreports (List.countP_eq_zero.mp hzero s hmem)

theorem settled_pruned (hrows : ∀ s ∈ rows, s.epoch = epoch') (hlt : epoch < epoch' - 1) :
    DigestSettled epoch userId drepId (digestBatch db epoch' rows dbNow) := by
  obtain ⟨-, hfrom, -⟩ := mem_digestBatch db epoch' rows dbNow
  have hnomark : ¬(digestBatch db epoch' rows dbNow).Marked epoch := by
    rintro ⟨m, hm, hepoch⟩
    rcases KeyedTable.mem_insertOrIgnore.mp hm with hold | ⟨rfl, -⟩
    · have hkept := (Table.mem_deleteWhere.mp hold).2
      rw [decide_eq_false_iff_not] at hkept
      omega
    · dsimp only at hepoch
      omega
  refine ⟨iff_of_false hnomark ?_, fun ⟨m, hm, hepoch, _⟩ => absurd ⟨m, hm, hepoch⟩ hnomark⟩
  rintro ⟨s, hs, hepoch, -⟩
  rcases hfrom s hs with ⟨-, hle⟩ | hmem
  · omega
  · have := hrows s hmem
    omega

theorem settled_markDone (hdb : DigestSettled epoch userId drepId db)
    (hdelivered : db.Delivered epoch userId drepId) :
    DigestSettled epoch userId drepId (markDone db epoch dbNow) := by
  refine ⟨Iff.trans ⟨?_, ?_⟩ hdb.marked, fun _ => hdelivered⟩
  · rintro ⟨m, hm, hepoch⟩
    rcases Table.mem_updateWhere.mp hm with ⟨hmem, -⟩ | ⟨m₀, hmem, -, rfl⟩
    · exact ⟨m, hmem, hepoch⟩
    · exact ⟨m₀, hmem, hepoch⟩
  · rintro ⟨m, hm, hepoch⟩
    refine ⟨_, Table.mem_updateWhere_of_mem _ _ hm, ?_⟩
    split_ifs <;> exact hepoch

theorem untouched_markDone (hne : epoch' ≠ epoch) :
    Untouched epoch drepId db (markDone db epoch' dbNow) := by
  refine ⟨fun _ _ _ => .rfl, fun m hm => Table.mem_updateWhere.trans ⟨?_, fun hmem => .inl ?_⟩,
    fun _ hn => hn⟩
  · rintro (⟨hmem, -⟩ | ⟨m, hmem, hp, rfl⟩)
    · exact hmem
    · rw [Bool.and_eq_true, beq_iff_eq] at hp
      exact absurd (hp.1.symm.trans hm) hne
  · exact ⟨hmem, by simpa [hm] using fun h => absurd h.symm hne⟩

/-! ### Steps -/

variable {l : DigestProc}

theorem asserts_of_not_inFlight (h : ¬l.InFlight) :
    l.Asserts epoch userId drepId db := by
  cases l with
  | ended | died => trivial
  | _ => exact absurd trivial h

theorem DigestProc.Asserts.mono {l : DigestProc} (hl : l.Asserts epoch userId drepId db)
    (h : db.Marked epoch → db'.Marked epoch ∧
      (db.Delivered epoch userId drepId → db'.Delivered epoch userId drepId)) :
    l.Asserts epoch userId drepId db' := by
  cases l with
  | building => exact hl
  | sending | checking => exact fun hp => (h (hl hp)).1
  | marking => exact fun hp => ⟨(h (hl hp).1).1, (h (hl hp).1).2 (hl hp).2⟩
  | start | ready | listing | ended | died => trivial

/-- What a step leaves of an epoch: unless it prunes it, a marked epoch stays marked, and who has
been served stays so. -/
def KeepsEpoch (epoch : ℤ) (userId drepId : String) (db db' : DigestDb) : Prop :=
  db.Marked epoch → db'.Marked epoch ∧
    (db.Delivered epoch userId drepId → db'.Delivered epoch userId drepId)

theorem Untouched.keepsEpoch (h : Untouched epoch drepId db db') :
    KeepsEpoch epoch userId drepId db db' :=
  fun hmarked => ⟨h.marked.mpr hmarked, h.delivered⟩

theorem DigestMoves.settled {l' : DigestProc} (h : DigestMoves db l db' l')
    (hdb : DigestSettled epoch userId drepId db) (hl : l.Asserts epoch userId drepId db) :
    DigestSettled epoch userId drepId db' ∧
      (l.Prunes db epoch ∨ KeepsEpoch epoch userId drepId db db') := by
  have huntouched : ∀ {db' : DigestDb}, Untouched epoch drepId db db' →
      DigestSettled epoch userId drepId db' ∧
        (l.Prunes db epoch ∨ KeepsEpoch epoch userId drepId db db') :=
    fun h => ⟨h.settled hdb, .inr h.keepsEpoch⟩
  cases h with
  | stops | unmarked | marked | readied | listed | read | checked => exact huntouched (.refl _ _ _)
  | sent _ hsent =>
    exact huntouched ⟨fun _ _ _ => .rfl, fun _ _ => .rfl, (sendDigests_spec hsent).1⟩
  | @built p followed voteChunks dbNow _ _ =>
    have hrows : ∀ s ∈ summaryRows p.epoch voteChunks followed, s.epoch = p.epoch :=
      fun s hs => (mem_summaryRows hs).1
    by_cases hown : p.epoch = epoch
    · subst hown
      by_cases hmarked : db.Marked p.epoch
      · exact huntouched (untouched_rebuild hmarked (hdb.marked.mp hmarked))
      · have hrow : summaryRow p.epoch voteChunks drepId ∈
            summaryRows p.epoch voteChunks followed := List.mem_map_of_mem (hl rfl)
        exact ⟨settled_firstBuild hmarked (fun h => hmarked (hdb.marked.mpr h))
          ⟨_, hrow, rfl, rfl⟩, .inr fun h => absurd h hmarked⟩
    · by_cases hprunes : epoch < p.epoch - 1
      · refine ⟨settled_pruned hrows hprunes, ?_⟩
        by_cases hmarked : db.Marked epoch
        · exact .inl ⟨hprunes, hmarked⟩
        · exact .inr fun h => absurd h hmarked
      · exact huntouched (untouched_digestBatch hrows hown (not_lt.mp hprunes))
  | @done p inserted dbNow =>
    by_cases hown : p.epoch = epoch
    · subst hown
      obtain ⟨hmarked, hdelivered⟩ := hl rfl
      have hsettled : DigestSettled _ userId drepId (markDone db _ dbNow) :=
        settled_markDone hdb hdelivered
      exact ⟨hsettled, .inr fun _ => ⟨hsettled.marked.mpr (hdb.marked.mp hmarked), id⟩⟩
    · exact huntouched (untouched_markDone hown)

/-- **A step of a pass.** Where the user is an active follower as the passes of the epoch move, each
asserts what the next one relies on. -/
theorem DigestMoves.asserts {l' : DigestProc} (h : DigestMoves db l db' l')
    (hdb : DigestSettled epoch userId drepId db) (hl : l.Asserts epoch userId drepId db)
    (hfollows : l.epoch = epoch → db.FollowsActive userId drepId) :
    l'.Asserts epoch userId drepId db' := by
  cases h with
  | stops hends => exact asserts_of_not_inFlight hends
  | unmarked | readied => trivial
  | marked _ hmarked => exact fun hp => hp ▸ hmarked
  | listed =>
    intro hp
    obtain ⟨⟨f, hf, -, hdrep⟩, -⟩ := hfollows hp
    exact List.mem_dedup.mpr (List.mem_filterMap.mpr ⟨f, hf, hdrep⟩)
  | read => exact hl
  | @built p followed voteChunks dbNow _ hends =>
    rcases hends with rfl | rfl
    · trivial
    · intro hp
      obtain rfl : p.epoch = epoch := hp
      by_cases hmarked : db.Marked p.epoch
      · exact (untouched_rebuild hmarked (hdb.marked.mp hmarked)).marked.mpr hmarked
      · exact marked_firstBuild hmarked
  | sent _ _ hends =>
    rcases hends with rfl | rfl
    · trivial
    · exact hl
  | checked hnone =>
    intro hp
    refine ⟨hl hp, fun ⟨s, hs, hepoch, hdrep, hreports⟩ => ?_⟩
    obtain ⟨⟨f, hf, huser, htoDrep⟩, hactive⟩ := hfollows hp
    subst huser
    by_contra hmissing
    -- a follower without a digest would be pending
    have hpending : (s, f) ∈ pendingRecipients db epoch := mem_pendingRecipients.mpr
      ⟨⟨hs, hepoch, hreports⟩, hf, hdrep ▸ htoDrep, hactive, Bool.not_eq_true _ ▸ hmissing⟩
    obtain rfl : _ = epoch := hp
    rw [anyPending, Bool.not_eq_false', List.isEmpty_iff] at hnone
    exact List.not_mem_nil (hnone ▸ hpending)
  | done => trivial

end

/-! ### Runs -/

/-- The condition that follows from following since before the first pass: at each query of a pass
of the epoch, the user is an active follower. -/
def keepsFollow (epoch : ℤ) (userId drepId : String) : Program.Condition DigestDb DigestProc where
  state _ := True
  mover db l := l.epoch = epoch → db.FollowsActive userId drepId
  others := prunesIdle.others

/-- The parts of the invariant of one follower and epoch. -/
def settledSound (cfg : EpochAnchor) (epoch : ℤ) (userId drepId : String) :
    (digestProgram cfg).SoundWhen (keepsFollow epoch userId drepId) NoDigests where
  inv := DigestSettled epoch userId drepId
  asserts db l := l.Asserts epoch userId drepId db
  apart _ _ := True
  symm _ _ _ := trivial
  init db h := by
    have hnomark : ∀ m, m ∉ db.epochs.rows := by rw [h.epochs]; nofun
    have hnorow : ∀ s, s ∉ db.summaries.rows := by rw [h.summaries]; nofun
    exact ⟨iff_of_false (fun ⟨m, hm, _⟩ => hnomark m hm) fun ⟨s, hs, _⟩ => hnorow s hs,
      fun ⟨m, hm, _⟩ => absurd hm (hnomark m)⟩
  start db l _ _ hstart := by
    cases hstart
    exact ⟨trivial, fun _ _ => trivial⟩
  step := by
    rintro db l db' l' - hfollows hdb hl ⟨input, h⟩
    exact ⟨((digestStep_moves h).settled hdb hl).1, (digestStep_moves h).asserts hdb hl hfollows⟩
  noninterference := by
    rintro db l db' l' m - - hidle hdb hl hm - ⟨input, h⟩
    refine ⟨?_, trivial⟩
    rcases ((digestStep_moves h).settled hdb hl).2 with hprunes | hkeeps
    · -- the epoch is pruned only where no pass of it is in flight
      by_cases hflight : m.InFlight
      · have hother : m.epoch ≠ epoch := fun heq => hidle hflight (heq ▸ hprunes)
        cases m with
        | building => exact hm
        | sending | checking | marking => exact fun hp => absurd hp hother
        | start | ready | listing | ended | died => trivial
      · exact asserts_of_not_inFlight hflight
    · exact hm.mono hkeeps
  env := by
    rintro db db' - hdb henv
    have h : Untouched epoch drepId db db' :=
      ⟨by rw [henv.summaries]; exact fun _ _ _ => .rfl, by rw [henv.epochs]; exact fun _ _ => .rfl,
        by rw [henv.notices]; exact fun _ h => h⟩
    exact ⟨h.settled hdb, fun m hm => hm.mono h.keepsEpoch⟩

theorem DigestMoves.epoch {db db' : DigestDb} (h : DigestMoves db l db' l') :
    l'.epoch = l.epoch := by
  cases h with
  | stops _ hpass => rw [DigestProc.epoch, hpass]; rfl
  | built hends | sent _ _ hends => rcases hends with rfl | rfl <;> rfl
  | unmarked | marked | readied | listed | read | checked | done => rfl

section

variable {cfg : EpochAnchor} {ι : Type*} [DecidableEq ι] {s s' : Interleaved DigestDb DigestProc ι}
  {epoch : ℤ} {userId drepId : String}

theorem pass_stays {move : Move ι} (h : (digestProgram cfg).Moves s move s') {i : ι}
    {l : DigestProc} (hl : s.procs i = some l) :
    ∃ l', s'.procs i = some l' ∧ l'.epoch = l.epoch := by
  rcases h with ⟨hnew, -⟩ | ⟨hproc, input, hstep⟩ | _
  · rename_i db procs j m
    have hij : i ≠ j := fun heq => Option.some_ne_none l (hl.symm.trans (heq ▸ hnew))
    exact ⟨l, (Function.update_of_ne hij _ _).trans hl, rfl⟩
  · rename_i db db' procs j m m'
    by_cases hij : i = j
    · subst hij
      cases hproc.symm.trans hl
      exact ⟨m', Function.update_self _ _ _, (digestStep_moves hstep).epoch⟩
    · exact ⟨l, (Function.update_of_ne hij _ _).trans hl, rfl⟩
  · exact ⟨l, hl, rfl⟩

omit [DecidableEq ι] in
theorem met_keepsFollow {move : Move ι} (h : prunesIdle.Met s move)
    (hfollows : ∀ i l, move = .step i → s.procs i = some l → l.epoch = epoch →
      s.shared.FollowsActive userId drepId) : (keepsFollow epoch userId drepId).Met s move := by
  rcases move with i | i | _
  · trivial
  · exact ⟨trivial, fun l hl => ⟨hfollows i l rfl hl, (h.2 l hl).2⟩⟩
  · trivial

/-- Who has followed since before the first pass of the epoch has done so at each of its queries. -/
theorem reachable_of_heldSince
    (h : HeldSince (((digestProgram cfg).system ι NoDigests).restrict prunesIdle.Met) epoch
      (·.FollowsActive userId drepId) s) :
    (((digestProgram cfg).system ι NoDigests).restrict
      (keepsFollow epoch userId drepId).Met).Reachable s := by
  obtain ⟨s₀, hs₀, hbefore, hleads, -⟩ := h
  have hstart : (((digestProgram cfg).system ι NoDigests).restrict
      (keepsFollow epoch userId drepId).Met).Reachable s₀ := by
    clear hleads
    induction hs₀ with
    | init h => exact .init h
    | @step t t' move _ hstep ih =>
      obtain ⟨hmet, hmoves⟩ := hstep
      have hearlier : ∀ i l, t.procs i = some l → l.epoch ≠ epoch := fun i l hl heq => by
        obtain ⟨l', hl', hepoch⟩ := pass_stays hmoves hl
        exact hbefore i l' hl' (hepoch.trans heq)
      exact (ih hearlier).step
        ⟨met_keepsFollow hmet fun i l _ hl heq => absurd heq (hearlier i l hl), hmoves⟩
  induction hleads with
  | refl => exact hstart
  | tail _ hlast ih =>
    obtain ⟨move, hfollows, hmet, hmoves⟩ := hlast
    exact ih.step ⟨met_keepsFollow hmet fun _ _ _ _ _ => hfollows, hmoves⟩

end

/-! ### Three runs -/

instance (db : DigestDb) (userId drepId : String) : Decidable (db.Follows userId drepId) :=
  inferInstanceAs (Decidable (∃ f ∈ db.follows.rows, _ ∧ _))

instance (db : DigestDb) (userId drepId : String) : Decidable (db.FollowsActive userId drepId) :=
  inferInstanceAs (Decidable (_ ∧ _))

instance (db : DigestDb) (epoch : ℤ) : Decidable (db.Done epoch) :=
  inferInstanceAs (Decidable (∃ m ∈ db.epochs.rows, _ ∧ _))

instance (db : DigestDb) (epoch : ℤ) (drepId : String) : Decidable (db.Reports epoch drepId) :=
  inferInstanceAs (Decidable (∃ s ∈ db.summaries.rows, _ ∧ _))

/-- No epoch is old enough to be pruned. -/
def DigestProc.prunesNothing (db : DigestDb) : DigestProc → Bool
  | .building p _ [] _ => db.epochs.rows.all fun m => decide (p.epoch - 1 ≤ m.epoch)
  | _ => true

theorem not_prunes {db : DigestDb} (h : l.prunesNothing db = true) (epoch : ℤ) :
    ¬l.Prunes db epoch := by
  unfold DigestProc.Prunes
  split
  · rintro ⟨hlt, m, hm, rfl⟩
    have hle := of_decide_eq_true (List.all_eq_true.mp h m hm)
    omega
  · exact id

section

variable {cfg : EpochAnchor} {ι : Type*} [DecidableEq ι] {s : Interleaved DigestDb DigestProc ι}
  {c : Program.Condition DigestDb DigestProc}

def digestStepIf (cfg : EpochAnchor) (ok : DigestDb → DigestProc → Bool) (input : DigestInput)
    (db : DigestDb) (l : DigestProc) : Option (DigestDb × DigestProc) :=
  if ok db l then digestStep cfg input db l else none

theorem reachable_digestRun {Init : DigestDb → Prop} (ok : DigestDb → DigestProc → Bool)
    (hok : ∀ db l, ok db l = true → c.state db ∧ c.mover db l ∧ ∀ m, c.others db l m)
    (h : (((digestProgram cfg).system ι Init).restrict c.Met).Reachable s)
    (schedule : List (ι × DigestInput))
    (hsome : (Program.run (digestStepIf cfg ok) schedule s).isSome) :
    (((digestProgram cfg).system ι Init).restrict c.Met).Reachable
      ((Program.run (digestStepIf cfg ok) schedule s).get hsome) := by
  refine Program.reachable_runWhen (fun input db l out hout m => ?_)
    (fun input db l db' l' hout => ?_) h schedule hsome
  · unfold digestStepIf at hout
    split_ifs at hout with hpass
    exact (hok db l hpass).2.2 m
  · unfold digestStepIf at hout
    split_ifs at hout with hpass
    exact ⟨⟨input, hout⟩, (hok db l hpass).1, (hok db l hpass).2.1⟩

variable {P : DigestDb → Prop}

omit [DecidableEq ι] in
theorem HeldSince.reachable {M : TransitionSystem (Interleaved DigestDb DigestProc ι) (Move ι)}
    {epoch : ℤ} (h : HeldSince M epoch P s) : M.Reachable s := by
  obtain ⟨s₀, hs₀, -, hleads, -⟩ := h
  have hstep : ∀ t move t', (M.restrict fun t _ => P t.shared).Step t move t' → M.Step t move t' :=
    fun _ _ _ hstep => hstep.2
  exact hs₀.leads (TransitionSystem.Leads.mono hstep hleads)

theorem heldSince_of_run {M : TransitionSystem (Interleaved DigestDb DigestProc ι) (Move ι)}
    {db : DigestDb} (epoch : ℤ) (hinit : M.Reachable ⟨db, fun _ => none⟩)
    (hP : ∀ db, c.state db → P db)
    (hstep : ∀ t move t', c.Met t move → (digestProgram cfg).Moves t move t' → M.Step t move t')
    (h : (((digestProgram cfg).system ι (· = db)).restrict c.Met).Reachable s) (hs : P s.shared) :
    HeldSince M epoch P s := by
  obtain ⟨⟨shared, procs⟩, ⟨hshared, hnone⟩, hleads⟩ := h.exists_leads
  obtain rfl : shared = db := hshared
  obtain rfl : procs = fun _ => none := funext hnone
  have hheld : ∀ t move t', (((digestProgram cfg).system ι (· = shared)).restrict c.Met).Step
      t move t' → (M.restrict fun t _ => P t.shared).Step t move t' :=
    fun t move t' h => ⟨hP _ h.1.state, hstep t move t' h.1 h.2⟩
  exact ⟨_, hinit, nofun, TransitionSystem.Leads.mono hheld hleads, hs⟩

end

/-- A DRep that has voted in epoch 1, and a follower of the given status. -/
def digestSample (status : String) : DigestDb where
  syncRuns := [⟨"votes", 2000000000, some 2000001000, [⟨"votes", true, 0⟩]⟩]
  follows := ⟨[⟨"alice", .resolved, some .drep, some "drep1", some 0⟩], List.nodup_singleton _,
    by simp⟩
  users := ⟨[⟨"alice", status⟩], List.nodup_singleton _⟩
  votes := ⟨[⟨"ga1", "DRep", "drep1", none, "Yes", none, none, some 432010, 0, none, none, none⟩],
    List.nodup_singleton _⟩
  history := .empty
  actions := .empty
  summaries := .empty
  epochs := .empty
  notices := .empty

theorem noDigests_sample (status : String) : NoDigests (digestSample status) := ⟨rfl, rfl, rfl⟩

def goesOn : DigestInput := ⟨false, 7, fun i => s!"n{i}"⟩

def diesHere : DigestInput := { goesOn with dies := true }

/-- The condition of a run: a property of every state, and one of how passes stand to each other. -/
def whileHolds (P : DigestDb → Prop) (others : DigestDb → DigestProc → DigestProc → Prop) :
    Program.Condition DigestDb DigestProc where
  state := P
  mover _ _ := True
  others := others

theorem met_others {ι : Type*} {s : Interleaved DigestDb DigestProc ι} {move : Move ι}
    (h : (whileHolds P prunesIdle.others).Met s move) : prunesIdle.Met s move := by
  rcases move with i | i | _
  · trivial
  · exact ⟨trivial, fun l hl => ⟨trivial, (h.2 l hl).2⟩⟩
  · trivial

/-- The account of the follower is enabled. -/
def enabled (db : DigestDb) : DigestDb :=
  { db with users := (digestSample "active").users }

theorem digestEnv_enabled (db : DigestDb) : DigestEnv db (enabled db) := ⟨rfl, rfl, rfl⟩

end DrepTalk
