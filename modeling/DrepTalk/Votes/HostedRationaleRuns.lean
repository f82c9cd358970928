import DrepTalk.Votes.HostedRationales
import DrepTalk.Library.Interleaving

/-!
# Hosted documents under interleaved calls

Any number of hosting requests, votes cast through the site, snapshots of the chain and runs of the
collector, interleaved statement by statement, with a clock that does not go back. Beside the
tables the run records when each document was hosted, and which ones votes have anchored without a
break since some moment within the grace period of a hosting (`kept`).

**What hosting owes** (`HostingRight`). The collector deletes only what no vote anchors at that
moment; a document is there for the grace period after it was hosted, for the first time or again;
and one that a vote comes to anchor in that time is there as long as a vote anchors it.

**What is lost.** A document that is hosted once more keeps the age of its row, and may be deleted
the next moment (`not_hostingRight`). And a vote may come between the collector's reading and its
delete. In every run in which no collector takes a document that has been hosted again, and none
that it has is hosted or voted with, hosting is right (`hostingRight`).
-/

namespace DrepTalk

def VOTE_RATIONALE_GC_GRACE_SEC : ℤ := 30 * 24 * 3600

/-- The tables, the clock, and the record. -/
structure HostingWorld where
  db : HostingDb
  now : ℤ
  hosted : List (String × ℤ)
  kept : String → Prop

namespace HostingWorld

variable (w : HostingWorld) (hash : String)

/-- A current vote anchors the document. -/
def CurrentAnchors : Prop := ∃ row ∈ w.db.voteDb.votes.rows, row.anchor.Anchors hash

/-- A superseded vote anchors the document. -/
def HistoryAnchors : Prop := ∃ row ∈ w.db.voteDb.history.rows, row.anchor.Anchors hash

def Anchored : Prop := w.CurrentAnchors hash ∨ w.HistoryAnchors hash

def Present : Prop := hash ∈ w.db.docs.rows.map (·.hash)

/-- The document was hosted, and its grace period has not passed since. -/
def InGrace : Prop :=
  ∃ use ∈ w.hosted, use.1 = hash ∧ w.now ≤ use.2 + VOTE_RATIONALE_GC_GRACE_SEC

instance decidablePresent : Decidable (w.Present hash) :=
  inferInstanceAs (Decidable (hash ∈ _))

instance decidableInGrace : Decidable (w.InGrace hash) :=
  inferInstanceAs (Decidable (∃ use ∈ w.hosted, _))

/-- The record after a step: what is anchored then is kept if it was, or is within its grace
period. -/
def settled : HostingWorld :=
  { w with kept := fun hash => w.Anchored hash ∧ (w.kept hash ∨ w.InGrace hash) }

end HostingWorld

inductive HostingProc
  | host (doc : RationaleDoc)
  | record (r : LocalVote)
  | sync (l : SyncProc)
  | gc (l : RationaleGcProc)
  | returned
  deriving DecidableEq

def hostingStep (w : HostingWorld) : HostingProc → Option (HostingWorld × HostingProc)
  | .host doc => some ({ w with
      db := { w.db with docs := putVoteRationale w.db.docs doc }
      hosted := (doc.hash, doc.createdAt) :: w.hosted }.settled, .returned)
  | .record r => some ({ w with
      db := { w.db with voteDb := recordLocalVote w.db.voteDb r } }.settled, .returned)
  | .sync l => (syncStep w.db.voteDb l).map fun out =>
    ({ w with db := { w.db with voteDb := out.1 } }.settled, .sync out.2)
  | .gc l => (rationaleGcStep w.db l).map fun out => ({ w with db := out.1 }.settled, .gc out.2)
  | .returned => none

inductive HostingStart (w : HostingWorld) : HostingProc → Prop
  /-- A hosting request reads the clock. -/
  | host (doc : RationaleDoc) (hhash : IsDocHash doc.hash) (hnow : doc.createdAt = w.now) :
    HostingStart w (.host doc)
  | recordLocalVote (r : LocalVote) : HostingStart w (.record r)
  | upsertVotes (gaId : String) (votes : List VoteInput) (now : ℤ) :
    HostingStart w (.sync (.load gaId votes now))
  /-- So does the collector. -/
  | gcVoteRationale : HostingStart w (.gc (.candidates (w.now - VOTE_RATIONALE_GC_GRACE_SEC)))

inductive HostingEnv (w : HostingWorld) : HostingWorld → Prop
  | tick (now : ℤ) (h : w.now ≤ now) : HostingEnv w { w with now }.settled
  | flagStaleVotes (cutoffSeconds : ℤ) : HostingEnv w { w with
      db := { w.db with voteDb := DrepTalk.flagStaleVotes w.db.voteDb cutoffSeconds } }.settled
  | rationales (rationales : RationaleTable) : HostingEnv w { w with
      db := { w.db with voteDb := { w.db.voteDb with rationales } } }.settled
  | actions (actions : List GovernanceActionRow) : HostingEnv w { w with
      db := { w.db with voteDb := { w.db.voteDb with actions } } }.settled

def hostingProgram : Program HostingWorld HostingProc where
  Start := HostingStart
  Step w l w' l' := hostingStep w l = some (w', l')
  Env := HostingEnv

/-- At first nothing has been hosted, and nothing is kept; documents may be there. -/
structure HostingWorld.Initial (w : HostingWorld) : Prop where
  hashes : ∀ doc ∈ w.db.docs.rows, IsDocHash doc.hash
  hosted : w.hosted = []
  kept : ∀ hash, ¬w.kept hash

structure HostingRight {ι : Type*} (s : Interleaved HostingWorld HostingProc ι) : Prop where
  /-- What the next delete of a collector removes, no vote anchors. -/
  deletes : ∀ i ids chunks result, s.procs i = some (.gc (.delete (ids :: chunks) result)) →
    ∀ hash ∈ ids, s.shared.Present hash → ¬s.shared.Anchored hash
  inGrace : ∀ hash, s.shared.InGrace hash → s.shared.Present hash
  kept : ∀ hash, s.shared.kept hash → s.shared.Present hash

/-! ### The condition -/

namespace RationaleGcProc

/-- The documents a collector has on its list. -/
def listed : RationaleGcProc → List String
  | .candidates _ | .returned _ => []
  | .current hashes | .history hashes _ => hashes
  | .delete chunks _ => chunks.flatten

/-- Those of them that it has found no current vote for. -/
def unanchored : RationaleGcProc → List String
  | .history hashes anchored => doomed hashes anchored
  | .delete chunks _ => chunks.flatten
  | _ => []

end RationaleGcProc

/-- The next statement of a call writes a vote that anchors the document. -/
def HostingProc.Anchors (l : HostingProc) (hash : String) : Prop :=
  match l with
  | .record r => (AnchorColumns.mk none r.metaUrl).Anchors hash
  | .sync (.batch _ _ existing _ (chunk :: _) _) => (∃ v ∈ chunk, v.anchor.Anchors hash) ∨
      ∃ c ∈ computeSupersededChanges chunk existing, c.old.anchor.Anchors hash
  | _ => False

/-- The condition on a run: no document on a collector's list is hosted or voted with, and none
whose row has the age for it has been hosted again within the grace period. -/
def hostingUndisturbed : Program.Condition HostingWorld HostingProc where
  state _ := True
  mover w l := ∀ olderThanSec, l = .gc (.candidates olderThanSec) →
    ∀ doc ∈ w.db.docs.rows, doc.createdAt < olderThanSec → ¬w.InGrace doc.hash
  others w l m := ∀ gc, m = .gc gc → (∀ doc, l = .host doc → doc.hash ∉ gc.listed) ∧
    ∀ hash ∈ gc.unanchored, w.Present hash → ¬l.Anchors hash

/-! ### Votes that anchor a document -/

section Votes

variable {db : VoteDb} {hash : String}

variable {chunk : List VoteInput}

variable {now : ℤ} {l l' : HostingProc}

theorem anchor_upsertVotes {gaId : String} {votes : VoteTable} {row : VoteRow}
    (h : row ∈ (chunk.foldl (upsertVote gaId now) votes).rows) :
    row ∈ votes.rows ∨ ∃ v ∈ chunk, row.anchor = v.anchor := by
  induction chunk generalizing votes with
  | nil => exact .inl h
  | cons v chunk ih =>
    rcases ih h with hmem | ⟨v', hv', hanchor⟩
    · rcases (KeyedTable.mem_upsert (onChainRow_key gaId now v)).mp hmem with
        ⟨hmem, -⟩ | ⟨stored, -, -, rfl⟩ | ⟨rfl, -⟩
      · exact .inl hmem
      · exact .inr ⟨v, List.mem_cons_self, rfl⟩
      · exact .inr ⟨v, List.mem_cons_self, rfl⟩
    · exact .inr ⟨v', List.mem_cons_of_mem v hv', hanchor⟩

theorem anchor_recordLocalVote {r : LocalVote} {row : VoteRow}
    (h : row ∈ (recordLocalVote db r).votes.rows) :
    row ∈ db.votes.rows ∨ row.anchor = ⟨none, r.metaUrl⟩ := by
  rcases (KeyedTable.mem_upsert (overwriteLocally_key r _)).mp h with
    ⟨hmem, -⟩ | ⟨stored, hstored, -, rfl⟩ | ⟨rfl, -⟩
  · exact .inl hmem
  · rw [overwriteLocally]
    split_ifs
    · exact .inr rfl
    · exact .inl hstored
  · exact .inr rfl

theorem anchor_history {gaId : String} {existing : List VoteRow}
    {bodies : List (String × Option String)} {row : HistoryRow}
    (h : row ∈ (upsertChunk gaId existing bodies now db chunk).history.rows) :
    row ∈ db.history.rows ∨
      ∃ c ∈ computeSupersededChanges chunk existing, row.anchor = c.old.anchor := by
  rcases KeyedTable.mem_insertAll.2.1 row h with hmem | hmem
  · exact .inl hmem
  · obtain ⟨c, hc, rfl⟩ := List.mem_map.mp hmem
    exact .inr ⟨c, hc, rfl⟩

end Votes

/-! ### The invariant -/

/-- What holds of the tables and the record. -/
structure HostingInv (w : HostingWorld) : Prop where
  hashes : ∀ doc ∈ w.db.docs.rows, IsDocHash doc.hash
  inGrace : ∀ hash, w.InGrace hash → w.Present hash
  kept : ∀ hash, w.kept hash → w.Anchored hash ∧ w.Present hash

/-- What a collector relies on, where it stands. -/
structure GcAsserts (w : HostingWorld) (gc : RationaleGcProc) : Prop where
  expired : ∀ hash ∈ gc.listed, ¬w.InGrace hash
  current : ∀ hash ∈ gc.unanchored, w.Present hash → ¬w.CurrentAnchors hash
  history : ∀ chunks result, gc = .delete chunks result →
    ∀ hash ∈ gc.unanchored, w.Present hash → ¬w.HistoryAnchors hash

def HostingAsserts (w : HostingWorld) : HostingProc → Prop
  | .host doc => IsDocHash doc.hash
  | .gc gc => GcAsserts w gc
  | _ => True

/-- How the tables and the record change for a collector: none of its documents comes back or is
hosted, and none of those without a vote gets one. -/
structure LeavesGc (w w' : HostingWorld) (gc : RationaleGcProc) : Prop where
  present : ∀ hash ∈ gc.listed, w'.Present hash → w.Present hash
  inGrace : ∀ hash ∈ gc.listed, w'.InGrace hash → w.InGrace hash
  current : ∀ hash ∈ gc.unanchored, w.Present hash → w'.CurrentAnchors hash →
    w.CurrentAnchors hash
  history : ∀ hash ∈ gc.unanchored, w.Present hash → w'.HistoryAnchors hash →
    w.HistoryAnchors hash

theorem RationaleGcProc.listed_of_unanchored {gc : RationaleGcProc} {hash : String}
    (h : hash ∈ gc.unanchored) : hash ∈ gc.listed := by
  cases gc with
  | candidates olderThanSec | returned result | current hashes => cases h
  | history hashes anchored => exact (mem_doomed.mp h).1
  | delete chunks result => exact h

theorem GcAsserts.mono {w w' : HostingWorld} {gc : RationaleGcProc} (h : GcAsserts w gc)
    (hleaves : LeavesGc w w' gc) : GcAsserts w' gc where
  expired hash hlisted hgrace := h.expired hash hlisted (hleaves.inGrace hash hlisted hgrace)
  current hash hun hpresent hanchors := by
    have hold := hleaves.present hash (gc.listed_of_unanchored hun) hpresent
    exact h.current hash hun hold (hleaves.current hash hun hold hanchors)
  history chunks result hgc hash hun hpresent hanchors := by
    have hold := hleaves.present hash (gc.listed_of_unanchored hun) hpresent
    exact h.history chunks result hgc hash hun hold (hleaves.history hash hun hold hanchors)

namespace HostingWorld

/-- The tables of votes have changed, and nothing else. -/
def withVotes (w : HostingWorld) (voteDb : VoteDb) : HostingWorld :=
  { w with db := { w.db with voteDb } }

/-- The documents have changed, and nothing else. -/
def withDocs (w : HostingWorld) (docs : RationaleDocTable) : HostingWorld :=
  { w with db := { w.db with docs } }

end HostingWorld

section Keeps

variable {w : HostingWorld}

/-- The record settles: what is kept then is anchored, and was kept or is within its grace
period. -/
theorem HostingInv.settled (hhashes : ∀ doc ∈ w.db.docs.rows, IsDocHash doc.hash)
    (hgrace : ∀ hash, w.InGrace hash → w.Present hash)
    (hkept : ∀ hash, w.kept hash → w.Anchored hash → w.Present hash) : HostingInv w.settled := by
  refine ⟨hhashes, hgrace, fun hash hsettled => ⟨hsettled.1, ?_⟩⟩
  rcases hsettled.2 with hold | hnew
  · exact hkept hash hold hsettled.1
  · exact hgrace hash hnew

theorem HostingInv.withVotes (h : HostingInv w) (voteDb : VoteDb) :
    HostingInv (w.withVotes voteDb).settled :=
  .settled h.hashes h.inGrace fun hash hold _ => (h.kept hash hold).2

theorem HostingInv.tick (h : HostingInv w) (hle : w.now ≤ now) :
    HostingInv { w with now }.settled := by
  refine .settled h.hashes (fun hash hgrace => ?_) fun hash hold _ => (h.kept hash hold).2
  obtain ⟨use, hmem, hkey, hnow⟩ := hgrace
  exact h.inGrace hash ⟨use, hmem, hkey, hle.trans hnow⟩

variable {docs : RationaleDocTable} {doc : RationaleDoc} {ids : List String}

theorem present_putVoteRationale {hash : String} :
    hash ∈ (putVoteRationale docs doc).rows.map (·.hash) ↔
      hash ∈ docs.rows.map (·.hash) ∨ hash = doc.hash := by
  simp only [List.mem_map, putVoteRationale, KeyedTable.mem_insertOrIgnore]
  constructor
  · rintro ⟨d, hmem | ⟨rfl, -⟩, rfl⟩
    · exact .inl ⟨d, hmem, rfl⟩
    · exact .inr rfl
  · rintro (⟨d, hmem, rfl⟩ | rfl)
    · exact ⟨d, .inl hmem, rfl⟩
    · by_cases hthere : ∃ d ∈ docs.rows, d.hash = doc.hash
      · obtain ⟨d, hmem, hkey⟩ := hthere
        exact ⟨d, .inl hmem, hkey⟩
      · exact ⟨doc, .inr ⟨rfl, hthere⟩, rfl⟩

theorem HostingInv.host (h : HostingInv w) (hhash : IsDocHash doc.hash) :
    HostingInv { w with
      db := { w.db with docs := putVoteRationale w.db.docs doc }
      hosted := (doc.hash, doc.createdAt) :: w.hosted }.settled := by
  refine .settled (fun d hd => ?_) (fun hash hgrace => present_putVoteRationale.mpr ?_)
    fun hash hold _ => present_putVoteRationale.mpr (.inl (h.kept hash hold).2)
  · rcases KeyedTable.mem_insertOrIgnore.mp hd with hmem | ⟨rfl, -⟩
    · exact h.hashes d hmem
    · exact hhash
  · obtain ⟨use, hmem, hkey, hnow⟩ := hgrace
    rcases List.mem_cons.mp hmem with rfl | hmem
    · exact .inr hkey.symm
    · exact .inl (h.inGrace hash ⟨use, hmem, hkey, hnow⟩)

theorem present_deleteWhere {hash : String} :
    hash ∈ (docs.deleteWhere fun doc => ids.contains doc.hash).rows.map (·.hash) ↔
      hash ∈ docs.rows.map (·.hash) ∧ hash ∉ ids := by
  simp only [List.mem_map, KeyedTable.deleteWhere, Table.mem_deleteWhere, List.contains_eq_mem,
    decide_eq_false_iff_not]
  constructor
  · rintro ⟨d, ⟨hmem, hnot⟩, rfl⟩
    exact ⟨⟨d, hmem, rfl⟩, hnot⟩
  · rintro ⟨⟨d, hmem, rfl⟩, hnot⟩
    exact ⟨d, ⟨hmem, hnot⟩, rfl⟩

theorem HostingInv.delete (h : HostingInv w) (hexpired : ∀ hash ∈ ids, ¬w.InGrace hash)
    (hanchored : ∀ hash ∈ ids, w.Present hash → ¬w.Anchored hash) :
    HostingInv (w.withDocs
      (w.db.docs.deleteWhere fun doc => ids.contains doc.hash)).settled := by
  refine .settled (fun d hd => h.hashes d (Table.mem_deleteWhere.mp hd).1) (fun hash hgrace => ?_)
    fun hash hold _ => ?_
  · exact present_deleteWhere.mpr
      ⟨h.inGrace hash hgrace, fun hids => hexpired hash hids hgrace⟩
  · obtain ⟨hanchors, hpresent⟩ := h.kept hash hold
    exact present_deleteWhere.mpr ⟨hpresent, fun hids => hanchored hash hids hpresent hanchors⟩

end Keeps

/-! ### The collector's steps -/

section Collector

variable {w : HostingWorld} {gc gc' : RationaleGcProc} {db' : HostingDb}

theorem GcAsserts.of_unanchored_nil (hexpired : ∀ hash ∈ gc.listed, ¬w.InGrace hash)
    (hnone : gc.unanchored = []) : GcAsserts w gc where
  expired := hexpired
  current _ hun := absurd (hnone ▸ hun) List.not_mem_nil
  history _ _ _ _ hun := absurd (hnone ▸ hun) List.not_mem_nil

theorem not_anchors_of_doomed (h : HostingInv w) {candidates : List String}
    {found : List (List Char)} {anchors : List AnchorColumns}
    (hfound : ∀ c ∈ anchoredHashes w.db.docs anchors, c ∈ found) {hash : String}
    (hdoomed : hash ∈ doomed candidates found) (hpresent : w.Present hash) :
    ∀ a ∈ anchors, ¬a.Anchors hash := by
  intro a ha hanchors
  obtain ⟨doc, hdoc, rfl⟩ := List.mem_map.mp hpresent
  have hdochash := h.hashes doc hdoc
  refine (mem_doomed.mp hdoomed).2 (hfound _ ?_)
  rw [hdochash.map_toLower]
  exact mem_anchoredHashes hdochash hdoc rfl ha hanchors

theorem rationaleGcStep_keeps (h : HostingInv w) (hgc : GcAsserts w gc)
    (hcandidates : ∀ olderThanSec, gc = .candidates olderThanSec →
      ∀ doc ∈ w.db.docs.rows, doc.createdAt < olderThanSec → ¬w.InGrace doc.hash)
    (hstep : rationaleGcStep w.db gc = some (db', gc')) :
    HostingInv { w with db := db' }.settled ∧ GcAsserts { w with db := db' }.settled gc' := by
  cases gc with
  | candidates olderThanSec =>
    cases hstep
    refine ⟨h.withVotes _, ?_⟩
    split_ifs
    · exact .of_unanchored_nil nofun rfl
    · refine .of_unanchored_nil (fun hash hlisted => ?_) rfl
      obtain ⟨doc, hdoc, rfl⟩ := List.mem_map.mp hlisted
      obtain ⟨hmem, hold⟩ := List.mem_filter.mp hdoc
      exact hcandidates olderThanSec rfl doc hmem (of_decide_eq_true hold)
  | current candidates =>
    cases hstep
    refine ⟨h.withVotes _, hgc.expired, fun hash hun hpresent => ?_, fun _ _ hgc' => ?_⟩
    · rintro ⟨row, hrow, hanchors⟩
      exact not_anchors_of_doomed h (fun c hc => hc) hun hpresent _
        (List.mem_map_of_mem hrow) hanchors
    · cases hgc'
  | history candidates anchored =>
    cases hstep
    refine ⟨h.withVotes _, ?_⟩
    split_ifs
    · exact .of_unanchored_nil nofun rfl
    · -- the lists are the documents that neither reading has found
      have hbinds : 0 < D1_MAX_BINDS := by decide
      have hlisted : ∀ {hash}, hash ∈ (slices D1_MAX_BINDS (doomed candidates (anchored ++
          anchoredHashes w.db.docs (w.db.voteDb.history.rows.map (·.anchor))))).flatten →
            hash ∈ doomed candidates (anchored ++
              anchoredHashes w.db.docs (w.db.voteDb.history.rows.map (·.anchor))) :=
        fun hmem => by rwa [slices_flatten hbinds] at hmem
      refine ⟨fun hash hmem => ?_, fun hash hmem hpresent => ?_, fun _ _ _ hash hmem hpresent => ?_⟩
      · exact hgc.expired hash (mem_doomed.mp (hlisted hmem)).1
      · obtain ⟨hcandidate, hnot⟩ := mem_doomed.mp (hlisted hmem)
        exact hgc.current hash (mem_doomed.mpr
          ⟨hcandidate, fun hfound => hnot (List.mem_append_left _ hfound)⟩) hpresent
      · rintro ⟨row, hrow, hanchors⟩
        exact not_anchors_of_doomed h (fun c hc => List.mem_append_right _ hc) (hlisted hmem)
          hpresent _ (List.mem_map_of_mem hrow) hanchors
  | delete chunks result =>
    cases chunks with
    | nil =>
      cases hstep
      exact ⟨h.withVotes _,
        .of_unanchored_nil nofun rfl⟩
    | cons ids chunks =>
      cases hstep
      have hids : ∀ hash ∈ ids, hash ∈ (RationaleGcProc.delete (ids :: chunks) result).listed :=
        fun hash hmem => List.mem_append_left _ hmem
      refine ⟨h.delete (fun hash hmem => hgc.expired hash (hids hash hmem))
        fun hash hmem hpresent => ?_, ?_⟩
      · exact not_or.mpr ⟨hgc.current hash (hids hash hmem) hpresent,
          hgc.history _ _ rfl hash (hids hash hmem) hpresent⟩
      · split_ifs
        · exact .of_unanchored_nil nofun rfl
        · refine ⟨fun hash hmem => hgc.expired hash (List.mem_append_right _ hmem),
            fun hash hmem hpresent => ?_, fun _ _ _ hash hmem hpresent => ?_⟩
          · exact hgc.current hash (List.mem_append_right _ hmem)
              (present_deleteWhere.mp hpresent).1
          · exact hgc.history _ _ rfl hash (List.mem_append_right _ hmem)
              (present_deleteWhere.mp hpresent).1
  | returned result => cases hstep

end Collector

/-! ### The calls beside a collector -/

section Steps

variable {db db' : HostingDb} {gc gc' : RationaleGcProc}

theorem rationaleGcStep_leaves (h : rationaleGcStep db gc = some (db', gc')) :
    db'.voteDb = db.voteDb ∧
      ∀ hash ∈ db'.docs.rows.map (·.hash), hash ∈ db.docs.rows.map (·.hash) := by
  cases gc with
  | candidates olderThanSec | current candidates | history candidates anchored =>
    obtain ⟨rfl, -⟩ := Prod.mk.inj (Option.some.inj h)
    exact ⟨rfl, fun _ hmem => hmem⟩
  | delete chunks result =>
    cases chunks with
    | nil =>
      obtain ⟨rfl, -⟩ := Prod.mk.inj (Option.some.inj h)
      exact ⟨rfl, fun _ hmem => hmem⟩
    | cons ids chunks =>
      obtain ⟨rfl, -⟩ := Prod.mk.inj (Option.some.inj h)
      exact ⟨rfl, fun _ hmem => (present_deleteWhere.mp hmem).1⟩
  | returned result => cases h

end Steps

section Beside

variable {w w' : HostingWorld} {gc : RationaleGcProc}

theorem LeavesGc.withVotes {voteDb : VoteDb}
    (hcurrent : ∀ hash ∈ gc.unanchored, w.Present hash →
      (∃ row ∈ voteDb.votes.rows, row.anchor.Anchors hash) → w.CurrentAnchors hash)
    (hhistory : ∀ hash ∈ gc.unanchored, w.Present hash →
      (∃ row ∈ voteDb.history.rows, row.anchor.Anchors hash) → w.HistoryAnchors hash) :
    LeavesGc w (w.withVotes voteDb).settled gc :=
  ⟨fun _ _ hpresent => hpresent, fun _ _ hgrace => hgrace, hcurrent, hhistory⟩

theorem hostingStep_leaves (hhost : ∀ doc, l = .host doc → doc.hash ∉ gc.listed)
    (hvotes : ∀ hash ∈ gc.unanchored, w.Present hash → ¬l.Anchors hash)
    (hstep : hostingStep w l = some (w', l')) : LeavesGc w w' gc := by
  cases l with
  | host doc =>
    cases hstep
    have hother : ∀ hash ∈ gc.listed, hash ≠ doc.hash := by
      rintro hash hlisted rfl
      exact hhost doc rfl hlisted
    refine ⟨fun hash hlisted hpresent => ?_, fun hash hlisted hgrace => ?_,
      fun _ _ _ hanchors => hanchors, fun _ _ _ hanchors => hanchors⟩
    · exact (present_putVoteRationale.mp hpresent).resolve_right (hother hash hlisted)
    · obtain ⟨use, hmem, hkey, hnow⟩ := hgrace
      rcases List.mem_cons.mp hmem with rfl | hmem
      · exact absurd hkey.symm (hother hash hlisted)
      · exact ⟨use, hmem, hkey, hnow⟩
  | record r =>
    cases hstep
    refine .withVotes (fun hash hun hpresent => ?_) fun _ _ _ hanchors => hanchors
    rintro ⟨row, hrow, hanchors⟩
    rcases anchor_recordLocalVote hrow with hmem | hwritten
    · exact ⟨row, hmem, hanchors⟩
    · rw [hwritten] at hanchors
      exact absurd hanchors (hvotes hash hun hpresent)
  | sync l =>
    obtain ⟨⟨voteDb, l''⟩, hsync, hout⟩ := Option.map_eq_some_iff.mp hstep
    cases hout
    cases l with
    | load gaId votes now | bodies gaId votes now existing =>
      obtain ⟨rfl, -⟩ := Prod.mk.inj (Option.some.inj hsync)
      exact .withVotes (fun _ _ _ hanchors => hanchors) fun _ _ _ hanchors => hanchors
    | batch gaId now existing bodies chunks count =>
      cases chunks with
      | nil => cases hsync
      | cons chunk chunks =>
        obtain ⟨rfl, -⟩ := Prod.mk.inj (Option.some.inj hsync)
        refine .withVotes (fun hash hun hpresent => ?_) fun hash hun hpresent => ?_
        · rintro ⟨row, hrow, hanchors⟩
          rcases anchor_upsertVotes hrow with hmem | ⟨v, hv, hwritten⟩
          · exact ⟨row, hmem, hanchors⟩
          · exact absurd (.inl ⟨v, hv, hwritten ▸ hanchors⟩) (hvotes hash hun hpresent)
        · rintro ⟨row, hrow, hanchors⟩
          rcases anchor_history hrow with hmem | ⟨c, hc, hwritten⟩
          · exact ⟨row, hmem, hanchors⟩
          · exact absurd (.inr ⟨c, hc, hwritten ▸ hanchors⟩) (hvotes hash hun hpresent)
  | gc other =>
    obtain ⟨⟨db, other'⟩, hother, hout⟩ := Option.map_eq_some_iff.mp hstep
    cases hout
    obtain ⟨hvoteDb, hdocs⟩ := rationaleGcStep_leaves hother
    refine ⟨fun hash _ hpresent => hdocs hash hpresent,
      fun _ _ hgrace => hgrace, fun _ _ _ hanchors => ?_, fun _ _ _ hanchors => ?_⟩
    · obtain ⟨row, hrow, hanchors⟩ := hanchors
      exact ⟨row, hvoteDb ▸ hrow, hanchors⟩
    · obtain ⟨row, hrow, hanchors⟩ := hanchors
      exact ⟨row, hvoteDb ▸ hrow, hanchors⟩
  | returned => cases hstep

theorem HostingEnv.leaves (h : HostingEnv w w') : LeavesGc w w' gc := by
  cases h with
  | tick now hle =>
    refine ⟨fun _ _ hpresent => hpresent, fun hash _ hgrace => ?_,
      fun _ _ _ hanchors => hanchors, fun _ _ _ hanchors => hanchors⟩
    obtain ⟨use, hmem, hkey, hnow⟩ := hgrace
    exact ⟨use, hmem, hkey, hle.trans hnow⟩
  | flagStaleVotes cutoffSeconds =>
    refine .withVotes (fun hash _ _ hanchors => ?_) fun _ _ _ hanchors => hanchors
    obtain ⟨row, hrow, hanchors⟩ := hanchors
    rcases Table.mem_updateWhere.mp hrow with ⟨hmem, -⟩ | ⟨stored, hmem, -, rfl⟩
    · exact ⟨row, hmem, hanchors⟩
    · exact ⟨stored, hmem, hanchors⟩
  | rationales rationales | actions actions =>
    exact .withVotes (fun _ _ _ hanchors => hanchors) fun _ _ _ hanchors => hanchors

theorem HostingEnv.keeps (h : HostingEnv w w') (hw : HostingInv w) : HostingInv w' := by
  cases h with
  | tick now hle => exact hw.tick hle
  | flagStaleVotes cutoffSeconds | rationales rationales | actions actions => exact hw.withVotes _

end Beside

/-! ### Runs -/

/-- What one step keeps, and what a collector relies on beside it. -/
def hostingSound : hostingProgram.SoundWhen hostingUndisturbed HostingWorld.Initial where
  inv := HostingInv
  asserts := HostingAsserts
  apart _ _ := True
  symm _ _ _ := trivial
  init w h := by
    refine ⟨h.hashes, fun hash hgrace => ?_, fun hash hkept => absurd hkept (h.kept hash)⟩
    obtain ⟨use, hmem, -⟩ := hgrace
    cases h.hosted ▸ hmem
  start w l _ _ hstart := by
    refine ⟨?_, fun _ _ => trivial⟩
    cases hstart with
    | host doc hhash hnow => exact hhash
    | recordLocalVote | upsertVotes => exact trivial
    | gcVoteRationale =>
      exact .of_unanchored_nil nofun rfl
  step w l w' l' _ hmover hw hl hstep := by
    cases l with
    | host doc =>
      cases hstep
      exact ⟨hw.host hl, trivial⟩
    | record r =>
      cases hstep
      exact ⟨hw.withVotes _, trivial⟩
    | sync l =>
      obtain ⟨out, -, hout⟩ := Option.map_eq_some_iff.mp hstep
      cases hout
      exact ⟨hw.withVotes _, trivial⟩
    | gc gc =>
      obtain ⟨⟨db', gc'⟩, hgc, hout⟩ := Option.map_eq_some_iff.mp hstep
      cases hout
      refine rationaleGcStep_keeps hw hl (fun olderThanSec hcandidates => ?_) hgc
      exact hmover olderThanSec (congrArg HostingProc.gc hcandidates)
    | returned => cases hstep
  noninterference w l w' l' m _ _ hothers _ _ hm _ hstep := by
    refine ⟨?_, trivial⟩
    cases m with
    | host doc => exact hm
    | record r | sync l | returned => exact trivial
    | gc gc =>
      obtain ⟨hhost, hvotes⟩ := hothers gc rfl
      exact hm.mono (hostingStep_leaves hhost hvotes hstep)
  env w w' _ hw henv := by
    refine ⟨henv.keeps hw, fun m hm => ?_⟩
    cases m with
    | host doc => exact hm
    | record r | sync l | returned => exact trivial
    | gc gc => exact hm.mono henv.leaves

/-- **Hosting is right**, in every run that meets the condition: a document is deleted only where no
vote anchors it, and one that is hosted, and voted with in time, is there. -/
theorem hostingRight {ι : Type*} [DecidableEq ι] {s : Interleaved HostingWorld HostingProc ι}
    (h : ((hostingProgram.system ι HostingWorld.Initial).restrict
      hostingUndisturbed.Met).Reachable s) : HostingRight s := by
  obtain ⟨hinv, hasserts, -⟩ := hostingSound.holds h
  refine ⟨fun i ids chunks result hproc hash hmem hpresent => ?_, hinv.inGrace,
    fun hash hkept => (hinv.kept hash hkept).2⟩
  have hgc : GcAsserts s.shared _ := hasserts i _ hproc
  have hlisted : hash ∈ (RationaleGcProc.delete (ids :: chunks) result).unanchored :=
    List.mem_append_left _ hmem
  exact not_or.mpr ⟨hgc.current hash hlisted hpresent, hgc.history _ _ rfl hash hlisted hpresent⟩

theorem reachable_hostingStep {ι : Type*} [DecidableEq ι]
    {s : Interleaved HostingWorld HostingProc ι}
    (h : ((hostingProgram.system ι HostingWorld.Initial).restrict
      hostingUndisturbed.Met).Reachable s) {i : ι} {w' : HostingWorld} (hproc : s.procs i = some l)
    (hmover : hostingUndisturbed.mover s.shared l)
    (hothers : ∀ j gc, j ≠ i → s.procs j = some (.gc gc) → gc.listed = [])
    (hstep : hostingStep s.shared l = some (w', l')) :
    ((hostingProgram.system ι HostingWorld.Initial).restrict
      hostingUndisturbed.Met).Reachable ⟨w', Function.update s.procs i (some l')⟩ := by
  refine h.step (e := .step i) ⟨⟨trivial, fun m hm => ?_⟩, .step hproc hstep⟩
  cases hproc.symm.trans hm
  refine ⟨hmover, ?_⟩
  rintro j _ hj hm gc rfl
  have hnone := hothers j gc hj hm
  refine ⟨fun doc _ => ?_, fun hash hun => ?_⟩
  · rw [hnone]
    exact List.not_mem_nil
  · cases hnone ▸ gc.listed_of_unanchored hun

/-! ### Two runs -/

def sampleHostedHash (digit : Char) : String := String.ofList (List.replicate 64 digit)

theorem isDocHash_sampleHostedHash {digit : Char} (h : isHashDigit digit = true) :
    IsDocHash (sampleHostedHash digit) := by
  rw [IsDocHash, sampleHostedHash, String.toList_ofList]
  refine ⟨List.length_replicate, fun c hc => ?_⟩
  rw [List.eq_of_mem_replicate hc]
  exact h

def sampleDoc (digit : Char) (createdAt : ℤ) : RationaleDoc :=
  ⟨sampleHostedHash digit, "{}", "drep1", "ga1", createdAt⟩

/-- A vote cast through the site, with the URL of a document. -/
def sampleHostedVote (digit : Char) (now : ℤ) : LocalVote :=
  ⟨"ga1", "drep1", none, "Yes", some (hostedUrl "https://site" (sampleHostedHash digit)), "tx", now⟩

/-- A vote on the chain that anchors a document by its hash. -/
def sampleShownVote (digit : Char) : VoteInput :=
  ⟨"DRep", "drep" ++ String.singleton digit, none, "No", none, some (sampleHostedHash digit),
    some 1, none⟩

def sampleHosting (now : ℤ) : HostingWorld where
  db := ⟨⟨⟨[onChainRow "ga1" 1 (sampleShownVote 'b') none], List.nodup_singleton _⟩, .empty,
    .empty, []⟩,
    ⟨[sampleDoc 'a' 0, sampleDoc 'b' 0], by decide⟩⟩
  now
  hosted := []
  kept _ := False

theorem initial_sampleHosting (now : ℤ) : (sampleHosting now).Initial where
  hashes := by
    change ∀ doc ∈ [sampleDoc 'a' 0, sampleDoc 'b' 0], IsDocHash doc.hash
    simp only [List.forall_mem_cons, List.not_mem_nil, false_implies, implies_true, and_true]
    exact ⟨isDocHash_sampleHostedHash rfl, isDocHash_sampleHostedHash rfl⟩
  hosted := rfl
  kept _ h := h

/-- A hosted document is voted with in time; of two that are older, the one that nothing anchors is
about to be deleted. -/
theorem hostingRight_voted : ∃ s : Interleaved HostingWorld HostingProc ℕ,
    s.procs 2 = some (.gc (.delete [[sampleHostedHash 'a']] ⟨2, 1⟩)) ∧
      s.shared.kept (sampleHostedHash 'c') ∧ HostingRight s := by
  have h₀ : ((hostingProgram.system ℕ HostingWorld.Initial).restrict
      hostingUndisturbed.Met).Reachable ⟨sampleHosting 2592001, fun _ => none⟩ :=
    .init ⟨initial_sampleHosting _, fun _ => rfl⟩
  have h₁ := Program.reachable_start h₀ (i := 0) trivial rfl
    (.host (sampleDoc 'c' 2592001) (isDocHash_sampleHostedHash rfl) rfl)
  have h₂ := reachable_hostingStep h₁ (i := 0) rfl (by rintro _ ⟨⟩)
    (fun j gc hj hgc => by
      simp only [Function.update_of_ne hj] at hgc
      cases hgc) rfl
  have h₃ := Program.reachable_start h₂ (i := 1) trivial rfl
    (.upsertVotes "ga1" [sampleShownVote 'c'] 2592001)
  have h₄ := reachable_hostingStep h₃ (i := 1) rfl (by rintro _ ⟨⟩)
    (fun j gc hj hgc => by
      simp only [Function.update_of_ne hj, Function.update_apply] at hgc
      split_ifs at hgc
      cases hgc) rfl
  have h₅ := reachable_hostingStep h₄ (i := 1) rfl (by rintro _ ⟨⟩)
    (fun j gc hj hgc => by
      simp only [Function.update_of_ne hj, Function.update_apply] at hgc
      split_ifs at hgc
      cases hgc) rfl
  have h₆ := reachable_hostingStep h₅ (i := 1) rfl (by rintro _ ⟨⟩)
    (fun j gc hj hgc => by
      simp only [Function.update_of_ne hj, Function.update_apply] at hgc
      split_ifs at hgc
      cases hgc) rfl
  have h₇ := Program.reachable_start h₆ (i := 2) trivial rfl .gcVoteRationale
  have hothers : ∀ (w : HostingWorld) (gc : RationaleGcProc) (m : HostingProc),
      hostingUndisturbed.others w (.gc gc) m :=
    fun w gc m gc' _ => ⟨fun doc hdoc => HostingProc.noConfusion hdoc,
      fun hash _ _ hanchors => hanchors⟩
  have h₈ := Program.reachable_step h₇ (i := 2) rfl trivial (by
    rintro _ ⟨⟩
    decide +kernel) (hothers _ _) rfl
  have h₉ := Program.reachable_step h₈ (i := 2) rfl trivial (by rintro _ ⟨⟩) (hothers _ _) rfl
  have h₁₀ := Program.reachable_step h₉ (i := 2) rfl trivial (by rintro _ ⟨⟩) (hothers _ _) rfl
  refine ⟨_, ?_, ?_, hostingRight h₁₀⟩
  · decide +kernel
  · exact ⟨.inl ⟨onChainRow "ga1" 2592001 (sampleShownVote 'c') none, by decide +kernel,
      .inl rfl⟩, .inr (by decide +kernel)⟩

/-- A document is hosted, and hosted again thirty days and a second later; a collector takes it by
the age of its row and deletes it, and then the vote comes. -/
theorem not_hostingRight : ¬∀ s : Interleaved HostingWorld HostingProc ℕ,
    (hostingProgram.system ℕ HostingWorld.Initial).Reachable s → HostingRight s := by
  intro hall
  have h₀ : (hostingProgram.system ℕ HostingWorld.Initial).Reachable
      ⟨sampleHosting 0, fun _ => none⟩ := .init ⟨initial_sampleHosting 0, fun _ => rfl⟩
  have h₁ := h₀.step (.start (i := 0) rfl
    (.host (sampleDoc 'c' 0) (isDocHash_sampleHostedHash rfl) rfl))
  have h₂ := h₁.step (.step (i := 0) rfl rfl)
  have h₃ := h₂.step (.env (.tick 2592001 (by decide)))
  have h₄ := h₃.step (.start (i := 1) rfl
    (.host (sampleDoc 'c' 2592001) (isDocHash_sampleHostedHash rfl) rfl))
  have h₅ := h₄.step (.step (i := 1) rfl rfl)
  have h₆ := h₅.step (.start (i := 2) rfl .gcVoteRationale)
  have h₇ := h₆.step (.step (i := 2) rfl rfl)
  have h₈ := h₇.step (.step (i := 2) rfl rfl)
  have h₉ := h₈.step (.step (i := 2) rfl rfl)
  have h₁₀ := h₉.step (.step (i := 2) rfl rfl)
  have h₁₁ := h₁₀.step (.start (i := 3) rfl
    (.recordLocalVote (sampleHostedVote 'c' 2592001)))
  have h₁₂ := h₁₁.step (.step (i := 3) rfl rfl)
  have hkept := (hall _ h₁₂).kept (sampleHostedHash 'c')
    ⟨.inl ⟨localRow (sampleHostedVote 'c' 2592001) none, by decide +kernel,
      anchors_hostedUrl _ _ _⟩, .inr (by decide +kernel)⟩
  revert hkept
  decide +kernel

end DrepTalk
