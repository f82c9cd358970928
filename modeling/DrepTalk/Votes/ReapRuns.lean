import DrepTalk.Votes.RationalePostRuns

/-!
# What the reap removes

The calls of `VoteProcs` once more, for the votes a reap has on its list.

**What the reap owes** (`ReapRight`). It removes a rationale written through the site, and takes a
cross-post out of a thread, only while the vote they belong to has failed.

The list is read, the flag is set and the artifacts are removed by statements of their own, and none
of the removals looks at the vote again: a vote that is cast once more after the list has been read
loses its new rationale (`not_reapRight`). In every run in which no call writes a vote that a reap
still has on its list, the reap is right (`reapRight`).
-/

namespace DrepTalk

/-- The vote whose rationale or cross-post the next statement of a reap removes, if it does. -/
def ReapProc.removesFor (db : ThreadDb) : ReapProc → Option VoteKey
  | .rationale _ vote _ _ =>
    if db.voteDb.rationales.rows.any (isSiteRationale vote) then some vote else none
  | .post _ vote crossPost _ _ _ =>
    if db.posts.rows.any fun p => p.id == crossPost.1 && !p.deleted then some vote else none
  | _ => none

/-- The votes a reap has still to clean up after. -/
def ReapProc.due : ReapProc → List VoteKey
  | .flag _ _ todo => todo
  | .rationale _ vote todo _ | .select _ vote todo _ | .post _ vote _ _ todo _ => vote :: todo
  | .stale _ _ | .returned _ => []

/-- The cutoff of a reap that has still to set the flag. -/
def ReapProc.cutoff : ReapProc → Option ℤ
  | .flag cutoffSeconds _ _ => some cutoffSeconds
  | _ => none

/-- Whether the next statement of a call writes a vote, other than with a flag: from the chain, or
through the site and not before a cutoff. -/
def VoteProc.Rewrites (cutoff : Option ℤ) (vote : VoteKey) : VoteProc → Prop
  | .sync (.batch gaId _ _ _ (chunk :: _) _) => ∃ v ∈ chunk, (gaId, v.voterId) = vote
  | .record r => (r.gaId, r.drepId) = vote ∧ ∀ c ∈ cutoff, c ≤ r.now
  | _ => False

/-- The condition on a run: no call writes a vote that a reap still has on its list. -/
def listsLeftAlone : Program.Condition ThreadDb VoteProc where
  state _ := True
  mover _ _ := True
  others _ l m := ∀ r, m = .reap r → ∀ vote ∈ r.due, ¬l.Rewrites r.cutoff vote

/-! ### Votes on a list -/

/-- A vote that has failed, or is going to when the flag is set. -/
def Reapable (cutoff : Option ℤ) (db : VoteDb) (vote : VoteKey) : Prop :=
  ∃ row ∈ db.votes.rows, (row.gaId, row.voterId) = vote ∧
    (row.localStatus = some .failed ∨
      row.localStatus = some .pending ∧ ∃ c ∈ cutoff, row.syncedAt < c)

def VoteProc.Listed (db : ThreadDb) (l : VoteProc) : Prop :=
  ∀ r, l = .reap r → ∀ vote ∈ r.due, Reapable r.cutoff db.voteDb vote

variable {cutoff : Option ℤ} {vote : VoteKey}

theorem Reapable.flag {db : VoteDb} (h : Reapable cutoff db vote) (cutoffSeconds : ℤ) :
    Reapable cutoff (flagStaleVotes db cutoffSeconds) vote := by
  obtain ⟨row, hmem, hkey, hstatus⟩ := h
  refine ⟨_, Table.mem_updateWhere_of_mem _ _ hmem, ?_, ?_⟩
  · split_ifs <;> exact hkey
  · split_ifs
    · exact .inl rfl
    · exact hstatus

variable {cutoffSeconds : ℤ} {posts : List (String × String)}

theorem Reapable.flagged {db : VoteDb} (h : Reapable (some cutoffSeconds) db vote) :
    Reapable none (flagStaleVotes db cutoffSeconds) vote := by
  obtain ⟨row, hmem, hkey, hstatus⟩ := h
  refine ⟨_, Table.mem_updateWhere_of_mem _ _ hmem, ?_, .inl ?_⟩
  · split_ifs <;> exact hkey
  · rcases hstatus with hfailed | ⟨hpending, c, hc, hlt⟩
    · rw [if_neg (by simp [hfailed])]
      exact hfailed
    · cases hc
      rw [if_pos (by simp [hpending, hlt])]

variable {now : ℤ}

theorem Reapable.sync {gaId : String} {existing : List VoteRow}
    {bodies : List (String × Option String)} {chunk : List VoteInput} {db : VoteDb}
    (h : Reapable cutoff db vote) (hother : ∀ v ∈ chunk, (gaId, v.voterId) ≠ vote) :
    Reapable cutoff (upsertChunk gaId existing bodies now db chunk) vote := by
  obtain ⟨row, hmem, rfl, hstatus⟩ := h
  refine ⟨row, ?_, rfl, hstatus⟩
  change row ∈ (chunk.foldl (upsertVote gaId now) db.votes).rows
  generalize db.votes = votes at hmem
  induction chunk generalizing votes with
  | nil => exact hmem
  | cons v chunk ih =>
    refine ih (fun u hu => hother u (List.mem_cons_of_mem _ hu)) _ ?_
    exact (KeyedTable.mem_upsert (onChainRow_key gaId now v)).mpr
      (.inl ⟨hmem, (hother v List.mem_cons_self).symm⟩)

/-- A vote cast through the site leaves the others alone, and is going to fail if it is cast before
the cutoff. -/
theorem Reapable.record {db : VoteDb} (h : Reapable cutoff db vote) {r : LocalVote}
    (hother : ¬((r.gaId, r.drepId) = vote ∧ ∀ c ∈ cutoff, c ≤ r.now)) :
    Reapable cutoff (recordLocalVote db r) vote := by
  obtain ⟨row, hmem, rfl, hstatus⟩ := h
  by_cases hkey : (row.gaId, row.voterId) = (r.gaId, r.drepId)
  · -- the row is one that no snapshot has shown, so it is overwritten
    have hlocal : row.localStatus.isSome = true := by
      rcases hstatus with hfailed | ⟨hpending, -⟩
      · rw [hfailed]
        rfl
      · rw [hpending]
        rfl
    push Not at hother
    obtain ⟨c, hc, hlt⟩ := hother hkey.symm
    refine ⟨localRow r (some row), ?_, hkey.symm, .inr ⟨rfl, c, hc, hlt⟩⟩
    refine (KeyedTable.mem_upsert (overwriteLocally_key r _)).mpr
      (.inr (.inl ⟨row, hmem, hkey, ?_⟩))
    rw [overwriteLocally, hlocal, Bool.true_or, if_pos rfl]
  · exact ⟨row, (KeyedTable.mem_upsert (overwriteLocally_key r _)).mpr (.inl ⟨hmem, hkey⟩), rfl,
      hstatus⟩

/-! ### One step of each call -/

variable {db db' : ThreadDb}

theorem insertPost_voteDb {post : ThreadPost} (h : insertPost db post = some db') :
    db'.voteDb = db.voteDb := by
  rw [insertPost] at h
  split_ifs at h
  cases h
  rfl

theorem createStep_voteDb {l : CreateProc} {out : ThreadDb × CreateProc}
    (hstep : createStep db l = some out) : out.1.voteDb = db.voteDb := by
  cases l with
  | lookup args =>
    cases hstep
    rfl
  | insert args parentId =>
    rw [createStep] at hstep
    split at hstep
    · rename_i hinsert
      cases hstep
      exact insertPost_voteDb hinsert
    · cases hstep
      rfl
  | returned postId => cases hstep
  | threw error => cases hstep

theorem upsertPostStep_voteDb {l : UpsertPostProc} {out : ThreadDb × UpsertPostProc}
    (hstep : upsertPostStep db l = some out) : out.1.voteDb = db.voteDb := by
  cases l with
  | insert args =>
    rw [upsertPostStep] at hstep
    split at hstep
    · rename_i hinsert
      cases hstep
      exact insertPost_voteDb hinsert
    · cases hstep
      rfl
  | read args | revive args postId | edit args postId =>
    cases hstep
    rfl
  | returned | threw error => cases hstep

theorem removePostStep_voteDb {l : RemovePostProc} {out : ThreadDb × RemovePostProc}
    (hstep : removePostStep db l = some out) : out.1.voteDb = db.voteDb := by
  cases l with
  | read args | remove args postId =>
    cases hstep
    rfl
  | returned => cases hstep

variable {l : VoteProc}

/-- **One statement of any call** that does not write the vote. -/
theorem Reapable.step {l' : VoteProc} (h : Reapable cutoff db.voteDb vote)
    (hleft : ¬l.Rewrites cutoff vote) (hstep : voteProcStep db l = some (db', l')) :
    Reapable cutoff db'.voteDb vote := by
  cases l with
  | create l =>
    obtain ⟨out, hout, ⟨⟩⟩ := Option.map_eq_some_iff.mp hstep
    rwa [createStep_voteDb hout]
  | upsertPost l =>
    obtain ⟨out, hout, ⟨⟩⟩ := Option.map_eq_some_iff.mp hstep
    rwa [upsertPostStep_voteDb hout]
  | removePost l =>
    obtain ⟨out, hout, ⟨⟩⟩ := Option.map_eq_some_iff.mp hstep
    rwa [removePostStep_voteDb hout]
  | reap l =>
    obtain ⟨out, hout, ⟨⟩⟩ := Option.map_eq_some_iff.mp hstep
    cases l with
    | flag cutoffSeconds now todo =>
      cases hout
      -- a flag only sets more votes to failed
      exact h.flag cutoffSeconds
    | stale cutoffSeconds now | select now vote todo count
    | rationale now vote todo count | post now vote post posts todo count =>
      cases hout
      exact h
    | returned count => cases hout
  | sync l =>
    obtain ⟨out, hout, ⟨⟩⟩ := Option.map_eq_some_iff.mp hstep
    cases l with
    | load gaId votes now | bodies gaId votes now existing =>
      cases hout
      exact h
    | batch gaId now existing bodies chunks count =>
      cases chunks with
      | nil => cases hout
      | cons chunk chunks =>
        cases hout
        -- the condition: the vote is not in the batch
        exact h.sync fun v hv heq => hleft ⟨v, hv, heq⟩
  | record r =>
    obtain ⟨rfl, -⟩ := Prod.mk.inj (Option.some.inj hstep)
    exact h.record hleft
  | rationale row =>
    obtain ⟨rfl, -⟩ := Prod.mk.inj (Option.some.inj hstep)
    exact h
  | returned => cases hstep

variable {count : ℕ} {todo : List VoteKey}

theorem mem_due_reapNext (h : vote ∈ (reapNext now count todo).due) : vote ∈ todo := by
  cases todo with
  | nil => exact h
  | cons vote todo => exact h

theorem cutoff_reapNext :
    (reapNext now count todo).cutoff = none := by
  cases todo <;> rfl

theorem mem_due_reapNextPost {vote' : VoteKey}
    (h : vote' ∈ (reapNextPost now vote todo count posts).due) : vote' ∈ vote :: todo := by
  cases posts with
  | nil => exact List.mem_cons_of_mem _ (mem_due_reapNext h)
  | cons post posts => exact h

theorem cutoff_reapNextPost : (reapNextPost now vote todo count posts).cutoff = none := by
  cases posts with
  | nil => exact cutoff_reapNext
  | cons post posts => rfl

theorem reapable_of_stale {db : VoteDb} (h : vote ∈ staleVotes db cutoffSeconds) :
    Reapable (some cutoffSeconds) db vote := by
  obtain ⟨row, hrow, rfl⟩ := List.mem_map.mp h
  obtain ⟨hmem, hstale⟩ := List.mem_filter.mp hrow
  rw [Bool.and_eq_true, beq_iff_eq, decide_eq_true_eq] at hstale
  exact ⟨row, hmem, rfl, .inr ⟨hstale.1, cutoffSeconds, rfl, hstale.2⟩⟩

theorem reapStep_listed {l : ReapProc} {out : ThreadDb × ReapProc}
    (h : ∀ vote ∈ l.due, Reapable l.cutoff db.voteDb vote) (hstep : reapStep db l = some out) :
    ∀ vote ∈ out.2.due, Reapable out.2.cutoff out.1.voteDb vote := by
  cases l with
  | stale cutoffSeconds now =>
    cases hstep
    intro vote hdue
    split at hdue
    · cases hdue
    · rename_i hstale
      have hmem : vote ∈ staleVotes db.voteDb cutoffSeconds := hstale ▸ hdue
      exact reapable_of_stale hmem
  | flag cutoffSeconds now todo =>
    cases hstep
    intro vote hdue
    rw [cutoff_reapNext]
    -- the list is read before the flag, which sets what is still stale
    exact (h vote (mem_due_reapNext hdue)).flagged
  | rationale now vote todo count =>
    cases hstep
    exact h
  | select now vote todo count | post now vote post posts todo count =>
    cases hstep
    intro vote' hdue
    rw [cutoff_reapNextPost]
    exact h vote' (mem_due_reapNextPost hdue)
  | returned count => cases hstep

theorem voteProcStep_listed {l' : VoteProc} (h : l.Listed db)
    (hstep : voteProcStep db l = some (db', l')) : l'.Listed db' := by
  rintro r rfl
  cases l with
  | reap l =>
    obtain ⟨out, hout, heq⟩ := Option.map_eq_some_iff.mp hstep
    obtain ⟨rfl, hr⟩ := Prod.mk.inj heq
    obtain rfl := VoteProc.reap.inj hr
    exact reapStep_listed (h l rfl) hout
  | create l | upsertPost l | removePost l | sync l =>
    obtain ⟨out, -, heq⟩ := Option.map_eq_some_iff.mp hstep
    cases (Prod.mk.inj heq).2
  | record r | rationale row => cases (Prod.mk.inj (Option.some.inj hstep)).2
  | returned => cases hstep

/-! ### Every run -/

/-- What holds of the lists, step by step. -/
def listsSound : voteProgram.SoundWhen listsLeftAlone fun _ => True where
  inv _ := True
  asserts db l := l.Listed db
  apart _ _ := True
  symm _ _ h := h
  init _ _ := trivial
  start db l _ _ hstart := by
    refine ⟨?_, fun _ _ => trivial⟩
    rintro r rfl vote hdue
    cases hstart
    cases hdue
  step db l db' l' _ _ _ hlisted hstep := ⟨trivial, voteProcStep_listed hlisted hstep⟩
  noninterference db l db' l' m _ _ hleft _ _ hlisted _ hstep :=
    ⟨fun r hr vote hdue => (hlisted r hr vote hdue).step (hleft r hr vote hdue) hstep, trivial⟩
  env db db' _ _ henv := by
    refine ⟨trivial, fun m hlisted => ?_⟩
    cases henv <;> exact hlisted

variable {ι : Type*} [DecidableEq ι]

/-- What the reap owes: where it removes the rationale or the cross-post of a vote, the vote has
failed. -/
def ReapRight (s : Interleaved ThreadDb VoteProc ι) : Prop :=
  ∀ i l vote, s.procs i = some (.reap l) → l.removesFor s.shared = some vote →
    ∃ row ∈ s.shared.voteDb.votes.rows, (row.gaId, row.voterId) = vote ∧
      row.localStatus = some .failed

theorem due_of_removesFor {l : ReapProc} (h : l.removesFor db = some vote) :
    vote ∈ l.due ∧ l.cutoff = none := by
  cases l with
  | rationale now vote' todo count | post now vote' post posts todo count =>
    rw [ReapProc.removesFor] at h
    split_ifs at h
    cases h
    exact ⟨List.mem_cons_self, rfl⟩
  | stale cutoffSeconds now | flag cutoffSeconds now todo | select now vote todo count
  | returned count => cases h

/-- **The reap is right** in every run in which the votes on its list are left alone. -/
theorem reapRight {s : Interleaved ThreadDb VoteProc ι}
    (h : ((voteProgram.system ι fun _ => True).restrict listsLeftAlone.Met).Reachable s) :
    ReapRight s := by
  intro i l vote hproc hremoves
  obtain ⟨hdue, hcutoff⟩ := due_of_removesFor hremoves
  obtain ⟨row, hmem, hkey, hstatus⟩ := (listsSound.holds h).asserts i _ hproc l rfl vote hdue
  refine ⟨row, hmem, hkey, hstatus.resolve_right ?_⟩
  rintro ⟨-, c, hc, -⟩
  rw [hcutoff] at hc
  cases hc

/-! ### A vote that never appears on the chain -/

def reapOnlyStep (_ : Unit) (db : ThreadDb) : VoteProc → Option (ThreadDb × VoteProc)
  | .reap l => voteProcStep db (.reap l)
  | _ => none

theorem reapOnlyStep_eq_some {k : Unit} {out : ThreadDb × VoteProc}
    (h : reapOnlyStep k db l = some out) : voteProcStep db l = some out ∧ ∃ r, l = .reap r := by
  cases l with
  | reap r => exact ⟨h, r, rfl⟩
  | create l | upsertPost l | removePost l | sync l => cases h
  | record r | rationale row => cases h
  | returned => cases h

theorem reapOnlyStep_others (k : Unit) (db : ThreadDb) (l : VoteProc) (out : ThreadDb × VoteProc)
    (h : reapOnlyStep k db l = some out) (m : VoteProc) : listsLeftAlone.others db l m := by
  obtain ⟨-, r, rfl⟩ := reapOnlyStep_eq_some h
  exact fun _ _ _ _ hrewrites => hrewrites

/-- A vote cast through the site, with its rationale and its cross-post. -/
def sampleVotedDb : ThreadDb where
  voteDb :=
    { votes := KeyedTable.empty.insertOrIgnore
        ⟨"ga1", "DRep", "drep1", none, "yes", none, none, none, 10, none, some .pending, some "tx"⟩
      history := .empty
      rationales := KeyedTable.empty.insertOrIgnore ⟨"ga1", "drep1", some "why", .dreptalk⟩
      actions := [⟨"ga1", some "t1", "active"⟩] }
  posts := KeyedTable.empty.insertOrIgnore (sampleCrossPost "why" "p1" 10).post
  topics := KeyedTable.empty.insertOrIgnore ⟨"t1", false, false, 1, 10⟩
  activity := [replyEvent "t1" "alice" "p1" 10]
  users := [⟨"alice", some "drep1"⟩]

/-- Nobody votes again: the reap is about to remove the cross-post of a vote that has failed, and
has removed its rationale. -/
theorem reapRight_failed :
    ∃ s : Interleaved ThreadDb VoteProc ℕ,
      ((voteProgram.system ℕ fun _ => True).restrict listsLeftAlone.Met).Reachable s ∧
        s.procs 0 = some (.reap (.post 2000 ("ga1", "drep1") ("p1", "t1") [] [] 1)) ∧
        (ReapProc.post 2000 ("ga1", "drep1") ("p1", "t1") [] [] 1).removesFor s.shared =
          some ("ga1", "drep1") ∧
        s.shared.voteDb.rationales.rows = [] ∧ ReapRight s := by
  have h₀ : ((voteProgram.system ℕ fun _ => True).restrict listsLeftAlone.Met).Reachable
      ⟨sampleVotedDb, fun _ => none⟩ := .init ⟨trivial, fun _ => rfl⟩
  have h₁ := Program.reachable_start h₀ (i := 0) trivial rfl
    (.markStalePendingVotesFailed 1000 2000)
  have h₂ := Program.reachable_runWhen reapOnlyStep_others
    (fun _ _ _ _ _ hout => ⟨(reapOnlyStep_eq_some hout).1, trivial, trivial⟩) h₁
    ([0, 0, 0, 0].map fun i => (i, ())) (by decide +kernel)
  exact ⟨_, h₂, by decide +kernel, by decide +kernel, by decide +kernel, reapRight h₂⟩

/-- The vote is cast again after the list has been read: the flag misses it, and the reap is about
to remove the rationale of a vote that is pending. -/
theorem not_reapRight :
    ∃ s : Interleaved ThreadDb VoteProc ℕ,
      (voteProgram.system ℕ fun _ => True).Reachable s ∧
        s.shared.voteDb.votes.rows.map (fun row => (row.gaId, row.voterId, row.localStatus)) =
          [("ga1", "drep1", some .pending)] ∧
        s.procs 0 = some (.reap (.rationale 2000 ("ga1", "drep1") [] 1)) ∧
        (ReapProc.rationale 2000 ("ga1", "drep1") [] 1).removesFor s.shared =
          some ("ga1", "drep1") ∧ ¬ReapRight s := by
  have h₀ : (voteProgram.system ℕ fun _ => True).Reachable ⟨sampleVotedDb, fun _ => none⟩ :=
    .init ⟨trivial, fun _ => rfl⟩
  have h₁ := h₀.step (.start (i := 0) rfl (VoteStart.markStalePendingVotesFailed 1000 2000))
  have h₂ := h₁.step (.start (i := 1) rfl
    (VoteStart.recordLocalVote ⟨"ga1", "drep1", none, "no", none, "tx2", 1500⟩))
  have h₃ := h₂.step (.start (i := 2) rfl
    (VoteStart.upsertActionRationale ⟨"ga1", "drep1", some "on second thoughts", .dreptalk⟩))
  have h₄ := Program.reachable_run (fun _ _ _ _ _ h => h) h₃
    ([0, 1, 2, 0].map fun i => (i, ())) (by decide +kernel)
  refine ⟨_, h₄, by decide +kernel, by decide +kernel, by decide +kernel, fun hright => ?_⟩
  obtain ⟨row, hmem, -, hfailed⟩ := hright 0 (.rationale 2000 ("ga1", "drep1") [] 1)
    ("ga1", "drep1") (by decide +kernel) (by decide +kernel)
  exact absurd hfailed (by revert row; decide +kernel)

end DrepTalk
