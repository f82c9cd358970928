import DrepTalk.Votes.VoteTables
import DrepTalk.Library.TransitionSystem
import Mathlib.Data.List.Induction

/-!
# The history of superseded votes

Snapshots of the chain, one after the other, with votes cast through the site in between, votes
flagged as failed, rationales written and removed, and actions decided. Beside the tables the run
records what the snapshots have shown, and the votes they have superseded with the rationales that
were stored for them then.

**What the history owes** (`HistoryRight`). Each superseded vote is in it once, with its rationale;
and it holds no vote that no snapshot has shown.

**What is lost.** A vote cast through the site overwrites the one the chain has shown; when the
chain shows the new one, nothing is left to archive (`not_historyRight`). In every run in which
the rows of superseded votes have not been overwritten so, the history is right (`historyRight`).
That it holds nothing else is true of every run (`VotesKnown.archived`).
-/

namespace DrepTalk

/-- A superseded vote, with the rationale that was stored for it. -/
structure ArchivedVote where
  gaId : String
  voterId : String
  voterRole : String
  vote : String
  metaUrl : Option String
  metaHash : Option String
  blockTime : ℤ
  bodyHtml : Option String
  deriving DecidableEq

/-- What a history row says, without when it was written. -/
def HistoryRow.content (h : HistoryRow) : ArchivedVote :=
  ⟨h.gaId, h.voterId, h.voterRole, h.vote, h.metaUrl, h.metaHash, h.blockTime, h.bodyHtml⟩

/-- The tables, the votes shown so far by the snapshots of each action, and the ones among them
that later ones have superseded. -/
structure VoteWorld where
  db : VoteDb
  shown : List (String × VoteInput)
  superseded : List ArchivedVote

/-- The last vote of a voter in a list. -/
def lastVote (votes : List VoteInput) (voterId : String) : Option VoteInput :=
  (votes.filter fun v => v.voterId == voterId).getLast?

/-- The votes the snapshots of an action have shown. -/
def shownOn (w : VoteWorld) (gaId : String) : List VoteInput :=
  (w.shown.filter fun p => p.1 == gaId).map (·.2)

/-- The last vote of a voter that a snapshot of an action has shown. -/
def lastShown (w : VoteWorld) (gaId voterId : String) : Option VoteInput :=
  lastVote (shownOn w gaId) voterId

/-- Whether a vote supersedes the last one: a strictly newer block, and another vote or anchor. -/
def supersedes (last v : VoteInput) : Bool :=
  (match last.blockTime, v.blockTime with
    | some t, some t' => decide (t < t')
    | _, _ => false) &&
  (last.vote != v.vote || anchorMoved last.metaUrl v.metaUrl)

/-- The rationale stored for a voter and an action. -/
def storedBody (db : VoteDb) (gaId voterId : String) : Option String :=
  (db.rationales.rows.find? fun row => row.gaId == gaId && row.voterId == voterId).bind
    (·.bodyHtml)

/-- A vote a snapshot has shown, as it is to be archived. -/
def VoteInput.archived (v : VoteInput) (gaId : String) (bodyHtml : Option String) :
    ArchivedVote :=
  ⟨gaId, v.voterId, v.voterRole, v.vote, v.metaUrl, v.metaHash, v.blockTime.getD 0, bodyHtml⟩

def supersededBy (w : VoteWorld) (gaId : String) (votes : List VoteInput) : List ArchivedVote :=
  votes.filterMap fun v => (lastShown w gaId v.voterId).bind fun last =>
    if supersedes last v then some (last.archived gaId (storedBody w.db gaId v.voterId)) else none

inductive VoteEvent
  | snapshot (gaId : String) (votes : List VoteInput) (now : ℤ)
  | recordLocalVote (r : LocalVote)
  | flagStaleVotes (cutoffSeconds : ℤ)
  | rationales (rationales : RationaleTable)
  | actions (actions : List GovernanceActionRow)

/-- What it makes of the tables and the record. -/
def voteStep (w : VoteWorld) : VoteEvent → VoteWorld
  | .snapshot gaId votes now =>
    { db := upsertVotes w.db gaId votes now
      shown := w.shown ++ votes.map fun v => (gaId, v)
      superseded := w.superseded ++ supersededBy w gaId votes }
  | .recordLocalVote r => { w with db := DrepTalk.recordLocalVote w.db r }
  | .flagStaleVotes cutoffSeconds => { w with db := DrepTalk.flagStaleVotes w.db cutoffSeconds }
  | .rationales rationales => { w with db := { w.db with rationales } }
  | .actions actions => { w with db := { w.db with actions } }

/-- The block times a voter's votes on an action are shown with never decrease. -/
def BlocksInOrder (shown : List (String × VoteInput)) : Prop :=
  shown.Pairwise fun p q => p.1 = q.1 → p.2.voterId = q.2.voterId →
    ∀ t ∈ p.2.blockTime, ∀ t' ∈ q.2.blockTime, t ≤ t'

/-- Runs of snapshots, local votes and the rest, from empty tables. -/
def voteSystem : TransitionSystem VoteWorld VoteEvent where
  Init w := w.db.votes.rows = [] ∧ w.db.history.rows = [] ∧ w.shown = [] ∧ w.superseded = []
  Step w e w' := w' = voteStep w e ∧ BlocksInOrder w'.shown

structure HistoryRight (w : VoteWorld) : Prop where
  complete : ∀ o ∈ w.superseded, (w.db.history.rows.filter fun h =>
    decide ((h.gaId, h.voterId, h.blockTime) = (o.gaId, o.voterId, o.blockTime))).map
      (·.content) = [o]
  shown : ∀ h ∈ w.db.history.rows, ∃ p ∈ w.shown,
    h.content = p.2.archived p.1 h.bodyHtml ∧ p.2.blockTime = some h.blockTime

/-- A snapshot finds the rows of the votes it supersedes as an earlier one has stored them: none
has been overwritten by a vote cast through the site. -/
def VoteWorld.Unhidden (w : VoteWorld) : VoteEvent → Prop
  | .snapshot gaId votes _ => ∀ v ∈ votes, ∀ last ∈ lastShown w gaId v.voterId,
    supersedes last v = true → ∀ row ∈ w.db.votes.rows,
      (row.gaId, row.voterId) = (gaId, v.voterId) → row.localStatus = none
  | _ => True

/-! ### A snapshot as one batch -/

theorem upsertChunk_append (gaId : String) (existing : List VoteRow)
    (bodies : List (String × Option String)) (now : ℤ) (db : VoteDb) (a b : List VoteInput) :
    upsertChunk gaId existing bodies now (upsertChunk gaId existing bodies now db a) b =
      upsertChunk gaId existing bodies now db (a ++ b) := by
  have hstale : ∀ c c' : List SupersededChange, staleRationaleIds bodies (c ++ c') =
      staleRationaleIds bodies c ++ staleRationaleIds bodies c' := fun c c' => by
    rw [staleRationaleIds, List.filter_append, List.map_append, staleRationaleIds,
      staleRationaleIds]
  have hdelete : ∀ (t : RationaleTable) (ids ids' : List String),
      (t.deleteWhere fun row => row.gaId == gaId && ids.contains row.voterId).deleteWhere
        (fun row => row.gaId == gaId && ids'.contains row.voterId) =
      t.deleteWhere fun row => row.gaId == gaId && (ids ++ ids').contains row.voterId := by
    intro t ids ids'
    simp only [KeyedTable.deleteWhere, Table.deleteWhere, List.filter_filter]
    congr 1
    refine List.filter_congr fun row _ => ?_
    rw [List.contains_append]
    cases row.gaId == gaId <;> cases ids.contains row.voterId <;> simp
  rw [upsertChunk, upsertChunk, upsertChunk, computeSupersededChanges, computeSupersededChanges,
    computeSupersededChanges, List.filterMap_append, hstale, List.map_append, List.foldl_append,
    List.foldl_append, hdelete]

theorem upsertChunk_nil (gaId : String) (existing : List VoteRow)
    (bodies : List (String × Option String)) (now : ℤ) (db : VoteDb) :
    upsertChunk gaId existing bodies now db [] = db := by
  have hdelete : (db.rationales.deleteWhere fun row =>
      row.gaId == gaId && ([] : List String).contains row.voterId) = db.rationales := by
    simp [KeyedTable.deleteWhere, Table.deleteWhere]
  rw [upsertChunk]
  exact congrArg (fun rationales => { db with rationales }) hdelete

theorem foldl_upsertChunk (gaId : String) (existing : List VoteRow)
    (bodies : List (String × Option String)) (now : ℤ) (db : VoteDb)
    (chunks : List (List VoteInput)) :
    chunks.foldl (upsertChunk gaId existing bodies now) db =
      upsertChunk gaId existing bodies now db chunks.flatten := by
  induction chunks generalizing db with
  | nil => exact (upsertChunk_nil gaId existing bodies now db).symm
  | cons chunk chunks ih => rw [List.foldl_cons, ih, upsertChunk_append, List.flatten_cons]

theorem upsertVotes_eq (db : VoteDb) (gaId : String) (votes : List VoteInput) (now : ℤ) :
    upsertVotes db gaId votes now =
      upsertChunk gaId (loadExistingVotes db gaId)
        (readArchiveBodies db gaId votes (loadExistingVotes db gaId)) now db votes := by
  rw [upsertVotes, foldl_upsertChunk, slices_flatten (by decide)]

/-! ### The last vote of a voter -/

section LastVote

variable {votes votes' : List VoteInput} {v : VoteInput} {voterId : String}

theorem lastVote_append :
    lastVote (votes ++ votes') voterId = (lastVote votes' voterId).or (lastVote votes voterId) := by
  rw [lastVote, List.filter_append, List.getLast?_append, lastVote, lastVote]

theorem lastVote_concat :
    lastVote (votes ++ [v]) voterId = if v.voterId = voterId then some v
      else lastVote votes voterId := by
  rw [lastVote_append]
  split_ifs with hid
  · rw [lastVote, List.filter_cons_of_pos (by simpa using hid)]
    rfl
  · rw [lastVote, List.filter_cons_of_neg (by simpa using hid)]
    rfl

theorem mem_of_lastVote (h : lastVote votes voterId = some v) :
    v ∈ votes ∧ v.voterId = voterId := by
  obtain ⟨hmem, hid⟩ := List.mem_filter.mp (List.mem_of_getLast? h)
  exact ⟨hmem, beq_iff_eq.mp hid⟩

theorem pairwise_lastVote {R : VoteInput → VoteInput → Prop} (hpairwise : votes.Pairwise R)
    {u : VoteInput} (hu : u ∈ votes) (hid : u.voterId = voterId)
    (h : lastVote votes voterId = some v) : u = v ∨ R u v := by
  have hmem : u ∈ votes.filter fun v => v.voterId == voterId :=
    List.mem_filter.mpr ⟨hu, beq_iff_eq.mpr hid⟩
  obtain ⟨front, hfront⟩ := List.getLast?_eq_some_iff.mp h
  have hsorted := hpairwise.sublist (List.filter_sublist (p := fun v => v.voterId == voterId))
  rw [hfront] at hmem hsorted
  rcases List.mem_append.mp hmem with hmem | hmem
  · exact .inr ((List.pairwise_append.mp hsorted).2.2 u hmem v List.mem_cons_self)
  · exact .inl (List.mem_singleton.mp hmem)

end LastVote

/-! ### The rows behind a snapshot -/

/-- A row that holds a vote as the chain has shown it. -/
structure VoteRow.Shows (row : VoteRow) (v : VoteInput) : Prop where
  voterRole : row.voterRole = v.voterRole
  vote : row.vote = v.vote
  metaUrl : row.metaUrl = v.metaUrl
  metaHash : row.metaHash = v.metaHash
  blockTime : row.blockTime = v.blockTime

theorem onChainRow_shows (gaId : String) (now : ℤ) (v : VoteInput) (stored : Option VoteRow) :
    (onChainRow gaId now v stored).Shows v := ⟨rfl, rfl, rfl, rfl, rfl⟩

variable {gaId : String} {now : ℤ}

theorem mem_upsertVotes {votes : List VoteInput} {t : VoteTable} {row : VoteRow}
    (h : row ∈ (votes.foldl (upsertVote gaId now) t).rows) :
    (row ∈ t.rows ∧ (row.gaId = gaId → lastVote votes row.voterId = none)) ∨
      row.gaId = gaId ∧ row.localStatus = none ∧
        ∃ v, lastVote votes row.voterId = some v ∧ row.Shows v := by
  induction votes using List.reverseRecOn generalizing row with
  | nil => exact .inl ⟨h, fun _ => rfl⟩
  | append_singleton votes v ih =>
    rw [List.foldl_concat] at h
    rcases (KeyedTable.mem_upsert (onChainRow_key gaId now v)).mp h with
      ⟨hmem, hother⟩ | ⟨stored, -, -, rfl⟩ | ⟨rfl, -⟩
    · have hlast : row.gaId = gaId → lastVote (votes ++ [v]) row.voterId =
          lastVote votes row.voterId := by
        intro hga
        rw [lastVote_concat, if_neg fun hid => hother (Prod.ext hga hid.symm)]
      rcases ih hmem with ⟨hold, hnone⟩ | ⟨hga, hlocal, hshows⟩
      · exact .inl ⟨hold, fun hga => (hlast hga).trans (hnone hga)⟩
      · refine .inr ⟨hga, hlocal, ?_⟩
        rw [hlast hga]
        exact hshows
    · refine .inr ⟨rfl, rfl, v, ?_, onChainRow_shows gaId now v _⟩
      rw [lastVote_concat, if_pos]
      rfl
    · refine .inr ⟨rfl, rfl, v, ?_, onChainRow_shows gaId now v _⟩
      rw [lastVote_concat, if_pos]
      rfl

theorem held_upsertVotes (gaId : String) (now : ℤ) (votes : List VoteInput) (t : VoteTable) :
    (∀ row ∈ t.rows, ∃ row' ∈ (votes.foldl (upsertVote gaId now) t).rows,
      (row'.gaId, row'.voterId) = (row.gaId, row.voterId)) ∧
      ∀ v ∈ votes, ∃ row' ∈ (votes.foldl (upsertVote gaId now) t).rows,
        (row'.gaId, row'.voterId) = (gaId, v.voterId) := by
  induction votes generalizing t with
  | nil => exact ⟨fun row hmem => ⟨row, hmem, rfl⟩, nofun⟩
  | cons v votes ih =>
    obtain ⟨hold, hvotes⟩ := ih (upsertVote gaId now t v)
    refine ⟨fun row hmem => ?_, fun u hu => ?_⟩
    · obtain ⟨row', hmem', hkey'⟩ : ∃ row' ∈ (upsertVote gaId now t v).rows,
          (row'.gaId, row'.voterId) = (row.gaId, row.voterId) :=
        KeyedTable.held_upsert _ (onChainRow_key gaId now v) hmem
      obtain ⟨row'', hmem'', hkey''⟩ := hold row' hmem'
      exact ⟨row'', hmem'', hkey''.trans hkey'⟩
    · rcases List.mem_cons.mp hu with rfl | hu
      · obtain ⟨row', hmem', hkey'⟩ : ∃ row' ∈ (upsertVote gaId now t u).rows,
            (row'.gaId, row'.voterId) = (gaId, u.voterId) :=
          KeyedTable.held_upsert_row (onChainRow_key gaId now u)
        obtain ⟨row'', hmem'', hkey''⟩ := hold row' hmem'
        exact ⟨row'', hmem'', hkey''.trans hkey'⟩
      · exact hvotes u hu

theorem supersededChange_iff {db : VoteDb} {v : VoteInput} {change : SupersededChange} :
    supersededChange (loadExistingVotes db gaId) v = some change ↔
      change.old ∈ db.votes.rows ∧ change.old.gaId = gaId ∧ change.old.voterId = v.voterId ∧
        change.old.localStatus = none ∧
        (∃ t t', change.old.blockTime = some t ∧ v.blockTime = some t' ∧ t < t') ∧
        change.anchorChanged = anchorMoved change.old.metaUrl v.metaUrl ∧
        (change.old.vote = v.vote → change.anchorChanged = true) := by
  have hfind : ∀ old, (loadExistingVotes db gaId).find? (fun row => row.voterId == v.voterId) =
      some old ↔ old ∈ db.votes.rows ∧ old.gaId = gaId ∧ old.voterId = v.voterId := by
    intro old
    rw [loadExistingVotes, List.find?_filter,
      db.votes.find?_eq_some (k := (gaId, v.voterId)) fun row => by simp, Prod.mk_inj]
  constructor
  · intro h
    rw [supersededChange] at h
    split at h
    · cases h
    · rename_i old hfound
      obtain ⟨hmem, hga, hid⟩ := (hfind old).mp hfound
      split_ifs at h with hlocal
      split at h
      · rename_i t t' ht ht'
        dsimp only at h
        split_ifs at h with hle hsame
        cases h
        refine ⟨hmem, hga, hid, by simpa using hlocal, ⟨t, t', ht, ht', by omega⟩, rfl, ?_⟩
        simpa using hsame
      · cases h
  · rintro ⟨hmem, hga, hid, hlocal, ⟨t, t', ht, ht', hlt⟩, hanchor, hchanged⟩
    obtain ⟨old, anchorChanged⟩ := change
    rw [supersededChange, (hfind old).mpr ⟨hmem, hga, hid⟩]
    dsimp only at hlocal ht hanchor hchanged ⊢
    rw [hlocal, ht, ht']
    subst hanchor
    have hnot : ¬(old.vote = v.vote ∧ anchorMoved old.metaUrl v.metaUrl = false) := by
      rintro ⟨hvote, hsame⟩
      exact absurd (hchanged hvote) (by simp [hsame])
    simp [hnot, hlt]

/-! ### What any run keeps -/

/-- A history row of a vote that was shown, and that a later one has superseded. -/
structure HistoryRow.Supersedable (h : HistoryRow) (w : VoteWorld) : Prop where
  shown : ∃ v ∈ shownOn w h.gaId, h.content = v.archived h.gaId h.bodyHtml ∧
    v.blockTime = some h.blockTime
  later : ∃ v ∈ shownOn w h.gaId, v.voterId = h.voterId ∧
    ∃ t, v.blockTime = some t ∧ h.blockTime < t

/-- What holds of the tables and the record in every run. -/
structure VotesKnown (w : VoteWorld) : Prop where
  ordered : BlocksInOrder w.shown
  synced : ∀ row ∈ w.db.votes.rows, row.localStatus = none →
    ∃ v, lastShown w row.gaId row.voterId = some v ∧ row.Shows v
  stored : ∀ gaId voterId v, lastShown w gaId voterId = some v →
    ∃ row ∈ w.db.votes.rows, (row.gaId, row.voterId) = (gaId, voterId)
  archived : ∀ h ∈ w.db.history.rows, h.Supersedable w

variable {w w' : VoteWorld}

theorem shownOn_append {votes : List VoteInput}
    (hshown : w'.shown = w.shown ++ votes.map fun v => (gaId, v)) (g : String) :
    shownOn w' g = shownOn w g ++ if gaId = g then votes else [] := by
  have hnew : ((votes.map fun v => (gaId, v)).filter fun p => p.1 == g).map (·.2) =
      if gaId = g then votes else [] := by
    split_ifs with hga
    · rw [List.filter_eq_self.mpr (by simp [hga]), List.map_map]
      exact List.map_id _
    · rw [List.filter_eq_nil_iff.mpr (by simp [hga]), List.map_nil]
  rw [shownOn, hshown, List.filter_append, List.map_append, hnew, shownOn]

theorem mem_shownOn {v : VoteInput} :
    v ∈ shownOn w gaId ↔ (gaId, v) ∈ w.shown := by
  rw [shownOn, List.mem_map]
  constructor
  · rintro ⟨⟨g, u⟩, hmem, rfl⟩
    obtain ⟨hshown, hga⟩ := List.mem_filter.mp hmem
    exact (beq_iff_eq.mp hga) ▸ hshown
  · intro h
    exact ⟨(gaId, v), List.mem_filter.mpr ⟨h, beq_self_eq_true gaId⟩, rfl⟩

theorem VotesKnown.le_lastShown (h : VotesKnown w) {voterId : String} {u last : VoteInput}
    (hu : u ∈ shownOn w gaId) (hid : u.voterId = voterId)
    (hlast : lastShown w gaId voterId = some last) {t t' : ℤ} (ht : u.blockTime = some t)
    (ht' : last.blockTime = some t') : t ≤ t' := by
  have hpairwise : (shownOn w gaId).Pairwise fun u v => u.voterId = v.voterId →
      ∀ t ∈ u.blockTime, ∀ t' ∈ v.blockTime, t ≤ t' := by
    refine List.pairwise_map.mpr ((h.ordered.sublist List.filter_sublist).imp_of_mem ?_)
    intro p q hp hq hpq
    have hga := beq_iff_eq.mp (List.mem_filter.mp hp).2
    exact hpq (hga.trans (beq_iff_eq.mp (List.mem_filter.mp hq).2).symm)
  rcases pairwise_lastVote hpairwise hu hid hlast with rfl | hle
  · exact le_of_eq (Option.some.inj (ht.symm.trans ht'))
  · exact hle (hid.trans (mem_of_lastVote hlast).2.symm) t ht t' ht'

theorem archiveRow_supersedable (h : VotesKnown w) {votes : List VoteInput}
    {bodies : List (String × Option String)}
    (hshown : w'.shown = w.shown ++ votes.map fun v => (gaId, v)) {change : SupersededChange}
    (hchange : change ∈ computeSupersededChanges votes (loadExistingVotes w.db gaId)) :
    (archiveRow gaId bodies now change).Supersedable w' := by
  obtain ⟨v, hv, hsome⟩ := List.mem_filterMap.mp hchange
  obtain ⟨hmem, hga, hid, hlocal, ⟨t, t', ht, ht', hlt⟩, -, -⟩ := supersededChange_iff.mp hsome
  obtain ⟨last, hlast, hshows⟩ := h.synced change.old hmem hlocal
  obtain ⟨hlastmem, hlastid⟩ := mem_of_lastVote hlast
  have hof : ∀ u, u ∈ shownOn w gaId ∨ u ∈ votes → u ∈ shownOn w' gaId := by
    intro u hu
    rw [shownOn_append hshown, if_pos rfl]
    exact List.mem_append.mpr hu
  refine ⟨⟨last, hof last (.inl (hga ▸ hlastmem)), ?_, ?_⟩, v, hof v (.inr hv), hid.symm, t',
    ht', ?_⟩
  · simp only [HistoryRow.content, archiveRow, VoteInput.archived, hshows.voterRole, hshows.vote,
      hshows.metaUrl, hshows.metaHash, hshows.blockTime, hlastid]
  · change _ = some (change.old.blockTime.getD 0)
    rw [← hshows.blockTime, ht, Option.getD_some]
  · change change.old.blockTime.getD 0 < t'
    rw [ht]
    exact hlt

theorem HistoryRow.Supersedable.mono {h : HistoryRow} (hold : h.Supersedable w)
    (hshown : ∀ g, ∀ v ∈ shownOn w g, v ∈ shownOn w' g) : h.Supersedable w' := by
  obtain ⟨⟨v, hv, hcontent⟩, u, hu, hlater⟩ := hold
  exact ⟨⟨v, hshown _ v hv, hcontent⟩, u, hshown _ u hu, hlater⟩

theorem VotesKnown.snapshot (h : VotesKnown w) (gaId : String) (votes : List VoteInput) (now : ℤ)
    (hordered : BlocksInOrder (voteStep w (.snapshot gaId votes now)).shown) :
    VotesKnown (voteStep w (.snapshot gaId votes now)) := by
  have hshown : (voteStep w (.snapshot gaId votes now)).shown =
      w.shown ++ votes.map fun v => (gaId, v) := rfl
  have hlast : ∀ g voterId, lastShown (voteStep w (.snapshot gaId votes now)) g voterId =
      (lastVote (if gaId = g then votes else []) voterId).or (lastShown w g voterId) :=
    fun g voterId => by rw [lastShown, shownOn_append hshown, lastVote_append, lastShown]
  have hdb : (voteStep w (.snapshot gaId votes now)).db = _ := upsertVotes_eq w.db gaId votes now
  constructor
  · exact hordered
  · intro row hmem hlocal
    rw [hdb] at hmem
    rcases mem_upsertVotes hmem with ⟨hold, hnone⟩ | ⟨hga, -, v, hv, hshows⟩
    · obtain ⟨v, hv, hshows⟩ := h.synced row hold hlocal
      refine ⟨v, ?_, hshows⟩
      rw [hlast, hv]
      split_ifs with hga
      · rw [hnone hga.symm, Option.none_or]
      · rfl
    · refine ⟨v, ?_, hshows⟩
      rw [hlast, if_pos hga.symm, hv, Option.some_or]
  · intro g voterId v hv
    obtain ⟨hold, hnew⟩ := held_upsertVotes gaId now votes w.db.votes
    rw [hdb]
    rw [hlast] at hv
    rcases hfound : lastVote (if gaId = g then votes else []) voterId with _ | u
    · rw [hfound, Option.none_or] at hv
      obtain ⟨row, hmem, hkey⟩ := h.stored g voterId v hv
      obtain ⟨row', hmem', hkey'⟩ := hold row hmem
      exact ⟨row', hmem', hkey'.trans hkey⟩
    · obtain ⟨hu, hid⟩ := mem_of_lastVote hfound
      split_ifs at hu with hga
      · obtain ⟨row', hmem', hkey'⟩ := hnew u hu
        exact ⟨row', hmem', by rw [hkey', hga, hid]⟩
      · cases hu
  · intro row hmem
    rw [hdb] at hmem
    rcases KeyedTable.mem_insertAll.2.1 row hmem with hold | hnew
    · refine (h.archived row hold).mono fun g v hv => ?_
      rw [shownOn_append hshown]
      exact List.mem_append_left _ hv
    · obtain ⟨change, hchange, rfl⟩ := List.mem_map.mp hnew
      exact archiveRow_supersedable h hshown hchange

/-- What leaves the record and the history alone, and puts only local votes over the stored
ones. -/
theorem VotesKnown.of_votes {w w' : VoteWorld} (h : VotesKnown w) (hshown : w'.shown = w.shown)
    (hhistory : w'.db.history = w.db.history)
    (hrows : ∀ row ∈ w'.db.votes.rows, row ∈ w.db.votes.rows ∨ row.localStatus ≠ none)
    (hheld : ∀ row ∈ w.db.votes.rows, ∃ row' ∈ w'.db.votes.rows,
      (row'.gaId, row'.voterId) = (row.gaId, row.voterId)) : VotesKnown w' := by
  have hof : ∀ g, shownOn w' g = shownOn w g := fun g => by rw [shownOn, hshown, shownOn]
  refine ⟨hshown ▸ h.ordered, fun row hmem hlocal => ?_, fun g voterId v hv => ?_,
    fun row hmem => ?_⟩
  · rw [lastShown, hof]
    rcases hrows row hmem with hold | hother
    · exact h.synced row hold hlocal
    · exact absurd hlocal hother
  · rw [lastShown, hof] at hv
    obtain ⟨row, hmem, hkey⟩ := h.stored g voterId v hv
    obtain ⟨row', hmem', hkey'⟩ := hheld row hmem
    exact ⟨row', hmem', hkey'.trans hkey⟩
  · refine (h.archived row (hhistory ▸ hmem)).mono fun g v hv => ?_
    rw [hof]
    exact hv

theorem VotesKnown.step {e : VoteEvent} (h : VotesKnown w) (hstep : voteSystem.Step w e w') :
    VotesKnown w' := by
  obtain ⟨rfl, hordered⟩ := hstep
  cases e with
  | snapshot gaId votes now => exact h.snapshot gaId votes now hordered
  | recordLocalVote r =>
    refine h.of_votes rfl rfl (fun row hmem => ?_) fun row hmem => ?_
    · rcases (KeyedTable.mem_upsert (overwriteLocally_key r _)).mp hmem with
        ⟨hold, -⟩ | ⟨stored, hold, -, rfl⟩ | ⟨rfl, -⟩
      · exact .inl hold
      · rw [overwriteLocally]
        split_ifs
        · exact .inr (Option.some_ne_none _)
        · exact .inl hold
      · exact .inr (Option.some_ne_none _)
    · exact KeyedTable.held_upsert _ (overwriteLocally_key r _) hmem
  | flagStaleVotes cutoffSeconds =>
    refine h.of_votes rfl rfl (fun row hmem => ?_) fun row hmem => ?_
    · rcases Table.mem_updateWhere.mp hmem with ⟨hold, -⟩ | ⟨stored, -, -, rfl⟩
      · exact .inl hold
      · exact .inr (Option.some_ne_none _)
    · refine ⟨_, Table.mem_updateWhere_of_mem _ _ hmem, ?_⟩
      split_ifs <;> rfl
  | rationales rationales | actions actions =>
    exact h.of_votes rfl rfl (fun row hmem => .inl hmem) fun row hmem => ⟨row, hmem, rfl⟩

theorem votesKnown (h : voteSystem.Reachable w) : VotesKnown w := by
  refine h.invariant (fun w hinit => ?_) fun w e w' hw hstep => hw.step hstep
  obtain ⟨hvotes, hhistory, hshown, -⟩ := hinit
  have hnone : ∀ g voterId, lastShown w g voterId = none := fun g voterId => by
    rw [lastShown, shownOn, hshown]
    rfl
  refine ⟨hshown ▸ List.Pairwise.nil, fun row hmem => ?_, fun g voterId v hv => ?_,
    fun row hmem => ?_⟩
  · cases hvotes ▸ hmem
  · cases (hnone g voterId).symm.trans hv
  · cases hhistory ▸ hmem

/-! ### What the history owes -/

theorem bodyOf_read {db : VoteDb} {voterId : String} {ids : List String} (hid : voterId ∈ ids) :
    bodyOf (readChangedRationaleBodies db gaId ids) voterId = storedBody db gaId voterId := by
  have hsame : ∀ row : RationaleRow, decide ((row.gaId == gaId && ids.contains row.voterId) = true ∧
      (row.voterId == voterId) = true) = (row.gaId == gaId && row.voterId == voterId) := by
    intro row
    rw [Bool.eq_iff_iff, decide_eq_true_iff, Bool.and_eq_true, Bool.and_eq_true, beq_iff_eq,
      beq_iff_eq, List.contains_iff_mem]
    constructor
    · rintro ⟨⟨hga, -⟩, hvoter⟩
      exact ⟨hga, hvoter⟩
    · rintro ⟨hga, hvoter⟩
      exact ⟨⟨hga, hvoter ▸ hid⟩, hvoter⟩
  rw [bodyOf, readChangedRationaleBodies, List.find?_map, List.find?_filter, storedBody]
  simp only [Function.comp_apply, hsame]
  exact Option.bind_map

/-- **A superseded vote is archived** where its row is as it was stored. -/
theorem VotesKnown.archives (h : VotesKnown w) {votes : List VoteInput}
    (hunhidden : w.Unhidden (.snapshot gaId votes now)) {o : ArchivedVote}
    (ho : o ∈ supersededBy w gaId votes) :
    ∃ row ∈ (upsertVotes w.db gaId votes now).history.rows, row.content = o := by
  obtain ⟨v, hv, hsuperseded⟩ := List.mem_filterMap.mp ho
  obtain ⟨last, hlast, hsuperseded⟩ := Option.bind_eq_some_iff.mp hsuperseded
  split_ifs at hsuperseded with hnewer
  cases hsuperseded
  obtain ⟨row, hmem, hkey⟩ := h.stored gaId v.voterId last hlast
  obtain ⟨hga, hid⟩ := Prod.mk.inj hkey
  have hlocal := hunhidden v hv last hlast hnewer row hmem hkey
  obtain ⟨shown, hshown, hshows⟩ := h.synced row hmem hlocal
  rw [hga, hid] at hshown
  cases hlast.symm.trans hshown
  -- what the snapshot finds, and what it writes
  have hchange : supersededChange (loadExistingVotes w.db gaId) v =
      some ⟨row, anchorMoved row.metaUrl v.metaUrl⟩ := by
    rw [supersedes, Bool.and_eq_true] at hnewer
    obtain ⟨hblock, hother⟩ := hnewer
    split at hblock
    · rename_i t t' ht ht'
      refine supersededChange_iff.mpr ⟨hmem, hga, hid, hlocal,
        ⟨t, t', hshows.blockTime.trans ht, ht', of_decide_eq_true hblock⟩, rfl, fun hvote => ?_⟩
      dsimp only at hvote ⊢
      rw [hshows.metaUrl]
      simpa [← hshows.vote, hvote] using hother
    · cases hblock
  set existing := loadExistingVotes w.db gaId with hexisting
  have hchanged : SupersededChange.mk row (anchorMoved row.metaUrl v.metaUrl) ∈
      computeSupersededChanges votes existing := List.mem_filterMap.mpr ⟨v, hv, hchange⟩
  set bodies := readArchiveBodies w.db gaId votes existing with hbodies
  have hcontent : (archiveRow gaId bodies now ⟨row, anchorMoved row.metaUrl v.metaUrl⟩).content =
      last.archived gaId (storedBody w.db gaId v.voterId) := by
    have hbody : bodyOf bodies row.voterId = storedBody w.db gaId v.voterId := by
      rw [hbodies, readArchiveBodies, bodyOf_read (List.mem_map.mpr ⟨_, hchanged, rfl⟩), hid]
    simp only [HistoryRow.content, archiveRow, VoteInput.archived, hbody, hshows.voterRole,
      hshows.vote, hshows.metaUrl, hshows.metaHash, hshows.blockTime]
    rw [hid, (mem_of_lastVote hlast).2]
  rw [upsertVotes_eq]
  obtain ⟨found, hfound, hfoundkey⟩ : ∃ found ∈ (((computeSupersededChanges votes existing).map
      (archiveRow gaId bodies now)).foldl KeyedTable.insertOrIgnore w.db.history).rows,
      (found.gaId, found.voterId, found.blockTime) =
        (gaId, row.voterId, row.blockTime.getD 0) :=
    KeyedTable.mem_insertAll.2.2 _ (List.mem_map.mpr ⟨_, hchanged, rfl⟩)
  refine ⟨found, hfound, ?_⟩
  obtain ⟨hfoundga, hfoundrest⟩ := Prod.mk.inj hfoundkey
  obtain ⟨hfoundid, hfoundblock⟩ := Prod.mk.inj hfoundrest
  rcases KeyedTable.mem_insertAll.2.1 found hfound with hold | hnew
  · -- no vote of the voter that is archived already is as new as the last one
    obtain ⟨u, hu, huid, t, ht, hlt⟩ := (h.archived found hold).later
    rw [supersedes, Bool.and_eq_true] at hnewer
    rcases hblock : last.blockTime with _ | t'
    · rw [hblock] at hnewer
      exact absurd hnewer.1 (by simp)
    · have hle := h.le_lastShown (hfoundga ▸ hu) (huid.trans (hfoundid.trans hid)) hlast ht hblock
      have hsame : found.blockTime = t' := by
        rw [hfoundblock, hshows.blockTime, hblock, Option.getD_some]
      omega
  · obtain ⟨change, hchange', rfl⟩ := List.mem_map.mp hnew
    obtain ⟨u, -, hu⟩ := List.mem_filterMap.mp hchange'
    obtain ⟨hmem', hga', -⟩ := supersededChange_iff.mp hu
    have hrow : change.old = row := w.db.votes.eq_of_key hmem' hmem
      (Prod.ext (hga'.trans hga.symm) hfoundid)
    rw [← hcontent, archiveRow, hrow]
    rfl

theorem superseded_archived (h : (voteSystem.restrict VoteWorld.Unhidden).Reachable w) :
    ∀ o ∈ w.superseded, ∃ row ∈ w.db.history.rows, row.content = o := by
  induction h with
  | init hinit =>
    obtain ⟨-, -, -, hnone⟩ := hinit
    exact fun o ho => absurd (hnone ▸ ho) List.not_mem_nil
  | @step w w' e hw hstep ih =>
    obtain ⟨hunhidden, rfl, -⟩ := hstep
    cases e with
    | snapshot gaId votes now =>
      intro o ho
      rcases List.mem_append.mp ho with hold | hnew
      · obtain ⟨row, hmem, hcontent⟩ := ih o hold
        refine ⟨row, ?_, hcontent⟩
        change row ∈ (upsertVotes w.db gaId votes now).history.rows
        rw [upsertVotes_eq]
        exact KeyedTable.mem_insertAll.1 row hmem
      · exact (votesKnown hw.of_restrict).archives hunhidden hnew
    | recordLocalVote r => exact ih
    | flagStaleVotes cutoffSeconds => exact ih
    | rationales rationales => exact ih
    | actions actions => exact ih

/-- **The history is right** in every run in which no snapshot finds the row of a vote it supersedes
overwritten by a local one: each is in it once, with its rationale, and no other vote. -/
theorem historyRight {w : VoteWorld}
    (h : (voteSystem.restrict VoteWorld.Unhidden).Reachable w) : HistoryRight w := by
  constructor
  · intro o ho
    obtain ⟨row, hmem, rfl⟩ := superseded_archived h o ho
    have hsingle : w.db.history.rows.filter (fun h => decide ((h.gaId, h.voterId, h.blockTime) =
        (row.gaId, row.voterId, row.blockTime))) = [row] := w.db.history.filter_key hmem
    change (w.db.history.rows.filter fun h => decide ((h.gaId, h.voterId, h.blockTime) =
      (row.gaId, row.voterId, row.blockTime))).map _ = _
    rw [hsingle, List.map_singleton]
  · intro row hmem
    obtain ⟨v, hv, hcontent, hblock⟩ := ((votesKnown h.of_restrict).archived row hmem).shown
    exact ⟨(row.gaId, v), mem_shownOn.mp hv, hcontent, hblock⟩

/-! ### A vote that is changed -/

instance (shown : List (String × VoteInput)) : Decidable (BlocksInOrder shown) :=
  inferInstanceAs (Decidable (List.Pairwise _ _))

instance (w : VoteWorld) : DecidablePred w.Unhidden
  | .snapshot gaId votes _ => inferInstanceAs (Decidable (∀ v ∈ votes,
    ∀ last ∈ lastShown w gaId v.voterId, _ → ∀ row ∈ _, _ → _))
  | .recordLocalVote _ | .flagStaleVotes _ | .rationales _ | .actions _ => isTrue trivial

def sampleVote (vote : String) (blockTime : ℤ) : VoteInput :=
  ⟨"DRep", "drep1", none, vote, none, none, some blockTime, none⟩

def sampleVoteWorld : VoteWorld :=
  ⟨⟨.empty, .empty, .empty, [⟨"ga1", some "t1", "active"⟩]⟩, [], []⟩

theorem sampleVoteWorld_initial : voteSystem.Init sampleVoteWorld := ⟨rfl, rfl, rfl, rfl⟩

/-- A vote, and another one a hundred blocks later. -/
theorem historyRight_changed :
    ∃ w, (voteSystem.restrict VoteWorld.Unhidden).Reachable w ∧
      w.superseded.map (·.vote) = ["Yes"] ∧ w.db.history.rows.map (·.vote) = ["Yes"] ∧
      HistoryRight w := by
  have h₀ : (voteSystem.restrict VoteWorld.Unhidden).Reachable sampleVoteWorld :=
    .init sampleVoteWorld_initial
  have h₁ := h₀.step (e := .snapshot "ga1" [sampleVote "Yes" 100] 1000)
    ⟨by decide +kernel, rfl, by decide +kernel⟩
  have h₂ := h₁.step (e := .snapshot "ga1" [sampleVote "No" 200] 2000)
    ⟨by decide +kernel, rfl, by decide +kernel⟩
  exact ⟨_, h₂, by decide +kernel, by decide +kernel, historyRight h₂⟩

/-- The same change, cast through the site: the first vote is not archived. -/
theorem not_historyRight :
    ∃ w, voteSystem.Reachable w ∧ w.superseded.map (·.vote) = ["Yes"] ∧
      w.db.history.rows = [] ∧ ¬HistoryRight w := by
  have h₀ : voteSystem.Reachable sampleVoteWorld := .init sampleVoteWorld_initial
  have h₁ := h₀.step (e := .snapshot "ga1" [sampleVote "Yes" 100] 1000) ⟨rfl, by decide +kernel⟩
  have h₂ := h₁.step (e := .recordLocalVote ⟨"ga1", "drep1", none, "no", none, "tx", 1500⟩)
    ⟨rfl, by decide +kernel⟩
  have h₃ := h₂.step (e := .snapshot "ga1" [sampleVote "No" 200] 2000) ⟨rfl, by decide +kernel⟩
  refine ⟨_, h₃, by decide +kernel, by decide +kernel, fun hright => ?_⟩
  have hcomplete := hright.complete ⟨"ga1", "drep1", "DRep", "Yes", none, none, 100, none⟩
    (by decide +kernel)
  exact nomatch hcomplete

end DrepTalk
