import DrepTalk.Governance.ActionThreads
import DrepTalk.Library.Interleaving

/-!
# Runs that open governance threads

Overlapping runs of `syncGovernanceActions` and `createDeferredGovTopics` over one database.

**One thread for each action** (`GovThreadsRight`). Every governance topic is the topic of an
action, no two actions share one, each has its one `gov_created` event, and a run that has finished
without a failure has stored all the actions it was given.

A run decides that an action needs a thread from what it has read before, and the batch that opens
the thread does not look again: where another run has been faster, the `INSERT OR IGNORE` or the
guarded `UPDATE` that links the thread does nothing, and the thread stays, without an action
(`not_govThreadsRight`). In every run in which each thread is opened while its action still has
none, all of it holds (`govThreadsRight`).
-/

namespace DrepTalk

def GovDb.links (db : GovDb) : List (String × Option String) :=
  db.actions.rows.map fun a => (a.id, a.topicId)

/-- The threads, with where they come from. -/
def GovDb.threads (db : GovDb) : List (String × TopicSource) :=
  db.forum.topics.rows.map fun t => (t.id, t.source)

/-- The threads of the `gov_created` events. -/
def GovDb.announced (db : GovDb) : List String := db.govCreated.map (·.topicId)

def GovDb.Stores (db : GovDb) (id : String) : Prop := id ∈ db.actions.rows.map (·.id)

structure GovThreads (db : GovDb) : Prop where
  noOrphan : ∀ t, (t, TopicSource.governance) ∈ db.threads → ∃ id, (id, some t) ∈ db.links
  isThread : ∀ id t, (id, some t) ∈ db.links → (t, TopicSource.governance) ∈ db.threads
  ofOne : ∀ id id' t, (id, some t) ∈ db.links → (id', some t) ∈ db.links → id = id'
  announcedOnce : ∀ id t, (id, some t) ∈ db.links → db.announced.count t = 1
  announcesThread : ∀ t ∈ db.announced, t ∈ db.threads.map (·.1)

/-- The site besides: it writes no governance topic and no event of one, and takes no topic away. -/
structure GovEnv (db db' : GovDb) : Prop where
  links : db'.links = db.links
  threads : ∀ t, (t, TopicSource.governance) ∈ db'.threads ↔ (t, TopicSource.governance) ∈ db.threads
  kept : ∀ t ∈ db.threads.map (·.1), t ∈ db'.threads.map (·.1)
  announced : db'.announced = db.announced

inductive GovStart : GovDb → GovProc → Prop
  | listed (db : GovDb) (now : ℤ) (proposals : List ProposalListRow) :
      GovStart db (.listed now proposals)
  | waiting (db : GovDb) (now : ℤ) (limit : ℕ) : GovStart db (.waiting now limit)

def govProgram (cfg : GovNetwork) : Program GovDb GovProc where
  Start := GovStart
  Step db l db' l' := ∃ input, govStep cfg input db l = some (db', l')
  Env := GovEnv

/-- Whether the action of the thread that is opened next has none yet: a new one is not stored, one
that has waited has no topic. -/
def GovProc.OpensFirst (db : GovDb) : GovProc → Prop
  | .opening _ p _ _ => ¬db.Stores p.id
  | .attaching _ ga _ _ _ => ∀ a ∈ db.actions.rows, a.id = ga.id → a.topicId = none
  | _ => True

instance (db : GovDb) (l : GovProc) : Decidable (l.OpensFirst db) :=
  match l with
  | .opening _ p _ _ => inferInstanceAs (Decidable (¬p.id ∈ db.actions.rows.map (·.id)))
  | .attaching _ ga _ _ _ =>
    inferInstanceAs (Decidable (∀ a ∈ db.actions.rows, a.id = ga.id → a.topicId = none))
  | .listed _ _ | .syncing _ | .fetched _ _ _ | .synced _ | .waiting _ _ | .holding _
  | .reread _ _ _ | .drafting _ _ _ _ _ | .held _ | .threw => .isTrue trivial

/-- The condition on a run: each thread is opened while its action has none. -/
def opensFirst : Program.Condition GovDb GovProc where
  state _ := True
  mover db l := l.OpensFirst db
  others _ _ _ := True

structure GovThreadsRight {ι : Type*} (s : Interleaved GovDb GovProc ι) : Prop where
  noOrphan : ∀ t ∈ s.shared.forum.topics.rows, t.source = .governance →
    ∃ a ∈ s.shared.actions.rows, a.topicId = some t.id
  ofOne : ∀ a ∈ s.shared.actions.rows, ∀ a' ∈ s.shared.actions.rows, ∀ t, a.topicId = some t →
    a'.topicId = some t → a = a'
  announcedOnce : ∀ a ∈ s.shared.actions.rows, ∀ t, a.topicId = some t →
    s.shared.announced.count t = 1
  noneMissing : ∀ i run, s.procs i = some (.synced run) → run.failed = 0 →
    ∀ p ∈ run.proposals, s.shared.Stores p.id

/-! ### Statements that open no thread -/

/-- A step after which the threads are the same, up to new actions without one. -/
structure OpensNone (db db' : GovDb) : Prop where
  links : db'.links = db.links ∨ ∃ id, db'.links = db.links ++ [(id, none)]
  threads : db'.threads = db.threads
  announced : db'.announced = db.announced

variable {db : GovDb} {id : String}

theorem GovDb.stores_iff :
    db.Stores id ↔ id ∈ db.links.map (·.1) := by
  rw [GovDb.Stores, GovDb.links, List.map_map]
  rfl

theorem OpensNone.refl (db : GovDb) : OpensNone db db := ⟨.inl rfl, rfl, rfl⟩

theorem links_updateWhere (db : GovDb) {p : GovernanceAction → Bool}
    {f : GovernanceAction → GovernanceAction} (hkey : ∀ a, p a = true → (f a).id = a.id)
    (htopic : ∀ a, p a = true → (f a).topicId = a.topicId) :
    GovDb.links { db with actions := db.actions.updateWhere p f hkey } = db.links :=
  Table.map_updateWhere (fun a : GovernanceAction => (a.id, a.topicId))
    fun a ha => Prod.ext (hkey a ha) (htopic a ha)

variable {row : GovernanceAction} {draftTopicId : Option String}

theorem opensNone_insert (db : GovDb) (hrow : row.topicId = none) :
    OpensNone db (insertGovernanceAction db row) := by
  refine ⟨?_, rfl, rfl⟩
  rw [insertGovernanceAction, GovDb.links, KeyedTable.insertOrIgnore]
  split_ifs
  · exact .inl rfl
  · refine .inr ⟨row.id, ?_⟩
    rw [List.map_append, List.map_singleton, hrow]
    rfl

theorem stores_insert (db : GovDb) (row : GovernanceAction) :
    (insertGovernanceAction db row).Stores row.id := by
  by_cases htaken : row.id ∈ db.actions.rows.map (·.id)
  · obtain ⟨a, ha, hid⟩ := List.mem_map.mp htaken
    exact List.mem_map.mpr ⟨a, KeyedTable.mem_insertOrIgnore.mpr (.inl ha), hid⟩
  · exact List.mem_map.mpr
      ⟨row, KeyedTable.mem_insertOrIgnore.mpr (.inr ⟨rfl, htaken⟩), rfl⟩

theorem opensNone_backfillEnacted (db : GovDb) (enacted : List (String × ℤ)) :
    OpensNone db (backfillEnacted db enacted) := by
  suffices h : (backfillEnacted db enacted).links = db.links ∧
      (backfillEnacted db enacted).threads = db.threads ∧
        (backfillEnacted db enacted).announced = db.announced from
    ⟨.inl h.1, h.2.1, h.2.2⟩
  rw [backfillEnacted]
  induction enacted generalizing db with
  | nil => exact ⟨rfl, rfl, rfl⟩
  | cons entry enacted ih =>
    obtain ⟨hlinks, hthreads, hannounced⟩ := ih { db with
      actions := db.actions.updateWhere (fun a => a.id == entry.1 && a.enactedEpoch.isNone)
        (fun a => { a with enactedEpoch := some entry.2 }) fun _ _ => rfl }
    exact ⟨hlinks.trans (links_updateWhere db _ fun _ _ => rfl), hthreads, hannounced⟩

theorem linkDraft_opensNone (db : GovDb) (actionId draftTopicId : String) :
    (linkDraft db actionId draftTopicId).links = db.links ∧
      (linkDraft db actionId draftTopicId).threads = db.threads ∧
        (linkDraft db actionId draftTopicId).announced = db.announced := by
  refine ⟨links_updateWhere db _ fun _ _ => rfl, ?_, rfl⟩
  exact Table.map_updateWhere (fun t : ForumTopic => (t.id, t.source)) fun _ _ => rfl

/-! ### Opening a thread -/

/-- A thread is opened for an action that has none. -/
structure OpensOne (db db' : GovDb) (id topicId : String) : Prop where
  fresh : topicId ∉ db.threads.map (·.1)
  linked : ∀ i t, (i, some t) ∈ db'.links ↔ (i, some t) ∈ db.links ∨ i = id ∧ t = topicId
  stored : ∀ i, db'.Stores i ↔ db.Stores i ∨ i = id
  threads : db'.threads = db.threads ++ [(topicId, .governance)]
  announced : db'.announced = db.announced ++ [topicId]

theorem runLink_insert (topicId : String) (hnew : ¬db.Stores row.id) :
    (insertGovernanceAction db { row with topicId := some topicId }).links =
      db.links ++ [(row.id, some topicId)] := by
  have hrows := db.actions.rows_insertOrIgnore { row with topicId := some topicId } hnew
  rw [insertGovernanceAction, GovDb.links, hrows, List.map_append]
  rfl

theorem mem_links_attach {topicId : String} (hstored : db.Stores id)
    (hnone : ∀ t, (id, some t) ∉ db.links) (i t : String) :
    (i, some t) ∈ (attachActionTopic db id topicId).links ↔
      (i, some t) ∈ db.links ∨ i = id ∧ t = topicId := by
  obtain ⟨row, hrow, hid⟩ := List.mem_map.mp hstored
  have htopic : row.topicId = none := by
    rcases htopic : row.topicId with _ | t
    · rfl
    · exact absurd (List.mem_map.mpr ⟨row, hrow, Prod.ext hid htopic⟩) (hnone t)
  constructor
  · intro h
    obtain ⟨a, ha, heq⟩ := List.mem_map.mp h
    rcases Table.mem_updateWhere.mp ha with ⟨ha, -⟩ | ⟨a₀, ha₀, hwhere, rfl⟩
    · exact .inl (List.mem_map.mpr ⟨a, ha, heq⟩)
    · cases heq
      rw [Bool.and_eq_true, beq_iff_eq] at hwhere
      exact .inr ⟨hwhere.1, rfl⟩
  · rintro (h | ⟨rfl, rfl⟩)
    · obtain ⟨a, ha, heq⟩ := List.mem_map.mp h
      refine List.mem_map.mpr ⟨a, Table.mem_updateWhere.mpr (.inl ⟨ha, ?_⟩), heq⟩
      rw [(Prod.mk.inj heq).2, Option.isNone_some, Bool.and_false]
    · refine List.mem_map.mpr ⟨{ row with topicId := some t }, ?_, Prod.ext hid rfl⟩
      refine Table.mem_updateWhere.mpr (.inr ⟨row, hrow, ?_, rfl⟩)
      rw [hid, htopic, beq_self_eq_true, Option.isNone_none, Bool.and_self]

/-- The action of a thread that is opened in time: a new one is not stored yet, one that has waited
is, without a thread. -/
def ThreadOpening.InTime (db : GovDb) (a : ThreadOpening) : Prop :=
  match a.link with
  | .insert row => row.id = a.actionId ∧ ¬db.Stores a.actionId
  | .attach => db.Stores a.actionId ∧ ∀ t, (a.actionId, some t) ∉ db.links

variable {a : ThreadOpening}

theorem runLink_spec (h : a.InTime db) (topicId : String) :
    (∀ i t, (i, some t) ∈ (a.runLink topicId db).links ↔
      (i, some t) ∈ db.links ∨ i = a.actionId ∧ t = topicId) ∧
    (∀ i, (a.runLink topicId db).Stores i ↔ db.Stores i ∨ i = a.actionId) ∧
    (a.runLink topicId db).threads = db.threads ∧
    (a.runLink topicId db).announced = db.announced := by
  rw [ThreadOpening.InTime] at h
  rcases hlink : a.link with row | _
  · rw [hlink] at h
    obtain ⟨hid, hnew⟩ := h
    have hlinks := runLink_insert topicId (hid ▸ hnew)
    rw [ThreadOpening.runLink, hlink]
    refine ⟨fun i t => ?_, fun i => ?_, rfl, rfl⟩
    · rw [hlinks, List.mem_append, List.mem_singleton, Prod.mk.injEq, Option.some.injEq, hid]
    · rw [GovDb.stores_iff, GovDb.stores_iff, hlinks, List.map_append, List.mem_append,
        List.map_singleton, List.mem_singleton, hid]
  · rw [hlink] at h
    obtain ⟨hstored, hnone⟩ := h
    rw [ThreadOpening.runLink, hlink]
    refine ⟨mem_links_attach hstored hnone, fun i => ?_, rfl, rfl⟩
    have hids : (attachActionTopic db a.actionId topicId).Stores i ↔ db.Stores i := by
      rw [GovDb.Stores, GovDb.Stores, attachActionTopic]
      exact Eq.to_iff (congrArg (i ∈ ·) (Table.map_updateWhere _ fun _ _ => rfl))
    rw [hids, or_iff_left_of_imp]
    rintro rfl
    exact hstored

variable {cfg : GovNetwork} {db' : GovDb}

theorem openGovActionTopic_opensOne {ids : ThreadIds} {now : ℤ} (hintime : a.InTime db)
    (h : openGovActionTopic cfg db a draftTopicId ids now = some db') :
    OpensOne db db' a.actionId ids.topicId := by
  rw [openGovActionTopic] at h
  obtain ⟨forum, hcreate, rfl⟩ := Option.map_eq_some_iff.mp h
  obtain ⟨htopics, hfresh⟩ := createTopic_topics hcreate
  have hintime' : a.InTime { db with forum := forum } := hintime
  obtain ⟨hlinks, hstored, hthreads, hannounced⟩ :=
    runLink_spec hintime' ids.topicId
  have hforum : GovDb.threads { db with forum := forum } =
      db.threads ++ [(ids.topicId, .governance)] := by
    rw [GovDb.threads, htopics, List.map_append]
    rfl
  -- the batch up to the statements that link a draft
  generalize ha : a.runLink ids.topicId { db with forum := forum } = linked at *
  have hbatch : OpensOne db { linked with
      govCreated := linked.govCreated ++ [⟨ids.topicId, a.type, a.title, a.postedAt⟩] }
        a.actionId ids.topicId := by
    refine ⟨?_, hlinks, hstored, hthreads.trans hforum, ?_⟩
    · rw [GovDb.threads, List.map_map]
      exact hfresh
    · rw [GovDb.announced, List.map_append]
      exact congrArg (· ++ [ids.topicId]) hannounced
  rcases draftTopicId with _ | draftTopicId
  · exact hbatch
  · obtain ⟨hlinks', hthreads', hannounced'⟩ := linkDraft_opensNone _ a.actionId draftTopicId
    refine ⟨hbatch.fresh, fun i t => ?_, fun i => ?_, hthreads'.trans hbatch.threads,
      hannounced'.trans hbatch.announced⟩
    · rw [← hbatch.linked, ← hlinks']
      rfl
    · rw [← hbatch.stored, GovDb.stores_iff, GovDb.stores_iff, ← hlinks']
      rfl

/-! ### What a step keeps -/

theorem GovThreads.opensNone (h : GovThreads db) (hstep : OpensNone db db') :
    GovThreads db' := by
  obtain ⟨hlinks, hthreads, hannounced⟩ := hstep
  have hlinked : ∀ id t, (id, some t) ∈ db'.links ↔ (id, some t) ∈ db.links := by
    intro id t
    rcases hlinks with heq | ⟨id', heq⟩
    · rw [heq]
    · rw [heq, List.mem_append, List.mem_singleton, Prod.mk.injEq]
      simp
  refine ⟨fun t ht => ?_, fun id t hid => ?_, fun id id' t hid hid' => ?_, fun id t hid => ?_,
    fun t ht => ?_⟩
  · obtain ⟨id, hid⟩ := h.noOrphan t (hthreads ▸ ht)
    exact ⟨id, (hlinked id t).mpr hid⟩
  · exact hthreads ▸ h.isThread id t ((hlinked id t).mp hid)
  · exact h.ofOne id id' t ((hlinked id t).mp hid) ((hlinked id' t).mp hid')
  · exact hannounced ▸ h.announcedOnce id t ((hlinked id t).mp hid)
  · exact hthreads ▸ h.announcesThread t (hannounced ▸ ht)

theorem OpensNone.stores (hstep : OpensNone db db') (h : db.Stores id) : db'.Stores id := by
  rw [GovDb.stores_iff] at h ⊢
  rcases hstep.links with heq | ⟨id', heq⟩
  · exact heq ▸ h
  · rw [heq, List.map_append]
    exact List.mem_append_left _ h

theorem GovThreads.opensOne {topicId : String} (h : GovThreads db)
    (hstep : OpensOne db db' id topicId) : GovThreads db' := by
  obtain ⟨hfresh, hlinked, -, hthreads, hannounced⟩ := hstep
  -- a linked thread is not the new one
  have hold : ∀ i t, (i, some t) ∈ db.links → t ≠ topicId := by
    rintro i t hi rfl
    exact hfresh (List.mem_map.mpr ⟨_, h.isThread i t hi, rfl⟩)
  refine ⟨fun t ht => ?_, fun i t hi => ?_, fun i i' t hi hi' => ?_, fun i t hi => ?_,
    fun t ht => ?_⟩
  · rw [hthreads, List.mem_append, List.mem_singleton] at ht
    rcases ht with ht | ht
    · obtain ⟨i, hi⟩ := h.noOrphan t ht
      exact ⟨i, (hlinked i t).mpr (.inl hi)⟩
    · exact ⟨id, (hlinked id t).mpr (.inr ⟨rfl, congrArg Prod.fst ht⟩)⟩
  · rw [hthreads, List.mem_append, List.mem_singleton]
    rcases (hlinked i t).mp hi with hi | ⟨-, rfl⟩
    · exact .inl (h.isThread i t hi)
    · exact .inr rfl
  · rcases (hlinked i t).mp hi with hi | ⟨rfl, rfl⟩ <;>
      rcases (hlinked i' t).mp hi' with hi' | ⟨rfl, heq⟩
    · exact h.ofOne i i' t hi hi'
    · exact absurd heq (hold i t hi)
    · exact absurd rfl (hold i' t hi')
    · rfl
  · rw [hannounced, List.count_append]
    rcases (hlinked i t).mp hi with hi | ⟨-, rfl⟩
    · rw [h.announcedOnce i t hi, List.count_singleton, if_neg (by simpa using (hold i t hi).symm)]
    · have hnone : t ∉ db.announced := fun ht => hfresh (h.announcesThread t ht)
      rw [List.count_eq_zero_of_not_mem hnone, List.count_singleton_self]
  · rw [hannounced, List.mem_append, List.mem_singleton] at ht
    rw [hthreads, List.map_append, List.mem_append]
    rcases ht with ht | rfl
    · exact .inl (h.announcesThread t ht)
    · exact .inr (List.mem_singleton.mpr rfl)

theorem GovThreads.env (h : GovThreads db) (henv : GovEnv db db') :
    GovThreads db' := by
  obtain ⟨hlinks, hthreads, hkept, hannounced⟩ := henv
  refine ⟨fun t ht => ?_, fun id t hid => ?_, ?_, ?_, fun t ht => ?_⟩
  · exact hlinks ▸ h.noOrphan t ((hthreads t).mp ht)
  · exact (hthreads t).mpr (h.isThread id t (hlinks ▸ hid))
  · exact hlinks ▸ h.ofOne
  · exact hlinks ▸ hannounced ▸ h.announcedOnce
  · exact hkept t (h.announcesThread t (hannounced ▸ ht))

/-! ### What a run relies on -/

/-- The actions that a run has been through are stored, unless it has counted a failure. -/
structure SyncRun.Sees (db : GovDb) (run : SyncRun) (pending : List ProposalListRow) : Prop where
  known : ∀ id ∈ run.known, db.Stores id
  stored : run.failed = 0 → ∀ p ∈ run.proposals, p ∈ pending ∨ db.Stores p.id

/-- What a run relies on, between two steps. -/
def GovProc.Asserts (db : GovDb) : GovProc → Prop
  | .syncing run => run.Sees db run.rest
  | .fetched run p _ | .opening run p _ _ => run.Sees db (p :: run.rest)
  | .synced run => run.Sees db []
  | .holding run => ∀ ga ∈ run.rest, db.Stores ga.id
  | .reread run ga _ | .drafting run ga _ _ _ | .attaching run ga _ _ _ =>
    ∀ ga' ∈ ga :: run.rest, db.Stores ga'.id
  | .listed _ _ | .waiting _ _ | .held _ | .threw => True

variable {run : SyncRun}

theorem SyncRun.Sees.mono {pending : List ProposalListRow} (h : run.Sees db pending)
    (hstores : ∀ id, db.Stores id → db'.Stores id) :
    run.Sees db' pending :=
  ⟨fun id hid => hstores id (h.known id hid),
    fun hfailed p hp => (h.stored hfailed p hp).imp_right (hstores p.id)⟩

theorem GovProc.Asserts.mono {l : GovProc} (h : l.Asserts db)
    (hstores : ∀ id, db.Stores id → db'.Stores id) : l.Asserts db' := by
  rcases l with _ | run | ⟨run, p, _⟩ | ⟨run, p, _, _⟩ | run | _ | run | ⟨run, ga, _⟩ |
    ⟨run, ga, _, _, _⟩ | ⟨run, ga, _, _, _⟩ | _ | _
  case syncing | fetched | opening | synced => exact SyncRun.Sees.mono h hstores
  case holding | reread | drafting | attaching => exact fun ga hga => hstores _ (h ga hga)
  all_goals trivial

theorem SyncRun.Sees.handled {p : ProposalListRow} {rest : List ProposalListRow}
    (h : run.Sees db (p :: rest)) (hp : db.Stores p.id) :
    run.failed = 0 → ∀ q ∈ run.proposals, q ∈ rest ∨ db.Stores q.id := by
  intro hfailed q hq
  rcases h.stored hfailed q hq with hmem | hstored
  · rcases List.mem_cons.mp hmem with rfl | hmem
    · exact .inr hp
    · exact .inl hmem
  · exact .inr hstored

def ThreadEffect (db db' : GovDb) : Prop :=
  OpensNone db db' ∨ ∃ id topicId, OpensOne db db' id topicId

theorem ThreadEffect.stores (h : ThreadEffect db db') (id : String) (hstored : db.Stores id) :
    db'.Stores id := by
  rcases h with h | ⟨_, _, h⟩
  · exact h.stores hstored
  · exact (h.stored id).mpr (.inl hstored)

theorem GovThreads.effect (h : GovThreads db) (hstep : ThreadEffect db db') :
    GovThreads db' := by
  rcases hstep with hstep | ⟨_, _, hstep⟩
  · exact h.opensNone hstep
  · exact h.opensOne hstep

variable {l' : GovProc}

theorem openStep_effect {now : ℤ} {opened failed : GovProc} {ids : ThreadIds}
    (hintime : a.InTime db) (h : openStep cfg db a draftTopicId now opened failed ids = (db', l')) :
    (OpensOne db db' a.actionId ids.topicId ∧ l' = opened) ∨ (db' = db ∧ l' = failed) := by
  rw [openStep] at h
  rcases hopen : openGovActionTopic cfg db a draftTopicId ids now with _ | db₁
  · rw [hopen] at h
    cases h
    exact .inr ⟨rfl, rfl⟩
  · rw [hopen] at h
    cases h
    exact .inl ⟨openGovActionTopic_opensOne hintime hopen, rfl⟩

theorem syncing_effect {input : GovInput} (hl : run.Sees db run.rest)
    (h : govStep cfg input db (.syncing run) = some (db', l')) :
    ThreadEffect db db' ∧ l'.Asserts db' := by
  unfold govStep at h
  rcases hrest : run.rest with _ | ⟨p, rest⟩
  · simp only [hrest] at h hl
    rcases input with _ | _ | _ | _ <;> cases h
    · have heffect := opensNone_backfillEnacted db run.enactedBackfill
      exact ⟨.inl heffect, hl.mono fun id => heffect.stores⟩
    · exact ⟨.inl (.refl db), trivial⟩
  · simp only [hrest] at h hl
    by_cases hknown : run.known.contains p.id = true
    · rw [if_pos hknown] at h
      cases h
      exact ⟨.inl (.refl db), hl.known, hl.handled (hl.known p.id (List.contains_iff_mem.mp hknown))⟩
    · rw [if_neg hknown] at h
      rcases input with _ | _ | _ | _ <;> cases h
      · exact ⟨.inl (.refl db), hl.known, hl.stored⟩
      · exact ⟨.inl (.refl db), hl.known, nofun⟩

theorem govStep_effect {input : GovInput} {l : GovProc} (hl : l.Asserts db)
    (hfirst : l.OpensFirst db) (h : govStep cfg input db l = some (db', l')) :
    ThreadEffect db db' ∧ l'.Asserts db' := by
  have hrefl : ThreadEffect db db := .inl (.refl db)
  rcases l with ⟨now, proposals⟩ | run | ⟨run, p, anchor⟩ | ⟨run, p, anchor, draftTopicId⟩ | run |
    ⟨now, limit⟩ | run | ⟨run, ga, anchor⟩ | ⟨run, ga, title, abstract, references⟩ |
    ⟨run, ga, title, abstract, draftTopicId⟩ | run | _
  case syncing => exact syncing_effect hl h
  all_goals unfold govStep at h
  case listed =>
    rcases input with _ | _ | _ | _ <;> cases h
    · exact ⟨hrefl, fun id hid => hid, fun _ p hp => .inl hp⟩
    · exact ⟨hrefl, trivial⟩
  case fetched =>
    rcases input with _ | _ | _ | _
    · dsimp only at h
      split_ifs at h
      · cases h
        have heffect : OpensNone db (insertGovernanceAction db (p.newRow anchor run.now)) :=
          opensNone_insert db rfl
        have hsees := SyncRun.Sees.mono hl fun id => heffect.stores
        exact ⟨.inl heffect, hsees.known, hsees.handled (stores_insert db (p.newRow anchor run.now))⟩
      · cases h
        exact ⟨hrefl, hl⟩
    · cases h
    · cases h
    · cases h
      exact ⟨hrefl, hl.known, nofun⟩
  case opening =>
    rcases input with _ | _ | ids | _
    · cases h
    · cases h
    · have hintime : (p.opening cfg anchor run.now).InTime db := ⟨rfl, hfirst⟩
      rcases openStep_effect hintime (Option.some.inj h) with ⟨hopen, rfl⟩ | ⟨rfl, rfl⟩
      · have heffect : ThreadEffect db db' := .inr ⟨_, _, hopen⟩
        have hsees := SyncRun.Sees.mono hl heffect.stores
        exact ⟨heffect, hsees.known, hsees.handled ((hopen.stored p.id).mpr (.inr rfl))⟩
      · exact ⟨hrefl, hl.known, nofun⟩
    · cases h
      exact ⟨hrefl, hl.known, nofun⟩
  case synced => cases h
  case waiting =>
    rcases input with _ | _ | _ | _ <;> cases h
    · refine ⟨hrefl, fun ga hga => ?_⟩
      exact List.mem_map_of_mem (List.mem_filter.mp (List.mem_of_mem_take hga)).1
    · exact ⟨hrefl, trivial⟩
  case holding =>
    rcases hrest : run.rest with _ | ⟨ga, rest⟩
    · simp only [hrest] at h
      cases h
      exact ⟨hrefl, trivial⟩
    · have hga : ∀ ga' ∈ ga :: rest, db.Stores ga'.id := hrest ▸ hl
      have htail : ∀ ga' ∈ rest, db.Stores ga'.id := fun ga' hmem =>
        hga ga' (List.mem_cons_of_mem _ hmem)
      simp only [hrest] at h
      split_ifs at h
      · rcases input with _ | _ | _ | _ <;> cases h
        · exact ⟨hrefl, hga⟩
        · exact ⟨hrefl, htail⟩
      · cases h
        exact ⟨hrefl, hga⟩
  case reread =>
    have htail : ∀ ga' ∈ run.rest, db.Stores ga'.id := fun ga' hmem =>
      hl ga' (List.mem_cons_of_mem _ hmem)
    rcases input with _ | _ | _ | _
    · rcases anchor with m | status <;> cases h
      · have heffect : OpensNone db (updateActionMetadata db ga.id m) :=
          ⟨.inl (links_updateWhere db _ fun _ _ => rfl), rfl, rfl⟩
        exact ⟨.inl heffect, fun ga' hmem => heffect.stores (hl ga' hmem)⟩
      · have heffect : OpensNone db (incrementActionMetaAttempts db ga.id) :=
          ⟨.inl (links_updateWhere db _ fun _ _ => rfl), rfl, rfl⟩
        refine ⟨.inl heffect, ?_⟩
        split_ifs
        · exact fun ga' hmem => heffect.stores (htail ga' hmem)
        · exact fun ga' hmem => heffect.stores (hl ga' hmem)
    · cases h
    · cases h
    · cases h
      exact ⟨hrefl, htail⟩
  case drafting =>
    rcases input with _ | _ | _ | _ <;> cases h
    · exact ⟨hrefl, hl⟩
    · exact ⟨hrefl, fun ga' hga' => hl ga' (List.mem_cons_of_mem _ hga')⟩
  case attaching =>
    have htail : ∀ ga' ∈ run.rest, db.Stores ga'.id := fun ga' hmem =>
      hl ga' (List.mem_cons_of_mem _ hmem)
    rcases input with _ | _ | ids | _
    · cases h
    · cases h
    · have hnone : ∀ t, (ga.id, some t) ∉ db.links := by
        intro t ht
        obtain ⟨a, ha, heq⟩ := List.mem_map.mp ht
        obtain ⟨hid, htopic⟩ := Prod.mk.inj heq
        exact absurd (htopic.symm.trans (hfirst a ha hid)) (Option.some_ne_none t)
      have hintime : (ga.opening cfg title abstract run.now).InTime db :=
        ⟨hl ga List.mem_cons_self, hnone⟩
      rcases openStep_effect hintime (Option.some.inj h) with ⟨hopen, rfl⟩ | ⟨rfl, rfl⟩
      · have heffect : ThreadEffect db db' := .inr ⟨_, _, hopen⟩
        exact ⟨heffect, fun ga' hmem => heffect.stores _ (htail ga' hmem)⟩
      · exact ⟨hrefl, htail⟩
    · cases h
      exact ⟨hrefl, htail⟩
  case held => cases h
  case threw => cases h

/-! ### Runs -/

def govSound (cfg : GovNetwork) : (govProgram cfg).SoundWhen opensFirst GovThreads where
  inv := GovThreads
  asserts db l := l.Asserts db
  apart _ _ := True
  symm _ _ _ := trivial
  init _ h := h
  start _ _ _ _ hstart := by
    cases hstart <;> exact ⟨trivial, fun _ _ => trivial⟩
  step := by
    rintro db l db' l' - hfirst hinv hl ⟨input, h⟩
    obtain ⟨heffect, hl'⟩ := govStep_effect hl hfirst h
    exact ⟨hinv.effect heffect, hl'⟩
  noninterference := by
    rintro db l db' l' m - hfirst - - hl hm - ⟨input, h⟩
    exact ⟨hm.mono (govStep_effect hl hfirst h).1.stores, trivial⟩
  env := by
    rintro db db' - hinv henv
    refine ⟨hinv.env henv, fun m hm => hm.mono fun id hid => ?_⟩
    rw [GovDb.stores_iff] at hid ⊢
    exact henv.links ▸ hid

/-- In every run in which each thread is opened while its action has none, actions and threads
correspond, each thread is announced once, and no listed action is missing. -/
theorem govThreadsRight {cfg : GovNetwork} {ι : Type*} [DecidableEq ι]
    {s : Interleaved GovDb GovProc ι}
    (h : (((govProgram cfg).system ι GovThreads).restrict opensFirst.Met).Reachable s) :
    GovThreadsRight s := by
  obtain ⟨hinv, hasserts, -⟩ := (govSound cfg).holds h
  have hlink : ∀ a ∈ s.shared.actions.rows, ∀ t, a.topicId = some t →
      (a.id, some t) ∈ s.shared.links := fun a ha t htopic =>
    List.mem_map.mpr ⟨a, ha, Prod.ext rfl htopic⟩
  refine ⟨fun t ht hsource => ?_, fun a ha a' ha' t htopic htopic' => ?_, fun a ha t htopic => ?_,
    fun i run hi hfailed p hp => ?_⟩
  · obtain ⟨id, hid⟩ := hinv.noOrphan t.id (List.mem_map.mpr ⟨t, ht, Prod.ext rfl hsource⟩)
    obtain ⟨a, ha, heq⟩ := List.mem_map.mp hid
    exact ⟨a, ha, (Prod.mk.inj heq).2⟩
  · exact s.shared.actions.eq_of_key ha ha'
      (hinv.ofOne _ _ t (hlink a ha t htopic) (hlink a' ha' t htopic'))
  · exact hinv.announcedOnce a.id t (hlink a ha t htopic)
  · have hsees : run.Sees s.shared [] := hasserts i _ hi
    exact (hsees.stored hfailed p hp).resolve_left List.not_mem_nil

/-! ### Two runs that overlap -/

def plainNetwork : GovNetwork where
  fallbackActionTitle type id := type ++ " " ++ id
  composeFirstPostMd _ abstract := abstract.getD ""
  renderMarkdown md := md
  slugify title rand := title ++ "-" ++ rand
  draftSlugsFromReferences _ := []
  epochStartMs epoch := epoch * 432000000

def plainProposal (txHash : String) : ProposalListRow :=
  ⟨txHash, 0, "gov_action1", "InfoAction", some "https://a", some "hash", none, none, none, none,
    none, none, none⟩

def plainAnchor (title : String) : AnchorResult := .read ⟨some title, none, none, none, none⟩

theorem gov_reachable_init {c : Program.Condition GovDb GovProc} :
    (((govProgram plainNetwork).system ℕ GovThreads).restrict c.Met).Reachable
      ⟨⟨⟨.empty, .empty, []⟩, .empty, []⟩, fun _ => none⟩ :=
  .init ⟨⟨nofun, nofun, nofun, nofun, nofun⟩, fun _ => rfl⟩

/-- The steps that meet the condition. -/
def govStepFirst (cfg : GovNetwork) (input : GovInput) (db : GovDb) (l : GovProc) :
    Option (GovDb × GovProc) :=
  if l.OpensFirst db then govStep cfg input db l else none

theorem govStepFirst_eq_some (cfg : GovNetwork) (input : GovInput) (db : GovDb) (l : GovProc)
    (db' : GovDb) (l' : GovProc) (h : govStepFirst cfg input db l = some (db', l')) :
    (govProgram cfg).Step db l db' l' ∧ True ∧ l.OpensFirst db := by
  rw [govStepFirst] at h
  split_ifs at h with hfirst
  exact ⟨⟨input, h⟩, trivial, hfirst⟩

/-- One action gets its thread at once, and one when its document can be read. -/
theorem govThreadsRight_deferred :
    ∃ s : Interleaved GovDb GovProc ℕ,
      (((govProgram plainNetwork).system ℕ GovThreads).restrict opensFirst.Met).Reachable s ∧
        s.shared.links = [("a#0", some "t1"), ("b#0", some "t2")] ∧
        s.shared.threads = [("t1", .governance), ("t2", .governance)] ∧ GovThreadsRight s := by
  have h₁ := Program.reachable_start gov_reachable_init (i := 0) (c := opensFirst) trivial rfl
    (GovStart.listed _ 10 [plainProposal "a", plainProposal "b"])
  have h₂ := Program.reachable_start h₁ (i := 1) trivial rfl (GovStart.waiting _ 20 10)
  have h₃ := Program.reachable_runWhen (fun _ _ _ _ _ _ => trivial)
    (govStepFirst_eq_some plainNetwork) h₂
    [(0, .db), (0, .anchor (plainAnchor "A")), (0, .db), (0, .ids ⟨"t1", "p1", "x"⟩),
      (0, .anchor (.unread .fetch_failed)), (0, .db), (1, .db), (0, .db),
      (1, .anchor (plainAnchor "B")), (1, .db), (1, .db), (1, .ids ⟨"t2", "p2", "y"⟩), (1, .db)]
    (by decide +kernel)
  exact ⟨_, h₃, by decide +kernel, by decide +kernel, govThreadsRight h₃⟩

/-- Two runs read that the action is not known, and both open its thread: the second thread has no
action. -/
theorem not_govThreadsRight :
    ∃ s : Interleaved GovDb GovProc ℕ,
      ((govProgram plainNetwork).system ℕ GovThreads).Reachable s ∧
        s.shared.links = [("a#0", some "t1")] ∧
        s.shared.threads = [("t1", .governance), ("t2", .governance)] ∧
        s.shared.announced = ["t1", "t2"] ∧ ¬GovThreadsRight s := by
  have h₀ := (gov_reachable_init (c := Program.Condition.none)).of_restrict
  have h₁ := h₀.step (.start (i := 0) rfl (GovStart.listed _ 10 [plainProposal "a"]))
  have h₂ := h₁.step (.start (i := 1) rfl (GovStart.listed _ 11 [plainProposal "a"]))
  have h₃ := Program.reachable_run (P := govProgram _) (fun k _ _ _ _ h => ⟨k, h⟩) h₂
    [(0, .db), (1, .db), (0, .anchor (plainAnchor "A")), (1, .anchor (plainAnchor "A")), (0, .db),
      (1, .db), (0, .ids ⟨"t1", "p1", "x"⟩), (1, .ids ⟨"t2", "p2", "y"⟩)] (by decide +kernel)
  refine ⟨_, h₃, by decide +kernel, by decide +kernel, by decide +kernel, fun hright => ?_⟩
  have horphan := hright.noOrphan
  revert horphan
  decide +kernel

end DrepTalk
