import DrepTalk.Surveys.SurveySync

/-!
# The threads of surveys

Any number of runs of the sync, interleaved statement by statement, with actions that are imported
and other threads that are opened in between.

**One thread for each survey** (`survey_threads_right`). The thread is opened in one batch with the
claim on the row, under the claim's own predicate; and what withdraws a survey decides row by row
whether there is a thread to keep.
-/

namespace DrepTalk

/-! ### What a step does to the tables -/

inductive SurveyEffect (db : SurveyDb) : SurveyDb → Prop
  | same : SurveyEffect db db
  | op (now : ℤ) (op : SurveyOp) : SurveyEffect db (op.apply now db)
  | state (state : SurveySyncState) : SurveyEffect db { db with state := state }
  | publish {ref : String} {args : CreateTopicArgs} {db' : SurveyDb}
      (hsource : args.source = .survey) (h : createSurveyTopic db ref args = some (db', true)) :
      SurveyEffect db db'
  | count (ref artifactHash : String) (dreps : ℕ) (now : ℤ) :
      SurveyEffect db (setSurveyFinalCount db ref artifactHash dreps now).1
  | tally (t : SurveyTallyRow) (expected : Option String) :
      SurveyEffect db (upsertSurveyTally db t expected).1
  | mark (ref : String) (now : ℤ) : SurveyEffect db (markSurveyTallyAttempt db ref now)
  | dequeue (ref : String) (now : ℤ) : SurveyEffect db (dequeueSurveyTally db ref now)

section Effect

variable {cfg : SurveyTexts} {input : SurveyInput} {db db' : SurveyDb} {p' : SurveyProc}

theorem SurveyEffect.of_some {p : SurveyProc} (h : some (db, p) = some (db', p')) :
    SurveyEffect db db' := (Prod.mk.inj (Option.some.inj h)).1 ▸ .same

theorem SurveyEffect.of_none (h : none = some (db', p')) : SurveyEffect db db' :=
  absurd h (by simp)

theorem mirrorStep_effect {pass : MirrorPass} {proc : MirrorProc}
    (h : mirrorStep cfg input db pass proc = some (db', p')) : SurveyEffect db db' := by
  cases mirrorStep_move h with
  | op => exact .op _ _
  | put => exact .state _
  | _ => exact .same

variable {p : PublishableSurvey} {topicId postId rand : String} {run : SurveyRun}

theorem publishSurvey_false {now : ℤ}
    (h : publishSurvey cfg db p now topicId postId rand = some (db', false)) : db' = db := by
  rw [publishSurvey, createSurveyTopic] at h
  split_ifs at h
  · obtain ⟨_, -, hpair⟩ := Option.map_eq_some_iff.mp h
    exact absurd (Prod.mk.inj hpair).2 (by simp)
  · exact (Prod.mk.inj (Option.some.inj h)).1.symm

theorem publishSurvey_effect {now : ℤ} {opened : Bool}
    (h : publishSurvey cfg db p now topicId postId rand = some (db', opened)) :
    SurveyEffect db db' := by
  cases opened with
  | false => exact publishSurvey_false h ▸ .same
  | true =>
    rw [publishSurvey] at h
    split_ifs at h
    exact .publish rfl h

theorem publishStep_effect {proc : PublishProc}
    (h : publishStep cfg input db run proc = some (db', p')) : SurveyEffect db db' := by
  rcases proc with _ | (_ | ⟨p, rest⟩) <;> simp only [publishStep] at h
  · split at h
    · exact .of_some h
    · exact .of_some h
    · exact .of_none h
  · split at h
    · exact .of_some h
    · exact .of_none h
  · split at h
    · split at h
      · rename_i hpublish
        exact (Prod.mk.inj (Option.some.inj h)).1 ▸ publishSurvey_effect hpublish
      · exact .of_some h
    · exact .of_some h
    · exact .of_none h

theorem countStep_effect {proc : CountProc} (h : countStep input db run proc = some (db', p')) :
    SurveyEffect db db' := by
  cases proc with
  | writing ref artifactHash dreps rest =>
    simp only [countStep] at h
    split at h
    · exact (Prod.mk.inj (Option.some.inj h)).1 ▸ .count _ _ _ _
    · exact .of_some h
    · exact .of_none h
  | listing =>
    simp only [countStep] at h
    split at h
    · exact .of_some h
    · exact .of_some h
    · exact .of_none h
  | asking rest =>
    rcases rest with _ | ⟨⟨ref, artifactHash⟩, rest⟩ <;> simp only [countStep] at h <;> split at h
    all_goals first
      | exact .of_some h
      | exact .of_none h

theorem tallyStep_effect {proc : TallyProc} (h : tallyStep cfg input db run proc = some (db', p')) :
    SurveyEffect db db' := by
  cases surveyTallyStep_move h with
  | enqueue refs => exact .op run.now (.enqueue refs)
  | mark => exact .mark _ _
  | write => exact .tally _ _
  | dequeue => exact .dequeue _ _
  | _ => exact .same

theorem surveyStep_effect {p : SurveyProc} (h : surveyStep cfg input db p = some (db', p')) :
    SurveyEffect db db' := by
  rw [surveyStep.eq_def] at h
  split at h
  · exact .of_none h
  · exact .of_some h
  · exact .of_some h
  · exact .of_some h
  · exact .of_none h
  · exact mirrorStep_effect h
  · exact publishStep_effect h
  · exact countStep_effect h
  · exact tallyStep_effect h

end Effect

/-! ### Threads and links -/

def SurveyDb.Opened (db : SurveyDb) (ref topicId : String) : Prop :=
  ∃ s ∈ db.surveys.rows, s.ref = ref ∧ s.topicId = some topicId

def SurveyDb.Holds (db : SurveyDb) (ref : String) : Prop := ∃ s ∈ db.surveys.rows, s.ref = ref

/-- What holds of the tables: threads of surveys and surveys go together one to one, and a link
belongs to a stored survey. -/
structure SurveyThreads (db : SurveyDb) : Prop where
  ofOne : ∀ ref ref' id, db.Opened ref id → db.Opened ref' id → ref = ref'
  threads : ∀ id, (∃ t ∈ db.forum.topics.rows, t.id = id ∧ t.source = .survey) ↔
    ∃ ref, db.Opened ref id
  linked : ∀ l ∈ db.links.rows, db.Holds l.surveyRef

/-- No thread is opened or given up, and links stay linked. -/
structure ThreadsKept (db db' : SurveyDb) : Prop where
  forum : db'.forum = db.forum
  opened : ∀ ref id, db'.Opened ref id ↔ db.Opened ref id
  linked : ∀ l ∈ db'.links.rows, (l ∈ db.links.rows → db.Holds l.surveyRef) → db'.Holds l.surveyRef

section Kept

variable {db db' db'' : SurveyDb} {ref id : String}

theorem ThreadsKept.trans (h : ThreadsKept db db') (h' : ThreadsKept db' db'') :
    ThreadsKept db db'' where
  forum := h'.forum.trans h.forum
  opened ref id := (h'.opened ref id).trans (h.opened ref id)
  linked l hl hold := h'.linked l hl fun hl' => h.linked l hl' hold

theorem ThreadsKept.of_same (hforum : db'.forum = db.forum) (hsurveys : db'.surveys = db.surveys)
    (hlinks : db'.links = db.links) : ThreadsKept db db' where
  forum := hforum
  opened ref id := by rw [SurveyDb.Opened, hsurveys, SurveyDb.Opened]
  linked l hl hold := by
    rw [SurveyDb.Holds, hsurveys]
    exact hold (hlinks ▸ hl)

theorem ThreadsKept.of_update {p : SurveyRow → Bool} {f : SurveyRow → SurveyRow}
    (hforum : db'.forum = db.forum)
    (hsurveys : db'.surveys.rows = Table.updateWhere p f db.surveys.rows)
    (hlinks : db'.links = db.links) (href : ∀ s, (f s).ref = s.ref)
    (htopic : ∀ s, (f s).topicId = s.topicId) : ThreadsKept db db' where
  forum := hforum
  opened ref id := by
    rw [SurveyDb.Opened, hsurveys]
    constructor
    · rintro ⟨s, hs, hsref, hstopic⟩
      rcases Table.mem_updateWhere.mp hs with ⟨hs, -⟩ | ⟨s₀, hs₀, -, rfl⟩
      · exact ⟨s, hs, hsref, hstopic⟩
      · exact ⟨s₀, hs₀, (href s₀).symm.trans hsref, (htopic s₀).symm.trans hstopic⟩
    · rintro ⟨s, hs, hsref, hstopic⟩
      exact Table.exists_mem_updateWhere hs
        (fun _ => ⟨(href s).trans hsref, (htopic s).trans hstopic⟩) fun _ => ⟨hsref, hstopic⟩
  linked l hl hold := by
    obtain ⟨s, hs, hsref⟩ := hold (hlinks ▸ hl)
    rw [SurveyDb.Holds, hsurveys]
    exact Table.exists_mem_updateWhere hs (fun _ => (href s).trans hsref) fun _ => hsref

theorem mem_insertGovLinks {links : SurveyLinkTable} {added : List (String × Option String)}
    {l : SurveyGovLink} (h : l ∈ (added.foldl (insertGovLink ref) links).rows) :
    l ∈ links.rows ∨ l.surveyRef = ref := by
  induction added generalizing links with
  | nil => exact .inl h
  | cons link added ih =>
    rcases ih h with hl | hl
    · rcases mem_insertGovLink.mp hl with ⟨hl, -⟩ | ⟨l₀, -, hkey, rfl⟩ | ⟨rfl, -⟩
      · exact .inl hl
      · exact .inr (Prod.mk.inj hkey).1
      · exact .inr rfl
    · exact .inr hl

theorem threadsKept_storeSurvey (db : SurveyDb) (d : SurveyDelivery) :
    ThreadsKept db (storeSurvey db d) where
  forum := rfl
  opened ref id := by
    constructor
    · rintro ⟨s, hs, hsref, hstopic⟩
      rcases mem_upsertSurvey.mp hs with ⟨hs, -⟩ | ⟨s₀, hs₀, -, rfl⟩ | ⟨rfl, -⟩
      · exact ⟨s, hs, hsref, hstopic⟩
      · exact ⟨s₀, hs₀, hsref, hstopic⟩
      · exact nomatch hstopic
    · rintro ⟨s, hs, hsref, hstopic⟩
      by_cases hd : s.ref = d.ref
      · exact ⟨_, mem_upsertSurvey.mpr (.inr (.inl ⟨s, hs, hd, rfl⟩)), hsref, hstopic⟩
      · exact ⟨s, mem_upsertSurvey.mpr (.inl ⟨hs, hd⟩), hsref, hstopic⟩
  linked l hl hold := by
    refine held_upsertSurvey ?_
    rcases mem_insertGovLinks hl with hl | hl
    · exact .inl (hold (Table.mem_deleteWhere.mp hl).1)
    · exact .inr hl

theorem threadsKept_withdraw (db : SurveyDb) (refs : List String) (now : ℤ) :
    ThreadsKept db (withdrawSurveys db refs now) where
  forum := rfl
  opened ref id := by
    constructor
    · rintro ⟨s, hs, hsref, hstopic⟩
      rcases mem_withdrawSurveys.mp hs with ⟨hs, -⟩ | ⟨s₀, hs₀, -, rfl⟩
      · exact ⟨s, hs, hsref, hstopic⟩
      · exact ⟨s₀, hs₀, hsref, hstopic⟩
    · rintro ⟨s, hs, hsref, hstopic⟩
      have hkept : (refs.contains s.ref && s.topicId.isNone) = false := by simp [hstopic]
      exact Table.exists_mem_updateWhere (Table.mem_deleteWhere.mpr ⟨hs, hkept⟩)
        (fun _ => ⟨hsref, hstopic⟩) fun _ => ⟨hsref, hstopic⟩
  linked l hl hold := by
    obtain ⟨hl, hrefs⟩ := Table.mem_deleteWhere.mp hl
    obtain ⟨s, hs, hsref⟩ := hold hl
    have hkept : (refs.contains s.ref && s.topicId.isNone) = false := by
      rw [hsref, hrefs, Bool.false_and]
    exact Table.exists_mem_updateWhere (Table.mem_deleteWhere.mpr ⟨hs, hkept⟩) (fun _ => hsref)
      fun _ => hsref

theorem threadsKept_op (db : SurveyDb) (now : ℤ) (op : SurveyOp) :
    ThreadsKept db (op.apply now db) := by
  cases op with
  | withdraw refs => exact threadsKept_withdraw db refs now
  | store rows =>
    induction rows generalizing db with
    | nil => exact .of_same rfl rfl rfl
    | cons d rows ih => exact (threadsKept_storeSurvey db d).trans (ih _)
  | dropTallies refs | enqueue refs => exact .of_same rfl rfl rfl

/-! ### Each step -/

theorem SurveyThreads.of_kept (h : SurveyThreads db) (hkept : ThreadsKept db db') :
    SurveyThreads db' where
  ofOne ref ref' id hopen hopen' :=
    h.ofOne ref ref' id ((hkept.opened ref id).mp hopen) ((hkept.opened ref' id).mp hopen')
  threads id := by
    rw [hkept.forum, h.threads id]
    exact exists_congr fun ref => (hkept.opened ref id).symm
  linked l hl := hkept.linked l hl (h.linked l)

variable {args : CreateTopicArgs}

theorem createSurveyTopic_opened (h : createSurveyTopic db ref args = some (db', true)) :
    (∃ forum, createTopic db.forum args = some forum ∧ db'.forum = forum) ∧
      db'.links = db.links ∧ (∀ r, db'.Holds r ↔ db.Holds r) ∧
      (∀ id, ¬db.Opened ref id) ∧
      ∀ r id, db'.Opened r id ↔ db.Opened r id ∨ r = ref ∧ id = args.topicId := by
  rw [createSurveyTopic] at h
  split_ifs at h with hguard
  · obtain ⟨forum, hforum, hpair⟩ := Option.map_eq_some_iff.mp h
    obtain ⟨rfl, -⟩ := Prod.mk.inj hpair
    obtain ⟨s, hs, hunclaimed⟩ := List.any_eq_true.mp hguard
    simp only [SurveyRow.isUnclaimed, Bool.and_eq_true, beq_iff_eq, Option.isNone_iff_eq_none]
      at hunclaimed
    have hone : ∀ s' ∈ db.surveys.rows, s'.ref = ref → s' = s := fun s' hs' href =>
      db.surveys.eq_of_key hs' hs (href.trans hunclaimed.1.symm)
    refine ⟨⟨forum, hforum, rfl⟩, rfl, fun r => ?_, ?_, fun r id => ?_⟩
    · constructor
      · rintro ⟨s', hs', hsref⟩
        rcases Table.mem_updateWhere.mp hs' with ⟨hs', -⟩ | ⟨s₀, hs₀, -, rfl⟩
        · exact ⟨s', hs', hsref⟩
        · exact ⟨s₀, hs₀, hsref⟩
      · rintro ⟨s', hs', hsref⟩
        exact Table.exists_mem_updateWhere hs' (fun _ => hsref) fun _ => hsref
    · rintro id ⟨s', hs', hsref, hstopic⟩
      rw [hone s' hs' hsref, hunclaimed.2] at hstopic
      cases hstopic
    · constructor
      · rintro ⟨s', hs', hsref, hstopic⟩
        rcases Table.mem_updateWhere.mp hs' with ⟨hs', -⟩ | ⟨s₀, hs₀, hmatch, rfl⟩
        · exact .inl ⟨s', hs', hsref, hstopic⟩
        · simp only [SurveyRow.isUnclaimed, Bool.and_eq_true, beq_iff_eq] at hmatch
          exact .inr ⟨hsref.symm.trans hmatch.1, (Option.some.inj hstopic).symm⟩
      · rintro (⟨s', hs', hsref, hstopic⟩ | ⟨rfl, rfl⟩)
        · have hclaimed : s'.isUnclaimed ref = false := by simp [SurveyRow.isUnclaimed, hstopic]
          exact ⟨s', Table.mem_updateWhere.mpr (.inl ⟨hs', hclaimed⟩), hsref, hstopic⟩
        · have hmatch : s.isUnclaimed r = true := by
            simp [SurveyRow.isUnclaimed, hunclaimed.1, hunclaimed.2]
          exact ⟨_, Table.mem_updateWhere.mpr (.inr ⟨s, hs, hmatch, rfl⟩), hunclaimed.1, rfl⟩
  · exact absurd (Prod.mk.inj (Option.some.inj h)).2 (by simp)

theorem SurveyThreads.publish (h : SurveyThreads db) (hsource : args.source = .survey)
    (hopen : createSurveyTopic db ref args = some (db', true)) : SurveyThreads db' := by
  obtain ⟨⟨forum, hcreate, hforum⟩, hlinks, hholds, hnone, hopened⟩ :=
    createSurveyTopic_opened hopen
  obtain ⟨htopics, hfree⟩ := createTopic_topics hcreate
  have hunused : ∀ r, ¬db.Opened r args.topicId := fun r hr => by
    obtain ⟨t, ht, htid, -⟩ := (h.threads args.topicId).mpr ⟨r, hr⟩
    exact hfree (List.mem_map.mpr ⟨t, ht, htid⟩)
  refine ⟨fun r r' id hr hr' => ?_, fun id => ?_, fun l hl => ?_⟩
  · rcases (hopened r id).mp hr with hr | ⟨rfl, rfl⟩ <;>
      rcases (hopened r' _).mp hr' with hr' | ⟨rfl, hid⟩
    · exact h.ofOne r r' id hr hr'
    · exact absurd (hid ▸ hr) (hunused r)
    · exact absurd hr' (hunused r')
    · rfl
  · simp only [hopened, exists_or, ← h.threads id, hforum, htopics, List.mem_append,
      List.mem_singleton, or_and_right]
    refine or_congr Iff.rfl ?_
    constructor
    · rintro ⟨t, rfl, htid, -⟩
      exact ⟨ref, rfl, htid.symm⟩
    · rintro ⟨r, -, rfl⟩
      exact ⟨args.topic, rfl, rfl, hsource⟩
  · exact (hholds _).mpr (h.linked l (hlinks ▸ hl))

theorem SurveyEffect.opened (h : SurveyEffect db db') (hopen : db.Opened ref id) :
    db'.Opened ref id := by
  cases h with
  | same | state | mark | dequeue => exact hopen
  | op now op => exact ((threadsKept_op db now op).opened ref id).mpr hopen
  | publish hsource hpublish =>
    exact ((createSurveyTopic_opened hpublish).2.2.2.2 ref id).mpr (.inl hopen)
  | count ref' artifactHash dreps now =>
    have hkept : ThreadsKept db (setSurveyFinalCount db ref' artifactHash dreps now).1 :=
      .of_update rfl rfl rfl (fun _ => rfl) fun _ => rfl
    exact (hkept.opened ref id).mpr hopen
  | tally t expected =>
    rw [upsertSurveyTally]
    split_ifs <;> exact hopen

theorem SurveyThreads.effect (h : SurveyThreads db) (heffect : SurveyEffect db db') :
    SurveyThreads db' := by
  cases heffect with
  | same => exact h
  | state | mark | dequeue => exact h.of_kept (.of_same rfl rfl rfl)
  | op now op => exact h.of_kept (threadsKept_op db now op)
  | publish hsource hpublish => exact h.publish hsource hpublish
  | count ref artifactHash dreps now =>
    exact h.of_kept (.of_update rfl rfl rfl (fun _ => rfl) fun _ => rfl)
  | tally t expected =>
    refine h.of_kept ?_
    rw [upsertSurveyTally]
    split_ifs <;> exact .of_same rfl rfl rfl

end Kept

/-! ### The runs -/

/-- What else happens: an action is imported, or another thread is opened. -/
inductive SurveyEnv (db : SurveyDb) : SurveyDb → Prop
  | action (proposalId : String) : SurveyEnv db { db with actions := proposalId :: db.actions }
  | topic {args : CreateTopicArgs} {forum : ForumTables} (hsource : args.source ≠ .survey)
      (h : createTopic db.forum args = some forum) : SurveyEnv db { db with forum := forum }

/-- Runs of the sync, whatever they are answered. -/
def surveyProgram (cfg : SurveyTexts) : Program SurveyDb SurveyProc where
  Start _ p := ∃ now, p = .start now
  Step db p db' p' := ∃ input, surveyStep cfg input db p = some (db', p')
  Env := SurveyEnv

theorem SurveyThreads.env {db db' : SurveyDb} (h : SurveyThreads db) (henv : SurveyEnv db db') :
    SurveyThreads db' := by
  cases henv with
  | action proposalId => exact h.of_kept (.of_same rfl rfl rfl)
  | topic hsource hcreate =>
    obtain ⟨htopics, -⟩ := createTopic_topics hcreate
    refine ⟨h.ofOne, fun id => (exists_congr fun t => and_congr_left fun hid => ?_).trans
      (h.threads id), h.linked⟩
    rw [htopics, List.mem_append, List.mem_singleton, or_iff_left_of_imp]
    rintro rfl
    exact absurd hid.2 hsource

def surveyThreadsSound (cfg : SurveyTexts) : (surveyProgram cfg).Sound SurveyThreads where
  inv := SurveyThreads
  asserts _ _ := True
  apart _ _ := True
  symm _ _ _ := trivial
  init _ h := h
  start _ _ _ _ := ⟨trivial, fun _ _ => trivial⟩
  step _ _ _ _ h _ hstep := ⟨h.effect (surveyStep_effect hstep.choose_spec), trivial⟩
  noninterference _ _ _ _ _ _ _ _ _ _ := ⟨trivial, trivial⟩
  env _ _ h henv := ⟨h.env henv, fun _ _ => trivial⟩

section Results

variable {ι : Type*} [DecidableEq ι] {cfg : SurveyTexts}

theorem opened_of_moves {s s' : Interleaved SurveyDb SurveyProc ι} {move : Move ι}
    {ref id : String} (h : (surveyProgram cfg).Moves s move s') (hopen : s.shared.Opened ref id) :
    s'.shared.Opened ref id := by
  cases h with
  | start => exact hopen
  | step hproc hstep => exact (surveyStep_effect hstep.choose_spec).opened hopen
  | env henv => cases henv <;> exact hopen

/-- **One thread for each survey**, and each link belongs to a stored survey; a survey that has a
thread keeps it, and a call that has not opened one has written nothing. -/
theorem survey_threads_right {s : Interleaved SurveyDb SurveyProc ι}
    (h : ((surveyProgram cfg).system ι SurveyThreads).Reachable s) :
    (∀ t ∈ s.shared.forum.topics.rows, t.source = .survey →
      ∃! row, row ∈ s.shared.surveys.rows ∧ row.topicId = some t.id) ∧
    (∀ row ∈ s.shared.surveys.rows, ∀ id, row.topicId = some id →
      (∃ t ∈ s.shared.forum.topics.rows, t.id = id ∧ t.source = .survey) ∧
        ∀ s', ((surveyProgram cfg).system ι SurveyThreads).Leads s s' →
          ∃ row' ∈ s'.shared.surveys.rows, row'.ref = row.ref ∧ row'.topicId = some id) ∧
    (∀ l ∈ s.shared.links.rows, ∃ row ∈ s.shared.surveys.rows, row.ref = l.surveyRef) ∧
    ∀ p now topicId postId rand db',
      publishSurvey cfg s.shared p now topicId postId rand = some (db', false) →
        db' = s.shared := by
  obtain ⟨hinv, -, -⟩ := (surveyThreadsSound cfg).holds h
  refine ⟨fun t ht hsource => ?_, fun row hrow id htopic => ⟨?_, fun s' hleads => ?_⟩,
    hinv.linked, fun p now topicId postId rand db' => publishSurvey_false⟩
  · obtain ⟨ref, row, hrow, href, htopic⟩ := (hinv.threads t.id).mp ⟨t, ht, rfl, hsource⟩
    refine ⟨row, ⟨hrow, htopic⟩, fun row' hrow' => ?_⟩
    exact s.shared.surveys.eq_of_key hrow'.1 hrow (hinv.ofOne row'.ref row.ref t.id
      ⟨row', hrow'.1, rfl, hrow'.2⟩ ⟨row, hrow, rfl, htopic⟩)
  · exact (hinv.threads id).mpr ⟨row.ref, row, hrow, rfl, htopic⟩
  · have hopen : s'.shared.Opened row.ref id :=
      h.stable (fun _ _ _ _ hopen hmoves => opened_of_moves hmoves hopen) hleads
        ⟨row, hrow, rfl, htopic⟩
    exact hopen

end Results

/-! ### Two runs that overlap -/

def plainTexts : SurveyTexts where
  sanitizeExternalText title _ := title
  decodes _ := true
  surveyTitle _ ref := ref
  composeFirstPostMd definition _ := definition
  renderMarkdown md := md
  slugify title rand := title ++ "-" ++ rand

/-- A survey that DReps may answer, linked by one action. -/
def sampleAggregate (key : String) : SurveyAggregate where
  key := key
  endEpoch := 300
  eligibleRoles := [0]
  «sealed» := false
  cancelled := false
  external := false
  recordJson := "record"
  slot := 0
  govLinks := [("ga1", some "title")]
  talliable := true
  sealedUnsupported := false

/-- A page with one survey, by what was decided of it. -/
def samplePage (decision : Option SurveyDecision) (cursor : String) : SurveyChanges where
  set :=
    { aggregates := [sampleAggregate "s1"]
      tip := ⟨0, 0⟩
      countedByRole := []
      finalState := (decision.map ("s1", ·)).toList
      fetchedAt := some 0
      incomplete := false }
  surveyCount := 1
  removed := []
  nextCursor := cursor

def noSurveys : SurveyDb :=
  ⟨⟨.empty, .empty, []⟩, [], .empty, .empty, .empty, .empty, ⟨none, none, false⟩⟩

theorem surveyThreads_none : SurveyThreads noSurveys where
  ofOne := by
    rintro ref ref' id ⟨s, hs, -⟩
    cases hs
  threads id := by
    constructor
    · rintro ⟨t, ht, -⟩
      cases ht
    · rintro ⟨ref, s, hs, -⟩
      cases hs
  linked l hl := absurd hl List.not_mem_nil

/-- What a run does up to its list of surveys that wait for a thread. -/
def sampleMirror (decision : Option SurveyDecision) (cursor : String) : List SurveyInput :=
  [.statement, .changes (some (samplePage decision cursor)), .statement, .statement, .statement,
    .statement, .statement, .statement, .statement]

/-- Two runs list the same survey, and one of them opens its thread. -/
theorem survey_threads_right_overlapping : ∃ s : Interleaved SurveyDb SurveyProc ℕ,
    s.shared.forum.topics.rows.map (fun t => (t.id, t.source)) = [("t1", .survey)] ∧
      s.shared.surveys.rows.map (fun row => (row.ref, row.topicId)) = [("s1", some "t1")] ∧
      ∀ t ∈ s.shared.forum.topics.rows, t.source = .survey →
        ∃! row, row ∈ s.shared.surveys.rows ∧ row.topicId = some t.id := by
  have h₀ : ((surveyProgram plainTexts).system ℕ SurveyThreads).Reachable
      ⟨noSurveys, fun _ => none⟩ := .init ⟨surveyThreads_none, fun _ => rfl⟩
  have h₁ := h₀.step (.env (SurveyEnv.action "ga1"))
  have h₂ := h₁.step (.start (i := 0) rfl ⟨10, rfl⟩)
  have h₃ := h₂.step (.start (i := 1) rfl ⟨11, rfl⟩)
  have h₄ := Program.reachable_run (P := surveyProgram _) (fun k _ _ _ _ h => ⟨k, h⟩) h₃
    ((sampleMirror none "c1").map (0, ·) ++ (sampleMirror none "c1").map (1, ·) ++
      [(0, .ids "t1" "p1" "x"), (1, .ids "t2" "p2" "y")]) (by decide +kernel)
  exact ⟨_, by decide +kernel, by decide +kernel, (survey_threads_right h₄).1⟩

end DrepTalk
