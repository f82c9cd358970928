import DrepTalk.Dreps.AvatarObjects

/-!
# Whether a named avatar is there

All runs of the collector (`gcDrepAvatars`), the two passes and the sync, one statement after the
other in any order, from a state in which every named hash has its object.

**What goes wrong.** A collector deletes what it has found unnamed some time before. An object that
has lain there for the grace period may be put again, or adopted, or written back to a row by a sync
that has read it there; the put renews it, but is not seen by a collector that has listed it. Then
the row names what is deleted, and as it is stored it is never fetched again.

**What holds.** In a run in which no image is put that a collector has on its list, none is adopted
that one has there or will put there (`Threatens`), no collector reads the DReps while a process is
between reading an old unnamed hash and writing it, and none takes longer over the pools than an
object stays new, no named object is ever deleted (`avatars_of_reachable`).
-/

namespace DrepTalk

/-! ### The condition -/

def AvatarGc.collected : AvatarGc → List AvatarKey
  | .listing _ _ _ _ toDelete => toDelete
  | .deleting toDelete => toDelete
  | _ => []

/-- The object is on the list of the run, or the listing has yet to come to it and would put it
there. -/
def AvatarGc.Threatens (w : BucketWorld) (hash : String) : AvatarGc → Prop
  | .listing referenced nowMs under cursor toDelete =>
    avatarKey hash ∈ toDelete ∨
      under = .avatars ∧ (cursor.all fun last => decide (last < hash)) = true ∧
        toDelete.length < DELETE_LIMIT ∧ hash ∉ referenced ∧
          ¬w.bucket.HasSince (avatarKey hash) (nowMs - AVATAR_GC_GRACE_MS)
  | .deleting toDelete => avatarKey hash ∈ toDelete
  | _ => False

section

variable {δ : Type*} (setup : DrepSyncSetup δ) (parseUrl : String → Option ImageUrl)

/-- The step of the one does no harm with the other in flight. -/
structure AvatarSpares (w : BucketWorld) (p other : AvatarProc δ) : Prop where
  putting : ∀ gc hash, other = .collecting gc → p.puts setup = some hash →
    avatarKey hash ∉ gc.collected
  adopting : ∀ gc hash, other = .collecting gc → p.adopts parseUrl = some hash →
    w.bucket.Has (avatarKey hash) → ¬gc.Threatens w hash
  reading : ∀ extra nowMs hash, p = .collecting (.timed extra nowMs) →
    other.holds setup = some (hash, none) →
      hash ∈ listReferencedImageHashes w.dreps ++ extra ∨
        w.bucket.HasSince (avatarKey hash) (nowMs - AVATAR_GC_GRACE_MS)

/-- The condition on a run. When a collector reads the clock, what the pools name is in what it has
read of them, or new. -/
def avatarCondition : Program.Condition BucketWorld (AvatarProc δ) where
  state _ := True
  mover w p := ∀ extra, p = .collecting (.pooled extra) →
    ∀ hash ∈ listReferencedPoolImageHashes w.pools,
      hash ∈ extra ∨ w.bucket.HasSince (avatarKey hash) (w.clockMs - AVATAR_GC_GRACE_MS)
  others := AvatarSpares setup parseUrl

end

/-! ### The invariant -/

section Invariant

variable {δ ι : Type*} {setup : DrepSyncSetup δ}
  {parseUrl : String → Option ImageUrl} {w w' : BucketWorld} {hash : String}
  {s s' : Interleaved BucketWorld (AvatarProc δ) ι} {gc : AvatarGc}

/-- The time at which a run has read the clock. -/
def AvatarGc.readAt : AvatarGc → Option ℤ
  | .timed _ nowMs => some nowMs
  | .listing _ nowMs _ _ _ => some nowMs
  | _ => none

/-- What a process is about to name is there; if it was put, then since the put. -/
def BucketWorld.Keeps (w : BucketWorld) (hash : String) : Option ℤ → Prop
  | none => w.bucket.Has (avatarKey hash)
  | some time => time ≤ w.clockMs ∧
    (w.clockMs - time < AVATAR_GC_GRACE_MS → w.bucket.HasSince (avatarKey hash) (time - 1))

/-- A row names the hash, or a process still can. -/
def StillNamed (setup : DrepSyncSetup δ) (s : Interleaved BucketWorld (AvatarProc δ) ι)
    (hash : String) : Prop :=
  s.shared.References hash ∨ ∃ i p putAt, s.procs i = some p ∧
    p.holds setup = some (hash, putAt) ∧ s.shared.InTime putAt

/-- What holds in every state of a run that meets the condition. -/
structure BucketInv (setup : DrepSyncSetup δ) (s : Interleaved BucketWorld (AvatarProc δ) ι) :
    Prop where
  complete : s.shared.Complete
  keeps : ∀ i p hash putAt, s.procs i = some p → p.holds setup = some (hash, putAt) →
    s.shared.Keeps hash putAt
  proper : ∀ i p, s.procs i = some p → p.Proper
  clock : ∀ i gc nowMs, s.procs i = some (.collecting gc) → gc.readAt = some nowMs →
    nowMs ≤ s.shared.clockMs
  pools : ∀ i extra nowMs, s.procs i = some (.collecting (.timed extra nowMs)) →
    ∀ hash ∈ listReferencedPoolImageHashes s.shared.pools,
      hash ∈ extra ∨ s.shared.bucket.HasSince (avatarKey hash) (nowMs - AVATAR_GC_GRACE_MS)
  spared : ∀ i gc hash, s.procs i = some (.collecting gc) → StillNamed setup s hash →
    ¬gc.Threatens s.shared hash

/-- The object is still there, and as new as it was. -/
structure Saves (w w' : BucketWorld) (hash : String) : Prop where
  has : w.bucket.Has (avatarKey hash) → w'.bucket.Has (avatarKey hash)
  since : ∀ time < w.clockMs, w.bucket.HasSince (avatarKey hash) time →
    w'.bucket.HasSince (avatarKey hash) time

theorem Saves.of_bucket (h : w'.bucket = w.bucket) : Saves w w' hash :=
  ⟨fun hhas => h ▸ hhas, fun _ _ hhas => h ▸ hhas⟩

theorem Saves.of_renews (h : w.bucket.Renews w'.bucket) : Saves w w' hash :=
  ⟨h.has, fun _ _ => h.hasSince⟩

theorem Saves.of_put {hash' : String}
    (h : w'.bucket = w.bucket.put (avatarKey hash') w.clockMs) : Saves w w' hash := by
  constructor
  · intro hhas
    rw [h]
    exact AvatarBucket.has_put.mpr (.inl hhas)
  · intro time htime hhas
    rw [h]
    exact AvatarBucket.hasSince_put htime hhas

variable {nowMs time : ℤ} {putAt : Option ℤ}

theorem sub_grace_lt {clockMs : ℤ} (h : nowMs ≤ clockMs) :
    nowMs - AVATAR_GC_GRACE_MS < clockMs := by
  have hgrace : (0 : ℤ) < AVATAR_GC_GRACE_MS := by decide
  omega

theorem AvatarWrites.saves {p p' : AvatarProc δ} (h : AvatarWrites setup parseUrl w w' p p') :
    Saves w w' hash := by
  rcases h.bucket with hsame | ⟨hash', -, hput⟩
  · exact .of_bucket hsame
  · exact .of_put hput

theorem BucketWorld.InTime.mono (hclock : w.clockMs ≤ w'.clockMs) (h : w'.InTime putAt) :
    w.InTime putAt := fun time htime => by
  have hlater := h time htime
  omega

theorem BucketWorld.Keeps.mono (hclock : w.clockMs ≤ w'.clockMs)
    (hsaves : w.InTime putAt → Saves w w' hash) (h : w.Keeps hash putAt) : w'.Keeps hash putAt := by
  rcases putAt with _ | time
  · exact (hsaves fun _ h => by cases h).has h
  · obtain ⟨hpast, hhas⟩ := h
    refine ⟨hpast.trans hclock, fun htime => ?_⟩
    have hnow : w.clockMs - time < AVATAR_GC_GRACE_MS := by omega
    refine (hsaves fun time' h => ?_).since (time - 1) (by omega) (hhas hnow)
    cases h
    exact hnow

theorem BucketWorld.Keeps.has (h : w.Keeps hash putAt) (htime : w.InTime putAt) :
    w.bucket.Has (avatarKey hash) := by
  rcases putAt with _ | time
  · exact h
  · exact (h.2 (htime time rfl)).has

theorem BucketWorld.Keeps.hasSince (h : w.Keeps hash (some time)) (htime : w.InTime (some time))
    (hnow : nowMs ≤ w.clockMs) :
    w.bucket.HasSince (avatarKey hash) (nowMs - AVATAR_GC_GRACE_MS) := by
  have hlate := htime time rfl
  obtain ⟨o, ho, hkey, hsince⟩ := h.2 hlate
  exact ⟨o, ho, hkey, by omega⟩

theorem BucketInv.has (hinv : BucketInv setup s) (h : StillNamed setup s hash) :
    s.shared.bucket.Has (avatarKey hash) := by
  rcases h with h | ⟨i, p, putAt, hproc, hholds, htime⟩
  · exact hinv.complete hash h
  · exact (hinv.keeps i p hash putAt hproc hholds).has htime

theorem AvatarGc.Threatens.of_saves (hnow : ∀ nowMs, gc.readAt = some nowMs → nowMs ≤ w.clockMs)
    (hsaves : Saves w w' hash) (h : gc.Threatens w' hash) : gc.Threatens w hash := by
  rcases gc with _ | _ | _ | ⟨referenced, nowMs, under, cursor, toDelete⟩ | toDelete | _
  · exact h
  · exact h
  · exact h
  · refine h.imp_right fun ⟨hunder, hcursor, hlimit, hreferenced, hold⟩ =>
      ⟨hunder, hcursor, hlimit, hreferenced, fun hsince => hold ?_⟩
    exact hsaves.since _ (sub_grace_lt (hnow nowMs rfl)) hsince
  · exact h
  · exact h

theorem AvatarGc.Threatens.collected (h : gc.Threatens w hash)
    (hnow : ∀ nowMs, gc.readAt = some nowMs → nowMs - AVATAR_GC_GRACE_MS ≤ time)
    (hsince : w.bucket.HasSince (avatarKey hash) time) : avatarKey hash ∈ gc.collected := by
  rcases gc with _ | _ | _ | ⟨referenced, nowMs, under, cursor, toDelete⟩ | toDelete | _
  · exact h.elim
  · exact h.elim
  · exact h.elim
  · refine h.resolve_right fun ⟨_, _, _, _, hold⟩ => hold ?_
    obtain ⟨o, ho, hkey, htime⟩ := hsince
    exact ⟨o, ho, hkey, (hnow nowMs rfl).trans_lt htime⟩
  · exact h
  · exact h.elim

/-! ### A step of the collector -/

variable {referenced : List String} {toDelete : List AvatarKey}

theorem foldl_collect_full (hfull : DELETE_LIMIT ≤ toDelete.length) (objects : List AvatarObject) :
    objects.foldl (collect referenced nowMs) toDelete = toDelete := by
  induction objects with
  | nil => rfl
  | cons o objects ih => rw [List.foldl_cons, collect, if_pos hfull, ih]

theorem threatens_listed {under : AvatarPrefix} {cursor : Option String}
    (h : (gcStep w (.listing referenced nowMs under cursor toDelete)).2.Threatens w hash) :
    (AvatarGc.listing referenced nowMs under cursor toDelete).Threatens w hash := by
  have hcollects := collects_page referenced nowMs (w.bucket.page under cursor).1 toDelete
  set listed := (w.bucket.page under cursor).1.foldl (collect referenced nowMs) toDelete
    with hlisted
  have hmem : ∀ o ∈ (w.bucket.page under cursor).1, o ∈ w.bucket.rows ∧ o.key.under = under ∧
      AvatarBucket.behind cursor o = true := fun o ho =>
    AvatarBucket.mem_objectsAfter.mp ((List.take_sublist _ _).subset ho)
  -- what has come onto the list could have come onto it
  have hkey : avatarKey hash ∈ listed →
      (AvatarGc.listing referenced nowMs under cursor toDelete).Threatens w hash := by
    intro hkey
    by_cases hfull : DELETE_LIMIT ≤ toDelete.length
    · rw [hlisted, foldl_collect_full hfull] at hkey
      exact .inl hkey
    refine (hcollects.only _ hkey).imp_right fun ⟨o, ho, hsame, hnamed, hold⟩ => ?_
    obtain ⟨hrow, hunder, hbehind⟩ := hmem o ho
    rw [hsame] at hunder hnamed
    rw [AvatarBucket.behind, hsame] at hbehind
    refine ⟨hunder.symm, hbehind, Nat.not_le.mp hfull, hnamed, ?_⟩
    rintro ⟨o', ho', hkey', hsince⟩
    obtain rfl := w.bucket.eq_of_key ho' hrow (hkey'.trans hsame.symm)
    omega
  have hstep : (gcStep w (.listing referenced nowMs under cursor toDelete)).2 =
      .listed referenced nowMs under (w.bucket.page under cursor).2 listed := rfl
  rw [hstep, AvatarGc.listed] at h
  split_ifs at h with hmore
  · rcases h with h | ⟨hunder, hcursor, hlimit, hnamed, hold⟩
    · exact hkey h
    refine .inr ⟨hunder, ?_, hcollects.grows.trans_lt hlimit, hnamed, hold⟩
    -- the cursor has moved on
    obtain ⟨last, hlast⟩ := Option.isSome_iff_exists.mp hmore.1
    rw [hlast] at hcursor
    have hpage := hlast
    rw [AvatarBucket.page] at hpage
    split_ifs at hpage
    obtain ⟨o, ho, rfl⟩ := Option.map_eq_some_iff.mp hpage
    have hbehind := (hmem o (List.mem_of_getLast? ho)).2.2
    rcases cursor with _ | c
    · rfl
    · exact decide_eq_true ((of_decide_eq_true hbehind).trans (of_decide_eq_true hcursor))
  · rcases under with _ | _ | _
    · exact h.elim hkey fun h => absurd h.1 (by decide)
    · exact h.elim hkey fun h => absurd h.1 (by decide)
    · exact hkey h

theorem saves_gcStep (h : ¬gc.Threatens w hash) : Saves w (gcStep w gc).1 hash := by
  rcases gc with _ | _ | _ | _ | ⟨_ | ⟨key, keys⟩⟩ | _
  · exact .of_bucket rfl
  · exact .of_bucket rfl
  · exact .of_bucket rfl
  · exact .of_bucket rfl
  · exact .of_bucket rfl
  · have hkey : avatarKey hash ∉ (key :: keys).take DELETE_BATCH := fun hmem =>
      h ((List.take_sublist _ _).subset hmem)
    exact ⟨fun hhas => AvatarBucket.has_delete.mpr ⟨hhas, hkey⟩,
      fun _ _ => AvatarBucket.hasSince_delete hkey⟩
  · exact .of_bucket rfl

theorem rows_gcStep (w : BucketWorld) (gc : AvatarGc) :
    (gcStep w gc).1.clockMs = w.clockMs ∧ (gcStep w gc).1.dreps = w.dreps ∧
      (gcStep w gc).1.pools = w.pools := by
  rcases gc with _ | _ | _ | _ | ⟨_ | _⟩ | _ <;> exact ⟨rfl, rfl, rfl⟩

theorem readAt_gcStep (h : (gcStep w gc).2.readAt = some nowMs) :
    gc.readAt = some nowMs ∨ nowMs = w.clockMs := by
  rcases gc with _ | extra | _ | ⟨referenced, nowMs', under, cursor, toDelete⟩ | ⟨_ | _⟩ | _
  · exact nomatch h
  · exact .inr (Option.some.inj h).symm
  · exact .inl h
  · refine .inl ?_
    dsimp only [gcStep, AvatarGc.listed] at h
    split_ifs at h
    · exact h
    · rcases under with _ | _ | _
      · exact h
      · exact h
      · exact nomatch h
  · exact nomatch h
  · exact nomatch h
  · exact nomatch h

theorem timed_gcStep {extra : List String} (h : (gcStep w gc).2 = .timed extra nowMs) :
    gc = .pooled extra ∧ nowMs = w.clockMs := by
  rcases gc with _ | extra' | _ | ⟨referenced, nowMs', under, cursor, toDelete⟩ | ⟨_ | _⟩ | _
  · exact nomatch h
  · obtain ⟨rfl, rfl⟩ := AvatarGc.timed.inj h
    exact ⟨rfl, rfl⟩
  · exact nomatch h
  · dsimp only [gcStep, AvatarGc.listed] at h
    split_ifs at h
    rcases under with _ | _ | _ <;> exact nomatch h
  · exact nomatch h
  · exact nomatch h
  · exact nomatch h

theorem threatens_gcStep (h : (gcStep w gc).2.Threatens (gcStep w gc).1 hash) :
    gc.Threatens w hash ∨ ∃ extra nowMs, gc = .timed extra nowMs ∧
      hash ∉ listReferencedImageHashes w.dreps ++ extra ∧
        ¬w.bucket.HasSince (avatarKey hash) (nowMs - AVATAR_GC_GRACE_MS) := by
  rcases gc with _ | extra | ⟨extra, nowMs⟩ | ⟨referenced, nowMs, under, cursor, toDelete⟩ |
    ⟨_ | ⟨key, keys⟩⟩ | _
  · exact h.elim
  · exact h.elim
  · rcases h with h | ⟨-, -, -, hnamed, hold⟩
    · cases h
    · exact .inr ⟨extra, nowMs, rfl, hnamed, hold⟩
  · exact .inl (threatens_listed h)
  · exact h.elim
  · exact .inl ((List.drop_sublist DELETE_BATCH (key :: keys)).subset h)
  · exact h.elim

/-! ### The invariant over a step -/

variable {p p' : AvatarProc δ} {procs : ι → Option (AvatarProc δ)}

theorem BucketInv.env (hinv : BucketInv setup ⟨w, procs⟩) (henv : AvatarEnv w w') :
    BucketInv setup ⟨w', procs⟩ := by
  have hsaves : ∀ hash, Saves w w' hash := fun hash => .of_renews henv.bucket
  have hnamed : ∀ hash, w'.References hash → w.References hash := fun hash =>
    Or.imp (henv.dreps hash) (henv.pools hash)
  have hlive : ∀ hash, StillNamed setup ⟨w', procs⟩ hash → StillNamed setup ⟨w, procs⟩ hash := by
    rintro hash (h | ⟨j, m, putAt, hproc, hm, htime⟩)
    · exact .inl (hnamed hash h)
    · exact .inr ⟨j, m, putAt, hproc, hm, htime.mono henv.clock⟩
  refine ⟨fun hash h => (hsaves hash).has (hinv.complete hash (hnamed hash h)), ?_, hinv.proper,
    ?_, ?_, ?_⟩
  · intro j m hash putAt hproc hm
    exact (hinv.keeps j m hash putAt hproc hm).mono henv.clock fun _ => hsaves hash
  · intro j gc nowMs hproc hread
    exact (hinv.clock j gc nowMs hproc hread).trans henv.clock
  · intro j extra nowMs hproc hash hmem
    refine (hinv.pools j extra nowMs hproc hash (henv.pools hash hmem)).imp_right fun hsince => ?_
    have hnow : nowMs ≤ w.clockMs := hinv.clock j _ nowMs hproc rfl
    exact (hsaves hash).since _ (sub_grace_lt hnow) hsince
  · intro j gc hash hproc h hthreatens
    exact hinv.spared j gc hash hproc (hlive hash h)
      (hthreatens.of_saves (hinv.clock j gc · hproc) (hsaves hash))

variable [DecidableEq ι] {i : ι}

theorem BucketInv.start (hinv : BucketInv setup ⟨w, procs⟩) (hstart : p.Starts w) :
    BucketInv setup ⟨w, Function.update procs i (some p)⟩ := by
  -- it holds nothing, has read nothing, and threatens nothing
  have hholds : p.holds setup = none := by
    rcases p with gc | ⟨owner, nowMs, stage⟩ | ⟨input, stage⟩
    · rfl
    · obtain ⟨-, hstage⟩ : _ ∧ stage = .clearing := hstart
      rw [hstage]
      rfl
    · obtain rfl : stage = .reading := hstart
      rfl
  have hproper : p.Proper := by
    rcases p with gc | ⟨owner, nowMs, stage⟩ | ⟨input, stage⟩
    · trivial
    · obtain ⟨-, hstage⟩ : _ ∧ stage = .clearing := hstart
      rw [hstage]
      trivial
    · trivial
  have hgc : ∀ gc, p = .collecting gc → gc = .starting := by
    rintro gc rfl
    exact hstart
  have hlive : ∀ hash, StillNamed setup ⟨w, Function.update procs i (some p)⟩ hash →
      StillNamed setup ⟨w, procs⟩ hash := by
    refine fun hash => Or.imp_right ?_
    rintro ⟨j, m, putAt, hproc, hm, htime⟩
    rcases Program.update_eq_some hproc with ⟨-, rfl⟩ | ⟨-, hproc⟩
    · cases hm.symm.trans hholds
    · exact ⟨j, m, putAt, hproc, hm, htime⟩
  refine ⟨hinv.complete, ?_, ?_, ?_, ?_, ?_⟩
  · intro j m hash putAt hproc hm
    rcases Program.update_eq_some hproc with ⟨-, rfl⟩ | ⟨-, hproc⟩
    · cases hm.symm.trans hholds
    · exact hinv.keeps j m hash putAt hproc hm
  · intro j m hproc
    rcases Program.update_eq_some hproc with ⟨-, rfl⟩ | ⟨-, hproc⟩
    · exact hproper
    · exact hinv.proper j m hproc
  · intro j gc nowMs hproc hread
    rcases Program.update_eq_some hproc with ⟨-, hp⟩ | ⟨-, hproc⟩
    · rw [hgc gc hp.symm] at hread
      exact nomatch hread
    · exact hinv.clock j gc nowMs hproc hread
  · intro j extra nowMs hproc
    rcases Program.update_eq_some hproc with ⟨-, hp⟩ | ⟨-, hproc⟩
    · cases hgc _ hp.symm
    · exact hinv.pools j extra nowMs hproc
  · intro j gc hash hproc h
    rcases Program.update_eq_some hproc with ⟨-, hp⟩ | ⟨-, hproc⟩
    · rw [hgc gc hp.symm]
      exact id
    · exact hinv.spared j gc hash hproc (hlive hash h)

theorem BucketInv.writes (hinv : BucketInv setup ⟨w, procs⟩) (hproc : procs i = some p)
    (hwriter : ∀ gc, p' ≠ .collecting gc)
    (hspares : ∀ j m, j ≠ i → procs j = some m → AvatarSpares setup parseUrl w p m)
    (hwrites : AvatarWrites setup parseUrl w w' p p') :
    BucketInv setup ⟨w', Function.update procs i (some p')⟩ := by
  have hsaves : ∀ hash, Saves w w' hash := fun _ => hwrites.saves
  have hclock : w'.clockMs = w.clockMs := hwrites.clock
  have hkeeps : ∀ hash putAt, p.holds setup = some (hash, putAt) → w.Keeps hash putAt :=
    fun hash putAt => hinv.keeps i p hash putAt hproc
  -- what is named was live
  have hnamed : ∀ hash, w'.References hash → StillNamed setup ⟨w, procs⟩ hash := by
    rintro hash (h | h)
    · rcases hwrites.dreps hash h with h | ⟨putAt, hholds, htime⟩
      · exact .inl (.inl h)
      · exact .inr ⟨i, p, putAt, hproc, hholds, htime⟩
    · rcases hwrites.pools hash h with h | ⟨time, hholds, htime⟩
      · exact .inl (.inr h)
      · exact .inr ⟨i, p, some time, hproc, hholds, htime⟩
  have hlive : ∀ hash, StillNamed setup ⟨w', Function.update procs i (some p')⟩ hash →
      StillNamed setup ⟨w, procs⟩ hash ∨
        (p.adopts parseUrl = some hash ∧ w.bucket.Has (avatarKey hash)) ∨
          p.puts setup = some hash ∧
            w'.bucket = w.bucket.put (avatarKey hash) w.clockMs := by
    rintro hash (h | ⟨j, m, putAt, hm, hholds, htime⟩)
    · exact .inl (hnamed hash h)
    rcases Program.update_eq_some hm with ⟨-, rfl⟩ | ⟨-, hm⟩
    · rcases hwrites.holds hash putAt hholds with ⟨-, hdrep | hadopts⟩ | ⟨-, hputs⟩
      · exact .inl (.inl (.inl hdrep))
      · exact .inr (.inl hadopts)
      · exact .inr (.inr hputs)
    · exact .inl (.inr ⟨j, m, putAt, hm, hholds, htime.mono hclock.ge⟩)
  refine ⟨fun hash h => (hsaves hash).has (hinv.has (hnamed hash h)), ?_, ?_, ?_, ?_, ?_⟩
  · intro j m hash putAt hm hholds
    rcases Program.update_eq_some hm with ⟨-, rfl⟩ | ⟨-, hm⟩
    · rcases hwrites.holds hash putAt hholds with ⟨rfl, hdrep | ⟨-, hhas⟩⟩ | ⟨rfl, -, hput⟩
      · exact (hsaves hash).has (hinv.complete hash (.inl hdrep))
      · exact (hsaves hash).has hhas
      · refine ⟨hclock.ge, fun _ => ?_⟩
        rw [hput]
        exact AvatarBucket.hasSince_put_self (by omega)
    · exact (hinv.keeps j m hash putAt hm hholds).mono hclock.ge fun _ => hsaves hash
  · intro j m hm
    rcases Program.update_eq_some hm with ⟨-, rfl⟩ | ⟨-, hm⟩
    · exact hwrites.proper
    · exact hinv.proper j m hm
  · intro j gc nowMs hm hread
    rcases Program.update_eq_some hm with ⟨-, hp⟩ | ⟨-, hm⟩
    · exact absurd hp.symm (hwriter gc)
    · exact (hinv.clock j gc nowMs hm hread).trans hclock.ge
  · intro j extra nowMs hm hash hmem
    rcases Program.update_eq_some hm with ⟨-, hp⟩ | ⟨-, hm⟩
    · exact absurd hp.symm (hwriter _)
    have hnow : nowMs ≤ w.clockMs := hinv.clock j _ nowMs hm rfl
    -- a logo that is named now has just been put
    rcases hwrites.pools hash hmem with hold | ⟨time, hholds, htime⟩
    · refine (hinv.pools j extra nowMs hm hash hold).imp_right fun hsince => ?_
      exact (hsaves hash).since _ (sub_grace_lt hnow) hsince
    · refine .inr ((hsaves hash).since _ (sub_grace_lt hnow) ?_)
      exact (hkeeps hash (some time) hholds).hasSince htime hnow
  · intro j gc hash hm h hthreatens
    rcases Program.update_eq_some hm with ⟨-, hp⟩ | ⟨hji, hm⟩
    · exact absurd hp.symm (hwriter gc)
    have hnow : ∀ nowMs, gc.readAt = some nowMs → nowMs ≤ w.clockMs := fun nowMs =>
      hinv.clock j gc nowMs hm
    rcases hlive hash h with h | ⟨hadopts, hhas⟩ | ⟨hputs, hput⟩
    · exact hinv.spared j gc hash hm h (hthreatens.of_saves hnow (hsaves hash))
    · exact (hspares j _ hji hm).adopting gc hash rfl hadopts hhas
        (hthreatens.of_saves hnow (hsaves hash))
    · have hsince : w'.bucket.HasSince (avatarKey hash) (w.clockMs - 1) := by
        rw [hput]
        exact AvatarBucket.hasSince_put_self (by omega)
      refine (hspares j _ hji hm).putting gc hash rfl hputs ?_
      refine hthreatens.collected (fun nowMs hread => ?_) hsince
      have hlt := sub_grace_lt (hnow nowMs hread)
      omega

theorem BucketInv.collects (hinv : BucketInv setup ⟨w, procs⟩)
    (hproc : procs i = some (.collecting gc))
    (hmover : ∀ extra, gc = .pooled extra → ∀ hash ∈ listReferencedPoolImageHashes w.pools,
      hash ∈ extra ∨ w.bucket.HasSince (avatarKey hash) (w.clockMs - AVATAR_GC_GRACE_MS))
    (hspares : ∀ j m, j ≠ i → procs j = some m →
      AvatarSpares setup parseUrl w (.collecting gc) m) :
    BucketInv setup ⟨(gcStep w gc).1,
      Function.update procs i (some (.collecting (gcStep w gc).2))⟩ := by
  obtain ⟨hclock, hdreps, hpools⟩ := rows_gcStep w gc
  have hnamed : ∀ hash, (gcStep w gc).1.References hash ↔ w.References hash := fun hash => by
    rw [BucketWorld.References, hdreps, hpools]
    rfl
  have hlive : ∀ hash, StillNamed setup ⟨(gcStep w gc).1,
      Function.update procs i (some (.collecting (gcStep w gc).2))⟩ hash →
        StillNamed setup ⟨w, procs⟩ hash := by
    rintro hash (h | ⟨j, m, putAt, hm, hholds, htime⟩)
    · exact .inl ((hnamed hash).mp h)
    rcases Program.update_eq_some hm with ⟨-, rfl⟩ | ⟨-, hm⟩
    · cases hholds
    · exact .inr ⟨j, m, putAt, hm, hholds, htime.mono hclock.ge⟩
  have hsaves : ∀ hash, StillNamed setup ⟨w, procs⟩ hash → Saves w (gcStep w gc).1 hash :=
    fun hash h => saves_gcStep (hinv.spared i gc hash hproc h)
  have hnow : ∀ nowMs, gc.readAt = some nowMs → nowMs ≤ w.clockMs := fun nowMs =>
    hinv.clock i gc nowMs hproc
  refine ⟨fun hash h => ?_, ?_, ?_, ?_, ?_, ?_⟩
  · have h := (hnamed hash).mp h
    exact (hsaves hash (.inl h)).has (hinv.complete hash h)
  · intro j m hash putAt hm hholds
    rcases Program.update_eq_some hm with ⟨-, rfl⟩ | ⟨-, hm⟩
    · cases hholds
    · exact (hinv.keeps j m hash putAt hm hholds).mono hclock.ge fun htime =>
        hsaves hash (.inr ⟨j, m, putAt, hm, hholds, htime⟩)
  · intro j m hm
    rcases Program.update_eq_some hm with ⟨-, rfl⟩ | ⟨-, hm⟩
    · trivial
    · exact hinv.proper j m hm
  · intro j gc' nowMs hm hread
    rcases Program.update_eq_some hm with ⟨-, hp⟩ | ⟨-, hm⟩
    · obtain rfl := AvatarProc.collecting.inj hp
      rcases readAt_gcStep hread with hread | rfl
      · exact (hnow nowMs hread).trans hclock.ge
      · exact hclock.ge
    · exact (hinv.clock j gc' nowMs hm hread).trans hclock.ge
  · intro j extra nowMs hm hash hmem
    rcases Program.update_eq_some hm with ⟨-, hp⟩ | ⟨-, hm⟩
    · obtain ⟨rfl, rfl⟩ := timed_gcStep (AvatarProc.collecting.inj hp).symm
      exact hmover extra rfl hash (hpools ▸ hmem)
    · have hpast : nowMs ≤ w.clockMs := hinv.clock j _ nowMs hm rfl
      have hmem : hash ∈ listReferencedPoolImageHashes w.pools := hpools ▸ hmem
      refine (hinv.pools j extra nowMs hm hash hmem).imp_right fun hsince => ?_
      exact (hsaves hash (.inl (.inr hmem))).since _ (sub_grace_lt hpast) hsince
  · intro j gc' hash hm h hthreatens
    have hwas := hlive hash h
    rcases Program.update_eq_some hm with ⟨-, hp⟩ | ⟨-, hm⟩
    · obtain rfl := AvatarProc.collecting.inj hp
      rcases threatens_gcStep hthreatens with hold | ⟨extra, nowMs, rfl, hmissed, hlate⟩
      · exact hinv.spared i gc hash hproc hwas hold
      -- what was not read is not live
      have hpast : nowMs ≤ w.clockMs := hnow nowMs rfl
      rcases hwas with (h | h) | ⟨j, m, _ | time, hheld, hholds, htime⟩
      · exact hmissed (List.mem_append_left _ h)
      · rcases hinv.pools i extra nowMs hproc hash h with h | h
        · exact hmissed (List.mem_append_right _ h)
        · exact hlate h
      · have hji : j ≠ i := by
          rintro rfl
          cases hproc.symm.trans hheld
          cases hholds
        exact ((hspares j m hji hheld).reading extra nowMs hash rfl hholds).elim hmissed hlate
      · exact hlate ((hinv.keeps j m hash (some time) hheld hholds).hasSince htime hpast)
    · exact hinv.spared j gc' hash hm hwas
        (hthreatens.of_saves (hinv.clock j gc' · hm) (hsaves hash hwas))

theorem BucketInv.saves (hinv : BucketInv setup s) {move : Move ι}
    (hmoves : (avatarProgram setup parseUrl).Moves s move s') (hnamed : s.shared.References hash) :
    Saves s.shared s'.shared hash := by
  rcases hmoves with ⟨hnew, hstart⟩ | ⟨hproc, event, hstep⟩ | henv
  · exact .of_bucket rfl
  · rename_i w w' procs i p p'
    rcases p with gc | pass | sync
    · rw [avatarStep] at hstep
      split_ifs at hstep
      cases hstep
      exact saves_gcStep (hinv.spared i gc hash hproc (.inl hnamed))
    · obtain ⟨out, hout, hpair⟩ := Option.map_eq_some_iff.mp hstep
      cases hpair
      have hwrites : AvatarWrites setup parseUrl w out.1 (.storing pass) (.storing out.2) :=
        writes_storeStep (hinv.proper i _ hproc) hout
      exact hwrites.saves
    · obtain ⟨out, hout, hpair⟩ := Option.map_eq_some_iff.mp hstep
      cases hpair
      have hwrites : AvatarWrites setup parseUrl w out.1 (.syncing sync) (.syncing out.2) :=
        writes_syncAvatarStep hout
      exact hwrites.saves
  · exact .of_renews henv.bucket

theorem bucketInv_of_reachable (h : (((avatarProgram setup parseUrl).system ι
    BucketWorld.Complete).restrict (avatarCondition setup parseUrl).Met).Reachable s) :
    BucketInv setup s := by
  refine h.invariant ?_ ?_
  · rintro ⟨w, procs⟩ ⟨hcomplete, hnone⟩
    have hno : ∀ i p, procs i ≠ some p := fun i p hproc =>
      Option.some_ne_none p (hproc.symm.trans (hnone i))
    exact ⟨hcomplete, fun i p _ _ hproc => absurd hproc (hno i p),
      fun i p hproc => absurd hproc (hno i p), fun i _ _ hproc => absurd hproc (hno i _),
      fun i _ _ hproc => absurd hproc (hno i _), fun i _ _ hproc => absurd hproc (hno i _)⟩
  · rintro _ _ _ hinv ⟨hmet, ⟨hnew, hstart⟩ | ⟨hproc, hstep⟩ | henv⟩
    · exact hinv.start hstart
    · rename_i w w' procs i p p'
      obtain ⟨-, hmet⟩ := hmet
      obtain ⟨hmover, hspares⟩ := hmet p hproc
      obtain ⟨event, hstep⟩ := hstep
      rcases p with gc | pass | sync
      · rw [avatarStep] at hstep
        split_ifs at hstep
        cases hstep
        exact hinv.collects hproc (fun extra hgc => hmover extra (congrArg _ hgc)) hspares
      · obtain ⟨out, hout, hpair⟩ := Option.map_eq_some_iff.mp hstep
        cases hpair
        refine hinv.writes hproc (fun _ => by simp) hspares ?_
        exact writes_storeStep (hinv.proper i _ hproc) hout
      · obtain ⟨out, hout, hpair⟩ := Option.map_eq_some_iff.mp hstep
        cases hpair
        refine hinv.writes hproc (fun _ => by simp) hspares ?_
        exact writes_syncAvatarStep hout
    · exact hinv.env henv

end Invariant

/-! ### The avatars -/

section

variable {δ ι : Type*} [DecidableEq ι] {setup : DrepSyncSetup δ}
  {parseUrl : String → Option ImageUrl} {s : Interleaved BucketWorld (AvatarProc δ) ι}

/-- **The avatars of a run.** In runs that meet the condition every named hash has its object, and
runs of the collector alone end and leave none of those unnamed and old at their start. -/
theorem avatars_of_reachable (h : (((avatarProgram setup parseUrl).system ι
    BucketWorld.Complete).restrict (avatarCondition setup parseUrl).Met).Reachable s) :
    s.shared.Complete ∧
      (∀ move s', (((avatarProgram setup parseUrl).system ι BucketWorld.Complete).restrict
          (avatarCondition setup parseUrl).Met).Step s move s' →
        ∀ hash, s.shared.bucket.Has (avatarKey hash) → ¬s'.shared.bucket.Has (avatarKey hash) →
          ¬s.shared.References hash) ∧
      ∀ w : BucketWorld, (∃ w', CollectsAlone w w') ∧
        ∀ w', GcRuns w.bucket.rows.length w w' → ∀ o ∈ w'.bucket.rows, ¬w.Unused o := by
  refine ⟨(bucketInv_of_reachable h).complete, fun move s' hstep hash hhas hgone hnamed => ?_,
    fun w => ⟨?_, fun w' hruns o => collected_of_gcRuns hruns⟩⟩
  · exact hgone (((bucketInv_of_reachable h).saves hstep.2 hnamed).has hhas)
  · obtain ⟨w', halone, -⟩ := collects_alone w
    exact ⟨w', halone⟩

end

/-! ### A stored avatar and a lost one -/

def samplePlain : DrepSyncSetup Unit where
  extractCip119Profile _ := ⟨.blank, none, none, none⟩
  ingestDataUriAvatar := none
  maxAnchorFetches := 0

def sampleParseUrl (rawUrl : String) : Option ImageUrl :=
  if rawUrl = "https://ada.example/me.png" then some ⟨"https:", "ada.example", "/me.png"⟩ else none

/-- A DRep whose image is to be stored, and an old object with the same bytes that no row names. -/
def sampleBucketWorld : BucketWorld where
  clockMs := 2 * AVATAR_GC_GRACE_MS
  dreps := ⟨[{
    drepId := "ada", hex := none, hasScript := false, status := "registered", active := true,
    deposit := none, votingPower := none, expiresEpochNo := none, delegatorCount := none,
    delegatorCountSyncedAt := none, toProfileText := .blank,
    imageUrl := some "https://ada.example/me.png", imageContentHash := none,
    imageStoredUrl := none, anchorUrl := none, anchorHash := none, anchorStatus := .no_anchor,
    profileExtractVersion := 0, imageFetchFailedAt := none, metadataLastUpdatedAt := none,
    lastSyncedAt := 0, createdAt := 0, imageFetchAttempts := 0 }], by decide⟩
  pools := .empty
  bucket := ⟨[⟨avatarKey "bytes", 0⟩], by decide⟩

theorem complete_sampleBucketWorld : sampleBucketWorld.Complete := by
  rintro hash (h | h) <;> cases h

def samplePassStart : AvatarProc Unit := .storing ⟨.drep, sampleBucketWorld.clockMs, .clearing⟩

def sampleStoring : List StoreEvent :=
  [.proceeds, .proceeds, .fetched (some "bytes"), .proceeds, .proceeds, .proceeds]

def AvatarProc.ended {δ : Type*} : AvatarProc δ → Bool
  | .collecting gc => gc == .done
  | .storing pass => pass.stage == .done
  | .syncing sync => sync.stage == .done

section

variable {ι : Type*} [DecidableEq ι]

theorem reachable_start_avatars {w : BucketWorld} {procs : ι → Option (AvatarProc Unit)} {i : ι}
    {p : AvatarProc Unit}
    (h : (((avatarProgram samplePlain sampleParseUrl).system ι BucketWorld.Complete).restrict
      (avatarCondition samplePlain sampleParseUrl).Met).Reachable ⟨w, procs⟩)
    (hnew : procs i = none) (hstart : p.Starts w) :
    (((avatarProgram samplePlain sampleParseUrl).system ι BucketWorld.Complete).restrict
      (avatarCondition samplePlain sampleParseUrl).Met).Reachable
        ⟨w, Function.update procs i (some p)⟩ :=
  Program.reachable_start h trivial hnew hstart

end

def storeOnlyStep (event : StoreEvent) (w : BucketWorld) (p : AvatarProc Unit) :
    Option (BucketWorld × AvatarProc Unit) :=
  match p with
  | .storing _ => avatarStep samplePlain sampleParseUrl event w p
  | _ => none

def samplePassAlone : Interleaved BucketWorld (AvatarProc Unit) Unit :=
  ⟨sampleBucketWorld, Function.update (fun _ => none) () (some samplePassStart)⟩

theorem isSome_sampleStored : (Program.run storeOnlyStep (sampleStoring.map (Prod.mk ()))
    samplePassAlone).isSome := by
  decide +kernel

def sampleStored : Interleaved BucketWorld (AvatarProc Unit) Unit :=
  (Program.run storeOnlyStep (sampleStoring.map (Prod.mk ())) samplePassAlone).get
    isSome_sampleStored

theorem reachable_sampleStored :
    (((avatarProgram samplePlain sampleParseUrl).system Unit BucketWorld.Complete).restrict
      (avatarCondition samplePlain sampleParseUrl).Met).Reachable sampleStored := by
  have hstart := reachable_start_avatars (ι := Unit) (w := sampleBucketWorld)
    (.init ⟨complete_sampleBucketWorld, fun _ => rfl⟩) (i := ()) (p := samplePassStart) rfl
    ⟨rfl, rfl⟩
  refine Program.reachable_runMet (fun s i event p w' p' hproc hstep => ?_) hstart _ _
  rcases p with gc | pass | sync
  · exact nomatch hstep
  · refine ⟨⟨event, hstep⟩, trivial, fun q hq => ⟨fun extra hpooled => ?_, fun j m hji => ?_⟩⟩
    · cases hproc.symm.trans hq
      cases hpooled
    · exact absurd (Subsingleton.elim j i) hji
  · exact nomatch hstep

/-- A pass has stored the image of a DRep: her row names an object that is there. -/
theorem avatars_of_reachable_stored : sampleStored.shared.References "bytes" ∧
    sampleStored.shared.bucket.Has (avatarKey "bytes") :=
  have hnamed : sampleStored.shared.References "bytes" := by decide +kernel
  ⟨hnamed, (avatars_of_reachable reachable_sampleStored).1 "bytes" hnamed⟩

def sampleBucketStart : Interleaved BucketWorld (AvatarProc Unit) Bool where
  shared := sampleBucketWorld
  procs := Function.update (Function.update (fun _ => none) false (some (.collecting .starting)))
    true (some samplePassStart)

/-- The collector lists the object before the pass puts it again, and deletes it after the pass has
named it. -/
def sampleLoss : List (Bool × StoreEvent) :=
  List.replicate 4 (false, .proceeds) ++ sampleStoring.map (Prod.mk true) ++
    List.replicate 4 (false, .proceeds)

theorem isSome_sampleLost : (Program.run (avatarStep samplePlain sampleParseUrl) sampleLoss
    sampleBucketStart).isSome := by
  decide +kernel

def sampleLost : Interleaved BucketWorld (AvatarProc Unit) Bool :=
  (Program.run (avatarStep samplePlain sampleParseUrl) sampleLoss sampleBucketStart).get
    isSome_sampleLost

/-- In a state with nothing in flight, a row may name an object that was deleted. -/
theorem not_avatars : ¬ ∀ s : Interleaved BucketWorld (AvatarProc Unit) Bool,
    ((avatarProgram samplePlain sampleParseUrl).system Bool BucketWorld.Complete).Reachable s →
      (∀ i p, s.procs i = some p → p.ended = true) → s.shared.Complete := by
  intro hall
  have hcollector := reachable_start_avatars (ι := Bool) (w := sampleBucketWorld)
    (.init ⟨complete_sampleBucketWorld, fun _ => rfl⟩) (i := false) (p := .collecting .starting)
    rfl rfl
  have hboth := reachable_start_avatars (i := true) (p := samplePassStart) hcollector rfl ⟨rfl, rfl⟩
  have hstep : ∀ event w p w' p',
      avatarStep samplePlain sampleParseUrl event w p = some (w', p') →
        (avatarProgram samplePlain sampleParseUrl).Step w p w' p' :=
    fun event _ _ _ _ hstep => ⟨event, hstep⟩
  have hlost := Program.reachable_run hstep hboth.of_restrict sampleLoss isSome_sampleLost
  have hended : ∀ i, (sampleLost.procs i).all (·.ended) = true := by decide +kernel
  have hcomplete := hall sampleLost hlost fun i p hproc => by
    have hi := hended i
    rwa [hproc] at hi
  exact absurd (hcomplete "bytes" (by decide +kernel)) (by decide +kernel)

end DrepTalk
