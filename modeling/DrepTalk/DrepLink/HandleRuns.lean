import DrepTalk.DrepLink.Handles
import DrepTalk.Library.Interleaving

/-!
# Runs of handle changes

Overlapping calls of `claimHandleRequest`, `insertAutoHandles` and `runHandleLifecycle` over one
table of handles, each with the time it has read when it started.

**What a table keeps** (`HandlesRight`). A live handle resolves to one DRep; a DRep has at most one
primary and at most one live previous handle; a handle changes its owner only after a state in which
it has expired; a claim that fails has written nothing; and two claims of one DRep are a cooldown
apart.

A request checks the rules on the rows it has read, and its batch recognizes the primary it demotes
by the handle alone. Where that handle has expired in between and has been claimed anew, by the same
DRep, the batch takes the new primary for the one that was read (`not_handlesRight`). In every run
in which the primary that is demoted is the row that was read, and no call takes longer than half
the cooldown, all of it holds (`handlesRight`).
-/

namespace DrepTalk

/-! ### Requests -/

/-- A request that has passed its own checks: the DRep of the user, the normalized handle, the
primary the form has shown, and the time. -/
structure ClaimArgs where
  drepId : String
  handle : Text
  expected : Option Text
  now : ℤ

inductive ClaimResponse
  | refused (status : ℕ) (error : String)
  | policy (error : ClaimError) (until_ : Option ℤ)
  | claimed (handle : Text) (previous : Option (Text × ℤ)) (cooldownUntil : ℤ)

structure HandleClaim where
  drepId : String
  handle : Text
  stamp : ℤ
  deriving DecidableEq

/-- The clock, the tables, and the claims that have succeeded, newest first. -/
structure HandleWorld where
  clock : ℤ
  seeded : Bool
  dreps : HandleDrepTable
  handles : HandleTable
  claims : List HandleClaim

/-- Where a call stands: before the statement that is named, with what it has read. -/
inductive HandleProc
  | isSeeded (a : ClaimArgs)
  | getDrep (a : ClaimArgs)
  | listHandles (a : ClaimArgs)
  | writing (a : ClaimArgs) (rows : List HandleRow)
  | resolving (a : ClaimArgs) (rows : List HandleRow)
  | comparing (a : ClaimArgs) (rows : List HandleRow)
  | answered (a : ClaimArgs) (r : ClaimResponse)
  | insertAuto (now : ℤ) (todo : List AutoHandle) (decided : List String) (inserted : ℕ)
  | inserted (n : ℕ)
  | lifecycle (now : ℤ)
  | cycled (c : HandleCycle)
  | threw

/-- The handle of the primary that was read. -/
def currentOf (rows : List HandleRow) : Option Text := (primaryAmong rows).map (·.handle)

def ClaimArgs.write (a : ClaimArgs) (rows : List HandleRow) : ClaimWrite :=
  ⟨a.drepId, a.handle, currentOf rows, a.now⟩

/-- The checks on the rows that were read. -/
def ClaimArgs.checked (a : ClaimArgs) (rows : List HandleRow) : HandleProc :=
  match checkClaimPolicy a.handle a.drepId rows a.now with
  | some (error, t) => .answered a (.policy error t)
  | none =>
    if a.expected ≠ currentOf rows then .answered a (.refused 409 "stale") else .writing a rows

/-- The answer of a claim that has succeeded. -/
def ClaimArgs.success (a : ClaimArgs) (rows : List HandleRow) : ClaimResponse :=
  .claimed a.handle ((currentOf rows).map fun current => (current, a.now + GRACE_SEC))
    (a.now + COOLDOWN_SEC)

/-- The next statement of a call, which may fail. -/
def handleStep (fails : Bool) (w : HandleWorld) : HandleProc → Option (HandleWorld × HandleProc)
  | .isSeeded a =>
    some (w,
      if fails then .threw
      else if !w.seeded then .answered a (.refused 503 "not_open")
      else .getDrep a)
  | .getDrep a =>
    some (w,
      if fails then .threw
      else
        match getDrepById w.dreps a.drepId with
        | none => .answered a (.refused 409 "not_synced")
        | some drep =>
          if drep.status ≠ "registered" then .answered a (.refused 403 "not_registered")
          else .listHandles a)
  | .listHandles a =>
    some (w, if fails then .threw else a.checked (listDrepHandles w.handles a.drepId a.now))
  | .writing a rows =>
    match if fails then none else writeClaim w.handles (a.write rows) with
    | some handles =>
      some ({ w with handles := handles, claims := ⟨a.drepId, a.handle, a.now⟩ :: w.claims },
        .answered a (a.success rows))
    | none => some (w, .resolving a rows)
  | .resolving a rows =>
    some (w,
      if fails then .threw
      else
        match resolveHandle w.handles w.dreps a.handle a.now with
        | some (drepId, _) =>
          if drepId ≠ a.drepId then .answered a (.refused 409 "taken") else .comparing a rows
        | none => .comparing a rows)
  | .comparing a rows =>
    some (w,
      if fails then .threw
      else if getPrimaryHandle w.handles a.drepId a.now ≠ currentOf rows then
        .answered a (.refused 409 "stale")
      else .threw)
  | .insertAuto now todo decided inserted =>
    if fails then some (w, .threw)
    else if todo.isEmpty then
      -- the stamps come last
      some ({ w with dreps := stampDecided now (decided.take AUTO_CHUNK) w.dreps },
        if decided.drop AUTO_CHUNK = [] then .inserted inserted
        else .insertAuto now [] (decided.drop AUTO_CHUNK) inserted)
    else
      some ({ w with handles := insertAutoChunk now (todo.take AUTO_CHUNK) w.handles },
        .insertAuto now (todo.drop AUTO_CHUNK) decided
          (inserted + insertedBy now (todo.take AUTO_CHUNK) w.handles))
  | .lifecycle now =>
    if fails then some (w, .threw)
    else
      let (handles, c) := runHandleLifecycle now w.dreps w.handles
      some ({ w with handles := handles }, .cycled c)
  | .answered _ _ | .inserted _ | .cycled _ | .threw => none

/-- A call starts, and reads the clock. -/
inductive HandleStart : HandleWorld → HandleProc → Prop
  | claim (w : HandleWorld) (drepId : String) (handle : Text) (expected : Option Text) :
      HandleStart w (.isSeeded ⟨drepId, handle, expected, w.clock⟩)
  | auto (w : HandleWorld) (rows : List AutoHandle) (decided : List String) :
      HandleStart w (.insertAuto w.clock rows decided 0)
  | lifecycle (w : HandleWorld) : HandleStart w (.lifecycle w.clock)

/-- Time passes, and the site writes `dreps` and the marker of the seed. -/
structure HandleEnv (w w' : HandleWorld) : Prop where
  clock : w.clock ≤ w'.clock
  handles : w'.handles = w.handles
  claims : w'.claims = w.claims

/-- The handles before the first call: the seed has written at most one previous handle for a
DRep. -/
structure SeededHandles (w : HandleWorld) : Prop where
  claims : w.claims = []
  previous : ∀ r ∈ w.handles.rows, ∀ r' ∈ w.handles.rows, r.isPrimary = false →
    r'.isPrimary = false → r.isLive w.clock = true → r'.isLive w.clock = true →
      r.drepId = r'.drepId → r = r'

def handleProgram : Program HandleWorld HandleProc where
  Start := HandleStart
  Step w l w' l' := ∃ fails, handleStep fails w l = some (w', l')
  Env := HandleEnv

/-! ### The condition -/

def PROMPT_SEC : ℤ := 45 * 86400

/-- The clock reading of a call that has not ended. -/
def HandleProc.now? : HandleProc → Option ℤ
  | .isSeeded a | .getDrep a | .listHandles a | .writing a _ | .resolving a _ | .comparing a _ =>
    some a.now
  | .insertAuto now _ _ _ | .lifecycle now => some now
  | .answered _ _ | .inserted _ | .cycled _ | .threw => none

/-- A primary that the batch demotes is the row that was read. -/
def HandleProc.DemotesRead (w : HandleWorld) : HandleProc → Prop
  | .writing a rows => ∀ r ∈ w.handles.rows, r.drepId = a.drepId → r.isPrimary = true →
      some r.handle = currentOf rows →
        (primaryAmong rows).map (fun p => (p.source, p.createdAt)) = some (r.source, r.createdAt)
  | _ => True

instance (w : HandleWorld) (l : HandleProc) : Decidable (l.DemotesRead w) :=
  match l with
  | .writing a rows => inferInstanceAs (Decidable (∀ r ∈ w.handles.rows, r.drepId = a.drepId →
      r.isPrimary = true → some r.handle = currentOf rows →
        (primaryAmong rows).map (fun p => (p.source, p.createdAt)) = some (r.source, r.createdAt)))
  | .isSeeded _ | .getDrep _ | .listHandles _ | .resolving _ _ | .comparing _ _ | .answered _ _
  | .insertAuto _ _ _ _ | .inserted _ | .lifecycle _ | .cycled _ | .threw => .isTrue trivial

/-- The condition on a run: a call is prompt, and demotes what it has read. -/
def demotesRead : Program.Condition HandleWorld HandleProc where
  state _ := True
  mover w l := (∀ now ∈ l.now?, w.clock < now + PROMPT_SEC) ∧ l.DemotesRead w
  others _ _ _ := True

/-! ### What holds of the table -/

/-- A call of `claimHandleRequest`. -/
def HandleProc.IsClaim : HandleProc → Prop
  | .isSeeded _ | .getDrep _ | .listHandles _ | .writing _ _ | .resolving _ _ | .comparing _ _
  | .answered _ _ => True
  | _ => False

/-- What the claims about a run come to, in a state of a system of runs. -/
structure HandlesRight {ι : Type*} (M : TransitionSystem (Interleaved HandleWorld HandleProc ι)
    (Move ι)) (s : Interleaved HandleWorld HandleProc ι) : Prop where
  /-- A live handle resolves to its DRep, and to no other. -/
  resolves : ∀ r ∈ s.shared.handles.rows, r.isLive s.shared.clock = true →
    (resolveHandle s.shared.handles s.shared.dreps r.handle s.shared.clock).map (·.1) =
      some r.drepId
  onePrimary : ∀ r ∈ s.shared.handles.rows, ∀ r' ∈ s.shared.handles.rows, r.isPrimary = true →
    r'.isPrimary = true → r.drepId = r'.drepId → r = r'
  onePrevious : ∀ r ∈ s.shared.handles.rows, ∀ r' ∈ s.shared.handles.rows,
    r.isPrimary = false → r'.isPrimary = false → r.isLive s.shared.clock = true →
      r'.isLive s.shared.clock = true → r.drepId = r'.drepId → r = r'
  /-- A handle that belongs to another DRep later on has been expired in between. -/
  keepsOwner : ∀ s', M.Leads s s' → ∀ r ∈ s.shared.handles.rows, ∀ r' ∈ s'.shared.handles.rows,
    r'.handle = r.handle → r'.drepId ≠ r.drepId → ∃ t, M.Leads s t ∧ M.Leads t s' ∧
      ∃ q ∈ t.shared.handles.rows, q.handle = r.handle ∧ q.drepId = r.drepId ∧
        q.isExpired t.shared.clock = true
  /-- The only statement of a claim that changes the table is one that succeeds. -/
  failsUnchanged : ∀ i l s', s.procs i = some l → l.IsClaim → M.Step s (.step i) s' →
    s'.shared.handles = s.shared.handles ∨
      ∃ a rows, s'.procs i = some (.answered a (ClaimArgs.success a rows))
  cooledDown : s.shared.claims.Pairwise fun b a =>
    b.drepId = a.drepId → a.stamp + COOLDOWN_SEC ≤ b.stamp

/-! ### Expiry -/

variable {now : ℤ} {r : HandleRow}

theorem isExpired_iff :
    r.isExpired now = true ↔ ∃ x, r.releasedAt = some x ∧ x ≤ now := by
  rw [HandleRow.isExpired]
  rcases r.releasedAt with _ | x <;> simp

theorem isLive_iff :
    r.isLive now = true ↔ ∀ x, r.releasedAt = some x → now < x := by
  rw [HandleRow.isLive]
  rcases r.releasedAt with _ | x <;> simp

theorem isLive_iff_not_isExpired :
    r.isLive now = true ↔ ¬r.isExpired now = true := by
  rw [isLive_iff, isExpired_iff, not_exists]
  exact forall_congr' fun x => by rw [not_and, not_le]

theorem HandleRow.isExpired_mono {now' : ℤ} (h : r.isExpired now = true) (hle : now ≤ now') :
    r.isExpired now' = true := by
  obtain ⟨x, hx, hxnow⟩ := isExpired_iff.mp h
  exact isExpired_iff.mpr ⟨x, hx, hxnow.trans hle⟩

/-! ### Statements of the gov-sync phase -/

/-- A row, some statements later: its grace period ends when it did, or a good while from now, and
that of a previous handle does not end later. -/
structure HandleRow.Ages (clock : ℤ) (r r' : HandleRow) : Prop where
  handle : r'.handle = r.handle
  drepId : r'.drepId = r.drepId
  source : r'.source = r.source
  isPrimary : r'.isPrimary = r.isPrimary
  createdAt : r'.createdAt = r.createdAt
  released : r'.releasedAt = r.releasedAt ∨
    ∀ x, r'.releasedAt = some x → clock + (GRACE_SEC - PROMPT_SEC) < x
  previous : r.isPrimary = false → ∀ now, r'.isLive now = true → r.isLive now = true

theorem HandleRow.Ages.refl (clock : ℤ) (r : HandleRow) : r.Ages clock r :=
  ⟨rfl, rfl, rfl, rfl, rfl, .inl rfl, fun _ _ h => h⟩

variable {clock : ℤ}

theorem HandleRow.Ages.trans {r' r'' : HandleRow} (h : r.Ages clock r') (h' : r'.Ages clock r'') :
    r.Ages clock r'' where
  handle := h'.handle.trans h.handle
  drepId := h'.drepId.trans h.drepId
  source := h'.source.trans h.source
  isPrimary := h'.isPrimary.trans h.isPrimary
  createdAt := h'.createdAt.trans h.createdAt
  released := by
    rcases h'.released with hsame | hfar
    · rcases h.released with hsame' | hfar'
      · exact .inl (hsame.trans hsame')
      · exact .inr (hsame ▸ hfar')
    · exact .inr hfar
  previous hprev now hlive := h.previous hprev now (h'.previous (h.isPrimary.trans hprev) now hlive)

theorem HandleRow.Ages.expired {r' : HandleRow} (h : r.Ages clock r')
    (hexp : r'.isExpired clock = true) : r.isExpired clock = true := by
  obtain ⟨x, hx, hle⟩ := isExpired_iff.mp hexp
  rcases h.released with hsame | hfar
  · exact isExpired_iff.mpr ⟨x, hsame ▸ hx, hle⟩
  · have hgrace : clock + (GRACE_SEC - PROMPT_SEC) < x := hfar x hx
    have hpos : 0 < GRACE_SEC - PROMPT_SEC := by decide
    omega

/-- Statements after which the rows are the same, up to those that have expired, and new
primaries. -/
structure QuietHandles (clock : ℤ) (t t' : HandleTable) : Prop where
  kept : ∀ r ∈ t.rows, r.isExpired clock = true ∨ ∃ r' ∈ t'.rows, r.Ages clock r'
  come : ∀ r' ∈ t'.rows, r'.isPrimary = true ∨ ∃ r ∈ t.rows, r.Ages clock r'

theorem QuietHandles.refl (clock : ℤ) (t : HandleTable) : QuietHandles clock t t where
  kept r hr := .inr ⟨r, hr, .refl clock r⟩
  come r hr := .inr ⟨r, hr, .refl clock r⟩

variable {t : HandleTable}

theorem QuietHandles.trans {t' t'' : HandleTable} (h : QuietHandles clock t t')
    (h' : QuietHandles clock t' t'') : QuietHandles clock t t'' where
  kept r hr := by
    rcases h.kept r hr with hexp | ⟨r', hr', hages⟩
    · exact .inl hexp
    · rcases h'.kept r' hr' with hexp | ⟨r'', hr'', hages'⟩
      · exact .inl (hages.expired hexp)
      · exact .inr ⟨r'', hr'', hages.trans hages'⟩
  come r'' hr'' := by
    rcases h'.come r'' hr'' with hnew | ⟨r', hr', hages'⟩
    · exact .inl hnew
    · rcases h.come r' hr' with hnew | ⟨r, hr, hages⟩
      · exact .inl (hages'.isPrimary.trans hnew)
      · exact .inr ⟨r, hr, hages.trans hages'⟩

theorem QuietHandles.foldl {α : Type*} {f : HandleTable → α → HandleTable}
    (h : ∀ t a, QuietHandles clock t (f t a)) (l : List α) (t : HandleTable) :
    QuietHandles clock t (l.foldl f t) := by
  induction l generalizing t with
  | nil => exact .refl clock t
  | cons a l ih => exact (h t a).trans (ih (f t a))

variable {p : HandleRow → Bool} {claims : List HandleClaim} {rows' : List HandleRow}

theorem quiet_deleteWhere (hnow : now ≤ clock) (t : HandleTable)
    (hp : ∀ r, p r = true → r.isExpired now = true) :
    QuietHandles clock t (t.deleteWhere p) where
  kept r hr := by
    rcases hpr : p r with _ | _
    · exact .inr ⟨r, Table.mem_deleteWhere.mpr ⟨hr, hpr⟩, .refl clock r⟩
    · exact .inl (HandleRow.isExpired_mono (hp r hpr) hnow)
  come r hr := .inr ⟨r, (Table.mem_deleteWhere.mp hr).1, .refl clock r⟩

theorem quiet_updateWhere (t : HandleTable) {f : HandleRow → HandleRow}
    (hages : ∀ r, p r = true → r.Ages clock (f r))
    (hkey : ∀ r, p r = true → (f r).handle = r.handle)
    (hkey' : ∀ r, p r = true → (f r).primaryOf = r.primaryOf ∨ (f r).primaryOf = none) :
    QuietHandles clock t (t.updateWhere p f hkey hkey') where
  kept r hr := by
    refine .inr ⟨_, Table.mem_updateWhere_of_mem p f hr, ?_⟩
    split_ifs with hp
    · exact hages r hp
    · exact .refl clock r
  come r' hr' := by
    rcases Table.mem_updateWhere.mp hr' with ⟨hr, -⟩ | ⟨r, hr, hp, rfl⟩
    · exact .inr ⟨r', hr, .refl clock r'⟩
    · exact .inr ⟨r, hr, hages r hp⟩

theorem quiet_insertOrIgnore (clock : ℤ) (t : HandleTable) {row : HandleRow}
    (hrow : row.isPrimary = true) : QuietHandles clock t (t.insertOrIgnore row) := by
  rcases t.rows_insertOrIgnore row with hrows | hrows
  · refine ⟨fun r hr => .inr ⟨r, hrows ▸ hr, .refl clock r⟩, fun r hr => ?_⟩
    exact .inr ⟨r, hrows ▸ hr, .refl clock r⟩
  · refine ⟨fun r hr => .inr ⟨r, hrows ▸ List.mem_append_left _ hr, .refl clock r⟩, fun r hr => ?_⟩
    rcases List.mem_append.mp (hrows ▸ hr) with hr | hr
    · exact .inr ⟨r, hr, .refl clock r⟩
    · exact .inl (List.mem_singleton.mp hr ▸ hrow)

theorem quiet_insertAutoChunk (hnow : now ≤ clock) (chunk : List AutoHandle) (t : HandleTable) :
    QuietHandles clock t (insertAutoChunk now chunk t) := by
  have hclear : QuietHandles clock t (clearExpiredAuto now chunk t) :=
    .foldl (fun t _ => quiet_deleteWhere hnow t fun r h => (Bool.and_eq_true_iff.mp h).2) chunk t
  exact hclear.trans (.foldl (fun t r => quiet_insertOrIgnore clock t rfl) chunk _)

theorem quiet_runHandleLifecycle (hnow : now ≤ clock) (hprompt : clock < now + PROMPT_SEC)
    (dreps : HandleDrepTable) (t : HandleTable) :
    QuietHandles clock t (runHandleLifecycle now dreps t).1 := by
  have hgrace : QuietHandles clock t (startGrace now dreps t) := by
    refine quiet_updateWhere t (fun r hr => ?_) _ _
    have hnone : r.releasedAt = none := Option.isNone_iff_eq_none.mp (Bool.and_eq_true_iff.mp hr).1
    refine ⟨rfl, rfl, rfl, rfl, rfl, .inr ?_, fun _ τ _ => ?_⟩
    · rintro x ⟨⟩
      omega
    · exact isLive_iff.mpr fun x hx => absurd (hnone.symm.trans hx) (Option.some_ne_none x).symm
  have hrestore : QuietHandles clock (startGrace now dreps t)
      (restore now dreps (startGrace now dreps t)) := by
    refine quiet_updateWhere _ (fun r hr => ?_) _ _
    simp only [isRestored, Bool.and_eq_true] at hr
    exact ⟨rfl, rfl, rfl, rfl, rfl, .inr nofun, fun hprev => by simp [hprev] at hr⟩
  exact (hgrace.trans hrestore).trans (quiet_deleteWhere hnow _ fun _ h => h)

/-! ### The batch of a claim -/

/-- What a claim that succeeds has done. -/
structure ClaimEffect (a : ClaimWrite) (t t' : HandleTable) : Prop where
  kept : ∀ r ∈ t.rows, r.isExpired a.now = true ∨
    ∃ r' ∈ t'.rows, r'.handle = r.handle ∧ r'.drepId = r.drepId
  foreign : ∀ r ∈ t.rows, r.drepId ≠ a.drepId → r.isExpired a.now = true ∨ r ∈ t'.rows
  written : a.row ∈ t'.rows
  come : ∀ r' ∈ t'.rows, r' = a.row ∨
    r' ∈ t.rows ∧ (r'.drepId = a.drepId → r'.isPrimary = false → r'.handle ≠ a.handle) ∨
      ∃ r : HandleRow, r' = r.demoted a.now ∧ r.drepId = a.drepId ∧ some r.handle = a.expectedCurrent
  primaries : ∀ r ∈ t.rows, r.drepId = a.drepId → r.isPrimary = true →
    r.isExpired a.now = true ∨ some r.handle = a.expectedCurrent

theorem mem_freeHandle {a : ClaimWrite} :
    r ∈ (freeHandle (dropOwnExpired t a) a).rows ↔ r ∈ t.rows ∧
      ¬(r.drepId = a.drepId ∧ r.isExpired a.now = true) ∧
        ¬(r.handle = a.handle ∧
          (r.isExpired a.now = true ∨ r.drepId = a.drepId ∧ r.isPrimary = false)) := by
  rw [← and_assoc]
  refine Table.mem_deleteWhere.trans (and_congr (Table.mem_deleteWhere.trans ?_) ?_)
  · rw [← Bool.not_eq_true, Bool.and_eq_true, beq_iff_eq]
  · rw [← Bool.not_eq_true, Bool.and_eq_true, beq_iff_eq, Bool.or_eq_true, Bool.and_eq_true,
      beq_iff_eq, Bool.not_eq_true']

theorem writeClaim_effect {t' : HandleTable} {a : ClaimWrite} (h : writeClaim t a = some t') :
    ClaimEffect a t t' := by
  rw [writeClaim] at h
  obtain ⟨hrows, hfree⟩ := PartlyKeyedTable.insert_eq_some h
  -- a row that is left over is there afterwards, demoted or not
  have hleft : ∀ r ∈ (freeHandle (dropOwnExpired t a) a).rows, r ∈ t'.rows ∨
      r.demoted a.now ∈ t'.rows ∧ r.drepId = a.drepId ∧ r.isPrimary = true ∧
        some r.handle = a.expectedCurrent := by
    intro r hr
    have hmem := Table.mem_updateWhere_of_mem (fun r => r.drepId == a.drepId && r.isPrimary &&
      some r.handle == a.expectedCurrent) (HandleRow.demoted a.now) hr
    split_ifs at hmem with hdemote
    · simp only [Bool.and_eq_true, beq_iff_eq] at hdemote
      exact .inr ⟨hrows ▸ List.mem_append_left _ hmem, hdemote.1.1, hdemote.1.2, hdemote.2⟩
    · exact .inl (hrows ▸ List.mem_append_left _ hmem)
  have hwritten : a.row ∈ t'.rows := hrows ▸ List.mem_append_right _ (List.mem_singleton_self _)
  refine ⟨fun r hr => ?_, fun r hr hforeign => ?_, hwritten, fun r' hr' => ?_,
    fun r hr hown hprimary => ?_⟩
  · rcases hexp : r.isExpired a.now with _ | _
    · by_cases hprevious : r.handle = a.handle ∧ r.drepId = a.drepId
      · exact .inr ⟨a.row, hwritten, hprevious.1.symm, hprevious.2.symm⟩
      · have hstays : r ∈ (freeHandle (dropOwnExpired t a) a).rows := by
          refine mem_freeHandle.mpr ⟨hr, by simp [hexp], fun ⟨hhandle, hgone⟩ => ?_⟩
          rcases hgone with hgone | ⟨hown, -⟩
          · cases hexp.symm.trans hgone
          · exact hprevious ⟨hhandle, hown⟩
        rcases hleft r hstays with hmem | ⟨hmem, -⟩
        · exact .inr ⟨r, hmem, rfl, rfl⟩
        · exact .inr ⟨_, hmem, rfl, rfl⟩
    · exact .inl rfl
  · rcases hexp : r.isExpired a.now with _ | _
    · have hstays : r ∈ (freeHandle (dropOwnExpired t a) a).rows :=
        mem_freeHandle.mpr ⟨hr, by simp [hexp], by simp [hexp, hforeign]⟩
      rcases hleft r hstays with hmem | ⟨-, hown, -⟩
      · exact .inr hmem
      · exact absurd hown hforeign
    · exact .inl rfl
  · rcases List.mem_append.mp (hrows ▸ hr') with hold | hnew
    · rcases Table.mem_updateWhere.mp hold with ⟨hmem, -⟩ | ⟨r, hmem, hdemote, rfl⟩
      · obtain ⟨hmem, -, hnotfreed⟩ := mem_freeHandle.mp hmem
        exact .inr (.inl ⟨hmem, fun hown hprevious hhandle =>
          hnotfreed ⟨hhandle, .inr ⟨hown, hprevious⟩⟩⟩)
      · simp only [Bool.and_eq_true, beq_iff_eq] at hdemote
        exact .inr (.inr ⟨r, rfl, hdemote.1.1, hdemote.2⟩)
    · exact .inl (List.mem_singleton.mp hnew)
  · rcases hexp : r.isExpired a.now with _ | _
    · have hstays : r ∈ (freeHandle (dropOwnExpired t a) a).rows :=
        mem_freeHandle.mpr ⟨hr, by simp [hexp], by simp [hexp, hprimary]⟩
      by_cases hcurrent : some r.handle = a.expectedCurrent
      · exact .inr hcurrent
      · -- a primary that stays keeps the new one out
        refine absurd (.inr ⟨a.drepId, rfl, ?_⟩) hfree
        have hmem := Table.mem_updateWhere_of_mem (fun r => r.drepId == a.drepId && r.isPrimary &&
          some r.handle == a.expectedCurrent) (HandleRow.demoted a.now) hstays
        rw [if_neg (by simp [hcurrent])] at hmem
        exact List.mem_filterMap.mpr ⟨r, hmem, by rw [HandleRow.primaryOf, if_pos hprimary, hown]⟩
    · exact .inl rfl

/-! ### The invariant -/

def lastClaim (claims : List HandleClaim) (drepId : String) : Option HandleClaim :=
  claims.find? (·.drepId == drepId)

variable {drepId : String}

theorem lastClaim_drepId {c : HandleClaim} (h : lastClaim claims drepId = some c) :
    c.drepId = drepId := by
  simpa using List.find?_some h

/-- The claims of a DRep are a cooldown apart. -/
def CooledDown (claims : List HandleClaim) : Prop :=
  claims.Pairwise fun b a => b.drepId = a.drepId → a.stamp + COOLDOWN_SEC ≤ b.stamp

theorem CooledDown.le_of_last (h : CooledDown claims)
    (hlast : ∀ c, lastClaim claims drepId = some c → c.stamp + COOLDOWN_SEC ≤ now) {c : HandleClaim}
    (hc : c ∈ claims) (hdrep : c.drepId = drepId) : c.stamp + COOLDOWN_SEC ≤ now := by
  induction claims with
  | nil => cases hc
  | cons b claims ih =>
    obtain ⟨hb, hrest⟩ := List.pairwise_cons.mp h
    by_cases hown : b.drepId = drepId
    · have hnow : b.stamp + COOLDOWN_SEC ≤ now :=
        hlast b (by rw [lastClaim, List.find?_cons_of_pos (by simpa using hown)])
      rcases List.mem_cons.mp hc with rfl | hc
      · exact hnow
      · have hafter : c.stamp + COOLDOWN_SEC ≤ b.stamp := hb c hc (hown.trans hdrep.symm)
        have hpos : 0 < COOLDOWN_SEC := by decide
        omega
    · rcases List.mem_cons.mp hc with rfl | hc
      · exact absurd hdrep hown
      · refine ih hrest (fun c' hc' => hlast c' ?_) hc
        rwa [lastClaim, List.find?_cons_of_neg (by simpa using hown)]

/-- The primary of a claim is there, for a good while. -/
def Covers (t : HandleTable) (c : HandleClaim) : Prop :=
  ∃ r ∈ t.rows, r.drepId = c.drepId ∧ r.isPrimary = true ∧ r.source = .claim ∧
    r.createdAt = c.stamp ∧ ∀ x, r.releasedAt = some x → c.stamp + (GRACE_SEC - PROMPT_SEC) ≤ x

/-- At most one previous handle of a DRep is live. -/
def OnePrevious (clock : ℤ) (t : HandleTable) : Prop :=
  ∀ r ∈ t.rows, ∀ r' ∈ t.rows, r.isPrimary = false → r'.isPrimary = false →
    r.isLive clock = true → r'.isLive clock = true → r.drepId = r'.drepId → r = r'

structure HandlesSafe (w : HandleWorld) : Prop where
  cooledDown : CooledDown w.claims
  past : ∀ c ∈ w.claims, c.stamp ≤ w.clock
  onePrevious : OnePrevious w.clock w.handles
  covers : ∀ drepId c, lastClaim w.claims drepId = some c →
    c.stamp + (GRACE_SEC - PROMPT_SEC) ≤ w.clock ∨ Covers w.handles c

/-- The DRep has claimed a handle since a call has read its rows. -/
def Overtaken (w : HandleWorld) (drepId : String) (now : ℤ) : Prop :=
  ∃ c, lastClaim w.claims drepId = some c ∧ now - PROMPT_SEC < c.stamp

/-- What the rows have said that a call has read. -/
structure HasRead (w : HandleWorld) (a : ClaimArgs) (rows : List HandleRow) : Prop where
  now_le : a.now ≤ w.clock
  policy : ∀ p, primaryAmong rows = some p → p.source = .claim →
    p.createdAt + COOLDOWN_SEC ≤ a.now
  fresh : Overtaken w a.drepId a.now ∨
    (∀ c, lastClaim w.claims a.drepId = some c → c.stamp + COOLDOWN_SEC ≤ a.now) ∧
      ∀ r ∈ w.handles.rows, r.drepId = a.drepId → r.isPrimary = false → r.handle ≠ a.handle →
        r.isExpired w.clock = true

def HandleProc.Asserts (w : HandleWorld) : HandleProc → Prop
  | .isSeeded a | .getDrep a | .listHandles a => a.now ≤ w.clock
  | .writing a rows => HasRead w a rows
  | .insertAuto now _ _ _ | .lifecycle now => now ≤ w.clock
  | .resolving _ _ | .comparing _ _ | .answered _ _ | .inserted _ | .cycled _ | .threw => True

/-! ### Reading -/

theorem mem_listDrepHandles :
    r ∈ listDrepHandles t drepId now ↔ r ∈ t.rows ∧ r.drepId = drepId ∧ r.isLive now = true := by
  rw [listDrepHandles, List.mem_insertionSort, List.mem_filter, Bool.and_eq_true, beq_iff_eq]

variable {rows : List HandleRow}

theorem policy_of_none {handle : Text} (h : checkClaimPolicy handle drepId rows now = none) :
    (∀ t, cooldownUntil (primaryAmong rows) = some t → t ≤ now) ∧
      ∀ r ∈ rows, r.isPrimary = false → r.handle = handle := by
  rw [checkClaimPolicy] at h
  split at h
  · cases h
  · dsimp only at h
    split_ifs at h with hsame hcooling
    refine ⟨fun t ht => not_lt.mp fun hlt => hcooling ⟨t, ht, hlt⟩, fun r hr hprevious => ?_⟩
    split at h
    · cases h
    · rename_i hnone
      simpa [hprevious] using List.find?_eq_none.mp hnone r hr

variable {a : ClaimArgs}

theorem checked_eq_writing {a' : ClaimArgs} (h : a.checked rows = .writing a' rows') :
    checkClaimPolicy a.handle a.drepId rows a.now = none ∧ a' = a ∧ rows' = rows := by
  rw [ClaimArgs.checked] at h
  rcases hpolicy : checkClaimPolicy a.handle a.drepId rows a.now with _ | ⟨error, t⟩
  · rw [hpolicy] at h
    split_ifs at h
    cases h
    exact ⟨rfl, rfl, rfl⟩
  · rw [hpolicy] at h
    cases h

variable {w : HandleWorld}

/-- **Reading.** A call that may write has read that its DRep has cooled down, and has no other
previous handle. -/
theorem HandlesSafe.hasRead {w : HandleWorld} (hw : HandlesSafe w) {a : ClaimArgs}
    (hnow : a.now ≤ w.clock) (hprompt : w.clock < a.now + PROMPT_SEC)
    (hpolicy : checkClaimPolicy a.handle a.drepId (listDrepHandles w.handles a.drepId a.now) a.now =
      none) : HasRead w a (listDrepHandles w.handles a.drepId a.now) := by
  obtain ⟨hcool, hprevious⟩ := policy_of_none hpolicy
  have hclaimed : ∀ p, primaryAmong (listDrepHandles w.handles a.drepId a.now) = some p →
      p.source = .claim → p.createdAt + COOLDOWN_SEC ≤ a.now := fun p hp hsource =>
    hcool _ (by rw [hp, cooldownUntil, if_neg (by simp [hsource])])
  refine ⟨hnow, hclaimed, .inr ⟨fun c hlast => ?_, fun r hr hown hprev hother => ?_⟩⟩
  · have hgrace : COOLDOWN_SEC + PROMPT_SEC = GRACE_SEC - PROMPT_SEC := by decide
    have hpos : 0 < PROMPT_SEC := by decide
    rcases hw.covers a.drepId c hlast with hpast | ⟨r, hr, hown, hprimary, hsource, hstamp, hfar⟩
    · omega
    · by_cases hexp : r.isExpired a.now = true
      · obtain ⟨x, hx, hle⟩ := isExpired_iff.mp hexp
        have hx' := hfar x hx
        omega
      · -- the primary of the last claim is the one that was read
        have hown' : r.drepId = a.drepId := hown.trans (lastClaim_drepId hlast)
        have hread := mem_listDrepHandles.mpr ⟨hr, hown', isLive_iff_not_isExpired.mpr hexp⟩
        obtain ⟨p, hp⟩ : ∃ p, primaryAmong (listDrepHandles w.handles a.drepId a.now) = some p :=
          Option.isSome_iff_exists.mp (List.find?_isSome.mpr ⟨r, hread, hprimary⟩)
        obtain ⟨hpmem, hpown, -⟩ := mem_listDrepHandles.mp (List.mem_of_find?_eq_some hp)
        have hpprimary : p.isPrimary = true := List.find?_some hp
        obtain rfl : p = r := w.handles.eq_of_key' hpmem hr (c := a.drepId)
          (by rw [HandleRow.primaryOf, if_pos hpprimary, hpown])
          (by rw [HandleRow.primaryOf, if_pos hprimary, hown'])
        exact hstamp ▸ hclaimed p hp hsource
  · refine HandleRow.isExpired_mono ?_ hnow
    by_contra hexp
    exact hother (hprevious r
      (mem_listDrepHandles.mpr ⟨hr, hown, isLive_iff_not_isExpired.mpr hexp⟩) hprev)

/-! ### Steps -/

/-- A statement of another kind than a claim. -/
structure QuietStep (w w' : HandleWorld) : Prop where
  clock : w'.clock = w.clock
  claims : w'.claims = w.claims
  handles : QuietHandles w.clock w.handles w'.handles

structure ClaimStep (a : ClaimWrite) (w w' : HandleWorld) : Prop where
  clock : w'.clock = w.clock
  claims : w'.claims = ⟨a.drepId, a.handle, a.now⟩ :: w.claims
  handles : ClaimEffect a w.handles w'.handles

theorem QuietStep.refl (w : HandleWorld) : QuietStep w w := ⟨rfl, rfl, .refl w.clock w.handles⟩

variable {w' : HandleWorld}

theorem HandlesSafe.quiet (hw : HandlesSafe w) (h : QuietStep w w') :
    HandlesSafe w' where
  cooledDown := h.claims ▸ hw.cooledDown
  past := h.claims ▸ h.clock ▸ hw.past
  onePrevious := by
    rw [h.clock]
    intro r' hr' q' hq' hprev hprev' hlive hlive' hown
    have hold : ∀ p' ∈ w'.handles.rows, p'.isPrimary = false →
        ∃ p ∈ w.handles.rows, p.Ages w.clock p' := fun p' hp' hprev => by
      rcases h.handles.come p' hp' with hnew | hold
      · cases hprev.symm.trans hnew
      · exact hold
    obtain ⟨r, hr, hages⟩ := hold r' hr' hprev
    obtain ⟨q, hq, hages'⟩ := hold q' hq' hprev'
    have hsame : r = q := hw.onePrevious r hr q hq (hages.isPrimary.symm.trans hprev)
      (hages'.isPrimary.symm.trans hprev')
      (hages.previous (hages.isPrimary.symm.trans hprev) _ hlive)
      (hages'.previous (hages'.isPrimary.symm.trans hprev') _ hlive')
      (hages.drepId.symm.trans (hown.trans hages'.drepId))
    exact w'.handles.eq_of_key hr' hq' (hages.handle.trans (hsame ▸ hages'.handle.symm))
  covers drepId c hlast := by
    rw [h.claims] at hlast
    rw [h.clock]
    rcases hw.covers drepId c hlast with hpast | ⟨r, hr, hown, hprimary, hsource, hstamp, hfar⟩
    · exact .inl hpast
    · rcases h.handles.kept r hr with hexp | ⟨r', hr', hages⟩
      · obtain ⟨x, hx, hle⟩ := isExpired_iff.mp hexp
        exact .inl ((hfar x hx).trans hle)
      · refine .inr ⟨r', hr', hages.drepId.trans hown, hages.isPrimary.trans hprimary,
          hages.source.trans hsource, hages.createdAt.trans hstamp, fun x hx => ?_⟩
        have hpast : c.stamp ≤ w.clock := hw.past c (List.mem_of_find?_eq_some hlast)
        rcases hages.released with hsame | hfar'
        · exact hfar x (hsame ▸ hx)
        · have hlater := hfar' x hx
          omega

theorem HasRead.quiet (hread : HasRead w a rows) (h : QuietStep w w') : HasRead w' a rows where
  now_le := h.clock ▸ hread.now_le
  policy := hread.policy
  fresh := by
    rw [Overtaken, h.claims, h.clock]
    refine hread.fresh.imp_right fun ⟨hcool, hprevious⟩ => ⟨hcool, fun r' hr' hown hprev hne => ?_⟩
    rcases h.handles.come r' hr' with hnew | ⟨r, hr, hages⟩
    · cases hprev.symm.trans hnew
    · have hexp := hprevious r hr (hages.drepId.symm.trans hown)
        (hages.isPrimary.symm.trans hprev) (hages.handle ▸ hne)
      by_contra hlive
      have hlive' := hages.previous (hages.isPrimary.symm.trans hprev) w.clock
        (isLive_iff_not_isExpired.mpr hlive)
      exact isLive_iff_not_isExpired.mp hlive' hexp

/-- **Writing.** A batch that succeeds has not been overtaken. -/
theorem HasRead.not_overtaken (hread : HasRead w a rows) (hw : HandlesSafe w)
    (hprompt : w.clock < a.now + PROMPT_SEC) (hdemotes : (HandleProc.writing a rows).DemotesRead w)
    (h : ClaimStep (a.write rows) w w') : ¬Overtaken w a.drepId a.now := by
  rintro ⟨c, hlast, hlate⟩
  have hgrace : COOLDOWN_SEC + PROMPT_SEC = GRACE_SEC - PROMPT_SEC := by decide
  have hhalf : COOLDOWN_SEC = PROMPT_SEC + PROMPT_SEC := by decide
  have hpos : 0 < PROMPT_SEC := by decide
  rcases hw.covers a.drepId c hlast with hpast | ⟨r, hr, hown, hprimary, hsource, hstamp, hfar⟩
  · omega
  · have hown' : r.drepId = a.drepId := hown.trans (lastClaim_drepId hlast)
    rcases h.handles.primaries r hr hown' hprimary with hexp | hcurrent
    · obtain ⟨x, hx, hle⟩ := isExpired_iff.mp hexp
      have hx' := hfar x hx
      have hnow := hread.now_le
      simp only [ClaimArgs.write] at hle
      omega
    · -- the row that was read would have to be the one of the claim since
      obtain ⟨p, hp, hpsame⟩ := Option.map_eq_some_iff.mp (hdemotes r hr hown' hprimary hcurrent)
      obtain ⟨hpsource, hpcreated⟩ := Prod.mk.inj hpsame
      have hcool := hread.policy p hp (hpsource.trans hsource)
      omega

theorem HandlesSafe.claimed (hw : HandlesSafe w) (hread : HasRead w a rows)
    (hfresh : ¬Overtaken w a.drepId a.now) (h : ClaimStep (a.write rows) w w') :
    HandlesSafe w' := by
  obtain ⟨hcool, hprevious⟩ := hread.fresh.resolve_left hfresh
  refine ⟨?_, ?_, ?_, fun drepId c hlast => ?_⟩
  · rw [h.claims]
    exact List.pairwise_cons.mpr ⟨fun c hc hown => hw.cooledDown.le_of_last hcool hc hown.symm,
      hw.cooledDown⟩
  · rw [h.claims, h.clock]
    exact List.forall_mem_cons.mpr ⟨hread.now_le, hw.past⟩
  · rw [h.clock]
    -- of the previous handles of the DRep, only the demoted one is live
    have hlatest : ∀ r' ∈ w'.handles.rows, r'.isPrimary = false → r'.isLive w.clock = true →
        (r' ∈ w.handles.rows ∧ r'.drepId ≠ a.drepId) ∨
          (some r'.handle = currentOf rows ∧ r'.drepId = a.drepId) := by
      intro r' hr' hprev hlive
      rcases h.handles.come r' hr' with rfl | ⟨hmem, hother⟩ | ⟨r, rfl, hown, hcurrent⟩
      · cases hprev
      · refine .inl ⟨hmem, fun hown => ?_⟩
        exact isLive_iff_not_isExpired.mp hlive
          (hprevious r' hmem hown hprev (hother hown hprev))
      · exact .inr ⟨hcurrent, hown⟩
    intro r hr q hq hprev hprev' hlive hlive' hown
    rcases hlatest r hr hprev hlive with ⟨hmem, hne⟩ | ⟨hcurrent, hself⟩ <;>
      rcases hlatest q hq hprev' hlive' with ⟨hmem', hne'⟩ | ⟨hcurrent', hself'⟩
    · exact hw.onePrevious r hmem q hmem' hprev hprev' hlive hlive' hown
    · exact absurd (hown.trans hself') hne
    · exact absurd (hown.symm.trans hself) hne'
    · exact w'.handles.eq_of_key hr hq (Option.some.inj (hcurrent.trans hcurrent'.symm))
  · rw [h.claims, lastClaim] at hlast
    rw [h.clock]
    by_cases hown : a.drepId = drepId
    · rw [List.find?_cons_of_pos (by simpa [ClaimArgs.write] using hown)] at hlast
      cases hlast
      exact .inr ⟨_, h.handles.written, rfl, rfl, rfl, rfl, nofun⟩
    · rw [List.find?_cons_of_neg (by simpa [ClaimArgs.write] using hown)] at hlast
      rcases hw.covers drepId c hlast with hpast | ⟨r, hr, hdrep, hcovers⟩
      · exact .inl hpast
      · have hforeign : r.drepId ≠ a.drepId := fun heq =>
          hown (heq.symm.trans (hdrep.trans (lastClaim_drepId hlast)))
        rcases h.handles.foreign r hr hforeign with hexp | hmem
        · obtain ⟨x, hx, hle⟩ := isExpired_iff.mp hexp
          exact .inl ((hcovers.2.2.2 x hx).trans (hle.trans hread.now_le))
        · exact .inr ⟨r, hmem, hdrep, hcovers⟩

theorem HasRead.claimed {b : ClaimArgs} (hb : HasRead w b rows')
    (hprompt : w.clock < a.now + PROMPT_SEC) (h : ClaimStep (a.write rows) w w') :
    HasRead w' b rows' where
  now_le := h.clock ▸ hb.now_le
  policy := hb.policy
  fresh := by
    rw [Overtaken, h.claims, h.clock, lastClaim]
    by_cases hown : a.drepId = b.drepId
    · rw [List.find?_cons_of_pos (by simpa [ClaimArgs.write] using hown)]
      refine .inl ⟨_, rfl, ?_⟩
      have hnow := hb.now_le
      simp only [ClaimArgs.write]
      omega
    · rw [List.find?_cons_of_neg (by simpa [ClaimArgs.write] using hown)]
      refine hb.fresh.imp_right fun ⟨hcool, hprevious⟩ => ⟨hcool, fun r' hr' hself hprev hne => ?_⟩
      rcases h.handles.come r' hr' with rfl | ⟨hmem, -⟩ | ⟨r, rfl, hdrep, -⟩
      · cases hprev
      · exact hprevious r' hmem hself hprev hne
      · exact absurd (hdrep.symm.trans hself) hown

theorem HandlesSafe.env (hw : HandlesSafe w) (h : HandleEnv w w') :
    HandlesSafe w' where
  cooledDown := h.claims ▸ hw.cooledDown
  past := h.claims ▸ fun c hc => (hw.past c hc).trans h.clock
  onePrevious := by
    rw [h.handles]
    intro r hr q hq hprev hprev' hlive hlive'
    have hearlier : ∀ {r : HandleRow}, r.isLive w'.clock = true → r.isLive w.clock = true :=
      fun hlive => isLive_iff.mpr fun x hx => h.clock.trans_lt (isLive_iff.mp hlive x hx)
    exact hw.onePrevious r hr q hq hprev hprev' (hearlier hlive) (hearlier hlive')
  covers drepId c hlast := by
    rw [h.handles]
    exact (hw.covers drepId c (h.claims ▸ hlast)).imp_left fun hpast => hpast.trans h.clock

variable {l : HandleProc}

theorem HandleProc.Asserts.env (hl : l.Asserts w) (h : HandleEnv w w') : l.Asserts w' := by
  cases l with
  | isSeeded | getDrep | listHandles | insertAuto | lifecycle => exact le_trans hl h.clock
  | writing a rows =>
    refine ⟨hl.now_le.trans h.clock, hl.policy, ?_⟩
    rw [Overtaken, h.claims, h.handles]
    exact hl.fresh.imp_right fun ⟨hcool, hprevious⟩ => ⟨hcool, fun r hr hown hprev hne =>
      HandleRow.isExpired_mono (hprevious r hr hown hprev hne) h.clock⟩
  | resolving | comparing | answered | inserted | cycled | threw => trivial

theorem HandleProc.Asserts.quiet (hl : l.Asserts w) (h : QuietStep w w') : l.Asserts w' := by
  cases l with
  | isSeeded | getDrep | listHandles | insertAuto | lifecycle => exact le_trans hl h.clock.ge
  | writing a rows => exact HasRead.quiet hl h
  | resolving | comparing | answered | inserted | cycled | threw => trivial

theorem HandleProc.Asserts.claimed (hl : l.Asserts w) (hprompt : w.clock < a.now + PROMPT_SEC)
    (h : ClaimStep (a.write rows) w w') : l.Asserts w' := by
  cases l with
  | isSeeded | getDrep | listHandles | insertAuto | lifecycle => exact le_trans hl h.clock.ge
  | writing b rows' => exact HasRead.claimed hl hprompt h
  | resolving | comparing | answered | inserted | cycled | threw => trivial

theorem handleStep_effect {fails : Bool} {l' : HandleProc} (hw : HandlesSafe w) (hl : l.Asserts w)
    (hprompt : ∀ now ∈ l.now?, w.clock < now + PROMPT_SEC)
    (h : handleStep fails w l = some (w', l')) :
    QuietStep w w' ∧ l'.Asserts w' ∨ ∃ a rows, l = .writing a rows ∧
      l' = .answered a (a.success rows) ∧ ClaimStep (a.write rows) w w' := by
  cases l with
  | isSeeded a =>
    cases h
    refine .inl ⟨.refl w, ?_⟩
    split_ifs
    exacts [trivial, trivial, hl]
  | getDrep a =>
    cases h
    refine .inl ⟨.refl w, ?_⟩
    split_ifs
    · trivial
    · split
      · trivial
      · split_ifs
        exacts [trivial, hl]
  | listHandles a =>
    cases h
    refine .inl ⟨.refl w, ?_⟩
    split_ifs
    · trivial
    · generalize hchecked : a.checked (listDrepHandles w.handles a.drepId a.now) = l'
      cases l' with
      | writing a' rows' =>
        obtain ⟨hpolicy, rfl, rfl⟩ := checked_eq_writing hchecked
        exact hw.hasRead hl (hprompt _ rfl) hpolicy
      | isSeeded | getDrep | listHandles | insertAuto | lifecycle =>
        rw [ClaimArgs.checked] at hchecked
        split at hchecked
        · cases hchecked
        · split_ifs at hchecked
      | resolving | comparing | answered | inserted | cycled | threw => trivial
  | writing a rows =>
    rw [handleStep] at h
    split at h
    · rename_i handles hwrite
      split_ifs at hwrite
      cases h
      exact .inr ⟨a, rows, rfl, rfl, rfl, rfl, writeClaim_effect hwrite⟩
    · cases h
      exact .inl ⟨.refl w, trivial⟩
  | resolving a rows =>
    cases h
    refine .inl ⟨.refl w, ?_⟩
    split_ifs
    · trivial
    · split
      · split_ifs <;> trivial
      · trivial
  | comparing a rows =>
    cases h
    refine .inl ⟨.refl w, ?_⟩
    split_ifs <;> trivial
  | insertAuto now todo decided inserted =>
    rw [handleStep] at h
    split_ifs at h
    · cases h
      exact .inl ⟨.refl w, trivial⟩
    · cases h
      exact .inl ⟨⟨rfl, rfl, .refl _ _⟩, trivial⟩
    · cases h
      exact .inl ⟨⟨rfl, rfl, .refl _ _⟩, hl⟩
    · cases h
      exact .inl ⟨⟨rfl, rfl, quiet_insertAutoChunk hl _ _⟩, hl⟩
  | lifecycle now =>
    rw [handleStep] at h
    split_ifs at h
    · cases h
      exact .inl ⟨.refl w, trivial⟩
    · cases h
      exact .inl ⟨⟨rfl, rfl, quiet_runHandleLifecycle hl (hprompt now rfl) _ _⟩, trivial⟩
  | answered | inserted | cycled | threw => cases h

/-! ### Runs -/

def handleSound : handleProgram.SoundWhen demotesRead SeededHandles where
  inv := HandlesSafe
  asserts w l := l.Asserts w
  apart _ _ := True
  symm _ _ _ := trivial
  init w h := by
    refine ⟨?_, ?_, h.previous, ?_⟩ <;> rw [h.claims]
    exacts [.nil, nofun, nofun]
  start w l _ _ hstart := by
    cases hstart <;> exact ⟨le_rfl, fun _ _ => trivial⟩
  step := by
    rintro w l w' l' - ⟨hprompt, hdemotes⟩ hw hl ⟨fails, h⟩
    rcases handleStep_effect hw hl hprompt h with ⟨hquiet, hl'⟩ | ⟨a, rows, rfl, rfl, hclaim⟩
    · exact ⟨hw.quiet hquiet, hl'⟩
    · have hfresh := HasRead.not_overtaken hl hw (hprompt _ rfl) hdemotes hclaim
      exact ⟨hw.claimed hl hfresh hclaim, trivial⟩
  noninterference := by
    rintro w l w' l' m - ⟨hprompt, -⟩ - hw hl hm - ⟨fails, h⟩
    rcases handleStep_effect hw hl hprompt h with ⟨hquiet, -⟩ | ⟨a, rows, rfl, rfl, hclaim⟩
    · exact ⟨hm.quiet hquiet, trivial⟩
    · exact ⟨hm.claimed (hprompt _ rfl) hclaim, trivial⟩
  env := by
    rintro w w' - hw henv
    exact ⟨hw.env henv, fun m hm => hm.env henv⟩

/-- A row of the handle belongs to the DRep. -/
def HandleWorld.Holds (w : HandleWorld) (handle : Text) (drepId : String) : Prop :=
  ∃ r ∈ w.handles.rows, r.handle = handle ∧ r.drepId = drepId

def HandleWorld.HoldsExpired (w : HandleWorld) (handle : Text) (drepId : String) : Prop :=
  ∃ r ∈ w.handles.rows, r.handle = handle ∧ r.drepId = drepId ∧ r.isExpired w.clock = true

section Runs

variable {ι : Type*} [DecidableEq ι] {s s' : Interleaved HandleWorld HandleProc ι}

theorem holds_step {move : Move ι}
    (hs : ((handleProgram.system ι SeededHandles).restrict demotesRead.Met).Reachable s)
    {handle : Text} {drepId : String} (h : s.shared.Holds handle drepId)
    (hstep : ((handleProgram.system ι SeededHandles).restrict demotesRead.Met).Step s move s') :
    s.shared.HoldsExpired handle drepId ∨ s'.shared.Holds handle drepId := by
  obtain ⟨hw, hasserts, -⟩ := handleSound.holds hs
  obtain ⟨hmet, ⟨-, -⟩ | ⟨hproc, fails, hmoves⟩ | henv⟩ := hstep
  · exact .inr h
  · obtain ⟨r, hr, rfl, rfl⟩ := h
    have hl := hasserts _ _ hproc
    rcases handleStep_effect hw hl (hmet.2 _ hproc).1.1 hmoves with
      ⟨hquiet, -⟩ | ⟨a, rows, rfl, rfl, hclaim⟩
    · rcases hquiet.handles.kept r hr with hexp | ⟨r', hr', hages⟩
      · exact .inl ⟨r, hr, rfl, rfl, hexp⟩
      · exact .inr ⟨r', hr', hages.handle, hages.drepId⟩
    · rcases hclaim.handles.kept r hr with hexp | hkept
      · exact .inl ⟨r, hr, rfl, rfl, HandleRow.isExpired_mono hexp (HasRead.now_le hl)⟩
      · exact .inr hkept
  · exact .inr (by rwa [HandleWorld.Holds, henv.handles])

theorem resolveHandle_of_mem {t : HandleTable} {r : HandleRow} (hr : r ∈ t.rows) {now : ℤ}
    (hlive : r.isLive now = true) (dreps : HandleDrepTable) :
    (resolveHandle t dreps r.handle now).map (·.1) = some r.drepId := by
  obtain ⟨q, hq⟩ : ∃ q, (t.rows.find? fun q => q.handle == r.handle && q.isLive now) = some q :=
    Option.isSome_iff_exists.mp (List.find?_isSome.mpr ⟨r, hr, by simp [hlive]⟩)
  have hfound := List.find?_some hq
  rw [Bool.and_eq_true, beq_iff_eq] at hfound
  obtain rfl := t.eq_of_key (List.mem_of_find?_eq_some hq) hr hfound.1
  rw [resolveHandle, hq]
  rfl

/-- **Handles have one owner**, in every run in which no call takes half a cooldown and the primary
that is demoted is the row that was read; and claims of one DRep are a cooldown apart. -/
theorem handlesRight
    (h : ((handleProgram.system ι SeededHandles).restrict demotesRead.Met).Reachable s) :
    HandlesRight ((handleProgram.system ι SeededHandles).restrict demotesRead.Met) s where
  resolves r hr hlive := resolveHandle_of_mem hr hlive _
  onePrimary r hr r' hr' hprimary hprimary' hown :=
    s.shared.handles.eq_of_key' hr hr' (by rw [HandleRow.primaryOf, if_pos hprimary])
      (by rw [HandleRow.primaryOf, if_pos hprimary', hown])
  onePrevious := (handleSound.holds h).inv.onePrevious
  keepsOwner s' hleads r hr r' hr' hhandle hother := by
    rcases h.keeps_until (fun _ _ _ hs hP hstep => holds_step hs hP hstep) hleads
      ⟨r, hr, rfl, rfl⟩ with ⟨q, hq, hqhandle, hqown⟩ | hexpired
    · have hsame := s'.shared.handles.eq_of_key hr' hq (hhandle.trans hqhandle.symm)
      exact absurd (hsame ▸ hqown) hother
    · exact hexpired
  failsUnchanged i l s' hproc hclaim hstep := by
    obtain ⟨-, hmoves⟩ := hstep
    rcases hmoves with _ | ⟨hproc', fails, hnext⟩ | _
    cases hproc.symm.trans hproc'
    cases l with
    | writing a rows =>
      rw [handleStep] at hnext
      split at hnext
      · cases hnext
        exact .inr ⟨a, rows, Function.update_self ..⟩
      · cases hnext
        exact .inl rfl
    | isSeeded | getDrep | listHandles | resolving | comparing =>
      cases hnext
      exact .inl rfl
    | answered => cases hnext
    | insertAuto | inserted | lifecycle | cycled | threw => exact hclaim.elim
  cooledDown := (handleSound.holds h).inv.cooledDown

end Runs

/-! ### Two runs -/

/-- The statements that meet the condition. -/
def handleStepMet (fails : Bool) (w : HandleWorld) (l : HandleProc) :
    Option (HandleWorld × HandleProc) :=
  if (∀ now ∈ l.now?, w.clock < now + PROMPT_SEC) ∧ l.DemotesRead w then handleStep fails w l
  else none

theorem handleStepMet_moves (fails : Bool) (w : HandleWorld) (l : HandleProc) (w' : HandleWorld)
    (l' : HandleProc) (h : handleStepMet fails w l = some (w', l')) :
    handleProgram.Step w l w' l' ∧ demotesRead.state w ∧ demotesRead.mover w l := by
  rw [handleStepMet] at h
  split_ifs at h with hmet
  exact ⟨⟨fails, h⟩, trivial, hmet⟩

/-- One DRep of the given status, with a handle from the seed. -/
def launch (clock : ℤ) (status : String) : HandleWorld where
  clock := clock
  seeded := true
  dreps := ⟨[⟨"drep1a", status, none, none⟩], List.nodup_singleton _⟩
  handles := ⟨⟨[⟨"anna".toList, "drep1a", .seed, true, none, 0, 0⟩], by decide⟩, by decide⟩
  claims := []

theorem seededHandles_launch (clock : ℤ) (status : String) : SeededHandles (launch clock status) :=
  ⟨rfl, fun r hr _ _ hprev => by
    obtain rfl := List.mem_singleton.mp hr
    cases hprev⟩

theorem handleEnv_later (w : HandleWorld) (status : String) (h : w.clock ≤ clock) :
    HandleEnv w { w with clock := clock, dreps := (launch clock status).dreps } :=
  ⟨h, rfl, rfl⟩

/-- A DRep changes its handle, and takes the first one back after the cooldown. -/
theorem handlesRight_takenBack :
    ∃ s : Interleaved HandleWorld HandleProc ℕ,
      ((handleProgram.system ℕ SeededHandles).restrict demotesRead.Met).Reachable s ∧
        s.shared.claims = [⟨"drep1a", "anna".toList, COOLDOWN_SEC⟩,
          ⟨"drep1a", "anna-b".toList, 0⟩] ∧
        HandlesRight ((handleProgram.system ℕ SeededHandles).restrict demotesRead.Met) s := by
  have h₀ : ((handleProgram.system ℕ SeededHandles).restrict demotesRead.Met).Reachable
      ⟨launch 0 "registered", fun _ => none⟩ := .init ⟨seededHandles_launch _ _, fun _ => rfl⟩
  have h₁ := Program.reachable_start h₀ (i := 0) trivial rfl
    (HandleStart.claim _ "drep1a" "anna-b".toList (some "anna".toList))
  have h₂ := Program.reachable_runWhen (fun _ _ _ _ _ _ => trivial) handleStepMet_moves h₁
    [(0, false), (0, false), (0, false), (0, false)] (by decide +kernel)
  have hlater : 0 ≤ COOLDOWN_SEC := by decide
  have h₃ := Program.reachable_env h₂ trivial (handleEnv_later _ "registered" hlater)
  have h₄ := Program.reachable_start h₃ (i := 1) trivial (by decide +kernel)
    (HandleStart.claim _ "drep1a" "anna".toList (some "anna-b".toList))
  have h₅ := Program.reachable_runWhen (fun _ _ _ _ _ _ => trivial) handleStepMet_moves h₄
    [(1, false), (1, false), (1, false), (1, false)] (by decide +kernel)
  exact ⟨_, h₅, by decide +kernel, handlesRight h₅⟩

/-- A request reads a primary in its last second; the handle is claimed anew, and the request takes
the new primary for the one it has read. -/
theorem not_handlesRight :
    ∃ s : Interleaved HandleWorld HandleProc ℕ,
      (handleProgram.system ℕ SeededHandles).Reachable s ∧
        s.shared.claims = [⟨"drep1a", "anna-b".toList, GRACE_SEC - 1⟩,
          ⟨"drep1a", "anna".toList, GRACE_SEC⟩] ∧
        ¬HandlesRight (handleProgram.system ℕ SeededHandles) s := by
  have hstep : ∀ k s l s' l', handleStep k s l = some (s', l') → handleProgram.Step s l s' l' :=
    fun k _ _ _ _ h => ⟨k, h⟩
  have h₀ : (handleProgram.system ℕ SeededHandles).Reachable
      ⟨launch 0 "deregistered", fun _ => none⟩ := .init ⟨seededHandles_launch _ _, fun _ => rfl⟩
  have h₁ := h₀.step (.start (i := 0) rfl (HandleStart.lifecycle _))
  have h₂ := Program.reachable_run hstep h₁ [(0, false)] (by decide +kernel)
  have hlast : 0 ≤ GRACE_SEC - 1 := by decide
  have h₃ := h₂.step (.env (handleEnv_later _ "registered" hlast))
  have h₄ := h₃.step (.start (i := 1) (by decide +kernel)
    (HandleStart.claim _ "drep1a" "anna-b".toList (some "anna".toList)))
  have h₅ := Program.reachable_run hstep h₄ [(1, false), (1, false), (1, false)] (by decide +kernel)
  have hexpired : GRACE_SEC - 1 ≤ GRACE_SEC := by decide
  have h₆ := h₅.step (.env (handleEnv_later _ "registered" hexpired))
  have h₇ := h₆.step (.start (i := 2) (by decide +kernel)
    (HandleStart.claim _ "drep1a" "anna".toList none))
  have h₈ := Program.reachable_run hstep h₇
    [(2, false), (2, false), (2, false), (2, false), (1, false)] (by decide +kernel)
  refine ⟨_, h₈, by decide +kernel, fun hright => ?_⟩
  have hcool := hright.cooledDown
  revert hcool
  decide +kernel

end DrepTalk
