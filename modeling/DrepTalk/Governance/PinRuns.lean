import DrepTalk.Governance.PinCollector

/-!
# Overlapping runs of the pin collector

Any number of runs of the collector, interleaved statement by statement with submitters who ask for
documents and put them, and with governance actions that are mirrored. A run may die anywhere, and
the pinning service may answer as it likes.

**What goes wrong** (`not_pins_safe`). Between the selection and the claim, a document is served
again, or anchored. A run that comes back after its lease has run out drops, or releases, what is
another one's by then.

**What holds** (`pins_safe`). Runs that claim only what is as they have selected it, and go on only
while the row bears their claim, are safe.
-/

namespace DrepTalk

/-! ### What a run has at hand -/

def PinProc.run : PinProc → Option PinRun
  | .begin run | .selected run _ _ => some run
  | .loop pass | .claimed pass _ | .answered pass _ _ => some pass.run
  | .done _ => none

def PinProc.pending : PinProc → List PinRow
  | .selected _ pins _ => pins
  | .loop pass | .claimed pass _ | .answered pass _ _ => pass.rest
  | _ => []

/-- The open claim, with the run that made it. -/
def PinProc.held : PinProc → Option (PinRun × PinClaim)
  | .claimed pass claim | .answered pass claim _ => some (pass.run, claim)
  | _ => none

/-- The claim whose row the next step drops. -/
def PinProc.drops : PinProc → Option PinClaim
  | .answered _ claim .drop => some claim
  | _ => none

/-- The candidate that the next step claims, with the run. -/
def PinProc.next : PinProc → Option (PinRun × PinRow)
  | .loop pass =>
    (pass.rest.head?.filter fun pin => !pass.anchoredElsewhere.contains pin.hash).map (pass.run, ·)
  | _ => none

/-! ### What one step does -/

section Moves

variable {graceSeconds : ℤ} {input : PinInput} {w w' : PinWorld} {p p' : PinProc}

/-- A step of a run, by what it does to the table. -/
inductive CollectMove (graceSeconds : ℤ) (w : PinWorld) : PinProc → PinWorld → PinProc → Prop
  | quiet {p p' : PinProc} (hrun : ∀ run, p'.run = some run → p.run = some run)
      (hpending : ∀ pin ∈ p'.pending, pin ∈ p.pending)
      (hheld : ∀ held, p'.held = some held → p.held = some held) (hdrops : p'.drops = none) :
      CollectMove graceSeconds w p w p'
  | select (run : PinRun) (total : ℕ) :
      CollectMove graceSeconds w (.begin run) w (.selected run (getCollectablePins w.pins w.actions
        (run.now - graceSeconds) (run.now - PIN_STALE_CLAIM_SECONDS) run.limit).1 total)
  | elsewhere {pass pass' : PinPass} (hash : String) (hrun : pass'.run = pass.run)
      (hrest : ∀ pin ∈ pass'.rest, pin ∈ pass.rest) :
      CollectMove graceSeconds w (.loop pass) { w with pins := disownPin w.pins hash } (.loop pass')
  | claim {pass : PinPass} {pin : PinRow} {rest : List PinRow} {row : PinRow}
      (hrest : pass.rest = pin :: rest) (hnext : (PinProc.loop pass).next = some (pass.run, pin))
      (hmem : row ∈ w.pins.rows) (hhash : row.hash = pin.hash)
      (hclaimable : row.isClaimable (pass.run.now - PIN_STALE_CLAIM_SECONDS) = true) :
      CollectMove graceSeconds w (.loop pass)
        { w with pins := (markPinDeleting w.pins pin.hash pass.run.now
            (pass.run.now - PIN_STALE_CLAIM_SECONDS)).1 }
        (.claimed { pass with rest := rest } ⟨pin, row, isAnchored w.actions pin.hash, w.clock⟩)
  | answer (pass : PinPass) (claim : PinClaim) (outcome : RemoveOutcome)
      (counts : CollectPinsResult) :
      CollectMove graceSeconds w (.claimed pass claim)
        { w with removals := (claim.pin.pinataFileId, outcome) :: w.removals }
        (.answered { pass with counts := counts } claim outcome.next)
  | finish (pass : PinPass) (claim : PinClaim) (next : AfterRemove) (counts : CollectPinsResult) :
      CollectMove graceSeconds w (.answered pass claim next)
        { w with pins := (next.apply w.pins claim.pin.hash pass.counts).1 }
        (.loop { pass with counts := counts })

theorem collectStep_cases (h : collectStep graceSeconds input w p = some (w', p')) :
    CollectMove graceSeconds w p w' p' := by
  cases p with
  | «begin» run =>
    simp only [collectStep] at h
    cases h
    exact .select run _
  | selected run pins total =>
    simp only [collectStep] at h
    split at h <;> simp only [Option.some.injEq, Prod.mk.injEq, reduceCtorEq] at h
    · obtain ⟨rfl, rfl⟩ := h
      exact .quiet (fun _ h => h) (fun _ h => h) (by simp [PinProc.held]) rfl
    · obtain ⟨rfl, rfl⟩ := h
      exact .quiet (by simp [PinProc.run]) (by simp [PinProc.pending]) (by simp [PinProc.held]) rfl
  | loop pass =>
    simp only [collectStep] at h
    split at h
    · cases h
      exact .quiet (by simp [PinProc.run]) (by simp [PinProc.pending]) (by simp [PinProc.held]) rfl
    · rename_i pin rest hrest
      have hsub : ∀ x ∈ rest, x ∈ pass.rest := fun x hx => hrest ▸ List.mem_cons_of_mem pin hx
      split_ifs at h with helsewhere
      · cases h
        exact .elsewhere pin.hash rfl hsub
      · split at h <;> simp only [Option.some.injEq, Prod.mk.injEq] at h
        · rename_i row hmark hfind
          obtain ⟨rfl, rfl⟩ := h
          have hmatch := List.find?_some hfind
          simp only [Bool.and_eq_true, beq_iff_eq] at hmatch
          refine .claim hrest ?_ (List.mem_of_find?_eq_some hfind) hmatch.1 hmatch.2
          simpa [PinProc.next, hrest, Option.filter] using helsewhere
        · obtain ⟨rfl, rfl⟩ := h
          exact .quiet (fun _ h => h) hsub (by simp [PinProc.held]) rfl
  | claimed pass claim =>
    simp only [collectStep] at h
    split at h <;> simp only [Option.some.injEq, Prod.mk.injEq, reduceCtorEq] at h
    obtain ⟨rfl, rfl⟩ := h
    exact .answer pass claim _ _
  | answered pass claim next =>
    simp only [collectStep] at h
    split at h <;> simp only [Option.some.injEq, Prod.mk.injEq, reduceCtorEq] at h
    · obtain ⟨rfl, rfl⟩ := h
      exact .quiet (fun _ h => h) (fun _ h => h) (fun _ h => h) rfl
    · obtain ⟨rfl, rfl⟩ := h
      exact .finish pass claim next _
  | done result => cases h

end Moves

/-! ### The runs -/

inductive PinEnv (w : PinWorld) : PinWorld → Prop
  | tick {clock : ℤ} (h : w.clock ≤ clock) : PinEnv w { w with clock := clock }
  | serve (hash : String) : PinEnv w { w with
      pins := serveGovActionMetadata w.pins hash w.clock
      served := if (servedCid w.pins hash).isSome then ⟨hash, w.clock⟩ :: w.served else w.served }
  | put (rec : GovActionMetadata) : PinEnv w { w with pins := putGovActionMetadata w.pins rec }
  | mirror (actions : List MirroredAction) : PinEnv w { w with actions := actions }

/-- Runs, each with the clock of its start. -/
def pinProgram (graceSeconds : ℤ) : Program PinWorld PinProc where
  Start w p := ∃ limit, p = .begin ⟨w.clock, limit⟩
  Step w p w' p' := ∃ input, collectStep graceSeconds input w p = some (w', p')
  Env := PinEnv

/-- No row is claimed, and no document has been handed out. -/
def PinInit (w : PinWorld) : Prop := (∀ r ∈ w.pins.rows, r.deletingAt = none) ∧ w.served = []

/-- The document was neither served nor put anew since it was selected, and it is not anchored. -/
def AsSelected (w : PinWorld) (run : PinRun) (pin : PinRow) : Prop :=
  isAnchored w.actions pin.hash = false ∧ ∀ r ∈ w.pins.rows, r.hash = pin.hash →
    r.isClaimable (run.now - PIN_STALE_CLAIM_SECONDS) = true →
      r.lastServedAt = pin.lastServedAt ∧ r.pinataFileId = pin.pinataFileId

/-- The row of a claimed document bears the claim. -/
def StillClaimed (w : PinWorld) (run : PinRun) (claim : PinClaim) : Prop :=
  ∀ r ∈ w.pins.rows, r.hash = claim.pin.hash → r.deletingAt = some run.now

instance (w : PinWorld) (run : PinRun) (pin : PinRow) : Decidable (AsSelected w run pin) :=
  inferInstanceAs (Decidable (_ ∧ _))

instance (w : PinWorld) (run : PinRun) (claim : PinClaim) : Decidable (StillClaimed w run claim) :=
  inferInstanceAs (Decidable (∀ _ ∈ _, _))

/-- A run claims what is as it has selected it, under a time that no other claim on the document
bears; and goes on while the row bears its claim. -/
def pinsUndisturbed : Program.Condition PinWorld PinProc where
  state _ := True
  mover w p := (∀ next ∈ p.next, AsSelected w next.1 next.2) ∧
    ∀ held ∈ p.held, StillClaimed w held.1 held.2
  others _ p q := ∀ next ∈ p.next, ∀ held ∈ q.held,
    held.2.pin.hash = next.2.hash → held.1.now ≠ next.1.now

/-! ### What holds along a run -/

/-- What holds of the tables. A document that was handed out is there until its grace period has
run out. -/
structure PinInv (graceSeconds : ℤ) (w : PinWorld) : Prop where
  rows : ∀ r ∈ w.pins.rows, ∀ at_, r.deletingAt = some at_ →
    at_ ≤ w.clock ∧ r.lastServedAt < at_ - graceSeconds ∧ r.pinataFileId ≠ none
  served : ∀ d ∈ w.served, d.servedAt ≤ w.clock ∧ (d.servedAt + graceSeconds < w.clock ∨
    ∃ r ∈ w.pins.rows, r.hash = d.hash ∧ d.servedAt ≤ r.lastServedAt)

/-- What holds of an open claim. Until its lease runs out, its row is there. -/
structure PinHeld (graceSeconds : ℤ) (w : PinWorld) (run : PinRun) (claim : PinClaim) : Prop where
  claimed_le : claim.claimedAt ≤ w.clock
  lastServed_lt : claim.row.lastServedAt < run.now - graceSeconds
  unanchored : claim.anchored = false
  fileId : claim.row.pinataFileId = claim.pin.pinataFileId
  bears : ∀ r ∈ w.pins.rows, r.hash = claim.pin.hash → r.deletingAt = some run.now →
    r.pinataFileId = claim.pin.pinataFileId
  there : w.clock - PIN_STALE_CLAIM_SECONDS ≤ run.now → ∃ r ∈ w.pins.rows,
    r.hash = claim.pin.hash ∧ (r.deletingAt = some run.now ∨ r.pinataFileId = none)

structure PinAsserts (graceSeconds : ℤ) (w : PinWorld) (p : PinProc) : Prop where
  now_le : ∀ run, p.run = some run → run.now ≤ w.clock
  pending : ∀ run, p.run = some run → ∀ pin ∈ p.pending,
    pin.pinataFileId ≠ none ∧ pin.lastServedAt < run.now - graceSeconds
  held : ∀ run claim, p.held = some (run, claim) → PinHeld graceSeconds w run claim
  removed : ∀ claim, p.drops = some claim → (claim.pin.pinataFileId, .removed) ∈ w.removals ∨
    (claim.pin.pinataFileId, .already_gone) ∈ w.removals

/-- Of two claims on one document, one had run out when the other was made. -/
def PinApart (p q : PinProc) : Prop :=
  ∀ run claim run' claim', p.held = some (run, claim) → q.held = some (run', claim') →
    claim.pin.hash = claim'.pin.hash → run.now ≠ run'.now ∧
      (run.now < claim'.claimedAt - PIN_STALE_CLAIM_SECONDS ∨
        run'.now < claim.claimedAt - PIN_STALE_CLAIM_SECONDS)

theorem PinApart.of_unheld {p q : PinProc} (h : p.held = none) : PinApart p q :=
  fun _ _ _ _ hc => absurd (h.symm.trans hc) (by simp)

section Invariant

variable {graceSeconds : ℤ} {w w' : PinWorld} {run : PinRun} {claim : PinClaim} {hash : String}

variable {at_ cutoff now : ℤ} {pin row : PinRow}

variable {r : PinRow}

theorem PinRow.isClaimable_some (h : r.deletingAt = some at_) :
    r.isClaimable cutoff = true ↔ at_ < cutoff := by
  rw [PinRow.isClaimable, h, Option.all_some, decide_eq_true_eq]

theorem PinInv.of_table (hw : PinInv graceSeconds w) {pins : PinTable}
    (hrows : ∀ r ∈ pins.rows, ∀ at_, r.deletingAt = some at_ →
      r ∈ w.pins.rows ∨ at_ ≤ w.clock ∧ r.lastServedAt < at_ - graceSeconds ∧
        r.pinataFileId ≠ none)
    (hkept : ∀ r ∈ w.pins.rows, (∃ r' ∈ pins.rows, r'.hash = r.hash ∧
      (r.lastServedAt ≤ r'.lastServedAt ∨ w.clock ≤ r'.lastServedAt)) ∨
        r.lastServedAt + graceSeconds < w.clock) :
    PinInv graceSeconds { w with pins := pins } where
  rows r hr at_ hat := (hrows r hr at_ hat).elim (fun hr => hw.rows r hr at_ hat) id
  served d hd := by
    obtain ⟨hle, hlate | ⟨r, hr, hhash, hlast⟩⟩ := hw.served d hd
    · exact ⟨hle, .inl hlate⟩
    · refine ⟨hle, ?_⟩
      rcases hkept r hr with ⟨r', hr', hhash', h | h⟩ | h
      · exact .inr ⟨r', hr', hhash'.trans hhash, hlast.trans h⟩
      · exact .inr ⟨r', hr', hhash'.trans hhash, hle.trans h⟩
      · exact .inl (by dsimp only; omega)

theorem PinHeld.of_table (h : PinHeld graceSeconds w run claim) (hclock : w.clock ≤ w'.clock)
    (hbears : ∀ r ∈ w'.pins.rows, r.hash = claim.pin.hash → r.deletingAt = some run.now →
      r ∈ w.pins.rows)
    (hthere : w.clock - PIN_STALE_CLAIM_SECONDS ≤ run.now → ∀ r ∈ w.pins.rows,
      r.hash = claim.pin.hash → r.deletingAt = some run.now ∨ r.pinataFileId = none →
        ∃ r' ∈ w'.pins.rows, r'.hash = claim.pin.hash ∧
          (r'.deletingAt = some run.now ∨ r'.pinataFileId = none)) :
    PinHeld graceSeconds w' run claim where
  claimed_le := h.claimed_le.trans hclock
  lastServed_lt := h.lastServed_lt
  unanchored := h.unanchored
  fileId := h.fileId
  bears r hr hhash hat := h.bears r (hbears r hr hhash hat) hhash hat
  there hlease := by
    have hlease' : w.clock - PIN_STALE_CLAIM_SECONDS ≤ run.now := by omega
    obtain ⟨r, hr, hhash, hclaim⟩ := h.there hlease'
    exact hthere hlease' r hr hhash hclaim

theorem PinHeld.expired (h : PinHeld graceSeconds w run claim) {run' : PinRun}
    (hnow : run'.now ≤ w.clock) (hpin : pin.pinataFileId ≠ none) (hselected : AsSelected w run' pin)
    (hrow : row ∈ w.pins.rows) (hhash : row.hash = pin.hash) (hsame : claim.pin.hash = pin.hash)
    (hclaimable : row.isClaimable (run'.now - PIN_STALE_CLAIM_SECONDS) = true) :
    run.now < w.clock - PIN_STALE_CLAIM_SECONDS := by
  by_contra hlease
  obtain ⟨r, hr, hrhash, hclaim⟩ := h.there (not_lt.mp hlease)
  obtain rfl : r = row := w.pins.eq_of_key hr hrow (hrhash.trans (hsame.trans hhash.symm))
  rcases hclaim with hat | hnone
  · have := (PinRow.isClaimable_some hat).mp hclaimable
    omega
  · exact hpin ((hselected.2 r hrow hhash hclaimable).2.symm.trans hnone)

/-! ### What each statement keeps -/

theorem PinInv.disown (hw : PinInv graceSeconds w) :
    PinInv graceSeconds { w with pins := disownPin w.pins hash } := by
  refine hw.of_table (fun r hr at_ hat => ?_) fun r hr => .inl ?_
  · rcases mem_disown.mp hr with ⟨hr, -⟩ | ⟨r₀, -, -, rfl⟩
    · exact .inl hr
    · cases hat
  · exact Table.exists_mem_updateWhere hr (fun _ => ⟨rfl, .inl le_rfl⟩) fun _ => ⟨rfl, .inl le_rfl⟩

theorem PinHeld.disown (h : PinHeld graceSeconds w run claim) :
    PinHeld graceSeconds { w with pins := disownPin w.pins hash } run claim := by
  refine h.of_table le_rfl (fun r hr _ hat => ?_) fun _ r hr hhash hclaim => ?_
  · rcases mem_disown.mp hr with ⟨hr, -⟩ | ⟨r₀, -, -, rfl⟩
    · exact hr
    · cases hat
  · exact Table.exists_mem_updateWhere hr (fun _ => ⟨hhash, .inr rfl⟩) fun _ => ⟨hhash, hclaim⟩

theorem PinInv.release (hw : PinInv graceSeconds w) :
    PinInv graceSeconds { w with pins := releasePinDeleting w.pins hash } := by
  refine hw.of_table (fun r hr at_ hat => ?_) fun r hr => .inl ?_
  · rcases mem_release.mp hr with ⟨hr, -⟩ | ⟨r₀, -, -, rfl⟩
    · exact .inl hr
    · cases hat
  · exact Table.exists_mem_updateWhere hr (fun _ => ⟨rfl, .inl le_rfl⟩) fun _ => ⟨rfl, .inl le_rfl⟩

theorem PinInv.drop (hw : PinInv graceSeconds w)
    (hclaimed : ∀ r ∈ w.pins.rows, r.hash = hash → r.deletingAt = some at_) :
    PinInv graceSeconds { w with pins := deleteGovActionMetadata w.pins hash } := by
  refine hw.of_table (fun r hr _ _ => .inl (mem_drop.mp hr).1) fun r hr => ?_
  by_cases hhash : (r.hash == hash) = true
  · obtain ⟨hle, hlast, -⟩ := hw.rows r hr at_ (hclaimed r hr (beq_iff_eq.mp hhash))
    exact .inr (by omega)
  · exact .inl ⟨r, mem_drop.mpr ⟨hr, Bool.not_eq_true _ ▸ hhash⟩, rfl, .inl le_rfl⟩

theorem PinInv.apply (hw : PinInv graceSeconds w) (next : AfterRemove) (counts : CollectPinsResult)
    (hclaimed : ∀ r ∈ w.pins.rows, r.hash = hash → r.deletingAt = some at_) :
    PinInv graceSeconds { w with pins := (next.apply w.pins hash counts).1 } := by
  cases next with
  | drop => exact hw.drop hclaimed
  | disown => exact hw.disown
  | release => exact hw.release

theorem mem_apply (next : AfterRemove) (counts : CollectPinsResult) (hother : r.hash ≠ hash) :
    r ∈ (next.apply w.pins hash counts).1.rows ↔ r ∈ w.pins.rows := by
  have hne : (r.hash == hash) = false := beq_eq_false_iff_ne.mpr hother
  cases next with
  | drop => exact mem_drop.trans ⟨And.left, fun hr => ⟨hr, hne⟩⟩
  | disown =>
    refine mem_disown.trans ⟨?_, fun hr => .inl ⟨hr, hne⟩⟩
    rintro (⟨hr, -⟩ | ⟨r₀, -, hhash, rfl⟩)
    · exact hr
    · exact absurd (beq_iff_eq.mp hhash) hother
  | release =>
    refine mem_release.trans ⟨?_, fun hr => .inl ⟨hr, hne⟩⟩
    rintro (⟨hr, -⟩ | ⟨r₀, -, hhash, rfl⟩)
    · exact hr
    · exact absurd (beq_iff_eq.mp hhash) hother

theorem unclaimed_apply (next : AfterRemove) (counts : CollectPinsResult)
    (hr : r ∈ (next.apply w.pins hash counts).1.rows) (hhash : r.hash = hash) :
    r.deletingAt = none := by
  have heq : (r.hash == hash) = true := beq_iff_eq.mpr hhash
  cases next with
  | drop => exact absurd heq (by simp [(mem_drop.mp hr).2])
  | disown =>
    rcases mem_disown.mp hr with ⟨-, hne⟩ | ⟨r₀, -, -, rfl⟩
    · exact absurd heq (by simp [hne])
    · rfl
  | release =>
    rcases mem_release.mp hr with ⟨-, hne⟩ | ⟨r₀, -, -, rfl⟩
    · exact absurd heq (by simp [hne])
    · rfl

theorem PinHeld.apply (h : PinHeld graceSeconds w run claim) (hw : PinInv graceSeconds w)
    (next : AfterRemove) (counts : CollectPinsResult)
    (hclaimed : ∀ r ∈ w.pins.rows, r.hash = hash → r.deletingAt = some at_)
    (hother : claim.pin.hash = hash → run.now ≠ at_) :
    PinHeld graceSeconds { w with pins := (next.apply w.pins hash counts).1 } run claim := by
  by_cases hhash : claim.pin.hash = hash
  · refine h.of_table le_rfl (fun r hr hrhash hat => ?_) fun _ r hr hrhash hclaim => ?_
    · exact absurd hat (by simp [unclaimed_apply next counts hr (hrhash.trans hhash)])
    · have hat := hclaimed r hr (hrhash.trans hhash)
      rcases hclaim with hrun | hnone
      · exact absurd (Option.some.inj (hrun.symm.trans hat)) (hother hhash)
      · exact absurd hnone (hw.rows r hr at_ hat).2.2
  · have hne : ∀ r : PinRow, r.hash = claim.pin.hash → r.hash ≠ hash := fun r hr => hr ▸ hhash
    refine h.of_table le_rfl (fun r hr hrhash _ => ?_) fun _ r hr hrhash hclaim => ?_
    · exact (mem_apply next counts (hne r hrhash)).mp hr
    · exact ⟨r, (mem_apply next counts (hne r hrhash)).mpr hr, hrhash, hclaim⟩

theorem PinInv.mark (hw : PinInv graceSeconds w) (hnow : now ≤ w.clock)
    (hclaims : ∀ r ∈ w.pins.rows, r.hash = hash → r.isClaimable cutoff = true →
      r.lastServedAt < now - graceSeconds ∧ r.pinataFileId ≠ none) :
    PinInv graceSeconds { w with pins := (markPinDeleting w.pins hash now cutoff).1 } := by
  refine hw.of_table (fun r hr at_ hat => ?_) fun r hr => .inl ?_
  · rcases mem_mark.mp hr with ⟨hr, -⟩ | ⟨r₀, hr₀, hmatch, rfl⟩
    · exact .inl hr
    · obtain rfl : now = at_ := Option.some.inj hat
      simp only [Bool.and_eq_true, beq_iff_eq] at hmatch
      exact .inr ⟨hnow, hclaims r₀ hr₀ hmatch.1 hmatch.2⟩
  · exact Table.exists_mem_updateWhere hr (fun _ => ⟨rfl, .inl le_rfl⟩) fun _ => ⟨rfl, .inl le_rfl⟩

theorem PinHeld.mark (h : PinHeld graceSeconds w run claim) (hnow : now ≤ w.clock)
    (hother : claim.pin.hash = hash → run.now ≠ now) :
    PinHeld graceSeconds { w with
      pins := (markPinDeleting w.pins hash now (now - PIN_STALE_CLAIM_SECONDS)).1 } run claim := by
  refine h.of_table le_rfl (fun r hr hrhash hat => ?_) fun hlease r hr hrhash hclaim => ?_
  · rcases mem_mark.mp hr with ⟨hr, -⟩ | ⟨r₀, hr₀, hmatch, rfl⟩
    · exact hr
    · simp only [Bool.and_eq_true, beq_iff_eq] at hmatch
      exact absurd (Option.some.inj hat).symm (hother (hrhash.symm.trans hmatch.1))
  · refine Table.exists_mem_updateWhere hr (fun hmatch => ⟨hrhash, ?_⟩) fun _ => ⟨hrhash, hclaim⟩
    -- an unexpired claim is not taken over
    refine hclaim.imp_left fun hat => ?_
    have hlt := (PinRow.isClaimable_some hat).mp (Bool.and_eq_true_iff.mp hmatch).2
    exact absurd (hlease.trans_lt hlt) (not_lt.mpr (Int.sub_le_sub_right hnow _))

theorem PinHeld.of_mark (hpin : pin.lastServedAt < run.now - graceSeconds)
    (hselected : AsSelected w run pin) (hrow : row ∈ w.pins.rows) (hhash : row.hash = pin.hash)
    (hclaimable : row.isClaimable (run.now - PIN_STALE_CLAIM_SECONDS) = true) :
    PinHeld graceSeconds { w with pins := (markPinDeleting w.pins pin.hash run.now
      (run.now - PIN_STALE_CLAIM_SECONDS)).1 } run
        ⟨pin, row, isAnchored w.actions pin.hash, w.clock⟩ := by
  obtain ⟨hlast, hfile⟩ := hselected.2 row hrow hhash hclaimable
  have hmatch : (row.hash == pin.hash &&
      row.isClaimable (run.now - PIN_STALE_CLAIM_SECONDS)) = true := by
    rw [hclaimable, Bool.and_true, beq_iff_eq, hhash]
  refine ⟨le_rfl, hlast ▸ hpin, hselected.1, hfile, fun r hr hrhash hat => ?_, fun _ =>
    ⟨_, mem_mark.mpr (.inr ⟨row, hrow, hmatch, rfl⟩), hhash, .inl rfl⟩⟩
  rcases mem_mark.mp hr with ⟨hr, hunmarked⟩ | ⟨r₀, hr₀, hmarked, rfl⟩
  · obtain rfl : r = row := w.pins.eq_of_key hr hrow (hrhash.trans hhash.symm)
    exact hfile
  · simp only [Bool.and_eq_true, beq_iff_eq] at hmarked
    exact (hselected.2 r₀ hr₀ hmarked.1 hmarked.2).2

/-! ### What else happens -/

theorem PinInv.env (hw : PinInv graceSeconds w) (h : PinEnv w w') : PinInv graceSeconds w' := by
  cases h with
  | @tick clock h =>
    refine ⟨fun r hr at_ hat => ?_, fun d hd => ?_⟩
    · exact (hw.rows r hr at_ hat).imp_left fun hle => hle.trans h
    · refine (hw.served d hd).imp (fun hle => hle.trans h) fun hkept => hkept.imp_left ?_
      exact fun hlate => hlate.trans_le h
  | serve hash =>
    have htable : PinInv graceSeconds
        { w with pins := serveGovActionMetadata w.pins hash w.clock } := by
      refine hw.of_table (fun r hr at_ hat => ?_) fun r hr => .inl ?_
      · rcases mem_serve.mp hr with ⟨hr, -⟩ | ⟨r₀, -, hserved, rfl⟩
        · exact .inl hr
        · rw [PinRow.isServed, Bool.and_eq_true, Option.isNone_iff_eq_none] at hserved
          cases hserved.2.symm.trans hat
      · exact Table.exists_mem_updateWhere hr (fun _ => ⟨rfl, .inr le_rfl⟩)
          fun _ => ⟨rfl, .inl le_rfl⟩
    refine ⟨htable.rows, fun d hd => ?_⟩
    split_ifs at hd with hsome
    · rcases List.mem_cons.mp hd with rfl | hd
      · -- the row that was handed out bears the time
        rw [servedCid, Option.isSome_map, List.find?_isSome] at hsome
        obtain ⟨r, hr, hserved⟩ := hsome
        refine ⟨le_rfl, .inr ⟨_, mem_serve.mpr (.inr ⟨r, hr, hserved, rfl⟩), ?_, le_rfl⟩⟩
        exact beq_iff_eq.mp (Bool.and_eq_true_iff.mp hserved).1
      · exact htable.served d hd
    · exact htable.served d hd
  | put rec =>
    refine hw.of_table (fun r hr at_ hat => ?_) fun r hr => .inl ?_
    · rcases KeyedTable.mem_insertOrIgnore.mp hr with hr | ⟨rfl, -⟩
      · exact .inl hr
      · cases hat
    · exact ⟨r, KeyedTable.mem_insertOrIgnore.mpr (.inl hr), rfl, .inl le_rfl⟩
  | mirror actions => exact ⟨hw.rows, hw.served⟩

theorem PinHeld.env (h : PinHeld graceSeconds w run claim) (henv : PinEnv w w') :
    PinHeld graceSeconds w' run claim := by
  cases henv with
  | @tick clock hclock =>
    exact h.of_table hclock (fun r hr _ _ => hr) fun _ r hr hhash hclaim => ⟨r, hr, hhash, hclaim⟩
  | serve hash =>
    refine h.of_table le_rfl (fun r hr _ hat => ?_) fun _ r hr hhash hclaim => ?_
    · rcases mem_serve.mp hr with ⟨hr, -⟩ | ⟨r₀, -, hserved, rfl⟩
      · exact hr
      · rw [PinRow.isServed, Bool.and_eq_true, Option.isNone_iff_eq_none] at hserved
        cases hserved.2.symm.trans hat
    · exact Table.exists_mem_updateWhere hr (fun _ => ⟨hhash, hclaim⟩) fun _ => ⟨hhash, hclaim⟩
  | put rec =>
    refine h.of_table le_rfl (fun r hr _ hat => ?_) fun _ r hr hhash hclaim => ?_
    · rcases KeyedTable.mem_insertOrIgnore.mp hr with hr | ⟨rfl, -⟩
      · exact hr
      · cases hat
    · exact ⟨r, KeyedTable.mem_insertOrIgnore.mpr (.inl hr), hhash, hclaim⟩
  | mirror actions =>
    exact h.of_table le_rfl (fun r hr _ _ => hr) fun _ r hr hhash hclaim => ⟨r, hr, hhash, hclaim⟩

/-! ### Each step -/

theorem next_mem_pending {p : PinProc} (h : p.next = some (run, pin)) :
    p.run = some run ∧ pin ∈ p.pending := by
  rcases p with _ | _ | pass | _ | _ | _ <;> simp only [PinProc.next, reduceCtorEq] at h
  obtain ⟨pin', hfilter, hpair⟩ := Option.map_eq_some_iff.mp h
  cases hpair
  exact ⟨rfl, List.mem_of_mem_head? (Option.eq_some_of_filter_eq_some hfilter)⟩

variable {p p' q : PinProc}

theorem PinAsserts.mono (hq : PinAsserts graceSeconds w q) (hclock : w.clock ≤ w'.clock)
    (hremovals : w.removals ⊆ w'.removals)
    (hheld : ∀ run claim, q.held = some (run, claim) → PinHeld graceSeconds w run claim →
      PinHeld graceSeconds w' run claim) : PinAsserts graceSeconds w' q where
  now_le run hr := (hq.now_le run hr).trans hclock
  pending := hq.pending
  held run claim hc := hheld run claim hc (hq.held run claim hc)
  removed claim hc := (hq.removed claim hc).imp (hremovals ·) (hremovals ·)

theorem PinInv.step (hw : PinInv graceSeconds w) (hp : PinAsserts graceSeconds w p)
    (hmover : pinsUndisturbed.mover w p) (h : CollectMove graceSeconds w p w' p') :
    PinInv graceSeconds w' := by
  cases h with
  | quiet => exact hw
  | select => exact hw
  | elsewhere hash => exact hw.disown
  | @claim pass pin rest row hrest hnext =>
    obtain ⟨hfile, hlast⟩ := hp.pending _ rfl pin (next_mem_pending hnext).2
    refine hw.mark (hp.now_le _ rfl) fun r hr hhash hclaimable => ?_
    obtain ⟨hlast', hfile'⟩ := (hmover.1 (_, pin) hnext).2 r hr hhash hclaimable
    exact ⟨hlast' ▸ hlast, hfile' ▸ hfile⟩
  | answer => exact ⟨hw.rows, hw.served⟩
  | finish pass claim next counts =>
    exact hw.apply next pass.counts (hmover.2 (_, claim) rfl)

theorem PinHeld.removal (h : PinHeld graceSeconds w run claim)
    (removals : List (Option String × RemoveOutcome)) :
    PinHeld graceSeconds { w with removals := removals } run claim :=
  ⟨h.claimed_le, h.lastServed_lt, h.unanchored, h.fileId, h.bears, h.there⟩

theorem PinAsserts.step (hp : PinAsserts graceSeconds w p) (hmover : pinsUndisturbed.mover w p)
    (h : CollectMove graceSeconds w p w' p') : PinAsserts graceSeconds w' p' := by
  cases h with
  | quiet hrun hpending hheld hdrops =>
    refine ⟨fun run hr => hp.now_le run (hrun run hr), fun run hr pin hpin => ?_,
      fun run claim hc => hp.held run claim (hheld _ hc), by simp [hdrops]⟩
    exact hp.pending run (hrun run hr) pin (hpending pin hpin)
  | select run total =>
    refine ⟨hp.now_le, fun run' hr pin hpin => ?_, by simp [PinProc.held], by simp [PinProc.drops]⟩
    obtain rfl : run = run' := Option.some.inj hr
    obtain ⟨hfile, -, hlast, -⟩ := isCollectable_iff.mp (mem_getCollectablePins hpin).2
    exact ⟨Option.isSome_iff_ne_none.mp hfile, hlast⟩
  | elsewhere hash hrun hrest =>
    refine ⟨fun run hr => hp.now_le run (hr ▸ congrArg some hrun.symm), fun run hr pin hpin => ?_,
      by simp [PinProc.held], by simp [PinProc.drops]⟩
    exact hp.pending run (hr ▸ congrArg some hrun.symm) pin (hrest pin hpin)
  | @claim pass pin rest row hrest hnext hmem hhash hclaimable =>
    refine ⟨hp.now_le, fun run hr pin' hpin => ?_, fun run claim hc => ?_, by simp [PinProc.drops]⟩
    · have hmem' : pin' ∈ pass.rest := hrest ▸ List.mem_cons_of_mem pin hpin
      exact hp.pending run hr pin' hmem'
    · cases hc
      exact .of_mark (hp.pending _ rfl pin (next_mem_pending hnext).2).2
        (hmover.1 (_, pin) hnext) hmem hhash hclaimable
  | answer pass claim outcome counts =>
    refine ⟨hp.now_le, hp.pending, fun run claim' hc => (hp.held run claim' hc).removal _,
      fun claim' hc => ?_⟩
    -- only these answers lead to a drop
    cases outcome with
    | removed =>
      cases hc
      exact .inl List.mem_cons_self
    | already_gone =>
      cases hc
      exact .inr List.mem_cons_self
    | not_ours | throws => exact nomatch hc
  | finish pass claim next counts =>
    exact ⟨hp.now_le, hp.pending, by simp [PinProc.held], by simp [PinProc.drops]⟩

theorem PinAsserts.other (hq : PinAsserts graceSeconds w q) (hw : PinInv graceSeconds w)
    (hp : PinAsserts graceSeconds w p) (hmover : pinsUndisturbed.mover w p)
    (hothers : pinsUndisturbed.others w p q) (hapart : PinApart p q)
    (h : CollectMove graceSeconds w p w' p') :
    PinAsserts graceSeconds w' q ∧ PinApart p' q := by
  cases h with
  | quiet hrun hpending hheld =>
    exact ⟨hq, fun run claim run' claim' hc => hapart run claim run' claim' (hheld _ hc)⟩
  | select run total => exact ⟨hq, .of_unheld rfl⟩
  | elsewhere hash =>
    exact ⟨hq.mono le_rfl (fun _ h => h) fun run claim _ h => h.disown, .of_unheld rfl⟩
  | @claim pass pin rest row hrest hnext hmem hhash hclaimable =>
    refine ⟨hq.mono le_rfl (fun _ h => h) fun run claim hc h => ?_,
      fun run claim run' claim' hc hc' => ?_⟩
    · exact h.mark (hp.now_le _ rfl) (hothers (_, pin) hnext (run, claim) hc)
    · cases hc
      intro hsame
      refine ⟨(hothers (_, pin) hnext (run', claim') hc' hsame.symm).symm, .inr ?_⟩
      exact (hq.held run' claim' hc').expired (hp.now_le _ rfl)
        (hp.pending _ rfl pin (next_mem_pending hnext).2).1 (hmover.1 (_, pin) hnext) hmem hhash
        hsame.symm hclaimable
  | answer pass claim outcome counts =>
    exact ⟨hq.mono le_rfl (List.subset_cons_self _ _) fun run claim _ h => h.removal _, hapart⟩
  | finish pass claim next counts =>
    refine ⟨hq.mono le_rfl (fun _ h => h) fun run' claim' hc h => ?_, .of_unheld rfl⟩
    refine h.apply hw next pass.counts (hmover.2 (_, claim) rfl) fun hsame => ?_
    exact ((hapart _ claim run' claim' rfl hc hsame.symm).1).symm

end Invariant

def pinSound (graceSeconds : ℤ) :
    (pinProgram graceSeconds).SoundWhen pinsUndisturbed PinInit where
  inv := PinInv graceSeconds
  asserts := PinAsserts graceSeconds
  apart := PinApart
  symm p q h run claim run' claim' hp hq hsame := by
    obtain ⟨hne, hexpired⟩ := h run' claim' run claim hq hp hsame.symm
    exact ⟨hne.symm, hexpired.symm⟩
  init w h := by
    refine ⟨fun r hr at_ hat => ?_, fun d hd => ?_⟩
    · cases (h.1 r hr).symm.trans hat
    · exact absurd hd (by simp [h.2])
  start w p _ _ h := by
    obtain ⟨limit, rfl⟩ := h
    refine ⟨⟨fun run hr => ?_, by simp [PinProc.pending], by simp [PinProc.held],
      by simp [PinProc.drops]⟩, fun _ _ => .of_unheld rfl⟩
    cases hr
    exact le_rfl
  step w p w' p' _ hmover hw hp h := by
    obtain ⟨input, hstep⟩ := h
    exact ⟨hw.step hp hmover (collectStep_cases hstep), hp.step hmover (collectStep_cases hstep)⟩
  noninterference w p w' p' q _ hmover hothers hw hp hq hapart h := by
    obtain ⟨input, hstep⟩ := h
    exact hq.other hw hp hmover hothers hapart (collectStep_cases hstep)
  env w w' _ hw h := by
    have hkept : w.clock ≤ w'.clock ∧ w.removals = w'.removals := by
      cases h with
      | tick h => exact ⟨h, rfl⟩
      | _ => exact ⟨le_rfl, rfl⟩
    exact ⟨hw.env h, fun p hp => hp.mono hkept.1 (hkept.2 ▸ fun _ h => h)
      fun run claim _ held => held.env h⟩

/-! ### The results -/

section Results

variable {ι : Type*} [DecidableEq ι]

/-- What the collector promises: what each open claim was made on, no removal within the grace
period, one unexpired claim on a row, and no row dropped before its own file was removed. -/
structure PinsSafe (graceSeconds : ℤ) (s : Interleaved PinWorld PinProc ι) : Prop where
  claimed : ∀ i p run claim, s.procs i = some p → p.held = some (run, claim) →
    claim.row.lastServedAt < run.now - graceSeconds ∧ claim.anchored = false ∧
      claim.row.pinataFileId = claim.pin.pinataFileId
  kept : ∀ i pass claim, s.procs i = some (.claimed pass claim) →
    StillClaimed s.shared pass.run claim → ∀ d ∈ s.shared.served, d.hash = claim.pin.hash →
      d.servedAt + graceSeconds < s.shared.clock
  one : ∀ i j p q run claim run' claim', i ≠ j → s.procs i = some p → s.procs j = some q →
    p.held = some (run, claim) → q.held = some (run', claim') → claim.pin.hash = claim'.pin.hash →
      run.now < s.shared.clock - PIN_STALE_CLAIM_SECONDS ∨
        run'.now < s.shared.clock - PIN_STALE_CLAIM_SECONDS
  dropped : ∀ i p input w p', s.procs i = some p → pinsUndisturbed.mover s.shared p →
    collectStep graceSeconds input s.shared p = some (w, p') → ∀ r ∈ s.shared.pins.rows,
      (∀ r' ∈ w.pins.rows, r'.hash ≠ r.hash) →
        (r.pinataFileId, .removed) ∈ s.shared.removals ∨
          (r.pinataFileId, .already_gone) ∈ s.shared.removals

theorem CollectMove.drops {graceSeconds : ℤ} {w w' : PinWorld} {p p' : PinProc}
    (h : CollectMove graceSeconds w p w' p') (hr : r ∈ w.pins.rows)
    (hgone : ∀ r' ∈ w'.pins.rows, r'.hash ≠ r.hash) :
    ∃ run claim, p.held = some (run, claim) ∧ p.drops = some claim ∧ r.hash = claim.pin.hash := by
  have hupdated : ∀ {q : PinRow → Bool} {f : PinRow → PinRow}, (∀ r, q r = true →
      (f r).hash = r.hash) → ¬∀ r' ∈ Table.updateWhere q f w.pins.rows, r'.hash ≠ r.hash := by
    intro q f hhash hgone
    obtain ⟨r', hr', hsame⟩ := Table.exists_mem_updateWhere (P := fun r' => r'.hash = r.hash) hr
      (hhash r) fun _ => rfl
    exact hgone r' hr' hsame
  cases h with
  | quiet | select | answer => exact absurd rfl (hgone r hr)
  | elsewhere hash | claim => exact absurd hgone (hupdated fun _ _ => rfl)
  | finish pass claim next counts =>
    cases next with
    | drop =>
      refine ⟨_, claim, rfl, rfl, ?_⟩
      by_contra hne
      exact hgone r (mem_drop.mpr ⟨hr, beq_eq_false_iff_ne.mpr hne⟩) rfl
    | disown | release => exact absurd hgone (hupdated fun _ _ => rfl)

/-- **Undisturbed runs are safe.** -/
theorem pins_safe {graceSeconds : ℤ} {s : Interleaved PinWorld PinProc ι}
    (h : (((pinProgram graceSeconds).system ι PinInit).restrict pinsUndisturbed.Met).Reachable s) :
    PinsSafe graceSeconds s := by
  obtain ⟨hinv, hasserts, hapart⟩ := (pinSound graceSeconds).holds h
  constructor
  · intro i p run claim hi hheld
    have hclaim := (hasserts i p hi).held run claim hheld
    exact ⟨hclaim.lastServed_lt, hclaim.unanchored, hclaim.fileId⟩
  · intro i pass claim hi hstill d hd hhash
    rcases (hinv.served d hd).2 with hlate | ⟨r, hr, hrhash, hlast⟩
    · exact hlate
    · -- the row bears the claim, and so it was not served since long before
      obtain ⟨hnow, hgrace, -⟩ := hinv.rows r hr _ (hstill r hr (hrhash.trans hhash))
      omega
  · intro i j p q run claim run' claim' hij hi hj hheld hheld' hsame
    have hle := ((hasserts i p hi).held run claim hheld).claimed_le
    have hle' := ((hasserts j q hj).held run' claim' hheld').claimed_le
    obtain ⟨-, hexpired⟩ := hapart i j p q hij hi hj run claim run' claim' hheld hheld' hsame
    exact hexpired.imp (fun hlt => hlt.trans_le (Int.sub_le_sub_right hle' _))
      fun hlt => hlt.trans_le (Int.sub_le_sub_right hle _)
  · intro i p input w p' hi hmover hstep r hr hgone
    obtain ⟨run, claim, hheld, hdrops, hhash⟩ :=
      (collectStep_cases hstep).drops hr hgone
    have hfile := ((hasserts i p hi).held run claim hheld).bears r hr hhash
      (hmover.2 (run, claim) hheld r hr hhash)
    exact hfile ▸ (hasserts i p hi).removed claim hdrops

end Results

/-! ### Three runs -/

def samplePinWorld : PinWorld where
  pins := putGovActionMetadata .empty ⟨"hash", "cid", 0, some "file", none⟩
  actions := []
  clock := 0
  served := []
  removals := []

def samplePin (lastServedAt : ℤ) : PinRow :=
  ⟨"hash", "cid", .cip108, 0, lastServedAt, some "file", none, 0⟩

def samplePinTime : ℤ := 8 * 24 * 60 * 60

theorem samplePinTime_pos : samplePinWorld.clock ≤ samplePinTime := by decide

theorem pin_reachable_init {ι : Type*} [DecidableEq ι] {c : Program.Condition PinWorld PinProc} :
    (((pinProgram PIN_GRACE_SECONDS).system ι PinInit).restrict c.Met).Reachable
      ⟨samplePinWorld, fun _ => none⟩ := by
  have hunclaimed : ∀ r ∈ samplePinWorld.pins.rows, r.deletingAt = none := by decide
  exact .init ⟨⟨hunclaimed, rfl⟩, fun _ => rfl⟩

instance (w : PinWorld) (p : PinProc) : Decidable (pinsUndisturbed.mover w p) :=
  inferInstanceAs (Decidable ((∀ next ∈ p.next, _) ∧ ∀ held ∈ p.held, _))

/-- The steps that meet the condition, as long as there is one run. -/
def collectStepUndisturbed (graceSeconds : ℤ) (input : PinInput) (w : PinWorld) (p : PinProc) :
    Option (PinWorld × PinProc) :=
  if pinsUndisturbed.mover w p then collectStep graceSeconds input w p else none

theorem collectStep_moves (graceSeconds : ℤ) (input : PinInput) (w : PinWorld) (p : PinProc)
    (w' : PinWorld) (p' : PinProc) (h : collectStep graceSeconds input w p = some (w', p')) :
    (pinProgram graceSeconds).Step w p w' p' :=
  ⟨input, h⟩

theorem collectStepUndisturbed_met (graceSeconds : ℤ) (s : Interleaved PinWorld PinProc Unit)
    (i : Unit) (input : PinInput) (p : PinProc) (w' : PinWorld) (p' : PinProc)
    (hp : s.procs i = some p)
    (h : collectStepUndisturbed graceSeconds input s.shared p = some (w', p')) :
    (pinProgram graceSeconds).Step s.shared p w' p' ∧ pinsUndisturbed.Met s (.step i) := by
  rw [collectStepUndisturbed] at h
  split_ifs at h with hmover
  refine ⟨⟨input, h⟩, trivial, fun q hq => ?_⟩
  cases hp.symm.trans hq
  exact ⟨hmover, fun j _ hj => absurd rfl hj⟩

/-- A document is handed out, and collected after its grace period. -/
theorem pins_safe_once : ∃ s : Interleaved PinWorld PinProc Unit,
    s.shared.served = [⟨"hash", 0⟩] ∧ s.shared.removals = [(some "file", .removed)] ∧
      s.shared.pins.rows = [] ∧ PinsSafe PIN_GRACE_SECONDS s := by
  have h₁ := Program.reachable_env (pin_reachable_init (ι := Unit) (c := pinsUndisturbed)) trivial
    (PinEnv.serve "hash")
  have h₂ := Program.reachable_env h₁ trivial (PinEnv.tick samplePinTime_pos)
  have h₃ := Program.reachable_start h₂ (i := ()) trivial rfl ⟨10, rfl⟩
  have h₄ := Program.reachable_runMet (collectStepUndisturbed_met _) h₃
    ([.statement, .elsewhere (some []), .statement, .removal .removed, .statement, .statement].map
      ((), ·)) (by decide +kernel)
  exact ⟨_, by decide +kernel, by decide +kernel, by decide +kernel, pins_safe h₄⟩

/-- **What goes wrong.** A document is served between the selection and the claim; and a run that
comes back after its lease drops a row whose file nobody has removed. -/
theorem not_pins_safe : PIN_STALE_CLAIM_SECONDS < PIN_GRACE_SECONDS ∧
    (∃ s : Interleaved PinWorld PinProc ℕ,
      ((pinProgram PIN_GRACE_SECONDS).system ℕ PinInit).Reachable s ∧
        s.shared.served = [⟨"hash", samplePinTime⟩] ∧ s.shared.clock = samplePinTime ∧
        s.procs 0 = some (.claimed ⟨⟨samplePinTime, 10⟩, [], ⟨1, 0, 0, 0, 0, 1⟩, []⟩
          ⟨samplePin 0, samplePin samplePinTime, false, samplePinTime⟩)) ∧
    ∃ s : Interleaved PinWorld PinProc ℕ,
      ((pinProgram PIN_GRACE_SECONDS).system ℕ PinInit).Reachable s ∧
        s.shared.removals = [(some "file", .already_gone), (some "file", .removed)] ∧
        s.shared.pins.rows.map (·.pinataFileId) = [some "other file"] ∧
        (s.procs 0).any fun p => (collectStep PIN_GRACE_SECONDS .statement s.shared p).any
          (·.1.pins.rows.isEmpty) := by
  have h₀ := (pin_reachable_init (ι := ℕ) (c := Program.Condition.none)).of_restrict
  have h₁ := h₀.step (.env (PinEnv.tick samplePinTime_pos))
  have h₂ := h₁.step (.start (i := 0) rfl ⟨10, rfl⟩)
  refine ⟨by decide, ?_, ?_⟩
  · have h₃ := Program.reachable_run (collectStep_moves _) h₂
      ([.statement, .elsewhere (some [])].map (0, ·)) (by decide +kernel)
    have h₄ := h₃.step (.env (PinEnv.serve "hash"))
    have h₅ := Program.reachable_run (collectStep_moves _) h₄ [(0, .statement)] (by decide +kernel)
    exact ⟨_, h₅, by decide +kernel, by decide +kernel, by decide +kernel⟩
  · have h₃ := Program.reachable_run (collectStep_moves _) h₂
      ([.statement, .elsewhere (some []), .statement].map (0, ·)) (by decide +kernel)
    have hlater : samplePinTime ≤ samplePinTime + 3601 := by decide
    have h₄ := h₃.step (.env (PinEnv.tick hlater))
    have h₅ := h₄.step (.start (i := 1) (by decide +kernel) ⟨10, rfl⟩)
    have h₆ := Program.reachable_run (collectStep_moves _) h₅
      ([.statement, .elsewhere (some []), .statement, .removal .removed, .statement].map (1, ·))
      (by decide +kernel)
    have h₇ := h₆.step (.env (PinEnv.put ⟨"hash", "cid", samplePinTime, some "other file", none⟩))
    have h₈ := Program.reachable_run (collectStep_moves _) h₇ [(0, .removal .already_gone)]
      (by decide +kernel)
    exact ⟨_, h₈, by decide +kernel, by decide +kernel, by decide +kernel⟩

end DrepTalk
