import DrepTalk.Badges.Awards
import DrepTalk.Library.Interleaving

/-!
# Interleaved runs of the badge engine

Any number of `awardBadges` runs, interleaved between their statements and batches, each of which
may fail. The awards that a run finds justified are those its queries have seen while the database
was changing: any list. Beside the table the run records the awards that have been written.

**Awards are permanent** (`AwardsLogged`): every statement keeps each row, or raises its tier, so
that the tier of a row is the highest ever written for it. What a run has read or written is
therefore still there, or better, when it has finished, whatever other runs have done meanwhile.
-/

namespace DrepTalk

/-- What a run works with: the awards it found justified, and those it has read. -/
structure BadgeRun where
  desired : List BadgeAward
  existing : List BadgeAwardRow
  now : ℤ
  deriving DecidableEq

structure BadgeRunResult where
  desired : ℕ
  written : ℕ

/-- The awards of a run, with the collector badges. -/
def BadgeRun.awards (run : BadgeRun) : List BadgeAward := allDesired run.existing run.desired

def BadgeRun.result (run : BadgeRun) : BadgeRunResult :=
  ⟨run.awards.length, (awardChanges run.existing run.desired).length⟩

/-- The tables, and the awards written so far. -/
structure BadgeWorld where
  table : AwardTable
  holders : List (String × ℕ × ℤ)
  written : List BadgeAward

/-- A run of `awardBadges`, by its next statement. -/
inductive BadgeProc
  | getAllAwards (desired : List BadgeAward) (now : ℤ)
  | applyAwards (run : BadgeRun) (todo : List BadgeAward)
  | countHolders (run : BadgeRun)
  | replaceCounts (run : BadgeRun) (counts : List (String × ℕ))
  | returned (run : BadgeRun)
  | threw
  deriving DecidableEq

/-- The next statement of a run; it may fail. -/
def badgeStep (fails : Bool) (w : BadgeWorld) (l : BadgeProc) : Option (BadgeWorld × BadgeProc) :=
  if fails then some (w, .threw)
  else
    match l with
    | .getAllAwards desired now =>
      some (w, .applyAwards ⟨desired, w.table.rows, now⟩ (awardChanges w.table.rows desired))
    | .applyAwards run [] => some (w, .countHolders run)
    | .applyAwards run todo =>
      some ({ w with
        table := applyChunk w.table (todo.take AWARD_CHUNK) run.now
        written := w.written ++ todo.take AWARD_CHUNK }, .applyAwards run (todo.drop AWARD_CHUNK))
    | .countHolders run => some (w, .replaceCounts run (holderCounts w.table.rows))
    | .replaceCounts run counts =>
      some ({ w with holders := counts.map fun (badgeId, n) => (badgeId, n, run.now) },
        .returned run)
    | .returned _ | .threw => none

/-- Runs of the engine; nothing else writes awards. -/
def badgeProgram : Program BadgeWorld BadgeProc where
  Start _ l := ∃ desired now, l = .getAllAwards desired now
  Step w l w' l' := ∃ fails, badgeStep fails w l = some (w', l')
  Env w w' := w' = w

/-- Any table; what is in it counts as written. -/
def BadgeWorld.Initial (w : BadgeWorld) : Prop :=
  w.written = w.table.rows.map (·.toBadgeAward)

/-! ### What a batch does -/

/-- The tier of each row is the highest that has been written for it. -/
structure AwardsLogged (table : AwardTable) (written : List BadgeAward) : Prop where
  attained : ∀ row ∈ table.rows, row.toBadgeAward ∈ written
  highest : ∀ row ∈ table.rows, ∀ a ∈ written, a.key = row.key → a.tier ≤ row.tier
  held : ∀ a ∈ written, ∃ row ∈ table.rows, row.key = a.key

/-- The badge is held, with at least the tier. -/
def Holds (table : AwardTable) (a : BadgeAward) : Prop :=
  ∃ row ∈ table.rows, row.key = a.key ∧ a.tier ≤ row.tier

variable {table table' : AwardTable} {written : List BadgeAward}

theorem AwardsLogged.applyAward (h : AwardsLogged table written) (a : BadgeAward) (now : ℤ) :
    AwardsLogged (applyAward now table a) (written ++ [a]) := by
  refine ⟨fun row hrow => ?_, fun row hrow b hb hkey => ?_, fun b hb => ?_⟩
  · rcases mem_applyAward.mp hrow with ⟨hold, -⟩ | ⟨row₀, hrow₀, hkey, rfl⟩ | ⟨rfl, -⟩
    · exact List.mem_append_left _ (h.attained row hold)
    · rw [upgrade]
      split_ifs with hlt
      · rw [hkey]
        exact List.mem_append_right _ (List.mem_singleton_self a)
      · exact List.mem_append_left _ (h.attained row₀ hrow₀)
    · exact List.mem_append_right _ (List.mem_singleton_self a)
  · rcases mem_applyAward.mp hrow with ⟨hold, hother⟩ | ⟨row₀, hrow₀, hkey₀, rfl⟩ | ⟨rfl, hfree⟩
    · rcases List.mem_append.mp hb with hb | hb
      · exact h.highest row hold b hb hkey
      · obtain rfl := List.mem_singleton.mp hb
        exact absurd hkey.symm hother
    · rw [upgrade_tier]
      rw [upgrade_key] at hkey
      rcases List.mem_append.mp hb with hb | hb
      · exact (h.highest row₀ hrow₀ b hb hkey).trans (le_max_left _ _)
      · obtain rfl := List.mem_singleton.mp hb
        exact le_max_right _ _
    · rcases List.mem_append.mp hb with hb | hb
      · obtain ⟨row, hmem, hkey'⟩ := h.held b hb
        exact absurd (List.mem_map.mpr ⟨row, hmem, hkey'.trans hkey⟩) hfree
      · obtain rfl := List.mem_singleton.mp hb
        exact le_rfl
  · rcases List.mem_append.mp hb with hb | hb
    · obtain ⟨row, hmem, hkey⟩ := h.held b hb
      obtain ⟨row', hmem', hkey'⟩ := KeyedTable.held_upsert ⟨a, now, none⟩
        (fun row _ => upgrade_key a now row) hmem
      exact ⟨row', hmem', hkey'.trans hkey⟩
    · obtain rfl := List.mem_singleton.mp hb
      exact KeyedTable.held_upsert_row fun row _ => upgrade_key b now row

theorem AwardsLogged.applyChunk (chunk : List BadgeAward) (h : AwardsLogged table written)
    (now : ℤ) : AwardsLogged (applyChunk table chunk now) (written ++ chunk) := by
  induction chunk generalizing table written with
  | nil => rwa [List.append_nil]
  | cons a chunk ih =>
    have hrest := ih (h.applyAward a now)
    rwa [List.append_assoc, List.singleton_append] at hrest

variable {a : BadgeAward} {w w' : BadgeWorld}

theorem AwardsLogged.holds (h : AwardsLogged table written) (ha : a ∈ written) : Holds table a := by
  obtain ⟨row, hmem, hkey⟩ := h.held a ha
  exact ⟨row, hmem, hkey, h.highest row hmem a ha hkey.symm⟩

theorem holds_of_not_isChange (h : isChange table.rows a = false) : Holds table a := by
  rw [isChange, existingTier] at h
  rcases hlast : (table.rows.filter fun row => row.key == a.key).getLast? with _ | row
  · rw [hlast] at h
    cases h
  · obtain ⟨hmem, hkey⟩ := List.mem_filter.mp (List.mem_of_getLast? hlast)
    rw [hlast] at h
    exact ⟨row, hmem, beq_iff_eq.mp hkey, not_lt.mp (of_decide_eq_false h)⟩

/-! ### The invariant -/

/-- Every row stays, as good as before. -/
def AwardsGrow (table table' : AwardTable) : Prop :=
  ∀ row ∈ table.rows, ∃ row' ∈ table'.rows, Upgrades row row'

theorem AwardsGrow.refl (table : AwardTable) : AwardsGrow table table :=
  fun row h => ⟨row, h, .refl row⟩

theorem AwardsGrow.trans {table'' : AwardTable} (h : AwardsGrow table table')
    (h' : AwardsGrow table' table'') : AwardsGrow table table'' := by
  intro row hrow
  obtain ⟨row', hrow', hup⟩ := h row hrow
  obtain ⟨row'', hrow'', hup'⟩ := h' row' hrow'
  exact ⟨row'', hrow'', hup.trans hup'⟩

theorem Holds.mono (h : Holds table a) (hgrows : AwardsGrow table table') : Holds table' a := by
  obtain ⟨row, hrow, hkey, htier⟩ := h
  obtain ⟨row', hrow', hup⟩ := hgrows row hrow
  exact ⟨row', hrow', hup.key.trans hkey, htier.trans hup.tier⟩

/-- What a run has seen to, of the awards it is for. -/
def BadgeProc.Asserts (w : BadgeWorld) : BadgeProc → Prop
  | .applyAwards run todo => ∀ a ∈ run.awards, a ∈ todo ∨ Holds w.table a
  | .countHolders run | .replaceCounts run _ | .returned run => ∀ a ∈ run.awards, Holds w.table a
  | _ => True

theorem BadgeProc.Asserts.mono {l : BadgeProc} (h : l.Asserts w)
    (hgrows : AwardsGrow w.table w'.table) : l.Asserts w' := by
  rcases l with _ | ⟨run, todo⟩ | run | ⟨run, counts⟩ | run | _
  · exact trivial
  · exact fun a ha => (h a ha).imp_right fun hheld => hheld.mono hgrows
  · exact fun a ha => (h a ha).mono hgrows
  · exact fun a ha => (h a ha).mono hgrows
  · exact fun a ha => (h a ha).mono hgrows
  · exact trivial

theorem badgeStep_keeps {fails : Bool} {l l' : BadgeProc} (hw : AwardsLogged w.table w.written)
    (hl : l.Asserts w) (h : badgeStep fails w l = some (w', l')) :
    AwardsLogged w'.table w'.written ∧ l'.Asserts w' ∧ AwardsGrow w.table w'.table := by
  unfold badgeStep at h
  split_ifs at h
  · cases h
    exact ⟨hw, trivial, .refl _⟩
  · rcases l with ⟨desired, now⟩ | ⟨run, _ | ⟨a, todo⟩⟩ | run | ⟨run, counts⟩ | _ | _
    · cases h
      refine ⟨hw, fun a ha => ?_, .refl _⟩
      by_cases hchange : isChange w.table.rows a = true
      · exact .inl (List.mem_filter.mpr ⟨ha, hchange⟩)
      · exact .inr (holds_of_not_isChange (Bool.not_eq_true _ ▸ hchange))
    · cases h
      exact ⟨hw, fun a ha => (hl a ha).resolve_left List.not_mem_nil, .refl _⟩
    · cases h
      have hgrows : AwardsGrow w.table
          (applyChunk w.table ((a :: todo).take AWARD_CHUNK) run.now) := fun row hrow =>
        applyChunk_upgrades hrow
      have hlogged := hw.applyChunk ((a :: todo).take AWARD_CHUNK) run.now
      refine ⟨hlogged, fun b hb => ?_, hgrows⟩
      rcases hl b hb with htodo | hheld
      · rw [← List.take_append_drop AWARD_CHUNK (a :: todo)] at htodo
        rcases List.mem_append.mp htodo with hnow | hlater
        · exact .inr (hlogged.holds (List.mem_append_right _ hnow))
        · exact .inl hlater
      · exact .inr (hheld.mono hgrows)
    · cases h
      exact ⟨hw, hl, .refl _⟩
    · cases h
      exact ⟨hw, hl, .refl _⟩
    · cases h
    · cases h

def badgeSound : badgeProgram.Sound BadgeWorld.Initial where
  inv w := AwardsLogged w.table w.written
  asserts w l := l.Asserts w
  apart _ _ := True
  symm _ _ _ := trivial
  init w h := by
    rw [h]
    refine ⟨fun row hrow => List.mem_map_of_mem hrow, fun row hrow a ha hkey => ?_, fun a ha => ?_⟩
    · obtain ⟨row', hrow', rfl⟩ := List.mem_map.mp ha
      rw [w.table.eq_of_key hrow' hrow hkey]
    · obtain ⟨row, hrow, rfl⟩ := List.mem_map.mp ha
      exact ⟨row, hrow, rfl⟩
  start w l _ h := by
    obtain ⟨desired, now, rfl⟩ := h
    exact ⟨trivial, fun _ _ => trivial⟩
  step w l w' l' hw hl h := by
    obtain ⟨fails, h⟩ := h
    obtain ⟨hlogged, hasserts, -⟩ := badgeStep_keeps hw hl h
    exact ⟨hlogged, hasserts⟩
  noninterference w l w' l' m hw hl hm _ h := by
    obtain ⟨fails, h⟩ := h
    exact ⟨hm.mono (badgeStep_keeps hw hl h).2.2, trivial⟩
  env w w' hw h := by
    subst h
    exact ⟨hw, fun _ hm => hm⟩

/-! ### Every run -/

section Runs

variable {ι : Type*} [DecidableEq ι] {s s' : Interleaved BadgeWorld BadgeProc ι}

theorem moves_grows (h : (badgeProgram.system ι BadgeWorld.Initial).Reachable s) {m : Move ι}
    (hmove : badgeProgram.Moves s m s') : AwardsGrow s.shared.table s'.shared.table := by
  obtain ⟨hlogged, hasserts, -⟩ := badgeSound.holds h
  rcases hmove with ⟨_, _⟩ | ⟨hproc, fails, hstep⟩ | henv
  · exact .refl _
  · exact (badgeStep_keeps hlogged (hasserts _ _ hproc) hstep).2.2
  · exact henv ▸ .refl _

/-- **Awards are permanent in every run.** -/
theorem awards_permanent (h : (badgeProgram.system ι BadgeWorld.Initial).Reachable s) :
    (∀ s', (badgeProgram.system ι BadgeWorld.Initial).Leads s s' →
      ∀ row ∈ s.shared.table.rows, ∃ row' ∈ s'.shared.table.rows, Upgrades row row') ∧
      AwardsLogged s.shared.table s.shared.written ∧
      (∀ p run, s.procs p = some (.returned run) → ∀ a ∈ run.awards, Holds s.shared.table a) ∧
      ∀ p run userId, s.procs p = some (.returned run) →
        (∀ b ∈ BADGES, b.category = .forum → b.hidden = false →
          ⟨.user, userId, b.id⟩ ∈ run.existing.map (·.key) ++ run.desired.map (·.key)) →
        ∃ row ∈ s.shared.table.rows, row.key = ⟨.user, userId, "collector"⟩ := by
  obtain ⟨hlogged, hasserts, -⟩ := badgeSound.holds h
  refine ⟨fun s' hleads => ?_, hlogged, fun p run hp => hasserts p _ hp,
    fun p run userId hp hall => ?_⟩
  · exact h.stable (P := fun s' => AwardsGrow s.shared.table s'.shared.table)
      (fun _ _ _ hs hgrows hmove => hgrows.trans (moves_grows hs hmove)) hleads (.refl _)
  · have hcollector : ⟨⟨.user, userId, "collector"⟩, 0⟩ ∈ run.awards := by
      refine List.mem_append_right _ (mem_collectorAwards fun badgeId hid => ?_)
      obtain ⟨b, hb, rfl⟩ := List.mem_map.mp hid
      obtain ⟨hmem, hvisible⟩ := List.mem_filter.mp hb
      rw [Bool.and_eq_true, beq_iff_eq, Bool.not_eq_true'] at hvisible
      exact hall b hmem hvisible.1 hvisible.2
    obtain ⟨row, hrow, hkey, -⟩ := hasserts p _ hp _ hcollector
    exact ⟨row, hrow, hkey⟩

end Runs

/-- Two runs read before either writes; the one with the lower tier writes last. -/
theorem awards_permanent_overlapping :
    ∃ s : Interleaved BadgeWorld BadgeProc ℕ,
      (badgeProgram.system ℕ BadgeWorld.Initial).Reachable s ∧
        s.shared.table.rows = [⟨⟨⟨.user, "ada", "regular"⟩, 2⟩, 100, none⟩] ∧
        s.procs 0 = some (.returned ⟨[⟨⟨.user, "ada", "regular"⟩, 1⟩], [], 200⟩) ∧
        AwardsLogged s.shared.table s.shared.written := by
  have h₀ : (badgeProgram.system ℕ BadgeWorld.Initial).Reachable
      ⟨⟨.empty, [], []⟩, fun _ => none⟩ := .init ⟨rfl, fun _ => rfl⟩
  have h₁ := h₀.step (.start (i := 0) rfl ⟨[⟨⟨.user, "ada", "regular"⟩, 1⟩], 200, rfl⟩)
  have h₂ := h₁.step (.start (i := 1) rfl ⟨[⟨⟨.user, "ada", "regular"⟩, 2⟩], 100, rfl⟩)
  have h₃ := Program.reachable_run (P := badgeProgram) (fun k _ _ _ _ h => ⟨k, h⟩) h₂
    ([0, 1, 1, 0, 0, 0, 0].map fun i => (i, false)) (by decide +kernel)
  exact ⟨_, h₃, by decide +kernel, by decide +kernel, (awards_permanent h₃).2.1⟩

end DrepTalk
