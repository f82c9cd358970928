import DrepTalk.Library.TransitionSystem
import Mathlib.Data.Fintype.Basic

/-!
# Interleaved processes over a shared state

Any number of processes take atomic steps on one shared state, in any order. Each has a local
state of its own; it may start at any time, and one that is never scheduled again has died. An
environment may change the shared state in between.

**One rule for all interleavings** (`Program.Sound.holds`). An invariant has three parts: what
holds of the shared state, what each process may assert about it (`asserts`, where it stands in
its code), and how any two processes stand to each other (`apart`). Each part is checked for one
step: the one who moves establishes its own assertion, and interferes with no other.

**Runs that meet a condition** (`SoundWhen`). Where a program keeps its invariant only as long as
no process moves at the wrong moment, the condition says what the moment must be like: for the
shared state, for the one who moves, and for each of the others.
-/

namespace DrepTalk

/-- What processes of one kind do: how they start, their atomic steps, and what else may happen
to the shared state. -/
structure Program (σ τ : Type*) where
  Start : σ → τ → Prop
  Step : σ → τ → σ → τ → Prop
  Env : σ → σ → Prop

/-- The shared state and the processes that have started. -/
structure Interleaved (σ τ ι : Type*) where
  shared : σ
  procs : ι → Option τ

/-- Who moved. -/
inductive Move (ι : Type*)
  | start (i : ι)
  | step (i : ι)
  | env

namespace Program

variable {σ τ ι : Type*} [DecidableEq ι] (P : Program σ τ)

/-- One move of an interleaving. -/
inductive Moves : Interleaved σ τ ι → Move ι → Interleaved σ τ ι → Prop
  | start {s : σ} {procs : ι → Option τ} {i : ι} {l : τ} (hnew : procs i = none)
      (hstart : P.Start s l) : Moves ⟨s, procs⟩ (.start i) ⟨s, Function.update procs i (some l)⟩
  | step {s s' : σ} {procs : ι → Option τ} {i : ι} {l l' : τ} (hproc : procs i = some l)
      (hstep : P.Step s l s' l') :
      Moves ⟨s, procs⟩ (.step i) ⟨s', Function.update procs i (some l')⟩
  | env {s s' : σ} {procs : ι → Option τ} (henv : P.Env s s') : Moves ⟨s, procs⟩ .env ⟨s', procs⟩

/-- All interleavings, from the given shared states with no process started. -/
def system (ι : Type*) [DecidableEq ι] (Init : σ → Prop) :
    TransitionSystem (Interleaved σ τ ι) (Move ι) where
  Init s := Init s.shared ∧ ∀ i, s.procs i = none
  Step := P.Moves

/-- The parts of an invariant, and that one step keeps them. -/
structure Sound (P : Program σ τ) (Init : σ → Prop) where
  inv : σ → Prop
  asserts : σ → τ → Prop
  apart : τ → τ → Prop
  symm : ∀ l m, apart l m → apart m l
  init : ∀ s, Init s → inv s
  start : ∀ s l, inv s → P.Start s l → asserts s l ∧ ∀ m, asserts s m → apart l m
  step : ∀ s l s' l', inv s → asserts s l → P.Step s l s' l' → inv s' ∧ asserts s' l'
  noninterference : ∀ s l s' l' m, inv s → asserts s l → asserts s m → apart l m →
    P.Step s l s' l' → asserts s' m ∧ apart l' m
  env : ∀ s s', inv s → P.Env s s' → inv s' ∧ ∀ m, asserts s m → asserts s' m

/-- A condition on the moves of a run. -/
structure Condition (σ τ : Type*) where
  state : σ → Prop
  mover : σ → τ → Prop
  others : σ → τ → τ → Prop

/-- The state a move is made in meets the condition. -/
def Condition.Met (c : Condition σ τ) (s : Interleaved σ τ ι) : Move ι → Prop
  | .step i => c.state s.shared ∧ ∀ l, s.procs i = some l → c.mover s.shared l ∧
      ∀ j m, j ≠ i → s.procs j = some m → c.others s.shared l m
  | _ => c.state s.shared

/-- No condition. -/
def Condition.none : Condition σ τ := ⟨fun _ => True, fun _ _ => True, fun _ _ _ => True⟩

/-- The parts of an invariant, and that one step that meets the condition keeps them. -/
structure SoundWhen (P : Program σ τ) (c : Condition σ τ) (Init : σ → Prop) where
  inv : σ → Prop
  asserts : σ → τ → Prop
  apart : τ → τ → Prop
  symm : ∀ l m, apart l m → apart m l
  init : ∀ s, Init s → inv s
  start : ∀ s l, c.state s → inv s → P.Start s l →
    asserts s l ∧ ∀ m, asserts s m → apart l m
  step : ∀ s l s' l', c.state s → c.mover s l → inv s → asserts s l → P.Step s l s' l' →
    inv s' ∧ asserts s' l'
  noninterference : ∀ s l s' l' m, c.state s → c.mover s l → c.others s l m → inv s →
    asserts s l → asserts s m → apart l m → P.Step s l s' l' → asserts s' m ∧ apart l' m
  env : ∀ s s', c.state s → inv s → P.Env s s' → inv s' ∧ ∀ m, asserts s m → asserts s' m

/-- Without a condition, every run counts. -/
def Sound.when {P : Program σ τ} {Init : σ → Prop} (A : P.Sound Init) :
    P.SoundWhen Condition.none Init where
  inv := A.inv
  asserts := A.asserts
  apart := A.apart
  symm := A.symm
  init := A.init
  start s l _ := A.start s l
  step s l s' l' _ _ := A.step s l s' l'
  noninterference s l s' l' m _ _ _ := A.noninterference s l s' l' m
  env s s' _ := A.env s s'

/-- What the parts say of an interleaved state. -/
structure SoundWhen.Holds {P : Program σ τ} {c : Condition σ τ} {Init : σ → Prop}
    (A : P.SoundWhen c Init) (s : Interleaved σ τ ι) : Prop where
  inv : A.inv s.shared
  asserts : ∀ i l, s.procs i = some l → A.asserts s.shared l
  apart : ∀ i j l m, i ≠ j → s.procs i = some l → s.procs j = some m → A.apart l m

/-- What the parts say of an interleaved state. -/
structure Sound.Holds {P : Program σ τ} {Init : σ → Prop} (A : P.Sound Init)
    (s : Interleaved σ τ ι) : Prop where
  inv : A.inv s.shared
  asserts : ∀ i l, s.procs i = some l → A.asserts s.shared l
  apart : ∀ i j l m, i ≠ j → s.procs i = some l → s.procs j = some m → A.apart l m

variable {P} {c : Condition σ τ} {Init : σ → Prop} {s : Interleaved σ τ ι}

/-- A process after the local state of one has been replaced. -/
theorem update_eq_some {procs : ι → Option τ} {i j : ι} {l m : τ}
    (h : Function.update procs i (some l) j = some m) :
    j = i ∧ m = l ∨ j ≠ i ∧ procs j = some m := by
  by_cases hj : j = i
  · subst hj
    rw [Function.update_self] at h
    exact .inl ⟨rfl, (Option.some.inj h).symm⟩
  · rw [Function.update_of_ne hj] at h
    exact .inr ⟨hj, h⟩

/-- Replacing one process keeps all pairs apart if it keeps its own. -/
private theorem apart_update {A : P.SoundWhen c Init} {procs : ι → Option τ} {i : ι} {l : τ}
    (hold : ∀ i j l m, i ≠ j → procs i = some l → procs j = some m → A.apart l m)
    (hnew : ∀ j m, j ≠ i → procs j = some m → A.apart l m) (j k : ι) (m n : τ) (hjk : j ≠ k)
    (hj : Function.update procs i (some l) j = some m)
    (hk : Function.update procs i (some l) k = some n) : A.apart m n := by
  rcases update_eq_some hj with ⟨rfl, rfl⟩ | ⟨hji, hj'⟩ <;>
    rcases update_eq_some hk with ⟨rfl, rfl⟩ | ⟨hki, hk'⟩
  · exact absurd rfl hjk
  · exact hnew k n hki hk'
  · exact A.symm _ _ (hnew j m hji hj')
  · exact hold j k m n hjk hj' hk'

omit [DecidableEq ι] in
/-- The condition holds of the state a move is made in. -/
theorem Condition.Met.state {move : Move ι} (h : c.Met s move) : c.state s.shared := by
  rcases move with i | i | _
  · exact h
  · exact h.1
  · exact h

/-- **The rule.** What one step that meets the condition keeps holds in every state reached by
steps that meet it. -/
theorem SoundWhen.holds (A : P.SoundWhen c Init)
    (h : ((P.system ι Init).restrict c.Met).Reachable s) : A.Holds s := by
  refine h.invariant ?_ ?_
  · rintro s ⟨hinit, hnone⟩
    refine ⟨A.init _ hinit, fun i l hi => ?_, fun i j l m _ hi => ?_⟩ <;>
      cases hi.symm.trans (hnone i)
  · rintro _ _ _ ⟨hinv, hasserts, hapart⟩ ⟨hmet, ⟨hnew, hstart⟩ | ⟨hproc, hstep⟩ | henv⟩
    · obtain ⟨hown, hothers⟩ := A.start _ _ hmet.state hinv hstart
      refine ⟨hinv, fun j m hj => ?_, apart_update hapart fun j m _ hj =>
        hothers m (hasserts j m hj)⟩
      rcases update_eq_some hj with ⟨-, rfl⟩ | ⟨-, hj⟩
      · exact hown
      · exact hasserts j m hj
    · -- the others keep their assertions, and stay apart from the one who moved
      rename_i i l l'
      obtain ⟨hstate, hmover⟩ := hmet
      obtain ⟨hself, hothers⟩ := hmover l hproc
      obtain ⟨hinv', hown⟩ := A.step _ _ _ _ hstate hself hinv (hasserts _ _ hproc) hstep
      have hother : ∀ j m, j ≠ i → _ := fun j m hji hj =>
        A.noninterference _ _ _ _ m hstate hself (hothers j m hji hj) hinv (hasserts _ _ hproc)
          (hasserts j m hj) (hapart _ _ _ _ hji.symm hproc hj) hstep
      refine ⟨hinv', fun j m hj => ?_, apart_update hapart fun j m hji hj => (hother j m hji hj).2⟩
      rcases update_eq_some hj with ⟨-, rfl⟩ | ⟨hji, hj⟩
      · exact hown
      · exact (hother j m hji hj).1
    · obtain ⟨hinv', hkeep⟩ := A.env _ _ hmet.state hinv henv
      exact ⟨hinv', fun j m hj => hkeep m (hasserts j m hj), hapart⟩

/-- Every run meets the condition that says nothing. -/
theorem reachable_none (h : (P.system ι Init).Reachable s) :
    ((P.system ι Init).restrict Condition.none.Met).Reachable s := by
  induction h with
  | init h => exact .init h
  | @step s s' move _ hstep ih =>
    refine ih.step ⟨?_, hstep⟩
    rcases move with i | i | _
    · exact trivial
    · exact ⟨trivial, fun _ _ => ⟨trivial, fun _ _ _ _ => trivial⟩⟩
    · exact trivial

/-- ... and so, without a condition, in every reachable state of every interleaving. -/
theorem Sound.holds (A : P.Sound Init) (h : (P.system ι Init).Reachable s) : A.Holds s := by
  obtain ⟨hinv, hasserts, hapart⟩ := A.when.holds (reachable_none h)
  exact ⟨hinv, hasserts, hapart⟩

/-- **Who answers for it.** Where a step that opens `need`, or leaves it open, hands it to a
process that `owes` it, an open need is always owed by some process. -/
theorem SoundWhen.owed (A : P.SoundWhen c Init) (need : σ → Prop) (owes : τ → Prop)
    (hinit : ∀ s, Init s → ¬need s)
    (hstep : ∀ s l s' l', c.state s → c.mover s l → A.inv s → A.asserts s l → P.Step s l s' l' →
      need s' → ¬owes l' → need s ∧ ¬owes l)
    (henv : ∀ s s', c.state s → A.inv s → P.Env s s' → need s' → need s)
    (h : ((P.system ι Init).restrict c.Met).Reachable s) (hneed : need s.shared) :
    ∃ i l, s.procs i = some l ∧ owes l := by
  induction h with
  | init h => exact absurd hneed (hinit _ h.1)
  | @step s s' move hs hmove ih =>
    obtain ⟨hmet, hmove⟩ := hmove
    obtain ⟨hinv, hasserts, -⟩ := A.holds hs
    rcases hmove with ⟨hnew, -⟩ | ⟨hproc, hmoved⟩ | hmoved
    · -- who owes it is not the one that has just started
      rename_i i l
      obtain ⟨j, m, hj, howes⟩ := ih hneed
      have hji : j ≠ i := by
        rintro rfl
        cases hj.symm.trans hnew
      exact ⟨j, m, (Function.update_of_ne hji _ _).trans hj, howes⟩
    · rename_i i l l'
      by_cases howes' : owes l'
      · exact ⟨i, l', Function.update_self _ _ _, howes'⟩
      · obtain ⟨hstate, hmover⟩ := hmet
        obtain ⟨hold, hnot⟩ := hstep _ _ _ _ hstate (hmover l hproc).1 hinv (hasserts _ _ hproc)
          hmoved hneed howes'
        obtain ⟨j, m, hj, howes⟩ := ih hold
        have hji : j ≠ i := by
          rintro rfl
          cases hproc.symm.trans hj
          exact hnot howes
        exact ⟨j, m, (Function.update_of_ne hji _ _).trans hj, howes⟩
    · exact ih (henv _ _ hmet.state hinv hmoved hneed)

/-- A process starts, in a run that meets a condition. -/
theorem reachable_start (h : ((P.system ι Init).restrict c.Met).Reachable s) {i : ι} {l : τ}
    (hstate : c.state s.shared) (hnew : s.procs i = none) (hstart : P.Start s.shared l) :
    ((P.system ι Init).restrict c.Met).Reachable
      ⟨s.shared, Function.update s.procs i (some l)⟩ :=
  h.step (e := .start i) ⟨hstate, .start hnew hstart⟩

/-- All processes start, in a run that meets a condition. -/
theorem reachable_started [Fintype ι] {s : σ} (hinit : Init s) (hstate : c.state s) (l : ι → τ)
    (hstart : ∀ i, P.Start s (l i)) :
    ((P.system ι Init).restrict c.Met).Reachable ⟨s, fun i => some (l i)⟩ := by
  suffices h : ∀ started : Finset ι, ((P.system ι Init).restrict c.Met).Reachable
      ⟨s, fun i => if i ∈ started then some (l i) else none⟩ by
    simpa using h Finset.univ
  intro started
  induction started using Finset.induction with
  | empty => exact .init ⟨hinit, fun _ => rfl⟩
  | insert i started hi ih =>
    convert reachable_start ih hstate (if_neg hi) (hstart i) using 2
    funext j
    by_cases hj : j = i
    · subst hj
      simp
    · simp [hj]

/-- A process moves, in a run that meets a condition. -/
theorem reachable_step (h : ((P.system ι Init).restrict c.Met).Reachable s) {i : ι} {l m : τ}
    {t : σ} (hproc : s.procs i = some l) (hstate : c.state s.shared) (hmover : c.mover s.shared l)
    (hothers : ∀ k, c.others s.shared l k) (hstep : P.Step s.shared l t m) :
    ((P.system ι Init).restrict c.Met).Reachable ⟨t, Function.update s.procs i (some m)⟩ := by
  refine h.step (e := .step i) ⟨⟨hstate, fun l' hl' => ?_⟩, .step hproc hstep⟩
  cases hproc.symm.trans hl'
  exact ⟨hmover, fun _ k _ _ => hothers k⟩

/-- The environment moves, in a run that meets a condition. -/
theorem reachable_env (h : ((P.system ι Init).restrict c.Met).Reachable s) {t : σ}
    (hstate : c.state s.shared) (henv : P.Env s.shared t) :
    ((P.system ι Init).restrict c.Met).Reachable ⟨t, s.procs⟩ :=
  h.step (e := .env) ⟨hstate, .env henv⟩

/-! ### Schedules -/

section Schedule

variable {κ : Type*} {step : κ → σ → τ → Option (σ × τ)}

/-- Runs processes by a schedule of who moves, with what comes in from outside. -/
def run (step : κ → σ → τ → Option (σ × τ)) :
    List (ι × κ) → Interleaved σ τ ι → Option (Interleaved σ τ ι)
  | [], s => some s
  | (i, k) :: schedule, s =>
    (s.procs i).bind fun l => (step k s.shared l).bind fun out =>
      run step schedule ⟨out.1, Function.update s.procs i (some out.2)⟩

/-- Where the steps of a program are computed, and meet a condition in the states they are taken
in, a schedule leads to a state reached by steps that meet it. -/
theorem reachable_runMet
    (hstep : ∀ (s : Interleaved σ τ ι) i k l s' l', s.procs i = some l →
      step k s.shared l = some (s', l') → P.Step s.shared l s' l' ∧ c.Met s (.step i))
    (h : ((P.system ι Init).restrict c.Met).Reachable s) (schedule : List (ι × κ))
    (hsome : (run step schedule s).isSome) :
    ((P.system ι Init).restrict c.Met).Reachable ((run step schedule s).get hsome) := by
  suffices hrun : ∀ (schedule : List (ι × κ)) (s s' : Interleaved σ τ ι),
      ((P.system ι Init).restrict c.Met).Reachable s → run step schedule s = some s' →
        ((P.system ι Init).restrict c.Met).Reachable s' from
    hrun schedule s _ h (Option.some_get hsome).symm
  intro schedule
  induction schedule with
  | nil =>
    rintro s _ h ⟨⟩
    exact h
  | cons move schedule ih =>
    intro s s' h hrun
    obtain ⟨l, hproc, hrun⟩ := Option.bind_eq_some_iff.mp hrun
    obtain ⟨⟨t, l'⟩, hout, hrun⟩ := Option.bind_eq_some_iff.mp hrun
    obtain ⟨hmoves, hmet⟩ := hstep s move.1 move.2 l t l' hproc hout
    exact ih _ s' (h.step ⟨hmet, .step hproc hmoves⟩) hrun

/-- ... as it does where each step is checked to meet it whoever the others are. -/
theorem reachable_runWhen
    (hothers : ∀ k s l out, step k s l = some out → ∀ m, c.others s l m)
    (hstep : ∀ k s l s' l', step k s l = some (s', l') →
      P.Step s l s' l' ∧ c.state s ∧ c.mover s l)
    (h : ((P.system ι Init).restrict c.Met).Reachable s) (schedule : List (ι × κ))
    (hsome : (run step schedule s).isSome) :
    ((P.system ι Init).restrict c.Met).Reachable ((run step schedule s).get hsome) := by
  refine reachable_runMet (fun s i k l s' l' hproc hout => ?_) h schedule hsome
  obtain ⟨hmoves, hstate, hmover⟩ := hstep _ _ _ _ _ hout
  refine ⟨hmoves, hstate, fun m hm => ?_⟩
  cases hproc.symm.trans hm
  exact ⟨hmover, fun _ m _ _ => hothers _ _ _ _ hout m⟩

/-- A step, where the process may take it under the condition. -/
def Condition.checked (c : Condition σ τ) [∀ s l, Decidable (c.mover s l)]
    (step : κ → σ → τ → Option (σ × τ)) (k : κ) (s : σ) (l : τ) : Option (σ × τ) :=
  if c.mover s l then step k s l else Option.none

/-- ... as it does where the steps themselves are checked, and nothing else is asked. -/
theorem reachable_runChecked [∀ s l, Decidable (c.mover s l)] (hstate : ∀ s, c.state s)
    (hothers : ∀ s l m, c.others s l m)
    (hstep : ∀ k s l s' l', step k s l = some (s', l') → P.Step s l s' l')
    (h : ((P.system ι Init).restrict c.Met).Reachable s) (schedule : List (ι × κ))
    (hsome : (run (c.checked step) schedule s).isSome) :
    ((P.system ι Init).restrict c.Met).Reachable ((run (c.checked step) schedule s).get hsome) := by
  refine reachable_runWhen (fun _ s l _ _ m => hothers s l m) (fun k s l s' l' hout => ?_) h
    schedule hsome
  rw [Condition.checked] at hout
  split at hout
  · next hmover => exact ⟨hstep k s l s' l' hout, hstate s, hmover⟩
  · cases hout

/-- ... and, without a condition, to a reachable state. -/
theorem reachable_run (hstep : ∀ k s l s' l', step k s l = some (s', l') → P.Step s l s' l')
    (h : (P.system ι Init).Reachable s) (schedule : List (ι × κ))
    (hsome : (run step schedule s).isSome) :
    (P.system ι Init).Reachable ((run step schedule s).get hsome) := by
  refine (reachable_runWhen (fun _ _ _ _ _ _ => trivial) ?_ (reachable_none h) schedule
    hsome).of_restrict
  exact fun k s l s' l' hout => ⟨hstep k s l s' l' hout, trivial, trivial⟩

/-- A schedule of one step is a move. -/
theorem moves_run (hstep : ∀ k s l s' l', step k s l = some (s', l') → P.Step s l s' l')
    (s : Interleaved σ τ ι) (i : ι) (k : κ) (hsome : (run step [(i, k)] s).isSome) :
    P.Moves s (.step i) ((run step [(i, k)] s).get hsome) := by
  obtain ⟨s', hrun⟩ := Option.isSome_iff_exists.mp hsome
  obtain ⟨l, hproc, hbound⟩ := Option.bind_eq_some_iff.mp hrun
  obtain ⟨out, hout, ⟨⟩⟩ := Option.bind_eq_some_iff.mp hbound
  rw [Option.get_of_eq_some hsome hrun]
  exact .step hproc (hstep k _ _ _ _ hout)

end Schedule

end Program

end DrepTalk
