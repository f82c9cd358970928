import Mathlib.Logic.Relation

/-!
# Transition systems and their invariants

A system has initial states and labelled steps; the labels say what happened (which call was
made, who moved). `Reachable` is what some run leads to, `Leads` what a further run leads to.

**Invariants** are shown by induction over the run once and for all (`Reachable.invariant`). A
condition on the steps of a run is a `restrict`ed system: what holds in its reachable states
holds in every run whose steps all meet the condition.
-/

namespace DrepTalk

/-- Initial states and labelled steps. -/
structure TransitionSystem (σ ε : Type*) where
  Init : σ → Prop
  Step : σ → ε → σ → Prop

namespace TransitionSystem

variable {σ ε : Type*} {M : TransitionSystem σ ε} {s s' s'' : σ}

/-- The states some run leads to. -/
inductive Reachable (M : TransitionSystem σ ε) : σ → Prop
  | init {s : σ} : M.Init s → Reachable M s
  | step {s s' : σ} {e : ε} : Reachable M s → M.Step s e s' → Reachable M s'

/-- Some further run leads from the one state to the other. -/
def Leads (M : TransitionSystem σ ε) : σ → σ → Prop :=
  Relation.ReflTransGen fun s s' => ∃ e, M.Step s e s'

/-- The system without the steps that do not meet the condition. -/
def restrict (M : TransitionSystem σ ε) (ok : σ → ε → Prop) : TransitionSystem σ ε where
  Init := M.Init
  Step s e s' := ok s e ∧ M.Step s e s'

/-- What holds initially and is kept by every step holds in every reachable state. -/
theorem Reachable.invariant {I : σ → Prop} (hinit : ∀ s, M.Init s → I s)
    (hstep : ∀ s e s', I s → M.Step s e s' → I s') (h : M.Reachable s) : I s := by
  induction h with
  | init h => exact hinit _ h
  | step _ h ih => exact hstep _ _ _ ih h

/-- A run whose steps all meet a condition is a run. -/
theorem Reachable.of_restrict {ok : σ → ε → Prop} (h : (M.restrict ok).Reachable s) :
    M.Reachable s := by
  induction h with
  | init h => exact .init h
  | step _ hstep ih => exact ih.step hstep.2

/-- A run starts somewhere. -/
theorem Reachable.exists_leads (h : M.Reachable s) : ∃ s₀, M.Init s₀ ∧ M.Leads s₀ s := by
  induction h with
  | init h => exact ⟨_, h, .refl⟩
  | step _ hstep ih =>
    obtain ⟨s₀, hinit, hleads⟩ := ih
    exact ⟨s₀, hinit, hleads.tail ⟨_, hstep⟩⟩

/-- A further run, step by step, in another system. -/
theorem Leads.mono {M' : TransitionSystem σ ε} (hstep : ∀ s e s', M.Step s e s' → M'.Step s e s')
    (h : M.Leads s s') : M'.Leads s s' := by
  induction h with
  | refl => exact .refl
  | tail _ hlast ih =>
    obtain ⟨e, he⟩ := hlast
    exact ih.tail ⟨e, hstep _ e _ he⟩

theorem Reachable.leads (h : M.Reachable s) (hl : M.Leads s s') : M.Reachable s' := by
  induction hl with
  | refl => exact h
  | tail _ hstep ih =>
    obtain ⟨e, he⟩ := hstep
    exact ih.step he

/-- What every step from a reachable state keeps is kept by every further run. -/
theorem Reachable.stable {P : σ → Prop} (hs : M.Reachable s)
    (hstep : ∀ s e s', M.Reachable s → P s → M.Step s e s' → P s')
    (hl : M.Leads s s') (hP : P s) : P s' := by
  induction hl with
  | refl => exact hP
  | tail hl hlast ih =>
    obtain ⟨e, he⟩ := hlast
    exact hstep _ _ _ (hs.leads hl) ih he

/-- What every step from a reachable state keeps, or ends where `Q` holds, is kept by every further
run until a state in which `Q` holds. -/
theorem Reachable.keeps_until {P Q : σ → Prop} (hs : M.Reachable s)
    (hstep : ∀ s e s', M.Reachable s → P s → M.Step s e s' → Q s ∨ P s') (hl : M.Leads s s')
    (hP : P s) : P s' ∨ ∃ t, M.Leads s t ∧ M.Leads t s' ∧ Q t := by
  induction hl using Relation.ReflTransGen.head_induction_on with
  | refl => exact .inl hP
  | head hfirst hl ih =>
    obtain ⟨e, he⟩ := hfirst
    rcases hstep _ _ _ hs hP he with hQ | hP'
    · exact .inr ⟨_, .refl, .head ⟨e, he⟩ hl, hQ⟩
    · exact (ih (hs.step he) hP').imp_right fun ⟨t, hst, hts, hQ⟩ =>
        ⟨t, .head ⟨e, he⟩ hst, hts, hQ⟩

end TransitionSystem

end DrepTalk
