import Mathlib.Data.Nat.Notation

/-!
# Machines with a rank

A machine takes one step after another, each with what comes from outside at that time, until it
has no step to take. `runSteps` is its state after a number of steps.

**Termination** (`runSteps_stops`). Where every step lowers a rank, the machine has stopped after
as many steps as its rank was at first.
-/

namespace DrepTalk

variable {σ : Type*} {step : ℕ → σ → Option σ} {s : σ}

/-- The state after that many steps; a machine that has stopped stays where it is. -/
def runSteps (step : ℕ → σ → Option σ) (s : σ) : ℕ → σ
  | 0 => s
  | n + 1 => (step n (runSteps step s n)).getD (runSteps step s n)

/-- What holds at first and is kept by every step holds after every number of steps. -/
theorem runSteps_invariant {I : σ → Prop} (hstart : I s)
    (hstep : ∀ n s s', I s → step n s = some s' → I s') (n : ℕ) : I (runSteps step s n) := by
  induction n with
  | zero => exact hstart
  | succ n ih =>
    rw [runSteps]
    rcases hnext : step n (runSteps step s n) with _ | s'
    · exact ih
    · exact hstep n _ s' ih hnext

/-- **Termination**: a machine whose steps lower a rank, and that has stopped for good once it has
stopped, stops. -/
theorem runSteps_stops {I : σ → Prop} {rank : σ → ℕ} (hstart : I s)
    (hstep : ∀ n s s', I s → step n s = some s' → I s' ∧ rank s' < rank s)
    (hstops : ∀ n m s, step n s = none → step m s = none) (n : ℕ) :
    step n (runSteps step s (rank s)) = none := by
  have hkeeps := runSteps_invariant hstart fun n s s' hI h => (hstep n s s' hI h).1
  have hrank : ∀ k, step k (runSteps step s k) = none ∨
      rank (runSteps step s k) + k ≤ rank s := by
    intro k
    induction k with
    | zero => exact .inr (Nat.le_refl (rank s))
    | succ k ih =>
      rw [runSteps]
      rcases hnext : step k (runSteps step s k) with _ | s'
      · exact .inl (hstops k (k + 1) _ hnext)
      · have hlower := (hstep k _ s' (hkeeps k) hnext).2
        rcases ih with hstopped | hle
        · exact absurd (hstopped.symm.trans hnext) (Option.some_ne_none s').symm
        · right
          change rank s' + (k + 1) ≤ rank s
          omega
  rcases hrank (rank s) with hstopped | hle
  · exact hstops _ n _ hstopped
  · rcases hnext : step n (runSteps step s (rank s)) with _ | s'
    · rfl
    · have hlower := (hstep n _ s' (hkeeps _) hnext).2
      omega

end DrepTalk
