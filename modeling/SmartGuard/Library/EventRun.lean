import Mathlib.Data.List.Basic

/-!
# Runs of a system and their last writes

A system takes one event after another and logs what can be observed. A cell of its
state that only some observations write shows, at any time, what the last of them
left, or its first value if there was none.
-/

namespace EventRun

variable {σ ε ω : Type*}

/-- The states that a system reaches, with the log. An event that gives `none` cannot
happen. -/
inductive Run (step : ε → σ → Option (σ × List ω)) (s₀ : σ) : σ → List ω → Prop
  | start : Run step s₀ s₀ []
  | step {s log event s' obs} (run : Run step s₀ s log)
      (next : step event s = some (s', obs)) : Run step s₀ s' (log ++ obs)

variable {step : ε → σ → Option (σ × List ω)} {s₀ : σ}

theorem Run.append {s t : σ} {log log' : List ω} (run : Run step s₀ s log)
    (run' : Run step s t log') : Run step s₀ t (log ++ log') := by
  induction run' with
  | start => rwa [List.append_nil]
  | step run' next ih =>
      rw [← List.append_assoc]
      exact ih.step next

/-- Execute the events in order. -/
def exec (step : ε → σ → Option (σ × List ω)) : List ε → σ → Option (σ × List ω)
  | [], s => some (s, [])
  | event :: rest, s =>
      match step event s with
      | none => none
      | some (s', obs) => (exec step rest s').map fun out => (out.1, obs ++ out.2)

theorem exec_cons {event : ε} {rest : List ε} {s s' t : σ} {obs log : List ω}
    (next : step event s = some (s', obs)) (h : exec step rest s' = some (t, log)) :
    exec step (event :: rest) s = some (t, obs ++ log) := by
  rw [exec, next]
  exact congrArg (Option.map fun out => (out.1, obs ++ out.2)) h

/-- What is executed is a run. -/
theorem run_of_exec {events : List ε} {s : σ} {log : List ω}
    (h : exec step events s₀ = some (s, log)) : Run step s₀ s log := by
  induction events generalizing s₀ s log with
  | nil =>
      cases h
      exact .start
  | cons event rest ih =>
      rw [exec] at h
      split at h
      · cases h
      · next s' obs next =>
          obtain ⟨out, hout, heq⟩ := Option.map_eq_some_iff.mp h
          cases heq
          exact (Run.step .start next).append (ih hout)

section Guarded

/-- The steps whose event is allowed in the state. -/
def guarded (ok : ε → σ → Bool) (step : ε → σ → Option (σ × List ω)) (event : ε) (s : σ) :
    Option (σ × List ω) :=
  if ok event s then step event s else none

theorem guarded_eq_some {ok : ε → σ → Bool} {event : ε} {s : σ} {out : σ × List ω} :
    guarded ok step event s = some out ↔ ok event s = true ∧ step event s = some out :=
  Option.ite_none_right_eq_some

end Guarded

section Projection

variable {τ : Type*} {φ : σ → τ} {step' : ε → τ → Option (τ × List ω)}

/-- If a projection of the states turns steps into steps, it turns runs into runs. -/
theorem Run.map (hstep : ∀ e s, (step e s).map (Prod.map φ id) = step' e (φ s)) {s : σ}
    {log : List ω} (run : Run step s₀ s log) : Run step' (φ s₀) (φ s) log := by
  induction run with
  | start => exact .start
  | @step s log event s' obs run next ih =>
      refine ih.step (?_ : step' event _ = _)
      rw [← hstep, next]
      rfl

/-- Each run of the projected states is the projection of a run. -/
theorem Run.lift (hstep : ∀ e s, (step e s).map (Prod.map φ id) = step' e (φ s)) {t : τ}
    {log : List ω} (run : Run step' (φ s₀) t log) : ∃ s, φ s = t ∧ Run step s₀ s log := by
  induction run with
  | start => exact ⟨s₀, rfl, .start⟩
  | @step t log event t' obs run next ih =>
      obtain ⟨s, rfl, run'⟩ := ih
      rw [← hstep] at next
      obtain ⟨out, hout, heq⟩ := Option.map_eq_some_iff.mp next
      obtain ⟨rfl, rfl⟩ := Prod.mk.inj heq
      exact ⟨out.1, rfl, run'.step hout⟩

end Projection

section LastWrite

variable {α β : Type*}

/-- The last of what some observations write. -/
def latest (touch : ω → Option α) (log : List ω) : Option α := (log.filterMap touch).getLast?

theorem latest_append (touch : ω → Option α) (log obs : List ω) :
    latest touch (log ++ obs) = (latest touch obs).or (latest touch log) := by
  rw [latest, List.filterMap_append, List.getLast?_append]
  rfl

theorem latest_eq_none {touch : ω → Option α} {log : List ω}
    (h : ∀ o ∈ log, touch o = none) : latest touch log = none := by
  rw [latest, List.getLast?_eq_none_iff, List.filterMap_eq_nil_iff]
  exact h

@[simp] theorem latest_singleton (touch : ω → Option α) (o : ω) :
    latest touch [o] = touch o := by
  cases h : touch o with
  | none => simp [latest, h]
  | some a => simp [latest, h]

/-- A step leaves a cell as the last write among its observations did, and a step
without one keeps it. -/
structure Writes (touch : ω → Option α) (R : α → β → Prop) (cell cell' : β) (obs : List ω) :
    Prop where
  kept : latest touch obs = none → cell' = cell
  written : ∀ a, latest touch obs = some a → R a cell'

variable {touch : ω → Option α} {R : α → β → Prop}

theorem Writes.refl (cell : β) : Writes touch R cell cell [] where
  kept _ := rfl
  written a ha := by cases ha

/-- One observation writes at most once. -/
theorem Writes.single {c c' : β} {o : ω} (hkept : touch o = none → c' = c)
    (hwritten : ∀ a, touch o = some a → R a c') : Writes touch R c c' [o] where
  kept hnone := hkept (latest_singleton touch o ▸ hnone)
  written a ha := hwritten a (latest_singleton touch o ▸ ha)

theorem Writes.append {c c' c'' : β} {obs obs' : List ω} (h : Writes touch R c c' obs)
    (h' : Writes touch R c' c'' obs') : Writes touch R c c'' (obs ++ obs') where
  kept hnone := by
    rw [latest_append, Option.or_eq_none_iff] at hnone
    calc
      c'' = c' := h'.kept hnone.1
      _ = c := h.kept hnone.2
  written a ha := by
    rw [latest_append, Option.or_eq_some_iff] at ha
    rcases ha with hnew | ⟨hnone, hold⟩
    · exact h'.written a hnew
    · rw [h'.kept hnone]
      exact h.written a hold

/-- What each step writes into a cell, a run does. -/
theorem Run.writes (cell : σ → β)
    (hstep : ∀ {event s s' obs}, step event s = some (s', obs) →
      Writes touch R (cell s) (cell s') obs)
    {s : σ} {log : List ω} (run : Run step s₀ s log) :
    Writes touch R (cell s₀) (cell s) log := by
  induction run with
  | start => exact .refl _
  | step run next ih => exact ih.append (hstep next)

end LastWrite

end EventRun
