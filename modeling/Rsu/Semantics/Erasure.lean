import Mathlib.Data.Bool.Basic
import Rsu.Semantics.ActionSystem

/-!
# Runs beside their erasure

Some actions of a system should not matter to an observer. `erasing` runs the
system twice, and the second copy misses those actions. `erasing_always_iff` is
the unwinding rule: the observer sees no difference along a run exactly when each
hidden action is taken where it does nothing that matters.
-/

namespace Rsu

universe u v

namespace ActionSystem

variable {State : Type v} {Action : Type u} {initial : State → Prop} {step : State → Action → State}
  {hidden : Action → Bool}

/-- A run, and the run without the hidden actions. -/
def erasing (initial : State → Prop) (step : State → Action → State) (hidden : Action → Bool) :
    ActionSystem.{u, v} Action where
  State := State × State
  Initial pair := initial pair.1 ∧ pair.2 = pair.1
  Step pair action next :=
    next = (step pair.1 action, if hidden action then pair.2 else step pair.2 action)

/-- The second copy ends where the remaining actions alone lead. -/
theorem erasing_finish {start finish : (erasing initial step hidden).State}
    (path : (erasing initial step hidden).Path start finish) :
    finish.1 = path.actions.foldl step start.1 ∧
      finish.2 = (path.actions.filter fun action => !hidden action).foldl step start.2 := by
  induction path with
  | nil => exact ⟨rfl, rfl⟩
  | snoc prior action next valid inductionHypothesis =>
      obtain ⟨full, erased⟩ := inductionHypothesis
      have longer : (prior.snoc action next valid).actions = prior.actions ++ [action] := rfl
      rw [longer, List.foldl_append, List.filter_append, List.foldl_append, ← full, ← erased]
      refine ⟨congrArg Prod.fst valid, (congrArg Prod.snd valid).trans ?_⟩
      cases conceals : hidden action <;> simp [conceals]

/-- The unwinding rule. `agree` is what the hidden actions may leave different,
`same` is what the observer sees. -/
theorem erasing_always_iff {agree same : State → State → Prop} {meets : State → Action → Prop}
    (observes : ∀ {full erased}, agree full erased → same full erased)
    (visible : ∀ {full erased action}, agree full erased → hidden action = false →
      agree (step full action) (step erased action))
    (silent : ∀ {full erased action}, agree full erased → hidden action = true →
      meets full action → agree (step full action) erased)
    (exact : ∀ {full erased action}, agree full erased → hidden action = true →
      same (step full action) erased → meets full action)
    {start finish : State × State} (together : agree start.1 start.2)
    (path : (erasing initial step hidden).Path start finish) :
    path.Always (fun pair : State × State => same pair.1 pair.2) ↔
      path.StepsMeet fun (pair : State × State) action =>
        hidden action = true → meets pair.1 action := by
  let inv : State × State → Prop := fun pair => agree pair.1 pair.2
  have start : inv start := together
  have kept : ∀ {pair : State × State} {action next}, inv pair →
      (erasing initial step hidden).Step pair action next →
      (hidden action = true → meets pair.1 action) → inv next := by
    rintro pair action next agrees rfl met
    cases conceals : hidden action with
    | true => simpa [inv, conceals] using silent agrees conceals (met conceals)
    | false => simpa [inv, conceals] using visible agrees conceals
  refine path.always_iff_stepsMeet start (observes together)
    (fun agrees _ stepped met => kept agrees stepped met) ?_
  intro pair action next agrees seen stepped
  constructor
  · rintro sees conceals
    obtain rfl := stepped
    exact exact agrees conceals (by simpa [conceals] using sees)
  · exact fun met => observes (kept agrees stepped met)

end ActionSystem

end Rsu
