import Rsu.Semantics.ActionSystem

/-!
# Refinement of action systems

A refinement maps the states of one action system to those of another with the same actions,
under an invariant that its own steps keep. Every path then has an abstract path with the same
actions, so what the actions report holds in the abstract system.
-/

namespace Rsu

universe u v w

namespace ActionSystem

variable {Action : Type u}

/-- A map of states that is kept by every step. -/
structure Refinement (concrete : ActionSystem.{u, v} Action)
    (abstract : ActionSystem.{u, w} Action) where
  map : concrete.State → abstract.State
  Inv : concrete.State → Prop
  initial : ∀ {state}, concrete.Initial state → Inv state ∧ abstract.Initial (map state)
  step : ∀ {state action next}, Inv state → concrete.Step state action next →
    Inv next ∧ abstract.Step (map state) action (map next)

namespace Refinement

variable {concrete : ActionSystem.{u, v} Action} {abstract : ActionSystem.{u, w} Action}
  {start finish : concrete.State}

/-- The invariant holds in every state of a path. -/
theorem always_inv (refinement : Refinement concrete abstract) (initial : concrete.Initial start)
    (path : concrete.Path start finish) : path.Always refinement.Inv :=
  Path.always_of_invariant (refinement.initial initial).1
    (fun inv valid => (refinement.step inv valid).1) path

/-- Every path has an abstract path with the same actions. -/
theorem exists_abstract_path (refinement : Refinement concrete abstract)
    (initial : concrete.Initial start) {first : abstract.State}
    (mapped : refinement.map start = first) (path : concrete.Path start finish) :
    ∃ image : abstract.Path first (refinement.map finish), image.actions = path.actions := by
  subst mapped
  induction path with
  | nil => exact ⟨.nil, rfl⟩
  | snoc prior action next valid inductionHypothesis =>
      obtain ⟨image, same⟩ := inductionHypothesis
      have inv := (refinement.always_inv initial prior).last
      refine ⟨image.snoc action _ (refinement.step inv valid).2, ?_⟩
      rw [Path.actions, Path.actions, same]

end Refinement

end ActionSystem

end Rsu
