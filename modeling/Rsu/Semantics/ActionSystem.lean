import Mathlib.Data.List.Induction

/-!
# Action systems and their finite paths

An action system is a labelled transition relation: an environment picks the
action, the relation says which states may follow. A `Path` stores every action
and every intermediate state as data, so a property of a run can speak about
the states it visits (`Path.Always`) and about the circumstances in which each
of its actions was taken (`Path.StepsMeet`).

`Path.always_iff_stepsMeet` is the exactness rule used throughout: when a single
step keeps a property exactly if it meets a condition, a whole run keeps the
property in every state exactly if all its steps meet the condition.
-/

namespace Rsu

universe u v

/-- A transition system whose steps are labelled by actions. -/
structure ActionSystem (Action : Type u) where
  State : Type v
  Initial : State → Prop
  Step : State → Action → State → Prop

namespace ActionSystem

variable {Action : Type u}

/-- The action system of a total step function. -/
def ofFunction {State : Type v} (initial : State → Prop) (step : State → Action → State) :
    ActionSystem.{u, v} Action where
  State := State
  Initial := initial
  Step state action next := next = step state action

variable {system : ActionSystem.{u, v} Action}

/-- A finite path from `start`, with its actions and intermediate states. -/
inductive Path (system : ActionSystem.{u, v} Action) (start : system.State) :
    system.State → Type (max u v) where
  | nil : Path system start start
  | snoc {state : system.State} (prior : Path system start state) (action : Action)
      (next : system.State) (valid : system.Step state action next) : Path system start next

namespace Path

variable {start finish : system.State}

/-- The actions of a path, oldest first. -/
def actions {finish : system.State} : system.Path start finish → List Action
  | .nil => []
  | .snoc prior action _ _ => prior.actions ++ [action]

/-- Every state the path visits, its first one included, is `good`. -/
def Always (good : system.State → Prop) {finish : system.State} :
    system.Path start finish → Prop
  | .nil => good start
  | .snoc prior _ next _ => prior.Always good ∧ good next

/-- Every action of the path is taken in a state in which it meets `meets`. -/
def StepsMeet (meets : system.State → Action → Prop) {finish : system.State} :
    system.Path start finish → Prop
  | .nil => True
  | @snoc _ _ _ state prior action _ _ => prior.StepsMeet meets ∧ meets state action

/-- The latest value that a step of the path yields. -/
def latest {α : Type} (yields : system.State → Action → Option α) {finish : system.State} :
    system.Path start finish → Option α
  | .nil => none
  | @snoc _ _ _ state prior action _ _ => (yields state action).or (prior.latest yields)

/-- A total step function follows every list of actions. -/
theorem exists_path {State : Type v} {initial : State → Prop} {step : State → Action → State}
    {start finish : State} (actions : List Action) (reached : actions.foldl step start = finish) :
    Nonempty ((ofFunction initial step).Path start finish) := by
  induction actions using List.reverseRecOn generalizing finish with
  | nil =>
      subst reached
      exact ⟨.nil⟩
  | append_singleton actions action inductionHypothesis =>
      obtain ⟨prior⟩ := inductionHypothesis rfl
      rw [List.foldl_append] at reached
      exact ⟨prior.snoc action finish reached.symm⟩

/-- Actions taken one after the other from a state each meet the condition. -/
def InTurn {State : Type v} (step : State → Action → State) (meets : State → Action → Prop) :
    State → List Action → Prop
  | _, [] => True
  | state, action :: rest => meets state action ∧ InTurn step meets (step state action) rest

instance decidableInTurn {State : Type v} (step : State → Action → State)
    (meets : State → Action → Prop) [∀ state action, Decidable (meets state action)] :
    ∀ (state : State) (actions : List Action), Decidable (InTurn step meets state actions)
  | _, [] => inferInstanceAs (Decidable True)
  | state, action :: rest =>
      have := decidableInTurn step meets (step state action) rest
      inferInstanceAs (Decidable (meets state action ∧ InTurn step meets (step state action) rest))

/-- Actions that meet a condition in turn extend a path that meets it. -/
theorem exists_extension_inTurn {State : Type v} {initial : State → Prop}
    {step : State → Action → State} {start state : State} {meets : State → Action → Prop}
    (prior : (ofFunction initial step).Path start state) (guarded : prior.StepsMeet meets)
    {actions : List Action} (met : InTurn step meets state actions) :
    ∃ path : (ofFunction initial step).Path start (actions.foldl step state),
      path.StepsMeet meets := by
  induction actions generalizing state with
  | nil => exact ⟨prior, guarded⟩
  | cons action actions inductionHypothesis =>
      exact inductionHypothesis (prior.snoc action _ rfl) ⟨guarded, met.1⟩ met.2

/-- Actions that meet a condition anywhere extend a path that meets it. -/
theorem exists_extension {State : Type v} {initial : State → Prop} {step : State → Action → State}
    {start state : State} {meets : State → Action → Prop}
    (prior : (ofFunction initial step).Path start state) (guarded : prior.StepsMeet meets)
    (actions : List Action) (met : ∀ action ∈ actions, ∀ state, meets state action) :
    ∃ path : (ofFunction initial step).Path start (actions.foldl step state),
      path.StepsMeet meets := by
  refine exists_extension_inTurn prior guarded ?_
  clear guarded prior
  induction actions generalizing state with
  | nil => trivial
  | cons action actions inductionHypothesis =>
      exact ⟨met action List.mem_cons_self state,
        inductionHypothesis fun later member => met later (List.mem_cons_of_mem _ member)⟩

/-- A property of every visited state holds of the last one. -/
theorem Always.last {good : system.State → Prop} {path : system.Path start finish}
    (always : path.Always good) : good finish := by
  cases path with
  | nil => exact always
  | snoc prior action next valid => exact always.2

/-- Weaken a property of every visited state. -/
theorem Always.mono {good weaker : system.State → Prop} {path : system.Path start finish}
    (implies : ∀ state, good state → weaker state) (always : path.Always good) :
    path.Always weaker := by
  induction path with
  | nil => exact implies _ always
  | snoc prior action next valid inductionHypothesis =>
      exact ⟨inductionHypothesis always.1, implies _ always.2⟩

/-- The invariant rule: what holds at the start and is kept by every step holds
in every state the path visits. -/
theorem always_of_invariant {inv : system.State → Prop} (initial : inv start)
    (preserved : ∀ {state action next}, inv state → system.Step state action next → inv next)
    (path : system.Path start finish) : path.Always inv := by
  induction path with
  | nil => exact initial
  | snoc prior action next valid inductionHypothesis =>
      exact ⟨inductionHypothesis, preserved inductionHypothesis.last valid⟩

/-- The invariant rule for a relation between a state and the latest value before it. -/
theorem latest_rule {α : Type} {yields : system.State → Action → Option α}
    {inv : system.State → Option α → Prop} (initial : inv start none)
    (preserved : ∀ {state action next latest}, inv state latest → system.Step state action next →
      inv next ((yields state action).or latest))
    (path : system.Path start finish) : inv finish (path.latest yields) := by
  induction path with
  | nil => exact initial
  | snoc prior action next valid inductionHypothesis => exact preserved inductionHypothesis valid

/-- Conditions that agree on every step from a state of an invariant agree on every path. -/
theorem stepsMeet_congr_of_invariant {inv : system.State → Prop}
    {meets sound : system.State → Action → Prop} (initial : inv start)
    (preserved : ∀ {state action next}, inv state → system.Step state action next → inv next)
    (agree : ∀ {state action next}, inv state → system.Step state action next →
      (meets state action ↔ sound state action))
    (path : system.Path start finish) : path.StepsMeet meets ↔ path.StepsMeet sound := by
  induction path with
  | nil => exact Iff.rfl
  | snoc prior action next valid inductionHypothesis =>
      have earlier := always_of_invariant initial preserved prior
      exact and_congr inductionHypothesis (agree earlier.last valid)

/-- Conditions that agree on every step agree on every path. -/
theorem stepsMeet_congr {meets sound : system.State → Action → Prop}
    (agree : ∀ {state action next}, system.Step state action next →
      (meets state action ↔ sound state action))
    (path : system.Path start finish) : path.StepsMeet meets ↔ path.StepsMeet sound :=
  stepsMeet_congr_of_invariant (show (fun _ => True) start from trivial) (fun _ _ => trivial)
    (fun _ => agree) path

/-- The guarded invariant rule: steps that meet the condition keep the invariant. -/
theorem always_of_stepsMeet {inv : system.State → Prop}
    {meets : system.State → Action → Prop} (initial : inv start)
    (preserved : ∀ {state action next}, inv state → system.Step state action next →
      meets state action → inv next)
    {path : system.Path start finish} (guarded : path.StepsMeet meets) : path.Always inv := by
  induction path with
  | nil => exact initial
  | snoc prior action next valid inductionHypothesis =>
      have earlier := inductionHypothesis guarded.1
      exact ⟨earlier, preserved earlier.last valid guarded.2⟩

/-- Steps that meet the condition are sound, given an invariant they keep. -/
theorem stepsMeet_of_stepsMeet {inv : system.State → Prop}
    {meets sound : system.State → Action → Prop} (initial : inv start)
    (preserved : ∀ {state action next}, inv state → system.Step state action next →
      meets state action → inv next)
    (justified : ∀ {state action}, inv state → meets state action → sound state action)
    {path : system.Path start finish} (guarded : path.StepsMeet meets) : path.StepsMeet sound := by
  induction path with
  | nil => trivial
  | snoc prior action next valid inductionHypothesis =>
      have earlier := always_of_stepsMeet initial preserved guarded.1
      exact ⟨inductionHypothesis guarded.1, justified earlier.last guarded.2⟩

/-- A condition that an invariant justifies is met by every step. -/
theorem stepsMeet_of_invariant {inv : system.State → Prop}
    {sound : system.State → Action → Prop} (initial : inv start)
    (preserved : ∀ {state action next}, inv state → system.Step state action next → inv next)
    (justified : ∀ {state action}, inv state → sound state action)
    (path : system.Path start finish) : path.StepsMeet sound := by
  induction path with
  | nil => trivial
  | snoc prior action next valid inductionHypothesis =>
      have earlier := always_of_invariant initial preserved prior
      exact ⟨inductionHypothesis, justified earlier.last⟩

/-- The exactness rule. `inv` collects what guarded steps keep besides `good`. -/
theorem always_iff_stepsMeet {inv good : system.State → Prop}
    {meets : system.State → Action → Prop} (invStart : inv start) (goodStart : good start)
    (kept : ∀ {state action next}, inv state → good state → system.Step state action next →
      meets state action → inv next)
    (exact : ∀ {state action next}, inv state → good state → system.Step state action next →
      (good next ↔ meets state action))
    (path : system.Path start finish) : path.Always good ↔ path.StepsMeet meets := by
  have both : (path.Always good → path.StepsMeet meets ∧ inv finish) ∧
      (path.StepsMeet meets → path.Always good ∧ inv finish) := by
    induction path with
    | nil => exact ⟨fun _ => ⟨trivial, invStart⟩, fun _ => ⟨goodStart, invStart⟩⟩
    | @snoc state prior action next valid inductionHypothesis =>
        constructor
        · rintro ⟨always, goodNext⟩
          obtain ⟨guarded, invState⟩ := inductionHypothesis.1 always
          have met := (exact invState always.last valid).1 goodNext
          exact ⟨⟨guarded, met⟩, kept invState always.last valid met⟩
        · rintro ⟨guarded, met⟩
          obtain ⟨always, invState⟩ := inductionHypothesis.2 guarded
          exact ⟨⟨always, (exact invState always.last valid).2 met⟩,
            kept invState always.last valid met⟩
  exact ⟨fun always => (both.1 always).1, fun guarded => (both.2 guarded).1⟩

end Path

end ActionSystem

end Rsu
