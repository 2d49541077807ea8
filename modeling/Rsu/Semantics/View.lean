import Mathlib.Data.List.Forall2
import Rsu.Semantics.ActionSystem

/-!
# Deterministic views of an action system

A view is a small deterministic machine run beside a system: it moves on the
actions that are relevant to one observer, and it predicts what the system
reports to that observer. `View.run` lifts the prediction from steps to paths,
so two paths with the same relevant actions and the same first mode cannot be
told apart by the observer, whatever else happens on them.
-/

namespace Rsu

universe u v w x

namespace ActionSystem

variable {Action : Type u} {system : ActionSystem.{u, v} Action}

namespace Path

variable {start : system.State}

/-- The actions of a path that are relevant. -/
def visible (relevant : Action → Bool) {finish : system.State} (path : system.Path start finish) :
    List Action :=
  path.actions.filter relevant

/-- The states a path reaches by its relevant actions, in order. -/
def stops (relevant : Action → Bool) {finish : system.State} :
    system.Path start finish → List system.State
  | .nil => []
  | .snoc prior action next _ => prior.stops relevant ++ if relevant action then [next] else []

/-- Everything the states along a path report, in order. -/
def reports {Event : Type w} (report : system.State → List Event) {finish : system.State} :
    system.Path start finish → List Event
  | .nil => []
  | .snoc prior _ next _ => prior.reports report ++ report next

end Path

/-- A deterministic machine that predicts what an observer is told. It follows
the system from the states that satisfy `Guard`. -/
structure View (system : ActionSystem.{u, v} Action) (Mode : Type x) (Event : Type w) where
  relevant : Action → Bool
  advance : Mode → Action → Mode
  tells : Mode → Action → List Event
  report : system.State → List Event
  Shows : system.State → Mode → Prop
  Guard : system.State → Prop
  follows : ∀ {state action next mode}, Guard state → Shows state mode →
    system.Step state action next → relevant action = true →
      Shows next (advance mode action) ∧ report next = tells mode action
  ignores : ∀ {state action next mode}, Guard state → Shows state mode →
    system.Step state action next → relevant action = false →
      Shows next mode ∧ report next = []

namespace View

variable {Mode : Type x} {Event : Type w} (view : View system Mode Event)

/-- The modes the machine passes through. -/
def modes : Mode → List Action → List Mode
  | _, [] => []
  | mode, action :: rest => view.advance mode action :: modes (view.advance mode action) rest

/-- What the machine tells on the way. -/
def speech : Mode → List Action → List Event
  | _, [] => []
  | mode, action :: rest => view.tells mode action ++ speech (view.advance mode action) rest

theorem modes_concat (mode : Mode) (actions : List Action) (action : Action) :
    view.modes mode (actions ++ [action]) =
      view.modes mode actions ++ [view.advance (actions.foldl view.advance mode) action] := by
  induction actions generalizing mode with
  | nil => rfl
  | cons first rest inductionHypothesis =>
      rw [List.cons_append, modes, modes, inductionHypothesis, List.foldl_cons, List.cons_append]

theorem speech_concat (mode : Mode) (actions : List Action) (action : Action) :
    view.speech mode (actions ++ [action]) =
      view.speech mode actions ++ view.tells (actions.foldl view.advance mode) action := by
  induction actions generalizing mode with
  | nil => simp [speech]
  | cons first rest inductionHypothesis =>
      rw [List.cons_append, speech, speech, inductionHypothesis, List.foldl_cons, List.append_assoc]

/-- The machine follows every path whose steps start in guarded states. -/
theorem run {start finish : system.State} {mode : Mode} (shows : view.Shows start mode)
    {path : system.Path start finish} (guarded : path.StepsMeet fun state _ => view.Guard state) :
    view.Shows finish ((path.visible view.relevant).foldl view.advance mode) ∧
      path.reports view.report = view.speech mode (path.visible view.relevant) ∧
      List.Forall₂ view.Shows (path.stops view.relevant)
        (view.modes mode (path.visible view.relevant)) := by
  induction path with
  | nil => exact ⟨shows, rfl, .nil⟩
  | @snoc state prior action next valid inductionHypothesis =>
      obtain ⟨there, reported, stopped⟩ := inductionHypothesis guarded.1
      cases counts : view.relevant action with
      | true =>
          have split : (prior.snoc action next valid).visible view.relevant =
              prior.visible view.relevant ++ [action] := by
            simp [Path.visible, Path.actions, counts]
          obtain ⟨moved, said⟩ := view.follows guarded.2 there valid counts
          rw [split, modes_concat, speech_concat, List.foldl_append]
          simp only [Path.reports, Path.stops, counts, if_true, reported, said]
          exact ⟨moved, trivial, List.rel_append stopped (.cons moved .nil)⟩
      | false =>
          have split : (prior.snoc action next valid).visible view.relevant =
              prior.visible view.relevant := by
            simp [Path.visible, Path.actions, counts]
          obtain ⟨stayed, silent⟩ := view.ignores guarded.2 there valid counts
          rw [split]
          simp only [Path.reports, Path.stops, counts, reported, silent, List.append_nil]
          exact ⟨stayed, trivial, by simpa using stopped⟩

/-- Two lists that each correspond to a third correspond to each other. -/
theorem forall₂_of_common {α : Type u} {β : Type v} {γ : Type w} {first : α → γ → Prop}
    {second : β → γ → Prop} {lefts : List α} {rights : List β} {modes : List γ}
    (left : List.Forall₂ first lefts modes) (right : List.Forall₂ second rights modes) :
    List.Forall₂ (fun a b => ∃ mode, first a mode ∧ second b mode) lefts rights := by
  induction left generalizing rights with
  | nil =>
      cases right
      exact .nil
  | cons head tail inductionHypothesis =>
      cases right with
      | cons other others => exact .cons ⟨_, head, other⟩ (inductionHypothesis others)

/-- The two-run rule: runs that start in one mode and have the same relevant
actions report the same, and stop in states that show the same modes. -/
theorem noninterference {start finish otherStart otherFinish : system.State} {mode : Mode}
    {path : system.Path start finish} {other : system.Path otherStart otherFinish}
    (shows : view.Shows start mode) (otherShows : view.Shows otherStart mode)
    (guarded : path.StepsMeet fun state _ => view.Guard state)
    (otherGuarded : other.StepsMeet fun state _ => view.Guard state)
    (same : path.visible view.relevant = other.visible view.relevant) :
    path.reports view.report = other.reports view.report ∧
      List.Forall₂ (fun left right => ∃ mode, view.Shows left mode ∧ view.Shows right mode)
        (path.stops view.relevant) (other.stops view.relevant) := by
  obtain ⟨-, reported, stopped⟩ := view.run shows guarded
  obtain ⟨-, otherReported, otherStopped⟩ := view.run otherShows otherGuarded
  rw [← same] at otherReported otherStopped
  exact ⟨reported.trans otherReported.symm, forall₂_of_common stopped otherStopped⟩

end View

end ActionSystem

end Rsu
