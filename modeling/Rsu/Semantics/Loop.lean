import Rsu.Data.LinkedRing

/-!
# Fuel-bounded calls and list traversals

A call that may not terminate is a function of the number of loop iterations it
is granted: `Returns` says that some number suffices, `Diverges` that none does.
`forEach` and `forEachSafe` are the two traversal loops over an intrusive list.
The first reads the next pointer after the body has run, so a body that edits
the list also edits the traversal; the second reads it before. On a list that
the body leaves alone the first is a list fold; the second has a loop rule whose
invariant lists the nodes still to come.
-/

namespace Rsu

open Rsu.Data Rsu.Data.Links

universe u v

/-- A call ends with `result`. -/
def Returns {σ : Type u} (call : Nat → Option σ) (result : σ) : Prop :=
  ∃ fuel, call fuel = some result

/-- No number of iterations lets the call end. -/
def Diverges {σ : Type u} (call : Nat → Option σ) : Prop :=
  ∀ fuel, call fuel = none

/-- Granting more iterations does not change a result. -/
def Persistent {σ : Type u} (call : Nat → Option σ) : Prop :=
  ∀ ⦃fuel more result⦄, fuel ≤ more → call fuel = some result → call more = some result

section Calls

variable {σ : Type u} {call : Nat → Option σ}

/-- A persistent call has at most one result. -/
theorem Returns.unique (persistent : Persistent call) {first second : σ}
    (left : Returns call first) (right : Returns call second) : first = second := by
  obtain ⟨fuel, left⟩ := left
  obtain ⟨more, right⟩ := right
  have low := persistent (Nat.le_max_left fuel more) left
  have high := persistent (Nat.le_max_right fuel more) right
  exact Option.some.inj (low.symm.trans high)

/-- What is done with the result of a persistent call is persistent. -/
theorem Persistent.map {τ : Type v} (persistent : Persistent call) (after : σ → τ) :
    Persistent fun fuel => (call fuel).map after := by
  intro fuel more result enough returned
  obtain ⟨value, before, rfl⟩ := Option.map_eq_some_iff.1 returned
  exact Option.map_eq_some_iff.2 ⟨value, persistent enough before, rfl⟩

/-- A call without a loop is persistent. -/
theorem persistent_const (result : Option σ) : Persistent fun _ => result :=
  fun _ _ _ _ returned => returned

/-- A call that returns does not diverge. -/
theorem Returns.not_diverges {result : σ} (returns : Returns call result) : ¬ Diverges call := by
  obtain ⟨fuel, equal⟩ := returns
  intro diverges
  rw [diverges fuel] at equal
  cases equal

end Calls

section Traversal

variable {α : Type u} {σ : Type v} [DecidableEq α]

/-- `list_for_each_entry`: the next node is read after the body has run. -/
def forEach (links : σ → Links α) (head : α) (body : α → σ → ForInStep σ) :
    Nat → α → σ → Option σ
  | 0, _, _ => none
  | fuel + 1, pos, state =>
      if pos = head then some state
      else
        match body pos state with
        | .done result => some result
        | .yield result => forEach links head body fuel ((links result).next pos) result

/-- A traversal that reads the next node before the body runs. -/
def forEachSafe (links : σ → Links α) (head : α) (body : α → σ → σ) :
    Nat → α → σ → Option σ
  | 0, _, _ => none
  | fuel + 1, pos, state =>
      if pos = head then some state
      else forEachSafe links head body fuel ((links state).next pos) (body pos state)

/-- The body over the nodes in order, up to the first one that breaks out. -/
def foldBreak (body : α → σ → ForInStep σ) : List α → σ → σ
  | [], state => state
  | node :: rest, state =>
      match body node state with
      | .done result => result
      | .yield result => foldBreak body rest result

variable {links : σ → Links α} {head : α}

/-- Granting a traversal more iterations does not change its result. -/
theorem forEach_persistent (body : α → σ → ForInStep σ) (pos : α) (state : σ) :
    Persistent fun fuel => forEach links head body fuel pos state := by
  intro fuel more result enough returned
  simp only at returned ⊢
  induction fuel generalizing pos state more with
  | zero => simp [forEach] at returned
  | succ fuel inductionHypothesis =>
      obtain ⟨extra, rfl⟩ : ∃ extra, more = extra + 1 := ⟨more - 1, by omega⟩
      by_cases atHead : pos = head
      · simpa [forEach, atHead] using returned
      · cases stepped : body pos state with
        | done value => simpa [forEach, atHead, stepped] using returned
        | yield value =>
            simp only [forEach, atHead, stepped, if_false] at returned ⊢
            exact inductionHypothesis _ _ (by omega) returned

/-- More fuel leads to the same result. -/
theorem forEachSafe_persistent (body : α → σ → σ) (pos : α) (state : σ) :
    Persistent fun fuel => forEachSafe links head body fuel pos state := by
  intro fuel more result enough returned
  simp only at returned ⊢
  induction fuel generalizing pos state more with
  | zero => simp [forEachSafe] at returned
  | succ fuel inductionHypothesis =>
      obtain ⟨extra, rfl⟩ : ∃ extra, more = extra + 1 := ⟨more - 1, by omega⟩
      by_cases atHead : pos = head
      · simpa [forEachSafe, atHead] using returned
      · simp only [forEachSafe, atHead, if_false] at returned ⊢
        exact inductionHypothesis _ _ (by omega) returned

/-- One iteration of a traversal. -/
theorem forEach_yield {body : α → σ → ForInStep σ} {pos : α} {state after : σ} {fuel : Nat}
    (inside : pos ≠ head) (stepped : body pos state = .yield after) :
    forEach links head body (fuel + 1) pos state =
      forEach links head body fuel ((links after).next pos) after := by
  simp only [forEach, inside, stepped, if_false]

/-- A body that leaves its own node pointing to itself keeps the traversal there. -/
theorem forEach_diverges {body : α → σ → ForInStep σ} {inv : σ → Prop} {pos : α}
    (inside : pos ≠ head)
    (stays : ∀ {state}, inv state →
      ∃ after, body pos state = .yield after ∧ inv after ∧ (links after).next pos = pos)
    {state : σ} (start : inv state) :
    Diverges fun fuel => forEach links head body fuel pos state := by
  intro fuel
  simp only
  induction fuel generalizing state with
  | zero => rfl
  | succ fuel inductionHypothesis =>
      obtain ⟨after, stepped, kept, same⟩ := stays start
      rw [forEach_yield inside stepped, same]
      exact inductionHypothesis kept

/-- From any node of a ring on, a body that keeps the links makes the traversal
a fold over the nodes still to come. -/
theorem forEach_segment_eq_foldBreak {body : α → σ → ForInStep σ} {inv : σ → Prop}
    (keeps : ∀ {pos before after}, inv before → body pos before = .yield after →
      inv after ∧ links after = links before)
    {first : α} {rest : List α} {state : σ} {fuel : Nat} (start : inv state)
    (segment : (links state).Segment first rest head) (outside : head ∉ rest)
    (enough : rest.length < fuel) :
    forEach links head body fuel ((links state).next first) state =
      some (foldBreak body rest state) := by
  induction rest generalizing first fuel state with
  | nil =>
      obtain ⟨extra, rfl⟩ : ∃ extra, fuel = extra + 1 := ⟨fuel - 1, by simp at enough; omega⟩
      simp [forEach, foldBreak, segment.1]
  | cons node rest inductionHypothesis =>
      obtain ⟨extra, rfl⟩ : ∃ extra, fuel = extra + 1 := ⟨fuel - 1, by simp at enough; omega⟩
      simp only [List.mem_cons, not_or] at outside
      have notHead : node ≠ head := Ne.symm outside.1
      rw [segment.1.1]
      cases stepped : body node state with
      | done value => simp [forEach, foldBreak, notHead, stepped]
      | yield value =>
          obtain ⟨kept, same⟩ := keeps start stepped
          simp only [forEach, foldBreak, notHead, stepped, if_false]
          exact inductionHypothesis kept (same ▸ segment.2) outside.2 (by simp at enough; omega)

/-- A body that keeps the links makes the traversal of a ring a fold over its nodes. -/
theorem forEach_eq_foldBreak {body : α → σ → ForInStep σ} {nodes : List α} {state : σ} {fuel : Nat}
    (keeps : ∀ {pos before after}, body pos before = .yield after → links after = links before)
    (ring : (links state).Ring head nodes) (enough : nodes.length < fuel) :
    forEach links head body fuel ((links state).next head) state =
      some (foldBreak body nodes state) := by
  have stays : ∀ {pos before after}, True → body pos before = .yield after →
      True ∧ links after = links before := fun _ stepped => ⟨trivial, keeps stepped⟩
  exact forEach_segment_eq_foldBreak stays trivial ring.linked (List.nodup_cons.1 ring.nodup).1 enough

/-- The loop rule of a traversal that looks ahead: its invariant lists the nodes
still to come and says where the current one points. -/
theorem forEachSafe_rule {body : α → σ → σ} {inv : List α → σ → Prop}
    (fetch : ∀ {node rest state}, inv (node :: rest) state →
      node ≠ head ∧ (links state).next node = firstOr head rest)
    (keeps : ∀ {node rest state}, inv (node :: rest) state → inv rest (body node state))
    {nodes : List α} {state : σ} {fuel : Nat} (start : inv nodes state)
    (enough : nodes.length < fuel) :
    ∃ result, forEachSafe links head body fuel (firstOr head nodes) state = some result ∧
      inv [] result := by
  induction nodes generalizing state fuel with
  | nil =>
      obtain ⟨extra, rfl⟩ : ∃ extra, fuel = extra + 1 := ⟨fuel - 1, by simp at enough; omega⟩
      exact ⟨state, by simp [forEachSafe], start⟩
  | cons node rest inductionHypothesis =>
      obtain ⟨extra, rfl⟩ : ∃ extra, fuel = extra + 1 := ⟨fuel - 1, by simp at enough; omega⟩
      obtain ⟨notHead, nextEq⟩ := fetch start
      simp only [firstOr_cons, forEachSafe, notHead, if_false, nextEq]
      exact inductionHypothesis (keeps start) (by simp at enough; omega)

end Traversal

end Rsu
