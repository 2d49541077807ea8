import Mathlib.Logic.Basic

/-!
# Calls that may fault

A call on raw memory either ends or stops at its first access outside the object
it may use. `Ends` says that a call ends with a result of some kind; its rules
turn a chain of checked accesses into the conjunction of their bounds.
-/

namespace Rsu

/-- The access that went wrong. -/
inductive Fault where
  | read
  | write
  deriving DecidableEq

/-- A call that stops at the first fault. -/
abbrev Checked (α : Type) := Except Fault α

namespace Checked

variable {α β : Type}

/-- Read `count` bytes at `offset` of an object of `size` bytes. -/
def readable (size offset count : Nat) : Checked Unit :=
  if offset + count ≤ size then .ok () else .error .read

/-- Write `count` bytes at `offset` of an object of `size` bytes. -/
def writable (size offset count : Nat) : Checked Unit :=
  if offset + count ≤ size then .ok () else .error .write

/-- Move a pointer back to an earlier byte of its object. -/
def back (offset count : Nat) : Checked Nat :=
  if count ≤ offset then .ok (offset - count) else .error .write

/-- The call ends, and its result meets `post`. -/
def Ends (call : Checked α) (post : α → Prop) : Prop := ∃ result, call = .ok result ∧ post result

@[simp] theorem ends_pure (value : α) (post : α → Prop) :
    Ends (pure value) post ↔ post value := by
  constructor
  · rintro ⟨result, same, holds⟩
    cases same
    exact holds
  · exact fun holds => ⟨value, rfl, holds⟩

@[simp] theorem ends_ok (value : α) (post : α → Prop) : Ends (.ok value) post ↔ post value :=
  ends_pure value post

@[simp] theorem ends_error (fault : Fault) (post : α → Prop) : ¬ Ends (.error fault) post := by
  rintro ⟨result, same, -⟩
  cases same

@[simp] theorem ok_bind (value : α) (next : α → Checked β) :
    ((.ok value : Checked α) >>= next) = next value := rfl

/-- The rule of sequence. -/
@[simp] theorem ends_bind (call : Checked α) (next : α → Checked β) (post : β → Prop) :
    Ends (call >>= next) post ↔ Ends call fun value => Ends (next value) post := by
  cases call with
  | ok value => simp only [ends_ok]; rfl
  | error fault =>
      constructor
      · exact fun ends => absurd ends (ends_error fault post)
      · exact fun ends => absurd ends (ends_error fault _)

@[simp] theorem ends_map (change : α → β) (call : Checked α) (post : β → Prop) :
    Ends (change <$> call) post ↔ Ends call fun value => post (change value) := by
  rw [← bind_pure_comp, ends_bind]
  simp only [ends_pure]

/-- A checked read ends exactly inside the object. -/
@[simp] theorem ends_readable (size offset count : Nat) (post : Unit → Prop) :
    Ends (readable size offset count) post ↔ offset + count ≤ size ∧ post () := by
  unfold readable
  split <;> simp [*]

/-- A checked write ends exactly inside the object. -/
@[simp] theorem ends_writable (size offset count : Nat) (post : Unit → Prop) :
    Ends (writable size offset count) post ↔ offset + count ≤ size ∧ post () := by
  unfold writable
  split <;> simp [*]

/-- A pointer ends up inside its object exactly when it does not leave it. -/
@[simp] theorem ends_back (offset count : Nat) (post : Nat → Prop) :
    Ends (back offset count) post ↔ count ≤ offset ∧ post (offset - count) := by
  unfold back
  split <;> simp [*]

/-- The rule of the conditional. -/
@[simp] theorem ends_ite {condition : Prop} [Decidable condition] (yes no : Checked α)
    (post : α → Prop) :
    Ends (if condition then yes else no) post ↔
      (condition → Ends yes post) ∧ (¬condition → Ends no post) := by
  by_cases holds : condition <;> simp [holds]

/-- A read inside the object lets the call go on. -/
theorem readable_bind {size offset count : Nat} (inside : offset + count ≤ size)
    (next : Unit → Checked β) : (readable size offset count >>= next) = next () := by
  rw [readable, if_pos inside]
  rfl

/-- A write inside the object lets the call go on. -/
theorem writable_bind {size offset count : Nat} (inside : offset + count ≤ size)
    (next : Unit → Checked β) : (writable size offset count >>= next) = next () := by
  rw [writable, if_pos inside]
  rfl

/-- A call that ends with a known result. -/
theorem ends_eq (call : Checked α) (value : α) :
    Ends call (fun result => result = value) ↔ call = .ok value := by
  constructor
  · rintro ⟨result, same, rfl⟩
    exact same
  · exact fun same => ⟨value, same, rfl⟩

/-- A postcondition that does not look at the result. -/
theorem ends_const (call : Checked α) (fact : Prop) :
    Ends call (fun _ => fact) ↔ Ends call (fun _ => True) ∧ fact := by
  constructor
  · rintro ⟨result, same, holds⟩
    exact ⟨⟨result, same, trivial⟩, holds⟩
  · rintro ⟨⟨result, same, -⟩, holds⟩
    exact ⟨result, same, holds⟩

/-- A call that is followed by what does not depend on its result. -/
theorem ends_iff {call : Checked α} {post : α → Prop} {inside fact : Prop}
    (ends : Ends call (fun _ => True) ↔ inside) (same : ∀ result, post result ↔ fact) :
    Ends call post ↔ inside ∧ fact := by
  rw [show post = fun _ => fact from funext fun result => propext (same result), ends_const, ends]

/-- What is known of the result from two sides. -/
theorem Ends.and {call : Checked α} {post other : α → Prop} (ends : Ends call post)
    (also : Ends call other) : Ends call fun result => post result ∧ other result := by
  obtain ⟨result, same, holds⟩ := ends
  obtain ⟨again, equal, known⟩ := also
  cases same.symm.trans equal
  exact ⟨result, same, holds, known⟩

/-- Weaken what is known of the result. -/
theorem Ends.mono {call : Checked α} {post weaker : α → Prop} (ends : Ends call post)
    (implies : ∀ result, post result → weaker result) : Ends call weaker := by
  obtain ⟨result, same, holds⟩ := ends
  exact ⟨result, same, implies result holds⟩

/-- Two calls stop at the same fault, or both end with results that are related. -/
inductive Both (related : α → β → Prop) : Checked α → Checked β → Prop
  | ends {left : α} {right : β} (holds : related left right) : Both related (.ok left) (.ok right)
  | stops (fault : Fault) : Both related (.error fault) (.error fault)

/-- The rule of sequence for two calls. -/
theorem Both.bind {γ δ : Type} {related : α → β → Prop} {then' : γ → δ → Prop}
    {left : Checked α} {right : Checked β} {next : α → Checked γ} {other : β → Checked δ}
    (both : Both related left right)
    (rest : ∀ first second, related first second → Both then' (next first) (other second)) :
    Both then' (left >>= next) (right >>= other) := by
  cases both with
  | ends holds => exact rest _ _ holds
  | stops fault => exact .stops fault

end Checked

end Rsu
