import Mathlib.Data.List.TakeWhile
import Mathlib.Logic.Function.Iterate

/-!
# A text with a cursor

The text in front of the cursor is kept with its end first, so that both sides begin at the cursor.
-/

namespace Rsu.Data

/-- A text with a cursor. -/
structure Zipper (α : Type) where
  left : List α
  right : List α

namespace Zipper

variable {α : Type}

/-- The text. -/
def text (z : Zipper α) : List α := z.left.reverse ++ z.right

/-- The text with the cursor behind it. -/
def behind (text : List α) : Zipper α := ⟨text.reverse, []⟩

/-- A character comes in front of the cursor. -/
def insert (char : α) (z : Zipper α) : Zipper α := ⟨char :: z.left, z.right⟩

/-- The cursor goes on by one. -/
def forward (z : Zipper α) : Zipper α :=
  match z.right with
  | [] => z
  | char :: right => ⟨char :: z.left, right⟩

/-- The cursor goes back by one. -/
def backward (z : Zipper α) : Zipper α :=
  match z.left with
  | [] => z
  | char :: left => ⟨left, char :: z.right⟩

/-- The cursor goes in front of the text. -/
def start (z : Zipper α) : Zipper α := ⟨[], z.text⟩

/-- The cursor goes behind the text. -/
def finish (z : Zipper α) : Zipper α := behind z.text

/-- The cursor goes on behind the characters that meet a test. -/
def forwardWhile (test : α → Bool) (z : Zipper α) : Zipper α :=
  ⟨(z.right.takeWhile test).reverse ++ z.left, z.right.dropWhile test⟩

/-- The cursor goes back in front of the characters that meet a test. -/
def backwardWhile (test : α → Bool) (z : Zipper α) : Zipper α :=
  ⟨z.left.dropWhile test, (z.left.takeWhile test).reverse ++ z.right⟩

/-- The character behind the cursor is deleted. -/
def delete (z : Zipper α) : Zipper α := ⟨z.left, z.right.tail⟩

/-- The character in front of the cursor is deleted. -/
def deleteBack (z : Zipper α) : Zipper α := ⟨z.left.tail, z.right⟩

/-- The text behind the cursor is deleted. -/
def kill (z : Zipper α) : Zipper α := ⟨z.left, []⟩

/-- The characters behind the cursor that meet a test are deleted. -/
def killWhile (test : α → Bool) (z : Zipper α) : Zipper α := ⟨z.left, z.right.dropWhile test⟩

/-- The characters in front of the cursor that meet a test are deleted. -/
def killBackWhile (test : α → Bool) (z : Zipper α) : Zipper α :=
  ⟨z.left.dropWhile test, z.right⟩

/-- Two characters change places: those around the cursor, or the last two. -/
def transpose (z : Zipper α) : Zipper α :=
  match z.left, z.right with
  | last :: before :: left, [] => ⟨before :: last :: left, []⟩
  | before :: left, next :: right => ⟨before :: next :: left, right⟩
  | _, _ => z

@[simp] theorem text_mk (left right : List α) : text ⟨left, right⟩ = left.reverse ++ right := rfl

/-- Behind its text the zipper has the text. -/
@[simp] theorem text_behind (text : List α) : (behind text).text = text := by
  simp [Zipper.text, behind]

/-- Over a character that meets the test. -/
theorem forwardWhile_cons_pos {test : α → Bool} {char : α} {left right : List α}
    (meets : test char = true) :
    forwardWhile test ⟨left, char :: right⟩ = forwardWhile test ⟨char :: left, right⟩ := by
  simp [forwardWhile, meets]

/-- A character that fails the test stops the way forward. -/
theorem forwardWhile_cons_neg {test : α → Bool} {char : α} {left right : List α}
    (fails : test char = false) :
    forwardWhile test ⟨left, char :: right⟩ = ⟨left, char :: right⟩ := by
  simp [forwardWhile, fails]

/-- Back over a character that meets the test. -/
theorem backwardWhile_cons_pos {test : α → Bool} {char : α} {left right : List α}
    (meets : test char = true) :
    backwardWhile test ⟨char :: left, right⟩ = backwardWhile test ⟨left, char :: right⟩ := by
  simp [backwardWhile, meets]

/-- A character that fails the test stops the way back. -/
theorem backwardWhile_cons_neg {test : α → Bool} {char : α} {left right : List α}
    (fails : test char = false) :
    backwardWhile test ⟨char :: left, right⟩ = ⟨char :: left, right⟩ := by
  simp [backwardWhile, fails]

/-- Nothing stops before the end. -/
theorem forwardWhile_true (z : Zipper α) : forwardWhile (fun _ => true) z = z.finish := by
  have all : z.right.takeWhile (fun _ => true) = z.right :=
    List.takeWhile_eq_self_iff.2 fun _ _ => rfl
  have none : z.right.dropWhile (fun _ => true) = [] :=
    List.dropWhile_eq_nil_iff.2 fun _ _ => rfl
  simp [forwardWhile, finish, behind, Zipper.text, all, none]

/-- So many steps lead to the beginning. -/
theorem iterate_backward (z : Zipper α) : backward^[z.left.length] z = z.start := by
  obtain ⟨left, right⟩ := z
  induction left generalizing right with
  | nil => rfl
  | cons char left inductionHypothesis =>
      rw [List.length_cons, Function.iterate_succ_apply]
      refine (inductionHypothesis (char :: right)).trans ?_
      simp [start]

/-! ### What becomes of the text -/

/-- Moving changes no text. -/
@[simp] theorem text_forward (z : Zipper α) : z.forward.text = z.text := by
  obtain ⟨left, _ | ⟨char, right⟩⟩ := z <;> simp [forward]

@[simp] theorem text_backward (z : Zipper α) : z.backward.text = z.text := by
  obtain ⟨_ | ⟨char, left⟩, right⟩ := z <;> simp [backward]

@[simp] theorem text_start (z : Zipper α) : z.start.text = z.text := by simp [start]

@[simp] theorem text_finish (z : Zipper α) : z.finish.text = z.text := by simp [finish]

@[simp] theorem text_forwardWhile (test : α → Bool) (z : Zipper α) :
    (z.forwardWhile test).text = z.text := by
  obtain ⟨left, right⟩ := z
  simp [forwardWhile, List.takeWhile_append_dropWhile]

@[simp] theorem text_backwardWhile (test : α → Bool) (z : Zipper α) :
    (z.backwardWhile test).text = z.text := by
  obtain ⟨left, right⟩ := z
  rw [backwardWhile, text_mk, text_mk, ← List.append_assoc, ← List.reverse_append,
    List.takeWhile_append_dropWhile]

/-- Deleting only takes characters out. -/
theorem text_delete (z : Zipper α) : z.delete.text.Sublist z.text :=
  (List.Sublist.refl _).append (List.tail_sublist _)

theorem text_deleteBack (z : Zipper α) : z.deleteBack.text.Sublist z.text :=
  (List.tail_sublist _).reverse.append (List.Sublist.refl _)

theorem text_kill (z : Zipper α) : z.kill.text.Sublist z.text :=
  (List.Sublist.refl _).append (List.nil_sublist _)

theorem text_killWhile (test : α → Bool) (z : Zipper α) :
    (z.killWhile test).text.Sublist z.text :=
  (List.Sublist.refl _).append (List.dropWhile_sublist _)

theorem text_killBackWhile (test : α → Bool) (z : Zipper α) :
    (z.killBackWhile test).text.Sublist z.text :=
  (List.dropWhile_sublist _).reverse.append (List.Sublist.refl _)

/-- Exchanging two characters keeps them all. -/
theorem text_transpose (z : Zipper α) : z.transpose.text.Perm z.text := by
  obtain ⟨_ | ⟨last, _ | ⟨before, left⟩⟩, _ | ⟨next, right⟩⟩ := z
  case cons.cons.nil =>
    simpa [transpose] using (List.Perm.swap before last []).append_left left.reverse
  case cons.nil.cons => simpa [transpose] using List.Perm.swap last next right
  case cons.cons.cons =>
    simpa [transpose] using
      (List.Perm.swap last next right).append_left (left.reverse ++ [before])
  all_goals exact List.Perm.refl _

end Zipper

end Rsu.Data
