import Rsu.Cli.LineBuf
import Rsu.Data.Zipper

/-!
# The line of a telnet session

A line is a text with a cursor in it. The buffer holds that text with zeros behind it, and unless a
password is typed the terminal shows it with the cursor in its place: what an editing function does
to the buffer and to the terminal is one thing that it does to the text.
-/

namespace Rsu.Cli

open Checked Data Rcp

namespace LineBuf

/-! ### The text with its cursor -/

/-- The fields of the line are replaced; the row is, unless a password is typed. -/
def having (vty : LineBuf) (buf : List Byte) (cp length : Nat) (row : Row Byte) : LineBuf :=
  { vty with
    cmdInputBuf := buf
    cp := cp
    length := length
    row := if vty.node.hidden then vty.row else row }

/-- The line holds a text with its cursor, with so many zeros behind it in the buffer and so many
blanks behind it on the terminal. -/
def made (vty : LineBuf) (z : Zipper Byte) (spare blank : Nat) : LineBuf :=
  vty.having (z.left.reverse ++ z.right ++ List.replicate spare 0) z.left.length
    (z.left.length + z.right.length)
    ⟨z.left.reverse ++ z.right ++ List.replicate blank telnetSpaceChar, z.left.length⟩

/-- A character that a terminal shows in one cell. -/
def Printable (char : Byte) : Prop := 31 < char.toNat ∧ char.toNat < 127

/-- What is printable does not end a string. -/
theorem Printable.ne_zero {char : Byte} (printable : Printable char) : char ≠ 0 := by
  rintro rfl
  exact absurd printable.1 (by decide)

/-- What is printable does not move the cursor back. -/
theorem Printable.ne_back {char : Byte} (printable : Printable char) :
    char ≠ telnetBackwardChar := by
  rintro rfl
  exact absurd printable.1 (by decide)

/-- A space does not move the cursor back. -/
theorem space_ne_back : telnetSpaceChar ≠ telnetBackwardChar := by decide

/-- The text consists of such characters. -/
def Typed (text : List Byte) : Prop := ∀ char ∈ text, Printable char

@[simp] theorem made_cp (vty : LineBuf) (z : Zipper Byte) (spare blank : Nat) :
    (vty.made z spare blank).cp = z.left.length := rfl

@[simp] theorem made_length (vty : LineBuf) (z : Zipper Byte) (spare blank : Nat) :
    (vty.made z spare blank).length = z.left.length + z.right.length := rfl

@[simp] theorem made_cmdInputBuf (vty : LineBuf) (z : Zipper Byte) (spare blank : Nat) :
    (vty.made z spare blank).cmdInputBuf =
      z.left.reverse ++ z.right ++ List.replicate spare 0 := rfl

section Having

variable {vty : LineBuf} {buf : List Byte} {cp length : Nat} {row : Row Byte}

/-- Writing to the terminal changes its row only. -/
theorem vtyWrite_having (chars : List Byte) :
    (vty.having buf cp length row).vtyWrite chars =
      vty.having buf cp length (row.puts telnetBackwardChar chars) := by
  unfold vtyWrite having
  split_ifs <;> rfl

/-- Cells of the buffer are written to the terminal as they are read. -/
theorem writeLine_having {offset count : Nat} {chars : List Byte}
    (read : loadCells buf offset count = .ok chars) :
    (vty.having buf cp length row).writeLine offset count =
      .ok (vty.having buf cp length (row.puts telnetBackwardChar chars)) := by
  rw [writeLine]
  change loadCells buf offset count >>= _ = _
  rw [read, ok_bind, vtyWrite_having]
  rfl

end Having

section Edits

variable {vty : LineBuf} {left right : List Byte} {spare blank : Nat} {char : Byte}

/-- A line is made of a text if its fields are. -/
theorem having_eq_made {buf : List Byte} {cp length : Nat} {row : Row Byte} {z : Zipper Byte}
    (text : buf = z.left.reverse ++ z.right ++ List.replicate spare 0)
    (cursor : cp = z.left.length) (size : length = z.left.length + z.right.length)
    (cells : row.cells = z.left.reverse ++ z.right ++ List.replicate blank telnetSpaceChar)
    (place : row.cursor = z.left.length) :
    vty.having buf cp length row = vty.made z spare blank := by
  obtain ⟨_, _⟩ := row
  subst text cursor size
  obtain rfl := cells
  obtain rfl := place
  rfl

/-- Nothing behind the cursor moves it back. -/
theorem Typed.later (typed : Typed (left.reverse ++ right)) :
    ∀ char ∈ right, char ≠ telnetBackwardChar :=
  fun char member => (typed char (List.mem_append_right _ member)).ne_back

/-- The character behind the cursor is in the buffer. -/
theorem load_next :
    loadCells (left.reverse ++ (char :: right) ++ List.replicate spare 0) left.length 1 =
      .ok [char] :=
  loadCells_append (show _ = left.reverse ++ [char] ++ (right ++ List.replicate spare 0) by simp)
    List.length_reverse.symm rfl

/-- The character in front of the cursor is in the buffer. -/
theorem load_last :
    loadCells ((char :: left).reverse ++ right ++ List.replicate spare 0) left.length 1 = .ok [char] :=
  loadCells_append (show _ = left.reverse ++ [char] ++ (right ++ List.replicate spare 0) by simp)
    List.length_reverse.symm rfl

/-- Text is written from the cursor on, and the cursor goes back. -/
theorem puts_row (text : List Byte) (plain : ∀ char ∈ text, char ≠ telnetBackwardChar)
    (count : Nat) :
    Row.puts telnetBackwardChar
        ⟨left.reverse ++ right ++ List.replicate blank telnetSpaceChar, left.length⟩
        (text ++ List.replicate count telnetBackwardChar) =
      ⟨left.reverse ++ text ++ (right ++ List.replicate blank telnetSpaceChar).drop text.length,
        left.length + text.length - count⟩ := by
  have written := Row.puts_text_backs left.reverse
    (right ++ List.replicate blank telnetSpaceChar) text plain count
  rwa [List.length_reverse, ← List.append_assoc] at written

/-- The cursor goes one character forward, by writing the character again. -/
theorem vtyForwardChar_made {z : Zipper Byte} (typed : Typed z.text) :
    (vty.made z spare blank).vtyForwardChar = .ok (vty.made z.forward spare blank) := by
  obtain ⟨left, right⟩ := z
  cases right with
  | nil => rw [vtyForwardChar, if_neg (by simp)]; rfl
  | cons char right =>
      have written := Row.puts_text left.reverse
        (char :: right ++ List.replicate blank telnetSpaceChar) [char]
        (by simpa using typed.later char List.mem_cons_self)
      rw [List.length_reverse, ← List.append_assoc] at written
      rw [vtyForwardChar, if_pos (by simp), made_cp, made, writeLine_having load_next, ok_bind,
        written]
      change Except.ok (vty.having _ _ _ _) = _
      refine congrArg Except.ok (having_eq_made (z := Zipper.forward ⟨left, char :: right⟩)
        ?text rfl ?size ?cells ?place)
      case text => simp [having, Zipper.forward]
      case size => simp [having, Zipper.forward]; omega
      case cells => simp [Zipper.forward]
      case place => simp [Zipper.forward]

/-- The cursor goes one character back. -/
theorem vtyBackwardChar_made (z : Zipper Byte) :
    (vty.made z spare blank).vtyBackwardChar = vty.made z.backward spare blank := by
  obtain ⟨left, right⟩ := z
  cases left with
  | nil => rw [vtyBackwardChar, if_neg (by simp)]; rfl
  | cons char left =>
      rw [vtyBackwardChar, if_pos (by simp)]
      change (vty.having _ _ _ _).vtyWrite _ = _
      rw [vtyWrite_having]
      refine having_eq_made (z := Zipper.backward ⟨char :: left, right⟩) ?text ?cursor ?size ?cells
        ?place
      case text => simp [Zipper.backward]
      case cursor => simp [Zipper.backward]
      case size => simp [Zipper.backward]; omega
      case cells => simp [Zipper.backward, Row.puts, Row.put]
      case place => simp [Zipper.backward, Row.puts, Row.put]

/-- The loop that goes forward over characters is that of the zipper. -/
theorem forwardWhile_made (test : Byte → Bool) {z : Zipper Byte} (typed : Typed z.text) :
    forwardWhile test z.right.length (vty.made z spare blank) =
      .ok (vty.made (z.forwardWhile test) spare blank) := by
  obtain ⟨left, right⟩ := z
  induction right generalizing left with
  | nil => rfl
  | cons char right inductionHypothesis =>
      rw [List.length_cons, forwardWhile, made_cp, made_cmdInputBuf, load_next, ok_bind]
      cases meets : test char with
      | true =>
          rw [Zipper.forwardWhile_cons_pos meets, if_pos (by simpa using meets),
            vtyForwardChar_made typed, ok_bind]
          exact inductionHypothesis (char :: left) (by simpa using typed)
      | false =>
          rw [Zipper.forwardWhile_cons_neg meets, if_neg (by simp [meets])]
          rfl

/-- The loop that goes back over characters is that of the zipper. -/
theorem backwardWhile_made (test : Byte → Bool) (z : Zipper Byte) :
    backwardWhile test z.left.length (vty.made z spare blank) =
      .ok (vty.made (z.backwardWhile test) spare blank) := by
  obtain ⟨left, right⟩ := z
  induction left generalizing right with
  | nil => rfl
  | cons char left inductionHypothesis =>
      rw [List.length_cons, backwardWhile, made_cp, made_cmdInputBuf, List.length_cons,
        Nat.add_sub_cancel, load_last, ok_bind]
      cases meets : test char with
      | true =>
          rw [Zipper.backwardWhile_cons_pos meets, if_pos (by simpa using meets),
            vtyBackwardChar_made]
          exact inductionHypothesis (char :: right)
      | false =>
          rw [Zipper.backwardWhile_cons_neg meets, if_neg (by simp [meets])]
          rfl

/-- The cursor goes to the start of the line. -/
theorem vtyBeginningOfLine_made (z : Zipper Byte) :
    (vty.made z spare blank).vtyBeginningOfLine = vty.made z.start spare blank := by
  have semiconj : Function.Semiconj (fun z => vty.made z spare blank) Zipper.backward
      vtyBackwardChar := fun z => (vtyBackwardChar_made z).symm
  rw [vtyBeginningOfLine, made_cp, ← Zipper.iterate_backward]
  exact ((semiconj.iterate_right z.left.length) z).symm

/-- The cursor goes to the end of the line. -/
theorem vtyEndOfLine_made {z : Zipper Byte} (typed : Typed z.text) :
    (vty.made z spare blank).vtyEndOfLine = .ok (vty.made z.finish spare blank) := by
  rw [vtyEndOfLine, made_cp, made_length, Nat.add_sub_cancel_left, forwardWhile_made _ typed,
    Zipper.forwardWhile_true]

/-- The cursor goes over the word it is in, and the spaces behind it. -/
theorem vtyForwardWord_made {z : Zipper Byte} (typed : Typed z.text) :
    (vty.made z spare blank).vtyForwardWord =
      .ok (vty.made ((z.forwardWhile (· ≠ telnetSpaceChar)).forwardWhile (· = telnetSpaceChar))
        spare blank) := by
  rw [vtyForwardWord, made_cp, made_length, Nat.add_sub_cancel_left, forwardWhile_made _ typed,
    ok_bind, made_cp, made_length, Nat.add_sub_cancel_left, forwardWhile_made _ (by simpa)]

/-- The cursor goes back to the start of the word it is in. -/
theorem vtyBackwardPureWord_made (z : Zipper Byte) :
    (vty.made z spare blank).vtyBackwardPureWord =
      .ok (vty.made (z.backwardWhile (· ≠ telnetSpaceChar)) spare blank) := by
  rw [vtyBackwardPureWord, made_cp, backwardWhile_made]

/-- The cursor goes back over spaces, and the word in front of them. -/
theorem vtyBackwardWord_made (z : Zipper Byte) :
    (vty.made z spare blank).vtyBackwardWord =
      .ok (vty.made ((z.backwardWhile (· = telnetSpaceChar)).backwardWhile (· ≠ telnetSpaceChar))
        spare blank) := by
  rw [vtyBackwardWord, made_cp, backwardWhile_made, ok_bind, made_cp, backwardWhile_made]

/-- The line is written on a row that is blank. -/
theorem redraw_made {text : List Byte} (typed : Typed text) {cp : Nat} :
    (vty.having (text ++ List.replicate spare 0) cp text.length
        ⟨List.replicate blank telnetSpaceChar, 0⟩).vtyRedrawLine =
      .ok (vty.made (Zipper.behind text) spare (blank - text.length)) := by
  have read : loadCells (text ++ List.replicate spare 0) 0 text.length = .ok text :=
    loadCells_append (show _ = [] ++ text ++ List.replicate spare 0 from rfl) rfl rfl
  have written := Row.puts_text [] (List.replicate blank telnetSpaceChar) text
    fun char member => (typed char member).ne_back
  rw [vtyRedrawLine]
  change (vty.having _ _ _ _).writeLine 0 text.length >>= _ = _
  rw [writeLine_having read, ok_bind]
  change Except.ok (vty.having _ _ _ _) = _
  refine congrArg Except.ok (having_eq_made (z := Zipper.behind text) ?text ?cursor ?size ?cells
    ?place)
  case text => simp [having, Zipper.behind]
  case cursor => simp [having, Zipper.behind]
  case size => simp [having, Zipper.behind]
  case cells =>
    refine (congrArg Row.cells written).trans ?_
    simp [Zipper.behind]
  case place => exact (congrArg Row.cursor written).trans (by simp [Zipper.behind])

/-- Blanks are written like a text. -/
theorem blank_plain (count : Nat) :
    ∀ char ∈ List.replicate count telnetSpaceChar, char ≠ telnetBackwardChar := by
  intro char member
  rw [List.eq_of_mem_replicate member]
  exact space_ne_back

/-- The character at the cursor is taken out of the buffer and of the row. -/
theorem vtyDeleteChar_made (typed : Typed (left.reverse ++ char :: right)) :
    (vty.made ⟨left, char :: right⟩ spare blank).vtyDeleteChar =
      .ok (vty.made ⟨left, right⟩ (spare + 1) (blank + 1)) := by
  -- the cell that is left over when the rest has moved
  obtain ⟨spent, last⟩ : ∃ spent, (char :: right).drop right.length = [spent] :=
    List.length_eq_one_iff.1 (by simp)
  have cut : char :: right = (char :: right).take right.length ++ [spent] := by
    rw [← last, List.take_append_drop]
  have moved : moveCells (left.reverse ++ (char :: right) ++ List.replicate spare 0) left.length
      (left.length + 1) right.length =
        .ok (left.reverse ++ right ++ ([spent] ++ List.replicate spare 0)) :=
    moveCells_append (show _ = left.reverse ++ [char] ++ right ++ List.replicate spare 0 by simp)
      (by simp) rfl
      (show _ = left.reverse ++ (char :: right).take right.length ++
        ([spent] ++ List.replicate spare 0) by
          conv_lhs => rw [cut]
          simp)
      (by simp) (by simp)
  have stored : storeCells (left.reverse ++ right ++ ([spent] ++ List.replicate spare 0))
      (left.length + right.length) [0] =
        .ok (left.reverse ++ right ++ List.replicate (spare + 1) 0) := by
    rw [List.replicate_succ, show (0 : Byte) :: List.replicate spare 0 =
      [0] ++ List.replicate spare 0 from rfl, ← List.append_assoc, ← List.append_assoc]
    exact storeCells_append rfl (by simp) rfl
  have read : loadCells (left.reverse ++ right ++ List.replicate (spare + 1) 0) left.length
      right.length = .ok right := loadCells_append rfl (by simp) rfl
  have plain : ∀ other ∈ right ++ [telnetSpaceChar], other ≠ telnetBackwardChar := by
    intro other member
    rcases List.mem_append.1 member with member | member
    · exact typed.later other (List.mem_cons_of_mem _ member)
    · rw [List.mem_singleton.1 member]
      exact space_ne_back
  have size : left.length + (char :: right).length - left.length = right.length + 1 := by simp
  have whole : left.length + (char :: right).length - 1 = left.length + right.length := by simp
  rw [vtyDeleteChar, if_neg (by simp), made_cp, made_length, made_cmdInputBuf]
  dsimp only
  rw [size, whole, Nat.add_sub_cancel, moved, ok_bind, stored, ok_bind]
  change (vty.having _ _ _ _).writeLine left.length right.length >>= _ = _
  rw [writeLine_having read, ok_bind, vtyWrite_having, vtyWrite_having, ← Row.puts_append,
    ← Row.puts_append, ← List.append_assoc, puts_row _ plain]
  refine congrArg Except.ok (having_eq_made (z := ⟨left, right⟩) rfl (by simp) rfl ?cells ?place)
  case cells => simp [List.replicate_succ]
  case place => simp

/-- The line is cut off at the cursor. -/
theorem vtyKillLine_made (z : Zipper Byte) :
    (vty.made z spare blank).vtyKillLine =
      .ok (vty.made z.kill (spare + z.right.length) (blank + z.right.length)) := by
  obtain ⟨left, right⟩ := z
  cases right with
  | nil => rw [vtyKillLine, if_pos (by simp)]; rfl
  | cons char right =>
      have stored : storeCells (left.reverse ++ (char :: right) ++ List.replicate spare 0) left.length
          (List.replicate (char :: right).length 0) =
            .ok (left.reverse ++ List.replicate (char :: right).length 0 ++
              List.replicate spare 0) :=
        storeCells_append rfl (by simp) (by simp)
      have wrote : ((vty.made ⟨left, char :: right⟩ spare blank).vtyWrite
          (List.replicate (char :: right).length telnetSpaceChar)).vtyWrite
            (List.replicate (char :: right).length telnetBackwardChar) =
          vty.having (left.reverse ++ (char :: right) ++ List.replicate spare 0) left.length
            (left.length + (char :: right).length)
            ⟨left.reverse ++ List.replicate (blank + (char :: right).length) telnetSpaceChar,
              left.length⟩ := by
        rw [made, vtyWrite_having, vtyWrite_having, ← Row.puts_append, puts_row _ (blank_plain _)]
        simp [Nat.add_comm blank, List.replicate_add]
      rw [vtyKillLine, made_cp, made_length, Nat.add_sub_cancel_left, if_neg (by simp)]
      dsimp only
      rw [wrote]
      change storeCells (left.reverse ++ (char :: right) ++ List.replicate spare 0) left.length _ >>= _ = _
      rw [stored, ok_bind]
      change Except.ok (vty.having _ _ _ _) = _
      refine congrArg Except.ok (having_eq_made (z := Zipper.kill ⟨left, char :: right⟩) ?text rfl
        ?size ?cells ?place)
      case text => simp [Zipper.kill, Nat.add_comm spare, List.replicate_add]
      case size => rfl
      case cells => simp [Zipper.kill]
      case place => simp [Zipper.kill]

/-- The whole line is deleted. -/
theorem vtyKillLineFromBeginning_made (z : Zipper Byte) :
    (vty.made z spare blank).vtyKillLineFromBeginning =
      .ok (vty.made ⟨[], []⟩ (spare + z.text.length) (blank + z.text.length)) := by
  rw [vtyKillLineFromBeginning, vtyBeginningOfLine_made, vtyKillLine_made]
  rfl

/-- The character in front of the cursor is taken out. -/
theorem vtyDeleteBackwardChar_made (typed : Typed ((char :: left).reverse ++ right)) :
    (vty.made ⟨char :: left, right⟩ spare blank).vtyDeleteBackwardChar =
      .ok (vty.made ⟨left, right⟩ (spare + 1) (blank + 1)) := by
  rw [vtyDeleteBackwardChar, if_neg (by simp), vtyBackwardChar_made]
  exact vtyDeleteChar_made (by simpa using typed)

/-- The loop that deletes forward stops at the first character that the test refuses. -/
theorem killWhile_made (test : Byte → Bool) (typed : Typed (left.reverse ++ right)) :
    killWhile test right.length (vty.made ⟨left, right⟩ spare blank) =
      .ok (vty.made ⟨left, right.dropWhile test⟩ (spare + (right.takeWhile test).length)
        (blank + (right.takeWhile test).length)) := by
  induction right generalizing spare blank with
  | nil => rfl
  | cons char right inductionHypothesis =>
      rw [List.length_cons, killWhile, made_cp, made_cmdInputBuf, load_next, ok_bind]
      cases meets : test char with
      | true =>
          have later : Typed (left.reverse ++ right) := fun other member => typed other (by
            simp only [List.mem_append, List.mem_cons] at member ⊢
            tauto)
          rw [if_pos (by simpa using meets), vtyDeleteChar_made typed, ok_bind,
            inductionHypothesis later, List.dropWhile_cons_of_pos meets,
            List.takeWhile_cons_of_pos meets, List.length_cons, Nat.add_right_comm spare,
            Nat.add_right_comm blank]
          rfl
      | false =>
          have fails : ¬ test char = true := by simp [meets]
          rw [if_neg (by simp [meets]), List.dropWhile_cons_of_neg fails,
            List.takeWhile_cons_of_neg fails]
          rfl

/-- The loop that deletes backward stops at the first character that the test refuses. -/
theorem killBackWhile_made (test : Byte → Bool) (typed : Typed (left.reverse ++ right)) :
    killBackWhile test left.length (vty.made ⟨left, right⟩ spare blank) =
      .ok (vty.made ⟨left.dropWhile test, right⟩ (spare + (left.takeWhile test).length)
        (blank + (left.takeWhile test).length)) := by
  induction left generalizing spare blank with
  | nil => rfl
  | cons char left inductionHypothesis =>
      rw [List.length_cons, killBackWhile, made_cp, made_cmdInputBuf, List.length_cons,
        Nat.add_sub_cancel, load_last, ok_bind]
      cases meets : test char with
      | true =>
          have later : Typed (left.reverse ++ right) := fun other member => typed other (by
            simp only [List.mem_append, List.mem_reverse, List.mem_cons] at member ⊢
            tauto)
          rw [if_pos (by simpa using meets), vtyDeleteBackwardChar_made typed, ok_bind,
            inductionHypothesis later, List.dropWhile_cons_of_pos meets,
            List.takeWhile_cons_of_pos meets, List.length_cons, Nat.add_right_comm spare,
            Nat.add_right_comm blank]
          rfl
      | false =>
          have fails : ¬ test char = true := by simp [meets]
          rw [if_neg (by simp [meets]), List.dropWhile_cons_of_neg fails,
            List.takeWhile_cons_of_neg fails]
          rfl

/-- What is cut off and what is left make up the whole. -/
theorem length_cut (test : Byte → Bool) (text : List Byte) :
    (text.takeWhile test).length + (text.dropWhile test).length = text.length := by
  rw [← List.length_append, List.takeWhile_append_dropWhile]

variable (vty spare blank) in

/-- Spaces and the word behind them are deleted, and leave as many free cells. -/
theorem vtyForwardKillWord_made {z : Zipper Byte} (typed : Typed z.text) :
    ∃ killed, killed + ((z.killWhile (· = telnetSpaceChar)).killWhile
        (· ≠ telnetSpaceChar)).text.length = z.text.length ∧
      (vty.made z spare blank).vtyForwardKillWord =
        .ok (vty.made ((z.killWhile (· = telnetSpaceChar)).killWhile (· ≠ telnetSpaceChar))
          (spare + killed) (blank + killed)) := by
  obtain ⟨left, right⟩ := z
  have later : Typed (left.reverse ++ right.dropWhile (· = telnetSpaceChar)) :=
    fun char member => typed char ((Zipper.text_killWhile _ ⟨left, right⟩).subset member)
  have first := length_cut (fun char => decide (char = telnetSpaceChar)) right
  have second := length_cut (fun char => decide (char ≠ telnetSpaceChar))
    (right.dropWhile fun char => decide (char = telnetSpaceChar))
  refine ⟨(right.takeWhile (· = telnetSpaceChar)).length +
    ((right.dropWhile (· = telnetSpaceChar)).takeWhile (· ≠ telnetSpaceChar)).length, ?_, ?_⟩
  · simp only [Zipper.killWhile, Zipper.text_mk, List.length_append]
    omega
  · rw [vtyForwardKillWord, made_cp, made_length, Nat.add_sub_cancel_left, killWhile_made _ typed,
      ok_bind, made_cp, made_length, Nat.add_sub_cancel_left, killWhile_made _ later, Nat.add_assoc,
      Nat.add_assoc]
    rfl

variable (vty spare blank) in

/-- The word in front of the cursor is deleted with the spaces behind it, and leaves as many free
cells. -/
theorem vtyBackwardKillWord_made {z : Zipper Byte} (typed : Typed z.text) :
    ∃ killed, killed + ((z.killBackWhile (· = telnetSpaceChar)).killBackWhile
        (· ≠ telnetSpaceChar)).text.length = z.text.length ∧
      (vty.made z spare blank).vtyBackwardKillWord =
        .ok (vty.made ((z.killBackWhile (· = telnetSpaceChar)).killBackWhile (· ≠ telnetSpaceChar))
          (spare + killed) (blank + killed)) := by
  obtain ⟨left, right⟩ := z
  have later : Typed ((left.dropWhile (· = telnetSpaceChar)).reverse ++ right) :=
    fun char member => typed char ((Zipper.text_killBackWhile _ ⟨left, right⟩).subset member)
  have first := length_cut (fun char => decide (char = telnetSpaceChar)) left
  have second := length_cut (fun char => decide (char ≠ telnetSpaceChar))
    (left.dropWhile fun char => decide (char = telnetSpaceChar))
  refine ⟨(left.takeWhile (· = telnetSpaceChar)).length +
    ((left.dropWhile (· = telnetSpaceChar)).takeWhile (· ≠ telnetSpaceChar)).length, ?_, ?_⟩
  · simp only [Zipper.killBackWhile, Zipper.text_mk, List.length_append, List.length_reverse]
    omega
  · rw [vtyBackwardKillWord, made_cp, killBackWhile_made _ typed, ok_bind, made_cp,
      killBackWhile_made _ later, Nat.add_assoc, Nat.add_assoc]
    rfl

/-- The cells behind the text, after the buffer has grown if there was but one. -/
def ensured (spare length : Nat) : Nat := if spare ≤ 1 then spare + (length + spare) else spare

/-- There is room for another character and the `\0`, or what `realloc` adds happens to be zero:
`vty_ensure` does not clear it. -/
def Cleared (fresh : Nat → Byte) (spare : Nat) : Prop := 1 < spare ∨ ∀ offset, fresh offset = 0

/-- Room is made for one more character, and nothing else changes if the new cells are clear. -/
theorem vtyEnsure_made {fresh : Nat → Byte} (cleared : Cleared fresh spare) (z : Zipper Byte) :
    (vty.made z spare blank).vtyEnsure fresh ((vty.made z spare blank).length + 1) =
      vty.made z (ensured spare z.text.length) blank := by
  obtain ⟨left, right⟩ := z
  have size : (vty.made ⟨left, right⟩ spare blank).max = left.length + right.length + spare := by
    simp [max, Nat.add_assoc]
  rw [vtyEnsure, size, made_length, ensured]
  by_cases few : spare ≤ 1
  · have zeroed : ∀ offset, fresh offset = 0 := cleared.resolve_left (not_lt.2 few)
    have zeros (count : Nat) : (List.range count).map fresh = List.replicate count 0 := by
      simp [funext zeroed, List.map_const']
    rw [if_pos (by dsimp only; omega), if_pos few, zeros]
    change vty.having _ _ _ _ = _
    refine having_eq_made (z := ⟨left, right⟩) ?_ rfl rfl rfl rfl
    simp [Nat.add_assoc]
  · rw [if_neg (by dsimp only; omega), if_neg few]

/-- There is a free cell after `vty_ensure`. -/
theorem exists_ensured (room : 1 ≤ spare) (length : Nat) :
    ∃ cells, ensured spare length = cells + 1 := by
  refine Nat.exists_eq_add_of_le' ?_
  rw [ensured]
  split_ifs <;> omega

/-- A second `vty_ensure` finds the room that the first one made. -/
theorem ensured_ensured (room : 1 ≤ spare) (length : Nat) :
    ensured (ensured spare length) length = ensured spare length := by
  rw [ensured, ensured]
  split_ifs <;> omega

/-- A buffer that need not grow any more is clear whatever `realloc` adds. -/
theorem Cleared.ensured {fresh : Nat → Byte} (cleared : Cleared fresh spare) (length : Nat) :
    Cleared fresh (ensured spare length) := by
  rcases cleared with room | zeroed
  · rw [LineBuf.ensured, if_neg (not_le.2 room)]
    exact .inl room
  · exact .inr zeroed

/-- There are two characters to change places. -/
def transposes (z : Zipper Byte) : Bool := 2 ≤ z.left.length + z.right.length && !z.left.isEmpty

section Insert

variable {fresh : Nat → Byte}

/-- A character is put in at the cursor, and the rest of the line moves on. -/
theorem vtySelfInsert_made (cleared : Cleared fresh spare) (room : 1 ≤ spare)
    (printable : Printable char) {z : Zipper Byte} (typed : Typed z.text) :
    (vty.made z spare blank).vtySelfInsert fresh char =
      .ok (vty.made (z.insert char) (ensured spare z.text.length - 1) (blank - 1)) := by
  obtain ⟨left, right⟩ := z
  obtain ⟨cells, few⟩ := exists_ensured room (Zipper.text ⟨left, right⟩).length
  -- the cell under the cursor is left over when the rest has moved
  obtain ⟨spent, rest, cut⟩ : ∃ spent rest, right ++ [(0 : Byte)] = spent :: rest :=
    List.exists_cons_of_ne_nil (by simp)
  have long : rest.length = right.length := by
    have size := congrArg List.length cut
    simpa using size.symm
  have shape : left.reverse ++ right ++ List.replicate (cells + 1) 0 =
      left.reverse ++ [spent] ++ rest ++ List.replicate cells 0 := by
    rw [List.replicate_succ, show (0 : Byte) :: List.replicate cells 0 =
      [0] ++ List.replicate cells 0 from rfl, ← List.append_assoc, List.append_assoc left.reverse,
      cut]
    simp
  have moved : moveCells (left.reverse ++ right ++ List.replicate (cells + 1) 0) (left.length + 1)
      left.length right.length =
        .ok (left.reverse ++ [spent] ++ right ++ List.replicate cells 0) :=
    moveCells_append rfl (by simp) rfl shape (by simp) long.symm
  have stored : storeCells (left.reverse ++ [spent] ++ right ++ List.replicate cells 0) left.length
      [char] = .ok (left.reverse ++ [char] ++ (right ++ List.replicate cells 0)) :=
    storeCells_append (List.append_assoc _ _ _) (by simp) rfl
  have read : loadCells (left.reverse ++ [char] ++ (right ++ List.replicate cells 0)) left.length
      (right.length + 1) = .ok (char :: right) :=
    loadCells_append (show _ = left.reverse ++ (char :: right) ++ List.replicate cells 0 by simp)
      (by simp) (by simp)
  have plain : ∀ other ∈ char :: right, other ≠ telnetBackwardChar := by
    rintro other (_ | ⟨_, member⟩)
    · exact printable.ne_back
    · exact typed.later other member
  rw [vtySelfInsert]
  dsimp only
  rw [vtyEnsure_made cleared, few, made_cp, made_length, made_cmdInputBuf]
  dsimp only
  rw [Nat.add_sub_cancel_left, moved, ok_bind, stored, ok_bind]
  change (vty.having _ _ _ _).writeLine left.length (right.length + 1) >>= _ = _
  rw [writeLine_having read, ok_bind, vtyWrite_having, ← Row.puts_append, puts_row _ plain]
  change Except.ok (vty.having _ _ _ _) = _
  refine congrArg Except.ok (having_eq_made (z := Zipper.insert char ⟨left, right⟩) ?text ?cursor
    ?size ?cells ?place)
  case text => simp [having, Zipper.insert]
  case cursor => simp [having, Zipper.insert]
  case size => simp [having, Zipper.insert]; omega
  case cells => simp [Zipper.insert, List.drop_append]
  case place => simp [Zipper.insert]; omega

/-- A character replaces the one at the cursor. -/
theorem vtySelfInsertOverwrite_made (cleared : Cleared fresh spare) (printable : Printable char)
    {other : Byte} :
    (vty.made ⟨left, other :: right⟩ spare blank).vtySelfInsertOverwrite fresh char =
      .ok (vty.made ⟨char :: left, right⟩
        (ensured spare (left.length + (right.length + 1))) blank) := by
  have stored (cells : Nat) : storeCells (left.reverse ++ (other :: right) ++ List.replicate cells 0)
      left.length [char] = .ok (left.reverse ++ [char] ++ (right ++ List.replicate cells 0)) :=
    storeCells_append (show _ = left.reverse ++ [other] ++ (right ++ List.replicate cells 0) by simp)
      (by simp) rfl
  have written : Row.puts telnetBackwardChar ⟨left.reverse ++ (other :: right) ++
      List.replicate blank telnetSpaceChar, left.length⟩ [char] =
        ⟨left.reverse ++ [char] ++ (right ++ List.replicate blank telnetSpaceChar),
          left.length + 1⟩ := by
    have covered := Row.puts_text left.reverse (other :: right ++ List.replicate blank telnetSpaceChar)
      [char] (by simpa using printable.ne_back)
    rw [List.length_reverse, ← List.append_assoc] at covered
    simpa using covered
  rw [vtySelfInsertOverwrite]
  dsimp only
  rw [vtyEnsure_made cleared, made_cmdInputBuf, made_cp, stored, ok_bind]
  change Except.ok ((vty.having _ _ _ _).vtyWrite [char]) = _
  rw [vtyWrite_having, written]
  refine congrArg Except.ok (having_eq_made (z := ⟨char :: left, right⟩) ?text rfl ?size ?cells
    ?place)
  case text => simp
  case size => simp; omega
  case cells => simp
  case place => simp

/-- Two characters change places; only then room is asked for. -/
theorem vtyTransposeChars_made (room : 1 ≤ spare) {z : Zipper Byte}
    (cleared : transposes z = true → Cleared fresh spare) (typed : Typed z.text) :
    (vty.made z spare blank).vtyTransposeChars fresh =
      .ok (vty.made z.transpose
        (if transposes z then ensured spare z.text.length else spare) blank) := by
  obtain ⟨left, right⟩ := z
  by_cases swaps : transposes ⟨left, right⟩ = true
  · obtain ⟨long, filled⟩ : 2 ≤ left.length + right.length ∧ left ≠ [] := by
      simpa [transposes] using swaps
    obtain ⟨last, left, rfl⟩ := List.exists_cons_of_ne_nil filled
    have short : ¬ ((vty.made ⟨last :: left, right⟩ spare blank).length < 2 ∨
        (vty.made ⟨last :: left, right⟩ spare blank).cp < 1) := by
      rw [made_length, made_cp]
      simp only [List.length_cons] at long ⊢
      omega
    rw [if_pos swaps, vtyTransposeChars, if_neg short]
    cases right with
    | nil =>
        cases left with
        | nil => simp at long
        | cons before left =>
            have isLast : Printable last := typed last (by simp)
            have isBefore : Printable before := typed before (by simp)
            have first : loadCells ((last :: before :: left).reverse ++ [] ++ List.replicate spare 0)
                ((last :: before :: left).length - 1) 1 = .ok [last] := load_last
            have second : loadCells ((last :: before :: left).reverse ++ [] ++ List.replicate spare 0)
                ((last :: before :: left).length - 2) 1 = .ok [before] :=
              loadCells_append (show _ = left.reverse ++ [before] ++ (last :: List.replicate spare 0)
                by simp) (by simp) rfl
            rw [if_pos (by simp), made_cp, made_cmdInputBuf, first, ok_bind, second, ok_bind,
              vtyBackwardChar_made, vtyBackwardChar_made]
            change vtySelfInsertOverwrite fresh last (vty.made ⟨left, before :: [last]⟩ _ _) >>= _ = _
            rw [vtySelfInsertOverwrite_made (cleared swaps) isLast, ok_bind]
            change vtySelfInsertOverwrite fresh before (vty.made ⟨last :: left, last :: []⟩ _ _) = _
            rw [vtySelfInsertOverwrite_made ((cleared swaps).ensured _) isBefore,
              show (last :: left).length + (([] : List Byte).length + 1) =
                left.length + (([last] : List Byte).length + 1) by simp,
              show (Zipper.text ⟨last :: before :: left, []⟩).length =
                left.length + (([last] : List Byte).length + 1) by simp,
              ensured_ensured room]
            rfl
    | cons next right =>
        have isLast : Printable last := typed last (by simp)
        have isNext : Printable next := typed next (by simp)
        have second : loadCells ((last :: left).reverse ++ (next :: right) ++ List.replicate spare 0)
            ((last :: left).length - 1) 1 = .ok [last] := load_last
        rw [if_neg (by simp), made_cp, made_cmdInputBuf, load_next, ok_bind, second, ok_bind,
          vtyBackwardChar_made]
        change vtySelfInsertOverwrite fresh next (vty.made ⟨left, last :: next :: right⟩ _ _) >>= _ = _
        rw [vtySelfInsertOverwrite_made (cleared swaps) isNext, ok_bind]
        change vtySelfInsertOverwrite fresh last (vty.made ⟨next :: left, next :: right⟩ _ _) = _
        rw [vtySelfInsertOverwrite_made ((cleared swaps).ensured _) isLast,
          show (next :: left).length + (right.length + 1) =
            left.length + ((next :: right).length + 1) by simp; omega,
          show (Zipper.text ⟨last :: left, next :: right⟩).length =
            left.length + ((next :: right).length + 1) by simp,
          ensured_ensured room]
        cases left <;> rfl
  · have few : left.length + right.length < 2 ∨ left = [] := by
      by_contra many
      push Not at many
      exact swaps (by simpa [transposes] using many)
    have short : (vty.made ⟨left, right⟩ spare blank).length < 2 ∨
        (vty.made ⟨left, right⟩ spare blank).cp < 1 := by
      rw [made_length, made_cp]
      exact few.imp_right fun empty => by simp [empty]
    have same : Zipper.transpose ⟨left, right⟩ = ⟨left, right⟩ := by
      rcases few with few | rfl
      · cases left with
        | nil => rfl
        | cons last left =>
            have alone : left = [] ∧ right = [] := by
              simp only [List.length_cons] at few
              exact ⟨List.eq_nil_of_length_eq_zero (by omega),
                List.eq_nil_of_length_eq_zero (by omega)⟩
            obtain ⟨rfl, rfl⟩ := alone
            rfl
      · rfl
    rw [if_neg swaps, vtyTransposeChars, if_pos short, same]
    rfl

end Insert

/-- A word that reaches over the end of the line replaces what is there, if there are cells for it
and its zero; otherwise it is written behind the buffer. -/
theorem vtyInsertWordOverwrite_made {word : List Byte} (typed : Typed word)
    (longer : right.length ≤ word.length) :
    (vty.made ⟨left, right⟩ spare blank).vtyInsertWordOverwrite word =
      if word.length < right.length + spare then
        .ok (vty.made ⟨word.reverse ++ left, []⟩ (right.length + spare - word.length)
          (blank - (word.length - right.length)))
      else .error .write := by
  have written : Row.puts telnetBackwardChar ⟨left.reverse ++ right ++
      List.replicate blank telnetSpaceChar, left.length⟩ word =
        ⟨left.reverse ++ word ++ List.replicate (blank - (word.length - right.length))
          telnetSpaceChar, left.length + word.length⟩ := by
    have covered := Row.puts_text left.reverse (right ++ List.replicate blank telnetSpaceChar) word
      fun char member => (typed char member).ne_back
    rw [List.length_reverse, ← List.append_assoc] at covered
    rw [covered]
    simp [List.drop_append, List.drop_eq_nil_of_le longer]
  rw [vtyInsertWordOverwrite, made, vtyWrite_having, written]
  change storeCells (left.reverse ++ right ++ List.replicate spare 0) left.length (word ++ [0]) >>= _ = _
  by_cases fits : word.length < right.length + spare
  · have stored : storeCells (left.reverse ++ right ++ List.replicate spare 0) left.length (word ++ [0]) =
        .ok (left.reverse ++ (word ++ [0]) ++
          List.replicate (right.length + spare - (word.length + 1)) 0) := by
      refine storeCells_append (show _ = left.reverse ++
        (right ++ List.replicate (word.length + 1 - right.length) 0) ++
          List.replicate (right.length + spare - (word.length + 1)) 0 from ?_) (by simp) ?_
      · rw [List.append_assoc, List.append_assoc, List.append_assoc, ← List.replicate_add]
        congr 3
        omega
      · simp
        omega
    rw [stored, ok_bind, if_pos fits]
    change Except.ok (vty.having _ _ _ _) = _
    refine congrArg Except.ok (having_eq_made (z := ⟨word.reverse ++ left, []⟩) ?text ?cursor ?size
      ?cells ?place)
    case text =>
      have cells : right.length + spare - word.length =
          right.length + spare - (word.length + 1) + 1 := by omega
      rw [cells, List.replicate_succ]
      simp
    case cursor => simp [having]; omega
    case size => simp [having]; omega
    case cells => simp
    case place => simp; omega
  · have outside : ¬ left.length + (word ++ [(0 : Byte)]).length ≤
        (left.reverse ++ right ++ List.replicate spare 0).length := by
      simp
      omega
    rw [if_neg fits, storeCells, writable, if_neg outside]
    rfl

/-- The buffer is the text as a string. -/
theorem string_made {z : Zipper Byte} (typed : Typed z.text) (room : 1 ≤ spare) :
    (vty.made z spare blank).string = .ok z.text := by
  obtain ⟨cells, rfl⟩ := Nat.exists_eq_add_of_le' room
  have ended : (0 : Byte) ∈ (vty.made z (cells + 1) blank).cmdInputBuf := by
    rw [made_cmdInputBuf]
    simp
  rw [string, if_pos ended, made_cmdInputBuf]
  change Except.ok ((z.text ++ _).takeWhile _) = _
  rw [List.takeWhile_append_of_pos fun char member => by simpa using (typed char member).ne_zero]
  simp [List.replicate_succ]

/-- A line of the history takes the place of the line. -/
theorem vtyHistoryPrint_made {z : Zipper Byte} {entry : List Byte} (typed : Typed entry)
    (found : vty.hist[vty.hp]?.join = some entry) (fits : entry.length ≤ spare + z.text.length) :
    (vty.made z spare blank).vtyHistoryPrint =
      .ok (vty.made (Zipper.behind entry) (spare + z.text.length - entry.length)
        (blank + z.text.length - entry.length)) := by
  have stored : storeCells (List.replicate (spare + z.text.length) 0) 0 entry =
      .ok (entry ++ List.replicate (spare + z.text.length - entry.length) 0) := by
    have cut : List.replicate (spare + z.text.length) (0 : Byte) =
        [] ++ List.replicate entry.length 0 ++
          List.replicate (spare + z.text.length - entry.length) 0 := by
      rw [List.nil_append, ← List.replicate_add, Nat.add_sub_cancel' fits]
    exact storeCells_append cut rfl (by simp)
  have shown (spare blank : Nat) : (vty.made ⟨[], []⟩ spare blank).hist[
      (vty.made ⟨[], []⟩ spare blank).hp]?.join = some entry := found
  rw [vtyHistoryPrint, vtyKillLineFromBeginning_made, ok_bind, shown]
  change storeCells (List.replicate (spare + z.text.length) 0) 0 entry >>= _ = _
  rw [stored, ok_bind]
  change (vty.having (entry ++ List.replicate (spare + z.text.length - entry.length) 0) entry.length
    entry.length ⟨List.replicate (blank + z.text.length) telnetSpaceChar, 0⟩).vtyRedrawLine = _
  exact redraw_made typed

end Edits

end LineBuf

end Rsu.Cli
