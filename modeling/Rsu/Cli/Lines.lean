import Rsu.Cli.LineEdit
import Rsu.Cli.Nodes

/-!
# What a user sees of a line

The editing functions change a text with its cursor and a history of texts. The buffer and the
terminal follow: what is executed is what the user sees. Only what completes a word is not checked
against the size of the buffer.
-/

namespace Rsu.Cli

open Checked Data Rcp

/-- What `cmd_complete_command` answers for the words of a line in a node. -/
abbrev Answer := VtyNode → List (Option Command.Text) → Command.Completion

/-- A call of a function of the line, in a node. -/
structure LineCall where
  node : VtyNode
  function : LineEdit

/-- One call after another, on the buffer. -/
def LineBuf.calls (answer : Answer) (fresh : Nat → Byte) (vty : LineBuf) :
    List LineCall → Checked LineBuf
  | [] => return vty
  | call :: later => do
      let vty ← { vty with node := call.node }.edit answer fresh call.function
      vty.calls answer fresh later

/-- The text of a line with its cursor, the size of the buffer, and the history. -/
structure EditedLine where
  z : Zipper Byte
  max : Nat
  hist : List (Option (List Byte))
  hp : Nat
  hindex : Nat

namespace EditedLine

/-- The line of a new session. -/
def initial : EditedLine := ⟨⟨[], []⟩, vtyBufsiz, List.replicate vtyMaxhist none, 0, 0⟩

/-- A buffer without room for another character is doubled. -/
def grow (line : EditedLine) : EditedLine :=
  if line.max ≤ line.z.text.length + 1 then { line with max := 2 * line.max } else line

/-- A character is typed. -/
def insert (line : EditedLine) (char : Byte) : EditedLine :=
  { line.grow with z := line.z.insert char }

/-- The place of the line before. -/
def older (place : Nat) : Nat := if place = 0 then vtyMaxhist - 1 else place - 1

/-- The place of the line after. -/
def newer (place : Nat) : Nat := if place = vtyMaxhist - 1 then 0 else place + 1

/-- A line of the history takes the place of the text. -/
def recallEntry (line : EditedLine) (place : Nat) : EditedLine :=
  match line.hist[place]?.join with
  | none => line
  | some entry => { line with z := .behind entry, hp := place }

/-- The next line of the history. -/
def nextLine (line : EditedLine) : EditedLine :=
  if line.hp = line.hindex then line else line.recallEntry (newer line.hp)

/-- The previous line of the history. -/
def previousLine (line : EditedLine) : EditedLine := line.recallEntry (older line.hp)

/-- The text comes to the history, unless it was the last one. -/
def histAdd (line : EditedLine) : EditedLine :=
  if line.z.text = [] then line
  else if line.hist[older line.hindex]?.join = some line.z.text then { line with hp := line.hindex }
  else { line with
    hist := line.hist.set line.hindex (some line.z.text)
    hindex := newer line.hindex
    hp := newer line.hindex }

/-- The text, cut in front of its last word. -/
def cut (line : EditedLine) : Zipper Byte := line.z.finish.backwardWhile (· ≠ telnetSpaceChar)

/-- A word takes the place of the last one. -/
def replaceLast (line : EditedLine) (word : List Byte) : EditedLine :=
  { line with z := ⟨word.reverse ++ line.cut.left, []⟩ }

/-- The answer to a tab, where one is looked for. -/
def completion (answer : Answer) (node : VtyNode) (line : EditedLine) :
    Option Command.Completion :=
  if node = .user ∨ node.hidden then none
  else (Command.cmdMakeStrvec line.z.text).map fun vline =>
    answer node (vline.map some ++ if line.z.text.getLast?.all CString.isSpace then [none] else [])

/-- What a tab does. -/
def complete (answer : Answer) (node : VtyNode) (line : EditedLine) : EditedLine :=
  match line.completion answer node with
  | none => line
  | some (.full word) => (line.replaceLast word).insert telnetSpaceChar
  | some (.part word) => line.replaceLast word
  | some _ => { line with z := line.z.finish }

/-- What the functions do. -/
def edit (answer : Answer) (node : VtyNode) (line : EditedLine) : LineEdit → EditedLine
  | .beginningOfLine => { line with z := line.z.start }
  | .backwardChar => { line with z := line.z.backward }
  | .deleteChar => { line with z := line.z.delete }
  | .endOfLine => { line with z := line.z.finish }
  | .forwardChar => { line with z := line.z.forward }
  | .deleteBackwardChar => { line with z := line.z.deleteBack }
  | .killLine => { line with z := line.z.kill }
  | .nextLine => line.nextLine
  | .previousLine => line.previousLine
  | .transposeChars =>
      { (if LineBuf.transposes line.z then line.grow else line) with z := line.z.transpose }
  | .killLineFromBeginning => { line with z := ⟨[], []⟩ }
  | .backwardKillWord => { line with
      z := (line.z.killBackWhile (· = telnetSpaceChar)).killBackWhile (· ≠ telnetSpaceChar) }
  | .forwardKillWord => { line with
      z := (line.z.killWhile (· = telnetSpaceChar)).killWhile (· ≠ telnetSpaceChar) }
  | .backwardWord => { line with
      z := (line.z.backwardWhile (· = telnetSpaceChar)).backwardWhile (· ≠ telnetSpaceChar) }
  | .forwardWord => { line with
      z := (line.z.forwardWhile (· ≠ telnetSpaceChar)).forwardWhile (· = telnetSpaceChar) }
  | .completeCommand => line.complete answer node
  | .describeCommand => { line with z := line.z.finish }
  | .selfInsert c => line.insert c
  | .histAdd => line.histAdd
  | .cursorToStart => { line with z := line.z.start }
  | .clearBuf => { line with z := ⟨[], []⟩ }

/-- What completes the last word fits into the buffer. -/
def Fits (answer : Answer) (node : VtyNode) (line : EditedLine) : Prop :=
  ∀ word, line.completion answer node = some (.full word) ∨
    line.completion answer node = some (.part word) →
      (line.replaceLast word).z.text.length < line.max

/-- The buffer did not have to grow, or what `realloc` adds to it happens to be zero. -/
def Clean (fresh : Nat → Byte) (line after : EditedLine) : Prop :=
  after.max = line.max ∨ ∀ offset, fresh offset = 0

/-- Every key finds a text of printable characters with room for a `\0` behind it. -/
structure Inv (line : EditedLine) : Prop where
  typed : LineBuf.Typed line.z.text
  room : line.z.text.length < line.max
  size : line.hist.length = vtyMaxhist
  hp : line.hp < vtyMaxhist
  hindex : line.hindex < vtyMaxhist
  entries : ∀ entry, some entry ∈ line.hist → LineBuf.Typed entry ∧ entry.length < line.max

/-- The history is that of the line. -/
def SameHistory (vty : LineBuf) (line : EditedLine) : Prop :=
  vty.hist = line.hist ∧ vty.hp = line.hp ∧ vty.hindex = line.hindex

/-- The buffer and the terminal show the line. -/
structure Holds (vty : LineBuf) (line : EditedLine) : Prop where
  buffer : ∃ (base : LineBuf) (spare blank : Nat), spare + line.z.text.length = line.max ∧
    vty = base.made line.z spare blank
  history : SameHistory vty line

section Step

variable {vty base : LineBuf} {line : EditedLine} {answer : Answer} {node : VtyNode}
  {fresh : Nat → Byte} {spare blank : Nat}

/-- What a function makes of the buffer and of the line, in a node that stays. -/
def Follows (base : LineBuf) (line : EditedLine) (call : Checked LineBuf) : Prop :=
  Ends call fun after => Holds after line ∧ after.node = base.node

/-- A call that ends in the buffer of the line follows it. -/
theorem Follows.of_made {call : Checked LineBuf} (ended : call = .ok (base.made line.z spare blank))
    (size : spare + line.z.text.length = line.max) (history : SameHistory base line) :
    Follows base line call := by
  rw [Follows, ended, ends_ok]
  exact ⟨⟨⟨base, spare, blank, size, rfl⟩, history⟩, rfl⟩

/-- What the prompt leaves of a buffer. -/
theorem prompted_made (z : Zipper Byte) :
    (base.made z spare blank).prompted =
      LineBuf.having { base with row := ⟨[], 0⟩ } (z.text ++ List.replicate spare 0) z.left.length
        z.text.length ⟨List.replicate 0 telnetSpaceChar, 0⟩ := by
  simp [LineBuf.prompted, LineBuf.made, LineBuf.having, Zipper.text]

/-- Behind the prompt the line is drawn again, with the cursor at its end. -/
theorem redraw_prompted {z : Zipper Byte} (typed : LineBuf.Typed z.text) :
    (base.made z spare blank).prompted.vtyRedrawLine =
      .ok (LineBuf.made { base with row := ⟨[], 0⟩ } z.finish spare 0) := by
  rw [prompted_made, LineBuf.redraw_made typed, Nat.zero_sub]
  rfl

/-- The older place is one of the ring. -/
theorem older_lt {place : Nat} (inside : place < vtyMaxhist) : older place < vtyMaxhist := by
  rw [older]
  split_ifs <;> simp only [vtyMaxhist] at * <;> omega

/-- The place after the last one is the first. -/
theorem newer_eq (place : Nat) :
    newer place = if place + 1 = vtyMaxhist then 0 else place + 1 := by
  rw [newer]
  exact if_congr (by simp only [vtyMaxhist]; omega) rfl rfl

/-- The newer place is one of the ring. -/
theorem newer_lt {place : Nat} (inside : place < vtyMaxhist) : newer place < vtyMaxhist := by
  rw [newer]
  split_ifs <;> simp only [vtyMaxhist] at * <;> omega

/-- What `isspace` knows of a line is the space. -/
theorem isSpace_iff {char : Byte} (printable : LineBuf.Printable char) :
    CString.isSpace char = true ↔ char = telnetSpaceChar := by
  have above := printable.1
  simp only [CString.isSpace, telnetSpaceChar, Bool.or_eq_true, Bool.and_eq_true,
    decide_eq_true_eq, BitVec.le_def]
  constructor
  · rintro (same | ⟨-, below⟩)
    · exact same
    · have : char.toNat ≤ 13 := below
      omega
  · exact .inl

/-- What completes a word is printable, and no shorter than the word. -/
def Sound (answer : Answer) : Prop :=
  ∀ node words word, answer node words = .full word ∨ answer node words = .part word →
    LineBuf.Typed word ∧ ∀ last, words.getLast? = some (some last) → last.length ≤ word.length

/-- The last word of a line, and what is looked up for it. -/
theorem length_cut_le {line : EditedLine} (typed : LineBuf.Typed line.z.text)
    {vline : List Command.Text} (split : Command.cmdMakeStrvec line.z.text = some vline)
    {word : List Byte}
    (longer : ∀ last, (vline.map some ++ if line.z.text.getLast?.all CString.isSpace then [none]
      else []).getLast? = some (some last) → last.length ≤ word.length) :
    line.cut.right.length ≤ word.length := by
  have shape : line.cut.right.length =
      (line.z.text.reverse.takeWhile (· ≠ telnetSpaceChar)).length := by
    simp [cut, Zipper.backwardWhile, Zipper.finish, Zipper.behind]
  rw [shape]
  by_cases closed : line.z.text.getLast?.all CString.isSpace = true
  · -- the line ends in a space
    have none : line.z.text.reverse.takeWhile (· ≠ telnetSpaceChar) = [] := by
      cases last : line.z.text.getLast? with
      | none => rw [List.getLast?_eq_none_iff.1 last]; rfl
      | some char =>
          obtain ⟨init, same⟩ := List.getLast?_eq_some_iff.1 last
          rw [last] at closed
          have space := (isSpace_iff (typed char (by simp [same]))).1 closed
          rw [same, List.reverse_append, List.reverse_singleton, List.singleton_append,
            List.takeWhile_cons_of_neg (by simp [space])]
    rw [none]
    exact Nat.zero_le _
  · have ends : ∀ char ∈ line.z.text.getLast?, Command.isBreak char = false := by
      intro char found
      rw [Command.isBreak_eq_isSpace]
      rw [Option.mem_def.1 found] at closed
      simpa using closed
    obtain ⟨front, last, same, found, gap, -, word'⟩ := Command.exists_last_word split ends
    have mine : last.reverse.takeWhile (· ≠ telnetSpaceChar) = last.reverse := by
      refine List.takeWhile_eq_self_iff.2 fun char member => ?_
      have inside : char ∈ last := List.mem_reverse.1 member
      have broken := word' char inside
      rw [Command.inWord, Command.isBreak_eq_isSpace] at broken
      simp only [decide_eq_true_eq]
      rintro rfl
      cases broken
    have stops : front.reverse.takeWhile (· ≠ telnetSpaceChar) = [] := by
      cases ended : front.getLast? with
      | none => rw [List.getLast?_eq_none_iff.1 ended]; rfl
      | some char =>
          obtain ⟨init, cut⟩ := List.getLast?_eq_some_iff.1 ended
          have space := gap char ended
          rw [Command.isBreak_eq_isSpace, isSpace_iff (typed char (by simp [same, cut]))] at space
          rw [cut, List.reverse_append, List.reverse_singleton, List.singleton_append,
            List.takeWhile_cons_of_neg (by simp [space])]
    rw [same, List.reverse_append, List.takeWhile_append_of_pos
      (List.takeWhile_eq_self_iff.1 mine), stops, List.append_nil, List.length_reverse]
    exact longer last (by rw [if_neg closed]; simpa using found)

/-- A completion is the answer for the words of the line, and an empty one behind a space. -/
theorem completion_eq_some {result : Command.Completion}
    (found : line.completion answer node = some result) :
    ∃ vline, Command.cmdMakeStrvec line.z.text = some vline ∧
      answer node (vline.map some ++ if line.z.text.getLast?.all CString.isSpace then [none]
        else []) = result := by
  rw [completion] at found
  by_cases none : node = .user ∨ node.hidden = true
  · rw [if_pos none] at found
    cases found
  · rw [if_neg none] at found
    exact Option.map_eq_some_iff.1 found

/-- A space is printable. -/
theorem space_printable : LineBuf.Printable telnetSpaceChar := by
  constructor <;> decide

/-- Another text that fits. -/
theorem Inv.change (inv : line.Inv) {z : Zipper Byte} (typed : LineBuf.Typed z.text)
    (room : z.text.length < line.max) : Inv { line with z := z } :=
  ⟨typed, room, inv.size, inv.hp, inv.hindex, inv.entries⟩

/-- A printable word that fits may replace the last one. -/
theorem Inv.replaceLast (inv : line.Inv) {word : List Byte} (typed : LineBuf.Typed word)
    (room : (line.replaceLast word).z.text.length < line.max) : (line.replaceLast word).Inv := by
  refine inv.change (fun char member => ?_) room
  rw [Zipper.text_mk, List.append_nil, List.reverse_append, List.reverse_reverse] at member
  rcases List.mem_append.1 member with member | member
  · have same : line.cut.text = line.z.text := by simp [cut]
    exact inv.typed char (by rw [← same]; exact List.mem_append_left _ member)
  · exact typed char member

section Cases

variable (size : spare + line.z.text.length = line.max) (inv : line.Inv)
  (history : SameHistory base line)
include size inv history

/-- A deletion leaves as many cells as it takes characters. -/
theorem follows_delete :
    Follows base { line with z := line.z.delete } (base.made line.z spare blank).vtyDeleteChar := by
  obtain ⟨⟨left, right⟩, max, _, _, _⟩ := line
  cases right with
  | nil =>
      have stays : (base.made ⟨left, []⟩ spare blank).vtyDeleteChar =
          .ok (base.made ⟨left, []⟩ spare blank) := by
        rw [LineBuf.vtyDeleteChar, if_pos (by simp)]
        rfl
      exact .of_made stays size history
  | cons char right =>
      refine .of_made (LineBuf.vtyDeleteChar_made inv.typed) ?_ history
      simp [Zipper.delete] at size ⊢
      omega

/-- Deleting backward is followed. -/
theorem follows_deleteBack :
    Follows base { line with z := line.z.deleteBack }
      (base.made line.z spare blank).vtyDeleteBackwardChar := by
  obtain ⟨⟨left, right⟩, max, _, _, _⟩ := line
  cases left with
  | nil =>
      have stays : (base.made ⟨[], right⟩ spare blank).vtyDeleteBackwardChar =
          .ok (base.made ⟨[], right⟩ spare blank) := by
        rw [LineBuf.vtyDeleteBackwardChar, if_pos (by simp)]
        rfl
      exact .of_made stays size history
  | cons char left =>
      refine .of_made (LineBuf.vtyDeleteBackwardChar_made inv.typed) ?_ history
      simp [Zipper.deleteBack] at size ⊢
      omega

/-- Deleting a word forward is followed. -/
theorem follows_forwardKillWord :
    Follows base (line.edit answer node .forwardKillWord)
      (base.made line.z spare blank).vtyForwardKillWord := by
  obtain ⟨killed, left, ended⟩ := LineBuf.vtyForwardKillWord_made base spare blank inv.typed
  exact .of_made ended ((Nat.add_assoc ..).trans ((congrArg _ left).trans size)) history

/-- Deleting a word backward is followed. -/
theorem follows_backwardKillWord :
    Follows base (line.edit answer node .backwardKillWord)
      (base.made line.z spare blank).vtyBackwardKillWord := by
  obtain ⟨killed, left, ended⟩ := LineBuf.vtyBackwardKillWord_made base spare blank inv.typed
  exact .of_made ended ((Nat.add_assoc ..).trans ((congrArg _ left).trans size)) history

/-- A line of the history is shorter than the buffer. -/
theorem follows_recall {place : Nat} {entry : List Byte}
    (found : line.hist[place]?.join = some entry) :
    Follows base (line.recallEntry place)
      (LineBuf.vtyHistoryPrint { base.made line.z spare blank with hp := place }) := by
  have listed : some entry ∈ line.hist :=
    List.mem_of_getElem? (Option.join_eq_some_iff.1 found)
  obtain ⟨typed, short⟩ := inv.entries entry listed
  have shown : line.recallEntry place = { line with z := .behind entry, hp := place } := by
    rw [recallEntry, found]
  rw [shown]
  change Follows { base with hp := place } _
    (LineBuf.made { base with hp := place } line.z spare blank).vtyHistoryPrint
  refine .of_made (LineBuf.vtyHistoryPrint_made typed ?found ?fits) ?size ⟨history.1, rfl, history.2.2⟩
  case found => exact (congrArg (fun hist => hist[place]?.join) history.1).trans found
  case fits => omega
  case size =>
    change _ + (Zipper.behind entry).text.length = line.max
    rw [Zipper.text_behind]
    omega

/-- A place of the history is shown, if there is a line. -/
theorem follows_shown (place : Nat) :
    Follows base (line.recallEntry place)
      (if line.hist[place]?.join = none then .ok (base.made line.z spare blank)
        else LineBuf.vtyHistoryPrint { base.made line.z spare blank with hp := place }) := by
  split_ifs with none
  · rw [recallEntry, none]
    exact .of_made rfl size history
  · obtain ⟨entry, found⟩ := Option.ne_none_iff_exists'.1 none
    exact follows_recall size inv history found

/-- Walking to the next line of the history is followed. -/
theorem follows_nextLine :
    Follows base line.nextLine (base.made line.z spare blank).vtyNextLine := by
  have shape : (base.made line.z spare blank).vtyNextLine =
      if base.hp = base.hindex then .ok (base.made line.z spare blank)
      else if base.hist[newer base.hp]?.join = none then .ok (base.made line.z spare blank)
      else LineBuf.vtyHistoryPrint { base.made line.z spare blank with hp := newer base.hp } := rfl
  rw [shape, history.1, history.2.1, history.2.2, nextLine]
  by_cases same : line.hp = line.hindex
  · rw [if_pos same, if_pos same]
    exact .of_made rfl size history
  · rw [if_neg same, if_neg same]
    exact follows_shown size inv history _

/-- Walking to the previous line of the history is followed. -/
theorem follows_previousLine :
    Follows base line.previousLine (base.made line.z spare blank).vtyPreviousLine := by
  have shape : (base.made line.z spare blank).vtyPreviousLine =
      if base.hist[older base.hp]?.join = none then .ok (base.made line.z spare blank)
      else LineBuf.vtyHistoryPrint { base.made line.z spare blank with hp := older base.hp } := rfl
  rw [shape, history.1, history.2.1]
  exact follows_shown size inv history _

/-- Entering a line into the history is followed. -/
theorem follows_histAdd :
    Follows base line.histAdd (base.made line.z spare blank).vtyHistAdd := by
  have room : 1 ≤ spare := by
    have := inv.room
    omega
  have empty : (base.made line.z spare blank).length = 0 ↔ line.z.text = [] := by
    rw [LineBuf.made_length, ← List.length_eq_zero_iff]
    simp [Zipper.text]
  have shape : (base.made line.z spare blank).vtyHistAdd =
      if (base.made line.z spare blank).length = 0 then .ok (base.made line.z spare blank)
      else (base.made line.z spare blank).string >>= fun text =>
        if base.hist[older base.hindex]?.join = some text then
          .ok (LineBuf.made { base with hp := base.hindex } line.z spare blank)
        else .ok (LineBuf.made { base with
          hist := base.hist.set base.hindex (some text)
          hindex := if base.hindex + 1 = vtyMaxhist then 0 else base.hindex + 1
          hp := if base.hindex + 1 = vtyMaxhist then 0 else base.hindex + 1 } line.z spare blank) :=
    rfl
  have last : base.hist[older base.hindex]?.join = line.hist[older line.hindex]?.join := by
    rw [history.1, history.2.2]
  rw [shape, last, ← newer_eq, histAdd]
  by_cases blankLine : line.z.text = []
  · rw [if_pos (empty.2 blankLine), if_pos blankLine]
    exact .of_made rfl size history
  · rw [if_neg fun none => blankLine (empty.1 none), if_neg blankLine,
      LineBuf.string_made inv.typed room, ok_bind]
    by_cases same : line.hist[older line.hindex]?.join = some line.z.text
    · rw [if_pos same, if_pos same]
      change Follows { base with hp := base.hindex } _ _
      exact .of_made rfl size ⟨history.1, history.2.2, history.2.2⟩
    · rw [if_neg same, if_neg same]
      change Follows { base with
        hist := base.hist.set base.hindex (some line.z.text)
        hindex := newer base.hindex
        hp := newer base.hindex } _ _
      refine .of_made rfl size ⟨?_, ?_, ?_⟩
      · change base.hist.set base.hindex _ = line.hist.set line.hindex _
        rw [history.1, history.2.2]
      · exact congrArg newer history.2.2
      · exact congrArg newer history.2.2

omit inv history in

/-- The cells after `vty_ensure` are those that the line accounts for. -/
theorem ensured_size :
    LineBuf.ensured spare line.z.text.length + line.z.text.length = line.grow.max := by
  rw [LineBuf.ensured, grow]
  split_ifs <;> first | omega | (simp only; omega)

omit history in
/-- A buffer with room for one more character, or one that grows by zeros. -/
theorem cleared_of_clean (clean : Clean fresh line line.grow) : LineBuf.Cleared fresh spare := by
  refine clean.imp_left fun same => ?_
  have room := inv.room
  rw [grow] at same
  split_ifs at same with full
  · have double : 2 * line.max = line.max := same
    omega
  · omega

/-- Putting in a character is followed, if the buffer need not grow or grows by zeros. -/
theorem follows_insert {char : Byte} (clean : Clean fresh line (line.insert char))
    (printable : LineBuf.Printable char) :
    Follows base (line.insert char) ((base.made line.z spare blank).vtySelfInsert fresh char) := by
  have room : 1 ≤ spare := by
    have := inv.room
    omega
  have cleared : LineBuf.Cleared fresh spare := cleared_of_clean size inv clean
  refine .of_made (LineBuf.vtySelfInsert_made cleared room printable inv.typed) ?size ?history
  case size =>
    obtain ⟨cells, few⟩ := LineBuf.exists_ensured room line.z.text.length
    have grown := ensured_size size
    change LineBuf.ensured spare line.z.text.length - 1 + (line.z.insert char).text.length =
      line.grow.max
    have longer : (line.z.insert char).text.length = line.z.text.length + 1 := by
      simp [Zipper.insert, Zipper.text]
      omega
    omega
  case history =>
    rw [insert, grow]
    split_ifs <;> exact history

/-- Exchanging two characters is followed, under the same condition. -/
theorem follows_transpose (clean : Clean fresh line (line.edit answer node .transposeChars)) :
    Follows base (line.edit answer node .transposeChars)
      ((base.made line.z spare blank).vtyTransposeChars fresh) := by
  have room : 1 ≤ spare := by
    have := inv.room
    omega
  have same := (Zipper.text_transpose line.z).length_eq
  have cleared (swaps : LineBuf.transposes line.z = true) : LineBuf.Cleared fresh spare := by
    refine cleared_of_clean size inv ?_
    rwa [edit, if_pos swaps] at clean
  have ended : (base.made line.z spare blank).vtyTransposeChars fresh = _ :=
    LineBuf.vtyTransposeChars_made room cleared inv.typed
  refine .of_made ended ?size ?history
  case size =>
    simp only [edit, same]
    split_ifs
    · exact ensured_size size
    · exact size
  case history =>
    simp only [edit, grow]
    split_ifs <;> exact history

omit history in
/-- The last word is replaced if the buffer has room. -/
theorem replaced_made {word : List Byte} (typed : LineBuf.Typed word)
    (longer : line.cut.right.length ≤ word.length) :
    ((base.made line.z spare blank).prompted.vtyRedrawLine >>= fun vty =>
      vty.vtyBackwardPureWord >>= fun vty => vty.vtyInsertWordOverwrite word) =
      if (line.replaceLast word).z.text.length < line.max then
        .ok (LineBuf.made { base with row := ⟨[], 0⟩ } (line.replaceLast word).z
          (line.max - (line.replaceLast word).z.text.length) 0)
      else .error .write := by
  have parts : line.cut.left.length + line.cut.right.length = line.z.text.length := by
    have same : line.cut.text = line.z.text := by simp [cut]
    rw [← same, Zipper.text, List.length_append, List.length_reverse]
  have text : (line.replaceLast word).z.text.length = line.cut.left.length + word.length := by
    simp [replaceLast]
  rw [redraw_prompted inv.typed, ok_bind, LineBuf.vtyBackwardPureWord_made, ok_bind]
  change LineBuf.vtyInsertWordOverwrite word (LineBuf.made _ ⟨line.cut.left, line.cut.right⟩ _ _) = _
  rw [LineBuf.vtyInsertWordOverwrite_made typed longer, text]
  by_cases fits : word.length < line.cut.right.length + spare
  · have cells : line.cut.right.length + spare - word.length =
        line.max - (line.cut.left.length + word.length) := by omega
    rw [if_pos fits, if_pos (by omega), Nat.zero_sub, cells]
    rfl
  · rw [if_neg fits, if_neg (by omega)]

omit history in
/-- A tab asks for the words of the line. -/
theorem vtyCompleteCommand_made :
    (base.made line.z spare blank).vtyCompleteCommand answer fresh =
      match line.completion answer base.node with
      | none => .ok (base.made line.z spare blank)
      | some (.full word) =>
          ((base.made line.z spare blank).prompted.vtyRedrawLine >>= fun vty =>
            vty.vtyBackwardPureWord >>= fun vty => vty.vtyInsertWordOverwrite word) >>= fun vty =>
              vty.vtySelfInsert fresh telnetSpaceChar
      | some (.part word) =>
          (base.made line.z spare blank).prompted.vtyRedrawLine >>= fun vty =>
            vty.vtyBackwardPureWord >>= fun vty => vty.vtyInsertWordOverwrite word
      | some _ => (base.made line.z spare blank).prompted.vtyRedrawLine := by
  have room : 1 ≤ spare := by
    have := inv.room
    omega
  have node : (base.made line.z spare blank).node = base.node := rfl
  rw [LineBuf.vtyCompleteCommand, node, completion]
  by_cases none : base.node = .user ∨ base.node.hidden = true
  · rw [if_pos none, if_pos none]
    rfl
  · rw [if_neg none, if_neg none, LineBuf.string_made inv.typed room, ok_bind]
    cases split : Command.cmdMakeStrvec line.z.text with
    | none => rfl
    | some vline =>
        obtain ⟨init, char, text⟩ : ∃ init char, line.z.text = init ++ [char] := by
          refine (List.eq_nil_or_concat' line.z.text).resolve_left fun empty => ?_
          rw [empty] at split
          cases split
        have last : loadCells (base.made line.z spare blank).cmdInputBuf
            ((base.made line.z spare blank).length - 1) 1 = .ok [char] := by
          have size : (base.made line.z spare blank).length = line.z.text.length := by
            simp [Zipper.text]
          rw [LineBuf.made_cmdInputBuf, size]
          exact loadCells_append (show line.z.text ++ _ = init ++ [char] ++ List.replicate spare 0 by
            rw [text]) (by simp [text]) rfl
        have ends : line.z.text.getLast?.all CString.isSpace = [char].all CString.isSpace := by
          simp [text]
        dsimp only
        rw [last, ok_bind, Option.map_some, ends]
        cases answer base.node
          (vline.map some ++ if [char].all CString.isSpace = true then [Option.none] else []) with
        | full word => simp only [bind_assoc]
        | part word => rfl
        | failed status => rfl
        | list words => rfl

/-- What a tab does, if what completes the word fits. -/
theorem follows_complete (clean : Clean fresh line (line.complete answer base.node))
    (sound : Sound answer) (fits : line.Fits answer base.node) :
    Follows base (line.complete answer base.node)
      ((base.made line.z spare blank).vtyCompleteCommand answer fresh) := by
  rw [complete] at clean
  rw [vtyCompleteCommand_made size inv, complete]
  cases found : line.completion answer base.node with
  | none => exact .of_made rfl size history
  | some result =>
      obtain ⟨vline, split, answered⟩ := completion_eq_some found
      have replaced {word : List Byte} (member : result = .full word ∨ result = .part word) :
          (line.replaceLast word).Inv ∧
            ((base.made line.z spare blank).prompted.vtyRedrawLine >>= fun vty =>
              vty.vtyBackwardPureWord >>= fun vty => vty.vtyInsertWordOverwrite word) =
              .ok (LineBuf.made { base with row := ⟨[], 0⟩ } (line.replaceLast word).z
                (line.max - (line.replaceLast word).z.text.length) 0) := by
        obtain ⟨typed, longer⟩ := sound _ _ word (by rwa [answered])
        have room := fits word (by rw [found]; simpa using member)
        rw [replaced_made size inv typed (length_cut_le inv.typed split longer), if_pos room]
        exact ⟨inv.replaceLast typed room, rfl⟩
      cases result with
      | full word =>
          obtain ⟨inv', ended⟩ := replaced (.inl rfl)
          have cells : line.max - (line.replaceLast word).z.text.length +
              (line.replaceLast word).z.text.length = (line.replaceLast word).max :=
            Nat.sub_add_cancel inv'.room.le
          have same : SameHistory { base with row := ⟨[], 0⟩ } (line.replaceLast word) :=
            ⟨history.1, history.2.1, history.2.2⟩
          dsimp only
          rw [ended, ok_bind]
          rw [found] at clean
          exact follows_insert cells inv' same clean space_printable
      | part word =>
          obtain ⟨inv', ended⟩ := replaced (.inr rfl)
          dsimp only
          have cells : line.max - (line.replaceLast word).z.text.length +
              (line.replaceLast word).z.text.length = (line.replaceLast word).max :=
            Nat.sub_add_cancel inv'.room.le
          have same : SameHistory { base with row := ⟨[], 0⟩ } (line.replaceLast word) :=
            ⟨history.1, history.2.1, history.2.2⟩
          rw [ended]
          change Follows { base with row := ⟨[], 0⟩ } _ _
          exact .of_made rfl cells same
      | failed status =>
          dsimp only
          rw [redraw_prompted inv.typed]
          change Follows { base with row := ⟨[], 0⟩ } _ _
          exact .of_made rfl (by simpa using size) history
      | list words =>
          dsimp only
          rw [redraw_prompted inv.typed]
          change Follows { base with row := ⟨[], 0⟩ } _ _
          exact .of_made rfl (by simpa using size) history

omit inv history in
/-- What completes a word does not fit: `strcpy` writes behind the buffer. -/
theorem overruns_complete (inv : line.Inv) (sound : Sound answer)
    (beyond : ¬ line.Fits answer base.node) :
    (base.made line.z spare blank).vtyCompleteCommand answer fresh = .error .write := by
  rw [Fits] at beyond
  push Not at beyond
  obtain ⟨word, found, long⟩ := beyond
  have stopped {result : Command.Completion} (looked : line.completion answer base.node =
      some result) (member : result = .full word ∨ result = .part word) :
      ((base.made line.z spare blank).prompted.vtyRedrawLine >>= fun vty =>
        vty.vtyBackwardPureWord >>= fun vty => vty.vtyInsertWordOverwrite word) =
        .error .write := by
    obtain ⟨vline, split, answered⟩ := completion_eq_some looked
    obtain ⟨typed, longer⟩ := sound _ _ word (by rwa [answered])
    rw [replaced_made size inv typed (length_cut_le inv.typed split longer), if_neg (not_lt.2 long)]
  rw [vtyCompleteCommand_made size inv]
  rcases found with found | found
  · have fault := stopped found (.inl rfl)
    rw [found]
    dsimp only
    rw [fault]
    rfl
  · have fault := stopped found (.inr rfl)
    rw [found]
    exact fault

end Cases

/-- The size of the buffer is that of the line. -/
theorem max_made (size : spare + line.z.text.length = line.max) :
    (base.made line.z spare blank).max = line.max := by
  rw [LineBuf.max, LineBuf.made_cmdInputBuf, ← size]
  simp [Zipper.text]
  omega

/-- An empty line behind a prompt. -/
theorem follows_clear {vty : LineBuf} (size : vty.max = line.max)
    (history : SameHistory vty line) :
    Follows vty { line with z := ⟨[], []⟩ } (vty.edit answer fresh .clearBuf) := by
  have ended : vty.edit answer fresh .clearBuf =
      .ok (LineBuf.made { vty with row := ⟨[], 0⟩ } ⟨[], []⟩ line.max 0) := by
    rw [LineBuf.edit, size]
    simp [LineBuf.made, LineBuf.having, LineBuf.prompted]
  change Follows { vty with row := ⟨[], 0⟩ } _ _
  exact .of_made ended rfl history

/-- The same, of a line that is empty already. -/
theorem follows_start {vty : LineBuf} (empty : line.z.text = [])
    (buffer : vty.cmdInputBuf = List.replicate line.max 0) (length : vty.length = 0)
    (history : SameHistory vty line) :
    Follows vty { line with z := line.z.start } (vty.edit answer fresh .cursorToStart) := by
  have start : line.z.start = ⟨[], []⟩ := by rw [Zipper.start, empty]
  have ended : vty.edit answer fresh .cursorToStart =
      .ok (LineBuf.made { vty with row := ⟨[], 0⟩ } line.z.start line.max 0) := by
    rw [LineBuf.edit, start]
    simp [LineBuf.made, LineBuf.having, LineBuf.prompted, buffer, length]
  change Follows { vty with row := ⟨[], 0⟩ } _ _
  exact .of_made ended (by simp [empty]) history

/-- What a function does in a node in which nothing is hidden that is to be shown. -/
theorem follows_edit (size : spare + line.z.text.length = line.max) (inv : line.Inv)
    (history : SameHistory base line) (sound : Sound answer) (function : LineEdit)
    (clean : Clean fresh line (line.edit answer base.node function))
    (printable : ∀ c, function = .selfInsert c → LineBuf.Printable c)
    (empty : function = .cursorToStart → line.z.text = [])
    (fits : function = .completeCommand → line.Fits answer base.node) :
    Follows base (line.edit answer base.node function)
      ((base.made line.z spare blank).edit answer fresh function) := by
  have moved {z : Zipper Byte} (same : z.text = line.z.text) :
      spare + z.text.length = line.max := by rw [same, size]
  cases function with
  | beginningOfLine =>
      exact .of_made (congrArg Except.ok (LineBuf.vtyBeginningOfLine_made line.z))
        (moved (by simp [edit])) history
  | backwardChar =>
      exact .of_made (congrArg Except.ok (LineBuf.vtyBackwardChar_made line.z))
        (moved (by simp [edit])) history
  | deleteChar => exact follows_delete size inv history
  | endOfLine => exact .of_made (LineBuf.vtyEndOfLine_made inv.typed) (moved (by simp [edit])) history
  | forwardChar => exact .of_made (LineBuf.vtyForwardChar_made inv.typed) (moved (by simp [edit])) history
  | deleteBackwardChar => exact follows_deleteBack size inv history
  | killLine =>
      refine .of_made (LineBuf.vtyKillLine_made line.z) ?_ history
      simp only [edit, Zipper.kill, Zipper.text, List.length_append, List.length_nil] at size ⊢
      omega
  | nextLine => exact follows_nextLine size inv history
  | previousLine => exact follows_previousLine size inv history
  | transposeChars => exact follows_transpose size inv history clean
  | killLineFromBeginning =>
      exact .of_made (LineBuf.vtyKillLineFromBeginning_made line.z) size history
  | backwardKillWord => exact follows_backwardKillWord size inv history
  | forwardKillWord => exact follows_forwardKillWord size inv history
  | backwardWord =>
      exact .of_made (LineBuf.vtyBackwardWord_made line.z) (moved (by simp [edit])) history
  | forwardWord =>
      exact .of_made (LineBuf.vtyForwardWord_made inv.typed) (moved (by simp [edit])) history
  | completeCommand => exact follows_complete size inv history clean sound (fits rfl)
  | describeCommand =>
      change Follows { base with row := ⟨[], 0⟩ } _ _
      exact .of_made (redraw_prompted inv.typed) (moved (by simp [edit])) history
  | selfInsert c => exact follows_insert size inv history clean (printable c rfl)
  | histAdd => exact follows_histAdd size inv history
  | cursorToStart =>
      have none := empty rfl
      refine follows_start none ?_ ?_ history
      · rw [LineBuf.made_cmdInputBuf, ← size, ← Zipper.text, none]
        rfl
      · have zero := congrArg List.length none
        simpa [Zipper.text] using zero
  | clearBuf => exact follows_clear (max_made size) history

end Step

/-- The calls that `vty.c` makes: only printable characters are inserted, the cursor is set to the
beginning of an empty line only, and what was hidden is followed by a prompt. -/
structure Ready (before : VtyNode) (line : EditedLine) (call : LineCall) : Prop where
  prompts : before.hidden = true → call.node.hidden = false →
    call.function = .clearBuf ∨ call.function = .cursorToStart
  printable : ∀ c, call.function = .selfInsert c → LineBuf.Printable c
  empty : call.function = .cursorToStart → line.z.text = []

/-- What completes a word fits, if that is asked for. -/
def CallFits (answer : Answer) (line : EditedLine) (call : LineCall) : Prop :=
  call.function = .completeCommand → line.Fits answer call.node

section Calls

variable {vty base : LineBuf} {line : EditedLine} {answer : Answer} {fresh : Nat → Byte}
  {made : LineCall} {spare blank : Nat}

/-- A node in which nothing is shown that was hidden. -/
theorem made_node {before after : VtyNode} (node : base.node = before)
    (kept : before.hidden = true → after.hidden = true) (z : Zipper Byte) :
    { base.made z spare blank with node := after } =
      LineBuf.made { base with node := after, row := (base.made z spare blank).row } z spare
        blank := by
  subst node
  cases before : base.node.hidden <;> cases hidden : after.hidden <;>
    simp_all [LineBuf.made, LineBuf.having]

/-- One call does to the buffer what it does to the line. -/
theorem Holds.call (holds : Holds vty line) (inv : line.Inv) (ready : Ready vty.node line made)
    (sound : Sound answer) (fits : CallFits answer line made)
    (clean : Clean fresh line (line.edit answer made.node made.function)) :
    Ends ({ vty with node := made.node }.edit answer fresh made.function) fun after =>
      Holds after (line.edit answer made.node made.function) ∧ after.node = made.node := by
  obtain ⟨⟨base, spare, blank, size, rfl⟩, history⟩ := holds
  by_cases shown : base.node.hidden = true ∧ made.node.hidden = false
  · rcases ready.prompts shown.1 shown.2 with function | function
    · have room : (base.made line.z spare blank).max = line.max := max_made size
      rw [function]
      exact follows_clear room history
    · have none := ready.empty function
      rw [function]
      refine follows_start none ?_ ?_ history
      · change line.z.text ++ _ = _
        rw [← size, none]
        rfl
      · have zero := congrArg List.length none
        simpa [Zipper.text] using zero
  · have kept : base.node.hidden = true → made.node.hidden = true := by simpa using shown
    have same : SameHistory { base with
        node := made.node
        row := (base.made line.z spare blank).row } line := history
    rw [made_node rfl kept]
    exact follows_edit size inv same sound made.function clean ready.printable ready.empty fits

/-- A call that does not fit writes behind the buffer. -/
theorem Holds.overrun (holds : Holds vty line) (inv : line.Inv) (ready : Ready vty.node line made)
    (sound : Sound answer) (beyond : ¬ CallFits answer line made) :
    { vty with node := made.node }.edit answer fresh made.function = .error .write := by
  obtain ⟨⟨base, spare, blank, size, rfl⟩, history⟩ := holds
  rw [CallFits] at beyond
  push Not at beyond
  obtain ⟨function, beyond⟩ := beyond
  have kept : base.node.hidden = true → made.node.hidden = true := by
    intro hidden
    by_contra shown
    have prompt := ready.prompts hidden (by simpa using shown)
    rw [function] at prompt
    simp at prompt
  rw [made_node rfl kept, function]
  exact overruns_complete size inv sound beyond

/-- A part of the text. -/
theorem Inv.part (inv : line.Inv) {z : Zipper Byte} (part : z.text.Sublist line.z.text) :
    Inv { line with z := z } :=
  inv.change (fun char member => inv.typed char (part.subset member))
    (part.length_le.trans_lt inv.room)

/-- After `vty_ensure` the line has room for one more character. -/
theorem Inv.grow (inv : line.Inv) : line.grow.Inv ∧ line.z.text.length + 1 < line.grow.max ∧
    line.grow.z = line.z := by
  have room := inv.room
  rw [EditedLine.grow]
  split_ifs with full
  · refine ⟨⟨inv.typed, ?_, inv.size, inv.hp, inv.hindex, fun entry member => ?_⟩, ?_, rfl⟩
    · simp only
      omega
    · obtain ⟨typed, short⟩ := inv.entries entry member
      exact ⟨typed, by simp only; omega⟩
    · simp only
      omega
  · exact ⟨inv, by omega, rfl⟩

/-- A printable character may be put in. -/
theorem Inv.insert (inv : line.Inv) {char : Byte} (printable : LineBuf.Printable char) :
    (line.insert char).Inv := by
  obtain ⟨grown, room, same⟩ := inv.grow
  refine grown.change (fun other member => ?_) ?_
  · simp only [Zipper.insert, Zipper.text, List.reverse_cons, List.append_assoc,
      List.mem_append, List.mem_singleton] at member
    rcases member with member | rfl | member
    · exact inv.typed other (List.mem_append_left _ member)
    · exact printable
    · exact inv.typed other (List.mem_append_right _ member)
  · have longer : (line.z.insert char).text.length = line.z.text.length + 1 := by
      simp [Zipper.insert, Zipper.text]
      omega
    rw [longer]
    exact room

/-- A line of the history may be recalled. -/
theorem Inv.recallEntry (inv : line.Inv) {place : Nat} (inside : place < vtyMaxhist) :
    (line.recallEntry place).Inv := by
  cases found : line.hist[place]?.join with
  | none => rwa [EditedLine.recallEntry, found]
  | some entry =>
      have listed : some entry ∈ line.hist :=
        List.mem_of_getElem? (Option.join_eq_some_iff.1 found)
      obtain ⟨typed, short⟩ := inv.entries entry listed
      rw [EditedLine.recallEntry, found]
      exact ⟨by simpa using typed, by simpa using short, inv.size, inside, inv.hindex, inv.entries⟩

/-- A line may be entered into the history. -/
theorem Inv.histAdd (inv : line.Inv) : line.histAdd.Inv := by
  rw [EditedLine.histAdd]
  split_ifs
  · exact inv
  · exact ⟨inv.typed, inv.room, inv.size, inv.hindex, inv.hindex, inv.entries⟩
  · refine ⟨inv.typed, inv.room, by simpa using inv.size, newer_lt inv.hindex, newer_lt inv.hindex,
      fun entry member => ?_⟩
    rcases List.mem_or_eq_of_mem_set member with member | same
    · exact inv.entries entry member
    · obtain rfl := Option.some.inj same
      exact ⟨inv.typed, inv.room⟩

/-- A completion that fits keeps the line within its buffer. -/
theorem Inv.complete (inv : line.Inv) {node : VtyNode} (sound : Sound answer)
    (fits : line.Fits answer node) : (line.complete answer node).Inv := by
  rw [EditedLine.complete]
  cases found : line.completion answer node with
  | none => exact inv
  | some result =>
      have replaced {word : List Byte} (member : result = .full word ∨ result = .part word) :
          (line.replaceLast word).Inv := by
        obtain ⟨vline, -, answered⟩ := completion_eq_some found
        exact inv.replaceLast (sound _ _ word (by rwa [answered])).1
          (fits word (by rw [found]; simpa using member))
      cases result with
      | full word => exact (replaced (.inl rfl)).insert space_printable
      | part word => exact replaced (.inr rfl)
      | failed status => exact inv.part (by simp)
      | list words => exact inv.part (by simp)

/-- A text stays printable and shorter than the buffer, and so do those of the history. -/
theorem Inv.call (inv : line.Inv) {before : VtyNode} (ready : Ready before line made)
    (sound : Sound answer) (fits : CallFits answer line made) :
    (line.edit answer made.node made.function).Inv := by
  obtain ⟨node, function⟩ := made
  cases function with
  | nextLine =>
      simp only [edit, nextLine]
      split_ifs
      · exact inv
      · exact inv.recallEntry (newer_lt inv.hp)
  | previousLine => exact inv.recallEntry (older_lt inv.hp)
  | histAdd => exact inv.histAdd
  | selfInsert c => exact inv.insert (ready.printable c rfl)
  | completeCommand => exact inv.complete sound (fits rfl)
  | transposeChars =>
      have same := Zipper.text_transpose line.z
      have typed : LineBuf.Typed line.z.transpose.text :=
        fun char member => inv.typed char (same.subset member)
      simp only [edit]
      split_ifs
      · obtain ⟨grown, room, -⟩ := inv.grow
        exact grown.change typed (by rw [same.length_eq]; omega)
      · exact inv.change typed (by rw [same.length_eq]; exact inv.room)
  | deleteChar => exact inv.part (Zipper.text_delete _)
  | deleteBackwardChar => exact inv.part (Zipper.text_deleteBack _)
  | killLine => exact inv.part (Zipper.text_kill _)
  | backwardKillWord =>
      exact inv.part ((Zipper.text_killBackWhile _ _).trans (Zipper.text_killBackWhile _ _))
  | forwardKillWord =>
      exact inv.part ((Zipper.text_killWhile _ _).trans (Zipper.text_killWhile _ _))
  | killLineFromBeginning | clearBuf => exact inv.part (List.nil_sublist _)
  | beginningOfLine | backwardChar | endOfLine | forwardChar | backwardWord | forwardWord
  | describeCommand | cursorToStart => exact inv.part (by simp)

end Calls

/-! ### Whole sessions -/

/-- One call after another. -/
def calls (answer : Answer) (line : EditedLine) : List LineCall → EditedLine
  | [] => line
  | call :: later => (line.edit answer call.node call.function).calls answer later

/-- All calls are as `vty.c` makes them. -/
def AllReady (answer : Answer) (before : VtyNode) (line : EditedLine) : List LineCall → Prop
  | [] => True
  | call :: later => Ready before line call ∧
      (line.edit answer call.node call.function).AllReady answer call.node later

/-- Everything that completes a word fits. -/
def AllFit (answer : Answer) (line : EditedLine) : List LineCall → Prop
  | [] => True
  | call :: later => CallFits answer line call ∧
      (line.edit answer call.node call.function).AllFit answer later

/-- Until something that completes a word does not fit, the buffer need not grow, or what `realloc`
adds to it happens to be zero. -/
def AllClean (answer : Answer) (fresh : Nat → Byte) (line : EditedLine) : List LineCall → Prop
  | [] => True
  | call :: later => CallFits answer line call →
      Clean fresh line (line.edit answer call.node call.function) ∧
        (line.edit answer call.node call.function).AllClean answer fresh later

/-- The string in the buffer is the text, the cursor is in its place, and unless a password is
typed, both are what the terminal shows. -/
structure Shows (vty : LineBuf) (line : EditedLine) : Prop where
  string : vty.string = .ok line.z.text
  length : vty.length = line.z.text.length
  cp : vty.cp = line.z.left.length
  row : vty.node.hidden = false → ∃ blank,
    vty.row = ⟨line.z.text ++ List.replicate blank telnetSpaceChar, line.z.left.length⟩

section Calls

variable {vty : LineBuf} {line : EditedLine} {answer : Answer} {fresh : Nat → Byte}
  {before : VtyNode} {made : List LineCall}

/-- What follows the line shows it. -/
theorem Holds.shows (holds : Holds vty line) (inv : line.Inv) : Shows vty line := by
  obtain ⟨⟨base, spare, blank, size, rfl⟩, -⟩ := holds
  have room : 1 ≤ spare := by
    have := inv.room
    omega
  refine ⟨LineBuf.string_made inv.typed room, by simp [Zipper.text], rfl, fun shown => ⟨blank, ?_⟩⟩
  have node : base.node.hidden = false := shown
  rw [LineBuf.made, LineBuf.having, node, if_neg Bool.false_ne_true]
  rfl

/-- The buffer and the terminal follow the line as long as everything fits, and no longer. -/
theorem Holds.calls (holds : Holds vty line) (inv : line.Inv)
    (ready : line.AllReady answer vty.node made) (clean : line.AllClean answer fresh made)
    (sound : Sound answer) :
    Ends (vty.calls answer fresh made) (fun after => Shows after (line.calls answer made)) ↔
      line.AllFit answer made := by
  induction made generalizing vty line with
  | nil =>
      rw [LineBuf.calls, ends_pure]
      exact iff_of_true (holds.shows inv) trivial
  | cons call later inductionHypothesis =>
      rw [LineBuf.calls, AllFit]
      by_cases fits : CallFits answer line call
      · obtain ⟨grown, rest⟩ := clean fits
        obtain ⟨after, ended, holds', node⟩ := holds.call inv ready.1 sound fits grown
        rw [ended, ok_bind]
        exact (inductionHypothesis holds' (inv.call ready.1 sound fits) (by
          rw [node]; exact ready.2) rest).trans (and_iff_right fits).symm
      · rw [holds.overrun inv ready.1 sound fits]
        exact iff_of_false (ends_error _ _) fun both => fits both.1

/-- The empty line has nothing that may not be in it. -/
theorem inv_initial : initial.Inv where
  typed char member := by cases member
  room := by decide
  size := List.length_replicate
  hp := by decide
  hindex := by decide
  entries entry member := by cases List.eq_of_mem_replicate member

/-- Calls after one another. -/
theorem calls_append (first second : List LineCall) :
    line.calls answer (first ++ second) = (line.calls answer first).calls answer second := by
  induction first generalizing line with
  | nil => rfl
  | cons call later inductionHypothesis => exact inductionHypothesis

/-- The node of the last call. -/
def lastNode (before : VtyNode) : List LineCall → VtyNode
  | [] => before
  | call :: later => lastNode call.node later

/-- The node of the last call. -/
theorem lastNode_append (first second : List LineCall) :
    lastNode before (first ++ second) = lastNode (lastNode before first) second := by
  induction first generalizing before with
  | nil => rfl
  | cons call later inductionHypothesis => exact inductionHypothesis

/-- Calls that are ready one after the other are ready in turn. -/
theorem AllReady.append {second : List LineCall} (first : line.AllReady answer before made)
    (rest : (line.calls answer made).AllReady answer (lastNode before made) second) :
    line.AllReady answer before (made ++ second) := by
  induction made generalizing line before with
  | nil => exact rest
  | cons call later inductionHypothesis => exact ⟨first.1, inductionHypothesis first.2 rest⟩

end Calls

/-- The line that the editing functions of a session work on, with the calls that were made. -/
abbrev editor (answer : Answer) : LineEditor where
  Line := EditedLine × List LineCall
  edit function node line := (line.1.edit answer node function, line.2 ++ [⟨node, function⟩])
  length line := line.1.z.text.length
  text line := line.1.z.text

/-- What bytes and lines make of a session. -/
inductive Session {answer : Answer} (start : Vty (editor answer)) : Vty (editor answer) → Prop
  | start : Session start start
  | byte {vty after : Vty (editor answer)} (reached : Session start vty) {byte : Byte}
      {rest more : List Byte} (read : vty.readByte byte rest = .next after more) :
      Session start after
  | line {vty : Vty (editor answer)} (reached : Session start vty) (input : AuthInput)
      (command : CommandEffect) : Session start (vty.vtyExecute input command)

section Sessions

variable {answer : Answer} {vty after : Vty (editor answer)}

/-- Between two states of a session, calls were made as they should be. -/
def Made (vty after : Vty (editor answer)) : Prop :=
  ∃ made, vty.line.1.AllReady answer vty.node made ∧
    after.line = (vty.line.1.calls answer made, vty.line.2 ++ made) ∧
    lastNode vty.node made = after.node

/-- What leaves the line and the node alone makes no call. -/
theorem Made.none (line : after.line = vty.line) (node : after.node = vty.node) : Made vty after :=
  ⟨[], trivial, by rw [line, List.append_nil]; rfl, node.symm⟩

/-- The calls of two steps follow one another. -/
theorem Made.trans {middle : Vty (editor answer)} (first : Made vty middle)
    (second : Made middle after) : Made vty after := by
  obtain ⟨made, ready, line, node⟩ := first
  obtain ⟨more, ready', line', node'⟩ := second
  rw [line] at ready' line'
  refine ⟨made ++ more, ready.append ?_, ?_, ?_⟩
  · rw [node]
    exact ready'
  · rw [calls_append, line', List.append_assoc]
  · rw [lastNode_append, node, node']

/-- One call, in a node that may be another. -/
theorem Made.single {function : LineEdit}
    (ready : Ready vty.node vty.line.1 ⟨after.node, function⟩)
    (line : after.line = (editor answer).edit function after.node vty.line) : Made vty after :=
  ⟨[⟨after.node, function⟩], ⟨ready, trivial⟩, line, rfl⟩

/-- In the same node only typing and a jump to the start ask for something. -/
theorem ready_same {node : VtyNode} {line : EditedLine} {function : LineEdit}
    (printable : ∀ c, function = .selfInsert c → LineBuf.Printable c)
    (empty : function = .cursorToStart → line.z.text = []) :
    Ready node line ⟨node, function⟩ :=
  ⟨fun hidden shown => absurd (hidden.symm.trans shown) (by simp), printable, empty⟩

/-- A function that does not insert. -/
theorem made_edit {function : LineEdit} (plain : ∀ c, function ≠ .selfInsert c)
    (other : function ≠ .cursorToStart) : Made vty (vty.edit function) :=
  .single (ready_same (fun c same => absurd same (plain c)) fun same => absurd same other) rfl

/-- A printable byte is one call. -/
theorem made_selfInsert {byte : Byte} (printable : LineBuf.Printable byte) :
    Made vty (vty.edit (.selfInsert byte)) := by
  have ready : Ready vty.node vty.line.1 ⟨vty.node, .selfInsert byte⟩ := by
    refine ready_same (fun c same => ?_) fun same => ?_
    · cases same
      exact printable
    · cases same
  exact .single ready rfl

/-- The buffer may be cleared in any node. -/
theorem ready_clear {before node : VtyNode} {line : EditedLine} :
    Ready before line ⟨node, .clearBuf⟩ :=
  ⟨fun _ _ => .inl rfl, by simp, by simp⟩

/-- `^D` is one call, also where it leaves the node. -/
theorem made_vtyDeleteChar : Made vty vty.vtyDeleteChar := by
  rw [Vty.vtyDeleteChar]
  split_ifs with empty
  · have line : vty.configExit.line = vty.line := by
      unfold Vty.configExit
      split <;> rfl
    exact .single ⟨fun _ _ => .inr rfl, by simp, fun _ => List.eq_nil_of_length_eq_zero empty⟩
      (congrArg ((editor answer).edit .cursorToStart _) line)
  · exact made_edit (by simp) (by simp)

/-- Leaving a configuration node clears the buffer. -/
theorem made_vtyEndConfig : Made vty vty.vtyEndConfig := .single ready_clear rfl

/-- A telnet option makes no call. -/
theorem made_vtyTelnetOption (byte : Byte) : Made vty (vty.vtyTelnetOption byte).1 := by
  unfold Vty.vtyTelnetOption
  split <;> exact .none rfl rfl

/-- The keys behind an escape are calls. -/
theorem made_vtyEscapeMap (byte : Byte) : Made vty (vty.vtyEscapeMap byte) := by
  have moved {function : LineEdit} (plain : ∀ c, function ≠ .selfInsert c)
      (other : function ≠ .cursorToStart) :
      Made vty { vty.edit function with escape := .normal } :=
    (made_edit plain other).trans (.none rfl rfl)
  unfold Vty.vtyEscapeMap
  split
  · exact moved (by simp) (by simp)
  · exact moved (by simp) (by simp)
  · exact moved (by simp) (by simp)
  · exact moved (by simp) (by simp)
  · exact .none rfl rfl

/-- So are the keys behind an escape and a bracket. -/
theorem made_preEscape (byte : Byte) : Made vty (vty.preEscape byte) := by
  have moved {function : LineEdit} (plain : ∀ c, function ≠ .selfInsert c)
      (other : function ≠ .cursorToStart) :
      Made vty { vty.edit function with escape := .normal } :=
    (made_edit plain other).trans (.none rfl rfl)
  unfold Vty.preEscape
  split
  · exact .none rfl rfl
  · exact moved (by simp) (by simp)
  · exact moved (by simp) (by simp)
  · exact moved (by simp) (by simp)
  · exact moved (by simp) (by simp)
  · exact moved (by simp) (by simp)
  · exact .none rfl rfl

/-- What a byte leaves behind, if it does not end the line. -/
def Makes (vty : Vty (editor answer)) : Vty.ByteEffect (editor answer) → Prop
  | .next after _ => Made vty after
  | .carriageReturn => True

/-- Whatever a byte stands for is a sequence of calls. -/
theorem makes_switchByte (byte : Byte) (rest : List Byte) :
    Makes vty (vty.switchByte byte rest) := by
  unfold Vty.switchByte
  split
  case h_3 => exact .none rfl rfl
  case h_4 => exact made_vtyDeleteChar
  case h_15 => exact made_vtyEndConfig
  case h_16 => exact .none rfl rfl
  case h_17 => trivial
  case h_19 code =>
    have printable : LineBuf.Printable byte := by
      rw [LineBuf.Printable, code]
      decide
    split
    all_goals first
      | exact made_selfInsert printable
      | exact made_edit (by simp) (by simp)
  case h_20 => split <;> exact .none rfl rfl
  case h_21 =>
    refine (?_ : Made vty _)
    split_ifs with printable
    · exact made_selfInsert printable
    · exact .none rfl rfl
  all_goals exact made_edit (by simp) (by simp)

theorem makes_readByte (byte : Byte) (rest : List Byte) : Makes vty (vty.readByte byte rest) := by
  unfold Vty.readByte
  split
  · exact .none rfl rfl
  · have started : Made vty { vty with iac := vty.iac && byte ≠ Vty.iacByte } := .none rfl rfl
    have through (effect : Vty.ByteEffect (editor answer))
        (makes : Makes { vty with iac := vty.iac && byte ≠ Vty.iacByte } effect) : Makes vty effect := by
      cases effect with
      | next after more => exact started.trans makes
      | carriageReturn => trivial
    refine through _ ?_
    generalize { vty with iac := vty.iac && byte ≠ Vty.iacByte } = vty
    dsimp only
    split
    · exact .none rfl rfl
    · split
      · exact (made_vtyTelnetOption byte).trans (.none rfl rfl)
      · split
        · exact .none rfl rfl
        · split
          · exact made_vtyEscapeMap byte
          · exact made_preEscape byte
          · exact makes_switchByte byte rest

/-- The line is cleared in the node that it leads to. -/
theorem made_clear {middle : Vty (editor answer)} (line : middle.line = vty.line) :
    Made vty (middle.edit .clearBuf) :=
  .single ready_clear (congrArg ((editor answer).edit .clearBuf _) line)

/-- An entered line makes its calls, whatever the login and the command do. -/
theorem made_vtyExecute (input : AuthInput) (command : CommandEffect) :
    Made vty (vty.vtyExecute input command) := by
  have login (buf : List Byte) : (vty.vtyAuth buf input).line = vty.line := by
    unfold Vty.vtyAuth
    split
    · split_ifs <;> rfl
    · split_ifs <;> rfl
    · rfl
    · rfl
  have password : vty.changeVtyPasswd.line = vty.line := by
    unfold Vty.changeVtyPasswd
    split_ifs <;> rfl
  have executed (shown : vty.node.hidden = false) :
      Made vty ((Vty.edit { vty with node := command.node, status := command.status }
        .histAdd).edit .clearBuf) := by
    have ready : Ready vty.node vty.line.1 ⟨command.node, .histAdd⟩ :=
      ⟨fun hidden => absurd (shown.symm.trans hidden) Bool.false_ne_true, by simp, by simp⟩
    have added : Made vty (Vty.edit { vty with node := command.node, status := command.status }
        .histAdd) := .single ready rfl
    exact added.trans (made_clear rfl)
  unfold Vty.vtyExecute
  cases reached : vty.node with
  | user | auth | authEnable => exact made_clear (login _)
  | changePasswd | changePasswdAgain => exact made_clear password
  | view | enable | config | debug => exact executed (by rw [reached]; rfl)

/-- The calls that a session makes are ready. -/
theorem Session.made {start : Vty (editor answer)} (session : Session start vty) :
    Made start vty := by
  induction session with
  | start => exact .none rfl rfl
  | @byte vty after reached byte rest more read inductionHypothesis =>
      have makes : Makes vty (vty.readByte byte rest) := makes_readByte byte rest
      rw [read] at makes
      exact inductionHypothesis.trans makes
  | line reached input command inductionHypothesis =>
      exact inductionHypothesis.trans (made_vtyExecute input command)

end Sessions

/-! ### The commands that are installed -/

/-- `cmd_complete_command`, with the commands that `cmd_init` installs. -/
def cmdCompleteCommand (doc : Command.CliCmd → Command.Text) : Answer := fun node vline =>
  let installed (node : VtyNode) := (Command.commands node).map fun cmd => some (cmd.element doc)
  if Command.cmdTryDoShortcut node vline.head?.join then
    Command.cmdCompleteCommandReal (installed .enable) vline.tail
  else Command.cmdCompleteCommandReal (installed node) vline

/-- A session of a user who has logged in, and then types `en`. -/
def loggedIn : Vty (editor (cmdCompleteCommand fun _ => [])) :=
  ⟨.view, .normal, [], 0, 0, 0, (initial, []), .normal, false, false⟩

end EditedLine

end Rsu.Cli
