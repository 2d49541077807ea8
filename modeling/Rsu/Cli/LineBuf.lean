import Rsu.Cli.Completion
import Rsu.Cli.Vty
import Rsu.Data.Row
import Rsu.Semantics.Memory

/-!
# The buffer of a line

The editing functions of `vty.c`, on `cmd_input_buf`, on the history and on the row of the client's
terminal.
-/

namespace Rsu.Cli

open Checked Data Rcp

/-- `VTY_MAXHIST` -/
def vtyMaxhist : Nat := 20

/-- `VTY_BUFSIZ` -/
def vtyBufsiz : Nat := 512

/-- `telnet_backward_char` -/
def telnetBackwardChar : Byte := 0x08

/-- `telnet_space_char` -/
def telnetSpaceChar : Byte := 0x20

/-- The fields of `struct vty` that the editing functions use; `max` is the size of the buffer. The
row of the terminal is what was written since the prompt. -/
structure LineBuf where
  cmdInputBuf : List Byte
  cp : Nat
  length : Nat
  hist : List (Option (List Byte))
  hp : Nat
  hindex : Nat
  node : VtyNode
  row : Row Byte

/-- The nodes in which a password is typed; nothing of it is written back. -/
def VtyNode.hidden (node : VtyNode) : Bool :=
  node = .auth || node = .authEnable || node = .changePasswd || node = .changePasswdAgain

namespace LineBuf

/-- `vty->max` -/
def max (vty : LineBuf) : Nat := vty.cmdInputBuf.length

/-- The prompt is on a new row. -/
def prompted (vty : LineBuf) : LineBuf := { vty with row := ⟨[], 0⟩ }

/-- `vty_write` -/
def vtyWrite (vty : LineBuf) (buf : List Byte) : LineBuf :=
  if vty.node.hidden then vty else { vty with row := vty.row.puts telnetBackwardChar buf }

/-- `vty_write` of some of the characters of the line. -/
def writeLine (vty : LineBuf) (offset count : Nat) : Checked LineBuf := do
  let buf ← loadCells vty.cmdInputBuf offset count
  return vty.vtyWrite buf

/-- `vty_ensure`; `XREALLOC` leaves in the new half what it finds there. -/
def vtyEnsure (fresh : Nat → Byte) (vty : LineBuf) (length : Nat) : LineBuf :=
  if vty.max ≤ length then
    { vty with cmdInputBuf := vty.cmdInputBuf ++ (List.range vty.max).map fresh }
  else vty

/-- `vty_self_insert` -/
def vtySelfInsert (fresh : Nat → Byte) (c : Byte) (vty : LineBuf) : Checked LineBuf := do
  let vty := vty.vtyEnsure fresh (vty.length + 1)
  let length := vty.length - vty.cp
  let buf ← moveCells vty.cmdInputBuf (vty.cp + 1) vty.cp length
  let buf ← storeCells buf vty.cp [c]
  let vty := { vty with cmdInputBuf := buf }
  let vty ← vty.writeLine vty.cp (length + 1)
  let vty := vty.vtyWrite (List.replicate length telnetBackwardChar)
  return { vty with cp := vty.cp + 1, length := vty.length + 1 }

/-- `vty_self_insert_overwrite` -/
def vtySelfInsertOverwrite (fresh : Nat → Byte) (c : Byte) (vty : LineBuf) : Checked LineBuf := do
  let vty := vty.vtyEnsure fresh (vty.length + 1)
  let buf ← storeCells vty.cmdInputBuf vty.cp [c]
  let vty := { vty with
    cmdInputBuf := buf
    cp := vty.cp + 1
    length := if vty.length < vty.cp + 1 then vty.length + 1 else vty.length }
  return vty.vtyWrite [c]

/-- `vty_insert_word_overwrite` -/
def vtyInsertWordOverwrite (str : List Byte) (vty : LineBuf) : Checked LineBuf := do
  let vty := vty.vtyWrite str
  let buf ← storeCells vty.cmdInputBuf vty.cp (str ++ [0])
  return { vty with cmdInputBuf := buf, cp := vty.cp + str.length, length := vty.cp + str.length }

/-- `vty_forward_char` -/
def vtyForwardChar (vty : LineBuf) : Checked LineBuf := do
  if vty.cp < vty.length then
    let vty ← vty.writeLine vty.cp 1
    return { vty with cp := vty.cp + 1 }
  else return vty

/-- `vty_backward_char` -/
def vtyBackwardChar (vty : LineBuf) : LineBuf :=
  if 0 < vty.cp then { vty with cp := vty.cp - 1 }.vtyWrite [telnetBackwardChar] else vty

/-- A loop of `vty_forward_char`, as long as characters meet a test. -/
def forwardWhile (test : Byte → Bool) : Nat → LineBuf → Checked LineBuf
  | 0, vty => return vty
  | turns + 1, vty => do
      let chars ← loadCells vty.cmdInputBuf vty.cp 1
      if chars.all test then
        let vty ← vty.vtyForwardChar
        forwardWhile test turns vty
      else return vty

/-- A loop of `vty_backward_char`, as long as the characters in front meet a test. -/
def backwardWhile (test : Byte → Bool) : Nat → LineBuf → Checked LineBuf
  | 0, vty => return vty
  | turns + 1, vty => do
      let chars ← loadCells vty.cmdInputBuf (vty.cp - 1) 1
      if chars.all test then backwardWhile test turns vty.vtyBackwardChar else return vty

/-- `vty_beginning_of_line` -/
def vtyBeginningOfLine (vty : LineBuf) : LineBuf := vtyBackwardChar^[vty.cp] vty

/-- `vty_end_of_line` -/
def vtyEndOfLine (vty : LineBuf) : Checked LineBuf :=
  forwardWhile (fun _ => true) (vty.length - vty.cp) vty

/-- `vty_redraw_line` -/
def vtyRedrawLine (vty : LineBuf) : Checked LineBuf := do
  let vty ← vty.writeLine 0 vty.length
  return { vty with cp := vty.length }

/-- `vty_forward_word` -/
def vtyForwardWord (vty : LineBuf) : Checked LineBuf := do
  let vty ← forwardWhile (· ≠ telnetSpaceChar) (vty.length - vty.cp) vty
  forwardWhile (· = telnetSpaceChar) (vty.length - vty.cp) vty

/-- `vty_backward_pure_word` -/
def vtyBackwardPureWord (vty : LineBuf) : Checked LineBuf :=
  backwardWhile (· ≠ telnetSpaceChar) vty.cp vty

/-- `vty_backward_word` -/
def vtyBackwardWord (vty : LineBuf) : Checked LineBuf := do
  let vty ← backwardWhile (· = telnetSpaceChar) vty.cp vty
  backwardWhile (· ≠ telnetSpaceChar) vty.cp vty

/-- `vty_delete_char`, on a line that is not empty. -/
def vtyDeleteChar (vty : LineBuf) : Checked LineBuf := do
  if vty.cp = vty.length then return vty
  else
    let size := vty.length - vty.cp
    let buf ← moveCells vty.cmdInputBuf vty.cp (vty.cp + 1) (size - 1)
    let buf ← storeCells buf (vty.length - 1) [0]
    let vty := { vty with cmdInputBuf := buf, length := vty.length - 1 }
    let vty ← vty.writeLine vty.cp (size - 1)
    let vty := vty.vtyWrite [telnetSpaceChar]
    return vty.vtyWrite (List.replicate size telnetBackwardChar)

/-- `vty_delete_backward_char` -/
def vtyDeleteBackwardChar (vty : LineBuf) : Checked LineBuf :=
  if vty.cp = 0 then return vty else vty.vtyBackwardChar.vtyDeleteChar

/-- `vty_kill_line` -/
def vtyKillLine (vty : LineBuf) : Checked LineBuf := do
  let size := vty.length - vty.cp
  if size = 0 then return vty
  else
    let vty := vty.vtyWrite (List.replicate size telnetSpaceChar)
    let vty := vty.vtyWrite (List.replicate size telnetBackwardChar)
    let buf ← storeCells vty.cmdInputBuf vty.cp (List.replicate size 0)
    return { vty with cmdInputBuf := buf, length := vty.cp }

/-- `vty_kill_line_from_beginning` -/
def vtyKillLineFromBeginning (vty : LineBuf) : Checked LineBuf := vty.vtyBeginningOfLine.vtyKillLine

/-- A loop of `vty_delete_char`, as long as characters meet a test. -/
def killWhile (test : Byte → Bool) : Nat → LineBuf → Checked LineBuf
  | 0, vty => return vty
  | turns + 1, vty => do
      let chars ← loadCells vty.cmdInputBuf vty.cp 1
      if chars.all test then
        let vty ← vty.vtyDeleteChar
        killWhile test turns vty
      else return vty

/-- A loop of `vty_delete_backward_char`, as long as the characters in front meet a test. -/
def killBackWhile (test : Byte → Bool) : Nat → LineBuf → Checked LineBuf
  | 0, vty => return vty
  | turns + 1, vty => do
      let chars ← loadCells vty.cmdInputBuf (vty.cp - 1) 1
      if chars.all test then
        let vty ← vty.vtyDeleteBackwardChar
        killBackWhile test turns vty
      else return vty

/-- `vty_forward_kill_word` -/
def vtyForwardKillWord (vty : LineBuf) : Checked LineBuf := do
  let vty ← killWhile (· = telnetSpaceChar) (vty.length - vty.cp) vty
  killWhile (· ≠ telnetSpaceChar) (vty.length - vty.cp) vty

/-- `vty_backward_kill_word` -/
def vtyBackwardKillWord (vty : LineBuf) : Checked LineBuf := do
  let vty ← killBackWhile (· = telnetSpaceChar) vty.cp vty
  killBackWhile (· ≠ telnetSpaceChar) vty.cp vty

/-- `vty_transpose_chars` -/
def vtyTransposeChars (fresh : Nat → Byte) (vty : LineBuf) : Checked LineBuf := do
  if vty.length < 2 ∨ vty.cp < 1 then return vty
  else if vty.cp = vty.length then
    let c1 ← loadCells vty.cmdInputBuf (vty.cp - 1) 1
    let c2 ← loadCells vty.cmdInputBuf (vty.cp - 2) 1
    let vty ← vty.vtyBackwardChar.vtyBackwardChar.vtySelfInsertOverwrite fresh (c1.getD 0 0)
    vty.vtySelfInsertOverwrite fresh (c2.getD 0 0)
  else
    let c1 ← loadCells vty.cmdInputBuf vty.cp 1
    let c2 ← loadCells vty.cmdInputBuf (vty.cp - 1) 1
    let vty ← vty.vtyBackwardChar.vtySelfInsertOverwrite fresh (c1.getD 0 0)
    vty.vtySelfInsertOverwrite fresh (c2.getD 0 0)

/-! ### History -/

/-- `vty->cmd_input_buf` as a string. -/
def string (vty : LineBuf) : Checked (List Byte) :=
  if 0 ∈ vty.cmdInputBuf then .ok (vty.cmdInputBuf.takeWhile (· ≠ 0)) else .error .read

/-- `vty_history_print` -/
def vtyHistoryPrint (vty : LineBuf) : Checked LineBuf := do
  let vty ← vty.vtyKillLineFromBeginning
  match vty.hist[vty.hp]?.join with
  | none => .error .read
  | some line => do
      let buf ← storeCells vty.cmdInputBuf 0 line
      { vty with cmdInputBuf := buf, cp := line.length, length := line.length }.vtyRedrawLine

/-- `vty_next_line` -/
def vtyNextLine (vty : LineBuf) : Checked LineBuf :=
  if vty.hp = vty.hindex then return vty
  else
    let tryIndex := if vty.hp = vtyMaxhist - 1 then 0 else vty.hp + 1
    if vty.hist[tryIndex]?.join = none then return vty
    else { vty with hp := tryIndex }.vtyHistoryPrint

/-- `vty_previous_line` -/
def vtyPreviousLine (vty : LineBuf) : Checked LineBuf :=
  let tryIndex := if vty.hp = 0 then vtyMaxhist - 1 else vty.hp - 1
  if vty.hist[tryIndex]?.join = none then return vty
  else { vty with hp := tryIndex }.vtyHistoryPrint

/-- `vty_hist_add` -/
def vtyHistAdd (vty : LineBuf) : Checked LineBuf := do
  if vty.length = 0 then return vty
  else
    let line ← vty.string
    let index := if vty.hindex = 0 then vtyMaxhist - 1 else vty.hindex - 1
    if vty.hist[index]?.join = some line then return { vty with hp := vty.hindex }
    else
      let next := if vty.hindex + 1 = vtyMaxhist then 0 else vty.hindex + 1
      return { vty with hist := vty.hist.set vty.hindex (some line), hindex := next, hp := next }

/-! ### Completion -/

/-- `vty_complete_command`, where `cmd_complete_command` answers for the words of a line in a
node. -/
def vtyCompleteCommand (answer : VtyNode → List (Option Command.Text) → Command.Completion)
    (fresh : Nat → Byte) (vty : LineBuf) : Checked LineBuf := do
  if vty.node = .user ∨ vty.node.hidden then return vty
  else
    let line ← vty.string
    match Command.cmdMakeStrvec line with
    | none => return vty
    | some vline => do
        let last ← loadCells vty.cmdInputBuf (vty.length - 1) 1
        let next := if last.all CString.isSpace then [none] else []
        match answer vty.node (vline.map some ++ next) with
        | .full word => do
            let vty ← vty.prompted.vtyRedrawLine
            let vty ← vty.vtyBackwardPureWord
            let vty ← vty.vtyInsertWordOverwrite word
            vty.vtySelfInsert fresh telnetSpaceChar
        | .part word => do
            let vty ← vty.prompted.vtyRedrawLine
            let vty ← vty.vtyBackwardPureWord
            vty.vtyInsertWordOverwrite word
        | _ => vty.prompted.vtyRedrawLine

/-- A function of the line. -/
def edit (answer : VtyNode → List (Option Command.Text) → Command.Completion)
    (fresh : Nat → Byte) (vty : LineBuf) : LineEdit → Checked LineBuf
  | .beginningOfLine => .ok vty.vtyBeginningOfLine
  | .backwardChar => .ok vty.vtyBackwardChar
  | .deleteChar => vty.vtyDeleteChar
  | .endOfLine => vty.vtyEndOfLine
  | .forwardChar => vty.vtyForwardChar
  | .deleteBackwardChar => vty.vtyDeleteBackwardChar
  | .killLine => vty.vtyKillLine
  | .nextLine => vty.vtyNextLine
  | .previousLine => vty.vtyPreviousLine
  | .transposeChars => vty.vtyTransposeChars fresh
  | .killLineFromBeginning => vty.vtyKillLineFromBeginning
  | .backwardKillWord => vty.vtyBackwardKillWord
  | .forwardKillWord => vty.vtyForwardKillWord
  | .backwardWord => vty.vtyBackwardWord
  | .forwardWord => vty.vtyForwardWord
  | .completeCommand => vty.vtyCompleteCommand answer fresh
  | .describeCommand => vty.prompted.vtyRedrawLine
  | .selfInsert c => vty.vtySelfInsert fresh c
  | .histAdd => vty.vtyHistAdd
  | .cursorToStart => .ok { vty.prompted with cp := 0 }
  | .clearBuf => .ok { vty.prompted with
      cmdInputBuf := List.replicate vty.max 0
      cp := 0
      length := 0 }

end LineBuf

end Rsu.Cli
