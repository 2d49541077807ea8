import Rsu.Cli.Users
import Rsu.Cli.Wakeup

/-!
# The lines of a telnet session

What the command thread does with the bytes it takes from the ring. Most of them edit the line; a
carriage return hands the line to the login or to the commands, depending on the node.
-/

namespace Rsu.Cli

open Rsu.Rcp

/-- `enum node_type` -/
inductive VtyNode where
  | user
  | auth
  | view
  | authEnable
  | enable
  | config
  | changePasswd
  | changePasswdAgain
  | debug
  deriving DecidableEq

/-- The nodes in front of the password check. -/
def VtyNode.LoggingIn (node : VtyNode) : Prop := node = .user ∨ node = .auth

/-- The nodes in which `vty_execute` calls `execute_command`. -/
def VtyNode.TakesCommands : VtyNode → Prop
  | .user | .auth | .authEnable | .changePasswd | .changePasswdAgain => False
  | _ => True

/-- `escape` of `struct vty`. -/
inductive Escape where
  /-- `VTY_NORMAL` -/
  | normal
  /-- `VTY_PRE_ESCAPE` -/
  | preEscape
  /-- `VTY_ESCAPE` -/
  | escape
  deriving DecidableEq

/-- The functions that change the line, its cursor and its history, and nothing else. -/
inductive LineEdit where
  | beginningOfLine
  | backwardChar
  | deleteChar
  | endOfLine
  | forwardChar
  | deleteBackwardChar
  | killLine
  | nextLine
  | previousLine
  | transposeChars
  | killLineFromBeginning
  | backwardKillWord
  | forwardKillWord
  | backwardWord
  | forwardWord
  | completeCommand
  | describeCommand
  | selfInsert (c : Byte)
  | histAdd
  /-- `vty->cp = 0` -/
  | cursorToStart
  /-- `vty->cp = vty->length = 0` and `vty_clear_buf` -/
  | clearBuf

/-- The line of a session with its history, and what the functions make of it. -/
structure LineEditor where
  Line : Type
  edit : LineEdit → VtyNode → Line → Line
  /-- `vty->length` -/
  length : Line → Nat
  /-- `vty->cmd_input_buf` as a string. -/
  text : Line → List Byte

variable {editor : LineEditor}

/-- The fields of `struct vty` that decide what becomes of a line. -/
structure Vty (editor : LineEditor) where
  node : VtyNode
  status : VtyStatus
  pcBuf : List Byte
  iInvLogin : Nat
  userIndex : Nat
  iVtyIndex : Nat
  line : editor.Line
  escape : Escape
  iac : Bool
  iacSbInProgress : Bool

/-- What `vty_auth` meets outside of the session: the user table at `use_auth` and at
`registe_user`, the values that are never set, and what `sprintf` makes of the name, as long as it
fits into `szName`. -/
structure AuthInput where
  rcError : Int
  iPriority : Int
  table : UserTable
  laterTable : UserTable
  szName : CString maxUserNameLen
  slotPriority : Int

/-- What a command leaves behind. No command of a telnet session leads back to the login. -/
structure CommandEffect where
  node : { node : VtyNode // ¬ node.LoggingIn }
  status : VtyStatus

namespace Vty

/-- A function edits the line. -/
def edit (vty : Vty editor) (function : LineEdit) : Vty editor :=
  { vty with line := editor.edit function vty.node vty.line }

/-! ### Login -/

/-- What `use_auth` says of the password. -/
def verdict (vty : Vty editor) (buf : List Byte) (input : AuthInput) : CmdStatus :=
  (useAuth input.rcError input.table (some vty.pcBuf) (some buf) input.iPriority).1

/-- What `registe_user` returns. -/
def slot (vty : Vty editor) (input : AuthInput) : Nat :=
  (registeUser input.szName input.slotPriority input.laterTable vty.pcBuf
    (1#32 <<< (vty.iVtyIndex + 1))).2

/-- `enable_auth` -/
def enableAuth (_pcPasswd : List Byte) : CmdStatus := .success

/-- `vty_auth` -/
def vtyAuth (vty : Vty editor) (buf : List Byte) (input : AuthInput) : Vty editor :=
  match vty.node with
  | .user =>
      if 0 < buf.length ∧ buf.length ≤ maxUserNameLen then { vty with pcBuf := buf, node := .auth }
      else vty
  | .auth =>
      if vty.verdict buf input = .success then
        { vty with
          node := .view
          userIndex := vty.slot input
          status := if vty.slot input = maxCliUser then .close else vty.status }
      else if vty.iInvLogin < 2 then { vty with node := .user, iInvLogin := vty.iInvLogin + 1 }
      else { vty with node := .view, status := .close }
  | .authEnable => { vty with node := if enableAuth buf = .success then .enable else .view }
  | _ => vty

/-- `change_vty_passwd` -/
def changeVtyPasswd (vty : Vty editor) : Vty editor :=
  if vty.node = .changePasswd then
    let buf := editor.text vty.line
    { vty with
      pcBuf := buf.take maxPasswdLen
      node := if buf.length > maxPasswdLen ∨ buf.length ≤ 0 then .enable else .changePasswdAgain }
  else { vty with node := .enable }

/-- `vty_execute` -/
def vtyExecute (vty : Vty editor) (input : AuthInput) (command : CommandEffect) : Vty editor :=
  let vty :=
    match vty.node with
    | .user | .auth | .authEnable => vty.vtyAuth (editor.text vty.line) input
    | .changePasswd | .changePasswdAgain => vty.changeVtyPasswd
    | _ => { vty with node := command.node, status := command.status }.edit .histAdd
  vty.edit .clearBuf

/-! ### Bytes -/

/-- `config_exit` in a telnet session. -/
def configExit (vty : Vty editor) : Vty editor :=
  match vty.node with
  | .view => { vty with status := .close }
  | .enable => { vty with node := .view }
  | .config | .debug => { vty with node := .enable }
  | _ => vty

/-- `vty_delete_char`, which is `vty_down_level` on an empty line. -/
def vtyDeleteChar (vty : Vty editor) : Vty editor :=
  if editor.length vty.line = 0 then vty.configExit.edit .cursorToStart else vty.edit .deleteChar

/-- `vty_end_config` -/
def vtyEndConfig (vty : Vty editor) : Vty editor :=
  let vty := { vty with node := if vty.node = VtyNode.config then .enable else vty.node }
  vty.edit .clearBuf

/-- `vty_telnet_option`, with the number of bytes to be skipped. -/
def vtyTelnetOption (vty : Vty editor) (byte : Byte) : Vty editor × Nat :=
  match byte.toNat with
  | 250 => ({ vty with iacSbInProgress := true }, 0)
  | 240 => ({ vty with iacSbInProgress := false }, 0)
  | _ => (vty, 1)

/-- `vty_escape_map` -/
def vtyEscapeMap (vty : Vty editor) (byte : Byte) : Vty editor :=
  let vty :=
    match byte.toNat with
    | 65 => vty.edit .previousLine
    | 66 => vty.edit .nextLine
    | 67 => vty.edit .forwardChar
    | 68 => vty.edit .backwardChar
    | _ => vty
  { vty with escape := .normal }

/-- A byte behind an escape character. -/
def preEscape (vty : Vty editor) (byte : Byte) : Vty editor :=
  match byte.toNat with
  | 91 => { vty with escape := .escape }
  | 98 => { vty.edit .backwardWord with escape := .normal }
  | 102 => { vty.edit .forwardWord with escape := .normal }
  | 100 => { vty.edit .forwardKillWord with escape := .normal }
  | 8 | 127 => { vty.edit .backwardKillWord with escape := .normal }
  | _ => { vty with escape := .normal }

/-- What the loop of `vty_read` does with a byte. -/
inductive ByteEffect (editor : LineEditor) where
  /-- It goes on with the rest. -/
  | next (vty : Vty editor) (rest : List Byte)
  /-- It calls `vty_flush` and `vty_execute` first. -/
  | carriageReturn

/-- The last `switch` of the loop. -/
def switchByte (vty : Vty editor) (byte : Byte) (rest : List Byte) : ByteEffect editor :=
  match byte.toNat with
  | 1 => .next (vty.edit .beginningOfLine) rest
  | 2 => .next (vty.edit .backwardChar) rest
  | 3 => .next vty rest
  | 4 => .next vty.vtyDeleteChar rest
  | 5 => .next (vty.edit .endOfLine) rest
  | 6 => .next (vty.edit .forwardChar) rest
  | 8 | 127 => .next (vty.edit .deleteBackwardChar) rest
  | 11 => .next (vty.edit .killLine) rest
  | 14 => .next (vty.edit .nextLine) rest
  | 16 => .next (vty.edit .previousLine) rest
  | 20 => .next (vty.edit .transposeChars) rest
  | 21 => .next (vty.edit .killLineFromBeginning) rest
  | 23 => .next (vty.edit .backwardKillWord) rest
  | 26 => .next vty.vtyEndConfig rest
  | 10 => .next vty rest
  | 13 => .carriageReturn
  | 9 => .next (vty.edit .completeCommand) rest
  | 63 =>
      match vty.node with
      | .user | .auth | .authEnable | .changePasswd | .changePasswdAgain =>
          .next (vty.edit (.selfInsert byte)) rest
      | _ => .next (vty.edit .describeCommand) rest
  | 27 =>
      match rest with
      | 0x5B :: more => .next { vty with escape := .escape } more
      | _ => .next { vty with escape := .preEscape } rest
  | other => .next (if 31 < other ∧ other < 127 then vty.edit (.selfInsert byte) else vty) rest

/-- `IAC` -/
def iacByte : Byte := 0xFF

/-- The loop body of `vty_read`, in front of the `rest` of what was taken from the ring. -/
def readByte (vty : Vty editor) (byte : Byte) (rest : List Byte) : ByteEffect editor :=
  if byte = iacByte ∧ vty.iac = false then .next { vty with iac := true } rest
  else
    let vty := { vty with iac := vty.iac && byte ≠ iacByte }
    if vty.iacSbInProgress = true ∧ vty.iac = false then .next vty rest
    else if vty.iac = true then
      let (vty, ret) := vty.vtyTelnetOption byte
      .next { vty with iac := false } (rest.drop ret)
    else if vty.status = .more then .next vty rest
    else
      match vty.escape with
      | .escape => .next (vty.vtyEscapeMap byte) rest
      | .preEscape => .next (vty.preEscape byte) rest
      | .normal => vty.switchByte byte rest

/-! ### What bytes leave alone -/

/-- The login is where it was. -/
structure SameLogin (vty after : Vty editor) : Prop where
  iInvLogin : after.iInvLogin = vty.iInvLogin
  node : after.node.LoggingIn ↔ vty.node.LoggingIn

variable {vty after : Vty editor} {byte : Byte} {rest more : List Byte}

/-- What keeps the node and the counter keeps the login. -/
theorem SameLogin.of_eq (iInvLogin : after.iInvLogin = vty.iInvLogin)
    (node : after.node = vty.node) : SameLogin vty after where
  iInvLogin := iInvLogin
  node := by rw [node]

/-- Two steps that keep it. -/
theorem SameLogin.trans {middle : Vty editor} (first : SameLogin vty middle)
    (second : SameLogin middle after) : SameLogin vty after where
  iInvLogin := second.iInvLogin.trans first.iInvLogin
  node := second.node.trans first.node

/-- An editing function keeps the login. -/
theorem sameLogin_edit (vty : Vty editor) (function : LineEdit) :
    SameLogin vty (vty.edit function) := .of_eq rfl rfl

theorem sameLogin_configExit (vty : Vty editor) : SameLogin vty vty.configExit := by
  unfold configExit
  split
  · exact .of_eq rfl rfl
  · next enable => exact ⟨rfl, by rw [enable]; simp [VtyNode.LoggingIn]⟩
  · next config => exact ⟨rfl, by rw [config]; simp [VtyNode.LoggingIn]⟩
  · next debug => exact ⟨rfl, by rw [debug]; simp [VtyNode.LoggingIn]⟩
  · exact .of_eq rfl rfl

theorem sameLogin_vtyDeleteChar (vty : Vty editor) : SameLogin vty vty.vtyDeleteChar := by
  unfold vtyDeleteChar
  split
  · exact vty.sameLogin_configExit.trans (sameLogin_edit ..)
  · exact sameLogin_edit ..

theorem sameLogin_vtyEndConfig (vty : Vty editor) : SameLogin vty vty.vtyEndConfig := by
  refine ⟨rfl, ?_⟩
  change (if vty.node = .config then VtyNode.enable else vty.node).LoggingIn ↔ _
  split
  · next config =>
      rw [config]
      simp [VtyNode.LoggingIn]
  · rfl

theorem sameLogin_vtyTelnetOption (vty : Vty editor) (byte : Byte) :
    SameLogin vty (vty.vtyTelnetOption byte).1 := by
  unfold vtyTelnetOption
  split <;> exact .of_eq rfl rfl

theorem sameLogin_vtyEscapeMap (vty : Vty editor) (byte : Byte) :
    SameLogin vty (vty.vtyEscapeMap byte) := by
  unfold vtyEscapeMap
  split <;> exact .of_eq rfl rfl

theorem sameLogin_preEscape (vty : Vty editor) (byte : Byte) :
    SameLogin vty (vty.preEscape byte) := by
  unfold preEscape
  split <;> exact .of_eq rfl rfl

/-- What a byte leaves behind: the login is where it was, and only bytes behind it are skipped. A
carriage return is the only byte that hands the line on. -/
def ByteEffect.Sound (vty : Vty editor) (byte : Byte) (rest : List Byte) : ByteEffect editor → Prop
  | .next after more => SameLogin vty after ∧ more <:+ rest
  | .carriageReturn => byte = Cli.carriageReturn

/-- What a byte does keeps the login, and only a carriage return hands the line on. -/
theorem sound_switchByte (vty : Vty editor) (byte : Byte) (rest : List Byte) :
    (vty.switchByte byte rest).Sound vty byte rest := by
  unfold switchByte
  split
  all_goals try exact ⟨.of_eq rfl rfl, List.suffix_refl _⟩
  · exact ⟨vty.sameLogin_vtyDeleteChar, List.suffix_refl _⟩
  · exact ⟨vty.sameLogin_vtyEndConfig, List.suffix_refl _⟩
  · next code => exact BitVec.eq_of_toNat_eq code
  · split <;> exact ⟨.of_eq rfl rfl, List.suffix_refl _⟩
  · split
    · exact ⟨.of_eq rfl rfl, List.suffix_cons ..⟩
    · exact ⟨.of_eq rfl rfl, List.suffix_refl _⟩
  · refine ⟨?_, List.suffix_refl _⟩
    split
    · exact sameLogin_edit ..
    · exact .of_eq rfl rfl

/-- What comes from a session with another `iac` is sound for the session. -/
theorem ByteEffect.Sound.of_sameLogin {effect : ByteEffect editor} (same : SameLogin vty after)
    (sound : effect.Sound after byte rest) : effect.Sound vty byte rest := by
  cases effect with
  | next final more => exact ⟨same.trans sound.1, sound.2⟩
  | carriageReturn => exact sound

/-- That is so behind the telnet options too. -/
theorem sound_readByte (vty : Vty editor) (byte : Byte) (rest : List Byte) :
    (vty.readByte byte rest).Sound vty byte rest := by
  unfold readByte
  split
  · exact ⟨.of_eq rfl rfl, List.suffix_refl _⟩
  · have same : SameLogin vty { vty with iac := vty.iac && byte ≠ iacByte } := .of_eq rfl rfl
    refine .of_sameLogin same ?_
    generalize { vty with iac := vty.iac && byte ≠ iacByte } = vty
    dsimp only
    split
    · exact ⟨.of_eq rfl rfl, List.suffix_refl _⟩
    · split
      · exact ⟨(sameLogin_vtyTelnetOption ..).trans (.of_eq rfl rfl), List.drop_suffix ..⟩
      · split
        · exact ⟨.of_eq rfl rfl, List.suffix_refl _⟩
        · split
          · exact ⟨sameLogin_vtyEscapeMap .., List.suffix_refl _⟩
          · exact ⟨sameLogin_preEscape .., List.suffix_refl _⟩
          · exact sound_switchByte ..

/-! ### What a line does -/

variable {input : AuthInput} {command : CommandEffect}

/-- Before the login, a line goes to the login and nowhere else. -/
theorem vtyExecute_of_loggingIn (loggingIn : vty.node.LoggingIn) :
    vty.vtyExecute input command =
      (vty.vtyAuth (editor.text vty.line) input).edit .clearBuf := by
  unfold vtyExecute
  rcases loggingIn with user | auth
  · rw [user]
  · rw [auth]

/-- A line behind the login never leads back to it. -/
theorem vtyExecute_not_loggingIn (past : ¬ vty.node.LoggingIn) :
    ¬ (vty.vtyExecute input command).node.LoggingIn := by
  unfold vtyExecute
  cases reached : vty.node with
  | user => exact absurd (.inl reached) past
  | auth => exact absurd (.inr reached) past
  | authEnable => simp [vtyAuth, edit, enableAuth, reached, VtyNode.LoggingIn]
  | changePasswd =>
      simp only [changeVtyPasswd, edit, reached, if_true]
      split <;> simp [VtyNode.LoggingIn]
  | changePasswdAgain => simp [changeVtyPasswd, edit, reached, VtyNode.LoggingIn]
  | view | enable | config | debug => exact command.node.property

/-- A line with a name. -/
theorem vtyAuth_of_user (user : vty.node = .user) (buf : List Byte) :
    SameLogin vty (vty.vtyAuth buf input) := by
  unfold vtyAuth
  rw [user]
  dsimp only
  split
  · refine ⟨rfl, ?_⟩
    rw [user]
    simp [VtyNode.LoggingIn]
  · exact .of_eq rfl rfl

end Vty

end Rsu.Cli
