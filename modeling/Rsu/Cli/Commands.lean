import Rsu.Cli.Execute
import Rsu.Cli.Vectors
import Rsu.Cli.Vty

/-!
# The commands of the agent

`cmd_init` installs the nodes of the command interface and, in each of them, its commands. No
function calls `install_debug_cmd`, so the vector of the nodes ends in front of `DEBUG_NODE`. The
texts of the descriptions are a parameter.
-/

namespace Rsu.Cli.Command

open Checked

/-- The functions of the commands. -/
inductive CliFunc where
  | configTerminal | enable | disable | configExit | configEnd | historyFun | timeOutFun | clearFun
  | configHelp | debug | configList | languageChange
  | reboot | showAllInfo | writeFun | enablePasswdFun
  | pingFun | pingFunW | pingFunS | pingFunC | pingFunSw | pingFunCw | pingFunCs | pingFunCsw
  | passwdFun | addUserFun | delUserFun | addPrivilegeFun | showUserFun
  | showConfigInfo | setConfigInfo | bsmTriggerInfo | dbgPrintInfo
  deriving DecidableEq

/-- The `struct cmd_element` that the agent installs. -/
inductive CliCmd where
  | configTerminalCmd | configEnableCmd | configDisableCmd | configExitCmd | configQuitCmd
  | configEndCmd | historyCmd | timeOutCmd | clearCmd | configHelpCmd | debugCmd | configListCmd
  | languageChangeCmd
  | rebootCmd | showInfoCmd | writeCmd | enablePasswdCmd
  | pingCmd | pingCmdW | pingCmdS | pingCmdC | pingCmdSw | pingCmdCw | pingCmdCs | pingCmdCsw
  | passwdCmd | addUserCmd | delUserCmd | addPrivilegeCmd | showUserCmd
  | showConfigCmd | setConfigCmd | bsmTriggerCmd | dbgPrintCmd
  deriving DecidableEq

/-- `CMD_ATTR_HIDDEN` -/
def cmdAttrHidden : Nat := 2

/-- What `DEFUN` and `ALIAS` say of a command. -/
structure Defun where
  string : String
  func : CliFunc
  attr : Nat
  level : Int

/-- `DEFUN` and `ALIAS` -/
def defun (string : String) (func : CliFunc) (level : Int) : Defun := ⟨string, func, 0, level⟩

/-- `DEFUN_HIDDEN` -/
def defunHidden (string : String) (func : CliFunc) (level : Int) : Defun :=
  ⟨string, func, cmdAttrHidden, level⟩

/-- The definitions of the commands. -/
def CliCmd.defun : CliCmd → Defun
  | .configTerminalCmd => Command.defun "config" .configTerminal 0
  | .configEnableCmd => Command.defun "enable" .enable 0
  | .configDisableCmd => Command.defun "disable" .disable 0
  | .configExitCmd => Command.defun "exit" .configExit 0
  | .configQuitCmd => Command.defun "quit" .configExit 0
  | .configEndCmd => Command.defun "end" .configEnd 0
  | .historyCmd => Command.defun "history" .historyFun 0
  | .timeOutCmd => Command.defun "terminal time-out <1-65535>" .timeOutFun 5
  | .clearCmd => Command.defun "clear" .clearFun 0
  | .configHelpCmd => Command.defun "help" .configHelp 0
  | .debugCmd => defunHidden "debug-hide 0906" .debug 15
  | .configListCmd => Command.defun "list" .configList 5
  | .languageChangeCmd => Command.defun "language (english|chinese)" .languageChange 0
  | .rebootCmd => Command.defun "reboot" .reboot 15
  | .showInfoCmd => Command.defun "show (information|parameter|version)" .showAllInfo 10
  | .writeCmd => Command.defun "write" .writeFun 15
  | .enablePasswdCmd => Command.defun "enable password" .enablePasswdFun 5
  | .pingCmd => Command.defun "ping A.B.C.D" .pingFun 11
  | .pingCmdW => Command.defun "ping A.B.C.D waittime <1-60>" .pingFunW 11
  | .pingCmdS => Command.defun "ping A.B.C.D size <0-4096>" .pingFunS 11
  | .pingCmdC => Command.defun "ping A.B.C.D count <1-65535>" .pingFunC 11
  | .pingCmdSw => Command.defun "ping A.B.C.D size <0-4096> waittime <1-60>" .pingFunSw 11
  | .pingCmdCw => Command.defun "ping A.B.C.D count <1-65535> waittime <1-60>" .pingFunCw 11
  | .pingCmdCs => Command.defun "ping A.B.C.D count <1-65535> size <0-4096>" .pingFunCs 11
  | .pingCmdCsw =>
      Command.defun "ping A.B.C.D count <1-65535> size <0-4096> waittime <1-60>" .pingFunCsw 11
  | .passwdCmd => Command.defun "password" .passwdFun 5
  | .addUserCmd => Command.defun "user name USERNAME password PASSWORD" .addUserFun 15
  | .delUserCmd => Command.defun "no username USERNAME" .delUserFun 15
  | .addPrivilegeCmd => Command.defun "user name USERNAME privilege <1-15>" .addPrivilegeFun 15
  | .showUserCmd => Command.defun "show user" .showUserFun 5
  | .showConfigCmd => Command.defun "show parameter (all|vam|wnet|bsm)" .showConfigInfo 10
  | .setConfigCmd => Command.defun "set parameter bsm_cast <10-3000>" .setConfigInfo 10
  | .bsmTriggerCmd => Command.defun "bsm (stop|start)" .bsmTriggerInfo 10
  | .dbgPrintCmd => Command.defun "dbg_print (stop|wnet_rx|gps)" .dbgPrintInfo 10

/-- The characters of a string of the source. -/
def chars (string : String) : Text := string.toUTF8.data.toList.map UInt8.toBitVec

/-! ### Nodes -/

/-- The value of an enumerator. -/
def nodeType : VtyNode → Nat
  | .user => 0
  | .auth => 1
  | .view => 2
  | .authEnable => 3
  | .enable => 4
  | .config => 5
  | .changePasswd => 6
  | .changePasswdAgain => 7
  | .debug => 8

/-- `struct cmd_node` -/
structure CmdNode where
  node : VtyNode
  prompt : String
  cmdVector : CVector (CmdElement CliFunc)

/-- The prompts of the nodes. -/
def prompt : VtyNode → String
  | .user => "Login:"
  | .auth => "Password:"
  | .view => "%s>"
  | .authEnable => "Password:"
  | .enable => "%s#"
  | .config => "%s(config)#"
  | .changePasswd => "Please input password:"
  | .changePasswdAgain => "Please input again:"
  | .debug => "%s(debug)#"

/-- `vector_set_index (cmdvec, node->node, node)` -/
def setNode (cmdvec : CVector CmdNode) (node : CmdNode) : Checked (CVector CmdNode) :=
  cmdvec.setIndex (nodeType node.node) (some node)

/-- `install_node` -/
def installNode (node : VtyNode) (cmdvec : CVector CmdNode) : Checked (CVector CmdNode) :=
  setNode cmdvec ⟨node, prompt node, .init 1⟩

/-- `install_element`; `none` is the end of the program. -/
def installElement (doc : CliCmd → Text) (ntype : VtyNode) (cmd : CliCmd)
    (cmdvec : CVector CmdNode) : Checked (Option (CVector CmdNode)) := do
  let some cnode ← cmdvec.slot (nodeType ntype) | return none
  let some element := CmdElement.install (chars cmd.defun.string) (doc cmd) cmd.defun.func
    cmd.defun.attr cmd.defun.level | return none
  let (cmdVector, _) ← cnode.cmdVector.set (some element)
  let cmdvec ← setNode cmdvec { cnode with cmdVector }
  return some cmdvec

/-- A call of `install_node` or of `install_element`. -/
inductive Install where
  | node (node : VtyNode)
  | element (ntype : VtyNode) (cmd : CliCmd)

/-- One call. -/
def Install.run (doc : CliCmd → Text) (cmdvec : CVector CmdNode) :
    Install → Checked (Option (CVector CmdNode))
  | .node ntype => do
      let cmdvec ← installNode ntype cmdvec
      return some cmdvec
  | .element ntype cmd => installElement doc ntype cmd cmdvec

/-- The calls one after another, up to the end of the program. -/
def runInstalls (doc : CliCmd → Text) (cmdvec : CVector CmdNode) :
    List Install → Checked (Option (CVector CmdNode))
  | [] => return some cmdvec
  | install :: later => do
      let some cmdvec ← install.run doc cmdvec | return none
      runInstalls doc cmdvec later

/-- `install_default` -/
def installDefault (node : VtyNode) : List Install :=
  [.element node .configExitCmd, .element node .configQuitCmd, .element node .historyCmd,
    .element node .clearCmd] ++
  (if node ≠ .enable then [.element node .configEndCmd] else []) ++
  [.element node .configListCmd, .element node .configHelpCmd, .element node .languageChangeCmd]

/-- `install_view_cmd` -/
def installViewCmd : List Install :=
  [.node .view, .element .view .configListCmd, .element .view .configExitCmd,
    .element .view .configQuitCmd, .element .view .configHelpCmd, .element .view .historyCmd,
    .element .view .clearCmd, .element .view .timeOutCmd, .element .view .configEnableCmd,
    .element .view .languageChangeCmd]

/-- `install_enable_cmd` -/
def installEnableCmd : List Install :=
  .node .enable :: installDefault .enable ++
    [.element .enable .configDisableCmd, .element .enable .configTerminalCmd,
      .element .enable .debugCmd]

/-- `install_config_cmd` -/
def installConfigCmd : List Install := .node .config :: installDefault .config

/-- `install_dev_manage_cmd` -/
def installDevManageCmd : List Install :=
  [.element .enable .rebootCmd, .element .enable .showInfoCmd, .element .enable .writeCmd,
    .element .enable .enablePasswdCmd, .element .config .showInfoCmd, .element .enable .pingCmd,
    .element .enable .pingCmdW, .element .enable .pingCmdS, .element .enable .pingCmdC,
    .element .enable .pingCmdSw, .element .enable .pingCmdCs, .element .enable .pingCmdCw,
    .element .enable .pingCmdCsw]

/-- `install_user_mng_cmd` -/
def installUserMngCmd : List Install :=
  [.element .enable .passwdCmd, .element .enable .addUserCmd, .element .enable .addPrivilegeCmd,
    .element .enable .delUserCmd, .element .enable .showUserCmd]

/-- `install_vam_manage_cmd` -/
def installVamManageCmd : List Install :=
  [.element .enable .showConfigCmd, .element .enable .setConfigCmd, .element .enable .bsmTriggerCmd,
    .element .enable .dbgPrintCmd]

/-- The calls of `cmd_init`. -/
def installs : List Install :=
  [.node .user, .node .auth, .node .authEnable, .node .changePasswd, .node .changePasswdAgain] ++
  installViewCmd ++ installEnableCmd ++ installConfigCmd ++
  installDevManageCmd ++ installUserMngCmd ++ installVamManageCmd

/-- `cmd_init` -/
def cmdInit (doc : CliCmd → Text) : Checked (Option (CVector CmdNode)) :=
  runInstalls doc (.init 1) installs

/-- `cmd_node_vector`, and the copy that `vector_copy` makes of it. -/
def cmdNodeVector (cmdvec : CVector CmdNode) (ntype : VtyNode) : Checked (CmdVector CliFunc) := do
  let some cnode ← cmdvec.slot (nodeType ntype) | .error .read
  return cnode.cmdVector.copy.slots

/-- `cmd_prompt` -/
def cmdPrompt (cmdvec : CVector CmdNode) (node : VtyNode) : Checked String := do
  let some cnode ← cmdvec.slot (nodeType node) | .error .read
  return cnode.prompt

/-! ### What is installed -/

/-- A place with one word. -/
def word (string : String) : Item := .word (chars string)

/-- A place with several words. -/
def choice (first : String) (more : List String) : Item := .choice (chars first) (more.map chars)

/-- The places of the commands. -/
def CliCmd.items : CliCmd → List Item
  | .configTerminalCmd => [word "config"]
  | .configEnableCmd => [word "enable"]
  | .configDisableCmd => [word "disable"]
  | .configExitCmd => [word "exit"]
  | .configQuitCmd => [word "quit"]
  | .configEndCmd => [word "end"]
  | .historyCmd => [word "history"]
  | .timeOutCmd => [word "terminal", word "time-out", word "<1-65535>"]
  | .clearCmd => [word "clear"]
  | .configHelpCmd => [word "help"]
  | .debugCmd => [word "debug-hide", word "0906"]
  | .configListCmd => [word "list"]
  | .languageChangeCmd => [word "language", choice "english" ["chinese"]]
  | .rebootCmd => [word "reboot"]
  | .showInfoCmd => [word "show", choice "information" ["parameter", "version"]]
  | .writeCmd => [word "write"]
  | .enablePasswdCmd => [word "enable", word "password"]
  | .pingCmd => [word "ping", word "A.B.C.D"]
  | .pingCmdW => [word "ping", word "A.B.C.D", word "waittime", word "<1-60>"]
  | .pingCmdS => [word "ping", word "A.B.C.D", word "size", word "<0-4096>"]
  | .pingCmdC => [word "ping", word "A.B.C.D", word "count", word "<1-65535>"]
  | .pingCmdSw =>
      [word "ping", word "A.B.C.D", word "size", word "<0-4096>", word "waittime", word "<1-60>"]
  | .pingCmdCw =>
      [word "ping", word "A.B.C.D", word "count", word "<1-65535>", word "waittime", word "<1-60>"]
  | .pingCmdCs =>
      [word "ping", word "A.B.C.D", word "count", word "<1-65535>", word "size", word "<0-4096>"]
  | .pingCmdCsw =>
      [word "ping", word "A.B.C.D", word "count", word "<1-65535>", word "size", word "<0-4096>",
        word "waittime", word "<1-60>"]
  | .passwdCmd => [word "password"]
  | .addUserCmd => [word "user", word "name", word "USERNAME", word "password", word "PASSWORD"]
  | .delUserCmd => [word "no", word "username", word "USERNAME"]
  | .addPrivilegeCmd => [word "user", word "name", word "USERNAME", word "privilege", word "<1-15>"]
  | .showUserCmd => [word "show", word "user"]
  | .showConfigCmd => [word "show", word "parameter", choice "all" ["vam", "wnet", "bsm"]]
  | .setConfigCmd => [word "set", word "parameter", word "bsm_cast", word "<10-3000>"]
  | .bsmTriggerCmd => [word "bsm", choice "stop" ["start"]]
  | .dbgPrintCmd => [word "dbg_print", choice "stop" ["wnet_rx", "gps"]]

/-- The command that `install_element` puts into a node. -/
def CliCmd.element (doc : CliCmd → Text) (cmd : CliCmd) : CmdElement CliFunc :=
  let strvec := describeItems cmd.items (doc cmd)
  ⟨chars cmd.defun.string, cmd.defun.func, doc cmd, strvec, cmdCmdsize strvec, cmd.defun.attr,
    cmd.defun.level⟩

section Elements

/-- The check of a word of a template; none of them takes a variable number of arguments. -/
def plainToken (word : Text) : Bool :=
  !word.isEmpty && word.all inToken && word.head? != some 0x28 && !cmdVararg word

/-- The check of the places of a command. -/
def CliCmd.checked (cmd : CliCmd) : Bool :=
  template cmd.items == chars cmd.defun.string && decide (cmd.items.length ≤ cmdArgcMax) &&
    cmd.items.all fun item => item.words.all plainToken

/-- Every command passes the check. -/
theorem CliCmd.checked_eq (cmd : CliCmd) : cmd.checked = true := by
  cases cmd <;> decide +kernel

/-- A plain token is one that is no vararg. -/
theorem plainToken_iff (word : Text) :
    plainToken word = true ↔ IsToken word ∧ cmdVararg word = false := by
  simp [plainToken, IsToken, and_assoc]

/-- An item of tokens is sound. -/
theorem Item.sound_of_words {item : Item} (tokens : ∀ word ∈ item.words, IsToken word) :
    item.Sound := by
  cases item with
  | word text => exact tokens text (List.mem_singleton_self text)
  | choice first more =>
      exact ⟨tokens first List.mem_cons_self, fun word member =>
        tokens word (List.mem_cons_of_mem first member)⟩

/-- What is known of the places of a command. -/
structure CliCmd.WellFormed (cmd : CliCmd) : Prop where
  string : template cmd.items = chars cmd.defun.string
  few : cmd.items.length ≤ cmdArgcMax
  tokens : ∀ item ∈ cmd.items, ∀ word ∈ item.words, IsToken word ∧ cmdVararg word = false

/-- Every command is well formed. -/
theorem CliCmd.wellFormed (cmd : CliCmd) : cmd.WellFormed := by
  have checked := cmd.checked_eq
  simp only [CliCmd.checked, Bool.and_eq_true, beq_iff_eq, decide_eq_true_eq, List.all_eq_true,
    plainToken_iff] at checked
  exact ⟨checked.1.1, checked.1.2, checked.2⟩

/-- Descriptions do not change the words. -/
theorem describeWords_cmd (words : List Text) (dp : Text) :
    (describeWords words dp).1.map Desc.cmd = words := by
  induction words generalizing dp with
  | nil => rfl
  | cons word more inductionHypothesis =>
      simp only [describeWords, List.map_cons, inductionHypothesis, describeWord]

/-- The words of the items are those of their descriptions. -/
theorem describeItems_cmd (items : List Item) (dp : Text) :
    (describeItems items dp).map (List.map Desc.cmd) = items.map Item.words := by
  induction items generalizing dp with
  | nil => rfl
  | cons item more inductionHypothesis =>
      simp only [describeItems, List.map_cons, inductionHypothesis, describeWords_cmd]

/-- `install_element` reads a template back as it was written: one place for each item, with the
words of that item, whatever the descriptions are. -/
theorem install_reads_template {Func : Type} (items : List Item)
    (sound : ∀ item ∈ items, item.Sound) (doc : Text) (func : Func) (attr : Nat) (level : Int) :
    ∃ element, CmdElement.install (template items) doc func attr level = some element ∧
      element.strvec.map (List.map Desc.cmd) = items.map Item.words ∧
      element.string = template items ∧ element.func = func ∧ element.level = level := by
  rw [CmdElement.install, cmdMakeDescvec_template items sound]
  exact ⟨_, rfl, describeItems_cmd items doc, rfl, rfl, rfl⟩

/-- A command of the agent with two places. -/
theorem install_reads_template_language :
    ∃ element, CmdElement.install (template [word "language", choice "english" ["chinese"]]) []
        CliFunc.languageChange 0 0 = some element ∧
      element.strvec.map (List.map Desc.cmd) =
        [word "language", choice "english" ["chinese"]].map Item.words ∧
      element.string = template [word "language", choice "english" ["chinese"]] ∧
      element.func = CliFunc.languageChange ∧ element.level = 0 :=
  install_reads_template [word "language", choice "english" ["chinese"]]
    (by simp [word, choice, Item.Sound, IsToken]; decide +kernel) [] CliFunc.languageChange 0 0

/-- `install_element` makes the command of its template. -/
theorem CliCmd.install_eq (doc : CliCmd → Text) (cmd : CliCmd) :
    CmdElement.install (chars cmd.defun.string) (doc cmd) cmd.defun.func cmd.defun.attr
      cmd.defun.level = some (cmd.element doc) := by
  have known := cmd.wellFormed
  rw [CmdElement.install, ← known.string, cmdMakeDescvec_template cmd.items fun item member =>
    Item.sound_of_words fun word inside => (known.tokens item member word inside).1]
  rw [known.string]
  rfl

/-- The arguments of no command overrun the vector of its words, or `argv`. -/
theorem CliCmd.element_sound (doc : CliCmd → Text) (cmd : CliCmd) : (cmd.element doc).Sound := by
  have known := cmd.wellFormed
  have shape := describeItems_cmd cmd.items (doc cmd)
  constructor
  · have size := congrArg List.length shape
    rw [List.length_map, List.length_map] at size
    exact size.trans_le known.few
  · intro descvec place desc listed vararg
    have words : descvec.map Desc.cmd ∈ cmd.items.map Item.words := by
      rw [← shape]
      exact List.mem_map_of_mem place
    obtain ⟨item, member, same⟩ := List.mem_map.1 words
    have inside : desc.cmd ∈ item.words := by
      rw [same]
      exact List.mem_map_of_mem listed
    rw [(known.tokens item member desc.cmd inside).2] at vararg
    cases vararg

end Elements

section Table

/-- Which commands are installed in which nodes. -/
abbrev Table := VtyNode → Option (List CliCmd)

/-- What an installation adds. -/
def Install.add (table : Table) : Install → Option Table
  | .node ntype => if ntype = .debug then none else some (Function.update table ntype (some []))
  | .element ntype cmd =>
      (table ntype).bind fun cmds =>
        if cmds.length < CVector.placeLimit then
          some (Function.update table ntype (some (cmds ++ [cmd])))
        else none

/-- What several installations add. -/
def addAll (table : Table) : List Install → Option Table
  | [] => some table
  | install :: later => (install.add table).bind fun table => addAll table later

/-- The vector of the nodes holds a table. -/
structure Represents (doc : CliCmd → Text) (cmdvec : CVector CmdNode) (table : Table) : Prop where
  alloced : cmdvec.alloced ∣ 8
  node : ∀ {ntype cmds}, table ntype = some cmds → ∃ cnode,
    cmdvec.get (nodeType ntype) = some cnode ∧ cnode.node = ntype ∧ cnode.prompt = prompt ntype ∧
      cnode.cmdVector.slots = cmds.map fun cmd => some (cmd.element doc)

/-- Different nodes have different numbers. -/
theorem nodeType_injective : Function.Injective nodeType := by
  intro left right same
  cases left <;> cases right <;> first | rfl | cases same

variable {doc : CliCmd → Text} {cmdvec : CVector CmdNode} {table : Table}

/-- A node that is set holds its commands, and the others keep theirs. -/
theorem Represents.setNode (represents : Represents doc cmdvec table) (cnode : CmdNode)
    (inside : nodeType cnode.node < 8) (text : cnode.prompt = prompt cnode.node)
    {cmds : List CliCmd}
    (slots : cnode.cmdVector.slots = cmds.map fun cmd => some (cmd.element doc)) :
    Ends (setNode cmdvec cnode) fun after =>
      Represents doc after (Function.update table cnode.node (some cmds)) := by
  have low : nodeType cnode.node < CVector.placeLimit := inside.trans_le (by decide)
  refine (cmdvec.assigned low (some cnode)).mono fun after assigned => ?_
  constructor
  · exact assigned.dvd 3 represents.alloced inside
  · intro ntype installed found
    rw [assigned.get]
    by_cases same : ntype = cnode.node
    · subst same
      rw [Function.update_self] at found ⊢
      obtain rfl := Option.some.inj found
      exact ⟨cnode, rfl, rfl, text, slots⟩
    · rw [Function.update_of_ne same] at found
      rw [Function.update_of_ne fun equal => same (nodeType_injective equal)]
      exact represents.node found

/-- A node that is installed is found. -/
theorem Represents.slot (represents : Represents doc cmdvec table) {ntype : VtyNode}
    {cmds : List CliCmd} (found : table ntype = some cmds) :
    ∃ cnode, cmdvec.slot (nodeType ntype) = .ok (some cnode) ∧ nodeType ntype < 8 ∧
      cnode.node = ntype ∧ cnode.prompt = prompt ntype ∧
        cnode.cmdVector.slots = cmds.map fun cmd => some (cmd.element doc) := by
  obtain ⟨cnode, filled, node, text, slots⟩ := represents.node found
  have room : nodeType ntype < cmdvec.alloced := (cmdvec.lt_of_get filled).trans_le cmdvec.active_le
  refine ⟨cnode, by rw [cmdvec.slot_eq room, filled], ?_, node, text, slots⟩
  exact room.trans_le (Nat.le_of_dvd (by decide) represents.alloced)

/-- An installation adds to the table. -/
theorem Represents.run (represents : Represents doc cmdvec table) (install : Install)
    {next : Table} (added : install.add table = some next) :
    Ends (install.run doc cmdvec) fun result =>
      ∃ cmdvec, result = some cmdvec ∧ Represents doc cmdvec next := by
  cases install with
  | node ntype =>
      rw [Install.add] at added
      split_ifs at added with other
      obtain rfl := Option.some.inj added
      rw [Install.run, ends_bind]
      have empty : (CVector.init 1 : CVector (CmdElement CliFunc)).slots =
          ([] : List CliCmd).map fun cmd => some (cmd.element doc) := rfl
      refine (represents.setNode ⟨ntype, prompt ntype, .init 1⟩ ?_ rfl empty).mono
        fun after represents => ?_
      · cases ntype <;> first | decide | exact absurd rfl other
      · rw [ends_pure]
        exact ⟨after, rfl, represents⟩
  | element ntype cmd =>
      rw [Install.add] at added
      obtain ⟨cmds, found, added⟩ := Option.bind_eq_some_iff.1 added
      split_ifs at added with few
      obtain rfl := Option.some.inj added
      obtain ⟨cnode, read, inside, rfl, text, slots⟩ := represents.slot found
      rw [Install.run, installElement, read, ok_bind, CliCmd.install_eq]
      dsimp only
      have more : Ends (cnode.cmdVector.set (some (cmd.element doc))) fun result =>
          result.1.slots = (cmds ++ [cmd]).map fun cmd => some (cmd.element doc) := by
        refine (cnode.cmdVector.slots_set ?_ ?_ _).mono fun result set => ?_
        · simp [slots]
        · rwa [slots, List.length_map]
        · rw [set, slots, List.map_append, List.map_singleton]
      rw [ends_bind]
      refine more.mono fun result longer => ?_
      rw [ends_bind]
      refine (represents.setNode { cnode with cmdVector := result.1 } inside text longer).mono
        fun after represents => ?_
      rw [ends_pure]
      exact ⟨after, rfl, represents⟩

/-- Installations add to the table. -/
theorem Represents.runInstalls (installs : List Install)
    (represents : Represents doc cmdvec table) {next : Table}
    (added : addAll table installs = some next) :
    Ends (runInstalls doc cmdvec installs) fun result =>
      ∃ cmdvec, result = some cmdvec ∧ Represents doc cmdvec next := by
  induction installs generalizing cmdvec table with
  | nil =>
      obtain rfl := Option.some.inj added
      rw [Command.runInstalls, ends_pure]
      exact ⟨cmdvec, rfl, represents⟩
  | cons install later inductionHypothesis =>
      obtain ⟨middle, first, added⟩ := Option.bind_eq_some_iff.1 added
      rw [Command.runInstalls, ends_bind]
      refine (represents.run install first).mono fun result found => ?_
      obtain ⟨cmdvec, rfl, represents⟩ := found
      exact inductionHypothesis represents added

/-- The commands of a node. -/
def commands : VtyNode → List CliCmd
  | .view =>
      [.configListCmd, .configExitCmd, .configQuitCmd, .configHelpCmd, .historyCmd, .clearCmd,
        .timeOutCmd, .configEnableCmd, .languageChangeCmd]
  | .enable =>
      [.configExitCmd, .configQuitCmd, .historyCmd, .clearCmd, .configListCmd, .configHelpCmd,
        .languageChangeCmd, .configDisableCmd, .configTerminalCmd, .debugCmd, .rebootCmd,
        .showInfoCmd, .writeCmd, .enablePasswdCmd, .pingCmd, .pingCmdW, .pingCmdS, .pingCmdC,
        .pingCmdSw, .pingCmdCs, .pingCmdCw, .pingCmdCsw, .passwdCmd, .addUserCmd,
        .addPrivilegeCmd, .delUserCmd, .showUserCmd, .showConfigCmd, .setConfigCmd, .bsmTriggerCmd,
        .dbgPrintCmd]
  | .config =>
      [.configExitCmd, .configQuitCmd, .historyCmd, .clearCmd, .configEndCmd, .configListCmd,
        .configHelpCmd, .languageChangeCmd, .showInfoCmd]
  | _ => []

/-- The calls of `cmd_init` make the tables of the nodes. -/
theorem addAll_installs : ∃ table, addAll (fun _ => none) installs = some table ∧
    ∀ ntype, ntype ≠ .debug → table ntype = some (commands ntype) := by
  refine ⟨_, rfl, fun ntype other => ?_⟩
  cases ntype <;> first | rfl | exact absurd rfl other

/-- `cmd_init` ends with all commands installed, and with no room for `DEBUG_NODE`. -/
theorem cmdInit_ends (doc : CliCmd → Text) : Ends (cmdInit doc) fun result =>
    ∃ cmdvec, result = some cmdvec ∧ cmdvec.alloced = 8 ∧
      ∀ ntype, ntype ≠ .debug → cmdNodeVector cmdvec ntype =
        .ok ((commands ntype).map fun cmd => some (cmd.element doc)) ∧
          cmdPrompt cmdvec ntype = .ok (prompt ntype) := by
  obtain ⟨table, added, full⟩ := addAll_installs
  have empty : Represents doc (.init 1) fun _ => none := by
    refine ⟨?_, fun found => ?_⟩
    · rw [CVector.alloced, CVector.init, List.length_replicate]
      decide
    · cases found
  refine (empty.runInstalls installs added).mono fun result found => ?_
  obtain ⟨cmdvec, rfl, represents⟩ := found
  refine ⟨cmdvec, rfl, ?_, fun ntype other => ?_⟩
  · obtain ⟨cnode, filled, -⟩ := represents.node (full .changePasswdAgain (by decide))
    have room : 7 < cmdvec.alloced := (cmdvec.lt_of_get filled).trans_le cmdvec.active_le
    exact le_antisymm (Nat.le_of_dvd (by decide) represents.alloced) room
  · obtain ⟨cnode, read, -, -, text, slots⟩ := represents.slot (full ntype other)
    rw [cmdNodeVector, cmdPrompt, read, ok_bind, ok_bind]
    exact ⟨congrArg Except.ok slots, congrArg Except.ok text⟩

/-- The vector of the nodes ends in front of `DEBUG_NODE`. -/
theorem slot_debug {cmdvec : CVector CmdNode} (alloced : cmdvec.alloced = 8) :
    cmdvec.slot (nodeType .debug) = .error .read := by
  rw [CVector.slot, readable, alloced, if_neg (by decide)]
  rfl

end Table

end Rsu.Cli.Command
