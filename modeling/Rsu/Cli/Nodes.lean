import Rsu.Cli.Commands
import Rsu.Cli.Spelling

/-!
# The nodes of a telnet session

Behind the login, a session goes from node to node as its lines call functions. What a user can
do is bounded by the level of the commands; but whoever may call `debug` comes to a node that is
not installed, and the prompt of that node is read outside of the vector of the nodes.
-/

namespace Rsu.Cli.Command

open Checked

/-- The fields of `struct vty` that the commands of a telnet session set, and the functions that
were called so far. -/
structure Shell where
  node : VtyNode
  status : VtyStatus
  called : List CliFunc

namespace Shell

/-- `config_exit` -/
def configExit (shell : Shell) : Shell :=
  match shell.node with
  | .view => { shell with status := .close }
  | .enable => { shell with node := .view }
  | .config | .debug => { shell with node := .enable }
  | _ => shell

/-- `config_end` -/
def configEnd (shell : Shell) : Shell :=
  match shell.node with
  | .config | .debug => { shell with node := .enable }
  | _ => shell

/-- A call of a function. The others do not set the node; what they return is up to what they
meet. -/
def call (shell : Shell) (func : CliFunc) (outcome : Status) : Shell × Status :=
  let shell := { shell with called := shell.called ++ [func] }
  match func with
  | .configTerminal => ({ shell with node := .config }, .success)
  | .enable => ({ shell with node := .authEnable }, .success)
  | .disable => ({ shell with node := if shell.node = .enable then .view else shell.node }, .success)
  | .configExit => (shell.configExit, .success)
  | .configEnd => (shell.configEnd, .success)
  | .debug => ({ shell with node := if shell.node = .enable then .debug else shell.node }, .success)
  | .passwdFun | .enablePasswdFun => ({ shell with node := .changePasswd }, .success)
  | _ => (shell, outcome)

end Shell

variable (cmdvec : CVector CmdNode) (iPriority : Int)

/-- `cmd_execute_command_real`, with the call of the function. -/
def executeReal (vline : List Text) (outcome : Status) (shell : Shell) :
    Checked (Shell × Status) := do
  let v ← cmdNodeVector cmdvec shell.node
  let dispatch ← cmdExecuteCommandReal v vline iPriority
  match dispatch with
  | .failed status => return (shell, status)
  | .run element _ => return shell.call element.func outcome

/-- `cmd_try_do_shortcut` -/
def cmdTryDoShortcut (node : VtyNode) (firstWord : Option Text) : Bool :=
  firstWord = some (chars "do") &&
    node ∉ [VtyNode.user, .auth, .view, .authEnable, .enable]

/-- `node_parent`; `none` is a failed assertion. -/
def nodeParent (node : VtyNode) : Option VtyNode :=
  if nodeType .config < nodeType node then some .config else none

/-- `ret == CMD_SUCCESS || ret == CMD_WARNING` -/
def Status.done (status : Status) : Bool := status = .success || status = .warning

/-- The loop of `cmd_execute_command`, with the node of the line and its result. -/
def fallback (vline : List Text) (outcome : Status) (onode : VtyNode) (saved : Status)
    (tryNode : VtyNode) (ret : Status) (shell : Shell) : Checked (Option (Shell × Status)) :=
  if ret.done ∨ nodeType shell.node ≤ nodeType .config then
    return some ({ shell with node := if tryNode = onode then shell.node else onode }, saved)
  else if nodeType .config < nodeType tryNode then do
    let (shell, ret) ← executeReal cmdvec iPriority vline outcome { shell with node := .config }
    if ret.done then
      return some ({ shell with node := if shell.node = .config then onode else shell.node }, ret)
    else fallback vline outcome onode saved .config ret shell
  else return none
termination_by nodeType tryNode
decreasing_by assumption

/-- `cmd_execute_command` -/
def cmdExecuteCommand (vline : List Text) (outcome : Status) (shell : Shell) :
    Checked (Option (Shell × Status)) :=
  if cmdTryDoShortcut shell.node vline.head? then do
    let (after, ret) ← executeReal cmdvec iPriority vline.tail outcome { shell with node := .enable }
    return some ({ after with node := shell.node }, ret)
  else do
    let (after, ret) ← executeReal cmdvec iPriority vline outcome shell
    fallback cmdvec iPriority vline outcome shell.node ret shell.node ret after

/-- `execute_command` -/
def executeCommand (buf : Text) (outcome : Status) (shell : Shell) : Checked (Option Shell) :=
  match cmdMakeStrvec buf with
  | none => return some shell
  | some vline => do
      let result ← cmdExecuteCommand cmdvec iPriority vline outcome shell
      return result.map Prod.fst

/-- `vty_execute` behind the login, up to the prompt. -/
def executeLine (buf : Text) (outcome : Status) (shell : Shell) : Checked (Option Shell) :=
  match shell.node with
  | .user | .auth => return some shell
  | .authEnable =>
      return some { shell with node := if Vty.enableAuth buf = .success then .enable else .view }
  | .changePasswd =>
      return some { shell with
        node := if maxPasswdLen < buf.length ∨ buf.length ≤ 0 then .enable else .changePasswdAgain }
  | .changePasswdAgain => return some { shell with node := .enable }
  | .view | .enable | .config | .debug => executeCommand cmdvec iPriority buf outcome shell

/-- `vty_end_config` -/
def Shell.endConfig (shell : Shell) : Shell :=
  { shell with node := if shell.node = .config then .enable else shell.node }

/-- What a user types. -/
inductive ShellAction where
  /-- A line; what else its function returns is up to what it meets. -/
  | line (buf : Text) (outcome : Status)
  /-- `^D` on an empty line -/
  | downLevel
  /-- `^Z` -/
  | endConfig
  /-- A tab or a question mark behind some words. -/
  | lookUp (vline : List Text)

/-- `vty_prompt` -/
def vtyPrompt (shell : Shell) : Checked (Option Shell) := do
  let _ ← cmdPrompt cmdvec shell.node
  return some shell

/-- The vector that a tab or a question mark looks at. -/
def lookUpVector (vline : List Text) (shell : Shell) : Checked (Option Shell) :=
  match shell.node with
  | .view | .enable | .config | .debug => do
      let node := if cmdTryDoShortcut shell.node vline.head? then .enable else shell.node
      let _ ← cmdNodeVector cmdvec node
      vtyPrompt cmdvec shell
  | _ => return some shell

/-- What the session does with it. -/
def ShellAction.run (shell : Shell) : ShellAction → Checked (Option Shell)
  | .line buf outcome => do
      let some shell ← executeLine cmdvec iPriority buf outcome shell | return none
      if shell.status = .close then return some shell else vtyPrompt cmdvec shell
  | .downLevel => vtyPrompt cmdvec shell.configExit
  | .endConfig => vtyPrompt cmdvec shell.endConfig
  | .lookUp vline => lookUpVector cmdvec vline shell

/-- What the session does with one after another. -/
def runActions (shell : Shell) : List ShellAction → Checked (Option Shell)
  | [] => return some shell
  | action :: later => do
      let some shell ← action.run cmdvec iPriority shell | return none
      runActions shell later

/-- The session behind the login. -/
def Shell.initial : Shell := ⟨.view, .normal, []⟩

/-! ### What a user can do -/

/-- What holds in a session of a user. -/
structure Shell.Inv (iPriority : Int) (shell : Shell) : Prop where
  past : ¬ shell.node.LoggingIn
  debug : shell.node = .debug → 15 ≤ iPriority
  called : ∀ func ∈ shell.called, ∃ cmd : CliCmd, cmd.defun.func = func ∧
    cmd.defun.level ≤ iPriority

/-- The vector of the nodes as `cmd_init` leaves it. -/
structure Installed (doc : CliCmd → Text) (cmdvec : CVector CmdNode) : Prop where
  alloced : cmdvec.alloced = 8
  vector : ∀ ntype, ntype ≠ .debug → cmdNodeVector cmdvec ntype =
    .ok ((commands ntype).map fun cmd => some (cmd.element doc))
  prompt : ∀ ntype, ntype ≠ .debug → cmdPrompt cmdvec ntype = .ok (prompt ntype)

/-- A call ends as it should, or it reads behind the vector of the nodes for a user that may call
`debug`. -/
def Outcome {α : Type} (iPriority : Int) (call : Checked α) (post : α → Prop) : Prop :=
  Ends call post ∨ 15 ≤ iPriority ∧ call = .error .read

section Outcomes

variable {α β : Type} {iPriority : Int}

/-- Calls one after the other; the first failure is that of both. -/
theorem Outcome.bind {call : Checked α} {next : α → Checked β} {middle : α → Prop}
    {post : β → Prop} (first : Outcome iPriority call middle)
    (rest : ∀ result, middle result → Outcome iPriority (next result) post) :
    Outcome iPriority (call >>= next) post := by
  rcases first with ⟨result, ended, holds⟩ | ⟨allowed, stopped⟩
  · subst ended
    exact rest result holds
  · subst stopped
    exact .inr ⟨allowed, rfl⟩

/-- What calls nothing ends. -/
theorem Outcome.pure {value : α} {post : α → Prop} (holds : post value) :
    Outcome iPriority (pure value) post :=
  .inl ((ends_pure value post).2 holds)

end Outcomes

section Inv

variable {iPriority : Int} {shell : Shell} {doc : CliCmd → Text} {cmdvec : CVector CmdNode}

/-- A session begins at the view node, with nothing called. -/
theorem inv_initial (iPriority : Int) : Shell.initial.Inv iPriority where
  past := by simp [Shell.initial, VtyNode.LoggingIn]
  debug reached := by cases reached
  called func member := by cases member

/-- A session that comes to another node. -/
theorem Shell.Inv.move (inv : shell.Inv iPriority) {node : VtyNode} (past : ¬ node.LoggingIn)
    (other : node ≠ .debug) (status : VtyStatus) :
    Shell.Inv iPriority { shell with node := node, status := status } :=
  ⟨past, fun reached => absurd reached other, inv.called⟩

/-- Leaving a node leads behind the login. -/
theorem Shell.Inv.configExit (inv : shell.Inv iPriority) : shell.configExit.Inv iPriority := by
  unfold Shell.configExit
  split
  · exact ⟨inv.past, inv.debug, inv.called⟩
  · exact inv.move (by simp [VtyNode.LoggingIn]) (by decide) _
  · exact inv.move (by simp [VtyNode.LoggingIn]) (by decide) _
  · exact inv.move (by simp [VtyNode.LoggingIn]) (by decide) _
  · exact inv

theorem Shell.Inv.configEnd (inv : shell.Inv iPriority) : shell.configEnd.Inv iPriority := by
  unfold Shell.configEnd
  split
  · exact inv.move (by simp [VtyNode.LoggingIn]) (by decide) _
  · exact inv.move (by simp [VtyNode.LoggingIn]) (by decide) _
  · exact inv

/-- `debug` is the function of one command. -/
theorem level_of_debug {cmd : CliCmd} (func : cmd.defun.func = .debug) :
    cmd.defun.level = 15 := by
  cases cmd <;> first | rfl | cases func

/-- A function that the user may call keeps the invariant. -/
theorem Shell.Inv.call (inv : shell.Inv iPriority) {cmd : CliCmd}
    (allowed : cmd.defun.level ≤ iPriority) (outcome : Status) :
    (shell.call cmd.defun.func outcome).1.Inv iPriority := by
  have logged : Shell.Inv iPriority { shell with called := shell.called ++ [cmd.defun.func] } := by
    refine ⟨inv.past, inv.debug, fun func member => ?_⟩
    rcases List.mem_append.1 member with member | member
    · exact inv.called func member
    · exact ⟨cmd, (List.mem_singleton.1 member).symm, allowed⟩
  generalize same : cmd.defun.func = func at logged ⊢
  cases func
  case configTerminal => exact logged.move (by simp [VtyNode.LoggingIn]) (by decide) _
  case enable => exact logged.move (by simp [VtyNode.LoggingIn]) (by decide) _
  case disable =>
    rw [Shell.call]
    dsimp only
    split_ifs
    · exact logged.move (by simp [VtyNode.LoggingIn]) (by decide) _
    · exact logged
  case configExit => exact logged.configExit
  case configEnd => exact logged.configEnd
  case debug =>
    rw [Shell.call]
    dsimp only
    split_ifs
    · refine ⟨by simp [VtyNode.LoggingIn], fun _ => ?_, logged.called⟩
      rwa [← level_of_debug same]
    · exact logged
  case passwdFun => exact logged.move (by simp [VtyNode.LoggingIn]) (by decide) _
  case enablePasswdFun => exact logged.move (by simp [VtyNode.LoggingIn]) (by decide) _
  all_goals exact logged

/-- A function that fails leaves the node alone. -/
theorem Shell.call_node (shell : Shell) (func : CliFunc) (outcome : Status) :
    (shell.call func outcome).2.done = true ∨ (shell.call func outcome).1.node = shell.node := by
  cases func <;> first | exact .inl rfl | exact .inr rfl

/-- `cmd_init` installs what the tables say. -/
theorem installed_of_init (doc : CliCmd → Text) :
    Ends (cmdInit doc) fun result => ∃ cmdvec, result = some cmdvec ∧ Installed doc cmdvec := by
  refine (cmdInit_ends doc).mono fun result found => ?_
  obtain ⟨cmdvec, rfl, alloced, nodes⟩ := found
  exact ⟨cmdvec, rfl, alloced, fun ntype other => (nodes ntype other).1,
    fun ntype other => (nodes ntype other).2⟩

/-- `DEBUG_NODE` is read outside of the vector of the nodes. -/
theorem Installed.debug_vector (installed : Installed doc cmdvec) :
    cmdNodeVector cmdvec .debug = .error .read := by
  rw [cmdNodeVector, slot_debug installed.alloced]
  rfl

/-- The prompt of `DEBUG_NODE` is looked up behind the vector of the nodes. -/
theorem Installed.debug_prompt (installed : Installed doc cmdvec) :
    cmdPrompt cmdvec .debug = .error .read := by
  rw [cmdPrompt, slot_debug installed.alloced]
  rfl

/-- What a line does in some node: it fails, or it calls what the user may call. -/
theorem Shell.Inv.executeReal (installed : Installed doc cmdvec) (inv : shell.Inv iPriority)
    (other : shell.node ≠ .debug) (vline : List Text) (outcome : Status) :
    Ends (executeReal cmdvec iPriority vline outcome shell) fun result =>
      result.1.Inv iPriority ∧ (result.2.done = true ∨ result.1.node = shell.node) := by
  have sound : ∀ element, some element ∈ (commands shell.node).map
      (fun cmd => some (cmd.element doc)) → element.Sound := by
    intro element member
    obtain ⟨cmd, _, same⟩ := List.mem_map.1 member
    obtain rfl := Option.some.inj same
    exact cmd.element_sound doc
  rw [Command.executeReal, installed.vector _ other, ok_bind, ends_bind]
  refine (cmdExecuteCommandReal_sound _ sound vline iPriority).mono fun dispatch runs => ?_
  cases dispatch with
  | failed status =>
      rw [ends_pure]
      exact ⟨inv, .inr rfl⟩
  | run element argv =>
      obtain ⟨member, level, -⟩ := runs element argv rfl
      obtain ⟨cmd, _, same⟩ := List.mem_map.1 member
      obtain rfl := Option.some.inj same
      rw [ends_pure]
      exact ⟨inv.call level outcome, shell.call_node _ outcome⟩

/-- The nodes with commands, and the one that is not installed. -/
def Commanding (node : VtyNode) : Prop :=
  node = .view ∨ node = .enable ∨ node = .config ∨ node = .debug

/-- Executing the words of a line keeps the session behind the login. -/
theorem Shell.Inv.cmdExecuteCommand (installed : Installed doc cmdvec) (inv : shell.Inv iPriority)
    (commanding : Commanding shell.node) (vline : List Text) (outcome : Status) :
    Outcome iPriority (cmdExecuteCommand cmdvec iPriority vline outcome shell) fun result =>
      ∃ after, result = some after ∧ after.1.Inv iPriority := by
  rw [Command.cmdExecuteCommand]
  split_ifs
  · refine .inl ?_
    rw [ends_bind]
    refine ((inv.move (by simp [VtyNode.LoggingIn]) (by decide) shell.status).executeReal installed
      (show VtyNode.enable ≠ .debug by decide) vline.tail outcome).mono fun result after => ?_
    rw [ends_pure]
    exact ⟨_, rfl, inv.past, inv.debug, after.1.called⟩
  · by_cases debug : shell.node = .debug
    · refine .inr ⟨inv.debug debug, ?_⟩
      rw [Command.executeReal, debug, installed.debug_vector]
      rfl
    · refine .inl ?_
      rw [ends_bind]
      refine (inv.executeReal installed debug vline outcome).mono fun result after => ?_
      have ends : result.2.done = true ∨ nodeType result.1.node ≤ nodeType .config := by
        refine after.2.imp_right fun same => ?_
        rw [same]
        rcases commanding with node | node | node | node
        · simp [node, nodeType]
        · simp [node, nodeType]
        · simp [node, nodeType]
        · exact absurd node debug
      dsimp only
      rw [fallback, if_pos ends, ends_pure]
      refine ⟨_, rfl, ?_⟩
      rw [if_pos rfl]
      exact after.1

/-- Executing a line does. -/
theorem Shell.Inv.executeCommand (installed : Installed doc cmdvec) (inv : shell.Inv iPriority)
    (commanding : Commanding shell.node) (buf : Text) (outcome : Status) :
    Outcome iPriority (executeCommand cmdvec iPriority buf outcome shell) fun result =>
      ∃ after, result = some after ∧ after.Inv iPriority := by
  rw [Command.executeCommand]
  cases cmdMakeStrvec buf with
  | none => exact .pure ⟨shell, rfl, inv⟩
  | some vline =>
      refine (inv.cmdExecuteCommand installed commanding vline outcome).bind fun result found => ?_
      obtain ⟨after, rfl, inv⟩ := found
      exact .pure ⟨after.1, rfl, inv⟩

/-- So does entering one, whatever the login thread has to do with it. -/
theorem Shell.Inv.executeLine (installed : Installed doc cmdvec) (inv : shell.Inv iPriority)
    (buf : Text) (outcome : Status) :
    Outcome iPriority (executeLine cmdvec iPriority buf outcome shell) fun result =>
      ∃ after, result = some after ∧ after.Inv iPriority := by
  rw [Command.executeLine]
  cases reached : shell.node with
  | user | auth => exact absurd (by simp [VtyNode.LoggingIn, reached]) inv.past
  | authEnable =>
      exact .pure ⟨_, rfl, inv.move (by simp [VtyNode.LoggingIn, Vty.enableAuth]) (by
        simp [Vty.enableAuth]) _⟩
  | changePasswd =>
      refine .pure ⟨_, rfl, inv.move ?_ ?_ _⟩
      · split_ifs <;> simp [VtyNode.LoggingIn]
      · split_ifs <;> decide
  | changePasswdAgain =>
      exact .pure ⟨_, rfl, inv.move (by simp [VtyNode.LoggingIn]) (by decide) _⟩
  | view => exact inv.executeCommand installed (.inl reached) buf outcome
  | enable => exact inv.executeCommand installed (.inr (.inl reached)) buf outcome
  | config => exact inv.executeCommand installed (.inr (.inr (.inl reached))) buf outcome
  | debug => exact inv.executeCommand installed (.inr (.inr (.inr reached))) buf outcome

/-- The prompt changes nothing; only that of `DEBUG_NODE` fails. -/
theorem Shell.Inv.vtyPrompt (installed : Installed doc cmdvec) (inv : shell.Inv iPriority) :
    Outcome iPriority (vtyPrompt cmdvec shell) fun result =>
      ∃ after, result = some after ∧ after.Inv iPriority := by
  rw [Command.vtyPrompt]
  by_cases debug : shell.node = .debug
  · refine .inr ⟨inv.debug debug, ?_⟩
    rw [debug, installed.debug_prompt]
    rfl
  · rw [installed.prompt _ debug]
    exact .pure ⟨shell, rfl, inv⟩

/-- Help and completion change nothing; only in `DEBUG_NODE` they fail. -/
theorem Shell.Inv.lookUpVector (installed : Installed doc cmdvec) (inv : shell.Inv iPriority)
    (vline : List Text) :
    Outcome iPriority (lookUpVector cmdvec vline shell) fun result =>
      ∃ after, result = some after ∧ after.Inv iPriority := by
  have looked (node : VtyNode) (reached : shell.node = node) :
      Outcome iPriority (cmdNodeVector cmdvec
        (if cmdTryDoShortcut node vline.head? then .enable else node)) fun _ => True := by
    split_ifs
    · rw [installed.vector _ (by decide)]
      exact .pure trivial
    · by_cases debug : node = .debug
      · subst debug
        rw [installed.debug_vector]
        exact .inr ⟨inv.debug reached, rfl⟩
      · rw [installed.vector _ debug]
        exact .pure trivial
  rw [Command.lookUpVector]
  cases reached : shell.node with
  | user | auth | authEnable | changePasswd | changePasswdAgain => exact .pure ⟨shell, rfl, inv⟩
  | view | enable | config | debug =>
      exact (looked _ reached).bind fun _ _ => inv.vtyPrompt installed

/-- What a user types keeps the invariant. -/
theorem Shell.Inv.run (installed : Installed doc cmdvec) (inv : shell.Inv iPriority)
    (action : ShellAction) :
    Outcome iPriority (action.run cmdvec iPriority shell) fun result =>
      ∃ after, result = some after ∧ after.Inv iPriority := by
  cases action with
  | line buf outcome =>
      refine (inv.executeLine installed buf outcome).bind fun result found => ?_
      obtain ⟨after, rfl, inv⟩ := found
      dsimp only
      split_ifs
      · exact .pure ⟨after, rfl, inv⟩
      · exact inv.vtyPrompt installed
  | downLevel => exact inv.configExit.vtyPrompt installed
  | endConfig =>
      have moved : shell.endConfig.Inv iPriority := by
        unfold Shell.endConfig
        split_ifs
        · exact inv.move (by simp [VtyNode.LoggingIn]) (by decide) _
        · exact inv
      exact moved.vtyPrompt installed
  | lookUp vline => exact inv.lookUpVector installed vline

/-- Whatever the user does, the session stays behind the login or reads behind the vector. -/
theorem Shell.Inv.runActions (installed : Installed doc cmdvec) (inv : shell.Inv iPriority)
    (actions : List ShellAction) :
    Outcome iPriority (runActions cmdvec iPriority shell actions) fun result =>
      ∃ after, result = some after ∧ after.Inv iPriority := by
  induction actions generalizing shell with
  | nil => exact .pure ⟨shell, rfl, inv⟩
  | cons action later inductionHypothesis =>
      refine (inv.run installed action).bind fun result found => ?_
      obtain ⟨after, rfl, inv⟩ := found
      exact inductionHypothesis inv

end Inv

section Debug

variable {iPriority : Int} {doc : CliCmd → Text} {cmdvec : CVector CmdNode}

/-- A place takes a word: as its argument, or spelled out. -/
def Item.takes (command : Text) (item : Item) : Bool :=
  match argumentOf item.words with
  | some str => takesArgument str command
  | none => item.words.any fun text => literal text && sameText command text

/-- The first places of a command take the words. -/
def takesItems : List Item → List Text → Bool
  | _, [] => true
  | [], _ :: _ => false
  | item :: items, command :: later => item.takes command && takesItems items later

/-- The words at a place of an installed command are those of its item. -/
theorem descvec_element (cmd : CliCmd) (index : Nat) :
    ((cmd.element doc).descvec index).map Desc.cmd =
      (cmd.items[index]?.map Item.words).getD [] := by
  have shape := congrArg (fun places => places[index]?) (describeItems_cmd cmd.items (doc cmd))
  simp only [List.getElem?_map] at shape
  rw [← shape, CmdElement.descvec]
  change _ = (Option.map (List.map Desc.cmd) (cmd.element doc).strvec[index]?).getD []
  cases (cmd.element doc).strvec[index]? <;> rfl

/-- A literal spells a place of an installed command if it is one of the words there. -/
theorem exactAt_element (cmd : CliCmd) (command : Text) (index : Nat) :
    (cmd.element doc).exactAt command index =
      ((cmd.items[index]?.map Item.words).getD []).any fun text =>
        literal text && sameText command text := by
  rw [← @descvec_element doc, Bool.eq_iff_iff, exactAt_iff]
  simp

/-- The argument at a place of an installed command is that of its item. -/
theorem argumentAt_element (cmd : CliCmd) (index : Nat) :
    (cmd.element doc).argumentAt index =
      argumentOf ((cmd.items[index]?.map Item.words).getD []) := by
  rw [CmdElement.argumentAt, descvec_element]

/-- An installed command takes the words that its items take. -/
theorem takes_element (cmd : CliCmd) (words : List Text) (index : Nat) :
    (cmd.element doc).takes index words = takesItems (cmd.items.drop index) words := by
  induction words generalizing index with
  | nil => cases cmd.items.drop index <;> rfl
  | cons command later inductionHypothesis =>
      rw [CmdElement.takes, CmdElement.takesAt, argumentAt_element, exactAt_element,
        inductionHypothesis]
      by_cases inside : index < cmd.items.length
      · rw [List.drop_eq_getElem_cons inside, List.getElem?_eq_getElem inside]
        rfl
      · rw [List.getElem?_eq_none (not_lt.1 inside), List.drop_eq_nil_of_le (not_lt.1 inside)]
        rfl

/-- Without options every place of a template counts. -/
theorem cmdCmdsize_eq {strvec : List (List Desc)}
    (required : ∀ descvec ∈ strvec, ∀ desc ∈ descvec, cmdOption desc.cmd = false) :
    cmdCmdsize strvec = strvec.length := by
  induction strvec using cmdCmdsize.induct with
  | case1 => rfl
  | case2 desc later option =>
      have plain := required [desc] List.mem_cons_self desc (List.mem_singleton_self desc)
      rw [option] at plain
      cases plain
  | case3 desc later option inductionHypothesis =>
      rw [cmdCmdsize, if_neg option, List.length_cons,
        inductionHypothesis fun other member => required other (List.mem_cons_of_mem _ member)]
  | case4 descvec later other inductionHypothesis =>
      rw [cmdCmdsize, List.length_cons,
        inductionHypothesis fun other member => required other (List.mem_cons_of_mem _ member)]
      exact other

/-- No command may leave out a word. -/
theorem required_words (cmd : CliCmd) :
    (cmd.items.all fun item => item.words.all fun word => !cmdOption word) = true := by
  cases cmd <;> decide +kernel

/-- The size of an installed command is the number of its items. -/
theorem cmdsize_element (cmd : CliCmd) : (cmd.element doc).cmdsize = cmd.items.length := by
  have shape := describeItems_cmd cmd.items (doc cmd)
  have size := congrArg List.length shape
  rw [List.length_map, List.length_map] at size
  refine (cmdCmdsize_eq fun descvec member desc listed => ?_).trans size
  have place := List.mem_map_of_mem (f := List.map Desc.cmd) member
  rw [shape] at place
  obtain ⟨item, inside, same⟩ := List.mem_map.1 place
  have required := List.all_eq_true.1 (List.all_eq_true.1 (required_words cmd) item inside) desc.cmd
    (by rw [same]; exact List.mem_map_of_mem listed)
  simpa using required

/-- A word that a place takes could leave the other place. -/
def Item.meets (item other : Item) : Bool :=
  match argumentOf item.words with
  | some str => argumentOf other.words = some str
  | none => item.words.any fun text => other.words.any fun word => sameText text word

/-- A line that the places take could leave the others. -/
def mayMeet : List Item → List Item → Bool
  | [], _ => true
  | _ :: _, [] => false
  | item :: items, other :: others => item.meets other && mayMeet items others

/-- As long as the others may be left, they have the arguments of the places. -/
def leadsOver : List Item → List Item → Bool
  | [], _ => true
  | _, [] => true
  | item :: items, other :: others =>
      ((argumentOf item.words).all fun str => argumentOf other.words = some str) &&
        (!item.meets other || leadsOver items others)

/-- A command that goes along has a place that the word leaves. -/
theorem meets_of_goesAlong {cmd other : CliCmd} {command : Text} {index : Nat}
    (inside : index < cmd.items.length)
    (taken : (cmd.element doc).takesAt command index = true)
    (along : (cmd.element doc).goesAlong command index (other.element doc) = true) :
    ∃ within : index < other.items.length, cmd.items[index].meets other.items[index] = true := by
  rw [CmdElement.takesAt, argumentAt_element, exactAt_element] at taken
  rw [CmdElement.goesAlong, argumentAt_element, argumentAt_element, exactAt_element] at along
  rw [List.getElem?_eq_getElem inside] at taken along
  have within : index < other.items.length := by
    by_contra outside
    rw [List.getElem?_eq_none (not_lt.1 outside)] at along
    dsimp only [Option.map_some, Option.getD_some] at along
    split at along <;> simp [argumentOf] at along
  refine ⟨within, ?_⟩
  rw [List.getElem?_eq_getElem within] at along
  rw [Item.meets]
  dsimp only [Option.map_some, Option.getD_some] at taken along
  cases place : argumentOf cmd.items[index].words with
  | some str => simpa [place] using along
  | none =>
      rw [place] at taken along
      simp only [List.any_eq_true, Bool.and_eq_true, sameText_iff] at taken along ⊢
      obtain ⟨text, listed, -, same⟩ := taken
      obtain ⟨word, there, -, equal⟩ := along
      exact ⟨text, listed, word, there, same.symm.trans equal⟩

/-- A line that a command takes can leave another one only if their items allow it. -/
theorem mayMeet_of_along {cmd other : CliCmd} {words : List Text} {index : Nat}
    (full : (cmd.items.drop index).length ≤ words.length)
    (taken : (cmd.element doc).takes index words = true)
    (along : (cmd.element doc).along (other.element doc) index words = true) :
    mayMeet (cmd.items.drop index) (other.items.drop index) = true := by
  induction words generalizing index with
  | nil =>
      rw [List.eq_nil_of_length_eq_zero (Nat.le_zero.1 full)]
      rfl
  | cons command later inductionHypothesis =>
      obtain ⟨here, taken⟩ := Bool.and_eq_true_iff.1 taken
      obtain ⟨joins, along⟩ := Bool.and_eq_true_iff.1 along
      by_cases inside : index < cmd.items.length
      · obtain ⟨within, meets⟩ := meets_of_goesAlong inside here joins
        rw [List.drop_eq_getElem_cons inside] at full ⊢
        rw [List.drop_eq_getElem_cons within, mayMeet, meets, Bool.true_and]
        exact inductionHypothesis (Nat.succ_le_succ_iff.1 full) taken along
      · rw [List.drop_eq_nil_of_le (not_lt.1 inside)]
        rfl

/-- Commands over which the places lead are left by none but their arguments. -/
theorem leads_element {cmd : CliCmd} {words : List Text} {index : Nat} {v : CmdVector CliFunc}
    (taken : (cmd.element doc).takes index words = true)
    (lead : ∀ element, some element ∈ v → ∃ other : CliCmd, element = other.element doc ∧
      leadsOver (cmd.items.drop index) (other.items.drop index) = true) :
    (cmd.element doc).Leads v index words := by
  induction words generalizing index v with
  | nil => trivial
  | cons command later inductionHypothesis =>
      obtain ⟨here, taken⟩ := Bool.and_eq_true_iff.1 taken
      have inside : index < cmd.items.length := by
        have place := CmdElement.lt_of_hit (hit_of_takesAt here)
        have shape := congrArg List.length (describeItems_cmd cmd.items (doc cmd))
        rw [List.length_map, List.length_map] at shape
        exact place.trans_eq shape
      constructor
      · intro str place element listed
        obtain ⟨other, rfl, leads⟩ := lead element listed
        rw [Option.mem_def, argumentAt_element, List.getElem?_eq_getElem inside] at place
        by_cases within : index < other.items.length
        · rw [List.drop_eq_getElem_cons inside, List.drop_eq_getElem_cons within, leadsOver,
            Bool.and_eq_true, show argumentOf cmd.items[index].words = some str from place] at leads
          refine .inl ?_
          rw [argumentAt_element, List.getElem?_eq_getElem within]
          simpa using leads.1
        · have none : ((other.element doc).descvec index).map Desc.cmd = [] := by
            rw [descvec_element, List.getElem?_eq_none (not_lt.1 within)]
            rfl
          exact .inr (List.map_eq_nil_iff.1 none)
      · refine inductionHypothesis taken fun element left => ?_
        obtain ⟨listed, joins⟩ := mem_filter_slots.1 left
        obtain ⟨other, rfl, leads⟩ := lead element listed
        obtain ⟨within, meets⟩ := meets_of_goesAlong inside here joins
        rw [List.drop_eq_getElem_cons inside, List.drop_eq_getElem_cons within, leadsOver, meets,
          Bool.not_true, Bool.false_or, Bool.and_eq_true] at leads
        exact ⟨other, rfl, leads.2⟩

/-- No more words are taken than there are items. -/
theorem length_le_of_takesItems {items : List Item} {words : List Text}
    (taken : takesItems items words = true) : words.length ≤ items.length := by
  induction words generalizing items with
  | nil => exact Nat.zero_le _
  | cons command later inductionHypothesis =>
      cases items with
      | nil => cases taken
      | cons item items =>
          exact Nat.succ_le_succ (inductionHypothesis (Bool.and_eq_true_iff.1 taken).2)

/-- The check of the commands of a node: a line that one of them takes is too short for the others
that it leaves, and does not begin with `do`. -/
def apart (cmds : List CliCmd) : Bool :=
  cmds.all fun cmd => !takesItems cmd.items [chars "do"] && cmds.all fun other =>
    leadsOver cmd.items other.items &&
      (cmd == other || !mayMeet cmd.items other.items ||
        decide (cmd.items.length < other.items.length))

/-- In every node a line that one command takes is too short for the others that it leaves. -/
theorem apart_commands (ntype : VtyNode) : apart (commands ntype) = true := by
  cases ntype <;> decide +kernel

/-- No command is installed twice in a node. -/
theorem nodup_commands (ntype : VtyNode) : (commands ntype).Nodup := by
  cases ntype <;> decide

/-- A line that a command of a node takes calls its function, or the level is too low. -/
theorem executeReal_taken (installed : Installed doc cmdvec) {shell : Shell}
    (other : shell.node ≠ .debug) {cmd : CliCmd} (listed : cmd ∈ commands shell.node)
    {words : List Text} (taken : takesItems cmd.items words = true)
    (full : cmd.items.length ≤ words.length) (outcome : Status) :
    executeReal cmdvec iPriority words outcome shell =
      .ok (if iPriority < cmd.defun.level then (shell, .errPriorityLower)
        else shell.call cmd.defun.func outcome) := by
  obtain ⟨front, rear, cut⟩ := List.append_of_mem listed
  have short : words.length < cmdArgcMax :=
    (length_le_of_takesItems taken).trans_lt (by cases cmd <;> decide)
  have checked := (Bool.and_eq_true_iff.1
    (List.all_eq_true.1 (apart_commands shell.node) cmd listed)).2
  have takes : (cmd.element doc).takes 0 words = true := by
    rw [takes_element]
    exact taken
  have leads : (cmd.element doc).Leads
      ((commands shell.node).map fun cmd => some (cmd.element doc)) 0 words := by
    refine leads_element takes fun element member => ?_
    obtain ⟨another, also, same⟩ := List.mem_map.1 member
    exact ⟨another, (Option.some.inj same).symm,
      (Bool.and_eq_true_iff.1 (List.all_eq_true.1 checked another also)).1⟩
  rw [cut, List.map_append, List.map_cons] at leads
  have runs := taken_line_runs (front.map fun cmd => some (cmd.element doc))
    (rear.map fun cmd => some (cmd.element doc)) (cmd.element doc) words iPriority takes leads
    ((cmdsize_element cmd).trans_le full) short (by
      intro element member along
      rw [← List.map_append] at member
      obtain ⟨another, inside, same⟩ := List.mem_map.1 member
      obtain rfl := Option.some.inj same
      have differs := nodup_commands shell.node
      rw [cut, List.nodup_middle, List.nodup_cons] at differs
      have distinct : cmd ≠ another := by
        rintro rfl
        exact differs.1 inside
      have also : another ∈ commands shell.node := by
        rw [cut]
        simp only [List.mem_append, List.mem_cons] at inside ⊢
        tauto
      have longer := (Bool.and_eq_true_iff.1 (List.all_eq_true.1 checked another also)).2
      have meets : mayMeet (cmd.items.drop 0) (another.items.drop 0) = true :=
        mayMeet_of_along full takes along
      rw [List.drop_zero, List.drop_zero] at meets
      rw [meets, beq_eq_false_iff_ne.2 distinct] at longer
      rw [cmdsize_element]
      exact (length_le_of_takesItems taken).trans_lt (by simpa using longer))
  have level : (cmd.element doc).level = cmd.defun.level := rfl
  rw [level] at runs
  rw [executeReal, installed.vector _ other, ok_bind, cut, List.map_append, List.map_cons, runs,
    ok_bind]
  by_cases low : iPriority < cmd.defun.level
  · rw [if_pos low, if_pos low]
    rfl
  · rw [if_neg low, if_neg low]
    rfl

/-- No command of a node begins with `do`. -/
theorem shortcut_taken {node : VtyNode} {cmd : CliCmd} (listed : cmd ∈ commands node)
    {words : List Text} (taken : takesItems cmd.items words = true) :
    cmdTryDoShortcut node words.head? = false := by
  cases words with
  | nil => rfl
  | cons command later =>
      have checked := (Bool.and_eq_true_iff.1
        (List.all_eq_true.1 (apart_commands node) cmd listed)).1
      have differs : command ≠ chars "do" := by
        rintro rfl
        cases items : cmd.items with
        | nil => rw [items] at taken; cases taken
        | cons item more =>
            rw [items] at taken checked
            rw [takesItems, (Bool.and_eq_true_iff.1 taken).1] at checked
            simp [takesItems] at checked
      simp [cmdTryDoShortcut, differs]

/-- A line that a command of a node takes is executed. -/
theorem executeCommand_taken (installed : Installed doc cmdvec) {shell : Shell} {cmd : CliCmd}
    (listed : cmd ∈ commands shell.node) {buf : Text} {words : List Text}
    (cut : cmdMakeStrvec buf = some words) (taken : takesItems cmd.items words = true)
    (full : cmd.items.length ≤ words.length) (outcome : Status) :
    executeCommand cmdvec iPriority buf outcome shell =
      .ok (some (if iPriority < cmd.defun.level then shell
        else (shell.call cmd.defun.func outcome).1)) := by
  have commanding : nodeType shell.node ≤ nodeType .config ∧ shell.node ≠ .debug := by
    cases node : shell.node
    case debug | changePasswd | changePasswdAgain => rw [node] at listed; cases listed
    all_goals exact ⟨by decide, by decide⟩
  rw [executeCommand, cut]
  dsimp only
  rw [cmdExecuteCommand, shortcut_taken listed taken, if_neg Bool.false_ne_true,
    executeReal_taken installed commanding.2 listed taken full outcome, ok_bind]
  by_cases low : iPriority < cmd.defun.level
  · rw [if_pos low, if_pos low]
    dsimp only
    rw [fallback, if_pos (.inr commanding.1), if_pos rfl]
    rfl
  · rw [if_neg low, if_neg low]
    have ends : (shell.call cmd.defun.func outcome).2.done = true ∨
        nodeType (shell.call cmd.defun.func outcome).1.node ≤ nodeType .config := by
      refine (shell.call_node cmd.defun.func outcome).imp_right fun same => ?_
      rw [same]
      exact commanding.1
    dsimp only
    rw [fallback, if_pos ends, if_pos rfl]
    rfl

/-- A word by itself. -/
theorem cut_word {word : Text} (isWord : IsWord word) : cmdMakeStrvec word = some [word] :=
  cmdMakeStrvec_of_spells (List.cons_ne_nil _ _)
    ⟨[], [(word, [])], by simp, by simp [layout], ⟨isWord, by simp [IsGap]⟩, rfl⟩

/-- Two words with a space between them. -/
theorem cut_words {first second : Text} (isFirst : IsWord first) (isSecond : IsWord second) :
    cmdMakeStrvec (first ++ 0x20 :: second) = some [first, second] :=
  cmdMakeStrvec_of_spells (List.cons_ne_nil _ _)
    ⟨[], [(first, [0x20]), (second, [])], by simp, by simp [layout],
      ⟨isFirst, by simp [IsGap]; decide, by simp, isSecond, by simp [IsGap]⟩, rfl⟩

/-- The lines that lead to `DEBUG_NODE`: `enable`, a password and `debug-hide 0906`. -/
def toDebug : List ShellAction :=
  [.line (chars "enable") .success, .line [] .success,
    .line (chars "debug-hide" ++ 0x20 :: chars "0906") .success]

/-- A check of what a word is made of. -/
theorem isWord_of_check {word : Text} (check : (!word.isEmpty && word.all inWord) = true) :
    IsWord word := by
  simpa [IsWord] using check

/-- `enable` leads to the password of the enable node. -/
theorem execute_enable (installed : Installed doc cmdvec) (allowed : 0 ≤ iPriority) :
    executeCommand cmdvec iPriority (chars "enable") .success .initial =
      .ok (some ⟨.authEnable, .normal, [.enable]⟩) := by
  have listed : CliCmd.configEnableCmd ∈ commands Shell.initial.node := by decide
  rw [executeCommand_taken installed listed (cut_word (isWord_of_check (by decide +kernel)))
    (by decide +kernel) (by decide),
    if_neg (show ¬ iPriority < CliCmd.configEnableCmd.defun.level from not_lt.2 allowed)]
  rfl

/-- The password of `debug-hide` leads to `DEBUG_NODE`. -/
theorem execute_debug (installed : Installed doc cmdvec) (allowed : 15 ≤ iPriority)
    (called : List CliFunc) :
    executeCommand cmdvec iPriority (chars "debug-hide" ++ 0x20 :: chars "0906") .success
        ⟨.enable, .normal, called⟩ =
      .ok (some ⟨.debug, .normal, called ++ [.debug]⟩) := by
  have listed : CliCmd.debugCmd ∈ commands (Shell.mk .enable .normal called).node := by
    change _ ∈ commands .enable
    decide
  rw [executeCommand_taken installed listed (cut_words (isWord_of_check (by decide +kernel))
    (isWord_of_check (by decide +kernel))) (by decide +kernel) (by decide),
    if_neg (show ¬ iPriority < CliCmd.debugCmd.defun.level from not_lt.2 allowed)]
  rfl

/-- The prompt of `DEBUG_NODE` is read outside of the vector of the nodes. -/
theorem runActions_toDebug (installed : Installed doc cmdvec) (allowed : 15 ≤ iPriority) :
    runActions cmdvec iPriority .initial toDebug = .error .read := by
  have prompt (shell : Shell) (other : shell.node ≠ .debug) :
      vtyPrompt cmdvec shell = .ok (some shell) := by
    rw [vtyPrompt, installed.prompt _ other]
    rfl
  have enable : (ShellAction.line (chars "enable") .success).run cmdvec iPriority .initial =
      .ok (some ⟨.authEnable, .normal, [.enable]⟩) := by
    rw [ShellAction.run, executeLine]
    change executeCommand _ _ _ _ _ >>= _ = _
    rw [execute_enable installed (by omega), ok_bind]
    exact prompt _ (by simp)
  have password : (ShellAction.line [] .success).run cmdvec iPriority
      ⟨.authEnable, .normal, [.enable]⟩ = .ok (some ⟨.enable, .normal, [.enable]⟩) :=
    prompt ⟨.enable, .normal, [.enable]⟩ (by simp)
  have debug : (ShellAction.line (chars "debug-hide" ++ 0x20 :: chars "0906") .success).run cmdvec
      iPriority ⟨.enable, .normal, [.enable]⟩ = .error .read := by
    rw [ShellAction.run, executeLine]
    change executeCommand _ _ _ _ _ >>= _ = _
    rw [execute_debug installed allowed, ok_bind]
    change vtyPrompt cmdvec ⟨.debug, .normal, _⟩ = _
    rw [vtyPrompt, installed.debug_prompt]
    rfl
  rw [toDebug, runActions, enable, ok_bind]
  dsimp only
  rw [runActions, password, ok_bind]
  dsimp only
  rw [runActions, debug]
  rfl

end Debug

/-- A line does in `vty_execute` what it does here: the effect of its command is one that does not
lead back to the login. -/
theorem vtyExecute_of_executeLine {editor : LineEditor} (vty : Vty editor) (input : AuthInput)
    {iPriority : Int} {doc : CliCmd → Text} {cmdvec : CVector CmdNode}
    (installed : Installed doc cmdvec) {shell after : Shell} (inv : shell.Inv iPriority)
    (node : vty.node = shell.node) (status : vty.status = shell.status) {outcome : Status}
    (ended : executeLine cmdvec iPriority (editor.text vty.line) outcome shell = .ok (some after)) :
    ∃ command : CommandEffect, (vty.vtyExecute input command).node = after.node ∧
      (vty.vtyExecute input command).status = after.status := by
  have past : ¬ after.node.LoggingIn := by
    rcases inv.executeLine installed (editor.text vty.line) outcome with
      ⟨result, same, _, rfl, holds⟩ | ⟨-, stopped⟩
    · rw [ended] at same
      obtain rfl := Option.some.inj (Except.ok.inj same)
      exact holds.past
    · rw [ended] at stopped
      cases stopped
  refine ⟨⟨⟨after.node, past⟩, after.status⟩, ?_⟩
  rw [executeLine] at ended
  rw [Vty.vtyExecute, node]
  cases reached : shell.node with
  | user | auth => exact absurd (by simp [VtyNode.LoggingIn, reached]) inv.past
  | authEnable =>
      rw [reached] at ended node
      obtain rfl := Option.some.inj (Except.ok.inj ended)
      simp only [Vty.vtyAuth, node, Vty.edit]
      exact ⟨trivial, status⟩
  | changePasswd =>
      rw [reached] at ended node
      obtain rfl := Option.some.inj (Except.ok.inj ended)
      simp only [Vty.changeVtyPasswd, node, Vty.edit, if_true]
      exact ⟨trivial, status⟩
  | changePasswdAgain =>
      rw [reached] at ended node
      obtain rfl := Option.some.inj (Except.ok.inj ended)
      simp only [Vty.changeVtyPasswd, node, Vty.edit]
      exact ⟨rfl, status⟩
  | view | enable | config | debug => exact ⟨rfl, rfl⟩

/-- A line that a command of its node takes, word for word in whatever case, with whatever its
arguments take and with whatever white space, calls the function of that command and no other; if
the user's level is too low it leaves the session as it is. -/
theorem installed_line_runs (doc : CliCmd → Text) (iPriority : Int) :
    Ends (cmdInit doc) fun result => ∃ cmdvec, result = some cmdvec ∧
      ∀ shell cmd, cmd ∈ commands shell.node → ∀ buf words, cmdMakeStrvec buf = some words →
        takesItems cmd.items words = true → cmd.items.length ≤ words.length → ∀ outcome,
          executeCommand cmdvec iPriority buf outcome shell =
            .ok (some (if iPriority < cmd.defun.level then shell
              else (shell.call cmd.defun.func outcome).1)) := by
  refine (installed_of_init doc).mono fun result found => ?_
  obtain ⟨cmdvec, rfl, installed⟩ := found
  exact ⟨cmdvec, rfl, fun shell cmd listed buf words cut taken full outcome =>
    executeCommand_taken installed listed cut taken full outcome⟩

/-- A line with arguments: the number is in the range, the address is complete. -/
example : takesItems CliCmd.pingCmdC.items
    [chars "PING", chars "10.0.0.1", chars "count", chars "5"] = true := by
  decide +kernel

/-- Whatever a user types behind the login, the session stays in the vector of the nodes if and
only if the user may not call `debug`. -/
theorem session_stays_inside_iff (doc : CliCmd → Text) (iPriority : Int) :
    Ends (cmdInit doc) fun result => ∃ cmdvec, result = some cmdvec ∧
      ((∀ actions, Ends (runActions cmdvec iPriority .initial actions) fun _ => True) ↔
        iPriority < 15) := by
  refine (installed_of_init doc).mono fun result found => ?_
  obtain ⟨cmdvec, rfl, installed⟩ := found
  refine ⟨cmdvec, rfl, fun safe => ?_, fun low actions => ?_⟩
  · by_contra high
    have ends := safe toDebug
    rw [runActions_toDebug installed (not_lt.1 high)] at ends
    exact ends_error _ _ ends
  · rcases (inv_initial iPriority).runActions installed actions with ends | ⟨high, -⟩
    · exact ends.mono fun _ _ => trivial
    · omega

/-- No command asks for more than level 15. -/
theorem level_le (cmd : CliCmd) : cmd.defun.level ≤ 15 := by
  cases cmd <;> decide

/-- Whatever a user types behind the login, no failed assertion ends the program: the session goes
on, has called no function but those of commands that the user's level allows, and does not lead
back to the login; or it has left the vector of the nodes, and then the user's level allows every
command. -/
theorem session_calls_allowed (doc : CliCmd → Text) (iPriority : Int) :
    Ends (cmdInit doc) fun result => ∃ cmdvec, result = some cmdvec ∧ ∀ actions,
      (∃ shell, runActions cmdvec iPriority .initial actions = .ok (some shell) ∧
        ¬ shell.node.LoggingIn ∧ (shell.node = .debug → 15 ≤ iPriority) ∧
        ∀ func ∈ shell.called, ∃ cmd : CliCmd, cmd.defun.func = func ∧
          cmd.defun.level ≤ iPriority) ∨
      runActions cmdvec iPriority .initial actions = .error .read ∧
        ∀ cmd : CliCmd, cmd.defun.level ≤ iPriority := by
  refine (installed_of_init doc).mono fun result found => ?_
  obtain ⟨cmdvec, rfl, installed⟩ := found
  refine ⟨cmdvec, rfl, fun actions => ?_⟩
  rcases (inv_initial iPriority).runActions installed actions with ⟨last, ended, holds⟩ | ⟨high, stopped⟩
  · obtain ⟨shell, rfl, inv⟩ := holds
    exact .inl ⟨shell, ended, inv.past, inv.debug, inv.called⟩
  · exact .inr ⟨stopped, fun cmd => (level_le cmd).trans high⟩

end Rsu.Cli.Command
