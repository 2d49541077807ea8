import Mathlib.Data.List.ReduceOption
import Rsu.Cli.Filter

/-!
# The command that a line executes

`cmd_execute_command_real` narrows the commands of a node word by word. The one that is left is
executed with the words of the line that are not literals of its template.
-/

namespace Rsu.Cli.Command

open Checked

/-- The return values of the commands. -/
inductive Status where
  /-- `CMD_SUCCESS` -/
  | success
  /-- `CMD_WARNING` -/
  | warning
  /-- `CMD_ERR_NO_MATCH` -/
  | errNoMatch
  /-- `CMD_ERR_AMBIGUOUS` -/
  | errAmbiguous
  /-- `CMD_ERR_INCOMPLETE` -/
  | errIncomplete
  /-- `CMD_ERR_EXEED_ARGC_MAX` -/
  | errExeedArgcMax
  /-- `CMD_ERR_NOTHING_TODO` -/
  | errNothingTodo
  /-- `CMD_COMPLETE_FULL_MATCH` -/
  | completeFullMatch
  /-- `CMD_COMPLETE_MATCH` -/
  | completeMatch
  /-- `CMD_COMPLETE_LIST_MATCH` -/
  | completeListMatch
  /-- `CMD_ERR_PRIORITY_LOWER` -/
  | errPriorityLower
  /-- `CMD_ERR_UNKNOWN` -/
  | errUnknown
  deriving DecidableEq

variable {Func : Type}

/-- What the loop over the words of a line comes to. -/
inductive Narrowed (Func : Type) where
  | stopped (status : Status)
  | reached (matchType : MatchType) (index : Nat) (cmdVector : CmdVector Func)

/-- The loop over the words of a line, from some word on. -/
def narrow (index : Nat) (matchType : MatchType) (cmdVector : CmdVector Func) :
    List Text → Narrowed Func
  | [] => .reached matchType index cmdVector
  | command :: later =>
      let (matchType, cmdVector) := cmdFilterByCompletion command cmdVector index
      if matchType = .varargMatch then .reached matchType index cmdVector
      else
        match isCmdAmbiguous command cmdVector index matchType with
        | .error ret => .stopped (if ret = 1 then .errAmbiguous else .errNoMatch)
        | .ok cmdVector => narrow (index + 1) matchType cmdVector later

/-- The condition under which a command counts as matched, and not as incomplete. -/
def CmdElement.ready (matchType : MatchType) (index : Nat) (element : CmdElement Func) : Bool :=
  matchType = .varargMatch || element.cmdsize ≤ index

/-- `CMD_ARGC_MAX` -/
def cmdArgcMax : Nat := 25

/-- What becomes of a word of the line. -/
inductive ArgUse where
  /-- It is a literal. -/
  | none
  /-- It is an argument. -/
  | plain
  /-- It is an argument, in lower case. -/
  | lower
  /-- It is an argument, and the arguments are not counted. -/
  | uncounted
  /-- It is an argument, and so are the words behind it. -/
  | rest
  deriving DecidableEq

/-- What a place of a template makes of the word. -/
def argUse : List Desc → ArgUse
  | [desc] =>
      if cmdVararg desc.cmd then .rest
      else if cmdVariable desc.cmd then .plain
      else if cmdOption desc.cmd || cmdMulti desc.cmd then
        if cmdOption desc.cmd && cmdVariable (desc.cmd.drop 1) then .uncounted else .lower
      else .none
  | _ => .lower

/-- `argv[argc++] = arg` -/
def pushArg (argv : List Text) (arg : Text) : Checked (List Text) := do
  writable cmdArgcMax argv.length 1
  return argv ++ [arg]

/-- The treatment of the arguments from some word on; `none` stands for too many of them. -/
def argumentsFrom (varflag : Bool) (places : List (List Desc)) (argv : List Text) :
    List Text → Checked (Option (List Text))
  | [] => return some argv
  | word :: later =>
      if varflag then do
        let argv ← pushArg argv word
        if cmdArgcMax ≤ argv.length then return none else argumentsFrom true places argv later
      else
        match places with
        | [] => .error .read
        | descvec :: places =>
            match argUse descvec with
            | .none =>
                if cmdArgcMax ≤ argv.length then return none
                else argumentsFrom false places argv later
            | .uncounted => do
                let argv ← pushArg argv word
                argumentsFrom false places argv later
            | use => do
                let argv ← pushArg argv (if use = .lower then lowered word else word)
                if cmdArgcMax ≤ argv.length then return none
                else argumentsFrom (use = .rest) places argv later

/-- What `cmd_execute_command_real` does: it fails, or calls the function of a command. -/
inductive Dispatch (Func : Type) where
  | failed (status : Status)
  | run (element : CmdElement Func) (argv : List Text)

/-- From the commands that are left on. -/
def choose (matchType : MatchType) (index : Nat) (cmdVector : CmdVector Func)
    (vline : List Text) (iPriority : Int) : Checked (Dispatch Func) :=
  match cmdVector.reduceOption.filter (CmdElement.ready matchType index) with
  | [] =>
      return .failed (if cmdVector.reduceOption = [] then .errNoMatch else .errIncomplete)
  | [element] =>
      if iPriority < element.level then return .failed .errPriorityLower
      else do
        let argv ← argumentsFrom false element.strvec [] vline
        return argv.elim (.failed .errExeedArgcMax) (.run element)
  | _ => return .failed .errAmbiguous

/-- `cmd_execute_command_real` for a user of some priority, up to the call of the function. -/
def cmdExecuteCommandReal (cmdVector : CmdVector Func) (vline : List Text) (iPriority : Int) :
    Checked (Dispatch Func) :=
  match narrow 0 .noMatch cmdVector vline with
  | .stopped status => return .failed status
  | .reached matchType index cmdVector => choose matchType index cmdVector vline iPriority

section Narrow

/-- What `cmd_filter_by_completion` leaves. -/
def hits (command : Text) (index : Nat) (v : CmdVector Func) : CmdVector Func :=
  v.map (Option.filter (CmdElement.hit command index))

/-- What `is_cmd_ambiguous` leaves of that. -/
def keeps (type : MatchType) (command : Text) (index : Nat) (v : CmdVector Func) :
    CmdVector Func :=
  (hits command index v).map (Option.filter (CmdElement.kept type command index))

/-- One word of the line. -/
theorem narrow_cons (index : Nat) (matchType : MatchType) (v : CmdVector Func) (command : Text)
    (later : List Text) {kind : MatchType} (found : best (kindsOf command index v) = kind)
    {counted : List Text} (counts : countedOf kind command index (hits command index v) = counted) :
    narrow index matchType v (command :: later) =
      if kind = .varargMatch then .reached .varargMatch index (hits command index v)
      else if Incomplete kind command counted then .stopped .errNoMatch
      else if kind.compares = true ∧ ¬ Agree counted then .stopped .errAmbiguous
      else narrow (index + 1) kind (keeps kind command index v) later := by
  subst counts
  rw [narrow, cmdFilterByCompletion_eq, found,
    show v.map (Option.filter (CmdElement.hit command index)) = hits command index v from rfl]
  dsimp only
  split_ifs with vararg incomplete differs
  · rw [vararg]
  · rw [isCmdAmbiguous_eq, if_pos incomplete]
    rfl
  · rw [isCmdAmbiguous_eq, if_neg incomplete, if_pos differs]
    rfl
  · rw [isCmdAmbiguous_eq, if_neg incomplete, if_neg differs]
    rfl

/-- A filter leaves what meets the test. -/
theorem mem_filter_slots {test : CmdElement Func → Bool} {v : CmdVector Func}
    {element : CmdElement Func} :
    some element ∈ v.map (Option.filter test) ↔ some element ∈ v ∧ test element = true := by
  constructor
  · intro member
    obtain ⟨slot, found, same⟩ := List.mem_map.1 member
    obtain ⟨rfl, passed⟩ := Option.filter_eq_some_iff.1 same
    exact ⟨found, passed⟩
  · rintro ⟨member, passed⟩
    exact List.mem_map.2 ⟨some element, member, Option.filter_eq_some_iff.2 ⟨rfl, passed⟩⟩

/-- A word leaves the commands that it hits. -/
theorem mem_hits {command : Text} {index : Nat} {v : CmdVector Func} {element : CmdElement Func} :
    some element ∈ hits command index v ↔
      some element ∈ v ∧ element.hit command index = true := by
  exact mem_filter_slots

/-- A kind of match leaves the commands that have it. -/
theorem mem_keeps {type : MatchType} {command : Text} {index : Nat} {v : CmdVector Func}
    {element : CmdElement Func} :
    some element ∈ keeps type command index v ↔
      some element ∈ v ∧ element.hit command index = true ∧
        element.kept type command index = true := by
  rw [keeps, mem_filter_slots, mem_hits, and_assoc]

/-- The word matches nowhere else. -/
theorem kindsOf_hits (command : Text) (index : Nat) (v : CmdVector Func) :
    kindsOf command index (hits command index v) = kindsOf command index v := by
  rw [kindsOf, kindsOf, hits, List.flatMap_map]
  congr 1
  funext slot
  cases slot with
  | none => rfl
  | some element =>
      cases kinds : element.kinds command index <;>
        simp [CmdElement.hit, Option.filter, kinds]

/-- Every word of a line fits the command. -/
def CmdElement.Fits (element : CmdElement Func) (index : Nat) (words : List Text) : Prop :=
  ∀ place word, words[place]? = some word → element.hit word (index + place) = true

theorem CmdElement.fits_nil (element : CmdElement Func) (index : Nat) :
    element.Fits index [] := by
  simp [CmdElement.Fits]

/-- Words fit in turn. -/
theorem CmdElement.fits_cons {element : CmdElement Func} {index : Nat} {word : Text}
    {later : List Text} (here : element.hit word index = true)
    (fits : element.Fits (index + 1) later) : element.Fits index (word :: later) := by
  rintro (_ | place) other found
  · obtain rfl := Option.some.inj found
    exact here
  · have behind := fits place other found
    rwa [Nat.add_right_comm] at behind

/-- What the loop over the words leaves: commands that all words fit, or all words up to one that
fits a variable number of arguments. -/
theorem narrow_reached {index : Nat} {matchType : MatchType} {v : CmdVector Func}
    {words : List Text} {kind : MatchType} {place : Nat} {left : CmdVector Func}
    (reached : narrow index matchType v words = .reached kind place left)
    (start : matchType ≠ .varargMatch) :
    ∃ front rear, words = front ++ rear ∧ place = index + front.length ∧
      (∀ element, some element ∈ left → some element ∈ v ∧ element.Fits index front) ∧
      (rear = [] ∧ kind ≠ .varargMatch ∨ kind = .varargMatch ∧ ∃ command later,
        rear = command :: later ∧ best (kindsOf command place left) = .varargMatch) := by
  induction words generalizing index matchType v with
  | nil =>
      rw [narrow] at reached
      cases reached
      exact ⟨[], [], rfl, rfl, fun element member => ⟨member, element.fits_nil _⟩,
        .inl ⟨rfl, start⟩⟩
  | cons command later inductionHypothesis =>
      rw [narrow_cons index matchType v command later rfl rfl] at reached
      split_ifs at reached with vararg incomplete differs
      · cases reached
        refine ⟨[], command :: later, rfl, rfl, fun element member => ?_, .inr ⟨rfl, command,
          later, rfl, ?_⟩⟩
        · exact ⟨(mem_hits.1 member).1, element.fits_nil _⟩
        · rw [kindsOf_hits, vararg]
      · obtain ⟨front, rear, rfl, rfl, inside, ends⟩ := inductionHypothesis reached vararg
        refine ⟨command :: front, rear, rfl, by rw [List.length_cons]; omega,
          fun element member => ?_, ends⟩
        obtain ⟨kept, fits⟩ := inside element member
        obtain ⟨before, hit, -⟩ := mem_keeps.1 kept
        exact ⟨before, CmdElement.fits_cons hit fits⟩

end Narrow

section Arguments

/-- What is known of a command that is left alone. -/
structure CmdElement.Sound (element : CmdElement Func) : Prop where
  /-- The template has at most as many places as there is room for arguments. -/
  few : element.strvec.length ≤ cmdArgcMax
  /-- A variable number of arguments is no alternative to a word. -/
  alone : ∀ descvec ∈ element.strvec, ∀ desc ∈ descvec, cmdVararg desc.cmd = true →
    descvec = [desc]

/-- The places are enough for the words, or one of them takes all words behind it. -/
def Covers (places : List (List Desc)) (words : List Text) : Prop :=
  words.length ≤ places.length ∨
    ∃ place < words.length, places[place]?.map argUse = some .rest

/-- The places behind one that takes a single word. -/
theorem Covers.tail {descvec : List Desc} {places : List (List Desc)} {word : Text}
    {later : List Text} (covers : Covers (descvec :: places) (word :: later))
    (single : argUse descvec ≠ .rest) : Covers places later := by
  rcases covers with short | ⟨place, inside, found⟩
  · exact .inl (by simpa using short)
  · cases place with
    | zero => exact absurd (Option.some.inj found) single
    | succ place => exact .inr ⟨place, by simpa using inside, found⟩

/-- Lower case is lower case. -/
theorem toLower_toLower : ∀ char, toLower (toLower char) = toLower char := by
  decide +kernel

theorem lowered_lowered (text : Text) : lowered (lowered text) = lowered text := by
  rw [lowered, lowered, List.map_map]
  exact List.map_congr_left fun char _ => toLower_toLower char

/-- Arguments that are words of the line, but for their case. -/
def Taken (words argv : List Text) : Prop :=
  (argv.map lowered).Sublist (words.map lowered)

/-- A word may be passed. -/
theorem Taken.push {words argv : List Text} (taken : Taken words argv) {arg word : Text}
    (same : lowered arg = lowered word) : Taken (words ++ [word]) (argv ++ [arg]) := by
  rw [Taken, List.map_append, List.map_append, List.map_singleton, List.map_singleton, same]
  exact taken.append (List.Sublist.refl _)

/-- A word may be left out. -/
theorem Taken.skip {words argv : List Text} (taken : Taken words argv) (word : Text) :
    Taken (words ++ [word]) argv := by
  rw [Taken, List.map_append]
  exact taken.trans (List.sublist_append_left _ _)

/-- What the treatment of the arguments ends with. -/
def ArgsOf (words : List Text) (result : Option (List Text)) : Prop :=
  ∀ argv ∈ result, argv.length ≤ cmdArgcMax ∧ Taken words argv

@[simp] theorem argsOf_none (words : List Text) : ArgsOf words none := by
  rintro argv ⟨⟩

@[simp] theorem ends_pushArg (argv : List Text) (arg : Text) (post : List Text → Prop) :
    Ends (pushArg argv arg) post ↔ argv.length < cmdArgcMax ∧ post (argv ++ [arg]) := by
  rw [pushArg, ends_bind, ends_writable, ends_pure, Nat.lt_iff_add_one_le]

/-- A word behind a variable number of arguments. -/
theorem argumentsFrom_true (places : List (List Desc)) (argv : List Text) (word : Text)
    (later : List Text) : argumentsFrom true places argv (word :: later) = (do
      let argv ← pushArg argv word
      if cmdArgcMax ≤ argv.length then return none
      else argumentsFrom true places argv later) := by
  cases places <;> rfl

/-- A word at a place of the template. -/
theorem argumentsFrom_false (descvec : List Desc) (places : List (List Desc)) (argv : List Text)
    (word : Text) (later : List Text) :
    argumentsFrom false (descvec :: places) argv (word :: later) =
      (match argUse descvec with
      | .none =>
          if cmdArgcMax ≤ argv.length then return none
          else argumentsFrom false places argv later
      | .uncounted => do
          let argv ← pushArg argv word
          argumentsFrom false places argv later
      | use => do
          let argv ← pushArg argv (if use = .lower then lowered word else word)
          if cmdArgcMax ≤ argv.length then return none
          else argumentsFrom (use = .rest) places argv later) := rfl

/-- Behind a variable number of arguments. -/
theorem argumentsFrom_rest {places : List (List Desc)} {argv before : List Text}
    (words : List Text) (room : argv.length < cmdArgcMax) (taken : Taken before argv) :
    Ends (argumentsFrom true places argv words) (ArgsOf (before ++ words)) := by
  induction words generalizing argv before with
  | nil =>
      rw [argumentsFrom, List.append_nil, ends_pure]
      rintro argv ⟨⟩
      exact ⟨room.le, taken⟩
  | cons word later inductionHypothesis =>
      rw [argumentsFrom_true, ends_bind, ends_pushArg]
      refine ⟨room, ?_⟩
      rw [ends_ite]
      refine ⟨fun _ => by simp, fun more => ?_⟩
      rw [List.append_cons before word later]
      exact inductionHypothesis (not_le.1 more) (taken.push rfl)

/-- As long as the words are covered, no place behind the last is read, and no argument behind the
last is written. -/
theorem argumentsFrom_places {places : List (List Desc)} {argv before : List Text}
    (words : List Text) (room : argv.length + places.length ≤ cmdArgcMax)
    (covers : Covers places words) (taken : Taken before argv) :
    Ends (argumentsFrom false places argv words) (ArgsOf (before ++ words)) := by
  induction words generalizing places argv before with
  | nil =>
      rw [argumentsFrom, List.append_nil, ends_pure]
      rintro argv ⟨⟩
      exact ⟨by omega, taken⟩
  | cons word later inductionHypothesis =>
      cases places with
      | nil =>
          rcases covers with short | ⟨place, -, found⟩
          · cases short
          · cases found
      | cons descvec places =>
          rw [List.length_cons] at room
          have next : ∀ {more : List Text}, more.length ≤ argv.length + 1 →
              argUse descvec ≠ .rest → Taken (before ++ [word]) more →
              Ends (argumentsFrom false places more later) (ArgsOf (before ++ word :: later)) := by
            intro more size single taken
            have covered : Covers places later := covers.tail single
            rw [List.append_cons before word later]
            exact inductionHypothesis (by omega) covered taken
          have pushed : ∀ {arg : Text}, lowered arg = lowered word →
              Taken (before ++ [word]) (argv ++ [arg]) := taken.push
          rw [argumentsFrom_false]
          cases use : argUse descvec with
          | none =>
              dsimp only
              rw [if_neg (by omega)]
              exact next (by omega) (by simp [use]) (taken.skip word)
          | uncounted =>
              dsimp only
              rw [ends_bind, ends_pushArg]
              exact ⟨by omega, next (by simp) (by simp [use]) (pushed rfl)⟩
          | plain =>
              dsimp only
              rw [ends_bind, ends_pushArg, ends_ite]
              refine ⟨by omega, fun _ => by simp, fun _ => ?_⟩
              exact next (by simp) (by simp [use]) (pushed rfl)
          | lower =>
              dsimp only
              rw [ends_bind, ends_pushArg, ends_ite]
              refine ⟨by omega, fun _ => by simp, fun _ => ?_⟩
              exact next (by simp) (by simp [use]) (pushed (lowered_lowered word))
          | rest =>
              dsimp only
              rw [ends_bind, ends_pushArg, ends_ite]
              refine ⟨by omega, fun _ => by simp, fun more => ?_⟩
              rw [List.append_cons before word later]
              exact argumentsFrom_rest later (by simpa using more) (pushed rfl)

end Arguments

section Sound

/-- The line has a word for every place that needs one, and no word too many. -/
def CmdElement.Accepts (element : CmdElement Func) (vline : List Text) : Prop :=
  ∃ front rear, vline = front ++ rear ∧ element.Fits 0 front ∧
    (rear = [] ∧ element.cmdsize ≤ vline.length ∨
      rear ≠ [] ∧ element.strvec[front.length]?.map argUse = some .rest)

/-- A kind comes from a word of the place. -/
theorem CmdElement.mem_kinds {element : CmdElement Func} {command : Text} {index : Nat}
    {kind : MatchType} : kind ∈ element.kinds command index ↔
      ∃ descvec ∈ element.strvec[index]?, ∃ desc ∈ descvec, fits command desc = some kind := by
  rw [CmdElement.kinds, CmdElement.descvec, List.mem_filterMap]
  cases element.strvec[index]? <;> simp

/-- The kinds of match in a vector are those in its commands. -/
theorem kindsOf_eq (command : Text) (index : Nat) (v : CmdVector Func) :
    kindsOf command index v =
      v.reduceOption.flatMap fun element => element.kinds command index := by
  induction v with
  | nil => rfl
  | cons slot later inductionHypothesis =>
      cases slot with
      | none => rw [List.reduceOption_cons_of_none, ← inductionHypothesis]; rfl
      | some element =>
          rw [List.reduceOption_cons_of_some, List.flatMap_cons, ← inductionHypothesis]
          rfl

/-- A word fits only where there is a place. -/
theorem CmdElement.lt_of_hit {element : CmdElement Func} {command : Text} {index : Nat}
    (hit : element.hit command index = true) : index < element.strvec.length := by
  by_contra outside
  have none : element.kinds command index = [] := by
    rw [CmdElement.kinds, CmdElement.descvec_behind (not_lt.1 outside)]
    rfl
  simp [CmdElement.hit, none] at hit

/-- Words that fit have their places. -/
theorem CmdElement.Fits.length_le {element : CmdElement Func} {words : List Text}
    (fits : element.Fits 0 words) : words.length ≤ element.strvec.length := by
  cases words using List.reverseRecOn with
  | nil => exact Nat.zero_le _
  | append_singleton words word _ =>
      have last := fits words.length word (by simp)
      have inside := CmdElement.lt_of_hit last
      rw [List.length_append, List.length_singleton]
      omega

/-- Only a variable number of arguments matches in this kind. -/
theorem cmdVararg_of_fits {command : Text} {desc : Desc}
    (fit : fits command desc = some .varargMatch) : cmdVararg desc.cmd = true := by
  rw [fits] at fit
  by_contra other
  rw [if_neg other] at fit
  split_ifs at fit <;> cases fit

/-- The best of kinds that are not all `no_match` is one of them. -/
theorem mem_of_best {kinds : List MatchType} {kind : MatchType} (found : best kinds = kind)
    (some : kind ≠ .noMatch) : kind ∈ kinds := by
  rw [← found]
  refine best_mem ?_
  rintro rfl
  exact some found.symm

/-- The command that is left alone takes the line. -/
theorem accepts_of_reached {v left : CmdVector Func} {vline : List Text} {kind : MatchType}
    {place : Nat} (reached : narrow 0 .noMatch v vline = .reached kind place left)
    {element : CmdElement Func}
    (alone : left.reduceOption.filter (CmdElement.ready kind place) = [element])
    (sound : element.Sound) :
    some element ∈ v ∧ element.Accepts vline ∧ Covers element.strvec vline := by
  obtain ⟨front, rear, rfl, rfl, inside, ends⟩ := narrow_reached reached (by decide)
  have member : element ∈ left.reduceOption.filter (CmdElement.ready kind (0 + front.length)) := by
    rw [alone]
    exact List.mem_singleton_self _
  obtain ⟨found, ready⟩ := List.mem_filter.1 member
  obtain ⟨installed, fits⟩ := inside element (List.reduceOption_mem_iff.1 found)
  rw [Nat.zero_add] at ready
  rcases ends with ⟨rfl, notVararg⟩ | ⟨rfl, command, later, rfl, vararg⟩
  · rw [List.append_nil]
    have enough : element.cmdsize ≤ front.length := by
      simpa [CmdElement.ready, notVararg] using ready
    exact ⟨installed, ⟨front, [], (List.append_nil front).symm, fits, .inl ⟨rfl, enough⟩⟩,
      .inl fits.length_le⟩
  · -- the only command that is left has the place for all words behind
    have all : left.reduceOption.filter (CmdElement.ready .varargMatch (0 + front.length)) =
        left.reduceOption := List.filter_eq_self.2 fun other _ => by simp [CmdElement.ready]
    rw [all] at alone
    rw [kindsOf_eq, alone, Nat.zero_add, List.flatMap_singleton] at vararg
    obtain ⟨descvec, atPlace, desc, listed, fit⟩ :=
      CmdElement.mem_kinds.1 (mem_of_best vararg (by decide))
    have isVararg := cmdVararg_of_fits fit
    have single := sound.alone descvec (List.mem_of_getElem? atPlace) desc listed isVararg
    have rest : element.strvec[front.length]?.map argUse = some .rest := by
      rw [Option.mem_def.1 atPlace, single]
      simp [argUse, isVararg]
    exact ⟨installed, ⟨front, _, rfl, fits, .inr ⟨List.cons_ne_nil _ _, rest⟩⟩,
      .inr ⟨front.length, by simp, rest⟩⟩

/-- Whatever a line is, `cmd_execute_command_real` stays inside of the templates and of `argv`; and
where it calls a function, that is the function of a command of the node that the user may
execute and that takes the line, with words of the line as its arguments. -/
theorem cmdExecuteCommandReal_sound (v : CmdVector Func)
    (sound : ∀ element, some element ∈ v → element.Sound) (vline : List Text) (iPriority : Int) :
    Ends (cmdExecuteCommandReal v vline iPriority) fun dispatch =>
      ∀ element argv, dispatch = .run element argv →
        some element ∈ v ∧ element.level ≤ iPriority ∧ element.Accepts vline ∧
          argv.length ≤ cmdArgcMax ∧ Taken vline argv := by
  rw [cmdExecuteCommandReal]
  cases reached : narrow 0 .noMatch v vline with
  | stopped status =>
      rw [ends_pure]
      rintro element argv ⟨⟩
  | reached kind place left =>
      dsimp only
      rw [choose]
      split
      next =>
        rw [ends_pure]
        rintro element argv ⟨⟩
      next element alone =>
        have listed : some element ∈ v := by
          obtain ⟨_, _, _, _, inside, _⟩ := narrow_reached reached (by decide)
          have member : element ∈ left.reduceOption.filter (CmdElement.ready kind place) := by
            rw [alone]
            exact List.mem_singleton_self _
          exact (inside element (List.reduceOption_mem_iff.1 (List.mem_filter.1 member).1)).1
        obtain ⟨-, accepts, covers⟩ := accepts_of_reached reached alone (sound element listed)
        rw [ends_ite]
        refine ⟨fun _ => ?_, fun allowed => ?_⟩
        · rw [ends_pure]
          rintro element argv ⟨⟩
        · rw [ends_bind]
          refine (argumentsFrom_places vline (by simpa using (sound element listed).few) covers
            (show Taken [] [] from List.Sublist.refl [])).mono fun result args => ?_
          rw [ends_pure]
          rintro other argv same
          cases result with
          | none => cases same
          | some found =>
              obtain ⟨few, taken⟩ := args found rfl
              cases same
              exact ⟨listed, not_lt.1 allowed, accepts, few, taken⟩
      next =>
        rw [ends_pure]
        rintro element argv ⟨⟩

end Sound

end Rsu.Cli.Command
