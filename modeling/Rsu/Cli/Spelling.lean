import Rsu.Cli.Execute

/-!
# Abbreviated and full words

A literal of a template may be typed in full, or abbreviated; at an argument place any word may be
typed that fits there. A full word hides all that it could abbreviate, and a word that fits a place
hides the places of a lesser kind, so a line that a command takes executes it unless another one goes
along with it; and an abbreviation that is not ambiguous is as good as the word it stands for.
-/

namespace Rsu.Cli.Command

open Checked

variable {Func : Type}

/-- A word of a template that stands for itself. -/
def literal (str : Text) : Bool :=
  !(cmdVararg str || cmdMulti str || (cmdOption str || cmdVariable str))

/-- The word is spelled out at some place of the command. -/
def CmdElement.exactAt (command : Text) (index : Nat) (element : CmdElement Func) : Bool :=
  (element.kinds command index).contains .exactMatch

/-- A word of a template that stands for the numbers of a range, for addresses or for anything. -/
def argument (str : Text) : Bool := cmdVariable str && !cmdIpv4Prefix str

/-- What it takes. -/
def takesArgument (str command : Text) : Bool :=
  if cmdRange str then cmdRangeMatch str command
  else if cmdIpv4 str then cmdIpv4Match command = .exactMatch
  else true

/-- The kind in which it matches. -/
def argumentKind (str : Text) : MatchType :=
  if cmdRange str then .rangeMatch else if cmdIpv4 str then .ipv4Match else .extendMatch

/-- The argument of a place that has nothing else. -/
def argumentOf : List Text → Option Text
  | [str] => if argument str then some str else none
  | _ => none

/-- The argument of the command at a place. -/
def CmdElement.argumentAt (index : Nat) (element : CmdElement Func) : Option Text :=
  argumentOf ((element.descvec index).map Desc.cmd)

/-- The place takes the word as its argument, or the word is spelled out there. -/
def CmdElement.takesAt (command : Text) (index : Nat) (element : CmdElement Func) : Bool :=
  match element.argumentAt index with
  | some str => takesArgument str command
  | none => element.exactAt command index

/-- The first places of the command take the words. -/
def CmdElement.takes (element : CmdElement Func) : Nat → List Text → Bool
  | _, [] => true
  | index, word :: later => element.takesAt word index && element.takes (index + 1) later

/-- Another command has the argument of this one at the place, or the word is spelled out there
too. -/
def CmdElement.goesAlong (element : CmdElement Func) (command : Text) (index : Nat)
    (other : CmdElement Func) : Bool :=
  match element.argumentAt index with
  | some str => other.argumentAt index = some str
  | none => other.exactAt command index

/-- It does so at all places of the words. -/
def CmdElement.along (element other : CmdElement Func) : Nat → List Text → Bool
  | _, [] => true
  | index, word :: later =>
      element.goesAlong word index other && element.along other (index + 1) later

/-- Where this command has an argument, the commands that have gone along have the same one, or no
place. -/
def CmdElement.Leads (element : CmdElement Func) (v : CmdVector Func) : Nat → List Text → Prop
  | _, [] => True
  | index, word :: later =>
      (∀ str ∈ element.argumentAt index, ∀ other, some other ∈ v →
        other.argumentAt index = some str ∨ other.descvec index = []) ∧
      element.Leads (v.map (Option.filter (element.goesAlong word index))) (index + 1) later

section Literals

/-- The first character of a word, in lower case, decides whether it is a literal. -/
theorem cmdVararg_iff (str : Text) : cmdVararg str = true ↔ (lowered str).head? = some 0x2E := by
  have point : ∀ char, char = 0x2E ↔ toLower char = 0x2E := by decide +kernel
  cases str with
  | nil => simp [cmdVararg, lowered]
  | cons first rest => simpa [cmdVararg, lowered] using point first

/-- A multiple choice begins with a brace. -/
theorem cmdMulti_iff (str : Text) : cmdMulti str = true ↔ (lowered str).head? = some 0x7B := by
  have brace : ∀ char, char = 0x7B ↔ toLower char = 0x7B := by decide +kernel
  cases str with
  | nil => simp [cmdMulti, lowered]
  | cons first rest => simpa [cmdMulti, lowered] using brace first

/-- A literal is neither vararg nor a choice, nor an option or a variable. -/
theorem literal_iff (str : Text) : literal str = true ↔
    (lowered str).head? ≠ some 0x2E ∧ (lowered str).head? ≠ some 0x7B ∧
      (cmdOption str || cmdVariable str) = false := by
  rw [Ne, Ne, ← cmdVararg_iff, ← cmdMulti_iff]
  simp [literal, and_assoc]

/-- Two words that begin alike are both literals, unless one of them stands for other words. -/
theorem literal_congr {left right : Text} (same : (lowered left).head? = (lowered right).head?)
    (known : literal left = true) (plain : (cmdOption right || cmdVariable right) = false) :
    literal right = true := by
  rw [literal_iff] at known ⊢
  exact ⟨same ▸ known.1, same ▸ known.2.1, plain⟩

/-- One text begins another one without regard to case. -/
theorem startsText_iff (left right : Text) :
    startsText left right = true ↔ lowered left <+: lowered right := by
  simp [startsText]

/-- The same text is a beginning. -/
theorem startsText_of_sameText {left right : Text} (same : sameText left right = true) :
    startsText left right = true :=
  (startsText_iff left right).2 ((sameText_iff left right).1 same ▸ List.prefix_rfl)

/-- What stands for other words is no literal. -/
theorem plain_of_literal {str : Text} (plain : literal str = true) :
    cmdVararg str = false ∧ cmdRange str = false ∧ cmdMulti str = false ∧ cmdIpv4 str = false ∧
      cmdIpv4Prefix str = false ∧ (cmdOption str || cmdVariable str) = false := by
  simp only [literal, Bool.not_eq_true', Bool.or_eq_false_iff] at plain
  obtain ⟨⟨vararg, multi⟩, option, noVariable⟩ := plain
  refine ⟨vararg, ?_, multi, ?_, ?_, by simp [option, noVariable]⟩
  · cases str with
    | nil => rfl
    | cons first rest =>
        simp only [cmdVariable, List.head?_cons, Option.any_some, Bool.or_eq_false_iff,
          decide_eq_false_iff_not] at noVariable
        simpa [cmdRange] using noVariable.2
  · by_contra address
    rw [of_decide_eq_true (Bool.eq_true_of_not_eq_false address)] at noVariable
    cases noVariable
  · by_contra network
    rw [of_decide_eq_true (Bool.eq_true_of_not_eq_false network)] at noVariable
    cases noVariable

/-- How a word matches a literal. -/
theorem fits_literal {command : Text} {desc : Desc} (plain : literal desc.cmd = true) :
    fits command desc =
      if startsText command desc.cmd then
        if sameText command desc.cmd then some .exactMatch else some .partlyMatch
      else none := by
  obtain ⟨vararg, range, multi, address, network, other⟩ := plain_of_literal plain
  simp only [fits, vararg, range, multi, address, network, other, Bool.false_eq_true, if_false]

/-- Only literals match exactly or partly. -/
theorem literal_of_fits {command : Text} {desc : Desc} {kind : MatchType}
    (fit : fits command desc = some kind) (high : .partlyMatch ≤ kind) :
    literal desc.cmd = true := by
  have low : ∀ kind ∈ [MatchType.varargMatch, .rangeMatch, .multiMatch, .ipv4Match,
      .ipv4PrefixMatch, .extendMatch], ¬ .partlyMatch ≤ kind := by decide
  have never : ∀ other ∈ [MatchType.varargMatch, .rangeMatch, .multiMatch, .ipv4Match,
      .ipv4PrefixMatch, .extendMatch], some other ≠ some kind := by
    rintro other member same
    exact low other member (Option.some.inj same ▸ high)
  rw [fits] at fit
  split_ifs at fit with vararg range _ multi _ address _ network _ other
  all_goals first
    | simp [literal, vararg, multi, other]; done
    | exact absurd fit (never _ (by simp))

end Literals

section Exact

variable {command : Text} {index : Nat} {v : CmdVector Func} {element : CmdElement Func}

/-- A word is spelled out where it is the same as a literal. -/
theorem exactAt_iff : element.exactAt command index = true ↔
    ∃ desc ∈ element.descvec index, literal desc.cmd = true ∧ sameText command desc.cmd = true := by
  rw [CmdElement.exactAt, List.contains_iff_mem, CmdElement.kinds, List.mem_filterMap]
  constructor
  · rintro ⟨desc, listed, fit⟩
    have plain := literal_of_fits fit (by decide)
    rw [fits_literal plain] at fit
    split_ifs at fit with starts same
    · exact ⟨desc, listed, plain, same⟩
    · cases fit
  · rintro ⟨desc, listed, plain, same⟩
    refine ⟨desc, listed, ?_⟩
    rw [fits_literal plain, if_pos (startsText_of_sameText same), if_pos same]

/-- A command that has a word as a literal is hit by it. -/
theorem hit_of_exactAt (exact : element.exactAt command index = true) :
    element.hit command index = true := by
  rw [CmdElement.exactAt, List.contains_iff_mem] at exact
  cases kinds : element.kinds command index with
  | nil => simp [kinds] at exact
  | cons kind kinds' => simp [CmdElement.hit, kinds]

/-- A kind of match is found if some command has it. -/
theorem mem_kindsOf {kind : MatchType} : kind ∈ kindsOf command index v ↔
    ∃ element, some element ∈ v ∧ kind ∈ element.kinds command index := by
  rw [kindsOf_eq, List.mem_flatMap]
  simp only [List.reduceOption_mem_iff]

/-- The words that count at a place. -/
theorem mem_counted {type : MatchType} {text : Text} :
    text ∈ element.counted type command index ↔
      (∃ desc ∈ element.descvec index, desc.cmd = text) ∧ selects type command text = true := by
  rw [CmdElement.counted, countedIn, List.mem_filter, List.mem_map]

/-- A command is kept for the words that count in it. -/
theorem kept_iff {type : MatchType} : element.kept type command index = true ↔
    ∃ text, text ∈ element.counted type command index := by
  cases counted : element.counted type command index <;> simp [CmdElement.kept, counted]

/-- A word that is spelled out somewhere leaves the commands that spell it out. -/
theorem keeps_exact
    (spelled : ∃ element, some element ∈ v ∧ element.exactAt command index = true) :
    keeps .exactMatch command index v = v.map (Option.filter (CmdElement.exactAt command index)) := by
  obtain ⟨_, _, exact⟩ := spelled
  obtain ⟨model, _, known, same⟩ := exactAt_iff.1 exact
  have either (element : CmdElement Func) : (element.hit command index &&
      element.kept .exactMatch command index) = element.exactAt command index := by
    rw [Bool.eq_iff_iff, Bool.and_eq_true, kept_iff]
    constructor
    · rintro ⟨_, text, counted⟩
      obtain ⟨⟨desc, listed, rfl⟩, selected⟩ := mem_counted.1 counted
      simp only [selects, Bool.and_eq_true, Bool.not_eq_true'] at selected
      refine exactAt_iff.2 ⟨desc, listed, literal_congr ?_ known selected.1, selected.2⟩
      rw [← (sameText_iff _ _).1 same, (sameText_iff _ _).1 selected.2]
    · intro exact
      refine ⟨hit_of_exactAt exact, ?_⟩
      obtain ⟨desc, listed, plain, equal⟩ := exactAt_iff.1 exact
      refine ⟨desc.cmd, mem_counted.2 ⟨⟨desc, listed, rfl⟩, ?_⟩⟩
      simp [selects, (plain_of_literal plain).2.2.2.2.2, equal]
  rw [keeps, hits, List.map_map]
  refine List.map_congr_left fun slot _ => ?_
  cases slot with
  | none => rfl
  | some element =>
      rw [Function.comp_apply, Option.filter_filter]
      simp only [Option.filter, either]

/-- What counts in a vector counts in one of its commands. -/
theorem mem_countedOf {type : MatchType} {text : Text} :
    text ∈ countedOf type command index v ↔
      ∃ element, some element ∈ v ∧ text ∈ element.counted type command index := by
  rw [countedOf, List.mem_flatMap]
  constructor
  · rintro ⟨slot, listed, counted⟩
    cases slot with
    | none => cases counted
    | some element => exact ⟨element, listed, counted⟩
  · rintro ⟨element, listed, counted⟩
    exact ⟨some element, listed, counted⟩

end Exact

section Argument

variable {command str : Text} {index : Nat} {v : CmdVector Func} {element other : CmdElement Func}

/-- How a word matches an argument. -/
theorem fits_argument {desc : Desc} (holds : argument desc.cmd = true) :
    fits command desc =
      if takesArgument desc.cmd command then some (argumentKind desc.cmd) else none := by
  obtain ⟨noVariable, network⟩ := Bool.and_eq_true_iff.1 holds
  have network : cmdIpv4Prefix desc.cmd = false := by simpa using network
  have first : desc.cmd.head? ≠ some 0x2E ∧ desc.cmd.head? ≠ some 0x7B := by
    constructor
    all_goals
      intro same
      rw [cmdVariable, same] at noVariable
      revert noVariable
      decide
  have vararg : cmdVararg desc.cmd = false := decide_eq_false first.1
  have multi : cmdMulti desc.cmd = false := decide_eq_false first.2
  simp only [fits, takesArgument, argumentKind, vararg, multi, network, noVariable, Bool.or_true,
    Bool.false_eq_true, if_false, if_true]
  split_ifs with range taken address exact <;> simp_all

/-- An argument place has one word. -/
theorem argumentOf_eq_some {strs : List Text} :
    argumentOf strs = some str ↔ strs = [str] ∧ argument str = true := by
  unfold argumentOf
  split
  next only =>
    split_ifs with holds
    · simp only [Option.some.injEq, List.cons.injEq, and_true]
      exact ⟨fun same => ⟨same, same ▸ holds⟩, And.left⟩
    · simp only [List.cons.injEq, and_true, false_iff]
      rintro ⟨rfl, holds'⟩
      exact holds holds'
  next several =>
    simp only [reduceCtorEq, false_iff]
    rintro ⟨rfl, -⟩
    exact several str rfl

/-- The place of an argument has nothing else. -/
theorem argumentAt_eq_some : element.argumentAt index = some str ↔
    ∃ desc, element.descvec index = [desc] ∧ desc.cmd = str ∧ argument str = true := by
  rw [CmdElement.argumentAt, argumentOf_eq_some, List.map_eq_singleton_iff]
  constructor
  · rintro ⟨⟨desc, place, same⟩, holds⟩
    exact ⟨desc, place, same, holds⟩
  · rintro ⟨desc, place, same, holds⟩
    exact ⟨⟨desc, place, same⟩, holds⟩

/-- An argument matches in its kind. -/
theorem kinds_argument (place : element.argumentAt index = some str)
    (taken : takesArgument str command = true) :
    element.kinds command index = [argumentKind str] := by
  obtain ⟨desc, only, rfl, holds⟩ := argumentAt_eq_some.1 place
  rw [CmdElement.kinds, only, List.filterMap_cons_some (by rw [fits_argument holds, if_pos taken]),
    List.filterMap_nil]

/-- An argument counts in its kind. -/
theorem counted_argument (place : element.argumentAt index = some str)
    (taken : takesArgument str command = true) :
    element.counted (argumentKind str) command index = [str] := by
  obtain ⟨desc, only, rfl, holds⟩ := argumentAt_eq_some.1 place
  have noVariable := (Bool.and_eq_true_iff.1 holds).1
  have selected : selects (argumentKind desc.cmd) command desc.cmd = true := by
    unfold takesArgument at taken
    unfold argumentKind
    split_ifs at taken ⊢ with range address
    · exact taken
    · exact address
    · simp [selects, noVariable]
  rw [CmdElement.counted, only, countedIn, List.map_singleton, List.filter_singleton, selected]
  rfl

/-- An argument is no vararg and no prefix. -/
theorem argumentKind_ne (str : Text) :
    argumentKind str ≠ .varargMatch ∧ argumentKind str ≠ .ipv4PrefixMatch := by
  unfold argumentKind
  split_ifs <;> simp

/-- A word at the place of an argument leaves the commands that have this argument. -/
theorem narrow_argument (matchType : MatchType) (later : List Text) (listed : some element ∈ v)
    (place : element.argumentAt index = some str) (taken : takesArgument str command = true)
    (others : ∀ other, some other ∈ v →
      other.argumentAt index = some str ∨ other.descvec index = []) :
    narrow index matchType v (command :: later) =
      narrow (index + 1) (argumentKind str)
        (v.map (Option.filter fun other => other.argumentAt index = some str)) later := by
  have same (kind : MatchType) (member : kind ∈ kindsOf command index v) :
      kind = argumentKind str := by
    obtain ⟨other, also, matched⟩ := mem_kindsOf.1 member
    rcases others other also with argued | absent
    · rw [kinds_argument argued taken] at matched
      exact List.mem_singleton.1 matched
    · rw [CmdElement.kinds, absent] at matched
      cases matched
  have own : argumentKind str ∈ kindsOf command index v := by
    refine mem_kindsOf.2 ⟨element, listed, ?_⟩
    rw [kinds_argument place taken]
    exact List.mem_singleton_self _
  have found : best (kindsOf command index v) = argumentKind str :=
    same _ (best_mem (List.ne_nil_of_mem own))
  have counted : ∀ text ∈ countedOf (argumentKind str) command index (hits command index v),
      text = str := by
    intro text member
    obtain ⟨other, left, counts⟩ := mem_countedOf.1 member
    rcases others other (mem_hits.1 left).1 with argued | absent
    · rw [counted_argument argued taken] at counts
      exact List.mem_singleton.1 counts
    · rw [CmdElement.counted, countedIn, absent] at counts
      cases counts
  have agree : Agree (countedOf (argumentKind str) command index (hits command index v)) := by
    intro left atLeft right atRight
    rw [counted left atLeft, counted right atRight, sameText_iff]
  have left : keeps (argumentKind str) command index v =
      v.map (Option.filter fun other => other.argumentAt index = some str) := by
    rw [keeps, hits, List.map_map]
    refine List.map_congr_left fun slot member => ?_
    cases slot with
    | none => rfl
    | some other =>
        rw [Function.comp_apply, Option.filter_filter]
        rcases others other member with argued | absent
        · simp [Option.filter, CmdElement.hit, CmdElement.kept, kinds_argument argued taken,
            counted_argument argued taken, argued]
        · have none : other.argumentAt index ≠ some str := by
            simp [CmdElement.argumentAt, argumentOf, absent]
          simp [Option.filter, CmdElement.hit, CmdElement.kinds, absent, none]
  rw [narrow_cons index matchType v command later found rfl, if_neg (argumentKind_ne str).1,
    if_neg fun incomplete => (argumentKind_ne str).2 incomplete.1,
    if_neg fun differs => differs.2 agree, left]

end Argument

section Taken

variable {command : Text} {index : Nat} {v : CmdVector Func} {element : CmdElement Func}

/-- A word that is spelled out leaves the commands that spell it out. -/
theorem narrow_exact (matchType : MatchType) (later : List Text) (listed : some element ∈ v)
    (exact : element.exactAt command index = true) :
    narrow index matchType v (command :: later) =
      narrow (index + 1) .exactMatch (v.map (Option.filter (CmdElement.exactAt command index)))
        later := by
  have found : best (kindsOf command index v) = .exactMatch := by
    refine le_antisymm (le_exactMatch _) (le_best (mem_kindsOf.2 ⟨element, listed, ?_⟩))
    exact List.contains_iff_mem.1 exact
  rw [narrow_cons index matchType v command later found rfl, if_neg (by decide),
    if_neg fun incomplete => MatchType.noConfusion incomplete.1,
    if_neg fun differs => Bool.noConfusion differs.1, keeps_exact ⟨element, listed, exact⟩]

/-- A word that a place takes leaves the commands that go along. -/
theorem narrow_taken (matchType : MatchType) (later : List Text) (listed : some element ∈ v)
    (taken : element.takesAt command index = true)
    (leads : ∀ str ∈ element.argumentAt index, ∀ other, some other ∈ v →
      other.argumentAt index = some str ∨ other.descvec index = []) :
    ∃ kind, kind ≠ .varargMatch ∧ narrow index matchType v (command :: later) =
      narrow (index + 1) kind (v.map (Option.filter (element.goesAlong command index))) later := by
  rw [CmdElement.takesAt] at taken
  unfold CmdElement.goesAlong
  cases place : element.argumentAt index with
  | none =>
      rw [place] at taken
      exact ⟨.exactMatch, by decide, narrow_exact matchType later listed taken⟩
  | some str =>
      rw [place] at taken
      exact ⟨argumentKind str, (argumentKind_ne str).1,
        narrow_argument matchType later listed place taken (leads str place)⟩

/-- A command goes along with itself. -/
theorem goesAlong_self (taken : element.takesAt command index = true) :
    element.goesAlong command index element = true := by
  rw [CmdElement.takesAt] at taken
  rw [CmdElement.goesAlong]
  cases place : element.argumentAt index with
  | none =>
      rw [place] at taken
      exact taken
  | some str => simp

/-- A command that takes a line goes along with itself. -/
theorem along_self (words : List Text) (taken : element.takes index words = true) :
    element.along element index words = true := by
  induction words generalizing index with
  | nil => rfl
  | cons word later inductionHypothesis =>
      obtain ⟨here, taken⟩ := Bool.and_eq_true_iff.1 taken
      exact Bool.and_eq_true_iff.2 ⟨goesAlong_self here, inductionHypothesis taken⟩

/-- A line that a command takes leaves the commands that go along with it. -/
theorem narrow_line (words : List Text) {matchType : MatchType} (start : matchType ≠ .varargMatch)
    (listed : some element ∈ v) (taken : element.takes index words = true)
    (leads : element.Leads v index words) :
    ∃ kind, kind ≠ .varargMatch ∧ narrow index matchType v words =
      .reached kind (index + words.length)
        (v.map (Option.filter fun other => element.along other index words)) := by
  induction words generalizing index matchType v with
  | nil =>
      have all : Option.filter (fun other : CmdElement Func => element.along other index []) = id := by
        funext slot
        cases slot <;> rfl
      rw [all, List.map_id]
      exact ⟨matchType, start, rfl⟩
  | cons word later inductionHypothesis =>
      obtain ⟨here, taken⟩ := Bool.and_eq_true_iff.1 taken
      obtain ⟨kind, fixed, narrowed⟩ := narrow_taken matchType later listed here leads.1
      obtain ⟨last, ends, reached⟩ := inductionHypothesis fixed
        (mem_filter_slots.2 ⟨listed, goesAlong_self here⟩) taken leads.2
      refine ⟨last, ends, ?_⟩
      rw [narrowed, reached, List.length_cons, Nat.add_right_comm, Nat.add_assoc, List.map_map]
      congr 2
      funext slot
      rw [Function.comp_apply, Option.filter_filter]
      rfl

/-- What a word becomes as an argument. -/
def ArgUse.passed (word : Text) : ArgUse → List Text
  | .none => []
  | .lower => [lowered word]
  | _ => [word]

/-- What the words of a line become at their places. -/
def passedArgs (places : List (List Desc)) (words : List Text) : List Text :=
  (places.zip words).flatMap fun pair => (argUse pair.1).passed pair.2

/-- The first word of a line, and the others. -/
theorem passedArgs_cons (descvec : List Desc) (places : List (List Desc)) (word : Text)
    (later : List Text) : passedArgs (descvec :: places) (word :: later) =
      (argUse descvec).passed word ++ passedArgs places later := by
  rw [passedArgs, List.zip_cons_cons, List.flatMap_cons]
  rfl

/-- A place where a word is spelled out makes an argument of it only among alternatives. -/
theorem argUse_exact (exact : element.exactAt command index = true) :
    argUse (element.descvec index) =
      if (element.descvec index).length = 1 then .none else .lower := by
  obtain ⟨desc, listed, plain, -⟩ := exactAt_iff.1 exact
  obtain ⟨vararg, -, multi, -, -, other⟩ := plain_of_literal plain
  obtain ⟨option, noVariable⟩ := Bool.or_eq_false_iff.1 other
  split_ifs with single
  · obtain ⟨only, same⟩ := List.length_eq_one_iff.1 single
    rw [same] at listed ⊢
    obtain rfl := List.mem_singleton.1 listed
    simp [argUse, vararg, multi, option, noVariable]
  · cases places : element.descvec index with
    | nil => rfl
    | cons first more =>
        cases more with
        | nil => simp [places] at single
        | cons second more => rfl

/-- An argument is passed as it is typed. -/
theorem argUse_argument {str : Text} (place : element.argumentAt index = some str) :
    argUse (element.descvec index) = .plain := by
  obtain ⟨desc, only, rfl, holds⟩ := argumentAt_eq_some.1 place
  have noVariable := (Bool.and_eq_true_iff.1 holds).1
  have vararg : cmdVararg desc.cmd = false := by
    refine decide_eq_false fun same => ?_
    rw [cmdVariable, same] at noVariable
    revert noVariable
    decide
  rw [only, argUse, vararg, if_neg Bool.false_ne_true, if_pos noVariable]

/-- A word that a place takes is passed on or dropped. -/
theorem argUse_taken (taken : element.takesAt command index = true) :
    argUse (element.descvec index) ∈ [ArgUse.none, .plain, .lower] := by
  rw [CmdElement.takesAt] at taken
  cases place : element.argumentAt index with
  | some str =>
      rw [argUse_argument place]
      decide
  | none =>
      rw [place] at taken
      rw [argUse_exact taken]
      split_ifs <;> decide

/-- A command that takes a word is hit by it. -/
theorem hit_of_takesAt (taken : element.takesAt command index = true) :
    element.hit command index = true := by
  rw [CmdElement.takesAt] at taken
  cases place : element.argumentAt index with
  | some str =>
      rw [place] at taken
      simp [CmdElement.hit, kinds_argument place taken]
  | none =>
      rw [place] at taken
      exact hit_of_exactAt taken

/-- The arguments of a line that a command takes. -/
theorem argumentsFrom_taken (words argv : List Text) (taken : element.takes index words = true)
    (room : argv.length + words.length < cmdArgcMax) :
    argumentsFrom false (element.strvec.drop index) argv words =
      .ok (some (argv ++ passedArgs (element.strvec.drop index) words)) := by
  induction words generalizing index argv with
  | nil => simp [argumentsFrom, passedArgs]; rfl
  | cons word later inductionHypothesis =>
      obtain ⟨here, taken⟩ := Bool.and_eq_true_iff.1 taken
      have inside := CmdElement.lt_of_hit (hit_of_takesAt here)
      have place : element.strvec.drop index =
          element.descvec index :: element.strvec.drop (index + 1) := by
        rw [List.drop_eq_getElem_cons inside, CmdElement.descvec, List.getElem?_eq_getElem inside]
        rfl
      rw [List.length_cons] at room
      have pushed (arg : Text) : pushArg argv arg = .ok (argv ++ [arg]) := by
        rw [pushArg, writable_bind (by omega)]
        rfl
      have next (arg : Text) := inductionHypothesis (argv ++ [arg]) taken
        (by rw [List.length_append, List.length_singleton]; omega)
      have more (arg : Text) : ¬ cmdArgcMax ≤ (argv ++ [arg]).length := by
        rw [List.length_append, List.length_singleton]
        omega
      have uses := argUse_taken here
      rw [place, argumentsFrom_false, passedArgs_cons]
      simp only [List.mem_cons, List.not_mem_nil, or_false] at uses
      rcases uses with use | use | use
      all_goals
        rw [use]
        dsimp only
      · rw [if_neg (by omega), inductionHypothesis argv taken (by omega)]
        rfl
      · rw [if_neg (by decide), pushed, ok_bind, if_neg (more word), decide_eq_false (by decide),
          next word, List.append_assoc]
        rfl
      · rw [if_pos rfl, pushed, ok_bind, if_neg (more _), decide_eq_false (by decide), next,
          List.append_assoc]
        rfl

/-- The commands that pass a test, without the slots that are empty. -/
theorem reduceOption_filter_slots (test : CmdElement Func → Bool) (v : CmdVector Func) :
    (v.map (Option.filter test)).reduceOption = v.reduceOption.filter test := by
  induction v with
  | nil => rfl
  | cons slot later inductionHypothesis =>
      cases slot with
      | none => simpa [List.reduceOption_cons_of_none] using inductionHypothesis
      | some other =>
          rw [List.map_cons, List.reduceOption_cons_of_some, Option.filter]
          by_cases passed : test other = true
          · rw [if_pos passed, List.reduceOption_cons_of_some, inductionHypothesis,
              List.filter_cons_of_pos passed]
          · rw [if_neg passed, List.reduceOption_cons_of_none, inductionHypothesis,
              List.filter_cons_of_neg passed]

/-- The command of a node that is left alone. -/
theorem filter_alone {test : CmdElement Func → Bool} {front rear : CmdVector Func}
    (passes : test element = true)
    (others : ∀ other, some other ∈ front ++ rear → test other = false) :
    (front ++ some element :: rear).reduceOption.filter test = [element] := by
  have none (slots : CmdVector Func) (inside : ∀ slot ∈ slots, slot ∈ front ++ rear) :
      slots.reduceOption.filter test = [] := by
    refine List.filter_eq_nil_iff.2 fun other member => ?_
    rw [others other (inside _ (List.reduceOption_mem_iff.1 member))]
    exact Bool.false_ne_true
  rw [List.reduceOption_append, List.reduceOption_cons_of_some, List.filter_append,
    List.filter_cons_of_pos passes, none front fun slot => List.mem_append_left _,
    none rear fun slot => List.mem_append_right _, List.nil_append]

/-- A line that a command takes executes it, whatever else is installed in the node, unless another
one goes along and needs no further words. Arguments are passed on, and so are words with
alternatives in the template, in lower case. -/
theorem taken_line_runs (front rear : CmdVector Func) (element : CmdElement Func)
    (words : List Text) (iPriority : Int) (taken : element.takes 0 words = true)
    (leads : element.Leads (front ++ some element :: rear) 0 words)
    (complete : element.cmdsize ≤ words.length) (short : words.length < cmdArgcMax)
    (others : ∀ other, some other ∈ front ++ rear → element.along other 0 words = true →
      words.length < other.cmdsize) :
    cmdExecuteCommandReal (front ++ some element :: rear) words iPriority =
      .ok (if iPriority < element.level then .failed .errPriorityLower
        else .run element (passedArgs element.strvec words)) := by
  have listed : some element ∈ front ++ some element :: rear := by simp
  obtain ⟨kind, other, narrowed⟩ := narrow_line words
    (by decide : MatchType.noMatch ≠ .varargMatch) listed taken leads
  have ready (other : CmdElement Func) :
      other.ready kind (0 + words.length) = decide (other.cmdsize ≤ words.length) := by
    rw [CmdElement.ready, Nat.zero_add, decide_eq_false (by assumption), Bool.false_or]
  have alone : (front ++ some element :: rear).reduceOption.filter
      (fun other => decide (other.cmdsize ≤ words.length) && element.along other 0 words) =
        [element] := by
    refine filter_alone (by simp [complete, along_self words taken]) fun other member => ?_
    cases along : element.along other 0 words with
    | false => exact Bool.and_false _
    | true => simpa using others other member along
  have args := argumentsFrom_taken words [] taken (by simpa using short)
  rw [List.drop_zero, List.nil_append] at args
  rw [cmdExecuteCommandReal, narrowed]
  dsimp only
  rw [choose, reduceOption_filter_slots, List.filter_filter, funext ready, alone]
  dsimp only
  split_ifs
  · rfl
  · rw [args]
    rfl

end Taken

section Expand

variable {command : Text} {index : Nat} {v : CmdVector Func} {element : CmdElement Func}

/-- The words that count among the commands that a word leaves. -/
def candidates (command : Text) (index : Nat) (v : CmdVector Func) : List Text :=
  countedOf (best (kindsOf command index v)) command index (hits command index v)

/-- The word that a word stands for: the one that it abbreviates, if there is but one. -/
def expand (command : Text) (index : Nat) (v : CmdVector Func) : Text :=
  if best (kindsOf command index v) = .partlyMatch ∧ Agree (candidates command index v) then
    (candidates command index v).head?.getD command
  else command

/-- A line with its abbreviations replaced. -/
def expandFrom (index : Nat) (v : CmdVector Func) : List Text → List Text
  | [] => []
  | command :: later =>
      expand command index v ::
        expandFrom (index + 1) (keeps (best (kindsOf command index v)) command index v) later

/-- A command is hit if a word matches in some way. -/
theorem hit_iff : element.hit command index = true ↔
    ∃ kind, kind ∈ element.kinds command index := by
  cases kinds : element.kinds command index <;> simp [CmdElement.hit, kinds]

/-- A literal is hit by whatever it begins with. -/
theorem hit_of_startsText {desc : Desc} (listed : desc ∈ element.descvec index)
    (plain : literal desc.cmd = true) (starts : startsText command desc.cmd = true) :
    element.hit command index = true := by
  have fit : fits command desc = _ := fits_literal plain
  rw [if_pos starts, ← apply_ite some] at fit
  exact hit_iff.2 ⟨_, List.mem_filterMap.2 ⟨desc, listed, fit⟩⟩

section Partly

variable (partly : best (kindsOf command index v) = .partlyMatch)
include partly

/-- A candidate is a word that counts partly in a command that is hit. -/
theorem mem_candidates {text : Text} : text ∈ candidates command index v ↔
    ∃ element, some element ∈ v ∧ element.hit command index = true ∧
      text ∈ element.counted .partlyMatch command index := by
  rw [candidates, partly, mem_countedOf]
  simp only [mem_hits, and_assoc]

/-- A word that matches partly is the beginning of a literal. -/
theorem exists_candidate :
    ∃ text ∈ candidates command index v, literal text = true ∧ startsText command text = true := by
  obtain ⟨element, listed, kinds⟩ := mem_kindsOf.1 (mem_of_best partly (by decide))
  obtain ⟨desc, atPlace, fit⟩ := List.mem_filterMap.1 kinds
  have plain := literal_of_fits fit (by decide)
  rw [fits_literal plain] at fit
  have starts : startsText command desc.cmd = true := by
    split_ifs at fit with starts
    · exact starts
    · exact starts
  refine ⟨desc.cmd, ?_, plain, starts⟩
  refine (mem_candidates partly).2 ⟨element, listed, hit_of_startsText atPlace plain starts,
    mem_counted.2 ⟨⟨desc, atPlace, rfl⟩, ?_⟩⟩
  simp [selects, (plain_of_literal plain).2.2.2.2.2, starts]

variable (agree : Agree (candidates command index v))
include agree

/-- The word that an abbreviation stands for. -/
theorem expand_spec : literal (expand command index v) = true ∧
    startsText command (expand command index v) = true ∧
    expand command index v ∈ candidates command index v := by
  obtain ⟨text, counted, plain, starts⟩ := exists_candidate partly
  have member : expand command index v ∈ candidates command index v := by
    rw [expand, if_pos ⟨partly, agree⟩]
    cases list : candidates command index v with
    | nil => rw [list] at counted; cases counted
    | cons word more => exact List.mem_cons_self
  have same := (sameText_iff _ _).1 (agree text counted _ member)
  obtain ⟨element, _, _, chosen⟩ := (mem_candidates partly).1 member
  have selected := (mem_counted.1 chosen).2
  simp only [selects, Bool.and_eq_true, Bool.not_eq_true'] at selected
  exact ⟨literal_congr (congrArg List.head? same) plain selected.1, selected.2, member⟩

/-- An abbreviation that is not ambiguous leaves the commands that the full word leaves. -/
theorem keeps_partly : keeps .partlyMatch command index v =
    v.map (Option.filter (CmdElement.exactAt (expand command index v) index)) := by
  obtain ⟨plain, starts, member⟩ := expand_spec partly agree
  have either (element : CmdElement Func) (installed : some element ∈ v) :
      (element.hit command index && element.kept .partlyMatch command index) =
        element.exactAt (expand command index v) index := by
    rw [Bool.eq_iff_iff, Bool.and_eq_true, kept_iff]
    constructor
    · rintro ⟨hit, text, counted⟩
      have same := agree _ member text ((mem_candidates partly).2 ⟨element, installed, hit, counted⟩)
      obtain ⟨⟨other, found, rfl⟩, selected⟩ := mem_counted.1 counted
      simp only [selects, Bool.and_eq_true, Bool.not_eq_true'] at selected
      exact exactAt_iff.2 ⟨other, found, literal_congr
        (congrArg List.head? ((sameText_iff _ _).1 same)) plain selected.1, same⟩
    · intro exact
      obtain ⟨other, found, literal, same⟩ := exactAt_iff.1 exact
      have startsOther : startsText command other.cmd = true := by
        rw [startsText_iff, ← (sameText_iff _ _).1 same]
        exact (startsText_iff _ _).1 starts
      refine ⟨hit_of_startsText found literal startsOther, other.cmd,
        mem_counted.2 ⟨⟨other, found, rfl⟩, ?_⟩⟩
      simp [selects, (plain_of_literal literal).2.2.2.2.2, startsOther]
  rw [keeps, hits, List.map_map]
  refine List.map_congr_left fun slot listed => ?_
  cases slot with
  | none => rfl
  | some element =>
      rw [Function.comp_apply, Option.filter_filter]
      simp only [Option.filter, either element listed]

end Partly

/-- What two lines come to when the loop over the words ends. -/
inductive Narrowed.Like : Narrowed Func → Narrowed Func → Prop
  | stopped (status : Status) : Narrowed.Like (.stopped status) (.stopped status)
  | reached (index : Nat) (left : CmdVector Func) {kind other : MatchType}
      (same : kind = .varargMatch ↔ other = .varargMatch) :
      Narrowed.Like (.reached kind index left) (.reached other index left)

/-- The loop over the words does not tell an abbreviation from the word it stands for. -/
theorem narrow_expandFrom (words : List Text) {kind other : MatchType}
    (same : kind = .varargMatch ↔ other = .varargMatch) :
    (narrow index kind v words).Like (narrow index other v (expandFrom index v words)) := by
  induction words generalizing index kind other v with
  | nil => exact .reached index v same
  | cons command later inductionHypothesis =>
      rw [expandFrom]
      by_cases replaced : best (kindsOf command index v) = .partlyMatch ∧
          Agree (candidates command index v)
      · obtain ⟨partly, agree⟩ := replaced
        obtain ⟨plain, starts, member⟩ := expand_spec partly agree
        obtain ⟨element, installed, hit, counted⟩ := (mem_candidates partly).1 member
        have exact : element.exactAt (expand command index v) index = true := by
          obtain ⟨⟨desc, found, same⟩, -⟩ := mem_counted.1 counted
          exact exactAt_iff.2 ⟨desc, found, by rwa [same], by simp [same, sameText]⟩
        rw [narrow_exact other _ installed exact, ← keeps_partly partly agree, partly,
          narrow_cons index kind v command later partly rfl, if_neg (by decide),
          if_neg fun incomplete => MatchType.noConfusion incomplete.1, if_neg]
        · exact inductionHypothesis (by decide)
        · rw [candidates, partly] at agree
          exact fun differs => differs.2 agree
      · rw [expand, if_neg replaced, narrow_cons index kind v command later rfl rfl,
          narrow_cons index other v command _ rfl rfl]
        split_ifs
        · exact .reached _ _ Iff.rfl
        · exact .stopped _
        · exact .stopped _
        · exact inductionHypothesis Iff.rfl

/-- A word is the beginning of the word it stands for. -/
theorem expandFrom_starts (words : List Text) (index : Nat) (v : CmdVector Func) :
    List.Forall₂ (fun word full => startsText word full = true) words
      (expandFrom index v words) := by
  induction words generalizing index v with
  | nil => exact .nil
  | cons command later inductionHypothesis =>
      refine .cons ?_ (inductionHypothesis _ _)
      by_cases replaced : best (kindsOf command index v) = .partlyMatch ∧
          Agree (candidates command index v)
      · exact (expand_spec replaced.1 replaced.2).2.1
      · rw [expand, if_neg replaced]
        exact (startsText_iff command command).2 List.prefix_rfl

/-- Texts that begin the texts of another list. -/
abbrev Begins : List Text → List Text → Prop :=
  List.Forall₂ fun word full => startsText word full = true

/-- What two lines come to: the same failure, or the same function with arguments that begin the
others. -/
inductive Dispatch.Like : Dispatch Func → Dispatch Func → Prop
  | failed (status : Status) : Dispatch.Like (.failed status) (.failed status)
  | run (element : CmdElement Func) {argv full : List Text} (begins : Begins argv full) :
      Dispatch.Like (.run element argv) (.run element full)

/-- Two lists of arguments, unless there are too many of them. -/
inductive ArgsLike : Option (List Text) → Option (List Text) → Prop
  | many : ArgsLike none none
  | args {argv full : List Text} (begins : Begins argv full) : ArgsLike (some argv) (some full)

/-- A longer argument is passed wherever its beginning is. -/
theorem Begins.push {argv full : List Text} (begins : Begins argv full) {arg other : Text}
    (starts : startsText arg other = true) :
    Both Begins (pushArg argv arg) (pushArg full other) := by
  rw [pushArg, pushArg, ← begins.length_eq]
  by_cases room : argv.length + 1 ≤ cmdArgcMax
  · rw [writable_bind room, writable_bind room]
    exact .ends (List.rel_append begins (.cons starts .nil))
  · rw [writable, if_neg room]
    exact .stops .write

/-- The arguments of two lines whose words begin those of the other. -/
theorem argumentsFrom_begins {words others : List Text} (same : Begins words others)
    (varflag : Bool) (places : List (List Desc)) {argv full : List Text}
    (begins : Begins argv full) :
    Both ArgsLike (argumentsFrom varflag places argv words)
      (argumentsFrom varflag places full others) := by
  induction same generalizing varflag places argv full with
  | nil => exact .ends (.args begins)
  | @cons word other later more starts same inductionHypothesis =>
      have next (varflag : Bool) (places : List (List Desc)) {argv full : List Text}
          (begins : Begins argv full) :
          Both ArgsLike
            (if cmdArgcMax ≤ argv.length then return none
              else argumentsFrom varflag places argv later)
            (if cmdArgcMax ≤ full.length then return none
              else argumentsFrom varflag places full more) := by
        rw [← begins.length_eq]
        split_ifs
        · exact .ends .many
        · exact inductionHypothesis varflag places begins
      have lower : startsText (lowered word) (lowered other) = true := by
        rw [startsText_iff, lowered_lowered, lowered_lowered]
        exact (startsText_iff _ _).1 starts
      cases varflag with
      | true =>
          rw [argumentsFrom_true, argumentsFrom_true]
          exact (begins.push starts).bind fun _ _ begins => next true places begins
      | false =>
          cases places with
          | nil => exact .stops .read
          | cons descvec places =>
              rw [argumentsFrom_false, argumentsFrom_false]
              cases argUse descvec with
              | none => exact next false places begins
              | uncounted =>
                  exact (begins.push starts).bind fun _ _ begins =>
                    inductionHypothesis false places begins
              | plain => exact (begins.push starts).bind fun _ _ begins => next false places begins
              | lower => exact (begins.push lower).bind fun _ _ begins => next false places begins
              | rest => exact (begins.push starts).bind fun _ _ begins => next true places begins

/-- The command that is chosen for two lines. -/
theorem choose_like {kind other : MatchType} (same : kind = .varargMatch ↔ other = .varargMatch)
    (index : Nat) (left : CmdVector Func) {words full : List Text} (begins : Begins words full)
    (iPriority : Int) :
    Both Dispatch.Like (choose kind index left words iPriority)
      (choose other index left full iPriority) := by
  have ready : @CmdElement.ready Func kind index = CmdElement.ready other index := by
    funext element
    simp only [CmdElement.ready, same]
  rw [choose, choose, ready]
  cases left.reduceOption.filter (CmdElement.ready other index) with
  | nil => exact .ends (.failed _)
  | cons element more =>
      cases more with
      | nil =>
          dsimp only
          split_ifs
          · exact .ends (.failed _)
          · refine (argumentsFrom_begins begins false element.strvec .nil).bind fun _ _ args => ?_
            cases args with
            | many => exact .ends (.failed _)
            | args begins => exact .ends (.run element begins)
      | cons second more => exact .ends (.failed _)

/-- An abbreviation that is not ambiguous is as good as the word it stands for, wherever it stands
in a line and whatever the other words are: the line fails alike, or calls the same function. But
the function gets what was typed, the beginning of what it would get of the full line. -/
theorem expanded_line_runs (v : CmdVector Func) (words : List Text) (iPriority : Int) :
    Both Dispatch.Like (cmdExecuteCommandReal v words iPriority)
      (cmdExecuteCommandReal v (expandFrom 0 v words) iPriority) := by
  have like : (narrow 0 .noMatch v words).Like (narrow 0 .noMatch v (expandFrom 0 v words)) :=
    narrow_expandFrom words Iff.rfl
  rw [cmdExecuteCommandReal, cmdExecuteCommandReal]
  generalize narrow 0 .noMatch v words = typed at like ⊢
  generalize narrow 0 .noMatch v (expandFrom 0 v words) = full at like ⊢
  cases like with
  | stopped status => exact .ends (.failed status)
  | reached index left same =>
      exact choose_like same index left (expandFrom_starts words 0 v) iPriority

end Expand

end Rsu.Cli.Command
