import Rsu.Cli.Words

/-!
# The templates of commands

A command is installed with a template such as `show (information|parameter)` and with a text of
descriptions. `cmd_make_descvec` cuts the template into the words that may stand at each place of
the command, and gives every word the next lines of the text.
-/

namespace Rsu.Cli.Command

open Rsu.CString

/-- `struct desc` -/
structure Desc where
  cmd : Text
  str : List (Option Text)
  deriving DecidableEq

/-- `CMD_HELP_LANG_NUM` -/
def cmdHelpLangNum : Nat := 2

/-- A character in front of the end of a line. -/
def inLine (char : Char8) : Bool := char ≠ 0x0D && char ≠ 0x0A

/-- `cmd_deoam_str`: the next line, and where the text goes on. -/
def cmdDeoamStr (string : Text) : Option Text × Text :=
  let cp := string.dropWhile isSpace
  if cp = [] then (none, string) else (some (cp.takeWhile inLine), cp.dropWhile inLine)

/-- `desc->str[i] = cmd_deoam_str (&dp)` for some languages. -/
def deoamStrs : Nat → Text → List (Option Text) × Text
  | 0, dp => ([], dp)
  | count + 1, dp =>
      let (line, dp) := cmdDeoamStr dp
      let (lines, dp) := deoamStrs count dp
      (line :: lines, dp)

/-- `if (*cp == '(')` -/
def openGroup (multiple : Nat) (cp : Text) : Nat × Text :=
  if cp.head? = some 0x28 then (1, cp.tail) else (multiple, cp)

/-- `if (*cp == ')')` -/
def closeGroup (multiple : Nat) (cp : Text) : Nat × Text :=
  if cp.head? = some 0x29 then (0, cp.tail) else (multiple, cp)

/-- From the top of the loop of `cmd_make_descvec` to the next word; a `|` outside of a group
leaves the program. -/
def toWord (multiple : Nat) (cp : Text) : Option (Nat × Text) :=
  let (multiple, cp) := openGroup multiple (cp.dropWhile isSpace)
  let (multiple, cp) := closeGroup multiple cp
  if cp.head? = some 0x7C then
    if multiple = 0 then none else some (openGroup multiple (cp.tail.dropWhile isSpace))
  else some (openGroup multiple (cp.dropWhile isSpace))

/-- A character that does not end a word of a template. -/
def inToken (char : Char8) : Bool := inWord char && char ≠ 0x29 && char ≠ 0x7C

/-- `vector_set (strvec, desc)` where `strvec` is the last vector. -/
def addLast : List (List Desc) → Desc → List (List Desc)
  | [], desc => [[desc]]
  | [strvec], desc => [strvec ++ [desc]]
  | strvec :: next :: more, desc => strvec :: addLast (next :: more) desc

section Progress

theorem openGroup_length (multiple : Nat) (cp : Text) :
    (openGroup multiple cp).2.length ≤ cp.length := by
  rw [openGroup]
  split <;> simp

theorem closeGroup_length (multiple : Nat) (cp : Text) :
    (closeGroup multiple cp).2.length ≤ cp.length := by
  rw [closeGroup]
  split <;> simp

theorem dropWhile_length (test : Char8 → Bool) (cp : Text) :
    (cp.dropWhile test).length ≤ cp.length := (List.dropWhile_suffix test).length_le

theorem tail_length (cp : Text) : cp.tail.length ≤ cp.length := by simp

/-- The next word is not in front of what was read. -/
theorem toWord_length {multiple next : Nat} {cp word : Text}
    (found : toWord multiple cp = some (next, word)) :
    word.length ≤ (closeGroup (openGroup multiple (cp.dropWhile isSpace)).1
      (openGroup multiple (cp.dropWhile isSpace)).2).2.length := by
  rw [toWord] at found
  dsimp only at found
  generalize closeGroup _ _ = closed at found ⊢
  have last : ∀ text : Text, (openGroup closed.1 (text.dropWhile isSpace)).2.length ≤
      text.length := fun text => (openGroup_length _ _).trans (dropWhile_length _ _)
  split at found
  · split at found
    · cases found
    · have same := congrArg Prod.snd (Option.some.inj found)
      rw [← show _ = word from same]
      exact (last _).trans (tail_length _)
  · have same := congrArg Prod.snd (Option.some.inj found)
    rw [← show _ = word from same]
    exact last _

@[simp] theorem openGroup_open (multiple : Nat) (cp : Text) :
    openGroup multiple (0x28 :: cp) = (1, cp) := rfl

@[simp] theorem closeGroup_close (multiple : Nat) (cp : Text) :
    closeGroup multiple (0x29 :: cp) = (0, cp) := rfl

theorem openGroup_other {multiple : Nat} {cp : Text} (other : cp.head? ≠ some 0x28) :
    openGroup multiple cp = (multiple, cp) := if_neg other

theorem closeGroup_other {multiple : Nat} {cp : Text} (other : cp.head? ≠ some 0x29) :
    closeGroup multiple cp = (multiple, cp) := if_neg other

/-- The text begins with a word of a template. -/
def Starts (cp : Text) : Prop :=
  ∀ char ∈ cp.head?, inToken char = true ∧ char ≠ 0x28

/-- What begins a word is no punctuation. -/
theorem Starts.head {cp : Text} (starts : Starts cp) :
    cp.dropWhile isSpace = cp ∧ cp.head? ≠ some 0x28 ∧ cp.head? ≠ some 0x29 ∧
      cp.head? ≠ some 0x7C := by
  cases cp with
  | nil => simp
  | cons first rest =>
      obtain ⟨token, notOpen⟩ := starts first rfl
      simp only [inToken, inWord, isBreak_eq_isSpace, Bool.and_eq_true, Bool.not_eq_true',
        decide_eq_true_eq] at token
      obtain ⟨⟨notSpace, notClose⟩, notBar⟩ := token
      refine ⟨List.dropWhile_cons_of_neg (by simp [notSpace]), ?_, ?_, ?_⟩
      · exact fun same => notOpen (Option.some.inj same)
      · exact fun same => notClose (Option.some.inj same)
      · exact fun same => notBar (Option.some.inj same)

/-- A word is found where it begins. -/
theorem toWord_starts {cp : Text} (multiple : Nat) (starts : Starts cp) :
    toWord multiple cp = some (multiple, cp) := by
  obtain ⟨blank, notOpen, notClose, notBar⟩ := starts.head
  simp only [toWord, blank, openGroup_other notOpen, closeGroup_other notClose, if_neg notBar]

/-- A `|` inside of a group is followed by another word. -/
theorem toWord_bar (multiple : Nat) (rest : Text) : toWord multiple (0x7C :: rest) =
    if multiple = 0 then none else some (openGroup multiple (rest.dropWhile isSpace)) := rfl

/-- Every turn of the loop moves on. -/
theorem toWord_progress {multiple next : Nat} {cp word : Text}
    (found : toWord multiple cp = some (next, word)) (more : word ≠ []) :
    (word.dropWhile inToken).length < cp.length := by
  cases cp with
  | nil =>
      have short := toWord_length found
      simp [openGroup, closeGroup] at short
      exact absurd short more
  | cons first rest =>
      by_cases token : inToken first = true ∧ first ≠ 0x28
      · have starts : Starts (first :: rest) := by
          rintro char ⟨⟩
          exact token
        rw [toWord_starts multiple starts] at found
        cases found
        rw [List.dropWhile_cons_of_pos token.1]
        exact Nat.lt_succ_of_le (dropWhile_length _ _)
      · -- the first character is skipped
        refine Nat.lt_succ_of_le ((dropWhile_length _ _).trans ?_)
        by_cases space : isSpace first = true
        · refine (toWord_length found).trans ?_
          rw [List.dropWhile_cons_of_pos space]
          exact (closeGroup_length _ _).trans
            ((openGroup_length _ _).trans (dropWhile_length _ _))
        · have blank : (first :: rest).dropWhile isSpace = first :: rest :=
            List.dropWhile_cons_of_neg space
          by_cases isOpen : first = 0x28
          · refine (toWord_length found).trans ?_
            rw [blank, isOpen, openGroup_open]
            exact closeGroup_length _ _
          · have notOpen : (first :: rest).head? ≠ some 0x28 :=
              fun same => isOpen (Option.some.inj same)
            by_cases isClose : first = 0x29
            · refine (toWord_length found).trans ?_
              rw [blank, openGroup_other notOpen, isClose, closeGroup_close]
            · have notClose : (first :: rest).head? ≠ some 0x29 :=
                fun same => isClose (Option.some.inj same)
              have isBar : first = 0x7C := by
                simp only [inToken, inWord, isBreak_eq_isSpace, Bool.and_eq_true,
                  Bool.not_eq_true', decide_eq_true_eq, not_and, not_not] at token
                by_contra notBar
                exact isOpen (token ⟨⟨by simpa using space, isClose⟩, notBar⟩)
              rw [isBar, toWord_bar] at found
              split at found
              · cases found
              · have same := congrArg Prod.snd (Option.some.inj found)
                rw [← show _ = word from same]
                exact (openGroup_length _ _).trans (dropWhile_length _ _)

end Progress

/-- The loop of `cmd_make_descvec`; `none` stands for `exit (1)`. -/
def descvecFrom (multiple : Nat) (cp dp : Text) (allvec : List (List Desc)) :
    Option (List (List Desc)) :=
  match _found : toWord multiple cp with
  | none => none
  | some (multiple, sp) =>
      if _more : sp = [] then some allvec
      else
        let (str, dp) := deoamStrs cmdHelpLangNum dp
        let desc : Desc := ⟨sp.takeWhile inToken, str⟩
        if multiple = 0 then
          descvecFrom 0 (sp.dropWhile inToken) dp (allvec ++ [[desc]])
        else
          descvecFrom (multiple + 1) (sp.dropWhile inToken) dp
            (if multiple = 1 then allvec ++ [[desc]] else addLast allvec desc)
termination_by cp.length
decreasing_by all_goals exact toWord_progress ‹_› ‹_›

/-- `cmd_make_descvec`, of a template that is not `NULL`. -/
def cmdMakeDescvec (string descstr : Text) : Option (List (List Desc)) :=
  descvecFrom 0 string descstr []

/-- `CMD_OPTION` -/
def cmdOption (word : Text) : Bool := word.head? = some 0x5B

/-- `cmd_cmdsize`: the words in front of an optional one. -/
def cmdCmdsize : List (List Desc) → Nat
  | [] => 0
  | [desc] :: later => if cmdOption desc.cmd then 0 else cmdCmdsize later + 1
  | _ :: later => cmdCmdsize later + 1

section Grammar

/-- The words that may stand at one place of a command. -/
inductive Item where
  | word (text : Text)
  | choice (first : Text) (more : List Text)

/-- How a place is written. -/
def Item.text : Item → Text
  | .word text => text
  | .choice first more => 0x28 :: (first ++ (more.flatMap (0x7C :: ·) ++ [0x29]))

/-- A word of a template. -/
def IsToken (word : Text) : Prop :=
  word ≠ [] ∧ (∀ char ∈ word, inToken char = true) ∧ word.head? ≠ some 0x28

/-- The words of a place are words of a template. -/
def Item.Sound : Item → Prop
  | .word text => IsToken text
  | .choice first more => IsToken first ∧ ∀ word ∈ more, IsToken word

/-- The places of a command, separated by spaces. -/
def template : List Item → Text
  | [] => []
  | [item] => item.text
  | item :: next :: more => item.text ++ 0x20 :: template (next :: more)

/-- A word with the next lines of the descriptions. -/
def describeWord (word dp : Text) : Desc × Text :=
  let (str, dp) := deoamStrs cmdHelpLangNum dp
  (⟨word, str⟩, dp)

/-- Words with the next lines of the descriptions. -/
def describeWords : List Text → Text → List Desc × Text
  | [], dp => ([], dp)
  | word :: more, dp =>
      let (desc, dp) := describeWord word dp
      let (descs, dp) := describeWords more dp
      (desc :: descs, dp)

/-- The words of a place. -/
def Item.words : Item → List Text
  | .word text => [text]
  | .choice first more => first :: more

/-- The places of a command, every word with its descriptions. -/
def describeItems : List Item → Text → List (List Desc)
  | [], _ => []
  | item :: more, dp =>
      let (descvec, dp) := describeWords item.words dp
      descvec :: describeItems more dp

/-- What stands behind a place. -/
def behind : List Item → Text
  | [] => []
  | item :: more => 0x20 :: template (item :: more)

/-- Where the first word of a template is found, and whether it is inside of a group. -/
def entry : List Item → Nat × Text
  | [] => (0, [])
  | .word text :: more => (0, text ++ behind more)
  | .choice first words :: more =>
      (1, first ++ (words.flatMap (0x7C :: ·) ++ 0x29 :: behind more))

/-- A template begins with its first item. -/
theorem template_cons (item : Item) (more : List Item) :
    template (item :: more) = item.text ++ behind more := by
  cases more with
  | nil => simp [template, behind]
  | cons next more => rfl

@[simp] theorem addLast_append (front : List (List Desc)) (strvec : List Desc) (desc : Desc) :
    addLast (front ++ [strvec]) desc = front ++ [strvec ++ [desc]] := by
  induction front with
  | nil => rfl
  | cons first front inductionHypothesis =>
      cases front with
      | nil => rfl
      | cons next front => exact congrArg (first :: ·) inductionHypothesis

/-- A token starts a word. -/
theorem IsToken.starts {word : Text} (token : IsToken word) (rest : Text) :
    Starts (word ++ rest) := by
  obtain ⟨nonempty, inside, notOpen⟩ := token
  obtain ⟨first, more, rfl⟩ := List.exists_cons_of_ne_nil nonempty
  rintro char ⟨⟩
  exact ⟨inside first List.mem_cons_self, fun same => notOpen (congrArg some same)⟩

/-- The word in front of what ends it. -/
theorem IsToken.split {word rest : Text} (token : IsToken word)
    (ends : ∀ char ∈ rest.head?, inToken char = false) :
    (word ++ rest).takeWhile inToken = word ∧ (word ++ rest).dropWhile inToken = rest :=
  ⟨takeWhile_front token.2.1 ends, dropWhile_front token.2.1 ends⟩

/-- A word is found behind white space and an opening parenthesis. -/
theorem toWord_open {multiple : Nat} {cp : Text}
    (starts : Starts (openGroup multiple (cp.dropWhile isSpace)).2) :
    toWord multiple cp = some (openGroup multiple (cp.dropWhile isSpace)) := by
  obtain ⟨blank, notOpen, notClose, notBar⟩ := starts.head
  simp only [toWord, closeGroup_other notClose, if_neg notBar, blank, openGroup_other notOpen]

/-- What follows an item ends its word. -/
theorem behind_ends (items : List Item) : ∀ char ∈ (behind items).head?, inToken char = false := by
  cases items with
  | nil => simp [behind]
  | cons item more =>
      rintro char ⟨⟩
      rfl

section Entry

variable {items : List Item}

/-- Every item starts with a word. -/
theorem entry_starts (sound : ∀ item ∈ items, item.Sound) : Starts (entry items).2 := by
  cases items with
  | nil => simp [entry, Starts]
  | cons item more =>
      have first := sound item List.mem_cons_self
      cases item with
      | word text => exact first.starts _
      | choice first words => exact IsToken.starts first.1 _

/-- A template begins with its first word, or with a group. -/
theorem openGroup_template (sound : ∀ item ∈ items, item.Sound) :
    openGroup 0 ((template items).dropWhile isSpace) = entry items := by
  cases items with
  | nil => rfl
  | cons item more =>
      have first := sound item List.mem_cons_self
      rw [template_cons]
      cases item with
      | word text =>
          obtain ⟨blank, notOpen, -, -⟩ := (IsToken.starts first (behind more)).head
          rw [Item.text, blank, openGroup_other notOpen, entry]
      | choice first words =>
          rw [Item.text, entry, List.cons_append, List.dropWhile_cons_of_neg (by decide),
            openGroup_open, List.append_assoc, List.append_assoc, List.singleton_append]

/-- Spaces in front of an item do not matter. -/
theorem behind_dropWhile (items : List Item) :
    (behind items).dropWhile isSpace = (template items).dropWhile isSpace := by
  cases items with
  | nil => rfl
  | cons item more => exact List.dropWhile_cons_of_pos (by decide)

/-- The first word of a template is that of its first item. -/
theorem toWord_template (sound : ∀ item ∈ items, item.Sound) :
    toWord 0 (template items) = some (entry items) := by
  have starts := entry_starts sound
  rw [← openGroup_template sound] at starts ⊢
  exact toWord_open starts

/-- The next word behind a word. -/
theorem toWord_behind (sound : ∀ item ∈ items, item.Sound) :
    toWord 0 (behind items) = some (entry items) := by
  have starts := entry_starts sound
  rw [← openGroup_template sound, ← behind_dropWhile] at starts ⊢
  exact toWord_open starts

/-- The next word behind a group. -/
theorem toWord_close (multiple : Nat) (sound : ∀ item ∈ items, item.Sound) :
    toWord multiple (0x29 :: behind items) = some (entry items) := by
  have notBar : (behind items).head? ≠ some 0x7C := by
    intro bar
    have ends := behind_ends items 0x7C bar
    cases items with
    | nil => cases bar
    | cons item more => cases bar
  have shape : toWord multiple (0x29 :: behind items) =
      if (behind items).head? = some 0x7C then none
      else some (openGroup 0 ((behind items).dropWhile isSpace)) := rfl
  rw [shape, if_neg notBar, behind_dropWhile, openGroup_template sound]

end Entry

/-- One turn of the loop. -/
theorem descvecFrom_turn {multiple next : Nat} {cp word rest dp : Text}
    {allvec : List (List Desc)} (found : toWord multiple cp = some (next, word ++ rest))
    (token : IsToken word) (ends : ∀ char ∈ rest.head?, inToken char = false) :
    descvecFrom multiple cp dp allvec =
      if next = 0 then
        descvecFrom 0 rest (describeWord word dp).2 (allvec ++ [[(describeWord word dp).1]])
      else
        descvecFrom (next + 1) rest (describeWord word dp).2
          (if next = 1 then allvec ++ [[(describeWord word dp).1]]
            else addLast allvec (describeWord word dp).1) := by
  have filled : word ++ rest ≠ [] := by simp [token.1]
  rw [descvecFrom]
  split
  next exits =>
    rw [found] at exits
    cases exits
  next multiple' sp same =>
    rw [found] at same
    obtain ⟨rfl, rfl⟩ := Prod.mk.inj (Option.some.inj same)
    rw [dif_neg filled, (token.split ends).1, (token.split ends).2]
    rfl

/-- A word of a group ends at the next word, or with the group. -/
theorem group_ends (more : List Text) (tail : Text) :
    ∀ char ∈ (more.flatMap (0x7C :: ·) ++ 0x29 :: tail).head?, inToken char = false := by
  cases more with
  | nil =>
      rintro char ⟨⟩
      rfl
  | cons next more =>
      rintro char ⟨⟩
      rfl

/-- The other words of a group. -/
theorem descvecFrom_group {more : List Text} (tokens : ∀ word ∈ more, IsToken word)
    {multiple : Nat} (inside : 2 ≤ multiple) (tail dp : Text) (front : List (List Desc))
    (strvec : List Desc) :
    descvecFrom multiple (more.flatMap (0x7C :: ·) ++ 0x29 :: tail) dp (front ++ [strvec]) =
      descvecFrom (multiple + more.length) (0x29 :: tail) (describeWords more dp).2
        (front ++ [strvec ++ (describeWords more dp).1]) := by
  induction more generalizing multiple dp strvec with
  | nil => simp [describeWords]
  | cons word more inductionHypothesis =>
      have token := tokens word List.mem_cons_self
      have later : ∀ word ∈ more, IsToken word :=
        fun word member => tokens word (List.mem_cons_of_mem _ member)
      have found : toWord multiple ((word :: more).flatMap (0x7C :: ·) ++ 0x29 :: tail) =
          some (multiple, word ++ (more.flatMap (0x7C :: ·) ++ 0x29 :: tail)) := by
        obtain ⟨blank, notOpen, -, -⟩ :=
          (token.starts (more.flatMap (0x7C :: ·) ++ 0x29 :: tail)).head
        rw [List.flatMap_cons, List.cons_append, List.cons_append, List.append_assoc, toWord_bar,
          if_neg (by omega), blank, openGroup_other notOpen]
      rw [descvecFrom_turn found token (group_ends more tail), if_neg (by omega),
        if_neg (by omega),
        addLast_append, inductionHypothesis later (by omega)]
      simp only [describeWords, List.length_cons, List.append_assoc, List.singleton_append]
      congr 1
      omega

/-- From the place where the first word is found, the loop finds all places. -/
theorem descvecFrom_entry {items : List Item} (sound : ∀ item ∈ items, item.Sound)
    {multiple : Nat} {cp : Text} (found : toWord multiple cp = some (entry items)) (dp : Text)
    (allvec : List (List Desc)) :
    descvecFrom multiple cp dp allvec = some (allvec ++ describeItems items dp) := by
  induction items generalizing multiple cp dp allvec with
  | nil =>
      rw [descvecFrom]
      split
      next exits =>
        rw [found] at exits
        cases exits
      next multiple' sp same =>
        rw [found] at same
        obtain ⟨rfl, rfl⟩ := Prod.mk.inj (Option.some.inj same)
        rw [dif_pos rfl, describeItems, List.append_nil]
  | cons item more inductionHypothesis =>
      have first := sound item List.mem_cons_self
      have later : ∀ item ∈ more, item.Sound :=
        fun item member => sound item (List.mem_cons_of_mem _ member)
      cases item with
      | word text =>
          rw [descvecFrom_turn found first (behind_ends more), if_pos rfl,
            inductionHypothesis later (toWord_behind later)]
          simp [describeItems, Item.words, describeWords]
      | choice word words =>
          obtain ⟨token, tokens⟩ := first
          rw [descvecFrom_turn found token (group_ends words (behind more)), if_neg (by decide),
            if_pos rfl, descvecFrom_group tokens (by decide),
            inductionHypothesis later (toWord_close _ later)]
          simp [describeItems, Item.words, describeWords]

/-- A template is cut into its places, and each word takes its lines of the descriptions in
order. -/
theorem cmdMakeDescvec_template (items : List Item) (sound : ∀ item ∈ items, item.Sound)
    (descstr : Text) :
    cmdMakeDescvec (template items) descstr = some (describeItems items descstr) :=
  descvecFrom_entry sound (toWord_template sound) descstr []

end Grammar

end Rsu.Cli.Command
