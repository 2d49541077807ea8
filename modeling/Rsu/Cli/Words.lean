import Rsu.Semantics.CString

/-!
# The words of a command line

`cmd_make_strvec` cuts a line into its words, `argv_concat` joins words to a line. A text is what
stands in front of the `\0` of a string; the vector of the words is a list, since no slot of it is
ever `NULL`.
-/

namespace Rsu.Cli.Command

open Rsu.CString

/-- A string of C, without the `\0` behind it. -/
abbrev Text := List Char8

/-- `isspace ((int) *cp) || *cp == '\n' || *cp == '\r'` -/
def isBreak (char : Char8) : Bool := isSpace char || char = 0x0A || char = 0x0D

/-- A character that belongs to a word. -/
def inWord (char : Char8) : Bool := !isBreak char

/-- What stands behind the first word of a text and the white space after it. -/
def behindWord (cp : Text) : Text := (cp.dropWhile inWord).dropWhile isBreak

/-- A word, the blanks behind it and the rest make up the line. -/
theorem behindWord_append (cp : Text) :
    cp = cp.takeWhile inWord ++ ((cp.dropWhile inWord).takeWhile isBreak ++ behindWord cp) := by
  rw [behindWord, List.takeWhile_append_dropWhile, List.takeWhile_append_dropWhile]

/-- What is left begins with a character that fails the test. -/
theorem dropWhile_head (test : Char8 → Bool) (text : Text) :
    ∀ char ∈ (text.dropWhile test).head?, test char = false := by
  intro char found
  have stopped := List.head?_dropWhile_not test text
  rw [Option.mem_def.1 found] at stopped
  exact stopped

/-- Every turn of the loop moves on. -/
theorem behindWord_length {cp : Text} (more : behindWord cp ≠ []) :
    (behindWord cp).length < cp.length := by
  cases cp with
  | nil => exact absurd rfl more
  | cons first rest =>
      have shorter : ∀ (test : Char8 → Bool) (text : Text),
          (text.dropWhile test).length ≤ text.length := fun test text =>
        (List.dropWhile_suffix test).length_le
      rw [behindWord]
      by_cases word : inWord first = true
      · rw [List.dropWhile_cons_of_pos word]
        exact Nat.lt_succ_of_le ((shorter isBreak _).trans (shorter inWord rest))
      · have blank : isBreak first = true := by simpa [inWord] using word
        rw [List.dropWhile_cons_of_neg word, List.dropWhile_cons_of_pos blank]
        exact Nat.lt_succ_of_le (shorter isBreak rest)

/-- `while (1)` of `cmd_make_strvec`, from the start of a word on. -/
def strvecFrom (cp : Text) : List Text :=
  if behindWord cp = [] then [cp.takeWhile inWord]
  else cp.takeWhile inWord :: strvecFrom (behindWord cp)
termination_by cp.length
decreasing_by exact behindWord_length ‹_›

/-- `cmd_make_strvec`, of a string that is not `NULL`. -/
def cmdMakeStrvec (string : Text) : Option (List Text) :=
  let cp := string.dropWhile isSpace
  if cp = [] then none else some (strvecFrom cp)

/-- `argv_concat` -/
def argvConcat (argv : List Text) (shift : Nat) : Option Text :=
  let str := (argv.drop shift).flatMap fun arg => arg ++ [0x20]
  if str = [] then none else some str.dropLast

section Layout

/-- A word, and the white space behind it. -/
abbrev Piece := Text × Text

/-- The text of words with the white space behind each of them. -/
def layout (pieces : List Piece) : Text := pieces.flatMap fun piece => piece.1 ++ piece.2

/-- Words of a command line: none is empty, and none contains white space. -/
def IsWord (word : Text) : Prop := word ≠ [] ∧ ∀ char ∈ word, inWord char = true

/-- White space. -/
def IsGap (gap : Text) : Prop := ∀ char ∈ gap, isBreak char = true

/-- Words with white space between them; behind the last there may be none. -/
def LaidOut : List Piece → Prop
  | [] => True
  | [piece] => IsWord piece.1 ∧ IsGap piece.2
  | piece :: next :: later =>
      IsWord piece.1 ∧ IsGap piece.2 ∧ piece.2 ≠ [] ∧ LaidOut (next :: later)

/-- The line begins with white space, and goes on with the words. -/
def Spells (line : Text) (words : List Text) : Prop :=
  ∃ lead pieces, (∀ char ∈ lead, isSpace char = true) ∧ line = lead ++ layout pieces ∧
    LaidOut pieces ∧ pieces.map Prod.fst = words

/-- A space breaks words. -/
theorem isBreak_of_isSpace {char : Char8} (space : isSpace char = true) : isBreak char = true := by
  simp [isBreak, space]

/-- `isspace` knows both ends of a line already. -/
theorem isBreak_eq_isSpace : ∀ char : Char8, isBreak char = isSpace char := by
  decide +kernel

/-- The first piece, and the others. -/
theorem LaidOut.head {piece : Piece} {later : List Piece} (laid : LaidOut (piece :: later)) :
    IsWord piece.1 ∧ IsGap piece.2 ∧ LaidOut later := by
  cases later with
  | nil => exact ⟨laid.1, laid.2, trivial⟩
  | cons next later => exact ⟨laid.1, laid.2.1, laid.2.2.2⟩

/-- What is laid out begins with a character of a word. -/
theorem LaidOut.first {piece : Piece} {later : List Piece} (laid : LaidOut (piece :: later)) :
    ∃ char rest, layout (piece :: later) = char :: rest ∧ inWord char = true := by
  obtain ⟨⟨nonempty, word⟩, -, -⟩ := laid.head
  obtain ⟨char, rest, shape⟩ := List.exists_cons_of_ne_nil nonempty
  refine ⟨char, rest ++ piece.2 ++ layout later, ?_, word char (by simp [shape])⟩
  simp [layout, shape]

theorem LaidOut.layout_ne_nil {piece : Piece} {later : List Piece}
    (laid : LaidOut (piece :: later)) : layout (piece :: later) ≠ [] := by
  obtain ⟨char, rest, shape, -⟩ := laid.first
  rw [shape]
  exact List.cons_ne_nil char rest

/-- The first word of a layout, and what is behind it. -/
theorem LaidOut.takeWhile {piece : Piece} {later : List Piece} (laid : LaidOut (piece :: later)) :
    (layout (piece :: later)).takeWhile inWord = piece.1 ∧
      behindWord (layout (piece :: later)) = layout later := by
  obtain ⟨⟨-, word⟩, gap, rest⟩ := laid.head
  have shape : layout (piece :: later) = piece.1 ++ (piece.2 ++ layout later) := by
    simp [layout]
  have stops : ∀ char ∈ (piece.2 ++ layout later).head?, inWord char = false := by
    cases blank : piece.2 with
    | cons char rest =>
        rintro char ⟨⟩
        simp [inWord, gap char (by simp [blank])]
    | nil =>
        cases later with
        | nil => simp [layout]
        | cons next later => exact absurd blank laid.2.2.1
  have starts : ∀ char ∈ (layout later).head?, isBreak char = false := by
    cases later with
    | nil => simp [layout]
    | cons next later =>
        obtain ⟨char, tail, begins, inside⟩ := rest.first
        rw [begins]
        rintro char ⟨⟩
        simpa [inWord] using inside
  constructor
  · rw [shape, takeWhile_front word stops]
  · rw [behindWord, shape, dropWhile_front word stops, dropWhile_front gap starts]

/-- The loop finds the words that are laid out. -/
theorem strvecFrom_layout {piece : Piece} {later : List Piece} (laid : LaidOut (piece :: later)) :
    strvecFrom (layout (piece :: later)) = (piece :: later).map Prod.fst := by
  induction later generalizing piece with
  | nil =>
      rw [strvecFrom, laid.takeWhile.1, laid.takeWhile.2, if_pos (by simp [layout])]
      rfl
  | cons next later inductionHypothesis =>
      have rest := laid.head.2.2
      rw [strvecFrom, laid.takeWhile.1, laid.takeWhile.2, if_neg rest.layout_ne_nil,
        inductionHypothesis rest]
      rfl

/-- Every text that begins with a word is laid out in words. -/
theorem exists_layout {cp : Text} {first : Char8} {rest : Text} (begins : cp = first :: rest)
    (word : inWord first = true) :
    ∃ piece later, cp = layout (piece :: later) ∧ LaidOut (piece :: later) := by
  induction size : cp.length using Nat.strong_induction_on generalizing cp first rest with
  | _ size inductionHypothesis =>
      have isWord : IsWord (cp.takeWhile inWord) := by
        constructor
        · simp [begins, word]
        · exact fun char member => List.mem_takeWhile_imp member
      have isGap : IsGap ((cp.dropWhile inWord).takeWhile isBreak) :=
        fun char member => List.mem_takeWhile_imp member
      have split := behindWord_append cp
      cases behind : behindWord cp with
      | nil =>
          refine ⟨(cp.takeWhile inWord, (cp.dropWhile inWord).takeWhile isBreak), [], ?_,
            isWord, isGap⟩
          rw [behind] at split
          simpa [layout] using split
      | cons char tail =>
          have more : behindWord cp ≠ [] := by simp [behind]
          have inside : inWord char = true := by
            have stopped := dropWhile_head isBreak (cp.dropWhile inWord) char
              (by rw [← behindWord, behind]; rfl)
            simpa [inWord] using stopped
          obtain ⟨piece, later, same, laid⟩ := inductionHypothesis (behindWord cp).length
            (size ▸ behindWord_length more) behind inside rfl
          refine ⟨(cp.takeWhile inWord, (cp.dropWhile inWord).takeWhile isBreak), piece :: later,
            ?_, isWord, isGap, ?_, laid⟩
          · rw [same] at split
            simpa [layout] using split
          · -- without white space the word would go on
            intro noGap
            have next : cp.dropWhile inWord = behindWord cp := by
              calc cp.dropWhile inWord
                  = (cp.dropWhile inWord).takeWhile isBreak ++ behindWord cp :=
                    List.takeWhile_append_dropWhile.symm
                _ = behindWord cp := by
                    rw [show (cp.dropWhile inWord).takeWhile isBreak = [] from noGap,
                      List.nil_append]
            have stopped := dropWhile_head inWord cp char (by rw [next, behind]; rfl)
            rw [inside] at stopped
            cases stopped

end Layout

/-- The words of a line are found. -/
theorem cmdMakeStrvec_of_spells {line : Text} {words : List Text} (nonempty : words ≠ [])
    (spells : Spells line words) : cmdMakeStrvec line = some words := by
  obtain ⟨lead, pieces, space, rfl, laid, rfl⟩ := spells
  cases pieces with
  | nil => exact absurd rfl nonempty
  | cons piece later =>
      obtain ⟨char, rest, begins, word⟩ := laid.first
      have stops : ∀ char ∈ (layout (piece :: later)).head?, isSpace char = false := by
        rw [begins]
        rintro char ⟨⟩
        simpa [inWord, isBreak_eq_isSpace] using word
      rw [cmdMakeStrvec, dropWhile_front space stops, if_neg laid.layout_ne_nil,
        strvecFrom_layout laid]

/-- What is found are words of the line. -/
theorem spells_of_cmdMakeStrvec {line : Text} {words : List Text}
    (cut : cmdMakeStrvec line = some words) : words ≠ [] ∧ Spells line words := by
  rw [cmdMakeStrvec] at cut
  split at cut
  · cases cut
  next filled =>
    obtain ⟨first, rest, begins⟩ := List.exists_cons_of_ne_nil filled
    have word : inWord first = true := by
      have stopped := dropWhile_head isSpace line first (by rw [begins]; rfl)
      simpa [inWord, isBreak_eq_isSpace] using stopped
    obtain ⟨piece, later, shape, laid⟩ := exists_layout begins word
    rw [shape, strvecFrom_layout laid] at cut
    obtain rfl := Option.some.inj cut
    refine ⟨by simp, line.takeWhile isSpace, piece :: later,
      fun char member => List.mem_takeWhile_imp member, ?_, laid, rfl⟩
    rw [← shape, List.takeWhile_append_dropWhile]

/-- The last piece of a layout. -/
theorem LaidOut.last {pieces : List Piece} {piece : Piece} (laid : LaidOut (pieces ++ [piece])) :
    IsWord piece.1 ∧ IsGap piece.2 ∧
      ∀ char ∈ (layout pieces).getLast?, isBreak char = true := by
  induction pieces with
  | nil => exact ⟨laid.1, laid.2, fun _ none => by cases none⟩
  | cons first later inductionHypothesis =>
      obtain ⟨-, gap, rest⟩ := laid.head
      obtain ⟨word, blank, ends⟩ := inductionHypothesis rest
      refine ⟨word, blank, fun char found => ?_⟩
      have shape : layout (first :: later) = first.1 ++ first.2 ++ layout later := by simp [layout]
      cases later with
      | nil =>
          have some : first.2 ≠ [] := laid.2.2.1
          rw [shape, show layout [] = [] from rfl, List.append_nil,
            List.getLast?_append_of_ne_nil _ some] at found
          exact gap char (List.mem_of_getLast? found)
      | cons next later =>
          have word : next.1 ≠ [] := rest.head.1.1
          rw [shape, List.getLast?_append_of_ne_nil _ (by simp [layout, word])] at found
          exact ends char found

/-- A line that does not end in white space ends in its last word. -/
theorem exists_last_word {line : Text} {words : List Text} (cut : cmdMakeStrvec line = some words)
    (ends : ∀ char ∈ line.getLast?, isBreak char = false) :
    ∃ front last, line = front ++ last ∧ words.getLast? = some last ∧
      (∀ char ∈ front.getLast?, isBreak char = true) ∧ IsWord last := by
  obtain ⟨nonempty, lead, pieces, blank, rfl, laid, rfl⟩ := spells_of_cmdMakeStrvec cut
  obtain ⟨pieces, piece, rfl⟩ := (List.eq_nil_or_concat' pieces).resolve_left (by
    rintro rfl
    exact nonempty rfl)
  obtain ⟨word, gap, closes⟩ := laid.last
  have bare : piece.2 = [] := by
    by_contra filled
    have found : (lead ++ layout (pieces ++ [piece])).getLast? = piece.2.getLast? := by
      rw [layout, List.flatMap_append, List.flatMap_singleton, ← List.append_assoc,
        ← List.append_assoc, List.getLast?_append_of_ne_nil _ filled]
    have last := List.getLast?_eq_some_getLast filled
    have broken := ends _ (by rw [found, last]; rfl)
    rw [gap _ (List.getLast_mem filled)] at broken
    cases broken
  refine ⟨lead ++ layout pieces, piece.1, ?_, by simp, fun char found => ?_, word⟩
  · simp [layout, bare]
  · by_cases filled : layout pieces = []
    · rw [filled, List.append_nil] at found
      exact isBreak_of_isSpace (blank char (List.mem_of_getLast? found))
    · rw [List.getLast?_append_of_ne_nil _ filled] at found
      exact closes char found

/-- A line is cut into exactly the words it spells. -/
theorem cmdMakeStrvec_eq_some_iff (line : Text) (words : List Text) :
    cmdMakeStrvec line = some words ↔ words ≠ [] ∧ Spells line words :=
  ⟨spells_of_cmdMakeStrvec, fun spelled => cmdMakeStrvec_of_spells spelled.1 spelled.2⟩

/-- Words joined by spaces are cut apart again. -/
theorem cmdMakeStrvec_argvConcat {words : List Text} (nonempty : words ≠ [])
    (isWord : ∀ word ∈ words, IsWord word) :
    (argvConcat words 0).bind cmdMakeStrvec = some words := by
  have spread : ∀ {first : Text} {more : List Text}, (∀ word ∈ first :: more, IsWord word) →
      ∃ pieces, ((first :: more).flatMap fun arg => arg ++ [0x20]).dropLast = layout pieces ∧
        LaidOut pieces ∧ pieces.map Prod.fst = first :: more := by
    intro first more
    induction more generalizing first with
    | nil =>
        intro isWord
        refine ⟨[(first, [])], by simp [layout], ⟨isWord first (by simp), by simp [IsGap]⟩, rfl⟩
    | cons next more inductionHypothesis =>
        intro isWord
        obtain ⟨pieces, same, laid, map⟩ := inductionHypothesis
          fun word member => isWord word (List.mem_cons_of_mem _ member)
        cases pieces with
        | nil => cases map
        | cons piece later =>
            refine ⟨(first, [0x20]) :: piece :: later, ?_,
              ⟨isWord first (by simp), by simp [IsGap, isBreak, isSpace], by simp, laid⟩, by
                rw [List.map_cons, map]⟩
            rw [List.flatMap_cons, List.dropLast_append_of_ne_nil (by simp), same]
            simp [layout]
  obtain ⟨first, more, rfl⟩ := List.exists_cons_of_ne_nil nonempty
  obtain ⟨pieces, same, laid, map⟩ := spread isWord
  rw [argvConcat, List.drop_zero, if_neg (by simp), Option.bind_some]
  exact cmdMakeStrvec_of_spells nonempty ⟨[], pieces, by simp, same, laid, map⟩

end Rsu.Cli.Command
