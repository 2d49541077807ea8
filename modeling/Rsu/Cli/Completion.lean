import Rsu.Cli.Spelling
import Rsu.Data.CommonPrefix

/-!
# The completion of a line

A tab completes the last word of a line as far as the commands agree that fit the words in front of
it. `cmd_complete_command_real` collects the words that it may stand for, each of them once.
-/

namespace Rsu.Cli.Command

open Data

variable {Func : Type}

/-- `CMD_ATTR_DEPRECATED` and `CMD_ATTR_HIDDEN` -/
def hiddenAttr (attr : Nat) : Bool := attr = 1 || attr = 2

/-- `cmd_entry_function` -/
def cmdEntryFunction (src : Option Text) (dst : Text) : Option Text :=
  if cmdOption dst || cmdVariable dst || cmdVararg dst || cmdIpv4 dst || cmdIpv4Prefix dst ||
      cmdRange dst || cmdMulti dst then none
  else
    match src with
    | none => some dst
    | some src => if startsText src dst then some dst else none

/-- `cmd_unique_string` -/
def cmdUniqueString (v : List Text) (str : Text) : Bool := !v.any fun found => sameText found str

/-- `cmd_lcd`, of words that are not empty lists of characters. -/
def cmdLcd : List Text → Nat
  | s :: later => (neighbourLength s later).getD 0
  | [] => 0

/-- What `is_cmd_ambiguous` leaves when it returns 2: it returns at the first slot with a word that
counts, and has emptied the slots in front of it. -/
def leftEarly (type : MatchType) (command : Text) (index : Nat) : CmdVector Func → CmdVector Func
  | [] => []
  | none :: later => none :: leftEarly type command index later
  | some element :: later =>
      if element.kept type command index then some element :: later
      else none :: leftEarly type command index later

/-- The loop over the words in front of the last; `none` stands for `CMD_ERR_AMBIGUOUS`. -/
def preceding (index : Nat) (v : CmdVector Func) : List (Option Text) → Option (CmdVector Func)
  | [] => some v
  | none :: later => preceding (index + 1) v later
  | some command :: later =>
      let (matchType, v) := cmdFilterByCompletion command v index
      match isCmdAmbiguous command v index matchType with
      | .ok v => preceding (index + 1) v later
      | .error ret =>
          if ret = 1 then none
          else preceding (index + 1) (leftEarly matchType command index v) later

/-- `vector_set (matchvec, XSTRDUP (…))`, for a word of a place. -/
def collectDesc (src : Option Text) (matchvec : List Text) (desc : Desc) : List Text :=
  match cmdEntryFunction src desc.cmd with
  | none => matchvec
  | some string => if cmdUniqueString matchvec string then matchvec ++ [string] else matchvec

/-- The same, for the words of the commands that are not hidden. -/
def collect (src : Option Text) (index : Nat) (v : CmdVector Func) : List Text :=
  (v.reduceOption.filter fun element => !hiddenAttr element.attr).foldl
    (fun matchvec element => (element.descvec index).foldl (collectDesc src) matchvec) []

/-- What a tab makes of the last word. -/
inductive Completion where
  /-- It is left alone. -/
  | failed (status : Status)
  /-- `CMD_COMPLETE_FULL_MATCH`: it is replaced by a word, with a space behind it. -/
  | full (word : Text)
  /-- `CMD_COMPLETE_MATCH`: it is replaced by the beginning of some words. -/
  | part (word : Text)
  /-- `CMD_COMPLETE_LIST_MATCH`: some words are listed. -/
  | list (words : List Text)
  deriving DecidableEq

/-- What the words that were collected come to. -/
def complete (src : Option Text) (matchvec : List Text) : Completion :=
  match matchvec with
  | [] => .failed (if src = none then .errNothingTodo else .errNoMatch)
  | [word] => .full word
  | word :: _ =>
      match src with
      | none => .list matchvec
      | some src =>
          if cmdLcd matchvec ≠ 0 ∧ src.length < cmdLcd matchvec then .part (word.take (cmdLcd matchvec))
          else .list matchvec

/-- `cmd_complete_command_real` -/
def cmdCompleteCommandReal (cmdVector : CmdVector Func) (vline : List (Option Text)) : Completion :=
  match vline.getLast? with
  | none => .failed .errNoMatch
  | some src =>
      match preceding 0 cmdVector vline.dropLast with
      | none => .failed .errAmbiguous
      | some v => complete src (collect src (vline.length - 1) v)

section Collect

variable {src : Option Text} {index : Nat} {v : CmdVector Func}

/-- A word of a command that is not hidden, which the last word of the line may stand for. -/
def Candidate (v : CmdVector Func) (index : Nat) (src : Option Text) (text : Text) : Prop :=
  ∃ element, some element ∈ v ∧ hiddenAttr element.attr = false ∧
    ∃ desc ∈ element.descvec index, cmdEntryFunction src desc.cmd = some text

/-- The words of all commands that the last word may stand for, in their order. -/
def entries (src : Option Text) (index : Nat) (v : CmdVector Func) : List Text :=
  (v.reduceOption.filter fun element => !hiddenAttr element.attr).flatMap fun element =>
    (element.descvec index).filterMap fun desc => cmdEntryFunction src desc.cmd

/-- A word is added, unless it is there but for its case. -/
def addUnique (matchvec : List Text) (string : Text) : List Text :=
  if cmdUniqueString matchvec string then matchvec ++ [string] else matchvec

/-- An entry is a candidate. -/
theorem mem_entries {text : Text} : text ∈ entries src index v ↔ Candidate v index src text := by
  simp only [entries, Candidate, List.mem_flatMap, List.mem_filter, List.reduceOption_mem_iff,
    List.mem_filterMap, Bool.not_eq_true', and_assoc]

/-- An alternative is collected if it begins with what was typed. -/
theorem collectDesc_eq (matchvec : List Text) (desc : Desc) :
    collectDesc src matchvec desc =
      (cmdEntryFunction src desc.cmd).elim matchvec (addUnique matchvec) := by
  rw [collectDesc]
  cases cmdEntryFunction src desc.cmd <;> rfl

theorem foldl_collectDesc (descvec : List Desc) (matchvec : List Text) :
    descvec.foldl (collectDesc src) matchvec =
      (descvec.filterMap fun desc => cmdEntryFunction src desc.cmd).foldl addUnique matchvec := by
  induction descvec generalizing matchvec with
  | nil => rfl
  | cons desc descvec inductionHypothesis =>
      rw [List.foldl_cons, inductionHypothesis, collectDesc_eq, List.filterMap_cons]
      cases cmdEntryFunction src desc.cmd <;> rfl

theorem collect_eq : collect src index v = (entries src index v).foldl addUnique [] := by
  rw [collect, entries, List.foldl_flatMap]
  simp only [foldl_collectDesc]

/-- The words that were collected stand for all of them, each for those that are the same. -/
structure Collected (entries matchvec : List Text) : Prop where
  member : ∀ text ∈ matchvec, text ∈ entries
  covers : ∀ text ∈ entries, ∃ word ∈ matchvec, sameText word text = true
  distinct : matchvec.Pairwise fun left right => sameText left right = false

/-- A string is unique if none is the same without regard to case. -/
theorem cmdUniqueString_iff (matchvec : List Text) (string : Text) :
    cmdUniqueString matchvec string = true ↔ ∀ found ∈ matchvec, sameText found string = false := by
  simp [cmdUniqueString]

/-- A string is added unless it is there. -/
theorem Collected.add {entries matchvec : List Text} (collected : Collected entries matchvec)
    (string : Text) : Collected (entries ++ [string]) (addUnique matchvec string) := by
  rw [addUnique]
  split_ifs with unique
  · rw [cmdUniqueString_iff] at unique
    refine ⟨fun text member => ?_, fun text member => ?_, ?_⟩
    · rcases List.mem_append.1 member with member | member
      · exact List.mem_append_left _ (collected.member text member)
      · exact List.mem_append_right _ member
    · rcases List.mem_append.1 member with member | member
      · obtain ⟨word, found, same⟩ := collected.covers text member
        exact ⟨word, List.mem_append_left _ found, same⟩
      · obtain rfl := List.mem_singleton.1 member
        exact ⟨text, List.mem_append_right _ member, by simp [sameText]⟩
    · refine List.pairwise_append.2 ⟨collected.distinct, List.pairwise_singleton _ _, ?_⟩
      intro left atLeft right atRight
      obtain rfl := List.mem_singleton.1 atRight
      exact unique left atLeft
  · refine ⟨fun text member => List.mem_append_left _ (collected.member text member),
      fun text member => ?_, collected.distinct⟩
    rcases List.mem_append.1 member with member | member
    · exact collected.covers text member
    · obtain rfl := List.mem_singleton.1 member
      rw [cmdUniqueString_iff] at unique
      push Not at unique
      obtain ⟨word, found, same⟩ := unique
      exact ⟨word, found, by simpa using same⟩

/-- All entries are collected, without repetition. -/
theorem collected_foldl (entries : List Text) :
    Collected entries (entries.foldl addUnique []) := by
  induction entries using List.reverseRecOn with
  | nil => exact ⟨fun _ member => member, fun _ member => absurd member List.not_mem_nil, .nil⟩
  | append_singleton entries string inductionHypothesis =>
      rw [List.foldl_append]
      exact inductionHypothesis.add string

end Collect

section Complete

/-- What a tab makes of the last word, given the words that it may stand for. -/
inductive Completed (src : Option Text) (candidate : Text → Prop) : Completion → Prop
  /-- There are none. -/
  | failed (status : Status) (nothing : ∀ text, ¬ candidate text) :
      Completed src candidate (.failed status)
  /-- There is but one. -/
  | full (word : Text) (member : candidate word)
      (only : ∀ text, candidate text → sameText word text = true) :
      Completed src candidate (.full word)
  /-- All of them go on alike, up to some place behind what was typed, and no further. -/
  | part (word typed : Text) (given : src = some typed) (longer : typed.length < word.length)
      (common : ∀ text, candidate text → startsText word text = true)
      (most : ∀ n, word.length < n →
        ∃ left right, candidate left ∧ candidate right ∧ ¬ AgreeTo n left right) :
      Completed src candidate (.part word)
  /-- They go on alike no further than what was typed, if anything was, and are listed, each of
  them once. -/
  | list (words : List Text) (several : 2 ≤ words.length)
      (most : ∀ typed, src = some typed → ∀ n, typed.length < n →
        ∃ left right, candidate left ∧ candidate right ∧ ¬ AgreeTo n left right)
      (member : ∀ word ∈ words, candidate word)
      (covers : ∀ text, candidate text → ∃ word ∈ words, sameText word text = true)
      (distinct : words.Pairwise fun left right => sameText left right = false) :
      Completed src candidate (.list words)

/-- How far the collected words agree. -/
theorem le_cmdLcd_iff (n : Nat) (first second : Text) (more : List Text) :
    n ≤ cmdLcd (first :: second :: more) ↔ ∀ word ∈ second :: more, AgreeTo n first word := by
  rw [← le_neighbourLength_iff, cmdLcd, neighbourLength, Option.getD_some]
  simp

/-- What is collected is answered as it should be. -/
theorem complete_completed {src : Option Text} {entries matchvec : List Text}
    (collected : Collected entries matchvec) {candidate : Text → Prop}
    (same : ∀ text, text ∈ entries ↔ candidate text) :
    Completed src candidate (complete src matchvec) := by
  have member : ∀ word ∈ matchvec, candidate word := fun word inside =>
    (same word).1 (collected.member word inside)
  have covers : ∀ text, candidate text → ∃ word ∈ matchvec, sameText word text = true :=
    fun text holds => collected.covers text ((same text).2 holds)
  cases matchvec with
  | nil =>
      refine .failed _ fun text holds => ?_
      obtain ⟨word, inside, -⟩ := covers text holds
      cases inside
  | cons first more =>
      cases more with
      | nil =>
          refine .full first (member first (List.mem_singleton_self _)) fun text holds => ?_
          obtain ⟨word, inside, equal⟩ := covers text holds
          obtain rfl := List.mem_singleton.1 inside
          exact equal
      | cons second more =>
          have apart (n : Nat) (beyond : cmdLcd (first :: second :: more) < n) :
              ∃ left right, candidate left ∧ candidate right ∧ ¬ AgreeTo n left right := by
            by_contra none
            push Not at none
            refine absurd ((le_cmdLcd_iff n first second more).2 fun word found => ?_)
              (not_le.2 beyond)
            exact none first word (member first List.mem_cons_self)
              (member word (List.mem_cons_of_mem _ found))
          cases src with
          | none => exact .list _ (by simp) nofun member covers collected.distinct
          | some typed =>
              change Completed (some typed) candidate (if _ then _ else _)
              split_ifs with longer
              · have agree := (le_cmdLcd_iff _ first second more).1 le_rfl
                have inside := (agree second List.mem_cons_self).1
                have length : (first.take (cmdLcd (first :: second :: more))).length =
                    cmdLcd (first :: second :: more) := by
                  rw [List.length_take, min_eq_left inside]
                refine .part _ typed rfl (by rw [length]; exact longer.2) ?_ ?_
                · intro text holds
                  obtain ⟨word, found, equal⟩ := covers text holds
                  have begins : first.take (cmdLcd (first :: second :: more)) <+: word := by
                    rcases List.mem_cons.1 found with rfl | found
                    · exact List.take_prefix _ _
                    · exact (agree word found).starts
                  rw [startsText_iff, ← (sameText_iff _ _).1 equal]
                  exact begins.map toLower
                · intro n beyond
                  rw [length] at beyond
                  exact apart n beyond
              · refine .list _ (by simp) ?_ member covers collected.distinct
                rintro _ ⟨⟩ n beyond
                exact apart n (by omega)

/-- A tab completes the last word of a line as far as all words agree that it may stand for, among
the commands that fit the words in front of it, and no further; or, if they go on alike no further
than what was typed, it lists these words, each of them once. -/
theorem cmdCompleteCommandReal_completed {Func : Type} (v : CmdVector Func)
    (words : List (Option Text)) (src : Option Text) :
    preceding 0 v words = none ∧
        cmdCompleteCommandReal v (words ++ [src]) = .failed .errAmbiguous ∨
      ∃ left, preceding 0 v words = some left ∧
        Completed src (Candidate left words.length src)
          (cmdCompleteCommandReal v (words ++ [src])) := by
  have last : (words ++ [src]).getLast? = some src := by simp
  have front : (words ++ [src]).dropLast = words := by simp
  have length : (words ++ [src]).length - 1 = words.length := by simp
  rw [cmdCompleteCommandReal, last]
  dsimp only
  rw [front, length]
  cases preceding 0 v words with
  | none => exact .inl ⟨rfl, rfl⟩
  | some left =>
      refine .inr ⟨left, rfl, ?_⟩
      dsimp only
      rw [collect_eq]
      exact complete_completed (collected_foldl _) fun text => mem_entries

/-- The commands whose words are completed are those among which the line would be executed. -/
theorem preceding_of_narrow {Func : Type} {index : Nat} {matchType kind : MatchType}
    {v left : CmdVector Func} {words : List Text} {place : Nat}
    (reached : narrow index matchType v words = .reached kind place left)
    (single : kind ≠ .varargMatch) : preceding index v (words.map some) = some left := by
  induction words generalizing index matchType v with
  | nil =>
      rw [narrow] at reached
      cases reached
      rfl
  | cons command later inductionHypothesis =>
      rw [narrow] at reached
      rw [List.map_cons, preceding]
      dsimp only at reached ⊢
      split_ifs at reached with vararg
      · cases reached
        exact absurd vararg single
      · cases ambiguous : isCmdAmbiguous command (cmdFilterByCompletion command v index).2 index
            (cmdFilterByCompletion command v index).1 with
        | error ret =>
            rw [ambiguous] at reached
            cases reached
        | ok kept =>
            rw [ambiguous] at reached
            exact inductionHypothesis reached

/-- A word that the last word may stand for is a word of a template, and no shorter. -/
theorem Candidate.word {Func : Type} {v : CmdVector Func} {index : Nat} {src : Option Text}
    {text : Text} (candidate : Candidate v index src text) :
    (∃ element, some element ∈ v ∧ ∃ desc ∈ element.descvec index, text = desc.cmd) ∧
      ∀ last, src = some last → last.length ≤ text.length := by
  obtain ⟨element, listed, -, desc, place, entry⟩ := candidate
  unfold cmdEntryFunction at entry
  split_ifs at entry
  cases src with
  | none =>
      cases entry
      exact ⟨⟨element, listed, desc, place, rfl⟩, fun last none => by cases none⟩
  | some typed =>
      dsimp only at entry
      split_ifs at entry with starts
      cases entry
      refine ⟨⟨element, listed, desc, place, rfl⟩, fun last same => ?_⟩
      obtain rfl := Option.some.inj same
      simpa [lowered] using ((startsText_iff _ _).1 starts).length_le

end Complete

end Rsu.Cli.Command
