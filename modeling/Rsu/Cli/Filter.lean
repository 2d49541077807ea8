import Mathlib.Data.List.Perm.Basic
import Rsu.Cli.Matchers

/-!
# The commands that a word leaves

`cmd_filter_by_completion` drops the commands that a word does not fit and finds the best kind of
match among the others, `is_cmd_ambiguous` drops those that match in a lower kind only. Both go
through the vector of a node slot by slot; what they leave of it does not depend on the order.
-/

namespace Rsu.Cli.Command

open Rsu.CString

/-- `struct cmd_element`, with what its function pointer stands for. -/
structure CmdElement (Func : Type) where
  string : Text
  func : Func
  doc : Text
  strvec : List (List Desc)
  cmdsize : Nat
  attr : Nat
  level : Int

/-- A copy of the commands of a node; a command that was dropped leaves `NULL`. -/
abbrev CmdVector (Func : Type) := List (Option (CmdElement Func))

variable {Func : Type}

/-- What `install_element` makes of a command. -/
def CmdElement.install (string doc : Text) (func : Func) (attr : Nat) (level : Int) :
    Option (CmdElement Func) :=
  (cmdMakeDescvec string doc).map fun strvec =>
    ⟨string, func, doc, strvec, cmdCmdsize strvec, attr, level⟩

/-- `vector_slot (cmd_element->strvec, index)`, and nothing behind the last place. -/
def CmdElement.descvec (element : CmdElement Func) (index : Nat) : List Desc :=
  element.strvec[index]?.getD []

/-! ### `cmd_filter_by_completion` -/

/-- The kind in which a word matches a word of a template. No command of the agent has a `{` in
its template; a number that overruns the buffer of `cmd_multi_match` counts as no match here. -/
def fits (command : Text) (desc : Desc) : Option MatchType :=
  let str := desc.cmd
  if cmdVararg str then some .varargMatch
  else if cmdRange str then if cmdRangeMatch str command then some .rangeMatch else none
  else if cmdMulti str then
    if cmdMultiMatch str command = .ok true then some .multiMatch else none
  else if cmdIpv4 str then
    if cmdIpv4Match command = .exactMatch then some .ipv4Match else none
  else if cmdIpv4Prefix str then
    if cmdIpv4PrefixMatch command ≠ .noMatch then some .ipv4PrefixMatch else none
  else if cmdOption str || cmdVariable str then some .extendMatch
  else if startsText command str then
    if sameText command str then some .exactMatch else some .partlyMatch
  else none

/-- A better kind replaces `match_type`; `exact_match` is assigned in any case. -/
def raise (matchType kind : MatchType) : MatchType :=
  if kind = .exactMatch then kind else if matchType < kind then kind else matchType

/-- The inner loop: the kind, and the number of words of the place that match. -/
def filterDesc (command : Text) (found : MatchType × Nat) (desc : Desc) : MatchType × Nat :=
  (fits command desc).elim found fun kind => (raise found.1 kind, found.2 + 1)

/-- `cmd_filter_by_completion` from some slot on. -/
def filterFrom (command : Text) (index : Nat) (matchType : MatchType) :
    CmdVector Func → MatchType × CmdVector Func
  | [] => (matchType, [])
  | none :: later =>
      let (matchType, later) := filterFrom command index matchType later
      (matchType, none :: later)
  | some element :: later =>
      if element.strvec.length ≤ index then
        let (matchType, later) := filterFrom command index matchType later
        (matchType, none :: later)
      else
        let (matchType, matched) :=
          (element.descvec index).foldl (filterDesc command) (matchType, 0)
        let (matchType, later) := filterFrom command index matchType later
        (matchType, (if matched = 0 then none else some element) :: later)

/-- `cmd_filter_by_completion` -/
def cmdFilterByCompletion (command : Text) (v : CmdVector Func) (index : Nat) :
    MatchType × CmdVector Func :=
  filterFrom command index .noMatch v

/-! ### `is_cmd_ambiguous` -/

/-- The condition under which `is_cmd_ambiguous` counts a word of a template. -/
def selects (type : MatchType) (command str : Text) : Bool :=
  match type with
  | .exactMatch => !(cmdOption str || cmdVariable str) && sameText command str
  | .partlyMatch => !(cmdOption str || cmdVariable str) && startsText command str
  | .rangeMatch => cmdRangeMatch str command
  | .multiMatch => cmdMultiMatch str command = .ok true
  | .ipv4Match => cmdIpv4 str
  | .ipv4PrefixMatch => cmdIpv4PrefixMatch command ≠ .noMatch
  | .extendMatch => cmdOption str || cmdVariable str
  | _ => false

/-- The kinds in which the counted words are compared with each other. -/
def MatchType.compares : MatchType → Bool
  | .partlyMatch | .rangeMatch | .multiMatch => true
  | _ => false

/-- The inner loop: the last word that was compared, and the number of words that count. An error
is what the function returns. -/
def ambiguousDesc (type : MatchType) (command : Text) (found : Option Text × Nat) (desc : Desc) :
    Except Nat (Option Text × Nat) :=
  let str := desc.cmd
  if selects type command str then
    if type.compares then
      if found.1.any fun matched => !sameText matched str then .error 1
      else .ok (some str, found.2 + 1)
    else if type = .ipv4PrefixMatch ∧ cmdIpv4PrefixMatch command = .partlyMatch then .error 2
    else .ok (found.1, found.2 + 1)
  else .ok found

/-- `is_cmd_ambiguous` from some slot on. -/
def ambiguousFrom (type : MatchType) (command : Text) (index : Nat) (matched : Option Text) :
    CmdVector Func → Except Nat (CmdVector Func)
  | [] => .ok []
  | none :: later => do
      let later ← ambiguousFrom type command index matched later
      return none :: later
  | some element :: later => do
      let (matched, number) ←
        (element.descvec index).foldlM (ambiguousDesc type command) (matched, 0)
      let later ← ambiguousFrom type command index matched later
      return (if number = 0 then none else some element) :: later

/-- `is_cmd_ambiguous`: what it leaves when it returns 0, or what else it returns. -/
def isCmdAmbiguous (command : Text) (v : CmdVector Func) (index : Nat) (type : MatchType) :
    Except Nat (CmdVector Func) :=
  ambiguousFrom type command index none v

section Best

/-- `exact_match` is the best kind. -/
theorem le_exactMatch (kind : MatchType) : kind ≤ .exactMatch := by
  cases kind <;> decide

/-- The better match is the greater one. -/
theorem raise_eq_max (matchType kind : MatchType) : raise matchType kind = max matchType kind := by
  rw [raise]
  split_ifs with exact better
  · rw [exact, max_eq_right (le_exactMatch matchType)]
  · rw [max_eq_right better.le]
  · rw [max_eq_left (not_lt.1 better)]

/-- The best of some kinds. -/
def best (kinds : List MatchType) : MatchType := kinds.foldr max .noMatch

/-- Every match is better than none. -/
theorem noMatch_le (kind : MatchType) : .noMatch ≤ kind := by
  cases kind <;> decide

/-- The best match is the greatest. -/
theorem le_best {kinds : List MatchType} {kind : MatchType} (member : kind ∈ kinds) :
    kind ≤ best kinds := by
  induction kinds with
  | nil => cases member
  | cons first kinds inductionHypothesis =>
      rcases List.mem_cons.1 member with rfl | member
      · exact le_max_left _ _
      · exact (inductionHypothesis member).trans (le_max_right _ _)

/-- The best match is one of them. -/
theorem best_mem {kinds : List MatchType} (some : kinds ≠ []) : best kinds ∈ kinds := by
  induction kinds with
  | nil => exact absurd rfl some
  | cons first kinds inductionHypothesis =>
      rw [best, List.foldr_cons]
      by_cases empty : kinds = []
      · subst empty
        rw [List.foldr_nil, max_eq_left (noMatch_le first)]
        exact List.mem_cons_self
      · rcases max_choice first (best kinds) with left | right
        · rw [best] at left
          rw [left]
          exact List.mem_cons_self
        · rw [best] at right
          rw [right]
          exact List.mem_cons_of_mem _ (inductionHypothesis empty)

/-- The loop finds the best match. -/
theorem foldl_raise (kinds : List MatchType) (matchType : MatchType) :
    kinds.foldl raise matchType = max matchType (best kinds) := by
  induction kinds generalizing matchType with
  | nil => rw [List.foldl_nil, best, List.foldr_nil, max_eq_left (noMatch_le matchType)]
  | cons kind kinds inductionHypothesis =>
      rw [List.foldl_cons, inductionHypothesis, raise_eq_max, max_assoc]
      rfl

/-- The best match of two lists. -/
theorem best_append (front rear : List MatchType) :
    best (front ++ rear) = max (best front) (best rear) := by
  induction front with
  | nil => exact (max_eq_right (noMatch_le (best rear))).symm
  | cons kind front inductionHypothesis =>
      rw [List.cons_append, best, List.foldr_cons, ← best, inductionHypothesis, ← max_assoc]
      rfl

/-- The order of the kinds does not matter. -/
theorem best_perm {kinds others : List MatchType} (perm : kinds.Perm others) :
    best kinds = best others :=
  perm.foldr_eq MatchType.noMatch

end Best

section Spec

/-- The kinds in which a word matches at a place of a command. -/
def CmdElement.kinds (element : CmdElement Func) (command : Text) (index : Nat) :
    List MatchType :=
  (element.descvec index).filterMap (fits command)

/-- The kinds in which a word matches among the commands. -/
def kindsOf (command : Text) (index : Nat) (v : CmdVector Func) : List MatchType :=
  v.flatMap fun slot => slot.elim [] fun element => element.kinds command index

/-- The word matches at the place in some kind. -/
def CmdElement.hit (command : Text) (index : Nat) (element : CmdElement Func) : Bool :=
  !(element.kinds command index).isEmpty

/-- The loop over the alternatives finds the best match, and counts the matches. -/
theorem foldl_filterDesc (command : Text) (descvec : List Desc) (found : MatchType × Nat) :
    descvec.foldl (filterDesc command) found =
      ((descvec.filterMap (fits command)).foldl raise found.1,
        found.2 + (descvec.filterMap (fits command)).length) := by
  induction descvec generalizing found with
  | nil => rfl
  | cons desc descvec inductionHypothesis =>
      rw [List.foldl_cons, inductionHypothesis, filterDesc]
      cases fit : fits command desc with
      | none => simp [List.filterMap_cons_none fit]
      | some kind =>
          rw [List.filterMap_cons_some fit]
          simp only [Option.elim_some, List.foldl_cons, List.length_cons]
          congr 1
          omega

/-- A place behind the last has no words. -/
theorem CmdElement.descvec_behind {element : CmdElement Func} {index : Nat}
    (outside : element.strvec.length ≤ index) : element.descvec index = [] := by
  rw [CmdElement.descvec, List.getElem?_eq_none outside]
  rfl

/-- What `cmd_filter_by_completion` finds and leaves. -/
theorem filterFrom_eq (command : Text) (index : Nat) (matchType : MatchType)
    (v : CmdVector Func) :
    filterFrom command index matchType v =
      (max matchType (best (kindsOf command index v)),
        v.map (Option.filter (CmdElement.hit command index))) := by
  induction v generalizing matchType with
  | nil => simp [filterFrom, kindsOf, best, max_eq_left (noMatch_le matchType)]
  | cons slot later inductionHypothesis =>
      have split : best (kindsOf command index (slot :: later)) =
          max (best (slot.elim [] fun element => element.kinds command index))
            (best (kindsOf command index later)) := by
        rw [← best_append]
        rfl
      cases slot with
      | none =>
          rw [filterFrom, inductionHypothesis, split]
          simp [best, max_eq_right (noMatch_le _)]
      | some element =>
          rw [filterFrom, split]
          split_ifs with outside
          · have kinds : element.kinds command index = [] := by
              rw [CmdElement.kinds, CmdElement.descvec_behind outside]
              rfl
            rw [inductionHypothesis]
            simp [kinds, best, max_eq_right (noMatch_le _), CmdElement.hit, Option.filter]
          · rw [foldl_filterDesc]
            dsimp only
            rw [inductionHypothesis, foldl_raise, Nat.zero_add, max_assoc]
            congr 1
            rw [List.map_cons]
            congr 1
            change (if (element.kinds command index).length = 0 then none else some element) = _
            cases kinds : element.kinds command index with
            | nil => simp [CmdElement.hit, kinds, Option.filter]
            | cons kind kinds' => simp [CmdElement.hit, kinds, Option.filter]

/-- What `cmd_filter_by_completion` finds and leaves. -/
theorem cmdFilterByCompletion_eq (command : Text) (v : CmdVector Func) (index : Nat) :
    cmdFilterByCompletion command v index =
      (best (kindsOf command index v), v.map (Option.filter (CmdElement.hit command index))) := by
  rw [cmdFilterByCompletion, filterFrom_eq, max_eq_right (noMatch_le _)]

/-- The words that count among those of a place. -/
def countedIn (type : MatchType) (command : Text) (descvec : List Desc) : List Text :=
  (descvec.map Desc.cmd).filter (selects type command)

/-- The words of a place of a command that count. -/
def CmdElement.counted (element : CmdElement Func) (type : MatchType) (command : Text)
    (index : Nat) : List Text :=
  countedIn type command (element.descvec index)

/-- The words that count among the commands. -/
def countedOf (type : MatchType) (command : Text) (index : Nat) (v : CmdVector Func) : List Text :=
  v.flatMap fun slot => slot.elim [] fun element => element.counted type command index

/-- A word of the place counts. -/
def CmdElement.kept (type : MatchType) (command : Text) (index : Nat)
    (element : CmdElement Func) : Bool :=
  !(element.counted type command index).isEmpty

/-- The texts are the same, but for their case. -/
def Agree (texts : List Text) : Prop :=
  ∀ left ∈ texts, ∀ right ∈ texts, sameText left right = true

instance (texts : List Text) : Decidable (Agree texts) :=
  inferInstanceAs (Decidable (∀ left ∈ texts, ∀ right ∈ texts, sameText left right = true))

/-- The word is the beginning of an address prefix, and there is a word that counts. -/
def Incomplete (type : MatchType) (command : Text) (counted : List Text) : Prop :=
  type = .ipv4PrefixMatch ∧ cmdIpv4PrefixMatch command = .partlyMatch ∧ counted ≠ []

instance (type : MatchType) (command : Text) (counted : List Text) :
    Decidable (Incomplete type command counted) :=
  inferInstanceAs (Decidable (_ ∧ _ ∧ _))

/-- Two texts are the same without regard to case. -/
theorem sameText_iff (left right : Text) :
    sameText left right = true ↔ lowered left = lowered right := by
  simp [sameText]

/-- A text stands for those that are the same. -/
theorem agree_append {front rear : List Text} {text : Text} (member : text ∈ front)
    (agree : Agree front) : Agree (front ++ rear) ↔ Agree (text :: rear) := by
  simp only [Agree, sameText_iff] at agree ⊢
  constructor
  · intro all left atLeft right atRight
    have inside : ∀ other ∈ text :: rear, other ∈ front ++ rear := by
      intro other found
      rcases List.mem_cons.1 found with rfl | found
      · exact List.mem_append_left _ member
      · exact List.mem_append_right _ found
    exact all left (inside left atLeft) right (inside right atRight)
  · intro all left atLeft right atRight
    have same : ∀ other ∈ front ++ rear, lowered other = lowered text := by
      intro other found
      rcases List.mem_append.1 found with found | found
      · exact agree other found text member
      · exact all other (List.mem_cons_of_mem _ found) text List.mem_cons_self
    rw [same left atLeft, same right atRight]

/-- A part of words that agree. -/
theorem Agree.of_append {front rear : List Text} (agree : Agree (front ++ rear)) : Agree front :=
  fun left atLeft right atRight =>
    agree left (List.mem_append_left _ atLeft) right (List.mem_append_left _ atRight)

/-- The word that is remembered, after some that count. -/
def latest (matched : Option Text) (counted : List Text) : Option Text :=
  counted.foldl (fun _ text => some text) matched

/-- Whatever is remembered stands for all words that counted before. -/
theorem latest_agree {matched : Option Text} {counted rear : List Text}
    (agree : Agree (matched.toList ++ counted)) :
    Agree ((latest matched counted).toList ++ rear) ↔
      Agree (matched.toList ++ counted ++ rear) := by
  cases counted using List.reverseRecOn with
  | nil => rw [List.append_nil]; rfl
  | append_singleton counted text _ =>
      have last : latest matched (counted ++ [text]) = some text := by
        simp [latest]
      rw [last]
      exact (agree_append (by simp) agree).symm

section Fold

variable {type : MatchType} {command : Text}

/-- An alternative that is selected counts. -/
theorem countedIn_cons_pos {desc : Desc} {descvec : List Desc}
    (selected : selects type command desc.cmd = true) :
    countedIn type command (desc :: descvec) = desc.cmd :: countedIn type command descvec :=
  List.filter_cons_of_pos selected

/-- One that is passed does not. -/
theorem countedIn_cons_neg {desc : Desc} {descvec : List Desc}
    (passed : ¬ selects type command desc.cmd = true) :
    countedIn type command (desc :: descvec) = countedIn type command descvec :=
  List.filter_cons_of_neg passed

/-- The word is remembered unless it differs from the one before. -/
theorem agree_next (matched : Option Text) (str : Text) :
    Agree (matched.toList ++ [str]) ↔
      ¬ (matched.any fun matched => !sameText matched str) = true := by
  cases matched with
  | none => simp [Agree, sameText]
  | some matched =>
      simp only [Agree, sameText_iff, Option.toList_some, List.cons_append,
        List.nil_append, Option.any_some, Bool.not_eq_true', Bool.not_eq_false]
      constructor
      · exact fun all => all matched (by simp) str (by simp)
      · intro same left atLeft right atRight
        have either : ∀ other ∈ [matched, str], lowered other = lowered str := by
          intro other member
          rcases List.mem_cons.1 member with rfl | member
          · exact same
          · rw [List.mem_singleton.1 member]
        rw [either left atLeft, either right atRight]

/-- The inner loop in a kind whose words are compared. -/
theorem foldlM_compares (compares : type.compares = true) (descvec : List Desc)
    (matched : Option Text) (number : Nat) :
    descvec.foldlM (ambiguousDesc type command) (matched, number) =
      if Agree (matched.toList ++ countedIn type command descvec) then
        .ok (latest matched (countedIn type command descvec),
          number + (countedIn type command descvec).length)
      else .error 1 := by
  induction descvec generalizing matched number with
  | nil =>
      have agree : Agree (matched.toList ++ countedIn type command []) := by
        cases matched <;> simp [countedIn, Agree, sameText]
      rw [if_pos agree]
      rfl
  | cons desc descvec inductionHypothesis =>
      rw [List.foldlM_cons, ambiguousDesc]
      by_cases selected : selects type command desc.cmd = true
      · rw [if_pos selected, if_pos compares, countedIn_cons_pos selected]
        by_cases differs : (matched.any fun matched => !sameText matched desc.cmd) = true
        · rw [if_pos differs, if_neg]
          · rfl
          · intro all
            have front : Agree ((matched.toList ++ [desc.cmd]) ++ countedIn type command descvec) := by
              simpa using all
            exact (agree_next matched desc.cmd).1 front.of_append differs
        · rw [if_neg differs]
          change List.foldlM (ambiguousDesc type command) (some desc.cmd, number + 1) descvec = _
          rw [inductionHypothesis]
          have replaced : Agree ((some desc.cmd).toList ++ countedIn type command descvec) ↔
              Agree (matched.toList ++ desc.cmd :: countedIn type command descvec) := by
            have moved : _ ↔ Agree (_ ++ countedIn type command descvec) :=
              latest_agree ((agree_next matched desc.cmd).2 differs)
            simpa [latest] using moved
          simp only [replaced]
          split_ifs
          · congr 2
            simp only [List.length_cons]
            omega
          · rfl
      · rw [if_neg selected, countedIn_cons_neg selected]
        exact inductionHypothesis matched number

/-- The inner loop in the other kinds. -/
theorem foldlM_counts (counts : type.compares = false) (descvec : List Desc)
    (matched : Option Text) (number : Nat) :
    descvec.foldlM (ambiguousDesc type command) (matched, number) =
      if Incomplete type command (countedIn type command descvec) then .error 2
      else .ok (matched, number + (countedIn type command descvec).length) := by
  induction descvec generalizing number with
  | nil =>
      rw [if_neg fun incomplete => incomplete.2.2 rfl]
      rfl
  | cons desc descvec inductionHypothesis =>
      rw [List.foldlM_cons, ambiguousDesc]
      by_cases selected : selects type command desc.cmd = true
      · rw [if_pos selected, if_neg (by simp [counts]), countedIn_cons_pos selected]
        by_cases early : type = .ipv4PrefixMatch ∧ cmdIpv4PrefixMatch command = .partlyMatch
        · rw [if_pos early, if_pos ⟨early.1, early.2, List.cons_ne_nil _ _⟩]
          rfl
        · rw [if_neg early, if_neg fun incomplete => early ⟨incomplete.1, incomplete.2.1⟩]
          change List.foldlM (ambiguousDesc type command) (matched, number + 1) descvec = _
          rw [inductionHypothesis, if_neg fun incomplete => early ⟨incomplete.1, incomplete.2.1⟩]
          congr 2
          simp only [List.length_cons]
          omega
      · rw [if_neg selected, countedIn_cons_neg selected]
        exact inductionHypothesis number

end Fold

/-- What is left of a slot whose words were counted. -/
theorem filter_kept (type : MatchType) (command : Text) (index : Nat)
    (element : CmdElement Func) :
    (if 0 + (countedIn type command (element.descvec index)).length = 0 then none
      else some element) = Option.filter (CmdElement.kept type command index) (some element) := by
  change (if 0 + (element.counted type command index).length = 0 then none else some element) = _
  cases counted : element.counted type command index <;>
    simp [CmdElement.kept, counted, Option.filter]

/-- `is_cmd_ambiguous` in a kind whose words are compared. -/
theorem ambiguousFrom_compares {type : MatchType} (compares : type.compares = true)
    (command : Text) (index : Nat) (matched : Option Text) (v : CmdVector Func) :
    ambiguousFrom type command index matched v =
      if Agree (matched.toList ++ countedOf type command index v) then
        .ok (v.map (Option.filter (CmdElement.kept type command index)))
      else .error 1 := by
  induction v generalizing matched with
  | nil =>
      have agree : Agree (matched.toList ++ countedOf type command index ([] : CmdVector Func)) := by
        cases matched <;> simp [countedOf, Agree, sameText]
      rw [if_pos agree]
      rfl
  | cons slot later inductionHypothesis =>
      cases slot with
      | none =>
          rw [ambiguousFrom, inductionHypothesis]
          change (if Agree (matched.toList ++ countedOf type command index later) then _ else _) >>=
            _ = if Agree (matched.toList ++ countedOf type command index later) then _ else _
          split_ifs <;> rfl
      | some element =>
          have split : countedOf type command index (some element :: later) =
              countedIn type command (element.descvec index) ++
                countedOf type command index later := rfl
          rw [ambiguousFrom, foldlM_compares compares, split, ← List.append_assoc]
          by_cases here : Agree (matched.toList ++ countedIn type command (element.descvec index))
          · rw [if_pos here]
            change (ambiguousFrom type command index _ later) >>= _ = _
            rw [inductionHypothesis]
            simp only [latest_agree here]
            by_cases all : Agree (matched.toList ++
                countedIn type command (element.descvec index) ++
                countedOf type command index later)
            · rw [if_pos all, if_pos all, List.map_cons, ← filter_kept]
              rfl
            · rw [if_neg all, if_neg all]
              rfl
          · rw [if_neg here, if_neg fun all => here all.of_append]
            rfl

/-- `is_cmd_ambiguous` in the other kinds. -/
theorem ambiguousFrom_counts {type : MatchType} (counts : type.compares = false)
    (command : Text) (index : Nat) (matched : Option Text) (v : CmdVector Func) :
    ambiguousFrom type command index matched v =
      if Incomplete type command (countedOf type command index v) then .error 2
      else .ok (v.map (Option.filter (CmdElement.kept type command index))) := by
  induction v with
  | nil =>
      rw [if_neg fun incomplete => incomplete.2.2 rfl]
      rfl
  | cons slot later inductionHypothesis =>
      cases slot with
      | none =>
          rw [ambiguousFrom, inductionHypothesis]
          change (if Incomplete type command (countedOf type command index later) then _ else _) >>=
            _ = if Incomplete type command (countedOf type command index later) then _ else _
          split_ifs <;> rfl
      | some element =>
          have split : countedOf type command index (some element :: later) =
              countedIn type command (element.descvec index) ++
                countedOf type command index later := rfl
          rw [ambiguousFrom, foldlM_counts counts, split]
          by_cases early : type = .ipv4PrefixMatch ∧ cmdIpv4PrefixMatch command = .partlyMatch
          · have iff : ∀ counted, Incomplete type command counted ↔ counted ≠ [] :=
              fun counted => ⟨fun incomplete => incomplete.2.2,
                fun nonempty => ⟨early.1, early.2, nonempty⟩⟩
            simp only [iff]
            by_cases here : countedIn type command (element.descvec index) = []
            · rw [if_neg (by simp [here]), here, List.nil_append, List.map_cons, ← filter_kept,
                here]
              change (ambiguousFrom type command index matched later) >>= _ = _
              rw [inductionHypothesis]
              simp only [iff]
              split_ifs <;> rfl
            · rw [if_pos here, if_pos (by simp [here])]
              rfl
          · have never : ∀ counted, ¬ Incomplete type command counted :=
              fun counted incomplete => early ⟨incomplete.1, incomplete.2.1⟩
            rw [if_neg (never _), if_neg (never _), List.map_cons, ← filter_kept]
            change (ambiguousFrom type command index matched later) >>= _ = _
            rw [inductionHypothesis, if_neg (never _)]
            rfl

/-- What `is_cmd_ambiguous` returns and leaves. -/
theorem isCmdAmbiguous_eq (command : Text) (v : CmdVector Func) (index : Nat) (type : MatchType) :
    isCmdAmbiguous command v index type =
      if Incomplete type command (countedOf type command index v) then .error 2
      else if type.compares = true ∧ ¬ Agree (countedOf type command index v) then .error 1
      else .ok (v.map (Option.filter (CmdElement.kept type command index))) := by
  rw [isCmdAmbiguous]
  cases compares : type.compares with
  | false =>
      rw [ambiguousFrom_counts compares]
      simp
  | true =>
      have never : ¬ Incomplete type command (countedOf type command index v) := by
        rintro ⟨rfl, -, -⟩
        cases compares
      rw [ambiguousFrom_compares compares, if_neg never, Option.toList_none, List.nil_append]
      by_cases agree : Agree (countedOf type command index v)
      · rw [if_pos agree, if_neg fun differs => differs.2 agree]
      · rw [if_neg agree, if_pos ⟨rfl, agree⟩]

end Spec

end Rsu.Cli.Command
