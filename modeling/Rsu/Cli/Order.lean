import Rsu.Cli.Spelling

/-!
# The order of the commands

`sort_node` sorts the commands of every node once they are installed, and the alternatives at the
last place of every command. `qsort` may leave equal entries in any order, and what is installed
later is not sorted at all. None of this matters to a line: the loops of
`cmd_execute_command_real` find the same commands in any order.
-/

namespace Rsu.Cli.Command

open Rsu.CString Checked

variable {Func : Type}

/-- `strcmp (left, right) <= 0` -/
def strcmpLe : Text → Text → Bool
  | [], _ => true
  | _ :: _, [] => false
  | left :: lefts, right :: rights =>
      if left = right then strcmpLe lefts rights else left.toNat < right.toNat

/-- `cmp_node (left, right) <= 0` -/
def cmpNode (left right : CmdElement Func) : Prop :=
  strcmpLe (lowered left.string) (lowered right.string) = true

/-- `cmp_desc (left, right) <= 0` -/
def cmpDesc (left right : Desc) : Prop := strcmpLe left.cmd right.cmd = true

/-- What `qsort` may make of an array. -/
structure QSort {α : Type} (compare : α → α → Prop) (before after : List α) : Prop where
  perm : before.Perm after
  sorted : after.Pairwise compare

/-- What `sort_node` makes of a command: the alternatives at its last place are sorted. -/
def SortLast (before after : CmdElement Func) : Prop :=
  ∃ strvec, after = { before with strvec := strvec } ∧
    (before.strvec = [] ∧ strvec = [] ∨ ∃ places last sorted,
      before.strvec = places ++ [last] ∧ QSort cmpDesc last sorted ∧ strvec = places ++ [sorted])

/-- `sort_node`, in one node. -/
def SortNode (before after : List (CmdElement Func)) : Prop :=
  ∃ sorted, QSort cmpNode before sorted ∧ List.Forall₂ SortLast sorted after

/-- Commands that differ in the order of the alternatives only. -/
structure CmdElement.Same (left right : CmdElement Func) : Prop where
  string : left.string = right.string
  func : left.func = right.func
  doc : left.doc = right.doc
  strvec : List.Forall₂ List.Perm left.strvec right.strvec
  cmdsize : left.cmdsize = right.cmdsize
  attr : left.attr = right.attr
  level : left.level = right.level

/-- Commands in another order. -/
def Reordered (v w : CmdVector Func) : Prop :=
  ∃ u, List.Forall₂ (Option.Rel CmdElement.Same) v u ∧ u.Perm w

/-- What a line comes to among commands in another order. -/
inductive Dispatch.Same : Dispatch Func → Dispatch Func → Prop
  | failed (status : Status) : Dispatch.Same (.failed status) (.failed status)
  | run {element other : CmdElement Func} (same : element.Same other) (argv : List Text) :
      Dispatch.Same (.run element argv) (.run other argv)

section Same

variable {left right : CmdElement Func}

/-- Lists in the order they are in. -/
theorem forall₂_perm_refl {α : Type} (lists : List (List α)) :
    List.Forall₂ List.Perm lists lists :=
  List.forall₂_same.2 fun list _ => List.Perm.refl list

/-- The same alternatives stand at a place. -/
theorem CmdElement.Same.descvec (same : left.Same right) (index : Nat) :
    (left.descvec index).Perm (right.descvec index) := by
  rw [CmdElement.descvec, CmdElement.descvec]
  by_cases inside : index < left.strvec.length
  · have inside' : index < right.strvec.length := same.strvec.length_eq ▸ inside
    rw [List.getElem?_eq_getElem inside, List.getElem?_eq_getElem inside']
    exact same.strvec.get inside inside'
  · have outside : ¬ index < right.strvec.length := same.strvec.length_eq ▸ inside
    rw [List.getElem?_eq_none (not_lt.1 inside), List.getElem?_eq_none (not_lt.1 outside)]

/-- A word matches them in the same ways. -/
theorem CmdElement.Same.kinds (same : left.Same right) (command : Text) (index : Nat) :
    (left.kinds command index).Perm (right.kinds command index) :=
  (same.descvec index).filterMap _

/-- A word hits both or none. -/
theorem CmdElement.Same.hit (same : left.Same right) (command : Text) (index : Nat) :
    left.hit command index = right.hit command index := by
  rw [CmdElement.hit, CmdElement.hit, (same.kinds command index).isEmpty_eq]

/-- The same words count. -/
theorem CmdElement.Same.counted (same : left.Same right) (type : MatchType) (command : Text)
    (index : Nat) : (left.counted type command index).Perm (right.counted type command index) :=
  ((same.descvec index).map _).filter _

/-- Both are kept or none. -/
theorem CmdElement.Same.kept (same : left.Same right) (type : MatchType) (command : Text)
    (index : Nat) : left.kept type command index = right.kept type command index := by
  rw [CmdElement.kept, CmdElement.kept, (same.counted type command index).isEmpty_eq]

/-- Both are complete or none. -/
theorem CmdElement.Same.ready (same : left.Same right) (kind : MatchType) (index : Nat) :
    left.ready kind index = right.ready kind index := by
  rw [CmdElement.ready, CmdElement.ready, same.cmdsize]

/-- Several alternatives are treated alike. -/
theorem argUse_of_length_ne {descvec : List Desc} (several : descvec.length ≠ 1) :
    argUse descvec = .lower := by
  cases descvec with
  | nil => rfl
  | cons first more =>
      cases more with
      | nil => exact absurd rfl several
      | cons second more => rfl

/-- What a place passes does not depend on the order of its alternatives. -/
theorem argUse_perm {descvec other : List Desc} (perm : descvec.Perm other) :
    argUse descvec = argUse other := by
  by_cases single : descvec.length = 1
  · obtain ⟨desc, rfl⟩ := List.length_eq_one_iff.1 single
    rw [List.singleton_perm.1 perm]
  · rw [argUse_of_length_ne single, argUse_of_length_ne (perm.length_eq ▸ single)]

/-- The arguments do not depend on the order of the alternatives. -/
theorem argumentsFrom_same {places others : List (List Desc)}
    (same : List.Forall₂ List.Perm places others) (varflag : Bool) (argv words : List Text) :
    argumentsFrom varflag places argv words = argumentsFrom varflag others argv words := by
  induction words generalizing varflag argv places others with
  | nil => rw [argumentsFrom, argumentsFrom]
  | cons word later inductionHypothesis =>
      cases varflag with
      | true =>
          simp only [argumentsFrom_true, inductionHypothesis same]
      | false =>
          cases same with
          | nil => rfl
          | cons perm same =>
              simp only [argumentsFrom_false, argUse_perm perm, inductionHypothesis same]

end Same

section Reordered

variable {v w : CmdVector Func}

/-- A test that does not look at the order of the alternatives. -/
def Blind {β : Type} (test : CmdElement Func → β) : Prop :=
  ∀ ⦃left right : CmdElement Func⦄, left.Same right → test left = test right

/-- A test that is blind to the order leaves the same commands. -/
theorem Reordered.filter (reordered : Reordered v w) {test : CmdElement Func → Bool}
    (blind : Blind test) :
    Reordered (v.map (Option.filter test)) (w.map (Option.filter test)) := by
  obtain ⟨u, same, perm⟩ := reordered
  refine ⟨u.map (Option.filter test), ?_, perm.map _⟩
  refine List.rel_map (fun left right rel => ?_) same
  cases rel with
  | none => exact .none
  | @some element other same =>
      rw [Option.filter, Option.filter, blind same]
      split_ifs
      · exact .some same
      · exact .none

/-- The words at a place, of all commands. -/
theorem Reordered.flatMap {β : Type} (reordered : Reordered v w)
    {words : CmdElement Func → List β}
    (perm : ∀ left right : CmdElement Func, left.Same right → (words left).Perm (words right)) :
    (v.flatMap fun slot => slot.elim [] words).Perm (w.flatMap fun slot => slot.elim [] words) := by
  obtain ⟨u, same, order⟩ := reordered
  refine List.Perm.trans ?_ (order.flatMap_right _)
  clear order
  induction same with
  | nil => exact .nil
  | cons rel same inductionHypothesis =>
      rw [List.flatMap_cons, List.flatMap_cons]
      refine List.Perm.append ?_ inductionHypothesis
      cases rel with
      | none => exact .nil
      | some same => exact perm _ _ same

/-- Whether some words differ does not depend on their order. -/
theorem agree_perm {texts others : List Text} (perm : texts.Perm others) :
    Agree texts ↔ Agree others := by
  simp only [Agree, perm.mem_iff]

/-- Whether a word is incomplete does not depend on the order. -/
theorem incomplete_perm {type : MatchType} {command : Text} {texts others : List Text}
    (perm : texts.Perm others) : Incomplete type command texts ↔ Incomplete type command others := by
  have empty : texts = [] ↔ others = [] := by
    rw [← List.isEmpty_iff, perm.isEmpty_eq, List.isEmpty_iff]
  simp only [Incomplete, ne_eq, empty]

/-- What the loop over the words of a line comes to, among commands in another order. -/
inductive Narrowed.Same : Narrowed Func → Narrowed Func → Prop
  | stopped (status : Status) : Narrowed.Same (.stopped status) (.stopped status)
  | reached (kind : MatchType) (index : Nat) {left right : CmdVector Func}
      (reordered : Reordered left right) :
      Narrowed.Same (.reached kind index left) (.reached kind index right)

/-- The words of a line leave the same commands. -/
theorem Reordered.narrow (words : List Text) (reordered : Reordered v w) (index : Nat)
    (kind : MatchType) :
    (narrow index kind v words).Same (Command.narrow index kind w words) := by
  induction words generalizing index kind v w with
  | nil => exact .reached kind index reordered
  | cons command later inductionHypothesis =>
      have found : best (kindsOf command index v) = best (kindsOf command index w) :=
        best_perm (reordered.flatMap fun _ _ same => same.kinds command index)
      have left : Reordered (hits command index v) (hits command index w) :=
        reordered.filter fun _ _ same => same.hit command index
      have counts (type : MatchType) : (countedOf type command index (hits command index v)).Perm
          (countedOf type command index (hits command index w)) :=
        left.flatMap fun _ _ same => same.counted type command index
      rw [narrow_cons index kind v command later found rfl,
        narrow_cons index kind w command later rfl rfl]
      simp only [agree_perm (counts _), incomplete_perm (counts _)]
      split_ifs
      · exact .reached _ _ left
      · exact .stopped _
      · exact .stopped _
      · exact inductionHypothesis (left.filter fun _ _ same => same.kept _ command index) _ _

/-- The commands that pass a test, in two orders. -/
theorem Reordered.passing (reordered : Reordered v w) {test : CmdElement Func → Bool}
    (blind : Blind test) :
    ∃ u, List.Forall₂ CmdElement.Same (v.reduceOption.filter test) u ∧
      u.Perm (w.reduceOption.filter test) := by
  obtain ⟨u, same, perm⟩ := reordered
  refine ⟨u.reduceOption.filter test, ?_, (perm.filterMap id).filter test⟩
  clear perm
  induction same with
  | nil => exact .nil
  | cons rel same inductionHypothesis =>
      cases rel with
      | none =>
          rw [List.reduceOption_cons_of_none, List.reduceOption_cons_of_none]
          exact inductionHypothesis
      | @some element other same =>
          rw [List.reduceOption_cons_of_some, List.reduceOption_cons_of_some, List.filter_cons,
            List.filter_cons, blind same]
          split_ifs
          · exact .cons same inductionHypothesis
          · exact inductionHypothesis

theorem Reordered.reduceOption_eq_nil (reordered : Reordered v w) :
    v.reduceOption = [] ↔ w.reduceOption = [] := by
  obtain ⟨u, same, perm⟩ :=
    reordered.passing (show Blind fun _ : CmdElement Func => true from fun _ _ _ => rfl)
  rw [List.filter_true] at same perm
  rw [← List.length_eq_zero_iff, ← List.length_eq_zero_iff, same.length_eq, perm.length_eq]

/-- The same command is chosen. -/
theorem Reordered.choose (reordered : Reordered v w) (kind : MatchType) (index : Nat)
    (words : List Text) (iPriority : Int) :
    Both Dispatch.Same (choose kind index v words iPriority)
      (Command.choose kind index w words iPriority) := by
  obtain ⟨u, same, perm⟩ := reordered.passing fun _ _ same => same.ready kind index
  rw [Command.choose, Command.choose]
  generalize v.reduceOption.filter (CmdElement.ready kind index) = ready at same ⊢
  cases same with
  | nil =>
      rw [perm.nil_eq.symm]
      simp only [reordered.reduceOption_eq_nil]
      exact .ends (.failed _)
  | @cons element other _ _ same more =>
      cases more with
      | nil =>
          rw [List.perm_singleton.1 perm.symm]
          dsimp only
          rw [same.level, argumentsFrom_same same.strvec]
          split_ifs
          · exact .ends (.failed _)
          · cases argumentsFrom false other.strvec [] words with
            | error fault => exact .stops fault
            | ok result =>
                cases result with
                | none => exact .ends (.failed _)
                | some argv => exact .ends (.run same argv)
      | cons second more =>
          cases ready : w.reduceOption.filter (CmdElement.ready kind index) with
          | nil =>
              rw [ready] at perm
              cases perm.eq_nil
          | cons first rest =>
              cases rest with
              | nil =>
                  rw [ready] at perm
                  cases List.perm_singleton.1 perm
              | cons next rest => exact .ends (.failed _)

/-- A line comes to the same among commands in another order. -/
theorem Reordered.line_runs (reordered : Reordered v w) (words : List Text) (iPriority : Int) :
    Both Dispatch.Same (cmdExecuteCommandReal v words iPriority)
      (cmdExecuteCommandReal w words iPriority) := by
  have same := reordered.narrow words 0 .noMatch
  rw [cmdExecuteCommandReal, cmdExecuteCommandReal]
  generalize Command.narrow 0 .noMatch v words = one at same ⊢
  generalize Command.narrow 0 .noMatch w words = other at same ⊢
  cases same with
  | stopped status => exact .ends (.failed status)
  | reached kind index reordered => exact reordered.choose kind index words iPriority

end Reordered

section SortNode

/-- Sorting the last alternatives leaves the same command. -/
theorem SortLast.same {before after : CmdElement Func} (sorted : SortLast before after) :
    before.Same after := by
  obtain ⟨strvec, rfl, last⟩ := sorted
  refine ⟨rfl, rfl, rfl, ?_, rfl, rfl, rfl⟩
  rcases last with ⟨empty, rfl⟩ | ⟨places, last, sorted, shape, qsort, rfl⟩
  · rw [empty]
    exact .nil
  · rw [shape]
    exact List.rel_append (forall₂_perm_refl places) (.cons qsort.perm .nil)

/-- Sorting a node reorders its commands. -/
theorem SortNode.reordered {before after : List (CmdElement Func)}
    (sorted : SortNode before after) : Reordered (before.map some) (after.map some) := by
  obtain ⟨middle, qsort, last⟩ := sorted
  have same : List.Forall₂ (Option.Rel CmdElement.Same) (middle.map some) (after.map some) := by
    rw [List.forall₂_map_left_iff, List.forall₂_map_right_iff]
    exact last.imp fun _ _ last => .some last.same
  exact List.perm_comp_forall₂ (qsort.perm.map some) same

/-- Whatever order `qsort` leaves equal entries in, `sort_node` does not change what any line
comes to, for any user: the same failure, or the same function with the same arguments. -/
theorem sorted_line_runs {before after : List (CmdElement Func)} (sorted : SortNode before after)
    (words : List Text) (iPriority : Int) :
    Both Dispatch.Same (cmdExecuteCommandReal (before.map some) words iPriority)
      (cmdExecuteCommandReal (after.map some) words iPriority) :=
  sorted.reordered.line_runs words iPriority

/-- Two commands that were installed in the wrong order; the first one's last place has its
alternatives in the wrong order. -/
theorem sorted_line_runs_two :
    let show' : CmdElement Nat :=
      ⟨[0x73], 1, [], [[⟨[0x73], []⟩], [⟨[0x79], []⟩, ⟨[0x78], []⟩]], 2, 0, 0⟩
    let sorted : CmdElement Nat := { show' with
      strvec := [[⟨[0x73], []⟩], [⟨[0x78], []⟩, ⟨[0x79], []⟩]] }
    let exit : CmdElement Nat := ⟨[0x65], 0, [], [[⟨[0x65], []⟩]], 1, 0, 0⟩
    Both Dispatch.Same (cmdExecuteCommandReal ([show', exit].map some) [[0x73], [0x79]] 0)
      (cmdExecuteCommandReal ([exit, sorted].map some) [[0x73], [0x79]] 0) := by
  intro show' sorted exit
  have order : SortNode [show', exit] [exit, sorted] := ?_
  · exact sorted_line_runs order _ _
  refine ⟨[exit, show'], ⟨List.Perm.swap .., ?_⟩, ?_⟩
  · simp [cmpNode, show', exit]
    decide
  · refine .cons ⟨exit.strvec, rfl, .inr ⟨[], _, _, rfl, ⟨List.Perm.refl _, ?_⟩, rfl⟩⟩
      (.cons ⟨sorted.strvec, rfl, .inr ⟨[[⟨[0x73], []⟩]], _, _, rfl, ⟨List.Perm.swap .., ?_⟩,
        rfl⟩⟩ .nil)
    · simp
    · simp [cmpDesc, strcmpLe]

end SortNode

end Rsu.Cli.Command
