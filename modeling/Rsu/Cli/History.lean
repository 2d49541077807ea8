import Rsu.Cli.Lines

/-!
# The history of a session

Twenty lines are kept in a ring. `^P` goes back through them, and `^N` forth again; only on the
twentieth line `^N` does nothing and `^P` goes round, since the place of the oldest line is the one
at which the next line is to be stored. An empty line leaves the pointer where it was.
-/

namespace Rsu.Cli

open Data Rcp

namespace EditedLine

/-- The lines that were entered, the newest one first, without those that repeat the last one. -/
def remember (recent : List (List Byte)) (text : List Byte) : List (List Byte) :=
  if text = [] ∨ recent.head? = some text then recent else text :: recent

/-- What a call does to them. -/
def entered (line : EditedLine) (recent : List (List Byte)) : LineEdit → List (List Byte)
  | .histAdd => remember recent line.z.text
  | _ => recent

/-- The lines that calls enter. -/
def recents (answer : Answer) (line : EditedLine) (recent : List (List Byte)) :
    List LineCall → List (List Byte)
  | [] => recent
  | call :: later =>
      (line.edit answer call.node call.function).recents answer
        (line.entered recent call.function) later

/-- How many lines the pointer is behind the place of the next one. -/
def depth (line : EditedLine) : Nat := (line.hindex + vtyMaxhist - line.hp) % vtyMaxhist

/-- The ring holds the newest lines, going back from the place of the next one. -/
structure Keeps (line : EditedLine) (recent : List (List Byte)) : Prop where
  size : line.hist.length = vtyMaxhist
  hindex : line.hindex < vtyMaxhist
  hp : line.hp < vtyMaxhist
  ring : ∀ index < vtyMaxhist,
    line.hist[older^[index + 1] line.hindex]?.join = recent[index]?

section Ring

/-- Going back some places in the ring. -/
theorem iterate_older {place : Nat} (inside : place < vtyMaxhist) (count : Nat)
    (few : count ≤ vtyMaxhist) :
    older^[count] place = (place + (vtyMaxhist - count)) % vtyMaxhist := by
  induction count with
  | zero => simp [Nat.mod_eq_of_lt inside]
  | succ count inductionHypothesis =>
      rw [Function.iterate_succ_apply', inductionHypothesis (by omega), older]
      split_ifs <;> simp only [vtyMaxhist] at * <;> omega

/-- Forth and back. -/
theorem older_newer (place : Nat) : older (newer place) = place := by
  by_cases last : place = vtyMaxhist - 1
  · rw [newer, if_pos last]
    exact last.symm
  · rw [newer, if_neg last, older, if_neg (Nat.succ_ne_zero place)]
    rfl

/-- Back and forth. -/
theorem newer_older {place : Nat} (inside : place < vtyMaxhist) : newer (older place) = place := by
  by_cases first : place = 0
  · rw [first]
    rfl
  · have earlier : place - 1 ≠ vtyMaxhist - 1 := by omega
    rw [older, if_neg first, newer, if_neg earlier]
    omega

/-- Places of the ring differ up to the whole turn. -/
theorem iterate_older_ne {place count : Nat} (inside : place < vtyMaxhist) (some : 0 < count)
    (few : count < vtyMaxhist) : older^[count] place ≠ place := by
  rw [iterate_older inside count few.le]
  simp only [vtyMaxhist] at *
  omega

/-- Going back stays in the ring. -/
theorem iterate_older_lt {place : Nat} (inside : place < vtyMaxhist) (count : Nat) :
    older^[count] place < vtyMaxhist := by
  induction count with
  | zero => exact inside
  | succ count inductionHypothesis =>
      rw [Function.iterate_succ_apply']
      exact older_lt inductionHypothesis

/-- The pointer is less than twenty places behind. -/
theorem depth_lt (line : EditedLine) : line.depth < vtyMaxhist := Nat.mod_lt _ (by decide)

/-- The pointer is its depth behind the newest place. -/
theorem hp_eq_iterate {line : EditedLine} (hindex : line.hindex < vtyMaxhist)
    (hp : line.hp < vtyMaxhist) : line.hp = older^[line.depth] line.hindex := by
  rw [iterate_older hindex _ line.depth_lt.le, depth]
  simp only [vtyMaxhist] at *
  omega

/-- A pointer at the newest place has depth zero. -/
theorem depth_of_hp {line : EditedLine} (same : line.hp = line.hindex) : line.depth = 0 := by
  rw [depth, same, Nat.add_sub_cancel_left, Nat.mod_self]

/-- A line that is not empty brings the pointer to the newest place. -/
theorem depth_histAdd {line : EditedLine} (entered : line.z.text ≠ []) :
    line.histAdd.depth = 0 := by
  refine depth_of_hp ?_
  rw [EditedLine.histAdd, if_neg entered]
  split_ifs <;> rfl

end Ring

section Keeps

variable {line : EditedLine} {recent : List (List Byte)} {answer : Answer}

/-- A new history keeps nothing. -/
theorem keeps_initial : initial.Keeps [] where
  size := List.length_replicate
  hindex := by decide
  hp := by decide
  ring index inside := by
    rw [initial, List.getElem?_replicate]
    split_ifs <;> rfl

/-- An entered line is kept, and the oldest of twenty forgotten. -/
theorem Keeps.histAdd (keeps : line.Keeps recent) :
    line.histAdd.Keeps (remember recent line.z.text) := by
  have newest : line.hist[older line.hindex]?.join = recent.head? := by
    rw [List.head?_eq_getElem?]
    exact keeps.ring 0 (by decide)
  rw [EditedLine.histAdd, remember]
  by_cases empty : line.z.text = []
  · rw [if_pos empty, if_pos (.inl empty)]
    exact keeps
  · rw [if_neg empty, newest]
    by_cases same : recent.head? = some line.z.text
    · rw [if_pos same, if_pos (.inr same)]
      exact ⟨keeps.size, keeps.hindex, keeps.hindex, keeps.ring⟩
    · rw [if_neg same, if_neg (not_or.2 ⟨empty, same⟩)]
      refine ⟨by simpa using keeps.size, newer_lt keeps.hindex, newer_lt keeps.hindex,
        fun index inside => ?_⟩
      change (line.hist.set line.hindex (some line.z.text))[older^[index + 1] (newer line.hindex)]?.join
        = _
      rw [Function.iterate_succ_apply, older_newer]
      cases index with
      | zero =>
          rw [Function.iterate_zero_apply, List.getElem?_set_self (by
            rw [keeps.size]; exact keeps.hindex)]
          rfl
      | succ index =>
          rw [List.getElem?_set_ne (iterate_older_ne keeps.hindex (Nat.succ_pos _) inside).symm,
            keeps.ring index (by omega)]
          rfl

/-- The other functions leave the ring alone. -/
theorem Keeps.of_ring {other : EditedLine} (keeps : line.Keeps recent)
    (hist : other.hist = line.hist) (hindex : other.hindex = line.hindex)
    (hp : other.hp < vtyMaxhist) : other.Keeps recent := by
  refine ⟨hist ▸ keeps.size, hindex ▸ keeps.hindex, hp, fun index inside => ?_⟩
  rw [hist, hindex]
  exact keeps.ring index inside

/-- Recalling a line keeps the history. -/
theorem Keeps.recallEntry (keeps : line.Keeps recent) {place : Nat} (inside : place < vtyMaxhist) :
    (line.recallEntry place).Keeps recent := by
  rw [EditedLine.recallEntry]
  cases line.hist[place]?.join with
  | none => exact keeps
  | some entry => exact keeps.of_ring rfl rfl inside

theorem Keeps.grow (keeps : line.Keeps recent) : line.grow.Keeps recent := by
  rw [EditedLine.grow]
  split_ifs
  · exact keeps.of_ring rfl rfl keeps.hp
  · exact keeps

/-- Another text. -/
theorem Keeps.change (keeps : line.Keeps recent) (z : Zipper Byte) :
    Keeps { line with z := z } recent :=
  keeps.of_ring rfl rfl keeps.hp

/-- Every editing function keeps the lines that were entered. -/
theorem Keeps.edit (keeps : line.Keeps recent) (node : VtyNode) (function : LineEdit) :
    (line.edit answer node function).Keeps (line.entered recent function) := by
  cases function with
  | histAdd => exact keeps.histAdd
  | nextLine =>
      simp only [EditedLine.edit, EditedLine.nextLine]
      split_ifs
      · exact keeps
      · exact keeps.recallEntry (newer_lt keeps.hp)
  | previousLine => exact keeps.recallEntry (older_lt keeps.hp)
  | transposeChars =>
      simp only [EditedLine.edit]
      split_ifs
      · exact keeps.grow.change _
      · exact keeps.change _
  | completeCommand =>
      simp only [EditedLine.edit, complete]
      cases line.completion answer node with
      | none => exact keeps
      | some result =>
          cases result with
          | full word => exact (keeps.change _).grow.change _
          | part word | failed status | list words => exact keeps.change _
  | selfInsert c => exact keeps.grow.change _
  | beginningOfLine | backwardChar | deleteChar | endOfLine | forwardChar | deleteBackwardChar
  | killLine | killLineFromBeginning | backwardKillWord | forwardKillWord | backwardWord
  | forwardWord | describeCommand | cursorToStart | clearBuf => exact keeps.change _

theorem Keeps.calls (keeps : line.Keeps recent) (made : List LineCall) :
    (line.calls answer made).Keeps (line.recents answer recent made) := by
  induction made generalizing line recent with
  | nil => exact keeps
  | cons call later inductionHypothesis =>
      exact inductionHypothesis (keeps.edit call.node call.function)

/-! ### Going back and forth -/

/-- What `^P` shows, and where it stops. -/
theorem Keeps.previousLine (keeps : line.Keeps recent) {count : Nat} (inside : count < vtyMaxhist)
    (here : line.hp = older^[count] line.hindex) :
    line.previousLine = (recent[count]?).elim line fun text =>
      { line with z := .behind text, hp := older^[count + 1] line.hindex } := by
  rw [EditedLine.previousLine, EditedLine.recallEntry, here, ← Function.iterate_succ_apply' older,
    keeps.ring count inside]
  cases recent[count]? <;> rfl

/-- What repeated `^P` shows, from wherever the pointer is. -/
theorem Keeps.iterate_previousLine (keeps : line.Keeps recent) {depth count : Nat}
    (here : line.hp = older^[depth] line.hindex) (inside : depth + count < vtyMaxhist)
    {text : List Byte} (found : recent[depth + count]? = some text) :
    EditedLine.previousLine^[count + 1] line =
      { line with z := .behind text, hp := older^[depth + count + 1] line.hindex } := by
  induction count generalizing text with
  | zero =>
      rw [Function.iterate_one, keeps.previousLine inside here, found]
      rfl
  | succ count inductionHypothesis =>
      obtain ⟨before, earlier⟩ : ∃ before, recent[depth + count]? = some before := by
        have room := (List.getElem?_eq_some_iff.1 found).1
        exact ⟨_, List.getElem?_eq_getElem (by omega)⟩
      rw [Function.iterate_succ_apply', inductionHypothesis (by omega) earlier]
      have again : Keeps { line with
          z := .behind before
          hp := older^[depth + count + 1] line.hindex } recent :=
        keeps.of_ring rfl rfl (iterate_older_lt keeps.hindex _)
      rw [again.previousLine inside rfl, found]
      rfl

/-- `^N` comes back, but not from the place of the oldest of twenty lines. -/
theorem Keeps.nextLine (keeps : line.Keeps recent) {count : Nat} (inside : count + 2 < vtyMaxhist)
    (here : line.hp = older^[count + 2] line.hindex) {text : List Byte}
    (found : recent[count]? = some text) :
    line.nextLine = { line with z := .behind text, hp := older^[count + 1] line.hindex } := by
  have other : line.hp ≠ line.hindex := by
    rw [here]
    exact iterate_older_ne keeps.hindex (Nat.succ_pos _) inside
  have place : newer line.hp = older^[count + 1] line.hindex := by
    rw [here, Function.iterate_succ_apply', newer_older (iterate_older_lt keeps.hindex _)]
  rw [EditedLine.nextLine, if_neg other, EditedLine.recallEntry, place,
    keeps.ring count (by omega), found]

/-- `^N` shows newer lines, one with each stroke. -/
theorem Keeps.iterate_nextLine (keeps : line.Keeps recent) {forth count : Nat}
    (inside : count + forth + 1 < vtyMaxhist) {start text : List Byte}
    (shown : recent[count + forth]? = some start) (found : recent[count]? = some text) :
    EditedLine.nextLine^[forth]
        { line with z := .behind start, hp := older^[count + forth + 1] line.hindex } =
      { line with z := .behind text, hp := older^[count + 1] line.hindex } := by
  induction forth generalizing start with
  | zero =>
      obtain rfl := Option.some.inj (shown.symm.trans found)
      rfl
  | succ forth inductionHypothesis =>
      obtain ⟨next, later⟩ : ∃ next, recent[count + forth]? = some next := by
        have room := (List.getElem?_eq_some_iff.1 shown).1
        exact ⟨_, List.getElem?_eq_getElem (by omega)⟩
      have again : Keeps { line with
          z := .behind start
          hp := older^[count + (forth + 1) + 1] line.hindex } recent :=
        keeps.of_ring rfl rfl (iterate_older_lt keeps.hindex _)
      rw [Function.iterate_succ_apply, again.nextLine (by omega) rfl later]
      exact inductionHypothesis (by omega) later

/-- `^P` stays on the oldest line that there is. -/
theorem Keeps.previousLine_stays (keeps : line.Keeps recent) (few : recent.length < vtyMaxhist)
    (more : Nat) :
    EditedLine.previousLine^[recent.length - line.depth + more] line =
      EditedLine.previousLine^[recent.length - line.depth] line := by
  have here := hp_eq_iterate keeps.hindex keeps.hp
  obtain ⟨z, place, oldest, inside, reached⟩ : ∃ z place, recent.length ≤ place ∧
      place < vtyMaxhist ∧ EditedLine.previousLine^[recent.length - line.depth] line =
        { line with z := z, hp := older^[place] line.hindex } := by
    by_cases earlier : line.depth < recent.length
    · obtain ⟨count, size⟩ : ∃ count, recent.length = line.depth + count + 1 :=
        ⟨recent.length - line.depth - 1, by omega⟩
      have shown : recent[line.depth + count]? = some recent[line.depth + count] :=
        List.getElem?_eq_getElem (by omega)
      have reached := keeps.iterate_previousLine here (by omega) shown
      rw [show count + 1 = recent.length - line.depth by omega] at reached
      exact ⟨_, line.depth + count + 1, by omega, by omega, reached⟩
    · refine ⟨line.z, line.depth, by omega, line.depth_lt, ?_⟩
      rw [Nat.sub_eq_zero_of_le (by omega), ← here]
      rfl
  have again : Keeps { line with z := z, hp := older^[place] line.hindex } recent :=
    keeps.of_ring rfl rfl (iterate_older_lt keeps.hindex _)
  have stays := again.previousLine inside rfl
  rw [List.getElem?_eq_none oldest, Option.elim_none] at stays
  rw [Nat.add_comm, Function.iterate_add_apply, reached]
  exact Function.iterate_fixed stays more

/-- The twentieth line is at the place of the next one. -/
theorem Keeps.previousLine_turns (keeps : line.Keeps recent) (full : vtyMaxhist ≤ recent.length) :
    ∃ oldest, EditedLine.previousLine^[vtyMaxhist - line.depth] line =
      { line with z := .behind oldest, hp := line.hindex } := by
  have inside := line.depth_lt
  obtain ⟨count, size⟩ : ∃ count, line.depth + count + 1 = vtyMaxhist :=
    ⟨vtyMaxhist - line.depth - 1, by omega⟩
  obtain ⟨oldest, shown⟩ : ∃ oldest, recent[line.depth + count]? = some oldest :=
    ⟨_, List.getElem?_eq_getElem (by omega)⟩
  have turn : older^[vtyMaxhist] line.hindex = line.hindex :=
    (iterate_older keeps.hindex vtyMaxhist le_rfl).trans (Nat.mod_eq_of_lt keeps.hindex)
  have reached := keeps.iterate_previousLine (hp_eq_iterate keeps.hindex keeps.hp) (by omega) shown
  rw [size, turn] at reached
  refine ⟨oldest, ?_⟩
  rw [show vtyMaxhist - line.depth = count + 1 by omega, reached]

end Keeps

/-- After whatever was typed, `^P` shows the lines that were entered, from where the pointer is to
older ones, up to twenty of them, and `^N` goes back to the newer ones. With fewer than twenty lines
`^P` stays on the oldest one; from the twentieth line it goes round to the newest one, and `^N` does
nothing. A line that is entered brings the pointer to the newest place, unless it is empty. -/
theorem history_walked (answer : Answer) (made : List LineCall) :
    let line := initial.calls answer made
    let recent := initial.recents answer [] made
    (∀ back < vtyMaxhist, line.depth ≤ back → back < recent.length → ∀ forth ≤ back,
      (forth = 0 ∨ back + 1 < vtyMaxhist) → recent[back - forth]? =
        some (nextLine^[forth] (previousLine^[back - line.depth + 1] line)).z.text) ∧
      (recent.length < vtyMaxhist → ∀ more,
        previousLine^[recent.length - line.depth + more] line =
          previousLine^[recent.length - line.depth] line) ∧
      (vtyMaxhist ≤ recent.length →
        let last := previousLine^[vtyMaxhist - line.depth] line
        last.nextLine = last ∧ recent.head? = some last.previousLine.z.text) ∧
      (line.z.text ≠ [] → line.histAdd.depth = 0) := by
  intro line recent
  have keeps : line.Keeps recent := keeps_initial.calls made
  refine ⟨fun back inside from' enough forth few turned => ?_, keeps.previousLine_stays,
    fun full => ?_, depth_histAdd⟩
  · obtain ⟨start, shown⟩ : ∃ start, recent[back]? = some start :=
      ⟨_, List.getElem?_eq_getElem enough⟩
    obtain ⟨text, found⟩ : ∃ text, recent[back - forth]? = some text :=
      ⟨_, List.getElem?_eq_getElem (by omega)⟩
    have reached : previousLine^[back - line.depth + 1] line =
        { line with z := .behind start, hp := older^[back + 1] line.hindex } := by
      have whole : line.depth + (back - line.depth) = back := by omega
      rw [← whole] at inside shown
      have walked := keeps.iterate_previousLine (hp_eq_iterate keeps.hindex keeps.hp) inside shown
      rwa [whole] at walked
    rw [reached, found]
    rcases turned with rfl | turned
    · obtain rfl := Option.some.inj (shown.symm.trans found)
      simp
    · obtain ⟨count, rfl⟩ : ∃ count, back = count + forth := ⟨back - forth, by omega⟩
      rw [Nat.add_sub_cancel] at found
      rw [keeps.iterate_nextLine turned shown found]
      simp
  · obtain ⟨oldest, turned⟩ := keeps.previousLine_turns full
    obtain ⟨newest, found⟩ : ∃ newest, recent[0]? = some newest :=
      ⟨_, List.getElem?_eq_getElem (by simp only [vtyMaxhist] at full; omega)⟩
    have again : Keeps { line with z := .behind oldest, hp := line.hindex } recent :=
      keeps.of_ring rfl rfl keeps.hindex
    dsimp only
    rw [turned]
    constructor
    · rw [nextLine, if_pos rfl]
    · rw [again.previousLine (by decide : 0 < vtyMaxhist) rfl, found, List.head?_eq_getElem?, found]
      simp

/-- A line is typed and entered. -/
def enter (text : List Byte) : List LineCall :=
  (text.map fun char => ⟨.view, .selfInsert char⟩) ++ [⟨.view, .histAdd⟩, ⟨.view, .clearBuf⟩]

/-- Three lines, one of them entered twice; then `^P`, `^U` and an empty line, which leaves the
pointer on the newest line. `^P` goes on from there, stays on the oldest line, and `^N` comes back. -/
theorem history_walked_three :
    let made := ["who", "list", "list", "exit"].flatMap (enter ∘ Command.chars) ++
      [⟨.view, .previousLine⟩, ⟨.view, .killLineFromBeginning⟩, ⟨.view, .histAdd⟩,
        ⟨.view, .clearBuf⟩]
    let line := initial.calls (fun _ _ => .failed .errNoMatch) made
    line.depth = 1 ∧ (previousLine^[1] line).z.text = Command.chars "list" ∧
      (previousLine^[2] line).z.text = Command.chars "who" ∧
      previousLine^[2 + 10] line = previousLine^[2] line ∧
      (nextLine^[2] (previousLine^[2] line)).z.text = Command.chars "exit" := by
  intro made line
  have depth : line.depth = 1 := by decide +kernel
  have lines : initial.recents (fun _ _ => .failed .errNoMatch) [] made =
      ["exit", "list", "who"].map Command.chars := by decide +kernel
  obtain ⟨walked, stays, -, -⟩ := history_walked (fun _ _ => .failed .errNoMatch) made
  change ∀ back < vtyMaxhist, line.depth ≤ back → _ at walked
  change _ → ∀ more, previousLine^[_ - line.depth + more] line = _ at stays
  rw [lines, depth] at walked stays
  have list := walked 1 (by decide) le_rfl (by decide) 0 (Nat.zero_le _) (.inl rfl)
  have who := walked 2 (by decide) (by decide) (by decide) 0 (Nat.zero_le _) (.inl rfl)
  have exit := walked 2 (by decide) (by decide) (by decide) 2 le_rfl (.inr (by decide))
  exact ⟨depth, (Option.some.inj list).symm, (Option.some.inj who).symm, stays (by decide) 10,
    (Option.some.inj exit).symm⟩

end EditedLine

end Rsu.Cli
