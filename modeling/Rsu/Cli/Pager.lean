import Rsu.Cli.OutBuf
import Rsu.Data.Portion
import Rsu.Semantics.ActionSystem
import Rsu.Semantics.Checked

/-!
# Pages of output

What `buffer_flush_window` shows is a page: as much of the content as fits the window, counted over
the chunks, between the text that erases the `--More--` of the page before and a `--More--` if
something is left. A page does not depend on the chunks, and its vectors fit their array.
-/

namespace Rsu.Cli

open Rsu.Rcp Rsu.Data Checked

variable {size : Nat}

/-! ### The window -/

/-- Where the next character stands: its column, and the number of lines left. -/
structure Place where
  column : Nat
  height : Nat

namespace Place

/-- Display a character in a window of this width. -/
def advance (width : Nat) (place : Place) (char : Byte) : Place :=
  if char = 0x0D then { place with column := 1 }
  else if char = 0x0A ∨ place.column = width then ⟨1, place.height - 1⟩
  else { place with column := place.column + 1 }

/-- No line is left. -/
def full (place : Place) : Bool := place.height = 0

end Place

/-- A character on the terminal: of the text, or of what the pager adds. -/
structure Print where
  text : Bool
  char : Byte
  deriving DecidableEq

/-- The characters of a text. -/
def asText (chars : List Byte) : List Print := chars.map (Print.mk true)

/-- The text among what is printed. -/
def textOf (prints : List Print) : List Byte := (prints.filter Print.text).map Print.char

/-- `erase` of `buffer_flush_window` -/
def eraseVec : List Print :=
  (List.replicate 10 0x08 ++ List.replicate 10 0x20 ++ List.replicate 10 0x08).map (Print.mk false)

/-- `more` of `buffer_flush_window`, with the byte that ends the string. -/
def moreVec : List Print :=
  ([0x20, 0x2D, 0x2D, 0x4D, 0x6F, 0x72, 0x65, 0x2D, 0x2D, 0x20, 0x00] : List Byte).map
    (Print.mk false)

/-- `IOV_MAX` -/
def iovMax : Nat := 1024

/-- The vectors of a page in an array of `alloc` vectors. -/
structure IovArray where
  alloc : Nat
  vecs : List (List Print)

namespace IovArray

/-- Write a vector behind the last one. -/
def push (iov : IovArray) (vec : List Print) : Checked IovArray := do
  writable iov.alloc iov.vecs.length 1
  pure { iov with vecs := iov.vecs ++ [vec] }

/-- Write a vector that is wanted. -/
def pushIf (wanted : Bool) (vec : List Print) (iov : IovArray) : Checked IovArray :=
  if wanted then iov.push vec else pure iov

/-- Double an array that is full. -/
def grow (iov : IovArray) : IovArray :=
  if iov.vecs.length = iov.alloc then { iov with alloc := iov.alloc * 2 } else iov

end IovArray

/-- The part of a page that comes from some characters. -/
def pagePart (width : Nat) (place : Place) (chars : List Byte) : Portion Place Byte :=
  portion (Place.advance width) Place.full place chars

/-- As much of a text as fits a window. -/
def pageOf (width height : Nat) (text : List Byte) : Portion Place Byte :=
  pagePart width ⟨1, height⟩ text

/-- What is taken and what is left make up the text. -/
theorem pagePart_append (width : Nat) (place : Place) (chars : List Byte) :
    (pagePart width place chars).taken ++ (pagePart width place chars).left = chars :=
  portion_taken_append_left place chars

theorem pagePart_length_le (width : Nat) (place : Place) (chars : List Byte) :
    (pagePart width place chars).taken.length ≤ chars.length :=
  portion_taken_length_le place chars

/-- Nothing is taken when the window is full. -/
theorem pagePart_full {place : Place} (filled : place.height = 0) (width : Nat)
    (chars : List Byte) : pagePart width place chars = ⟨place, [], chars⟩ :=
  @portion_full _ _ (Place.advance width) Place.full place (decide_eq_true filled) chars

/-- A page that is cut has filled its window. -/
theorem height_of_cut {width : Nat} {place : Place} {chars : List Byte}
    (cut : (pagePart width place chars).left ≠ []) :
    (pagePart width place chars).state.height = 0 :=
  of_decide_eq_true
    (@full_of_left _ _ (Place.advance width) Place.full place chars cut)

/-- Every line feed of a page takes one of the lines. -/
theorem pagePart_lines (width : Nat) (place : Place) (chars : List Byte) :
    (pagePart width place chars).taken.count 0x0A + (pagePart width place chars).state.height ≤
      place.height := by
  induction chars generalizing place with
  | nil => exact (Nat.zero_add _).le
  | cons char later inductionHypothesis =>
      by_cases filled : place.height = 0
      · rw [pagePart_full filled]
        exact (Nat.zero_add _).le
      · have step : pagePart width place (char :: later) = _ :=
          @portion_cons _ _ (Place.advance width) Place.full place (decide_eq_false filled) char
            later
        have further := inductionHypothesis (place.advance width char)
        rw [step]
        change (char :: (pagePart width (place.advance width char) later).taken).count 0x0A +
          (pagePart width (place.advance width char) later).state.height ≤ _
        rw [List.count_cons]
        have moved : (place.advance width char).height + (if char == 0x0A then 1 else 0) ≤
            place.height := by
          rw [Place.advance]
          split_ifs with start feed below
          · rw [beq_iff_eq.1 feed] at start
            exact absurd start (by decide)
          · exact le_rfl
          · exact Nat.le_of_eq (Nat.sub_add_cancel (Nat.pos_of_ne_zero filled))
          · exact Nat.sub_le _ _
          · next feed => exact absurd (.inl (beq_iff_eq.1 feed)) below
          · exact le_rfl
        omega

/-- A chunk behind its part of a page. -/
def BufferData.shown (chunk : BufferData size) (width : Nat) (place : Place) : BufferData size :=
  chunk.skip (pagePart width place chunk.pending).taken.length (pagePart_length_le ..)

@[simp] theorem BufferData.pending_shown (chunk : BufferData size) (width : Nat) (place : Place) :
    (chunk.shown width place).pending = (pagePart width place chunk.pending).left := by
  rw [shown, pending_skip]
  have whole := pagePart_append width place chunk.pending
  exact (congrArg (List.drop _) whole).symm.trans List.drop_left

namespace Buffer

/-- The loop over the chunks: the pieces of the page, and what it leaves of the chunks. -/
def pageLoop (width : Nat) (place : Place) : Buffer size → List (List Byte) × Buffer size
  | [] => ([], [])
  | chunk :: later =>
      if place.height = 0 then ([], chunk :: later)
      else
        let page := pagePart width place chunk.pending
        let rest := pageLoop width page.state later
        (page.taken :: rest.1, chunk.shown width place :: rest.2)

section PageLoop

variable {b : Buffer size} (width : Nat)

/-- Chunks behind a full window are left alone. -/
theorem pageLoop_of_full {place : Place} (filled : place.height = 0) (b : Buffer size) :
    pageLoop width place b = ([], b) := by
  cases b with
  | nil => rfl
  | cons chunk later => rw [pageLoop, if_pos filled]

/-- A chunk that is cut ends the page. -/
theorem pageLoop_of_cut {place : Place} {chars : List Byte}
    (cut : (pagePart width place chars).left ≠ []) (b : Buffer size) :
    pageLoop width (pagePart width place chars).state b = ([], b) :=
  pageLoop_of_full width (height_of_cut cut) b

/-- The pieces make up the page, and the chunks are left with the rest. -/
theorem pageLoop_spec (place : Place) (b : Buffer size) :
    (pageLoop width place b).1.flatten = (pagePart width place (content b)).taken ∧
      content (pageLoop width place b).2 = (pagePart width place (content b)).left := by
  induction b generalizing place with
  | nil => exact ⟨rfl, rfl⟩
  | cons chunk later inductionHypothesis =>
      rw [pageLoop, content_cons]
      split_ifs with filled
      · rw [pagePart_full filled]
        exact ⟨rfl, content_cons chunk later⟩
      · dsimp only
        rw [List.flatten_cons, content_cons, BufferData.pending_shown]
        by_cases cut : (pagePart width place chunk.pending).left = []
        · have whole : (pagePart width place chunk.pending).taken ++
              (pagePart width place chunk.pending).left = chunk.pending :=
            portion_taken_append_left ..
          have joined : pagePart width place (chunk.pending ++ content later) = _ :=
            portion_append cut (content later)
          have further := inductionHypothesis (pagePart width place chunk.pending).state
          rw [cut, List.append_nil] at whole
          rw [joined, further.1, further.2, whole, cut]
          exact ⟨rfl, rfl⟩
        · have joined : pagePart width place (chunk.pending ++ content later) = _ :=
            portion_append_cut cut (content later)
          rw [joined, pageLoop_of_cut width cut]
          exact ⟨List.append_nil _, rfl⟩

/-- Chunks that are used up hold nothing. -/
theorem content_dropWhile (b : Buffer size) :
    content (b.dropWhile fun chunk => chunk.pending.isEmpty) = content b := by
  induction b with
  | nil => rfl
  | cons chunk later inductionHypothesis =>
      rw [List.dropWhile_cons]
      split_ifs with used
      · rw [inductionHypothesis, content_cons, List.isEmpty_iff.1 used, List.nil_append]
      · rfl

/-- What is left of a buffer without the chunks that are used up. -/
theorem Packed.pageLoop (packed : Packed b) (place : Place) :
    Packed ((Buffer.pageLoop width place b).2.dropWhile fun chunk => chunk.pending.isEmpty) := by
  induction b generalizing place with
  | nil => exact packed_nil
  | cons chunk later inductionHypothesis =>
      obtain ⟨holds, full, rest⟩ := packed_cons.1 packed
      by_cases filled : place.height = 0
      · rw [pageLoop_of_full width filled, List.dropWhile_cons, if_neg]
        · exact packed
        · exact fun used => holds (List.isEmpty_iff.1 used)
      · rw [Buffer.pageLoop, if_neg filled]
        dsimp only
        rw [List.dropWhile_cons, BufferData.pending_shown]
        split_ifs with used
        · exact inductionHypothesis rest _
        · rw [List.isEmpty_iff] at used
          rw [pageLoop_of_cut width used]
          refine packed_cons.2 ⟨?_, full, rest⟩
          rw [BufferData.pending_shown]
          exact used

/-- The last chunk of a buffer that is not empty has something to flush. -/
theorem Packed.tail (packed : Packed b) :
    b.getLast?.any (fun tail => !tail.pending.isEmpty) = !(content b).isEmpty := by
  obtain rfl | ⟨front, tail, rfl⟩ := List.eq_nil_or_concat b
  · rfl
  · rw [List.concat_eq_append] at packed ⊢
    have holds := (packed_concat.1 packed).2
    rw [List.getLast?_concat, content_concat, Option.any_some, List.isEmpty_eq_false_iff.2 holds,
      List.isEmpty_eq_false_iff.2 (List.append_ne_nil_of_right_ne_nil _ holds)]

/-- The last chunk has something left behind a page exactly if there is something left. -/
theorem Packed.tail_pageLoop (packed : Packed b) (place : Place) :
    (Buffer.pageLoop width place b).2.getLast?.any (fun tail => !tail.pending.isEmpty) =
      !(content (Buffer.pageLoop width place b).2).isEmpty := by
  induction b generalizing place with
  | nil => rfl
  | cons chunk later inductionHypothesis =>
      obtain ⟨holds, full, rest⟩ := packed_cons.1 packed
      by_cases filled : place.height = 0
      · rw [pageLoop_of_full width filled]
        exact packed.tail
      · rw [Buffer.pageLoop, if_neg filled]
        dsimp only
        by_cases cut : (pagePart width place chunk.pending).left = []
        · rw [content_cons, BufferData.pending_shown, cut, List.nil_append,
            ← inductionHypothesis rest]
          cases later with
          | nil =>
              rw [Buffer.pageLoop, List.getLast?_singleton, Option.any_some,
                BufferData.pending_shown, cut]
              rfl
          | cons second later =>
              rw [List.getLast?_cons_of_ne_nil]
              rw [Buffer.pageLoop]
              split_ifs <;> exact List.cons_ne_nil _ _
        · rw [pageLoop_of_cut width cut]
          refine Packed.tail (packed_cons.2 ⟨?_, full, rest⟩)
          rw [BufferData.pending_shown]
          exact cut

end PageLoop

/-- `iov_alloc`, while its product fits an `int`. -/
def iovAlloc (b : Buffer size) (width height : Nat) : Nat :=
  if b.length ≤ 1 then 3 else height * (width + 2) / size + 10

/-- The vectors of a page, each piece followed by a look at the room. -/
def layOut (alloc : Nat) (erase : Bool) (pieces : List (List Byte)) (more : Bool) :
    Checked (List (List Print)) := do
  let iov ← IovArray.pushIf erase eraseVec ⟨alloc, []⟩
  let iov ← pieces.foldlM (fun iov piece => IovArray.grow <$> iov.push (asText piece)) iov
  let iov ← iov.pushIf more moreVec
  pure iov.vecs

/-- The loop around `writev`, over its answers, and whether it ended without an error. -/
def writeAll (iov : List (List Print)) (answers : Nat → WriteAnswer) : List Print × Bool :=
  if iov = [] then ([], true)
  else
    match answers 0 with
    | .wrote count =>
        let rest := writeAll (iov.drop iovMax) fun turn => answers (turn + 1)
        ((iov.take iovMax).flatten.take count ++ rest.1, rest.2)
    | _ => ([], false)
  termination_by iov.length
  decreasing_by
    have some := List.length_pos_iff.2 (by assumption)
    rw [List.length_drop, iovMax]
    omega

/-- What showing a page came to. -/
structure Shown (size : Nat) where
  status : BufferStatus
  buffer : Buffer size
  prints : List Print

/-- The height of a window, which keeps a line for the prompt. -/
def windowHeight (height : Int) : Nat :=
  (if height < 1 then 1 else if height ≥ 2 then height - 1 else height).toNat

/-- The width of a window. -/
def windowWidth (width : Int) : Nat := (if width < 1 then 1 else width).toNat

/-- `buffer_flush_window` -/
def bufferFlushWindow (b : Buffer size) (width height : Int) (erase noMore : Bool)
    (answers : Nat → WriteAnswer) : Checked (Shown size) :=
  if bufferEmpty b then .ok ⟨.empty, b, []⟩
  else do
    let height := windowHeight height
    let width := windowWidth width
    let (pieces, rest) := pageLoop width ⟨1, height⟩ b
    let more := rest.getLast?.any (fun tail => !tail.pending.isEmpty) && !noMore
    let iov ← layOut (iovAlloc b width height) erase pieces more
    let (prints, written) := writeAll iov answers
    let left := rest.dropWhile fun chunk => chunk.pending.isEmpty
    pure ⟨if !written then .error else if bufferEmpty left then .empty else .pending, left, prints⟩

/-! ### One page -/

section Vectors

variable {iov : IovArray} {alloc : Nat}

/-- A vector is added as long as there is room. -/
theorem push_of_room (room : iov.vecs.length < iov.alloc) (vec : List Print) :
    iov.push vec = .ok { iov with vecs := iov.vecs ++ [vec] } := by
  rw [IovArray.push, writable, if_pos (by omega)]
  rfl

/-- Behind every piece there is room for one more vector. -/
theorem foldlM_push (pieces : List (List Byte)) (room : iov.vecs.length < iov.alloc) :
    ∃ alloc, pieces.foldlM (fun iov piece => IovArray.grow <$> iov.push (asText piece)) iov =
        (.ok ⟨alloc, iov.vecs ++ pieces.map asText⟩ : Checked IovArray) ∧
      (iov.vecs ++ pieces.map asText).length < alloc := by
  induction pieces generalizing iov with
  | nil =>
      rw [List.map_nil, List.append_nil]
      exact ⟨iov.alloc, rfl, room⟩
  | cons piece pieces inductionHypothesis =>
      have grown : (IovArray.grow { iov with vecs := iov.vecs ++ [asText piece] }).vecs =
          iov.vecs ++ [asText piece] := by
        rw [IovArray.grow]
        split_ifs <;> rfl
      have more : (IovArray.grow { iov with vecs := iov.vecs ++ [asText piece] }).vecs.length <
          (IovArray.grow { iov with vecs := iov.vecs ++ [asText piece] }).alloc := by
        rw [grown, IovArray.grow]
        split_ifs with filled
        · simp only [List.length_append, List.length_singleton] at filled ⊢
          omega
        · simp only [List.length_append, List.length_singleton] at filled ⊢
          omega
      obtain ⟨alloc, folded, roomy⟩ := inductionHypothesis more
      rw [grown, List.append_assoc, List.singleton_append, ← List.map_cons] at folded roomy
      refine ⟨alloc, ?_, roomy⟩
      rw [List.foldlM_cons, push_of_room room]
      exact folded

/-- What is handed to `writev` in all. -/
def vectors (erase : Bool) (pieces : List (List Byte)) (more : Bool) : List (List Print) :=
  (if erase then [eraseVec] else []) ++ pieces.map asText ++ if more then [moreVec] else []

theorem pushIf_of_room (room : iov.vecs.length < iov.alloc) (wanted : Bool) (vec : List Print) :
    iov.pushIf wanted vec =
      .ok { iov with vecs := iov.vecs ++ if wanted then [vec] else [] } := by
  rw [IovArray.pushIf]
  cases wanted with
  | true => exact push_of_room room vec
  | false =>
      rw [if_neg Bool.false_ne_true, if_neg Bool.false_ne_true, List.append_nil]
      rfl

/-- No vector is written behind the array. -/
theorem layOut_eq (room : 2 ≤ alloc) (erase : Bool) (pieces : List (List Byte)) (more : Bool) :
    layOut alloc erase pieces more = .ok (vectors erase pieces more) := by
  have first := @pushIf_of_room ⟨alloc, []⟩ (show 0 < alloc by omega) erase eraseVec
  have few : (if erase then [eraseVec] else []).length < alloc := by
    split_ifs
    · exact room
    · exact (by omega : 0 < alloc)
  obtain ⟨grown, folded, roomy⟩ :=
    @foldlM_push ⟨alloc, if erase then [eraseVec] else []⟩ pieces few
  rw [List.nil_append] at first
  rw [layOut, first, Checked.ok_bind, folded, Checked.ok_bind, pushIf_of_room roomy]
  rfl

/-- There is room for the texts around the page. -/
theorem two_le_iovAlloc (b : Buffer size) (width height : Nat) : 2 ≤ iovAlloc b width height := by
  rw [iovAlloc]
  split_ifs
  · decide
  · exact Nat.le_add_left_of_le (by decide)

end Vectors

section Write

variable {iov : List (List Print)} {answers : Nat → WriteAnswer}

/-- Nothing is printed that was not handed over, and nothing twice. -/
theorem writeAll_sublist (iov : List (List Print)) (answers : Nat → WriteAnswer) :
    (writeAll iov answers).1.Sublist iov.flatten := by
  induction iov, answers using writeAll.induct with
  | case1 answers =>
      rw [writeAll, if_pos rfl]
      exact List.nil_sublist _
  | case2 iov answers some count wrote inductionHypothesis =>
      rw [writeAll, if_neg some, wrote]
      dsimp only
      conv_rhs => rw [← List.take_append_drop iovMax iov, List.flatten_append]
      exact (List.take_sublist _ _).append inductionHypothesis
  | case3 iov answers some failed =>
      rw [writeAll, if_neg some]
      split
      · next count wrote => exact absurd wrote (failed count)
      · exact List.nil_sublist _

/-- Everything is printed if every call has room for it. -/
theorem writeAll_whole
    (roomy : ∀ turn, ∃ count, answers turn = .wrote count ∧ iov.flatten.length ≤ count) :
    writeAll iov answers = (iov.flatten, true) := by
  induction iov, answers using writeAll.induct with
  | case1 answers => rw [writeAll, if_pos rfl, List.flatten_nil]
  | case2 iov answers some count wrote inductionHypothesis =>
      have split : iov.flatten = (iov.take iovMax).flatten ++ (iov.drop iovMax).flatten := by
        rw [← List.flatten_append, List.take_append_drop]
      have all := inductionHypothesis fun turn => by
        obtain ⟨count, wrote, enough⟩ := roomy (turn + 1)
        rw [split, List.length_append] at enough
        exact ⟨count, wrote, by omega⟩
      obtain ⟨other, same, enough⟩ := roomy 0
      cases wrote.symm.trans same
      rw [split, List.length_append] at enough
      rw [writeAll, if_neg some, wrote]
      dsimp only
      rw [all, List.take_of_length_le (by omega), split]
  | case3 iov answers some failed =>
      obtain ⟨count, wrote, -⟩ := roomy 0
      exact absurd wrote (failed count)

end Write

/-- What a page looks like. -/
def pagePrints (page : Portion Place Byte) (erase noMore : Bool) : List Print :=
  (if erase then eraseVec else []) ++ asText page.taken ++
    if !page.left.isEmpty && !noMore then moreVec else []

/-- The vectors are the text with what stands around it. -/
theorem flatten_vectors (erase : Bool) (pieces : List (List Byte)) (more : Bool) :
    (vectors erase pieces more).flatten =
      (if erase then eraseVec else []) ++ asText pieces.flatten ++
        if more then moreVec else [] := by
  rw [vectors, List.flatten_append, List.flatten_append, asText, List.map_flatten]
  congr 1
  · congr 1
    cases erase <;> rfl
  · cases more <;> rfl

/-- A window shows a page of the content, however the content is cut into chunks: the vectors fit
their array, the rest stays, and all of the page is printed if the terminal takes it. -/
theorem Packed.flushWindow {b : Buffer size} (packed : Packed b) (some : b ≠ [])
    (width height : Int) (erase noMore : Bool) (answers : Nat → WriteAnswer) :
    ∃ shown, bufferFlushWindow b width height erase noMore answers = .ok shown ∧
      content shown.buffer =
        (pageOf (windowWidth width) (windowHeight height) (content b)).left ∧
      Packed shown.buffer ∧
      shown.prints.Sublist
        (pagePrints (pageOf (windowWidth width) (windowHeight height) (content b)) erase noMore) ∧
      ((∀ turn, ∃ count, answers turn = .wrote count ∧
          (pagePrints (pageOf (windowWidth width) (windowHeight height) (content b)) erase
            noMore).length ≤ count) →
        shown.status ≠ .error ∧
          shown.prints =
            pagePrints (pageOf (windowWidth width) (windowHeight height) (content b)) erase
              noMore) := by
  have filled : bufferEmpty b = false := List.isEmpty_eq_false_iff.2 some
  obtain ⟨taken, left⟩ := pageLoop_spec (windowWidth width) ⟨1, windowHeight height⟩ b
  have tail := packed.tail_pageLoop (windowWidth width) ⟨1, windowHeight height⟩
  have kept := packed.pageLoop (windowWidth width) ⟨1, windowHeight height⟩
  have dropped := content_dropWhile
    (Buffer.pageLoop (windowWidth width) ⟨1, windowHeight height⟩ b).2
  rw [bufferFlushWindow, if_neg (by rw [filled]; exact Bool.false_ne_true)]
  dsimp only
  generalize Buffer.pageLoop (windowWidth width) ⟨1, windowHeight height⟩ b = looped at *
  rw [tail, left]
  change _ = (pageOf (windowWidth width) (windowHeight height) (content b)).taken at taken
  change _ = (pageOf (windowWidth width) (windowHeight height) (content b)).left at left
  change ∃ shown, (do
      let iov ← layOut _ erase looped.1
        (!(pageOf (windowWidth width) (windowHeight height) (content b)).left.isEmpty && !noMore)
      _) = Except.ok shown ∧ _
  generalize pageOf (windowWidth width) (windowHeight height) (content b) = page at *
  have laid := layOut_eq (two_le_iovAlloc b (windowWidth width) (windowHeight height)) erase
    looped.1 (!page.left.isEmpty && !noMore)
  have flat := flatten_vectors erase looped.1 (!page.left.isEmpty && !noMore)
  rw [taken] at flat
  refine ⟨_, by rw [laid]; rfl, dropped.trans left, kept, ?_, fun roomy => ?_⟩
  · have handed := writeAll_sublist
      (vectors erase looped.1 (!page.left.isEmpty && !noMore)) answers
    rw [flat] at handed
    exact handed
  · have all := @writeAll_whole (vectors erase looped.1 (!page.left.isEmpty && !noMore)) answers
      fun turn => by
        obtain ⟨count, wrote, enough⟩ := roomy turn
        exact ⟨count, wrote, (congrArg List.length flat).trans_le enough⟩
    dsimp only
    rw [all]
    refine ⟨?_, flat⟩
    rw [Bool.not_true, if_neg Bool.false_ne_true]
    split_ifs <;> exact fun same => by cases same

end Buffer

/-! ### A session -/

/-- What `vty_flush` reads of the window: `lines`, `width` and `height` of `struct vty`. The
product from which the number of vectors is computed fits an `int`. -/
structure Screen where
  lines : Int
  width : Int
  height : Int
  lines_fit : Buffer.windowHeight lines * (Buffer.windowWidth width + 2) < 2 ^ 31
  height_fits : Buffer.windowHeight height * (Buffer.windowWidth width + 2) < 2 ^ 31

/-- The output of a session, with what was put into it and what came out of it. -/
structure OutState (size : Nat) where
  obuf : Buffer size
  status : VtyStatus
  put : List Byte
  prints : List Print
  deriving DecidableEq

/-- What happens to the output. -/
inductive OutAction where
  /-- `buffer_put`, by `vty_out` and `vty_write` -/
  | put (p : List Byte)
  /-- `vty_flush`, with the window as it is now and what `writev` answers -/
  | flush (screen : Screen) (answers : Nat → Buffer.WriteAnswer)
  /-- `buffer_flush_all`, by `vty_close` -/
  | flushAll (interrupted : Bool) (answers : List Buffer.WriteAnswer)
  /-- `buffer_reset`, by `vty_buffer_reset` and `vty_timeout` -/
  | reset
  /-- The session is to be closed. -/
  | close

namespace OutState

/-- A new session. -/
def initial : OutState size := ⟨[], .normal, [], []⟩

/-- What `vty_flush` calls. -/
def flushes (state : OutState size) (screen : Screen) (answers : Nat → Buffer.WriteAnswer) :
    Checked (Buffer.Shown size) :=
  let erase := decide (state.status = .more ∨ state.status = .moreline)
  if screen.lines = 0 ∨ screen.width = 0 then
    let flushed := Buffer.bufferFlushAvailable state.obuf (answers 0)
    pure ⟨flushed.status, flushed.buffer, asText flushed.sent⟩
  else if state.status = .moreline then
    Buffer.bufferFlushWindow state.obuf screen.width 1 erase false answers
  else
    Buffer.bufferFlushWindow state.obuf screen.width
      (if screen.lines ≥ 0 then screen.lines else screen.height) erase false answers

/-- The output behind what was shown. -/
def after (state : OutState size) (shown : Buffer.Shown size) : OutState size :=
  { state with
    obuf := if shown.status = .error then Buffer.bufferReset shown.buffer else shown.buffer
    status := Cli.vtyFlush state.status shown.status
    prints := state.prints ++ shown.prints }

/-- `vty_flush` -/
def vtyFlush (state : OutState size) (screen : Screen) (answers : Nat → Buffer.WriteAnswer) :
    Checked (OutState size) :=
  state.after <$> state.flushes screen answers

/-- The steps of the output. -/
inductive Step [NeZero size] : OutState size → OutAction → OutState size → Prop
  | put {state : OutState size} {p : List Byte} :
      Step state (.put p)
        { state with obuf := Buffer.bufferPut state.obuf p, put := state.put ++ p }
  | flushed {state next : OutState size} {screen : Screen} {answers : Nat → Buffer.WriteAnswer}
      (flushed : state.vtyFlush screen answers = .ok next) :
      Step state (.flush screen answers) next
  | flushedAll {state : OutState size} {interrupted : Bool} {answers : List Buffer.WriteAnswer}
      {result : Buffer.Flushed size}
      (flushed : Buffer.bufferFlushAll interrupted state.obuf answers = some result) :
      Step state (.flushAll interrupted answers)
        { state with obuf := result.buffer, prints := state.prints ++ asText result.sent }
  | reset {state : OutState size} :
      Step state .reset { state with obuf := Buffer.bufferReset state.obuf }
  | closed {state : OutState size} : Step state .close { state with status := .close }

/-- The output as an action system. -/
def outSystem (size : Nat) [NeZero size] : ActionSystem OutAction where
  State := OutState size
  Initial state := state = initial
  Step := Step

/-- The text on the terminal and behind it the text that is still to come. -/
def told (state : OutState size) : List Byte := textOf state.prints ++ state.obuf.content

/-- The terminal takes what it is given: all of a page, and without a page whatever it wants as
long as it does not fail; and nothing is thrown away. -/
def Served (state : OutState size) : OutAction → Prop
  | .flush screen answers =>
      if screen.lines = 0 ∨ screen.width = 0 then answers 0 ≠ .failed
      else ∀ turn, ∃ count, answers turn = .wrote count ∧ state.obuf.content.length + 41 ≤ count
  | .reset => state.obuf.content = []
  | _ => True

/-- The text of two prints. -/
theorem textOf_append (first second : List Print) :
    textOf (first ++ second) = textOf first ++ textOf second := by
  rw [textOf, List.filter_append, List.map_append]
  rfl

/-- The text of a text. -/
theorem textOf_asText (chars : List Byte) : textOf (asText chars) = chars := by
  induction chars with
  | nil => rfl
  | cons char chars inductionHypothesis => exact congrArg (char :: ·) inductionHypothesis

/-- The text of a page is what is taken from the buffer. -/
theorem textOf_pagePrints (page : Portion Place Byte) (erase noMore : Bool) :
    textOf (Buffer.pagePrints page erase noMore) = page.taken := by
  have first : textOf (if erase then eraseVec else []) = [] := by
    split_ifs <;> rfl
  have last : textOf (if !page.left.isEmpty && !noMore then moreVec else []) = [] := by
    split_ifs <;> rfl
  rw [Buffer.pagePrints, textOf_append, textOf_append, first, last, textOf_asText,
    List.nil_append, List.append_nil]

/-- A page is little longer than its text. -/
theorem length_pagePrints_le (page : Portion Place Byte) (erase noMore : Bool) :
    (Buffer.pagePrints page erase noMore).length ≤ page.taken.length + 41 := by
  have first : (if erase then eraseVec else []).length ≤ 30 := by
    split_ifs <;> decide
  have last : (if !page.left.isEmpty && !noMore then moreVec else []).length ≤ 11 := by
    split_ifs <;> decide
  rw [Buffer.pagePrints, List.length_append, List.length_append, asText, List.length_map]
  omega

/-- A page accounts for the content: what it prints of the text, and what it leaves. -/
theorem window_accounts {b : Buffer size} (packed : b.Packed) (width height : Int) (erase : Bool)
    (answers : Nat → Buffer.WriteAnswer) :
    ∃ shown, Buffer.bufferFlushWindow b width height erase false answers = .ok shown ∧
      shown.buffer.Packed ∧
      (textOf shown.prints ++ shown.buffer.content).Sublist b.content ∧
      ((∀ turn, ∃ count, answers turn = .wrote count ∧ b.content.length + 41 ≤ count) →
        shown.status ≠ .error ∧ textOf shown.prints ++ shown.buffer.content = b.content) := by
  by_cases nothing : b = []
  · subst nothing
    exact ⟨⟨.empty, [], []⟩, rfl, Buffer.packed_nil, List.Sublist.refl _,
      fun _ => ⟨(fun same => by cases same), rfl⟩⟩
  · obtain ⟨shown, returned, left, kept, printed, whole⟩ :=
      packed.flushWindow nothing width height erase false answers
    have split := pagePart_append (Buffer.windowWidth width) ⟨1, Buffer.windowHeight height⟩
      b.content
    change (pageOf (Buffer.windowWidth width) (Buffer.windowHeight height) b.content).taken ++
      (pageOf (Buffer.windowWidth width) (Buffer.windowHeight height) b.content).left = _ at split
    generalize pageOf (Buffer.windowWidth width) (Buffer.windowHeight height) b.content = page at *
    refine ⟨shown, returned, kept, ?_, fun roomy => ?_⟩
    · have text : (textOf shown.prints).Sublist (textOf (Buffer.pagePrints page erase false)) :=
        (printed.filter _).map _
      rw [textOf_pagePrints] at text
      rw [left, ← split]
      exact text.append (List.Sublist.refl _)
    · have length := congrArg List.length split
      rw [List.length_append] at length
      have small := length_pagePrints_le page erase false
      obtain ⟨fine, same⟩ := whole fun turn => by
        obtain ⟨count, wrote, enough⟩ := roomy turn
        exact ⟨count, wrote, by omega⟩
      exact ⟨fine, by rw [same, textOf_pagePrints, left, split]⟩

/-- What `vty_flush` calls accounts for the content. -/
theorem flushes_accounts {state : OutState size} (packed : state.obuf.Packed) (screen : Screen)
    (answers : Nat → Buffer.WriteAnswer) :
    ∃ shown, state.flushes screen answers = .ok shown ∧ shown.buffer.Packed ∧
      (textOf shown.prints ++ shown.buffer.content).Sublist state.obuf.content ∧
      (state.Served (.flush screen answers) →
        shown.status ≠ .error ∧
          textOf shown.prints ++ shown.buffer.content = state.obuf.content) := by
  rw [flushes, Served]
  dsimp only
  split_ifs with unknown line
  · have sound := packed.sound_flushAvailable (answers 0)
    refine ⟨_, rfl, sound.packed, ?_, fun fine => ⟨?_, ?_⟩⟩
    · rw [textOf_asText, sound.accounts]
    · unfold Buffer.bufferFlushAvailable
      dsimp only
      split_ifs
      · exact fun same => by cases same
      · cases given : answers 0 with
        | wrote count =>
            dsimp only
            split_ifs <;> exact fun same => by cases same
        | retry interrupted => exact fun same => by cases same
        | failed => exact absurd given fine
    · rw [textOf_asText, sound.accounts]
  · exact window_accounts packed ..
  · exact window_accounts packed ..
  · exact window_accounts packed ..

/-- `vty_flush` always ends, adds nothing to the text, and loses nothing if the terminal takes what
it is given. -/
theorem vtyFlush_accounts {state : OutState size} (packed : state.obuf.Packed) (screen : Screen)
    (answers : Nat → Buffer.WriteAnswer) :
    ∃ next, state.vtyFlush screen answers = .ok next ∧ next.obuf.Packed ∧ next.put = state.put ∧
      next.told.Sublist state.told ∧
      (state.Served (.flush screen answers) → next.told = state.told) := by
  obtain ⟨shown, returned, kept, less, whole⟩ := flushes_accounts packed screen answers
  have further : (state.after shown).told =
      textOf state.prints ++ (textOf shown.prints ++ (state.after shown).obuf.content) := by
    rw [told, ← List.append_assoc, ← textOf_append]
    rfl
  refine ⟨state.after shown, by rw [vtyFlush, returned]; rfl, ?_, rfl, ?_, fun served => ?_⟩
  · rw [after]
    dsimp only
    split_ifs
    · exact Buffer.packed_nil
    · exact kept
  · rw [further]
    refine (List.Sublist.refl _).append (List.Sublist.trans ?_ less)
    refine (List.Sublist.refl _).append ?_
    rw [after]
    dsimp only
    split_ifs
    · exact List.nil_sublist _
    · exact List.Sublist.refl _
  · obtain ⟨fine, same⟩ := whole served
    have stays : (state.after shown).obuf = shown.buffer := if_neg fine
    rw [further, stays, same]
    rfl

/-- What holds of the output between two calls. -/
structure Ordered (state : OutState size) : Prop where
  packed : state.obuf.Packed
  told : state.told.Sublist state.put

/-- At the start nothing is shown or pending. -/
theorem ordered_initial : Ordered (initial : OutState size) :=
  ⟨Buffer.packed_nil, List.Sublist.refl _⟩

section Steps

variable [NeZero size] {state next : OutState size} {action : OutAction}

/-- Every step keeps the buffer packed. -/
theorem Step.packed (step : Step state action next) (packed : state.obuf.Packed) :
    next.obuf.Packed := by
  cases step with
  | put => exact packed.bufferPut _
  | flushed flushed =>
      obtain ⟨other, returned, kept, -⟩ := vtyFlush_accounts packed _ _
      cases flushed.symm.trans returned
      exact kept
  | flushedAll flushed => exact (packed.sound_flushAll flushed).packed
  | reset => exact Buffer.packed_nil
  | closed => exact packed

/-- A step tells nothing new but what it puts. -/
theorem Step.ordered (step : Step state action next) (ordered : Ordered state) :
    Ordered next := by
  refine ⟨step.packed ordered.packed, ?_⟩
  cases step with
  | put =>
      rw [told, Buffer.content_bufferPut, ← List.append_assoc]
      exact ordered.told.append (List.Sublist.refl _)
  | flushed flushed =>
      obtain ⟨other, returned, -, same, less, -⟩ := vtyFlush_accounts ordered.packed _ _
      cases flushed.symm.trans returned
      rw [same]
      exact less.trans ordered.told
  | flushedAll flushed =>
      have sound := ordered.packed.sound_flushAll flushed
      rw [told, textOf_append, textOf_asText, List.append_assoc, sound.accounts]
      exact ordered.told
  | reset =>
      refine List.Sublist.trans ?_ ordered.told
      exact (List.Sublist.refl _).append (List.nil_sublist _)
  | closed => exact ordered.told

/-- A step that serves the terminal loses nothing. -/
theorem Step.told_eq (step : Step state action next) (packed : state.obuf.Packed)
    (served : state.Served action) (all : state.told = state.put) : next.told = next.put := by
  cases step with
  | put =>
      rw [told, Buffer.content_bufferPut, ← List.append_assoc]
      exact congrArg (· ++ _) all
  | flushed flushed =>
      obtain ⟨other, returned, -, same, -, whole⟩ := vtyFlush_accounts packed _ _
      cases flushed.symm.trans returned
      rw [whole served, all, same]
  | flushedAll flushed =>
      have sound := packed.sound_flushAll flushed
      rw [told, textOf_append, textOf_asText, List.append_assoc, sound.accounts]
      exact all
  | reset =>
      have nothing : state.obuf.content = [] := served
      rw [told, nothing] at all
      exact all
  | closed => exact all

end Steps

/-- A window of which nothing is known. -/
def noScreen : Screen := ⟨-1, 0, 0, by decide, by decide⟩

/-- A window with a line of text above its prompt. -/
def flatScreen : Screen := ⟨2, 80, 24, by decide, by decide⟩

/-- Three lines of text. -/
def lines : List Byte :=
  [0x68, 0x69, 0x0A, 0x74, 0x68, 0x65, 0x72, 0x65, 0x0A, 0x79, 0x6F, 0x75, 0x0A]

/-- They were put, and the terminal took the first byte. -/
def firstTold : OutState 8 :=
  ⟨[⟨lines.take 8, 1, by decide, by decide⟩, ⟨lines.drop 8, 0, by decide, by decide⟩], .more, lines,
    asText [0x68]⟩

/-- Then a page with the rest of the first line. -/
def onePage : OutState 8 :=
  ⟨[⟨lines.take 8, 3, by decide, by decide⟩, ⟨lines.drop 8, 0, by decide, by decide⟩], .more, lines,
    asText [0x68] ++ (eraseVec ++ asText [0x69, 0x0A] ++ moreVec)⟩

/-- Then a page with the second line, which lay in both chunks. -/
def twoPages : OutState 8 :=
  ⟨[⟨lines.drop 8, 1, by decide, by decide⟩], .more, lines,
    onePage.prints ++ (eraseVec ++ asText ((lines.drop 3).take 6) ++ moreVec)⟩

/-- How it came about. -/
def pagedPath : (outSystem 8).Path initial twoPages :=
  have first : Step ⟨Buffer.bufferPut [] lines, .normal, lines, []⟩
      (.flush noScreen fun _ => .wrote 1) firstTold := .flushed (by decide +kernel)
  have page : Step firstTold (.flush flatScreen fun _ => .wrote 100) onePage :=
    .flushed (by decide +kernel)
  have next : Step onePage (.flush flatScreen fun _ => .wrote 100) twoPages :=
    .flushed (by decide +kernel)
  have start : (outSystem 8).Path initial initial := .nil
  (((start.snoc (.put lines) _ .put).snoc _ _ first).snoc _ _ page).snoc _ _ next

section Runs

variable [NeZero size] {finish : OutState size}

/-- Whatever is put and however it is flushed, the terminal shows what was put in the order in
which it was put, nothing twice and nothing else but the texts of the pager, and no vector of a
page is ever written behind its array. -/
theorem output_in_order (path : (outSystem size).Path initial finish) :
    path.Always fun state : OutState size => state.told.Sublist state.put ∧
      ∀ screen answers, ∃ next, state.vtyFlush screen answers = .ok next := by
  have ordered : path.Always Ordered :=
    ActionSystem.Path.always_of_invariant ordered_initial
      (fun ordered step => Step.ordered step ordered) path
  refine ordered.mono fun state ordered => ⟨ordered.told, fun screen answers => ?_⟩
  obtain ⟨next, returned, -⟩ := vtyFlush_accounts ordered.packed screen answers
  exact ⟨next, returned⟩

/-- Two pages told. -/
theorem output_in_order_paged : twoPages.told.Sublist lines ∧
    ∀ screen answers, ∃ next, twoPages.vtyFlush screen answers = .ok next :=
  (output_in_order pagedPath).last

/-- If the terminal takes every page as a whole and never fails, and nothing is thrown away, then
all that was put is on the terminal or still to come. -/
theorem output_complete (path : (outSystem size).Path initial finish)
    (served : path.StepsMeet Served) :
    path.Always fun state : OutState size => state.told = state.put := by
  have complete : path.Always fun state : OutState size =>
      state.obuf.Packed ∧ state.told = state.put :=
    ActionSystem.Path.always_of_stepsMeet ⟨Buffer.packed_nil, rfl⟩
      (fun good step served => ⟨Step.packed step good.1, Step.told_eq step good.1 served good.2⟩)
      served
  exact complete.mono fun state good => good.2

/-- Two lines told, and the third one to come. -/
theorem output_complete_paged : twoPages.told = lines :=
  (output_complete pagedPath ⟨⟨⟨⟨trivial, trivial⟩, fun same => by cases same⟩,
    fun _ => ⟨100, rfl, by decide⟩⟩, fun _ => ⟨100, rfl, by decide⟩⟩).last

/-- Pages do not depend on how the output came about. In every state of every run, a window whose
terminal takes the page shows the longest beginning of what is to come that fits the window,
between the texts of the pager, has `--More--` behind it exactly if something is left, and keeps
the rest; it has no more line feeds than the window has lines. -/
theorem output_pages (path : (outSystem size).Path initial finish) :
    path.Always fun state : OutState size => state.obuf ≠ [] →
      ∀ (width height : Int) (erase noMore : Bool) (answers : Nat → Buffer.WriteAnswer),
        Buffer.windowHeight height * (Buffer.windowWidth width + 2) < 2 ^ 31 →
        (∀ turn, ∃ count, answers turn = .wrote count ∧ state.obuf.content.length + 41 ≤ count) →
        let page := pageOf (Buffer.windowWidth width) (Buffer.windowHeight height)
          state.obuf.content
        ∃ shown, Buffer.bufferFlushWindow state.obuf width height erase noMore answers = .ok shown ∧
          shown.prints = Buffer.pagePrints page erase noMore ∧
          shown.buffer.content = page.left ∧ page.taken ++ page.left = state.obuf.content ∧
          (page.left ≠ [] → page.state.height = 0) ∧
          page.taken.count 0x0A ≤ Buffer.windowHeight height := by
  have packed : path.Always fun state : OutState size => state.obuf.Packed :=
    ActionSystem.Path.always_of_invariant Buffer.packed_nil
      (fun packed step => Step.packed step packed) path
  refine packed.mono fun state packed some width height erase noMore answers _ roomy => ?_
  intro page
  have split : page.taken ++ page.left = state.obuf.content := pagePart_append ..
  have lines : page.taken.count 0x0A + page.state.height ≤ Buffer.windowHeight height :=
    pagePart_lines ..
  obtain ⟨shown, returned, left, -, -, whole⟩ :=
    packed.flushWindow some width height erase noMore answers
  have length := congrArg List.length split
  rw [List.length_append] at length
  have small := length_pagePrints_le page erase noMore
  obtain ⟨-, printed⟩ := whole fun turn => by
    obtain ⟨count, wrote, enough⟩ := roomy turn
    exact ⟨count, wrote, le_trans small (by omega)⟩
  exact ⟨shown, returned, printed, left, split, height_of_cut, by omega⟩

/-- The third line in a window of four columns: its first page has no room for the line feed. -/
theorem output_pages_paged :
    let page := pageOf (Buffer.windowWidth 3) (Buffer.windowHeight 2) [0x79, 0x6F, 0x75, 0x0A]
    page.left = [0x0A] ∧
      ∃ shown, Buffer.bufferFlushWindow twoPages.obuf 3 2 true false (fun _ => .wrote 100) =
          .ok shown ∧
        shown.prints = Buffer.pagePrints page true false ∧
        shown.buffer.content = page.left ∧ page.taken ++ page.left = [0x79, 0x6F, 0x75, 0x0A] ∧
        (page.left ≠ [] → page.state.height = 0) ∧
        page.taken.count 0x0A ≤ Buffer.windowHeight 2 :=
  ⟨by decide, (output_pages pagedPath).last (by decide) 3 2 true false (fun _ => .wrote 100)
    (by decide) fun _ => ⟨100, rfl, by decide⟩⟩

/-- What is left when a session is closed. In every state of every run, unless it is interrupted,
`buffer_flush_all` comes to an end and accounts for every byte. -/
theorem closing_ends (path : (outSystem size).Path initial finish) :
    path.Always fun state : OutState size => ∀ answers : List Buffer.WriteAnswer,
      (∀ answer ∈ answers, answer ≠ .retry true) → state.obuf.content.length < answers.length →
        ∃ result, Buffer.bufferFlushAll false state.obuf answers = some result ∧
          result.sent ++ result.buffer.content = state.obuf.content ∧
          (result.status = .empty ↔ result.sent = state.obuf.content) := by
  have packed : path.Always fun state : OutState size => state.obuf.Packed :=
    ActionSystem.Path.always_of_invariant Buffer.packed_nil
      (fun packed step => Step.packed step packed) path
  refine packed.mono fun state packed answers calm enough => ?_
  obtain ⟨result, returned⟩ := packed.flushAll_returns calm enough
  have sound := packed.sound_flushAll returned
  refine ⟨result, returned, sound.accounts, sound.empty.trans ?_⟩
  rw [← sound.accounts]
  exact List.self_eq_append_right.symm

/-- The third line is flushed in parts, and the last part fails. -/
theorem closing_ends_paged :
    let answers : List Buffer.WriteAnswer := [.wrote 1, .wrote 2, .failed, .failed, .failed]
    ∃ result, Buffer.bufferFlushAll false twoPages.obuf answers = some result ∧
      result.sent ++ result.buffer.content = [0x79, 0x6F, 0x75, 0x0A] ∧
      (result.status = .empty ↔ result.sent = [0x79, 0x6F, 0x75, 0x0A]) :=
  (closing_ends pagedPath).last _ (by simp) (by decide)

end Runs

end OutState

end Rsu.Cli
