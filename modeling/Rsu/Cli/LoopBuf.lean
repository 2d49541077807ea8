import Rsu.Data.Ring
import Rsu.Rcp.Frame
import Rsu.Semantics.Refinement

/-!
# `loop_buf.c`

The ring buffer between the two threads of a telnet session. The indexes are `unsigned int`,
and one cell stays free so that equal indexes mean an empty buffer. It refines a queue of
bytes, from which a reader takes no more than one line at a time.
-/

namespace Rsu.Cli

open Rsu.Rcp Rsu.Data

/-- `LOOP_BUF_LEN` -/
def loopBufLen : Nat := 4096

/-- `'\r'` -/
def carriageReturn : Byte := 0x0D

/-- `loop_buf_t` -/
structure LoopBuf where
  buffer : Vector Byte loopBufLen
  /-- `in` -/
  inAt : BitVec 32
  /-- `out` -/
  outAt : BitVec 32

/-- `init_loop_buf` -/
def initLoopBuf : LoopBuf := ⟨.replicate loopBufLen 0, 0, 0⟩

section Functions

variable (buf : LoopBuf)

/-- `loop_buf_sz` -/
def loopBufSz : BitVec 32 := (buf.inAt - buf.outAt + 4096) % 4096

/-- `loop_buf_remain` -/
def loopBufRemain : BitVec 32 := (buf.outAt + 4096 - 1 - buf.inAt) % 4096

/-- `loop_buf_isempty` -/
def loopBufIsempty : Bool := buf.outAt = buf.inAt

/-- `loop_buf_reset` -/
def loopBufReset : LoopBuf := { buf with inAt := 0, outAt := 0 }

/-- The loop body of `loop_buf_push_n`. -/
def pushByte (byte : Byte) : LoopBuf :=
  { buf with
    buffer := buf.buffer.setIfInBounds buf.inAt.toNat byte
    inAt := (buf.inAt + 1) % 4096 }

/-- `loop_buf_push_n`: the buffer, and what is returned. -/
def loopBufPushN (p : List Byte) : LoopBuf × Nat :=
  if (loopBufRemain buf).toNat < p.length then (buf, 0) else (p.foldl pushByte buf, p.length)

/-- The byte that is popped next. -/
def nextByte : Byte := byteAt buf.buffer.toList buf.outAt.toNat

/-- The buffer without the byte that is popped next. -/
def dropByte : LoopBuf := { buf with outAt := (buf.outAt + 1) % 4096 }

/-- The loop of `loop_buf_pop_n`: the buffer, and what was written to `p`. -/
def popLoop (buf : LoopBuf) : Nat → LoopBuf × List Byte
  | 0 => (buf, [])
  | count + 1 =>
      if nextByte buf = carriageReturn then (dropByte buf, [nextByte buf])
      else
        let (rest, p) := popLoop (dropByte buf) count
        (rest, nextByte buf :: p)

/-- `loop_buf_pop_n`: the buffer, and the bytes, whose number is returned. -/
def loopBufPopN (len : BitVec 32) : LoopBuf × List Byte :=
  if len = 0 then (buf, []) else popLoop buf (min len.toNat (loopBufSz buf).toNat)

end Functions

/-- A call with what it returned. -/
inductive LoopCall where
  | push (p : List Byte) (ret : Nat)
  | pop (len : BitVec 32) (p : List Byte)
  | reset

/-- The calls on a buffer. -/
inductive LoopStep : LoopBuf → LoopCall → LoopBuf → Prop
  | push (buf : LoopBuf) (p : List Byte) :
      LoopStep buf (.push p (loopBufPushN buf p).2) (loopBufPushN buf p).1
  | pop (buf : LoopBuf) (len : BitVec 32) :
      LoopStep buf (.pop len (loopBufPopN buf len).2) (loopBufPopN buf len).1
  | reset (buf : LoopBuf) : LoopStep buf .reset (loopBufReset buf)

/-- The buffer as an action system. -/
def loopSystem : ActionSystem LoopCall where
  State := LoopBuf
  Initial buf := buf = initLoopBuf
  Step := LoopStep

/-- Bytes that one call may take from the front of a queue. -/
structure Takes (queue : List Byte) (len : Nat) (batch : List Byte) : Prop where
  front : batch <+: queue
  short : batch.length ≤ len
  line : carriageReturn ∉ batch.dropLast

/-- The longest such bytes. -/
structure Batch (queue : List Byte) (len : Nat) (batch : List Byte) : Prop extends
    Takes queue len batch where
  longest : ∀ other, Takes queue len other → other.length ≤ batch.length

/-- A queue of bytes with a capacity of one less than the buffer. -/
inductive QueueStep : List Byte → LoopCall → List Byte → Prop
  | pushed {queue p : List Byte} (fits : queue.length + p.length ≤ loopBufLen - 1) :
      QueueStep queue (.push p p.length) (queue ++ p)
  | refused {queue p : List Byte} (full : loopBufLen - 1 < queue.length + p.length) :
      QueueStep queue (.push p 0) queue
  | popped {batch rest : List Byte} {len : BitVec 32}
      (taken : Batch (batch ++ rest) len.toNat batch) :
      QueueStep (batch ++ rest) (.pop len batch) rest
  | reset {queue : List Byte} : QueueStep queue .reset []

/-- The queue as an action system. -/
def byteQueue : ActionSystem LoopCall where
  State := List Byte
  Initial queue := queue = []
  Step := QueueStep

section Batch

variable {queue batch : List Byte} {byte : Byte} {count : Nat}

/-- No more than the bytes of one line are taken. -/
theorem Takes.cons (takes : Takes queue count batch)
    (other : byte ≠ carriageReturn) : Takes (byte :: queue) (count + 1) (byte :: batch) where
  front := List.cons_prefix_cons.2 ⟨rfl, takes.front⟩
  short := Nat.succ_le_succ takes.short
  line := by
    cases batch with
    | nil => exact List.not_mem_nil
    | cons first more =>
        rw [List.dropLast_cons_of_ne_nil (List.cons_ne_nil _ _), List.mem_cons, not_or]
        exact ⟨Ne.symm other, takes.line⟩

/-- What can be taken behind a byte. -/
theorem Takes.tail
    (takes : Takes (byte :: queue) (count + 1) (byte :: batch)) : Takes queue count batch where
  front := (List.cons_prefix_cons.1 takes.front).2
  short := Nat.le_of_succ_le_succ takes.short
  line := by
    cases batch with
    | nil => exact List.not_mem_nil
    | cons first more =>
        have line := takes.line
        rw [List.dropLast_cons_of_ne_nil (List.cons_ne_nil _ _)] at line
        exact fun member => line (List.mem_cons_of_mem _ member)

/-- Nothing is taken of nothing. -/
theorem batch_zero (queue : List Byte) : Batch queue 0 [] where
  front := List.nil_prefix
  short := Nat.le_refl _
  line := List.not_mem_nil
  longest := fun _ takes => takes.short

/-- A carriage return ends what is taken. -/
theorem batch_carriageReturn (queue : List Byte) (count : Nat) :
    Batch (carriageReturn :: queue) (count + 1) [carriageReturn] where
  front := List.cons_prefix_cons.2 ⟨rfl, List.nil_prefix⟩
  short := Nat.succ_le_succ (Nat.zero_le _)
  line := List.not_mem_nil
  longest := by
    rintro (- | ⟨first, - | ⟨second, more⟩⟩) takes
    · exact Nat.zero_le _
    · exact Nat.le_refl _
    · obtain ⟨rfl, -⟩ := List.cons_prefix_cons.1 takes.front
      exact absurd (List.mem_cons_self ..) takes.line

/-- Any other byte is taken before the rest. -/
theorem Batch.cons (taken : Batch queue count batch)
    (other : byte ≠ carriageReturn) : Batch (byte :: queue) (count + 1) (byte :: batch) where
  toTakes := taken.toTakes.cons other
  longest := by
    rintro (- | ⟨first, more⟩) takes
    · exact Nat.zero_le _
    · obtain ⟨rfl, -⟩ := List.cons_prefix_cons.1 takes.front
      exact Nat.succ_le_succ (taken.longest more takes.tail)

/-- A longer limit than the queue takes what the queue takes. -/
theorem Batch.of_length (taken : Batch queue queue.length batch)
    (long : queue.length ≤ count) : Batch queue count batch where
  front := taken.front
  short := Nat.le_trans taken.short long
  line := taken.line
  longest := fun other takes => taken.longest other
    { front := takes.front
      short := takes.front.length_le
      line := takes.line }

/-- A pop from a queue that is split in front. -/
theorem QueueStep.popped_of_eq {queue batch rest : List Byte} {len : BitVec 32}
    (split : queue = batch ++ rest) (taken : Batch queue len.toNat batch) :
    QueueStep queue (.pop len batch) rest := by
  subst split
  exact .popped taken

end Batch

namespace LoopBuf

/-- The indexes stay inside the buffer, and the two counts agree. -/
structure Sane (buf : LoopBuf) : Prop where
  inAt : buf.inAt.toNat < loopBufLen
  outAt : buf.outAt.toNat < loopBufLen
  counts : (loopBufSz buf).toNat + (loopBufRemain buf).toNat = loopBufLen - 1

/-- The bytes in the buffer, oldest first. -/
def queue (buf : LoopBuf) : List Byte :=
  window (byteAt buf.buffer.toList) loopBufLen buf.outAt.toNat (loopBufSz buf).toNat

/-- The indexes are inside the buffer. -/
structure InBounds (buf : LoopBuf) : Prop where
  inAt : buf.inAt.toNat < loopBufLen
  outAt : buf.outAt.toNat < loopBufLen

variable {buf : LoopBuf} {byte : Byte} {p : List Byte} {count : Nat} {len : BitVec 32}

/-- A new ring is in its bounds. -/
theorem initLoopBuf_inBounds : initLoopBuf.InBounds := ⟨by decide, by decide⟩

/-- The size does not wrap. -/
theorem InBounds.toNat_loopBufSz (inBounds : buf.InBounds) :
    (loopBufSz buf).toNat = (buf.inAt.toNat + 4096 - buf.outAt.toNat) % 4096 := by
  have inAt := inBounds.inAt
  have outAt := inBounds.outAt
  simp only [loopBufLen] at inAt outAt
  have size : (4096 : BitVec 32).toNat = 4096 := rfl
  simp only [loopBufSz, BitVec.toNat_umod, BitVec.toNat_add, BitVec.toNat_sub, size]
  omega

theorem InBounds.toNat_loopBufRemain (inBounds : buf.InBounds) :
    (loopBufRemain buf).toNat = (buf.outAt.toNat + 4095 - buf.inAt.toNat) % 4096 := by
  have inAt := inBounds.inAt
  have outAt := inBounds.outAt
  simp only [loopBufLen] at inAt outAt
  have size : (4096 : BitVec 32).toNat = 4096 := rfl
  have one : (1 : BitVec 32).toNat = 1 := rfl
  simp only [loopBufRemain, BitVec.toNat_umod, BitVec.toNat_add, BitVec.toNat_sub, size, one]
  omega

/-- An index that goes on by one. -/
theorem toNat_next (index : BitVec 32) :
    ((index + 1) % 4096).toNat = (index.toNat + 1) % loopBufLen := by
  have size : (4096 : BitVec 32).toNat = 4096 := rfl
  have one : (1 : BitVec 32).toNat = 1 := rfl
  simp only [loopBufLen, BitVec.toNat_umod, BitVec.toNat_add, size, one]
  omega

/-- Whatever the fill level, one cell is free. -/
theorem InBounds.counts (inBounds : buf.InBounds) :
    (loopBufSz buf).toNat + (loopBufRemain buf).toNat = loopBufLen - 1 := by
  have inAt := inBounds.inAt
  have outAt := inBounds.outAt
  rw [inBounds.toNat_loopBufSz, inBounds.toNat_loopBufRemain]
  simp only [loopBufLen] at inAt outAt ⊢
  omega

/-! ### Pushing -/

/-- The cells after a byte was pushed. -/
theorem byteAt_pushByte (inBounds : buf.InBounds) (byte : Byte) :
    byteAt (pushByte buf byte).buffer.toList =
      Function.update (byteAt buf.buffer.toList) buf.inAt.toNat byte := by
  funext place
  have inside : buf.inAt.toNat < buf.buffer.toList.length := by
    rw [Vector.length_toList]
    exact inBounds.inAt
  simp only [pushByte, byteAt, Vector.toList_setIfInBounds, List.getD_eq_getElem?_getD]
  by_cases here : place = buf.inAt.toNat
  · rw [here, Function.update_self, List.getElem?_set_self inside]
    rfl
  · rw [Function.update_of_ne here, List.getElem?_set_ne (Ne.symm here)]
    exact (List.getD_eq_getElem?_getD ..).symm

/-- Pushing a byte keeps the ring in its bounds. -/
theorem InBounds.pushByte (inBounds : buf.InBounds) (byte : Byte) :
    (pushByte buf byte).InBounds where
  inAt := by
    change ((buf.inAt + 1) % 4096).toNat < loopBufLen
    rw [toNat_next]
    exact Nat.mod_lt _ (by decide)
  outAt := inBounds.outAt

/-- Where there is room, a pushed byte makes the ring longer by one. -/
theorem InBounds.sz_pushByte (inBounds : buf.InBounds)
    (room : (loopBufSz buf).toNat < loopBufLen - 1) :
    (loopBufSz (Cli.pushByte buf byte)).toNat = (loopBufSz buf).toNat + 1 := by
  have inAt := inBounds.inAt
  have outAt := inBounds.outAt
  have moved : (Cli.pushByte buf byte).inAt.toNat = (buf.inAt.toNat + 1) % loopBufLen :=
    toNat_next _
  have kept : (Cli.pushByte buf byte).outAt = buf.outAt := rfl
  rw [(inBounds.pushByte byte).toNat_loopBufSz, moved, kept]
  rw [inBounds.toNat_loopBufSz] at room ⊢
  simp only [loopBufLen] at inAt outAt room ⊢
  omega

/-- A byte is pushed behind the bytes of the buffer. -/
theorem InBounds.queue_pushByte (inBounds : buf.InBounds)
    (room : (loopBufSz buf).toNat < loopBufLen - 1) :
    (Cli.pushByte buf byte).queue = buf.queue ++ [byte] := by
  have place : (buf.outAt.toNat + (loopBufSz buf).toNat) % loopBufLen = buf.inAt.toNat := by
    have inAt := inBounds.inAt
    have outAt := inBounds.outAt
    rw [inBounds.toNat_loopBufSz]
    simp only [loopBufLen] at inAt outAt ⊢
    omega
  have kept : (Cli.pushByte buf byte).outAt = buf.outAt := rfl
  rw [queue, inBounds.sz_pushByte room, window_concat, byteAt_pushByte inBounds, kept, ← place,
    window_update byte (Nat.lt_of_lt_of_le room (by decide)), Function.update_self]
  rfl

/-- The queue is as long as the ring says. -/
theorem length_queue (buf : LoopBuf) : buf.queue.length = (loopBufSz buf).toNat := length_window

/-- Equal indexes mean an empty buffer. -/
theorem queue_eq_nil (same : buf.inAt = buf.outAt) : buf.queue = [] := by
  have empty : loopBufSz buf = 0 := by
    rw [loopBufSz, same, BitVec.sub_self]
    rfl
  rw [queue, empty]
  rfl

/-- Bytes that fit are pushed behind the bytes of the buffer. -/
theorem InBounds.foldl_pushByte (inBounds : buf.InBounds)
    (fits : buf.queue.length + p.length ≤ loopBufLen - 1) :
    (p.foldl Cli.pushByte buf).InBounds ∧ (p.foldl Cli.pushByte buf).queue = buf.queue ++ p := by
  induction p generalizing buf with
  | nil => exact ⟨inBounds, (List.append_nil _).symm⟩
  | cons byte rest inductionHypothesis =>
      rw [List.length_cons] at fits
      have room : (loopBufSz buf).toNat < loopBufLen - 1 := by
        rw [length_queue] at fits
        omega
      have pushed : (Cli.pushByte buf byte).queue = _ := inBounds.queue_pushByte room
      have later : (Cli.pushByte buf byte).queue.length + rest.length ≤ loopBufLen - 1 := by
        rw [pushed, List.length_append, List.length_singleton]
        omega
      obtain ⟨still, queue⟩ := inductionHypothesis (inBounds.pushByte byte) later
      refine ⟨still, ?_⟩
      rw [List.foldl_cons, queue, pushed, List.append_assoc]
      rfl

/-- A push takes all bytes or none. -/
theorem InBounds.loopBufPushN (inBounds : buf.InBounds) (p : List Byte) :
    (loopBufPushN buf p).1.InBounds ∧
      QueueStep buf.queue (.push p (loopBufPushN buf p).2) (loopBufPushN buf p).1.queue := by
  have counts := inBounds.counts
  rw [← length_queue] at counts
  unfold Cli.loopBufPushN
  by_cases full : (loopBufRemain buf).toNat < p.length
  · rw [if_pos full]
    exact ⟨inBounds, .refused (by omega)⟩
  · rw [if_neg full]
    have fits : buf.queue.length + p.length ≤ loopBufLen - 1 := by omega
    obtain ⟨still, queue⟩ := inBounds.foldl_pushByte fits
    rw [queue]
    exact ⟨still, .pushed fits⟩

/-! ### Popping -/

/-- Dropping a byte keeps the ring in its bounds. -/
theorem InBounds.dropByte (inBounds : buf.InBounds) : (dropByte buf).InBounds where
  inAt := inBounds.inAt
  outAt := by
    change ((buf.outAt + 1) % 4096).toNat < loopBufLen
    rw [toNat_next]
    exact Nat.mod_lt _ (by decide)

/-- A dropped byte makes the ring shorter by one. -/
theorem InBounds.sz_dropByte (inBounds : buf.InBounds) (nonempty : 0 < (loopBufSz buf).toNat) :
    (loopBufSz (Cli.dropByte buf)).toNat + 1 = (loopBufSz buf).toNat := by
  have inAt := inBounds.inAt
  have outAt := inBounds.outAt
  have moved : (Cli.dropByte buf).outAt.toNat = (buf.outAt.toNat + 1) % loopBufLen := toNat_next _
  have kept : (Cli.dropByte buf).inAt = buf.inAt := rfl
  rw [inBounds.dropByte.toNat_loopBufSz, moved, kept]
  rw [inBounds.toNat_loopBufSz] at nonempty ⊢
  simp only [loopBufLen] at inAt outAt nonempty ⊢
  omega

/-- The byte that is popped next is the first of the buffer. -/
theorem InBounds.queue_eq_cons (inBounds : buf.InBounds) (nonempty : 0 < (loopBufSz buf).toNat) :
    buf.queue = nextByte buf :: (Cli.dropByte buf).queue := by
  have moved : (Cli.dropByte buf).outAt.toNat = (buf.outAt.toNat + 1) % loopBufLen := toNat_next _
  rw [queue, ← inBounds.sz_dropByte nonempty, window_cons, Nat.mod_eq_of_lt inBounds.outAt, ← moved]
  rfl

/-- The loop takes the longest batch. -/
theorem InBounds.popLoop (inBounds : buf.InBounds) (enough : count ≤ buf.queue.length) :
    (popLoop buf count).1.InBounds ∧
      buf.queue = (Cli.popLoop buf count).2 ++ (Cli.popLoop buf count).1.queue ∧
      Batch buf.queue count (Cli.popLoop buf count).2 := by
  induction count generalizing buf with
  | zero => exact ⟨inBounds, (List.nil_append _).symm, batch_zero _⟩
  | succ count inductionHypothesis =>
      have nonempty : 0 < (loopBufSz buf).toNat := by
        rw [length_queue] at enough
        omega
      have split := inBounds.queue_eq_cons nonempty
      rw [split] at enough ⊢
      by_cases ends : nextByte buf = carriageReturn
      · rw [Cli.popLoop, if_pos ends, ends]
        exact ⟨inBounds.dropByte, List.singleton_append.symm, batch_carriageReturn _ count⟩
      · obtain ⟨still, queue, taken⟩ := inductionHypothesis inBounds.dropByte
          (Nat.le_of_succ_le_succ enough)
        rw [Cli.popLoop, if_neg ends]
        exact ⟨still, congrArg (nextByte buf :: ·) queue, taken.cons ends⟩

/-- A pop takes the longest batch. -/
theorem InBounds.loopBufPopN (inBounds : buf.InBounds) (len : BitVec 32) :
    (loopBufPopN buf len).1.InBounds ∧
      QueueStep buf.queue (.pop len (loopBufPopN buf len).2) (loopBufPopN buf len).1.queue := by
  unfold Cli.loopBufPopN
  by_cases zero : len = 0
  · subst zero
    rw [if_pos rfl]
    exact ⟨inBounds, .popped_of_eq (List.nil_append _).symm (batch_zero _)⟩
  · rw [if_neg zero, ← length_queue]
    obtain ⟨still, queue, taken⟩ := inBounds.popLoop (Nat.min_le_right len.toNat buf.queue.length)
    refine ⟨still, ?_⟩
    have whole : Batch buf.queue len.toNat
        (Cli.popLoop buf (min len.toNat buf.queue.length)).2 := by
      rcases Nat.le_total len.toNat buf.queue.length with short | long
      · rw [Nat.min_eq_left short] at taken ⊢
        exact taken
      · rw [Nat.min_eq_right long] at taken ⊢
        exact taken.of_length long
    exact .popped_of_eq queue whole

/-- Only the last byte of a pop can be a carriage return. -/
theorem InBounds.line_loopBufPopN (inBounds : buf.InBounds) (len : BitVec 32) :
    carriageReturn ∉ (Cli.loopBufPopN buf len).2.dropLast := by
  obtain ⟨-, step⟩ := inBounds.loopBufPopN len
  generalize buf.queue = queue, (Cli.loopBufPopN buf len).1.queue = rest at step
  cases step with
  | popped taken => exact taken.line

/-- The buffer refines the queue. -/
def refinement : ActionSystem.Refinement loopSystem byteQueue where
  map := queue
  Inv := InBounds
  initial := by
    rintro buf rfl
    exact ⟨initLoopBuf_inBounds, queue_eq_nil rfl⟩
  step := by
    rintro buf call next inBounds step
    cases step with
    | push p => exact inBounds.loopBufPushN p
    | pop len => exact inBounds.loopBufPopN len
    | reset =>
        have empty : (loopBufReset buf).queue = [] := queue_eq_nil rfl
        rw [empty]
        exact ⟨⟨initLoopBuf_inBounds.inAt, initLoopBuf_inBounds.outAt⟩, .reset⟩

/-- The ring stands for its queue. -/
theorem refinement_map (buf : LoopBuf) : refinement.map buf = buf.queue := by
  unfold refinement
  with_reducible rfl

/-- Every sequence of calls on the buffer is one on a queue of bytes, with the same results. -/
theorem loop_buf_refines {finish : LoopBuf} (path : loopSystem.Path initLoopBuf finish) :
    path.Always Sane ∧
      ∃ image : byteQueue.Path [] finish.queue, image.actions = path.actions := by
  have start : loopSystem.Initial initLoopBuf := rfl
  have empty : refinement.map initLoopBuf = ([] : List Byte) :=
    (refinement_map initLoopBuf).trans (queue_eq_nil rfl)
  constructor
  · exact (refinement.always_inv start path).mono fun buf inBounds =>
      ⟨inBounds.inAt, inBounds.outAt, inBounds.counts⟩
  · rw [← refinement_map]
    exact refinement.exists_abstract_path start empty path

end LoopBuf

end Rsu.Cli
