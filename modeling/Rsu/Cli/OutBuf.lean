import Mathlib.Algebra.GroupWithZero.Nat
import Mathlib.Data.List.ModifyLast
import Rsu.Cli.Wakeup

/-!
# The output buffer

`buffer.c` keeps what a session has to say in a list of chunks: bytes are put behind the last one
and flushed from the first one on, as many as the socket takes. Between two calls every chunk has
something to flush and only the last one has room, so a buffer without chunks is a buffer without
bytes, and the other way round.
-/

namespace Rsu.Cli

open Rsu.Rcp

/-- `struct buffer_data` of a buffer whose chunks have `size` bytes; `data` is what is in front of
`cp`. -/
structure BufferData (size : Nat) where
  data : List Byte
  sp : Nat
  sp_le_cp : sp ≤ data.length
  cp_le_size : data.length ≤ size
  deriving DecidableEq

variable {size : Nat}

namespace BufferData

/-- `cp` -/
def cp (chunk : BufferData size) : Nat := chunk.data.length

/-- The bytes that are not yet flushed. -/
def pending (chunk : BufferData size) : List Byte := chunk.data.drop chunk.sp

/-- The chunk that `buffer_add` makes. -/
def new : BufferData size := ⟨[], 0, le_rfl, Nat.zero_le _⟩

/-- Copy as much of `p` into the chunk as it has room for. -/
def fill (p : List Byte) (chunk : BufferData size) : BufferData size where
  data := chunk.data ++ p.take (size - chunk.cp)
  sp := chunk.sp
  sp_le_cp := by
    rw [List.length_append]
    exact chunk.sp_le_cp.trans (Nat.le_add_right _ _)
  cp_le_size := by
    have within := chunk.cp_le_size
    simp only [List.length_append, List.length_take, cp]
    omega

/-- Advance `sp` over bytes that are flushed. -/
def skip (chunk : BufferData size) (count : Nat) (flushed : count ≤ chunk.pending.length) :
    BufferData size where
  data := chunk.data
  sp := chunk.sp + count
  sp_le_cp := by
    have within := chunk.sp_le_cp
    rw [pending, List.length_drop] at flushed
    omega
  cp_le_size := chunk.cp_le_size

@[simp] theorem pending_new : (new : BufferData size).pending = [] := rfl

@[simp] theorem pending_fill (p : List Byte) (chunk : BufferData size) :
    (chunk.fill p).pending = chunk.pending ++ p.take (size - chunk.cp) :=
  List.drop_append_of_le_length chunk.sp_le_cp

@[simp] theorem pending_skip (chunk : BufferData size) (count : Nat)
    (flushed : count ≤ chunk.pending.length) :
    (chunk.skip count flushed).pending = chunk.pending.drop count := by
  rw [pending, pending, List.drop_drop]
  rfl

@[simp] theorem cp_skip (chunk : BufferData size) (count : Nat)
    (flushed : count ≤ chunk.pending.length) : (chunk.skip count flushed).cp = chunk.cp := rfl

end BufferData

/-- `struct buffer`, the chunks from `head` to `tail`. -/
abbrev Buffer (size : Nat) := List (BufferData size)

namespace Buffer

/-- What is to be flushed. -/
def content (b : Buffer size) : List Byte := b.flatMap BufferData.pending

/-- The room in the last chunk, none if there is no chunk. -/
def tailRoom (b : Buffer size) : Nat := b.getLast?.elim 0 fun chunk => size - chunk.cp

/-- `buffer_add` if there is no chunk or the last one is full. -/
def withRoom (b : Buffer size) : Buffer size := if tailRoom b = 0 then b ++ [.new] else b

/-- `buffer_reset` -/
def bufferReset (_b : Buffer size) : Buffer size := []

/-- `buffer_empty` -/
def bufferEmpty (b : Buffer size) : Bool := b.isEmpty

@[simp] theorem content_nil : content ([] : Buffer size) = [] := rfl

@[simp] theorem content_cons (chunk : BufferData size) (later : Buffer size) :
    content (chunk :: later) = chunk.pending ++ content later := List.flatMap_cons

/-- The text of two buffers one behind the other. -/
theorem content_append (first second : Buffer size) :
    content (first ++ second) = content first ++ content second := List.flatMap_append

theorem content_concat (front : Buffer size) (last : BufferData size) :
    content (front ++ [last]) = content front ++ last.pending := by
  rw [content_append, content_cons, content_nil, List.append_nil]

@[simp] theorem tailRoom_concat (front : Buffer size) (last : BufferData size) :
    tailRoom (front ++ [last]) = size - last.cp := by
  rw [tailRoom, List.getLast?_concat, Option.elim_some]

/-- There is a last chunk with room: the one that was there, or a new one. -/
theorem withRoom_cases [NeZero size] (b : Buffer size) :
    ∃ (front : Buffer size) (last : BufferData size), withRoom b = front ++ [last] ∧
      last.cp < size ∧
      (b = front ++ [last] ∨ b = front ∧ last = .new ∧ tailRoom b = 0) := by
  rw [withRoom]
  split
  · next full => exact ⟨b, .new, rfl, Nat.pos_of_neZero size, .inr ⟨rfl, rfl, full⟩⟩
  · next room =>
      obtain rfl | ⟨front, last, rfl⟩ := List.eq_nil_or_concat b
      · exact absurd rfl room
      · rw [List.concat_eq_append, tailRoom_concat] at room
        exact ⟨front, last, List.concat_eq_append .., by omega, .inl (List.concat_eq_append ..)⟩

/-- After `buffer_add` there is room. -/
theorem tailRoom_withRoom_pos [NeZero size] (b : Buffer size) : 0 < tailRoom (withRoom b) := by
  obtain ⟨front, last, same, room, -⟩ := withRoom_cases b
  rw [same, tailRoom_concat]
  omega

/-- `buffer_put` -/
def bufferPut [NeZero size] (b : Buffer size) (p : List Byte) : Buffer size :=
  if p = [] then b
  else
    bufferPut ((withRoom b).modifyLast (BufferData.fill p)) (p.drop (tailRoom (withRoom b)))
  termination_by p.length
  decreasing_by
    have room := tailRoom_withRoom_pos b
    have some := List.length_pos_iff.2 (by assumption)
    rw [List.length_drop]
    omega

/-- What holds between two calls: every chunk has something to flush, and only the last one has
room. -/
structure Packed (b : Buffer size) : Prop where
  pending : ∀ chunk ∈ b, chunk.pending ≠ []
  full : ∀ chunk ∈ b.dropLast, chunk.cp = size

theorem packed_nil : Packed ([] : Buffer size) :=
  ⟨fun _ member => absurd member List.not_mem_nil, fun _ member => absurd member List.not_mem_nil⟩

/-- Only the last chunk of a packed buffer need not be full. -/
theorem packed_concat {front : Buffer size} {last : BufferData size} :
    Packed (front ++ [last]) ↔
      (∀ chunk ∈ front, chunk.pending ≠ [] ∧ chunk.cp = size) ∧ last.pending ≠ [] := by
  constructor
  · rintro ⟨pending, full⟩
    rw [List.dropLast_concat] at full
    exact ⟨fun chunk member => ⟨pending chunk (List.mem_append_left _ member), full chunk member⟩,
      pending last List.mem_concat_self⟩
  · rintro ⟨front, last⟩
    refine ⟨fun chunk member => ?_, fun chunk member => ?_⟩
    · rcases List.mem_append.1 member with earlier | here
      · exact (front chunk earlier).1
      · rw [List.mem_singleton.1 here]
        exact last
    · rw [List.dropLast_concat] at member
      exact (front chunk member).2

/-- Behind the first chunk a packed buffer is packed, and if anything is there, the first one is
full. -/
theorem packed_cons {chunk : BufferData size} {later : Buffer size} :
    Packed (chunk :: later) ↔
      chunk.pending ≠ [] ∧ (later ≠ [] → chunk.cp = size) ∧ Packed later := by
  cases later with
  | nil =>
      refine ⟨fun packed => ⟨packed.pending _ List.mem_cons_self, fun some => absurd rfl some,
        packed_nil⟩, fun packed => ⟨fun other member => ?_, fun _ member => ?_⟩⟩
      · rw [List.mem_singleton.1 member]
        exact packed.1
      · exact absurd member List.not_mem_nil
  | cons second later =>
      constructor
      · rintro ⟨pending, full⟩
        rw [List.dropLast_cons_cons] at full
        exact ⟨pending _ List.mem_cons_self, fun _ => full _ List.mem_cons_self,
          fun other member => pending _ (List.mem_cons_of_mem _ member),
          fun other member => full _ (List.mem_cons_of_mem _ member)⟩
      · rintro ⟨here, filled, pending, full⟩
        refine ⟨fun other member => ?_, fun other member => ?_⟩
        · rcases List.mem_cons.1 member with rfl | later
          · exact here
          · exact pending _ later
        · rw [List.dropLast_cons_cons] at member
          rcases List.mem_cons.1 member with rfl | later
          · exact filled (List.cons_ne_nil _ _)
          · exact full _ later

/-- A buffer without bytes is one without chunks. -/
theorem Packed.content_eq_nil {b : Buffer size} (packed : Packed b) : content b = [] ↔ b = [] := by
  cases b with
  | nil => exact iff_of_true rfl rfl
  | cons chunk later =>
      refine iff_of_false (fun none => ?_) (List.cons_ne_nil _ _)
      rw [content_cons, List.append_eq_nil_iff] at none
      exact (packed_cons.1 packed).1 none.1

/-! ### Putting -/

section Put

variable [NeZero size] {b : Buffer size} {p : List Byte}

/-- One round of the loop puts what there is room for. -/
theorem content_round (b : Buffer size) (p : List Byte) :
    content ((withRoom b).modifyLast (BufferData.fill p)) =
      content b ++ p.take (tailRoom (withRoom b)) := by
  obtain ⟨front, last, same, -, kept | ⟨kept, new, -⟩⟩ := withRoom_cases b
  · rw [same, List.modifyLast_concat, tailRoom_concat, content_concat, BufferData.pending_fill,
      kept, content_concat, List.append_assoc]
  · rw [same, List.modifyLast_concat, tailRoom_concat, content_concat, BufferData.pending_fill,
      kept, new, BufferData.pending_new, List.nil_append]

/-- One round of `buffer_put` keeps the buffer packed. -/
theorem Packed.round (packed : Packed b) (some : p ≠ []) :
    Packed ((withRoom b).modifyLast (BufferData.fill p)) := by
  obtain ⟨front, last, same, room, cases⟩ := withRoom_cases b
  have filled : (last.fill p).pending ≠ [] := by
    rw [BufferData.pending_fill]
    refine fun none => ?_
    rcases List.take_eq_nil_iff.1 (List.append_eq_nil_iff.1 none).2 with full | nothing
    · omega
    · exact some nothing
  rw [same, List.modifyLast_concat, packed_concat]
  refine ⟨?_, filled⟩
  rcases cases with kept | ⟨rfl, -, full⟩
  · rw [kept, packed_concat] at packed
    exact packed.1
  · refine fun chunk member => ⟨packed.pending chunk member, ?_⟩
    obtain rfl | ⟨front, tail, rfl⟩ := List.eq_nil_or_concat b
    · exact absurd member List.not_mem_nil
    · rw [List.concat_eq_append] at *
      rw [tailRoom_concat] at full
      have within := tail.cp_le_size
      rcases List.mem_append.1 member with earlier | here
      · exact ((packed_concat.1 packed).1 chunk earlier).2
      · rw [List.mem_singleton.1 here]
        exact le_antisymm within (by rw [BufferData.cp] at full ⊢; omega)

/-- What is put stands behind what was there. -/
@[simp] theorem content_bufferPut (b : Buffer size) (p : List Byte) :
    content (bufferPut b p) = content b ++ p := by
  induction b, p using bufferPut.induct with
  | case1 b => rw [bufferPut, if_pos rfl, List.append_nil]
  | case2 b p some inductionHypothesis =>
      rw [bufferPut, if_neg some, inductionHypothesis, content_round, List.append_assoc,
        List.take_append_drop]

theorem Packed.bufferPut (packed : Packed b) (p : List Byte) : Packed (bufferPut b p) := by
  induction b, p using Buffer.bufferPut.induct with
  | case1 b =>
      rw [Buffer.bufferPut, if_pos rfl]
      exact packed
  | case2 b p some inductionHypothesis =>
      rw [Buffer.bufferPut, if_neg some]
      exact inductionHypothesis (packed.round some)

end Put

/-! ### Flushing what is available -/

/-- `MAX_CHUNKS` -/
def maxChunks : Nat := 16

/-- `MAX_FLUSH` -/
def maxFlush : Nat := 131072

/-- The vectors of `buffer_flush_available`, behind `nbyte` bytes and with so many vectors left. -/
def gather (iovs nbyte : Nat) : Buffer size → List (List Byte)
  | [] => []
  | chunk :: later =>
      if 0 < iovs ∧ nbyte < maxFlush then
        chunk.pending :: gather (iovs - 1) (nbyte + chunk.pending.length) later
      else []

/-- The loop that frees what was written. -/
def release (written : Nat) : Buffer size → Buffer size
  | [] => []
  | chunk :: later =>
      if written = 0 then chunk :: later
      else if inside : written < chunk.pending.length then
        chunk.skip written inside.le :: later
      else release (written - chunk.pending.length) later

/-- What `writev` answers. -/
inductive WriteAnswer where
  /-- It took so many bytes, or all if it was given fewer. -/
  | wrote (count : Nat)
  /-- An error after which one tries again, `EINTR` or not. -/
  | retry (interrupted : Bool)
  /-- Any other error. -/
  | failed

/-- What flushing came to, with the bytes the socket took. -/
structure Flushed (size : Nat) where
  status : BufferStatus
  buffer : Buffer size
  sent : List Byte

/-- `buffer_flush_available` -/
def bufferFlushAvailable (b : Buffer size) (answer : WriteAnswer) : Flushed size :=
  let offered := (gather maxChunks 0 b).flatten
  if offered = [] then ⟨.empty, b, []⟩
  else
    match answer with
    | .wrote count =>
        let left := release (min count offered.length) b
        ⟨if bufferEmpty left then .empty else .pending, left, offered.take count⟩
    | .retry _ => ⟨.pending, b, []⟩
    | .failed => ⟨.error, b, []⟩

/-- No byte is lost, repeated or moved, and the status is `BUFFER_EMPTY` exactly if none is
left. -/
structure Flushed.Sound (b : Buffer size) (result : Flushed size) : Prop where
  accounts : result.sent ++ result.buffer.content = b.content
  empty : result.status = .empty ↔ result.buffer.content = []
  packed : Packed result.buffer

/-- The vectors are a beginning of the text. -/
theorem gather_prefix (iovs nbyte : Nat) (b : Buffer size) :
    (gather iovs nbyte b).flatten <+: content b := by
  induction b generalizing iovs nbyte with
  | nil => exact List.prefix_rfl
  | cons chunk later inductionHypothesis =>
      rw [gather]
      split
      · rw [List.flatten_cons, content_cons]
        exact (List.prefix_append_right_inj _).2 (inductionHypothesis _ _)
      · exact List.nil_prefix

/-- The first chunk is offered, so there is something to flush. -/
theorem Packed.gather_eq_nil {b : Buffer size} (packed : Packed b) :
    (gather maxChunks 0 b).flatten = [] ↔ content b = [] := by
  cases b with
  | nil => exact iff_of_true rfl rfl
  | cons chunk later =>
      have some := (packed_cons.1 packed).1
      rw [gather, if_pos ⟨by decide, by decide⟩, List.flatten_cons, content_cons]
      refine iff_of_false (fun none => ?_) fun none => ?_
      · exact some (List.append_eq_nil_iff.1 none).1
      · exact some (List.append_eq_nil_iff.1 none).1

/-- What was written is gone, and nothing else. -/
theorem content_release (written : Nat) (b : Buffer size) :
    content (release written b) = (content b).drop written := by
  induction b generalizing written with
  | nil => rw [release, content_nil, List.drop_nil]
  | cons chunk later inductionHypothesis =>
      rw [release]
      split_ifs with none inside
      · rw [none, List.drop_zero]
      · rw [content_cons, content_cons, BufferData.pending_skip,
          List.drop_append_of_le_length inside.le]
      · rw [inductionHypothesis, content_cons, List.drop_append,
          List.drop_eq_nil_of_le (Nat.le_of_not_lt inside), List.nil_append]

/-- What is left of a packed buffer is packed. -/
theorem Packed.release {b : Buffer size} (packed : Packed b) (written : Nat) :
    Packed (release written b) := by
  induction b generalizing written with
  | nil => exact packed_nil
  | cons chunk later inductionHypothesis =>
      have ⟨filled, full, rest⟩ := packed_cons.1 packed
      rw [Buffer.release]
      split_ifs with none inside
      · exact packed
      · refine packed_cons.2 ⟨fun taken => ?_, full, rest⟩
        rw [BufferData.pending_skip, List.drop_eq_nil_iff] at taken
        omega
      · exact inductionHypothesis rest _

/-- Flushing what is available, however much the socket takes. -/
theorem Packed.sound_flushAvailable {b : Buffer size} (packed : Packed b) (answer : WriteAnswer) :
    (bufferFlushAvailable b answer).Sound b := by
  unfold bufferFlushAvailable
  dsimp only
  split_ifs with none
  · exact ⟨List.nil_append _, iff_of_true rfl (packed.gather_eq_nil.1 none), packed⟩
  · have some : content b ≠ [] := fun nothing => none (packed.gather_eq_nil.2 nothing)
    cases answer with
    | wrote count =>
        refine ⟨?_, ?_, packed.release _⟩
        · obtain ⟨rest, whole⟩ := gather_prefix maxChunks 0 b
          dsimp only
          rw [content_release, ← whole, List.drop_append_of_le_length (min_le_right _ _),
            ← List.append_assoc, List.take_eq_take_min, List.take_append_drop]
        · dsimp only
          rw [(packed.release _).content_eq_nil]
          split_ifs with nothing
          · exact iff_of_true rfl (List.isEmpty_iff.1 nothing)
          · exact iff_of_false (fun same => by cases same) fun same =>
              nothing (List.isEmpty_iff.2 same)
    | retry interrupted =>
        exact ⟨List.nil_append _, iff_of_false (fun same => by cases same) some, packed⟩
    | failed =>
        exact ⟨List.nil_append _, iff_of_false (fun same => by cases same) some, packed⟩

/-! ### Flushing everything -/

/-- `errno == EINTR` behind a call of `writev`, which leaves `errno` alone when it succeeds. -/
def WriteAnswer.interrupts (before : Bool) : WriteAnswer → Bool
  | .wrote _ => before
  | .retry interrupted => interrupted
  | .failed => false

/-- Nothing was flushed: the head is the same chunk, with the same `sp`. -/
def sameHead (b left : Buffer size) : Bool :=
  b.length = left.length && b.head?.map BufferData.sp = left.head?.map BufferData.sp

/-- The loop of `buffer_flush_all`, over the answers of `writev`. -/
def flushLoop (interrupted : Bool) (b : Buffer size) : List WriteAnswer → Option (Flushed size)
  | [] => none
  | answer :: answers =>
      let first := bufferFlushAvailable b answer
      if first.status = .pending then
        if sameHead b first.buffer ∧ answer.interrupts interrupted = false then some first
        else
          (flushLoop (answer.interrupts interrupted) first.buffer answers).map fun rest =>
            { rest with sent := first.sent ++ rest.sent }
      else some first

/-- `buffer_flush_all`, with what `errno` was before. -/
def bufferFlushAll (interrupted : Bool) (b : Buffer size) (answers : List WriteAnswer) :
    Option (Flushed size) :=
  if bufferEmpty b then some ⟨.empty, b, []⟩ else flushLoop interrupted b answers

/-- What `buffer_flush_all` returns accounts for every byte. -/
theorem Packed.sound_flushLoop {b : Buffer size} (packed : Packed b) {interrupted : Bool}
    {answers : List WriteAnswer} {result : Flushed size}
    (returns : flushLoop interrupted b answers = some result) : result.Sound b := by
  induction answers generalizing interrupted b result with
  | nil => cases returns
  | cons answer answers inductionHypothesis =>
      have first := packed.sound_flushAvailable answer
      rw [flushLoop] at returns
      split_ifs at returns with pending stuck
      · cases returns
        exact first
      · obtain ⟨rest, later, rfl⟩ := Option.map_eq_some_iff.1 returns
        have sound := inductionHypothesis first.packed later
        refine ⟨?_, sound.empty, sound.packed⟩
        rw [← first.accounts, ← sound.accounts, List.append_assoc]
      · cases returns
        exact first

/-- Flushing everything, however much the socket takes at a time. -/
theorem Packed.sound_flushAll {b : Buffer size} (packed : Packed b) {interrupted : Bool}
    {answers : List WriteAnswer} {result : Flushed size}
    (returns : bufferFlushAll interrupted b answers = some result) : result.Sound b := by
  rw [bufferFlushAll] at returns
  split_ifs at returns with nothing
  · cases returns
    exact ⟨List.nil_append _,
      iff_of_true rfl (packed.content_eq_nil.2 (List.isEmpty_iff.1 nothing)), packed⟩
  · exact packed.sound_flushLoop returns

/-- A buffer that was not flushed has the same head. -/
theorem sameHead_self (b : Buffer size) : sameHead b b = true := by
  rw [sameHead, decide_eq_true rfl, decide_eq_true rfl, Bool.and_self]

/-- A round after which the head is another one, or further on, has flushed something. -/
theorem Packed.shorter_of_moved {b : Buffer size} (packed : Packed b) (answer : WriteAnswer)
    (moved : sameHead b (bufferFlushAvailable b answer).buffer = false) :
    (bufferFlushAvailable b answer).buffer.content.length < b.content.length := by
  have sound := packed.sound_flushAvailable answer
  rw [← sound.accounts, List.length_append]
  suffices some : (bufferFlushAvailable b answer).sent ≠ [] by
    have := List.length_pos_iff.2 some
    omega
  intro none
  have stays : (bufferFlushAvailable b answer).buffer = b := by
    unfold bufferFlushAvailable at none ⊢
    dsimp only at none ⊢
    split_ifs at none ⊢ with nothing
    · rfl
    · cases answer with
      | wrote count =>
          obtain rfl := (List.take_eq_nil_iff.1 none).resolve_right nothing
          dsimp only
          rw [Nat.zero_min]
          cases b with
          | nil => rfl
          | cons chunk later => exact if_pos rfl
      | retry interrupted => rfl
      | failed => rfl
  rw [stays, sameHead_self] at moved
  cases moved

/-- `buffer_flush_all` returns if no call is interrupted and there are more answers than bytes. -/
theorem Packed.flushLoop_returns {b : Buffer size} (packed : Packed b) {answers : List WriteAnswer}
    (calm : ∀ answer ∈ answers, answer ≠ .retry true)
    (enough : b.content.length < answers.length) :
    ∃ result, flushLoop false b answers = some result := by
  induction answers generalizing b with
  | nil => exact absurd enough (Nat.not_lt_zero _)
  | cons answer answers inductionHypothesis =>
      have quiet : answer.interrupts false = false := by
        cases answer with
        | wrote count => rfl
        | retry interrupted =>
            cases interrupted with
            | false => rfl
            | true => exact absurd rfl (calm _ List.mem_cons_self)
        | failed => rfl
      rw [flushLoop, quiet]
      split_ifs with pending stuck
      · exact ⟨_, rfl⟩
      · have moved : sameHead b (bufferFlushAvailable b answer).buffer = false :=
          Bool.eq_false_iff.2 fun same => stuck ⟨same, rfl⟩
        have shorter := packed.shorter_of_moved answer moved
        rw [List.length_cons] at enough
        obtain ⟨rest, returned⟩ := inductionHypothesis (packed.sound_flushAvailable answer).packed
          (fun later member => calm later (List.mem_cons_of_mem _ member)) (by omega)
        exact ⟨_, by rw [returned]; rfl⟩
      · exact ⟨_, rfl⟩

/-- Unless it is interrupted, `buffer_flush_all` comes to an end: behind every call of `writev` but
the last one there is less to flush. -/
theorem Packed.flushAll_returns {b : Buffer size} (packed : Packed b) {answers : List WriteAnswer}
    (calm : ∀ answer ∈ answers, answer ≠ .retry true)
    (enough : b.content.length < answers.length) :
    ∃ result, bufferFlushAll false b answers = some result := by
  rw [bufferFlushAll]
  split_ifs with nothing
  · exact ⟨_, rfl⟩
  · exact packed.flushLoop_returns calm enough

end Buffer

end Rsu.Cli
