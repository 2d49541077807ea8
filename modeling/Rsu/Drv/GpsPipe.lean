import Mathlib.Data.List.ReduceOption
import Rsu.Drv.Gps
import Rsu.Semantics.ActionSystem
import Rsu.Vam.Envar

/-!
# The buffers behind the positioning events

An event of the positioning receiver carries a pointer into a ring of five buffers, and its
queue has room for twenty messages. Nothing tells the receiver's thread that a buffer is free
again, so it comes back to the buffer of an event after four more lines.
-/

namespace Rsu.Drv

open Rsu.Rcp Rsu.Osal Rsu.Vam

/-- A `VAM_MSG_GPSDATA` that was posted. The code has the message only; `serial` is the number
of lines that were completed before, `stores` how often its buffer had been written to, and
`buf` what it held. -/
structure PostedMsg where
  msg : GpsMsg
  serial : Nat
  stores : Nat
  buf : Vector Byte gpsBuffSize

/-- The two threads. A message of another kind is `none`, and the last two fields count what
happened. -/
structure GpsState where
  gps : TGpsBuff
  queueVam : OsalQueue (Option PostedMsg)
  /-- The event that `nmea_parse` is at. -/
  parsing : Option PostedMsg
  lines : Nat
  stores : Fin gpsPipe → Nat

/-- A byte is stored in the buffer that is being filled. -/
def TGpsBuff.Stores (gps : TGpsBuff) (tmp : Byte) : Prop :=
  tmp = dollar ∨ tmp = newline ∨ gps.current.flag = true

instance (gps : TGpsBuff) (tmp : Byte) : Decidable (gps.Stores tmp) :=
  inferInstanceAs (Decidable (_ ∨ _ ∨ _))

/-- The steps of the threads. -/
inductive GpsAction where
  /-- `gps_read_data` takes a byte. -/
  | byte (tmp : Byte)
  /-- Another thread sends a message. -/
  | other
  /-- `osal_queue_recv` in `vam_thread_entry` -/
  | recv
  /-- `lip_gps_proc` returns. -/
  | parsed

namespace GpsState

variable {state next : GpsState} {action : GpsAction} {tmp : Byte} {event : PostedMsg}

/-- Nothing was read yet. -/
def initial : GpsState where
  gps := .initial
  queueVam := .create vamQueueSize
  parsing := none
  lines := 0
  stores := fun _ => 0

/-- The events that point to a buffer. -/
def outstanding (state : GpsState) : List PostedMsg :=
  state.parsing.toList ++ state.queueVam.msgs.reduceOption

/-- How often the buffers were written to, after a byte. -/
def storesAfter (state : GpsState) (tmp : Byte) : Fin gpsPipe → Nat :=
  if state.gps.Stores tmp then
    Function.update state.stores state.gps.pipe (state.stores state.gps.pipe + 1)
  else state.stores

/-- A byte is read, and perhaps a message sent, which fails if the queue is full. -/
def byte (state : GpsState) (tmp : Byte) : GpsState :=
  let (gps, msg) := gpsReadByte state.gps tmp
  let stores := state.storesAfter tmp
  match msg with
  | none => { state with gps := gps, stores := stores }
  | some msg =>
      { state with
        gps := gps
        queueVam := (state.queueVam.send
          (some ⟨msg, state.lines, stores msg.argv, (gps.ppBuf msg.argv).buf⟩)).2
        lines := state.lines + 1
        stores := stores }

/-- The vehicle module takes a message unless it is still parsing. -/
def recv (state : GpsState) : GpsState :=
  match state.parsing, state.queueVam.recv with
  | none, some (msg, queueVam) => { state with queueVam := queueVam, parsing := msg }
  | _, _ => state

/-- One step of the threads. -/
def step (state : GpsState) : GpsAction → GpsState
  | .byte tmp => state.byte tmp
  | .other => { state with queueVam := (state.queueVam.send none).2 }
  | .recv => state.recv
  | .parsed => { state with parsing := none }

/-- No buffer was written to since the event that points to it, and it holds what it did. -/
def Stable (state : GpsState) : Prop :=
  ∀ event ∈ state.outstanding, state.stores event.msg.argv = event.stores ∧
    (state.gps.ppBuf event.msg.argv).buf = event.buf

/-- A byte is stored only while every event that is queued or parsed is one of the last four
lines. -/
def Paced (state : GpsState) : GpsAction → Prop
  | .byte tmp => state.gps.Stores tmp → ∀ event ∈ state.outstanding, state.lines < event.serial + 5
  | _ => True

/-- The lines use the buffers in turn, and no event is older than the buffers. -/
structure Turns (state : GpsState) : Prop where
  pipe : state.gps.pipe.val = state.lines % gpsPipe
  argv : ∀ event ∈ state.outstanding, event.msg.argv.val = event.serial % gpsPipe
  past : ∀ event ∈ state.outstanding, event.serial < state.lines
  recent : ∀ event ∈ state.outstanding, state.lines ≤ event.serial + gpsPipe

end GpsState

/-- The two threads as an action system. -/
def gpsSystem : ActionSystem GpsAction := .ofFunction (· = GpsState.initial) GpsState.step

/-- A byte touches the buffer that is being filled only. -/
theorem gpsReadByte_ppBuf_of_ne {gps : TGpsBuff} {other : Fin gpsPipe} (tmp : Byte)
    (different : other ≠ gps.pipe) : (gpsReadByte gps tmp).1.ppBuf other = gps.ppBuf other := by
  have stored : ∀ buffer, (gps.store buffer).ppBuf other = gps.ppBuf other :=
    fun _ => TGpsBuff.store_of_ne different
  unfold gpsReadByte
  split
  · exact stored _
  · split
    · exact stored _
    · split
      · exact stored _
      · rfl

/-- The buffer changes at a newline only. -/
theorem gpsReadByte_pipe_of_ne {gps : TGpsBuff} {tmp : Byte} (other : tmp ≠ newline) :
    (gpsReadByte gps tmp).1.pipe = gps.pipe := by
  unfold gpsReadByte
  rw [if_neg other]
  split
  · rfl
  · split <;> rfl

/-- A byte that is not stored changes nothing. -/
theorem gpsReadByte_of_not_stores {gps : TGpsBuff} {tmp : Byte} (dropped : ¬ gps.Stores tmp) :
    gpsReadByte gps tmp = (gps, none) := by
  simp only [TGpsBuff.Stores, not_or] at dropped
  rw [gpsReadByte, if_neg dropped.1, if_neg dropped.2.1, if_neg dropped.2.2]

namespace GpsState

variable {state next : GpsState} {action : GpsAction} {tmp : Byte} {event : PostedMsg}

/-- The event of the line that is completed next. -/
def nextPost (state : GpsState) : PostedMsg where
  msg := ⟨state.gps.pipe, state.gps.current.finished.len⟩
  serial := state.lines
  stores := state.stores state.gps.pipe + 1
  buf := state.gps.current.finished.buf

/-- A stored byte is counted at its buffer. -/
theorem storesAfter_self (stored : state.gps.Stores tmp) :
    state.storesAfter tmp state.gps.pipe = state.stores state.gps.pipe + 1 := by
  rw [storesAfter, if_pos stored, Function.update_self]

theorem storesAfter_of_ne {other : Fin gpsPipe} (different : other ≠ state.gps.pipe) :
    state.storesAfter tmp other = state.stores other := by
  rw [storesAfter]
  split
  · rw [Function.update_of_ne different]
  · rfl

/-- What a byte does to the buffers. -/
theorem byte_gps (state : GpsState) (tmp : Byte) :
    (state.byte tmp).gps = (gpsReadByte state.gps tmp).1 := by
  unfold byte
  rcases gpsReadByte state.gps tmp with ⟨gps, _ | msg⟩ <;> rfl

/-- What a byte does to the counts. -/
theorem byte_stores (state : GpsState) (tmp : Byte) :
    (state.byte tmp).stores = state.storesAfter tmp := by
  unfold byte
  rcases gpsReadByte state.gps tmp with ⟨gps, _ | msg⟩ <;> rfl

theorem byte_of_ne (other : tmp ≠ newline) :
    state.byte tmp =
      { state with gps := (gpsReadByte state.gps tmp).1, stores := state.storesAfter tmp } := by
  have quiet : gpsReadByte state.gps tmp = ((gpsReadByte state.gps tmp).1, none) :=
    Prod.ext rfl (gpsReadByte_msg_of_ne other)
  rw [byte, quiet]

/-- A newline finishes the line and goes on to the next buffer. -/
theorem byte_newline :
    state.byte newline =
      { state with
        gps := (state.gps.store state.gps.current.finished).advance
        queueVam := (state.queueVam.send (some state.nextPost)).2
        lines := state.lines + 1
        stores := state.storesAfter newline } := by
  have stored : (state.gps.store state.gps.current.finished).ppBuf state.gps.pipe =
      state.gps.current.finished := state.gps.store_current _
  have line : gpsReadByte state.gps newline =
      ((state.gps.store state.gps.current.finished).advance,
        some ⟨state.gps.pipe, state.gps.current.finished.len⟩) := by
    rw [gpsReadByte, if_neg newline_ne_dollar, if_pos rfl]
  have stores : state.gps.Stores newline := .inr (.inl rfl)
  have count : state.storesAfter newline state.gps.pipe = _ := storesAfter_self stores
  have buf : ((state.gps.store state.gps.current.finished).advance.ppBuf state.gps.pipe).buf =
      state.gps.current.finished.buf := congrArg TBuff.buf stored
  simp only [byte, line, nextPost, count, buf]

/-- The events that point to a buffer after a line. -/
theorem mem_outstanding_send {msg : Option PostedMsg}
    (member : event ∈ { state with queueVam := (state.queueVam.send msg).2 }.outstanding) :
    event ∈ state.outstanding ∨ some event = msg := by
  rcases List.mem_append.1 member with parsing | queued
  · exact .inl (List.mem_append_left _ parsing)
  · rw [List.reduceOption_mem_iff, OsalQueue.send_msgs] at queued
    split at queued
    · rcases List.mem_append.1 queued with before | new
      · exact .inl (List.mem_append_right _ (List.reduceOption_mem_iff.2 before))
      · exact .inr (List.mem_singleton.1 new)
    · exact .inl (List.mem_append_right _ (List.reduceOption_mem_iff.2 queued))

/-- Sending takes no event away. -/
theorem outstanding_send_of_mem (msg : Option PostedMsg) (member : event ∈ state.outstanding) :
    event ∈ { state with queueVam := (state.queueVam.send msg).2 }.outstanding := by
  rcases List.mem_append.1 member with parsing | queued
  · exact List.mem_append_left _ parsing
  · apply List.mem_append_right
    rw [List.reduceOption_mem_iff] at queued ⊢
    rw [OsalQueue.send_msgs]
    split
    · exact List.mem_append_left _ queued
    · exact queued

/-- The event that is taken is parsed. -/
theorem outstanding_recv (state : GpsState) : state.recv.outstanding = state.outstanding := by
  unfold recv
  split
  · next msg rest idle received =>
      have split := OsalQueue.recv_eq_some received
      rw [outstanding, outstanding, idle, split]
      cases msg <;> rfl
  · rfl

theorem initial_stable : initial.Stable := by rintro event ⟨⟩

/-- At the start it is the turn of the first buffer. -/
theorem initial_turns : initial.Turns where
  pipe := rfl
  argv := by rintro event ⟨⟩
  past := by rintro event ⟨⟩
  recent := by rintro event ⟨⟩

/-- What holds of all events holds of fewer. -/
theorem Turns.mono (turns : state.Turns) (gps : next.gps = state.gps) (lines : next.lines = state.lines)
    (fewer : ∀ event ∈ next.outstanding, event ∈ state.outstanding) : next.Turns where
  pipe := by
    rw [gps, lines]
    exact turns.pipe
  argv := fun event member => turns.argv event (fewer event member)
  past := by
    rw [lines]
    exact fun event member => turns.past event (fewer event member)
  recent := by
    rw [lines]
    exact fun event member => turns.recent event (fewer event member)

/-- Fewer outstanding lines are stable too. -/
theorem Stable.mono (stable : state.Stable) (gps : next.gps = state.gps)
    (stores : next.stores = state.stores)
    (fewer : ∀ event ∈ next.outstanding, event ∈ state.outstanding) : next.Stable := by
  intro event member
  rw [gps, stores]
  exact stable event (fewer event member)

/-- The fifth line after an event comes back to its buffer, and no other line does. -/
theorem Turns.argv_ne_pipe_iff (turns : state.Turns) (member : event ∈ state.outstanding) :
    event.msg.argv ≠ state.gps.pipe ↔ state.lines < event.serial + 5 := by
  have argv := turns.argv event member
  have pipe := turns.pipe
  have past := turns.past event member
  have recent := turns.recent event member
  rw [ne_eq, Fin.ext_iff, argv, pipe]
  simp only [gpsPipe] at recent ⊢
  omega

theorem Turns.byte_of_ne (turns : state.Turns) (other : tmp ≠ newline) :
    (state.byte tmp).Turns := by
  rw [GpsState.byte_of_ne other]
  exact
    { pipe := (congrArg Fin.val (gpsReadByte_pipe_of_ne other)).trans turns.pipe
      argv := turns.argv
      past := turns.past
      recent := turns.recent }

/-- Behind a line the next buffer has its turn, if its last line was handled. -/
theorem Turns.byte_newline (turns : state.Turns)
    (paced : ∀ event ∈ state.outstanding, state.lines < event.serial + 5) :
    (state.byte newline).Turns := by
  rw [GpsState.byte_newline]
  have pipe := turns.pipe
  refine ⟨?_, fun event member => ?_, fun event member => ?_, fun event member => ?_⟩
  · change (state.gps.pipe.val + 1) % gpsPipe = (state.lines + 1) % gpsPipe
    rw [pipe, Nat.mod_add_mod]
  · rcases mem_outstanding_send member with old | new
    · exact turns.argv event old
    · cases new
      exact pipe
  · rcases mem_outstanding_send member with old | new
    · exact Nat.lt_succ_of_lt (turns.past event old)
    · cases new
      exact Nat.lt_succ_self _
  · rcases mem_outstanding_send member with old | new
    · exact paced event old
    · cases new
      exact Nat.add_le_add_left (by decide) _

/-- Every step that keeps the pace keeps the order of the buffers. -/
theorem Turns.step (turns : state.Turns) (paced : state.Paced action) :
    (state.step action).Turns := by
  cases action with
  | byte tmp =>
      by_cases same : tmp = newline
      · subst same
        exact turns.byte_newline (paced (.inr (.inl rfl)))
      · exact turns.byte_of_ne same
  | other =>
      refine turns.mono rfl rfl fun event member => ?_
      exact (mem_outstanding_send member).resolve_right nofun
  | recv =>
      have gps : state.recv.gps = state.gps := by
        unfold recv
        split <;> rfl
      have lines : state.recv.lines = state.lines := by
        unfold recv
        split <;> rfl
      exact turns.mono gps lines fun event member => outstanding_recv state ▸ member
  | parsed => exact turns.mono rfl rfl fun event member => List.mem_append_right _ member

/-- A stored byte leaves exactly the other buffers alone. -/
theorem stable_byte_iff_of_mem (stable : state.Stable) (stored : state.gps.Stores tmp)
    (member : event ∈ state.outstanding) :
    ((state.byte tmp).stores event.msg.argv = event.stores ∧
        ((state.byte tmp).gps.ppBuf event.msg.argv).buf = event.buf) ↔
      event.msg.argv ≠ state.gps.pipe := by
  obtain ⟨stores, buf⟩ := stable event member
  rw [byte_gps, byte_stores]
  constructor
  · rintro ⟨count, -⟩ same
    rw [same, storesAfter_self stored, ← stores, same] at count
    omega
  · intro different
    rw [storesAfter_of_ne different, gpsReadByte_ppBuf_of_ne tmp different]
    exact ⟨stores, buf⟩

/-- The event of a line is stable when it is posted. -/
theorem stable_nextPost (state : GpsState) :
    (state.byte newline).stores state.nextPost.msg.argv = state.nextPost.stores ∧
      ((state.byte newline).gps.ppBuf state.nextPost.msg.argv).buf = state.nextPost.buf := by
  have stored : (state.gps.store state.gps.current.finished).ppBuf state.gps.pipe =
      state.gps.current.finished := state.gps.store_current _
  rw [byte_newline]
  exact ⟨storesAfter_self (.inr (.inl rfl)), congrArg TBuff.buf stored⟩

/-- The events that point to a buffer after a byte. -/
theorem mem_outstanding_byte (member : event ∈ (state.byte tmp).outstanding) :
    event ∈ state.outstanding ∨ tmp = newline ∧ event = state.nextPost := by
  by_cases same : tmp = newline
  · subst same
    rw [byte_newline] at member
    exact (mem_outstanding_send member).imp_right fun new => ⟨rfl, Option.some.inj new⟩
  · rw [byte_of_ne same] at member
    exact .inl member

/-- A byte handles no line. -/
theorem outstanding_byte_of_mem (tmp : Byte) (member : event ∈ state.outstanding) :
    event ∈ (state.byte tmp).outstanding := by
  by_cases same : tmp = newline
  · subst same
    rw [byte_newline]
    exact outstanding_send_of_mem _ member
  · rw [byte_of_ne same]
    exact member

/-- A byte keeps the buffers of the events exactly if it keeps the pace. -/
theorem stable_byte_iff (turns : state.Turns) (stable : state.Stable) (tmp : Byte) :
    (state.byte tmp).Stable ↔ state.Paced (.byte tmp) := by
  constructor
  · intro after stored event member
    rw [← turns.argv_ne_pipe_iff member, ← stable_byte_iff_of_mem stable stored member]
    exact after event (outstanding_byte_of_mem tmp member)
  · intro paced event member
    rcases mem_outstanding_byte member with old | ⟨rfl, rfl⟩
    · by_cases stored : state.gps.Stores tmp
      · rw [stable_byte_iff_of_mem stable stored old, turns.argv_ne_pipe_iff old]
        exact paced stored event old
      · rw [byte_gps, byte_stores, gpsReadByte_of_not_stores stored, storesAfter, if_neg stored]
        exact stable event old
    · exact stable_nextPost state

/-- A step keeps the buffers of the events exactly if it keeps the pace. -/
theorem stable_step_iff (turns : state.Turns) (stable : state.Stable) (action : GpsAction) :
    (state.step action).Stable ↔ state.Paced action := by
  cases action with
  | byte tmp => exact stable_byte_iff turns stable tmp
  | other =>
      refine iff_of_true (stable.mono rfl rfl fun event member => ?_) trivial
      exact (mem_outstanding_send member).resolve_right nofun
  | recv =>
      have gps : state.recv.gps = state.gps := by
        unfold recv
        split <;> rfl
      have stores : state.recv.stores = state.stores := by
        unfold recv
        split <;> rfl
      exact iff_of_true
        (stable.mono gps stores fun event member => outstanding_recv state ▸ member) trivial
  | parsed =>
      exact iff_of_true
        (stable.mono rfl rfl fun event member => List.mem_append_right _ member) trivial

/-- In a run the buffers of the events stay as they are exactly if the receiver stores a byte
only while every event that is not yet parsed is one of the last four lines. -/
theorem events_stable_iff {finish : GpsState} (path : gpsSystem.Path initial finish) :
    path.Always Stable ↔ path.StepsMeet Paced := by
  refine path.always_iff_stepsMeet initial_turns initial_stable ?_ ?_
  · rintro state action next turns stable rfl paced
    exact turns.step paced
  · rintro state action next turns stable rfl
    exact stable_step_iff turns stable action

/-- Five lines, and the beginning of a sixth, before the first is parsed. -/
def sixLines : List GpsAction :=
  [.byte dollar, .byte newline, .byte dollar, .byte newline, .byte dollar, .byte newline,
    .byte dollar, .byte newline, .byte dollar, .byte newline, .byte dollar]

/-- The sixth line is written over the first. -/
theorem sixth_line_refills :
    ∃ (finish : GpsState) (path : gpsSystem.Path initial finish), ¬ path.Always Stable := by
  obtain ⟨path⟩ : Nonempty (gpsSystem.Path initial (sixLines.foldl step initial)) :=
    ActionSystem.Path.exists_path sixLines rfl
  refine ⟨_, path, fun always => ?_⟩
  have refilled : ∃ event ∈ (sixLines.foldl step initial).outstanding,
      (sixLines.foldl step initial).stores event.msg.argv ≠ event.stores := by
    refine ⟨_, List.mem_cons_self .., ?_⟩
    decide
  obtain ⟨event, member, different⟩ := refilled
  exact different (always.last event member).1

end GpsState

end Rsu.Drv
