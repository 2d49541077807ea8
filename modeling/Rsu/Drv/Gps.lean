import Mathlib.Logic.Function.Basic
import Rsu.Rcp.Frame

/-!
# Lines of the positioning receiver

`gps_read_data` collects the bytes of a line in one of five buffers and posts the buffer at
the newline. Whether a line was begun is not looked at there, and the length is kept modulo
the size of a buffer. So the posted lines are those of the stream exactly if every newline
ends a line that was begun and that leaves a byte of the buffer free.
-/

namespace Rsu.Drv

open Rsu.Rcp

/-- `GPS_BUFF_SIZE` -/
def gpsBuffSize : Nat := 256

/-- `GPS_PIPE` -/
def gpsPipe : Nat := 5

/-- `'$'` -/
def dollar : Byte := 0x24

/-- `'\\n'` -/
def newline : Byte := 0x0A

/-- `t_buff`. The length is reduced whenever it grows. -/
structure TBuff where
  flag : Bool
  buf : Vector Byte gpsBuffSize
  len : Fin gpsBuffSize

namespace TBuff

/-- A buffer that was never used. -/
def zero : TBuff where
  flag := false
  buf := .replicate gpsBuffSize 0
  len := ⟨0, by decide⟩

/-- What `'$'` makes of any buffer. -/
def begun : TBuff where
  flag := true
  buf := (Vector.replicate gpsBuffSize 0).set 0 dollar
  len := ⟨1, by decide⟩

/-- Store a byte at the length, and count it. -/
def put (buffer : TBuff) (tmp : Byte) : TBuff :=
  { buffer with
    buf := buffer.buf.set buffer.len tmp
    len := ⟨(buffer.len + 1) % gpsBuffSize, Nat.mod_lt _ (by decide)⟩ }

/-- What `'\\n'` makes of a buffer. -/
def finished (buffer : TBuff) : TBuff := { buffer.put newline with flag := false }

end TBuff

/-- `t_gps_buff` -/
structure TGpsBuff where
  pipe : Fin gpsPipe
  ppBuf : Fin gpsPipe → TBuff

/-- `VAM_MSG_GPSDATA`: a pointer to a buffer, and a length. -/
structure GpsMsg where
  argv : Fin gpsPipe
  len : Nat

namespace TGpsBuff

/-- `__GPSBuff` at the start. -/
def initial : TGpsBuff := ⟨⟨0, by decide⟩, fun _ => .zero⟩

/-- The buffer that is being filled. -/
def current (gps : TGpsBuff) : TBuff := gps.ppBuf gps.pipe

/-- Replace the buffer that is being filled. -/
def store (gps : TGpsBuff) (buffer : TBuff) : TGpsBuff :=
  { gps with ppBuf := Function.update gps.ppBuf gps.pipe buffer }

/-- Go on to the next buffer. -/
def advance (gps : TGpsBuff) : TGpsBuff :=
  { gps with pipe := ⟨(gps.pipe + 1) % gpsPipe, Nat.mod_lt _ (by decide)⟩ }

end TGpsBuff

/-- The loop of `gps_read_data` for one byte: the buffers, and the message for the vehicle
module. -/
def gpsReadByte (gps : TGpsBuff) (tmp : Byte) : TGpsBuff × Option GpsMsg :=
  if tmp = dollar then (gps.store .begun, none)
  else if tmp = newline then
    let buffer := gps.current.finished
    ((gps.store buffer).advance, some ⟨gps.pipe, buffer.len⟩)
  else if gps.current.flag then (gps.store (gps.current.put tmp), none)
  else (gps, none)

/-- A posted event, with the buffer as it is when it is posted. -/
structure GpsEvent where
  buf : Vector Byte gpsBuffSize
  len : Nat

namespace GpsEvent

/-- The bytes an event stands for, and their number. -/
def line (event : GpsEvent) : List Byte × Nat := (event.buf.toList.take event.len, event.len)

/-- `memcmp` finds one of the sentences that `nmea_parse` knows: `$GPRMC`, `$GPGSA` or
`$GPGGA`. -/
def Known (event : GpsEvent) : Prop :=
  event.buf.toList.take 6 ∈ ([[0x24, 0x47, 0x50, 0x52, 0x4D, 0x43],
    [0x24, 0x47, 0x50, 0x47, 0x53, 0x41], [0x24, 0x47, 0x50, 0x47, 0x47, 0x41]] : List (List Byte))

/-- `nmea_parse` reads the check sum inside the buffer. The length is a `uint32_t`. -/
def ChecksumInside (event : GpsEvent) : Prop :=
  event.Known → ∀ back ∈ [3, 4, 5],
    (BitVec.ofNat 32 event.len - BitVec.ofNat 32 back).toNat < gpsBuffSize

/-- An event with a line. -/
structure Sound (event : GpsEvent) : Prop where
  starts : event.buf.toList[0]? = some dollar
  nonempty : 0 < event.len
  ends : event.buf.toList[event.len - 1]? = some newline
  checksum : event.ChecksumInside

end GpsEvent

/-- The event that is posted for a byte. -/
def gpsPost (gps : TGpsBuff) (tmp : Byte) : Option GpsEvent :=
  (gpsReadByte gps tmp).2.map fun msg => ⟨((gpsReadByte gps tmp).1.ppBuf msg.argv).buf, msg.len⟩

/-- The events of `gps_read_data` for the bytes of the device. -/
def gpsReadData : TGpsBuff → List Byte → List GpsEvent
  | _, [] => []
  | gps, tmp :: rest => (gpsPost gps tmp).toList ++ gpsReadData (gpsReadByte gps tmp).1 rest

/-- The bytes since the last `'$'` in the line that is open. -/
def lineAfter (line : Option (List Byte)) (byte : Byte) : Option (List Byte) :=
  if byte = dollar then some [dollar]
  else if byte = newline then none
  else line.map (· ++ [byte])

/-- The line that a byte completes. -/
def completed (line : Option (List Byte)) (byte : Byte) : Option (List Byte) :=
  if byte = newline then
    (line.map (· ++ [newline])).filter fun line => line.length ≤ gpsBuffSize
  else none

/-- The reference: the lines of a stream. -/
def referenceLines : Option (List Byte) → List Byte → List (List Byte)
  | _, [] => []
  | line, byte :: rest =>
      (completed line byte).toList ++ referenceLines (lineAfter line byte) rest

/-- The events are the lines of the stream, and each can be parsed. -/
structure FramesLines (stream : List Byte) : Prop where
  lines : (gpsReadData .initial stream).map GpsEvent.line =
    (referenceLines none stream).map fun line => (line, line.length)
  sound : ∀ event ∈ gpsReadData .initial stream, event.Sound

/-- Every newline ends a line that was begun and leaves a byte of the buffer free. -/
def LinesFit : Option (List Byte) → List Byte → Prop
  | _, [] => True
  | line, byte :: rest =>
      (byte = newline → ∃ bytes, line = some bytes ∧ bytes.length + 1 < gpsBuffSize) ∧
        LinesFit (lineAfter line byte) rest

/-- A buffer holds the bytes of a line, as far as its size goes. -/
structure TBuff.Holds (buffer : TBuff) (bytes : List Byte) : Prop where
  len : buffer.len.val = bytes.length % gpsBuffSize
  buf : bytes.length ≤ gpsBuffSize → buffer.buf.toList.take bytes.length = bytes

/-- The bytes up to one that was written. -/
theorem take_set {bytes : List Byte} {place : Nat} (value : Byte) (inside : place < bytes.length) :
    (bytes.set place value).take (place + 1) = bytes.take place ++ [value] := by
  rw [List.take_add_one, List.take_set_of_le (Nat.le_refl _), List.getElem?_set_self inside]
  rfl

theorem TBuff.holds_begun : TBuff.begun.Holds [dollar] where
  len := rfl
  buf := fun _ => rfl

/-- A byte that is put is held behind the others. -/
theorem TBuff.Holds.put {buffer : TBuff} {bytes : List Byte} (holds : buffer.Holds bytes)
    (tmp : Byte) : (buffer.put tmp).Holds (bytes ++ [tmp]) where
  len := by
    rw [List.length_append, List.length_singleton, ← Nat.mod_add_mod, ← holds.len]
    rfl
  buf := by
    intro fits
    rw [List.length_append, List.length_singleton] at fits ⊢
    have place : buffer.len.val = bytes.length := holds.len.trans (Nat.mod_eq_of_lt fits)
    have kept := holds.buf (Nat.le_of_succ_le fits)
    have inside : bytes.length < buffer.buf.toList.length := by
      rw [Vector.length_toList]
      exact fits
    have written : (buffer.put tmp).buf.toList = buffer.buf.toList.set bytes.length tmp := by
      rw [TBuff.put, Vector.toList_set, place]
    rw [written, take_set tmp inside, kept]

/-- The buffers follow the open line of the stream. -/
structure TGpsBuff.Tracks (gps : TGpsBuff) (line : Option (List Byte)) : Prop where
  idle : ∀ other, other ≠ gps.pipe → (gps.ppBuf other).flag = false
  flag : gps.current.flag = line.isSome
  holds : ∀ bytes, line = some bytes → gps.current.Holds bytes

namespace TGpsBuff

variable {gps : TGpsBuff} {line : Option (List Byte)} {buffer : TBuff}

@[simp] theorem store_pipe (gps : TGpsBuff) (buffer : TBuff) : (gps.store buffer).pipe = gps.pipe :=
  rfl

@[simp] theorem store_current (gps : TGpsBuff) (buffer : TBuff) :
    (gps.store buffer).current = buffer :=
  Function.update_self ..

theorem store_of_ne {other : Fin gpsPipe} (different : other ≠ gps.pipe) :
    (gps.store buffer).ppBuf other = gps.ppBuf other :=
  Function.update_of_ne different ..

/-- The next buffer is another one. -/
theorem advance_pipe_ne (gps : TGpsBuff) : gps.advance.pipe ≠ gps.pipe := by
  intro same
  have wrapped := congrArg Fin.val same
  have bound := gps.pipe.isLt
  simp only [advance, gpsPipe] at wrapped bound
  omega

/-- At the start there is no line. -/
theorem tracks_initial : initial.Tracks none where
  idle := fun _ _ => rfl
  flag := rfl
  holds := by rintro bytes ⟨⟩

/-- The line goes on in its buffer. -/
theorem Tracks.store (tracks : gps.Tracks line) {after : Option (List Byte)}
    (flag : buffer.flag = after.isSome) (holds : ∀ bytes, after = some bytes → buffer.Holds bytes) :
    (gps.store buffer).Tracks after where
  idle := by
    intro other different
    have kept : (gps.store buffer).ppBuf other = gps.ppBuf other := store_of_ne different
    rw [kept]
    exact tracks.idle other different
  flag := by
    rw [store_current]
    exact flag
  holds := by
    rw [store_current]
    exact holds

/-- Every buffer is idle after a newline. -/
theorem Tracks.finish (tracks : gps.Tracks line) :
    (gps.store gps.current.finished).advance.Tracks none where
  idle := by
    intro other _
    by_cases same : other = gps.pipe
    · subst same
      exact congrArg TBuff.flag (store_current gps gps.current.finished)
    · exact (congrArg TBuff.flag (store_of_ne same)).trans (tracks.idle other same)
  flag := by
    have other : (gps.store gps.current.finished).advance.pipe ≠ gps.pipe := advance_pipe_ne _
    exact (congrArg TBuff.flag (store_of_ne other)).trans (tracks.idle _ other)
  holds := by rintro bytes ⟨⟩

end TGpsBuff

section Stream

variable {gps : TGpsBuff} {line : Option (List Byte)} {tmp : Byte} {bytes stream : List Byte}

/-- A line does not end as it begins. -/
theorem newline_ne_dollar : newline ≠ dollar := by decide

/-- Every byte keeps the buffers with the line that is open. -/
theorem TGpsBuff.Tracks.step (tracks : gps.Tracks line) (tmp : Byte) :
    (gpsReadByte gps tmp).1.Tracks (lineAfter line tmp) := by
  unfold gpsReadByte lineAfter
  split
  · refine tracks.store rfl ?_
    rintro bytes ⟨⟩
    exact TBuff.holds_begun
  · split
    · exact tracks.finish
    · cases line with
      | none =>
          have idle : ¬ gps.current.flag = true := by simp [tracks.flag]
          rw [if_neg idle]
          exact tracks
      | some bytes =>
          have collecting : gps.current.flag = true := tracks.flag
          rw [if_pos collecting]
          refine tracks.store collecting ?_
          rintro after ⟨⟩
          exact (tracks.holds bytes rfl).put tmp

/-- The buffer is posted at every newline. -/
theorem gpsPost_newline (gps : TGpsBuff) :
    gpsPost gps newline = some ⟨gps.current.finished.buf, gps.current.finished.len⟩ := by
  rw [gpsPost, gpsReadByte, if_neg newline_ne_dollar, if_pos rfl]
  have stored : (gps.store gps.current.finished).ppBuf gps.pipe = gps.current.finished :=
    gps.store_current _
  change some (GpsEvent.mk ((gps.store gps.current.finished).ppBuf gps.pipe).buf _) = _
  rw [stored]

/-- A message is sent at a newline only. -/
theorem gpsReadByte_msg_of_ne (other : tmp ≠ newline) : (gpsReadByte gps tmp).2 = none := by
  rw [gpsReadByte, if_neg other]
  split
  · rfl
  · split <;> rfl

theorem gpsPost_of_ne (other : tmp ≠ newline) : gpsPost gps tmp = none := by
  rw [gpsPost, gpsReadByte_msg_of_ne other]
  rfl

theorem completed_of_ne (other : tmp ≠ newline) : completed line tmp = none := if_neg other

/-- There is an event for every newline. -/
theorem length_gpsReadData (gps : TGpsBuff) (stream : List Byte) :
    (gpsReadData gps stream).length = stream.count newline := by
  induction stream generalizing gps with
  | nil => rfl
  | cons tmp rest inductionHypothesis =>
      rw [gpsReadData, List.length_append, inductionHypothesis]
      by_cases same : tmp = newline
      · subst same
        rw [gpsPost_newline, List.count_cons_self]
        exact Nat.add_comm ..
      · rw [gpsPost_of_ne same, List.count_cons_of_ne same]
        exact Nat.zero_add _

/-- There is no more than one line for every newline. -/
theorem length_referenceLines_le (line : Option (List Byte)) (stream : List Byte) :
    (referenceLines line stream).length ≤ stream.count newline := by
  induction stream generalizing line with
  | nil => exact Nat.le_refl _
  | cons tmp rest inductionHypothesis =>
      have later := inductionHypothesis (lineAfter line tmp)
      rw [referenceLines, List.length_append]
      by_cases same : tmp = newline
      · subst same
        rw [List.count_cons_self]
        have one : (completed line newline).toList.length ≤ 1 := by
          cases completed line newline <;> simp
        omega
      · rw [completed_of_ne same, List.count_cons_of_ne same]
        simpa using later

/-- A newline that completes no line leaves an event too many. -/
theorem lines_ne_of_completed_none (nothing : completed line newline = none) :
    (gpsReadData gps (newline :: stream)).map GpsEvent.line ≠
      (referenceLines line (newline :: stream)).map fun line => (line, line.length) := by
  intro same
  have lengths := congrArg List.length same
  have least := length_referenceLines_le (lineAfter line newline) stream
  rw [List.length_map, List.length_map, length_gpsReadData, List.count_cons_self, referenceLines,
    nothing] at lengths
  simp at lengths
  omega

/-- The event of a line that fits. -/
theorem TGpsBuff.Tracks.event (tracks : gps.Tracks (some bytes))
    (fits : bytes.length + 1 < gpsBuffSize) :
    (GpsEvent.mk gps.current.finished.buf gps.current.finished.len).line =
      (bytes ++ [newline], (bytes ++ [newline]).length) := by
  have held := (tracks.holds bytes rfl).put newline
  have length : (bytes ++ [newline]).length = bytes.length + 1 := List.length_append
  have len : gps.current.finished.len.val = (bytes ++ [newline]).length := by
    rw [length]
    exact held.len.trans ((congrArg (· % gpsBuffSize) length).trans (Nat.mod_eq_of_lt fits))
  have buf := held.buf (length ▸ Nat.le_of_lt fits)
  rw [GpsEvent.line, len]
  exact congrArg (·, _) buf

/-- The events are the lines exactly if every line fits. -/
theorem lines_iff (tracks : gps.Tracks line) :
    (gpsReadData gps stream).map GpsEvent.line =
        (referenceLines line stream).map (fun line => (line, line.length)) ↔
      LinesFit line stream := by
  induction stream generalizing gps line with
  | nil => exact iff_of_true rfl trivial
  | cons tmp rest inductionHypothesis =>
      have later := inductionHypothesis (tracks.step tmp)
      by_cases same : tmp = newline
      · subst same
        cases line with
        | none =>
            apply iff_of_false (lines_ne_of_completed_none rfl)
            rintro ⟨fits, -⟩
            obtain ⟨bytes, begun, -⟩ := fits rfl
            cases begun
        | some bytes =>
            have length : (bytes ++ [newline]).length = bytes.length + 1 := List.length_append
            have needs : LinesFit (some bytes) (newline :: rest) →
                bytes.length + 1 < gpsBuffSize := by
              rintro ⟨fits, -⟩
              obtain ⟨other, same, short⟩ := fits rfl
              cases same
              exact short
            rcases Nat.lt_trichotomy (bytes.length + 1) gpsBuffSize with fits | full | long
            · have complete : completed (some bytes) newline = some (bytes ++ [newline]) := by
                simp [completed, Nat.le_of_lt fits]
              rw [gpsReadData, referenceLines, gpsPost_newline, complete, LinesFit]
              simp only [Option.toList_some, List.singleton_append, List.map_cons,
                tracks.event fits, List.cons.injEq, true_and]
              exact later.trans (and_iff_right fun _ => ⟨bytes, rfl, fits⟩).symm
            · -- the length of a line of the size of the buffer is posted as zero
              have complete : completed (some bytes) newline = some (bytes ++ [newline]) := by
                simp [completed, Nat.le_of_eq full]
              have zero : gps.current.finished.len.val = 0 :=
                ((tracks.holds bytes rfl).put newline).len.trans (by rw [length, full, Nat.mod_self])
              apply iff_of_false
              · rw [gpsReadData, referenceLines, gpsPost_newline, complete]
                intro same
                have heads : gps.current.finished.len.val = (bytes ++ [newline]).length :=
                  congrArg Prod.snd (List.cons.inj same).1
                omega
              · exact fun fit => Nat.ne_of_lt (needs fit) full
            · have nothing : completed (some bytes) newline = none := by
                simp [completed, long]
              exact iff_of_false (lines_ne_of_completed_none nothing) fun fit =>
                Nat.lt_asymm (needs fit) long
      · rw [gpsReadData, referenceLines, gpsPost_of_ne same, completed_of_ne same, LinesFit]
        exact later.trans (and_iff_right fun here => absurd here same).symm

/-- A line of a stream, with what is between its ends. -/
def IsLine (bytes : List Byte) : Prop :=
  ∃ between, bytes = dollar :: (between ++ [newline]) ∧ bytes.length ≤ gpsBuffSize

/-- A line that is open begins with `'$'`. -/
theorem lineAfter_begins (begins : ∀ bytes, line = some bytes → ∃ more, bytes = dollar :: more)
    (tmp : Byte) : ∀ bytes, lineAfter line tmp = some bytes → ∃ more, bytes = dollar :: more := by
  intro bytes opened
  unfold lineAfter at opened
  split at opened
  · cases opened
    exact ⟨[], rfl⟩
  · split at opened
    · cases opened
    · obtain ⟨before, was, rfl⟩ := Option.map_eq_some_iff.1 opened
      obtain ⟨more, rfl⟩ := begins before was
      exact ⟨more ++ [tmp], rfl⟩

/-- The reference yields lines. -/
theorem isLine_of_mem_referenceLines
    (begins : ∀ bytes, line = some bytes → ∃ more, bytes = dollar :: more)
    (member : bytes ∈ referenceLines line stream) : IsLine bytes := by
  induction stream generalizing line with
  | nil => cases member
  | cons tmp rest inductionHypothesis =>
      rcases List.mem_append.1 member with here | later
      · have complete := Option.mem_toList.1 here
        unfold completed at complete
        split at complete
        · obtain ⟨some, fits⟩ := Option.filter_eq_some_iff.1 complete
          obtain ⟨before, was, rfl⟩ := Option.map_eq_some_iff.1 some
          obtain ⟨more, rfl⟩ := begins before was
          exact ⟨more, rfl, by simpa using fits⟩
        · cases complete
      · exact inductionHypothesis (lineAfter_begins begins tmp) later

/-- A sentence that `nmea_parse` knows is longer than its name. -/
theorem GpsEvent.checksumInside_of_ends {event : GpsEvent} (nonempty : 0 < event.len)
    (short : event.len ≤ gpsBuffSize)
    (ends : event.buf.toList[event.len - 1]? = some newline) : event.ChecksumInside := by
  intro known back member
  have long : 6 < event.len := by
    by_contra inName
    have named : (event.buf.toList.take 6)[event.len - 1]? = some newline := by
      rw [List.getElem?_take_of_lt (by omega)]
      exact ends
    have other := List.mem_of_getElem? named
    unfold Known at known
    simp only [List.mem_cons, List.not_mem_nil, or_false] at known
    rcases known with same | same | same <;> rw [same] at other <;> revert other <;> decide
  have size : gpsBuffSize = 256 := rfl
  simp only [List.mem_cons, List.not_mem_nil, or_false] at member
  rcases member with rfl | rfl | rfl <;> simp only [BitVec.toNat_sub, BitVec.toNat_ofNat] <;> omega

/-- An event that stands for a line is sound. -/
theorem GpsEvent.sound_of_line {event : GpsEvent} (isLine : IsLine bytes)
    (same : event.line = (bytes, bytes.length)) : event.Sound := by
  obtain ⟨between, shape, fits⟩ := isLine
  have len : event.len = bytes.length := congrArg Prod.snd same
  have buf : event.buf.toList.take bytes.length = bytes := len ▸ congrArg Prod.fst same
  have length : bytes.length = between.length + 2 := by simp [shape]
  have read : ∀ place, place < bytes.length → event.buf.toList[place]? = bytes[place]? := by
    intro place inside
    rw [← List.getElem?_take_of_lt inside, buf]
  have ends : event.buf.toList[event.len - 1]? = some newline := by
    rw [len, read _ (by omega), length, shape]
    simp
  exact
    { starts := by
        rw [read 0 (by omega), shape]
        rfl
      nonempty := by omega
      ends := ends
      checksum := checksumInside_of_ends (by omega) (by omega) ends }

end Stream

/-- The events of the driver are the lines of the stream exactly if every newline ends a line
that was begun and leaves a byte of the buffer free. -/
theorem framesLines_iff (stream : List Byte) : FramesLines stream ↔ LinesFit none stream := by
  constructor
  · exact fun frames => (lines_iff TGpsBuff.tracks_initial).1 frames.lines
  · intro fits
    have lines := (lines_iff TGpsBuff.tracks_initial).2 fits
    refine ⟨lines, ?_⟩
    intro event member
    have mapped := List.mem_map_of_mem (f := GpsEvent.line) member
    rw [lines] at mapped
    obtain ⟨bytes, inReference, same⟩ := List.mem_map.1 mapped
    refine GpsEvent.sound_of_line (isLine_of_mem_referenceLines ?_ inReference) same.symm
    rintro bytes ⟨⟩

/-- A newline before any `'$'` is posted as a line. -/
theorem stray_newline_posted : ¬ FramesLines [newline] := by
  rw [framesLines_iff]
  rintro ⟨fits, -⟩
  obtain ⟨bytes, begun, -⟩ := fits rfl
  cases begun

end Rsu.Drv
