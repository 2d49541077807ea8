import Rsu.Cli.Vty

/-!
# The telnet layer

`vty_read` first takes the telnet commands out of what it reads: negotiations, which it ignores, and
subnegotiations, of which it knows the size of the window. What is left are the keys. The bytes come
in chunks, and the state between two chunks does not remember that an option is still to come; so
the layer reads a stream as it was written exactly as long as no chunk ends in front of an option.
-/

namespace Rsu.Cli

open Rsu.Rcp

/-- `TELNET_NAWS_SB_LEN`, which is also the size of `sb_buf`. -/
def telnetNawsSbLen : Nat := 5

/-- `SB` -/
def sbByte : Byte := 250

/-- `SE` -/
def seByte : Byte := 240

/-- `TELOPT_NAWS` -/
def teloptNaws : Byte := 31

/-- The fields of `struct vty` that belong to the telnet layer. -/
structure TelnetState where
  iac : Bool
  iacSbInProgress : Bool
  sbBuf : Vector Byte telnetNawsSbLen
  sbLen : Nat
  width : Nat
  height : Nat

/-- A number of two bytes, as `(high << 8) | low`. -/
def word16 (high low : Byte) : Nat := (high ++ low).toNat

namespace TelnetState

/-- A byte of a subnegotiation. -/
def store (state : TelnetState) (byte : Byte) : TelnetState :=
  { state with
    sbBuf := state.sbBuf.setIfInBounds state.sbLen byte
    sbLen := state.sbLen + 1 }

/-- The size of the window, if `sb_buf` holds it. -/
def resize (state : TelnetState) : TelnetState :=
  if state.sbBuf[0] = teloptNaws ∧ state.sbLen = telnetNawsSbLen then
    { state with
      width := word16 state.sbBuf[1] state.sbBuf[2]
      height := word16 state.sbBuf[3] state.sbBuf[4] }
  else state

/-- `vty_telnet_option`, with the number of bytes to be skipped. -/
def vtyTelnetOption (state : TelnetState) (byte : Byte) : TelnetState × Nat :=
  if byte = sbByte then ({ state with sbLen := 0, iacSbInProgress := true }, 0)
  else if byte = seByte then
    if state.iacSbInProgress = false then (state, 0)
    else if state.sbLen = 0 ∨ state.sbBuf[0] = 0 then ({ state with iacSbInProgress := false }, 0)
    else ({ state.resize with iacSbInProgress := false }, 0)
  else (state, 1)

/-- What the layer makes of a byte. -/
inductive Effect where
  /-- It is taken, with so many bytes behind it. -/
  | taken (state : TelnetState) (count : Nat)
  /-- It is a key. -/
  | key (state : TelnetState)

/-- A byte other than the first `IAC` of a command. -/
def readBehind (state : TelnetState) (byte : Byte) : Effect :=
  if state.iacSbInProgress = true ∧ state.iac = false then .taken (state.store byte) 0
  else if state.iac = true then
    .taken { (state.vtyTelnetOption byte).1 with iac := false } (state.vtyTelnetOption byte).2
  else .key state

/-- The part of the loop body of `vty_read` in front of the keys. -/
def readByte (state : TelnetState) (byte : Byte) : Effect :=
  if byte = Vty.iacByte ∧ state.iac = false then .taken { state with iac := true } 0
  else readBehind { state with iac := state.iac && byte ≠ Vty.iacByte } byte

/-- What is read of a chunk: the state behind it, and the keys. -/
def readChunk (state : TelnetState) : List Byte → TelnetState × List Byte
  | [] => (state, [])
  | byte :: rest =>
      match state.readByte byte with
      | .taken state count => readChunk state (rest.drop count)
      | .key state => ((readChunk state rest).1, byte :: (readChunk state rest).2)
  termination_by chunk => chunk.length
  decreasing_by
    · rw [List.length_drop, List.length_cons]
      omega
    · exact Nat.lt_succ_self _

/-- What is read of some chunks. -/
def readChunks (state : TelnetState) : List (List Byte) → TelnetState × List Byte
  | [] => (state, [])
  | chunk :: later =>
      let rest := readChunks (state.readChunk chunk).1 later
      (rest.1, (state.readChunk chunk).2 ++ rest.2)

@[simp] theorem readChunk_nil (state : TelnetState) : state.readChunk [] = (state, []) := by
  rw [readChunk]

/-- A byte that is no key is taken, with those that it skips. -/
theorem readChunk_taken {state next : TelnetState} {byte : Byte} {count : Nat}
    (taken : state.readByte byte = .taken next count) (rest : List Byte) :
    state.readChunk (byte :: rest) = next.readChunk (rest.drop count) := by
  rw [readChunk, taken]

/-- A byte that is a key goes to the editing functions. -/
theorem readChunk_key {state next : TelnetState} {byte : Byte}
    (key : state.readByte byte = .key next) (rest : List Byte) :
    state.readChunk (byte :: rest) =
      ((next.readChunk rest).1, byte :: (next.readChunk rest).2) := by
  rw [readChunk, key]

/-! ### Bytes that belong together -/

/-- The state behind some bytes does not depend on what follows them in the chunk. -/
def Sealed (state : TelnetState) (front : List Byte) : Prop :=
  ∀ rest, state.readChunk (front ++ rest) =
    (((state.readChunk front).1.readChunk rest).1,
      (state.readChunk front).2 ++ ((state.readChunk front).1.readChunk rest).2)

variable {state next : TelnetState} {byte : Byte}

theorem sealed_nil (state : TelnetState) : state.Sealed [] := by
  intro rest
  rw [List.nil_append, readChunk_nil, List.nil_append]

/-- What is sealed may be followed by what is sealed. -/
theorem Sealed.append {front back : List Byte} (first : state.Sealed front)
    (second : (state.readChunk front).1.Sealed back) : state.Sealed (front ++ back) := by
  intro rest
  rw [List.append_assoc, first, second, first back, List.append_assoc]

/-- All units are sealed, one behind the other. -/
def Units (state : TelnetState) : List (List Byte) → Prop
  | [] => True
  | unit :: later => state.Sealed unit ∧ (state.readChunk unit).1.Units later

/-- Whole units are sealed. -/
theorem Units.sealed {units : List (List Byte)} (sound : state.Units units) :
    state.Sealed units.flatten := by
  induction units generalizing state with
  | nil => exact sealed_nil state
  | cons unit later inductionHypothesis =>
      rw [List.flatten_cons]
      exact sound.1.append (inductionHypothesis sound.2)

/-- Units may be read in two parts. -/
theorem units_append {first second : List (List Byte)} :
    state.Units (first ++ second) ↔
      state.Units first ∧ (state.readChunk first.flatten).1.Units second := by
  induction first generalizing state with
  | nil =>
      rw [List.nil_append, List.flatten_nil, readChunk_nil]
      exact (iff_of_eq (true_and _)).symm
  | cons unit later inductionHypothesis =>
      rw [List.cons_append, Units, Units, inductionHypothesis, List.flatten_cons, and_assoc]
      refine and_congr_right fun sealed => ?_
      rw [sealed later.flatten]

/-- Chunks that are made of whole units are read like one chunk. -/
theorem readChunks_units {groups : List (List (List Byte))}
    (sound : state.Units groups.flatten) :
    state.readChunks (groups.map List.flatten) = state.readChunk groups.flatten.flatten := by
  induction groups generalizing state with
  | nil => rw [List.map_nil, readChunks, List.flatten_nil, List.flatten_nil, readChunk_nil]
  | cons group later inductionHypothesis =>
      rw [List.flatten_cons, units_append] at sound
      rw [List.map_cons, readChunks, List.flatten_cons, List.flatten_append,
        sound.1.sealed later.flatten.flatten, inductionHypothesis sound.2]

/-! ### What is written -/

/-- Between two commands. -/
structure Clean (state : TelnetState) : Prop where
  iac : state.iac = false
  outside : state.iacSbInProgress = false

/-- Inside a subnegotiation. -/
structure Inside (state : TelnetState) : Prop where
  iac : state.iac = false
  inside : state.iacSbInProgress = true

/-- How a byte of the text or of a subnegotiation is written: `IAC` is doubled. -/
def escaped (byte : Byte) : List (List Byte) :=
  if byte = Vty.iacByte then [[Vty.iacByte], [Vty.iacByte]] else [[byte]]

/-- A byte that skips none is sealed. -/
theorem sealed_of_taken (taken : state.readByte byte = .taken next 0) :
    state.Sealed [byte] ∧ state.readChunk [byte] = (next, []) := by
  have read : state.readChunk [byte] = (next, []) := by
    rw [readChunk_taken taken, List.drop_zero, readChunk_nil]
  refine ⟨fun rest => ?_, read⟩
  rw [read, List.singleton_append, readChunk_taken taken, List.drop_zero, List.nil_append]

theorem sealed_of_key (key : state.readByte byte = .key next) :
    state.Sealed [byte] ∧ state.readChunk [byte] = (next, [byte]) := by
  have read : state.readChunk [byte] = (next, [byte]) := by
    rw [readChunk_key key, readChunk_nil]
  refine ⟨fun rest => ?_, read⟩
  rw [read, List.singleton_append, readChunk_key key, List.singleton_append]

/-- A command and its option, which have to come in one chunk. -/
theorem sealed_of_option {command option : Byte}
    (taken : state.readByte command = .taken next 1) :
    state.Sealed [command, option] ∧ state.readChunk [command, option] = (next, []) := by
  have read : state.readChunk [command, option] = (next, []) := by
    rw [readChunk_taken taken, List.drop_one, List.tail_cons, readChunk_nil]
  refine ⟨fun rest => ?_, read⟩
  rw [read, List.cons_append, List.cons_append, List.nil_append, readChunk_taken taken,
    List.drop_one, List.tail_cons, List.nil_append]

/-- The first `IAC`. -/
theorem readByte_iac (iac : state.iac = false) :
    state.readByte Vty.iacByte = .taken { state with iac := true } 0 := by
  rw [readByte, if_pos ⟨rfl, iac⟩]

/-- What comes behind `IAC`. -/
theorem units_behind_iac {unit keys : List Byte} (iac : state.iac = false)
    (read : ({ state with iac := true } : TelnetState).Sealed unit ∧
      ({ state with iac := true } : TelnetState).readChunk unit = (next, keys)) :
    state.Units [[Vty.iacByte], unit] ∧
      state.readChunk [[Vty.iacByte], unit].flatten = (next, keys) := by
  have first := sealed_of_taken (readByte_iac iac)
  refine ⟨⟨first.1, ?_, trivial⟩, ?_⟩
  · rw [first.2]
    exact read.1
  · rw [List.flatten_cons, List.flatten_singleton, first.1, first.2, read.2, List.nil_append]

/-- A byte is read in the same way doubled or not. -/
theorem units_escaped {keys : List Byte} (iac : state.iac = false)
    (plain : byte ≠ Vty.iacByte → state.Sealed [byte] ∧ state.readChunk [byte] = (next, keys))
    (doubled : byte = Vty.iacByte → ({ state with iac := true } : TelnetState).Sealed [byte] ∧
      ({ state with iac := true } : TelnetState).readChunk [byte] = (next, keys)) :
    state.Units (escaped byte) ∧ state.readChunk (escaped byte).flatten = (next, keys) := by
  rw [escaped]
  split_ifs with double
  · rw [← double]
    have both := units_behind_iac iac (doubled double)
    rw [← double] at both
    exact both
  · obtain ⟨one, read⟩ := plain double
    rw [List.flatten_singleton]
    exact ⟨⟨one, trivial⟩, read⟩

/-- Outside of an option every byte but `IAC` is a key. -/
theorem Clean.readByte (clean : state.Clean) (other : byte ≠ Vty.iacByte) :
    state.readByte byte = .key state := by
  obtain ⟨_, _, buf, len, width, height⟩ := state
  obtain ⟨rfl, rfl⟩ := clean
  rw [TelnetState.readByte, if_neg fun both => other both.1]
  rfl

/-- Two of them are a key. -/
theorem Clean.readByte_iac_iac (clean : state.Clean) :
    ({ state with iac := true } : TelnetState).readByte Vty.iacByte = .key state := by
  obtain ⟨_, _, buf, len, width, height⟩ := state
  obtain ⟨rfl, rfl⟩ := clean
  rfl

/-- In an option every byte but `IAC` is stored. -/
theorem Inside.readByte (inside : state.Inside) (other : byte ≠ Vty.iacByte) :
    state.readByte byte = .taken (state.store byte) 0 := by
  obtain ⟨_, _, buf, len, width, height⟩ := state
  obtain ⟨rfl, rfl⟩ := inside
  rw [TelnetState.readByte, if_neg fun both => other both.1]
  rfl

/-- Two of them are stored as one. -/
theorem Inside.readByte_iac_iac (inside : state.Inside) :
    ({ state with iac := true } : TelnetState).readByte Vty.iacByte =
      .taken (state.store Vty.iacByte) 0 := by
  obtain ⟨_, _, buf, len, width, height⟩ := state
  obtain ⟨rfl, rfl⟩ := inside
  rfl

/-- A byte of the text. -/
theorem Clean.escaped (clean : state.Clean) (byte : Byte) :
    state.Units (TelnetState.escaped byte) ∧
      state.readChunk (TelnetState.escaped byte).flatten = (state, [byte]) := by
  refine units_escaped clean.iac (fun other => sealed_of_key (clean.readByte other)) ?_
  rintro rfl
  exact sealed_of_key clean.readByte_iac_iac

/-- A byte of a subnegotiation. -/
theorem Inside.escaped (inside : state.Inside) (byte : Byte) :
    state.Units (TelnetState.escaped byte) ∧
      state.readChunk (TelnetState.escaped byte).flatten = (state.store byte, []) := by
  refine units_escaped inside.iac (fun other => sealed_of_taken (inside.readByte other)) ?_
  rintro rfl
  exact sealed_of_taken inside.readByte_iac_iac

/-- Storing a byte stays in the option. -/
theorem Inside.store (inside : state.Inside) (byte : Byte) : (state.store byte).Inside :=
  ⟨inside.iac, inside.inside⟩

/-- The text is read as it was. -/
theorem Clean.text (clean : state.Clean) (bytes : List Byte) :
    state.Units (bytes.flatMap TelnetState.escaped) ∧
      state.readChunk (bytes.flatMap TelnetState.escaped).flatten = (state, bytes) := by
  induction bytes with
  | nil => exact ⟨trivial, readChunk_nil state⟩
  | cons byte bytes inductionHypothesis =>
      have one := clean.escaped byte
      rw [List.flatMap_cons, units_append, List.flatten_append, one.1.sealed, one.2]
      refine ⟨⟨one.1, inductionHypothesis.1⟩, ?_⟩
      rw [inductionHypothesis.2]
      rfl

/-- A payload is stored as it was. -/
theorem Inside.payload (inside : state.Inside) (bytes : List Byte) :
    state.Units (bytes.flatMap TelnetState.escaped) ∧
      state.readChunk (bytes.flatMap TelnetState.escaped).flatten =
        (bytes.foldl TelnetState.store state, []) := by
  induction bytes generalizing state with
  | nil => exact ⟨trivial, readChunk_nil state⟩
  | cons byte bytes inductionHypothesis =>
      have one := inside.escaped byte
      have more := inductionHypothesis (inside.store byte)
      rw [List.flatMap_cons, units_append, List.flatten_append, one.1.sealed, one.2]
      refine ⟨⟨one.1, more.1⟩, ?_⟩
      rw [more.2]
      rfl

/-- What a terminal writes. -/
inductive Item where
  | text (bytes : List Byte)
  /-- `WILL`, `WONT`, `DO`, `DONT`, or any other command that is none of the three below -/
  | negotiate (command option : Byte) (other : command ≠ sbByte ∧ command ≠ seByte ∧
      command ≠ Vty.iacByte)
  | subnegotiate (payload : List Byte)

namespace Item

/-- How an item is written. -/
def units : Item → List (List Byte)
  | .text bytes => bytes.flatMap escaped
  | .negotiate command option _ => [[Vty.iacByte], [command, option]]
  | .subnegotiate payload =>
      [[Vty.iacByte], [sbByte]] ++ payload.flatMap escaped ++ [[Vty.iacByte], [seByte]]

/-- The keys among the items. -/
def keys : Item → List Byte
  | .text bytes => bytes
  | _ => []

/-- The window behind an item. -/
def window (before : Nat × Nat) : Item → Nat × Nat
  | .subnegotiate [kind, widthHigh, widthLow, heightHigh, heightLow] =>
      if kind = teloptNaws then (word16 widthHigh widthLow, word16 heightHigh heightLow)
      else before
  | _ => before

end Item

/-- The window as it is known. -/
def window (state : TelnetState) : Nat × Nat := (state.width, state.height)

/-- Storing a payload changes nothing else, and counts its bytes. -/
theorem foldl_store (state : TelnetState) (payload : List Byte) :
    (payload.foldl store state).window = state.window ∧
      (payload.foldl store state).iac = state.iac ∧
      (payload.foldl store state).iacSbInProgress = state.iacSbInProgress ∧
      (payload.foldl store state).sbLen = state.sbLen + payload.length := by
  induction payload generalizing state with
  | nil => exact ⟨rfl, rfl, rfl, rfl⟩
  | cons byte payload inductionHypothesis =>
      obtain ⟨same, iac, inside, length⟩ := inductionHypothesis (state.store byte)
      refine ⟨same, iac, inside, length.trans ?_⟩
      rw [List.length_cons]
      change state.sbLen + 1 + _ = _
      omega

/-- The end of a subnegotiation. -/
theorem window_se (state : TelnetState) (inside : state.iacSbInProgress = true) :
    ((state.vtyTelnetOption seByte).1.window = if state.sbLen = 0 ∨ state.sbBuf[0] = 0 then
        state.window else state.resize.window) ∧
      (state.vtyTelnetOption seByte).1.iacSbInProgress = false ∧
      (state.vtyTelnetOption seByte).2 = 0 := by
  rw [vtyTelnetOption, if_neg (by decide), if_pos rfl, if_neg (by rw [inside]; decide)]
  split_ifs <;> exact ⟨rfl, rfl, rfl⟩

/-- A payload of five bytes is in `sb_buf`. -/
theorem resize_stored {start : TelnetState} (empty : start.sbLen = 0)
    (kind widthHigh widthLow heightHigh heightLow : Byte) :
    ([kind, widthHigh, widthLow, heightHigh, heightLow].foldl store start).sbBuf =
      #v[kind, widthHigh, widthLow, heightHigh, heightLow] := by
  obtain ⟨iac, inside, buf, len, width, height⟩ := start
  obtain rfl : len = 0 := empty
  apply Vector.ext
  intro index bound
  have few : index < 5 := bound
  simp only [List.foldl_cons, List.foldl_nil, store, Vector.getElem_setIfInBounds]
  obtain rfl | rfl | rfl | rfl | rfl :
      index = 0 ∨ index = 1 ∨ index = 2 ∨ index = 3 ∨ index = 4 := by omega
  all_goals rfl

/-- The window that a stored payload announces. -/
theorem window_stored {start : TelnetState} (empty : start.sbLen = 0) (payload : List Byte) :
    (if (payload.foldl store start).sbLen = 0 ∨ (payload.foldl store start).sbBuf[0] = 0 then
        (payload.foldl store start).window else (payload.foldl store start).resize.window) =
      Item.window start.window (.subnegotiate payload) := by
  obtain ⟨same, -, -, length⟩ := foldl_store start payload
  rw [empty, Nat.zero_add] at length
  by_cases five : payload.length = telnetNawsSbLen
  · obtain ⟨kind, widthHigh, widthLow, heightHigh, heightLow, rfl⟩ :
        ∃ kind widthHigh widthLow heightHigh heightLow,
          payload = [kind, widthHigh, widthLow, heightHigh, heightLow] := by
      obtain - | ⟨kind, - | ⟨widthHigh, - | ⟨widthLow, - | ⟨heightHigh, - | ⟨heightLow, - |
        ⟨more, later⟩⟩⟩⟩⟩⟩ := payload
      case cons.cons.cons.cons.cons.nil => exact ⟨_, _, _, _, _, rfl⟩
      all_goals exact absurd five (by simp [telnetNawsSbLen])
    have stored := resize_stored empty kind widthHigh widthLow heightHigh heightLow
    generalize [kind, widthHigh, widthLow, heightHigh, heightLow].foldl store start = state at *
    have first : state.sbBuf[0] = kind := by rw [stored]; rfl
    have resized : state.resize.window =
        if kind = teloptNaws then (word16 widthHigh widthLow, word16 heightHigh heightLow)
        else state.window := by
      rw [resize, first]
      split_ifs with naws other other
      · simp only [window, stored]
        rfl
      · exact absurd naws.1 other
      · exact absurd ⟨other, length.trans five⟩ naws
      · rfl
    rw [first, resized, same, Item.window]
    split_ifs with none naws
    · rcases none with none | zero
      · rw [length] at none
        cases none
      · rw [zero] at naws
        exact absurd naws (by decide)
    all_goals rfl
  · have kept : (payload.foldl store start).resize = payload.foldl store start :=
      if_neg fun both => five (length.symm.trans both.2)
    have announced : Item.window start.window (.subnegotiate payload) = start.window := by
      rw [Item.window]
      intro kind widthHigh widthLow heightHigh heightLow same
      cases same
      exact five rfl
    rw [kept, ite_self, same, announced]

/-- A command takes the byte behind it along. -/
theorem Clean.readByte_command {command : Byte} (clean : state.Clean)
    (other : command ≠ sbByte ∧ command ≠ seByte ∧ command ≠ Vty.iacByte) :
    ({ state with iac := true } : TelnetState).readByte command = .taken state 1 := by
  obtain ⟨_, _, buf, len, width, height⟩ := state
  obtain ⟨rfl, rfl⟩ := clean
  rw [TelnetState.readByte, if_neg fun both => other.2.2 both.1]
  simp [readBehind, vtyTelnetOption, other]

/-- `SB` begins an option. -/
theorem Clean.readByte_sb (clean : state.Clean) :
    ({ state with iac := true } : TelnetState).readByte sbByte =
      .taken { state with sbLen := 0, iacSbInProgress := true } 0 := by
  obtain ⟨_, _, buf, len, width, height⟩ := state
  obtain ⟨rfl, rfl⟩ := clean
  rfl

/-- The end of a subnegotiation, as a byte behind `IAC`. -/
theorem Inside.readByte_se (inside : state.Inside) :
    ∃ next, ({ state with iac := true } : TelnetState).readByte seByte = .taken next 0 ∧
      next.Clean ∧ next.window = if state.sbLen = 0 ∨ state.sbBuf[0] = 0 then state.window
        else state.resize.window := by
  obtain ⟨_, _, buf, len, width, height⟩ := state
  obtain ⟨rfl, rfl⟩ := inside
  obtain ⟨ended, outside, none⟩ := window_se ⟨true, true, buf, len, width, height⟩ rfl
  refine ⟨{ (vtyTelnetOption ⟨true, true, buf, len, width, height⟩ seByte).1 with iac := false },
    ?_, ⟨rfl, outside⟩, ended.trans ?_⟩
  · exact congrArg (Effect.taken _) none
  · refine if_congr Iff.rfl rfl ?_
    rw [resize, resize]
    split_ifs <;> rfl

/-- An item is read as it was written. -/
theorem Clean.item (clean : state.Clean) (item : Item) :
    state.Units item.units ∧ (state.readChunk item.units.flatten).1.Clean ∧
      (state.readChunk item.units.flatten).2 = item.keys ∧
      (state.readChunk item.units.flatten).1.window = item.window state.window := by
  cases item with
  | text bytes =>
      obtain ⟨units, read⟩ := clean.text bytes
      rw [Item.units, read]
      exact ⟨units, clean, rfl, rfl⟩
  | negotiate command option other =>
      have command := @sealed_of_option _ _ command option (clean.readByte_command other)
      obtain ⟨units, read⟩ := units_behind_iac clean.iac command
      rw [Item.units, read]
      exact ⟨units, clean, rfl, rfl⟩
  | subnegotiate payload =>
      have opened := units_behind_iac clean.iac (sealed_of_taken clean.readByte_sb)
      have inside : ({ state with sbLen := 0, iacSbInProgress := true } : TelnetState).Inside :=
        ⟨clean.iac, rfl⟩
      have stored := inside.payload payload
      obtain ⟨-, iac, still, -⟩ := foldl_store
        { state with sbLen := 0, iacSbInProgress := true } payload
      obtain ⟨final, taken, ends, announced⟩ :=
        Inside.readByte_se ⟨iac.trans clean.iac, still⟩
      have closed := units_behind_iac (iac.trans clean.iac) (sealed_of_taken taken)
      have window := announced.trans
        (@window_stored { state with sbLen := 0, iacSbInProgress := true } rfl payload)
      have front : state.Units ([[Vty.iacByte], [sbByte]] ++ payload.flatMap TelnetState.escaped) ∧
          state.readChunk
            ([[Vty.iacByte], [sbByte]] ++ payload.flatMap TelnetState.escaped).flatten =
            (payload.foldl TelnetState.store { state with sbLen := 0, iacSbInProgress := true },
              []) := by
        rw [units_append, opened.2, List.flatten_append, opened.1.sealed, opened.2, stored.2]
        exact ⟨⟨opened.1, stored.1⟩, rfl⟩
      have read : state.readChunk (Item.subnegotiate payload).units.flatten = (final, []) := by
        rw [Item.units, List.flatten_append, front.1.sealed, front.2, closed.2]
        rfl
      refine ⟨?_, ?_⟩
      · rw [Item.units, units_append, front.2]
        exact ⟨front.1, closed.1⟩
      · rw [read]
        exact ⟨ends, rfl, window⟩

/-- So are items. -/
theorem Clean.items (clean : state.Clean) (items : List Item) :
    state.Units (items.flatMap Item.units) ∧
      (state.readChunk (items.flatMap Item.units).flatten).1.Clean ∧
      (state.readChunk (items.flatMap Item.units).flatten).2 = items.flatMap Item.keys ∧
      (state.readChunk (items.flatMap Item.units).flatten).1.window =
        items.foldl Item.window state.window := by
  induction items generalizing state with
  | nil =>
      rw [List.flatMap_nil, List.flatten_nil, readChunk_nil]
      exact ⟨trivial, clean, rfl, rfl⟩
  | cons item items inductionHypothesis =>
      obtain ⟨units, after, keys, window⟩ := clean.item item
      obtain ⟨later, final, more, known⟩ := inductionHypothesis after
      rw [List.flatMap_cons, units_append, List.flatten_append, units.sealed, List.flatMap_cons,
        List.foldl_cons, ← window, keys]
      exact ⟨⟨units, later⟩, final, congrArg (item.keys ++ ·) more, known⟩

/-- Whatever text, negotiations and subnegotiations a terminal writes, and however they come in
chunks, as long as no chunk ends in front of an option: the keys are the text, and the window is the
last one that was announced. -/
theorem telnet_read (clean : state.Clean) (items : List Item) (groups : List (List (List Byte)))
    (whole : groups.flatten = items.flatMap Item.units) :
    (state.readChunks (groups.map List.flatten)).2 = items.flatMap Item.keys ∧
      (state.readChunks (groups.map List.flatten)).1.window =
        items.foldl Item.window state.window ∧
      (state.readChunks (groups.map List.flatten)).1.Clean := by
  obtain ⟨units, final, keys, window⟩ := clean.items items
  rw [← whole] at units final keys window
  rw [readChunks_units units]
  exact ⟨keys, window, final⟩

/-- A new session. -/
def initial : TelnetState := ⟨false, false, .replicate _ 0, 0, 0, 0⟩

/-- A window of 255 columns and 24 lines in front of a key, byte by byte. -/
theorem telnet_read_window :
    (initial.readChunks [[255], [250], [31], [0], [255], [255], [0], [24], [255], [240], [97]]).2 =
        [97] ∧
      (initial.readChunks
        [[255], [250], [31], [0], [255], [255], [0], [24], [255], [240], [97]]).1.window =
        (255, 24) := by
  obtain ⟨keys, window, -⟩ := @telnet_read initial ⟨rfl, rfl⟩
    [.subnegotiate [31, 0, 255, 0, 24], .text [97]]
    ([[255], [250], [31], [0], [255], [255], [0], [24], [255], [240], [97]].map fun unit => [unit])
    (by decide)
  exact ⟨keys, window⟩

/-- An option that comes in another chunk than its command is taken for a key. -/
theorem Clean.option_cut {command option : Byte} (clean : state.Clean)
    (other : command ≠ sbByte ∧ command ≠ seByte ∧ command ≠ Vty.iacByte)
    (plain : option ≠ Vty.iacByte) :
    state.readChunks [[Vty.iacByte, command], [option]] = (state, [option]) := by
  have first := sealed_of_taken (readByte_iac clean.iac)
  have cut : state.readChunk [Vty.iacByte, command] = (state, []) := by
    change state.readChunk ([Vty.iacByte] ++ [command]) = _
    rw [first.1, first.2, readChunk_taken (clean.readByte_command other), List.drop_nil,
      readChunk_nil]
    rfl
  have key := sealed_of_key (clean.readByte plain)
  rw [readChunks, readChunks, readChunks, cut, key.2]
  rfl

end TelnetState

/-! ### The session -/

namespace Vty

variable {editor : LineEditor}

/-- What `vty_read` does with a key. -/
def readKey (vty : Vty editor) (byte : Byte) (rest : List Byte) : ByteEffect editor :=
  if vty.status = .more then .next vty rest
  else
    match vty.escape with
    | .escape => .next (vty.vtyEscapeMap byte) rest
    | .preEscape => .next (vty.preEscape byte) rest
    | .normal => vty.switchByte byte rest

/-- The session with the flags of the telnet layer. -/
def withTelnet (vty : Vty editor) (state : TelnetState) : Vty editor :=
  { vty with iac := state.iac, iacSbInProgress := state.iacSbInProgress }

/-- The loop body of `vty_read` is the telnet layer, and behind it the keys. -/
theorem readByte_telnet (vty : Vty editor) (state : TelnetState) (byte : Byte) (rest : List Byte) :
    (vty.withTelnet state).readByte byte rest =
      match state.readByte byte with
      | .taken next count => .next (vty.withTelnet next) (rest.drop count)
      | .key next => (vty.withTelnet next).readKey byte rest := by
  rw [readByte, TelnetState.readByte]
  change (if byte = iacByte ∧ state.iac = false then _ else _) = _
  split_ifs with first
  · rfl
  · rw [TelnetState.readBehind]
    dsimp only [withTelnet]
    by_cases stored : state.iacSbInProgress = true ∧ (state.iac && decide (byte ≠ iacByte)) = false
    · rw [if_pos stored, if_pos stored]
      rfl
    · rw [if_neg stored, if_neg stored]
      by_cases command : (state.iac && decide (byte ≠ iacByte)) = true
      · rw [if_pos command, if_pos command]
        by_cases opens : byte = sbByte
        · subst opens
          rfl
        · by_cases ends : byte = seByte
          · subst ends
            rw [TelnetState.vtyTelnetOption, if_neg opens, if_pos rfl]
            split_ifs with outside known
            · change ByteEffect.next { vty with iac := false, iacSbInProgress := false } rest =
                .next { vty with iac := false, iacSbInProgress := state.iacSbInProgress } rest
              rw [show state.iacSbInProgress = false from outside]
            · rfl
            · rfl
          · rw [TelnetState.vtyTelnetOption, if_neg opens, if_neg ends, vtyTelnetOption]
            split
            · next code => exact absurd (BitVec.eq_of_toNat_eq code) opens
            · next code => exact absurd (BitVec.eq_of_toNat_eq code) ends
            · rfl
      · rw [if_neg command, if_neg command]
        rfl

end Vty

end Rsu.Cli
