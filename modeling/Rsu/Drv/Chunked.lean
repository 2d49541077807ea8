import Mathlib.Data.Nat.Init
import Mathlib.Order.MinMax
import Rsu.Rcp.Frame

/-!
# The chunks of the caster

A caster that speaks HTTP sends the corrections in chunks: the size in hexadecimal digits, a line
end, the data and another line end. The loop of `ntrip_main_proc` takes them apart as they are
received, whatever they were cut into on the way. Behind the size there may be an extension; the
loop has a mode for it, which it never leaves.
-/

namespace Rsu.Drv

open Rsu.Rcp

/-- `chunkymode` behind the header of the reply, with `chunksize` where it is read again. -/
inductive ChunkyMode where
  /-- 1, reading number starts -/
  | starts
  /-- 2, during reading number -/
  | number (chunksize : Nat)
  /-- 3, scanning for return -/
  | lineEnd (chunksize : Nat)
  /-- 4, output data -/
  | data (chunksize : Nat) (positive : 0 < chunksize)
  /-- 5, behind a semicolon -/
  | extension

/-- `chunksize ? 4 : 1` -/
def ChunkyMode.ofSize (chunksize : Nat) : ChunkyMode :=
  if positive : 0 < chunksize then .data chunksize positive else .starts

/-- The mode, and what was output. -/
structure ChunkyState where
  mode : ChunkyMode
  output : List Byte

/-- Why the loop does not go on with the next bytes. -/
inductive ChunkyStop where
  /-- `Error in chunky transfer encoding` -/
  | cstop
  /-- The size, or what it is computed from, does not fit an `int`. -/
  | overflow
  /-- The loop takes no byte any more, and does not end. -/
  | endless

/-- The value of a hexadecimal digit. -/
def hexDigit (byte : Byte) : Option Nat :=
  if 0x30 ≤ byte ∧ byte ≤ 0x39 then some (byte.toNat - 0x30)
  else if 0x61 ≤ byte ∧ byte ≤ 0x66 then some (byte.toNat - 0x61 + 10)
  else if 0x41 ≤ byte ∧ byte ≤ 0x46 then some (byte.toNat - 0x41 + 10)
  else none

namespace ChunkyState

/-- A byte of the size: `chunksize*16+i` is computed before the code of the first digit is taken
off. -/
def readNumber (chunksize : Nat) (byte : Byte) : Except ChunkyStop ChunkyMode :=
  match hexDigit byte with
  | some digit =>
      if chunksize * 16 + byte.toNat < 2147483648 then .ok (.number (chunksize * 16 + digit))
      else .error .overflow
  | none =>
      if byte = 0x0D then .ok (.lineEnd chunksize)
      else if byte = 0x3B then .ok .extension
      else .error .cstop

/-- The byte behind a return. -/
def readReturn (chunksize : Nat) (byte : Byte) : Except ChunkyStop ChunkyMode :=
  if byte = 0x0A then .ok (.ofSize chunksize) else .error .cstop

/-- What is received at once, from `pos` on. -/
def receive (state : ChunkyState) : List Byte → Except ChunkyStop ChunkyState
  | [] => .ok state
  | byte :: later =>
      match state.mode with
      | .starts => do
          let mode ← readNumber 0 byte
          receive { state with mode := mode } later
      | .number chunksize => do
          let mode ← readNumber chunksize byte
          receive { state with mode := mode } later
      | .lineEnd chunksize => do
          let mode ← readReturn chunksize byte
          receive { state with mode := mode } later
      | .data chunksize _ =>
          let count := min (byte :: later).length chunksize
          receive ⟨.ofSize (chunksize - count), state.output ++ (byte :: later).take count⟩
            ((byte :: later).drop count)
      | .extension => .error .endless
  termination_by bytes => bytes.length
  decreasing_by
    all_goals simp only [List.length_drop, List.length_cons]
    all_goals omega

/-- The effect of a byte. -/
def step (state : ChunkyState) (byte : Byte) : Except ChunkyStop ChunkyState :=
  match state.mode with
  | .starts => (⟨·, state.output⟩) <$> readNumber 0 byte
  | .number chunksize => (⟨·, state.output⟩) <$> readNumber chunksize byte
  | .lineEnd chunksize => (⟨·, state.output⟩) <$> readReturn chunksize byte
  | .data chunksize _ => .ok ⟨.ofSize (chunksize - 1), state.output ++ [byte]⟩
  | .extension => .error .endless

/-- The number that some digits go on to, if an `int` holds what it is computed from. -/
def numberFrom (number : Nat) : List Byte → Option Nat
  | [] => some number
  | digit :: digits => do
      let value ← hexDigit digit
      if number * 16 + digit.toNat < 2147483648 then numberFrom (number * 16 + value) digits
      else none

/-- A chunk as a caster sends it: the digits of its size, what may follow them behind a semicolon,
and the data. -/
structure Chunk where
  digits : List Byte
  extension : Option (List Byte)
  data : List Byte
  sized : numberFrom 0 digits = some data.length

namespace Chunk

/-- The bytes between the size and the line end. -/
def extensionBytes (chunk : Chunk) : List Byte := chunk.extension.elim [] (0x3B :: ·)

/-- Its bytes. -/
def bytes (chunk : Chunk) : List Byte :=
  chunk.digits ++ (chunk.extensionBytes ++ ([0x0D, 0x0A] ++ (chunk.data ++ [0x0D, 0x0A])))

end Chunk

/-- Behind the header of the reply. What `recv` returned together with the header is not looked at
for chunks. -/
def initial : ChunkyState := ⟨.starts, []⟩

end ChunkyState

end Rsu.Drv
