import Rsu.Drv.Gps
import Rsu.Semantics.CString
import Rsu.Vam.Lip

/-!
# `cv_vam_lip_nmea.c`: the sentences of the receiver

`nmea_parse` looks at a sentence of a kind it knows if its check sum is right, and finds
the fields by the commas. The digits of the check sum may be any letters.
-/

namespace Rsu.Vam

open Rsu.Rcp Rsu.Drv Rsu.CString Rsu.Checked

/-- `','` -/
def comma : Byte := 0x2C

/-- `'*'` -/
def star : Byte := 0x2A

/-- `'.'` -/
def point : Byte := 0x2E

/-- `'\\r'` -/
def carriageReturn : Byte := 0x0D

/-- `e_nmea_type`, as far as sentences are looked at. -/
inductive ENmeaType where
  | gprmc
  | gpgsa
  | gpgga
  deriving DecidableEq

/-- The sentences that `memcmp` looks for. -/
def ENmeaType.header : ENmeaType → List Byte
  | gprmc => [0x24, 0x47, 0x50, 0x52, 0x4D, 0x43]
  | gpgsa => [0x24, 0x47, 0x50, 0x47, 0x53, 0x41]
  | gpgga => [0x24, 0x47, 0x50, 0x47, 0x47, 0x41]

/-- `CurPackType` -/
def curPackType (buff : List Byte) : Option ENmeaType :=
  if buff.take 6 = ENmeaType.gprmc.header then some .gprmc
  else if buff.take 6 = ENmeaType.gpgsa.header then some .gpgsa
  else if buff.take 6 = ENmeaType.gpgga.header then some .gpgga
  else none

/-- The exclusive or of bytes. -/
def xorBytes (bytes : List Byte) : Byte := bytes.foldl (· ^^^ ·) 0

/-- `crcCk` -/
def crcCk (buff : List Byte) (len : BitVec 32) : Byte :=
  xorBytes ((buff.take (len - 5).toNat).drop 1)

/-- The first digit of `crcCp`. -/
def crcHigh (char : Byte) : Option Byte :=
  if isDigit char then some ((char <<< 4) &&& 0xF0)
  else if isAlpha char then some (((char <<< 4) + 0x90) &&& 0xF0)
  else none

/-- The second digit of `crcCp`. -/
def crcLow (char : Byte) : Option Byte :=
  if isDigit char then some (char &&& 0x0F)
  else if isAlpha char then some ((char + 0x09) &&& 0x0F)
  else none

/-- `nmea_parse` up to the comparison of the check sums. -/
def nmeaAccept (buff : List Byte) (len : BitVec 32) : Search ENmeaType := do
  readable buff.length 0 6
  let curPackType ← accept (curPackType buff)
  if (← peek buff (len - 5).toNat) ≠ star then failure
  let high ← accept (crcHigh (← peek buff (len - 4).toNat))
  let low ← accept (crcLow (← peek buff (len - 3).toNat))
  if crcCk buff len ≠ high ||| low then failure
  return curPackType

/-- Jump over a comma to a field, and find the comma behind it. -/
def nmeaField (pStrS : List Byte) : Search (List Byte × List Byte) := do
  let pStrS ← strchr comma pStrS
  let pStrE ← strchr comma pStrS.tail
  return (pStrS.tail, pStrE)

/-- Two characters as a number. -/
def nmeaDigits (pStrS : List Byte) (distance : Nat) : Checked Int := do
  let first ← peek pStrS distance
  let second ← peek pStrS (distance + 1)
  return atoi [first, second]

/-- `nmea_rmc_time` -/
def nmeaRmcTime (pStrS : List Byte) (tt : TTime) : Checked TTime := do
  let hour ← nmeaDigits pStrS 0
  let min ← nmeaDigits pStrS 2
  let sec ← nmeaDigits pStrS 4
  let first ← peek pStrS 7
  let second ← peek pStrS 8
  let third ← peek pStrS 9
  return { tt with
    hour := BitVec.ofInt 8 hour
    min := BitVec.ofInt 8 min
    sec := BitVec.ofInt 8 sec
    diffsec := BitVec.ofInt 32 (atoi [first, second, third]) }

/-- `nmea_rmc_date` -/
def nmeaRmcDate (pStrS : List Byte) (tt : TTime) : Checked TTime := do
  let day ← nmeaDigits pStrS 0
  let mon ← nmeaDigits pStrS 2
  let year ← nmeaDigits pStrS 4
  return { tt with
    day := BitVec.ofInt 8 day
    mon := BitVec.ofInt 8 mon
    year := BitVec.ofInt 16 year + 2000 }

/-- The loop that takes at most `room` digits and points. -/
def copyMinutes : Nat → List Byte → Checked (List Byte)
  | 0, _ => .ok []
  | _ + 1, [] => .error .read
  | room + 1, char :: rest =>
      if isDigit char ∨ char = point then (char :: ·) <$> copyMinutes room rest else .ok []

/-- What `nmea_rmc_lat` and `nmea_rmc_lon` do not take: a field without its point, before
neither of the two letters. -/
def nmeaRefused (positive negative : Byte) (distance : Nat) (pStrS pStrE : List Byte) :
    Checked Bool := do
  let letter ← peek pStrE 1
  if letter ≠ positive ∧ letter ≠ negative then
    return (← peek pStrS distance) ≠ point
  else return false

/-- An angle whose degrees have `width` digits; `negative` behind it turns it around. -/
def nmeaAngle (positive negative : Byte) (width : Nat) (pStrS pStrE : List Byte) :
    Search ℚ := do
  if ← nmeaRefused positive negative (width + 2) pStrS pStrE then failure
  let degrees ← copyText 15 pStrS width
  let minutes ← copyMinutes 8 (pStrS.drop width)
  writable 15 0 minutes.length
  let angle := atoi degrees + atof minutes / 60
  return if (← peek pStrE 1) = negative then angle * -1 else angle

/-- `nmea_rmc_lat` -/
def nmeaRmcLat : List Byte → List Byte → Search ℚ := nmeaAngle 0x4E 0x53 2

/-- `nmea_rmc_lon` -/
def nmeaRmcLon : List Byte → List Byte → Search ℚ := nmeaAngle 0x45 0x57 3

/-- The characters up to the next comma, copied into an array. -/
def nmeaText (room : Nat) (pStrS pStrE : List Byte) : Checked (List Byte) :=
  copyText room pStrS (pStrS.length - pStrE.length)

/-- A time that nobody has set. -/
def TTime.unset : TTime := ⟨0, 0, 0, 0, 0, 0, 0⟩

/-- The branch of `nmea_parse` for a `$GPRMC` whose position is valid. -/
def rmcFix (buff : List Byte) : Search TNmeaRmc := do
  let (pStrS, pStrE) ← nmeaField buff
  let tt ← nmeaRmcTime pStrS .unset
  let (pStrS, pStrE) ← nmeaField pStrE.tail
  let latitude ← nmeaRmcLat pStrS pStrE
  let (pStrS, pStrE) ← nmeaField pStrE.tail
  let longitude ← nmeaRmcLon pStrS pStrE
  let (pStrS, pStrE) ← nmeaField pStrE.tail
  let speed ← nmeaText 10 pStrS pStrE
  let (pStrS, pStrE) ← nmeaField pStrS
  let heading ← nmeaText 10 pStrS pStrE
  let (pStrS, _) ← nmeaField pStrS
  let tt ← nmeaRmcDate pStrS tt
  return {
    isTrue := 1
    speed := atof speed * 1.852
    latitude
    longitude
    heading := atof heading
    tt }

/-- The branch of `nmea_parse` for `$GPRMC`, which gives no fix without a valid position. -/
def gprmc (buff : List Byte) : Search (Option TNmeaRmc) := do
  let (_, pStrS) ← nmeaField buff
  if (← peek pStrS.tail 0) = 0x41 then return some (← rmcFix buff)
  return none

/-- The loop over `count` commas. -/
def nmeaSkip : Nat → List Byte → Search (List Byte)
  | 0, pStrS => pure pStrS
  | count + 1, pStrS => do nmeaSkip count (← strchr comma pStrS.tail)

/-- The characters of a field of `$GPGSA`, if `Tmp` holds them. -/
def gsaText (pStrS : List Byte) : Search (List Byte) := do
  let pStrE ← strchr comma pStrS
  if pStrS.length - pStrE.length > 15 then failure
  nmeaText 16 pStrS pStrE

/-- A field of `$GPGSA`, which may be empty. -/
def gsaField (count : Nat) (buff : List Byte) : Search (Option (List Byte)) := do
  let pStrS ← nmeaSkip count buff
  if (← peek pStrS.tail 0) = comma then return none
  return some (← gsaText pStrS.tail)

/-- The branch of `nmea_parse` for `$GPGSA`, with the accuracy if it is good enough. -/
def gpgsa (buff : List Byte) : Search (Option ℚ) := do
  let some located ← gsaField 2 buff | return none
  if atoi located = 1 then return none
  let some accuracy ← gsaField 15 buff | return none
  return if atof accuracy > 49 then none else some (atof accuracy)

/-- `IsLocate` and `Issend` -/
structure NmeaEnvar where
  isLocate : Bool
  issend : Bool
  deriving DecidableEq

/-- The calls of `nmea_parse`. -/
inductive NmeaCall where
  | lipUpdateLocal (p_rmc : Option TNmeaRmc) (p_accu : Option ℚ)
  | sendGga (isLocate : Bool)
  deriving DecidableEq

/-- `nmea_parse` behind the check sum. -/
def nmeaInterpret (env : NmeaEnvar) (buff : List Byte) :
    ENmeaType → Search (NmeaEnvar × List NmeaCall)
  | .gprmc => do
      if !env.isLocate then failure
      match ← gprmc buff with
      | some rmc => return (env, [.lipUpdateLocal (some rmc) none])
      | none => return ({ env with isLocate := false }, [])
  | .gpgsa => do
      match ← gpgsa buff with
      | some accu => return ({ env with isLocate := true }, [.lipUpdateLocal none (some accu)])
      | none => return ({ env with isLocate := false }, [])
  | .gpgga =>
      if env.isLocate && !env.issend then
        return ({ env with issend := true }, [.sendGga env.isLocate])
      else return (env, [])

/-- `nmea_parse`. What returns early does nothing. -/
def nmeaParse (env : NmeaEnvar) (buff : List Byte) (len : BitVec 32) :
    Checked (NmeaEnvar × List NmeaCall) :=
  (Option.getD · (env, [])) <$> (nmeaAccept buff len >>= nmeaInterpret env buff).run

/-- The buffer that the driver posts with a line. -/
def nmeaBuffer (line : List Byte) : List Byte :=
  line ++ .replicate (gpsBuffSize - line.length) 0

/-- A line that is looked at has a known kind. -/
theorem curPackType_known {event : GpsEvent} {type : ENmeaType}
    (found : type ∈ curPackType event.buf.toList) : event.Known := by
  unfold curPackType at found
  unfold GpsEvent.Known
  split_ifs at found with gprmc gpgsa gpgga
  · exact gprmc ▸ List.mem_cons_self
  · exact gpgsa ▸ List.mem_cons_of_mem _ List.mem_cons_self
  · exact gpgga ▸ List.mem_cons_of_mem _ (List.mem_cons_of_mem _ List.mem_cons_self)
  · cases found

/-- The check sum of an event is looked at inside the buffer if the driver's is. -/
theorem nmeaAccept_inside {event : GpsEvent} (inside : event.ChecksumInside) :
    Yields (nmeaAccept event.buf.toList (BitVec.ofNat 32 event.len)) fun _ => True := by
  simp only [nmeaAccept, yields_bind, yields_lift, ends_readable, yields_accept]
  have size : event.buf.toList.length = gpsBuffSize := Vector.length_toList ..
  refine ⟨by rw [size]; decide, fun type found => ?_⟩
  have reads (back : Nat) (near : back ∈ [3, 4, 5]) :
      ∃ char, peek event.buf.toList (BitVec.ofNat 32 event.len - BitVec.ofNat 32 back).toNat =
        .ok char :=
    ⟨_, ends_peek (by rw [size]; exact inside (curPackType_known found) back near)⟩
  obtain ⟨mark, atMark⟩ := reads 5 (by decide)
  obtain ⟨high, atHigh⟩ := reads 4 (by decide)
  obtain ⟨low, atLow⟩ := reads 3 (by decide)
  refine ⟨mark, atMark, ?_⟩
  simp only [failure_bind, yields_ite, yields_failure, yields_bind, yields_lift, yields_accept,
    yields_pure, implies_true, true_and, and_true]
  exact fun _ => ⟨high, atHigh, fun _ _ => ⟨low, atLow, trivial⟩⟩

/-- A line from the dollar sign on, and its last five bytes. -/
def spelled (body : List Byte) (mark high low : Byte) : List Byte :=
  dollar :: (body ++ [mark, high, low, carriageReturn, newline])

/-- The line ends with the value of its bytes in two hexadecimal digits. -/
def Correct (line : List Byte) : Prop :=
  ∃ body high low, line = spelled body star high low ∧
    (isXDigit high ∧ isXDigit low) ∧ digitsValue 16 [high, low] = (xorBytes body).toNat

/-- `nmea_parse` goes on to interpret the line. -/
def Accepts (line : List Byte) : Prop :=
  ∃ type, (nmeaAccept (nmeaBuffer line) (BitVec.ofNat 32 line.length)).run = .ok (some type)

/-- The value that a digit or letter has in the arithmetic of the check sum: the letters of both
cases count on from ten, modulo sixteen. -/
def letterValue (char : Byte) : Option Nat :=
  if isDigit char then some (char.toNat % 16)
  else if isAlpha char then some ((char.toNat + 9) % 16)
  else none

/-- The line ends with two digits or letters that are not both hexadecimal, and their values
make up that of its bytes. -/
def Misread (line : List Byte) : Prop :=
  ∃ body high low, line = spelled body star high low ∧ ¬ (isXDigit high ∧ isXDigit low) ∧
    ∃ first ∈ letterValue high, ∃ second ∈ letterValue low,
      (xorBytes body).toNat = 16 * first + second

section Checksum

variable {line body : List Byte} {mark high low : Byte}

/-- What `crcCp` is put together of. -/
theorem crc_letterValue : ∀ char : Byte,
    crcHigh char = (letterValue char).map (fun value => BitVec.ofNat 8 (16 * value)) ∧
      crcLow char = (letterValue char).map (BitVec.ofNat 8) ∧
      ∀ value ∈ letterValue char, value < 16 := by
  decide +kernel

/-- The arithmetic is right for hexadecimal digits. -/
theorem letterValue_hex : ∀ char : Byte, isXDigit char = true →
    letterValue char = some (digitValue char) := by
  decide +kernel

/-- The value of two digits. -/
theorem digitsValue_two (high low : Byte) :
    digitsValue 16 [high, low] = 16 * digitValue high + digitValue low := by
  simp [digitsValue]

/-- Two digits or letters are put together to their values. -/
theorem crcCp_letters (sum high low : Byte) :
    (∃ first ∈ crcHigh high, ∃ second ∈ crcLow low, sum = first ||| second) ↔
      ∃ first ∈ letterValue high, ∃ second ∈ letterValue low, sum.toNat = 16 * first + second := by
  obtain ⟨highDigit, -, highBound⟩ := crc_letterValue high
  obtain ⟨-, lowDigit, lowBound⟩ := crc_letterValue low
  rw [highDigit, lowDigit]
  simp only [Option.mem_map, exists_exists_and_eq_and]
  refine exists_congr fun first => and_congr_right fun isFirst => exists_congr fun second =>
    and_congr_right fun isSecond => ?_
  have small := highBound first isFirst
  have below := lowBound second isSecond
  have value : (BitVec.ofNat 8 (16 * first) ||| BitVec.ofNat 8 second).toNat =
      2 ^ 4 * first + second := by
    rw [BitVec.toNat_or, BitVec.toNat_ofNat, BitVec.toNat_ofNat, Nat.mod_eq_of_lt (by omega),
      Nat.mod_eq_of_lt (by omega), Nat.two_pow_add_eq_or_of_lt below]
  rw [← BitVec.toNat_inj, value]
  exact Iff.rfl

/-- A spelled line is six bytes longer than its body. -/
theorem spelled_length (body : List Byte) (mark high low : Byte) :
    (spelled body mark high low).length = body.length + 6 := by
  simp [spelled]

theorem nmeaBuffer_length (short : line.length ≤ gpsBuffSize) :
    (nmeaBuffer line).length = gpsBuffSize := by
  simp [nmeaBuffer, short]

/-- A distance from the end of a line. -/
theorem place_back {back : BitVec 32} (short : line.length ≤ gpsBuffSize)
    (inside : back.toNat ≤ line.length) :
    (BitVec.ofNat 32 line.length - back).toNat = line.length - back.toNat := by
  simp only [gpsBuffSize] at short
  bv_omega

/-- The character in front of the rest of a line. -/
theorem peek_back {front rest : List Byte} {char : Byte} (back : BitVec 32)
    (same : line = front ++ char :: rest) (short : line.length ≤ gpsBuffSize)
    (place : back.toNat = rest.length + 1) :
    peek (nmeaBuffer line) (BitVec.ofNat 32 line.length - back).toNat = .ok char := by
  have length : line.length = front.length + (rest.length + 1) := by
    rw [same, List.length_append, List.length_cons]
  rw [place_back short (by omega), nmeaBuffer, same, List.append_assoc, List.cons_append]
  exact peek_behind front char _ (by rw [← same]; omega)

/-- The bytes that the check sum is made of. -/
theorem crcCk_spelled (short : body.length + 6 ≤ gpsBuffSize) :
    crcCk (nmeaBuffer (spelled body mark high low))
      (BitVec.ofNat 32 (spelled body mark high low).length) = xorBytes body := by
  have length := spelled_length body mark high low
  have front : (nmeaBuffer (spelled body mark high low)).take (body.length + 1) =
      dollar :: body := by
    simp [nmeaBuffer, spelled]
  rw [crcCk, place_back (by omega) (by rw [length]; exact Nat.le_add_left 5 _), length]
  exact congrArg (fun bytes => xorBytes (bytes.drop 1)) front

/-- What the last five bytes of a line are tested for. -/
theorem nmeaAccept_spelled (short : body.length + 6 ≤ gpsBuffSize) :
    let line := spelled body mark high low
    (nmeaAccept (nmeaBuffer line) (BitVec.ofNat 32 line.length)).run = .ok do
      let type ← curPackType (nmeaBuffer line)
      guard (mark = star)
      let first ← crcHigh high
      let second ← crcLow low
      guard (xorBytes body = first ||| second)
      return type := by
  intro line
  have inside : line.length ≤ gpsBuffSize := spelled_length body mark high low ▸ short
  have markPlace : line = (dollar :: body) ++ mark :: [high, low, carriageReturn, newline] := rfl
  have highPlace : line =
      (dollar :: (body ++ [mark])) ++ high :: [low, carriageReturn, newline] := by
    simp [line, spelled]
  have lowPlace : line =
      (dollar :: (body ++ [mark, high])) ++ low :: [carriageReturn, newline] := by
    simp [line, spelled]
  have header : readable (nmeaBuffer line).length 0 6 = .ok () := by
    rw [nmeaBuffer_length inside]
    rfl
  simp only [nmeaAccept, header, peek_back 5 markPlace inside rfl, peek_back 4 highPlace inside rfl,
    peek_back 3 lowPlace inside rfl, line, crcCk_spelled short, lift_ok_bind]
  cases curPackType (nmeaBuffer (spelled body mark high low)) with
  | none => rfl
  | some type =>
      by_cases marked : mark = star
      · subst marked
        cases crcHigh high with
        | none => rfl
        | some first =>
            cases crcLow low with
            | none => rfl
            | some second =>
                by_cases same : xorBytes body = first ||| second
                · simp only [accept_some_bind, same, ne_eq, not_true, if_false]
                  simp
                  rfl
                · have stopped : (guard (xorBytes body = first ||| second) : Option Unit) = none :=
                    if_neg same
                  simp only [accept_some_bind, ne_eq, not_true, if_pos same, if_false,
                    Option.bind_eq_bind, Option.bind_some, stopped]
                  rfl
      · simp only [accept_some_bind, guard, marked, ne_eq, not_false_iff, if_true, if_false]
        rfl

/-- What a line of a known kind is accepted for. -/
theorem accepts_spelled (short : body.length + 6 ≤ gpsBuffSize)
    (known : (curPackType (nmeaBuffer (spelled body mark high low))).isSome) :
    Accepts (spelled body mark high low) ↔
      mark = star ∧ ∃ first ∈ letterValue high, ∃ second ∈ letterValue low,
        (xorBytes body).toNat = 16 * first + second := by
  obtain ⟨type, found⟩ := Option.isSome_iff_exists.1 known
  rw [Accepts, nmeaAccept_spelled short, found, ← crcCp_letters]
  simp [Option.bind_eq_some_iff]

/-- The last five bytes of a line are its own. -/
theorem spelled_inj {otherBody : List Byte} {otherMark otherHigh otherLow : Byte}
    (same : spelled body mark high low = spelled otherBody otherMark otherHigh otherLow) :
    body = otherBody ∧ mark = otherMark ∧ high = otherHigh ∧ low = otherLow := by
  obtain ⟨-, tails⟩ := List.cons.inj same
  obtain ⟨rfl, ends⟩ := List.append_inj' tails rfl
  simpa using ends

/-- The buffer begins as the line does. -/
theorem curPackType_buffer (long : 6 ≤ line.length) :
    curPackType (nmeaBuffer line) = curPackType line := by
  rw [curPackType, nmeaBuffer, List.take_append_of_le_length long]
  rfl

/-- A line of a known kind that ends as it should begins with a dollar sign, and its last
five bytes are told apart. -/
theorem line_spelled (long : 11 ≤ line.length) (known : (curPackType line).isSome)
    (ends : [carriageReturn, newline] <:+ line) :
    ∃ body mark high low, line = spelled body mark high low := by
  have last (bytes : List Byte) (some : bytes ≠ []) : ∃ front byte, bytes = front ++ [byte] :=
    ⟨_, _, (List.dropLast_append_getLast some).symm⟩
  have dollar_first : ∃ rest, line = dollar :: rest := by
    have shape : ∃ type : ENmeaType, line.take 6 = type.header := by
      unfold curPackType at known
      split_ifs at known with gprmc gpgsa gpgga
      · exact ⟨_, gprmc⟩
      · exact ⟨_, gpgsa⟩
      · exact ⟨_, gpgga⟩
      · cases known
    obtain ⟨type, header⟩ := shape
    cases line with
    | nil => cases long
    | cons first rest =>
        refine ⟨rest, congrArg (· :: rest) ?_⟩
        cases type <;> exact (List.cons.inj header).1
  obtain ⟨rest, rfl⟩ := dollar_first
  obtain ⟨front, same⟩ := ends
  cases front with
  | nil => cases same
  | cons first front =>
      obtain ⟨rfl, rfl⟩ := List.cons.inj same
      obtain ⟨front, low, rfl⟩ := last front (by rintro rfl; contradiction)
      obtain ⟨front, high, rfl⟩ := last front (by rintro rfl; contradiction)
      obtain ⟨body, mark, rfl⟩ := last front (by rintro rfl; contradiction)
      exact ⟨body, mark, high, low, by simp [spelled]⟩

/-- A line with a right check sum is accepted for what it is. -/
theorem Correct.accepted (correct : Correct line) (short : line.length ≤ gpsBuffSize) :
    (nmeaAccept (nmeaBuffer line) (BitVec.ofNat 32 line.length)).run = .ok (curPackType line) := by
  obtain ⟨body, high, low, rfl, ⟨first_digit, second_digit⟩, value⟩ := correct
  have length := spelled_length body star high low
  have long : 6 ≤ (spelled body star high low).length := length ▸ Nat.le_add_left 6 _
  rw [digitsValue_two] at value
  obtain ⟨first, isFirst, second, isSecond, sum⟩ := (crcCp_letters (xorBytes body) high low).2
    ⟨_, letterValue_hex high first_digit, _, letterValue_hex low second_digit, value.symm⟩
  rw [nmeaAccept_spelled (length ▸ short), isFirst, isSecond, curPackType_buffer long]
  cases curPackType (spelled body star high low) <;> simp [sum]

/-- A check sum that is misread is accepted, and it is not right. -/
theorem Misread.differs (misread : Misread line) (short : line.length ≤ gpsBuffSize)
    (known : (curPackType (nmeaBuffer line)).isSome) : Accepts line ∧ ¬ Correct line := by
  obtain ⟨body, high, low, rfl, wrong, accepted⟩ := misread
  refine ⟨(accepts_spelled (spelled_length body star high low ▸ short) known).2 ⟨rfl, accepted⟩, ?_⟩
  rintro ⟨_, _, _, again, digits, -⟩
  obtain ⟨-, -, rfl, rfl⟩ := spelled_inj again
  exact wrong digits

end Checksum

/-- Exactly the right check sums are accepted, but for lines whose two digits are not
hexadecimal and stand for the right value in the arithmetic all the same. -/
theorem accepts_correct_iff (line : List Byte) (long : 11 ≤ line.length)
    (short : line.length ≤ gpsBuffSize) (known : (curPackType line).isSome)
    (ends : [carriageReturn, newline] <:+ line) :
    (Accepts line ↔ Correct line) ↔ ¬ Misread line := by
  have buffer : (curPackType (nmeaBuffer line)).isSome := by
    rwa [curPackType_buffer (le_trans (by decide) long)]
  constructor
  · intro agrees misread
    obtain ⟨accepted, incorrect⟩ := misread.differs short buffer
    exact incorrect (agrees.1 accepted)
  · intro read
    obtain ⟨type, found⟩ := Option.isSome_iff_exists.1 known
    refine ⟨fun accepted => ?_, fun correct => ⟨type, found ▸ correct.accepted short⟩⟩
    obtain ⟨body, mark, high, low, rfl⟩ := line_spelled long known ends
    have small : body.length + 6 ≤ gpsBuffSize := spelled_length body mark high low ▸ short
    obtain ⟨rfl, first, isFirst, second, isSecond, same⟩ := (accepts_spelled small buffer).1 accepted
    have digits : isXDigit high ∧ isXDigit low := by
      by_contra wrong
      exact read ⟨body, high, low, rfl, wrong, first, isFirst, second, isSecond, same⟩
    cases Option.mem_unique isFirst (letterValue_hex high digits.1)
    cases Option.mem_unique isSecond (letterValue_hex low digits.2)
    exact ⟨body, high, low, rfl, digits, by rw [digitsValue_two, same]⟩

/-- `$GPGGA*5M`: the letter is taken for the 6 that belongs there. -/
def letterLine : List Byte :=
  [0x24, 0x47, 0x50, 0x47, 0x47, 0x41, 0x2A, 0x35, 0x4D, 0x0D, 0x0A]

/-- The line is misread. -/
theorem letterLine_misread : Misread letterLine :=
  ⟨[0x47, 0x50, 0x47, 0x47, 0x41], 0x35, 0x4D, rfl, by decide, 5, rfl, 6, rfl, rfl⟩

/-- The condition decides about this line. -/
theorem accepts_correct_letterLine :
    (Accepts letterLine ↔ Correct letterLine) ↔ ¬ Misread letterLine :=
  accepts_correct_iff letterLine (by decide) (by decide) (by decide)
    ⟨letterLine.take 9, rfl⟩

/-- The letter is accepted. -/
theorem letterLine_differs :
    ¬ ∀ line : List Byte, 11 ≤ line.length → line.length ≤ gpsBuffSize →
      (curPackType line).isSome → [carriageReturn, newline] <:+ line →
        (Accepts line ↔ Correct line) := by
  intro claimed
  obtain ⟨accepted, incorrect⟩ := letterLine_misread.differs (by decide) (by decide)
  exact incorrect ((claimed letterLine (by decide) (by decide) (by decide)
    ⟨letterLine.take 9, rfl⟩).1 accepted)

end Rsu.Vam
