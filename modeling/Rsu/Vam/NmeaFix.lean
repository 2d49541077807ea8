import Rsu.Vam.NmeaBounds

/-!
# The fixes of `nmea_parse`

A sentence that is written as it should be gives the fix it is written for. One whose
angles are not followed by their letters or lack the point at its place gives one all the
same, unless an angle lacks both.
-/

namespace Rsu.Vam

open Rsu.Rcp Rsu.Drv Rsu.CString Rsu.Checked

/-- Decimal digits of a fixed number. -/
structure Numeral (width : Nat) where
  digits : List Byte
  all : Digits digits
  length : digits.length = width

/-- The number that digits stand for. -/
def Numeral.value {width : Nat} (numeral : Numeral width) : Nat := digitsValue 10 numeral.digits

/-- Degrees and minutes, and whether the letter is `S` or `W`. -/
structure Angle (width : Nat) where
  degrees : Numeral width
  whole : Numeral 2
  parts : List Byte
  partsDigits : Digits parts
  short : parts.length ≤ 5
  opposite : Bool

namespace Angle

variable {width : Nat}

/-- The minutes. -/
def minutes (angle : Angle width) : Decimal where
  negative := false
  whole := angle.whole.digits
  parts := some angle.parts
  wholeDigits := angle.whole.all
  partsDigits := by
    rintro digits ⟨rfl⟩
    exact angle.partsDigits

/-- The field of an angle. -/
def text (angle : Angle width) : List Byte := angle.degrees.digits ++ angle.minutes.text

/-- The angle in degrees. -/
def value (angle : Angle width) : ℚ :=
  (if angle.opposite then -1 else 1) * (angle.degrees.value + angle.minutes.value / 60)

end Angle

/-- The fields of a fix as they should be written. -/
structure Fix where
  hour : Numeral 2
  min : Numeral 2
  sec : Numeral 2
  parts : List Byte
  partsDigits : Digits parts
  latitude : Angle 2
  longitude : Angle 3
  speed : Decimal
  speedShort : speed.text.length ≤ 9
  course : Decimal
  courseShort : course.text.length ≤ 9
  day : Numeral 2
  mon : Numeral 2
  year : Numeral 2

namespace Fix

/-- The field of the time; the parts of the second may be missing. -/
def timeText (fix : Fix) : List Byte :=
  fix.hour.digits ++ fix.min.digits ++ fix.sec.digits ++
    if fix.parts = [] then [] else point :: fix.parts

/-- The field of the date. -/
def dateText (fix : Fix) : List Byte := fix.day.digits ++ fix.mon.digits ++ fix.year.digits

/-- The letter behind the latitude. -/
def northSouth (fix : Fix) : Byte := if fix.latitude.opposite then 0x53 else 0x4E

/-- The letter behind the longitude. -/
def eastWest (fix : Fix) : Byte := if fix.longitude.opposite then 0x57 else 0x45

/-- The fields from the time on. -/
def fields (fix : Fix) : List (List Byte) :=
  [fix.timeText, [0x41], fix.latitude.text, [fix.northSouth], fix.longitude.text, [fix.eastWest],
    fix.speed.text, fix.course.text, fix.dateText]

/-- The sentence, with what is behind the date. -/
def line (fix : Fix) (rest : List Byte) : List Byte :=
  ENmeaType.gprmc.header ++
    fix.fields.foldr (fun field behind => comma :: (field ++ behind)) (comma :: rest)

/-- The fix that is written. Of the parts of the second, three digits count. -/
def rmc (fix : Fix) : TNmeaRmc where
  isTrue := 1
  speed := fix.speed.value * 1.852
  latitude := fix.latitude.value
  longitude := fix.longitude.value
  heading := fix.course.value
  tt :=
    { year := BitVec.ofNat 16 (2000 + fix.year.value)
      mon := BitVec.ofNat 8 fix.mon.value
      day := BitVec.ofNat 8 fix.day.value
      hour := BitVec.ofNat 8 fix.hour.value
      min := BitVec.ofNat 8 fix.min.value
      sec := BitVec.ofNat 8 fix.sec.value
      diffsec := BitVec.ofNat 32 (digitsValue 10 (fix.parts.take 3)) }

end Fix

/-- The characters of a text in front of the next comma. -/
def fieldOf (text : List Byte) : List Byte := text.takeWhile (· ≠ comma)

/-- Both angles have the point at its place, and one of their letters behind them. -/
def WellPlaced (buff : List Byte) : Prop :=
  match behind comma buff with
  | _ :: _ :: latitude :: northSouth :: longitude :: eastWest :: _ =>
      (northSouth.head? = some 0x4E ∨ northSouth.head? = some 0x53) ∧
        (eastWest.head? = some 0x45 ∨ eastWest.head? = some 0x57) ∧
          (fieldOf latitude)[4]? = some point ∧ (fieldOf longitude)[5]? = some point
  | _ => False

section Reading

variable {field rest : List Byte}

/-- A field between two commas. -/
theorem nmeaField_found {front : List Byte} (clean : Clean comma front)
    (fieldClean : Clean comma field) (rest : List Byte) :
    nmeaField (front ++ comma :: (field ++ comma :: rest)) =
      pure (field ++ comma :: rest, comma :: rest) := by
  have first := strchr_found clean (field ++ comma :: rest)
  have second := strchr_found fieldClean rest
  have firstSame : strchr comma (front ++ comma :: (field ++ comma :: rest)) =
      pure (comma :: (field ++ comma :: rest)) := first
  have secondSame : strchr comma (field ++ comma :: rest) = pure (comma :: rest) := second
  rw [nmeaField, firstSame, pure_bind, List.tail_cons, secondSame, pure_bind]

/-- A field that fits into its array is copied. -/
theorem nmeaText_found {room : Nat} (fits : field.length + 1 ≤ room) (rest : List Byte) :
    nmeaText room (field ++ comma :: rest) (comma :: rest) = .ok field := by
  rw [nmeaText_eq rfl (by simp; omega)]
  refine congrArg _ (List.take_left' ?_)
  simp

/-- The loop takes the digits and points in front of a comma. -/
theorem copyMinutes_all {minutes : List Byte} {room : Nat}
    (all : ∀ char ∈ minutes, isDigit char = true ∨ char = point) (few : minutes.length ≤ room)
    (rest : List Byte) : copyMinutes room (minutes ++ comma :: rest) = .ok minutes := by
  induction minutes generalizing room with
  | nil =>
      cases room with
      | zero => rfl
      | succ room => rfl
  | cons first minutes inductionHypothesis =>
      obtain ⟨first_plain, plain⟩ := List.forall_mem_cons.1 all
      cases room with
      | zero => cases few
      | succ room =>
          rw [List.cons_append, copyMinutes, if_pos first_plain,
            inductionHypothesis plain (Nat.le_of_succ_le_succ few)]
          rfl

/-- The whole of a numeral is read. -/
theorem Numeral.atoi_digits {width : Nat} (numeral : Numeral width) (wide : 0 < width) :
    atoi numeral.digits = numeral.value := by
  have some : numeral.digits ≠ [] :=
    List.ne_nil_of_length_pos (by rw [numeral.length]; exact wide)
  have read := CString.atoi_digits numeral.all some stops_nil
  rwa [List.append_nil] at read

/-- The two characters of a numeral, and the word that is made of them. -/
theorem Numeral.pair (numeral : Numeral 2) :
    ∃ first second, numeral.digits = [first, second] ∧
      ∀ w, BitVec.ofInt w (atoi [first, second]) = BitVec.ofNat w numeral.value := by
  obtain ⟨first, second, two⟩ := List.length_eq_two.1 numeral.length
  refine ⟨first, second, two, fun w => ?_⟩
  rw [← two, numeral.atoi_digits (by decide), BitVec.ofInt_natCast]

namespace Angle

variable {width : Nat} (angle : Angle width)

/-- The minutes have at most eight characters. -/
theorem minutes_short : angle.minutes.text.length ≤ 8 := by
  have length : angle.minutes.text.length = 2 + (angle.parts.length + 1) := by
    simp [Decimal.text, Decimal.body, Decimal.tail, minutes, angle.whole.length]
  have short := angle.short
  omega

/-- The degrees of an angle, and a place behind them for a zero. -/
theorem copy_degrees (wide : width ≤ 3) (rest : List Byte) :
    copyText 15 (angle.text ++ rest) width = .ok angle.degrees.digits := by
  have front : (angle.text ++ rest).take width = angle.degrees.digits := by
    rw [text, List.append_assoc]
    exact List.take_left' angle.degrees.length
  have long : 0 + width ≤ (angle.text ++ rest).length := by
    simp [text, angle.degrees.length]
  rw [copyText, readable_bind long, writable_bind (by omega), front]
  rfl

/-- The minutes of an angle, up to the comma. -/
theorem copy_minutes (rest : List Byte) :
    copyMinutes 8 ((angle.text ++ comma :: rest).drop width) = .ok angle.minutes.text := by
  have behind : (angle.text ++ comma :: rest).drop width = angle.minutes.text ++ comma :: rest := by
    rw [text, List.append_assoc]
    exact List.drop_left' angle.degrees.length
  rw [behind]
  exact copyMinutes_all angle.minutes.body_chars angle.minutes_short rest

end Angle

/-- An angle is read with its letter. -/
theorem nmeaAngle_text {width : Nat} (angle : Angle width) (wide : 0 < width ∧ width ≤ 3)
    {positive negative letter : Byte} (differ : positive ≠ negative)
    (same : letter = if angle.opposite then negative else positive) (rest : List Byte) :
    nmeaAngle positive negative width (angle.text ++ comma :: ([letter] ++ rest))
      (comma :: ([letter] ++ rest)) = pure angle.value := by
  rw [List.singleton_append]
  have looked : peek (comma :: letter :: rest) 1 = .ok letter := rfl
  have taken : nmeaRefused positive negative (width + 2) (angle.text ++ comma :: letter :: rest)
      (comma :: letter :: rest) = .ok false := by
    rw [nmeaRefused, looked, ok_bind, if_neg]
    · rfl
    · rw [same]
      split <;> simp
  have room : writable 15 0 angle.minutes.text.length = .ok () :=
    if_pos (by rw [Nat.zero_add]; exact le_trans angle.minutes_short (by decide))
  have sign : (if letter = negative then -1 else 1 : ℚ) = if angle.opposite then -1 else 1 := by
    rw [same]
    cases angle.opposite with
    | true => exact if_pos rfl
    | false => exact if_neg differ
  simp only [nmeaAngle, taken, angle.copy_degrees wide.2, angle.copy_minutes, looked, room,
    lift_ok_bind, Bool.false_eq_true, if_false, angle.degrees.atoi_digits wide.1, Decimal.atof_text,
    Angle.value, ← sign]
  split <;> simp

namespace Fix

/-- The date is read from its six digits. -/
theorem nmeaRmcDate_text (fix : Fix) (rest : List Byte) (tt : TTime) :
    nmeaRmcDate (fix.dateText ++ rest) tt = .ok { tt with
      day := BitVec.ofNat 8 fix.day.value
      mon := BitVec.ofNat 8 fix.mon.value
      year := BitVec.ofNat 16 fix.year.value + 2000 } := by
  obtain ⟨day1, day2, day, dayValue⟩ := fix.day.pair
  obtain ⟨mon1, mon2, mon, monValue⟩ := fix.mon.pair
  obtain ⟨year1, year2, year, yearValue⟩ := fix.year.pair
  rw [dateText, day, mon, year, ← dayValue, ← monValue, ← yearValue]
  rfl

/-- Behind the six digits of the time are a character and then three that begin with the
digits that count, if there are any. -/
theorem parts_read (fix : Fix) (char : Byte) (rest : List Byte) :
    ∃ mark first second third more,
      (if fix.parts = [] then [] else point :: fix.parts) ++ comma :: 0x41 :: comma :: char :: rest =
        mark :: first :: second :: third :: more ∧
      atoi [first, second, third] = digitsValue 10 (fix.parts.take 3) := by
  by_cases whole : fix.parts = []
  · rw [whole]
    exact ⟨comma, 0x41, comma, char, rest, rfl, rfl⟩
  · obtain ⟨first, second, third, more, layout⟩ : ∃ first second third more,
        fix.parts ++ comma :: 0x41 :: comma :: char :: rest = first :: second :: third :: more := by
      rcases parts : fix.parts with _ | ⟨first, _ | ⟨second, _ | ⟨third, behind⟩⟩⟩
      · exact absurd parts whole
      · exact ⟨_, _, _, _, rfl⟩
      · exact ⟨_, _, _, _, rfl⟩
      · exact ⟨_, _, _, _, rfl⟩
    refine ⟨point, first, second, third, more, ?_, ?_⟩
    · rw [if_neg whole, List.cons_append, layout]
    · have three := congrArg (List.take 3) layout
      rw [List.take_append] at three
      have all : Digits (fix.parts.take 3) :=
        fun digit found => fix.partsDigits digit (List.mem_of_mem_take found)
      have some : fix.parts.take 3 ≠ [] := by simp [whole]
      have stops (count : Nat) : Stops ((comma :: 0x41 :: comma :: char :: rest).take count) := by
        cases count with
        | zero => exact stops_nil
        | succ count => exact stops_cons.2 rfl
      have read := atoi_digits all some (stops (3 - fix.parts.length))
      rw [three] at read
      exact read

/-- The time is read from its six digits and from the parts of the second. -/
theorem nmeaRmcTime_text (fix : Fix) {rest : List Byte} (some : rest ≠ []) (tt : TTime) :
    nmeaRmcTime (fix.timeText ++ comma :: ([0x41] ++ comma :: rest)) tt = .ok { tt with
      hour := BitVec.ofNat 8 fix.hour.value
      min := BitVec.ofNat 8 fix.min.value
      sec := BitVec.ofNat 8 fix.sec.value
      diffsec := BitVec.ofNat 32 (digitsValue 10 (fix.parts.take 3)) } := by
  obtain ⟨hour1, hour2, hour, hourValue⟩ := fix.hour.pair
  obtain ⟨min1, min2, min, minValue⟩ := fix.min.pair
  obtain ⟨sec1, sec2, sec, secValue⟩ := fix.sec.pair
  obtain ⟨char, rest, rfl⟩ := List.exists_cons_of_ne_nil some
  obtain ⟨mark, first, second, third, more, layout, parts⟩ := fix.parts_read char rest
  rw [timeText, List.append_assoc, List.singleton_append, layout, hour, min, sec, ← hourValue,
    ← minValue, ← secValue, ← BitVec.ofInt_natCast, ← parts]
  rfl

/-- Digits are no comma. -/
theorem digits_clean {digits : List Byte} (all : Digits digits) : Clean comma digits := by
  constructor <;> intro found <;> cases all _ found

/-- A decimal has no comma. -/
theorem decimal_clean (decimal : Decimal) : Clean comma decimal.text := by
  have other {char : Byte} (found : char ∈ decimal.body) : char ≠ comma ∧ char ≠ 0 := by
    rcases decimal.body_chars char found with digit | rfl
    · constructor <;> rintro rfl <;> cases digit
    · decide
  have body : Clean comma decimal.body :=
    ⟨fun found => (other found).1 rfl, fun found => (other found).2 rfl⟩
  refine (clean_append _ _).2 ⟨?_, body⟩
  split
  · constructor <;> decide
  · exact clean_nil comma

/-- An angle has none. -/
theorem angle_clean {width : Nat} (angle : Angle width) : Clean comma angle.text :=
  (clean_append _ _).2 ⟨digits_clean angle.degrees.all, decimal_clean angle.minutes⟩

theorem timeText_clean (fix : Fix) : Clean comma fix.timeText := by
  simp only [timeText, clean_append]
  refine ⟨⟨⟨digits_clean fix.hour.all, digits_clean fix.min.all⟩, digits_clean fix.sec.all⟩, ?_⟩
  split
  · exact clean_nil comma
  · exact clean_cons.2 ⟨by decide, by decide, digits_clean fix.partsDigits⟩

theorem dateText_clean (fix : Fix) : Clean comma fix.dateText := by
  simp only [dateText, clean_append]
  exact ⟨⟨digits_clean fix.day.all, digits_clean fix.mon.all⟩, digits_clean fix.year.all⟩

theorem letter_clean (opposite : Bool) {positive negative : Byte}
    (clean : Clean comma [positive, negative]) :
    Clean comma [if opposite then negative else positive] := by
  simp only [clean_cons] at clean ⊢
  cases opposite with
  | true => exact clean.2.2
  | false => exact ⟨clean.1, clean.2.1, clean_nil comma⟩

theorem header_clean : Clean comma ENmeaType.gprmc.header := by
  constructor <;> decide

/-- A fix is read from its sentence. -/
theorem rmcFix_line (fix : Fix) (rest : List Byte) : rmcFix (fix.line rest) = pure fix.rmc := by
  have status : Clean comma [0x41] := by constructor <;> decide
  have latitude := angle_clean fix.latitude
  have longitude := angle_clean fix.longitude
  have northSouth : Clean comma [fix.northSouth] := letter_clean _ (by constructor <;> decide)
  have eastWest : Clean comma [fix.eastWest] := letter_clean _ (by constructor <;> decide)
  have speed := decimal_clean fix.speed
  have course := decimal_clean fix.course
  have southLetter : fix.northSouth = if fix.latitude.opposite then 0x53 else 0x4E := rfl
  have westLetter : fix.eastWest = if fix.longitude.opposite then 0x57 else 0x45 := rfl
  simp only [rmcFix, line, fields, List.foldr_cons, List.foldr_nil, nmeaRmcLat, nmeaRmcLon]
  rw [nmeaField_found header_clean fix.timeText_clean, pure_bind]
  dsimp only
  rw [fix.nmeaRmcTime_text (by simp), lift_ok_bind, List.tail_cons,
    nmeaField_found status latitude, pure_bind]
  dsimp only
  rw [nmeaAngle_text fix.latitude (by decide) (by decide) southLetter, pure_bind, List.tail_cons,
    nmeaField_found northSouth longitude, pure_bind]
  dsimp only
  rw [nmeaAngle_text fix.longitude (by decide) (by decide) westLetter, pure_bind, List.tail_cons,
    nmeaField_found eastWest speed, pure_bind]
  dsimp only
  rw [nmeaText_found (Nat.succ_le_succ fix.speedShort), lift_ok_bind, nmeaField_found speed course,
    pure_bind]
  dsimp only
  rw [nmeaText_found (Nat.succ_le_succ fix.courseShort), lift_ok_bind,
    nmeaField_found course fix.dateText_clean, pure_bind]
  dsimp only
  rw [nmeaRmcDate_text, lift_ok_bind, Decimal.atof_text, Decimal.atof_text]
  rw [rmc, Nat.add_comm 2000, BitVec.ofNat_add]
  rfl

/-- The status lets the fix be read. -/
theorem gprmc_line (fix : Fix) (rest : List Byte) :
    gprmc (fix.line rest) = pure (some fix.rmc) := by
  have found := nmeaField_found header_clean fix.timeText_clean
  have valid (behind : List Byte) : peek ((comma :: ([0x41] ++ behind)).tail) 0 = .ok 0x41 := rfl
  rw [gprmc, rmcFix_line]
  simp only [line, fields, List.foldr_cons, found, pure_bind, valid, lift_ok_bind, if_true]

/-- The buffer of a sentence is a sentence with more behind it. -/
theorem nmeaBuffer_line (fix : Fix) (rest : List Byte) :
    ∃ more, nmeaBuffer (fix.line rest) = fix.line more := by
  refine ⟨rest ++ .replicate (gpsBuffSize - (fix.line rest).length) 0, ?_⟩
  simp [nmeaBuffer, line, fields]

/-- A sentence that is written as it should be gives its fix, and nothing else. -/
theorem nmeaParse_line (fix : Fix) {rest : List Byte} (env : NmeaEnvar) (located : env.isLocate)
    (short : (fix.line rest).length ≤ gpsBuffSize) (correct : Correct (fix.line rest)) :
    nmeaParse env (nmeaBuffer (fix.line rest)) (BitVec.ofNat 32 (fix.line rest).length) =
      .ok (env, [.lipUpdateLocal (some fix.rmc) none]) := by
  have kind : curPackType (fix.line rest) = some .gprmc := if_pos rfl
  have accepted := (correct.accepted short).trans (congrArg Except.ok kind)
  obtain ⟨more, buffer⟩ := fix.nmeaBuffer_line rest
  rw [nmeaParse, run_bind_some accepted, nmeaInterpret, buffer, gprmc_line, located]
  rfl

end Fix

end Reading

/-- A sentence makes no call exactly if its accesses stay inside and never end in a fix. -/
theorem silent_iff {line : List Byte} {env : NmeaEnvar} (located : env.isLocate)
    (short : line.length ≤ gpsBuffSize) (kind : curPackType line = some .gprmc)
    (correct : Correct line) :
    (Ends (nmeaParse env (nmeaBuffer line) (BitVec.ofNat 32 line.length)) fun out => out.2 = []) ↔
      RmcBounded (nmeaBuffer line) False := by
  rw [nmeaParse, @ends_getD _ _ (env, []) (fun out => out.2 = []) rfl, yields_bind, Yields,
    correct.accepted short, ends_ok, kind, ← yields_gprmc (Reached.start correct)]
  simp only [Option.mem_some_iff, forall_eq', nmeaInterpret, located, Bool.not_true,
    Bool.false_eq_true, if_false, yields_bind]
  refine yields_congr fun rmc => ?_
  cases rmc with
  | none => simp
  | some rmc => simp

/-- A sentence that is written as it should be makes exactly its call, and one whose points
or letters are not in their places makes none, exactly if no such sentence ends in a fix. -/
theorem nmeaParse_fix_iff (line : List Byte) (env : NmeaEnvar) (located : env.isLocate)
    (short : line.length ≤ gpsBuffSize) (kind : curPackType line = some .gprmc)
    (correct : Correct line) :
    ((∀ fix rest, line = Fix.line fix rest →
        nmeaParse env (nmeaBuffer line) (BitVec.ofNat 32 line.length) =
          .ok (env, [.lipUpdateLocal (some fix.rmc) none])) ∧
      (¬ WellPlaced (nmeaBuffer line) →
        Ends (nmeaParse env (nmeaBuffer line) (BitVec.ofNat 32 line.length)) fun out =>
          out.2 = [])) ↔
      (¬ WellPlaced (nmeaBuffer line) → RmcBounded (nmeaBuffer line) False) := by
  rw [silent_iff located short kind correct]
  refine and_iff_right ?_
  rintro fix rest rfl
  exact fix.nmeaParse_line env located short correct

/-- Of the sentences with all ten commas, only these give no fix. -/
theorem rmcBounded_false_iff {buff time status latitude northSouth longitude eastWest speed course
    date rest : List Byte} {more : List (List Byte)}
    (found : behind comma buff = time :: status :: latitude :: northSouth :: longitude ::
      eastWest :: speed :: course :: date :: rest :: more)
    (late : 10 ≤ time.length) (speedFits : speed.length ≤ course.length + 10)
    (courseFits : course.length ≤ date.length + 10) :
    RmcBounded buff False ↔
      status.head? ≠ some 0x41 ∨ Refused 0x4E 0x53 4 latitude northSouth ∨
        Refused 0x45 0x57 5 longitude eastWest := by
  simp only [RmcBounded, FixBounded, Hops, found, late, speedFits, courseFits, true_and]
  tauto

/-- The first of January 2020, 01:02:03, at 12.5 knots to the east. -/
def placedFix : Fix where
  hour := ⟨[0x30, 0x31], by decide, rfl⟩
  min := ⟨[0x30, 0x32], by decide, rfl⟩
  sec := ⟨[0x30, 0x33], by decide, rfl⟩
  parts := []
  partsDigits := by decide
  latitude := ⟨⟨[0x33, 0x31], by decide, rfl⟩, ⟨[0x31, 0x32], by decide, rfl⟩, [0x35], by decide,
    by decide, false⟩
  longitude := ⟨⟨[0x31, 0x32, 0x31], by decide, rfl⟩, ⟨[0x32, 0x35], by decide, rfl⟩, [0x35],
    by decide, by decide, false⟩
  speed := ⟨false, [0x31, 0x32], some [0x35], by decide, by decide⟩
  speedShort := by decide
  course := ⟨false, [0x39, 0x30], some [0x30], by decide, by decide⟩
  courseShort := by decide
  day := ⟨[0x30, 0x31], by decide, rfl⟩
  mon := ⟨[0x30, 0x31], by decide, rfl⟩
  year := ⟨[0x32, 0x30], by decide, rfl⟩

/-- The sentence of a fix gives the fix. -/
theorem nmeaParse_fix_placedLine :
    nmeaParse ⟨true, false⟩ (nmeaBuffer placedLine) (BitVec.ofNat 32 placedLine.length) =
      .ok (⟨true, false⟩, [.lipUpdateLocal (some placedFix.rmc) none]) := by
  have placed : WellPlaced (nmeaBuffer placedLine) :=
    ⟨.inl rfl, .inl rfl, by decide, by decide⟩
  have exact := nmeaParse_fix_iff placedLine ⟨true, false⟩ rfl (by decide) rfl placedLine_correct
  exact (exact.2 fun misplaced => absurd placed misplaced).1 placedFix _ rfl

/-- `$GPRMC,010203,A,31125,N,12125.5,E,12.5,90.0,010120,*16`: the latitude has no point. -/
def pointlessLine : List Byte :=
  [0x24, 0x47, 0x50, 0x52, 0x4D, 0x43, 0x2C, 0x30, 0x31, 0x30, 0x32, 0x30, 0x33, 0x2C, 0x41,
    0x2C, 0x33, 0x31, 0x31, 0x32, 0x35, 0x2C, 0x4E, 0x2C, 0x31, 0x32, 0x31, 0x32, 0x35, 0x2E,
    0x35, 0x2C, 0x45, 0x2C, 0x31, 0x32, 0x2E, 0x35, 0x2C, 0x39, 0x30, 0x2E, 0x30, 0x2C, 0x30,
    0x31, 0x30, 0x31, 0x32, 0x30, 0x2C, 0x2A, 0x31, 0x36, 0x0D, 0x0A]

/-- The line is correct. -/
theorem pointlessLine_correct : Correct pointlessLine :=
  ⟨(pointlessLine.drop 1).take 50, 0x31, 0x36, rfl, by decide, by decide⟩

set_option maxRecDepth 10000 in
/-- A fix is made of the latitude without a point. -/
theorem pointlessLine_fix :
    ¬ ∀ (line : List Byte) (env : NmeaEnvar), env.isLocate → line.length ≤ gpsBuffSize →
      curPackType line = some .gprmc → Correct line →
        (∀ fix rest, line = Fix.line fix rest →
          nmeaParse env (nmeaBuffer line) (BitVec.ofNat 32 line.length) =
            .ok (env, [.lipUpdateLocal (some fix.rmc) none])) ∧
        (¬ WellPlaced (nmeaBuffer line) →
          Ends (nmeaParse env (nmeaBuffer line) (BitVec.ofNat 32 line.length)) fun out =>
            out.2 = []) := by
  intro claimed
  have misplaced : ¬ WellPlaced (nmeaBuffer pointlessLine) := fun placed =>
    absurd placed.2.2.1 (by decide)
  have calls : ∃ rmc, nmeaParse ⟨true, false⟩ (nmeaBuffer pointlessLine)
      (BitVec.ofNat 32 pointlessLine.length) =
        .ok (⟨true, false⟩, [.lipUpdateLocal (some rmc) none]) := ⟨_, rfl⟩
  obtain ⟨rmc, same⟩ := calls
  have silent := (claimed pointlessLine ⟨true, false⟩ rfl (by decide) rfl
    pointlessLine_correct).2 misplaced
  rw [same, ends_ok] at silent
  cases silent

end Rsu.Vam
