import Rsu.Vam.Nmea

/-!
# The accesses of `nmea_parse`

The commas of a sentence lead to its fields. Whatever a sentence holds, the accesses stay
inside exactly if the searches end inside the buffer, the time is early enough in it, and
speed and course fit into their arrays. Nothing looks whether the fields of a fix are
empty.
-/

namespace Rsu.Vam

open Rsu.Rcp Rsu.Drv Rsu.CString Rsu.Checked

/-- The two next texts behind commas, or an end of the string where one is missing. -/
def Hops (buff : List Byte) (texts : List (List Byte))
    (next : List Byte → List Byte → List (List Byte) → Prop) : Prop :=
  match texts with
  | first :: second :: more => next first second more
  | _ => 0 ∈ buff

/-- The field behind `count` commas has a character, and a comma behind it. -/
def Filled (buff : List Byte) (count : Nat) : Prop :=
  ∃ text rest more, (behind comma buff).drop (count - 1) = text :: rest :: more ∧
    text.head? ≠ some comma

/-- The field lacks its point, and neither of the two letters is behind it. -/
def Refused (positive negative : Byte) (distance : Nat) (text next : List Byte) : Prop :=
  next.head? ≠ some positive ∧ next.head? ≠ some negative ∧ text[distance]? ≠ some point

/-- The fields of a fix: time, latitude and longitude with their letters, speed, course
and date. -/
def fixFields : List Nat := [1, 3, 4, 5, 6, 7, 8, 9]

/-- What keeps the accesses to a fix inside, from the text of its time on, and lets it come
about only with a fact. -/
def FixBounded (buff time : List Byte) (more : List (List Byte)) (fact : Prop) : Prop :=
  10 ≤ time.length ∧
  Hops buff more fun latitude northSouth more =>
    ¬ Refused 0x4E 0x53 4 latitude northSouth →
  Hops buff more fun longitude eastWest more =>
    ¬ Refused 0x45 0x57 5 longitude eastWest →
  Hops buff more fun speed course more =>
    speed.length ≤ course.length + 10 ∧
  Hops buff (course :: more) fun course date more =>
    course.length ≤ date.length + 10 ∧
  Hops buff (date :: more) fun _ _ _ => fact

/-- What keeps the accesses to a `$GPRMC` inside, and lets a fix come about only with a
fact. -/
def RmcBounded (buff : List Byte) (fact : Prop) : Prop :=
  Hops buff (behind comma buff) fun time status more =>
    status.head? = some 0x41 → FixBounded buff time more fact

/-- What keeps the accesses to a field of a `$GPGSA` inside, and what is done with its text. -/
def GsaReads (buff : List Byte) (count : Nat) (next : List Byte → Prop) : Prop :=
  Hops buff ((behind comma buff).drop (count - 1)) fun text rest _ =>
    text.head? ≠ some comma → text.length ≤ rest.length + 16 →
      next (text.take (text.length - (rest.length + 1)))

/-- What keeps the accesses to a `$GPGSA` inside. -/
def GsaBounded (buff : List Byte) : Prop :=
  GsaReads buff 2 fun located => atoi located ≠ 1 → GsaReads buff 15 fun _ => True

/-- What keeps the accesses to a sentence inside. -/
def Bounded (env : NmeaEnvar) (buff : List Byte) : ENmeaType → Prop
  | .gprmc => env.isLocate → RmcBounded buff (∀ field ∈ fixFields, Filled buff field)
  | .gpgsa => GsaBounded buff
  | .gpgga => True

/-- The values of a call are computed from fields that are there. -/
def NmeaCall.Present (buff : List Byte) : NmeaCall → Prop
  | .lipUpdateLocal p_rmc p_accu =>
      (p_rmc.isSome → ∀ field ∈ fixFields, Filled buff field) ∧
        (p_accu.isSome → Filled buff 15)
  | .sendGga _ => True

section Hops

variable {buff pointer : List Byte} {texts : List (List Byte)}

/-- What is the same of the next fields is the same of all. -/
theorem hops_congr {next other : List Byte → List Byte → List (List Byte) → Prop}
    (same : ∀ first second more, texts = first :: second :: more →
      (next first second more ↔ other first second more)) :
    Hops buff texts next ↔ Hops buff texts other := by
  unfold Hops
  split
  · exact same _ _ _ rfl
  · exact Iff.rfl

/-- The end of a string is behind its commas. -/
theorem ended_behind {rest : List Byte} {more : List (List Byte)}
    (found : behind comma pointer = rest :: more) : 0 ∈ pointer ↔ 0 ∈ rest := by
  obtain ⟨-, field, ⟨-, noEnd⟩, rfl⟩ := behind_eq_cons found
  constructor
  · intro ended
    have behindField := (List.mem_append.1 ended).resolve_left noEnd
    exact (List.mem_cons.1 behindField).resolve_left (by decide)
  · exact fun ended => List.mem_append_right _ (List.mem_cons_of_mem _ ended)

/-- A field is found exactly if both its commas are. -/
theorem yields_field (ended : 0 ∈ pointer ↔ 0 ∈ buff) (post : List Byte × List Byte → Prop) :
    Yields (nmeaField pointer) post ↔
      Hops buff (behind comma pointer) fun first second _ => post (first, comma :: second) := by
  rw [nmeaField, yields_bind, yields_strchr]
  cases found : behind comma pointer with
  | nil => exact ended
  | cons first texts =>
      obtain ⟨later, -⟩ := behind_eq_cons found
      simp only [yields_bind, yields_pure, List.tail_cons]
      rw [yields_strchr, later]
      cases texts with
      | nil => exact (ended_behind found).symm.trans ended
      | cons second more => rfl

end Hops

/-- The text goes on to the last five bytes of a line. -/
def Trailed (text : List Byte) : Prop :=
  ∃ front high low rest,
    text = front ++ star :: high :: low :: carriageReturn :: newline :: rest

section Trailed

variable {line field text next : List Byte}

/-- Behind the last field there are five bytes. -/
theorem Trailed.length (trailed : Trailed next) : 5 ≤ next.length := by
  obtain ⟨front, high, low, rest, rfl⟩ := trailed
  simp only [List.length_append, List.length_cons]
  omega

/-- The end of the line is behind the first characters of a field. -/
theorem Trailed.drop (trailed : Trailed next) {width : Nat} (short : width ≤ 3) :
    carriageReturn ∈ (field ++ comma :: next).drop width := by
  obtain ⟨front, high, low, rest, rfl⟩ := trailed
  have layout : field ++ comma :: (front ++ star :: high :: low :: carriageReturn :: newline :: rest)
      = (field ++ comma :: front ++ [star, high, low]) ++ carriageReturn :: newline :: rest := by
    simp
  rw [layout, List.drop_append_of_le_length (by simp; omega)]
  exact List.mem_append_right _ List.mem_cons_self

/-- No comma is in the last bytes of a line or behind them. -/
theorem trailed_behind (correct : Correct line) :
    ∀ text ∈ behind comma (nmeaBuffer line), Trailed text := by
  obtain ⟨body, high, low, rfl, ⟨high_digit, low_digit⟩, -⟩ := correct
  intro text found
  have layout (rest : List Byte) : spelled body star high low ++ rest =
      (dollar :: body) ++ star :: high :: low :: carriageReturn :: newline :: rest := by
    simp [spelled]
  have digit {char : Byte} (hexadecimal : isXDigit char = true) : comma ≠ char := by
    rintro rfl
    cases hexadecimal
  have clean (count : Nat) :
      comma ∉ star :: high :: low :: carriageReturn :: newline :: List.replicate count 0 := by
    simp only [List.mem_cons, List.mem_replicate, not_or, not_and]
    exact ⟨by decide, digit high_digit, digit low_digit, by decide, by decide, fun _ => by decide⟩
  rw [nmeaBuffer, layout] at found
  obtain ⟨front, rfl⟩ := behind_append (clean _) _ text found
  exact ⟨front, high, low, _, rfl⟩

/-- The loop for the minutes ends at a character that is neither a digit nor a point. -/
theorem copyMinutes_ends {pointer : List Byte} (ended : carriageReturn ∈ pointer) (room : Nat) :
    Ends (copyMinutes room pointer) fun minutes => minutes.length ≤ room := by
  induction pointer generalizing room with
  | nil => cases ended
  | cons first pointer inductionHypothesis =>
      cases room with
      | zero => exact ⟨[], rfl, le_rfl⟩
      | succ room =>
          rw [copyMinutes]
          split_ifs with taken
          · have later : carriageReturn ∈ pointer := by
              refine (List.mem_cons.1 ended).resolve_left ?_
              rintro rfl
              revert taken
              decide
            rw [ends_map]
            exact (inductionHypothesis later room).mono fun _ => Nat.succ_le_succ
          · exact ⟨[], rfl, Nat.zero_le _⟩

/-- The letter behind a comma. -/
theorem peek_letter (some : next ≠ []) :
    ∃ letter, peek (comma :: next) 1 = .ok letter ∧ next.head? = .some letter := by
  obtain ⟨letter, rest, rfl⟩ := List.exists_cons_of_ne_nil some
  exact ⟨letter, rfl, rfl⟩

/-- The letter and the point are looked for inside the buffer. -/
theorem nmeaRefused_ends (positive negative : Byte) {distance : Nat} (some : next ≠ [])
    (inside : distance < text.length) :
    Ends (nmeaRefused positive negative distance text (comma :: next)) fun refused =>
      (refused = true ↔ Refused positive negative distance text next) := by
  obtain ⟨letter, looked, head⟩ := peek_letter some
  have dot : text[distance]? = .some text[distance] := List.getElem?_eq_getElem inside
  simp only [nmeaRefused, looked, ends_peek inside, ok_bind, ends_ite, ends_pure, Refused, head, dot]
  constructor
  · rintro ⟨notPositive, notNegative⟩
    simp [notPositive, notNegative]
  · intro one
    simp only [Bool.false_eq_true, false_iff, ne_eq, Option.some.injEq]
    exact fun refused => one ⟨refused.1, refused.2.1⟩

/-- An angle is read inside the buffer, if it is read. -/
theorem yields_angle {positive negative : Byte} {width : Nat} {post : ℚ → Prop} {fact : Prop}
    (trailed : Trailed next) (short : width ≤ 3) (split : text = field ++ comma :: next)
    (same : ∀ angle, post angle ↔ fact) :
    Yields (nmeaAngle positive negative width text (comma :: next)) post ↔
      (¬ Refused positive negative (width + 2) text next → fact) := by
  have length := trailed.length
  have long : 6 ≤ text.length := by
    rw [split, List.length_append, List.length_cons]
    omega
  have some : next ≠ [] := List.ne_nil_of_length_pos (by omega)
  obtain ⟨refused, found, refused_iff⟩ :=
    nmeaRefused_ends positive negative some (show width + 2 < text.length by omega)
  obtain ⟨letter, looked, -⟩ := peek_letter some
  have degrees : copyText 15 text width = .ok (text.take width) := by
    rw [copyText, readable_bind (by omega), writable_bind (by omega)]
    rfl
  have ended : carriageReturn ∈ text.drop width := split ▸ trailed.drop short
  obtain ⟨minutes, copied, few⟩ := copyMinutes_ends ended 8
  simp only [nmeaAngle, found, degrees, copied, looked, yields_bind, yields_lift, yields_ite,
    yields_pure, ends_ok, ends_writable, same]
  rw [← refused_iff]
  constructor
  · exact fun bounded taken => (bounded.2 taken).2
  · exact fun holds => ⟨fun _ => yields_failure _, fun taken => ⟨by omega, holds taken⟩⟩

/-- Two characters are read exactly inside the buffer. -/
theorem ends_digits {distance : Nat} {post : Int → Prop} {fact : Prop}
    (same : ∀ value, post value ↔ fact) :
    Ends (nmeaDigits text distance) post ↔ distance + 1 < text.length ∧ fact := by
  refine ends_iff ?_ same
  simp only [nmeaDigits, ends_bind, ends_pure]
  rw [ends_iff (ends_peek_iff text distance) fun _ => ends_peek_iff text (distance + 1)]
  omega

/-- The time is read up to its tenth character, whatever is behind it. -/
theorem nmeaRmcTime_ends (text : List Byte) (tt : TTime) :
    Ends (nmeaRmcTime text tt) (fun _ => True) ↔ 10 ≤ text.length := by
  simp only [nmeaRmcTime, ends_bind, ends_pure]
  rw [ends_digits fun _ => ends_digits fun _ => ends_digits fun _ =>
    ends_iff (ends_peek_iff text 7) fun _ => ends_iff (ends_peek_iff text 8) fun _ =>
      ends_peek_iff text 9]
  omega

/-- The date is read up to its sixth character. -/
theorem nmeaRmcDate_ends (text : List Byte) (tt : TTime) :
    Ends (nmeaRmcDate text tt) (fun _ => True) ↔ 6 ≤ text.length := by
  simp only [nmeaRmcDate, ends_bind, ends_pure]
  rw [ends_digits fun _ => ends_digits fun _ => ends_digits fun _ => Iff.rfl, and_true]
  omega

/-- A field fits into its array with a zero behind it. -/
theorem nmeaText_ends {room : Nat} (split : text = field ++ comma :: next) :
    Ends (nmeaText room text (comma :: next)) (fun _ => True) ↔
      text.length ≤ next.length + room := by
  have length : text.length = field.length + (next.length + 1) := by
    rw [split, List.length_append, List.length_cons]
  rw [nmeaText, copyText, List.length_cons]
  simp only [ends_bind, ends_readable, ends_writable, ends_pure, and_true]
  omega

end Trailed

section Branches

variable {buff time line : List Byte} {more : List (List Byte)}

/-- A pointer into the buffer, and the texts behind the commas from there on. -/
structure Reached (buff pointer : List Byte) (texts : List (List Byte)) : Prop where
  found : behind comma pointer = texts
  ended : 0 ∈ pointer ↔ 0 ∈ buff
  trailed : ∀ text ∈ texts, Trailed text

namespace Reached

variable {pointer first : List Byte} {texts : List (List Byte)}

/-- The first field is reached. -/
theorem start (correct : Correct line) :
    Reached (nmeaBuffer line) (nmeaBuffer line) (behind comma (nmeaBuffer line)) :=
  ⟨rfl, Iff.rfl, trailed_behind correct⟩

/-- The text behind a comma. -/
theorem next (reached : Reached buff pointer (first :: texts)) : Reached buff first texts where
  found := (behind_eq_cons reached.found).1
  ended := (ended_behind reached.found).symm.trans reached.ended
  trailed text later := reached.trailed text (List.mem_cons_of_mem first later)

/-- The field in front of a comma. -/
theorem split (reached : Reached buff pointer (first :: texts)) :
    ∃ field, pointer = field ++ comma :: first :=
  let ⟨_, field, _, same⟩ := behind_eq_cons reached.found
  ⟨field, same⟩

/-- The rule for a field. -/
theorem yields_field {post : List Byte × List Byte → Prop}
    {next : List Byte → List Byte → List (List Byte) → Prop}
    (reached : Reached buff pointer texts)
    (same : ∀ first second more field, Reached buff pointer (first :: second :: more) →
      Trailed second → first = field ++ comma :: second →
        (post (first, comma :: second) ↔ next first second more)) :
    Yields (nmeaField pointer) post ↔ Hops buff texts next := by
  rw [Vam.yields_field reached.ended, reached.found]
  refine hops_congr fun first second more found => ?_
  subst found
  obtain ⟨field, split⟩ := reached.next.split
  exact same first second more field reached (reached.next.trailed second List.mem_cons_self) split

end Reached

/-- A fix is read inside the buffer and its arrays exactly under the bounds. -/
theorem yields_fix {status : List Byte} (reached : Reached buff buff (time :: status :: more))
    (fact : Prop) : Yields (rmcFix buff) (fun _ => fact) ↔ FixBounded buff time more fact := by
  simp only [rmcFix, yields_bind, yields_lift, yields_pure]
  rw [Vam.yields_field Iff.rfl, reached.found]
  refine ends_iff (nmeaRmcTime_ends time _) fun tt => ?_
  refine reached.next.next.yields_field fun latitude northSouth more _ latAt trailed split => ?_
  refine yields_angle trailed (by decide) split fun _ => ?_
  refine latAt.next.next.yields_field fun longitude eastWest more _ lonAt trailed split => ?_
  refine yields_angle trailed (by decide) split fun _ => ?_
  refine lonAt.next.next.yields_field fun speed course more _ speedAt _ split => ?_
  refine ends_iff (nmeaText_ends split) fun _ => ?_
  refine speedAt.next.yields_field fun course date more _ courseAt _ split => ?_
  refine ends_iff (nmeaText_ends split) fun _ => ?_
  refine courseAt.next.yields_field fun date rest more field _ trailed split => ?_
  have long := trailed.length
  have inside : 6 ≤ date.length := by
    rw [split, List.length_append, List.length_cons]
    omega
  rw [ends_const, nmeaRmcDate_ends, and_iff_right inside]

/-- The first character of a field. -/
theorem peek_first {text : List Byte} (trailed : Trailed text) :
    ∃ first, peek text 0 = .ok first ∧ text.head? = some first := by
  have some : text ≠ [] := List.ne_nil_of_length_pos (by have := trailed.length; omega)
  obtain ⟨first, rest, rfl⟩ := List.exists_cons_of_ne_nil some
  exact ⟨first, rfl, rfl⟩

/-- A `$GPRMC` is read inside the buffer and its arrays exactly under the bounds. -/
theorem yields_gprmc {texts : List (List Byte)} (reached : Reached buff buff texts)
    (fact : Prop) :
    Yields (gprmc buff) (fun rmc => rmc.isSome → fact) ↔ RmcBounded buff fact := by
  rw [gprmc, RmcBounded, yields_bind, reached.found]
  refine reached.yields_field fun time status more _ reached trailed _ => ?_
  obtain ⟨first, looked, head⟩ := peek_first trailed
  simp only [yields_bind, yields_lift, List.tail_cons, looked, ends_ok, yields_ite, yields_pure, head,
    Option.some.injEq, Option.isSome_some, Option.isSome_none, Bool.false_eq_true, false_imp_iff,
    implies_true, and_true, true_imp_iff]
  rw [yields_fix reached]

/-- The loop ends at the last of its commas. -/
theorem yields_skip {pointer : List Byte} (ended : 0 ∈ pointer.tail ↔ 0 ∈ buff) (count : Nat)
    (post : List Byte → Prop) :
    Yields (nmeaSkip (count + 1) pointer) post ↔
      match (behind comma pointer.tail).drop count with
      | text :: _ => post (comma :: text)
      | [] => 0 ∈ buff := by
  induction count generalizing pointer with
  | zero =>
      simp only [nmeaSkip, yields_bind, yields_pure, List.drop_zero]
      rw [yields_strchr]
      cases behind comma pointer.tail with
      | nil => exact ended
      | cons text more => rfl
  | succ count inductionHypothesis =>
      rw [nmeaSkip, yields_bind, yields_strchr]
      cases found : behind comma pointer.tail with
      | nil => exact ended
      | cons text more =>
          have again := @inductionHypothesis (comma :: text)
            ((ended_behind found).symm.trans ended)
          rw [List.tail_cons, (behind_eq_cons found).1] at again
          exact again

/-- The texts behind some of the commas. -/
theorem Reached.drop {pointer text : List Byte} {texts : List (List Byte)}
    (reached : Reached buff pointer texts) {count : Nat} (found : texts.drop count = text :: more) :
    Reached buff text more := by
  induction count generalizing pointer texts with
  | zero =>
      rw [List.drop_zero] at found
      subst found
      exact reached.next
  | succ count inductionHypothesis =>
      cases texts with
      | nil => cases found
      | cons first texts => exact inductionHypothesis reached.next found

/-- What is copied of a field that fits. -/
theorem nmeaText_eq {room : Nat} {text rest field : List Byte}
    (split : text = field ++ comma :: rest) (fits : text.length ≤ rest.length + room) :
    nmeaText room text (comma :: rest) =
      .ok (text.take (text.length - (rest.length + 1))) := by
  have length : text.length = field.length + (rest.length + 1) := by
    rw [split, List.length_append, List.length_cons]
  rw [nmeaText, copyText, List.length_cons, readable_bind (by omega), writable_bind (by omega)]
  rfl

/-- A field is copied if its comma is found and it fits. -/
theorem yields_gsaText {text : List Byte} (reached : Reached buff text more)
    (post : List Byte → Prop) :
    Yields (gsaText text) post ↔
      match more with
      | rest :: _ =>
          text.length ≤ rest.length + 16 → post (text.take (text.length - (rest.length + 1)))
      | [] => 0 ∈ buff := by
  rw [gsaText, yields_bind, yields_strchr, reached.found]
  cases more with
  | nil => exact reached.ended
  | cons rest more =>
      obtain ⟨_, split⟩ := reached.split
      by_cases fits : text.length ≤ rest.length + 16
      · have small : ¬ text.length - (comma :: rest).length > 15 := by
          rw [List.length_cons]
          omega
        simp only [if_neg small, yields_lift, nmeaText_eq split fits, ends_ok, fits, true_imp_iff]
      · have large : text.length - (comma :: rest).length > 15 := by
          rw [List.length_cons]
          omega
        simp only [if_pos large, failure_bind, yields_failure, fits, false_imp_iff]

/-- The loop begins behind the dollar sign. -/
theorem Reached.tail {rest : List Byte} {texts : List (List Byte)} (first : buff = dollar :: rest)
    (reached : Reached buff buff texts) : Reached buff buff.tail texts := by
  subst first
  refine ⟨reached.found, ?_, reached.trailed⟩
  constructor
  · exact List.mem_cons_of_mem dollar
  · exact fun ended => (List.mem_cons.1 ended).resolve_left (by decide)

/-- A field that is empty is a place itself. -/
theorem Reached.empty {text : List Byte} (reached : Reached buff text more)
    (place : text.head? = some comma) : more ≠ [] := by
  obtain ⟨tail, rfl⟩ := List.head?_eq_some_iff.1 place
  rw [← reached.found, behind, if_pos rfl]
  exact List.cons_ne_nil _ _

/-- A field of a `$GPGSA` is read inside the buffer and its array exactly under the bounds. -/
theorem yields_gsaField {rest : List Byte} (first : buff = dollar :: rest)
    (reached : Reached buff buff (behind comma buff)) {post : Option (List Byte) → Prop}
    (empty : post none) (count : Nat) :
    Yields (gsaField (count + 1) buff) post ↔
      GsaReads buff (count + 1) fun text => post (some text) := by
  have behindDollar := reached.tail first
  rw [gsaField, yields_bind, yields_skip behindDollar.ended, behindDollar.found, GsaReads,
    Nat.add_sub_cancel]
  cases found : (behind comma buff).drop count with
  | nil => exact Iff.rfl
  | cons text more =>
      have textAt := reached.drop found
      have known : text ∈ behind comma buff := List.mem_of_mem_drop (found ▸ List.mem_cons_self)
      obtain ⟨char, looked, head⟩ := peek_first (reached.trailed text known)
      have field : text.head? ≠ some comma ↔ ¬ char = comma := by
        rw [head, ne_eq, Option.some.injEq]
      simp only [List.tail_cons, looked, yields_bind, yields_lift, ends_ok, yields_ite, yields_pure,
        implies_true, true_and, empty, ← field]
      rw [yields_gsaText textAt]
      cases more with
      | nil => exact imp_iff_right fun place => textAt.empty place rfl
      | cons rest more => exact Iff.rfl

/-- What is done with the text of a field only matters for a field that is there. -/
theorem gsaReads_congr {count : Nat} {next other : List Byte → Prop}
    (same : ∀ text, Filled buff count → (next text ↔ other text)) :
    GsaReads buff count next ↔ GsaReads buff count other := by
  refine hops_congr fun text rest more found => imp_congr_right fun some => ?_
  exact imp_congr_right fun _ => same _ ⟨text, rest, more, found, some⟩

/-- A `$GPGSA` is read inside the buffer and its array exactly under the bounds, and its
accuracy only if it is there. -/
theorem yields_gpgsa {rest : List Byte} (first : buff = dollar :: rest)
    (reached : Reached buff buff (behind comma buff)) :
    Yields (gpgsa buff) (fun accu => accu.isSome → Filled buff 15) ↔ GsaBounded buff := by
  rw [gpgsa, yields_bind, yields_gsaField first reached (by simp) 1]
  refine gsaReads_congr fun located _ => ?_
  simp only [yields_ite, yields_pure, yields_bind]
  rw [yields_gsaField first reached (by simp) 14]
  simp only [Option.isSome_none, Bool.false_eq_true, false_imp_iff, implies_true, true_and]
  refine imp_congr_right fun _ => gsaReads_congr fun accuracy filled => ?_
  simp [filled]

/-- The calls for a sentence. -/
theorem yields_interpret (env : NmeaEnvar) {rest : List Byte} (first : buff = dollar :: rest)
    (reached : Reached buff buff (behind comma buff)) (type : ENmeaType) :
    Yields (nmeaInterpret env buff type) (fun out => ∀ call ∈ out.2, call.Present buff) ↔
      Bounded env buff type := by
  cases type with
  | gprmc =>
      rw [Bounded, ← yields_gprmc reached, nmeaInterpret]
      cases env.isLocate with
      | false => simp
      | true =>
          simp only [Bool.not_true, Bool.false_eq_true, if_false, yields_bind, true_imp_iff]
          refine yields_congr fun rmc => ?_
          cases rmc with
          | none => simp
          | some rmc => simp [NmeaCall.Present]
  | gpgsa =>
      rw [Bounded, ← yields_gpgsa first reached, nmeaInterpret, yields_bind]
      refine yields_congr fun accu => ?_
      cases accu with
      | none => simp
      | some accu => simp [NmeaCall.Present]
  | gpgga =>
      rw [nmeaInterpret]
      split <;> simp [NmeaCall.Present, Bounded]

end Branches

/-- The accesses for a line stay inside, and the calls are made with what is there, exactly
under the bounds. -/
theorem nmeaParse_bounded_iff (env : NmeaEnvar) (line : List Byte)
    (short : line.length ≤ gpsBuffSize) (correct : Correct line) :
    (Ends (nmeaParse env (nmeaBuffer line) (BitVec.ofNat 32 line.length)) fun out =>
      ∀ call ∈ out.2, call.Present (nmeaBuffer line)) ↔
        ∀ type ∈ curPackType line, Bounded env (nmeaBuffer line) type := by
  have nothing : ∀ call ∈ (env, ([] : List NmeaCall)).2, call.Present (nmeaBuffer line) := nofun
  rw [nmeaParse, ends_getD nothing, yields_bind, Yields, correct.accepted short, ends_ok]
  have first : ∃ rest, nmeaBuffer line = dollar :: rest := by
    obtain ⟨body, high, low, rfl, -⟩ := correct
    exact ⟨_, rfl⟩
  obtain ⟨rest, first⟩ := first
  exact forall₂_congr fun type _ => yields_interpret env first (Reached.start correct) type

/-- `$GPRMC,010203,A,3112.5,N,12125.5,E,12.5,90.0,010120,*38` -/
def placedLine : List Byte :=
  [0x24, 0x47, 0x50, 0x52, 0x4D, 0x43, 0x2C, 0x30, 0x31, 0x30, 0x32, 0x30, 0x33, 0x2C, 0x41,
    0x2C, 0x33, 0x31, 0x31, 0x32, 0x2E, 0x35, 0x2C, 0x4E, 0x2C, 0x31, 0x32, 0x31, 0x32, 0x35,
    0x2E, 0x35, 0x2C, 0x45, 0x2C, 0x31, 0x32, 0x2E, 0x35, 0x2C, 0x39, 0x30, 0x2E, 0x30, 0x2C,
    0x30, 0x31, 0x30, 0x31, 0x32, 0x30, 0x2C, 0x2A, 0x33, 0x38, 0x0D, 0x0A]

/-- The line is correct. -/
theorem placedLine_correct : Correct placedLine :=
  ⟨(placedLine.drop 1).take 51, 0x33, 0x38, rfl, by decide, by decide⟩

set_option maxRecDepth 10000 in

/-- Its fields are in their bounds. -/
theorem placedLine_bounded :
    RmcBounded (nmeaBuffer placedLine) (∀ field ∈ fixFields, Filled (nmeaBuffer placedLine) field) := by
  intro _
  refine ⟨by decide, ?_⟩
  intro _ _
  refine ⟨by decide, by decide, fun field member => ?_⟩
  simp only [fixFields, List.mem_cons, List.not_mem_nil, or_false] at member
  rcases member with rfl | rfl | rfl | rfl | rfl | rfl | rfl | rfl
  all_goals exact ⟨_, _, _, rfl, by decide⟩

/-- A fix is read inside the buffer, and made of fields that are there. -/
theorem nmeaParse_bounded_placedLine :
    Ends (nmeaParse ⟨true, false⟩ (nmeaBuffer placedLine) (BitVec.ofNat 32 placedLine.length))
      fun out => ∀ call ∈ out.2, call.Present (nmeaBuffer placedLine) := by
  refine (nmeaParse_bounded_iff ⟨true, false⟩ placedLine (by decide) placedLine_correct).2 ?_
  intro type found
  have kind : curPackType placedLine = some .gprmc := rfl
  obtain rfl := Option.some.inj (found.symm.trans kind)
  exact fun _ => placedLine_bounded

/-- `$GPRMC,010203,A,3112.5,N,12125.5,E,0000012.50,90.0,010120,*38`, with a speed of ten
characters. -/
def fastLine : List Byte :=
  [0x24, 0x47, 0x50, 0x52, 0x4D, 0x43, 0x2C, 0x30, 0x31, 0x30, 0x32, 0x30, 0x33, 0x2C, 0x41,
    0x2C, 0x33, 0x31, 0x31, 0x32, 0x2E, 0x35, 0x2C, 0x4E, 0x2C, 0x31, 0x32, 0x31, 0x32, 0x35,
    0x2E, 0x35, 0x2C, 0x45, 0x2C, 0x30, 0x30, 0x30, 0x30, 0x30, 0x31, 0x32, 0x2E, 0x35, 0x30,
    0x2C, 0x39, 0x30, 0x2E, 0x30, 0x2C, 0x30, 0x31, 0x30, 0x31, 0x32, 0x30, 0x2C, 0x2A, 0x33,
    0x38, 0x0D, 0x0A]

/-- This line is correct too. -/
theorem fastLine_correct : Correct fastLine :=
  ⟨(fastLine.drop 1).take 57, 0x33, 0x38, rfl, by decide, by decide⟩

set_option maxRecDepth 10000 in
/-- The speed leaves its array without a zero. -/
theorem nmeaParse_overflows :
    ¬ ∀ (env : NmeaEnvar) (line : List Byte), line.length ≤ gpsBuffSize → Correct line →
      Ends (nmeaParse env (nmeaBuffer line) (BitVec.ofNat 32 line.length)) fun out =>
        ∀ call ∈ out.2, call.Present (nmeaBuffer line) := by
  intro claimed
  have fault : nmeaParse ⟨true, false⟩ (nmeaBuffer fastLine) (BitVec.ofNat 32 fastLine.length) =
      .error .write := rfl
  have ends := claimed ⟨true, false⟩ fastLine (by decide) fastLine_correct
  rw [fault] at ends
  exact ends_error _ _ ends

end Rsu.Vam
