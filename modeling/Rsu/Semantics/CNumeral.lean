import Rsu.Semantics.CString

/-!
# Integers of C

`strtol` reads the longest start of a text that is a number and says what follows it. A number may
have white space and a sign in front of its digits, and in base 16 a mark.
-/

namespace Rsu.CString

/-- A mark in front of hexadecimal digits, and what follows it. Without a digit behind it the mark
is no mark. -/
def hexMark : List Char8 → List Char8 × List Char8
  | zero :: mark :: digit :: rest =>
      if zero = 0x30 ∧ (mark = 0x78 ∨ mark = 0x58) ∧ isXDigit digit = true then
        ([zero, mark], digit :: rest)
      else ([], zero :: mark :: digit :: rest)
  | text => ([], text)

/-- `strtol` in base 16: the number, which is between the bounds of a `long`, and the text behind
it. -/
def strtol16 (longMin longMax : Int) (text : List Char8) : Int × List Char8 :=
  let (factor, body) := sign (text.dropWhile isSpace)
  let (_, body) := hexMark body
  let digits := body.takeWhile isXDigit
  if digits = [] then (0, text)
  else (max longMin (min longMax (factor * digitsValue 16 digits)), body.dropWhile isXDigit)

/-- `strtol` in base 10. -/
def strtol10 (longMin longMax : Int) (text : List Char8) : Int × List Char8 :=
  let (factor, body) := sign (text.dropWhile isSpace)
  let digits := body.takeWhile isDigit
  if digits = [] then (0, text)
  else (max longMin (min longMax (factor * digitsValue 10 digits)), body.dropWhile isDigit)

/-- `strtoul` in base 10: a minus sign counts down from the number of values of the type. -/
def strtoul10 (ulongMax : Nat) (text : List Char8) : Nat × List Char8 :=
  let (factor, body) := sign (text.dropWhile isSpace)
  let digits := body.takeWhile isDigit
  if digits = [] then (0, text)
  else
    let value := digitsValue 10 digits
    (if ulongMax < value then ulongMax
      else if factor < 0 then (ulongMax + 1 - value) % (ulongMax + 1) else value,
      body.dropWhile isDigit)

/-- A number as `strtol` reads it in base 16. -/
structure HexNumeral where
  blanks : List Char8
  signs : List Char8
  mark : List Char8
  digits : List Char8
  blank : ∀ char ∈ blanks, isSpace char = true
  signed : signs = [] ∨ signs = [0x2B] ∨ signs = [0x2D]
  marked : mark = [] ∨ mark = [0x30, 0x78] ∨ mark = [0x30, 0x58]
  digit : ∀ char ∈ digits, isXDigit char = true
  some : digits ≠ []

namespace HexNumeral

/-- The text of a number. -/
def text (numeral : HexNumeral) : List Char8 :=
  numeral.blanks ++ (numeral.signs ++ (numeral.mark ++ numeral.digits))

/-- The number a text is written for. -/
def value (numeral : HexNumeral) : Int :=
  (if numeral.signs = [0x2D] then -1 else 1) * digitsValue 16 numeral.digits

/-- Digits alone. -/
def ofDigits (digits : List Char8) (digit : ∀ char ∈ digits, isXDigit char = true)
    (some : digits ≠ []) : HexNumeral where
  blanks := []
  signs := []
  mark := []
  digits := digits
  blank := nofun
  signed := .inl rfl
  marked := .inl rfl
  digit := digit
  some := some

end HexNumeral

/-- A hexadecimal digit is neither white space, a sign nor the letter of a mark. -/
theorem xDigit_cases : ∀ char : Char8, isXDigit char = true →
    isSpace char = false ∧ char ≠ 0x2D ∧ char ≠ 0x2B ∧ char ≠ 0x78 ∧ char ≠ 0x58 := by
  decide +kernel

/-- A text does not go on with a hexadecimal digit or the letter of a mark. -/
def EndsNumeral (rest : List Char8) : Prop :=
  ∀ char ∈ rest.head?, isXDigit char = false ∧ char ≠ 0x78 ∧ char ≠ 0x58

section Read

variable {text rest digits signs mark : List Char8}

/-- A mark in front of digits, or none. -/
theorem hexMark_digits (marked : mark = [] ∨ mark = [0x30, 0x78] ∨ mark = [0x30, 0x58])
    (digit : ∀ char ∈ digits, isXDigit char = true) (some : digits ≠ []) (ends : EndsNumeral rest) :
    hexMark (mark ++ (digits ++ rest)) = (mark, digits ++ rest) := by
  obtain ⟨first, digits, rfl⟩ := List.exists_cons_of_ne_nil some
  have first_digit := digit first List.mem_cons_self
  rcases marked with rfl | rfl | rfl
  · have second : ∀ char ∈ (digits ++ rest).head?, char ≠ 0x78 ∧ char ≠ 0x58 := by
      cases digits with
      | nil => exact fun char found => (ends char found).2
      | cons next digits =>
          rintro char ⟨⟩
          exact (xDigit_cases next (digit next (by simp))).2.2.2
    rw [List.nil_append, List.cons_append]
    generalize digits ++ rest = tail at second
    match tail with
    | [] => rfl
    | [_] => rfl
    | next :: _ :: _ =>
        have other := second next rfl
        rw [hexMark, if_neg]
        rintro ⟨-, same | same, -⟩
        · exact other.1 same
        · exact other.2 same
  · simp [hexMark, first_digit]
  · simp [hexMark, first_digit]

/-- A sign, or none, in front of a text that does not begin with one. -/
theorem sign_append (signed : signs = [] ∨ signs = [0x2B] ∨ signs = [0x2D])
    (plain : ∀ char ∈ text.head?, char ≠ 0x2D ∧ char ≠ 0x2B) :
    sign (signs ++ text) = (if signs = [0x2D] then -1 else 1, text) := by
  rcases signed with rfl | rfl | rfl
  · cases text with
    | nil => rfl
    | cons first text =>
        obtain ⟨minus, plus⟩ := plain first rfl
        exact sign_none minus plus
  · rfl
  · rfl

/-- The text from the mark or the digits on begins with a digit. -/
theorem head_marked {first : Char8} (marked : mark = [] ∨ mark = [0x30, 0x78] ∨ mark = [0x30, 0x58])
    (digit : ∀ char ∈ digits, isXDigit char = true) (some : digits ≠ [])
    (head : first ∈ (mark ++ (digits ++ rest)).head?) : isXDigit first = true := by
  obtain ⟨next, digits, rfl⟩ := List.exists_cons_of_ne_nil some
  rcases marked with rfl | rfl | rfl <;> cases head
  · exact digit _ List.mem_cons_self
  · rfl
  · rfl

/-- A number in front of what does not continue it is read in full. -/
theorem strtol16_text (longMin longMax : Int) (numeral : HexNumeral) (ends : EndsNumeral rest) :
    strtol16 longMin longMax (numeral.text ++ rest) =
      (max longMin (min longMax numeral.value), rest) := by
  have digitFirst : ∀ char ∈ (numeral.mark ++ (numeral.digits ++ rest)).head?,
      isXDigit char = true := fun _ => head_marked numeral.marked numeral.digit numeral.some
  have notSpace : ∀ char ∈ (numeral.signs ++ (numeral.mark ++ (numeral.digits ++ rest))).head?,
      isSpace char = false := by
    rcases numeral.signed with none | plus | minus
    · rw [none, List.nil_append]
      exact fun char found => (xDigit_cases char (digitFirst char found)).1
    · rw [plus]
      rintro char ⟨⟩
      rfl
    · rw [minus]
      rintro char ⟨⟩
      rfl
  have notSign : ∀ char ∈ (numeral.mark ++ (numeral.digits ++ rest)).head?,
      char ≠ 0x2D ∧ char ≠ 0x2B := fun char found =>
    have cases := xDigit_cases char (digitFirst char found)
    ⟨cases.2.1, cases.2.2.1⟩
  have stops : ∀ char ∈ rest.head?, isXDigit char = false := fun char found => (ends char found).1
  have shape : numeral.text ++ rest =
      numeral.blanks ++ (numeral.signs ++ (numeral.mark ++ (numeral.digits ++ rest))) := by
    simp [HexNumeral.text]
  rw [shape, strtol16, dropWhile_front numeral.blank notSpace, sign_append numeral.signed notSign]
  simp only [hexMark_digits numeral.marked numeral.digit numeral.some ends,
    takeWhile_front numeral.digit stops, dropWhile_front numeral.digit stops, if_neg numeral.some]
  rfl

/-- A sign or none is taken off. -/
theorem exists_signs (text : List Char8) :
    ∃ signs, (signs = [] ∨ signs = [0x2B] ∨ signs = [0x2D]) ∧ text = signs ++ (sign text).2 := by
  cases text with
  | nil => exact ⟨[], .inl rfl, rfl⟩
  | cons first text =>
      rw [sign]
      split_ifs with minus plus
      · exact ⟨[0x2D], .inr (.inr rfl), by rw [minus]; rfl⟩
      · exact ⟨[0x2B], .inr (.inl rfl), by rw [plus]; rfl⟩
      · exact ⟨[], .inl rfl, rfl⟩

/-- A mark or none is taken off. -/
theorem exists_mark (text : List Char8) :
    ∃ mark, (mark = [] ∨ mark = [0x30, 0x78] ∨ mark = [0x30, 0x58]) ∧
      text = mark ++ (hexMark text).2 := by
  match text with
  | [] | [_] | [_, _] => exact ⟨[], .inl rfl, rfl⟩
  | zero :: letter :: digit :: rest =>
      rw [hexMark]
      split_ifs with marked
      · obtain ⟨rfl, rfl | rfl, -⟩ := marked
        · exact ⟨_, .inr (.inl rfl), rfl⟩
        · exact ⟨_, .inr (.inr rfl), rfl⟩
      · exact ⟨[], .inl rfl, rfl⟩

/-- What was read is a number, or nothing was. -/
theorem exists_numeral (longMin longMax : Int) (text : List Char8) :
    (strtol16 longMin longMax text).2 = text ∨
      ∃ numeral : HexNumeral, text = numeral.text ++ (strtol16 longMin longMax text).2 := by
  obtain ⟨signs, signed, signText⟩ := exists_signs (text.dropWhile isSpace)
  obtain ⟨mark, marked, markText⟩ := exists_mark (sign (text.dropWhile isSpace)).2
  generalize digitsText : (hexMark (sign (text.dropWhile isSpace)).2).2 = body at markText
  have read : strtol16 longMin longMax text =
      if body.takeWhile isXDigit = [] then (0, text)
      else (max longMin (min longMax ((sign (text.dropWhile isSpace)).1 *
        digitsValue 16 (body.takeWhile isXDigit))), body.dropWhile isXDigit) := by
    rw [← digitsText]
    rfl
  rw [read]
  split_ifs with none
  · exact .inl rfl
  · refine .inr ⟨⟨text.takeWhile isSpace, signs, mark, body.takeWhile isXDigit,
      fun _ => List.mem_takeWhile_imp, signed, marked, fun _ => List.mem_takeWhile_imp, none⟩, ?_⟩
    calc text = text.takeWhile isSpace ++ text.dropWhile isSpace :=
          List.takeWhile_append_dropWhile.symm
      _ = text.takeWhile isSpace ++ (signs ++ (mark ++ body)) := by rw [signText, markText]
      _ = _ := by
        rw [HexNumeral.text]
        simp only [List.append_assoc, List.takeWhile_append_dropWhile]

end Read

end Rsu.CString
