import Mathlib.Algebra.Order.Field.Rat
import Mathlib.Control.Monad.Basic
import Mathlib.Data.List.Induction
import Mathlib.Data.List.TakeWhile
import Mathlib.Tactic.FieldSimp
import Mathlib.Tactic.Ring
import Rsu.Semantics.Checked

/-!
# Strings of C

A pointer into an object is the rest of the object from there on, so that an access
is inside when the rest is long enough. The functions of the library that look for
the end of a string stop with a fault when the object ends first. A number is read
from the longest start of a text that is one.
-/

namespace Rsu.CString

open Checked

/-- A character of C. -/
abbrev Char8 := BitVec 8

/-- A call that may fault, or give up. -/
abbrev Search := OptionT Checked

variable {α β : Type}

/-- The character at a distance from a pointer. -/
def peek (pointer : List Char8) (distance : Nat) : Checked Char8 :=
  match pointer[distance]? with
  | some char => .ok char
  | none => .error .read

/-- `strchr`, from the character that was found on; `NULL` gives up. -/
def strchr (char : Char8) : List Char8 → Search (List Char8)
  | [] => .mk (.error .read)
  | first :: rest =>
      if first = char then pure (first :: rest)
      else if first = 0 then failure
      else strchr char rest

/-- A test that gives up unless it finds a value. -/
def accept (found : Option α) : Search α := .mk (.ok found)

/-- `memcpy` of characters into an array of zeros that keeps a zero behind them. -/
def copyText (room : Nat) (pointer : List Char8) (count : Nat) : Checked (List Char8) := do
  readable pointer.length 0 count
  writable room 0 (count + 1)
  return pointer.take count

section Rules

@[simp] theorem run_pure (value : α) : (pure value : Search α).run = .ok (some value) := rfl

@[simp] theorem run_failure : (failure : Search α).run = .ok none := rfl

@[simp] theorem run_lift (call : Checked α) : (liftM call : Search α).run = some <$> call := rfl

@[simp] theorem failure_bind (next : α → Search β) :
    ((failure : Search α) >>= next) = failure := rfl

@[simp] theorem run_accept (found : Option α) : (accept found).run = .ok found := rfl

/-- What the call finds meets `post`; it may give up, but it does not fault. -/
def Yields (call : Search α) (post : α → Prop) : Prop :=
  Ends call.run fun found => ∀ value ∈ found, post value

@[simp] theorem yields_pure (value : α) (post : α → Prop) :
    Yields (pure value) post ↔ post value := by
  simp [Yields]

@[simp] theorem yields_failure (post : α → Prop) : Yields failure post := by
  simp [Yields]

@[simp] theorem yields_accept (found : Option α) (post : α → Prop) :
    Yields (accept found) post ↔ ∀ value ∈ found, post value := by
  simp [Yields]

@[simp] theorem yields_lift (call : Checked α) (post : α → Prop) :
    Yields (liftM call) post ↔ Ends call post := by
  simp [Yields]

/-- The rule of sequence. -/
@[simp] theorem yields_bind (call : Search α) (next : α → Search β) (post : β → Prop) :
    Yields (call >>= next) post ↔ Yields call fun value => Yields (next value) post := by
  unfold Yields
  rw [OptionT.run_bind, Option.elimM, ends_bind]
  refine exists_congr fun found => and_congr_right fun _ => ?_
  cases found with
  | none => simp
  | some value => simp

/-- A search yields the same of what is the same. -/
theorem yields_congr {call : Search α} {post other : α → Prop}
    (same : ∀ value, post value ↔ other value) : Yields call post ↔ Yields call other := by
  rw [show post = other from funext fun value => propext (same value)]

/-- What a call that gives up stands for. -/
theorem ends_getD {call : Search α} {value : α} {post : α → Prop} (fallback : post value) :
    Ends ((Option.getD · value) <$> call.run) post ↔ Yields call post := by
  rw [ends_map, Yields]
  refine exists_congr fun found => and_congr_right fun _ => ?_
  cases found with
  | none => simp [fallback]
  | some found => simp

/-- The rule of the conditional. -/
@[simp] theorem yields_ite {condition : Prop} [Decidable condition] (yes no : Search α)
    (post : α → Prop) :
    Yields (if condition then yes else no) post ↔
      (condition → Yields yes post) ∧ (¬condition → Yields no post) := by
  by_cases holds : condition <;> simp [holds]

/-- What follows a call that ends with a value. -/
theorem run_bind_some {call : Search α} {value : α} (ends : call.run = .ok (some value))
    (next : α → Search β) : (call >>= next).run = (next value).run := by
  rw [OptionT.run_bind, ends]
  rfl

@[simp] theorem accept_some_bind (value : α) (next : α → Search β) :
    (accept (some value) >>= next) = next value := rfl

@[simp] theorem lift_ok_bind (value : α) (next : α → Search β) :
    ((liftM (.ok value : Checked α) : Search α) >>= next) = next value := rfl

end Rules

section Search

variable {char : Char8} {field rest pointer : List Char8} {more : List (List Char8)}

/-- The text does not contain the character, and does not end. -/
def Clean (char : Char8) (field : List Char8) : Prop := char ∉ field ∧ 0 ∉ field

theorem clean_nil (char : Char8) : Clean char [] := ⟨List.not_mem_nil, List.not_mem_nil⟩

@[simp] theorem clean_cons {first : Char8} :
    Clean char (first :: field) ↔ char ≠ first ∧ 0 ≠ first ∧ Clean char field := by
  simp only [Clean, List.mem_cons, not_or]
  tauto

/-- A clean field has clean parts. -/
theorem clean_append {char : Char8} (front rear : List Char8) :
    Clean char (front ++ rear) ↔ Clean char front ∧ Clean char rear := by
  simp only [Clean, List.mem_append, not_or]
  tauto

/-- The texts behind the places where a string has a character, the first place first. -/
def behind (char : Char8) : List Char8 → List (List Char8)
  | [] => []
  | first :: rest =>
      if first = char then rest :: behind char rest
      else if first = 0 then []
      else behind char rest

/-- The first place is behind a text without the character. -/
theorem behind_eq_cons (found : behind char pointer = rest :: more) :
    behind char rest = more ∧ ∃ field, Clean char field ∧ pointer = field ++ char :: rest := by
  induction pointer with
  | nil => cases found
  | cons first pointer inductionHypothesis =>
      rw [behind] at found
      split_ifs at found with same ended
      · obtain ⟨rfl, rest⟩ := List.cons.inj found
        exact ⟨rest, [], clean_nil char, by rw [same]; rfl⟩
      · obtain ⟨later, field, clean, rfl⟩ := inductionHypothesis found
        exact ⟨later, first :: field, clean_cons.2 ⟨Ne.symm same, Ne.symm ended, clean⟩, rfl⟩

/-- The character behind a text without it is found. -/
theorem strchr_found (clean : Clean char field) (rest : List Char8) :
    (strchr char (field ++ char :: rest)).run = .ok (some (char :: rest)) := by
  induction field with
  | nil =>
      rw [List.nil_append, strchr, if_pos rfl]
      rfl
  | cons first field inductionHypothesis =>
      obtain ⟨other, nonzero, clean⟩ := clean_cons.1 clean
      rw [List.cons_append, strchr, if_neg (Ne.symm other), if_neg (Ne.symm nonzero)]
      exact inductionHypothesis clean

/-- A search ends at the character, or at the end of the string if the object has one. -/
theorem yields_strchr (char : Char8) (pointer : List Char8) (post : List Char8 → Prop) :
    Yields (strchr char pointer) post ↔
      match behind char pointer with
      | rest :: _ => post (char :: rest)
      | [] => 0 ∈ pointer := by
  induction pointer with
  | nil => simp [Yields, strchr, behind]
  | cons first pointer inductionHypothesis =>
      rw [strchr, behind]
      split_ifs with same ended
      · rw [yields_pure, same]
      · simp [ended]
      · rw [inductionHypothesis]
        cases behind char pointer with
        | nil =>
            exact ⟨List.mem_cons_of_mem first,
              fun ends => (List.mem_cons.1 ends).resolve_left (Ne.symm ended)⟩
        | cons rest more => rfl

/-- A tail without the character is behind every place. -/
theorem behind_append {tail : List Char8} (none : char ∉ tail) (front : List Char8) :
    ∀ pointer ∈ behind char (front ++ tail), ∃ rest, pointer = rest ++ tail := by
  induction front with
  | nil =>
      have nothing : behind char tail = [] := by
        induction tail with
        | nil => rfl
        | cons first tail inductionHypothesis =>
            obtain ⟨other, none⟩ := not_or.1 (List.mem_cons.not.1 none)
            rw [behind, if_neg (Ne.symm other), inductionHypothesis none, ite_self]
      rw [List.nil_append, nothing]
      exact nofun
  | cons first front inductionHypothesis =>
      rw [List.cons_append, behind]
      intro pointer found
      split_ifs at found
      · rcases List.mem_cons.1 found with rfl | later
        · exact ⟨front, rfl⟩
        · exact inductionHypothesis pointer later
      · cases found
      · exact inductionHypothesis pointer found

/-- The character behind a text. -/
theorem peek_behind (front : List Char8) (char : Char8) (rest : List Char8) {distance : Nat}
    (place : distance = front.length) : peek (front ++ char :: rest) distance = .ok char := by
  rw [peek, place, List.getElem?_append_right le_rfl, Nat.sub_self]
  rfl

/-- A character is read exactly inside the object. -/
theorem ends_peek_iff (pointer : List Char8) (distance : Nat) :
    Ends (peek pointer distance) (fun _ => True) ↔ distance < pointer.length := by
  rw [peek]
  cases found : pointer[distance]? with
  | none => simpa using List.getElem?_eq_none_iff.1 found
  | some char => simpa using (List.getElem?_eq_some_iff.1 found).1

/-- A peek within the text reads it. -/
theorem ends_peek {pointer : List Char8} {distance : Nat} (inside : distance < pointer.length) :
    peek pointer distance = .ok pointer[distance] := by
  rw [peek, List.getElem?_eq_getElem inside]

end Search

section Numbers

/-- `isspace` -/
def isSpace (char : Char8) : Bool := char = 0x20 || (0x09 ≤ char && char ≤ 0x0D)

/-- `isdigit` -/
def isDigit (char : Char8) : Bool := 0x30 ≤ char && char ≤ 0x39

/-- `isalpha` -/
def isAlpha (char : Char8) : Bool :=
  (0x41 ≤ char && char ≤ 0x5A) || (0x61 ≤ char && char ≤ 0x7A)

/-- The value of a hexadecimal digit, also of a decimal one. -/
def digitValue (char : Char8) : Nat :=
  if isDigit char then char.toNat - 0x30
  else if char ≤ 0x5A then char.toNat - 0x37 else char.toNat - 0x57

/-- `isxdigit` -/
def isXDigit (char : Char8) : Bool :=
  isDigit char || (0x41 ≤ char && char ≤ 0x46) || (0x61 ≤ char && char ≤ 0x66)

/-- The value of digits in a base. -/
def digitsValue (base : Nat) (digits : List Char8) : Nat :=
  digits.foldl (fun value char => base * value + digitValue char) 0

/-- A sign, and what follows it. -/
def sign : List Char8 → Int × List Char8
  | [] => (1, [])
  | first :: rest =>
      if first = 0x2D then (-1, rest) else if first = 0x2B then (1, rest) else (1, first :: rest)

/-- The decimal digits at the start of a text, behind a sign. -/
def signedDigits (text : List Char8) : Int :=
  (sign text).1 * digitsValue 10 ((sign text).2.takeWhile isDigit)

/-- `atoi`, of a value that fits an `int`. -/
def atoi (text : List Char8) : Int := signedDigits (text.dropWhile isSpace)

/-- The digits behind a point. -/
def fraction (isDigit : Char8 → Bool) : List Char8 → List Char8
  | [] => []
  | first :: rest => if first = 0x2E then rest.takeWhile isDigit else []

/-- The exponent behind one of two marks. -/
def exponent (low high : Char8) : List Char8 → Int
  | [] => 0
  | first :: rest => if first = low ∨ first = high then signedDigits rest else 0

/-- The number at the start of a text, in the base of its digits and of its exponent. -/
def number (base scale : Nat) (isDigit : Char8 → Bool) (low high : Char8)
    (text : List Char8) : ℚ :=
  let whole := text.takeWhile isDigit
  let rest := text.drop whole.length
  let parts := fraction isDigit rest
  let rest := if rest.head? = some 0x2E then rest.drop (parts.length + 1) else rest
  if whole ++ parts = [] then 0
  else digitsValue base (whole ++ parts) / base ^ parts.length *
    (scale : ℚ) ^ exponent low high rest

/-- `atof`; the words for what is infinite or not a number are no number. -/
def atof (text : List Char8) : ℚ :=
  let (factor, rest) := sign (text.dropWhile isSpace)
  let hexadecimal := rest.take 2 = [0x30, 0x78] ∨ rest.take 2 = [0x30, 0x58]
  if hexadecimal then factor * number 16 2 isXDigit 0x70 0x50 (rest.drop 2)
  else factor * number 10 10 isDigit 0x65 0x45 rest

end Numbers

section Digits

variable {digits rest : List Char8}

/-- The text consists of decimal digits. -/
def Digits (digits : List Char8) : Prop := ∀ char ∈ digits, isDigit char = true

instance (digits : List Char8) : Decidable (Digits digits) :=
  inferInstanceAs (Decidable (∀ char ∈ digits, isDigit char = true))

/-- The text does not go on with a decimal digit. -/
def Stops (rest : List Char8) : Prop := ∀ char ∈ rest.head?, isDigit char = false

theorem stops_nil : Stops [] := nofun

/-- A number stops at what is no digit. -/
theorem stops_cons {first : Char8} : Stops (first :: rest) ↔ isDigit first = false := by
  simp [Stops]

/-- What is skipped in front of a text that does not begin with it. -/
theorem dropWhile_front {test : Char8 → Bool} {front : List Char8}
    (all : ∀ char ∈ front, test char = true) (stops : ∀ char ∈ rest.head?, test char = false) :
    (front ++ rest).dropWhile test = rest := by
  rw [List.dropWhile_append_of_pos all]
  cases rest with
  | nil => rfl
  | cons first rest => exact List.dropWhile_cons_of_neg (by simp [stops first rfl])

/-- What is taken in front of a text that does not begin with it. -/
theorem takeWhile_front {test : Char8 → Bool} {front : List Char8}
    (all : ∀ char ∈ front, test char = true) (stops : ∀ char ∈ rest.head?, test char = false) :
    (front ++ rest).takeWhile test = front := by
  rw [List.takeWhile_append_of_pos all]
  cases rest with
  | nil => rw [List.takeWhile_nil, List.append_nil]
  | cons first rest =>
      rw [List.takeWhile_cons_of_neg (by simp [stops first rfl]), List.append_nil]

/-- The digits at the start of a text. -/
theorem takeWhile_digits (all : Digits digits) (stops : Stops rest) :
    (digits ++ rest).takeWhile isDigit = digits := takeWhile_front all stops

/-- Digits behind digits. -/
theorem digitsValue_append (base : Nat) (digits more : List Char8) :
    digitsValue base (digits ++ more) =
      digitsValue base digits * base ^ more.length + digitsValue base more := by
  induction more using List.reverseRecOn with
  | nil => simp [digitsValue]
  | append_singleton more char inductionHypothesis =>
      have step (front : List Char8) : digitsValue base (front ++ [char]) =
          base * digitsValue base front + digitValue char := by
        simp [digitsValue]
      rw [← List.append_assoc, step, step, inductionHypothesis, List.length_append,
        List.length_singleton]
      ring

/-- A digit is neither white space nor a sign nor a point. -/
theorem digit_cases {char : Char8} (digit : isDigit char = true) :
    isSpace char = false ∧ char ≠ 0x2D ∧ char ≠ 0x2B ∧ char ≠ 0x2E := by
  simp only [isDigit, Bool.and_eq_true, decide_eq_true_eq] at digit
  refine ⟨?_, ?_, ?_, ?_⟩
  · simp only [isSpace, Bool.or_eq_false_iff, Bool.and_eq_false_iff, decide_eq_false_iff_not]
    exact ⟨by bv_omega, .inr (by bv_omega)⟩
  all_goals bv_omega

/-- A text that begins with none of them is read as it stands. -/
theorem sign_none {first : Char8} (minus : first ≠ 0x2D) (plus : first ≠ 0x2B) :
    sign (first :: rest) = (1, first :: rest) := by
  rw [sign, if_neg minus, if_neg plus]

/-- The digits in front of another character are read as one number. -/
theorem atoi_digits (all : Digits digits) (some : digits ≠ []) (stops : Stops rest) :
    atoi (digits ++ rest) = digitsValue 10 digits := by
  cases digits with
  | nil => exact absurd rfl some
  | cons first digits =>
      obtain ⟨notSpace, minus, plus, -⟩ := digit_cases (all first List.mem_cons_self)
      have start : ((first :: digits) ++ rest).dropWhile isSpace = first :: (digits ++ rest) :=
        List.dropWhile_cons_of_neg (by simp [notSpace])
      have found := takeWhile_digits all stops
      rw [List.cons_append] at found
      rw [atoi, start, signedDigits, sign_none minus plus, found, one_mul]

end Digits

section Decimals

/-- A decimal number as it is written: a minus sign or none, digits, and a point with more
digits or none. -/
structure Decimal where
  negative : Bool
  whole : List Char8
  parts : Option (List Char8)
  wholeDigits : Digits whole
  partsDigits : ∀ digits ∈ parts, Digits digits

namespace Decimal

/-- The characters from the point on. -/
def tail (decimal : Decimal) : List Char8 :=
  match decimal.parts with
  | some digits => 0x2E :: digits
  | none => []

/-- The digits and the point of a number. -/
def body (decimal : Decimal) : List Char8 := decimal.whole ++ decimal.tail

/-- The text of a number. -/
def text (decimal : Decimal) : List Char8 :=
  (if decimal.negative then [0x2D] else []) ++ decimal.body

/-- The number a text is written for. -/
def value (decimal : Decimal) : ℚ :=
  let digits := decimal.parts.getD []
  (if decimal.negative then -1 else 1) *
    (digitsValue 10 decimal.whole + digitsValue 10 digits / 10 ^ digits.length)

/-- A decimal stops behind its digits. -/
theorem stops_tail (decimal : Decimal) : Stops decimal.tail := by
  unfold tail
  split
  · exact stops_cons.2 rfl
  · exact stops_nil

/-- A decimal consists of digits and points. -/
theorem body_chars (decimal : Decimal) :
    ∀ char ∈ decimal.body, isDigit char = true ∨ char = 0x2E := by
  intro char found
  rcases List.mem_append.1 found with whole | tail
  · exact .inl (decimal.wholeDigits char whole)
  · unfold Decimal.tail at tail
    split at tail
    · rename_i digits parts
      rcases List.mem_cons.1 tail with point | digit
      · exact .inr point
      · exact .inl (decimal.partsDigits digits parts char digit)
    · cases tail

/-- The characters of a number are neither white space, signs nor letters. -/
theorem body_plain (decimal : Decimal) {char : Char8} (found : char ∈ decimal.body) :
    isSpace char = false ∧ char ≠ 0x2D ∧ char ≠ 0x2B ∧ char ≠ 0x78 ∧ char ≠ 0x58 := by
  rcases decimal.body_chars char found with digit | rfl
  · obtain ⟨notSpace, minus, plus, -⟩ := digit_cases digit
    refine ⟨notSpace, minus, plus, ?_, ?_⟩ <;> rintro rfl <;> cases digit
  · decide

/-- The digits of a number are read in full. -/
theorem number_body (decimal : Decimal) :
    number 10 10 isDigit 0x65 0x45 decimal.body =
      digitsValue 10 decimal.whole +
        digitsValue 10 (decimal.parts.getD []) / 10 ^ (decimal.parts.getD []).length := by
  have whole : decimal.body.takeWhile isDigit = decimal.whole :=
    takeWhile_digits decimal.wholeDigits decimal.stops_tail
  have rest : decimal.body.drop decimal.whole.length = decimal.tail := List.drop_left
  have parts : fraction isDigit decimal.tail = decimal.parts.getD [] := by
    cases found : decimal.parts with
    | none => rw [tail, found]; rfl
    | some digits =>
        have all := takeWhile_digits (decimal.partsDigits digits found) stops_nil
        rw [List.append_nil] at all
        rw [tail, found]
        exact all
  have nothing : (if decimal.tail.head? = some 0x2E
      then decimal.tail.drop ((decimal.parts.getD []).length + 1) else decimal.tail) = [] := by
    cases found : decimal.parts with
    | none => rw [tail, found]; rfl
    | some digits =>
        rw [tail, found]
        exact (if_pos rfl).trans List.drop_length
  rw [number, whole, rest, parts]
  simp only [nothing]
  split
  · rename_i empty
    obtain ⟨whole, parts⟩ := List.append_eq_nil_iff.1 empty
    simp [whole, parts, digitsValue]
  · rw [digitsValue_append]
    simp [exponent]
    field_simp

/-- A number is read by its sign and its digits. -/
theorem sign_text (decimal : Decimal) :
    sign (decimal.text.dropWhile isSpace) =
      (if decimal.negative then -1 else 1, decimal.body) := by
  rw [text]
  cases decimal.negative with
  | true => rfl
  | false =>
      rw [if_neg Bool.false_ne_true, if_neg Bool.false_ne_true, List.nil_append]
      have plain (char : Char8) (found : char ∈ decimal.body) := decimal.body_plain found
      cases body : decimal.body with
      | nil => rfl
      | cons first rest =>
          obtain ⟨notSpace, minus, plus, -⟩ := plain first (body ▸ List.mem_cons_self)
          rw [List.dropWhile_cons_of_neg (by simp [notSpace]), sign_none minus plus]

/-- The whole text of a number is read as that number. -/
theorem atof_text (decimal : Decimal) : atof decimal.text = decimal.value := by
  have plain : ¬ (decimal.body.take 2 = [0x30, 0x78] ∨ decimal.body.take 2 = [0x30, 0x58]) := by
    rintro (hexadecimal | hexadecimal)
    · have found : 0x78 ∈ decimal.body :=
        List.mem_of_mem_take (hexadecimal ▸ List.mem_cons_of_mem _ List.mem_cons_self)
      exact (decimal.body_plain found).2.2.2.1 rfl
    · have found : 0x58 ∈ decimal.body :=
        List.mem_of_mem_take (hexadecimal ▸ List.mem_cons_of_mem _ List.mem_cons_self)
      exact (decimal.body_plain found).2.2.2.2 rfl
  simp only [atof, decimal.sign_text, if_neg plain, decimal.number_body, value]
  split <;> simp

end Decimal

end Decimals

end Rsu.CString
