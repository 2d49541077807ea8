import Rsu.Cli.Mac
import Rsu.Cli.Templates

/-!
# How a word matches a template

A word of a template is a literal, or it stands for a kind of words: a number of a range, an
address, anything. `enum match_type` orders the kinds; what matches in a higher kind hides what
matches in a lower one.
-/

namespace Rsu.Cli.Command

open Rsu.CString

/-- `enum match_type` -/
inductive MatchType where
  | noMatch
  | extendMatch
  | ipv4PrefixMatch
  | ipv4Match
  | ipv6PrefixMatch
  | ipv6Match
  | rangeMatch
  | multiMatch
  | varargMatch
  | partlyMatch
  | exactMatch
  deriving DecidableEq

/-- The value of an enumerator. -/
def MatchType.rank : MatchType → Nat
  | .noMatch => 0
  | .extendMatch => 1
  | .ipv4PrefixMatch => 2
  | .ipv4Match => 3
  | .ipv6PrefixMatch => 4
  | .ipv6Match => 5
  | .rangeMatch => 6
  | .multiMatch => 7
  | .varargMatch => 8
  | .partlyMatch => 9
  | .exactMatch => 10

/-- Different matches have different ranks. -/
theorem MatchType.rank_injective : Function.Injective MatchType.rank := by
  intro left right same
  cases left <;> cases right <;> first | rfl | cases same

/-- The order of the enumerators. -/
instance : LinearOrder MatchType := LinearOrder.lift' MatchType.rank MatchType.rank_injective

/-! ### Characters -/

/-- `tolower` -/
def toLower (char : Char8) : Char8 :=
  if 0x41 ≤ char ∧ char ≤ 0x5A then char + 0x20 else char

/-- A text in lower case. -/
def lowered (text : Text) : Text := text.map toLower

/-- `strcasecmp` finds no difference. -/
def sameText (left right : Text) : Bool := lowered left = lowered right

/-- `strncasecmp (left, right, strlen (left))` finds no difference. -/
def startsText (left right : Text) : Bool := (lowered left).isPrefixOf (lowered right)

/-- `CMD_VARIABLE` -/
def cmdVariable (word : Text) : Bool :=
  word.head?.any fun char => (0x41 ≤ char && char ≤ 0x5A) || char = 0x3C

/-- `CMD_VARARG` -/
def cmdVararg (word : Text) : Bool := word.head? = some 0x2E

/-- `CMD_RANGE` -/
def cmdRange (word : Text) : Bool := word.head? = some 0x3C

/-- `CMD_MULTI` -/
def cmdMulti (word : Text) : Bool := word.head? = some 0x7B

/-- `A.B.C.D` -/
def ipv4Word : Text := [0x41, 0x2E, 0x42, 0x2E, 0x43, 0x2E, 0x44]

/-- `CMD_IPV4` -/
def cmdIpv4 (word : Text) : Bool := word = ipv4Word

/-- `CMD_IPV4_PREFIX` -/
def cmdIpv4Prefix (word : Text) : Bool := word = ipv4Word ++ [0x2F, 0x4D]

/-! ### Numbers -/

/-- `cmd_range_match`, of a word that is not `NULL`. -/
def cmdRangeMatch (range str : Text) : Bool :=
  let (val, endptr) := strtol10 longMin longMax str
  if endptr ≠ [] then false
  else
    let (min, endptr) := strtol10 longMin longMax (range.drop 1)
    if endptr.head? ≠ some 0x2D then false
    else
      let (max, endptr) := strtol10 longMin longMax (endptr.drop 1)
      if endptr.head? ≠ some 0x3E then false
      else !(val < min || max < val)

/-- `DECIMAL_STRLEN_MAX` -/
def decimalStrlenMax : Nat := 10

/-- `ULONG_MAX` -/
def ulongMax : Nat := 2 ^ 32 - 1

/-- A bound of `cmd_multi_match`, in front of a character, and what is behind it. -/
def multiBound (stop : Char8) (range : Text) : Option (Nat × Text) :=
  let number := range.takeWhile (· ≠ stop)
  let rest := range.dropWhile (· ≠ stop)
  if rest = [] then none
  else if decimalStrlenMax < number.length then none
  else
    let (bound, endptr) := strtoul10 ulongMax number
    if endptr ≠ [] then none else some (bound, rest.drop 1)

/-- A number that `cmd_multi_match` copies to `buf`; a longer one overruns it. -/
def multiNumber (sp : Text) : Checked (Option Nat) := do
  Checked.writable (decimalStrlenMax + 1) 0 (sp.length + 1)
  let (val, endptr) := strtoul10 ulongMax sp
  return if endptr ≠ [] then none else some val

/-- The loop of `cmd_multi_match` over the numbers of a word, with so many turns left. -/
def multiFrom (min max : Nat) : Nat → Text → Checked Bool
  | 0, _ => return true
  | turns + 1, cp => do
      let cp := cp.dropWhile isSpace
      let sp := cp.takeWhile fun char => char ≠ 0x2C && char ≠ 0x2D
      if sp = [] then return true
      let some val ← multiNumber sp | return false
      if val < min ∨ max < val then return false
      let cp := cp.drop sp.length
      if cp.head? = some 0x2D then
        let sp := (cp.drop 1).takeWhile (· ≠ 0x2C)
        if sp = [] then return true
        let some valMax ← multiNumber sp | return false
        if valMax < val ∨ valMax < min ∨ max < valMax then return false
        multiFrom min max turns ((cp.drop 1).drop sp.length)
      else if cp = [] then return true
      else multiFrom min max turns (cp.drop 1)

/-- `cmd_multi_match`, of a word that is not `NULL`. Every turn takes a character at least. -/
def cmdMultiMatch (range str : Text) : Checked Bool :=
  match multiBound 0x2D (range.drop 1) with
  | none => return false
  | some (min, range) =>
      match multiBound 0x7D range with
      | none => return false
      | some (max, _) => multiFrom min max (str.length + 1) str

/-! ### Addresses -/

/-- What `cmd_ipv4_match` asks of a part of the address. -/
def ipv4Part (part : Text) : Bool := part.length ≤ 3 && atoi part ≤ 255

/-- `cmd_ipv4_match` from some place on, behind the characters of a part. -/
def ipv4From (part : Text) (dots nums : Nat) : Text → MatchType
  | [] =>
      if !ipv4Part part then .noMatch
      else if nums + 1 < 4 then .partlyMatch
      else .exactMatch
  | char :: str =>
      if char = 0x2E then
        if 3 ≤ dots then .noMatch
        else if str.head? = some 0x2E then .noMatch
        else if str = [] then .partlyMatch
        else if !ipv4Part part then .noMatch
        else ipv4From [] (dots + 1) (nums + 1) str
      else if !isDigit char then .noMatch
      else ipv4From (part ++ [char]) dots nums str

/-- `cmd_ipv4_match`, of a word that is not `NULL`. -/
def cmdIpv4Match (str : Text) : MatchType := ipv4From [] 0 0 str

/-- The digits of the mask behind the `/`. -/
def ipv4Mask (sp : Text) : MatchType :=
  if !sp.all isDigit then .noMatch else if 32 < atoi sp then .noMatch else .exactMatch

/-- `cmd_ipv4_prefix_match` from some place on, behind the characters of a part. -/
def ipv4PrefixFrom (part : Text) (dots : Nat) : Text → MatchType
  | [] => if !ipv4Part part then .noMatch else .partlyMatch
  | char :: str =>
      if char = 0x2E then
        if dots = 3 then .noMatch
        else if str.head? = some 0x2E ∨ str.head? = some 0x2F then .noMatch
        else if str = [] then .partlyMatch
        else if !ipv4Part part then .noMatch
        else ipv4PrefixFrom [] (dots + 1) str
      else if char = 0x2F then
        if !ipv4Part part then .noMatch
        else if dots = 3 then if str = [] then .partlyMatch else ipv4Mask str
        else ipv4PrefixFrom [] dots str
      else if !isDigit char then .noMatch
      else ipv4PrefixFrom (part ++ [char]) dots str

/-- `cmd_ipv4_prefix_match`, of a word that is not `NULL`. -/
def cmdIpv4PrefixMatch (str : Text) : MatchType := ipv4PrefixFrom [] 0 str

section Ipv4

end Ipv4

end Rsu.Cli.Command
