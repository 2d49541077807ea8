import Rsu.Rcp.Codec
import Rsu.Semantics.CNumeral

/-!
# The address parser of the command line

`mac_pton` reads three groups with `strtol` and looks at how many characters each of them took.
White space, a sign and a mark count like digits.
-/

namespace Rsu.Cli

open Rsu.Rcp Rsu.CString

/-- `LONG_MIN` -/
def longMin : Int := -2 ^ 31

/-- `LONG_MAX` -/
def longMax : Int := 2 ^ 31 - 1

/-- What `ntohs` of a number leaves in a `short`. -/
def storedShort (value : Int) : Frame := store16 (cvNtohs (BitVec.ofInt 16 value))

/-- The loop of `mac_pton` with so many turns left: the result, and the bytes it stores. A `short`
is stored before its group is looked at. -/
def macPtonLoop : Nat → List Char8 → Int × Frame
  | 0, _ => (-1, [])
  | left + 1, p =>
      let (value, endptr) := strtol16 longMin longMax p
      let stored := storedShort value
      if p.length - endptr.length ≠ 4 then (-1, stored)
      else
        match endptr with
        | [] => (if left = 0 then 0 else -1, stored)
        | char :: p =>
            if char = 0x2E then
              let (result, more) := macPtonLoop left p
              (result, stored ++ more)
            else (-1, stored)

/-- `mac_pton`. A string is the characters in front of its terminator. -/
def macPton (p : List Char8) : Int × Frame := macPtonLoop 3 p

/-- The bytes that are written in hexadecimal digits, two for each. -/
def hexBytes : List Char8 → Frame
  | high :: low :: rest =>
      BitVec.ofNat 8 (16 * digitValue high + digitValue low) :: hexBytes rest
  | _ => []

/-- Groups of characters with a point between them. -/
def grouped : List (List Char8) → List Char8
  | [] => []
  | [group] => group
  | group :: groups => group ++ 0x2E :: grouped groups

@[simp] theorem grouped_cons_cons (group next : List Char8) (groups : List (List Char8)) :
    grouped (group :: next :: groups) = group ++ 0x2E :: grouped (next :: groups) := rfl

/-- The string is three groups of four hexadecimal digits. -/
structure MacForm (p digits : List Char8) : Prop where
  twelve : digits.length = 12
  hexadecimal : ∀ char ∈ digits, isXDigit char = true
  form : p = grouped [digits.take 4, (digits.drop 4).take 4, digits.drop 8]

/-- The string is parsed as it should. -/
structure MacParsed (p : List Char8) : Prop where
  accepted : ∀ digits, MacForm p digits → macPton p = (0, hexBytes digits)
  refused : (∀ digits, ¬ MacForm p digits) → (macPton p).1 = -1
  bounded : (macPton p).2.length ≤ 6

/-- A group of four characters that is a number to `strtol`. -/
def LooseGroup (group : List Char8) : Prop :=
  group.length = 4 ∧ ∃ numeral : HexNumeral, numeral.text = group

/-- The string is three groups that are numbers to `strtol`, with something else than digits in
one of them. -/
def LooseForm (p : List Char8) : Prop :=
  ∃ first second third, p = grouped [first, second, third] ∧
    (∀ group ∈ [first, second, third], LooseGroup group) ∧
    ∃ group ∈ [first, second, third], ∃ char ∈ group, isXDigit char = false

section Loop

variable {left : Nat} {p group rest : List Char8} {groups : List (List Char8)}

/-- The result is zero or minus one. -/
theorem macPtonLoop_result (left : Nat) (p : List Char8) :
    (macPtonLoop left p).1 = 0 ∨ (macPtonLoop left p).1 = -1 := by
  induction left generalizing p with
  | zero => exact .inr rfl
  | succ left inductionHypothesis =>
      simp only [macPtonLoop]
      split
      · exact .inr rfl
      · split
        · split
          · exact .inl rfl
          · exact .inr rfl
        · split
          · exact inductionHypothesis _
          · exact .inr rfl

/-- Two bytes are stored in a turn. -/
theorem macPtonLoop_length (left : Nat) (p : List Char8) :
    (macPtonLoop left p).2.length ≤ 2 * left := by
  induction left generalizing p with
  | zero => exact Nat.le_refl 0
  | succ left inductionHypothesis =>
      simp only [macPtonLoop]
      split
      · exact Nat.le_add_left 2 _
      · split
        · exact Nat.le_add_left 2 _
        · next char p _ =>
          have later := inductionHypothesis p
          split
          · simp only [List.length_append]
            exact Nat.le_trans (Nat.add_le_add_left later 2) (by omega)
          · exact Nat.le_add_left 2 _

/-- Neither the end nor a point continues a number. -/
theorem endsNumeral_nil : EndsNumeral [] := nofun

/-- A point ends a number. -/
theorem endsNumeral_point (p : List Char8) : EndsNumeral (0x2E :: p) := by
  rintro char ⟨⟩
  decide

/-- A group is read in full. -/
theorem strtol16_group (loose : LooseGroup group) (ends : EndsNumeral rest) :
    ∃ value, strtol16 longMin longMax (group ++ rest) = (value, rest) := by
  obtain ⟨-, numeral, rfl⟩ := loose
  exact ⟨_, strtol16_text _ _ numeral ends⟩

/-- Four characters that were taken are a group. -/
theorem exists_group
    (four : p.length - (strtol16 longMin longMax p).2.length = 4) :
    ∃ group, LooseGroup group ∧ p = group ++ (strtol16 longMin longMax p).2 := by
  rcases exists_numeral longMin longMax p with nothing | ⟨numeral, read⟩
  · rw [nothing] at four
    omega
  · refine ⟨numeral.text, ⟨?_, numeral, rfl⟩, read⟩
    have length := congrArg List.length read
    rw [List.length_append] at length
    omega

/-- The last turn. -/
theorem macPtonLoop_last {value : Int} (four : group.length = 4)
    (read : strtol16 longMin longMax group = (value, [])) :
    macPtonLoop 1 group = (0, storedShort value) := by
  simp only [macPtonLoop, read, four]
  rfl

/-- A turn that is not the last. -/
theorem macPtonLoop_point {value : Int} (four : group.length = 4)
    (read : strtol16 longMin longMax (group ++ 0x2E :: p) = (value, 0x2E :: p)) (left : Nat) :
    macPtonLoop (left + 1) (group ++ 0x2E :: p) =
      ((macPtonLoop left p).1, storedShort value ++ (macPtonLoop left p).2) := by
  have taken : (group ++ 0x2E :: p).length - (0x2E :: p).length = 4 := by
    rw [List.length_append, four]
    omega
  simp only [macPtonLoop, read, taken]
  rfl

/-- A turn that leads to acceptance. -/
theorem macPtonLoop_turn (accepted : (macPtonLoop (left + 1) p).1 = 0) :
    ∃ group, LooseGroup group ∧
      (p = group ∧ left = 0 ∨ ∃ rest, p = group ++ 0x2E :: rest ∧ (macPtonLoop left rest).1 = 0) := by
  simp only [macPtonLoop] at accepted
  split at accepted
  · cases accepted
  · next four =>
    obtain ⟨group, loose, read⟩ := exists_group (not_not.1 four)
    refine ⟨group, loose, ?_⟩
    split at accepted
    · next ended =>
      rw [ended, List.append_nil] at read
      split at accepted
      · next last => exact .inl ⟨read, last⟩
      · cases accepted
    · next char rest ended =>
      split at accepted
      · next point =>
        rw [ended, point] at read
        exact .inr ⟨rest, read, accepted⟩
      · cases accepted

/-- The loop accepts groups that are numbers to `strtol`, one in each turn. -/
theorem macPtonLoop_zero_iff (left : Nat) (p : List Char8) :
    (macPtonLoop (left + 1) p).1 = 0 ↔
      ∃ groups, groups.length = left + 1 ∧ p = grouped groups ∧
        ∀ group ∈ groups, LooseGroup group := by
  constructor
  · induction left generalizing p with
    | zero =>
        intro accepted
        obtain ⟨group, loose, ⟨rfl, -⟩ | ⟨rest, -, more⟩⟩ := macPtonLoop_turn accepted
        · exact ⟨[p], rfl, rfl, fun other member => List.mem_singleton.1 member ▸ loose⟩
        · cases more
    | succ left inductionHypothesis =>
        intro accepted
        obtain ⟨group, loose, ⟨-, last⟩ | ⟨rest, rfl, more⟩⟩ := macPtonLoop_turn accepted
        · cases last
        · obtain ⟨groups, length, rfl, later⟩ := inductionHypothesis rest more
          match groups with
          | next :: groups =>
              refine ⟨group :: next :: groups, by rw [List.length_cons, length], rfl, ?_⟩
              exact List.forall_mem_cons.2 ⟨loose, later⟩
  · rintro ⟨groups, length, rfl, loose⟩
    induction left generalizing groups with
    | zero =>
        obtain ⟨group, rfl⟩ := List.length_eq_one_iff.1 length
        have last := loose group List.mem_cons_self
        obtain ⟨value, read⟩ := strtol16_group last endsNumeral_nil
        rw [List.append_nil] at read
        exact congrArg Prod.fst (macPtonLoop_last last.1 read)
    | succ left inductionHypothesis =>
        match groups with
        | group :: next :: groups =>
            have first := loose group List.mem_cons_self
            obtain ⟨value, read⟩ := strtol16_group first (endsNumeral_point (grouped (next :: groups)))
            have later := inductionHypothesis (next :: groups) (by simpa using length)
              fun other member => loose other (List.mem_cons_of_mem _ member)
            exact (congrArg Prod.fst (macPtonLoop_point first.1 read (left + 1))).trans later

/-- A digit has a value below sixteen. -/
theorem digitValue_lt : ∀ char : Char8, isXDigit char = true → digitValue char < 16 := by
  decide +kernel

/-- A group of digits is stored as their bytes. -/
theorem storedShort_digits {first second third fourth : Char8}
    (all : ∀ char ∈ [first, second, third, fourth], isXDigit char = true) :
    storedShort (max longMin (min longMax (digitsValue 16 [first, second, third, fourth]))) =
      hexBytes [first, second, third, fourth] := by
  have a := digitValue_lt first (all _ (by simp))
  have b := digitValue_lt second (all _ (by simp))
  have c := digitValue_lt third (all _ (by simp))
  have d := digitValue_lt fourth (all _ (by simp))
  have value : digitsValue 16 [first, second, third, fourth] =
      256 * (16 * digitValue first + digitValue second) + (16 * digitValue third + digitValue fourth) := by
    simp [digitsValue]
    omega
  generalize high : 16 * digitValue first + digitValue second = x at value
  generalize low : 16 * digitValue third + digitValue fourth = y at value
  have inside : max longMin (min longMax (digitsValue 16 [first, second, third, fourth] : Int)) =
      ((256 * x + y : Nat) : Int) := by
    rw [value, longMin, longMax]
    omega
  have word : BitVec.ofInt 16 ((256 * x + y : Nat) : Int) = BitVec.ofNat 8 x ++ BitVec.ofNat 8 y := by
    have small : y < 2 ^ 8 := by omega
    apply BitVec.eq_of_toNat_eq
    rw [BitVec.ofInt_natCast, BitVec.toNat_append, BitVec.toNat_ofNat, BitVec.toNat_ofNat,
      BitVec.toNat_ofNat, Nat.mod_eq_of_lt small, Nat.mod_eq_of_lt (by omega : x < 2 ^ 8),
      ← Nat.shiftLeft_add_eq_or_of_lt small, Nat.shiftLeft_eq]
    omega
  rw [inside, storedShort, word, cvNtohs, BitVec.extractLsb'_append_eq_right,
    BitVec.extractLsb'_append_eq_left, store16_append, hexBytes, hexBytes, high,
    low]
  rfl

/-- Four hexadecimal digits. -/
def HexGroup (group : List Char8) : Prop :=
  group.length = 4 ∧ ∀ char ∈ group, isXDigit char = true

/-- Four digits are a number to `strtol`. -/
theorem HexGroup.loose (hexadecimal : HexGroup group) : LooseGroup group := by
  obtain ⟨four, all⟩ := hexadecimal
  have some : group ≠ [] := by
    rintro rfl
    cases four
  exact ⟨four, .ofDigits group all some, rfl⟩

/-- Four digits are read as the value that is stored as their bytes. -/
theorem strtol16_hexGroup (hexadecimal : HexGroup group) (ends : EndsNumeral rest) :
    ∃ value, strtol16 longMin longMax (group ++ rest) = (value, rest) ∧
      storedShort value = hexBytes group := by
  obtain ⟨four, all⟩ := hexadecimal
  match group with
  | [first, second, third, fourth] =>
      have read := strtol16_text longMin longMax (.ofDigits _ all nofun) ends
      refine ⟨_, read, ?_⟩
      rw [← storedShort_digits all]
      simp [HexNumeral.value, HexNumeral.ofDigits]

/-- Groups of digits are accepted, and their bytes are stored in order. -/
theorem macPtonLoop_digits (left : Nat) (length : groups.length = left + 1)
    (hexadecimal : ∀ group ∈ groups, HexGroup group) :
    macPtonLoop (left + 1) (grouped groups) = (0, groups.flatMap hexBytes) := by
  induction left generalizing groups with
  | zero =>
      obtain ⟨group, rfl⟩ := List.length_eq_one_iff.1 length
      have last := hexadecimal group List.mem_cons_self
      obtain ⟨value, read, stored⟩ := strtol16_hexGroup last endsNumeral_nil
      rw [List.append_nil] at read
      simp [grouped, macPtonLoop_last last.1 read, stored]
  | succ left inductionHypothesis =>
      match groups with
      | group :: next :: groups =>
          have first := hexadecimal group List.mem_cons_self
          obtain ⟨value, read, stored⟩ :=
            strtol16_hexGroup first (endsNumeral_point (grouped (next :: groups)))
          have later : macPtonLoop (left + 1) (grouped (next :: groups)) = _ :=
            inductionHypothesis (by simpa using length)
              fun other member => hexadecimal other (List.mem_cons_of_mem _ member)
          rw [grouped_cons_cons, macPtonLoop_point first.1 read, later, stored]
          rfl

end Loop

section Form

variable {p digits : List Char8}

/-- The groups of a string in the proper form. -/
theorem MacForm.hexGroups (form : MacForm p digits) :
    ∀ group ∈ [digits.take 4, (digits.drop 4).take 4, digits.drop 8], HexGroup group := by
  have twelve := form.twelve
  have all := form.hexadecimal
  simp only [List.forall_mem_cons]
  refine ⟨⟨?_, ?_⟩, ⟨?_, ?_⟩, ⟨?_, ?_⟩, nofun⟩
  · simp [twelve]
  · exact fun char found => all char (List.mem_of_mem_take found)
  · simp [twelve]
  · exact fun char found => all char (List.mem_of_mem_drop (List.mem_of_mem_take found))
  · simp [twelve]
  · exact fun char found => all char (List.mem_of_mem_drop found)

/-- The bytes of the groups are the bytes of the digits. -/
theorem flatMap_hexBytes (twelve : digits.length = 12) :
    [digits.take 4, (digits.drop 4).take 4, digits.drop 8].flatMap hexBytes = hexBytes digits := by
  match digits with
  | [_, _, _, _, _, _, _, _, _, _, _, _] => rfl

/-- The groups of a string are where they are. -/
theorem grouped_inj {first second third first' second' third' : List Char8}
    (same : grouped [first, second, third] = grouped [first', second', third'])
    (four : first.length = 4 ∧ second.length = 4)
    (four' : first'.length = 4 ∧ second'.length = 4) :
    first = first' ∧ second = second' ∧ third = third' := by
  simp only [grouped_cons_cons] at same
  obtain ⟨rfl, behind⟩ := List.append_inj same (four.1.trans four'.1.symm)
  obtain ⟨rfl, last⟩ := List.append_inj (List.cons.inj behind).2 (four.2.trans four'.2.symm)
  exact ⟨rfl, rfl, (List.cons.inj last).2⟩

/-- A string is accepted exactly if it has the proper form or the loose one. -/
theorem macPton_zero_iff : (macPton p).1 = 0 ↔ (∃ digits, MacForm p digits) ∨ LooseForm p := by
  rw [macPton, macPtonLoop_zero_iff]
  constructor
  · rintro ⟨groups, three, rfl, loose⟩
    obtain ⟨first, second, third, rfl⟩ := List.length_eq_three.1 three
    by_cases other : ∃ group ∈ [first, second, third], ∃ char ∈ group, isXDigit char = false
    · exact .inr ⟨first, second, third, rfl, loose, other⟩
    · have hexadecimal : ∀ group ∈ [first, second, third], ∀ char ∈ group, isXDigit char = true := by
        intro group member char found
        by_contra wrong
        exact other ⟨group, member, char, found, Bool.eq_false_iff.2 wrong⟩
      have four (group : List Char8) (member : group ∈ [first, second, third]) : group.length = 4 :=
        (loose group member).1
      simp only [List.forall_mem_cons] at hexadecimal four
      obtain ⟨one, two, three, -⟩ := four
      refine .inl ⟨first ++ (second ++ third), by simp [one, two, three], ?_, ?_⟩
      · simp only [List.forall_mem_append]
        exact ⟨hexadecimal.1, hexadecimal.2.1, hexadecimal.2.2.1⟩
      · have tail : (first ++ (second ++ third)).drop 4 = second ++ third := List.drop_left' one
        have last : (first ++ (second ++ third)).drop 8 = third := by
          rw [← List.append_assoc]
          exact List.drop_left' (by simp [one, two])
        rw [tail, last, List.take_left' one, List.take_left' two]
  · rintro (⟨digits, form⟩ | ⟨first, second, third, rfl, loose, -⟩)
    · exact ⟨_, rfl, form.form, fun group member => (form.hexGroups group member).loose⟩
    · exact ⟨_, rfl, rfl, loose⟩

/-- No string has both forms. -/
theorem LooseForm.not_macForm (loose : LooseForm p) : ¬ MacForm p digits := by
  intro form
  obtain ⟨first, second, third, rfl, groups, group, member, char, found, other⟩ := loose
  have hexGroups := form.hexGroups
  have four := List.forall_mem_cons.1 groups
  have four' := List.forall_mem_cons.1 hexGroups
  obtain ⟨rfl, rfl, rfl⟩ := grouped_inj form.form ⟨four.1.1, (List.forall_mem_cons.1 four.2).1.1⟩
    ⟨four'.1.1, (List.forall_mem_cons.1 four'.2).1.1⟩
  have digit := (hexGroups group member).2 char found
  rw [other] at digit
  cases digit

/-- A string is parsed as it should exactly if it does not have the loose form. -/
theorem macParsed_iff (p : List Char8) : MacParsed p ↔ ¬ LooseForm p := by
  constructor
  · intro parsed loose
    have refused := parsed.refused fun _ => loose.not_macForm
    rw [macPton_zero_iff.2 (.inr loose)] at refused
    cases refused
  · intro proper
    exact {
      accepted := by
        intro digits form
        rw [macPton, form.form, macPtonLoop_digits 2 rfl form.hexGroups, flatMap_hexBytes form.twelve]
      refused := by
        intro none
        refine (macPtonLoop_result 3 p).resolve_left fun zero => ?_
        rcases macPton_zero_iff.1 zero with ⟨digits, form⟩ | loose
        · exact none digits form
        · exact proper loose
      bounded := macPtonLoop_length 3 p }

/-- The string `0x1f.0000.0000`. -/
def markedMac : List Char8 :=
  [0x30, 0x78, 0x31, 0x66, 0x2E, 0x30, 0x30, 0x30, 0x30, 0x2E, 0x30, 0x30, 0x30, 0x30]

/-- The marked address has the loose form. -/
theorem markedMac_loose : LooseForm markedMac := by
  have zeros : LooseGroup [0x30, 0x30, 0x30, 0x30] := HexGroup.loose ⟨rfl, by decide⟩
  have marked : LooseGroup [0x30, 0x78, 0x31, 0x66] :=
    ⟨rfl, ⟨[], [], [0x30, 0x78], [0x31, 0x66], List.forall_mem_nil _, .inl rfl, .inr (.inl rfl),
      by decide, by simp⟩, rfl⟩
  refine ⟨[0x30, 0x78, 0x31, 0x66], [0x30, 0x30, 0x30, 0x30], [0x30, 0x30, 0x30, 0x30], rfl, ?_,
    _, List.mem_cons_self, 0x78, by decide, rfl⟩
  simp only [List.forall_mem_cons]
  exact ⟨marked, zeros, zeros, List.forall_mem_nil _⟩

/-- A mark counts as two digits. -/
theorem mark_accepted : ¬ MacParsed markedMac := by
  intro parsed
  have refused := parsed.refused fun _ => markedMac_loose.not_macForm
  rw [macPton_zero_iff.2 (.inr markedMac_loose)] at refused
  cases refused

end Form

end Rsu.Cli
