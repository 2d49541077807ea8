import Rsu.Rcp.Frame

/-!
# The user table of the command line

The table that the telnet sessions share. `get_user_info` returns a variable that it never
sets, and says that a name is unknown in an output nobody reads; what is left of the lookup is
a buffer that was cleared before. So an unknown name has the empty password.
-/

namespace Rsu.Cli

open Rsu.Rcp

/-- `MAX_CLI_USER` -/
def maxCliUser : Nat := 4

/-- `MAX_USER_NAME_LEN` -/
def maxUserNameLen : Nat := 16

/-- `MAX_PASSWD_LEN` -/
def maxPasswdLen : Nat := 16

/-- The characters of a string in an array of `room + 1` bytes. -/
structure CString (room : Nat) where
  chars : List Byte
  terminated : (0 : Byte) ∉ chars
  fits : chars.length ≤ room

/-- An array of zeros. -/
def CString.empty (room : Nat) : CString room := ⟨[], List.not_mem_nil, Nat.zero_le _⟩

/-- `strUserInfo` -/
structure StrUserInfo where
  szName : CString maxUserNameLen
  szPwd : CString maxPasswdLen
  iPriority : Int
  iTerminalType : BitVec 32

/-- `g_astUserArr` -/
abbrev UserTable := Vector StrUserInfo maxCliUser

/-- The results of a command. -/
inductive CmdStatus where
  /-- `CMD_SUCCESS` -/
  | success
  /-- `CMD_WARNING` -/
  | warning
  /-- `CMD_ERR_NO_MATCH` -/
  | errNoMatch
  deriving DecidableEq

/-- The outputs of `get_cli_user_info`. -/
structure CliUserInfo where
  userPwd : List Byte
  pri : Int
  /-- `USERSTATUS_ONLINE` or `USERSTATUS_OFFLINE` -/
  online : Bool
  terminalType : BitVec 32

/-- The loop of `get_cli_user_info`: the first slot with a name. -/
def UserTable.named (table : UserTable) (userName : List Byte) : Option StrUserInfo :=
  table.toList.find? fun slot => slot.szName.chars = userName

/-- `get_cli_user_info` on the buffers of its caller. It returns zero in any case. -/
def getCliUserInfo (table : UserTable) (userName userPwd : List Byte) (pri : Int) : CliUserInfo :=
  match table.named userName with
  | some slot => ⟨slot.szPwd.chars.take maxPasswdLen, slot.iPriority, true, slot.iTerminalType⟩
  | none => ⟨userPwd, pri, false, 0⟩

/-- `get_user_info`, with the value that happens to be in `rc_error`: the result, the password
and the priority. -/
def getUserInfo (rcError : Int) (table : UserTable) (pcName pcPasswd : List Byte)
    (piPriority : Int) : Int × List Byte × Int :=
  let info := getCliUserInfo table pcName pcPasswd piPriority
  (rcError, info.userPwd, info.pri)

/-- `use_auth`, with the result and the priority. A null pointer is `none`. -/
def useAuth (rcError : Int) (table : UserTable) (pcUserName pcPasswd : Option (List Byte))
    (piPriority : Int) : CmdStatus × Int :=
  match pcUserName, pcPasswd with
  | some name, some passwd =>
      let (iErrCode, szPasswd, priority) := getUserInfo rcError table name [] piPriority
      if iErrCode ≠ 0 ∨ passwd ≠ szPasswd then (.errNoMatch, priority) else (.success, priority)
  | _, _ => (.warning, piPriority)

/-- Whatever was in the uninitialised variable, a name and a password are accepted only if a
slot in use stores both. -/
def AuthSound (table : UserTable) (name passwd : List Byte) : Prop :=
  ∀ rcError piPriority, (useAuth rcError table (some name) (some passwd) piPriority).1 = .success →
    name ≠ [] ∧ ∃ slot ∈ table.toList, slot.szName.chars = name ∧ slot.szPwd.chars = passwd

/-- The password of the first slot with a name, which is empty where there is none. -/
def UserTable.passwdOf (table : UserTable) (name : List Byte) : List Byte :=
  (table.named name).elim [] fun slot => slot.szPwd.chars

section Auth

variable {table : UserTable} {name passwd : List Byte} {slot : StrUserInfo}

/-- A user who is found is in the table. -/
theorem UserTable.mem_of_named (named : table.named name = some slot) :
    slot ∈ table.toList ∧ slot.szName.chars = name := by
  unfold UserTable.named at named
  exact ⟨List.mem_of_find?_eq_some named, by simpa using List.find?_some named⟩

/-- The copied password is the whole password. -/
theorem getCliUserInfo_userPwd (table : UserTable) (name : List Byte) (pri : Int) :
    (getCliUserInfo table name [] pri).userPwd = table.passwdOf name := by
  rw [getCliUserInfo, UserTable.passwdOf]
  cases table.named name with
  | none => rfl
  | some slot => exact List.take_of_length_le slot.szPwd.fits

/-- What a login is decided by. -/
theorem useAuth_success_iff {rcError piPriority : Int} :
    (useAuth rcError table (some name) (some passwd) piPriority).1 = .success ↔
      rcError = 0 ∧ passwd = table.passwdOf name := by
  rw [← getCliUserInfo_userPwd table name piPriority]
  by_cases refused : rcError ≠ 0 ∨ passwd ≠ (getCliUserInfo table name [] piPriority).userPwd
  · have verdict : useAuth rcError table (some name) (some passwd) piPriority =
        (.errNoMatch, (getCliUserInfo table name [] piPriority).pri) := if_pos refused
    rw [verdict]
    apply iff_of_false CmdStatus.noConfusion
    rintro ⟨zero, same⟩
    exact refused.elim (absurd zero) (absurd same)
  · have verdict : useAuth rcError table (some name) (some passwd) piPriority =
        (.success, (getCliUserInfo table name [] piPriority).pri) := if_neg refused
    rw [verdict]
    simp only [ne_eq, not_or, Decidable.not_not] at refused
    exact iff_of_true rfl refused

end Auth

/-- The verdict can be relied on exactly if the name is one of the table, or the password is
not the one that the lookup leaves in the buffer. -/
theorem authSound_iff (table : UserTable) (name passwd : List Byte) :
    AuthSound table name passwd ↔
      (name ≠ [] ∧ ∃ slot ∈ table.toList, slot.szName.chars = name) ∨
        passwd ≠ table.passwdOf name := by
  constructor
  · intro sound
    by_cases same : passwd = table.passwdOf name
    · obtain ⟨nonempty, slot, member, stored, -⟩ := sound 0 0 (useAuth_success_iff.2 ⟨rfl, same⟩)
      exact .inl ⟨nonempty, slot, member, stored⟩
    · exact .inr same
  · intro known rcError piPriority accepted
    obtain ⟨-, same⟩ := useAuth_success_iff.1 accepted
    obtain ⟨nonempty, other, member, stored⟩ := known.resolve_right (not_not_intro same)
    refine ⟨nonempty, ?_⟩
    cases named : table.named name with
    | none => exact absurd (decide_eq_true stored) (List.find?_eq_none.1 named other member)
    | some slot =>
        obtain ⟨inTable, sameName⟩ := UserTable.mem_of_named named
        rw [UserTable.passwdOf, named] at same
        exact ⟨slot, inTable, sameName, same.symm⟩

/-- A slot that nobody uses. -/
def StrUserInfo.unused : StrUserInfo where
  szName := .empty maxUserNameLen
  szPwd := .empty maxPasswdLen
  iPriority := 0
  iTerminalType := 0

/-- An unknown name is accepted with the empty password. -/
theorem unknown_name_accepted :
    ¬ AuthSound (.replicate maxCliUser .unused) [0x61] [] := by
  rw [authSound_iff]
  decide

/-! ### Terminals -/

/-- The loops over a table that stop at the first entry with a property. -/
def firstIndex {α : Type} {n : Nat} (p : α → Bool) (table : Vector α n) : Option (Fin n) :=
  (List.finRange n).find? fun i => p table[i]

/-- `registe_user`, with what `sprintf` makes of the name and the priority that is never set:
the table, and the slot. A name that `sprintf` writes past the end of `szName` is outside the
model. -/
def registeUser (szName : CString maxUserNameLen) (iPriority : Int) (table : UserTable)
    (pcUserName : List Byte) (iTerminalType : BitVec 32) : UserTable × Nat :=
  match firstIndex (fun slot => slot.szName.chars = pcUserName) table with
  | some i =>
      (table.set i { table[i] with iTerminalType := table[i].iTerminalType ||| iTerminalType }, i)
  | none =>
      match firstIndex (fun slot => slot.iTerminalType = 0) table with
      | some i =>
          (table.set i
            { table[i] with
              szName := szName
              iTerminalType := iTerminalType
              iPriority := iPriority }, i)
      | none => (table, maxCliUser)

/-- `release_user` -/
def releaseUser (table : UserTable) (iUserIndex : Nat) (iTerminal : BitVec 32) : UserTable :=
  if slot : iUserIndex < maxCliUser then
    table.set iUserIndex
      { table[iUserIndex] with iTerminalType := table[iUserIndex].iTerminalType ^^^ iTerminal }
  else table

section Terminals

variable {α : Type} {n : Nat} {p : α → Bool} {entries : Vector α n} {i : Fin n}

/-- The index that is found meets the test. -/
theorem firstIndex_eq_some (found : firstIndex p entries = some i) : p entries[i] = true :=
  List.find?_some (p := fun i => p entries[i]) found

/-- The terminals after an entry was written. -/
theorem terminal_set (table : UserTable) (i u : Fin maxCliUser) (slot : StrUserInfo) :
    ((table.set i slot).get u).iTerminalType =
      if u = i then slot.iTerminalType else (table.get u).iTerminalType := by
  by_cases same : u = i
  · subst same
    rw [if_pos rfl]
    exact congrArg StrUserInfo.iTerminalType (Vector.getElem_set_self ..)
  · rw [if_neg same]
    have other : i.val ≠ u.val := fun equal => same (Fin.ext equal.symm)
    exact congrArg StrUserInfo.iTerminalType (Vector.getElem_set_ne _ _ other)

/-- A terminal is added to one slot, or there is none for it. -/
theorem registeUser_cases (szName : CString maxUserNameLen) (iPriority : Int) (table : UserTable)
    (pcUserName : List Byte) (iTerminalType : BitVec 32) :
    (∃ i : Fin maxCliUser,
      (registeUser szName iPriority table pcUserName iTerminalType).2 = i ∧
        ∀ u : Fin maxCliUser,
          ((registeUser szName iPriority table pcUserName iTerminalType).1.get u).iTerminalType =
            if u = i then (table.get u).iTerminalType ||| iTerminalType
            else (table.get u).iTerminalType) ∨
      registeUser szName iPriority table pcUserName iTerminalType = (table, maxCliUser) := by
  unfold registeUser
  split
  · next i named =>
      refine .inl ⟨i, rfl, fun u => ?_⟩
      rw [terminal_set]
      split
      · next same =>
          rw [same]
          rfl
      · rfl
  · split
    · next i vacant =>
        refine .inl ⟨i, rfl, fun u => ?_⟩
        have holds := firstIndex_eq_some vacant
        have zero : (table.get i).iTerminalType = 0 := of_decide_eq_true holds
        rw [terminal_set]
        split
        · next same =>
            rw [same, zero]
            exact (BitVec.zero_or ..).symm
        · rfl
    · exact .inr rfl

/-- The place of a user is in the table, or the first behind it. -/
theorem registeUser_le (szName : CString maxUserNameLen) (iPriority : Int) (table : UserTable)
    (pcUserName : List Byte) (iTerminalType : BitVec 32) :
    (registeUser szName iPriority table pcUserName iTerminalType).2 ≤ maxCliUser := by
  rcases registeUser_cases szName iPriority table pcUserName iTerminalType with ⟨i, slot, -⟩ | full
  · rw [slot]
    exact Nat.le_of_lt i.isLt
  · exact Nat.le_of_eq (congrArg Prod.snd full)

/-- A terminal is toggled in a slot. -/
theorem releaseUser_terminal (table : UserTable) (i u : Fin maxCliUser) (iTerminal : BitVec 32) :
    ((releaseUser table i iTerminal).get u).iTerminalType =
      if u = i then (table.get u).iTerminalType ^^^ iTerminal else (table.get u).iTerminalType := by
  rw [releaseUser, dif_pos i.isLt, terminal_set]
  split
  · next same => rw [same]; rfl
  · rfl

/-- Without a slot nothing is released. -/
theorem releaseUser_max (table : UserTable) (iTerminal : BitVec 32) :
    releaseUser table maxCliUser iTerminal = table := dif_neg (Nat.lt_irrefl _)

end Terminals

end Rsu.Cli
