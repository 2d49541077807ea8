import Mathlib.Data.List.TakeWhile
import Rsu.Cli.Login
import Rsu.Cli.Sessions

/-!
# Changing a password or a privilege

The functions that change an entry of the user table are given a name and do not look at it: they
write to the first slot without a terminal. A user who is logged in has a terminal.
-/

namespace Rsu.Cli

open Rsu.Rcp

/-- The bytes of a string that an array of a password holds. -/
def passwdCopy (passwd : List Byte) : CString maxPasswdLen where
  chars := (passwd.takeWhile (· ≠ 0)).take maxPasswdLen
  terminated := by
    intro found
    have nonzero := List.all_eq_true.1 List.all_takeWhile _ (List.mem_of_mem_take found)
    simp at nonzero
  fits := List.length_take_le ..

/-- The slot that both functions find. -/
def vacantSlot (table : UserTable) : Option (Fin maxCliUser) :=
  firstIndex (fun slot => slot.iTerminalType = 0) table

/-- The loop of both functions. -/
def writeVacant (change : StrUserInfo → StrUserInfo) (table : UserTable) : UserTable :=
  (vacantSlot table).elim table fun i => table.set i (change (table.get i)) i.isLt

/-- `set_user_passwd` -/
def setUserPasswd (table : UserTable) (_pcName pcPasswd : List Byte) : CmdStatus × UserTable :=
  (.success, writeVacant (fun slot => { slot with szPwd := passwdCopy pcPasswd }) table)

/-- `set_user_privilege` -/
def setUserPrivilege (table : UserTable) (_pcName : List Byte) (iPrivilege : Int) :
    CmdStatus × UserTable :=
  (.success, writeVacant (fun slot => { slot with iPriority := iPrivilege }) table)

/-- `set_enable_passwd` -/
def setEnablePasswd (_pcPasswd : List Byte) : CmdStatus := .success

/-- `iChangePasswdType` -/
inductive ChangePasswdType where
  /-- `CHANGE_USER_PASSWOED` -/
  | user
  /-- `CHANGE_ENABLE_PASSWOED` -/
  | enable

/-- `g_astUserArr[user_index].szName` -/
def UserTable.nameAt (table : UserTable) (userIndex : Nat) : List Byte :=
  table.toList[userIndex]?.elim [] fun slot => slot.szName.chars

/-- What both dialogues do with a password that was typed twice. -/
def passwdTyped (table : UserTable) (userIndex : Nat) (passwd : List Byte) :
    ChangePasswdType → CmdStatus × UserTable
  | .user => setUserPasswd table (table.nameAt userIndex) passwd
  | .enable => (setEnablePasswd passwd, table)

/-- A string of any length. -/
structure Text where
  chars : List Byte
  terminated : (0 : Byte) ∉ chars

/-- `change_shell_passwd`: both passwords. They are printed with the typed line as the format,
which makes `printed` of it. -/
def changeShellPasswd (printed : Text → Text) (typed again : Text) : Option (Text × Text) :=
  let tooLong (line : Text) : Prop :=
    line.chars.length > maxPasswdLen ∨ line.chars.length ≤ 0
  if tooLong (printed typed) then none
  else if tooLong (printed again) then none
  else some (printed typed, printed again)

/-- `change_password` on the shell. -/
def changePassword (printed : Text → Text) (table : UserTable) (userIndex : Nat)
    (iChangePasswdType : ChangePasswdType) (typed again : Text) : CmdStatus × UserTable :=
  match changeShellPasswd printed typed again with
  | none => (.warning, table)
  | some (szPasswd, szAgainPasswd) =>
      if szPasswd.chars = szAgainPasswd.chars then
        passwdTyped table userIndex szPasswd.chars iChangePasswdType
      else (.warning, table)

/-- The result of `change_vty_passwd` and the table it leaves; `Vty.changeVtyPasswd` is the
session. -/
def changeVtyPasswdResult {editor : LineEditor} (vty : Vty editor) (table : UserTable)
    (iChangePasswdType : ChangePasswdType) : CmdStatus × UserTable :=
  let buf := editor.text vty.line
  if vty.node = .changePasswd then
    (if buf.length > maxPasswdLen ∨ buf.length ≤ 0 then .warning else .success, table)
  else if vty.pcBuf = buf then passwdTyped table vty.userIndex vty.pcBuf iChangePasswdType
  else (.warning, table)

/-- A telnet session in which a password is typed twice. A dialogue that fails at the first line
has no second. -/
def telnetDialogue {editor : LineEditor} (vty : Vty editor) (again : editor.Line)
    (table : UserTable) : CmdStatus × UserTable :=
  let first := changeVtyPasswdResult vty table .user
  if first.1 = .success then
    changeVtyPasswdResult { vty.changeVtyPasswd with line := again } first.2 .user
  else first

/-- `user_add`, which looks for the name and does nothing. -/
def userAdd (_pcName _pcPasswd : List Byte) : Int := 0

/-- `add_user_fun`, with the value that happens to be in `rc_error` of `get_user_info`. -/
def addUserFun (rcError : Int) (table : UserTable) (name passwd : Text) : CmdStatus × UserTable :=
  if name.chars.length > maxUserNameLen then (.warning, table)
  else if passwd.chars.length > maxPasswdLen then (.warning, table)
  else
    let (iErrCode, szPasswd, _) := getUserInfo rcError table name.chars [] 0
    if iErrCode ≠ 0 then
      (if userAdd name.chars passwd.chars ≠ 0 then .warning else .success, table)
    else if passwd.chars ≠ szPasswd then setUserPasswd table name.chars passwd.chars
    else (.success, table)

/-- The ways to change the password or the privilege of a user. -/
inductive UserChange (editor : LineEditor) where
  /-- `set_user_passwd` -/
  | setPasswd (pcName : List Byte) (pcPasswd : CString maxPasswdLen)
  /-- `set_user_privilege` -/
  | setPrivilege (pcName : List Byte) (iPrivilege : Int)
  /-- the dialogue of the shell -/
  | shell (userIndex : Nat) (typed again : Text)
  /-- the dialogue of a telnet session, which has the first line -/
  | telnet (vty : Vty editor) (terminated : (0 : Byte) ∉ editor.text vty.line)
      (again : editor.Line)
  /-- `user name X password Y` -/
  | addUser (rcError : Int) (name passwd : Text)

namespace UserChange

variable {editor : LineEditor}

/-- What is done, with the result. -/
def perform (printed : Text → Text) (table : UserTable) :
    UserChange editor → CmdStatus × UserTable
  | setPasswd pcName pcPasswd => setUserPasswd table pcName pcPasswd.chars
  | setPrivilege pcName iPrivilege => setUserPrivilege table pcName iPrivilege
  | shell userIndex typed again => changePassword printed table userIndex .user typed again
  | telnet vty _ again => telnetDialogue { vty with node := .changePasswd } again table
  | addUser rcError name passwd => addUserFun rcError table name passwd

/-- The change is about the user in a slot. -/
def Names (table : UserTable) (u : Fin maxCliUser) : UserChange editor → Prop
  | setPasswd pcName _ | setPrivilege pcName _ =>
      firstIndex (fun slot => slot.szName.chars = pcName) table = some u
  | shell userIndex _ _ => userIndex = u
  | telnet vty _ _ => vty.userIndex = u
  | addUser _ name _ => firstIndex (fun slot => slot.szName.chars = name.chars) table = some u

/-- The slot holds the new value. -/
def Asks (printed : Text → Text) (slot : StrUserInfo) : UserChange editor → Prop
  | setPasswd _ pcPasswd => slot.szPwd.chars = pcPasswd.chars
  | setPrivilege _ iPrivilege => slot.iPriority = iPrivilege
  | shell _ typed _ => slot.szPwd.chars = (printed typed).chars
  | telnet vty _ _ => slot.szPwd.chars = editor.text vty.line
  | addUser _ _ passwd => slot.szPwd.chars = passwd.chars

/-- The change gets as far as writing: the lookup of `user name X password Y` happens to
succeed, and the password is another one. -/
def Writes (table : UserTable) : UserChange editor → Prop
  | addUser rcError name passwd => rcError = 0 ∧ passwd.chars ≠ table.passwdOf name.chars
  | _ => True

end UserChange

/-- The slot of the user holds the new value, and no other slot has changed. -/
def OnlyUserChanged {editor : LineEditor} (printed : Text → Text) (change : UserChange editor)
    (table after : UserTable) : Prop :=
  ∀ u, change.Names table u →
    change.Asks printed (after.get u) ∧ ∀ v, v ≠ u → after.get v = table.get v

section Copy

variable {passwd : List Byte}

/-- A password that fits is copied as it is. -/
theorem passwdCopy_chars (terminated : (0 : Byte) ∉ passwd) (fits : passwd.length ≤ maxPasswdLen) :
    (passwdCopy passwd).chars = passwd := by
  have whole : passwd.takeWhile (· ≠ 0) = passwd := by
    rw [List.takeWhile_eq_self_iff]
    intro char found
    exact decide_eq_true fun zero => terminated (zero ▸ found)
  have copied : (passwdCopy passwd).chars = (passwd.takeWhile (· ≠ 0)).take maxPasswdLen := rfl
  rw [copied, whole, List.take_of_length_le fits]

/-- An array of characters is its characters. -/
theorem CString.ext_chars {room : Nat} {left right : CString room}
    (same : left.chars = right.chars) : left = right := by
  cases left
  cases right
  cases same
  rfl

end Copy

section Write

variable {table : UserTable} {u v : Fin maxCliUser} {change : StrUserInfo → StrUserInfo}
  {asks : StrUserInfo → Prop}

/-- The entries after one of them was written. -/
theorem get_set (table : UserTable) (i v : Fin maxCliUser) (slot : StrUserInfo) :
    (table.set i slot i.isLt).get v = if v = i then slot else table.get v := by
  by_cases same : v = i
  · subst same
    rw [if_pos rfl]
    exact Vector.getElem_set_self ..
  · rw [if_neg same]
    have other : i.val ≠ v.val := fun equal => same (Fin.ext equal.symm)
    exact Vector.getElem_set_ne _ _ other

/-- A value is written to one slot alone, and to that of the user, exactly if that slot is found or
the value is there already. -/
theorem writeVacant_iff (written : ∀ slot, asks (change slot))
    (idle : ∀ slot, asks slot → change slot = slot) :
    (asks ((writeVacant change table).get u) ∧
        ∀ v, v ≠ u → (writeVacant change table).get v = table.get v) ↔
      vacantSlot table = some u ∨
        (asks (table.get u) ∧ ∀ v, vacantSlot table = some v → asks (table.get v)) := by
  rw [writeVacant]
  cases found : vacantSlot table with
  | none => simp
  | some i =>
      simp only [Option.elim_some, get_set, Option.some.injEq, forall_eq']
      by_cases same : u = i
      · subst same
        refine iff_of_true ⟨?_, fun v other => if_neg other⟩ (.inl rfl)
        rw [if_pos rfl]
        exact written _
      · rw [if_neg same, or_iff_right (Ne.symm same)]
        refine and_congr_right fun _ => ⟨fun kept => ?_, fun there v _ => ?_⟩
        · have still := kept i (Ne.symm same)
          rw [if_pos rfl] at still
          exact still ▸ written _
        · split
          · next equal => rw [equal, idle _ there]
          · rfl

end Write

/-- A change writes its value to the slot that is found. -/
structure WrittenBy (asks : StrUserInfo → Prop) (table after : UserTable) : Prop where
  exists_change : ∃ change : StrUserInfo → StrUserInfo, after = writeVacant change table ∧
    (∀ slot, asks (change slot)) ∧ ∀ slot, asks slot → change slot = slot

/-- Setting a password writes that password of that user, and nothing else. -/
theorem writtenBy_passwd {table : UserTable} {passwd : List Byte} (name : List Byte)
    (terminated : (0 : Byte) ∉ passwd) (fits : passwd.length ≤ maxPasswdLen) :
    WrittenBy (fun slot => slot.szPwd.chars = passwd) table (setUserPasswd table name passwd).2 := by
  have copied := passwdCopy_chars terminated fits
  refine ⟨fun slot => { slot with szPwd := passwdCopy passwd }, rfl, fun _ => copied,
    fun slot there => ?_⟩
  have same : slot.szPwd = passwdCopy passwd := CString.ext_chars (there.trans copied.symm)
  rw [← same]

/-- Setting a level does the same. -/
theorem writtenBy_privilege {table : UserTable} (name : List Byte) (iPrivilege : Int) :
    WrittenBy (fun slot => slot.iPriority = iPrivilege) table
      (setUserPrivilege table name iPrivilege).2 := by
  refine ⟨fun slot => { slot with iPriority := iPrivilege }, rfl, fun _ => rfl, ?_⟩
  rintro slot rfl
  rfl

section Perform

variable {editor : LineEditor} {printed : Text → Text} {table : UserTable} {u : Fin maxCliUser}

/-- The dialogue of the shell has succeeded. -/
theorem changePassword_success {userIndex : Nat} {typed again : Text}
    (succeeds : (changePassword printed table userIndex .user typed again).1 = .success) :
    (printed typed).chars.length ≤ maxPasswdLen ∧
      changePassword printed table userIndex .user typed again =
        setUserPasswd table (table.nameAt userIndex) (printed typed).chars := by
  unfold changePassword at succeeds ⊢
  cases entered : changeShellPasswd printed typed again with
  | none =>
      rw [entered] at succeeds
      cases succeeds
  | some passwds =>
      rw [entered] at succeeds
      simp only [changeShellPasswd] at entered
      split_ifs at entered with first second
      obtain rfl := Option.some.inj entered
      simp only at succeeds ⊢
      split_ifs at succeeds ⊢
      exact ⟨by omega, rfl⟩

/-- The dialogue of a telnet session has succeeded. -/
theorem telnetDialogue_success {vty : Vty editor} {again : editor.Line}
    (node : vty.node = .changePasswd) (succeeds : (telnetDialogue vty again table).1 = .success) :
    (editor.text vty.line).length ≤ maxPasswdLen ∧
      telnetDialogue vty again table =
        setUserPasswd table (table.nameAt vty.userIndex) (editor.text vty.line) := by
  have first : changeVtyPasswdResult vty table .user =
      (if (editor.text vty.line).length > maxPasswdLen ∨ (editor.text vty.line).length ≤ 0
        then .warning else .success, table) := if_pos node
  by_cases refused : (editor.text vty.line).length > maxPasswdLen ∨
      (editor.text vty.line).length ≤ 0
  · rw [if_pos refused] at first
    rw [telnetDialogue, first] at succeeds
    cases succeeds
  · rw [if_neg refused] at first
    have fits : (editor.text vty.line).length ≤ maxPasswdLen := by omega
    have kept : (editor.text vty.line).take maxPasswdLen = editor.text vty.line :=
      List.take_of_length_le fits
    have between : vty.changeVtyPasswd =
        { vty with pcBuf := editor.text vty.line, node := .changePasswdAgain } := by
      simp only [Vty.changeVtyPasswd, node, if_true, if_neg refused, kept]
    have dialogue : telnetDialogue vty again table =
        changeVtyPasswdResult { vty.changeVtyPasswd with line := again } table .user := by
      rw [telnetDialogue, first]
      rfl
    rw [dialogue, between] at succeeds ⊢
    simp only [changeVtyPasswdResult, reduceCtorEq, if_false] at succeeds ⊢
    split_ifs at succeeds ⊢
    exact ⟨fits, rfl⟩

/-- A change that succeeds writes its value, or does nothing. -/
theorem perform_success {change : UserChange editor}
    (succeeds : (change.perform printed table).1 = .success) :
    (change.Writes table ∧ WrittenBy (change.Asks printed ·) table (change.perform printed table).2) ∨
      (¬ change.Writes table ∧ (change.perform printed table).2 = table) := by
  cases change with
  | setPasswd pcName pcPasswd =>
      exact .inl ⟨trivial, writtenBy_passwd pcName pcPasswd.terminated pcPasswd.fits⟩
  | setPrivilege pcName iPrivilege => exact .inl ⟨trivial, writtenBy_privilege pcName iPrivilege⟩
  | shell userIndex typed again =>
      obtain ⟨fits, performed⟩ := changePassword_success succeeds
      refine .inl ⟨trivial, ?_⟩
      rw [UserChange.perform, performed]
      exact writtenBy_passwd _ (printed typed).terminated fits
  | telnet vty terminated again =>
      obtain ⟨fits, performed⟩ := telnetDialogue_success rfl succeeds
      rw [UserChange.perform, performed]
      exact .inl ⟨trivial, writtenBy_passwd _ terminated fits⟩
  | addUser rcError name passwd =>
      have looked : (getUserInfo rcError table name.chars [] 0).2.1 = table.passwdOf name.chars :=
        getCliUserInfo_userPwd table name.chars 0
      simp only [UserChange.perform, addUserFun, looked] at succeeds ⊢
      split_ifs at succeeds ⊢ with longName longPasswd failed none other
      · refine .inr ⟨fun writes => failed writes.1, rfl⟩
      · have fits : passwd.chars.length ≤ maxPasswdLen := Nat.not_lt.1 longPasswd
        exact .inl ⟨⟨not_not.1 failed, other⟩, writtenBy_passwd _ passwd.terminated fits⟩
      · exact .inr ⟨fun writes => other writes.2, rfl⟩

end Perform

/-- A change of a password or a privilege that succeeds affects its user alone exactly if the first
slot without a terminal is that of the user, or if the value is already there and in the user's
slot. -/
theorem onlyUserChanged_iff {editor : LineEditor} {printed : Text → Text}
    {change : UserChange editor} {table : UserTable}
    (succeeds : (change.perform printed table).1 = .success) :
    OnlyUserChanged printed change table (change.perform printed table).2 ↔
      ∀ u, change.Names table u →
        (change.Writes table ∧ vacantSlot table = some u) ∨
          (change.Asks printed (table.get u) ∧
            (change.Writes table →
              ∀ v, vacantSlot table = some v → change.Asks printed (table.get v))) := by
  refine forall_congr' fun u => forall_congr' fun _ => ?_
  rcases perform_success succeeds with ⟨writes, ⟨value, performed, written, idle⟩⟩ | ⟨idle, performed⟩
  · rw [performed]
    simp only [writes, true_and, forall_const]
    exact writeVacant_iff written idle
  · rw [performed]
    simp [idle]

section Vanet

open LoginState (typedLine)

/-- Another user is logged in over telnet, and the one of a new table is not. -/
def otherOnline : UserTable :=
  let other : CString maxUserNameLen := ⟨[0x62], by decide, by decide⟩
  (Vector.replicate maxCliUser .unused).set 0 ⟨other, other, 1, 2⟩ (Nat.zero_lt_succ _)
    |>.set 1 ⟨vanet, vanet, 15, 0⟩

/-- The user who is not logged in is given another password. -/
def offlineChange : UserChange typedLine := .setPasswd vanet.chars ⟨[0x61], by decide, by decide⟩

/-- The password of a user in the first free slot is changed, and nothing of the user in front. -/
theorem offline_user_changed :
    OnlyUserChanged id offlineChange otherOnline (offlineChange.perform id otherOnline).2 := by
  have first : firstIndex (fun slot => slot.szName.chars = vanet.chars) otherOnline =
      some ⟨1, by decide⟩ := rfl
  have vacant : vacantSlot otherOnline = some ⟨1, by decide⟩ := rfl
  refine (onlyUserChanged_iff rfl).2 fun u names => .inl ⟨trivial, ?_⟩
  exact vacant.trans (first.symm.trans names)

/-- The table while that user has a telnet session. -/
def vanetOnline : UserTable := userInit.val.set 0 ⟨vanet, vanet, 15, 2⟩ (Nat.zero_lt_succ _)

/-- The session, with a new password in its line. -/
def vanetVty : Vty typedLine where
  node := .enable
  status := .normal
  pcBuf := vanet.chars
  iInvLogin := 0
  userIndex := 0
  iVtyIndex := 0
  line := ([0x61] : List Byte)
  escape := .normal
  iac := false
  iacSbInProgress := false

/-- The user types the new password twice. -/
def onlineChange : UserChange typedLine := .telnet vanetVty (by decide) ([0x61] : List Byte)

/-- The change succeeds, and the slot behind the user's has the password. -/
theorem another_slot_changed :
    (onlineChange.perform id vanetOnline).1 = .success ∧
      ¬ OnlyUserChanged id onlineChange vanetOnline (onlineChange.perform id vanetOnline).2 := by
  refine ⟨rfl, fun changed => ?_⟩
  have behind := congrArg (fun slot => slot.szPwd.chars)
    ((changed ⟨0, by decide⟩ rfl).2 ⟨1, by decide⟩ (by decide))
  revert behind
  decide

end Vanet

end Rsu.Cli
