import Mathlib.Data.Nat.Init
import Rsu.Cli.Users
import Rsu.Semantics.ActionSystem

/-!
# The login bookkeeping of the telnet sessions

A session takes an index when it is created and a bit of a user's slot when it logs in. It gives
both back in `vty_close`, the index first: whoever takes it before the bit is cleared has a bit
that two sessions clear.
-/

namespace Rsu.Cli

open Rsu.Rcp

/-- `MAX_TELNET_NUM` -/
def maxTelnetNum : Nat := 3

/-- How far a session has come. -/
inductive SessionStage where
  /-- `registe_vty` found no index. -/
  | refused
  /-- before `registe_user` -/
  | login
  /-- after `registe_user` -/
  | command
  /-- in `vty_close`, after `release_vty` -/
  | released
  /-- after `release_user` -/
  | closed
  deriving DecidableEq

/-- The fields of `struct vty` that say what a session holds. -/
structure Session where
  iVtyIndex : Nat
  userIndex : Nat
  /-- `registe_user` has given it a slot. -/
  loggedIn : Bool
  stage : SessionStage

/-- The bit of the session in `iTerminalType`. -/
def Session.terminal (session : Session) : BitVec 32 := 1#32 <<< (session.iVtyIndex + 1)

/-- The sessions so far, in the order in which they were created. -/
structure SessionState where
  table : UserTable
  /-- `g_pstVtyArr` -/
  vtyArr : Vector (Option Nat) maxTelnetNum
  sessions : List Session

/-- The critical sections of the sessions. What `sprintf` makes of a name fits into `szName`; a
longer one is outside the model. -/
inductive SessionAction where
  | registeVty
  | registeUser (id : Nat) (szName : CString maxUserNameLen) (iPriority : Int)
      (pcUserName : List Byte)
  | releaseVty (id : Nat)
  | releaseUser (id : Nat)

/-- A table without terminals. -/
abbrev VacantTable := { table : UserTable // ∀ u : Fin maxCliUser, (table.get u).iTerminalType = 0 }

/-- The name that `_user_init` writes. -/
def vanet : CString maxUserNameLen := ⟨[0x76, 0x61, 0x6E, 0x65, 0x74], by decide, by decide⟩

/-- The table after `_user_init`. -/
def userInit : VacantTable where
  val := (Vector.replicate maxCliUser .unused).set 0 ⟨vanet, vanet, 15, 0⟩
  property := by decide

namespace SessionState

/-- No session yet. -/
def initial (users : VacantTable) : SessionState := ⟨users, .replicate maxTelnetNum none, []⟩

/-- `registe_vty` in a new session. -/
def registeVty (state : SessionState) : SessionState :=
  match firstIndex Option.isNone state.vtyArr with
  | some i =>
      { state with
        vtyArr := state.vtyArr.set i (some state.sessions.length)
        sessions := state.sessions ++ [⟨i, maxCliUser, false, .login⟩] }
  | none => { state with sessions := state.sessions ++ [⟨maxTelnetNum, maxCliUser, false, .refused⟩] }

/-- `registe_user` in `vty_auth`. -/
def login (state : SessionState) (id : Nat) (session : Session) (szName : CString maxUserNameLen)
    (iPriority : Int) (pcUserName : List Byte) : SessionState :=
  let (table, userIndex) := registeUser szName iPriority state.table pcUserName session.terminal
  { state with
    table := table
    sessions := state.sessions.set id
      { session with
        userIndex := userIndex
        loggedIn := userIndex ≠ maxCliUser
        stage := .command } }

/-- `release_vty` -/
def releaseVty (state : SessionState) (id : Nat) (session : Session) : SessionState :=
  { state with
    vtyArr :=
      if index : session.iVtyIndex < maxTelnetNum then state.vtyArr.set session.iVtyIndex none
      else state.vtyArr
    sessions := state.sessions.set id { session with stage := .released } }

/-- What `vty_close` makes of the table. -/
def closeUser (table : UserTable) (session : Session) : UserTable :=
  if session.iVtyIndex < maxTelnetNum then releaseUser table session.userIndex session.terminal
  else table

/-- The rest of `vty_close`. -/
def close (state : SessionState) (id : Nat) (session : Session) : SessionState :=
  { state with
    table := closeUser state.table session
    sessions := state.sessions.set id { session with stage := .closed } }

end SessionState

/-- The critical sections in the order of each session. -/
inductive SessionStep : SessionState → SessionAction → SessionState → Prop
  | registeVty {state : SessionState} : SessionStep state .registeVty state.registeVty
  | registeUser {state : SessionState} {id : Nat} {session : Session}
      (found : state.sessions[id]? = some session) (stage : session.stage = .login)
      (szName : CString maxUserNameLen) (iPriority : Int) (pcUserName : List Byte) :
      SessionStep state (.registeUser id szName iPriority pcUserName)
        (state.login id session szName iPriority pcUserName)
  | releaseVty {state : SessionState} {id : Nat} {session : Session}
      (found : state.sessions[id]? = some session)
      (stage : session.stage ≠ .released ∧ session.stage ≠ .closed) :
      SessionStep state (.releaseVty id) (state.releaseVty id session)
  | releaseUser {state : SessionState} {id : Nat} {session : Session}
      (found : state.sessions[id]? = some session) (stage : session.stage = .released) :
      SessionStep state (.releaseUser id) (state.close id session)

/-- The sessions as an action system. -/
def sessionSystem : ActionSystem SessionAction where
  State := SessionState
  Initial state := ∃ users, state = .initial users
  Step := SessionStep

/-- What a session holds until it is closed: its index, and the slot of the user it is logged in
as. -/
def Session.held (session : Session) : Option (Nat × Option Nat) :=
  if session.iVtyIndex < maxTelnetNum ∧ session.stage ≠ .closed then
    some (session.iVtyIndex, if session.loggedIn then some session.userIndex else none)
  else none

/-- What is seen of the session with a number. -/
def look {α : Type} (view : Session → Option α) (sessions : List Session) (id : Nat) : Option α :=
  sessions[id]?.bind view

/-- The bits of the table are those of the live sessions, and no two of them share an index. -/
structure Books (table : UserTable) (held : Nat → Option (Nat × Option Nat)) : Prop where
  bits : ∀ (u : Fin maxCliUser) (k : Fin maxTelnetNum),
    (table.get u).iTerminalType.getLsbD (k + 1) = true ↔ ∃ id, held id = some (k.val, some u.val)
  unshared : ∀ {i j k left right}, held i = some (k, left) → held j = some (k, right) → i = j

namespace SessionState

/-- The table and the sessions agree. -/
def Accurate (state : SessionState) : Prop := Books state.table (look Session.held state.sessions)

/-- A session that is not logged in changes no bit when it closes. -/
def QuietClose (state : SessionState) : SessionAction → Prop
  | .releaseUser id => ∀ session, state.sessions[id]? = some session → session.loggedIn = false →
      closeUser state.table session = state.table
  | _ => True

/-- An index is handed out only after the session that had it has released its user. -/
def IndexFree (state : SessionState) : SessionAction → Prop
  | .registeVty => ∀ i, firstIndex Option.isNone state.vtyArr = some i →
      ∀ session ∈ state.sessions, session.stage = .released → session.iVtyIndex ≠ i.val
  | _ => True

end SessionState

/-! ### The books -/

section Books

variable {table after : UserTable} {held : Nat → Option (Nat × Option Nat)}
  {id : Nat} {k : Fin maxTelnetNum} {i : Fin maxCliUser}

/-- The bits of different indexes differ. -/
theorem getLsbD_terminal (k other : Fin maxTelnetNum) :
    (1#32 <<< (k.val + 1)).getLsbD (other + 1) = decide (k = other) := by
  revert k other
  decide

/-- Who holds something after one session changed. -/
theorem exists_update_iff {new : Option (Nat × Option Nat)} {thing : Nat × Option Nat} :
    (∃ other, Function.update held id new other = some thing) ↔
      new = some thing ∨ ∃ other, other ≠ id ∧ held other = some thing := by
  constructor
  · rintro ⟨other, holds⟩
    by_cases same : other = id
    · subst same
      rw [Function.update_self] at holds
      exact .inl holds
    · rw [Function.update_of_ne same] at holds
      exact .inr ⟨other, same, holds⟩
  · rintro (holds | ⟨other, different, holds⟩)
    · exact ⟨id, (Function.update_self ..).trans holds⟩
    · exact ⟨other, (Function.update_of_ne different ..).trans holds⟩

/-- A session that does not hold a thing is not the one that does. -/
theorem exists_other_iff {thing : Nat × Option Nat} (missing : held id ≠ some thing) :
    (∃ other, other ≠ id ∧ held other = some thing) ↔ ∃ other, held other = some thing := by
  refine exists_congr fun other => and_iff_right_of_imp fun holds same => ?_
  exact missing (same ▸ holds)

/-- A session without a user comes. -/
theorem Books.come (books : Books table held) (new : held id = none)
    (free : ∀ other left, held other ≠ some (k.val, left)) :
    Books table (Function.update held id (some (k.val, none))) where
  bits u index := by
    rw [books.bits, exists_update_iff, exists_other_iff (by rw [new]; nofun)]
    exact (or_iff_right (by simp)).symm
  unshared := by
    intro first second index left right atFirst atSecond
    by_cases one : first = id <;> by_cases two : second = id
    · exact one.trans two.symm
    · subst one
      rw [Function.update_self] at atFirst
      rw [Function.update_of_ne two] at atSecond
      cases atFirst
      exact absurd atSecond (free second right)
    · subst two
      rw [Function.update_self] at atSecond
      rw [Function.update_of_ne one] at atFirst
      cases atSecond
      exact absurd atFirst (free first left)
    · rw [Function.update_of_ne one] at atFirst
      rw [Function.update_of_ne two] at atSecond
      exact books.unshared atFirst atSecond

/-- Sessions that hold the indexes they held before share none. -/
theorem Books.unshared_of_held (books : Books table held)
    {later : Nat → Option (Nat × Option Nat)}
    (kept : ∀ {other index user}, later other = some (index, user) →
      ∃ user, held other = some (index, user))
    {first second index : Nat} {left right : Option Nat} (atFirst : later first = some (index, left))
    (atSecond : later second = some (index, right)) : first = second := by
  obtain ⟨_, first⟩ := kept atFirst
  obtain ⟨_, second⟩ := kept atSecond
  exact books.unshared first second

/-- A session logs in. -/
theorem Books.enter (books : Books table held) (present : held id = some (k.val, none))
    (bits : ∀ u : Fin maxCliUser, (after.get u).iTerminalType =
      if u = i then (table.get u).iTerminalType ||| 1#32 <<< (k.val + 1) else (table.get u).iTerminalType) :
    Books after (Function.update held id (some (k.val, some i.val))) where
  bits u index := by
    rw [exists_update_iff, exists_other_iff (by rw [present]; simp), ← books.bits, bits]
    by_cases user : u = i
    · subst user
      rw [if_pos rfl, BitVec.getLsbD_or, getLsbD_terminal, Bool.or_eq_true, decide_eq_true_iff,
        or_comm]
      simp [Fin.ext_iff]
    · have other : i.val ≠ u.val := fun same => user (Fin.ext same.symm)
      rw [if_neg user]
      exact (or_iff_right (by simp [other])).symm
  unshared := by
    refine books.unshared_of_held fun {other index user} holds => ?_
    by_cases same : other = id
    · subst same
      rw [Function.update_self] at holds
      cases holds
      exact ⟨none, present⟩
    · rw [Function.update_of_ne same] at holds
      exact ⟨user, holds⟩

/-- What is held after a session has let go was held before. -/
theorem held_of_update {other index : Nat} {user : Option Nat}
    (holds : Function.update held id none other = some (index, user)) :
    held other = some (index, user) := by
  by_cases same : other = id
  · subst same
    rw [Function.update_self] at holds
    cases holds
  · rwa [Function.update_of_ne same] at holds

/-- A session that is not logged in leaves. -/
theorem Books.depart (books : Books table held) (nobody : ∀ index u, held id ≠ some (index, some u)) :
    Books table (Function.update held id none) where
  bits u index := by
    rw [books.bits, exists_update_iff, exists_other_iff (nobody index u)]
    exact (or_iff_right nofun).symm
  unshared := books.unshared_of_held fun holds => ⟨_, held_of_update holds⟩

/-- A session that is logged in leaves. -/
theorem Books.leave (books : Books table held) (present : held id = some (k.val, some i.val))
    (bits : ∀ u : Fin maxCliUser, (after.get u).iTerminalType =
      if u = i then (table.get u).iTerminalType ^^^ 1#32 <<< (k.val + 1) else (table.get u).iTerminalType) :
    Books after (Function.update held id none) where
  bits u index := by
    rw [exists_update_iff, or_iff_right nofun, bits]
    by_cases own : u = i ∧ k = index
    · obtain ⟨rfl, rfl⟩ := own
      have set : (table.get u).iTerminalType.getLsbD (k + 1) = true := (books.bits u k).2 ⟨id, present⟩
      rw [if_pos rfl, BitVec.getLsbD_xor, getLsbD_terminal, set]
      refine iff_of_false (by simp) ?_
      rintro ⟨other, different, holds⟩
      exact different (books.unshared holds present)
    · have missing : held id ≠ some (index.val, some u.val) := by
        rw [present]
        simp only [ne_eq, Option.some.injEq, Prod.mk.injEq, ← Fin.ext_iff, not_and] at own ⊢
        exact fun same user => own user.symm same
      rw [exists_other_iff missing, ← books.bits]
      by_cases user : u = i
      · have different : k ≠ index := fun same => own ⟨user, same⟩
        rw [if_pos user, BitVec.getLsbD_xor, getLsbD_terminal, decide_eq_false different,
          Bool.xor_false]
      · rw [if_neg user]
  unshared := books.unshared_of_held fun holds => ⟨_, held_of_update holds⟩

end Books

/-! ### The sessions -/

/-- What is true of one session. -/
structure Session.Sane (session : Session) : Prop where
  placed : session.stage = .login ∨ session.stage = .command → session.iVtyIndex < maxTelnetNum
  refused : session.stage = .refused → ¬ session.iVtyIndex < maxTelnetNum
  early : session.stage = .login → session.loggedIn = false
  inside : session.loggedIn = true → session.userIndex < maxCliUser
  outside : session.loggedIn = false → session.userIndex = maxCliUser

/-- A session that was created is in use until `vty_close`. -/
theorem Session.Sane.active_of_lt {session : Session} (sane : session.Sane)
    (index : session.iVtyIndex < maxTelnetNum)
    (stage : session.stage ≠ .released ∧ session.stage ≠ .closed) :
    session.stage = .login ∨ session.stage = .command := by
  cases reached : session.stage with
  | refused => exact absurd index (sane.refused reached)
  | login => exact .inl rfl
  | command => exact .inr rfl
  | released => exact absurd reached stage.1
  | closed => exact absurd reached stage.2

/-- The index under which the array points to a session. -/
def Session.pointed (session : Session) : Option Nat :=
  if session.stage = .login ∨ session.stage = .command then some session.iVtyIndex else none

/-- An array points to sessions. -/
def Points (vtyArr : Vector (Option Nat) maxTelnetNum) (pointed : Nat → Option Nat) : Prop :=
  ∀ (k : Fin maxTelnetNum) id, vtyArr[k] = some id ↔ pointed id = some k.val

section Points

variable {vtyArr : Vector (Option Nat) maxTelnetNum} {pointed : Nat → Option Nat}
  {i : Fin maxTelnetNum} {id : Nat}

/-- The entries of the array after one of them was written. -/
theorem vtyArr_set (vtyArr : Vector (Option Nat) maxTelnetNum) (i k : Fin maxTelnetNum)
    (entry : Option Nat) : (vtyArr.set i entry)[k] = if k = i then entry else vtyArr[k] := by
  by_cases same : k = i
  · subst same
    rw [if_pos rfl]
    exact Vector.getElem_set_self ..
  · rw [if_neg same]
    exact Vector.getElem_set_ne _ _ fun equal => same (Fin.ext equal.symm)

/-- A session is entered at a free place. -/
theorem Points.come (points : Points vtyArr pointed) (free : vtyArr[i] = none)
    (new : pointed id = none) :
    Points (vtyArr.set i (some id)) (Function.update pointed id (some i.val)) := by
  intro k other
  rw [vtyArr_set]
  by_cases place : k = i
  · subst place
    rw [if_pos rfl]
    by_cases same : other = id
    · rw [same, Function.update_self]
      exact iff_of_true rfl rfl
    · rw [Function.update_of_ne same, ← points, free]
      exact iff_of_false (fun equal => same (Option.some.inj equal).symm) nofun
  · rw [if_neg place, points]
    by_cases same : other = id
    · rw [same, Function.update_self, new]
      exact iff_of_false nofun fun equal => place (Fin.ext (Option.some.inj equal).symm)
    · rw [Function.update_of_ne same]

/-- A session is taken out of its place. -/
theorem Points.leave (points : Points vtyArr pointed) (present : pointed id = some i.val) :
    Points (vtyArr.set i none) (Function.update pointed id none) := by
  intro k other
  rw [vtyArr_set]
  by_cases place : k = i
  · subst place
    rw [if_pos rfl]
    refine iff_of_false nofun fun holds => ?_
    by_cases same : other = id
    · rw [same, Function.update_self] at holds
      cases holds
    · rw [Function.update_of_ne same, ← points] at holds
      exact same (Option.some.inj (holds.symm.trans ((points k id).2 present)))
  · rw [if_neg place, points]
    by_cases same : other = id
    · rw [same, Function.update_self, present]
      exact iff_of_false (fun equal => place (Fin.ext (Option.some.inj equal).symm)) nofun
    · rw [Function.update_of_ne same]

end Points

section Look

variable {α : Type} {view : Session → Option α} {sessions : List Session} {session : Session}
  {id : Nat}

/-- What is seen of a session that is there. -/
theorem look_of_found (found : sessions[id]? = some session) : look view sessions id = view session := by
  rw [look, found]
  rfl

theorem look_length (view : Session → Option α) (sessions : List Session) :
    look view sessions sessions.length = none := by
  rw [look, List.getElem?_eq_none (Nat.le_refl _)]
  rfl

/-- One session changes. -/
theorem look_set (found : sessions[id]? = some session) (changed : Session) :
    look view (sessions.set id changed) = Function.update (look view sessions) id (view changed) := by
  obtain ⟨inside, -⟩ := List.getElem?_eq_some_iff.1 found
  funext other
  by_cases same : other = id
  · subst same
    rw [Function.update_self, look, List.getElem?_set_self inside]
    rfl
  · rw [Function.update_of_ne same, look, List.getElem?_set_ne (Ne.symm same)]
    rfl

/-- Nothing is seen of a change. -/
theorem look_set_of_eq (found : sessions[id]? = some session) {changed : Session}
    (same : view changed = view session) :
    look view (sessions.set id changed) = look view sessions := by
  rw [look_set found, same]
  exact Function.update_eq_iff.2 ⟨(look_of_found found).symm, fun _ _ => rfl⟩

/-- One more session. -/
theorem look_concat (new : Session) :
    look view (sessions ++ [new]) =
      Function.update (look view sessions) sessions.length (view new) := by
  funext other
  rcases Nat.lt_trichotomy other sessions.length with before | rfl | behind
  · rw [Function.update_of_ne (Nat.ne_of_lt before), look, List.getElem?_append_left before]
    rfl
  · rw [Function.update_self, look, List.getElem?_concat_length]
    rfl
  · have longer : (sessions ++ [new]).length ≤ other := by
      rw [List.length_append]
      exact behind
    rw [Function.update_of_ne (Nat.ne_of_gt behind), look, look, List.getElem?_eq_none longer,
      List.getElem?_eq_none (Nat.le_of_lt behind)]

/-- One more session of which nothing is seen. -/
theorem look_concat_of_none {new : Session} (nothing : view new = none) :
    look view (sessions ++ [new]) = look view sessions := by
  rw [look_concat, nothing, ← look_length view sessions, Function.update_eq_self]

end Look

namespace SessionState

/-- The array points to the sessions that are not yet in `vty_close`. -/
structure Registered (state : SessionState) : Prop where
  sane : ∀ session ∈ state.sessions, session.Sane
  points : Points state.vtyArr (look Session.pointed state.sessions)

variable {state next : SessionState} {action : SessionAction} {session : Session} {id : Nat}

/-- Every session is sane. -/
theorem Registered.sane_of_found (registered : state.Registered)
    (found : state.sessions[id]? = some session) : session.Sane :=
  registered.sane session (List.mem_of_getElem? found)

theorem Registered.sane_concat (registered : state.Registered) {new : Session} (sane : new.Sane) :
    ∀ session ∈ state.sessions ++ [new], session.Sane := by
  intro session member
  rcases List.mem_append.1 member with old | last
  · exact registered.sane session old
  · cases List.mem_singleton.1 last
    exact sane

/-- A sane session may take the place of another one. -/
theorem Registered.sane_set (registered : state.Registered) {changed : Session}
    (sane : changed.Sane) : ∀ session ∈ state.sessions.set id changed, session.Sane := by
  intro session member
  rcases List.mem_or_eq_of_mem_set member with old | rfl
  · exact registered.sane session old
  · exact sane

/-- A new connection is registered, or refused. -/
theorem Registered.registeVty (registered : state.Registered) : state.registeVty.Registered := by
  unfold SessionState.registeVty
  split
  · next i free =>
      have empty : state.vtyArr[i] = none := Option.isNone_iff_eq_none.1 (firstIndex_eq_some free)
      constructor
      · apply registered.sane_concat
        constructor <;> simp [i.isLt]
      · dsimp only
        rw [look_concat]
        exact registered.points.come empty (look_length ..)
  · constructor
    · apply registered.sane_concat
      constructor <;> simp
    · dsimp only
      rw [look_concat_of_none rfl]
      exact registered.points

/-- A login changes no place. -/
theorem Registered.login (registered : state.Registered)
    (found : state.sessions[id]? = some session) (stage : session.stage = .login)
    (szName : CString maxUserNameLen) (iPriority : Int) (pcUserName : List Byte) :
    (state.login id session szName iPriority pcUserName).Registered := by
  have placed := (registered.sane_of_found found).placed (.inl stage)
  have slot := registeUser_le szName iPriority state.table pcUserName session.terminal
  unfold SessionState.login
  constructor
  · apply registered.sane_set
    constructor
    · exact fun _ => placed
    · exact nofun
    · exact nofun
    · exact fun entered => Nat.lt_of_le_of_ne slot (of_decide_eq_true entered)
    · exact fun outside => Decidable.not_not.1 (of_decide_eq_false outside)
  · dsimp only
    rw [look_set_of_eq found]
    · exact registered.points
    · simp [Session.pointed, stage]

/-- A session that is released leaves its place. -/
theorem Registered.releaseVty (registered : state.Registered)
    (found : state.sessions[id]? = some session)
    (stage : session.stage ≠ .released ∧ session.stage ≠ .closed) :
    (state.releaseVty id session).Registered := by
  have sane := registered.sane_of_found found
  unfold SessionState.releaseVty
  constructor
  · apply registered.sane_set
    exact
      { placed := by simp
        refused := nofun
        early := nofun
        inside := sane.inside
        outside := sane.outside }
  · dsimp only
    split
    · next index =>
        have active := sane.active_of_lt index stage
        rw [look_set found]
        refine registered.points.leave (i := ⟨session.iVtyIndex, index⟩) ?_
        rw [look_of_found found]
        exact if_pos active
    · next index =>
        rw [look_set_of_eq found]
        · exact registered.points
        · have passive : ¬ (session.stage = .login ∨ session.stage = .command) :=
            fun active => index (sane.placed active)
          rw [Session.pointed, Session.pointed, if_neg passive]
          rfl

/-- Closing a released session leaves the places alone. -/
theorem Registered.close (registered : state.Registered)
    (found : state.sessions[id]? = some session) (stage : session.stage = .released) :
    (state.close id session).Registered := by
  have sane := registered.sane_of_found found
  unfold SessionState.close
  constructor
  · apply registered.sane_set
    exact
      { placed := by simp
        refused := nofun
        early := nofun
        inside := sane.inside
        outside := sane.outside }
  · dsimp only
    rw [look_set_of_eq found]
    · exact registered.points
    · simp [Session.pointed, stage]

/-- Every step keeps the array pointing to the sessions. -/
theorem Registered.step (registered : state.Registered) (step : SessionStep state action next) :
    next.Registered := by
  cases step with
  | registeVty => exact registered.registeVty
  | registeUser found stage szName iPriority pcUserName =>
      exact registered.login found stage szName iPriority pcUserName
  | releaseVty found stage => exact registered.releaseVty found stage
  | releaseUser found stage => exact registered.close found stage

/-- A session with an index is in the books. -/
theorem held_of_index (found : state.sessions[id]? = some session)
    (index : session.iVtyIndex < maxTelnetNum) (stage : session.stage ≠ .closed) :
    look Session.held state.sessions id =
      some (session.iVtyIndex, if session.loggedIn then some session.userIndex else none) := by
  rw [look_of_found found]
  exact if_pos ⟨index, stage⟩

/-- An index is held by a session that is not closed yet. -/
theorem exists_of_held {k : Nat} {left : Option Nat}
    (holds : look Session.held state.sessions id = some (k, left)) :
    ∃ session, state.sessions[id]? = some session ∧ session.iVtyIndex = k ∧
      session.stage ≠ .closed := by
  obtain ⟨session, found, held⟩ := Option.bind_eq_some_iff.1 holds
  unfold Session.held at held
  split at held
  · next live =>
      cases held
      exact ⟨session, found, rfl, live.2⟩
  · cases held

/-- A new session keeps the books right exactly if its index is free in the books too. -/
theorem accurate_registeVty_iff (registered : state.Registered) (accurate : state.Accurate) :
    state.registeVty.Accurate ↔ state.IndexFree .registeVty := by
  unfold SessionState.registeVty Accurate IndexFree
  split
  · next i free =>
      have empty : state.vtyArr[i] = none := Option.isNone_iff_eq_none.1 (firstIndex_eq_some free)
      have holds : (⟨i, maxCliUser, false, .login⟩ : Session).held = some (i.val, none) :=
        if_pos ⟨i.isLt, SessionStage.noConfusion⟩
      dsimp only
      rw [look_concat, holds]
      constructor
      · intro books other same session member stage shared
        cases free.symm.trans same
        obtain ⟨id, found⟩ := List.getElem?_of_mem member
        obtain ⟨before, -⟩ := List.getElem?_eq_some_iff.1 found
        have older := held_of_index found (shared ▸ i.isLt) (by rw [stage]; nofun)
        rw [shared] at older
        have stays := (Function.update_of_ne (Nat.ne_of_lt before) (some (i.val, none)) _).trans older
        exact Nat.ne_of_lt before (books.unshared stays (Function.update_self ..))
      · intro returned
        refine accurate.come (look_length ..) fun other left older => ?_
        obtain ⟨session, found, shared, stage⟩ := exists_of_held older
        by_cases released : session.stage = .released
        · exact returned i free session (List.mem_of_getElem? found) released shared
        · have sane := registered.sane_of_found found
          have active := sane.active_of_lt (shared ▸ i.isLt) ⟨released, stage⟩
          have pointed : look Session.pointed state.sessions other = some i.val := by
            rw [look_of_found found, Session.pointed, if_pos active, shared]
          exact absurd (empty.symm.trans ((registered.points i other).2 pointed)) nofun
  · next full =>
      dsimp only
      rw [look_concat_of_none (if_neg (by simp))]
      refine iff_of_true accurate fun i free => ?_
      rw [full] at free
      cases free

/-- What a login does to the table and the session. -/
theorem login_eq (state : SessionState) (id : Nat) (session : Session)
    (szName : CString maxUserNameLen) (iPriority : Int) (pcUserName : List Byte) :
    state.login id session szName iPriority pcUserName =
      { state with
        table := (registeUser szName iPriority state.table pcUserName session.terminal).1
        sessions := state.sessions.set id
          { session with
            userIndex := (registeUser szName iPriority state.table pcUserName session.terminal).2
            loggedIn :=
              (registeUser szName iPriority state.table pcUserName session.terminal).2 ≠ maxCliUser
            stage := .command } } := rfl

/-- A session that logs in keeps the books right. -/
theorem accurate_login (registered : state.Registered) (accurate : state.Accurate)
    (found : state.sessions[id]? = some session) (stage : session.stage = .login)
    (szName : CString maxUserNameLen) (iPriority : Int) (pcUserName : List Byte) :
    (state.login id session szName iPriority pcUserName).Accurate := by
  have sane := registered.sane_of_found found
  have placed := sane.placed (.inl stage)
  have present := held_of_index found placed (by rw [stage]; nofun)
  rw [sane.early stage, if_neg Bool.false_ne_true] at present
  unfold Accurate
  rw [login_eq]
  dsimp only
  rcases registeUser_cases szName iPriority state.table pcUserName session.terminal with
    ⟨i, slot, bits⟩ | full
  · rw [look_set found, slot]
    have holds : Session.held
        { session with
          userIndex := i
          loggedIn := i.val ≠ maxCliUser
          stage := .command } = some (session.iVtyIndex, some i.val) := by
      simp [Session.held, placed, Nat.ne_of_lt i.isLt]
    rw [holds]
    exact accurate.enter (k := ⟨session.iVtyIndex, placed⟩) present bits
  · rw [full, look_set_of_eq found]
    · exact accurate
    · have kept : look Session.held state.sessions id = session.held := look_of_found found
      rw [← kept, present]
      simp [Session.held, placed]

/-- `release_vty` leaves the books alone. -/
theorem accurate_releaseVty (accurate : state.Accurate)
    (found : state.sessions[id]? = some session)
    (stage : session.stage ≠ .released ∧ session.stage ≠ .closed) :
    (state.releaseVty id session).Accurate := by
  unfold SessionState.releaseVty Accurate
  dsimp only
  rw [look_set_of_eq found]
  · exact accurate
  · simp [Session.held, stage.2]

/-- Only a session that is logged in changes the table when it closes. -/
theorem closeUser_of_not_loggedIn (sane : session.Sane) (out : session.loggedIn = false)
    (table : UserTable) : closeUser table session = table := by
  rw [closeUser, sane.outside out]
  split
  · exact releaseUser_max ..
  · rfl

/-- A session that is closed keeps the books right. -/
theorem accurate_close (registered : state.Registered) (accurate : state.Accurate)
    (found : state.sessions[id]? = some session) (stage : session.stage = .released) :
    (state.close id session).Accurate := by
  have sane := registered.sane_of_found found
  have nothing : Session.held { session with stage := .closed } = none := if_neg (by simp)
  unfold Accurate SessionState.close
  dsimp only
  rw [look_set found, nothing]
  by_cases index : session.iVtyIndex < maxTelnetNum
  · have present := held_of_index found index (by rw [stage]; nofun)
    cases entered : session.loggedIn with
    | true =>
        rw [entered, if_pos rfl] at present
        let slot : Fin maxCliUser := ⟨session.userIndex, sane.inside entered⟩
        rw [closeUser, if_pos index]
        exact accurate.leave (k := ⟨session.iVtyIndex, index⟩) (i := slot) present fun u =>
          releaseUser_terminal state.table slot u session.terminal
    | false =>
        rw [entered, if_neg Bool.false_ne_true] at present
        rw [closeUser_of_not_loggedIn sane entered]
        exact accurate.depart (by rw [present]; simp)
  · have absent : look Session.held state.sessions id = none := by
      rw [look_of_found found, Session.held, if_neg fun live => index live.1]
    rw [closeUser, if_neg index]
    exact accurate.depart (by rw [absent]; simp)

theorem initial_registered (users : VacantTable) : (initial users).Registered := by
  constructor
  · exact nofun
  · intro k id
    refine iff_of_false ?_ nofun
    have empty : (Vector.replicate maxTelnetNum (none : Option Nat))[k] = none :=
      Vector.getElem_replicate ..
    rw [initial]
    dsimp only
    rw [empty]
    nofun

theorem initial_accurate (users : VacantTable) : (initial users).Accurate := by
  constructor
  · intro u k
    refine iff_of_false ?_ nofun
    rw [initial, users.property]
    simp
  · exact nofun

/-- Closing changes no bit of a user, unless the session is logged in. -/
theorem Registered.quietClose (registered : state.Registered) (action : SessionAction) :
    state.QuietClose action := by
  cases action with
  | releaseUser id =>
      intro session found out
      exact closeUser_of_not_loggedIn (registered.sane_of_found found) out state.table
  | _ => trivial

/-- What one step does: the books stay right exactly if it hands out no index that is still in
them. -/
theorem accurate_step_iff (registered : state.Registered) (accurate : state.Accurate)
    (step : SessionStep state action next) : next.Accurate ↔ state.IndexFree action := by
  cases step with
  | registeVty => exact accurate_registeVty_iff registered accurate
  | registeUser found stage szName iPriority pcUserName =>
      exact iff_of_true (accurate_login registered accurate found stage szName iPriority pcUserName)
        trivial
  | releaseVty found stage => exact iff_of_true (accurate_releaseVty accurate found stage) trivial
  | releaseUser found stage =>
      exact iff_of_true (accurate_close registered accurate found stage) trivial

/-- In a run the table and the sessions agree exactly if no index is handed out before the session
that had it has released its user; closing is quiet in any run. -/
theorem login_books_iff (users : VacantTable) {finish : SessionState}
    (path : sessionSystem.Path (initial users) finish) :
    path.Always Accurate ∧ path.StepsMeet QuietClose ↔ path.StepsMeet IndexFree := by
  have quiet : path.StepsMeet QuietClose :=
    path.stepsMeet_of_invariant (initial_registered users)
      (fun registered step => Registered.step registered step)
      (fun registered => Registered.quietClose registered _)
  rw [and_iff_left quiet]
  refine path.always_iff_stepsMeet (initial_registered users) (initial_accurate users) ?_ ?_
  · intro state action next registered _ step _
    exact registered.step step
  · intro state action next registered accurate step
    exact accurate_step_iff registered accurate step

/-- Two sessions log in as one user, the second with the index that the first gave back before it
released the user. The second is left without its bit when nobody is in `vty_close` any more. -/
theorem second_login_cleared :
    ∃ (finish : SessionState) (path : sessionSystem.Path (initial userInit) finish),
      (∀ session ∈ finish.sessions, session.stage ≠ .released) ∧ ¬ finish.Accurate ∧
        ¬ path.Always Accurate := by
  let fresh : Session := ⟨0, maxCliUser, false, .login⟩
  let entered : Session := ⟨0, 0, true, .command⟩
  let released : Session := ⟨0, 0, true, .released⟩
  let one := (initial userInit).registeVty
  let two := one.login 0 fresh vanet 15 vanet.chars
  let three := two.releaseVty 0 entered
  let four := three.registeVty
  let five := four.login 1 fresh vanet 15 vanet.chars
  let six := five.close 0 released
  have come : SessionStep (initial userInit) .registeVty one := .registeVty
  have enter : SessionStep one (.registeUser 0 vanet 15 vanet.chars) two :=
    .registeUser (by rfl) rfl vanet 15 vanet.chars
  have leave : SessionStep two (.releaseVty 0) three := .releaseVty (by rfl) (by decide)
  have again : SessionStep three .registeVty four := .registeVty
  have second : SessionStep four (.registeUser 1 vanet 15 vanet.chars) five :=
    .registeUser (by rfl) rfl vanet 15 vanet.chars
  have close : SessionStep five (.releaseUser 0) six := .releaseUser (by rfl) rfl
  let start : sessionSystem.Path (initial userInit) (initial userInit) := .nil
  let path := (((((start.snoc _ _ come).snoc _ _ enter).snoc _ _ leave).snoc _ _ again).snoc
    _ _ second).snoc _ _ close
  have wrong : ¬ six.Accurate := by
    intro accurate
    let u : Fin maxCliUser := ⟨0, by decide⟩
    let k : Fin maxTelnetNum := ⟨0, by decide⟩
    have clear : ¬ (six.table.get u).iTerminalType.getLsbD (k + 1) = true := by decide
    exact clear ((accurate.bits u k).2 ⟨1, by rfl⟩)
  exact ⟨six, path, by decide, wrong, fun always => wrong always.last⟩

end SessionState

end Rsu.Cli
