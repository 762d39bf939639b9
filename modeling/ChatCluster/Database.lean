import ChatCluster.Library.KeyedTable
import ChatCluster.Request
import Mathlib.Data.Prod.Lex

/-!
# The shared database

The tables of `sql/init.sql` and the effect of each statement that the model
classes issue. A statement is one atomic step; whether it succeeds at all is not
decided here. Text columns hold what was stored; the cut at a NUL happens where a
row is read through `char *`.
-/
namespace ChatCluster
open KeyedTable

inductive UserState where
  | online | offline
deriving DecidableEq, Repr

structure UserRow where
  id : ℤ
  name : String
  password : String
  state : UserState
deriving DecidableEq, Repr

structure FriendRow where
  userid : ℤ
  friendid : ℤ
deriving DecidableEq, Repr

structure GroupRow where
  id : ℤ
  groupname : String
  groupdesc : String
deriving DecidableEq, Repr

inductive GroupRole where
  | creator | normal
deriving DecidableEq, Repr

structure GroupUserRow where
  groupid : ℤ
  userid : ℤ
  grouprole : GroupRole
deriving DecidableEq, Repr

structure MessageRow where
  messageId : ℤ
  senderId : ℤ
  receiverId : ℤ
  groupId : ℤ
  msgType : ℤ
  payload : String
  status : ℤ
  deliveredAt : Option ℕ
  ackedAt : Option ℕ
deriving DecidableEq, Repr

namespace MessageStatus
def created : ℤ := 0
def delivered : ℤ := 1
def acked : ℤ := 2
end MessageStatus

def FriendRow.key (r : FriendRow) : ℤ ×ₗ ℤ := toLex (r.userid, r.friendid)

def GroupUserRow.key (r : GroupUserRow) : ℤ ×ₗ ℤ := toLex (r.groupid, r.userid)

/-- `now` is the clock of the database server, in seconds. -/
structure Database where
  user : Table UserRow.id
  nextUserId : ℤ
  friend : Table FriendRow.key
  offlinemessage : List (ℤ × String)
  allgroup : Table GroupRow.id
  nextGroupId : ℤ
  groupuser : Table GroupUserRow.key
  chatMessage : Table MessageRow.messageId
  now : ℕ

/-- The `set` clause of `MessageModel::markDelivered`. -/
def MessageRow.markDelivered (now : ℕ) (r : MessageRow) : MessageRow :=
  { r with
    status := if r.status < MessageStatus.delivered then MessageStatus.delivered else r.status
    deliveredAt := if r.deliveredAt.isNone then some now else r.deliveredAt }

/-- The `set` clause of `MessageModel::ack`. -/
def MessageRow.ack (now : ℕ) (r : MessageRow) : MessageRow :=
  { r with status := MessageStatus.acked, ackedAt := some now }

@[simp] theorem MessageRow.messageId_markDelivered (now : ℕ) (r : MessageRow) :
    (r.markDelivered now).messageId = r.messageId := rfl

@[simp] theorem MessageRow.messageId_ack (now : ℕ) (r : MessageRow) :
    (r.ack now).messageId = r.messageId := rfl

/-- The `where` clause of `MessageModel::queryUnacked`. -/
def MessageRow.Unacked (receiverid : ℤ) (r : MessageRow) : Prop :=
  r.receiverId = receiverid ∧ r.status < MessageStatus.acked

instance (receiverid : ℤ) (r : MessageRow) : Decidable (r.Unacked receiverid) :=
  inferInstanceAs (Decidable (_ ∧ _))

namespace Database

def empty : Database where
  user := .empty
  nextUserId := 1
  friend := .empty
  offlinemessage := []
  allgroup := .empty
  nextGroupId := 1
  groupuser := .empty
  chatMessage := .empty
  now := 0

/-! ## `UserModel` -/

/-- `select * from user where id = %d` -/
def selectUser (db : Database) (id : ℤ) : Option UserRow := db.user.find? id

/-- `insert into user(name, password, state) values(...)`, with the generated id. -/
def insertUser (db : Database) (name password : String) (state : UserState) :
    Option (ℤ × Database) :=
  (db.user.insert ⟨db.nextUserId, name, password, state⟩).map fun t =>
    (db.nextUserId, { db with user := t, nextUserId := db.nextUserId + 1 })

/-- `update user set state = '%s' where id = %d` -/
def updateUserState (db : Database) (id : ℤ) (state : UserState) : Database :=
  { db with
    user := db.user.update (fun r => r.id = id) (fun r => { r with state := state })
      fun _ => rfl }

/-- `update user set state = 'offline' where state = 'online'` -/
def resetUserStates (db : Database) : Database :=
  { db with
    user := db.user.update (fun r => r.state = .online)
      (fun r => { r with state := .offline }) fun _ => rfl }

/-! ## `MessageModel` -/

def insertMessage (db : Database) (r : MessageRow) : Option Database :=
  (db.chatMessage.insert r).map fun t => { db with chatMessage := t }

def markDelivered (db : Database) (messageid receiverid : ℤ) : Database :=
  { db with
    chatMessage := db.chatMessage.update
      (fun r => r.messageId = messageid && r.receiverId = receiverid &&
        r.status < MessageStatus.acked)
      (MessageRow.markDelivered db.now) (MessageRow.messageId_markDelivered db.now) }

def ackMessage (db : Database) (messageid receiverid : ℤ) : Database :=
  { db with
    chatMessage := db.chatMessage.update
      (fun r => r.messageId = messageid && r.receiverId = receiverid)
      (MessageRow.ack db.now) (MessageRow.messageId_ack db.now) }

/-- `... where receiver_id = %d and status < %d order by message_id asc limit %d` -/
def selectUnacked (db : Database) (receiverid : ℤ) (limit : ℕ) : List MessageRow :=
  (db.chatMessage.select fun r => r.Unacked receiverid).take limit

/-! ## `OfflineMsgModel` -/

def selectOffline (db : Database) (userid : ℤ) : List String :=
  (db.offlinemessage.filter fun r => r.1 = userid).map Prod.snd

def deleteOffline (db : Database) (userid : ℤ) : Database :=
  { db with offlinemessage := db.offlinemessage.filter fun r => r.1 ≠ userid }

/-! ## `FriendModel` and `GroupModel` -/

/-- `insert ignore`: an existing pair is left as it is. -/
def insertFriend (db : Database) (userid friendid : ℤ) : Database :=
  { db with friend := (db.friend.insert ⟨userid, friendid⟩).getD db.friend }

def selectFriends (db : Database) (userid : ℤ) : List UserRow :=
  (db.friend.select fun r => r.userid = userid).filterMap fun r => db.user.find? r.friendid

def insertGroup (db : Database) (groupname groupdesc : String) : Option (ℤ × Database) :=
  (db.allgroup.insert ⟨db.nextGroupId, groupname, groupdesc⟩).map fun t =>
    (db.nextGroupId, { db with allgroup := t, nextGroupId := db.nextGroupId + 1 })

/-- `insert ignore`: an existing membership keeps its role. -/
def insertGroupUser (db : Database) (groupid userid : ℤ) (role : GroupRole) : Database :=
  { db with groupuser := (db.groupuser.insert ⟨groupid, userid, role⟩).getD db.groupuser }

def selectGroups (db : Database) (userid : ℤ) : List GroupRow :=
  (db.groupuser.select fun r => r.userid = userid).filterMap fun r => db.allgroup.find? r.groupid

def selectMembers (db : Database) (groupid : ℤ) : List (UserRow × GroupRole) :=
  (db.groupuser.select fun r => r.groupid = groupid).filterMap fun r =>
    (db.user.find? r.userid).map fun u => (u, r.grouprole)

def selectGroupUserIds (db : Database) (userid groupid : ℤ) : List ℤ :=
  if (db.groupuser.find? (toLex (groupid, userid))).isSome then
    (db.groupuser.select fun r => r.groupid = groupid && r.userid ≠ userid).map
      GroupUserRow.userid
  else []

/-! ## What the statements do to a user row -/

/-- Ids are generated by `auto_increment` and positive. -/
def Registered (db : Database) (u : ℤ) : Prop := 0 < u ∧ ∃ r, db.selectUser u = some r

def userState (db : Database) (u : ℤ) : Option UserState := (db.selectUser u).map UserRow.state

theorem userState_of_selectUser {db : Database} {u : ℤ} {r : UserRow}
    (h : db.selectUser u = some r) : db.userState u = some r.state := by
  rw [userState, h, Option.map_some]

theorem state_of_not_online {db : Database} {u : ℤ} {r : UserRow} (h : db.selectUser u = some r)
    (hoff : db.userState u ≠ some .online) : r.state = .offline := by
  rw [userState_of_selectUser h] at hoff
  cases hstate : r.state with
  | online => exact absurd (congrArg some hstate) hoff
  | offline => rfl

theorem selectUser_updateUserState (db : Database) (id u : ℤ) (state : UserState) :
    (db.updateUserState id state).selectUser u =
      (db.selectUser u).map fun r => if u = id then { r with state := state } else r := by
  simp only [updateUserState, selectUser, Table.find?_update]
  cases h : db.user.find? u with
  | none => rfl
  | some r => simp [(Table.find?_eq_some.mp h).2]

theorem userState_updateUserState_self {db : Database} {u : ℤ} {r : UserRow}
    (h : db.selectUser u = some r) (state : UserState) :
    (db.updateUserState u state).userState u = some state := by
  simp [userState, selectUser_updateUserState, h]

theorem userState_updateUserState_ne (db : Database) {id u : ℤ} (h : u ≠ id)
    (state : UserState) : (db.updateUserState id state).userState u = db.userState u := by
  simp [userState, selectUser_updateUserState, h]

theorem registered_updateUserState (db : Database) (id u : ℤ) (state : UserState) :
    (db.updateUserState id state).Registered u ↔ db.Registered u := by
  unfold Registered
  rw [selectUser_updateUserState]
  cases db.selectUser u <;> simp

theorem selectUser_resetUserStates (db : Database) (u : ℤ) :
    db.resetUserStates.selectUser u =
      (db.selectUser u).map fun r => { r with state := .offline } := by
  simp only [resetUserStates, selectUser, Table.find?_update]
  cases h : db.user.find? u with
  | none => rfl
  | some r =>
      obtain ⟨id, name, password, state⟩ := r
      cases state <;> rfl

/-- A registration never touches an existing row. -/
theorem selectUser_insertUser {db db' : Database} {name password : String}
    {state : UserState} {id u : ℤ} {r : UserRow}
    (h : db.insertUser name password state = some (id, db')) (hu : db.selectUser u = some r) :
    db'.selectUser u = some r := by
  simp only [insertUser, Option.map_eq_some_iff, Prod.mk.injEq] at h
  obtain ⟨t, ht, rfl, rfl⟩ := h
  have hr := Table.find?_eq_some.mp hu
  exact Table.find?_eq_some.mpr ⟨(Table.mem_insert ht).mpr (.inr hr.1), hr.2⟩

/-! ## What the statements do to a message row -/

theorem mem_markDelivered {db : Database} {messageid receiverid : ℤ} {x : MessageRow} :
    x ∈ (db.markDelivered messageid receiverid).chatMessage.rows ↔
      ∃ r ∈ db.chatMessage.rows, (if r.messageId = messageid ∧ r.receiverId = receiverid ∧
        r.status < MessageStatus.acked then r.markDelivered db.now else r) = x := by
  simp [markDelivered, Table.mem_update, and_assoc]

theorem mem_ackMessage {db : Database} {messageid receiverid : ℤ} {x : MessageRow} :
    x ∈ (db.ackMessage messageid receiverid).chatMessage.rows ↔
      ∃ r ∈ db.chatMessage.rows, (if r.messageId = messageid ∧ r.receiverId = receiverid
        then r.ack db.now else r) = x := by
  simp [ackMessage, Table.mem_update]

theorem mem_insertMessage {db db' : Database} {r x : MessageRow}
    (h : db.insertMessage r = some db') :
    x ∈ db'.chatMessage.rows ↔ x = r ∨ x ∈ db.chatMessage.rows := by
  simp only [insertMessage, Option.map_eq_some_iff] at h
  obtain ⟨t, ht, rfl⟩ := h
  exact Table.mem_insert ht

theorem mem_selectUnacked {db : Database} {receiverid : ℤ} {limit : ℕ} {r : MessageRow}
    (h : r ∈ db.selectUnacked receiverid limit) :
    r ∈ db.chatMessage.rows ∧ r.Unacked receiverid := by
  simpa using List.mem_of_mem_take h

end Database
end ChatCluster
