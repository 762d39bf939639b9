import ChatCluster.Database

/-!
# The SQL statements as atomic operations

Each model class issues its statements on a connection of its own, one at a time
and without a transaction, so a statement is the unit of atomicity. `Answer` is
what the caller learns, `run` the effect of a statement that succeeded, `failed`
the answer when connecting or the statement failed: then nothing was written. A
failed `select` is answered like an empty one; the callers do not tell them apart
either.
-/
namespace ChatCluster

inductive Statement where
  | selectUser (id : ℤ)
  | insertUser (name password : String) (state : UserState)
  | updateUserState (id : ℤ) (state : UserState)
  | resetUserStates
  | insertMessage (messageid senderid receiverid groupid msgtype : ℤ) (payload : String)
  | markDelivered (messageid receiverid : ℤ)
  | ackMessage (messageid receiverid : ℤ)
  | selectUnacked (receiverid : ℤ) (limit : ℕ)
  | selectOffline (userid : ℤ)
  | deleteOffline (userid : ℤ)
  | insertFriend (userid friendid : ℤ)
  | selectFriends (userid : ℤ)
  | insertGroup (groupname groupdesc : String)
  | insertGroupUser (groupid userid : ℤ) (role : GroupRole)
  | selectGroups (userid : ℤ)
  | selectMembers (groupid : ℤ)
  | selectGroupUserIds (userid groupid : ℤ)

namespace Statement

def Answer : Statement → Type
  | selectUser _ => Option UserRow
  | insertUser _ _ _ => Option ℤ
  | updateUserState _ _ => Bool
  | resetUserStates => Bool
  | insertMessage _ _ _ _ _ _ => Bool
  | markDelivered _ _ => Bool
  | ackMessage _ _ => Bool
  | selectUnacked _ _ => List MessageRow
  | selectOffline _ => List String
  | deleteOffline _ => Bool
  | insertFriend _ _ => Bool
  | selectFriends _ => List UserRow
  | insertGroup _ _ => Option ℤ
  | insertGroupUser _ _ _ => Bool
  | selectGroups _ => List GroupRow
  | selectMembers _ => List (UserRow × GroupRole)
  | selectGroupUserIds _ _ => List ℤ

def failed : (q : Statement) → q.Answer
  | selectUser _ => none
  | insertUser _ _ _ => none
  | updateUserState _ _ => false
  | resetUserStates => false
  | insertMessage _ _ _ _ _ _ => false
  | markDelivered _ _ => false
  | ackMessage _ _ => false
  | selectUnacked _ _ => []
  | selectOffline _ => []
  | deleteOffline _ => false
  | insertFriend _ _ => false
  | selectFriends _ => []
  | insertGroup _ _ => none
  | insertGroupUser _ _ _ => false
  | selectGroups _ => []
  | selectMembers _ => []
  | selectGroupUserIds _ _ => []

/-- A row as `MessageModel::insert` stores it. -/
def newMessage (messageid senderid receiverid groupid msgtype : ℤ) (payload : String) :
    MessageRow where
  messageId := messageid
  senderId := senderid
  receiverId := receiverid
  groupId := groupid
  msgType := msgtype
  payload := payload
  status := MessageStatus.created
  deliveredAt := none
  ackedAt := none

def run : (q : Statement) → Database → q.Answer × Database
  | selectUser id, db => (db.selectUser id, db)
  | insertUser name password state, db =>
      match db.insertUser name password state with
      | some (id, db') => (some id, db')
      | none => (none, db)
  | updateUserState id state, db => (true, db.updateUserState id state)
  | resetUserStates, db => (true, db.resetUserStates)
  | insertMessage messageid senderid receiverid groupid msgtype payload, db =>
      match db.insertMessage
        (newMessage messageid senderid receiverid groupid msgtype payload) with
      | some db' => (true, db')
      | none => (false, db)
  | markDelivered messageid receiverid, db => (true, db.markDelivered messageid receiverid)
  | ackMessage messageid receiverid, db => (true, db.ackMessage messageid receiverid)
  | selectUnacked receiverid limit, db => (db.selectUnacked receiverid limit, db)
  | selectOffline userid, db => (db.selectOffline userid, db)
  | deleteOffline userid, db => (true, db.deleteOffline userid)
  | insertFriend userid friendid, db => (true, db.insertFriend userid friendid)
  | selectFriends userid, db => (db.selectFriends userid, db)
  | insertGroup groupname groupdesc, db =>
      match db.insertGroup groupname groupdesc with
      | some (id, db') => (some id, db')
      | none => (none, db)
  | insertGroupUser groupid userid role, db => (true, db.insertGroupUser groupid userid role)
  | selectGroups userid, db => (db.selectGroups userid, db)
  | selectMembers groupid, db => (db.selectMembers groupid, db)
  | selectGroupUserIds userid groupid, db => (db.selectGroupUserIds userid groupid, db)

/-- A database in which these users have registered, with the ids from `1` on. -/
def registered (users : List (String × String)) : Database :=
  users.foldl (fun db u => ((insertUser u.1 u.2 .offline).run db).2) .empty

/-- Execute a statement; `ok` is whether it succeeds. -/
def exec (ok : Bool) (q : Statement) (db : Database) : q.Answer × Database :=
  if ok then q.run db else (q.failed, db)

@[simp] theorem exec_true (q : Statement) (db : Database) : q.exec true db = q.run db := rfl

@[simp] theorem exec_false (q : Statement) (db : Database) :
    q.exec false db = (q.failed, db) := rfl

/-! ## Which statements write which table -/

/-- The statements that change the `state` of a user; a registration adds a row but
leaves the existing ones alone. -/
def WritesState : Statement → Prop
  | updateUserState _ _ => True
  | resetUserStates => True
  | _ => False

def WritesUsers : Statement → Prop
  | insertUser _ _ _ => True
  | updateUserState _ _ => True
  | resetUserStates => True
  | _ => False

def WritesMessages : Statement → Prop
  | insertMessage _ _ _ _ _ _ => True
  | markDelivered _ _ => True
  | ackMessage _ _ => True
  | _ => False

/-- The statement writes messages, or a login reads the stored ones with it. -/
def UsesMessages : Statement → Prop
  | selectUnacked _ _ => True
  | q => q.WritesMessages

/-- The row query of `UserModel::query`. -/
def IsUserQuery : Statement → Prop
  | selectUser _ => True
  | _ => False

theorem WritesMessages.usesMessages {q : Statement} (h : q.WritesMessages) :
    q.UsesMessages := by
  cases q <;> trivial

/-- An insert changes its table and, where ids are generated, the next one. -/
theorem run_insertUser (name password : String) (state : UserState) (db : Database) :
    ∃ t n, ((insertUser name password state).run db).2 =
      { db with user := t, nextUserId := n } := by
  simp only [run]
  cases hi : db.insertUser name password state with
  | none => exact ⟨db.user, db.nextUserId, rfl⟩
  | some p =>
      obtain ⟨t, -, rfl⟩ := Option.map_eq_some_iff.mp hi
      exact ⟨t, db.nextUserId + 1, rfl⟩

theorem run_insertMessage (messageid senderid receiverid groupid msgtype : ℤ) (payload : String)
    (db : Database) :
    ∃ t, ((insertMessage messageid senderid receiverid groupid msgtype payload).run db).2 =
      { db with chatMessage := t } := by
  simp only [run]
  cases hi : db.insertMessage
      (newMessage messageid senderid receiverid groupid msgtype payload) with
  | none => exact ⟨db.chatMessage, rfl⟩
  | some db' =>
      obtain ⟨t, -, rfl⟩ := Option.map_eq_some_iff.mp hi
      exact ⟨t, rfl⟩

theorem run_insertGroup (groupname groupdesc : String) (db : Database) :
    ∃ t n, ((insertGroup groupname groupdesc).run db).2 =
      { db with allgroup := t, nextGroupId := n } := by
  simp only [run]
  cases hi : db.insertGroup groupname groupdesc with
  | none => exact ⟨db.allgroup, db.nextGroupId, rfl⟩
  | some p =>
      obtain ⟨t, -, rfl⟩ := Option.map_eq_some_iff.mp hi
      exact ⟨t, db.nextGroupId + 1, rfl⟩

theorem user_exec {ok : Bool} {q : Statement} {db : Database}
    (hq : ¬ q.WritesUsers) : (q.exec ok db).2.user = db.user := by
  cases ok with
  | false => rfl
  | true =>
      cases q with
      | insertUser => exact absurd trivial hq
      | updateUserState => exact absurd trivial hq
      | resetUserStates => exact absurd trivial hq
      | insertMessage messageid senderid receiverid groupid msgtype payload =>
          obtain ⟨t, h⟩ := run_insertMessage messageid senderid receiverid groupid msgtype payload db
          rw [exec_true, h]
      | insertGroup groupname groupdesc =>
          obtain ⟨t, n, h⟩ := run_insertGroup groupname groupdesc db
          rw [exec_true, h]
      | _ => rfl

/-- A statement that changes no state keeps the existing rows. -/
theorem selectUser_exec {ok : Bool} {q : Statement} {db : Database} {u : ℤ} {r : UserRow}
    (hq : ¬ q.WritesState) (h : db.selectUser u = some r) :
    (q.exec ok db).2.selectUser u = some r := by
  by_cases hu : q.WritesUsers
  · cases q with
    | insertUser name password state =>
        cases ok with
        | false => exact h
        | true =>
            simp only [exec_true, run]
            cases hi : db.insertUser name password state with
            | none => exact h
            | some p => exact Database.selectUser_insertUser hi h
    | updateUserState => exact absurd trivial hq
    | resetUserStates => exact absurd trivial hq
    | _ => exact hu.elim
  · rw [Database.selectUser, user_exec hu]
    exact h

theorem chatMessage_exec {ok : Bool} {q : Statement} {db : Database}
    (hq : ¬ q.WritesMessages) : (q.exec ok db).2.chatMessage = db.chatMessage := by
  cases ok with
  | false => rfl
  | true =>
      cases q with
      | insertMessage => exact absurd trivial hq
      | markDelivered => exact absurd trivial hq
      | ackMessage => exact absurd trivial hq
      | insertUser name password state =>
          obtain ⟨t, n, h⟩ := run_insertUser name password state db
          rw [exec_true, h]
      | insertGroup groupname groupdesc =>
          obtain ⟨t, n, h⟩ := run_insertGroup groupname groupdesc db
          rw [exec_true, h]
      | _ => rfl

/-- A query that fails has read nothing. -/
theorem mem_of_selectUnacked {ok : Bool} {db : Database} {receiverid : ℤ} {limit : ℕ}
    {rows : List MessageRow} (h : rows = ((selectUnacked receiverid limit).exec ok db).1)
    {r : MessageRow} (hr : r ∈ rows) : r ∈ db.chatMessage.rows ∧ r.Unacked receiverid := by
  subst h
  cases ok with
  | false => cases hr
  | true => exact Database.mem_selectUnacked hr

end Statement
end ChatCluster
