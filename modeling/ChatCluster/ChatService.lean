import ChatCluster.World
import ChatCluster.Library.CommandProgram

/-!
# The handlers of `ChatService`

Each handler is a program over the commands of `World.lean`, in the order in which
the source issues them. An early `return` becomes the other branch of a
conditional; a `lock_guard` whose scope issues further steps becomes an explicit
pair of commands. Logging is left out.
-/
namespace ChatCluster
open CommandProgram

abbrev Program := Prog Command Response

/-! ## The model classes -/

def UserState.text : UserState → String
  | .online => "online"
  | .offline => "offline"

def GroupRole.text : GroupRole → String
  | .creator => "creator"
  | .normal => "normal"

structure User where
  id : ℤ := -1
  name : String := ""
  pwd : String := ""
  state : UserState := .offline

structure GroupUser extends User where
  role : GroupRole

structure Group where
  id : ℤ := -1
  name : String := ""
  desc : String := ""
  users : List GroupUser := []

structure StoredMessage where
  messageid : ℤ
  payload : String
  status : ℤ

def sql (q : Statement) : Program q.Answer := Prog.perform (Command.sql q)

def node (q : NodeOp) : Program q.Answer := Prog.perform (Command.node q)

/-- The row that `UserModel::query` reads, or its default `User()`. -/
def User.ofRow : Option UserRow → User
  | some row =>
      { id := row.id, name := cStr row.name, pwd := cStr row.password, state := row.state }
  | none => {}

namespace UserModel

def insert (user : User) : Program (Option ℤ) :=
  sql (.insertUser user.name user.pwd user.state)

def query (id : ℤ) : Program User := do
  let row ← sql (.selectUser id)
  return User.ofRow row

def updateState (user : User) : Program Bool := sql (.updateUserState user.id user.state)

def resetState : Program Bool := sql .resetUserStates

end UserModel

namespace MessageModel

def insert (messageid senderid receiverid groupid : ℤ) (msgtype : EnMsgType)
    (payload : String) : Program Bool :=
  sql (.insertMessage messageid senderid receiverid groupid msgtype.code payload)

def markDelivered (messageid receiverid : ℤ) : Program Bool :=
  sql (.markDelivered messageid receiverid)

def ack (messageid receiverid : ℤ) : Program Bool := sql (.ackMessage messageid receiverid)

/-- The header gives `limit` the default `1000`. -/
def queryUnacked (receiverid : ℤ) (limit : ℕ) : Program (List StoredMessage) := do
  let rows ← sql (.selectUnacked receiverid (max 1 (min limit 5000)))
  return List.map (fun (row : MessageRow) => ⟨row.messageId, cStr row.payload, row.status⟩) rows

end MessageModel

namespace OfflineMsgModel

def query (userid : ℤ) : Program (List String) := do
  let rows ← sql (.selectOffline userid)
  return List.map cStr rows

def remove (userid : ℤ) : Program Bool := sql (.deleteOffline userid)

end OfflineMsgModel

namespace FriendModel

def insert (userid friendid : ℤ) : Program Bool := sql (.insertFriend userid friendid)

def query (userid : ℤ) : Program (List User) := do
  let rows ← sql (.selectFriends userid)
  return List.map
    (fun (row : UserRow) => { id := row.id, name := cStr row.name, state := row.state }) rows

end FriendModel

namespace GroupModel

def createGroup (group : Group) : Program (Option ℤ) := sql (.insertGroup group.name group.desc)

def addGroup (userid groupid : ℤ) (role : GroupRole) : Program Bool :=
  sql (.insertGroupUser groupid userid role)

/-- The second half of `queryGroups`: one statement for the members of each group. -/
def queryMembers : List Group → Program (List Group)
  | [] => return []
  | group :: groups => do
      let rows ← sql (.selectMembers group.id)
      let users := List.map (fun (row : UserRow × GroupRole) =>
        { id := row.1.id, name := cStr row.1.name, state := row.1.state, role := row.2 }) rows
      let rest ← queryMembers groups
      return { group with users := users } :: rest

def queryGroups (userid : ℤ) : Program (List Group) := do
  let rows ← sql (.selectGroups userid)
  queryMembers <| List.map
    (fun (row : GroupRow) =>
      { id := row.id, name := cStr row.groupname, desc := cStr row.groupdesc }) rows

def queryGroupUsers (userid groupid : ℤ) : Program (List ℤ) :=
  sql (.selectGroupUserIds userid groupid)

end GroupModel

/-! ## Helpers -/

/-- `(now << 20) | (pidPart << 10) | seqPart` in 64 bits. -/
def composeMessageId (now pid seq : ℕ) : ℤ :=
  (BitVec.ofNat 64 now <<< 20 ||| BitVec.ofNat 64 (pid % 2 ^ 10) <<< 10 |||
    BitVec.ofNat 64 (seq % 2 ^ 10)).toInt

def generateMessageId : Program ℤ := do
  let now ← node .clockNow
  let pid ← node .getpid
  let seq ← node .fetchAddSeq
  return composeMessageId now pid seq

def sendJson (conn : Conn) (js : Json) : Program Unit := Prog.perform (Command.sendTo conn (.json js))

def sendFrame (conn : Conn) (payload : String) : Program Unit :=
  Prog.perform (Command.sendTo conn (.raw payload))

def redisIsConnected : Program Bool := node .redisIsConnected

def publish (channel : ℤ) (message : String) : Program Bool :=
  Prog.perform (Command.redisPublish channel message)

def errorResponse (msgid : EnMsgType) (errno : ℤ) (errmsg : String) : Json :=
  ((Json.null.set "msgid" (.int msgid.code)).set "errno" (.int errno)).set
    "errmsg" (.string errmsg)

def sendErrorResponse (conn : Conn) (msgid : EnMsgType) (errmsg : String) : Program Unit :=
  sendJson conn (errorResponse msgid 1 errmsg)

def isConnectionBoundToUser (userid : ℤ) (conn : Conn) : Program Bool :=
  node (.mapIsBound userid conn)

def Json.strings (xs : List String) : Json := .array (xs.map .string)

/-! ## Sessions -/

def User.friendJson (user : User) : Json :=
  ((Json.null.set "id" (.int user.id)).set "name" (.string user.name)).set
    "state" (.string user.state.text)

def GroupUser.memberJson (user : GroupUser) : Json :=
  user.toUser.friendJson.set "role" (.string user.role.text)

def Group.groupJson (group : Group) : Json :=
  (((Json.null.set "id" (.int group.id)).set "groupname" (.string group.name)).set
    "groupdesc" (.string group.desc)).set
    "users" (.strings (group.users.map fun user => user.memberJson.dump))

/-- `response[key] = xs`, skipped when there is nothing to report. -/
def Json.setStrings (response : Json) (key : String) (xs : List String) : Json :=
  if xs.isEmpty then response else response.set key (.strings xs)

def loginResponse (user : User) (offlineMessages : List String) (userVec : List User)
    (groupuserVec : List Group) : Json :=
  let response := (((Json.null.set "msgid" (.int EnMsgType.loginMsgAck.code)).set
    "errno" (.int 0)).set "id" (.int user.id)).set "name" (.string user.name)
  ((response.setStrings "offlinemsg" offlineMessages).setStrings
    "friends" (userVec.map fun user => user.friendJson.dump)).setStrings
    "groups" (groupuserVec.map fun group => group.groupJson.dump)

theorem find?_setStrings_ne (response : Json) {key k : String} (xs : List String)
    (h : k ≠ key) : (response.setStrings key xs).find? k = response.find? k := by
  unfold Json.setStrings
  split_ifs
  · rfl
  · exact Json.find?_set_ne _ h

theorem find?_loginResponse (user : User) (offlineMessages : List String)
    (userVec : List User) (groupuserVec : List Group) {k : String}
    (h₁ : k ≠ "offlinemsg") (h₂ : k ≠ "friends") (h₃ : k ≠ "groups") :
    (loginResponse user offlineMessages userVec groupuserVec).find? k =
      ((((Json.null.set "msgid" (.int EnMsgType.loginMsgAck.code)).set "errno" (.int 0)).set
        "id" (.int user.id)).set "name" (.string user.name)).find? k := by
  unfold loginResponse
  rw [find?_setStrings_ne _ _ h₃, find?_setStrings_ne _ _ h₂, find?_setStrings_ne _ _ h₁]

/-- The loop over the stored messages: it collects the payloads that are not empty
and marks their rows. -/
def collectStored (id : ℤ) : List StoredMessage → Program (List String)
  | [] => return []
  | message :: rest =>
      if message.payload ≠ "" then do
        let _ ← MessageModel.markDelivered message.messageid id
        let offlineMessages ← collectStored id rest
        return message.payload :: offlineMessages
      else collectStored id rest

def trySubscribe (userid : ℤ) : Program Unit := do
  if ← redisIsConnected then
    let _ ← node (.redisSubscribe userid)

def tryUnsubscribe (userid : ℤ) : Program Unit := do
  if ← redisIsConnected then
    let _ ← node (.redisUnsubscribe userid)

/-- Bind the connection, subscribe and write `online`. -/
def openSession (conn : Conn) (id : ℤ) (user : User) : Program Unit := do
  node (.mapBind id conn)
  trySubscribe id
  let _ ← UserModel.updateState { user with state := .online }

/-- The rows of the legacy table, which are removed once they have been read. -/
def takeLegacy (id : ℤ) : Program (List String) := do
  let legacyMessages ← OfflineMsgModel.query id
  if legacyMessages.isEmpty then
    return legacyMessages
  else
    let _ ← OfflineMsgModel.remove id
    return legacyMessages

/-- The answer of a successful login, given the stored messages. -/
def assembleResponse (id : ℤ) (user : User) (storedMessages : List StoredMessage) :
    Program Json := do
  let offlineMessages ← collectStored id storedMessages
  let legacyMessages ← takeLegacy id
  let userVec ← FriendModel.query id
  let groupuserVec ← GroupModel.queryGroups id
  return loginResponse user (offlineMessages ++ legacyMessages) userVec groupuserVec

/-- What a successful login reads for its answer. -/
def syncSession (id : ℤ) (user : User) : Program Json := do
  let storedMessages ← MessageModel.queryUnacked id 1000
  assembleResponse id user storedMessages

def login (conn : Conn) (js : Json) : Program Unit :=
  match getInt js "id", getString js "password" with
  | some id, some pwd => do
      let user ← UserModel.query id
      if user.id = id ∧ user.pwd = pwd then
        if user.state = .online then
          sendJson conn
            (errorResponse .loginMsgAck 2 "this account is using, input another!")
        else
          openSession conn id user
          let response ← syncSession id user
          sendJson conn response
      else
        sendJson conn (errorResponse .loginMsgAck 1 "id or password is invalid!")
  | _, _ => sendErrorResponse conn .loginMsgAck "invalid login request"

def reg (conn : Conn) (js : Json) : Program Unit :=
  match getString js "name", getString js "password" with
  | some name, some pwd =>
      if name = "" ∨ pwd = "" then
        sendErrorResponse conn .regMsgAck "invalid register request"
      else do
        let response := Json.null.set "msgid" (.int EnMsgType.regMsgAck.code)
        match ← UserModel.insert { name := name, pwd := pwd } with
        | some id => sendJson conn ((response.set "errno" (.int 0)).set "id" (.int id))
        | none => sendJson conn (response.set "errno" (.int 1))
  | _, _ => sendErrorResponse conn .regMsgAck "invalid register request"

/-- Unsubscribe and write `offline`. -/
def closeSession (userid : ℤ) : Program Unit := do
  tryUnsubscribe userid
  let _ ← UserModel.updateState { id := userid, state := .offline }

def loginout (conn : Conn) (js : Json) : Program Unit :=
  match getInt js "id" with
  | some userid => do
      if ← isConnectionBoundToUser userid conn then
        node (.mapErase userid)
        closeSession userid
  | none => return ()

/-- A `User` that keeps its default id `-1` stands for a connection with no entry. -/
def clientCloseException (conn : Conn) : Program Unit := do
  let erased ← node (.mapEraseConn conn)
  let user : User := match erased with
    | some userid => { id := userid }
    | none => {}
  if user.id ≠ -1 then
    closeSession user.id

def reset : Program Unit := do
  let _ ← UserModel.resetState

/-! ## Messages -/

def stampOneChat (js : Json) (messageid : ℤ) : Json :=
  (js.set "messageid" (.int messageid)).set "need_ack" (.boolean true)

def stampGroupChat (js : Json) (messageid id : ℤ) : Json :=
  ((js.set "messageid" (.int messageid)).set "toid" (.int id)).set "need_ack" (.boolean true)

/-- What `oneChat` and each iteration of `groupChat` do with a stamped message: store
it, then hand it to the receiver's local connection while the lock is held, or else
publish it when the receiver is online somewhere. -/
def persistAndDeliver (messageid senderid receiverid groupid : ℤ) (msgtype : EnMsgType)
    (js : Json) : Program Unit := do
  if ← MessageModel.insert messageid senderid receiverid groupid msgtype js.dump then
    node .lockConnMutex
    match ← node (.mapFind receiverid) with
    | some receiver =>
        sendJson receiver js
        let _ ← MessageModel.markDelivered messageid receiverid
        node .unlockConnMutex
    | none =>
        node .unlockConnMutex
        let user ← UserModel.query receiverid
        if user.state = .online then
          if ← redisIsConnected then
            let _ ← publish receiverid js.dump

def oneChat (conn : Conn) (js : Json) : Program Unit :=
  match getInt js "id", getInt js "toid", getString js "msg" with
  | some fromid, some toid, some _ => do
      if ← isConnectionBoundToUser fromid conn then
        let messageid ← generateMessageId
        persistAndDeliver messageid fromid toid 0 .oneChatMsg (stampOneChat js messageid)
  | _, _, _ => return ()

/-- One iteration of the loop over the members. -/
def groupChatMember (userid groupid : ℤ) (js : Json) (id : ℤ) : Program Unit := do
  let messageid ← generateMessageId
  persistAndDeliver messageid userid id groupid .groupChatMsg (stampGroupChat js messageid id)

def groupChat (conn : Conn) (js : Json) : Program Unit :=
  match getInt js "id", getInt js "groupid", getString js "msg" with
  | some userid, some groupid, some _ => do
      if ← isConnectionBoundToUser userid conn then
        let useridVec ← GroupModel.queryGroupUsers userid groupid
        useridVec.forM (groupChatMember userid groupid js)
  | _, _, _ => return ()

def messageAck (conn : Conn) (js : Json) : Program Unit :=
  match getInt js "id" with
  | some userid => do
      if ← isConnectionBoundToUser userid conn then
        match getLongLong js "messageid" with
        | some messageid =>
            let _ ← MessageModel.ack messageid userid
        | none => return ()
  | none => return ()

/-- A text that does not parse is forwarded all the same, with message id `0`. -/
def handleRedisSubscribeMessage [JsonParser] (userid : ℤ) (msg : String) : Program Unit := do
  let messageid := ((JsonParser.parse msg).bind fun js => getLongLong js "messageid").getD 0
  node .lockConnMutex
  match ← node (.mapFind userid) with
  | some conn =>
      sendFrame conn msg
      if 0 < messageid then
        let _ ← MessageModel.markDelivered messageid userid
      node .unlockConnMutex
  | none => node .unlockConnMutex

/-! ## Contacts and heartbeat -/

def addFriend (conn : Conn) (js : Json) : Program Unit :=
  match getInt js "id", getInt js "friendid" with
  | some userid, some friendid => do
      if ← isConnectionBoundToUser userid conn then
        let _ ← FriendModel.insert userid friendid
  | _, _ => return ()

def createGroup (conn : Conn) (js : Json) : Program Unit :=
  match getInt js "id", getString js "groupname", getString js "groupdesc" with
  | some userid, some name, some desc =>
      if name = "" then return () else do
        if ← isConnectionBoundToUser userid conn then
          match ← GroupModel.createGroup { name := name, desc := desc } with
          | some groupid =>
              let _ ← GroupModel.addGroup userid groupid .creator
          | none => return ()
  | _, _, _ => return ()

def addGroup (conn : Conn) (js : Json) : Program Unit :=
  match getInt js "id", getInt js "groupid" with
  | some userid, some groupid => do
      if ← isConnectionBoundToUser userid conn then
        let _ ← GroupModel.addGroup userid groupid .normal
  | _, _ => return ()

def heartbeat (conn : Conn) (js : Json) (time : String) : Program Unit :=
  let response := ((Json.null.set "msgid" (.int EnMsgType.heartbeatMsg.code)).set
    "errno" (.int 0)).set "server_time" (.string time)
  match getInt js "id" with
  | some userid => sendJson conn (response.set "id" (.int userid))
  | none => sendJson conn response

end ChatCluster
