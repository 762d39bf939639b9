import ChatCluster.Request

/-!
# The client

The requests of `src/client/main.cpp` and what its receive thread does with one
frame. `none` is an exception that leaves the receive thread and ends the client.
Terminal output is left out, but the accesses to fields that it makes are not:
`get<string>` of a missing field or of another type throws.
-/
namespace ChatCluster.Client

/-! ## Requests -/

def loginRequest (id : ℤ) (pwd : String) : Json :=
  ((Json.null.set "msgid" (.int EnMsgType.loginMsg.code)).set "id" (.int id)).set
    "password" (.string pwd)

def regRequest (name pwd : String) : Json :=
  ((Json.null.set "msgid" (.int EnMsgType.regMsg.code)).set "name" (.string name)).set
    "password" (.string pwd)

def loginoutRequest (id : ℤ) : Json :=
  (Json.null.set "msgid" (.int EnMsgType.loginoutMsg.code)).set "id" (.int id)

def chatRequest (id : ℤ) (name : String) (friendid : ℤ) (message time : String) : Json :=
  (((((Json.null.set "msgid" (.int EnMsgType.oneChatMsg.code)).set "id" (.int id)).set
    "name" (.string name)).set "toid" (.int friendid)).set "msg" (.string message)).set
    "time" (.string time)

def addFriendRequest (id friendid : ℤ) : Json :=
  ((Json.null.set "msgid" (.int EnMsgType.addFriendMsg.code)).set "id" (.int id)).set
    "friendid" (.int friendid)

def createGroupRequest (id : ℤ) (groupname groupdesc : String) : Json :=
  (((Json.null.set "msgid" (.int EnMsgType.createGroupMsg.code)).set "id" (.int id)).set
    "groupname" (.string groupname)).set "groupdesc" (.string groupdesc)

def addGroupRequest (id groupid : ℤ) : Json :=
  ((Json.null.set "msgid" (.int EnMsgType.addGroupMsg.code)).set "id" (.int id)).set
    "groupid" (.int groupid)

def groupChatRequest (id : ℤ) (name : String) (groupid : ℤ) (message time : String) : Json :=
  (((((Json.null.set "msgid" (.int EnMsgType.groupChatMsg.code)).set "id" (.int id)).set
    "name" (.string name)).set "groupid" (.int groupid)).set "msg" (.string message)).set
    "time" (.string time)

def heartbeatRequest (id : ℤ) : Json :=
  (Json.null.set "msgid" (.int EnMsgType.heartbeatMsg.code)).set "id" (.int id)

def ackRequest (id : ℤ) (messageid : Json) : Json :=
  ((Json.null.set "msgid" (.int EnMsgType.msgAck.code)).set "id" (.int id)).set
    "messageid" messageid

/-! ## The receive thread -/

/-- `js[key].get<int>()` -/
def intAt (js : Json) (key : String) : Option ℤ := (js.find? key).bind Json.getInt32?

/-- `js[key].get<string>()` -/
def strAt (js : Json) (key : String) : Option String := (js.find? key).bind Json.getStr?

/-- The frames that `ackMessageIfNeeded` sends for the current user. -/
def ackMessageIfNeeded (currentUser : ℤ) (js : Json) : List Json :=
  match js.find? "messageid" with
  | some messageid => [ackRequest currentUser messageid]
  | none => []

/-- Printing a message; both kinds read the same fields as strings. -/
def showMessage (js : Json) : Option Unit := do
  let _ ← strAt js "time"
  let _ ← strAt js "name"
  let _ ← strAt js "msg"

/-- One element of `offlinemsg`: the frames sent for it. -/
def showOfflineMessage [JsonParser] (currentUser : ℤ) (str : String) : Option (List Json) := do
  let js ← JsonParser.parse str
  -- both branches on the type print the same string fields
  let _ ← intAt js "msgid"
  showMessage js
  return ackMessageIfNeeded currentUser js

/-- The loop of `doLoginResponse` over `offlinemsg`. -/
def showOfflineMessages [JsonParser] (currentUser : ℤ) : List String → Option (List Json)
  | [] => some []
  | str :: rest => do
      let acks ← showOfflineMessage currentUser str
      let more ← showOfflineMessages currentUser rest
      return acks ++ more

/-- One chat frame that `readTaskHandler` has received; a text that does not parse is
skipped. Answers to requests are not modelled here. -/
def readChatFrame [JsonParser] (currentUser : ℤ) (frame : String) : Option (List Json) :=
  match JsonParser.parse frame with
  | none => some []
  | some js => do
      let msgtype ← intAt js "msgid"
      if msgtype = EnMsgType.oneChatMsg.code ∨ msgtype = EnMsgType.groupChatMsg.code then
        showMessage js
        return ackMessageIfNeeded currentUser js
      else
        return []

/-- `vector<string>` read from `offlinemsg`, when the login has succeeded. Before it the
client reads the fields that concern contacts. -/
def offlineTexts (responsejs : Json) : Option (List String) := do
  let errno ← intAt responsejs "errno"
  if errno ≠ 0 then
    return []
  else
    match responsejs.find? "offlinemsg" with
    | none => return []
    | some (.array xs) => xs.mapM Json.getStr?
    | some _ => none

/-- The chat messages that the receive thread takes out of one parsed frame. -/
def chatMessages [JsonParser] (js : Json) : Option (List Json) := do
  let msgtype ← intAt js "msgid"
  if msgtype = EnMsgType.oneChatMsg.code ∨ msgtype = EnMsgType.groupChatMsg.code then
    return [js]
  else if msgtype = EnMsgType.loginMsgAck.code then
    let vec ← offlineTexts js
    vec.mapM JsonParser.parse
  else
    return []

end ChatCluster.Client
