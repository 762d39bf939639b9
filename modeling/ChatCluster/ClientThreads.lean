import ChatCluster.Contacts
import ChatCluster.RequestAnswers

/-!
# The threads of the client

The main thread asks for a login or a registration and then waits on a semaphore; the
receive thread posts it behind each answer; a third thread sends heartbeats. A step of a
thread writes to at most one thing that the threads share. A thread that an exception has
left, or a process that has ended, takes no step.
-/
namespace ChatCluster.Client

/-! ## The state -/

/-- Where the main thread is. `id`, `pwd` and `name` are its local variables. -/
inductive MainThread where
  | firstMenu
  | sendLogin (id : ℤ) (pwd : String)
  | awaitLogin (id : ℤ) (pwd : String)
  /-- behind `sem_wait` -/
  | wokenLogin (id : ℤ) (pwd : String)
  | entering (id : ℤ) (pwd : String)
  | chatMenu (id : ℤ) (pwd : String)
  | sendReg (name pwd : String)
  | awaitReg (name pwd : String)

/-- Where the receive thread is: at `recv`, sending acknowledgements for a chat message,
sending those for the offline messages of an answer, or behind an answer. -/
inductive ReadThread where
  | receiving
  | acking (acks : List Json)
  | greeting (response : Json) (acks : List Json)
  | posting (response : Json)

/-- Where the heartbeat thread is between two sleeps: behind its first test, behind its
second one, and with a frame to send. -/
inductive BeatThread where
  | asleep
  | running
  | checked
  | built (id : ℤ)

/-- The globals and the threads. `sent` are the lines that the client has written and the
server can read, `torn` says that the last line is still open, and `received` counts the
lines that the client has read. -/
structure Threads where
  main : MainThread
  reader : ReadThread
  heartbeat : BeatThread
  rwsem : ℕ
  isLoginSuccess : Bool
  isMainMenuRunning : Bool
  current : ClientState
  sent : List Json
  torn : Bool
  received : ℕ

/-- `User()` has id `-1`. -/
def Threads.start : Threads where
  main := .firstMenu
  reader := .receiving
  heartbeat := .asleep
  rwsem := 0
  isLoginSuccess := false
  isMainMenuRunning := false
  current := ⟨-1, "", [], []⟩
  sent := []
  torn := false
  received := 0

/-! ## The steps -/

/-- `sendJsonFrame`, which holds `g_sendMutex`, and its result. A frame that is cut off
leaves its line open, and the next frame ends that line, which is then no request. -/
inductive Sends (js : Json) (s : Threads) : Bool → Threads → Prop
  | whole : s.torn = false → Sends js s true { s with sent := s.sent ++ [js] }
  | glued : s.torn = true → Sends js s true { s with torn := false }
  | refused : Sends js s false s
  | cut : Sends js s false { s with torn := true }

/-- The requests of the commands of `mainMenu`, apart from `loginout`. -/
inductive MenuRequest (current : ClientState) : Json → Prop
  | chat (friendid : ℤ) (message time : String) : MenuRequest current
      (chatRequest current.currentId current.currentName friendid message time)
  | groupchat (groupid : ℤ) (message time : String) : MenuRequest current
      (groupChatRequest current.currentId current.currentName groupid message time)
  | addfriend (friendid : ℤ) : MenuRequest current (addFriendRequest current.currentId friendid)
  | creategroup (groupname groupdesc : String) : MenuRequest current
      (createGroupRequest current.currentId groupname groupdesc)
  | addgroup (groupid : ℤ) : MenuRequest current (addGroupRequest current.currentId groupid)

/-- One step of the main thread. -/
inductive MainStep (s : Threads) : Threads → Prop
  | login (id : ℤ) (pwd : String) : s.main = .firstMenu → INT_MIN ≤ id → id ≤ INT_MAX →
      MainStep s { s with main := .sendLogin id pwd, isLoginSuccess := false }
  | sendLogin {id : ℤ} {pwd : String} {ok : Bool} {s' : Threads} : s.main = .sendLogin id pwd →
      -- a failure is only printed
      Sends (loginRequest id pwd) s ok s' → MainStep s { s' with main := .awaitLogin id pwd }
  | waitLogin {id : ℤ} {pwd : String} : s.main = .awaitLogin id pwd → 0 < s.rwsem →
      MainStep s { s with main := .wokenLogin id pwd, rwsem := s.rwsem - 1 }
  | succeeded {id : ℤ} {pwd : String} : s.main = .wokenLogin id pwd → s.isLoginSuccess = true →
      MainStep s { s with main := .entering id pwd }
  | failed {id : ℤ} {pwd : String} : s.main = .wokenLogin id pwd → s.isLoginSuccess = false →
      MainStep s { s with main := .firstMenu }
  | enter {id : ℤ} {pwd : String} : s.main = .entering id pwd →
      MainStep s { s with main := .chatMenu id pwd, isMainMenuRunning := true }
  | command {id : ℤ} {pwd : String} {js : Json} {ok : Bool} {s' : Threads} :
      s.main = .chatMenu id pwd → s.isMainMenuRunning = true → MenuRequest s.current js →
      Sends js s ok s' → MainStep s s'
  | loginout {id : ℤ} {pwd : String} {ok : Bool} {s' : Threads} : s.main = .chatMenu id pwd →
      s.isMainMenuRunning = true → Sends (loginoutRequest s.current.currentId) s ok s' →
      MainStep s (if ok then { s' with isMainMenuRunning := false } else s')
  | leave {id : ℤ} {pwd : String} : s.main = .chatMenu id pwd → s.isMainMenuRunning = false →
      MainStep s { s with main := .firstMenu }
  | reg (name pwd : String) : s.main = .firstMenu →
      MainStep s { s with main := .sendReg name pwd }
  | sendReg {name pwd : String} {ok : Bool} {s' : Threads} : s.main = .sendReg name pwd →
      Sends (regRequest name pwd) s ok s' → MainStep s { s' with main := .awaitReg name pwd }
  | waitReg {name pwd : String} : s.main = .awaitReg name pwd → 0 < s.rwsem →
      MainStep s { s with main := .firstMenu, rwsem := s.rwsem - 1 }

/-- One step of the receive thread, where `lines` are the lines that the server has
written. -/
inductive ReadStep [JsonParser] (lines : List Sent) (s : Threads) : Threads → Prop
  | unparsed {line : Sent} : s.reader = .receiving → lines[s.received]? = some line →
      JsonParser.parse line.payload = none → ReadStep lines s { s with received := s.received + 1 }
  | chat {line : Sent} {js : Json} {msgtype : ℤ} : s.reader = .receiving →
      lines[s.received]? = some line → JsonParser.parse line.payload = some js →
      intAt js "msgid" = some msgtype →
      msgtype = EnMsgType.oneChatMsg.code ∨ msgtype = EnMsgType.groupChatMsg.code →
      (showMessage js).isSome → ReadStep lines s
        { s with
          received := s.received + 1
          reader := .acking (ackMessageIfNeeded s.current.currentId js) }
  | refused {line : Sent} {js : Json} {errno : ℤ} : s.reader = .receiving →
      lines[s.received]? = some line → JsonParser.parse line.payload = some js →
      intAt js "msgid" = some EnMsgType.loginMsgAck.code → intAt js "errno" = some errno →
      errno ≠ 0 → ReadStep lines s
        { s with received := s.received + 1, isLoginSuccess := false, reader := .posting js }
  | accepted {line : Sent} {js : Json} {current : ClientState} {acks : List Json} :
      s.reader = .receiving → lines[s.received]? = some line →
      JsonParser.parse line.payload = some js →
      intAt js "msgid" = some EnMsgType.loginMsgAck.code → intAt js "errno" = some 0 →
      doLoginResponse js s.current = some (current, acks) → ReadStep lines s
        { s with received := s.received + 1, current := current, reader := .greeting js acks }
  | registered {line : Sent} {js : Json} : s.reader = .receiving →
      lines[s.received]? = some line → JsonParser.parse line.payload = some js →
      intAt js "msgid" = some EnMsgType.regMsgAck.code → (intAt js "errno").isSome →
      ReadStep lines s { s with received := s.received + 1, reader := .posting js }
  | other {line : Sent} {js : Json} {msgtype : ℤ} : s.reader = .receiving →
      lines[s.received]? = some line → JsonParser.parse line.payload = some js →
      intAt js "msgid" = some msgtype →
      (∀ t ∈ [EnMsgType.oneChatMsg, .groupChatMsg, .loginMsgAck, .regMsgAck], msgtype ≠ t.code) →
      ReadStep lines s { s with received := s.received + 1 }
  | ack {ack : Json} {acks : List Json} {ok : Bool} {s' : Threads} :
      s.reader = .acking (ack :: acks) → Sends ack s ok s' →
      ReadStep lines s { s' with reader := .acking acks }
  | acked : s.reader = .acking [] → ReadStep lines s { s with reader := .receiving }
  | greet {response ack : Json} {acks : List Json} {ok : Bool} {s' : Threads} :
      s.reader = .greeting response (ack :: acks) → Sends ack s ok s' →
      ReadStep lines s { s' with reader := .greeting response acks }
  | greeted {response : Json} : s.reader = .greeting response [] →
      ReadStep lines s { s with isLoginSuccess := true, reader := .posting response }
  | post {response : Json} : s.reader = .posting response →
      ReadStep lines s { s with rwsem := s.rwsem + 1, reader := .receiving }

/-- One step of the heartbeat thread. -/
inductive BeatStep (s : Threads) : Threads → Prop
  | wake : s.heartbeat = .asleep → s.isMainMenuRunning = true →
      BeatStep s { s with heartbeat := .running }
  | check : s.heartbeat = .running → s.current.currentId ≠ -1 →
      BeatStep s { s with heartbeat := .checked }
  | sleep : s.heartbeat = .running → s.current.currentId = -1 →
      BeatStep s { s with heartbeat := .asleep }
  | build : s.heartbeat = .checked →
      BeatStep s { s with heartbeat := .built s.current.currentId }
  | send {id : ℤ} {ok : Bool} {s' : Threads} : s.heartbeat = .built id →
      Sends (heartbeatRequest id) s ok s' → BeatStep s { s' with heartbeat := .asleep }

/-- One step of the client. -/
inductive ThreadStep [JsonParser] (lines : List Sent) (s s' : Threads) : Prop
  | main : MainStep s s' → ThreadStep lines s s'
  | reader : ReadStep lines s s' → ThreadStep lines s s'
  | heartbeat : BeatStep s s' → ThreadStep lines s s'

end ChatCluster.Client
