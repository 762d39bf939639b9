import ChatCluster.ChatService

/-!
# Events of the server process

`ChatServer` reads frames from its connections and dispatches them by message
type, reports closed connections, and its process handles `SIGINT`. A frame is
represented by the value that `json::parse` returned for it; a frame that does not
parse is only logged.
-/
namespace ChatCluster
open CommandProgram

/-- `_msgHandlerMap`; the default handler only logs. -/
def getHandler (msgid : ℤ) (conn : Conn) (js : Json) (time : String) : Program Unit :=
  match EnMsgType.ofCode? msgid with
  | some .loginMsg => login conn js
  | some .loginoutMsg => loginout conn js
  | some .regMsg => reg conn js
  | some .oneChatMsg => oneChat conn js
  | some .addFriendMsg => addFriend conn js
  | some .createGroupMsg => createGroup conn js
  | some .addGroupMsg => addGroup conn js
  | some .groupChatMsg => groupChat conn js
  | some .msgAck => messageAck conn js
  | some .heartbeatMsg => heartbeat conn js time
  | some .loginMsgAck | some .regMsgAck | none => return ()

/-- One frame of `ChatServer::onMessage`. The exception of `get<int>` is caught. -/
def onMessage (conn : Conn) (js : Json) (time : String) : Program Unit :=
  match (js.find? "msgid").bind Json.getInt32? with
  | some msgid => getHandler msgid conn js time
  | none => return ()

/-- The type of a frame, if it has one that the service knows. -/
def msgType? (js : Json) : Option EnMsgType :=
  ((js.find? "msgid").bind Json.getInt32?).bind EnMsgType.ofCode?

/-- A message type that `getInt` can read is the one that `get<int>` reads. -/
theorem code_of_getInt {js : Json} {t : EnMsgType} {n : ℤ} (h : msgType? js = some t)
    (hn : getInt js "msgid" = some n) : n = t.code := by
  unfold msgType? at h
  unfold getInt at hn
  cases hfind : js.find? "msgid" with
  | none =>
      rw [hfind] at hn
      cases hn
  | some value =>
      rw [hfind] at h hn
      cases value with
      | integer v =>
          obtain ⟨hl, hu⟩ := narrow_range hn
          have hvalue : v.value.bmod (2 ^ 64) = n := narrow_eq hn
          have hint : v.value.bmod (2 ^ 32) = n := by
            unfold INT_MIN at hl
            unfold INT_MAX at hu
            simp only [Int.bmod] at hvalue ⊢
            split_ifs at hvalue ⊢ <;> omega
          have hcode : EnMsgType.ofCode? (v.value.bmod (2 ^ 32)) = some t := h
          rw [hint] at hcode
          exact EnMsgType.code_of_ofCode? hcode
      | string => cases h
      | _ => cases hn

theorem onMessage_eq (conn : Conn) (js : Json) (time : String) :
    onMessage conn js time =
      match msgType? js with
      | some .loginMsg => login conn js
      | some .loginoutMsg => loginout conn js
      | some .regMsg => reg conn js
      | some .oneChatMsg => oneChat conn js
      | some .addFriendMsg => addFriend conn js
      | some .createGroupMsg => createGroup conn js
      | some .addGroupMsg => addGroup conn js
      | some .groupChatMsg => groupChat conn js
      | some .msgAck => messageAck conn js
      | some .heartbeatMsg => heartbeat conn js time
      | some .loginMsgAck | some .regMsgAck | none => return () := by
  unfold onMessage msgType?
  cases (js.find? "msgid").bind Json.getInt32? <;> rfl

def resetHandler : Program Unit := do
  reset
  node .exit

/-- What makes a server process run a handler: a frame on a connection, the end of a
connection, a message on a subscribed channel, the signal. -/
inductive Job where
  | frame (conn : Conn) (js : Json) (time : String)
  | close (conn : Conn)
  | redisMessage (n : ℕ) (channel : ℤ) (message : String)
  | sigint (n : ℕ)

namespace Job

def agent : Job → Agent
  | frame conn _ _ => .io conn
  | close conn => .io conn
  | redisMessage n _ _ => .observer n
  | sigint n => .main n

def body [JsonParser] : Job → Program Unit
  | frame conn js time => onMessage conn js time
  | close conn => clientCloseException conn
  | redisMessage _ channel message => handleRedisSubscribeMessage channel message
  | sigint _ => resetHandler

/-- Whether a job can start, and what its start does: a closed connection stays
closed, and a message is taken out of the inbox. -/
def Starts : Job → World → World → Prop
  | frame conn _ _, w, w' =>
      (w.node conn.node).running = true ∧ conn ∉ w.closed ∧ w' = w
  | close conn, w, w' =>
      (w.node conn.node).running = true ∧ conn ∉ w.closed ∧
        w' = { w with closed := insert conn w.closed }
  | redisMessage n channel message, w, w' =>
      (w.node n).running = true ∧ ∃ rest, (w.node n).inbox = (channel, message) :: rest ∧
        w' = w.setNode n { w.node n with inbox := rest }
  | sigint n, w, w' => (w.node n).running = true ∧ w' = w

/-- The start of a job, computed. -/
def start? : Job → World → Option World
  | frame conn _ _, w =>
      if (w.node conn.node).running = true ∧ conn ∉ w.closed then some w else none
  | close conn, w =>
      if (w.node conn.node).running = true ∧ conn ∉ w.closed then
        some { w with closed := insert conn w.closed }
      else none
  | redisMessage n channel message, w =>
      match (w.node n).inbox with
      | m :: rest =>
          if (w.node n).running = true ∧ m = (channel, message) then
            some (w.setNode n { w.node n with inbox := rest })
          else none
      | [] => none
  | sigint n, w => if (w.node n).running = true then some w else none

variable {j : Job} {w w' : World}

theorem starts_of_start? (h : j.start? w = some w') : j.Starts w w' := by
  cases j with
  | frame =>
      simp only [start?] at h
      split_ifs at h with hs
      cases h
      exact ⟨hs.1, hs.2, rfl⟩
  | close =>
      simp only [start?] at h
      split_ifs at h with hs
      cases h
      exact ⟨hs.1, hs.2, rfl⟩
  | redisMessage n channel message =>
      simp only [start?] at h
      split at h
      · next m rest hm =>
        split_ifs at h with hs
        cases h
        exact ⟨hs.1, rest, by rw [hm, hs.2], rfl⟩
      · cases h
  | sigint =>
      simp only [start?] at h
      split_ifs at h with hs
      cases h
      exact ⟨hs, rfl⟩

theorem db_starts (h : j.Starts w w') : w'.db = w.db := by
  cases j with
  | frame => rw [h.2.2]
  | close => rw [h.2.2]
  | redisMessage => obtain ⟨-, _, -, rfl⟩ := h; rfl
  | sigint => rw [h.2]

theorem out_starts (h : j.Starts w w') : w'.out = w.out := by
  cases j with
  | frame => rw [h.2.2]
  | close => rw [h.2.2]
  | redisMessage => obtain ⟨-, _, -, rfl⟩ := h; rfl
  | sigint => rw [h.2]

theorem node_starts (h : j.Starts w w') (n : ℕ) :
    (w'.node n).userConnMap = (w.node n).userConnMap ∧
      (w'.node n).subscriptions = (w.node n).subscriptions ∧
      (w'.node n).redisConnected = (w.node n).redisConnected := by
  cases j with
  | frame => rw [h.2.2]; exact ⟨rfl, rfl, rfl⟩
  | close => rw [h.2.2]; exact ⟨rfl, rfl, rfl⟩
  | redisMessage m =>
      obtain ⟨-, _, -, rfl⟩ := h
      rw [World.node_setNode]
      split_ifs with hn
      · rw [hn]; exact ⟨rfl, rfl, rfl⟩
      · exact ⟨rfl, rfl, rfl⟩
  | sigint => rw [h.2]; exact ⟨rfl, rfl, rfl⟩

end Job
end ChatCluster
