import ChatCluster.Durability
import ChatCluster.OfflineSync

/-!
# What the receiver makes of a stored message

The server checks three fields of a chat request and stores whatever else it holds. The
client prints two more fields, as strings and outside of its `try`. So a request without
them is accepted, stored and delivered, and it ends the client of its receiver, at once
and again at every login, because it never gets acknowledged.
-/
namespace ChatCluster
open CommandProgram Interleaving

/-! ## What is stored -/

/-- The frame that a chat request becomes for one receiver. -/
def chatFrame (js : Json) (messageid receiverid : ℤ) : Json :=
  if msgType? js = some .groupChatMsg then stampGroupChat js messageid receiverid
  else stampOneChat js messageid

/-- A chat request that has passed the checks of its handler, as far as they concern the
request itself. -/
structure AcceptedChat (js : Json) : Prop where
  type : msgType? js = some .oneChatMsg ∨ msgType? js = some .groupChatMsg
  object : js.IsObject
  msg : (getString js "msg").isSome

/-- The job stores only the frame of an accepted chat request, under a fresh id. -/
def Job.Stores (messageid receiverid : ℤ) (payload : String) : Job → Prop
  | .frame _ js _ => AcceptedChat js ∧ MessageIdRange messageid ∧
      payload = (chatFrame js messageid receiverid).dump
  | _ => False

def StoresAccepted (j : Job) : Command → Prop
  | .sql (.insertMessage messageid _ receiverid _ _ payload) =>
      j.Stores messageid receiverid payload
  | _ => True

section Stores
variable {j : Job} {c : Command}

theorem Command.Unrelated.storesAccepted (h : c.Unrelated) : StoresAccepted j c := by
  obtain ⟨q, rfl, -, hq, -⟩ := h
  cases q with
  | insertMessage => exact absurd trivial hq
  | _ => trivial

theorem Command.OfContacts.storesAccepted (h : c.OfContacts) : StoresAccepted j c := by
  cases h with
  | unrelated c hc => exact hc.storesAccepted
  | _ => trivial

theorem Command.OfLogin.storesAccepted {conn : Conn} {id? : Option ℤ} {P : Json → Prop}
    (h : c.OfLogin conn id? P) : StoresAccepted j c := by
  cases h with
  | unrelated c hc => exact hc.storesAccepted
  | _ => trivial

theorem Command.OfTeardown.storesAccepted {P : ℤ → Prop} (h : c.OfTeardown P) :
    StoresAccepted j c := by
  cases h <;> trivial

theorem Command.OfDelivery.storesAccepted {P : Sent → Prop}
    (h : c.OfDelivery (fun messageid receiverid payload => j.Stores messageid receiverid payload)
      P) : StoresAccepted j c := by
  cases h with
  | insert _ _ _ _ _ _ hstore => exact hstore
  | _ => trivial

variable {conn : Conn} {js : Json} {time : String}

theorem storesAccepted_oneChat (hmsg : msgType? js = some .oneChatMsg) :
    (oneChat conn js).All (StoresAccepted (.frame conn js time)) := by
  refine (ofDelivery_oneChat (P := fun _ => True) (fun messageid _ toid _ hrange hid _ hstring =>
    ⟨⟨.inl hmsg, isObject_of_getInt hid, ?_⟩, hrange, ?_⟩) fun _ => trivial).mono fun _ =>
      Command.OfDelivery.storesAccepted
  · rw [hstring]
    rfl
  · rw [chatFrame, hmsg, if_neg (by decide)]

theorem storesAccepted_groupChat (hmsg : msgType? js = some .groupChatMsg) :
    (groupChat conn js).All (StoresAccepted (.frame conn js time)) := by
  refine (ofDelivery_groupChat (P := fun _ => True) (fun messageid _ id _ hrange hid hstring =>
    ⟨⟨.inr hmsg, isObject_of_getInt hid, ?_⟩, hrange, ?_⟩) fun _ _ => trivial).mono fun _ =>
      Command.OfDelivery.storesAccepted
  · rw [hstring]
    rfl
  · rw [chatFrame, hmsg, if_pos rfl]

/-- Whatever a job stores is the frame of a chat request that it has accepted. -/
theorem storesAccepted_body [JsonParser] (j : Job) : j.body.All (StoresAccepted j) := by
  cases j with
  | frame conn js time =>
      apply onMessage_handlers (T := fun p => p.All (StoresAccepted (.frame conn js time)))
      · exact fun _ => (ofLogin_login (P := fun _ => True) (fun _ _ _ => trivial)
          fun _ _ _ _ _ => trivial).mono fun _ => Command.OfLogin.storesAccepted
      · exact fun _ hp => hp.mono fun _ => Command.OfTeardown.storesAccepted
      · exact fun p hp => hp.mono fun _ => Command.OfContacts.storesAccepted
      · exact storesAccepted_oneChat
      · exact storesAccepted_groupChat
      · exact fun _ => (ofDelivery_messageAck (P := fun _ => True)).mono fun _ =>
          Command.OfDelivery.storesAccepted
  | close conn =>
      exact all_clientCloseException trivial fun _ => Command.OfTeardown.storesAccepted
  | redisMessage n channel message =>
      exact (ofDelivery_handleRedisSubscribeMessage (P := fun _ => True) channel trivial).mono
        fun _ => Command.OfDelivery.storesAccepted
  | sigint n => exact ⟨trivial, fun _ => ⟨trivial, fun _ => trivial⟩⟩

end Stores

/-! ## What the client does with it -/

/-- The fields that the client prints and the server does not check are strings. -/
def Displayable (js : Json) : Prop :=
  (getString js "time").isSome ∧ (getString js "name").isSome

instance : DecidablePred Displayable := fun _ => inferInstanceAs (Decidable (_ ∧ _))

section Frame
variable {js : Json} {messageid receiverid : ℤ}

theorem find?_chatFrame {key : String} (h₁ : key ≠ "messageid") (h₂ : key ≠ "toid")
    (h₃ : key ≠ "need_ack") : (chatFrame js messageid receiverid).find? key = js.find? key := by
  unfold chatFrame
  split_ifs
  · rw [stampGroupChat, Json.find?_set_ne _ h₃, Json.find?_set_ne _ h₂, Json.find?_set_ne _ h₁]
  · rw [stampOneChat, Json.find?_set_ne _ h₃, Json.find?_set_ne _ h₁]

theorem find?_chatFrame_messageid (hjs : js.IsObject) :
    (chatFrame js messageid receiverid).find? "messageid" = some (.int messageid) := by
  unfold chatFrame
  split_ifs
  · rw [stampGroupChat, Json.find?_set_ne _ (by decide), Json.find?_set_ne _ (by decide),
      Json.find?_set_self hjs]
  · rw [stampOneChat, Json.find?_set_ne _ (by decide), Json.find?_set_self hjs]

theorem getString_chatFrame {key : String} (h₁ : key ≠ "messageid") (h₂ : key ≠ "toid")
    (h₃ : key ≠ "need_ack") :
    getString (chatFrame js messageid receiverid) key = getString js key :=
  getString_congr (find?_chatFrame h₁ h₂ h₃)

theorem intAt_chatFrame {t : EnMsgType} (h : msgType? js = some t) :
    Client.intAt (chatFrame js messageid receiverid) "msgid" = some t.code := by
  obtain ⟨n, hn, ht⟩ := Option.bind_eq_some_iff.mp h
  rw [Client.intAt, find?_chatFrame (by decide) (by decide) (by decide), hn,
    EnMsgType.code_of_ofCode? ht]

/-- The client reads strings as the server does. -/
theorem strAt_eq_getString (js : Json) (key : String) : Client.strAt js key = getString js key := by
  unfold Client.strAt getString
  cases js.find? key with
  | none => rfl
  | some value => cases value <;> rfl

theorem showMessage_chatFrame (hmsg : (getString js "msg").isSome) :
    Client.showMessage (chatFrame js messageid receiverid) =
      if Displayable js then some () else none := by
  obtain ⟨msg, hmsg⟩ := Option.isSome_iff_exists.mp hmsg
  rw [Client.showMessage, strAt_eq_getString, strAt_eq_getString, strAt_eq_getString,
    getString_chatFrame (by decide) (by decide) (by decide),
    getString_chatFrame (by decide) (by decide) (by decide),
    getString_chatFrame (by decide) (by decide) (by decide), hmsg]
  split_ifs with hshown
  · obtain ⟨time, htime⟩ := Option.isSome_iff_exists.mp hshown.1
    obtain ⟨name, hname⟩ := Option.isSome_iff_exists.mp hshown.2
    rw [htime, hname]
    rfl
  · unfold Displayable at hshown
    cases htime : getString js "time" with
    | none => rfl
    | some time =>
        cases hname : getString js "name" with
        | none => rfl
        | some name => exact (hshown ⟨by rw [htime]; rfl, by rw [hname]; rfl⟩).elim

theorem ackMessageIfNeeded_chatFrame (u : ℤ) (hjs : js.IsObject) :
    Client.ackMessageIfNeeded u (chatFrame js messageid receiverid) =
      [Client.ackRequest u (.int messageid)] := by
  rw [Client.ackMessageIfNeeded, find?_chatFrame_messageid hjs]

variable [JsonParser] {payload : String}

theorem readChatFrame_eq (u : ℤ) (hjs : AcceptedChat js)
    (hparse : JsonParser.parse payload = some (chatFrame js messageid receiverid)) :
    Client.readChatFrame u payload =
      if Displayable js then some [Client.ackRequest u (.int messageid)] else none := by
  obtain ⟨t, ht, hchat⟩ : ∃ t, msgType? js = some t ∧
      (t.code = EnMsgType.oneChatMsg.code ∨ t.code = EnMsgType.groupChatMsg.code) :=
    hjs.type.elim (fun h => ⟨_, h, .inl rfl⟩) fun h => ⟨_, h, .inr rfl⟩
  rw [Client.readChatFrame, hparse]
  dsimp only
  rw [intAt_chatFrame ht, Option.bind_eq_bind, Option.bind_some, if_pos hchat,
    showMessage_chatFrame hjs.msg, ackMessageIfNeeded_chatFrame u hjs.object]
  split_ifs <;> rfl

theorem showOfflineMessage_eq (u : ℤ) (hjs : AcceptedChat js)
    (hparse : JsonParser.parse payload = some (chatFrame js messageid receiverid)) :
    Client.showOfflineMessage u payload =
      if Displayable js then some [Client.ackRequest u (.int messageid)] else none := by
  obtain ⟨t, ht⟩ : ∃ t, msgType? js = some t := hjs.type.elim (fun h => ⟨_, h⟩) fun h => ⟨_, h⟩
  rw [Client.showOfflineMessage, hparse, Option.bind_eq_bind, Option.bind_some, intAt_chatFrame ht,
    Option.bind_eq_bind, Option.bind_some, showMessage_chatFrame hjs.msg,
    ackMessageIfNeeded_chatFrame u hjs.object]
  split_ifs <;> rfl

end Frame

/-! ## The acknowledgement -/

section Ack
variable {u messageid : ℤ} {conn : Conn} {time : String} {w w' : World}

theorem msgType?_ackRequest (u : ℤ) (value : Json) :
    msgType? (Client.ackRequest u value) = some .msgAck := msgType?_of_find rfl

theorem getInt_ackRequest (hl : INT_MIN ≤ u) (hu : u ≤ INT_MAX) (value : Json) :
    getInt (Client.ackRequest u value) "id" = some u := getInt_int rfl hl hu

theorem getLongLong_ackRequest (u : ℤ) (h : MessageIdRange messageid) :
    getLongLong (Client.ackRequest u (.int messageid)) "messageid" = some messageid :=
  getLongLong_int rfl h.1 h.2

/-- A connection bound to the user, on a node that is running and whose lock is free. -/
structure Receives (u : ℤ) (conn : Conn) (w : World) : Prop where
  ready : Unlocked conn.node w
  bound : w.bound conn.node u = some conn
  connected : conn ∉ w.closed

variable [JsonParser]

theorem body_ackRequest (value : Json) :
    (Job.frame conn (Client.ackRequest u value) time).body =
      messageAck conn (Client.ackRequest u value) := by
  rw [Job.body, onMessage_eq, msgType?_ackRequest]

/-- The server on an acknowledgement of the user bound to the connection. -/
theorem handles_ackRequest (hl : INT_MIN ≤ u) (hu : u ≤ INT_MAX) {value : Json}
    (hbound : w.bound conn.node u = some conn)
    (h : Cluster.Handles .calm w (.frame conn (Client.ackRequest u value) time) w') :
    w' = { w with
      db := match getLongLong (Client.ackRequest u value) "messageid" with
        | some messageid => w.db.ackMessage messageid u
        | none => w.db } := by
  obtain ⟨w₁, ⟨-, -, rfl⟩, hrun⟩ := h
  rw [body_ackRequest, messageAck, getInt_ackRequest hl hu] at hrun
  obtain ⟨bound, w₂, hcheck, hrest⟩ := Prog.runs_bind.mp hrun
  obtain ⟨hiff, rfl⟩ := Calm.runs_isConnectionBoundToUser hcheck
  rw [if_pos (hiff.mpr hbound)] at hrest
  cases hid : getLongLong (Client.ackRequest u value) "messageid" with
  | none =>
      rw [hid] at hrest
      exact hrest.2
  | some messageid =>
      rw [hid] at hrest
      obtain ⟨_, w₃, hack, -, rfl⟩ := Prog.runs_bind.mp hrest
      exact (Calm.runs_sql hack).2

theorem exists_handles_ackRequest (time : String) (hl : INT_MIN ≤ u) (hu : u ≤ INT_MAX)
    (hw : Receives u conn w) (value : Json) : ∃ w', Cluster.Handles .calm w
      (.frame conn (Client.ackRequest u value) time) w' := by
  have hnode : (NodeOp.mapIsBound u conn).exec {} (.io conn) (w.node conn.node) =
      some (true, w.node conn.node) := by
    rw [NodeOp.exec, if_pos hw.ready.2]
    exact congrArg (fun b => some (b, w.node conn.node)) (decide_eq_true hw.bound)
  have hcheck : exec {} (.io conn) (.node (.mapIsBound u conn)) w = some (true, w) :=
    (congrArg (Option.map _) hnode).trans (congrArg (fun v => some (true, v)) (w.setNode_node _))
  have hok : ({} : Choice).ok ≠ false := by decide
  cases hid : getLongLong (Client.ackRequest u value) "messageid" with
  | none =>
      refine ⟨w, w, ⟨hw.ready.1, hw.connected, rfl⟩, ?_⟩
      rw [body_ackRequest, messageAck, getInt_ackRequest hl hu, hid]
      exact ⟨true, w, ⟨hw.ready.1, {}, fun h => absurd h hok, hcheck⟩, rfl, rfl⟩
  | some messageid =>
      refine ⟨{ w with db := w.db.ackMessage messageid u }, w, ⟨hw.ready.1, hw.connected, rfl⟩, ?_⟩
      rw [body_ackRequest, messageAck, getInt_ackRequest hl hu, hid]
      refine ⟨true, w, ⟨hw.ready.1, {}, fun h => absurd h hok, hcheck⟩, ?_⟩
      exact ⟨true, _, ⟨hw.ready.1, {}, fun h => absurd h hok, rfl⟩, rfl, rfl⟩

/-- An acknowledgement on a connection of the receiver turns the row. -/
theorem acked_of_handles (hl : INT_MIN ≤ u) (hu : u ≤ INT_MAX) (hid : MessageIdRange messageid)
    (hw : Receives u conn w) (h : Cluster.Handles .calm w
      (.frame conn (Client.ackRequest u (.int messageid)) time) w') {r : MessageRow}
    (hr : r ∈ w.db.chatMessage.rows) (hm : r.messageId = messageid) (hreceiver : r.receiverId = u) :
    ∃ r' ∈ w'.db.chatMessage.rows, r.Persists r' ∧ r'.status = MessageStatus.acked := by
  have heq := handles_ackRequest hl hu hw.bound h
  rw [getLongLong_ackRequest u hid] at heq
  subst heq
  refine ⟨_, Database.mem_ackMessage.mpr ⟨r, hr, rfl⟩, ?_⟩
  rw [if_pos ⟨hm, hreceiver⟩]
  exact ⟨r.persists_ack _, rfl⟩

end Ack

/-! ## Consumption -/

/-- The receiver `u` gets through the message, as a frame and in `offlinemsg`, and
acknowledges it, and its acknowledgement turns the row. -/
structure Consumed [JsonParser] (u messageid : ℤ) (payload : String) : Prop where
  live : Client.readChatFrame u payload = some [Client.ackRequest u (.int messageid)]
  synced : Client.showOfflineMessage u (cStr payload) =
    some [Client.ackRequest u (.int messageid)]
  handled : ∀ conn time w, Receives u conn w → ∃ w', Cluster.Handles .calm w
    (.frame conn (Client.ackRequest u (.int messageid)) time) w'
  acked : ∀ conn time w w', Receives u conn w → Cluster.Handles .calm w
    (.frame conn (Client.ackRequest u (.int messageid)) time) w' →
      ∀ r ∈ w.db.chatMessage.rows, r.messageId = messageid → r.receiverId = u →
        ∃ r' ∈ w'.db.chatMessage.rows, r.Persists r' ∧ r'.status = MessageStatus.acked

section Consumption
variable [JsonParser] {w : World} {es : List ClusterEntry} {x : ClusterConfig} {conn : Conn}
  {js : Json} {time payload : String} {messageid senderid receiverid groupid msgtype : ℤ}

theorem stores_of_recorded (hrun : Steps hostileCluster (Config.initial w) es x)
    (hstored : .did (.frame conn js time) (.sql (.insertMessage messageid senderid receiverid
      groupid msgtype payload)) true ∈ x.view.past) :
    (Job.frame conn js time).Stores messageid receiverid payload :=
  (hrun.did_all storesAccepted_body).1 _ _ _ hstored

/-- In every run a stored chat message is consumed by its receiver exactly when its
request gives the time and the name of the sender as strings. -/
theorem stored_chat_consumed_iff (hrun : Steps hostileCluster (Config.initial w) es x)
    (hstored : .did (.frame conn js time) (.sql (.insertMessage messageid senderid receiverid
      groupid msgtype payload)) true ∈ x.view.past)
    (hl : INT_MIN ≤ receiverid) (hu : receiverid ≤ INT_MAX)
    (hparse : JsonParser.parse payload = some (chatFrame js messageid receiverid)) :
    Consumed receiverid messageid payload ↔ Displayable js := by
  obtain ⟨hjs, hid, hpayload⟩ := stores_of_recorded hrun hstored
  have hcStr : cStr payload = payload := by rw [hpayload, cStr_dump]
  have hread := readChatFrame_eq receiverid hjs hparse
  constructor
  · intro h
    by_contra hnot
    rw [h.live, if_neg hnot] at hread
    cases hread
  · intro h
    exact
      { live := by rw [hread, if_pos h]
        synced := by rw [hcStr, showOfflineMessage_eq receiverid hjs hparse, if_pos h]
        handled := fun _ _ _ hw => exists_handles_ackRequest _ hl hu hw _
        acked := fun _ _ _ _ hw hack _ => acked_of_handles hl hu hid hw hack }

end Consumption

/-- A parser for the one frame that user `2` gets. -/
abbrev chatParser (js : Json) : JsonParser where
  parse := fun s =>
    if s = (chatFrame js (2 ^ 20) 2).dump then some (chatFrame js (2 ^ 20) 2) else none

def namedRequest : Json := Client.chatRequest 1 "ann" 2 "hi" "now"

/-- A chat request from user `1` to user `2` without a name and a time. -/
def bareRequest : Json :=
  (((Json.null.set "msgid" (.int EnMsgType.oneChatMsg.code)).set "id" (.int 1)).set
    "toid" (.int 2)).set "msg" (.string "hi")

def chatWorld : World := World.fresh (Statement.registered [("ann", "pw"), ("bob", "pw")])

/-- User `1` logs in and sends the request; the receiver is offline. -/
def chatCues (js : Json) : List (Cue Job Agent Choice) :=
  .start (.frame ⟨0, 0⟩ (Client.loginRequest 1 "pw") "") ::
    List.replicate 10 (.act (.io ⟨0, 0⟩) {}) ++
  .start (.frame ⟨0, 0⟩ js "") :: List.replicate 9 (.act (.io ⟨0, 0⟩) { clockMs := 1 })

def hostileReplayer [JsonParser] : Replayer hostileCluster Choice :=
  Cluster.replayer .hostile (fun _ _ => True) (fun _ _ => true) fun _ _ _ => trivial

theorem exists_stored_chat [JsonParser] (js : Json)
    (h : ((hostileReplayer.replay? (Config.initial chatWorld) (chatCues js)).any fun x =>
      anyStored (fun messageid id => messageid = 2 ^ 20 ∧ id = 2) x.view.past) = true) :
    ∃ es x senderid groupid msgtype payload,
      Steps hostileCluster (Config.initial chatWorld) es x ∧
        .did (.frame ⟨0, 0⟩ js "") (.sql (.insertMessage (2 ^ 20) senderid 2 groupid msgtype
          payload)) true ∈ x.view.past := by
  obtain ⟨es, x, hrun, hjobs, hx⟩ := hostileReplayer.exists_steps_started (chatCues js) h
  obtain ⟨j, messageid, senderid, receiverid, groupid, msgtype, payload, hp, hstored⟩ :=
    exists_of_anyStored hx
  obtain ⟨rfl, rfl⟩ := of_decide_eq_true hp
  have hj := hjobs j (hrun.started_of_did hstored)
  simp only [chatCues, List.cons_append, List.mem_cons, List.mem_append, List.mem_replicate,
    Cue.start.injEq, reduceCtorEq, and_false, false_or, or_false] at hj
  refine ⟨es, x, senderid, groupid, msgtype, payload, hrun, ?_⟩
  obtain rfl | rfl := hj
  · obtain ⟨hjs, -, -⟩ := stores_of_recorded hrun hstored
    exact absurd hjs.type (by decide)
  · exact hstored

/-- A request of the client itself is consumed. -/
theorem stored_chat_consumed : letI := chatParser namedRequest
    ∃ es x senderid groupid msgtype payload,
      Steps hostileCluster (Config.initial chatWorld) es x ∧
        .did (.frame ⟨0, 0⟩ namedRequest "") (.sql (.insertMessage (2 ^ 20) senderid 2 groupid
          msgtype payload)) true ∈ x.view.past ∧
        Consumed 2 (2 ^ 20) payload := by
  let _ := chatParser namedRequest
  obtain ⟨es, x, senderid, groupid, msgtype, payload, hrun, hstored⟩ :=
    exists_stored_chat namedRequest (by decide +kernel)
  refine ⟨es, x, senderid, groupid, msgtype, payload, hrun, hstored, ?_⟩
  have hpayload := (stores_of_recorded hrun hstored).2.2
  exact (stored_chat_consumed_iff hrun hstored (by decide) (by decide) (if_pos hpayload)).mpr
    (by decide)

/-- The server accepts and stores the bare request. Its receiver does not get through the
frame, nor through the same text in `offlinemsg`. -/
theorem bare_chat_not_consumed : letI := chatParser bareRequest
    ∃ es x senderid groupid msgtype payload,
      Steps hostileCluster (Config.initial chatWorld) es x ∧
        .did (.frame ⟨0, 0⟩ bareRequest "") (.sql (.insertMessage (2 ^ 20) senderid 2 groupid
          msgtype payload)) true ∈ x.view.past ∧
        JsonParser.parse payload = some (chatFrame bareRequest (2 ^ 20) 2) ∧
        Client.readChatFrame 2 payload = none ∧ Client.showOfflineMessage 2 payload = none ∧
        ¬ Consumed 2 (2 ^ 20) payload := by
  let _ := chatParser bareRequest
  obtain ⟨es, x, senderid, groupid, msgtype, payload, hrun, hstored⟩ :=
    exists_stored_chat bareRequest (by decide +kernel)
  obtain ⟨hjs, -, hpayload⟩ := stores_of_recorded hrun hstored
  have hparse : JsonParser.parse payload = some (chatFrame bareRequest (2 ^ 20) 2) :=
    if_pos hpayload
  have hnot : ¬ Displayable bareRequest := by decide
  have hread : Client.readChatFrame 2 payload = none :=
    (readChatFrame_eq 2 hjs hparse).trans (if_neg hnot)
  refine ⟨es, x, senderid, groupid, msgtype, payload, hrun, hstored, hparse, hread, ?_, fun h => ?_⟩
  · exact (showOfflineMessage_eq 2 hjs hparse).trans (if_neg hnot)
  · rw [h.live] at hread
    cases hread

end ChatCluster
