import ChatCluster.ChatServer

/-!
# What the handlers may touch

The commands that a handler can issue, whatever it is answered. A neutral command
leaves the three stores of a session alone: the state of a user, the maps and the
subscriptions. Only `login`, `loginout`, `clientCloseException` and the signal
handler issue others.
-/
namespace ChatCluster
open CommandProgram

def Command.Neutral (c : Command) : Prop :=
  ¬ c.WritesState ∧ ¬ c.WritesMap ∧ ¬ c.WritesSubscriptions

/-- A statement that has to do neither with the row of a user nor with messages. -/
def Command.Unrelated (c : Command) : Prop :=
  ∃ q : Statement, c = .sql q ∧ ¬ q.WritesUsers ∧ ¬ q.UsesMessages ∧ ¬ q.IsUserQuery

theorem Command.Unrelated.keepsMessages {c : Command} (h : c.Unrelated) :
    ¬ c.WritesMessages := by
  obtain ⟨q, rfl, -, hq, -⟩ := h
  exact fun h => hq h.usesMessages

/-- Before the answer a login talks only to the database. -/
def Command.IsSql (c : Command) : Prop := ∃ q : Statement, c = .sql q

theorem neutral_sql {q : Statement} (h : ¬ q.WritesState) : (Command.sql q).Neutral :=
  ⟨h, id, id⟩

theorem neutral_node {q : NodeOp} (h : ¬ q.WritesMap) (h' : ¬ q.WritesSubscriptions) :
    (Command.node q).Neutral := ⟨id, h, h'⟩

theorem neutral_sendTo (conn : Conn) (frame : Sent) : (Command.sendTo conn frame).Neutral :=
  ⟨id, id, id⟩

theorem neutral_redisPublish (channel : ℤ) (message : String) :
    (Command.redisPublish channel message).Neutral := ⟨id, id, id⟩

theorem unrelated_sql {q : Statement} (h : ¬ q.WritesUsers) (h' : ¬ q.UsesMessages)
    (h'' : ¬ q.IsUserQuery) : (Command.sql q).Unrelated := ⟨q, rfl, h, h', h''⟩

/-! ## The types of frames -/

theorem msgType?_of_find {js : Json} {t : EnMsgType} (h : js.find? "msgid" = some (.int t.code)) :
    msgType? js = some t := by
  rw [msgType?, h]
  cases t <;> rfl

theorem msgType?_errorResponse (t : EnMsgType) (errno : ℤ) (errmsg : String) :
    msgType? (errorResponse t errno errmsg) = some t := msgType?_of_find rfl

theorem msgType?_loginResponse (user : User) (offlineMessages : List String)
    (userVec : List User) (groupuserVec : List Group) :
    msgType? (loginResponse user offlineMessages userVec groupuserVec) = some .loginMsgAck := by
  refine msgType?_of_find ?_
  rw [find?_loginResponse _ _ _ _ (by decide) (by decide) (by decide)]
  rfl

theorem msgType?_stampOneChat (js : Json) (messageid : ℤ) :
    msgType? (stampOneChat js messageid) = msgType? js := by
  rw [msgType?, stampOneChat, Json.find?_set_ne _ (by decide), Json.find?_set_ne _ (by decide),
    msgType?]

theorem msgType?_stampGroupChat (js : Json) (messageid id : ℤ) :
    msgType? (stampGroupChat js messageid id) = msgType? js := by
  rw [msgType?, stampGroupChat, Json.find?_set_ne _ (by decide), Json.find?_set_ne _ (by decide),
    Json.find?_set_ne _ (by decide), msgType?]

/-! ## Reading at login -/

theorem all_collectStored {P : Command → Prop} {id : ℤ} {ms : List StoredMessage}
    (h : ∀ m ∈ ms, P (.sql (.markDelivered m.messageid id))) : (collectStored id ms).All P := by
  induction ms with
  | nil => trivial
  | cons m ms ih =>
      simp only [List.mem_cons, forall_eq_or_imp] at h
      unfold collectStored
      split_ifs
      · exact ⟨h.1, fun _ => (ih h.2).bind fun _ => trivial⟩
      · exact ih h.2

theorem returns_collectStored (id : ℤ) (ms : List StoredMessage) :
    (collectStored id ms).Returns fun xs =>
      xs = (ms.filter fun m => m.payload ≠ "").map StoredMessage.payload := by
  induction ms with
  | nil => exact rfl
  | cons m ms ih =>
      unfold collectStored
      split_ifs with hm
      · refine fun _ => ih.bind fun xs hxs => ?_
        rw [List.filter_cons_of_pos (by simpa using hm), List.map_cons, ← hxs]
        exact rfl
      · rw [List.filter_cons_of_neg (by simpa using hm)]
        exact ih

/-- What a login does with the tables of user `id` besides the stored messages. -/
inductive Command.OfAccount (id : ℤ) : Command → Prop
  | legacy : OfAccount id (.sql (.selectOffline id))
  | remove : OfAccount id (.sql (.deleteOffline id))
  | friends : OfAccount id (.sql (.selectFriends id))
  | groups : OfAccount id (.sql (.selectGroups id))
  | members (groupid : ℤ) : OfAccount id (.sql (.selectMembers groupid))

theorem Command.OfAccount.unrelated {id : ℤ} {c : Command} (h : c.OfAccount id) :
    c.Unrelated := by
  cases h <;> exact unrelated_sql not_false not_false not_false

theorem ofAccount_takeLegacy (id : ℤ) : (takeLegacy id).All (Command.OfAccount id) := by
  refine Prog.All.bind ⟨.legacy, fun _ => trivial⟩ fun rows => ?_
  split_ifs
  · trivial
  · exact ⟨.remove, fun _ => trivial⟩

theorem ofAccount_friendQuery (id : ℤ) : (FriendModel.query id).All (Command.OfAccount id) :=
  ⟨.friends, fun _ => trivial⟩

theorem all_queryMembers {P : Command → Prop} (h : ∀ groupid, P (.sql (.selectMembers groupid)))
    (groups : List Group) : (GroupModel.queryMembers groups).All P := by
  induction groups with
  | nil => trivial
  | cons group groups ih => exact ⟨h _, fun _ => ih.bind fun _ => trivial⟩

theorem ofAccount_queryGroups (id : ℤ) : (GroupModel.queryGroups id).All (Command.OfAccount id) :=
  ⟨.groups, fun _ => all_queryMembers .members _⟩

theorem all_assembleResponse {P : Command → Prop} {id : ℤ} {user : User}
    {ms : List StoredMessage} (hmark : ∀ messageid, P (.sql (.markDelivered messageid id)))
    (hother : ∀ c : Command, c.OfAccount id → P c) : (assembleResponse id user ms).All P := by
  refine (all_collectStored fun m _ => hmark m.messageid).bind fun _ => ?_
  refine ((ofAccount_takeLegacy id).mono hother).bind fun _ => ?_
  refine ((ofAccount_friendQuery id).mono hother).bind fun _ => ?_
  exact ((ofAccount_queryGroups id).mono hother).bind fun _ => trivial

theorem returns_assembleResponse {T : Json → Prop} {id : ℤ} {user : User}
    {ms : List StoredMessage}
    (h : ∀ legacyMessages userVec groupuserVec, T (loginResponse user
      ((ms.filter fun m => m.payload ≠ "").map StoredMessage.payload ++ legacyMessages) userVec
      groupuserVec)) : (assembleResponse id user ms).Returns T := by
  refine (returns_collectStored id ms).bind fun _ htexts => ?_
  refine (Prog.returns_true _).bind fun _ _ => ?_
  refine (Prog.returns_true _).bind fun _ _ => ?_
  refine (Prog.returns_true _).bind fun _ _ => ?_
  exact htexts ▸ h _ _ _

theorem all_syncSession {P : Command → Prop} {id : ℤ} {user : User}
    (hread : P (.sql (.selectUnacked id 1000)))
    (hmark : ∀ messageid, P (.sql (.markDelivered messageid id)))
    (hother : ∀ c : Command, c.OfAccount id → P c) : (syncSession id user).All P :=
  Prog.All.bind ⟨hread, fun _ => trivial⟩ fun _ => all_assembleResponse hmark hother

theorem returns_syncSession {T : Json → Prop} {id : ℤ} {user : User}
    (h : ∀ offlineMessages userVec groupuserVec,
      T (loginResponse user offlineMessages userVec groupuserVec)) :
    (syncSession id user).Returns T :=
  (Prog.returns_true _).bind fun _ _ => returns_assembleResponse fun _ => h _

/-- The commands of a login for user `id?`, where every answer satisfies `P`. -/
inductive Command.OfLogin (conn : Conn) (id? : Option ℤ) (P : Json → Prop) : Command → Prop
  | query (id : ℤ) : id? = some id → OfLogin conn id? P (.sql (.selectUser id))
  | online (id : ℤ) : id? = some id → OfLogin conn id? P (.sql (.updateUserState id .online))
  | read (id : ℤ) : id? = some id → OfLogin conn id? P (.sql (.selectUnacked id 1000))
  | mark (messageid id : ℤ) : id? = some id → OfLogin conn id? P (.sql (.markDelivered messageid id))
  | unrelated (c : Command) : c.Unrelated → OfLogin conn id? P c
  | bind (id : ℤ) : id? = some id → OfLogin conn id? P (.node (.mapBind id conn))
  | redis : OfLogin conn id? P (.node .redisIsConnected)
  | subscribe (id : ℤ) : id? = some id → OfLogin conn id? P (.node (.redisSubscribe id))
  | answer (response : Json) : P response → OfLogin conn id? P (.sendTo conn (.json response))

section Login
variable {conn : Conn} {js : Json} {P : Json → Prop} {id : ℤ} {user : User}

/-- What a login does between the binding of the connection and its queries. -/
theorem all_announce {T : Command → Prop} (hredis : T (.node .redisIsConnected))
    (hsubscribe : T (.node (.redisSubscribe id)))
    (hstate : T (.sql (.updateUserState user.id user.state))) :
    (do trySubscribe id
        let _ ← UserModel.updateState user : Program Unit).All T := by
  refine Prog.All.bind (Prog.All.bind ⟨hredis, fun _ => trivial⟩ fun connected => ?_) fun _ =>
    ⟨hstate, fun _ => trivial⟩
  split_ifs
  · exact ⟨hsubscribe, fun _ => trivial⟩
  · trivial

theorem all_openSession {T : Command → Prop} (hbind : T (.node (.mapBind id conn)))
    (hredis : T (.node .redisIsConnected)) (hsubscribe : T (.node (.redisSubscribe id)))
    (honline : T (.sql (.updateUserState user.id .online))) : (openSession conn id user).All T :=
  Prog.All.bind ⟨hbind, fun _ => trivial⟩ fun _ => all_announce hredis hsubscribe honline

theorem ofLogin_openSession (huser : user.id = id) :
    (openSession conn id user).All (Command.OfLogin conn (some id) P) :=
  all_openSession (.bind id rfl) .redis (.subscribe id rfl) (.online _ (congrArg some huser.symm))

theorem ofLogin_syncSession :
    (syncSession id user).All (Command.OfLogin conn (some id) P) :=
  all_syncSession (.read id rfl) (fun _ => .mark _ id rfl) fun c hc => .unrelated c hc.unrelated

/-- A login after its check. -/
theorem ofLogin_accept (huser : user.id = id)
    (h : ∀ offlineMessages userVec groupuserVec,
      P (loginResponse user offlineMessages userVec groupuserVec)) :
    (do openSession conn id user
        let response ← syncSession id user
        sendJson conn response : Program Unit).All (Command.OfLogin conn (some id) P) :=
  (ofLogin_openSession huser).bind fun _ => ofLogin_syncSession.bind_returns
    (returns_syncSession h) fun response hresponse => ⟨.answer response hresponse, fun _ => trivial⟩

theorem ofLogin_login
    (hrefuse : ∀ errno errmsg, errno = 1 ∨ errno = 2 → P (errorResponse .loginMsgAck errno errmsg))
    (haccept : ∀ user offlineMessages userVec groupuserVec, getInt js "id" = some user.id →
      P (loginResponse user offlineMessages userVec groupuserVec)) :
    (login conn js).All (Command.OfLogin conn (getInt js "id") P) := by
  have hrefused : ∀ {errno errmsg}, errno = 1 ∨ errno = 2 →
      (sendJson conn (errorResponse .loginMsgAck errno errmsg)).All
        (Command.OfLogin conn (getInt js "id") P) := fun h =>
    ⟨.answer _ (hrefuse _ _ h), fun _ => trivial⟩
  unfold login
  split
  · next id pwd hid _ =>
    refine Prog.All.bind ⟨.query id hid, fun _ => trivial⟩ fun user => ?_
    split_ifs with hmatch
    · exact hrefused (.inr rfl)
    · rw [hid]
      exact ofLogin_accept hmatch.1 fun _ _ _ => haccept user _ _ _ (hmatch.1 ▸ hid)
    · exact hrefused (.inl rfl)
  · exact hrefused (.inl rfl)

/-- Whatever a login does to the tables besides marks and its own row is `OfAccount`. -/
theorem all_login {T : Command → Prop} (hquery : ∀ id, T (.sql (.selectUser id)))
    (hbind : ∀ id, T (.node (.mapBind id conn))) (hredis : T (.node .redisIsConnected))
    (hsubscribe : ∀ id, T (.node (.redisSubscribe id)))
    (honline : ∀ id, T (.sql (.updateUserState id .online)))
    (hread : ∀ id, T (.sql (.selectUnacked id 1000)))
    (hmark : ∀ messageid id, T (.sql (.markDelivered messageid id)))
    (hother : ∀ id (c : Command), c.OfAccount id → T c)
    (hsend : ∀ response, T (.sendTo conn (.json response))) : (login conn js).All T := by
  have hanswer : ∀ response, (sendJson conn response).All T := fun response =>
    ⟨hsend response, fun _ => trivial⟩
  unfold login
  split
  · next id pwd _ _ =>
    refine Prog.All.bind ⟨hquery id, fun _ => trivial⟩ fun user => ?_
    split_ifs
    · exact hanswer _
    · refine (all_openSession (hbind id) hredis (hsubscribe id) (honline _)).bind fun _ => ?_
      exact (all_syncSession (hread id) (fun _ => hmark _ id) (hother id)).bind fun _ => hanswer _
    · exact hanswer _
  · exact hanswer _

end Login

/-! ## Ending a session -/

/-- The commands that end the session of a user with `P`. -/
inductive Command.OfTeardown (P : ℤ → Prop) : Command → Prop
  | check (userid : ℤ) (conn : Conn) : OfTeardown P (.node (.mapIsBound userid conn))
  | erase (userid : ℤ) : P userid → OfTeardown P (.node (.mapErase userid))
  | redis : OfTeardown P (.node .redisIsConnected)
  | unsubscribe (userid : ℤ) : P userid → OfTeardown P (.node (.redisUnsubscribe userid))
  | offline (userid : ℤ) : P userid → OfTeardown P (.sql (.updateUserState userid .offline))

section Teardown
variable {conn : Conn} {js : Json} {P : ℤ → Prop}

theorem all_closeSession {Q : Command → Prop} {userid : ℤ} (hredis : Q (.node .redisIsConnected))
    (hunsubscribe : Q (.node (.redisUnsubscribe userid)))
    (hoffline : Q (.sql (.updateUserState userid .offline))) : (closeSession userid).All Q := by
  refine Prog.All.bind (Prog.All.bind ⟨hredis, fun _ => trivial⟩ fun connected => ?_) fun _ =>
    ⟨hoffline, fun _ => trivial⟩
  split_ifs
  · exact ⟨hunsubscribe, fun _ => trivial⟩
  · trivial

theorem ofTeardown_closeSession {userid : ℤ} (h : P userid) :
    (closeSession userid).All (Command.OfTeardown P) :=
  all_closeSession .redis (.unsubscribe userid h) (.offline userid h)

theorem ofTeardown_loginout (h : ∀ userid, getInt js "id" = some userid → P userid) :
    (loginout conn js).All (Command.OfTeardown P) := by
  unfold loginout
  split
  · next userid hid =>
    refine Prog.All.bind ⟨.check _ _, fun _ => trivial⟩ fun bound => ?_
    split_ifs
    · exact ⟨.erase userid (h userid hid), fun _ => ofTeardown_closeSession (h userid hid)⟩
    · trivial
  · trivial

theorem all_clientCloseException {Q : Command → Prop} (herase : Q (.node (.mapEraseConn conn)))
    (hclose : ∀ c : Command, c.OfTeardown (fun _ => True) → Q c) :
    (clientCloseException conn).All Q := by
  refine ⟨herase, fun (erased : Option ℤ) => ?_⟩
  cases erased with
  | none => trivial
  | some userid =>
      change (if userid ≠ -1 then closeSession userid else .ret ()).All Q
      split_ifs
      · exact (ofTeardown_closeSession trivial).mono hclose
      · trivial

end Teardown

/-! ## Messages -/

/-- The commands of the handlers that store, deliver or acknowledge messages. Every
message stored, with its id, its receiver and its text, satisfies `Q`, and every frame
handed to a connection `P`. -/
inductive Command.OfDelivery (Q : ℤ → ℤ → String → Prop) (P : Sent → Prop) : Command → Prop
  | check (userid : ℤ) (conn : Conn) : OfDelivery Q P (.node (.mapIsBound userid conn))
  | clock : OfDelivery Q P (.node .clockNow)
  | pid : OfDelivery Q P (.node .getpid)
  | seq : OfDelivery Q P (.node .fetchAddSeq)
  | members (userid groupid : ℤ) : OfDelivery Q P (.sql (.selectGroupUserIds userid groupid))
  | insert (messageid senderid receiverid groupid msgtype : ℤ) (payload : String) :
      Q messageid receiverid payload → OfDelivery Q P
        (.sql (.insertMessage messageid senderid receiverid groupid msgtype payload))
  | lock : OfDelivery Q P (.node .lockConnMutex)
  | find (userid : ℤ) : OfDelivery Q P (.node (.mapFind userid))
  | unlock : OfDelivery Q P (.node .unlockConnMutex)
  | send (conn : Conn) (s : Sent) : P s → OfDelivery Q P (.sendTo conn s)
  | mark (messageid receiverid : ℤ) : OfDelivery Q P (.sql (.markDelivered messageid receiverid))
  | query (id : ℤ) : OfDelivery Q P (.sql (.selectUser id))
  | redis : OfDelivery Q P (.node .redisIsConnected)
  | publish (channel : ℤ) (message : String) : OfDelivery Q P (.redisPublish channel message)
  | ack (messageid receiverid : ℤ) : OfDelivery Q P (.sql (.ackMessage messageid receiverid))

section Delivery
variable {Q : ℤ → ℤ → String → Prop} {P : Sent → Prop} {conn : Conn} {js : Json}

/-- An id that is a `long long`. -/
def MessageIdRange (messageid : ℤ) : Prop := LLONG_MIN ≤ messageid ∧ messageid ≤ LLONG_MAX

theorem messageIdRange_composeMessageId (now pid seq : ℕ) :
    MessageIdRange (composeMessageId now pid seq) := by
  unfold MessageIdRange composeMessageId LLONG_MIN LLONG_MAX
  have hl := BitVec.le_toInt (BitVec.ofNat 64 now <<< 20 |||
    BitVec.ofNat 64 (pid % 2 ^ 10) <<< 10 ||| BitVec.ofNat 64 (seq % 2 ^ 10))
  have hu := BitVec.toInt_lt (x := BitVec.ofNat 64 now <<< 20 |||
    BitVec.ofNat 64 (pid % 2 ^ 10) <<< 10 ||| BitVec.ofNat 64 (seq % 2 ^ 10))
  constructor <;> omega

theorem returns_generateMessageId : generateMessageId.Returns MessageIdRange :=
  fun _ _ _ => messageIdRange_composeMessageId _ _ _

theorem ofDelivery_generateMessageId : generateMessageId.All (Command.OfDelivery Q P) :=
  ⟨.clock, fun _ => ⟨.pid, fun _ => ⟨.seq, fun _ => trivial⟩⟩⟩

theorem all_persistAndDeliver {T : Command → Prop} {messageid senderid receiverid groupid : ℤ}
    {msgtype : EnMsgType}
    (hinsert : T (.sql (.insertMessage messageid senderid receiverid groupid msgtype.code js.dump)))
    (hlock : T (.node .lockConnMutex)) (hfind : T (.node (.mapFind receiverid)))
    (hsend : ∀ receiver, T (.sendTo receiver (.json js)))
    (hmark : T (.sql (.markDelivered messageid receiverid))) (hunlock : T (.node .unlockConnMutex))
    (hquery : T (.sql (.selectUser receiverid))) (hredis : T (.node .redisIsConnected))
    (hpublish : T (.redisPublish receiverid js.dump)) :
    (persistAndDeliver messageid senderid receiverid groupid msgtype js).All T := by
  refine Prog.All.bind ⟨hinsert, fun _ => trivial⟩ fun stored => ?_
  split_ifs
  · refine Prog.All.bind ⟨hlock, fun _ => trivial⟩ fun _ => ?_
    refine Prog.All.bind ⟨hfind, fun _ => trivial⟩ fun found => ?_
    cases found with
    | some receiver =>
        exact ⟨hsend receiver, fun _ => ⟨hmark, fun _ => ⟨hunlock, fun _ => trivial⟩⟩⟩
    | none =>
        refine Prog.All.bind ⟨hunlock, fun _ => trivial⟩ fun _ => ?_
        refine Prog.All.bind ⟨hquery, fun _ => trivial⟩ fun user => ?_
        split_ifs
        · refine Prog.All.bind ⟨hredis, fun _ => trivial⟩ fun _ => ?_
          split_ifs
          · exact ⟨hpublish, fun _ => trivial⟩
          · trivial
        · trivial
  · trivial

theorem ofDelivery_persistAndDeliver (messageid senderid receiverid groupid : ℤ)
    (msgtype : EnMsgType) (hstore : Q messageid receiverid js.dump) (h : P (.json js)) :
    (persistAndDeliver messageid senderid receiverid groupid msgtype js).All
      (Command.OfDelivery Q P) :=
  all_persistAndDeliver (.insert _ _ _ _ _ _ hstore) .lock (.find _) (fun _ => .send _ _ h)
    (.mark _ _) .unlock (.query _) .redis (.publish _ _)

theorem ofDelivery_oneChat
    (hstore : ∀ messageid fromid toid msg, MessageIdRange messageid →
      getInt js "id" = some fromid → getInt js "toid" = some toid →
        getString js "msg" = some msg → Q messageid toid (stampOneChat js messageid).dump)
    (h : ∀ messageid, P (.json (stampOneChat js messageid))) :
    (oneChat conn js).All (Command.OfDelivery Q P) := by
  unfold oneChat
  split
  · next fromid toid msg hid htoid hmsg =>
    refine Prog.All.bind ⟨.check _ _, fun _ => trivial⟩ fun _ => ?_
    split_ifs
    · exact ofDelivery_generateMessageId.bind_returns returns_generateMessageId
        fun messageid hrange => ofDelivery_persistAndDeliver _ _ _ _ _
          (hstore messageid fromid toid msg hrange hid htoid hmsg) (h messageid)
    · trivial
  · trivial

theorem ofDelivery_groupChat
    (hstore : ∀ messageid userid id msg, MessageIdRange messageid →
      getInt js "id" = some userid → getString js "msg" = some msg →
        Q messageid id (stampGroupChat js messageid id).dump)
    (h : ∀ messageid id, P (.json (stampGroupChat js messageid id))) :
    (groupChat conn js).All (Command.OfDelivery Q P) := by
  unfold groupChat
  split
  · next userid groupid msg hid _ hmsg =>
    refine Prog.All.bind ⟨.check _ _, fun _ => trivial⟩ fun _ => ?_
    split_ifs
    · refine Prog.All.bind ⟨.members _ _, fun _ => trivial⟩ fun members => ?_
      exact Prog.all_forM fun id _ =>
        ofDelivery_generateMessageId.bind_returns returns_generateMessageId
          fun messageid hrange => ofDelivery_persistAndDeliver _ _ _ _ _
            (hstore messageid userid id msg hrange hid hmsg) (h messageid id)
    · trivial
  · trivial

theorem all_messageAck {T : Command → Prop} (hcheck : ∀ u, T (.node (.mapIsBound u conn)))
    (hack : ∀ messageid u, T (.sql (.ackMessage messageid u))) : (messageAck conn js).All T := by
  unfold messageAck
  split
  · refine Prog.All.bind ⟨hcheck _, fun _ => trivial⟩ fun _ => ?_
    split_ifs
    · split
      · exact ⟨hack _ _, fun _ => trivial⟩
      · trivial
    · trivial
  · trivial

theorem ofDelivery_messageAck : (messageAck conn js).All (Command.OfDelivery Q P) :=
  all_messageAck (fun _ => .check _ _) fun _ _ => .ack _ _

theorem all_handleRedisSubscribeMessage [JsonParser] {T : Command → Prop} {userid : ℤ}
    {msg : String} (hlock : T (.node .lockConnMutex)) (hfind : T (.node (.mapFind userid)))
    (hsend : ∀ conn, T (.sendTo conn (.raw msg)))
    (hmark : ∀ messageid, T (.sql (.markDelivered messageid userid)))
    (hunlock : T (.node .unlockConnMutex)) : (handleRedisSubscribeMessage userid msg).All T := by
  refine Prog.All.bind ⟨hlock, fun _ => trivial⟩ fun _ => ?_
  refine Prog.All.bind ⟨hfind, fun _ => trivial⟩ fun found => ?_
  cases found with
  | some conn =>
      refine Prog.All.bind ⟨hsend conn, fun _ => trivial⟩ fun _ => ?_
      split_ifs
      · exact ⟨hmark _, fun _ => ⟨hunlock, fun _ => trivial⟩⟩
      · exact ⟨hunlock, fun _ => trivial⟩
  | none => exact ⟨hunlock, fun _ => trivial⟩

theorem ofDelivery_handleRedisSubscribeMessage [JsonParser] (userid : ℤ) {msg : String}
    (h : P (.raw msg)) :
    (handleRedisSubscribeMessage userid msg).All (Command.OfDelivery Q P) :=
  all_handleRedisSubscribeMessage .lock (.find _) (fun _ => .send _ _ h) (fun _ => .mark _ _) .unlock

end Delivery

/-! ## Contacts and heartbeat -/

/-- The commands of the handlers that have to do neither with sessions nor with
messages. -/
inductive Command.OfContacts : Command → Prop
  | unrelated (c : Command) : c.Unrelated → OfContacts c
  | insertUser (name password : String) (state : UserState) :
      OfContacts (.sql (.insertUser name password state))
  | check (userid : ℤ) (conn : Conn) : OfContacts (.node (.mapIsBound userid conn))
  | answer (conn : Conn) (response : Json) (t : EnMsgType) : msgType? response = some t →
      t = .regMsgAck ∨ t = .heartbeatMsg → OfContacts (.sendTo conn (.json response))

section Contacts
variable {conn : Conn} {js : Json} {time : String}

theorem ofContacts_sql {q : Statement} (h : ¬ q.WritesUsers) (h' : ¬ q.UsesMessages)
    (h'' : ¬ q.IsUserQuery) : Command.OfContacts (.sql q) :=
  .unrelated _ (unrelated_sql h h' h'')

theorem all_reg {T : Command → Prop}
    (hinsert : ∀ name password state, T (.sql (.insertUser name password state)))
    (hsend : ∀ response, msgType? response = some .regMsgAck → T (.sendTo conn (.json response))) :
    (reg conn js).All T := by
  have hinvalid : (sendErrorResponse conn .regMsgAck "invalid register request").All T :=
    ⟨hsend _ (msgType?_errorResponse ..), fun _ => trivial⟩
  unfold reg
  split
  · split_ifs
    · exact hinvalid
    · refine Prog.All.bind ⟨hinsert _ _ _, fun _ => trivial⟩ fun id? => ?_
      cases id? with
      | some id => exact ⟨hsend _ (msgType?_of_find rfl), fun _ => trivial⟩
      | none => exact ⟨hsend _ (msgType?_of_find rfl), fun _ => trivial⟩
  · exact hinvalid

theorem ofContacts_reg : (reg conn js).All Command.OfContacts :=
  all_reg .insertUser fun _ h => .answer _ _ .regMsgAck h (.inl rfl)

section Checked
variable {T : Command → Prop} (hcheck : ∀ userid, T (.node (.mapIsBound userid conn)))
include hcheck

theorem all_addFriend (hinsert : ∀ userid friendid, T (.sql (.insertFriend userid friendid))) :
    (addFriend conn js).All T := by
  unfold addFriend
  split
  · refine Prog.All.bind ⟨hcheck _, fun _ => trivial⟩ fun bound => ?_
    split_ifs
    · exact ⟨hinsert _ _, fun _ => trivial⟩
    · trivial
  · trivial

theorem all_createGroup (hcreate : ∀ name desc, T (.sql (.insertGroup name desc)))
    (hinsert : ∀ groupid userid, T (.sql (.insertGroupUser groupid userid .creator))) :
    (createGroup conn js).All T := by
  unfold createGroup
  split
  · split_ifs
    · trivial
    · refine Prog.All.bind ⟨hcheck _, fun _ => trivial⟩ fun bound => ?_
      split_ifs
      · refine Prog.All.bind ⟨hcreate _ _, fun _ => trivial⟩ fun groupid? => ?_
        cases groupid? with
        | some groupid => exact ⟨hinsert _ _, fun _ => trivial⟩
        | none => trivial
      · trivial
  · trivial

theorem all_addGroup
    (hinsert : ∀ groupid userid, T (.sql (.insertGroupUser groupid userid .normal))) :
    (addGroup conn js).All T := by
  unfold addGroup
  split
  · refine Prog.All.bind ⟨hcheck _, fun _ => trivial⟩ fun bound => ?_
    split_ifs
    · exact ⟨hinsert _ _, fun _ => trivial⟩
    · trivial
  · trivial

end Checked

theorem ofContacts_addFriend : (addFriend conn js).All Command.OfContacts :=
  all_addFriend (fun _ => .check _ _) fun _ _ => ofContacts_sql not_false not_false not_false

theorem ofContacts_createGroup : (createGroup conn js).All Command.OfContacts :=
  all_createGroup (fun _ => .check _ _) (fun _ _ => ofContacts_sql not_false not_false not_false)
    fun _ _ => ofContacts_sql not_false not_false not_false

theorem ofContacts_addGroup : (addGroup conn js).All Command.OfContacts :=
  all_addGroup (fun _ => .check _ _) fun _ _ => ofContacts_sql not_false not_false not_false

theorem all_heartbeat {T : Command → Prop}
    (hsend : ∀ response, msgType? response = some .heartbeatMsg →
      T (.sendTo conn (.json response))) : (heartbeat conn js time).All T := by
  unfold heartbeat
  split
  · exact ⟨hsend _ (msgType?_of_find rfl), fun _ => trivial⟩
  · exact ⟨hsend _ (msgType?_of_find rfl), fun _ => trivial⟩

theorem ofContacts_heartbeat : (heartbeat conn js time).All Command.OfContacts :=
  all_heartbeat fun _ h => .answer _ _ .heartbeatMsg h (.inr rfl)

end Contacts

/-! ## Frames -/

/-- What holds of a login, of a logout, of the handlers of messages and of every handler
that has to do with neither, holds of the handler of a frame. -/
theorem onMessage_handlers {T : Program Unit → Prop} {conn : Conn} {js : Json} {time : String}
    (hlogin : msgType? js = some .loginMsg → T (login conn js))
    (hlogout : msgType? js = some .loginoutMsg →
      (loginout conn js).All (Command.OfTeardown fun _ => True) → T (loginout conn js))
    (hcontacts : ∀ p : Program Unit, p.All Command.OfContacts → T p)
    (hone : msgType? js = some .oneChatMsg → T (oneChat conn js))
    (hgroup : msgType? js = some .groupChatMsg → T (groupChat conn js))
    (hack : msgType? js = some .msgAck → T (messageAck conn js)) :
    T (onMessage conn js time) := by
  rw [onMessage_eq]
  split
  · next hmsg => exact hlogin hmsg
  · next hmsg => exact hlogout hmsg (ofTeardown_loginout fun _ _ => trivial)
  · exact hcontacts _ ofContacts_reg
  · next hmsg => exact hone hmsg
  · exact hcontacts _ ofContacts_addFriend
  · exact hcontacts _ ofContacts_createGroup
  · exact hcontacts _ ofContacts_addGroup
  · next hmsg => exact hgroup hmsg
  · next hmsg => exact hack hmsg
  · exact hcontacts _ ofContacts_heartbeat
  all_goals exact hcontacts _ trivial

end ChatCluster
