import ChatCluster.JsonRoundTrip
import ChatCluster.DeliveryRoutes
import ChatCluster.Contacts

/-!
# The texts that the program reads back

With the vendored parser, whatever a server sends, publishes or stores is read back as the
value it was made from, and so is whatever a client sends. What a server starts from is a
frame that has been parsed, and no handler leaves the values that a text can have.
-/
namespace ChatCluster
open CommandProgram Interleaving ChatCluster.Parser

section
variable [Strtod]

/-! ## The objects of the program -/

attribute [grind ←] normal_set

@[grind ←] theorem normal_int (n : ℤ) : (Json.int n).Normal := .integer _

@[grind ←] theorem normal_string (s : String) : (Json.string s).Normal := .string s

@[grind ←] theorem normal_null : Json.null.Normal := .null

@[grind ←] theorem normal_boolean (b : Bool) : (Json.boolean b).Normal := .boolean b

@[grind ←] theorem normal_strings (xs : List String) : (Json.strings xs).Normal := by
  refine .array fun x hx => ?_
  obtain ⟨s, -, rfl⟩ := List.mem_map.mp hx
  exact .string s

@[grind ←] theorem normal_setStrings {js : Json} (h : js.Normal) (key : String) (xs : List String) :
    (js.setStrings key xs).Normal := by
  unfold Json.setStrings
  split_ifs
  · exact h
  · exact normal_set h key (normal_strings xs)

theorem normal_find {js v : Json} {key : String} (h : js.Normal) (hv : js.find? key = some v) :
    v.Normal := by
  cases h with
  | @object fields _ hfields =>
      obtain ⟨l₁, l₂, hsplit, -⟩ := List.lookup_eq_some_iff.mp hv
      exact hfields (key, v) (by simp [hsplit])
  | _ => cases hv

theorem normal_errorResponse (msgid : EnMsgType) (errno : ℤ) (errmsg : String) :
    (errorResponse msgid errno errmsg).Normal := by
  grind [errorResponse]

theorem normal_loginResponse (user : User) (offlineMessages : List String) (userVec : List User)
    (groupuserVec : List Group) :
    (loginResponse user offlineMessages userVec groupuserVec).Normal := by
  unfold loginResponse
  refine normal_setStrings (normal_setStrings (normal_setStrings ?_ _ _) _ _) _ _
  grind

theorem normal_stampOneChat {js : Json} (h : js.Normal) (messageid : ℤ) :
    (stampOneChat js messageid).Normal := by
  grind [stampOneChat]

theorem normal_stampGroupChat {js : Json} (h : js.Normal) (messageid id : ℤ) :
    (stampGroupChat js messageid id).Normal := by
  grind [stampGroupChat]

theorem normal_chatFrame {js : Json} (h : js.Normal) (messageid receiverid : ℤ) :
    (chatFrame js messageid receiverid).Normal := by
  unfold chatFrame
  split_ifs
  · exact normal_stampGroupChat h messageid receiverid
  · exact normal_stampOneChat h messageid

theorem normal_friendJson (user : User) : user.friendJson.Normal := by
  grind [User.friendJson]

theorem normal_memberJson (user : GroupUser) : user.memberJson.Normal :=
  normal_set (normal_friendJson _) "role" (normal_string _)

theorem normal_groupJson (group : Group) : group.groupJson.Normal := by
  refine normal_set ?_ "users" (normal_strings _)
  grind

theorem contactsReadBack (userVec : List User) (groupuserVec : List Group) :
    ContactsReadBack userVec groupuserVec where
  friends u _ := parse_dump_of_normal (normal_friendJson u)
  groups g _ := parse_dump_of_normal (normal_groupJson g)
  members _ _ u _ := parse_dump_of_normal (normal_memberJson u)

/-! ## What the handlers send -/

/-- A value that is sent has a text that is read back. -/
def SendsNormal : Command → Prop
  | .sendTo _ (.json js) => js.Normal
  | _ => True

theorem Command.OfLogin.sendsNormal {conn : Conn} {id? : Option ℤ} {c : Command}
    (h : c.OfLogin conn id? Json.Normal) : SendsNormal c := by
  cases h with
  | unrelated c hc =>
      obtain ⟨q, rfl, -⟩ := hc
      trivial
  | answer response hresponse => exact hresponse
  | _ => trivial

theorem Command.OfDelivery.sendsNormal {Q : ℤ → ℤ → String → Prop} {c : Command}
    (h : c.OfDelivery Q fun s => ∀ js, s = .json js → js.Normal) : SendsNormal c := by
  cases h with
  | send conn s hs =>
      cases s with
      | json js => exact hs js rfl
      | raw payload => trivial
  | _ => trivial

theorem Command.OfTeardown.sendsNormal {P : ℤ → Prop} {c : Command} (h : c.OfTeardown P) :
    SendsNormal c := by
  cases h <;> trivial

theorem sendsNormal_reg (conn : Conn) (js : Json) : (reg conn js).All SendsNormal := by
  have hinvalid : (sendErrorResponse conn .regMsgAck "invalid register request").All SendsNormal :=
    ⟨normal_errorResponse _ _ _, fun _ => trivial⟩
  unfold reg
  split
  · split_ifs
    · exact hinvalid
    · refine Prog.All.bind ⟨trivial, fun _ => trivial⟩ fun id? => ?_
      cases id? with
      | some id => exact ⟨show Json.Normal _ by grind, fun _ => trivial⟩
      | none => exact ⟨show Json.Normal _ by grind, fun _ => trivial⟩
  · exact hinvalid

theorem sendsNormal_heartbeat (conn : Conn) (js : Json) (time : String) :
    (heartbeat conn js time).All SendsNormal := by
  unfold heartbeat
  split
  · exact ⟨show Json.Normal _ by grind, fun _ => trivial⟩
  · exact ⟨show Json.Normal _ by grind, fun _ => trivial⟩

theorem sendsNormal_login (conn : Conn) (js : Json) : (login conn js).All SendsNormal :=
  (ofLogin_login (fun _ _ _ => normal_errorResponse _ _ _)
    fun _ _ _ _ _ => normal_loginResponse _ _ _ _).mono fun _ => Command.OfLogin.sendsNormal

theorem sendsNormal_onMessage {conn : Conn} {js : Json} {time : String} (hjs : js.Normal) :
    (onMessage conn js time).All SendsNormal := by
  rw [onMessage_eq]
  split
  · exact sendsNormal_login conn js
  · exact (ofTeardown_loginout (P := fun _ => True) fun _ _ => trivial).mono fun _ =>
      Command.OfTeardown.sendsNormal
  · exact sendsNormal_reg conn js
  · refine (ofDelivery_oneChat (Q := fun _ _ _ => True) (fun _ _ _ _ _ _ _ _ => trivial) ?_).mono
      fun _ => Command.OfDelivery.sendsNormal
    rintro messageid js' ⟨⟩
    exact normal_stampOneChat hjs messageid
  · exact all_addFriend (fun _ => trivial) fun _ _ => trivial
  · exact all_createGroup (fun _ => trivial) (fun _ _ => trivial) fun _ _ => trivial
  · exact all_addGroup (fun _ => trivial) fun _ _ => trivial
  · refine (ofDelivery_groupChat (Q := fun _ _ _ => True) (fun _ _ _ _ _ _ _ => trivial) ?_).mono
      fun _ => Command.OfDelivery.sendsNormal
    rintro messageid id js' ⟨⟩
    exact normal_stampGroupChat hjs messageid id
  · exact all_messageAck (fun _ => trivial) fun _ _ => trivial
  · exact sendsNormal_heartbeat conn js time
  all_goals trivial

/-- The frame that a job starts from, if it starts from one, is a value that a text has. -/
def Job.FrameNormal : Job → Prop
  | .frame _ js _ => js.Normal
  | _ => True

theorem sendsNormal_body (j : Job) (hj : j.FrameNormal) : j.body.All SendsNormal := by
  cases j with
  | frame conn js time => exact sendsNormal_onMessage hj
  | close conn =>
      exact all_clientCloseException trivial
        fun _ => Command.OfTeardown.sendsNormal (P := fun _ => True)
  | redisMessage n channel message =>
      exact all_handleRedisSubscribeMessage trivial trivial (fun _ => trivial) (fun _ => trivial)
        trivial
  | sigint n => exact ⟨trivial, fun _ => ⟨trivial, fun _ => trivial⟩⟩

/-! ## Runs -/

/-- Every frame that a handler has been started for is what `json::parse` returned. -/
def FramesParsed (past : List ClusterEntry) : Prop :=
  ∀ conn js time, .started (.frame conn js time) ∈ past →
    ∃ text, JsonParser.parse text = some js

variable [LawfulStrtod] {db : Database} {es : List ClusterEntry} {x y : ClusterConfig}

theorem FramesParsed.normal {past : List ClusterEntry} (h : FramesParsed past) {j : Job}
    (hj : .started j ∈ past) : j.FrameNormal := by
  cases j with
  | frame conn js time =>
      obtain ⟨text, htext⟩ := h conn js time hj
      exact normal_of_parse htext
  | _ => trivial

omit [LawfulStrtod] in
theorem sendsNormal_job (j : Job) : j.body.All fun c => j.FrameNormal → SendsNormal c := by
  by_cases hj : j.FrameNormal
  · exact (sendsNormal_body j hj).mono fun _ hc _ => hc
  · exact (Prog.all_true _).mono fun _ _ hj' => absurd hj' hj

theorem normal_of_step (h : Steps hostileCluster (Config.initial (World.fresh db)) es x)
    (hparsed : FramesParsed x.view.past) {j : Job} {conn : Conn} {js : Json} {r : Unit}
    (hs : Step hostileCluster x (.did j (.sendTo conn (.json js)) r) y) : js.Normal := by
  have hdid := ((Steps.step h hs).did_all sendsNormal_job).1 j (.sendTo conn (.json js)) r
    (by rw [hs.moves.recorded]; simp)
  exact hdid (hparsed.normal (h.started_of_last (h.job_of_step hs rfl (by simp))).2)

theorem normal_of_recorded (h : Steps hostileCluster (Config.initial (World.fresh db)) es x)
    (hparsed : FramesParsed x.view.past) {j : Job} {conn : Conn} {js : Json} {r : Unit}
    (hmem : .did j (.sendTo conn (.json js)) r ∈ x.view.past) : js.Normal := by
  rcases List.append_of_mem hmem with ⟨newer, older, hpast⟩
  rcases h.at_entry hpast with ⟨_, _, y, z, hbefore, rfl, hs, -, -⟩
  have hparsed' : FramesParsed y.view.past := fun conn js time hstart =>
    hparsed conn js time (by simp [hpast, hstart])
  exact normal_of_step hbefore hparsed' hs

/-- A stored request has been parsed, so its frame is read back from the stored text. -/
theorem StoredChat.reads_back (h : Steps hostileCluster (Config.initial (World.fresh db)) es x)
    (hparsed : FramesParsed x.view.past) {js : Json} {messageid receiverid : ℤ} {payload : String}
    (hstored : StoredChat x.view.past js messageid receiverid payload) :
    JsonParser.parse payload = some (chatFrame js messageid receiverid) := by
  obtain ⟨conn, time, senderid, groupid, msgtype, hmem⟩ := id hstored
  obtain ⟨-, -, rfl⟩ := hstored.stores h
  have hjs : js.Normal := hparsed.normal (h.started_of_did hmem)
  exact parse_dump_of_normal (normal_chatFrame hjs messageid receiverid)

theorem readsBack_of_run (h : Steps hostileCluster (Config.initial (World.fresh db)) es x)
    (hparsed : FramesParsed x.view.past) (hdb : db.ReadsBack) : x.view.state.db.ReadsBack := by
  intro r hr
  obtain ⟨r₀, hr₀, hpersists⟩ | ⟨js, hstored⟩ := storedChat_of_row h hr
  · have hread := hdb r₀ hr₀
    rw [MessageRow.ReadsBack] at hread ⊢
    rwa [hpersists.payload, hpersists.messageId]
  · obtain ⟨hjs, hrange, hpayload⟩ := hstored.stores h
    have hparse := hstored.reads_back h hparsed
    rw [MessageRow.ReadsBack, hpayload, cStr_dump, ← hpayload, hparse]
    exact getLongLong_chatFrame hjs.object hrange

/-- In a run whose frames have been parsed, every line that has been given to a connection
is read, however it is split, as the value it was made from. -/
theorem lines_read_back (h : Steps hostileCluster (Config.initial (World.fresh db)) es x)
    (hparsed : FramesParsed x.view.past) {j : Job} {conn : Conn} {s : Sent} {r : Unit}
    (hmem : .did j (.sendTo conn s) r ∈ x.view.past) : ∃ js, s.Carries js ∧ s.ReadAs js := by
  obtain ⟨newer, older, hpast⟩ := List.append_of_mem hmem
  obtain ⟨_, _, y, y', hbefore, rfl, hs, -, -⟩ := h.at_entry hpast
  have hparsed' : FramesParsed y.view.past := fun conn js time hstart =>
    hparsed conn js time (by simp [hpast, hstart])
  cases s with
  | json js =>
      have hparse := parse_dump_of_normal (normal_of_step hbefore hparsed' hs)
      exact ⟨js, rfl, Sent.Carries.readAs rfl hparse⟩
  | raw payload =>
      obtain ⟨js, messageid, receiverid, hstored, hcarries⟩ := storedChat_of_sent hbefore hs trivial
      have hparse := hstored.reads_back hbefore hparsed'
      rw [show payload = _ from hcarries] at hparse
      exact ⟨_, hcarries, hcarries.readAs hparse⟩

/-- In such a run the stored texts are read back too: each row has the text of its own
message, if the rows that were there before have, and each stored request is the value of
its text. -/
theorem stored_texts_read_back (h : Steps hostileCluster (Config.initial (World.fresh db)) es x)
    (hparsed : FramesParsed x.view.past) (hdb : db.ReadsBack) :
    x.view.state.db.ReadsBack ∧ ParsesBack x.view.past :=
  ⟨readsBack_of_run h hparsed hdb, fun _ _ _ _ hstored => hstored.reads_back h hparsed⟩

end

theorem normal_namedRequest [Strtod] : namedRequest.Normal := by
  unfold namedRequest Client.chatRequest
  refine normal_set (normal_set ?_ _ (normal_string _)) _ (normal_string _)
  grind

/-- Something has been given to a connection. -/
def anySentTo (past : List ClusterEntry) : Bool :=
  past.any fun
    | .did _ (.sendTo _ _) _ => true
    | _ => false

theorem exists_of_anySentTo {past : List ClusterEntry} (h : anySentTo past = true) :
    ∃ j conn s r, .did j (.sendTo conn s) r ∈ past := by
  rw [anySentTo, List.any_eq_true] at h
  rcases h with ⟨e, he, hsend⟩
  cases e with
  | did j c r =>
      cases c <;> simp_all
      exact ⟨j, _, _, r, he⟩
  | _ => simp at hsend

/-- A run in which a user logs in and writes to another one, as the parser reads the frames. -/
theorem exists_parsed_run : (letI : Strtod := noDoubles
    ∃ es x, Steps hostileCluster (Config.initial chatWorld) es x ∧ FramesParsed x.view.past ∧
      (∃ j conn s r, .did j (.sendTo conn s) r ∈ x.view.past) ∧
      ∃ js messageid receiverid payload,
        StoredChat x.view.past js messageid receiverid payload) := by
  let _ := noDoubles
  obtain ⟨es, x, hrun, hjobs, hx⟩ := hostileReplayer.exists_steps_started (s := chatWorld)
    (chatCues namedRequest)
    (p := fun x => anyStored (fun _ _ => true) x.view.past && anySentTo x.view.past)
    (by decide +kernel)
  obtain ⟨hstored, hsent⟩ := Bool.and_eq_true_iff.mp hx
  refine ⟨es, x, hrun, ?_, ?_, ?_⟩
  · intro conn js time hstart
    have hj := hjobs _ hstart
    simp only [chatCues, List.cons_append, List.mem_cons, List.mem_append, List.mem_replicate,
      Cue.start.injEq, reduceCtorEq, and_false, false_or, or_false, Job.frame.injEq] at hj
    obtain ⟨-, rfl, -⟩ | ⟨-, rfl, -⟩ := hj
    · exact ⟨_, parse_dump_of_normal (by grind [Client.loginRequest])⟩
    · exact ⟨_, parse_dump_of_normal normal_namedRequest⟩
  · exact exists_of_anySentTo hsent
  · obtain ⟨j, messageid, senderid, receiverid, groupid, msgtype, payload, -, hmem⟩ :=
      exists_of_anyStored hstored
    obtain ⟨conn, js, time, rfl, hchat⟩ := storedChat_of_recorded hrun hmem
    exact ⟨js, messageid, receiverid, payload, hchat⟩

/-- A run in which a login has been answered. -/
theorem lines_read_back_login : (letI : Strtod := noDoubles
    ∃ es x j conn s r, Steps hostileCluster (Config.initial chatWorld) es x ∧
      .did j (.sendTo conn s) r ∈ x.view.past ∧ ∃ js, s.Carries js ∧ s.ReadAs js) := by
  let _ := noDoubles
  obtain ⟨es, x, hrun, hparsed, ⟨j, conn, s, r, hmem⟩, -⟩ := exists_parsed_run
  exact ⟨es, x, j, conn, s, r, hrun, hmem, lines_read_back hrun hparsed hmem⟩

/-- A run in which a message has been stored. -/
theorem stored_texts_read_back_chat : (letI : Strtod := noDoubles
    ∃ es x js messageid receiverid payload, Steps hostileCluster (Config.initial chatWorld) es x ∧
      StoredChat x.view.past js messageid receiverid payload ∧
      x.view.state.db.ReadsBack ∧ ParsesBack x.view.past) := by
  let _ := noDoubles
  obtain ⟨es, x, hrun, hparsed, -, js, messageid, receiverid, payload, hstored⟩ := exists_parsed_run
  refine ⟨es, x, js, messageid, receiverid, payload, hrun, hstored, ?_⟩
  exact stored_texts_read_back hrun hparsed fun _ hr => absurd hr List.not_mem_nil

/-! ## Requests -/

/-- What the client sends: the requests of its commands, heartbeats, and acknowledgements of
the frames it has parsed. -/
inductive Client.Writes [Strtod] : Json → Prop
  | login (id : ℤ) (pwd : String) : Writes (loginRequest id pwd)
  | reg (name pwd : String) : Writes (regRequest name pwd)
  | loginout (id : ℤ) : Writes (loginoutRequest id)
  | chat (id : ℤ) (name : String) (friendid : ℤ) (message time : String) :
      Writes (chatRequest id name friendid message time)
  | addFriend (id friendid : ℤ) : Writes (addFriendRequest id friendid)
  | createGroup (id : ℤ) (groupname groupdesc : String) :
      Writes (createGroupRequest id groupname groupdesc)
  | addGroup (id groupid : ℤ) : Writes (addGroupRequest id groupid)
  | groupChat (id : ℤ) (name : String) (groupid : ℤ) (message time : String) :
      Writes (groupChatRequest id name groupid message time)
  | heartbeat (id : ℤ) : Writes (heartbeatRequest id)
  | ack (u : ℤ) (text : String) (js request : Json) : JsonParser.parse text = some js →
      request ∈ ackMessageIfNeeded u js → Writes request

section
variable [Strtod] [LawfulStrtod]

theorem Client.Writes.normal {js : Json} (h : Client.Writes js) : js.Normal := by
  cases h with
  | login => grind [loginRequest]
  | reg => grind [regRequest]
  | loginout => grind [loginoutRequest]
  | chat =>
      refine normal_set (normal_set ?_ _ (normal_string _)) _ (normal_string _)
      grind
  | addFriend => grind [addFriendRequest]
  | createGroup =>
      refine normal_set (normal_set ?_ _ (normal_string _)) _ (normal_string _)
      grind
  | addGroup => grind [addGroupRequest]
  | groupChat =>
      refine normal_set (normal_set ?_ _ (normal_string _)) _ (normal_string _)
      grind
  | heartbeat => grind [heartbeatRequest]
  | ack u text frame request hparse hrequest =>
      unfold ackMessageIfNeeded at hrequest
      split at hrequest
      · next messageid hfind =>
          obtain rfl := List.mem_singleton.mp hrequest
          have hid := normal_find (normal_of_parse hparse) hfind
          exact normal_set (normal_set (normal_set .null _ (normal_int _)) _ (normal_int _)) _ hid
      · simp at hrequest

/-- Whatever requests a client writes, and however their bytes are split into reads, the
server starts one handler for each, in order, with the object that was written. -/
theorem requests_arrive {requests : List Json} (h : ∀ js ∈ requests, Client.Writes js)
    {reads : List Bytes}
    (hreads : reads.flatten = writtenBytes (requests.map fun js => (.sendJsonFrame, js)))
    (conn : Conn) (time : String) :
    frameJobs conn time reads = requests.map fun js => .frame conn js time := by
  have hparse : ∀ js ∈ requests, JsonParser.parse js.dump = some js := fun js hjs =>
    parse_dump_of_normal (h js hjs).normal
  rw [frameJobs_written hreads, List.filterMap_map]
  congr 1
  clear hreads
  induction requests with
  | nil => rfl
  | cons js requests ih =>
      rw [List.filterMap_cons, Function.comp_apply, hparse js (by simp)]
      simp only
      rw [ih (fun js' hjs' => h js' (by simp [hjs'])) fun js' hjs' => hparse js' (by simp [hjs'])]

end

/-- A login and a chat message in one read. -/
theorem requests_arrive_login : (letI : Strtod := noDoubles
    frameJobs ⟨0, 0⟩ "" [writtenBytes [(.sendJsonFrame, Client.loginRequest 1 "pw"),
        (.sendJsonFrame, namedRequest)]] =
      [.frame ⟨0, 0⟩ (Client.loginRequest 1 "pw") "", .frame ⟨0, 0⟩ namedRequest ""]) := by
  let _ := noDoubles
  have hwrites : ∀ js ∈ [Client.loginRequest 1 "pw", namedRequest], Client.Writes js := by
    simp only [List.mem_cons, List.not_mem_nil, or_false, forall_eq_or_imp, forall_eq]
    exact ⟨.login 1 "pw", .chat 1 "ann" 2 "hi" "now"⟩
  exact requests_arrive hwrites (by simp) _ _

end ChatCluster
