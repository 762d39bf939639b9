import ChatCluster.Confidentiality
import ChatCluster.Framing

/-!
# One message on three routes

A stored message reaches its receiver in a local frame, in a frame that has come over
Redis, or as an element of a login answer. The three routes write it at different depths
of nesting and pass it through different C strings, and the client gets the same value
from each.
-/
namespace ChatCluster
open CommandProgram Interleaving LineFraming

/-! ## Where a chat frame comes from -/

/-- The message that a job has stored last, by its id and its receiver. -/
def storedNext (m : Option (ℤ × ℤ)) : (c : Command) → Response c → Option (ℤ × ℤ)
  | .sql (.insertMessage messageid _ receiverid _ _ _), stored =>
      match (stored : Bool) with
      | true => some (messageid, receiverid)
      | false => none
  | _, _ => m

/-- A chat frame is the frame of the message stored last, or the text that has come over
Redis, and only the frame of that message is published. -/
def PassesOn (j : Job) (m : Option (ℤ × ℤ)) : Command → Prop
  | .sendTo _ s => s.IsChat →
      (∃ conn js time messageid receiverid, j = .frame conn js time ∧
        m = some (messageid, receiverid) ∧ s = .json (chatFrame js messageid receiverid)) ∨
      ∃ n channel message, j = .redisMessage n channel message ∧ s = .raw message
  | .redisPublish channel message => ∃ conn js time messageid, j = .frame conn js time ∧
      m = some (messageid, channel) ∧ message = (chatFrame js messageid channel).dump
  | _ => True

section Tracked
variable {j : Job} {conn : Conn} {js : Json} {time : String} {m : Option (ℤ × ℤ)}

theorem Command.Unguarded.passesOn {c : Command} (h : c.Unguarded) : PassesOn j m c := by
  cases c with
  | sendTo conn s => exact fun hchat => absurd hchat h
  | redisPublish => exact h.elim
  | _ => trivial

theorem tracked_passesOn {α : Type} {p : Program α} (hp : p.All fun c => ∀ m, PassesOn j m c) :
    p.Tracked storedNext (PassesOn j) (fun _ _ => True) m :=
  .of_all (I := fun _ => True) (fun m _ hc _ => hc m) (fun _ _ _ _ _ => trivial) hp trivial

theorem tracked_unguarded {α : Type} {p : Program α} (hp : p.All Command.Unguarded) :
    p.Tracked storedNext (PassesOn j) (fun _ _ => True) m :=
  tracked_passesOn (hp.mono fun _ hc _ => hc.passesOn)

theorem passesOn_persistAndDeliver {messageid : ℤ} (senderid receiverid groupid : ℤ)
    (msgtype : EnMsgType) {frame : Json} (hframe : frame = chatFrame js messageid receiverid) :
    (persistAndDeliver messageid senderid receiverid groupid msgtype frame).Tracked storedNext
      (PassesOn (.frame conn js time)) (fun _ _ => True) m := by
  refine ⟨trivial, fun stored => ?_⟩
  cases stored with
  | false => trivial
  | true =>
      refine ⟨trivial, fun _ => ⟨trivial, fun found => ?_⟩⟩
      cases found with
      | some receiver =>
          refine ⟨fun _ => .inl ⟨conn, js, time, messageid, receiverid, rfl, rfl, ?_⟩, fun _ =>
            ⟨trivial, fun _ => ⟨trivial, fun _ => trivial⟩⟩⟩
          rw [hframe]
      | none =>
          refine ⟨trivial, fun _ => ⟨trivial, fun row => ?_⟩⟩
          change (if (User.ofRow row).state = .online then _ else _ : Program Unit).Tracked _ _ _ _
          split_ifs
          · refine ⟨trivial, fun connected => ?_⟩
            cases connected with
            | false => trivial
            | true =>
                refine ⟨⟨conn, js, time, messageid, rfl, rfl, ?_⟩, fun _ => trivial⟩
                rw [hframe]
          · trivial

theorem passesOn_oneChat (hmsg : msgType? js = some .oneChatMsg) :
    (oneChat conn js).Tracked storedNext (PassesOn (.frame conn js time)) (fun _ _ => True) m := by
  unfold oneChat
  split
  · refine ⟨trivial, fun bound => ?_⟩
    cases bound with
    | false => trivial
    | true =>
        refine (tracked_unguarded unguarded_generateMessageId).bind fun m' messageid _ => ?_
        refine passesOn_persistAndDeliver _ _ _ _ ?_
        rw [chatFrame, hmsg, if_neg (by decide)]
  · trivial

theorem passesOn_groupChat (hmsg : msgType? js = some .groupChatMsg) :
    (groupChat conn js).Tracked storedNext (PassesOn (.frame conn js time)) (fun _ _ => True) m := by
  unfold groupChat
  split
  · refine ⟨trivial, fun bound => ?_⟩
    cases bound with
    | false => trivial
    | true =>
        refine ⟨trivial, fun members => ?_⟩
        refine Prog.Tracked.forM (I := fun _ => True) (fun id _ t _ => ?_) trivial
        refine (tracked_unguarded unguarded_generateMessageId).bind fun m' messageid _ => ?_
        refine passesOn_persistAndDeliver _ _ _ _ ?_
        rw [chatFrame, hmsg, if_pos rfl]
  · trivial

theorem passesOn_body [JsonParser] (j : Job) :
    j.body.Tracked storedNext (PassesOn j) (fun _ _ => True) none := by
  cases j with
  | frame conn js time =>
      apply onMessage_handlers (T := fun p =>
        p.Tracked storedNext (PassesOn (.frame conn js time)) (fun _ _ => True) none)
      · exact fun _ => tracked_unguarded (unguarded_login conn js)
      · exact fun _ hp => tracked_unguarded (hp.mono fun _ => Command.OfTeardown.unguarded)
      · exact fun p hp => tracked_unguarded (hp.mono fun _ => Command.OfContacts.unguarded)
      · exact passesOn_oneChat
      · exact passesOn_groupChat
      · exact fun _ => tracked_passesOn (all_messageAck (fun _ _ => trivial) fun _ _ _ => trivial)
  | close conn =>
      exact tracked_unguarded (all_clientCloseException trivial fun _ =>
        Command.OfTeardown.unguarded)
  | redisMessage n channel message =>
      refine tracked_passesOn (all_handleRedisSubscribeMessage (fun _ => trivial)
        (fun _ => trivial) (fun conn m _ => .inr ?_) (fun _ _ => trivial) fun _ => trivial)
      exact ⟨n, channel, message, rfl, rfl⟩
  | sigint n => exact tracked_unguarded unguarded_resetHandler

end Tracked
/-! ## Stored requests -/

/-- The text is that of a chat request which has been stored for `receiverid`. -/
def StoredChat (past : List ClusterEntry) (js : Json) (messageid receiverid : ℤ)
    (payload : String) : Prop :=
  ∃ conn time senderid groupid msgtype, .did (.frame conn js time) (.sql (.insertMessage messageid
    senderid receiverid groupid msgtype payload)) true ∈ past

/-- The text is that of a chat request which has been stored for the user of a channel. -/
def FromStored (past : List ClusterEntry) (channel : ℤ) (text : String) : Prop :=
  ∃ js messageid, StoredChat past js messageid channel text

theorem StoredChat.cons {past : List ClusterEntry} {js : Json} {messageid receiverid : ℤ}
    {payload : String} (h : StoredChat past js messageid receiverid payload) (e : ClusterEntry) :
    StoredChat (e :: past) js messageid receiverid payload := by
  obtain ⟨conn, time, senderid, groupid, msgtype, hmem⟩ := h
  exact ⟨conn, time, senderid, groupid, msgtype, List.mem_cons_of_mem e hmem⟩

theorem FromStored.cons {past : List ClusterEntry} {channel : ℤ} {text : String}
    (h : FromStored past channel text) (e : ClusterEntry) :
    FromStored (e :: past) channel text := by
  obtain ⟨js, messageid, hstored⟩ := h
  exact ⟨js, messageid, hstored.cons e⟩

theorem stored_of_storedNext {m : Option (ℤ × ℤ)} {j : Job} {c : Command} {r : Response c}
    {messageid receiverid : ℤ} (hnot : m ≠ some (messageid, receiverid))
    (h : storedNext m c r = some (messageid, receiverid)) : ∃ senderid groupid msgtype payload,
    (Entry.did j c r : ClusterEntry) = .did j (.sql (.insertMessage messageid senderid receiverid
      groupid msgtype payload)) true := by
  cases c with
  | sql q =>
      cases q with
      | insertMessage messageid' senderid receiverid' groupid msgtype payload =>
          cases r with
          | true =>
              obtain ⟨rfl, rfl⟩ := Prod.mk.inj (Option.some.inj h)
              exact ⟨senderid, groupid, msgtype, payload, rfl⟩
          | false => cases h
      | _ => exact absurd h hnot
  | _ => exact absurd h hnot

/-- A refused insert leaves the table alone. -/
theorem chatMessage_refused {messageid senderid receiverid groupid msgtype : ℤ} {payload : String}
    {ok : Bool} {db : Database} (h : false = ((Statement.insertMessage messageid senderid receiverid
      groupid msgtype payload).exec ok db).1) :
    ((Statement.insertMessage messageid senderid receiverid groupid msgtype payload).exec ok db).2 =
      db := by
  cases ok with
  | false => rfl
  | true =>
      simp only [Statement.exec_true, Statement.run] at h ⊢
      split at h
      · cases h
      · rfl

section Origin
variable [JsonParser] {es : List ClusterEntry} {x y : ClusterConfig} {w : World}

/-- A successful insert of a job has stored the frame of its request. -/
theorem storedChat_of_recorded (h : Steps hostileCluster (Config.initial w) es x) {j : Job}
    {messageid senderid receiverid groupid msgtype : ℤ} {payload : String}
    (hmem : .did j (.sql (.insertMessage messageid senderid receiverid groupid msgtype payload))
      true ∈ x.view.past) : ∃ conn js time, j = .frame conn js time ∧
      StoredChat x.view.past js messageid receiverid payload := by
  have hstores : j.Stores messageid receiverid payload := (h.did_all storesAccepted_body).1 _ _ _ hmem
  cases j with
  | frame conn js time =>
      exact ⟨conn, js, time, rfl, conn, time, senderid, groupid, msgtype, hmem⟩
  | _ => exact hstores.elim

theorem StoredChat.stores {js : Json} {messageid receiverid : ℤ} {payload : String}
    (hstored : StoredChat x.view.past js messageid receiverid payload)
    (h : Steps hostileCluster (Config.initial w) es x) :
    AcceptedChat js ∧ MessageIdRange messageid ∧
      payload = (chatFrame js messageid receiverid).dump := by
  obtain ⟨conn, time, senderid, groupid, msgtype, hmem⟩ := hstored
  exact stores_of_recorded h hmem

/-- The message that a running job has stored last. -/
theorem storedChat_of_memory (h : Steps hostileCluster (Config.initial w) es x) {conn : Conn}
    {js : Json} {time : String}
    (hj : (x.slot (.io conn)).last = some (.frame conn js time)) {messageid receiverid : ℤ}
    (hm : memory Job.agent none storedNext (.io conn) x.view.past = some (messageid, receiverid)) :
    StoredChat x.view.past js messageid receiverid (chatFrame js messageid receiverid).dump := by
  obtain ⟨since, c, r, older, hpast, -, hnot, hnext⟩ := h.current_gained
    (D := fun m : Option (ℤ × ℤ) => m = some (messageid, receiverid)) hj (by simp) hm
  obtain ⟨senderid, groupid, msgtype, payload, he⟩ := stored_of_storedNext hnot hnext
  have hmem : .did (.frame conn js time) (.sql (.insertMessage messageid senderid receiverid
      groupid msgtype payload)) true ∈ x.view.past := by
    rw [hpast, he]
    simp
  obtain ⟨-, -, rfl⟩ := stores_of_recorded h hmem
  exact ⟨conn, time, senderid, groupid, msgtype, hmem⟩

theorem passesOn_of_step (h : Steps hostileCluster (Config.initial w) es x) {j : Job}
    {c : Command} {r : Response c} (hs : Step hostileCluster x (.did j c r) y) :
    PassesOn j (memory Job.agent none storedNext j.agent x.view.past) c :=
  h.tracked_did (P := PassesOn) (Q := fun _ => True) passesOn_body trivial hs

/-- What is published is the text of a stored request. -/
theorem fromStored_of_publish (h : Steps hostileCluster (Config.initial w) es x) {j : Job}
    {channel : ℤ} {message : String} {r : Bool}
    (hs : Step hostileCluster x (.did j (.redisPublish channel message) r) y) :
    FromStored x.view.past channel message ∧ cStr message = message := by
  obtain ⟨conn, js, time, messageid, rfl, hm, rfl⟩ := passesOn_of_step h hs
  exact ⟨⟨js, messageid, storedChat_of_memory h (h.job_of_step hs rfl (by simp)) hm⟩, cStr_dump _⟩

/-- The inboxes, and the jobs that have been started from them, hold texts that have been
stored for the user of their channel. -/
theorem fromStored_of_inbox {db : Database}
    (h : Steps hostileCluster (Config.initial (World.fresh db)) es x) :
    (∀ n m, m ∈ (x.view.state.node n).inbox → FromStored x.view.past m.1 m.2) ∧
      ∀ n channel message, .started (.redisMessage n channel message) ∈ x.view.past →
        FromStored x.view.past channel message := by
  induction h with
  | done => exact ⟨fun _ _ hm => absurd hm List.not_mem_nil, fun _ _ _ hm => absurd hm List.not_mem_nil⟩
  | @step x y e es hrun hs ih =>
      obtain ⟨hinbox, hstarted⟩ := ih
      rw [hs.moves.recorded]
      constructor
      · intro n m hm
        cases e with
        | started j => exact (hinbox n m (inbox_starts hs.moves.effect hm)).cons _
        | aborted j =>
            rw [show y.view.state = x.view.state.release j.agent from hs.moves.effect,
              inbox_release] at hm
            exact (hinbox n m hm).cons _
        | disturbed => exact (hinbox n m (inbox_disturbance hs.moves.effect.2 hm)).cons _
        | did j c r =>
            obtain ⟨-, o, -, ho⟩ := hs.moves.effect
            obtain hm | ⟨-, message, rfl, hm⟩ := inbox_exec ho hm
            · exact (hinbox n m hm).cons _
            · obtain ⟨⟨js, messageid, hstored⟩, htext⟩ := fromStored_of_publish hrun hs
              rw [hm, htext]
              exact ⟨js, messageid, hstored.cons _⟩
      · intro n channel message hmem
        obtain rfl | hmem := List.mem_cons.mp hmem
        · obtain ⟨-, rest, hbox, -⟩ := hs.moves.effect
          exact (hinbox n (channel, message) (hbox ▸ List.mem_cons_self)).cons _
        · exact (hstarted n channel message hmem).cons _

/-- The message that a job passes on to a connection: a chat handler passes on what it has
made of its request and stored last, the observer what was stored for its channel. -/
def PassesMessage (past : List ClusterEntry) (js : Json) (messageid receiverid : ℤ) : Job → Prop
  | .frame conn js' _ =>
      js = js' ∧ memory Job.agent none storedNext (.io conn) past = some (messageid, receiverid)
  | .redisMessage _ channel _ => receiverid = channel
  | _ => False

/-- Every chat frame that is handed to a connection is that of the stored message which
the job passes on. -/
theorem message_of_sent {db : Database}
    (h : Steps hostileCluster (Config.initial (World.fresh db)) es x) {j : Job} {conn : Conn}
    {s : Sent} {r : Unit} (hs : Step hostileCluster x (.did j (.sendTo conn s) r) y)
    (hchat : s.IsChat) : ∃ js messageid receiverid,
      StoredChat x.view.past js messageid receiverid s.payload ∧
        PassesMessage x.view.past js messageid receiverid j ∧
        s.Carries (chatFrame js messageid receiverid) := by
  have hj := h.job_of_step hs rfl (by simp)
  obtain ⟨conn', js, time, messageid, receiverid, rfl, hm, rfl⟩ | ⟨n, channel, message, rfl, rfl⟩ :=
    passesOn_of_step h hs hchat
  · exact ⟨js, messageid, receiverid, storedChat_of_memory h hj hm, ⟨rfl, hm⟩, rfl⟩
  · obtain ⟨js, messageid, hstored⟩ :=
      (fromStored_of_inbox h).2 n channel message (h.started_of_last hj).2
    exact ⟨js, messageid, channel, hstored, rfl, (hstored.stores h).2.2⟩

theorem storedChat_of_sent {db : Database}
    (h : Steps hostileCluster (Config.initial (World.fresh db)) es x) {j : Job} {conn : Conn}
    {s : Sent} {r : Unit} (hs : Step hostileCluster x (.did j (.sendTo conn s) r) y)
    (hchat : s.IsChat) : ∃ js messageid receiverid,
      StoredChat x.view.past js messageid receiverid s.payload ∧
        s.Carries (chatFrame js messageid receiverid) := by
  obtain ⟨js, messageid, receiverid, hstored, -, hcarries⟩ := message_of_sent h hs hchat
  exact ⟨js, messageid, receiverid, hstored, hcarries⟩

/-- A row under a new message id has been inserted successfully. -/
theorem inserted_moves {v v' : ClusterView} {e : ClusterEntry} (hm : Moves hostileCluster v e v')
    {r : MessageRow} (hr : r ∈ v'.state.db.chatMessage.rows)
    (hnew : ∀ r' ∈ v.state.db.chatMessage.rows, r'.messageId ≠ r.messageId) :
    ∃ j, e = .did j (.sql (.insertMessage r.messageId r.senderId r.receiverId r.groupId r.msgType
      r.payload)) true := by
  cases e with
  | did j c ok =>
      obtain ⟨-, o, -, ho⟩ := hm.effect
      obtain ⟨rfl, -⟩ := inserted_exec ho hr hnew
      cases ok with
      | true => exact ⟨j, rfl⟩
      | false =>
          obtain ⟨hrefused, hw⟩ := exec_sql ho
          rw [hw] at hr
          dsimp only at hr
          rw [chatMessage_refused hrefused] at hr
          exact absurd rfl (hnew r hr)
  | _ =>
      rw [(tables_moves hm fun _ _ _ h => by cases h).1] at hr
      exact absurd rfl (hnew r hr)

/-- A row has been there from the start, or it is that of a stored request. -/
theorem storedChat_of_row (h : Steps hostileCluster (Config.initial w) es x) {r : MessageRow}
    (hr : r ∈ x.view.state.db.chatMessage.rows) :
    (∃ r₀ ∈ w.db.chatMessage.rows, r₀.Persists r) ∨
      ∃ js, StoredChat x.view.past js r.messageId r.receiverId r.payload := by
  induction h generalizing r with
  | done => exact .inl ⟨r, hr, .refl r⟩
  | @step x y e es hrun hs ih =>
      by_cases hnew : ∀ r' ∈ x.view.state.db.chatMessage.rows, r'.messageId ≠ r.messageId
      · obtain ⟨j, rfl⟩ := inserted_moves hs.moves hr hnew
        have hrecorded : .did j (.sql (.insertMessage r.messageId r.senderId r.receiverId r.groupId
            r.msgType r.payload)) true ∈ y.view.past := by
          rw [hs.moves.recorded]
          exact List.mem_cons_self
        obtain ⟨conn, js, time, -, hstored⟩ :=
          storedChat_of_recorded (Steps.step hrun hs) hrecorded
        exact .inr ⟨js, hstored⟩
      · simp only [not_forall, not_not] at hnew
        obtain ⟨r₁, hr₁, hid⟩ := hnew
        obtain ⟨r₂, hr₂, hpersists, -⟩ := row_moves hs.moves hr₁
        obtain rfl := y.view.state.db.chatMessage.key_injOn hr₂ hr (hpersists.messageId.trans hid)
        obtain ⟨r₀, hr₀, hp₀⟩ | ⟨js, hstored⟩ := ih hr₁
        · exact .inl ⟨r₀, hr₀, hp₀.trans hpersists⟩
        · rw [hpersists.messageId, hpersists.receiverId, hpersists.payload, hs.moves.recorded]
          exact .inr ⟨js, hstored.cons e⟩

/-- A stored request has its row, as long as the database lives. -/
theorem StoredChat.row {js : Json} {messageid receiverid : ℤ} {payload : String}
    (hstored : StoredChat x.view.past js messageid receiverid payload)
    (h : Steps hostileCluster (Config.initial w) es x) :
    ∃ r ∈ x.view.state.db.chatMessage.rows, r.messageId = messageid ∧
      r.receiverId = receiverid ∧ r.payload = payload := by
  obtain ⟨conn, time, senderid, groupid, msgtype, hmem⟩ := hstored
  obtain ⟨newer, older, hpast⟩ := List.append_of_mem hmem
  obtain ⟨_, _, z, z', -, -, hs, hafter, -⟩ := h.at_entry hpast
  obtain ⟨-, o, -, ho⟩ := hs.moves.effect
  obtain ⟨r', hr', hpersists, -⟩ := persists_of_steps hafter (newMessage_exec ho)
  exact ⟨r', hr', hpersists.messageId, hpersists.receiverId, hpersists.payload⟩

end Origin
/-! ## Reading a frame -/

theorem Sent.Carries.text {s : Sent} {js : Json} (h : s.Carries js) :
    utf8 s.text = utf8 js.dump ++ [newline] := by
  cases s with
  | json js' =>
      obtain rfl : js' = js := h
      exact Writer.sendJson.utf8_text js'
  | raw payload =>
      obtain rfl : payload = js.dump := h
      exact Writer.sendFrame.utf8_text js

theorem mapM_getStr? (texts : List String) :
    (texts.map Json.string).mapM Json.getStr? = some texts := by
  induction texts with
  | nil => rfl
  | cons text texts ih =>
      rw [List.map_cons, List.mapM_cons, ih]
      rfl

theorem intAt_loginResponse (user : User) (texts : List String) (userVec : List User)
    (groupuserVec : List Group) :
    Client.intAt (loginResponse user texts userVec groupuserVec) "msgid" =
        some EnMsgType.loginMsgAck.code ∧
      Client.intAt (loginResponse user texts userVec groupuserVec) "errno" = some 0 := by
  constructor
  · rw [Client.intAt, find?_loginResponse _ _ _ _ (by decide) (by decide) (by decide)]
    rfl
  · rw [Client.intAt, find?_loginResponse _ _ _ _ (by decide) (by decide) (by decide)]
    rfl

/-- The client gets from the answer what the server has put into it. -/
theorem offlineTexts_loginResponse (user : User) (texts : List String) (userVec : List User)
    (groupuserVec : List Group) :
    Client.offlineTexts (loginResponse user texts userVec groupuserVec) = some texts := by
  rw [Client.offlineTexts, (intAt_loginResponse user texts userVec groupuserVec).2,
    offlinemsg_loginResponse]
  cases texts with
  | nil => rfl
  | cons text texts =>
      rw [if_neg (List.cons_ne_nil text texts)]
      exact mapM_getStr? (text :: texts)

section Reading
variable [JsonParser] {js js' : Json} {messageid receiverid : ℤ}

/-- However it is split into reads, the client takes one frame out of the bytes, and the
frame parses to `js`. -/
def Sent.ReadAs (s : Sent) (js : Json) : Prop :=
  ∀ throws reads, reads.flatten = utf8 s.text →
    ∃ frame, (Client.receive throws reads).1 = [frame] ∧ parseFrame frame = some js

theorem Sent.Carries.readAs {s : Sent} (h : s.Carries js)
    (hparse : JsonParser.parse js.dump = some js') : s.ReadAs js' := by
  intro throws reads hreads
  have hline : items newline frameOfLine reads.flatten = [utf8 js.dump] := by
    have hwritten : utf8 s.text = writtenBytes [(.sendJson, js)] := by
      rw [h.text, writtenBytes_eq]
      simp
    rw [hreads, hwritten, items_writtenBytes]
    rfl
  refine ⟨utf8 js.dump, ?_, (parseFrame_utf8 _).trans hparse⟩
  rw [Client.receive_eq, scan, hline]
  simp only [through, ite_self]

theorem chatMessages_chatFrame (h : AcceptedChat js) :
    Client.chatMessages (chatFrame js messageid receiverid) =
      some [chatFrame js messageid receiverid] := by
  unfold Client.chatMessages
  obtain hmsg | hmsg := h.type
  · rw [intAt_chatFrame hmsg]
    simp
  · rw [intAt_chatFrame hmsg]
    simp

theorem chatMessages_loginResponse (user : User) (texts : List String) (userVec : List User)
    (groupuserVec : List Group) :
    Client.chatMessages (loginResponse user texts userVec groupuserVec) =
      texts.mapM JsonParser.parse := by
  rw [Client.chatMessages, (intAt_loginResponse user texts userVec groupuserVec).1,
    offlineTexts_loginResponse]
  rfl

end Reading
/-! ## The routes agree -/

/-- The request with the fields that the server sets, whatever it held there before. -/
structure Extends (js frame : Json) (messageid receiverid : ℤ) : Prop where
  messageid : frame.find? "messageid" = some (.int messageid)
  needAck : frame.find? "need_ack" = some (.boolean true)
  toid : msgType? js = some .groupChatMsg → frame.find? "toid" = some (.int receiverid)
  others : ∀ key, key ≠ "messageid" → key ≠ "need_ack" →
    (key = "toid" → msgType? js ≠ some .groupChatMsg) → frame.find? key = js.find? key

theorem extends_chatFrame {js : Json} (hjs : js.IsObject) (messageid receiverid : ℤ) :
    Extends js (chatFrame js messageid receiverid) messageid receiverid := by
  by_cases hgroup : msgType? js = some .groupChatMsg
  · rw [chatFrame, if_pos hgroup, stampGroupChat]
    have h₁ : (js.set "messageid" (.int messageid)).IsObject := Json.isObject_set hjs _ _
    have h₂ := Json.isObject_set h₁ "toid" (.int receiverid)
    constructor
    · rw [Json.find?_set_ne _ (by decide), Json.find?_set_ne _ (by decide), Json.find?_set_self hjs]
    · rw [Json.find?_set_self h₂]
    · intro _
      rw [Json.find?_set_ne _ (by decide), Json.find?_set_self h₁]
    · intro key hid hack htoid
      rw [Json.find?_set_ne _ hack, Json.find?_set_ne _ fun h => htoid h hgroup,
        Json.find?_set_ne _ hid]
  · rw [chatFrame, if_neg hgroup, stampOneChat]
    have h₁ : (js.set "messageid" (.int messageid)).IsObject := Json.isObject_set hjs _ _
    constructor
    · rw [Json.find?_set_ne _ (by decide), Json.find?_set_self hjs]
    · rw [Json.find?_set_self h₁]
    · intro h
      exact absurd h hgroup
    · intro key hid hack _
      rw [Json.find?_set_ne _ hack, Json.find?_set_ne _ hid]

theorem getLongLong_chatFrame {js : Json} {messageid receiverid : ℤ} (hjs : js.IsObject)
    (hid : MessageIdRange messageid) :
    getLongLong (chatFrame js messageid receiverid) "messageid" = some messageid :=
  getLongLong_int (find?_chatFrame_messageid hjs) hid.1 hid.2

section Agreement
variable [JsonParser]

/-- The texts of the stored requests parse to what they were dumped from. -/
def ParsesBack (past : List ClusterEntry) : Prop :=
  ∀ js messageid receiverid payload, StoredChat past js messageid receiverid payload →
    JsonParser.parse payload = some (chatFrame js messageid receiverid)

/-- The text was in the tables for user `u` before the run. -/
def BeforeRun (db : Database) (u : ℤ) (text : String) : Prop :=
  (∃ t, (u, t) ∈ db.offlinemessage ∧ text = cStr t) ∨
    ∃ r ∈ db.chatMessage.rows, r.receiverId = u ∧ text = cStr r.payload

/-- What is handed over at `x` of a run from `db`, and that it is `frame` where it is
message `messageid`. A chat frame is read as that of the stored message which its job passes
on. The answer to a login is read back with its texts, and each text that was not in the
tables before is read as the frame of a message stored for the user. -/
structure DeliveredAs (db : Database) (x : ClusterConfig) (messageid : ℤ) (frame : Json) :
    Prop where
  live : ∀ j conn s y, Step hostileCluster x (.did j (.sendTo conn s) ()) y → s.IsChat →
    ∃ js id receiverid, StoredChat x.view.past js id receiverid s.payload ∧
      PassesMessage x.view.past js id receiverid j ∧ s.ReadAs (chatFrame js id receiverid) ∧
      Client.chatMessages (chatFrame js id receiverid) = some [chatFrame js id receiverid] ∧
      (id = messageid → chatFrame js id receiverid = frame)
  synced : ∀ j conn response u y,
    Step hostileCluster x (.did j (.sendTo conn (.json response)) ()) y →
    confirmedUser? (.json response) = some u →
      (JsonParser.parse response.dump = some response → (Sent.json response).ReadAs response) ∧
      ∃ texts, Client.offlineTexts response = some texts ∧
        Client.chatMessages response = texts.mapM JsonParser.parse ∧
        ∀ text ∈ texts, BeforeRun db u text ∨ ∃ js id, StoredChat x.view.past js id u text ∧
          JsonParser.parse text = some (chatFrame js id u) ∧
          (id = messageid → chatFrame js id u = frame)

/-- What the client sends back for the message acknowledges its row. -/
def EchoesId (messageid : ℤ) (frame : Json) : Prop :=
  ∀ u, ∃ ack, Client.ackMessageIfNeeded u frame = [ack] ∧
    getLongLong ack "messageid" = some messageid ∧
    (JsonParser.parse ack.dump = some ack → ∀ conn time reads,
      reads.flatten = utf8 (Client.sendJsonFrame ack) →
        frameJobs conn time reads = [.frame conn ack time])

variable {db : Database} {es : List ClusterEntry} {x y : ClusterConfig}

/-- There is one frame under an id. -/
theorem eq_chatFrame (h : Steps hostileCluster (Config.initial (World.fresh db)) es x)
    (hparse : ParsesBack x.view.past) {js js' : Json} {messageid receiverid receiverid' : ℤ}
    {payload payload' : String} (hstored : StoredChat x.view.past js messageid receiverid payload)
    (hstored' : StoredChat x.view.past js' messageid receiverid' payload') :
    chatFrame js' messageid receiverid' = chatFrame js messageid receiverid := by
  -- both texts are those of the one row under this id
  obtain ⟨r, hr, hrid, -, rfl⟩ := hstored.row h
  obtain ⟨r', hr', hrid', -, rfl⟩ := hstored'.row h
  obtain rfl := x.view.state.db.chatMessage.key_injOn hr hr' (hrid.trans hrid'.symm)
  have hsame := hparse _ _ _ _ hstored'
  rw [hparse _ _ _ _ hstored] at hsame
  exact (Option.some.inj hsame).symm

theorem echoesId_chatFrame {js : Json} {messageid receiverid : ℤ} (hjs : js.IsObject)
    (hid : MessageIdRange messageid) : EchoesId messageid (chatFrame js messageid receiverid) := by
  intro u
  refine ⟨_, ackMessageIfNeeded_chatFrame u hjs, getLongLong_ackRequest u hid, ?_⟩
  intro hparse conn time reads hreads
  have hwritten : reads.flatten =
      writtenBytes [(.sendJsonFrame, Client.ackRequest u (.int messageid))] := by
    rw [hreads]
    simp [writtenBytes, Writer.text]
  rw [frameJobs_written hwritten]
  simp [hparse]

/-- In every run, a stored message is the same value for its receiver on each of its
routes: the request with the fields of the server, of which the id leads back to the
row. -/
theorem delivery_routes_agree (h : Steps hostileCluster (Config.initial (World.fresh db)) es x)
    (hparse : ParsesBack x.view.past) {js : Json} {messageid receiverid : ℤ} {payload : String}
    (hstored : StoredChat x.view.past js messageid receiverid payload) :
    DeliveredAs db x messageid (chatFrame js messageid receiverid) ∧
      Extends js (chatFrame js messageid receiverid) messageid receiverid ∧
      EchoesId messageid (chatFrame js messageid receiverid) ∧
      ∃ r ∈ x.view.state.db.chatMessage.rows, r.messageId = messageid ∧
        r.receiverId = receiverid ∧ r.payload = payload := by
  obtain ⟨hjs, hid, -⟩ := hstored.stores h
  refine ⟨⟨?_, ?_⟩, extends_chatFrame hjs.object _ _, echoesId_chatFrame hjs.object hid,
    hstored.row h⟩
  · intro j conn s y hs hchat
    obtain ⟨js', messageid', receiverid', hstored', hpasses, hcarries⟩ := message_of_sent h hs hchat
    have hback := hparse _ _ _ _ hstored'
    rw [hcarries.payload] at hback
    refine ⟨js', messageid', receiverid', hstored', hpasses, hcarries.readAs hback,
      chatMessages_chatFrame (hstored'.stores h).1, ?_⟩
    rintro rfl
    exact eq_chatFrame h hparse hstored hstored'
  · intro j conn response u y hs hconfirmed
    have hj := h.job_of_step hs rfl (by simp)
    obtain ⟨response', hsame, hreturned⟩ := (handsOut_of_step h hs).answer conn _ u rfl hconfirmed
    obtain rfl := Sent.json.inj hsame
    obtain ⟨user, texts, userVec, groupuserVec, hform⟩ := hreturned.form
    refine ⟨Sent.Carries.readAs (s := .json response) rfl, ?_⟩
    rw [hform]
    refine ⟨texts, offlineTexts_loginResponse .., chatMessages_loginResponse ..,
      fun text htext => ?_⟩
    obtain ⟨rows, legacy, hunacked, hlegacy, helement⟩ := hreturned.element
    have hfind : response.find? "offlinemsg" = some (Json.strings texts) := by
      rw [hform, offlinemsg_loginResponse, if_neg (List.ne_nil_of_mem htext)]
    obtain ⟨r, hr, rfl⟩ | ⟨t, ht, rfl⟩ := helement texts hfind text htext
    · obtain ⟨limit, hrecorded⟩ := unacked_recorded h hj hunacked
      obtain ⟨r₁, hr₁, hpersists, hreceiver⟩ := rows_of_selected h hrecorded hr
      obtain ⟨r₀, hr₀, hp₀⟩ | ⟨js', hstored'⟩ := storedChat_of_row h hr₁
      · refine .inl (.inr ⟨r₀, hr₀, hp₀.receiverId.symm.trans hreceiver, ?_⟩)
        rw [← hpersists.payload, hp₀.payload]
      · have htext' : cStr r.payload = r₁.payload := by
          rw [← hpersists.payload, (hstored'.stores h).2.2, cStr_dump]
        rw [htext', ← hreceiver]
        refine .inr ⟨js', r₁.messageId, hstored', hparse _ _ _ _ hstored', ?_⟩
        rintro rfl
        exact eq_chatFrame h hparse hstored hstored'
    · exact .inl (.inl ⟨t, legacy_of_selected h (legacy_recorded h hj hlegacy) ht, rfl⟩)

end Agreement
/-- Every insert is one that `p` accepts. -/
def allInserts (p : ℤ → ℤ → Bool) (past : List ClusterEntry) : Bool :=
  past.all fun
    | .did _ (.sql (.insertMessage messageid _ receiverid _ _ _)) _ => p messageid receiverid
    | _ => true

theorem of_allInserts {p : ℤ → ℤ → Bool} {past : List ClusterEntry} (h : allInserts p past = true)
    {js : Json} {messageid receiverid : ℤ} {payload : String}
    (hstored : StoredChat past js messageid receiverid payload) : p messageid receiverid = true := by
  obtain ⟨conn, time, senderid, groupid, msgtype, hmem⟩ := hstored
  exact List.all_eq_true.mp h _ hmem

/-- The last entry is a frame handed to a connection, and it passes a test. -/
def sends (p : Job → Sent → Bool) : List ClusterEntry → Bool
  | .did j (.sendTo _ s) _ :: _ => p j s
  | _ => false

/-- The frame is the answer that lets `u` in, and it lists these texts. -/
def Sent.syncs (u : ℤ) (texts : List String) : Sent → Bool
  | .json response =>
      confirmedUser? (.json response) = some u ∧ Client.offlineTexts response = some texts
  | .raw _ => false

/-- In a run that starts with `cues`, among which `namedRequest` is the only chat request,
and that stores it as message `2 ^ 20` for user `2`, a job is about to hand over a frame. -/
theorem exists_sending [JsonParser]
    (hparser : JsonParser.parse (chatFrame namedRequest (2 ^ 20) 2).dump =
      some (chatFrame namedRequest (2 ^ 20) 2))
    (cues : List (Cue Job Agent Choice)) (cue : Cue Job Agent Choice) {p : Job → Sent → Bool}
    (hcues : ∀ conn js time, .start (.frame conn js time) ∈ cues →
      js = namedRequest ∨ ¬ AcceptedChat js)
    (h : ((hostileReplayer.replay? (Config.initial chatWorld) cues).any fun x =>
      (hostileReplayer.move? x cue).any fun y =>
        anyStored (fun _ _ => true) x.view.past &&
        allInserts (fun messageid id => messageid = 2 ^ 20 ∧ id = 2) x.view.past &&
        sends p y.view.past) = true) :
    ∃ es x j conn s y payload, Steps hostileCluster (Config.initial chatWorld) es x ∧
      Step hostileCluster x (.did j (.sendTo conn s) ()) y ∧ p j s = true ∧
      StoredChat x.view.past namedRequest (2 ^ 20) 2 payload ∧ ParsesBack x.view.past ∧
      ∀ js messageid receiverid payload', StoredChat x.view.past js messageid receiverid payload' →
        js = namedRequest ∧ messageid = 2 ^ 20 ∧ receiverid = 2 := by
  obtain ⟨es, x, e, y, hrun, hs, hjobs, hp⟩ := hostileReplayer.exists_step_started cues cue h
  simp only [Bool.and_eq_true] at hp
  obtain ⟨⟨hany, hall⟩, hsends⟩ := hp
  have hone : ∀ {js messageid receiverid payload},
      StoredChat x.view.past js messageid receiverid payload →
        js = namedRequest ∧ messageid = 2 ^ 20 ∧ receiverid = 2 := by
    intro js messageid receiverid payload hstored
    obtain ⟨hid, hreceiver⟩ := of_decide_eq_true (of_allInserts hall hstored)
    refine ⟨?_, hid, hreceiver⟩
    have haccepted := (hstored.stores hrun).1
    obtain ⟨conn, time, senderid, groupid, msgtype, hmem⟩ := hstored
    exact (hcues conn js time (hjobs _ (hrun.started_of_did hmem))).resolve_right
      fun hnot => hnot haccepted
  obtain ⟨j, messageid, senderid, receiverid, groupid, msgtype, payload, -, hmem⟩ :=
    exists_of_anyStored hany
  obtain ⟨conn, js, time, rfl, hstored⟩ := storedChat_of_recorded hrun hmem
  obtain ⟨rfl, rfl, rfl⟩ := hone hstored
  have hback : ParsesBack x.view.past := by
    intro js messageid receiverid payload' hstored'
    obtain ⟨rfl, rfl, rfl⟩ := hone hstored'
    rw [(hstored'.stores hrun).2.2, hparser]
  rw [hs.moves.recorded] at hsends
  cases e with
  | did j c r =>
      cases c with
      | sendTo conn s =>
          exact ⟨es, x, j, conn, s, y, payload, hrun, hs, hsends, hstored, hback, @hone⟩
      | sql | node | redisPublish => cases hsends
  | started | aborted | disturbed => cases hsends

/-- User `2` logs in on a connection. -/
def bobCues (conn : Conn) (steps : ℕ) : List (Cue Job Agent Choice) :=
  .start (.frame conn (Client.loginRequest 2 "pw") "") ::
    List.replicate steps (.act (.io conn) {})

/-- User `1` logs in, and its request makes `steps` moves. -/
def annCues (steps : ℕ) : List (Cue Job Agent Choice) :=
  .start (.frame ⟨0, 0⟩ (Client.loginRequest 1 "pw") "") ::
    List.replicate 10 (.act (.io ⟨0, 0⟩) {}) ++
  .start (.frame ⟨0, 0⟩ namedRequest "") ::
    List.replicate steps (.act (.io ⟨0, 0⟩) { clockMs := 1 })

/-- The observer of node 1 takes the message out of its inbox and finds the receiver. -/
def relayCues : List (Cue Job Agent Choice) :=
  [.start (.redisMessage 1 2 (chatFrame namedRequest (2 ^ 20) 2).dump),
    .act (.observer 1) {}, .act (.observer 1) {}]

theorem only_namedRequest {conn conn' : Conn} {js : Json} {time : String} {n m : ℕ}
    (h : .start (.frame conn js time) ∈ bobCues conn' n ++ annCues m ++ relayCues) :
    js = namedRequest ∨ ¬ AcceptedChat js := by
  simp only [bobCues, annCues, relayCues, List.cons_append, List.mem_cons, List.mem_append,
    List.mem_replicate, Cue.start.injEq, reduceCtorEq, and_false, false_or, or_false,
    Job.frame.injEq, List.not_mem_nil] at h
  have hlogin : ∀ u, ¬ AcceptedChat (Client.loginRequest u "pw") := by
    intro u haccepted
    obtain htype | htype := haccepted.type
    · cases htype
    · cases htype
  obtain ⟨-, rfl, -⟩ | ⟨-, rfl, -⟩ | ⟨-, rfl, -⟩ := h
  · exact .inr (hlogin 2)
  · exact .inr (hlogin 1)
  · exact .inl rfl

/-- The message of user `1` on its way to user `2`: from the handler to a connection of the
same node, from the observer of another node, and in the answer to the login of a receiver
who was offline. -/
theorem delivery_routes_agree_chat : letI := chatParser namedRequest
    (∃ es x time conn s y, Steps hostileCluster (Config.initial chatWorld) es x ∧
      Step hostileCluster x
        (.did (.frame ⟨0, 0⟩ namedRequest time) (.sendTo conn s) ()) y ∧ s.IsChat ∧
      s.ReadAs (chatFrame namedRequest (2 ^ 20) 2)) ∧
    (∃ es x n message conn s y, Steps hostileCluster (Config.initial chatWorld) es x ∧
      Step hostileCluster x (.did (.redisMessage n 2 message) (.sendTo conn s) ()) y ∧
      s.IsChat ∧ s.ReadAs (chatFrame namedRequest (2 ^ 20) 2)) ∧
    ∃ es x j conn response y, Steps hostileCluster (Config.initial chatWorld) es x ∧
      Step hostileCluster x (.did j (.sendTo conn (.json response)) ()) y ∧
      confirmedUser? (.json response) = some 2 ∧
      Client.chatMessages response = some [chatFrame namedRequest (2 ^ 20) 2] := by
  let _ := chatParser namedRequest
  have hparser : JsonParser.parse (chatFrame namedRequest (2 ^ 20) 2).dump =
      some (chatFrame namedRequest (2 ^ 20) 2) := if_pos rfl
  refine ⟨?_, ?_, ?_⟩
  · obtain ⟨es, x, j, conn, s, y, payload, hrun, hs, hp, hstored, hback, hone⟩ :=
      exists_sending hparser (bobCues ⟨0, 1⟩ 10 ++ annCues 7) (.act (.io ⟨0, 0⟩) {})
        (p := fun j s => j.agent = .io ⟨0, 0⟩ ∧ s.IsChat)
        (fun _ _ _ h => only_namedRequest (List.mem_append_left _ h)) (by decide +kernel)
    obtain ⟨hagent, hchat⟩ := of_decide_eq_true hp
    obtain ⟨js, id, receiverid, hsent, hpasses, hread, -⟩ :=
      (delivery_routes_agree hrun hback hstored).1.live j conn s y hs hchat
    obtain ⟨rfl, rfl, rfl⟩ := hone _ _ _ _ hsent
    cases j with
    | frame conn' js time =>
        obtain ⟨rfl, -⟩ := hpasses
        obtain rfl := Agent.io.inj hagent
        exact ⟨es, x, time, conn, s, y, hrun, hs, hchat, hread⟩
    | redisMessage => cases hagent
    | close | sigint => exact hpasses.elim
  · obtain ⟨es, x, j, conn, s, y, payload, hrun, hs, hp, hstored, hback, hone⟩ :=
      exists_sending hparser (bobCues ⟨1, 0⟩ 10 ++ annCues 11 ++ relayCues)
        (.act (.observer 1) {}) (p := fun j s => j.agent = .observer 1 ∧ s.IsChat)
        (fun _ _ _ h => only_namedRequest h) (by decide +kernel)
    obtain ⟨hagent, hchat⟩ := of_decide_eq_true hp
    obtain ⟨js, id, receiverid, hsent, hpasses, hread, -⟩ :=
      (delivery_routes_agree hrun hback hstored).1.live j conn s y hs hchat
    obtain ⟨rfl, rfl, rfl⟩ := hone _ _ _ _ hsent
    cases j with
    | frame => cases hagent
    | redisMessage n channel message =>
        obtain rfl : 2 = channel := hpasses
        exact ⟨es, x, n, message, conn, s, y, hrun, hs, hchat, hread⟩
    | close | sigint => exact hpasses.elim
  · obtain ⟨es, x, j, conn, s, y, payload, hrun, hs, hp, hstored, hback, -⟩ :=
      exists_sending hparser (annCues 9 ++ bobCues ⟨0, 1⟩ 10) (.act (.io ⟨0, 1⟩) {})
        (p := fun _ s => s.syncs 2 [(chatFrame namedRequest (2 ^ 20) 2).dump])
        (fun _ _ _ h => only_namedRequest
          (List.mem_append_left _ (List.mem_append.mpr (List.mem_append.mp h).symm)))
        (by decide +kernel)
    cases s with
    | raw => cases hp
    | json response =>
        obtain ⟨hconfirmed, htexts⟩ := of_decide_eq_true hp
        obtain ⟨-, texts, htexts', hmessages, -⟩ :=
          (delivery_routes_agree hrun hback hstored).1.synced j conn response 2 y hs hconfirmed
        obtain rfl := Option.some.inj (htexts.symm.trans htexts')
        refine ⟨es, x, j, conn, response, y, hrun, hs, hconfirmed, hmessages.trans ?_⟩
        rw [List.mapM_cons, hparser]
        rfl

end ChatCluster
