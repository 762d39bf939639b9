import ChatCluster.MessageContract
import ChatCluster.Client

/-!
# Durable messages

Every handler keeps the contract of the messages, in any interleaving and in an
environment in which anything may fail, get lost or stop midway. So a chat frame is
never ahead of its row, and the row stays what it was until its receiver
acknowledges it.
-/
namespace ChatCluster
open CommandProgram Interleaving

/-! ## Handlers without chat frames -/

/-- Commands of which the contract asks nothing. -/
def Command.Unguarded : Command → Prop
  | .sendTo _ s => ¬ s.IsChat
  | .redisPublish _ _ => False
  | .sql (.ackMessage _ _) => False
  | .node .unlockConnMutex => False
  | _ => True

theorem Command.Unguarded.may {c : Command} (h : c.Unguarded) (j : Job) (v : ClusterView) :
    MessageMay j v c := by
  cases c with
  | sql q =>
      cases q with
      | ackMessage => exact h.elim
      | _ => trivial
  | node q =>
      cases q with
      | unlockConnMutex => exact h.elim
      | _ => trivial
  | redisPublish => exact h.elim
  | sendTo => exact fun hchat => absurd hchat h

theorem not_isChat {js : Json} {t : EnMsgType} (h : msgType? js = some t)
    (ht : t ≠ .oneChatMsg) (ht' : t ≠ .groupChatMsg) : ¬ (Sent.json js).IsChat := by
  rintro (hc | hc)
  · exact ht (Option.some.inj (h.symm.trans hc))
  · exact ht' (Option.some.inj (h.symm.trans hc))

theorem Command.Unrelated.unguarded {c : Command} (h : c.Unrelated) : c.Unguarded := by
  obtain ⟨q, rfl, -, hq, -⟩ := h
  cases q with
  | ackMessage => exact absurd trivial hq
  | _ => trivial

theorem Command.OfContacts.unguarded {c : Command} (h : c.OfContacts) : c.Unguarded := by
  cases h with
  | unrelated c hc => exact hc.unguarded
  | insertUser | check => trivial
  | answer conn response t ht hor =>
      rcases hor with rfl | rfl
      · exact not_isChat ht (by decide) (by decide)
      · exact not_isChat ht (by decide) (by decide)

theorem unguarded_login (conn : Conn) (js : Json) : (login conn js).All Command.Unguarded := by
  refine (ofLogin_login (P := fun response => msgType? response = some .loginMsgAck)
    (fun _ _ _ => msgType?_errorResponse ..) (fun _ _ _ _ _ => msgType?_loginResponse ..)).mono
    fun c hc => ?_
  cases hc with
  | unrelated c hc => exact hc.unguarded
  | answer response hr => exact not_isChat hr (by decide) (by decide)
  | _ => trivial

theorem Command.OfTeardown.unguarded {P : ℤ → Prop} {c : Command} (h : c.OfTeardown P) :
    c.Unguarded := by
  cases h <;> trivial

theorem unguarded_resetHandler : resetHandler.All Command.Unguarded :=
  ⟨trivial, fun _ => ⟨trivial, fun _ => trivial⟩⟩

/-! ## Stamped messages -/

theorem unguarded_generateMessageId : generateMessageId.All Command.Unguarded :=
  ⟨trivial, fun _ => ⟨trivial, fun _ => ⟨trivial, fun _ => trivial⟩⟩⟩

theorem getLongLong_stampOneChat {js : Json} (hjs : js.IsObject) {messageid : ℤ}
    (hrange : MessageIdRange messageid) :
    getLongLong (stampOneChat js messageid) "messageid" = some messageid := by
  refine getLongLong_int ?_ hrange.1 hrange.2
  rw [stampOneChat, Json.find?_set_ne _ (by decide), Json.find?_set_self hjs]

theorem getLongLong_stampGroupChat {js : Json} (hjs : js.IsObject) {messageid : ℤ} (id : ℤ)
    (hrange : MessageIdRange messageid) :
    getLongLong (stampGroupChat js messageid id) "messageid" = some messageid := by
  refine getLongLong_int ?_ hrange.1 hrange.2
  rw [stampGroupChat, Json.find?_set_ne _ (by decide), Json.find?_set_ne _ (by decide),
    Json.find?_set_self hjs]

/-! ## The outlines -/

section Outlines
variable [JsonParser] {E : Environment} {admits : ClusterView → ClusterEntry → Prop}
  {j : Job} {v v' : ClusterView} {conn : Conn}

theorem outline_unguarded {α : Type} {prog : Program α} {T : α → Prop}
    (hprog : prog.All Command.Unguarded) (ht : prog.Returns T) :
    Outline (cluster E admits) messageContract j prog (fun a _ => T a) v :=
  .of_all (Stable.const True) (fun w _ hc _ _ => hc.may j w) (fun _ _ _ _ _ _ _ _ => trivial) hprog
    ht (fun _ _ ha _ => ha) trivial

theorem outline_quiet {prog : Program Unit} (hprog : prog.All Command.Unguarded) :
    Outline (cluster E admits) messageContract j prog (fun _ _ => True) v :=
  outline_unguarded hprog (Prog.returns_true _)

theorem stored_of_insert {messageid senderid receiverid groupid msgtype : ℤ} {js : Json}
    (hid : getLongLong js "messageid" = some messageid)
    (hm : Moves (cluster E admits) v (.did j (.sql (.insertMessage messageid senderid receiverid
      groupid msgtype js.dump)) true) v') : Stored v'.state.db receiverid js := by
  obtain ⟨-, o, -, ho⟩ := hm.effect
  exact ⟨_, newMessage_exec ho, hid, rfl, rfl⟩

theorem locked_of_moves {r : Unit}
    (hm : Moves (cluster E admits) v (.did j (.node .lockConnMutex) r) v') :
    v'.state.Locked j.agent := by
  obtain ⟨-, o, -, ho⟩ := hm.effect
  obtain ⟨s', hs, hw⟩ := exec_node ho
  simp only [NodeOp.exec] at hs
  split_ifs at hs
  cases hs
  rw [hw, World.Locked, World.node_setNode_self]

theorem node_of_sendTo {s : Sent} {r : Unit}
    (hm : Moves (cluster E admits) v (.did j (.sendTo conn s) r) v') :
    v'.state.node = v.state.node := by
  obtain ⟨-, o, -, ho⟩ := hm.effect
  rw [exec_sendTo ho]
  rfl

theorem node_of_sql {q : Statement} {r : q.Answer}
    (hm : Moves (cluster E admits) v (.did j (.sql q) r) v') :
    v'.state.node = v.state.node := by
  obtain ⟨-, o, -, ho⟩ := hm.effect
  rw [(exec_sql ho).2]

theorem outline_unlock (hv : v.state.Locked j.agent) :
    Outline (cluster E admits) messageContract j (node .unlockConnMutex) (fun _ _ => True) v :=
  .act (stable_locked (fun _ => True) 0) ⟨hv, trivial⟩ fun _ hw _ =>
    ⟨hw.1, fun _ _ _ _ => trivial⟩

theorem outline_markUnlock (messageid userid : ℤ) (hv : v.state.Locked j.agent) :
    Outline (cluster E admits) messageContract j
      (do let _ ← MessageModel.markDelivered messageid userid
          node .unlockConnMutex) (fun _ _ => True) v :=
  .act (stable_locked (fun _ => True) 0) ⟨hv, trivial⟩ fun w hw _ =>
    ⟨trivial, fun _ w' hm _ => outline_unlock (by
      rw [World.Locked, node_of_sql hm]
      exact hw.1)⟩

theorem outline_markPositive (messageid userid : ℤ) (hv : v.state.Locked j.agent) :
    Outline (cluster E admits) messageContract j
      (do if 0 < messageid then
            let _ ← MessageModel.markDelivered messageid userid
          node .unlockConnMutex) (fun _ _ => True) v := by
  split_ifs
  · exact outline_markUnlock messageid userid hv
  · exact outline_unlock hv

/-- The relay of a stored message over Redis. -/
theorem outline_relay {receiverid : ℤ} {js : Json} (hv : Stored v.state.db receiverid js) :
    Outline (cluster E admits) messageContract j (do
        let user ← UserModel.query receiverid
        if user.state = .online then
          if ← redisIsConnected then
            let _ ← publish receiverid js.dump)
      (fun _ _ => True) v := by
  refine .act (stable_stored receiverid js) hv fun w hw _ => ⟨trivial, fun row w₁ hm _ => ?_⟩
  have hw₁ := stored_moves hm hw
  change Outline _ _ j (if (User.ofRow row).state = .online then _ else _) _ w₁
  split_ifs
  · refine .act (stable_stored receiverid js) hw₁ fun w₂ hw₂ _ =>
      ⟨trivial, fun connected w₃ hm₃ _ => ?_⟩
    cases connected with
    | false => exact .ret trivial
    | true =>
        exact .act (stable_stored receiverid js) (stored_moves hm₃ hw₂) fun w₄ hw₄ _ =>
          ⟨⟨js, rfl, hw₄⟩, fun _ _ _ _ => trivial⟩
  · exact .ret trivial

theorem outline_persistAndDeliver {messageid : ℤ} (senderid receiverid groupid : ℤ)
    (msgtype : EnMsgType) {js : Json} (hid : getLongLong js "messageid" = some messageid) :
    Outline (cluster E admits) messageContract j
      (persistAndDeliver messageid senderid receiverid groupid msgtype js) (fun _ _ => True) v := by
  refine .act (Stable.const True) trivial fun w _ _ => ⟨trivial, fun inserted w₁ hm _ => ?_⟩
  cases inserted with
  | false => exact .ret trivial
  | true =>
      refine .act (stable_stored receiverid js) (stored_of_insert hid hm) fun w₂ hw₂ _ =>
        ⟨trivial, fun _ w₃ hm₃ _ => ?_⟩
      refine .act ((stable_stored receiverid js).and (stable_locked (fun _ => True) receiverid))
        ⟨stored_moves hm₃ hw₂, locked_of_moves hm₃, trivial⟩ fun w₄ ⟨hstored, hlocked, _⟩ _ =>
        ⟨trivial, fun found w₅ hm₅ _ => ?_⟩
      obtain ⟨hstate, hfound⟩ := bound_of_mapFind hm₅
      rw [← hstate] at hstored hlocked hfound
      cases found with
      | some receiver =>
          refine .act ((stable_stored receiverid js).and
            (stable_locked (fun found => found = some receiver) receiverid))
            ⟨hstored, hlocked, hfound⟩ fun w₆ hw₆ _ => ⟨fun _ => ?_, fun _ w₇ hm₇ _ => ?_⟩
          · exact ⟨receiverid, js, rfl, hw₆.1, hw₆.2.2⟩
          · refine outline_markUnlock messageid receiverid ?_
            rw [World.Locked, node_of_sendTo hm₇]
            exact hw₆.2.1
      | none =>
          exact .act ((stable_stored receiverid js).and (stable_locked (fun _ => True) receiverid))
            ⟨hstored, hlocked, trivial⟩ fun w₆ hw₆ _ => ⟨hw₆.2.1, fun _ w₇ hm₇ _ =>
              outline_relay (stored_moves hm₇ hw₆.1)⟩

theorem outline_oneChat {js : Json} :
    Outline (cluster E admits) messageContract j (oneChat conn js) (fun _ _ => True) v := by
  unfold oneChat
  split
  · next fromid toid _ hid _ _ =>
    refine .act (Stable.const True) trivial fun w _ _ => ⟨trivial, fun bound w₁ _ _ => ?_⟩
    cases bound with
    | false => exact .ret trivial
    | true =>
        change Outline _ _ j (generateMessageId >>= _) _ w₁
        refine .bind ((outline_unguarded unguarded_generateMessageId
          returns_generateMessageId).mono fun messageid w₂ hrange => ?_)
        exact outline_persistAndDeliver fromid toid 0 .oneChatMsg
          (getLongLong_stampOneChat (isObject_of_getInt hid) hrange)
  · exact .ret trivial

theorem outline_groupChatMember {js : Json} (hjs : js.IsObject) (userid groupid id : ℤ) :
    Outline (cluster E admits) messageContract j (groupChatMember userid groupid js id)
      (fun _ _ => True) v := by
  refine .bind ((outline_unguarded unguarded_generateMessageId
    returns_generateMessageId).mono fun messageid w₂ hrange => ?_)
  exact outline_persistAndDeliver userid id groupid .groupChatMsg
    (getLongLong_stampGroupChat hjs id hrange)

theorem outline_groupChat {js : Json} :
    Outline (cluster E admits) messageContract j (groupChat conn js) (fun _ _ => True) v := by
  unfold groupChat
  split
  · next userid groupid _ hid _ _ =>
    refine .act (Stable.const True) trivial fun w _ _ => ⟨trivial, fun bound w₁ _ _ => ?_⟩
    cases bound with
    | false => exact .ret trivial
    | true =>
        refine .act (Stable.const True) trivial fun w₂ _ _ => ⟨trivial, fun members w₃ _ _ => ?_⟩
        exact .forM (P := fun _ => True) (fun id _ _ _ =>
          outline_groupChatMember (isObject_of_getInt hid) userid groupid id) trivial
  · exact .ret trivial

theorem outline_messageAck {js : Json} {time : String} (hmsg : msgType? js = some .msgAck) :
    Outline (cluster E admits) messageContract (.frame conn js time) (messageAck conn js)
      (fun _ _ => True) v := by
  unfold messageAck
  split
  · next userid hid =>
    refine .act (Stable.const True) trivial fun w _ _ => ⟨trivial, fun bound w₁ hm _ => ?_⟩
    cases bound with
    | false => exact .ret trivial
    | true =>
        have hbound : FoundBound userid conn (.frame conn js time) w₁.past :=
          ⟨[], w.past, hm.recorded, List.not_mem_nil⟩
        cases hmessage : getLongLong js "messageid" with
        | some messageid =>
            exact .act (stable_foundBound userid conn) hbound fun w₂ hw₂ _ =>
              ⟨⟨conn, ⟨rfl, hmsg, hid, hmessage⟩, hw₂⟩, fun _ _ _ _ => trivial⟩
        | none => exact .ret trivial
  · exact .ret trivial

/-- The observer passes on what it took out of the inbox. -/
theorem outline_handleRedisSubscribeMessage {userid : ℤ} {js : Json}
    (hv : Stored v.state.db userid js) :
    Outline (cluster E admits) messageContract j (handleRedisSubscribeMessage userid js.dump)
      (fun _ _ => True) v := by
  refine .act (stable_stored userid js) hv fun w hw _ => ⟨trivial, fun _ w₁ hm _ => ?_⟩
  refine .act ((stable_stored userid js).and (stable_locked (fun _ => True) userid))
    ⟨stored_moves hm hw, locked_of_moves hm, trivial⟩ fun w₂ ⟨hstored, hlocked, _⟩ _ =>
    ⟨trivial, fun found w₃ hm₃ _ => ?_⟩
  obtain ⟨hstate, hfound⟩ := bound_of_mapFind hm₃
  rw [← hstate] at hstored hlocked hfound
  cases found with
  | some receiver =>
      refine .act ((stable_stored userid js).and
        (stable_locked (fun found => found = some receiver) userid))
        ⟨hstored, hlocked, hfound⟩ fun w₄ hw₄ _ => ⟨fun _ => ?_, fun _ w₅ hm₅ _ => ?_⟩
      · exact ⟨userid, js, rfl, hw₄.1, hw₄.2.2⟩
      · have hlocked₅ : w₅.state.Locked j.agent := by
          rw [World.Locked, node_of_sendTo hm₅]
          exact hw₄.2.1
        exact outline_markPositive _ userid hlocked₅
  | none => exact outline_unlock hlocked

theorem outline_onMessage {js : Json} {time : String} :
    Outline (cluster E admits) messageContract (.frame conn js time) (onMessage conn js time)
      (fun _ _ => True) v := by
  apply onMessage_handlers (T := fun p =>
    Outline (cluster E admits) messageContract (.frame conn js time) p (fun _ _ => True) v)
  · exact fun _ => outline_quiet (unguarded_login conn js)
  · exact fun _ hp => outline_quiet (hp.mono fun _ => Command.OfTeardown.unguarded)
  · exact fun p hp => outline_quiet (hp.mono fun _ => Command.OfContacts.unguarded)
  · exact fun _ => outline_oneChat
  · exact fun _ => outline_groupChat
  · exact outline_messageAck

/-- Every job keeps the contract of the messages. -/
theorem message_verified :
    Verified (cluster E admits) messageContract (fun _ _ _ => True) where
  stable _ _ := Stable.const True
  kept _ _ _ hv hm hp := messageContract_kept hv hm hp
  abandoned _ _ _ _ _ _ := trivial
  outline j _ v v' hv _ hm _ := by
    cases j with
    | frame conn js time => exact outline_onMessage
    | close conn => exact outline_quiet (all_clientCloseException trivial fun _ =>
        Command.OfTeardown.unguarded)
    | redisMessage n channel message =>
        obtain ⟨-, rest, hinbox, -⟩ := hm.effect
        obtain ⟨js, rfl, hstored⟩ := hv n (channel, message) (hinbox ▸ List.mem_cons_self)
        exact outline_handleRedisSubscribeMessage (stored_moves hm hstored)
    | sigint => exact outline_quiet unguarded_resetHandler

end Outlines
/-! ## Durability -/

/-- A chat frame that is handed to a connection or published has its row: with its
message id, its receiver and exactly its text. -/
def EmitsStored (v : ClusterView) : ClusterEntry → Prop
  | .did j (.sendTo conn s) _ => s.IsChat → ∃ u js, s.Carries js ∧ Stored v.state.db u js ∧
      v.state.bound j.agent.node u = some conn
  | .did _ (.redisPublish channel message) _ =>
      ∃ js, message = js.dump ∧ Stored v.state.db channel js
  | _ => True

section Durability
variable [JsonParser]

/-- Anything may fail, be lost or stop midway, and nothing is ruled out. -/
abbrev hostileCluster : Machine World Job Agent Command Response :=
  cluster .hostile fun _ _ => True

abbrev ClusterConfig := Config World Job Agent Command Response

theorem hostile_step {E : Environment} {admits : ClusterView → ClusterEntry → Prop}
    {x y : ClusterConfig} {e : ClusterEntry} (h : Step (cluster E admits) x e y) :
    Step hostileCluster x e y := by
  refine h.weaken ?_ ?_ fun _ _ _ => trivial
  · rintro j c w r w' ⟨hrunning, o, -, ho⟩
    exact ⟨hrunning, o, fun _ => trivial, ho⟩
  · rintro w w' ⟨-, hd⟩
    exact ⟨hd, hd⟩

/-- Every run of the cluster is one in an environment in which anything may happen. -/
theorem hostile_steps {E : Environment} {admits : ClusterView → ClusterEntry → Prop}
    {x y : ClusterConfig} {es : List ClusterEntry} (h : Steps (cluster E admits) x es y) :
    Steps hostileCluster x es y := by
  induction h with
  | done => exact .done
  | step _ hs ih => exact .step ih (hostile_step hs)

/-- Row `r` is acknowledged by a frame that names its message id and its receiver, on a
connection that has been bound to the receiver since the frame was taken up. -/
def AckedByReceiver (w : World) (r : MessageRow) (x : ClusterConfig) (e : ClusterEntry) : Prop :=
  ∃ j conn ok, e = .did j (.sql (.ackMessage r.messageId r.receiverId)) ok ∧
    j.AcksFor r.receiverId r.messageId conn ∧
    ∃ before z after, Steps hostileCluster (Config.initial w) before z ∧
      z.view.state.bound conn.node r.receiverId = some conn ∧
      Steps hostileCluster z after x ∧ .started j ∉ after

/-- What holds of the stored messages at every point `x` of a run from `w`. -/
structure Durable (w : World) (x : ClusterConfig) : Prop where
  emitted : ∀ e y, Step hostileCluster x e y → EmitsStored x.view e
  kept : ∀ es y, Steps hostileCluster x es y → ∀ r ∈ x.view.state.db.chatMessage.rows,
    ∃ r' ∈ y.view.state.db.chatMessage.rows, r.Persists r'
  fresh : ∀ e y, Step hostileCluster x e y → ∀ r' ∈ y.view.state.db.chatMessage.rows,
    (∀ r ∈ x.view.state.db.chatMessage.rows, r'.messageId ≠ r.messageId) →
      r'.Unacked r'.receiverId
  selected : ∀ es y, Steps hostileCluster x es y →
    ∀ r ∈ x.view.state.db.chatMessage.rows, r.Unacked r.receiverId → (∀ e ∈ es, ¬ Acks r e) →
      ∃ r' ∈ y.view.state.db.chatMessage.rows, r.Persists r' ∧ r'.Unacked r.receiverId
  acked : ∀ e y, Step hostileCluster x e y → ∀ r ∈ x.view.state.db.chatMessage.rows,
    r.status < MessageStatus.acked → ∀ r' ∈ y.view.state.db.chatMessage.rows,
      r'.messageId = r.messageId → r'.status = MessageStatus.acked → AckedByReceiver w r x e

variable {w : World} {x y : ClusterConfig} {es : List ClusterEntry}

/-- The recorded check was made at a point of the run at which the binding was there. -/
theorem exists_bound (h : Steps hostileCluster (Config.initial w) es x) {u : ℤ} {conn : Conn}
    {j : Job} (hj : j.agent.node = conn.node) (hf : FoundBound u conn j x.view.past) :
    ∃ before z after, Steps hostileCluster (Config.initial w) before z ∧
      z.view.state.bound conn.node u = some conn ∧ Steps hostileCluster z after x ∧
      .started j ∉ after := by
  obtain ⟨later, earlier, hpast, hstart⟩ := hf
  obtain ⟨_, _, z, z', hbefore, -, hcheck, hafter, rfl⟩ := h.at_entry hpast
  have hbound : z.view.state.bound conn.node u = some conn := by
    obtain ⟨-, o, -, ho⟩ := hcheck.moves.effect
    obtain ⟨s', hs, -⟩ := exec_node ho
    rw [← hj]
    exact (NodeOp.exec_mapIsBound hs).2.mp rfl
  refine ⟨_, z, _, hbefore, hbound, (Steps.step .done hcheck).append hafter, fun hmem => ?_⟩
  obtain hmem | hmem := List.mem_append.mp hmem
  · cases List.mem_singleton.mp hmem
  · exact hstart (List.mem_reverse.mp hmem)

theorem persists_of_steps (h : Steps hostileCluster x es y) {r : MessageRow}
    (hr : r ∈ x.view.state.db.chatMessage.rows) :
    ∃ r' ∈ y.view.state.db.chatMessage.rows, r.Persists r' ∧
      (r.status < MessageStatus.acked → (∀ e ∈ es, ¬ Acks r e) →
        r'.status < MessageStatus.acked) := by
  induction h with
  | done => exact ⟨r, hr, .refl r, fun hst _ => hst⟩
  | step _ hs ih =>
      obtain ⟨r₁, hr₁, hp₁, hst₁⟩ := ih
      obtain ⟨r₂, hr₂, hp₂, hst₂⟩ := row_moves hs.moves hr₁
      refine ⟨r₂, hr₂, hp₁.trans hp₂, fun hst hnot => ?_⟩
      refine (hst₂ (hst₁ hst fun e he => hnot e (List.mem_append_left _ he))).resolve_right ?_
      intro hacks
      exact hnot _ (List.mem_append_right _ List.mem_cons_self) ((acks_congr hp₁ _).mp hacks)

theorem messageContract_fresh (db : Database) :
    ConfigOk hostileCluster messageContract (fun _ _ _ => True)
      (Config.initial (World.fresh db)) :=
  .initial (fun _ _ hm => nomatch hm) fun _ => trivial

theorem emitsStored_of_step {db : Database}
    (h : Steps hostileCluster (Config.initial (World.fresh db)) es x) {e : ClusterEntry}
    (hs : Step hostileCluster x e y) : EmitsStored x.view e := by
  have hpromised := (message_verified.sound h (messageContract_fresh db)).promised hs
  cases e with
  | did j c r =>
      cases c with
      | sendTo | redisPublish => exact hpromised
      | _ => trivial
  | _ => trivial

/-- The only way to an acknowledged row is a frame of its receiver. -/
theorem acked_by_receiver {db : Database}
    (h : Steps hostileCluster (Config.initial (World.fresh db)) es x) {e : ClusterEntry}
    (hs : Step hostileCluster x e y) {r r' : MessageRow}
    (hr : r ∈ x.view.state.db.chatMessage.rows) (hst : r.status < MessageStatus.acked)
    (hr' : r' ∈ y.view.state.db.chatMessage.rows) (hid : r'.messageId = r.messageId)
    (hst' : r'.status = MessageStatus.acked) : AckedByReceiver (World.fresh db) r x e := by
  obtain ⟨r₁, hr₁, hpersists, hnext⟩ := row_moves hs.moves hr
  obtain rfl := y.view.state.db.chatMessage.key_injOn hr₁ hr' (hpersists.messageId.trans hid.symm)
  have hacks := (hnext hst).resolve_left (by omega)
  have hpromised := (message_verified.sound h (messageContract_fresh db)).promised hs
  cases e with
  | did j c ok =>
      obtain rfl : c = .sql (.ackMessage r.messageId r.receiverId) := hacks
      obtain ⟨conn, hfor, hfound⟩ := hpromised
      refine ⟨j, conn, ok, rfl, hfor, exists_bound h ?_ hfound⟩
      cases j with
      | frame conn' => exact congrArg Conn.node hfor.1
      | _ => exact hfor.elim
  | _ => exact hacks.elim

/-- In every run, under any interleaving and with any failures, the messages are
durable. -/
theorem messages_are_durable {db : Database}
    (h : Steps hostileCluster (Config.initial (World.fresh db)) es x) :
    Durable (World.fresh db) x where
  emitted e y hs := emitsStored_of_step h hs
  kept es' y hrun r hr := by
    obtain ⟨r', hr', hpersists, -⟩ := persists_of_steps hrun hr
    exact ⟨r', hr', hpersists⟩
  fresh e y hs r' hr' hnew := by
    refine (row_of_moves hs.moves hr').resolve_right fun ⟨r, hr, hid⟩ => ?_
    exact hnew r hr hid
  selected es' y hrun r hr hunacked hnot := by
    obtain ⟨r', hr', hpersists, hst⟩ := persists_of_steps hrun hr
    exact ⟨r', hr', hpersists, hpersists.receiverId, hst hunacked.2 hnot⟩
  acked e y hs r hr hst r' hr' hid hst' := acked_by_receiver h hs hr hst hr' hid hst'

end Durability

/-- Two users log in on different nodes, and one writes to the other. -/
theorem messages_are_durable_chat : letI := Cluster.rejectAll
    ∃ es x, Steps hostileCluster
        (Config.initial (World.fresh (Statement.registered [("ann", "pw"), ("bob", "pw")]))) es x ∧
      x.view.state.db.chatMessage.rows.length = 1 ∧
      Durable (World.fresh (Statement.registered [("ann", "pw"), ("bob", "pw")])) x := by
  let _ := Cluster.rejectAll
  obtain ⟨w', hrun, hw'⟩ := Cluster.exists_run (E := .hostile)
    (w := World.fresh (Statement.registered [("ann", "pw"), ("bob", "pw")]))
    [({}, .frame ⟨0, 0⟩ (Client.loginRequest 1 "pw") ""),
      ({}, .frame ⟨1, 0⟩ (Client.loginRequest 2 "pw") ""),
      ({}, .frame ⟨0, 0⟩ (Client.chatRequest 1 "ann" 2 "hi" "now") "")]
    (p := fun w => w.db.chatMessage.rows.length = 1) (by decide)
  obtain ⟨es, x, hsteps, rfl, -⟩ := hrun.interleaved
  exact ⟨es, x, hsteps, of_decide_eq_true hw', messages_are_durable hsteps⟩

end ChatCluster
