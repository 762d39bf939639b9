import ChatCluster.HandlerRuns

/-!
# The contract of the message handlers

What holds between the stored messages and the frames under way. A row of
`chat_message` is written once and stays; only its status moves. A chat frame leaves
the server, or is published, after its row has been stored, and a row is
acknowledged on behalf of its receiver only. The promises hold in every environment.
-/
namespace ChatCluster
open CommandProgram Interleaving

/-! ## Rows persist -/

/-- The columns that no statement updates. -/
structure MessageRow.Persists (r r' : MessageRow) : Prop where
  messageId : r'.messageId = r.messageId
  senderId : r'.senderId = r.senderId
  receiverId : r'.receiverId = r.receiverId
  groupId : r'.groupId = r.groupId
  msgType : r'.msgType = r.msgType
  payload : r'.payload = r.payload

namespace MessageRow

theorem Persists.refl (r : MessageRow) : r.Persists r := ⟨rfl, rfl, rfl, rfl, rfl, rfl⟩

theorem Persists.trans {r₁ r₂ r₃ : MessageRow} (h : r₁.Persists r₂) (h' : r₂.Persists r₃) :
    r₁.Persists r₃ where
  messageId := h'.messageId.trans h.messageId
  senderId := h'.senderId.trans h.senderId
  receiverId := h'.receiverId.trans h.receiverId
  groupId := h'.groupId.trans h.groupId
  msgType := h'.msgType.trans h.msgType
  payload := h'.payload.trans h.payload

theorem persists_markDelivered (now : ℕ) (r : MessageRow) : r.Persists (r.markDelivered now) :=
  ⟨rfl, rfl, rfl, rfl, rfl, rfl⟩

theorem persists_ack (now : ℕ) (r : MessageRow) : r.Persists (r.ack now) :=
  ⟨rfl, rfl, rfl, rfl, rfl, rfl⟩

end MessageRow

/-- The command acknowledges row `r`. -/
def Command.Acks (r : MessageRow) (c : Command) : Prop :=
  c = .sql (.ackMessage r.messageId r.receiverId)

section Rows
variable {a : Agent} {o : Choice} {w w' : World} {c : Command} {x : Response c}

/-- A row survives every command, and it stays unacknowledged unless the command
acknowledges it. -/
theorem row_exec (h : exec o a c w = some (x, w')) {r : MessageRow}
    (hr : r ∈ w.db.chatMessage.rows) : ∃ r' ∈ w'.db.chatMessage.rows, r.Persists r' ∧
      (r.status < MessageStatus.acked → r'.status < MessageStatus.acked ∨ c.Acks r) := by
  by_cases hc : c.WritesMessages
  · cases c with
    | sql q =>
        obtain ⟨-, rfl⟩ := exec_sql h
        cases hok : o.ok with
        | false => exact ⟨r, hr, .refl r, .inl⟩
        | true =>
            cases q with
            | insertMessage messageid senderid receiverid groupid msgtype payload =>
                simp only [Statement.exec_true, Statement.run]
                split
                · next db' hdb =>
                  exact ⟨r, (Database.mem_insertMessage hdb).mpr (.inr hr), .refl r, .inl⟩
                · exact ⟨r, hr, .refl r, .inl⟩
            | markDelivered messageid receiverid =>
                refine ⟨_, Database.mem_markDelivered.mpr ⟨r, hr, rfl⟩, ?_, fun hst => .inl ?_⟩
                · split_ifs
                  · exact r.persists_markDelivered _
                  · exact .refl r
                · split_ifs
                  · simp only [MessageRow.markDelivered, MessageStatus.delivered,
                      MessageStatus.acked] at hst ⊢
                    split_ifs <;> omega
                  · exact hst
            | ackMessage messageid receiverid =>
                refine ⟨_, Database.mem_ackMessage.mpr ⟨r, hr, rfl⟩, ?_, fun hst => ?_⟩
                · split_ifs
                  · exact r.persists_ack _
                  · exact .refl r
                · split_ifs with hmatch
                  · obtain ⟨rfl, rfl⟩ := hmatch
                    exact .inr rfl
                  · exact .inl hst
            | _ => exact hc.elim
    | _ => exact hc.elim
  · refine ⟨r, ?_, .refl r, .inl⟩
    rwa [chatMessage_exec hc h]

/-- A row that a command brings into the table is not acknowledged. -/
theorem row_of_exec (h : exec o a c w = some (x, w')) {r' : MessageRow}
    (hr' : r' ∈ w'.db.chatMessage.rows) : r'.Unacked r'.receiverId ∨
      ∃ r ∈ w.db.chatMessage.rows, r'.messageId = r.messageId := by
  by_cases hc : c.WritesMessages
  · cases c with
    | sql q =>
        obtain ⟨-, rfl⟩ := exec_sql h
        cases hok : o.ok with
        | false =>
            rw [hok] at hr'
            exact .inr ⟨r', hr', rfl⟩
        | true =>
            rw [hok] at hr'
            cases q with
            | insertMessage messageid senderid receiverid groupid msgtype payload =>
                simp only [Statement.exec_true, Statement.run] at hr'
                split at hr'
                · next db' hdb =>
                  obtain rfl | hr := (Database.mem_insertMessage hdb).mp hr'
                  · exact .inl ⟨rfl, (by decide : MessageStatus.created < MessageStatus.acked)⟩
                  · exact .inr ⟨r', hr, rfl⟩
                · exact .inr ⟨r', hr', rfl⟩
            | markDelivered messageid receiverid =>
                obtain ⟨r, hr, rfl⟩ := Database.mem_markDelivered.mp hr'
                refine .inr ⟨r, hr, ?_⟩
                split_ifs <;> rfl
            | ackMessage messageid receiverid =>
                obtain ⟨r, hr, rfl⟩ := Database.mem_ackMessage.mp hr'
                refine .inr ⟨r, hr, ?_⟩
                split_ifs <;> rfl
            | _ => exact hc.elim
    | _ => exact hc.elim
  · rw [chatMessage_exec hc h] at hr'
    exact .inr ⟨r', hr', rfl⟩

/-- A successful insert puts its row into the table. -/
theorem newMessage_exec {messageid senderid receiverid groupid msgtype : ℤ} {payload : String}
    (h : exec o a (.sql (.insertMessage messageid senderid receiverid groupid msgtype payload)) w =
      some (true, w')) : Statement.newMessage messageid senderid receiverid groupid msgtype
        payload ∈ w'.db.chatMessage.rows := by
  obtain ⟨hr, hw⟩ := exec_sql h
  rw [hw]
  cases hok : o.ok with
  | false =>
      rw [hok] at hr
      cases hr
  | true =>
      rw [hok] at hr
      simp only [Statement.exec_true, Statement.run] at hr ⊢
      split at hr
      · next db' hinsert => exact (Database.mem_insertMessage hinsert).mpr (.inl rfl)
      · cases hr

/-- A row under a new message id is the one that the command inserts. -/
theorem inserted_exec (h : exec o a c w = some (x, w')) {r : MessageRow}
    (hr : r ∈ w'.db.chatMessage.rows)
    (hnew : ∀ r' ∈ w.db.chatMessage.rows, r'.messageId ≠ r.messageId) :
    c = .sql (.insertMessage r.messageId r.senderId r.receiverId r.groupId r.msgType r.payload) ∧
      r.status = MessageStatus.created := by
  by_cases hc : c.WritesMessages
  · cases c with
    | sql q =>
        obtain ⟨-, rfl⟩ := exec_sql h
        cases hok : o.ok with
        | false =>
            rw [hok] at hr
            exact absurd rfl (hnew r hr)
        | true =>
            rw [hok] at hr
            cases q with
            | insertMessage messageid senderid receiverid groupid msgtype payload =>
                simp only [Statement.exec_true, Statement.run] at hr
                split at hr
                · next db' hdb =>
                  obtain rfl | hr := (Database.mem_insertMessage hdb).mp hr
                  · exact ⟨rfl, rfl⟩
                  · exact absurd rfl (hnew r hr)
                · exact absurd rfl (hnew r hr)
            | markDelivered messageid receiverid =>
                obtain ⟨r', hr', rfl⟩ := Database.mem_markDelivered.mp hr
                refine absurd ?_ (hnew r' hr')
                split_ifs <;> rfl
            | ackMessage messageid receiverid =>
                obtain ⟨r', hr', rfl⟩ := Database.mem_ackMessage.mp hr
                refine absurd ?_ (hnew r' hr')
                split_ifs <;> rfl
            | _ => exact hc.elim
    | _ => exact hc.elim
  · rw [chatMessage_exec hc h] at hr
    exact absurd rfl (hnew r hr)

/-- A row that becomes acknowledged is the one that the command acknowledges. -/
theorem acked_exec (h : exec o a c w = some (x, w')) {r : MessageRow}
    (hr : r ∈ w'.db.chatMessage.rows) (hst : r.status = MessageStatus.acked)
    (hold : ∀ r' ∈ w.db.chatMessage.rows, r'.messageId = r.messageId →
      r'.status ≠ MessageStatus.acked) : c.Acks r := by
  by_cases hc : c.WritesMessages
  · cases c with
    | sql q =>
        obtain ⟨-, rfl⟩ := exec_sql h
        cases hok : o.ok with
        | false =>
            rw [hok] at hr
            exact absurd hst (hold r hr rfl)
        | true =>
            rw [hok] at hr
            cases q with
            | insertMessage messageid senderid receiverid groupid msgtype payload =>
                simp only [Statement.exec_true, Statement.run] at hr
                split at hr
                · next db' hdb =>
                  obtain rfl | hr := (Database.mem_insertMessage hdb).mp hr
                  · cases hst
                  · exact absurd hst (hold r hr rfl)
                · exact absurd hst (hold r hr rfl)
            | markDelivered messageid receiverid =>
                obtain ⟨r', hr', rfl⟩ := Database.mem_markDelivered.mp hr
                split_ifs at hst hold with hmatch
                · have hlt := hmatch.2.2
                  simp only [MessageRow.markDelivered, MessageStatus.delivered,
                    MessageStatus.acked] at hst hlt
                  split_ifs at hst <;> omega
                · exact absurd hst (hold r' hr' rfl)
            | ackMessage messageid receiverid =>
                obtain ⟨r', hr', rfl⟩ := Database.mem_ackMessage.mp hr
                split_ifs at hst hold with hmatch
                · rw [if_pos hmatch, Command.Acks, ← hmatch.1, ← hmatch.2]
                  rfl
                · exact absurd hst (hold r' hr' rfl)
            | _ => exact hc.elim
    | _ => exact hc.elim
  · rw [chatMessage_exec hc h] at hr
    exact absurd hst (hold r hr rfl)

end Rows

/-! ## The lock and the inboxes -/

/-- The agent holds `_connMutex` of its node. -/
def World.Locked (w : World) (a : Agent) : Prop := (w.node a.node).connMutex = some a

section Frames
variable {a b : Agent} {o : Choice} {w w' : World} {c : Command} {x : Response c}

theorem connMutex_exec {n : ℕ} (hn : n ≠ a.node) (h : exec o a c w = some (x, w')) :
    (w'.node n).connMutex = (w.node n).connMutex := by
  cases c with
  | sql q => rw [(exec_sql h).2]
  | node q =>
      obtain ⟨s', -, rfl⟩ := exec_node h
      rw [World.node_setNode_ne _ _ hn]
  | redisPublish channel message =>
      rw [exec_redisPublish h]
      split_ifs
      · exact World.connMutex_publish ..
      · rfl
  | sendTo conn s => rw [exec_sendTo h]; rfl

/-- While an agent holds the lock, nothing but giving it back touches the lock or the map. -/
theorem locked_kept (hb : w.Locked b)
    (hunlock : c = .node .unlockConnMutex → b.node ≠ a.node) (h : exec o a c w = some (x, w')) :
    w'.Locked b ∧ (w'.node b.node).userConnMap = (w.node b.node).userConnMap := by
  by_cases hn : b.node = a.node
  · cases c with
    | node q =>
        obtain ⟨s', hs, rfl⟩ := exec_node h
        unfold World.Locked at hb ⊢
        rw [hn] at hb ⊢
        rw [World.node_setNode_self]
        cases q with
        | unlockConnMutex => exact absurd hn (hunlock rfl)
        | mapIsBound | mapBind | mapErase | mapEraseConn | lockConnMutex =>
            simp [NodeOp.exec, hb] at hs
        | redisSubscribe channel =>
            rw [NodeOp.exec_redisSubscribe hs]
            split_ifs <;> exact ⟨hb, rfl⟩
        | redisUnsubscribe channel =>
            rw [NodeOp.exec_redisUnsubscribe hs]
            split_ifs <;> exact ⟨hb, rfl⟩
        | _ => cases hs; exact ⟨hb, rfl⟩
    | sql q => rw [(exec_sql h).2]; exact ⟨hb, rfl⟩
    | redisPublish channel message =>
        rw [exec_redisPublish h]
        split_ifs
        · exact ⟨(World.connMutex_publish ..).trans hb, World.userConnMap_publish ..⟩
        · exact ⟨hb, rfl⟩
    | sendTo conn s => rw [exec_sendTo h]; exact ⟨hb, rfl⟩
  · exact ⟨(connMutex_exec hn h).trans hb, (foreign_exec h hn).1⟩

/-- While an agent holds the lock the others leave the lock and the map alone. -/
theorem locked_exec (hb : w.Locked b) (hab : a ≠ b)
    (hunlock : c = .node .unlockConnMutex → w.Locked a) (h : exec o a c w = some (x, w')) :
    w'.Locked b ∧ (w'.node b.node).userConnMap = (w.node b.node).userConnMap := by
  refine locked_kept hb (fun hc hn => ?_) h
  rw [World.Locked, hn] at hb
  exact hab (Option.some.inj ((hunlock hc).symm.trans hb))

theorem locked_starts {j : Job} (h : j.Starts w w') : w'.Locked b ↔ w.Locked b := by
  unfold World.Locked
  cases j with
  | frame => rw [h.2.2]
  | close => rw [h.2.2]
  | redisMessage m =>
      obtain ⟨-, _, -, rfl⟩ := h
      rw [World.node_setNode]
      split_ifs with hn
      · rw [hn]
      · rfl
  | sigint => rw [h.2]

theorem locked_release (hb : w.Locked b) (hab : a ≠ b) : (w.release a).Locked b := by
  unfold World.release
  split_ifs with ha
  · have hn : b.node ≠ a.node := fun hn => by
      rw [World.Locked, hn] at hb
      exact hab (Option.some.inj (ha.symm.trans hb))
    rw [World.Locked, World.node_setNode_ne _ _ hn]
    exact hb
  · exact hb

theorem userConnMap_release (w : World) (a : Agent) (n : ℕ) :
    ((w.release a).node n).userConnMap = (w.node n).userConnMap := by
  unfold World.release
  split_ifs
  · rw [World.node_setNode]
    split_ifs with hn
    · rw [hn]
    · rfl
  · rfl

theorem inbox_release (w : World) (a : Agent) (n : ℕ) :
    ((w.release a).node n).inbox = (w.node n).inbox := by
  unfold World.release
  split_ifs
  · rw [World.node_setNode]
    split_ifs with hn
    · rw [hn]
    · rfl
  · rfl

theorem db_release (w : World) (a : Agent) : (w.release a).db = w.db := by
  unfold World.release
  split_ifs <;> rfl

theorem locked_disturbance (h : Disturbance w w') :
    (w'.Locked b ↔ w.Locked b) ∧ ∀ n, (w'.node n).userConnMap = (w.node n).userConnMap := by
  unfold World.Locked
  cases h with
  | tick => exact ⟨Iff.rfl, fun _ => rfl⟩
  | redisDown m | messageLost m | crash m =>
      refine ⟨?_, fun n => ?_⟩
      · rw [World.node_setNode]
        split_ifs with hn
        · rw [hn]
        · rfl
      · rw [World.node_setNode]
        split_ifs with hn
        · rw [hn]
        · rfl

theorem chatMessage_disturbance (h : Disturbance w w') :
    w'.db.chatMessage = w.db.chatMessage := by
  cases h <;> rfl

/-- A disturbance brings nothing into an inbox. -/
theorem inbox_disturbance (h : Disturbance w w') {n : ℕ} {m : ℤ × String}
    (hm : m ∈ (w'.node n).inbox) : m ∈ (w.node n).inbox := by
  cases h with
  | tick => exact hm
  | redisDown k =>
      rw [World.node_setNode] at hm
      split_ifs at hm with hn
      · exact hn ▸ hm
      · exact hm
  | messageLost k before after lost hinbox =>
      rw [World.node_setNode] at hm
      split_ifs at hm with hn
      · rw [hn, hinbox]
        exact (List.mem_append.mp hm).elim (fun h => List.mem_append_left _ h) fun h =>
          List.mem_append_right _ (List.mem_cons_of_mem _ h)
      · exact hm
  | crash k =>
      rw [World.node_setNode] at hm
      split_ifs at hm with hn
      · cases hm
      · exact hm

theorem inbox_starts {j : Job} (h : j.Starts w w') {n : ℕ} {m : ℤ × String}
    (hm : m ∈ (w'.node n).inbox) : m ∈ (w.node n).inbox := by
  cases j with
  | frame => rwa [h.2.2] at hm
  | close => rwa [h.2.2] at hm
  | redisMessage k =>
      obtain ⟨-, rest, hinbox, rfl⟩ := h
      rw [World.node_setNode] at hm
      split_ifs at hm with hn
      · rw [hn, hinbox]
        exact List.mem_cons_of_mem _ hm
      · exact hm
  | sigint => rwa [h.2] at hm

/-- A message leaves an inbox only for the job that handles it. -/
theorem inbox_of_starts {j : Job} (h : j.Starts w w') {n : ℕ} {m : ℤ × String}
    (hm : m ∈ (w.node n).inbox) : m ∈ (w'.node n).inbox ∨ j = .redisMessage n m.1 m.2 := by
  cases j with
  | frame => rw [h.2.2]; exact .inl hm
  | close => rw [h.2.2]; exact .inl hm
  | redisMessage k channel message =>
      obtain ⟨-, rest, hinbox, rfl⟩ := h
      rw [World.node_setNode]
      split_ifs with hn
      · rw [hn, hinbox] at hm
        obtain rfl | hm := List.mem_cons.mp hm
        · exact .inr (hn ▸ rfl)
        · exact .inl hm
      · exact .inl hm
  | sigint => rw [h.2]; exact .inl hm

/-- What arrives in an inbox has been published to a subscribed channel. -/
theorem inbox_exec (h : exec o a c w = some (x, w')) {n : ℕ} {m : ℤ × String}
    (hm : m ∈ (w'.node n).inbox) : m ∈ (w.node n).inbox ∨
      w.Subscribed n m.1 ∧ ∃ message, c = .redisPublish m.1 message ∧ m.2 = cStr message := by
  cases c with
  | sql q =>
      rw [(exec_sql h).2] at hm
      exact .inl hm
  | node q =>
      obtain ⟨s', hs, rfl⟩ := exec_node h
      rw [World.node_setNode] at hm
      split_ifs at hm with hn
      · rw [NodeOp.inbox_exec hs] at hm
        exact .inl (hn ▸ hm)
      · exact .inl hm
  | redisPublish channel message =>
      rw [exec_redisPublish h] at hm
      split_ifs at hm
      · rw [World.inbox_publish] at hm
        split_ifs at hm with hsub
        · obtain hm | hm := List.mem_append.mp hm
          · exact .inl hm
          · obtain rfl := List.mem_singleton.mp hm
            exact .inr ⟨hsub, message, rfl, rfl⟩
        · exact .inl hm
      · exact .inl hm
  | sendTo conn s =>
      rw [exec_sendTo h] at hm
      exact .inl hm

theorem mem_inbox_exec (h : exec o a c w = some (x, w')) {n : ℕ} {m : ℤ × String}
    (hm : m ∈ (w.node n).inbox) : m ∈ (w'.node n).inbox := by
  cases c with
  | sql q =>
      rw [(exec_sql h).2]
      exact hm
  | node q =>
      obtain ⟨s', hs, rfl⟩ := exec_node h
      rw [World.node_setNode]
      split_ifs with hn
      · rw [NodeOp.inbox_exec hs]
        exact hn ▸ hm
      · exact hm
  | redisPublish channel message =>
      rw [exec_redisPublish h]
      split_ifs
      · rw [World.inbox_publish]
        split_ifs
        · exact List.mem_append_left _ hm
        · exact hm
      · exact hm
  | sendTo conn s =>
      rw [exec_sendTo h]
      exact hm

/-- What has been sent stays sent. -/
theorem out_exec (h : exec o a c w = some (x, w')) {d : Conn} {s : Sent} (hs : s ∈ w.out d) :
    s ∈ w'.out d := by
  cases c with
  | sql q =>
      rw [(exec_sql h).2]
      exact hs
  | node q =>
      obtain ⟨s', -, rfl⟩ := exec_node h
      exact hs
  | redisPublish channel message =>
      rw [exec_redisPublish h]
      split_ifs <;> exact hs
  | sendTo conn t =>
      rw [exec_sendTo h]
      exact World.mem_emit.mpr (.inl hs)

end Frames

/-! ## The contract -/

/-- A frame that delivers a chat message; a raw text came over Redis. -/
def Sent.IsChat : Sent → Prop
  | .json js => msgType? js = some .oneChatMsg ∨ msgType? js = some .groupChatMsg
  | .raw _ => True

def Sent.Carries (js : Json) : Sent → Prop
  | .json js' => js' = js
  | .raw payload => payload = js.dump

/-- The chat message `js` for user `u` is stored: with its message id, its receiver and
exactly its text. -/
def Stored (db : Database) (u : ℤ) (js : Json) : Prop :=
  ∃ r ∈ db.chatMessage.rows, getLongLong js "messageid" = some r.messageId ∧
    r.receiverId = u ∧ r.payload = js.dump

/-- The job is a frame on `conn` that acknowledges message `messageid` for user `u`. -/
def Job.AcksFor (u messageid : ℤ) (conn : Conn) : Job → Prop
  | .frame conn' js _ => conn' = conn ∧ msgType? js = some .msgAck ∧ getInt js "id" = some u ∧
      getLongLong js "messageid" = some messageid
  | _ => False

/-- Since its last start the job has found the connection bound to the user. -/
def FoundBound (u : ℤ) (conn : Conn) (j : Job) (past : List ClusterEntry) : Prop :=
  ∃ later earlier, past = later ++ .did j (.node (.mapIsBound u conn)) true :: earlier ∧
    .started j ∉ later

/-- What a job promises before it issues a command. -/
def MessageMay (j : Job) (v : ClusterView) : Command → Prop
  | .sendTo conn s => s.IsChat → ∃ u js, s.Carries js ∧ Stored v.state.db u js ∧
      v.state.bound j.agent.node u = some conn
  | .redisPublish channel message => ∃ js, message = js.dump ∧ Stored v.state.db channel js
  | .sql (.ackMessage messageid receiverid) =>
      ∃ conn, j.AcksFor receiverid messageid conn ∧ FoundBound receiverid conn j v.past
  | .node .unlockConnMutex => v.state.Locked j.agent
  | _ => True

/-- Whatever waits in an inbox is stored. -/
def messageContract : Contract World Job Command Response where
  inv v := ∀ n, ∀ m ∈ (v.state.node n).inbox,
    ∃ js : Json, m.2 = js.dump ∧ Stored v.state.db m.1 js
  may := MessageMay

/-- The entry is an acknowledgement of row `r`. -/
def Acks (r : MessageRow) : ClusterEntry → Prop
  | .did _ c _ => c.Acks r
  | _ => False

theorem acks_congr {r r' : MessageRow} (h : r.Persists r') (e : ClusterEntry) :
    Acks r' e ↔ Acks r e := by
  cases e with
  | did j c x => simp only [Acks, Command.Acks, h.messageId, h.receiverId]
  | _ => exact Iff.rfl

section Moves
variable [JsonParser] {E : Environment} {admits : ClusterView → ClusterEntry → Prop}
  {v v' : ClusterView} {e : ClusterEntry}

/-- Only commands write to the table of messages. -/
theorem chatMessage_moves (hm : Moves (cluster E admits) v e v') (he : ∀ j c r, e ≠ .did j c r) :
    v'.state.db.chatMessage = v.state.db.chatMessage := by
  cases e with
  | started j => rw [Job.db_starts hm.effect]
  | did j c r => exact absurd rfl (he j c r)
  | aborted j =>
      rw [show v'.state = v.state.release j.agent from hm.effect, db_release]
  | disturbed => exact chatMessage_disturbance hm.effect.2

theorem row_moves (hm : Moves (cluster E admits) v e v') {r : MessageRow}
    (hr : r ∈ v.state.db.chatMessage.rows) : ∃ r' ∈ v'.state.db.chatMessage.rows,
      r.Persists r' ∧ (r.status < MessageStatus.acked →
        r'.status < MessageStatus.acked ∨ Acks r e) := by
  by_cases he : ∃ j c x, e = .did j c x
  · obtain ⟨j, c, x, rfl⟩ := he
    obtain ⟨-, o, -, ho⟩ := hm.effect
    exact row_exec ho hr
  · refine ⟨r, ?_, .refl r, .inl⟩
    rwa [chatMessage_moves hm fun j c x h => he ⟨j, c, x, h⟩]

theorem row_of_moves (hm : Moves (cluster E admits) v e v') {r' : MessageRow}
    (hr' : r' ∈ v'.state.db.chatMessage.rows) : r'.Unacked r'.receiverId ∨
      ∃ r ∈ v.state.db.chatMessage.rows, r'.messageId = r.messageId := by
  by_cases he : ∃ j c x, e = .did j c x
  · obtain ⟨j, c, x, rfl⟩ := he
    obtain ⟨-, o, -, ho⟩ := hm.effect
    exact row_of_exec ho hr'
  · rw [chatMessage_moves hm fun j c x h => he ⟨j, c, x, h⟩] at hr'
    exact .inr ⟨r', hr', rfl⟩

theorem bound_of_mapFind {j : Job} {userid : ℤ} {found : Option Conn}
    (hm : Moves (cluster E admits) v (.did j (.node (.mapFind userid)) found) v') :
    v'.state = v.state ∧ v.state.bound j.agent.node userid = found := by
  obtain ⟨-, o, -, ho⟩ := hm.effect
  obtain ⟨s', hs, hw⟩ := exec_node ho
  cases hs
  exact ⟨hw.trans (World.setNode_node ..), rfl⟩

/-- A stored message stays stored. -/
theorem stored_moves (hm : Moves (cluster E admits) v e v') {u : ℤ} {js : Json}
    (h : Stored v.state.db u js) : Stored v'.state.db u js := by
  obtain ⟨r, hr, hid, rfl, hpayload⟩ := h
  obtain ⟨r', hr', hpersists, -⟩ := row_moves hm hr
  exact ⟨r', hr', hid.trans (congrArg some hpersists.messageId.symm), hpersists.receiverId,
    hpersists.payload.trans hpayload⟩

theorem messageContract_kept (hv : messageContract.inv v) (hm : Moves (cluster E admits) v e v')
    (hp : messageContract.Promised v e) : messageContract.inv v' := by
  intro n m hmem
  have hold : m ∈ (v.state.node n).inbox →
      ∃ js : Json, m.2 = js.dump ∧ Stored v'.state.db m.1 js := fun hmem => by
    obtain ⟨js, hjs, hstored⟩ := hv n m hmem
    exact ⟨js, hjs, stored_moves hm hstored⟩
  cases e with
  | started j => exact hold (inbox_starts hm.effect hmem)
  | did j c r =>
      obtain ⟨-, o, -, ho⟩ := hm.effect
      obtain hmem | ⟨-, message, rfl, hmessage⟩ := inbox_exec ho hmem
      · exact hold hmem
      · obtain ⟨js, rfl, hstored⟩ := hp
        exact ⟨js, hmessage.trans (cStr_dump js), stored_moves hm hstored⟩
  | aborted j =>
      rw [show v'.state = v.state.release j.agent from hm.effect, inbox_release] at hmem
      exact hold hmem
  | disturbed => exact hold (inbox_disturbance hm.effect.2 hmem)

/-! ## Stable assertions -/

theorem stable_stored {a : Agent} (u : ℤ) (js : Json) :
    Stable (cluster E admits) messageContract a fun v => Stored v.state.db u js :=
  fun _ _ ⟨_, _, _, _, hm, _⟩ h => stored_moves hm h

/-- Under its lock an agent can rely on the map of its node. -/
theorem stable_locked {a : Agent} (P : Option Conn → Prop) (u : ℤ) :
    Stable (cluster E admits) messageContract a fun v =>
      v.state.Locked a ∧ P (v.state.bound a.node u) := by
  rintro v v' ⟨-, -, e, hother, hm, hp⟩ ⟨hlocked, hbound⟩
  have hmap : v'.state.Locked a ∧
      (v'.state.node a.node).userConnMap = (v.state.node a.node).userConnMap := by
    cases e with
    | started j => exact ⟨(locked_starts hm.effect).mpr hlocked, (Job.node_starts hm.effect _).1⟩
    | did j c r =>
        obtain ⟨-, o, -, ho⟩ := hm.effect
        exact locked_exec hlocked (hother j rfl) (fun hc => by subst hc; exact hp) ho
    | aborted j =>
        rw [show v'.state = v.state.release j.agent from hm.effect]
        exact ⟨locked_release hlocked (hother j rfl), userConnMap_release ..⟩
    | disturbed =>
        obtain ⟨hiff, hsame⟩ := locked_disturbance (b := a) hm.effect.2
        exact ⟨hiff.mpr hlocked, hsame _⟩
  refine ⟨hmap.1, ?_⟩
  rwa [World.bound, hmap.2]

theorem stable_foundBound {j : Job} (u : ℤ) (conn : Conn) :
    Stable (cluster E admits) messageContract j.agent fun v => FoundBound u conn j v.past := by
  rintro v v' ⟨-, -, e, hother, hm, -⟩ ⟨later, earlier, hpast, hstart⟩
  refine ⟨e :: later, earlier, by rw [hm.recorded, hpast]; rfl, fun h => ?_⟩
  obtain h | h := List.mem_cons.mp h
  · exact hother j (h ▸ rfl) rfl
  · exact hstart h

end Moves
/-! ## Tests on the outcome -/

/-- Some message has been stored whose id and receiver pass the test. -/
def anyStored (p : ℤ → ℤ → Bool) (past : List ClusterEntry) : Bool :=
  past.any fun
    | .did _ (.sql (.insertMessage messageid _ receiverid _ _ _)) stored =>
        p messageid receiverid && (stored : Bool)
    | _ => false

theorem exists_of_anyStored {p : ℤ → ℤ → Bool} {past : List ClusterEntry}
    (h : anyStored p past = true) : ∃ j messageid senderid receiverid groupid msgtype payload,
      p messageid receiverid = true ∧ .did j (.sql (.insertMessage messageid senderid receiverid
        groupid msgtype payload)) true ∈ past := by
  obtain ⟨e, hmem, he⟩ := List.any_eq_true.mp h
  split at he
  · next j messageid senderid receiverid groupid msgtype payload stored =>
    obtain ⟨hp, hstored⟩ := Bool.and_eq_true_iff.mp he
    obtain rfl : stored = true := hstored
    exact ⟨j, messageid, senderid, receiverid, groupid, msgtype, payload, hp, hmem⟩
  · cases he

end ChatCluster
