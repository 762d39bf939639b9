import ChatCluster.Listing
import ChatCluster.LoginWindow
import ChatCluster.SendingOrder

/-!
# The order of the states of a message

A client acknowledges a message that it has received. A frame is sent before its row is
marked, so the acknowledgement can arrive before the mark is made. The sender still holds
the lock then, and the check that precedes the acknowledgement needs the same lock. A login
answer lists rows that have been marked. So an acknowledged row has been delivered before.
-/
namespace ChatCluster
open CommandProgram Interleaving

/-! ## The states of a row -/

/-- The status is one of three, and a row that has left the first has its time of delivery. -/
def MessageRow.InOrder (r : MessageRow) : Prop :=
  r.status = MessageStatus.created ∨
    (r.status = MessageStatus.delivered ∨ r.status = MessageStatus.acked) ∧ r.deliveredAt ≠ none

/-- One step from status `s`. -/
def NextStatus (s s' : ℤ) : Prop :=
  s' = s ∨ s = MessageStatus.created ∧ s' = MessageStatus.delivered ∨
    s = MessageStatus.delivered ∧ s' = MessageStatus.acked

theorem deliveredAt_markDelivered (now : ℕ) (r : MessageRow) :
    (r.markDelivered now).deliveredAt ≠ none := by
  simp only [MessageRow.markDelivered]
  cases r.deliveredAt <;> simp

theorem MessageRow.InOrder.markDelivered {now : ℕ} {r : MessageRow} (h : r.InOrder)
    (hlt : r.status < MessageStatus.acked) :
    (r.markDelivered now).InOrder ∧ NextStatus r.status (r.markDelivered now).status := by
  have hat := deliveredAt_markDelivered now r
  obtain hcreated | ⟨hdelivered | hacked, -⟩ := h
  · have hst : (r.markDelivered now).status = MessageStatus.delivered := by
      simp only [MessageRow.markDelivered, hcreated]
      decide
    exact ⟨.inr ⟨.inl hst, hat⟩, .inr (.inl ⟨hcreated, hst⟩)⟩
  · have hst : (r.markDelivered now).status = r.status := by
      simp only [MessageRow.markDelivered, hdelivered]
      decide
    exact ⟨.inr ⟨.inl (hst.trans hdelivered), hat⟩, .inl hst⟩
  · omega

theorem MessageRow.InOrder.ack {now : ℕ} {r : MessageRow} (h : r.InOrder)
    (hle : MessageStatus.delivered ≤ r.status) :
    (r.ack now).InOrder ∧ NextStatus r.status (r.ack now).status := by
  obtain hcreated | ⟨hdelivered | hacked, hat⟩ := h
  · rw [hcreated] at hle
    exact absurd hle (by decide)
  · exact ⟨.inr ⟨.inr rfl, hat⟩, .inr (.inr ⟨hdelivered, rfl⟩)⟩
  · exact ⟨.inr ⟨.inr rfl, hat⟩, .inl hacked.symm⟩

/-! ## What a client has received -/

section Received
variable [JsonParser]

/-- The frame delivers the message with this id, by itself or in the list of a login. -/
def Sent.Shows (messageid : ℤ) (s : Sent) : Prop :=
  s.IsChat ∧ textId? s.payload = some messageid ∨
    ∃ response texts, s = .json response ∧ (confirmedUser? s).isSome ∧
      response.find? "offlinemsg" = some (Json.strings texts) ∧
        ∃ text ∈ texts, textId? text = some messageid

/-- A client acknowledges on a connection only what it has received on it, and no handler is
stopped between a frame and its mark. -/
def AcksReceived (v : ClusterView) : ClusterEntry → Prop
  | .started (.frame conn js _) => msgType? js = some .msgAck →
      ∀ messageid, getLongLong js "messageid" = some messageid →
        ∃ s ∈ v.state.out conn, s.Shows messageid
  | .aborted j => (custody j.agent v.past).due = none
  | _ => True

/-- The row has been marked, or its mark is owed under the lock of node `n`. -/
def MarkedOrOwed (n : ℕ) (v : ClusterView) (r : MessageRow) : Prop :=
  MessageStatus.delivered ≤ r.status ∨ ∃ a : Agent, a.node = n ∧
    (custody a v.past).locked = true ∧
      (custody a v.past).due = some (r.messageId, r.receiverId)

/-- An id under which rows are marked everywhere, and which no legacy text names. -/
structure Proper (old : Database) (messageid : ℤ) : Prop where
  positive : 0 < messageid
  apart : ∀ p ∈ old.offlinemessage, textId? (cStr p.2) ≠ some messageid

end Received

section Moves
variable [JsonParser] {E : Environment} {admits : ClusterView → ClusterEntry → Prop}
  {v v' : ClusterView} {e : ClusterEntry} {x y : ClusterConfig} {es : List ClusterEntry}

theorem out_cases (hm : Moves (cluster E admits) v e v') {c : Conn} {s : Sent}
    (hs : s ∈ v'.state.out c) :
    s ∈ v.state.out c ∨ ∃ j, e = .did j (.sendTo c s) () := by
  by_cases he : ∀ j d t r, e ≠ .did j (.sendTo d t) r
  · rw [out_kept hm he] at hs
    exact .inl hs
  · push Not at he
    obtain ⟨j, d, t, r, rfl⟩ := he
    rw [out_sendTo hm] at hs
    obtain hold | ⟨rfl, rfl⟩ := World.mem_emit.mp hs
    · exact .inl hold
    · exact .inr ⟨j, rfl⟩

theorem out_steps (h : Steps (cluster E admits) x es y) {c : Conn} {s : Sent}
    (hs : s ∈ x.view.state.out c) : s ∈ y.view.state.out c := by
  induction h with
  | done => exact hs
  | @step y z e es hrun hstep ih =>
      by_cases he : ∀ j d t r, e ≠ .did j (.sendTo d t) r
      · rw [out_kept hstep.moves he]
        exact ih
      · push Not at he
        obtain ⟨j, d, t, r, rfl⟩ := he
        rw [out_sendTo hstep.moves]
        exact World.mem_emit.mpr (.inl ih)

theorem delivered_steps (h : Steps (cluster E admits) x es y) {r : MessageRow}
    (hr : r ∈ x.view.state.db.chatMessage.rows) (hst : MessageStatus.delivered ≤ r.status) :
    ∃ r' ∈ y.view.state.db.chatMessage.rows, r.Persists r' ∧
      MessageStatus.delivered ≤ r'.status := by
  induction h with
  | done => exact ⟨r, hr, .refl r, hst⟩
  | step _ hs ih =>
      obtain ⟨r₁, hr₁, hpersists, hst₁⟩ := ih
      obtain ⟨r₂, hr₂, hpersists₂, hkept⟩ := delivered_moves hs.moves hr₁
      exact ⟨r₂, hr₂, hpersists.trans hpersists₂, hkept hst₁⟩

end Moves

section Runs
variable [JsonParser] {db : Database} {x y : ClusterConfig} {es : List ClusterEntry}
  {e : ClusterEntry} {j : Job} {conn : Conn} {s : Sent} {messageid : ℤ}

/-- A mark that is owed stays owed until it is made. -/
theorem markedOrOwed_step (h : Steps (cluster .sqlSucceeds AcksReceived)
      (Config.initial (World.fresh db)) es x)
    (hs : Step (cluster .sqlSucceeds AcksReceived) x e y) {n : ℕ} {r : MessageRow}
    (hr : r ∈ x.view.state.db.chatMessage.rows) (howed : MarkedOrOwed n x.view r) :
    ∃ r' ∈ y.view.state.db.chatMessage.rows, r.Persists r' ∧ MarkedOrOwed n y.view r' := by
  obtain ⟨r', hr', hpersists, hkept⟩ := delivered_moves hs.moves hr
  obtain hst | ⟨a, hn, hlocked, hdue⟩ := howed
  · exact ⟨r', hr', hpersists, .inl (hkept hst)⟩
  · have howes : (custody a y.view.past).locked = true →
        (custody a y.view.past).due = some (r.messageId, r.receiverId) →
        ∃ r' ∈ y.view.state.db.chatMessage.rows, r.Persists r' ∧ MarkedOrOwed n y.view r' := by
      intro hl hd
      rw [← hpersists.messageId, ← hpersists.receiverId] at hd
      exact ⟨r', hr', hpersists, .inr ⟨a, hn, hl, hd⟩⟩
    have hnone : (custody a x.view.past).due ≠ none := by
      rw [hdue]
      simp
    rw [hs.moves.recorded] at howes
    cases e with
    | started j =>
        by_cases ha : j.agent = a
        · have hfree := h.tracked_started (P := fun j m => m.Allows j) (Q := Custody.Free)
            delivers_body ⟨rfl, rfl⟩ hs
          rw [show (cluster .sqlSucceeds AcksReceived).agent j = a from ha] at hfree
          exact absurd hfree.settled hnone
        · rw [custody, memory, if_neg ha] at howes
          exact howes hlocked hdue
    | aborted j =>
        by_cases ha : j.agent = a
        · have hsettled : (custody j.agent x.view.past).due = none := hs.moves.admitted
          rw [ha] at hsettled
          exact absurd hsettled hnone
        · rw [custody, memory, if_neg ha] at howes
          exact howes hlocked hdue
    | disturbed => exact howes hlocked hdue
    | did j c x' =>
        rw [custody_did] at howes
        by_cases ha : j.agent = a
        · subst ha
          have hallows := allows_of_step h hs
          rw [if_pos rfl] at howes
          cases c with
          | sql q =>
              cases q with
              | markDelivered messageid receiverid =>
                  by_cases hmark : (custody j.agent x.view.past).due = some (messageid, receiverid)
                  · rw [hdue] at hmark
                    cases hmark
                    obtain ⟨r₁, hr₁, hpersists₁, hst⟩ := delivered_of_mark hr hs.moves
                    exact ⟨r₁, hr₁, hpersists₁, .inl hst⟩
                  · rw [show (custody j.agent x.view.past).next
                      (.sql (.markDelivered messageid receiverid)) x' = custody j.agent x.view.past
                      from if_neg hmark] at howes
                    exact howes hlocked hdue
              | _ => exact howes hlocked hdue
          | node q =>
              cases q with
              | lockConnMutex => exact howes rfl hdue
              | unlockConnMutex => exact absurd hallows.2 hnone
              | _ => exact howes hlocked hdue
          | redisPublish => exact howes hlocked hdue
          | sendTo conn s =>
              by_cases hchat : s.IsChat
              · exact absurd (due_of_send h hs hchat) hnone
              · rw [show (custody j.agent x.view.past).next (.sendTo conn s) x' =
                  custody j.agent x.view.past from if_neg hchat] at howes
                exact howes hlocked hdue
        · rw [if_neg ha] at howes
          exact howes hlocked hdue

/-- A chat frame shows the message of its row, whose mark is owed from then on. -/
theorem shown_of_chat (h : Steps (cluster .sqlSucceeds AcksReceived)
      (Config.initial (World.fresh db)) es x) {r : Unit}
    (hs : Step (cluster .sqlSucceeds AcksReceived) x (.did j (.sendTo conn s) r) y)
    (hchat : s.IsChat) (hread : x.view.state.db.ReadsBack)
    (hid : textId? s.payload = some messageid) (hpos : 0 < messageid) :
    ∃ row ∈ y.view.state.db.chatMessage.rows, row.messageId = messageid ∧
      MarkedOrOwed conn.node y.view row := by
  obtain ⟨row, hrow, hof⟩ := exists_rowOf h hs hchat
  have htext := hread row hrow
  rw [MessageRow.ReadsBack, ← hof.payload, cStr_payload_of_send h hs hchat] at htext
  obtain rfl : row.messageId = messageid := Option.some.inj (htext.symm.trans hid)
  have hmarked : s.markedId? = some row.messageId := by
    cases s with
    | json js => exact hof.marked js rfl
    | raw payload =>
        have hpayload : textId? payload = some row.messageId := hid
        simp [Sent.markedId?, hpayload, hpos]
  obtain ⟨u, hlooked, -, -, hbound⟩ := found_of_send h hs hchat
  obtain ⟨hnode, -⟩ := passedLogin_of_bound h (fun _ _ => rfl) hbound
  refine ⟨row, ?_, rfl, .inr ⟨j.agent, hnode.symm, ?_, ?_⟩⟩
  · rw [out_sendTo hs.moves]
    exact hrow
  · rw [hs.moves.recorded, custody_send j conn hchat]
    exact (allows_of_step h hs hchat).1
  · rw [hs.moves.recorded, custody_send j conn hchat]
    simp [Custody.hand, hof.looked, hmarked]

/-- A login answer shows messages whose rows have been marked. -/
theorem shown_of_answer (h : Steps (cluster .sqlSucceeds AcksReceived)
      (Config.initial (World.fresh db)) es x) {r : Unit} {response : Json} {texts : List String}
    (hs : Step (cluster .sqlSucceeds AcksReceived) x (.did j (.sendTo conn (.json response)) r) y)
    (hread : x.view.state.db.ReadsBack) (hconfirmed : (confirmedUser? (.json response)).isSome)
    (hfind : response.find? "offlinemsg" = some (Json.strings texts)) {text : String}
    (htext : text ∈ texts) (hid : textId? text = some messageid) :
    (∃ row ∈ y.view.state.db.chatMessage.rows, row.messageId = messageid ∧
      MarkedOrOwed conn.node y.view row) ∨
      ∃ p ∈ db.offlinemessage, textId? (cStr p.2) = some messageid := by
  obtain ⟨row, hrow, rfl, hst⟩ | ⟨p, hp, rfl⟩ :=
    listed_of_step h hs hconfirmed hfind text htext
  · refine .inl ⟨row, ?_, Option.some.inj ((hread row hrow).symm.trans hid), .inl hst⟩
    rw [out_sendTo hs.moves]
    exact hrow
  · exact .inr ⟨p, hp, hid⟩

/-- Whatever a client has been shown is marked, or its mark is owed under the lock. -/
theorem shown_marked (h : Steps (cluster .sqlSucceeds AcksReceived)
      (Config.initial (World.fresh db)) es x) (hread : x.view.state.db.ReadsBack)
    (hs : s ∈ x.view.state.out conn) (hshows : s.Shows messageid) (hproper : Proper db messageid) :
    ∃ row ∈ x.view.state.db.chatMessage.rows, row.messageId = messageid ∧
      MarkedOrOwed conn.node x.view row := by
  induction h with
  | done => exact absurd hs List.not_mem_nil
  | @step x y e es hrun hstep ih =>
      have hread' := readsBack_moves hstep.moves hread
      obtain hold | ⟨j, rfl⟩ := out_cases hstep.moves hs
      · obtain ⟨row, hrow, rfl, howed⟩ := ih hread' hold
        obtain ⟨row', hrow', hpersists, howed'⟩ := markedOrOwed_step hrun hstep hrow howed
        exact ⟨row', hrow', hpersists.messageId, howed'⟩
      · obtain ⟨hchat, hid⟩ | ⟨response, texts, rfl, hconfirmed, hfind, text, htext, hid⟩ := hshows
        · exact shown_of_chat hrun hstep hchat hread' hid hproper.positive
        · obtain hrow | ⟨p, hp, hlegacy⟩ :=
            shown_of_answer hrun hstep hread' hconfirmed hfind htext hid
          · exact hrow
          · exact absurd hlegacy (hproper.apart p hp)

/-- An acknowledgement finds its row delivered. -/
theorem delivered_of_ack (h : Steps (cluster .sqlSucceeds AcksReceived)
      (Config.initial (World.fresh db)) es x) (hread : x.view.state.db.ReadsBack) {r : MessageRow}
    {ok : Bool} (hr : r ∈ x.view.state.db.chatMessage.rows) (hproper : Proper db r.messageId)
    (hs : Step (cluster .sqlSucceeds AcksReceived) x
      (.did j (.sql (.ackMessage r.messageId r.receiverId)) ok) y) :
    MessageStatus.delivered ≤ r.status := by
  obtain ⟨conn, hfor, later, earlier, hpast, -⟩ :=
    (message_verified.sound (hostile_steps h) (messageContract_fresh db)).promised (hostile_step hs)
  obtain ⟨_, _, z, z', hbefore, hz, hcheck, hafter, -⟩ := h.at_entry hpast
  cases j with
  | frame conn' js time =>
      obtain ⟨rfl, hmsg, -, hid⟩ := hfor
      -- the check needs the lock
      have hfree : (z.view.state.node conn'.node).connMutex = none := by
        obtain ⟨-, o, -, ho⟩ := hcheck.moves.effect
        obtain ⟨s', hexec, -⟩ := exec_node ho
        simp only [NodeOp.exec] at hexec
        split_ifs at hexec with hfree
        exact hfree
      -- the frame was taken up before the check, when its message had been received
      have hstarted : .started (.frame conn' js time) ∈ z.view.past := by
        have hmem := (Steps.step hbefore hcheck).started_of_did (j := .frame conn' js time)
          (by rw [hcheck.moves.recorded]; exact List.mem_cons_self)
        rw [hcheck.moves.recorded] at hmem
        exact (List.mem_cons.mp hmem).resolve_left (by simp)
      obtain ⟨newer, older, hsplit⟩ := List.append_of_mem hstarted
      obtain ⟨_, _, t, t', -, -, hstart, hlater, -⟩ := hbefore.at_entry hsplit
      obtain ⟨s, hsent, hshows⟩ := hstart.moves.admitted hmsg _ hid
      have hout : s ∈ z.view.state.out conn' :=
        out_steps ((Steps.step .done hstart).append hlater) hsent
      have hrest := (Steps.step .done hcheck).append hafter
      obtain ⟨row, hrow, hrowid, hst | ⟨a, hnode, hlocked, -⟩⟩ :=
        shown_marked hbefore (readsBack_steps hrest hread) hout hshows hproper
      · obtain ⟨row', hrow', hpersists, hst'⟩ := delivered_steps hrest hrow hst
        obtain rfl := x.view.state.db.chatMessage.key_injOn hrow' hr
          (hpersists.messageId.trans hrowid)
        exact hst'
      · have hheld := (custody_stands hbefore a).locked hlocked
        rw [World.Locked, hnode, hfree] at hheld
        cases hheld
  | _ => exact hfor.elim

/-! ## The order of the states -/

/-- What a step makes of a row in order. -/
theorem inOrder_step (h : Steps (cluster .sqlSucceeds AcksReceived)
      (Config.initial (World.fresh db)) es x) (hread : x.view.state.db.ReadsBack)
    (hs : Step (cluster .sqlSucceeds AcksReceived) x e y) {r : MessageRow}
    (hr : r ∈ x.view.state.db.chatMessage.rows) (hproper : Proper db r.messageId)
    (horder : r.InOrder) : ∃ r' ∈ y.view.state.db.chatMessage.rows,
      r.Persists r' ∧ r'.InOrder ∧ NextStatus r.status r'.status := by
  obtain ⟨j, c, ok, rfl, r', hr', hturns⟩ | ⟨-, hsame⟩ := turns_moves hs.moves hr
  · refine ⟨r', hr', hturns.persists, ?_⟩
    cases hturns with
    | stays => exact ⟨horder, .inl rfl⟩
    | delivered hlt => exact horder.markDelivered hlt
    | acked => exact horder.ack (delivered_of_ack h hread hr hproper hs)
  · exact ⟨r, hsame, .refl r, horder, .inl rfl⟩

theorem created_step {E : Environment} {admits : ClusterView → ClusterEntry → Prop}
    {v v' : ClusterView} (hm : Moves (cluster E admits) v e v') {r : MessageRow}
    (hr : r ∈ v'.state.db.chatMessage.rows)
    (hnew : ∀ r' ∈ v.state.db.chatMessage.rows, r'.messageId ≠ r.messageId) :
    r.status = MessageStatus.created := by
  by_cases he : ∀ j c x, e ≠ .did j c x
  · rw [chatMessage_moves hm he] at hr
    exact absurd rfl (hnew r hr)
  · push Not at he
    obtain ⟨j, c, x, rfl⟩ := he
    obtain ⟨-, o, -, ho⟩ := hm.effect
    exact (inserted_exec ho hr hnew).2

theorem rows_inOrder (h : Steps (cluster .sqlSucceeds AcksReceived)
      (Config.initial (World.fresh db)) es x) (hread : x.view.state.db.ReadsBack)
    (hdb : ∀ r ∈ db.chatMessage.rows, r.InOrder) {r : MessageRow}
    (hr : r ∈ x.view.state.db.chatMessage.rows) (hproper : Proper db r.messageId) : r.InOrder := by
  induction h generalizing r with
  | done => exact hdb r hr
  | @step x y e es hrun hs ih =>
      have hread' := readsBack_moves hs.moves hread
      by_cases hnew : ∀ r' ∈ x.view.state.db.chatMessage.rows, r'.messageId ≠ r.messageId
      · exact .inl (created_step hs.moves hr hnew)
      · push Not at hnew
        obtain ⟨r₀, hr₀, hid⟩ := hnew
        rw [← hid] at hproper
        obtain ⟨r', hr', hpersists, horder, -⟩ :=
          inOrder_step hrun hread' hs hr₀ hproper (ih hread' hr₀ hproper)
        obtain rfl := y.view.state.db.chatMessage.key_injOn hr' hr (hpersists.messageId.trans hid)
        exact horder

/-- The states of a message around move `e`. -/
structure StatusInOrder (db : Database) (x : ClusterConfig) (e : ClusterEntry)
    (y : ClusterConfig) : Prop where
  created : ∀ r ∈ y.view.state.db.chatMessage.rows,
    (∀ r' ∈ x.view.state.db.chatMessage.rows, r'.messageId ≠ r.messageId) →
      r.status = MessageStatus.created
  next : ∀ r ∈ x.view.state.db.chatMessage.rows, Proper db r.messageId →
    ∃ r' ∈ y.view.state.db.chatMessage.rows, r.Persists r' ∧ NextStatus r.status r'.status
  acks : ∀ r ∈ x.view.state.db.chatMessage.rows, Proper db r.messageId → ∀ j ok,
    e = .did j (.sql (.ackMessage r.messageId r.receiverId)) ok →
      r.status = MessageStatus.delivered ∨ r.status = MessageStatus.acked
  delivered : ∀ r ∈ x.view.state.db.chatMessage.rows, Proper db r.messageId →
    r.status = MessageStatus.acked → r.deliveredAt ≠ none
  marks : ∀ r ∈ x.view.state.db.chatMessage.rows, r.status = MessageStatus.acked →
    ∀ j messageid receiverid ok, e = .did j (.sql (.markDelivered messageid receiverid)) ok →
      r ∈ y.view.state.db.chatMessage.rows

theorem kept_of_mark {admits : ClusterView → ClusterEntry → Prop} {v v' : ClusterView}
    {receiverid : ℤ} {ok : Bool}
    (hm : Moves (cluster .sqlSucceeds admits) v
      (.did j (.sql (.markDelivered messageid receiverid)) ok) v') {r : MessageRow}
    (hr : r ∈ v.state.db.chatMessage.rows) (hst : r.status = MessageStatus.acked) :
    r ∈ v'.state.db.chatMessage.rows := by
  have hdb : v'.state.db = v.state.db.markDelivered messageid receiverid :=
    congrArg Prod.snd (sql_moves hm)
  rw [hdb]
  refine Database.mem_markDelivered.mpr ⟨r, hr, if_neg fun hmatch => ?_⟩
  omega

/-- In every run in which the statements succeed and the clients acknowledge what they have
received, the states of a message follow one another in order. -/
theorem status_order (hdb : ∀ r ∈ db.chatMessage.rows, r.InOrder)
    (h : Steps (cluster .sqlSucceeds AcksReceived) (Config.initial (World.fresh db)) es x)
    (hread : x.view.state.db.ReadsBack) (hs : Step (cluster .sqlSucceeds AcksReceived) x e y) :
    StatusInOrder db x e y where
  created r hr hnew := created_step hs.moves hr hnew
  next r hr hproper := by
    obtain ⟨r', hr', hpersists, -, hnext⟩ :=
      inOrder_step h hread hs hr hproper (rows_inOrder h hread hdb hr hproper)
    exact ⟨r', hr', hpersists, hnext⟩
  acks r hr hproper j ok he := by
    subst he
    have hle := delivered_of_ack h hread hr hproper hs
    obtain hcreated | ⟨hst, -⟩ := rows_inOrder h hread hdb hr hproper
    · rw [hcreated] at hle
      exact absurd hle (by decide)
    · exact hst
  delivered r hr hproper hst := by
    obtain hcreated | ⟨-, hat⟩ := rows_inOrder h hread hdb hr hproper
    · rw [hcreated] at hst
      exact absurd hst (by decide)
    · exact hat
  marks r hr hst j messageid receiverid ok he := by
    subst he
    exact kept_of_mark hs.moves hr hst

end Runs

/-! ## Runs with an acknowledgement -/

theorem strings_of_mapM {xs : List Json} {texts : List String}
    (h : xs.mapM Json.getStr? = some texts) : xs = texts.map Json.string := by
  induction xs generalizing texts with
  | nil =>
      cases h
      rfl
  | cons x xs ih =>
      rw [List.mapM_cons] at h
      obtain ⟨text, htext, h⟩ := Option.bind_eq_some_iff.mp h
      obtain ⟨rest, hrest, h⟩ := Option.bind_eq_some_iff.mp h
      cases h
      rw [List.map_cons, ← ih hrest]
      cases x <;> cases htext
      rfl

section Examples
variable [JsonParser] {messageid : ℤ}

/-- The texts that a frame shows: its own, or those of the list of a login. -/
def Sent.texts (s : Sent) : List String :=
  if s.IsChat then [s.payload]
  else match s with
    | .json response =>
        if (confirmedUser? s).isSome then
          match response.find? "offlinemsg" with
          | some (.array xs) => (xs.mapM Json.getStr?).getD []
          | _ => []
        else []
    | .raw _ => []

theorem shows_of_texts {s : Sent} {text : String} (htext : text ∈ s.texts)
    (hid : textId? text = some messageid) : s.Shows messageid := by
  unfold Sent.texts at htext
  by_cases hchat : s.IsChat
  · rw [if_pos hchat] at htext
    obtain rfl := List.mem_singleton.mp htext
    exact .inl ⟨hchat, hid⟩
  · rw [if_neg hchat] at htext
    cases s with
    | raw payload => exact absurd htext List.not_mem_nil
    | json response =>
        dsimp only at htext
        split_ifs at htext with hconfirmed
        · split at htext
          · next xs hfind =>
            cases hxs : xs.mapM Json.getStr? with
            | none =>
                rw [hxs] at htext
                exact absurd htext List.not_mem_nil
            | some texts =>
                rw [hxs] at htext
                rw [strings_of_mapM hxs] at hfind
                exact .inr ⟨response, texts, rfl, hconfirmed, hfind, text, htext, hid⟩
          · exact absurd htext List.not_mem_nil
        · exact absurd htext List.not_mem_nil

def acksReceived (v : ClusterView) : ClusterEntry → Bool
  | .started (.frame conn js _) => decide (msgType? js ≠ some .msgAck) ||
      (getLongLong js "messageid").all fun messageid => (v.state.out conn).any fun s =>
        s.texts.any fun text => decide (textId? text = some messageid)
  | .aborted _ => false
  | _ => true

theorem acksReceived_of_acksReceived (v : ClusterView) (e : ClusterEntry)
    (h : acksReceived v e = true) : AcksReceived v e := by
  cases e with
  | started j =>
      cases j with
      | frame conn js time =>
          intro hmsg messageid hid
          simp only [acksReceived, hmsg, hid, ne_eq, not_true_eq_false, decide_false, Bool.false_or,
            Option.all_some, List.any_eq_true, decide_eq_true_eq] at h
          obtain ⟨s, hs, text, htext, hshows⟩ := h
          exact ⟨s, hs, shows_of_texts htext hshows⟩
      | _ => trivial
  | aborted j => cases h
  | _ => trivial

def ackReplayer : Replayer (cluster .sqlSucceeds AcksReceived) Choice :=
  Cluster.replayer .sqlSucceeds AcksReceived acksReceived acksReceived_of_acksReceived

/-- The acknowledgement that has been the latest move, with the only row before and after. -/
def ackTurn? (x y : ClusterConfig) : Option (Job × Bool × MessageRow × MessageRow) :=
  match y.view.past, x.view.state.db.chatMessage.rows, y.view.state.db.chatMessage.rows with
  | .did j (.sql (.ackMessage messageid receiverid)) ok :: _, [r], [r'] =>
      if messageid = r.messageId ∧ receiverid = r.receiverId then some (j, ok, r, r') else none
  | _, _, _ => none

/-- A move from `x` to `y` that acknowledges a row, and the row before and after. -/
structure AckMove (db : Database) (x : ClusterConfig) (j : Job) (ok : Bool) (y : ClusterConfig)
    (r r' : MessageRow) : Prop where
  run : ∃ es, Steps (cluster .sqlSucceeds AcksReceived) (Config.initial (World.fresh db)) es x
  readsBack : x.view.state.db.ReadsBack
  move : Step (cluster .sqlSucceeds AcksReceived) x
    (.did j (.sql (.ackMessage r.messageId r.receiverId)) ok) y
  before : r ∈ x.view.state.db.chatMessage.rows
  after : r' ∈ y.view.state.db.chatMessage.rows

theorem exists_ackMove (db : Database) (cues : List (Cue Job Agent Choice)) (a : Agent)
    {p : MessageRow → MessageRow → Bool}
    (h : ((ackReplayer.replay? (Config.initial (World.fresh db)) cues).any fun x =>
      (ackReplayer.move? x (.act a {})).any fun y => (ackReplayer.replay? y []).any fun _ =>
        (ackTurn? x y).any fun t => p t.2.2.1 t.2.2.2 && decide x.view.state.db.ReadsBack) =
      true) : ∃ x j ok y r r', AckMove db x j ok y r r' ∧ p r r' = true := by
  obtain ⟨es, x, e, y, -, -, hrun, hs, -, hp⟩ := ackReplayer.exists_steps_through cues (.act a {}) []
    (p := fun x y _ => (ackTurn? x y).any fun t =>
      p t.2.2.1 t.2.2.2 && decide x.view.state.db.ReadsBack) h
  obtain ⟨⟨j, ok, r, r'⟩, hturn, hp⟩ := (Option.any_eq_true _ _).mp hp
  obtain ⟨hp, hread⟩ := Bool.and_eq_true_iff.mp hp
  have hpast := hs.moves.recorded
  unfold ackTurn? at hturn
  split at hturn
  · next messageid receiverid _ _ _ _ hy hx hy' =>
    split_ifs at hturn with hids
    obtain ⟨rfl, rfl⟩ := hids
    cases hturn
    rw [hpast] at hy
    obtain ⟨rfl, -⟩ := List.cons.inj hy
    refine ⟨x, j, ok, y, r, r', ⟨⟨es, hrun⟩, of_decide_eq_true hread, hs, ?_, ?_⟩, hp⟩
    · rw [hx]
      exact List.mem_singleton_self r
    · rw [hy']
      exact List.mem_singleton_self r'
  · cases hturn

end Examples

def twoUsers : Database := Statement.registered [("ann", "pw"), ("bob", "pw")]

/-- User `1` on node 0 sends when the clock reads `now`; user `2` on node 1 gets the
message over Redis, whose observer makes `steps` moves, and acknowledges it. -/
def ackCues (now steps : ℕ) (messageid : ℤ) : List (Cue Job Agent Choice) :=
  .start (.frame ⟨0, 0⟩ (Client.loginRequest 1 "pw") "") ::
    List.replicate 10 (.act (.io ⟨0, 0⟩) {}) ++
  .start (.frame ⟨1, 0⟩ (Client.loginRequest 2 "pw") "") ::
    List.replicate 10 (.act (.io ⟨1, 0⟩) {}) ++
  .start (.frame ⟨0, 0⟩ namedRequest "") ::
    List.replicate 11 (.act (.io ⟨0, 0⟩) { clockMs := now }) ++
  .start (.redisMessage 1 2 (chatFrame namedRequest messageid 2).dump) ::
    List.replicate steps (.act (.observer 1) {}) ++
  [.start (.frame ⟨1, 0⟩ (Client.ackRequest 2 (.int messageid)) ""), .act (.io ⟨1, 0⟩) {}]

/-- The legacy table holds the text of the first message for user `2`. -/
def legacyUsers : Database :=
  { twoUsers with offlinemessage := [(2, (chatFrame namedRequest (2 ^ 20) 2).dump)] }

/-- User `1` stores its message after the query of the login of user `2`, which lists the
legacy text; user `2` acknowledges it before user `1` looks for a connection. -/
def legacyCues : List (Cue Job Agent Choice) :=
  .start (.frame ⟨0, 0⟩ (Client.loginRequest 1 "pw") "") ::
    List.replicate 10 (.act (.io ⟨0, 0⟩) {}) ++
  .start (.frame ⟨1, 0⟩ (Client.loginRequest 2 "pw") "") ::
    List.replicate 6 (.act (.io ⟨1, 0⟩) {}) ++
  .start (.frame ⟨0, 0⟩ namedRequest "") ::
    List.replicate 5 (.act (.io ⟨0, 0⟩) { clockMs := 1 }) ++
  List.replicate 5 (.act (.io ⟨1, 0⟩) {}) ++
  [.start (.frame ⟨1, 0⟩ (Client.ackRequest 2 (.int (2 ^ 20))) ""), .act (.io ⟨1, 0⟩) {}]

/-- The acknowledgement takes its row from `created` to `acked`. -/
def skips (r r' : MessageRow) : Bool :=
  decide (r.status = MessageStatus.created ∧ r'.messageId = r.messageId ∧
    r'.status = MessageStatus.acked ∧ r'.deliveredAt = none)

/-- A message of the first millisecond after the epoch gets the id `0`, under which the
observer marks nothing. And a legacy text that names the id of a message can be listed and
acknowledged before the message itself has gone out. -/
theorem status_skipped :
    (letI : JsonParser := parserOf [chatFrame namedRequest 0 2]
      ∃ x j ok y r r', AckMove twoUsers x j ok y r r' ∧ skips r r' = true ∧
        twoUsers.offlinemessage = []) ∧
    (letI : JsonParser := parserOf [chatFrame namedRequest (2 ^ 20) 2]
      ∃ x j ok y r r', AckMove legacyUsers x j ok y r r' ∧ skips r r' = true ∧
        0 < r.messageId) := by
  constructor
  · let _ := parserOf [chatFrame namedRequest 0 2]
    obtain ⟨x, j, ok, y, r, r', hmove, hskips⟩ := exists_ackMove twoUsers
      (ackCues 0 4 0) (.io ⟨1, 0⟩) (p := skips) (by decide +kernel)
    exact ⟨x, j, ok, y, r, r', hmove, hskips, rfl⟩
  · let _ := parserOf [chatFrame namedRequest (2 ^ 20) 2]
    obtain ⟨x, j, ok, y, r, r', hmove, hskips⟩ := exists_ackMove legacyUsers
      legacyCues (.io ⟨1, 0⟩) (p := fun r r' => skips r r' && decide (0 < r.messageId))
      (by decide +kernel)
    obtain ⟨hskips, hpos⟩ := Bool.and_eq_true_iff.mp hskips
    exact ⟨x, j, ok, y, r, r', hmove, hskips, of_decide_eq_true hpos⟩

/-- A millisecond later the observer marks the message before the acknowledgement. -/
theorem status_order_ack : letI := parserOf [chatFrame namedRequest (2 ^ 20) 2]
    ∃ x j ok y r r', AckMove twoUsers x j ok y r r' ∧ r.status = MessageStatus.delivered ∧
      StatusInOrder twoUsers x (.did j (.sql (.ackMessage r.messageId r.receiverId)) ok) y := by
  let _ := parserOf [chatFrame namedRequest (2 ^ 20) 2]
  obtain ⟨x, j, ok, y, r, r', hmove, hp⟩ := exists_ackMove twoUsers
    (ackCues 1 5 (2 ^ 20)) (.io ⟨1, 0⟩) (p := fun r _ => decide (r.status = MessageStatus.delivered))
    (by decide +kernel)
  obtain ⟨es, hrun⟩ := hmove.run
  have hdb : ∀ r ∈ twoUsers.chatMessage.rows, r.InOrder := by
    intro r hr
    exact absurd hr List.not_mem_nil
  exact ⟨x, j, ok, y, r, r', hmove, of_decide_eq_true hp,
    status_order hdb hrun hmove.readsBack hmove.move⟩

end ChatCluster
