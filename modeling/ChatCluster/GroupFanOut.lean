import ChatCluster.SqlFailures
import ChatCluster.Client

/-!
# One message to a group

`groupChat` makes one delivery for each other member of the group. What a delivery leaves
behind depends on whether its insert succeeds and on where its receiver is; a run of the
handler is the composition of its deliveries. Every command of the run is recorded.
-/
namespace ChatCluster
open CommandProgram KeyedTable

/-! ## What a log contains -/

namespace Command

/-- The channel and the message of a `PUBLISH`. -/
def published : Command → List (ℤ × String)
  | .redisPublish channel message => [(channel, message)]
  | _ => []

/-- The message id of an insert. -/
def insertedId : Command → List ℤ
  | .sql (.insertMessage messageid _ _ _ _ _) => [messageid]
  | _ => []

end Command

def publications (log : List Command) : List (ℤ × String) := log.flatMap Command.published

def insertedIds (log : List Command) : List ℤ := log.flatMap Command.insertedId

theorem publications_append (log log' : List Command) :
    publications (log ++ log') = publications log ++ publications log' := List.flatMap_append ..

theorem insertedIds_append (log log' : List Command) :
    insertedIds (log ++ log') = insertedIds log ++ insertedIds log' := List.flatMap_append ..

/-- The insert of `MessageModel::insert`. -/
def Statement.IsMessageInsert : Statement → Prop
  | insertMessage _ _ _ _ _ _ => True
  | _ => False

namespace Database

/-- The user is a member of the group. -/
def IsMember (db : Database) (groupid userid : ℤ) : Prop :=
  ∃ row ∈ db.groupuser.rows, row.groupid = groupid ∧ row.userid = userid

theorem isMember_iff (db : Database) (groupid userid : ℤ) :
    db.IsMember groupid userid ↔ (db.groupuser.find? (toLex (groupid, userid))).isSome = true := by
  rw [Option.isSome_iff_exists]
  constructor
  · intro h
    rcases h with ⟨row, hrow, rfl, rfl⟩
    exact ⟨row, Table.find?_eq_some.mpr ⟨hrow, rfl⟩⟩
  · intro h
    rcases h with ⟨row, hrow⟩
    obtain ⟨hmem, hkey⟩ := Table.find?_eq_some.mp hrow
    have hpair : (row.groupid, row.userid) = (groupid, userid) := toLex_inj.mp hkey
    exact ⟨row, hmem, (Prod.mk.inj hpair).1, (Prod.mk.inj hpair).2⟩

/-- A member of the group gets the other members. -/
theorem mem_selectGroupUserIds {db : Database} {userid groupid : ℤ}
    (h : db.IsMember groupid userid) (m : ℤ) :
    m ∈ db.selectGroupUserIds userid groupid ↔ db.IsMember groupid m ∧ m ≠ userid := by
  rw [selectGroupUserIds, if_pos ((db.isMember_iff groupid userid).mp h), List.mem_map]
  constructor
  · intro h
    rcases h with ⟨row, hrow, rfl⟩
    simp only [Table.mem_select, Bool.and_eq_true, decide_eq_true_eq] at hrow
    exact ⟨⟨row, hrow.1, hrow.2.1, rfl⟩, hrow.2.2⟩
  · intro h
    rcases h with ⟨⟨row, hrow, rfl, rfl⟩, hne⟩
    exact ⟨row, by simp [hrow, hne], rfl⟩

/-- No member is listed twice. -/
theorem nodup_selectGroupUserIds (db : Database) (userid groupid : ℤ) :
    (db.selectGroupUserIds userid groupid).Nodup := by
  unfold selectGroupUserIds
  split_ifs
  · refine List.Nodup.map_on ?_ (db.groupuser.nodup.filter _)
    intro a ha b hb hab
    simp only [Table.mem_select, Bool.and_eq_true, decide_eq_true_eq] at ha hb
    refine db.groupuser.key_injOn ha.1 hb.1 ?_
    rw [GroupUserRow.key, GroupUserRow.key, ha.2.1, hb.2.1, hab]
  · exact List.nodup_nil

/-- A row is inserted and then marked. -/
theorem mem_insert_markDelivered {db : Database} {row : MessageRow}
    {t : Table MessageRow.messageId} (ht : db.chatMessage.insert row = some t)
    (hstatus : row.status < MessageStatus.acked) (r : MessageRow) :
    r ∈ ({ db with chatMessage := t }.markDelivered row.messageId row.receiverId).chatMessage.rows ↔
      r ∈ db.chatMessage.rows ∨ r = row.markDelivered db.now := by
  rw [mem_markDelivered]
  constructor
  · intro h
    rcases h with ⟨x, hx, rfl⟩
    rcases (Table.mem_insert ht).mp hx with rfl | hold
    · exact .inr (if_pos ⟨rfl, rfl, hstatus⟩)
    · rw [if_neg fun h => Table.fresh_of_insert ht x hold h.1]
      exact .inl hold
  · rintro (hold | rfl)
    · refine ⟨r, (Table.mem_insert ht).mpr (.inr hold), ?_⟩
      exact if_neg fun h => Table.fresh_of_insert ht r hold h.1
    · exact ⟨row, (Table.mem_insert ht).mpr (.inl rfl), if_pos ⟨rfl, rfl, hstatus⟩⟩

end Database

/-! ## Deliveries -/

/-- A stamped message for one receiver. -/
structure Delivery where
  messageid : ℤ
  receiverid : ℤ
  js : Json

/-- The message of an iteration of `groupChat`. -/
def Delivery.ofMember (js : Json) (id messageid : ℤ) : Delivery where
  messageid := messageid
  receiverid := id
  js := stampGroupChat js messageid id

/-- Who sends to which group, and which statements succeed. -/
structure Sending where
  node : ℕ
  senderid : ℤ
  groupid : ℤ
  msgtype : EnMsgType
  ok : Statement → Bool

namespace Sending

/-- The deliveries of a group message. -/
def ofGroupChat (conn : Conn) (senderid groupid : ℤ) (ok : Statement → Bool) : Sending where
  node := conn.node
  senderid := senderid
  groupid := groupid
  msgtype := .groupChatMsg
  ok := ok

variable (S : Sending)

/-- The insert of a delivery. -/
def insertion (d : Delivery) : Statement :=
  .insertMessage d.messageid S.senderid d.receiverid S.groupid S.msgtype.code d.js.dump

/-- The insert of a delivery succeeds. -/
def Stores (d : Delivery) : Prop := S.ok (S.insertion d) = true

instance (d : Delivery) : Decidable (S.Stores d) := inferInstanceAs (Decidable (_ = _))

/-- The row of a delivery as it is inserted. -/
def newRow (d : Delivery) : MessageRow :=
  Statement.newMessage d.messageid S.senderid d.receiverid S.groupid S.msgtype.code d.js.dump

/-- The row of a delivery in the end: it is marked when the receiver is bound here. -/
def row (w : World) (d : Delivery) : MessageRow :=
  if w.bound S.node d.receiverid = none then S.newRow d
  else (S.newRow d).markDelivered w.db.now

/-- The delivery hands a frame to the connection. -/
def HandsTo (w : World) (c : Conn) (d : Delivery) : Prop :=
  S.Stores d ∧ w.bound S.node d.receiverid = some c

instance (w : World) (c : Conn) (d : Delivery) : Decidable (S.HandsTo w c d) :=
  inferInstanceAs (Decidable (_ ∧ _))

/-- The delivery is published. -/
def Forwards (w : World) (d : Delivery) : Prop :=
  S.Stores d ∧ w.bound S.node d.receiverid = none ∧
    w.db.userState d.receiverid = some .online ∧ (w.node S.node).redisConnected = true

instance (w : World) (d : Delivery) : Decidable (S.Forwards w d) :=
  inferInstanceAs (Decidable (_ ∧ _ ∧ _ ∧ _))

/-- What deliveries do not change. -/
structure Keeps (w w' : World) : Prop where
  tables : { w'.db with chatMessage := w.db.chatMessage } = w.db
  maps : ∀ n, (w'.node n).userConnMap = (w.node n).userConnMap
  redis : ∀ n, (w'.node n).redisConnected = (w.node n).redisConnected

/-- From one state and log to another: the rows that have been gained, the frames that
have been handed over and the messages that have been published are those of `ds`. -/
structure FanOut (ds : List Delivery) (w : World) (log : List Command) (w' : World)
    (log' : List Command) : Prop where
  rows : ∀ r, r ∈ w'.db.chatMessage.rows ↔
    r ∈ w.db.chatMessage.rows ∨ ∃ d ∈ ds, S.Stores d ∧ r = S.row w d
  frames : ∀ c, w'.out c = w.out c ++
    (ds.filter fun d => S.HandsTo w c d).map fun d => .json d.js
  publishes : publications log' = publications log ++
    (ds.filter fun d => S.Forwards w d).map fun d => (d.receiverid, d.js.dump)
  kept : Keeps w w'

/-- The row of a delivery has been inserted, and nothing has been done with it yet. -/
structure Inserted (d : Delivery) (w : World) (log : List Command) (w' : World)
    (log' : List Command) : Prop where
  row : ∃ t, w.db.chatMessage.insert (S.newRow d) = some t ∧
    w'.db = { w.db with chatMessage := t }
  out : w'.out = w.out
  publishes : publications log' = publications log
  kept : Keeps w w'

variable {S}

/-- An insert under a new id does what it is told. -/
theorem exec_insertion {d : Delivery} {db : Database} (hstored : S.Stores d)
    (hfresh : db.chatMessage.find? d.messageid = none) :
    ∃ t, db.chatMessage.insert (S.newRow d) = some t ∧
      (S.insertion d).exec (S.ok (S.insertion d)) db = (true, { db with chatMessage := t }) := by
  obtain ⟨t, ht⟩ := Table.exists_insert_of_find?_none (r := S.newRow d) hfresh
  have hinsert : db.insertMessage (S.newRow d) = some { db with chatMessage := t } :=
    Option.map_eq_some_iff.mpr ⟨t, ht, rfl⟩
  refine ⟨t, ht, ?_⟩
  rw [newRow] at hinsert
  rw [hstored, Statement.exec_true]
  simp only [insertion, Statement.run, hinsert]
  rfl

theorem Keeps.refl (w : World) : Keeps w w := ⟨rfl, fun _ => rfl, fun _ => rfl⟩

theorem Keeps.bound {w w' : World} (h : Keeps w w') (n : ℕ) (u : ℤ) :
    w'.bound n u = w.bound n u := by
  rw [World.bound, h.maps, World.bound]

theorem Keeps.now {w w' : World} (h : Keeps w w') : w'.db.now = w.db.now := by
  have hnow := congrArg Database.now h.tables
  exact hnow

theorem Keeps.userState {w w' : World} (h : Keeps w w') (u : ℤ) :
    w'.db.userState u = w.db.userState u := by
  have hstate := congrArg (fun db => db.userState u) h.tables
  exact hstate

theorem Keeps.trans {w₁ w₂ w₃ : World} (h : Keeps w₁ w₂) (h' : Keeps w₂ w₃) : Keeps w₁ w₃ := by
  refine ⟨?_, fun n => (h'.maps n).trans (h.maps n), fun n => (h'.redis n).trans (h.redis n)⟩
  have hlater := congrArg (fun db => { db with chatMessage := w₁.db.chatMessage }) h'.tables
  exact hlater.trans h.tables

theorem messageId_row (w : World) (d : Delivery) : (S.row w d).messageId = d.messageid := by
  unfold row
  split_ifs <;> rfl

theorem row_of_keeps {w w' : World} (h : Keeps w w') : S.row w' = S.row w := by
  funext d
  rw [row, row, h.bound, h.now]

theorem handsTo_of_keeps {w w' : World} (h : Keeps w w') : S.HandsTo w' = S.HandsTo w := by
  funext c d
  rw [HandsTo, HandsTo, h.bound]

theorem forwards_of_keeps {w w' : World} (h : Keeps w w') : S.Forwards w' = S.Forwards w := by
  funext d
  rw [Forwards, Forwards, h.bound, h.userState, h.redis]

theorem FanOut.nil (w : World) (log : List Command) : S.FanOut [] w log w log := by
  refine ⟨?_, ?_, ?_, .refl w⟩
  · simp
  · simp
  · simp

/-- Deliveries one after another. -/
theorem FanOut.append {ds ds' : List Delivery} {w₁ w₂ w₃ : World} {log₁ log₂ log₃ : List Command}
    (h : S.FanOut ds w₁ log₁ w₂ log₂) (h' : S.FanOut ds' w₂ log₂ w₃ log₃) :
    S.FanOut (ds ++ ds') w₁ log₁ w₃ log₃ := by
  constructor
  · intro r
    rw [h'.rows, h.rows, row_of_keeps h.kept]
    simp only [List.mem_append, or_and_right, exists_or, or_assoc]
  · intro c
    simp only [h'.frames, h.frames, handsTo_of_keeps h.kept, List.filter_append, List.map_append,
      List.append_assoc]
  · simp only [h'.publishes, h.publishes, forwards_of_keeps h.kept, List.filter_append,
      List.map_append, List.append_assoc]
  · exact h.kept.trans h'.kept

end Sending

/-! ## Runs -/

section Runs
variable {a : Agent} {ok : Statement → Bool} {w w' : World} {log log' : List Command}

/-- A step of a handler, recorded. -/
abbrev LogStep (a : Agent) (ok : Statement → Bool) := Prog.Recorded (C := Command) (SqlStep a ok)

theorem logged_sql {q : Statement} {r : q.Answer}
    (h : (sql q).Runs (LogStep a ok) (w, log) r (w', log')) :
    r = (q.exec (ok q) w.db).1 ∧ w' = { w with db := (q.exec (ok q) w.db).2 } ∧
      log' = log ++ [.sql q] := by
  obtain ⟨hstep, hlog⟩ := Prog.runs_perform.mp h
  obtain ⟨hr, hw⟩ := sqlStep_sql.mp hstep
  exact ⟨hr, hw, hlog⟩

theorem logged_node {q : NodeOp} {r : q.Answer}
    (h : (node q).Runs (LogStep a ok) (w, log) r (w', log')) :
    (∃ o s', q.exec o a (w.node a.node) = some (r, s') ∧ w' = w.setNode a.node s') ∧
      log' = log ++ [.node q] := by
  obtain ⟨⟨o, -, ho⟩, hlog⟩ := Prog.runs_perform.mp h
  obtain ⟨s', hs, hw⟩ := exec_node ho
  exact ⟨⟨o, s', hs, hw⟩, hlog⟩

theorem logged_sendJson {conn : Conn} {js : Json} {u : Unit}
    (h : (sendJson conn js).Runs (LogStep a ok) (w, log) u (w', log')) :
    w' = w.emit conn (.json js) ∧ log' = log ++ [.sendTo conn (.json js)] := by
  obtain ⟨⟨o, -, ho⟩, hlog⟩ := Prog.runs_perform.mp h
  exact ⟨exec_sendTo ho, hlog⟩

theorem logged_publish {channel : ℤ} {message : String} {r : Bool}
    (h : (publish channel message).Runs (LogStep a ok) (w, log) r (w', log')) :
    w' = (if r then w.publish channel (cStr message) else w) ∧
      log' = log ++ [.redisPublish channel message] := by
  obtain ⟨⟨o, -, ho⟩, hlog⟩ := Prog.runs_perform.mp h
  exact ⟨exec_redisPublish ho, hlog⟩

theorem User.ofRow_online (row : Option UserRow) :
    (User.ofRow row).state = .online ↔ row.map UserRow.state = some .online := by
  cases row with
  | none => simp [User.ofRow]
  | some row => simp [User.ofRow]

theorem keeps_setNode {n : ℕ} {s : NodeState} (hmap : s.userConnMap = (w.node n).userConnMap)
    (hredis : s.redisConnected = (w.node n).redisConnected) : Sending.Keeps w (w.setNode n s) := by
  refine ⟨rfl, fun k => ?_, fun k => ?_⟩
  · rw [World.node_setNode]
    split_ifs with hk
    · rw [hk, hmap]
    · rfl
  · rw [World.node_setNode]
    split_ifs with hk
    · rw [hk, hredis]
    · rfl

theorem keeps_publish {channel : ℤ} {message : String} {r : Bool}
    (h : w' = if r then w.publish channel message else w) : Sending.Keeps w w' := by
  subst h
  split_ifs
  · exact ⟨rfl, fun _ => World.userConnMap_publish .., fun _ => World.redisConnected_publish ..⟩
  · exact .refl w

theorem logged_userQuery {id : ℤ} {user : User} (hok : ok (.selectUser id) = true)
    (h : (UserModel.query id).Runs (LogStep a ok) (w, log) user (w', log')) :
    user = User.ofRow (w.db.selectUser id) ∧ w' = w ∧ log' = log ++ [.sql (.selectUser id)] := by
  obtain ⟨row, ⟨w₁, log₁⟩, hselect, hret⟩ := Prog.runs_bind.mp h
  obtain ⟨hrow, hw, rfl⟩ := logged_sql hselect
  rw [hok] at hrow hw
  obtain ⟨rfl, hret⟩ := hret
  cases hret
  exact ⟨congrArg User.ofRow hrow, hw, rfl⟩

theorem logged_redisIsConnected {r : Bool}
    (h : redisIsConnected.Runs (LogStep a ok) (w, log) r (w', log')) :
    r = (w.node a.node).redisConnected ∧ w' = w ∧ log' = log ++ [.node .redisIsConnected] := by
  obtain ⟨⟨o, s', hs, rfl⟩, hlog⟩ := logged_node h
  cases hs
  exact ⟨rfl, World.setNode_node .., hlog⟩

/-- The rest of a delivery to a receiver who is bound here. -/
theorem logged_handOver {conn : Conn} {js : Json} {messageid receiverid : ℤ} {u : Unit}
    (hok : ok (.markDelivered messageid receiverid) = true)
    (h : (do sendJson conn js
             let _ ← MessageModel.markDelivered messageid receiverid
             node .unlockConnMutex : Program Unit).Runs (LogStep a ok) (w, log) u (w', log')) :
    w' = { (w.emit conn (.json js)).setNode a.node { w.node a.node with connMutex := none } with
        db := w.db.markDelivered messageid receiverid } ∧
      publications log' = publications log ∧ insertedIds log' = insertedIds log := by
  obtain ⟨_, ⟨w₁, log₁⟩, hsend, h⟩ := Prog.runs_bind.mp h
  obtain ⟨rfl, rfl⟩ := logged_sendJson hsend
  obtain ⟨_, ⟨w₂, log₂⟩, hmark, hunlock⟩ := Prog.runs_bind.mp h
  obtain ⟨-, rfl, rfl⟩ := logged_sql hmark
  obtain ⟨⟨o, s', hs, rfl⟩, rfl⟩ := logged_node hunlock
  cases hs
  refine ⟨?_, ?_, ?_⟩
  · rw [hok]
    rfl
  · simp only [publications_append]
    simp [publications, Command.published]
  · simp only [insertedIds_append]
    simp [insertedIds, Command.insertedId]

/-- The rest of a delivery to a receiver who is not bound here. -/
theorem logged_forward {channel : ℤ} {message : String} {u : Unit}
    (hok : ok (.selectUser channel) = true)
    (h : (do node .unlockConnMutex
             let user ← UserModel.query channel
             if user.state = .online then
               if ← redisIsConnected then
                 let _ ← publish channel message : Program Unit).Runs (LogStep a ok)
      (w, log) u (w', log')) :
    w'.db = w.db ∧ w'.out = w.out ∧ Sending.Keeps w w' ∧
      publications log' = publications log ++
        (if w.db.userState channel = some .online ∧ (w.node a.node).redisConnected = true then
          [(channel, message)] else []) ∧
      insertedIds log' = insertedIds log := by
  obtain ⟨_, ⟨w₁, log₁⟩, hunlock, h⟩ := Prog.runs_bind.mp h
  obtain ⟨⟨o, s', hs, hw₁⟩, rfl⟩ := logged_node hunlock
  cases hs
  obtain ⟨user, ⟨w₂, log₂⟩, hquery, h⟩ := Prog.runs_bind.mp h
  obtain ⟨rfl, hw₂, rfl⟩ := logged_userQuery hok hquery
  subst hw₂
  have hkept : Sending.Keeps w w₂ := hw₁ ▸ keeps_setNode rfl rfl
  have hdb : w₂.db = w.db := by rw [hw₁, World.db_setNode]
  have hout : w₂.out = w.out := by rw [hw₁, World.out_setNode]
  have hstate : (User.ofRow (w₂.db.selectUser channel)).state = .online ↔
      w.db.userState channel = some .online := by
    rw [hdb]
    exact User.ofRow_online _
  have hredis : (w₂.node a.node).redisConnected = (w.node a.node).redisConnected := hkept.redis _
  split_ifs at h with honline
  · obtain ⟨r, ⟨w₃, log₃⟩, hconnected, h⟩ := Prog.runs_bind.mp h
    obtain ⟨rfl, hw₃, rfl⟩ := logged_redisIsConnected hconnected
    subst hw₃
    rw [hredis] at h
    split_ifs at h with hup
    · obtain ⟨r, ⟨w₄, log₄⟩, hpublish, hret⟩ := Prog.runs_bind.mp h
      obtain ⟨hw₄, rfl⟩ := logged_publish hpublish
      obtain ⟨-, hret⟩ := hret
      cases hret
      rw [if_pos ⟨hstate.mp honline, hup⟩]
      refine ⟨?_, ?_, hkept.trans (keeps_publish hw₄), ?_, ?_⟩
      · rw [← hdb, hw₄]
        split_ifs <;> rfl
      · rw [← hout, hw₄]
        split_ifs <;> rfl
      · simp [publications, Command.published]
      · simp [insertedIds, Command.insertedId]
    · obtain ⟨-, hret⟩ := h
      cases hret
      rw [if_neg fun hboth => hup hboth.2]
      refine ⟨hdb, hout, hkept, ?_, ?_⟩
      · simp [publications, Command.published]
      · simp [insertedIds, Command.insertedId]
  · obtain ⟨-, hret⟩ := h
    cases hret
    rw [if_neg fun hboth => honline (hstate.mpr hboth.1)]
    refine ⟨hdb, hout, hkept, ?_, ?_⟩
    · simp [publications, Command.published]
    · simp [insertedIds, Command.insertedId]

theorem logged_lockConnMutex {u : Unit}
    (h : (node .lockConnMutex).Runs (LogStep a ok) (w, log) u (w', log')) :
    w'.db = w.db ∧ w'.out = w.out ∧ Sending.Keeps w w' ∧ log' = log ++ [.node .lockConnMutex] := by
  obtain ⟨⟨o, s', hs, rfl⟩, hlog⟩ := logged_node h
  simp only [NodeOp.exec] at hs
  split_ifs at hs
  cases hs
  exact ⟨World.db_setNode .., World.out_setNode .., keeps_setNode rfl rfl, hlog⟩

theorem logged_mapFind {userid : ℤ} {found : Option Conn}
    (h : (node (.mapFind userid)).Runs (LogStep a ok) (w, log) found (w', log')) :
    found = w.bound a.node userid ∧ w' = w ∧ log' = log ++ [.node (.mapFind userid)] := by
  obtain ⟨⟨o, s', hs, hw⟩, hlog⟩ := logged_node h
  cases hs
  exact ⟨rfl, hw.trans (World.setNode_node ..), hlog⟩

section Delivery
variable {S : Sending} {d : Delivery} {conn : Conn} {w₁ : World} {log₁ : List Command} {u : Unit}

/-- A delivery whose receiver is bound here. -/
theorem fanOut_handOver (hin : S.Inserted d w log w₁ log₁) (hstored : S.Stores d)
    (hbound : w.bound S.node d.receiverid = some conn)
    (hok : ok (.markDelivered d.messageid d.receiverid) = true)
    (h : (do sendJson conn d.js
             let _ ← MessageModel.markDelivered d.messageid d.receiverid
             node .unlockConnMutex : Program Unit).Runs (LogStep a ok) (w₁, log₁) u (w', log')) :
    S.FanOut [d] w log w' log' := by
  obtain ⟨t, ht, hdb⟩ := hin.row
  obtain ⟨hw', hpub, -⟩ := logged_handOver hok h
  have hrow : S.row w d = (S.newRow d).markDelivered w.db.now := by
    rw [Sending.row, if_neg (by rw [hbound]; simp)]
  constructor
  · intro r
    have hstatus : (S.newRow d).status < MessageStatus.acked :=
      show MessageStatus.created < MessageStatus.acked by decide
    have hmarked := Database.mem_insert_markDelivered ht hstatus r
    rw [← hdb] at hmarked
    simp only [List.mem_singleton, exists_eq_left, hrow, hstored, true_and]
    rw [hw']
    exact hmarked
  · intro c
    have hemit : w'.out c = (w₁.emit conn (.json d.js)).out c := by rw [hw', World.out_setNode]
    rw [hemit]
    by_cases hc : c = conn
    · subst hc
      rw [World.out_emit_self, hin.out]
      simp [Sending.HandsTo, hstored, hbound]
    · rw [World.out_emit_ne hc, hin.out]
      simp [Sending.HandsTo, hbound, Ne.symm hc]
  · rw [hpub, hin.publishes]
    simp [Sending.Forwards, hbound]
  · have hunlocked : Sending.Keeps w₁ (w₁.setNode a.node
        { w₁.node a.node with connMutex := none }) := keeps_setNode rfl rfl
    refine hin.kept.trans ?_
    rw [hw']
    exact ⟨rfl, hunlocked.maps, hunlocked.redis⟩

/-- A delivery whose receiver is not bound here. -/
theorem fanOut_forward (hin : S.Inserted d w log w₁ log₁) (hstored : S.Stores d)
    (hnode : S.node = a.node) (hbound : w.bound S.node d.receiverid = none)
    (hok : ok (.selectUser d.receiverid) = true)
    (h : (do node .unlockConnMutex
             let user ← UserModel.query d.receiverid
             if user.state = .online then
               if ← redisIsConnected then
                 let _ ← publish d.receiverid d.js.dump : Program Unit).Runs (LogStep a ok)
      (w₁, log₁) u (w', log')) :
    S.FanOut [d] w log w' log' := by
  obtain ⟨t, ht, hdb⟩ := hin.row
  obtain ⟨hdb', hout', hkept, hpub, -⟩ := logged_forward hok h
  have hrow : S.row w d = S.newRow d := by
    rw [Sending.row, if_pos hbound]
  constructor
  · intro r
    rw [hdb', hdb]
    simp only [List.mem_singleton, exists_eq_left, hrow, hstored, true_and]
    rw [Table.mem_insert ht, or_comm]
  · intro c
    rw [hout', hin.out]
    simp [Sending.HandsTo, hbound]
  · have hforwards : S.Forwards w d ↔ w.db.userState d.receiverid = some .online ∧
        (w.node a.node).redisConnected = true := by
      rw [Sending.Forwards, hnode]
      exact ⟨fun h => h.2.2, fun h => ⟨hstored, hnode ▸ hbound, h⟩⟩
    rw [hpub, hin.publishes, hin.kept.userState, hin.kept.redis]
    simp only [← hforwards]
    by_cases hf : S.Forwards w d
    · simp [hf]
    · simp [hf]
  · exact hin.kept.trans hkept

/-- A delivery whose insert fails. -/
theorem fanOut_unstored (hstored : ¬ S.Stores d)
    (hlog : publications log' = publications log) : S.FanOut [d] w log w log' := by
  constructor
  · simp [hstored]
  · simp [Sending.HandsTo, hstored]
  · simp [hlog, Sending.Forwards, hstored]
  · exact .refl w

/-- One delivery. -/
theorem fanOut_persistAndDeliver (hnode : S.node = a.node)
    (hok : ∀ q : Statement, ¬ q.IsMessageInsert → S.ok q = true)
    (hfresh : w.db.chatMessage.find? d.messageid = none)
    (h : (persistAndDeliver d.messageid S.senderid d.receiverid S.groupid S.msgtype d.js).Runs
      (LogStep a S.ok) (w, log) u (w', log')) :
    S.FanOut [d] w log w' log' := by
  obtain ⟨inserted, ⟨w₁, log₁⟩, hinsert, hrest⟩ := Prog.runs_bind.mp h
  obtain ⟨hinserted, hw₁, rfl⟩ := logged_sql (q := S.insertion d) hinsert
  by_cases hstored : S.Stores d
  · obtain ⟨t, ht, hexec⟩ := Sending.exec_insertion hstored hfresh
    rw [hexec] at hinserted hw₁
    obtain rfl : inserted = true := hinserted
    rw [if_pos rfl] at hrest
    have hkept₁ : Sending.Keeps w w₁ := by
      rw [hw₁]
      exact ⟨rfl, fun _ => rfl, fun _ => rfl⟩
    obtain ⟨_, ⟨w₂, log₂⟩, hlock, hrest⟩ := Prog.runs_bind.mp hrest
    obtain ⟨hdb₂, hout₂, hkept₂, rfl⟩ := logged_lockConnMutex hlock
    obtain ⟨found, ⟨w₃, log₃⟩, hfind, hrest⟩ := Prog.runs_bind.mp hrest
    obtain ⟨hfound, rfl, rfl⟩ := logged_mapFind hfind
    have hin : S.Inserted d w log w₃ (log ++ [.sql (S.insertion d)] ++ [.node .lockConnMutex] ++
        [.node (.mapFind d.receiverid)]) := by
      constructor
      · exact ⟨t, ht, by rw [hdb₂, hw₁]⟩
      · rw [hout₂, hw₁]
      · simp [publications, Command.published]
      · exact hkept₁.trans hkept₂
    rw [hin.kept.bound, ← hnode] at hfound
    cases hbound : w.bound S.node d.receiverid with
    | some conn =>
        obtain rfl := hfound.trans hbound
        exact fanOut_handOver hin hstored hbound (hok _ not_false) hrest
    | none =>
        obtain rfl := hfound.trans hbound
        exact fanOut_forward hin hstored hnode hbound (hok _ not_false) hrest
  · have hexec : (S.insertion d).exec (S.ok (S.insertion d)) w.db = (false, w.db) := by
      rw [Bool.eq_false_iff.mpr hstored]
      rfl
    rw [hexec] at hinserted hw₁
    obtain rfl : inserted = false := hinserted
    obtain rfl : w₁ = w := hw₁
    rw [if_neg (by decide)] at hrest
    obtain ⟨-, hret⟩ := hrest
    cases hret
    exact fanOut_unstored hstored (by simp [publications, Command.published])

end Delivery

/-- A delivery issues one insert. -/
theorem insertedIds_persistAndDeliver {S : Sending} {d : Delivery} {u : Unit}
    (h : (persistAndDeliver d.messageid S.senderid d.receiverid S.groupid S.msgtype d.js).Runs
      (LogStep a ok) (w, log) u (w', log')) :
    insertedIds log' = insertedIds log ++ [d.messageid] := by
  obtain ⟨inserted, ⟨w₁, log₁⟩, hinsert, hrest⟩ := Prog.runs_bind.mp h
  obtain ⟨-, -, rfl⟩ := logged_sql (q := S.insertion d) hinsert
  have hfirst : insertedIds (log ++ [.sql (S.insertion d)]) = insertedIds log ++ [d.messageid] := by
    simp [insertedIds, Command.insertedId, Sending.insertion]
  rw [← hfirst]
  refine hrest.frame (fun t => insertedIds t.2) (P := fun c => c.insertedId = []) ?_
    fun c s r s' hc hs => ?_
  · split_ifs
    · refine Prog.All.bind ⟨rfl, fun _ => trivial⟩ fun _ => ?_
      refine Prog.All.bind ⟨rfl, fun _ => trivial⟩ fun found => ?_
      cases found with
      | some receiver => exact ⟨rfl, fun _ => ⟨rfl, fun _ => ⟨rfl, fun _ => trivial⟩⟩⟩
      | none =>
          refine Prog.All.bind ⟨rfl, fun _ => trivial⟩ fun _ => ?_
          refine Prog.All.bind ⟨rfl, fun _ => trivial⟩ fun user => ?_
          split_ifs
          · refine Prog.All.bind ⟨rfl, fun _ => trivial⟩ fun _ => ?_
            split_ifs
            · exact ⟨rfl, fun _ => trivial⟩
            · trivial
          · trivial
    · trivial
  · rw [hs.2, insertedIds_append]
    simp [insertedIds, hc]

/-- Drawing an id is seen in no table, at no connection and in no publication. -/
theorem fanOut_generateMessageId (S : Sending) {messageid : ℤ}
    (h : generateMessageId.Runs (LogStep a ok) (w, log) messageid (w', log')) :
    S.FanOut [] w log w' log' ∧ insertedIds log' = insertedIds log := by
  obtain ⟨now, ⟨w₁, log₁⟩, hclock, h₁⟩ := Prog.runs_bind.mp h
  obtain ⟨⟨o₁, s₁, hs₁, rfl⟩, rfl⟩ := logged_node hclock
  cases hs₁
  obtain ⟨pid, ⟨w₂, log₂⟩, hpid, h₂⟩ := Prog.runs_bind.mp h₁
  obtain ⟨⟨o₂, s₂, hs₂, rfl⟩, rfl⟩ := logged_node hpid
  cases hs₂
  obtain ⟨seq, ⟨w₃, log₃⟩, hseq, h₃⟩ := Prog.runs_bind.mp h₂
  obtain ⟨⟨o₃, s₃, hs₃, hw₃⟩, rfl⟩ := logged_node hseq
  cases hs₃
  obtain ⟨-, hret⟩ := h₃
  cases hret
  simp only [World.setNode_node] at hw₃
  refine ⟨⟨?_, ?_, ?_, ?_⟩, ?_⟩
  · simp [hw₃]
  · simp [hw₃]
  · simp [publications, Command.published]
  · rw [hw₃]
    exact keeps_setNode rfl rfl
  · simp [insertedIds, Command.insertedId]

/-- An iteration of the loop over the members. -/
theorem fanOut_groupChatMember {S : Sending} {js : Json} {id : ℤ} {u : Unit}
    (hnode : S.node = a.node) (htype : S.msgtype = .groupChatMsg)
    (hok : ∀ q : Statement, ¬ q.IsMessageInsert → S.ok q = true)
    (h : (groupChatMember S.senderid S.groupid js id).Runs (LogStep a S.ok) (w, log) u
      (w', log')) :
    ∃ messageid, insertedIds log' = insertedIds log ++ [messageid] ∧
      (w.db.chatMessage.find? messageid = none →
        S.FanOut [.ofMember js id messageid] w log w' log') := by
  obtain ⟨messageid, ⟨w₁, log₁⟩, hdraw, hdeliver⟩ := Prog.runs_bind.mp h
  obtain ⟨hquiet, hids⟩ := fanOut_generateMessageId S hdraw
  rw [← htype] at hdeliver
  refine ⟨messageid, ?_, fun hfresh => ?_⟩
  · rw [insertedIds_persistAndDeliver (d := .ofMember js id messageid) hdeliver, hids]
    rfl
  · have hfresh₁ : w₁.db.chatMessage.find? messageid = none := by
      rw [Table.find?_eq_none] at hfresh ⊢
      intro r hr
      rcases (hquiet.rows r).mp hr with hold | ⟨d, hd, -⟩
      · exact hfresh r hold
      · cases hd
    exact hquiet.append (fanOut_persistAndDeliver (d := .ofMember js id messageid) hnode hok
      hfresh₁ hdeliver)

/-- The loop over the members: one delivery for each, in their order, under the ids that
the inserts of the run carry. -/
theorem fanOut_members {S : Sending} {js : Json} {ids : List ℤ} {u : Unit}
    (hnode : S.node = a.node) (htype : S.msgtype = .groupChatMsg)
    (hok : ∀ q : Statement, ¬ q.IsMessageInsert → S.ok q = true)
    (h : (ids.forM (groupChatMember S.senderid S.groupid js)).Runs (LogStep a S.ok) (w, log) u
      (w', log')) :
    ∃ ds : List Delivery, ds.map Delivery.receiverid = ids ∧
      (∀ d ∈ ds, d = .ofMember js d.receiverid d.messageid) ∧
      insertedIds log' = insertedIds log ++ ds.map Delivery.messageid ∧
      ((ds.map Delivery.messageid).Nodup →
        (∀ d ∈ ds, w.db.chatMessage.find? d.messageid = none) → S.FanOut ds w log w' log') := by
  induction ids generalizing w log with
  | nil =>
      obtain ⟨-, hret⟩ := h
      cases hret
      exact ⟨[], rfl, by simp, by simp, fun _ _ => .nil _ _⟩
  | cons id ids ih =>
      obtain ⟨_, ⟨w₁, log₁⟩, hmember, hrest⟩ := Prog.runs_bind.mp h
      obtain ⟨messageid, hid, hfirst⟩ := fanOut_groupChatMember hnode htype hok hmember
      obtain ⟨ds, hreceivers, hform, hids, htail⟩ := ih hrest
      refine ⟨.ofMember js id messageid :: ds, ?_, ?_, ?_, ?_⟩
      · rw [List.map_cons, hreceivers]
        rfl
      · intro d hd
        rcases List.mem_cons.mp hd with rfl | hd
        · rfl
        · exact hform d hd
      · rw [hids, hid, List.map_cons, List.append_assoc]
        rfl
      · intro hnodup hfresh
        rw [List.map_cons, List.nodup_cons] at hnodup
        have hone := hfirst (hfresh _ List.mem_cons_self)
        -- the first insert takes an id that no later one carries
        have hfresh₁ : ∀ d ∈ ds, w₁.db.chatMessage.find? d.messageid = none := by
          intro d hd
          have hold := Table.find?_eq_none.mp (hfresh d (List.mem_cons_of_mem _ hd))
          rw [Table.find?_eq_none]
          intro r hr hkey
          rcases (hone.rows r).mp hr with hr | ⟨d', hd', -, rfl⟩
          · exact hold r hr hkey
          · rw [List.mem_singleton] at hd'
            subst hd'
            rw [Sending.messageId_row] at hkey
            exact hnodup.1 (List.mem_map.mpr ⟨d, hd, hkey.symm⟩)
        exact hone.append (htail hnodup.2 hfresh₁)

theorem find?_stampGroupChat {js : Json} (hjs : js.IsObject) (messageid id : ℤ) :
    (stampGroupChat js messageid id).find? "toid" = some (.int id) ∧
      (stampGroupChat js messageid id).find? "messageid" = some (.int messageid) := by
  constructor
  · rw [stampGroupChat, Json.find?_set_ne _ (by decide),
      Json.find?_set_self (Json.isObject_set hjs _ _)]
  · rw [stampGroupChat, Json.find?_set_ne _ (by decide), Json.find?_set_ne _ (by decide),
      Json.find?_set_self hjs]

/-- A message to a group of which its sender is no member changes nothing. A member's
message makes one delivery for each other member, under the receiver's own id. -/
theorem group_fan_out_exact (conn : Conn) (js : Json) (ok : Statement → Bool)
    (senderid groupid : ℤ) (msg : String) (w w' : World) (log : List Command)
    (hid : getInt js "id" = some senderid) (hgroup : getInt js "groupid" = some groupid)
    (hmsg : getString js "msg" = some msg) (hbound : w.bound conn.node senderid = some conn)
    (hok : ∀ q : Statement, ¬ q.IsMessageInsert → ok q = true)
    (hdistinct : (insertedIds log).Nodup)
    (hfresh : ∀ messageid ∈ insertedIds log, w.db.chatMessage.find? messageid = none)
    (hrun : (groupChat conn js).Runs (LogStep (.io conn) ok) (w, []) () (w', log)) :
    (¬ w.db.IsMember groupid senderid → w' = w ∧ publications log = []) ∧
    (w.db.IsMember groupid senderid → ∃ ds : List Delivery,
      (ds.map Delivery.receiverid).Nodup ∧
      (∀ m, m ∈ ds.map Delivery.receiverid ↔ w.db.IsMember groupid m ∧ m ≠ senderid) ∧
      insertedIds log = ds.map Delivery.messageid ∧
      (∀ d ∈ ds, d.js = stampGroupChat js d.messageid d.receiverid ∧
        d.js.find? "toid" = some (.int d.receiverid) ∧
        d.js.find? "messageid" = some (.int d.messageid)) ∧
      (Sending.ofGroupChat conn senderid groupid ok).FanOut ds w [] w' log) := by
  rw [groupChat, hid, hgroup, hmsg] at hrun
  obtain ⟨bound, ⟨w₁, log₁⟩, hcheck, hrest⟩ := Prog.runs_bind.mp hrun
  obtain ⟨⟨o, s', hs, hw₁⟩, rfl⟩ := logged_node hcheck
  obtain ⟨rfl, hb⟩ := NodeOp.exec_mapIsBound hs
  obtain rfl : w₁ = w := hw₁.trans (World.setNode_node ..)
  rw [if_pos (hb.mpr hbound)] at hrest
  obtain ⟨useridVec, ⟨w₂, log₂⟩, hmembers, hloop⟩ := Prog.runs_bind.mp hrest
  obtain ⟨hvec, hw₂, rfl⟩ := logged_sql hmembers
  rw [hok (.selectGroupUserIds senderid groupid) not_false] at hvec hw₂
  obtain rfl : w₂ = w₁ := hw₂
  have hvec' : useridVec = w₂.db.selectGroupUserIds senderid groupid := hvec
  constructor
  · intro hnone
    have hempty : useridVec = [] := by
      rw [hvec', Database.selectGroupUserIds, if_neg]
      rwa [← Database.isMember_iff]
    rw [hempty] at hloop
    obtain ⟨-, hret⟩ := hloop
    cases hret
    exact ⟨rfl, rfl⟩
  · intro hmember
    obtain ⟨ds, hreceivers, hform, hids, hfan⟩ :=
      fanOut_members (S := .ofGroupChat conn senderid groupid ok) rfl rfl hok hloop
    have hids' : insertedIds log = ds.map Delivery.messageid := hids
    rw [hids'] at hdistinct hfresh
    refine ⟨ds, ?_, fun m => ?_, hids', fun d hd => ?_, ?_⟩
    · rw [hreceivers, hvec']
      exact Database.nodup_selectGroupUserIds ..
    · rw [hreceivers, hvec']
      exact Database.mem_selectGroupUserIds hmember m
    · rw [hform d hd]
      exact ⟨rfl, find?_stampGroupChat (isObject_of_getInt hid) _ _⟩
    · have hquiet : (Sending.ofGroupChat conn senderid groupid ok).FanOut [] w₂ [] w₂
          ([] ++ [.node (.mapIsBound senderid conn)] ++
            [.sql (.selectGroupUserIds senderid groupid)]) := by
        refine ⟨?_, ?_, ?_, .refl _⟩
        · simp
        · simp
        · simp [publications, Command.published]
      exact hquiet.append (hfan hdistinct fun d hd => hfresh _ (List.mem_map_of_mem hd))

end Runs

/-! ## A computed run -/

def logPerform? (a : Agent) (ok : Statement → Bool) (c : Command) (s : World × List Command) :
    Option (Response c × (World × List Command)) :=
  (sqlPerform? a ok c s.1).map fun p => (p.1, p.2, s.2 ++ [c])

theorem logStep_of_logPerform? {a : Agent} {ok : Statement → Bool} {c : Command}
    {s s' : World × List Command} {r : Response c} (h : logPerform? a ok c s = some (r, s')) :
    LogStep a ok c s r s' := by
  obtain ⟨⟨r', w'⟩, hp, he⟩ := Option.map_eq_some_iff.mp h
  cases he
  exact ⟨sqlStep_of_sqlPerform? hp, rfl⟩

/-- Users `1` and `2` are bound here, `3` is online elsewhere and `4` is offline; all are
members of group `1`. -/
def groupOfFour : World :=
  let db := Statement.registered [("ann", "pw"), ("bob", "pw"), ("cid", "pw"), ("dan", "pw")]
  let db := [1, 2, 3, 4].foldl (fun db u => db.insertGroupUser 1 u .normal)
    (db.updateUserState 3 .online)
  ((World.fresh db).withSession ⟨0, 0⟩ 1).withSession ⟨0, 1⟩ 2

/-- The insert for user `4` fails. -/
def insertFailsForFour : Statement → Bool
  | .insertMessage _ _ receiverid _ _ _ => receiverid ≠ 4
  | _ => true

/-- User `1` writes to the group: `2` gets a frame, the message for `3` is published. -/
theorem group_fan_out_exact_four :
    ∃ (w' : World) (log : List Command),
      (w'.db.chatMessage.rows.map MessageRow.receiverId = [2, 3] ∧
        (w'.out ⟨0, 1⟩).length = 1 ∧ (publications log).map Prod.fst = [3]) ∧
      (¬ groupOfFour.db.IsMember 1 1 → w' = groupOfFour ∧ publications log = []) ∧
      (groupOfFour.db.IsMember 1 1 → ∃ ds : List Delivery,
        (ds.map Delivery.receiverid).Nodup ∧
        (∀ m, m ∈ ds.map Delivery.receiverid ↔ groupOfFour.db.IsMember 1 m ∧ m ≠ 1) ∧
        insertedIds log = ds.map Delivery.messageid ∧
        (∀ d ∈ ds, d.js = stampGroupChat (Client.groupChatRequest 1 "ann" 1 "hi" "now")
            d.messageid d.receiverid ∧
          d.js.find? "toid" = some (.int d.receiverid) ∧
          d.js.find? "messageid" = some (.int d.messageid)) ∧
        (Sending.ofGroupChat ⟨0, 0⟩ 1 1 insertFailsForFour).FanOut ds groupOfFour [] w' log) := by
  obtain ⟨_, ⟨w', log⟩, hrun, htest⟩ := Prog.exists_runs_of_eval?
    (f := logPerform? (.io ⟨0, 0⟩) insertFailsForFour) (fun _ _ _ _ => logStep_of_logPerform?)
    (p := groupChat ⟨0, 0⟩ (Client.groupChatRequest 1 "ann" 1 "hi" "now"))
    (s := (groupOfFour, []))
    (fun s => (s.1.db.chatMessage.rows.map MessageRow.receiverId = [2, 3] ∧
      (s.1.out ⟨0, 1⟩).length = 1 ∧ (publications s.2).map Prod.fst = [3]) ∧
      (insertedIds s.2).Nodup) (by decide +kernel)
  obtain ⟨hshape, hdistinct⟩ := of_decide_eq_true htest
  refine ⟨w', log, hshape, ?_⟩
  refine group_fan_out_exact ⟨0, 0⟩ (Client.groupChatRequest 1 "ann" 1 "hi" "now")
    insertFailsForFour 1 1 "hi" groupOfFour w' log (by decide +kernel) (by decide +kernel)
    (by decide +kernel) (by decide +kernel) ?_ hdistinct (fun _ _ => rfl) hrun
  intro q hq
  cases q with
  | insertMessage => exact absurd trivial hq
  | _ => rfl

end ChatCluster
