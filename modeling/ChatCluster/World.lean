import ChatCluster.Statement
import ChatCluster.Node

/-!
# The state of the cluster and its atomic steps

A cluster is one database, any number of server processes and their client
connections. A command is one SQL statement, one step on the issuing node, one
Redis `PUBLISH` or one call of `send` on a connection.
-/
namespace ChatCluster

/-- What is handed to `TcpConnection::send`: a value by `sendJson`, or a text that
is already serialized by `sendFrame`. -/
inductive Sent where
  | json (js : Json)
  | raw (payload : String)

/-- The bytes `sendJson` and `sendFrame` write. -/
def Sent.text : Sent → String
  | .json js => js.dump ++ "\n"
  | .raw payload =>
      if payload ≠ "" ∧ payload.toList.getLast? = some '\n' then payload else payload ++ "\n"

structure World where
  db : Database
  node : ℕ → NodeState
  closed : Finset Conn
  out : Conn → List Sent

/-- Freshly started processes over a database. -/
def World.fresh (db : Database) : World where
  db := db
  node := fun n => .fresh n
  closed := ∅
  out := fun _ => []

namespace World

def setNode (w : World) (n : ℕ) (s : NodeState) : World :=
  { w with node := Function.update w.node n s }

/-- The connection that a node's `_userConnMap` holds for a user. -/
def bound (w : World) (n : ℕ) (u : ℤ) : Option Conn := (w.node n).userConnMap.lookup u

def Subscribed (w : World) (n : ℕ) (u : ℤ) : Prop := u ∈ (w.node n).subscriptions

/-- Hand a frame to a connection. The frames are listed in the order of the calls; in which
order they are written is up to the event loop of the connection. -/
def emit (w : World) (c : Conn) (s : Sent) : World :=
  { w with out := Function.update w.out c (w.out c ++ [s]) }

/-- Redis hands a message to every process subscribed to its channel. -/
def publish (w : World) (channel : ℤ) (message : String) : World :=
  { w with
    node := fun n =>
      if channel ∈ (w.node n).subscriptions then
        { w.node n with inbox := (w.node n).inbox ++ [(channel, message)] }
      else w.node n }

theorem node_setNode (w : World) (n m : ℕ) (s : NodeState) :
    (w.setNode n s).node m = if m = n then s else w.node m := by
  simp only [setNode, Function.update_apply]

@[simp] theorem node_setNode_self (w : World) (n : ℕ) (s : NodeState) :
    (w.setNode n s).node n = s := Function.update_self ..

theorem node_setNode_ne (w : World) {n m : ℕ} (s : NodeState) (h : m ≠ n) :
    (w.setNode n s).node m = w.node m := Function.update_of_ne h ..

theorem setNode_node (w : World) (n : ℕ) : w.setNode n (w.node n) = w := by
  rw [setNode, Function.update_eq_self]

@[simp] theorem setNode_setNode (w : World) (n : ℕ) (s t : NodeState) :
    (w.setNode n s).setNode n t = w.setNode n t := by
  simp only [setNode, Function.update_idem]

@[simp] theorem db_setNode (w : World) (n : ℕ) (s : NodeState) : (w.setNode n s).db = w.db := rfl

@[simp] theorem closed_setNode (w : World) (n : ℕ) (s : NodeState) :
    (w.setNode n s).closed = w.closed := rfl

@[simp] theorem out_setNode (w : World) (n : ℕ) (s : NodeState) :
    (w.setNode n s).out = w.out := rfl

@[simp] theorem userConnMap_publish (w : World) (channel : ℤ) (message : String) (n : ℕ) :
    ((w.publish channel message).node n).userConnMap = (w.node n).userConnMap := by
  unfold publish
  dsimp only
  split_ifs <;> rfl

@[simp] theorem subscriptions_publish (w : World) (channel : ℤ) (message : String) (n : ℕ) :
    ((w.publish channel message).node n).subscriptions = (w.node n).subscriptions := by
  unfold publish
  dsimp only
  split_ifs <;> rfl

@[simp] theorem redisConnected_publish (w : World) (channel : ℤ) (message : String) (n : ℕ) :
    ((w.publish channel message).node n).redisConnected = (w.node n).redisConnected := by
  unfold publish
  dsimp only
  split_ifs <;> rfl

@[simp] theorem connMutex_publish (w : World) (channel : ℤ) (message : String) (n : ℕ) :
    ((w.publish channel message).node n).connMutex = (w.node n).connMutex := by
  unfold publish
  dsimp only
  split_ifs <;> rfl

theorem inbox_publish (w : World) (channel : ℤ) (message : String) (n : ℕ) :
    ((w.publish channel message).node n).inbox =
      if channel ∈ (w.node n).subscriptions then (w.node n).inbox ++ [(channel, message)]
      else (w.node n).inbox := by
  unfold publish
  dsimp only
  split_ifs <;> rfl

@[simp] theorem out_emit_self (w : World) (c : Conn) (s : Sent) :
    (w.emit c s).out c = w.out c ++ [s] := Function.update_self ..

theorem eq_of_out_emit {w : World} {c : Conn} {s t : Sent}
    (h : (w.emit c s).out c = w.out c ++ [t]) : s = t := by
  rw [out_emit_self] at h
  exact List.singleton_injective (List.append_cancel_left h)

theorem out_emit_ne {w : World} {c d : Conn} {s : Sent} (h : d ≠ c) :
    (w.emit c s).out d = w.out d := Function.update_of_ne h ..

theorem mem_emit {w : World} {c d : Conn} {s t : Sent} :
    t ∈ (w.emit c s).out d ↔ t ∈ w.out d ∨ d = c ∧ t = s := by
  simp only [emit, Function.update_apply]
  split_ifs with h
  · simp [h]
  · simp [h]

end World

inductive Command where
  | sql (q : Statement)
  | node (q : NodeOp)
  | redisPublish (channel : ℤ) (message : String)
  | sendTo (conn : Conn) (frame : Sent)

def Response : Command → Type
  | .sql q => q.Answer
  | .node q => q.Answer
  | .redisPublish _ _ => Bool
  | .sendTo _ _ => Unit

/-- The effect of one step of agent `a`. Redis reads the message of a `PUBLISH` as a
C string. `none`: the step cannot be taken now, or the choice does not fit. -/
def exec (o : Choice) (a : Agent) : (c : Command) → World → Option (Response c × World)
  | .sql q, w => some ((q.exec o.ok w.db).1, { w with db := (q.exec o.ok w.db).2 })
  | .node q, w => (q.exec o a (w.node a.node)).map fun p => (p.1, w.setNode a.node p.2)
  | .redisPublish channel message, w =>
      if o.ok then some (true, w.publish channel (cStr message)) else some (false, w)
  | .sendTo conn frame, w => some ((), w.emit conn frame)

/-! ## Which commands write what -/

namespace Command

def WritesState : Command → Prop
  | .sql q => q.WritesState
  | _ => False

def WritesMessages : Command → Prop
  | .sql q => q.WritesMessages
  | _ => False

def WritesMap : Command → Prop
  | .node q => q.WritesMap
  | _ => False

def WritesSubscriptions : Command → Prop
  | .node q => q.WritesSubscriptions
  | _ => False

end Command

variable {o : Choice} {a : Agent} {w w' : World}

theorem exec_sql {q : Statement} {r : q.Answer} (h : exec o a (.sql q) w = some (r, w')) :
    r = (q.exec o.ok w.db).1 ∧ w' = { w with db := (q.exec o.ok w.db).2 } := by
  cases h
  exact ⟨rfl, rfl⟩

theorem exec_node {q : NodeOp} {r : q.Answer} (h : exec o a (.node q) w = some (r, w')) :
    ∃ s', q.exec o a (w.node a.node) = some (r, s') ∧ w' = w.setNode a.node s' := by
  obtain ⟨⟨r', s'⟩, hs, he⟩ := Option.map_eq_some_iff.mp h
  cases he
  exact ⟨s', hs, rfl⟩

theorem exec_redisPublish {channel : ℤ} {message : String} {r : Bool}
    (h : exec o a (.redisPublish channel message) w = some (r, w')) :
    w' = if r then w.publish channel (cStr message) else w := by
  simp only [exec] at h
  split_ifs at h <;> (cases h; rfl)

theorem exec_sendTo {conn : Conn} {frame : Sent} {r : Unit}
    (h : exec o a (.sendTo conn frame) w = some (r, w')) : w' = w.emit conn frame := by
  cases h
  rfl

/-- Only statements touch the database. -/
theorem db_exec {c : Command} {r : Response c} (hc : ∀ q, c ≠ .sql q)
    (h : exec o a c w = some (r, w')) : w'.db = w.db := by
  cases c with
  | sql q => exact absurd rfl (hc q)
  | node q => obtain ⟨s', -, rfl⟩ := exec_node h; rfl
  | redisPublish channel message => rw [exec_redisPublish h]; split_ifs <;> rfl
  | sendTo conn frame => rw [exec_sendTo h]; rfl

theorem closed_exec {c : Command} {r : Response c} (h : exec o a c w = some (r, w')) :
    w'.closed = w.closed := by
  cases c with
  | sql q => rw [(exec_sql h).2]
  | node q => obtain ⟨s', -, rfl⟩ := exec_node h; rfl
  | redisPublish channel message => rw [exec_redisPublish h]; split_ifs <;> rfl
  | sendTo conn frame => rw [exec_sendTo h]; rfl

theorem selectUser_exec {c : Command} {r : Response c} {u : ℤ} {row : UserRow}
    (hc : ¬ c.WritesState) (h : exec o a c w = some (r, w'))
    (hu : w.db.selectUser u = some row) : w'.db.selectUser u = some row := by
  cases c with
  | sql q => rw [(exec_sql h).2]; exact Statement.selectUser_exec hc hu
  | node q => obtain ⟨s', -, rfl⟩ := exec_node h; exact hu
  | redisPublish channel message => rw [exec_redisPublish h]; split_ifs <;> exact hu
  | sendTo conn frame => rw [exec_sendTo h]; exact hu

theorem chatMessage_exec {c : Command} {r : Response c} (hc : ¬ c.WritesMessages)
    (h : exec o a c w = some (r, w')) : w'.db.chatMessage = w.db.chatMessage := by
  cases c with
  | sql q => rw [(exec_sql h).2]; exact Statement.chatMessage_exec hc
  | node q => obtain ⟨s', -, rfl⟩ := exec_node h; rfl
  | redisPublish channel message => rw [exec_redisPublish h]; split_ifs <;> rfl
  | sendTo conn frame => rw [exec_sendTo h]; rfl

theorem userConnMap_exec {c : Command} {r : Response c} (hc : ¬ c.WritesMap)
    (h : exec o a c w = some (r, w')) (n : ℕ) :
    (w'.node n).userConnMap = (w.node n).userConnMap := by
  cases c with
  | sql q => rw [(exec_sql h).2]
  | node q =>
      obtain ⟨s', hs, rfl⟩ := exec_node h
      rw [World.node_setNode]
      split_ifs with hn
      · rw [NodeOp.userConnMap_exec hc hs, hn]
      · rfl
  | redisPublish channel message =>
      rw [exec_redisPublish h]
      split_ifs
      · exact World.userConnMap_publish ..
      · rfl
  | sendTo conn frame => rw [exec_sendTo h]; rfl

theorem subscriptions_exec {c : Command} {r : Response c} (hc : ¬ c.WritesSubscriptions)
    (h : exec o a c w = some (r, w')) (n : ℕ) :
    (w'.node n).subscriptions = (w.node n).subscriptions := by
  cases c with
  | sql q => rw [(exec_sql h).2]
  | node q =>
      obtain ⟨s', hs, rfl⟩ := exec_node h
      rw [World.node_setNode]
      split_ifs with hn
      · rw [NodeOp.subscriptions_exec hc hs, hn]
      · rfl
  | redisPublish channel message =>
      rw [exec_redisPublish h]
      split_ifs
      · exact World.subscriptions_publish ..
      · rfl
  | sendTo conn frame => rw [exec_sendTo h]; rfl

theorem redisConnected_exec {c : Command} {r : Response c} (h : exec o a c w = some (r, w'))
    (n : ℕ) : (w'.node n).redisConnected = (w.node n).redisConnected := by
  cases c with
  | sql q => rw [(exec_sql h).2]
  | node q =>
      obtain ⟨s', hs, rfl⟩ := exec_node h
      rw [World.node_setNode]
      split_ifs with hn
      · rw [NodeOp.redisConnected_exec hs, hn]
      · rfl
  | redisPublish channel message =>
      rw [exec_redisPublish h]
      split_ifs
      · exact World.redisConnected_publish ..
      · rfl
  | sendTo conn frame => rw [exec_sendTo h]; rfl

theorem bound_of_node {t : NodeState} {n : ℕ} (h : w'.node = (w.setNode n t).node) (m : ℕ)
    (u : ℤ) : w'.bound m u = if m = n then t.userConnMap.lookup u else w.bound m u := by
  rw [World.bound, h, World.node_setNode]
  split_ifs <;> rfl

theorem subscribed_of_node {t : NodeState} {n : ℕ} (h : w'.node = (w.setNode n t).node) (m : ℕ)
    (u : ℤ) : w'.Subscribed m u ↔ if m = n then u ∈ t.subscriptions else w.Subscribed m u := by
  rw [World.Subscribed, h, World.node_setNode]
  split_ifs <;> rfl

/-- The command, so answered, writes what the map of its node holds for user `u`. -/
def Command.Rebinds (u : ℤ) : (c : Command) → Response c → Prop
  | .node (.mapBind id _), _ => id = u
  | .node (.mapErase id), _ => id = u
  | .node (.mapEraseConn _), erased => (erased : Option ℤ) = some u
  | _, _ => False

/-- An entry of a map is being made, or it is there already and is left alone. -/
theorem bound_exec {c : Command} {r : Response c} (h : exec o a c w = some (r, w')) {n : ℕ} {u : ℤ}
    {d : Conn} (hd : w'.bound n u = some d) :
    (w.bound n u = some d ∧ ¬ (a.node = n ∧ c.Rebinds u r)) ∨
      (a.node = n ∧ c = .node (.mapBind u d)) := by
  by_cases hc : c.WritesMap
  · cases c with
    | node q =>
        obtain ⟨s', hs, rfl⟩ := exec_node h
        rw [bound_of_node rfl] at hd
        split_ifs at hd with hn
        · subst hn
          cases q with
          | mapBind id conn =>
              obtain rfl := NodeOp.exec_mapBind hs
              by_cases hu : u = id
              · subst hu
                rw [AList.lookup_insert] at hd
                exact .inr ⟨rfl, by rw [Option.some.inj hd]⟩
              · exact .inl ⟨(AList.lookup_insert_ne hu).symm.trans hd, fun hr => hu hr.2.symm⟩
          | mapErase id =>
              obtain rfl := NodeOp.exec_mapErase hs
              refine .inl ⟨NodeOp.lookup_of_erase hd, fun hr => ?_⟩
              obtain rfl : id = u := hr.2
              rw [AList.lookup_erase] at hd
              cases hd
          | mapEraseConn conn =>
              obtain ⟨id, rfl, -, rfl⟩ | ⟨rfl, -, rfl⟩ := NodeOp.exec_mapEraseConn hs
              · refine .inl ⟨NodeOp.lookup_of_erase hd, fun hr => ?_⟩
                obtain rfl := Option.some.inj hr.2
                rw [AList.lookup_erase] at hd
                cases hd
              · exact .inl ⟨hd, fun hr => by cases hr.2⟩
          | _ => exact hc.elim
        · exact .inl ⟨hd, fun hr => hn hr.1.symm⟩
    | _ => exact hc.elim
  · refine .inl ⟨?_, fun hr => hc ?_⟩
    · rw [World.bound, userConnMap_exec hc h] at hd
      exact hd
    · cases c with
      | node q =>
          cases q with
          | mapBind | mapErase | mapEraseConn => trivial
          | _ => exact hr.2.elim
      | _ => exact hr.2.elim

/-- An entry of a map that is not written stays. -/
theorem bound_kept_exec {c : Command} {r : Response c} (h : exec o a c w = some (r, w')) {n : ℕ}
    {u : ℤ} {d : Conn} (hd : w.bound n u = some d) :
    w'.bound n u = some d ∨ (a.node = n ∧ c.Rebinds u r) := by
  by_cases hc : c.WritesMap
  · cases c with
    | node q =>
        obtain ⟨s', hs, rfl⟩ := exec_node h
        rw [bound_of_node rfl]
        split_ifs with hn
        · subst hn
          cases q with
          | mapBind id conn =>
              obtain rfl := NodeOp.exec_mapBind hs
              by_cases hu : u = id
              · exact .inr ⟨rfl, hu.symm⟩
              · exact .inl ((AList.lookup_insert_ne hu).trans hd)
          | mapErase id =>
              obtain rfl := NodeOp.exec_mapErase hs
              by_cases hu : u = id
              · exact .inr ⟨rfl, hu.symm⟩
              · exact .inl ((AList.lookup_erase_ne hu).trans hd)
          | mapEraseConn conn =>
              obtain ⟨id, rfl, -, rfl⟩ | ⟨rfl, -, rfl⟩ := NodeOp.exec_mapEraseConn hs
              · by_cases hu : u = id
                · exact .inr ⟨rfl, congrArg some hu.symm⟩
                · exact .inl ((AList.lookup_erase_ne hu).trans hd)
              · exact .inl hd
          | _ => exact hc.elim
        · exact .inl hd
    | _ => exact hc.elim
  · rw [World.bound, userConnMap_exec hc h]
    exact .inl hd

/-- The other nodes: a step never touches a foreign map or foreign subscriptions. -/
theorem foreign_exec {c : Command} {r : Response c} (h : exec o a c w = some (r, w')) {n : ℕ}
    (hn : n ≠ a.node) : (w'.node n).userConnMap = (w.node n).userConnMap ∧
      (w'.node n).subscriptions = (w.node n).subscriptions := by
  cases c with
  | sql q => rw [(exec_sql h).2]; exact ⟨rfl, rfl⟩
  | node q =>
      obtain ⟨s', -, rfl⟩ := exec_node h
      rw [World.node_setNode_ne _ _ hn]
      exact ⟨rfl, rfl⟩
  | redisPublish channel message =>
      rw [exec_redisPublish h]
      split_ifs
      · exact ⟨World.userConnMap_publish .., World.subscriptions_publish ..⟩
      · exact ⟨rfl, rfl⟩
  | sendTo conn frame => rw [exec_sendTo h]; exact ⟨rfl, rfl⟩

end ChatCluster
