import ChatCluster.Cluster
import ChatCluster.Footprint

/-!
# Handlers executed alone

What a handler does between its start and its end when nothing interferes. Where
nothing fails either, the final state is given by an equation.
-/
namespace ChatCluster
open CommandProgram

/-- A step of agent `a` under some choice of the environment. -/
def Exec (a : Agent) (c : Command) (w : World) (r : Response c) (w' : World) : Prop :=
  ∃ o : Choice, exec o a c w = some (r, w')

theorem Environment.Performs.exec {E : Environment} {j : Job} {c : Command} {w w' : World}
    {r : Response c} (h : E.Performs j c w r w') : Exec j.agent c w r w' := by
  obtain ⟨-, o, -, ho⟩ := h
  exact ⟨o, ho⟩

/-- Redis stays connected while handlers run. -/
theorem redisConnected_handles [JsonParser] {E : Environment} {w w' : World} {j : Job}
    (h : Cluster.Handles E w j w') (n : ℕ) :
    (w'.node n).redisConnected = (w.node n).redisConnected := by
  obtain ⟨w₁, hstart, hrun⟩ := h
  have hframe := hrun.frame (fun v => (v.node n).redisConnected) (Prog.all_true _)
    fun c v r v' _ hv => by
      obtain ⟨o, ho⟩ := hv.exec
      exact redisConnected_exec ho n
  exact hframe.trans (Job.node_starts hstart n).2.2

section Frames
variable {a : Agent} {w w' : World}

theorem runs_sendJson {conn : Conn} {js : Json} {u : Unit}
    (h : (sendJson conn js).Runs (Exec a) w u w') : w' = w.emit conn (.json js) := by
  obtain ⟨o, ho⟩ := Prog.runs_perform.mp h
  exact exec_sendTo ho

/-- Statements leave everything outside the database in place. -/
theorem sql_frame {α : Type} {p : Program α} {x : α} (hp : p.All Command.IsSql)
    (h : p.Runs (Exec a) w x w') : w'.node = w.node ∧ w'.out = w.out := by
  have hframe := h.frame (fun v => (v.node, v.out)) hp fun c v r v' hc hv => by
    obtain ⟨q, rfl⟩ := hc
    obtain ⟨o, ho⟩ := hv
    rw [(exec_sql ho).2]
  exact Prod.mk.inj hframe

/-- Steps on a node leave the database and what was sent in place. -/
theorem node_frame {α : Type} {p : Program α} {x : α}
    (hp : p.All fun c => ∃ q : NodeOp, c = .node q) (h : p.Runs (Exec a) w x w') :
    w'.db = w.db ∧ w'.out = w.out := by
  have hframe := h.frame (fun v => (v.db, v.out)) hp fun c v r v' hc hv => by
    obtain ⟨q, rfl⟩ := hc
    obtain ⟨o, ho⟩ := hv
    obtain ⟨s', -, rfl⟩ := exec_node ho
    rfl
  exact Prod.mk.inj hframe

theorem isNode_trySubscribe (id : ℤ) :
    (trySubscribe id).All fun c => ∃ q : NodeOp, c = .node q := by
  refine Prog.All.bind ⟨⟨_, rfl⟩, fun _ => trivial⟩ fun connected => ?_
  split_ifs
  · exact ⟨⟨_, rfl⟩, fun _ => trivial⟩
  · trivial

theorem isSql_syncSession (id : ℤ) (user : User) :
    (syncSession id user).All Command.IsSql :=
  all_syncSession ⟨_, rfl⟩ (fun _ => ⟨_, rfl⟩) fun _ h => by
    obtain ⟨q, hq, -⟩ := h.unrelated
    exact ⟨q, hq⟩

theorem user_frame {α : Type} {p : Program α} {x : α}
    (hp : p.All fun c => ∃ q : Statement, c = .sql q ∧ ¬ q.WritesUsers)
    (h : p.Runs (Exec a) w x w') : w'.db.user = w.db.user :=
  h.frame (fun v => v.db.user) hp fun c v r v' hc hv => by
    obtain ⟨q, rfl, hq⟩ := hc
    obtain ⟨o, ho⟩ := hv
    rw [(exec_sql ho).2]
    exact Statement.user_exec hq

theorem keepsUsers_syncSession (id : ℤ) (user : User) : (syncSession id user).All
    fun c => ∃ q : Statement, c = .sql q ∧ ¬ q.WritesUsers :=
  all_syncSession ⟨_, rfl, not_false⟩ (fun _ => ⟨_, rfl, not_false⟩) fun _ h => by
    obtain ⟨q, hq, hu, -⟩ := h.unrelated
    exact ⟨q, hq, hu⟩

theorem runs_subscribe_frame {id : ℤ} {u : Unit}
    (h : (trySubscribe id).Runs (Exec a) w u w') :
    (w'.node a.node).userConnMap = (w.node a.node).userConnMap ∧ w'.out = w.out := by
  have hall : (trySubscribe id).All
      fun c => ∃ q : NodeOp, c = .node q ∧ ¬ q.WritesMap := by
    refine Prog.All.bind ⟨⟨_, rfl, not_false⟩, fun _ => trivial⟩ fun connected => ?_
    split_ifs
    · exact ⟨⟨_, rfl, not_false⟩, fun _ => trivial⟩
    · trivial
  have hframe := h.frame (fun v => ((v.node a.node).userConnMap, v.out)) hall
    fun c v r v' hc hv => by
      obtain ⟨q, rfl, hq⟩ := hc
      obtain ⟨o, ho⟩ := hv
      rw [userConnMap_exec (c := .node q) hq ho]
      obtain ⟨s', -, rfl⟩ := exec_node ho
      rfl
  exact Prod.mk.inj hframe

/-- No command of a login waits for anything but the lock. -/
theorem exec_ofLogin {conn : Conn} {id? : Option ℤ} {P : Json → Prop} {c : Command}
    (hc : c.OfLogin conn id? P) (o : Choice) (hw : (w.node a.node).connMutex = none) :
    ∃ r w', exec o a c w = some (r, w') ∧ (w'.node a.node).connMutex = none ∧
      (w'.node a.node).running = (w.node a.node).running := by
  cases hc with
  | query | online | read | mark => exact ⟨_, _, rfl, hw, rfl⟩
  | unrelated c hq =>
      obtain ⟨q, rfl, -⟩ := hq
      exact ⟨_, _, rfl, hw, rfl⟩
  | bind id =>
      refine ⟨(), w.setNode a.node { w.node a.node with
        userConnMap := (w.node a.node).userConnMap.insert id conn }, ?_, ?_⟩
      · simp only [exec, NodeOp.exec, if_pos hw, Option.map_some]
      · rw [World.node_setNode_self]
        exact ⟨hw, rfl⟩
  | redis =>
      refine ⟨_, _, rfl, ?_⟩
      rw [World.setNode_node]
      exact ⟨hw, rfl⟩
  | subscribe id =>
      refine ⟨o.ok, w.setNode a.node (if o.ok then { w.node a.node with
        subscriptions := insert id (w.node a.node).subscriptions } else w.node a.node), ?_, ?_⟩
      · cases h : o.ok <;> simp [exec, NodeOp.exec, h]
      · rw [World.node_setNode_self]
        split_ifs <;> exact ⟨hw, rfl⟩
  | answer response => exact ⟨_, _, rfl, hw, rfl⟩

end Frames

theorem login_eq {conn : Conn} {js : Json} {id : ℤ} {pwd : String}
    (hid : getInt js "id" = some id) (hpwd : getString js "password" = some pwd) :
    login conn js = UserModel.query id >>= fun user =>
      if user.id = id ∧ user.pwd = pwd then
        if user.state = .online then
          sendJson conn (errorResponse .loginMsgAck 2 "this account is using, input another!")
        else do
          openSession conn id user
          let response ← syncSession id user
          sendJson conn response
      else sendJson conn (errorResponse .loginMsgAck 1 "id or password is invalid!") := by
  rw [login, hid, hpwd]

namespace Calm
variable {j : Job} {w w' : World}

/-- A step of job `j` when nothing fails. -/
abbrev Step (j : Job) := Environment.calm.Performs j

theorem step_sql {q : Statement} {r : q.Answer} (h : Step j (.sql q) w r w') :
    r = (q.run w.db).1 ∧ w' = { w with db := (q.run w.db).2 } := by
  obtain ⟨-, o, ho, h⟩ := h
  have hok : o.ok = true := by simpa using mt ho id
  have := exec_sql h
  rwa [hok] at this

theorem step_node {q : NodeOp} {r : q.Answer} (h : Step j (.node q) w r w') :
    ∃ o s', o.ok = true ∧ q.exec o j.agent (w.node j.agent.node) = some (r, s') ∧
      w' = w.setNode j.agent.node s' := by
  obtain ⟨-, o, ho, h⟩ := h
  obtain ⟨s', hs, hw⟩ := exec_node h
  exact ⟨o, s', by simpa using mt ho id, hs, hw⟩

theorem runs_sql {q : Statement} {r : q.Answer} (h : (sql q).Runs (Step j) w r w') :
    r = (q.run w.db).1 ∧ w' = { w with db := (q.run w.db).2 } :=
  step_sql (Prog.runs_perform.mp h)

theorem runs_node {q : NodeOp} {r : q.Answer} (h : (node q).Runs (Step j) w r w') :
    ∃ o s', o.ok = true ∧ q.exec o j.agent (w.node j.agent.node) = some (r, s') ∧
      w' = w.setNode j.agent.node s' :=
  step_node (Prog.runs_perform.mp h)

theorem runs_redisIsConnected {r : Bool} (h : redisIsConnected.Runs (Step j) w r w') :
    r = (w.node j.agent.node).redisConnected ∧ w' = w := by
  obtain ⟨o, s', -, hs, rfl⟩ := runs_node h
  cases hs
  exact ⟨rfl, World.setNode_node ..⟩

theorem runs_isConnectionBoundToUser {userid : ℤ} {conn : Conn} {r : Bool}
    (h : (isConnectionBoundToUser userid conn).Runs (Step j) w r w') :
    (r = true ↔ w.bound j.agent.node userid = some conn) ∧ w' = w := by
  obtain ⟨o, s', -, hs, rfl⟩ := runs_node h
  obtain ⟨rfl, hr⟩ := NodeOp.exec_mapIsBound hs
  exact ⟨hr, World.setNode_node ..⟩

theorem runs_trySubscribe {userid : ℤ} {u : Unit}
    (hredis : (w.node j.agent.node).redisConnected = true)
    (h : (trySubscribe userid).Runs (Step j) w u w') :
    w' = w.setNode j.agent.node { w.node j.agent.node with
      subscriptions := insert userid (w.node j.agent.node).subscriptions } := by
  obtain ⟨r, w₁, h₁, h⟩ := Prog.runs_bind.mp h
  obtain ⟨rfl, rfl⟩ := runs_redisIsConnected h₁
  rw [if_pos hredis] at h
  obtain ⟨r, w₁, h₁, -, rfl⟩ := Prog.runs_bind.mp h
  obtain ⟨o, s', hok, hs, rfl⟩ := runs_node h₁
  simp only [NodeOp.exec, hok, if_true] at hs
  cases hs
  rfl

theorem runs_tryUnsubscribe {userid : ℤ} {u : Unit}
    (h : (tryUnsubscribe userid).Runs (Step j) w u w') :
    w' = if (w.node j.agent.node).redisConnected then
        w.setNode j.agent.node { w.node j.agent.node with
          subscriptions := (w.node j.agent.node).subscriptions.erase userid }
      else w := by
  obtain ⟨r, w₁, h₁, h⟩ := Prog.runs_bind.mp h
  obtain ⟨rfl, rfl⟩ := runs_redisIsConnected h₁
  split_ifs at h ⊢
  · obtain ⟨r, w₁, h₁, -, rfl⟩ := Prog.runs_bind.mp h
    obtain ⟨o, s', hok, hs, rfl⟩ := runs_node h₁
    simp only [NodeOp.exec, hok, if_true] at hs
    cases hs
    rfl
  · exact h.2

theorem runs_openSession {conn : Conn} {id : ℤ} {user : User} {u : Unit}
    (hredis : (w.node j.agent.node).redisConnected = true)
    (h : (openSession conn id user).Runs (Step j) w u w') :
    w' = { w.setNode j.agent.node { w.node j.agent.node with
      userConnMap := (w.node j.agent.node).userConnMap.insert id conn
      subscriptions := insert id (w.node j.agent.node).subscriptions } with
      db := w.db.updateUserState user.id .online } := by
  obtain ⟨_, w₁, h₁, h⟩ := Prog.runs_bind.mp h
  obtain ⟨o, s', -, hs, rfl⟩ := runs_node h₁
  obtain rfl := NodeOp.exec_mapBind hs
  obtain ⟨_, w₂, h₂, h⟩ := Prog.runs_bind.mp h
  obtain rfl := runs_trySubscribe (by simpa using hredis) h₂
  obtain ⟨_, w₃, h₃, -, rfl⟩ := Prog.runs_bind.mp h
  obtain ⟨-, rfl⟩ := runs_sql h₃
  simp only [World.node_setNode_self, World.setNode_setNode, World.db_setNode, Statement.run]

theorem runs_closeSession {userid : ℤ} {u : Unit}
    (h : (closeSession userid).Runs (Step j) w u w') :
    w' = { (if (w.node j.agent.node).redisConnected then
        w.setNode j.agent.node { w.node j.agent.node with
          subscriptions := (w.node j.agent.node).subscriptions.erase userid }
      else w) with db := w.db.updateUserState userid .offline } := by
  obtain ⟨_, w₂, h₂, h⟩ := Prog.runs_bind.mp h
  obtain rfl := runs_tryUnsubscribe h₂
  obtain ⟨_, w₃, h₃, -, rfl⟩ := Prog.runs_bind.mp h
  obtain ⟨-, rfl⟩ := runs_sql h₃
  split_ifs <;> rfl

end Calm
end ChatCluster
