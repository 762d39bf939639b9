import ChatCluster.Sessions

/-!
# Closed connections and stopped nodes

`clientCloseException` stops at the first entry of the connection that it meets, so
it cleans up completely exactly when there is no second one. `reset` writes every
online user offline, whichever node the user is on.
-/
namespace ChatCluster
open CommandProgram

/-! ## A closed connection -/

/-- Nobody is bound to the connection any more, and whoever was has been signed out. -/
structure CleanedUp (conn : Conn) (w w' : World) : Prop where
  unbound : ∀ u, w'.bound conn.node u ≠ some conn
  signedOut : ∀ u, w.db.Registered u → w.bound conn.node u = some conn →
    w'.db.userState u = some .offline ∧
      ((w.node conn.node).redisConnected = true → ¬ w'.Subscribed conn.node u)

def AtMostOneUser (conn : Conn) (w : World) : Prop :=
  ∀ u v, w.bound conn.node u = some conn → w.bound conn.node v = some conn → u = v

section Close
variable {j : Job} {w w' : World} {conn : Conn}

/-- What the end of a session does to the stores; the map is not among them. -/
theorem closeSession_stores {id : ℤ} {u : Unit} (hj : j.agent.node = conn.node)
    (h : (closeSession id).Runs (Calm.Step j) w u w') :
    (∀ v, w'.bound conn.node v = w.bound conn.node v) ∧
      w'.db = w.db.updateUserState id .offline ∧
      ((w.node conn.node).redisConnected = true → ¬ w'.Subscribed conn.node id) := by
  rw [Calm.runs_closeSession h, ← hj]
  refine ⟨fun v => ?_, rfl, fun hredis => ?_⟩
  · split_ifs
    · exact congrArg (AList.lookup v ·.userConnMap) (World.node_setNode_self ..)
    · rfl
  · rw [if_pos hredis, World.Subscribed]
    dsimp only
    rw [World.node_setNode_self]
    exact fun hm => (Finset.mem_erase.mp hm).1 rfl

/-- The entry that the loop meets first is erased and its user signed out; every other
entry of the map stays. -/
theorem clientCloseException_stores (hj : j.agent.node = conn.node)
    (h : (clientCloseException conn).Runs (Calm.Step j) w () w') :
    ((∀ u, w.bound conn.node u ≠ some conn) ∧ w' = w) ∨
    ∃ id, w.bound conn.node id = some conn ∧
      (∀ v, w'.bound conn.node v = if v = id then none else w.bound conn.node v) ∧
      (id ≠ -1 → w'.db = w.db.updateUserState id .offline ∧
        ((w.node conn.node).redisConnected = true → ¬ w'.Subscribed conn.node id)) := by
  obtain ⟨erased, w₁, herase, hrest⟩ := Prog.runs_bind.mp h
  obtain ⟨o, s', -, hs, rfl⟩ := Calm.runs_node herase
  obtain ⟨id, rfl, hbound, rfl⟩ | ⟨rfl, hnone, rfl⟩ := NodeOp.exec_mapEraseConn hs
  · rw [hj] at hbound hrest
    have hmap : ∀ v, (w.setNode conn.node { w.node conn.node with
        userConnMap := (w.node conn.node).userConnMap.erase id }).bound conn.node v =
          if v = id then none else w.bound conn.node v := fun v => by
      rw [World.bound, World.node_setNode_self]
      split_ifs with hv
      · rw [hv]
        exact AList.lookup_erase ..
      · exact AList.lookup_erase_ne hv
    refine .inr ⟨id, hbound, ?_⟩
    dsimp only at hrest
    split_ifs at hrest with hid
    · obtain ⟨hbound', hdb, hsub⟩ := closeSession_stores hj hrest
      rw [World.node_setNode_self] at hsub
      exact ⟨fun v => (hbound' v).trans (hmap v), fun _ => ⟨hdb, hsub⟩⟩
    · rw [hrest.2]
      exact ⟨hmap, fun hne => absurd hne hid⟩
  · rw [hj] at hnone hrest
    refine .inl ⟨hnone, ?_⟩
    dsimp only at hrest
    rw [if_neg (by decide), World.setNode_node] at hrest
    exact hrest.2

variable [JsonParser]

/-- A closed connection is cleaned up completely exactly when at most one user was
bound to it. -/
theorem close_cleans_up_iff (h : Cluster.Handles .calm w (.close conn) w') :
    CleanedUp conn w w' ↔ AtMostOneUser conn w := by
  obtain ⟨w₁, ⟨-, -, rfl⟩, hrun⟩ := h
  obtain ⟨hnone, rfl⟩ | ⟨id, hid, hmap, hend⟩ := clientCloseException_stores rfl hrun
  · exact ⟨fun _ u _ hu => absurd hu (hnone u), fun _ => ⟨hnone, fun u _ hu => absurd hu (hnone u)⟩⟩
  · constructor
    · intro hclean
      have honly : ∀ u, w.bound conn.node u = some conn → u = id := fun u hu => by
        by_contra hne
        refine hclean.unbound u ?_
        rw [hmap, if_neg hne]
        exact hu
      exact fun u v hu hv => (honly u hu).trans (honly v hv).symm
    · intro hone
      refine ⟨fun u hu => ?_, fun u hreg hu => ?_⟩
      · rw [hmap] at hu
        split_ifs at hu with hne
        exact hne (hone u id hu hid)
      · obtain rfl := hone u id hu hid
        have hpos : u ≠ -1 := fun e => absurd (e ▸ hreg.1) (by decide)
        obtain ⟨hdb, hsub⟩ := hend hpos
        obtain ⟨row, hrow⟩ := hreg.2
        refine ⟨?_, hsub⟩
        rw [hdb]
        exact Database.userState_updateUserState_self hrow .offline

end Close

/-- One user logs in on a connection, and the connection is closed. -/
theorem close_cleans_up_one_user : letI := Cluster.rejectAll
    ∃ w w', Cluster.Run .calm (World.fresh (Statement.registered [("ann", "pw")]))
        [.frame ⟨0, 0⟩ (Client.loginRequest 1 "pw") ""] w ∧
      w.bound 0 1 = some ⟨0, 0⟩ ∧ (CleanedUp ⟨0, 0⟩ w w' ↔ AtMostOneUser ⟨0, 0⟩ w) := by
  let _ := Cluster.rejectAll
  obtain ⟨w, w', hlogin, hclose, hbound⟩ := Cluster.exists_run_handles (E := .calm)
    (w := World.fresh (Statement.registered [("ann", "pw")]))
    [({}, .frame ⟨0, 0⟩ (Client.loginRequest 1 "pw") "")] { victim := some 1 } (.close ⟨0, 0⟩)
    (p := fun w _ => w.bound 0 1 = some ⟨0, 0⟩) (by decide)
  exact ⟨w, w', hlogin, of_decide_eq_true hbound, close_cleans_up_iff hclose⟩

/-- Two users log in on one connection. When it is closed, one of them stays bound. -/
theorem close_leaves_second_user : letI := Cluster.rejectAll
    ∃ w w', Cluster.Run .calm
        (World.fresh (Statement.registered [("ann", "pw"), ("bob", "pw")]))
        [.frame ⟨0, 0⟩ (Client.loginRequest 1 "pw") "",
          .frame ⟨0, 0⟩ (Client.loginRequest 2 "pw") ""] w ∧
      Cluster.Handles .calm w (.close ⟨0, 0⟩) w' ∧ ¬ CleanedUp ⟨0, 0⟩ w w' := by
  let _ := Cluster.rejectAll
  obtain ⟨w, w', hlogins, hclose, hbound⟩ := Cluster.exists_run_handles (E := .calm)
    (w := World.fresh (Statement.registered [("ann", "pw"), ("bob", "pw")]))
    [({}, .frame ⟨0, 0⟩ (Client.loginRequest 1 "pw") ""),
      ({}, .frame ⟨0, 0⟩ (Client.loginRequest 2 "pw") "")]
    { victim := some 1 } (.close ⟨0, 0⟩)
    (p := fun _ w' => w'.bound 0 2 = some ⟨0, 0⟩) (by decide)
  exact ⟨w, w', hlogins, hclose, fun h => h.unbound 2 (of_decide_eq_true hbound)⟩

/-! ## A stopped node -/

/-- Every user bound to an open connection of another running node is online. -/
def SessionsKept (n : ℕ) (w w' : World) : Prop :=
  ∀ u c, w.db.Registered u → c.node ≠ n → (w.node c.node).running = true → c ∉ w.closed →
    w.bound c.node u = some c → w'.db.userState u = some .online

/-- No registered user is bound to an open connection of another running node. -/
def NobodyElsewhere (n : ℕ) (w : World) : Prop :=
  ∀ u c, w.db.Registered u → c.node ≠ n → (w.node c.node).running = true → c ∉ w.closed →
    w.bound c.node u ≠ some c

section Stop
variable {j : Job} {w w' : World}

theorem resetHandler_userState (h : resetHandler.Runs (Calm.Step j) w () w') (u : ℤ) :
    w'.db.userState u ≠ some .online := by
  obtain ⟨_, w₁, hreset, hexit⟩ := Prog.runs_bind.mp h
  obtain ⟨_, w₂, hsql, -, rfl⟩ := Prog.runs_bind.mp hreset
  obtain ⟨-, rfl⟩ := Calm.runs_sql hsql
  obtain ⟨o, s', -, -, rfl⟩ := Calm.runs_node hexit
  rw [World.db_setNode, Statement.run, Database.userState, Database.selectUser_resetUserStates,
    Option.map_map]
  intro hon
  obtain ⟨row, -, hrow⟩ := Option.map_eq_some_iff.mp hon
  cases hrow

variable [JsonParser]

/-- Stopping a node keeps the sessions of the other nodes exactly when there are none. -/
theorem stop_keeps_sessions_iff {n : ℕ} (h : Cluster.Handles .calm w (.sigint n) w') :
    SessionsKept n w w' ↔ NobodyElsewhere n w := by
  obtain ⟨w₁, ⟨-, rfl⟩, hrun⟩ := h
  constructor
  · intro hkept u c hreg hn hrunning hopen hbound
    exact resetHandler_userState hrun u (hkept u c hreg hn hrunning hopen hbound)
  · intro hnobody u c hreg hn hrunning hopen hbound
    exact absurd hbound (hnobody u c hreg hn hrunning hopen)

end Stop

/-- A single user on the node that is stopped. -/
theorem stop_keeps_sessions_alone : letI := Cluster.rejectAll
    ∃ w w', Cluster.Run .calm (World.fresh (Statement.registered [("ann", "pw")]))
        [.frame ⟨1, 0⟩ (Client.loginRequest 1 "pw") ""] w ∧
      w.bound 1 1 = some ⟨1, 0⟩ ∧ (SessionsKept 1 w w' ↔ NobodyElsewhere 1 w) := by
  let _ := Cluster.rejectAll
  obtain ⟨w, w', hlogin, hstop, hbound⟩ := Cluster.exists_run_handles (E := .calm)
    (w := World.fresh (Statement.registered [("ann", "pw")]))
    [({}, .frame ⟨1, 0⟩ (Client.loginRequest 1 "pw") "")] {} (.sigint 1)
    (p := fun w _ => w.bound 1 1 = some ⟨1, 0⟩) (by decide)
  exact ⟨w, w', hlogin, of_decide_eq_true hbound, stop_keeps_sessions_iff hstop⟩

/-- A user is logged in on node `0` when node `1` is stopped. -/
theorem stop_signs_out_elsewhere : letI := Cluster.rejectAll
    ∃ w w', Cluster.Run .calm (World.fresh (Statement.registered [("ann", "pw")]))
        [.frame ⟨0, 0⟩ (Client.loginRequest 1 "pw") ""] w ∧
      Cluster.Handles .calm w (.sigint 1) w' ∧ ¬ SessionsKept 1 w w' := by
  let _ := Cluster.rejectAll
  obtain ⟨w, w', hlogin, hstop, hw⟩ := Cluster.exists_run_handles (E := .calm)
    (w := World.fresh (Statement.registered [("ann", "pw")]))
    [({}, .frame ⟨0, 0⟩ (Client.loginRequest 1 "pw") "")] {} (.sigint 1)
    (p := fun w w' => (w.db.selectUser 1).isSome ∧ (w.node 0).running = true ∧
      ⟨0, 0⟩ ∉ w.closed ∧ w.bound 0 1 = some ⟨0, 0⟩ ∧ w'.db.userState 1 = some .offline)
    (by decide)
  obtain ⟨hrow, hrunning, hopen, hbound, hoff⟩ := of_decide_eq_true hw
  refine ⟨w, w', hlogin, hstop, fun hkept => ?_⟩
  have hon := hkept 1 ⟨0, 0⟩ ⟨by decide, Option.isSome_iff_exists.mp hrow⟩ (by decide) hrunning
    hopen hbound
  rw [hoff] at hon
  cases hon

end ChatCluster
