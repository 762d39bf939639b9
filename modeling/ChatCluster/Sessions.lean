import ChatCluster.HandlerRuns
import ChatCluster.Client

/-!
# Sessions

What the three stores of a session are for: the cluster keeps a partial function
from users to the connection that holds their session. `Represents` says how the
user table, the maps and the subscriptions spell it out, and each of the session
handlers, executed alone, simulates one step of the abstract function.
-/
namespace ChatCluster
open CommandProgram

/-- The connection that holds the session of a user. -/
abbrev Sessions := ℤ → Option Conn

namespace Sessions

/-- A free session is taken, a session ends, or nothing changes. -/
inductive Step : Sessions → Sessions → Prop
  | take {s : Sessions} (u : ℤ) (c : Conn) : s u = none →
      Step s (Function.update s u (some c))
  | leave {s : Sessions} (u : ℤ) (c : Conn) : s u = some c → Step s (Function.update s u none)
  | stay {s : Sessions} : Step s s

def free : Sessions := fun _ => none

end Sessions

/-- The stores of the cluster spell out the sessions of the registered users. -/
structure Represents (w : World) (s : Sessions) : Prop where
  state : ∀ u, w.db.Registered u → (w.db.userState u = some .online ↔ ∃ c, s u = some c)
  bound : ∀ u, w.db.Registered u → ∀ n c, w.bound n u = some c ↔ s u = some c ∧ c.node = n
  subscribed : ∀ u, w.db.Registered u → ∀ n, w.Subscribed n u ↔ ∃ c, s u = some c ∧ c.node = n

/-- Everybody is offline, unbound and unsubscribed. -/
structure World.Quiescent (w : World) : Prop where
  state : ∀ u, w.db.userState u ≠ some .online
  bound : ∀ n u, w.bound n u = none
  subscribed : ∀ n u, ¬ w.Subscribed n u

theorem World.quiescent_fresh {db : Database} (h : ∀ r ∈ db.user.rows, r.state = .offline) :
    (World.fresh db).Quiescent where
  state u hu := by
    obtain ⟨r, hr, hon⟩ := Option.map_eq_some_iff.mp hu
    rw [h r (KeyedTable.Table.find?_eq_some.mp hr).1] at hon
    cases hon
  bound _ _ := rfl
  subscribed _ _ := Finset.notMem_empty _

theorem World.Quiescent.represents {w : World} (h : w.Quiescent) : Represents w Sessions.free where
  state u _ := ⟨fun hu => absurd hu (h.state u), fun ⟨_, hc⟩ => by cases hc⟩
  bound u _ n c := by
    rw [h.bound]
    exact ⟨fun hc => (nomatch hc), fun hc => (nomatch hc.1)⟩
  subscribed u _ n := ⟨fun hu => absurd hu (h.subscribed n u), fun ⟨_, hc, _⟩ => (nomatch hc)⟩

theorem Database.registered_congr {db db' : Database} (h : db'.user = db.user) (u : ℤ) :
    db'.Registered u ↔ db.Registered u := by
  unfold Registered selectUser
  rw [h]

theorem Database.userState_congr {db db' : Database} (h : db'.user = db.user) (u : ℤ) :
    db'.userState u = db.userState u := by
  unfold userState selectUser
  rw [h]

namespace Represents
variable {w w' : World} {s : Sessions}

/-- The entries of the registered users are all that matters. -/
theorem congr (h : Represents w s) (huser : w'.db.user = w.db.user)
    (hmap : ∀ n u, w.db.Registered u → w'.bound n u = w.bound n u)
    (hsub : ∀ n, (w'.node n).subscriptions = (w.node n).subscriptions) : Represents w' s where
  state u hu := by
    rw [Database.registered_congr huser] at hu
    rw [Database.userState_congr huser]
    exact h.state u hu
  bound u hu n c := by
    rw [Database.registered_congr huser] at hu
    rw [hmap n u hu]
    exact h.bound u hu n c
  subscribed u hu n := by
    rw [Database.registered_congr huser] at hu
    rw [World.Subscribed, hsub]
    exact h.subscribed u hu n

/-- A user whose entries nobody else shares: the three stores change for `u` only, and
to what `x` says. -/
theorem update (h : Represents w s) {u : ℤ} {x : Option Conn} (state : UserState)
    (huser : w'.db.user = (w.db.updateUserState u state).user)
    (hstate : state = .online ↔ ∃ c, x = some c)
    (hother : ∀ n v, v ≠ u → w'.bound n v = w.bound n v ∧ (w'.Subscribed n v ↔ w.Subscribed n v))
    (hbound : w.db.Registered u → ∀ n c, w'.bound n u = some c ↔ x = some c ∧ c.node = n)
    (hsub : w.db.Registered u → ∀ n, w'.Subscribed n u ↔ ∃ c, x = some c ∧ c.node = n) :
    Represents w' (Function.update s u x) := by
  have hreg : ∀ v, w'.db.Registered v ↔ w.db.Registered v := fun v =>
    (Database.registered_congr huser v).trans (Database.registered_updateUserState ..)
  constructor
  · intro v hv
    rw [hreg] at hv
    rw [Database.userState_congr huser]
    rcases eq_or_ne v u with rfl | hne
    · obtain ⟨r, hr⟩ := hv.2
      rw [Database.userState_updateUserState_self hr, Function.update_self, Option.some.injEq]
      exact hstate
    · rw [Database.userState_updateUserState_ne _ hne, Function.update_of_ne hne]
      exact h.state v hv
  · intro v hv n c
    rw [hreg] at hv
    rcases eq_or_ne v u with rfl | hne
    · rw [Function.update_self]
      exact hbound hv n c
    · rw [Function.update_of_ne hne, (hother n v hne).1]
      exact h.bound v hv n c
  · intro v hv n
    rw [hreg] at hv
    rcases eq_or_ne v u with rfl | hne
    · rw [Function.update_self]
      exact hsub hv n
    · rw [Function.update_of_ne hne, (hother n v hne).2]
      exact h.subscribed v hv n

/-- The entries of somebody who is not registered do not count. -/
theorem of_unregistered {u : ℤ} {x : Option Conn} (hu : ¬ w'.db.Registered u)
    (h : Represents w' (Function.update s u x)) : Represents w' s where
  state v hv := by
    have hne : v ≠ u := fun e => hu (e ▸ hv)
    have := h.state v hv
    rwa [Function.update_of_ne hne] at this
  bound v hv n c := by
    have hne : v ≠ u := fun e => hu (e ▸ hv)
    have := h.bound v hv n c
    rwa [Function.update_of_ne hne] at this
  subscribed v hv n := by
    have hne : v ≠ u := fun e => hu (e ▸ hv)
    have := h.subscribed v hv n
    rwa [Function.update_of_ne hne] at this

/-- What the representation is for: the three stores agree on every registered user. -/
theorem agreement (h : Represents w s) {u : ℤ} (hu : w.db.Registered u) :
    (w.db.userState u = some .online ↔ ∃! n, ∃ c, w.bound n u = some c) ∧
      ∀ n, w.Subscribed n u ↔ ∃ c, w.bound n u = some c := by
  constructor
  · rw [h.state u hu]
    constructor
    · intro h
      rcases h with ⟨c, hc⟩
      refine ⟨c.node, ⟨c, (h.bound u hu _ _).mpr ⟨hc, rfl⟩⟩, fun n ⟨d, hd⟩ => ?_⟩
      obtain ⟨hs, rfl⟩ := (h.bound u hu _ _).mp hd
      rw [Option.some.inj (hc.symm.trans hs)]
    · intro h
      rcases h with ⟨n, ⟨c, hc⟩, -⟩
      exact ⟨c, ((h.bound u hu _ _).mp hc).1⟩
  · intro n
    rw [h.subscribed u hu]
    exact exists_congr fun c => (h.bound u hu n c).symm

end Represents

/-! ## The session handlers executed alone -/

namespace Calm
variable {j : Job} {w w' : World} {conn : Conn}

/-- The stores of a session are as before. -/
structure SameStores (w w' : World) : Prop where
  user : w'.db.user = w.db.user
  map : ∀ n, (w'.node n).userConnMap = (w.node n).userConnMap
  sub : ∀ n, (w'.node n).subscriptions = (w.node n).subscriptions

theorem SameStores.represents {s : Sessions} (h : SameStores w w') (hs : Represents w s) :
    Represents w' s :=
  hs.congr h.user (fun n u _ => by rw [World.bound, h.map, World.bound]) h.sub

theorem sameStores_sendJson {a : Agent} {js : Json} {u : Unit}
    (h : (sendJson conn js).Runs (Exec a) w u w') : SameStores w w' := by
  rw [runs_sendJson h]
  exact ⟨rfl, fun _ => rfl, fun _ => rfl⟩

/-- A login leaves the stores alone, or opens a session for an offline user. -/
theorem runs_login {js : Json} (hj : j.agent.node = conn.node)
    (hredis : (w.node conn.node).redisConnected = true)
    (h : (login conn js).Runs (Step j) w () w') :
    SameStores w w' ∨ ∃ id, (User.ofRow (w.db.selectUser id)).id = id ∧
      (User.ofRow (w.db.selectUser id)).state ≠ .online ∧
      w'.db.user = (w.db.updateUserState id .online).user ∧
      w'.node = (w.setNode conn.node { w.node conn.node with
        userConnMap := (w.node conn.node).userConnMap.insert id conn
        subscriptions := insert id (w.node conn.node).subscriptions }).node := by
  have hexec : ∀ c s r s', Step j c s r s' → Exec j.agent c s r s' := fun _ _ _ _ hs => hs.exec
  rw [← hj] at hredis ⊢
  cases hid : getInt js "id" with
  | none =>
      rw [login, hid] at h
      exact .inl (sameStores_sendJson (h.mono hexec))
  | some id =>
      cases hpwd : getString js "password" with
      | none =>
          rw [login, hid, hpwd] at h
          exact .inl (sameStores_sendJson (h.mono hexec))
      | some pwd =>
          rw [login_eq hid hpwd] at h
          obtain ⟨user, w₁, ⟨row, w₂, hrow, rfl, rfl⟩, h⟩ := Prog.runs_bind.mp h
          obtain ⟨rfl, rfl⟩ := step_sql hrow
          split_ifs at h with hmatch honline
          · exact .inl (sameStores_sendJson (h.mono hexec))
          · refine .inr ⟨id, hmatch.1, honline, ?_⟩
            obtain ⟨_, w₃, hopen, h⟩ := Prog.runs_bind.mp h
            obtain ⟨response, w₄, hsync, hsend⟩ := Prog.runs_bind.mp h
            obtain rfl := runs_openSession hredis hopen
            obtain rfl := runs_sendJson (hsend.mono hexec)
            have hsync := hsync.mono hexec
            have huser := user_frame (keepsUsers_syncSession _ _) hsync
            have hnode := (sql_frame (isSql_syncSession _ _) hsync).1
            refine ⟨huser.trans ?_, hnode⟩
            rw [hmatch.1]
          · exact .inl (sameStores_sendJson (h.mono hexec))

/-- The end of a session: the binding is already gone. -/
theorem runs_loginout {js : Json} (hj : j.agent.node = conn.node)
    (hredis : (w.node conn.node).redisConnected = true)
    (h : (loginout conn js).Runs (Step j) w () w') :
    SameStores w w' ∨ ∃ id, w.bound conn.node id = some conn ∧
      w'.db.user = (w.db.updateUserState id .offline).user ∧
      w'.node = (w.setNode conn.node { w.node conn.node with
        userConnMap := (w.node conn.node).userConnMap.erase id
        subscriptions := (w.node conn.node).subscriptions.erase id }).node := by
  have hsame : SameStores w w := ⟨rfl, fun _ => rfl, fun _ => rfl⟩
  rw [← hj] at hredis ⊢
  cases hid : getInt js "id" with
  | none =>
      rw [loginout, hid] at h
      exact .inl (h.2 ▸ hsame)
  | some id =>
      rw [loginout, hid] at h
      obtain ⟨bound, w₁, hbound, hrest⟩ := Prog.runs_bind.mp h
      obtain ⟨hiff, rfl⟩ := runs_isConnectionBoundToUser hbound
      split_ifs at hrest with hb
      · obtain ⟨_, w₂, herase, hclose⟩ := Prog.runs_bind.mp hrest
        obtain ⟨o, s', -, hs, rfl⟩ := runs_node herase
        obtain rfl := NodeOp.exec_mapErase hs
        have hclose := runs_closeSession hclose
        rw [World.node_setNode_self, if_pos hredis] at hclose
        subst hclose
        refine .inr ⟨id, hiff.mp hb, rfl, ?_⟩
        simp only [World.setNode_setNode]
      · exact .inl (hrest.2 ▸ hsame)

/-- A closed connection: one of its entries is erased, and its user, unless it is the
id that means nobody, gets its session ended. -/
theorem runs_clientCloseException (hj : j.agent.node = conn.node)
    (hredis : (w.node conn.node).redisConnected = true)
    (h : (clientCloseException conn).Runs (Step j) w () w') :
    ((∀ u, w.bound conn.node u ≠ some conn) ∧ w' = w) ∨
    ∃ id, w.bound conn.node id = some conn ∧
      if id = -1 then w' = w.setNode conn.node { w.node conn.node with
        userConnMap := (w.node conn.node).userConnMap.erase id }
      else w'.db.user = (w.db.updateUserState id .offline).user ∧
        w'.node = (w.setNode conn.node { w.node conn.node with
          userConnMap := (w.node conn.node).userConnMap.erase id
          subscriptions := (w.node conn.node).subscriptions.erase id }).node := by
  rw [← hj] at hredis ⊢
  obtain ⟨erased, w₁, herase, h⟩ := Prog.runs_bind.mp h
  obtain ⟨o, s', -, hs, rfl⟩ := runs_node herase
  obtain ⟨id, rfl, hbound, rfl⟩ | ⟨rfl, hnone, rfl⟩ := NodeOp.exec_mapEraseConn hs
  · refine .inr ⟨id, hbound, ?_⟩
    dsimp only at h
    by_cases hid : id = -1
    · rw [if_neg (not_not.mpr hid)] at h
      rw [if_pos hid]
      exact h.2
    · rw [if_pos hid] at h
      rw [if_neg hid]
      have hclose := runs_closeSession h
      rw [World.node_setNode_self, if_pos hredis] at hclose
      subst hclose
      refine ⟨rfl, ?_⟩
      simp only [World.setNode_setNode]
  · refine .inl ⟨hnone, ?_⟩
    dsimp only at h
    rw [if_neg (by decide)] at h
    rw [World.setNode_node] at h
    exact h.2

end Calm

/-! ## Simulation -/

section Simulation
variable {w w' : World} {s : Sessions} {conn : Conn} {id : ℤ}

/-- Opening a session in the stores takes the free session of the user. -/
theorem Represents.take (h : Represents w s) (hoff : w.db.userState id ≠ some .online)
    (huser : w'.db.user = (w.db.updateUserState id .online).user)
    (hnode : w'.node = (w.setNode conn.node { w.node conn.node with
      userConnMap := (w.node conn.node).userConnMap.insert id conn
      subscriptions := insert id (w.node conn.node).subscriptions }).node) :
    ∃ s', Sessions.Step s s' ∧ Represents w' s' := by
  have hfree : w.db.Registered id → s id = none := fun hreg =>
    Option.eq_none_iff_forall_ne_some.mpr fun c hc => hoff ((h.state id hreg).mpr ⟨c, hc⟩)
  have hrep : Represents w' (Function.update s id (some conn)) := by
    refine h.update .online huser ⟨fun _ => ⟨conn, rfl⟩, fun _ => rfl⟩ ?_ ?_ ?_
    · intro n v hv
      rw [bound_of_node hnode, subscribed_of_node hnode]
      split_ifs with hn
      · subst hn
        exact ⟨AList.lookup_insert_ne hv,
          ⟨fun hm => (Finset.mem_insert.mp hm).resolve_left hv, Finset.mem_insert_of_mem⟩⟩
      · exact ⟨rfl, Iff.rfl⟩
    · intro hreg n c
      rw [bound_of_node hnode]
      split_ifs with hn
      · subst hn
        rw [AList.lookup_insert]
        exact ⟨fun hc => ⟨hc, by rw [← Option.some.inj hc]⟩, fun hc => hc.1⟩
      · rw [h.bound id hreg, hfree hreg]
        exact ⟨fun hc => (nomatch hc.1),
          fun hc => absurd (Option.some.inj hc.1 ▸ hc.2.symm) hn⟩
    · intro hreg n
      rw [subscribed_of_node hnode]
      split_ifs with hn
      · subst hn
        exact ⟨fun _ => ⟨conn, rfl, rfl⟩, fun _ => Finset.mem_insert_self _ _⟩
      · rw [h.subscribed id hreg, hfree hreg]
        exact ⟨fun ⟨_, hc, _⟩ => (nomatch hc),
          fun ⟨_, hc, hcn⟩ => absurd (Option.some.inj hc ▸ hcn.symm) hn⟩
  by_cases hreg : w.db.Registered id
  · exact ⟨_, .take id conn (hfree hreg), hrep⟩
  · refine ⟨s, .stay, hrep.of_unregistered fun hreg' => hreg ?_⟩
    exact (Database.registered_updateUserState ..).mp ((Database.registered_congr huser id).mp hreg')

/-- Ending a session in the stores gives up the session that the connection holds. -/
theorem Represents.leave (h : Represents w s) (hbound : w.bound conn.node id = some conn)
    (huser : w'.db.user = (w.db.updateUserState id .offline).user)
    (hnode : w'.node = (w.setNode conn.node { w.node conn.node with
      userConnMap := (w.node conn.node).userConnMap.erase id
      subscriptions := (w.node conn.node).subscriptions.erase id }).node) :
    ∃ s', Sessions.Step s s' ∧ Represents w' s' := by
  have hheld : w.db.Registered id → s id = some conn := fun hreg =>
    ((h.bound id hreg _ _).mp hbound).1
  have hrep : Represents w' (Function.update s id none) := by
    refine h.update .offline huser ⟨fun hc => (nomatch hc), fun ⟨_, hc⟩ => (nomatch hc)⟩ ?_ ?_ ?_
    · intro n v hv
      rw [bound_of_node hnode, subscribed_of_node hnode]
      split_ifs with hn
      · subst hn
        exact ⟨AList.lookup_erase_ne hv,
          ⟨fun hm => (Finset.mem_erase.mp hm).2, fun hm => Finset.mem_erase.mpr ⟨hv, hm⟩⟩⟩
      · exact ⟨rfl, Iff.rfl⟩
    · intro hreg n c
      rw [bound_of_node hnode]
      split_ifs with hn
      · rw [AList.lookup_erase]
        exact ⟨fun hc => (nomatch hc), fun hc => (nomatch hc.1)⟩
      · rw [h.bound id hreg, hheld hreg]
        exact ⟨fun hc => absurd (Option.some.inj hc.1 ▸ hc.2.symm) hn, fun hc => (nomatch hc.1)⟩
    · intro hreg n
      rw [subscribed_of_node hnode]
      split_ifs with hn
      · exact ⟨fun hm => absurd rfl (Finset.mem_erase.mp hm).1, fun ⟨_, hc, _⟩ => (nomatch hc)⟩
      · rw [h.subscribed id hreg, hheld hreg]
        exact ⟨fun ⟨_, hc, hcn⟩ => absurd (Option.some.inj hc ▸ hcn.symm) hn,
          fun ⟨_, hc, _⟩ => (nomatch hc)⟩
  by_cases hreg : w.db.Registered id
  · exact ⟨_, .leave id conn (hheld hreg), hrep⟩
  · refine ⟨s, .stay, hrep.of_unregistered fun hreg' => hreg ?_⟩
    exact (Database.registered_updateUserState ..).mp ((Database.registered_congr huser id).mp hreg')

/-- The jobs that open and end sessions: login and loginout frames, and closed
connections. -/
def Job.IsSession : Job → Prop
  | .frame _ js _ => msgType? js = some .loginMsg ∨ msgType? js = some .loginoutMsg
  | .close _ => True
  | _ => False

instance : DecidablePred Job.IsSession
  | .frame _ _ _ => inferInstanceAs (Decidable (_ ∨ _))
  | .close _ => isTrue trivial
  | .redisMessage _ _ _ => isFalse not_false
  | .sigint _ => isFalse not_false

theorem Represents.close (h : Represents w s)
    (hredis : ∀ n, (w.node n).redisConnected = true)
    (hrun : (clientCloseException conn).Runs (Calm.Step (.close conn)) w () w') :
    ∃ s', Sessions.Step s s' ∧ Represents w' s' := by
  obtain ⟨-, rfl⟩ | ⟨id, hbound, hend⟩ :=
    Calm.runs_clientCloseException rfl (hredis conn.node) hrun
  · exact ⟨s, .stay, h⟩
  · split_ifs at hend with hid
    · refine ⟨s, .stay, h.congr (by rw [hend]; rfl) (fun n u hu => ?_) fun n => ?_⟩
      · rw [bound_of_node (congrArg World.node hend)]
        split_ifs with hn
        · have hne : u ≠ id := fun e => absurd (hid ▸ e ▸ hu.1) (by decide)
          rw [AList.lookup_erase_ne hne, hn, World.bound]
        · rfl
      · rw [hend, World.node_setNode]
        split_ifs with hn
        · rw [hn]
        · rfl
    · exact h.leave hbound hend.1 hend.2

variable [JsonParser] {j : Job}

/-- Each session handler, executed alone, simulates a step of the abstract sessions. -/
theorem Represents.handles (h : Represents w s) (hj : j.IsSession)
    (hredis : ∀ n, (w.node n).redisConnected = true) (hh : Cluster.Handles .calm w j w') :
    ∃ s', Sessions.Step s s' ∧ Represents w' s' := by
  obtain ⟨w₁, hstart, hrun⟩ := hh
  cases j with
  | frame conn js time =>
      obtain ⟨-, -, rfl⟩ := hstart
      rw [Job.body, onMessage_eq] at hrun
      rcases hj with hlogin | hlogout
      · rw [hlogin] at hrun
        obtain hsame | ⟨id, hid, hoff, huser, hnode⟩ := Calm.runs_login rfl (hredis _) hrun
        · exact ⟨s, .stay, hsame.represents h⟩
        · have hfree : w₁.db.userState id ≠ some .online := by
            intro hon
            obtain ⟨row, hrow, hst⟩ := Option.map_eq_some_iff.mp hon
            refine hoff ?_
            rw [hrow]
            exact hst
          exact h.take hfree huser hnode
      · rw [hlogout] at hrun
        obtain hsame | ⟨id, hbound, huser, hnode⟩ := Calm.runs_loginout rfl (hredis _) hrun
        · exact ⟨s, .stay, hsame.represents h⟩
        · exact h.leave hbound huser hnode
  | close conn =>
      obtain ⟨-, -, rfl⟩ := hstart
      have h₁ : Represents { w with closed := insert conn w.closed } s :=
        h.congr rfl (fun _ _ _ => rfl) fun _ => rfl
      exact h₁.close hredis hrun
  | redisMessage => exact hj.elim
  | sigint => exact hj.elim

/-- The stores refine the abstract sessions: every run of session handlers from a
quiescent cluster spells out sessions that the abstract steps reach. -/
theorem sessions_of_run {w₀ w : World} {js : List Job} (hw : w₀.Quiescent)
    (hredis : ∀ n, (w₀.node n).redisConnected = true) (hrun : Cluster.Run .calm w₀ js w)
    (hjs : ∀ j ∈ js, j.IsSession) :
    ∃ s, Relation.ReflTransGen Sessions.Step Sessions.free s ∧ Represents w s := by
  have hinv : (∀ n, (w.node n).redisConnected = true) ∧
      ∃ s, Relation.ReflTransGen Sessions.Step Sessions.free s ∧ Represents w s := by
    refine hrun.preserves (P := fun w => (∀ n, (w.node n).redisConnected = true) ∧
        ∃ s, Relation.ReflTransGen Sessions.Step Sessions.free s ∧ Represents w s) ?_ hjs
      ⟨hredis, _, .refl, hw.represents⟩
    rintro v j v' hj hh ⟨hv, s, hreach, hs⟩
    refine ⟨fun n => ?_, ?_⟩
    · rw [redisConnected_handles hh, hv]
    · obtain ⟨s', hstep, hs'⟩ := hs.handles hj hv hh
      exact ⟨s', hreach.tail hstep, hs'⟩
  exact hinv.2

/-- In every run of session handlers from a quiescent cluster the user table, the maps
and the subscriptions agree about every registered user. -/
theorem session_agreement {w₀ w : World} {js : List Job} (hw : w₀.Quiescent)
    (hredis : ∀ n, (w₀.node n).redisConnected = true) (hrun : Cluster.Run .calm w₀ js w)
    (hjs : ∀ j ∈ js, j.IsSession) {u : ℤ} (hu : w.db.Registered u) :
    (w.db.userState u = some .online ↔ ∃! n, ∃ c, w.bound n u = some c) ∧
      ∀ n, w.Subscribed n u ↔ ∃ c, w.bound n u = some c := by
  obtain ⟨s, -, hs⟩ := sessions_of_run hw hredis hrun hjs
  exact hs.agreement hu

end Simulation

/-- A login on node `0` and the refused second login of the same user on node `1`. -/
theorem session_agreement_two_logins : letI := Cluster.rejectAll
    ∃ w, Cluster.Run .calm (World.fresh (Statement.registered [("ann", "pw")]))
        [.frame ⟨0, 0⟩ (Client.loginRequest 1 "pw") "",
          .frame ⟨1, 0⟩ (Client.loginRequest 1 "pw") ""] w ∧
      w.bound 0 1 = some ⟨0, 0⟩ ∧
      (w.db.userState 1 = some .online ↔ ∃! n, ∃ c, w.bound n 1 = some c) ∧
      ∀ n, w.Subscribed n 1 ↔ ∃ c, w.bound n 1 = some c := by
  let _ := Cluster.rejectAll
  obtain ⟨w, hrun, hw⟩ := Cluster.exists_run (E := .calm)
    (w := World.fresh (Statement.registered [("ann", "pw")]))
    [({}, .frame ⟨0, 0⟩ (Client.loginRequest 1 "pw") ""),
      ({}, .frame ⟨1, 0⟩ (Client.loginRequest 1 "pw") "")]
    (p := fun w => w.bound 0 1 = some ⟨0, 0⟩ ∧ (w.db.selectUser 1).isSome) (by decide)
  simp only [Bool.decide_and, Bool.and_eq_true, decide_eq_true_eq] at hw
  refine ⟨w, hrun, hw.1, session_agreement (World.quiescent_fresh (by decide)) (fun _ => rfl) hrun
    ?_ ⟨by decide, Option.isSome_iff_exists.mp hw.2⟩⟩
  intro j hj
  simp only [List.map_cons, List.map_nil, List.mem_cons, List.not_mem_nil, or_false] at hj
  rcases hj with rfl | rfl
  · exact .inl (by decide)
  · exact .inl (by decide)

end ChatCluster
