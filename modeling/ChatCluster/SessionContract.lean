import ChatCluster.SessionPhase

/-!
# The contract of the session handlers

What holds of the stores in each phase of a session, and what each job promises: it
turns the cycle only where its own connection is entitled to. Only the claim itself
needs more, because finding the user offline does not tell a free session from one
that another login is about to open. A promised move leaves the stores in the phase
that the history says.
-/
namespace ChatCluster
open CommandProgram Interleaving

/-- The stores in phase `p`. Under `R` Redis is reliable, and the subscriptions of the
user follow the phase as well. -/
structure PhaseHolds (u : ℤ) (R : Prop) (p : Phase) (w : World) : Prop where
  row : ∃ r, w.db.selectUser u = some r ∧ r.state = p.userState
  bound : ∀ n d, w.bound n u = some d ↔ p.binding = some d ∧ d.node = n
  subscriber : R → ∀ n, w.Subscribed n u → ∃ c, p.subscriber = some c ∧ c.node = n
  established : R → ∀ c, p.established = some c → w.Subscribed c.node u
  redis : R → ∀ n, (w.node n).redisConnected = true

/-- The move is one of the I/O loop of connection `d`. -/
def MadeBy (e : ClusterEntry) (d : Conn) : Prop := e.job?.map Job.agent = some (.io d)

/-- The outcome of one move for user `u`. -/
structure PhaseStep (u : ℤ) (R : Prop) (p : Phase) (w : World) (e : ClusterEntry) (p' : Phase)
    (w' : World) : Prop where
  holds : PhaseHolds u R p' w'
  turn : p' = p ∨ ∃ d, MadeBy e d ∧ Phase.Turn u d e p p'
  gained : R → ∀ n, w'.Subscribed n u → w.Subscribed n u ∨ ∃ d, MadeBy e d ∧ p = .bound d
  kept : R → ∀ n, w.Subscribed n u → w'.Subscribed n u ∨ ∃ d, MadeBy e d ∧ p = .closing d

/-- The stores of user `u` are the same in both worlds. -/
structure SameFor (u : ℤ) (w w' : World) : Prop where
  row : ∀ r, w.db.selectUser u = some r → w'.db.selectUser u = some r
  bound : ∀ n, w'.bound n u = w.bound n u
  sub : ∀ n, w'.Subscribed n u ↔ w.Subscribed n u
  redis : ∀ n, (w'.node n).redisConnected = (w.node n).redisConnected

section Steps
variable {u : ℤ} {R : Prop} {p : Phase} {w w' : World} {a : Agent} {o : Choice}

theorem PhaseHolds.frame (h : PhaseHolds u R p w) (hw : SameFor u w w') : PhaseHolds u R p w' where
  row := by
    obtain ⟨r, hr, hst⟩ := h.row
    exact ⟨r, hw.row r hr, hst⟩
  bound n d := by
    rw [hw.bound]
    exact h.bound n d
  subscriber hR n hn := h.subscriber hR n ((hw.sub n).mp hn)
  established hR c hp := (hw.sub c.node).mpr (h.established hR c hp)
  redis hR n := (hw.redis n).trans (h.redis hR n)

/-- A move that the stores of the user do not notice. -/
theorem PhaseHolds.quiet (h : PhaseHolds u R p w) (hw : SameFor u w w') {e : ClusterEntry} :
    PhaseStep u R p w e p w' where
  holds := h.frame hw
  turn := .inl rfl
  gained _ n hn := .inl ((hw.sub n).mp hn)
  kept _ n hn := .inl ((hw.sub n).mpr hn)

/-- A turn of the cycle that leaves the subscriptions of the user alone. -/
theorem PhaseStep.turning {p' : Phase} {d : Conn} {e : ClusterEntry} (h : PhaseHolds u R p' w')
    (he : MadeBy e d) (ht : Phase.Turn u d e p p')
    (hsub : ∀ n, w'.Subscribed n u ↔ w.Subscribed n u) : PhaseStep u R p w e p' w' where
  holds := h
  turn := .inr ⟨d, he, ht⟩
  gained _ n hn := .inl ((hsub n).mp hn)
  kept _ n hn := .inl ((hsub n).mpr hn)

theorem sameFor_neutral {c : Command} {r : Response c} (hc : c.Neutral)
    (h : exec o a c w = some (r, w')) : SameFor u w w' where
  row _ hr := selectUser_exec hc.1 h hr
  bound n := by rw [World.bound, userConnMap_exec hc.2.1 h, World.bound]
  sub n := by rw [World.Subscribed, subscriptions_exec hc.2.2 h, World.Subscribed]
  redis := redisConnected_exec h

/-- A step on a node that keeps what concerns user `u`. -/
theorem sameFor_setNode {n : ℕ} {s : NodeState}
    (hbound : s.userConnMap.lookup u = w.bound n u)
    (hsub : u ∈ s.subscriptions ↔ w.Subscribed n u)
    (hredis : s.redisConnected = (w.node n).redisConnected) :
    SameFor u w (w.setNode n s) where
  row _ hr := hr
  bound m := by
    rw [bound_of_node rfl]
    split_ifs with hm
    · rw [hm, hbound]
    · rfl
  sub m := by
    rw [subscribed_of_node rfl]
    split_ifs with hm
    · rw [hm, hsub]
    · rfl
  redis m := by
    rw [World.node_setNode]
    split_ifs with hm
    · rw [hm, hredis]
    · rfl

/-! ## The turns of the cycle in the stores -/

theorem sameFor_updateUserState {id : ℤ} (hid : id ≠ u) (state : UserState) :
    SameFor u w { w with db := w.db.updateUserState id state } where
  row r hr := by
    dsimp only
    rw [Database.selectUser_updateUserState, hr, Option.map_some, if_neg hid.symm]
  bound _ := rfl
  sub _ := Iff.rfl
  redis _ := rfl

theorem PhaseHolds.claim (h : PhaseHolds u R .free w) (c : Conn) :
    PhaseHolds u R (.claimed c) w where
  row := h.row
  bound := h.bound
  subscriber := h.subscriber
  established _ _ hp := nomatch hp
  redis := h.redis

theorem PhaseHolds.answer {c : Conn} (h : PhaseHolds u R (.opened c) w) :
    PhaseHolds u R (.active c) w where
  row := h.row
  bound := h.bound
  subscriber := h.subscriber
  established := h.established
  redis := h.redis

theorem row_updateUserState (h : PhaseHolds u R p w) (state : UserState) :
    ∃ r, (w.db.updateUserState u state).selectUser u = some r ∧ r.state = state := by
  obtain ⟨r, hr, -⟩ := h.row
  refine ⟨{ r with state := state }, ?_, rfl⟩
  rw [Database.selectUser_updateUserState, hr, Option.map_some, if_pos rfl]

theorem PhaseHolds.open {c : Conn} (h : PhaseHolds u R (.bound c) w)
    (hsub : R → w.Subscribed c.node u) :
    PhaseHolds u R (.opened c) { w with db := w.db.updateUserState u .online } where
  row := row_updateUserState h .online
  bound := h.bound
  subscriber := h.subscriber
  established hR d hp := by
    cases hp
    exact hsub hR
  redis := h.redis

theorem PhaseHolds.finish {c : Conn} (h : PhaseHolds u R (.closing c) w)
    (hsub : R → ∀ n, ¬ w.Subscribed n u) :
    PhaseHolds u R .free { w with db := w.db.updateUserState u .offline } where
  row := row_updateUserState h .offline
  bound := h.bound
  subscriber hR n hn := absurd hn (hsub hR n)
  established _ _ hp := nomatch hp
  redis := h.redis

theorem PhaseHolds.bind {c : Conn} (h : PhaseHolds u R (.claimed c) w) :
    PhaseHolds u R (.bound c) (w.setNode c.node { w.node c.node with
      userConnMap := (w.node c.node).userConnMap.insert u c }) where
  row := h.row
  bound n d := by
    rw [bound_of_node rfl]
    split_ifs with hn
    · rw [AList.lookup_insert, hn]
      exact ⟨fun hd => ⟨hd, by rw [← Option.some.inj hd]⟩, fun hd => hd.1⟩
    · rw [h.bound]
      exact ⟨fun hd => (nomatch hd.1), fun hd => absurd (Option.some.inj hd.1 ▸ hd.2.symm) hn⟩
  subscriber hR n hn := by
    rw [subscribed_of_node rfl] at hn
    have hn' : w.Subscribed n u := by
      split_ifs at hn with hc
      · exact hc ▸ hn
      · exact hn
    obtain ⟨_, hd, -⟩ := h.subscriber hR n hn'
    cases hd
  established _ _ hp := nomatch hp
  redis hR n := by
    rw [World.node_setNode]
    split_ifs
    · exact h.redis hR c.node
    · exact h.redis hR n

theorem PhaseHolds.erase {c : Conn} (h : PhaseHolds u R (.active c) w) :
    PhaseHolds u R (.closing c) (w.setNode c.node { w.node c.node with
      userConnMap := (w.node c.node).userConnMap.erase u }) where
  row := h.row
  bound n d := by
    rw [bound_of_node rfl]
    split_ifs with hn
    · rw [AList.lookup_erase]
      exact ⟨fun hd => (nomatch hd), fun hd => (nomatch hd.1)⟩
    · rw [h.bound]
      exact ⟨fun hd => absurd (Option.some.inj hd.1 ▸ hd.2.symm) hn, fun hd => (nomatch hd.1)⟩
  subscriber hR n hn := by
    rw [subscribed_of_node rfl] at hn
    split_ifs at hn with hc
    · exact ⟨c, rfl, hc.symm⟩
    · exact h.subscriber hR n hn
  established _ _ hp := nomatch hp
  redis hR n := by
    rw [World.node_setNode]
    split_ifs
    · exact h.redis hR c.node
    · exact h.redis hR n

theorem PhaseHolds.subscribe {c : Conn} (h : PhaseHolds u R (.bound c) w) :
    PhaseHolds u R (.bound c) (w.setNode c.node { w.node c.node with
      subscriptions := insert u (w.node c.node).subscriptions }) where
  row := h.row
  bound n d := by
    rw [bound_of_node rfl]
    split_ifs with hn
    · rw [← h.bound, hn]
      rfl
    · exact h.bound n d
  subscriber hR n hn := by
    rw [subscribed_of_node rfl] at hn
    split_ifs at hn with hc
    · exact ⟨c, rfl, hc.symm⟩
    · exact h.subscriber hR n hn
  established _ _ hp := nomatch hp
  redis hR n := by
    rw [World.node_setNode]
    split_ifs
    · exact h.redis hR c.node
    · exact h.redis hR n

theorem PhaseHolds.unsubscribe {c : Conn} (h : PhaseHolds u R (.closing c) w) :
    PhaseHolds u R (.closing c) (w.setNode c.node { w.node c.node with
      subscriptions := (w.node c.node).subscriptions.erase u }) where
  row := h.row
  bound n d := by
    rw [bound_of_node rfl]
    split_ifs with hn
    · rw [← h.bound, hn]
      rfl
    · exact h.bound n d
  subscriber hR n hn := by
    rw [subscribed_of_node rfl] at hn
    split_ifs at hn with hc
    · exact absurd rfl (Finset.mem_erase.mp hn).1
    · exact h.subscriber hR n hn
  established _ _ hp := nomatch hp
  redis hR n := by
    rw [World.node_setNode]
    split_ifs
    · exact h.redis hR c.node
    · exact h.redis hR n

end Steps

/-! ## The contract -/

/-- Where a job may advance the cycle of user `u`: each turn belongs to the I/O loop of
the connection that the phase names. -/
def MayTurn (u : ℤ) (R : Prop) (j : Job) (p : Phase) (w : World) : Command → Prop
  | .sql (.selectUser id) => id = u → j.IsLogin → ∀ c, j.agent = .io c → p.owner ≠ some c
  | .sql (.updateUserState id .online) =>
      id = u → ∃ c, j.agent = .io c ∧ p = .bound c ∧ (R → w.Subscribed c.node u)
  | .sql (.updateUserState id .offline) =>
      id = u → ∃ c, j.agent = .io c ∧ p = .closing c ∧ (R → ∀ n, ¬ w.Subscribed n u)
  | .sql .resetUserStates => False
  | .node (.mapBind id conn) => j.agent = .io conn ∧ j.IsLogin ∧ (id = u → p = .claimed conn)
  | .node (.mapErase id) => id = u → ¬ j.IsLogin ∧ ∃ c, j.agent = .io c ∧ p = .active c
  | .node (.mapEraseConn conn) => ¬ j.IsLogin ∧ j.agent = .io conn ∧ p.owner ≠ some conn
  | .node (.redisSubscribe id) => id = u → ∃ c, j.agent = .io c ∧ p = .bound c
  | .node (.redisUnsubscribe id) => id = u → ∃ c, j.agent = .io c ∧ p = .closing c
  | .node .exit => False
  | .sendTo conn s => confirmedUser? s = some u → j.agent = .io conn ∧ p = .opened conn
  | _ => True

/-- What is assumed of the outside. The statements on users succeed, no handler is
stopped, no process is shut down, and no login of `u` finds the user offline while
another one is between its check and its write of `online`. -/
structure SessionRules (u : ℤ) (p₀ : Phase) (R : Prop) (E : Environment)
    (admits : ClusterView → ClusterEntry → Prop) : Prop where
  sqlOk : ∀ j q, q.WritesUsers ∨ q.IsUserQuery → ¬ E.mayFail j (.sql q)
  redisOk : R → ∀ j q, ¬ E.mayFail j (.node q)
  undisturbed : R → ∀ w w', ¬ E.mayDisturb w w'
  noAbort : ∀ v j, ¬ admits v (.aborted j)
  noSignal : ∀ v n, ¬ admits v (.started (.sigint n))
  noOverlap : ∀ v conn js time row, (phase u p₀ v.past).owner ≠ some conn →
    admits v (.did (.frame conn js time) (.sql (.selectUser u)) row) →
      loginPasses u js row = true → (phase u p₀ v.past).pending = false

section Rules
variable {u : ℤ} {p₀ p : Phase} {R : Prop} {E : Environment}
  {admits : ClusterView → ClusterEntry → Prop} {j : Job} {w w' : World}

theorem step_starts (h : PhaseHolds u R p w) (hs : j.Starts w w') {e : ClusterEntry} :
    PhaseStep u R p w e p w' :=
  h.quiet
    { row := fun r hr => by rw [Job.db_starts hs]; exact hr
      bound := fun n => by rw [World.bound, (Job.node_starts hs n).1, World.bound]
      sub := fun n => by rw [World.Subscribed, (Job.node_starts hs n).2.1, World.Subscribed]
      redis := fun n => (Job.node_starts hs n).2.2 }

/-- Disturbances leave the rows and the maps alone; what they do to Redis matters only
where Redis is relied on. -/
theorem step_disturbed (hR : ¬ R) (h : PhaseHolds u R p w) (hd : Disturbance w w')
    {e : ClusterEntry} : PhaseStep u R p w e p w' := by
  have hsame : w'.db.user = w.db.user ∧ ∀ n, w'.bound n u = w.bound n u := by
    cases hd with
    | tick => exact ⟨rfl, fun _ => rfl⟩
    | redisDown m | messageLost m | crash m =>
        refine ⟨rfl, fun n => ?_⟩
        rw [bound_of_node rfl]
        split_ifs with hn
        · rw [hn]; rfl
        · rfl
  refine ⟨⟨?_, fun n d => ?_, fun hr => absurd hr hR, fun hr => absurd hr hR,
    fun hr => absurd hr hR⟩, .inl rfl, fun hr => absurd hr hR, fun hr => absurd hr hR⟩
  · obtain ⟨r, hr, hst⟩ := h.row
    refine ⟨r, ?_, hst⟩
    rw [Database.selectUser, hsame.1]
    exact hr
  · rw [hsame.2]
    exact h.bound n d

theorem step_neutral {c : Command} {r : Response c} {o : Choice} (h : PhaseHolds u R p w)
    (he : exec o j.agent c w = some (r, w')) (hc : c.Neutral) {e : ClusterEntry} :
    PhaseStep u R p w e p w' := h.quiet (sameFor_neutral hc he)

/-- The check of a login: it claims the session when it finds the user offline. -/
theorem step_selectUser {id : ℤ} {row : Option UserRow} {o : Choice} (h : PhaseHolds u R p w)
    (hok : o.ok = true) (he : exec o j.agent (.sql (.selectUser id)) w = some (row, w'))
    (hover : ∀ conn js time, j = .frame conn js time → id = u → loginPasses u js row = true →
      p.pending = false) :
    PhaseStep u R p w (.did j (.sql (.selectUser id)) row)
      (p.afterCommand u j (.sql (.selectUser id)) row) w' := by
  obtain ⟨hrow, rfl⟩ := exec_sql he
  rw [hok] at hrow ⊢
  have hquiet : ∀ {e}, PhaseStep u R p w e p w := fun {_} =>
    h.quiet ⟨fun _ hr => hr, fun _ => rfl, fun _ => Iff.rfl, fun _ => rfl⟩
  simp only [Phase.afterCommand]
  split_ifs with hid
  · subst hid
    cases j with
    | frame conn js time =>
        simp only [Phase.afterCheck]
        split_ifs with hpass
        · have hpending := hover conn js time rfl rfl hpass
          obtain ⟨r, hr, hst⟩ := h.row
          have hoff : p.userState ≠ .online := by
            have := (of_decide_eq_true hpass).2.2.2.2
            rw [hrow] at this
            change (User.ofRow (w.db.selectUser id)).state ≠ .online at this
            rw [hr] at this
            rw [← hst]
            exact this
          cases p with
          | free =>
              exact .turning (h.claim conn) rfl (.claim js time _ hpass) fun _ => Iff.rfl
          | claimed | bound => cases hpending
          | opened | active | closing => exact absurd rfl hoff
        · exact hquiet
    | close => exact hquiet
    | redisMessage => exact hquiet
    | sigint => exact hquiet
  · exact hquiet

theorem step_updateUserState {id : ℤ} {state : UserState} {r : Bool} {o : Choice}
    (h : PhaseHolds u R p w) (hok : o.ok = true)
    (he : exec o j.agent (.sql (.updateUserState id state)) w = some (r, w'))
    (hmay : MayTurn u R j p w (.sql (.updateUserState id state))) :
    PhaseStep u R p w (.did j (.sql (.updateUserState id state)) r)
      (p.afterCommand u j (.sql (.updateUserState id state)) r) w' := by
  obtain ⟨-, rfl⟩ := exec_sql he
  rw [hok]
  by_cases hid : id = u
  · subst hid
    cases state with
    | online =>
        obtain ⟨c, hj, rfl, hsub⟩ := hmay rfl
        simp only [Phase.afterCommand, if_true]
        exact .turning (h.open hsub) (congrArg some hj) (.online j r) fun _ => Iff.rfl
    | offline =>
        obtain ⟨c, hj, rfl, hsub⟩ := hmay rfl
        simp only [Phase.afterCommand, if_true]
        exact .turning (h.finish hsub) (congrArg some hj) (.offline j r) fun _ => Iff.rfl
  · simp only [Phase.afterCommand, if_neg hid]
    exact h.quiet (sameFor_updateUserState hid state)

theorem step_mapBind {id : ℤ} {conn : Conn} {r : Unit} {o : Choice} (h : PhaseHolds u R p w)
    (he : exec o j.agent (.node (.mapBind id conn)) w = some (r, w'))
    (hmay : MayTurn u R j p w (.node (.mapBind id conn))) :
    PhaseStep u R p w (.did j (.node (.mapBind id conn)) r)
      (p.afterCommand u j (.node (.mapBind id conn)) r) w' := by
  obtain ⟨s', hs, rfl⟩ := exec_node he
  obtain rfl := NodeOp.exec_mapBind hs
  simp only [Phase.afterCommand]
  split_ifs with hid
  · obtain ⟨hj, hlogin, hclaimed⟩ := hmay
    obtain rfl := hclaimed hid
    subst hid
    rw [hj]
    refine .turning h.bind (congrArg some hj) (.bind j hlogin) fun n => ?_
    rw [subscribed_of_node rfl]
    split_ifs with hn
    · rw [hn]; rfl
    · rfl
  · refine h.quiet (sameFor_setNode ?_ ?_ ?_)
    · exact AList.lookup_insert_ne (Ne.symm hid)
    · rfl
    · rfl

/-- Both ways of erasing the entry of the user end in the same state. -/
theorem step_erase {c : Conn} (h : PhaseHolds u R (.active c) w)
    {e : ClusterEntry} (he : MadeBy e c) (ht : Phase.Turn u c e (.active c) (.closing c)) :
    PhaseStep u R (.active c) w e (.closing c) (w.setNode c.node { w.node c.node with
      userConnMap := (w.node c.node).userConnMap.erase u }) := by
  refine .turning h.erase he ht fun n => ?_
  rw [subscribed_of_node rfl]
  split_ifs with hn
  · rw [hn]; rfl
  · rfl

theorem step_mapErase {id : ℤ} {r : Unit} {o : Choice} (h : PhaseHolds u R p w)
    (he : exec o j.agent (.node (.mapErase id)) w = some (r, w'))
    (hmay : MayTurn u R j p w (.node (.mapErase id))) :
    PhaseStep u R p w (.did j (.node (.mapErase id)) r)
      (p.afterCommand u j (.node (.mapErase id)) r) w' := by
  obtain ⟨s', hs, rfl⟩ := exec_node he
  obtain rfl := NodeOp.exec_mapErase hs
  simp only [Phase.afterCommand]
  split_ifs with hid
  · obtain ⟨hlogin, c, hj, rfl⟩ := hmay hid
    subst hid
    rw [hj]
    exact step_erase h (congrArg some hj) (.erase j hlogin)
  · refine h.quiet (sameFor_setNode ?_ ?_ ?_)
    · exact AList.lookup_erase_ne (Ne.symm hid)
    · rfl
    · rfl

/-- Only the entry of an active session can be met: a login that has bound the same
connection runs in the same loop. -/
theorem step_mapEraseConn {conn : Conn} {r : Option ℤ} {o : Choice} (h : PhaseHolds u R p w)
    (he : exec o j.agent (.node (.mapEraseConn conn)) w = some (r, w'))
    (hmay : MayTurn u R j p w (.node (.mapEraseConn conn))) :
    PhaseStep u R p w (.did j (.node (.mapEraseConn conn)) r)
      (p.afterCommand u j (.node (.mapEraseConn conn)) r) w' := by
  obtain ⟨hlogin, hj, hnot⟩ := hmay
  obtain ⟨s', hs, rfl⟩ := exec_node he
  rw [hj] at hs ⊢
  obtain ⟨id, rfl, hlookup, rfl⟩ | ⟨rfl, -, rfl⟩ := NodeOp.exec_mapEraseConn hs
  · simp only [Phase.afterCommand, Option.some.injEq]
    split_ifs with hid
    · subst hid
      have hbinding := ((h.bound _ _).mp hlookup).1
      cases p with
      | free | claimed | closing => cases hbinding
      | bound | opened => exact absurd hbinding hnot
      | active c =>
          obtain rfl := Option.some.inj hbinding
          exact step_erase h (congrArg some hj) (.eraseConn j hlogin)
    · refine h.quiet (sameFor_setNode ?_ ?_ ?_)
      · exact AList.lookup_erase_ne (Ne.symm hid)
      · rfl
      · rfl
  · rw [World.setNode_node]
    exact h.quiet ⟨fun _ hr => hr, fun _ => rfl, fun _ => Iff.rfl, fun _ => rfl⟩

theorem step_redisSubscribe {id : ℤ} {r : Bool} {o : Choice} (h : PhaseHolds u R p w)
    (he : exec o j.agent (.node (.redisSubscribe id)) w = some (r, w'))
    (hmay : MayTurn u R j p w (.node (.redisSubscribe id))) :
    PhaseStep u R p w (.did j (.node (.redisSubscribe id)) r) p w' := by
  obtain ⟨s', hs, rfl⟩ := exec_node he
  rw [NodeOp.exec_redisSubscribe hs]
  split_ifs
  · by_cases hid : id = u
    · obtain ⟨c, hj, rfl⟩ := hmay hid
      subst hid
      rw [hj]
      refine ⟨h.subscribe, .inl rfl, fun _ n _ => .inr ⟨c, congrArg some hj, rfl⟩,
        fun _ n hn => .inl ?_⟩
      rw [subscribed_of_node rfl]
      split_ifs with hc
      · exact Finset.mem_insert_self _ _
      · exact hn
    · refine h.quiet (sameFor_setNode ?_ ?_ ?_)
      · rfl
      · exact ⟨fun hm => (Finset.mem_insert.mp hm).resolve_left (Ne.symm hid),
          Finset.mem_insert_of_mem⟩
      · rfl
  · rw [World.setNode_node]
    exact h.quiet ⟨fun _ hr => hr, fun _ => rfl, fun _ => Iff.rfl, fun _ => rfl⟩

theorem step_redisUnsubscribe {id : ℤ} {r : Bool} {o : Choice} (h : PhaseHolds u R p w)
    (he : exec o j.agent (.node (.redisUnsubscribe id)) w = some (r, w'))
    (hmay : MayTurn u R j p w (.node (.redisUnsubscribe id))) :
    PhaseStep u R p w (.did j (.node (.redisUnsubscribe id)) r) p w' := by
  obtain ⟨s', hs, rfl⟩ := exec_node he
  rw [NodeOp.exec_redisUnsubscribe hs]
  split_ifs
  · by_cases hid : id = u
    · obtain ⟨c, hj, rfl⟩ := hmay hid
      subst hid
      rw [hj]
      refine ⟨h.unsubscribe, .inl rfl, fun _ n hn => .inl ?_, fun _ n _ =>
        .inr ⟨c, congrArg some hj, rfl⟩⟩
      rw [subscribed_of_node rfl] at hn
      split_ifs at hn with hc
      · exact absurd rfl (Finset.mem_erase.mp hn).1
      · exact hn
    · refine h.quiet (sameFor_setNode ?_ ?_ ?_)
      · rfl
      · exact ⟨fun hm => (Finset.mem_erase.mp hm).2,
          fun hm => Finset.mem_erase.mpr ⟨Ne.symm hid, hm⟩⟩
      · rfl
  · rw [World.setNode_node]
    exact h.quiet ⟨fun _ hr => hr, fun _ => rfl, fun _ => Iff.rfl, fun _ => rfl⟩

theorem step_sendTo {conn : Conn} {s : Sent} {r : Unit} {o : Choice} (h : PhaseHolds u R p w)
    (he : exec o j.agent (.sendTo conn s) w = some (r, w'))
    (hmay : MayTurn u R j p w (.sendTo conn s)) :
    PhaseStep u R p w (.did j (.sendTo conn s) r) (p.afterCommand u j (.sendTo conn s) r)
      w' := by
  have hsame : SameFor u w w' := sameFor_neutral (neutral_sendTo conn s) he
  simp only [Phase.afterCommand]
  split_ifs with hs
  · obtain ⟨hj, rfl⟩ := hmay hs
    exact .turning (h.frame hsame).answer (congrArg some hj) (.answer j s hs) hsame.sub
  · exact h.quiet hsame

variable [JsonParser]

def sessionContract (u : ℤ) (p₀ : Phase) (R : Prop) : Contract World Job Command Response where
  inv := fun v => PhaseHolds u R (phase u p₀ v.past) v.state
  may := fun j v c => MayTurn u R j (phase u p₀ v.past) v.state c

/-- The step lemma: a move that keeps the promise leaves the stores in the phase that
the history says, and the phase turns only in the hands of the moving connection. -/
theorem phaseStep_of_moves (hrules : SessionRules u p₀ R E admits) {v v' : ClusterView}
    {e : ClusterEntry} (h : (sessionContract u p₀ R).inv v) (hm : Moves (cluster E admits) v e v')
    (hp : (sessionContract u p₀ R).Promised v e) :
    PhaseStep u R (phase u p₀ v.past) v.state e (phase u p₀ v'.past) v'.state := by
  rw [hm.recorded]
  cases e with
  | started j => exact step_starts h hm.effect
  | aborted j => exact absurd hm.admitted (hrules.noAbort v j)
  | disturbed =>
      have hR : ¬ R := fun hR => hrules.undisturbed hR _ _ hm.effect.1
      exact step_disturbed hR h hm.effect.2
  | did j c r =>
      obtain ⟨-, o, hok, he⟩ := hm.effect
      cases c with
      | sql q =>
          have hsucc : q.WritesUsers ∨ q.IsUserQuery → o.ok = true := fun hq => by
            simpa using mt hok (hrules.sqlOk j q hq)
          cases q with
          | selectUser id =>
              refine step_selectUser h (hsucc (.inr trivial)) he fun conn js time hj hid hpass => ?_
              subst hj hid
              have hlogin : Job.IsLogin (.frame conn js time) := (of_decide_eq_true hpass).1
              exact hrules.noOverlap v conn js time r (hp rfl hlogin conn rfl) hm.admitted hpass
          | updateUserState id state =>
              exact step_updateUserState h (hsucc (.inl trivial)) he hp
          | resetUserStates => exact hp.elim
          | _ => exact step_neutral h he (neutral_sql not_false)
      | node q =>
          cases q with
          | mapBind id conn => exact step_mapBind h he hp
          | mapErase id => exact step_mapErase h he hp
          | mapEraseConn conn => exact step_mapEraseConn h he hp
          | redisSubscribe id => exact step_redisSubscribe h he hp
          | redisUnsubscribe id => exact step_redisUnsubscribe h he hp
          | exit => exact hp.elim
          | _ => exact step_neutral h he (neutral_node not_false not_false)
      | redisPublish channel message => exact step_neutral h he (neutral_redisPublish _ _)
      | sendTo conn s => exact step_sendTo h he hp

end Rules
end ChatCluster
