import ChatCluster.SessionContract

/-!
# The session handlers under interleaving

The proof outlines of `login`, `loginout` and `clientCloseException` under the
contract of `SessionContract.lean`, in any interleaving with other session handlers. A
handler at rest owns no part of the cycle, and says what it has left behind.
-/
namespace ChatCluster
open CommandProgram Interleaving

/-- Commands of job `j` by which the cycle of user `u` is not concerned. -/
def Command.Aside (u : ℤ) (j : Job) : Command → Prop
  | .sql (.selectUser id) => id = u → ¬ j.IsLogin
  | .sql (.updateUserState id _) => id ≠ u
  | .sql .resetUserStates => False
  | .node (.mapBind id conn) => id ≠ u ∧ j.agent = .io conn ∧ j.IsLogin
  | .node (.mapErase id) => id ≠ u
  | .node (.mapEraseConn _) => False
  | .node (.redisSubscribe id) => id ≠ u
  | .node (.redisUnsubscribe id) => id ≠ u
  | .node .exit => False
  | .sendTo _ s => confirmedUser? s ≠ some u
  | _ => True

namespace Command.Aside
variable {u : ℤ} {j : Job} {c : Command}

theorem mayTurn (h : c.Aside u j) (R : Prop) (p : Phase) (w : World) :
    MayTurn u R j p w c := by
  cases c with
  | sql q =>
      cases q with
      | selectUser id => exact fun hid hlogin => absurd hlogin (h hid)
      | updateUserState id state => cases state <;> exact fun hid => absurd hid h
      | resetUserStates => exact h.elim
      | _ => trivial
  | node q =>
      cases q with
      | mapBind => exact ⟨h.2.1, h.2.2, fun hid => absurd hid h.1⟩
      | mapErase | redisSubscribe | redisUnsubscribe => exact fun hid => absurd hid h
      | mapEraseConn | exit => exact h.elim
      | _ => trivial
  | redisPublish => trivial
  | sendTo conn s => exact fun hs => absurd hs h

theorem afterCommand {p : Phase} {r : Response c} (h : c.Aside u j) :
    p.afterCommand u j c r = p := by
  cases c with
  | sql q =>
      cases q with
      | selectUser id =>
          simp only [Phase.afterCommand]
          split_ifs with hid
          · exact Phase.afterCheck_of_not_isLogin (h hid)
          · rfl
      | updateUserState => exact if_neg h
      | _ => rfl
  | node q =>
      cases q with
      | mapBind => exact if_neg h.1
      | mapErase => exact if_neg h
      | mapEraseConn => exact h.elim
      | _ => rfl
  | redisPublish => rfl
  | sendTo conn s => exact if_neg h

end Command.Aside

theorem Command.Unrelated.aside {u : ℤ} {j : Job} {c : Command} (h : c.Unrelated) :
    c.Aside u j := by
  obtain ⟨q, rfl, hq, -, hq'⟩ := h
  cases q with
  | selectUser => exact absurd trivial hq'
  | updateUserState | resetUserStates => exact absurd trivial hq
  | _ => trivial

theorem Command.OfContacts.aside {u : ℤ} {j : Job} {c : Command} (h : c.OfContacts) :
    c.Aside u j := by
  cases h with
  | unrelated c hc => exact hc.aside
  | insertUser | check => trivial
  | answer conn response t ht hor =>
      rw [Command.Aside, confirmedUser?_of_msgType ht (by rcases hor with rfl | rfl <;> decide)]
      exact (Option.some_ne_none u).symm

theorem Command.OfTeardown.aside {u : ℤ} {j : Job} {c : Command}
    (h : c.OfTeardown fun id => id ≠ u) : c.Aside u j := by
  cases h with
  | check | redis => trivial
  | erase id hid | unsubscribe id hid | offline id hid => exact hid

theorem Command.OfDelivery.aside {u : ℤ} {j : Job} {c : Command} (hj : ¬ j.IsLogin)
    (h : c.OfDelivery (fun _ _ _ => True) fun s => confirmedUser? s = none) : c.Aside u j := by
  cases h with
  | send conn s hs =>
      rw [Command.Aside, hs]
      exact (Option.some_ne_none u).symm
  | query id => exact fun _ => hj
  | _ => trivial

theorem aside_otherFrame {u : ℤ} {conn : Conn} {js : Json} {time : String}
    (hlogin : msgType? js ≠ some .loginMsg) (hlogout : msgType? js ≠ some .loginoutMsg) :
    (onMessage conn js time).All (Command.Aside u (.frame conn js time)) := by
  have hdelivery : ∀ {p : Program Unit}, p.All (Command.OfDelivery (fun _ _ _ => True)
      fun s => confirmedUser? s = none) → p.All (Command.Aside u (.frame conn js time)) :=
    fun hp => hp.mono fun _ => Command.OfDelivery.aside hlogin
  apply onMessage_handlers (T := fun p => p.All (Command.Aside u (.frame conn js time)))
  · exact fun h => absurd h hlogin
  · exact fun h => absurd h hlogout
  · exact fun p hp => hp.mono fun _ => Command.OfContacts.aside
  · exact fun h => hdelivery (ofDelivery_oneChat (fun _ _ _ _ _ _ _ _ => trivial)
      (confirmedUser?_stamped h (by decide)).1)
  · exact fun h => hdelivery (ofDelivery_groupChat (fun _ _ _ _ _ _ _ => trivial)
      (confirmedUser?_stamped h (by decide)).2)
  · exact fun _ => hdelivery ofDelivery_messageAck

theorem aside_syncSession {u : ℤ} {j : Job} (id : ℤ) (user : User) :
    (syncSession id user).All (Command.Aside u j) :=
  all_syncSession trivial (fun _ => trivial) fun _ h => h.unrelated.aside

/-- The two ways in which a login attempt is turned down. -/
def IsRefusal (s : Sent) : Prop :=
  ∃ errno errmsg, (errno = 1 ∨ errno = 2) ∧ s = .json (errorResponse .loginMsgAck errno errmsg)

section Aside
variable {u : ℤ} {j : Job} {conn : Conn}

/-- A login of another user does not confirm one of `u`. -/
theorem ofLogin_other {js : Json} (hid : getInt js "id" ≠ some u) :
    (login conn js).All (Command.OfLogin conn (getInt js "id") fun response =>
      confirmedUser? (.json response) ≠ some u) := by
  refine ofLogin_login (fun errno errmsg h => ?_) fun user _ _ _ huser => ?_
  · rw [confirmedUser?_errorResponse h]
    exact (Option.some_ne_none u).symm
  · obtain ⟨hl, hu⟩ := getInt_range huser
    rw [confirmedUser?_loginResponse hl hu, ← huser]
    exact hid

theorem aside_login {js : Json} (hj : j.agent = .io conn) (hlogin : j.IsLogin)
    (hid : getInt js "id" ≠ some u) : (login conn js).All (Command.Aside u j) := by
  refine (ofLogin_other hid).mono fun c hc => ?_
  have hne : ∀ {id}, getInt js "id" = some id → id ≠ u := fun h e => hid (e ▸ h)
  cases hc with
  | query id h => exact fun e => absurd e (hne h)
  | online id h | subscribe id h => exact hne h
  | bind id h => exact ⟨hne h, hj, hlogin⟩
  | read | mark | redis => trivial
  | unrelated c hc => exact hc.aside
  | answer response h => exact h

end Aside

/-- The job has answered user `u` on the connection. -/
def Answered (u : ℤ) (conn : Conn) (j : Job) (v : ClusterView) : Prop :=
  ∃ s, .did j (.sendTo conn s) () ∈ v.past ∧ (confirmedUser? s = some u ∨ IsRefusal s)

/-- What the phase says about the entry of the user on the node of a connection. -/
theorem bound_iff_binding {u : ℤ} {R : Prop} {p₀ : Phase} {v : ClusterView} {conn : Conn}
    (hv : (sessionContract u p₀ R).inv v) :
    v.state.bound conn.node u = some conn ↔ (phase u p₀ v.past).binding = some conn :=
  (hv.bound conn.node conn).trans ⟨fun h => h.1, fun h => ⟨h, rfl⟩⟩

section Outlines
variable [JsonParser] {u : ℤ} {R : Prop} {p₀ p : Phase} {E : Environment}
  {admits : ClusterView → ClusterEntry → Prop} {j : Job} {v v' : ClusterView} {conn : Conn}

theorem phase_did {c : Command} {r : Response c}
    (hm : Moves (cluster E admits) v (.did j c r) v') :
    phase u p₀ v'.past = (phase u p₀ v.past).afterCommand u j c r := by
  rw [hm.recorded]
  rfl

/-! ## Stable assertions -/

theorem stable_phase (hrules : SessionRules u p₀ R E admits) {a : Agent} (ha : a = .io conn)
    {P : Phase → Prop} (hP : ∀ d e p p', d ≠ conn → Phase.Turn u d e p p' → P p → P p') :
    Stable (cluster E admits) (sessionContract u p₀ R) a fun v => P (phase u p₀ v.past) := by
  rintro v v' ⟨hv, -, e, hother, hm, hp⟩ hP₀
  obtain hsame | ⟨d, hd, hturn⟩ := (phaseStep_of_moves hrules hv hm hp).turn
  · exact hsame ▸ hP₀
  · obtain ⟨i, hi, hagent⟩ := Option.map_eq_some_iff.mp hd
    refine hP d e _ _ (fun hdc => hother i hi ?_) hturn hP₀
    rw [ha, ← hdc]
    exact hagent

/-- The phase stands still while its own connection does. -/
theorem stable_at (hrules : SessionRules u p₀ R E admits) {a : Agent} (ha : a = .io conn)
    (hp : p.holder = some conn) : Stable (cluster E admits) (sessionContract u p₀ R) a
      fun v => phase u p₀ v.past = p :=
  stable_phase (P := fun q => q = p) hrules ha fun _ _ _ _ hd ht hq =>
    absurd (ht.holder_before (hq ▸ hp)).symm hd

theorem stable_apart (hrules : SessionRules u p₀ R E admits) {a : Agent} (ha : a = .io conn) :
    Stable (cluster E admits) (sessionContract u p₀ R) a
      fun v => (phase u p₀ v.past).owner ≠ some conn :=
  stable_phase (P := fun q => q.owner ≠ some conn) hrules ha fun _ _ _ _ hd ht _ ho =>
    absurd (ht.holder_after (Phase.holder_of_owner ho)).symm hd

theorem stable_ended (hrules : SessionRules u p₀ R E admits) {a : Agent} (ha : a = .io conn) :
    Stable (cluster E admits) (sessionContract u p₀ R) a
      fun v => (phase u p₀ v.past).established ≠ some conn :=
  stable_phase (P := fun q => q.established ≠ some conn) hrules ha fun _ _ _ _ hd ht _ he =>
    absurd (ht.holder_after (Phase.holder_of_established he)).symm hd

theorem stable_answered {a : Agent} :
    Stable (cluster E admits) (sessionContract u p₀ R) a (Answered u conn j) :=
  fun v v' h ⟨s, hs, hanswer⟩ => ⟨s, stable_recorded _ v v' h hs, hanswer⟩

/-- The subscription of a session that is being opened. -/
theorem stable_subscribed (hrules : SessionRules u p₀ R E admits) {a : Agent}
    (ha : a = .io conn) : Stable (cluster E admits) (sessionContract u p₀ R) a fun v =>
      phase u p₀ v.past = .bound conn ∧ (R → v.state.Subscribed conn.node u) := by
  rintro v v' h ⟨hphase, hsub⟩
  refine ⟨stable_at hrules ha rfl v v' h hphase, fun hR => ?_⟩
  obtain ⟨hv, -, e, -, hm, hp⟩ := h
  obtain hkept | ⟨d, -, hd⟩ := (phaseStep_of_moves hrules hv hm hp).kept hR _ (hsub hR)
  · exact hkept
  · rw [hphase] at hd
    cases hd

theorem stable_unsubscribed (hrules : SessionRules u p₀ R E admits) {a : Agent}
    (ha : a = .io conn) : Stable (cluster E admits) (sessionContract u p₀ R) a fun v =>
      phase u p₀ v.past = .closing conn ∧ (R → ∀ n, ¬ v.state.Subscribed n u) := by
  rintro v v' h ⟨hphase, hsub⟩
  refine ⟨stable_at hrules ha rfl v v' h hphase, fun hR n hn => ?_⟩
  obtain ⟨hv, -, e, -, hm, hp⟩ := h
  obtain hgained | ⟨d, -, hd⟩ := (phaseStep_of_moves hrules hv hm hp).gained hR n hn
  · exact hsub hR n hgained
  · rw [hphase] at hd
    cases hd

/-! ## The outlines -/

/-- A piece of a handler by which the cycle is not concerned. -/
theorem outline_aside {α : Type} {P : Phase → Prop} {prog : Program α} {T : α → Prop}
    {Q : α → ClusterView → Prop}
    (hP : Stable (cluster E admits) (sessionContract u p₀ R) j.agent
      fun v => P (phase u p₀ v.past))
    (hprog : prog.All (Command.Aside u j)) (ht : prog.Returns T)
    (hQ : ∀ a w, T a → P (phase u p₀ w.past) → Q a w) (hv : P (phase u p₀ v.past)) :
    Outline (cluster E admits) (sessionContract u p₀ R) j prog Q v :=
  .of_all hP (fun _ _ hc _ _ => hc.mayTurn _ _ _)
    (fun w c r w' hc hw _ hm => by rwa [phase_did hm, hc.afterCommand]) hprog ht hQ hv

theorem outline_refuse (hrules : SessionRules u p₀ R E admits) (hj : j.agent = .io conn)
    {errno : ℤ} (herrno : errno = 1 ∨ errno = 2) {errmsg : String}
    (hv : (phase u p₀ v.past).owner ≠ some conn) :
    Outline (cluster E admits) (sessionContract u p₀ R) j
      (sendJson conn (errorResponse .loginMsgAck errno errmsg))
      (fun _ w => (phase u p₀ w.past).owner ≠ some conn ∧ Answered u conn j w) v := by
  have haside : Command.Aside u j
      (.sendTo conn (.json (errorResponse .loginMsgAck errno errmsg))) := by
    rw [Command.Aside, confirmedUser?_errorResponse herrno]
    exact Option.some_ne_none u |>.symm
  refine .act (stable_apart hrules hj) hv fun w hw _ =>
    ⟨haside.mayTurn R _ w.state, fun _ w' hm _ => ?_⟩
  refine ⟨?_, _, ?_, .inr ⟨errno, errmsg, herrno, rfl⟩⟩
  · rwa [phase_did hm, haside.afterCommand]
  · rw [hm.recorded]
    exact List.mem_cons_self

/-- Under `R` the node is connected to Redis and its subscription commands succeed. -/
theorem redisIsConnected_of_moves (hR : R)
    (hv : (sessionContract u p₀ R).inv v) {r : Bool}
    (hm : Moves (cluster E admits) v (.did j (.node .redisIsConnected) r) v') : r = true := by
  obtain ⟨-, o, -, he⟩ := hm.effect
  obtain ⟨s', hs, -⟩ := exec_node he
  cases hs
  exact hv.redis hR _

theorem subscribed_of_moves (hrules : SessionRules u p₀ R E admits) (hR : R) {r : Bool}
    (hm : Moves (cluster E admits) v (.did j (.node (.redisSubscribe u)) r) v') :
    v'.state.Subscribed j.agent.node u := by
  obtain ⟨-, o, hok, he⟩ := hm.effect
  obtain ⟨s', hs, hw⟩ := exec_node he
  have hsucc : o.ok = true := by simpa using mt hok (hrules.redisOk hR j _)
  simp only [NodeOp.exec, hsucc, if_true] at hs
  cases hs
  rw [hw, World.Subscribed, World.node_setNode_self]
  exact Finset.mem_insert_self _ _

theorem unsubscribed_of_moves (hrules : SessionRules u p₀ R E admits) (hR : R) {r : Bool}
    (hm : Moves (cluster E admits) v (.did j (.node (.redisUnsubscribe u)) r) v') :
    ¬ v'.state.Subscribed j.agent.node u := by
  obtain ⟨-, o, hok, he⟩ := hm.effect
  obtain ⟨s', hs, hw⟩ := exec_node he
  have hsucc : o.ok = true := by simpa using mt hok (hrules.redisOk hR j _)
  simp only [NodeOp.exec, hsucc, if_true] at hs
  cases hs
  rw [hw, World.Subscribed, World.node_setNode_self]
  exact fun hmem => (Finset.mem_erase.mp hmem).1 rfl

theorem outline_closeSession (hrules : SessionRules u p₀ R E admits) (hj : j.agent = .io conn)
    (hv : phase u p₀ v.past = .closing conn) :
    Outline (cluster E admits) (sessionContract u p₀ R) j (closeSession u)
      (fun _ w => phase u p₀ w.past = .free) v := by
  have hoffline : ∀ w : ClusterView, phase u p₀ w.past = .closing conn ∧
      (R → ∀ n, ¬ w.state.Subscribed n u) →
      Outline (cluster E admits) (sessionContract u p₀ R) j
        (UserModel.updateState { id := u, state := .offline } >>= fun _ => .ret ())
        (fun _ w => phase u p₀ w.past = .free) w := fun w hw => by
    refine .act (stable_unsubscribed hrules hj) hw fun w₁ hw₁ _ =>
      ⟨fun _ => ⟨conn, hj, hw₁.1, hw₁.2⟩, fun _ w₂ hm _ => ?_⟩
    change phase u p₀ w₂.past = .free
    rw [phase_did hm, hw₁.1]
    exact if_pos rfl
  refine .bind (.bind (.act (stable_at hrules hj rfl) hv fun w hw hinv =>
    ⟨trivial, fun connected w₁ hm _ => ?_⟩))
  have hw₁ : phase u p₀ w₁.past = .closing conn := by rwa [phase_did hm]
  cases connected with
  | false =>
      refine .ret (hoffline w₁ ⟨hw₁, fun hR => ?_⟩)
      cases redisIsConnected_of_moves hR hinv hm
  | true =>
      refine .act (stable_at hrules hj rfl) hw₁ fun w₂ hw₂ hinv₂ =>
        ⟨fun _ => ⟨conn, hj, hw₂⟩, fun _ w₃ hm hinv₃ => ?_⟩
      have hw₃ : phase u p₀ w₃.past = .closing conn := by rwa [phase_did hm]
      refine .ret (hoffline w₃ ⟨hw₃, fun hR n hn => ?_⟩)
      -- the phase says on which node a subscription can be left
      obtain ⟨c, hc, rfl⟩ := hinv₃.subscriber hR n hn
      rw [hw₃] at hc
      obtain rfl := Option.some.inj hc
      have := unsubscribed_of_moves hrules hR hm
      rw [hj] at this
      exact this hn

theorem outline_openSession (hrules : SessionRules u p₀ R E admits) (hj : j.agent = .io conn)
    (hlogin : j.IsLogin) {user : User} (huser : user.id = u) (hv : phase u p₀ v.past = .claimed conn) :
    Outline (cluster E admits) (sessionContract u p₀ R) j (openSession conn u user)
      (fun _ w => phase u p₀ w.past = .opened conn) v := by
  have honline : ∀ w : ClusterView, phase u p₀ w.past = .bound conn ∧
      (R → w.state.Subscribed conn.node u) →
      Outline (cluster E admits) (sessionContract u p₀ R) j
        (UserModel.updateState { user with state := .online } >>= fun _ => .ret ())
        (fun _ w => phase u p₀ w.past = .opened conn) w := fun w hw => by
    refine .act (stable_subscribed hrules hj) hw fun w₁ hw₁ _ =>
      ⟨fun _ => ⟨conn, hj, hw₁.1, hw₁.2⟩, fun _ w₂ hm _ => ?_⟩
    change phase u p₀ w₂.past = .opened conn
    rw [phase_did hm, hw₁.1]
    exact if_pos huser
  refine .bind (.act (stable_at hrules hj rfl) hv fun w hw _ =>
    ⟨⟨hj, hlogin, fun _ => hw⟩, fun _ w₁ hm _ => .ret ?_⟩)
  have hw₁ : phase u p₀ w₁.past = .bound conn := by
    rw [phase_did hm, hw]
    exact if_pos rfl
  refine .bind (.act (stable_at hrules hj rfl) hw₁ fun w₂ hw₂ hinv₂ =>
    ⟨trivial, fun connected w₃ hm _ => ?_⟩)
  have hw₃ : phase u p₀ w₃.past = .bound conn := by rwa [phase_did hm]
  cases connected with
  | false =>
      refine .ret (honline w₃ ⟨hw₃, fun hR => ?_⟩)
      cases redisIsConnected_of_moves hR hinv₂ hm
  | true =>
      refine .act (stable_at hrules hj rfl) hw₃ fun w₄ hw₄ _ =>
        ⟨fun _ => ⟨conn, hj, hw₄⟩, fun _ w₅ hm _ => ?_⟩
      have hw₅ : phase u p₀ w₅.past = .bound conn := by rwa [phase_did hm]
      refine .ret (honline w₅ ⟨hw₅, fun hR => ?_⟩)
      have := subscribed_of_moves hrules hR hm
      rwa [hj] at this

/-- The part of a login after its check has been passed. -/
theorem outline_opening (hrules : SessionRules u p₀ R E admits) (hj : j.agent = .io conn)
    (hlogin : j.IsLogin) (hu : INT_MIN ≤ u ∧ u ≤ INT_MAX) {user : User} (huser : user.id = u)
    (hv : phase u p₀ v.past = .claimed conn) :
    Outline (cluster E admits) (sessionContract u p₀ R) j (do
        openSession conn u user
        let response ← syncSession u user
        sendJson conn response)
      (fun _ w => phase u p₀ w.past = .active conn ∧ Answered u conn j w) v := by
  refine .bind ((outline_openSession hrules hj hlogin huser hv).mono fun _ w hw => ?_)
  have hreturns := returns_confirmed huser hu.1 hu.2
  refine .bind (outline_aside (P := fun q => q = .opened conn) (stable_at hrules hj rfl)
    (aside_syncSession u user) hreturns (fun response w₁ hresponse hw₁ => ?_) hw)
  refine .act (stable_at hrules hj rfl) hw₁ fun w₂ hw₂ _ =>
    ⟨fun _ => ⟨hj, hw₂⟩, fun _ w₃ hm _ => ⟨?_, _, ?_, .inl hresponse⟩⟩
  · rw [phase_did hm, hw₂]
    exact if_pos hresponse
  · rw [hm.recorded]
    exact List.mem_cons_self

theorem outline_login (hrules : SessionRules u p₀ R E admits) {js : Json} {time : String}
    (hmsg : msgType? js = some .loginMsg) (hv : (phase u p₀ v.past).owner ≠ some conn) :
    Outline (cluster E admits) (sessionContract u p₀ R) (.frame conn js time) (login conn js)
      (fun _ w => (phase u p₀ w.past).owner ≠ some conn ∧
        (getInt js "id" = some u → Answered u conn (.frame conn js time) w)) v := by
  by_cases hid : getInt js "id" = some u
  · cases hpwd : getString js "password" with
    | none =>
        rw [login, hid, hpwd]
        exact (outline_refuse hrules rfl (.inl rfl) hv).mono fun _ _ h => ⟨h.1, fun _ => h.2⟩
    | some pwd =>
        rw [login_eq hid hpwd]
        refine .bind (.act (stable_apart hrules rfl) hv fun w hw hinv =>
          ⟨fun _ _ c hc => Agent.io.inj hc ▸ hw, fun row w₁ hm hinv₁ => .ret ?_⟩)
        have hphase : phase u p₀ w₁.past =
            if loginPasses u js row then .claimed conn else phase u p₀ w.past := by
          rw [phase_did hm]
          exact if_pos rfl
        split_ifs with hmatch honline
        · rw [if_neg fun h => (of_decide_eq_true h).2.2.2.2 honline] at hphase
          exact (outline_refuse hrules rfl (.inr rfl) (hphase ▸ hw)).mono fun _ _ h =>
            ⟨h.1, fun _ => h.2⟩
        · have hpasses : loginPasses u js row = true :=
            decide_eq_true ⟨hmsg, hid, by rw [hpwd, hmatch.2], hmatch.1, honline⟩
          rw [if_pos hpasses] at hphase
          refine (outline_opening (j := .frame conn js time) hrules rfl hmsg (getInt_range hid)
            hmatch.1 hphase).mono fun _ w₂ h => ⟨?_, fun _ => h.2⟩
          rw [h.1]
          exact (Option.some_ne_none conn).symm
        · rw [if_neg fun h => ?_] at hphase
          · exact (outline_refuse hrules rfl (.inl rfl) (hphase ▸ hw)).mono fun _ _ h =>
              ⟨h.1, fun _ => h.2⟩
          · have hchecked := of_decide_eq_true h
            rw [hpwd] at hchecked
            exact hmatch ⟨hchecked.2.2.2.1, (Option.some.inj hchecked.2.2.1).symm⟩
  · refine outline_aside (P := fun q => q.owner ≠ some conn) (stable_apart hrules rfl)
      (aside_login rfl hmsg hid) (Prog.returns_true _) (fun _ w _ hw => ⟨hw, fun h => absurd h hid⟩) hv

theorem outline_loginout (hrules : SessionRules u p₀ R E admits) (hj : j.agent = .io conn)
    (hlogin : ¬ j.IsLogin) {js : Json} (hv : (phase u p₀ v.past).owner ≠ some conn) :
    Outline (cluster E admits) (sessionContract u p₀ R) j (loginout conn js)
      (fun _ w => (phase u p₀ w.past).owner ≠ some conn ∧
        (getInt js "id" = some u → (phase u p₀ w.past).established ≠ some conn)) v := by
  by_cases hid : getInt js "id" = some u
  · rw [loginout, hid]
    refine .act (stable_apart hrules hj) hv fun w hw hinv =>
      ⟨trivial, fun bound w₁ hm _ => ?_⟩
    have hphase : phase u p₀ w₁.past = phase u p₀ w.past := phase_did hm
    obtain ⟨-, o, -, he⟩ := hm.effect
    obtain ⟨s', hs, -⟩ := exec_node he
    rw [hj] at hs
    have hbound := (NodeOp.exec_mapIsBound hs).2.trans (bound_iff_binding hinv)
    cases bound with
    | false =>
        refine .ret ?_
        rw [hphase]
        exact ⟨hw, fun _ he =>
          absurd (hbound.mpr (Phase.binding_of_established he)) Bool.false_ne_true⟩
    | true =>
        have hw₁ := hphase.trans (Phase.active_of_binding (hbound.mp rfl) hw)
        refine .act (stable_at hrules hj rfl) hw₁ fun w₂ hw₂ _ =>
          ⟨fun _ => ⟨hlogin, conn, hj, hw₂⟩, fun _ w₃ hm₂ _ => ?_⟩
        have hw₃ : phase u p₀ w₃.past = .closing conn := by
          rw [phase_did hm₂, hw₂]
          exact if_pos rfl
        refine (outline_closeSession hrules hj hw₃).mono fun _ w₄ hw₄ => ?_
        rw [hw₄]
        exact ⟨(Option.some_ne_none conn).symm, fun _ => (Option.some_ne_none conn).symm⟩
  · refine outline_aside (P := fun q => q.owner ≠ some conn) (stable_apart hrules hj)
      ((ofTeardown_loginout (P := fun id => id ≠ u) fun _ h e => hid (e ▸ h)).mono
        fun _ => Command.OfTeardown.aside)
      (Prog.returns_true _) (fun _ w _ hw => ⟨hw, fun h => absurd h hid⟩) hv

/-- The entry that the handler erases may be that of another user. -/
theorem outline_clientCloseException (hrules : SessionRules u p₀ R E admits) (hu : u ≠ -1)
    (hj : j.agent = .io conn) (hlogin : ¬ j.IsLogin)
    (hv : (phase u p₀ v.past).owner ≠ some conn) :
    Outline (cluster E admits) (sessionContract u p₀ R) j (clientCloseException conn)
      (fun _ w => (phase u p₀ w.past).owner ≠ some conn ∧
        ((phase u p₀ w.past).established ≠ some conn ∨
          ∃ id : ℤ, id ≠ u ∧ .did j (.node (.mapEraseConn conn)) (some id) ∈ w.past)) v := by
  refine .act (stable_apart hrules hj) hv fun w hw hinv =>
    ⟨⟨hlogin, hj, hw⟩, fun (erased : Option ℤ) w₁ hm hinv₁ => ?_⟩
  have hphase : phase u p₀ w₁.past =
      if erased = some u then (phase u p₀ w.past).afterErase else phase u p₀ w.past :=
    phase_did hm
  obtain ⟨-, o, -, he⟩ := hm.effect
  obtain ⟨s', hs, -⟩ := exec_node he
  rw [hj] at hs
  obtain ⟨id, rfl, hlookup, -⟩ | ⟨rfl, hnone, -⟩ := NodeOp.exec_mapEraseConn hs
  · change Outline _ _ j (if id ≠ -1 then closeSession id else .ret ()) _ w₁
    by_cases hid : id = u
    · subst hid
      have hactive := Phase.active_of_binding ((bound_iff_binding hinv).mp hlookup) hw
      rw [if_pos rfl, hactive] at hphase
      rw [if_pos hu]
      refine (outline_closeSession hrules hj hphase).mono fun _ w₂ hw₂ => ?_
      rw [hw₂]
      exact ⟨(Option.some_ne_none conn).symm, .inl (Option.some_ne_none conn).symm⟩
    · rw [if_neg fun e => hid (Option.some.inj e)] at hphase
      have hrecorded : .did j (.node (.mapEraseConn conn)) (some id) ∈ w₁.past := by
        rw [hm.recorded]
        exact List.mem_cons_self
      have hrest : (if id ≠ -1 then closeSession id else .ret ()).All (Command.Aside u j) := by
        split_ifs
        · exact (ofTeardown_closeSession (P := fun id => id ≠ u) hid).mono fun _ =>
            Command.OfTeardown.aside
        · trivial
      refine .of_all ((stable_apart hrules hj).and (stable_recorded _))
        (fun _ _ hc _ _ => hc.mayTurn _ _ _) (fun w₂ c r w₃ hc hw₂ _ hm₂ => ⟨?_, ?_⟩) hrest
        (Prog.returns_true _) (fun _ _ _ h => ⟨h.1, .inr ⟨id, hid, h.2⟩⟩) ⟨hphase ▸ hw, hrecorded⟩
      · rw [phase_did hm₂, hc.afterCommand]
        exact hw₂.1
      · rw [hm₂.recorded]
        exact List.mem_cons_of_mem _ hw₂.2
  · refine .ret ?_
    rw [hphase, if_neg (Option.some_ne_none u).symm]
    exact ⟨hw, .inl fun he => hnone u
      ((bound_iff_binding hinv).mpr (Phase.binding_of_established he))⟩

/-! ## Handlers at rest -/

/-- What a finished session job leaves behind. -/
def Settled (u : ℤ) (p₀ : Phase) : Job → ClusterView → Prop
  | .frame conn js time, v =>
      (msgType? js = some .loginMsg → getInt js "id" = some u →
        Answered u conn (.frame conn js time) v) ∧
      (msgType? js = some .loginoutMsg → getInt js "id" = some u →
        (phase u p₀ v.past).established ≠ some conn)
  | .close conn, v =>
      (phase u p₀ v.past).established ≠ some conn ∨
        ∃ id : ℤ, id ≠ u ∧ .did (.close conn) (.node (.mapEraseConn conn)) (some id) ∈ v.past
  | _, _ => True

/-- An idle I/O loop owns no part of the cycle. -/
def AtRest (u : ℤ) (p₀ : Phase) (a : Agent) (j? : Option Job) (v : ClusterView) : Prop :=
  ∀ conn, a = .io conn → (phase u p₀ v.past).owner ≠ some conn ∧
    ∀ j, j? = some j → j.agent = a → Settled u p₀ j v

theorem stable_settled (hrules : SessionRules u p₀ R E admits) :
    Stable (cluster E admits) (sessionContract u p₀ R) j.agent (Settled u p₀ j) := by
  intro v v' h hv
  cases j with
  | frame conn js time =>
      exact ⟨fun hmsg hid => stable_answered v v' h (hv.1 hmsg hid),
        fun hmsg hid => stable_ended hrules rfl v v' h (hv.2 hmsg hid)⟩
  | close conn =>
      refine hv.imp (stable_ended hrules rfl v v' h) fun ⟨id, hid, hrecorded⟩ => ⟨id, hid, ?_⟩
      exact stable_recorded _ v v' h hrecorded
  | redisMessage => trivial
  | sigint => trivial

/-- A frame of any other type does not concern the cycle. -/
theorem outline_otherFrame (hrules : SessionRules u p₀ R E admits) {js : Json} {time : String}
    {prog : Program Unit} (hprog : prog.All (Command.Aside u (.frame conn js time)))
    (hlogin : msgType? js ≠ some .loginMsg) (hlogout : msgType? js ≠ some .loginoutMsg)
    (hv : (phase u p₀ v.past).owner ≠ some conn) :
    Outline (cluster E admits) (sessionContract u p₀ R) (.frame conn js time) prog
      (fun _ => AtRest u p₀ (.io conn) (some (.frame conn js time))) v := by
  refine outline_aside (P := fun q => q.owner ≠ some conn) (stable_apart hrules rfl) hprog
    (Prog.returns_true _) (fun _ w _ hw d hd => ?_) hv
  obtain rfl := Agent.io.inj hd
  refine ⟨hw, fun i hi _ => ?_⟩
  obtain rfl := Option.some.inj hi
  exact ⟨fun h => absurd h hlogin, fun h => absurd h hlogout⟩

theorem outline_frame (hrules : SessionRules u p₀ R E admits) {js : Json} {time : String}
    (hapart : (phase u p₀ v.past).owner ≠ some conn) :
    Outline (cluster E admits) (sessionContract u p₀ R) (.frame conn js time)
      (onMessage conn js time) (fun _ => AtRest u p₀ (.io conn) (some (.frame conn js time))) v := by
  by_cases hlogin : msgType? js = some .loginMsg
  · rw [onMessage_eq, hlogin]
    refine (outline_login hrules hlogin hapart).mono fun _ w hw d hd => ?_
    obtain rfl := Agent.io.inj hd
    refine ⟨hw.1, fun i hi _ => ?_⟩
    obtain rfl := Option.some.inj hi
    exact ⟨fun _ => hw.2, fun h => absurd (hlogin.symm.trans h) (by decide)⟩
  by_cases hlogout : msgType? js = some .loginoutMsg
  · rw [onMessage_eq, hlogout]
    refine (outline_loginout (j := .frame conn js time) hrules rfl hlogin hapart).mono
      fun _ w hw d hd => ?_
    obtain rfl := Agent.io.inj hd
    refine ⟨hw.1, fun i hi _ => ?_⟩
    obtain rfl := Option.some.inj hi
    exact ⟨fun h => absurd h hlogin, fun _ => hw.2⟩
  · exact outline_otherFrame hrules (aside_otherFrame hlogin hlogout) hlogin hlogout hapart

/-- Every job keeps the promises, from any state in which its loop is at rest. -/
theorem session_verified (hrules : SessionRules u p₀ R E admits) (hu : u ≠ -1) :
    Verified (cluster E admits) (sessionContract u p₀ R) (AtRest u p₀) where
  stable a j? v v' h hv conn hconn := by
    obtain ⟨hapart, hsettled⟩ := hv conn hconn
    refine ⟨stable_apart hrules hconn v v' h hapart, fun j hj hja => ?_⟩
    refine stable_settled hrules v v' ?_ (hsettled j hj hja)
    rwa [hja]
  kept v e v' hv hm hp := (phaseStep_of_moves hrules hv hm hp).holds
  abandoned j v v' _ hm _ := absurd hm.admitted (hrules.noAbort v j)
  outline j j? v v' hv hrest hm hv' := by
    have hphase : phase u p₀ v'.past = phase u p₀ v.past := by
      rw [hm.recorded]
      rfl
    cases j with
    | frame conn js time => exact outline_frame hrules (hphase ▸ (hrest conn rfl).1)
    | close conn =>
        have hapart : (phase u p₀ v'.past).owner ≠ some conn := hphase ▸ (hrest conn rfl).1
        refine (outline_clientCloseException (j := .close conn) hrules hu rfl not_false hapart).mono
          fun _ w hw d hd => ?_
        obtain rfl := Agent.io.inj hd
        refine ⟨hw.1, fun i hi _ => ?_⟩
        obtain rfl := Option.some.inj hi
        exact hw.2
    | redisMessage n channel message =>
        have hprog : (handleRedisSubscribeMessage channel message).All
            (Command.Aside u (.redisMessage n channel message)) :=
          (ofDelivery_handleRedisSubscribeMessage (P := fun s => confirmedUser? s = none) channel
            rfl).mono fun _ => Command.OfDelivery.aside not_false
        exact outline_aside (P := fun _ => True) (Stable.const True) hprog (Prog.returns_true _)
          (fun _ _ _ _ d hd => nomatch hd) trivial
    | sigint n => exact absurd hm.admitted (hrules.noSignal v n)

end Outlines
end ChatCluster
