import ChatCluster.SqlFailures
import ChatCluster.Authentication

/-!
# Session changes whose statements may fail

`login`, `loginout` and `clientCloseException` change the map before they write the
state of the user, and none of them looks at the result of that write.
-/
namespace ChatCluster
open CommandProgram

/-- The table says that user `u` is online exactly when some node has the user bound. -/
def SessionAgrees (u : ℤ) (w : World) : Prop :=
  w.db.userState u = some .online ↔ ∃ n c, w.bound n u = some c

inductive SessionCall where
  | login (conn : Conn) (js : Json)
  | loginout (conn : Conn) (js : Json)
  | close (conn : Conn)

namespace SessionCall

def conn : SessionCall → Conn
  | login conn _ => conn
  | loginout conn _ => conn
  | close conn => conn

def program : SessionCall → Program Unit
  | login conn js => ChatCluster.login conn js
  | loginout conn js => ChatCluster.loginout conn js
  | close conn => clientCloseException conn

/-- A request is one of user `u`. -/
def For (u : ℤ) : SessionCall → Prop
  | login _ js => getInt js "id" = some u
  | loginout _ js => getInt js "id" = some u
  | close _ => True

/-- The end of the session of `u` on a node: `offline` is written, unless the session
goes on elsewhere. -/
def EndRecorded (ok : Statement → Bool) (u : ℤ) (n : ℕ) (w : World) : Prop :=
  ok (.updateUserState u .offline) = true ↔ ∀ m, m ≠ n → w.bound m u = none

/-- The write of the state succeeds if the call gets there. `first` is the entry of the
connection that the loop of `clientCloseException` meets first. -/
def Recorded (ok : Statement → Bool) (first : Option ℤ) (u : ℤ) (w : World) :
    SessionCall → Prop
  | login _ js => ∀ row pwd, w.db.selectUser u = some row → getString js "password" = some pwd →
      ok (.selectUser u) = true → cStr row.password = pwd → row.state = .offline →
      ok (.updateUserState u .online) = true
  | loginout conn _ => w.bound conn.node u = some conn → EndRecorded ok u conn.node w
  | close conn => first = some u → EndRecorded ok u conn.node w

end SessionCall

/-- The steps of a session handler when `ok` tells which statements succeed and `first`
which entry the iteration over the map meets first. -/
def SessionStep (a : Agent) (ok : Statement → Bool) (first : Option ℤ) (c : Command) (w : World)
    (r : Response c) (w' : World) : Prop :=
  ∃ o : Choice, (∀ q, c = .sql q → o.ok = ok q) ∧
    (∀ conn, c = .node (.mapEraseConn conn) → o.victim = first) ∧ exec o a c w = some (r, w')

/-- No login of the user is accepted any more, even if all its statements succeed. -/
def LockedOut (u : ℤ) (w : World) : Prop :=
  ∀ conn js w', getInt js "id" = some u →
    (login conn js).Runs (SqlStep (.io conn) fun _ => true) w () w' → ¬ LoginAccepted conn u w w'

/-- What a session call must leave behind. -/
structure AllOrNothing (call : SessionCall) (ok : Statement → Bool) (u : ℤ) (w w' : World) :
    Prop where
  agrees : SessionAgrees u w'
  answer : ∀ conn js, call = .login conn js → ok (.updateUserState u .online) = false →
    ¬ ∃ s, w'.out conn = w.out conn ++ [s] ∧ IsLoginAnswer 0 s
  lockout : (∀ conn js, call ≠ .login conn js) → ok (.updateUserState u .offline) = false →
    ¬ ((∀ n, w'.bound n u = none) ∧ LockedOut u w')

section Runs
variable {a : Agent} {ok : Statement → Bool} {w w' : World} {u : ℤ}

theorem SessionStep.sqlStep {first : Option ℤ} {c : Command} {r : Response c}
    (h : SessionStep a ok first c w r w') : SqlStep a ok c w r w' := by
  obtain ⟨o, hok, -, ho⟩ := h
  exact ⟨o, hok, ho⟩

/-! ## The state that a call writes -/

theorem userState_exec_updateUserState {db : Database} {row : UserRow} (b : Bool)
    (hrow : db.selectUser u = some row) (state : UserState) :
    ((Statement.updateUserState u state).exec b db).2.userState u =
      if b then some state else some row.state := by
  cases b with
  | true => exact Database.userState_updateUserState_self hrow state
  | false => exact congrArg (Option.map UserRow.state) hrow

/-- A login past its check writes `online` or leaves the state as it was. -/
theorem userState_of_matched {conn : Conn} {user : User} {row : UserRow} (huser : user.id = u)
    (hrow : w.db.selectUser u = some row)
    (h : (do openSession conn u user
             let response ← syncSession u user
             sendJson conn response : Program Unit).Runs (SqlStep a ok) w () w') :
    w'.db.userState u =
      if ok (.updateUserState u .online) then some .online else some row.state := by
  obtain ⟨_, w₁, hopen, h⟩ := Prog.runs_bind.mp h
  obtain ⟨response, w₂, hsync, hsend⟩ := Prog.runs_bind.mp h
  obtain ⟨_, w₃, hbind, hopen⟩ := Prog.runs_bind.mp hopen
  obtain ⟨_, w₄, hsub, hopen⟩ := Prog.runs_bind.mp hopen
  obtain ⟨_, w₅, hstate, -, rfl⟩ := Prog.runs_bind.mp hopen
  have hdb₃ : w₃.db = w.db :=
    (node_frame (p := node (.mapBind u conn)) ⟨⟨_, rfl⟩, fun _ => trivial⟩ (runs_exec hbind)).1
  have hdb₄ : w₄.db = w₃.db := (node_frame (isNode_trySubscribe u) (runs_exec hsub)).1
  obtain ⟨-, rfl⟩ := runs_sql.mp hstate
  have huser₂ : w₂.db.user = _ := user_frame (keepsUsers_syncSession u user) (runs_exec hsync)
  obtain rfl := runs_sendJson (runs_exec hsend)
  have hrow₄ : w₄.db.selectUser u = some row := by rw [hdb₄, hdb₃, hrow]
  subst huser
  have hwritten := userState_exec_updateUserState (ok (.updateUserState user.id .online)) hrow₄
    .online
  rw [← hwritten]
  exact congrArg (fun t => (KeyedTable.Table.find? t user.id).map UserRow.state) huser₂

theorem bound_closeSession {userid : ℤ} {x : Unit}
    (h : (closeSession userid).Runs (SqlStep a ok) w x w') (n : ℕ) (v : ℤ) :
    w'.bound n v = w.bound n v := by
  have hall : (closeSession userid).All fun c => ¬ c.WritesMap :=
    all_closeSession not_false not_false not_false
  have hframe := h.frame (fun t => (t.node n).userConnMap) hall fun c t r t' hc ht => by
    obtain ⟨o, ho⟩ := ht.exec
    exact userConnMap_exec hc ho n
  rw [World.bound, hframe]
  rfl

/-- The end of a session writes `offline` or leaves the table as it was. -/
theorem db_closeSession {userid : ℤ} {x : Unit}
    (h : (closeSession userid).Runs (SqlStep a ok) w x w') :
    w'.db = ((Statement.updateUserState userid .offline).exec
      (ok (.updateUserState userid .offline)) w.db).2 := by
  obtain ⟨_, w₁, hsub, h⟩ := Prog.runs_bind.mp h
  obtain ⟨_, w₂, hstate, -, rfl⟩ := Prog.runs_bind.mp h
  obtain ⟨-, rfl⟩ := runs_sql.mp hstate
  have hall : (tryUnsubscribe userid).All fun c => ∃ q : NodeOp, c = .node q := by
    refine Prog.All.bind ⟨⟨_, rfl⟩, fun _ => trivial⟩ fun connected => ?_
    split_ifs
    · exact ⟨⟨_, rfl⟩, fun _ => trivial⟩
    · trivial
  rw [(node_frame hall (runs_exec hsub)).1]

/-- A handler that ends a session leaves the lock free. -/
theorem connMutex_closeSession {userid : ℤ} {x : Unit}
    (h : (closeSession userid).Runs (SqlStep a ok) w x w') :
    (w'.node a.node).connMutex = (w.node a.node).connMutex := by
  refine h.frame (fun t => (t.node a.node).connMutex) (P := fun c => c = .node .redisIsConnected ∨
    c = .node (.redisUnsubscribe userid) ∨ ∃ q, c = .sql q)
    (all_closeSession (.inl rfl) (.inr (.inl rfl)) (.inr (.inr ⟨_, rfl⟩))) fun c t r t' hc ht => ?_
  obtain ⟨o, ho⟩ := ht.exec
  rcases hc with rfl | rfl | ⟨q, rfl⟩
  · obtain ⟨s', hs, rfl⟩ := exec_node ho
    cases hs
    rw [World.node_setNode_self]
  · obtain ⟨s', hs, rfl⟩ := exec_node ho
    rw [NodeOp.exec_redisUnsubscribe hs, World.node_setNode_self]
    split_ifs <;> rfl
  · rw [(exec_sql ho).2]

/-! ## What agreement means afterwards -/

/-- An online user whose entry on one node has been erased. -/
theorem agrees_end_iff {n : ℕ} {row : UserRow} (hrow : w.db.selectUser u = some row)
    (honline : row.state = .online) (hhere : w'.bound n u = none)
    (hother : ∀ m, m ≠ n → w'.bound m u = w.bound m u)
    (hdb : w'.db = ((Statement.updateUserState u .offline).exec
      (ok (.updateUserState u .offline)) w.db).2) :
    SessionAgrees u w' ↔ SessionCall.EndRecorded ok u n w := by
  have hbound : (∃ m c, w'.bound m u = some c) ↔ ¬ ∀ m, m ≠ n → w.bound m u = none := by
    constructor
    · rintro ⟨m, c, hc⟩ hnone
      by_cases hm : m = n
      · rw [hm, hhere] at hc
        cases hc
      · rw [hother m hm, hnone m hm] at hc
        cases hc
    · intro h
      by_contra hnone
      refine h fun m hm => ?_
      by_contra hne
      obtain ⟨c, hc⟩ := Option.ne_none_iff_exists'.mp hne
      exact hnone ⟨m, c, (hother m hm).trans hc⟩
  rw [SessionAgrees, hdb, userState_exec_updateUserState _ hrow, hbound, SessionCall.EndRecorded,
    honline]
  cases ok (.updateUserState u .offline) <;> simp

/-- An offline user can log in wherever the lock is free. -/
theorem exists_accepted {conn : Conn} {row : UserRow} (hrow : w.db.selectUser u = some row)
    (hoff : row.state = .offline) (hlower : INT_MIN ≤ u) (hupper : u ≤ INT_MAX)
    (hidle : (w.node conn.node).connMutex = none) :
    ∃ w', (login conn (Client.loginRequest u (cStr row.password))).Runs
        (SqlStep (.io conn) fun _ => true) w () w' ∧ LoginAccepted conn u w w' := by
  have hid : getInt (Client.loginRequest u (cStr row.password)) "id" = some u :=
    getInt_int rfl hlower hupper
  have huser : (User.ofRow (some row)).id = u := (KeyedTable.Table.find?_eq_some.mp hrow).2
  have henabled : ∀ (c : Command) (t : World), c.OfLogin conn (some u) (fun _ => True) →
      (t.node conn.node).connMutex = none →
      ∃ r t', SqlStep (.io conn) (fun _ => true) c t r t' ∧
        (t'.node conn.node).connMutex = none := by
    intro c t hc ht
    obtain ⟨r, t', he, hmutex, -⟩ :=
      exec_ofLogin (a := .io conn) hc (.ofStatements (fun _ => true) c) ht
    exact ⟨r, t', sqlStep_of_sqlPerform? he, hmutex⟩
  obtain ⟨_, w', hrun, -⟩ := Prog.exists_runs (s := w)
    (ofLogin_accept huser fun _ _ _ => trivial) henabled hidle
  refine ⟨w', ?_, accepted_of_matched rfl (runs_exec hrun)⟩
  rw [login_eq hid rfl]
  refine Prog.runs_bind.mpr ⟨User.ofRow (some row), w, ?_, ?_⟩
  · refine ⟨some row, w, sqlStep_sql.mpr ⟨hrow.symm, rfl⟩, rfl, rfl⟩
  · have honline : (User.ofRow (some row)).state ≠ .online := by simp [User.ofRow, hoff]
    rw [if_pos ⟨huser, rfl⟩, if_neg honline]
    exact hrun

/-- Where table and maps agree, a user without a session is not locked out. -/
theorem not_lockedOut {conn : Conn} (hreg : w.db.Registered u) (hint : u ≤ INT_MAX)
    (hagrees : SessionAgrees u w) (hidle : (w.node conn.node).connMutex = none) :
    ¬ ((∀ n, w.bound n u = none) ∧ LockedOut u w) := by
  intro h
  rcases h with ⟨hunbound, hlocked⟩
  obtain ⟨hpos, row, hrow⟩ := hreg
  have hoff : row.state = .offline := by
    refine Database.state_of_not_online hrow fun honline => ?_
    obtain ⟨n, c, hc⟩ := hagrees.mp honline
    rw [hunbound] at hc
    cases hc
  have hlower : INT_MIN ≤ u := by
    unfold INT_MIN
    omega
  obtain ⟨w', hrun, haccepted⟩ := exists_accepted hrow hoff hlower hint hidle
  exact hlocked conn _ w' (getInt_int rfl hlower hint) hrun haccepted

/-! ## The three calls -/

/-- A refusal changes neither map nor table, and its answer is no success. -/
theorem refused_agrees {conn : Conn} {errno : ℤ} {errmsg : String} {x : Unit}
    (herrno : errno.bmod (2 ^ 64) ≠ 0) (hagrees : SessionAgrees u w)
    (h : (sendJson conn (errorResponse .loginMsgAck errno errmsg)).Runs (SqlStep a ok) w x w') :
    SessionAgrees u w' ∧ ¬ ∃ s, w'.out conn = w.out conn ++ [s] ∧ IsLoginAnswer 0 s := by
  obtain rfl := runs_sendJson (runs_exec h)
  exact ⟨hagrees, not_answered_of_error herrno⟩

theorem runs_userQuery {id : ℤ} {user : User}
    (h : (UserModel.query id).Runs (SqlStep a ok) w user w') :
    user = User.ofRow (if ok (.selectUser id) then w.db.selectUser id else none) ∧ w' = w := by
  obtain ⟨row, w₁, hrow, rfl, rfl⟩ := h
  obtain ⟨rfl, rfl⟩ := sqlStep_sql.mp hrow
  cases ok (.selectUser id) <;> exact ⟨rfl, rfl⟩

/-- After the check a login agrees with the table exactly when its state is written. -/
theorem accepted_agrees_iff {conn : Conn} {user : User} {row : UserRow} {x : Unit}
    (huser : user.id = u) (hrow : w.db.selectUser u = some row) (hoff : row.state = .offline)
    (h : (do openSession conn u user
             let response ← syncSession u user
             sendJson conn response : Program Unit).Runs (SqlStep (.io conn) ok) w x w') :
    (SessionAgrees u w' ∧ (ok (.updateUserState u .online) = false →
        ¬ ∃ s, w'.out conn = w.out conn ++ [s] ∧ IsLoginAnswer 0 s)) ↔
      ok (.updateUserState u .online) = true := by
  have hstate := userState_of_matched huser hrow h
  have hbound : w'.bound conn.node u = some conn :=
    (accepted_of_matched rfl (runs_exec h)).1
  rw [hoff] at hstate
  cases hwritten : ok (.updateUserState u .online) with
  | true =>
      rw [hwritten, if_pos rfl] at hstate
      refine iff_of_true ⟨iff_of_true hstate ⟨_, _, hbound⟩, fun hf => ?_⟩ rfl
      cases hf
  | false =>
      rw [hwritten] at hstate
      refine iff_of_false ?_ (by simp)
      intro h
      rcases h with ⟨hafter, -⟩
      have hon := hafter.mpr ⟨_, _, hbound⟩
      rw [hstate] at hon
      cases hon

theorem login_agrees_iff {conn : Conn} {js : Json} (hid : getInt js "id" = some u)
    (hpos : 0 < u) (hagrees : SessionAgrees u w)
    (h : (login conn js).Runs (SqlStep (.io conn) ok) w () w') :
    (SessionAgrees u w' ∧ (ok (.updateUserState u .online) = false →
        ¬ ∃ s, w'.out conn = w.out conn ++ [s] ∧ IsLoginAnswer 0 s)) ↔
      ∀ row pwd, w.db.selectUser u = some row → getString js "password" = some pwd →
        ok (.selectUser u) = true → cStr row.password = pwd → row.state = .offline →
        ok (.updateUserState u .online) = true := by
  cases hpwd : getString js "password" with
  | none =>
      rw [login, hid, hpwd] at h
      obtain ⟨hkept, hanswer⟩ := refused_agrees (by decide) hagrees h
      exact iff_of_true ⟨hkept, fun _ => hanswer⟩ fun _ _ _ hnone => by cases hnone
  | some pwd =>
      rw [login_eq hid hpwd] at h
      obtain ⟨user, w₁, hquery, hrest⟩ := Prog.runs_bind.mp h
      obtain ⟨huser, rfl⟩ := runs_userQuery hquery
      simp only [Option.some.injEq]
      split_ifs at hrest with hmatch honline
      · -- the account is in use
        obtain ⟨hkept, hanswer⟩ := refused_agrees (by decide) hagrees hrest
        refine iff_of_true ⟨hkept, fun _ => hanswer⟩ fun row pwd' hrow _ hok _ hoff => ?_
        rw [huser, hrow, if_pos hok] at honline
        rw [User.ofRow, hoff] at honline
        cases honline
      · -- the check has passed, so that a row has been read
        cases hread : (if ok (.selectUser u) then w₁.db.selectUser u else none) with
        | none =>
            rw [hread] at huser
            obtain ⟨hminus, -⟩ := hmatch
            rw [huser] at hminus
            have hdefault : (-1 : ℤ) = u := hminus
            omega
        | some row =>
            rw [hread] at huser
            split_ifs at hread with hok
            rw [huser] at hmatch honline hrest
            have hoff : row.state = .offline := by
              cases hstate : row.state with
              | offline => rfl
              | online => exact absurd hstate honline
            rw [accepted_agrees_iff hmatch.1 hread hoff hrest]
            constructor
            · exact fun hwritten _ _ _ _ _ _ _ => hwritten
            · exact fun hall => hall row pwd hread rfl hok hmatch.2 hoff
      · -- no such user, or a wrong password
        obtain ⟨hkept, hanswer⟩ := refused_agrees (by decide) hagrees hrest
        refine iff_of_true ⟨hkept, fun _ => hanswer⟩ fun row pwd' hrow hp hok hcstr _ => ?_
        refine absurd ?_ hmatch
        rw [huser, if_pos hok, hrow]
        exact ⟨(KeyedTable.Table.find?_eq_some.mp hrow).2, hcstr.trans hp.symm⟩

/-- A map from which an entry has been erased. -/
theorem bound_erase (w : World) (n : ℕ) (v : ℤ) (m : ℕ) (x : ℤ) :
    (w.setNode n { w.node n with userConnMap := (w.node n).userConnMap.erase v }).bound m x =
      if m = n ∧ x = v then none else w.bound m x := by
  rw [bound_of_node rfl]
  by_cases hm : m = n
  · subst hm
    by_cases hx : x = v
    · subst hx
      rw [if_pos rfl, if_pos ⟨rfl, rfl⟩]
      exact AList.lookup_erase ..
    · rw [if_pos rfl, if_neg fun h => hx h.2]
      exact AList.lookup_erase_ne hx
  · rw [if_neg hm, if_neg fun h => hm h.1]

/-- The entry of `v` is erased and the session of `v` ended. -/
theorem agrees_ended {n : ℕ} {v : ℤ} {x : Unit} (hreg : w.db.Registered u)
    (hagrees : SessionAgrees u w) (hbound : v = u → ∃ c, w.bound n u = some c)
    (h : (closeSession v).Runs (SqlStep a ok)
      (w.setNode n { w.node n with userConnMap := (w.node n).userConnMap.erase v }) x w') :
    w'.db.Registered u ∧
      (SessionAgrees u w' ↔ (v = u → SessionCall.EndRecorded ok u n w)) := by
  have hmap : ∀ m y, w'.bound m y = if m = n ∧ y = v then none else w.bound m y := fun m y =>
    (bound_closeSession h m y).trans (bound_erase w n v m y)
  have hdb := db_closeSession h
  rw [World.db_setNode] at hdb
  obtain ⟨hpos, row, hrow⟩ := hreg
  have hreg' : w'.db.Registered u := by
    rw [hdb]
    cases ok (.updateUserState v .offline) with
    | true => exact (Database.registered_updateUserState ..).mpr ⟨hpos, row, hrow⟩
    | false => exact ⟨hpos, row, hrow⟩
  refine ⟨hreg', ?_⟩
  by_cases hv : v = u
  · subst hv
    have honline : row.state = .online := by
      obtain ⟨c, hc⟩ := hbound rfl
      have hon := hagrees.mpr ⟨n, c, hc⟩
      rw [Database.userState, hrow] at hon
      exact Option.some.inj hon
    rw [agrees_end_iff hrow honline (by rw [hmap, if_pos ⟨rfl, rfl⟩])
      (fun m hm => by rw [hmap, if_neg fun h => hm h.1]) hdb]
    simp
  · have hsame : SessionAgrees u w' ↔ SessionAgrees u w := by
      have hstate : w'.db.userState u = w.db.userState u := by
        rw [hdb]
        cases ok (.updateUserState v .offline) with
        | true => exact Database.userState_updateUserState_ne _ (Ne.symm hv) _
        | false => rfl
      have hsamemap : ∀ m, w'.bound m u = w.bound m u := fun m => by
        rw [hmap, if_neg fun h => hv h.2.symm]
      simp only [SessionAgrees, hstate, hsamemap]
    exact iff_of_true (hsame.mpr hagrees) fun h => absurd h hv

theorem loginout_agrees_iff {conn : Conn} {js : Json} (hid : getInt js "id" = some u)
    (hreg : w.db.Registered u) (hagrees : SessionAgrees u w)
    (h : (loginout conn js).Runs (SqlStep (.io conn) ok) w () w') :
    (w'.node conn.node).connMutex = none ∧ w'.db.Registered u ∧
      (SessionAgrees u w' ↔ (w.bound conn.node u = some conn →
        SessionCall.EndRecorded ok u conn.node w)) := by
  rw [loginout, hid] at h
  obtain ⟨bound, w₁, hcheck, hrest⟩ := Prog.runs_bind.mp h
  have hidle : (w.node conn.node).connMutex = none := by
    obtain ⟨o, -, ho⟩ := Prog.runs_perform.mp hcheck
    obtain ⟨s', hs, -⟩ := exec_node ho
    exact NodeOp.free_of_mapIsBound hs
  obtain ⟨hb, rfl⟩ := runs_isConnectionBoundToUser hcheck
  split_ifs at hrest with hbound
  · obtain ⟨_, w₂, herase, hclose⟩ := Prog.runs_bind.mp hrest
    obtain ⟨o, -, ho⟩ := Prog.runs_perform.mp herase
    obtain ⟨s', hs, rfl⟩ := exec_node ho
    obtain rfl := NodeOp.exec_mapErase hs
    have hhere : w₁.bound conn.node u = some conn := hb.mp hbound
    obtain ⟨hreg', hiff⟩ := agrees_ended (n := conn.node) hreg hagrees
      (fun _ => ⟨conn, hhere⟩) hclose
    refine ⟨?_, hreg', hiff.trans ⟨fun hr _ => hr rfl, fun hr _ => hr hhere⟩⟩
    have hmutex := connMutex_closeSession hclose
    exact (hmutex.trans (congrArg NodeState.connMutex (World.node_setNode_self ..))).trans hidle
  · obtain ⟨-, rfl⟩ := hrest
    exact ⟨hidle, hreg, iff_of_true hagrees fun hhere => absurd (hb.mpr hhere) hbound⟩

theorem close_agrees_iff {conn : Conn} {first : Option ℤ} (hreg : w.db.Registered u)
    (hagrees : SessionAgrees u w)
    (h : (clientCloseException conn).Runs (SessionStep (.io conn) ok first) w () w') :
    (w'.node conn.node).connMutex = none ∧ w'.db.Registered u ∧
      (SessionAgrees u w' ↔ (first = some u → SessionCall.EndRecorded ok u conn.node w)) := by
  obtain ⟨erased, w₁, herase, hrest⟩ := Prog.runs_bind.mp h
  obtain ⟨o, -, hvictim, ho⟩ := Prog.runs_perform.mp herase
  have hfirst : o.victim = first := hvictim conn rfl
  obtain ⟨s', hs, rfl⟩ := exec_node ho
  have hidle : (w.node conn.node).connMutex = none := NodeOp.free_of_mapEraseConn hs
  obtain rfl : erased = first := (NodeOp.victim_of_mapEraseConn hs).trans hfirst
  obtain ⟨v, rfl, hbound, rfl⟩ | ⟨rfl, hnone, rfl⟩ := NodeOp.exec_mapEraseConn hs
  · dsimp only at hrest
    split_ifs at hrest with hv
    · have hclose := hrest.mono fun _ _ _ _ => SessionStep.sqlStep
      obtain ⟨hreg', hiff⟩ := agrees_ended (n := conn.node) hreg hagrees
        (fun hvu => ⟨conn, hvu ▸ hbound⟩) hclose
      refine ⟨?_, hreg', hiff.trans ⟨fun hr he => hr (Option.some.inj he),
        fun hr he => hr (he ▸ rfl)⟩⟩
      have hmutex := connMutex_closeSession hclose
      exact (hmutex.trans (congrArg NodeState.connMutex (World.node_setNode_self ..))).trans hidle
    · -- an entry of the default user `-1`, who is not registered
      obtain ⟨-, rfl⟩ := hrest
      have hne : v ≠ u := by
        intro heq
        subst heq
        exact absurd hreg.1 (by omega)
      refine ⟨(congrArg NodeState.connMutex (World.node_setNode_self ..)).trans hidle, hreg,
        iff_of_true ?_ fun he => absurd (Option.some.inj he) hne⟩
      have hsamemap : ∀ m, (w.setNode conn.node { w.node conn.node with
          userConnMap := (w.node conn.node).userConnMap.erase v }).bound m u = w.bound m u :=
        fun m => by rw [bound_erase, if_neg fun h => hne h.2.symm]
      have hexists : (∃ m c, w.bound m u = some c) ↔ ∃ m c, (w.setNode conn.node
          { w.node conn.node with
            userConnMap := (w.node conn.node).userConnMap.erase v }).bound m u = some c := by
        simp only [hsamemap]
      exact hagrees.trans hexists
  · dsimp only at hrest
    rw [if_neg (by decide)] at hrest
    obtain ⟨-, rfl⟩ := hrest
    have hsame : w.setNode (Agent.io conn).node (w.node (Agent.io conn).node) = w :=
      World.setNode_node ..
    rw [hsame]
    exact ⟨hidle, hreg, iff_of_true hagrees fun he => by cases he⟩

/-- After the call the table and the maps agree about `u` again, a login that was answered
with success has been recorded, and nobody is left unbound and locked out, exactly when
the write of the state succeeds if the call gets there (and, for the end of a session,
unless the session goes on elsewhere). -/
theorem session_changes_atomic_iff (call : SessionCall) (ok : Statement → Bool)
    (first : Option ℤ) (u : ℤ) (w w' : World) (hreg : w.db.Registered u) (hint : u ≤ INT_MAX)
    (hfor : call.For u) (hagrees : SessionAgrees u w)
    (hrun : call.program.Runs (SessionStep (.io call.conn) ok first) w () w') :
    AllOrNothing call ok u w w' ↔ call.Recorded ok first u w := by
  have hsql := hrun.mono fun _ _ _ _ => SessionStep.sqlStep
  cases call with
  | login conn js =>
      have hiff := login_agrees_iff hfor hreg.1 hagrees hsql
      constructor
      · intro h
        exact hiff.mp ⟨h.agrees, h.answer conn js rfl⟩
      · intro h
        obtain ⟨hafter, hanswer⟩ := hiff.mpr h
        refine ⟨hafter, fun conn' js' he => ?_, fun hne => absurd rfl (hne conn js)⟩
        cases he
        exact hanswer
  | loginout conn js =>
      obtain ⟨hidle, hreg', hiff⟩ := loginout_agrees_iff hfor hreg hagrees hsql
      constructor
      · exact fun h => hiff.mp h.agrees
      · intro h
        have hafter := hiff.mpr h
        exact ⟨hafter, fun _ _ he => (by cases he), fun _ _ =>
          not_lockedOut hreg' hint hafter hidle⟩
  | close conn =>
      obtain ⟨hidle, hreg', hiff⟩ := close_agrees_iff hreg hagrees hrun
      constructor
      · exact fun h => hiff.mp h.agrees
      · intro h
        have hafter := hiff.mpr h
        exact ⟨hafter, fun _ _ he => (by cases he), fun _ _ =>
          not_lockedOut hreg' hint hafter hidle⟩

end Runs

/-! ## Computed runs -/

theorem sessionStep_of_sqlPerform? {a : Agent} {ok : Statement → Bool} {c : Command}
    {w w' : World} {r : Response c} (h : sqlPerform? a ok c w = some (r, w')) :
    SessionStep a ok none c w r w' := by
  refine ⟨_, fun q hq => ?_, fun conn hc => ?_, h⟩
  · subst hq
    rfl
  · subst hc
    rfl

/-- A registered user who has no session yet. -/
theorem agrees_fresh :
    SessionAgrees 1 (World.fresh (Statement.registered [("ann", "pw")])) := by
  refine iff_of_false (by decide) ?_
  intro h
  rcases h with ⟨n, c, hc⟩
  cases hc

/-- A login whose statements all succeed. -/
theorem session_changes_atomic_login :
    ∃ w' : World, w'.bound 0 1 = some ⟨0, 0⟩ ∧
      (AllOrNothing (.login ⟨0, 0⟩ (Client.loginRequest 1 "pw")) (fun _ => true) 1
          (World.fresh (Statement.registered [("ann", "pw")])) w' ↔
        (SessionCall.login ⟨0, 0⟩ (Client.loginRequest 1 "pw")).Recorded (fun _ => true) none 1
          (World.fresh (Statement.registered [("ann", "pw")]))) := by
  obtain ⟨_, w', hrun, htest⟩ := Prog.exists_runs_of_eval?
    (f := sqlPerform? (.io ⟨0, 0⟩) fun _ => true) (fun _ _ _ _ => sessionStep_of_sqlPerform?)
    (p := login ⟨0, 0⟩ (Client.loginRequest 1 "pw"))
    (s := World.fresh (Statement.registered [("ann", "pw")]))
    (fun w' => w'.bound 0 1 = some ⟨0, 0⟩) (by decide +kernel)
  refine ⟨w', of_decide_eq_true htest, ?_⟩
  exact session_changes_atomic_iff (.login ⟨0, 0⟩ (Client.loginRequest 1 "pw")) (fun _ => true)
    none 1 _ w' ⟨by decide, _, rfl⟩ (by decide) (getInt_int rfl (by decide) (by decide))
    agrees_fresh hrun

/-- The write of `online` fails, and the user is bound and offline all the same. -/
theorem offline_user_bound :
    ∃ w' : World, (login ⟨0, 0⟩ (Client.loginRequest 1 "pw")).Runs
        (SessionStep (.io ⟨0, 0⟩) (fun q => match q with
          | .updateUserState _ _ => false
          | _ => true) none)
        (World.fresh (Statement.registered [("ann", "pw")])) () w' ∧
      w'.bound 0 1 = some ⟨0, 0⟩ ∧ ¬ SessionAgrees 1 w' := by
  obtain ⟨_, w', hrun, htest⟩ := Prog.exists_runs_of_eval?
    (f := sqlPerform? (.io ⟨0, 0⟩) fun q => match q with
      | .updateUserState _ _ => false
      | _ => true) (fun _ _ _ _ => sessionStep_of_sqlPerform?)
    (p := login ⟨0, 0⟩ (Client.loginRequest 1 "pw"))
    (s := World.fresh (Statement.registered [("ann", "pw")]))
    (fun w' => w'.bound 0 1 = some ⟨0, 0⟩ ∧ w'.db.userState 1 = some .offline)
    (by decide +kernel)
  obtain ⟨hbound, hstate⟩ := of_decide_eq_true htest
  refine ⟨w', hrun, hbound, fun hagrees => ?_⟩
  rw [hagrees.mpr ⟨_, _, hbound⟩] at hstate
  cases hstate

end ChatCluster
