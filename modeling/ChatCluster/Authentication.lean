import ChatCluster.HandlerRuns
import ChatCluster.Client

/-!
# What a successful login has checked

`login` compares the request with the value object that `UserModel::query`
returns. That object also stands for a missing row and for a failed query, as the
default user with id `-1` and an empty password, and its password is the stored
one up to the first NUL.
-/
namespace ChatCluster
open CommandProgram

/-- The steps of `login` on a connection when the query of the user row succeeds or
fails as `queryOk` says. The outcome of every other step is open. -/
def LoginStep (conn : Conn) (queryOk : Bool) (c : Command) (w : World) (r : Response c)
    (w' : World) : Prop :=
  ∃ o : Choice, (∀ id, c = .sql (.selectUser id) → o.ok = queryOk) ∧
    exec o (.io conn) c w = some (r, w')

/-- A login answer with a given `errno`. -/
def IsLoginAnswer (errno : ℤ) (s : Sent) : Prop :=
  ∃ js, s = .json js ∧ js.find? "msgid" = some (.int EnMsgType.loginMsgAck.code) ∧
    js.find? "errno" = some (.int errno)

/-- The connection is bound and the answer, with `errno` 0, is the one frame sent to it. -/
def LoginAccepted (conn : Conn) (id : ℤ) (w w' : World) : Prop :=
  w'.bound conn.node id = some conn ∧
    ∃ s, w'.out conn = w.out conn ++ [s] ∧ IsLoginAnswer 0 s

/-- The user table holds the row that the request claims. -/
def HasCredentials (db : Database) (id : ℤ) (pwd : String) : Prop :=
  ∃ row ∈ db.user.rows, row.id = id ∧ row.password = pwd

/-- A row that is read matches only by its whole password; and when none is read, the
request does not match the default user in place of a row. -/
def NoFalseMatch (db : Database) (queryOk : Bool) (id : ℤ) (pwd : String) : Prop :=
  match db.selectUser id with
  | some row =>
      if queryOk then row.state = .offline → cStr row.password = pwd → row.password = pwd
      else id = -1 → pwd = "" → row.password = ""
  | none => ¬ (id = -1 ∧ pwd = "")

theorem isLoginAnswer_errorResponse (errno : ℤ) (errmsg : String) :
    IsLoginAnswer errno (.json (errorResponse .loginMsgAck errno errmsg)) := by
  refine ⟨_, rfl, ?_, ?_⟩
  · exact Json.find?_set_ne _ (by decide)
  · rfl

theorem IsLoginAnswer.errno_unique {m n : ℤ} {s : Sent} (h : IsLoginAnswer m s)
    (h' : IsLoginAnswer n s) : Json.int m = Json.int n := by
  obtain ⟨js, rfl, -, he⟩ := h
  obtain ⟨js', hjs, -, he'⟩ := h'
  obtain rfl := Sent.json.inj hjs
  exact Option.some.inj (he.symm.trans he')

theorem isLoginAnswer_loginResponse (user : User) (offlineMessages : List String)
    (userVec : List User) (groupuserVec : List Group) :
    IsLoginAnswer 0 (.json (loginResponse user offlineMessages userVec groupuserVec)) := by
  refine ⟨_, rfl, ?_, ?_⟩
  · rw [find?_loginResponse _ _ _ _ (by decide) (by decide) (by decide)]
    rfl
  · rw [find?_loginResponse _ _ _ _ (by decide) (by decide) (by decide)]
    rfl

section Runs
variable {conn : Conn} {queryOk : Bool} {w w' : World}

theorem loginStep_exec {c : Command} {r : Response c} (h : LoginStep conn queryOk c w r w') :
    Exec (.io conn) c w r w' := by
  obtain ⟨o, -, ho⟩ := h
  exact ⟨o, ho⟩

theorem runs_loginQuery {id : ℤ} {user : User}
    (h : (UserModel.query id).Runs (LoginStep conn queryOk) w user w') :
    user = User.ofRow (if queryOk then w.db.selectUser id else none) ∧ w' = w := by
  obtain ⟨row, w₁, ⟨o, ho, he⟩, rfl, rfl⟩ := h
  obtain ⟨rfl, rfl⟩ := exec_sql he
  rw [← ho id rfl]
  cases o.ok <;> exact ⟨rfl, rfl⟩

theorem runs_loginQuery_mk (w : World) (id : ℤ) :
    (UserModel.query id).Runs (LoginStep conn queryOk) w
      (User.ofRow (if queryOk then w.db.selectUser id else none)) w := by
  cases queryOk with
  | true => exact ⟨_, _, ⟨{ ok := true }, fun _ _ => rfl, rfl⟩, rfl, rfl⟩
  | false => exact ⟨_, _, ⟨{ ok := false }, fun _ _ => rfl, rfl⟩, rfl, rfl⟩

/-- The answer of a request that was refused. -/
theorem not_answered_of_error {errno : ℤ} {errmsg : String} (herrno : errno.bmod (2 ^ 64) ≠ 0) :
    ¬ ∃ s, (w.emit conn (.json (errorResponse .loginMsgAck errno errmsg))).out conn =
      w.out conn ++ [s] ∧ IsLoginAnswer 0 s := by
  intro h
  rcases h with ⟨s, hs, hzero⟩
  obtain rfl := World.eq_of_out_emit hs
  exact herrno (Json.bmod_eq_of_int_eq
    ((isLoginAnswer_errorResponse errno errmsg).errno_unique hzero))

theorem not_accepted_of_refused {id errno : ℤ} {errmsg : String} {u : Unit}
    (herrno : errno.bmod (2 ^ 64) ≠ 0)
    (h : (sendJson conn (errorResponse .loginMsgAck errno errmsg)).Runs
      (LoginStep conn queryOk) w u w') : ¬ LoginAccepted conn id w w' := by
  obtain rfl := runs_sendJson (h.mono fun _ _ _ _ => loginStep_exec)
  intro h
  rcases h with ⟨-, hanswer⟩
  exact not_answered_of_error herrno hanswer

/-- Once the request has been matched with an offline row, the connection is bound and
one of the possible answers is the only frame sent to it. -/
theorem answered_of_matched {a : Agent} {id : ℤ} {user : User} {T : Json → Prop}
    (ha : a.node = conn.node)
    (hanswer : ∀ offlineMessages userVec groupuserVec,
      T (loginResponse user offlineMessages userVec groupuserVec))
    (h : (do openSession conn id user
             let response ← syncSession id user
             sendJson conn response : Program Unit).Runs (Exec a) w () w') :
    w'.bound conn.node id = some conn ∧
      ∃ js, w'.out conn = w.out conn ++ [.json js] ∧ T js := by
  obtain ⟨_, w₁, hopen, h⟩ := Prog.runs_bind.mp h
  obtain ⟨response, w₂, hsync, hsend⟩ := Prog.runs_bind.mp h
  obtain ⟨_, w₃, hbind, hopen⟩ := Prog.runs_bind.mp hopen
  obtain ⟨_, w₄, hsub, _, w₅, hstate, -, rfl⟩ := Prog.runs_bind.mp hopen
  obtain ⟨o, hbind⟩ := Prog.runs_perform.mp hbind
  obtain ⟨s', hs', rfl⟩ := exec_node hbind
  obtain rfl := NodeOp.exec_mapBind hs'
  obtain ⟨hmap₁, hout₁⟩ := runs_subscribe_frame hsub
  obtain ⟨hnode₂, hout₂⟩ := sql_frame (p := UserModel.updateState _)
    ⟨⟨_, rfl⟩, fun _ => trivial⟩ ⟨_, _, hstate, rfl, rfl⟩
  obtain ⟨hnode₃, hout₃⟩ := sql_frame (isSql_syncSession id user) hsync
  obtain rfl := runs_sendJson hsend
  refine ⟨?_, response, ?_, hsync.returns (returns_syncSession hanswer)⟩
  · show ((w₂.node conn.node).userConnMap).lookup id = some conn
    rw [hnode₃, hnode₂, ← ha, hmap₁, World.node_setNode_self]
    exact AList.lookup_insert _
  · rw [World.out_emit_self, hout₃, hout₂, hout₁]
    rfl

/-- The login of a matched request goes through. -/
theorem accepted_of_matched {a : Agent} {id : ℤ} {user : User} (ha : a.node = conn.node)
    (h : (do openSession conn id user
             let response ← syncSession id user
             sendJson conn response : Program Unit).Runs (Exec a) w () w') :
    LoginAccepted conn id w w' := by
  obtain ⟨hbound, js, hout, hjs⟩ := answered_of_matched
    (T := fun js => IsLoginAnswer 0 (.json js)) ha (isLoginAnswer_loginResponse user) h
  exact ⟨hbound, _, hout, hjs⟩

end Runs

theorem hasCredentials_iff {db : Database} {id : ℤ} {pwd : String} :
    HasCredentials db id pwd ↔ ∃ row, db.selectUser id = some row ∧ row.password = pwd := by
  simp only [HasCredentials, Database.selectUser, KeyedTable.Table.find?_eq_some, and_assoc]

/-- The request matches the value object that the query returns. -/
def Matches (db : Database) (queryOk : Bool) (id : ℤ) (pwd : String) : Prop :=
  let user := User.ofRow (if queryOk then db.selectUser id else none)
  user.id = id ∧ user.pwd = pwd ∧ user.state ≠ .online

theorem noFalseMatch_iff {db : Database} {queryOk : Bool} {id : ℤ} {pwd : String} :
    NoFalseMatch db queryOk id pwd ↔
      (Matches db queryOk id pwd → HasCredentials db id pwd) := by
  rw [hasCredentials_iff, NoFalseMatch, Matches]
  cases hrow : db.selectUser id with
  | none =>
      have huser : User.ofRow (if queryOk then none else none) = {} := by cases queryOk <;> rfl
      simp only [huser]
      constructor
      · rintro h ⟨hid, hpwd, -⟩
        exact absurd ⟨hid.symm, hpwd.symm⟩ h
      · rintro h ⟨rfl, rfl⟩
        obtain ⟨row, hr, -⟩ := h ⟨rfl, rfl, by decide⟩
        cases hr
  | some row =>
      have hid : row.id = id := (KeyedTable.Table.find?_eq_some.mp hrow).2
      simp only [Option.some.injEq, exists_eq_left']
      cases queryOk with
      | true =>
          simp only [if_true, User.ofRow, hid, true_and]
          cases row.state <;> simp
      | false =>
          simp only [Bool.false_eq_true, if_false, User.ofRow]
          constructor
          · rintro h ⟨hid', hpwd, -⟩
            rw [← hpwd]
            exact h hid'.symm hpwd.symm
          · rintro h rfl rfl
            exact h ⟨rfl, rfl, by decide⟩

/-- A login that is accepted has matched the value object of its row query. -/
theorem matches_of_accepted {conn : Conn} {js : Json} {id : ℤ} {pwd : String}
    (hid : getInt js "id" = some id) (hpwd : getString js "password" = some pwd)
    {queryOk : Bool} {w w' : World}
    (hrun : (login conn js).Runs (LoginStep conn queryOk) w () w')
    (hacc : LoginAccepted conn id w w') : Matches w.db queryOk id pwd := by
  rw [login_eq hid hpwd] at hrun
  obtain ⟨user, w₁, hquery, h⟩ := Prog.runs_bind.mp hrun
  obtain ⟨huser, rfl⟩ := runs_loginQuery hquery
  split_ifs at h with hmatch honline
  · exact absurd hacc (not_accepted_of_refused (by decide) h)
  · subst huser
    exact ⟨hmatch.1, hmatch.2, honline⟩
  · exact absurd hacc (not_accepted_of_refused (by decide) h)

/-- From freshly started processes a matching login is accepted in some run. -/
theorem accepted_of_matches {db : Database} (conn : Conn) (js : Json) {id : ℤ} {pwd : String}
    (hid : getInt js "id" = some id) (hpwd : getString js "password" = some pwd)
    {queryOk : Bool} (h : Matches db queryOk id pwd) :
    ∃ w', (login conn js).Runs (LoginStep conn queryOk) (World.fresh db) () w' ∧
      LoginAccepted conn id (World.fresh db) w' := by
  obtain ⟨hmid, hmpwd, hmstate⟩ := h
  have henabled : ∀ (c : Command) (w : World), c.OfLogin conn (some id) (fun _ => True) →
      (w.node conn.node).connMutex = none →
      ∃ r w', LoginStep conn queryOk c w r w' ∧ (w'.node conn.node).connMutex = none := by
    intro c w hc hw
    obtain ⟨r, w', he, hmutex, -⟩ := exec_ofLogin (a := .io conn) hc { ok := queryOk } hw
    exact ⟨r, w', ⟨{ ok := queryOk }, fun _ _ => rfl, he⟩, hmutex⟩
  obtain ⟨_, w', hrun, -⟩ := Prog.exists_runs (s := World.fresh db)
    (ofLogin_accept hmid fun _ _ _ => trivial) henabled rfl
  refine ⟨w', ?_, accepted_of_matched rfl (hrun.mono fun _ _ _ _ => loginStep_exec)⟩
  rw [login_eq hid hpwd]
  refine Prog.runs_bind.mpr ⟨User.ofRow (if queryOk then db.selectUser id else none),
    World.fresh db, runs_loginQuery_mk (World.fresh db) id, ?_⟩
  rw [if_pos ⟨hmid, hmpwd⟩, if_neg hmstate]
  exact hrun

/-- A login that binds its connection and answers `errno` 0 has presented the id and
the password of a row of the user table, exactly when its row query did not leave
room for a false match. -/
theorem login_authenticates_iff (db : Database) (conn : Conn) (js : Json) (id : ℤ)
    (pwd : String) (hid : getInt js "id" = some id) (hpwd : getString js "password" = some pwd)
    (queryOk : Bool) :
    (∀ w w', w.db = db → (login conn js).Runs (LoginStep conn queryOk) w () w' →
      LoginAccepted conn id w w' → HasCredentials db id pwd) ↔
    NoFalseMatch db queryOk id pwd := by
  rw [noFalseMatch_iff]
  constructor
  · intro hsound hmatch
    obtain ⟨w', hrun, hacc⟩ := accepted_of_matches conn js hid hpwd hmatch
    exact hsound _ w' rfl hrun hacc
  · rintro himp w w' rfl hrun hacc
    exact himp (matches_of_accepted hid hpwd hrun hacc)

/-- A registered user and that user's own request. -/
theorem login_authenticates_registered :
    (∀ w w', w.db = Statement.registered [("ann", "pw")] →
      (login ⟨0, 0⟩ (Client.loginRequest 1 "pw")).Runs (LoginStep ⟨0, 0⟩ true) w () w' →
      LoginAccepted ⟨0, 0⟩ 1 w w' → HasCredentials (Statement.registered [("ann", "pw")]) 1 "pw") ↔
    NoFalseMatch (Statement.registered [("ann", "pw")]) true 1 "pw" :=
  login_authenticates_iff _ ⟨0, 0⟩ (Client.loginRequest 1 "pw") 1 "pw" (by decide) (by decide)
    true

/-- Nobody is registered, and the request for user `-1` with an empty password is
accepted. -/
theorem default_user_accepted :
    ¬ ∀ w w', w.db = Database.empty →
      (login ⟨0, 0⟩ (Client.loginRequest (-1) "")).Runs (LoginStep ⟨0, 0⟩ true) w () w' →
      LoginAccepted ⟨0, 0⟩ (-1) w w' → HasCredentials Database.empty (-1) "" := by
  intro h
  have hmatch : Matches Database.empty true (-1) "" := ⟨rfl, rfl, by decide⟩
  obtain ⟨w', hrun, hacc⟩ :=
    accepted_of_matches ⟨0, 0⟩ (Client.loginRequest (-1) "") (by decide) (by decide) hmatch
  obtain ⟨row, hrow, -⟩ := h _ w' rfl hrun hacc
  cases hrow

end ChatCluster
