import ChatCluster.SessionFailures
import ChatCluster.MessageContract

/-!
# From registration to login

`reg` stores the name and the password with their lengths, whatever characters they
contain. `login` reads the row back through `char *`, so that both end at their first NUL.
-/
namespace ChatCluster
open CommandProgram Interleaving KeyedTable

/-- The answer of `reg` that reports success and the new id. -/
def IsRegAnswer (id : ℤ) (response : Json) : Prop :=
  response.find? "errno" = some (.int 0) ∧ getInt response "id" = some id

/-- The answer of `login` that reports success, with the id and the name of the user. -/
def IsWelcome (id : ℤ) (name : String) (response : Json) : Prop :=
  IsLoginAnswer 0 (.json response) ∧ response.find? "id" = some (.int id) ∧
    response.find? "name" = some (.string name)

/-- All that a login does is to send the answer of a refusal. -/
def LoginRefused (conn : Conn) (w w' : World) : Prop :=
  ∃ errno errmsg, (errno = 1 ∨ errno = 2) ∧
    w' = w.emit conn (.json (errorResponse .loginMsgAck errno errmsg))

/-- Any number of steps of any handlers on any nodes, where everything may fail. -/
def Later [JsonParser] (w w' : World) : Prop :=
  ∃ es x y, Steps (cluster .hostile fun _ _ => True) x es y ∧ x.view.state = w ∧
    y.view.state = w'

/-- What the user `id` can rely on in every later state, if the row of the user is read:
the login with this password is answered with this name, every other password is refused. -/
structure RoundTrip [JsonParser] (id : ℤ) (name pwd : String) (w : World) : Prop where
  welcome : ∀ w₁ w₂ conn js ok, Later w w₁ → getInt js "id" = some id →
    getString js "password" = some pwd → ok (.selectUser id) = true →
    w₁.db.userState id ≠ some .online →
    (login conn js).Runs (SqlStep (.io conn) ok) w₁ () w₂ →
      ∃ response, w₂.out conn = w₁.out conn ++ [.json response] ∧ IsWelcome id name response
  refused : ∀ w₁ w₂ conn js ok pwd', Later w w₁ → getInt js "id" = some id →
    getString js "password" = some pwd' → pwd' ≠ pwd →
    (login conn js).Runs (SqlStep (.io conn) ok) w₁ () w₂ → LoginRefused conn w₁ w₂

/-! ## The row of a user -/

/-- No statement changes the name or the password of a user. -/
theorem Statement.account_exec {ok : Bool} {q : Statement} {db : Database} {u : ℤ} {r : UserRow}
    (h : db.selectUser u = some r) :
    ∃ r', (q.exec ok db).2.selectUser u = some r' ∧ r'.name = r.name ∧
      r'.password = r.password := by
  by_cases hq : q.WritesState
  · cases ok with
    | false => exact ⟨r, h, rfl, rfl⟩
    | true =>
        cases q with
        | updateUserState id state =>
            refine ⟨_, (Database.selectUser_updateUserState db id u state).trans
              (congrArg (Option.map _) h), ?_, ?_⟩
            · split_ifs <;> rfl
            · split_ifs <;> rfl
        | resetUserStates =>
            exact ⟨_, (Database.selectUser_resetUserStates db u).trans
              (congrArg (Option.map _) h), rfl, rfl⟩
        | _ => exact hq.elim
  · exact ⟨r, Statement.selectUser_exec hq h, rfl, rfl⟩

theorem Statement.row_of_insertUser {ok : Bool} {db : Database} {name password : String}
    {state : UserState} {id : ℤ}
    (h : ((insertUser name password state).exec ok db).1 = some id) :
    id = db.nextUserId ∧ ((insertUser name password state).exec ok db).2.selectUser id =
      some ⟨id, name, password, state⟩ := by
  cases ok with
  | false => cases h
  | true =>
      simp only [exec_true, run] at h ⊢
      cases hi : db.insertUser name password state with
      | none =>
          rw [hi] at h
          cases h
      | some p =>
          obtain ⟨newId, db'⟩ := p
          rw [hi] at h
          obtain rfl : newId = id := Option.some.inj h
          obtain ⟨t, ht, he⟩ := Option.map_eq_some_iff.mp hi
          cases he
          exact ⟨rfl, (Table.find?_insert ht _).trans (if_pos rfl)⟩

theorem user_disturbance {w w' : World} (h : Disturbance w w') : w'.db.user = w.db.user := by
  cases h <;> rfl

section History
variable [JsonParser] {E : Environment} {admits : ClusterView → ClusterEntry → Prop}
  {v v' : ClusterView} {e : ClusterEntry} {x y : Config World Job Agent Command Response}
  {es : List ClusterEntry} {u : ℤ} {r : UserRow}

/-- No move changes the name or the password of a user. -/
theorem account_moves (hm : Moves (cluster E admits) v e v')
    (h : v.state.db.selectUser u = some r) :
    ∃ r', v'.state.db.selectUser u = some r' ∧ r'.name = r.name ∧ r'.password = r.password := by
  cases e with
  | started j =>
      rw [Job.db_starts hm.effect]
      exact ⟨r, h, rfl, rfl⟩
  | did j c x =>
      obtain ⟨-, o, -, ho⟩ := hm.effect
      cases c with
      | sql q =>
          rw [(exec_sql ho).2]
          exact Statement.account_exec h
      | _ => exact ⟨r, selectUser_exec id ho h, rfl, rfl⟩
  | aborted j =>
      rw [show v'.state = v.state.release j.agent from hm.effect, db_release]
      exact ⟨r, h, rfl, rfl⟩
  | disturbed =>
      refine ⟨r, ?_, rfl, rfl⟩
      rw [Database.selectUser, user_disturbance hm.effect.2]
      exact h

theorem account_steps (h : Steps (cluster E admits) x es y)
    (hr : x.view.state.db.selectUser u = some r) :
    ∃ r', y.view.state.db.selectUser u = some r' ∧ r'.name = r.name ∧
      r'.password = r.password := by
  induction h with
  | done => exact ⟨r, hr, rfl, rfl⟩
  | step _ hs ih =>
      obtain ⟨r₁, hr₁, hname₁, hpassword₁⟩ := ih
      obtain ⟨r₂, hr₂, hname₂, hpassword₂⟩ := account_moves hs.moves hr₁
      exact ⟨r₂, hr₂, hname₂.trans hname₁, hpassword₂.trans hpassword₁⟩

end History

/-! ## Registration -/

section Runs
variable {conn : Conn} {js : Json} {w w' : World} {id : ℤ} {name pwd : String}

theorem not_regAnswer_errorResponse (errmsg : String) :
    ¬ IsRegAnswer id (errorResponse .regMsgAck 1 errmsg) := by
  intro h
  rcases h with ⟨herrno, -⟩
  have hone : (errorResponse .regMsgAck 1 errmsg).find? "errno" = some (.int 1) := rfl
  rw [hone] at herrno
  exact absurd (Json.bmod_eq_of_int_eq (Option.some.inj herrno)) (by decide)

/-- A registration that reports success has stored the row, and done nothing on a node. -/
theorem row_of_reg {a : Agent} (hname : getString js "name" = some name)
    (hpwd : getString js "password" = some pwd) (hpos : 0 < w.db.nextUserId)
    (hint : w.db.nextUserId ≤ INT_MAX) (h : (reg conn js).Runs (Exec a) w () w')
    (hanswer : ∃ response, w'.out conn = w.out conn ++ [.json response] ∧
      IsRegAnswer id response) :
    id = w.db.nextUserId ∧ w'.node = w.node ∧
      w'.db.selectUser id = some ⟨id, name, pwd, .offline⟩ := by
  obtain ⟨response, hout, hanswer⟩ := hanswer
  rw [reg, hname, hpwd] at h
  dsimp only at h
  split_ifs at h
  · obtain rfl := runs_sendJson h
    obtain rfl := Sent.json.inj (World.eq_of_out_emit hout)
    exact absurd hanswer (not_regAnswer_errorResponse _)
  · obtain ⟨inserted, w₁, hinsert, hsend⟩ := Prog.runs_bind.mp h
    obtain ⟨o, ho⟩ := Prog.runs_perform.mp hinsert
    obtain ⟨hr, rfl⟩ := exec_sql ho
    cases inserted with
    | none =>
        obtain rfl := runs_sendJson hsend
        obtain rfl := Sent.json.inj (World.eq_of_out_emit hout)
        have hone := Option.some.inj hanswer.1
        exact absurd (Json.bmod_eq_of_int_eq hone) (by decide)
    | some newId =>
        obtain rfl := runs_sendJson hsend
        obtain rfl := Sent.json.inj (World.eq_of_out_emit hout)
        obtain ⟨hnew, hrow⟩ := Statement.row_of_insertUser hr.symm
        have hid : getInt ((Json.null.set "msgid" (.int EnMsgType.regMsgAck.code)).set "errno"
            (.int 0) |>.set "id" (.int newId)) "id" = some newId := by
          refine getInt_int rfl ?_ ?_
          · unfold INT_MIN
            omega
          · omega
        obtain rfl : newId = id := Option.some.inj (hid.symm.trans hanswer.2)
        exact ⟨hnew, rfl, hrow⟩

/-! ## Login -/

theorem isWelcome_loginResponse (user : User) (offlineMessages : List String)
    (userVec : List User) (groupuserVec : List Group) :
    IsWelcome user.id user.name
      (loginResponse user offlineMessages userVec groupuserVec) := by
  refine ⟨isLoginAnswer_loginResponse .., ?_, ?_⟩
  · rw [find?_loginResponse _ _ _ _ (by decide) (by decide) (by decide)]
    rfl
  · rw [find?_loginResponse _ _ _ _ (by decide) (by decide) (by decide)]
    rfl

/-- The password that is read is the one presented: the answer carries the name that is
read. -/
theorem welcome_of_login {ok : Statement → Bool} {row : UserRow}
    (hid : getInt js "id" = some id) (hpwd : getString js "password" = some pwd)
    (hread : ok (.selectUser id) = true) (hrow : w.db.selectUser id = some row)
    (hoff : row.state = .offline) (hsame : cStr row.password = pwd)
    (h : (login conn js).Runs (SqlStep (.io conn) ok) w () w') :
    ∃ response, w'.out conn = w.out conn ++ [.json response] ∧
      IsWelcome id (cStr row.name) response := by
  rw [login_eq hid hpwd] at h
  obtain ⟨user, w₁, hquery, hrest⟩ := Prog.runs_bind.mp h
  obtain ⟨huser, rfl⟩ := runs_userQuery hquery
  rw [if_pos hread, hrow] at huser
  obtain rfl : row.id = id := (Table.find?_eq_some.mp hrow).2
  have honline : (User.ofRow (some row)).state ≠ .online := by simp [User.ofRow, hoff]
  rw [huser, if_pos ⟨rfl, hsame⟩, if_neg honline] at hrest
  obtain ⟨-, hanswer⟩ := answered_of_matched rfl
    (isWelcome_loginResponse (User.ofRow (some row))) (runs_exec hrest)
  exact hanswer

/-- Any other password is refused, also when the row is not read. -/
theorem refused_of_login {ok : Statement → Bool} {row : UserRow} (hpos : 0 < id)
    (hid : getInt js "id" = some id) (hpwd : getString js "password" = some pwd)
    (hrow : w.db.selectUser id = some row) (hother : cStr row.password ≠ pwd)
    (h : (login conn js).Runs (SqlStep (.io conn) ok) w () w') : LoginRefused conn w w' := by
  rw [login_eq hid hpwd] at h
  obtain ⟨user, w₁, hquery, hrest⟩ := Prog.runs_bind.mp h
  obtain ⟨huser, rfl⟩ := runs_userQuery hquery
  have hmismatch : ¬ (user.id = id ∧ user.pwd = pwd) := by
    intro h
    rcases h with ⟨hsame, hmatch⟩
    rw [hrow] at huser
    cases hread : ok (.selectUser id) with
    | true =>
        rw [hread, if_pos rfl] at huser
        subst huser
        exact hother hmatch
    | false =>
        rw [hread] at huser
        subst huser
        have hdefault : (-1 : ℤ) = id := hsame
        omega
  rw [if_neg hmismatch] at hrest
  exact ⟨1, _, .inl rfl, runs_sendJson (runs_exec hrest)⟩

section Rows
variable [JsonParser] {row : UserRow}

/-- Without a NUL the texts that are read are the ones stored. -/
theorem roundTrip_of_clean (hpos : 0 < id) (hrow : w.db.selectUser id = some row)
    (hname : ∀ c ∈ row.name.toList, c ≠ '\x00') (hpwd : ∀ c ∈ row.password.toList, c ≠ '\x00') :
    RoundTrip id row.name row.password w := by
  constructor
  · intro w₁ w₂ conn' js' ok hlater hid hpwd' hread hoff hlogin
    obtain ⟨es, x, y, hsteps, rfl, rfl⟩ := hlater
    obtain ⟨row', hrow', hsameName, hsamePwd⟩ := account_steps hsteps hrow
    have hread' : cStr row'.password = row.password := by rw [hsamePwd, cStr_eq_self hpwd]
    have hwelcome := welcome_of_login hid hpwd' hread hrow'
      (Database.state_of_not_online hrow' hoff) hread' hlogin
    rw [hsameName, cStr_eq_self hname] at hwelcome
    exact hwelcome
  · intro w₁ w₂ conn' js' ok pwd' hlater hid hpwd' hother hlogin
    obtain ⟨es, x, y, hsteps, rfl, rfl⟩ := hlater
    obtain ⟨row', hrow', -, hsamePwd⟩ := account_steps hsteps hrow
    refine refused_of_login hpos hid hpwd' hrow' ?_ hlogin
    rw [hsamePwd, cStr_eq_self hpwd]
    exact Ne.symm hother

/-- A login with the cut password is accepted, and answered with the cut name. -/
theorem clean_of_roundTrip {n : ℕ} (hpos : 0 < id) (hint : id ≤ INT_MAX)
    (hidle : (w.node n).connMutex = none) (hrow : w.db.selectUser id = some row)
    (hoff : row.state = .offline) (htrip : RoundTrip id row.name row.password w) :
    cStr row.name = row.name ∧ cStr row.password = row.password := by
  have hlater : Later w w := ⟨[], .initial w, .initial w, .done, rfl, rfl⟩
  have hlower : INT_MIN ≤ id := by
    unfold INT_MIN
    omega
  have hidle' : (w.node (Conn.mk n 0).node).connMutex = none := hidle
  obtain ⟨w', hlogin, haccepted⟩ := exists_accepted hrow hoff hlower hint hidle'
  have hid : getInt (Client.loginRequest id (cStr row.password)) "id" = some id :=
    getInt_int rfl hlower hint
  have hcut : getString (Client.loginRequest id (cStr row.password)) "password" =
      some (cStr row.password) := rfl
  have hclean : cStr row.password = row.password := by
    by_contra hother
    obtain ⟨errno, errmsg, herrno, rfl⟩ := htrip.refused _ _ _ _ _ _ hlater hid hcut hother hlogin
    have hnonzero : errno.bmod (2 ^ 64) ≠ 0 := by
      rcases herrno with rfl | rfl
      · decide
      · decide
    exact not_answered_of_error hnonzero haccepted.2
  have hstate : w.db.userState id ≠ some .online := by
    rw [Database.userState_of_selectUser hrow, hoff]
    simp
  obtain ⟨response, hout, hwelcome⟩ := htrip.welcome _ _ _ _ _ hlater hid
    (hcut.trans (congrArg some hclean)) rfl hstate hlogin
  obtain ⟨response', hout', hwelcome'⟩ := welcome_of_login hid hcut rfl hrow hoff rfl hlogin
  rw [hout] at hout'
  obtain rfl := Sent.json.inj (List.singleton_injective (List.append_cancel_left hout'))
  have hsame := hwelcome.2.2.symm.trans hwelcome'.2.2
  exact ⟨(Json.string.inj (Option.some.inj hsame)).symm, hclean⟩

end Rows

/-- After a registration that has reported success, the user can rely on the round trip
exactly when neither the name nor the password contains a NUL. -/
theorem register_login_iff [JsonParser] {n : ℕ} (hname : getString js "name" = some name)
    (hpwd : getString js "password" = some pwd) (hpos : 0 < w.db.nextUserId)
    (hint : w.db.nextUserId ≤ INT_MAX) (hidle : (w.node n).connMutex = none)
    (hreg : (reg conn js).Runs (Exec (.io conn)) w () w')
    (hanswer : ∃ response, w'.out conn = w.out conn ++ [.json response] ∧
      IsRegAnswer id response) :
    RoundTrip id name pwd w' ↔
      (∀ c ∈ name.toList, c ≠ '\x00') ∧ ∀ c ∈ pwd.toList, c ≠ '\x00' := by
  obtain ⟨rfl, hnode, hrow⟩ := row_of_reg hname hpwd hpos hint hreg hanswer
  constructor
  · intro htrip
    have hidle' : (w'.node n).connMutex = none := by rw [hnode, hidle]
    obtain ⟨hcleanName, hcleanPwd⟩ := clean_of_roundTrip hpos hint hidle' hrow rfl htrip
    exact ⟨cStr_eq_self_iff.mp hcleanName, cStr_eq_self_iff.mp hcleanPwd⟩
  · intro h
    rcases h with ⟨hcleanName, hcleanPwd⟩
    exact roundTrip_of_clean hpos hrow hcleanName hcleanPwd

end Runs

/-! ## Computed registrations -/

/-- A name and a password that are not empty can be registered. -/
theorem exists_reg (conn : Conn) (js : Json) (w : World) {id : ℤ} {name pwd : String}
    {db : Database} (hname : getString js "name" = some name)
    (hpwd : getString js "password" = some pwd) (hgiven : ¬ (name = "" ∨ pwd = ""))
    (hinsert : w.db.insertUser name pwd .offline = some (id, db)) (hlower : INT_MIN ≤ id)
    (hupper : id ≤ INT_MAX) :
    ∃ w', (reg conn js).Runs (Exec (.io conn)) w () w' ∧
      ∃ response, w'.out conn = w.out conn ++ [.json response] ∧ IsRegAnswer id response := by
  rw [reg, hname, hpwd]
  dsimp only
  rw [if_neg hgiven]
  have hrun : (Statement.insertUser name pwd .offline).run w.db = (some id, db) := by
    rw [Statement.run, hinsert]
    rfl
  have hexec : Exec (.io conn) (.sql (.insertUser name pwd .offline)) w (some id)
      { w with db := db } := by
    refine ⟨{}, ?_⟩
    rw [exec, Statement.exec_true, hrun]
  refine ⟨_, Prog.runs_bind.mpr ⟨some id, { w with db := db }, Prog.runs_perform.mpr hexec,
    Prog.runs_perform.mpr ⟨{}, rfl⟩⟩, _, World.out_emit_self .., rfl, ?_⟩
  exact getInt_int rfl hlower hupper

/-- A user registers over a connection of node `0` and is answered with the id 1. -/
theorem register_login_ann : letI := Cluster.rejectAll
    ∃ w' : World, (reg ⟨0, 0⟩ (Client.regRequest "ann" "pw")).Runs (Exec (.io ⟨0, 0⟩))
        (World.fresh .empty) () w' ∧
      (∃ response, w'.out ⟨0, 0⟩ = (World.fresh .empty).out ⟨0, 0⟩ ++ [.json response] ∧
        IsRegAnswer 1 response) ∧
      (RoundTrip 1 "ann" "pw" w' ↔
        (∀ c ∈ "ann".toList, c ≠ '\x00') ∧ ∀ c ∈ "pw".toList, c ≠ '\x00') := by
  let _ := Cluster.rejectAll
  obtain ⟨w', hreg, hanswer⟩ := exists_reg ⟨0, 0⟩ (Client.regRequest "ann" "pw")
    (World.fresh .empty) rfl rfl (by decide) rfl (by decide) (by decide)
  refine ⟨w', hreg, hanswer, ?_⟩
  exact register_login_iff (n := 0) rfl rfl (by decide) (by decide) rfl hreg hanswer

/-- The password contains a NUL: what comes before it is accepted as the password. -/
theorem cut_password_accepted : letI := Cluster.rejectAll
    ∃ w' : World, (reg ⟨0, 0⟩ (Client.regRequest "ann" "p\x00q")).Runs (Exec (.io ⟨0, 0⟩))
        (World.fresh .empty) () w' ∧
      (∃ response, w'.out ⟨0, 0⟩ = (World.fresh .empty).out ⟨0, 0⟩ ++ [.json response] ∧
        IsRegAnswer 1 response) ∧
      ∃ w'' : World, (login ⟨0, 0⟩ (Client.loginRequest 1 "p")).Runs
          (SqlStep (.io ⟨0, 0⟩) fun _ => true) w' () w'' ∧ LoginAccepted ⟨0, 0⟩ 1 w' w'' := by
  let _ := Cluster.rejectAll
  obtain ⟨w', hreg, hanswer⟩ := exists_reg ⟨0, 0⟩
    (Client.regRequest "ann" "p\x00q") (World.fresh .empty) rfl rfl (by decide) rfl
    (by decide) (by decide)
  have hname : getString (Client.regRequest "ann" "p\x00q") "name" = some "ann" := rfl
  have hpwd : getString (Client.regRequest "ann" "p\x00q") "password" = some "p\x00q" := rfl
  obtain ⟨-, hnode, hrow⟩ := row_of_reg hname hpwd (by decide) (by decide) hreg hanswer
  have hidle : (w'.node (Conn.mk 0 0).node).connMutex = none := by
    rw [hnode]
    rfl
  obtain ⟨w'', hlogin, haccepted⟩ := exists_accepted hrow rfl (by decide) (by decide) hidle
  exact ⟨w', hreg, hanswer, w'', hlogin, haccepted⟩

end ChatCluster
