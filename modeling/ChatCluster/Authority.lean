import ChatCluster.Licence
import ChatCluster.Registration

/-!
# Acting in the name of a user

Whatever is written in the name of a user goes back to a login as that user on the
same connection, and nothing has ended that session in between: every entry of a map
was made by the latest command that wrote it, only a login makes one, and the login has
been completed before the connection takes up another frame.
-/
namespace ChatCluster
open CommandProgram Interleaving

/-! ## Sessions in the history -/

def actingMemory (a : Agent) (past : List ClusterEntry) : ActingMemory :=
  memory Job.agent {} ActingMemory.next a past

theorem actingMemory_did {j : Job} (c : Command) (r : Response c) (a : Agent)
    (past : List ClusterEntry) : actingMemory a (.did j c r :: past) =
      if j.agent = a then (actingMemory a past).next c r else actingMemory a past := rfl

theorem row_of_next {m : ActingMemory} {j : Job} {c : Command} {r : Response c} {row : UserRow}
    (hnot : m.row ≠ some row) (h : (m.next c r).row = some row) :
    ∃ id, (Entry.did j c r : ClusterEntry) = .did j (.sql (.selectUser id)) (some row) := by
  cases c with
  | sql q =>
      cases q with
      | selectUser id =>
          obtain rfl : r = some row := h
          exact ⟨id, rfl⟩
      | _ => exact absurd h hnot
  | node q =>
      cases q with
      | mapIsBound => cases r <;> exact absurd h hnot
      | _ => exact absurd h hnot
  | _ => exact absurd h hnot

theorem checked_of_next {m : ActingMemory} {j : Job} {c : Command} {r : Response c} {u : ℤ}
    {conn : Conn} (hnot : m.checked ≠ some (u, conn)) (h : (m.next c r).checked = some (u, conn)) :
    (Entry.did j c r : ClusterEntry) = .did j (.node (.mapIsBound u conn)) true := by
  cases c with
  | sql q => cases q <;> exact absurd h hnot
  | node q =>
      cases q with
      | mapIsBound userid conn' =>
          cases r with
          | true =>
              obtain ⟨rfl, rfl⟩ := Prod.mk.inj (Option.some.inj h)
              rfl
          | false => exact absurd h hnot
      | _ => exact absurd h hnot
  | _ => exact absurd h hnot

/-- The entry writes what the map of node `n` holds for user `u`. -/
def Rebinds (n : ℕ) (u : ℤ) : ClusterEntry → Prop
  | .did j c r => j.agent.node = n ∧ c.Rebinds u r
  | _ => False

/-- The entry ends the session of user `u` on `conn`: its binding is erased or written
anew, or the connection is closed. -/
def EndsSession (u : ℤ) (conn : Conn) (e : ClusterEntry) : Prop :=
  Rebinds conn.node u e ∨ e = .started (.close conn)

/-- The entry completes the login of user `u` on `conn`: it is the answer that confirms
the user, unless the handler has been stopped before. -/
def CompletesLogin (u : ℤ) (conn : Conn) : ClusterEntry → Prop
  | .did j (.sendTo conn' s) _ =>
      j.agent = .io conn ∧ conn' = conn ∧ confirmedUser? s = some u
  | .aborted j => j.agent = .io conn
  | _ => False

/-- A login frame of user `u` that the table has with password `pwd`. -/
structure LoginFrame (u : ℤ) (pwd : String) (js : Json) : Prop where
  type : msgType? js = some .loginMsg
  id : getInt js "id" = some u
  password : getString js "password" = some pwd

theorem closed_disturbance {w w' : World} (h : Disturbance w w') : w'.closed = w.closed := by
  cases h <;> rfl

section History
variable [JsonParser] {E : Environment} {admits : ClusterView → ClusterEntry → Prop}
  {v v' : ClusterView} {e : ClusterEntry} {w : World} {es : List ClusterEntry} {x : ClusterConfig}

theorem bound_moves (hm : Moves (cluster E admits) v e v') {n : ℕ} {u : ℤ} {d : Conn}
    (hd : v'.state.bound n u = some d) :
    (v.state.bound n u = some d ∧ ¬ Rebinds n u e) ∨
      ∃ j, e = .did j (.node (.mapBind u d)) () ∧ j.agent.node = n := by
  cases e with
  | started j =>
      rw [World.bound, (Job.node_starts hm.effect n).1] at hd
      exact .inl ⟨hd, id⟩
  | did j c r =>
      obtain ⟨-, o, -, ho⟩ := hm.effect
      obtain hsame | ⟨hj, rfl⟩ := bound_exec ho hd
      · exact .inl hsame
      · exact .inr ⟨j, rfl, hj⟩
  | aborted j =>
      rw [show v'.state = v.state.release j.agent from hm.effect, World.bound,
        userConnMap_release] at hd
      exact .inl ⟨hd, id⟩
  | disturbed =>
      rw [World.bound, (locked_disturbance (b := .main 0) hm.effect.2).2] at hd
      exact .inl ⟨hd, id⟩

/-- An entry of a map was made by the latest command that wrote it. -/
theorem bound_since (h : Steps (cluster E admits) (Config.initial w) es x)
    (hw : ∀ n u, w.bound n u = none) {n : ℕ} {u : ℤ} {d : Conn}
    (hd : x.view.state.bound n u = some d) :
    ∃ later j earlier, x.view.past = later ++ .did j (.node (.mapBind u d)) () :: earlier ∧
      j.agent.node = n ∧ ∀ e ∈ later, ¬ Rebinds n u e := by
  induction h with
  | done =>
      rw [Config.initial, hw] at hd
      cases hd
  | @step x y e es hrun hs ih =>
      rw [hs.moves.recorded]
      obtain ⟨hbound, hnot⟩ | ⟨j, rfl, hj⟩ := bound_moves hs.moves hd
      · obtain ⟨later, j, earlier, hpast, hj, hlater⟩ := ih hbound
        refine ⟨e :: later, j, earlier, by rw [hpast, List.cons_append], hj, fun f hf => ?_⟩
        obtain rfl | hf := List.mem_cons.mp hf
        · exact hnot
        · exact hlater f hf
      · exact ⟨[], j, _, rfl, hj, fun _ hf => absurd hf List.not_mem_nil⟩

/-! ## Passwords -/

/-- No move changes the password of a user. -/
theorem password_moves (hm : Moves (cluster E admits) v e v') {u : ℤ} {r : UserRow}
    (h : v.state.db.selectUser u = some r) :
    ∃ r', v'.state.db.selectUser u = some r' ∧ r'.password = r.password := by
  obtain ⟨r', hr', -, hpassword⟩ := account_moves hm h
  exact ⟨r', hr', hpassword⟩

/-- A row that a query has returned has the password that the table still holds. -/
theorem password_recorded (h : Steps (cluster E admits) (Config.initial w) es x) {j : Job}
    {id : ℤ} {row : UserRow} (hmem : .did j (.sql (.selectUser id)) (some row) ∈ x.view.past) :
    ∃ r, x.view.state.db.selectUser row.id = some r ∧ r.password = row.password := by
  induction h with
  | done => exact absurd hmem List.not_mem_nil
  | step hrun hs ih =>
      rw [hs.moves.recorded] at hmem
      obtain rfl | hmem := List.mem_cons.mp hmem
      · obtain ⟨-, o, -, ho⟩ := hs.moves.effect
        obtain ⟨hrow, hw⟩ := exec_sql ho
        rw [hw]
        cases hok : o.ok with
        | false =>
            rw [hok] at hrow
            cases hrow
        | true =>
            rw [hok] at hrow
            have hfound := KeyedTable.Table.find?_eq_some.mp hrow.symm
            refine ⟨row, ?_, rfl⟩
            rw [hfound.2]
            exact hrow.symm
      · obtain ⟨r, hr, hpwd⟩ := ih hmem
        obtain ⟨r', hr', hpwd'⟩ := password_moves hs.moves hr
        exact ⟨r', hr', hpwd'.trans hpwd⟩

/-! ## From a binding to its login -/

theorem licensed_of_step (h : Steps (cluster E admits) (Config.initial w) es x) {j : Job}
    {c : Command} {r : Response c} (hs : Step (cluster E admits) x (.did j c r) y) :
    Licensed j (actingMemory j.agent x.view.past) c :=
  h.tracked_did (P := Licensed) (Q := fun m => m.pending = none) tracks_body rfl hs

theorem licensed_of_recorded (h : Steps (cluster E admits) (Config.initial w) es x)
    {newer older : List ClusterEntry} {j : Job} {c : Command} {r : Response c}
    (hpast : x.view.past = newer ++ .did j c r :: older) :
    Licensed j (actingMemory j.agent older) c :=
  h.tracked (P := Licensed) (Q := fun m => m.pending = none) tracks_body rfl hpast

/-- What `UserModel::query` gives as the password of user `u`: the stored one up to a
NUL, or that of the default user. -/
def KnownPassword (db : Database) (u : ℤ) (pwd : String) : Prop :=
  (∃ row, db.selectUser u = some row ∧ pwd = cStr row.password) ∨ (u = -1 ∧ pwd = "")

/-- A user is bound by a login frame that has the password which the query gave. -/
theorem login_of_bind (h : Steps (cluster E admits) (Config.initial w) es x)
    {newer older : List ClusterEntry} {j : Job} {u : ℤ} {conn : Conn}
    {r : Response (.node (.mapBind u conn))}
    (hpast : x.view.past = newer ++ .did j (.node (.mapBind u conn)) r :: older) :
    ∃ js time pwd, j = .frame conn js time ∧ LoginFrame u pwd js ∧
      KnownPassword x.view.state.db u pwd := by
  obtain ⟨js, time, rfl, hmsg, hid, hrow, hpwd⟩ :=
    (licensed_of_recorded h hpast).binds u conn rfl
  refine ⟨js, time, _, rfl, ⟨hmsg, hid, hpwd⟩, ?_⟩
  cases hm : (actingMemory (.io conn) older).row with
  | none =>
      simp only [Job.agent, hm] at hrow
      exact .inr ⟨hrow.symm, by simp only [Job.agent, hm]; rfl⟩
  | some row =>
      obtain ⟨since, i, c, x', older', hsplit, -, hnot, hnext, -⟩ :=
        memory_gained (D := fun m : ActingMemory => m.row = some row) (by simp) hm
      obtain ⟨id, he⟩ := row_of_next (j := i) hnot hnext
      have hmem : .did i (.sql (.selectUser id)) (some row) ∈ x.view.past := by
        rw [hpast, hsplit, he]
        simp
      obtain ⟨row', hrow', hsame⟩ := password_recorded h hmem
      simp only [Job.agent, hm] at hrow ⊢
      obtain rfl : row.id = u := hrow
      refine .inl ⟨row', hrow', ?_⟩
      rw [hsame]
      rfl

/-- Once the agent has come to rest after a binding, the login has been completed. -/
theorem login_completed (h : Steps (cluster E admits) (Config.initial w) es x)
    {later earlier : List ClusterEntry} {j : Job} {u : ℤ} {conn : Conn}
    {r : Response (.node (.mapBind u conn))}
    (hpast : x.view.past = later ++ .did j (.node (.mapBind u conn)) r :: earlier)
    (hj : j.agent = .io conn) (hrest : (actingMemory (.io conn) x.view.past).pending = none) :
    ∃ e ∈ later, CompletesLogin u conn e := by
  have hbound : (actingMemory (.io conn)
      (.did j (.node (.mapBind u conn)) r :: earlier)).pending = some u := by
    rw [actingMemory_did, if_pos hj]
    rfl
  rw [hpast] at hrest
  obtain ⟨newer, e, rest, i, rfl, hi, hagent, hD, hnot⟩ :=
    memory_dropped (D := fun m : ActingMemory => m.pending = some u) later hbound
      fun hD => absurd (hrest.symm.trans hD) (by simp)
  have hsplit : x.view.past =
      newer ++ e :: (rest ++ .did j (.node (.mapBind u conn)) r :: earlier) := by
    rw [hpast]
    simp
  refine ⟨e, List.mem_append_right _ List.mem_cons_self, ?_⟩
  cases e with
  | started k =>
      cases hi
      have hidle := h.tracked_start (P := Licensed) (Q := fun m => m.pending = none) tracks_body rfl
        hsplit
      rw [show (cluster E admits).agent i = .io conn from hagent] at hidle
      exact absurd (hidle.symm.trans hD) (by simp)
  | did k c r' =>
      cases hi
      have hlicensed := licensed_of_recorded h hsplit
      rw [show i.agent = .io conn from hagent] at hlicensed
      obtain ⟨conn', s, rfl, hio, hs⟩ | hkept := hlicensed.confirms u hD
      · obtain rfl := Agent.io.inj (hio.symm.trans hagent)
        exact ⟨hio, rfl, hs⟩
      · refine absurd (hkept r') ?_
        rw [memory, if_pos hagent] at hnot
        exact hnot
  | aborted k =>
      cases hi
      exact hagent
  | disturbed => cases hi

/-! ## Closed connections -/

theorem closed_moves (hm : Moves (cluster E admits) v e v') {c : Conn} (h : c ∈ v.state.closed) :
    c ∈ v'.state.closed := by
  cases e with
  | started j =>
      have hstart : j.Starts v.state v'.state := hm.effect
      cases j with
      | frame => rwa [hstart.2.2]
      | close =>
          rw [hstart.2.2]
          exact Finset.mem_insert_of_mem h
      | redisMessage =>
          obtain ⟨-, _, -, hw⟩ := hstart
          rwa [hw]
      | sigint => rwa [hstart.2]
  | did j c' r =>
      obtain ⟨-, o, -, ho⟩ := hm.effect
      rwa [closed_exec ho]
  | aborted j =>
      rw [show v'.state = v.state.release j.agent from hm.effect, World.release]
      split_ifs
      · exact h
      · exact h
  | disturbed =>
      rwa [closed_disturbance hm.effect.2]

theorem closed_of_started (h : Steps (cluster E admits) (Config.initial w) es x) {c : Conn}
    (hmem : .started (.close c) ∈ x.view.past) : c ∈ x.view.state.closed := by
  induction h with
  | done => exact absurd hmem List.not_mem_nil
  | @step x y e es hrun hs ih =>
      rw [hs.moves.recorded] at hmem
      obtain rfl | hmem := List.mem_cons.mp hmem
      · have hstart : (Job.close c).Starts x.view.state y.view.state := hs.moves.effect
        rw [hstart.2.2]
        exact Finset.mem_insert_self _ _
      · exact closed_moves hs.moves (ih hmem)

/-! ## The check -/

/-- User `u` is logged in on `conn` after these moves: a login frame with password `pwd`
has bound the connection and has been completed, and nothing has ended the session
since. -/
def LoggedIn (u : ℤ) (pwd : String) (conn : Conn) (past : List ClusterEntry) : Prop :=
  ∃ js time later earlier,
    past = later ++ .did (.frame conn js time) (.node (.mapBind u conn)) () :: earlier ∧
    LoginFrame u pwd js ∧ (∃ e ∈ later, CompletesLogin u conn e) ∧
    ∀ e ∈ later, ¬ EndsSession u conn e

theorem bound_of_check {j : Job} {u : ℤ} {conn : Conn}
    (hm : Moves (cluster E admits) v (.did j (.node (.mapIsBound u conn)) true) v') :
    v.state.bound j.agent.node u = some conn := by
  obtain ⟨-, o, -, ho⟩ := hm.effect
  obtain ⟨s', hs, -⟩ := exec_node ho
  exact (NodeOp.exec_mapIsBound hs).2.mp rfl

/-- A frame whose check succeeds found its user logged in on its connection, at the
check and already when the frame was taken up. -/
theorem loggedIn_of_check (h : Steps (cluster E admits) (Config.initial w) es x)
    (hw : ∀ n u, w.bound n u = none) {y : ClusterConfig} {j : Job} {u : ℤ} {conn : Conn}
    (hs : Step (cluster E admits) x (.did j (.node (.mapIsBound u conn)) true) y)
    (hj : j.ActsFor u conn) (hu : 0 < u) :
    ∃ row mid arrival, x.view.state.db.selectUser u = some row ∧
      x.view.past = mid ++ .started j :: arrival ∧ .started j ∉ mid ∧
      LoggedIn u (cStr row.password) conn arrival ∧
      LoggedIn u (cStr row.password) conn x.view.past := by
  cases j with
  | frame conn' js time =>
      obtain ⟨rfl, ⟨t, ht, hmsg⟩, hid⟩ := hj
      obtain ⟨later, i, earlier, hpast, hi, hlater⟩ := bound_since h hw (bound_of_check hs.moves)
      obtain ⟨js', time', pwd, rfl, hlogin, hpwd⟩ := login_of_bind h hpast
      obtain ⟨row, hrow, rfl⟩ := hpwd.resolve_right fun hdefault => by omega
      obtain ⟨mid, arrival, hsplit, hmid⟩ := h.current_start (h.job_of_step hs rfl (by simp))
      have hagent : ∀ {e : ClusterEntry} {k : Job}, e ∈ mid → e.job? = some k →
          k.agent = .io conn' → k = .frame conn' js time ∧ e ≠ .started k :=
        fun he hk hio => hmid _ he _ hk hio
      have hstart : .started (.frame conn' js time) ∉ mid := fun hmem => (hagent hmem rfl rfl).2 rfl
      -- the binding was made by a login, so before this frame was taken up
      obtain ⟨l, hmem, -⟩ | ⟨he, -⟩ | ⟨l, hl, harrival⟩ := split_cases (hpast.symm.trans hsplit)
      · have hsame := hagent (hmem ▸ List.mem_append_right _ List.mem_cons_self) rfl rfl
        obtain ⟨rfl, -⟩ := (Job.frame.inj hsame.1).2
        rw [hlogin.type] at hmsg
        obtain rfl := Option.some.inj hmsg
        exact absurd ht (by decide)
      · cases he
      · obtain ⟨_, _, z, z', hz, hzpast, hzs, -⟩ := h.at_entry hsplit
        have hstarts : (Job.frame conn' js time).Starts z.view.state z'.view.state :=
          hzs.moves.effect
        have hidle := h.tracked_start (P := Licensed) (Q := fun m => m.pending = none) tracks_body
          rfl hsplit
        obtain ⟨e, he, hcompletes⟩ := login_completed hz (hzpast.trans harrival) rfl
          (hzpast ▸ hidle)
        have hclose : .started (.close conn') ∉ later := by
          intro hmem
          rw [hl] at hmem
          obtain hmem | hmem := List.mem_append.mp hmem
          · cases (hagent hmem rfl rfl).1
          · obtain hmem | hmem := List.mem_cons.mp hmem
            · cases hmem
            · apply hstarts.2.1
              apply closed_of_started hz
              rw [hzpast, harrival]
              exact List.mem_append_left _ hmem
        have hends : ∀ e ∈ later, ¬ EndsSession u conn' e := by
          rintro e he (hrebinds | rfl)
          · exact hlater e he hrebinds
          · exact hclose he
        have hsub : ∀ e ∈ l, e ∈ later := fun e he =>
          hl ▸ List.mem_append_right _ (List.mem_cons_of_mem _ he)
        refine ⟨row, mid, arrival, hrow, hsplit, hstart, ?_, ?_⟩
        · exact ⟨js', time', l, earlier, harrival, hlogin, ⟨e, he, hcompletes⟩, fun e he =>
            hends e (hsub e he)⟩
        · exact ⟨js', time', later, earlier, hpast, hlogin, ⟨e, hsub e he, hcompletes⟩, hends⟩
  | _ => exact hj.elim

end History
/-! ## What is written in the name of a user -/

theorem friend_sql {ok : Bool} {q : Statement} {db : Database} {r : FriendRow}
    (hr : r ∈ (q.exec ok db).2.friend.rows) (hnew : r ∉ db.friend.rows) :
    q = .insertFriend r.userid r.friendid := by
  cases ok with
  | false => exact absurd hr hnew
  | true =>
      cases q with
      | insertFriend userid friendid =>
          simp only [Statement.exec_true, Statement.run, Database.insertFriend] at hr
          cases hi : db.friend.insert ⟨userid, friendid⟩ with
          | none =>
              rw [hi] at hr
              exact absurd hr hnew
          | some t =>
              rw [hi] at hr
              obtain rfl | hr := (KeyedTable.Table.mem_insert hi).mp hr
              · rfl
              · exact absurd hr hnew
      | insertUser | insertMessage | insertGroup =>
          simp only [Statement.exec_true, Statement.run] at hr
          split at hr
          · next hdb =>
            obtain ⟨t, -, he⟩ := Option.map_eq_some_iff.mp hdb
            cases he
            exact absurd hr hnew
          · exact absurd hr hnew
      | _ => exact absurd hr hnew

theorem groupuser_sql {ok : Bool} {q : Statement} {db : Database} {r : GroupUserRow}
    (hr : r ∈ (q.exec ok db).2.groupuser.rows) (hnew : r ∉ db.groupuser.rows) :
    q = .insertGroupUser r.groupid r.userid r.grouprole := by
  cases ok with
  | false => exact absurd hr hnew
  | true =>
      cases q with
      | insertGroupUser groupid userid role =>
          simp only [Statement.exec_true, Statement.run, Database.insertGroupUser] at hr
          cases hi : db.groupuser.insert ⟨groupid, userid, role⟩ with
          | none =>
              rw [hi] at hr
              exact absurd hr hnew
          | some t =>
              rw [hi] at hr
              obtain rfl | hr := (KeyedTable.Table.mem_insert hi).mp hr
              · rfl
              · exact absurd hr hnew
      | insertUser | insertMessage | insertGroup =>
          simp only [Statement.exec_true, Statement.run] at hr
          split at hr
          · next hdb =>
            obtain ⟨t, -, he⟩ := Option.map_eq_some_iff.mp hdb
            cases he
            exact absurd hr hnew
          · exact absurd hr hnew
      | _ => exact absurd hr hnew

/-- Between `w` and `w'` something is written in the name of user `u`. -/
inductive WritesFor (u : ℤ) (w w' : World) : Prop
  | message (r : MessageRow) : r ∈ w'.db.chatMessage.rows → r.senderId = u →
      (∀ r' ∈ w.db.chatMessage.rows, r'.messageId ≠ r.messageId) → WritesFor u w w'
  | friend (r : FriendRow) : r ∈ w'.db.friend.rows → r.userid = u → r ∉ w.db.friend.rows →
      WritesFor u w w'
  | groupUser (r : GroupUserRow) : r ∈ w'.db.groupuser.rows → r.userid = u →
      r ∉ w.db.groupuser.rows → WritesFor u w w'
  | acked (r : MessageRow) : r ∈ w'.db.chatMessage.rows → r.receiverId = u →
      r.status = MessageStatus.acked →
      (∀ r' ∈ w.db.chatMessage.rows, r'.messageId = r.messageId →
        r'.status ≠ MessageStatus.acked) → WritesFor u w w'

/-- The entry is a frame, not a close, that sets user `u` offline. -/
def LogsOut (u : ℤ) (e : ClusterEntry) : Prop :=
  ∃ conn js time ok, e = .did (.frame conn js time) (.sql (.updateUserState u .offline)) ok

/-- The entry belongs to a frame that acts for user `u`, and at the check of that frame
the user was logged in on its connection. -/
def CausedBy (u : ℤ) (pwd : String) (past : List ClusterEntry) (e : ClusterEntry) : Prop :=
  ∃ j conn since older, e.job? = some j ∧ j.ActsFor u conn ∧
    past = since ++ .did j (.node (.mapIsBound u conn)) true :: older ∧ .started j ∉ since ∧
    LoggedIn u pwd conn older

/-- Tables, maps and subscriptions are as before, and nothing has been sent. -/
structure Untouched (w w' : World) : Prop where
  db : w'.db = w.db
  map : ∀ n, (w'.node n).userConnMap = (w.node n).userConnMap
  sub : ∀ n, (w'.node n).subscriptions = (w.node n).subscriptions
  inbox : ∀ n, (w'.node n).inbox = (w.node n).inbox
  out : w'.out = w.out

theorem Untouched.refl (w : World) : Untouched w w :=
  ⟨rfl, fun _ => rfl, fun _ => rfl, fun _ => rfl, rfl⟩

theorem untouched_release (w : World) (a : Agent) : Untouched w (w.release a) where
  db := db_release w a
  map := userConnMap_release w a
  sub n := by
    rw [World.release]
    split_ifs
    · rw [World.node_setNode]
      split_ifs with hn
      · rw [hn]
      · rfl
    · rfl
  inbox := inbox_release w a
  out := by
    rw [World.release]
    split_ifs <;> rfl

section Effects
variable [JsonParser] {E : Environment} {admits : ClusterView → ClusterEntry → Prop}
  {v v' : ClusterView} {e : ClusterEntry}

/-- Only commands write. -/
theorem tables_moves (hm : Moves (cluster E admits) v e v') (he : ∀ j c r, e ≠ .did j c r) :
    v'.state.db.chatMessage = v.state.db.chatMessage ∧ v'.state.db.friend = v.state.db.friend ∧
      v'.state.db.groupuser = v.state.db.groupuser := by
  cases e with
  | started j =>
      rw [Job.db_starts hm.effect]
      exact ⟨rfl, rfl, rfl⟩
  | did j c r => exact absurd rfl (he j c r)
  | aborted j =>
      rw [show v'.state = v.state.release j.agent from hm.effect, db_release]
      exact ⟨rfl, rfl, rfl⟩
  | disturbed =>
      obtain ⟨-, hd⟩ := hm.effect
      generalize v.state = w, v'.state = w' at hd
      cases hd <;> exact ⟨rfl, rfl, rfl⟩

/-- What is written in the name of a user is written by a command that acts as the user. -/
theorem actsAs_of_writesFor (hm : Moves (cluster E admits) v e v') {u : ℤ}
    (h : WritesFor u v.state v'.state) : ∃ j c r, e = .did j c r ∧ j.ActsAs u c := by
  by_cases he : ∃ j c r, e = .did j c r
  · obtain ⟨j, c, r, rfl⟩ := he
    refine ⟨j, c, r, rfl, ?_⟩
    obtain ⟨-, o, -, ho⟩ := hm.effect
    cases h with
    | message row hrow hu hnew =>
        obtain ⟨rfl, -⟩ := inserted_exec ho hrow hnew
        exact hu
    | acked row hrow hu hst hold =>
        obtain rfl := acked_exec ho hrow hst hold
        exact hu
    | friend row hrow hu hnew =>
        cases c with
        | sql q =>
            rw [(exec_sql ho).2] at hrow
            obtain rfl := friend_sql hrow hnew
            exact hu
        | _ =>
            rw [db_exec (fun _ h => by cases h) ho] at hrow
            exact absurd hrow hnew
    | groupUser row hrow hu hnew =>
        cases c with
        | sql q =>
            rw [(exec_sql ho).2] at hrow
            obtain rfl := groupuser_sql hrow hnew
            exact hu
        | _ =>
            rw [db_exec (fun _ h => by cases h) ho] at hrow
            exact absurd hrow hnew
  · obtain ⟨hmessage, hfriend, hgroup⟩ := tables_moves hm fun j c r h => he ⟨j, c, r, h⟩
    cases h with
    | message row hrow hu hnew =>
        rw [hmessage] at hrow
        exact absurd rfl (hnew row hrow)
    | acked row hrow hu hst hold =>
        rw [hmessage] at hrow
        exact absurd hst (hold row hrow rfl)
    | friend row hrow hu hnew =>
        rw [hfriend] at hrow
        exact absurd hrow hnew
    | groupUser row hrow hu hnew =>
        rw [hgroup] at hrow
        exact absurd hrow hnew

end Effects
/-! ## Authority -/

section Authority
variable [JsonParser] {E : Environment} {admits : ClusterView → ClusterEntry → Prop}
  {w : World} {es : List ClusterEntry} {x y : ClusterConfig} {e : ClusterEntry} {u : ℤ}

theorem password_steps (h : Steps (cluster E admits) x es y) {r : UserRow}
    (hr : x.view.state.db.selectUser u = some r) :
    ∃ r', y.view.state.db.selectUser u = some r' ∧ r'.password = r.password := by
  obtain ⟨r', hr', -, hpassword⟩ := account_steps h hr
  exact ⟨r', hr', hpassword⟩

/-- The job has found, at its check, that the user is logged in, and this was so already
when the job was started. -/
structure FoundLoggedIn (u : ℤ) (pwd : String) (conn : Conn) (j : Job)
    (past : List ClusterEntry) : Prop where
  check : ∃ since older, past = since ++ .did j (.node (.mapIsBound u conn)) true :: older ∧
    .started j ∉ since ∧ LoggedIn u pwd conn older
  arrival : ∃ mid arrival, past = mid ++ .started j :: arrival ∧ .started j ∉ mid ∧
    LoggedIn u pwd conn arrival

/-- After its check a frame that acts for a user has found the user logged in. -/
theorem foundLoggedIn (h : Steps (cluster E admits) (Config.initial w) es x)
    (hw : ∀ n u, w.bound n u = none) {j : Job} {c : Command} {r : Response c}
    (hs : Step (cluster E admits) x (.did j c r) y) {conn : Conn} (hj : j.ActsFor u conn)
    (hc : c ≠ .node (.mapIsBound u conn)) (hu : 0 < u) {row : UserRow}
    (hrow : x.view.state.db.selectUser u = some row) :
    FoundLoggedIn u (cStr row.password) conn j x.view.past := by
  have hlicensed : Licensed j (actingMemory j.agent x.view.past) c :=
    licensed_of_step h hs
  have hchecked := ((hlicensed.checked u conn hj).2).resolve_left hc
  obtain ⟨since, c', r', older, hpast, hstart, hnot, hnext⟩ :=
    h.current_gained (D := fun m : ActingMemory => m.checked = some (u, conn))
      (h.job_of_step hs rfl (by simp)) (by simp) hchecked
  rw [checked_of_next (j := j) hnot hnext] at hpast
  obtain ⟨_, _, z, z', hz, rfl, hcheck, hafter, -⟩ := h.at_entry hpast
  obtain ⟨row', mid, arrival, hrow', hmid, hstart', harrival, hfound⟩ :=
    loggedIn_of_check hz hw hcheck hj hu
  -- the password is still the one of the check
  have hpwd : row'.password = row.password := by
    obtain ⟨row₂, hrow₂, hsame⟩ := password_steps ((Steps.step .done hcheck).append hafter) hrow'
    obtain rfl := Option.some.inj (hrow.symm.trans hrow₂)
    exact hsame.symm
  rw [hpwd] at harrival hfound
  refine ⟨⟨since, _, hpast, hstart, hfound⟩, ?_⟩
  refine ⟨since ++ .did j (.node (.mapIsBound u conn)) true :: mid, arrival, ?_, ?_, harrival⟩
  · rw [hpast, hmid]
    simp
  · simp [hstart, hstart']

/-- In every run, whatever frames arrive and however the handlers interleave, and for
every user whose password has no NUL: what is written in the user's name, and every
logout of the user, is caused by a frame of a connection on which the user is logged in.
A frame that acts for the user on another connection changes nothing. -/
theorem authority {db : Database}
    (hrun : Steps hostileCluster (Config.initial (World.fresh db)) es x)
    (hs : Step hostileCluster x e y) (hu : 0 < u) {row : UserRow}
    (hrow : x.view.state.db.selectUser u = some row)
    (hpwd : ∀ c ∈ row.password.toList, c ≠ '\x00') :
    (WritesFor u x.view.state y.view.state ∨ LogsOut u e →
      CausedBy u row.password x.view.past e) ∧
    ∀ j conn since arrival, e.job? = some j → j.ActsFor u conn →
      e :: x.view.past = since ++ .started j :: arrival → .started j ∉ since →
        ¬ LoggedIn u row.password conn arrival → Untouched x.view.state y.view.state := by
  have hw : ∀ n v, (World.fresh db).bound n v = none := fun _ _ => rfl
  have hfound : ∀ {j : Job} {c : Command} {r : Response c} {conn : Conn}, e = .did j c r →
      j.ActsFor u conn → c ≠ .node (.mapIsBound u conn) →
        FoundLoggedIn u row.password conn j x.view.past := by
    rintro j c r conn rfl hj hc
    have := foundLoggedIn hrun hw hs hj hc hu hrow
    rwa [cStr_eq_self hpwd] at this
  constructor
  · intro heffect
    have hacts : ∃ j c r, e = .did j c r ∧ j.ActsAs u c := by
      obtain hwrites | ⟨conn, js, time, ok, rfl⟩ := heffect
      · exact actsAs_of_writesFor hs.moves hwrites
      · exact ⟨_, _, _, rfl, rfl, conn, js, time, rfl⟩
    obtain ⟨j, c, r, rfl, hacts⟩ := hacts
    have hlicensed : Licensed j (actingMemory j.agent x.view.past) c :=
      licensed_of_step hrun hs
    obtain ⟨conn, hj⟩ := hlicensed.acting u hacts
    have hc : c ≠ .node (.mapIsBound u conn) := by
      intro heq
      subst heq
      exact hacts.elim
    obtain ⟨since, older, hpast, hstart, hlogged⟩ := (hfound rfl hj hc).check
    exact ⟨j, conn, since, older, rfl, hj, hpast, hstart, hlogged⟩
  · intro j conn since arrival hej hj hpast hstart hnot
    cases e with
    | started i =>
        cases hej
        cases j with
        | frame conn' js time =>
            have hstarts : (Job.frame conn' js time).Starts x.view.state y.view.state :=
              hs.moves.effect
            rw [hstarts.2.2]
            exact .refl _
        | _ => exact hj.elim
    | aborted i =>
        rw [show y.view.state = x.view.state.release i.agent from hs.moves.effect]
        exact untouched_release _ _
    | did i c r =>
        cases hej
        by_cases hc : c = .node (.mapIsBound u conn)
        · subst hc
          obtain ⟨-, o, -, ho⟩ := hs.moves.effect
          obtain ⟨s', hexec, hstate⟩ := exec_node ho
          rw [hstate, (NodeOp.exec_mapIsBound hexec).1, World.setNode_node]
          exact .refl _
        · obtain ⟨mid, arrival', hsplit, hmid, hlogged⟩ := (hfound rfl hj hc).arrival
          rw [hsplit, ← List.cons_append] at hpast
          obtain ⟨-, rfl⟩ := eq_of_split hpast (by simp [hmid]) hstart
          exact absurd hlogged hnot
    | disturbed => cases hej

end Authority
/-! ## Runs with a logout -/

/-- User `1` logs in with the password and out again. -/
def logoutCues (pwd : String) : List (Cue Job Agent Choice) :=
  .start (.frame ⟨0, 0⟩ (Client.loginRequest 1 pwd) "") ::
    List.replicate 10 (.act (.io ⟨0, 0⟩) {}) ++
  .start (.frame ⟨0, 0⟩ (Client.loginoutRequest 1) "") ::
    List.replicate 5 (.act (.io ⟨0, 0⟩) {})

def anyLogout (u : ℤ) (past : List ClusterEntry) : Bool :=
  past.any fun
    | .did (.frame _ _ _) (.sql (.updateUserState id .offline)) _ => id == u
    | _ => false

/-- Some connection has been bound by a frame that holds this password. -/
def anyPresented (pwd : String) (past : List ClusterEntry) : Bool :=
  past.any fun
    | .did (.frame _ js _) (.node (.mapBind _ _)) _ => getString js "password" == some pwd
    | _ => false

theorem presented_of_loggedIn {u : ℤ} {pwd : String} {conn : Conn} {past : List ClusterEntry}
    (h : LoggedIn u pwd conn past) : anyPresented pwd past = true := by
  obtain ⟨js, time, later, earlier, rfl, hlogin, -⟩ := h
  refine List.any_eq_true.mpr ⟨_, List.mem_append_right _ List.mem_cons_self, ?_⟩
  exact beq_iff_eq.mpr hlogin.password

theorem exists_logout [JsonParser] (db : Database) (cues : List (Cue Job Agent Choice)) {u : ℤ}
    {p : List ClusterEntry → Bool}
    (h : ((hostileReplayer.replay? (Config.initial (World.fresh db)) cues).any fun x =>
      anyLogout u x.view.past && p x.view.past) = true) :
    ∃ es x e y newer, Steps hostileCluster (Config.initial (World.fresh db)) es x ∧
      Step hostileCluster x e y ∧ LogsOut u e ∧ p (newer ++ e :: x.view.past) = true := by
  obtain ⟨es, z, hrun, hz⟩ := hostileReplayer.exists_steps cues h
  obtain ⟨hlogout, hp⟩ := Bool.and_eq_true_iff.mp hz
  obtain ⟨e, hmem, he⟩ := List.any_eq_true.mp hlogout
  obtain ⟨newer, older, hpast⟩ := List.append_of_mem hmem
  obtain ⟨fs, _, x, y, hx, rfl, hs, -, -⟩ := hrun.at_entry hpast
  refine ⟨fs, x, e, y, newer, hx, hs, ?_, hpast ▸ hp⟩
  split at he
  · next conn js time id ok =>
    obtain rfl := beq_iff_eq.mp he
    exact ⟨conn, js, time, ok, rfl⟩
  · cases he

theorem authority_logout : letI := Cluster.rejectAll
    ∃ es x e y, Steps hostileCluster
        (Config.initial (World.fresh (Statement.registered [("ann", "pw")]))) es x ∧
      Step hostileCluster x e y ∧ LogsOut 1 e ∧ CausedBy 1 "pw" x.view.past e := by
  let _ := Cluster.rejectAll
  obtain ⟨es, x, e, y, -, hrun, hs, hlogout, -⟩ :=
    exists_logout (u := 1) (Statement.registered [("ann", "pw")]) (logoutCues "pw")
      (p := fun _ => true) (by decide +kernel)
  obtain ⟨row, hrow, hpwd⟩ := password_steps (u := 1) hrun (r := ⟨1, "ann", "pw", .offline⟩) rfl
  have hcaused := (authority hrun hs (by decide) hrow (by simp [hpwd])).1 (.inr hlogout)
  rw [hpwd] at hcaused
  exact ⟨es, x, e, y, hrun, hs, hlogout, hcaused⟩

/-- The stored password ends at a NUL for the login, so its part before the NUL is enough
to act as the user. -/
theorem authority_without_password : letI := Cluster.rejectAll
    ∃ es x e y row, Steps hostileCluster
        (Config.initial (World.fresh (Statement.registered [("ann", "a\x00b")]))) es x ∧
      Step hostileCluster x e y ∧ x.view.state.db.selectUser 1 = some row ∧ LogsOut 1 e ∧
      ¬ CausedBy 1 row.password x.view.past e := by
  let _ := Cluster.rejectAll
  obtain ⟨es, x, e, y, newer, hrun, hs, hlogout, hnone⟩ :=
    exists_logout (u := 1) (Statement.registered [("ann", "a\x00b")]) (logoutCues "a")
      (p := fun past => !anyPresented "a\x00b" past) (by decide +kernel)
  obtain ⟨row, hrow, hpwd⟩ :=
    password_steps (u := 1) hrun (r := ⟨1, "ann", "a\x00b", .offline⟩) rfl
  refine ⟨es, x, e, y, row, hrun, hs, hrow, hlogout, ?_⟩
  rw [hpwd]
  intro h
  rcases h with ⟨j, conn, since, older, -, -, hpast, -, hlogged⟩
  -- the binding would still be in the history, with the whole password
  obtain ⟨f, hf, hpresents⟩ := List.any_eq_true.mp (presented_of_loggedIn hlogged)
  have hlater : anyPresented "a\x00b" (newer ++ e :: x.view.past) = true := by
    refine List.any_eq_true.mpr ⟨f, ?_, hpresents⟩
    simp [hpast, hf]
  rw [hlater] at hnone
  cases hnone

end ChatCluster
