import ChatCluster.Answers

/-!
# What stays in the database

No statement removes a user, a friend, a group, a member or a stored message, and none
renames a user or changes a password. Only the rows of the legacy table go. A login of their
owner removes them, after it has read them, and then has to answer with them.
-/
namespace ChatCluster
open CommandProgram Interleaving KeyedTable

/-! ## Rows stay -/

/-- The columns of a user that no statement updates. -/
structure UserRow.Persists (r r' : UserRow) : Prop where
  id : r'.id = r.id
  name : r'.name = r.name
  password : r'.password = r.password

theorem UserRow.Persists.refl (r : UserRow) : r.Persists r := ⟨rfl, rfl, rfl⟩

theorem UserRow.Persists.trans {r₁ r₂ r₃ : UserRow} (h : r₁.Persists r₂) (h' : r₂.Persists r₃) :
    r₁.Persists r₃ where
  id := h'.id.trans h.id
  name := h'.name.trans h.name
  password := h'.password.trans h.password

/-- What `db'` has kept of `db`. -/
structure Database.Keeps (db db' : Database) : Prop where
  user : db.user.Extends UserRow.Persists db'.user
  friend : db.friend.Extends Eq db'.friend
  allgroup : db.allgroup.Extends Eq db'.allgroup
  groupuser : db.groupuser.Extends Eq db'.groupuser
  chatMessage : db.chatMessage.Extends MessageRow.Persists db'.chatMessage
  offlinemessage : db'.offlinemessage.Sublist db.offlinemessage

namespace Database

theorem Keeps.refl (db : Database) : db.Keeps db where
  user := .refl .refl _
  friend := .refl .refl _
  allgroup := .refl .refl _
  groupuser := .refl .refl _
  chatMessage := .refl .refl _
  offlinemessage := .refl _

theorem Keeps.trans {db₁ db₂ db₃ : Database} (h : db₁.Keeps db₂) (h' : db₂.Keeps db₃) :
    db₁.Keeps db₃ where
  user := h.user.trans .trans h'.user
  friend := h.friend.trans .trans h'.friend
  allgroup := h.allgroup.trans .trans h'.allgroup
  groupuser := h.groupuser.trans .trans h'.groupuser
  chatMessage := h.chatMessage.trans .trans h'.chatMessage
  offlinemessage := h'.offlinemessage.trans h.offlinemessage

theorem keeps_run (q : Statement) (db : Database) : db.Keeps (q.run db).2 := by
  have hrefl := Keeps.refl db
  cases q with
  | insertUser name password state =>
      simp only [Statement.run]
      cases hi : db.insertUser name password state with
      | none => exact hrefl
      | some p =>
          obtain ⟨t, ht, rfl⟩ := Option.map_eq_some_iff.mp hi
          exact { hrefl with user := .insert .refl ht }
  | insertMessage messageid senderid receiverid groupid msgtype payload =>
      simp only [Statement.run]
      cases hi : db.insertMessage
          (Statement.newMessage messageid senderid receiverid groupid msgtype payload) with
      | none => exact hrefl
      | some db' =>
          obtain ⟨t, ht, rfl⟩ := Option.map_eq_some_iff.mp hi
          exact { hrefl with chatMessage := .insert .refl ht }
  | insertGroup groupname groupdesc =>
      simp only [Statement.run]
      cases hi : db.insertGroup groupname groupdesc with
      | none => exact hrefl
      | some p =>
          obtain ⟨t, ht, rfl⟩ := Option.map_eq_some_iff.mp hi
          exact { hrefl with allgroup := .insert .refl ht }
  | insertFriend userid friendid => exact { hrefl with friend := .insertIgnore .refl }
  | insertGroupUser groupid userid role => exact { hrefl with groupuser := .insertIgnore .refl }
  | updateUserState id state =>
      have huser : ∀ r : UserRow, r.Persists { r with state := state } := fun _ => ⟨rfl, rfl, rfl⟩
      exact { hrefl with user := .update .refl huser fun _ => rfl }
  | resetUserStates =>
      have huser : ∀ r : UserRow, r.Persists { r with state := .offline } :=
        fun _ => ⟨rfl, rfl, rfl⟩
      exact { hrefl with user := .update .refl huser fun _ => rfl }
  | markDelivered messageid receiverid =>
      have hmark := MessageRow.persists_markDelivered db.now
      exact { hrefl with chatMessage := .update .refl hmark fun _ => rfl }
  | ackMessage messageid receiverid =>
      have hack := MessageRow.persists_ack db.now
      exact { hrefl with chatMessage := .update .refl hack fun _ => rfl }
  | deleteOffline userid => exact { hrefl with offlinemessage := List.filter_sublist }
  | _ => exact hrefl

theorem keeps_exec (ok : Bool) (q : Statement) (db : Database) : db.Keeps (q.exec ok db).2 := by
  cases ok with
  | false => exact .refl db
  | true => exact keeps_run q db

end Database

theorem db_disturbance {w w' : World} (h : Disturbance w w') :
    ∃ now, w'.db = { w.db with now := now } := by
  cases h <;> exact ⟨_, rfl⟩

section Runs
variable [JsonParser] {E : Environment} {admits : ClusterView → ClusterEntry → Prop}
  {v v' : ClusterView} {e : ClusterEntry} {es : List ClusterEntry} {x y : ClusterConfig}

/-- Apart from its clock, the database changes with a statement. -/
theorem db_moves (hm : Moves (cluster E admits) v e v') :
    (∃ now, v'.state.db = { v.state.db with now := now }) ∨
      ∃ j q r ok, e = .did j (.sql q) r ∧ v'.state.db = (q.exec ok v.state.db).2 := by
  cases e with
  | started j => exact .inl ⟨_, Job.db_starts hm.effect⟩
  | did j c r =>
      obtain ⟨-, o, -, ho⟩ := hm.effect
      by_cases hc : ∃ q, c = .sql q
      · obtain ⟨q, rfl⟩ := hc
        exact .inr ⟨j, q, r, o.ok, rfl, by rw [(exec_sql ho).2]⟩
      · exact .inl ⟨_, db_exec (fun q hq => hc ⟨q, hq⟩) ho⟩
  | aborted j =>
      refine .inl ⟨v.state.db.now, ?_⟩
      rw [show v'.state = v.state.release j.agent from hm.effect, db_release]
  | disturbed => exact .inl (db_disturbance hm.effect.2)

theorem keeps_moves (hm : Moves (cluster E admits) v e v') : v.state.db.Keeps v'.state.db := by
  obtain ⟨now, hdb⟩ | ⟨j, q, r, ok, -, hdb⟩ := db_moves hm
  · rw [hdb]
    exact { Database.Keeps.refl v.state.db with }
  · rw [hdb]
    exact Database.keeps_exec ok q v.state.db

/-- Whatever handlers run and whatever fails, the database keeps its rows. -/
theorem database_keeps (h : Steps (cluster E admits) x es y) :
    x.view.state.db.Keeps y.view.state.db := by
  induction h with
  | done => exact .refl _
  | step _ hs ih => exact ih.trans (keeps_moves hs.moves)

end Runs

/-- User `1` logs in and writes to user `2`. -/
theorem database_keeps_chat : letI := Cluster.rejectAll
    ∃ es x, Steps hostileCluster
        (Config.initial (World.fresh (Statement.registered [("ann", "pw"), ("bob", "pw")]))) es x ∧
      x.view.state.db.chatMessage.rows.length = 1 ∧
      (Statement.registered [("ann", "pw"), ("bob", "pw")]).Keeps x.view.state.db := by
  let _ := Cluster.rejectAll
  obtain ⟨w', hrun, hw'⟩ := Cluster.exists_run (E := .hostile)
    (w := World.fresh (Statement.registered [("ann", "pw"), ("bob", "pw")]))
    [({}, .frame ⟨0, 0⟩ (Client.loginRequest 1 "pw") ""),
      ({}, .frame ⟨0, 0⟩ (Client.chatRequest 1 "ann" 2 "hi" "now") "")]
    (p := fun w => w.db.chatMessage.rows.length = 1) (by decide)
  obtain ⟨es, x, hsteps, rfl, -⟩ := hrun.interleaved
  exact ⟨es, x, hsteps, of_decide_eq_true hw', database_keeps hsteps⟩

/-! ## What a login takes from the legacy table -/

/-- The user that a login has bound, what it has read of the legacy table, and whether it
has removed it and not answered yet. -/
structure LegacyMemory where
  bound : Option (ℤ × Conn) := none
  legacy : Option (ℤ × List String) := none
  taken : Bool := false

def LegacyMemory.next (m : LegacyMemory) : (c : Command) → Response c → LegacyMemory
  | .node (.mapBind userid conn), _ => { m with bound := some (userid, conn) }
  | .sql (.selectOffline userid), texts => { m with legacy := some (userid, texts) }
  | .sql (.deleteOffline _), _ => { m with taken := true }
  | .sendTo _ s, _ => if (confirmedUser? s).isSome then {} else m
  | _, _ => m

/-- The frame is an answer that lists `text`. -/
def Sent.Lists (s : Sent) (text : String) : Prop :=
  ∃ response texts, s = .json response ∧
    response.find? "offlinemsg" = some (Json.strings texts) ∧ text ∈ texts

/-- A login has read for the user it has bound. -/
structure LegacyMemory.Read (m : LegacyMemory) (u : ℤ) (conn : Conn) (legacy : List String) :
    Prop where
  bound : m.bound = some (u, conn)
  legacy : m.legacy = some (u, legacy)

/-- A job binds and reads before it removes anything, it removes what it has read, and it
answers with what it has read. -/
structure Takes (m : LegacyMemory) (c : Command) : Prop where
  bind : ∀ u conn, c = .node (.mapBind u conn) → m.taken = false
  read : ∀ u, c = .sql (.selectOffline u) → m.taken = false
  remove : ∀ u, c = .sql (.deleteOffline u) →
    ∃ conn legacy, m.Read u conn legacy ∧ legacy ≠ []
  answer : ∀ conn s u, c = .sendTo conn s → confirmedUser? s = some u →
    ∃ legacy, m.Read u conn legacy ∧ ∀ t ∈ legacy, s.Lists (cStr t)

/-- A command that has nothing to do with the legacy table. -/
structure Command.OffLegacy (c : Command) : Prop where
  bind : ∀ u conn, c ≠ .node (.mapBind u conn)
  read : ∀ u, c ≠ .sql (.selectOffline u)
  remove : ∀ u, c ≠ .sql (.deleteOffline u)
  answer : c.ConfirmsNothing

section Tracked
variable {m : LegacyMemory} {conn : Conn} {js : Json} {time : String} {c : Command}

theorem Command.OffLegacy.takes (h : c.OffLegacy) : Takes m c where
  bind u conn hc := absurd hc (h.bind u conn)
  read u hc := absurd hc (h.read u)
  remove u hc := absurd hc (h.remove u)
  answer conn s u hc hs := by
    rw [h.answer conn s hc] at hs
    cases hs

theorem Command.OffLegacy.next (h : c.OffLegacy) (r : Response c) : m.next c r = m := by
  cases c with
  | sql q =>
      cases q with
      | selectOffline u => exact absurd rfl (h.read u)
      | deleteOffline u => exact absurd rfl (h.remove u)
      | _ => rfl
  | node q =>
      cases q with
      | mapBind u conn => exact absurd rfl (h.bind u conn)
      | _ => rfl
  | redisPublish => rfl
  | sendTo conn s => simp [LegacyMemory.next, h.answer conn s rfl]

theorem takes_offLegacy {α : Type} {p : Program α} (hp : p.All Command.OffLegacy) :
    p.Tracked LegacyMemory.next Takes (fun m' _ => m' = m) m := by
  refine .of_all (I := fun m' => m' = m) (fun _ _ hc _ => hc.takes) (fun m' c r hc hm => ?_) hp rfl
  rw [hc.next, hm]

theorem offLegacy_sql {q : Statement} (hread : ∀ u, q ≠ .selectOffline u)
    (hremove : ∀ u, q ≠ .deleteOffline u) : (Command.sql q).OffLegacy :=
  ⟨by simp, by simpa using hread, by simpa using hremove, confirmsNothing_sql q⟩

theorem offLegacy_node {q : NodeOp} (hbind : ∀ u conn, q ≠ .mapBind u conn) :
    (Command.node q).OffLegacy :=
  ⟨by simpa using hbind, by simp, by simp, confirmsNothing_node q⟩

theorem offLegacy_sendTo {s : Sent} (h : confirmedUser? s = none) :
    (Command.sendTo conn s).OffLegacy :=
  ⟨by simp, by simp, by simp, confirmsNothing_sendTo h⟩

/-! ### The other handlers -/

theorem Command.OfTeardown.offLegacy {P : ℤ → Prop} (h : c.OfTeardown P) : c.OffLegacy := by
  cases h with
  | offline => exact offLegacy_sql (by simp) (by simp)
  | _ => exact offLegacy_node (by simp)

theorem Command.OfDelivery.offLegacy {Q : ℤ → ℤ → String → Prop}
    (h : c.OfDelivery Q fun s => confirmedUser? s = none) : c.OffLegacy := by
  cases h with
  | send conn s hs => exact offLegacy_sendTo hs
  | publish => exact ⟨by simp, by simp, by simp, fun _ _ hc => by cases hc⟩
  | members | insert | mark | query | ack => exact offLegacy_sql (by simp) (by simp)
  | _ => exact offLegacy_node (by simp)

theorem offLegacy_reg : (reg conn js).All Command.OffLegacy :=
  all_reg (fun _ _ _ => offLegacy_sql (by simp) (by simp)) fun _ h =>
    offLegacy_sendTo (confirmedUser?_of_msgType h (by decide))

theorem offLegacy_heartbeat : (heartbeat conn js time).All Command.OffLegacy :=
  all_heartbeat fun _ h => offLegacy_sendTo (confirmedUser?_of_msgType h (by decide))

theorem offLegacy_frame (hlogin : msgType? js ≠ some .loginMsg) :
    (onMessage conn js time).All Command.OffLegacy := by
  have hcheck : ∀ userid, (Command.node (.mapIsBound userid conn)).OffLegacy :=
    fun _ => offLegacy_node (by simp)
  rw [onMessage_eq]
  split
  · next hmsg => exact absurd hmsg hlogin
  · exact (ofTeardown_loginout fun _ _ => trivial).mono fun _ =>
      Command.OfTeardown.offLegacy (P := fun _ => True)
  · exact offLegacy_reg
  · next hmsg =>
    refine (ofDelivery_oneChat (Q := fun _ _ _ => True) (fun _ _ _ _ _ _ _ _ => trivial) ?_).mono
      fun _ => Command.OfDelivery.offLegacy
    exact (confirmedUser?_stamped hmsg (by decide)).1
  · exact all_addFriend hcheck fun _ _ => offLegacy_sql (by simp) (by simp)
  · exact all_createGroup hcheck (fun _ _ => offLegacy_sql (by simp) (by simp)) fun _ _ =>
      offLegacy_sql (by simp) (by simp)
  · exact all_addGroup hcheck fun _ _ => offLegacy_sql (by simp) (by simp)
  · next hmsg =>
    refine (ofDelivery_groupChat (Q := fun _ _ _ => True) (fun _ _ _ _ _ _ _ => trivial) ?_).mono
      fun _ => Command.OfDelivery.offLegacy
    exact (confirmedUser?_stamped hmsg (by decide)).2
  · exact (ofDelivery_messageAck (Q := fun _ _ _ => True)).mono fun _ =>
      Command.OfDelivery.offLegacy
  · exact offLegacy_heartbeat
  all_goals trivial

theorem offLegacy_body [JsonParser] (j : Job)
    (hj : ∀ conn js time, j = .frame conn js time → msgType? js ≠ some .loginMsg) :
    j.body.All Command.OffLegacy := by
  cases j with
  | frame conn js time => exact offLegacy_frame (hj conn js time rfl)
  | close conn =>
      exact all_clientCloseException (offLegacy_node (by simp)) fun _ =>
        Command.OfTeardown.offLegacy
  | redisMessage n channel message =>
      have hraw : confirmedUser? (.raw message) = none := rfl
      exact (ofDelivery_handleRedisSubscribeMessage (Q := fun _ _ _ => True) channel hraw).mono
        fun _ => Command.OfDelivery.offLegacy
  | sigint =>
      exact ⟨offLegacy_sql (by simp) (by simp), fun _ => ⟨offLegacy_node (by simp), fun _ =>
        trivial⟩⟩

/-! ### Login -/

theorem takes_openSession {id : ℤ} (user : User) (hm : m.taken = false) :
    (openSession conn id user).Tracked LegacyMemory.next Takes
      (fun m' _ => m'.bound = some (id, conn) ∧ m'.taken = false) m := by
  refine ⟨⟨fun _ _ _ => hm, by simp, by simp, by simp⟩, fun _ => ?_⟩
  have hrest : (do trySubscribe id
                   let _ ← UserModel.updateState { user with state := .online } :
      Program Unit).All Command.OffLegacy :=
    all_announce (offLegacy_node (by simp)) (offLegacy_node (by simp))
      (offLegacy_sql (by simp) (by simp))
  refine (takes_offLegacy hrest).mono fun m' _ hsame => ?_
  rw [hsame]
  exact ⟨rfl, hm⟩

theorem takes_takeLegacy {id : ℤ} (hbound : m.bound = some (id, conn)) (hm : m.taken = false) :
    (takeLegacy id).Tracked LegacyMemory.next Takes
      (fun m' texts => ∃ legacy, m'.Read id conn legacy ∧ texts = legacy.map cStr) m := by
  refine ⟨⟨by simp, fun _ _ => hm, by simp, by simp⟩, fun (legacy : List String) => ?_⟩
  change (if (legacy.map cStr).isEmpty then _ else _ : Program (List String)).Tracked _ _ _ _
  split_ifs with hempty
  · exact ⟨legacy, ⟨hbound, rfl⟩, rfl⟩
  · refine ⟨⟨by simp, by simp, fun u hc => ?_, by simp⟩, fun _ => ⟨legacy, ⟨hbound, rfl⟩, rfl⟩⟩
    cases hc
    refine ⟨conn, legacy, ⟨hbound, rfl⟩, ?_⟩
    rintro rfl
    exact hempty rfl

theorem lists_loginResponse {user : User} {texts : List String} {userVec : List User}
    {groupuserVec : List Group} {text : String} (h : text ∈ texts) :
    (Sent.json (loginResponse user texts userVec groupuserVec)).Lists text := by
  refine ⟨_, texts, rfl, ?_, h⟩
  rw [offlinemsg_loginResponse, if_neg (List.ne_nil_of_mem h)]

theorem takes_syncSession {id : ℤ} (user : User) (hbound : m.bound = some (id, conn))
    (hm : m.taken = false) :
    (syncSession id user).Tracked LegacyMemory.next Takes (fun m' response => ∃ legacy,
      m'.Read id conn legacy ∧ ∀ t ∈ legacy, (Sent.json response).Lists (cStr t)) m := by
  have hmark : ∀ messageid, (Command.sql (.markDelivered messageid id)).OffLegacy :=
    fun _ => offLegacy_sql (by simp) (by simp)
  have hgroups : (GroupModel.queryGroups id).All Command.OffLegacy :=
    ⟨offLegacy_sql (by simp) (by simp), fun _ =>
      all_queryMembers (fun _ => offLegacy_sql (by simp) (by simp)) _⟩
  refine ⟨(offLegacy_sql (by simp) (by simp)).takes, fun (rows : List MessageRow) => ?_⟩
  refine (takes_offLegacy (all_collectStored fun _ _ => hmark _)).bind fun m₁ texts h₁ => ?_
  obtain rfl := h₁
  refine (takes_takeLegacy hbound hm).bind fun m₂ legacyTexts h₂ => ?_
  obtain ⟨legacy, hread, rfl⟩ := h₂
  refine ⟨(offLegacy_sql (by simp) (by simp)).takes, fun friends => ?_⟩
  refine (takes_offLegacy hgroups).bind fun m₃ groups h₃ => ?_
  obtain rfl := h₃
  refine ⟨legacy, hread, fun t ht => lists_loginResponse ?_⟩
  exact List.mem_append_right _ (List.mem_map_of_mem ht)

theorem takes_login : (login conn js).Tracked LegacyMemory.next Takes
    (fun m' _ => m'.taken = false) {} := by
  refine tracked_login (Q := fun m : LegacyMemory => m.taken = false)
    (S := fun id (m : LegacyMemory) => m.bound = some (id, conn) ∧ m.taken = false)
    (T := fun id (m : LegacyMemory) response => ∃ legacy, m.Read id conn legacy ∧
      ∀ t ∈ legacy, (Sent.json response).Lists (cStr t)) ?_ ?_ ?_ ?_ ?_
  · exact fun id row => ⟨(offLegacy_sql (by simp) (by simp)).takes, rfl⟩
  · intro response h
    have hsend : (sendJson conn response).All Command.OffLegacy :=
      ⟨offLegacy_sendTo h, fun _ => trivial⟩
    refine (takes_offLegacy hsend).mono fun m' _ hsame => ?_
    rw [hsame]
  · exact fun id user => takes_openSession user rfl
  · exact fun id user m hm => takes_syncSession user hm.1 hm.2
  · intro id m response h hconfirmed
    obtain ⟨legacy, hread, hlists⟩ := h
    refine ⟨⟨by simp, by simp, by simp, fun conn' s u hc hs => ?_⟩, fun _ => ?_⟩
    · cases hc
      obtain rfl := Option.some.inj (hconfirmed.symm.trans hs)
      exact ⟨legacy, hread, hlists⟩
    · change (m.next (.sendTo conn (.json response)) ()).taken = false
      simp [LegacyMemory.next, hconfirmed]

theorem takes_body [JsonParser] (j : Job) :
    j.body.Tracked LegacyMemory.next Takes (fun m' _ => m'.taken = false) {} := by
  by_cases hlogin : ∃ conn js time, j = .frame conn js time ∧ msgType? js = some .loginMsg
  · obtain ⟨conn, js, time, rfl, hmsg⟩ := hlogin
    rw [body_of_login hmsg]
    exact takes_login
  · have hoff : j.body.All Command.OffLegacy := by
      apply offLegacy_body
      intro conn js time hj hmsg
      exact hlogin ⟨conn, js, time, hj, hmsg⟩
    refine (takes_offLegacy hoff).mono fun m' _ h => ?_
    rw [h]

end Tracked

/-! ## Where the legacy messages are -/

def legacyMemory (a : Agent) (past : List ClusterEntry) : LegacyMemory :=
  memory Job.agent {} LegacyMemory.next a past

section Gained
variable {m : LegacyMemory} {j : Job} {c : Command} {r : Response c} {u : ℤ}

theorem mapBind_of_next {conn : Conn} (hnot : m.bound ≠ some (u, conn))
    (h : (m.next c r).bound = some (u, conn)) :
    (Entry.did j c r : ClusterEntry) = .did j (.node (.mapBind u conn)) () := by
  cases c with
  | sql q => cases q <;> exact absurd h hnot
  | node q =>
      cases q with
      | mapBind userid conn' =>
          obtain ⟨rfl, rfl⟩ := Prod.mk.inj (Option.some.inj h)
          rfl
      | _ => exact absurd h hnot
  | redisPublish => exact absurd h hnot
  | sendTo conn' s =>
      simp only [LegacyMemory.next] at h
      split_ifs at h
      exact absurd h hnot

theorem selectOffline_of_next {texts : List String} (hnot : m.legacy ≠ some (u, texts))
    (h : (m.next c r).legacy = some (u, texts)) :
    (Entry.did j c r : ClusterEntry) = .did j (.sql (.selectOffline u)) texts := by
  cases c with
  | sql q =>
      cases q with
      | selectOffline userid =>
          obtain ⟨rfl, rfl⟩ := Prod.mk.inj (Option.some.inj h)
          rfl
      | _ => exact absurd h hnot
  | node q => cases q <;> exact absurd h hnot
  | redisPublish => exact absurd h hnot
  | sendTo conn' s =>
      simp only [LegacyMemory.next] at h
      split_ifs at h
      exact absurd h hnot

end Gained

theorem removed_of_exec {ok : Bool} {q : Statement} {db : Database} {m : ℤ × String}
    (hm : m ∈ db.offlinemessage) (hgone : m ∉ (q.exec ok db).2.offlinemessage) :
    q = .deleteOffline m.1 := by
  cases ok with
  | false => exact absurd hm hgone
  | true =>
      cases q with
      | deleteOffline userid =>
          by_contra hne
          apply hgone
          refine List.mem_filter.mpr ⟨hm, ?_⟩
          simpa using fun heq : m.1 = userid => hne (by rw [heq])
      | insertUser name password state =>
          obtain ⟨t, n, ht⟩ := Statement.run_insertUser name password state db
          rw [Statement.exec_true, ht] at hgone
          exact absurd hm hgone
      | insertMessage messageid senderid receiverid groupid msgtype payload =>
          obtain ⟨t, ht⟩ :=
            Statement.run_insertMessage messageid senderid receiverid groupid msgtype payload db
          rw [Statement.exec_true, ht] at hgone
          exact absurd hm hgone
      | insertGroup groupname groupdesc =>
          obtain ⟨t, n, ht⟩ := Statement.run_insertGroup groupname groupdesc db
          rw [Statement.exec_true, ht] at hgone
          exact absurd hm hgone
      | _ => exact absurd hm hgone

/-- What has become of a legacy message since job `j` removed it. -/
inductive LegacyFate (u : ℤ) (t : String) (j : Job) (conn : Conn) (x : ClusterConfig)
    (later : List ClusterEntry) : Prop
  | running : (x.slot (.io conn)).last = some j → ¬ (x.slot (.io conn)).Idle →
      .started j ∉ later → LegacyFate u t j conn x later
  | stopped : .aborted j ∈ later → LegacyFate u t j conn x later
  | answered (s : Sent) (r : Unit) : .did j (.sendTo conn s) r ∈ later →
      confirmedUser? s = some u → s.Lists (cStr t) → LegacyFate u t j conn x later

/-- Job `j` has removed the legacy messages of the user and not answered yet. -/
structure HoldsLegacy (u : ℤ) (conn : Conn) (legacy : List String) (j : Job)
    (x : ClusterConfig) : Prop where
  last : (x.slot j.agent).last = some j
  read : (legacyMemory j.agent x.view.past).Read u conn legacy
  taken : (legacyMemory j.agent x.view.past).taken = true

section Fate
variable [JsonParser] {E : Environment} {admits : ClusterView → ClusterEntry → Prop} {w : World}
  {es gs : List ClusterEntry} {x y : ClusterConfig} {e : ClusterEntry} {u : ℤ} {conn : Conn}
  {legacy : List String} {j : Job}

theorem takes_of_step (h : Steps (cluster E admits) (Config.initial w) es x) {c : Command}
    {r : Response c} (hs : Step (cluster E admits) x (.did j c r) y) :
    Takes (legacyMemory j.agent x.view.past) c :=
  h.tracked_did (P := fun _ => Takes) (Q := fun m => m.taken = false) takes_body rfl hs

theorem legacyMemory_did {c : Command} {r : Response c}
    (hs : Step (cluster E admits) x (.did j c r) y) :
    legacyMemory j.agent y.view.past = (legacyMemory j.agent x.view.past).next c r := by
  rw [hs.moves.recorded, legacyMemory, memory, if_pos rfl, legacyMemory]

theorem last_did {c : Command} {r : Response c} {a : Agent}
    (hs : Step (cluster E admits) x (.did j c r) y) : (y.slot a).last = (x.slot a).last := by
  obtain hsame | ⟨i, he, -⟩ := hs.last a
  · exact hsame
  · cases he

theorem holdsLegacy_did (h : Steps (cluster E admits) (Config.initial w) es x) {c : Command}
    {r : Response c} (hs : Step (cluster E admits) x (.did j c r) y)
    (hx : HoldsLegacy u conn legacy j x) : HoldsLegacy u conn legacy j y ∨
      ∃ s, c = .sendTo conn s ∧ confirmedUser? s = some u ∧ ∀ t ∈ legacy, s.Lists (cStr t) := by
  have htakes := takes_of_step h hs
  have hlast : (y.slot j.agent).last = some j := (last_did hs).trans hx.last
  have hmem := legacyMemory_did hs
  have hkeep : (legacyMemory j.agent x.view.past).next c r = legacyMemory j.agent x.view.past →
      HoldsLegacy u conn legacy j y := by
    intro hsame
    rw [hsame] at hmem
    exact ⟨hlast, hmem ▸ hx.read, hmem ▸ hx.taken⟩
  have hnot : ¬ (legacyMemory j.agent x.view.past).taken = false := by simp [hx.taken]
  cases c with
  | sql q =>
      cases q with
      | selectOffline u' => exact absurd (htakes.read u' rfl) hnot
      | deleteOffline u' =>
          refine .inl ⟨hlast, ?_, ?_⟩
          · rw [hmem]
            exact ⟨hx.read.bound, hx.read.legacy⟩
          · rw [hmem]
            rfl
      | _ => exact .inl (hkeep rfl)
  | node q =>
      cases q with
      | mapBind u' conn' => exact absurd (htakes.bind u' conn' rfl) hnot
      | _ => exact .inl (hkeep rfl)
  | redisPublish => exact .inl (hkeep rfl)
  | sendTo conn' s =>
      cases hs' : confirmedUser? s with
      | none => exact .inl (hkeep (by simp [LegacyMemory.next, hs']))
      | some u' =>
          obtain ⟨legacy', hread, hlists⟩ := htakes.answer conn' s u' rfl hs'
          obtain ⟨rfl, rfl⟩ := Prod.mk.inj (Option.some.inj (hread.bound.symm.trans hx.read.bound))
          obtain ⟨-, rfl⟩ := Prod.mk.inj (Option.some.inj (hread.legacy.symm.trans hx.read.legacy))
          exact .inr ⟨s, rfl, hs', hlists⟩

/-- One step later the job still holds what it has removed, or it was stopped, or it has
answered. -/
theorem holdsLegacy_step (h : Steps (cluster E admits) (Config.initial w) es x)
    (hs : Step (cluster E admits) x e y) (hx : HoldsLegacy u conn legacy j x) :
    (HoldsLegacy u conn legacy j y ∧ e ≠ .started j) ∨ e = .aborted j ∨
      ∃ s r, e = .did j (.sendTo conn s) r ∧ confirmedUser? s = some u ∧
        ∀ t ∈ legacy, s.Lists (cStr t) := by
  have htracked :=
    h.slotTracked (P := fun _ => Takes) (Q := fun m => m.taken = false) takes_body rfl
  by_cases hagent : ∃ i, e.job? = some i ∧ i.agent = j.agent
  · obtain ⟨i, hi, ha⟩ := hagent
    have hsame : e ≠ .started i → i = j := by
      intro hne
      have hlast := h.job_of_step hs hi hne
      rw [show (cluster E admits).agent i = j.agent from ha, hx.last] at hlast
      exact (Option.some.inj hlast).symm
    cases e with
    | started i' =>
        obtain rfl : i' = i := Option.some.inj hi
        -- an agent that starts a job holds nothing
        have hfree := h.tracked_started (P := fun _ => Takes) (Q := fun m => m.taken = false)
          takes_body rfl hs
        rw [show (cluster E admits).agent i' = j.agent from ha] at hfree
        exact absurd (hx.taken.symm.trans hfree) (by simp)
    | did i' c r =>
        obtain rfl : i' = i := Option.some.inj hi
        obtain rfl := hsame (by simp)
        obtain hy | ⟨s, rfl, hs', hlists⟩ := holdsLegacy_did h hs hx
        · exact .inl ⟨hy, by simp⟩
        · exact .inr (.inr ⟨s, r, rfl, hs', hlists⟩)
    | aborted i' =>
        obtain rfl : i' = i := Option.some.inj hi
        obtain rfl := hsame (by simp)
        exact .inr (.inl rfl)
    | disturbed => cases hi
  · have hother : ∀ i, e.job? = some i → (cluster E admits).agent i ≠ j.agent :=
      fun i hi ha => hagent ⟨i, hi, ha⟩
    obtain ⟨hslot, hmem⟩ := hs.memory_of_slot htracked hother
    change legacyMemory j.agent y.view.past = legacyMemory j.agent x.view.past at hmem
    refine .inl ⟨⟨by rw [hslot, hx.last], hmem ▸ hx.read, hmem ▸ hx.taken⟩, ?_⟩
    rintro rfl
    exact hother j rfl rfl

theorem holdsLegacy_steps (h : Steps (cluster E admits) (Config.initial w) es x)
    (hx : HoldsLegacy u conn legacy j x) (hrun : Steps (cluster E admits) x gs y) :
    (HoldsLegacy u conn legacy j y ∧ .started j ∉ gs) ∨ .aborted j ∈ gs ∨
      ∃ s r, .did j (.sendTo conn s) r ∈ gs ∧ confirmedUser? s = some u ∧
        ∀ t ∈ legacy, s.Lists (cStr t) := by
  induction hrun with
  | done => exact .inl ⟨hx, List.not_mem_nil⟩
  | step hgs hs ih =>
      obtain ⟨hy, hstart⟩ | habort | ⟨s, r, hmem, hrest⟩ := ih
      · obtain ⟨hz, hne⟩ | rfl | ⟨s, r, rfl, hrest⟩ := holdsLegacy_step (h.append hgs) hs hy
        · refine .inl ⟨hz, fun hmem => ?_⟩
          obtain hmem | hmem := List.mem_append.mp hmem
          · exact hstart hmem
          · exact hne (List.mem_singleton.mp hmem).symm
        · exact .inr (.inl (by simp))
        · exact .inr (.inr ⟨s, r, by simp, hrest⟩)
      · exact .inr (.inl (List.mem_append_left _ habort))
      · exact .inr (.inr ⟨s, r, List.mem_append_left _ hmem, hrest⟩)

/-- A legacy row that has gone was removed while it was there. -/
theorem removed_of_steps (h : Steps (cluster E admits) x gs y) {m : ℤ × String}
    (hm : m ∈ x.view.state.db.offlinemessage) (hgone : m ∉ y.view.state.db.offlinemessage) :
    ∃ fs z j r z' hs, Steps (cluster E admits) x fs z ∧ m ∈ z.view.state.db.offlinemessage ∧
      Step (cluster E admits) z (.did j (.sql (.deleteOffline m.1)) r) z' ∧
      Steps (cluster E admits) z' hs y := by
  induction h with
  | done => exact absurd hm hgone
  | @step y y' e gs hgs hs ih =>
      by_cases hy : m ∈ y.view.state.db.offlinemessage
      · obtain ⟨now, hdb⟩ | ⟨j, q, r, ok, rfl, hdb⟩ := db_moves hs.moves
        · rw [hdb] at hgone
          exact absurd hy hgone
        · rw [hdb] at hgone
          obtain rfl := removed_of_exec hy hgone
          exact ⟨_, y, j, r, y', _, hgs, hy, hs, .done⟩
      · obtain ⟨fs, z, j, r, z', hs', hz, hmz, hdelete, hrest⟩ := ih hy
        exact ⟨fs, z, j, r, z', _, hz, hmz, hdelete, hrest.step hs⟩

/-- What a job has read of the legacy table includes each row that is still there. -/
theorem mem_of_read (h : Steps (cluster E admits) (Config.initial w) es x) {a : Agent}
    (hread : (legacyMemory a x.view.past).legacy = some (u, legacy)) (hne : legacy ≠ [])
    {t : String} (hm : (u, t) ∈ x.view.state.db.offlinemessage) : t ∈ legacy := by
  obtain ⟨since, i, c, r, older, hpast, -, hnot, hnext, -⟩ :=
    memory_since (D := fun m : LegacyMemory => m.legacy = some (u, legacy)) (by simp) hread
  rw [selectOffline_of_next (j := i) hnot hnext] at hpast
  obtain ⟨_, _, z, z', -, -, hs, hafter, -⟩ := h.at_entry hpast
  obtain ⟨-, o, -, ho⟩ := hs.moves.effect
  obtain ⟨htexts, -⟩ := exec_sql ho
  have hz := offlinemessage_steps ((Steps.step .done hs).append hafter) hm
  cases hok : o.ok with
  | false =>
      rw [hok] at htexts
      exact absurd htexts hne
  | true =>
      rw [htexts, hok]
      exact List.mem_map.mpr ⟨(u, t), List.mem_filter.mpr ⟨hz, by simp⟩, rfl⟩

/-- A message of the legacy table stays there until a login of its owner, who has given the
password, removes it, and this login runs, or was stopped, or has answered with it. -/
theorem legacy_handed_over (h : Steps (cluster E admits) (Config.initial w) es x) {t : String}
    (hm : (u, t) ∈ w.db.offlinemessage) : (u, t) ∈ x.view.state.db.offlinemessage ∨
      ∃ conn js time pwd r later earlier, LoginFrame u pwd js ∧
        KnownPassword x.view.state.db u pwd ∧
        x.view.past =
          later ++ .did (.frame conn js time) (.sql (.deleteOffline u)) r :: earlier ∧
        LegacyFate u t (.frame conn js time) conn x later := by
  refine or_iff_not_imp_left.mpr fun hgone => ?_
  obtain ⟨fs, z, j, r, z', gs, hz, hmz, hs, hafter⟩ := removed_of_steps h hm hgone
  obtain ⟨conn, legacy, hread, hne⟩ := (takes_of_step hz hs).remove u rfl
  have hj := hz.job_of_step hs rfl (by simp)
  have ht := mem_of_read hz hread.legacy hne hmz
  have hremoved : x.view.past =
      gs.reverse ++ .did j (.sql (.deleteOffline u)) r :: z.view.past := by
    rw [hafter.past, hs.moves.recorded]
  have hholds : HoldsLegacy u conn legacy j z' :=
    ⟨(last_did hs).trans hj, legacyMemory_did hs ▸ ⟨hread.bound, hread.legacy⟩,
      legacyMemory_did hs ▸ rfl⟩
  -- the binding of the job tells that it is a login
  obtain ⟨since, c, r', older, hpast, -, hnot, hnext⟩ := hz.current_gained
    (D := fun m : LegacyMemory => m.bound = some (u, conn)) hj (by simp) hread.bound
  rw [mapBind_of_next (j := j) hnot hnext] at hpast
  have hbind := hremoved
  rw [hpast, ← List.cons_append, ← List.append_assoc] at hbind
  obtain ⟨js, time, pwd, rfl, hlogin, hpwd⟩ := login_of_bind h hbind
  refine ⟨conn, js, time, pwd, r, gs.reverse, z.view.past, hlogin, hpwd, hremoved, ?_⟩
  obtain ⟨hx, hstart⟩ | habort | ⟨s, r'', hmem, hs', hlists⟩ :=
    holdsLegacy_steps (hz.step hs) hholds hafter
  · refine .running hx.last (fun hidle => ?_) (by simpa using hstart)
    have hfree := (h.slotTracked (P := fun _ => Takes) (Q := fun m => m.taken = false) takes_body
      rfl).of_idle rfl hidle
    exact absurd (hx.taken.symm.trans hfree) (by simp)
  · exact .stopped (by simpa using habort)
  · exact .answered s r'' (by simpa using hmem) hs' (hlists t ht)

end Fate

/-- User `2`, for whom the legacy table has a message, logs in. -/
theorem legacy_handed_over_login : letI := Cluster.rejectAll
    let db := { Statement.registered [("ann", "pw"), ("bob", "pw")] with
      offlinemessage := [(2, "hi")] }
    (2, "hi") ∈ db.offlinemessage ∧ ∃ es x conn js time r later earlier,
      Steps hostileCluster (Config.initial (World.fresh db)) es x ∧
      x.view.past = later ++ .did (.frame conn js time) (.sql (.deleteOffline 2)) r :: earlier ∧
      LegacyFate 2 "hi" (.frame conn js time) conn x later := by
  let _ := Cluster.rejectAll
  refine ⟨List.mem_singleton.mpr rfl, ?_⟩
  obtain ⟨w', hrun, hw'⟩ := Cluster.exists_run (E := .hostile)
    (w := World.fresh { Statement.registered [("ann", "pw"), ("bob", "pw")] with
      offlinemessage := [(2, "hi")] })
    [({}, .frame ⟨1, 0⟩ (Client.loginRequest 2 "pw") "")]
    (p := fun w => w.db.offlinemessage = []) (by decide)
  obtain ⟨es, x, hsteps, rfl, -⟩ := hrun.interleaved
  obtain hstays | hgone := legacy_handed_over hsteps (u := 2) (t := "hi")
    (List.mem_singleton.mpr rfl)
  · rw [of_decide_eq_true hw'] at hstays
    cases hstays
  · obtain ⟨conn, js, time, pwd, r, later, earlier, -, -, hpast, hfate⟩ := hgone
    exact ⟨es, x, conn, js, time, r, later, earlier, hsteps, hpast, hfate⟩

end ChatCluster
