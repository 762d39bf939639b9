import ChatCluster.Authority
import ChatCluster.WakeUp

/-!
# Who gets to see a message

A stored message leaves the server in a chat frame or as an element of a login answer.
A chat frame goes to the connection to which the receiver is bound; the answer of a
login lists what its queries returned for the user it has bound. A group message is
stored for the members that the query of its sender returned.
-/
namespace ChatCluster
open CommandProgram Interleaving

/-! ## What a handler hands over -/

/-- The user that a login has bound, what its queries returned, and the members that the
query of a group returned. -/
structure QueryMemory where
  bound : Option (ℤ × Conn) := none
  unacked : Option (ℤ × List MessageRow) := none
  legacy : Option (ℤ × List String) := none
  members : Option (ℤ × ℤ × List ℤ) := none

def QueryMemory.next (m : QueryMemory) : (c : Command) → Response c → QueryMemory
  | .node (.mapBind userid conn), _ => { m with bound := some (userid, conn) }
  | .sql (.selectUnacked receiverid _), rows => { m with unacked := some (receiverid, rows) }
  | .sql (.selectOffline userid), rows => { m with legacy := some (userid, rows) }
  | .sql (.selectGroupUserIds userid groupid), ids =>
      { m with members := some (userid, groupid, ids) }
  | _, _ => m

/-- The answer confirms a login, and its element `text` is one that the queries returned
for the same user. -/
structure Returned (m : QueryMemory) (u : ℤ) (conn : Conn) (response : Json) : Prop where
  bound : m.bound = some (u, conn)
  form : ∃ user texts userVec groupuserVec,
    response = loginResponse user texts userVec groupuserVec
  element : ∃ rows legacy, m.unacked = some (u, rows) ∧ m.legacy = some (u, legacy) ∧
    ∀ texts, response.find? "offlinemsg" = some (Json.strings texts) → ∀ text ∈ texts,
      (∃ r ∈ rows, text = cStr r.payload) ∨ ∃ t ∈ legacy, text = cStr t

/-- What a job that remembers `m` keeps to when it hands something over or stores a
message. -/
structure HandsOut (m : QueryMemory) (c : Command) : Prop where
  answer : ∀ conn s u, c = .sendTo conn s → confirmedUser? s = some u →
    ∃ response, s = .json response ∧ Returned m u conn response
  member : ∀ messageid senderid receiverid groupid payload,
    c = .sql (.insertMessage messageid senderid receiverid groupid EnMsgType.groupChatMsg.code
      payload) → ∃ ids, m.members = some (senderid, groupid, ids) ∧ receiverid ∈ ids

/-- A command that neither answers a login nor stores a group message. -/
def Command.HandsNothing : Command → Prop
  | .sendTo _ s => confirmedUser? s = none
  | .sql (.insertMessage _ _ _ _ msgtype _) => msgtype ≠ EnMsgType.groupChatMsg.code
  | _ => True

section Tracked
variable {conn : Conn} {js : Json} {time : String} {m : QueryMemory}

theorem Command.HandsNothing.handsOut {c : Command} (h : c.HandsNothing) : HandsOut m c where
  answer conn s u hc hs := by
    subst hc
    rw [show confirmedUser? s = none from h] at hs
    cases hs
  member messageid senderid receiverid groupid payload hc := by
    subst hc
    exact absurd rfl h

abbrev Hands (p : Program Unit) : Prop :=
  p.Tracked QueryMemory.next HandsOut (fun _ _ => True) {}

theorem tracked_handsNothing {α : Type} {p : Program α} (hp : p.All Command.HandsNothing) :
    p.Tracked QueryMemory.next HandsOut (fun _ _ => True) m :=
  .of_all (I := fun _ => True) (fun _ _ hc _ => hc.handsOut) (fun _ _ _ _ _ => trivial) hp trivial

theorem Command.OfContacts.handsNothing {c : Command} (h : c.OfContacts) : c.HandsNothing := by
  cases h with
  | unrelated c hc =>
      obtain ⟨q, rfl, -, hq, -⟩ := hc
      cases q with
      | insertMessage => exact absurd trivial hq
      | _ => trivial
  | insertUser | check => trivial
  | answer conn response t ht hor =>
      exact confirmedUser?_of_msgType ht (by rcases hor with rfl | rfl <;> decide)

theorem Command.OfTeardown.handsNothing {P : ℤ → Prop} {c : Command} (h : c.OfTeardown P) :
    c.HandsNothing := by
  cases h <;> trivial

/-- Handlers that store no message. -/
theorem Command.OfDelivery.handsNothing {c : Command}
    (h : c.OfDelivery (fun _ _ _ => False) fun s => confirmedUser? s = none) :
    c.HandsNothing := by
  cases h with
  | insert _ _ _ _ _ _ h => exact h.elim
  | send conn s hs => exact hs
  | _ => trivial

theorem handsNothing_generateMessageId : generateMessageId.All Command.HandsNothing :=
  ⟨trivial, fun _ => ⟨trivial, fun _ => ⟨trivial, fun _ => trivial⟩⟩⟩

theorem handsNothing_oneChat (hmsg : msgType? js = some .oneChatMsg) :
    (oneChat conn js).All Command.HandsNothing := by
  unfold oneChat
  split
  · refine Prog.All.bind ⟨trivial, fun _ => trivial⟩ fun bound => ?_
    split_ifs
    · refine handsNothing_generateMessageId.bind fun messageid => ?_
      have htype : EnMsgType.oneChatMsg.code ≠ EnMsgType.groupChatMsg.code := by decide
      refine all_persistAndDeliver htype trivial trivial (fun _ => ?_) trivial trivial trivial
        trivial trivial
      exact (confirmedUser?_stamped hmsg (by decide)).1 messageid
    · trivial
  · trivial

/-- A command of the loop over the members that a query has returned. -/
structure Command.ToMembers (userid groupid : ℤ) (ids : List ℤ) (c : Command) : Prop where
  noQuery : ∀ u g, c ≠ .sql (.selectGroupUserIds u g)
  handsOut : ∀ m : QueryMemory, m.members = some (userid, groupid, ids) → HandsOut m c

theorem Command.HandsNothing.toMembers {userid groupid : ℤ} {ids : List ℤ} {c : Command}
    (h : c.HandsNothing) (hc : ∀ u g, c ≠ .sql (.selectGroupUserIds u g)) :
    c.ToMembers userid groupid ids := ⟨hc, fun _ _ => h.handsOut⟩

theorem toMembers_groupChatMember (hmsg : msgType? js = some .groupChatMsg)
    {userid groupid id : ℤ} {ids : List ℤ} (hid : id ∈ ids) :
    (groupChatMember userid groupid js id).All (Command.ToMembers userid groupid ids) := by
  have hnode : ∀ q : NodeOp, (Command.node q).ToMembers userid groupid ids := fun q =>
    Command.HandsNothing.toMembers trivial (by simp)
  have hsql : ∀ q : Statement, (Command.sql q).HandsNothing →
      (∀ u g, q ≠ .selectGroupUserIds u g) → (Command.sql q).ToMembers userid groupid ids :=
    fun q hq hne => hq.toMembers (by simpa using hne)
  refine Prog.All.bind (p := generateMessageId) ⟨hnode _, fun _ => ⟨hnode _, fun _ => ⟨hnode _,
    fun _ => trivial⟩⟩⟩ fun messageid => ?_
  refine all_persistAndDeliver ⟨by simp, fun m hm => ⟨by simp, ?_⟩⟩ (hnode _) (hnode _)
    (fun _ => Command.HandsNothing.toMembers ?_ (by simp)) (hsql _ trivial (by simp)) (hnode _)
    (hsql _ trivial (by simp)) (hnode _) (Command.HandsNothing.toMembers trivial (by simp))
  · intro messageid' senderid receiverid groupid' payload hc
    cases hc
    exact ⟨ids, hm, hid⟩
  · exact (confirmedUser?_stamped hmsg (by decide)).2 messageid id

theorem hands_groupChat (hmsg : msgType? js = some .groupChatMsg) :
    Hands (groupChat conn js) := by
  unfold groupChat
  split
  · next userid groupid _ _ _ _ =>
    refine ⟨Command.HandsNothing.handsOut trivial, fun bound => ?_⟩
    cases bound with
    | false => trivial
    | true =>
        refine ⟨Command.HandsNothing.handsOut trivial, fun ids => ?_⟩
        have hloop : (ids.forM (groupChatMember userid groupid js)).Tracked QueryMemory.next
            HandsOut (fun m _ => m.members = some (userid, groupid, ids))
            { members := some (userid, groupid, ids) } := by
          refine .forM (fun id hid m hm => ?_) rfl
          refine .of_all (fun m c hc hm => hc.handsOut m hm) (fun m c r hc hm => ?_)
            (toMembers_groupChatMember hmsg hid) hm
          cases c with
          | sql q =>
              cases q with
              | selectGroupUserIds u g => exact absurd rfl (hc.noQuery u g)
              | _ => exact hm
          | node q => cases q <;> exact hm
          | _ => exact hm
        exact hloop.mono fun _ _ _ => trivial
  · trivial

/-! ## Login -/

/-- A command of a login that is not one of its queries of messages, and no answer. -/
structure Command.Beside (c : Command) : Prop where
  nothing : c.HandsNothing
  bind : ∀ u conn, c ≠ .node (.mapBind u conn)
  unacked : ∀ u limit, c ≠ .sql (.selectUnacked u limit)
  legacy : ∀ u, c ≠ .sql (.selectOffline u)

theorem Command.Beside.next {c : Command} (hc : c.Beside) (r : Response c) :
    (m.next c r).bound = m.bound ∧ (m.next c r).unacked = m.unacked ∧
      (m.next c r).legacy = m.legacy := by
  cases c with
  | sql q =>
      cases q with
      | selectUnacked u limit => exact absurd rfl (hc.unacked u limit)
      | selectOffline u => exact absurd rfl (hc.legacy u)
      | _ => exact ⟨rfl, rfl, rfl⟩
  | node q =>
      cases q with
      | mapBind u conn => exact absurd rfl (hc.bind u conn)
      | _ => exact ⟨rfl, rfl, rfl⟩
  | _ => exact ⟨rfl, rfl, rfl⟩

theorem tracked_beside {α : Type} {p : Program α} (hp : p.All Command.Beside) :
    p.Tracked QueryMemory.next HandsOut (fun m' _ => m'.bound = m.bound ∧
      m'.unacked = m.unacked ∧ m'.legacy = m.legacy) m := by
  refine .of_all (I := fun m' : QueryMemory => m'.bound = m.bound ∧ m'.unacked = m.unacked ∧
    m'.legacy = m.legacy) (fun _ _ hc _ => hc.nothing.handsOut) (fun m' c r hc hm => ?_) hp
    ⟨rfl, rfl, rfl⟩
  obtain ⟨hbound, hunacked, hlegacy⟩ := hc.next (m := m') r
  exact ⟨hbound.trans hm.1, hunacked.trans hm.2.1, hlegacy.trans hm.2.2⟩

theorem beside_node {q : NodeOp} (hq : ∀ u conn, q ≠ .mapBind u conn) :
    (Command.node q).Beside :=
  ⟨trivial, by simpa using hq, by simp, by simp⟩

theorem beside_openSession_tail (id : ℤ) (user : User) :
    (do trySubscribe id
        let _ ← UserModel.updateState user : Program Unit).All Command.Beside :=
  all_announce (beside_node (by simp)) (beside_node (by simp))
    ⟨trivial, by simp, by simp, by simp⟩

theorem beside_collectStored (id : ℤ) (ms : List StoredMessage) :
    (collectStored id ms).All Command.Beside :=
  all_collectStored fun _ _ => ⟨trivial, by simp, by simp, by simp⟩

theorem beside_sql {q : Statement} (h : (Command.sql q).HandsNothing)
    (hu : ∀ u limit, q ≠ .selectUnacked u limit) (hl : ∀ u, q ≠ .selectOffline u) :
    (Command.sql q).Beside :=
  ⟨h, by simp, by simpa using hu, by simpa using hl⟩

theorem beside_contacts (id : ℤ) (k : List User → List Group → Json) :
    (do let userVec ← FriendModel.query id
        let groupuserVec ← GroupModel.queryGroups id
        return k userVec groupuserVec : Program Json).All Command.Beside := by
  have hmembers := all_queryMembers (P := Command.Beside) fun _ =>
    beside_sql trivial (by simp) (by simp)
  refine Prog.All.bind (p := FriendModel.query id)
    ⟨beside_sql trivial (by simp) (by simp), fun _ => trivial⟩ fun userVec => ?_
  exact Prog.All.bind (p := GroupModel.queryGroups id)
    ⟨beside_sql trivial (by simp) (by simp), fun _ => hmembers _⟩ fun _ => trivial

theorem tracked_takeLegacy (id : ℤ) :
    (takeLegacy id).Tracked QueryMemory.next HandsOut (fun m' texts =>
      (m'.bound = m.bound ∧ m'.unacked = m.unacked) ∧
        ∃ legacy, m'.legacy = some (id, legacy) ∧ texts = legacy.map cStr) m := by
  refine ⟨Command.HandsNothing.handsOut trivial, fun (legacy : List String) => ?_⟩
  change (if (legacy.map cStr).isEmpty then _ else _ : Program (List String)).Tracked _ _ _ _
  split_ifs
  · exact ⟨⟨rfl, rfl⟩, legacy, rfl, rfl⟩
  · exact ⟨Command.HandsNothing.handsOut trivial, fun _ => ⟨⟨rfl, rfl⟩, legacy, rfl, rfl⟩⟩

/-- The answer of a login is put together from what its queries returned. -/
theorem tracked_syncSession {id : ℤ} (user : User) (hm : m.bound = some (id, conn)) :
    (syncSession id user).Tracked QueryMemory.next HandsOut
      (fun m' response => Returned m' id conn response) m := by
  refine ⟨Command.HandsNothing.handsOut trivial, fun (rows : List MessageRow) => ?_⟩
  refine ((tracked_beside (beside_collectStored id (storedMessages rows))).returns
    (returns_collectStored id _)).bind fun m₁ texts h₁ => ?_
  obtain ⟨⟨hbound₁, hunacked₁, -⟩, htexts⟩ := h₁
  refine (tracked_takeLegacy id).bind fun m₂ legacyTexts h₂ => ?_
  obtain ⟨⟨hbound₂, hunacked₂⟩, legacy, hlegacy, rfl⟩ := h₂
  refine ((tracked_beside (beside_contacts id fun userVec groupuserVec =>
    loginResponse user (texts ++ legacy.map cStr) userVec groupuserVec)).returns
    (T := fun response => ∃ userVec groupuserVec, response =
      loginResponse user (texts ++ legacy.map cStr) userVec groupuserVec) ?_).mono ?_
  · exact (Prog.returns_true _).bind fun userVec _ =>
      (Prog.returns_true _).bind fun groupuserVec _ => ⟨userVec, groupuserVec, rfl⟩
  · rintro m₃ response ⟨⟨hbound₃, hunacked₃, hlegacy₃⟩, userVec, groupuserVec, rfl⟩
    have hunacked : m₃.unacked = some (id, rows) := by
      rw [hunacked₃, hunacked₂, hunacked₁]
      rfl
    refine ⟨?_, ⟨_, _, _, _, rfl⟩, rows, legacy, hunacked, hlegacy₃.trans hlegacy, ?_⟩
    · rw [hbound₃, hbound₂, hbound₁]
      exact hm
    · intro texts' hfind text htext
      rw [offlinemsg_loginResponse] at hfind
      split_ifs at hfind
      obtain rfl := List.map_injective_iff.mpr (fun _ _ => Json.string.inj)
        (Json.array.inj (Option.some.inj hfind))
      obtain hmem | hmem := List.mem_append.mp htext
      · rw [htexts, List.mem_map] at hmem
        obtain ⟨message, hmessage, rfl⟩ := hmem
        obtain ⟨r, hr, rfl⟩ := List.mem_map.mp (List.mem_of_mem_filter hmessage)
        exact .inl ⟨r, hr, rfl⟩
      · obtain ⟨t, ht, rfl⟩ := List.mem_map.mp hmem
        exact .inr ⟨t, ht, rfl⟩

theorem hands_login (conn : Conn) (js : Json) : Hands (login conn js) := by
  refine tracked_login (Q := fun _ => True) (S := fun id m => m.bound = some (id, conn))
    (T := fun id m response => Returned m id conn response) ?_ ?_ ?_ ?_ ?_
  · exact fun id row => ⟨Command.HandsNothing.handsOut trivial, rfl⟩
  · exact fun response h => ⟨Command.HandsNothing.handsOut h, fun _ => trivial⟩
  · intro id user
    refine ⟨Command.HandsNothing.handsOut trivial, fun _ => ?_⟩
    exact (tracked_beside (beside_openSession_tail id _)).mono fun m' _ h => h.1
  · exact fun id user m hm => tracked_syncSession user hm
  · intro id m response hreturned hconfirmed
    refine ⟨⟨fun conn' s u hc hs => ?_, fun _ _ _ _ _ hc => by cases hc⟩, fun _ => trivial⟩
    cases hc
    obtain rfl := Option.some.inj (hconfirmed.symm.trans hs)
    exact ⟨response, rfl, hreturned⟩

theorem hands_frame : Hands (onMessage conn js time) := by
  apply onMessage_handlers (T := Hands)
  · exact fun _ => hands_login conn js
  · exact fun _ hp => tracked_handsNothing (hp.mono fun _ => Command.OfTeardown.handsNothing)
  · exact fun p hp => tracked_handsNothing (hp.mono fun _ => Command.OfContacts.handsNothing)
  · exact fun hmsg => tracked_handsNothing (handsNothing_oneChat hmsg)
  · exact hands_groupChat
  · exact fun _ => tracked_handsNothing
      (ofDelivery_messageAck.mono fun _ => Command.OfDelivery.handsNothing)

theorem hands_body [JsonParser] (j : Job) : Hands j.body := by
  cases j with
  | frame conn js time => exact hands_frame
  | close conn => exact tracked_handsNothing (all_clientCloseException trivial fun _ =>
      Command.OfTeardown.handsNothing)
  | redisMessage n channel message =>
      have hraw : confirmedUser? (.raw message) = none := rfl
      exact tracked_handsNothing ((ofDelivery_handleRedisSubscribeMessage channel hraw).mono
        fun _ => Command.OfDelivery.handsNothing)
  | sigint n => exact tracked_handsNothing ⟨trivial, fun _ => ⟨trivial, fun _ => trivial⟩⟩

end Tracked

/-! ## Where the answers come from -/

def queryMemory (a : Agent) (past : List ClusterEntry) : QueryMemory :=
  memory Job.agent {} QueryMemory.next a past

section Gained
variable {m : QueryMemory} {j : Job} {c : Command} {r : Response c} {u : ℤ}

theorem bound_of_next {conn : Conn} (hnot : m.bound ≠ some (u, conn))
    (h : (m.next c r).bound = some (u, conn)) :
    (Entry.did j c r : ClusterEntry) = .did j (.node (.mapBind u conn)) () := by
  cases c with
  | node q =>
      cases q with
      | mapBind userid conn' =>
          obtain ⟨rfl, rfl⟩ := Prod.mk.inj (Option.some.inj h)
          rfl
      | _ => exact absurd h hnot
  | sql q => cases q <;> exact absurd h hnot
  | _ => exact absurd h hnot

theorem unacked_of_next {rows : List MessageRow} (hnot : m.unacked ≠ some (u, rows))
    (h : (m.next c r).unacked = some (u, rows)) : ∃ limit,
    (Entry.did j c r : ClusterEntry) = .did j (.sql (.selectUnacked u limit)) rows := by
  cases c with
  | sql q =>
      cases q with
      | selectUnacked receiverid limit =>
          obtain ⟨rfl, rfl⟩ := Prod.mk.inj (Option.some.inj h)
          exact ⟨limit, rfl⟩
      | _ => exact absurd h hnot
  | node q => cases q <;> exact absurd h hnot
  | _ => exact absurd h hnot

theorem legacy_of_next {texts : List String} (hnot : m.legacy ≠ some (u, texts))
    (h : (m.next c r).legacy = some (u, texts)) :
    (Entry.did j c r : ClusterEntry) = .did j (.sql (.selectOffline u)) texts := by
  cases c with
  | sql q =>
      cases q with
      | selectOffline userid =>
          obtain ⟨rfl, rfl⟩ := Prod.mk.inj (Option.some.inj h)
          rfl
      | _ => exact absurd h hnot
  | node q => cases q <;> exact absurd h hnot
  | _ => exact absurd h hnot

theorem members_of_next {groupid : ℤ} {ids : List ℤ} (hnot : m.members ≠ some (u, groupid, ids))
    (h : (m.next c r).members = some (u, groupid, ids)) :
    (Entry.did j c r : ClusterEntry) = .did j (.sql (.selectGroupUserIds u groupid)) ids := by
  cases c with
  | sql q =>
      cases q with
      | selectGroupUserIds userid g =>
          obtain ⟨rfl, hrest⟩ := Prod.mk.inj (Option.some.inj h)
          obtain ⟨rfl, rfl⟩ := Prod.mk.inj hrest
          rfl
      | _ => exact absurd h hnot
  | node q => cases q <;> exact absurd h hnot
  | _ => exact absurd h hnot

end Gained
/-- The connection has passed a login as user `u`: a login frame with the password of the
user has bound it. -/
def PassedLogin (db : Database) (u : ℤ) (conn : Conn) (past : List ClusterEntry) : Prop :=
  ∃ js time pwd, .did (.frame conn js time) (.node (.mapBind u conn)) () ∈ past ∧
    LoginFrame u pwd js ∧ KnownPassword db u pwd

def Database.MemberOf (db : Database) (groupid userid : ℤ) : Prop :=
  (db.groupuser.find? (toLex (groupid, userid))).isSome

theorem offlinemessage_sql {ok : Bool} {q : Statement} {db : Database} {m : ℤ × String}
    (h : m ∈ (q.exec ok db).2.offlinemessage) : m ∈ db.offlinemessage := by
  cases ok with
  | false => exact h
  | true =>
      cases q with
      | deleteOffline userid => exact List.mem_of_mem_filter h
      | insertUser | insertMessage | insertGroup =>
          simp only [Statement.exec_true, Statement.run] at h
          split at h
          · next hdb =>
            obtain ⟨t, -, he⟩ := Option.map_eq_some_iff.mp hdb
            cases he
            exact h
          · exact h
      | _ => exact h

theorem offlinemessage_exec {o : Choice} {a : Agent} {c : Command} {w w' : World} {r : Response c}
    (h : exec o a c w = some (r, w')) {m : ℤ × String} (hm : m ∈ w'.db.offlinemessage) :
    m ∈ w.db.offlinemessage := by
  cases c with
  | sql q =>
      rw [(exec_sql h).2] at hm
      exact offlinemessage_sql hm
  | _ => rwa [db_exec (fun _ h => by cases h) h] at hm

theorem offlinemessage_disturbance {w w' : World} (h : Disturbance w w') :
    w'.db.offlinemessage = w.db.offlinemessage := by
  cases h <;> rfl

theorem memberOf_of_selected {u groupid id : ℤ} {db : Database} {ok : Bool} {ids : List ℤ}
    (hids : ids = ((Statement.selectGroupUserIds u groupid).exec ok db).1) (hid : id ∈ ids) :
    db.MemberOf groupid u ∧ db.MemberOf groupid id := by
  subst hids
  cases ok with
  | false => cases hid
  | true =>
      change id ∈ db.selectGroupUserIds u groupid at hid
      unfold Database.selectGroupUserIds at hid
      split_ifs at hid with hmember
      · refine ⟨hmember, ?_⟩
        obtain ⟨r, hr, rfl⟩ := List.mem_map.mp hid
        simp only [KeyedTable.Table.mem_select, Bool.and_eq_true, decide_eq_true_eq] at hr
        obtain ⟨hrow, rfl, -⟩ := hr
        exact Option.isSome_iff_exists.mpr ⟨r, KeyedTable.Table.find?_eq_some.mpr ⟨hrow, rfl⟩⟩
      · cases hid

section Sources
variable [JsonParser] {E : Environment} {admits : ClusterView → ClusterEntry → Prop}
  {v v' : ClusterView} {e : ClusterEntry} {w : World} {es : List ClusterEntry} {x y : ClusterConfig}
  {u : ℤ} {conn : Conn} {j : Job}

/-- Nothing is written to the legacy table. -/
theorem offlinemessage_moves (hm : Moves (cluster E admits) v e v') {m : ℤ × String}
    (h : m ∈ v'.state.db.offlinemessage) : m ∈ v.state.db.offlinemessage := by
  cases e with
  | started j => rwa [Job.db_starts hm.effect] at h
  | did j c r =>
      obtain ⟨-, o, -, ho⟩ := hm.effect
      exact offlinemessage_exec ho h
  | aborted j => rwa [show v'.state = v.state.release j.agent from hm.effect, db_release] at h
  | disturbed => rwa [offlinemessage_disturbance hm.effect.2] at h

theorem offlinemessage_steps (h : Steps (cluster E admits) x es y) {m : ℤ × String}
    (hm : m ∈ y.view.state.db.offlinemessage) : m ∈ x.view.state.db.offlinemessage := by
  induction h with
  | done => exact hm
  | step _ hs ih => exact ih (offlinemessage_moves hs.moves hm)

theorem passedLogin_of_recorded (h : Steps (cluster E admits) (Config.initial w) es x)
    (hmem : .did j (.node (.mapBind u conn)) () ∈ x.view.past) :
    j.agent = .io conn ∧ PassedLogin x.view.state.db u conn x.view.past := by
  obtain ⟨newer, older, hpast⟩ := List.append_of_mem hmem
  obtain ⟨js, time, pwd, rfl, hlogin, hpwd⟩ := login_of_bind h hpast
  exact ⟨rfl, js, time, pwd, hmem, hlogin, hpwd⟩

/-- A connection that a map holds for a user has passed a login as that user, on that
node. -/
theorem passedLogin_of_bound (h : Steps (cluster E admits) (Config.initial w) es x)
    (hw : ∀ n u, w.bound n u = none) {n : ℕ} (hbound : x.view.state.bound n u = some conn) :
    conn.node = n ∧ PassedLogin x.view.state.db u conn x.view.past := by
  obtain ⟨later, j, earlier, hpast, hj, -⟩ := bound_since h hw hbound
  have hmem : .did j (.node (.mapBind u conn)) () ∈ x.view.past := by
    rw [hpast]
    simp
  obtain ⟨hagent, hpassed⟩ := passedLogin_of_recorded h hmem
  rw [hagent] at hj
  exact ⟨hj, hpassed⟩

/-- The rows that a query has returned are still in the table. -/
theorem rows_of_selected (h : Steps hostileCluster (Config.initial w) es x) {limit : ℕ}
    {rows : List MessageRow} (hmem : .did j (.sql (.selectUnacked u limit)) rows ∈ x.view.past)
    {r : MessageRow} (hr : r ∈ rows) :
    ∃ r' ∈ x.view.state.db.chatMessage.rows, r.Persists r' ∧ r'.receiverId = u := by
  obtain ⟨newer, older, hpast⟩ := List.append_of_mem hmem
  obtain ⟨_, _, z, z', -, -, hs, hafter, -⟩ := h.at_entry hpast
  obtain ⟨-, o, -, ho⟩ := hs.moves.effect
  obtain ⟨hz, hunacked⟩ := Statement.mem_of_selectUnacked (exec_sql ho).1 hr
  obtain ⟨r', hr', hpersists, -⟩ := persists_of_steps ((Steps.step .done hs).append hafter) hz
  exact ⟨r', hr', hpersists, hpersists.receiverId.trans hunacked.1⟩

theorem legacy_of_selected (h : Steps (cluster E admits) (Config.initial w) es x)
    {texts : List String} (hmem : .did j (.sql (.selectOffline u)) texts ∈ x.view.past)
    {text : String} (htext : text ∈ texts) : (u, text) ∈ w.db.offlinemessage := by
  obtain ⟨newer, older, hpast⟩ := List.append_of_mem hmem
  obtain ⟨_, _, z, z', hz, -, hs, -, -⟩ := h.at_entry hpast
  obtain ⟨-, o, -, ho⟩ := hs.moves.effect
  obtain ⟨htexts, -⟩ := exec_sql ho
  cases hok : o.ok with
  | false =>
      rw [htexts, hok] at htext
      cases htext
  | true =>
      rw [htexts, hok] at htext
      obtain ⟨⟨id, t⟩, hm, rfl⟩ := List.mem_map.mp htext
      obtain ⟨hmem', hid⟩ := List.mem_filter.mp hm
      obtain rfl : id = u := of_decide_eq_true hid
      exact offlinemessage_steps hz hmem'

/-! ## What a job remembers has been recorded -/

variable (h : Steps (cluster E admits) (Config.initial w) es x)
  (hj : (x.slot j.agent).last = some j)
include h hj

theorem bound_recorded (hm : (queryMemory j.agent x.view.past).bound = some (u, conn)) :
    .did j (.node (.mapBind u conn)) () ∈ x.view.past := by
  obtain ⟨since, c, r, older, hpast, -, hnot, hnext⟩ := h.current_gained
    (D := fun m : QueryMemory => m.bound = some (u, conn)) hj (by simp) hm
  rw [hpast, bound_of_next hnot hnext]
  simp

theorem unacked_recorded {rows : List MessageRow}
    (hm : (queryMemory j.agent x.view.past).unacked = some (u, rows)) :
    ∃ limit, .did j (.sql (.selectUnacked u limit)) rows ∈ x.view.past := by
  obtain ⟨since, c, r, older, hpast, -, hnot, hnext⟩ := h.current_gained
    (D := fun m : QueryMemory => m.unacked = some (u, rows)) hj (by simp) hm
  obtain ⟨limit, he⟩ := unacked_of_next (j := j) hnot hnext
  refine ⟨limit, ?_⟩
  rw [hpast, he]
  simp

theorem legacy_recorded {texts : List String}
    (hm : (queryMemory j.agent x.view.past).legacy = some (u, texts)) :
    .did j (.sql (.selectOffline u)) texts ∈ x.view.past := by
  obtain ⟨since, c, r, older, hpast, -, hnot, hnext⟩ := h.current_gained
    (D := fun m : QueryMemory => m.legacy = some (u, texts)) hj (by simp) hm
  rw [hpast, legacy_of_next hnot hnext]
  simp

theorem members_recorded {groupid : ℤ} {ids : List ℤ}
    (hm : (queryMemory j.agent x.view.past).members = some (u, groupid, ids)) :
    ∃ since older, x.view.past =
      since ++ .did j (.sql (.selectGroupUserIds u groupid)) ids :: older ∧
        .started j ∉ since := by
  obtain ⟨since, c, r, older, hpast, hstart, hnot, hnext⟩ := h.current_gained
    (D := fun m : QueryMemory => m.members = some (u, groupid, ids)) hj (by simp) hm
  exact ⟨since, older, members_of_next (j := j) hnot hnext ▸ hpast, hstart⟩

end Sources
/-! ## Confidentiality -/

/-- The bytes of a chat frame, without the end of the line. -/
def Sent.payload : Sent → String
  | .json js => js.dump
  | .raw payload => payload

instance (s : Sent) : Decidable s.IsChat :=
  match s with
  | .json js => inferInstanceAs (Decidable (msgType? js = _ ∨ msgType? js = _))
  | .raw _ => isTrue trivial

theorem Sent.Carries.payload {js : Json} {s : Sent} (h : s.Carries js) : s.payload = js.dump := by
  cases s with
  | json js' => exact congrArg Json.dump h
  | raw payload => exact h

section Confidential
variable [JsonParser]

/-- The message id that a text names. -/
def textId? (text : String) : Option ℤ :=
  (JsonParser.parse text).bind fun js => getLongLong js "messageid"

/-- The stored text, as a query reads it, has the message id of its row. -/
def MessageRow.ReadsBack (r : MessageRow) : Prop :=
  ((JsonParser.parse (cStr r.payload)).bind fun js => getLongLong js "messageid") =
    some r.messageId

def Database.ReadsBack (db : Database) : Prop := ∀ r ∈ db.chatMessage.rows, r.ReadsBack

/-- A text that reads back belongs to one row. -/
theorem Database.ReadsBack.eq {db : Database} (h : db.ReadsBack) {r r' : MessageRow}
    (hr : r ∈ db.chatMessage.rows) (hr' : r' ∈ db.chatMessage.rows)
    (heq : cStr r.payload = cStr r'.payload) : r = r' := by
  have hid := h r hr
  rw [MessageRow.ReadsBack, heq, h r' hr'] at hid
  exact db.chatMessage.key_injOn hr hr' (Option.some.inj hid).symm

theorem readsBack_moves {E : Environment} {admits : ClusterView → ClusterEntry → Prop}
    {v v' : ClusterView} {e : ClusterEntry} (hm : Moves (cluster E admits) v e v')
    (h : v'.state.db.ReadsBack) : v.state.db.ReadsBack := by
  intro r hr
  obtain ⟨r', hr', hpersists, -⟩ := row_moves hm hr
  have hread := h r' hr'
  rw [MessageRow.ReadsBack, hpersists.payload, hpersists.messageId] at hread
  exact hread

theorem readsBack_steps {E : Environment} {admits : ClusterView → ClusterEntry → Prop}
    {x y : ClusterConfig} {es : List ClusterEntry} (h : Steps (cluster E admits) x es y)
    (hread : y.view.state.db.ReadsBack) : x.view.state.db.ReadsBack := by
  induction h with
  | done => exact hread
  | step _ hs ih => exact ih (readsBack_moves hs.moves hread)

/-- What move `e` from `x` to `y` of a run from `db` may hand to whom. Where the stored
texts read back, the handed text is that of one row only. -/
structure Confidential (db : Database) (x : ClusterConfig) (e : ClusterEntry)
    (y : ClusterConfig) : Prop where
  live : ∀ j conn s, e = .did j (.sendTo conn s) () → s.IsChat →
    ∃ r ∈ x.view.state.db.chatMessage.rows, s.payload = r.payload ∧
      x.view.state.bound conn.node r.receiverId = some conn ∧
      PassedLogin x.view.state.db r.receiverId conn x.view.past ∧
      (x.view.state.db.ReadsBack → ∀ r' ∈ x.view.state.db.chatMessage.rows,
        s.payload = r'.payload → r' = r)
  answer : ∀ j conn response u, e = .did j (.sendTo conn (.json response)) () →
    confirmedUser? (.json response) = some u →
      PassedLogin x.view.state.db u conn x.view.past ∧
      ∀ texts, response.find? "offlinemsg" = some (Json.strings texts) → ∀ text ∈ texts,
        (∃ t, (u, t) ∈ db.offlinemessage ∧ text = cStr t) ∨
        ∃ r ∈ x.view.state.db.chatMessage.rows, text = cStr r.payload ∧ r.receiverId = u ∧
          (x.view.state.db.ReadsBack → ∀ r' ∈ x.view.state.db.chatMessage.rows,
            text = cStr r'.payload → r' = r)
  group : ∀ r ∈ y.view.state.db.chatMessage.rows,
    (∀ r' ∈ x.view.state.db.chatMessage.rows, r'.messageId ≠ r.messageId) →
    r.msgType = EnMsgType.groupChatMsg.code →
      ∃ j before z ids z' after, e.job? = some j ∧
        Steps hostileCluster (Config.initial (World.fresh db)) before z ∧
        Step hostileCluster z (.did j (.sql (.selectGroupUserIds r.senderId r.groupId)) ids) z' ∧
        Steps hostileCluster z' after x ∧ .started j ∉ after ∧
        z.view.state.db.MemberOf r.groupId r.senderId ∧
        z.view.state.db.MemberOf r.groupId r.receiverId

variable {db : Database} {es : List ClusterEntry} {x y : ClusterConfig} {e : ClusterEntry}

theorem handsOut_of_step (h : Steps hostileCluster (Config.initial (World.fresh db)) es x)
    {j : Job} {c : Command} {r : Response c} (hs : Step hostileCluster x (.did j c r) y) :
    HandsOut (queryMemory j.agent x.view.past) c :=
  h.tracked_did (P := fun _ => HandsOut) (Q := fun _ => True) hands_body trivial hs

/-- In every run, whatever frames arrive and however the handlers interleave, a stored
message is handed only to connections that have passed a login as its receiver, and a
group message is stored only between members of the group. -/
theorem confidential (h : Steps hostileCluster (Config.initial (World.fresh db)) es x)
    (hs : Step hostileCluster x e y) : Confidential db x e y := by
  have hw : ∀ n u, (World.fresh db).bound n u = none := fun _ _ => rfl
  constructor
  · rintro j conn s rfl hchat
    obtain ⟨u, js, hcarries, ⟨r, hr, -, rfl, hpayload⟩, hbound⟩ := emitsStored_of_step h hs hchat
    obtain ⟨hnode, hpassed⟩ := passedLogin_of_bound h hw hbound
    have hsent : s.payload = r.payload := hcarries.payload.trans hpayload.symm
    rw [← hnode] at hbound
    exact ⟨r, hr, hsent, hbound, hpassed, fun hread r' hr' hsent' =>
      hread.eq hr' hr (congrArg cStr (hsent'.symm.trans hsent))⟩
  · rintro j conn response u rfl hconfirmed
    have hj := h.job_of_step hs rfl (by simp)
    obtain ⟨response', hsame, hreturned⟩ := (handsOut_of_step h hs).answer conn _ u rfl hconfirmed
    obtain rfl := Sent.json.inj hsame
    have hbound := bound_recorded h hj hreturned.bound
    refine ⟨(passedLogin_of_recorded h hbound).2, fun texts hfind text htext => ?_⟩
    obtain ⟨rows, legacy, hunacked, hlegacy, helement⟩ := hreturned.element
    obtain ⟨r, hr, rfl⟩ | ⟨t, ht, rfl⟩ := helement texts hfind text htext
    · obtain ⟨limit, hrecorded⟩ := unacked_recorded h hj hunacked
      obtain ⟨r₁, hr₁, hpersists, hreceiver⟩ := rows_of_selected h hrecorded hr
      have htext₁ : cStr r.payload = cStr r₁.payload := congrArg cStr hpersists.payload.symm
      exact .inr ⟨r₁, hr₁, htext₁, hreceiver, fun hread r₂ hr₂ htext₂ =>
        hread.eq hr₂ hr₁ (htext₂.symm.trans htext₁)⟩
    · exact .inl ⟨t, legacy_of_selected h (legacy_recorded h hj hlegacy) ht, rfl⟩
  · intro r hr hnew htype
    cases e with
    | did j c ok =>
        obtain ⟨-, o, -, ho⟩ := hs.moves.effect
        obtain ⟨rfl, -⟩ := inserted_exec ho hr hnew
        obtain ⟨ids, hmembers, hid⟩ := (handsOut_of_step h hs).member _ _ _ _ _ (by rw [htype])
        obtain ⟨since, older, hpast, hstart⟩ :=
          members_recorded h (h.job_of_step hs rfl (by simp)) hmembers
        obtain ⟨before, _, z, z', hbefore, -, hquery, hafter, rfl⟩ := h.at_entry hpast
        obtain ⟨-, o', -, ho'⟩ := hquery.moves.effect
        obtain ⟨hsender, hreceiver⟩ := memberOf_of_selected (exec_sql ho').1 hid
        refine ⟨j, before, z, ids, z', since.reverse, rfl, hbefore, hquery, hafter, ?_, hsender,
          hreceiver⟩
        simpa using hstart
    | _ =>
        rw [(tables_moves hs.moves fun _ _ _ h => by cases h).1] at hr
        exact absurd rfl (hnew r hr)

end Confidential

/-- A chat frame has been handed to `conn`. -/
def anyChatSent (conn : Conn) (past : List ClusterEntry) : Bool :=
  past.any fun
    | .did _ (.sendTo conn' s) _ => conn' = conn ∧ s.IsChat
    | _ => false

/-- User `1` writes to user `2`, who is logged in on the same node. -/
theorem confidential_chat : letI := Cluster.rejectAll
    ∃ es x j s y, Steps hostileCluster
        (Config.initial (World.fresh (Statement.registered [("ann", "pw"), ("bob", "pw")]))) es x ∧
      Step hostileCluster x (.did j (.sendTo ⟨0, 1⟩ s) ()) y ∧ s.IsChat ∧
      Confidential (Statement.registered [("ann", "pw"), ("bob", "pw")]) x
        (.did j (.sendTo ⟨0, 1⟩ s) ()) y := by
  let _ := Cluster.rejectAll
  let cues : List (Cue Job Agent Choice) :=
    .start (.frame ⟨0, 1⟩ (Client.loginRequest 2 "pw") "") ::
      List.replicate 10 (.act (.io ⟨0, 1⟩) {}) ++ chatCues namedRequest
  obtain ⟨es, z, hrun, hz⟩ := hostileReplayer.exists_steps
    (x := Config.initial (World.fresh (Statement.registered [("ann", "pw"), ("bob", "pw")]))) cues
    (p := fun z => anyChatSent ⟨0, 1⟩ z.view.past) (by decide +kernel)
  obtain ⟨e, hmem, he⟩ := List.any_eq_true.mp hz
  obtain ⟨newer, older, hpast⟩ := List.append_of_mem hmem
  obtain ⟨fs, _, x, y, hx, rfl, hs, -, -⟩ := hrun.at_entry hpast
  split at he
  · next j conn s _ =>
    obtain ⟨rfl, hchat⟩ := of_decide_eq_true he
    exact ⟨fs, x, j, s, y, hx, hs, hchat, confidential hx hs⟩
  · cases he

end ChatCluster
