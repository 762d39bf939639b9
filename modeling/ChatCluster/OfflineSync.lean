import ChatCluster.SessionPhase

/-!
# The synchronisation at login

A login that succeeds hands over the stored messages that have not been acknowledged
and the rows of the legacy table. The query is bounded, a message whose text is empty
is passed over, and texts are read as C strings.
-/
namespace ChatCluster
open CommandProgram KeyedTable

/-! ## Marking a list of messages -/

namespace MessageRow
variable {now : ℕ} {r : MessageRow}

@[simp] theorem receiverId_markDelivered : (r.markDelivered now).receiverId = r.receiverId := rfl

@[simp] theorem payload_markDelivered : (r.markDelivered now).payload = r.payload := rfl

/-- Marking a message never acknowledges it, nor takes its acknowledgement back. -/
theorem status_markDelivered_lt :
    (r.markDelivered now).status < MessageStatus.acked ↔ r.status < MessageStatus.acked := by
  simp only [markDelivered, MessageStatus.delivered, MessageStatus.acked]
  split_ifs <;> omega

theorem markDelivered_markDelivered (now : ℕ) (r : MessageRow) :
    (r.markDelivered now).markDelivered now = r.markDelivered now := by
  have hstatus : ¬ (r.markDelivered now).status < MessageStatus.delivered := by
    simp only [markDelivered, MessageStatus.delivered]
    split_ifs <;> omega
  have hdelivered : (r.markDelivered now).deliveredAt.isNone = false := by
    cases h : r.deliveredAt <;> simp [markDelivered, h]
  conv_lhs => rw [markDelivered, if_neg hstatus, hdelivered]
  rfl

end MessageRow

namespace Database

/-- The updates that a login issues for the messages it hands over. -/
def markAll (db : Database) (receiverid : ℤ) (ids : List ℤ) : Database :=
  ids.foldl (fun db messageid => db.markDelivered messageid receiverid) db

theorem frame_markAll (db : Database) (receiverid : ℤ) (ids : List ℤ) :
    db.markAll receiverid ids =
      { db with chatMessage := (db.markAll receiverid ids).chatMessage } := by
  induction ids generalizing db with
  | nil => rfl
  | cons messageid ids ih => exact ih (db.markDelivered messageid receiverid)

/-- Marking is idempotent, so it does not matter how often a message occurs. -/
theorem rows_markAll (db : Database) (receiverid : ℤ) (ids : List ℤ) :
    (db.markAll receiverid ids).chatMessage.rows = db.chatMessage.rows.map fun r =>
      if r.messageId ∈ ids ∧ r.receiverId = receiverid ∧ r.status < MessageStatus.acked then
        r.markDelivered db.now else r := by
  induction ids generalizing db with
  | nil => simp [markAll]
  | cons messageid ids ih =>
      change ((db.markDelivered messageid receiverid).markAll receiverid ids).chatMessage.rows = _
      rw [ih]
      simp only [markDelivered, Table.update, List.map_map]
      refine List.map_congr_left fun r _ => ?_
      simp only [Function.comp_apply, List.mem_cons, Bool.and_eq_true, decide_eq_true_eq,
        and_assoc]
      by_cases hr : r.receiverId = receiverid ∧ r.status < MessageStatus.acked
      · by_cases hid : r.messageId = messageid
        · simp [hid, hr, MessageRow.status_markDelivered_lt, MessageRow.markDelivered_markDelivered]
        · simp [hid]
      · simp [hr]

/-- The messages that a login hands over: the first `1000` unacknowledged ones by
message id, without those whose text is empty. -/
def handedOver (db : Database) (u : ℤ) : List MessageRow :=
  ((db.chatMessage.select fun r => r.Unacked u).take 1000).filter fun r => cStr r.payload ≠ ""

/-- The texts of the messages that a login hands over, and of the legacy rows. -/
def handedOverTexts (db : Database) (u : ℤ) : List String :=
  (db.handedOver u).map (fun r => cStr r.payload) ++ (db.selectOffline u).map cStr

theorem mem_handedOver {db : Database} {u : ℤ} {r : MessageRow} (h : r ∈ db.handedOver u) :
    r ∈ db.chatMessage.rows ∧ r.Unacked u := by
  have hr := List.mem_of_mem_take (List.mem_of_mem_filter h)
  rw [Table.mem_select, decide_eq_true_eq] at hr
  exact hr

theorem handedOver_sorted (db : Database) (u : ℤ) :
    (db.handedOver u).Pairwise fun a b => a.messageId < b.messageId :=
  (((db.chatMessage.select_sorted _).sublist (List.take_sublist _ _)).filter _)

/-- Marking by message id marks exactly the rows that are handed over. -/
theorem rows_markAll_handedOver (db : Database) (u : ℤ) :
    (db.markAll u ((db.handedOver u).map MessageRow.messageId)).chatMessage.rows =
      db.chatMessage.rows.map fun r => if r ∈ db.handedOver u then r.markDelivered db.now else r := by
  rw [rows_markAll]
  refine List.map_congr_left fun r hr => ?_
  refine if_congr ⟨fun ⟨hid, _⟩ => ?_, fun h => ?_⟩ rfl rfl
  · obtain ⟨r', hr', hid⟩ := List.mem_map.mp hid
    rwa [← db.chatMessage.key_injOn (mem_handedOver hr').1 hr hid]
  · exact ⟨List.mem_map_of_mem h, (mem_handedOver h).2⟩

end Database

/-- The answer hands over what is stored, and the messages in it are marked. -/
structure HandsOver (u : ℤ) (db db' : Database) (response : Json) : Prop where
  answer : ∃ (user : User) (userVec : List User) (groupuserVec : List Group), user.id = u ∧
    response = loginResponse user (db.handedOverTexts u) userVec groupuserVec
  marked : db'.chatMessage.rows = db.chatMessage.rows.map fun r =>
    if r ∈ db.handedOver u then r.markDelivered db.now else r

/-! ## The handler -/

namespace Calm
variable {j : Job} {w w' : World} {u : ℤ}

theorem runs_collectStored {ms : List StoredMessage} {xs : List String}
    (h : (collectStored u ms).Runs (Step j) w xs w') :
    xs = (ms.filter fun m => m.payload ≠ "").map StoredMessage.payload ∧
      w' = { w with
        db := w.db.markAll u
          ((ms.filter fun m => m.payload ≠ "").map StoredMessage.messageid) } := by
  induction ms generalizing w xs with
  | nil => exact ⟨h.1, h.2⟩
  | cons m ms ih =>
      unfold collectStored at h
      split_ifs at h with hm
      · obtain ⟨_, w₁, hmark, h⟩ := Prog.runs_bind.mp h
        obtain ⟨ys, w₂, hrest, rfl, rfl⟩ := Prog.runs_bind.mp h
        obtain ⟨-, rfl⟩ := runs_sql hmark
        obtain ⟨rfl, rfl⟩ := ih hrest
        rw [List.filter_cons_of_pos (by simpa using hm)]
        exact ⟨rfl, rfl⟩
      · rw [List.filter_cons_of_neg (by simpa using hm)]
        exact ih h

theorem runs_takeLegacy {xs : List String} (h : (takeLegacy u).Runs (Step j) w xs w') :
    xs = (w.db.selectOffline u).map cStr ∧ w'.db.chatMessage = w.db.chatMessage := by
  obtain ⟨_, w₁, ⟨rows, w₂, hrows, rfl, rfl⟩, h⟩ := Prog.runs_bind.mp h
  obtain ⟨rfl, rfl⟩ := step_sql hrows
  split_ifs at h
  · obtain ⟨rfl, rfl⟩ := h
    exact ⟨rfl, rfl⟩
  · obtain ⟨_, w₃, hdelete, rfl, rfl⟩ := Prog.runs_bind.mp h
    obtain ⟨-, rfl⟩ := runs_sql hdelete
    exact ⟨rfl, rfl⟩

theorem runs_queryUnacked {ms : List StoredMessage}
    (h : (MessageModel.queryUnacked u 1000).Runs (Step j) w ms w') :
    ms = (w.db.selectUnacked u 1000).map (fun r => ⟨r.messageId, cStr r.payload, r.status⟩) ∧
      w' = w := by
  obtain ⟨rows, w₁, hrows, rfl, rfl⟩ := h
  obtain ⟨rfl, rfl⟩ := step_sql hrows
  exact ⟨rfl, rfl⟩

theorem runs_syncSession {user : User} {response : Json}
    (h : (syncSession u user).Runs (Step j) w response w') :
    (∃ userVec groupuserVec,
      response = loginResponse user (w.db.handedOverTexts u) userVec groupuserVec) ∧
      w'.db.chatMessage =
        (w.db.markAll u ((w.db.handedOver u).map MessageRow.messageId)).chatMessage := by
  obtain ⟨ms, w₁, hstored, h⟩ := Prog.runs_bind.mp h
  obtain ⟨texts, w₂, hcollect, h⟩ := Prog.runs_bind.mp h
  obtain ⟨legacy, w₃, hlegacy, h⟩ := Prog.runs_bind.mp h
  obtain ⟨userVec, w₄, hfriends, h⟩ := Prog.runs_bind.mp h
  obtain ⟨groupuserVec, w₅, hgroups, rfl, rfl⟩ := Prog.runs_bind.mp h
  obtain ⟨rfl, rfl⟩ := runs_queryUnacked hstored
  obtain ⟨rfl, rfl⟩ := runs_collectStored hcollect
  obtain ⟨rfl, hmessages⟩ := runs_takeLegacy hlegacy
  have hkeeps : ∀ {α : Type} {p : Program α} {x : α} {v v' : World},
      p.All (Command.OfAccount u) → p.Runs (Step j) v x v' →
        v'.db.chatMessage = v.db.chatMessage :=
    fun hp hr => hr.frame (fun v => v.db.chatMessage) hp fun c v r v' hc hv => by
      obtain ⟨o, ho⟩ := hv.exec
      exact chatMessage_exec hc.unrelated.keepsMessages ho
  refine ⟨⟨userVec, groupuserVec, ?_⟩, ?_⟩
  · rw [List.filter_map, List.map_map, Database.frame_markAll]
    rfl
  · rw [hkeeps (ofAccount_queryGroups u) hgroups, hkeeps (ofAccount_friendQuery u) hfriends,
      hmessages, List.filter_map, List.map_map]
    rfl

theorem runs_openSession_db {conn : Conn} {user : User} {x : Unit}
    (h : (openSession conn u user).Runs (Step j) w x w') :
    w'.db = w.db.updateUserState user.id .online ∧ w'.out = w.out ∧
      w'.bound j.agent.node u = some conn := by
  obtain ⟨_, w₁, hbind, h⟩ := Prog.runs_bind.mp h
  obtain ⟨o, s', -, hs, rfl⟩ := runs_node hbind
  obtain rfl := NodeOp.exec_mapBind hs
  obtain ⟨_, w₂, hsub, h⟩ := Prog.runs_bind.mp h
  have hsub' := hsub.mono fun _ _ _ _ hs => hs.exec
  obtain ⟨hdb, hout⟩ := node_frame (isNode_trySubscribe u) hsub'
  obtain ⟨hmap, -⟩ := runs_subscribe_frame hsub'
  obtain ⟨_, w₃, hupdate, -, rfl⟩ := Prog.runs_bind.mp h
  obtain ⟨-, rfl⟩ := runs_sql hupdate
  refine ⟨?_, hout, ?_⟩
  · dsimp only [Statement.run]
    rw [hdb, World.db_setNode]
  · change (w₂.node j.agent.node).userConnMap.lookup u = some conn
    rw [hmap, World.node_setNode_self]
    exact AList.lookup_insert _

/-- A login is answered with a refusal, or it binds the connection and hands over what is
stored. -/
theorem runs_login_answer {conn : Conn} {js : Json} (hid : getInt js "id" = some u)
    (h : (login conn js).Runs (Step j) w () w') :
    ∃ response, w'.out conn = w.out conn ++ [.json response] ∧
      (loginPasses u js (w.db.selectUser u) = false ∧ confirmedUser? (.json response) = none ∨
        HandsOver u w.db w'.db response ∧ w'.bound j.agent.node u = some conn ∧
          w'.db.user = (w.db.updateUserState u .online).user) := by
  have hexec : ∀ c s r s', Step j c s r s' → Exec j.agent c s r s' := fun _ _ _ _ hs => hs.exec
  have hrefused : ∀ {errno errmsg} {v : World} {x : Unit}, (errno = 1 ∨ errno = 2) →
      (sendJson conn (errorResponse .loginMsgAck errno errmsg)).Runs (Step j) v x w' →
      v.out = w.out → ¬ loginPasses u js (w.db.selectUser u) = true →
      ∃ response, w'.out conn = w.out conn ++ [.json response] ∧
        (loginPasses u js (w.db.selectUser u) = false ∧ confirmedUser? (.json response) = none ∨
          HandsOver u w.db w'.db response ∧ w'.bound j.agent.node u = some conn ∧
            w'.db.user = (w.db.updateUserState u .online).user) := by
    intro errno errmsg v x herrno hrun hv hnot
    refine ⟨_, ?_, .inl ⟨Bool.eq_false_of_not_eq_true hnot,
      confirmedUser?_errorResponse herrno .loginMsgAck errmsg⟩⟩
    rw [runs_sendJson (hrun.mono hexec), World.out_emit_self, hv]
  cases hpwd : getString js "password" with
  | none =>
      rw [login, hid, hpwd] at h
      refine hrefused (.inl rfl) h rfl fun hpass => ?_
      have hgiven := (of_decide_eq_true hpass).2.2.1
      rw [hpwd] at hgiven
      cases hgiven
  | some pwd =>
      rw [login_eq hid hpwd] at h
      obtain ⟨user, w₁, ⟨row, w₂, hrow, rfl, rfl⟩, h⟩ := Prog.runs_bind.mp h
      obtain ⟨hanswer, rfl⟩ := step_sql hrow
      obtain rfl : row = w.db.selectUser u := hanswer
      split_ifs at h with hmatch honline
      · exact hrefused (.inr rfl) h rfl fun hpass => (of_decide_eq_true hpass).2.2.2.2 honline
      · obtain ⟨_, w₃, hopen, h⟩ := Prog.runs_bind.mp h
        obtain ⟨response, w₄, hsync, hsend⟩ := Prog.runs_bind.mp h
        obtain ⟨hdb, hout, hbound⟩ := runs_openSession_db hopen
        obtain ⟨hnode, hout'⟩ := sql_frame (isSql_syncSession _ _) (hsync.mono hexec)
        have huser := user_frame (keepsUsers_syncSession _ _) (hsync.mono hexec)
        obtain ⟨⟨userVec, groupuserVec, hresponse⟩, hmarked⟩ := runs_syncSession hsync
        rw [hdb] at hmarked hresponse
        subst hresponse
        obtain rfl := runs_sendJson (hsend.mono hexec)
        refine ⟨_, ?_, .inr ⟨⟨⟨_, userVec, groupuserVec, hmatch.1, rfl⟩, ?_⟩, ?_, ?_⟩⟩
        · rw [World.out_emit_self, hout', hout]
          rfl
        · exact (congrArg Table.rows hmarked).trans
            (Database.rows_markAll_handedOver (w.db.updateUserState _ .online) u)
        · change (w₄.node j.agent.node).userConnMap.lookup u = some conn
          rw [hnode]
          exact hbound
        · rw [hdb, hmatch.1] at huser
          exact huser
      · refine hrefused (.inl rfl) h rfl fun hpass => hmatch ?_
        have hchecked := of_decide_eq_true hpass
        rw [hpwd] at hchecked
        exact ⟨hchecked.2.2.2.1, (Option.some.inj hchecked.2.2.1).symm⟩

end Calm

/-! ## What is handed over -/

/-- The list `offlinemsg` of a login answer; it is left out when it is empty. -/
theorem offlinemsg_loginResponse (user : User) (texts : List String) (userVec : List User)
    (groupuserVec : List Group) :
    (loginResponse user texts userVec groupuserVec).find? "offlinemsg" =
      if texts = [] then none else some (Json.strings texts) := by
  unfold loginResponse
  dsimp only
  rw [find?_setStrings_ne _ _ (by decide), find?_setStrings_ne _ _ (by decide), Json.setStrings]
  cases texts with
  | nil => rfl
  | cons text texts =>
      rw [List.isEmpty_cons, if_neg Bool.false_ne_true, if_neg (List.cons_ne_nil text texts)]
      refine Json.find?_set_self ?_ "offlinemsg" _
      trivial

/-- What a login makes of the stored messages: the answer lists the texts handed over,
by ascending message id and each once, and exactly the rows behind them are marked. -/
structure Synchronised (u : ℤ) (db db' : Database) (response : Json) : Prop where
  offlinemsg : response.find? "offlinemsg" =
    if db.handedOverTexts u = [] then none else some (Json.strings (db.handedOverTexts u))
  ascending : (db.handedOver u).Pairwise fun a b => a.messageId < b.messageId
  marked : db'.chatMessage.rows = db.chatMessage.rows.map fun r =>
    if r ∈ db.handedOver u then r.markDelivered db.now else r
  foreign : ∀ r ∈ db.chatMessage.rows, r.receiverId ≠ u → r ∈ db'.chatMessage.rows

theorem HandsOver.synchronised {u : ℤ} {db db' : Database} {response : Json}
    (h : HandsOver u db db' response) : Synchronised u db db' response where
  offlinemsg := by
    obtain ⟨user, userVec, groupuserVec, -, rfl⟩ := h.answer
    exact offlinemsg_loginResponse ..
  ascending := db.handedOver_sorted u
  marked := h.marked
  foreign r hr hne := by
    rw [h.marked]
    refine List.mem_map.mpr ⟨r, hr, if_neg fun hmem => hne ?_⟩
    exact (Database.mem_handedOver hmem).2.1

/-- A text in the answer is one that was handed over. -/
theorem HandsOver.mem_texts {u : ℤ} {db db' : Database} {response : Json}
    (h : HandsOver u db db' response) {texts : List String} {s : String}
    (htexts : response.find? "offlinemsg" = some (Json.strings texts)) (hs : s ∈ texts) :
    s ∈ db.handedOverTexts u := by
  rw [h.synchronised.offlinemsg] at htexts
  split_ifs at htexts
  have hlist := Json.array.inj (Option.some.inj htexts)
  rwa [List.map_injective_iff.mpr (fun _ _ => Json.string.inj) hlist]

/-! ## Logins run to their end -/

/-- The node runs and nobody holds its lock. -/
def Unlocked (n : ℕ) (w : World) : Prop :=
  (w.node n).running = true ∧ (w.node n).connMutex = none

theorem step_ofLogin {j : Job} {conn : Conn} {id? : Option ℤ} {P : Json → Prop} {c : Command}
    {w : World} (hc : c.OfLogin conn id? P) (hw : Unlocked j.agent.node w) :
    ∃ r w', Calm.Step j c w r w' ∧ Unlocked j.agent.node w' := by
  obtain ⟨r, w', he, hmutex, hrunning⟩ := exec_ofLogin hc {} hw.2
  exact ⟨r, w', ⟨hw.1, {}, fun hf => absurd hf (by decide), he⟩, hrunning.trans hw.1, hmutex⟩

section Login
variable [JsonParser] {w w' : World} {conn : Conn} {js : Json} {time : String} {u : ℤ}

/-- A login that is answered with success binds the connection, writes `online` and hands
over what is stored. -/
theorem handsOver_of_handles (hmsg : msgType? js = some .loginMsg) (hid : getInt js "id" = some u)
    (h : Cluster.Handles .calm w (.frame conn js time) w') {response : Json}
    (hout : w'.out conn = w.out conn ++ [.json response])
    (hok : confirmedUser? (.json response) = some u) :
    HandsOver u w.db w'.db response ∧ w'.bound conn.node u = some conn ∧
      w'.db.user = (w.db.updateUserState u .online).user := by
  obtain ⟨w₁, ⟨-, -, rfl⟩, hrun⟩ := h
  rw [Job.body, onMessage_eq, hmsg] at hrun
  obtain ⟨response', hout', hanswer⟩ := Calm.runs_login_answer hid hrun
  rw [hout] at hout'
  obtain rfl := Sent.json.inj (List.singleton_injective (List.append_cancel_left hout'))
  rcases hanswer with ⟨-, hnone⟩ | hover
  · rw [hok] at hnone
    cases hnone
  · exact hover

/-- A login that is answered with success synchronises the first `1000` messages and the
legacy rows of its user. -/
theorem login_synchronises (hmsg : msgType? js = some .loginMsg) (hid : getInt js "id" = some u)
    (h : Cluster.Handles .calm w (.frame conn js time) w') {response : Json}
    (hout : w'.out conn = w.out conn ++ [.json response])
    (hok : confirmedUser? (.json response) = some u) : Synchronised u w.db w'.db response :=
  (handsOver_of_handles hmsg hid h hout hok).1.synchronised

/-- A login on an open connection of an unlocked node runs to its end, and when its
check is passed it is answered with success. -/
theorem exists_handles_login {x : Conn} {j : Json} {t : String}
    (hmsg : msgType? j = some .loginMsg) (hid : getInt j "id" = some u)
    (hw : Unlocked x.node w) (hopen : x ∉ w.closed)
    (hpass : loginPasses u j (w.db.selectUser u) = true) :
    ∃ w' response, Cluster.Handles .calm w (.frame x j t) w' ∧
      w'.out x = w.out x ++ [.json response] ∧
      confirmedUser? (.json response) = some u ∧ HandsOver u w.db w'.db response ∧
      Unlocked x.node w' := by
  obtain ⟨_, w', hrun, hunlocked⟩ := Prog.exists_runs (I := Unlocked x.node)
    (ofLogin_login (P := fun _ => True) (fun _ _ _ => trivial) fun _ _ _ _ _ => trivial)
    (fun c v hc hv => step_ofLogin (j := .frame x j t) hc hv) hw
  obtain ⟨response, hout, hanswer⟩ := Calm.runs_login_answer hid hrun
  obtain ⟨hover, -⟩ := hanswer.resolve_left fun ⟨hfails, _⟩ => by
    rw [hpass] at hfails
    cases hfails
  refine ⟨w', response, ⟨w, ⟨hw.1, hopen, rfl⟩, ?_⟩, hout, ?_, hover, hunlocked⟩
  · rw [Job.body, onMessage_eq, hmsg]
    exact hrun
  · obtain ⟨user, userVec, groupuserVec, rfl, rfl⟩ := hover.answer
    obtain ⟨hl, hu⟩ := getInt_range hid
    exact confirmedUser?_loginResponse hl hu _ _ _

end Login

/-- A backlog for user `1`. Its oldest message has an empty payload, the next one a
payload with a NUL. -/
def backlogRow (i : ℕ) : MessageRow where
  messageId := i
  senderId := 2
  receiverId := 1
  groupId := 0
  msgType := EnMsgType.oneChatMsg.code
  payload := if i = 0 then "" else if i = 1 then "a\x00b" else if i = 1000 then "late" else "x"
  status := MessageStatus.created
  deliveredAt := none
  ackedAt := none

def backlog (n : ℕ) : Database :=
  { Statement.registered [("ann", "pw"), ("bob", "pw")] with
    chatMessage :=
      { rows := (List.range n).map backlogRow
        sorted := List.pairwise_map.mpr
          (List.pairwise_lt_range.imp fun h => Int.ofNat_lt.mpr h) } }

theorem unacked_backlogRow (i : ℕ) : (backlogRow i).Unacked 1 := by
  unfold MessageRow.Unacked backlogRow
  exact ⟨rfl, (by decide : MessageStatus.created < MessageStatus.acked)⟩

theorem mem_backlog {i n : ℕ} (h : i < n) : backlogRow i ∈ (backlog n).chatMessage.rows :=
  List.mem_map_of_mem (List.mem_range.mpr h)

theorem mem_handedOver_backlog {n : ℕ} {r : MessageRow} (h : r ∈ (backlog n).handedOver 1) :
    ∃ i, i < 1000 ∧ i ≠ 0 ∧ r = backlogRow i := by
  obtain ⟨hr, htext⟩ := List.mem_filter.mp h
  have hall : (backlog n).chatMessage.select (fun r => r.Unacked 1) =
      (List.range n).map backlogRow := by
    refine List.filter_eq_self.mpr fun r hr => decide_eq_true ?_
    obtain ⟨i, -, rfl⟩ := List.mem_map.mp hr
    exact unacked_backlogRow i
  rw [hall, ← List.map_take, List.take_range] at hr
  obtain ⟨i, hi, rfl⟩ := List.mem_map.mp hr
  refine ⟨i, (lt_min_iff.mp (List.mem_range.mp hi)).1, ?_, rfl⟩
  intro heq
  subst heq
  exact of_decide_eq_true htext (by decide)

theorem mem_handedOverTexts_backlog {n : ℕ} {s : String}
    (h : s ∈ (backlog n).handedOverTexts 1) : s = "a" ∨ s = "x" := by
  simp only [Database.handedOverTexts, List.mem_append, List.mem_map] at h
  obtain ⟨r, hr, rfl⟩ | ⟨_, hs, _⟩ := h
  · obtain ⟨i, hi, hne, rfl⟩ := mem_handedOver_backlog hr
    simp only [backlogRow, if_neg hne, if_neg hi.ne]
    split_ifs
    · exact .inl (by decide)
    · exact .inr (by decide)
  · cases hs

theorem exists_login_backlog [JsonParser] (n : ℕ) :
    ∃ w' response, Cluster.Handles .calm (World.fresh (backlog n))
        (.frame ⟨0, 0⟩ (Client.loginRequest 1 "pw") "") w' ∧
      w'.out ⟨0, 0⟩ = [.json response] ∧ confirmedUser? (.json response) = some 1 ∧
      HandsOver 1 (backlog n) w'.db response := by
  have hpass : loginPasses 1 (Client.loginRequest 1 "pw") ((backlog 0).selectUser 1) = true := by
    decide
  obtain ⟨w', response, hrun, hout, hok, hover, -⟩ := exists_handles_login
    (w := World.fresh (backlog n)) (by decide) (by decide) ⟨rfl, rfl⟩ (Finset.notMem_empty _) hpass
  exact ⟨w', response, hrun, hout, hok, hover⟩

theorem login_synchronises_backlog : letI := Cluster.rejectAll
    ∃ (w' : World) (response : Json), w'.out ⟨0, 0⟩ = [.json response] ∧
      Synchronised 1 (backlog 3) w'.db response := by
  let _ := Cluster.rejectAll
  obtain ⟨w', response, hrun, hout, hok, -⟩ := exists_login_backlog 3
  exact ⟨w', response, hout, login_synchronises (by decide) (by decide) hrun hout hok⟩

/-- None of the three messages is handed over: the query stops before the newest one. -/
theorem backlog_not_synchronised : letI := Cluster.rejectAll
    ∃ w' response, Cluster.Handles .calm (World.fresh (backlog 1001))
        (.frame ⟨0, 0⟩ (Client.loginRequest 1 "pw") "") w' ∧
      w'.out ⟨0, 0⟩ = [.json response] ∧ confirmedUser? (.json response) = some 1 ∧
      ∀ i ∈ [0, 1, 1000], backlogRow i ∈ (backlog 1001).chatMessage.rows ∧
        (backlogRow i).Unacked 1 ∧
        ∀ texts, response.find? "offlinemsg" = some (Json.strings texts) →
          (backlogRow i).payload ∉ texts := by
  let _ := Cluster.rejectAll
  obtain ⟨w', response, hrun, hout, hok, hover⟩ := exists_login_backlog 1001
  have hrange : ∀ i ∈ [0, 1, 1000], i < 1001 := by decide
  have hother : ∀ i ∈ [0, 1, 1000],
      ¬ ((backlogRow i).payload = "a" ∨ (backlogRow i).payload = "x") := by decide
  refine ⟨w', response, hrun, hout, hok, fun i hi =>
    ⟨mem_backlog (hrange i hi), unacked_backlogRow i, fun texts htexts hmem => hother i hi ?_⟩⟩
  exact mem_handedOverTexts_backlog (hover.mem_texts htexts hmem)

end ChatCluster
