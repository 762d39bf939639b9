import ChatCluster.WakeUpContract
import ChatCluster.OfflineSync

/-!
# No lost wake-up

A message that is stored while its receiver logs in reaches the new session. The
sender that finds the user neither in its map nor online has looked before the login
wrote `online`, and the login reads the stored messages only after that.
-/
namespace ChatCluster
open CommandProgram Interleaving

/-- Commands of which the contract asks nothing for user `u`. -/
def Command.Plain (u : ℤ) : Command → Prop
  | .sql (.insertMessage _ _ id _ _ _) => id ≠ u
  | .sql (.selectUnacked id _) => id ≠ u
  | .sendTo _ s => confirmedUser? s ≠ some u
  | _ => True

theorem Command.Plain.may {u : ℤ} {q : Command} (h : q.Plain u) (c : Conn) (j : Job)
    (v : ClusterView) : WakeUpMay u c j v q := by
  cases q with
  | sql q =>
      cases q with
      | insertMessage | selectUnacked => exact fun hid => absurd hid h
      | _ => trivial
  | sendTo d s => exact fun hs => absurd hs h
  | _ => trivial

theorem Command.Plain.not_incurs {u : ℤ} {q : Command} (h : q.Plain u) (c : Conn) (a : Agent)
    (j : Job) (r : Response q) : ¬ Incurs u c a (.did j q r) := by
  cases q with
  | sql q =>
      cases q with
      | insertMessage => exact fun hi => h hi.2
      | selectUnacked => exact fun hi => h hi.2
      | _ => exact id
  | _ => exact id

theorem plain_sendTo {u : ℤ} {s : Sent} (h : confirmedUser? s = none) (conn : Conn) :
    (Command.sendTo conn s).Plain u := fun hs => by
  rw [h] at hs
  cases hs

theorem Command.Unrelated.plain {u : ℤ} {q : Command} (h : q.Unrelated) : q.Plain u := by
  obtain ⟨q, rfl, -, hq, -⟩ := h
  cases q with
  | insertMessage | selectUnacked => exact absurd trivial hq
  | _ => trivial

theorem Command.OfContacts.plain {u : ℤ} {q : Command} (h : q.OfContacts) : q.Plain u := by
  cases h with
  | unrelated q hq => exact hq.plain
  | insertUser | check => trivial
  | answer conn response t ht hor =>
      refine plain_sendTo (confirmedUser?_of_msgType ht ?_) conn
      rcases hor with rfl | rfl <;> decide

theorem Command.OfTeardown.plain {u : ℤ} {P : ℤ → Prop} {q : Command} (h : q.OfTeardown P) :
    q.Plain u := by
  cases h <;> trivial

theorem Command.OfDelivery.plain {u : ℤ} {q : Command}
    (h : q.OfDelivery (fun _ id _ => id ≠ u) fun s => confirmedUser? s = none) : q.Plain u := by
  cases h with
  | insert _ _ receiverid _ _ _ hreceiver => exact hreceiver
  | send conn s hs => exact plain_sendTo hs conn
  | _ => trivial

theorem plain_generateMessageId {u : ℤ} : generateMessageId.All (Command.Plain u) :=
  ofDelivery_generateMessageId.mono fun _ => Command.OfDelivery.plain

theorem plain_login {u : ℤ} {conn : Conn} {js : Json} (hid : getInt js "id" ≠ some u) :
    (login conn js).All (Command.Plain u) := by
  refine (ofLogin_other hid).mono fun q hq => ?_
  cases hq with
  | read id h => exact fun e => hid (e ▸ h)
  | unrelated q hq => exact hq.plain
  | answer response h => exact h
  | _ => trivial

/-- What a login makes of the rows it has read. -/
def storedMessages (rows : List MessageRow) : List StoredMessage :=
  rows.map fun r => ⟨r.messageId, cStr r.payload, r.status⟩

/-- The answer confirms the login of `u` and lists the texts of the rows. -/
def Reports (u : ℤ) (rows : List MessageRow) (response : Json) : Prop :=
  confirmedUser? (.json response) = some u ∧ ∀ r ∈ rows, cStr r.payload ≠ "" →
    ∃ texts, response.find? "offlinemsg" = some (Json.strings texts) ∧ cStr r.payload ∈ texts

theorem reports_loginResponse {user : User} {u : ℤ} (huser : user.id = u)
    (hu : INT_MIN ≤ u ∧ u ≤ INT_MAX) {rows : List MessageRow} {legacy : List String}
    (userVec : List User) (groupuserVec : List Group) :
    Reports u rows (loginResponse user (((storedMessages rows).filter fun m =>
      m.payload ≠ "").map StoredMessage.payload ++ legacy) userVec groupuserVec) := by
  subst huser
  refine ⟨confirmedUser?_loginResponse hu.1 hu.2 _ _ _, fun r hr htext => ?_⟩
  have hmem : cStr r.payload ∈ ((storedMessages rows).filter fun m =>
      m.payload ≠ "").map StoredMessage.payload ++ legacy := by
    refine List.mem_append_left _ (List.mem_map_of_mem (List.mem_filter.mpr
      ⟨List.mem_map_of_mem hr, ?_⟩))
    exact decide_eq_true htext
  refine ⟨_, ?_, hmem⟩
  rw [offlinemsg_loginResponse, if_neg (List.ne_nil_of_mem hmem)]

section Outlines
variable [JsonParser] {u : ℤ} {c : Conn} {j : Job} {v v' : ClusterView} {debt : Debt}

/-- Assertions that every move of the runs considered keeps. -/
def Persistent (u : ℤ) (c : Conn) (P : ClusterView → Prop) : Prop :=
  ∀ v e v', Moves (wakeUpCluster u c) v e v' → P v → P v'

theorem Persistent.stable {P : ClusterView → Prop} (hP : Persistent u c P) {a : Agent} :
    Stable (wakeUpCluster u c) (wakeUpContract u c) a P :=
  fun v v' ⟨_, _, e, _, hm, _⟩ h => hP v e v' hm h

theorem persistent_true : Persistent u c fun _ => True := fun _ _ _ _ _ => trivial

/-- The rule for a plain command. -/
theorem outline_act {α : Type} {P : ClusterView → Prop} (hP : Persistent u c P) {q : Command}
    (hq : q.Plain u) {k : Response q → Program α} {Q : α → ClusterView → Prop}
    (hv : Paid u c j.agent debt v ∧ P v)
    (h : ∀ r w w', Moves (wakeUpCluster u c) w (.did j q r) w' → WakeUpInv u c w → P w →
      Paid u c j.agent debt w' ∧ P w' →
        Outline (wakeUpCluster u c) (wakeUpContract u c) j (k r) Q w') :
    Outline (wakeUpCluster u c) (wakeUpContract u c) j (.act q k) Q v :=
  .act (stable_paid.and hP.stable) hv fun w hw hinv => ⟨hq.may c j w, fun r w' hm _ =>
    h r w w' hm hinv hw.2 ⟨paid_moves hm (hq.not_incurs c _ j r) hw.1, hP _ _ _ hm hw.2⟩⟩

/-- The rule for a plain program. -/
theorem outline_plain {α : Type} {P : ClusterView → Prop} (hP : Persistent u c P)
    {prog : Program α} (hprog : prog.All (Command.Plain u)) {T : α → Prop} (ht : prog.Returns T)
    {Q : α → ClusterView → Prop}
    (hQ : ∀ x w, T x → Paid u c j.agent debt w ∧ P w → Q x w)
    (hv : Paid u c j.agent debt v ∧ P v) :
    Outline (wakeUpCluster u c) (wakeUpContract u c) j prog Q v :=
  .of_all (stable_paid.and hP.stable) (fun w _ hq _ _ => hq.may c j w)
    (fun _ _ _ _ hq hw _ hm =>
      ⟨paid_moves hm (hq.not_incurs c _ j _) hw.1, hP _ _ _ hm hw.2⟩) hprog ht hQ hv

theorem outline_paid {α : Type} {prog : Program α} (hprog : prog.All (Command.Plain u))
    (hv : Paid u c j.agent debt v) :
    Outline (wakeUpCluster u c) (wakeUpContract u c) j prog
      (fun _ w => Paid u c j.agent debt w) v :=
  outline_plain persistent_true hprog (Prog.returns_true _) (fun _ _ _ hw => hw.1) ⟨hv, trivial⟩

/-! ## The sender -/

/-- The message with this text is stored for `u`. -/
def Kept (u : ℤ) (text : String) (v : ClusterView) : Prop :=
  ∃ r ∈ v.state.db.chatMessage.rows, r.Unacked u ∧ r.payload = text

theorem persistent_kept (text : String) : Persistent u c (Kept u text) := by
  rintro v e v' hm ⟨r, hr, hunacked, htext⟩
  obtain ⟨r', hr', hpersists, hunacked'⟩ := unacked_moves hm hr hunacked
  exact ⟨r', hr', hunacked', hpersists.payload.trans htext⟩

theorem persistent_established :
    Persistent u c fun v => (phase u .free v.past).established = some c :=
  fun _ _ _ => established_moves

theorem persistent_binding :
    Persistent u c fun v => (phase u .free v.past).binding = some c :=
  fun _ _ _ => binding_moves

theorem kept_of_insert {messageid senderid groupid msgtype : ℤ} {text : String}
    (hm : Moves (wakeUpCluster u c) v (.did j (.sql (.insertMessage messageid senderid u
      groupid msgtype text)) true) v') : Kept u text v' := by
  obtain ⟨o, -, ho⟩ := exec_of_moves hm
  exact ⟨_, newMessage_exec ho,
    ⟨rfl, (by decide : MessageStatus.created < MessageStatus.acked)⟩, rfl⟩

/-- Whoever finds an entry of `u` has found `c`. -/
theorem eq_of_mapFind (hinv : WakeUpInv u c v) {receiver : Conn}
    (hm : Moves (wakeUpCluster u c) v (.did j (.node (.mapFind u)) (some receiver)) v') :
    receiver = c := by
  have hbound := (bound_of_mapFind hm.of_restrict.1).2
  exact hinv.opening.binding (((phaseHolds_of_moves hm).bound _ _).mp hbound).1

theorem live_of_sendTo {s : Sent} {r : Unit}
    (hm : Moves (wakeUpCluster u c) v (.did j (.sendTo c s) r) v') : s ∈ v'.state.out c := by
  obtain ⟨o, -, ho⟩ := exec_of_moves hm
  rw [exec_sendTo ho]
  exact World.mem_emit.mpr (.inr ⟨rfl, rfl⟩)

/-- A user who is found online has an established session on `c`; otherwise no login
has read the stored messages yet. -/
theorem state_of_selectUser (hinv : WakeUpInv u c v) {row : Option UserRow}
    (hm : Moves (wakeUpCluster u c) v (.did j (.sql (.selectUser u)) row) v') :
    if (User.ofRow row).state = .online then (phase u .free v.past).established = some c
    else ¬ Queried u v.past := by
  obtain ⟨o, hok, ho⟩ := exec_of_moves hm
  obtain ⟨hrow, -⟩ := exec_sql ho
  rw [hok not_false] at hrow
  obtain ⟨r, hr, hst⟩ := (phaseHolds_of_moves hm).row
  obtain rfl : row = some r := hrow.trans hr
  split_ifs with honline
  · exact hinv.opening.established (hst.symm.trans honline)
  · intro hqueried
    exact honline (hst.trans (Phase.online_of_established (hinv.queried hqueried)))

theorem arrived_of_publish {text : String} {r : Bool} (htext : cStr text = text)
    (hestablished : (phase u .free v.past).established = some c)
    (hm : Moves (wakeUpCluster u c) v (.did j (.redisPublish u text) r) v') :
    Arrived u c v' text := by
  obtain ⟨o, hok, ho⟩ := exec_of_moves hm
  have hsub : u ∈ (v.state.node c.node).subscriptions :=
    (phaseHolds_of_moves hm).established trivial c hestablished
  simp only [exec, hok not_false, if_true] at ho
  refine .inl ⟨?_, binding_moves hm (Phase.binding_of_established hestablished)⟩
  rw [← (Prod.mk.inj (Option.some.inj ho)).2, World.inbox_publish, htext, if_pos hsub]
  exact List.mem_append_right _ List.mem_cons_self

/-- A sender that has found `u` in its map hands the message to `c`. -/
theorem outline_handOver (messageid : ℤ) {js : Json} (hjs : confirmedUser? (.json js) = none)
    (hv : Paid u c j.agent (.cover js.dump) v) :
    Outline (wakeUpCluster u c) (wakeUpContract u c) j (do
        sendJson c js
        let _ ← MessageModel.markDelivered messageid u
        node .unlockConnMutex) (fun _ w => Paid u c j.agent .none w) v := by
  refine outline_act persistent_true (plain_sendTo hjs c) ⟨hv, trivial⟩
    fun _ w w₁ hm _ _ hw₁ => ?_
  have hlive : Live c w₁.state js.dump := .inl ⟨js, live_of_sendTo hm, rfl⟩
  exact outline_paid ⟨trivial, fun _ => ⟨trivial, fun _ => trivial⟩⟩ (hw₁.1.settle (.inl hlive))

/-- A sender that has not found `u` in its map looks into the user table. If `u` is not
online there, the login that makes it so has not read the stored messages yet. -/
theorem outline_wakeUp {js : Json}
    (hv : Paid u c j.agent (.cover js.dump) v ∧ Kept u js.dump v) :
    Outline (wakeUpCluster u c) (wakeUpContract u c) j (do
        let user ← UserModel.query u
        if user.state = .online then
          if ← redisIsConnected then
            let _ ← publish u js.dump) (fun _ w => Paid u c j.agent .none w) v := by
  refine outline_act (persistent_kept _) (by trivial) hv fun row w w₁ hm hinv hkept hw₁ => ?_
  have hstate := state_of_selectUser hinv hm
  change Outline _ _ j (if (User.ofRow row).state = .online then _ else _) _ w₁
  split_ifs at hstate ⊢
  · refine outline_act persistent_established (by trivial) ⟨hw₁.1, established_moves hm hstate⟩
      fun connected w₂ w₃ hm₂ _ _ hw₃ => ?_
    obtain rfl : connected = true :=
      redisIsConnected_of_moves trivial hm₂.of_restrict.2.1 hm₂.of_restrict.1
    refine outline_act persistent_established (by trivial) hw₃ fun _ w₄ w₅ hm₃ _ hw₄ hw₅ => .ret ?_
    exact hw₅.1.settle (.inr (.inl (arrived_of_publish (cStr_dump js) hw₄ hm₃)))
  · have hbacklogged : Backlogged u w js.dump :=
      ⟨hkept, fun i rows hmem => (hstate ⟨i, rows, hmem⟩).elim⟩
    exact .ret (hw₁.1.settle (covered_moves hm (.inr (.inr (.inl hbacklogged)))))

theorem outline_persist (messageid senderid groupid : ℤ) (msgtype : EnMsgType) {js : Json}
    (hjs : js.IsObject) (hconf : confirmedUser? (.json js) = none)
    (hv : Paid u c j.agent .none v) :
    Outline (wakeUpCluster u c) (wakeUpContract u c) j
      (persistAndDeliver messageid senderid u groupid msgtype js)
      (fun _ w => Paid u c j.agent .none w) v := by
  refine .act stable_paid hv fun w hw _ => ⟨fun _ => ⟨js, hjs, rfl⟩, fun inserted w₁ hm _ => ?_⟩
  cases inserted with
  | false => exact .ret (paid_incur hm hw (fun _ _ _ _ _ _ _ he => by cases he) nofun nofun)
  | true =>
      have hw₁ : Paid u c j.agent (.cover js.dump) w₁ :=
        paid_incur hm hw (fun _ _ _ _ _ _ _ he => by cases he; rfl) nofun nofun
      refine outline_act (persistent_kept _) (by trivial) ⟨hw₁, kept_of_insert hm⟩
        fun _ _ w₃ _ _ _ hw₃ => ?_
      refine outline_act (persistent_kept _) (by trivial) hw₃ fun found _ w₅ hm₅ hinv _ hw₅ => ?_
      cases found with
      | some receiver =>
          obtain rfl := eq_of_mapFind hinv hm₅
          exact outline_handOver messageid hconf hw₅.1
      | none =>
          exact outline_act (persistent_kept _) (by trivial) hw₅ fun _ _ _ _ _ _ hw₆ =>
            outline_wakeUp hw₆

theorem outline_deliver (messageid senderid receiverid groupid : ℤ) (msgtype : EnMsgType)
    {js : Json} (hjs : js.IsObject) (hconf : confirmedUser? (.json js) = none)
    (hv : Paid u c j.agent .none v) :
    Outline (wakeUpCluster u c) (wakeUpContract u c) j
      (persistAndDeliver messageid senderid receiverid groupid msgtype js)
      (fun _ w => Paid u c j.agent .none w) v := by
  by_cases hu : receiverid = u
  · subst hu
    exact outline_persist messageid senderid groupid msgtype hjs hconf hv
  · exact outline_paid ((ofDelivery_persistAndDeliver messageid senderid receiverid groupid msgtype
      hu hconf).mono fun _ => Command.OfDelivery.plain) hv

/-- The handlers leave their loop without debts. -/
theorem outline_sendOne {conn : Conn} {js : Json} (hmsg : msgType? js = some .oneChatMsg)
    (hv : Paid u c j.agent .none v) :
    Outline (wakeUpCluster u c) (wakeUpContract u c) j (oneChat conn js)
      (fun _ w => Paid u c j.agent .none w) v := by
  unfold oneChat
  split
  · next fromid toid _ hid _ _ =>
    refine outline_act persistent_true (by trivial) ⟨hv, trivial⟩ fun bound _ w₁ _ _ _ hw₁ => ?_
    cases bound with
    | false => exact .ret hw₁.1
    | true =>
        change Outline _ _ j (generateMessageId >>= _) _ w₁
        refine .bind ((outline_paid plain_generateMessageId hw₁.1).mono fun messageid w₂ hw₂ => ?_)
        refine outline_deliver messageid fromid toid 0 .oneChatMsg ?_ ?_ hw₂
        · exact Json.isObject_set (Json.isObject_set (isObject_of_getInt hid) _ _) _ _
        · exact confirmedUser?_of_msgType ((msgType?_stampOneChat js _).trans hmsg) (by decide)
  · exact .ret hv

theorem outline_sendMany {conn : Conn} {js : Json} (hmsg : msgType? js = some .groupChatMsg)
    (hv : Paid u c j.agent .none v) :
    Outline (wakeUpCluster u c) (wakeUpContract u c) j (groupChat conn js)
      (fun _ w => Paid u c j.agent .none w) v := by
  unfold groupChat
  split
  · next userid groupid _ hid _ _ =>
    refine outline_act persistent_true (by trivial) ⟨hv, trivial⟩ fun bound _ w₁ _ _ _ hw₁ => ?_
    cases bound with
    | false => exact .ret hw₁.1
    | true =>
        refine outline_act persistent_true (by trivial) hw₁ fun members _ w₂ _ _ _ hw₂ => ?_
        refine .forM (P := Paid u c j.agent .none) (fun id _ w₃ hw₃ => ?_) hw₂.1
        refine .bind ((outline_paid plain_generateMessageId hw₃).mono fun messageid w₄ hw₄ => ?_)
        refine outline_deliver messageid userid id groupid .groupChatMsg ?_ ?_ hw₄
        · exact Json.isObject_set (Json.isObject_set (Json.isObject_set
            (isObject_of_getInt hid) _ _) _ _) _ _
        · exact confirmedUser?_of_msgType ((msgType?_stampGroupChat js _ id).trans hmsg) (by decide)
  · exact .ret hv

/-! ## The observer -/

/-- What the observer has taken up it hands to `c`, which it finds bound. -/
theorem outline_passOn {text : String} (hj : j.agent = .observer c.node)
    (hv : Paid u c j.agent (.pass text) v ∧ (phase u .free v.past).binding = some c) :
    Outline (wakeUpCluster u c) (wakeUpContract u c) j (handleRedisSubscribeMessage u text)
      (fun _ w => Paid u c j.agent .none w) v := by
  refine outline_act persistent_binding (by trivial) hv fun _ _ w₁ _ _ _ hw₁ => ?_
  refine outline_act persistent_binding (by trivial) hw₁ fun found w₂ w₃ hm _ hbinding hw₃ => ?_
  have hfound := (bound_of_mapFind hm.of_restrict.1).2
  rw [hj] at hfound
  obtain rfl : found = some c :=
    hfound.symm.trans (((phaseHolds_of_moves hm).bound _ _).mpr ⟨hbinding, rfl⟩)
  refine outline_act persistent_binding (plain_sendTo rfl c) hw₃ fun _ _ w₄ hm₄ _ _ hw₄ => ?_
  have hlive : Live c w₄.state text := .inr (live_of_sendTo hm₄)
  refine outline_paid ?_ (hw₄.1.settle hlive)
  change (do
    if 0 < ((JsonParser.parse text).bind fun js => getLongLong js "messageid").getD 0 then
      let _ ← MessageModel.markDelivered
        (((JsonParser.parse text).bind fun js => getLongLong js "messageid").getD 0) u
    node .unlockConnMutex : Program Unit).All _
  split_ifs
  · exact ⟨trivial, fun _ => ⟨trivial, fun _ => trivial⟩⟩
  · exact ⟨trivial, fun _ => trivial⟩

/-! ## The login -/

theorem established_of_online {id : ℤ} {r : Bool} (hj : j.agent = .io c) (hid : id = u)
    (hm : Moves (wakeUpCluster u c) v (.did j (.sql (.updateUserState id .online)) r) v') :
    (phase u .free v'.past).established = some c := by
  subst hid
  obtain ⟨hm, -, hp⟩ := hm.of_restrict
  obtain ⟨d, hd, hphase, -⟩ := hp rfl
  obtain rfl := Agent.io.inj (hj.symm.trans hd)
  rw [phase_did hm, hphase]
  exact congrArg Phase.established (if_pos rfl)

theorem outline_establish (hj : j.agent = .io c) {user : User} (huser : user.id = u)
    (hv : Paid u c j.agent .none v) :
    Outline (wakeUpCluster u c) (wakeUpContract u c) j (openSession c u user)
      (fun _ w => Paid u c j.agent .none w ∧ (phase u .free w.past).established = some c) v := by
  have hsubscribe : (trySubscribe u).All (Command.Plain u) := by
    refine Prog.All.bind ⟨trivial, fun _ => trivial⟩ fun connected => ?_
    split_ifs
    · exact ⟨trivial, fun _ => trivial⟩
    · trivial
  refine outline_act persistent_true (by trivial) ⟨hv, trivial⟩ fun _ _ w₁ _ _ _ hw₁ => ?_
  change Outline _ _ j (trySubscribe u >>= _) _ w₁
  refine .bind ((outline_paid hsubscribe hw₁.1).mono fun _ w₂ hw₂ => ?_)
  refine outline_act persistent_true (by trivial) ⟨hw₂, trivial⟩ fun _ _ w₃ hm _ _ hw₃ =>
    .ret ⟨hw₃.1, established_of_online hj huser hm⟩

theorem persistent_queried : Persistent u c fun v => Queried u v.past :=
  fun _ _ _ => queried_mono

/-- The login reads what is stored and answers with it. -/
theorem outline_sync (hj : j.agent = .io c) {user : User} (huser : user.id = u)
    (hu : INT_MIN ≤ u ∧ u ≤ INT_MAX)
    (hv : Paid u c j.agent .none v ∧ (phase u .free v.past).established = some c) :
    Outline (wakeUpCluster u c) (wakeUpContract u c) j (do
        let response ← syncSession u user
        sendJson c response) (fun _ w => Paid u c j.agent .none w) v := by
  refine .act (stable_paid.and persistent_established.stable) hv fun w hw _ =>
    ⟨fun _ => ⟨hj, hw.2⟩, fun (rows : List MessageRow) w₁ hm _ => ?_⟩
  have hw₁ : Paid u c j.agent (.answer rows) w₁ :=
    paid_incur hm hw.1 (fun _ _ _ _ _ _ _ he => by cases he) nofun
      fun _ _ _ he => by cases he; rfl
  have hqueried : Queried u w₁.past := ⟨j, rows, hm.recorded ▸ List.mem_cons_self⟩
  have hreturns : (assembleResponse u user (storedMessages rows)).Returns (Reports u rows) :=
    returns_assembleResponse fun _ => reports_loginResponse huser hu
  refine .bind (outline_plain persistent_queried
    (all_assembleResponse (fun _ => trivial) fun _ hq => hq.unrelated.plain) hreturns
    (fun response w₂ hresponse hw₂ => ?_) ⟨hw₁, hqueried⟩)
  refine .act (stable_paid.and persistent_queried.stable) hw₂ fun w₃ hw₃ _ =>
    ⟨fun _ => hw₃.2, fun _ w₄ hm₄ _ => .ret ?_⟩
  refine (paid_moves hm₄ id hw₃.1).settle fun r hr htext => ?_
  obtain ⟨texts, hfind, hmem⟩ := hresponse.2 r hr htext
  exact ⟨response, texts, live_of_sendTo hm₄, hresponse.1, hfind, hmem⟩

theorem outline_logIn {conn : Conn} {js : Json} {time : String}
    (hmsg : msgType? js = some .loginMsg) (hv : Paid u c (.io conn) .none v) :
    Outline (wakeUpCluster u c) (wakeUpContract u c) (.frame conn js time) (login conn js)
      (fun _ w => Paid u c (.io conn) .none w) v := by
  have hrefused : ∀ {errno errmsg}, errno = 1 ∨ errno = 2 →
      (sendJson conn (errorResponse .loginMsgAck errno errmsg)).All (Command.Plain u) := fun h =>
    ⟨plain_sendTo (confirmedUser?_errorResponse h _ _) conn, fun _ => trivial⟩
  by_cases hid : getInt js "id" = some u
  · cases hpwd : getString js "password" with
    | none =>
        rw [login, hid, hpwd]
        exact outline_paid (hrefused (.inl rfl)) hv
    | some pwd =>
        rw [login_eq hid hpwd]
        refine outline_act persistent_true (by trivial) ⟨hv, trivial⟩ fun row w w₁ hm _ _ hw₁ => ?_
        change Outline _ _ _ (if (User.ofRow row).id = u ∧ (User.ofRow row).pwd = pwd then
          if (User.ofRow row).state = .online then _ else _ else _) _ w₁
        split_ifs with hmatch honline
        · exact outline_paid (hrefused (.inr rfl)) hw₁.1
        · have hpasses : loginPasses u js row = true :=
            decide_eq_true ⟨hmsg, hid, by rw [hpwd, hmatch.2], hmatch.1, honline⟩
          obtain rfl : conn = c := of_decide_eq_true (entry_of_moves hm) rfl conn (if_pos hpasses)
          refine .bind ((outline_establish (j := .frame conn js time) rfl hmatch.1 hw₁.1).mono
            fun _ w₂ hw₂ => ?_)
          exact outline_sync (j := .frame conn js time) rfl hmatch.1 (getInt_range hid) hw₂
        · exact outline_paid (hrefused (.inl rfl)) hw₁.1
  · exact outline_paid (plain_login hid) hv

/-! ## All jobs -/

theorem outline_answer {conn : Conn} {js : Json} {time : String}
    (hv : Paid u c (.io conn) .none v) :
    Outline (wakeUpCluster u c) (wakeUpContract u c) (.frame conn js time)
      (onMessage conn js time) (fun _ w => Paid u c (.io conn) .none w) v := by
  apply onMessage_handlers (T := fun p =>
    Outline (wakeUpCluster u c) (wakeUpContract u c) (.frame conn js time) p
      (fun _ w => Paid u c (.io conn) .none w) v)
  · exact fun hmsg => outline_logIn hmsg hv
  · exact fun _ hp => outline_paid (hp.mono fun _ => Command.OfTeardown.plain) hv
  · exact fun p hp => outline_paid (hp.mono fun _ => Command.OfContacts.plain) hv
  · exact fun hmsg => outline_sendOne hmsg hv
  · exact fun hmsg => outline_sendMany hmsg hv
  · exact fun _ => outline_paid (ofDelivery_messageAck.mono fun _ => Command.OfDelivery.plain) hv

/-- An observer that takes up a message for `u` owes it to `c`, if `u` is bound. -/
theorem outline_observe {n : ℕ} {channel : ℤ} {message : String}
    (hv : Paid u c (.observer n) .none v)
    (hm : Moves (wakeUpCluster u c) v (.started (.redisMessage n channel message)) v') :
    Outline (wakeUpCluster u c) (wakeUpContract u c) (.redisMessage n channel message)
      (handleRedisSubscribeMessage channel message)
      (fun _ w => Paid u c (.observer n) .none w) v' := by
  by_cases hpass : (n = c.node ∧ channel = u) ∧ (phase u .free v.past).binding = some c
  · obtain ⟨⟨rfl, rfl⟩, hbinding⟩ := hpass
    have hv' : Paid channel c (.observer c.node) (.pass message) v' :=
      paid_incur hm hv nofun (fun _ _ he _ => by cases he; rfl) nofun
    exact outline_passOn (j := .redisMessage c.node channel message) rfl
      ⟨hv', binding_moves hm hbinding⟩
  · have hv' : Paid u c (.observer n) .none v' := by
      refine paid_incur hm hv nofun (fun text _ he hbinding => (hpass ⟨?_, hbinding⟩).elim) nofun
      cases he
      exact ⟨rfl, rfl⟩
    exact outline_paid ((ofDelivery_handleRedisSubscribeMessage
      (P := fun s => confirmedUser? s = none) channel rfl).mono fun _ =>
        Command.OfDelivery.plain) hv'

/-- Every agent comes to rest without debts. -/
theorem wakeUp_verified : Verified (wakeUpCluster u c) (wakeUpContract u c)
    fun a _ => Paid u c a .none where
  stable _ _ := stable_paid
  kept _ _ _ := wakeUpContract_kept
  abandoned _ _ _ _ hm _ := (entry_of_moves hm).elim
  outline j _ v v' _ hpost hm _ := by
    cases j with
    | frame conn js time =>
        exact outline_answer (paid_moves hm (fun ⟨_, _, he⟩ => nomatch he) hpost)
    | close conn =>
        refine outline_paid (all_clientCloseException trivial fun _ =>
          Command.OfTeardown.plain) (paid_moves hm (fun ⟨_, _, he⟩ => nomatch he) hpost)
    | redisMessage n channel message => exact outline_observe hpost hm
    | sigint n => exact (entry_of_moves hm).elim

end Outlines

/-! ## No lost wake-up -/

theorem SignedOff.phaseHolds {u : ℤ} {w : World} {R : Prop} (h : SignedOff u w)
    (hredis : ∀ n, (w.node n).redisConnected = true) : PhaseHolds u R .free w where
  row := by
    obtain ⟨r, hr, hst⟩ := Option.map_eq_some_iff.mp h.offline
    exact ⟨r, hr, hst⟩
  bound n d := by
    rw [h.unbound]
    exact ⟨nofun, fun ⟨hd, _⟩ => nomatch hd⟩
  subscriber _ n hn := absurd hn (h.unsubscribed n)
  established _ d hd := nomatch hd
  redis _ := hredis

/-- The message has been handed to `c`: as a frame of its own, or in the confirmation of
the login of `u`. -/
def HandedTo (u : ℤ) (c : Conn) (w : World) (text : String) : Prop :=
  Live c w text ∨ ∃ response texts, .json response ∈ w.out c ∧
    confirmedUser? (.json response) = some u ∧
    response.find? "offlinemsg" = some (Json.strings texts) ∧ text ∈ texts

section Rest
variable [JsonParser] {u : ℤ} {c : Conn} {w : World} {es : List ClusterEntry}
  {x : Config World Job Agent Command Response}

theorem wakeUp_initial : ConfigOk (wakeUpCluster u c) (wakeUpContract u c)
    (fun a _ => Paid u c a .none) (Config.initial w) := by
  refine .initial ⟨trivial, fun ⟨_, _, hmem⟩ => (nomatch hmem), nofun, nofun⟩ fun a => ⟨nofun, ?_, nofun⟩
  rintro text - ⟨later, earlier, hpast, -⟩
  cases later <;> cases hpast

theorem run_restrict (hu : w.db.Registered u) (hoff : SignedOff u w)
    (hredis : ∀ n, (w.node n).redisConnected = true)
    (hrun : Steps (cluster .storeMayFail (WakeUp u c)) (Config.initial w) es x) :
    Steps (wakeUpCluster u c) (Config.initial w) es x := by
  have hpos : u ≠ -1 := fun e => absurd (e ▸ hu.1) (by decide)
  have hverified := session_verified (wakeUp_rules u c) hpos
  have hinitial : ConfigOk (cluster .storeMayFail (WakeUp u c)) (sessionContract u .free True)
      (AtRest u .free) (Config.initial w) :=
    .initial (hoff.phaseHolds hredis) fun a conn _ =>
      ⟨(Option.some_ne_none conn).symm, fun _ h => (nomatch h)⟩
  exact hverified.restrict hrun hinitial

/-- Chat messages to a user who logs in on `c` meanwhile, in any interleaving with it and
with everything else that leaves the user's session alone. When all handlers have come to
rest and what was published has been taken up, every message that has been stored has
been handed to `c`. -/
theorem no_lost_wake_up (hu : w.db.Registered u) (hoff : SignedOff u w)
    (hredis : ∀ n, (w.node n).redisConnected = true)
    (hrun : Steps (cluster .storeMayFail (WakeUp u c)) (Config.initial w) es x)
    (hidle : ∀ a, (x.slot a).Idle)
    (hconsumed : ∀ m ∈ (x.view.state.node c.node).inbox, m.1 ≠ u)
    (hlogin : Confirmed u c x.view.past) (hlimit : ¬ Overflow u x.view.state.db)
    {j : Job} {messageid senderid groupid msgtype : ℤ} {text : String}
    (hstored : .did j (.sql (.insertMessage messageid senderid u groupid msgtype text)) true ∈
      x.view.past) : HandedTo u c x.view.state text := by
  have hx := wakeUp_verified.sound (run_restrict hu hoff hredis hrun) wakeUp_initial
  obtain ⟨i, s, hmem, hs⟩ := hlogin
  have hqueried := hx.inv.answered i c s hmem hs
  obtain hnone | hcovered := (hx.at_rest hidle j.agent).covered _ _ _ _ _ _ rfl hstored
  · cases hnone
  obtain hlive | harrived | hbacklogged | hover := hcovered
  · exact .inl hlive
  · -- what has reached the node is not waiting there any more
    have htaken := harrived.resolve_left fun ⟨hwaits, _⟩ => hconsumed _ hwaits rfl
    exact .inl (((hx.at_rest hidle (.observer c.node)).passed text rfl htaken).resolve_left nofun)
  · -- the login has read it, and so it has answered with it
    obtain ⟨i', rows, hread⟩ := hqueried
    obtain ⟨r, hr, rfl⟩ := hbacklogged.read i' rows hread
    obtain ⟨js, -, htext⟩ := hx.inv.texts _ _ _ _ _ _ _ hstored
    have hcStr : cStr r.payload = r.payload := by rw [htext, cStr_dump]
    have hanswered := ((hx.at_rest hidle (.io c)).answered i' rows rfl hread).resolve_left nofun
    refine .inr (hcStr ▸ hanswered r hr ?_)
    rw [hcStr, htext]
    exact Json.dump_ne_empty _
  · exact absurd hover hlimit

end Rest

/-- The entry answers a login of `u` with success. -/
def confirms (u : ℤ) (c : Conn) : ClusterEntry → Bool
  | .did _ (.sendTo d s) _ => decide (d = c ∧ confirmedUser? s = some u)
  | _ => false

theorem confirmed_of_confirms {u : ℤ} {c : Conn} {past : List ClusterEntry}
    (h : past.any (confirms u c) = true) : Confirmed u c past := by
  obtain ⟨e, hmem, he⟩ := List.any_eq_true.mp h
  unfold confirms at he
  split at he
  · next j d s _ =>
    obtain ⟨rfl, hs⟩ := of_decide_eq_true he
    exact ⟨j, s, hmem, hs⟩
  · cases he

/-- User `2` writes to user `1`, and has looked for the receiver when the login of user
`1` subscribes and writes `online`. -/
theorem no_lost_wake_up_offline : letI := Cluster.rejectAll
    ∃ es x j messageid senderid groupid msgtype text,
      Steps (cluster .storeMayFail (WakeUp 1 ⟨0, 0⟩))
        (Config.initial (World.fresh (Statement.registered [("ann", "pw"), ("bob", "pw")]))) es x ∧
      .did j (.sql (.insertMessage messageid senderid 1 groupid msgtype text)) true ∈
        x.view.past ∧ HandedTo 1 ⟨0, 0⟩ x.view.state text := by
  let _ := Cluster.rejectAll
  let P := Cluster.replayer .storeMayFail (WakeUp 1 ⟨0, 0⟩)
    (fun v e => decide (∀ f ∈ e :: v.past, WakeUpEntry 1 ⟨0, 0⟩ f)) fun _ _ => of_decide_eq_true
  let acts (conn : Conn) (n : ℕ) : List (Cue Job Agent Choice) :=
    List.replicate n (.act (.io conn) {})
  let cues : List (Cue Job Agent Choice) :=
    [.start (.frame ⟨1, 0⟩ (Client.loginRequest 2 "pw") "")] ++ acts ⟨1, 0⟩ 10 ++
    [.start (.frame ⟨1, 0⟩ (Client.chatRequest 2 "bob" 1 "hi" "now") "")] ++ acts ⟨1, 0⟩ 8 ++
    [.start (.frame ⟨0, 0⟩ (Client.loginRequest 1 "pw") "")] ++ acts ⟨0, 0⟩ 4 ++
    acts ⟨1, 0⟩ 1 ++ acts ⟨0, 0⟩ 7
  obtain ⟨es, x, hrun, hidle, hx⟩ := P.exists_steps_idle
    (x := Config.initial (World.fresh (Statement.registered [("ann", "pw"), ("bob", "pw")])))
    (fun _ => trivial) cues
    (p := fun x => (x.view.state.node 0).inbox = [] ∧ x.view.past.any (confirms 1 ⟨0, 0⟩) ∧
      (x.view.state.db.chatMessage.select fun r => r.Unacked 1).length ≤ 1000 ∧
      anyStored (fun _ id => id = 1) x.view.past) (by decide +kernel)
  obtain ⟨hinbox, hconfirms, hlimit, hstores⟩ := of_decide_eq_true hx
  obtain ⟨j, messageid, senderid, id, groupid, msgtype, text, hid, hstored⟩ :=
    exists_of_anyStored hstores
  obtain rfl := of_decide_eq_true hid
  refine ⟨es, x, j, messageid, senderid, groupid, msgtype, text, hrun, hstored, ?_⟩
  refine no_lost_wake_up ⟨by decide, _, rfl⟩ ⟨by decide, fun _ => rfl, fun _ => ?_⟩ (fun _ => rfl)
    hrun hidle ?_ (confirmed_of_confirms hconfirms) (Nat.not_lt.mpr hlimit) hstored
  · exact Finset.notMem_empty _
  · rw [hinbox]
    exact nofun

end ChatCluster
