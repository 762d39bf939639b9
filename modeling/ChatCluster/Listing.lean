import ChatCluster.Custody

/-!
# What a login answer lists

`login` marks every stored message before it lists it, and no statement takes a mark back.
So where statements succeed, a text of the answer is that of a row whose status is no
longer `created`, or it comes from the legacy table.
-/
namespace ChatCluster
open CommandProgram Interleaving

/-- Every SQL statement succeeds; anything else may fail or get lost. -/
def Environment.sqlSucceeds : Environment where
  mayFail := fun _ c => ∀ q, c ≠ .sql q
  mayDisturb := Disturbance

/-! ## Rows and single commands -/

/-- What one command may make of a row. -/
inductive MessageRow.Turns (now : ℕ) (r : MessageRow) : Command → MessageRow → Prop
  | stays (c : Command) : Turns now r c r
  | delivered : r.status < MessageStatus.acked →
      Turns now r (.sql (.markDelivered r.messageId r.receiverId)) (r.markDelivered now)
  | acked : Turns now r (.sql (.ackMessage r.messageId r.receiverId)) (r.ack now)

theorem MessageRow.Turns.persists {now : ℕ} {r r' : MessageRow} {c : Command}
    (h : r.Turns now c r') : r.Persists r' := by
  cases h with
  | stays => exact .refl r
  | delivered => exact MessageRow.persists_markDelivered now r
  | acked => exact MessageRow.persists_ack now r

theorem MessageRow.Turns.delivered_le {now : ℕ} {r r' : MessageRow} {c : Command}
    (h : r.Turns now c r') (hr : MessageStatus.delivered ≤ r.status) :
    MessageStatus.delivered ≤ r'.status := by
  cases h with
  | stays => exact hr
  | delivered =>
      simp only [MessageRow.markDelivered]
      split_ifs
      · rfl
      · exact hr
  | acked => exact (by decide : MessageStatus.delivered ≤ MessageStatus.acked)

theorem MessageRow.delivered_le_markDelivered (now : ℕ) (r : MessageRow) :
    MessageStatus.delivered ≤ (r.markDelivered now).status := by
  simp only [MessageRow.markDelivered]
  split_ifs
  · rfl
  · omega

theorem turns_run {q : Statement} {db : Database} {r : MessageRow}
    (hr : r ∈ db.chatMessage.rows) :
    ∃ r' ∈ (q.run db).2.chatMessage.rows, r.Turns db.now (.sql q) r' := by
  by_cases hq : q.WritesMessages
  · cases q with
    | insertMessage messageid senderid receiverid groupid msgtype payload =>
        refine ⟨r, ?_, .stays _⟩
        simp only [Statement.run]
        split
        · next db' hdb => exact (Database.mem_insertMessage hdb).mpr (.inr hr)
        · exact hr
    | markDelivered messageid receiverid =>
        refine ⟨_, Database.mem_markDelivered.mpr ⟨r, hr, rfl⟩, ?_⟩
        split_ifs with hmatch
        · obtain ⟨rfl, rfl, hlt⟩ := hmatch
          exact .delivered hlt
        · exact .stays _
    | ackMessage messageid receiverid =>
        refine ⟨_, Database.mem_ackMessage.mpr ⟨r, hr, rfl⟩, ?_⟩
        split_ifs with hmatch
        · obtain ⟨rfl, rfl⟩ := hmatch
          exact .acked
        · exact .stays _
    | _ => exact hq.elim
  · refine ⟨r, ?_, .stays _⟩
    have hsame : (q.exec true db).2.chatMessage = db.chatMessage := Statement.chatMessage_exec hq
    rw [Statement.exec_true] at hsame
    rwa [hsame]

theorem turns_exec {o : Choice} {a : Agent} {c : Command} {w w' : World} {x : Response c}
    (h : exec o a c w = some (x, w')) {r : MessageRow} (hr : r ∈ w.db.chatMessage.rows) :
    ∃ r' ∈ w'.db.chatMessage.rows, r.Turns w.db.now c r' := by
  cases c with
  | sql q =>
      rw [(exec_sql h).2]
      cases o.ok with
      | false => exact ⟨r, hr, .stays _⟩
      | true => exact turns_run hr
  | _ => exact ⟨r, by rwa [db_exec (fun _ h => by cases h) h], .stays _⟩

/-! ## The contract -/

/-- The text is that of a row that is marked, or one of the legacy table. -/
def Listed (old db : Database) (text : String) : Prop :=
  (∃ r ∈ db.chatMessage.rows, text = cStr r.payload ∧ MessageStatus.delivered ≤ r.status) ∨
    ∃ p ∈ old.offlinemessage, text = cStr p.2

/-- An answer lists such texts only; `old` is the database at the start of the run. -/
def listingContract (old : Database) : Contract World Job Command Response where
  inv v := ∀ p ∈ v.state.db.offlinemessage, p ∈ old.offlinemessage
  may _ v c := ∀ conn response texts, c = .sendTo conn (.json response) →
    (confirmedUser? (.json response)).isSome →
      response.find? "offlinemsg" = some (Json.strings texts) →
        ∀ text ∈ texts, Listed old v.state.db text

/-- A command that confirms no login. -/
def Command.ConfirmsNothing (c : Command) : Prop :=
  ∀ conn s, c = .sendTo conn s → confirmedUser? s = none

theorem Command.ConfirmsNothing.may {old : Database} {c : Command} (h : c.ConfirmsNothing)
    (j : Job) (v : ClusterView) : (listingContract old).may j v c := by
  rintro conn response texts rfl hsome
  rw [h conn _ rfl] at hsome
  cases hsome

theorem confirmsNothing_sql (q : Statement) : (Command.sql q).ConfirmsNothing := by
  rintro conn s ⟨⟩

theorem confirmsNothing_node (q : NodeOp) : (Command.node q).ConfirmsNothing := by
  rintro conn s ⟨⟩

theorem confirmsNothing_sendTo {conn : Conn} {s : Sent} (h : confirmedUser? s = none) :
    (Command.sendTo conn s).ConfirmsNothing := by
  rintro conn' s' ⟨⟩
  exact h

theorem Command.OfContacts.confirmsNothing {c : Command} (h : c.OfContacts) :
    c.ConfirmsNothing := by
  cases h with
  | unrelated c hc =>
      obtain ⟨q, rfl, -⟩ := hc
      exact confirmsNothing_sql q
  | insertUser => exact confirmsNothing_sql _
  | check => exact confirmsNothing_node _
  | answer conn response t ht hor =>
      apply confirmsNothing_sendTo
      apply confirmedUser?_of_msgType ht
      rcases hor with rfl | rfl <;> decide

theorem Command.OfTeardown.confirmsNothing {P : ℤ → Prop} {c : Command} (h : c.OfTeardown P) :
    c.ConfirmsNothing := by
  cases h <;> rintro conn s ⟨⟩

theorem Command.OfDelivery.confirmsNothing {Q : ℤ → ℤ → String → Prop} {c : Command}
    (h : c.OfDelivery Q fun s => confirmedUser? s = none) : c.ConfirmsNothing := by
  cases h with
  | send conn s hs => exact confirmsNothing_sendTo hs
  | _ => rintro conn s ⟨⟩

theorem confirmsNothing_queryContacts (id : ℤ) (k : List User → List Group → Json) :
    (do let userVec ← FriendModel.query id
        let groupuserVec ← GroupModel.queryGroups id
        return k userVec groupuserVec : Program Json).All Command.ConfirmsNothing :=
  Prog.All.bind (p := FriendModel.query id) ⟨confirmsNothing_sql _, fun _ => trivial⟩ fun _ =>
    Prog.All.bind (p := GroupModel.queryGroups id) ⟨confirmsNothing_sql _, fun _ =>
      all_queryMembers (fun _ => confirmsNothing_sql _) _⟩ fun _ => trivial

theorem confirmsNothing_openSession {conn : Conn} {id : ℤ} {user : User} (huser : user.id = id) :
    (openSession conn id user).All Command.ConfirmsNothing := by
  refine (ofLogin_openSession (P := fun _ => False) huser).mono ?_
  intro c hc
  cases hc with
  | answer response hr => exact hr.elim
  | unrelated c hc =>
      obtain ⟨q, rfl, -⟩ := hc
      exact confirmsNothing_sql q
  | query | online | read | mark => exact confirmsNothing_sql _
  | bind | redis | subscribe => exact confirmsNothing_node _

/-- Only a login confirms one. -/
theorem confirmsNothing_frame {conn : Conn} {js : Json} {time : String}
    (hmsg : msgType? js ≠ some .loginMsg) :
    (onMessage conn js time).All Command.ConfirmsNothing := by
  have hdelivery : ∀ {p : Program Unit}, p.All (Command.OfDelivery (fun _ _ _ => True)
      fun s => confirmedUser? s = none) → p.All Command.ConfirmsNothing := fun hp =>
    hp.mono fun _ => Command.OfDelivery.confirmsNothing
  apply onMessage_handlers (T := fun p => p.All Command.ConfirmsNothing)
  · exact fun h => absurd h hmsg
  · exact fun _ hp => hp.mono fun _ => Command.OfTeardown.confirmsNothing
  · exact fun p hp => hp.mono fun _ => Command.OfContacts.confirmsNothing
  · exact fun h => hdelivery (ofDelivery_oneChat (fun _ _ _ _ _ _ _ _ => trivial)
      (confirmedUser?_stamped h (by decide)).1)
  · exact fun h => hdelivery (ofDelivery_groupChat (fun _ _ _ _ _ _ _ => trivial)
      (confirmedUser?_stamped h (by decide)).2)
  · exact fun _ => hdelivery ofDelivery_messageAck

theorem confirmsNothing_body [JsonParser] (j : Job)
    (hj : ∀ conn js time, j = .frame conn js time → msgType? js ≠ some .loginMsg) :
    j.body.All Command.ConfirmsNothing := by
  cases j with
  | frame conn js time => exact confirmsNothing_frame (hj conn js time rfl)
  | close conn =>
      exact all_clientCloseException (confirmsNothing_node _) fun _ =>
        Command.OfTeardown.confirmsNothing
  | redisMessage n channel message =>
      have hraw : confirmedUser? (.raw message) = none := rfl
      exact (ofDelivery_handleRedisSubscribeMessage (Q := fun _ _ _ => True) channel hraw).mono
        fun _ => Command.OfDelivery.confirmsNothing
  | sigint => exact ⟨confirmsNothing_sql _, fun _ => ⟨confirmsNothing_node _, fun _ => trivial⟩⟩

theorem body_of_login [JsonParser] {conn : Conn} {js : Json} {time : String}
    (hmsg : msgType? js = some .loginMsg) : (Job.frame conn js time).body = login conn js := by
  rw [Job.body, onMessage_eq, hmsg]

section Outlines
variable [JsonParser] {admits : ClusterView → ClusterEntry → Prop} {old : Database} {j : Job}
  {v v' : ClusterView} {e : ClusterEntry} {conn : Conn} {js : Json}

theorem turns_moves {E : Environment} (hm : Moves (cluster E admits) v e v') {r : MessageRow}
    (hr : r ∈ v.state.db.chatMessage.rows) :
    (∃ j c x, e = .did j c x ∧ ∃ r' ∈ v'.state.db.chatMessage.rows,
      r.Turns v.state.db.now c r') ∨
      (∀ j c x, e ≠ .did j c x) ∧ r ∈ v'.state.db.chatMessage.rows := by
  by_cases he : ∀ j c x, e ≠ .did j c x
  · exact .inr ⟨he, by rwa [chatMessage_moves hm he]⟩
  · push Not at he
    obtain ⟨j, c, x, rfl⟩ := he
    obtain ⟨-, o, -, ho⟩ := hm.effect
    exact .inl ⟨j, c, x, rfl, turns_exec ho hr⟩

/-- A row that has been delivered stays delivered. -/
theorem delivered_moves {E : Environment} (hm : Moves (cluster E admits) v e v') {r : MessageRow}
    (hr : r ∈ v.state.db.chatMessage.rows) : ∃ r' ∈ v'.state.db.chatMessage.rows,
      r.Persists r' ∧ (MessageStatus.delivered ≤ r.status →
        MessageStatus.delivered ≤ r'.status) := by
  obtain ⟨j, c, x, -, r', hr', hturns⟩ | ⟨-, hsame⟩ := turns_moves hm hr
  · exact ⟨r', hr', hturns.persists, hturns.delivered_le⟩
  · exact ⟨r, hsame, .refl r, id⟩

theorem sql_moves {q : Statement} {x : q.Answer}
    (hm : Moves (cluster .sqlSucceeds admits) v (.did j (.sql q) x) v') :
    (x, v'.state.db) = q.run v.state.db := by
  obtain ⟨-, o, hok, ho⟩ := hm.effect
  obtain ⟨hx, hw⟩ := exec_sql ho
  have htrue : o.ok = true := by
    by_contra hfalse
    exact hok (by simpa using hfalse) q rfl
  rw [htrue, Statement.exec_true] at hx hw
  rw [hw, hx]

theorem listed_moves (hm : Moves (cluster .sqlSucceeds admits) v e v') {text : String}
    (h : Listed old v.state.db text) : Listed old v'.state.db text := by
  obtain ⟨r, hr, rfl, hst⟩ | hold := h
  · obtain ⟨r', hr', hpersists, hkept⟩ := delivered_moves hm hr
    exact .inl ⟨r', hr', congrArg cStr hpersists.payload.symm, hkept hst⟩
  · exact .inr hold

theorem all_listed_moves {texts : List String} (v : ClusterView) (e : ClusterEntry)
    (v' : ClusterView) (hm : Moves (cluster .sqlSucceeds admits) v e v')
    (h : ∀ text ∈ texts, Listed old v.state.db text) : ∀ text ∈ texts, Listed old v'.state.db text :=
  fun text htext => listed_moves hm (h text htext)

/-- The row that a query has returned is still there. -/
def Waits (id : ℤ) (v : ClusterView) (m : StoredMessage) : Prop :=
  ∃ r ∈ v.state.db.chatMessage.rows, r.messageId = m.messageid ∧ r.receiverId = id ∧
    m.payload = cStr r.payload

theorem waits_moves (hm : Moves (cluster .sqlSucceeds admits) v e v') {id : ℤ}
    {m : StoredMessage} (h : Waits id v m) : Waits id v' m := by
  obtain ⟨r, hr, hid, hreceiver, hpayload⟩ := h
  obtain ⟨r', hr', hpersists, -⟩ := delivered_moves hm hr
  refine ⟨r', hr', hpersists.messageId.trans hid, hpersists.receiverId.trans hreceiver, ?_⟩
  rw [hpayload, hpersists.payload]

theorem all_waits_moves {id : ℤ} {ms : List StoredMessage} (v : ClusterView) (e : ClusterEntry)
    (v' : ClusterView) (hm : Moves (cluster .sqlSucceeds admits) v e v')
    (h : ∀ m ∈ ms, Waits id v m) : ∀ m ∈ ms, Waits id v' m :=
  fun m hmem => waits_moves hm (h m hmem)

/-- The mark succeeds whatever the status was. -/
theorem delivered_of_mark {r : MessageRow} {x : Bool} (hr : r ∈ v.state.db.chatMessage.rows)
    (hm : Moves (cluster .sqlSucceeds admits) v
      (.did j (.sql (.markDelivered r.messageId r.receiverId)) x) v') :
    ∃ r' ∈ v'.state.db.chatMessage.rows, r.Persists r' ∧
      MessageStatus.delivered ≤ r'.status := by
  have hdb : v'.state.db = v.state.db.markDelivered r.messageId r.receiverId :=
    congrArg Prod.snd (sql_moves hm)
  refine ⟨_, by rw [hdb]; exact Database.mem_markDelivered.mpr ⟨r, hr, rfl⟩, ?_⟩
  split_ifs with hlt
  · exact ⟨MessageRow.persists_markDelivered _ r, r.delivered_le_markDelivered _⟩
  · have hle : MessageStatus.acked ≤ r.status := by
      by_contra hnot
      exact hlt ⟨rfl, rfl, by omega⟩
    exact ⟨.refl r, le_trans (by decide) hle⟩

/-- The mark makes the message one that may be listed. -/
theorem listed_of_mark {id : ℤ} {m : StoredMessage} {x : Bool} (h : Waits id v m)
    (hm : Moves (cluster .sqlSucceeds admits) v (.did j (.sql (.markDelivered m.messageid id)) x)
      v') : Listed old v'.state.db m.payload := by
  obtain ⟨r, hr, hid, hreceiver, hpayload⟩ := h
  rw [← hid, ← hreceiver] at hm
  obtain ⟨r', hr', hpersists, hst⟩ := delivered_of_mark hr hm
  refine .inl ⟨r', hr', ?_, hst⟩
  rw [hpayload, hpersists.payload]

theorem outline_silent {α : Type} {p : Program α} (hp : p.All Command.ConfirmsNothing)
    {T : α → Prop} (ht : p.Returns T) :
    Outline (cluster .sqlSucceeds admits) (listingContract old) j p (fun a _ => T a) v :=
  .of_all (Stable.const True) (fun w _ hc _ _ => hc.may j w) (fun _ _ _ _ _ _ _ _ => trivial) hp ht
    (fun _ _ ha _ => ha) trivial

theorem outline_collectStored {id : ℤ} {ms : List StoredMessage}
    (hv : ∀ m ∈ ms, Waits id v m) :
    Outline (cluster .sqlSucceeds admits) (listingContract old) j (collectStored id ms)
      (fun texts w => ∀ text ∈ texts, Listed old w.state.db text) v := by
  induction ms generalizing v with
  | nil => exact .ret fun _ htext => absurd htext List.not_mem_nil
  | cons m ms ih =>
      unfold collectStored
      split_ifs
      · refine .act (.of_kept all_waits_moves) hv fun w hw _ =>
          ⟨(confirmsNothing_sql _).may j w, fun x w' hm _ => ?_⟩
        have hlisted : Listed old w'.state.db m.payload :=
          listed_of_mark (hw m List.mem_cons_self) hm
        have hrest : ∀ m' ∈ ms, Waits id w' m' := by
          intro m' hm'
          exact waits_moves hm (hw m' (List.mem_cons_of_mem _ hm'))
        change Outline _ _ j (do
          let offlineMessages ← collectStored id ms
          return m.payload :: offlineMessages) _ w'
        refine .bind (((ih hrest).frame (P := fun u => Listed old u.state.db m.payload)
          (fun _ _ _ hm h => listed_moves hm h) hlisted).mono ?_)
        rintro texts w₁ ⟨htexts, hfirst⟩ text htext
        obtain rfl | htext := List.mem_cons.mp htext
        · exact hfirst
        · exact htexts text htext
      · apply ih
        intro m' hm'
        exact hv m' (List.mem_cons_of_mem _ hm')

theorem offlinemessage_kept (v : ClusterView) (e : ClusterEntry) (v' : ClusterView)
    (hm : Moves (cluster .sqlSucceeds admits) v e v') (hv : (listingContract old).inv v) :
    (listingContract old).inv v' :=
  fun p hp => hv p (offlinemessage_moves hm hp)

theorem outline_takeLegacy {id : ℤ} :
    Outline (cluster .sqlSucceeds admits) (listingContract old) j (takeLegacy id)
      (fun texts w => ∀ text ∈ texts, Listed old w.state.db text) v := by
  refine .act (Stable.const True) trivial fun w _ hinv =>
    ⟨(confirmsNothing_sql _).may j w, fun (legacy : List String) w' hm _ => ?_⟩
  have hlegacy : legacy = w.state.db.selectOffline id := congrArg Prod.fst (sql_moves hm)
  have hlisted : ∀ (d : Database), ∀ text ∈ legacy.map cStr, Listed old d text := by
    intro d text htext
    obtain ⟨t, ht, rfl⟩ := List.mem_map.mp htext
    rw [hlegacy, Database.selectOffline, List.mem_map] at ht
    obtain ⟨p, hp, rfl⟩ := ht
    exact .inr ⟨p, hinv p (List.mem_of_mem_filter hp), rfl⟩
  change Outline _ _ j (if (legacy.map cStr).isEmpty then _ else _ : Program (List String)) _ w'
  split_ifs
  · exact .ret (hlisted _)
  · exact .act (Stable.const True) trivial fun w₁ _ _ =>
      ⟨(confirmsNothing_sql _).may j w₁, fun _ w₂ _ _ => .ret (hlisted _)⟩

/-- The texts of an answer that is ready to be sent may be listed. -/
def ListsListed (old : Database) (response : Json) (v : ClusterView) : Prop :=
  ∃ user texts userVec groupuserVec,
    response = loginResponse user texts userVec groupuserVec ∧
      ∀ text ∈ texts, Listed old v.state.db text

theorem outline_syncSession {id : ℤ} {user : User} :
    Outline (cluster .sqlSucceeds admits) (listingContract old) j (syncSession id user)
      (ListsListed old) v := by
  refine .act (Stable.const True) trivial fun w _ _ =>
    ⟨(confirmsNothing_sql _).may j w, fun (rows : List MessageRow) w₁ hm _ => ?_⟩
  have hrun := sql_moves hm
  have hrows : rows = w.state.db.selectUnacked id 1000 := congrArg Prod.fst hrun
  have hdb : w₁.state.db = w.state.db := congrArg Prod.snd hrun
  have hwaits : ∀ m ∈ storedMessages rows, Waits id w₁ m := by
    intro m hmem
    obtain ⟨r, hr, rfl⟩ := List.mem_map.mp hmem
    rw [hrows] at hr
    obtain ⟨hrow, hunacked⟩ := Database.mem_selectUnacked hr
    rw [← hdb] at hrow
    exact ⟨r, hrow, rfl, hunacked.1, rfl⟩
  change Outline _ _ j (assembleResponse id user (storedMessages rows)) _ w₁
  refine .bind ((outline_collectStored hwaits).mono fun texts w₂ htexts => ?_)
  refine .bind ((outline_takeLegacy.frame all_listed_moves htexts).mono ?_)
  rintro legacy w₃ ⟨hlegacy, htexts⟩
  have hboth : ∀ text ∈ texts ++ legacy, Listed old w₃.state.db text := by
    intro text htext
    obtain htext | htext := List.mem_append.mp htext
    · exact htexts text htext
    · exact hlegacy text htext
  have hreturns : (do let userVec ← FriendModel.query id
                      let groupuserVec ← GroupModel.queryGroups id
                      return loginResponse user (texts ++ legacy) userVec groupuserVec
                        : Program Json).Returns fun response => ∃ userVec groupuserVec,
      response = loginResponse user (texts ++ legacy) userVec groupuserVec :=
    (Prog.returns_true _).bind fun userVec _ =>
      (Prog.returns_true _).bind fun groupuserVec _ => ⟨userVec, groupuserVec, rfl⟩
  refine ((outline_silent (confirmsNothing_queryContacts id _) hreturns).frame
    all_listed_moves hboth).mono ?_
  rintro response w₄ ⟨⟨userVec, groupuserVec, rfl⟩, hlisted⟩
  exact ⟨user, texts ++ legacy, userVec, groupuserVec, rfl, hlisted⟩

theorem outline_sendResponse {response : Json} (hv : ListsListed old response v) :
    Outline (cluster .sqlSucceeds admits) (listingContract old) j (sendJson conn response)
      (fun _ _ => True) v := by
  obtain ⟨user, texts, userVec, groupuserVec, rfl, hlisted⟩ := hv
  refine .act (.of_kept all_listed_moves) hlisted fun w hw _ => ⟨?_, fun _ _ _ _ => trivial⟩
  rintro conn' response texts' hc - hfind text htext
  cases hc
  rw [offlinemsg_loginResponse] at hfind
  split_ifs at hfind
  obtain rfl := List.map_injective_iff.mpr (fun _ _ => Json.string.inj)
    (Json.array.inj (Option.some.inj hfind))
  exact hw text htext

theorem outline_loginListing : Outline (cluster .sqlSucceeds admits) (listingContract old) j
    (login conn js) (fun _ _ => True) v := by
  have hrefused : ∀ (w : ClusterView) (errno : ℤ) (errmsg : String), errno = 1 ∨ errno = 2 →
      Outline (cluster .sqlSucceeds admits) (listingContract old) j
        (sendJson conn (errorResponse .loginMsgAck errno errmsg)) (fun _ _ => True) w :=
    fun w errno errmsg h => outline_silent
      (p := sendJson conn (errorResponse .loginMsgAck errno errmsg)) (T := fun _ => True)
      ⟨confirmsNothing_sendTo (confirmedUser?_errorResponse h _ _), fun _ => trivial⟩
      (Prog.returns_true _)
  unfold login
  split
  · next id pwd hid _ =>
    refine .act (Stable.const True) trivial fun w _ _ =>
      ⟨(confirmsNothing_sql _).may j w, fun row w₁ _ _ => ?_⟩
    change Outline _ _ j (if (User.ofRow row).id = id ∧ (User.ofRow row).pwd = pwd then
      if (User.ofRow row).state = .online then _ else _ else _ : Program Unit) _ w₁
    split_ifs with hmatch
    · exact hrefused _ _ _ (.inr rfl)
    · refine .bind ((outline_silent (confirmsNothing_openSession hmatch.1)
        (Prog.returns_true _)).mono fun _ w₂ _ => ?_)
      exact .bind (outline_syncSession.mono fun response w₃ hw₃ => outline_sendResponse hw₃)
    · exact hrefused _ _ _ (.inl rfl)
  · exact hrefused _ _ _ (.inl rfl)

theorem outline_plainly {p : Program Unit} (hp : p.All Command.ConfirmsNothing) :
    Outline (cluster .sqlSucceeds admits) (listingContract old) j p (fun _ _ => True) v :=
  outline_silent (T := fun _ => True) hp (Prog.returns_true _)

/-- Every job keeps to what an answer may list. -/
theorem listing_verified :
    Verified (cluster .sqlSucceeds admits) (listingContract old) (fun _ _ _ => True) where
  stable _ _ := Stable.const True
  kept v e v' hv hm _ := offlinemessage_kept v e v' hm hv
  abandoned _ _ _ _ _ _ := trivial
  outline j _ v v' _ _ _ _ := by
    by_cases hlogin : ∃ conn js time, j = .frame conn js time ∧ msgType? js = some .loginMsg
    · obtain ⟨conn, js, time, rfl, hmsg⟩ := hlogin
      rw [show (cluster .sqlSucceeds admits).body (.frame conn js time) = login conn js from
        body_of_login hmsg]
      exact outline_loginListing
    · apply outline_plainly
      apply confirmsNothing_body
      intro conn js time hj hmsg
      exact hlogin ⟨conn, js, time, hj, hmsg⟩

/-- What a login answer lists has been marked, or comes from the legacy table. -/
theorem listed_of_step {es : List ClusterEntry} {x y : ClusterConfig} {response : Json}
    {texts : List String} {r : Unit}
    (h : Steps (cluster .sqlSucceeds admits) (Config.initial (World.fresh old)) es x)
    (hs : Step (cluster .sqlSucceeds admits) x (.did j (.sendTo conn (.json response)) r) y)
    (hconfirmed : (confirmedUser? (.json response)).isSome)
    (hfind : response.find? "offlinemsg" = some (Json.strings texts)) :
    ∀ text ∈ texts, Listed old x.view.state.db text := by
  have hok : ConfigOk (cluster .sqlSucceeds admits) (listingContract old) (fun _ _ _ => True)
      (Config.initial (World.fresh old)) := .initial (fun _ hp => hp) fun _ => trivial
  exact (listing_verified.sound h hok).promised hs conn response texts rfl hconfirmed hfind

end Outlines
end ChatCluster
