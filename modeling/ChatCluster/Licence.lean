import ChatCluster.Consumption

/-!
# Licences

Seven handlers act for the user that their frame names, and each asks first whether
its connection is bound to that user. A login binds a connection after it has matched
the user's row, and then owes the answer that confirms the user. What a handler may do
at each command is a condition on what it remembers of its earlier answers.
-/
namespace ChatCluster
open CommandProgram Interleaving

/-! ## What a handler remembers -/

/-- The row that the latest query of a user returned, the user that a login has bound
and not yet answered, and the latest binding that a check has found. -/
structure ActingMemory where
  row : Option UserRow := none
  pending : Option ℤ := none
  checked : Option (ℤ × Conn) := none

def ActingMemory.next (m : ActingMemory) : (c : Command) → Response c → ActingMemory
  | .sql (.selectUser _), row => { m with row := row }
  | .node (.mapBind userid _), _ => { m with pending := some userid }
  | .node (.mapIsBound userid conn), bound =>
      match (bound : Bool) with
      | true => { m with checked := some (userid, conn) }
      | false => m
  | .sendTo _ _, _ => { m with pending := none }
  | _, _ => m

/-- The types of the frames whose handlers act for the user in the field `id`. -/
def EnMsgType.acting : List EnMsgType :=
  [.loginoutMsg, .oneChatMsg, .addFriendMsg, .createGroupMsg, .addGroupMsg, .groupChatMsg, .msgAck]

/-- The job is a frame on `conn` that asks the server to act for user `u`. -/
def Job.ActsFor (u : ℤ) (conn : Conn) : Job → Prop
  | .frame conn' js _ =>
      conn' = conn ∧ (∃ t ∈ EnMsgType.acting, msgType? js = some t) ∧ getInt js "id" = some u
  | _ => False

/-- The command, issued by the job, writes in the name of user `u`. -/
def Job.ActsAs (u : ℤ) (j : Job) : Command → Prop
  | .sql (.insertMessage _ senderid _ _ _ _) => senderid = u
  | .sql (.insertFriend userid _) => userid = u
  | .sql (.insertGroupUser _ userid _) => userid = u
  | .sql (.ackMessage _ receiverid) => receiverid = u
  | .sql (.updateUserState id .offline) => id = u ∧ ∃ conn js time, j = .frame conn js time
  | _ => False

/-- The login frame `js` names user `u`, and the row that `UserModel::query` returned
for it has that id and the password of the frame. -/
def Matched (u : ℤ) (js : Json) (row : Option UserRow) : Prop :=
  msgType? js = some .loginMsg ∧ getInt js "id" = some u ∧ (User.ofRow row).id = u ∧
    getString js "password" = some (User.ofRow row).pwd

/-- What a job that remembers `m` keeps to when it issues a command. -/
structure Licensed (j : Job) (m : ActingMemory) (c : Command) : Prop where
  acting : ∀ u, j.ActsAs u c → ∃ conn, j.ActsFor u conn
  checked : ∀ u conn, j.ActsFor u conn →
    m.pending = none ∧ (c = .node (.mapIsBound u conn) ∨ m.checked = some (u, conn))
  binds : ∀ u conn, c = .node (.mapBind u conn) →
    ∃ js time, j = .frame conn js time ∧ Matched u js m.row
  confirms : ∀ u, m.pending = some u →
    (∃ conn s, c = .sendTo conn s ∧ j.agent = .io conn ∧ confirmedUser? s = some u) ∨
      ∀ r, (m.next c r).pending = some u

/-! ## Handlers that act for a user -/

/-- A command after the check of user `u`: what it writes, it writes for `u`. -/
def Command.InNameOf (u : ℤ) : Command → Prop
  | .sql (.insertMessage _ senderid _ _ _ _) => senderid = u
  | .sql (.insertFriend userid _) => userid = u
  | .sql (.insertGroupUser _ userid _) => userid = u
  | .sql (.ackMessage _ receiverid) => receiverid = u
  | .sql (.updateUserState id _) => id = u
  | .node (.mapIsBound _ _) => False
  | .node (.mapBind _ _) => False
  | _ => True

section Acting
variable {u : ℤ} {conn : Conn} {js : Json} {time : String} {t : EnMsgType}

theorem eq_of_inNameOf {j : Job} {c : Command} {v : ℤ} (hc : c.InNameOf u) (h : j.ActsAs v c) :
    v = u := by
  cases c with
  | sql q =>
      cases q with
      | updateUserState id state =>
          cases state with
          | online => exact h.elim
          | offline => exact h.1.symm.trans hc
      | insertMessage | insertFriend | insertGroupUser | ackMessage => exact h.symm.trans hc
      | _ => exact h.elim
  | _ => exact h.elim

theorem licensed_inNameOf (ht : t ∈ EnMsgType.acting) (hmsg : msgType? js = some t)
    (hid : getInt js "id" = some u) {m : ActingMemory} {c : Command} (hc : c.InNameOf u)
    (hm : m.pending = none ∧ m.checked = some (u, conn)) :
    Licensed (.frame conn js time) m c where
  acting v hv := by
    obtain rfl := eq_of_inNameOf hc hv
    exact ⟨conn, rfl, ⟨t, ht, hmsg⟩, hid⟩
  checked v conn' hv := by
    obtain ⟨rfl, -, hv⟩ := hv
    obtain rfl := Option.some.inj (hid.symm.trans hv)
    exact ⟨hm.1, .inr hm.2⟩
  binds v conn' h := by
    subst h
    exact hc.elim
  confirms v hv := by
    rw [hm.1] at hv
    cases hv

theorem keeps_inNameOf {m : ActingMemory} {c : Command} (r : Response c) (hc : c.InNameOf u)
    (hm : m.pending = none ∧ m.checked = some (u, conn)) :
    (m.next c r).pending = none ∧ (m.next c r).checked = some (u, conn) := by
  cases c with
  | sql q => cases q <;> exact hm
  | node q =>
      cases q with
      | mapIsBound | mapBind => exact hc.elim
      | _ => exact hm
  | redisPublish => exact hm
  | sendTo => exact ⟨rfl, hm.2⟩

theorem licensed_check (hid : getInt js "id" = some u) :
    Licensed (.frame conn js time) {} (.node (.mapIsBound u conn)) where
  acting _ h := h.elim
  checked v conn' hv := by
    obtain ⟨rfl, -, hv⟩ := hv
    obtain rfl := Option.some.inj (hid.symm.trans hv)
    exact ⟨rfl, .inl rfl⟩
  binds _ _ h := by cases h
  confirms _ h := by cases h

/-- A handler that acts for the user after its check only. -/
theorem tracked_acting (ht : t ∈ EnMsgType.acting) (hmsg : msgType? js = some t)
    (hid : getInt js "id" = some u) {rest : Program Unit} (hrest : rest.All (Command.InNameOf u)) :
    (do if ← isConnectionBoundToUser u conn then rest : Program Unit).Tracked ActingMemory.next
      (Licensed (.frame conn js time)) (fun m _ => m.pending = none) {} := by
  refine ⟨licensed_check hid, fun bound => ?_⟩
  cases bound with
  | false => exact (rfl : ActingMemory.pending {} = none)
  | true =>
      have htracked : rest.Tracked ActingMemory.next (Licensed (.frame conn js time))
          (fun m _ => m.pending = none ∧ m.checked = some (u, conn))
          { checked := some (u, conn) } := by
        refine .of_all (I := fun m : ActingMemory => m.pending = none ∧ m.checked = some (u, conn))
          (fun m c hc hm => ?_) (fun m c r hc hm => ?_) hrest ⟨rfl, rfl⟩
        · exact licensed_inNameOf ht hmsg hid hc hm
        · exact keeps_inNameOf r hc hm
      exact htracked.mono fun _ _ hm => hm.1

theorem inNameOf_persistAndDeliver (messageid receiverid groupid : ℤ) (msgtype : EnMsgType) :
    (persistAndDeliver messageid u receiverid groupid msgtype js).All (Command.InNameOf u) :=
  all_persistAndDeliver rfl trivial trivial (fun _ => trivial) trivial trivial trivial trivial
    trivial

theorem inNameOf_generateMessageId : generateMessageId.All (Command.InNameOf u) :=
  ⟨trivial, fun _ => ⟨trivial, fun _ => ⟨trivial, fun _ => trivial⟩⟩⟩

/-- A handler as a memory-less job leaves it: no login is waiting for its answer. -/
abbrev Tracks (j : Job) (p : Program Unit) : Prop :=
  p.Tracked ActingMemory.next (Licensed j) (fun m _ => m.pending = none) {}

theorem tracks_loginout (hmsg : msgType? js = some .loginoutMsg) :
    Tracks (.frame conn js time) (loginout conn js) := by
  unfold loginout
  split
  · next userid hid =>
    exact tracked_acting (by decide) hmsg hid
      ⟨trivial, fun _ => all_closeSession trivial trivial rfl⟩
  · exact (rfl : ActingMemory.pending {} = none)

theorem tracks_oneChat (hmsg : msgType? js = some .oneChatMsg) :
    Tracks (.frame conn js time) (oneChat conn js) := by
  unfold oneChat
  split
  · next fromid toid _ hid _ _ =>
    exact tracked_acting (by decide) hmsg hid
      (inNameOf_generateMessageId.bind fun _ => inNameOf_persistAndDeliver _ _ _ _)
  · exact (rfl : ActingMemory.pending {} = none)

theorem tracks_groupChat (hmsg : msgType? js = some .groupChatMsg) :
    Tracks (.frame conn js time) (groupChat conn js) := by
  unfold groupChat
  split
  · next userid groupid _ hid _ _ =>
    exact tracked_acting (by decide) hmsg hid ⟨trivial, fun _ => Prog.all_forM fun id _ =>
      inNameOf_generateMessageId.bind fun _ => inNameOf_persistAndDeliver _ _ _ _⟩
  · exact (rfl : ActingMemory.pending {} = none)

theorem tracks_messageAck (hmsg : msgType? js = some .msgAck) :
    Tracks (.frame conn js time) (messageAck conn js) := by
  unfold messageAck
  split
  · next userid hid =>
    refine tracked_acting (by decide) hmsg hid ?_
    split
    · exact ⟨rfl, fun _ => trivial⟩
    · trivial
  · exact (rfl : ActingMemory.pending {} = none)

theorem tracks_addFriend (hmsg : msgType? js = some .addFriendMsg) :
    Tracks (.frame conn js time) (addFriend conn js) := by
  unfold addFriend
  split
  · next userid friendid hid _ =>
    exact tracked_acting (by decide) hmsg hid ⟨rfl, fun _ => trivial⟩
  · exact (rfl : ActingMemory.pending {} = none)

theorem tracks_createGroup (hmsg : msgType? js = some .createGroupMsg) :
    Tracks (.frame conn js time) (createGroup conn js) := by
  unfold createGroup
  split
  · next userid name desc hid _ _ =>
    split_ifs
    · exact (rfl : ActingMemory.pending {} = none)
    · refine tracked_acting (by decide) hmsg hid ⟨trivial, fun groupid? => ?_⟩
      cases groupid? with
      | some groupid => exact ⟨rfl, fun _ => trivial⟩
      | none => trivial
  · exact (rfl : ActingMemory.pending {} = none)

theorem tracks_addGroup (hmsg : msgType? js = some .addGroupMsg) :
    Tracks (.frame conn js time) (addGroup conn js) := by
  unfold addGroup
  split
  · next userid groupid hid _ =>
    exact tracked_acting (by decide) hmsg hid ⟨rfl, fun _ => trivial⟩
  · exact (rfl : ActingMemory.pending {} = none)

end Acting

/-! ## The other handlers -/

/-- A command that neither writes in the name of a user nor binds a connection. -/
structure Command.Anonymous (j : Job) (c : Command) : Prop where
  acts : ∀ u, ¬ j.ActsAs u c
  binds : ∀ u conn, c ≠ .node (.mapBind u conn)

section Anonymous
variable {j : Job} {conn : Conn} {js : Json} {time : String}

theorem tracks_anonymous (hj : ∀ u conn, ¬ j.ActsFor u conn) {p : Program Unit}
    (hp : p.All (Command.Anonymous j)) : Tracks j p := by
  refine .of_all (I := fun m : ActingMemory => m.pending = none) (fun m c hc hm => ?_)
    (fun m c r hc hm => ?_) hp rfl
  · constructor
    · exact fun u h => absurd h (hc.acts u)
    · exact fun u conn h => absurd h (hj u conn)
    · exact fun u conn h => absurd h (hc.binds u conn)
    · intro u h
      rw [hm] at h
      cases h
  · cases c with
    | sql q => cases q <;> exact hm
    | node q =>
        cases q with
        | mapBind u conn => exact absurd rfl (hc.binds u conn)
        | mapIsBound u conn => cases r <;> exact hm
        | _ => exact hm
    | redisPublish => exact hm
    | sendTo => rfl

theorem not_actsFor {t : EnMsgType} (hmsg : msgType? js = some t) (ht : t ∉ EnMsgType.acting)
    (u : ℤ) (conn' : Conn) : ¬ (Job.frame conn js time).ActsFor u conn' := by
  intro h
  rcases h with ⟨-, ⟨t', ht', hmsg'⟩, -⟩
  obtain rfl := Option.some.inj (hmsg.symm.trans hmsg')
  exact ht ht'

theorem anonymous_sendTo (conn : Conn) (s : Sent) : Command.Anonymous j (.sendTo conn s) :=
  ⟨fun _ => not_false, fun _ _ h => by cases h⟩

theorem anonymous_node {q : NodeOp} (h : ∀ u conn, q ≠ .mapBind u conn) :
    Command.Anonymous j (.node q) :=
  ⟨fun _ => not_false, fun u conn hq => h u conn (Command.node.inj hq)⟩

theorem anonymous_sql {q : Statement} (h : ∀ u, ¬ j.ActsAs u (.sql q)) :
    Command.Anonymous j (.sql q) := ⟨h, fun _ _ hq => by cases hq⟩

/-! ## Login -/

/-- A command of a login between its binding and its answer. -/
def Command.Opening (j : Job) (c : Command) : Prop :=
  c.Anonymous j ∧ ∀ conn s, c ≠ .sendTo conn s

theorem licensed_login (hmsg : msgType? js = some .loginMsg) {m : ActingMemory} {c : Command}
    (hc : c.Anonymous (.frame conn js time))
    (hm : ∀ u, m.pending = some u →
      (∃ s, c = .sendTo conn s ∧ confirmedUser? s = some u) ∨ ∀ r, (m.next c r).pending = some u) :
    Licensed (.frame conn js time) m c where
  acting u h := absurd h (hc.acts u)
  checked u conn' h := absurd h (not_actsFor hmsg (by decide) u conn')
  binds u conn' h := absurd h (hc.binds u conn')
  confirms u h := by
    obtain ⟨s, rfl, hs⟩ | hnext := hm u h
    · exact .inl ⟨conn, s, rfl, rfl, hs⟩
    · exact .inr hnext

theorem keeps_opening {m : ActingMemory} {c : Command} (r : Response c) (hc : c.Opening j) :
    (m.next c r).pending = m.pending := by
  cases c with
  | sql q => cases q <;> rfl
  | node q =>
      cases q with
      | mapBind u conn => exact absurd rfl (hc.1.binds u conn)
      | mapIsBound u conn => cases r <;> rfl
      | _ => rfl
  | redisPublish => rfl
  | sendTo conn s => exact absurd rfl (hc.2 conn s)

theorem opening_sql {q : Statement} (h : ∀ u, ¬ j.ActsAs u (.sql q)) :
    Command.Opening j (.sql q) := ⟨anonymous_sql h, fun _ _ hq => by cases hq⟩

theorem opening_syncSession (id : ℤ) (user : User) :
    (syncSession id user).All (Command.Opening j) := by
  refine all_syncSession (opening_sql fun _ => not_false) (fun _ => opening_sql fun _ => not_false)
    fun c hc => ?_
  cases hc <;> exact opening_sql fun _ => not_false

theorem opening_trySubscribe (id : ℤ) : (trySubscribe id).All (Command.Opening j) := by
  have hnode : ∀ q : NodeOp, (∀ u conn, q ≠ .mapBind u conn) → Command.Opening j (.node q) :=
    fun q h => ⟨anonymous_node h, fun _ _ hq => by cases hq⟩
  refine Prog.All.bind ⟨hnode _ (fun _ _ h => by cases h), fun _ => trivial⟩ fun connected => ?_
  split_ifs
  · exact ⟨hnode _ (fun _ _ h => by cases h), fun _ => trivial⟩
  · trivial

theorem tracked_opening (hmsg : msgType? js = some .loginMsg) {id : ℤ} {α : Type} {p : Program α}
    (hp : p.All (Command.Opening (.frame conn js time))) {m : ActingMemory}
    (hm : m.pending = some id) :
    p.Tracked ActingMemory.next (Licensed (.frame conn js time))
      (fun m _ => m.pending = some id) m := by
  refine .of_all (I := fun m : ActingMemory => m.pending = some id) (fun m c hc hm => ?_)
    (fun m c r hc hm => (keeps_opening r hc).trans hm) hp hm
  refine licensed_login hmsg hc.1 fun u hu => .inr fun r => ?_
  rw [keeps_opening r hc]
  exact hu

/-- After its check a login binds the connection, opens and synchronises the session,
and its answer confirms the user that has been bound. -/
theorem tracked_accept {id : ℤ} {row : Option UserRow} (hmatch : Matched id js row)
    {m : ActingMemory} (hm : m.row = row) (hpending : m.pending = none) :
    (do openSession conn id (User.ofRow row)
        let response ← syncSession id (User.ofRow row)
        sendJson conn response : Program Unit).Tracked ActingMemory.next
      (Licensed (.frame conn js time)) (fun m _ => m.pending = none) m := by
  have hmsg := hmatch.1
  have hopen : (openSession conn id (User.ofRow row)).Tracked ActingMemory.next
      (Licensed (.frame conn js time)) (fun m _ => m.pending = some id) m := by
    refine ⟨?_, fun _ => ?_⟩
    · constructor
      · exact fun u h => h.elim
      · exact fun u conn' h => absurd h (not_actsFor hmsg (by decide) u conn')
      · intro u conn' h
        cases h
        exact ⟨js, time, rfl, hm ▸ hmatch⟩
      · intro u h
        rw [hpending] at h
        cases h
    · refine (tracked_opening hmsg (opening_trySubscribe id) rfl).bind fun m₁ _ hm₁ => ?_
      exact tracked_opening
        (p := UserModel.updateState { User.ofRow row with state := .online } >>= fun _ => pure ())
        hmsg ⟨opening_sql fun _ => not_false, fun _ => trivial⟩ hm₁
  obtain ⟨hl, hu⟩ := getInt_range hmatch.2.1
  refine hopen.bind fun m₁ _ hm₁ => ?_
  refine ((tracked_opening hmsg (opening_syncSession id _) hm₁).returns
    (returns_confirmed hmatch.2.2.1 hl hu)).bind fun m₂ response h => ?_
  refine ⟨licensed_login hmsg (anonymous_sendTo conn _) fun u hu => .inl ⟨_, rfl, ?_⟩, fun _ => rfl⟩
  rw [h.2, ← h.1, hu]

theorem tracks_login (hmsg : msgType? js = some .loginMsg) :
    Tracks (.frame conn js time) (login conn js) := by
  have hrefused : ∀ (m : ActingMemory) (errno : ℤ) (errmsg : String), m.pending = none →
      (sendJson conn (errorResponse .loginMsgAck errno errmsg)).Tracked ActingMemory.next
        (Licensed (.frame conn js time)) (fun m _ => m.pending = none) m := by
    intro m errno errmsg hm
    refine ⟨licensed_login hmsg (anonymous_sendTo conn _) fun u hu => ?_, fun _ => rfl⟩
    rw [hm] at hu
    cases hu
  unfold login
  split
  · next id pwd hid hpwd =>
    refine ⟨licensed_login hmsg (anonymous_sql fun _ => not_false) (fun u hu => by cases hu),
      fun row => ?_⟩
    change (if (User.ofRow row).id = id ∧ (User.ofRow row).pwd = pwd then
      if (User.ofRow row).state = .online then _ else _ else _ : Program Unit).Tracked _ _ _ _
    split_ifs with hmatch
    · exact hrefused _ _ _ rfl
    · exact tracked_accept (m := { row := row }) ⟨hmsg, hid, hmatch.1, hmatch.2 ▸ hpwd⟩ rfl rfl
    · exact hrefused _ _ _ rfl
  · exact hrefused _ _ _ rfl

theorem tracks_frame : Tracks (.frame conn js time) (onMessage conn js time) := by
  rw [onMessage_eq]
  split
  · next h => exact tracks_login h
  · next h => exact tracks_loginout h
  · next h =>
    exact tracks_anonymous (not_actsFor h (by decide))
      (all_reg (fun _ _ _ => anonymous_sql fun _ => not_false) fun _ _ => anonymous_sendTo _ _)
  · next h => exact tracks_oneChat h
  · next h => exact tracks_addFriend h
  · next h => exact tracks_createGroup h
  · next h => exact tracks_addGroup h
  · next h => exact tracks_groupChat h
  · next h => exact tracks_messageAck h
  · next h =>
    exact tracks_anonymous (not_actsFor h (by decide)) (all_heartbeat fun _ _ => anonymous_sendTo _ _)
  all_goals exact (rfl : ActingMemory.pending {} = none)

theorem tracks_body [JsonParser] (j : Job) : Tracks j j.body := by
  cases j with
  | frame conn js time => exact tracks_frame
  | close conn =>
      refine tracks_anonymous (j := .close conn) (fun _ _ => not_false) (all_clientCloseException
        (anonymous_node fun _ _ h => by cases h) fun c hc => ?_)
      cases hc with
      | offline userid =>
          refine anonymous_sql ?_
          rintro u ⟨-, conn, js, time, h⟩
          cases h
      | _ => exact anonymous_node fun _ _ h => by cases h
  | redisMessage n channel message =>
      have hnode : ∀ q : NodeOp, (∀ u conn, q ≠ .mapBind u conn) →
          Command.Anonymous (.redisMessage n channel message) (.node q) := fun q => anonymous_node
      exact tracks_anonymous (j := .redisMessage n channel message) (fun _ _ => not_false)
        (all_handleRedisSubscribeMessage
        (hnode _ fun _ _ h => by cases h) (hnode _ fun _ _ h => by cases h)
        (fun _ => anonymous_sendTo _ _) (fun _ => anonymous_sql fun _ => not_false)
        (hnode _ fun _ _ h => by cases h))
  | sigint n =>
      exact tracks_anonymous (j := .sigint n) (fun _ _ => not_false)
        ⟨anonymous_sql fun _ => not_false, fun _ =>
          ⟨anonymous_node (fun _ _ h => by cases h), fun _ => trivial⟩⟩

end Anonymous

end ChatCluster
