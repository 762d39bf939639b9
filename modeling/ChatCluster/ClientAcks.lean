import ChatCluster.LoginVerdict
import ChatCluster.StatusOrder

/-!
# What the client acknowledges

The service relies on it that a client acknowledges a message only when it has received it,
on the connection on which it has received it. The client of this repository does so.
-/
namespace ChatCluster
open CommandProgram Interleaving
open ChatCluster.Parser

namespace Client

theorem getLongLong_ack {u : ℤ} {js ack : Json} (h : ack ∈ ackMessageIfNeeded u js) :
    getLongLong ack "messageid" = getLongLong js "messageid" := by
  unfold ackMessageIfNeeded at h
  split at h
  · next messageid hfind =>
    rw [List.mem_singleton.mp h, getLongLong, getLongLong, hfind]
    rfl
  · cases h

variable [JsonParser]

/-- Each acknowledgement of the offline messages is one of a text in the list. -/
theorem text_of_showOfflineMessages {u : ℤ} {vec : List String} {acks : List Json}
    (h : showOfflineMessages u vec = some acks) {ack : Json} (hack : ack ∈ acks) :
    ∃ text ∈ vec, textId? text = getLongLong ack "messageid" := by
  induction vec generalizing acks with
  | nil =>
      cases h
      cases hack
  | cons str rest ih =>
      simp only [showOfflineMessages, Option.bind_eq_bind, Option.bind_eq_some_iff] at h
      rcases h with ⟨first, hfirst, more, hmore, hacks⟩
      cases hacks
      rcases List.mem_append.mp hack with hack | hack
      · simp only [showOfflineMessage, Option.bind_eq_bind, Option.bind_eq_some_iff] at hfirst
        rcases hfirst with ⟨js, hparse, msgid, -, shown, -, hfirst⟩
        cases hfirst
        refine ⟨str, List.mem_cons_self, ?_⟩
        rw [textId?, hparse, Option.bind_some, getLongLong_ack hack]
      · rcases ih hmore hack with ⟨text, hmem, htext⟩
        exact ⟨text, List.mem_cons_of_mem str hmem, htext⟩

/-- What a login answer makes the client acknowledge is in its `offlinemsg`. -/
theorem offline_of_doLoginResponse {response : Json} {old current : ClientState}
    {acks : List Json} (h : doLoginResponse response old = some (current, acks)) {ack : Json}
    (hack : ack ∈ acks) : ∃ texts, response.find? "offlinemsg" = some (Json.strings texts) ∧
      ∃ text ∈ texts, textId? text = getLongLong ack "messageid" := by
  simp only [doLoginResponse, Option.bind_eq_bind, Option.bind_eq_some_iff] at h
  rcases h with ⟨errno, herrno, h⟩
  split_ifs at h with hne
  · cases h
    cases hack
  · simp only [Option.bind_eq_some_iff] at h
    rcases h with ⟨id, -, name, -, friends, -, groups, -, vec, hvec, acks', hacks, h⟩
    cases h
    rcases text_of_showOfflineMessages hacks hack with ⟨text, hmem, htext⟩
    simp only [offlineTexts, herrno, Option.bind_eq_bind, Option.bind_some, if_neg hne] at hvec
    split at hvec
    · cases hvec
      cases hmem
    · next xs hfind =>
      rw [strings_of_mapM hvec] at hfind
      exact ⟨vec, hfind, text, hmem, htext⟩
    · cases hvec

end Client

/-! ## What the client has been shown -/

/-- The acknowledgement is one of a message that a line shows. -/
def Json.AckOf [JsonParser] (lines : List Sent) (js : Json) : Prop :=
  ∀ messageid, getLongLong js "messageid" = some messageid →
    ∃ line ∈ lines, line.Shows messageid

/-- What the client acknowledges or is about to acknowledge, it has read. -/
structure Acknowledges [JsonParser] (lines : List Sent) (s : Client.Threads) : Prop where
  sent : ∀ js ∈ s.sent, msgType? js = some .msgAck → js.AckOf (lines.take s.received)
  reader : ∀ js ∈ s.reader.acks, js.AckOf (lines.take s.received)

section Alone
variable [JsonParser] {lines : List Sent} {s s' : Client.Threads} {js : Json} {ok : Bool}

theorem Json.AckOf.mono {lines' : List Sent} (h : js.AckOf lines)
    (hlines : ∀ line ∈ lines, line ∈ lines') : js.AckOf lines' := by
  intro messageid hid
  rcases h messageid hid with ⟨line, hmem, hshows⟩
  exact ⟨line, hlines line hmem, hshows⟩

theorem Acknowledges.start : Acknowledges lines Client.Threads.start := by
  constructor <;> simp [Client.Threads.start, Client.ReadThread.acks]

theorem Acknowledges.append (h : Acknowledges lines s) (hread : s.received ≤ lines.length)
    (more : List Sent) : Acknowledges (lines ++ more) s := by
  constructor
  · rw [List.take_append_of_le_length hread]
    exact h.sent
  · rw [List.take_append_of_le_length hread]
    exact h.reader

/-- A step that sends nothing and reads nothing. -/
theorem Acknowledges.congr (h : Acknowledges lines s) (hsent : s'.sent = s.sent)
    (hreceived : s'.received = s.received)
    (hacks : ∀ js ∈ s'.reader.acks, js ∈ s.reader.acks) : Acknowledges lines s' := by
  constructor
  · rw [hsent, hreceived]
    exact h.sent
  · rw [hreceived]
    exact fun js hjs => h.reader js (hacks js hjs)

/-- A line is read. -/
theorem Acknowledges.read_line (h : Acknowledges lines s) (hsent : s'.sent = s.sent)
    (hreceived : s'.received = s.received + 1)
    (hacks : ∀ js ∈ s'.reader.acks, js.AckOf (lines.take (s.received + 1))) :
    Acknowledges lines s' := by
  have hmore : ∀ line ∈ lines.take s.received, line ∈ lines.take (s.received + 1) :=
    fun line hline => (List.take_sublist_take_left (Nat.le_succ _)).subset hline
  constructor
  · rw [hsent, hreceived]
    exact fun js hjs hack => (h.sent js hjs hack).mono hmore
  · rw [hreceived]
    exact hacks

theorem Acknowledges.sends (h : Acknowledges lines s) (hsend : Client.Sends js s ok s')
    (hjs : msgType? js = some .msgAck → js.AckOf (lines.take s.received)) :
    Acknowledges lines s' := by
  rcases hsend.eq with ⟨sent, torn, rfl, rfl | rfl⟩
  · exact h.congr rfl rfl fun _ h => h
  · refine ⟨fun js' hjs' => ?_, h.reader⟩
    rcases List.mem_append.mp hjs' with hearlier | hlast
    · exact h.sent js' hearlier
    · rw [List.mem_singleton.mp hlast]
      exact hjs

/-- A send of something else. -/
theorem Acknowledges.sends_other (h : Acknowledges lines s) (hsend : Client.Sends js s ok s')
    {t : EnMsgType} (ht : msgType? js = some t) (hne : t ≠ .msgAck) : Acknowledges lines s' :=
  h.sends hsend fun hack => absurd (Option.some.inj (ht.symm.trans hack)) hne

omit [JsonParser] in
theorem Client.MenuRequest.not_ack {current : Client.ClientState}
    (h : Client.MenuRequest current js) : ∃ t, msgType? js = some t ∧ t ≠ .msgAck := by
  cases h with
  | chat => exact ⟨.oneChatMsg, msgType?_of_find rfl, by decide⟩
  | groupchat => exact ⟨.groupChatMsg, msgType?_of_find rfl, by decide⟩
  | addfriend => exact ⟨.addFriendMsg, msgType?_of_find rfl, by decide⟩
  | creategroup => exact ⟨.createGroupMsg, msgType?_of_find rfl, by decide⟩
  | addgroup => exact ⟨.addGroupMsg, msgType?_of_find rfl, by decide⟩

theorem Client.MainStep.acknowledges (h : Client.MainStep s s') (hs : Acknowledges lines s) :
    Acknowledges lines s' := by
  cases h with
  | sendLogin hmain hsend =>
      have hs₁ := hs.sends_other hsend (t := .loginMsg) (msgType?_of_find rfl) (by decide)
      exact hs₁.congr rfl rfl fun _ h => h
  | sendReg hmain hsend =>
      have hs₁ := hs.sends_other hsend (t := .regMsg) (msgType?_of_find rfl) (by decide)
      exact hs₁.congr rfl rfl fun _ h => h
  | command hmain hrunning hrequest hsend =>
      rcases hrequest.not_ack with ⟨t, ht, hne⟩
      exact hs.sends_other hsend ht hne
  | @loginout id pwd ok s₁ hmain hrunning hsend =>
      have hs₁ := hs.sends_other hsend (t := .loginoutMsg) (msgType?_of_find rfl) (by decide)
      cases ok with
      | true => exact hs₁.congr rfl rfl fun _ h => h
      | false => exact hs₁
  | _ => exact hs.congr rfl rfl fun _ h => h

theorem Client.BeatStep.acknowledges (h : Client.BeatStep s s') (hs : Acknowledges lines s) :
    Acknowledges lines s' := by
  cases h with
  | send hbuilt hsend =>
      have hs₁ := hs.sends_other hsend (t := .heartbeatMsg) (msgType?_of_find rfl) (by decide)
      exact hs₁.congr rfl rfl fun _ h => h
  | _ => exact hs.congr rfl rfl fun _ h => h

end Alone
section Runs
variable [Strtod] [LawfulStrtod] {db : Database} {conn : Conn} {c : Conversation}
  {s s' : Client.Threads} {x : ClusterConfig}

/-- A line that the client takes for a chat message is one. -/
theorem Sound.isChat (hc : Sound conn db c) {line : Sent}
    (hline : line ∈ c.cluster.view.state.out conn) {js : Json}
    (hparse : JsonParser.parse line.payload = some js) {msgtype : ℤ}
    (hmsg : Client.intAt js "msgid" = some msgtype)
    (hchat : msgtype = EnMsgType.oneChatMsg.code ∨ msgtype = EnMsgType.groupChatMsg.code) :
    line.IsChat := by
  cases line with
  | raw payload => trivial
  | json js' =>
      rcases hc.run with ⟨es, hrun⟩
      rw [out_sendsOn hrun, List.mem_map] at hline
      rcases hline with ⟨p, hp, heq⟩
      have hdid := mem_sendsOn hp
      rw [heq] at hdid
      have hread := parse_dump_of_normal (normal_of_recorded hrun hc.parsed hdid)
      obtain rfl := Option.some.inj (hread.symm.trans hparse)
      have htype : msgType? js' = EnMsgType.ofCode? msgtype := by
        rw [msgType?, show (js'.find? "msgid").bind Json.getInt32? = some msgtype from hmsg]
        rfl
      rcases hchat with rfl | rfl
      · exact .inl (htype.trans (EnMsgType.ofCode?_code .oneChatMsg))
      · exact .inr (htype.trans (EnMsgType.ofCode?_code .groupChatMsg))

theorem Client.ReadStep.acknowledges (h : Client.ReadStep (x.view.state.out conn) s s')
    (hc : Sound conn db ⟨s, x⟩) (hi : Informed conn x.view.past s)
    (hs : Acknowledges (x.view.state.out conn) s) :
    Acknowledges (x.view.state.out conn) s' := by
  have hlast : ∀ {line}, (x.view.state.out conn)[s.received]? = some line →
      line ∈ (x.view.state.out conn).take (s.received + 1) := by
    intro line hline
    rw [List.take_add_one, hline]
    simp
  have hearlier : ∀ js ∈ s.reader.acks,
      js.AckOf ((x.view.state.out conn).take (s.received + 1)) := fun js hjs =>
    (hs.reader js hjs).mono fun line hline =>
      (List.take_sublist_take_left (Nat.le_succ _)).subset hline
  cases h with
  | unparsed | other => exact hs.read_line rfl rfl hearlier
  | @chat line js msgtype hreader hline hparse hmsg hchat hshow =>
      refine hs.read_line rfl rfl fun ack hack messageid hid => ?_
      have hchat' := hc.isChat (List.mem_of_getElem? hline) hparse hmsg hchat
      refine ⟨line, hlast hline, .inl ⟨hchat', ?_⟩⟩
      rw [textId?, hparse, Option.bind_some, ← Client.getLongLong_ack hack]
      exact hid
  | refused | registered => exact hs.read_line rfl rfl (by simp [Client.ReadThread.acks])
  | @accepted line js current acks hreader hline hparse hmsg herrno hresponse =>
      refine hs.read_line rfl rfl fun ack hack messageid hid => ?_
      rcases hc.awaitLogin hreader hline hparse hmsg with ⟨id, pwd, hmain⟩
      rcases hc.login_answered hreader hline hparse hmsg rfl rfl with ⟨-, -, hlogin⟩
      rcases loginAnswer_of_answeredBy hc (hlogin id pwd hmain).2 hparse with ⟨rfl, hanswer⟩
      have hconfirmed := (hanswer.success (hi.range id pwd (by rw [hmain]; rfl)) herrno).1
      rcases Client.offline_of_doLoginResponse hresponse hack with
        ⟨texts, hfind, text, hmem, htext⟩
      refine ⟨.json js, hlast hline, .inr ⟨js, texts, rfl, ?_, hfind, text, hmem, ?_⟩⟩
      · rw [hconfirmed]
        rfl
      · rw [htext]
        exact hid
  | @ack ack acks ok s₁ hreader hsend =>
      have hacks := hs.reader
      rw [hreader] at hacks
      have hs₁ := hs.sends hsend fun _ => hacks ack List.mem_cons_self
      rcases hsend.eq with ⟨sent, torn, rfl, -⟩
      refine ⟨hs₁.sent, fun js hjs => hacks js (List.mem_cons_of_mem ack hjs)⟩
  | @greet response ack acks ok s₁ hreader hsend =>
      have hacks := hs.reader
      rw [hreader] at hacks
      have hs₁ := hs.sends hsend fun _ => hacks ack List.mem_cons_self
      rcases hsend.eq with ⟨sent, torn, rfl, -⟩
      refine ⟨hs₁.sent, fun js hjs => hacks js (List.mem_cons_of_mem ack hjs)⟩
  | acked | greeted | post => exact hs.congr rfl rfl (by simp [Client.ReadThread.acks])

theorem Conversation.Reached.acknowledges (h : Conversation.Reached conn db c) :
    Acknowledges (c.cluster.view.state.out conn) c.client := by
  induction h with
  | refl => exact Acknowledges.start
  | @tail c c' hreached hstep ih =>
      have hc := Conversation.Reached.sound hreached
      have hi := Conversation.Reached.informed hreached
      cases hstep with
      | client hstep =>
          cases hstep with
          | main h => exact h.acknowledges ih
          | reader h => exact h.acknowledges hc hi ih
          | heartbeat h => exact h.acknowledges ih
      | @cluster s x y e hstep harrives =>
          rcases hc.run with ⟨es, hrun⟩
          rcases hc.paired with ⟨waits, hpaired⟩
          rcases sendsOn_cons conn e x.view.past with ⟨more, hmore⟩
          have hout : y.view.state.out conn = x.view.state.out conn ++ more.map Prod.snd := by
            rw [out_sendsOn (hrun.step hstep), hstep.moves.recorded, hmore, List.map_append,
              out_sendsOn hrun]
          change Acknowledges (y.view.state.out conn) s
          rw [hout]
          exact Acknowledges.append ih hpaired.read _

/-- Whatever acknowledgement of a client reaches a handler: the message had been handed to its
connection before, as a chat frame or in the answer to a login. This is what the service
expects of its clients. -/
theorem client_acks_received (h : Conversation.Reached conn db c) {newer older : List ClusterEntry}
    {js : Json} {time : String}
    (hpast : c.cluster.view.past = newer ++ .started (.frame conn js time) :: older)
    (hack : msgType? js = some .msgAck) {messageid : ℤ}
    (hid : getLongLong js "messageid" = some messageid) :
    ∃ j line, .did j (.sendTo conn line) () ∈ older ∧ line.Shows messageid := by
  induction h generalizing newer with
  | refl =>
      change [] = newer ++ .started (.frame conn js time) :: older at hpast
      simp at hpast
  | @tail c c' hreached hstep ih =>
      cases hstep with
      | client => exact ih hpast
      | @cluster s x y e hstep harrives =>
          change y.view.past = _ at hpast
          rw [hstep.moves.recorded] at hpast
          cases newer with
          | cons first newer =>
              rw [List.cons_append, List.cons.injEq] at hpast
              exact ih hpast.2
          | nil =>
              rw [List.nil_append, List.cons.injEq] at hpast
              rcases hpast with ⟨rfl, rfl⟩
              have hc := Conversation.Reached.sound hreached
              have hacknowledges := Conversation.Reached.acknowledges hreached
              rcases hc.run with ⟨es, hrun⟩
              have hsent : js ∈ s.sent :=
                (harrives.inOrder js time rfl).subset (List.mem_append_right _ (by simp))
              rcases hacknowledges.sent js hsent hack messageid hid with ⟨line, hline, hshows⟩
              have hline' := List.mem_of_mem_take hline
              change line ∈ x.view.state.out conn at hline'
              rw [out_sendsOn hrun, List.mem_map] at hline'
              rcases hline' with ⟨p, hp, rfl⟩
              exact ⟨p.1, p.2, mem_sendsOn hp, hshows⟩

end Runs
/-- User `2` sends a message to user `1`. -/
def shownCues : List (Cue Job Agent Choice) :=
  .start (.frame ⟨0, 0⟩ (Client.loginRequest 1 "pw") "") ::
    List.replicate 10 (.act (.io ⟨0, 0⟩) {}) ++
  .start (.frame ⟨0, 1⟩ (Client.loginRequest 2 "pw") "") ::
    List.replicate 10 (.act (.io ⟨0, 1⟩) {}) ++
  .start (.frame ⟨0, 1⟩ (Client.chatRequest 2 "bob" 1 "hi" "now") "") ::
    List.replicate 10 (.act (.io ⟨0, 1⟩) { clockMs := 1 })

/-- User `1` has been sent the answer to its login and the message. -/
def shows [JsonParser] (x : ClusterConfig) : Bool :=
  match x.view.state.out ⟨0, 0⟩ with
  | [.json response, .json chat] =>
      decide (Client.intAt response "msgid" = some EnMsgType.loginMsgAck.code) &&
        decide (Client.intAt response "errno" = some 0) &&
          (Client.doLoginResponse response Client.Threads.start.current).any
            (fun p => p.2.isEmpty) &&
              decide (Client.intAt chat "msgid" = some EnMsgType.oneChatMsg.code) &&
                (Client.showMessage chat).isSome && (getLongLong chat "messageid").isSome
  | _ => false

/-- The login of user `1` has been answered and the message has been handed to its
connection. -/
structure Shown [JsonParser] (x : ClusterConfig) (response chat : Json)
    (current : Client.ClientState) : Prop where
  beside : Relation.ReflTransGen (Conversation.Beside ⟨0, 0⟩)
    ⟨.asked, Config.initial chatWorld⟩ ⟨.asked, x⟩
  handled : (x.slot (.io ⟨0, 0⟩)).Idle
  running : (x.view.state.node 0).running = true ∧ (⟨0, 0⟩ : Conn) ∉ x.view.state.closed
  jobs : (jobsOn ⟨0, 0⟩ x.view.past).map Job.request = [Client.loginRequest 1 "pw"]
  out : x.view.state.out ⟨0, 0⟩ = [.json response, .json chat]
  response_parsed : JsonParser.parse (Sent.json response).payload = some response
  response_msgid : Client.intAt response "msgid" = some EnMsgType.loginMsgAck.code
  errno : Client.intAt response "errno" = some 0
  current : Client.doLoginResponse response Client.Threads.start.current = some (current, [])
  chat_parsed : JsonParser.parse (Sent.json chat).payload = some chat
  chat_msgid : Client.intAt chat "msgid" = some EnMsgType.oneChatMsg.code
  shown : (Client.showMessage chat).isSome
  messageid : (getLongLong chat "messageid").isSome

/-- The client's next line is handled. -/
theorem Arrives.frame [JsonParser] {conn : Conn} {sent : List Json} {past : List ClusterEntry}
    {js : Json} {text time : String} (hparse : JsonParser.parse text = some js)
    (hnext : (jobsOn conn past).map Job.request ++ [js] <+: sent) :
    Arrives conn sent past (.started (.frame conn js time)) := by
  constructor
  · intro c js' time' heq
    cases heq
    exact ⟨text, hparse⟩
  · intro js' time' heq
    cases heq
    exact hnext

theorem exists_shown : (letI : Strtod := Parser.noDoubles
    ∃ x response chat current, Shown x response chat current) := by
  let _ := Parser.noDoubles
  rcases hostileReplayer.exists_steps_started (s := chatWorld) shownCues
    (p := fun x => shows x && decide ((jobsOn ⟨0, 0⟩ x.view.past).length = 1) &&
      (jobsOn ⟨0, 0⟩ x.view.past).all (fun j => decide (j.agent = .io ⟨0, 0⟩)) &&
        decide ((x.slot (.io ⟨0, 0⟩)).Idle) && decide ((x.view.state.node 0).running = true ∧
          (⟨0, 0⟩ : Conn) ∉ x.view.state.closed))
    (by decide +kernel) with ⟨es, x, hrun, hjobs, hx⟩
  simp only [Bool.and_eq_true, decide_eq_true_eq, List.all_eq_true] at hx
  rcases hx with ⟨⟨⟨⟨hshows, hlength⟩, hagent⟩, hidle⟩, hopen⟩
  have hstarts : ∀ j, .started j ∈ x.view.past →
      j = .frame ⟨0, 0⟩ (Client.loginRequest 1 "pw") "" ∨
        j = .frame ⟨0, 1⟩ (Client.loginRequest 2 "pw") "" ∨
          j = .frame ⟨0, 1⟩ (Client.chatRequest 2 "bob" 1 "hi" "now") "" := by
    intro j hj
    simpa [shownCues] using hjobs j hj
  have hparsed : FramesParsed x.view.past := by
    intro conn js time hstart
    have hwrites : Client.Writes js := by
      rcases hstarts _ hstart with h | h | h <;> cases h
      · exact .login 1 "pw"
      · exact .login 2 "pw"
      · exact .chat 2 "bob" 1 "hi" "now"
    exact ⟨_, Parser.parse_dump_of_normal hwrites.normal⟩
  have hrequests : (jobsOn ⟨0, 0⟩ x.view.past).map Job.request =
      [Client.loginRequest 1 "pw"] := by
    rcases List.length_eq_one_iff.mp hlength with ⟨j, hj⟩
    have hmem : j ∈ jobsOn ⟨0, 0⟩ x.view.past := by simp [hj]
    have hio := hagent j hmem
    rcases hstarts j (mem_jobsOn hmem) with rfl | rfl | rfl
    · rw [hj]
      rfl
    · exact absurd hio (by decide)
    · exact absurd hio (by decide)
  have hbeside := beside_run (s := .asked) hrun hparsed (by rw [hrequests]; exact List.prefix_rfl)
  have hread : ∀ js, Sent.json js ∈ x.view.state.out ⟨0, 0⟩ →
      JsonParser.parse (Sent.json js).payload = some js := by
    intro js hmem
    rw [out_sendsOn hrun, List.mem_map] at hmem
    rcases hmem with ⟨p, hp, heq⟩
    have hdid := mem_sendsOn hp
    rw [heq] at hdid
    exact Parser.parse_dump_of_normal (normal_of_recorded hrun hparsed hdid)
  unfold shows at hshows
  split at hshows
  · next response chat hout =>
    simp only [Bool.and_eq_true, decide_eq_true_eq, Option.any_eq_true] at hshows
    rcases hshows with
      ⟨⟨⟨⟨⟨hmsg, herrno⟩, ⟨current, acks⟩, hlogin, hacks⟩, hchat⟩, hshown⟩, hid⟩
    have hnil : acks = [] := List.isEmpty_iff.mp hacks
    rw [hnil] at hlogin
    have hresponse := hread response (by simp [hout])
    have hmessage := hread chat (by simp [hout])
    exact ⟨x, response, chat, current, hbeside, hidle, hopen, hrequests, hout, hresponse, hmsg,
      herrno, hlogin, hmessage, hchat, hshown, hid⟩
  · cases hshows

theorem client_acks_received_ann : (letI : Strtod := Parser.noDoubles
    ∃ c newer older ack messageid j line,
      Conversation.Reached ⟨0, 0⟩ (Statement.registered [("ann", "pw"), ("bob", "pw")]) c ∧
        c.cluster.view.past = newer ++ .started (.frame ⟨0, 0⟩ ack "") :: older ∧
          .did j (.sendTo ⟨0, 0⟩ line) () ∈ older ∧ line.Shows messageid) := by
  let _ := Parser.noDoubles
  rcases exists_shown with ⟨x, response, chat, current, h⟩
  rcases Option.isSome_iff_exists.mp h.messageid with ⟨messageid, hid⟩
  have hacks : ∃ v, Client.ackMessageIfNeeded current.currentId chat =
      [Client.ackRequest current.currentId v] := by
    rw [getLongLong] at hid
    split at hid
    · next hfind => exact ⟨_, by rw [Client.ackMessageIfNeeded, hfind]⟩
    · next hfind => exact ⟨_, by rw [Client.ackMessageIfNeeded, hfind]⟩
    · cases hid
  rcases hacks with ⟨v, hacks⟩
  have hack : Client.ackRequest current.currentId v ∈
      Client.ackMessageIfNeeded current.currentId chat := by simp [hacks]
  have hfirst : (x.view.state.out ⟨0, 0⟩)[0]? = some (.json response) := by
    rw [h.out]
    rfl
  have hsecond : (x.view.state.out ⟨0, 0⟩)[1]? = some (.json chat) := by
    rw [h.out]
    rfl
  have hasked := Conversation.Reached.beside reached_asked h.beside
  have haccepted := hasked.tail (.client (.reader
    (.accepted rfl hfirst h.response_parsed h.response_msgid h.errno h.current)))
  have hgreeted := haccepted.tail (.client (.reader (.greeted rfl)))
  have hposted := hgreeted.tail (.client (.reader (.post rfl)))
  have hshown := hposted.tail (.client (.reader
    (.chat rfl hsecond h.chat_parsed h.chat_msgid (.inl rfl) h.shown)))
  have hacked := hshown.tail (.client (.reader (.ack (by rw [hacks]) (.whole rfl))))
  have hwrites : Client.Writes (Client.ackRequest current.currentId v) :=
    .ack _ _ chat _ h.chat_parsed hack
  let e : ClusterEntry := .started (.frame ⟨0, 0⟩ (Client.ackRequest current.currentId v) "")
  have hmoves : Moves hostileCluster x.view e ⟨x.view.state, e :: x.view.past⟩ :=
    ⟨⟨h.running.1, h.running.2, rfl⟩, rfl, trivial⟩
  have hstart : Interleaving.Step hostileCluster x e _ := .start _ h.handled hmoves
  have harrives : Arrives ⟨0, 0⟩
      [Client.loginRequest 1 "pw", Client.ackRequest current.currentId v] x.view.past e := by
    refine Arrives.frame (Parser.parse_dump_of_normal hwrites.normal) ?_
    rw [h.jobs]
    exact List.prefix_rfl
  have hreached := hacked.tail (.cluster hstart harrives)
  have hpast : e :: x.view.past = [] ++ e :: x.view.past := rfl
  have hid' : getLongLong (Client.ackRequest current.currentId v) "messageid" = some messageid :=
    (Client.getLongLong_ack hack).trans hid
  rcases client_acks_received hreached hpast (msgType?_of_find rfl) hid' with
    ⟨j, line, hmem, hline⟩
  exact ⟨_, [], x.view.past, _, messageid, j, line, hreached, hpast, hmem, hline⟩

end ChatCluster
