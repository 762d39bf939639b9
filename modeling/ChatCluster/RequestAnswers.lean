import ChatCluster.Library.Output
import ChatCluster.FrameTexts
import ChatCluster.LoginWindow

/-!
# One answer to each request

A client that has sent a login, a registration or a heartbeat waits for a frame of the
matching type. Each handler of such a request sends exactly one, on its own connection and
on every path; no other handler sends one, and a chat frame that reaches a connection as a
text cannot pass for one. So what a client reads as answers on its connection are, in
order, answers to its own requests.
-/
namespace ChatCluster
open CommandProgram Interleaving

/-- The type of the frame that answers a request. -/
def EnMsgType.answer? : EnMsgType → Option EnMsgType
  | .loginMsg => some .loginMsgAck
  | .regMsg => some .regMsgAck
  | .heartbeatMsg => some .heartbeatMsg
  | _ => none

/-- The types that a client takes for answers. -/
def EnMsgType.isAnswer : EnMsgType → Bool
  | .loginMsgAck | .regMsgAck | .heartbeatMsg => true
  | _ => false

def answerType? (js : Json) : Option EnMsgType := (msgType? js).filter EnMsgType.isAnswer

/-- The type that is due for a request. -/
def dueType? (js : Json) : Option EnMsgType := (msgType? js).bind EnMsgType.answer?

/-- An answer, with the job that sends it and the connection it goes to. -/
structure Reply where
  job : Job
  conn : Conn
  type : EnMsgType

/-- What a command sends that is an answer. -/
def Job.replies (j : Job) : Command → List Reply
  | .sendTo conn (.json js) => (answerType? js).toList.map fun t => ⟨j, conn, t⟩
  | _ => []

/-- The answers that are due for a job. -/
def Job.due (j : Job) : List Reply :=
  match j with
  | .frame conn js _ => (dueType? js).toList.map fun t => ⟨j, conn, t⟩
  | _ => []

theorem answerType?_of_msgType {js : Json} {t : EnMsgType} (h : msgType? js = some t) :
    answerType? js = if t.isAnswer then some t else none := by
  rw [answerType?, h]
  rfl

theorem dueType?_of_msgType {js : Json} {t : EnMsgType} (h : msgType? js = some t) :
    dueType? js = t.answer? := by
  rw [dueType?, h]
  rfl

/-- A command that sends no answer. -/
def Command.Silent (c : Command) : Prop := ∀ j : Job, j.replies c = []

theorem silent_sql (q : Statement) : (Command.sql q).Silent := fun _ => rfl

theorem silent_node (q : NodeOp) : (Command.node q).Silent := fun _ => rfl

theorem silent_raw (conn : Conn) (payload : String) : (Command.sendTo conn (.raw payload)).Silent :=
  fun _ => rfl

theorem silent_chat {conn : Conn} {js : Json} {t : EnMsgType} (h : msgType? js = some t)
    (ht : t.isAnswer = false) : (Command.sendTo conn (.json js)).Silent := by
  intro j
  rw [Job.replies, answerType?_of_msgType h, ht]
  rfl

/-! ## The handlers -/

section Handlers
variable {conn : Conn} {js : Json} {time : String} {j : Job}

theorem emits_of_silent {α : Type} {p : Program α} (h : p.All Command.Silent) :
    p.Emits j.replies [] := (h.mono fun _ hc => hc j).emits

/-- A silent program does not change what the rest puts out. -/
theorem emits_after_silent {α β : Type} {p : Program α} {f : α → Program β} {P : α → Prop}
    {l : List Reply} (h : p.All Command.Silent) (hreturns : p.Returns P)
    (hf : ∀ a, P a → (f a).Emits j.replies l) : (p >>= f).Emits j.replies l :=
  (emits_of_silent h).bind hreturns hf

/-- One answer of type `t`, sent on `conn`. -/
theorem emits_answer {response : Json} {t : EnMsgType} (h : msgType? response = some t)
    (ht : t.isAnswer = true) : (sendJson conn response).Emits j.replies [⟨j, conn, t⟩] := by
  have hreplies : j.replies (.sendTo conn (.json response)) = [⟨j, conn, t⟩] := by
    rw [Job.replies, answerType?_of_msgType h, ht]
    rfl
  exact hreplies ▸ Prog.emits_perform (Command.sendTo conn (.json response))

theorem emits_errorResponse (conn : Conn) (j : Job) {t : EnMsgType} (ht : t.isAnswer = true)
    (errno : ℤ) (errmsg : String) :
    (sendJson conn (errorResponse t errno errmsg)).Emits j.replies [⟨j, conn, t⟩] :=
  emits_answer (msgType?_errorResponse ..) ht

theorem silent_openSession (id : ℤ) (user : User) :
    (openSession conn id user).All Command.Silent :=
  all_openSession (silent_node _) (silent_node _) (silent_node _) (silent_sql _)

theorem silent_syncSession (id : ℤ) (user : User) : (syncSession id user).All Command.Silent := by
  apply all_syncSession (silent_sql _)
  · exact fun _ => silent_sql _
  · intro c hc
    cases hc <;> exact silent_sql _

/-- Refused or accepted, a login is answered once. -/
theorem emits_login : (login conn js).Emits j.replies [⟨j, conn, .loginMsgAck⟩] := by
  have hrefuse := emits_errorResponse conn j (t := .loginMsgAck) rfl
  unfold login
  split
  · next id pwd _ _ =>
    have hquery : (UserModel.query id).All Command.Silent := ⟨silent_sql _, fun _ => trivial⟩
    refine emits_after_silent hquery (Prog.returns_true _) fun user _ => ?_
    split_ifs
    · exact hrefuse _ _
    · have hreturns : (syncSession id user).Returns fun response =>
          msgType? response = some .loginMsgAck :=
        returns_syncSession fun _ _ _ => msgType?_loginResponse ..
      refine emits_after_silent (silent_openSession id user) (Prog.returns_true _) fun _ _ => ?_
      refine emits_after_silent (silent_syncSession id user) hreturns fun response hresponse => ?_
      exact emits_answer hresponse rfl
    · exact hrefuse _ _
  · exact hrefuse _ _

theorem emits_reg : (reg conn js).Emits j.replies [⟨j, conn, .regMsgAck⟩] := by
  have hrefuse := emits_errorResponse conn j (t := .regMsgAck) rfl
  unfold reg
  split
  · split_ifs
    · exact hrefuse _ _
    · next name pwd _ _ _ =>
      have hinsert : (UserModel.insert { name := name, pwd := pwd }).All Command.Silent :=
        ⟨silent_sql _, fun _ => trivial⟩
      refine emits_after_silent hinsert (Prog.returns_true _) fun id? _ => ?_
      cases id? with
      | some id => exact emits_answer (msgType?_of_find rfl) rfl
      | none => exact emits_answer (msgType?_of_find rfl) rfl
  · exact hrefuse _ _

theorem emits_heartbeat : (heartbeat conn js time).Emits j.replies [⟨j, conn, .heartbeatMsg⟩] := by
  unfold heartbeat
  split
  · exact emits_answer (msgType?_of_find rfl) rfl
  · exact emits_answer (msgType?_of_find rfl) rfl

/-- The frames that may pass through a delivery without being an answer. -/
def Sent.Silent (s : Sent) : Prop := ∀ conn, (Command.sendTo conn s).Silent

theorem Command.OfDelivery.silent {Q : ℤ → ℤ → String → Prop} {c : Command}
    (h : c.OfDelivery Q Sent.Silent) : c.Silent := by
  cases h with
  | send conn s hs => exact hs conn
  | _ => exact fun _ => rfl

theorem Command.OfTeardown.silent {P : ℤ → Prop} {c : Command} (h : c.OfTeardown P) :
    c.Silent := by
  cases h <;> exact fun _ => rfl

theorem silent_oneChat (h : msgType? js = some .oneChatMsg) :
    (oneChat conn js).All Command.Silent := by
  have hchat : ∀ messageid, (Sent.json (stampOneChat js messageid)).Silent := fun messageid _ =>
    silent_chat ((msgType?_stampOneChat js messageid).trans h) rfl
  have hall : (oneChat conn js).All (Command.OfDelivery (fun _ _ _ => True) Sent.Silent) :=
    ofDelivery_oneChat (fun _ _ _ _ _ _ _ _ => trivial) hchat
  exact hall.mono fun _ => Command.OfDelivery.silent

theorem silent_groupChat (h : msgType? js = some .groupChatMsg) :
    (groupChat conn js).All Command.Silent := by
  have hchat : ∀ messageid id, (Sent.json (stampGroupChat js messageid id)).Silent :=
    fun messageid id _ => silent_chat ((msgType?_stampGroupChat js messageid id).trans h) rfl
  have hall : (groupChat conn js).All (Command.OfDelivery (fun _ _ _ => True) Sent.Silent) :=
    ofDelivery_groupChat (fun _ _ _ _ _ _ _ => trivial) hchat
  exact hall.mono fun _ => Command.OfDelivery.silent

theorem silent_loginout : (loginout conn js).All Command.Silent :=
  (ofTeardown_loginout (P := fun _ => True) fun _ _ => trivial).mono fun _ =>
    Command.OfTeardown.silent

/-- The handler of a frame sends the answer that is due for it, and no other. -/
theorem emits_onMessage :
    (onMessage conn js time).Emits j.replies ((dueType? js).toList.map fun t => ⟨j, conn, t⟩) := by
  have hcheck : ∀ userid, (Command.node (.mapIsBound userid conn)).Silent :=
    fun _ => silent_node _
  have hsql : ∀ {q : Statement}, (Command.sql q).Silent := silent_sql _
  rw [onMessage_eq]
  cases hmsg : msgType? js with
  | none =>
      rw [dueType?, hmsg]
      rfl
  | some t =>
      rw [dueType?_of_msgType hmsg]
      cases t with
      | loginMsg => exact emits_login
      | regMsg => exact emits_reg
      | heartbeatMsg => exact emits_heartbeat
      | loginoutMsg => exact emits_of_silent silent_loginout
      | oneChatMsg => exact emits_of_silent (silent_oneChat hmsg)
      | groupChatMsg => exact emits_of_silent (silent_groupChat hmsg)
      | msgAck => exact emits_of_silent (all_messageAck hcheck fun _ _ => hsql)
      | addFriendMsg => exact emits_of_silent (all_addFriend hcheck fun _ _ => hsql)
      | createGroupMsg =>
          exact emits_of_silent (all_createGroup hcheck (fun _ _ => hsql) fun _ _ => hsql)
      | addGroupMsg => exact emits_of_silent (all_addGroup hcheck fun _ _ => hsql)
      | loginMsgAck => rfl
      | regMsgAck => rfl

end Handlers

/-- Each job sends the answers that are due for it, and no other. -/
theorem emits_job [JsonParser] (j : Job) : j.body.Emits j.replies j.due := by
  cases j with
  | frame conn js time => exact emits_onMessage
  | close conn =>
      have hteardown : (clientCloseException conn).All Command.Silent :=
        all_clientCloseException (silent_node _)
          fun _ => Command.OfTeardown.silent (P := fun _ => True)
      exact emits_of_silent hteardown
  | redisMessage n channel message =>
      have hnotify : (handleRedisSubscribeMessage channel message).All Command.Silent :=
        all_handleRedisSubscribeMessage (silent_node _) (silent_node _) (fun _ => silent_raw _ _)
          (fun _ => silent_sql _) (silent_node _)
      exact emits_of_silent hnotify
  | sigint n =>
      have hreset : resetHandler.All Command.Silent :=
        ⟨silent_sql _, fun _ => ⟨silent_node _, fun _ => trivial⟩⟩
      exact emits_of_silent hreset

/-! ## Runs -/

/-- What the client reads in a line, if it is an answer. -/
def Sent.answer? [JsonParser] (s : Sent) : Option EnMsgType :=
  (JsonParser.parse s.payload).bind answerType?

/-- What the client of a connection has been sent, and the requests on the connection. -/
abbrev connAccount (conn : Conn) (past : List ClusterEntry) : Account Reply :=
  account Job.agent Job.replies Job.due (.io conn) past

/-- The frames whose handlers have been started on a connection, oldest first. -/
def jobsOn (conn : Conn) : List ClusterEntry → List Job
  | [] => []
  | .started (.frame c js time) :: past =>
      if c = conn then jobsOn conn past ++ [.frame c js time] else jobsOn conn past
  | _ :: past => jobsOn conn past

/-- What has been handed to a connection, and by which jobs, oldest first. -/
def sendsOn (conn : Conn) : List ClusterEntry → List (Job × Sent)
  | [] => []
  | .did j (.sendTo c s) _ :: past =>
      if c = conn then sendsOn conn past ++ [(j, s)] else sendsOn conn past
  | _ :: past => sendsOn conn past

/-- The request that a job handles. -/
def Job.request : Job → Json
  | .frame _ js _ => js
  | _ => .null

/-- The answers that are due for the requests on a connection, oldest first. -/
def requestsOn (conn : Conn) (past : List ClusterEntry) : List EnMsgType :=
  (jobsOn conn past).filterMap fun j => dueType? j.request

theorem filterMap_snoc {α β : Type} (f : α → Option β) (xs : List α) (x : α) :
    (xs ++ [x]).filterMap f = xs.filterMap f ++ (f x).toList := by
  rw [List.filterMap_append]
  cases h : f x <;> simp [h]

theorem due_connAccount (conn : Conn) (past : List ClusterEntry) :
    (connAccount conn past).due =
      (jobsOn conn past).filterMap fun j => (dueType? j.request).map fun t => ⟨j, conn, t⟩ := by
  induction past with
  | nil => rfl
  | cons e past ih =>
      cases e with
      | started j =>
          cases j with
          | frame c js time =>
              rw [connAccount, account, jobsOn]
              by_cases hc : c = conn
              · subst hc
                rw [if_pos (show (Job.frame c js time).agent = .io c from rfl), if_pos rfl,
                  filterMap_snoc, ← ih]
                cases hdue : dueType? js <;> simp [Account.start, Job.due, Job.request, hdue]
              · have hagent : (Job.frame c js time).agent ≠ .io conn := fun h => hc (Agent.io.inj h)
                rw [if_neg hagent, if_neg hc]
                exact ih
          | close c =>
              have hnone : (Account.start (Job.close c).due (connAccount conn past)).due =
                  (connAccount conn past).due := List.append_nil _
              rw [connAccount, account]
              split_ifs
              · exact hnone.trans ih
              · exact ih
          | redisMessage | sigint => exact ih
      | did j c r =>
          rw [connAccount, account]
          split_ifs <;> exact ih
      | aborted j =>
          rw [connAccount, account]
          split_ifs <;> exact ih
      | disturbed => exact ih

/-- The answers sent on a connection are sent by the jobs of that connection. -/
def SendsAtHome (past : List ClusterEntry) : Prop :=
  ∀ j c r, .did j c r ∈ past → ∀ reply ∈ j.replies c, j.agent = .io reply.conn

theorem SendsAtHome.tail {e : ClusterEntry} {past : List ClusterEntry}
    (h : SendsAtHome (e :: past)) : SendsAtHome past :=
  fun j c r hmem => h j c r (List.mem_cons_of_mem e hmem)

theorem conn_of_replies {j : Job} {conn : Conn} {s : Sent} {reply : Reply}
    (h : reply ∈ j.replies (.sendTo conn s)) : reply.conn = conn := by
  cases s with
  | raw payload => cases h
  | json js =>
      rcases List.mem_map.mp h with ⟨t, -, rfl⟩
      rfl

theorem paid_connAccount {past : List ClusterEntry} (h : SendsAtHome past) (conn : Conn) :
    (connAccount conn past).paid =
      (sendsOn conn past).flatMap fun p => p.1.replies (.sendTo conn p.2) := by
  induction past with
  | nil => rfl
  | cons e past ih =>
      have ih := ih h.tail
      cases e with
      | did j c r =>
          have hhome := h j c r List.mem_cons_self
          rw [connAccount, account]
          cases c with
          | sendTo d s =>
              rw [sendsOn]
              by_cases hd : d = conn
              · subst hd
                rw [if_pos rfl, List.flatMap_append, ← ih, List.flatMap_singleton]
                split_ifs with hagent
                · rfl
                · have hnil : j.replies (.sendTo d s) = [] :=
                    List.eq_nil_iff_forall_not_mem.mpr fun reply hreply =>
                      hagent (conn_of_replies hreply ▸ hhome reply hreply)
                  rw [hnil, List.append_nil]
              · rw [if_neg hd, ← ih]
                split_ifs with hagent
                · have hnil : j.replies (.sendTo d s) = [] :=
                    List.eq_nil_iff_forall_not_mem.mpr fun reply hreply =>
                      hd ((conn_of_replies hreply).symm.trans
                        (Agent.io.inj ((hhome reply hreply).symm.trans hagent)))
                  rw [hnil, Account.pay, List.append_nil]
                · rfl
          | sql | node | redisPublish =>
              split_ifs
              · exact (List.append_nil _).trans ih
              · exact ih
      | started j =>
          rw [connAccount, account]
          split_ifs <;> exact ih
      | aborted j =>
          rw [connAccount, account]
          split_ifs <;> exact ih
      | disturbed => exact ih

theorem length_due_le (j : Job) : j.due.length ≤ 1 := by
  cases j with
  | frame conn js time =>
      rw [Job.due, List.length_map]
      cases dueType? js <;> simp
  | _ => simp [Job.due]

/-- A connection is at most one answer behind. -/
theorem length_owed_le (conn : Conn) (past : List ClusterEntry) :
    (connAccount conn past).owed.length ≤ 1 := by
  rcases account_owed Job.agent Job.replies Job.due (.io conn) past with hnil | ⟨j, -, hsuffix⟩
  · rw [connAccount, hnil]
    simp
  · exact hsuffix.length_le.trans (length_due_le j)

theorem mem_jobsOn {conn : Conn} {past : List ClusterEntry} {j : Job} (h : j ∈ jobsOn conn past) :
    .started j ∈ past := by
  induction past with
  | nil => cases h
  | cons e past ih =>
      rw [List.mem_cons]
      cases e with
      | started i =>
          cases i with
          | frame c js time =>
              rw [jobsOn] at h
              split_ifs at h
              · rcases List.mem_append.mp h with hrest | hlast
                · exact .inr (ih hrest)
                · rw [List.mem_singleton.mp hlast]
                  exact .inl rfl
              · exact .inr (ih h)
          | close | redisMessage | sigint => exact .inr (ih h)
      | did | aborted | disturbed => exact .inr (ih h)

theorem mem_sendsOn {conn : Conn} {past : List ClusterEntry} {p : Job × Sent}
    (h : p ∈ sendsOn conn past) : .did p.1 (.sendTo conn p.2) () ∈ past := by
  induction past with
  | nil => cases h
  | cons e past ih =>
      rw [List.mem_cons]
      cases e with
      | did j c r =>
          cases c with
          | sendTo d s =>
              rw [sendsOn] at h
              split_ifs at h with hd
              · rcases List.mem_append.mp h with hrest | hlast
                · exact .inr (ih hrest)
                · rw [List.mem_singleton.mp hlast, ← hd]
                  exact .inl rfl
              · exact .inr (ih h)
          | sql | node | redisPublish => exact .inr (ih h)
      | started | aborted | disturbed => exact .inr (ih h)

section Runs
open ChatCluster.Parser
variable [Strtod] {db : Database} {es : List ClusterEntry} {x : ClusterConfig}

/-- An answer is due for a request on the same connection. -/
theorem sendsAtHome (h : Steps hostileCluster (Config.initial (World.fresh db)) es x) :
    SendsAtHome x.view.past := by
  intro j c r hmem reply hreply
  have hdue := (h.did_all fun j => (emits_job j).all).1 j c r hmem reply hreply
  cases j with
  | frame d js time =>
      rcases List.mem_map.mp hdue with ⟨t, -, rfl⟩
      rfl
  | _ => cases hdue

theorem out_sendsOn (h : Steps hostileCluster (Config.initial (World.fresh db)) es x)
    (conn : Conn) : x.view.state.out conn = (sendsOn conn x.view.past).map Prod.snd := by
  induction h with
  | done => rfl
  | @step y z e es h hs ih =>
      rw [hs.moves.recorded]
      by_cases hsend : ∃ j d s r, e = .did j (.sendTo d s) r
      · rcases hsend with ⟨j, d, s, r, rfl⟩
        rw [out_sendTo hs.moves, sendsOn]
        by_cases hd : d = conn
        · subst hd
          rw [if_pos rfl, List.map_append, ← ih]
          exact Function.update_self ..
        · rw [if_neg hd, ← ih]
          exact Function.update_of_ne (Ne.symm hd) ..
      · rw [out_kept hs.moves fun j d s r he => hsend ⟨j, d, s, r, he⟩, ih]
        cases e with
        | did j c r =>
            cases c with
            | sendTo d s => exact absurd ⟨j, d, s, r, rfl⟩ hsend
            | _ => rfl
        | _ => rfl

variable [LawfulStrtod]

/-- A text that is passed on to a client is a chat frame. -/
theorem answer?_raw (h : Steps hostileCluster (Config.initial (World.fresh db)) es x)
    (hparsed : FramesParsed x.view.past) {j : Job} {conn : Conn} {payload : String} {r : Unit}
    (hmem : .did j (.sendTo conn (.raw payload)) r ∈ x.view.past) :
    (Sent.raw payload).answer? = none := by
  rcases List.append_of_mem hmem with ⟨newer, older, hpast⟩
  rcases h.at_entry hpast with ⟨_, _, y, z, hbefore, rfl, hs, -, -⟩
  have hparsed' : FramesParsed y.view.past := fun conn js time hstart =>
    hparsed conn js time (by simp [hpast, hstart])
  rcases storedChat_of_sent hbefore hs trivial with ⟨js, messageid, receiverid, hstored, -⟩
  have hparse := hstored.reads_back hbefore hparsed'
  have htype : msgType? (chatFrame js messageid receiverid) = msgType? js := by
    rw [chatFrame]
    split_ifs
    · exact msgType?_stampGroupChat ..
    · exact msgType?_stampOneChat ..
  rw [Sent.answer?, hparse, Option.bind_some]
  rcases (hstored.stores hbefore).1.type with hone | hgroup
  · rw [answerType?_of_msgType (htype.trans hone)]
    rfl
  · rw [answerType?_of_msgType (htype.trans hgroup)]
    rfl

/-- What a sent frame adds to the account of its connection is what the client reads. -/
theorem replies_read (h : Steps hostileCluster (Config.initial (World.fresh db)) es x)
    (hparsed : FramesParsed x.view.past) {j : Job} {conn : Conn} {s : Sent} {r : Unit}
    (hmem : .did j (.sendTo conn s) r ∈ x.view.past) :
    j.replies (.sendTo conn s) = (s.answer?.map fun t => ⟨j, conn, t⟩).toList := by
  cases s with
  | raw payload =>
      rw [answer?_raw h hparsed hmem]
      rfl
  | json js =>
      have hparse := parse_dump_of_normal (normal_of_recorded h hparsed hmem)
      have hread : (Sent.json js).answer? = answerType? js := by
        rw [Sent.answer?, Sent.payload, show JsonParser.parse js.dump = some js from hparse]
        rfl
      rw [hread, Job.replies]
      cases answerType? js <;> rfl

/-- What is paid on the account of a connection is what its client reads as answers. -/
theorem paid_read (h : Steps hostileCluster (Config.initial (World.fresh db)) es x)
    (hparsed : FramesParsed x.view.past) (conn : Conn) :
    (connAccount conn x.view.past).paid =
      (sendsOn conn x.view.past).filterMap fun p => p.2.answer?.map fun t => ⟨p.1, conn, t⟩ := by
  have hread : ∀ p ∈ sendsOn conn x.view.past, p.1.replies (.sendTo conn p.2) =
      (p.2.answer?.map fun t => ⟨p.1, conn, t⟩).toList := fun p hp =>
    replies_read h hparsed (mem_sendsOn hp)
  rw [paid_connAccount (sendsAtHome h) conn, List.flatMap_congr hread, List.filterMap_eq_flatMap_toList]

/-- In every run the answers that a client reads on its connection are, in order, answers to
requests that were made on it. As long as none of its handlers was stopped there is one for
each request, except for the request that is being handled. -/
theorem requests_answered_once
    (h : Steps hostileCluster (Config.initial (World.fresh db)) es x)
    (hparsed : FramesParsed x.view.past) (conn : Conn) :
    ((x.view.state.out conn).filterMap Sent.answer?).Sublist (requestsOn conn x.view.past) ∧
      ((∀ j, .aborted j ∈ x.view.past → j.agent ≠ .io conn) →
        ∃ pending, pending.length ≤ 1 ∧ ((x.slot (.io conn)).Idle → pending = []) ∧
          (x.view.state.out conn).filterMap Sent.answer? ++ pending =
            requestsOn conn x.view.past) := by
  have hpaid : (connAccount conn x.view.past).paid.map Reply.type =
      (x.view.state.out conn).filterMap Sent.answer? := by
    rw [paid_read h hparsed, out_sendsOn h, List.map_filterMap, List.filterMap_map]
    simp [Function.comp_def]
  have hdue : (connAccount conn x.view.past).due.map Reply.type = requestsOn conn x.view.past := by
    rw [due_connAccount, requestsOn, List.map_filterMap]
    simp [Function.comp_def]
  have hbalanced := h.balanced emits_job (.io conn)
  rw [← hpaid, ← hdue]
  constructor
  · exact ((List.sublist_append_left ..).trans hbalanced.within).map _
  · intro hab
    have hsettled := hbalanced.settled (account_stopped _ _ _ hab)
    refine ⟨(connAccount conn x.view.past).owed.map Reply.type, ?_, ?_, ?_⟩
    · rw [List.length_map]
      exact length_owed_le conn _
    · intro hidle
      have hnone := (h.onAccount emits_job (.io conn)).1.of_idle hidle
      exact congrArg (List.map Reply.type) hnone
    · rw [← List.map_append]
      exact congrArg (List.map Reply.type) hsettled

end Runs

/-- A login, executed to its end. -/
def loginCues : List (Cue Job Agent Choice) :=
  .start (.frame ⟨0, 0⟩ (Client.loginRequest 1 "pw") "") ::
    List.replicate 10 (.act (.io ⟨0, 0⟩) {})

def neverAborted (past : List ClusterEntry) : Bool :=
  past.all fun
    | .aborted _ => false
    | _ => true

/-- A run in which a login has been answered. -/
theorem requests_answered_once_login : (letI : Strtod := Parser.noDoubles
    ∃ es x, Steps hostileCluster (Config.initial chatWorld) es x ∧
      requestsOn ⟨0, 0⟩ x.view.past = [.loginMsgAck] ∧
      (x.view.state.out ⟨0, 0⟩).filterMap Sent.answer? = [.loginMsgAck]) := by
  let _ := Parser.noDoubles
  rcases hostileReplayer.exists_steps_started (s := chatWorld) loginCues
    (p := fun x => neverAborted x.view.past && decide ((x.slot (.io ⟨0, 0⟩)).Idle ∧
      requestsOn ⟨0, 0⟩ x.view.past = [.loginMsgAck])) (by decide +kernel) with
    ⟨es, x, hrun, hjobs, hx⟩
  rcases Bool.and_eq_true_iff.mp hx with ⟨hnever, hdecided⟩
  rcases of_decide_eq_true hdecided with ⟨hidle, hrequests⟩
  have hparsed : FramesParsed x.view.past := by
    intro conn js time hstart
    have hj := hjobs _ hstart
    simp only [loginCues, List.mem_cons, List.mem_replicate, Cue.start.injEq, reduceCtorEq,
      and_false, or_false, Job.frame.injEq] at hj
    rcases hj with ⟨-, rfl, -⟩
    exact ⟨_, Parser.parse_dump_of_normal (by grind [Client.loginRequest])⟩
  refine ⟨es, x, hrun, hrequests, ?_⟩
  rcases (requests_answered_once hrun hparsed ⟨0, 0⟩).2 fun j hmem =>
    absurd (List.all_eq_true.mp hnever _ hmem) Bool.false_ne_true with ⟨pending, -, hnone, hsettled⟩
  rw [hnone hidle, List.append_nil] at hsettled
  rw [hsettled, hrequests]

end ChatCluster
