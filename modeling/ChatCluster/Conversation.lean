import ChatCluster.ClientThreads

/-!
# A client and the cluster

One client process talks to the cluster over its connection. The lines that it writes reach
the handlers of the connection in order, and it reads the lines that are written to it in
order; apart from that its threads and all agents of the cluster move as they like, with any
other clients. The semaphore pairs the main thread's requests with the answers: it is posted
only when the main thread waits for just this answer.
-/
namespace ChatCluster
open CommandProgram Interleaving

/-! ## The joint system -/

/-- A client and the cluster. -/
structure Conversation where
  client : Client.Threads
  cluster : ClusterConfig

def Conversation.start (db : Database) : Conversation :=
  ⟨.start, Config.initial (World.fresh db)⟩

/-- What lets a handler start: its frame has been parsed, and the frames of connection `conn`
are those that its client has sent, in order. -/
structure Arrives [JsonParser] (conn : Conn) (sent : List Json) (past : List ClusterEntry)
    (e : ClusterEntry) : Prop where
  parsed : ∀ c js time, e = .started (.frame c js time) →
    ∃ text, JsonParser.parse text = some js
  inOrder : ∀ js time, e = .started (.frame conn js time) →
    (jobsOn conn past).map Job.request ++ [js] <+: sent

/-- One step of the client on connection `conn` or of the cluster. -/
inductive Conversation.Step [JsonParser] (conn : Conn) : Conversation → Conversation → Prop
  | client {s s' : Client.Threads} {x : ClusterConfig} :
      Client.ThreadStep (x.view.state.out conn) s s' → Step conn ⟨s, x⟩ ⟨s', x⟩
  | cluster {s : Client.Threads} {x y : ClusterConfig} {e : ClusterEntry} :
      Interleaving.Step hostileCluster x e y → Arrives conn s.sent x.view.past e →
      Step conn ⟨s, x⟩ ⟨s, y⟩

/-- The conversations that can be reached from a database. -/
def Conversation.Reached [JsonParser] (conn : Conn) (db : Database) : Conversation → Prop :=
  Relation.ReflTransGen (Conversation.Step conn) (.start db)

/-- A step in which the main thread stays where it is. -/
def Conversation.Beside [JsonParser] (conn : Conn) (c c' : Conversation) : Prop :=
  Conversation.Step conn c c' ∧ c'.client.main = c.client.main

/-! ## Requests that are waited for -/

/-- The types of answers behind which the receive thread posts. -/
def EnMsgType.posts : EnMsgType → Bool
  | .loginMsgAck | .regMsgAck => true
  | _ => false

/-- A line behind which the receive thread posts. -/
def Sent.posts [JsonParser] (s : Sent) : Bool := s.answer?.any EnMsgType.posts

/-- A request that is answered by such a line. -/
def Json.asks (js : Json) : Bool := (dueType? js).any EnMsgType.posts

theorem asks_of_msgType {js : Json} {t : EnMsgType} (h : msgType? js = some t) :
    js.asks = t.answer?.any EnMsgType.posts := by
  rw [Json.asks, dueType?_of_msgType h]

namespace Client

/-- The request that the main thread waits for. -/
def MainThread.awaits : MainThread → Option Json
  | .awaitLogin id pwd => some (loginRequest id pwd)
  | .awaitReg name pwd => some (regRequest name pwd)
  | _ => none

/-- The receive thread is behind an answer and has not posted yet. -/
def ReadThread.busy : ReadThread → ℕ
  | .greeting _ _ | .posting _ => 1
  | _ => 0

/-- What the receive thread has still to acknowledge. -/
def ReadThread.acks : ReadThread → List Json
  | .acking acks | .greeting _ acks => acks
  | _ => []

theorem asks_loginRequest (id : ℤ) (pwd : String) : (loginRequest id pwd).asks = true :=
  asks_of_msgType (t := .loginMsg) (msgType?_of_find rfl)

theorem asks_regRequest (name pwd : String) : (regRequest name pwd).asks = true :=
  asks_of_msgType (t := .regMsg) (msgType?_of_find rfl)

theorem asks_loginoutRequest (id : ℤ) : (loginoutRequest id).asks = false :=
  asks_of_msgType (t := .loginoutMsg) (msgType?_of_find rfl)

theorem asks_heartbeatRequest (id : ℤ) : (heartbeatRequest id).asks = false :=
  asks_of_msgType (t := .heartbeatMsg) (msgType?_of_find rfl)

theorem asks_of_msgAck {ack : Json} (h : msgType? ack = some .msgAck) : ack.asks = false :=
  asks_of_msgType h

theorem MenuRequest.asks {current : ClientState} {js : Json} (h : MenuRequest current js) :
    js.asks = false := by
  cases h with
  | chat => exact asks_of_msgType (t := .oneChatMsg) (msgType?_of_find rfl)
  | groupchat => exact asks_of_msgType (t := .groupChatMsg) (msgType?_of_find rfl)
  | addfriend => exact asks_of_msgType (t := .addFriendMsg) (msgType?_of_find rfl)
  | creategroup => exact asks_of_msgType (t := .createGroupMsg) (msgType?_of_find rfl)
  | addgroup => exact asks_of_msgType (t := .addGroupMsg) (msgType?_of_find rfl)

theorem msgType?_ackMessageIfNeeded {u : ℤ} {js ack : Json} (h : ack ∈ ackMessageIfNeeded u js) :
    msgType? ack = some .msgAck := by
  unfold ackMessageIfNeeded at h
  split at h
  · rw [List.mem_singleton.mp h]
    exact msgType?_of_find rfl
  · cases h

theorem msgType?_showOfflineMessages [JsonParser] {u : ℤ} {vec : List String} {acks : List Json}
    (h : showOfflineMessages u vec = some acks) : ∀ ack ∈ acks, msgType? ack = some .msgAck := by
  induction vec generalizing acks with
  | nil =>
      cases h
      simp
  | cons str rest ih =>
      simp only [showOfflineMessages, Option.bind_eq_bind, Option.bind_eq_some_iff] at h
      rcases h with ⟨first, hfirst, more, hmore, hacks⟩
      cases hacks
      simp only [showOfflineMessage, Option.bind_eq_bind, Option.bind_eq_some_iff] at hfirst
      rcases hfirst with ⟨js, -, msgid, -, shown, -, hfirst⟩
      cases hfirst
      intro ack hack
      rcases List.mem_append.mp hack with hack | hack
      · exact msgType?_ackMessageIfNeeded hack
      · exact ih hmore ack hack

theorem msgType?_doLoginResponse [JsonParser] {js : Json} {old current : ClientState}
    {acks : List Json} (h : doLoginResponse js old = some (current, acks)) :
    ∀ ack ∈ acks, msgType? ack = some .msgAck := by
  simp only [doLoginResponse, Option.bind_eq_bind, Option.bind_eq_some_iff] at h
  rcases h with ⟨errno, -, h⟩
  split_ifs at h with herrno
  · cases h
    simp
  · simp only [Option.bind_eq_some_iff] at h
    rcases h with ⟨id, -, name, -, friends, -, groups, -, vec, -, acks', hacks, h⟩
    cases h
    exact msgType?_showOfflineMessages hacks

/-! ## The client alone -/

section Alone
variable {lines : List Sent} {s s' : Threads} {waits : ℕ} {js : Json} {ok : Bool}

theorem Sends.eq (h : Sends js s ok s') : ∃ sent torn, s' = { s with sent := sent, torn := torn } ∧
    (sent = s.sent ∨ sent = s.sent ++ [js]) := by
  cases h with
  | whole => exact ⟨_, s.torn, rfl, .inr rfl⟩
  | glued => exact ⟨s.sent, _, rfl, .inl rfl⟩
  | refused => exact ⟨s.sent, s.torn, rfl, .inl rfl⟩
  | cut => exact ⟨s.sent, _, rfl, .inl rfl⟩

theorem Sends.filter_sent (h : Sends js s ok s') (hjs : js.asks = false) :
    s'.sent.filter Json.asks = s.sent.filter Json.asks := by
  rcases h.eq with ⟨sent, torn, rfl, hsent | hsent⟩ <;> simp [hsent, hjs]

variable [JsonParser]

/-- The read lines behind which the receive thread posts. -/
theorem posts_eq {line : Sent} {n : ℤ} (hparse : JsonParser.parse line.payload = some js)
    (hn : intAt js "msgid" = some n) :
    line.posts = decide (n = EnMsgType.loginMsgAck.code ∨ n = EnMsgType.regMsgAck.code) := by
  have htype : msgType? js = EnMsgType.ofCode? n := by
    rw [msgType?, show (js.find? "msgid").bind Json.getInt32? = some n from hn]
    rfl
  rw [Sent.posts, Sent.answer?, hparse, Option.bind_some, answerType?, htype]
  cases hcode : EnMsgType.ofCode? n with
  | some t =>
      rw [EnMsgType.code_of_ofCode? hcode]
      cases t <;> decide
  | none =>
      have hne : ∀ t : EnMsgType, n ≠ t.code := by
        rintro t rfl
        cases t <;> cases hcode
      simp [hne]

/-- What has been posted, waited for and asked so far, where the main thread has passed
`sem_wait` `waits` times. -/
structure Paired (lines : List Sent) (s : Threads) (waits : ℕ) : Prop where
  read : s.received ≤ lines.length
  posted : (lines.take s.received).countP Sent.posts = waits + s.rwsem + s.reader.busy
  asked : (s.sent.filter Json.asks).length ≤ waits ∨ ∃ js before, s.main.awaits = some js ∧
    s.sent.filter Json.asks = before ++ [js] ∧ before.length ≤ waits
  acks : ∀ ack ∈ s.reader.acks, msgType? ack = some .msgAck

theorem Paired.start : Paired lines Threads.start 0 where
  read := Nat.zero_le _
  posted := rfl
  asked := .inl le_rfl
  acks := by simp [Threads.start, ReadThread.acks]

/-- A step that neither reads a line nor concerns the semaphore. -/
theorem Paired.congr (h : Paired lines s waits) (hreceived : s'.received = s.received)
    (hposts : s'.rwsem + s'.reader.busy = s.rwsem + s.reader.busy)
    (hawaits : s'.main.awaits = s.main.awaits)
    (hsent : s'.sent.filter Json.asks = s.sent.filter Json.asks)
    (hacks : ∀ ack ∈ s'.reader.acks, msgType? ack = some .msgAck) : Paired lines s' waits where
  read := hreceived ▸ h.read
  posted := by
    have hposted := h.posted
    rw [hreceived]
    omega
  asked := by
    rw [hawaits, hsent]
    exact h.asked
  acks := hacks

/-- A line is read. -/
theorem Paired.read_line (h : Paired lines s waits) {line : Sent}
    (hline : lines[s.received]? = some line) (hreceived : s'.received = s.received + 1)
    (hposts : s'.rwsem + s'.reader.busy = s.rwsem + s.reader.busy + line.posts.toNat)
    (hmain : s'.main = s.main) (hsent : s'.sent = s.sent)
    (hacks : ∀ ack ∈ s'.reader.acks, msgType? ack = some .msgAck) : Paired lines s' waits where
  read := by
    rw [hreceived]
    exact (List.getElem?_eq_some_iff.mp hline).1
  posted := by
    have hposted := h.posted
    have htake : lines.take (s.received + 1) = lines.take s.received ++ [line] := by
      rw [List.take_add_one, hline]
      rfl
    have hcount : [line].countP Sent.posts = line.posts.toNat := by
      cases hline : line.posts <;> simp [hline]
    rw [hreceived, htake, List.countP_append, hcount]
    omega
  asked := by
    rw [hmain, hsent]
    exact h.asked
  acks := hacks

/-- A send that the main thread does not wait for. -/
theorem Paired.sends (h : Paired lines s waits) (hsend : Sends js s ok s')
    (hjs : js.asks = false) : Paired lines s' waits := by
  have hsent := hsend.filter_sent hjs
  rcases hsend.eq with ⟨sent, torn, rfl, -⟩
  exact h.congr rfl rfl rfl hsent h.acks

/-- The main thread asks and begins to wait. -/
theorem Paired.asks (h : Paired lines s waits) (hnone : s.main.awaits = none)
    (hsend : Sends js s ok s') {main : MainThread} (hmain : main.awaits = some js)
    (hjs : js.asks = true) : Paired lines { s' with main := main } waits := by
  have hasked : (s.sent.filter Json.asks).length ≤ waits := by
    rcases h.asked with hasked | ⟨js', before, hawaits, -⟩
    · exact hasked
    · rw [hnone] at hawaits
      cases hawaits
  rcases hsend.eq with ⟨sent, torn, rfl, hsent⟩
  refine ⟨h.read, h.posted, ?_, h.acks⟩
  rcases hsent with rfl | rfl
  · exact .inl hasked
  · refine .inr ⟨js, s.sent.filter Json.asks, hmain, ?_, hasked⟩
    simp [hjs]

/-- The main thread passes `sem_wait`. -/
theorem Paired.passes (h : Paired lines s waits) (hsem : 0 < s.rwsem) (main : MainThread) :
    Paired lines { s with main := main, rwsem := s.rwsem - 1 } (waits + 1) := by
  refine ⟨h.read, ?_, .inl ?_, h.acks⟩
  · have hposted := h.posted
    change (lines.take s.received).countP Sent.posts = waits + 1 + (s.rwsem - 1) + s.reader.busy
    omega
  · rcases h.asked with hasked | ⟨js, before, -, hbefore, hlength⟩
    · exact hasked.trans (Nat.le_succ waits)
    · change (s.sent.filter Json.asks).length ≤ waits + 1
      rw [hbefore, List.length_append]
      exact Nat.succ_le_succ hlength

theorem MainStep.paired (h : MainStep s s') (hs : Paired lines s waits) :
    ∃ later, Paired lines s' later := by
  cases h with
  | login id pwd hmain => exact ⟨waits, hs.congr rfl rfl (by rw [hmain]; rfl) rfl hs.acks⟩
  | sendLogin hmain hsend =>
      exact ⟨waits, hs.asks (by rw [hmain]; rfl) hsend rfl (asks_loginRequest ..)⟩
  | waitLogin hmain hsem => exact ⟨waits + 1, hs.passes hsem _⟩
  | succeeded hmain hflag => exact ⟨waits, hs.congr rfl rfl (by rw [hmain]; rfl) rfl hs.acks⟩
  | failed hmain hflag => exact ⟨waits, hs.congr rfl rfl (by rw [hmain]; rfl) rfl hs.acks⟩
  | enter hmain => exact ⟨waits, hs.congr rfl rfl (by rw [hmain]; rfl) rfl hs.acks⟩
  | command hmain hrunning hrequest hsend => exact ⟨waits, hs.sends hsend hrequest.asks⟩
  | @loginout id pwd ok s₁ hmain hrunning hsend =>
      have hs₁ := hs.sends hsend (asks_loginoutRequest _)
      cases ok with
      | true => exact ⟨waits, hs₁.congr rfl rfl rfl rfl hs₁.acks⟩
      | false => exact ⟨waits, hs₁⟩
  | leave hmain hrunning => exact ⟨waits, hs.congr rfl rfl (by rw [hmain]; rfl) rfl hs.acks⟩
  | reg name pwd hmain => exact ⟨waits, hs.congr rfl rfl (by rw [hmain]; rfl) rfl hs.acks⟩
  | sendReg hmain hsend =>
      exact ⟨waits, hs.asks (by rw [hmain]; rfl) hsend rfl (asks_regRequest ..)⟩
  | waitReg hmain hsem => exact ⟨waits + 1, hs.passes hsem _⟩

theorem ReadStep.paired (h : ReadStep lines s s') (hs : Paired lines s waits) :
    Paired lines s' waits := by
  have hnone : ∀ {r : ReadThread}, r.acks = [] → ∀ ack ∈ r.acks, msgType? ack = some .msgAck := by
    intro r hr ack hack
    rw [hr] at hack
    cases hack
  cases h with
  | @unparsed line hreader hline hparse =>
      have hposts : line.posts = false := by rw [Sent.posts, Sent.answer?, hparse]; rfl
      exact hs.read_line hline rfl (by rw [hposts]; rfl) rfl rfl hs.acks
  | @chat line js msgtype hreader hline hparse hmsg hchat hshow =>
      have hposts : line.posts = false := by
        rw [posts_eq hparse hmsg]
        rcases hchat with rfl | rfl <;> rfl
      refine hs.read_line hline rfl (by rw [hposts, hreader]; rfl) rfl rfl fun ack hack => ?_
      exact msgType?_ackMessageIfNeeded hack
  | @refused line js errno hreader hline hparse hmsg herrno hne =>
      have hposts : line.posts = true := posts_eq hparse hmsg
      exact hs.read_line hline rfl (by rw [hposts, hreader]; rfl) rfl rfl (hnone rfl)
  | @accepted line js current acks hreader hline hparse hmsg herrno hresponse =>
      have hposts : line.posts = true := posts_eq hparse hmsg
      refine hs.read_line hline rfl (by rw [hposts, hreader]; rfl) rfl rfl ?_
      exact msgType?_doLoginResponse hresponse
  | @registered line js hreader hline hparse hmsg herrno =>
      have hposts : line.posts = true := posts_eq hparse hmsg
      exact hs.read_line hline rfl (by rw [hposts, hreader]; rfl) rfl rfl (hnone rfl)
  | @other line js msgtype hreader hline hparse hmsg hother =>
      have hposts : line.posts = false := by
        rw [posts_eq hparse hmsg, decide_eq_false_iff_not]
        rintro (rfl | rfl)
        · exact hother .loginMsgAck (by simp) rfl
        · exact hother .regMsgAck (by simp) rfl
      exact hs.read_line hline rfl (by rw [hposts]; rfl) rfl rfl hs.acks
  | @ack ack acks ok s₁ hreader hsend =>
      have hacks := hs.acks
      rw [hreader] at hacks
      have hs₁ := hs.sends hsend (asks_of_msgAck (hacks ack List.mem_cons_self))
      have hreader₁ : s₁.reader = s.reader := by
        rcases hsend.eq with ⟨sent, torn, rfl, -⟩
        rfl
      refine hs₁.congr rfl (by rw [hreader₁, hreader]; rfl) rfl rfl fun a ha => ?_
      exact hacks a (List.mem_cons_of_mem ack ha)
  | acked hreader => exact hs.congr rfl (by rw [hreader]; rfl) rfl rfl (hnone rfl)
  | @greet response ack acks ok s₁ hreader hsend =>
      have hacks := hs.acks
      rw [hreader] at hacks
      have hs₁ := hs.sends hsend (asks_of_msgAck (hacks ack List.mem_cons_self))
      have hreader₁ : s₁.reader = s.reader := by
        rcases hsend.eq with ⟨sent, torn, rfl, -⟩
        rfl
      refine hs₁.congr rfl (by rw [hreader₁, hreader]; rfl) rfl rfl fun a ha => ?_
      exact hacks a (List.mem_cons_of_mem ack ha)
  | greeted hreader => exact hs.congr rfl (by rw [hreader]; rfl) rfl rfl (hnone rfl)
  | post hreader => exact hs.congr rfl (by rw [hreader]; rfl) rfl rfl (hnone rfl)

theorem BeatStep.paired (h : BeatStep s s') (hs : Paired lines s waits) :
    Paired lines s' waits := by
  cases h with
  | send hbeat hsend =>
      have hs₁ := hs.sends hsend (asks_heartbeatRequest _)
      exact hs₁.congr rfl rfl rfl rfl hs₁.acks
  | _ => exact hs.congr rfl rfl rfl rfl hs.acks

theorem ThreadStep.paired (h : ThreadStep lines s s') (hs : Paired lines s waits) :
    ∃ later, Paired lines s' later := by
  cases h with
  | main h => exact h.paired hs
  | reader h => exact ⟨waits, h.paired hs⟩
  | heartbeat h => exact ⟨waits, h.paired hs⟩

/-- More lines arrive. -/
theorem Paired.append (h : Paired lines s waits) (more : List Sent) :
    Paired (lines ++ more) s waits where
  read := by
    rw [List.length_append]
    exact Nat.le_add_right_of_le h.read
  posted := by
    rw [List.take_append_of_le_length h.read]
    exact h.posted
  asked := h.asked
  acks := h.acks

omit [JsonParser] in
theorem Sends.sent_prefix (h : Sends js s ok s') : s.sent <+: s'.sent := by
  rcases h.eq with ⟨sent, torn, rfl, rfl | rfl⟩
  · exact List.prefix_rfl
  · exact List.prefix_append ..

/-- What a client has sent stays sent. -/
theorem ThreadStep.sent_prefix (h : ThreadStep lines s s') : s.sent <+: s'.sent := by
  cases h with
  | main h =>
      cases h with
      | sendLogin _ hsend | sendReg _ hsend | command _ _ _ hsend =>
          have hsent := hsend.sent_prefix
          exact hsent
      | @loginout _ _ ok _ _ _ hsend =>
          have hsent := hsend.sent_prefix
          cases ok <;> exact hsent
      | _ => exact List.prefix_rfl
  | reader h =>
      cases h with
      | ack _ hsend | greet _ hsend =>
          have hsent := hsend.sent_prefix
          exact hsent
      | _ => exact List.prefix_rfl
  | heartbeat h =>
      cases h with
      | send _ hsend =>
          have hsent := hsend.sent_prefix
          exact hsent
      | _ => exact List.prefix_rfl

end Alone

end Client

/-! ## Requests and answers on the connection -/

section Runs
open ChatCluster.Parser
variable [Strtod] {db : Database} {conn : Conn} {es : List ClusterEntry} {x y : ClusterConfig}

/-- A line that posts has been sent by the handler of a frame on the connection. -/
theorem frame_of_posts [LawfulStrtod]
    (h : Steps hostileCluster (Config.initial (World.fresh db)) es x)
    (hparsed : FramesParsed x.view.past) {p : Job × Sent} (hp : p ∈ sendsOn conn x.view.past)
    {t : EnMsgType} (ht : p.2.answer? = some t) :
    ∃ js time, p.1 = .frame conn js time ∧ dueType? js = some t := by
  have hmem := mem_sendsOn hp
  have hreplies := replies_read h hparsed hmem
  rw [ht] at hreplies
  have hdue := (h.did_all fun j => (emits_job j).all).1 _ _ _ hmem ⟨p.1, conn, t⟩
    (by rw [hreplies]; exact List.mem_singleton.mpr rfl)
  revert hdue
  cases p.1 with
  | frame c js time =>
      intro hdue
      rcases List.mem_map.mp hdue with ⟨t', ht', heq⟩
      cases heq
      exact ⟨js, time, rfl, Option.mem_toList.mp ht'⟩
  | _ =>
      intro hdue
      cases hdue

/-- The request to which a reply is an answer that is posted. -/
def Reply.posted? (r : Reply) : Option Json := if r.type.posts then some r.job.request else none

theorem posted_paid [LawfulStrtod]
    (h : Steps hostileCluster (Config.initial (World.fresh db)) es x)
    (hparsed : FramesParsed x.view.past) (conn : Conn) :
    ((sendsOn conn x.view.past).filter fun p => p.2.posts).map (fun p => p.1.request) =
      (connAccount conn x.view.past).paid.filterMap Reply.posted? := by
  rw [paid_read h hparsed, List.filterMap_filterMap, ← List.filterMap_eq_map,
    List.filterMap_filter]
  refine List.filterMap_congr fun p _ => ?_
  cases hanswer : p.2.answer? with
  | none => simp [Sent.posts, hanswer]
  | some t => simp [Sent.posts, hanswer, Reply.posted?]

omit [Strtod] in
theorem asks_due (conn : Conn) (past : List ClusterEntry) :
    ((jobsOn conn past).map Job.request).filter Json.asks =
      (connAccount conn past).due.filterMap Reply.posted? := by
  rw [due_connAccount, List.filterMap_filterMap, List.filter_map, ← List.filterMap_eq_map,
    List.filterMap_filter]
  refine List.filterMap_congr fun j _ => ?_
  cases hdue : dueType? j.request with
  | none => simp [Json.asks, hdue]
  | some t => simp [Json.asks, hdue, Reply.posted?]

/-- The requests whose answers are posted are, in order, among those that have arrived. -/
theorem posted_sublist [LawfulStrtod]
    (h : Steps hostileCluster (Config.initial (World.fresh db)) es x)
    (hparsed : FramesParsed x.view.past) (conn : Conn) :
    (((sendsOn conn x.view.past).filter fun p => p.2.posts).map fun p => p.1.request).Sublist
      (((jobsOn conn x.view.past).map Job.request).filter Json.asks) := by
  rw [posted_paid h hparsed, asks_due]
  have hwithin := (h.balanced emits_job (.io conn)).within
  exact ((List.sublist_append_left ..).trans hwithin).filterMap Reply.posted?

/-- They are all of them when none of the handlers was stopped or is at work. -/
theorem posted_of_idle [LawfulStrtod]
    (h : Steps hostileCluster (Config.initial (World.fresh db)) es x)
    (hparsed : FramesParsed x.view.past) (hidle : (x.slot (.io conn)).Idle)
    (hab : ∀ j, .aborted j ∈ x.view.past → j.agent ≠ .io conn) :
    ((sendsOn conn x.view.past).filter fun p => p.2.posts).map (fun p => p.1.request) =
      ((jobsOn conn x.view.past).map Job.request).filter Json.asks := by
  rw [posted_paid h hparsed, asks_due]
  exact congrArg (List.filterMap Reply.posted?) (h.paid_of_idle emits_job hidle hab)

/-! ## The semaphore -/

/-- `1` while the main thread waits for an answer. -/
def Client.MainThread.waiting (m : Client.MainThread) : ℕ := if m.awaits.isSome then 1 else 0

/-- What holds in every conversation that can be reached. -/
structure Sound (conn : Conn) (db : Database) (c : Conversation) : Prop where
  run : ∃ es, Steps hostileCluster (Config.initial (World.fresh db)) es c.cluster
  parsed : FramesParsed c.cluster.view.past
  arrived : (jobsOn conn c.cluster.view.past).map Job.request <+: c.client.sent
  paired : ∃ waits, Client.Paired (c.cluster.view.state.out conn) c.client waits

omit [Strtod] in
theorem sendsOn_cons (conn : Conn) (e : ClusterEntry) (past : List ClusterEntry) :
    ∃ more, sendsOn conn (e :: past) = sendsOn conn past ++ more := by
  cases e with
  | did j c r =>
      cases c with
      | sendTo d s =>
          rw [sendsOn]
          split_ifs
          · exact ⟨_, rfl⟩
          · exact ⟨[], (List.append_nil _).symm⟩
      | _ => exact ⟨[], (List.append_nil _).symm⟩
  | _ => exact ⟨[], (List.append_nil _).symm⟩

theorem Conversation.Step.sound {c c' : Conversation} (h : Conversation.Step conn c c')
    (hc : Sound conn db c) : Sound conn db c' := by
  rcases hc with ⟨⟨es, hrun⟩, hparsed, harrived, waits, hpaired⟩
  cases h with
  | client hstep =>
      exact ⟨⟨es, hrun⟩, hparsed, harrived.trans hstep.sent_prefix, hstep.paired hpaired⟩
  | @cluster s x y e hstep harrives =>
      have hpast : y.view.past = e :: x.view.past := hstep.moves.recorded
      refine ⟨⟨es ++ [e], hrun.step hstep⟩, ?_, ?_, waits, ?_⟩
      · intro d js time hmem
        change _ ∈ y.view.past at hmem
        rw [hpast] at hmem
        rcases List.mem_cons.mp hmem with rfl | hmem
        · exact harrives.parsed d js time rfl
        · exact hparsed d js time hmem
      · change (jobsOn conn y.view.past).map Job.request <+: s.sent
        rw [hpast]
        cases e with
        | started j =>
            cases j with
            | frame d js time =>
                rw [jobsOn]
                split_ifs with hd
                · subst hd
                  rw [List.map_append]
                  exact harrives.inOrder js time rfl
                · exact harrived
            | _ => exact harrived
        | _ => exact harrived
      · rcases sendsOn_cons conn e x.view.past with ⟨more, hmore⟩
        have hout : y.view.state.out conn = x.view.state.out conn ++ more.map Prod.snd := by
          rw [out_sendsOn (hrun.step hstep), hpast, hmore, List.map_append, out_sendsOn hrun]
        change Client.Paired (y.view.state.out conn) s waits
        rw [hout]
        exact Client.Paired.append hpaired _

theorem Conversation.Reached.sound {c : Conversation} (h : Conversation.Reached conn db c) :
    Sound conn db c := by
  induction h with
  | refl =>
      refine ⟨⟨[], .done⟩, ?_, List.prefix_rfl, 0, Client.Paired.start⟩
      intro d js time hmem
      cases hmem
  | tail _ hstep ih => exact hstep.sound ih

variable [LawfulStrtod] {c : Conversation}

/-- All answers posted or to be posted are among those that the client has asked for. -/
theorem Sound.posts_le (hc : Sound conn db c) :
    (c.cluster.view.state.out conn).countP Sent.posts ≤
      (c.client.sent.filter Json.asks).length := by
  rcases hc.run with ⟨es, hrun⟩
  have hsublist := (posted_sublist hrun hc.parsed conn).length_le
  have harrived := (hc.arrived.filter Json.asks).length_le
  rw [out_sendsOn hrun, List.countP_map, List.countP_eq_length_filter]
  rw [List.length_map] at hsublist
  exact hsublist.trans harrived

omit [LawfulStrtod] in
theorem asks_le {s : Client.Threads} {lines : List Sent} {waits : ℕ} (h : Client.Paired lines s waits) :
    (s.sent.filter Json.asks).length ≤ waits + s.main.waiting := by
  rcases h.asked with hasked | ⟨js, before, hawaits, hsent, hlength⟩
  · exact hasked.trans (Nat.le_add_right ..)
  · rw [hsent, List.length_append, Client.MainThread.waiting, hawaits]
    exact Nat.succ_le_succ hlength

/-- Whatever the threads and the cluster do, the semaphore, the answers that are about to be
posted and those that have not been read make at most one, and none unless the main thread
waits. -/
theorem Sound.balance (hc : Sound conn db c) :
    c.client.rwsem + c.client.reader.busy +
      ((c.cluster.view.state.out conn).drop c.client.received).countP Sent.posts ≤
        c.client.main.waiting := by
  rcases hc.paired with ⟨waits, hpaired⟩
  have htotal := hc.posts_le
  have hasks := asks_le hpaired
  have hposted := hpaired.posted
  rw [← List.take_append_drop c.client.received (c.cluster.view.state.out conn),
    List.countP_append] at htotal
  omega

/-- The posting requests that have been answered are all that the client has sent, once their
numbers are the same. -/
theorem Sound.answered_eq (hc : Sound conn db c)
    (hlength : (c.client.sent.filter Json.asks).length ≤
      (c.cluster.view.state.out conn).countP Sent.posts) :
    ((sendsOn conn c.cluster.view.past).filter fun p => p.2.posts).map (fun p => p.1.request) =
      c.client.sent.filter Json.asks := by
  rcases hc.run with ⟨es, hrun⟩
  have hsublist := (posted_sublist hrun hc.parsed conn).trans
    (hc.arrived.filter Json.asks).sublist
  apply hsublist.eq_of_length_le
  rw [List.length_map]
  rw [out_sendsOn hrun, List.countP_map, List.countP_eq_length_filter] at hlength
  exact hlength

/-- A line behind which the receive thread is going to post answers just the request that the
main thread waits for. -/
theorem Sound.answered (hc : Sound conn db c) (hreader : c.client.reader = .receiving)
    {line : Sent} (hline : (c.cluster.view.state.out conn)[c.client.received]? = some line)
    (hposts : line.posts = true) : ∃ js time, c.client.main.awaits = some js ∧
      .did (.frame conn js time) (.sendTo conn line) () ∈ c.cluster.view.past ∧
        dueType? js = line.answer? := by
  rcases hc.run with ⟨es, hrun⟩
  rcases hc.paired with ⟨waits, hpaired⟩
  have hout := out_sendsOn hrun conn
  have hposted := hpaired.posted
  have htotal := hc.posts_le
  have hasks := asks_le hpaired
  have hanswered := hc.answered_eq
  rw [hout, List.getElem?_map, Option.map_eq_some_iff] at hline
  rw [hout, ← List.map_take, List.countP_map, hreader] at hposted
  rw [hout, List.countP_map] at htotal hanswered
  rcases hline with ⟨p, hp, rfl⟩
  rcases List.getElem?_eq_some_iff.mp hp with ⟨hlt, hget⟩
  have hsplit : sendsOn conn c.cluster.view.past =
      (sendsOn conn c.cluster.view.past).take c.client.received ++
        p :: (sendsOn conn c.cluster.view.past).drop (c.client.received + 1) := by
    rw [← hget, ← List.drop_eq_getElem_cons hlt, List.take_append_drop]
  generalize (sendsOn conn c.cluster.view.past).take c.client.received = before at hposted hsplit
  generalize (sendsOn conn c.cluster.view.past).drop (c.client.received + 1) = after at hsplit
  -- the counts leave room for no other answer, before the post or behind the line
  have hcount : (before ++ p :: after).countP (Sent.posts ∘ Prod.snd) =
      before.countP (Sent.posts ∘ Prod.snd) + (after.countP (Sent.posts ∘ Prod.snd) + 1) := by
    have hp : (Sent.posts ∘ Prod.snd) p = true := hposts
    rw [List.countP_append, List.countP_cons_of_pos hp]
  rw [hsplit, hcount] at htotal hanswered
  have hwaiting : c.client.main.waiting ≤ 1 := by
    rw [Client.MainThread.waiting]
    split_ifs <;> omega
  change _ = waits + c.client.rwsem + 0 at hposted
  have hafter : after.countP (Sent.posts ∘ Prod.snd) = 0 := by omega
  have hlength : (c.client.sent.filter Json.asks).length = waits + 1 := by omega
  have hlast := hanswered (by omega)
  rcases hpaired.asked with hasked | ⟨js, asked, hawaits, hsent, -⟩
  · omega
  have hnone : after.filter (fun p => p.2.posts) = [] := by
    rw [List.filter_eq_nil_iff]
    intro q hq
    exact List.countP_eq_zero.mp hafter q hq
  have hfilter : (p :: after).filter (fun q => q.2.posts) = [p] := by
    rw [List.filter_cons, if_pos hposts, hnone]
  rw [List.filter_append, hfilter, List.map_append, hsent] at hlast
  have hrequest : p.1.request = js := List.singleton_inj.mp (List.append_inj_right' hlast rfl)
  have hmem : p ∈ sendsOn conn c.cluster.view.past := List.mem_of_getElem? hp
  rcases Option.any_eq_true .. |>.mp hposts with ⟨t, ht, -⟩
  rcases frame_of_posts hrun hc.parsed hmem ht with ⟨js', time, hjob, hdue⟩
  have hjs : js' = js := by
    rw [← hrequest, hjob]
    rfl
  subst hjs
  have hdid := mem_sendsOn hmem
  rw [hjob] at hdid
  exact ⟨js', time, hawaits, hdid, hdue.trans ht.symm⟩

/-- Whatever the threads of the client, the cluster and its other clients do: the semaphore,
the answers about to be posted and those not yet read make at most one, and none unless the
main thread waits; and the answer that is read next has been sent by the handler of the
request that the main thread waits for. -/
theorem semaphore_pairs_answers (h : Conversation.Reached conn db c) :
    c.client.rwsem + c.client.reader.busy +
        ((c.cluster.view.state.out conn).drop c.client.received).countP Sent.posts ≤
          c.client.main.waiting ∧
      ∀ line, c.client.reader = .receiving →
        (c.cluster.view.state.out conn)[c.client.received]? = some line → line.posts = true →
          ∃ js time, c.client.main.awaits = some js ∧
            .did (.frame conn js time) (.sendTo conn line) () ∈ c.cluster.view.past := by
  refine ⟨h.sound.balance, fun line hreader hline hposts => ?_⟩
  rcases h.sound.answered hreader hline hposts with ⟨js, time, hawaits, hmem, -⟩
  exact ⟨js, time, hawaits, hmem⟩

omit [LawfulStrtod] in
/-- The cluster may run on its own with what the client has sent. -/
theorem beside_run {s : Client.Threads} (hrun : Steps hostileCluster x es y)
    (hparsed : FramesParsed y.view.past)
    (harrived : (jobsOn conn y.view.past).map Job.request <+: s.sent) :
    Relation.ReflTransGen (Conversation.Beside conn) ⟨s, x⟩ ⟨s, y⟩ := by
  induction hrun with
  | done => exact .refl
  | @step y z e es hrun hstep ih =>
      have hpast := hstep.moves.recorded
      rw [hpast] at hparsed harrived
      have hjobs : (jobsOn conn y.view.past).map Job.request <+:
          (jobsOn conn (e :: y.view.past)).map Job.request := by
        cases e with
        | started j =>
            cases j with
            | frame d js time =>
                rw [jobsOn]
                split_ifs
                · rw [List.map_append]
                  exact List.prefix_append ..
                · exact List.prefix_rfl
            | _ => exact List.prefix_rfl
        | _ => exact List.prefix_rfl
      have hbefore := ih (fun d js time hmem => hparsed d js time (List.mem_cons_of_mem e hmem))
        (hjobs.trans harrived)
      refine hbefore.tail ⟨.cluster hstep ⟨?_, ?_⟩, rfl⟩
      · rintro d js time rfl
        exact hparsed d js time List.mem_cons_self
      · rintro js time rfl
        rw [jobsOn, if_pos rfl, List.map_append] at harrived
        exact harrived

omit [LawfulStrtod] in
theorem Conversation.Reached.beside {c' : Conversation} (h : Conversation.Reached conn db c)
    (hbeside : Relation.ReflTransGen (Conversation.Beside conn) c c') :
    Conversation.Reached conn db c' := by
  induction hbeside with
  | refl => exact h
  | tail _ hstep ih => exact ih.tail hstep.1

end Runs

/-- The client has been sent the answer to a login, and nothing else. -/
def greets [JsonParser] (conn : Conn) (x : ClusterConfig) : Bool :=
  match x.view.state.out conn with
  | [.json response] =>
      decide (Client.intAt response "msgid" = some EnMsgType.loginMsgAck.code) &&
        decide (Client.intAt response "errno" = some 0) &&
          (Client.doLoginResponse response Client.Threads.start.current).any fun p => p.2.isEmpty
  | _ => false

def isAborted : ClusterEntry → Bool
  | .aborted _ => true
  | _ => false

/-- A client that has asked for a login. -/
def Client.Threads.asked : Client.Threads :=
  { start with main := .awaitLogin 1 "pw", sent := [loginRequest 1 "pw"] }

/-- The cluster has handled just this login. -/
structure Greeted [JsonParser] (x : ClusterConfig) (response : Json)
    (current : Client.ClientState) : Prop where
  beside : Relation.ReflTransGen (Conversation.Beside ⟨0, 0⟩)
    ⟨.asked, Config.initial chatWorld⟩ ⟨.asked, x⟩
  handled : (x.slot (.io ⟨0, 0⟩)).Idle
  finished : ∀ j, .aborted j ∉ x.view.past
  jobs : (jobsOn ⟨0, 0⟩ x.view.past).map Job.request = [Client.loginRequest 1 "pw"]
  out : x.view.state.out ⟨0, 0⟩ = [.json response]
  parsed : JsonParser.parse response.dump = some response
  msgid : Client.intAt response "msgid" = some EnMsgType.loginMsgAck.code
  errno : Client.intAt response "errno" = some 0
  current : Client.doLoginResponse response Client.Threads.start.current = some (current, [])

theorem exists_greeted : (letI : Strtod := Parser.noDoubles
    ∃ x response current, Greeted x response current) := by
  let _ := Parser.noDoubles
  rcases hostileReplayer.exists_steps_started (s := chatWorld)
    (.start (.frame ⟨0, 0⟩ (Client.loginRequest 1 "pw") "") ::
      List.replicate 10 (.act (.io ⟨0, 0⟩) {}))
    (p := fun x => greets ⟨0, 0⟩ x && decide ((jobsOn ⟨0, 0⟩ x.view.past).length = 1) &&
      decide ((x.slot (.io ⟨0, 0⟩)).Idle) && !(x.view.past.any isAborted))
    (by decide +kernel) with ⟨es, x, hrun, hjobs, hx⟩
  have hlogin : ∀ j, .started j ∈ x.view.past →
      j = .frame ⟨0, 0⟩ (Client.loginRequest 1 "pw") "" := by
    intro j hj
    simpa using hjobs j hj
  have hparsed : FramesParsed x.view.past := by
    intro conn js time hstart
    cases hlogin _ hstart
    exact ⟨_, Parser.parse_dump_of_normal (Client.Writes.login 1 "pw").normal⟩
  simp only [Bool.and_eq_true, decide_eq_true_eq] at hx
  rcases hx with ⟨⟨⟨hgreets, hlength⟩, hidle⟩, hfinished⟩
  rcases List.length_eq_one_iff.mp hlength with ⟨j, hj⟩
  have hjlogin := hlogin j (mem_jobsOn (hj ▸ List.mem_singleton_self j))
  have hrequests : (jobsOn ⟨0, 0⟩ x.view.past).map Job.request = [Client.loginRequest 1 "pw"] := by
    rw [hj, hjlogin]
    rfl
  have hnone : ∀ j, .aborted j ∉ x.view.past := by
    intro j hmem
    rw [List.any_eq_true.mpr ⟨.aborted j, hmem, rfl⟩] at hfinished
    cases hfinished
  have hbeside := beside_run (s := .asked) hrun hparsed (by rw [hrequests]; exact List.prefix_rfl)
  have hout := out_sendsOn hrun ⟨0, 0⟩
  unfold greets at hgreets
  split at hgreets
  · next response hresponse =>
    simp only [Bool.and_eq_true, decide_eq_true_eq, Option.any_eq_true] at hgreets
    rcases hgreets with ⟨⟨hmsg, herrno⟩, ⟨current, acks⟩, hread, hacks⟩
    have hmem : Sent.json response ∈ (sendsOn ⟨0, 0⟩ x.view.past).map Prod.snd := by
      rw [← hout, hresponse]
      exact List.mem_singleton_self _
    rcases List.mem_map.mp hmem with ⟨p, hp, heq⟩
    have hdid := mem_sendsOn hp
    rw [heq] at hdid
    have hparse := Parser.parse_dump_of_normal (normal_of_recorded hrun hparsed hdid)
    obtain rfl : acks = [] := List.isEmpty_iff.mp hacks
    exact ⟨x, response, current, hbeside, hidle, hnone, hrequests, hresponse, hparse, hmsg, herrno,
      hread⟩
  · cases hgreets

/-- The client of a registered user asks for a login. -/
theorem reached_asked [JsonParser] : Conversation.Reached ⟨0, 0⟩
    (Statement.registered [("ann", "pw"), ("bob", "pw")]) ⟨.asked, Config.initial chatWorld⟩ := by
  have hmenu : Conversation.Reached ⟨0, 0⟩
      (Statement.registered [("ann", "pw"), ("bob", "pw")]) (.start _) := .refl
  have htyped := hmenu.tail (.client (.main (.login 1 "pw" rfl (by decide) (by decide))))
  exact htyped.tail (.client (.main (.sendLogin rfl (.whole rfl))))

/-- A client waits, and the answer has not been read yet. -/
theorem semaphore_pairs_answers_login : (letI : Strtod := Parser.noDoubles
    ∃ c line, Conversation.Reached ⟨0, 0⟩ (Statement.registered [("ann", "pw"), ("bob", "pw")]) c ∧
      (c.cluster.view.state.out ⟨0, 0⟩)[c.client.received]? = some line ∧ line.posts = true ∧
        c.client.main.waiting = 1 ∧ c.client.rwsem + c.client.reader.busy +
          ((c.cluster.view.state.out ⟨0, 0⟩).drop c.client.received).countP Sent.posts ≤
            c.client.main.waiting) := by
  let _ := Parser.noDoubles
  rcases exists_greeted with ⟨x, response, current, hgreeted⟩
  have hreached := Conversation.Reached.beside reached_asked hgreeted.beside
  have hline : (x.view.state.out ⟨0, 0⟩)[0]? = some (.json response) := by
    rw [hgreeted.out]
    rfl
  have hread : JsonParser.parse (Sent.json response).payload = some response := hgreeted.parsed
  have hposts : (Sent.json response).posts = true :=
    (Client.posts_eq hread hgreeted.msgid).trans (by decide)
  have hbalance := (semaphore_pairs_answers hreached).1
  exact ⟨_, .json response, hreached, hline, hposts, rfl, hbalance⟩

end ChatCluster
