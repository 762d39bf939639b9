import ChatCluster.Conversation
import ChatCluster.Confidentiality

/-!
# What the main thread learns from an answer

The main thread decides on the flag `g_isLoginSuccess`, which the receive thread writes. When
the main thread has passed `sem_wait`, the flag says what the handler of just its own request
has answered, and in the chat menu the server has let in the user whom the main thread asked
for, with the password that it sent.
-/
namespace ChatCluster
open CommandProgram Interleaving
open ChatCluster.Parser

/-! ## What a login handler sends -/

/-- The answers of a login: a refusal, or an answer for the user who asked. -/
def LoginAnswer (js response : Json) : Prop :=
  (∃ errno errmsg, (errno = 1 ∨ errno = 2) ∧ response = errorResponse .loginMsgAck errno errmsg) ∨
    ∃ user offlineMessages userVec groupuserVec, getInt js "id" = some user.id ∧
      response = loginResponse user offlineMessages userVec groupuserVec

theorem loginAnswer_login (conn : Conn) (js : Json) : (login conn js).All fun c =>
    ∀ d s, c = .sendTo d s → ∃ response, s = .json response ∧ LoginAnswer js response := by
  have hall : (login conn js).All (Command.OfLogin conn (getInt js "id") (LoginAnswer js)) :=
    ofLogin_login (fun errno errmsg herrno => .inl ⟨errno, errmsg, herrno, rfl⟩)
      fun user offlineMessages userVec groupuserVec hid =>
        .inr ⟨user, offlineMessages, userVec, groupuserVec, hid, rfl⟩
  refine hall.mono fun c hc d s heq => ?_
  subst heq
  cases hc with
  | unrelated _ h => exact absurd h (by simp [Command.Unrelated])
  | answer response h => exact ⟨response, rfl, h⟩

section Answers
variable {id : ℤ} {pwd : String} {response : Json}

/-- An answer that the client takes for a success is one for the user that it asked for. -/
theorem LoginAnswer.success (h : LoginAnswer (Client.loginRequest id pwd) response)
    (hid : IsInt id) (herrno : Client.intAt response "errno" = some 0) :
    confirmedUser? (.json response) = some id ∧ Client.intAt response "id" = some id := by
  rcases h with ⟨errno, errmsg, herr, rfl⟩ | ⟨user, offlineMessages, userVec, groupuserVec, huser, rfl⟩
  · have hfind : (errorResponse .loginMsgAck errno errmsg).find? "errno" = some (.int errno) := rfl
    have hint : IsInt errno := by
      rcases herr with rfl | rfl <;> decide
    rw [intAt_int hfind hint] at herrno
    rcases herr with rfl | rfl <;> cases herrno
  · have hget : getInt (Client.loginRequest id pwd) "id" = some id := getInt_int rfl hid.1 hid.2
    obtain rfl := Option.some.inj (huser.symm.trans hget)
    have hfind : (loginResponse user offlineMessages userVec groupuserVec).find? "id" =
        some (.int user.id) := by
      rw [find?_loginResponse] <;> first | rfl | decide
    exact ⟨confirmedUser?_loginResponse hid.1 hid.2 .., intAt_int hfind hid⟩

theorem currentId_of_doLoginResponse [JsonParser] {old current : Client.ClientState}
    {acks : List Json} (h : Client.doLoginResponse response old = some (current, acks))
    (herrno : Client.intAt response "errno" = some 0) (hid : Client.intAt response "id" = some id) :
    current.currentId = id := by
  simp only [Client.doLoginResponse, herrno, Option.bind_eq_bind, Option.bind_some, ne_eq,
    not_true_eq_false, if_false, hid, Option.bind_eq_some_iff] at h
  rcases h with ⟨name, -, friends, -, groups, -, vec, -, acks', -, h⟩
  cases h
  rfl

end Answers

/-! ## The verdict -/

/-- The handler of the request `js` has sent the line. -/
def AnsweredBy (conn : Conn) (past : List ClusterEntry) (js : Json) (line : Sent) : Prop :=
  ∃ time, .did (.frame conn js time) (.sendTo conn line) () ∈ past

theorem AnsweredBy.cons {conn : Conn} {past : List ClusterEntry} {js : Json} {line : Sent}
    (h : AnsweredBy conn past js line) (e : ClusterEntry) : AnsweredBy conn (e :: past) js line := by
  rcases h with ⟨time, hmem⟩
  exact ⟨time, List.mem_cons_of_mem e hmem⟩

section Verdict
variable [JsonParser]

/-- The login for `id` has been answered with `errno`, in the client's reading. -/
def Verdict (conn : Conn) (past : List ClusterEntry) (id : ℤ) (pwd : String) (errno : ℤ) : Prop :=
  ∃ line response, AnsweredBy conn past (Client.loginRequest id pwd) line ∧
    JsonParser.parse line.payload = some response ∧
      Client.intAt response "errno" = some errno

theorem Verdict.cons {conn : Conn} {past : List ClusterEntry} {id : ℤ} {pwd : String} {errno : ℤ}
    (h : Verdict conn past id pwd errno) (e : ClusterEntry) :
    Verdict conn (e :: past) id pwd errno := by
  rcases h with ⟨line, response, hanswered, hread⟩
  exact ⟨line, response, hanswered.cons e, hread⟩

/-- The flag says what the login for `id` has been answered, and a successful one has made
`id` the current user. -/
structure Told (conn : Conn) (past : List ClusterEntry) (s : Client.Threads) (id : ℤ)
    (pwd : String) : Prop where
  accepted : s.isLoginSuccess = true →
    Verdict conn past id pwd 0 ∧ s.current.currentId = id
  refused : s.isLoginSuccess = false → ∃ errno, errno ≠ 0 ∧ Verdict conn past id pwd errno

/-- The user for whom the main thread is logging in or has logged in. -/
def Client.MainThread.user? : Client.MainThread → Option (ℤ × String)
  | .sendLogin id pwd | .awaitLogin id pwd | .wokenLogin id pwd | .entering id pwd
  | .chatMenu id pwd => some (id, pwd)
  | _ => none

/-- What the main thread knows, by where it is. -/
structure Informed (conn : Conn) (past : List ClusterEntry) (s : Client.Threads) : Prop where
  range : ∀ id pwd, s.main.user? = some (id, pwd) → IsInt id
  greeting : ∀ id pwd response acks, s.main = .awaitLogin id pwd →
    s.reader = .greeting response acks →
      Verdict conn past id pwd 0 ∧ s.current.currentId = id
  posted : ∀ id pwd, s.main = .awaitLogin id pwd →
    (∃ response, s.reader = .posting response) ∨ 0 < s.rwsem → Told conn past s id pwd
  woken : ∀ id pwd, s.main = .wokenLogin id pwd → Told conn past s id pwd
  inside : ∀ id pwd, s.main = .entering id pwd ∨ s.main = .chatMenu id pwd →
    Verdict conn past id pwd 0 ∧ s.current.currentId = id

theorem Informed.start (conn : Conn) (past : List ClusterEntry) :
    Informed conn past Client.Threads.start := by
  constructor <;> simp [Client.Threads.start, Client.MainThread.user?]

/-- A move that neither the main thread nor an answer takes part in. -/
theorem Informed.congr {conn : Conn} {past : List ClusterEntry} {s s' : Client.Threads}
    (h : Informed conn past s) (hmain : s'.main = s.main) (hrwsem : s'.rwsem = s.rwsem)
    (hflag : s'.isLoginSuccess = s.isLoginSuccess) (hcurrent : s'.current = s.current)
    (hgreeting : ∀ response acks, s'.reader = .greeting response acks →
      ∃ earlier, s.reader = .greeting response earlier)
    (hposting : ∀ response, s'.reader = .posting response → s.reader = .posting response) :
    Informed conn past s' := by
  have htold : ∀ {id pwd}, Told conn past s id pwd → Told conn past s' id pwd := by
    intro id pwd htold
    refine ⟨fun hsuccess => ?_, fun hfailure => ?_⟩
    · rw [hcurrent]
      exact htold.accepted (hflag ▸ hsuccess)
    · exact htold.refused (hflag ▸ hfailure)
  constructor
  · rw [hmain]
    exact h.range
  · intro id pwd response acks hawait hreader
    rcases hgreeting response acks hreader with ⟨earlier, hearlier⟩
    rw [hcurrent]
    exact h.greeting id pwd response earlier (hmain ▸ hawait) hearlier
  · intro id pwd hawait hposted
    rw [hrwsem] at hposted
    refine htold (h.posted id pwd (hmain ▸ hawait) (hposted.imp_left ?_))
    rintro ⟨response, hreader⟩
    exact ⟨response, hposting response hreader⟩
  · intro id pwd hwoken
    exact htold (h.woken id pwd (hmain ▸ hwoken))
  · intro id pwd hinside
    rw [hmain] at hinside
    rw [hcurrent]
    exact h.inside id pwd hinside

/-- More is recorded. -/
theorem Informed.cons {conn : Conn} {past : List ClusterEntry} {s : Client.Threads}
    (h : Informed conn past s) (e : ClusterEntry) : Informed conn (e :: past) s := by
  have htold : ∀ {id pwd}, Told conn past s id pwd → Told conn (e :: past) s id pwd := by
    intro id pwd htold
    constructor
    · intro hsuccess
      rcases htold.accepted hsuccess with ⟨hverdict, hid⟩
      exact ⟨hverdict.cons e, hid⟩
    · intro hfailure
      rcases htold.refused hfailure with ⟨errno, herrno, hverdict⟩
      exact ⟨errno, herrno, hverdict.cons e⟩
  constructor
  · exact h.range
  · intro id pwd response acks hawait hreader
    rcases h.greeting id pwd response acks hawait hreader with ⟨hverdict, hid⟩
    exact ⟨hverdict.cons e, hid⟩
  · exact fun id pwd hawait hposted => htold (h.posted id pwd hawait hposted)
  · exact fun id pwd hwoken => htold (h.woken id pwd hwoken)
  · intro id pwd hinside
    rcases h.inside id pwd hinside with ⟨hverdict, hid⟩
    exact ⟨hverdict.cons e, hid⟩

end Verdict

section Runs
variable [Strtod] [LawfulStrtod] {db : Database} {conn : Conn} {c : Conversation}
  {s s' : Client.Threads} {x : ClusterConfig}

/-- While the main thread does not wait, nothing is posted or about to be. -/
theorem Sound.idle (hc : Sound conn db c) (hawaits : c.client.main.awaits = none) :
    c.client.rwsem = 0 ∧ c.client.reader.busy = 0 := by
  have hbalance := hc.balance
  rw [Client.MainThread.waiting, hawaits] at hbalance
  simp only [Option.isSome_none, Bool.false_eq_true, if_false] at hbalance
  omega

/-- While the receive thread is behind an answer, the main thread waits. -/
theorem Sound.awaits_of_busy (hc : Sound conn db c) (hbusy : c.client.reader.busy = 1) :
    ∃ js, c.client.main.awaits = some js := by
  cases hawaits : c.client.main.awaits with
  | some js => exact ⟨js, rfl⟩
  | none =>
      have hidle := (hc.idle hawaits).2
      omega

/-- What the handler of a login has sent on its connection. -/
theorem loginAnswer_of_answeredBy (hc : Sound conn db c) {id : ℤ} {pwd : String} {line : Sent}
    {response : Json}
    (h : AnsweredBy conn c.cluster.view.past (Client.loginRequest id pwd) line)
    (hparse : JsonParser.parse line.payload = some response) :
    line = .json response ∧ LoginAnswer (Client.loginRequest id pwd) response := by
  rcases hc.run with ⟨es, hrun⟩
  rcases h with ⟨time, hmem⟩
  have hbody : ∀ j : Job, j.body.All fun c => ∀ d s, j = .frame conn (Client.loginRequest id pwd) time →
      c = .sendTo d s → ∃ response, s = .json response ∧
        LoginAnswer (Client.loginRequest id pwd) response := by
    intro j
    by_cases hj : j = .frame conn (Client.loginRequest id pwd) time
    · subst hj
      have hmsg : msgType? (Client.loginRequest id pwd) = some .loginMsg := msgType?_of_find rfl
      have hlogin := loginAnswer_login conn (Client.loginRequest id pwd)
      rw [Job.body, onMessage_eq, hmsg]
      exact hlogin.mono fun c hc d s _ => hc d s
    · exact (Prog.all_true _).mono fun c _ d s hj' => absurd hj' hj
  rcases (hrun.did_all hbody).1 _ _ _ hmem conn line rfl rfl with ⟨response', rfl, hanswer⟩
  have hread := parse_dump_of_normal (normal_of_recorded hrun hc.parsed hmem)
  obtain rfl := Option.some.inj (hread.symm.trans hparse)
  exact ⟨rfl, hanswer⟩

/-! ## Steps -/

theorem Client.MainStep.informed (h : Client.MainStep s s') (hc : Sound conn db ⟨s, x⟩)
    (hs : Informed conn x.view.past s) : Informed conn x.view.past s' := by
  cases h with
  | login id pwd hmain hl hu =>
      constructor
      · rintro id' pwd' ⟨⟩
        exact ⟨hl, hu⟩
      all_goals simp
  | @sendLogin id pwd ok s₁ hmain hsend =>
      have hidle := hc.idle (show s.main.awaits = none by rw [hmain]; rfl)
      rcases hsend.eq with ⟨sent, torn, rfl, -⟩
      constructor
      · rintro id' pwd' ⟨⟩
        exact hs.range id pwd (by rw [hmain]; rfl)
      · intro id' pwd' response acks _ hreader
        have hbusy : s.reader.busy = 1 := by
          rw [show s.reader = .greeting response acks from hreader]
          rfl
        exact absurd (hbusy.symm.trans hidle.2) (by decide)
      · rintro id' pwd' _ (⟨response, hreader⟩ | hsem)
        · have hbusy : s.reader.busy = 1 := by
            rw [show s.reader = .posting response from hreader]
            rfl
          exact absurd (hbusy.symm.trans hidle.2) (by decide)
        · exact absurd hidle.1 (Nat.pos_iff_ne_zero.mp hsem)
      all_goals simp
  | @waitLogin id pwd hmain hsem =>
      have htold := hs.posted id pwd hmain (.inr hsem)
      constructor
      · rintro id' pwd' ⟨⟩
        exact hs.range id pwd (by rw [hmain]; rfl)
      · simp
      · simp
      · rintro id' pwd' ⟨⟩
        exact ⟨htold.accepted, htold.refused⟩
      · simp
  | @succeeded id pwd hmain hflag =>
      constructor
      · rintro id' pwd' ⟨⟩
        exact hs.range id pwd (by rw [hmain]; rfl)
      · simp
      · simp
      · simp
      · rintro id' pwd' (⟨⟨⟩⟩ | ⟨⟨⟩⟩)
        exact (hs.woken id pwd hmain).accepted hflag
  | @enter id pwd hmain =>
      constructor
      · rintro id' pwd' ⟨⟩
        exact hs.range id pwd (by rw [hmain]; rfl)
      · simp
      · simp
      · simp
      · rintro id' pwd' (⟨⟨⟩⟩ | ⟨⟨⟩⟩)
        exact hs.inside id pwd (.inl hmain)
  | command hmain hrunning hrequest hsend =>
      rcases hsend.eq with ⟨sent, torn, rfl, -⟩
      exact hs.congr rfl rfl rfl rfl (fun _ acks h => ⟨acks, h⟩) fun _ h => h
  | @loginout id pwd ok s₁ hmain hrunning hsend =>
      rcases hsend.eq with ⟨sent, torn, rfl, -⟩
      cases ok <;> exact hs.congr rfl rfl rfl rfl (fun _ acks h => ⟨acks, h⟩) fun _ h => h
  | failed | leave | reg | sendReg | waitReg => constructor <;> simp [Client.MainThread.user?]

omit [LawfulStrtod] in
/-- What a line says that is read as an answer of type `t`. -/
theorem answer?_of_intAt {line : Sent} {js : Json} {t : EnMsgType}
    (hparse : JsonParser.parse line.payload = some js) (hmsg : Client.intAt js "msgid" = some t.code)
    (ht : t.isAnswer = true) : line.answer? = some t := by
  have htype : msgType? js = some t := by
    rw [msgType?, show (js.find? "msgid").bind Json.getInt32? = some t.code from hmsg]
    exact EnMsgType.ofCode?_code t
  rw [Sent.answer?, hparse, Option.bind_some, answerType?_of_msgType htype, ht]
  rfl

/-- Nothing has been posted while an answer is still unread. -/
theorem Sound.rwsem_of_unread (hc : Sound conn db ⟨s, x⟩) {line : Sent}
    (hline : (x.view.state.out conn)[s.received]? = some line) (hposts : line.posts = true) :
    s.rwsem = 0 := by
  have hbalance := hc.balance
  rcases List.getElem?_eq_some_iff.mp hline with ⟨hlt, hget⟩
  rw [List.drop_eq_getElem_cons hlt, hget, List.countP_cons_of_pos hposts,
    Client.MainThread.waiting] at hbalance
  change s.rwsem + s.reader.busy + _ ≤ _ at hbalance
  split_ifs at hbalance <;> omega

/-- The main thread gets no answer of the wrong type. -/
theorem Sound.login_answered (hc : Sound conn db ⟨s, x⟩) (hreader : s.reader = .receiving)
    {line : Sent} {js : Json} {t : EnMsgType}
    (hline : (x.view.state.out conn)[s.received]? = some line)
    (hparse : JsonParser.parse line.payload = some js) (hmsg : Client.intAt js "msgid" = some t.code)
    (ht : t.isAnswer = true) (hposts : t.posts = true) :
    s.main.awaits.isSome ∧ s.rwsem = 0 ∧ ∀ id pwd, s.main = .awaitLogin id pwd →
      t = .loginMsgAck ∧ AnsweredBy conn x.view.past (Client.loginRequest id pwd) line := by
  have hanswer := answer?_of_intAt hparse hmsg ht
  have hline' : line.posts = true := by
    rw [Sent.posts, hanswer]
    exact hposts
  rcases hc.answered hreader hline hline' with ⟨request, time, hawaits, hmem, hdue⟩
  refine ⟨Option.isSome_iff_exists.mpr ⟨request, hawaits⟩, hc.rwsem_of_unread hline hline', ?_⟩
  intro id pwd hmain
  change s.main.awaits = some request at hawaits
  rw [hmain] at hawaits
  cases hawaits
  rw [dueType?_of_msgType (t := .loginMsg) (msgType?_of_find rfl), hanswer] at hdue
  cases hdue
  exact ⟨rfl, time, hmem⟩

theorem Client.ReadStep.informed (h : Client.ReadStep (x.view.state.out conn) s s')
    (hc : Sound conn db ⟨s, x⟩) (hs : Informed conn x.view.past s) :
    Informed conn x.view.past s' := by
  have hnot : s.main.awaits.isSome → ∀ {m}, s.main = m → m.awaits = none → False := by
    rintro hsome m rfl hnone
    rw [hnone] at hsome
    cases hsome
  cases h with
  | unparsed hreader hline hparse =>
      exact hs.congr rfl rfl rfl rfl (fun _ acks h => ⟨acks, h⟩) fun _ h => h
  | chat => exact hs.congr rfl rfl rfl rfl (by simp) (by simp)
  | other => exact hs.congr rfl rfl rfl rfl (fun _ acks h => ⟨acks, h⟩) fun _ h => h
  | ack hreader hsend =>
      rcases hsend.eq with ⟨sent, torn, rfl, -⟩
      exact hs.congr rfl rfl rfl rfl (by simp) (by simp)
  | acked => exact hs.congr rfl rfl rfl rfl (by simp) (by simp)
  | greet hreader hsend =>
      rcases hsend.eq with ⟨sent, torn, rfl, -⟩
      refine hs.congr rfl rfl rfl rfl ?_ (by simp)
      rintro response acks ⟨⟩
      exact ⟨_, hreader⟩
  | @refused line js errno hreader hline hparse hmsg herrno hne =>
      rcases hc.login_answered hreader hline hparse hmsg rfl rfl with ⟨hawaits, hrwsem, hlogin⟩
      constructor
      · exact hs.range
      · simp
      · intro id pwd hmain _
        constructor
        · simp
        · intro _
          exact ⟨errno, hne, line, js, (hlogin id pwd hmain).2, hparse, herrno⟩
      · intro id pwd hmain
        exact (hnot hawaits hmain rfl).elim
      · rintro id pwd (hmain | hmain)
        · exact (hnot hawaits hmain rfl).elim
        · exact (hnot hawaits hmain rfl).elim
  | @accepted line js current acks hreader hline hparse hmsg herrno hresponse =>
      rcases hc.login_answered hreader hline hparse hmsg rfl rfl with ⟨hawaits, hrwsem, hlogin⟩
      constructor
      · exact hs.range
      · intro id pwd response acks' hmain hgreeting
        have hanswered := (hlogin id pwd hmain).2
        have hanswer := (loginAnswer_of_answeredBy hc hanswered hparse).2
        have hid := (hanswer.success (hs.range id pwd (by rw [hmain]; rfl)) herrno).2
        exact ⟨⟨line, js, hanswered, hparse, herrno⟩,
          currentId_of_doLoginResponse hresponse herrno hid⟩
      · rintro id pwd hmain (⟨response, ⟨⟩⟩ | hsem)
        exact absurd hrwsem (Nat.pos_iff_ne_zero.mp hsem)
      · intro id pwd hmain
        exact (hnot hawaits hmain rfl).elim
      · rintro id pwd (hmain | hmain)
        · exact (hnot hawaits hmain rfl).elim
        · exact (hnot hawaits hmain rfl).elim
  | @registered line js hreader hline hparse hmsg herrno =>
      rcases hc.login_answered hreader hline hparse hmsg rfl rfl with ⟨hawaits, hrwsem, hlogin⟩
      constructor
      · exact hs.range
      · simp
      · intro id pwd hmain _
        cases (hlogin id pwd hmain).1
      · intro id pwd hmain
        exact (hnot hawaits hmain rfl).elim
      · rintro id pwd (hmain | hmain)
        · exact (hnot hawaits hmain rfl).elim
        · exact (hnot hawaits hmain rfl).elim
  | @greeted response hreader =>
      have hbusy : s.reader.busy = 1 := by
        rw [hreader]
        rfl
      have hawaits := Option.isSome_iff_exists.mpr (hc.awaits_of_busy hbusy)
      constructor
      · exact hs.range
      · simp
      · intro id pwd hmain _
        constructor
        · intro _
          exact hs.greeting id pwd response [] hmain hreader
        · simp
      · intro id pwd hmain
        exact (hnot hawaits hmain rfl).elim
      · rintro id pwd (hmain | hmain)
        · exact (hnot hawaits hmain rfl).elim
        · exact (hnot hawaits hmain rfl).elim
  | @post response hreader =>
      constructor
      · exact hs.range
      · simp
      · intro id pwd hmain _
        have htold := hs.posted id pwd hmain (.inl ⟨response, hreader⟩)
        exact ⟨htold.accepted, htold.refused⟩
      · intro id pwd hmain
        have htold := hs.woken id pwd hmain
        exact ⟨htold.accepted, htold.refused⟩
      · exact hs.inside

omit [LawfulStrtod] in
theorem Client.BeatStep.informed (h : Client.BeatStep s s') (hs : Informed conn x.view.past s) :
    Informed conn x.view.past s' := by
  cases h with
  | send hbeat hsend =>
      rcases hsend.eq with ⟨sent, torn, rfl, -⟩
      exact hs.congr rfl rfl rfl rfl (fun _ acks h => ⟨acks, h⟩) fun _ h => h
  | _ => exact hs.congr rfl rfl rfl rfl (fun _ acks h => ⟨acks, h⟩) fun _ h => h

theorem Conversation.Reached.informed (h : Conversation.Reached conn db c) :
    Informed conn c.cluster.view.past c.client := by
  induction h with
  | refl => exact Informed.start conn _
  | @tail c c' hreached hstep ih =>
      have hc := Conversation.Reached.sound hreached
      cases hstep with
      | client hstep =>
          cases hstep with
          | main h => exact h.informed hc ih
          | reader h => exact h.informed hc ih
          | heartbeat h => exact h.informed ih
      | @cluster s x y e hstep harrives =>
          change Informed conn y.view.past s
          rw [hstep.moves.recorded]
          exact ih.cons e

/-! ## The chat menu -/

/-- The server has let in user `id` on the connection, for a request with this password: the
stored one up to a NUL, or the empty one for the id -1 of the default user. -/
def LetIn (db : Database) (conn : Conn) (past : List ClusterEntry) (id : ℤ) (pwd : String) : Prop :=
  ∃ time, .did (.frame conn (Client.loginRequest id pwd) time) (.node (.mapBind id conn)) () ∈ past ∧
    KnownPassword db id pwd

/-- A login that the client takes for a success has bound its connection. -/
theorem Sound.letIn (hc : Sound conn db c) {id : ℤ} {pwd : String} (hid : IsInt id)
    (h : Verdict conn c.cluster.view.past id pwd 0) :
    LetIn c.cluster.view.state.db conn c.cluster.view.past id pwd := by
  rcases hc.run with ⟨es, hrun⟩
  rcases h with ⟨line, response, hanswered, hparse, herrno⟩
  rcases loginAnswer_of_answeredBy hc hanswered hparse with ⟨rfl, hanswer⟩
  have hconfirmed := (hanswer.success hid herrno).1
  rcases hanswered with ⟨time, hmem⟩
  rcases List.append_of_mem hmem with ⟨newer, older, hpast⟩
  rcases hrun.at_entry hpast with ⟨_, _, y, z, hbefore, rfl, hs, -, -⟩
  let j : Job := .frame conn (Client.loginRequest id pwd) time
  have hj : (y.slot j.agent).last = some j := hbefore.job_of_step hs rfl (by simp)
  rcases (handsOut_of_step hbefore hs).answer conn _ id rfl hconfirmed with ⟨response', -, hreturned⟩
  have hbound := bound_recorded hbefore hj hreturned.bound
  have hbound' : .did (.frame conn (Client.loginRequest id pwd) time) (.node (.mapBind id conn)) () ∈
      c.cluster.view.past := by
    rw [hpast]
    exact List.mem_append_right _ (List.mem_cons_of_mem _ hbound)
  rcases List.append_of_mem hbound' with ⟨newer', older', hpast'⟩
  rcases login_of_bind hrun hpast' with ⟨js, time', pwd', hjob, hlogin, hknown⟩
  cases hjob
  have hpwd : getString (Client.loginRequest id pwd) "password" = some pwd := rfl
  rw [hlogin.password] at hpwd
  cases hpwd
  exact ⟨time, hbound', hknown⟩

/-- Behind `sem_wait` the flag is what the handler of the main thread's own request has
answered. In the chat menu the current user is the one that the main thread has asked for,
and the server has let this user in on the connection with the password that was typed. -/
theorem login_verdict (h : Conversation.Reached conn db c) :
    (∀ id pwd, c.client.main = .wokenLogin id pwd →
      if c.client.isLoginSuccess then Verdict conn c.cluster.view.past id pwd 0
      else ∃ errno, errno ≠ 0 ∧ Verdict conn c.cluster.view.past id pwd errno) ∧
      ∀ id pwd, c.client.main = .chatMenu id pwd → c.client.current.currentId = id ∧
        LetIn c.cluster.view.state.db conn c.cluster.view.past id pwd := by
  have hs := h.informed
  constructor
  · intro id pwd hmain
    split_ifs with hflag
    · exact ((hs.woken id pwd hmain).accepted hflag).1
    · exact (hs.woken id pwd hmain).refused (by simpa using hflag)
  · intro id pwd hmain
    rcases hs.inside id pwd (.inr hmain) with ⟨hverdict, hid⟩
    exact ⟨hid, h.sound.letIn (hs.range id pwd (by rw [hmain]; rfl)) hverdict⟩

end Runs

/-- The client of a registered user comes to the chat menu. -/
theorem exists_chatMenu : (letI : Strtod := Parser.noDoubles
    ∃ s x, Conversation.Reached ⟨0, 0⟩ (Statement.registered [("ann", "pw"), ("bob", "pw")]) ⟨s, x⟩ ∧
      s.main = .chatMenu 1 "pw" ∧ s.isMainMenuRunning = true ∧ s.current.currentId = 1 ∧
        s.heartbeat = .asleep ∧ s.torn = false) := by
  let _ := Parser.noDoubles
  rcases exists_greeted with ⟨x, response, current, h⟩
  have hreached := Conversation.Reached.beside reached_asked h.beside
  have hline : (x.view.state.out ⟨0, 0⟩)[0]? = some (.json response) := by
    rw [h.out]
    rfl
  have hread := hreached.tail (.client (.reader
    (.accepted rfl hline h.parsed h.msgid h.errno h.current)))
  have hgreeted := hread.tail (.client (.reader (.greeted rfl)))
  have hposted := hgreeted.tail (.client (.reader (.post rfl)))
  have hwoken := hposted.tail (.client (.main (.waitLogin rfl Nat.one_pos)))
  have hentering := hwoken.tail (.client (.main (.succeeded rfl rfl)))
  have hinside := hentering.tail (.client (.main (.enter rfl)))
  have hinformed := Conversation.Reached.informed hinside
  exact ⟨_, x, hinside, rfl, rfl, (hinformed.inside 1 "pw" (.inr rfl)).2, rfl, rfl⟩

theorem login_verdict_ann : (letI : Strtod := Parser.noDoubles
    ∃ c, Conversation.Reached ⟨0, 0⟩ (Statement.registered [("ann", "pw"), ("bob", "pw")]) c ∧
      c.client.main = .chatMenu 1 "pw" ∧ c.client.current.currentId = 1 ∧
        LetIn c.cluster.view.state.db ⟨0, 0⟩ c.cluster.view.past 1 "pw") := by
  let _ := Parser.noDoubles
  rcases exists_chatMenu with ⟨s, x, hreached, hmain, -⟩
  exact ⟨_, hreached, hmain, (login_verdict hreached).2 1 "pw" hmain⟩

/-! ## In whose name the client speaks -/

/-- A login for `id` has bound the connection. -/
def BoundByLogin (conn : Conn) (past : List ClusterEntry) (id : ℤ) : Prop :=
  IsInt id ∧ ∃ pwd time,
    .did (.frame conn (Client.loginRequest id pwd) time) (.node (.mapBind id conn)) () ∈ past

/-- A request for an answer, an acknowledgement, or a request in the name of a user whom a
login on the connection has bound. -/
def SpeaksFor (conn : Conn) (past : List ClusterEntry) (js : Json) : Prop :=
  js.asks = true ∨ msgType? js = some .msgAck ∨
    ∃ id, getInt js "id" = some id ∧ BoundByLogin conn past id

/-- What the client has said and its heartbeat is about to say. -/
structure Named (conn : Conn) (past : List ClusterEntry) (s : Client.Threads) : Prop where
  sent : ∀ js ∈ s.sent, SpeaksFor conn past js
  current : s.current.currentId = -1 ∨ BoundByLogin conn past s.current.currentId
  checked : s.heartbeat = .checked → BoundByLogin conn past s.current.currentId
  built : ∀ id, s.heartbeat = .built id → BoundByLogin conn past id

section Named
variable {conn : Conn} {past : List ClusterEntry} {s s' : Client.Threads} {js : Json} {ok : Bool}

theorem BoundByLogin.cons {id : ℤ} (h : BoundByLogin conn past id) (e : ClusterEntry) :
    BoundByLogin conn (e :: past) id := by
  rcases h with ⟨hid, pwd, time, hmem⟩
  exact ⟨hid, pwd, time, List.mem_cons_of_mem e hmem⟩

/-- A request that has the id of a user in it. -/
theorem BoundByLogin.speaksFor {id : ℤ} (h : BoundByLogin conn past id)
    (hfind : js.find? "id" = some (.int id)) : SpeaksFor conn past js :=
  .inr (.inr ⟨id, getInt_int hfind h.1.1 h.1.2, h⟩)

theorem speaksFor_menuRequest {current : Client.ClientState} (h : Client.MenuRequest current js)
    (hid : BoundByLogin conn past current.currentId) : SpeaksFor conn past js := by
  cases h <;> exact hid.speaksFor rfl

theorem Named.start (conn : Conn) (past : List ClusterEntry) :
    Named conn past Client.Threads.start := by
  constructor <;> simp [Client.Threads.start]

theorem Named.cons (h : Named conn past s) (e : ClusterEntry) : Named conn (e :: past) s := by
  constructor
  · intro js hjs
    rcases h.sent js hjs with hasks | hack | ⟨id, hget, hid⟩
    · exact .inl hasks
    · exact .inr (.inl hack)
    · exact .inr (.inr ⟨id, hget, hid.cons e⟩)
  · exact h.current.imp_right fun hid => hid.cons e
  · exact fun hchecked => (h.checked hchecked).cons e
  · exact fun id hbuilt => (h.built id hbuilt).cons e

/-- A step that says nothing and leaves the current user. -/
theorem Named.congr (h : Named conn past s) (hsent : s'.sent = s.sent)
    (hcurrent : s'.current = s.current) (hheartbeat : s'.heartbeat = s.heartbeat) :
    Named conn past s' := by
  constructor
  · rw [hsent]
    exact h.sent
  · rw [hcurrent]
    exact h.current
  · rw [hcurrent, hheartbeat]
    exact h.checked
  · rw [hheartbeat]
    exact h.built

theorem Named.sends (h : Named conn past s) (hsend : Client.Sends js s ok s')
    (hjs : SpeaksFor conn past js) : Named conn past s' := by
  rcases hsend.eq with ⟨sent, torn, rfl, rfl | rfl⟩
  · exact h.congr rfl rfl rfl
  · refine ⟨fun js' hjs' => ?_, h.current, h.checked, h.built⟩
    rcases List.mem_append.mp hjs' with hearlier | hlast
    · exact h.sent js' hearlier
    · rw [List.mem_singleton.mp hlast]
      exact hjs

end Named

section Runs
variable [Strtod] [LawfulStrtod] {db : Database} {conn : Conn} {c : Conversation}
  {s s' : Client.Threads} {x : ClusterConfig} {js : Json}

theorem Sound.boundByLogin (hc : Sound conn db ⟨s, x⟩) {id : ℤ} {pwd : String} (hid : IsInt id)
    (h : Verdict conn x.view.past id pwd 0) : BoundByLogin conn x.view.past id := by
  rcases hc.letIn hid h with ⟨time, hmem, -⟩
  exact ⟨hid, pwd, time, hmem⟩

theorem Client.MainStep.named (h : Client.MainStep s s') (hc : Sound conn db ⟨s, x⟩)
    (hi : Informed conn x.view.past s) (hs : Named conn x.view.past s) :
    Named conn x.view.past s' := by
  have hinside : ∀ {id pwd}, s.main = .chatMenu id pwd →
      BoundByLogin conn x.view.past s.current.currentId := by
    intro id pwd hmain
    rcases hi.inside id pwd (.inr hmain) with ⟨hverdict, hid⟩
    rw [hid]
    exact hc.boundByLogin (hi.range id pwd (by rw [hmain]; rfl)) hverdict
  cases h with
  | sendLogin hmain hsend =>
      exact (hs.sends hsend (.inl (asks_loginRequest ..))).congr rfl rfl rfl
  | sendReg hmain hsend => exact (hs.sends hsend (.inl (asks_regRequest ..))).congr rfl rfl rfl
  | command hmain hrunning hrequest hsend =>
      exact hs.sends hsend (speaksFor_menuRequest hrequest (hinside hmain))
  | @loginout id pwd ok s₁ hmain hrunning hsend =>
      have hs₁ := hs.sends hsend ((hinside hmain).speaksFor rfl)
      cases ok with
      | true => exact hs₁.congr rfl rfl rfl
      | false => exact hs₁
  | _ => exact hs.congr rfl rfl rfl

/-- Only while the main thread waits for a login does an answer to one come. -/
theorem Sound.awaitLogin (hc : Sound conn db ⟨s, x⟩) (hreader : s.reader = .receiving)
    {line : Sent} (hline : (x.view.state.out conn)[s.received]? = some line)
    (hparse : JsonParser.parse line.payload = some js)
    (hmsg : Client.intAt js "msgid" = some EnMsgType.loginMsgAck.code) :
    ∃ id pwd, s.main = .awaitLogin id pwd := by
  have hanswer := answer?_of_intAt hparse hmsg rfl
  have hposts : line.posts = true := by
    rw [Sent.posts, hanswer]
    rfl
  rcases hc.answered hreader hline hposts with ⟨request, time, hawaits, -, hdue⟩
  rw [hanswer] at hdue
  change s.main.awaits = some request at hawaits
  cases hmain : s.main with
  | awaitLogin id pwd => exact ⟨id, pwd, rfl⟩
  | awaitReg name pwd =>
      rw [hmain] at hawaits
      cases hawaits
      rw [dueType?_of_msgType (t := .regMsg) (msgType?_of_find rfl)] at hdue
      cases hdue
  | _ =>
      rw [hmain] at hawaits
      cases hawaits

theorem Client.ReadStep.named (h : Client.ReadStep (x.view.state.out conn) s s')
    (hc : Sound conn db ⟨s, x⟩) (hi : Informed conn x.view.past s)
    (hs : Named conn x.view.past s) : Named conn x.view.past s' := by
  have hinformed := h.informed hc hi
  rcases hc.paired with ⟨waits, hpaired⟩
  have hacks := hpaired.acks
  change ∀ ack ∈ s.reader.acks, _ at hacks
  cases h with
  | @accepted line js current acks hreader hline hparse hmsg herrno hresponse =>
      have hlogged : BoundByLogin conn x.view.past current.currentId := by
        rcases hc.awaitLogin hreader hline hparse hmsg with ⟨id, pwd, hmain⟩
        rcases hinformed.greeting id pwd js acks hmain rfl with ⟨hverdict, hid⟩
        change current.currentId = id at hid
        rw [hid]
        exact hc.boundByLogin (hi.range id pwd (by rw [hmain]; rfl)) hverdict
      exact ⟨hs.sent, .inr hlogged, fun _ => hlogged, hs.built⟩
  | ack hreader hsend =>
      rw [hreader] at hacks
      exact (hs.sends hsend (.inr (.inl (hacks _ List.mem_cons_self)))).congr rfl rfl rfl
  | greet hreader hsend =>
      rw [hreader] at hacks
      exact (hs.sends hsend (.inr (.inl (hacks _ List.mem_cons_self)))).congr rfl rfl rfl
  | _ => exact hs.congr rfl rfl rfl

omit [LawfulStrtod] [Strtod] in
theorem Client.BeatStep.named {past : List ClusterEntry} (h : Client.BeatStep s s')
    (hs : Named conn past s) : Named conn past s' := by
  cases h with
  | wake hasleep hrunning => exact ⟨hs.sent, hs.current, nofun, nofun⟩
  | check hrunning hid =>
      have hlogged := hs.current.resolve_left hid
      exact ⟨hs.sent, hs.current, fun _ => hlogged, nofun⟩
  | sleep => exact ⟨hs.sent, hs.current, nofun, nofun⟩
  | build hchecked =>
      refine ⟨hs.sent, hs.current, nofun, ?_⟩
      rintro id ⟨⟩
      exact hs.checked hchecked
  | @send id ok s₁ hbuilt hsend =>
      have hs₁ := hs.sends hsend ((hs.built id hbuilt).speaksFor rfl)
      exact ⟨hs₁.sent, hs₁.current, nofun, nofun⟩

theorem Conversation.Reached.named (h : Conversation.Reached conn db c) :
    Named conn c.cluster.view.past c.client := by
  induction h with
  | refl => exact Named.start conn _
  | @tail c c' hreached hstep ih =>
      have hc := Conversation.Reached.sound hreached
      have hi := Conversation.Reached.informed hreached
      cases hstep with
      | client hstep =>
          cases hstep with
          | main h => exact h.named hc hi ih
          | reader h => exact h.named hc hi ih
          | heartbeat h => exact h.named ih
      | @cluster s x y e hstep harrives =>
          change Named conn y.view.past s
          rw [hstep.moves.recorded]
          exact ih.cons e

/-- Apart from its logins, registrations and acknowledgements, everything that a client sends,
heartbeats included, is in the name of a user id that a login of its own has bound to its
connection, with a password that the query of the user gave. -/
theorem speaks_for_own_login (h : Conversation.Reached conn db c) {js : Json}
    (hjs : js ∈ c.client.sent) (hasks : js.asks = false) (hack : msgType? js ≠ some .msgAck) :
    ∃ id pwd, getInt js "id" = some id ∧
      LetIn c.cluster.view.state.db conn c.cluster.view.past id pwd := by
  rcases h.named.sent js hjs with hasks' | hack' | ⟨id, hget, -, pwd, time, hmem⟩
  · rw [hasks] at hasks'
    cases hasks'
  · exact absurd hack' hack
  · rcases h.sound.run with ⟨es, hrun⟩
    rcases List.append_of_mem hmem with ⟨newer, older, hpast⟩
    rcases login_of_bind hrun hpast with ⟨js', time', pwd', hjob, hlogin, hknown⟩
    cases hjob
    have hpwd : getString (Client.loginRequest id pwd) "password" = some pwd := rfl
    rw [hlogin.password] at hpwd
    cases hpwd
    exact ⟨id, _, hget, time, hmem, hknown⟩

end Runs

/-- Her client's first heartbeat. -/
theorem speaks_for_own_login_ann : (letI : Strtod := Parser.noDoubles
    ∃ c, Conversation.Reached ⟨0, 0⟩ (Statement.registered [("ann", "pw"), ("bob", "pw")]) c ∧
      Client.heartbeatRequest 1 ∈ c.client.sent ∧
        ∃ id pwd, getInt (Client.heartbeatRequest 1) "id" = some id ∧
          LetIn c.cluster.view.state.db ⟨0, 0⟩ c.cluster.view.past id pwd) := by
  let _ := Parser.noDoubles
  rcases exists_chatMenu with ⟨s, x, hreached, -, hrunning, hid, hasleep, htorn⟩
  have hwoken := hreached.tail (.client (.heartbeat (.wake hasleep hrunning)))
  have hchecked := hwoken.tail (.client (.heartbeat (.check rfl (by simp [hid]))))
  have hbuilt := hchecked.tail (.client (.heartbeat (.build rfl)))
  have hsent := hbuilt.tail (.client (.heartbeat (.send rfl (.whole htorn))))
  have hmem : Client.heartbeatRequest 1 ∈ s.sent ++ [Client.heartbeatRequest s.current.currentId] := by
    simp [hid]
  have hmsg : msgType? (Client.heartbeatRequest 1) = some .heartbeatMsg := msgType?_of_find rfl
  refine ⟨_, hsent, hmem, speaks_for_own_login hsent hmem ?_ ?_⟩
  · rw [Json.asks, dueType?_of_msgType hmsg]
    rfl
  · rw [hmsg]
    simp

end ChatCluster
