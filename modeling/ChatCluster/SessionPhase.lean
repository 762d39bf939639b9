import ChatCluster.Sessions

/-!
# The life of one user's session under interleaving

The session of a user goes through a cycle: a login claims it by finding the user
offline, binds its connection, and opens the session by writing `online`; the
answer follows; a teardown erases the binding and ends the cycle by writing
`offline`. `phase` reads the current point of the cycle off the history of moves.

Every turn of the cycle is made by the connection that holds it.
-/
namespace ChatCluster
open CommandProgram Interleaving

inductive Phase where
  | free
  | claimed (c : Conn)
  | bound (c : Conn)
  | opened (c : Conn)
  | active (c : Conn)
  | closing (c : Conn)

namespace Phase

def userState : Phase → UserState
  | opened _ | active _ | closing _ => .online
  | free | claimed _ | bound _ => .offline

/-- The connection that the maps hold. -/
def binding : Phase → Option Conn
  | bound c | opened c | active c => some c
  | free | claimed _ | closing _ => none

/-- The connection whose handler is in the middle of the cycle. -/
def owner : Phase → Option Conn
  | claimed c | bound c | opened c | closing c => some c
  | free | active _ => none

/-- The connection whose session has been opened and not yet torn down. -/
def established : Phase → Option Conn
  | opened c | active c => some c
  | free | claimed _ | bound _ | closing _ => none

/-- The connection that the cycle is about. -/
def holder : Phase → Option Conn
  | free => none
  | claimed c | bound c | opened c | active c | closing c => some c

/-- The connection on whose node there may be a subscription. -/
def subscriber : Phase → Option Conn
  | bound c | opened c | active c | closing c => some c
  | free | claimed _ => none

/-- A login is between its check and its write of `online`. -/
def pending : Phase → Bool
  | claimed _ | bound _ => true
  | free | opened _ | active _ | closing _ => false

variable {c : Conn} {p : Phase}

theorem holder_of_owner (h : p.owner = some c) : p.holder = some c := by
  cases p <;> first | exact h | cases h

theorem holder_of_binding (h : p.binding = some c) : p.holder = some c := by
  cases p <;> first | exact h | cases h

theorem holder_of_established (h : p.established = some c) : p.holder = some c := by
  cases p <;> first | exact h | cases h

theorem binding_of_established (h : p.established = some c) : p.binding = some c := by
  cases p <;> first | exact h | cases h

theorem active_of_binding (h : p.binding = some c) (h' : p.owner ≠ some c) : p = active c := by
  cases p with
  | active d => exact congrArg active (Option.some.inj h)
  | bound | opened => exact absurd h h'
  | free | claimed | closing => cases h

end Phase

/-- The user whose login an answer confirms. -/
def confirmedUser? : Sent → Option ℤ
  | .json js =>
      if getInt js "msgid" = some EnMsgType.loginMsgAck.code ∧ getInt js "errno" = some 0 then
        getInt js "id"
      else none
  | .raw _ => none

theorem confirmedUser?_errorResponse {errno : ℤ} (h : errno = 1 ∨ errno = 2) (msgid : EnMsgType)
    (errmsg : String) : confirmedUser? (.json (errorResponse msgid errno errmsg)) = none := by
  refine if_neg fun hc => ?_
  have hfind : (errorResponse msgid errno errmsg).find? "errno" = some (.int errno) := rfl
  have herrno := hc.2
  rw [getInt, hfind] at herrno
  rcases h with rfl | rfl <;> exact absurd herrno (by decide)

theorem confirmedUser?_loginResponse {user : User} (h : INT_MIN ≤ user.id)
    (h' : user.id ≤ INT_MAX) (offlineMessages : List String) (userVec : List User)
    (groupuserVec : List Group) :
    confirmedUser? (.json (loginResponse user offlineMessages userVec groupuserVec)) =
      some user.id := by
  have hfind : ∀ k v, k = "msgid" ∨ k = "errno" ∨ k = "id" →
      ((((Json.null.set "msgid" (.int EnMsgType.loginMsgAck.code)).set "errno" (.int 0)).set
        "id" (.int user.id)).set "name" (.string user.name)).find? k = some (.int v) →
      INT_MIN ≤ v → v ≤ INT_MAX →
      getInt (loginResponse user offlineMessages userVec groupuserVec) k = some v := by
    intro k v hk hv hl hu
    refine getInt_int ?_ hl hu
    rw [find?_loginResponse, hv] <;> rcases hk with rfl | rfl | rfl <;> decide
  rw [confirmedUser?, hfind "msgid" EnMsgType.loginMsgAck.code (by simp) rfl (by decide) (by decide),
    hfind "errno" 0 (by simp) rfl (by decide) (by decide), hfind "id" _ (by simp) rfl h h']
  exact if_pos ⟨rfl, rfl⟩

theorem returns_confirmed {id : ℤ} {user : User} (huser : user.id = id) (hl : INT_MIN ≤ id)
    (hu : id ≤ INT_MAX) :
    (syncSession id user).Returns fun response => confirmedUser? (.json response) = some id := by
  subst huser
  exact returns_syncSession fun _ _ _ => confirmedUser?_loginResponse hl hu _ _ _

/-- A login is tracked when its parts are. `S` is what it remembers once it has opened the
session, `T` what it remembers with the answer that it is about to send. -/
theorem tracked_login {τ : Type} {next : τ → (c : Command) → Response c → τ}
    {P : τ → Command → Prop} {Q : τ → Prop} {S : ℤ → τ → Prop} {T : ℤ → τ → Json → Prop} {first : τ}
    {conn : Conn} {js : Json}
    (hquery : ∀ id row, P first (.sql (.selectUser id)) ∧
      next first (.sql (.selectUser id)) row = first)
    (hrefused : ∀ response, confirmedUser? (.json response) = none →
      (sendJson conn response).Tracked next P (fun t _ => Q t) first)
    (hopen : ∀ id user, (openSession conn id user).Tracked next P (fun t _ => S id t) first)
    (hsync : ∀ id user t, S id t → (syncSession id user).Tracked next P (T id) t)
    (hanswer : ∀ id t response, T id t response → confirmedUser? (.json response) = some id →
      (sendJson conn response).Tracked next P (fun t _ => Q t) t) :
    (login conn js).Tracked next P (fun t _ => Q t) first := by
  have hinvalid : ∀ (errno : ℤ) (errmsg : String), errno = 1 ∨ errno = 2 →
      (sendJson conn (errorResponse .loginMsgAck errno errmsg)).Tracked next P
        (fun t _ => Q t) first :=
    fun _ _ h => hrefused _ (confirmedUser?_errorResponse h _ _)
  unfold login
  split
  · next id pwd hid _ =>
    obtain ⟨hl, hu⟩ := getInt_range hid
    refine ⟨(hquery id none).1, fun row => ?_⟩
    rw [(hquery id row).2]
    change (if (User.ofRow row).id = id ∧ (User.ofRow row).pwd = pwd then
      if (User.ofRow row).state = .online then _ else _ else _ : Program Unit).Tracked _ _ _ _
    split_ifs with hmatch
    · exact hinvalid _ _ (.inr rfl)
    · refine (hopen id _).bind fun t₁ _ ht₁ => ?_
      refine ((hsync id _ t₁ ht₁).returns (returns_confirmed hmatch.1 hl hu)).bind
        fun t₂ response h => ?_
      exact hanswer id t₂ response h.1 h.2
    · exact hinvalid _ _ (.inl rfl)
  · exact hinvalid _ _ (.inl rfl)

/-- Only a frame of type `LOGIN_MSG_ACK` confirms a login. -/
theorem confirmedUser?_of_msgType {js : Json} {t : EnMsgType} (h : msgType? js = some t)
    (ht : t ≠ .loginMsgAck) : confirmedUser? (.json js) = none := by
  refine if_neg fun hc => ht ?_
  have hcode := code_of_getInt h hc.1
  cases t <;> first | rfl | exact absurd hcode (by decide)

theorem confirmedUser?_stamped {js : Json} {t : EnMsgType} (hmsg : msgType? js = some t)
    (ht : t ≠ .loginMsgAck) :
    (∀ messageid, confirmedUser? (.json (stampOneChat js messageid)) = none) ∧
      ∀ messageid id, confirmedUser? (.json (stampGroupChat js messageid id)) = none := by
  constructor
  · intro messageid
    exact confirmedUser?_of_msgType ((msgType?_stampOneChat js messageid).trans hmsg) ht
  · intro messageid id
    exact confirmedUser?_of_msgType ((msgType?_stampGroupChat js messageid id).trans hmsg) ht

def Job.IsLogin : Job → Prop
  | .frame _ js _ => msgType? js = some .loginMsg
  | _ => False

/-- The row makes the login frame `js` of user `u` succeed. -/
def loginPasses (u : ℤ) (js : Json) (row : Option UserRow) : Bool :=
  decide (msgType? js = some .loginMsg ∧ getInt js "id" = some u ∧
    getString js "password" = some (User.ofRow row).pwd ∧ (User.ofRow row).id = u ∧
    (User.ofRow row).state ≠ .online)

theorem loginPasses_of_not_isLogin {u : ℤ} {conn : Conn} {js : Json} {time : String}
    (h : ¬ Job.IsLogin (.frame conn js time)) (row : Option UserRow) :
    loginPasses u js row = false := decide_eq_false fun hc => h hc.1

namespace Phase

/-- A row query by a login frame of the user claims the session if the login passes. -/
def afterCheck (u : ℤ) (p : Phase) (j : Job) (row : Option UserRow) : Phase :=
  match j with
  | .frame conn js _ => if loginPasses u js row then claimed conn else p
  | _ => p

theorem afterCheck_of_not_isLogin {u : ℤ} {p : Phase} {j : Job} {row : Option UserRow}
    (h : ¬ j.IsLogin) : p.afterCheck u j row = p := by
  cases j with
  | frame conn js time => rw [afterCheck, loginPasses_of_not_isLogin h, if_neg Bool.false_ne_true]
  | _ => rfl

def afterWrite (p : Phase) : UserState → Phase
  | .online =>
      match p with
      | bound c => opened c
      | p => p
  | .offline =>
      match p with
      | closing _ => free
      | p => p

def afterBind : Phase → Phase
  | claimed c => bound c
  | p => p

def afterErase : Phase → Phase
  | active c => closing c
  | p => p

def afterAnswer : Phase → Phase
  | opened c => active c
  | p => p

/-- How a command of job `j` and its response change the phase of user `u`. -/
def afterCommand (u : ℤ) (p : Phase) (j : Job) : (c : Command) → Response c → Phase
  | .sql (.selectUser id), row => if id = u then p.afterCheck u j row else p
  | .sql (.updateUserState id state), _ => if id = u then p.afterWrite state else p
  | .node (.mapBind id _), _ => if id = u then p.afterBind else p
  | .node (.mapErase id), _ => if id = u then p.afterErase else p
  | .node (.mapEraseConn _), (erased : Option ℤ) => if erased = some u then p.afterErase else p
  | .sendTo _ s, _ => if confirmedUser? s = some u then p.afterAnswer else p
  | _, _ => p

def after (u : ℤ) (p : Phase) : ClusterEntry → Phase
  | .did j c r => p.afterCommand u j c r
  | _ => p

/-- The turns of the cycle of user `u`, all made by the connection `c` that holds it,
with the moves that make them. -/
inductive Turn (u : ℤ) (c : Conn) : ClusterEntry → Phase → Phase → Prop
  | claim (js : Json) (time : String) (row : Option UserRow) : loginPasses u js row = true →
      Turn u c (.did (.frame c js time) (.sql (.selectUser u)) row) free (claimed c)
  | bind (j : Job) : j.IsLogin → Turn u c (.did j (.node (.mapBind u c)) ()) (claimed c) (bound c)
  | online (j : Job) (r : Bool) :
      Turn u c (.did j (.sql (.updateUserState u .online)) r) (bound c) (opened c)
  | answer (j : Job) (s : Sent) : confirmedUser? s = some u →
      Turn u c (.did j (.sendTo c s) ()) (opened c) (active c)
  | erase (j : Job) : ¬ j.IsLogin →
      Turn u c (.did j (.node (.mapErase u)) ()) (active c) (closing c)
  | eraseConn (j : Job) : ¬ j.IsLogin →
      Turn u c (.did j (.node (.mapEraseConn c)) (some u)) (active c) (closing c)
  | offline (j : Job) (r : Bool) :
      Turn u c (.did j (.sql (.updateUserState u .offline)) r) (closing c) free

section Turns
variable {u : ℤ} {c d : Conn} {e : ClusterEntry} {p p' : Phase}

theorem Turn.holder_before (h : Turn u c e p p') (hp : p.holder = some d) : d = c := by
  cases h <;> cases hp <;> rfl

theorem Turn.holder_after (h : Turn u c e p p') (hp : p'.holder = some d) : d = c := by
  cases h <;> cases hp <;> rfl

theorem Turn.answered (h : Turn u c e p (active d)) :
    ∃ j s, e = .did j (.sendTo d s) () ∧ confirmedUser? s = some u := by
  cases h with
  | answer j s hs => exact ⟨j, s, rfl, hs⟩

theorem Turn.torn_down (h : Turn u c e (active d) p') :
    ∃ j, e.job? = some j ∧ ¬ j.IsLogin := by
  cases h with
  | erase j hj => exact ⟨j, rfl, hj⟩
  | eraseConn j hj => exact ⟨j, rfl, hj⟩

end Turns

/-- The cycle goes on or ends; it does not begin anew. -/
def Continues (p p' : Phase) : Prop :=
  ∀ c, p'.holder = some c → p.holder = some c ∧ (p'.pending = true → p.pending = true)

theorem Continues.refl (p : Phase) : Continues p p := fun _ h => ⟨h, fun h => h⟩

theorem continues_afterWrite (p : Phase) (state : UserState) :
    Continues p (p.afterWrite state) := by
  intro c h
  cases state with
  | online =>
      cases p with
      | bound d => exact ⟨h, fun hp => absurd hp Bool.false_ne_true⟩
      | _ => exact ⟨h, fun hp => hp⟩
  | offline =>
      cases p with
      | closing d => cases h
      | _ => exact ⟨h, fun hp => hp⟩

theorem continues_afterBind (p : Phase) : Continues p p.afterBind := by
  intro c h
  cases p with
  | claimed d => exact ⟨h, fun _ => rfl⟩
  | _ => exact ⟨h, fun hp => hp⟩

theorem continues_afterErase (p : Phase) : Continues p p.afterErase := by
  intro c h
  cases p with
  | active d => exact ⟨h, fun hp => absurd hp Bool.false_ne_true⟩
  | _ => exact ⟨h, fun hp => hp⟩

theorem continues_afterAnswer (p : Phase) : Continues p p.afterAnswer := by
  intro c h
  cases p with
  | opened d => exact ⟨h, fun hp => absurd hp Bool.false_ne_true⟩
  | _ => exact ⟨h, fun hp => hp⟩

/-- Only a login that passes its check begins a cycle. -/
theorem continues_after {u : ℤ} {p : Phase} (e : ClusterEntry) :
    Continues p (p.after u e) ∨
      ∃ conn js time row, e = .did (.frame conn js time) (.sql (.selectUser u)) row ∧
        loginPasses u js row = true ∧ p.after u e = claimed conn := by
  cases e with
  | started | aborted | disturbed => exact .inl (.refl p)
  | did j c r =>
      simp only [after]
      cases c with
      | sql q =>
          cases q with
          | selectUser id =>
              simp only [afterCommand]
              split_ifs with hid
              · subst hid
                cases j with
                | frame conn js time =>
                    simp only [afterCheck]
                    split_ifs with hpass
                    · exact .inr ⟨conn, js, time, r, rfl, hpass, rfl⟩
                    · exact .inl (.refl p)
                | _ => exact .inl (.refl p)
              · exact .inl (.refl p)
          | updateUserState id state =>
              simp only [afterCommand]
              split_ifs
              · exact .inl (continues_afterWrite p state)
              · exact .inl (.refl p)
          | _ => exact .inl (.refl p)
      | node q =>
          cases q with
          | mapBind =>
              simp only [afterCommand]
              split_ifs
              · exact .inl (continues_afterBind p)
              · exact .inl (.refl p)
          | mapErase | mapEraseConn =>
              simp only [afterCommand]
              split_ifs
              · exact .inl (continues_afterErase p)
              · exact .inl (.refl p)
          | _ => exact .inl (.refl p)
      | redisPublish => exact .inl (.refl p)
      | sendTo =>
          simp only [afterCommand]
          split_ifs
          · exact .inl (continues_afterAnswer p)
          · exact .inl (.refl p)

end Phase

/-- The phase of user `u` after a history that began in phase `p`. -/
def phase (u : ℤ) (p : Phase) : List ClusterEntry → Phase
  | [] => p
  | e :: past => (phase u p past).after u e

/-- The history contains a login of `u` on the connection that has passed its check. -/
def Claimed (u : ℤ) (c : Conn) (past : List ClusterEntry) : Prop :=
  ∃ js time row, .did (.frame c js time) (.sql (.selectUser u)) row ∈ past ∧
    loginPasses u js row = true

/-- Whoever holds the cycle has claimed it, unless it was so from the start. -/
theorem claimed_of_holder {u : ℤ} {p₀ : Phase} {past : List ClusterEntry} {c : Conn}
    (h : (phase u p₀ past).holder = some c) :
    Claimed u c past ∨
      p₀.holder = some c ∧ ((phase u p₀ past).pending = true → p₀.pending = true) := by
  induction past with
  | nil => exact .inr ⟨h, fun hp => hp⟩
  | cons e past ih =>
      obtain hcont | ⟨d, js, time, row, rfl, hpass, hclaim⟩ :=
        Phase.continues_after (u := u) (p := phase u p₀ past) e
      · obtain ⟨hholder, hpending⟩ := hcont c h
        refine (ih hholder).imp ?_ fun ⟨hp, himp⟩ => ⟨hp, fun h => himp (hpending h)⟩
        exact fun ⟨js, time, row, hmem, hpass⟩ => ⟨js, time, row, List.mem_cons_of_mem e hmem, hpass⟩
      · rw [phase, hclaim] at h
        obtain rfl := Option.some.inj h
        exact .inl ⟨js, time, row, List.mem_cons_self, hpass⟩

end ChatCluster
