import ChatCluster.Cluster

/-!
# Which handler a frame reaches

`onMessage` looks the handler up under the `int` that `get<int>` makes of the field
`msgid` and runs what `getHandler` returns. Here that handler is compared with the one
whose key the field itself names.
-/
namespace ChatCluster
open CommandProgram

/-- A business handler, waiting for the arguments that `onMessage` passes. -/
abbrev MsgHandler := Conn → Json → String → Program Unit

/-- What the constructor of `ChatService` inserts into `_msgHandlerMap`, by message
type. -/
def msgHandlerMap : EnMsgType → Option MsgHandler
  | .loginMsg => some fun conn js _ => login conn js
  | .loginoutMsg => some fun conn js _ => loginout conn js
  | .regMsg => some fun conn js _ => reg conn js
  | .oneChatMsg => some fun conn js _ => oneChat conn js
  | .addFriendMsg => some fun conn js _ => addFriend conn js
  | .createGroupMsg => some fun conn js _ => createGroup conn js
  | .addGroupMsg => some fun conn js _ => addGroup conn js
  | .groupChatMsg => some fun conn js _ => groupChat conn js
  | .msgAck => some fun conn js _ => messageAck conn js
  | .heartbeatMsg => some heartbeat
  | .loginMsgAck | .regMsgAck => none

/-- The message types that are keys of `_msgHandlerMap`. -/
def EnMsgType.registered (t : EnMsgType) : Bool := (msgHandlerMap t).isSome

/-- The handler that `onMessage` runs for a frame, by its key. -/
def handlerType? (js : Json) : Option EnMsgType := (msgType? js).filter EnMsgType.registered

/-- `onMessage` runs the handler `h` for the frame: it is what `getHandler` returns for
the `int` read from `msgid`, and handling the frame is running it. -/
def Runs (js : Json) (h : MsgHandler) : Prop :=
  ∃ msgid, (js.find? "msgid").bind Json.getInt32? = some msgid ∧ getHandler msgid = h ∧
    ∀ conn time, onMessage conn js time = h conn js time

/-- The frame is an object whose `msgid` is a JSON integer equal to the code of `t`. -/
def NamesType (js : Json) (t : EnMsgType) : Prop :=
  ∃ v, js.find? "msgid" = some (.integer v) ∧ v.value = t.code

theorem EnMsgType.code_range (t : EnMsgType) : 1 ≤ t.code ∧ t.code ≤ 12 := by
  cases t <;> decide

theorem handlerType?_eq_some {js : Json} {t : EnMsgType} :
    handlerType? js = some t ↔
      (js.find? "msgid").bind Json.getInt32? = some t.code ∧ t.registered = true := by
  simp only [handlerType?, msgType?, Option.filter_eq_some_iff, Option.bind_eq_some_iff]
  constructor
  · intro h
    rcases h with ⟨⟨n, hn, ht⟩, hregistered⟩
    rw [← EnMsgType.code_of_ofCode? ht]
    exact ⟨hn, hregistered⟩
  · intro h
    rcases h with ⟨hn, hregistered⟩
    exact ⟨⟨t.code, hn, EnMsgType.ofCode?_code t⟩, hregistered⟩

theorem onMessage_of_none {js : Json} (h : handlerType? js = none) (conn : Conn) (time : String) :
    onMessage conn js time = return () := by
  rw [onMessage_eq]
  unfold handlerType? at h
  cases ht : msgType? js with
  | none => rfl
  | some t =>
      rw [ht] at h
      cases t with
      | loginMsgAck => rfl
      | regMsgAck => rfl
      | _ => cases h

/-- A frame without a handler changes nothing and sends nothing. -/
theorem handles_of_none [JsonParser] {js : Json} (h : handlerType? js = none)
    {E : Environment} {conn : Conn} {time : String} {w w' : World}
    (hw : Cluster.Handles E w (.frame conn js time) w') : w' = w := by
  obtain ⟨w₁, hstart, hrun⟩ := hw
  have hbody : (Job.frame conn js time).body = return () := onMessage_of_none h conn time
  rw [hbody] at hrun
  exact hrun.2.trans hstart.2.2

/-! ## The handlers are told apart -/

/-- User `1` is bound and has received message `7`; users `1` and `2` form group `1`. -/
def probeWorld : World :=
  let db := Statement.registered [("ann", "pw"), ("bob", "pw")]
  let db := ((Statement.insertGroup "go" "").run db).2
  let db := ((Statement.insertGroupUser 1 1 .creator).run db).2
  let db := ((Statement.insertGroupUser 1 2 .normal).run db).2
  let db := ((Statement.insertMessage 7 2 1 0 EnMsgType.oneChatMsg.code "").run db).2
  let w := World.fresh db
  w.setNode 0 { w.node 0 with userConnMap := (w.node 0).userConnMap.insert 1 ⟨0, 0⟩ }

/-- A frame of user `1` with every field that some handler asks for. -/
def probeRequest (groupid : ℤ) : Json :=
  .object [("friendid", .int 2), ("groupdesc", .string ""), ("groupid", .int groupid),
    ("groupname", .string "chess"), ("id", .int 1), ("messageid", .int 7),
    ("msg", .string "hi"), ("name", .string "eve"), ("password", .string "pw"),
    ("toid", .int 2)]

/-- How much of each kind there is in a state: frames, bindings, rows of the tables. -/
def World.tally (w : World) : List ℕ :=
  [(w.out ⟨0, 0⟩).length, (w.bound 0 1).toList.length, w.db.user.rows.length,
    w.db.friend.rows.length, w.db.allgroup.rows.length, w.db.groupuser.rows.length,
    (w.db.user.select fun r => decide (r.state = .online)).length,
    (w.db.chatMessage.select fun r => decide (r.msgType = EnMsgType.oneChatMsg.code)).length,
    (w.db.chatMessage.select fun r => decide (r.msgType = EnMsgType.groupChatMsg.code)).length,
    (w.db.chatMessage.select fun r => decide (r.status = MessageStatus.acked)).length]

/-- What a handler leaves behind when it gets the request, for a group of user `1` and
for another one. -/
def MsgHandler.probe (h : MsgHandler) : List (Option (List ℕ)) :=
  [1, 2].map fun groupid =>
    let js := probeRequest groupid
    ((h ⟨0, 0⟩ js "now").eval? (Cluster.perform? {} (.frame ⟨0, 0⟩ js "now")) probeWorld).map
      fun r => r.2.tally

/-- No two handlers leave the same behind, and each leaves something. -/
theorem probe_injective : ∀ t ∈ EnMsgType.all, ∀ t' ∈ EnMsgType.all, t.registered = true →
    MsgHandler.probe (getHandler t.code) = MsgHandler.probe (getHandler t'.code) → t = t' := by
  decide +kernel

theorem getHandler_of_some {t : EnMsgType} {h : MsgHandler} (ht : msgHandlerMap t = some h) :
    getHandler t.code = h := by
  cases t with
  | loginMsgAck => cases ht
  | regMsgAck => cases ht
  | _ => exact Option.some.inj ht

/-- A key for which `getHandler` returns a registered handler is the key of that handler. -/
theorem code_of_getHandler {msgid : ℤ} {t : EnMsgType} {h : MsgHandler}
    (ht : msgHandlerMap t = some h) (hmsgid : getHandler msgid = h) : msgid = t.code := by
  have hregistered : t.registered = true := by rw [EnMsgType.registered, ht]; rfl
  have hmem : ∀ u : EnMsgType, u ∈ EnMsgType.all := by
    intro u
    cases u <;> decide
  have hcode : ∀ u : EnMsgType, getHandler msgid = getHandler u.code → t = u := by
    intro u hu
    refine probe_injective t (hmem t) u (hmem u) hregistered ?_
    rw [getHandler_of_some ht, ← hmsgid, hu]
  cases hof : EnMsgType.ofCode? msgid with
  | some u =>
      have hu := EnMsgType.code_of_ofCode? hof
      rw [hu, hcode u (by rw [hu])]
  | none =>
      -- the default handler is also what the codes of the answers are given
      have hdefault : getHandler msgid = getHandler EnMsgType.regMsgAck.code := by
        unfold getHandler
        rw [hof, EnMsgType.ofCode?_code]
      obtain rfl := hcode .regMsgAck hdefault
      cases ht

/-- The handler of the frame that is run is the one under the type of the frame. -/
theorem runs_iff {js : Json} {t : EnMsgType} {h : MsgHandler} (ht : msgHandlerMap t = some h) :
    Runs js h ↔ handlerType? js = some t := by
  have hregistered : t.registered = true := by rw [EnMsgType.registered, ht]; rfl
  rw [handlerType?_eq_some, and_iff_left hregistered]
  constructor
  · intro hruns
    obtain ⟨msgid, hread, hget, -⟩ := hruns
    rw [hread, code_of_getHandler ht hget]
  · intro hread
    refine ⟨t.code, hread, getHandler_of_some ht, fun conn time => ?_⟩
    unfold onMessage
    rw [hread, ← getHandler_of_some ht]

/-- The frame runs no business handler but the one that its field names, and without
such a name it changes nothing. -/
def DispatchExact [JsonParser] (js : Json) : Prop :=
  (∀ t h, msgHandlerMap t = some h → Runs js h → NamesType js t) ∧
  ((∀ t, t.registered = true → ¬ NamesType js t) →
    ∀ E conn time w w', Cluster.Handles E w (.frame conn js time) w' → w' = w)

/-- The field is converted to the key of a handler that it does not name: an integer
beyond `int` by wrapping, a float by truncation, `true` as `1`. -/
def Misdispatched (js : Json) : Prop :=
  match js.find? "msgid" with
  | some (.integer v) =>
      (v.value < INT_MIN ∨ INT_MAX < v.value) ∧
        ∃ t : EnMsgType, t.registered = true ∧ v.value.bmod (2 ^ 32) = t.code
  | some (.float x) => ∃ t : EnMsgType, t.registered = true ∧ x.toInt32 = t.code
  | some (.boolean b) => b = true
  | _ => False

theorem bmod_eq_of_intRange {n : ℤ} (hl : INT_MIN ≤ n) (hu : n ≤ INT_MAX) :
    n.bmod (2 ^ 32) = n := by
  unfold INT_MIN at hl
  unfold INT_MAX at hu
  exact Int.bmod_eq_of_le (m := 2 ^ 32) (by omega) (by omega)

/-- The handler of a frame is not one that the frame names. -/
theorem misdispatched_iff {js : Json} :
    Misdispatched js ↔ ∃ t, handlerType? js = some t ∧ ¬ NamesType js t := by
  simp only [handlerType?_eq_some, NamesType]
  unfold Misdispatched
  cases js.find? "msgid" with
  | none => simp
  | some value =>
      cases value with
      | integer v =>
          have hget : (some (Json.integer v)).bind Json.getInt32? =
              some (v.value.bmod (2 ^ 32)) := rfl
          simp only [hget, Option.some.injEq, Json.integer.injEq, exists_eq_left']
          constructor
          · intro h
            rcases h with ⟨hrange, t, hregistered, ht⟩
            refine ⟨t, ⟨ht, hregistered⟩, fun hv => ?_⟩
            have hcode := t.code_range
            unfold INT_MIN INT_MAX at hrange
            omega
          · intro h
            rcases h with ⟨t, ⟨ht, hregistered⟩, hne⟩
            refine ⟨?_, t, hregistered, ht⟩
            by_contra hin
            rw [bmod_eq_of_intRange (by omega) (by omega)] at ht
            exact hne ht
      | float x =>
          have hget : (some (Json.float x)).bind Json.getInt32? = some x.toInt32 := rfl
          simp only [hget, Option.some.injEq, reduceCtorEq, false_and, exists_false,
            not_false_eq_true, and_true]
          exact exists_congr fun t => and_comm
      | boolean b =>
          have hget : (some (Json.boolean b)).bind Json.getInt32? = some (b.toNat : ℤ) := rfl
          simp only [hget, Option.some.injEq, reduceCtorEq, false_and, exists_false,
            not_false_eq_true, and_true]
          cases b with
          | false =>
              constructor
              · intro h
                cases h
              · intro h
                rcases h with ⟨t, ht, -⟩
                have hcode := t.code_range
                have hzero : (0 : ℤ) = t.code := ht
                omega
          | true => exact ⟨fun _ => ⟨.loginMsg, rfl, rfl⟩, fun _ => rfl⟩
      | _ => simp [Json.getInt32?]

/-- A frame reaches the handler that it names and no other, and no handler if it names
none, unless its `msgid` is converted to another key. -/
theorem dispatch_exact_iff [JsonParser] (js : Json) : DispatchExact js ↔ ¬ Misdispatched js := by
  rw [misdispatched_iff]
  constructor
  · rintro ⟨hexact, -⟩ ⟨t, ht, hne⟩
    have hregistered := (handlerType?_eq_some.mp ht).2
    obtain ⟨h, hh⟩ := Option.isSome_iff_exists.mp hregistered
    exact hne (hexact t h hh ((runs_iff hh).mpr ht))
  · intro h
    have hexact : ∀ t, handlerType? js = some t → NamesType js t := by
      intro t ht
      by_contra hne
      exact h ⟨t, ht, hne⟩
    refine ⟨fun t k hk hruns => hexact t ((runs_iff hk).mp hruns),
      fun hnone E conn time w w' hw => handles_of_none ?_ hw⟩
    cases ht : handlerType? js with
    | none => rfl
    | some t => exact absurd (hexact t ht) (hnone t (handlerType?_eq_some.mp ht).2)

/-- A login request whose `msgid` is `2 ^ 32 + 1`. -/
def wrappedLogin : Json :=
  .object [("id", .int 1), ("msgid", .integer ⟨2 ^ 32 + 1, by decide, by decide⟩),
    ("password", .string "pw")]

/-- It names no handler, and it logs the user in. -/
theorem wrapped_login_dispatched :
    letI := Cluster.rejectAll; ¬ DispatchExact wrappedLogin := by
  let _ := Cluster.rejectAll
  intro h
  rcases h with ⟨-, hnothing⟩
  obtain ⟨w₁, w₂, -, hw, hbound⟩ := Cluster.exists_run_handles
    (E := Environment.calm) (w := World.fresh (Statement.registered [("ann", "pw")])) [] {}
    (.frame ⟨0, 0⟩ wrappedLogin "now")
    (p := fun w w' => w.bound 0 1 = none && w'.bound 0 1 = some ⟨0, 0⟩) (by decide +kernel)
  have hnames : ∀ t, t.registered = true → ¬ NamesType wrappedLogin t := by
    rintro t - ⟨v, hv, hcode⟩
    have hfield : wrappedLogin.find? "msgid" =
        some (.integer ⟨2 ^ 32 + 1, by decide, by decide⟩) := rfl
    rw [hfield] at hv
    obtain rfl := Json.integer.inj (Option.some.inj hv)
    have hvalue : (2 ^ 32 + 1 : ℤ) = t.code := hcode
    have hrange := t.code_range
    omega
  obtain rfl := hnothing hnames _ _ _ _ _ hw
  simp only [Bool.and_eq_true, decide_eq_true_eq] at hbound
  rw [hbound.1] at hbound
  exact absurd hbound.2 (by simp)

end ChatCluster
