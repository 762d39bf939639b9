import ChatCluster.MessageIds
import ChatCluster.Confidentiality
import Mathlib.Data.List.Sort

/-!
# The order of offline messages

A login lists the stored messages by their ids, and an id holds the time, the process and
the low ten bits of a counter. So messages of one process come in the order in which they
were sent as long as the counter does not pass a multiple of `1024` within a millisecond.
-/
namespace ChatCluster
open CommandProgram Interleaving

/-- A stored message: the call that gave its id, and its text. -/
structure Issued where
  call : IdCall
  payload : String
deriving DecidableEq, Repr

/-- What an insert under the id of `call` adds to the stored messages. -/
def Issued.ofInsert (call : Option IdCall) (payload : String) (stored : Bool) : List Issued :=
  if stored then (call.map fun k => ⟨k, payload⟩).toList else []

/-- The messages that have been stored for user `u`, oldest first. -/
def issuedFor (u : ℤ) : List ClusterEntry → List Issued
  | [] => []
  | .did j (.sql (.insertMessage _ _ receiverid _ _ payload)) stored :: past =>
      issuedFor u past ++
        if receiverid = u then Issued.ofInsert (idMemory j.agent past).call payload stored else []
  | _ :: past => issuedFor u past

theorem Issued.mem_ofInsert {p : Issued} {call : Option IdCall} {payload : String} {stored : Bool}
    (h : p ∈ Issued.ofInsert call payload stored) :
    stored = true ∧ call = some p.call ∧ p.payload = payload := by
  unfold ofInsert at h
  split_ifs at h with hstored
  · obtain ⟨k, hk, rfl⟩ := Option.map_eq_some_iff.mp (Option.mem_toList.mp h)
    exact ⟨hstored, hk, rfl⟩
  · exact absurd h List.not_mem_nil

/-- Messages issued within one millisecond have increasing low bits of the counter. -/
def CounterGrows (issued : List Issued) : Prop :=
  issued.Pairwise fun a b => a.call.now = b.call.now → a.call.seq % 2 ^ 10 < b.call.seq % 2 ^ 10

theorem mem_issuedFor {u : ℤ} {past : List ClusterEntry} {p : Issued} (h : p ∈ issuedFor u past) :
    ∃ newer j messageid senderid groupid msgtype older,
      past = newer ++ .did j (.sql (.insertMessage messageid senderid u groupid msgtype
        p.payload)) true :: older ∧ (idMemory j.agent older).call = some p.call := by
  induction past with
  | nil => exact absurd h List.not_mem_nil
  | cons e past ih =>
      have hearlier : p ∈ issuedFor u past → ∃ newer j messageid senderid groupid msgtype older,
          e :: past = newer ++ .did j (.sql (.insertMessage messageid senderid u groupid msgtype
            p.payload)) true :: older ∧ (idMemory j.agent older).call = some p.call := by
        intro hp
        obtain ⟨newer, j, messageid, senderid, groupid, msgtype, older, hpast, hcall⟩ := ih hp
        exact ⟨e :: newer, j, messageid, senderid, groupid, msgtype, older,
          by rw [hpast, List.cons_append], hcall⟩
      cases e with
      | did j c stored =>
          cases c with
          | sql q =>
              cases q with
              | insertMessage messageid senderid receiverid groupid msgtype payload =>
                  obtain hold | hnew := List.mem_append.mp h
                  · exact hearlier hold
                  · split_ifs at hnew with hu
                    · subst hu
                      obtain ⟨hstored, hcall, rfl⟩ := Issued.mem_ofInsert hnew
                      obtain rfl : stored = true := hstored
                      exact ⟨[], j, messageid, senderid, groupid, msgtype, past, rfl, hcall⟩
                    · exact absurd hnew List.not_mem_nil
              | _ => exact hearlier h
          | _ => exact hearlier h
      | _ => exact hearlier h

/-! ## One process has one id -/

theorem NodeOp.pid_exec {o : Choice} {a : Agent} {s s' : NodeState} {q : NodeOp} {r : q.Answer}
    (h : q.exec o a s = some (r, s')) : s'.pid = s.pid := by
  cases q with
  | mapEraseConn conn =>
      obtain ⟨u, -, -, rfl⟩ | ⟨-, -, rfl⟩ := exec_mapEraseConn h <;> rfl
  | mapIsBound | lockConnMutex | mapBind | mapErase | redisSubscribe | redisUnsubscribe =>
      simp only [exec] at h
      split_ifs at h
      all_goals cases h; rfl
  | _ => cases h; rfl

theorem pid_setNode {w : World} {n : ℕ} {s : NodeState} (h : s.pid = (w.node n).pid) (m : ℕ) :
    ((w.setNode n s).node m).pid = (w.node m).pid := by
  rw [World.node_setNode]
  split_ifs with hm
  · rw [hm, h]
  · rfl

theorem pid_exec {o : Choice} {a : Agent} {c : Command} {w w' : World} {r : Response c}
    (h : exec o a c w = some (r, w')) (n : ℕ) : (w'.node n).pid = (w.node n).pid := by
  cases c with
  | sql q => rw [(exec_sql h).2]
  | node q =>
      obtain ⟨s', hs, rfl⟩ := exec_node h
      exact pid_setNode (NodeOp.pid_exec hs) n
  | redisPublish channel message =>
      rw [exec_redisPublish h]
      split_ifs
      · unfold World.publish
        dsimp only
        split_ifs <;> rfl
      · rfl
  | sendTo conn frame => rw [exec_sendTo h]; rfl

theorem pid_disturbance {w w' : World} (h : Disturbance w w') (n : ℕ) :
    (w'.node n).pid = (w.node n).pid := by
  cases h with
  | tick => rfl
  | redisDown | messageLost | crash => exact pid_setNode (by rfl) n

/-- What an agent remembers of its process id is that of its node. -/
structure RemembersPid (pid : ℕ) (m : IdMemory) : Prop where
  read : ∀ p, m.pid = some p → p = pid
  call : ∀ k, m.call = some k → k.pid = pid

theorem remembersPid_first (pid : ℕ) : RemembersPid pid {} := by
  constructor
  · intro p h
    cases h
  · intro k h
    cases h

theorem RemembersPid.next {pid : ℕ} {m : IdMemory} (hm : RemembersPid pid m) {o : Choice}
    {a : Agent} {c : Command} {w w' : World} {r : Response c} (h : exec o a c w = some (r, w'))
    (hpid : (w.node a.node).pid = pid) : RemembersPid pid (m.next c r) := by
  cases c with
  | sql q =>
      cases q with
      | insertMessage => exact ⟨hm.read, fun k hk => by cases hk⟩
      | _ => exact hm
  | node q =>
      cases q with
      | getpid =>
          obtain ⟨s', hs, -⟩ := exec_node h
          cases hs
          refine ⟨fun p hp => ?_, hm.call⟩
          rw [← hpid]
          exact (Option.some.inj hp).symm
      | fetchAddSeq =>
          refine ⟨hm.read, fun k hk => ?_⟩
          obtain ⟨now, -, hk⟩ := Option.bind_eq_some_iff.mp hk
          obtain ⟨p, hp, rfl⟩ := Option.map_eq_some_iff.mp hk
          exact hm.read p hp
      | clockNow => exact ⟨hm.read, hm.call⟩
      | _ => exact hm
  | _ => exact hm

theorem mem_handedOver_of_unacked {db : Database} {u : ℤ} {r : MessageRow}
    (hlimit : (db.chatMessage.select fun r => r.Unacked u).length ≤ 1000)
    (hr : r ∈ db.chatMessage.rows) (hunacked : r.Unacked u) (htext : cStr r.payload ≠ "") :
    r ∈ db.handedOver u := by
  rw [Database.handedOver, List.take_of_length_le hlimit]
  apply List.mem_filter.mpr
  refine ⟨?_, by simpa using htext⟩
  rw [KeyedTable.Table.mem_select]
  exact ⟨hr, decide_eq_true hunacked⟩

section Runs
variable [JsonParser] {w : World} {es : List ClusterEntry} {x : ClusterConfig} {u : ℤ} {n : ℕ}

theorem pid_moves {v v' : ClusterView} {e : ClusterEntry} (hm : Moves hostileCluster v e v')
    (n : ℕ) : (v'.state.node n).pid = (v.state.node n).pid := by
  cases e with
  | started j =>
      have hstart : j.Starts v.state v'.state := hm.effect
      cases j with
      | frame => rw [hstart.2.2]
      | close => rw [hstart.2.2]
      | redisMessage m =>
          obtain ⟨-, _, -, hw⟩ := hstart
          rw [hw]
          exact pid_setNode (by rfl) n
      | sigint => rw [hstart.2]
  | did j c r =>
      obtain ⟨-, o, -, ho⟩ := hm.effect
      exact pid_exec ho n
  | aborted j =>
      rw [show v'.state = v.state.release j.agent from hm.effect, World.release]
      split_ifs
      · exact pid_setNode (by rfl) n
      · rfl
  | disturbed => exact pid_disturbance hm.effect.2 n

theorem pidsKept (h : Steps hostileCluster (Config.initial w) es x) :
    (∀ n, (x.view.state.node n).pid = (w.node n).pid) ∧
      ∀ a, RemembersPid (w.node a.node).pid (idMemory a x.view.past) := by
  induction h with
  | done => exact ⟨fun _ => rfl, fun _ => remembersPid_first _⟩
  | @step x y e es hrun hs ih =>
      obtain ⟨hnode, hmem⟩ := ih
      refine ⟨fun n => (pid_moves hs.moves n).trans (hnode n), fun a => ?_⟩
      rw [hs.moves.recorded]
      cases e with
      | started j | aborted j =>
          rw [idMemory, memory]
          split_ifs
          · exact remembersPid_first _
          · exact hmem a
      | disturbed => exact hmem a
      | did j c r =>
          rw [idMemory_did]
          split_ifs with ha
          · subst ha
            obtain ⟨-, o, -, ho⟩ := hs.moves.effect
            exact (hmem j.agent).next ho (hnode j.agent.node)
          · exact hmem a

/-- An issued message has its row, which stays unacknowledged as long as the user
acknowledges nothing. -/
theorem row_of_issued (h : Steps hostileCluster (Config.initial w) es x)
    (hack : ∀ j messageid ok, .did j (.sql (.ackMessage messageid u)) ok ∉ x.view.past)
    {p : Issued} (hp : p ∈ issuedFor u x.view.past) :
    ∃ r ∈ x.view.state.db.chatMessage.rows, r.Unacked u ∧ r.messageId = p.call.id ∧
      cStr r.payload = p.payload ∧ p.payload ≠ "" := by
  obtain ⟨newer, j, messageid, senderid, groupid, msgtype, older, hpast, hcall⟩ := mem_issuedFor hp
  obtain ⟨k, hk, rfl⟩ := inserted_under_own_id h hpast
  obtain rfl := Option.some.inj (hk.symm.trans hcall)
  have hmem : .did j (.sql (.insertMessage p.call.id senderid u groupid msgtype p.payload)) true ∈
      x.view.past := by
    rw [hpast]
    simp
  obtain ⟨js, hpayload⟩ : ∃ js : Json, p.payload = js.dump := by
    have hstores : j.Stores p.call.id u p.payload := (h.did_all storesAccepted_body).1 _ _ _ hmem
    cases j with
    | frame conn js time => exact ⟨_, hstores.2.2⟩
    | _ => exact hstores.elim
  obtain ⟨_, _, z, z', -, -, hs, hafter, rfl⟩ := h.at_entry hpast
  obtain ⟨-, o, -, ho⟩ := hs.moves.effect
  obtain ⟨r, hr, hpersists, hst⟩ := persists_of_steps hafter (newMessage_exec ho)
  refine ⟨r, hr, ⟨hpersists.receiverId, hst ?_ ?_⟩, hpersists.messageId, ?_, ?_⟩
  · exact (by decide : MessageStatus.created < MessageStatus.acked)
  · intro e he hacks
    cases e with
    | did i c ok =>
        obtain rfl : c = .sql (.ackMessage p.call.id u) := hacks
        apply hack i p.call.id ok
        rw [hpast]
        exact List.mem_append_left _ (List.mem_reverse.mp he)
    | _ => exact hacks.elim
  · rw [hpersists.payload]
    change cStr p.payload = p.payload
    rw [hpayload, cStr_dump]
  · rw [hpayload]
    exact js.dump_ne_empty

/-- What is assumed of the messages for user `u`: they have been stored on one node,
where the clock does not run backwards, and the user has acknowledged none. -/
structure SentInTurn (u : ℤ) (n : ℕ) (past : List ClusterEntry) : Prop where
  node : ∀ j messageid senderid groupid msgtype payload, .did j (.sql (.insertMessage messageid
    senderid u groupid msgtype payload)) true ∈ past → j.agent.node = n
  clock : (issuedFor u past).Pairwise fun a b => a.call.now ≤ b.call.now
  range : ∀ p ∈ issuedFor u past, p.call.now < 2 ^ 43
  unacked : ∀ j messageid ok, .did j (.sql (.ackMessage messageid u)) ok ∉ past

theorem pid_of_issued (h : Steps hostileCluster (Config.initial w) es x)
    (hsent : SentInTurn u n x.view.past) {p : Issued} (hp : p ∈ issuedFor u x.view.past) :
    p.call.pid = (w.node n).pid := by
  obtain ⟨newer, j, messageid, senderid, groupid, msgtype, older, hpast, hcall⟩ := mem_issuedFor hp
  have hnode : j.agent.node = n := by
    apply hsent.node j messageid senderid groupid msgtype p.payload
    rw [hpast]
    simp
  obtain ⟨_, _, z, z', hz, rfl, -, -, -⟩ := h.at_entry hpast
  rw [((pidsKept hz).2 j.agent).call p.call hcall, hnode]

/-- The ids increase exactly when the counter grows within each millisecond. -/
theorem ids_increasing_iff (h : Steps hostileCluster (Config.initial w) es x)
    (hsent : SentInTurn u n x.view.past) :
    ((issuedFor u x.view.past).Pairwise fun a b => a.call.id < b.call.id) ↔
      CounterGrows (issuedFor u x.view.past) := by
  have hlt : (issuedFor u x.view.past).Pairwise fun a b => a.call.id < b.call.id ↔
      (a.call.now = b.call.now → a.call.seq % 2 ^ 10 < b.call.seq % 2 ^ 10) := by
    refine hsent.clock.imp_of_mem fun ha hb hclock => ?_
    have hpid := (pid_of_issued h hsent ha).trans (pid_of_issued h hsent hb).symm
    exact IdCall.id_lt_iff (hsent.range _ ha) (hsent.range _ hb) hpid hclock
  constructor
  · intro hids
    exact hlt.imp₂ (fun _ _ hiff hid => hiff.mp hid) hids
  · intro hgrows
    exact hlt.imp₂ (fun _ _ hiff hseq => hiff.mpr hseq) hgrows

/-! ## What the next login lists -/

/-- Rows whose texts read back are known by their texts. -/
theorem eq_of_map_cStr {db : Database} (hread : db.ReadsBack) {rs rs' : List MessageRow}
    (hrs : ∀ r ∈ rs, r ∈ db.chatMessage.rows) (hrs' : ∀ r ∈ rs', r ∈ db.chatMessage.rows)
    (h : rs.map (fun r => cStr r.payload) = rs'.map fun r => cStr r.payload) : rs = rs' := by
  induction rs generalizing rs' with
  | nil => exact (List.map_eq_nil_iff.mp h.symm).symm
  | cons r rs ih =>
      cases rs' with
      | nil => cases h
      | cons r' rs' =>
          obtain ⟨hhead, htail⟩ := List.cons.inj h
          simp only [List.mem_cons, forall_eq_or_imp] at hrs hrs'
          rw [hread.eq hrs.1 hrs'.1 hhead, ih hrs.2 hrs'.2 htail]

/-- The answer lists these texts as `offlinemsg`. -/
def ListsTexts (response : Json) (texts : List String) : Prop :=
  response.find? "offlinemsg" = if texts = [] then none else some (Json.strings texts)

/-- The stored texts of the issued messages are listed in the order of issue exactly when
the ids increase. -/
theorem texts_sublist_iff (h : Steps hostileCluster (Config.initial w) es x)
    (hsent : SentInTurn u n x.view.past) (hread : x.view.state.db.ReadsBack)
    (hlimit : (x.view.state.db.chatMessage.select fun r => r.Unacked u).length ≤ 1000) :
    ((issuedFor u x.view.past).map Issued.payload).Sublist
        ((x.view.state.db.handedOver u).map fun r => cStr r.payload) ↔
      (issuedFor u x.view.past).Pairwise fun a b => a.call.id < b.call.id := by
  have : Nonempty MessageRow := ⟨Statement.newMessage 0 0 0 0 0 ""⟩
  choose! row hrow hunacked hid htext hne using fun p (hp : p ∈ issuedFor u x.view.past) =>
    row_of_issued h hsent.unacked hp
  have hpayloads : (issuedFor u x.view.past).map Issued.payload =
      ((issuedFor u x.view.past).map row).map fun r => cStr r.payload := by
    rw [List.map_map]
    exact List.map_congr_left fun p hp => (htext p hp).symm
  have hids : ((issuedFor u x.view.past).map row).Pairwise (fun a b => a.messageId < b.messageId) ↔
      (issuedFor u x.view.past).Pairwise fun a b => a.call.id < b.call.id := by
    rw [List.pairwise_map]
    apply List.Pairwise.iff_of_mem
    intro a b ha hb
    rw [hid a ha, hid b hb]
  have hsorted := x.view.state.db.handedOver_sorted u
  rw [hpayloads, ← hids]
  constructor
  · intro hsub
    obtain ⟨rows, hrows, hsame⟩ := List.sublist_map_iff.mp hsub
    -- a text that reads back belongs to one row
    have heq : (issuedFor u x.view.past).map row = rows := by
      refine eq_of_map_cStr hread (fun r hr => ?_) (fun r hr => ?_) hsame
      · obtain ⟨p, hp, rfl⟩ := List.mem_map.mp hr
        exact hrow p hp
      · exact (Database.mem_handedOver (hrows.subset hr)).1
    rw [heq]
    exact hsorted.sublist hrows
  · intro hpairwise
    apply List.Sublist.map
    have hsubset : (issuedFor u x.view.past).map row ⊆ x.view.state.db.handedOver u := by
      intro r hr
      obtain ⟨p, hp, rfl⟩ := List.mem_map.mp hr
      apply mem_handedOver_of_unacked hlimit (hrow p hp) (hunacked p hp)
      rw [htext p hp]
      exact hne p hp
    have hnodup : ((issuedFor u x.view.past).map row).Nodup :=
      hpairwise.imp fun hlt heq => by
        rw [heq] at hlt
        exact lt_irrefl _ hlt
    have : Std.Antisymm fun a b : MessageRow => a.messageId < b.messageId :=
      ⟨fun a b hab hba => absurd hba (lt_asymm hab)⟩
    exact List.sublist_of_subperm_of_pairwise (List.subperm_of_subset hnodup hsubset) hpairwise
      hsorted

/-- The messages that a node has stored for user `u` are listed by the next login in the
order in which they were sent exactly when their ids increase, and they do exactly when
the counter grows within each millisecond. -/
theorem offline_order_iff (h : Steps hostileCluster (Config.initial w) es x)
    (hsent : SentInTurn u n x.view.past) (hread : x.view.state.db.ReadsBack)
    (hlimit : (x.view.state.db.chatMessage.select fun r => r.Unacked u).length ≤ 1000)
    {conn : Conn} {js response : Json} {time : String} {w' : World}
    (hmsg : msgType? js = some .loginMsg) (hid : getInt js "id" = some u)
    (hlogin : Cluster.Handles .calm x.view.state (.frame conn js time) w')
    (hout : w'.out conn = x.view.state.out conn ++ [.json response])
    (hok : confirmedUser? (.json response) = some u) :
    ∃ texts, ListsTexts response (texts ++ (x.view.state.db.selectOffline u).map cStr) ∧
      (((issuedFor u x.view.past).map Issued.payload).Sublist texts ↔
        CounterGrows (issuedFor u x.view.past)) ∧
      (((issuedFor u x.view.past).Pairwise fun a b => a.call.id < b.call.id) ↔
        CounterGrows (issuedFor u x.view.past)) := by
  obtain ⟨hover, -⟩ := handsOver_of_handles hmsg hid hlogin hout hok
  have hiff := ids_increasing_iff h hsent
  exact ⟨_, hover.synchronised.offlinemsg, (texts_sublist_iff h hsent hread hlimit).trans hiff, hiff⟩

end Runs
/-! ## Two messages in one millisecond -/

def firstRequest : Json := Client.chatRequest 1 "ann" 2 "one" "now"

def secondRequest : Json := Client.chatRequest 1 "ann" 2 "two" "now"

def firstFrame (messageid : ℤ) : Json := chatFrame firstRequest messageid 2

def secondFrame (messageid : ℤ) : Json := chatFrame secondRequest messageid 2

/-- The counter of node `0` is at `seq`. -/
def countingWorld (seq : ℕ) : World :=
  chatWorld.setNode 0 { NodeState.fresh 0 with seq := seq }

/-- User `1` logs in and sends two messages to user `2`, who is offline. -/
def twoChatCues : List (Cue Job Agent Choice) :=
  chatCues firstRequest ++
  .start (.frame ⟨0, 0⟩ secondRequest "") :: List.replicate 9 (.act (.io ⟨0, 0⟩) { clockMs := 1 })

/-- Messages are stored on node `n` only, and none is acknowledged. -/
def onlyStores (n : ℕ) (past : List ClusterEntry) : Bool :=
  past.all fun
    | .did j (.sql (.insertMessage _ _ _ _ _ _)) _ => j.agent.node == n
    | .did _ (.sql (.ackMessage _ _)) _ => false
    | _ => true

theorem sentInTurn_of_onlyStores {u : ℤ} {n : ℕ} {past : List ClusterEntry}
    (h : onlyStores n past = true)
    (hclock : (issuedFor u past).Pairwise fun a b => a.call.now ≤ b.call.now)
    (hrange : ∀ p ∈ issuedFor u past, p.call.now < 2 ^ 43) : SentInTurn u n past where
  node _ _ _ _ _ _ hmem := beq_iff_eq.mp (List.all_eq_true.mp h _ hmem)
  clock := hclock
  range := hrange
  unacked _ _ _ hmem := by
    have := List.all_eq_true.mp h _ hmem
    cases this

instance [JsonParser] (db : Database) : Decidable db.ReadsBack :=
  inferInstanceAs (Decidable (∀ r ∈ db.chatMessage.rows, (_ : Option ℤ) = _))

/-- After these messages user `2` logs in and gets these texts. -/
structure LogsInAfter [JsonParser] (seq : ℕ) (issued : List Issued) (texts : List String)
    (es : List ClusterEntry) (x : ClusterConfig) (w' : World) (response : Json) : Prop where
  run : Steps hostileCluster (Config.initial (countingWorld seq)) es x
  sent : SentInTurn 2 0 x.view.past
  readsBack : x.view.state.db.ReadsBack
  limit : (x.view.state.db.chatMessage.select fun r => r.Unacked 2).length ≤ 1000
  login : Cluster.Handles .calm x.view.state
    (.frame ⟨0, 1⟩ (Client.loginRequest 2 "pw") "") w'
  out : w'.out ⟨0, 1⟩ = x.view.state.out ⟨0, 1⟩ ++ [.json response]
  confirmed : confirmedUser? (.json response) = some 2
  issued : issuedFor 2 x.view.past = issued
  texts : ListsTexts response texts

theorem exists_logsInAfter [JsonParser] (seq : ℕ) {issued : List Issued} {texts : List String}
    (hclock : issued.Pairwise fun a b => a.call.now ≤ b.call.now)
    (hrange : ∀ p ∈ issued, p.call.now < 2 ^ 43)
    (h : ((hostileReplayer.replay? (Config.initial (countingWorld seq)) twoChatCues).any fun x =>
      decide (issuedFor 2 x.view.past = issued ∧ onlyStores 0 x.view.past = true ∧
        x.view.state.db.ReadsBack ∧
        (x.view.state.db.chatMessage.select fun r => r.Unacked 2).length ≤ 1000 ∧
        ((x.view.state.node 0).running = true ∧ (x.view.state.node 0).connMutex = none) ∧
        (⟨0, 1⟩ : Conn) ∉ x.view.state.closed ∧
        loginPasses 2 (Client.loginRequest 2 "pw") (x.view.state.db.selectUser 2) = true ∧
        x.view.state.db.handedOverTexts 2 = texts)) = true) :
    ∃ es x w' response, LogsInAfter seq issued texts es x w' response := by
  obtain ⟨es, x, hrun, hx⟩ := hostileReplayer.exists_steps twoChatCues h
  obtain ⟨hissued, hstores, hread, hlimit, hnode, hopen, hpass, htexts⟩ := of_decide_eq_true hx
  obtain ⟨w', response, hlogin, hout, hok, hover, -⟩ :=
    exists_handles_login (x := ⟨0, 1⟩) (t := "") (by decide) (by decide) hnode hopen hpass
  subst hissued htexts
  exact ⟨es, x, w', response, hrun, sentInTurn_of_onlyStores hstores hclock hrange, hread, hlimit,
    hlogin, hout, hok, rfl, hover.synchronised.offlinemsg⟩

/-- Two messages of one millisecond, with the counter at its start. -/
theorem offline_order_two : letI := parserOf [firstFrame (2 ^ 20), secondFrame (2 ^ 20 + 1)]
    ∃ es x w' response,
      LogsInAfter 0 [⟨⟨1, 0, 0⟩, (firstFrame (2 ^ 20)).dump⟩,
          ⟨⟨1, 0, 1⟩, (secondFrame (2 ^ 20 + 1)).dump⟩]
        [(firstFrame (2 ^ 20)).dump, (secondFrame (2 ^ 20 + 1)).dump] es x w' response ∧
      ∃ texts, ListsTexts response (texts ++ (x.view.state.db.selectOffline 2).map cStr) ∧
        ((issuedFor 2 x.view.past).map Issued.payload).Sublist texts := by
  let _ := parserOf [firstFrame (2 ^ 20), secondFrame (2 ^ 20 + 1)]
  obtain ⟨es, x, w', response, h⟩ : ∃ es x w' response,
      LogsInAfter 0 [⟨⟨1, 0, 0⟩, (firstFrame (2 ^ 20)).dump⟩,
          ⟨⟨1, 0, 1⟩, (secondFrame (2 ^ 20 + 1)).dump⟩]
        [(firstFrame (2 ^ 20)).dump, (secondFrame (2 ^ 20 + 1)).dump] es x w' response :=
    exists_logsInAfter 0 (by simp) (by simp) (by decide +kernel)
  obtain ⟨texts, htexts, hiff, -⟩ := offline_order_iff h.run h.sent h.readsBack h.limit (by decide)
    (by decide) h.login h.out h.confirmed
  refine ⟨es, x, w', response, h, texts, htexts, hiff.mpr ?_⟩
  rw [h.issued]
  simp [CounterGrows]

/-- The counter passes a multiple of `1024` between two messages of one millisecond, and
the second message is listed before the first. -/
theorem offline_order_reversed : letI := parserOf [firstFrame (2 ^ 20 + 1023), secondFrame (2 ^ 20)]
    ∃ es x w' response,
      LogsInAfter 1023 [⟨⟨1, 0, 1023⟩, (firstFrame (2 ^ 20 + 1023)).dump⟩,
          ⟨⟨1, 0, 1024⟩, (secondFrame (2 ^ 20)).dump⟩]
        [(secondFrame (2 ^ 20)).dump, (firstFrame (2 ^ 20 + 1023)).dump] es x w' response ∧
      ¬ ((issuedFor 2 x.view.past).map Issued.payload).Sublist
        [(secondFrame (2 ^ 20)).dump, (firstFrame (2 ^ 20 + 1023)).dump] ∧
      ¬ (issuedFor 2 x.view.past).Pairwise fun a b => a.call.id < b.call.id := by
  let _ := parserOf [firstFrame (2 ^ 20 + 1023), secondFrame (2 ^ 20)]
  obtain ⟨es, x, w', response, h⟩ : ∃ es x w' response,
      LogsInAfter 1023 [⟨⟨1, 0, 1023⟩, (firstFrame (2 ^ 20 + 1023)).dump⟩,
          ⟨⟨1, 0, 1024⟩, (secondFrame (2 ^ 20)).dump⟩]
        [(secondFrame (2 ^ 20)).dump, (firstFrame (2 ^ 20 + 1023)).dump] es x w' response :=
    exists_logsInAfter 1023 (by simp) (by simp) (by decide +kernel)
  refine ⟨es, x, w', response, h, ?_, ?_⟩
  · rw [h.issued]
    decide +kernel
  · rw [h.issued]
    decide +kernel

end ChatCluster
