import ChatCluster.Confidentiality

/-!
# Messages on their way

A message that has been stored is handed to a connection or published by the job that
stored it, and a published one is handed over by whoever takes it out of an inbox. What a
job has done of this is its memory: the message it still carries, the lock it holds, the
connection it has found under the lock, and the mark that it owes for a frame.
-/
namespace ChatCluster
open CommandProgram Interleaving

/-- The message that a job has stored and not passed on yet, the lock and what a lookup
under it has returned, and the row to be marked for the frame handed over. -/
structure Custody where
  stored : Option (ℤ × ℤ × String) := none
  locked : Bool := false
  looked : Option (ℤ × Option Conn) := none
  sent : Bool := false
  due : Option (ℤ × ℤ) := none

/-- Nothing is held and nothing owed. -/
structure Custody.Free (m : Custody) : Prop where
  unlocked : m.locked = false
  settled : m.due = none

/-- The message after an insert, which may have been refused. -/
def storedBy (messageid receiverid : ℤ) (payload : String) (ok : Bool) :
    Option (ℤ × ℤ × String) :=
  if ok then some (messageid, receiverid, payload) else none

/-- An agent that has taken the lock holds it, and the lookup under it still stands. -/
structure Custody.Stands (m : Custody) (a : Agent) (w : World) : Prop where
  locked : m.locked = true → w.Locked a
  looked : m.locked = true → ∀ u found, m.looked = some (u, found) → w.bound a.node u = found

theorem Custody.stands_free {a : Agent} {w : World} {m : Custody} (h : m.locked = false) :
    m.Stands a w := by
  constructor
  · intro hlocked
    rw [h] at hlocked
    cases hlocked
  · intro hlocked
    rw [h] at hlocked
    cases hlocked

/-- A move that leaves the lock of the agent and the map of its node alone. -/
theorem Custody.Stands.of_kept {a : Agent} {w w' : World} {m m' : Custody} (h : m.Stands a w)
    (hlocked : m'.locked = m.locked) (hlooked : m'.looked = m.looked)
    (hkept : w.Locked a → w'.Locked a ∧
      (w'.node a.node).userConnMap = (w.node a.node).userConnMap) : m'.Stands a w' := by
  constructor
  · intro hl
    rw [hlocked] at hl
    exact (hkept (h.locked hl)).1
  · intro hl u found hf
    rw [hlocked] at hl
    rw [hlooked] at hf
    rw [World.bound, (hkept (h.locked hl)).2]
    exact h.looked hl u found hf

theorem connMutex_starts {j : Job} {w w' : World} (h : j.Starts w w') {a : Agent}
    (ha : w.Locked a) : w'.Locked a ∧
      (w'.node a.node).userConnMap = (w.node a.node).userConnMap :=
  ⟨(locked_starts h).mpr ha, (Job.node_starts h _).1⟩

/-! ## Handlers that deliver nothing -/

/-- A command that has to do neither with a message on its way nor with the lock. -/
def Command.DeliversNothing : Command → Prop
  | .sql (.insertMessage _ _ _ _ _ _) => False
  | .node .lockConnMutex => False
  | .node (.mapFind _) => False
  | .node .unlockConnMutex => False
  | .redisPublish _ _ => False
  | .sendTo _ s => ¬ s.IsChat
  | _ => True

section Nothing
variable {c : Command}

theorem Command.Unrelated.deliversNothing (h : c.Unrelated) : c.DeliversNothing := by
  obtain ⟨q, rfl, -, hq, -⟩ := h
  cases q with
  | insertMessage => exact absurd trivial hq
  | _ => trivial

theorem Command.OfContacts.deliversNothing (h : c.OfContacts) : c.DeliversNothing := by
  cases h with
  | unrelated c hc => exact hc.deliversNothing
  | insertUser | check => trivial
  | answer conn response t ht hor =>
      rcases hor with rfl | rfl
      · exact not_isChat ht (by decide) (by decide)
      · exact not_isChat ht (by decide) (by decide)

theorem deliversNothing_login (conn : Conn) (js : Json) :
    (login conn js).All Command.DeliversNothing := by
  refine (ofLogin_login (P := fun response => msgType? response = some .loginMsgAck)
    (fun _ _ _ => msgType?_errorResponse ..) (fun _ _ _ _ _ => msgType?_loginResponse ..)).mono ?_
  intro c hc
  cases hc with
  | unrelated c hc => exact hc.deliversNothing
  | answer response hr => exact not_isChat hr (by decide) (by decide)
  | _ => trivial

theorem Command.OfTeardown.deliversNothing {P : ℤ → Prop} (h : c.OfTeardown P) :
    c.DeliversNothing := by
  cases h <;> trivial

end Nothing

/-! ## What a job keeps to -/

section Custody
variable [JsonParser]

/-- The message id under which the handler of a chat frame marks its row. -/
def Sent.markedId? : Sent → Option ℤ
  | .json js => getLongLong js "messageid"
  | .raw payload =>
      let messageid := (textId? payload).getD 0
      if 0 < messageid then some messageid else none

/-- Handing over a chat frame. -/
def Custody.hand (m : Custody) (s : Sent) : Custody :=
  { m with
    stored := none
    sent := true
    due := m.looked.bind fun l => s.markedId?.map fun messageid => (messageid, l.1) }

def Custody.next (m : Custody) : (c : Command) → Response c → Custody
  | .sql (.insertMessage messageid _ receiverid _ _ payload), ok =>
      { m with stored := storedBy messageid receiverid payload ok }
  | .sql (.markDelivered messageid receiverid), _ =>
      if m.due = some (messageid, receiverid) then { m with due := none } else m
  | .node .lockConnMutex, _ => { m with locked := true, looked := none }
  | .node (.mapFind userid), found => { m with looked := some (userid, found) }
  | .node .unlockConnMutex, _ => { m with locked := false, looked := none }
  | .redisPublish _ _, _ => { m with stored := none }
  | .sendTo _ s, _ => if s.IsChat then m.hand s else m
  | _, _ => m

/-- The job has `s` to hand over for user `u`: the message it has stored, or the one it
has been started for. -/
def Custody.Carries (m : Custody) (u : ℤ) (s : Sent) : Job → Prop
  | .redisMessage _ channel message => s = .raw message ∧ channel = u ∧ m.sent = false
  | _ => ∃ messageid, m.stored = some (messageid, u, s.payload) ∧ s.markedId? = some messageid

/-- What a job that remembers `m` keeps to. -/
def Custody.Allows (j : Job) (m : Custody) : Command → Prop
  | .sql (.insertMessage _ _ _ _ _ _) => m.locked = false
  | .node (.mapFind _) => m.locked = true
  | .node .unlockConnMutex => m.locked = true ∧ m.due = none
  | .redisPublish channel message => ∃ messageid, m.stored = some (messageid, channel, message)
  | .sendTo conn s => s.IsChat → m.locked = true ∧ ∃ u, m.looked = some (u, some conn) ∧
      m.Carries u s j
  | _ => True

variable {j : Job} {m : Custody} {c : Command}

theorem Command.DeliversNothing.allows (h : c.DeliversNothing) : m.Allows j c := by
  cases c with
  | sql q =>
      cases q with
      | insertMessage => exact h.elim
      | _ => trivial
  | node q =>
      cases q with
      | mapFind | unlockConnMutex => exact h.elim
      | _ => trivial
  | redisPublish => exact h.elim
  | sendTo conn s => exact fun hchat => absurd hchat h

theorem Command.DeliversNothing.free (h : c.DeliversNothing) (hm : m.Free) (r : Response c) :
    (m.next c r).Free := by
  cases c with
  | sql q =>
      cases q with
      | insertMessage => exact h.elim
      | markDelivered messageid receiverid =>
          simp only [Custody.next]
          split_ifs
          · exact ⟨hm.unlocked, rfl⟩
          · exact hm
      | _ => exact hm
  | node q =>
      cases q with
      | lockConnMutex | mapFind | unlockConnMutex => exact h.elim
      | _ => exact hm
  | redisPublish => exact h.elim
  | sendTo conn s =>
      simp only [Custody.next]
      rw [if_neg h]
      exact hm

/-- The job keeps to its custody and is free at its end. -/
abbrev Delivers (j : Job) (p : Program Unit) (m : Custody) : Prop :=
  p.Tracked Custody.next (Custody.Allows j) (fun m' _ => m'.Free) m

theorem delivers_nothing {p : Program Unit} (hp : p.All Command.DeliversNothing) (hm : m.Free) :
    Delivers j p m :=
  .of_all (I := Custody.Free) (fun _ _ hc _ => hc.allows) (fun _ _ r hc hm => hc.free hm r) hp hm

/-! ## The deliveries -/

section Deliveries
variable {conn conn' : Conn} {js js' : Json} {time : String} {messageid : ℤ}

theorem delivers_markUnlock {userid : ℤ} (hlocked : m.locked = true)
    (hdue : m.due = some (messageid, userid)) :
    Delivers j (do let _ ← MessageModel.markDelivered messageid userid
                   node .unlockConnMutex) m := by
  refine ⟨trivial, fun ok => ?_⟩
  have hnext : m.next (.sql (.markDelivered messageid userid)) ok = { m with due := none } :=
    if_pos hdue
  rw [hnext]
  exact ⟨⟨hlocked, rfl⟩, fun _ => ⟨rfl, rfl⟩⟩

theorem delivers_persistAndDeliver (senderid receiverid groupid : ℤ) (msgtype : EnMsgType)
    (hid : getLongLong js "messageid" = some messageid) (hchat : (Sent.json js).IsChat)
    (hm : m.Free) :
    Delivers (.frame conn js' time)
      (persistAndDeliver messageid senderid receiverid groupid msgtype js) m := by
  refine ⟨hm.unlocked, fun stored => ?_⟩
  cases stored with
  | false => exact ⟨hm.unlocked, hm.settled⟩
  | true =>
      refine ⟨trivial, fun _ => ⟨rfl, fun found => ?_⟩⟩
      cases found with
      | some receiver =>
          refine ⟨fun _ => ⟨rfl, receiverid, rfl, messageid, rfl, hid⟩, fun sent => ?_⟩
          simp only [Custody.next, if_pos hchat]
          refine delivers_markUnlock rfl ?_
          simp [Custody.hand, Sent.markedId?, hid]
      | none =>
          refine ⟨⟨rfl, hm.settled⟩, fun _ => ⟨trivial, fun row => ?_⟩⟩
          change Delivers _ (if (User.ofRow row).state = .online then _ else _) _
          split_ifs
          · refine ⟨trivial, fun connected => ?_⟩
            cases connected with
            | false => exact ⟨rfl, hm.settled⟩
            | true => exact ⟨⟨messageid, rfl⟩, fun _ => ⟨rfl, hm.settled⟩⟩
          · exact ⟨rfl, hm.settled⟩

theorem delivers_generateMessageId (hm : m.Free) :
    generateMessageId.Tracked Custody.next (Custody.Allows j)
      (fun m' messageid => m'.Free ∧ MessageIdRange messageid) m :=
  Prog.Tracked.returns (.of_all (I := Custody.Free) (D := Command.DeliversNothing)
    (fun _ _ hc _ => hc.allows) (fun _ _ r hc hm => hc.free hm r) (p := generateMessageId)
    ⟨trivial, fun _ => ⟨trivial, fun _ => ⟨trivial, fun _ => trivial⟩⟩⟩ hm) returns_generateMessageId

theorem delivers_oneChat (hmsg : msgType? js = some .oneChatMsg) (hm : m.Free) :
    Delivers (.frame conn' js' time) (oneChat conn js) m := by
  unfold oneChat
  split
  · next fromid toid _ hid _ _ =>
    refine ⟨trivial, fun bound => ?_⟩
    cases bound with
    | false => exact hm
    | true =>
        refine (delivers_generateMessageId hm).bind fun m' messageid h => ?_
        exact delivers_persistAndDeliver _ _ _ _
          (getLongLong_stampOneChat (isObject_of_getInt hid) h.2)
          (.inl ((msgType?_stampOneChat js messageid).trans hmsg)) h.1
  · exact hm

theorem delivers_groupChat (hmsg : msgType? js = some .groupChatMsg) (hm : m.Free) :
    Delivers (.frame conn' js' time) (groupChat conn js) m := by
  unfold groupChat
  split
  · next userid groupid _ hid _ _ =>
    refine ⟨trivial, fun bound => ?_⟩
    cases bound with
    | false => exact hm
    | true =>
        refine ⟨trivial, fun members => ?_⟩
        refine Prog.Tracked.forM (I := Custody.Free) (fun id _ m' hm' => ?_) hm
        refine (delivers_generateMessageId hm').bind fun m'' messageid h => ?_
        exact delivers_persistAndDeliver _ _ _ _
          (getLongLong_stampGroupChat (isObject_of_getInt hid) id h.2)
          (.inr ((msgType?_stampGroupChat js messageid id).trans hmsg)) h.1
  · exact hm

/-- The observer marks the row of a message with a positive id only. -/
theorem delivers_handleRedisSubscribeMessage (n : ℕ) (channel : ℤ) (message : String) :
    Delivers (.redisMessage n channel message) (handleRedisSubscribeMessage channel message) {} := by
  refine ⟨trivial, fun _ => ⟨rfl, fun found => ?_⟩⟩
  cases found with
  | none => exact ⟨⟨rfl, rfl⟩, fun _ => ⟨rfl, rfl⟩⟩
  | some conn =>
      refine ⟨fun _ => ⟨rfl, channel, rfl, rfl, rfl, rfl⟩, fun sent => ?_⟩
      have hchat : (Sent.raw message).IsChat := trivial
      simp only [Custody.next, if_pos hchat]
      change Delivers _ (do
        if 0 < (textId? message).getD 0 then
          let _ ← MessageModel.markDelivered ((textId? message).getD 0) channel
        node .unlockConnMutex) _
      split_ifs with hpositive
      · refine delivers_markUnlock rfl ?_
        simp [Custody.hand, Sent.markedId?, hpositive]
      · refine ⟨⟨rfl, ?_⟩, fun _ => ⟨rfl, ?_⟩⟩
        · simp [Custody.hand, Sent.markedId?, hpositive]
        · simp [Custody.next, Custody.hand, Sent.markedId?, hpositive]

theorem delivers_body (j : Job) : Delivers j j.body {} := by
  have hfree : ({} : Custody).Free := ⟨rfl, rfl⟩
  cases j with
  | frame conn js time =>
      apply onMessage_handlers (T := fun p => Delivers (.frame conn js time) p {})
      · exact fun _ => delivers_nothing (deliversNothing_login conn js) hfree
      · exact fun _ hp => delivers_nothing
          (hp.mono fun _ => Command.OfTeardown.deliversNothing) hfree
      · exact fun p hp => delivers_nothing
          (hp.mono fun _ => Command.OfContacts.deliversNothing) hfree
      · exact fun hmsg => delivers_oneChat hmsg hfree
      · exact fun hmsg => delivers_groupChat hmsg hfree
      · exact fun _ => delivers_nothing
          (all_messageAck (fun _ => trivial) fun _ _ => trivial) hfree
  | close conn => exact delivers_nothing (all_clientCloseException trivial fun _ =>
      Command.OfTeardown.deliversNothing) hfree
  | redisMessage n channel message => exact delivers_handleRedisSubscribeMessage n channel message
  | sigint n => exact delivers_nothing ⟨trivial, fun _ => ⟨trivial, fun _ => trivial⟩⟩ hfree

end Deliveries

/-! ## The custody of a run -/

def custody (a : Agent) (past : List ClusterEntry) : Custody :=
  memory Job.agent {} Custody.next a past

theorem custody_did (j : Job) (c : Command) (r : Response c) (a : Agent)
    (past : List ClusterEntry) : custody a (.did j c r :: past) =
      if j.agent = a then (custody a past).next c r else custody a past := rfl

theorem custody_send (j : Job) (conn : Conn) {s : Sent} (hchat : s.IsChat) (r : Unit)
    (past : List ClusterEntry) :
    custody j.agent (.did j (.sendTo conn s) r :: past) = (custody j.agent past).hand s := by
  refine (custody_did j (.sendTo conn s) r j.agent past).trans ?_
  rw [if_pos rfl]
  exact if_pos hchat

section Runs
variable {E : Environment} {admits : ClusterView → ClusterEntry → Prop} {w : World}
  {es : List ClusterEntry} {x y : ClusterConfig}

theorem allows_of_step (h : Steps (cluster E admits) (Config.initial w) es x) {j : Job}
    {c : Command} {r : Response c} (hs : Step (cluster E admits) x (.did j c r) y) :
    (custody j.agent x.view.past).Allows j c :=
  h.tracked_did (P := fun j m => m.Allows j) (Q := Custody.Free) delivers_body ⟨rfl, rfl⟩ hs

theorem custody_stands (h : Steps (cluster E admits) (Config.initial w) es x) :
    ∀ a, (custody a x.view.past).Stands a x.view.state := by
  induction h with
  | done =>
      intro a
      exact Custody.stands_free rfl
  | @step x y e es hrun hs ih =>
      intro a
      rw [hs.moves.recorded]
      cases e with
      | started j =>
          rw [custody, memory]
          split_ifs with ha
          · exact Custody.stands_free rfl
          · exact (ih a).of_kept rfl rfl (connMutex_starts hs.moves.effect)
      | aborted j =>
          rw [custody, memory]
          split_ifs with ha
          · exact Custody.stands_free rfl
          · refine (ih a).of_kept rfl rfl fun hl => ?_
            rw [show y.view.state = x.view.state.release j.agent from hs.moves.effect]
            exact ⟨locked_release hl ha, userConnMap_release ..⟩
      | disturbed =>
          refine (ih a).of_kept rfl rfl fun hl => ?_
          obtain ⟨hiff, hsame⟩ := locked_disturbance (b := a) hs.moves.effect.2
          exact ⟨hiff.mpr hl, hsame _⟩
      | did j c r =>
          rw [custody_did]
          obtain ⟨-, o, -, ho⟩ := hs.moves.effect
          have hallows := allows_of_step hrun hs
          split_ifs with ha
          · subst ha
            have hkept : c ≠ .node .unlockConnMutex → x.view.state.Locked j.agent →
                y.view.state.Locked j.agent ∧ (y.view.state.node j.agent.node).userConnMap =
                  (x.view.state.node j.agent.node).userConnMap := fun hc hl =>
              locked_kept hl (fun he => absurd he hc) ho
            cases c with
            | sql q =>
                cases q with
                | markDelivered messageid receiverid =>
                    simp only [Custody.next]
                    split_ifs
                    · exact (ih _).of_kept rfl rfl (hkept (by simp))
                    · exact (ih _).of_kept rfl rfl (hkept (by simp))
                | _ => exact (ih _).of_kept rfl rfl (hkept (by simp))
            | node q =>
                cases q with
                | lockConnMutex =>
                    refine ⟨fun _ => locked_of_moves hs.moves, fun _ u found hf => ?_⟩
                    cases hf
                | mapFind userid =>
                    obtain ⟨hstate, hfound⟩ := bound_of_mapFind hs.moves
                    rw [hstate]
                    refine ⟨(ih _).locked, fun _ u found hf => ?_⟩
                    cases hf
                    exact hfound
                | unlockConnMutex => exact Custody.stands_free rfl
                | _ => exact (ih _).of_kept rfl rfl (hkept (by simp))
            | redisPublish channel message => exact (ih _).of_kept rfl rfl (hkept (by simp))
            | sendTo conn s =>
                simp only [Custody.next]
                split_ifs
                · exact (ih _).of_kept rfl rfl (hkept (by simp))
                · exact (ih _).of_kept rfl rfl (hkept (by simp))
          · refine (ih a).of_kept rfl rfl fun hl => locked_exec hl ha (fun hc => ?_) ho
            subst hc
            exact (ih _).locked hallows.1

/-- A mark is owed under the lock only, for a message that is no longer carried. -/
def Custody.Settles (m : Custody) : Prop :=
  m.due ≠ none → m.locked = true ∧ m.stored = none ∧ m.sent = true

theorem settles_next {j : Job} {m : Custody} {c : Command} (hm : m.Settles) (h : m.Allows j c)
    (r : Response c) : (m.next c r).Settles := by
  cases c with
  | sql q =>
      cases q with
      | insertMessage =>
          intro hdue
          have hunlocked : m.locked = false := h
          rw [(hm hdue).1] at hunlocked
          cases hunlocked
      | markDelivered messageid receiverid =>
          simp only [Custody.next]
          split_ifs
          · exact fun hdue => absurd rfl hdue
          · exact hm
      | _ => exact hm
  | node q =>
      cases q with
      | lockConnMutex => exact fun hdue => ⟨rfl, (hm hdue).2⟩
      | unlockConnMutex => exact fun hdue => absurd h.2 hdue
      | _ => exact hm
  | redisPublish => exact fun hdue => ⟨(hm hdue).1, rfl, (hm hdue).2.2⟩
  | sendTo conn s =>
      simp only [Custody.next]
      split_ifs with hchat
      · exact fun _ => ⟨(h hchat).1, rfl, rfl⟩
      · exact hm

theorem custody_settles (h : Steps (cluster E admits) (Config.initial w) es x) :
    ∀ a, (custody a x.view.past).Settles := by
  have hfirst : ({} : Custody).Settles := fun hdue => absurd rfl hdue
  induction h with
  | done => exact fun _ => hfirst
  | @step x y e es hrun hs ih =>
      intro a
      rw [hs.moves.recorded]
      cases e with
      | started j | aborted j =>
          rw [custody, memory]
          split_ifs
          · exact hfirst
          · exact ih a
      | did j c r =>
          rw [custody_did]
          split_ifs with ha
          · subst ha
            exact settles_next (ih _) (allows_of_step hrun hs) r
          · exact ih a
      | disturbed => exact ih a

/-- Nothing is owed when a chat frame is handed over. -/
theorem due_of_send (h : Steps (cluster E admits) (Config.initial w) es x) {j : Job}
    {conn : Conn} {s : Sent} {r : Unit}
    (hs : Step (cluster E admits) x (.did j (.sendTo conn s) r) y) (hchat : s.IsChat) :
    (custody j.agent x.view.past).due = none := by
  obtain ⟨-, u, -, hcarries⟩ := allows_of_step h hs hchat
  by_contra hdue
  obtain ⟨-, hstored, hsent⟩ := custody_settles h j.agent hdue
  cases j with
  | redisMessage n channel message =>
      rw [hcarries.2.2] at hsent
      cases hsent
  | _ =>
      obtain ⟨messageid, hcarried, -⟩ := hcarries
      rw [hcarried] at hstored
      cases hstored

/-- A chat frame is handed over under the lock, to the connection that the map has for its
receiver. -/
theorem found_of_send (h : Steps (cluster E admits) (Config.initial w) es x) {j : Job}
    {conn : Conn} {s : Sent} {r : Unit}
    (hs : Step (cluster E admits) x (.did j (.sendTo conn s) r) y) (hchat : s.IsChat) :
    ∃ u, (custody j.agent x.view.past).looked = some (u, some conn) ∧
      (custody j.agent x.view.past).Carries u s j ∧ x.view.state.Locked j.agent ∧
      x.view.state.bound j.agent.node u = some conn := by
  obtain ⟨hlocked, u, hlooked, hcarries⟩ := allows_of_step h hs hchat
  have hstands := custody_stands h j.agent
  exact ⟨u, hlooked, hcarries, hstands.locked hlocked, hstands.looked hlocked u _ hlooked⟩

theorem looked_of_next {m : Custody} {j : Job} {c : Command} {r : Response c} {u : ℤ}
    {conn : Conn} (hnot : ¬ (m.locked = true ∧ m.looked = some (u, some conn)))
    (h : (m.next c r).locked = true ∧ (m.next c r).looked = some (u, some conn)) :
    (Entry.did j c r : ClusterEntry) = .did j (.node (.mapFind u)) (some conn) := by
  cases c with
  | sql q =>
      cases q with
      | markDelivered messageid receiverid =>
          simp only [Custody.next] at h
          split_ifs at h <;> exact absurd h hnot
      | _ => exact absurd h hnot
  | node q =>
      cases q with
      | mapFind userid =>
          obtain ⟨rfl, rfl⟩ := Prod.mk.inj (Option.some.inj h.2)
          rfl
      | lockConnMutex => exact absurd h.2 (by simp [Custody.next])
      | unlockConnMutex => exact absurd h.1 (by simp [Custody.next])
      | _ => exact absurd h hnot
  | sendTo conn' s =>
      simp only [Custody.next] at h
      split_ifs at h <;> exact absurd h hnot
  | _ => exact absurd h hnot

theorem connMutex_of_mapBind {j : Job} {u : ℤ} {conn : Conn} {r : Unit} {v v' : ClusterView}
    (hm : Moves (cluster E admits) v (.did j (.node (.mapBind u conn)) r) v') :
    (v.state.node j.agent.node).connMutex = none := by
  obtain ⟨-, o, -, ho⟩ := hm.effect
  obtain ⟨s', hs, -⟩ := exec_node ho
  simp only [NodeOp.exec] at hs
  split_ifs at hs with hfree
  exact hfree

/-- Between the lookup of a job and what it does under the same lock, the node binds nothing
and the job stores nothing. -/
theorem lookup_since (h : Steps (cluster E admits) (Config.initial w) es x) {j : Job} {u : ℤ}
    {conn : Conn} (hj : (x.slot j.agent).last = some j)
    (hlocked : (custody j.agent x.view.past).locked = true)
    (hlooked : (custody j.agent x.view.past).looked = some (u, some conn)) :
    ∃ since older, x.view.past = since ++ .did j (.node (.mapFind u)) (some conn) :: older ∧
      (∀ i v d r, .did i (.node (.mapBind v d)) r ∈ since → i.agent.node ≠ j.agent.node) ∧
      ∀ messageid senderid receiverid groupid msgtype payload ok, .did j (.sql (.insertMessage
        messageid senderid receiverid groupid msgtype payload)) ok ∉ since := by
  obtain ⟨since, c, r, older, hpast, -, hnot, hnext, hkept⟩ := h.current_since
    (D := fun m : Custody => m.locked = true ∧ m.looked = some (u, some conn)) hj (by simp)
    ⟨hlocked, hlooked⟩
  have he := looked_of_next (j := j) hnot hnext
  rw [he] at hpast hkept
  -- the lock is held before every move since
  have hheld : ∀ {e}, e ∈ since → ∃ fs z z', Steps (cluster E admits) (Config.initial w) fs z ∧
      Step (cluster E admits) z e z' ∧ (custody j.agent z.view.past).locked = true := by
    intro e hmem
    obtain ⟨newer, rest, rfl⟩ := List.append_of_mem hmem
    obtain ⟨fs, _, z, z', hbefore, hz, hs, -, -⟩ := h.at_entry (hpast.trans (List.append_assoc ..))
    refine ⟨fs, z, z', hbefore, hs, ?_⟩
    rw [hz]
    exact (hkept (newer ++ [e]) rest (by simp)).1
  refine ⟨since, older, hpast, ?_, ?_⟩
  · intro i v d r' hmem hnode
    obtain ⟨fs, z, z', hbefore, hbind, hlocked'⟩ := hheld hmem
    have hlock : (z.view.state.node j.agent.node).connMutex = some j.agent :=
      (custody_stands hbefore j.agent).locked hlocked'
    have hfree := connMutex_of_mapBind hbind.moves
    rw [hnode, hlock] at hfree
    cases hfree
  · intro messageid senderid receiverid groupid msgtype payload ok hmem
    obtain ⟨fs, z, z', hbefore, hinsert, hlocked'⟩ := hheld hmem
    have hfree : (custody j.agent z.view.past).locked = false := allows_of_step hbefore hinsert
    rw [hlocked'] at hfree
    cases hfree

theorem stored_of_next {m : Custody} {j : Job} {c : Command} {r : Response c}
    {stored : ℤ × ℤ × String} (hnot : m.stored ≠ some stored)
    (h : (m.next c r).stored = some stored) : ∃ senderid groupid msgtype,
      (Entry.did j c r : ClusterEntry) =
        .did j (.sql (.insertMessage stored.1 senderid stored.2.1 groupid msgtype stored.2.2))
          true := by
  cases c with
  | sql q =>
      cases q with
      | insertMessage messageid senderid receiverid groupid msgtype payload =>
          cases r with
          | false => cases h
          | true =>
              cases h
              exact ⟨senderid, groupid, msgtype, rfl⟩
      | markDelivered messageid receiverid =>
          simp only [Custody.next] at h
          split_ifs at h <;> exact absurd h hnot
      | _ => exact absurd h hnot
  | node q => cases q <;> exact absurd h hnot
  | redisPublish => cases h
  | sendTo conn s =>
      simp only [Custody.next] at h
      split_ifs at h
      · cases h
      · exact absurd h hnot

/-- The message that a job carries has been stored. -/
theorem row_of_stored (h : Steps (cluster E admits) (Config.initial w) es x) {a : Agent}
    {stored : ℤ × ℤ × String} (hm : (custody a x.view.past).stored = some stored) :
    ∃ r ∈ x.view.state.db.chatMessage.rows,
      stored = (r.messageId, r.receiverId, r.payload) := by
  obtain ⟨since, j, c, r, older, hpast, -, hnot, hnext, -⟩ :=
    memory_gained (D := fun m : Custody => m.stored = some stored) (by simp) hm
  obtain ⟨senderid, groupid, msgtype, he⟩ := stored_of_next (j := j) hnot hnext
  rw [he] at hpast
  obtain ⟨_, _, z, z', -, -, hinsert, hafter, -⟩ := h.at_entry hpast
  obtain ⟨-, o, -, ho⟩ := hinsert.moves.effect
  obtain ⟨r', hr', hpersists, -⟩ := persists_of_steps (hostile_steps hafter) (newMessage_exec ho)
  refine ⟨r', hr', ?_⟩
  rw [hpersists.messageId, hpersists.receiverId, hpersists.payload]
  rfl

/-- What an observer has been started for has been stored. -/
theorem row_of_redisMessage {db : Database}
    (h : Steps (cluster E admits) (Config.initial (World.fresh db)) es x) {n : ℕ} {channel : ℤ}
    {message : String} (hmem : .started (.redisMessage n channel message) ∈ x.view.past) :
    ∃ r ∈ x.view.state.db.chatMessage.rows, r.receiverId = channel ∧ r.payload = message := by
  obtain ⟨newer, older, hpast⟩ := List.append_of_mem hmem
  obtain ⟨_, _, z, z', hbefore, -, hstart, hafter, -⟩ := h.at_entry hpast
  have hwaits := (message_verified.sound (hostile_steps hbefore) (messageContract_fresh db)).inv
  obtain ⟨-, rest, hinbox, -⟩ := hstart.moves.effect
  obtain ⟨js, hmessage, hstored⟩ := hwaits n (channel, message) (hinbox ▸ List.mem_cons_self)
  obtain ⟨r, hr, -, hreceiver, hpayload⟩ := stored_moves hstart.moves hstored
  obtain ⟨r', hr', hpersists, -⟩ := persists_of_steps (hostile_steps hafter) hr
  refine ⟨r', hr', hpersists.receiverId.trans hreceiver, ?_⟩
  rw [hpersists.payload, hpayload, ← hmessage]

/-- The row of a chat frame, for the user that has been looked up. -/
structure RowOf (m : Custody) (s : Sent) (conn : Conn) (r : MessageRow) : Prop where
  looked : m.looked = some (r.receiverId, some conn)
  payload : s.payload = r.payload
  marked : ∀ js, s = .json js → s.markedId? = some r.messageId

theorem exists_rowOf {db : Database}
    (h : Steps (cluster E admits) (Config.initial (World.fresh db)) es x) {j : Job} {conn : Conn}
    {s : Sent} {r : Unit} (hs : Step (cluster E admits) x (.did j (.sendTo conn s) r) y)
    (hchat : s.IsChat) : ∃ row ∈ x.view.state.db.chatMessage.rows,
      RowOf (custody j.agent x.view.past) s conn row := by
  obtain ⟨-, u, hlooked, hcarries⟩ := allows_of_step h hs hchat
  cases j with
  | redisMessage n channel message =>
      obtain ⟨rfl, rfl, -⟩ := hcarries
      have hstarted : .started (.redisMessage n channel message) ∈ x.view.past := by
        have hmem := (Steps.step h hs).started_of_did (j := .redisMessage n channel message)
          (c := .sendTo conn (.raw message)) (r := r)
          (by rw [hs.moves.recorded]; exact List.mem_cons_self)
        rw [hs.moves.recorded] at hmem
        exact (List.mem_cons.mp hmem).resolve_left (by simp)
      obtain ⟨row, hrow, rfl, rfl⟩ := row_of_redisMessage h hstarted
      exact ⟨row, hrow, hlooked, rfl, fun js hjs => by cases hjs⟩
  | _ =>
      obtain ⟨messageid, hstored, hmarked⟩ := hcarries
      obtain ⟨row, hrow, heq⟩ := row_of_stored h hstored
      obtain ⟨rfl, hrest⟩ := Prod.mk.inj heq
      obtain ⟨rfl, hpayload⟩ := Prod.mk.inj hrest
      exact ⟨row, hrow, hlooked, hpayload, fun _ _ => hmarked⟩

theorem cStr_payload_of_send {db : Database}
    (h : Steps (cluster E admits) (Config.initial (World.fresh db)) es x) {j : Job} {conn : Conn}
    {s : Sent} {r : Unit} (hs : Step (cluster E admits) x (.did j (.sendTo conn s) r) y)
    (hchat : s.IsChat) : cStr s.payload = s.payload := by
  obtain ⟨u, js, hcarries, -⟩ := emitsStored_of_step (hostile_steps h) (hostile_step hs) hchat
  rw [hcarries.payload, cStr_dump]

end Runs
end Custody
end ChatCluster
