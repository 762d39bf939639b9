import ChatCluster.Custody

/-!
# The copies of a message

A message is stored once, and the job that has stored it hands it over or publishes it, but
not both and not twice. A publication puts at most one copy into the inbox of a node, and its
observer hands a copy over once. So a message gets onto a connection at most once in a chat
frame, in the whole of a run.
-/
namespace ChatCluster
open CommandProgram Interleaving

/-! ## Moves with a copy -/

/-- The node whose observer executes the job. -/
def Job.observes : Job → Option ℕ
  | .redisMessage n _ _ => some n
  | _ => none

def publishes (text : String) : ClusterEntry → Bool
  | .did _ (.redisPublish _ message) _ => message = text
  | _ => false

/-- A job that is no observer's hands the text over. -/
def handsOn (text : String) : ClusterEntry → Bool
  | .did j (.sendTo _ s) _ => j.observes = none ∧ s.IsChat ∧ s.payload = text
  | _ => false

/-- The observer of node `n` takes the text out of the inbox. -/
def takesUp (n : ℕ) (text : String) : ClusterEntry → Bool
  | .started (.redisMessage m _ message) => m = n ∧ message = text
  | _ => false

/-- The observer of node `n` hands the text over. -/
def relays (n : ℕ) (text : String) : ClusterEntry → Bool
  | .did j (.sendTo _ s) _ => j.observes = some n ∧ s.IsChat ∧ s.payload = text
  | _ => false

/-- The observer of node `n` has taken the text up and not handed it over since. -/
def onHand (n : ℕ) (text : String) : List ClusterEntry → Bool
  | [] => false
  | .started (.redisMessage m _ message) :: past =>
      if m = n then message = text else onHand n text past
  | .did j (.sendTo _ s) _ :: past =>
      if j.observes = some n ∧ s.IsChat then false else onHand n text past
  | _ :: past => onHand n text past

/-- The copies of the text in the inbox of node `n`. -/
def World.copies (w : World) (n : ℕ) (text : String) : ℕ :=
  (w.node n).inbox.countP fun m => m.2 = text

/-! ## Copies in the inboxes -/

section Copies
variable {w w' : World} (n : ℕ) (text : String)

theorem copies_starts {j : Job} (h : j.Starts w w') :
    w'.copies n text + (if takesUp n text (.started j) then 1 else 0) = w.copies n text := by
  cases j with
  | frame | close =>
      rw [h.2.2]
      rfl
  | sigint =>
      rw [h.2]
      rfl
  | redisMessage k channel message =>
      obtain ⟨-, rest, hinbox, rfl⟩ := h
      simp only [World.copies, World.node_setNode, takesUp]
      by_cases hk : n = k
      · subst hk
        simp [hinbox, List.countP_cons]
      · simp [hk, Ne.symm hk]

theorem copies_disturbance (h : Disturbance w w') : w'.copies n text ≤ w.copies n text := by
  unfold World.copies
  cases h with
  | tick => rfl
  | redisDown k =>
      rw [World.node_setNode]
      split_ifs with hk
      · rw [hk]
      · rfl
  | messageLost k before after lost hinbox =>
      rw [World.node_setNode]
      split_ifs with hk
      · rw [hk, hinbox, List.countP_append, List.countP_append, List.countP_cons]
        omega
      · rfl
  | crash k =>
      rw [World.node_setNode]
      split_ifs
      · exact Nat.zero_le _
      · rfl

theorem copies_exec {o : Choice} {a : Agent} {c : Command} {x : Response c}
    (h : exec o a c w = some (x, w')) (hc : ∀ channel message, c ≠ .redisPublish channel message) :
    w'.copies n text = w.copies n text := by
  unfold World.copies
  cases c with
  | sql q => rw [(exec_sql h).2]
  | node q =>
      obtain ⟨s', hs, rfl⟩ := exec_node h
      rw [World.node_setNode]
      split_ifs with hn
      · rw [NodeOp.inbox_exec hs, hn]
      · rfl
  | redisPublish channel message => exact absurd rfl (hc channel message)
  | sendTo conn s =>
      rw [exec_sendTo h]
      rfl

theorem copies_publish {o : Choice} {a : Agent} {channel : ℤ} {message : String} {x : Bool}
    (h : exec o a (.redisPublish channel message) w = some (x, w')) :
    w'.copies n text ≤ w.copies n text + if cStr message = text then 1 else 0 := by
  rw [exec_redisPublish h]
  unfold World.copies
  cases x with
  | false => exact Nat.le_add_right _ _
  | true =>
      rw [if_pos rfl, World.inbox_publish]
      by_cases hsub : channel ∈ (w.node n).subscriptions
      · rw [if_pos hsub, List.countP_append, List.countP_singleton]
        simp
      · rw [if_neg hsub]
        exact Nat.le_add_right _ _

end Copies

theorem fresh_of_insertMessage {o : Choice} {a : Agent} {w w' : World}
    {messageid senderid receiverid groupid msgtype : ℤ} {payload : String}
    (h : exec o a (.sql (.insertMessage messageid senderid receiverid groupid msgtype payload)) w =
      some (true, w')) : ∀ r ∈ w.db.chatMessage.rows, r.messageId ≠ messageid := by
  obtain ⟨hr, -⟩ := exec_sql h
  cases hok : o.ok with
  | false =>
      rw [hok] at hr
      cases hr
  | true =>
      rw [hok] at hr
      simp only [Statement.exec_true, Statement.run] at hr
      split at hr
      · next hinsert =>
        obtain ⟨t, ht, -⟩ := Option.map_eq_some_iff.mp hinsert
        exact KeyedTable.Table.fresh_of_insert ht
      · cases hr

theorem countP_or_le {α : Type} (p q : α → Bool) (xs : List α) :
    xs.countP (fun x => p x || q x) ≤ xs.countP p + xs.countP q := by
  induction xs with
  | nil => exact Nat.le_refl 0
  | cons x xs ih =>
      simp only [List.countP_cons]
      cases p x <;> cases q x <;> simp <;> omega

section Runs
variable [JsonParser] {E : Environment} {admits : ClusterView → ClusterEntry → Prop}
  {v v' : ClusterView} {e : ClusterEntry} {db : Database} {x y : ClusterConfig}
  {es : List ClusterEntry} {text : String} {n : ℕ}

theorem cStr_of_publish (h : Steps (cluster E admits) (Config.initial (World.fresh db)) es x)
    {j : Job} {channel : ℤ} {message : String} {r : Bool}
    (hs : Step (cluster E admits) x (.did j (.redisPublish channel message) r) y) :
    cStr message = message := by
  obtain ⟨js, rfl, -⟩ := emitsStored_of_step (hostile_steps h) (hostile_step hs)
  exact cStr_dump js

/-- A copy waits in an inbox or has been taken up, and each has been published. -/
theorem takesUp_le (h : Steps (cluster E admits) (Config.initial (World.fresh db)) es x) :
    x.view.past.countP (takesUp n text) + x.view.state.copies n text ≤
      x.view.past.countP (publishes text) := by
  induction h with
  | done => exact Nat.le_refl _
  | @step x y e es hrun hs ih =>
      rw [hs.moves.recorded, List.countP_cons, List.countP_cons]
      cases e with
      | started j =>
          have hcopies := copies_starts n text hs.moves.effect
          simp only [publishes] at hcopies ⊢
          simp only [Bool.false_eq_true, if_false]
          omega
      | aborted j =>
          have hcopies : y.view.state.copies n text = x.view.state.copies n text := by
            rw [show y.view.state = x.view.state.release j.agent from hs.moves.effect,
              World.copies, inbox_release]
            rfl
          simp only [takesUp, publishes, Bool.false_eq_true, if_false]
          omega
      | disturbed =>
          have hcopies := copies_disturbance n text hs.moves.effect.2
          simp only [takesUp, publishes, Bool.false_eq_true, if_false]
          omega
      | did j c r =>
          obtain ⟨-, o, -, ho⟩ := hs.moves.effect
          have htakes : takesUp n text (.did j c r) = false := rfl
          rw [htakes]
          cases c with
          | redisPublish channel message =>
              have hcopies := copies_publish n text ho
              rw [cStr_of_publish hrun hs] at hcopies
              simp only [publishes, decide_eq_true_eq, Bool.false_eq_true, if_false]
              omega
          | _ =>
              have hcopies := copies_exec n text ho (by simp)
              simp only [publishes, Bool.false_eq_true, if_false]
              omega

/-! ## The observer -/

theorem sent_of_next {m : Custody} {c : Command} {r : Response c}
    (h : (m.next c r).sent = false) : m.sent = false := by
  cases c with
  | sql q =>
      cases q with
      | markDelivered messageid receiverid =>
          simp only [Custody.next] at h
          split_ifs at h <;> exact h
      | _ => exact h
  | node q => cases q <;> exact h
  | redisPublish => exact h
  | sendTo conn s =>
      simp only [Custody.next] at h
      split_ifs at h
      · cases h
      · exact h

/-- An observer that has sent nothing since its start still has the text on hand. -/
theorem onHand_of_sent {channel : ℤ} {later earlier : List ClusterEntry}
    (hlater : ∀ e ∈ later, ∀ i, e.job? = some i → i.agent = .observer n → ∃ c r, e = .did i c r)
    (hsent : (custody (.observer n)
      (later ++ .started (.redisMessage n channel text) :: earlier)).sent = false) :
    onHand n text (later ++ .started (.redisMessage n channel text) :: earlier) = true := by
  induction later with
  | nil => simp [onHand]
  | cons e later ih =>
      have hrest : ∀ f ∈ later, ∀ i, f.job? = some i → i.agent = .observer n →
          ∃ c r, f = .did i c r := fun f hf => hlater f (List.mem_cons_of_mem _ hf)
      have hother : ∀ i, e.job? = some i → (∀ c r, e ≠ .did i c r) → i.agent ≠ .observer n := by
        intro i hi hnot ha
        obtain ⟨c, r, rfl⟩ := hlater e List.mem_cons_self i hi ha
        exact hnot c r rfl
      rw [List.cons_append] at hsent ⊢
      cases e with
      | started i =>
          have hi := hother i rfl (by simp)
          rw [custody, memory, if_neg hi] at hsent
          have hkept := ih hrest hsent
          cases i with
          | redisMessage m channel' message =>
              have hm : m ≠ n := fun hm => hi (congrArg Agent.observer hm)
              rw [onHand, if_neg hm]
              exact hkept
          | _ => exact hkept
      | aborted i =>
          rw [custody, memory, if_neg (hother i rfl (by simp))] at hsent
          exact ih hrest hsent
      | disturbed => exact ih hrest hsent
      | did i c r =>
          rw [custody_did] at hsent
          have hkept : (custody (.observer n)
              (later ++ .started (.redisMessage n channel text) :: earlier)).sent = false := by
            split_ifs at hsent
            · exact sent_of_next hsent
            · exact hsent
          cases c with
          | sendTo conn s =>
              have hquiet : ¬ (i.observes = some n ∧ s.IsChat) := by
                intro h
                rcases h with ⟨hi, hchat⟩
                cases i with
                | redisMessage m channel' message =>
                    cases hi
                    have ha : (Job.redisMessage n channel' message).agent = .observer n := rfl
                    rw [if_pos ha] at hsent
                    simp only [Custody.next, if_pos hchat] at hsent
                    cases hsent
                | _ => cases hi
              rw [onHand, if_neg hquiet]
              exact ih hrest hkept
          | _ => exact ih hrest hkept

/-- Whoever relays a text has it on hand. -/
theorem onHand_of_relay (h : Steps (cluster E admits) (Config.initial (World.fresh db)) es x)
    {j : Job} {conn : Conn} {s : Sent} {r : Unit}
    (hs : Step (cluster E admits) x (.did j (.sendTo conn s) r) y) (hj : j.observes = some n)
    (hchat : s.IsChat) : onHand n s.payload x.view.past = true := by
  obtain ⟨-, u, -, hcarries⟩ := allows_of_step h hs hchat
  cases j with
  | redisMessage m channel message =>
      cases hj
      obtain ⟨rfl, -, hsent⟩ := hcarries
      obtain ⟨a, k, hslot⟩ := hs.did
      obtain ⟨later, earlier, hpast, hlater⟩ := h.active_start hslot
      have ha : Agent.observer n = a :=
        (h.started_of_last (j := .redisMessage n channel message) (by rw [hslot]; rfl)).1
      subst ha
      rw [hpast] at hsent ⊢
      exact onHand_of_sent hlater hsent
  | _ => cases hj

/-- What has been relayed, or is on hand to be relayed, has been taken up. -/
theorem relays_le (h : Steps (cluster E admits) (Config.initial (World.fresh db)) es x) :
    x.view.past.countP (relays n text) + (if onHand n text x.view.past then 1 else 0) ≤
      x.view.past.countP (takesUp n text) := by
  induction h with
  | done => exact Nat.le_refl _
  | @step x y e es hrun hs ih =>
      rw [hs.moves.recorded, List.countP_cons, List.countP_cons]
      cases e with
      | started j =>
          cases j with
          | redisMessage m channel message =>
              by_cases hm : m = n
              · subst hm
                simp only [relays, takesUp, onHand, Bool.false_eq_true, if_false, if_true, true_and]
                split_ifs at ih ⊢ <;> omega
              · simp only [relays, takesUp, onHand, hm, Bool.false_eq_true, if_false, false_and,
                  decide_false]
                exact ih
          | _ => exact ih
      | did j c r =>
          cases c with
          | sendTo conn s =>
              by_cases hrelay : j.observes = some n ∧ s.IsChat
              · have hhand := onHand_of_relay hrun hs hrelay.1 hrelay.2
                have hgone : onHand n text (.did j (.sendTo conn s) r :: x.view.past) = false := by
                  rw [onHand, if_pos hrelay]
                by_cases htext : s.payload = text
                · have hyes : relays n text (.did j (.sendTo conn s) r) = true :=
                    decide_eq_true ⟨hrelay.1, hrelay.2, htext⟩
                  rw [htext] at hhand
                  simp only [hhand, if_true] at ih
                  simp only [hyes, hgone, takesUp, Bool.false_eq_true, if_true, if_false]
                  omega
                · have hno : relays n text (.did j (.sendTo conn s) r) = false := by
                    apply decide_eq_false
                    intro h
                    rcases h with ⟨-, -, he⟩
                    exact htext he
                  simp only [hno, hgone, takesUp, Bool.false_eq_true, if_false]
                  omega
              · have hquiet : relays n text (.did j (.sendTo conn s) r) = false := by
                  apply decide_eq_false
                  intro h
                  rcases h with ⟨hj, hchat, -⟩
                  exact hrelay ⟨hj, hchat⟩
                simp only [takesUp, onHand, hquiet, if_neg hrelay, Bool.false_eq_true, if_false]
                exact ih
          | _ => exact ih
      | _ => exact ih

/-! ## Passed on once -/

/-- How often the text has been handed over or published by whoever has stored it. -/
def passedOn (text : String) (past : List ClusterEntry) : ℕ :=
  past.countP (handsOn text) + past.countP (publishes text)

/-- Agent `a` has stored the text and not passed it on yet. -/
def Carrying (text : String) (a : Agent) (past : List ClusterEntry) : Prop :=
  ∃ messageid u, (custody a past).stored = some (messageid, u, text)

/-- The text is passed on at most once, by the only agent that carries it. -/
structure PassedOnce (text : String) (v : ClusterView) : Prop where
  once : passedOn text v.past ≤ 1
  carried : ∀ a, Carrying text a v.past → passedOn text v.past = 0
  unique : ∀ a b, Carrying text a v.past → Carrying text b v.past → a = b
  stored : 0 < passedOn text v.past → ∃ r ∈ v.state.db.chatMessage.rows, r.payload = text

/-- A text that reads back is new when it is stored. -/
theorem new_of_insert {j : Job} {messageid senderid receiverid groupid msgtype : ℤ}
    (hm : Moves (cluster E admits) v (.did j (.sql (.insertMessage messageid senderid receiverid
      groupid msgtype text)) true) v') (hread : v'.state.db.ReadsBack) {r : MessageRow}
    (hr : r ∈ v.state.db.chatMessage.rows) : r.payload ≠ text := by
  intro htext
  obtain ⟨r', hr', hpersists, -⟩ := row_moves hm hr
  obtain ⟨-, o, -, ho⟩ := hm.effect
  have hpayload : r'.payload = text := hpersists.payload.trans htext
  have hsame := hread.eq hr' (newMessage_exec ho) (congrArg cStr hpayload)
  apply fresh_of_insertMessage ho r hr
  rw [← hpersists.messageId, hsame]
  rfl

theorem carrying_of_cons {a : Agent} (h : Carrying text a (e :: v.past)) :
    Carrying text a v.past ∨ ∃ j messageid senderid receiverid groupid msgtype,
      e = .did j (.sql (.insertMessage messageid senderid receiverid groupid msgtype text)) true ∧
        j.agent = a := by
  obtain ⟨messageid, u, hstored⟩ := h
  cases e with
  | started j | aborted j =>
      rw [custody, memory] at hstored
      split_ifs at hstored
      exact .inl ⟨messageid, u, hstored⟩
  | disturbed => exact .inl ⟨messageid, u, hstored⟩
  | did j c r =>
      rw [custody_did] at hstored
      split_ifs at hstored with ha
      · by_cases hold : (custody a v.past).stored = some (messageid, u, text)
        · exact .inl ⟨messageid, u, hold⟩
        · obtain ⟨senderid, groupid, msgtype, he⟩ := stored_of_next (j := j) hold hstored
          exact .inr ⟨j, messageid, senderid, u, groupid, msgtype, he, ha⟩
      · exact .inl ⟨messageid, u, hstored⟩

/-- Passing the text on takes it from the agent that carries it. -/
theorem passes_of_step (h : Steps (cluster E admits) (Config.initial (World.fresh db)) es x)
    (hs : Step (cluster E admits) x e y) (he : handsOn text e = true ∨ publishes text e = true) :
    ∃ j c r, e = .did j c r ∧ Carrying text j.agent x.view.past ∧
      ¬ Carrying text j.agent y.view.past ∧
      passedOn text y.view.past = passedOn text x.view.past + 1 := by
  rw [hs.moves.recorded, passedOn, List.countP_cons, List.countP_cons]
  cases e with
  | did j c r =>
      cases c with
      | redisPublish channel message =>
          have hpublishes : publishes text (.did j (.redisPublish channel message) r) = true :=
            he.resolve_left (by simp [handsOn])
          obtain rfl : message = text := of_decide_eq_true hpublishes
          obtain ⟨messageid, hstored⟩ := allows_of_step h hs
          refine ⟨j, _, r, rfl, ⟨messageid, channel, hstored⟩, ?_, ?_⟩
          · intro h
            rcases h with ⟨messageid', u, hafter⟩
            rw [custody_did, if_pos rfl] at hafter
            cases hafter
          · simp only [handsOn, hpublishes, Bool.false_eq_true, if_true, if_false, passedOn]
            omega
      | sendTo conn s =>
          have hhands : handsOn text (.did j (.sendTo conn s) r) = true :=
            he.resolve_right (by simp [publishes])
          obtain ⟨hj, hchat, rfl⟩ := of_decide_eq_true hhands
          obtain ⟨-, u, -, hcarries⟩ := allows_of_step h hs hchat
          obtain ⟨messageid, hstored⟩ : ∃ messageid,
              (custody j.agent x.view.past).stored = some (messageid, u, s.payload) := by
            cases j with
            | redisMessage n channel message => cases hj
            | _ =>
                obtain ⟨messageid, hstored, -⟩ := hcarries
                exact ⟨messageid, hstored⟩
          refine ⟨j, _, r, rfl, ⟨messageid, u, hstored⟩, ?_, ?_⟩
          · intro h
            rcases h with ⟨messageid', u', hafter⟩
            rw [custody_did, if_pos rfl] at hafter
            simp only [Custody.next, if_pos hchat] at hafter
            cases hafter
          · simp only [publishes, hhands, Bool.false_eq_true, if_true, if_false, passedOn]
            omega
      | _ => simp [handsOn, publishes] at he
  | _ => simp [handsOn, publishes] at he

theorem row_of_carrying (h : Steps (cluster E admits) (Config.initial (World.fresh db)) es x)
    {a : Agent} (hcarrying : Carrying text a x.view.past) :
    ∃ r ∈ x.view.state.db.chatMessage.rows, r.payload = text := by
  obtain ⟨messageid, u, hstored⟩ := hcarrying
  obtain ⟨row, hrow, heq⟩ := row_of_stored h hstored
  exact ⟨row, hrow, (congrArg (fun p : ℤ × ℤ × String => p.2.2) heq).symm⟩

theorem payload_moves {v v' : ClusterView} (hm : Moves (cluster E admits) v e v') {text : String}
    (h : ∃ r ∈ v.state.db.chatMessage.rows, r.payload = text) :
    ∃ r ∈ v'.state.db.chatMessage.rows, r.payload = text := by
  obtain ⟨r, hr, htext⟩ := h
  obtain ⟨r', hr', hpersists, -⟩ := row_moves hm hr
  exact ⟨r', hr', hpersists.payload.trans htext⟩

/-- A text that is being stored is carried by nobody else and has not been passed on. -/
theorem untouched_of_insert {j : Job} {messageid senderid receiverid groupid msgtype : ℤ}
    (h : Steps (cluster E admits) (Config.initial (World.fresh db)) es x)
    (hs : Step (cluster E admits) x (.did j (.sql (.insertMessage messageid senderid receiverid
      groupid msgtype text)) true) y)
    (hread : y.view.state.db.ReadsBack) (hx : PassedOnce text x.view) :
    passedOn text x.view.past = 0 ∧ ∀ a, ¬ Carrying text a x.view.past := by
  have hnew : ¬ ∃ r ∈ x.view.state.db.chatMessage.rows, r.payload = text := by
    intro h
    rcases h with ⟨r, hr, htext⟩
    exact new_of_insert hs.moves hread hr htext
  constructor
  · by_contra hpos
    exact hnew (hx.stored (Nat.pos_of_ne_zero hpos))
  · intro a hcarrying
    exact hnew (row_of_carrying h hcarrying)

/-- The step that passes the text on leaves nobody who carries it. -/
theorem passedOnce_passes (h : Steps (cluster E admits) (Config.initial (World.fresh db)) es x)
    (hs : Step (cluster E admits) x e y) (hx : PassedOnce text x.view)
    (he : handsOn text e = true ∨ publishes text e = true) : PassedOnce text y.view := by
  obtain ⟨j, c, r, rfl, hcarrying, hgone, hcount⟩ := passes_of_step h hs he
  have hzero := hx.carried _ hcarrying
  have hnobody : ∀ a, ¬ Carrying text a y.view.past := by
    intro a ha
    have hold := ha
    rw [hs.moves.recorded] at hold
    obtain hold | ⟨i, messageid, senderid, receiverid, groupid, msgtype, heq, -⟩ :=
      carrying_of_cons hold
    · rw [hx.unique a _ hold hcarrying] at ha
      exact hgone ha
    · rw [heq] at he
      simp [handsOn, publishes] at he
  constructor
  · omega
  · intro a ha
    exact absurd ha (hnobody a)
  · intro a b ha
    exact absurd ha (hnobody a)
  · intro _
    exact payload_moves hs.moves (row_of_carrying h hcarrying)

/-- Any other step passes nothing on. -/
theorem passedOnce_other (h : Steps (cluster E admits) (Config.initial (World.fresh db)) es x)
    (hs : Step (cluster E admits) x e y) (hread : y.view.state.db.ReadsBack)
    (hx : PassedOnce text x.view) (he : ¬ (handsOn text e = true ∨ publishes text e = true)) :
    PassedOnce text y.view := by
  push Not at he
  have hcount : passedOn text y.view.past = passedOn text x.view.past := by
    rw [hs.moves.recorded, passedOn, List.countP_cons, List.countP_cons, if_neg he.1,
      if_neg he.2, passedOn]
    omega
  have hcases : ∀ a, Carrying text a y.view.past → Carrying text a x.view.past ∨
      ∃ j messageid senderid receiverid groupid msgtype, e = .did j (.sql (.insertMessage
        messageid senderid receiverid groupid msgtype text)) true ∧ j.agent = a := by
    intro a ha
    rw [hs.moves.recorded] at ha
    exact carrying_of_cons ha
  constructor
  · rw [hcount]
    exact hx.once
  · intro a ha
    rw [hcount]
    obtain hold | ⟨j, messageid, senderid, receiverid, groupid, msgtype, rfl, -⟩ := hcases a ha
    · exact hx.carried a hold
    · exact (untouched_of_insert h hs hread hx).1
  · intro a b ha hb
    obtain ha | ⟨j, messageid, senderid, receiverid, groupid, msgtype, rfl, rfl⟩ := hcases a ha
    · obtain hb | ⟨j, messageid, senderid, receiverid, groupid, msgtype, rfl, -⟩ := hcases b hb
      · exact hx.unique a b ha hb
      · exact absurd ha ((untouched_of_insert h hs hread hx).2 a)
    · obtain hb | ⟨i, messageid', senderid', receiverid', groupid', msgtype', heq, rfl⟩ := hcases b hb
      · exact absurd hb ((untouched_of_insert h hs hread hx).2 b)
      · cases heq
        rfl
  · intro hpos
    rw [hcount] at hpos
    exact payload_moves hs.moves (hx.stored hpos)

theorem passedOnce (h : Steps (cluster E admits) (Config.initial (World.fresh db)) es x)
    (hread : x.view.state.db.ReadsBack) : PassedOnce text x.view := by
  induction h with
  | done =>
      constructor
      · exact Nat.zero_le 1
      · intro a _
        rfl
      · rintro a b ⟨_, _, ha⟩ -
        cases ha
      · intro hpos
        cases hpos
  | @step x y e es hrun hs ih =>
      have hx := ih (readsBack_moves hs.moves hread)
      by_cases he : handsOn text e = true ∨ publishes text e = true
      · exact passedOnce_passes hrun hs hx he
      · exact passedOnce_other hrun hs hread hx he

/-! ## Once on a connection -/

/-- The text is handed to connection `c` in a chat frame. -/
def handsTo (c : Conn) (text : String) : ClusterEntry → Bool
  | .did _ (.sendTo d s) _ => d = c ∧ s.IsChat ∧ s.payload = text
  | _ => false

/-- In every run a text that reads back gets onto a connection in a chat frame at most
once. -/
theorem handsTo_le_one (h : Steps (cluster E admits) (Config.initial (World.fresh db)) es x)
    (hread : x.view.state.db.ReadsBack) (c : Conn) :
    x.view.past.countP (handsTo c text) ≤ 1 := by
  have hroute : ∀ e ∈ x.view.past, handsTo c text e = true →
      (handsOn text e || relays c.node text e) = true := by
    intro e hmem he
    obtain ⟨newer, older, hpast⟩ := List.append_of_mem hmem
    obtain ⟨_, _, z, z', hbefore, -, hs, -, -⟩ := h.at_entry hpast
    cases e with
    | did j q r =>
        cases q with
        | sendTo d s =>
            obtain ⟨rfl, hchat, htext⟩ := of_decide_eq_true he
            obtain ⟨u, -, -, -, hbound⟩ := found_of_send hbefore hs hchat
            obtain ⟨hnode, -⟩ := passedLogin_of_bound hbefore (fun _ _ => rfl) hbound
            rw [Bool.or_eq_true]
            cases j with
            | redisMessage n channel message =>
                obtain rfl : d.node = n := hnode
                exact .inr (decide_eq_true ⟨rfl, hchat, htext⟩)
            | _ => exact .inl (decide_eq_true ⟨rfl, hchat, htext⟩)
        | _ => cases he
    | _ => cases he
  have hsum : x.view.past.countP (handsTo c text) ≤
      x.view.past.countP (handsOn text) + x.view.past.countP (relays c.node text) :=
    (List.countP_mono_left hroute).trans (countP_or_le _ _ _)
  have honce : passedOn text x.view.past ≤ 1 := (passedOnce h hread).once
  have hrelayed : x.view.past.countP (relays c.node text) ≤ x.view.past.countP (publishes text) :=
    calc x.view.past.countP (relays c.node text)
        ≤ x.view.past.countP (takesUp c.node text) := le_trans (Nat.le_add_right _ _) (relays_le h)
      _ ≤ x.view.past.countP (publishes text) := le_trans (Nat.le_add_right _ _) (takesUp_le h)
  rw [passedOn] at honce
  omega

end Runs
end ChatCluster
