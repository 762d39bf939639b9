import ChatCluster.JsonRoundTrip
import ChatCluster.SendingOrder

/-!
# Draining a backlog

A user with more stored messages than one login hands over logs in again and again, each
time acknowledging what the answer lists. The messages come in the order of their ids and
each of them once, and after enough sessions none is pending. The messages of the other
users stay as they are.
-/
namespace ChatCluster
open CommandProgram KeyedTable

/-! ## What is pending -/

namespace Database

/-- The ids and texts of the messages that user `u` has not acknowledged, by ascending id. -/
def pending (db : Database) (u : ℤ) : List (ℤ × String) :=
  (db.chatMessage.select fun r => r.Unacked u).map fun r => (r.messageId, r.payload)

/-- The messages of all other users. -/
def foreign (db : Database) (u : ℤ) : List MessageRow :=
  db.chatMessage.select fun r => r.receiverId ≠ u

/-- A rewriting of the rows of user `u` leaves the foreign ones alone. -/
theorem foreign_of_map {db db' : Database} {u : ℤ} {f : MessageRow → MessageRow}
    (h : db'.chatMessage.rows = db.chatMessage.rows.map f)
    (hreceiver : ∀ r, (f r).receiverId = r.receiverId)
    (hf : ∀ r ∈ db.chatMessage.rows, r.receiverId ≠ u → f r = r) :
    db'.foreign u = db.foreign u := by
  unfold foreign Table.select
  rw [h, List.filter_map]
  have hfilter : (fun r : MessageRow => decide (r.receiverId ≠ u)) ∘ f =
      fun r => decide (r.receiverId ≠ u) := by
    funext r
    simp only [Function.comp_apply, hreceiver]
  have hsame : ∀ r ∈ db.chatMessage.rows.filter (fun r => decide (r.receiverId ≠ u)), f r = id r := by
    intro r hr
    obtain ⟨hmem, hne⟩ := List.mem_filter.mp hr
    exact hf r hmem (of_decide_eq_true hne)
  rw [hfilter, List.map_congr_left hsame, List.map_id]

theorem pending_of_marked {db db' : Database} {u : ℤ}
    (h : db'.chatMessage.rows = db.chatMessage.rows.map fun r =>
      if r ∈ db.handedOver u then r.markDelivered db.now else r) :
    db'.pending u = db.pending u := by
  unfold pending Table.select
  rw [h, List.filter_map, List.map_map]
  have hfilter : (fun r : MessageRow => decide (r.Unacked u)) ∘
      (fun r => if r ∈ db.handedOver u then r.markDelivered db.now else r) =
      fun r => decide (r.Unacked u) := by
    funext r
    dsimp only [Function.comp_apply]
    split_ifs
    · apply decide_eq_decide.mpr
      rw [MessageRow.Unacked, MessageRow.Unacked, MessageRow.receiverId_markDelivered,
        MessageRow.status_markDelivered_lt]
    · rfl
  rw [hfilter]
  apply List.map_congr_left
  intro r _
  dsimp only [Function.comp_apply]
  split_ifs <;> rfl

theorem foreign_of_marked {db db' : Database} {u : ℤ}
    (h : db'.chatMessage.rows = db.chatMessage.rows.map fun r =>
      if r ∈ db.handedOver u then r.markDelivered db.now else r) :
    db'.foreign u = db.foreign u := by
  apply foreign_of_map h
  · intro r
    split_ifs <;> rfl
  · intro r _ hne
    apply if_neg
    intro hmem
    exact hne (mem_handedOver hmem).2.1

/-- An acknowledgement takes its message off the backlog. -/
theorem pending_ackMessage (db : Database) (messageid u : ℤ) :
    (db.ackMessage messageid u).pending u =
      (db.pending u).filter fun p => p.1 ≠ messageid := by
  have hacked : ∀ r : MessageRow, ¬ (r.ack db.now).Unacked u := fun r h =>
    absurd h.2 (by decide : ¬ MessageStatus.acked < MessageStatus.acked)
  unfold pending Table.select
  simp only [ackMessage, Table.update]
  rw [List.filter_map, List.map_map, List.filter_map, List.filter_filter]
  have hfilter : (fun r : MessageRow => decide (r.Unacked u)) ∘ (fun r =>
        if (decide (r.messageId = messageid) && decide (r.receiverId = u)) = true then
          r.ack db.now else r) =
      fun r => decide (r.messageId ≠ messageid) && decide (r.Unacked u) := by
    funext r
    dsimp only [Function.comp_apply]
    split_ifs with hr
    · simp only [Bool.and_eq_true, decide_eq_true_eq] at hr
      simp [hacked, hr.1]
    · simp only [Bool.and_eq_true, decide_eq_true_eq, not_and] at hr
      by_cases hid : r.messageId = messageid
      · simp [MessageRow.Unacked, hr hid]
      · simp [hid]
  rw [hfilter]
  apply List.map_congr_left
  intro r hr
  obtain ⟨-, hkept⟩ := List.mem_filter.mp hr
  simp only [Bool.and_eq_true, decide_eq_true_eq] at hkept
  dsimp only [Function.comp_apply]
  rw [if_neg (by simp [hkept.1])]

theorem foreign_ackMessage (db : Database) (messageid u : ℤ) :
    (db.ackMessage messageid u).foreign u = db.foreign u := by
  apply foreign_of_map (f := fun r =>
    if (decide (r.messageId = messageid) && decide (r.receiverId = u)) = true then
      r.ack db.now else r) rfl
  · intro r
    split_ifs <;> rfl
  · intro r _ hne
    simp [hne]

theorem pending_congr {db db' : Database} (h : db'.chatMessage = db.chatMessage) (u : ℤ) :
    db'.pending u = db.pending u := by
  rw [pending, pending, h]

theorem foreign_congr {db db' : Database} (h : db'.chatMessage = db.chatMessage) (u : ℤ) :
    db'.foreign u = db.foreign u := by
  rw [foreign, foreign, h]

/-- The texts of the first `1000` messages are the ones a login hands over, when all of
them read as they were stored. -/
theorem handedOver_of_texts {db : Database} {u : ℤ}
    (h : ∀ p ∈ db.pending u, cStr p.2 = p.2 ∧ p.2 ≠ "") :
    (db.handedOver u).map (fun r => cStr r.payload) = ((db.pending u).take 1000).map Prod.snd := by
  have htext : ∀ r ∈ db.chatMessage.select (fun r => r.Unacked u),
      cStr r.payload = r.payload ∧ r.payload ≠ "" := by
    intro r hr
    exact h (r.messageId, r.payload) (List.mem_map_of_mem hr)
  have hall : db.handedOver u = (db.chatMessage.select fun r => r.Unacked u).take 1000 := by
    apply List.filter_eq_self.mpr
    intro r hr
    obtain ⟨hself, hne⟩ := htext r (List.mem_of_mem_take hr)
    rw [hself]
    exact decide_eq_true hne
  rw [hall, pending, ← List.map_take, List.map_map]
  apply List.map_congr_left
  intro r hr
  exact (htext r (List.mem_of_mem_take hr)).1

theorem pending_sorted (db : Database) (u : ℤ) :
    (db.pending u).Pairwise fun a b => a.1 < b.1 :=
  List.pairwise_map.mpr (db.chatMessage.select_sorted _)

end Database

/-! ## The acknowledgements of the client -/

theorem find?_messageid_ackRequest (u : ℤ) (value : Json) :
    (Client.ackRequest u value).find? "messageid" = some value := by
  refine Json.find?_set_self ?_ "messageid" value
  trivial

theorem ListsTexts.unique {response : Json} {texts texts' : List String}
    (h : ListsTexts response texts) (h' : ListsTexts response texts') : texts = texts' := by
  unfold ListsTexts at h h'
  rw [h] at h'
  split_ifs at h' with hnil hnil' hnil'
  · rw [hnil, hnil']
  · have hlist := Json.array.inj (Option.some.inj h')
    exact List.map_injective_iff.mpr (fun _ _ => Json.string.inj) hlist

theorem mem_selectOffline {db : Database} {u : ℤ} {text : String} :
    text ∈ db.selectOffline u ↔ (u, text) ∈ db.offlinemessage := by
  simp [Database.selectOffline]

theorem filter_of_take {α : Type} {l : List α} {n : ℕ} {keep : α → Bool}
    (h : ∀ a ∈ l.take n, keep a = false) : l.filter keep = (l.drop n).filter keep := by
  have htake : (l.take n).filter keep = [] := by
    apply List.filter_eq_nil_iff.mpr
    intro a ha
    simp [h a ha]
  conv_lhs => rw [← List.take_append_drop n l, List.filter_append, htake, List.nil_append]

section Acks
variable [JsonParser]

/-- The frames that the client sends for a list of texts. -/
def Client.acksOf (currentUser : ℤ) (texts : List String) : List Json :=
  texts.flatMap fun text =>
    ((JsonParser.parse text).map (Client.ackMessageIfNeeded currentUser)).getD []

/-- A client that gets through the list sends these frames. -/
theorem showOfflineMessages_acks {u : ℤ} {texts : List String} {acks : List Json}
    (h : Client.showOfflineMessages u texts = some acks) : acks = Client.acksOf u texts := by
  induction texts generalizing acks with
  | nil => exact (Option.some.inj h).symm
  | cons text texts ih =>
      simp only [Client.showOfflineMessages, Client.showOfflineMessage, Option.bind_eq_bind,
        Option.bind_eq_some_iff, Option.pure_def, Option.some.injEq] at h
      obtain ⟨_, ⟨js, hjs, _, -, _, -, rfl⟩, more, hmore, rfl⟩ := h
      rw [ih hmore, Client.acksOf, Client.acksOf, List.flatMap_cons, hjs]
      rfl

theorem mem_acksOf {u : ℤ} {texts : List String} {j : Json} (h : j ∈ Client.acksOf u texts) :
    ∃ value, j = Client.ackRequest u value := by
  obtain ⟨text, -, hj⟩ := List.mem_flatMap.mp h
  cases hjs : JsonParser.parse text with
  | none =>
      rw [hjs] at hj
      exact absurd hj List.not_mem_nil
  | some js =>
      rw [hjs] at hj
      change j ∈ Client.ackMessageIfNeeded u js at hj
      unfold Client.ackMessageIfNeeded at hj
      split at hj
      · next value _ => exact ⟨value, List.mem_singleton.mp hj⟩
      · exact absurd hj List.not_mem_nil

/-- The server reads from the frames the ids that the texts name. -/
theorem acksOf_names {u : ℤ} {texts : List String} {messageid : ℤ} :
    (∃ j ∈ Client.acksOf u texts, getLongLong j "messageid" = some messageid) ↔
      ∃ text ∈ texts, textId? text = some messageid := by
  have hone : ∀ text, (∃ j ∈ ((JsonParser.parse text).map (Client.ackMessageIfNeeded u)).getD [],
      getLongLong j "messageid" = some messageid) ↔ textId? text = some messageid := by
    intro text
    unfold textId?
    cases JsonParser.parse text with
    | none => simp
    | some js =>
        simp only [Option.map_some, Option.getD_some, Option.bind_some, Client.ackMessageIfNeeded]
        cases hvalue : js.find? "messageid" with
        | none => simp [getLongLong, hvalue]
        | some value =>
            simp [getLongLong, hvalue, find?_messageid_ackRequest]
  simp only [Client.acksOf, List.mem_flatMap, ← hone]
  constructor
  · intro h
    rcases h with ⟨j, ⟨text, htext, hj⟩, hid⟩
    exact ⟨text, htext, j, hj, hid⟩
  · intro h
    rcases h with ⟨text, htext, j, hj, hid⟩
    exact ⟨j, ⟨text, htext, hj⟩, hid⟩

end Acks
/-! ## The requests of one session -/

/-- What may happen between two requests of user `u`: the messages and the entries of the
user stay as they are. -/
structure Idles (u : ℤ) (w w' : World) : Prop where
  chatMessage : w'.db.chatMessage = w.db.chatMessage
  offlinemessage : w'.db.offlinemessage = w.db.offlinemessage
  bound : ∀ n, w'.bound n u = w.bound n u

theorem Idles.refl (u : ℤ) (w : World) : Idles u w w := ⟨rfl, rfl, fun _ => rfl⟩

/-- The messages of the others are as before, and the legacy table has gained nothing. -/
structure Spared (u : ℤ) (w w' : World) : Prop where
  foreign : w'.db.foreign u = w.db.foreign u
  legacy : ∀ m ∈ w'.db.offlinemessage, m ∈ w.db.offlinemessage

namespace Spared
variable {u : ℤ} {w w₁ w₂ : World}

theorem refl (u : ℤ) (w : World) : Spared u w w := ⟨rfl, fun _ h => h⟩

theorem trans (h : Spared u w w₁) (h' : Spared u w₁ w₂) : Spared u w w₂ :=
  ⟨h'.foreign.trans h.foreign, fun m hm => h.legacy m (h'.legacy m hm)⟩

theorem of_idles (h : Idles u w w₁) : Spared u w w₁ :=
  ⟨Database.foreign_congr h.chatMessage u, fun _ hm => h.offlinemessage ▸ hm⟩

end Spared

/-- No command of a teardown waits for anything but the lock. -/
theorem step_ofTeardown {j : Job} {P : ℤ → Prop} {c : Command} {w : World}
    (hc : c.OfTeardown P) (hw : Unlocked j.agent.node w) :
    ∃ r w', Calm.Step j c w r w' ∧ Unlocked j.agent.node w' := by
  have hok : ({} : Choice).ok ≠ false := by decide
  have hnode : ∀ {q : NodeOp} {r : q.Answer} {s : NodeState},
      q.exec {} j.agent (w.node j.agent.node) = some (r, s) → s.running = true →
        s.connMutex = none → ∃ r w', Calm.Step j (.node q) w r w' ∧ Unlocked j.agent.node w' := by
    intro q r s hs hrunning hmutex
    refine ⟨r, w.setNode j.agent.node s, ⟨hw.1, {}, fun h => absurd h hok, ?_⟩, ?_⟩
    · rw [exec, hs]
      rfl
    · rw [Unlocked, World.node_setNode_self]
      exact ⟨hrunning, hmutex⟩
  cases hc with
  | check userid conn =>
      refine hnode (r := decide ((w.node j.agent.node).userConnMap.lookup userid = some conn))
        (s := w.node j.agent.node) ?_ hw.1 hw.2
      rw [NodeOp.exec, if_pos hw.2]
  | erase userid =>
      refine hnode (r := ()) (s := { w.node j.agent.node with
        userConnMap := (w.node j.agent.node).userConnMap.erase userid }) ?_ hw.1 hw.2
      rw [NodeOp.exec, if_pos hw.2]
  | redis => exact hnode (s := w.node j.agent.node) rfl hw.1 hw.2
  | unsubscribe userid =>
      exact hnode (s := { w.node j.agent.node with
        subscriptions := (w.node j.agent.node).subscriptions.erase userid }) rfl hw.1 hw.2
  | offline userid => exact ⟨_, _, ⟨hw.1, {}, fun h => absurd h hok, rfl⟩, hw⟩

section Session
variable [JsonParser] {u : ℤ} {conn : Conn} {time : String} {w w' : World}

theorem offlinemessage_handles {E : Environment} {j : Job} (h : Cluster.Handles E w j w')
    {m : ℤ × String} (hm : m ∈ w'.db.offlinemessage) : m ∈ w.db.offlinemessage := by
  obtain ⟨w₁, hstart, hrun⟩ := h
  rw [← Job.db_starts hstart]
  refine hrun.preserves (I := fun v => m ∈ v.db.offlinemessage → m ∈ w₁.db.offlinemessage)
    (Prog.all_true _) ?_ id hm
  intro c v r v' _ hv hkept hm'
  obtain ⟨o, ho⟩ := hv.exec
  exact hkept (offlinemessage_exec ho hm')

/-- A logout leaves the messages alone. -/
theorem chatMessage_loginout {E : Environment} {js : Json} (hmsg : msgType? js = some .loginoutMsg)
    (h : Cluster.Handles E w (.frame conn js time) w') :
    w'.db.chatMessage = w.db.chatMessage := by
  obtain ⟨w₁, ⟨-, -, rfl⟩, hrun⟩ := h
  rw [Job.body, onMessage_eq, hmsg] at hrun
  refine hrun.frame (fun v => v.db.chatMessage)
    (ofTeardown_loginout (P := fun _ => True) fun _ _ => trivial) ?_
  intro c v r v' hc hv
  obtain ⟨o, ho⟩ := hv.exec
  refine chatMessage_exec ?_ ho
  cases hc <;> exact not_false

/-- These requests are handled on a connection one after another. The worlds after each of
them are listed. -/
inductive Served (u : ℤ) (conn : Conn) : World → List Json → List World → World → Prop
  | done {w w' : World} : Idles u w w' → Served u conn w [] [] w'
  | request {w w₁ w₂ w' : World} {j : Json} {js : List Json} {vs : List World} (time : String) :
      Idles u w w₁ → Cluster.Handles .calm w₁ (.frame conn j time) w₂ →
      Served u conn w₂ js vs w' → Served u conn w (j :: js) (w₂ :: vs) w'

/-- One acknowledgement. -/
theorem ack_drains (hl : INT_MIN ≤ u) (hu : u ≤ INT_MAX) {value : Json}
    (hbound : w.bound conn.node u = some conn)
    (h : Cluster.Handles .calm w (.frame conn (Client.ackRequest u value) time) w') :
    w'.db.pending u = ((w.db.pending u).filter fun p =>
        getLongLong (Client.ackRequest u value) "messageid" ≠ some p.1) ∧
      Spared u w w' ∧ w'.bound conn.node u = some conn := by
  have hlegacy : ∀ m ∈ w'.db.offlinemessage, m ∈ w.db.offlinemessage := fun m hm =>
    offlinemessage_handles h hm
  have heq := handles_ackRequest hl hu hbound h
  cases hid : getLongLong (Client.ackRequest u value) "messageid" with
  | none =>
      rw [hid] at heq
      subst heq
      exact ⟨by simp, Spared.refl u _, hbound⟩
  | some messageid =>
      rw [hid] at heq
      subst heq
      refine ⟨?_, ⟨Database.foreign_ackMessage _ _ _, hlegacy⟩, hbound⟩
      dsimp only
      rw [Database.pending_ackMessage]
      apply List.filter_congr
      intro p _
      simp [eq_comm]

/-- The acknowledgements of a session take the messages they name off the backlog. -/
theorem Served.drains (hl : INT_MIN ≤ u) (hu : u ≤ INT_MAX) {acks : List Json} {vs : List World}
    (hacks : ∀ j ∈ acks, ∃ value, j = Client.ackRequest u value)
    (hbound : w.bound conn.node u = some conn)
    (h : Served u conn w (acks ++ [Client.loginoutRequest u]) vs w') :
    w'.db.pending u = ((w.db.pending u).filter fun p =>
        acks.all fun j => getLongLong j "messageid" ≠ some p.1) ∧
      Spared u w w' ∧ ∀ v ∈ vs, v.db.foreign u = w.db.foreign u := by
  induction acks generalizing w vs with
  | nil =>
      cases h with
      | request time hidle hlogout hrest =>
          cases hrest with
          | done hidle' =>
              have hmessages := chatMessage_loginout (msgType?_of_find (t := .loginoutMsg) rfl) hlogout
              have hbefore := Spared.of_idles hidle
              have hspared : Spared u _ _ := ⟨Database.foreign_congr hmessages u,
                fun m hm => offlinemessage_handles hlogout hm⟩
              have hafter := hbefore.trans hspared
              refine ⟨?_, hafter.trans (.of_idles hidle'), ?_⟩
              · rw [Database.pending_congr hidle'.chatMessage, Database.pending_congr hmessages,
                  Database.pending_congr hidle.chatMessage]
                simp
              · intro v hv
                obtain rfl := List.mem_singleton.mp hv
                exact hafter.foreign
  | cons j acks ih =>
      simp only [List.mem_cons, forall_eq_or_imp] at hacks
      obtain ⟨⟨value, rfl⟩, hacks⟩ := hacks
      cases h with
      | @request _ w₁ w₂ _ _ _ vs time hidle hack hrest =>
          have hbound₁ : w₁.bound conn.node u = some conn := (hidle.bound _).trans hbound
          obtain ⟨hpending, hspared, hbound₂⟩ := ack_drains hl hu hbound₁ hack
          obtain ⟨hpending', hspared', hthroughout⟩ := ih hacks hbound₂ hrest
          have hbefore := (Spared.of_idles hidle).trans hspared
          refine ⟨?_, hbefore.trans hspared', ?_⟩
          · rw [hpending', hpending, Database.pending_congr hidle.chatMessage, List.filter_filter]
            apply List.filter_congr
            intro p _
            rw [List.all_cons, Bool.and_comm]
          · intro v hv
            obtain rfl | hv := List.mem_cons.mp hv
            · exact hbefore.foreign
            · exact (hthroughout v hv).trans hbefore.foreign

/-! ## A round -/

/-- The text of a message is as the service stores it, and names the id of its row. -/
structure AsStored (p : ℤ × String) : Prop where
  dumped : ∃ js : Json, p.2 = js.dump
  names : textId? p.2 = some p.1

/-- No row of the legacy table names a pending message. Nothing in the service writes to
this table. -/
def LegacyApart (u : ℤ) (db : Database) : Prop :=
  ∀ text ∈ (db.selectOffline u).map cStr, ∀ p ∈ db.pending u, textId? text ≠ some p.1

/-- User `u` logs in, acknowledges every text of the answer and logs out. The answer lists
`texts` and then the rows of the legacy table. -/
inductive Round (u : ℤ) (w : World) (texts : List String) : List World → World → Prop
  | visit {w₀ w₁ w' : World} {conn : Conn} {js response : Json} {vs : List World}
      (time : String) :
      Idles u w w₀ → msgType? js = some .loginMsg → getInt js "id" = some u →
      Cluster.Handles .calm w₀ (.frame conn js time) w₁ →
      w₁.out conn = w₀.out conn ++ [.json response] → confirmedUser? (.json response) = some u →
      ListsTexts response (texts ++ (w₀.db.selectOffline u).map cStr) →
      Served u conn w₁ (Client.acksOf u (texts ++ (w₀.db.selectOffline u).map cStr) ++
        [Client.loginoutRequest u]) vs w' →
      Round u w texts (w₁ :: vs) w'

theorem AsStored.text {p : ℤ × String} (h : AsStored p) : cStr p.2 = p.2 ∧ p.2 ≠ "" := by
  obtain ⟨js, hjs⟩ := h.dumped
  rw [hjs]
  exact ⟨cStr_dump js, js.dump_ne_empty⟩

/-- A round lists the oldest `1000` messages. They are off the backlog after it, and so are
the messages that the rows of the legacy table name. -/
theorem Round.takes {texts : List String} {vs : List World} (h : Round u w texts vs w')
    (hstored : ∀ p ∈ w.db.pending u, AsStored p) :
    texts = ((w.db.pending u).take 1000).map Prod.snd ∧
      w'.db.pending u = (((w.db.pending u).drop 1000).filter fun p =>
        ∀ text ∈ (w.db.selectOffline u).map cStr, textId? text ≠ some p.1) ∧
      Spared u w w' ∧ ∀ v ∈ vs, v.db.foreign u = w.db.foreign u := by
  cases h with
  | @visit w₀ w₁ _ conn js response vs _ hidle hmsg hid hlogin hout hok hlists hserved =>
      obtain ⟨hover, hbound, -⟩ := handsOver_of_handles hmsg hid hlogin hout hok
      obtain ⟨hl, hu⟩ := getInt_range hid
      have hpending₀ := Database.pending_congr hidle.chatMessage u
      have hoffline : w₀.db.selectOffline u = w.db.selectOffline u := by
        rw [Database.selectOffline, hidle.offlinemessage, Database.selectOffline]
      have hstored₀ : ∀ p ∈ w₀.db.pending u, AsStored p := hpending₀ ▸ hstored
      have htexts : texts = ((w.db.pending u).take 1000).map Prod.snd := by
        have hsame := hlists.unique hover.synchronised.offlinemsg
        rw [← hpending₀, ← Database.handedOver_of_texts fun p hp => (hstored₀ p hp).text]
        exact List.append_cancel_right hsame
      have hspared : Spared u w w₁ := (Spared.of_idles hidle).trans
        ⟨Database.foreign_of_marked hover.marked, fun m hm => offlinemessage_handles hlogin hm⟩
      obtain ⟨hdrained, hspared', hthroughout⟩ :=
        hserved.drains hl hu (fun j hj => mem_acksOf hj) hbound
      rw [Database.pending_of_marked hover.marked, hpending₀, hoffline, filter_of_take] at hdrained
      · refine ⟨htexts, ?_, hspared.trans hspared', ?_⟩
        · rw [hdrained]
          apply List.filter_congr
          intro p hp
          rw [Bool.eq_iff_iff, List.all_eq_true, decide_eq_true_iff]
          constructor
          · intro hkept text htext hnames
            obtain ⟨j, hj, hread⟩ := (acksOf_names (u := u)).mpr
              ⟨text, List.mem_append_right texts htext, hnames⟩
            exact of_decide_eq_true (hkept j hj) hread
          · intro hlegacy j hj
            apply decide_eq_true
            intro hread
            obtain ⟨text, htext, hnames⟩ := acksOf_names.mp ⟨j, hj, hread⟩
            obtain htext | htext := List.mem_append.mp htext
            · -- a text of this round names a message before `p`
              rw [htexts] at htext
              obtain ⟨q, hq, rfl⟩ := List.mem_map.mp htext
              have hsame := (hstored q (List.mem_of_mem_take hq)).names.symm.trans hnames
              have hsorted := w.db.pending_sorted u
              rw [← List.take_append_drop 1000 (w.db.pending u), List.pairwise_append] at hsorted
              exact absurd (Option.some.inj hsame) (hsorted.2.2 q hq p hp).ne
            · exact hlegacy text htext hnames
        · intro v hv
          obtain rfl | hv := List.mem_cons.mp hv
          · exact hspared.foreign
          · exact (hthroughout v hv).trans hspared.foreign
      · intro p hp
        have hmem : p.2 ∈ texts ++ (w.db.selectOffline u).map cStr := by
          rw [htexts]
          exact List.mem_append_left _ (List.mem_map_of_mem hp)
        have hnames := (hstored p (List.mem_of_mem_take hp)).names
        obtain ⟨j, hj, hread⟩ := (acksOf_names (u := u)).mpr ⟨p.2, hmem, hnames⟩
        apply List.all_eq_false.mpr
        exact ⟨j, hj, by simp [hread]⟩

/-- A round takes the oldest `1000` messages off the backlog. -/
theorem Round.drains {texts : List String} {vs : List World} (h : Round u w texts vs w')
    (hstored : ∀ p ∈ w.db.pending u, AsStored p) :
    texts = ((w.db.pending u).take 1000).map Prod.snd ∧
      (w'.db.pending u).Sublist ((w.db.pending u).drop 1000) ∧
      (LegacyApart u w.db → w'.db.pending u = (w.db.pending u).drop 1000) ∧
      Spared u w w' ∧ ∀ v ∈ vs, v.db.foreign u = w.db.foreign u := by
  obtain ⟨htexts, hleft, hspared, hthroughout⟩ := h.takes hstored
  refine ⟨htexts, ?_, ?_, hspared, hthroughout⟩
  · rw [hleft]
    exact List.filter_sublist
  · intro hlegacy
    rw [hleft]
    apply List.filter_eq_self.mpr
    intro p hp
    exact decide_eq_true fun text htext => hlegacy text htext p (List.mem_of_mem_drop hp)

theorem LegacyApart.of_spared {v v' : World} (h : LegacyApart u v.db) (hspared : Spared u v v')
    (hpending : (v'.db.pending u).Sublist (v.db.pending u)) : LegacyApart u v'.db := by
  intro text htext p hp
  obtain ⟨t, ht, rfl⟩ := List.mem_map.mp htext
  have hlegacy := hspared.legacy _ (mem_selectOffline.mp ht)
  exact h _ (List.mem_map_of_mem (mem_selectOffline.mpr hlegacy)) p (hpending.subset hp)

/-! ## All rounds -/

/-- The user goes through `n` rounds. -/
inductive Rounds (u : ℤ) (w : World) : ℕ → List String → List World → World → Prop
  | none : Rounds u w 0 [] [] w
  | more {n : ℕ} {texts texts' : List String} {vs vs' : List World} {w₁ w₂ : World} :
      Rounds u w n texts vs w₁ → Round u w₁ texts' vs' w₂ →
      Rounds u w (n + 1) (texts ++ texts') (vs ++ vs') w₂

/-- What is left after some rounds, and what they have listed. -/
structure Drained (u : ℤ) (w : World) (n : ℕ) (texts : List String) (vs : List World)
    (w' : World) : Prop where
  left : (w'.db.pending u).Sublist ((w.db.pending u).drop (1000 * n))
  listed : (texts ++ (w'.db.pending u).map Prod.snd).Sublist ((w.db.pending u).map Prod.snd)
  exact : LegacyApart u w.db → texts = ((w.db.pending u).take (1000 * n)).map Prod.snd ∧
    w'.db.pending u = (w.db.pending u).drop (1000 * n)
  spared : Spared u w w'
  throughout : ∀ v ∈ vs, v.db.foreign u = w.db.foreign u

theorem Rounds.drained {n : ℕ} {texts : List String} {vs : List World}
    (h : Rounds u w n texts vs w') (hstored : ∀ p ∈ w.db.pending u, AsStored p) :
    Drained u w n texts vs w' := by
  induction h with
  | none =>
      constructor
      · simp
      · simp
      · intro _
        simp
      · exact Spared.refl u w
      · intro v hv
        exact absurd hv List.not_mem_nil
  | @more n texts texts' vs vs' w₁ w₂ hrounds hround ih =>
      have hsublist := ih.left.trans (List.drop_sublist _ _)
      obtain ⟨rfl, hleft, hexact, hspared, hthroughout⟩ :=
        hround.drains fun p hp => hstored p (hsublist.subset hp)
      have hdrop : ((w.db.pending u).drop (1000 * n)).drop 1000 =
          (w.db.pending u).drop (1000 * (n + 1)) := by
        rw [List.drop_drop]
        congr 1
      constructor
      · rw [← hdrop]
        exact hleft.trans (ih.left.drop 1000)
      · rw [List.append_assoc, ← List.map_append]
        refine List.Sublist.trans (List.Sublist.append_left (List.Sublist.map _ ?_) _) ih.listed
        conv_rhs => rw [← List.take_append_drop 1000 (w₁.db.pending u)]
        exact hleft.append_left _
      · intro hlegacy
        obtain ⟨rfl, hpending⟩ := ih.exact hlegacy
        constructor
        · rw [hpending, ← List.map_append]
          congr 1
          rw [Nat.mul_add, List.take_add]
        · rw [hexact (hlegacy.of_spared ih.spared hsublist), hpending, hdrop]
      · exact ih.spared.trans hspared
      · intro v hv
        obtain hv | hv := List.mem_append.mp hv
        · exact ih.throughout v hv
        · exact (hthroughout v hv).trans ih.spared.foreign

/-- A user who goes through enough rounds of login, acknowledgement and logout has no
message left. The answers have listed the backlog in the order of the message ids, each
message once, and the messages of all others have not been touched. -/
theorem backlog_drains {texts : List String} {vs : List World}
    (hstored : ∀ p ∈ w.db.pending u, AsStored p)
    (h : Rounds u w (((w.db.pending u).length + 999) / 1000) texts vs w') :
    (∀ r ∈ w'.db.chatMessage.rows, ¬ r.Unacked u) ∧
      texts.Sublist ((w.db.pending u).map Prod.snd) ∧
      (LegacyApart u w.db → texts = (w.db.pending u).map Prod.snd) ∧
      ∀ v ∈ vs ++ [w'], v.db.foreign u = w.db.foreign u := by
  have hdrained := h.drained hstored
  have hlength : (w.db.pending u).length ≤
      1000 * (((w.db.pending u).length + 999) / 1000) := by omega
  refine ⟨?_, ?_, ?_, ?_⟩
  · have hleft := hdrained.left
    rw [List.drop_eq_nil_of_le hlength, List.sublist_nil, Database.pending, List.map_eq_nil_iff]
      at hleft
    intro r hr hunacked
    have hmem : r ∈ w'.db.chatMessage.select fun r => r.Unacked u :=
      Table.mem_select.mpr ⟨hr, decide_eq_true hunacked⟩
    rw [hleft] at hmem
    exact absurd hmem List.not_mem_nil
  · exact (List.sublist_append_left _ _).trans hdrained.listed
  · intro hlegacy
    rw [(hdrained.exact hlegacy).1, List.take_of_length_le hlength]
  · intro v hv
    obtain hv | hv := List.mem_append.mp hv
    · exact hdrained.throughout v hv
    · obtain rfl := List.mem_singleton.mp hv
      exact hdrained.spared.foreign

/-! ## Rounds run to their end -/

/-- The login `js` of user `u` on this connection can be handled, and passes. -/
structure Ready (u : ℤ) (conn : Conn) (js : Json) (w : World) : Prop where
  unlocked : Unlocked conn.node w
  connected : conn ∉ w.closed
  passes : loginPasses u js (w.db.selectUser u) = true

theorem closed_handles {E : Environment} {js : Json}
    (h : Cluster.Handles E w (.frame conn js time) w') : w'.closed = w.closed := by
  obtain ⟨w₁, ⟨-, -, rfl⟩, hrun⟩ := h
  refine hrun.frame World.closed (Prog.all_true _) ?_
  intro c v r v' _ hv
  obtain ⟨o, ho⟩ := hv.exec
  exact closed_exec ho

/-- A logout on the connection of the user runs to its end and writes `offline`. -/
theorem exists_handles_loginout (time : String) (hl : INT_MIN ≤ u) (hu : u ≤ INT_MAX)
    (hw : Receives u conn w) :
    ∃ w', Cluster.Handles .calm w (.frame conn (Client.loginoutRequest u) time) w' ∧
      Unlocked conn.node w' ∧ w'.db = w.db.updateUserState u .offline := by
  have hid : getInt (Client.loginoutRequest u) "id" = some u := getInt_int rfl hl hu
  obtain ⟨_, w', hrun, hunlocked⟩ := Prog.exists_runs (I := Unlocked conn.node)
    (p := loginout conn (Client.loginoutRequest u))
    (ofTeardown_loginout (P := fun _ => True) fun _ _ => trivial)
    (fun c v hc hv => step_ofTeardown (j := .frame conn (Client.loginoutRequest u) time) hc hv)
    hw.ready
  refine ⟨w', ⟨w, ⟨hw.ready.1, hw.connected, rfl⟩, ?_⟩, hunlocked, ?_⟩
  · rw [Job.body, onMessage_eq, msgType?_of_find (t := .loginoutMsg) rfl]
    exact hrun
  · rw [loginout, hid] at hrun
    obtain ⟨bound, w₁, hcheck, hrest⟩ := Prog.runs_bind.mp hrun
    obtain ⟨hiff, rfl⟩ := Calm.runs_isConnectionBoundToUser hcheck
    rw [if_pos (hiff.mpr hw.bound)] at hrest
    obtain ⟨_, w₂, herase, hclose⟩ := Prog.runs_bind.mp hrest
    obtain ⟨o, s', -, -, rfl⟩ := Calm.runs_node herase
    rw [Calm.runs_closeSession hclose]
    rfl

/-- The acknowledgements and the logout of a session can be handled one after another. -/
theorem exists_served (hl : INT_MIN ≤ u) (hu : u ≤ INT_MAX) {acks : List Json}
    (hacks : ∀ j ∈ acks, ∃ value, j = Client.ackRequest u value) (hw : Receives u conn w) :
    ∃ vs w', Served u conn w (acks ++ [Client.loginoutRequest u]) vs w' ∧
      Unlocked conn.node w' ∧ conn ∉ w'.closed ∧
      w'.db.user = (w.db.updateUserState u .offline).user := by
  induction acks generalizing w with
  | nil =>
      obtain ⟨w', hlogout, hunlocked, hdb⟩ := exists_handles_loginout "" hl hu hw
      refine ⟨[w'], w', .request "" (.refl u w) hlogout (.done (.refl u w')), hunlocked, ?_, ?_⟩
      · rw [closed_handles hlogout]
        exact hw.connected
      · rw [hdb]
  | cons j acks ih =>
      simp only [List.mem_cons, forall_eq_or_imp] at hacks
      obtain ⟨⟨value, rfl⟩, hacks⟩ := hacks
      obtain ⟨w₁, hack⟩ := exists_handles_ackRequest "" hl hu hw value
      have heq := handles_ackRequest hl hu hw.bound hack
      have hnode : w₁.node = w.node := by rw [heq]
      have hw₁ : Receives u conn w₁ := by
        constructor
        · rw [Unlocked, hnode]
          exact hw.ready
        · rw [World.bound, hnode]
          exact hw.bound
        · rw [closed_handles hack]
          exact hw.connected
      obtain ⟨vs, w', hserved, hunlocked, hopen, huser⟩ := ih hacks hw₁
      refine ⟨w₁ :: vs, w', .request "" (.refl u w) hack hserved, hunlocked, hopen, ?_⟩
      have huser₁ : w₁.db.user = w.db.user := by
        rw [heq]
        dsimp only
        split <;> rfl
      rw [huser, Database.updateUserState, Database.updateUserState, huser₁]

/-- A user who can log in goes through a round, and can log in again after it. -/
theorem exists_round {js : Json} (h : Ready u conn js w) :
    ∃ texts vs w', Round u w texts vs w' ∧ Ready u conn js w' := by
  obtain ⟨hmsg, hid, hpwd, hrow, hstate⟩ := of_decide_eq_true h.passes
  obtain ⟨hl, hu⟩ := getInt_range hid
  obtain ⟨w₁, response, hlogin, hout, hok, hover, hunlocked⟩ :=
    exists_handles_login (t := "") hmsg hid h.unlocked h.connected h.passes
  obtain ⟨-, hbound, huser⟩ := handsOver_of_handles hmsg hid hlogin hout hok
  have hopen : conn ∉ w₁.closed := by
    rw [closed_handles hlogin]
    exact h.connected
  obtain ⟨vs, w', hserved, hunlocked', hopen', huser'⟩ :=
    exists_served hl hu (fun j hj => mem_acksOf hj) ⟨hunlocked, hbound, hopen⟩
  refine ⟨_, _, w', .visit "" (.refl u w) hmsg hid hlogin hout hok hover.synchronised.offlinemsg
    hserved, hunlocked', hopen', ?_⟩
  have hselect : w'.db.selectUser u =
      (w.db.selectUser u).map fun r => { r with state := .offline } := by
    have honline : w₁.db.selectUser u = (w.db.updateUserState u .online).selectUser u := by
      rw [Database.selectUser, huser, Database.selectUser]
    rw [Database.selectUser, huser']
    change (w₁.db.updateUserState u .offline).selectUser u = _
    rw [Database.selectUser_updateUserState, honline, Database.selectUser_updateUserState]
    cases w.db.selectUser u <;> simp
  rw [hselect]
  apply decide_eq_true
  refine ⟨hmsg, hid, ?_⟩
  cases hfound : w.db.selectUser u with
  | none =>
      rw [hfound] at hpwd hrow hstate
      exact ⟨hpwd, hrow, hstate⟩
  | some r =>
      rw [hfound] at hpwd hrow
      exact ⟨hpwd, hrow, by simp [User.ofRow]⟩

/-- A user who can log in can go through any number of rounds. -/
theorem exists_rounds {js : Json} (h : Ready u conn js w) (n : ℕ) :
    ∃ texts vs w', Rounds u w n texts vs w' ∧ Ready u conn js w' := by
  induction n with
  | zero => exact ⟨[], [], w, .none, h⟩
  | succ n ih =>
      obtain ⟨texts, vs, w₁, hrounds, hready⟩ := ih
      obtain ⟨texts', vs', w', hround, hready'⟩ := exists_round hready
      exact ⟨_, _, w', .more hrounds hround, hready'⟩

end Session

/-- Two messages for user `2`, who is offline. -/
def waiting : Database :=
  [(1, firstFrame 1), (2, secondFrame 2)].foldl
    (fun db m => ((Statement.insertMessage m.1 1 2 0 EnMsgType.oneChatMsg.code m.2.dump).run db).2)
    (Statement.registered [("ann", "pw"), ("bob", "pw")])

theorem backlog_drains_two : letI := parserOf [firstFrame 1, secondFrame 2]
    ∃ texts vs w', Rounds 2 (World.fresh waiting) 1 texts vs w' ∧
      texts = [(firstFrame 1).dump, (secondFrame 2).dump] ∧
      ∀ r ∈ w'.db.chatMessage.rows, ¬ r.Unacked 2 := by
  let _ := parserOf [firstFrame 1, secondFrame 2]
  have hready : Ready 2 ⟨0, 1⟩ (Client.loginRequest 2 "pw") (World.fresh waiting) :=
    ⟨⟨rfl, rfl⟩, Finset.notMem_empty _, by decide +kernel⟩
  have hpending : (World.fresh waiting).db.pending 2 =
      [(1, (firstFrame 1).dump), (2, (secondFrame 2).dump)] := by decide +kernel
  have hstored : ∀ p ∈ (World.fresh waiting).db.pending 2, AsStored p := by
    rw [hpending]
    intro p hp
    simp only [List.mem_cons, List.not_mem_nil, or_false] at hp
    obtain rfl | rfl := hp
    · exact ⟨⟨_, rfl⟩, by decide +kernel⟩
    · exact ⟨⟨_, rfl⟩, by decide +kernel⟩
  have hnolegacy : (World.fresh waiting).db.selectOffline 2 = [] := by decide +kernel
  have hlegacy : LegacyApart 2 (World.fresh waiting).db := by
    intro text htext
    rw [hnolegacy] at htext
    exact absurd htext List.not_mem_nil
  obtain ⟨texts, vs, w', hrounds, -⟩ := exists_rounds hready 1
  have hlength : (((World.fresh waiting).db.pending 2).length + 999) / 1000 = 1 := by
    rw [hpending]
    rfl
  obtain ⟨hnone, -, htexts, -⟩ := backlog_drains hstored (hlength.symm ▸ hrounds)
  refine ⟨texts, vs, w', hrounds, ?_, hnone⟩
  rw [htexts hlegacy, hpending]
  rfl

/-! ## A message that is not listed -/

/-- Message `i + 1` for user `2`, as `oneChat` stores it. -/
def crowdedRow (i : ℕ) : MessageRow :=
  Statement.newMessage (i + 1) 1 2 0 EnMsgType.oneChatMsg.code (firstFrame (i + 1)).dump

/-- The messages `1` to `n` for user `2`, and an older text in the legacy table that names
the last of them. -/
def crowded (n : ℕ) : Database :=
  { Statement.registered [("ann", "pw"), ("bob", "pw")] with
    chatMessage :=
      { rows := (List.range n).map crowdedRow
        sorted := by
          refine List.pairwise_map.mpr (List.pairwise_lt_range.imp fun h => ?_)
          dsimp only [crowdedRow, Statement.newMessage]
          omega }
    offlinemessage := [(2, (secondFrame n).dump)] }

theorem pending_crowded (n : ℕ) : (crowded n).pending 2 =
    (List.range n).map fun (i : ℕ) => ((i + 1 : ℤ), (firstFrame (i + 1)).dump) := by
  have hall : (crowded n).chatMessage.select (fun r => decide (r.Unacked 2)) =
      (List.range n).map crowdedRow := by
    apply List.filter_eq_self.mpr
    intro r hr
    obtain ⟨i, -, rfl⟩ := List.mem_map.mp hr
    exact decide_eq_true ⟨rfl, (by decide : MessageStatus.created < MessageStatus.acked)⟩
  rw [Database.pending, hall, List.map_map]
  rfl

/-- The parser reads the id back from a chat frame. -/
theorem textId?_chatFrame [Strtod] {js : Json} (hnormal : js.Normal) (hobject : js.IsObject)
    (hmsg : msgType? js = some .oneChatMsg) {messageid : ℤ} (hid : MessageIdRange messageid) :
    textId? (chatFrame js messageid 2).dump = some messageid := by
  have hframe : (chatFrame js messageid 2).Normal := by
    rw [chatFrame, hmsg, if_neg (by decide)]
    exact Parser.normal_set (Parser.normal_set hnormal _ (.integer _)) _ (.boolean true)
  have hparse : JsonParser.parse (chatFrame js messageid 2).dump =
      some (chatFrame js messageid 2) := Parser.parse_dump_of_normal hframe
  rw [textId?, hparse]
  exact getLongLong_int (find?_chatFrame_messageid hobject) hid.1 hid.2

theorem normal_chatRequest [Strtod] (id : ℤ) (name : String) (friendid : ℤ)
    (message time : String) : (Client.chatRequest id name friendid message time).Normal := by
  unfold Client.chatRequest
  refine Parser.normal_set (Parser.normal_set (Parser.normal_set (Parser.normal_set
    (Parser.normal_set (Parser.normal_set .null _ ?_) _ ?_) _ ?_) _ ?_) _ ?_) _ ?_
  · exact .integer _
  · exact .integer _
  · exact .string _
  · exact .integer _
  · exact .string _
  · exact .string _

theorem asStored_crowded [Strtod] {n : ℕ} (hn : n ≤ 1001) :
    ∀ p ∈ (crowded n).pending 2, AsStored p := by
  rw [pending_crowded]
  intro p hp
  obtain ⟨i, hi, rfl⟩ := List.mem_map.mp hp
  have hlt := List.mem_range.mp hi
  refine ⟨⟨_, rfl⟩, textId?_chatFrame (normal_chatRequest _ _ _ _ _) trivial rfl ?_⟩
  unfold MessageIdRange LLONG_MIN LLONG_MAX
  omega

/-- Two rounds of a user whose backlog one round takes away. -/
theorem Rounds.length_of_two [JsonParser] {u : ℤ} {w w' : World} {texts : List String}
    {vs : List World} (h : Rounds u w 2 texts vs w') (hstored : ∀ p ∈ w.db.pending u, AsStored p)
    (hall : ∀ p ∈ (w.db.pending u).drop 1000,
      ∃ text ∈ (w.db.selectOffline u).map cStr, textId? text = some p.1) :
    texts.length = min 1000 (w.db.pending u).length := by
  cases h with
  | @more n texts₁ texts₂ vs₁ vs₂ w₁ w₂ hfirst hsecond =>
  cases hfirst with
  | @more n texts₀ texts₁ vs₀ vs₁ w₀ w₁ hnone hfirst =>
  cases hnone
  obtain ⟨rfl, hleft, -⟩ := hfirst.takes hstored
  have hempty : w₁.db.pending u = [] := by
    rw [hleft]
    apply List.filter_eq_nil_iff.mpr
    intro p hp hkept
    obtain ⟨text, htext, hnames⟩ := hall p hp
    exact of_decide_eq_true hkept text htext hnames
  obtain ⟨rfl, -⟩ := hsecond.takes (by simp [hempty])
  simp [hempty]

/-- The older text names the one message that the first round does not list. -/
theorem named_crowded [Strtod] : ∀ p ∈ ((crowded 1001).pending 2).drop 1000,
    ∃ text ∈ ((crowded 1001).selectOffline 2).map cStr, textId? text = some p.1 := by
  have hsplit : List.range 1001 = List.range 1000 ++ [1000] := List.range_succ
  have hlegacy : (crowded 1001).selectOffline 2 = [(secondFrame 1001).dump] := rfl
  intro p hp
  rw [pending_crowded, hsplit, List.map_append, List.drop_left' (by simp)] at hp
  obtain rfl := List.mem_singleton.mp hp
  refine ⟨(secondFrame 1001).dump, ?_, ?_⟩
  · rw [hlegacy, List.map_singleton, cStr_dump]
    exact List.mem_singleton.mpr rfl
  · exact textId?_chatFrame (normal_chatRequest _ _ _ _ _) trivial rfl ⟨by decide, by decide⟩

/-- The rounds empty the backlog, but the text of message `1001` is never listed as that of
a stored message: the client has acknowledged the message before its turn. -/
theorem backlog_omits : letI : Strtod := Parser.noDoubles
    (∀ p ∈ (crowded 1001).pending 2, AsStored p) ∧
      ¬ ∀ texts vs w', Rounds 2 (World.fresh (crowded 1001))
        ((((crowded 1001).pending 2).length + 999) / 1000) texts vs w' →
          texts = ((crowded 1001).pending 2).map Prod.snd := by
  let _ : Strtod := Parser.noDoubles
  have hlength : ((crowded 1001).pending 2).length = 1001 := by
    rw [pending_crowded, List.length_map, List.length_range]
  refine ⟨asStored_crowded le_rfl, fun h => ?_⟩
  have hready : Ready 2 ⟨0, 1⟩ (Client.loginRequest 2 "pw") (World.fresh (crowded 1001)) :=
    ⟨⟨rfl, rfl⟩, Finset.notMem_empty _, by decide +kernel⟩
  obtain ⟨texts, vs, w', hrounds, -⟩ := exists_rounds hready 2
  have hlisted := congrArg List.length (h texts vs w' (by rw [hlength]; exact hrounds))
  have hshort : texts.length = min 1000 ((crowded 1001).pending 2).length :=
    hrounds.length_of_two (asStored_crowded le_rfl) named_crowded
  rw [List.length_map] at hlisted
  omega

end ChatCluster
