import ChatCluster.Copies
import ChatCluster.DeliveryRoutes

/-!
# The lookup behind a chat frame

A chat frame is handed over under the lock under which its receiver has been looked up, and
the lock keeps everybody from binding in between. So the schedule of a live delivery is that
of its lookup: it belongs to the session in which the receiver is found, and the message has
been stored before.
-/
namespace ChatCluster
open CommandProgram Interleaving

def bindsTo (u : ℤ) (c : Conn) : ClusterEntry → Bool
  | .did _ (.node (.mapBind v d)) _ => v = u ∧ d = c
  | _ => false

theorem bindsTo_eq_false {u : ℤ} {c : Conn} {e : ClusterEntry}
    (h : ∀ j r, e ≠ .did j (.node (.mapBind u c)) r) : bindsTo u c e = false := by
  cases e with
  | did j q r =>
      cases q with
      | node q =>
          cases q with
          | mapBind v d =>
              apply decide_eq_false
              rintro ⟨rfl, rfl⟩
              exact h j r rfl
          | _ => rfl
      | _ => rfl
  | _ => rfl

/-! ## Lookups and queries in the history -/

/-- The job has stored this text for user `u` since it was started. -/
def HasStored (j : Job) (u : ℤ) (text : String) (past : List ClusterEntry) : Prop :=
  ∃ later messageid senderid groupid msgtype older, past = later ++ .did j (.sql
    (.insertMessage messageid senderid u groupid msgtype text)) true :: older ∧ .started j ∉ later

/-- The job has this text to deliver to user `u`: the observer has been started for it, and
any other job has stored it. -/
def CarriesFor (u : ℤ) (text : String) (past : List ClusterEntry) : Job → Prop
  | .redisMessage _ channel message => channel = u ∧ message = text
  | j => HasStored j u text past

/-- User `u` has been looked up for this text since the latest binding to `c`, and `c` has
been found. -/
def LookedUp (u : ℤ) (c : Conn) (text : String) (past : List ClusterEntry) : Prop :=
  ∃ later j older, past = later ++ .did j (.node (.mapFind u)) (some c) :: older ∧
    CarriesFor u text older j ∧ ∀ e ∈ later, bindsTo u c e = false

/-- The login of user `u` on `c` has made its query since the latest binding, when the text
had been stored. -/
def QueriedStored (u : ℤ) (c : Conn) (text : String) (past : List ClusterEntry) : Prop :=
  ∃ later j limit rows older, past = later ++ .did j (.sql (.selectUnacked u limit)) rows :: older ∧
    j.agent = .io c ∧ FromStored older u text ∧ ∀ e ∈ later, bindsTo u c e = false

section History
variable {u : ℤ} {c : Conn} {text : String} {past : List ClusterEntry}

/-- A text that is not stored from the lookup on has been stored before it. -/
theorem HasStored.before {j : Job} {v : ℤ} {found : Option Conn} {since older : List ClusterEntry}
    (h : HasStored j u text (since ++ .did j (.node (.mapFind v)) found :: older))
    (hnot : ∀ messageid senderid receiverid groupid msgtype payload ok, .did j (.sql (.insertMessage
      messageid senderid receiverid groupid msgtype payload)) ok ∉ since) :
    HasStored j u text older := by
  obtain ⟨later, messageid, senderid, groupid, msgtype, rest, hpast, hlater⟩ := h
  obtain ⟨l, rfl, rfl⟩ | ⟨he, -⟩ | ⟨l, rfl, -⟩ := split_cases hpast
  · refine ⟨l, messageid, senderid, groupid, msgtype, rest, rfl, fun hmem => hlater ?_⟩
    exact List.mem_append_right _ (List.mem_cons_of_mem _ hmem)
  · cases he
  · exact (hnot _ _ _ _ _ _ _ (List.mem_append_right _ List.mem_cons_self)).elim

theorem FromStored.append (h : FromStored past u text) (later : List ClusterEntry) :
    FromStored (later ++ past) u text := by
  induction later with
  | nil => exact h
  | cons e later ih => exact ih.cons e

theorem LookedUp.append (h : LookedUp u c text past) {later : List ClusterEntry}
    (hlater : ∀ e ∈ later, bindsTo u c e = false) : LookedUp u c text (later ++ past) := by
  obtain ⟨since, j, older, rfl, hcarries, hsince⟩ := h
  refine ⟨later ++ since, j, older, by simp, hcarries, fun e he => ?_⟩
  obtain he | he := List.mem_append.mp he
  · exact hlater e he
  · exact hsince e he

end History
/-! ## The runs -/

section Runs
variable [JsonParser] {E : Environment} {admits : ClusterView → ClusterEntry → Prop} {db : Database}
  {es : List ClusterEntry} {x y : ClusterConfig} {e : ClusterEntry} {u : ℤ} {c : Conn}
  {text : String}

theorem hasStored_of_custody (h : Steps (cluster E admits) (Config.initial (World.fresh db)) es x)
    {j : Job} (hj : (x.slot j.agent).last = some j) {messageid : ℤ}
    (hm : (custody j.agent x.view.past).stored = some (messageid, u, text)) :
    HasStored j u text x.view.past ∧ FromStored x.view.past u text := by
  obtain ⟨since, q, r, older, hpast, hstart, hnot, hnext⟩ := h.current_gained
    (D := fun m : Custody => m.stored = some (messageid, u, text)) hj (by simp) hm
  obtain ⟨senderid, groupid, msgtype, he⟩ := stored_of_next (j := j) hnot hnext
  rw [he] at hpast
  refine ⟨⟨since, messageid, senderid, groupid, msgtype, older, hpast, hstart⟩, ?_⟩
  have hmem : .did j (.sql (.insertMessage messageid senderid u groupid msgtype text)) true
      ∈ x.view.past := by
    rw [hpast]
    simp
  obtain ⟨_, js, _, -, hchat⟩ := storedChat_of_recorded (hostile_steps h) hmem
  exact ⟨js, messageid, hchat⟩

/-- A chat frame is handed to `c` in a session in which its receiver has been looked up. -/
theorem lookedUp_of_sent (h : Steps (cluster E admits) (Config.initial (World.fresh db)) es x)
    {j : Job} {s : Sent} {r : Unit} (hs : Step (cluster E admits) x (.did j (.sendTo c s) r) y)
    (hchat : s.IsChat) :
    ∃ u, LookedUp u c s.payload x.view.past ∧ FromStored x.view.past u s.payload := by
  have hw : ∀ n u, (World.fresh db).bound n u = none := fun _ _ => rfl
  have hj : (x.slot j.agent).last = some j := h.job_of_step hs rfl (by simp)
  obtain ⟨u, hlooked, hcarries, -, hbound⟩ := found_of_send h hs hchat
  obtain ⟨hnode, -⟩ := passedLogin_of_bound h hw hbound
  obtain ⟨since, older, hpast, hnobind, hnostore⟩ :=
    lookup_since h hj (allows_of_step h hs hchat).1 hlooked
  have hsession : ∀ e ∈ since, bindsTo u c e = false := by
    intro e he
    apply bindsTo_eq_false
    rintro i r' rfl
    obtain ⟨newer, rest, rfl⟩ := List.append_of_mem he
    obtain ⟨_, _, _, rfl, -⟩ := login_of_bind h (hpast.trans (List.append_assoc ..))
    exact hnobind _ u c r' he hnode
  have hcarried : CarriesFor u s.payload older j ∧ FromStored x.view.past u s.payload := by
    cases j with
    | redisMessage n channel message =>
        obtain ⟨rfl, rfl, -⟩ := hcarries
        exact ⟨⟨rfl, rfl⟩, (fromStored_of_inbox (hostile_steps h)).2 n channel message
          (h.started_of_last hj).2⟩
    | _ =>
        obtain ⟨messageid, hm, -⟩ := hcarries
        obtain ⟨hstored, hfrom⟩ := hasStored_of_custody (j := _) h hj hm
        rw [hpast] at hstored
        exact ⟨hstored.before hnostore, hfrom⟩
  exact ⟨u, ⟨since, j, older, hpast, hcarried.1, hsession⟩, hcarried.2⟩

/-! ## Stored before a row is read -/

/-- Who a stored text is for, by any row with this text. -/
theorem FromStored.receiver (h : Steps (cluster E admits) (Config.initial (World.fresh db)) es x)
    (hread : x.view.state.db.ReadsBack) (hstored : FromStored x.view.past u text) {r : MessageRow}
    (hr : r ∈ x.view.state.db.chatMessage.rows) (htext : cStr r.payload = cStr text) :
    r.receiverId = u := by
  obtain ⟨js, messageid, hchat⟩ := hstored
  obtain ⟨r', hr', -, hreceiver, hpayload⟩ := hchat.row (hostile_steps h)
  rw [hread.eq hr hr' (by rw [htext, hpayload])]
  exact hreceiver

/-- A text that has a row has been stored already, if it is stored at all. -/
theorem FromStored.earlier (hs : Step (cluster E admits) x e y) (hread : y.view.state.db.ReadsBack)
    (hstored : FromStored y.view.past u text) {r : MessageRow}
    (hr : r ∈ x.view.state.db.chatMessage.rows) (htext : cStr r.payload = cStr text) :
    FromStored x.view.past u text := by
  obtain ⟨js, messageid, conn, time, senderid, groupid, msgtype, hmem⟩ := hstored
  rw [hs.moves.recorded] at hmem
  obtain rfl | hmem := List.mem_cons.mp hmem
  · obtain ⟨-, o, -, ho⟩ := hs.moves.effect
    obtain ⟨r', hr', hpersists, -⟩ := row_moves hs.moves hr
    have hsame := hread.eq hr' (newMessage_exec ho) (by rw [hpersists.payload, htext]; rfl)
    have hid : r'.messageId = messageid := by rw [hsame]; rfl
    exact absurd (hpersists.messageId.symm.trans hid) (fresh_of_insertMessage ho r hr)
  · exact ⟨js, messageid, conn, time, senderid, groupid, msgtype, hmem⟩

theorem FromStored.before (h : Steps (cluster E admits) x es y)
    (hread : y.view.state.db.ReadsBack) (hstored : FromStored y.view.past u text) {r : MessageRow}
    (hr : r ∈ x.view.state.db.chatMessage.rows) (htext : cStr r.payload = cStr text) :
    FromStored x.view.past u text := by
  induction h with
  | done => exact hstored
  | @step y z e es hrun hs ih =>
      obtain ⟨r', hr', hpersists, -⟩ := persists_of_steps (hostile_steps hrun) hr
      apply ih (readsBack_moves hs.moves hread)
      exact hstored.earlier hs hread hr' (by rw [hpersists.payload, htext])

end Runs
end ChatCluster
