import ChatCluster.MessageContract
import ChatCluster.Handover

/-!
# The contract between senders and a login

Senders deliver to a user who is offline while the user logs in. A sender stores its
message and then looks for the user, first in its own map and then in the user table;
a login binds, subscribes and writes `online` before it reads what is stored. What a
message can rely on in between is said by `Covered`.
-/
namespace ChatCluster
open CommandProgram Interleaving

/-! ## The runs considered -/

/-- Storing or marking a message may fail, nothing else does. -/
def Environment.storeMayFail : Environment where
  mayFail := fun _ c => c.WritesMessages
  mayDisturb := fun _ _ => False

/-- The connection on which a login of `u` passes its check by reading this row. -/
def Job.passesOn? (u : ℤ) (row : Option UserRow) : Job → Option Conn
  | .frame conn js _ => if loginPasses u js row then some conn else none
  | _ => none

/-- The answer of the command is one that a run considered may have. -/
def wakeUpCommand (u : ℤ) (c : Conn) (j : Job) : (q : Command) → Response q → Bool
  | .sql (.selectUser id), row => decide (id = u → ∀ d ∈ j.passesOn? u row, d = c)
  | .sql (.ackMessage _ id), _ => decide (id ≠ u)
  | .node (.mapErase id), _ => decide (id ≠ u)
  | .node (.mapEraseConn _), (erased : Option ℤ) => decide (erased ≠ some u)
  | _, _ => true

/-- Whoever logs in as `u` does so on connection `c`. Nobody tears the session down or
acknowledges a message for `u`, no process is shut down and no handler is stopped. -/
def WakeUpEntry (u : ℤ) (c : Conn) : ClusterEntry → Prop
  | .started (.sigint _) => False
  | .started _ => True
  | .did j q r => wakeUpCommand u c j q r = true
  | .aborted _ => False
  | .disturbed => True

def WakeUp (u : ℤ) (c : Conn) (v : ClusterView) (e : ClusterEntry) : Prop :=
  ∀ f ∈ e :: v.past, WakeUpEntry u c f

instance (u : ℤ) (c : Conn) : DecidablePred (WakeUpEntry u c)
  | .started (.sigint _) | .aborted _ => isFalse not_false
  | .started (.frame _ _ _) | .started (.close _) | .started (.redisMessage _ _ _)
  | .disturbed => isTrue trivial
  | .did _ _ _ => inferInstanceAs (Decidable (_ = _))

theorem wakeUp_rules (u : ℤ) (c : Conn) :
    SessionRules u .free True .storeMayFail (WakeUp u c) where
  sqlOk _ q hq h := by
    cases q with
    | insertMessage | markDelivered | ackMessage => exact hq.elim id id
    | _ => exact h
  redisOk _ _ _ h := h
  undisturbed _ _ _ h := h
  noAbort _ _ h := h _ List.mem_cons_self
  noSignal _ _ h := h _ List.mem_cons_self
  noOverlap v conn js time row hapart h hpass := by
    have hconn : conn = c := of_decide_eq_true (h _ List.mem_cons_self) rfl conn (if_pos hpass)
    by_contra hpending
    rw [Bool.not_eq_false] at hpending
    obtain ⟨d, hd⟩ : ∃ d, (phase u .free v.past).owner = some d := by
      match phase u .free v.past, hpending with
      | .claimed d, _ => exact ⟨d, rfl⟩
      | .bound d, _ => exact ⟨d, rfl⟩
    obtain ⟨js', time', row', hmem, hpass'⟩ | ⟨hnone, -⟩ :=
      claimed_of_holder (Phase.holder_of_owner hd)
    · have hd' : d = c :=
        of_decide_eq_true (h _ (List.mem_cons_of_mem _ hmem)) rfl d (if_pos hpass')
      exact hapart (by rw [hd, hd', hconn])
    · cases hnone

/-! ## Phases on the way to a session -/

/-- The cycle has not got beyond an active session on `c`. -/
def Phase.OpeningOn (c : Conn) : Phase → Prop
  | free => True
  | claimed d | bound d | opened d | active d => d = c
  | closing _ => False

section Phases
variable {u : ℤ} {c d : Conn} {e : ClusterEntry} {p p' : Phase}

theorem Phase.OpeningOn.binding (h : p.OpeningOn c) (hd : p.binding = some d) : d = c := by
  cases p <;> cases hd <;> exact h

theorem Phase.OpeningOn.established (h : p.OpeningOn c) (hon : p.userState = .online) :
    p.established = some c := by
  cases p with
  | opened | active => exact congrArg some h
  | closing => exact h.elim
  | free | claimed | bound => cases hon

theorem Phase.online_of_established (h : p.established = some c) : p.userState = .online := by
  cases p <;> first | rfl | cases h

theorem openingOn_of_turn (he : WakeUpEntry u c e) (ht : Phase.Turn u d e p p')
    (h : p.OpeningOn c) : p'.OpeningOn c := by
  cases ht with
  | claim js time row hpass => exact of_decide_eq_true he rfl d (if_pos hpass)
  | bind | online | answer => exact h
  | erase => exact (of_decide_eq_true he rfl).elim
  | eraseConn => exact (of_decide_eq_true he rfl).elim
  | offline => exact h.elim

theorem established_of_turn (he : WakeUpEntry u c e) (ht : Phase.Turn u d e p p')
    (h : p.established = some c) : p'.established = some c := by
  cases ht with
  | answer => exact h
  | erase => exact (of_decide_eq_true he rfl).elim
  | eraseConn => exact (of_decide_eq_true he rfl).elim
  | _ => cases h

theorem binding_of_turn (he : WakeUpEntry u c e) (ht : Phase.Turn u d e p p')
    (h : p.binding = some c) : p'.binding = some c := by
  cases ht with
  | online | answer => exact h
  | erase => exact (of_decide_eq_true he rfl).elim
  | eraseConn => exact (of_decide_eq_true he rfl).elim
  | _ => cases h

end Phases

/-! ## Where a message is -/

/-- The message has been handed to connection `c` as a frame. -/
def Live (c : Conn) (w : World) (text : String) : Prop :=
  (∃ js : Json, .json js ∈ w.out c ∧ js.dump = text) ∨ .raw text ∈ w.out c

/-- The observer of the node of `c` has taken the message up while `u` was bound to `c`. -/
def TakenUp (u : ℤ) (c : Conn) (past : List ClusterEntry) (text : String) : Prop :=
  ∃ later earlier, past = later ++ .started (.redisMessage c.node u text) :: earlier ∧
    (phase u .free earlier).binding = some c

/-- The message has reached the node of `c` over Redis, and it finds `u` bound to `c`. -/
def Arrived (u : ℤ) (c : Conn) (v : ClusterView) (text : String) : Prop :=
  (u, text) ∈ (v.state.node c.node).inbox ∧ (phase u .free v.past).binding = some c ∨
    TakenUp u c v.past text

/-- A login of `u` has read its stored messages. -/
def Queried (u : ℤ) (past : List ClusterEntry) : Prop :=
  ∃ j rows, .did j (.sql (.selectUnacked u 1000)) rows ∈ past

/-- The message is stored and not acknowledged, and no login has missed it. -/
structure Backlogged (u : ℤ) (v : ClusterView) (text : String) : Prop where
  stored : ∃ r ∈ v.state.db.chatMessage.rows, r.Unacked u ∧ r.payload = text
  read : ∀ j (rows : List MessageRow), .did j (.sql (.selectUnacked u 1000)) rows ∈ v.past →
    ∃ r ∈ rows, r.payload = text

/-- There are more unacknowledged messages than a login reads. -/
def Overflow (u : ℤ) (db : Database) : Prop :=
  1000 < (db.chatMessage.select fun r => r.Unacked u).length

def Covered (u : ℤ) (c : Conn) (v : ClusterView) (text : String) : Prop :=
  Live c v.state text ∨ Arrived u c v text ∨ Backlogged u v text ∨ Overflow u v.state.db

/-- The texts that a login of `u` has read are in a confirmation of it on `c`. -/
def AnsweredOn (u : ℤ) (c : Conn) (w : World) (rows : List MessageRow) : Prop :=
  ∀ r ∈ rows, cStr r.payload ≠ "" → ∃ response texts, .json response ∈ w.out c ∧
    confirmedUser? (.json response) = some u ∧
    response.find? "offlinemsg" = some (Json.strings texts) ∧ cStr r.payload ∈ texts

/-! ## The contract -/

/-- What a job promises: only the login on `c` reads the stored messages of `u`, and it
does so after it has written `online` and before it answers. What is stored is the text
of an object. -/
def WakeUpMay (u : ℤ) (c : Conn) (j : Job) (v : ClusterView) : Command → Prop
  | .sql (.insertMessage _ _ id _ _ text) => id = u → ∃ js : Json, js.IsObject ∧ text = js.dump
  | .sql (.selectUnacked id _) =>
      id = u → j.agent = .io c ∧ (phase u .free v.past).established = some c
  | .sendTo _ s => confirmedUser? s = some u → Queried u v.past
  | _ => True

structure WakeUpInv (u : ℤ) (c : Conn) (v : ClusterView) : Prop where
  opening : (phase u .free v.past).OpeningOn c
  queried : Queried u v.past → (phase u .free v.past).established = some c
  answered : ∀ j d s, .did j (.sendTo d s) () ∈ v.past → confirmedUser? s = some u →
    Queried u v.past
  texts : ∀ j messageid senderid groupid msgtype text r,
    .did j (.sql (.insertMessage messageid senderid u groupid msgtype text)) r ∈ v.past →
      ∃ js : Json, js.IsObject ∧ text = js.dump

def wakeUpContract (u : ℤ) (c : Conn) : Contract World Job Command Response where
  inv := WakeUpInv u c
  may := WakeUpMay u c

section Moves
variable [JsonParser] {u : ℤ} {c : Conn} {v v' : ClusterView} {e : ClusterEntry} {text : String}

/-- The runs considered, in which the session contract of `u` is known to hold. -/
abbrev wakeUpCluster (u : ℤ) (c : Conn) : Machine World Job Agent Command Response :=
  (cluster .storeMayFail (WakeUp u c)).restrict fun v e =>
    (sessionContract u .free True).inv v ∧ (sessionContract u .free True).Promised v e

theorem phaseHolds_of_moves (hm : Moves (wakeUpCluster u c) v e v') :
    PhaseHolds u True (phase u .free v.past) v.state := hm.of_restrict.2.1

theorem entry_of_moves (hm : Moves (wakeUpCluster u c) v e v') : WakeUpEntry u c e :=
  hm.of_restrict.1.admitted e List.mem_cons_self

/-- Phases move on as their turns do. -/
theorem phase_moves {P : Phase → Prop} (hP : ∀ d e p p', WakeUpEntry u c e →
    Phase.Turn u d e p p' → P p → P p') (hm : Moves (wakeUpCluster u c) v e v')
    (h : P (phase u .free v.past)) : P (phase u .free v'.past) := by
  obtain ⟨hm, hv, hp⟩ := hm.of_restrict
  obtain hsame | ⟨d, -, hturn⟩ := (phaseStep_of_moves (wakeUp_rules u c) hv hm hp).turn
  · rwa [hsame]
  · exact hP d e _ _ (hm.admitted e List.mem_cons_self) hturn h

theorem established_moves (hm : Moves (wakeUpCluster u c) v e v')
    (h : (phase u .free v.past).established = some c) :
    (phase u .free v'.past).established = some c :=
  phase_moves (P := fun p => p.established = some c) (fun _ _ _ _ => established_of_turn) hm h

theorem binding_moves (hm : Moves (wakeUpCluster u c) v e v')
    (h : (phase u .free v.past).binding = some c) : (phase u .free v'.past).binding = some c :=
  phase_moves (P := fun p => p.binding = some c) (fun _ _ _ _ => binding_of_turn) hm h

/-- A command that does not write messages succeeds. -/
theorem exec_of_moves {j : Job} {q : Command} {r : Response q}
    (hm : Moves (wakeUpCluster u c) v (.did j q r) v') :
    ∃ o : Choice, (¬ q.WritesMessages → o.ok = true) ∧
      exec o j.agent q v.state = some (r, v'.state) := by
  obtain ⟨-, o, hok, ho⟩ := hm.of_restrict.1.effect
  exact ⟨o, fun hq => by simpa using mt hok hq, ho⟩

theorem not_disturbed (hm : Moves (wakeUpCluster u c) v .disturbed v') : False :=
  hm.of_restrict.1.effect.1

/-! ## Where a message stays -/

theorem out_moves (hm : Moves (wakeUpCluster u c) v e v') {d : Conn} {s : Sent}
    (hs : s ∈ v.state.out d) : s ∈ v'.state.out d := by
  cases e with
  | started j => rwa [Job.out_starts hm.of_restrict.1.effect]
  | did j q r =>
      obtain ⟨o, -, ho⟩ := exec_of_moves hm
      exact out_exec ho hs
  | aborted j => exact (entry_of_moves hm).elim
  | disturbed => exact (not_disturbed hm).elim

theorem live_moves (hm : Moves (wakeUpCluster u c) v e v') (h : Live c v.state text) :
    Live c v'.state text :=
  h.imp (fun ⟨js, hmem, hdump⟩ => ⟨js, out_moves hm hmem, hdump⟩) (out_moves hm)

theorem takenUp_moves (hm : Moves (wakeUpCluster u c) v e v') (h : TakenUp u c v.past text) :
    TakenUp u c v'.past text := by
  obtain ⟨later, earlier, hpast, hbinding⟩ := h
  refine ⟨e :: later, earlier, ?_, hbinding⟩
  rw [hm.recorded, hpast, List.cons_append]

theorem takenUp_of_moves (hm : Moves (wakeUpCluster u c) v e v') (h : TakenUp u c v'.past text) :
    TakenUp u c v.past text ∨ e = .started (.redisMessage c.node u text) ∧
      (phase u .free v.past).binding = some c := by
  obtain ⟨later, earlier, hpast, hbinding⟩ := h
  rw [hm.recorded] at hpast
  cases later with
  | nil =>
      obtain ⟨rfl, rfl⟩ := List.cons.inj hpast
      exact .inr ⟨rfl, hbinding⟩
  | cons f later => exact .inl ⟨later, earlier, (List.cons.inj hpast).2, hbinding⟩

theorem arrived_moves (hm : Moves (wakeUpCluster u c) v e v') (h : Arrived u c v text) :
    Arrived u c v' text := by
  rcases h with ⟨hmem, hbinding⟩ | htaken
  · cases e with
    | started j =>
        obtain hmem | hj := inbox_of_starts hm.of_restrict.1.effect hmem
        · exact .inl ⟨hmem, binding_moves hm hbinding⟩
        · refine .inr ⟨[], v.past, ?_, hbinding⟩
          rw [hm.recorded, hj]
          rfl
    | did j q r =>
        obtain ⟨o, -, ho⟩ := exec_of_moves hm
        exact .inl ⟨mem_inbox_exec ho hmem, binding_moves hm hbinding⟩
    | aborted j => exact (entry_of_moves hm).elim
    | disturbed => exact (not_disturbed hm).elim
  · exact .inr (takenUp_moves hm htaken)

/-- A stored message of `u` stays stored and unacknowledged. -/
theorem unacked_moves (hm : Moves (wakeUpCluster u c) v e v') {r : MessageRow}
    (hr : r ∈ v.state.db.chatMessage.rows) (hunacked : r.Unacked u) :
    ∃ r' ∈ v'.state.db.chatMessage.rows, r.Persists r' ∧ r'.Unacked u := by
  obtain ⟨r', hr', hpersists, hst⟩ := row_moves hm.of_restrict.1 hr
  refine ⟨r', hr', hpersists, hpersists.receiverId.trans hunacked.1, ?_⟩
  refine (hst hunacked.2).resolve_right fun hacks => ?_
  cases e with
  | did j q x =>
      obtain rfl : q = .sql (.ackMessage r.messageId r.receiverId) := hacks
      exact of_decide_eq_true (entry_of_moves hm) hunacked.1
  | _ => exact hacks

theorem overflow_moves (hm : Moves (wakeUpCluster u c) v e v') (h : Overflow u v.state.db) :
    Overflow u v'.state.db := by
  have hids : ((v.state.db.chatMessage.select fun r => r.Unacked u).map MessageRow.messageId)
      ⊆ (v'.state.db.chatMessage.select fun r => r.Unacked u).map MessageRow.messageId := by
    intro id hid
    obtain ⟨r, hr, rfl⟩ := List.mem_map.mp hid
    obtain ⟨hr, hunacked⟩ := KeyedTable.Table.mem_select.mp hr
    obtain ⟨r', hr', hpersists, hunacked'⟩ := unacked_moves hm hr (of_decide_eq_true hunacked)
    refine List.mem_map.mpr ⟨r', ?_, hpersists.messageId⟩
    exact KeyedTable.Table.mem_select.mpr ⟨hr', decide_eq_true hunacked'⟩
  have hnodup : ((v.state.db.chatMessage.select fun r => r.Unacked u).map
      MessageRow.messageId).Nodup :=
    List.pairwise_map.mpr ((v.state.db.chatMessage.select_sorted _).imp fun h => ne_of_lt h)
  have hle := hnodup.length_le_of_subset hids
  rw [List.length_map, List.length_map] at hle
  exact lt_of_lt_of_le h hle

/-- What a login reads, unless there is too much of it. -/
theorem mem_of_query (hm : Moves (wakeUpCluster u c) v e v') {j : Job} {rows : List MessageRow}
    (he : e = .did j (.sql (.selectUnacked u 1000)) rows) {r : MessageRow}
    (hr : r ∈ v.state.db.chatMessage.rows) (hunacked : r.Unacked u) :
    r ∈ rows ∨ Overflow u v.state.db := by
  subst he
  obtain ⟨o, hok, ho⟩ := exec_of_moves hm
  obtain ⟨hrows, -⟩ := exec_sql ho
  rw [hok not_false] at hrows
  obtain rfl : rows = v.state.db.selectUnacked u 1000 := hrows
  rcases Nat.lt_or_ge 1000 (v.state.db.chatMessage.select fun r => r.Unacked u).length with hlt | hle
  · exact .inr hlt
  · refine .inl ?_
    rw [Database.selectUnacked, List.take_of_length_le hle]
    exact KeyedTable.Table.mem_select.mpr ⟨hr, decide_eq_true hunacked⟩

theorem backlogged_moves (hm : Moves (wakeUpCluster u c) v e v') (h : Backlogged u v text) :
    Backlogged u v' text ∨ Overflow u v'.state.db := by
  obtain ⟨r, hr, hunacked, htext⟩ := h.stored
  obtain ⟨r', hr', hpersists, hunacked'⟩ := unacked_moves hm hr hunacked
  by_cases hover : Overflow u v.state.db
  · exact .inr (overflow_moves hm hover)
  · refine .inl ⟨⟨r', hr', hunacked', hpersists.payload.trans htext⟩, fun j rows hmem => ?_⟩
    rw [hm.recorded, List.mem_cons] at hmem
    rcases hmem with he | hmem
    · exact ⟨r, (mem_of_query hm he.symm hr hunacked).resolve_right hover, htext⟩
    · exact h.read j rows hmem

theorem covered_moves (hm : Moves (wakeUpCluster u c) v e v') (h : Covered u c v text) :
    Covered u c v' text := by
  rcases h with hlive | harrived | hbacklogged | hover
  · exact .inl (live_moves hm hlive)
  · exact .inr (.inl (arrived_moves hm harrived))
  · exact .inr (.inr (backlogged_moves hm hbacklogged))
  · exact .inr (.inr (.inr (overflow_moves hm hover)))

theorem queried_mono (hm : Moves (wakeUpCluster u c) v e v') (h : Queried u v.past) :
    Queried u v'.past := by
  obtain ⟨j, rows, hmem⟩ := h
  exact ⟨j, rows, hm.recorded ▸ List.mem_cons_of_mem e hmem⟩

theorem wakeUpContract_kept (hv : WakeUpInv u c v) (hm : Moves (wakeUpCluster u c) v e v')
    (hp : (wakeUpContract u c).Promised v e) : WakeUpInv u c v' where
  opening := phase_moves (P := Phase.OpeningOn c) (fun _ _ _ _ => openingOn_of_turn) hm hv.opening
  queried hqueried := by
    refine established_moves hm ?_
    obtain ⟨j, rows, hmem⟩ := hqueried
    rw [hm.recorded, List.mem_cons] at hmem
    rcases hmem with rfl | hmem
    · exact (hp rfl).2
    · exact hv.queried ⟨j, rows, hmem⟩
  answered j d s hmem hs := by
    refine queried_mono hm ?_
    rw [hm.recorded, List.mem_cons] at hmem
    rcases hmem with rfl | hmem
    · exact hp hs
    · exact hv.answered j d s hmem hs
  texts j messageid senderid groupid msgtype text r hmem := by
    rw [hm.recorded, List.mem_cons] at hmem
    rcases hmem with rfl | hmem
    · exact hp rfl
    · exact hv.texts _ _ _ _ _ _ _ hmem

end Moves

/-! ## What an agent still owes -/

/-- The task of the job that an agent is executing: to cover a message it has stored, to
pass on one it has taken from the inbox, to answer with the messages it has read. -/
inductive Debt where
  | none
  | cover (text : String)
  | pass (text : String)
  | answer (rows : List MessageRow)

/-- Agent `a` has done with every message that it has dealt with, except for its debt. -/
structure Paid (u : ℤ) (c : Conn) (a : Agent) (debt : Debt) (v : ClusterView) : Prop where
  covered : ∀ j messageid senderid groupid msgtype text, j.agent = a →
    .did j (.sql (.insertMessage messageid senderid u groupid msgtype text)) true ∈ v.past →
      debt = .cover text ∨ Covered u c v text
  passed : ∀ text, a = .observer c.node → TakenUp u c v.past text →
    debt = .pass text ∨ Live c v.state text
  answered : ∀ j rows, a = .io c → .did j (.sql (.selectUnacked u 1000)) rows ∈ v.past →
    debt = .answer rows ∨ AnsweredOn u c v.state rows

def Debt.Settled (u : ℤ) (c : Conn) (v : ClusterView) : Debt → Prop
  | .none => True
  | .cover text => Covered u c v text
  | .pass text => Live c v.state text
  | .answer rows => AnsweredOn u c v.state rows

theorem Paid.settle {u : ℤ} {c : Conn} {v : ClusterView} {a : Agent} {debt : Debt}
    (h : Paid u c a debt v) (hs : debt.Settled u c v) : Paid u c a .none v where
  covered j messageid senderid groupid msgtype text hj hmem := by
    obtain rfl | hcovered := h.covered _ _ _ _ _ _ hj hmem
    · exact .inr hs
    · exact .inr hcovered
  passed text ha htaken := by
    obtain rfl | hlive := h.passed _ ha htaken
    · exact .inr hs
    · exact .inr hlive
  answered j rows ha hmem := by
    obtain rfl | hanswered := h.answered _ _ ha hmem
    · exact .inr hs
    · exact .inr hanswered

/-- The moves by which agent `a` runs into debt. -/
def Incurs (u : ℤ) (c : Conn) (a : Agent) : ClusterEntry → Prop
  | .started j => a = .observer c.node ∧ ∃ text, j = .redisMessage c.node u text
  | .did j (.sql (.insertMessage _ _ id _ _ _)) _ => j.agent = a ∧ id = u
  | .did _ (.sql (.selectUnacked id _)) _ => a = .io c ∧ id = u
  | _ => False

section Debts
variable [JsonParser] {u : ℤ} {c : Conn} {v v' : ClusterView} {e : ClusterEntry} {a : Agent}
  {debt : Debt} {text : String}

theorem answeredOn_moves (hm : Moves (wakeUpCluster u c) v e v') {rows : List MessageRow}
    (h : AnsweredOn u c v.state rows) : AnsweredOn u c v'.state rows := by
  intro r hr htext
  obtain ⟨response, texts, hmem, hfind⟩ := h r hr htext
  exact ⟨response, texts, out_moves hm hmem, hfind⟩

/-- What has been paid stays paid. -/
theorem paid_moves (hm : Moves (wakeUpCluster u c) v e v') (hnot : ¬ Incurs u c a e)
    (h : Paid u c a debt v) : Paid u c a debt v' where
  covered j messageid senderid groupid msgtype text hj hmem := by
    rw [hm.recorded, List.mem_cons] at hmem
    rcases hmem with rfl | hmem
    · exact absurd ⟨hj, rfl⟩ hnot
    · exact (h.covered _ _ _ _ _ _ hj hmem).imp_right (covered_moves hm)
  passed text ha htaken := by
    obtain htaken | ⟨rfl, -⟩ := takenUp_of_moves hm htaken
    · exact (h.passed _ ha htaken).imp_right (live_moves hm)
    · exact absurd ⟨ha, text, rfl⟩ hnot
  answered j rows ha hmem := by
    rw [hm.recorded, List.mem_cons] at hmem
    rcases hmem with rfl | hmem
    · exact absurd ⟨ha, rfl⟩ hnot
    · exact (h.answered _ _ ha hmem).imp_right (answeredOn_moves hm)

theorem stable_paid :
    Stable (wakeUpCluster u c) (wakeUpContract u c) a (Paid u c a debt) := by
  rintro v v' ⟨-, -, e, hother, hm, hp⟩ h
  refine paid_moves hm (fun hincurs => ?_) h
  cases e with
  | started j =>
      obtain ⟨rfl, text, rfl⟩ := hincurs
      exact hother _ rfl rfl
  | did j q r =>
      cases q with
      | sql q =>
          cases q with
          | insertMessage => exact hother j rfl hincurs.1
          | selectUnacked => exact hother j rfl ((hp hincurs.2).1.trans hincurs.1.symm)
          | _ => exact hincurs
      | _ => exact hincurs
  | aborted | disturbed => exact hincurs

/-- A move by which the agent runs into debt, or none that does. -/
theorem paid_incur (hm : Moves (wakeUpCluster u c) v e v') (h : Paid u c a .none v)
    (hcover : ∀ j messageid senderid groupid msgtype text, j.agent = a →
      e = .did j (.sql (.insertMessage messageid senderid u groupid msgtype text)) true →
        debt = .cover text)
    (hpass : ∀ text, a = .observer c.node → e = .started (.redisMessage c.node u text) →
      (phase u .free v.past).binding = some c → debt = .pass text)
    (hanswer : ∀ j rows, a = .io c → e = .did j (.sql (.selectUnacked u 1000)) rows →
      debt = .answer rows) : Paid u c a debt v' where
  covered j messageid senderid groupid msgtype text hj hmem := by
    rw [hm.recorded, List.mem_cons] at hmem
    rcases hmem with he | hmem
    · exact .inl (hcover _ _ _ _ _ _ hj he.symm)
    · obtain hnone | hcov := h.covered _ _ _ _ _ _ hj hmem
      · cases hnone
      · exact .inr (covered_moves hm hcov)
  passed text ha htaken := by
    obtain htaken | ⟨he, hbinding⟩ := takenUp_of_moves hm htaken
    · obtain hnone | hlive := h.passed _ ha htaken
      · cases hnone
      · exact .inr (live_moves hm hlive)
    · exact .inl (hpass _ ha he hbinding)
  answered j rows ha hmem := by
    rw [hm.recorded, List.mem_cons] at hmem
    rcases hmem with he | hmem
    · exact .inl (hanswer _ _ ha he.symm)
    · obtain hnone | hans := h.answered _ _ ha hmem
      · cases hnone
      · exact .inr (answeredOn_moves hm hans)

end Debts
end ChatCluster
