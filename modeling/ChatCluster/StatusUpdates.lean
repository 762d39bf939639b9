import ChatCluster.Statement
import Mathlib.Data.List.Induction

/-!
# Marks and acknowledgements as table updates

The statements of `MessageModel` executed one after another, each at its own time.
What they make of a row depends on that row only, so a run over the table is a run
over each row.
-/
namespace ChatCluster
open KeyedTable

/-- A call of `MessageModel::markDelivered` or `MessageModel::ack`. -/
inductive StatusUpdate where
  | markDelivered (messageid receiverid : ℤ)
  | ack (messageid receiverid : ℤ)
deriving DecidableEq

namespace StatusUpdate

def statement : StatusUpdate → Statement
  | markDelivered messageid receiverid => .markDelivered messageid receiverid
  | ack messageid receiverid => .ackMessage messageid receiverid

/-- The id and the receiver that the `where` clause asks for. -/
def target : StatusUpdate → ℤ × ℤ
  | markDelivered messageid receiverid => (messageid, receiverid)
  | ack messageid receiverid => (messageid, receiverid)

/-- What the statement makes of a row. -/
def apply (now : ℕ) (r : MessageRow) : StatusUpdate → MessageRow
  | markDelivered messageid receiverid =>
      if r.messageId = messageid ∧ r.receiverId = receiverid ∧
        r.status < MessageStatus.acked then r.markDelivered now else r
  | ack messageid receiverid =>
      if r.messageId = messageid ∧ r.receiverId = receiverid then r.ack now else r

end StatusUpdate

def MessageRow.key (r : MessageRow) : ℤ × ℤ := (r.messageId, r.receiverId)

namespace Database

/-- A statement that succeeds when the clock of the database server shows `now`. -/
def runAt (db : Database) (now : ℕ) (q : Statement) : Database := (q.run { db with now := now }).2

def updateAll (db : Database) (us : List (ℕ × StatusUpdate)) : Database :=
  us.foldl (fun db u => db.runAt u.1 u.2.statement) db

/-- The `status` column of a message. -/
def messageStatus (db : Database) (messageid : ℤ) : Option ℤ :=
  (db.chatMessage.find? messageid).map MessageRow.status

end Database

/-- A run of updates on one row. -/
def MessageRow.updateAll (r : MessageRow) (us : List (ℕ × StatusUpdate)) : MessageRow :=
  us.foldl (fun r u => u.2.apply u.1 r) r

/-! ## One update -/

section Apply
variable {now : ℕ} {r : MessageRow} {u : StatusUpdate}

@[simp] theorem StatusUpdate.messageId_apply (now : ℕ) (r : MessageRow) (u : StatusUpdate) :
    (u.apply now r).messageId = r.messageId := by
  cases u <;> (simp only [StatusUpdate.apply]; split_ifs <;> rfl)

@[simp] theorem StatusUpdate.key_apply (now : ℕ) (r : MessageRow) (u : StatusUpdate) :
    (u.apply now r).key = r.key := by
  cases u <;> (simp only [StatusUpdate.apply]; split_ifs <;> rfl)

/-- A row that is not addressed keeps every column. -/
theorem StatusUpdate.apply_of_ne (h : u.target ≠ r.key) : u.apply now r = r := by
  cases u with
  | markDelivered messageid receiverid =>
      refine if_neg fun hmatch => h ?_
      rw [MessageRow.key, hmatch.1, hmatch.2.1]
      rfl
  | ack messageid receiverid =>
      refine if_neg fun hmatch => h ?_
      rw [MessageRow.key, hmatch.1, hmatch.2]
      rfl

/-- A mark of a row, with the guard of its `where` clause. -/
theorem StatusUpdate.apply_markDelivered_key (now : ℕ) (r : MessageRow) :
    (markDelivered r.messageId r.receiverId).apply now r =
      if r.status < MessageStatus.acked then r.markDelivered now else r := by
  simp [StatusUpdate.apply]

/-- The guard only keeps a mark from what it would not change. -/
theorem StatusUpdate.status_markDelivered_key (now : ℕ) (r : MessageRow) :
    ((markDelivered r.messageId r.receiverId).apply now r).status =
      max r.status MessageStatus.delivered := by
  rw [StatusUpdate.apply_markDelivered_key]
  by_cases hacked : r.status < MessageStatus.acked
  · rw [if_pos hacked]
    simp only [MessageRow.markDelivered, MessageStatus.delivered]
    split_ifs <;> omega
  · rw [if_neg hacked]
    unfold MessageStatus.acked at hacked
    unfold MessageStatus.delivered
    omega

theorem StatusUpdate.apply_ack_key (now : ℕ) (r : MessageRow) :
    (ack r.messageId r.receiverId).apply now r = r.ack now := by
  simp [StatusUpdate.apply]

/-- An update addresses a row as a mark, as an acknowledgement, or not at all. -/
theorem StatusUpdate.cases_key (u : StatusUpdate) (r : MessageRow) :
    u = .markDelivered r.messageId r.receiverId ∨ u = .ack r.messageId r.receiverId ∨
      u.target ≠ r.key := by
  by_cases h : u.target = r.key
  · cases u with
    | markDelivered messageid receiverid =>
        cases h
        exact .inl rfl
    | ack messageid receiverid =>
        cases h
        exact .inr (.inl rfl)
  · exact .inr (.inr h)

end Apply

/-! ## The table follows its rows -/

theorem Database.rows_runAt (db : Database) (now : ℕ) (u : StatusUpdate) :
    (db.runAt now u.statement).chatMessage.rows = db.chatMessage.rows.map (u.apply now) := by
  cases u with
  | markDelivered messageid receiverid =>
      refine List.map_congr_left fun r _ => ?_
      simp [StatusUpdate.apply, and_assoc]
  | ack messageid receiverid =>
      refine List.map_congr_left fun r _ => ?_
      simp [StatusUpdate.apply]

theorem Database.find?_runAt (db : Database) (now : ℕ) (u : StatusUpdate) (messageid : ℤ) :
    (db.runAt now u.statement).chatMessage.find? messageid =
      (db.chatMessage.find? messageid).map (u.apply now) := by
  have hid : ((fun r : MessageRow => decide (r.messageId = messageid)) ∘ fun r => u.apply now r) =
      fun r => decide (r.messageId = messageid) :=
    funext fun r => by simp
  rw [Table.find?, Database.rows_runAt, List.find?_map, hid]
  rfl

theorem Database.find?_updateAll (db : Database) (us : List (ℕ × StatusUpdate))
    (messageid : ℤ) : (db.updateAll us).chatMessage.find? messageid =
      (db.chatMessage.find? messageid).map fun r => r.updateAll us := by
  induction us generalizing db with
  | nil => simp [Database.updateAll, MessageRow.updateAll]
  | cons u us ih =>
      have hstep := ih (db.runAt u.1 u.2.statement)
      rw [Database.find?_runAt, Option.map_map] at hstep
      exact hstep

theorem Database.messageStatus_updateAll (db : Database) (us : List (ℕ × StatusUpdate))
    (messageid : ℤ) : (db.updateAll us).messageStatus messageid =
      (db.chatMessage.find? messageid).map fun r => (r.updateAll us).status := by
  rw [Database.messageStatus, Database.find?_updateAll, Option.map_map]
  rfl

/-! ## The status of one row -/

section Status
variable {us : List (ℕ × StatusUpdate)} {r : MessageRow}

@[simp] theorem MessageRow.updateAll_nil (r : MessageRow) : r.updateAll [] = r := rfl

@[simp] theorem MessageRow.updateAll_append (r : MessageRow) (us vs : List (ℕ × StatusUpdate)) :
    r.updateAll (us ++ vs) = (r.updateAll us).updateAll vs := List.foldl_append ..

@[simp] theorem MessageRow.updateAll_singleton (r : MessageRow) (u : ℕ × StatusUpdate) :
    r.updateAll [u] = u.2.apply u.1 r := rfl

@[simp] theorem MessageRow.key_updateAll (r : MessageRow) (us : List (ℕ × StatusUpdate)) :
    (r.updateAll us).key = r.key := by
  induction us using List.reverseRecOn with
  | nil => rfl
  | append_singleton us u ih =>
      rw [MessageRow.updateAll_append, MessageRow.updateAll_singleton, StatusUpdate.key_apply, ih]

/-- Some update of the run is a mark of the row. -/
def MessageRow.marked (r : MessageRow) (us : List (ℕ × StatusUpdate)) : Bool :=
  us.any fun u => decide (u.2 = .markDelivered r.messageId r.receiverId)

/-- Some update of the run is an acknowledgement of the row. -/
def MessageRow.acknowledged (r : MessageRow) (us : List (ℕ × StatusUpdate)) : Bool :=
  us.any fun u => decide (u.2 = .ack r.messageId r.receiverId)

/-- The maximum of the initial status and what is addressed to the row. -/
def MessageRow.latestStatus (r : MessageRow) (us : List (ℕ × StatusUpdate)) : ℤ :=
  max r.status (max (if r.marked us then MessageStatus.delivered else r.status)
    (if r.acknowledged us then MessageStatus.acked else r.status))

/-- What a run leaves in the `status` column, whatever its order. -/
theorem MessageRow.status_updateAll (r : MessageRow) (us : List (ℕ × StatusUpdate)) :
    (r.updateAll us).status =
      if r.acknowledged us then MessageStatus.acked
      else if r.marked us then max r.status MessageStatus.delivered else r.status := by
  induction us using List.reverseRecOn with
  | nil => rfl
  | append_singleton us u ih =>
      have hkey := r.key_updateAll us
      obtain ⟨hmid, huid⟩ := Prod.mk.inj hkey
      rw [MessageRow.updateAll_append, MessageRow.updateAll_singleton]
      have hmarked : r.marked (us ++ [u]) =
          (r.marked us || decide (u.2 = .markDelivered r.messageId r.receiverId)) := by
        simp [MessageRow.marked]
      have hacked : r.acknowledged (us ++ [u]) =
          (r.acknowledged us || decide (u.2 = .ack r.messageId r.receiverId)) := by
        simp [MessageRow.acknowledged]
      rw [hmarked, hacked]
      rcases u.2.cases_key r with hu | hu | hu
      · have hlast := StatusUpdate.status_markDelivered_key u.1 (r.updateAll us)
        rw [hmid, huid] at hlast
        rw [hu, hlast, ih]
        cases r.acknowledged us <;> cases r.marked us <;>
          simp [MessageStatus.acked, MessageStatus.delivered]
      · have hlast := StatusUpdate.apply_ack_key u.1 (r.updateAll us)
        rw [hmid, huid] at hlast
        rw [hu, hlast]
        simp [MessageRow.ack]
      · rw [StatusUpdate.apply_of_ne (by rwa [hkey]), ih]
        have hm : u.2 ≠ .markDelivered r.messageId r.receiverId := by
          intro h
          rw [h] at hu
          exact hu rfl
        have ha : u.2 ≠ .ack r.messageId r.receiverId := by
          intro h
          rw [h] at hu
          exact hu rfl
        simp [hm, ha]

/-- A row with one of the three documented values ends with their maximum. -/
theorem MessageRow.status_updateAll_of_le (h : r.status ≤ MessageStatus.acked) :
    (r.updateAll us).status = r.latestStatus us := by
  rw [MessageRow.status_updateAll, MessageRow.latestStatus]
  unfold MessageStatus.acked at h
  cases r.acknowledged us <;> cases r.marked us <;>
    simp only [Bool.false_eq_true, if_true, if_false, MessageStatus.acked,
      MessageStatus.delivered] <;> omega

theorem StatusUpdate.status_le_apply (h : r.status ≤ MessageStatus.acked) (now : ℕ)
    (u : StatusUpdate) : r.status ≤ (u.apply now r).status := by
  rcases u.cases_key r with rfl | rfl | hu
  · rw [StatusUpdate.status_markDelivered_key]
    exact le_max_left _ _
  · rw [StatusUpdate.apply_ack_key]
    exact h
  · rw [StatusUpdate.apply_of_ne hu]

theorem MessageRow.status_updateAll_le (h : r.status ≤ MessageStatus.acked) :
    (r.updateAll us).status ≤ MessageStatus.acked := by
  rw [MessageRow.status_updateAll]
  unfold MessageStatus.acked at h
  split_ifs <;> simp only [MessageStatus.acked, MessageStatus.delivered] <;> omega

theorem MessageRow.updateAll_of_ne (h : ∀ u ∈ us, u.2.target ≠ r.key) : r.updateAll us = r := by
  induction us with
  | nil => rfl
  | cons u us ih =>
      simp only [List.mem_cons, forall_eq_or_imp] at h
      have hstep : u.2.apply u.1 r = r := StatusUpdate.apply_of_ne h.1
      show (u.2.apply u.1 r).updateAll us = r
      rw [hstep]
      exact ih h.2

end Status

/-- The final status does not depend on the order of the updates; a row with one of the
documented values ends with the maximum of it and what was addressed to it and never
goes down on the way, one with a greater value is set back to `ACKED` by an
acknowledgement and by nothing else; a row that is not addressed keeps every column. -/
theorem status_updates_commute (db : Database) (us : List (ℕ × StatusUpdate)) :
    (∀ us', us'.Perm us → ∀ messageid,
      (db.updateAll us').messageStatus messageid = (db.updateAll us).messageStatus messageid) ∧
    (∀ r ∈ db.chatMessage.rows,
      (db.updateAll us).messageStatus r.messageId = some
        (if r.status ≤ MessageStatus.acked then r.latestStatus us
          else if r.acknowledged us then MessageStatus.acked else r.status)) ∧
    (∀ r ∈ db.chatMessage.rows, r.status ≤ MessageStatus.acked →
      ∀ before u after, us = before ++ u :: after →
        ∀ s ∈ (db.updateAll before).messageStatus r.messageId,
        ∀ s' ∈ (db.updateAll (before ++ [u])).messageStatus r.messageId, s ≤ s') ∧
    (∀ r ∈ db.chatMessage.rows, (∀ u ∈ us, u.2.target ≠ r.key) →
      r ∈ (db.updateAll us).chatMessage.rows) := by
  refine ⟨?_, ?_, ?_, ?_⟩
  · intro us' hperm messageid
    rw [db.messageStatus_updateAll, db.messageStatus_updateAll]
    refine congrArg (fun f => Option.map f _) (funext fun r => ?_)
    rw [MessageRow.status_updateAll, MessageRow.status_updateAll, MessageRow.acknowledged,
      MessageRow.acknowledged, MessageRow.marked, MessageRow.marked, hperm.any_eq, hperm.any_eq]
  · intro r hr
    rw [db.messageStatus_updateAll, Table.find?_eq_some.mpr ⟨hr, rfl⟩, Option.map_some]
    split_ifs with hle hacked
    · rw [MessageRow.status_updateAll_of_le hle]
    · rw [MessageRow.status_updateAll, if_pos hacked]
    · unfold MessageStatus.acked at hle
      rw [MessageRow.status_updateAll, if_neg hacked]
      split_ifs
      · unfold MessageStatus.delivered
        congr 1
        omega
      · rfl
  · intro r hr hle before u after _ s hs s' hs'
    rw [db.messageStatus_updateAll, Table.find?_eq_some.mpr ⟨hr, rfl⟩, Option.map_some,
      Option.mem_some] at hs hs'
    rw [← hs, ← hs', MessageRow.updateAll_append, MessageRow.updateAll_singleton]
    exact StatusUpdate.status_le_apply (MessageRow.status_updateAll_le hle) u.1 u.2
  · intro r hr hne
    have hfind := db.find?_updateAll us r.messageId
    rw [Table.find?_eq_some.mpr ⟨hr, rfl⟩, Option.map_some, MessageRow.updateAll_of_ne hne] at hfind
    exact (Table.find?_eq_some.mp hfind).1

/-- A row whose status is none of the documented values. -/
def strayRow : MessageRow where
  messageId := 1
  senderId := 1
  receiverId := 2
  groupId := 0
  msgType := EnMsgType.oneChatMsg.code
  payload := ""
  status := 3
  deliveredAt := none
  ackedAt := none

/-- An acknowledgement sets it back to `ACKED`, below the maximum. -/
theorem stray_status_lowered :
    ¬ ∀ (db : Database) (us : List (ℕ × StatusUpdate)), ∀ r ∈ db.chatMessage.rows,
      (db.updateAll us).messageStatus r.messageId = some (r.latestStatus us) := by
  intro h
  have hstatus := h { Database.empty with chatMessage := ⟨[strayRow], List.pairwise_singleton _ _⟩ }
    [(0, .ack 1 2)] strayRow List.mem_cons_self
  exact absurd hstatus (by decide)

end ChatCluster
