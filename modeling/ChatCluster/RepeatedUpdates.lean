import ChatCluster.StatusUpdates

/-!
# Updates executed again

A run of insertions, marks and acknowledgements, and one of its updates executed a
second time at its end. A mark leaves a row in a form in which it changes nothing any
more; an acknowledgement writes the clock each time.
-/
namespace ChatCluster
open KeyedTable

/-- A call of `MessageModel` that writes. -/
inductive MessageOp where
  | insert (messageid senderid receiverid groupid msgtype : ℤ) (payload : String)
  | update (u : StatusUpdate)
deriving DecidableEq

def MessageOp.statement : MessageOp → Statement
  | insert messageid senderid receiverid groupid msgtype payload =>
      .insertMessage messageid senderid receiverid groupid msgtype payload
  | update u => u.statement

/-- The updates of a run, without its insertions. -/
def updatesOf (es : List (ℕ × MessageOp)) : List (ℕ × StatusUpdate) :=
  es.filterMap fun e =>
    match e.2 with
    | .insert _ _ _ _ _ _ => none
    | .update u => some (e.1, u)

theorem mem_updatesOf {es : List (ℕ × MessageOp)} {t : ℕ} {u : StatusUpdate} :
    (t, u) ∈ updatesOf es ↔ (t, .update u) ∈ es := by
  simp only [updatesOf, List.mem_filterMap]
  constructor
  · intro h
    rcases h with ⟨⟨s, q⟩, he, hq⟩
    cases q with
    | insert => cases hq
    | update v =>
        cases hq
        exact he
  · intro he
    exact ⟨(t, .update u), he, rfl⟩

theorem sorted_updatesOf {es : List (ℕ × MessageOp)}
    (h : es.Pairwise fun e f => e.1 ≤ f.1) :
    (updatesOf es).Pairwise fun u v => u.1 ≤ v.1 := by
  refine List.pairwise_filterMap.mpr (h.imp fun {e f} hle => ?_)
  obtain ⟨s, q⟩ := e
  obtain ⟨t, q'⟩ := f
  cases q <;> cases q' <;> simp_all

/-! ## A message once inserted -/

def Database.runAll (db : Database) (es : List (ℕ × MessageOp)) : Database :=
  es.foldl (fun db e => db.runAt e.1 e.2.statement) db

theorem Database.runAll_append (db : Database) (es fs : List (ℕ × MessageOp)) :
    db.runAll (es ++ fs) = (db.runAll es).runAll fs := List.foldl_append ..

/-- An insertion keeps the messages that are there. -/
theorem Database.find?_runAt_insert {db : Database} {mid : ℤ} {r : MessageRow}
    (h : db.chatMessage.find? mid = some r) (now : ℕ)
    (messageid senderid receiverid groupid msgtype : ℤ) (payload : String) :
    (db.runAt now (.insertMessage messageid senderid receiverid groupid msgtype
      payload)).chatMessage.find? mid = some r := by
  simp only [Database.runAt, Statement.run]
  cases hi : { db with now := now }.insertMessage (Statement.newMessage messageid senderid
      receiverid groupid msgtype payload) with
  | none => exact h
  | some db' =>
      obtain ⟨hr, hid⟩ := Table.find?_eq_some.mp h
      exact Table.find?_eq_some.mpr ⟨(Database.mem_insertMessage hi).mpr (.inr hr), hid⟩

theorem Database.find?_runAll {db : Database} {mid : ℤ} {r : MessageRow}
    (h : db.chatMessage.find? mid = some r) (es : List (ℕ × MessageOp)) :
    (db.runAll es).chatMessage.find? mid = some (r.updateAll (updatesOf es)) := by
  induction es generalizing db r with
  | nil => exact h
  | cons e es ih =>
      obtain ⟨now, q⟩ := e
      cases q with
      | insert messageid senderid receiverid groupid msgtype payload =>
          exact ih (Database.find?_runAt_insert h now messageid senderid receiverid groupid
            msgtype payload)
      | update u =>
          have hstep : (db.runAt now u.statement).chatMessage.find? mid = some (u.apply now r) := by
            rw [Database.find?_runAt, h, Option.map_some]
          exact ih hstep

/-! ## A mark executed again -/

section Repeat
variable {r : MessageRow} {us : List (ℕ × StatusUpdate)} {t : ℕ}

/-- A mark finds nothing left to do. -/
def MessageRow.Settled (r : MessageRow) : Prop :=
  MessageStatus.acked ≤ r.status ∨
    MessageStatus.delivered ≤ r.status ∧ r.deliveredAt.isSome = true

theorem MessageRow.settled_mark (t : ℕ) (r : MessageRow) :
    ((StatusUpdate.markDelivered r.messageId r.receiverId).apply t r).Settled := by
  rw [StatusUpdate.apply_markDelivered_key]
  by_cases hacked : r.status < MessageStatus.acked
  · rw [if_pos hacked]
    refine .inr ⟨?_, ?_⟩
    · simp only [MessageRow.markDelivered]
      split_ifs <;> omega
    · simp only [MessageRow.markDelivered]
      cases r.deliveredAt <;> rfl
  · rw [if_neg hacked]
    exact .inl (by omega)

theorem MessageRow.Settled.markDelivered_eq (h : r.Settled) (t : ℕ) :
    (StatusUpdate.markDelivered r.messageId r.receiverId).apply t r = r := by
  rw [StatusUpdate.apply_markDelivered_key]
  rcases h with h | ⟨hstatus, hat⟩
  · rw [if_neg (by omega)]
  · split_ifs
    · obtain ⟨d, hd⟩ := Option.isSome_iff_exists.mp hat
      obtain ⟨mid, sid, uid, gid, msgtype, payload, status, deliveredAt, ackedAt⟩ := r
      obtain rfl : deliveredAt = some d := hd
      simp [MessageRow.markDelivered, not_lt.mpr hstatus]
    · rfl

theorem MessageRow.Settled.apply (h : r.Settled) (t : ℕ) (u : StatusUpdate) :
    (u.apply t r).Settled := by
  rcases u.cases_key r with rfl | rfl | hu
  · rw [h.markDelivered_eq]
    exact h
  · rw [StatusUpdate.apply_ack_key]
    exact .inl le_rfl
  · rw [StatusUpdate.apply_of_ne hu]
    exact h

theorem MessageRow.Settled.updateAll (h : r.Settled) (us : List (ℕ × StatusUpdate)) :
    (r.updateAll us).Settled := by
  induction us generalizing r with
  | nil => exact h
  | cons u us ih => exact ih (h.apply u.1 u.2)

/-- `delivered_at` is written once. -/
theorem MessageRow.deliveredAt_updateAll {d : ℕ} (h : r.deliveredAt = some d)
    (us : List (ℕ × StatusUpdate)) : (r.updateAll us).deliveredAt = some d := by
  induction us generalizing r with
  | nil => exact h
  | cons u us ih =>
      have hstep : (u.2.apply u.1 r).deliveredAt = some d := by
        rcases u.2.cases_key r with hu | hu | hu
        · rw [hu, StatusUpdate.apply_markDelivered_key]
          split_ifs
          · simp [MessageRow.markDelivered, h]
          · exact h
        · rw [hu, StatusUpdate.apply_ack_key]
          exact h
        · rw [StatusUpdate.apply_of_ne hu]
          exact h
      exact ih hstep

/-! ## An acknowledgement executed again -/

/-- `acked_at` is the time of the last acknowledgement. -/
theorem MessageRow.ackedAt_updateAll (hacked : r.acknowledged us = true)
    (hsorted : us.Pairwise fun u v => u.1 ≤ v.1) :
    ∃ s, (r.updateAll us).ackedAt = some s ∧
      (s, StatusUpdate.ack r.messageId r.receiverId) ∈ us ∧
      ∀ s', (s', StatusUpdate.ack r.messageId r.receiverId) ∈ us → s' ≤ s := by
  induction us using List.reverseRecOn with
  | nil => cases hacked
  | append_singleton us u ih =>
      obtain ⟨now, u⟩ := u
      obtain ⟨hmid, huid⟩ := Prod.mk.inj (r.key_updateAll us)
      rw [List.pairwise_append] at hsorted
      have hlast : ∀ v ∈ us, v.1 ≤ now := fun v hv => hsorted.2.2 v hv _ List.mem_cons_self
      rw [MessageRow.updateAll_append, MessageRow.updateAll_singleton]
      by_cases hu : u = .ack r.messageId r.receiverId
      · subst hu
        have hstep := StatusUpdate.apply_ack_key now (r.updateAll us)
        rw [hmid, huid] at hstep
        refine ⟨now, by rw [hstep]; rfl, by simp, fun s' hs' => ?_⟩
        rcases List.mem_append.mp hs' with hs' | hs'
        · exact hlast _ hs'
        · simp only [List.mem_singleton, Prod.mk.injEq, and_true] at hs'
          omega
      · have hus : r.acknowledged us = true := by
          simpa [MessageRow.acknowledged, hu] using hacked
        have hkept : (u.apply now (r.updateAll us)).ackedAt = (r.updateAll us).ackedAt := by
          rcases u.cases_key (r.updateAll us) with h | h | h
          · rw [h, StatusUpdate.apply_markDelivered_key]
            split_ifs <;> rfl
          · rw [hmid, huid] at h
            exact absurd h hu
          · rw [StatusUpdate.apply_of_ne h]
        obtain ⟨s, hs, hmem, hmax⟩ := ih hus hsorted.1
        refine ⟨s, hkept.trans hs, List.mem_append_left _ hmem, fun s' hs' => ?_⟩
        rcases List.mem_append.mp hs' with hs' | hs'
        · exact hmax s' hs'
        · simp [Ne.symm hu] at hs'

/-- The update is a mark, or an acknowledgement by another user than the receiver, or one
that the run has executed in the same second. -/
def RepeatsSafely (t₀ t : ℕ) (u : StatusUpdate) (r : MessageRow)
    (after : List (ℕ × MessageOp)) : Prop :=
  ∀ messageid receiverid, u = .ack messageid receiverid → r.receiverId = receiverid →
    t = t₀ ∨ (t, .update u) ∈ after

/-- An update that has been executed on a row leaves it as it is when executed again. -/
theorem MessageRow.apply_updateAll_iff {u : StatusUpdate} {t₀ : ℕ}
    (hid : u.target.1 = r.messageId) (hsorted : ((t₀, u) :: us).Pairwise fun u v => u.1 ≤ v.1)
    (ht : ∀ v ∈ (t₀, u) :: us, v.1 ≤ t) :
    u.apply t (r.updateAll ((t₀, u) :: us)) = r.updateAll ((t₀, u) :: us) ↔
      ∀ messageid receiverid, u = .ack messageid receiverid → r.receiverId = receiverid →
        t = t₀ ∨ (t, u) ∈ us := by
  have hkey := r.key_updateAll ((t₀, u) :: us)
  obtain ⟨hmid, huid⟩ := Prod.mk.inj hkey
  rcases u.cases_key r with hu | hu | hu
  · -- after its first execution the mark finds nothing to do
    have hsettled : (r.updateAll ((t₀, u) :: us)).Settled := by
      rw [hu]
      exact (r.settled_mark t₀).updateAll us
    have hrepeat := hsettled.markDelivered_eq t
    rw [hmid, huid, ← hu] at hrepeat
    refine ⟨fun _ messageid receiverid h => ?_, fun _ => hrepeat⟩
    rw [hu] at h
    cases h
  · have hacked : r.acknowledged ((t₀, u) :: us) = true := by
      simp [MessageRow.acknowledged, hu]
    have hstatus : (r.updateAll ((t₀, u) :: us)).status = MessageStatus.acked := by
      rw [MessageRow.status_updateAll, if_pos hacked]
    obtain ⟨s, hs, hmem, hmax⟩ := MessageRow.ackedAt_updateAll hacked hsorted
    have hrepeat := StatusUpdate.apply_ack_key t (r.updateAll ((t₀, u) :: us))
    rw [hmid, huid, ← hu] at hrepeat
    rw [← hu] at hmem hmax
    have hmember : ∀ s', (s', u) ∈ (t₀, u) :: us ↔ s' = t₀ ∨ (s', u) ∈ us := by
      intro s'
      simp
    rw [hrepeat]
    constructor
    · intro h messageid receiverid _ _
      have hat : some t = (r.updateAll ((t₀, u) :: us)).ackedAt := congrArg MessageRow.ackedAt h
      rw [hs, Option.some.injEq] at hat
      rw [← hmember, hat]
      exact hmem
    · intro h
      have hle : t ≤ s := hmax t ((hmember t).mpr (h _ _ hu rfl))
      obtain rfl : s = t := le_antisymm (ht _ hmem) hle
      have hsome := hs
      generalize r.updateAll ((t₀, u) :: us) = r' at hstatus hsome
      obtain ⟨mid, sid, uid, gid, msgtype, payload, status, deliveredAt, ackedAt⟩ := r'
      obtain rfl : ackedAt = some s := hsome
      obtain rfl : status = MessageStatus.acked := hstatus
      rfl
  · refine ⟨fun _ messageid receiverid h huid' => ?_, fun _ => ?_⟩
    · subst h
      refine absurd ?_ hu
      rw [MessageRow.key, ← hid, huid']
      rfl
    · exact StatusUpdate.apply_of_ne (by rwa [hkey])

end Repeat

/-- Only the addressed row can change. -/
theorem Database.runAt_eq_iff {db : Database} {u : StatusUpdate} {r : MessageRow}
    (hr : db.chatMessage.find? u.target.1 = some r) (t : ℕ) :
    (db.runAt t u.statement).chatMessage = db.chatMessage ↔ u.apply t r = r := by
  obtain ⟨hmem, hid⟩ := Table.find?_eq_some.mp hr
  constructor
  · intro h
    have hfind := db.find?_runAt t u u.target.1
    rw [h, hr] at hfind
    exact (Option.some.inj hfind).symm
  · intro h
    have hsame : ∀ r' ∈ db.chatMessage.rows, u.apply t r' = id r' := by
      intro r' hr'
      by_cases hid' : r'.messageId = r.messageId
      · rw [db.chatMessage.key_injOn hr' hmem hid']
        exact h
      · refine StatusUpdate.apply_of_ne fun htarget => hid' ?_
        rw [hid, htarget]
        rfl
    refine Table.eq_of_rows ?_
    rw [Database.rows_runAt, List.map_congr_left hsame, List.map_id]

/-- Executing an update of a run once more at its end leaves the table as it is, unless
it is an acknowledgement of its row that the run did not execute at this second. The
first mark's time stays in `delivered_at`; the first acknowledgement's time stays in
`acked_at` as long as the acknowledgements that follow fall into the same second. -/
theorem replay_idempotent_iff (db : Database) (before after : List (ℕ × MessageOp))
    (t₀ t : ℕ) (u : StatusUpdate) (r : MessageRow)
    (hinserted : (db.runAll before).chatMessage.find? u.target.1 = some r)
    (hsorted : (before ++ (t₀, .update u) :: after).Pairwise fun e f => e.1 ≤ f.1)
    (hlater : ∀ e ∈ before ++ (t₀, .update u) :: after, e.1 ≤ t) :
    ((((db.runAll (before ++ (t₀, .update u) :: after)).runAt t u.statement).chatMessage =
        (db.runAll (before ++ (t₀, .update u) :: after)).chatMessage) ↔
      RepeatsSafely t₀ t u r after) ∧
    ∃ r', (db.runAll (before ++ (t₀, .update u) :: after)).chatMessage.find? u.target.1 =
        some r' ∧
      (∀ d, (u.apply t₀ r).deliveredAt = some d → r'.deliveredAt = some d) ∧
      (u = .ack r.messageId r.receiverId →
        (r'.ackedAt = some t₀ ↔ ∀ s, (s, .update u) ∈ after → s = t₀)) := by
  obtain ⟨-, hid⟩ := Table.find?_eq_some.mp hinserted
  have hrow := Database.find?_runAll hinserted ((t₀, .update u) :: after)
  rw [← Database.runAll_append] at hrow
  rw [List.pairwise_append] at hsorted
  have hupdates := sorted_updatesOf hsorted.2.1
  have hends : ∀ v ∈ updatesOf ((t₀, .update u) :: after), v.1 ≤ t := by
    intro v hv
    exact hlater _ (List.mem_append_right _ (mem_updatesOf.mp hv))
  constructor
  · rw [Database.runAt_eq_iff hrow, RepeatsSafely]
    simp only [← mem_updatesOf]
    exact MessageRow.apply_updateAll_iff hid.symm hupdates hends
  · refine ⟨_, hrow, fun d hd => MessageRow.deliveredAt_updateAll hd _, fun hu => ?_⟩
    have hacked : r.acknowledged (updatesOf ((t₀, .update u) :: after)) = true := by
      simp [MessageRow.acknowledged, updatesOf, hu]
    obtain ⟨s, hs, hmem, hmax⟩ := MessageRow.ackedAt_updateAll hacked hupdates
    rw [← hu] at hmem hmax
    rw [hs, Option.some.injEq]
    constructor
    · rintro rfl s' hs'
      have hupper := hmax s' (mem_updatesOf.mpr (List.mem_cons_of_mem _ hs'))
      have hlower := (List.pairwise_cons.mp hsorted.2.1).1 _ hs'
      exact le_antisymm hupper hlower
    · intro h
      rcases List.mem_cons.mp (mem_updatesOf.mp hmem) with heq | hs'
      · exact (Prod.mk.inj heq).1
      · exact h s hs'

/-- A message stored at second `0`. -/
def storedOnce : List (ℕ × MessageOp) := [(0, .insert 1 1 2 0 6 "hi")]

/-- It is delivered at second `1` and once more at second `2`. -/
theorem replay_idempotent_mark :
    ((((Database.empty.runAll (storedOnce ++ [(1, .update (.markDelivered 1 2))])).runAt 2
          (.markDelivered 1 2)).chatMessage =
        (Database.empty.runAll (storedOnce ++ [(1, .update (.markDelivered 1 2))])).chatMessage) ↔
      RepeatsSafely 1 2 (.markDelivered 1 2) (Statement.newMessage 1 1 2 0 6 "hi") []) ∧
    ∃ r', (Database.empty.runAll
        (storedOnce ++ [(1, .update (.markDelivered 1 2))])).chatMessage.find? 1 = some r' ∧
      (∀ d, ((StatusUpdate.markDelivered 1 2).apply 1
        (Statement.newMessage 1 1 2 0 6 "hi")).deliveredAt = some d → r'.deliveredAt = some d) ∧
      (StatusUpdate.markDelivered 1 2 = .ack 1 2 →
        (r'.ackedAt = some 1 ↔
          ∀ s, (s, MessageOp.update (.markDelivered 1 2)) ∈ ([] : List (ℕ × MessageOp)) → s = 1)) :=
  replay_idempotent_iff Database.empty storedOnce [] 1 2 (.markDelivered 1 2)
    (Statement.newMessage 1 1 2 0 6 "hi") (by decide) (by decide) (by decide)

/-- It is acknowledged at second `1` and once more at second `2`. -/
theorem repeated_ack_changes_row :
    ¬ (((Database.empty.runAll (storedOnce ++ [(1, .update (.ack 1 2))])).runAt 2
        (.ackMessage 1 2)).chatMessage =
      (Database.empty.runAll (storedOnce ++ [(1, .update (.ack 1 2))])).chatMessage) := by
  intro h
  have hrows := congrArg Table.rows h
  revert hrows
  decide

end ChatCluster
