import ChatCluster.Answers
import ChatCluster.Copies
import ChatCluster.Lookups
import ChatCluster.StatusOrder

/-!
# One message in one session

A message gets onto a connection in a chat frame at most once, and the answer of a login
lists it at most once, but neither asks whether the other has happened. A row is listed
that was there when the login made its query, and is handed over live when the user is
looked up behind the binding. So the message can arrive twice only where it is stored before
the query of a login and looked up behind its binding.
-/
namespace ChatCluster
open CommandProgram Interleaving

/-! ## Sessions -/

/-- The moves since user `u` was bound to `c`, the latest first. -/
def session (u : ℤ) (c : Conn) (past : List ClusterEntry) : List ClusterEntry :=
  past.takeWhile fun e => !bindsTo u c e

/-- The rows that a login on `c` has read for user `u`. -/
def rowsRead (u : ℤ) (c : Conn) : ClusterEntry → List MessageRow
  | .did j (.sql (.selectUnacked v _)) rows => if j.agent = .io c ∧ v = u then rows else []
  | _ => []

theorem session_cons (u : ℤ) (c : Conn) (e : ClusterEntry) (past : List ClusterEntry) :
    session u c (e :: past) = if bindsTo u c e then [] else e :: session u c past := by
  rw [session, List.takeWhile_cons]
  cases bindsTo u c e <;> rfl

theorem session_append {u : ℤ} {c : Conn} {later earlier : List ClusterEntry}
    (h : ∀ j r, .did j (.node (.mapBind u c)) r ∉ later) :
    session u c (later ++ earlier) = later ++ session u c earlier := by
  apply List.takeWhile_append_of_pos
  intro e hmem
  rw [Bool.not_eq_true']
  apply bindsTo_eq_false
  rintro j r rfl
  exact h j r hmem

/-- A move of the session, and that nothing has bound since. -/
theorem split_of_mem_session {u : ℤ} {c : Conn} {f : ClusterEntry} {past : List ClusterEntry}
    (h : f ∈ session u c past) : ∃ later older, past = later ++ f :: older ∧
      bindsTo u c f = false ∧ ∀ e ∈ later, bindsTo u c e = false := by
  have hnot : ∀ e ∈ session u c past, bindsTo u c e = false := by
    intro e he
    simpa using List.mem_takeWhile_imp he
  obtain ⟨later, rest, hsplit⟩ := List.append_of_mem h
  refine ⟨later, rest ++ past.dropWhile fun e => !bindsTo u c e, ?_, hnot f h, fun e he => ?_⟩
  · rw [← List.cons_append, ← List.append_assoc, ← hsplit]
    exact (List.takeWhile_append_dropWhile ..).symm
  · apply hnot e
    rw [hsplit]
    exact List.mem_append_left _ he

theorem mem_rowsRead {u : ℤ} {c : Conn} {e : ClusterEntry} {r : MessageRow}
    (h : r ∈ rowsRead u c e) : ∃ j limit, ∃ rows : List MessageRow,
      e = .did j (.sql (.selectUnacked u limit)) rows ∧ j.agent = .io c ∧ r ∈ rows := by
  cases e with
  | did j q rows =>
      cases q with
      | sql q =>
          cases q with
          | selectUnacked v limit =>
              obtain ⟨⟨hagent, rfl⟩, hrow⟩ := List.mem_ite_nil_right.mp h
              exact ⟨j, limit, rows, rfl, hagent, hrow⟩
          | _ => exact absurd h List.not_mem_nil
      | _ => exact absurd h List.not_mem_nil
  | _ => exact absurd h List.not_mem_nil

theorem send_of_handsTo {c : Conn} {text : String} {e : ClusterEntry}
    (h : handsTo c text e = true) :
    ∃ j s, e = .did j (.sendTo c s) () ∧ s.IsChat ∧ s.payload = text := by
  cases e with
  | did j q r =>
      cases q with
      | sendTo d s =>
          obtain ⟨rfl, hchat, htext⟩ := of_decide_eq_true h
          exact ⟨j, s, rfl, hchat, htext⟩
      | _ => cases h
  | _ => cases h

theorem rowsRead_of_handsTo {u : ℤ} {c : Conn} {text : String} {e : ClusterEntry}
    (h : handsTo c text e = true) : rowsRead u c e = [] := by
  cases e with
  | did j q r =>
      cases q with
      | sendTo d s => rfl
      | _ => cases h
  | _ => cases h

/-- No message that has been stored before the query of a login is looked up behind the
binding of this login, with the connection found. -/
def RoutesApart (v : ClusterView) (e : ClusterEntry) : Prop :=
  ∀ u c text, ¬ (QueriedStored u c text (e :: v.past) ∧ LookedUp u c text (e :: v.past))

/-- A move that hands over or reads text `text` for user `u` does not repeat its session. -/
structure Apart (u : ℤ) (c : Conn) (text : String) (past : List ClusterEntry) (e : ClusterEntry) :
    Prop where
  live : handsTo c text e = true →
    ∀ f ∈ session u c past, ∀ r ∈ rowsRead u c f, cStr r.payload ≠ text
  read : ∀ r ∈ rowsRead u c e, cStr r.payload = text →
    ∀ f ∈ session u c past, handsTo c text f = false

/-! ## What a frame delivers -/

theorem texts_of_isChat {s : Sent} (h : s.IsChat) : s.texts = [s.payload] := if_pos h

theorem not_isChat_of_confirmed {s : Sent} {u : ℤ} (h : confirmedUser? s = some u) :
    ¬ s.IsChat := by
  intro hchat
  cases s with
  | raw payload => cases h
  | json js =>
      obtain hmsg | hmsg := hchat
      · rw [confirmedUser?_of_msgType hmsg (by decide)] at h
        cases h
      · rw [confirmedUser?_of_msgType hmsg (by decide)] at h
        cases h

theorem texts_of_confirmed {user : User} {texts : List String} {userVec : List User}
    {groupuserVec : List Group} {u : ℤ}
    (h : confirmedUser? (.json (loginResponse user texts userVec groupuserVec)) = some u) :
    (Sent.json (loginResponse user texts userVec groupuserVec)).texts = texts := by
  unfold Sent.texts
  rw [if_neg (not_isChat_of_confirmed h)]
  dsimp only
  rw [h, Option.isSome_some, if_pos rfl, offlinemsg_loginResponse]
  cases texts with
  | nil => rfl
  | cons text texts =>
      rw [if_neg (List.cons_ne_nil text texts)]
      simp only [Json.strings, mapM_getStr?, Option.getD_some]

theorem texts_of_unconfirmed {s : Sent} (hchat : ¬ s.IsChat) (h : confirmedUser? s = none) :
    s.texts = [] := by
  unfold Sent.texts
  rw [if_neg hchat]
  cases s with
  | raw payload => rfl
  | json js =>
      dsimp only
      rw [h]
      rfl

section Handed
variable [JsonParser]

/-- How often a move hands message `messageid` to connection `c`. -/
def handed (c : Conn) (messageid : ℤ) : ClusterEntry → ℕ
  | .did _ (.sendTo d s) _ =>
      if d = c then s.texts.countP fun text => textId? text = some messageid else 0
  | _ => 0

/-- How often it does so in the answer of a login. -/
def listed (c : Conn) (messageid : ℤ) : ClusterEntry → ℕ
  | .did _ (.sendTo d s) _ =>
      if d = c ∧ ¬ s.IsChat then s.texts.countP fun text => textId? text = some messageid else 0
  | _ => 0

/-! ## What a session keeps -/

/-- What has been delivered of one message in the session of its receiver. -/
structure SessionKept (u : ℤ) (c : Conn) (messageid : ℤ) (text : String)
    (past : List ClusterEntry) : Prop where
  awaiting : awaits u c past = true → ((session u c past).map (listed c messageid)).sum = 0
  once : ((session u c past).map (listed c messageid)).sum ≤ 1
  read : 0 < ((session u c past).map (listed c messageid)).sum →
    ∃ e ∈ session u c past, ∃ r ∈ rowsRead u c e, cStr r.payload = text
  apart : 0 < (session u c past).countP (handsTo c text) →
    ∀ e ∈ session u c past, ∀ r ∈ rowsRead u c e, cStr r.payload ≠ text
  total : ((session u c past).map (handed c messageid)).sum ≤
    ((session u c past).map (listed c messageid)).sum + (session u c past).countP (handsTo c text)

variable {u : ℤ} {c : Conn} {messageid : ℤ} {text : String} {past : List ClusterEntry}
  {e : ClusterEntry}

theorem sessionKept_of_session (h : session u c past = []) :
    SessionKept u c messageid text past := by
  constructor
  · intro _
    rw [h]
    rfl
  · rw [h]
    exact Nat.zero_le 1
  · intro hpos
    rw [h] at hpos
    cases hpos
  · intro hpos
    rw [h] at hpos
    cases hpos
  · rw [h]
    exact Nat.le_refl 0

/-- What one move has to keep to. -/
structure MoveKept (u : ℤ) (c : Conn) (messageid : ℤ) (text : String)
    (past : List ClusterEntry) (e : ClusterEntry) : Prop where
  awaiting : awaits u c (e :: past) = true → awaits u c past = true ∧ listed c messageid e = 0
  once : listed c messageid e ≤ 1
  listed : 0 < listed c messageid e → awaits u c past = true ∧
    ∃ f ∈ session u c past, ∃ r ∈ rowsRead u c f, cStr r.payload = text
  total : handed c messageid e ≤ ChatCluster.listed c messageid e + if handsTo c text e then 1 else 0

theorem SessionKept.cons {v : ClusterView} (h : SessionKept u c messageid text v.past)
    (hnot : bindsTo u c e = false) (hmove : MoveKept u c messageid text v.past e)
    (hapart : Apart u c text v.past e) : SessionKept u c messageid text (e :: v.past) := by
  have hsession : session u c (e :: v.past) = e :: session u c v.past := by
    rw [session_cons, hnot, if_neg Bool.false_ne_true]
  have honce := h.once
  have hone := hmove.once
  have htotal := h.total
  have hmoved := hmove.total
  constructor
  · intro hawaits
    obtain ⟨hbefore, hnone⟩ := hmove.awaiting hawaits
    rw [hsession, List.map_cons, List.sum_cons, hnone, h.awaiting hbefore]
  · rw [hsession, List.map_cons, List.sum_cons]
    by_cases hpos : 0 < listed c messageid e
    · rw [h.awaiting (hmove.listed hpos).1]
      omega
    · omega
  · intro hpos
    rw [hsession, List.map_cons, List.sum_cons] at hpos
    rw [hsession]
    by_cases he : 0 < listed c messageid e
    · obtain ⟨-, f, hf, r, hr, htext⟩ := hmove.listed he
      exact ⟨f, List.mem_cons_of_mem _ hf, r, hr, htext⟩
    · obtain ⟨f, hf, r, hr, htext⟩ := h.read (by omega)
      exact ⟨f, List.mem_cons_of_mem _ hf, r, hr, htext⟩
  · intro hpos f hf r hr
    rw [hsession] at hpos hf
    by_cases he : handsTo c text e = true
    · obtain rfl | hf := List.mem_cons.mp hf
      · rw [rowsRead_of_handsTo he] at hr
        exact absurd hr List.not_mem_nil
      · exact hapart.live he f hf r hr
    · rw [List.countP_cons, if_neg he, Nat.add_zero] at hpos
      obtain rfl | hf := List.mem_cons.mp hf
      · intro heq
        obtain ⟨g, hg, hhands⟩ := List.countP_pos_iff.mp hpos
        rw [hapart.read r hr heq g hg] at hhands
        cases hhands
      · exact h.apart hpos f hf r hr
  · rw [hsession, List.map_cons, List.map_cons, List.sum_cons, List.sum_cons, List.countP_cons]
    omega

/-! ## The runs -/

/-- The row of message `messageid` is for user `u` and has this text. -/
def Database.HasText (db : Database) (u messageid : ℤ) (text : String) : Prop :=
  ∀ r ∈ db.chatMessage.rows, r.messageId = messageid → r.receiverId = u ∧ cStr r.payload = text

theorem hasText_moves {E : Environment} {admits : ClusterView → ClusterEntry → Prop}
    {v v' : ClusterView} (hm : Moves (cluster E admits) v e v')
    (h : v'.state.db.HasText u messageid text) : v.state.db.HasText u messageid text := by
  intro r hr hid
  obtain ⟨r', hr', hpersists, -⟩ := row_moves hm hr
  have hkept := h r' hr' (hpersists.messageId.trans hid)
  rw [hpersists.receiverId, hpersists.payload] at hkept
  exact hkept

variable {E : Environment} {admits : ClusterView → ClusterEntry → Prop} {db : Database}
  {es : List ClusterEntry} {x y : ClusterConfig} {j : Job} {s : Sent}

/-- A chat frame delivers the message of its row, and no other. -/
theorem handed_of_chat (h : Steps (cluster E admits) (Config.initial (World.fresh db)) es x)
    {r : Unit} (hs : Step (cluster E admits) x (.did j (.sendTo c s) r) y) (hchat : s.IsChat)
    (hread : x.view.state.db.ReadsBack) (htext : x.view.state.db.HasText u messageid text) :
    handed c messageid (.did j (.sendTo c s) r) ≤
      if handsTo c text (.did j (.sendTo c s) r) then 1 else 0 := by
  simp only [handed, if_true, texts_of_isChat hchat, List.countP_singleton, decide_eq_true_eq]
  by_cases hid : textId? s.payload = some messageid
  · obtain ⟨row, hrow, hof⟩ := exists_rowOf h hs hchat
    have hback := hread row hrow
    have hcStr := cStr_payload_of_send h hs hchat
    rw [MessageRow.ReadsBack, ← hof.payload, hcStr] at hback
    have hsame : row.messageId = messageid := Option.some.inj (hback.symm.trans hid)
    have hpayload : s.payload = text := by
      rw [← (htext row hrow hsame).2, ← hof.payload, hcStr]
    have hhands : handsTo c text (.did j (.sendTo c s) r) = true :=
      decide_eq_true ⟨rfl, hchat, hpayload⟩
    rw [hhands, if_pos hid, if_pos rfl]
  · rw [if_neg hid]
    exact Nat.zero_le _

/-- What an answer has read since the connection was bound: rows in their order, which are
still there. -/
theorem rows_of_answer (h : Steps (cluster E admits) (Config.initial (World.fresh db)) es x)
    {a : Agent} {v : ℤ} {rows : List MessageRow}
    (hbound : (answerMemory a x.view.past).bound = some (v, c))
    (hread : (answerMemory a x.view.past).rows = some (v, rows)) :
    (∃ f ∈ session v c x.view.past, rowsRead v c f = rows) ∧
      (rows.Pairwise fun r r' => r.messageId < r'.messageId) ∧
      ∀ row ∈ rows, row.receiverId = v ∧
        ∃ row' ∈ x.view.state.db.chatMessage.rows, row.Persists row' := by
  obtain ⟨since, i, limit, older, hpast, hi, hnobind⟩ := select_since h hbound hread
  obtain ⟨_, _, z, z', -, -, hselect, hafter, -⟩ := h.at_entry hpast
  have hlater := (Steps.step .done hselect).append hafter
  obtain ⟨-, o, -, ho⟩ := hselect.moves.effect
  have hrows : rows = ((Statement.selectUnacked v limit).exec o.ok z.view.state.db).1 :=
    (exec_sql ho).1
  refine ⟨⟨.did i (.sql (.selectUnacked v limit)) rows, ?_, if_pos ⟨hi, rfl⟩⟩,
    selected_sorted hrows, ?_⟩
  · rw [hpast, session_append hnobind, session_cons]
    exact List.mem_append_right _ List.mem_cons_self
  · intro row hrow
    obtain ⟨hmem, hunacked⟩ := Statement.mem_of_selectUnacked hrows hrow
    obtain ⟨row', hrow', hpersists, -⟩ := persists_of_steps (hostile_steps hlater) hmem
    exact ⟨hunacked.1, row', hrow', hpersists⟩

/-- An answer lists a message once at most, and only if its login has read the row. -/
theorem listed_of_answer (h : Steps (cluster E admits) (Config.initial (World.fresh db)) es x)
    {r : Unit} (hs : Step (cluster E admits) x (.did j (.sendTo c s) r) y) {v : ℤ}
    (hconfirmed : confirmedUser? s = some v) (hread : x.view.state.db.ReadsBack)
    (htext : x.view.state.db.HasText u messageid text)
    (hlegacy : ∀ p ∈ db.offlinemessage, textId? (cStr p.2) ≠ some messageid) :
    listed c messageid (.did j (.sendTo c s) r) ≤ 1 ∧
      (0 < listed c messageid (.did j (.sendTo c s) r) → v = u ∧
        ∃ f ∈ session u c x.view.past, ∃ row ∈ rowsRead u c f, cStr row.payload = text) := by
  obtain ⟨rows, legacy, hanswer⟩ := answer_of_step h hs hconfirmed
  obtain ⟨user, userVec, groupuserVec, rfl⟩ := hanswer.form
  obtain ⟨⟨f, hf, hfrows⟩, hsorted, htable⟩ := rows_of_answer h hanswer.bound hanswer.read
  have hback : ∀ row ∈ rows, row.ReadsBack := by
    intro row hrow
    obtain ⟨-, row', hrow', hpersists⟩ := htable row hrow
    have hback' := hread row' hrow'
    rw [MessageRow.ReadsBack, hpersists.payload, hpersists.messageId] at hback'
    exact hback'
  have hapart : ∀ t ∈ legacy, textId? (cStr t) ≠ some messageid := fun t ht =>
    hlegacy (v, t) (offline_of_answer h hanswer.taken ht)
  have hcount : listed c messageid (.did j (.sendTo c (.json (loginResponse user
      (listedTexts rows legacy) userVec groupuserVec))) r) =
        (listedTexts rows legacy).countP fun text => textId? text = some messageid := by
    refine (if_pos ⟨rfl, not_isChat_of_confirmed hconfirmed⟩).trans ?_
    rw [texts_of_confirmed hconfirmed]
  rw [hcount]
  refine ⟨countP_listedTexts hsorted hback hapart, fun hpos => ?_⟩
  obtain ⟨listedText, hmem, hid⟩ := List.countP_pos_iff.mp hpos
  replace hid := of_decide_eq_true hid
  obtain ⟨row, hrow, rfl⟩ | ⟨t, ht, rfl⟩ := mem_listedTexts hmem
  · have hsame : row.messageId = messageid := Option.some.inj ((hback row hrow).symm.trans hid)
    obtain ⟨rfl, row', hrow', hpersists⟩ := htable row hrow
    obtain ⟨hreceiver, hpayload⟩ := htext row' hrow' (hpersists.messageId.trans hsame)
    rw [hpersists.receiverId] at hreceiver
    subst hreceiver
    rw [hpersists.payload] at hpayload
    exact ⟨rfl, f, hf, row, hfrows ▸ hrow, hpayload⟩
  · exact absurd hid (hapart t ht)

/-- What each move of a run keeps to. -/
theorem moveKept (h : Steps (cluster E admits) (Config.initial (World.fresh db)) es x)
    (hs : Step (cluster E admits) x e y) (hnot : bindsTo u c e = false)
    (hread : x.view.state.db.ReadsBack) (htext : x.view.state.db.HasText u messageid text)
    (hlegacy : ∀ p ∈ db.offlinemessage, textId? (cStr p.2) ≠ some messageid) :
    MoveKept u c messageid text x.view.past e := by
  by_cases he : ∀ j s r, e ≠ .did j (.sendTo c s) r
  · have hnone : listed c messageid e = 0 ∧ handed c messageid e = 0 := by
      cases e with
      | did j q r =>
          cases q with
          | sendTo d s =>
              have hd : d ≠ c := by
                intro heq
                subst heq
                exact he j s r rfl
              simp [listed, handed, hd]
          | _ => exact ⟨rfl, rfl⟩
      | _ => exact ⟨rfl, rfl⟩
    constructor
    · intro hawaits
      obtain hbefore | ⟨j, r, rfl⟩ := awaits_of_cons hawaits
      · exact ⟨hbefore, hnone.1⟩
      · simp [bindsTo] at hnot
    · omega
    · omega
    · omega
  · push Not at he
    obtain ⟨j, s, r, rfl⟩ := he
    have hbefore : awaits u c (.did j (.sendTo c s) r :: x.view.past) = true →
        awaits u c x.view.past = true := by
      intro hawaits
      simp only [awaits, Bool.and_eq_true] at hawaits
      exact hawaits.2
    by_cases hchat : s.IsChat
    · have hnone : listed c messageid (.did j (.sendTo c s) r) = 0 :=
        if_neg fun hboth => hboth.2 hchat
      constructor
      · exact fun hawaits => ⟨hbefore hawaits, hnone⟩
      · omega
      · omega
      · rw [hnone, Nat.zero_add]
        exact handed_of_chat h hs hchat hread htext
    · have hsame : handed c messageid (.did j (.sendTo c s) r) =
          listed c messageid (.did j (.sendTo c s) r) := by
        simp [handed, listed, hchat]
      cases hconfirmed : confirmedUser? s with
      | none =>
          have hnone : listed c messageid (.did j (.sendTo c s) r) = 0 := by
            simp [listed, hchat, texts_of_unconfirmed hchat hconfirmed]
          constructor
          · exact fun hawaits => ⟨hbefore hawaits, hnone⟩
          · omega
          · omega
          · omega
      | some v =>
          obtain ⟨hone, hread'⟩ := listed_of_answer h hs hconfirmed hread htext hlegacy
          constructor
          · intro hawaits
            refine ⟨hbefore hawaits, ?_⟩
            by_contra hpos
            obtain ⟨rfl, -⟩ := hread' (Nat.pos_of_ne_zero hpos)
            simp [awaits, hconfirmed] at hawaits
          · exact hone
          · intro hpos
            obtain ⟨rfl, hrows⟩ := hread' hpos
            obtain ⟨rows, legacy, hanswer⟩ := answer_of_step h hs hconfirmed
            exact ⟨awaits_of_bound h hanswer.bound, hrows⟩
          · omega

/-- Where the schedule keeps the routes apart, no text takes both of them. -/
theorem apart_of_step (h : Steps (cluster E RoutesApart) (Config.initial (World.fresh db)) es x)
    (hs : Step (cluster E RoutesApart) x e y) (hread : y.view.state.db.ReadsBack) :
    Apart u c text x.view.past e := by
  have hread' := readsBack_moves hs.moves hread
  constructor
  · intro he f hf r hr htext
    obtain ⟨j, s, rfl, hchat, rfl⟩ := send_of_handsTo he
    obtain ⟨later, older, hpast, -, hlater⟩ := split_of_mem_session hf
    obtain ⟨k, limit, rows, rfl, hk, hrow⟩ := mem_rowsRead hr
    obtain ⟨v, hlooked, hstored⟩ := lookedUp_of_sent h hs hchat
    -- the row was in the table when it was read, so its text had been stored
    obtain ⟨_, _, z, z', -, hz, hselect, hafter, -⟩ := h.at_entry hpast
    obtain ⟨-, o, -, ho⟩ := hselect.moves.effect
    obtain ⟨hmem, hunacked⟩ := Statement.mem_of_selectUnacked (exec_sql ho).1 hrow
    have hrun := (Steps.step .done hselect).append hafter
    obtain ⟨r', hr', hpersists, -⟩ := persists_of_steps (hostile_steps hrun) hmem
    have htext' : cStr r.payload = cStr s.payload := by
      rw [htext, cStr_payload_of_send h hs hchat]
    have hreceiver := hstored.receiver h hread' hr' (by rw [hpersists.payload, htext'])
    obtain rfl : u = v := by rw [← hreceiver, hpersists.receiverId, hunacked.1]
    have hearlier := hstored.before hrun hread' hmem htext'
    rw [hz] at hearlier
    apply hs.moves.admitted u c s.payload
    refine ⟨⟨.did j (.sendTo c s) () :: later, k, limit, rows, older, ?_, hk, hearlier, ?_⟩, ?_⟩
    · rw [hpast, List.cons_append]
    · exact List.forall_mem_cons.mpr ⟨rfl, hlater⟩
    · change LookedUp u c s.payload ([.did j (.sendTo c s) ()] ++ x.view.past)
      apply hlooked.append
      simp [bindsTo]
  · intro r hr htext f hf
    apply Bool.eq_false_iff.mpr
    intro hf'
    obtain ⟨k, limit, rows, rfl, hk, hrow⟩ := mem_rowsRead hr
    obtain ⟨later, older, hpast, hnot, hlater⟩ := split_of_mem_session hf
    obtain ⟨j, s, rfl, hchat, rfl⟩ := send_of_handsTo hf'
    obtain ⟨_, _, z, z', hbefore, hz, hsend, -, -⟩ := h.at_entry hpast
    obtain ⟨v, hlooked, hstored⟩ := lookedUp_of_sent hbefore hsend hchat
    rw [hz] at hlooked hstored
    obtain ⟨-, o, -, ho⟩ := hs.moves.effect
    obtain ⟨hmem, hunacked⟩ := Statement.mem_of_selectUnacked (exec_sql ho).1 hrow
    have hstored' : FromStored x.view.past v s.payload := by
      rw [hpast, List.append_cons]
      exact hstored.append _
    have hreceiver := hstored'.receiver h hread' hmem
      (by rw [htext, cStr_payload_of_send hbefore hsend hchat])
    obtain rfl : u = v := by rw [← hreceiver, hunacked.1]
    apply hs.moves.admitted u c s.payload
    refine ⟨⟨[], k, limit, rows, x.view.past, rfl, hk, hstored', by simp⟩, ?_⟩
    rw [hpast, List.append_cons, ← List.cons_append]
    apply hlooked.append
    refine List.forall_mem_cons.mpr ⟨rfl, fun e he => ?_⟩
    obtain he | he := List.mem_append.mp he
    · exact hlater e he
    · rw [List.mem_singleton.mp he]
      exact hnot

theorem sessionKept (h : Steps (cluster E RoutesApart) (Config.initial (World.fresh db)) es x)
    (hread : x.view.state.db.ReadsBack) (htext : x.view.state.db.HasText u messageid text)
    (hlegacy : ∀ p ∈ db.offlinemessage, textId? (cStr p.2) ≠ some messageid) :
    SessionKept u c messageid text x.view.past := by
  induction h with
  | done => exact sessionKept_of_session rfl
  | @step x y e es hrun hs ih =>
      have hread' := readsBack_moves hs.moves hread
      have htext' := hasText_moves hs.moves htext
      rw [hs.moves.recorded]
      cases hbinds : bindsTo u c e with
      | true =>
          apply sessionKept_of_session
          rw [session_cons, hbinds, if_pos rfl]
      | false =>
          have hmove := moveKept (c := c) hrun hs hbinds hread' htext' hlegacy
          exact (ih hread' htext').cons hbinds hmove (apart_of_step hrun hs hread)

/-- How often message `messageid` has been handed to `c` since its receiver was bound. -/
def deliveries (u : ℤ) (c : Conn) (messageid : ℤ) (past : List ClusterEntry) : ℕ :=
  ((session u c past).map (handed c messageid)).sum

/-- In every run in which no message that has been stored before the query of a login is looked
up behind its binding, a message is handed to its receiver at most once in a session, on
whatever routes. -/
theorem handed_once
    (h : Steps (cluster .hostile RoutesApart) (Config.initial (World.fresh db)) es x)
    (hread : x.view.state.db.ReadsBack) {r : MessageRow}
    (hr : r ∈ x.view.state.db.chatMessage.rows)
    (hlegacy : ∀ p ∈ db.offlinemessage, textId? (cStr p.2) ≠ some r.messageId) (c : Conn) :
    deliveries r.receiverId c r.messageId x.view.past ≤ 1 := by
  have htext : x.view.state.db.HasText r.receiverId r.messageId (cStr r.payload) := by
    intro r' hr' hid
    rw [x.view.state.db.chatMessage.key_injOn hr' hr hid]
    exact ⟨rfl, rfl⟩
  have hkept := sessionKept (c := c) h hread htext hlegacy
  have honce := hkept.once
  have htotal := hkept.total
  have hlive : (session r.receiverId c x.view.past).countP (handsTo c (cStr r.payload)) ≤ 1 :=
    ((List.takeWhile_sublist _).countP_le).trans (handsTo_le_one h hread c)
  rw [deliveries]
  by_cases hlisted : 0 < ((session r.receiverId c x.view.past).map (listed c r.messageId)).sum
  · have hnone : ¬ 0 < (session r.receiverId c x.view.past).countP (handsTo c (cStr r.payload)) := by
      intro hpos
      obtain ⟨e, he, row, hrow, hpayload⟩ := hkept.read hlisted
      exact hkept.apart hpos e he row hrow hpayload
    omega
  · omega

end Handed

/-! ## One delivery and two -/

/-- No query of a login comes behind an insert. -/
def queriesFirst : List ClusterEntry → Bool
  | [] => true
  | .did _ (.sql (.selectUnacked _ _)) _ :: past =>
      allInserts (fun _ _ => false) past && queriesFirst past
  | _ :: past => queriesFirst past

theorem queriesFirst_of_append {later past : List ClusterEntry}
    (h : queriesFirst (later ++ past) = true) : queriesFirst past = true := by
  induction later with
  | nil => exact h
  | cons e later ih =>
      apply ih
      cases e with
      | did j q r =>
          cases q with
          | sql q =>
              cases q with
              | selectUnacked => exact (Bool.and_eq_true_iff.mp h).2
              | _ => exact h
          | _ => exact h
      | _ => exact h

theorem routesApart_of_queriesFirst (v : ClusterView) (e : ClusterEntry)
    (h : queriesFirst (e :: v.past) = true) : RoutesApart v e := by
  rintro u c text ⟨⟨later, j, limit, rows, older, hpast, -, ⟨js, messageid, hstored⟩, -⟩, -⟩
  rw [hpast] at h
  obtain ⟨hnone, -⟩ := Bool.and_eq_true_iff.mp (queriesFirst_of_append h)
  exact Bool.false_ne_true (of_allInserts hnone hstored)

/-- A message of the table has been handed `n` times to `c` in the session. -/
def anyDelivered [JsonParser] (n : ℕ) (c : Conn) (x : ClusterConfig) : Bool :=
  decide x.view.state.db.ReadsBack && x.view.state.db.chatMessage.rows.any fun r =>
    deliveries r.receiverId c r.messageId x.view.past = n

theorem exists_of_anyDelivered [JsonParser] {n : ℕ} {c : Conn} {x : ClusterConfig}
    (h : anyDelivered n c x = true) : x.view.state.db.ReadsBack ∧
      ∃ r ∈ x.view.state.db.chatMessage.rows,
        deliveries r.receiverId c r.messageId x.view.past = n := by
  obtain ⟨hread, hany⟩ := Bool.and_eq_true_iff.mp h
  obtain ⟨r, hr, hn⟩ := List.any_eq_true.mp hany
  exact ⟨of_decide_eq_true hread, r, hr, of_decide_eq_true hn⟩

def apartReplayer [JsonParser] : Replayer (cluster .hostile RoutesApart) Choice :=
  Cluster.replayer .hostile RoutesApart (fun v e => queriesFirst (e :: v.past))
    routesApart_of_queriesFirst

/-- The receiver has logged in before the message is stored. -/
theorem handed_once_chat : letI := chatParser namedRequest
    ∃ es x, Steps (cluster .hostile RoutesApart) (Config.initial chatWorld) es x ∧
      ∃ r ∈ x.view.state.db.chatMessage.rows,
        deliveries r.receiverId ⟨0, 1⟩ r.messageId x.view.past ≠ 0 ∧
        deliveries r.receiverId ⟨0, 1⟩ r.messageId x.view.past ≤ 1 := by
  let _ := chatParser namedRequest
  obtain ⟨es, x, hrun, hx⟩ := apartReplayer.exists_steps (x := Config.initial chatWorld)
    (windowCues 10 ++ [.act (.io ⟨0, 0⟩) {}]) (p := anyDelivered 1 ⟨0, 1⟩) (by decide +kernel)
  obtain ⟨hread, r, hr, hone⟩ := exists_of_anyDelivered hx
  refine ⟨es, x, hrun, r, hr, ?_, ?_⟩
  · rw [hone]
    decide
  · exact handed_once hrun hread hr (fun p hp => absurd hp List.not_mem_nil) ⟨0, 1⟩

def calmReplayer [JsonParser] : Replayer (cluster .calm fun _ _ => True) Choice :=
  Cluster.replayer .calm (fun _ _ => True) (fun _ _ => true) fun _ _ _ => trivial

/-- The message is stored and handed over between the binding of its receiver and the query
of the login, and the answer lists it again. Nothing has failed. -/
theorem handed_twice : letI := chatParser namedRequest
    ∃ es x, Steps (cluster .calm fun _ _ => True) (Config.initial chatWorld) es x ∧
      x.view.state.db.ReadsBack ∧ ∃ r ∈ x.view.state.db.chatMessage.rows,
        deliveries r.receiverId ⟨0, 1⟩ r.messageId x.view.past = 2 := by
  let _ := chatParser namedRequest
  obtain ⟨es, x, hrun, hx⟩ := calmReplayer.exists_steps (x := Config.initial chatWorld)
    (windowCues 2 ++ List.replicate 3 (.act (.io ⟨0, 0⟩) {}) ++
      List.replicate 9 (.act (.io ⟨0, 1⟩) {}))
    (p := anyDelivered 2 ⟨0, 1⟩) (by decide +kernel)
  obtain ⟨hread, r, hr, htwo⟩ := exists_of_anyDelivered hx
  exact ⟨es, x, hrun, hread, r, hr, htwo⟩

end ChatCluster
