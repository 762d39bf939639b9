import ChatCluster.Listing
import ChatCluster.LoginWindow

/-!
# What a login answers

Until it answers, a login remembers whom it has bound and what it has read for that user
since. The answer lists the texts of the rows that the query has returned and then those of
the legacy table, and there is one answer for one binding.
-/
namespace ChatCluster
open CommandProgram Interleaving

/-- The user that a login has bound and not answered yet, and what it has read since. -/
structure AnswerMemory where
  bound : Option (ℤ × Conn) := none
  rows : Option (ℤ × List MessageRow) := none
  legacy : Option (ℤ × List String) := none

def AnswerMemory.next (m : AnswerMemory) : (c : Command) → Response c → AnswerMemory
  | .node (.mapBind userid conn), _ => { bound := some (userid, conn) }
  | .sql (.selectUnacked receiverid _), rows => { m with rows := some (receiverid, rows) }
  | .sql (.selectOffline userid), texts => { m with legacy := some (userid, texts) }
  | .sendTo _ s, _ => if (confirmedUser? s).isSome then {} else m
  | _, _ => m

/-- The texts of an answer: those of the rows that are not empty, then the legacy ones. -/
def listedTexts (rows : List MessageRow) (legacy : List String) : List String :=
  ((storedMessages rows).filter fun m => m.payload ≠ "").map StoredMessage.payload ++
    legacy.map cStr

theorem mem_listedTexts {rows : List MessageRow} {legacy : List String} {text : String}
    (h : text ∈ listedTexts rows legacy) :
    (∃ r ∈ rows, text = cStr r.payload) ∨ ∃ t ∈ legacy, text = cStr t := by
  obtain h | h := List.mem_append.mp h
  · obtain ⟨m, hm, rfl⟩ := List.mem_map.mp h
    obtain ⟨r, hr, rfl⟩ := List.mem_map.mp (List.mem_of_mem_filter hm)
    exact .inl ⟨r, hr, rfl⟩
  · obtain ⟨t, ht, rfl⟩ := List.mem_map.mp h
    exact .inr ⟨t, ht, rfl⟩

/-- The answer of a login that remembers `m`. -/
structure AnswerOf (m : AnswerMemory) (u : ℤ) (conn : Conn) (s : Sent) (rows : List MessageRow)
    (legacy : List String) : Prop where
  bound : m.bound = some (u, conn)
  read : m.rows = some (u, rows)
  taken : m.legacy = some (u, legacy)
  form : ∃ user userVec groupuserVec,
    s = .json (loginResponse user (listedTexts rows legacy) userVec groupuserVec)

/-- Whatever confirms a login is its answer. -/
def Answers (m : AnswerMemory) (c : Command) : Prop :=
  ∀ conn s u, c = .sendTo conn s → confirmedUser? s = some u →
    ∃ rows legacy, AnswerOf m u conn s rows legacy

/-! ## The handlers -/

section Tracked
variable {m : AnswerMemory} {conn : Conn} {js : Json}

theorem Command.ConfirmsNothing.answers {c : Command} (h : c.ConfirmsNothing) : Answers m c := by
  intro conn s u hc hs
  rw [h conn s hc] at hs
  cases hs

theorem tracked_confirmsNothing {p : Program Unit} (hp : p.All Command.ConfirmsNothing) :
    p.Tracked AnswerMemory.next Answers (fun _ _ => True) m :=
  .of_all (I := fun _ => True) (fun _ _ hc _ => hc.answers) (fun _ _ _ _ _ => trivial) hp trivial

theorem Command.Beside.answers {c : Command} (h : c.Beside) : Answers m c := by
  intro conn s u hc hs
  have hnothing := h.nothing
  rw [hc] at hnothing
  rw [show confirmedUser? s = none from hnothing] at hs
  cases hs

theorem Command.Beside.next_answer {c : Command} (hc : c.Beside) (r : Response c) :
    m.next c r = m := by
  cases c with
  | sql q =>
      cases q with
      | selectUnacked u limit => exact absurd rfl (hc.unacked u limit)
      | selectOffline u => exact absurd rfl (hc.legacy u)
      | _ => rfl
  | node q =>
      cases q with
      | mapBind u conn => exact absurd rfl (hc.bind u conn)
      | _ => rfl
  | redisPublish => rfl
  | sendTo conn s =>
      have hnothing : confirmedUser? s = none := hc.nothing
      simp [AnswerMemory.next, hnothing]

theorem answers_beside {α : Type} {p : Program α} (hp : p.All Command.Beside) :
    p.Tracked AnswerMemory.next Answers (fun m' _ => m' = m) m := by
  refine .of_all (I := fun m' => m' = m) (fun _ _ hc _ => hc.answers) (fun m' c r hc hm => ?_) hp rfl
  rw [hc.next_answer, hm]

theorem answers_takeLegacy (id : ℤ) :
    (takeLegacy id).Tracked AnswerMemory.next Answers (fun m' texts => ∃ legacy,
      m' = { m with legacy := some (id, legacy) } ∧ texts = legacy.map cStr) m := by
  refine ⟨(confirmsNothing_sql _).answers, fun (legacy : List String) => ?_⟩
  change (if (legacy.map cStr).isEmpty then _ else _ : Program (List String)).Tracked _ _ _ _
  split_ifs
  · exact ⟨legacy, rfl, rfl⟩
  · exact ⟨(confirmsNothing_sql _).answers, fun _ => ⟨legacy, rfl, rfl⟩⟩

theorem answers_syncSession (id : ℤ) (user : User) (hm : m.bound = some (id, conn)) :
    (syncSession id user).Tracked AnswerMemory.next Answers
      (fun m' response => ∃ rows legacy, AnswerOf m' id conn (.json response) rows legacy) m := by
  refine ⟨(confirmsNothing_sql _).answers, fun (rows : List MessageRow) => ?_⟩
  refine ((answers_beside (beside_collectStored id (storedMessages rows))).returns
    (returns_collectStored id _)).bind fun m₁ texts h₁ => ?_
  obtain ⟨rfl, htexts⟩ := h₁
  refine (answers_takeLegacy id).bind fun m₂ legacyTexts h₂ => ?_
  obtain ⟨legacy, rfl, rfl⟩ := h₂
  refine ((answers_beside (beside_contacts id fun userVec groupuserVec =>
    loginResponse user (texts ++ legacy.map cStr) userVec groupuserVec)).returns
    (T := fun response => ∃ userVec groupuserVec, response =
      loginResponse user (texts ++ legacy.map cStr) userVec groupuserVec) ?_).mono ?_
  · exact (Prog.returns_true _).bind fun userVec _ =>
      (Prog.returns_true _).bind fun groupuserVec _ => ⟨userVec, groupuserVec, rfl⟩
  · rintro m₃ response ⟨rfl, userVec, groupuserVec, rfl⟩
    refine ⟨rows, legacy, hm, rfl, rfl, user, userVec, groupuserVec, ?_⟩
    rw [listedTexts, htexts]

theorem answers_login : (login conn js).Tracked AnswerMemory.next Answers (fun _ _ => True) {} := by
  refine tracked_login (Q := fun _ => True) (S := fun id m => m.bound = some (id, conn))
    (T := fun id m response => ∃ rows legacy, AnswerOf m id conn (.json response) rows legacy)
    ?_ ?_ ?_ ?_ ?_
  · exact fun id row => ⟨(confirmsNothing_sql _).answers, rfl⟩
  · exact fun response h =>
      tracked_confirmsNothing ⟨confirmsNothing_sendTo h, fun _ => trivial⟩
  · intro id user
    refine ⟨(confirmsNothing_node _).answers, fun _ => ?_⟩
    refine (answers_beside (beside_openSession_tail id _)).mono fun m' _ h => ?_
    rw [h]
    rfl
  · exact fun id user m hm => answers_syncSession id user hm
  · intro id m response hanswer hconfirmed
    refine ⟨fun conn' s u hc hs => ?_, fun _ => trivial⟩
    cases hc
    obtain rfl := Option.some.inj (hconfirmed.symm.trans hs)
    exact hanswer

theorem answers_body [JsonParser] (j : Job) :
    j.body.Tracked AnswerMemory.next Answers (fun _ _ => True) {} := by
  by_cases hlogin : ∃ conn js time, j = .frame conn js time ∧ msgType? js = some .loginMsg
  · obtain ⟨conn, js, time, rfl, hmsg⟩ := hlogin
    rw [body_of_login hmsg]
    exact answers_login
  · apply tracked_confirmsNothing
    apply confirmsNothing_body
    intro conn js time hj hmsg
    exact hlogin ⟨conn, js, time, hj, hmsg⟩

end Tracked

/-! ## The answers of a run -/

def answerMemory (a : Agent) (past : List ClusterEntry) : AnswerMemory :=
  memory Job.agent {} AnswerMemory.next a past

section Gained
variable {m : AnswerMemory} {j : Job} {c : Command} {r : Response c} {u : ℤ} {conn : Conn}

theorem bind_of_next (hnot : m.bound ≠ some (u, conn)) (h : (m.next c r).bound = some (u, conn)) :
    (Entry.did j c r : ClusterEntry) = .did j (.node (.mapBind u conn)) () := by
  cases c with
  | sql q => cases q <;> exact absurd h hnot
  | node q =>
      cases q with
      | mapBind userid conn' =>
          obtain ⟨rfl, rfl⟩ := Prod.mk.inj (Option.some.inj h)
          rfl
      | _ => exact absurd h hnot
  | redisPublish => exact absurd h hnot
  | sendTo conn' s =>
      simp only [AnswerMemory.next] at h
      split_ifs at h
      exact absurd h hnot

/-- What is read belongs to the binding before it. -/
theorem select_of_next {rows : List MessageRow}
    (hnot : ¬ (m.bound = some (u, conn) ∧ m.rows = some (u, rows)))
    (h : (m.next c r).bound = some (u, conn) ∧ (m.next c r).rows = some (u, rows)) : ∃ limit,
    (Entry.did j c r : ClusterEntry) = .did j (.sql (.selectUnacked u limit)) rows := by
  cases c with
  | sql q =>
      cases q with
      | selectUnacked receiverid limit =>
          obtain ⟨rfl, rfl⟩ := Prod.mk.inj (Option.some.inj h.2)
          exact ⟨limit, rfl⟩
      | _ => exact absurd h hnot
  | node q =>
      cases q with
      | mapBind userid conn' => cases h.2
      | _ => exact absurd h hnot
  | redisPublish => exact absurd h hnot
  | sendTo conn' s =>
      simp only [AnswerMemory.next] at h
      split_ifs at h
      · cases h.2
      · exact absurd h hnot

theorem offline_of_next {texts : List String} (hnot : m.legacy ≠ some (u, texts))
    (h : (m.next c r).legacy = some (u, texts)) :
    (Entry.did j c r : ClusterEntry) = .did j (.sql (.selectOffline u)) texts := by
  cases c with
  | sql q =>
      cases q with
      | selectOffline userid =>
          obtain ⟨rfl, rfl⟩ := Prod.mk.inj (Option.some.inj h)
          rfl
      | _ => exact absurd h hnot
  | node q =>
      cases q with
      | mapBind userid conn' => cases h
      | _ => exact absurd h hnot
  | redisPublish => exact absurd h hnot
  | sendTo conn' s =>
      simp only [AnswerMemory.next] at h
      split_ifs at h
      exact absurd h hnot

end Gained

theorem awaits_append {u : ℤ} {conn : Conn} {later earlier : List ClusterEntry}
    (hlater : ∀ j s r, .did j (.sendTo conn s) r ∈ later → confirmedUser? s ≠ some u)
    (h : awaits u conn earlier = true) : awaits u conn (later ++ earlier) = true := by
  induction later with
  | nil => exact h
  | cons e later ih =>
      have hrest : awaits u conn (later ++ earlier) = true := by
        apply ih
        intro j s r hmem
        exact hlater j s r (List.mem_cons_of_mem _ hmem)
      rw [List.cons_append]
      cases e with
      | did j c r =>
          cases c with
          | node q => cases q <;> simp [awaits, hrest]
          | sendTo d s =>
              have hother : ¬ (d = conn ∧ confirmedUser? s = some u) := by
                intro h
                rcases h with ⟨rfl, hs⟩
                exact hlater j s r List.mem_cons_self hs
              simp [awaits, hrest, hother]
          | _ => exact hrest
      | _ => exact hrest

theorem selected_sorted {u : ℤ} {limit : ℕ} {ok : Bool} {db : Database} {rows : List MessageRow}
    (h : rows = ((Statement.selectUnacked u limit).exec ok db).1) :
    rows.Pairwise fun r r' => r.messageId < r'.messageId := by
  subst h
  cases ok with
  | false => exact .nil
  | true =>
      have hsorted := db.chatMessage.select_sorted fun r => r.Unacked u
      exact hsorted.sublist (List.take_sublist _ _)

section Runs
variable [JsonParser] {E : Environment} {admits : ClusterView → ClusterEntry → Prop} {w : World}
  {es : List ClusterEntry} {x y : ClusterConfig} {u : ℤ} {conn : Conn} {a : Agent}

theorem answer_of_step (h : Steps (cluster E admits) (Config.initial w) es x) {j : Job} {s : Sent}
    {r : Unit} (hs : Step (cluster E admits) x (.did j (.sendTo conn s) r) y)
    (hconfirmed : confirmedUser? s = some u) :
    ∃ rows legacy, AnswerOf (answerMemory j.agent x.view.past) u conn s rows legacy :=
  h.tracked_did (P := fun _ => Answers) (Q := fun _ => True) answers_body trivial hs conn s u rfl
    hconfirmed

theorem agent_of_bind (h : Steps (cluster E admits) (Config.initial w) es x)
    {newer older : List ClusterEntry} {j : Job} {r : Response (.node (.mapBind u conn))}
    (hpast : x.view.past = newer ++ .did j (.node (.mapBind u conn)) r :: older) :
    j.agent = .io conn := by
  obtain ⟨js, time, pwd, rfl, -⟩ := login_of_bind h hpast
  rfl

theorem agent_of_bound (h : Steps (cluster E admits) (Config.initial w) es x)
    (hm : (answerMemory a x.view.past).bound = some (u, conn)) : a = .io conn := by
  obtain ⟨since, i, q, r, older, hpast, hi, hnot, hnext, -⟩ :=
    memory_since (D := fun m : AnswerMemory => m.bound = some (u, conn)) (by simp) hm
  rw [bind_of_next (j := i) hnot hnext] at hpast
  exact hi.symm.trans (agent_of_bind h hpast)

/-- A login that has not answered is still awaited on its connection. -/
theorem awaits_of_bound (h : Steps (cluster E admits) (Config.initial w) es x)
    (hm : (answerMemory a x.view.past).bound = some (u, conn)) :
    awaits u conn x.view.past = true := by
  obtain ⟨since, i, q, r, older, hpast, hi, hnot, hnext, hkept⟩ :=
    memory_since (D := fun m : AnswerMemory => m.bound = some (u, conn)) (by simp) hm
  rw [bind_of_next (j := i) hnot hnext] at hpast hkept
  rw [hpast]
  apply awaits_append
  · intro k s r' hmem hconfirmed
    obtain ⟨newer, rest, rfl⟩ := List.append_of_mem hmem
    obtain ⟨_, _, z, _, hbefore, -, hs, -, -⟩ := h.at_entry (hpast.trans (List.append_assoc ..))
    obtain ⟨rows, legacy, hanswer⟩ := answer_of_step hbefore hs hconfirmed
    have hk : k.agent = a := (agent_of_bound hbefore hanswer.bound).trans (agent_of_bound h hm).symm
    have hafter := hkept newer (.did k (.sendTo conn s) r' :: rest) rfl
    rw [List.cons_append, memory, if_pos hk] at hafter
    simp [AnswerMemory.next, hconfirmed] at hafter
  · simp [awaits]

/-- The rows of an answer have been read since the latest binding. -/
theorem select_since (h : Steps (cluster E admits) (Config.initial w) es x)
    {rows : List MessageRow} (hbound : (answerMemory a x.view.past).bound = some (u, conn))
    (hrows : (answerMemory a x.view.past).rows = some (u, rows)) :
    ∃ since i limit older,
      x.view.past = since ++ .did i (.sql (.selectUnacked u limit)) rows :: older ∧
        i.agent = .io conn ∧ ∀ k r, .did k (.node (.mapBind u conn)) r ∉ since := by
  have ha := agent_of_bound h hbound
  obtain ⟨since, i, q, r, older, hpast, hi, hnot, hnext, hkept⟩ :=
    memory_since (D := fun m : AnswerMemory => m.bound = some (u, conn) ∧ m.rows = some (u, rows))
      (by simp) ⟨hbound, hrows⟩
  obtain ⟨limit, he⟩ := select_of_next (j := i) hnot hnext
  rw [he] at hpast hkept
  refine ⟨since, i, limit, older, hpast, hi.trans ha, fun k r' hmem => ?_⟩
  obtain ⟨newer, rest, rfl⟩ := List.append_of_mem hmem
  have hk : k.agent = a :=
    (agent_of_bind h (hpast.trans (List.append_assoc ..))).trans ha.symm
  have hafter := hkept newer (.did k (.node (.mapBind u conn)) r' :: rest) rfl
  rw [List.cons_append, memory, if_pos hk] at hafter
  cases hafter.2

theorem offline_of_answer (h : Steps (cluster E admits) (Config.initial w) es x)
    {legacy : List String} (hlegacy : (answerMemory a x.view.past).legacy = some (u, legacy))
    {text : String} (htext : text ∈ legacy) : (u, text) ∈ w.db.offlinemessage := by
  obtain ⟨since, i, q, r, older, hpast, -, hnot, hnext, -⟩ :=
    memory_since (D := fun m : AnswerMemory => m.legacy = some (u, legacy)) (by simp) hlegacy
  rw [offline_of_next (j := i) hnot hnext] at hpast
  refine legacy_of_selected h (j := i) ?_ htext
  rw [hpast]
  simp

/-! ## What an answer lists -/

/-- An answer lists a message once, if its texts read back and no legacy text names it. -/
theorem countP_listedTexts {rows : List MessageRow} {legacy : List String} {messageid : ℤ}
    (hsorted : rows.Pairwise fun r r' => r.messageId < r'.messageId)
    (hread : ∀ r ∈ rows, r.ReadsBack)
    (hlegacy : ∀ text ∈ legacy, textId? (cStr text) ≠ some messageid) :
    (listedTexts rows legacy).countP (fun text => textId? text = some messageid) ≤ 1 := by
  have hnone : (legacy.map cStr).countP (fun text => textId? text = some messageid) = 0 := by
    rw [List.countP_eq_zero]
    intro text htext
    obtain ⟨t, ht, rfl⟩ := List.mem_map.mp htext
    simpa using hlegacy t ht
  have hids : (rows.map MessageRow.messageId).count messageid ≤ 1 := by
    apply List.nodup_iff_count_le_one.mp
    rw [List.Nodup, List.pairwise_map]
    exact hsorted.imp fun hlt => ne_of_lt hlt
  have hrows : rows.countP (fun r => textId? (cStr r.payload) = some messageid) =
      (rows.map MessageRow.messageId).count messageid := by
    rw [List.count, List.countP_map]
    apply List.countP_congr
    intro r hr
    have hback : textId? (cStr r.payload) = some r.messageId := hread r hr
    simp [hback]
  have hlisted : (((storedMessages rows).filter fun m => m.payload ≠ "").map
      StoredMessage.payload).countP (fun text => textId? text = some messageid) ≤
        rows.countP (fun r => textId? (cStr r.payload) = some messageid) := by
    rw [List.countP_map]
    calc ((storedMessages rows).filter fun m => m.payload ≠ "").countP
          ((fun text => decide (textId? text = some messageid)) ∘ StoredMessage.payload)
        ≤ (storedMessages rows).countP
          ((fun text => decide (textId? text = some messageid)) ∘ StoredMessage.payload) :=
          List.Sublist.countP_le List.filter_sublist
      _ = rows.countP (fun r => textId? (cStr r.payload) = some messageid) := by
          rw [storedMessages, List.countP_map]
          rfl
  rw [listedTexts, List.countP_append, hnone]
  omega

end Runs
end ChatCluster
