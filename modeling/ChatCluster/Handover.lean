import ChatCluster.SessionOutlines

/-!
# A teardown and the next login

The session of a user is torn down on one connection while the user logs in again on
another one, on any node. The `online` flag works as a lock: a login passes its check
only after the teardown has written `offline`, as its last step, so no step of the
teardown meets anything of the new session.
-/
namespace ChatCluster
open CommandProgram Interleaving

/-- The job tears down the session of user `u` on connection `c`. -/
def Job.EndsSessionOf (u : ℤ) (c : Conn) : Job → Prop
  | .frame conn js _ =>
      conn = c ∧ msgType? js = some .loginoutMsg ∧ getInt js "id" = some u
  | .close conn => conn = c
  | _ => False

/-- The job is a login attempt for user `u` on connection `c`. -/
def Job.LogsInAs (u : ℤ) (c : Conn) : Job → Prop
  | .frame conn js _ => conn = c ∧ msgType? js = some .loginMsg ∧ getInt js "id" = some u
  | _ => False

/-- Nothing happens but teardowns on `c` and login attempts on `c'`, none of them
stopped midway. -/
def HandoverEntry (u : ℤ) (c c' : Conn) : ClusterEntry → Prop
  | .started j => j.EndsSessionOf u c ∨ j.LogsInAs u c'
  | .did j _ _ => j.EndsSessionOf u c ∨ j.LogsInAs u c'
  | .aborted _ => False
  | .disturbed => True

def Handover (u : ℤ) (c c' : Conn) (v : ClusterView) (e : ClusterEntry) : Prop :=
  ∀ f ∈ e :: v.past, HandoverEntry u c c' f

/-- The user is online, and bound and subscribed for connection `c` only. -/
structure SessionHeld (u : ℤ) (c : Conn) (w : World) : Prop where
  online : w.db.userState u = some .online
  bound : ∀ n d, w.bound n u = some d ↔ d = c ∧ n = c.node
  subscribed : ∀ n, w.Subscribed n u ↔ n = c.node

/-- The user is offline, and bound and subscribed nowhere. -/
structure SignedOff (u : ℤ) (w : World) : Prop where
  offline : w.db.userState u = some .offline
  unbound : ∀ n, w.bound n u = none
  unsubscribed : ∀ n, ¬ w.Subscribed n u

/-- The step leaves alone what belongs to a session on `c`. -/
structure Spares (u : ℤ) (c : Conn) (w w' : World) : Prop where
  bound : w'.bound c.node u = some c
  subscribed : w.Subscribed c.node u → w'.Subscribed c.node u
  online : w.db.userState u = some .online → w'.db.userState u = some .online

/-- A login on the connection has been answered with success. -/
def Confirmed (u : ℤ) (c : Conn) (past : List ClusterEntry) : Prop :=
  ∃ j s, .did j (.sendTo c s) () ∈ past ∧ confirmedUser? s = some u

/-- A login on the connection has been turned down. -/
def Refused (c : Conn) (past : List ClusterEntry) : Prop :=
  ∃ j s, .did j (.sendTo c s) () ∈ past ∧ IsRefusal s

section Handover
variable {u : ℤ} {c c' : Conn} {v v' : ClusterView} {e : ClusterEntry} {w w' : World}

theorem SessionHeld.phaseHolds {R : Prop} (h : SessionHeld u c w)
    (hredis : ∀ n, (w.node n).redisConnected = true) : PhaseHolds u R (.active c) w where
  row := by
    obtain ⟨r, hr, hst⟩ := Option.map_eq_some_iff.mp h.online
    exact ⟨r, hr, hst⟩
  bound n d := by
    rw [h.bound]
    exact ⟨fun ⟨hd, hn⟩ => ⟨congrArg some hd.symm, hd ▸ hn.symm⟩,
      fun ⟨hd, hn⟩ => ⟨(Option.some.inj hd).symm, by rw [← hn, Option.some.inj hd]⟩⟩
  subscriber _ n hn := ⟨c, rfl, ((h.subscribed n).mp hn).symm⟩
  established _ d hd := by
    obtain rfl := Option.some.inj hd
    exact (h.subscribed _).mpr rfl
  redis _ := hredis

theorem PhaseHolds.sessionHeld (h : PhaseHolds u True (.active c) w) : SessionHeld u c w where
  online := by
    obtain ⟨r, hr, hst⟩ := h.row
    rw [Database.userState_of_selectUser hr, hst]
    rfl
  bound n d := by
    rw [h.bound]
    constructor
    · intro h
      rcases h with ⟨hd, hn⟩
      have hc : d = c := (Option.some.inj hd).symm
      exact ⟨hc, by rw [← hn, hc]⟩
    · intro h
      rcases h with ⟨rfl, rfl⟩
      exact ⟨rfl, rfl⟩
  subscribed n := by
    constructor
    · intro hn
      obtain ⟨d, hd, rfl⟩ := h.subscriber trivial n hn
      rw [Option.some.inj hd]
    · intro heq
      subst heq
      exact h.established trivial c rfl

theorem PhaseHolds.signedOff (h : PhaseHolds u True .free w) : SignedOff u w where
  offline := by
    obtain ⟨r, hr, hst⟩ := h.row
    rw [Database.userState_of_selectUser hr, hst]
    rfl
  unbound n := Option.eq_none_iff_forall_ne_some.mpr fun d hd =>
    nomatch ((h.bound n d).mp hd).1
  unsubscribed n hn := by
    obtain ⟨d, hd, -⟩ := h.subscriber trivial n hn
    cases hd

/-! ## The rules hold -/

theorem frame_of_claims {conn : Conn} {js : Json} {time : String} {row : Option UserRow}
    (h : Job.EndsSessionOf u c (.frame conn js time) ∨ Job.LogsInAs u c' (.frame conn js time))
    (hpass : loginPasses u js row = true) : conn = c' := by
  obtain ⟨-, hlogout, -⟩ | ⟨hconn, -, -⟩ := h
  · have hlogin := (of_decide_eq_true hpass).1
    rw [hlogout] at hlogin
    cases hlogin
  · exact hconn

/-- All logins run on one connection, so they do not overlap. -/
theorem handover_rules :
    SessionRules u (.active c) True .calm (Handover u c c') where
  sqlOk _ _ _ h := h
  redisOk _ _ _ h := h
  undisturbed _ _ _ h := h
  noAbort v j h := h _ List.mem_cons_self
  noSignal v n h := (h _ List.mem_cons_self).elim id id
  noOverlap v conn js time row hapart h hpass := by
    have hconn := frame_of_claims (h _ List.mem_cons_self) hpass
    by_contra hpending
    rw [Bool.not_eq_false] at hpending
    obtain ⟨d, hd⟩ : ∃ d, (phase u (.active c) v.past).owner = some d := by
      match phase u (.active c) v.past, hpending with
      | .claimed d, _ => exact ⟨d, rfl⟩
      | .bound d, _ => exact ⟨d, rfl⟩
    obtain ⟨js', time', row', hmem, hpass'⟩ | ⟨-, hnot⟩ :=
      claimed_of_holder (Phase.holder_of_owner hd)
    · have hd' := frame_of_claims (h _ (List.mem_cons_of_mem _ hmem)) hpass'
      exact hapart (by rw [hd, hd', hconn])
    · exact absurd (hnot hpending) Bool.false_ne_true

theorem agent_of_endsSessionOf {j : Job} (h : j.EndsSessionOf u c) : j.agent = .io c := by
  cases j with
  | frame => exact congrArg Agent.io h.1
  | close => exact congrArg Agent.io h
  | redisMessage | sigint => exact h.elim

theorem agent_of_logsInAs {j : Job} (h : j.LogsInAs u c) : j.agent = .io c := by
  cases j with
  | frame => exact congrArg Agent.io h.1
  | close | redisMessage | sigint => exact h.elim

theorem isLogin_of_logsInAs {j : Job} (h : j.LogsInAs u c) : j.IsLogin := by
  cases j with
  | frame => exact h.2.1
  | close | redisMessage | sigint => exact h.elim

theorem not_isLogin_of_endsSessionOf {j : Job} (h : j.EndsSessionOf u c) : ¬ j.IsLogin := by
  cases j with
  | frame => exact fun hl => absurd (h.2.1.symm.trans hl) (by decide)
  | close => exact not_false
  | redisMessage | sigint => exact h.elim

/-- The moves of the loop of `c'` are those of logins. -/
theorem isLogin_of_handover (hc : c' ≠ c) (he : HandoverEntry u c c' e) {j : Job}
    (hj : e.job? = some j) (hmade : MadeBy e c') : j.IsLogin := by
  have hagent : j.agent = .io c' := by
    rw [MadeBy, hj] at hmade
    exact Option.some.inj hmade
  have hjob : j.EndsSessionOf u c ∨ j.LogsInAs u c' := by
    cases e with
    | started | did => exact Option.some.inj hj ▸ he
    | aborted => exact he.elim
    | disturbed => cases hj
  refine hjob.elim (fun h => ?_) isLogin_of_logsInAs
  exact absurd (Agent.io.inj (hagent.symm.trans (agent_of_endsSessionOf h))) hc

variable [JsonParser]

/-! ## What a run keeps -/

/-- The session on `c'` is active exactly when a login there has been confirmed. -/
theorem active_of_moves (hc : c' ≠ c)
    (hv : (sessionContract u (.active c) True).inv v)
    (hp : (sessionContract u (.active c) True).Promised v e)
    (hm : Moves (cluster .calm (Handover u c c')) v e v')
    (h : phase u (.active c) v.past = .active c' ↔ Confirmed u c' v.past) :
    phase u (.active c) v'.past = .active c' ↔ Confirmed u c' v'.past := by
  have hturn := (phaseStep_of_moves handover_rules hv hm hp).turn
  have hentry := hm.admitted e List.mem_cons_self
  constructor
  · intro hactive
    rw [hactive] at hturn
    obtain hsame | ⟨d, -, hturn⟩ := hturn
    · obtain ⟨j, s, hmem, hs⟩ := h.mp hsame.symm
      exact ⟨j, s, hm.recorded ▸ List.mem_cons_of_mem e hmem, hs⟩
    · obtain ⟨j, s, rfl, hs⟩ := hturn.answered
      exact ⟨j, s, hm.recorded ▸ List.mem_cons_self, hs⟩
  · intro h
    rcases h with ⟨j, s, hmem, hs⟩
    rw [hm.recorded, List.mem_cons] at hmem
    rcases hmem with rfl | hmem
    · rw [hm.recorded, phase, (hp hs).2]
      exact if_pos hs
    · have hactive := h.mpr ⟨j, s, hmem, hs⟩
      obtain hsame | ⟨d, hd, hturn⟩ := hturn
      · rw [hsame, hactive]
      · rw [hactive] at hturn
        obtain rfl := hturn.holder_before rfl
        obtain ⟨i, hi, hlogin⟩ := hturn.torn_down
        exact absurd (isLogin_of_handover hc hentry hi hd) hlogin

/-- Nobody else gets bound to `c`, so a teardown does not erase the entry of another. -/
def OnlyUserOn (u : ℤ) (c : Conn) (v : ClusterView) : Prop :=
  (∀ id, v.state.bound c.node id = some c → id = u) ∧
    ∀ (j : Job) (id : ℤ), .did j (.node (.mapEraseConn c)) (some id) ∈ v.past → id = u

theorem onlyUserOn_of_moves (hc : c' ≠ c)
    (hp : (sessionContract u (.active c) True).Promised v e)
    (hm : Moves (cluster .calm (Handover u c c')) v e v') (h : OnlyUserOn u c v) :
    OnlyUserOn u c v' := by
  have hentry := hm.admitted e List.mem_cons_self
  constructor
  · intro id hid
    cases e with
    | started j =>
        rw [World.bound, (Job.node_starts hm.effect _).1] at hid
        exact h.1 id hid
    | aborted j => exact hentry.elim
    | disturbed => exact hm.effect.1.elim
    | did j cmd r =>
        obtain ⟨-, o, -, he⟩ := hm.effect
        obtain ⟨hold, -⟩ | ⟨-, rfl⟩ := bound_exec he hid
        · exact h.1 id hold
        · -- only a login binds, and logins run on the other connection
          obtain ⟨hagent, hlogin, -⟩ := hp
          obtain hends | hlogs := hentry
          · exact absurd hlogin (not_isLogin_of_endsSessionOf hends)
          · exact absurd (Agent.io.inj ((agent_of_logsInAs hlogs).symm.trans hagent)) hc
  · intro j id hmem
    rw [hm.recorded, List.mem_cons] at hmem
    rcases hmem with rfl | hmem
    · obtain ⟨-, o, -, he⟩ := hm.effect
      obtain ⟨s', hs, -⟩ := exec_node he
      rw [hp.2.1] at hs
      obtain ⟨i, hi, hlookup, -⟩ | ⟨hnone, -, -⟩ := NodeOp.exec_mapEraseConn hs
      · obtain rfl := Option.some.inj hi
        exact h.1 _ hlookup
      · cases hnone
    · exact h.2 j id hmem

/-- No step of a teardown touches a session on another connection. -/
theorem spares_of_moves (hc : c' ≠ c) (hv : (sessionContract u (.active c) True).inv v)
    (hp : (sessionContract u (.active c) True).Promised v e)
    (hm : Moves (cluster .calm (Handover u c c')) v e v') {T : Job} (hT : T.EndsSessionOf u c)
    (he : e.job? = some T) (hbound : v.state.bound c'.node u = some c') :
    Spares u c' v.state v'.state := by
  have hstep := phaseStep_of_moves handover_rules hv hm hp
  have hbinding := (bound_iff_binding hv).mp hbound
  have hother : ∀ d, MadeBy e d → d ≠ c' := fun d hd hdc => by
    rw [MadeBy, he, Option.map_some, agent_of_endsSessionOf hT] at hd
    exact hc (hdc ▸ (Agent.io.inj (Option.some.inj hd)).symm)
  have hsame : phase u (.active c) v'.past = phase u (.active c) v.past := by
    obtain hsame | ⟨d, hd, hturn⟩ := hstep.turn
    · exact hsame
    · exact absurd (hturn.holder_before (Phase.holder_of_binding hbinding)).symm (hother d hd)
  have hv' := hstep.holds
  rw [hsame] at hv'
  constructor
  · exact (hv'.bound _ _).mpr ⟨hbinding, rfl⟩
  · intro hsub
    refine (hstep.kept trivial _ hsub).resolve_right fun ⟨d, _, hclosing⟩ => ?_
    rw [hclosing] at hbinding
    cases hbinding
  · intro honline
    obtain ⟨r, hr, hst⟩ := hv.row
    obtain ⟨r', hr', hst'⟩ := hv'.row
    rw [Database.userState_of_selectUser hr, hst] at honline
    rw [Database.userState_of_selectUser hr', hst']
    exact honline

section Rest
variable {es : List ClusterEntry} {x : Config World Job Agent Command Response}

theorem entries_of_run (hrun : Steps (cluster .calm (Handover u c c')) (Config.initial w) es x) :
    ∀ e ∈ x.view.past, HandoverEntry u c c' e :=
  hrun.forall_recorded (P := HandoverEntry u c c')
    (fun v e v' (hm : Moves (cluster .calm (Handover u c c')) v e v') =>
      hm.admitted e List.mem_cons_self) fun _ hmem => (nomatch hmem)

/-- The latest job of a loop that has started one. -/
theorem exists_last (hrun : Steps (cluster .calm (Handover u c c')) (Config.initial w) es x)
    {j : Job} (hj : .started j ∈ x.view.past) : ∃ i, (x.slot j.agent).last = some i ∧
      i.agent = j.agent ∧ (i.EndsSessionOf u c ∨ i.LogsInAs u c') := by
  obtain ⟨i, hi⟩ := hrun.last_of_started hj
  obtain ⟨hagent, hstarted⟩ := hrun.started_of_last hi
  exact ⟨i, hi, hagent, entries_of_run hrun _ hstarted⟩

/-- After a teardown at rest the old session is over. -/
theorem ended_of_rest (hc : c' ≠ c)
    (hrun : Steps (cluster .calm (Handover u c c')) (Config.initial w) es x)
    (hx : ConfigOk (cluster .calm (Handover u c c')) (sessionContract u (.active c) True)
      (AtRest u (.active c)) x) (honly : OnlyUserOn u c x.view) (hidle : (x.slot (.io c)).Idle)
    {T : Job} (hT : T.EndsSessionOf u c) (hstarted : .started T ∈ x.view.past) :
    (phase u (.active c) x.view.past).established ≠ some c := by
  obtain ⟨i, hlast, hagent, hi⟩ := exists_last hrun hstarted
  rw [agent_of_endsSessionOf hT] at hlast hagent
  have hends : i.EndsSessionOf u c := hi.resolve_right fun h =>
    absurd (Agent.io.inj ((agent_of_logsInAs h).symm.trans hagent)) hc
  have hsettled := (((hx.slots (.io c)).idle hidle) c rfl).2 i hlast hagent
  cases i with
  | frame conn js time =>
      obtain ⟨rfl, hlogout, hid⟩ := hends
      exact hsettled.2 hlogout hid
  | close conn =>
      obtain rfl := hends
      refine hsettled.resolve_right fun ⟨id, hid, hmem⟩ => hid ?_
      exact honly.2 _ id hmem
  | redisMessage | sigint => exact hends.elim

/-- A login at rest has been answered. -/
theorem answered_of_rest (hc : c' ≠ c)
    (hrun : Steps (cluster .calm (Handover u c c')) (Config.initial w) es x)
    (hx : ConfigOk (cluster .calm (Handover u c c')) (sessionContract u (.active c) True)
      (AtRest u (.active c)) x) (hidle : (x.slot (.io c')).Idle)
    {L : Job} (hL : L.LogsInAs u c') (hstarted : .started L ∈ x.view.past) :
    Confirmed u c' x.view.past ∨ Refused c' x.view.past := by
  obtain ⟨i, hlast, hagent, hi⟩ := exists_last hrun hstarted
  rw [agent_of_logsInAs hL] at hlast hagent
  have hlogs : i.LogsInAs u c' := hi.resolve_left fun h =>
    absurd (Agent.io.inj (hagent.symm.trans (agent_of_endsSessionOf h))) hc
  have hsettled := (((hx.slots (.io c')).idle hidle) c' rfl).2 i hlast hagent
  cases i with
  | frame conn js time =>
      obtain ⟨rfl, hlogin, hid⟩ := hlogs
      obtain ⟨s, hmem, hs⟩ := hsettled.1 hlogin hid
      exact hs.imp (fun hs => ⟨_, s, hmem, hs⟩) fun hs => ⟨_, s, hmem, hs⟩
  | close | redisMessage | sigint => exact hlogs.elim

/-- With both loops at rest the cycle is free or the new session is active. -/
theorem phase_of_rest
    (hrun : Steps (cluster .calm (Handover u c c')) (Config.initial w) es x)
    (hx : ConfigOk (cluster .calm (Handover u c c')) (sessionContract u (.active c) True)
      (AtRest u (.active c)) x) (hidle : (x.slot (.io c)).Idle) (hidle' : (x.slot (.io c')).Idle)
    (hended : (phase u (.active c) x.view.past).established ≠ some c) :
    phase u (.active c) x.view.past = .free ∨ phase u (.active c) x.view.past = .active c' := by
  have hapart := (((hx.slots (.io c)).idle hidle) c rfl).1
  have hapart' := (((hx.slots (.io c')).idle hidle') c' rfl).1
  have hholder : ∀ d, (phase u (.active c) x.view.past).holder = some d → d = c ∨ d = c' := by
    intro d hd
    obtain ⟨js, time, row, hmem, hpass⟩ | ⟨hd, -⟩ := claimed_of_holder hd
    · exact .inr (frame_of_claims (entries_of_run hrun _ hmem) hpass)
    · exact .inl (Option.some.inj hd).symm
  match hp : phase u (.active c) x.view.past with
  | .free => exact .inl rfl
  | .claimed d | .bound d | .opened d | .closing d =>
      rw [hp] at hapart hapart' hholder
      obtain rfl | rfl := hholder d rfl
      · exact absurd rfl hapart
      · exact absurd rfl hapart'
  | .active d =>
      rw [hp] at hended hholder
      obtain rfl | rfl := hholder d rfl
      · exact absurd rfl hended
      · exact .inr rfl

end Rest

/-- A teardown and a login on another connection, in any interleaving. No step of the
teardown takes anything away from the new session. When both loops have come to rest,
either the login has been confirmed and its session stands, or it has been refused and
the user is signed off. -/
theorem teardown_spares_newer_session (hc : c' ≠ c) (hu : w.db.Registered u)
    (hheld : SessionHeld u c w) (honly : ∀ id, w.bound c.node id = some c → id = u)
    (hredis : ∀ n, (w.node n).redisConnected = true) {es : List ClusterEntry}
    {x : Config World Job Agent Command Response}
    (hrun : Steps (cluster .calm (Handover u c c')) (Config.initial w) es x) :
    (∀ T e y, T.EndsSessionOf u c → e.job? = some T →
      Step (cluster .calm (Handover u c c')) x e y → x.view.state.bound c'.node u = some c' →
      Spares u c' x.view.state y.view.state) ∧
    ((x.slot (.io c)).Idle → (x.slot (.io c')).Idle →
      (∃ T, T.EndsSessionOf u c ∧ .started T ∈ x.view.past) →
      (∃ L, L.LogsInAs u c' ∧ .started L ∈ x.view.past) →
      Confirmed u c' x.view.past ∧ SessionHeld u c' x.view.state ∨
        ¬ Confirmed u c' x.view.past ∧ Refused c' x.view.past ∧ SignedOff u x.view.state) := by
  have hpos : u ≠ -1 := fun e => absurd (e ▸ hu.1) (by decide)
  have hrules : SessionRules u (.active c) True .calm (Handover u c c') := handover_rules
  have hverified := session_verified hrules hpos
  have hinitial : ConfigOk (cluster .calm (Handover u c c')) (sessionContract u (.active c) True)
      (AtRest u (.active c)) (Config.initial w) :=
    .initial (hheld.phaseHolds hredis) fun a conn _ =>
      ⟨(Option.some_ne_none conn).symm, fun _ h => (nomatch h)⟩
  have hx := hverified.sound hrun hinitial
  refine ⟨fun T e y hT he hy => spares_of_moves hc hx.inv (hx.promised hy) hy.moves hT he, ?_⟩
  intro hidle hidle' ⟨T, hT, hTstarted⟩ ⟨L, hL, hLstarted⟩
  have hactive := hverified.preserves
    (P := fun v => phase u (.active c) v.past = .active c' ↔ Confirmed u c' v.past)
    (fun v e v' hv hp hm => active_of_moves hc hv hp hm) hrun hinitial
    ⟨fun h => absurd (Phase.active.inj h).symm hc, fun ⟨_, _, hmem, _⟩ => (nomatch hmem)⟩
  have honlyUser := hverified.preserves (P := OnlyUserOn u c)
    (fun v e v' _ hp hm => onlyUserOn_of_moves hc hp hm) hrun hinitial
    ⟨honly, fun _ _ hmem => (nomatch hmem)⟩
  have hended := ended_of_rest hc hrun hx honlyUser hidle hT hTstarted
  have hinv : PhaseHolds u True (phase u (.active c) x.view.past) x.view.state := hx.inv
  obtain hfree | hnew := phase_of_rest hrun hx hidle hidle' hended
  · have hnot : ¬ Confirmed u c' x.view.past := fun h => by
      rw [hactive.mpr h] at hfree
      cases hfree
    rw [hfree] at hinv
    exact .inr ⟨hnot, (answered_of_rest hc hrun hx hidle' hL hLstarted).resolve_left hnot,
      hinv.signedOff⟩
  · rw [hnew] at hinv
    exact .inl ⟨hactive.mp hnew, hinv.sessionHeld⟩

end Handover

instance (u : ℤ) (c : Conn) : DecidablePred (Job.EndsSessionOf u c)
  | .frame _ _ _ => inferInstanceAs (Decidable (_ ∧ _ ∧ _))
  | .close _ => inferInstanceAs (Decidable (_ = _))
  | .redisMessage _ _ _ => isFalse not_false
  | .sigint _ => isFalse not_false

instance (u : ℤ) (c : Conn) : DecidablePred (Job.LogsInAs u c)
  | .frame _ _ _ => inferInstanceAs (Decidable (_ ∧ _ ∧ _))
  | .close _ => isFalse not_false
  | .redisMessage _ _ _ => isFalse not_false
  | .sigint _ => isFalse not_false

instance (u : ℤ) (c c' : Conn) : DecidablePred (HandoverEntry u c c')
  | .started _ => inferInstanceAs (Decidable (_ ∨ _))
  | .did _ _ _ => inferInstanceAs (Decidable (_ ∨ _))
  | .aborted _ => isFalse not_false
  | .disturbed => isTrue trivial

/-- User `1` online on connection `⟨0, 0⟩`. -/
def sessionWorld : World :=
  (World.fresh ((Statement.registered [("ann", "pw")]).updateUserState 1 .online)).setNode 0
    { NodeState.fresh 0 with
      userConnMap := (∅ : AList fun _ : ℤ => Conn).insert 1 ⟨0, 0⟩
      subscriptions := {1} }

theorem bound_sessionWorld {n : ℕ} {id : ℤ} {d : Conn} (h : sessionWorld.bound n id = some d) :
    n = 0 ∧ id = 1 ∧ d = ⟨0, 0⟩ := by
  rw [sessionWorld, bound_of_node rfl] at h
  split_ifs at h with hn
  · by_cases hid : id = 1
    · subst hid
      rw [AList.lookup_insert] at h
      exact ⟨hn, rfl, (Option.some.inj h).symm⟩
    · rw [AList.lookup_insert_ne hid] at h
      cases h
  · cases h

theorem sessionHeld_sessionWorld : SessionHeld 1 ⟨0, 0⟩ sessionWorld where
  online := by decide
  bound n d := by
    constructor
    · intro h
      obtain ⟨hn, -, hd⟩ := bound_sessionWorld h
      exact ⟨hd, hn⟩
    · intro h
      rcases h with ⟨rfl, rfl⟩
      rfl
  subscribed n := by
    rw [sessionWorld, subscribed_of_node rfl]
    split_ifs with hn
    · exact ⟨fun _ => hn, fun _ => Finset.mem_singleton_self _⟩
    · exact ⟨fun h => absurd h (Finset.notMem_empty _), fun h => absurd h hn⟩

/-- The connection is closed while the user logs in again on the same node. -/
theorem teardown_spares_newer_session_close : letI := Cluster.rejectAll
    ∃ es x, Steps (cluster .calm (Handover 1 ⟨0, 0⟩ ⟨0, 1⟩)) (Config.initial sessionWorld) es x ∧
      (Confirmed 1 ⟨0, 1⟩ x.view.past ∧ SessionHeld 1 ⟨0, 1⟩ x.view.state ∨
        ¬ Confirmed 1 ⟨0, 1⟩ x.view.past ∧ Refused ⟨0, 1⟩ x.view.past ∧
          SignedOff 1 x.view.state) := by
  let _ := Cluster.rejectAll
  let P := Cluster.replayer .calm (Handover 1 ⟨0, 0⟩ ⟨0, 1⟩)
    (fun v e => decide (∀ f ∈ e :: v.past, HandoverEntry 1 ⟨0, 0⟩ ⟨0, 1⟩ f))
    fun _ _ => of_decide_eq_true
  let cues : List (Cue Job Agent Choice) :=
    [.start (.close ⟨0, 0⟩), .act (.io ⟨0, 0⟩) { victim := some 1 },
      .start (.frame ⟨0, 1⟩ (Client.loginRequest 1 "pw") "")] ++
    List.replicate 3 (.act (.io ⟨0, 0⟩) {}) ++ List.replicate 10 (.act (.io ⟨0, 1⟩) {})
  obtain ⟨es, x, hrun, hx⟩ := P.exists_steps (x := Config.initial sessionWorld) cues
    (p := fun x => (x.slot (.io ⟨0, 0⟩)).Idle ∧ (x.slot (.io ⟨0, 1⟩)).Idle ∧
      anyStarted (fun j => j.EndsSessionOf 1 ⟨0, 0⟩) x.view.past ∧
      anyStarted (fun j => j.LogsInAs 1 ⟨0, 1⟩) x.view.past) (by decide)
  obtain ⟨hidle, hidle', hT, hL⟩ := of_decide_eq_true hx
  obtain ⟨T, hT, hTstarted⟩ := exists_of_anyStarted hT
  obtain ⟨L, hL, hLstarted⟩ := exists_of_anyStarted hL
  refine ⟨es, x, hrun, (teardown_spares_newer_session (by decide) ⟨by decide, _, rfl⟩
    sessionHeld_sessionWorld (fun _ h => (bound_sessionWorld h).2.1) (fun n => ?_) hrun).2 hidle
    hidle' ⟨T, of_decide_eq_true hT, hTstarted⟩ ⟨L, of_decide_eq_true hL, hLstarted⟩⟩
  rw [sessionWorld, World.node_setNode]
  split_ifs <;> rfl

end ChatCluster
