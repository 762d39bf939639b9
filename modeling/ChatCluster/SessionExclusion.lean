import ChatCluster.SessionOutlines

/-!
# One session per user

As long as no two logins overlap between the check of the user's state and the write
of `online`, a user is bound on one node only and at most one login is answered
between two teardowns. Two overlapping logins both succeed: between the check and the
write nothing keeps the second one out.
-/
namespace ChatCluster
open CommandProgram Interleaving

/-- How a command and its response change the number of confirmed logins of user `u`
since the latest teardown, which is marked by the erasure of the user's entry. -/
def countAnswer (u : ℤ) (n : ℕ) : (c : Command) → Response c → ℕ
  | .node (.mapErase id), _ => if id = u then 0 else n
  | .node (.mapEraseConn _), (erased : Option ℤ) => if erased = some u then 0 else n
  | .sendTo _ s, _ => if confirmedUser? s = some u then n + 1 else n
  | _, _ => n

def answersSinceTeardown (u : ℤ) : List ClusterEntry → ℕ
  | [] => 0
  | .did _ c r :: past => countAnswer u (answersSinceTeardown u past) c r
  | _ :: past => answersSinceTeardown u past

/-- Only session handlers run, and none is stopped midway. -/
def SessionsOnly : ClusterEntry → Prop
  | .started j => j.IsSession
  | .aborted _ => False
  | _ => True

instance : DecidablePred SessionsOnly
  | .started j => inferInstanceAs (Decidable j.IsSession)
  | .did _ _ _ => isTrue trivial
  | .aborted _ => isFalse not_false
  | .disturbed => isTrue trivial

/-- A login of user `u` passes its check while another one is between its own check
and its write of `online`. -/
def overlaps (u : ℤ) (v : ClusterView) : ClusterEntry → Bool
  | .did (.frame _ js _) (.sql (.selectUser id)) row =>
      decide (id = u) && loginPasses u js row && (phase u .free v.past).pending
  | _ => false

def Phase.answers : Phase → ℕ
  | .active _ => 1
  | _ => 0

namespace Phase

theorem answers_afterWrite (p : Phase) (state : UserState) :
    (p.afterWrite state).answers = p.answers := by
  cases state <;> cases p <;> rfl

theorem answers_afterBind (p : Phase) : p.afterBind.answers = p.answers := by
  cases p <;> rfl

theorem answers_afterErase (p : Phase) : p.afterErase.answers = 0 := by
  cases p <;> rfl

/-- No login passes its check while the session is active. -/
theorem answers_afterCheck {u : ℤ} {p : Phase} {j : Job} {row : Option UserRow}
    (h : p.afterCheck u j row = p ∨ ∃ d e, Turn u d e p (p.afterCheck u j row)) :
    (p.afterCheck u j row).answers = p.answers := by
  obtain hsame | ⟨d, e, hturn⟩ := h
  · rw [hsame]
  · cases j with
    | frame conn js time =>
        simp only [afterCheck] at hturn ⊢
        split_ifs at hturn ⊢
        · cases hturn
          rfl
        · rfl
    | _ => rfl

end Phase

theorem sessionRules_of_noOverlap {u : ℤ} {E : Environment}
    (hsql : ∀ j q, ¬ E.mayFail j (.sql q)) :
    SessionRules u .free False E fun v e => SessionsOnly e ∧ overlaps u v e = false where
  sqlOk j q _ := hsql j q
  redisOk := False.elim
  undisturbed := False.elim
  noAbort _ _ h := h.1
  noSignal _ _ h := h.1
  noOverlap v conn js time row _ h hpass := by
    have hno := h.2
    simp only [overlaps, decide_true, Bool.true_and, hpass] at hno
    exact hno

/-- An offline and unbound user has no session. -/
theorem phaseHolds_free {u : ℤ} {w : World} (hu : w.db.Registered u)
    (hoffline : w.db.userState u ≠ some .online) (hunbound : ∀ n, w.bound n u = none) :
    PhaseHolds u False .free w where
  row := by
    obtain ⟨row, hrow⟩ := hu.2
    exact ⟨row, hrow, Database.state_of_not_online hrow hoffline⟩
  bound n d := by
    rw [hunbound]
    constructor
    · intro h
      cases h
    · intro h
      cases h.1
  subscriber := False.elim
  established := False.elim
  redis := False.elim

section Exclusion
variable [JsonParser] {u : ℤ} {R : Prop} {E : Environment}
  {admits : ClusterView → ClusterEntry → Prop} {v v' : ClusterView} {e : ClusterEntry}

/-- The number of confirmed logins follows the phase. -/
theorem answers_of_moves (hrules : SessionRules u .free R E admits)
    (hv : (sessionContract u .free R).inv v) (hp : (sessionContract u .free R).Promised v e)
    (hm : Moves (cluster E admits) v e v')
    (h : answersSinceTeardown u v.past = (phase u .free v.past).answers) :
    answersSinceTeardown u v'.past = (phase u .free v'.past).answers := by
  have hturn := (phaseStep_of_moves hrules hv hm hp).turn
  rw [hm.recorded] at hturn ⊢
  cases e with
  | started | aborted | disturbed => exact h
  | did j c r =>
      change countAnswer u (answersSinceTeardown u v.past) c r =
        ((phase u .free v.past).afterCommand u j c r).answers
      rw [h]
      cases c with
      | sql q =>
          cases q with
          | selectUser id =>
              simp only [countAnswer, Phase.afterCommand]
              split_ifs with hid
              · subst hid
                refine (Phase.answers_afterCheck ?_).symm
                have hsame : phase id .free (.did j (.sql (.selectUser id)) r :: v.past) =
                    (phase id .free v.past).afterCheck id j r := if_pos rfl
                rw [hsame] at hturn
                rcases hturn with hsame | ⟨d, -, hd⟩
                · exact .inl hsame
                · exact .inr ⟨d, _, hd⟩
              · rfl
          | updateUserState id state =>
              simp only [countAnswer, Phase.afterCommand]
              split_ifs
              · exact (Phase.answers_afterWrite _ _).symm
              · rfl
          | _ => rfl
      | node q =>
          cases q with
          | mapBind id conn =>
              simp only [countAnswer, Phase.afterCommand]
              split_ifs
              · exact (Phase.answers_afterBind _).symm
              · rfl
          | mapErase id =>
              simp only [countAnswer, Phase.afterCommand]
              split_ifs
              · exact (Phase.answers_afterErase _).symm
              · rfl
          | mapEraseConn conn =>
              simp only [countAnswer, Phase.afterCommand]
              split_ifs
              · exact (Phase.answers_afterErase _).symm
              · rfl
          | _ => rfl
      | redisPublish => rfl
      | sendTo conn s =>
          simp only [countAnswer, Phase.afterCommand]
          split_ifs with hs
          · have hopened := (hp hs).2
            rw [hopened]
            rfl
          · rfl

/-- In every run of session handlers without overlapping logins of a user that begins
with everybody offline and unbound, the user is bound on at most one node and at most
one of its logins is answered between two teardowns. -/
theorem one_session_without_overlap (hsql : ∀ j q, ¬ E.mayFail j (.sql q)) {w : World}
    (hoffline : ∀ id, w.db.userState id ≠ some .online) (hunbound : ∀ n id, w.bound n id = none)
    (hu : w.db.Registered u) {es : List ClusterEntry} {x : Config World Job Agent Command Response}
    (hrun : Steps (cluster E fun v e => SessionsOnly e ∧ overlaps u v e = false)
      (Config.initial w) es x) :
    (∀ m n c d, x.view.state.bound m u = some c → x.view.state.bound n u = some d → m = n) ∧
      answersSinceTeardown u x.view.past ≤ 1 := by
  have hrules := sessionRules_of_noOverlap (u := u) hsql
  have hpos : u ≠ -1 := fun e => absurd (e ▸ hu.1) (by decide)
  have hinitial : ConfigOk (cluster E fun v e => SessionsOnly e ∧ overlaps u v e = false)
      (sessionContract u .free False) (AtRest u .free) (Config.initial w) :=
    .initial (phaseHolds_free hu (hoffline u) fun n => hunbound n u) fun a conn _ =>
      ⟨(Option.some_ne_none conn).symm, fun _ h => (nomatch h)⟩
  have hverified := session_verified hrules hpos
  have hend := (hverified.sound hrun hinitial).inv
  have hanswers := hverified.preserves
    (P := fun v => answersSinceTeardown u v.past = (phase u .free v.past).answers)
    (fun v e v' hv hp hm h => answers_of_moves hrules hv hp hm h) hrun hinitial rfl
  constructor
  · intro m n c d hc hd
    obtain ⟨hc', rfl⟩ := (hend.bound m c).mp hc
    obtain ⟨hd', rfl⟩ := (hend.bound n d).mp hd
    rw [Option.some.inj (hc'.symm.trans hd')]
  · rw [hanswers]
    cases phase u .free x.view.past <;> simp [Phase.answers]

end Exclusion

/-- A login that is executed to its end on one node, and another one on a second node after
it, which is refused. -/
theorem one_session_without_overlap_two : letI := Cluster.rejectAll
    ∃ es x, Steps (cluster .calm fun v e => SessionsOnly e ∧ overlaps 1 v e = false)
        (Config.initial (World.fresh (Statement.registered [("ann", "pw")]))) es x ∧
      x.view.state.bound 0 1 = some ⟨0, 0⟩ ∧ (x.view.state.out ⟨1, 0⟩).length = 1 ∧
      answersSinceTeardown 1 x.view.past = 1 ∧
      (∀ m n c d, x.view.state.bound m 1 = some c → x.view.state.bound n 1 = some d → m = n) ∧
      answersSinceTeardown 1 x.view.past ≤ 1 := by
  let _ := Cluster.rejectAll
  let P := Cluster.replayer .calm (fun v e => SessionsOnly e ∧ overlaps 1 v e = false)
    (fun v e => decide (SessionsOnly e ∧ overlaps 1 v e = false)) fun _ _ => of_decide_eq_true
  let cues : List (Cue Job Agent Choice) :=
    .start (.frame ⟨0, 0⟩ (Client.loginRequest 1 "pw") "") ::
      List.replicate 10 (.act (.io ⟨0, 0⟩) {}) ++
    .start (.frame ⟨1, 0⟩ (Client.loginRequest 1 "pw") "") ::
      List.replicate 2 (.act (.io ⟨1, 0⟩) {})
  obtain ⟨es, x, hrun, hx⟩ := P.exists_steps
    (x := Config.initial (World.fresh (Statement.registered [("ann", "pw")]))) cues
    (p := fun x => x.view.state.bound 0 1 = some ⟨0, 0⟩ ∧
      (x.view.state.out ⟨1, 0⟩).length = 1 ∧ answersSinceTeardown 1 x.view.past = 1) (by decide)
  obtain ⟨hbound, hrefused, hone⟩ := of_decide_eq_true hx
  refine ⟨es, x, hrun, hbound, hrefused, hone, ?_⟩
  exact one_session_without_overlap (fun _ _ => id) (World.quiescent_fresh (by decide)).state
    (fun _ _ => rfl) ⟨by decide, _, rfl⟩ hrun

/-- Two logins of one user on two nodes. Both find the user offline before either has
written `online`; both nodes bind the user and both logins are answered with success. -/
theorem overlapping_logins_both_succeed : letI := Cluster.rejectAll
    ∃ es x, Steps (cluster .calm fun _ => SessionsOnly)
        (Config.initial (World.fresh (Statement.registered [("ann", "pw")]))) es x ∧
      x.view.state.bound 0 1 = some ⟨0, 0⟩ ∧ x.view.state.bound 1 1 = some ⟨1, 0⟩ ∧
      answersSinceTeardown 1 x.view.past = 2 := by
  let _ := Cluster.rejectAll
  let P := Cluster.replayer .calm (fun _ => SessionsOnly) (fun _ e => decide (SessionsOnly e))
    fun _ _ => of_decide_eq_true
  let cues : List (Cue Job Agent Choice) :=
    [.start (.frame ⟨0, 0⟩ (Client.loginRequest 1 "pw") ""),
      .start (.frame ⟨1, 0⟩ (Client.loginRequest 1 "pw") ""),
      .act (.io ⟨0, 0⟩) {}, .act (.io ⟨1, 0⟩) {}] ++
    List.replicate 9 (.act (.io ⟨0, 0⟩) {}) ++ List.replicate 9 (.act (.io ⟨1, 0⟩) {})
  obtain ⟨es, x, hrun, hx⟩ := P.exists_steps
    (x := Config.initial (World.fresh (Statement.registered [("ann", "pw")]))) cues
    (p := fun x => x.view.state.bound 0 1 = some ⟨0, 0⟩ ∧
      x.view.state.bound 1 1 = some ⟨1, 0⟩ ∧ answersSinceTeardown 1 x.view.past = 2) (by decide)
  exact ⟨es, x, hrun, of_decide_eq_true hx⟩

end ChatCluster
