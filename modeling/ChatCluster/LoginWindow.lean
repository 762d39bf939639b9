import ChatCluster.Custody

/-!
# The window of a login

A login binds its connection before it answers, and many statements lie between. Whoever
looks up the user meanwhile finds a connection whose client has not been told yet who it
is: the client knows its user from the answer alone, which confirms the user of the latest
binding of the connection.
-/
namespace ChatCluster
open CommandProgram Interleaving

/-! ## The window -/

/-- User `u` has been bound to `c`, and no answer on `c` has confirmed the user since. -/
def awaits (u : ℤ) (c : Conn) : List ClusterEntry → Bool
  | [] => false
  | .did _ (.node (.mapBind v d)) _ :: past => decide (v = u ∧ d = c) || awaits u c past
  | .did _ (.sendTo d s) _ :: past =>
      !decide (d = c ∧ confirmedUser? s = some u) && awaits u c past
  | _ :: past => awaits u c past

theorem awaits_of_cons {u : ℤ} {c : Conn} {e : ClusterEntry} {past : List ClusterEntry}
    (h : awaits u c (e :: past) = true) :
    awaits u c past = true ∨ ∃ j r, e = .did j (.node (.mapBind u c)) r := by
  cases e with
  | did j q r =>
      cases q with
      | node q =>
          cases q with
          | mapBind v d =>
              simp only [awaits, Bool.or_eq_true, decide_eq_true_eq] at h
              obtain ⟨rfl, rfl⟩ | h := h
              · exact .inr ⟨j, r, rfl⟩
              · exact .inl h
          | _ => exact .inl h
      | sendTo d s =>
          simp only [awaits, Bool.and_eq_true] at h
          exact .inl h.2
      | _ => exact .inl h
  | _ => exact .inl h

/-- A binding after which nothing is awaited has been confirmed. -/
theorem confirmed_of_bind {u : ℤ} {c : Conn} {past : List ClusterEntry} {j : Job} {r : Unit}
    (hbind : .did j (.node (.mapBind u c)) r ∈ past) (hnot : awaits u c past = false) :
    ∃ j s, .did j (.sendTo c s) () ∈ past ∧ confirmedUser? s = some u := by
  induction past with
  | nil => exact absurd hbind List.not_mem_nil
  | cons e past ih =>
      have hearlier : .did j (.node (.mapBind u c)) r ∈ past → awaits u c past = false →
          ∃ j s, .did j (.sendTo c s) () ∈ e :: past ∧ confirmedUser? s = some u := by
        intro hmem hpast
        obtain ⟨i, s, hsent, hs⟩ := ih hmem hpast
        exact ⟨i, s, List.mem_cons_of_mem _ hsent, hs⟩
      obtain rfl | hmem := List.mem_cons.mp hbind
      · simp [awaits] at hnot
      · cases e with
        | did i q x =>
            cases q with
            | node q =>
                cases q with
                | mapBind v d =>
                    simp only [awaits, Bool.or_eq_false_iff] at hnot
                    exact hearlier hmem hnot.2
                | _ => exact hearlier hmem hnot
            | sendTo d s =>
                by_cases hs : d = c ∧ confirmedUser? s = some u
                · obtain ⟨rfl, hs⟩ := hs
                  exact ⟨i, s, List.mem_cons_self, hs⟩
                · rw [awaits, decide_eq_false hs] at hnot
                  exact hearlier hmem hnot
            | _ => exact hearlier hmem hnot
        | _ => exact hearlier hmem hnot

/-! ## The client behind a connection -/

/-- The user of the latest binding of `c`. -/
def latestUser (c : Conn) : List ClusterEntry → Option ℤ
  | [] => none
  | .did _ (.node (.mapBind v d)) _ :: past => if d = c then some v else latestUser c past
  | _ :: past => latestUser c past

/-- `g_currentUser.getId()` after the frames that have arrived: `doLoginResponse` sets it,
and it is -1 at first. -/
def Client.currentUser (frames : List Sent) : ℤ :=
  frames.foldl (fun u s => (confirmedUser? s).getD u) (-1)

theorem Client.currentUser_append (frames : List Sent) (s : Sent) :
    currentUser (frames ++ [s]) = (confirmedUser? s).getD (currentUser frames) := by
  simp [currentUser]

theorem Client.currentUser_congr {l l' : List Sent}
    (h : l.filterMap confirmedUser? = l'.filterMap confirmedUser?) :
    currentUser l = currentUser l' := by
  have hfold : ∀ (l : List Sent) (u : ℤ), l.foldl (fun u s => (confirmedUser? s).getD u) u =
      (l.filterMap confirmedUser?).foldl (fun _ v => v) u := by
    intro l
    induction l with
    | nil => exact fun _ => rfl
    | cons s l ih =>
        intro u
        rw [List.foldl_cons, ih, List.filterMap_cons]
        cases confirmedUser? s <;> rfl
  rw [currentUser, currentUser, hfold, hfold, h]

theorem latestUser_append {c : Conn} {v : ℤ} {later earlier : List ClusterEntry}
    (hlater : ∀ j u r, .did j (.node (.mapBind u c)) r ∈ later → u = v)
    (h : latestUser c earlier = some v) : latestUser c (later ++ earlier) = some v := by
  induction later with
  | nil => exact h
  | cons e later ih =>
      have hlatest : latestUser c (later ++ earlier) = some v := by
        apply ih
        intro j u r hmem
        exact hlater j u r (List.mem_cons_of_mem _ hmem)
      cases e with
      | did j q r =>
          cases q with
          | node q =>
              cases q with
              | mapBind u d =>
                  rw [List.cons_append, latestUser]
                  split_ifs with hd
                  · subst hd
                    rw [hlater j u r List.mem_cons_self]
                  · exact hlatest
              | _ => exact hlatest
          | _ => exact hlatest
      | _ => exact hlatest

section Runs
variable [JsonParser] {E : Environment} {admits : ClusterView → ClusterEntry → Prop} {w : World}
  {es : List ClusterEntry} {x y : ClusterConfig}

/-- A login that remembers its binding is the latest to have bound the connection. -/
theorem latestUser_of_bound (h : Steps (cluster E admits) (Config.initial w) es x) {j : Job}
    {u : ℤ} {c : Conn} (hm : (queryMemory j.agent x.view.past).bound = some (u, c)) :
    latestUser c x.view.past = some u := by
  obtain ⟨since, i, q, r, older, hpast, hi, hnot, hnext, hkept⟩ :=
    memory_since (D := fun m : QueryMemory => m.bound = some (u, c)) (by simp) hm
  have he := bound_of_next (j := i) hnot hnext
  rw [he] at hpast hkept
  obtain ⟨_, _, _, rfl, -⟩ := login_of_bind h hpast
  rw [hpast]
  apply latestUser_append
  · intro k v r' hmem
    obtain ⟨newer, rest, rfl⟩ := List.append_of_mem hmem
    obtain ⟨js, time, _, rfl, -⟩ := login_of_bind h (hpast.trans (List.append_assoc ..))
    have hagent : (Job.frame c js time).agent = j.agent := hi
    have hafter := hkept newer (.did (.frame c js time) (.node (.mapBind v c)) r' :: rest) rfl
    rw [List.cons_append, memory, if_pos hagent] at hafter
    exact congrArg Prod.fst (Option.some.inj hafter)
  · simp [latestUser]

/-- Frames reach a connection only by being sent. -/
theorem out_kept {v v' : ClusterView} {e : ClusterEntry} (hm : Moves (cluster E admits) v e v')
    (he : ∀ j d s r, e ≠ .did j (.sendTo d s) r) : v'.state.out = v.state.out := by
  cases e with
  | started j => exact Job.out_starts hm.effect
  | did j c r =>
      obtain ⟨-, o, -, ho⟩ := hm.effect
      cases c with
      | sql q => rw [(exec_sql ho).2]
      | node q =>
          obtain ⟨s', -, hw⟩ := exec_node ho
          rw [hw]
          rfl
      | redisPublish channel message =>
          rw [exec_redisPublish ho]
          split_ifs <;> rfl
      | sendTo d s => exact absurd rfl (he j d s r)
  | aborted j =>
      rw [show v'.state = v.state.release j.agent from hm.effect]
      exact (untouched_release ..).out
  | disturbed =>
      obtain ⟨-, hd⟩ := hm.effect
      generalize v.state = w, v'.state = w' at hd
      cases hd <;> rfl

theorem out_sendTo {v v' : ClusterView} {j : Job} {c : Conn} {s : Sent} {r : Unit}
    (hm : Moves (cluster E admits) v (.did j (.sendTo c s) r) v') :
    v'.state = v.state.emit c s := by
  obtain ⟨-, o, -, ho⟩ := hm.effect
  exact exec_sendTo ho

/-- The client of a connection is the latest user bound to it, once the answer is in. -/
theorem currentUser_of_latest {db : Database}
    (h : Steps hostileCluster (Config.initial (World.fresh db)) es x) {c : Conn} {u : ℤ}
    (hlatest : latestUser c x.view.past = some u) :
    awaits u c x.view.past = true ∨ Client.currentUser (x.view.state.out c) = u := by
  induction h with
  | done => cases hlatest
  | @step x y e es hrun hs ih =>
      have hpast := hs.moves.recorded
      rw [hpast] at hlatest ⊢
      cases e with
      | did j q r =>
          cases q with
          | node q =>
              have hout := out_kept hs.moves (by simp)
              cases q with
              | mapBind v d =>
                  simp only [latestUser] at hlatest
                  simp only [awaits, Bool.or_eq_true, decide_eq_true_eq]
                  split_ifs at hlatest with hd
                  · exact .inl (.inl ⟨Option.some.inj hlatest, hd⟩)
                  · rw [hout]
                    exact (ih hlatest).imp_left .inr
              | _ =>
                  rw [hout]
                  exact ih hlatest
          | sendTo d s =>
              rw [out_sendTo hs.moves]
              by_cases hd : d = c
              · subst hd
                rw [World.out_emit_self, Client.currentUser_append]
                cases hv : confirmedUser? s with
                | none =>
                    simp only [awaits, hv]
                    simpa using ih hlatest
                | some v =>
                    obtain ⟨response, -, hreturned⟩ :=
                      (handsOut_of_step hrun hs).answer d s v rfl hv
                    have hv' := latestUser_of_bound hrun hreturned.bound
                    have hsame : v = u := Option.some.inj (hv'.symm.trans hlatest)
                    exact .inr hsame
              · have hout : (x.view.state.emit d s).out c = x.view.state.out c :=
                  Function.update_of_ne (Ne.symm hd) ..
                simp only [awaits, hd, false_and, decide_false, Bool.not_false, Bool.true_and, hout]
                exact ih hlatest
          | sql | redisPublish =>
              rw [out_kept hs.moves (by simp)]
              exact ih hlatest
      | _ =>
          rw [out_kept hs.moves (by simp)]
          exact ih hlatest

theorem mem_out_of_recorded (h : Steps (cluster E admits) (Config.initial w) es x) {j : Job}
    {c : Conn} {s : Sent} {r : Unit} (hmem : .did j (.sendTo c s) r ∈ x.view.past) :
    s ∈ x.view.state.out c := by
  induction h with
  | done => exact absurd hmem List.not_mem_nil
  | @step x y e es hrun hs ih =>
      rw [hs.moves.recorded] at hmem
      obtain rfl | hold := List.mem_cons.mp hmem
      · rw [out_sendTo hs.moves]
        exact World.mem_emit.mpr (.inr ⟨rfl, rfl⟩)
      · by_cases he : ∀ j d s r, e ≠ .did j (.sendTo d s) r
        · rw [out_kept hs.moves he]
          exact ih hold
        · push Not at he
          obtain ⟨i, d, t, r', rfl⟩ := he
          rw [out_sendTo hs.moves]
          exact World.mem_emit.mpr (.inl (ih hold))

theorem getInt_readChatFrame {u : ℤ} (hl : INT_MIN ≤ u) (hu : u ≤ INT_MAX) {frame : String}
    {acks : List Json} (h : Client.readChatFrame u frame = some acks) {ack : Json}
    (hack : ack ∈ acks) : getInt ack "id" = some u := by
  unfold Client.readChatFrame at h
  split at h
  · cases h
    exact absurd hack List.not_mem_nil
  · next js _ =>
    obtain ⟨msgtype, -, h⟩ := Option.bind_eq_some_iff.mp h
    split_ifs at h
    · obtain ⟨_, -, h⟩ := Option.bind_eq_some_iff.mp h
      cases h
      unfold Client.ackMessageIfNeeded at hack
      split at hack
      · obtain rfl := List.mem_singleton.mp hack
        exact getInt_ackRequest hl hu _
      · exact absurd hack List.not_mem_nil
    · cases h
      exact absurd hack List.not_mem_nil

end Runs

/-- Both users log in, the second as far as the schedule says, and the first sends. -/
def windowCues (steps : ℕ) : List (Cue Job Agent Choice) :=
  .start (.frame ⟨0, 0⟩ (Client.loginRequest 1 "pw") "") ::
    List.replicate 10 (.act (.io ⟨0, 0⟩) {}) ++
  .start (.frame ⟨0, 1⟩ (Client.loginRequest 2 "pw") "") ::
    List.replicate steps (.act (.io ⟨0, 1⟩) {}) ++
  .start (.frame ⟨0, 0⟩ namedRequest "") :: List.replicate 7 (.act (.io ⟨0, 0⟩) { clockMs := 1 })

end ChatCluster
