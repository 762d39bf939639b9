import ChatCluster.Duplicates
import ChatCluster.Library.EventLoops
import ChatCluster.Retention

/-!
# The answer of a login is written first

A connection belongs to an event loop of muduo, which runs the handlers of its frames. A
`send` from the thread of that loop writes at once, any other one waits in the loop until
its handler has returned. `World.out` lists the frames of a connection in the order of the
calls; here they are put into the order in which they are written. A login runs in the loop
of its connection, so whatever is sent to the connection between its binding and its answer
is written behind the answer.
-/
namespace ChatCluster
open CommandProgram Interleaving EventLoops

/-! ## The binding that a job has not answered -/

def openNext (m : Option (ℤ × Conn)) : (c : Command) → Response c → Option (ℤ × Conn)
  | .node (.mapBind userid conn), _ => some (userid, conn)
  | .sendTo _ s, _ => if (confirmedUser? s).isSome then none else m
  | _, _ => m

/-- A job binds when nothing is left to be answered, it sends chat frames only then, and it
answers the user it has bound on the connection it has bound. -/
structure OpensOnce (m : Option (ℤ × Conn)) (c : Command) : Prop where
  bind : ∀ u conn, c = .node (.mapBind u conn) → m = none
  chat : ∀ conn s, c = .sendTo conn s → s.IsChat → m = none
  answer : ∀ conn s u, c = .sendTo conn s → confirmedUser? s = some u → m = some (u, conn)

/-- A command that neither binds nor sends. -/
structure Command.Withdrawn (c : Command) : Prop where
  bind : ∀ u conn, c ≠ .node (.mapBind u conn)
  send : ∀ conn s, c ≠ .sendTo conn s

section Tracked
variable {m : Option (ℤ × Conn)} {conn : Conn} {js : Json} {c : Command}

theorem Command.Withdrawn.opensOnce (h : c.Withdrawn) : OpensOnce m c where
  bind u conn hc := absurd hc (h.bind u conn)
  chat conn s hc := absurd hc (h.send conn s)
  answer conn s _ hc := absurd hc (h.send conn s)

theorem Command.Withdrawn.next (h : c.Withdrawn) (r : Response c) : openNext m c r = m := by
  cases c with
  | sql => rfl
  | node q =>
      cases q with
      | mapBind u conn => exact absurd rfl (h.bind u conn)
      | _ => rfl
  | redisPublish => rfl
  | sendTo conn s => exact absurd rfl (h.send conn s)

theorem opens_withdrawn {α : Type} {p : Program α} (hp : p.All Command.Withdrawn) :
    p.Tracked openNext OpensOnce (fun m' _ => m' = m) m := by
  refine .of_all (I := fun m' => m' = m) (fun _ _ hc _ => hc.opensOnce) (fun m' c r hc hm => ?_) hp
    rfl
  rw [hc.next, hm]

theorem opens_offLegacy {p : Program Unit} (hp : p.All Command.OffLegacy) :
    p.Tracked openNext OpensOnce (fun m' _ => m' = none) none := by
  refine .of_all (I := fun m' => m' = none) (fun m' c hc hm => ?_) (fun m' c r hc hm => ?_) hp rfl
  · refine ⟨fun u conn h => absurd h (hc.bind u conn), fun _ _ _ _ => hm, fun conn s _ h hs => ?_⟩
    rw [hc.answer conn s h] at hs
    cases hs
  · cases c with
    | sql => exact hm
    | node q =>
        cases q with
        | mapBind u conn => exact absurd rfl (hc.bind u conn)
        | _ => exact hm
    | redisPublish => exact hm
    | sendTo conn s => simp [openNext, hc.answer conn s rfl, hm]

theorem opens_login : (login conn js).Tracked openNext OpensOnce (fun m' _ => m' = none) none := by
  refine tracked_login (Q := fun m => m = none) (S := fun id m => m = some (id, conn))
    (T := fun id m _ => m = some (id, conn)) ?_ ?_ ?_ ?_ ?_
  · exact fun _ _ => ⟨⟨by simp, by simp, by simp⟩, rfl⟩
  · exact fun _ h => opens_offLegacy ⟨offLegacy_sendTo h, fun _ => trivial⟩
  · intro id user
    refine ⟨⟨fun _ _ _ => rfl, by simp, by simp⟩, fun _ => ?_⟩
    refine opens_withdrawn (all_announce ?_ ?_ ?_) <;> exact ⟨by simp, by simp⟩
  · rintro id user m rfl
    refine (opens_withdrawn ((isSql_syncSession id user).mono ?_)).mono fun _ _ h => h
    rintro c ⟨q, rfl⟩
    exact ⟨by simp, by simp⟩
  · rintro id m response rfl hconfirmed
    refine ⟨⟨by simp, fun conn' s hc hs => ?_, fun conn' s u hc hs => ?_⟩, fun _ => ?_⟩
    · cases hc
      exact absurd hs (not_isChat_of_confirmed hconfirmed)
    · cases hc
      exact congrArg (fun id => some (id, conn))
        (Option.some.inj (hconfirmed.symm.trans hs))
    · change openNext (some (id, conn)) (.sendTo conn (.json response)) () = none
      simp [openNext, hconfirmed]

theorem opens_body [JsonParser] (j : Job) :
    j.body.Tracked openNext OpensOnce (fun m' _ => m' = none) none := by
  by_cases hlogin : ∃ conn js time, j = .frame conn js time ∧ msgType? js = some .loginMsg
  · obtain ⟨conn, js, time, rfl, hmsg⟩ := hlogin
    rw [body_of_login hmsg]
    exact opens_login
  · apply opens_offLegacy
    apply offLegacy_body
    intro conn js time hj hmsg
    exact hlogin ⟨conn, js, time, hj, hmsg⟩

end Tracked

/-! ## Until the answer -/

def openMemory (a : Agent) (past : List ClusterEntry) : Option (ℤ × Conn) :=
  memory Job.agent none openNext a past

/-- A login of user `u` on `c` has been stopped before its answer, and none has bound the
user to `c` since. -/
def LoginStopped (u : ℤ) (c : Conn) (past : List ClusterEntry) : Prop :=
  ∃ later js time earlier, past = later ++ .aborted (.frame c js time) :: earlier ∧
    msgType? js = some .loginMsg ∧ getInt js "id" = some u ∧ awaits u c earlier = true ∧
    ∀ e ∈ later, bindsTo u c e = false

theorem LoginStopped.cons {u : ℤ} {c : Conn} {past : List ClusterEntry}
    (h : LoginStopped u c past) {e : ClusterEntry} (he : bindsTo u c e = false) :
    LoginStopped u c (e :: past) := by
  obtain ⟨later, js, time, earlier, rfl, hmsg, hid, hawaits, hlater⟩ := h
  exact ⟨e :: later, js, time, earlier, rfl, hmsg, hid, hawaits, List.forall_mem_cons.mpr
    ⟨he, hlater⟩⟩

theorem mapBind_of_openNext {m : Option (ℤ × Conn)} {j : Job} {q : Command} {r : Response q}
    {u : ℤ} {c : Conn} (hnot : m ≠ some (u, c)) (h : openNext m q r = some (u, c)) :
    (Entry.did j q r : ClusterEntry) = .did j (.node (.mapBind u c)) () := by
  cases q with
  | sql => exact absurd h hnot
  | node q =>
      cases q with
      | mapBind v d =>
          obtain ⟨rfl, rfl⟩ := Prod.mk.inj (Option.some.inj h)
          rfl
      | _ => exact absurd h hnot
  | redisPublish => exact absurd h hnot
  | sendTo d s =>
      simp only [openNext] at h
      split_ifs at h
      exact absurd h hnot

section Runs
variable [JsonParser] {E : Environment} {admits : ClusterView → ClusterEntry → Prop} {w : World}
  {es : List ClusterEntry} {x y : ClusterConfig} {u : ℤ} {c : Conn}

theorem opensOnce_of_step (h : Steps (cluster E admits) (Config.initial w) es x) {j : Job}
    {q : Command} {r : Response q} (hs : Step (cluster E admits) x (.did j q r) y) :
    OpensOnce (openMemory j.agent x.view.past) q :=
  h.tracked_did (P := fun _ => OpensOnce) (Q := fun m => m = none) opens_body rfl hs

theorem openMemory_of_idle (h : Steps (cluster E admits) (Config.initial w) es x) {a : Agent}
    (ha : (x.slot a).Idle) : openMemory a x.view.past = none :=
  (h.slotTracked (P := fun _ => OpensOnce) (Q := fun m => m = none) opens_body rfl).of_idle rfl ha

/-- The job that remembers a binding is a login of the user. -/
theorem login_of_openMemory (h : Steps (cluster E admits) (Config.initial w) es x) {a : Agent}
    {j : Job} (hj : (x.slot a).last = some j) (hm : openMemory a x.view.past = some (u, c)) :
    ∃ js time, j = .frame c js time ∧ msgType? js = some .loginMsg ∧
      getInt js "id" = some u := by
  obtain ⟨since, q, r, older, hpast, -, hnot, hnext⟩ := h.current_gained
    (D := fun m : Option (ℤ × Conn) => m = some (u, c)) hj (by simp) hm
  rw [mapBind_of_openNext hnot hnext] at hpast
  obtain ⟨js, time, pwd, rfl, hlogin, -⟩ := login_of_bind h hpast
  exact ⟨js, time, rfl, hlogin.type, hlogin.id⟩

/-- While the answer for a binding is awaited, the login that has made it remembers it, or it
has been stopped. -/
theorem open_of_awaits (h : Steps (cluster E admits) (Config.initial w) es x)
    (hawaits : awaits u c x.view.past = true) :
    openMemory (.io c) x.view.past = some (u, c) ∨ LoginStopped u c x.view.past := by
  induction h with
  | done => cases hawaits
  | @step x y e es hrun hs ih =>
      have hrun' := hrun.step hs
      rw [hs.moves.recorded] at hawaits ⊢
      by_cases hbind : ∃ j r, e = .did j (.node (.mapBind u c)) r
      · obtain ⟨j, r, rfl⟩ := hbind
        have hpast : y.view.past = [] ++ .did j (.node (.mapBind u c)) r :: x.view.past :=
          hs.moves.recorded
        obtain ⟨js, time, pwd, rfl, -⟩ := login_of_bind hrun' hpast
        refine .inl ?_
        have hagent : (Job.frame c js time).agent = .io c := rfl
        rw [openMemory, memory, if_pos hagent]
        rfl
      have hnot : ∀ j r, e ≠ .did j (.node (.mapBind u c)) r := fun j r he => hbind ⟨j, r, he⟩
      have hold := (awaits_of_cons hawaits).resolve_right hbind
      obtain hm | hstopped := ih hold
      · cases e with
        | started j =>
            refine .inl ?_
            have hj : j.agent ≠ .io c := by
              intro hj
              have hnone := hrun.tracked_started (P := fun _ => OpensOnce)
                (Q := fun m => m = none) opens_body rfl hs
              change openMemory j.agent x.view.past = none at hnone
              rw [hj, hm] at hnone
              cases hnone
            rw [openMemory, memory, if_neg hj]
            exact hm
        | did j q r =>
            refine .inl ?_
            by_cases hj : j.agent = .io c
            · have honce := opensOnce_of_step hrun hs
              rw [hj, hm] at honce
              rw [openMemory, memory, if_pos hj]
              change openNext (openMemory (.io c) x.view.past) q r = some (u, c)
              rw [hm]
              cases q with
              | sql => rfl
              | node q =>
                  cases q with
                  | mapBind v d => cases honce.bind v d rfl
                  | _ => rfl
              | redisPublish => rfl
              | sendTo d s =>
                  cases hs' : confirmedUser? s with
                  | none => simp [openNext, hs']
                  | some v =>
                      obtain ⟨rfl, rfl⟩ :=
                        Prod.mk.inj (Option.some.inj (honce.answer d s v rfl hs'))
                      simp [awaits, hs'] at hawaits
            · rw [openMemory, memory, if_neg hj]
              exact hm
        | aborted j =>
            by_cases hj : j.agent = .io c
            · have hlast := hrun.job_of_step hs rfl (by simp)
              change (x.slot j.agent).last = some j at hlast
              rw [hj] at hlast
              obtain ⟨js, time, rfl, hmsg, hid⟩ := login_of_openMemory hrun hlast hm
              exact .inr ⟨[], js, time, x.view.past, rfl, hmsg, hid, hold, by simp⟩
            · refine .inl ?_
              rw [openMemory, memory, if_neg hj]
              exact hm
        | disturbed => exact .inl hm
      · exact .inr (hstopped.cons (bindsTo_eq_false hnot))

/-- On a connection where nothing runs, all bindings have been answered. -/
theorem stopped_of_idle (h : Steps (cluster E admits) (Config.initial w) es x)
    (hidle : (x.slot (.io c)).Idle) (hawaits : awaits u c x.view.past = true) :
    LoginStopped u c x.view.past := by
  refine (open_of_awaits h hawaits).resolve_left fun hm => ?_
  rw [openMemory_of_idle h hidle] at hm
  cases hm

/-- The session of a user stays until it is written anew. -/
theorem bound_of_step {e : ClusterEntry} (hs : Step (cluster E admits) x e y) {n : ℕ}
    (hbound : x.view.state.bound n u = some c) :
    y.view.state.bound n u = some c ∨ Rebinds n u e := by
  have hm := hs.moves
  cases e with
  | started j =>
      rw [World.bound, (Job.node_starts hm.effect n).1]
      exact .inl hbound
  | did j q r =>
      obtain ⟨-, o, -, ho⟩ := hm.effect
      exact bound_kept_exec ho hbound
  | aborted j =>
      rw [show y.view.state = x.view.state.release j.agent from hm.effect, World.bound,
        userConnMap_release]
      exact .inl hbound
  | disturbed =>
      rw [World.bound, (locked_disturbance (b := .main 0) hm.effect.2).2]
      exact .inl hbound

theorem bound_of_steps (h : Steps (cluster E admits) x es y) {n : ℕ}
    (hbound : x.view.state.bound n u = some c) :
    y.view.state.bound n u = some c ∨ ∃ e ∈ es, Rebinds n u e := by
  induction h with
  | done => exact .inl hbound
  | @step y z e es _ hs ih =>
      obtain hold | ⟨f, hf, hrebinds⟩ := ih
      · obtain hkept | hrebinds := bound_of_step hs hold
        · exact .inl hkept
        · exact .inr ⟨e, List.mem_append_right _ (List.mem_singleton_self e), hrebinds⟩
      · exact .inr ⟨f, List.mem_append_left _ hf, hrebinds⟩

end Runs
/-! ## The loops of the nodes -/

def Command.send? : Command → Option (Conn × Sent)
  | .sendTo c s => some (c, s)
  | _ => none

/-- The handlers of a connection run in its loop. Which loops there are, and in which one
the observer and the handler of SIGINT run, is left open. -/
def wiring {L : Type} (loop : Agent → L) : Layout Agent Command Conn Sent L where
  loop := loop
  home c := loop (.io c)
  send? := Command.send?

abbrev ClusterNet (L : Type) := Net World Job Agent Command Response Conn Sent L

theorem sendTo_of_send? {q : Command} {c : Conn} {s : Sent} (h : q.send? = some (c, s)) :
    q = .sendTo c s := by
  cases q with
  | sendTo => cases h; rfl
  | _ => cases h

section Written
variable [JsonParser] {L : Type} {loop : Agent → L} {db : Database} {n n' : ClusterNet L}
  {es : List ClusterEntry} {x y : ClusterConfig} {u : ℤ} {c : Conn}
  {s : Sent}

theorem logs_out : Logs World.out hostileCluster (wiring loop) where
  sent v v' e c s hm hsend := by
    cases e with
    | did j q r =>
        obtain rfl := sendTo_of_send? (q := q) hsend
        rw [out_sendTo hm]
        rfl
    | _ => cases hsend
  kept v v' e hm hsend := by
    refine out_kept hm fun j d s r he => ?_
    subst he
    cases hsend

/-- A user is confirmed only from within the loop of the connection. -/
theorem unconfirmed_of_foreign (h : Steps hostileCluster (Config.initial (World.fresh db)) es x)
    (hforeign : Foreign hostileCluster (wiring loop) c s x.view.past) :
    confirmedUser? s = none := by
  obtain ⟨j, q, r, hmem, hsend, hloop⟩ := hforeign
  obtain rfl := sendTo_of_send? hsend
  obtain ⟨newer, older, hpast⟩ := List.append_of_mem hmem
  obtain ⟨fs, gs, z, z', hz, -, hs, -, -⟩ := h.at_entry hpast
  by_contra hconfirmed
  obtain ⟨u, hu⟩ := Option.ne_none_iff_exists'.mp hconfirmed
  have hm := (opensOnce_of_step hz hs).answer c s u rfl hu
  obtain ⟨js, time, rfl, -⟩ := login_of_openMemory hz (hz.job_of_step hs rfl (by simp)) hm
  exact hloop rfl

variable [DecidableEq L]

/-- A chat frame is written where no login is between its binding and its answer. -/
theorem stopped_of_written
    (h : NetSteps hostileCluster (wiring loop) (Net.initial (World.fresh db)) n)
    (hs : NetStep hostileCluster (wiring loop) n (some (c, s)) n') (hchat : s.IsChat)
    (hawaits : awaits u c n.core.view.past = true) : LoginStopped u c n.core.view.past := by
  obtain ⟨es, hrun⟩ := h.core
  obtain ⟨j, q, r, hstep, hsend, hothers⟩ | ⟨hfree, -⟩ := hs.written h
  · obtain rfl := sendTo_of_send? hsend
    refine (open_of_awaits hrun hawaits).resolve_left fun hm => ?_
    by_cases hj : j.agent = .io c
    · have hnone := (opensOnce_of_step hrun hstep).chat c s rfl hchat
      rw [hj, hm] at hnone
      cases hnone
    · rw [openMemory_of_idle hrun (hothers (.io c) rfl (Ne.symm hj))] at hm
      cases hm
  · exact stopped_of_idle hrun (hfree (.io c) rfl) hawaits

/-- The answers among the frames that have been written are those that have been sent. -/
theorem answers_written (h : NetSteps hostileCluster (wiring loop) (Net.initial (World.fresh db)) n)
    (c : Conn) : (n.written c).filterMap confirmedUser? =
      (n.core.view.state.out c).filterMap confirmedUser? := by
  obtain ⟨es, hrun⟩ := h.core
  exact h.filterMap_written logs_out (fun _ => rfl) c fun f => unconfirmed_of_foreign hrun

/-! ## Chat frames behind the answer -/

/-- Frame `s` has been sent on `c` while user `u` was bound to it, and the session that it was
meant for lasts, or has been ended since. -/
def SentInSession (u : ℤ) (c : Conn) (s : Sent) (v : ClusterView) : Prop :=
  ∃ j later since i earlier, v.past = later ++ .did j (.sendTo c s) () :: since ++
      .did i (.node (.mapBind u c)) () :: earlier ∧
    (∀ e ∈ since, ¬ Rebinds c.node u e) ∧
    (v.state.bound c.node u = some c ∨ ∃ e ∈ later, Rebinds c.node u e)

theorem sentInSession_of_recorded
    (h : Steps hostileCluster (Config.initial (World.fresh db)) es x) {j : Job} {r : Unit}
    (hmem : .did j (.sendTo c s) r ∈ x.view.past) (hchat : s.IsChat) :
    ∃ u, (∃ row ∈ x.view.state.db.chatMessage.rows, row.receiverId = u ∧
      s.payload = row.payload) ∧ INT_MIN ≤ u ∧ u ≤ INT_MAX ∧ SentInSession u c s x.view := by
  have hw : ∀ n u, (World.fresh db).bound n u = none := fun _ _ => rfl
  obtain ⟨later, older, hpast⟩ := List.append_of_mem hmem
  obtain ⟨fs, gs, z, z', hz, hzpast, hs, hafter, rfl⟩ := h.at_entry hpast
  obtain ⟨u, js, hcarries, ⟨row, hrow, -, hreceiver, hpayload⟩, hbound⟩ :=
    emitsStored_of_step hz hs hchat
  obtain ⟨hnode, -⟩ := passedLogin_of_bound hz hw hbound
  rw [← hnode] at hbound
  obtain ⟨since, i, earlier, hsplit, -, hsince⟩ := bound_since hz hw hbound
  obtain ⟨_, _, _, -, hlogin, -⟩ := login_of_bind hz hsplit
  obtain ⟨hl, hu⟩ := getInt_range hlogin.id
  obtain ⟨row', hrow', hpersists, -⟩ :=
    persists_of_steps ((Steps.step .done hs).append hafter) hrow
  refine ⟨u, ⟨row', hrow', hpersists.receiverId.trans hreceiver, ?_⟩, hl, hu, ?_⟩
  · rw [hcarries.payload, hpersists.payload, hpayload]
  · refine ⟨j, later, since, i, earlier, ?_, hsince, ?_⟩
    · rw [hpast, ← hzpast, hsplit]
      simp
    · have hkept := (bound_of_step hs hbound).resolve_right fun hrebinds => hrebinds.2
      refine (bound_of_steps hafter hkept).imp_right ?_
      rintro ⟨e, he, hrebinds⟩
      exact ⟨e, List.mem_reverse.mp he, hrebinds⟩

/-- What has been written on `c` before chat frame `s`, which is written now. No login is
between its binding and its answer, unless it has been stopped there. The frame is for a
user `u` to whom the connection was bound when it was sent. The answer that confirms the user
has been written, and if nobody else has logged in on the connection since, the client is
user `u` when it reads the frame and acknowledges it as `u`. -/
structure WrittenBehindAnswer [JsonParser] (written : List Sent) (v : ClusterView) (c : Conn)
    (s : Sent) : Prop where
  closed : ∀ u, awaits u c v.past = true → LoginStopped u c v.past
  receiver : ∃ u, (∃ r ∈ v.state.db.chatMessage.rows, r.receiverId = u ∧
      s.payload = r.payload) ∧ SentInSession u c s v ∧
    (¬ LoginStopped u c v.past → (∃ t ∈ written, confirmedUser? t = some u) ∧
      (latestUser c v.past = some u → Client.currentUser written = u ∧
        ∀ acks, Client.readChatFrame u s.payload = some acks →
          ∀ ack ∈ acks, getInt ack "id" = some u))

/-- The writing of a frame is its sending, or the frame has been sent before. -/
theorem sendTo_of_written
    (h : NetSteps hostileCluster (wiring loop) (Net.initial (World.fresh db)) n)
    (hs : NetStep hostileCluster (wiring loop) n (some (c, s)) n') :
    (∃ j, n'.core.view.past = .did j (.sendTo c s) () :: n.core.view.past) ∨
      n'.core.view.past = n.core.view.past ∧ ∃ j, .did j (.sendTo c s) () ∈ n.core.view.past := by
  obtain ⟨j, q, r, hstep, hsend, -⟩ | ⟨-, ⟨j, q, r, hmem, hsend, -⟩, hsame⟩ := hs.written h
  · obtain rfl := sendTo_of_send? hsend
    exact .inl ⟨j, hstep.moves.recorded⟩
  · obtain rfl := sendTo_of_send? hsend
    rw [hsame]
    exact .inr ⟨rfl, j, hmem⟩

theorem sent_of_written
    (h : NetSteps hostileCluster (wiring loop) (Net.initial (World.fresh db)) n)
    (hs : NetStep hostileCluster (wiring loop) n (some (c, s)) n') :
    ∃ j, .did j (.sendTo c s) () ∈ n'.core.view.past := by
  obtain ⟨j, hpast⟩ | ⟨hpast, j, hmem⟩ := sendTo_of_written h hs
  · rw [hpast]
    exact ⟨j, List.mem_cons_self⟩
  · rw [hpast]
    exact ⟨j, hmem⟩

/-- The writing of any other frame leaves the window of a login as it is. -/
theorem window_of_written
    (h : NetSteps hostileCluster (wiring loop) (Net.initial (World.fresh db)) n)
    (hs : NetStep hostileCluster (wiring loop) n (some (c, s)) n')
    (hunconfirmed : confirmedUser? s = none) (u : ℤ) :
    awaits u c n'.core.view.past = awaits u c n.core.view.past ∧
      (LoginStopped u c n.core.view.past → LoginStopped u c n'.core.view.past) ∧
      latestUser c n'.core.view.past = latestUser c n.core.view.past ∧
      ∀ i, .did i (.node (.mapBind u c)) () ∈ n'.core.view.past →
        .did i (.node (.mapBind u c)) () ∈ n.core.view.past := by
  obtain ⟨j, hpast⟩ | ⟨hpast, -⟩ := sendTo_of_written h hs
  · rw [hpast]
    refine ⟨?_, fun hold => hold.cons rfl, rfl, fun i hmem => ?_⟩
    · simp [awaits, hunconfirmed]
    · obtain he | hmem := List.mem_cons.mp hmem
      · cases he
      · exact hmem
  · rw [hpast]
    exact ⟨rfl, id, rfl, fun _ => id⟩

/-- In every run, whatever is sent to a connection between the binding and the answer of a
login, by whatever threads, is written behind the answer. -/
theorem login_answer_comes_first
    (h : NetSteps hostileCluster (wiring loop) (Net.initial (World.fresh db)) n)
    (hs : NetStep hostileCluster (wiring loop) n (some (c, s)) n') (hchat : s.IsChat) :
    WrittenBehindAnswer (n.written c) n'.core.view c s := by
  obtain ⟨es, hrun⟩ := h.core
  obtain ⟨fs, hrun'⟩ := (NetSteps.step h hs).core
  have hunconfirmed : confirmedUser? s = none := by
    cases hs' : confirmedUser? s with
    | none => rfl
    | some v => exact absurd hchat (not_isChat_of_confirmed hs')
  have hclosed : ∀ u, awaits u c n.core.view.past = true → LoginStopped u c n'.core.view.past :=
    fun u hopen => (window_of_written h hs hunconfirmed u).2.1 (stopped_of_written h hs hchat hopen)
  obtain ⟨j, hsent⟩ := sent_of_written h hs
  obtain ⟨u, hrow, hl, hu, hsession⟩ := sentInSession_of_recorded hrun' hsent hchat
  obtain ⟨-, -, hlatest, hbinds⟩ := window_of_written h hs hunconfirmed u
  refine ⟨fun u hopen => ?_, u, hrow, hsession, fun hnot => ?_⟩
  · rw [(window_of_written h hs hunconfirmed u).1] at hopen
    exact hclosed u hopen
  have hsettled : awaits u c n.core.view.past = false :=
    Bool.eq_false_iff.mpr fun hopen => hnot (hclosed u hopen)
  refine ⟨?_, fun hu' => ⟨?_, fun acks hacks ack hack => getInt_readChatFrame hl hu hacks hack⟩⟩
  · obtain ⟨_, _, _, i, _, hpast, -⟩ := hsession
    have hbind : .did i (.node (.mapBind u c)) () ∈ n.core.view.past := by
      apply hbinds
      rw [hpast]
      simp
    obtain ⟨k, t, ht, htu⟩ := confirmed_of_bind hbind hsettled
    have hwritten : u ∈ (n.written c).filterMap confirmedUser? := by
      rw [answers_written h]
      exact List.mem_filterMap.mpr ⟨t, mem_out_of_recorded hrun ht, htu⟩
    exact List.mem_filterMap.mp hwritten
  · rw [Client.currentUser_congr (answers_written h c)]
    refine (currentUser_of_latest hrun (hlatest.symm.trans hu')).resolve_left ?_
    rw [hsettled]
    exact Bool.false_ne_true

end Written
/-! ## A frame that is sent before the answer -/

/-- Each agent has a loop of its own. -/
def idleLoop (x : ClusterConfig) (a : Agent) : Bool := decide (x.slot a).Idle

theorem free_of_idleLoop (x : ClusterConfig) (a : Agent) (h : idleLoop x a = true) :
    Free (wiring id) x a := by
  rintro b rfl
  exact of_decide_eq_true h

/-- A chat frame is the next to be written on `c`, though its call has come first. -/
def chatQueued (c : Conn) (n : ClusterNet Agent) : Bool :=
  idleLoop n.core (.io c) && match n.queue (.io c), n.core.view.state.out c with
    | (d, s) :: _, t :: _ => decide (d = c ∧ s.IsChat ∧ t.IsChat)
    | _, _ => false

theorem exists_of_chatQueued {c : Conn} {n : ClusterNet Agent} (h : chatQueued c n = true) :
    Free (wiring id) n.core (.io c) ∧ ∃ s rest t later, n.queue (.io c) = (c, s) :: rest ∧
      s.IsChat ∧ n.core.view.state.out c = t :: later ∧ t.IsChat := by
  obtain ⟨hidle, h⟩ := Bool.and_eq_true_iff.mp h
  refine ⟨free_of_idleLoop _ _ hidle, ?_⟩
  split at h
  · next d s rest t later hqueue hout =>
    obtain ⟨rfl, hs, ht⟩ := of_decide_eq_true h
    exact ⟨s, rest, t, later, hqueue, hs, hout, ht⟩
  · cases h

/-- The lookup and the send of the chat frame fall into the login of the second user. -/
def overtakenCues : List (Cue Job Agent Choice) :=
  windowCues 2 ++ .act (.io ⟨0, 0⟩) {} :: List.replicate 9 (.act (.io ⟨0, 1⟩) {})

/-- The message is sent while the login of user `2` is between its binding and its answer. It
waits in the loop of the connection and is written behind the answer. -/
theorem login_answer_comes_first_chat : letI := chatParser namedRequest
    ∃ (n n' : ClusterNet Agent) (s : Sent),
      NetSteps hostileCluster (wiring id) (Net.initial chatWorld) n ∧
      NetStep hostileCluster (wiring id) n (some (⟨0, 1⟩, s)) n' ∧ s.IsChat ∧
      (∃ t later, n.core.view.state.out ⟨0, 1⟩ = t :: later ∧ t.IsChat) ∧
      Client.currentUser (n.written ⟨0, 1⟩) = 2 ∧
      WrittenBehindAnswer (n.written ⟨0, 1⟩) n'.core.view ⟨0, 1⟩ s := by
  let _ := chatParser namedRequest
  obtain ⟨n, hrun, hn⟩ := Net.exists_steps (P := hostileReplayer) (n := Net.initial chatWorld)
    free_of_idleLoop (overtakenCues.map .inl)
    (p := fun n => chatQueued ⟨0, 1⟩ n && decide (Client.currentUser (n.written ⟨0, 1⟩) = 2))
    (by decide +kernel)
  obtain ⟨hqueued, hcurrent⟩ := Bool.and_eq_true_iff.mp hn
  obtain ⟨hfree, s, rest, t, later, hqueue, hchat, hout, ht⟩ := exists_of_chatQueued hqueued
  have hs := NetStep.flush (M := hostileCluster) (T := wiring id) hfree hqueue
  exact ⟨n, _, s, hrun, hs, hchat, ⟨t, later, hout, ht⟩, of_decide_eq_true hcurrent,
    login_answer_comes_first hrun hs hchat⟩

end ChatCluster
