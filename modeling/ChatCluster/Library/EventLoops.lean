import ChatCluster.Library.Replay

/-!
# Writing through event loops

A network library gives each channel to an event loop, which is one thread. The jobs that
run in a loop exclude one another. What a job sends on a channel of its own loop is written
at once. What is sent from elsewhere is queued in the loop of the channel, which writes it
when none of its jobs is running. So frames are written in another order than they are sent,
but a frame can only be overtaken by those that come from the loop of its channel.
-/
namespace EventLoops
open CommandProgram Interleaving

variable {σ J A C O K F L : Type} {R : C → Type}

/-- The loop in which an agent executes its jobs, the loop of a channel, and the commands
that send a frame on a channel. -/
structure Layout (A C K F L : Type) where
  loop : A → L
  home : K → L
  send? : C → Option (K × F)

/-- The frame that a move sends. -/
def Layout.sends (T : Layout A C K F L) : Entry J C R → Option (K × F)
  | .did _ c _ => T.send? c
  | _ => none

/-- The system, what is queued in each loop, and what has been written on each channel. -/
structure Net (σ J A C : Type) (R : C → Type) (K F L : Type) where
  core : Config σ J A C R
  queue : L → List (K × F)
  written : K → List F

/-- Nothing is queued or written. -/
def Net.initial (s : σ) : Net σ J A C R K F L := ⟨Config.initial s, fun _ => [], fun _ => []⟩

/-- No job is running in the loop. -/
def Free (T : Layout A C K F L) (x : Config σ J A C R) (l : L) : Prop :=
  ∀ a, T.loop a = l → (x.slot a).Idle

/-- The frame has been sent on the channel from outside its loop. -/
def Foreign (M : Machine σ J A C R) (T : Layout A C K F L) (k : K) (f : F)
    (past : List (Entry J C R)) : Prop :=
  ∃ j c r, .did j c r ∈ past ∧ T.send? c = some (k, f) ∧ T.loop (M.agent j) ≠ T.home k

theorem Foreign.cons {M : Machine σ J A C R} {T : Layout A C K F L} {k : K} {f : F}
    {past : List (Entry J C R)} (h : Foreign M T k f past) (e : Entry J C R) :
    Foreign M T k f (e :: past) := by
  obtain ⟨j, c, r, hmem, hsend⟩ := h
  exact ⟨j, c, r, List.mem_cons_of_mem e hmem, hsend⟩

/-- The jobs of a loop exclude one another. -/
def Exclusive (T : Layout A C K F L) (x : Config σ J A C R) : Prop :=
  ∀ a b, ¬ (x.slot a).Idle → ¬ (x.slot b).Idle → T.loop a = T.loop b → a = b

section Busy
variable [DecidableEq A] {M : Machine σ J A C R} {T : Layout A C K F L} {x y : Config σ J A C R}
  {e : Entry J C R}

/-- An agent that is busy was so before, or has just started a job. -/
theorem busy_of_step (h : Step M x e y) {a : A} (ha : ¬ (y.slot a).Idle) :
    ¬ (x.slot a).Idle ∨ ∃ j, e = .started j ∧ M.agent j = a := by
  cases h with
  | start j _ _ =>
      by_cases hj : a = M.agent j
      · exact .inr ⟨j, rfl, hj.symm⟩
      · dsimp only at ha
        rw [Function.update_of_ne hj] at ha
        exact .inl ha
  | act b j c k r hslot _ =>
      by_cases hb : a = b
      · subst hb
        exact .inl (by rw [hslot]; exact id)
      · dsimp only at ha
        rw [Function.update_of_ne hb] at ha
        exact .inl ha
  | abort b j c k hslot _ =>
      by_cases hb : a = b
      · subst hb
        exact .inl (by rw [hslot]; exact id)
      · dsimp only at ha
        rw [Function.update_of_ne hb] at ha
        exact .inl ha
  | disturb => exact .inl ha

theorem Exclusive.step (hx : Exclusive T x) (h : Step M x e y)
    (hstart : ∀ j, e = .started j → Free T x (T.loop (M.agent j))) : Exclusive T y := by
  intro a b ha hb hloop
  obtain ha | ⟨j, rfl, rfl⟩ := busy_of_step h ha
  · obtain hb | ⟨j, rfl, rfl⟩ := busy_of_step h hb
    · exact hx a b ha hb hloop
    · exact absurd (hstart j rfl a hloop) ha
  · obtain hb | ⟨i, hi, rfl⟩ := busy_of_step h hb
    · exact absurd (hstart j rfl b hloop.symm) hb
    · cases hi
      rfl

end Busy
/-! ## The net -/

variable [DecidableEq A] [DecidableEq K] [DecidableEq L]

def Net.push (n : Net σ J A C R K F L) (l : L) (k : K) (f : F) : Net σ J A C R K F L :=
  { n with queue := Function.update n.queue l (n.queue l ++ [(k, f)]) }

def Net.write (n : Net σ J A C R K F L) (k : K) (f : F) : Net σ J A C R K F L :=
  { n with written := Function.update n.written k (n.written k ++ [f]) }

variable (M : Machine σ J A C R) (T : Layout A C K F L)

/-- One move of the net, with the frame that it writes. -/
inductive NetStep : Net σ J A C R K F L → Option (K × F) → Net σ J A C R K F L → Prop
  | move {n : Net σ J A C R K F L} {y : Config σ J A C R} {e : Entry J C R} :
      Step M n.core e y → (∀ j, e = .started j → Free T n.core (T.loop (M.agent j))) →
      T.sends e = none → NetStep n none { n with core := y }
  | write {n : Net σ J A C R K F L} {y : Config σ J A C R} {j : J} {c : C} {r : R c} {k : K}
      {f : F} : Step M n.core (.did j c r) y → T.send? c = some (k, f) →
      T.loop (M.agent j) = T.home k → NetStep n (some (k, f)) ({ n with core := y }.write k f)
  | defer {n : Net σ J A C R K F L} {y : Config σ J A C R} {j : J} {c : C} {r : R c} {k : K}
      {f : F} : Step M n.core (.did j c r) y → T.send? c = some (k, f) →
      T.loop (M.agent j) ≠ T.home k → NetStep n none ({ n with core := y }.push (T.home k) k f)
  | flush {n : Net σ J A C R K F L} {l : L} {k : K} {f : F} {rest : List (K × F)} :
      Free T n.core l → n.queue l = (k, f) :: rest →
      NetStep n (some (k, f)) ({ n with queue := Function.update n.queue l rest }.write k f)

/-- A run of the net. -/
inductive NetSteps : Net σ J A C R K F L → Net σ J A C R K F L → Prop
  | done {n : Net σ J A C R K F L} : NetSteps n n
  | step {n₁ n₂ n₃ : Net σ J A C R K F L} {w : Option (K × F)} :
      NetSteps n₁ n₂ → NetStep M T n₂ w n₃ → NetSteps n₁ n₃

variable {M T} {n n' : Net σ J A C R K F L} {w : Option (K × F)} {s : σ}

/-- The system below moves as before, or stays as it is. -/
theorem NetStep.core (h : NetStep M T n w n') :
    (∃ e, Step M n.core e n'.core) ∨ n'.core = n.core := by
  cases h with
  | move hs _ _ => exact .inl ⟨_, hs⟩
  | write hs _ _ => exact .inl ⟨_, hs⟩
  | defer hs _ _ => exact .inl ⟨_, hs⟩
  | flush _ _ => exact .inr rfl

theorem NetSteps.core (h : NetSteps M T (Net.initial s) n) :
    ∃ es, Steps M (Config.initial s) es n.core := by
  induction h with
  | done => exact ⟨[], .done⟩
  | step _ hs ih =>
      obtain ⟨es, hrun⟩ := ih
      obtain ⟨e, he⟩ | hsame := hs.core
      · exact ⟨es ++ [e], .step hrun he⟩
      · rw [hsame]
        exact ⟨es, hrun⟩

theorem NetSteps.exclusive (h : NetSteps M T (Net.initial s) n) : Exclusive T n.core := by
  induction h with
  | done =>
      intro a b ha
      exact absurd trivial ha
  | step _ hs ih =>
      cases hs with
      | move hs hstart _ => exact ih.step hs hstart
      | write hs _ _ => exact ih.step hs fun _ he => by cases he
      | defer hs _ _ => exact ih.step hs fun _ he => by cases he
      | flush _ _ => exact ih

/-! ## What is queued and what is written -/

theorem Foreign.step {k : K} {f : F} (h : Foreign M T k f n.core.view.past)
    (hs : NetStep M T n w n') : Foreign M T k f n'.core.view.past := by
  obtain ⟨e, he⟩ | hsame := hs.core
  · rw [he.moves.recorded]
    exact h.cons e
  · rwa [hsame]

/-- A queue holds frames for the channels of its loop that were sent from outside. -/
theorem NetSteps.queued (h : NetSteps M T (Net.initial s) n) {l : L} {k : K} {f : F}
    (hq : (k, f) ∈ n.queue l) : T.home k = l ∧ Foreign M T k f n.core.view.past := by
  induction h generalizing l with
  | done => exact absurd hq List.not_mem_nil
  | @step n₂ n₃ w _ hs ih =>
      have hold : (k, f) ∈ n₂.queue l → T.home k = l ∧ Foreign M T k f n₃.core.view.past :=
        fun hq => ⟨(ih hq).1, (ih hq).2.step hs⟩
      cases hs with
      | move => exact hold hq
      | write => exact hold hq
      | @defer y j c r k' f' hs hsend hloop =>
          by_cases hl : l = T.home k'
          · subst hl
            dsimp only [Net.push] at hq
            rw [Function.update_self, List.mem_append, List.mem_singleton] at hq
            obtain hq | hq := hq
            · exact hold hq
            · cases hq
              refine ⟨rfl, j, c, r, ?_, hsend, hloop⟩
              change _ ∈ y.view.past
              rw [hs.moves.recorded]
              exact List.mem_cons_self
          · dsimp only [Net.push] at hq
            rw [Function.update_of_ne hl] at hq
            exact hold hq
      | @flush l' k' f' rest _ hqueue =>
          dsimp only [Net.write] at hq
          by_cases hl : l = l'
          · subst hl
            rw [Function.update_self] at hq
            exact hold (hqueue ▸ List.mem_cons_of_mem _ hq)
          · rw [Function.update_of_ne hl] at hq
            exact hold hq

/-- A frame is written while no job but that which sends it is running in the loop of its
channel. -/
theorem NetStep.written (h : NetSteps M T (Net.initial s) n) {k : K} {f : F}
    (hs : NetStep M T n (some (k, f)) n') :
    (∃ j c r, Step M n.core (.did j c r) n'.core ∧ T.send? c = some (k, f) ∧
      ∀ a, T.loop a = T.home k → a ≠ M.agent j → (n.core.slot a).Idle) ∨
    Free T n.core (T.home k) ∧ Foreign M T k f n.core.view.past ∧ n'.core = n.core := by
  cases hs with
  | @write y j c r _ _ hs hsend hloop =>
      refine .inl ⟨j, c, r, hs, hsend, fun a ha hne => ?_⟩
      by_contra hbusy
      apply hne
      obtain ⟨b, p, hslot⟩ := hs.did
      obtain ⟨es, hrun⟩ := h.core
      have hb : M.agent j = b := (hrun.started_of_last (a := b) (by rw [hslot]; rfl)).1
      refine h.exclusive a (M.agent j) hbusy ?_ (ha.trans hloop.symm)
      rw [hb, hslot]
      exact id
  | flush hfree hqueue =>
      obtain ⟨rfl, hforeign⟩ := h.queued (hqueue ▸ List.mem_cons_self)
      exact .inr ⟨hfree, hforeign, rfl⟩

section Log
variable {β : Type} (log : σ → K → List F) (g : F → Option β)

/-- The state of the system lists the frames of each channel in the order of the calls. -/
structure Logs (M : Machine σ J A C R) (T : Layout A C K F L) : Prop where
  sent : ∀ v v' e k f, Moves M v e v' → T.sends e = some (k, f) →
    log v'.state = Function.update (log v.state) k (log v.state k ++ [f])
  kept : ∀ v v' e, Moves M v e v' → T.sends e = none → log v'.state = log v.state

variable {log g}

/-- What `g` sees of the frames of a channel does not depend on the order in which they are
written, if it sees nothing of those which come from outside the loop. -/
theorem NetSteps.filterMap_written (hlog : Logs log M T) (hs : ∀ k, log s k = [])
    (h : NetSteps M T (Net.initial s) n) (k : K)
    (hforeign : ∀ f, Foreign M T k f n.core.view.past → g f = none) :
    (n.written k).filterMap g = (log n.core.view.state k).filterMap g := by
  induction h with
  | done =>
      change ([] : List F).filterMap g = (log s k).filterMap g
      rw [hs]
  | @step n₂ n₃ w hrun hstep ih =>
      have hearlier : ∀ {e : Entry J C R} {y : Config σ J A C R}, Step M n₂.core e y →
          (∀ f, Foreign M T k f y.view.past → g f = none) →
          (n₂.written k).filterMap g = (log n₂.core.view.state k).filterMap g := by
        intro e y hs hy
        refine ih fun f hf => hy f ?_
        rw [hs.moves.recorded]
        exact hf.cons e
      cases hstep with
      | move hs _ hnone =>
          rw [hearlier hs hforeign, hlog.kept _ _ _ hs.moves hnone]
      | @write y j c r k' f hs hsend hloop =>
          have hout := hlog.sent _ _ (.did j c r) k' f hs.moves hsend
          change ((Function.update n₂.written k' (n₂.written k' ++ [f])) k).filterMap g =
            (log y.view.state k).filterMap g
          rw [hout]
          by_cases hk : k = k'
          · subst hk
            rw [Function.update_self, Function.update_self, List.filterMap_append,
              List.filterMap_append, hearlier hs hforeign]
          · rw [Function.update_of_ne hk, Function.update_of_ne hk, hearlier hs hforeign]
      | @defer y j c r k' f hs hsend hloop =>
          have hout := hlog.sent _ _ (.did j c r) k' f hs.moves hsend
          change (n₂.written k).filterMap g = (log y.view.state k).filterMap g
          rw [hout, hearlier hs hforeign]
          by_cases hk : k = k'
          · subst hk
            have hnone : g f = none := by
              apply hforeign
              refine ⟨j, c, r, ?_, hsend, hloop⟩
              change _ ∈ y.view.past
              rw [hs.moves.recorded]
              exact List.mem_cons_self
            rw [Function.update_self, List.filterMap_append]
            simp [hnone]
          · rw [Function.update_of_ne hk]
      | @flush l k' f rest _ hqueue =>
          change ((Function.update n₂.written k' (n₂.written k' ++ [f])) k).filterMap g =
            (log n₂.core.view.state k).filterMap g
          by_cases hk : k = k'
          · subst hk
            have hnone : g f = none :=
              hforeign f (hrun.queued (hqueue ▸ List.mem_cons_self)).2
            rw [Function.update_self, List.filterMap_append, ih hforeign]
            simp [hnone]
          · rw [Function.update_of_ne hk, ih hforeign]

end Log
/-! ## Replaying a schedule -/

section Replay
variable (T) (P : Replayer M O) (free? : Config σ J A C R → L → Bool)

/-- Execute the move that a cue asks for, or let a loop write what it has queued first. -/
def Net.move? (n : Net σ J A C R K F L) : Cue J A O ⊕ L → Option (Net σ J A C R K F L)
  | .inl cue =>
      (P.move? n.core cue).bind fun y =>
        match y.view.past with
        | .started j :: _ =>
            if free? n.core (T.loop (M.agent j)) then some { n with core := y } else none
        | .did j c _ :: _ =>
            match T.send? c with
            | some (k, f) =>
                if T.loop (M.agent j) = T.home k then some ({ n with core := y }.write k f)
                else some ({ n with core := y }.push (T.home k) k f)
            | none => some { n with core := y }
        | _ => none
  | .inr l =>
      match n.queue l with
      | (k, f) :: rest =>
          if free? n.core l then
            some ({ n with queue := Function.update n.queue l rest }.write k f)
          else none
      | [] => none

def Net.replay? (n : Net σ J A C R K F L) :
    List (Cue J A O ⊕ L) → Option (Net σ J A C R K F L)
  | [] => some n
  | cue :: cues => (n.move? T P free? cue).bind fun n' => n'.replay? cues

variable {P T free?}

theorem Net.move_sound (hfree : ∀ x l, free? x l = true → Free T x l) {cue : Cue J A O ⊕ L}
    (h : n.move? T P free? cue = some n') : ∃ w, NetStep M T n w n' := by
  cases cue with
  | inl cue =>
      obtain ⟨y, hy, h⟩ := Option.bind_eq_some_iff.mp h
      obtain ⟨e, hs⟩ := P.move_sound hy
      rw [hs.moves.recorded] at h
      cases e with
      | started j =>
          dsimp only at h
          split_ifs at h with hloop
          cases h
          refine ⟨none, .move hs ?_ rfl⟩
          intro i hi
          cases hi
          exact hfree _ _ hloop
      | did j c r =>
          dsimp only at h
          split at h
          · next k f hsend =>
            split_ifs at h with hloop
            · cases h
              exact ⟨_, .write hs hsend hloop⟩
            · cases h
              exact ⟨_, .defer hs hsend hloop⟩
          · next hnone =>
            cases h
            exact ⟨none, .move hs (fun _ he => by cases he) hnone⟩
      | aborted => cases h
      | disturbed => cases h
  | inr l =>
      simp only [Net.move?] at h
      split at h
      · next k f rest hqueue =>
        split_ifs at h with hloop
        cases h
        exact ⟨_, .flush (hfree _ _ hloop) hqueue⟩
      · cases h

/-- A schedule whose outcome passes a test shows that such a run of the net exists. -/
theorem Net.exists_steps (hfree : ∀ x l, free? x l = true → Free T x l)
    (cues : List (Cue J A O ⊕ L)) {p : Net σ J A C R K F L → Bool}
    (h : (n.replay? T P free? cues).any p = true) : ∃ n', NetSteps M T n n' ∧ p n' = true := by
  have happend : ∀ {n₁ n₂ n₃ : Net σ J A C R K F L}, NetSteps M T n₁ n₂ → NetSteps M T n₂ n₃ →
      NetSteps M T n₁ n₃ := by
    intro n₁ n₂ n₃ h₁ h₂
    induction h₂ with
    | done => exact h₁
    | step _ hs ih => exact .step ih hs
  induction cues generalizing n with
  | nil => exact ⟨n, .done, by simpa [Net.replay?] using h⟩
  | cons cue cues ih =>
      obtain ⟨n₂, hn₂, hp⟩ := (Option.any_eq_true _ _).mp h
      obtain ⟨n₁, hn₁, hn₂⟩ := Option.bind_eq_some_iff.mp hn₂
      obtain ⟨w, hs⟩ := Net.move_sound hfree hn₁
      obtain ⟨n', hrun, hp'⟩ := ih (n := n₁) ((Option.any_eq_true _ _).mpr ⟨n₂, hn₂, hp⟩)
      exact ⟨n', happend (.step .done hs) hrun, hp'⟩

end Replay
end EventLoops
