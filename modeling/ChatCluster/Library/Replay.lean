import ChatCluster.Library.Interleaving

/-!
# Replaying a schedule

A machine whose moves can be computed has a replayer. A schedule is a list of
cues, each naming the agent that moves next and what the environment decides about
the move; replaying it yields a run of the machine.
-/
namespace Interleaving
open CommandProgram

variable {σ J A C O : Type} {R : C → Type} [DecidableEq A]

instance : DecidablePred (Slot.Idle : Slot J C R → Prop)
  | none => isTrue trivial
  | some (_, .ret _) => isTrue trivial
  | some (_, .act _ _) => isFalse not_false

structure Replayer (M : Machine σ J A C R) (O : Type) where
  start? : J → σ → Option σ
  perform? : O → J → (c : C) → σ → Option (R c × σ)
  admit? : View σ J C R → Entry J C R → Bool
  start_sound : ∀ {j s s'}, start? j s = some s' → M.starts j s s'
  perform_sound : ∀ {o j c s r s'}, perform? o j c s = some (r, s') → M.performs j c s r s'
  admit_sound : ∀ {v e}, admit? v e = true → M.admits v e

inductive Cue (J A O : Type) where
  | start (j : J)
  | act (a : A) (o : O)

/-- The agent that a cue asks to move. -/
def Cue.agent (M : Machine σ J A C R) : Cue J A O → A
  | .start j => M.agent j
  | .act a _ => a

namespace Replayer
variable {M : Machine σ J A C R} (P : Replayer M O)

/-- Execute the move that a cue asks for; `none` when it is not possible. -/
def move? (x : Config σ J A C R) : Cue J A O → Option (Config σ J A C R)
  | .start j =>
      match x.slot (M.agent j) with
      | some (_, .act _ _) => none
      | _ =>
          match P.start? j x.view.state with
          | some s' =>
              if P.admit? x.view (.started j) then
                some ⟨⟨s', .started j :: x.view.past⟩,
                  Function.update x.slot (M.agent j) (some (j, M.body j))⟩
              else none
          | none => none
  | .act a o =>
      match x.slot a with
      | some (j, .act c k) =>
          match P.perform? o j c x.view.state with
          | some (r, s') =>
              if P.admit? x.view (.did j c r) then
                some ⟨⟨s', .did j c r :: x.view.past⟩, Function.update x.slot a (some (j, k r))⟩
              else none
          | none => none
      | _ => none

def replay? (x : Config σ J A C R) : List (Cue J A O) → Option (Config σ J A C R)
  | [] => some x
  | cue :: cues => (P.move? x cue).bind fun y => replay? y cues

theorem move_sound {x y : Config σ J A C R} {cue : Cue J A O} (h : P.move? x cue = some y) :
    ∃ e, Step M x e y := by
  cases cue with
  | start j =>
      simp only [move?] at h
      split at h
      · cases h
      · next hslot =>
        split at h
        · next s' hs =>
          split_ifs at h with hadm
          cases h
          refine ⟨_, .start j ?_ ⟨P.start_sound hs, rfl, P.admit_sound hadm⟩⟩
          match hx : x.slot (M.agent j) with
          | none => trivial
          | some (_, .ret _) => trivial
          | some (_, .act _ _) => exact (hslot _ _ _ hx).elim
        · cases h
  | act a o =>
      simp only [move?] at h
      split at h
      · next j c k hslot =>
        split at h
        · next r s' hs =>
          split_ifs at h with hadm
          cases h
          exact ⟨_, .act a j c k r hslot ⟨P.perform_sound hs, rfl, P.admit_sound hadm⟩⟩
        · cases h
      · cases h

theorem replay_sound {x y : Config σ J A C R} {cues : List (Cue J A O)}
    (h : P.replay? x cues = some y) : ∃ es, Steps M x es y := by
  induction cues generalizing x with
  | nil =>
      cases h
      exact ⟨[], .done⟩
  | cons cue cues ih =>
      obtain ⟨z, hz, hy⟩ := Option.bind_eq_some_iff.mp h
      obtain ⟨e, hstep⟩ := P.move_sound hz
      obtain ⟨es, hes⟩ := ih hy
      exact ⟨[e] ++ es, (Steps.step .done hstep).append hes⟩

/-- A schedule whose outcome passes a test shows that such a run exists. -/
theorem exists_steps {x : Config σ J A C R} (cues : List (Cue J A O))
    {p : Config σ J A C R → Bool} (h : (P.replay? x cues).any p = true) :
    ∃ es y, Steps M x es y ∧ p y = true := by
  obtain ⟨y, hy, hp⟩ := (Option.any_eq_true _ _).mp h
  obtain ⟨es, hes⟩ := P.replay_sound hy
  exact ⟨es, y, hes, hp⟩

/-- A run that a schedule goes on with after the outcome of one of its cues. -/
theorem exists_steps_through {x : Config σ J A C R} (before : List (Cue J A O)) (cue : Cue J A O)
    (after : List (Cue J A O)) {p : Config σ J A C R → Config σ J A C R → Config σ J A C R → Bool}
    (h : ((P.replay? x before).any fun y => (P.move? y cue).any fun z =>
      (P.replay? z after).any (p y z)) = true) :
    ∃ es y e z fs t, Steps M x es y ∧ Step M y e z ∧ Steps M z fs t ∧ p y z t = true := by
  obtain ⟨y, hy, h⟩ := (Option.any_eq_true _ _).mp h
  obtain ⟨z, hz, h⟩ := (Option.any_eq_true _ _).mp h
  obtain ⟨t, ht, hp⟩ := (Option.any_eq_true _ _).mp h
  obtain ⟨es, hes⟩ := P.replay_sound hy
  obtain ⟨e, he⟩ := P.move_sound hz
  obtain ⟨fs, hfs⟩ := P.replay_sound ht
  exact ⟨es, y, e, z, fs, t, hes, he, hfs, hp⟩

theorem move_slot {x y : Config σ J A C R} {cue : Cue J A O} (h : P.move? x cue = some y) {a : A}
    (ha : a ≠ cue.agent M) : y.slot a = x.slot a := by
  cases cue with
  | start j =>
      simp only [move?] at h
      split at h
      · cases h
      · split at h
        · split_ifs at h
          cases h
          exact Function.update_of_ne ha _ _
        · cases h
  | act b o =>
      simp only [move?] at h
      split at h
      · split at h
        · split_ifs at h
          cases h
          exact Function.update_of_ne ha _ _
        · cases h
      · cases h

theorem move_started {x y : Config σ J A C R} {cue : Cue J A O} (h : P.move? x cue = some y) {j : J}
    (hj : .started j ∈ y.view.past) : .started j ∈ x.view.past ∨ cue = .start j := by
  cases cue with
  | start i =>
      simp only [move?] at h
      split at h
      · cases h
      · split at h
        · split_ifs at h
          cases h
          obtain he | hmem := List.mem_cons.mp hj
          · cases he
            exact .inr rfl
          · exact .inl hmem
        · cases h
  | act b o =>
      simp only [move?] at h
      split at h
      · split at h
        · split_ifs at h
          cases h
          exact .inl ((List.mem_cons.mp hj).resolve_left nofun)
        · cases h
      · cases h

/-- Only the jobs of the schedule are started. -/
theorem replay_started {x y : Config σ J A C R} {cues : List (Cue J A O)}
    (h : P.replay? x cues = some y) {j : J} (hj : .started j ∈ y.view.past) :
    .started j ∈ x.view.past ∨ .start j ∈ cues := by
  induction cues generalizing x with
  | nil =>
      cases h
      exact .inl hj
  | cons cue cues ih =>
      obtain ⟨z, hz, hy⟩ := Option.bind_eq_some_iff.mp h
      obtain hz' | hcue := ih hy
      · obtain hx | rfl := P.move_started hz hz'
        · exact .inl hx
        · exact .inr List.mem_cons_self
      · exact .inr (List.mem_cons_of_mem _ hcue)

/-- An agent that no cue names stays as it is. -/
theorem replay_slot {x y : Config σ J A C R} {cues : List (Cue J A O)}
    (h : P.replay? x cues = some y) {a : A} (ha : ∀ cue ∈ cues, a ≠ cue.agent M) :
    y.slot a = x.slot a := by
  induction cues generalizing x with
  | nil =>
      cases h
      rfl
  | cons cue cues ih =>
      simp only [List.mem_cons, forall_eq_or_imp] at ha
      obtain ⟨z, hz, hy⟩ := Option.bind_eq_some_iff.mp h
      exact (ih hy ha.2).trans (P.move_slot hz ha.1)

/-- A schedule of fresh agents, whose run starts no other jobs than the schedule does. -/
theorem exists_steps_started {s : σ} (cues : List (Cue J A O)) {p : Config σ J A C R → Bool}
    (h : (P.replay? (Config.initial s) cues).any p = true) :
    ∃ es y, Steps M (Config.initial s) es y ∧
      (∀ j, .started j ∈ y.view.past → .start j ∈ cues) ∧ p y = true := by
  obtain ⟨y, hy, hp⟩ := (Option.any_eq_true _ _).mp h
  obtain ⟨es, hes⟩ := P.replay_sound hy
  exact ⟨es, y, hes, fun j hj => (P.replay_started hy hj).resolve_left nofun, hp⟩

/-- As `exists_steps_started`, with one more move after the schedule. -/
theorem exists_step_started {s : σ} (cues : List (Cue J A O)) (cue : Cue J A O)
    {p : Config σ J A C R → Config σ J A C R → Bool}
    (h : ((P.replay? (Config.initial s) cues).any fun x => (P.move? x cue).any (p x)) = true) :
    ∃ es x e y, Steps M (Config.initial s) es x ∧ Step M x e y ∧
      (∀ j, .started j ∈ x.view.past → .start j ∈ cues) ∧ p x y = true := by
  obtain ⟨es, x, hrun, hjobs, hx⟩ := P.exists_steps_started cues h
  obtain ⟨y, hy, hp⟩ := (Option.any_eq_true _ _).mp hx
  obtain ⟨e, hs⟩ := P.move_sound hy
  exact ⟨es, x, e, y, hrun, hs, hjobs, hp⟩

/-- A schedule after which every agent that it names has come to rest. -/
theorem exists_steps_idle {x : Config σ J A C R} (hx : ∀ a, (x.slot a).Idle)
    (cues : List (Cue J A O)) {p : Config σ J A C R → Bool}
    (h : (P.replay? x cues).any (fun y =>
      (cues.all fun cue => (y.slot (cue.agent M)).Idle) && p y) = true) :
    ∃ es y, Steps M x es y ∧ (∀ a, (y.slot a).Idle) ∧ p y = true := by
  obtain ⟨y, hy, hp⟩ := (Option.any_eq_true _ _).mp h
  obtain ⟨hnamed, hp⟩ := Bool.and_eq_true_iff.mp hp
  obtain ⟨es, hes⟩ := P.replay_sound hy
  refine ⟨es, y, hes, fun a => ?_, hp⟩
  by_cases ha : ∃ cue ∈ cues, a = cue.agent M
  · obtain ⟨cue, hcue, rfl⟩ := ha
    exact of_decide_eq_true (List.all_eq_true.mp hnamed cue hcue)
  · rw [P.replay_slot hy fun cue hcue e => ha ⟨cue, hcue, e⟩]
    exact hx a

end Replayer

/-! ## Tests on the outcome -/

/-- Some job that passes the test has been started. -/
def anyStarted (p : J → Bool) (past : List (Entry J C R)) : Bool :=
  past.any fun
    | .started j => p j
    | _ => false

theorem exists_of_anyStarted {p : J → Bool} {past : List (Entry J C R)}
    (h : anyStarted p past = true) : ∃ j, p j = true ∧ .started j ∈ past := by
  obtain ⟨e, hmem, he⟩ := List.any_eq_true.mp h
  cases e with
  | started j => exact ⟨j, he, hmem⟩
  | did | aborted | disturbed => cases he

end Interleaving
