import ChatCluster.Library.CommandProgram
import Mathlib.Logic.Relation
import Mathlib.Logic.Function.Basic

/-!
# Interleaved execution of command programs

Agents execute jobs. A job is a command program; an agent that is idle may start
one, and between two commands of it every other agent may move. The record of all
moves is kept as an auxiliary history, so that an assertion can speak about what
has already been done without any change to the programs.

The proof method is rely-guarantee. A `Contract` names an invariant and, for each
command, what a job promises before issuing it. `Outline` walks through a program
and asks for the promise at each command, after an arbitrary number of moves by
others that kept their own promises. `Verified.sound` puts the outlines together.
-/
namespace Interleaving
open CommandProgram Relation

/-! ## Points of a history -/

section Split
variable {α : Type} {l₁ l₂ l₃ l₄ : List α} {a b : α}

/-- Of two points of a history one lies before the other, or they are the same. -/
theorem split_cases (h : l₁ ++ a :: l₂ = l₃ ++ b :: l₄) :
    (∃ l, l₃ = l₁ ++ a :: l ∧ l₂ = l ++ b :: l₄) ∨ (a = b ∧ l₁ = l₃ ∧ l₂ = l₄) ∨
      ∃ l, l₁ = l₃ ++ b :: l ∧ l₄ = l ++ a :: l₂ := by
  obtain ⟨l, hl, hr⟩ | ⟨l, hl, hr⟩ := List.append_eq_append_iff.mp h
  · cases l with
    | nil =>
        obtain ⟨hab, h₂⟩ := List.cons.inj hr
        exact .inr (.inl ⟨hab, by simpa using hl.symm, h₂⟩)
    | cons c l =>
        obtain ⟨rfl, h₂⟩ := List.cons.inj hr
        exact .inl ⟨l, hl, h₂⟩
  · cases l with
    | nil =>
        obtain ⟨hab, h₂⟩ := List.cons.inj hr
        exact .inr (.inl ⟨hab.symm, by simpa using hl, h₂.symm⟩)
    | cons c l =>
        obtain ⟨rfl, h₂⟩ := List.cons.inj hr
        exact .inr (.inr ⟨l, hl, h₂⟩)

theorem mem_of_split (h : l₁ ++ a :: l₂ = l₃ ++ b :: l₄) (hab : a ≠ b) (hb : b ∉ l₁) :
    a ∈ l₃ := by
  obtain ⟨l, rfl, -⟩ | ⟨rfl, -⟩ | ⟨l, rfl, -⟩ := split_cases h
  · exact List.mem_append_right _ List.mem_cons_self
  · exact absurd rfl hab
  · exact absurd (List.mem_append_right _ List.mem_cons_self) hb

theorem eq_of_split (h : l₁ ++ a :: l₂ = l₃ ++ a :: l₄) (h₁ : a ∉ l₁) (h₃ : a ∉ l₃) :
    l₁ = l₃ ∧ l₂ = l₄ := by
  obtain ⟨l, rfl, -⟩ | ⟨-, heq⟩ | ⟨l, rfl, -⟩ := split_cases h
  · exact absurd (List.mem_append_right _ List.mem_cons_self) h₃
  · exact heq
  · exact absurd (List.mem_append_right _ List.mem_cons_self) h₁

end Split

section Semantics
variable {σ J A C : Type} {R : C → Type}

/-- One move of the system, as recorded in the history. -/
inductive Entry (J C : Type) (R : C → Type) where
  | started (j : J)
  | did (j : J) (c : C) (r : R c)
  | aborted (j : J)
  | disturbed

/-- The shared state together with the history of moves, newest first. -/
structure View (σ J C : Type) (R : C → Type) where
  state : σ
  past : List (Entry J C R)

/-- A system of agents. `admits` restricts the runs under consideration: only
moves that it accepts in the current view are taken. -/
structure Machine (σ J A C : Type) (R : C → Type) where
  agent : J → A
  body : J → Prog C R Unit
  starts : J → σ → σ → Prop
  performs : J → (c : C) → σ → R c → σ → Prop
  aborts : J → σ → σ → Prop
  disturbs : σ → σ → Prop
  admits : View σ J C R → Entry J C R → Prop

variable (M : Machine σ J A C R)

def Entry.job? : Entry J C R → Option J
  | .started j => some j
  | .did j _ _ => some j
  | .aborted j => some j
  | .disturbed => none

/-- The effect of a move on the shared state. -/
def Machine.Effect : Entry J C R → σ → σ → Prop
  | .started j, s, s' => M.starts j s s'
  | .did j c r, s, s' => M.performs j c s r s'
  | .aborted j, s, s' => M.aborts j s s'
  | .disturbed, s, s' => M.disturbs s s'

/-- A move on views: the state changes as the entry says and the entry is recorded. -/
structure Moves (v : View σ J C R) (e : Entry J C R) (v' : View σ J C R) : Prop where
  effect : M.Effect e v.state v'.state
  recorded : v'.past = e :: v.past
  admitted : M.admits v e

/-- The system in which a move also needs `I`. -/
def Machine.restrict (I : View σ J C R → Entry J C R → Prop) : Machine σ J A C R :=
  { M with admits := fun v e => M.admits v e ∧ I v e }

section Restrict
variable {M} {I : View σ J C R → Entry J C R → Prop} {v v' : View σ J C R} {e : Entry J C R}

theorem Machine.effect_restrict (e : Entry J C R) : (M.restrict I).Effect e = M.Effect e := by
  cases e <;> rfl

theorem Moves.of_restrict (h : Moves (M.restrict I) v e v') : Moves M v e v' ∧ I v e := by
  have heffect := h.effect
  rw [Machine.effect_restrict] at heffect
  exact ⟨⟨heffect, h.recorded, h.admitted.1⟩, h.admitted.2⟩

theorem Moves.restrict (h : Moves M v e v') (hI : I v e) : Moves (M.restrict I) v e v' := by
  refine ⟨?_, h.recorded, h.admitted, hI⟩
  rw [Machine.effect_restrict]
  exact h.effect

end Restrict

/-- `none`: the agent has not executed any job yet. Otherwise its latest job and
what is left of it; nothing is left of a finished job. -/
abbrev Slot (J C : Type) (R : C → Type) := Option (J × Prog C R Unit)

def Slot.Idle : Slot J C R → Prop
  | none => True
  | some (_, .ret _) => True
  | some (_, .act _ _) => False

def Slot.last : Slot J C R → Option J
  | none => none
  | some (j, _) => some j

structure Config (σ J A C : Type) (R : C → Type) where
  view : View σ J C R
  slot : A → Slot J C R

/-- All agents fresh, nothing recorded. -/
def Config.initial (s : σ) : Config σ J A C R := ⟨⟨s, []⟩, fun _ => none⟩

variable [DecidableEq A]

inductive Step : Config σ J A C R → Entry J C R → Config σ J A C R → Prop
  | start {x : Config σ J A C R} {v' : View σ J C R} (j : J) :
      (x.slot (M.agent j)).Idle → Moves M x.view (.started j) v' →
      Step x (.started j) ⟨v', Function.update x.slot (M.agent j) (some (j, M.body j))⟩
  | act {x : Config σ J A C R} {v' : View σ J C R} (a : A) (j : J) (c : C)
      (k : R c → Prog C R Unit) (r : R c) :
      x.slot a = some (j, .act c k) → Moves M x.view (.did j c r) v' →
      Step x (.did j c r) ⟨v', Function.update x.slot a (some (j, k r))⟩
  | abort {x : Config σ J A C R} {v' : View σ J C R} (a : A) (j : J) (c : C)
      (k : R c → Prog C R Unit) :
      x.slot a = some (j, .act c k) → Moves M x.view (.aborted j) v' →
      Step x (.aborted j) ⟨v', Function.update x.slot a (some (j, .ret ()))⟩
  | disturb {x : Config σ J A C R} {v' : View σ J C R} :
      Moves M x.view .disturbed v' → Step x .disturbed ⟨v', x.slot⟩

/-- `Steps M x es y`: a run from `x` to `y` with the moves `es`, oldest first. -/
inductive Steps : Config σ J A C R → List (Entry J C R) → Config σ J A C R → Prop
  | done {x : Config σ J A C R} : Steps x [] x
  | step {x y z : Config σ J A C R} {e : Entry J C R} {es : List (Entry J C R)} :
      Steps x es y → Step M y e z → Steps x (es ++ [e]) z

variable {M}

theorem Step.moves {x y : Config σ J A C R} {e : Entry J C R} (h : Step M x e y) :
    Moves M x.view e y.view := by
  cases h with
  | start _ _ hm => exact hm
  | act _ _ _ _ _ _ hm => exact hm
  | abort _ _ _ _ _ hm => exact hm
  | disturb hm => exact hm

theorem Step.restrict {I : View σ J C R → Entry J C R → Prop} {x y : Config σ J A C R}
    {e : Entry J C R} (h : Step M x e y) (hI : I x.view e) : Step (M.restrict I) x e y := by
  cases h with
  | start j hidle hm => exact .start (M := M.restrict I) j hidle (hm.restrict hI)
  | act a j c k r hslot hm => exact .act a j c k r hslot (hm.restrict hI)
  | abort a j c k hslot hm => exact .abort a j c k hslot (hm.restrict hI)
  | disturb hm => exact .disturb (hm.restrict hI)

/-- A move of a system is one of every system that allows more. -/
theorem Step.weaken {performs : J → (c : C) → σ → R c → σ → Prop} {disturbs : σ → σ → Prop}
    {admits : View σ J C R → Entry J C R → Prop}
    (hperforms : ∀ j c s r s', M.performs j c s r s' → performs j c s r s')
    (hdisturbs : ∀ s s', M.disturbs s s' → disturbs s s') (hadmits : ∀ v e, M.admits v e → admits v e)
    {x y : Config σ J A C R} {e : Entry J C R} (h : Step M x e y) :
    Step { M with performs := performs, disturbs := disturbs, admits := admits } x e y := by
  let N : Machine σ J A C R :=
    { M with performs := performs, disturbs := disturbs, admits := admits }
  have hmoves : ∀ {v v' : View σ J C R} {e : Entry J C R}, Moves M v e v' → Moves N v e v' := by
    intro v v' e hm
    refine ⟨?_, hm.recorded, hadmits _ _ hm.admitted⟩
    cases e with
    | started j => exact hm.effect
    | did j c r => exact hperforms _ _ _ _ _ hm.effect
    | aborted j => exact hm.effect
    | disturbed => exact hdisturbs _ _ hm.effect
  cases h with
  | start j hidle hm => exact .start (M := N) j hidle (hmoves hm)
  | act a j c k r hslot hm => exact .act (M := N) a j c k r hslot (hmoves hm)
  | abort a j c k hslot hm => exact .abort (M := N) a j c k hslot (hmoves hm)
  | disturb hm => exact .disturb (M := N) (hmoves hm)

theorem Steps.past {x y : Config σ J A C R} {es : List (Entry J C R)}
    (h : Steps M x es y) : y.view.past = es.reverse ++ x.view.past := by
  induction h with
  | done => rfl
  | step _ hs ih => rw [hs.moves.recorded, ih]; simp

theorem Steps.append {x y z : Config σ J A C R} {es fs : List (Entry J C R)}
    (h : Steps M x es y) (k : Steps M y fs z) : Steps M x (es ++ fs) z := by
  induction k with
  | done => rwa [List.append_nil]
  | step _ hs ih => rw [← List.append_assoc]; exact .step ih hs

/-- A run passes through a configuration before each of its moves. -/
theorem Steps.split {x z : Config σ J A C R} {es fs gs : List (Entry J C R)} {e : Entry J C R}
    (h : Steps M x es z) (hes : es = fs ++ e :: gs) :
    ∃ y y', Steps M x fs y ∧ Step M y e y' ∧ Steps M y' gs z := by
  induction h generalizing gs with
  | done => simp at hes
  | @step y z f es hrun hs ih =>
      obtain rfl | ⟨gs, g, rfl⟩ := gs.eq_nil_or_concat
      · obtain ⟨rfl, he⟩ := List.append_inj' hes rfl
        cases he
        exact ⟨y, z, hrun, hs, .done⟩
      · rw [List.concat_eq_append, ← List.cons_append, ← List.append_assoc] at hes
        rw [List.concat_eq_append]
        obtain ⟨hfs, hf⟩ := List.append_inj' hes rfl
        cases hf
        obtain ⟨y₁, y₂, hrun, he, hgs⟩ := ih hfs
        exact ⟨y₁, y₂, hrun, he, .step hgs hs⟩

/-- The configurations around a recorded move. -/
theorem Steps.at_entry {s : σ} {x : Config σ J A C R} {es newer older : List (Entry J C R)}
    {e : Entry J C R} (h : Steps M (Config.initial s) es x)
    (hpast : x.view.past = newer ++ e :: older) :
    ∃ fs gs y y', Steps M (Config.initial s) fs y ∧ y.view.past = older ∧ Step M y e y' ∧
      Steps M y' gs x ∧ gs = newer.reverse := by
  have hes : es = older.reverse ++ e :: newer.reverse := by
    rw [h.past, Config.initial, List.append_nil] at hpast
    rw [← List.reverse_reverse es, hpast]
    simp
  obtain ⟨y, y', hbefore, hs, hafter⟩ := h.split hes
  refine ⟨_, _, y, y', hbefore, ?_, hs, hafter, rfl⟩
  rw [hbefore.past, Config.initial, List.append_nil, List.reverse_reverse]

/-- Invariance: what every move preserves, every run preserves. -/
theorem Steps.preserves {P : View σ J C R → Prop}
    (hP : ∀ v e v', Moves M v e v' → P v → P v') {x y : Config σ J A C R}
    {es : List (Entry J C R)} (h : Steps M x es y) (hx : P x.view) : P y.view := by
  induction h with
  | done => exact hx
  | step _ hs ih => exact hP _ _ _ hs.moves ih

/-- A fact about recorded moves: what admits every new entry holds of all of them. -/
theorem Steps.forall_recorded {P : Entry J C R → Prop}
    (hP : ∀ v e v', Moves M v e v' → P e) {x y : Config σ J A C R}
    {es : List (Entry J C R)} (h : Steps M x es y) (hx : ∀ e ∈ x.view.past, P e) :
    ∀ e ∈ y.view.past, P e :=
  h.preserves (P := fun v => ∀ e ∈ v.past, P e)
    (fun v e v' hm hv f hf => by
      rw [hm.recorded, List.mem_cons] at hf
      rcases hf with rfl | hf
      · exact hP _ _ _ hm
      · exact hv f hf) hx

/-- Only a start changes which job an agent executed last. -/
theorem Step.last {x y : Config σ J A C R} {e : Entry J C R} (h : Step M x e y) (a : A) :
    (y.slot a).last = (x.slot a).last ∨
      ∃ j, e = .started j ∧ M.agent j = a ∧ (y.slot a).last = some j := by
  cases h with
  | start j _ _ =>
      rcases eq_or_ne a (M.agent j) with rfl | ha
      · refine .inr ⟨j, rfl, rfl, ?_⟩
        dsimp only
        rw [Function.update_self]
        rfl
      · refine .inl ?_
        dsimp only
        rw [Function.update_of_ne ha]
  | act b j c k r hslot _ | abort b j c k hslot _ =>
      refine .inl ?_
      rcases eq_or_ne a b with rfl | ha
      · dsimp only
        rw [Function.update_self, hslot]
        rfl
      · dsimp only
        rw [Function.update_of_ne ha]
  | disturb => exact .inl rfl

theorem Steps.started_of_last {s : σ} {x : Config σ J A C R} {es : List (Entry J C R)}
    (h : Steps M (Config.initial s) es x) {a : A} {j : J} (hj : (x.slot a).last = some j) :
    M.agent j = a ∧ .started j ∈ x.view.past := by
  induction h with
  | done => cases hj
  | step _ hs ih =>
      rw [hs.moves.recorded]
      obtain hsame | ⟨i, rfl, hi, hlast⟩ := hs.last a
      · obtain ⟨hagent, hstarted⟩ := ih (hsame ▸ hj)
        exact ⟨hagent, List.mem_cons_of_mem _ hstarted⟩
      · obtain rfl := Option.some.inj (hlast.symm.trans hj)
        exact ⟨hi, List.mem_cons_self⟩

/-- A command or an abort is a move of the job that its agent started last. -/
theorem Steps.job_of_step {s : σ} {x y : Config σ J A C R} {es : List (Entry J C R)}
    {e : Entry J C R} (h : Steps M (Config.initial s) es x) (hs : Step M x e y) {j : J}
    (hj : e.job? = some j) (hstart : e ≠ .started j) :
    (x.slot (M.agent j)).last = some j := by
  have hslot : ∀ {a : A} {p : Prog C R Unit}, x.slot a = some (j, p) →
      (x.slot (M.agent j)).last = some j := by
    intro a p hp
    have hlast : (x.slot a).last = some j := by rw [hp]; rfl
    rw [(h.started_of_last hlast).1]
    exact hlast
  cases hs with
  | start i _ _ =>
      cases hj
      exact absurd rfl hstart
  | act a i c k r hp _ =>
      cases hj
      exact hslot hp
  | abort a i c k hp _ =>
      cases hj
      exact hslot hp
  | disturb => cases hj

/-- The latest job of an agent is the one it started last, and all its moves since then
are moves of that job. -/
theorem Steps.current_start {s : σ} {x : Config σ J A C R} {es : List (Entry J C R)}
    (h : Steps M (Config.initial s) es x) {a : A} {j : J} (hj : (x.slot a).last = some j) :
    ∃ later earlier, x.view.past = later ++ .started j :: earlier ∧
      ∀ e ∈ later, ∀ i, e.job? = some i → M.agent i = a → i = j ∧ e ≠ .started i := by
  induction h with
  | done => cases hj
  | @step x y e es hrun hs ih =>
      have hpast := hs.moves.recorded
      by_cases he : ∃ i, e = .started i ∧ M.agent i = a
      · obtain ⟨i, rfl, rfl⟩ := he
        cases hs with
        | start =>
            dsimp only at hj
            rw [Function.update_self] at hj
            obtain rfl := Option.some.inj hj
            exact ⟨[], x.view.past, hpast, fun _ h => absurd h List.not_mem_nil⟩
      · have hsame : (y.slot a).last = (x.slot a).last :=
          (hs.last a).resolve_right fun ⟨i, hi, ha, _⟩ => he ⟨i, hi, ha⟩
        have hlast : (x.slot a).last = some j := hsame ▸ hj
        obtain ⟨later, earlier, hsplit, hlater⟩ := ih hlast
        refine ⟨e :: later, earlier, by rw [hpast, hsplit, List.cons_append], fun f hf i hi ha => ?_⟩
        obtain rfl | hf := List.mem_cons.mp hf
        · refine ⟨?_, fun hstart => he ⟨i, hstart, ha⟩⟩
          have hcurrent := hrun.job_of_step hs hi
          rw [ha, hlast] at hcurrent
          exact (Option.some.inj (hcurrent fun hstart => he ⟨i, hstart, ha⟩)).symm
        · exact hlater f hf i hi ha

/-- Since its start, a job that still has something to do has done nothing but commands. -/
theorem Steps.active_start {s : σ} {x : Config σ J A C R} {es : List (Entry J C R)}
    (h : Steps M (Config.initial s) es x) {a : A} {j : J} {c : C} {k : R c → Prog C R Unit}
    (hj : x.slot a = some (j, .act c k)) :
    ∃ later earlier, x.view.past = later ++ .started j :: earlier ∧
      ∀ e ∈ later, ∀ i, e.job? = some i → M.agent i = a → ∃ c r, e = .did i c r := by
  induction h generalizing c with
  | done => cases hj
  | @step x y e es hrun hs ih =>
      have hpast := hs.moves.recorded
      have hkept : ∀ {c₀ : C} {k₀ : R c₀ → Prog C R Unit}, x.slot a = some (j, .act c₀ k₀) →
          (∀ i, e.job? = some i → M.agent i = a → ∃ c r, e = .did i c r) →
          ∃ later earlier, y.view.past = later ++ .started j :: earlier ∧
            ∀ e ∈ later, ∀ i, e.job? = some i → M.agent i = a → ∃ c r, e = .did i c r := by
        intro c₀ k₀ hx he
        obtain ⟨later, earlier, hsplit, hlater⟩ := ih hx
        refine ⟨e :: later, earlier, by rw [hpast, hsplit, List.cons_append], fun f hf => ?_⟩
        obtain rfl | hf := List.mem_cons.mp hf
        · exact he
        · exact hlater f hf
      cases hs with
      | start i _ _ =>
          dsimp only at hj
          by_cases hi : a = M.agent i
          · rw [hi, Function.update_self] at hj
            obtain ⟨rfl, -⟩ := Prod.mk.inj (Option.some.inj hj)
            exact ⟨[], x.view.past, hpast, fun _ hf => absurd hf List.not_mem_nil⟩
          · rw [Function.update_of_ne hi] at hj
            refine hkept hj fun i' hi' ha => ?_
            cases hi'
            exact absurd ha.symm hi
      | act b i c' k' r hslot _ =>
          dsimp only at hj
          have hdid : ∀ i', (Entry.did i c' r : Entry J C R).job? = some i' → M.agent i' = a →
              ∃ c'' r', (Entry.did i c' r : Entry J C R) = .did i' c'' r' := by
            intro i' hi' _
            cases hi'
            exact ⟨c', r, rfl⟩
          by_cases hb : a = b
          · subst hb
            rw [Function.update_self] at hj
            obtain ⟨rfl, -⟩ := Prod.mk.inj (Option.some.inj hj)
            exact hkept hslot hdid
          · rw [Function.update_of_ne hb] at hj
            exact hkept hj hdid
      | abort b i c' k' hslot _ =>
          dsimp only at hj
          by_cases hb : a = b
          · subst hb
            rw [Function.update_self] at hj
            cases hj
          · rw [Function.update_of_ne hb] at hj
            refine hkept hj fun i' hi' ha => ?_
            cases hi'
            have hagent := (hrun.started_of_last (a := b) (by rw [hslot]; rfl)).1
            exact absurd (ha.symm.trans hagent) hb
      | disturb =>
          refine hkept hj fun i hi => ?_
          cases hi

theorem Steps.last_of_started {s : σ} {x : Config σ J A C R} {es : List (Entry J C R)}
    (h : Steps M (Config.initial s) es x) {j : J} (hj : .started j ∈ x.view.past) :
    ∃ i, (x.slot (M.agent j)).last = some i := by
  induction h with
  | done => cases hj
  | step _ hs ih =>
      rw [hs.moves.recorded, List.mem_cons] at hj
      obtain hsame | ⟨i, -, -, hlast⟩ := hs.last (M.agent j)
      · rcases hj with rfl | hj
        · cases hs with
          | start =>
              refine ⟨j, ?_⟩
              dsimp only
              rw [Function.update_self]
              rfl
        · rw [hsame]
          exact ih hj
      · exact ⟨i, hlast⟩

/-- A recorded command was the next one of its job. -/
theorem Step.did {x y : Config σ J A C R} {j : J} {c : C} {r : R c}
    (h : Step M x (.did j c r) y) : ∃ a k, x.slot a = some (j, .act c k) := by
  cases h with
  | act a j c k r hslot _ => exact ⟨a, k, hslot⟩

/-- How an agent comes by what it has left to do. -/
theorem Step.slot_cases {x y : Config σ J A C R} {e : Entry J C R} (h : Step M x e y) {a : A}
    {j : J} {p : Prog C R Unit} (hp : y.slot a = some (j, p)) :
    x.slot a = some (j, p) ∨ p = M.body j ∨ p = .ret () ∨
      ∃ c k r, x.slot a = some (j, .act c k) ∧ p = k r := by
  have hupdate : ∀ {b : A} {s : Slot J C R}, Function.update x.slot b s a = some (j, p) →
      x.slot a = some (j, p) ∨ a = b ∧ s = some (j, p) := by
    intro b s hs
    rcases eq_or_ne a b with rfl | ha
    · rw [Function.update_self] at hs
      exact .inr ⟨rfl, hs⟩
    · rw [Function.update_of_ne ha] at hs
      exact .inl hs
  cases h with
  | start i _ _ =>
      refine (hupdate hp).imp id fun ⟨_, hs⟩ => .inl ?_
      cases hs
      rfl
  | act b i c k r hslot _ =>
      refine (hupdate hp).imp id fun ⟨ha, hs⟩ => .inr (.inr ?_)
      cases hs
      exact ⟨c, k, r, ha ▸ hslot, rfl⟩
  | abort b i c k _ _ =>
      refine (hupdate hp).imp id fun ⟨_, hs⟩ => .inr (.inl ?_)
      cases hs
      rfl
  | disturb => exact .inl hp

theorem Steps.started_of_did {s : σ} {x : Config σ J A C R} {es : List (Entry J C R)}
    (h : Steps M (Config.initial s) es x) {j : J} {c : C} {r : R c}
    (hj : .did j c r ∈ x.view.past) : .started j ∈ x.view.past := by
  induction h with
  | done => cases hj
  | step h hs ih =>
      rw [hs.moves.recorded, List.mem_cons] at hj ⊢
      rcases hj with rfl | hj
      · obtain ⟨a, k, hslot⟩ := hs.did
        exact .inr (h.started_of_last (a := a) (by rw [hslot]; rfl)).2
      · exact .inr (ih hj)

/-- What every command of each job's program satisfies, every recorded command does. -/
theorem Steps.did_all {P : J → C → Prop} (hP : ∀ j, (M.body j).All (P j)) {s : σ}
    {x : Config σ J A C R} {es : List (Entry J C R)} (h : Steps M (Config.initial s) es x) :
    (∀ j c r, .did j c r ∈ x.view.past → P j c) ∧
      ∀ a j p, x.slot a = some (j, p) → p.All (P j) := by
  induction h with
  | done => exact ⟨fun _ _ _ hmem => (nomatch hmem), fun _ _ _ hslot => (nomatch hslot)⟩
  | step _ hs ih =>
      obtain ⟨hdid, hslots⟩ := ih
      refine ⟨fun j c r hmem => ?_, fun a j p hp => ?_⟩
      · rw [hs.moves.recorded, List.mem_cons] at hmem
        rcases hmem with rfl | hmem
        · obtain ⟨a, k, hslot⟩ := hs.did
          exact (hslots a j _ hslot).1
        · exact hdid j c r hmem
      · obtain hsame | rfl | rfl | ⟨c, k, r, hslot, rfl⟩ := hs.slot_cases hp
        · exact hslots a j p hsame
        · exact hP j
        · trivial
        · exact (hslots a j _ hslot).2 r

/-! ## What an agent remembers -/

/-- The memory that an agent's current job has built up from its recorded responses; an
abort ends it. -/
def memory {τ : Type} (agent : J → A) (first : τ) (next : τ → (c : C) → R c → τ) (a : A) :
    List (Entry J C R) → τ
  | [] => first
  | .started j :: past => if agent j = a then first else memory agent first next a past
  | .did j c r :: past =>
      if agent j = a then next (memory agent first next a past) c r
      else memory agent first next a past
  | .aborted j :: past => if agent j = a then first else memory agent first next a past
  | .disturbed :: past => memory agent first next a past

section Memory
variable {τ : Type} {agent : J → A} {first : τ} {next : τ → (c : C) → R c → τ} {a : A}

/-- A fact that an agent remembers became true with one of its responses, and it has
remembered it ever since. -/
theorem memory_since {D : τ → Prop} (hfirst : ¬ D first) {past : List (Entry J C R)}
    (h : D (memory agent first next a past)) :
    ∃ since j c r older, past = since ++ .did j c r :: older ∧ agent j = a ∧
      ¬ D (memory agent first next a older) ∧ D (next (memory agent first next a older) c r) ∧
      ∀ newer rest, since = newer ++ rest →
        D (memory agent first next a (rest ++ .did j c r :: older)) := by
  induction past with
  | nil => exact absurd h hfirst
  | cons e past ih =>
      by_cases hD : D (memory agent first next a past)
      · obtain ⟨since, j, c, r, older, rfl, hj, hnot, hnext, hkept⟩ := ih hD
        refine ⟨e :: since, j, c, r, older, rfl, hj, hnot, hnext, fun newer rest hsplit => ?_⟩
        cases newer with
        | nil =>
            obtain rfl : e :: since = rest := hsplit
            exact h
        | cons f newer => exact hkept newer rest (List.cons.inj hsplit).2
      · -- the fact is new, so the latest move is a response to the agent
        cases e with
        | started i =>
            simp only [memory] at h
            split_ifs at h
            · exact absurd h hfirst
            · exact absurd h hD
        | did i c r =>
            have hnew := h
            simp only [memory] at hnew
            split_ifs at hnew with hi
            · refine ⟨[], i, c, r, past, rfl, hi, hD, hnew, fun newer rest hsplit => ?_⟩
              obtain ⟨-, rfl⟩ := List.append_eq_nil_iff.mp hsplit.symm
              exact h
            · exact absurd hnew hD
        | aborted i =>
            simp only [memory] at h
            split_ifs at h
            · exact absurd h hfirst
            · exact absurd h hD
        | disturbed => exact absurd h hD

/-- An agent that remembers a fact has not started another job since it learnt it. -/
theorem memory_gained {D : τ → Prop} (hfirst : ¬ D first) {past : List (Entry J C R)}
    (h : D (memory agent first next a past)) :
    ∃ since j c r older, past = since ++ .did j c r :: older ∧ agent j = a ∧
      ¬ D (memory agent first next a older) ∧ D (next (memory agent first next a older) c r) ∧
      ∀ i, .started i ∈ since → agent i ≠ a := by
  obtain ⟨since, j, c, r, older, hpast, hj, hnot, hnext, hkept⟩ := memory_since hfirst h
  refine ⟨since, j, c, r, older, hpast, hj, hnot, hnext, fun i hi ha => ?_⟩
  obtain ⟨newer, rest, hsplit⟩ := List.append_of_mem hi
  have hD := hkept newer (.started i :: rest) hsplit
  rw [List.cons_append, memory, if_pos ha] at hD
  exact hfirst hD

/-- A fact that an agent no longer remembers was dropped by one of its moves. -/
theorem memory_dropped {D : τ → Prop} (later : List (Entry J C R)) {older : List (Entry J C R)}
    (h : D (memory agent first next a older))
    (hnot : ¬ D (memory agent first next a (later ++ older))) :
    ∃ newer e rest j, later = newer ++ e :: rest ∧ e.job? = some j ∧ agent j = a ∧
      D (memory agent first next a (rest ++ older)) ∧
      ¬ D (memory agent first next a (e :: (rest ++ older))) := by
  induction later with
  | nil => exact absurd h hnot
  | cons e later ih =>
      by_cases hD : D (memory agent first next a (later ++ older))
      · have hmove : ∃ j, e.job? = some j ∧ agent j = a := by
          by_contra hother
          apply hnot
          cases e with
          | disturbed => exact hD
          | started i | aborted i | did i c r =>
              have hi : agent i ≠ a := fun hi => hother ⟨i, rfl, hi⟩
              rw [List.cons_append, memory, if_neg hi]
              exact hD
        obtain ⟨j, hj, ha⟩ := hmove
        exact ⟨[], e, later, j, rfl, hj, ha, hD, hnot⟩
      · obtain ⟨newer, f, rest, j, rfl, hj, ha, hrest, hdropped⟩ := ih hD
        exact ⟨e :: newer, f, rest, j, rfl, hj, ha, hrest, hdropped⟩

end Memory

theorem Step.slot_agent {x y : Config σ J A C R} {e : Entry J C R} (h : Step M x e y)
    (hx : ∀ a j p, x.slot a = some (j, p) → M.agent j = a) {a : A} {j : J} {p : Prog C R Unit}
    (hp : y.slot a = some (j, p)) : M.agent j = a := by
  obtain hlast | ⟨i, -, hi, hlast⟩ := h.last a
  · rw [hp] at hlast
    cases hs : x.slot a with
    | none =>
        rw [hs] at hlast
        cases hlast
    | some q =>
        rw [hs] at hlast
        cases hlast
        exact hx a q.1 q.2 hs
  · rw [hp] at hlast
    cases hlast
    exact hi

/-- What an agent remembers comes from the job that it is executing, and it has remembered
it ever since. -/
theorem Steps.current_since {τ : Type} {first : τ} {next : τ → (c : C) → R c → τ} {s : σ}
    {x : Config σ J A C R} {es : List (Entry J C R)} (h : Steps M (Config.initial s) es x) {a : A}
    {j : J} (hj : (x.slot a).last = some j) {D : τ → Prop} (hfirst : ¬ D first)
    (hD : D (memory M.agent first next a x.view.past)) :
    ∃ since c r older, x.view.past = since ++ .did j c r :: older ∧ .started j ∉ since ∧
      ¬ D (memory M.agent first next a older) ∧
      D (next (memory M.agent first next a older) c r) ∧
      ∀ newer rest, since = newer ++ rest →
        D (memory M.agent first next a (rest ++ .did j c r :: older)) := by
  obtain ⟨since, i, c, r, older, hpast, hi, hnot, hnext, hkept⟩ := memory_since hfirst hD
  obtain ⟨later, earlier, hsplit, hlater⟩ := h.current_start hj
  have hagent := (h.started_of_last hj).1
  have hsince : .started j ∉ since := by
    intro hmem
    obtain ⟨newer, rest, rfl⟩ := List.append_of_mem hmem
    have hremembered := hkept newer (.started j :: rest) rfl
    rw [List.cons_append, memory, if_pos hagent] at hremembered
    exact hfirst hremembered
  -- the response was recorded after the start, so it is one of the current job
  have hmem : .did i c r ∈ later := mem_of_split (hpast.symm.trans hsplit) (by simp) hsince
  obtain ⟨rfl, -⟩ := hlater _ hmem i rfl hi
  exact ⟨since, c, r, older, hpast, hsince, hnot, hnext, hkept⟩

theorem Steps.current_gained {τ : Type} {first : τ} {next : τ → (c : C) → R c → τ} {s : σ}
    {x : Config σ J A C R} {es : List (Entry J C R)} (h : Steps M (Config.initial s) es x) {a : A}
    {j : J} (hj : (x.slot a).last = some j) {D : τ → Prop} (hfirst : ¬ D first)
    (hD : D (memory M.agent first next a x.view.past)) :
    ∃ since c r older, x.view.past = since ++ .did j c r :: older ∧ .started j ∉ since ∧
      ¬ D (memory M.agent first next a older) ∧
      D (next (memory M.agent first next a older) c r) := by
  obtain ⟨since, c, r, older, hpast, hsince, hnot, hnext, -⟩ := h.current_since hj hfirst hD
  exact ⟨since, c, r, older, hpast, hsince, hnot, hnext⟩

/-- What an agent has left to do is tracked from its memory, and an agent that has done
nothing remembers nothing. -/
structure SlotTracked {τ : Type} (M : Machine σ J A C R) (first : τ)
    (next : τ → (c : C) → R c → τ) (P : J → τ → C → Prop) (Q : τ → Prop)
    (x : Config σ J A C R) : Prop where
  fresh : ∀ a, x.slot a = none → memory M.agent first next a x.view.past = first
  agent : ∀ a j p, x.slot a = some (j, p) → M.agent j = a
  rest : ∀ a j p, x.slot a = some (j, p) →
    p.Tracked next (P j) (fun t _ => Q t) (memory M.agent first next a x.view.past)

section Tracked
variable {τ : Type} {first : τ} {next : τ → (c : C) → R c → τ} {P : J → τ → C → Prop}
  {Q : τ → Prop}

theorem SlotTracked.of_idle {x : Config σ J A C R} (hx : SlotTracked M first next P Q x)
    (hQ : Q first) {a : A} (h : (x.slot a).Idle) :
    Q (memory M.agent first next a x.view.past) := by
  cases hslot : x.slot a with
  | none =>
      rw [hx.fresh a hslot]
      exact hQ
  | some s =>
      obtain ⟨j, p⟩ := s
      rw [hslot] at h
      cases p with
      | ret u => exact hx.rest a j _ hslot
      | act c k => exact h.elim

/-- The memory of an agent that a move leaves alone. -/
theorem Step.memory_of_slot {x y : Config σ J A C R} {e : Entry J C R} (h : Step M x e y)
    (hx : SlotTracked M first next P Q x) {a : A} (ha : ∀ j, e.job? = some j → M.agent j ≠ a) :
    y.slot a = x.slot a ∧
      memory M.agent first next a y.view.past = memory M.agent first next a x.view.past := by
  rw [h.moves.recorded]
  cases h with
  | start j hidle hm =>
      have hj := ha j rfl
      exact ⟨Function.update_of_ne (Ne.symm hj) _ _, if_neg hj⟩
  | act b j c k r hslot hm =>
      have hj := ha j rfl
      rw [hx.agent b j _ hslot] at hj
      refine ⟨Function.update_of_ne (Ne.symm hj) _ _, ?_⟩
      rw [← hx.agent b j _ hslot] at hj
      exact if_neg hj
  | abort b j c k hslot hm =>
      have hj := ha j rfl
      rw [hx.agent b j _ hslot] at hj
      refine ⟨Function.update_of_ne (Ne.symm hj) _ _, ?_⟩
      rw [← hx.agent b j _ hslot] at hj
      exact if_neg hj
  | disturb hm => exact ⟨rfl, rfl⟩

/-- A move of job `i` keeps the agents tracked when it does so for the agent of `i`. -/
theorem SlotTracked.of_move {x y : Config σ J A C R} {e : Entry J C R}
    (hx : SlotTracked M first next P Q x) (h : Step M x e y) {i : J} (he : e.job? = some i)
    {q : Prog C R Unit} (hslot : y.slot = Function.update x.slot (M.agent i) (some (i, q)))
    (hq : q.Tracked next (P i) (fun t _ => Q t)
      (memory M.agent first next (M.agent i) y.view.past)) : SlotTracked M first next P Q y := by
  have hsame : ∀ a, M.agent i ≠ a → y.slot a = x.slot a ∧
      memory M.agent first next a y.view.past = memory M.agent first next a x.view.past := by
    intro a ha
    apply h.memory_of_slot hx
    intro j hj
    obtain rfl := Option.some.inj (he.symm.trans hj)
    exact ha
  refine ⟨fun a ha => ?_, fun a j p hp => h.slot_agent hx.agent hp, fun a j p hp => ?_⟩
  · by_cases hi : M.agent i = a
    · subst hi
      rw [hslot, Function.update_self] at ha
      cases ha
    · obtain ⟨hslot', hmem⟩ := hsame a hi
      rw [hmem]
      exact hx.fresh a (hslot' ▸ ha)
  · by_cases hi : M.agent i = a
    · subst hi
      rw [hslot, Function.update_self] at hp
      cases hp
      exact hq
    · obtain ⟨hslot', hmem⟩ := hsame a hi
      rw [hmem]
      exact hx.rest a j p (hslot' ▸ hp)

variable (hP : ∀ j, (M.body j).Tracked next (P j) (fun t _ => Q t) first) (hQ : Q first)
include hP hQ

theorem Step.tracked {x y : Config σ J A C R} {e : Entry J C R} (h : Step M x e y)
    (hx : SlotTracked M first next P Q x) : SlotTracked M first next P Q y := by
  have hpast := h.moves.recorded
  cases h with
  | start i hidle hm =>
      refine hx.of_move (.start i hidle hm) (i := i) rfl rfl ?_
      rw [hpast, memory, if_pos rfl]
      exact hP i
  | act a i c k r hslot hm =>
      obtain rfl := hx.agent a i _ hslot
      refine hx.of_move (.act _ i c k r hslot hm) (i := i) rfl rfl ?_
      rw [hpast, memory, if_pos rfl]
      exact (hx.rest _ i _ hslot).2 r
  | abort a i c k hslot hm =>
      obtain rfl := hx.agent a i _ hslot
      refine hx.of_move (.abort _ i c k hslot hm) (i := i) rfl rfl ?_
      rw [hpast, memory, if_pos rfl]
      exact hQ
  | disturb hm =>
      refine ⟨fun a ha => ?_, hx.agent, fun a j p hp => ?_⟩
      · rw [hpast]
        exact hx.fresh a ha
      · rw [hpast]
        exact hx.rest a j p hp

theorem Steps.slotTracked {s : σ} {x : Config σ J A C R} {es : List (Entry J C R)}
    (h : Steps M (Config.initial s) es x) : SlotTracked M first next P Q x := by
  induction h with
  | done =>
      constructor
      · intro a _
        rfl
      · intro a j p hslot
        cases hslot
      · intro a j p hslot
        cases hslot
  | step _ hs ih => exact hs.tracked hP hQ ih

/-- A command of a job whose program is tracked meets its condition in the memory of its
agent before it. -/
theorem Steps.tracked_did {s : σ} {x y : Config σ J A C R} {es : List (Entry J C R)}
    (h : Steps M (Config.initial s) es x) {j : J} {c : C} {r : R c}
    (hs : Step M x (.did j c r) y) :
    P j (memory M.agent first next (M.agent j) x.view.past) c := by
  obtain ⟨a, k, hslot⟩ := hs.did
  have hx := h.slotTracked hP hQ
  rw [hx.agent a j _ hslot]
  exact (hx.rest a j _ hslot).1

theorem Steps.tracked {s : σ} {x : Config σ J A C R} {es : List (Entry J C R)}
    (h : Steps M (Config.initial s) es x) {newer older : List (Entry J C R)} {j : J} {c : C}
    {r : R c} (hpast : x.view.past = newer ++ .did j c r :: older) :
    P j (memory M.agent first next (M.agent j) older) c := by
  obtain ⟨_, _, y, y', hrun, rfl, hs, -, -⟩ := h.at_entry hpast
  exact hrun.tracked_did hP hQ hs

/-- An agent that starts a job remembers what it does when idle. -/
theorem Steps.tracked_started {s : σ} {x y : Config σ J A C R} {es : List (Entry J C R)}
    (h : Steps M (Config.initial s) es x) {j : J} (hs : Step M x (.started j) y) :
    Q (memory M.agent first next (M.agent j) x.view.past) := by
  cases hs with
  | start _ hidle hm => exact (h.slotTracked hP hQ).of_idle hQ hidle

theorem Steps.tracked_start {s : σ} {x : Config σ J A C R} {es : List (Entry J C R)}
    (h : Steps M (Config.initial s) es x) {newer older : List (Entry J C R)} {j : J}
    (hpast : x.view.past = newer ++ .started j :: older) :
    Q (memory M.agent first next (M.agent j) older) := by
  obtain ⟨_, _, y, y', hrun, rfl, hs, -, -⟩ := h.at_entry hpast
  exact hrun.tracked_started hP hQ hs

end Tracked

/-! ## A job executed alone -/

/-- An execution without interference is one of the interleaved runs: the agent
goes through the rest of its job while all others stand still. -/
theorem steps_of_runs (hadm : ∀ v e, M.admits v e) {j : J} {p : Prog C R Unit} {s s' : σ}
    (h : p.Runs (M.performs j) s () s') {x : Config σ J A C R} (hs : x.view.state = s)
    (hx : x.slot (M.agent j) = some (j, p)) :
    ∃ es y, Steps M x es y ∧ y.view.state = s' ∧
      y.slot = Function.update x.slot (M.agent j) (some (j, .ret ())) := by
  induction p generalizing s x with
  | ret u =>
      refine ⟨[], x, Steps.done, hs.trans h.2.symm, ?_⟩
      rw [← hx, Function.update_eq_self]
  | act c k ih =>
      obtain ⟨r, s₁, hperf, hk⟩ := h
      let y : Config σ J A C R :=
        ⟨⟨s₁, .did j c r :: x.view.past⟩, Function.update x.slot (M.agent j) (some (j, k r))⟩
      have hy : Step M x (.did j c r) y :=
        .act _ j c k r hx ⟨by subst hs; exact hperf, rfl, hadm _ _⟩
      obtain ⟨es, z, hz, hzs, hzslot⟩ :=
        ih r hk (x := y) rfl (by simp [y])
      refine ⟨[.did j c r] ++ es, z, (Steps.step .done hy).append hz, hzs, ?_⟩
      rw [hzslot]
      simp [y]

/-- A whole job executed alone, from its start on an idle agent. -/
theorem steps_of_job (hadm : ∀ v e, M.admits v e) {j : J} {s₁ s₂ : σ}
    {x : Config σ J A C R} (hidle : (x.slot (M.agent j)).Idle)
    (hstart : M.starts j x.view.state s₁) (hrun : (M.body j).Runs (M.performs j) s₁ () s₂) :
    ∃ es y, Steps M x es y ∧ y.view.state = s₂ ∧
      y.slot = Function.update x.slot (M.agent j) (some (j, .ret ())) := by
  let y : Config σ J A C R :=
    ⟨⟨s₁, .started j :: x.view.past⟩,
      Function.update x.slot (M.agent j) (some (j, M.body j))⟩
  have hy : Step M x (.started j) y := .start j hidle ⟨hstart, rfl, hadm _ _⟩
  obtain ⟨es, z, hz, hzs, hzslot⟩ := steps_of_runs hadm hrun (x := y) rfl (by simp [y])
  refine ⟨[.started j] ++ es, z, (Steps.step .done hy).append hz, hzs, ?_⟩
  rw [hzslot]
  simp [y]

end Semantics

section RelyGuarantee
variable {σ J A C : Type} {R : C → Type}

/-- An invariant of all views, and what a job promises when it issues a command. -/
structure Contract (σ J C : Type) (R : C → Type) where
  inv : View σ J C R → Prop
  may : J → View σ J C R → C → Prop

variable (M : Machine σ J A C R) (K : Contract σ J C R)

/-- The promise attached to a move; only commands carry one. -/
def Contract.Promised (v : View σ J C R) : Entry J C R → Prop
  | .did j c _ => K.may j v c
  | _ => True

/-- A move that agent `a` does not make itself but has to live with. -/
structure Interferes (a : A) (v v' : View σ J C R) : Prop where
  before : K.inv v
  after : K.inv v'
  move : ∃ e, (∀ j, e.job? = some j → M.agent j ≠ a) ∧ Moves M v e v' ∧ K.Promised v e

/-- `P` survives the moves of the other agents. -/
def Stable (a : A) (P : View σ J C R → Prop) : Prop :=
  ∀ v v', Interferes M K a v v' → P v → P v'

/-- The proof outline of a program executed for job `j`. -/
def Outline {α : Type} (j : J) :
    Prog C R α → (α → View σ J C R → Prop) → View σ J C R → Prop
  | .ret a, Q, v => Q a v
  | .act c k, Q, v => ∀ w, ReflTransGen (Interferes M K (M.agent j)) v w → K.inv w →
      K.may j w c ∧ ∀ r w', Moves M w (.did j c r) w' → K.inv w' → Outline j (k r) Q w'

variable {M K}

theorem Stable.and {a : A} {P Q : View σ J C R → Prop}
    (hP : Stable M K a P) (hQ : Stable M K a Q) : Stable M K a fun v => P v ∧ Q v :=
  fun v v' h hv => ⟨hP v v' h hv.1, hQ v v' h hv.2⟩

theorem Stable.const {a : A} (p : Prop) : Stable M K a fun _ => p := fun _ _ _ hp => hp

theorem Stable.of_kept {a : A} {P : View σ J C R → Prop}
    (hP : ∀ v e v', Moves M v e v' → P v → P v') : Stable M K a P := by
  rintro v v' ⟨-, -, e, -, hm, -⟩ hv
  exact hP v e v' hm hv

/-- A recorded move stays recorded. -/
theorem stable_recorded {a : A} (e : Entry J C R) :
    Stable M K a fun v => e ∈ v.past := by
  rintro v v' ⟨_, _, f, _, hm, _⟩ hv
  rw [hm.recorded]
  exact List.mem_cons_of_mem f hv

theorem Stable.closed {a : A} {P : View σ J C R → Prop} (hP : Stable M K a P)
    {v w : View σ J C R} (h : ReflTransGen (Interferes M K a) v w) (hv : P v) : P w := by
  induction h with
  | refl => exact hv
  | tail _ hi ih => exact hP _ _ hi ih

section Rules
variable {α β : Type} {j : J}

/-- The command rule: carry a stable assertion up to the command, justify the
promise from it, and go on with what the command established. -/
theorem Outline.act {P : View σ J C R → Prop} (hP : Stable M K (M.agent j) P) {c : C}
    {k : R c → Prog C R α} {Q : α → View σ J C R → Prop} {v : View σ J C R} (hv : P v)
    (h : ∀ w, P w → K.inv w → K.may j w c ∧
      ∀ r w', Moves M w (.did j c r) w' → K.inv w' → Outline M K j (k r) Q w') :
    Outline M K j (.act c k) Q v :=
  fun w hw hinv => h w (hP.closed hw hv) hinv

theorem Outline.ret {Q : α → View σ J C R → Prop} {v : View σ J C R} {a : α} (h : Q a v) :
    Outline M K j (.ret a) Q v := h

theorem Outline.mono {p : Prog C R α} {Q Q' : α → View σ J C R → Prop}
    (hQ : ∀ a w, Q a w → Q' a w) {v : View σ J C R} (h : Outline M K j p Q v) :
    Outline M K j p Q' v := by
  induction p generalizing v with
  | ret a => exact hQ a v h
  | act c k ih =>
      intro w hw hinv
      obtain ⟨hmay, hk⟩ := h w hw hinv
      exact ⟨hmay, fun r w' hm hi => ih r (hk r w' hm hi)⟩

/-- What no move ends can be carried along. -/
theorem Outline.frame {P : View σ J C R → Prop} (hP : ∀ v e v', Moves M v e v' → P v → P v')
    {p : Prog C R α} {Q : α → View σ J C R → Prop} {v : View σ J C R} (h : Outline M K j p Q v)
    (hv : P v) : Outline M K j p (fun a w => Q a w ∧ P w) v := by
  induction p generalizing v with
  | ret a => exact ⟨h, hv⟩
  | act c k ih =>
      intro w hw hinv
      have hPw : P w := (Stable.of_kept hP).closed hw hv
      obtain ⟨hmay, hk⟩ := h w hw hinv
      exact ⟨hmay, fun r w' hm hi => ih r (hk r w' hm hi) (hP _ _ _ hm hPw)⟩

/-- Sequential composition. -/
theorem Outline.bind {p : Prog C R α} {f : α → Prog C R β}
    {Q : β → View σ J C R → Prop} {v : View σ J C R}
    (h : Outline M K j p (fun a w => Outline M K j (f a) Q w) v) :
    Outline M K j (p >>= f) Q v := by
  induction p generalizing v with
  | ret a => exact h
  | act c k ih =>
      intro w hw hinv
      obtain ⟨hmay, hk⟩ := h w hw hinv
      exact ⟨hmay, fun r w' hm hi => ih r (hk r w' hm hi)⟩

/-- The loop rule. -/
theorem Outline.forM {P : View σ J C R → Prop} {f : α → Prog C R PUnit} {xs : List α}
    (hf : ∀ x ∈ xs, ∀ v, P v → Outline M K j (f x) (fun _ => P) v) {v : View σ J C R}
    (hv : P v) : Outline M K j (xs.forM f) (fun _ => P) v := by
  induction xs generalizing v with
  | nil => exact hv
  | cons x xs ih =>
      simp only [List.mem_cons, forall_eq_or_imp] at hf
      exact .bind ((hf.1 v hv).mono fun _ w hw => ih hf.2 hw)

/-- A program whose commands have their promises from a stable assertion and keep it. -/
theorem Outline.of_all {P : View σ J C R → Prop} (hP : Stable M K (M.agent j) P)
    {D : C → Prop} (hmay : ∀ w c, D c → P w → K.inv w → K.may j w c)
    (hkeep : ∀ w c r w', D c → P w → K.inv w → Moves M w (.did j c r) w' → P w')
    {p : Prog C R α} (hp : p.All D) {T : α → Prop} (ht : p.Returns T)
    {Q : α → View σ J C R → Prop} (hQ : ∀ a w, T a → P w → Q a w) {v : View σ J C R}
    (hv : P v) : Outline M K j p Q v := by
  induction p generalizing v with
  | ret a => exact hQ a v ht hv
  | act c k ih =>
      exact .act hP hv fun w hw hi => ⟨hmay w c hp.1 hw hi, fun r w' hm _ =>
        ih r (hp.2 r) (ht r) (hkeep w c r w' hp.1 hw hi hm)⟩

end Rules

/-- Everything the method asks for. `post a j?` holds whenever agent `a` is idle,
`j?` being the latest job it executed. -/
structure Verified (M : Machine σ J A C R) (K : Contract σ J C R)
    (post : A → Option J → View σ J C R → Prop) : Prop where
  stable : ∀ a j?, Stable M K a (post a j?)
  kept : ∀ v e v', K.inv v → Moves M v e v' → K.Promised v e → K.inv v'
  outline : ∀ j j? v v', K.inv v → post (M.agent j) j? v → Moves M v (.started j) v' →
    K.inv v' → Outline M K j (M.body j) (fun _ => post (M.agent j) (some j)) v'
  abandoned : ∀ j v v', K.inv v → Moves M v (.aborted j) v' → K.inv v' →
    post (M.agent j) (some j) v'

/-- What an agent's slot guarantees in a view. -/
def SlotOk (M : Machine σ J A C R) (K : Contract σ J C R)
    (post : A → Option J → View σ J C R → Prop) (a : A) (v : View σ J C R) :
    Slot J C R → Prop
  | none => post a none v
  | some (j, p) => M.agent j = a ∧ Outline M K j p (fun _ => post a (some j)) v

structure ConfigOk (M : Machine σ J A C R) (K : Contract σ J C R)
    (post : A → Option J → View σ J C R → Prop) (x : Config σ J A C R) : Prop where
  inv : K.inv x.view
  slots : ∀ a, SlotOk M K post a x.view (x.slot a)

variable {post : A → Option J → View σ J C R → Prop}

theorem SlotOk.idle {a : A} {v : View σ J C R} {s : Slot J C R}
    (h : SlotOk M K post a v s) (hs : s.Idle) : post a s.last v := by
  match s, hs with
  | none, _ => exact h
  | some (j, .ret u), _ => exact h.2

theorem Stable.outline (hst : ∀ a j?, Stable M K a (post a j?)) {a : A} {s : Slot J C R} :
    Stable M K a fun v => SlotOk M K post a v s := by
  intro v v' hi h
  match s with
  | none => exact hst a none v v' hi h
  | some (j, .ret u) => exact ⟨h.1, hst a (some j) v v' hi h.2⟩
  | some (j, .act c k) =>
      obtain ⟨rfl, h⟩ := h
      exact ⟨rfl, fun w hw => h w (.head hi hw)⟩

theorem ConfigOk.initial {s : σ} (hinv : K.inv ⟨s, []⟩)
    (hpost : ∀ a, post a none ⟨s, []⟩) :
    ConfigOk M K post (Config.initial s) := ⟨hinv, hpost⟩

/-- When every agent has come to rest, the posts of all latest jobs hold together. -/
theorem ConfigOk.at_rest {x : Config σ J A C R} (hx : ConfigOk M K post x)
    (hidle : ∀ a, (x.slot a).Idle) (a : A) : post a (x.slot a).last x.view :=
  (hx.slots a).idle (hidle a)

variable [DecidableEq A]

/-- The agents other than the one whose slot changes. -/
theorem SlotOk.frame (V : Verified M K post) {x : Config σ J A C R} {v' : View σ J C R}
    {e : Entry J C R} {a : A} {s : Slot J C R} (hx : ConfigOk M K post x)
    (he : ∀ j, e.job? = some j → M.agent j = a) (hm : Moves M x.view e v')
    (hp : K.Promised x.view e) (hv : K.inv v') (hs : SlotOk M K post a v' s) (b : A) :
    SlotOk M K post b v' (Function.update x.slot a s b) := by
  rcases eq_or_ne b a with rfl | hb
  · rwa [Function.update_self]
  · rw [Function.update_of_ne hb]
    refine Stable.outline V.stable _ _ ⟨hx.inv, hv, e, ?_, hm, hp⟩ (hx.slots b)
    intro j hj hjb
    exact hb (hjb ▸ he j hj)

/-- The promise of every move a verified configuration makes. -/
theorem ConfigOk.promised {x y : Config σ J A C R} {e : Entry J C R}
    (hx : ConfigOk M K post x) (h : Step M x e y) : K.Promised x.view e := by
  cases h with
  | start => trivial
  | abort => trivial
  | disturb => trivial
  | act a j c k r hslot hm =>
      have hs := hx.slots a
      rw [hslot] at hs
      exact (hs.2 x.view .refl hx.inv).1

theorem ConfigOk.step (V : Verified M K post) {x y : Config σ J A C R} {e : Entry J C R}
    (hx : ConfigOk M K post x) (h : Step M x e y) : ConfigOk M K post y := by
  have hp := hx.promised h
  have hinv := V.kept _ _ _ hx.inv h.moves hp
  refine ⟨hinv, ?_⟩
  cases h with
  | start j hidle hm =>
      have hpost := (hx.slots (M.agent j)).idle hidle
      refine SlotOk.frame V hx (fun i hi => ?_) hm hp hinv
        ⟨rfl, V.outline j _ _ _ hx.inv hpost hm hinv⟩
      cases hi; rfl
  | act a j c k r hslot hm =>
      have hs := hx.slots a
      rw [hslot] at hs
      obtain ⟨hja, hout⟩ := hs
      refine SlotOk.frame V hx (fun i hi => ?_) hm hp hinv
        ⟨hja, (hout x.view .refl hx.inv).2 r _ hm hinv⟩
      cases hi; exact hja
  | abort a j c k hslot hm =>
      have hs := hx.slots a
      rw [hslot] at hs
      refine SlotOk.frame V hx (fun i hi => ?_) hm hp hinv
        ⟨hs.1, hs.1 ▸ V.abandoned j _ _ hx.inv hm hinv⟩
      cases hi; exact hs.1
  | disturb hm =>
      intro b
      exact Stable.outline V.stable _ _
        ⟨hx.inv, hinv, _, (fun i hi => by cases hi), hm, hp⟩ (hx.slots b)

/-- Soundness: every run from a verified configuration stays verified. -/
theorem Verified.sound (V : Verified M K post) {x y : Config σ J A C R}
    {es : List (Entry J C R)} (h : Steps M x es y) (hx : ConfigOk M K post x) :
    ConfigOk M K post y := by
  induction h with
  | done => exact hx
  | step _ hs ih => exact ih.step V hs

/-- The moves of a verified run keep the contract, so another contract for the same
system may rely on it. -/
theorem Verified.restrict (V : Verified M K post) {x y : Config σ J A C R}
    {es : List (Entry J C R)} (h : Steps M x es y) (hx : ConfigOk M K post x) :
    Steps (M.restrict fun v e => K.inv v ∧ K.Promised v e) x es y := by
  induction h with
  | done => exact .done
  | step h hs ih =>
      have hy := V.sound h hx
      exact .step ih (hs.restrict ⟨hy.inv, hy.promised hs⟩)

/-- A property that every promised move preserves holds throughout a verified run. -/
theorem Verified.preserves (V : Verified M K post) {P : View σ J C R → Prop}
    (hP : ∀ v e v', K.inv v → K.Promised v e → Moves M v e v' → P v → P v')
    {x y : Config σ J A C R} {es : List (Entry J C R)} (h : Steps M x es y)
    (hx : ConfigOk M K post x) (hPx : P x.view) : P y.view := by
  induction h with
  | done => exact hPx
  | step h hs ih =>
      have hy := V.sound h hx
      exact hP _ _ _ hy.inv (hy.promised hs) hs.moves ih

end RelyGuarantee
end Interleaving
