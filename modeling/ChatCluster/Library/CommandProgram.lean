import Mathlib.Tactic.Common

/-!
# Programs over atomic commands

A program is a finite decision tree: it issues one command, receives a response
and goes on with the continuation that the response selects. The same program
text has two meanings. `Prog.Runs` executes it alone, one command after another;
the interleaving semantics executes it one command at a time among other agents.

Nothing here fixes what the commands are: `C` is the type of commands, `R c` the
type of responses to `c`, and the effect of a command is a relation supplied by
the user of the library.
-/
namespace CommandProgram

/-- A finite program over the commands `C`, where `c` is answered by an `R c`. -/
inductive Prog (C : Type) (R : C → Type) (α : Type) : Type where
  | ret (a : α) : Prog C R α
  | act (c : C) (k : R c → Prog C R α) : Prog C R α

namespace Prog
variable {C : Type} {R : C → Type} {α β γ σ : Type}

def bind : Prog C R α → (α → Prog C R β) → Prog C R β
  | .ret a, f => f a
  | .act c k, f => .act c fun r => (k r).bind f

/-- Issue one command and return its response. -/
def perform (c : C) : Prog C R (R c) := .act c .ret

instance : Monad (Prog C R) where
  pure := .ret
  bind := bind

@[simp] theorem pure_eq (a : α) : (pure a : Prog C R α) = .ret a := rfl

@[simp] theorem ret_bind (a : α) (f : α → Prog C R β) :
    (Prog.ret a : Prog C R α) >>= f = f a := rfl

@[simp] theorem act_bind (c : C) (k : R c → Prog C R α) (f : α → Prog C R β) :
    Prog.act c k >>= f = .act c fun r => k r >>= f := rfl

@[simp] theorem perform_bind (c : C) (f : R c → Prog C R β) :
    (perform c : Prog C R (R c)) >>= f = .act c f := rfl

@[simp] theorem bind_assoc (p : Prog C R α) (f : α → Prog C R β) (g : β → Prog C R γ) :
    p >>= f >>= g = p >>= fun a => f a >>= g := by
  induction p with
  | ret a => rfl
  | act c k ih =>
      simp only [act_bind]
      exact congrArg (Prog.act c) (funext ih)

@[simp] theorem map_eq (f : α → β) (p : Prog C R α) :
    f <$> p = p >>= fun a => .ret (f a) := rfl

/-! ## Every command of a program -/

/-- `P` holds of every command the program can issue, whatever the responses. -/
def All (P : C → Prop) : Prog C R α → Prop
  | .ret _ => True
  | .act c k => P c ∧ ∀ r, (k r).All P

@[simp] theorem all_ret (P : C → Prop) (a : α) : (Prog.ret a : Prog C R α).All P := trivial

@[simp] theorem all_act (P : C → Prop) (c : C) (k : R c → Prog C R α) :
    (Prog.act c k).All P ↔ P c ∧ ∀ r, (k r).All P := Iff.rfl

@[simp] theorem all_perform (P : C → Prop) (c : C) :
    (perform c : Prog C R (R c)).All P ↔ P c :=
  ⟨fun h => h.1, fun h => ⟨h, fun _ => trivial⟩⟩

theorem All.bind {P : C → Prop} {p : Prog C R α} {f : α → Prog C R β}
    (hp : p.All P) (hf : ∀ a, (f a).All P) : (p >>= f).All P := by
  induction p with
  | ret a => exact hf a
  | act c k ih => exact ⟨hp.1, fun r => ih r (hp.2 r)⟩

theorem All.mono {P Q : C → Prop} {p : Prog C R α} (h : ∀ c, P c → Q c)
    (hp : p.All P) : p.All Q := by
  induction p with
  | ret a => trivial
  | act c k ih => exact ⟨h c hp.1, fun r => ih r (hp.2 r)⟩

theorem all_true (p : Prog C R α) : p.All fun _ => True := by
  induction p with
  | ret a => trivial
  | act c k ih => exact ⟨trivial, ih⟩

theorem all_forM {P : C → Prop} {f : α → Prog C R PUnit} {xs : List α}
    (h : ∀ x ∈ xs, (f x).All P) : (xs.forM f).All P := by
  induction xs with
  | nil => trivial
  | cons x xs ih =>
      simp only [List.mem_cons, forall_eq_or_imp] at h
      exact h.1.bind fun _ => ih h.2

/-! ## Every result of a program -/

/-- `Q` holds of every value the program can return, whatever the responses. -/
def Returns (Q : α → Prop) : Prog C R α → Prop
  | .ret a => Q a
  | .act _ k => ∀ r, (k r).Returns Q

theorem Returns.bind {Q : α → Prop} {Q' : β → Prop} {p : Prog C R α} {f : α → Prog C R β}
    (hp : p.Returns Q) (hf : ∀ a, Q a → (f a).Returns Q') : (p >>= f).Returns Q' := by
  induction p with
  | ret a => exact hf a hp
  | act c k ih => exact fun r => ih r (hp r)

/-- Every command of a composition, where the second part may rely on what the first
one returns. -/
theorem All.bind_returns {P : C → Prop} {T : α → Prop} {p : Prog C R α} {f : α → Prog C R β}
    (hp : p.All P) (ht : p.Returns T) (hf : ∀ a, T a → (f a).All P) : (p >>= f).All P := by
  induction p with
  | ret a => exact hf a ht
  | act c k ih => exact ⟨hp.1, fun r => ih r (hp.2 r) (ht r)⟩

theorem returns_true (p : Prog C R α) : p.Returns fun _ => True := by
  induction p with
  | ret a => trivial
  | act c k ih => exact ih

/-! ## What a program remembers -/

/-- An execution keeps a memory that `next` updates with every response: each command
meets `P` in the memory at its time, and the result meets `Q` in the memory at the end. -/
def Tracked {τ : Type} (next : τ → (c : C) → R c → τ) (P : τ → C → Prop) (Q : τ → α → Prop) :
    Prog C R α → τ → Prop
  | .ret a, t => Q t a
  | .act c k, t => P t c ∧ ∀ r, (k r).Tracked next P Q (next t c r)

section Tracked
variable {τ : Type} {next : τ → (c : C) → R c → τ} {P : τ → C → Prop}

theorem Tracked.mono {Q Q' : τ → α → Prop} (hQ : ∀ t a, Q t a → Q' t a) {p : Prog C R α} {t : τ}
    (h : p.Tracked next P Q t) : p.Tracked next P Q' t := by
  induction p generalizing t with
  | ret a => exact hQ t a h
  | act c k ih => exact ⟨h.1, fun r => ih r (h.2 r)⟩

/-- What a program returns, besides what is remembered at its end. -/
theorem Tracked.returns {Q : τ → α → Prop} {T : α → Prop} {p : Prog C R α} {t : τ}
    (h : p.Tracked next P Q t) (hT : p.Returns T) :
    p.Tracked next P (fun t' a => Q t' a ∧ T a) t := by
  induction p generalizing t with
  | ret a => exact ⟨h, hT⟩
  | act c k ih => exact ⟨h.1, fun r => ih r (h.2 r) (hT r)⟩

theorem Tracked.bind {Q : τ → α → Prop} {Q' : τ → β → Prop} {p : Prog C R α}
    {f : α → Prog C R β} {t : τ} (hp : p.Tracked next P Q t)
    (hf : ∀ t' a, Q t' a → (f a).Tracked next P Q' t') : (p >>= f).Tracked next P Q' t := by
  induction p generalizing t with
  | ret a => exact hf t a hp
  | act c k ih => exact ⟨hp.1, fun r => ih r (hp.2 r)⟩

/-- A program whose commands meet their conditions in every memory with `I`, and keep it. -/
theorem Tracked.of_all {I : τ → Prop} {D : C → Prop} (hP : ∀ t c, D c → I t → P t c)
    (hI : ∀ t c r, D c → I t → I (next t c r)) {p : Prog C R α} (hp : p.All D) {t : τ} (ht : I t) :
    p.Tracked next P (fun t' _ => I t') t := by
  induction p generalizing t with
  | ret a => exact ht
  | act c k ih => exact ⟨hP t c hp.1 ht, fun r => ih r (hp.2 r) (hI t c r hp.1 ht)⟩

theorem Tracked.forM {I : τ → Prop} {f : α → Prog C R PUnit} {xs : List α}
    (hf : ∀ x ∈ xs, ∀ t, I t → (f x).Tracked next P (fun t' _ => I t') t) {t : τ} (ht : I t) :
    (xs.forM f).Tracked next P (fun t' _ => I t') t := by
  induction xs generalizing t with
  | nil => exact ht
  | cons x xs ih =>
      simp only [List.mem_cons, forall_eq_or_imp] at hf
      exact (hf.1 t ht).bind fun t' _ ht' => ih hf.2 ht'

end Tracked

/-! ## Execution without interference -/

/-- `p.Runs step s a s'`: from `s` the program can run to its end, each command
answered and applied as `step` allows, returning `a` in the state `s'`. -/
def Runs (step : (c : C) → σ → R c → σ → Prop) : Prog C R α → σ → α → σ → Prop
  | .ret a, s, b, s' => b = a ∧ s' = s
  | .act c k, s, b, s' => ∃ r s₁, step c s r s₁ ∧ (k r).Runs step s₁ b s'

variable {step : (c : C) → σ → R c → σ → Prop}

@[simp] theorem runs_ret {a b : α} {s s' : σ} :
    (Prog.ret a : Prog C R α).Runs step s b s' ↔ b = a ∧ s' = s := Iff.rfl

@[simp] theorem runs_act {c : C} {k : R c → Prog C R α} {s s' : σ} {b : α} :
    (Prog.act c k).Runs step s b s' ↔
      ∃ r s₁, step c s r s₁ ∧ (k r).Runs step s₁ b s' := Iff.rfl

theorem runs_perform {c : C} {s s' : σ} {r : R c} :
    (perform c : Prog C R (R c)).Runs step s r s' ↔ step c s r s' := by
  simp [perform]

theorem runs_bind {p : Prog C R α} {f : α → Prog C R β} {s s' : σ} {b : β} :
    (p >>= f).Runs step s b s' ↔ ∃ a s₁, p.Runs step s a s₁ ∧ (f a).Runs step s₁ b s' := by
  induction p generalizing s with
  | ret a =>
      rw [ret_bind]
      exact ⟨fun h => ⟨a, s, ⟨rfl, rfl⟩, h⟩, by rintro ⟨_, _, ⟨rfl, rfl⟩, h⟩; exact h⟩
  | act c k ih =>
      simp only [act_bind, runs_act, ih]
      constructor
      · intro h
        rcases h with ⟨r, s₁, hs, a, s₂, hk, hf⟩
        exact ⟨a, s₂, ⟨r, s₁, hs, hk⟩, hf⟩
      · intro h
        rcases h with ⟨a, s₂, ⟨r, s₁, hs, hk⟩, hf⟩
        exact ⟨r, s₁, hs, a, s₂, hk, hf⟩

theorem Runs.returns {Q : α → Prop} {p : Prog C R α} {s s' : σ} {a : α}
    (h : p.Runs step s a s') (hp : p.Returns Q) : Q a := by
  induction p generalizing s with
  | ret b => exact h.1 ▸ hp
  | act c k ih =>
      obtain ⟨r, s₁, -, hk⟩ := h
      exact ih r hk (hp r)

/-- A run under one step relation is a run under every weaker one. -/
theorem Runs.mono {step' : (c : C) → σ → R c → σ → Prop}
    (hstep : ∀ c s r s', step c s r s' → step' c s r s') {p : Prog C R α} {s s' : σ} {a : α}
    (h : p.Runs step s a s') : p.Runs step' s a s' := by
  induction p generalizing s with
  | ret b => exact h
  | act c k ih =>
      obtain ⟨r, s₁, hs, hk⟩ := h
      exact ⟨r, s₁, hstep c s r s₁ hs, ih r hk⟩

/-- Run a program with an executable step function. -/
def eval? (f : (c : C) → σ → Option (R c × σ)) : Prog C R α → σ → Option (α × σ)
  | .ret a, s => some (a, s)
  | .act c k, s =>
      match f c s with
      | some (r, s') => (k r).eval? f s'
      | none => none

theorem runs_of_eval? {f : (c : C) → σ → Option (R c × σ)}
    (hf : ∀ c s r s', f c s = some (r, s') → step c s r s') {p : Prog C R α} {s s' : σ} {a : α}
    (h : p.eval? f s = some (a, s')) : p.Runs step s a s' := by
  induction p generalizing s with
  | ret b =>
      cases h
      exact ⟨rfl, rfl⟩
  | act c k ih =>
      rw [eval?] at h
      split at h
      · next r s₁ hs => exact ⟨r, s₁, hf c s r s₁ hs, ih r h⟩
      · cases h

/-- A computed run whose outcome passes a test. -/
theorem exists_runs_of_eval? {f : (c : C) → σ → Option (R c × σ)}
    (hf : ∀ c s r s', f c s = some (r, s') → step c s r s') {p : Prog C R α} {s : σ}
    (test : σ → Bool) (h : ((p.eval? f s).any fun x => test x.2) = true) :
    ∃ a s', p.Runs step s a s' ∧ test s' = true := by
  obtain ⟨⟨a, s'⟩, hs, htest⟩ := (Option.any_eq_true _ _).mp h
  exact ⟨a, s', runs_of_eval? hf hs, htest⟩

/-- A program whose commands are never blocked runs to its end. -/
theorem exists_runs {P : C → Prop} {I : σ → Prop} {p : Prog C R α} (hp : p.All P)
    (hI : ∀ c s, P c → I s → ∃ r s', step c s r s' ∧ I s') {s : σ} (hs : I s) :
    ∃ a s', p.Runs step s a s' ∧ I s' := by
  induction p generalizing s with
  | ret a => exact ⟨a, s, ⟨rfl, rfl⟩, hs⟩
  | act c k ih =>
      obtain ⟨r, s₁, hstep, hs₁⟩ := hI c s hp.1 hs
      obtain ⟨a, s', hk, hs'⟩ := ih r (hp.2 r) hs₁
      exact ⟨a, s', ⟨r, s₁, hstep, hk⟩, hs'⟩

/-- What every command of the program leaves in place, the whole run does. -/
theorem Runs.preserves {P : C → Prop} {I : σ → Prop} {p : Prog C R α} {s s' : σ} {a : α}
    (hp : p.All P) (hI : ∀ c s r s', P c → step c s r s' → I s → I s')
    (h : p.Runs step s a s') (hs : I s) : I s' := by
  induction p generalizing s with
  | ret b => exact h.2 ▸ hs
  | act c k ih =>
      obtain ⟨r, s₁, hstep, hk⟩ := h
      exact ih r (hp.2 r) hk (hI c s r s₁ hp.1 hstep hs)

/-- The frame rule for a run: a view of the state no command changes is unchanged. -/
theorem Runs.frame {P : C → Prop} {ω : Type*} (view : σ → ω) {p : Prog C R α} {s s' : σ}
    {a : α} (hp : p.All P) (hv : ∀ c s r s', P c → step c s r s' → view s' = view s)
    (h : p.Runs step s a s') : view s' = view s :=
  h.preserves (I := fun t => view t = view s) hp
    (fun c t r t' hc ht e => (hv c t r t' hc ht).trans e) rfl

/-! ## Execution with a log -/

/-- The steps of `step`, each of which adds its command to the log. -/
def Recorded (step : (c : C) → σ → R c → σ → Prop) (c : C) (s : σ × List C) (r : R c)
    (s' : σ × List C) : Prop :=
  step c s.1 r s'.1 ∧ s'.2 = s.2 ++ [c]

end Prog
end CommandProgram
