import Mathlib.Data.Nat.Notation

/-!
# Loops that end

A loop `while (true)` whose body either goes on with a new state or leaves with a result.
It is run with a number of turns. A variant that every turn decreases bounds that number,
and beyond the bound the result does not depend on it.
-/
namespace Loop

/-- How one turn of the body ends. -/
inductive Turn (σ ρ : Type) where
  | next (s : σ)
  | done (r : ρ)

variable {σ ρ : Type} {turn : σ → Turn σ ρ} {s t : σ} {r : ρ} {n m : ℕ}

/-- At most `n` turns; `none` when the loop has not ended. -/
def run (turn : σ → Turn σ ρ) : ℕ → σ → Option ρ
  | 0, _ => none
  | n + 1, s =>
      match turn s with
      | .done r => some r
      | .next t => run turn n t

theorem run_succ_of_done (h : turn s = .done r) : run turn (n + 1) s = some r := by
  simp [run, h]

theorem run_succ_of_next (h : turn s = .next t) : run turn (n + 1) s = run turn n t := by
  simp [run, h]

/-- `n` turns lead from one state to another. -/
inductive Turns (turn : σ → Turn σ ρ) : ℕ → σ → σ → Prop
  | refl (s : σ) : Turns turn 0 s s
  | head {n : ℕ} {s t u : σ} : turn s = .next t → Turns turn n t u → Turns turn (n + 1) s u

theorem Turns.trans {u : σ} (h : Turns turn n s t) (h' : Turns turn m t u) :
    Turns turn (n + m) s u := by
  induction h with
  | refl => simpa using h'
  | @head n s t v hturn _ ih =>
      have hmore := Turns.head hturn (ih h')
      rwa [show n + 1 + m = n + m + 1 by omega]

theorem Turns.single (h : turn s = .next t) : Turns turn 1 s t := .head h (.refl t)

theorem Turns.run_eq (h : Turns turn n s t) : run turn (n + m) s = run turn m t := by
  induction h with
  | refl => simp
  | @head n s t v hturn _ ih =>
      rw [show n + 1 + m = n + m + 1 by omega, run_succ_of_next hturn, ih]

/-- An invariant of the body that every result follows from. -/
theorem run_induction {I : σ → Prop} {Q : ρ → Prop}
    (hnext : ∀ s t, I s → turn s = .next t → I t) (hdone : ∀ s r, I s → turn s = .done r → Q r)
    (hs : I s) (hrun : run turn n s = some r) : Q r := by
  induction n generalizing s with
  | zero => simp [run] at hrun
  | succ n ih =>
      cases hturn : turn s with
      | next t =>
          rw [run_succ_of_next hturn] at hrun
          exact ih (hnext s t hs hturn) hrun
      | done r' =>
          rw [run_succ_of_done hturn, Option.some.injEq] at hrun
          subst hrun
          exact hdone s r' hs hturn

/-- With a variant the loop ends, after as many turns as the variant says. -/
theorem exists_run_of_variant {μ : σ → ℕ} (hμ : ∀ s t, turn s = .next t → μ t < μ s)
    (hn : μ s < n) : ∃ r, run turn n s = some r := by
  induction n generalizing s with
  | zero => omega
  | succ n ih =>
      cases hturn : turn s with
      | next t =>
          have hlt := hμ s t hturn
          rw [run_succ_of_next hturn]
          exact ih (by omega)
      | done r => exact ⟨r, run_succ_of_done hturn⟩

/-- Once the loop ends, more turns do not change the result. -/
theorem run_mono (h : run turn n s = some r) (hle : n ≤ m) : run turn m s = some r := by
  induction n generalizing m s with
  | zero => simp [run] at h
  | succ n ih =>
      obtain ⟨m, rfl⟩ : ∃ k, m = k + 1 := ⟨m - 1, by omega⟩
      cases hturn : turn s with
      | next t =>
          rw [run_succ_of_next hturn] at h ⊢
          exact ih h (by omega)
      | done r' =>
          rw [run_succ_of_done hturn] at h ⊢
          exact h

/-- The result that turns lead to is the result of the loop, for every bound above the
variant. -/
theorem run_of_turns {μ : σ → ℕ} (hμ : ∀ s t, turn s = .next t → μ t < μ s) (hm : μ s < m)
    (h : Turns turn n s t) (hturn : turn t = .done r) : run turn m s = some r := by
  obtain ⟨r', hr'⟩ := exists_run_of_variant hμ hm
  have hrun : run turn (n + 1) s = some r := by rw [h.run_eq, run_succ_of_done hturn]
  have hbig := run_mono hrun (Nat.le_max_left (n + 1) m)
  rw [run_mono hr' (Nat.le_max_right (n + 1) m)] at hbig
  rw [hr', hbig]

end Loop
