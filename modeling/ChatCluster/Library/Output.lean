import ChatCluster.Library.Interleaving

/-!
# What jobs put out

A command may put something out. A program `Emits` a list when it puts out exactly this
list, in this order, however its commands are answered. When each job of a system emits the
list that is due for it, each agent keeps an account: what it has put out and what its
current job still owes are, in order, among what has been due for its jobs, and only a job
that was stopped can make a difference.
-/
namespace CommandProgram.Prog
variable {C : Type} {R : C → Type} {α β T : Type}

/-- However it is answered, the program puts out exactly `l`. -/
def Emits (out : C → List T) : Prog C R α → List T → Prop
  | .ret _, l => l = []
  | .act c k, l => ∃ l', l = out c ++ l' ∧ ∀ r, (k r).Emits out l'

variable {out : C → List T} {p : Prog C R α} {f : α → Prog C R β} {l l' : List T}

theorem emits_perform (c : C) : (perform c : Prog C R (R c)).Emits out (out c) :=
  ⟨[], (List.append_nil _).symm, fun _ => rfl⟩

/-- A composition, where the second part may rely on what the first one returns. -/
theorem Emits.bind {P : α → Prop} (hp : p.Emits out l) (hreturns : p.Returns P)
    (hf : ∀ a, P a → (f a).Emits out l') : (p >>= f).Emits out (l ++ l') := by
  induction p generalizing l with
  | ret a =>
      have hl : l = [] := hp
      rw [hl]
      exact hf a hreturns
  | act c k ih =>
      rcases hp with ⟨rest, rfl, hk⟩
      exact ⟨rest ++ l', List.append_assoc .., fun r => ih r (hk r) (hreturns r)⟩

/-- A program none of whose commands puts anything out. -/
theorem All.emits (hp : p.All fun c => out c = []) : p.Emits out [] := by
  induction p with
  | ret a => rfl
  | act c k ih => exact ⟨[], by rw [hp.1, List.append_nil], fun r => ih r (hp.2 r)⟩

/-- Whatever a command of the program puts out is one of what the program puts out. -/
theorem Emits.all (hp : p.Emits out l) : p.All fun c => ∀ x ∈ out c, x ∈ l := by
  induction p generalizing l with
  | ret a => trivial
  | act c k ih =>
      rcases hp with ⟨rest, rfl, hk⟩
      refine ⟨fun x hx => List.mem_append_left rest hx, fun r => ?_⟩
      exact (ih r (hk r)).mono fun c' hc' x hx => List.mem_append_right _ (hc' x hx)

end CommandProgram.Prog

namespace Interleaving
open CommandProgram

/-- The account of an agent: what has been due for its jobs and what they have put out, oldest
first, what its current job has still to put out, and whether one of its jobs was stopped. -/
structure Account (T : Type) where
  due : List T := []
  paid : List T := []
  owed : List T := []
  stopped : Bool := false

namespace Account
variable {T : Type}

def start (l : List T) (m : Account T) : Account T := { m with due := m.due ++ l, owed := l }

def pay (l : List T) (m : Account T) : Account T :=
  { m with paid := m.paid ++ l, owed := m.owed.drop l.length }

def stop (m : Account T) : Account T := { m with owed := [], stopped := true }

/-- What is paid or owed is, in order, among what was due, and all of it if no job was
stopped. -/
structure Balanced (m : Account T) : Prop where
  within : (m.paid ++ m.owed).Sublist m.due
  settled : m.stopped = false → m.paid ++ m.owed = m.due

variable {m : Account T} {l : List T}

theorem Balanced.start (h : m.Balanced) (howed : m.owed = []) : (m.start l).Balanced := by
  rcases h with ⟨hwithin, hsettled⟩
  rw [howed, List.append_nil] at hwithin hsettled
  constructor
  · exact hwithin.append_right l
  · intro hstopped
    exact congrArg (· ++ l) (hsettled hstopped)

theorem Balanced.pay {rest : List T} (h : m.Balanced) (howed : m.owed = l ++ rest) :
    (m.pay l).Balanced := by
  rcases h with ⟨hwithin, hsettled⟩
  have hpaid : (m.pay l).paid ++ (m.pay l).owed = m.paid ++ m.owed := by
    simp [Account.pay, howed]
  constructor
  · rw [hpaid]
    exact hwithin
  · rw [hpaid]
    exact hsettled

theorem Balanced.stop (h : m.Balanced) : m.stop.Balanced := by
  constructor
  · rw [Account.stop, List.append_nil]
    exact (List.sublist_append_left ..).trans h.within
  · intro hstopped
    cases hstopped

end Account

variable {σ J A C T : Type} {R : C → Type}

/-- What is left of the current job emits what the agent owes. -/
def SlotPays (agent : J → A) (out : J → C → List T) (a : A) (m : Account T) : Slot J C R → Prop
  | none => m.owed = []
  | some (j, p) => agent j = a ∧ p.Emits (out j) m.owed

theorem SlotPays.of_idle {agent : J → A} {out : J → C → List T} {a : A} {m : Account T}
    {s : Slot J C R} (h : SlotPays agent out a m s) (hs : s.Idle) : m.owed = [] := by
  cases s with
  | none => exact h
  | some jp =>
      rcases jp with ⟨j, p⟩
      cases p with
      | ret u => exact h.2
      | act c k => exact hs.elim

variable [DecidableEq A]

section
variable (agent : J → A) (out : J → C → List T) (due : J → List T)

def account (a : A) : List (Entry J C R) → Account T
  | [] => {}
  | .started j :: past =>
      if agent j = a then (account a past).start (due j) else account a past
  | .did j c _ :: past =>
      if agent j = a then (account a past).pay (out j c) else account a past
  | .aborted j :: past => if agent j = a then (account a past).stop else account a past
  | .disturbed :: past => account a past

/-- What an agent owes is the end of what was due for one of its jobs. -/
theorem account_owed (a : A) (past : List (Entry J C R)) :
    (account agent out due a past).owed = [] ∨ ∃ j, agent j = a ∧
      (account agent out due a past).owed <:+ due j := by
  induction past with
  | nil => exact .inl rfl
  | cons e past ih =>
      cases e with
      | started j =>
          rw [account]
          split_ifs with hj
          · exact .inr ⟨j, hj, List.suffix_refl _⟩
          · exact ih
      | did j c r =>
          rw [account]
          split_ifs with hj
          · rcases ih with hnil | ⟨i, hi, hsuffix⟩
            · exact .inl (by rw [Account.pay, hnil, List.drop_nil])
            · exact .inr ⟨i, hi, (List.drop_suffix _ _).trans hsuffix⟩
          · exact ih
      | aborted j =>
          rw [account]
          split_ifs with hj
          · exact .inl rfl
          · exact ih
      | disturbed => exact ih

theorem account_stopped {a : A} {past : List (Entry J C R)}
    (h : ∀ j, .aborted j ∈ past → agent j ≠ a) : (account agent out due a past).stopped = false := by
  induction past with
  | nil => rfl
  | cons e past ih =>
      have hrest := ih fun j hj => h j (List.mem_cons_of_mem e hj)
      cases e with
      | started j =>
          rw [account]
          split_ifs <;> exact hrest
      | did j c r =>
          rw [account]
          split_ifs <;> exact hrest
      | aborted j =>
          rw [account, if_neg (h j List.mem_cons_self)]
          exact hrest
      | disturbed => exact hrest

variable (M : Machine σ J A C R)

def OnAccount (x : Config σ J A C R) : Prop :=
  ∀ a, SlotPays M.agent out a (account M.agent out due a x.view.past) (x.slot a) ∧
    (account M.agent out due a x.view.past).Balanced

end

variable {M : Machine σ J A C R} {out : J → C → List T} {due : J → List T}
  {x y : Config σ J A C R} {e : Entry J C R} {a : A}

variable (hdue : ∀ j, (M.body j).Emits (out j) (due j))
include hdue

theorem Step.onAccount (h : Step M x e y) (hx : OnAccount out due M x) :
    OnAccount out due M y := by
  have hpast := h.moves.recorded
  intro b
  rw [hpast]
  cases h with
  | start i hidle hm =>
      by_cases hb : M.agent i = b
      · subst hb
        rcases hx (M.agent i) with ⟨hpays, hbalanced⟩
        rw [account, if_pos rfl]
        simp only [Function.update_self]
        exact ⟨⟨rfl, hdue i⟩, hbalanced.start (hpays.of_idle hidle)⟩
      · rw [account, if_neg hb]
        simp only [Function.update_of_ne (Ne.symm hb)]
        exact hx b
  | act a i c k r hslot hm =>
      rcases hx a with ⟨hpays, hbalanced⟩
      rw [hslot] at hpays
      rcases hpays with ⟨rfl, rest, howed, hrest⟩
      by_cases hb : M.agent i = b
      · subst hb
        rw [account, if_pos rfl]
        simp only [Function.update_self]
        refine ⟨⟨rfl, ?_⟩, hbalanced.pay howed⟩
        rw [Account.pay, howed, List.drop_left]
        exact hrest r
      · rw [account, if_neg hb]
        simp only [Function.update_of_ne (Ne.symm hb)]
        exact hx b
  | abort a i c k hslot hm =>
      rcases hx a with ⟨hpays, hbalanced⟩
      rw [hslot] at hpays
      rcases hpays with ⟨rfl, -⟩
      by_cases hb : M.agent i = b
      · subst hb
        rw [account, if_pos rfl]
        simp only [Function.update_self]
        exact ⟨⟨rfl, rfl⟩, hbalanced.stop⟩
      · rw [account, if_neg hb]
        simp only [Function.update_of_ne (Ne.symm hb)]
        exact hx b
  | disturb hm => exact hx b

theorem Steps.onAccount {s : σ} {es : List (Entry J C R)}
    (h : Steps M (Config.initial s) es x) : OnAccount out due M x := by
  induction h with
  | done =>
      intro a
      refine ⟨rfl, List.Sublist.refl _, ?_⟩
      intro _
      rfl
  | step _ hs ih => exact hs.onAccount hdue ih

/-- In every run each agent's account is balanced. -/
theorem Steps.balanced {s : σ} {es : List (Entry J C R)}
    (h : Steps M (Config.initial s) es x) (a : A) :
    (account M.agent out due a x.view.past).Balanced := (h.onAccount hdue a).2

/-- An idle agent owes nothing. -/
theorem Steps.paid_of_idle {s : σ} {es : List (Entry J C R)}
    (h : Steps M (Config.initial s) es x) (hidle : (x.slot a).Idle)
    (hab : ∀ j, .aborted j ∈ x.view.past → M.agent j ≠ a) :
    (account M.agent out due a x.view.past).paid =
      (account M.agent out due a x.view.past).due := by
  rcases h.onAccount hdue a with ⟨hpays, hbalanced⟩
  have hsettled := hbalanced.settled (account_stopped M.agent out due hab)
  rwa [hpays.of_idle hidle, List.append_nil] at hsettled

end Interleaving
