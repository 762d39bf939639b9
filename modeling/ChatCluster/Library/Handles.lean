import ChatCluster.Library.Interleaving

/-!
# Handles that have to be given back

The commands of a foreign interface open handles, use them and free them. A program is
disciplined when, whatever the answers, it uses only what it holds or what has been lent to
it, and frees only what it holds. In a system of disciplined jobs each agent frees a handle as
often as it has been given it; so, if no handle is given twice, none is used after it has been
freed or freed twice, however the jobs are interleaved.
-/
namespace Handles
open CommandProgram Interleaving

/-- What the commands of an interface do with handles. -/
structure Interface (C : Type) (R : C → Type) (H : Type) where
  opens : (c : C) → R c → Option H
  uses : C → List H
  frees : C → Option H

/-- A command and its answer. -/
abbrev Event (C : Type) (R : C → Type) := (c : C) × R c

namespace Interface
variable {C : Type} {R : C → Type} {H : Type} (I : Interface C R H)

/-! ## Histories of commands, newest first -/

def Opened (h : H) (past : List (Event C R)) : Prop := ∃ e ∈ past, I.opens e.1 e.2 = some h

def Freed (h : H) (past : List (Event C R)) : Prop := ∃ e ∈ past, I.frees e.1 = some h

def Live (h : H) (past : List (Event C R)) : Prop := I.Opened h past ∧ ¬ I.Freed h past

/-- A handle that is opened has not been there before. -/
def Fresh (e : Event C R) (past : List (Event C R)) : Prop :=
  ∀ h, I.opens e.1 e.2 = some h → ¬ I.Opened h past

/-- Every command uses and frees handles that are open at its time. -/
inductive Safe : List (Event C R) → Prop
  | nil : Safe []
  | cons {e : Event C R} {past : List (Event C R)} : Safe past →
      (∀ h ∈ I.uses e.1, I.Live h past) → (∀ h, I.frees e.1 = some h → I.Live h past) →
      Safe (e :: past)

variable {I} {e : Event C R} {past : List (Event C R)} {h : H}

@[simp] theorem opened_nil : ¬ I.Opened h [] := by simp [Opened]

@[simp] theorem freed_nil : ¬ I.Freed h [] := by simp [Freed]

@[simp] theorem opened_cons :
    I.Opened h (e :: past) ↔ I.opens e.1 e.2 = some h ∨ I.Opened h past := by
  simp [Opened]

@[simp] theorem freed_cons :
    I.Freed h (e :: past) ↔ I.frees e.1 = some h ∨ I.Freed h past := by
  simp [Freed]

/-- Only what has been opened is freed. -/
theorem Safe.opened_of_freed (hsafe : I.Safe past) (hfreed : I.Freed h past) :
    I.Opened h past := by
  induction hsafe with
  | nil => exact absurd hfreed freed_nil
  | @cons e past hsafe _ hfrees ih =>
      rw [opened_cons]
      rcases freed_cons.mp hfreed with hnow | hbefore
      · exact .inr (hfrees h hnow).1
      · exact .inr (ih hbefore)

/-- A handle is freed by one command of a safe history at most. -/
theorem Safe.freed_once (hsafe : I.Safe past) {newer older : List (Event C R)}
    (hpast : past = newer ++ e :: older) (hfrees : I.frees e.1 = some h) :
    ¬ I.Freed h newer ∧ ¬ I.Freed h older := by
  induction hsafe generalizing newer with
  | nil => simp at hpast
  | @cons f past hsafe _ hf ih =>
      cases newer with
      | nil =>
          rw [List.nil_append, List.cons.injEq] at hpast
          rcases hpast with ⟨rfl, rfl⟩
          exact ⟨freed_nil, (hf h hfrees).2⟩
      | cons g newer =>
          rw [List.cons_append, List.cons.injEq] at hpast
          rcases hpast with ⟨rfl, hrest⟩
          have hrec := ih hrest
          refine ⟨fun hfreed => ?_, hrec.2⟩
          rcases freed_cons.mp hfreed with hnow | hlater
          · refine (hf h hnow).2 ?_
            rw [hrest]
            exact ⟨e, by simp, hfrees⟩
          · exact hrec.1 hlater

/-- Nothing is used after it has been freed. -/
theorem Safe.live_of_used (hsafe : I.Safe past) {newer older : List (Event C R)}
    (hpast : past = newer ++ e :: older) (huses : h ∈ I.uses e.1) : I.Live h older := by
  induction hsafe generalizing newer with
  | nil => simp at hpast
  | @cons f past hsafe hf _ ih =>
      cases newer with
      | nil =>
          rw [List.nil_append, List.cons.injEq] at hpast
          rcases hpast with ⟨rfl, rfl⟩
          exact hf h huses
      | cons g newer =>
          rw [List.cons_append, List.cons.injEq] at hpast
          exact ih hpast.2

/-! ## Disciplined programs -/

variable (I) [DecidableEq H]

/-- The handles that a program holds after a command. -/
def hold (held : List H) (c : C) (r : R c) : List H :=
  (I.opens c r).toList ++ (I.frees c).elim held held.erase

/-- What a command may do for a program that holds these handles. -/
def Allowed (lent : H → Prop) (held : List H) (c : C) : Prop :=
  (∀ h ∈ I.uses c, h ∈ held ∨ lent h) ∧ ∀ h, I.frees c = some h → h ∈ held

def Disciplined {α : Type} (lent : H → Prop) (p : Prog C R α) (Q : List H → α → Prop)
    (held : List H) : Prop :=
  p.Tracked I.hold (I.Allowed lent) Q held

variable {I} {held : List H} {c : C} {r : R c}

theorem mem_hold (hheld : held.Nodup) : h ∈ I.hold held c r ↔
    I.opens c r = some h ∨ h ∈ held ∧ I.frees c ≠ some h := by
  rw [hold, List.mem_append, Option.mem_toList]
  cases I.frees c with
  | none => simp
  | some h' => simp [hheld.mem_erase_iff, and_comm, eq_comm]

theorem nodup_hold (hheld : held.Nodup) (hopens : ∀ h, I.opens c r = some h → h ∉ held) :
    (I.hold held c r).Nodup := by
  have hrest : ((I.frees c).elim held held.erase).Nodup ∧
      ∀ h ∈ (I.frees c).elim held held.erase, h ∈ held := by
    cases I.frees c with
    | none => exact ⟨hheld, fun h hh => hh⟩
    | some h' => exact ⟨hheld.erase h', fun h hh => List.mem_of_mem_erase hh⟩
  rw [hold]
  cases hopen : I.opens c r with
  | none => exact hrest.1
  | some h =>
      rw [Option.toList_some, List.singleton_append, List.nodup_cons]
      exact ⟨fun hh => hopens h hopen (hrest.2 h hh), hrest.1⟩

/-! ## A program executed alone -/

/-- Any answer that opens a fresh handle or none. -/
def answers (I : Interface C R H) (c : C) (past : List (Event C R)) (r : R c)
    (past' : List (Event C R)) : Prop :=
  I.Fresh ⟨c, r⟩ past ∧ past' = ⟨c, r⟩ :: past

theorem safe_of_runs {α : Type} {p : Prog C R α} {Q : List H → α → Prop} {a : α}
    {past' : List (Event C R)} (hp : I.Disciplined (fun _ => False) p Q held)
    (hnodup : held.Nodup) (hheld : ∀ h, h ∈ held ↔ I.Live h past) (hsafe : I.Safe past)
    (hrun : p.Runs I.answers past a past') :
    I.Safe past' ∧ ∃ held', Q held' a ∧ ∀ h, h ∈ held' ↔ I.Live h past' := by
  induction p generalizing held past with
  | ret b =>
      rcases hrun with ⟨rfl, rfl⟩
      exact ⟨hsafe, held, hp, hheld⟩
  | act c k ih =>
      rcases hrun with ⟨r, past₁, ⟨hfresh, rfl⟩, hk⟩
      rcases hp with ⟨⟨huses, hfrees⟩, hrest⟩
      refine ih r (hrest r) (nodup_hold hnodup fun h hopens hh => ?_) (fun h => ?_)
        (hsafe.cons ?_ ?_) hk
      · exact hfresh h hopens ((hheld h).mp hh).1
      · rw [mem_hold hnodup, hheld, Live, Live, opened_cons, freed_cons]
        constructor
        · intro hor
          rcases hor with hopens | ⟨⟨hopened, hnot⟩, hne⟩
          · refine ⟨.inl hopens, fun hfreed => hfresh h hopens ?_⟩
            rcases hfreed with hnow | hbefore
            · exact ((hheld h).mp (hfrees h hnow)).1
            · exact hsafe.opened_of_freed hbefore
          · exact ⟨.inr hopened, by tauto⟩
        · tauto
      · intro h hmem
        exact (hheld h).mp ((huses h hmem).resolve_right id)
      · intro h hmem
        exact (hheld h).mp (hfrees h hmem)

/-! ## Interleaved jobs -/

/-- The commands of a history. -/
def commands {J : Type} : List (Entry J C R) → List (Event C R)
  | [] => []
  | .did _ c r :: past => ⟨c, r⟩ :: commands past
  | .started _ :: past => commands past
  | .aborted _ :: past => commands past
  | .disturbed :: past => commands past

section Interleaved
variable {σ J A : Type} [DecidableEq A] {M : Machine σ J A C R} {lent : H → Prop}
  {before : List (Event C R)} {x y : Config σ J A C R} {a : A}

/-- What an agent holds: what its job has opened and not freed. -/
def Held (I : Interface C R H) (M : Machine σ J A C R) (a : A) (past : List (Entry J C R)) :
    List H :=
  memory M.agent [] I.hold a past

/-- Each open handle is held by one agent or has been there from the beginning, and what is
lent is held by none. -/
structure Ledger (I : Interface C R H) (M : Machine σ J A C R) (lent : H → Prop)
    (before : List (Event C R)) (past : List (Entry J C R)) : Prop where
  safe : I.Safe (commands past ++ before)
  nodup : ∀ a, (I.Held M a past).Nodup
  live : ∀ a, ∀ h ∈ I.Held M a past, I.Live h (commands past ++ before)
  apart : ∀ a b, ∀ h ∈ I.Held M a past, h ∈ I.Held M b past → a = b
  lent_live : ∀ h, lent h → I.Live h (commands past ++ before)
  lent_free : ∀ h, lent h → ∀ a, h ∉ I.Held M a past
  accounted : ∀ h, I.Live h (commands past ++ before) →
    I.Live h before ∨ ∃ a, h ∈ I.Held M a past

/-- A system whose jobs are disciplined and run to their ends. -/
structure Governed (I : Interface C R H) (M : Machine σ J A C R) (lent : H → Prop)
    (before : List (Event C R)) : Prop where
  body : ∀ j, I.Disciplined lent (M.body j) (fun held _ => held = []) []
  ends : ∀ j s s', ¬ M.aborts j s s'
  safe : I.Safe before
  lent : ∀ h, lent h → I.Live h before

/-- How often agent `a` has been given handle `h`. -/
def givenTo (I : Interface C R H) (M : Machine σ J A C R) (a : A) (h : H)
    (past : List (Entry J C R)) : ℕ :=
  past.countP fun
    | .did j c r => M.agent j = a ∧ I.opens c r = some h
    | _ => false

/-- How often agent `a` has freed handle `h`. -/
def freedBy (I : Interface C R H) (M : Machine σ J A C R) (a : A) (h : H)
    (past : List (Entry J C R)) : ℕ :=
  past.countP fun
    | .did j c _ => M.agent j = a ∧ I.frees c = some h
    | _ => false

/-- Each answer in the history opens a handle that had not been there before, or none. -/
def FreshAnswers (I : Interface C R H) (before : List (Event C R)) (past : List (Entry J C R)) :
    Prop :=
  ∀ newer j c r older, past = newer ++ .did j c r :: older →
    I.Fresh ⟨c, r⟩ (commands older ++ before)

omit [DecidableEq H] in
theorem FreshAnswers.tail {e : Entry J C R} {past : List (Entry J C R)}
    (h : I.FreshAnswers before (e :: past)) : I.FreshAnswers before past := by
  intro newer j c r older hpast
  exact h (e :: newer) j c r older (by rw [hpast, List.cons_append])

theorem count_hold {c : C} {r : R c} (hallowed : I.Allowed lent held c) (h : H) :
    (I.hold held c r).count h + (if I.frees c = some h then 1 else 0) =
      held.count h + if I.opens c r = some h then 1 else 0 := by
  have hopened : ((I.opens c r).toList).count h = if I.opens c r = some h then 1 else 0 := by
    cases I.opens c r with
    | none => rfl
    | some h' => simp [List.count_singleton]
  have hrest : ((I.frees c).elim held held.erase).count h +
      (if I.frees c = some h then 1 else 0) = held.count h := by
    cases hfrees : I.frees c with
    | none => simp
    | some h' =>
        have hheld := hallowed.2 h' hfrees
        rw [Option.elim_some, List.count_erase]
        by_cases hsame : h' = h
        · subst hsame
          have hpos := List.count_pos_iff.mpr hheld
          simp
          omega
        · simp [hsame]
  rw [hold, List.count_append, hopened]
  omega

/-- What an agent holds is what it has been given and has not freed. -/
theorem Governed.count_held (hM : Governed I M lent before) {s : σ} {es : List (Entry J C R)}
    (hrun : Steps M (Config.initial s) es x) (a : A) (h : H) :
    (I.Held M a x.view.past).count h + I.freedBy M a h x.view.past =
      I.givenTo M a h x.view.past := by
  induction hrun with
  | done => rfl
  | @step y z e es hrun hstep ih =>
      have hmoves := hstep.moves
      rw [hmoves.recorded, givenTo, freedBy, List.countP_cons, List.countP_cons]
      cases e with
      | started j =>
          have hheld : I.Held M a (.started j :: y.view.past) = I.Held M a y.view.past := by
            by_cases ha : M.agent j = a
            · have hidle := hrun.tracked_started (P := fun _ => I.Allowed lent) hM.body rfl hstep
              rw [← ha]
              exact (if_pos rfl).trans hidle.symm
            · exact if_neg ha
          rw [hheld]
          exact ih
      | did j c r =>
          have hallowed := hrun.tracked_did (P := fun _ => I.Allowed lent) hM.body rfl hstep
          by_cases ha : M.agent j = a
          · subst ha
            have hheld : I.Held M (M.agent j) (.did j c r :: y.view.past) =
                I.hold (I.Held M (M.agent j) y.view.past) c r := if_pos rfl
            have hcount : (I.hold (I.Held M (M.agent j) y.view.past) c r).count h + _ =
                (I.Held M (M.agent j) y.view.past).count h + _ := count_hold (r := r) hallowed h
            rw [hheld]
            simp only [true_and, decide_eq_true_eq]
            change (I.hold (I.Held M (M.agent j) y.view.past) c r).count h +
              (I.freedBy M (M.agent j) h y.view.past + _) =
                I.givenTo M (M.agent j) h y.view.past + _
            omega
          · have hheld : I.Held M a (.did j c r :: y.view.past) = I.Held M a y.view.past :=
              if_neg ha
            rw [hheld]
            simp only [ha, false_and, decide_false, Bool.false_eq_true, if_false]
            exact ih
      | aborted j => exact absurd hmoves.effect (hM.ends j _ _)
      | disturbed => exact ih

/-- A move that is not a command. -/
theorem Ledger.congr {past past' : List (Entry J C R)} (hledger : Ledger I M lent before past)
    (hcommands : commands past' = commands past)
    (hheld : ∀ a, I.Held M a past' = I.Held M a past) : Ledger I M lent before past' := by
  constructor
  · rw [hcommands]
    exact hledger.safe
  · intro a
    rw [hheld]
    exact hledger.nodup a
  · intro a
    rw [hcommands, hheld]
    exact hledger.live a
  · intro a b
    rw [hheld, hheld]
    exact hledger.apart a b
  · rw [hcommands]
    exact hledger.lent_live
  · intro h hlent a
    rw [hheld]
    exact hledger.lent_free h hlent a
  · intro h
    simp only [hcommands, hheld]
    exact hledger.accounted h

/-- A command that is allowed to its job. -/
theorem Ledger.did {past : List (Entry J C R)} (hledger : Ledger I M lent before past) {j : J}
    (hallowed : I.Allowed lent (I.Held M (M.agent j) past) c)
    (hfresh : I.Fresh ⟨c, r⟩ (commands past ++ before)) :
    Ledger I M lent before (.did j c r :: past) := by
  have hself : I.Held M (M.agent j) (.did j c r :: past) =
      I.hold (I.Held M (M.agent j) past) c r := if_pos rfl
  have hother : ∀ a, M.agent j ≠ a → I.Held M a (.did j c r :: past) = I.Held M a past :=
    fun a ha => if_neg ha
  have hcommands : commands (.did j c r :: past) ++ before =
      ⟨c, r⟩ :: (commands past ++ before) := rfl
  have hlive : ∀ h, I.Live h (commands past ++ before) → I.frees c ≠ some h →
      I.Live h (⟨c, r⟩ :: (commands past ++ before)) := by
    intro h hbefore hne
    rw [Live, opened_cons, freed_cons]
    exact ⟨.inr hbefore.1, fun hfreed => hfreed.elim hne hbefore.2⟩
  have hnew : ∀ h, I.opens c r = some h → I.Live h (⟨c, r⟩ :: (commands past ++ before)) := by
    intro h hopens
    rw [Live, opened_cons, freed_cons]
    refine ⟨.inl hopens, fun hfreed => hfresh h hopens ?_⟩
    rcases hfreed with hnow | hbefore
    · exact (hledger.live _ h (hallowed.2 h hnow)).1
    · exact hledger.safe.opened_of_freed hbefore
  constructor
  · rw [hcommands]
    refine hledger.safe.cons (fun h huses => ?_) fun h hfrees => ?_
    · rcases hallowed.1 h huses with hheld | hlent
      · exact hledger.live _ h hheld
      · exact hledger.lent_live h hlent
    · exact hledger.live _ h (hallowed.2 h hfrees)
  · intro a
    by_cases ha : M.agent j = a
    · rw [← ha, hself]
      refine nodup_hold (hledger.nodup _) fun h hopens hh => ?_
      exact hfresh h hopens (hledger.live _ h hh).1
    · rw [hother a ha]
      exact hledger.nodup a
  · intro a h hh
    rw [hcommands]
    by_cases ha : M.agent j = a
    · rw [← ha, hself, mem_hold (hledger.nodup _)] at hh
      rcases hh with hopens | ⟨hheld, hne⟩
      · exact hnew h hopens
      · exact hlive h (hledger.live _ h hheld) hne
    · rw [hother a ha] at hh
      refine hlive h (hledger.live a h hh) fun hfrees => ?_
      exact ha (hledger.apart _ a h (hallowed.2 h hfrees) hh)
  · have hfirst : ∀ b, M.agent j ≠ b → ∀ h ∈ I.hold (I.Held M (M.agent j) past) c r,
        h ∉ I.Held M b past := by
      intro b hb h hh hheld
      rcases (mem_hold (hledger.nodup _)).mp hh with hopens | ⟨hmine, -⟩
      · exact hfresh h hopens (hledger.live b h hheld).1
      · exact hb (hledger.apart _ b h hmine hheld)
    intro a b h ha hb
    by_cases hja : M.agent j = a
    · by_cases hjb : M.agent j = b
      · exact hja.symm.trans hjb
      · rw [← hja, hself] at ha
        rw [hother b hjb] at hb
        exact absurd hb (hfirst b hjb h ha)
    · by_cases hjb : M.agent j = b
      · rw [← hjb, hself] at hb
        rw [hother a hja] at ha
        exact absurd ha (hfirst a hja h hb)
      · rw [hother a hja] at ha
        rw [hother b hjb] at hb
        exact hledger.apart a b h ha hb
  · intro h hlent
    refine hlive h (hledger.lent_live h hlent) fun hfrees => ?_
    exact hledger.lent_free h hlent _ (hallowed.2 h hfrees)
  · intro h hlent a hh
    by_cases ha : M.agent j = a
    · rw [← ha, hself, mem_hold (hledger.nodup _)] at hh
      rcases hh with hopens | ⟨hheld, -⟩
      · exact hfresh h hopens (hledger.lent_live h hlent).1
      · exact hledger.lent_free h hlent _ hheld
    · rw [hother a ha] at hh
      exact hledger.lent_free h hlent a hh
  · intro h hh
    rw [hcommands, Live, opened_cons, freed_cons, not_or] at hh
    rcases hh with ⟨hopens | hopened, hne, hnot⟩
    · refine .inr ⟨M.agent j, ?_⟩
      rw [hself, mem_hold (hledger.nodup _)]
      exact .inl hopens
    · rcases hledger.accounted h ⟨hopened, hnot⟩ with hbefore | ⟨a, ha⟩
      · exact .inl hbefore
      · refine .inr ⟨a, ?_⟩
        by_cases hja : M.agent j = a
        · rw [← hja] at ha ⊢
          rw [hself, mem_hold (hledger.nodup _)]
          exact .inr ⟨ha, hne⟩
        · rw [hother a hja]
          exact ha

/-- An agent uses what it has been given and has not freed, or what has been lent, and frees
only the former. -/
theorem Governed.held_of_did (hM : Governed I M lent before) {s : σ} {es : List (Entry J C R)}
    (hrun : Steps M (Config.initial s) es x) {newer older : List (Entry J C R)} {j : J}
    (hpast : x.view.past = newer ++ .did j c r :: older) :
    (∀ h ∈ I.uses c, I.freedBy M (M.agent j) h older < I.givenTo M (M.agent j) h older ∨ lent h) ∧
      ∀ h, I.frees c = some h →
        I.freedBy M (M.agent j) h older < I.givenTo M (M.agent j) h older := by
  rcases hrun.at_entry hpast with ⟨_, _, y, z, hbefore, rfl, hstep, -, -⟩
  have hallowed := hbefore.tracked_did (P := fun _ => I.Allowed lent) hM.body rfl hstep
  have hless : ∀ h ∈ I.Held M (M.agent j) y.view.past,
      I.freedBy M (M.agent j) h y.view.past < I.givenTo M (M.agent j) h y.view.past := by
    intro h hheld
    have hcount := hM.count_held hbefore (M.agent j) h
    have hpos := List.count_pos_iff.mpr hheld
    omega
  exact ⟨fun h huses => (hallowed.1 h huses).imp_left (hless h),
    fun h hfrees => hless h (hallowed.2 h hfrees)⟩

/-- An idle agent has freed all that it has been given. -/
theorem Governed.freed_of_idle (hM : Governed I M lent before) {s : σ}
    {es : List (Entry J C R)} (hrun : Steps M (Config.initial s) es x) (hidle : (x.slot a).Idle)
    (h : H) : I.freedBy M a h x.view.past = I.givenTo M a h x.view.past := by
  have htracked := hrun.slotTracked (P := fun _ => I.Allowed lent) (Q := fun held => held = [])
    hM.body rfl
  have hnone : I.Held M a x.view.past = [] := htracked.of_idle rfl hidle
  have hcount := hM.count_held hrun a h
  rw [hnone] at hcount
  simpa using hcount

/-- Disciplined jobs that are given fresh handles keep the ledger, whatever the order of their
commands. -/
theorem Governed.ledger (hM : Governed I M lent before) {s : σ} {es : List (Entry J C R)}
    (hrun : Steps M (Config.initial s) es x) (hfresh : I.FreshAnswers before x.view.past) :
    Ledger I M lent before x.view.past := by
  induction hrun with
  | done =>
      exact ⟨hM.safe, fun _ => .nil, nofun, nofun, hM.lent, fun _ _ _ => nofun,
        fun _ hh => .inl hh⟩
  | @step y z e es hrun hstep ih =>
      have hmoves := hstep.moves
      rw [hmoves.recorded] at hfresh ⊢
      replace ih := ih hfresh.tail
      cases e with
      | started j =>
          refine ih.congr rfl fun a => ?_
          by_cases ha : M.agent j = a
          · have hidle := hrun.tracked_started (P := fun _ => I.Allowed lent) hM.body rfl hstep
            rw [← ha]
            exact (if_pos rfl).trans hidle.symm
          · exact if_neg ha
      | did j c r =>
          have hallowed := hrun.tracked_did (P := fun _ => I.Allowed lent) hM.body rfl hstep
          exact ih.did hallowed (hfresh [] j c r y.view.past rfl)
      | aborted j => exact absurd hmoves.effect (hM.ends j _ _)
      | disturbed => exact ih.congr rfl fun a => rfl

/-- When all agents are idle, only what has been there from the beginning is open. -/
theorem Governed.live_of_idle (hM : Governed I M lent before) {s : σ} {es : List (Entry J C R)}
    (hrun : Steps M (Config.initial s) es x) (hfresh : I.FreshAnswers before x.view.past)
    (hidle : ∀ a, (x.slot a).Idle) {h : H}
    (hlive : I.Live h (commands x.view.past ++ before)) : I.Live h before := by
  have hledger := hM.ledger hrun hfresh
  have htracked := hrun.slotTracked (P := fun _ => I.Allowed lent) (Q := fun held => held = [])
    hM.body rfl
  rcases hledger.accounted h hlive with hbefore | ⟨a, ha⟩
  · exact hbefore
  · have hnone : I.Held M a x.view.past = [] := htracked.of_idle rfl (hidle a)
    rw [hnone] at ha
    cases ha

end Interleaved
end Interface
end Handles
