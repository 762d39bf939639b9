import ChatCluster.ChatServer
import ChatCluster.Library.Replay

/-!
# The cluster as a system of agents

The commands of all jobs interleave; the jobs of one agent follow one another. An
`Environment` says which commands may fail and which disturbances may occur, so
that each result states what it assumes of the outside. `Cluster.Run` executes
whole handlers one after another; its runs are among the interleaved ones.
-/
namespace ChatCluster
open CommandProgram Interleaving

/-- What can happen that no handler does: time passes, a node loses Redis, a
published message gets lost on its way, a process dies. -/
inductive Disturbance : World → World → Prop
  | tick (w : World) : Disturbance w { w with db := { w.db with now := w.db.now + 1 } }
  | redisDown (w : World) (n : ℕ) : Disturbance w
      (w.setNode n { w.node n with redisConnected := false, subscriptions := ∅ })
  | messageLost (w : World) (n : ℕ) (before after : List (ℤ × String)) (m : ℤ × String) :
      (w.node n).inbox = before ++ m :: after →
      Disturbance w (w.setNode n { w.node n with inbox := before ++ after })
  | crash (w : World) (n : ℕ) : Disturbance w
      (w.setNode n { w.node n with running := false, subscriptions := ∅, inbox := [] })

structure Environment where
  mayFail : Job → Command → Prop
  mayDisturb : World → World → Prop

/-- Nothing fails and nothing is lost. -/
def Environment.calm : Environment where
  mayFail := fun _ _ => False
  mayDisturb := fun _ _ => False

/-- Anything may fail or be lost at any time. -/
def Environment.hostile : Environment where
  mayFail := fun _ _ => True
  mayDisturb := Disturbance

/-- A handler that is stopped gives its lock back. -/
def World.release (w : World) (a : Agent) : World :=
  if (w.node a.node).connMutex = some a then
    w.setNode a.node { w.node a.node with connMutex := none }
  else w

def Environment.Performs (E : Environment) (j : Job) (c : Command) (w : World)
    (r : Response c) (w' : World) : Prop :=
  (w.node j.agent.node).running = true ∧
    ∃ o : Choice, (o.ok = false → E.mayFail j c) ∧ exec o j.agent c w = some (r, w')

abbrev ClusterView := View World Job Command Response

abbrev ClusterEntry := Entry Job Command Response

/-- The interleaved system. `admits` restricts the runs considered. -/
def cluster [JsonParser] (E : Environment) (admits : ClusterView → ClusterEntry → Prop) :
    Machine World Job Agent Command Response where
  agent := Job.agent
  body := Job.body
  starts := Job.Starts
  performs := E.Performs
  aborts := fun j w w' => w' = w.release j.agent
  disturbs := fun w w' => E.mayDisturb w w' ∧ Disturbance w w'
  admits := admits

namespace Cluster
variable {E : Environment}

/-- A successful step, computed. -/
def perform? (o : Choice) (j : Job) (c : Command) (w : World) : Option (Response c × World) :=
  if (w.node j.agent.node).running = true ∧ o.ok = true then exec o j.agent c w else none

theorem performs_of_perform? {o : Choice} {j : Job} {c : Command} {w w' : World}
    {r : Response c} (h : perform? o j c w = some (r, w')) : E.Performs j c w r w' := by
  unfold perform? at h
  split_ifs at h with hs
  exact ⟨hs.1, o, fun hok => absurd (hs.2.symm.trans hok) (by decide), h⟩

variable [JsonParser]

/-- One handler executed from its start to its end while all others stand still. -/
def Handles (E : Environment) (w : World) (j : Job) (w' : World) : Prop :=
  ∃ w₁, j.Starts w w₁ ∧ j.body.Runs (E.Performs j) w₁ () w'

/-- A run of atomically executed handlers, oldest first. -/
inductive Run (E : Environment) (w : World) : List Job → World → Prop
  | done : Run E w [] w
  | step {js : List Job} {j : Job} {w₁ w₂ : World} :
      Run E w js w₁ → Handles E w₁ j w₂ → Run E w (js ++ [j]) w₂

/-- Invariance for runs whose jobs all satisfy `Q`. -/
theorem Run.preserves {P : World → Prop} {Q : Job → Prop}
    (hP : ∀ w j w', Q j → Handles E w j w' → P w → P w') {w w' : World} {js : List Job}
    (h : Run E w js w') (hjs : ∀ j ∈ js, Q j) (hw : P w) : P w' := by
  induction h with
  | done => exact hw
  | step _ hs ih =>
      refine hP _ _ _ (hjs _ ?_) hs (ih fun i hi => hjs i ?_)
      · exact List.mem_append_right _ List.mem_cons_self
      · exact List.mem_append_left _ hi

/-- Atomic execution is one of the interleavings. -/
theorem Run.interleaved {w w' : World} {js : List Job} (h : Run E w js w') :
    ∃ es x, Steps (cluster E fun _ _ => True) (Config.initial w) es x ∧
      x.view.state = w' ∧ ∀ a, (x.slot a).Idle := by
  induction h with
  | done => exact ⟨[], _, .done, rfl, fun _ => trivial⟩
  | @step js j w₁ w₂ _ hs ih =>
      obtain ⟨es, x, hx, rfl, hidle⟩ := ih
      obtain ⟨w₁', hstart, hrun⟩ := hs
      obtain ⟨fs, y, hy, hyw, hslot⟩ :=
        steps_of_job (M := cluster E fun _ _ => True) (fun _ _ => trivial) (hidle _) hstart hrun
      refine ⟨es ++ fs, y, hx.append hy, hyw, fun a => ?_⟩
      rw [hslot]
      rcases eq_or_ne a ((cluster E fun _ _ => True).agent j) with rfl | ha
      · rw [Function.update_self]; trivial
      · rw [Function.update_of_ne ha]; exact hidle a

theorem Run.trans {w₁ w₂ w₃ : World} {js ks : List Job} (h : Run E w₁ js w₂)
    (k : Run E w₂ ks w₃) : Run E w₁ (js ++ ks) w₃ := by
  induction k with
  | done => rwa [List.append_nil]
  | step _ hs ih => rw [← List.append_assoc]; exact .step ih hs

/-! ## Computed runs -/

def handle? (o : Choice) (j : Job) (w : World) : Option World :=
  (j.start? w).bind fun w₁ => (j.body.eval? (perform? o j) w₁).map Prod.snd

/-- Handle the jobs one after another, each under its own choice. -/
def play? (w : World) : List (Choice × Job) → Option World
  | [] => some w
  | (o, j) :: rest => (handle? o j w).bind fun w₁ => play? w₁ rest

theorem handles_of_handle? {o : Choice} {j : Job} {w w' : World} (h : handle? o j w = some w') :
    Handles E w j w' := by
  obtain ⟨w₁, hstart, hrun⟩ := Option.bind_eq_some_iff.mp h
  obtain ⟨⟨_, _⟩, heval, rfl⟩ := Option.map_eq_some_iff.mp hrun
  have hperform : ∀ c v r v', perform? o j c v = some (r, v') → E.Performs j c v r v' :=
    fun _ _ _ _ hs => performs_of_perform? hs
  exact ⟨w₁, Job.starts_of_start? hstart, Prog.runs_of_eval? hperform heval⟩

theorem run_of_play? {w w' : World} {xs : List (Choice × Job)} (h : play? w xs = some w') :
    Run E w (xs.map Prod.snd) w' := by
  induction xs generalizing w with
  | nil =>
      cases h
      exact .done
  | cons x xs ih =>
      obtain ⟨w₁, hhandle, hrest⟩ := Option.bind_eq_some_iff.mp h
      have hone : Run E w [x.2] w₁ := Run.step .done (handles_of_handle? hhandle)
      exact hone.trans (ih hrest)

/-- A computed run whose outcome passes a test. -/
theorem exists_run {w : World} (xs : List (Choice × Job)) {p : World → Bool}
    (h : (play? w xs).any p = true) : ∃ w', Run E w (xs.map Prod.snd) w' ∧ p w' = true := by
  obtain ⟨w', hw, hp⟩ := (Option.any_eq_true _ _).mp h
  exact ⟨w', run_of_play? hw, hp⟩

/-- A computed run and one more job, with a test on the states around that job. -/
theorem exists_run_handles {w : World} (xs : List (Choice × Job)) (o : Choice) (j : Job)
    {p : World → World → Bool}
    (h : ((play? w xs).any fun w₁ => (handle? o j w₁).any (p w₁)) = true) :
    ∃ w₁ w₂, Run E w (xs.map Prod.snd) w₁ ∧ Handles E w₁ j w₂ ∧ p w₁ w₂ = true := by
  obtain ⟨w₁, hw₁, h⟩ := (Option.any_eq_true _ _).mp h
  obtain ⟨w₂, hw₂, hp⟩ := (Option.any_eq_true _ _).mp h
  exact ⟨w₁, w₂, run_of_play? hw₁, handles_of_handle? hw₂, hp⟩

/-- For runs in which no text is parsed. -/
abbrev rejectAll : JsonParser where
  parse := fun _ => none

/-- The interleaved system without failures, computed. -/
def replayer (E : Environment) (admits : ClusterView → ClusterEntry → Prop)
    (admit? : ClusterView → ClusterEntry → Bool)
    (h : ∀ v e, admit? v e = true → admits v e) : Replayer (cluster E admits) Choice where
  start? := Job.start?
  perform? := perform?
  admit? := admit?
  start_sound := Job.starts_of_start?
  perform_sound := performs_of_perform?
  admit_sound := h _ _

end Cluster
end ChatCluster
