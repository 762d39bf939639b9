import ChatCluster.HandlerRuns

/-!
# Handlers whose statements may fail

A handler executed alone while a given set of statements fails, by the connection or by
the query. `ok` tells for each statement whether it succeeds; what the steps on the
node and on Redis are answered stays open.
-/
namespace ChatCluster
open CommandProgram

def SqlStep (a : Agent) (ok : Statement → Bool) (c : Command) (w : World) (r : Response c)
    (w' : World) : Prop :=
  ∃ o : Choice, (∀ q, c = .sql q → o.ok = ok q) ∧ exec o a c w = some (r, w')

section Runs
variable {a : Agent} {ok : Statement → Bool} {w w' : World}

theorem SqlStep.exec {c : Command} {r : Response c} (h : SqlStep a ok c w r w') :
    Exec a c w r w' := by
  obtain ⟨o, -, ho⟩ := h
  exact ⟨o, ho⟩

theorem runs_exec {α : Type} {p : Program α} {x : α} (h : p.Runs (SqlStep a ok) w x w') :
    p.Runs (Exec a) w x w' := h.mono fun _ _ _ _ => SqlStep.exec

theorem sqlStep_sql {q : Statement} {r : q.Answer} :
    SqlStep a ok (.sql q) w r w' ↔
      r = (q.exec (ok q) w.db).1 ∧ w' = { w with db := (q.exec (ok q) w.db).2 } := by
  constructor
  · intro h
    rcases h with ⟨o, ho, h⟩
    rw [← ho q rfl]
    exact exec_sql h
  · intro h
    rcases h with ⟨rfl, rfl⟩
    refine ⟨{ ok := ok q }, fun q' hq => ?_, rfl⟩
    cases hq
    rfl

theorem runs_sql {q : Statement} {r : q.Answer} :
    (sql q).Runs (SqlStep a ok) w r w' ↔
      r = (q.exec (ok q) w.db).1 ∧ w' = { w with db := (q.exec (ok q) w.db).2 } :=
  Prog.runs_perform.trans sqlStep_sql

theorem runs_isConnectionBoundToUser {userid : ℤ} {conn : Conn} {r : Bool}
    (h : (isConnectionBoundToUser userid conn).Runs (SqlStep a ok) w r w') :
    (r = true ↔ w.bound a.node userid = some conn) ∧ w' = w := by
  obtain ⟨o, -, ho⟩ := Prog.runs_perform.mp h
  obtain ⟨s', hs, rfl⟩ := exec_node ho
  obtain ⟨rfl, hr⟩ := NodeOp.exec_mapIsBound hs
  exact ⟨hr, World.setNode_node ..⟩

end Runs

/-- Where no statement may fail, all succeed. -/
theorem sqlStep_of_performs {E : Environment} (hE : ∀ j q, ¬ E.mayFail j (.sql q)) {j : Job}
    {c : Command} {w w' : World} {r : Response c} (h : E.Performs j c w r w') :
    SqlStep j.agent (fun _ => true) c w r w' := by
  obtain ⟨-, o, ho, h⟩ := h
  refine ⟨o, fun q hq => ?_, h⟩
  subst hq
  by_contra hfail
  exact hE j q (ho (by simpa using hfail))

/-! ## Computed runs -/

/-- Statements succeed as `ok` says, everything else does. -/
def Choice.ofStatements (ok : Statement → Bool) : Command → Choice
  | .sql q => { ok := ok q }
  | _ => {}

def sqlPerform? (a : Agent) (ok : Statement → Bool) (c : Command) (w : World) :
    Option (Response c × World) := exec (.ofStatements ok c) a c w

theorem sqlStep_of_sqlPerform? {a : Agent} {ok : Statement → Bool} {c : Command} {w w' : World}
    {r : Response c} (h : sqlPerform? a ok c w = some (r, w')) : SqlStep a ok c w r w' := by
  refine ⟨_, fun q hq => ?_, h⟩
  subst hq
  rfl

/-- User `u` bound to a connection. -/
def World.withSession (w : World) (c : Conn) (u : ℤ) : World :=
  w.setNode c.node
    { w.node c.node with userConnMap := (w.node c.node).userConnMap.insert u c }

end ChatCluster
