import Mathlib.Algebra.Order.Ring.Int
import Mathlib.Data.List.AList
import Mathlib.Data.Finset.Insert
import Mathlib.Data.Finset.Erase

/-!
# One server process

The state a server process keeps outside the database, and the atomic steps on
it: one section under `_connMutex`, one command on the subscribing Redis
connection, one call to the operating system. A section that runs an SQL
statement while it holds the lock is split into taking the lock, the single steps
inside and releasing it.

A `SUBSCRIBE` or `UNSUBSCRIBE` takes effect when it is issued.
-/
namespace ChatCluster

/-- A client connection; it belongs to the node that accepted it. -/
structure Conn where
  node : ℕ
  serial : ℕ
deriving DecidableEq, Repr

/-- Whatever runs handlers one at a time: the I/O loop of a connection, the thread
that reads the Redis subscriptions of a node, its main thread. -/
inductive Agent where
  | io (c : Conn)
  | observer (n : ℕ)
  | main (n : ℕ)
deriving DecidableEq, Repr

def Agent.node : Agent → ℕ
  | .io c => c.node
  | .observer n => n
  | .main n => n

structure NodeState where
  userConnMap : AList fun _ : ℤ => Conn
  connMutex : Option Agent
  redisConnected : Bool
  subscriptions : Finset ℤ
  inbox : List (ℤ × String)
  running : Bool
  pid : ℕ
  seq : ℕ

/-- A process as it starts, with Redis connected. -/
def NodeState.fresh (pid : ℕ) : NodeState where
  userConnMap := ∅
  connMutex := none
  redisConnected := true
  subscriptions := ∅
  inbox := []
  running := true
  pid := pid
  seq := 0

/-- What the environment decides about a step: whether a statement or a Redis
command succeeds, which entry the iteration over an unordered map meets first, and
what the clock shows. -/
structure Choice where
  ok : Bool := true
  victim : Option ℤ := none
  clockMs : ℕ := 0

inductive NodeOp where
  -- a whole section under `_connMutex`
  | mapIsBound (userid : ℤ) (conn : Conn)
  | mapBind (userid : ℤ) (conn : Conn)
  | mapErase (userid : ℤ)
  | mapEraseConn (conn : Conn)
  -- the parts of a section that issues other steps
  | lockConnMutex
  | mapFind (userid : ℤ)
  | unlockConnMutex
  -- Redis
  | redisIsConnected
  | redisSubscribe (channel : ℤ)
  | redisUnsubscribe (channel : ℤ)
  -- the process
  | clockNow
  | getpid
  | fetchAddSeq
  | exit

namespace NodeOp

def Answer : NodeOp → Type
  | mapIsBound _ _ => Bool
  | mapBind _ _ => Unit
  | mapErase _ => Unit
  | mapEraseConn _ => Option ℤ
  | lockConnMutex => Unit
  | mapFind _ => Option Conn
  | unlockConnMutex => Unit
  | redisIsConnected => Bool
  | redisSubscribe _ => Bool
  | redisUnsubscribe _ => Bool
  | clockNow => ℕ
  | getpid => ℕ
  | fetchAddSeq => ℕ
  | exit => Unit

/-- One step of agent `a` on its node. `none`: the lock is taken, or the choice
names an entry that the iteration cannot meet. -/
def exec (o : Choice) (a : Agent) : (q : NodeOp) → NodeState → Option (q.Answer × NodeState)
  | mapIsBound userid conn, s =>
      if s.connMutex = none then some (decide (s.userConnMap.lookup userid = some conn), s)
      else none
  | mapBind userid conn, s =>
      if s.connMutex = none then
        some ((), { s with userConnMap := s.userConnMap.insert userid conn })
      else none
  | mapErase userid, s =>
      if s.connMutex = none then
        some ((), { s with userConnMap := s.userConnMap.erase userid })
      else none
  | mapEraseConn conn, s =>
      if s.connMutex = none then
        match o.victim with
        | some userid =>
            if s.userConnMap.lookup userid = some conn then
              some (some userid, { s with userConnMap := s.userConnMap.erase userid })
            else none
        | none =>
            if s.userConnMap.entries.all fun e => decide (e.2 ≠ conn) then some (none, s)
            else none
      else none
  | lockConnMutex, s =>
      if s.connMutex = none then some ((), { s with connMutex := some a }) else none
  | mapFind userid, s => some (s.userConnMap.lookup userid, s)
  | unlockConnMutex, s => some ((), { s with connMutex := none })
  | redisIsConnected, s => some (s.redisConnected, s)
  | redisSubscribe channel, s =>
      if o.ok then some (true, { s with subscriptions := insert channel s.subscriptions })
      else some (false, s)
  | redisUnsubscribe channel, s =>
      if o.ok then some (true, { s with subscriptions := s.subscriptions.erase channel })
      else some (false, s)
  | clockNow, s => some (o.clockMs, s)
  | getpid, s => some (s.pid, s)
  | fetchAddSeq, s => some (s.seq, { s with seq := (s.seq + 1) % 2 ^ 32 })
  | exit, s => some ((), { s with running := false, subscriptions := ∅ })

variable {o : Choice} {a : Agent} {s s' : NodeState}

theorem exec_mapIsBound {userid : ℤ} {conn : Conn} {r : Bool}
    (h : (mapIsBound userid conn).exec o a s = some (r, s')) :
    s' = s ∧ (r = true ↔ s.userConnMap.lookup userid = some conn) := by
  simp only [exec] at h
  split_ifs at h
  cases h
  exact ⟨rfl, decide_eq_true_iff⟩

theorem exec_mapBind {userid : ℤ} {conn : Conn} {r : Unit}
    (h : (mapBind userid conn).exec o a s = some (r, s')) :
    s' = { s with userConnMap := s.userConnMap.insert userid conn } := by
  simp only [exec] at h
  split_ifs at h
  cases h
  rfl

theorem exec_mapErase {userid : ℤ} {r : Unit}
    (h : (mapErase userid).exec o a s = some (r, s')) :
    s' = { s with userConnMap := s.userConnMap.erase userid } := by
  simp only [exec] at h
  split_ifs at h
  cases h
  rfl

/-- The loop of `clientCloseException` erases one entry of the connection, or there
is none. -/
theorem exec_mapEraseConn {conn : Conn} {r : Option ℤ}
    (h : (mapEraseConn conn).exec o a s = some (r, s')) :
    (∃ u, r = some u ∧ s.userConnMap.lookup u = some conn ∧
      s' = { s with userConnMap := s.userConnMap.erase u }) ∨
    (r = none ∧ (∀ u, s.userConnMap.lookup u ≠ some conn) ∧ s' = s) := by
  by_cases hm : s.connMutex = none
  · cases hv : o.victim with
    | some u =>
        simp only [exec, if_pos hm, hv] at h
        split_ifs at h with hu
        cases h
        exact .inl ⟨u, rfl, hu, rfl⟩
    | none =>
        simp only [exec, if_pos hm, hv] at h
        split_ifs at h with hu
        cases h
        refine .inr ⟨rfl, fun u hl => ?_, rfl⟩
        have hmem := AList.mem_lookup_iff.mp (Option.mem_def.mpr hl)
        have := List.all_eq_true.mp hu ⟨u, conn⟩ hmem
        simp at this
  · simp only [exec, if_neg hm] at h
    cases h

/-- The entry erased is the one that the iteration meets first. -/
theorem victim_of_mapEraseConn {conn : Conn} {r : Option ℤ}
    (h : (mapEraseConn conn).exec o a s = some (r, s')) : r = o.victim := by
  simp only [exec] at h
  by_cases hm : s.connMutex = none
  · rw [if_pos hm] at h
    cases hv : o.victim with
    | some u =>
        simp only [hv] at h
        split_ifs at h
        cases h
        rfl
    | none =>
        simp only [hv] at h
        split_ifs at h
        cases h
        rfl
  · rw [if_neg hm] at h
    cases h

theorem free_of_mapIsBound {userid : ℤ} {conn : Conn} {r : Bool}
    (h : (mapIsBound userid conn).exec o a s = some (r, s')) : s.connMutex = none := by
  by_contra hne
  simp only [exec, if_neg hne] at h
  cases h

theorem free_of_mapEraseConn {conn : Conn} {r : Option ℤ}
    (h : (mapEraseConn conn).exec o a s = some (r, s')) : s.connMutex = none := by
  by_contra hne
  simp only [exec, if_neg hne] at h
  cases h

theorem exec_redisSubscribe {channel : ℤ} {r : Bool}
    (h : (redisSubscribe channel).exec o a s = some (r, s')) :
    s' = if r then { s with subscriptions := insert channel s.subscriptions } else s := by
  simp only [exec] at h
  split_ifs at h <;> (cases h; rfl)

theorem exec_redisUnsubscribe {channel : ℤ} {r : Bool}
    (h : (redisUnsubscribe channel).exec o a s = some (r, s')) :
    s' = if r then { s with subscriptions := s.subscriptions.erase channel } else s := by
  simp only [exec] at h
  split_ifs at h <;> (cases h; rfl)

/-! ## Which operations write what -/

def WritesMap : NodeOp → Prop
  | mapBind _ _ => True
  | mapErase _ => True
  | mapEraseConn _ => True
  | _ => False

def WritesSubscriptions : NodeOp → Prop
  | redisSubscribe _ => True
  | redisUnsubscribe _ => True
  | exit => True
  | _ => False

theorem lookup_of_erase {m : AList fun _ : ℤ => Conn} {u v : ℤ} {c : Conn}
    (h : (m.erase v).lookup u = some c) : m.lookup u = some c := by
  rcases eq_or_ne u v with rfl | hne
  · rw [AList.lookup_erase] at h
    cases h
  · rwa [AList.lookup_erase_ne hne] at h

theorem userConnMap_exec {q : NodeOp} {r : q.Answer} (hq : ¬ q.WritesMap)
    (h : q.exec o a s = some (r, s')) : s'.userConnMap = s.userConnMap := by
  cases q with
  | mapBind => exact absurd trivial hq
  | mapErase => exact absurd trivial hq
  | mapEraseConn => exact absurd trivial hq
  | mapIsBound | lockConnMutex | redisSubscribe | redisUnsubscribe =>
      simp only [exec] at h
      split_ifs at h
      all_goals cases h; rfl
  | _ => cases h; rfl

theorem subscriptions_exec {q : NodeOp} {r : q.Answer} (hq : ¬ q.WritesSubscriptions)
    (h : q.exec o a s = some (r, s')) : s'.subscriptions = s.subscriptions := by
  cases q with
  | redisSubscribe => exact absurd trivial hq
  | redisUnsubscribe => exact absurd trivial hq
  | exit => exact absurd trivial hq
  | mapEraseConn conn =>
      obtain ⟨u, -, -, rfl⟩ | ⟨-, -, rfl⟩ := exec_mapEraseConn h <;> rfl
  | mapIsBound | lockConnMutex | mapBind | mapErase =>
      simp only [exec] at h
      split_ifs at h
      all_goals cases h; rfl
  | _ => cases h; rfl

theorem redisConnected_exec {q : NodeOp} {r : q.Answer}
    (h : q.exec o a s = some (r, s')) : s'.redisConnected = s.redisConnected := by
  cases q with
  | mapEraseConn conn =>
      obtain ⟨u, -, -, rfl⟩ | ⟨-, -, rfl⟩ := exec_mapEraseConn h <;> rfl
  | mapIsBound | lockConnMutex | mapBind | mapErase | redisSubscribe | redisUnsubscribe =>
      simp only [exec] at h
      split_ifs at h
      all_goals cases h; rfl
  | _ => cases h; rfl

theorem inbox_exec {q : NodeOp} {r : q.Answer}
    (h : q.exec o a s = some (r, s')) : s'.inbox = s.inbox := by
  cases q with
  | mapEraseConn conn =>
      obtain ⟨u, -, -, rfl⟩ | ⟨-, -, rfl⟩ := exec_mapEraseConn h <;> rfl
  | mapIsBound | lockConnMutex | mapBind | mapErase | redisSubscribe | redisUnsubscribe =>
      simp only [exec] at h
      split_ifs at h
      all_goals cases h; rfl
  | _ => cases h; rfl

end NodeOp
end ChatCluster
