import ChatCluster.RedisSafety
import Mathlib.Data.List.Basic

/-!
# What the observer's thread hands to the service

Among the replies that arrive on the subscribing connection, the messages reach the handler
one by one and in their order, with the channel and the text they were published with.
-/
namespace ChatCluster.Redis
open CommandProgram Handles Interleaving

/-- A message comes out as it was published; its text is read as a C string at both ends. -/
theorem message?_push {channel : ℤ} (hl : INT_MIN ≤ channel) (hu : channel ≤ INT_MAX)
    (message : String) : message? (push channel message) = some (channel, cStr message) := by
  have hkind : cStr "message" = "message" := by decide
  have htext : cStr (cStr message) = cStr message := by
    refine cStr_eq_self fun c hc => ?_
    rw [cStr, String.toList_ofList] at hc
    simpa using List.mem_takeWhile_imp hc
  simp [message?, push, Reply.type, Reply.element, Reply.str, Arg.word, hkind, htext,
    atoi_decimalText hl hu]

/-! ## One turn of the loop -/

/-- The reply that the observer has got and not looked at, and the messages it has looked at
and not handed over. -/
structure Inbox where
  incoming : Option ReplyId
  messages : List (ℤ × String)

def Inbox.empty : Inbox := ⟨none, []⟩

def Inbox.next (t : Inbox) : (c : Call) → c.Answer → Inbox
  | .redisGetReply _, some reply => { t with incoming := reply }
  | .reply reply, content =>
      if t.incoming = some reply then ⟨none, t.messages ++ (message? content).toList⟩ else t
  | .notifyMessageHandler _ _, _ => { t with messages := t.messages.tail }
  | _, _ => t

/-- The observer reads the reply that it has got, and hands over the one message there is. -/
def Inbox.Permits (t : Inbox) : Call → Prop
  | .reply reply => t.incoming = some reply
  | .notifyMessageHandler channel text => t.messages = [(channel, text)]
  | _ => True

theorem tracked_observe (context : ContextId) : (observe context).Tracked Inbox.next Inbox.Permits
    (fun t _ => t = .empty) .empty := by
  refine ⟨trivial, fun answer => ?_⟩
  cases answer with
  | none => exact rfl
  | some reply =>
      cases reply with
      | none => exact rfl
      | some reply =>
          refine ⟨rfl, fun content => ?_⟩
          have hread : Inbox.next ⟨some reply, []⟩ (.reply reply) content =
              ⟨none, (message? content).toList⟩ := if_pos rfl
          change Prog.Tracked _ _ _ _ (Inbox.next ⟨some reply, []⟩ (.reply reply) content)
          rw [hread]
          simp only [Prog.bind]
          cases message? content with
          | none => exact ⟨trivial, fun _ => rfl⟩
          | some message => exact ⟨rfl, fun _ => ⟨trivial, fun _ => rfl⟩⟩

theorem tracked_observerChannelMessage (contexts : Contexts) (turns : ℕ) :
    (observerChannelMessage contexts turns).Tracked Inbox.next Inbox.Permits
      (fun t _ => t = .empty) .empty := by
  induction turns with
  | zero => exact rfl
  | succ turns ih =>
      rw [observerChannelMessage]
      cases contexts.subscribe with
      | none => exact ⟨trivial, fun _ => rfl⟩
      | some context =>
          refine (tracked_observe context).bind fun t more ht => ?_
          rw [ht]
          cases more with
          | true => exact ih
          | false => exact ⟨trivial, fun _ => rfl⟩

/-! ## The other threads -/

/-- What a job may do with the inbox of its thread. -/
def Job.Permits : Job → Inbox → Call → Prop
  | .observer _, t, c => t.Permits c
  | _, _, c => c.Aside

theorem Inbox.next_of_aside {c : Call} (hc : c.Aside) (r : c.Answer) :
    Inbox.next .empty c r = .empty := by
  cases c with
  | redisGetReply | notifyMessageHandler => exact hc.elim
  | _ => rfl

theorem tracked_of_aside {p : Program Unit} (hp : p.All Call.Aside) :
    p.Tracked Inbox.next (fun _ c => c.Aside) (fun t _ => t = .empty) .empty := by
  refine Prog.Tracked.of_all (fun _ _ hc _ => hc) (fun t c r hc ht => ?_) hp rfl
  rw [ht]
  exact Inbox.next_of_aside hc r

theorem tracked_body (contexts : Contexts) (j : Job) :
    (j.body contexts).Tracked Inbox.next j.Permits (fun t _ => t = .empty) .empty := by
  cases j with
  | publish _ channel message =>
      exact tracked_of_aside ((aside_publish contexts channel message).bind fun _ => trivial)
  | subscribe _ turns channel =>
      exact tracked_of_aside
        ((aside_sendSubscribeCommand contexts turns "SUBSCRIBE" channel).bind fun _ => trivial)
  | unsubscribe _ turns channel =>
      exact tracked_of_aside
        ((aside_sendSubscribeCommand contexts turns "UNSUBSCRIBE" channel).bind fun _ => trivial)
  | isConnected _ => exact tracked_of_aside ((aside_isConnected contexts).bind fun _ => trivial)
  | observer turns => exact tracked_observerChannelMessage contexts turns

/-! ## Runs -/

/-- The replies that the observer has read, oldest first. -/
def received : List (Entry Job Call Call.Answer) → List Reply
  | [] => []
  | .did (.observer _) (.reply _) content :: past => received past ++ ([content] : List Reply)
  | _ :: past => received past

/-- The calls of the handler, oldest first. -/
def notified : List (Entry Job Call Call.Answer) → List (ℤ × String)
  | [] => []
  | .did _ (.notifyMessageHandler channel text) _ :: past => notified past ++ [(channel, text)]
  | _ :: past => notified past

/-- What the observer holds at the end of a history. -/
def inbox (past : List (Entry Job Call Call.Answer)) : Inbox :=
  memory Job.thread .empty Inbox.next .observer past

section Runs
variable {contexts : Contexts}
  {x y : Config Unit Job Thread Call Call.Answer} {es : List (Entry Job Call Call.Answer)}

theorem filterMap_append_singleton (replies : List Reply) (content : Reply) :
    (replies ++ [content]).filterMap message? =
      replies.filterMap message? ++ (message? content).toList := by
  rw [List.filterMap_append]
  cases h : message? content <;> simp [h]

theorem notified_aside {past : List (Entry Job Call Call.Answer)} {j : Job} {c : Call}
    {r : c.Answer} (h : notified past ++ (inbox past).messages = (received past).filterMap message?)
    (hj : j.thread ≠ .observer) (hc : c.Aside) :
    notified (.did j c r :: past) ++ (inbox (.did j c r :: past)).messages =
      (received (.did j c r :: past)).filterMap message? := by
  have hinbox : inbox (.did j c r :: past) = inbox past := if_neg hj
  have hnotified : notified (.did j c r :: past) = notified past := by
    cases c with
    | notifyMessageHandler => exact hc.elim
    | _ => rfl
  have hreceived : received (.did j c r :: past) = received past := by
    cases j with
    | observer => exact absurd rfl hj
    | _ => rfl
  rw [hinbox, hnotified, hreceived]
  exact h

theorem notified_inbox (h : Steps (process contexts) (Config.initial ()) es x) :
    notified x.view.past ++ (inbox x.view.past).messages =
      (received x.view.past).filterMap message? := by
  induction h with
  | done => rfl
  | @step x y e es hrun hstep ih =>
      have hmoves := hstep.moves
      rw [hmoves.recorded]
      cases e with
      | started j =>
          by_cases hj : j.thread = .observer
          · have hempty : inbox x.view.past = .empty := by
              rw [inbox, ← hj]
              exact hrun.tracked_started (P := Job.Permits) (Q := fun t => t = .empty)
                (tracked_body contexts) rfl hstep
            have hinbox : inbox (.started j :: x.view.past) = .empty := if_pos hj
            rw [hempty] at ih
            rw [hinbox]
            exact ih
          · have hinbox : inbox (.started j :: x.view.past) = inbox x.view.past := if_neg hj
            rw [hinbox]
            exact ih
      | did j c r =>
          have hpermits := hrun.tracked_did (P := Job.Permits) (Q := fun t => t = .empty)
            (tracked_body contexts) rfl hstep
          cases j with
          | observer turns =>
              have hagent : (Job.observer turns).thread = .observer := rfl
              have hinbox : inbox (.did (.observer turns) c r :: x.view.past) =
                  (inbox x.view.past).next c r := by
                rw [inbox, memory, if_pos hagent, inbox]
              change (inbox x.view.past).Permits c at hpermits
              rw [hinbox]
              cases c with
              | reply reply =>
                  have hread : (inbox x.view.past).next (.reply reply) r =
                      ⟨none, (inbox x.view.past).messages ++ (message? r).toList⟩ := if_pos hpermits
                  refine Eq.trans ?_ (filterMap_append_singleton (received x.view.past) r).symm
                  change notified x.view.past ++
                    ((inbox x.view.past).next (.reply reply) r).messages = _
                  rw [hread, ← ih, List.append_assoc]
              | notifyMessageHandler channel text =>
                  change (inbox x.view.past).messages = [(channel, text)] at hpermits
                  rw [hpermits] at ih
                  change (notified x.view.past ++ [(channel, text)]) ++
                    (inbox x.view.past).messages.tail = (received x.view.past).filterMap message?
                  rw [hpermits, ← ih]
                  simp
              | redisGetReply context =>
                  have hsame : ((inbox x.view.past).next (.redisGetReply context) r).messages =
                      (inbox x.view.past).messages := by
                    cases r <;> rfl
                  change notified x.view.past ++ _ = (received x.view.past).filterMap message?
                  rw [hsame]
                  exact ih
              | _ => exact ih
          | publish | subscribe | unsubscribe | isConnected =>
              exact notified_aside ih (by simp [Job.thread]) hpermits
      | aborted j => exact hmoves.effect.elim
      | disturbed => exact hmoves.effect.elim

/-- The observer holds one message at most, and none between its jobs. -/
theorem inbox_of_idle (h : Steps (process contexts) (Config.initial ()) es x)
    (hidle : (x.slot .observer).Idle) : (inbox x.view.past).messages = [] := by
  have htracked := h.slotTracked (P := Job.Permits) (Q := fun t => t = .empty)
    (tracked_body contexts) rfl
  have hempty : inbox x.view.past = .empty := htracked.of_idle rfl hidle
  rw [hempty]
  rfl

/-- When the messages among the observer's replies are what Redis sends for the publications
`ps`, the handler is called with the channels and texts of `ps`, each once and in order, and
when the observer has come to rest with all of them. -/
theorem notified_published (h : Steps (process contexts) (Config.initial ()) es x)
    {ps : List (ℤ × String)} (hrange : ∀ p ∈ ps, INT_MIN ≤ p.1 ∧ p.1 ≤ INT_MAX)
    (hpushed : (received x.view.past).filter (fun reply => (message? reply).isSome) =
      ps.map fun p => push p.1 p.2) :
    ∃ held, notified x.view.past ++ held = ps.map (fun p => (p.1, cStr p.2)) ∧
      ((x.slot .observer).Idle → held = []) := by
  refine ⟨(inbox x.view.past).messages, ?_, inbox_of_idle h⟩
  rw [notified_inbox h]
  have hfilter : (received x.view.past).filterMap message? =
      ((received x.view.past).filter fun reply => (message? reply).isSome).filterMap message? := by
    rw [List.filterMap_filter]
    refine List.filterMap_congr fun reply _ => ?_
    cases message? reply <;> rfl
  rw [hfilter, hpushed, List.filterMap_map, List.filterMap_eq_map_iff_forall_eq_some]
  intro p hp
  exact message?_push (hrange p hp).1 (hrange p hp).2 p.2

end Runs

theorem notified_published_publish :
    ∃ x es, Steps (process ⟨some 0, some 1⟩) (Config.initial ()) es x ∧
      ∃ held, notified x.view.past ++ held = [(7, "hi")] := by
  have hreplayed : ((replayer ⟨some 0, some 1⟩).replay?
      (Config.initial ()) publishing).map (fun x => received x.view.past) =
        some [push 7 "hi"] := rfl
  rcases Option.map_eq_some_iff.mp hreplayed with ⟨x, hx, hreceived⟩
  rcases (replayer ⟨some 0, some 1⟩).replay_sound hx with ⟨es, hrun⟩
  have hrange : ∀ p ∈ [((7 : ℤ), "hi")], INT_MIN ≤ p.1 ∧ p.1 ≤ INT_MAX := by decide
  have hpushed : (received x.view.past).filter (fun reply => (message? reply).isSome) =
      [((7 : ℤ), "hi")].map fun p => push p.1 p.2 := by
    rw [hreceived]
    rfl
  rcases notified_published hrun hrange hpushed with ⟨held, hheld, -⟩
  exact ⟨x, es, hrun, held, hheld⟩

end ChatCluster.Redis
