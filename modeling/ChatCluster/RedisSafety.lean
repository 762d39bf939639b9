import ChatCluster.Library.Replay
import ChatCluster.RedisClient

/-!
# Contexts and replies of the Redis object

Whatever hiredis answers, `connect` leaves open what it keeps and nothing else, and the calls
of the service and of the observer use the two contexts and free their replies, each thread
those that it has been given. So no context and no reply is used after it has been freed or
freed twice, if no reply is given to two threads. This hiredis promises only for a context that
one thread uses at a time, and all threads share the two contexts without a lock.
-/
namespace ChatCluster.Redis
open CommandProgram Handles Interleaving

inductive Handle where
  | context (context : ContextId)
  | reply (reply : ReplyId)
deriving DecidableEq, Repr

def opens : (c : Call) → c.Answer → Option Handle
  | .redisConnectWithTimeout _ _, some context => some (.context context)
  | .redisCommand _ _ _, some reply => some (.reply reply)
  | .redisGetReply _, some (some reply) => some (.reply reply)
  | _, _ => none

def uses : Call → List Handle
  | .err context | .errstr context | .redisCommand context _ _ | .redisAppendCommand context _ _
  | .redisBufferWrite context | .redisGetReply context => [.context context]
  | .reply reply => [.reply reply]
  | _ => []

def frees : Call → Option Handle
  | .redisFree context => some (.context context)
  | .freeReplyObject reply => some (.reply reply)
  | _ => none

def handles : Interface Call Call.Answer Handle := ⟨opens, uses, frees⟩

/-! ## Single programs -/

section Programs
variable {lent : Handle → Prop} {held : List Handle} {α β : Type}

/-- The program gives back all that it opens. -/
def Keeps (lent : Handle → Prop) (held : List Handle) (p : Program α) : Prop :=
  handles.Disciplined lent p (fun held' _ => held' = held) held

theorem Keeps.bind {p : Program α} {f : α → Program β} {Q : List Handle → β → Prop}
    (hp : Keeps lent held p) (hf : ∀ a, handles.Disciplined lent (f a) Q held) :
    handles.Disciplined lent (p >>= f) Q held := by
  refine Prog.Tracked.bind hp fun held' a heq => ?_
  rw [heq]
  exact hf a

theorem keeps_pure (a : α) : Keeps lent held (pure a : Program α) := rfl

/-- A call that opens and frees nothing. -/
theorem keeps_call {c : Call} (hopens : ∀ r, opens c r = none) (hfrees : frees c = none)
    (huses : ∀ h ∈ uses c, h ∈ held ∨ lent h) : Keeps lent held (call c) := by
  refine ⟨⟨huses, fun h hh => ?_⟩, fun r => ?_⟩
  · rw [show handles.frees c = none from hfrees] at hh
    cases hh
  · change handles.hold held c r = held
    rw [Interface.hold, show handles.opens c r = none from hopens r,
      show handles.frees c = none from hfrees]
    rfl

/-- The context is there while the program runs. -/
def Usable (lent : Handle → Prop) (held : List Handle) (context : ContextId) : Prop :=
  .context context ∈ held ∨ lent (.context context)

theorem keeps_getenv (key : String) : Keeps lent held (call (.getenv key)) :=
  keeps_call (fun _ => rfl) rfl (by simp [uses])

theorem keeps_setConnected (b : Bool) : Keeps lent held (call (.setConnected b)) :=
  keeps_call (fun _ => rfl) rfl (by simp [uses])

theorem keeps_err {context : ContextId} (h : Usable lent held context) :
    Keeps lent held (call (.err context)) :=
  keeps_call (fun _ => rfl) rfl (by simpa [uses, Usable] using h)

theorem keeps_errstr {context : ContextId} (h : Usable lent held context) :
    Keeps lent held (call (.errstr context)) :=
  keeps_call (fun _ => rfl) rfl (by simpa [uses, Usable] using h)

theorem keeps_getEnvOrDefault (key defaultValue : String) :
    Keeps lent held (getEnvOrDefault key defaultValue) :=
  (keeps_getenv key).bind fun _ => rfl

theorem keeps_getEnvIntOrDefault (key : String) (defaultValue : ℤ) :
    Keeps lent held (getEnvIntOrDefault key defaultValue) :=
  (keeps_getenv key).bind fun _ => rfl

/-- The reply that a program has just been given is freed at its end. -/
theorem disciplined_free {reply : ReplyId} (a : α) :
    handles.Disciplined lent (call (.freeReplyObject reply) >>= fun _ => (pure a : Program α))
      (fun held' _ => held' = held) (.reply reply :: held) := by
  refine ⟨⟨by simp [handles, uses], by simp [handles, frees]⟩, fun _ => ?_⟩
  change handles.hold (.reply reply :: held) (.freeReplyObject reply) () = held
  simp [Interface.hold, handles, opens, frees]

theorem disciplined_takeStatus (reply : ReplyId) :
    handles.Disciplined lent (takeStatus reply) (fun held' _ => held' = held)
      (.reply reply :: held) := by
  have hread : Keeps lent (.reply reply :: held) (call (.reply reply)) :=
    keeps_call (fun _ => rfl) rfl (by simp [uses])
  exact hread.bind fun content => disciplined_free _

/-- A command with a reply, and what is done with it. -/
theorem keeps_command {context : ContextId} (h : Usable lent held context) {format : String}
    {args : List Arg} {f : Option ReplyId → Program α} (hnone : Keeps lent held (f none))
    (hsome : ∀ reply, handles.Disciplined lent (f (some reply)) (fun held' _ => held' = held)
      (.reply reply :: held)) :
    Keeps lent held (call (.redisCommand context format args) >>= f) := by
  refine ⟨⟨by simpa [handles, uses, Usable] using h, by simp [handles, frees]⟩, fun r => ?_⟩
  cases r with
  | none => exact hnone
  | some reply => exact hsome reply

theorem keeps_runStatusCommand {context : ContextId} (h : Usable lent held context)
    (command arg : String) : Keeps lent held (runStatusCommand (some context) command arg) := by
  refine keeps_command h ?_ fun reply => disciplined_takeStatus reply
  exact (keeps_errstr h).bind fun _ => rfl

theorem keeps_configureContext {context : ContextId} (h : Usable lent held context) :
    Keeps lent held (configureContext (some context)) := by
  refine (keeps_getEnvOrDefault ..).bind fun password => ?_
  have hselect : ∀ authenticated : Bool, Keeps lent held (if authenticated = true then do
      let db ← getEnvIntOrDefault "CHAT_REDIS_DB" 0
      if 0 < db then runStatusCommand (some context) "SELECT %s" (decimalText db) else pure true
      else pure false) := by
    intro authenticated
    cases authenticated with
    | false => exact keeps_pure false
    | true =>
        refine (keeps_getEnvIntOrDefault ..).bind fun db => ?_
        split_ifs
        · exact keeps_runStatusCommand h ..
        · exact keeps_pure true
  split_ifs
  · exact hselect true
  · exact (keeps_runStatusCommand h ..).bind hselect

/-! ## `connect` -/

/-- Freeing a context that the program has opened itself. -/
theorem disciplined_redisFree {context : ContextId} {a : α} {Q : List Handle → α → Prop}
    (h : Q held a) :
    handles.Disciplined lent (call (.redisFree context) >>= fun _ => (pure a : Program α)) Q
      (.context context :: held) := by
  refine ⟨⟨by simp [handles, uses], by simp [handles, frees]⟩, fun _ => ?_⟩
  have hheld : handles.hold (.context context :: held) (.redisFree context) () = held := by
    simp [Interface.hold, handles, opens, frees]
  change Q (handles.hold (.context context :: held) (.redisFree context) ()) a
  rw [hheld]
  exact h

/-- What is open besides `held` is the context that is returned. -/
def Returned (held : List Handle) (held' : List Handle) (context : Option ContextId) : Prop :=
  held' = (context.map Handle.context).toList ++ held

theorem disciplined_connectContext (host : String) (port : ℤ) :
    handles.Disciplined lent (connectContext host port) (Returned held) held := by
  refine ⟨⟨by simp [handles, uses], by simp [handles, frees]⟩, fun r => ?_⟩
  cases r with
  | none => exact rfl
  | some context =>
      have husable : Usable lent (.context context :: held) context := .inl List.mem_cons_self
      refine (keeps_err husable).bind fun err => ?_
      cases err with
      | true => exact (keeps_errstr husable).bind fun _ => disciplined_redisFree rfl
      | false => exact rfl

theorem disciplined_connectConfigured (host : String) (port : ℤ) :
    handles.Disciplined lent (connectConfigured host port) (Returned held) held := by
  refine Prog.Tracked.bind (disciplined_connectContext host port) fun held' context heq => ?_
  rw [heq]
  cases context with
  | none => exact rfl
  | some context =>
      have husable : Usable lent (.context context :: held) context := .inl List.mem_cons_self
      refine (keeps_configureContext husable).bind fun configured => ?_
      cases configured with
      | true => exact rfl
      | false => exact disciplined_redisFree rfl

/-- The contexts that an object keeps. -/
def Contexts.handles (contexts : Contexts) : List Handle :=
  contexts.subscribe.toList.map .context ++ contexts.publish.toList.map .context

theorem mem_handles {contexts : Contexts} {h : Handle} : h ∈ contexts.handles ↔
    ∃ context, h = .context context ∧
      (contexts.publish = some context ∨ contexts.subscribe = some context) := by
  rw [Contexts.handles, List.mem_append, List.mem_map, List.mem_map]
  constructor
  · intro hmem
    rcases hmem with ⟨context, hcontext, rfl⟩ | ⟨context, hcontext, rfl⟩
    · exact ⟨context, rfl, .inr (Option.mem_toList.mp hcontext)⟩
    · exact ⟨context, rfl, .inl (Option.mem_toList.mp hcontext)⟩
  · intro hmem
    rcases hmem with ⟨context, rfl, hpublish | hsubscribe⟩
    · exact .inr ⟨context, Option.mem_toList.mpr hpublish, rfl⟩
    · exact .inl ⟨context, Option.mem_toList.mpr hsubscribe, rfl⟩

/-- `connect` keeps both contexts or none. -/
def Connected (held : List Handle) (result : Bool × Contexts) : Prop :=
  held = result.2.handles ∧ result.2.publish.isSome = result.1 ∧
    result.2.subscribe.isSome = result.1

theorem disciplined_connect : handles.Disciplined lent connect Connected [] := by
  refine (keeps_getEnvOrDefault ..).bind fun host => ?_
  refine (keeps_getEnvIntOrDefault ..).bind fun port => ?_
  refine Prog.Tracked.bind (disciplined_connectConfigured host port) fun held' publish heq => ?_
  rw [heq]
  cases publish with
  | none => exact ⟨rfl, rfl, rfl⟩
  | some publish =>
      refine Prog.Tracked.bind (disciplined_connectConfigured host port)
        fun held' subscribe heq => ?_
      rw [heq]
      cases subscribe with
      | none => exact disciplined_redisFree ⟨rfl, rfl, rfl⟩
      | some subscribe =>
          refine (keeps_setConnected true).bind fun _ => ?_
          exact ⟨rfl, rfl, rfl⟩

/-! ## The calls of the service -/

section Object
variable {contexts : Contexts}

theorem usable_publish {context : ContextId} (h : contexts.publish = some context) :
    Usable (fun h => h ∈ contexts.handles) held context := by
  refine .inr ?_
  simp [Contexts.handles, h]

theorem usable_subscribe {context : ContextId} (h : contexts.subscribe = some context) :
    Usable (fun h => h ∈ contexts.handles) held context := by
  refine .inr ?_
  simp [Contexts.handles, h]

theorem keeps_isConnected : Keeps (fun h => h ∈ contexts.handles) held (isConnected contexts) := by
  have hconnected : Keeps (fun h => h ∈ contexts.handles) held (call .connected) :=
    keeps_call (fun _ => rfl) rfl (by simp [uses])
  refine hconnected.bind fun connected => ?_
  cases connected with
  | false => exact rfl
  | true =>
      cases hpublish : contexts.publish with
      | none => exact rfl
      | some publish =>
          cases hsubscribe : contexts.subscribe with
          | none => exact rfl
          | some subscribe =>
              refine (keeps_err (usable_publish hpublish)).bind fun err => ?_
              cases err with
              | true => exact rfl
              | false => exact (keeps_err (usable_subscribe hsubscribe)).bind fun _ => rfl

theorem keeps_publish (channel : ℤ) (message : String) :
    Keeps (fun h => h ∈ contexts.handles) held (publish contexts channel message) := by
  unfold publish
  cases hpublish : contexts.publish with
  | none => exact rfl
  | some context =>
      have husable : Usable (fun h => h ∈ contexts.handles) held context :=
        usable_publish hpublish
      refine (keeps_err husable).bind fun err => ?_
      cases err with
      | true => exact rfl
      | false =>
          refine keeps_command husable ?_ fun reply => disciplined_takeStatus reply
          exact (keeps_errstr husable).bind fun _ => rfl

theorem keeps_writeBuffer {context : ContextId} (h : Usable lent held context) (turns : ℕ) :
    Keeps lent held (writeBuffer context turns) := by
  induction turns with
  | zero => exact rfl
  | succ turns ih =>
      have hwrite : Keeps lent held (call (.redisBufferWrite context)) :=
        keeps_call (fun _ => rfl) rfl (by simpa [uses, Usable] using h)
      refine hwrite.bind fun done => ?_
      cases done with
      | none => exact (keeps_errstr h).bind fun _ => rfl
      | some done =>
          cases done with
          | true => exact rfl
          | false => exact ih

theorem keeps_sendSubscribeCommand (turns : ℕ) (command : String) (channel : ℤ) :
    Keeps (fun h => h ∈ contexts.handles) held
      (sendSubscribeCommand contexts turns command channel) := by
  unfold sendSubscribeCommand
  cases hsubscribe : contexts.subscribe with
  | none => exact rfl
  | some context =>
      have husable : Usable (fun h => h ∈ contexts.handles) held context :=
        usable_subscribe hsubscribe
      refine (keeps_err husable).bind fun err => ?_
      cases err with
      | true => exact rfl
      | false =>
          have happend : Keeps (fun h => h ∈ contexts.handles) held
              (call (.redisAppendCommand context "%s %d" [.s command, .d channel])) :=
            keeps_call (fun _ => rfl) rfl (by simpa [uses, Usable] using husable)
          refine happend.bind fun appended => ?_
          cases appended with
          | true => exact keeps_writeBuffer husable turns
          | false => exact rfl

theorem keeps_observe {context : ContextId} (h : Usable lent held context) :
    Keeps lent held (observe context) := by
  refine ⟨⟨by simpa [handles, uses, Usable] using h, by simp [handles, frees]⟩, fun answer => ?_⟩
  cases answer with
  | none => exact rfl
  | some reply =>
      cases reply with
      | none => exact rfl
      | some reply =>
          have hread : Keeps lent (.reply reply :: held) (call (.reply reply)) :=
            keeps_call (fun _ => rfl) rfl (by simp [uses])
          refine hread.bind fun content => ?_
          cases message? content with
          | none => exact disciplined_free true
          | some message =>
              have hnotify : Keeps lent (.reply reply :: held)
                  (call (.notifyMessageHandler message.1 message.2)) :=
                keeps_call (fun _ => rfl) rfl (by simp [uses])
              exact hnotify.bind fun _ => disciplined_free true

theorem keeps_observerChannelMessage (turns : ℕ) :
    Keeps (fun h => h ∈ contexts.handles) held (observerChannelMessage contexts turns) := by
  induction turns with
  | zero => exact rfl
  | succ turns ih =>
      rw [observerChannelMessage]
      cases hsubscribe : contexts.subscribe with
      | none => exact keeps_setConnected false
      | some context =>
          refine (keeps_observe (usable_subscribe hsubscribe)).bind fun more => ?_
          cases more with
          | true => exact ih
          | false => exact keeps_setConnected false

end Object
end Programs

/-! ## Calls while the object is in service -/

/-- Neither opens nor frees a context. -/
def Call.InService : Call → Prop
  | .redisConnectWithTimeout _ _ | .redisFree _ => False
  | _ => True

/-- Moreover neither waits for a reply of the subscriptions nor hands over a message. -/
def Call.Aside : Call → Prop
  | .redisGetReply _ | .notifyMessageHandler _ _ => False
  | c => c.InService

theorem Call.Aside.inService {c : Call} (h : c.Aside) : c.InService := by
  cases c with
  | redisGetReply | notifyMessageHandler => exact h.elim
  | _ => exact h

theorem aside_takeStatus (reply : ReplyId) : (takeStatus reply).All Call.Aside :=
  ⟨trivial, fun _ => ⟨trivial, fun _ => trivial⟩⟩

theorem aside_isConnected (contexts : Contexts) : (isConnected contexts).All Call.Aside := by
  refine ⟨trivial, fun connected => ?_⟩
  cases connected with
  | false => trivial
  | true =>
      cases contexts.publish with
      | none => trivial
      | some publish =>
          cases contexts.subscribe with
          | none => trivial
          | some subscribe =>
              refine ⟨trivial, fun err => ?_⟩
              cases err with
              | true => trivial
              | false => exact ⟨trivial, fun _ => trivial⟩

theorem aside_publish (contexts : Contexts) (channel : ℤ) (message : String) :
    (publish contexts channel message).All Call.Aside := by
  unfold publish
  cases contexts.publish with
  | none => trivial
  | some context =>
      refine ⟨trivial, fun err => ?_⟩
      cases err with
      | true => trivial
      | false =>
          refine ⟨trivial, fun reply => ?_⟩
          cases reply with
          | none => exact ⟨trivial, fun _ => trivial⟩
          | some reply => exact aside_takeStatus reply

theorem aside_writeBuffer (context : ContextId) (turns : ℕ) :
    (writeBuffer context turns).All Call.Aside := by
  induction turns with
  | zero => trivial
  | succ turns ih =>
      refine ⟨trivial, fun done => ?_⟩
      cases done with
      | none => exact ⟨trivial, fun _ => trivial⟩
      | some done =>
          cases done with
          | true => trivial
          | false => exact ih

theorem aside_sendSubscribeCommand (contexts : Contexts) (turns : ℕ) (command : String)
    (channel : ℤ) : (sendSubscribeCommand contexts turns command channel).All Call.Aside := by
  unfold sendSubscribeCommand
  cases contexts.subscribe with
  | none => trivial
  | some context =>
      refine ⟨trivial, fun err => ?_⟩
      cases err with
      | true => trivial
      | false =>
          refine ⟨trivial, fun appended => ?_⟩
          cases appended with
          | true => exact aside_writeBuffer context turns
          | false => trivial

theorem inService_observe (context : ContextId) : (observe context).All Call.InService := by
  refine ⟨trivial, fun answer => ?_⟩
  cases answer with
  | none => trivial
  | some reply =>
      cases reply with
      | none => trivial
      | some reply =>
          refine ⟨trivial, fun content => ?_⟩
          simp only [Prog.bind]
          cases message? content with
          | none => exact ⟨trivial, fun _ => trivial⟩
          | some message => exact ⟨trivial, fun _ => ⟨trivial, fun _ => trivial⟩⟩

theorem inService_observerChannelMessage (contexts : Contexts) (turns : ℕ) :
    (observerChannelMessage contexts turns).All Call.InService := by
  induction turns with
  | zero => trivial
  | succ turns ih =>
      rw [observerChannelMessage]
      cases contexts.subscribe with
      | none => exact ⟨trivial, fun _ => trivial⟩
      | some context =>
          refine (inService_observe context).bind fun more => ?_
          cases more with
          | true => exact ih
          | false => exact ⟨trivial, fun _ => trivial⟩

/-! ## All threads of a process -/

/-- The calls of the I/O threads, and the observer's thread for some of its turns. -/
inductive Job where
  | publish (thread : ℕ) (channel : ℤ) (message : String)
  | subscribe (thread turns : ℕ) (channel : ℤ)
  | unsubscribe (thread turns : ℕ) (channel : ℤ)
  | isConnected (thread : ℕ)
  | observer (turns : ℕ)

inductive Thread where
  | io (n : ℕ)
  | observer
deriving DecidableEq, Repr

def Job.thread : Job → Thread
  | publish thread _ _ | subscribe thread _ _ | unsubscribe thread _ _ | isConnected thread =>
      .io thread
  | observer _ => .observer

def Job.body (contexts : Contexts) : Job → Program Unit
  | publish _ channel message => do
      let _ ← Redis.publish contexts channel message
  | subscribe _ turns channel => do
      let _ ← Redis.subscribe contexts turns channel
  | unsubscribe _ turns channel => do
      let _ ← Redis.unsubscribe contexts turns channel
  | isConnected _ => do
      let _ ← Redis.isConnected contexts
  | observer turns => observerChannelMessage contexts turns

/-- The threads of a process after `connect`; hiredis and the Redis server may answer
anything. The calls of two threads may overlap in time, also on the same context, since no lock
keeps them apart; the history has the order in which they return. -/
def process (contexts : Contexts) : Machine Unit Job Thread Call Call.Answer where
  agent := Job.thread
  body := Job.body contexts
  starts := fun _ _ _ => True
  performs := fun _ _ _ _ _ => True
  aborts := fun _ _ _ => False
  disturbs := fun _ _ => False
  admits := fun _ _ => True

section Process
variable {ok : Bool} {contexts : Contexts} {before : List (Event Call Call.Answer)}
  {x : Config Unit Job Thread Call Call.Answer} {es : List (Entry Job Call Call.Answer)}

theorem keeps_body (j : Job) : Keeps (fun h => h ∈ contexts.handles) [] (j.body contexts) := by
  cases j with
  | publish _ channel message => exact (keeps_publish channel message).bind fun _ => rfl
  | subscribe _ turns channel =>
      exact (keeps_sendSubscribeCommand turns "SUBSCRIBE" channel).bind fun _ => rfl
  | unsubscribe _ turns channel =>
      exact (keeps_sendSubscribeCommand turns "UNSUBSCRIBE" channel).bind fun _ => rfl
  | isConnected _ => exact keeps_isConnected.bind fun _ => rfl
  | observer turns => exact keeps_observerChannelMessage turns

/-- What `connect` leaves behind, whatever it is answered. -/
theorem runs_connect (h : connect.Runs handles.answers [] (ok, contexts) before) :
    handles.Safe before ∧ (∀ h, h ∈ contexts.handles ↔ handles.Live h before) ∧
      contexts.publish.isSome = ok ∧ contexts.subscribe.isSome = ok := by
  have hnone : ∀ h, h ∈ ([] : List Handle) ↔ handles.Live h [] := by simp [Interface.Live]
  rcases Interface.safe_of_runs disciplined_connect .nil hnone .nil h with
    ⟨hsafe, held, ⟨hheld, hpublish, hsubscribe⟩, hlive⟩
  rw [hheld] at hlive
  exact ⟨hsafe, hlive, hpublish, hsubscribe⟩

theorem governed (h : connect.Runs handles.answers [] (ok, contexts) before) :
    Interface.Governed handles (process contexts) (fun h => h ∈ contexts.handles) before := by
  rcases runs_connect h with ⟨hsafe, hlive, -⟩
  exact ⟨keeps_body, fun _ _ _ h => h, hsafe, fun h hh => (hlive h).mp hh⟩

/-- How often a thread has been given a handle, and has freed it. -/
def givenTo (contexts : Contexts) (a : Thread) (h : Handle)
    (past : List (Entry Job Call Call.Answer)) : ℕ :=
  handles.givenTo (process contexts) a h past

def freedBy (contexts : Contexts) (a : Thread) (h : Handle)
    (past : List (Entry Job Call Call.Answer)) : ℕ :=
  handles.freedBy (process contexts) a h past

/-- A thread uses the contexts that `connect` has left and what it has been given more often
than it has freed it; it frees only the latter, and never a context. -/
structure GivesBack (contexts : Contexts) (past : List (Entry Job Call Call.Answer)) : Prop where
  uses : ∀ newer j c r older, past = newer ++ .did j c r :: older → ∀ h ∈ uses c,
    freedBy contexts j.thread h older < givenTo contexts j.thread h older ∨ h ∈ contexts.handles
  frees : ∀ newer j c r older, past = newer ++ .did j c r :: older → ∀ h, frees c = some h →
    freedBy contexts j.thread h older < givenTo contexts j.thread h older ∧
      ∃ reply, h = .reply reply

theorem inService_body (j : Job) : (j.body contexts).All Call.InService := by
  have haside : ∀ {p : Program Unit}, p.All Call.Aside → p.All Call.InService :=
    fun hp => hp.mono fun _ => Call.Aside.inService
  cases j with
  | publish _ channel message =>
      exact haside ((aside_publish contexts channel message).bind fun _ => trivial)
  | subscribe _ turns channel =>
      exact haside
        ((aside_sendSubscribeCommand contexts turns "SUBSCRIBE" channel).bind fun _ => trivial)
  | unsubscribe _ turns channel =>
      exact haside
        ((aside_sendSubscribeCommand contexts turns "UNSUBSCRIBE" channel).bind fun _ => trivial)
  | isConnected _ => exact haside ((aside_isConnected contexts).bind fun _ => trivial)
  | observer turns => exact inService_observerChannelMessage contexts turns

theorem reply_of_frees {c : Call} {h : Handle} (hc : c.InService) (hfrees : frees c = some h) :
    ∃ reply, h = .reply reply := by
  cases c with
  | redisFree => exact hc.elim
  | freeReplyObject reply => exact ⟨reply, (Option.some.inj hfrees).symm⟩
  | _ => cases hfrees

theorem givesBack (hconnect : connect.Runs handles.answers [] (ok, contexts) before)
    (hrun : Steps (process contexts) (Config.initial ()) es x) :
    GivesBack contexts x.view.past := by
  have hgoverned := governed hconnect
  constructor
  · intro newer j c r older hpast
    exact (hgoverned.held_of_did hrun hpast).1
  · intro newer j c r older hpast h hfrees
    have hmem : .did j c r ∈ x.view.past := by
      rw [hpast]
      simp
    exact ⟨(hgoverned.held_of_did hrun hpast).2 h hfrees,
      reply_of_frees ((hrun.did_all inService_body).1 j c r hmem) hfrees⟩

/-- What is open when nothing but the two contexts is. -/
def OnlyContexts (ok : Bool) (contexts : Contexts) (past : List (Event Call Call.Answer)) : Prop :=
  ∀ h, handles.Live h past ↔ ok = true ∧ ∃ context, h = .context context ∧
    (contexts.publish = some context ∨ contexts.subscribe = some context)

theorem onlyContexts_of_handles (hconnect : connect.Runs handles.answers [] (ok, contexts) before)
    {past : List (Event Call Call.Answer)} (h : ∀ h, handles.Live h past ↔ h ∈ contexts.handles) :
    OnlyContexts ok contexts past := by
  rcases runs_connect hconnect with ⟨-, -, hpublish, hsubscribe⟩
  intro handle
  rw [h, mem_handles]
  cases ok with
  | true => simp
  | false =>
      rw [Option.isSome_eq_false_iff, Option.isNone_iff_eq_none] at hpublish hsubscribe
      simp [hpublish, hsubscribe]

/-- What `connect` leaves open is the two contexts, or nothing when it fails. In every run of
the threads after it, whatever they are answered, each thread frees what it has been given as
often as it has been given it, before it comes to rest, uses it only in between, and frees no
context. So if no reply is given twice, no context and no reply is used after it has been
freed or freed twice, and between the calls nothing is open but the two contexts. -/
theorem redis_handles_safe (hconnect : connect.Runs handles.answers [] (ok, contexts) before)
    (hrun : Steps (process contexts) (Config.initial ()) es x) :
    handles.Safe before ∧ OnlyContexts ok contexts before ∧ GivesBack contexts x.view.past ∧
      (∀ a, (x.slot a).Idle → ∀ h,
        freedBy contexts a h x.view.past = givenTo contexts a h x.view.past) ∧
      (handles.FreshAnswers before x.view.past →
        handles.Safe (Interface.commands x.view.past ++ before) ∧
          ((∀ a, (x.slot a).Idle) →
            OnlyContexts ok contexts (Interface.commands x.view.past ++ before))) := by
  have hgoverned := governed hconnect
  rcases runs_connect hconnect with ⟨hsafe, hlive, -⟩
  refine ⟨hsafe, onlyContexts_of_handles hconnect fun h => (hlive h).symm, givesBack hconnect hrun,
    fun a hidle => hgoverned.freed_of_idle hrun hidle, fun hfresh => ?_⟩
  have hledger := hgoverned.ledger hrun hfresh
  refine ⟨hledger.safe, fun hidle => onlyContexts_of_handles hconnect fun h => ?_⟩
  constructor
  · intro hh
    exact (hlive h).mpr (hgoverned.live_of_idle hrun hfresh hidle hh)
  · exact hledger.lent_live h

section History
variable (hconnect : connect.Runs handles.answers [] (ok, contexts) before)
  (hrun : Steps (process contexts) (Config.initial ()) es x)
  (hfresh : handles.FreshAnswers before x.view.past)
  {newer older : List (Event Call Call.Answer)} {e : Event Call Call.Answer} {h : Handle}
  (hpast : Interface.commands x.view.past ++ before = newer ++ e :: older)
include hconnect hrun hfresh hpast

/-- No context and no reply is freed twice. -/
theorem freed_once (hfrees : handles.frees e.1 = some h) :
    ¬ handles.Freed h newer ∧ ¬ handles.Freed h older :=
  ((governed hconnect).ledger hrun hfresh).safe.freed_once hpast hfrees

/-- Whatever is used has been opened and has not been freed. -/
theorem open_when_used (huses : h ∈ handles.uses e.1) : handles.Live h older :=
  ((governed hconnect).ledger hrun hfresh).safe.live_of_used hpast huses

end History
end Process

/-! ## A process that is always answered -/

/-- An answer that opens handle `n` if it opens one. -/
def answer (n : ℕ) : (c : Call) → c.Answer
  | .getenv _ => none
  | .redisConnectWithTimeout _ _ => some n
  | .err _ => false
  | .errstr _ => ()
  | .redisFree _ => ()
  | .redisCommand _ _ _ => some n
  | .redisAppendCommand _ _ _ => true
  | .redisBufferWrite _ => some true
  | .redisGetReply _ => some (some n)
  | .reply _ => push 7 "hi"
  | .freeReplyObject _ => ()
  | .notifyMessageHandler _ _ => true
  | .connected => true
  | .setConnected _ => ()

/-- Nothing that the command opens has been opened before. -/
def isFresh (e : Event Call Call.Answer) (past : List (Event Call Call.Answer)) : Bool :=
  (opens e.1 e.2).all fun h => past.all fun f => decide (opens f.1 f.2 ≠ some h)

theorem fresh_of_isFresh {e : Event Call Call.Answer} {past : List (Event Call Call.Answer)}
    (h : isFresh e past = true) : handles.Fresh e past := by
  intro handle hopens hbefore
  rcases hbefore with ⟨f, hf, hsame⟩
  change opens e.1 e.2 = some handle at hopens
  rw [isFresh, hopens, Option.all_some, List.all_eq_true] at h
  exact of_decide_eq_true (h f hf) hsame

/-- Every answer in the history opens something new, or nothing. -/
def areFresh (before : List (Event Call Call.Answer)) : List (Entry Job Call Call.Answer) → Bool
  | [] => true
  | .did _ c r :: past => isFresh ⟨c, r⟩ (Interface.commands past ++ before) && areFresh before past
  | _ :: past => areFresh before past

theorem freshAnswers_of_areFresh {before : List (Event Call Call.Answer)}
    {past : List (Entry Job Call Call.Answer)} (h : areFresh before past = true) :
    handles.FreshAnswers before past := by
  intro newer j c r older hpast
  subst hpast
  induction newer with
  | nil => exact fresh_of_isFresh (Bool.and_eq_true_iff.mp h).1
  | cons e newer ih =>
      apply ih
      cases e with
      | did => exact (Bool.and_eq_true_iff.mp h).2
      | _ => exact h

def replayer (contexts : Contexts) : Replayer (process contexts) ℕ where
  start? := fun _ s => some s
  perform? := fun n _ c s => some (answer n c, s)
  admit? := fun _ _ => true
  start_sound := fun _ => trivial
  perform_sound := fun _ => trivial
  admit_sound := fun _ => trivial

/-- The commands of a `connect` that succeeds. -/
def connecting : List (Event Call Call.Answer) :=
  [⟨.setConnected true, ()⟩, ⟨.getenv "CHAT_REDIS_DB", none⟩,
    ⟨.getenv "CHAT_REDIS_PASSWORD", none⟩, ⟨.err 1, false⟩,
    ⟨.redisConnectWithTimeout "127.0.0.1" 6379, some 1⟩, ⟨.getenv "CHAT_REDIS_DB", none⟩,
    ⟨.getenv "CHAT_REDIS_PASSWORD", none⟩, ⟨.err 0, false⟩,
    ⟨.redisConnectWithTimeout "127.0.0.1" 6379, some 0⟩, ⟨.getenv "CHAT_REDIS_PORT", none⟩,
    ⟨.getenv "CHAT_REDIS_HOST", none⟩]

def connecting? (c : Call) (past : List (Event Call Call.Answer)) :
    Option (c.Answer × List (Event Call Call.Answer)) :=
  let r := answer (past.countP fun e => (opens e.1 e.2).isSome) c
  if isFresh ⟨c, r⟩ past then some (r, ⟨c, r⟩ :: past) else none

theorem runs_connecting :
    connect.Runs handles.answers [] (true, ⟨some 0, some 1⟩) connecting := by
  refine Prog.runs_of_eval? (f := connecting?) (fun c past r past' h => ?_) rfl
  rw [connecting?] at h
  split_ifs at h with hfresh
  cases h
  exact ⟨fresh_of_isFresh hfresh, rfl⟩

/-- A publication, and the observer that gets the message. -/
def publishing : List (Cue Job Thread ℕ) :=
  [.start (.publish 0 7 "hi"), .act (.io 0) 0, .start (.observer 1), .act (.io 0) 2,
    .act .observer 3, .act (.io 0) 0, .act .observer 0, .act .observer 0, .act (.io 0) 0,
    .act .observer 0]

theorem redis_handles_safe_publish :
    ∃ x es, Steps (process ⟨some 0, some 1⟩) (Config.initial ()) es x ∧
      freedBy ⟨some 0, some 1⟩ (.io 0) (.reply 2) x.view.past = 1 ∧
      GivesBack ⟨some 0, some 1⟩ x.view.past ∧
      handles.Safe (Interface.commands x.view.past ++ connecting) ∧
        handles.Live (.context 0) (Interface.commands x.view.past ++ connecting) := by
  rcases (replayer ⟨some 0, some 1⟩).exists_steps_idle
    (x := Config.initial ()) (fun _ => trivial) publishing
    (p := fun x => areFresh connecting x.view.past && decide
      (givenTo ⟨some 0, some 1⟩ (.io 0) (.reply 2) x.view.past = 1)) (by decide +kernel) with
    ⟨es, x, hrun, hidle, hpast⟩
  rcases Bool.and_eq_true_iff.mp hpast with ⟨hfresh, hgiven⟩
  rcases redis_handles_safe runs_connecting hrun with ⟨-, -, hgives, hfreed, hrest⟩
  rcases hrest (freshAnswers_of_areFresh hfresh) with ⟨hsafe, honly⟩
  refine ⟨x, es, hrun, (hfreed _ (hidle _) _).trans (of_decide_eq_true hgiven), hgives, hsafe, ?_⟩
  exact (honly hidle _).mpr ⟨rfl, 0, rfl, .inl rfl⟩

/-- Two threads publish at the same time and are given the same reply. -/
def sharing : List (Cue Job Thread ℕ) :=
  [.start (.publish 0 7 "hi"), .start (.publish 1 7 "hi"), .act (.io 0) 0, .act (.io 1) 0,
    .act (.io 0) 2, .act (.io 1) 2, .act (.io 0) 0, .act (.io 1) 0, .act (.io 0) 0, .act (.io 1) 0]

/-- The two latest commands free the same handle. -/
def freesAgain (h : Handle) : List (Event Call Call.Answer) → Bool
  | e :: f :: _ => decide (frees e.1 = some h ∧ frees f.1 = some h)
  | _ => false

/-- Where a reply is given to two threads, which hiredis does not exclude for a context that
both of them use at a time, both free it. -/
theorem freed_twice : ∃ x es, Steps (process ⟨some 0, some 1⟩) (Config.initial ()) es x ∧
    ¬ handles.Safe (Interface.commands x.view.past ++ connecting) := by
  rcases (replayer ⟨some 0, some 1⟩).exists_steps (x := Config.initial ()) sharing
    (p := fun x => freesAgain (.reply 2) (Interface.commands x.view.past)) (by decide +kernel) with
    ⟨es, x, hrun, hx⟩
  refine ⟨x, es, hrun, fun hsafe => ?_⟩
  rw [freesAgain.eq_def] at hx
  split at hx
  · next e f rest hpast =>
    rcases of_decide_eq_true hx with ⟨he, hf⟩
    rw [hpast] at hsafe
    have hlatest : e :: f :: rest ++ connecting = [] ++ e :: (f :: rest ++ connecting) := rfl
    exact (hsafe.freed_once hlatest he).2 ⟨f, by simp, hf⟩
  · cases hx

end ChatCluster.Redis
