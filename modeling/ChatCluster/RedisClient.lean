import ChatCluster.DecimalTexts
import ChatCluster.Library.Handles

/-!
# The Redis connections of a server process

The class `Redis` as programs over the calls of hiredis. A process has one object; its two
context pointers are set by `connect` and stay as they are while the process lives. Log lines
are left out, but not the reads of `errstr` they make.
-/
namespace ChatCluster.Redis
open CommandProgram Handles

/-- The contexts of a process, in the order in which they were opened. -/
abbrev ContextId := ℕ

abbrev ReplyId := ℕ

inductive ReplyType where
  | string | array | integer | nil | status | error
deriving DecidableEq, Repr

/-- What a `redisReply` holds; `none` stands for a null pointer. -/
inductive Reply where
  | mk (type : ReplyType) (str : Option String) (element : List (Option Reply))

namespace Reply

def type : Reply → ReplyType
  | mk type _ _ => type

def str : Reply → Option String
  | mk _ str _ => str

def element : Reply → List (Option Reply)
  | mk _ _ element => element

end Reply

/-- An argument of a command's format. -/
inductive Arg where
  | d (n : ℤ)
  | s (text : String)

/-- The word that hiredis sends for an argument; a `%s` is read as a C string. -/
def Arg.word : Arg → String
  | d n => decimalText n
  | s text => cStr text

/-- The calls of hiredis, the accesses to what their pointers point at, and the parts of the
object that change while other threads run. -/
inductive Call where
  | getenv (key : String)
  | redisConnectWithTimeout (host : String) (port : ℤ)
  | err (context : ContextId)
  | errstr (context : ContextId)
  | redisFree (context : ContextId)
  | redisCommand (context : ContextId) (format : String) (args : List Arg)
  | redisAppendCommand (context : ContextId) (format : String) (args : List Arg)
  | redisBufferWrite (context : ContextId)
  | redisGetReply (context : ContextId)
  | reply (reply : ReplyId)
  | freeReplyObject (reply : ReplyId)
  | notifyMessageHandler (channel : ℤ) (message : String)
  | connected
  | setConnected (connected : Bool)

/-- A command that fails gives no reply; `redisBufferWrite` tells whether it is done, or fails;
`redisGetReply` gives a reply, which may be null, or fails. Whether the handler had been
initialized is what its call tells. -/
def Call.Answer : Call → Type
  | getenv _ => Option String
  | redisConnectWithTimeout _ _ => Option ContextId
  | err _ => Bool
  | errstr _ => Unit
  | redisFree _ => Unit
  | redisCommand _ _ _ => Option ReplyId
  | redisAppendCommand _ _ _ => Bool
  | redisBufferWrite _ => Option Bool
  | redisGetReply _ => Option (Option ReplyId)
  | reply _ => Reply
  | freeReplyObject _ => Unit
  | notifyMessageHandler _ _ => Bool
  | connected => Bool
  | setConnected _ => Unit

abbrev Program := Prog Call Call.Answer

def call (c : Call) : Program c.Answer := Prog.perform c

/-! ## Settings -/

def getEnvOrDefault (key defaultValue : String) : Program String := do
  let value ← call (.getenv key)
  return match value with
    | none => defaultValue
    | some value => if value = "" then defaultValue else value

def getEnvIntOrDefault (key : String) (defaultValue : ℤ) : Program ℤ := do
  let value ← call (.getenv key)
  return match value with
    | none => defaultValue
    | some value =>
        if value = "" then defaultValue
        else if 0 < atoi value then atoi value else defaultValue

/-! ## Connecting -/

def connectContext (host : String) (port : ℤ) : Program (Option ContextId) := do
  let context ← call (.redisConnectWithTimeout host port)
  match context with
  | none => return none
  | some context => do
      let err : Bool ← call (.err context)
      if err then do
        call (.errstr context)
        call (.redisFree context)
        return none
      else
        return some context

/-- How `runStatusCommand` and `publish` end when there is a reply. -/
def takeStatus (reply : ReplyId) : Program Bool := do
  let content ← call (.reply reply)
  call (.freeReplyObject reply)
  return content.type != .error

def runStatusCommand (context : Option ContextId) (command arg : String) : Program Bool :=
  match context with
  | none => return false
  | some context => do
      let reply ← call (.redisCommand context command (if arg = "" then [] else [.s arg]))
      match reply with
      | none => do
          call (.errstr context)
          return false
      | some reply => takeStatus reply

def configureContext (context : Option ContextId) : Program Bool := do
  let password ← getEnvOrDefault "CHAT_REDIS_PASSWORD" ""
  let authenticated ←
    if password = "" then pure true else runStatusCommand context "AUTH %s" password
  if authenticated then do
    let db ← getEnvIntOrDefault "CHAT_REDIS_DB" 0
    if 0 < db then runStatusCommand context "SELECT %s" (decimalText db) else return true
  else
    return false

/-- The two pointers of a `Redis` object. -/
structure Contexts where
  publish : Option ContextId
  subscribe : Option ContextId
deriving DecidableEq, Repr

/-- The step that `connect` makes for each of its contexts. -/
def connectConfigured (host : String) (port : ℤ) : Program (Option ContextId) := do
  let context ← connectContext host port
  match context with
  | none => return none
  | some context => do
      let configured ← configureContext (some context)
      if configured then return some context
      else do
        call (.redisFree context)
        return none

/-- The observer's thread, which the last lines start, is a job of its own. -/
def connect : Program (Bool × Contexts) := do
  let host ← getEnvOrDefault "CHAT_REDIS_HOST" "127.0.0.1"
  let port ← getEnvIntOrDefault "CHAT_REDIS_PORT" 6379
  let publish ← connectConfigured host port
  match publish with
  | none => return (false, ⟨none, none⟩)
  | some publish => do
      let subscribe ← connectConfigured host port
      match subscribe with
      | none => do
          call (.redisFree publish)
          return (false, ⟨none, none⟩)
      | some subscribe => do
          call (.setConnected true)
          return (true, ⟨some publish, some subscribe⟩)

/-! ## The calls of the service -/

section Object
variable (contexts : Contexts)

def isConnected : Program Bool := do
  let connected : Bool ← call .connected
  if connected then
    match contexts.publish, contexts.subscribe with
    | some publish, some subscribe => do
        let err : Bool ← call (.err publish)
        if err then return false
        else do
          let err : Bool ← call (.err subscribe)
          return !err
    | _, _ => return false
  else
    return false

def publish (channel : ℤ) (message : String) : Program Bool :=
  match contexts.publish with
  | none => return false
  | some context => do
      let err : Bool ← call (.err context)
      if err then return false
      else do
        let reply ← call (.redisCommand context "PUBLISH %d %s" [.d channel, .s message])
        match reply with
        | none => do
            call (.errstr context)
            return false
        | some reply => takeStatus reply

/-- The loop over `redisBufferWrite`, as far as `turns` of its turns; `none` while it is not
done. -/
def writeBuffer (context : ContextId) : ℕ → Program (Option Bool)
  | 0 => return none
  | turns + 1 => do
      let done ← call (.redisBufferWrite context)
      match done with
      | none => do
          call (.errstr context)
          return some false
      | some true => return some true
      | some false => writeBuffer context turns

def sendSubscribeCommand (turns : ℕ) (command : String) (channel : ℤ) : Program (Option Bool) :=
  match contexts.subscribe with
  | none => return some false
  | some context => do
      let err : Bool ← call (.err context)
      if err then return some false
      else do
        let appended : Bool ← call (.redisAppendCommand context "%s %d" [.s command, .d channel])
        if appended then writeBuffer context turns else return some false

def subscribe (turns : ℕ) (channel : ℤ) : Program (Option Bool) :=
  sendSubscribeCommand contexts turns "SUBSCRIBE" channel

def unsubscribe (turns : ℕ) (channel : ℤ) : Program (Option Bool) :=
  sendSubscribeCommand contexts turns "UNSUBSCRIBE" channel

/-! ## The observer's thread -/

/-- `isMessageReply`, with the channel and the text that the handler is then called with. -/
def message? (reply : Reply) : Option (ℤ × String) :=
  match reply.type, reply.element with
  | .array, some kind :: some channel :: some text :: _ =>
      match kind.str, channel.str, text.str with
      | some kind, some channel, some text =>
          if cStr kind = "message" then some (atoi channel, cStr text) else none
      | _, _, _ => none
  | _, _ => none

/-- What Redis sends to a subscriber for `PUBLISH %d %s`. -/
def push (channel : ℤ) (message : String) : Reply :=
  .mk .array none [some (.mk .string (some "message") []),
    some (.mk .string (some (Arg.d channel).word) []),
    some (.mk .string (some (Arg.s message).word) [])]

/-- One turn of the loop, which tells whether the loop goes on. -/
def observe (context : ContextId) : Program Bool := do
  let answer ← call (.redisGetReply context)
  match answer with
  | none => return false
  | some none => return true
  | some (some reply) => do
      let content ← call (.reply reply)
      match message? content with
      | some (channel, text) => do
          let _ ← call (.notifyMessageHandler channel text)
          call (.freeReplyObject reply)
          return true
      | none => do
          call (.freeReplyObject reply)
          return true

/-- The loop of `observer_channel_message`, as far as `turns` of its turns. -/
def observerChannelMessage : ℕ → Program Unit
  | 0 => return ()
  | turns + 1 =>
      match contexts.subscribe with
      | none => call (.setConnected false)
      | some context => do
          let more ← observe context
          if more then observerChannelMessage turns else call (.setConnected false)

end Object
end ChatCluster.Redis
