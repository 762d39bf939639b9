import ChatCluster.Conversation

/-!
# When the main thread gets past `sem_wait`

The main thread waits whether or not its request has gone out. A request that has not gone
out is waited for without end. One that has gone out is waited for until its answer has been
read, and no wake-up is lost.
-/
namespace ChatCluster
open CommandProgram Interleaving
open ChatCluster.Parser

/-- The request that the main thread is about to send, and where it then waits. -/
def Client.MainThread.asking : Client.MainThread → Option (Json × Client.MainThread)
  | .sendLogin id pwd => some (Client.loginRequest id pwd, .awaitLogin id pwd)
  | .sendReg name pwd => some (Client.regRequest name pwd, .awaitReg name pwd)
  | _ => none

/-- What the client has sent is handled and what it has been sent is read, and no handler of
its requests has been stopped. -/
structure Conversation.Quiet (conn : Conn) (c : Conversation) : Prop where
  arrived : (jobsOn conn c.cluster.view.past).map Job.request = c.client.sent
  handled : (c.cluster.slot (.io conn)).Idle
  finished : ∀ j, .aborted j ∈ c.cluster.view.past → j.agent ≠ .io conn
  read : c.client.received = (c.cluster.view.state.out conn).length
  reader : c.client.reader = .receiving

namespace Client
variable {lines : List Sent} {s s' : Threads} {js : Json} {m m' : MainThread} {ok : Bool}

theorem MainThread.asks_of_asking (h : m.asking = some (js, m')) :
    m.awaits = none ∧ m'.awaits = some js ∧ js.asks = true := by
  cases m with
  | sendLogin id pwd =>
      cases h
      exact ⟨rfl, rfl, asks_loginRequest ..⟩
  | sendReg name pwd =>
      cases h
      exact ⟨rfl, rfl, asks_regRequest ..⟩
  | _ => cases h

theorem MainStep.of_asking (hmain : s.main.asking = some (js, m)) (hsend : Sends js s ok s') :
    MainStep s { s' with main := m } := by
  cases hat : s.main with
  | sendLogin id pwd =>
      rw [hat] at hmain
      cases hmain
      exact .sendLogin hat hsend
  | sendReg name pwd =>
      rw [hat] at hmain
      cases hmain
      exact .sendReg hat hsend
  | _ =>
      rw [hat] at hmain
      cases hmain

/-- A main thread that waits can only pass `sem_wait`. -/
theorem MainStep.of_awaits (h : MainStep s s') (hawaits : s.main.awaits = some js) :
    0 < s.rwsem ∧ s'.main ≠ s.main := by
  cases h with
  | waitLogin hmain hsem | waitReg hmain hsem => exact ⟨hsem, by simp [hmain]⟩
  | login _ _ hmain | reg _ _ hmain | enter hmain =>
      rw [hmain] at hawaits
      cases hawaits
  | sendLogin hmain | succeeded hmain | failed hmain | command hmain | loginout hmain
  | leave hmain | sendReg hmain =>
      rw [hmain] at hawaits
      cases hawaits

variable [JsonParser] {waits : ℕ}

/-- The receive thread asks for nothing. -/
theorem ReadStep.filter_sent (h : ReadStep lines s s')
    (hacks : ∀ ack ∈ s.reader.acks, msgType? ack = some .msgAck) :
    s'.main = s.main ∧ s'.sent.filter Json.asks = s.sent.filter Json.asks := by
  cases h with
  | ack hreader hsend | greet hreader hsend =>
      rw [hreader] at hacks
      have hsent := hsend.filter_sent (asks_of_msgAck (hacks _ List.mem_cons_self))
      rcases hsend.eq with ⟨sent, torn, rfl, -⟩
      exact ⟨rfl, hsent⟩
  | _ => exact ⟨rfl, rfl⟩

omit [JsonParser] in
/-- The heartbeat thread asks for nothing that is waited for. -/
theorem BeatStep.filter_sent (h : BeatStep s s') :
    s'.main = s.main ∧ s'.sent.filter Json.asks = s.sent.filter Json.asks := by
  cases h with
  | send hbuilt hsend =>
      have hsent := hsend.filter_sent (asks_heartbeatRequest _)
      rcases hsend.eq with ⟨sent, torn, rfl, -⟩
      exact ⟨rfl, hsent⟩
  | _ => exact ⟨rfl, rfl⟩

end Client

section Runs
variable [Strtod] {db : Database} {conn : Conn} {c c' : Conversation}

/-- `n` of the requests that the client has sent have not been waited for to the end. -/
def Outstanding (conn : Conn) (n : ℕ) (c : Conversation) : Prop :=
  ∃ waits, Client.Paired (c.cluster.view.state.out conn) c.client waits ∧
    (c.client.sent.filter Json.asks).length = waits + n

theorem Sound.outstanding_cluster {s : Client.Threads} {x y : ClusterConfig} {e : ClusterEntry}
    {n : ℕ} (hc : Sound conn db ⟨s, x⟩) (h : Interleaving.Step hostileCluster x e y)
    (hn : Outstanding conn n ⟨s, x⟩) : Outstanding conn n ⟨s, y⟩ := by
  rcases hn with ⟨waits, hpaired, hlength⟩
  rcases hc.run with ⟨es, hrun⟩
  rcases sendsOn_cons conn e x.view.past with ⟨more, hmore⟩
  have hout : y.view.state.out conn = x.view.state.out conn ++ more.map Prod.snd := by
    rw [out_sendsOn (hrun.step h), h.moves.recorded, hmore, List.map_append, out_sendsOn hrun]
  refine ⟨waits, ?_, hlength⟩
  change Client.Paired (y.view.state.out conn) s waits
  rw [hout]
  exact hpaired.append _

/-- While the main thread stays at its wait, nothing more is asked or waited for. -/
theorem Conversation.Beside.outstanding {n : ℕ} {js : Json} (h : Conversation.Beside conn c c')
    (hc : Sound conn db c) (hawaits : c.client.main.awaits = some js)
    (hn : Outstanding conn n c) : Outstanding conn n c' := by
  rcases h with ⟨hstep, hmain⟩
  cases hstep with
  | @client s s' x hstep =>
      rcases hn with ⟨waits, hpaired, hlength⟩
      change Client.Paired _ s waits at hpaired
      cases hstep with
      | main h => exact absurd hmain (h.of_awaits hawaits).2
      | reader h =>
          refine ⟨waits, h.paired hpaired, ?_⟩
          change (s'.sent.filter Json.asks).length = _
          rw [(h.filter_sent hpaired.acks).2]
          exact hlength
      | heartbeat h =>
          refine ⟨waits, h.paired hpaired, ?_⟩
          change (s'.sent.filter Json.asks).length = _
          rw [h.filter_sent.2]
          exact hlength
  | cluster hstep => exact hc.outstanding_cluster hstep hn

variable [LawfulStrtod]

/-- Outside of its waits the main thread has waited for all that it has sent. -/
theorem Sound.outstanding_zero (hc : Sound conn db c) (hawaits : c.client.main.awaits = none) :
    Outstanding conn 0 c := by
  rcases hc.paired with ⟨waits, hpaired⟩
  have htotal := hc.posts_le
  have hposted := hpaired.posted
  have hasks := asks_le hpaired
  have hwaiting : c.client.main.waiting = 0 := by simp [Client.MainThread.waiting, hawaits]
  rw [← List.take_append_drop c.client.received (c.cluster.view.state.out conn),
    List.countP_append] at htotal
  exact ⟨waits, hpaired, by omega⟩

/-- When everything sent has been waited for, the semaphore is not posted any more. -/
theorem Sound.rwsem_of_outstanding_zero (hc : Sound conn db c) (hzero : Outstanding conn 0 c) :
    c.client.rwsem = 0 := by
  rcases hzero with ⟨waits, hpaired, hlength⟩
  have htotal := hc.posts_le
  have hposted := hpaired.posted
  rw [← List.take_append_drop c.client.received (c.cluster.view.state.out conn),
    List.countP_append] at htotal
  omega

/-- The main thread has tried to send its request and begins to wait. -/
theorem Conversation.Reached.asked {js : Json} {m : Client.MainThread} {ok : Bool}
    {s' : Client.Threads} {n : ℕ} (h : Conversation.Reached conn db c)
    (hmain : c.client.main.asking = some (js, m)) (hsend : Client.Sends js c.client ok s')
    (hn : s'.sent.length = c.client.sent.length + n) :
    Conversation.Reached conn db ⟨{ s' with main := m }, c.cluster⟩ ∧
      Outstanding conn n ⟨{ s' with main := m }, c.cluster⟩ := by
  rcases Client.MainThread.asks_of_asking hmain with ⟨hnone, hawaits, hasks⟩
  rcases Conversation.Reached.sound h |>.outstanding_zero hnone with ⟨waits, hpaired, hlength⟩
  have hpaired' := hpaired.asks hnone hsend hawaits hasks
  refine ⟨h.tail (.client (.main (.of_asking hmain hsend))), waits, hpaired', ?_⟩
  change (s'.sent.filter Json.asks).length = _
  rcases hsend.eq with ⟨sent, torn, rfl, rfl | rfl⟩
  · have hnil : n = 0 := Nat.left_eq_add.mp hn
    rw [hnil]
    exact hlength
  · have hone : n = 1 := by simpa using hn.symm
    rw [hone, List.filter_append, List.length_append, hlength]
    simp [hasks]

/-- A login or registration whose frame has not gone out as a line of its own blocks the main
thread for ever, whatever happens later. -/
theorem lost_request_blocks {js : Json} {m : Client.MainThread} {ok : Bool}
    {s' : Client.Threads} (h : Conversation.Reached conn db c)
    (hmain : c.client.main.asking = some (js, m)) (hsend : Client.Sends js c.client ok s')
    (hlost : s'.sent = c.client.sent)
    (hlater : Relation.ReflTransGen (Conversation.Step conn)
      ⟨{ s' with main := m }, c.cluster⟩ c') :
    c'.client.main = m ∧ c'.client.rwsem = 0 := by
  rcases Client.MainThread.asks_of_asking hmain with ⟨-, hawaits, -⟩
  rcases Conversation.Reached.asked h hmain hsend (n := 0) (congrArg List.length hlost) with
    ⟨hreached, hzero⟩
  have hblocked : Conversation.Reached conn db c' ∧ c'.client.main = m ∧ Outstanding conn 0 c' := by
    induction hlater with
    | refl => exact ⟨hreached, rfl, hzero⟩
    | @tail d d' _ hstep ih =>
        rcases ih with ⟨hd, hat, hzero⟩
        have hsound := Conversation.Reached.sound hd
        rw [← hat] at hawaits
        have hstay : d'.client.main = d.client.main := by
          cases hstep with
          | client hstep =>
              cases hstep with
              | main h =>
                  have hpositive := (h.of_awaits hawaits).1
                  have hnone := hsound.rwsem_of_outstanding_zero hzero
                  exact absurd hnone (Nat.pos_iff_ne_zero.mp hpositive)
              | reader h =>
                  rcases hzero with ⟨waits, hpaired, -⟩
                  exact (h.filter_sent hpaired.acks).1
              | heartbeat h => exact h.filter_sent.1
          | cluster => rfl
        have hbeside : Conversation.Beside conn d d' := ⟨hstep, hstay⟩
        exact ⟨hd.tail hstep, hstay.trans hat, hbeside.outstanding hsound hawaits hzero⟩
  rcases hblocked with ⟨hreached', hat, hzero'⟩
  exact ⟨hat, (Conversation.Reached.sound hreached').rwsem_of_outstanding_zero hzero'⟩

/-- When a login or registration has gone out and everything is handled and read while the
main thread waits, the semaphore has been posted: the wake-up does not get lost. -/
theorem sent_request_wakes {js : Json} {m : Client.MainThread} {ok : Bool}
    {s' : Client.Threads} (h : Conversation.Reached conn db c)
    (hmain : c.client.main.asking = some (js, m)) (hsend : Client.Sends js c.client ok s')
    (hsent : s'.sent = c.client.sent ++ [js])
    (hlater : Relation.ReflTransGen (Conversation.Beside conn)
      ⟨{ s' with main := m }, c.cluster⟩ c') (hquiet : c'.Quiet conn) :
    c'.client.rwsem = 1 := by
  rcases Client.MainThread.asks_of_asking hmain with ⟨-, hawaits, -⟩
  have hlength : s'.sent.length = c.client.sent.length + 1 := by simp [hsent]
  rcases Conversation.Reached.asked h hmain hsend hlength with ⟨hreached, hone⟩
  have hwaiting : Conversation.Reached conn db c' ∧ c'.client.main = m ∧ Outstanding conn 1 c' := by
    clear hquiet
    induction hlater with
    | refl => exact ⟨hreached, rfl, hone⟩
    | @tail d d' _ hbeside ih =>
        rcases ih with ⟨hd, hat, hone⟩
        rw [← hat] at hawaits
        have hone' := hbeside.outstanding (Conversation.Reached.sound hd) hawaits hone
        exact ⟨hd.tail hbeside.1, hbeside.2.trans hat, hone'⟩
  rcases hwaiting with ⟨hreached', -, waits, hpaired, hcount⟩
  have hsound := Conversation.Reached.sound hreached'
  rcases hsound.run with ⟨es, hrun⟩
  have hanswered := posted_of_idle hrun hsound.parsed hquiet.handled hquiet.finished
  have htotal := congrArg List.length hanswered
  rw [List.length_map, ← List.countP_eq_length_filter, hquiet.arrived, hcount] at htotal
  have hposted := hpaired.posted
  rw [hquiet.read, List.take_length, hquiet.reader, out_sendsOn hrun, List.countP_map] at hposted
  have hbusy : waits + 1 = waits + c'.client.rwsem + 0 := htotal.symm.trans hposted
  omega

end Runs

/-- The socket refuses the login's frame. -/
theorem lost_request_blocks_ann : (letI : Strtod := Parser.noDoubles
    let c : Conversation := ⟨{ Client.Threads.start with main := .awaitLogin 1 "pw" },
      Config.initial chatWorld⟩
    Conversation.Reached ⟨0, 0⟩ (Statement.registered [("ann", "pw"), ("bob", "pw")]) c ∧
      ∀ c', Relation.ReflTransGen (Conversation.Step ⟨0, 0⟩) c c' →
        c'.client.main = .awaitLogin 1 "pw" ∧ c'.client.rwsem = 0) := by
  let _ := Parser.noDoubles
  have hmenu : Conversation.Reached ⟨0, 0⟩
      (Statement.registered [("ann", "pw"), ("bob", "pw")]) (.start _) := .refl
  have htyped := hmenu.tail (.client (.main (.login 1 "pw" rfl (by decide) (by decide))))
  have hasked := htyped.tail (.client (.main (.sendLogin rfl .refused)))
  exact ⟨hasked, fun c' hlater => lost_request_blocks htyped rfl .refused rfl hlater⟩

/-- The login has been answered, and the answer read. -/
theorem sent_request_wakes_ann : (letI : Strtod := Parser.noDoubles
    ∃ c : Conversation,
      Conversation.Reached ⟨0, 0⟩ (Statement.registered [("ann", "pw"), ("bob", "pw")]) c ∧
        c.client.main = .awaitLogin 1 "pw" ∧ c.client.rwsem = 1) := by
  let _ := Parser.noDoubles
  rcases exists_greeted with ⟨x, response, current, h⟩
  have hmenu : Conversation.Reached ⟨0, 0⟩
      (Statement.registered [("ann", "pw"), ("bob", "pw")]) (.start _) := .refl
  have htyped := hmenu.tail (.client (.main (.login 1 "pw" rfl (by decide) (by decide))))
  have hline : (x.view.state.out ⟨0, 0⟩)[0]? = some (.json response) := by
    rw [h.out]
    rfl
  have hread := h.beside.tail ⟨.client (.reader
    (.accepted rfl hline h.parsed h.msgid h.errno h.current)), rfl⟩
  have hgreeted := hread.tail ⟨.client (.reader (.greeted rfl)), rfl⟩
  have hposted := hgreeted.tail ⟨.client (.reader (.post rfl)), rfl⟩
  have hreached := Conversation.Reached.beside reached_asked hposted
  refine ⟨_, hreached, rfl, sent_request_wakes htyped rfl (.whole rfl) rfl hposted ?_⟩
  exact ⟨h.jobs, h.handled, fun j hj => absurd hj (h.finished j), by rw [h.out]; rfl, rfl⟩

end ChatCluster
