import ChatCluster.Consumption

/-!
# Message ids

`generateMessageId` packs a clock reading, ten bits of the process id and ten bits of a
counter into one number. The calls of a run are read off its history: what a job has
been answered by the clock and by `getpid` is its memory until it takes the counter.
Every message is stored under the id of the latest call of its own job.
-/
namespace ChatCluster
open CommandProgram Interleaving

/-! ## The packed number -/

theorem composeMessageId_eq {now : ℕ} (h : now < 2 ^ 43) (pid seq : ℕ) :
    composeMessageId now pid seq =
      ((now * 2 ^ 20 + pid % 2 ^ 10 * 2 ^ 10 + seq % 2 ^ 10 : ℕ) : ℤ) := by
  have hpid : pid % 2 ^ 10 < 2 ^ 10 := Nat.mod_lt _ (by decide)
  have hseq : seq % 2 ^ 10 < 2 ^ 10 := Nat.mod_lt _ (by decide)
  have hlow : pid % 2 ^ 10 * 2 ^ 10 + seq % 2 ^ 10 < 2 ^ 20 := by omega
  have hsmall : pid % 2 ^ 10 * 2 ^ 10 < 2 ^ 64 :=
    (Nat.le_add_right _ _).trans_lt (hlow.trans (by decide))
  have hnat : (BitVec.ofNat 64 now <<< 20 ||| BitVec.ofNat 64 (pid % 2 ^ 10) <<< 10 |||
      BitVec.ofNat 64 (seq % 2 ^ 10)).toNat =
      now * 2 ^ 20 + pid % 2 ^ 10 * 2 ^ 10 + seq % 2 ^ 10 := by
    simp only [BitVec.toNat_or, BitVec.toNat_shiftLeft, BitVec.toNat_ofNat, Nat.shiftLeft_eq]
    have hnow₁ : now % 2 ^ 64 = now := Nat.mod_eq_of_lt (by omega)
    have hnow₂ : now * 2 ^ 20 % 2 ^ 64 = 2 ^ 20 * now := by omega
    have hpid₁ : pid % 2 ^ 10 % 2 ^ 64 = pid % 2 ^ 10 := Nat.mod_eq_of_lt (by omega)
    have hpid₂ : pid % 2 ^ 10 * 2 ^ 10 % 2 ^ 64 = 2 ^ 10 * (pid % 2 ^ 10) := by
      rw [Nat.mod_eq_of_lt hsmall, Nat.mul_comm]
    have hseq₁ : seq % 2 ^ 10 % 2 ^ 64 = seq % 2 ^ 10 := Nat.mod_eq_of_lt (by omega)
    rw [hnow₁, hnow₂, hpid₁, hpid₂, hseq₁, Nat.or_assoc, ← Nat.two_pow_add_eq_or_of_lt hseq,
      ← Nat.two_pow_add_eq_or_of_lt (by omega)]
    omega
  rw [composeMessageId, BitVec.toInt_eq_toNat_of_lt (by rw [hnat]; omega), hnat]

/-! ## Calls -/

/-- A call of `generateMessageId`: what the clock, `getpid` and the counter answered. -/
structure IdCall where
  now : ℕ
  pid : ℕ
  seq : ℕ
deriving DecidableEq, Repr

/-- What the call returns. -/
def IdCall.id (k : IdCall) : ℤ := composeMessageId k.now k.pid k.seq

/-- Two calls that the packed number cannot tell apart. -/
def IdCall.Collides (k l : IdCall) : Prop :=
  k.now = l.now ∧ k.pid % 2 ^ 10 = l.pid % 2 ^ 10 ∧ k.seq % 2 ^ 10 = l.seq % 2 ^ 10

instance (k l : IdCall) : Decidable (k.Collides l) := inferInstanceAs (Decidable (_ ∧ _))

theorem IdCall.id_eq_iff {k l : IdCall} (hk : k.now < 2 ^ 43) (hl : l.now < 2 ^ 43) :
    k.id = l.id ↔ k.Collides l := by
  rw [id, id, composeMessageId_eq hk, composeMessageId_eq hl, Int.ofNat_inj, Collides]
  omega

/-- For calls of one process the clock decides, and then the low bits of the counter. -/
theorem IdCall.id_lt_iff {k l : IdCall} (hk : k.now < 2 ^ 43) (hl : l.now < 2 ^ 43)
    (hpid : k.pid = l.pid) (hclock : k.now ≤ l.now) :
    k.id < l.id ↔ (k.now = l.now → k.seq % 2 ^ 10 < l.seq % 2 ^ 10) := by
  rw [id, id, composeMessageId_eq hk, composeMessageId_eq hl, hpid, Int.ofNat_lt]
  omega

/-- What a job knows on its way through `generateMessageId`, and the call whose id it has
not used yet. -/
structure IdMemory where
  now : Option ℕ := none
  pid : Option ℕ := none
  call : Option IdCall := none

def IdMemory.next (m : IdMemory) : (c : Command) → Response c → IdMemory
  | .node .clockNow, now => { m with now := some now }
  | .node .getpid, pid => { m with pid := some pid }
  | .node .fetchAddSeq, seq =>
      { m with call := m.now.bind fun now => m.pid.map fun pid => ⟨now, pid, seq⟩ }
  | .sql (.insertMessage _ _ _ _ _ _), _ => { m with call := none }
  | _, _ => m

def idMemory (a : Agent) (past : List ClusterEntry) : IdMemory :=
  memory Job.agent {} IdMemory.next a past

/-- The calls of a history, newest first. A call is complete when it has the counter. -/
def idCalls : List ClusterEntry → List IdCall
  | [] => []
  | .did j (.node .fetchAddSeq) seq :: past =>
      ((idMemory j.agent past).next (.node .fetchAddSeq) seq).call.toList ++ idCalls past
  | _ :: past => idCalls past

/-- A message is inserted under the id that the memory holds. -/
def InsertsOwn (m : IdMemory) : Command → Prop
  | .sql (.insertMessage messageid _ _ _ _ _) => ∃ k, m.call = some k ∧ k.id = messageid
  | _ => True

/-! ## Every handler inserts under its own id -/

section Tracked
variable {j : Job} {conn : Conn} {js : Json} {time : String} {m : IdMemory}

theorem tracked_generateMessageId : generateMessageId.Tracked IdMemory.next InsertsOwn
    (fun m' messageid => ∃ k, m'.call = some k ∧ k.id = messageid) m :=
  ⟨trivial, fun _ => ⟨trivial, fun _ => ⟨trivial, fun _ => ⟨_, rfl, rfl⟩⟩⟩⟩

theorem tracked_persistAndDeliver {messageid : ℤ} (senderid receiverid groupid : ℤ)
    (msgtype : EnMsgType) (h : ∃ k, m.call = some k ∧ k.id = messageid) :
    (persistAndDeliver messageid senderid receiverid groupid msgtype js).Tracked IdMemory.next
      InsertsOwn (fun _ _ => True) m := by
  refine ⟨h, fun stored => ?_⟩
  cases stored with
  | false => trivial
  | true =>
      refine ⟨trivial, fun _ => ⟨trivial, fun found => ?_⟩⟩
      cases found with
      | some receiver =>
          exact ⟨trivial, fun _ => ⟨trivial, fun _ => ⟨trivial, fun _ => trivial⟩⟩⟩
      | none =>
          refine ⟨trivial, fun _ => ⟨trivial, fun row => ?_⟩⟩
          change (if (User.ofRow row).state = .online then _ else _ : Program Unit).Tracked _ _ _ _
          split_ifs
          · refine ⟨trivial, fun connected => ?_⟩
            cases connected with
            | false => trivial
            | true => exact ⟨trivial, fun _ => trivial⟩
          · trivial

theorem tracked_oneChat : (oneChat conn js).Tracked IdMemory.next InsertsOwn
    (fun _ _ => True) m := by
  unfold oneChat
  split
  · refine ⟨trivial, fun bound => ?_⟩
    cases bound with
    | false => trivial
    | true =>
        exact tracked_generateMessageId.bind fun m' messageid h =>
          tracked_persistAndDeliver _ _ _ _ h
  · trivial

theorem tracked_groupChat : (groupChat conn js).Tracked IdMemory.next InsertsOwn
    (fun _ _ => True) m := by
  unfold groupChat
  split
  · refine ⟨trivial, fun bound => ?_⟩
    cases bound with
    | false => trivial
    | true =>
        refine ⟨trivial, fun members => ?_⟩
        refine Prog.Tracked.forM (I := fun _ => True) (fun id _ t _ => ?_) trivial
        exact tracked_generateMessageId.bind fun m' messageid h =>
          tracked_persistAndDeliver _ _ _ _ h
  · trivial

/-- A job that is no chat request inserts nothing. -/
theorem insertsOwn_of_storesAccepted {c : Command} (hc : StoresAccepted j c)
    (hj : ∀ messageid receiverid payload, ¬ j.Stores messageid receiverid payload) :
    InsertsOwn m c := by
  cases c with
  | sql q =>
      cases q with
      | insertMessage => exact absurd hc (hj _ _ _)
      | _ => trivial
  | _ => trivial

theorem tracked_body [JsonParser] (j : Job) :
    j.body.Tracked IdMemory.next InsertsOwn (fun _ _ => True) {} := by
  by_cases hj : ∀ messageid receiverid payload, ¬ j.Stores messageid receiverid payload
  · exact .of_all (D := StoresAccepted j) (I := fun _ => True)
      (fun _ _ hc _ => insertsOwn_of_storesAccepted hc hj) (fun _ _ _ _ _ => trivial)
      (storesAccepted_body j) trivial
  · cases j with
    | frame conn js time =>
        simp only [not_forall, not_not] at hj
        obtain ⟨messageid, receiverid, payload, hchat, -, -⟩ := hj
        rw [Job.body, onMessage_eq]
        obtain hmsg | hmsg := hchat.type
        · rw [hmsg]
          exact tracked_oneChat
        · rw [hmsg]
          exact tracked_groupChat
    | _ => exact absurd (fun _ _ _ h => h) hj

end Tracked

/-! ## Calls of a run -/

theorem idMemory_did {j : Job} (c : Command) (r : Response c) (a : Agent)
    (past : List ClusterEntry) : idMemory a (.did j c r :: past) =
      if j.agent = a then (idMemory a past).next c r else idMemory a past := rfl

theorem idCalls_subset (e : ClusterEntry) (past : List ClusterEntry) :
    idCalls past ⊆ idCalls (e :: past) := by
  cases e with
  | did j c r =>
      cases c with
      | node q =>
          cases q with
          | fetchAddSeq => exact List.subset_append_right _ _
          | _ => exact fun _ h => h
      | _ => exact fun _ h => h
  | _ => exact fun _ h => h

theorem idCalls_subset_append (newer older : List ClusterEntry) :
    idCalls older ⊆ idCalls (newer ++ older) := by
  induction newer with
  | nil => exact fun _ h => h
  | cons e newer ih => exact List.Subset.trans ih (idCalls_subset e _)

/-- The id in the memory of an agent has been returned by one of the calls. -/
theorem mem_idCalls {a : Agent} {k : IdCall} {past : List ClusterEntry}
    (h : (idMemory a past).call = some k) : k ∈ idCalls past := by
  induction past with
  | nil => cases h
  | cons e past ih =>
      cases e with
      | started j =>
          by_cases ha : j.agent = a
          · simp [idMemory, memory, ha] at h
          · exact ih (by simpa [idMemory, memory, ha] using h)
      | aborted j =>
          by_cases ha : j.agent = a
          · simp [idMemory, memory, ha] at h
          · exact ih (by simpa [idMemory, memory, ha] using h)
      | disturbed => exact ih h
      | did j c r =>
          rw [idMemory_did] at h
          have hcalls := idCalls_subset (.did j c r) past
          by_cases ha : j.agent = a
          · rw [if_pos ha] at h
            cases c with
            | node q =>
                cases q with
                | fetchAddSeq =>
                    subst ha
                    exact List.mem_append_left _ (Option.mem_toList.mpr h)
                | _ => exact hcalls (ih h)
            | sql q =>
                cases q with
                | insertMessage => cases h
                | _ => exact hcalls (ih h)
            | _ => exact hcalls (ih h)
          · rw [if_neg ha] at h
            exact hcalls (ih h)

/-- Every message is inserted under the id of a call of its own job. -/
theorem inserted_under_own_id [JsonParser] {E : Environment}
    {admits : ClusterView → ClusterEntry → Prop} {w : World} {es : List ClusterEntry}
    {x : ClusterConfig} (hrun : Steps (cluster E admits) (Config.initial w) es x)
    {newer older : List ClusterEntry} {j : Job}
    {messageid senderid receiverid groupid msgtype : ℤ} {payload : String} {stored : Bool}
    (hpast : x.view.past = newer ++ .did j (.sql (.insertMessage messageid senderid receiverid
      groupid msgtype payload)) stored :: older) :
    ∃ k, (idMemory j.agent older).call = some k ∧ k.id = messageid :=
  hrun.tracked (P := fun _ => InsertsOwn) (Q := fun _ => True) tracked_body trivial hpast

/-- In every run whose clock stays below `2 ^ 43` the ids are distinct exactly when no two
calls got the same clock reading in processes whose pids, and with counters whose values,
agree in the low ten bits. All messages are inserted under these ids. -/
theorem message_ids_distinct_iff [JsonParser] {w : World} {es : List ClusterEntry}
    {x : ClusterConfig} (hrun : Steps hostileCluster (Config.initial w) es x)
    (hclock : ∀ k ∈ idCalls x.view.past, k.now < 2 ^ 43) :
    (((idCalls x.view.past).map IdCall.id).Nodup ↔
      (idCalls x.view.past).Pairwise fun k l => ¬ k.Collides l) ∧
    ∀ j messageid senderid receiverid groupid msgtype payload stored,
      .did j (.sql (.insertMessage messageid senderid receiverid groupid msgtype payload)) stored ∈
        x.view.past → messageid ∈ (idCalls x.view.past).map IdCall.id := by
  constructor
  · rw [List.Nodup, List.pairwise_map]
    apply List.Pairwise.iff_of_mem
    intro k l hk hl
    exact not_congr (IdCall.id_eq_iff (hclock k hk) (hclock l hl))
  · intro j messageid senderid receiverid groupid msgtype payload stored hinsert
    obtain ⟨newer, older, hpast⟩ := List.append_of_mem hinsert
    obtain ⟨k, hk, rfl⟩ := inserted_under_own_id hrun hpast
    apply List.mem_map_of_mem
    rw [hpast]
    exact idCalls_subset_append _ _ (idCalls_subset _ _ (mem_idCalls hk))

/-- Users `1` and `2` log in on two nodes and write to one another at the times `t` and
`t'`. The process ids of the nodes are their numbers. -/
def exchangeCues (n t n' t' : ℕ) : List (Cue Job Agent Choice) :=
  .start (.frame ⟨n, 0⟩ (Client.loginRequest 1 "pw") "") ::
    List.replicate 10 (.act (.io ⟨n, 0⟩) {}) ++
  .start (.frame ⟨n', 0⟩ (Client.loginRequest 2 "pw") "") ::
    List.replicate 10 (.act (.io ⟨n', 0⟩) {}) ++
  .start (.frame ⟨n, 0⟩ (Client.chatRequest 1 "ann" 2 "hi" "now") "") ::
    List.replicate 5 (.act (.io ⟨n, 0⟩) { clockMs := t }) ++
  .start (.frame ⟨n', 0⟩ (Client.chatRequest 2 "bob" 1 "hi" "now") "") ::
    List.replicate 5 (.act (.io ⟨n', 0⟩) { clockMs := t' })

theorem message_ids_distinct : letI := Cluster.rejectAll
    ∃ es x, Steps hostileCluster (Config.initial chatWorld) es x ∧
      (idCalls x.view.past).length = 2 ∧ ((idCalls x.view.past).map IdCall.id).Nodup := by
  let _ := Cluster.rejectAll
  obtain ⟨es, x, hrun, hx⟩ := hostileReplayer.exists_steps (x := Config.initial chatWorld)
    (exchangeCues 1 5 1025 6)
    (p := fun x => idCalls x.view.past = [⟨6, 1025, 0⟩, ⟨5, 1, 0⟩]) (by decide +kernel)
  have hcalls := of_decide_eq_true hx
  refine ⟨es, x, hrun, by rw [hcalls]; rfl, ?_⟩
  apply ((message_ids_distinct_iff hrun ?_).1).mpr
  · rw [hcalls]
    decide
  · rw [hcalls]
    decide

/-- Some message has been refused by the table. -/
def anyRefused (past : List ClusterEntry) : Bool :=
  past.any fun
    | .did _ (.sql (.insertMessage _ _ _ _ _ _)) stored => !(stored : Bool)
    | _ => false

/-- Two processes whose ids agree in the low ten bits return the same id in one
millisecond, and the second message is refused. -/
theorem message_ids_collide : letI := Cluster.rejectAll
    ∃ es x, Steps hostileCluster (Config.initial chatWorld) es x ∧
      (∀ k ∈ idCalls x.view.past, k.now < 2 ^ 43) ∧
      (idCalls x.view.past).Pairwise (fun later earlier => earlier.now ≤ later.now) ∧
      ¬ ((idCalls x.view.past).map IdCall.id).Nodup ∧ anyRefused x.view.past = true := by
  let _ := Cluster.rejectAll
  obtain ⟨es, x, hrun, hx⟩ := hostileReplayer.exists_steps (x := Config.initial chatWorld)
    (exchangeCues 1 5 1025 5)
    (p := fun x => idCalls x.view.past = [⟨5, 1025, 0⟩, ⟨5, 1, 0⟩] ∧ anyRefused x.view.past = true)
    (by decide +kernel)
  obtain ⟨hcalls, hrefused⟩ := of_decide_eq_true hx
  refine ⟨es, x, hrun, ?_, ?_, ?_, hrefused⟩
  · rw [hcalls]
    decide
  · rw [hcalls]
    decide
  · rw [hcalls]
    decide

end ChatCluster
