import ChatCluster.Groups

/-!
# Who is the creator of a group

Runs of whole requests in which every statement succeeds. A group gets its creator, if
at all, from the request that makes it: its id is not in use before, and an existing
membership is never rewritten.
-/
namespace ChatCluster
open CommandProgram KeyedTable

/-! ## What leaves the tables of the groups alone -/

def Statement.WritesGroups : Statement → Prop
  | .insertGroup _ _ => True
  | .insertGroupUser _ _ _ => True
  | _ => False

/-- The part of a database that groups are stored in. -/
def Database.groupTables (db : Database) : Table GroupRow.id × ℤ × Table GroupUserRow.key :=
  (db.allgroup, db.nextGroupId, db.groupuser)

theorem Statement.groupTables_exec {ok : Bool} {q : Statement} {db : Database}
    (hq : ¬ q.WritesGroups) : (q.exec ok db).2.groupTables = db.groupTables := by
  cases ok with
  | false => rfl
  | true =>
      cases q with
      | insertGroup => exact absurd trivial hq
      | insertGroupUser => exact absurd trivial hq
      | insertUser name password state =>
          obtain ⟨t, n, h⟩ := run_insertUser name password state db
          rw [exec_true, h]
          rfl
      | insertMessage messageid senderid receiverid groupid msgtype payload =>
          obtain ⟨t, h⟩ := run_insertMessage messageid senderid receiverid groupid msgtype payload db
          rw [exec_true, h]
          rfl
      | _ => rfl

def Command.KeepsGroups (c : Command) : Prop := ∀ q, c = .sql q → ¬ q.WritesGroups

theorem keepsGroups_sql {q : Statement} (h : ¬ q.WritesGroups) : (Command.sql q).KeepsGroups := by
  intro q' hq
  cases hq
  exact h

theorem keepsGroups_of_ne {c : Command} (h : ∀ q, c ≠ .sql q) : c.KeepsGroups :=
  fun q hq => absurd hq (h q)

theorem Command.OfAccount.keepsGroups {id : ℤ} {c : Command} (h : c.OfAccount id) :
    c.KeepsGroups := by
  cases h <;> exact keepsGroups_sql not_false

theorem Command.OfTeardown.keepsGroups {P : ℤ → Prop} {c : Command} (h : c.OfTeardown P) :
    c.KeepsGroups := by
  cases h with
  | offline => exact keepsGroups_sql not_false
  | _ => exact keepsGroups_of_ne (by simp)

theorem Command.OfDelivery.keepsGroups {Q : ℤ → ℤ → String → Prop} {P : Sent → Prop}
    {c : Command} (h : c.OfDelivery Q P) : c.KeepsGroups := by
  cases h with
  | members | insert | mark | query | ack => exact keepsGroups_sql not_false
  | _ => exact keepsGroups_of_ne (by simp)

theorem keepsGroups_login {conn : Conn} {js : Json} : (login conn js).All Command.KeepsGroups :=
  all_login (fun _ => keepsGroups_sql not_false) (fun _ => keepsGroups_of_ne (by simp))
    (keepsGroups_of_ne (by simp)) (fun _ => keepsGroups_of_ne (by simp))
    (fun _ => keepsGroups_sql not_false) (fun _ => keepsGroups_sql not_false)
    (fun _ _ => keepsGroups_sql not_false) (fun _ _ h => h.keepsGroups)
    (fun _ => keepsGroups_of_ne (by simp))

theorem keepsGroups_addFriend {conn : Conn} {js : Json} :
    (addFriend conn js).All Command.KeepsGroups :=
  all_addFriend (fun _ => keepsGroups_of_ne (by simp)) fun _ _ => keepsGroups_sql not_false

theorem keepsGroups_frame {conn : Conn} {js : Json} {time : String}
    (hcreate : msgType? js ≠ some .createGroupMsg) (hadd : msgType? js ≠ some .addGroupMsg) :
    (onMessage conn js time).All Command.KeepsGroups := by
  have hstored : ∀ {Q : ℤ → ℤ → String → Prop} {P : Sent → Prop} {p : Program Unit},
      p.All (Command.OfDelivery Q P) → p.All Command.KeepsGroups :=
    fun h => h.mono fun _ => Command.OfDelivery.keepsGroups
  have hsend : ∀ response : Json, (Command.sendTo conn (.json response)).KeepsGroups :=
    fun _ => keepsGroups_of_ne (by simp)
  rw [onMessage_eq]
  cases ht : msgType? js with
  | none => trivial
  | some t =>
      cases t with
      | loginMsg => exact keepsGroups_login
      | loginoutMsg =>
          exact (ofTeardown_loginout (P := fun _ => True) fun _ _ => trivial).mono
            fun _ => Command.OfTeardown.keepsGroups
      | regMsg => exact all_reg (fun _ _ _ => keepsGroups_sql not_false) fun r _ => hsend r
      | oneChatMsg =>
          exact hstored (ofDelivery_oneChat (Q := fun _ _ _ => True) (P := fun _ => True)
            (fun _ _ _ _ _ _ _ _ => trivial) fun _ => trivial)
      | addFriendMsg => exact keepsGroups_addFriend
      | createGroupMsg => exact absurd ht hcreate
      | addGroupMsg => exact absurd ht hadd
      | groupChatMsg =>
          exact hstored (ofDelivery_groupChat (Q := fun _ _ _ => True) (P := fun _ => True)
            (fun _ _ _ _ _ _ _ => trivial) fun _ _ => trivial)
      | msgAck =>
          exact all_messageAck (fun _ => keepsGroups_of_ne (by simp))
            fun _ _ => keepsGroups_sql not_false
      | heartbeatMsg => exact all_heartbeat fun r _ => hsend r
      | loginMsgAck => trivial
      | regMsgAck => trivial

theorem groupTables_exec {c : Command} (hc : c.KeepsGroups) {o : Choice} {a : Agent}
    {w w' : World} {r : Response c} (h : exec o a c w = some (r, w')) :
    w'.db.groupTables = w.db.groupTables := by
  by_cases hsql : ∃ q, c = .sql q
  · obtain ⟨q, rfl⟩ := hsql
    rw [(exec_sql h).2]
    exact Statement.groupTables_exec (hc q rfl)
  · rw [db_exec (fun q hq => hsql ⟨q, hq⟩) h]

/-! ## The creators of a group -/

namespace Database

/-- The ids of groups, also where only a creator row names them, have been generated. -/
structure GroupIdsUsed (db : Database) : Prop where
  groups : ∀ row ∈ db.allgroup.rows, row.id < db.nextGroupId
  creators : ∀ r ∈ db.groupuser.rows, r.grouprole = .creator → r.groupid < db.nextGroupId

def IsCreator (db : Database) (groupid : ℤ) (r : GroupUserRow) : Prop :=
  r ∈ db.groupuser.rows ∧ r.groupid = groupid ∧ r.grouprole = .creator

/-- The group has one row with the role of a creator, and it is the row of `userid`. -/
def OneCreator (db : Database) (groupid userid : ℤ) : Prop :=
  ∀ r, db.IsCreator groupid r ↔ r = ⟨groupid, userid, .creator⟩

/-- What a step does to the groups: no group loses or gains a creator but the one made. -/
structure GroupsStep (db db' : Database) : Prop where
  used : db'.GroupIdsUsed
  next_le : db.nextGroupId ≤ db'.nextGroupId
  isCreator : ∀ groupid < db.nextGroupId, ∀ r, db'.IsCreator groupid r ↔ db.IsCreator groupid r

variable {db db' : Database}

theorem GroupsStep.refl (h : db.GroupIdsUsed) : GroupsStep db db :=
  ⟨h, le_rfl, fun _ _ _ => Iff.rfl⟩

theorem GroupsStep.trans {db'' : Database} (h : GroupsStep db db') (h' : GroupsStep db' db'') :
    GroupsStep db db'' where
  used := h'.used
  next_le := h.next_le.trans h'.next_le
  isCreator groupid hlt r :=
    (h'.isCreator groupid (lt_of_lt_of_le hlt h.next_le) r).trans (h.isCreator groupid hlt r)

theorem groupsStep_of_groupTables (h : db.GroupIdsUsed) (hsame : db'.groupTables = db.groupTables) :
    GroupsStep db db' := by
  obtain ⟨hgroups, hrest⟩ := Prod.mk.inj hsame
  obtain ⟨hnext, hmembers⟩ := Prod.mk.inj hrest
  refine ⟨⟨?_, ?_⟩, hnext.ge, fun groupid _ r => ?_⟩
  · rw [hgroups, hnext]
    exact h.groups
  · rw [hmembers, hnext]
    exact h.creators
  · rw [IsCreator, IsCreator, hmembers]

/-- A normal member is never a creator. -/
theorem groupsStep_addGroup (h : db.GroupIdsUsed) (userid groupid : ℤ) :
    GroupsStep db (db.addGroup (fun _ => true) userid groupid) := by
  show GroupsStep db (db.insertGroupUser groupid userid .normal)
  cases hfind : db.groupuser.find? (toLex (groupid, userid)) with
  | some row =>
      rw [insertGroupUser_of_some hfind]
      exact .refl h
  | none =>
      have hmem : ∀ r, r ∈ (db.insertGroupUser groupid userid .normal).groupuser.rows ↔
          r = ⟨groupid, userid, .normal⟩ ∨ r ∈ db.groupuser.rows :=
        fun r => mem_insertGroupUser hfind
      refine ⟨⟨h.groups, fun r hr hrole => ?_⟩, le_rfl, fun g _ r => ?_⟩
      · rcases (hmem r).mp hr with rfl | hr
        · cases hrole
        · exact h.creators r hr hrole
      · rw [IsCreator, IsCreator, hmem]
        constructor
        · intro h
          rcases h with ⟨rfl | hr, hg, hrole⟩
          · cases hrole
          · exact ⟨hr, hg, hrole⟩
        · intro h
          rcases h with ⟨hr, hg, hrole⟩
          exact ⟨.inr hr, hg, hrole⟩

/-- The id of a new group is free, so that its row is written. -/
theorem exists_insertGroup (h : db.GroupIdsUsed) (name desc : String) :
    ∃ db', db.insertGroup name desc = some (db.nextGroupId, db') := by
  have hfree : db.allgroup.find? db.nextGroupId = none :=
    Table.find?_eq_none.mpr fun row hrow => (h.groups row hrow).ne
  obtain ⟨t, ht⟩ := Table.exists_insert_of_find?_none
    (r := (⟨db.nextGroupId, name, desc⟩ : GroupRow)) hfree
  exact ⟨_, by rw [insertGroup, ht]; rfl⟩

/-- What a new group consists of. -/
structure GroupMade (db db' : Database) (userid : ℤ) (name desc : String) : Prop where
  step : GroupsStep db db'
  next_lt : db.nextGroupId < db'.nextGroupId
  groups : ∀ row ∈ db'.allgroup.rows,
    row = ⟨db.nextGroupId, name, desc⟩ ∨ row ∈ db.allgroup.rows
  isCreator : ∀ r, db'.IsCreator db.nextGroupId r ↔
    r = ⟨db.nextGroupId, userid, .creator⟩ ∧
      db.groupuser.find? (toLex (db.nextGroupId, userid)) = none

theorem groupMade_createGroup (h : db.GroupIdsUsed) (userid : ℤ) (name desc : String) :
    GroupMade db (db.createGroup (fun _ => true) userid name desc) userid name desc := by
  obtain ⟨db₁, hinsert⟩ := exists_insertGroup h name desc
  obtain ⟨-, hmembers, hnext, hgroups⟩ := insertGroup_eq_some hinsert
  have hcreate : db.createGroup (fun _ => true) userid name desc =
      db₁.insertGroupUser db.nextGroupId userid .creator := by
    simp only [createGroup, if_true, hinsert]
  have hallgroup : ∀ row ∈ db₁.allgroup.rows,
      row = ⟨db.nextGroupId, name, desc⟩ ∨ row ∈ db.allgroup.rows :=
    fun row hrow => (Table.mem_insert hgroups).mp hrow
  have hmem : ∀ r, r ∈ (db₁.insertGroupUser db.nextGroupId userid .creator).groupuser.rows ↔
      (r = ⟨db.nextGroupId, userid, .creator⟩ ∧
        db.groupuser.find? (toLex (db.nextGroupId, userid)) = none) ∨
      r ∈ db.groupuser.rows := by
    intro r
    cases hfind : db₁.groupuser.find? (toLex (db.nextGroupId, userid)) with
    | some row =>
        rw [insertGroupUser_of_some hfind, ← hmembers, hfind]
        simp
    | none =>
        rw [mem_insertGroupUser hfind, ← hmembers, hfind]
        simp
  have hold : ∀ r ∈ db.groupuser.rows, r.grouprole = .creator → r.groupid ≠ db.nextGroupId :=
    fun r hr hrole => (h.creators r hr hrole).ne
  rw [hcreate]
  refine ⟨⟨⟨fun row hrow => ?_, fun r hr hrole => ?_⟩, ?_, fun groupid hlt r => ?_⟩, ?_, hallgroup,
    fun r => ?_⟩
  · show row.id < db₁.nextGroupId
    rw [hnext]
    rcases hallgroup row hrow with rfl | hrow
    · exact Int.lt_succ _
    · exact (h.groups row hrow).trans (Int.lt_succ _)
  · show r.groupid < db₁.nextGroupId
    rw [hnext]
    rcases (hmem r).mp hr with ⟨rfl, -⟩ | hr
    · exact Int.lt_succ _
    · exact (h.creators r hr hrole).trans (Int.lt_succ _)
  · show db.nextGroupId ≤ db₁.nextGroupId
    omega
  · rw [IsCreator, IsCreator, hmem]
    constructor
    · intro h
      rcases h with ⟨⟨rfl, -⟩ | hr, rfl, hrole⟩
      · exact absurd hlt (lt_irrefl _)
      · exact ⟨hr, rfl, hrole⟩
    · intro h
      rcases h with ⟨hr, hg, hrole⟩
      exact ⟨.inr hr, hg, hrole⟩
  · show db.nextGroupId < db₁.nextGroupId
    omega
  · rw [IsCreator, hmem]
    constructor
    · intro h
      rcases h with ⟨hnew | hr, hg, hrole⟩
      · exact hnew
      · exact absurd hg (hold r hr hrole)
    · intro h
      rcases h with ⟨rfl, hfree⟩
      exact ⟨.inl ⟨rfl, hfree⟩, rfl, rfl⟩

end Database

/-! ## One request -/

section Requests
variable [JsonParser] {E : Environment} {w w' : World} {j : Job}

/-- The job is a request of `userid` that `createGroup` carries out. -/
def Job.Creates (j : Job) (w : World) (userid : ℤ) (name desc : String) : Prop :=
  ∃ conn js time, j = .frame conn js time ∧ msgType? js = some .createGroupMsg ∧
    newGroup? conn js w = some (userid, name, desc)

theorem db_of_creates (hE : ∀ j q, ¬ E.mayFail j (.sql q)) (h : Cluster.Handles E w j w')
    {userid : ℤ} {name desc : String} (hcreates : j.Creates w userid name desc) :
    w'.db = w.db.createGroup (fun _ => true) userid name desc := by
  obtain ⟨conn, js, time, rfl, hmsg, hnew⟩ := hcreates
  obtain ⟨w₁, ⟨-, -, rfl⟩, hrun⟩ := h
  have hrun' : (onMessage conn js time).Runs (SqlStep (.io conn) fun _ => true) w₁ () w' :=
    hrun.mono fun _ _ _ _ hp => sqlStep_of_performs hE hp
  rw [onMessage_eq, hmsg] at hrun'
  have hdb := runs_createGroup hrun'
  rw [hnew] at hdb
  exact hdb

/-- A request makes a group, adds a member, or leaves both tables alone. -/
theorem groupTables_handles (hE : ∀ j q, ¬ E.mayFail j (.sql q))
    (h : Cluster.Handles E w j w') :
    w'.db.groupTables = w.db.groupTables ∨
    (∃ userid name desc, j.Creates w userid name desc ∧
      w'.db = w.db.createGroup (fun _ => true) userid name desc) ∨
    (∃ userid groupid, w'.db = w.db.addGroup (fun _ => true) userid groupid) := by
  obtain ⟨w₁, hstart, hrun⟩ := id h
  have hframe : j.body.All Command.KeepsGroups → w'.db.groupTables = w₁.db.groupTables :=
    fun hall => hrun.frame (fun v => v.db.groupTables) hall fun c v r v' hc hv => by
      obtain ⟨o, ho⟩ := hv.exec
      exact groupTables_exec hc ho
  have hdb := Job.db_starts hstart
  cases j with
  | frame conn js time =>
      obtain ⟨-, -, rfl⟩ := hstart
      have hrun' : (onMessage conn js time).Runs (SqlStep (.io conn) fun _ => true) w₁ () w' :=
        hrun.mono fun _ _ _ _ hp => sqlStep_of_performs hE hp
      rw [onMessage_eq] at hrun'
      by_cases hcreate : msgType? js = some .createGroupMsg
      · rw [hcreate] at hrun'
        have hdb' := runs_createGroup hrun'
        cases hnew : newGroup? conn js w₁ with
        | none =>
            rw [hnew] at hdb'
            exact .inl (congrArg Database.groupTables hdb')
        | some request =>
            have hcreates : (Job.frame conn js time).Creates w₁ request.1 request.2.1 request.2.2 :=
              ⟨conn, js, time, rfl, hcreate, hnew⟩
            exact .inr (.inl ⟨_, _, _, hcreates, db_of_creates hE h hcreates⟩)
      · by_cases hadd : msgType? js = some .addGroupMsg
        · rw [hadd] at hrun'
          have hdb' := runs_addGroup hrun'
          cases hjoin : joinedGroup? conn js w₁ with
          | none =>
              rw [hjoin] at hdb'
              exact .inl (congrArg Database.groupTables hdb')
          | some request =>
              rw [hjoin] at hdb'
              exact .inr (.inr ⟨request.1, request.2, hdb'⟩)
        · exact .inl (hframe (keepsGroups_frame hcreate hadd))
  | close conn =>
      refine .inl ((hframe ?_).trans (congrArg Database.groupTables hdb))
      exact all_clientCloseException (keepsGroups_of_ne (by simp))
        fun _ => Command.OfTeardown.keepsGroups
  | redisMessage n channel message =>
      refine .inl ((hframe ?_).trans (congrArg Database.groupTables hdb))
      exact all_handleRedisSubscribeMessage (keepsGroups_of_ne (by simp))
        (keepsGroups_of_ne (by simp)) (fun _ => keepsGroups_of_ne (by simp))
        (fun _ => keepsGroups_sql not_false) (keepsGroups_of_ne (by simp))
  | sigint n =>
      refine .inl ((hframe ?_).trans (congrArg Database.groupTables hdb))
      exact ⟨keepsGroups_sql not_false, fun _ => ⟨keepsGroups_of_ne (by simp), fun _ => trivial⟩⟩

/-! ## Runs of requests -/

theorem groupsStep_handles (hE : ∀ j q, ¬ E.mayFail j (.sql q)) (h : Cluster.Handles E w j w')
    (hw : w.db.GroupIdsUsed) : Database.GroupsStep w.db w'.db := by
  rcases groupTables_handles hE h with hsame | ⟨userid, name, desc, -, hdb⟩ | ⟨userid, groupid, hdb⟩
  · exact Database.groupsStep_of_groupTables hw hsame
  · rw [hdb]
    exact (Database.groupMade_createGroup hw userid name desc).step
  · rw [hdb]
    exact Database.groupsStep_addGroup hw userid groupid

theorem groupsStep_run (hE : ∀ j q, ¬ E.mayFail j (.sql q)) {js : List Job}
    (h : Cluster.Run E w js w') (hw : w.db.GroupIdsUsed) : Database.GroupsStep w.db w'.db := by
  induction h with
  | done => exact .refl hw
  | step _ hs ih => exact ih.trans (groupsStep_handles hE hs ih.used)

/-- In the run, the request of `userid` that was handled in `w₁` made the group. -/
def GroupMadeBy (E : Environment) (w : World) (js : List Job) (w' : World) (groupid userid : ℤ)
    (w₁ : World) : Prop :=
  ∃ before j after w₂ name desc, js = before ++ j :: after ∧ Cluster.Run E w before w₁ ∧
    Cluster.Handles E w₁ j w₂ ∧ Cluster.Run E w₂ after w' ∧ j.Creates w₁ userid name desc ∧
    w₁.db.nextGroupId = groupid

/-- The request whose handling adds a group to the table. -/
theorem creates_of_group (hE : ∀ j q, ¬ E.mayFail j (.sql q)) (h : Cluster.Handles E w j w')
    (hw : w.db.GroupIdsUsed) {row : GroupRow} (hrow : row ∈ w'.db.allgroup.rows) :
    row ∈ w.db.allgroup.rows ∨
      row.id = w.db.nextGroupId ∧ ∃ userid name desc, j.Creates w userid name desc := by
  rcases groupTables_handles hE h with hsame | ⟨userid, name, desc, hcreates, hdb⟩ |
    ⟨userid, groupid, hdb⟩
  · rw [(Prod.mk.inj hsame).1] at hrow
    exact .inl hrow
  · rw [hdb] at hrow
    rcases (Database.groupMade_createGroup hw userid name desc).groups row hrow with rfl | hold
    · exact .inr ⟨rfl, userid, name, desc, hcreates⟩
    · exact .inl hold
  · rw [hdb] at hrow
    exact .inl hrow

/-- Every group of a reachable state was made by a request of the run. -/
theorem exists_groupMadeBy (hE : ∀ j q, ¬ E.mayFail j (.sql q)) {js : List Job}
    (h : Cluster.Run E w js w') (hw : w.db.GroupIdsUsed) {row : GroupRow}
    (hrow : row ∈ w'.db.allgroup.rows) (hnew : row ∉ w.db.allgroup.rows) :
    ∃ userid w₁, GroupMadeBy E w js w' row.id userid w₁ := by
  induction h with
  | done => exact absurd hrow hnew
  | @step js j w₁ w₂ hrun hs ih =>
      have hused := (groupsStep_run hE hrun hw).used
      rcases creates_of_group hE hs hused hrow with hold | ⟨hid, userid, name, desc, hcreates⟩
      · obtain ⟨userid, w₀, before, i, after, w₀', name, desc, rfl, hbefore, hi, hafter, hmade⟩ :=
          ih hold
        exact ⟨userid, w₀, before, i, after ++ [j], w₀', name, desc, by simp, hbefore, hi,
          .step hafter hs, hmade⟩
      · exact ⟨userid, w₁, js, j, [], w₂, name, desc, rfl, hrun, hs, .done, hcreates, hid.symm⟩

/-- In every reachable state each group has been made by a request of the run, and from
then on its one creator is the user of that request, exactly when this user was no member
of the group before it was made. -/
theorem one_creator_iff (hE : ∀ j q, ¬ E.mayFail j (.sql q)) {js : List Job}
    (hgroups : w.db.allgroup = .empty) (hmembers : w.db.groupuser = .empty)
    (h : Cluster.Run E w js w') :
    (∀ row ∈ w'.db.allgroup.rows, ∃ userid w₁, GroupMadeBy E w js w' row.id userid w₁) ∧
    ∀ groupid userid w₁, GroupMadeBy E w js w' groupid userid w₁ →
      (w'.db.OneCreator groupid userid ↔
        w₁.db.groupuser.find? (toLex (groupid, userid)) = none) := by
  have hw : w.db.GroupIdsUsed := by
    constructor
    · rw [hgroups]
      intro row hrow
      cases hrow
    · rw [hmembers]
      intro r hr
      cases hr
  constructor
  · intro row hrow
    refine exists_groupMadeBy hE h hw hrow ?_
    rw [hgroups]
    exact List.not_mem_nil
  · rintro groupid userid w₁ ⟨before, j, after, w₂, name, desc, rfl, hbefore, hj, hafter,
      hcreates, rfl⟩
    have hused := (groupsStep_run hE hbefore hw).used
    have hmade := Database.groupMade_createGroup hused userid name desc
    rw [← db_of_creates hE hj hcreates] at hmade
    have hlater := groupsStep_run hE hafter hmade.step.used
    have hcreator : ∀ r, w'.db.IsCreator w₁.db.nextGroupId r ↔
        r = ⟨w₁.db.nextGroupId, userid, .creator⟩ ∧
          w₁.db.groupuser.find? (toLex (w₁.db.nextGroupId, userid)) = none :=
      fun r => (hlater.isCreator _ hmade.next_lt r).trans (hmade.isCreator r)
    simp only [Database.OneCreator, hcreator]
    constructor
    · intro hone
      exact ((hone _).mpr rfl).2
    · intro hfree r
      exact and_iff_left hfree

end Requests

/-- A user logs in and founds a group. -/
theorem one_creator_founded : letI := Cluster.rejectAll
    ∃ w', w'.db.allgroup.rows ≠ [] ∧
      (∀ row ∈ w'.db.allgroup.rows, ∃ userid w₁, GroupMadeBy .calm
        (World.fresh (Statement.registered [("ann", "pw")]))
        [.frame ⟨0, 0⟩ (Client.loginRequest 1 "pw") "",
          .frame ⟨0, 0⟩ (Client.createGroupRequest 1 "lean" "proofs") ""] w' row.id userid w₁) ∧
      ∀ groupid userid w₁, GroupMadeBy .calm (World.fresh (Statement.registered [("ann", "pw")]))
          [.frame ⟨0, 0⟩ (Client.loginRequest 1 "pw") "",
            .frame ⟨0, 0⟩ (Client.createGroupRequest 1 "lean" "proofs") ""] w' groupid userid w₁ →
        (w'.db.OneCreator groupid userid ↔
          w₁.db.groupuser.find? (toLex (groupid, userid)) = none) := by
  let _ := Cluster.rejectAll
  obtain ⟨w', hrun, hrows⟩ := Cluster.exists_run (E := .calm)
    (w := World.fresh (Statement.registered [("ann", "pw")]))
    [({}, .frame ⟨0, 0⟩ (Client.loginRequest 1 "pw") ""),
      ({}, .frame ⟨0, 0⟩ (Client.createGroupRequest 1 "lean" "proofs") "")]
    (p := fun w' => w'.db.allgroup.rows ≠ []) (by decide +kernel)
  exact ⟨w', of_decide_eq_true hrows, one_creator_iff (fun _ _ h => h) rfl rfl hrun⟩

/-- A user joins group `1` before there is one, then founds it, and it has no creator. -/
theorem founder_already_member : letI := Cluster.rejectAll
    ∃ w' : World, Cluster.Run .calm (World.fresh (Statement.registered [("ann", "pw")]))
        [.frame ⟨0, 0⟩ (Client.loginRequest 1 "pw") "",
          .frame ⟨0, 0⟩ (Client.addGroupRequest 1 1) "",
          .frame ⟨0, 0⟩ (Client.createGroupRequest 1 "lean" "proofs") ""] w' ∧
      (w'.db.allgroup.find? 1).isSome = true ∧ ∀ userid, ¬ w'.db.OneCreator 1 userid := by
  let _ := Cluster.rejectAll
  obtain ⟨w', hrun, hrows⟩ := Cluster.exists_run (E := .calm)
    (w := World.fresh (Statement.registered [("ann", "pw")]))
    [({}, .frame ⟨0, 0⟩ (Client.loginRequest 1 "pw") ""),
      ({}, .frame ⟨0, 0⟩ (Client.addGroupRequest 1 1) ""),
      ({}, .frame ⟨0, 0⟩ (Client.createGroupRequest 1 "lean" "proofs") "")]
    (p := fun w' => (w'.db.allgroup.find? 1).isSome = true ∧
      w'.db.groupuser.rows = [⟨1, 1, .normal⟩]) (by decide +kernel)
  obtain ⟨hgroup, hmembers⟩ := of_decide_eq_true hrows
  refine ⟨w', hrun, hgroup, fun userid hone => ?_⟩
  have hcreator := ((hone ⟨1, userid, .creator⟩).mpr rfl).1
  rw [hmembers, List.mem_singleton] at hcreator
  cases hcreator

end ChatCluster
