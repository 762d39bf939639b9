import ChatCluster.SqlFailures
import ChatCluster.Client

/-!
# Groups and their creators

`createGroup` issues two statements: the row of the group, and the membership of its
creator by `insert ignore`. `addGroup` issues the second one for any group id.
-/
namespace ChatCluster
open CommandProgram KeyedTable

/-! ## The handlers on the tables -/

/-- The user, the name and the description of a request that `createGroup` carries out. -/
def newGroup? (conn : Conn) (js : Json) (w : World) : Option (ℤ × String × String) :=
  match getInt js "id", getString js "groupname", getString js "groupdesc" with
  | some userid, some name, some desc =>
      if name ≠ "" ∧ w.bound conn.node userid = some conn then some (userid, name, desc) else none
  | _, _, _ => none

/-- The user and the group of a request that `addGroup` carries out. -/
def joinedGroup? (conn : Conn) (js : Json) (w : World) : Option (ℤ × ℤ) :=
  match getInt js "id", getInt js "groupid" with
  | some userid, some groupid =>
      if w.bound conn.node userid = some conn then some (userid, groupid) else none
  | _, _ => none

namespace Database

/-- The two statements of `createGroup`. -/
def createGroup (db : Database) (ok : Statement → Bool) (userid : ℤ) (name desc : String) :
    Database :=
  if ok (.insertGroup name desc) then
    match db.insertGroup name desc with
    | some (groupid, db') =>
        if ok (.insertGroupUser groupid userid .creator) then
          db'.insertGroupUser groupid userid .creator
        else db'
    | none => db
  else db

def addGroup (db : Database) (ok : Statement → Bool) (userid groupid : ℤ) : Database :=
  if ok (.insertGroupUser groupid userid .normal) then db.insertGroupUser groupid userid .normal
  else db

theorem insertGroup_eq_some {db db' : Database} {name desc : String} {groupid : ℤ}
    (h : db.insertGroup name desc = some (groupid, db')) :
    groupid = db.nextGroupId ∧ db'.groupuser = db.groupuser ∧
      db'.nextGroupId = db.nextGroupId + 1 ∧
      db.allgroup.insert ⟨db.nextGroupId, name, desc⟩ = some db'.allgroup := by
  obtain ⟨t, ht, he⟩ := Option.map_eq_some_iff.mp h
  cases he
  exact ⟨rfl, rfl, rfl, ht⟩

/-- An existing membership keeps its role. -/
theorem insertGroupUser_of_some {db : Database} {groupid userid : ℤ} {row : GroupUserRow}
    (h : db.groupuser.find? (toLex (groupid, userid)) = some row) (role : GroupRole) :
    db.insertGroupUser groupid userid role = db := by
  have hinsert : db.groupuser.insert ⟨groupid, userid, role⟩ = none :=
    Table.insert_of_find?_some h
  rw [insertGroupUser, hinsert]
  rfl

theorem mem_insertGroupUser {db : Database} {groupid userid : ℤ}
    (h : db.groupuser.find? (toLex (groupid, userid)) = none) {role : GroupRole}
    {r : GroupUserRow} : r ∈ (db.insertGroupUser groupid userid role).groupuser.rows ↔
      r = ⟨groupid, userid, role⟩ ∨ r ∈ db.groupuser.rows := by
  obtain ⟨t, ht⟩ := Table.exists_insert_of_find?_none (r := (⟨groupid, userid, role⟩ : GroupUserRow)) h
  rw [insertGroupUser, ht]
  exact Table.mem_insert ht

theorem find?_eq_some_iff_groupuser {db : Database} {groupid userid : ℤ} {row : GroupUserRow} :
    db.groupuser.find? (toLex (groupid, userid)) = some row ↔
      row ∈ db.groupuser.rows ∧ row = ⟨groupid, userid, row.grouprole⟩ := by
  rw [Table.find?_eq_some]
  refine and_congr_right fun _ => ?_
  obtain ⟨g, u, role⟩ := row
  simp [GroupUserRow.key]

/-- The row of a membership, found by its key. -/
theorem find?_groupuser {db : Database} {groupid userid : ℤ} {role : GroupRole} :
    db.groupuser.find? (toLex (groupid, userid)) = some ⟨groupid, userid, role⟩ ↔
      ⟨groupid, userid, role⟩ ∈ db.groupuser.rows := by
  rw [Table.find?_eq_some]
  exact and_iff_left rfl

/-! ## A request whose statements may fail -/

/-- The group has its row and its creator. -/
def GroupComplete (db db' : Database) (userid : ℤ) (name desc : String) : Prop :=
  ⟨db.nextGroupId, name, desc⟩ ∈ db'.allgroup.rows ∧
    ⟨db.nextGroupId, userid, .creator⟩ ∈ db'.groupuser.rows

def GroupsUntouched (db db' : Database) : Prop :=
  db'.allgroup = db.allgroup ∧ db'.groupuser = db.groupuser

/-- If the row of the group is written, then the membership of its creator too, or it
was there already with this role. -/
def CreatorFollows (db : Database) (ok : Statement → Bool) (userid : ℤ) (name desc : String) :
    Prop :=
  ok (.insertGroup name desc) = true → (db.insertGroup name desc).isSome = true →
    match db.groupuser.find? (toLex (db.nextGroupId, userid)) with
    | some row => row.grouprole = .creator
    | none => ok (.insertGroupUser db.nextGroupId userid .creator) = true

theorem createGroup_atomic_iff (db : Database) (ok : Statement → Bool) (userid : ℤ)
    (name desc : String) :
    GroupComplete db (db.createGroup ok userid name desc) userid name desc ∨
        GroupsUntouched db (db.createGroup ok userid name desc) ↔
      CreatorFollows db ok userid name desc := by
  unfold createGroup CreatorFollows
  by_cases hok : ok (.insertGroup name desc) = true
  · cases hinsert : db.insertGroup name desc with
    | none => simp [GroupsUntouched]
    | some p =>
        obtain ⟨groupid, db'⟩ := p
        obtain ⟨rfl, hmembers, -, hgroups⟩ := insertGroup_eq_some hinsert
        have hnew : ⟨db.nextGroupId, name, desc⟩ ∈ db'.allgroup.rows :=
          (Table.mem_insert hgroups).mpr (.inl rfl)
        have hfresh : ∀ db'' : Database, db''.allgroup = db'.allgroup →
            ¬ GroupsUntouched db db'' := by
          rintro db'' hsame ⟨hall, -⟩
          rw [← hsame, hall] at hnew
          exact Table.fresh_of_insert hgroups _ hnew rfl
        simp only [hok, if_true, Option.isSome_some, forall_const]
        cases hfind : db.groupuser.find? (toLex (db.nextGroupId, userid)) with
        | some row =>
            have hfind' : db'.groupuser.find? (toLex (db.nextGroupId, userid)) = some row := by
              rw [hmembers]
              exact hfind
            rw [insertGroupUser_of_some hfind', ite_self, or_iff_left (hfresh _ rfl)]
            constructor
            · intro h
              rcases h with ⟨-, hcreator⟩
              rw [← find?_groupuser, hfind'] at hcreator
              rw [Option.some.inj hcreator]
            · intro hrole
              have hrow := (find?_eq_some_iff_groupuser.mp hfind').2
              rw [hrole] at hrow
              refine ⟨hnew, find?_groupuser.mp ?_⟩
              rw [hfind', hrow]
        | none =>
            have hfind' : db'.groupuser.find? (toLex (db.nextGroupId, userid)) = none := by
              rw [hmembers]
              exact hfind
            split_ifs with hok'
            · simp only [hok', iff_true]
              exact .inl ⟨hnew, (mem_insertGroupUser hfind').mpr (.inl rfl)⟩
            · rw [or_iff_left (hfresh _ rfl)]
              refine iff_of_false ?_ hok'
              intro h
              rcases h with ⟨-, hcreator⟩
              rw [← find?_groupuser, hfind'] at hcreator
              cases hcreator
  · simp [hok, GroupsUntouched]

end Database

section Runs
variable {conn : Conn} {js : Json} {ok : Statement → Bool} {w w' : World} {x : Unit}

theorem runs_createGroup_statements {userid : ℤ} {name desc : String}
    (h : (do match ← GroupModel.createGroup { name := name, desc := desc } with
             | some groupid =>
                 let _ ← GroupModel.addGroup userid groupid .creator
             | none => return () : Program Unit).Runs (SqlStep (.io conn) ok) w x w') :
    w'.db = w.db.createGroup ok userid name desc := by
  obtain ⟨groupid?, w₁, hgroup, hrest⟩ := Prog.runs_bind.mp h
  obtain ⟨hanswer, rfl⟩ := runs_sql.mp hgroup
  simp only [Statement.exec, Statement.run] at hanswer hrest
  unfold Database.createGroup
  split_ifs at hanswer hrest ⊢ with hok
  · cases hinsert : w.db.insertGroup name desc with
    | none =>
        rw [hinsert] at hanswer hrest
        subst hanswer
        rw [hrest.2]
    | some p =>
        obtain ⟨groupid, db'⟩ := p
        rw [hinsert] at hanswer hrest
        subst hanswer
        obtain ⟨_, w₂, hjoin, -, rfl⟩ := Prog.runs_bind.mp hrest
        obtain ⟨-, rfl⟩ := runs_sql.mp hjoin
        simp only [Statement.exec, Statement.run]
        split_ifs <;> rfl
  · subst hanswer
    rw [hrest.2]

theorem runs_createGroup (h : (createGroup conn js).Runs (SqlStep (.io conn) ok) w x w') :
    w'.db = match newGroup? conn js w with
      | some (userid, name, desc) => w.db.createGroup ok userid name desc
      | none => w.db := by
  unfold createGroup at h
  split at h
  · next userid name desc hid hname hdesc =>
    simp only [newGroup?, hid, hname, hdesc]
    split_ifs at h with hempty
    · rw [if_neg (by simp [hempty]), h.2]
    · obtain ⟨bound, w₁, hcheck, hrest⟩ := Prog.runs_bind.mp h
      obtain ⟨hb, rfl⟩ := runs_isConnectionBoundToUser hcheck
      split_ifs at hrest with hbound
      · rw [if_pos ⟨hempty, hb.mp hbound⟩]
        exact runs_createGroup_statements hrest
      · rw [if_neg fun hc => hbound (hb.mpr hc.2), hrest.2]
  · next hnone =>
    have hrefused : newGroup? conn js w = none := by
      unfold newGroup?
      split
      · next hid hname hdesc => exact (hnone _ _ _ hid hname hdesc).elim
      · rfl
    rw [hrefused, h.2]

theorem runs_addGroup (h : (addGroup conn js).Runs (SqlStep (.io conn) ok) w x w') :
    w'.db = match joinedGroup? conn js w with
      | some (userid, groupid) => w.db.addGroup ok userid groupid
      | none => w.db := by
  unfold addGroup at h
  split at h
  · next userid groupid hid hgroupid =>
    simp only [joinedGroup?, hid, hgroupid]
    obtain ⟨bound, w₁, hcheck, hrest⟩ := Prog.runs_bind.mp h
    obtain ⟨hb, rfl⟩ := runs_isConnectionBoundToUser hcheck
    split_ifs at hrest with hbound
    · obtain ⟨_, w₂, hjoin, -, rfl⟩ := Prog.runs_bind.mp hrest
      obtain ⟨-, rfl⟩ := runs_sql.mp hjoin
      have hbound' : w₁.bound conn.node userid = some conn := hb.mp hbound
      rw [if_pos hbound']
      simp only [Database.addGroup, Statement.exec, Statement.run]
      split_ifs <;> rfl
    · have hbound' : ¬ w₁.bound conn.node userid = some conn := fun hc => hbound (hb.mpr hc)
      rw [if_neg hbound', hrest.2]
  · next hnone =>
    have hrefused : joinedGroup? conn js w = none := by
      unfold joinedGroup?
      split
      · next hid hgroupid => exact (hnone _ _ hid hgroupid).elim
      · rfl
    rw [hrefused, h.2]

/-- A request leaves the group with its creator, or both tables as they were, exactly when
the membership of the creator follows the row of the group. -/
theorem create_group_atomic_iff (conn : Conn) (js : Json) (ok : Statement → Bool) (w w' : World)
    (h : (createGroup conn js).Runs (SqlStep (.io conn) ok) w () w') :
    ((∃ userid name desc, newGroup? conn js w = some (userid, name, desc) ∧
        w.db.GroupComplete w'.db userid name desc) ∨ w.db.GroupsUntouched w'.db) ↔
      ∀ userid name desc, newGroup? conn js w = some (userid, name, desc) →
        w.db.CreatorFollows ok userid name desc := by
  have hdb := runs_createGroup h
  cases hnew : newGroup? conn js w with
  | none =>
      rw [hnew] at hdb
      simp [hdb, Database.GroupsUntouched]
  | some request =>
      obtain ⟨userid, name, desc⟩ := request
      rw [hnew] at hdb
      simp only [Option.some.injEq, Prod.mk.injEq, and_imp]
      have hdb' : w'.db = w.db.createGroup ok userid name desc := hdb
      have hiff := w.db.createGroup_atomic_iff ok userid name desc
      rw [← hdb'] at hiff
      constructor
      · rintro (⟨u, n, d, ⟨rfl, rfl, rfl⟩, hcomplete⟩ | huntouched) u' n' d' rfl rfl rfl
        · exact hiff.mp (.inl hcomplete)
        · exact hiff.mp (.inr huntouched)
      · intro hfollows
        rcases hiff.mpr (hfollows userid name desc rfl rfl rfl) with hcomplete | huntouched
        · exact .inl ⟨userid, name, desc, ⟨rfl, rfl, rfl⟩, hcomplete⟩
        · exact .inr huntouched

end Runs

/-- User `1` is bound and founds a group; all statements succeed. -/
theorem create_group_atomic_founded :
    ∃ w' : World, w'.db.allgroup.rows ≠ [] ∧
      (((∃ userid name desc, newGroup? ⟨0, 0⟩ (Client.createGroupRequest 1 "lean" "proofs")
            ((World.fresh .empty).withSession ⟨0, 0⟩ 1) = some (userid, name, desc) ∧
          Database.empty.GroupComplete w'.db userid name desc) ∨
        Database.empty.GroupsUntouched w'.db) ↔
      ∀ userid name desc, newGroup? ⟨0, 0⟩ (Client.createGroupRequest 1 "lean" "proofs")
          ((World.fresh .empty).withSession ⟨0, 0⟩ 1) = some (userid, name, desc) →
        Database.empty.CreatorFollows (fun _ => true) userid name desc) := by
  obtain ⟨_, w', hrun, hrows⟩ := Prog.exists_runs_of_eval?
    (f := sqlPerform? (.io ⟨0, 0⟩) fun _ => true) (fun _ _ _ _ => sqlStep_of_sqlPerform?)
    (p := createGroup ⟨0, 0⟩ (Client.createGroupRequest 1 "lean" "proofs"))
    (s := (World.fresh .empty).withSession ⟨0, 0⟩ 1)
    (fun w' => w'.db.allgroup.rows ≠ []) (by decide +kernel)
  exact ⟨w', of_decide_eq_true hrows, create_group_atomic_iff _ _ _ _ _ hrun⟩

/-- The second statement fails, and the group is left without a creator. -/
theorem orphan_group_left :
    ∃ w' : World, (createGroup ⟨0, 0⟩ (Client.createGroupRequest 1 "lean" "proofs")).Runs
        (SqlStep (.io ⟨0, 0⟩) fun q => match q with
          | .insertGroupUser _ _ _ => false
          | _ => true)
        ((World.fresh .empty).withSession ⟨0, 0⟩ 1) () w' ∧
      ¬ ((∃ userid name desc, newGroup? ⟨0, 0⟩ (Client.createGroupRequest 1 "lean" "proofs")
            ((World.fresh .empty).withSession ⟨0, 0⟩ 1) = some (userid, name, desc) ∧
          Database.empty.GroupComplete w'.db userid name desc) ∨
        Database.empty.GroupsUntouched w'.db) := by
  obtain ⟨_, w', hrun, htest⟩ := Prog.exists_runs_of_eval?
    (f := sqlPerform? (.io ⟨0, 0⟩) fun q => match q with
      | .insertGroupUser _ _ _ => false
      | _ => true) (fun _ _ _ _ => sqlStep_of_sqlPerform?)
    (p := createGroup ⟨0, 0⟩ (Client.createGroupRequest 1 "lean" "proofs"))
    (s := (World.fresh .empty).withSession ⟨0, 0⟩ 1)
    (fun w' => w'.db.allgroup.rows ≠ [] ∧ w'.db.groupuser.rows = []) (by decide +kernel)
  obtain ⟨hgroups, hmembers⟩ := of_decide_eq_true htest
  refine ⟨w', hrun, ?_⟩
  rintro (⟨userid, name, desc, -, -, hcreator⟩ | ⟨huntouched, -⟩)
  · rw [hmembers] at hcreator
    cases hcreator
  · rw [huntouched] at hgroups
    exact hgroups rfl

end ChatCluster
