import ChatCluster.DeliveryRoutes

/-!
# The contacts of the client

The client keeps the friends and the groups of its user in two global lists. A login
answer has a key for each of them only where the list is not empty, and the client clears
a list only where it finds the key.
-/
namespace ChatCluster

namespace Client

/-- A `User` as the client keeps it; the password stays empty. -/
structure Contact where
  id : ℤ
  name : String
  state : String
deriving DecidableEq

structure Member extends Contact where
  role : String
deriving DecidableEq

structure ContactGroup where
  id : ℤ
  name : String
  desc : String
  users : List Member
deriving DecidableEq

/-- `g_currentUser`, `g_currentUserFriendList` and `g_currentUserGroupList`. -/
structure ClientState where
  currentId : ℤ
  currentName : String
  friendList : List Contact
  groupList : List ContactGroup
deriving DecidableEq

/-- `vector<string> vec = js[key]` -/
def stringsAt (js : Json) (key : String) : Option (List String) :=
  match js.find? key with
  | some (.array xs) => xs.mapM Json.getStr?
  | _ => none

/-- The fields that a friend and a member of a group have in common. -/
def readContact (js : Json) : Option Contact := do
  let id ← intAt js "id"
  let name ← strAt js "name"
  let state ← strAt js "state"
  return ⟨id, name, state⟩

section Parser
variable [JsonParser]

def readFriend (str : String) : Option Contact := do
  let js ← JsonParser.parse str
  readContact js

def readMember (userstr : String) : Option Member := do
  let js ← JsonParser.parse userstr
  let user ← readContact js
  let role ← strAt js "role"
  return { user with role := role }

def readGroup (groupstr : String) : Option ContactGroup := do
  let grpjs ← JsonParser.parse groupstr
  let id ← intAt grpjs "id"
  let name ← strAt grpjs "groupname"
  let desc ← strAt grpjs "groupdesc"
  let vec2 ← stringsAt grpjs "users"
  let users ← vec2.mapM readMember
  return ⟨id, name, desc, users⟩

/-- A list that is cleared and filled where the answer has the key, and stays as it is
where it has not. -/
def updateList {α : Type} (read : String → Option α) (responsejs : Json) (key : String)
    (old : List α) : Option (List α) :=
  if responsejs.contains key then do
    let vec ← stringsAt responsejs key
    vec.mapM read
  else
    some old

/-- The state after an answer, and the frames sent for the offline messages. -/
def doLoginResponse (responsejs : Json) (s : ClientState) : Option (ClientState × List Json) := do
  let errno ← intAt responsejs "errno"
  if errno ≠ 0 then
    return (s, [])
  else
    let id ← intAt responsejs "id"
    let name ← strAt responsejs "name"
    let friendList ← updateList readFriend responsejs "friends" s.friendList
    let groupList ← updateList readGroup responsejs "groups" s.groupList
    let vec ← offlineTexts responsejs
    let acks ← showOfflineMessages id vec
    return (⟨id, name, friendList, groupList⟩, acks)

end Parser
end Client

/-! ## The lists of the server -/

/-- A friend as the client should keep it. -/
def User.contact (user : User) : Client.Contact := ⟨user.id, user.name, user.state.text⟩

def GroupUser.member (user : GroupUser) : Client.Member :=
  { user.toUser.contact with role := user.role.text }

def Group.contactGroup (group : Group) : Client.ContactGroup :=
  ⟨group.id, group.name, group.desc, group.users.map GroupUser.member⟩

/-- The client has the user and the lists of the server, element by element and in order. -/
structure Client.ClientState.Mirrors (s : ClientState) (user : User) (userVec : List User)
    (groupuserVec : List Group) : Prop where
  id : s.currentId = user.id
  name : s.currentName = user.name
  friends : s.friendList = userVec.map User.contact
  groups : s.groupList = groupuserVec.map Group.contactGroup

/-- The value of a C++ `int`. -/
def IsInt (n : ℤ) : Prop := INT_MIN ≤ n ∧ n ≤ INT_MAX

instance (n : ℤ) : Decidable (IsInt n) := inferInstanceAs (Decidable (_ ∧ _))

/-- All ids are ints. -/
structure IntIds (user : User) (userVec : List User) (groupuserVec : List Group) : Prop where
  user : IsInt user.id
  friends : ∀ u ∈ userVec, IsInt u.id
  groups : ∀ g ∈ groupuserVec, IsInt g.id ∧ ∀ u ∈ g.users, IsInt u.id

/-- The objects of the lists are what their dumps parse to. -/
structure ContactsReadBack [JsonParser] (userVec : List User) (groupuserVec : List Group) :
    Prop where
  friends : ∀ u ∈ userVec, JsonParser.parse u.friendJson.dump = some u.friendJson
  groups : ∀ g ∈ groupuserVec, JsonParser.parse g.groupJson.dump = some g.groupJson
  members : ∀ g ∈ groupuserVec, ∀ u ∈ g.users,
    JsonParser.parse u.memberJson.dump = some u.memberJson

/-! ## Reading the answer -/

theorem isObject_setStrings {response : Json} (h : response.IsObject) (key : String)
    (xs : List String) : (response.setStrings key xs).IsObject := by
  unfold Json.setStrings
  split_ifs
  · exact h
  · exact Json.isObject_set h _ _

theorem find?_setStrings_self {response : Json} (h : response.IsObject) {key : String}
    (hkey : response.find? key = none) (xs : List String) :
    (response.setStrings key xs).find? key = if xs = [] then none else some (.strings xs) := by
  cases xs with
  | nil => exact hkey
  | cons x xs =>
      rw [if_neg (List.cons_ne_nil x xs)]
      exact Json.find?_set_self h key _

/-- The fields of a login answer that are always there. -/
def loginHeader (user : User) : Json :=
  (((Json.null.set "msgid" (.int EnMsgType.loginMsgAck.code)).set "errno" (.int 0)).set
    "id" (.int user.id)).set "name" (.string user.name)

theorem isObject_loginHeader (user : User) : (loginHeader user).IsObject := trivial

theorem loginResponse_eq (user : User) (texts : List String) (userVec : List User)
    (groupuserVec : List Group) :
    loginResponse user texts userVec groupuserVec =
      (((loginHeader user).setStrings "offlinemsg" texts).setStrings
        "friends" (userVec.map fun user => user.friendJson.dump)).setStrings
        "groups" (groupuserVec.map fun group => group.groupJson.dump) := rfl

theorem friends_loginResponse (user : User) (texts : List String) (userVec : List User)
    (groupuserVec : List Group) :
    (loginResponse user texts userVec groupuserVec).find? "friends" =
      if userVec = [] then none
      else some (.strings (userVec.map fun user => user.friendJson.dump)) := by
  have hobject := isObject_setStrings (isObject_loginHeader user) "offlinemsg" texts
  have hkey := find?_setStrings_ne (loginHeader user) texts
    (show "friends" ≠ "offlinemsg" by decide)
  rw [loginResponse_eq, find?_setStrings_ne _ _ (by decide), find?_setStrings_self hobject hkey]
  simp only [List.map_eq_nil_iff]

theorem groups_loginResponse (user : User) (texts : List String) (userVec : List User)
    (groupuserVec : List Group) :
    (loginResponse user texts userVec groupuserVec).find? "groups" =
      if groupuserVec = [] then none
      else some (.strings (groupuserVec.map fun group => group.groupJson.dump)) := by
  have hobject := isObject_setStrings (isObject_setStrings (isObject_loginHeader user)
    "offlinemsg" texts) "friends" (userVec.map fun user => user.friendJson.dump)
  have hkey : (((loginHeader user).setStrings "offlinemsg" texts).setStrings "friends"
      (userVec.map fun user => user.friendJson.dump)).find? "groups" = none := by
    rw [find?_setStrings_ne _ _ (by decide), find?_setStrings_ne _ _ (by decide)]
    rfl
  rw [loginResponse_eq, find?_setStrings_self hobject hkey]
  simp only [List.map_eq_nil_iff]

/-! ## Reading one object -/

theorem mapM_map_eq_some {α β γ : Type} {f : α → β} {g : β → Option γ} {h : α → γ} {xs : List α}
    (hxs : ∀ x ∈ xs, g (f x) = some (h x)) : (xs.map f).mapM g = some (xs.map h) := by
  induction xs with
  | nil => rfl
  | cons x xs ih =>
      simp only [List.mem_cons, forall_eq_or_imp] at hxs
      rw [List.map_cons, List.mapM_cons, hxs.1, ih hxs.2]
      rfl

theorem intAt_int {js : Json} {key : String} {n : ℤ} (h : js.find? key = some (.int n))
    (hn : IsInt n) : Client.intAt js key = some n := by
  obtain ⟨hlower, hupper⟩ := hn
  unfold INT_MIN at hlower
  unfold INT_MAX at hupper
  have hvalue : (JsonInt.ofInt n).value = n := JsonInt.ofInt_value (by omega) (by omega)
  have hbmod : n.bmod (2 ^ 32) = n := Int.bmod_eq_of_le (m := 2 ^ 32) (by omega) (by omega)
  rw [Client.intAt, h, Option.bind_some, Json.int, Json.getInt32?, hvalue, hbmod]

/-- A list of the server arrives as it is, unless it is empty: then the old one stays. -/
theorem updateList_eq {α β : Type} {read : String → Option β} {responsejs : Json} {key : String}
    {xs : List α} {dump : α → String} {image : α → β} (old : List β)
    (hfind : responsejs.find? key = if xs = [] then none else some (.strings (xs.map dump)))
    (hread : ∀ x ∈ xs, read (dump x) = some (image x)) :
    Client.updateList read responsejs key old = some (if xs = [] then old else xs.map image) := by
  by_cases hxs : xs = []
  · rw [if_pos hxs] at hfind ⊢
    rw [Client.updateList, Json.contains, hfind]
    rfl
  · rw [if_neg hxs] at hfind ⊢
    have hstrings : Client.stringsAt responsejs key = some (xs.map dump) := by
      rw [Client.stringsAt, hfind]
      exact mapM_getStr? _
    rw [Client.updateList, Json.contains, hfind, Option.isSome_some, if_pos rfl, hstrings]
    exact mapM_map_eq_some hread

section Reading
variable [JsonParser]

theorem readFriend_friendJson {user : User} (hid : IsInt user.id)
    (hparse : JsonParser.parse user.friendJson.dump = some user.friendJson) :
    Client.readFriend user.friendJson.dump = some user.contact := by
  have hidAt : Client.intAt user.friendJson "id" = some user.id := intAt_int rfl hid
  rw [Client.readFriend, hparse, Option.bind_eq_bind, Option.bind_some, Client.readContact, hidAt]
  rfl

theorem readMember_memberJson {user : GroupUser} (hid : IsInt user.id)
    (hparse : JsonParser.parse user.memberJson.dump = some user.memberJson) :
    Client.readMember user.memberJson.dump = some user.member := by
  have hidAt : Client.intAt user.memberJson "id" = some user.id := intAt_int rfl hid
  rw [Client.readMember, hparse, Option.bind_eq_bind, Option.bind_some, Client.readContact, hidAt]
  rfl

theorem readGroup_groupJson {group : Group} (hid : IsInt group.id)
    (hids : ∀ u ∈ group.users, IsInt u.id)
    (hparse : JsonParser.parse group.groupJson.dump = some group.groupJson)
    (hparses : ∀ u ∈ group.users, JsonParser.parse u.memberJson.dump = some u.memberJson) :
    Client.readGroup group.groupJson.dump = some group.contactGroup := by
  have hidAt : Client.intAt group.groupJson "id" = some group.id := intAt_int rfl hid
  have husers : Client.stringsAt group.groupJson "users" =
      some (group.users.map fun user => user.memberJson.dump) := mapM_getStr? _
  have hmembers : (group.users.map fun user => user.memberJson.dump).mapM Client.readMember =
      some (group.users.map GroupUser.member) :=
    mapM_map_eq_some fun u hu => readMember_memberJson (hids u hu) (hparses u hu)
  have hname : Client.strAt group.groupJson "groupname" = some group.name := rfl
  have hdesc : Client.strAt group.groupJson "groupdesc" = some group.desc := rfl
  simp only [Client.readGroup, hparse, hidAt, hname, hdesc, husers, hmembers,
    Option.bind_eq_bind, Option.bind_some]
  rfl

/-- After the answer of a login the client has the lists of the server exactly when each
list that the server has left out was empty before. -/
theorem contacts_mirror_iff (user : User) (offlineMessages : List String) (userVec : List User)
    (groupuserVec : List Group) (s : Client.ClientState)
    (hids : IntIds user userVec groupuserVec) (hparse : ContactsReadBack userVec groupuserVec) :
    ∃ s', Client.doLoginResponse (loginResponse user offlineMessages userVec groupuserVec) s =
        (Client.showOfflineMessages user.id offlineMessages).map (fun acks => (s', acks)) ∧
      (s'.Mirrors user userVec groupuserVec ↔
        (userVec = [] → s.friendList = []) ∧ (groupuserVec = [] → s.groupList = [])) := by
  have hfriends := updateList_eq s.friendList
    (friends_loginResponse user offlineMessages userVec groupuserVec)
    fun u hu => readFriend_friendJson (hids.friends u hu) (hparse.friends u hu)
  have hgroups := updateList_eq s.groupList
    (groups_loginResponse user offlineMessages userVec groupuserVec)
    fun g hg => readGroup_groupJson (hids.groups g hg).1 (hids.groups g hg).2
      (hparse.groups g hg) (hparse.members g hg)
  refine ⟨⟨user.id, user.name, if userVec = [] then s.friendList else userVec.map User.contact,
    if groupuserVec = [] then s.groupList else groupuserVec.map Group.contactGroup⟩, ?_, ?_⟩
  · have herrno := (intAt_loginResponse user offlineMessages userVec groupuserVec).2
    have hid : Client.intAt (loginResponse user offlineMessages userVec groupuserVec) "id" =
        some user.id := by
      refine intAt_int ?_ hids.user
      rw [find?_loginResponse _ _ _ _ (by decide) (by decide) (by decide)]
      rfl
    have hname : Client.strAt (loginResponse user offlineMessages userVec groupuserVec) "name" =
        some user.name := by
      rw [Client.strAt, find?_loginResponse _ _ _ _ (by decide) (by decide) (by decide)]
      rfl
    simp only [Client.doLoginResponse, herrno, hid, hname, hfriends, hgroups,
      offlineTexts_loginResponse, Option.bind_eq_bind, Option.bind_some, ne_eq, not_true_eq_false,
      if_false]
    cases Client.showOfflineMessages user.id offlineMessages <;> rfl
  · constructor
    · intro h
      rcases h with ⟨-, -, hfriendList, hgroupList⟩
      constructor
      · intro heq
        subst heq
        exact hfriendList
      · intro heq
        subst heq
        exact hgroupList
    · intro h
      rcases h with ⟨hfriendList, hgroupList⟩
      refine ⟨rfl, rfl, ?_, ?_⟩
      · by_cases hempty : userVec = []
        · rw [if_pos hempty, hfriendList hempty, hempty]
          rfl
        · rw [if_neg hempty]
      · by_cases hempty : groupuserVec = []
        · rw [if_pos hempty, hgroupList hempty, hempty]
          rfl
        · rw [if_neg hempty]

end Reading

/-! ## Two accounts in one client -/

def annUser : User := { id := 1, name := "ann" }

def bobFriend : User := { id := 2, name := "bob", state := .online }

def annMember : GroupUser := { id := 1, name := "ann", state := .online, role := .creator }

def leanGroup : Group := { id := 1, name := "lean", desc := "proofs", users := [annMember] }

/-- The lists that another account has left. -/
def usedClient : Client.ClientState where
  currentId := 3
  currentName := "cid"
  friendList := [⟨4, "dan", "offline"⟩]
  groupList := []

/-- The answer has both lists. -/
theorem contacts_mirror_ann :
    letI := parserOf [bobFriend.friendJson, leanGroup.groupJson, annMember.memberJson]
    ∃ s', Client.doLoginResponse (loginResponse annUser [] [bobFriend] [leanGroup]) usedClient =
        (Client.showOfflineMessages 1 []).map (fun acks => (s', acks)) ∧
      (s'.Mirrors annUser [bobFriend] [leanGroup] ↔
        ([bobFriend] = [] → usedClient.friendList = []) ∧
          ([leanGroup] = [] → usedClient.groupList = [])) := by
  let _ := parserOf [bobFriend.friendJson, leanGroup.groupJson, annMember.memberJson]
  refine contacts_mirror_iff annUser [] [bobFriend] [leanGroup] usedClient ?_ ?_
  · constructor
    · decide
    · decide
    · decide
  · constructor
    · intro u hu
      obtain rfl := List.mem_singleton.mp hu
      exact parse_parserOf [] (by simp)
    · intro g hg
      obtain rfl := List.mem_singleton.mp hg
      exact parse_parserOf [bobFriend.friendJson] (by decide +kernel)
    · intro g hg u hu
      obtain rfl := List.mem_singleton.mp hg
      obtain rfl := List.mem_singleton.mp hu
      exact parse_parserOf [bobFriend.friendJson, leanGroup.groupJson]
        (by decide +kernel)

/-- User `1` has no friends, and is shown those of the account used before. -/
theorem stale_friends_kept : letI := Cluster.rejectAll
    ∃ s', Client.doLoginResponse (loginResponse annUser [] [] []) usedClient = some (s', []) ∧
      ¬ s'.Mirrors annUser [] [] := by
  let _ := Cluster.rejectAll
  refine ⟨⟨1, "ann", [⟨4, "dan", "offline"⟩], []⟩, rfl, fun h => ?_⟩
  have hfriends := h.friends
  cases hfriends

end ChatCluster
