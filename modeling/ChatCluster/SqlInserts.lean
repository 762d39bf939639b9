import ChatCluster.Framing
import ChatCluster.Library.SqlText

/-!
# The texts of the inserts

What `UserModel::insert`, `GroupModel::createGroup` and `MessageModel::insert` pass to
`mysql_query`, byte by byte. The first two build the text in a buffer of 2048 bytes, which
cuts it off when it is longer.
-/
namespace ChatCluster
open SqlText

/-- A connection, with what the inserts use of the MySQL client library. -/
structure MySQL where
  /-- `mysql_init` and `mysql_real_connect` succeed. -/
  connects : Bool
  realEscapeString : Bytes → Bytes
  /-- `mysql_query` returns 0 for the text. -/
  query : Bytes → Bool

/-- A text that `mysql_query` was given, and the result of `MySQL::update`. -/
structure Update where
  text : Bytes
  succeeds : Bool

namespace MySQL

/-- The library escapes byte by byte, and the server takes no text that it cannot parse. -/
structure Documented (mysql : MySQL) : Prop where
  escapes : ∀ value, mysql.realEscapeString value = escape value
  rejects : ∀ text, 0 ∉ text → Unfinished text → mysql.query text = false

variable (mysql : MySQL)

/-- The connection is open when a model class comes here. -/
def escapeString (value : Bytes) : Bytes :=
  if value.isEmpty then value else mysql.realEscapeString value

def update (sql : Bytes) : Update := ⟨cBytes sql, mysql.query (cBytes sql)⟩

end MySQL

/-- `snprintf` into a buffer of `size` bytes, the last of which is the NUL. -/
def snprintf (size : ℕ) (text : Bytes) : Bytes := text.take (size - 1)

/-! ## The three operations -/

/-- `none` when there is no connection; the operation then returns false. -/
def UserModel.insertOn (mysql : MySQL) (name password state : Bytes) : Option Update :=
  if mysql.connects then
    let name := mysql.escapeString name
    let password := mysql.escapeString password
    let state := mysql.escapeString state
    let sql := snprintf 2048 (utf8 "insert into user(name, password, state) values('" ++
      cBytes name ++ utf8 "', '" ++ cBytes password ++ utf8 "', '" ++ cBytes state ++ utf8 "')")
    some (mysql.update (cBytes sql))
  else none

def GroupModel.createGroupOn (mysql : MySQL) (groupname groupdesc : Bytes) : Option Update :=
  if mysql.connects then
    let name := mysql.escapeString groupname
    let desc := mysql.escapeString groupdesc
    let sql := snprintf 2048 (utf8 "insert into allgroup(groupname, groupdesc) values('" ++
      cBytes name ++ utf8 "', '" ++ cBytes desc ++ utf8 "')")
    some (mysql.update (cBytes sql))
  else none

def MessageModel.insertOn (mysql : MySQL) (messageid senderid receiverid groupid msgtype : ℤ)
    (payload : Bytes) : Option Update :=
  if mysql.connects then
    let escapedPayload := mysql.escapeString payload
    let sql := utf8 ("insert into chat_message(message_id, sender_id, receiver_id, group_id, " ++
        "msg_type, payload, status) values(") ++
      decimal messageid ++ utf8 ", " ++
      decimal senderid ++ utf8 ", " ++
      decimal receiverid ++ utf8 ", " ++
      decimal groupid ++ utf8 ", " ++
      decimal msgtype ++ utf8 ", '" ++
      escapedPayload ++ utf8 "', " ++
      decimal MessageStatus.created ++ utf8 ")"
    some (mysql.update sql)
  else none

/-- Whether the operation returns true. -/
def Update.returned (update : Option Update) : Bool :=
  match update with
  | some update => update.succeeds
  | none => false

/-! ## What they mean to say -/

def userInsert (name password state : Bytes) : Insert where
  table := ⟨ascii "user", by decide⟩
  columns := [⟨ascii "name", by decide⟩, ⟨ascii "password", by decide⟩,
    ⟨ascii "state", by decide⟩]
  values := [.text name, .text password, .text state]

def groupInsert (groupname groupdesc : Bytes) : Insert where
  table := ⟨ascii "allgroup", by decide⟩
  columns := [⟨ascii "groupname", by decide⟩, ⟨ascii "groupdesc", by decide⟩]
  values := [.text groupname, .text groupdesc]

def messageInsert (messageid senderid receiverid groupid msgtype : ℤ) (payload : Bytes) :
    Insert where
  table := ⟨ascii "chat_message", by decide⟩
  columns := [⟨ascii "message_id", by decide⟩, ⟨ascii "sender_id", by decide⟩,
    ⟨ascii "receiver_id", by decide⟩, ⟨ascii "group_id", by decide⟩,
    ⟨ascii "msg_type", by decide⟩, ⟨ascii "payload", by decide⟩, ⟨ascii "status", by decide⟩]
  values := [.number messageid, .number senderid, .number receiverid, .number groupid,
    .number msgtype, .text payload, .number MessageStatus.created]

/-- A text is passed when there is a connection. It is the insert if it fits, otherwise no
statement at all, and refused. It is never another insert. -/
structure SaysOnly (connects : Bool) (fits : Prop) (update : Option Update) (intended : Insert) :
    Prop where
  passed : update.isSome = connects
  whole : ∀ u, update = some u → fits → Insert.read? u.text = some intended
  cut : ∀ u, update = some u → ¬ fits → Unfinished u.text ∧ Update.returned update = false
  only : ∀ u other, update = some u → Insert.read? u.text = some other → other = intended

theorem cBytes_eq_self {buffer : Bytes} (h : 0 ∉ buffer) : cBytes buffer = buffer := by
  apply List.takeWhile_eq_self_iff.mpr
  intro b hb
  exact decide_eq_true fun h0 => h (h0 ▸ hb)

namespace MySQL
variable {mysql : MySQL}

theorem escapeString_eq (h : mysql.Documented) (value : Bytes) :
    mysql.escapeString value = escape value := by
  unfold escapeString
  split_ifs with hempty
  · rw [List.isEmpty_iff.mp hempty]
    rfl
  · exact h.escapes value

/-- An argument of `snprintf` is not cut: escaping has removed the NULs. -/
theorem cBytes_escape (value : Bytes) : cBytes (escape value) = escape value :=
  cBytes_eq_self (zero_notMem_escape value)

/-- A part of an insert that goes on to its values, passed to the server. -/
theorem saysOnly_update (h : mysql.Documented) {intended : Insert} {sql : Bytes}
    (hsql : sql <+: intended.print) (hhead : intended.head <+: sql) :
    SaysOnly true (sql = intended.print) (some (mysql.update sql)) intended := by
  have hnul : 0 ∉ sql := fun h0 => intended.zero_notMem_print (hsql.subset h0)
  have htext : cBytes sql = sql := cBytes_eq_self hnul
  have hwhole : sql = intended.print → Insert.read? sql = some intended := by
    intro hall
    rw [hall, intended.read?_print]
  have hcut : sql ≠ intended.print → Unfinished sql := Insert.unfinished_of_cut intended hhead hsql
  constructor
  · rfl
  · intro u hu hall
    cases hu
    rw [update, htext]
    exact hwhole hall
  · intro u hu hne
    cases hu
    rw [update, Update.returned, htext]
    exact ⟨hcut hne, h.rejects sql hnul (hcut hne)⟩
  · intro u other hu hread
    cases hu
    rw [update, htext] at hread
    by_cases hall : sql = intended.print
    · rw [hwhole hall, Option.some.injEq] at hread
      exact hread.symm
    · rw [(hcut hall).read?_eq_none] at hread
      cases hread

/-- A buffer with room for more than the fixed part of the text. -/
theorem saysOnly_snprintf (h : mysql.Documented) {intended : Insert} {size : ℕ}
    (hsize : intended.head.length < size) :
    SaysOnly true (intended.print.length < size)
      (some (mysql.update (cBytes (snprintf size intended.print)))) intended := by
  have hstart : snprintf size intended.print <+: intended.print := List.take_prefix _ _
  have hnul : 0 ∉ snprintf size intended.print :=
    fun h0 => intended.zero_notMem_print (hstart.subset h0)
  have hhead : intended.head <+: snprintf size intended.print := by
    apply List.prefix_of_prefix_length_le (List.prefix_append _ _) hstart
    rw [snprintf, List.length_take, Insert.print, List.length_append]
    omega
  have hfits : snprintf size intended.print = intended.print ↔ intended.print.length < size := by
    rw [snprintf, List.take_eq_self_iff]
    omega
  have hmeans := saysOnly_update h hstart hhead
  rw [hfits] at hmeans
  rwa [cBytes_eq_self hnul]

end MySQL

/-! ## The texts are those of the inserts -/

theorem userInsert_print (name password state : Bytes) :
    (userInsert name password state).print =
      utf8 "insert into user(name, password, state) values('" ++ escape name ++ utf8 "', '" ++
        escape password ++ utf8 "', '" ++ escape state ++ utf8 "')" := by
  have hhead : utf8 "insert into user(name, password, state) values('" =
      (userInsert name password state).head ++ [quote] := rfl
  have hsep : utf8 "', '" = quote :: (ascii ", " ++ [quote]) := by decide
  have hend : utf8 "')" = [quote, 41] := by decide
  rw [hhead, hsep, hend]
  simp [Insert.print, userInsert, printItems, Value.print]

theorem groupInsert_print (groupname groupdesc : Bytes) :
    (groupInsert groupname groupdesc).print =
      utf8 "insert into allgroup(groupname, groupdesc) values('" ++ escape groupname ++
        utf8 "', '" ++ escape groupdesc ++ utf8 "')" := by
  have hhead : utf8 "insert into allgroup(groupname, groupdesc) values('" =
      (groupInsert groupname groupdesc).head ++ [quote] := rfl
  have hsep : utf8 "', '" = quote :: (ascii ", " ++ [quote]) := by decide
  have hend : utf8 "')" = [quote, 41] := by decide
  rw [hhead, hsep, hend]
  simp [Insert.print, groupInsert, printItems, Value.print]

theorem messageInsert_print (messageid senderid receiverid groupid msgtype : ℤ)
    (payload : Bytes) :
    (messageInsert messageid senderid receiverid groupid msgtype payload).print =
      utf8 ("insert into chat_message(message_id, sender_id, receiver_id, group_id, " ++
          "msg_type, payload, status) values(") ++
        decimal messageid ++ utf8 ", " ++ decimal senderid ++ utf8 ", " ++
        decimal receiverid ++ utf8 ", " ++ decimal groupid ++ utf8 ", " ++
        decimal msgtype ++ utf8 ", '" ++ escape payload ++ utf8 "', " ++
        decimal MessageStatus.created ++ utf8 ")" := by
  have hhead : utf8 ("insert into chat_message(message_id, sender_id, receiver_id, group_id, " ++
      "msg_type, payload, status) values(") = (messageInsert 0 0 0 0 0 []).head := by
    decide +kernel
  have hcomma : utf8 ", " = ascii ", " := by decide
  have hopen : utf8 ", '" = ascii ", " ++ [quote] := by decide
  have hclose : utf8 "', " = quote :: ascii ", " := by decide
  have hend : utf8 ")" = [41] := by decide
  rw [hhead, hcomma, hopen, hclose, hend]
  simp [Insert.print, Insert.head, messageInsert, printItems, Value.print]

theorem saysOnly_none (fits : Prop) (intended : Insert) : SaysOnly false fits none intended := by
  constructor
  · rfl
  · intro u hu
    cases hu
  · intro u hu
    cases hu
  · intro u other hu
    cases hu

section Operations
variable {mysql : MySQL}

theorem UserModel.saysOnly_insertOn (h : mysql.Documented) (name password state : Bytes) :
    SaysOnly mysql.connects ((userInsert name password state).print.length < 2048)
      (UserModel.insertOn mysql name password state) (userInsert name password state) := by
  unfold UserModel.insertOn
  split_ifs with hconnects
  · rw [hconnects]
    have hhead : (userInsert [] [] []).head.length < 2048 := by decide
    simp only [MySQL.escapeString_eq h, MySQL.cBytes_escape, ← userInsert_print]
    exact MySQL.saysOnly_snprintf h hhead
  · rw [Bool.eq_false_iff.mpr hconnects]
    exact saysOnly_none _ _

theorem GroupModel.saysOnly_createGroupOn (h : mysql.Documented) (groupname groupdesc : Bytes) :
    SaysOnly mysql.connects ((groupInsert groupname groupdesc).print.length < 2048)
      (GroupModel.createGroupOn mysql groupname groupdesc) (groupInsert groupname groupdesc) := by
  unfold GroupModel.createGroupOn
  split_ifs with hconnects
  · rw [hconnects]
    have hhead : (groupInsert [] []).head.length < 2048 := by decide
    simp only [MySQL.escapeString_eq h, MySQL.cBytes_escape, ← groupInsert_print]
    exact MySQL.saysOnly_snprintf h hhead
  · rw [Bool.eq_false_iff.mpr hconnects]
    exact saysOnly_none _ _

theorem MessageModel.saysOnly_insertOn (h : mysql.Documented)
    (messageid senderid receiverid groupid msgtype : ℤ) (payload : Bytes) :
    SaysOnly mysql.connects True
      (MessageModel.insertOn mysql messageid senderid receiverid groupid msgtype payload)
      (messageInsert messageid senderid receiverid groupid msgtype payload) := by
  unfold MessageModel.insertOn
  split_ifs with hconnects
  · rw [hconnects]
    simp only [MySQL.escapeString_eq h, ← messageInsert_print]
    have hmeans := MySQL.saysOnly_update h List.prefix_rfl
      (List.prefix_append (messageInsert messageid senderid receiverid groupid msgtype payload).head _)
    rwa [eq_self] at hmeans
  · rw [Bool.eq_false_iff.mpr hconnects]
    exact saysOnly_none _ _

end Operations

/-! ## The statements that are executed -/

theorem utf8_injective {s t : String} (h : utf8 s = utf8 t) : s = t := by
  have hbytes : s.toList.utf8Encode = t.toList.utf8Encode := congrArg List.toByteArray h
  rw [String.utf8Encode_toList, String.utf8Encode_toList] at hbytes
  exact String.toByteArray_inj.mp hbytes

namespace Statement

/-- The insert that a statement stands for. -/
def insert? : Statement → Option Insert
  | insertUser name password state =>
      some (userInsert (utf8 name) (utf8 password) (utf8 state.text))
  | insertGroup groupname groupdesc => some (groupInsert (utf8 groupname) (utf8 groupdesc))
  | insertMessage messageid senderid receiverid groupid msgtype payload =>
      some (messageInsert messageid senderid receiverid groupid msgtype (utf8 payload))
  | _ => none

theorem state_inj {s t : UserState} (h : utf8 s.text = utf8 t.text) : s = t := by
  have htext := utf8_injective h
  cases s <;> cases t <;> simp_all [UserState.text]

/-- The values of an insert tell which statement it is. -/
theorem insert?_inj {q q' : Statement} {i : Insert} (h : q.insert? = some i)
    (h' : q'.insert? = some i) : q = q' := by
  have hvalues : q.insert?.map Insert.values = q'.insert?.map Insert.values := by rw [h, h']
  cases q with
  | insertUser name password state =>
      cases q' with
      | insertUser name' password' state' =>
          simp only [insert?, userInsert, Option.map_some, Option.some.injEq, List.cons.injEq,
            Value.text.injEq] at hvalues
          rw [utf8_injective hvalues.1, utf8_injective hvalues.2.1, state_inj hvalues.2.2.1]
      | insertGroup groupname groupdesc => simp [insert?, userInsert, groupInsert] at hvalues
      | insertMessage => simp [insert?, userInsert, messageInsert] at hvalues
      | _ => cases h'
  | insertGroup groupname groupdesc =>
      cases q' with
      | insertGroup groupname' groupdesc' =>
          simp only [insert?, groupInsert, Option.map_some, Option.some.injEq, List.cons.injEq,
            Value.text.injEq] at hvalues
          rw [utf8_injective hvalues.1, utf8_injective hvalues.2.1]
      | insertUser => simp [insert?, userInsert, groupInsert] at hvalues
      | insertMessage => simp [insert?, groupInsert, messageInsert] at hvalues
      | _ => cases h'
  | insertMessage messageid senderid receiverid groupid msgtype payload =>
      cases q' with
      | insertMessage messageid' senderid' receiverid' groupid' msgtype' payload' =>
          simp only [insert?, messageInsert, Option.map_some, Option.some.injEq, List.cons.injEq,
            Value.text.injEq, Value.number.injEq] at hvalues
          obtain ⟨rfl, rfl, rfl, rfl, rfl, hpayload, -⟩ := hvalues
          rw [utf8_injective hpayload]
      | insertUser => simp [insert?, userInsert, messageInsert] at hvalues
      | insertGroup => simp [insert?, groupInsert, messageInsert] at hvalues
      | _ => cases h'
  | _ => cases h

/-- The server never takes the text of one statement for another statement. -/
theorem eq_of_saysOnly {q q' : Statement} {i : Insert} {connects : Bool} {fits : Prop}
    {update : Option Update} (hmeans : SaysOnly connects fits update i) (h : q.insert? = some i)
    {u : Update} (hu : update = some u) {other : Insert}
    (hread : Insert.read? u.text = some other) (h' : q'.insert? = some other) : q' = q := by
  have hsame := hmeans.only u other hu hread
  subst hsame
  exact insert?_inj h' h

/-- What the operation of an insert passes to the server. -/
def passes? (mysql : MySQL) : Statement → Option Update
  | insertUser name password state =>
      UserModel.insertOn mysql (utf8 name) (utf8 password) (utf8 state.text)
  | insertGroup groupname groupdesc =>
      GroupModel.createGroupOn mysql (utf8 groupname) (utf8 groupdesc)
  | insertMessage messageid senderid receiverid groupid msgtype payload =>
      MessageModel.insertOn mysql messageid senderid receiverid groupid msgtype (utf8 payload)
  | _ => none

theorem eq_of_passes {mysql : MySQL} (h : mysql.Documented) {q q' : Statement} {u : Update}
    (hu : q.passes? mysql = some u) {other : Insert} (hread : Insert.read? u.text = some other)
    (h' : q'.insert? = some other) : q' = q := by
  cases q with
  | insertUser => exact eq_of_saysOnly (UserModel.saysOnly_insertOn h ..) rfl hu hread h'
  | insertGroup => exact eq_of_saysOnly (GroupModel.saysOnly_createGroupOn h ..) rfl hu hread h'
  | insertMessage => exact eq_of_saysOnly (MessageModel.saysOnly_insertOn h ..) rfl hu hread h'
  | _ => cases hu

end Statement

/-! ## The inserts and the texts of users -/

/-- User text never changes the meaning of a statement: a text that is passed is that of the
intended insert or of none, and is taken for no other statement of the service. -/
theorem inserts_say_only {mysql : MySQL} (h : mysql.Documented) :
    (∀ name password state,
      SaysOnly mysql.connects ((userInsert name password state).print.length < 2048)
        (UserModel.insertOn mysql name password state) (userInsert name password state)) ∧
    (∀ groupname groupdesc,
      SaysOnly mysql.connects ((groupInsert groupname groupdesc).print.length < 2048)
        (GroupModel.createGroupOn mysql groupname groupdesc) (groupInsert groupname groupdesc)) ∧
    (∀ messageid senderid receiverid groupid msgtype payload,
      SaysOnly mysql.connects True
        (MessageModel.insertOn mysql messageid senderid receiverid groupid msgtype payload)
        (messageInsert messageid senderid receiverid groupid msgtype payload)) ∧
    ∀ (q q' : Statement) u other, q.passes? mysql = some u → Insert.read? u.text = some other →
      q'.insert? = some other → q' = q :=
  ⟨UserModel.saysOnly_insertOn h, GroupModel.saysOnly_createGroupOn h,
    MessageModel.saysOnly_insertOn h, fun _ _ _ _ hu hread h' => Statement.eq_of_passes h hu hread h'⟩

/-- A server that takes everything but what the documentation excludes. -/
def MySQL.lenient : MySQL where
  connects := true
  realEscapeString := escape
  query text := decide (¬ Unfinished text)

theorem MySQL.documented_lenient : MySQL.lenient.Documented where
  escapes _ := rfl
  rejects text _ hunfinished := by simp [lenient, hunfinished]

theorem insert_says_hostile_name :
    (∃ u, UserModel.insertOn .lenient (utf8 "x'); delete from user; -- ") (utf8 "\\'")
        (utf8 "offline") = some u ∧
      Insert.read? u.text = some
        (userInsert (utf8 "x'); delete from user; -- ") (utf8 "\\'") (utf8 "offline"))) ∧
    (∃ u, GroupModel.createGroupOn .lenient (utf8 "a', 'b") (utf8 "'); -- ") = some u ∧
      Insert.read? u.text = some (groupInsert (utf8 "a', 'b") (utf8 "'); -- "))) ∧
    ∃ u, MessageModel.insertOn .lenient 7 1 2 (-1) 6 (utf8 "it's \\'); -- ") = some u ∧
      Insert.read? u.text = some (messageInsert 7 1 2 (-1) 6 (utf8 "it's \\'); -- ")) := by
  obtain ⟨huser, hgroup, hmessage, -⟩ := inserts_say_only MySQL.documented_lenient
  refine ⟨⟨_, rfl, (huser _ _ _).whole _ rfl (by decide)⟩,
    ⟨_, rfl, (hgroup _ _).whole _ rfl (by decide)⟩, ?_⟩
  obtain ⟨u, hu⟩ := Option.isSome_iff_exists.mp
    (hmessage 7 1 2 (-1) 6 (utf8 "it's \\'); -- ")).passed
  exact ⟨u, hu, (hmessage ..).whole u hu trivial⟩

end ChatCluster
